import RiscvEm.Memory.Layout

/-
  The bytes of guest memory one by one: which of them an
  access reaches, and what a list of stores leaves alone.

  Key definitions include:
    * `MemoryMap.byteOf`
    * `MemoryMap.CellsAt`
    * `storeAll`

  Key theorems include:
    * `MemoryMap.load_congr`
    * `storeAll_byteOf`
-/

------------------------------------------------------------
-- Cells
------------------------------------------------------------

namespace RiscvEm

/- A byte of memory: the position of a region and an offset. -/
abbrev Cell := Nat × Nat

namespace MemoryMap

variable {m m' : MemoryMap}
variable {addr : BitVec 64}
variable {bits n : Nat}
variable {c : Cell}

def byteOf
    (m : MemoryMap)
    (c : Cell) : Option (BitVec 8) :=
  m.regions[c.1]?.map (fun r => r.data c.2)

/- The bytes that an access of `n` bytes reaches. -/
def CellsAt
    (m : MemoryMap)
    (addr : BitVec 64)
    (n : Nat)
    (c : Cell) : Prop :=
  ∃ r, m.findRegion addr = .ok c.1 ∧
    m.regions[c.1]? = some r ∧
    (addr - r.baseAddr).toNat ≤ c.2 ∧
    c.2 < (addr - r.baseAddr).toNat + n

theorem cellsAt_iff
    {i : Nat}
    {r : MemoryRegion}
    (hFind : m.findRegion addr = .ok i)
    (hGet : m.regions[i]? = some r) :
    m.CellsAt addr n c ↔
      c.1 = i ∧ (addr - r.baseAddr).toNat ≤ c.2 ∧
        c.2 < (addr - r.baseAddr).toNat + n := by
  constructor
  · rintro ⟨r', hFind', hGet', hLo, hHi⟩
    rw [hFind] at hFind'
    cases hFind'
    rw [hGet] at hGet'
    cases hGet'
    exact ⟨rfl, hLo, hHi⟩
  · rintro ⟨rfl, hLo, hHi⟩
    exact ⟨r, hFind, hGet, hLo, hHi⟩

theorem SameLayout.cellsAt
    (h : SameLayout m m')
    (hCell : m.CellsAt addr n c) :
    m'.CellsAt addr n c := by
  rcases hCell with ⟨r, hFind, hGet, hLo, hHi⟩
  rcases h.region hGet with ⟨r', hGet', hBase, -⟩
  rw [← hBase] at hLo hHi
  exact ⟨r', (h.findRegion addr).trans hFind, hGet', hLo, hHi⟩

theorem SameLayout.cellsAt_iff
    (h : SameLayout m m') :
    m'.CellsAt addr n c ↔ m.CellsAt addr n c :=
  ⟨h.symm.cellsAt, h.cellsAt⟩

/- A store changes the bytes it reaches at most. -/
theorem store_byteOf
    {v : BitVec 64}
    (hWidth : widthBytes bits = .ok n)
    (h : m.store addr bits v = .ok m')
    (hOut : ¬ m.CellsAt addr n c) :
    m'.byteOf c = m.byteOf c := by
  rcases store_cases hWidth h with
    ⟨i, r, hFind, hGet, hIn, hFit, rfl⟩
  rw [MemoryMap.cellsAt_iff hFind hGet] at hOut
  unfold byteOf
  dsimp only
  by_cases hIdx : c.1 = i
  · have hLt : i < m.regions.length :=
      (List.getElem?_eq_some_iff.mp hGet).1
    rw [hIdx, List.getElem?_set_self hLt, hGet]
    have hByte : ¬ ((addr - r.baseAddr).toNat ≤ c.2 ∧
        c.2 < (addr - r.baseAddr).toNat + n) :=
      fun hBoth => hOut ⟨hIdx, hBoth⟩
    exact congrArg some (if_neg hByte)
  · rw [List.getElem?_set_ne (Ne.symm hIdx)]

/- A load reads the bytes it reaches. -/
theorem load_congr
    {v : BitVec 64}
    (hWidth : widthBytes bits = .ok n)
    (hLayout : SameLayout m m')
    (hBytes : ∀ c, m.CellsAt addr n c →
      m'.byteOf c = m.byteOf c)
    (h : m.load addr bits = .ok v) :
    m'.load addr bits = .ok v := by
  rcases load_cases hWidth h with
    ⟨i, r, hFind, hGet, hIn, hFit, rfl⟩
  rcases hLayout.region hGet with ⟨r', hGet', hBase, hSize⟩
  have hFind' := (hLayout.findRegion addr).trans hFind
  have hIn' : r'.contains addr = true := by
    unfold MemoryRegion.contains at hIn ⊢
    rw [hBase, hSize]
    exact hIn
  rw [load_of_mapped hWidth hFind' hGet' hIn'
    (by rw [hBase, hSize]; exact hFit), hBase]
  congr 1
  refine composeLe_congr (fun k hk => ?_)
  have hByte := hBytes (i, (addr - r.baseAddr).toNat + k)
    ⟨r, hFind, hGet, Nat.le_add_right _ _, by omega⟩
  unfold byteOf at hByte
  dsimp only at hByte
  rw [hGet, hGet'] at hByte
  exact Option.some.inj hByte

end MemoryMap

end RiscvEm

------------------------------------------------------------
-- Lists Of Stores
------------------------------------------------------------

namespace RiscvEm

/- The arguments of a call of `store`. -/
structure GuestStore where
  addr : BitVec 64
  bits : Nat
  val : BitVec 64

/- The bytes a store reaches. -/
def GuestStore.Touches
    (s : GuestStore)
    (m : MemoryMap)
    (c : Cell) : Prop :=
  ∃ n, MemoryMap.widthBytes s.bits = .ok n ∧
    m.CellsAt s.addr n c

/- Stores in their order. -/
def storeAll
    (m : MemoryMap) :
    List GuestStore → Except HostFault MemoryMap
  | [] => .ok m
  | s :: ss => do
      let m ← m.store s.addr s.bits s.val
      storeAll m ss

variable {m m' : MemoryMap}

theorem storeAll_append
    (ss ts : List GuestStore) :
    storeAll m (ss ++ ts) =
      storeAll m ss >>= (fun m => storeAll m ts) := by
  induction ss generalizing m with
  | nil => rfl
  | cons s ss ih =>
      change (m.store s.addr s.bits s.val >>= fun m =>
        storeAll m (ss ++ ts)) = _
      cases hStore : m.store s.addr s.bits s.val with
      | error e =>
          simp [storeAll, hStore, bind, Except.bind]
      | ok m₁ =>
          change storeAll m₁ (ss ++ ts) = _
          rw [ih]
          simp only [storeAll, hStore, bind, Except.bind]

/- A store of an accepted width was done. -/
theorem store_width
    {addr v : BitVec 64}
    {bits : Nat}
    (h : m.store addr bits v = .ok m') :
    ∃ n, MemoryMap.widthBytes bits = .ok n := by
  rcases bind_eq_ok.mp h with ⟨i, -, h⟩
  split at h
  · cases h
  · rcases bind_eq_ok.mp h with ⟨off, -, h⟩
    rcases bind_eq_ok.mp h with ⟨n, hWidth, -⟩
    exact ⟨n, hWidth⟩

theorem storeAll_layout
    {ss : List GuestStore}
    (h : storeAll m ss = .ok m') :
    MemoryMap.SameLayout m m' := by
  induction ss generalizing m with
  | nil =>
      cases h
      exact .refl _
  | cons s ss ih =>
      rcases bind_eq_ok.mp h with ⟨m₁, hStore, hRest⟩
      rcases store_width hStore with ⟨n, hWidth⟩
      exact (MemoryMap.store_layout hWidth hStore).trans
        (ih hRest)

/- A byte that no store reaches stays. -/
theorem storeAll_byteOf
    {ss : List GuestStore}
    {c : Cell}
    (h : storeAll m ss = .ok m')
    (hOut : ∀ s ∈ ss, ¬ s.Touches m c) :
    m'.byteOf c = m.byteOf c := by
  induction ss generalizing m with
  | nil =>
      cases h
      rfl
  | cons s ss ih =>
      rcases bind_eq_ok.mp h with ⟨m₁, hStore, hRest⟩
      rcases store_width hStore with ⟨n, hWidth⟩
      have hLayout := MemoryMap.store_layout hWidth hStore
      rw [List.forall_mem_cons] at hOut
      have hHead := MemoryMap.store_byteOf hWidth hStore
        (fun hCell => hOut.1 ⟨n, hWidth, hCell⟩)
      refine (ih hRest ?_).trans hHead
      rintro t hMem ⟨k, hK, hCell⟩
      exact hOut.2 t hMem ⟨k, hK, hLayout.cellsAt_iff.mp hCell⟩

/- So does what a load reads where no store reaches. -/
theorem storeAll_load
    {ss : List GuestStore}
    {addr v : BitVec 64}
    {bits n : Nat}
    (hWidth : MemoryMap.widthBytes bits = .ok n)
    (h : storeAll m ss = .ok m')
    (hOut : ∀ s ∈ ss, ∀ c, m.CellsAt addr n c →
      ¬ s.Touches m c)
    (hLoad : m.load addr bits = .ok v) :
    m'.load addr bits = .ok v := by
  refine MemoryMap.load_congr hWidth (storeAll_layout h) ?_
    hLoad
  intro c hCell
  exact storeAll_byteOf h (fun s hMem => hOut s hMem c hCell)

end RiscvEm
