import RiscvEm.Memory.Cells

/-
  Areas of RAM: ranges of addresses that do not wrap. Stores
  within areas that lie apart leave one another's bytes
  alone.

  Key definitions include:
    * `Area`
    * `MemoryMap.InRam`
    * `GuestStore.Within`

  Key theorems include:
    * `MemoryMap.InRam.mapped`
    * `storeAll_load_apart`
-/

------------------------------------------------------------
-- Areas
------------------------------------------------------------

namespace RiscvEm

/- A range of addresses. -/
structure Area where
  addr : BitVec 64
  len : Nat

namespace Area

def Apart
    (a b : Area) : Prop :=
  a.addr.toNat + a.len ≤ b.addr.toNat ∨
    b.addr.toNat + b.len ≤ a.addr.toNat

/- Being apart is symmetric. -/
theorem Apart.symm
    {a b : Area}
    (h : a.Apart b) :
    b.Apart a :=
  Or.symm h

/- The area begins `k` bytes into the other and ends in it. -/
structure Part
    (b a : Area) : Prop where
  start : ∃ k, b.addr = a.addr + BitVec.ofNat 64 k ∧
    k + b.len ≤ a.len

/- An area is a part of itself. -/
theorem part_refl
    (a : Area) :
    a.Part a :=
  ⟨0, by simp, by omega⟩

/- Without a wrap, the part is a range within the other. -/
theorem Part.bounds
    {a b : Area}
    (h : b.Part a)
    (hFit : a.addr.toNat + a.len < 2 ^ 64) :
    a.addr.toNat ≤ b.addr.toNat ∧
      b.addr.toNat + b.len ≤ a.addr.toNat + a.len := by
  rcases h.start with ⟨k, hAddr, hLen⟩
  rw [hAddr, BitVec.toNat_add, BitVec.toNat_ofNat,
    Nat.mod_eq_of_lt (by omega : k < 2 ^ 64),
    Nat.mod_eq_of_lt (by omega)]
  omega

end Area

namespace MemoryMap

variable {m m' : MemoryMap}
variable {a b : Area}

/-
  The area lies in the region that `ram_direct` points to,
  which starts at 2 GiB.
-/
def InRam
    (m : MemoryMap)
    (a : Area) : Prop :=
  ∃ i r, m.ramDirect = some i ∧ m.regions[i]? = some r ∧
    r.baseAddr = 0x80000000 ∧ r.size.toNat < 2 ^ 63 ∧
    2 ^ 31 ≤ a.addr.toNat ∧
    a.addr.toNat + a.len ≤ 2 ^ 31 + r.size.toNat

/- An area in RAM does not wrap. -/
theorem InRam.fit
    (h : m.InRam a) :
    a.addr.toNat + a.len < 2 ^ 64 := by
  rcases h with ⟨i, r, -, -, -, hSize, -, hHi⟩
  omega

/- Parts of an area in RAM are in RAM. -/
theorem InRam.part
    (h : m.InRam a)
    (hPart : b.Part a) :
    m.InRam b := by
  have hBounds := hPart.bounds h.fit
  rcases h with ⟨i, r, hDirect, hGet, hBase, hSize, hLo, hHi⟩
  exact ⟨i, r, hDirect, hGet, hBase, hSize, by omega,
    by omega⟩

/- Stores keep areas in RAM. -/
theorem InRam.layout
    (h : m.InRam a)
    (hLayout : SameLayout m m') :
    m'.InRam a := by
  rcases h with ⟨i, r, hDirect, hGet, hBase, hSize, hLo, hHi⟩
  rcases hLayout.region hGet with
    ⟨r', hGet', hBase', hSize'⟩
  refine ⟨i, r', hLayout.ramDirect.trans hDirect, hGet',
    hBase'.trans hBase, ?_, hLo, ?_⟩
  · rw [hSize']
    exact hSize
  · rw [hSize']
    exact hHi

/- An area of RAM that is not empty is mapped. -/
theorem InRam.mapped
    (h : m.InRam a)
    (hPos : 0 < a.len) :
    m.Mapped a.addr a.len := by
  rcases h with ⟨i, r, hDirect, hGet, hBase, hSize, hLo, hHi⟩
  have hOff := toNat_ramOffset _ hLo
  have hConst : (0x80000000 : BitVec 64).toNat = 2 ^ 31 := rfl
  refine ⟨i, r, findRegion_ram hDirect _ hLo, hGet, ?_, ?_⟩
  · simp only [MemoryRegion.contains, hBase, Bool.and_eq_true,
      decide_eq_true_eq, BitVec.le_def, BitVec.lt_def,
      BitVec.toNat_add, hConst]
    omega
  · rw [hBase, hOff]
    omega

/- Accesses to areas that lie apart reach different bytes. -/
theorem InRam.apart
    (hA : m.InRam a)
    (hB : m.InRam b)
    (hApart : a.Apart b)
    {c : Cell}
    (hCell : m.CellsAt a.addr a.len c) :
    ¬ m.CellsAt b.addr b.len c := by
  rcases hA with ⟨i, r, hDirect, hGet, hBase, -, hLo, -⟩
  rcases hB with ⟨i', r', hDirect', hGet', -, -, hLo', -⟩
  rw [hDirect] at hDirect'
  cases hDirect'
  rw [hGet] at hGet'
  cases hGet'
  rw [cellsAt_iff (findRegion_ram hDirect _ hLo) hGet, hBase,
    toNat_ramOffset _ hLo] at hCell
  rw [cellsAt_iff (findRegion_ram hDirect _ hLo') hGet, hBase,
    toNat_ramOffset _ hLo']
  rintro ⟨-, hLow, hHigh⟩
  rcases hCell with ⟨-, hLow', hHigh'⟩
  unfold Area.Apart at hApart
  omega

end MemoryMap

end RiscvEm

------------------------------------------------------------
-- Stores Within Areas
------------------------------------------------------------

namespace RiscvEm

variable {m m' : MemoryMap}

/- The bytes of the store lie in the area. -/
def GuestStore.Within
    (s : GuestStore)
    (a : Area) : Prop :=
  ∃ n, MemoryMap.widthBytes s.bits = .ok n ∧
    Area.Part ⟨s.addr, n⟩ a

/- Each store lies in RAM, apart from an area. -/
def StoresApart
    (m : MemoryMap)
    (ss : List GuestStore)
    (b : Area) : Prop :=
  ∀ s ∈ ss, ∃ a, s.Within a ∧ m.InRam a ∧ a.Apart b

/- Two lists of stores that stay apart stay apart together. -/
theorem StoresApart.append
    {ss ts : List GuestStore}
    {b : Area}
    (hS : StoresApart m ss b)
    (hT : StoresApart m ts b) :
    StoresApart m (ss ++ ts) b := by
  intro s hMem
  rcases List.mem_append.mp hMem with hLeft | hRight
  · exact hS s hLeft
  · exact hT s hRight

/- Parts of areas that are apart are apart. -/
theorem Area.Apart.part
    {a b a' b' : Area}
    (h : a.Apart b)
    (hA : m.InRam a)
    (hB : m.InRam b)
    (hPartA : a'.Part a)
    (hPartB : b'.Part b) :
    a'.Apart b' := by
  have hBoundsA := hPartA.bounds hA.fit
  have hBoundsB := hPartB.bounds hB.fit
  unfold Area.Apart at h ⊢
  omega

/- What a load reads in an area survives stores apart. -/
theorem storeAll_load_apart
    {ss : List GuestStore}
    {b b' : Area}
    {bits : Nat}
    {v : BitVec 64}
    (h : storeAll m ss = .ok m')
    (hApart : StoresApart m ss b)
    (hRam : m.InRam b)
    (hPart : b'.Part b)
    (hWidth : MemoryMap.widthBytes bits = .ok b'.len)
    (hLoad : m.load b'.addr bits = .ok v) :
    m'.load b'.addr bits = .ok v := by
  refine storeAll_load hWidth h ?_ hLoad
  rintro s hMem c hCell ⟨n, hStore, hTouch⟩
  rcases hApart s hMem with ⟨a, ⟨n', hStore', hPartA⟩, hA, hAB⟩
  rw [hStore] at hStore'
  cases hStore'
  exact (hA.part hPartA).apart (hRam.part hPart)
    (hAB.part hA hRam hPartA hPart) hTouch hCell

end RiscvEm
