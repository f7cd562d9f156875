import RiscvEm.Memory.MemoryMap

/-
  Which accesses to guest memory succeed. That depends on
  where the regions lie, which no store changes.

  Key definitions include:
    * `MemoryMap.Mapped`
    * `MemoryMap.SameLayout`

  Key theorems include:
    * `MemoryMap.load_ok_iff`
    * `MemoryMap.store_ok_iff`
    * `MemoryMap.load_store`
-/

------------------------------------------------------------
-- Mapped Addresses
------------------------------------------------------------

namespace RiscvEm

namespace MemoryMap

variable {m m' m'' : MemoryMap}
variable {addr : BitVec 64}
variable {bits n : Nat}

/-
  The address belongs to the region that serves it, which has
  `n` bytes from there on.
-/
def Mapped
    (m : MemoryMap)
    (addr : BitVec 64)
    (n : Nat) : Prop :=
  ∃ i r, m.findRegion addr = .ok i ∧
    m.regions[i]? = some r ∧ r.contains addr = true ∧
    (addr - r.baseAddr).toNat + n ≤ r.size.toNat

/- A load that succeeds reads the bytes of one region. -/
theorem load_cases
    {v : BitVec 64}
    (hWidth : widthBytes bits = .ok n)
    (h : m.load addr bits = .ok v) :
    ∃ i r, m.findRegion addr = .ok i ∧
      m.regions[i]? = some r ∧ r.contains addr = true ∧
      (addr - r.baseAddr).toNat + n ≤ r.size.toNat ∧
      v = composeLe r.data (addr - r.baseAddr).toNat n := by
  rcases bind_eq_ok.mp h with ⟨i, hFind, h⟩
  cases hGet : m.regions[i]? with
  | none =>
      rw [hGet] at h
      cases h
  | some r =>
      rw [hGet] at h
      rcases bind_eq_ok.mp h with ⟨off, hPtr, h⟩
      rw [hWidth] at h
      change r.readAt off n = _ at h
      unfold MemoryRegion.ptr at hPtr
      unfold MemoryRegion.readAt at h
      split at hPtr
      case isFalse => cases hPtr
      case isTrue hIn =>
        cases hPtr
        split at h
        case isFalse => cases h
        case isTrue hFit =>
          cases h
          exact ⟨i, r, hFind, hGet, hIn, hFit, rfl⟩

/- A mapped load reads the bytes of its region. -/
theorem load_of_mapped
    {i : Nat}
    {r : MemoryRegion}
    (hWidth : widthBytes bits = .ok n)
    (hFind : m.findRegion addr = .ok i)
    (hGet : m.regions[i]? = some r)
    (hIn : r.contains addr = true)
    (hFit : (addr - r.baseAddr).toNat + n ≤ r.size.toNat) :
    m.load addr bits =
      .ok (composeLe r.data (addr - r.baseAddr).toNat n) := by
  have hPtr : r.ptr addr = .ok (addr - r.baseAddr).toNat :=
    if_pos hIn
  have hRead : r.readAt (addr - r.baseAddr).toNat n =
      .ok (composeLe r.data (addr - r.baseAddr).toNat n) :=
    if_pos hFit
  simp only [load, hFind, hGet, hPtr, hWidth, hRead, bind,
    Except.bind]

/- A load succeeds exactly if its bytes are mapped. -/
theorem load_ok_iff
    (hWidth : widthBytes bits = .ok n) :
    (∃ v, m.load addr bits = .ok v) ↔ m.Mapped addr n := by
  constructor
  · rintro ⟨v, h⟩
    rcases load_cases hWidth h with
      ⟨i, r, hFind, hGet, hIn, hFit, -⟩
    exact ⟨i, r, hFind, hGet, hIn, hFit⟩
  · rintro ⟨i, r, hFind, hGet, hIn, hFit⟩
    exact ⟨_, load_of_mapped hWidth hFind hGet hIn hFit⟩

/- A store that succeeds writes the bytes of one region. -/
theorem store_cases
    {v : BitVec 64}
    (hWidth : widthBytes bits = .ok n)
    (h : m.store addr bits v = .ok m') :
    ∃ i r, m.findRegion addr = .ok i ∧
      m.regions[i]? = some r ∧ r.contains addr = true ∧
      (addr - r.baseAddr).toNat + n ≤ r.size.toNat ∧
      m' = { m with
        regions := m.regions.set i { r with
          data := scatterLe r.data
            (addr - r.baseAddr).toNat n v } } := by
  rcases bind_eq_ok.mp h with ⟨i, hFind, h⟩
  cases hGet : m.regions[i]? with
  | none =>
      rw [hGet] at h
      cases h
  | some r =>
      rw [hGet] at h
      rcases bind_eq_ok.mp h with ⟨off, hPtr, h⟩
      rw [hWidth] at h
      rcases bind_eq_ok.mp h with ⟨n', hn, h⟩
      cases hn
      rcases bind_eq_ok.mp h with ⟨r', hWrite, h⟩
      cases h
      unfold MemoryRegion.ptr at hPtr
      unfold MemoryRegion.writeAt at hWrite
      split at hPtr
      case isFalse => cases hPtr
      case isTrue hIn =>
        cases hPtr
        split at hWrite
        case isFalse => cases hWrite
        case isTrue hFit =>
          cases hWrite
          exact ⟨i, r, hFind, hGet, hIn, hFit, rfl⟩

/- A store succeeds exactly on mapped addresses. -/
theorem store_ok_iff
    (hWidth : widthBytes bits = .ok n)
    (v : BitVec 64) :
    (∃ m', m.store addr bits v = .ok m') ↔
      m.Mapped addr n := by
  constructor
  · rintro ⟨m', h⟩
    rcases store_cases hWidth h with
      ⟨i, r, hFind, hGet, hIn, hFit, -⟩
    exact ⟨i, r, hFind, hGet, hIn, hFit⟩
  · rintro ⟨i, r, hFind, hGet, hIn, hFit⟩
    have hPtr : r.ptr addr = .ok (addr - r.baseAddr).toNat :=
      if_pos hIn
    have hWrite : r.writeAt (addr - r.baseAddr).toNat n v =
        .ok { r with
          data := scatterLe r.data
            (addr - r.baseAddr).toNat n v } :=
      if_pos hFit
    simp only [store, hFind, hGet, hPtr, hWidth, hWrite, bind,
      Except.bind]
    exact ⟨_, rfl⟩

end MemoryMap

end RiscvEm

------------------------------------------------------------
-- Addresses In RAM
------------------------------------------------------------

namespace RiscvEm

/- The offset in RAM that an address has. -/
theorem toNat_ramOffset
    (vaddr : BitVec 64)
    (hLe : 2 ^ 31 ≤ vaddr.toNat) :
    (vaddr - 0x80000000).toNat = vaddr.toNat - 2 ^ 31 := by
  have hLt := vaddr.isLt
  have hBase : (0x80000000 : BitVec 64).toNat = 2 ^ 31 := rfl
  rw [BitVec.toNat_sub, hBase]
  omega

/- All addresses from the base on find RAM. -/
theorem MemoryMap.findRegion_ram
    {m : MemoryMap}
    {i : Nat}
    (hDirect : m.ramDirect = some i)
    (vaddr : BitVec 64)
    (hLo : 2 ^ 31 ≤ vaddr.toNat) :
    m.findRegion vaddr = .ok i := by
  have hLe : 0x80000000 ≤ vaddr := by
    rw [BitVec.le_def]
    exact hLo
  rw [findRegion, if_pos hLe, hDirect]

end RiscvEm

------------------------------------------------------------
-- Stores Keep The Layout
------------------------------------------------------------

namespace RiscvEm

/- The bounds of a region. -/
def MemoryRegion.bounds
    (r : MemoryRegion) : BitVec 64 × BitVec 64 :=
  (r.baseAddr, r.size)

namespace MemoryMap

variable {m m' m'' : MemoryMap}
variable {addr : BitVec 64}
variable {bits n : Nat}

/- The regions lie where they lay. -/
structure SameLayout
    (m m' : MemoryMap) : Prop where
  ramDirect : m'.ramDirect = m.ramDirect
  bounds : m'.regions.map MemoryRegion.bounds =
    m.regions.map MemoryRegion.bounds

/- Layouts are equal to themselves. -/
theorem SameLayout.refl
    (m : MemoryMap) :
    SameLayout m m :=
  ⟨rfl, rfl⟩

/- Equality of layouts is symmetric. -/
theorem SameLayout.symm
    (h : SameLayout m m') :
    SameLayout m' m :=
  ⟨h.ramDirect.symm, h.bounds.symm⟩

/- Equality of layouts is transitive. -/
theorem SameLayout.trans
    (h : SameLayout m m')
    (h' : SameLayout m' m'') :
    SameLayout m m'' :=
  ⟨h'.ramDirect.trans h.ramDirect, h'.bounds.trans h.bounds⟩

/- Equal layouts find the same regions. -/
theorem SameLayout.findRegion
    (h : SameLayout m m')
    (addr : BitVec 64) :
    m'.findRegion addr = m.findRegion addr := by
  have hIdx : ∀ rs : List MemoryRegion,
      rs.findIdx? (·.contains addr) =
        (rs.map MemoryRegion.bounds).findIdx? (fun b =>
          decide (b.1 ≤ addr) && decide (addr < b.1 + b.2)) := by
    intro rs
    rw [List.findIdx?_map]
    rfl
  unfold MemoryMap.findRegion
  rw [h.ramDirect, hIdx, hIdx, h.bounds]

/- A region keeps its place and its size. -/
theorem SameLayout.region
    (h : SameLayout m m')
    {i : Nat}
    {r : MemoryRegion}
    (hGet : m.regions[i]? = some r) :
    ∃ r', m'.regions[i]? = some r' ∧
      r'.baseAddr = r.baseAddr ∧ r'.size = r.size := by
  have hBounds := congrArg (·[i]?) h.bounds
  simp only [List.getElem?_map, hGet, Option.map_some,
    Option.map_eq_some_iff] at hBounds
  rcases hBounds with ⟨r', hGet', hEq⟩
  unfold MemoryRegion.bounds at hEq
  rw [Prod.mk.injEq] at hEq
  exact ⟨r', hGet', hEq.1, hEq.2⟩

/- Equal layouts map the same addresses. -/
theorem SameLayout.mapped
    (h : SameLayout m m')
    (hMapped : m.Mapped addr n) :
    m'.Mapped addr n := by
  rcases hMapped with ⟨i, r, hFind, hGet, hIn, hFit⟩
  rcases h.region hGet with ⟨r', hGet', hBase, hSize⟩
  refine ⟨i, r', (h.findRegion addr).trans hFind, hGet', ?_, ?_⟩
  · unfold MemoryRegion.contains at hIn ⊢
    rw [hBase, hSize]
    exact hIn
  · rw [hBase, hSize]
    exact hFit

/- Equal layouts map an address in both or in neither. -/
theorem SameLayout.mapped_iff
    (h : SameLayout m m') :
    m'.Mapped addr n ↔ m.Mapped addr n :=
  ⟨h.symm.mapped, h.mapped⟩

/- A store keeps the layout. -/
theorem store_layout
    {v : BitVec 64}
    (hWidth : widthBytes bits = .ok n)
    (h : m.store addr bits v = .ok m') :
    SameLayout m m' := by
  rcases store_cases hWidth h with
    ⟨i, r, hFind, hGet, hIn, hFit, rfl⟩
  refine ⟨rfl, ?_⟩
  have hGetMap : (m.regions.map MemoryRegion.bounds)[i]? =
      some r.bounds := by
    rw [List.getElem?_map, hGet]
    rfl
  rcases List.getElem?_eq_some_iff.mp hGetMap with ⟨hLt, hEq⟩
  rw [List.map_set]
  change (m.regions.map MemoryRegion.bounds).set i r.bounds = _
  rw [← hEq, List.set_getElem_self]

end MemoryMap

end RiscvEm

------------------------------------------------------------
-- Reading Back
------------------------------------------------------------

namespace RiscvEm

namespace MemoryMap

variable {m m' : MemoryMap}
variable {addr : BitVec 64}
variable {bits n : Nat}

/- No access is wider than 8 bytes. -/
theorem widthBytes_le
    (hWidth : widthBytes bits = .ok n) :
    n ≤ 8 := by
  unfold widthBytes at hWidth
  repeat' split at hWidth
  all_goals cases hWidth
  all_goals decide

/- A load reads back what was stored there. -/
theorem load_store
    {v : BitVec 64}
    (hWidth : widthBytes bits = .ok n)
    (h : m.store addr bits v = .ok m') :
    m'.load addr bits =
      .ok (BitVec.ofNat 64 (v.toNat % 256 ^ n)) := by
  have hLayout := store_layout hWidth h
  rcases store_cases hWidth h with
    ⟨i, r, hFind, hGet, hIn, hFit, rfl⟩
  have hLt : i < m.regions.length :=
    (List.getElem?_eq_some_iff.mp hGet).1
  have hLoad := load_of_mapped hWidth
    ((hLayout.findRegion addr).trans hFind)
    (List.getElem?_set_self hLt) hIn hFit
  rw [hLoad]
  congr 1
  apply BitVec.eq_of_toNat_eq
  have hCompose := composeLe_eq_hostLoad
    (scatterLe r.data (addr - r.baseAddr).toNat n v)
    (addr - r.baseAddr).toNat n (widthBytes_le hWidth)
  rw [hCompose.1, hostLoad_scatterLe _ _ n n v (le_refl n),
    BitVec.toNat_ofNat]
  refine (Nat.mod_eq_of_lt ?_).symm
  exact lt_of_le_of_lt (Nat.mod_le _ _) v.isLt

end MemoryMap

end RiscvEm
