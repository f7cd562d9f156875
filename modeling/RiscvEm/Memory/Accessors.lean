import RiscvEm.Memory.Layout

/-
  Accesses that go through the memory map, as the devices
  make them, and the bounds of regions.

  A region is looked up for the first byte of an access. The
  safe variant of a load searches all regions, where the
  other one takes RAM for every address from 2 GiB on.

  Key definitions include:
    * `MemoryMap.loadSafe`
    * `AccessorsOk`
    * `AccessFits`

  Key theorems include `memory_accessors_iff`.
-/

------------------------------------------------------------
-- Bounds Of Host Objects
------------------------------------------------------------

namespace RiscvEm

variable {α β : Type}

/- A computation that stays inside the objects of the host. -/
def InBounds
    (x : Except HostFault α) : Prop :=
  x ≠ .error .outOfBounds

/- A value is no undefined behaviour. -/
theorem inBounds_ok
    (a : α) :
    InBounds (.ok a) :=
  fun h => nomatch h

/- An exception of C++ is thrown before any access. -/
theorem inBounds_error_iff
    {e : HostFault} :
    InBounds (.error e : Except HostFault α) ↔
      e ≠ .outOfBounds := by
  unfold InBounds
  rw [Ne, Except.error.injEq]

/- A sequence is in bounds if both parts are. -/
theorem inBounds_bind_iff
    {x : Except HostFault α}
    {f : α → Except HostFault β} :
    InBounds (x >>= f) ↔
      InBounds x ∧ ∀ a, x = .ok a → InBounds (f a) := by
  cases x with
  | error e =>
      change InBounds (.error e) ↔ _
      rw [inBounds_error_iff, inBounds_error_iff]
      constructor
      · intro hNe
        exact ⟨hNe, fun a h => nomatch h⟩
      · rintro ⟨hNe, -⟩
        exact hNe
  | ok a =>
      change InBounds (f a) ↔ _
      constructor
      · intro h
        refine ⟨inBounds_ok a, ?_⟩
        intro a' hEq
        cases hEq
        exact h
      · rintro ⟨-, h⟩
        exact h a rfl

/- A test that fails by leaving the object. -/
theorem inBounds_ite_iff
    {c : Prop}
    [Decidable c]
    {a : α} :
    InBounds (if c then .ok a else .error .outOfBounds) ↔
      c := by
  by_cases h : c
  · rw [if_pos h]
    exact iff_of_true (inBounds_ok a) h
  · rw [if_neg h, inBounds_error_iff]
    exact iff_of_false (fun hNe => hNe rfl) h

end RiscvEm

------------------------------------------------------------
-- The Safe Variant
------------------------------------------------------------

namespace RiscvEm

def MemoryRegion.ptrSafe
    (r : MemoryRegion)
    (addr : BitVec 64) : Option Nat :=
  if r.contains addr then
    some (addr - r.baseAddr).toNat
  else
    none

namespace MemoryMap

/- The first region that holds an address. -/
def findRegionSafe
    (m : MemoryMap)
    (addr : BitVec 64) : Option MemoryRegion :=
  m.regions.find? (·.contains addr)

/- Nothing is returned if no region holds the address. -/
def loadSafe
    (m : MemoryMap)
    (addr : BitVec 64)
    (bits : Nat) :
    Except HostFault (Option (BitVec 64)) :=
  match m.findRegionSafe addr with
  | none => .ok none
  | some r =>
      match r.ptrSafe addr with
      | none => .ok none
      | some off =>
          match widthBytes bits with
          | .error _ => .ok none
          | .ok n => do
              let v ← r.readAt off n
              .ok (some v)

end MemoryMap

end RiscvEm

------------------------------------------------------------
-- What Accessors Should Do
------------------------------------------------------------

namespace RiscvEm

/-
  An access fails by an exception or an empty result, or it
  stays in one region. The loads agree, and a load returns
  what was stored.
-/
structure AccessorsOk
    (m : MemoryMap)
    (addr : BitVec 64)
    (bits : Nat) : Prop where
  load : InBounds (m.load addr bits)
  loadSafe : InBounds (m.loadSafe addr bits)
  store : ∀ v, InBounds (m.store addr bits v)
  oneRegion : ∀ v m', m.store addr bits v = .ok m' →
    ∃ i r data, m.regions[i]? = some r ∧
      m' = { m with
        regions := m.regions.set i { r with data := data } }
  agree : ∀ v v', m.load addr bits = .ok v →
    m.loadSafe addr bits = .ok (some v') → v' = v
  readBack : ∀ v m', m.store addr bits v = .ok m' →
    m'.load addr bits =
      .ok (BitVec.ofNat 64 (v.toNat % 2 ^ bits))

/- The region has `n` bytes from the address on. -/
def MemoryRegion.Fits
    (r : MemoryRegion)
    (addr : BitVec 64)
    (n : Nat) : Prop :=
  (addr - r.baseAddr).toNat + n ≤ r.size.toNat

instance
    (r : MemoryRegion)
    (addr : BitVec 64)
    (n : Nat) :
    Decidable (r.Fits addr n) :=
  inferInstanceAs (Decidable (_ ≤ _))

/- Two regions hold the same `n` bytes from an address on. -/
def MemoryRegion.SameBytes
    (r r' : MemoryRegion)
    (addr : BitVec 64)
    (n : Nat) : Prop :=
  ∀ k < n, r'.data ((addr - r'.baseAddr).toNat + k) =
    r.data ((addr - r.baseAddr).toNat + k)

/- The region that `find_region` finds for an address it has. -/
def MemoryMap.Serves
    (m : MemoryMap)
    (addr : BitVec 64)
    (r : MemoryRegion) : Prop :=
  ∃ i, m.findRegion addr = .ok i ∧
    m.regions[i]? = some r ∧ r.contains addr = true

/-
  RAM exists if its addresses are used. A region that is
  found has room for the whole access. If both lookups find
  a region, the regions show the same bytes.
-/
structure AccessFits
    (m : MemoryMap)
    (addr : BitVec 64)
    (n : Nat) : Prop where
  ram : 0x80000000 ≤ addr → ∃ r, m.ram = .ok r
  direct : ∀ r, m.Serves addr r → r.Fits addr n
  safe : ∀ r, m.findRegionSafe addr = some r → r.Fits addr n
  same : ∀ r r', m.Serves addr r →
    m.findRegionSafe addr = some r' → r.SameBytes r' addr n

end RiscvEm

------------------------------------------------------------
-- The Region Of An Address
------------------------------------------------------------

namespace RiscvEm

namespace MemoryMap

variable {m m' : MemoryMap}
variable {r : MemoryRegion}
variable {addr v : BitVec 64}
variable {bits n : Nat}
variable {α : Type}

/-
  A lookup finds a region, or throws below 2 GiB, or RAM is
  missing.
-/
theorem findRegion_cases
    (m : MemoryMap)
    (addr : BitVec 64) :
    (∃ i r, m.findRegion addr = .ok i ∧
        m.regions[i]? = some r ∧
        (0x80000000 ≤ addr → m.ram = .ok r)) ∨
      (¬ 0x80000000 ≤ addr ∧
        m.findRegion addr = .error .outOfRange) ∨
      (0x80000000 ≤ addr ∧ (∀ r, m.ram ≠ .ok r) ∧
        ∀ i, m.findRegion addr = .ok i →
          m.regions[i]? = none) := by
  unfold findRegion
  by_cases hHigh : 0x80000000 ≤ addr
  · rw [if_pos hHigh]
    cases hDirect : m.ramDirect with
    | none =>
        refine Or.inr (Or.inr ⟨hHigh, ?_, fun _ h => nomatch h⟩)
        intro r hRam
        rcases ram_eq_ok_iff.mp hRam with ⟨i, hSome, -⟩
        rw [hDirect] at hSome
        cases hSome
    | some i =>
        cases hGet : m.regions[i]? with
        | none =>
            refine Or.inr (Or.inr ⟨hHigh, ?_, ?_⟩)
            · intro r hRam
              rcases ram_eq_ok_iff.mp hRam with
                ⟨j, hSome, hRegion⟩
              rw [hDirect] at hSome
              cases hSome
              rw [hGet] at hRegion
              cases hRegion
            · intro j hEq
              cases hEq
              exact hGet
        | some r =>
            exact Or.inl ⟨i, r, rfl, hGet, fun _ =>
              ram_eq_ok_iff.mpr ⟨i, hDirect, hGet⟩⟩
  · rw [if_neg hHigh]
    cases hIdx : m.regions.findIdx? (·.contains addr) with
    | none => exact Or.inr (Or.inl ⟨hHigh, rfl⟩)
    | some i =>
        have hLt := (List.findIdx?_eq_some_iff_getElem.mp
          hIdx).1
        exact Or.inl ⟨i, _, rfl, List.getElem?_eq_getElem hLt,
          fun hYes => absurd hYes hHigh⟩

/- The work of an accessor on the region of an address. -/
def withRegion
    (m : MemoryMap)
    (addr : BitVec 64)
    (f : Nat → MemoryRegion → Except HostFault α) :
    Except HostFault α := do
  let i ← m.findRegion addr
  match m.regions[i]? with
  | none => .error .outOfBounds
  | some r => f i r

/- The region that is found serves the access. -/
theorem withRegion_eq
    {f : Nat → MemoryRegion → Except HostFault α}
    {i : Nat}
    (hFind : m.findRegion addr = .ok i)
    (hGet : m.regions[i]? = some r) :
    m.withRegion addr f = f i r := by
  unfold withRegion
  rw [hFind]
  change (match m.regions[i]? with
    | none => Except.error HostFault.outOfBounds
    | some r => f i r) = _
  rw [hGet]

/-
  The work stays in bounds if RAM is there when it is asked
  for, and every region that is found is good for it.
-/
theorem inBounds_withRegion_iff
    {f : Nat → MemoryRegion → Except HostFault α} :
    InBounds (m.withRegion addr f) ↔
      (0x80000000 ≤ addr → ∃ r, m.ram = .ok r) ∧
        ∀ i r, m.findRegion addr = .ok i →
          m.regions[i]? = some r → InBounds (f i r) := by
  rcases m.findRegion_cases addr with
    ⟨i, r, hFind, hGet, hRam⟩ | ⟨hLow, hThrow⟩ |
      ⟨hHigh, hNoRam, hMissing⟩
  · rw [withRegion_eq hFind hGet]
    constructor
    · intro h
      refine ⟨fun hHigh => ⟨r, hRam hHigh⟩, ?_⟩
      intro i' r' hFind' hGet'
      rw [hFind] at hFind'
      cases hFind'
      rw [hGet] at hGet'
      cases hGet'
      exact h
    · rintro ⟨-, h⟩
      exact h i r hFind hGet
  · have hEq : m.withRegion addr f = .error .outOfRange := by
      unfold withRegion
      rw [hThrow]
      rfl
    rw [hEq, inBounds_error_iff]
    refine iff_of_true (by decide) ⟨fun hHigh =>
      absurd hHigh hLow, ?_⟩
    intro i r hFind
    rw [hThrow] at hFind
    cases hFind
  · have hEq : m.withRegion addr f = .error .outOfBounds := by
      unfold withRegion
      cases hFind : m.findRegion addr with
      | error e =>
          unfold findRegion at hFind
          rw [if_pos hHigh] at hFind
          split at hFind
          · cases hFind
          · exact hFind ▸ rfl
      | ok i =>
          change (match m.regions[i]? with
            | none => Except.error HostFault.outOfBounds
            | some r => f i r) = _
          rw [hMissing i hFind]
    rw [hEq, inBounds_error_iff]
    refine iff_of_false (fun hNe => hNe rfl) ?_
    rintro ⟨hRam, -⟩
    rcases hRam hHigh with ⟨r, hEq⟩
    exact hNoRam r hEq

end MemoryMap

end RiscvEm

------------------------------------------------------------
-- Accesses
------------------------------------------------------------

namespace RiscvEm

namespace MemoryMap

variable {m m' : MemoryMap}
variable {r r' : MemoryRegion}
variable {addr v : BitVec 64}
variable {bits n : Nat}

/- `load` reads from the region found. -/
theorem load_eq_withRegion
    (hWidth : widthBytes bits = .ok n) :
    m.load addr bits = m.withRegion addr (fun _ r => do
      let off ← r.ptr addr
      r.readAt off n) := by
  unfold load withRegion
  rw [hWidth]
  rfl

/- `store` writes to the region found. -/
theorem store_eq_withRegion
    (hWidth : widthBytes bits = .ok n)
    (v : BitVec 64) :
    m.store addr bits v = m.withRegion addr (fun i r => do
      let off ← r.ptr addr
      let r' ← r.writeAt off n v
      .ok { m with regions := m.regions.set i r' }) := by
  unfold store withRegion
  rw [hWidth]
  rfl

/- Addresses that a region does not hold make `ptr` throw. -/
theorem inBounds_ptr_iff
    {α : Type}
    {f : Nat → Except HostFault α} :
    InBounds (r.ptr addr >>= f) ↔
      (r.contains addr = true →
        InBounds (f (addr - r.baseAddr).toNat)) := by
  unfold MemoryRegion.ptr
  by_cases hIn : r.contains addr = true
  · rw [if_pos hIn]
    exact ⟨fun h _ => h, fun h => h hIn⟩
  · rw [if_neg hIn]
    refine iff_of_true ?_ (fun hYes => absurd hYes hIn)
    exact inBounds_error_iff.mpr (by decide)

/-
  `load` is in bounds exactly if the region holds all bytes.
-/
theorem inBounds_load_iff
    (hWidth : widthBytes bits = .ok n) :
    InBounds (m.load addr bits) ↔
      (0x80000000 ≤ addr → ∃ r, m.ram = .ok r) ∧
        ∀ r, m.Serves addr r → r.Fits addr n := by
  rw [load_eq_withRegion hWidth, inBounds_withRegion_iff]
  refine and_congr_right fun _ => ⟨?_, ?_⟩
  · rintro h r ⟨i, hFind, hGet, hIn⟩
    have hRead := inBounds_ptr_iff.mp (h i r hFind hGet) hIn
    exact inBounds_ite_iff.mp hRead
  · intro h i r hFind hGet
    refine inBounds_ptr_iff.mpr fun hIn => ?_
    exact inBounds_ite_iff.mpr (h r ⟨i, hFind, hGet, hIn⟩)

/-
  `store` is in bounds exactly if the region holds all
  bytes.
-/
theorem inBounds_store_iff
    (hWidth : widthBytes bits = .ok n)
    (v : BitVec 64) :
    InBounds (m.store addr bits v) ↔
      (0x80000000 ≤ addr → ∃ r, m.ram = .ok r) ∧
        ∀ r, m.Serves addr r → r.Fits addr n := by
  rw [store_eq_withRegion hWidth, inBounds_withRegion_iff]
  refine and_congr_right fun _ => ⟨?_, ?_⟩
  · rintro h r ⟨i, hFind, hGet, hIn⟩
    have hWrite := inBounds_ptr_iff.mp (h i r hFind hGet) hIn
    exact inBounds_ite_iff.mp (inBounds_bind_iff.mp hWrite).1
  · intro h i r hFind hGet
    refine inBounds_ptr_iff.mpr fun hIn => ?_
    refine inBounds_bind_iff.mpr ⟨?_, fun _ _ => inBounds_ok _⟩
    exact inBounds_ite_iff.mpr (h r ⟨i, hFind, hGet, hIn⟩)

/- `load_safe` of an address without a region. -/
theorem loadSafe_of_none
    (hNone : m.findRegionSafe addr = none) :
    m.loadSafe addr bits = .ok none := by
  unfold loadSafe
  rw [hNone]

/- `load_safe` of an address with one. -/
theorem loadSafe_of_some
    (hWidth : widthBytes bits = .ok n)
    (hSome : m.findRegionSafe addr = some r) :
    m.loadSafe addr bits =
      (r.readAt (addr - r.baseAddr).toNat n).bind
        (fun v => .ok (some v)) := by
  have hFound : m.regions.find? (·.contains addr) = some r :=
    hSome
  have hIn := List.find?_some hFound
  have hPtr : r.ptrSafe addr =
      some (addr - r.baseAddr).toNat :=
    if_pos hIn
  unfold loadSafe
  rw [hSome]
  dsimp only
  rw [hPtr, hWidth]
  rfl

/-
  `load_safe` is in bounds if the region that has the first
  byte has all of them.
-/
theorem inBounds_loadSafe_iff
    (hWidth : widthBytes bits = .ok n) :
    InBounds (m.loadSafe addr bits) ↔
      ∀ r, m.findRegionSafe addr = some r → r.Fits addr n := by
  cases hSafe : m.findRegionSafe addr with
  | none =>
      rw [loadSafe_of_none hSafe]
      exact iff_of_true (inBounds_ok _) (fun _ h => nomatch h)
  | some r =>
      rw [loadSafe_of_some hWidth hSafe]
      refine inBounds_bind_iff.trans ?_
      constructor
      · rintro ⟨hRead, -⟩ r' hEq
        cases hEq
        exact inBounds_ite_iff.mp hRead
      · intro h
        exact ⟨inBounds_ite_iff.mpr (h r rfl),
          fun _ _ => inBounds_ok _⟩

/- Both loads succeed, each in the region that it finds. -/
theorem loads_eq
    (hWidth : widthBytes bits = .ok n)
    (hServes : m.Serves addr r)
    (hFits : r.Fits addr n)
    (hSafe : m.findRegionSafe addr = some r')
    (hFits' : r'.Fits addr n) :
    m.load addr bits =
        .ok (composeLe r.data (addr - r.baseAddr).toNat n) ∧
      m.loadSafe addr bits =
        .ok (some (composeLe r'.data
          (addr - r'.baseAddr).toNat n)) := by
  rcases hServes with ⟨i, hFind, hGet, hIn⟩
  refine ⟨load_of_mapped hWidth hFind hGet hIn hFits, ?_⟩
  have hRead : r'.readAt (addr - r'.baseAddr).toNat n =
      .ok (composeLe r'.data (addr - r'.baseAddr).toNat n) :=
    if_pos hFits'
  rw [loadSafe_of_some hWidth hSafe, hRead]
  rfl

end MemoryMap

end RiscvEm

------------------------------------------------------------
-- Equal Values
------------------------------------------------------------

namespace RiscvEm

variable {data data' : Bytes}
variable {off off' n : Nat}

/- A value of n bytes fits n bytes. -/
theorem hostLoad_lt
    (data : Bytes)
    (off n : Nat) :
    hostLoad data off n < 256 ^ n := by
  induction n with
  | zero => exact Nat.one_pos
  | succ n ih =>
      have hByte := (data (off + n)).isLt
      have hMul : (data (off + n)).toNat * 256 ^ n ≤
          255 * 256 ^ n :=
        Nat.mul_le_mul_right _ (by omega)
      rw [hostLoad, Nat.pow_succ]
      omega

/- The digits of a number are its bytes. -/
theorem hostLoad_injective
    (h : hostLoad data' off' n = hostLoad data off n) :
    ∀ k < n, data' (off' + k) = data (off + k) := by
  induction n with
  | zero => exact fun k hk => absurd hk (Nat.not_lt_zero k)
  | succ n ih =>
      have hPos : 0 < 256 ^ n := Nat.pow_pos (by decide)
      have hTop : ∀ (d : Bytes) (o : Nat),
          hostLoad d o (n + 1) / 256 ^ n =
            (d (o + n)).toNat := by
        intro d o
        rw [hostLoad, Nat.add_mul_div_right _ _ hPos,
          Nat.div_eq_of_lt (hostLoad_lt d o n), Nat.zero_add]
      have hLast : data' (off' + n) = data (off + n) := by
        apply BitVec.eq_of_toNat_eq
        rw [← hTop data' off', ← hTop data off, h]
      have hRest : hostLoad data' off' n =
          hostLoad data off n := by
        rw [hostLoad, hostLoad, hLast] at h
        exact Nat.add_right_cancel h
      intro k hk
      rcases Nat.lt_succ_iff_lt_or_eq.mp hk with hLt | rfl
      · exact ih hRest k hLt
      · exact hLast

/- Equal values have equal bytes. -/
theorem composeLe_injective
    (hn : n ≤ 8)
    (h : composeLe data' off' n = composeLe data off n) :
    ∀ k < n, data' (off' + k) = data (off + k) := by
  apply hostLoad_injective
  rw [← (composeLe_eq_hostLoad data' off' n hn).1,
    ← (composeLe_eq_hostLoad data off n hn).1, h]

end RiscvEm

------------------------------------------------------------
-- The Accessors
------------------------------------------------------------

namespace RiscvEm

variable {m : MemoryMap}
variable {addr : BitVec 64}
variable {bits n : Nat}

/- Widths in bits and in bytes. -/
theorem pow_widthBytes
    (hWidth : MemoryMap.widthBytes bits = .ok n) :
    256 ^ n = 2 ^ bits := by
  unfold MemoryMap.widthBytes at hWidth
  repeat' split at hWidth
  all_goals cases hWidth
  all_goals
    subst_vars
    rfl

/- Accessors that are right have room for the access. -/
theorem accessFits_of_ok
    (hWidth : MemoryMap.widthBytes bits = .ok n)
    (h : AccessorsOk m addr bits) :
    AccessFits m addr n := by
  have hDirect := (MemoryMap.inBounds_load_iff hWidth).mp h.load
  have hSafe := (MemoryMap.inBounds_loadSafe_iff hWidth).mp
    h.loadSafe
  refine ⟨hDirect.1, hDirect.2, hSafe, ?_⟩
  intro r r' hServes hFound
  have hLoads := MemoryMap.loads_eq hWidth hServes
    (hDirect.2 r hServes) hFound (hSafe r' hFound)
  exact composeLe_injective (MemoryMap.widthBytes_le hWidth)
    (h.agree _ _ hLoads.1 hLoads.2)

/- With room for the access, the accessors are right. -/
theorem accessorsOk_of_fits
    (hWidth : MemoryMap.widthBytes bits = .ok n)
    (h : AccessFits m addr n) :
    AccessorsOk m addr bits := by
  have hStore := fun v =>
    (MemoryMap.inBounds_store_iff hWidth v).mpr
      ⟨h.ram, h.direct⟩
  refine ⟨(MemoryMap.inBounds_load_iff hWidth).mpr
    ⟨h.ram, h.direct⟩,
    (MemoryMap.inBounds_loadSafe_iff hWidth).mpr h.safe,
    hStore, ?_, ?_, ?_⟩
  · intro v m' hEq
    rcases MemoryMap.store_cases hWidth hEq with
      ⟨i, r, -, hGet, -, -, rfl⟩
    exact ⟨i, r, _, hGet, rfl⟩
  · intro v v' hLoad hLoadSafe
    rcases MemoryMap.load_cases hWidth hLoad with
      ⟨i, r, hFind, hGet, hIn, hFit, rfl⟩
    have hServes : m.Serves addr r := ⟨i, hFind, hGet, hIn⟩
    cases hFound : m.findRegionSafe addr with
    | none =>
        rw [MemoryMap.loadSafe_of_none hFound] at hLoadSafe
        cases hLoadSafe
    | some r' =>
        have hLoads := MemoryMap.loads_eq hWidth hServes hFit
          hFound (h.safe r' hFound)
        rw [hLoads.2] at hLoadSafe
        cases hLoadSafe
        exact composeLe_congr (h.same r r' hServes hFound)
  · intro v m' hEq
    rw [MemoryMap.load_store hWidth hEq, pow_widthBytes hWidth]

/-
  The accessors stay in one region, agree and read back what
  was stored, exactly if the regions that are found have room
  for the access and show the same bytes.
-/
theorem memory_accessors_iff
    (m : MemoryMap)
    (addr : BitVec 64)
    (bits n : Nat)
    (hWidth : MemoryMap.widthBytes bits = .ok n) :
    AccessorsOk m addr bits ↔ AccessFits m addr n :=
  ⟨accessFits_of_ok hWidth, accessorsOk_of_fits hWidth⟩

/- A map whose only region is a page of RAM. -/
def pageOfRam : MemoryMap :=
  MemoryMap.empty.addRegion 0x80000000 0x1000

/- One page of RAM serves all addresses. -/
theorem pageOfRam_serves
    {addr : BitVec 64}
    {r : MemoryRegion}
    (h : pageOfRam.Serves addr r) :
    r = ⟨0x80000000, 0x1000, fun _ => 0⟩ := by
  rcases h with ⟨i, -, hGet, -⟩
  have hMem := List.mem_of_getElem? hGet
  exact List.mem_singleton.mp hMem

/- One page of RAM is the only region that is found. -/
theorem pageOfRam_safe
    {addr : BitVec 64}
    {r : MemoryRegion}
    (h : pageOfRam.findRegionSafe addr = some r) :
    r = ⟨0x80000000, 0x1000, fun _ => 0⟩ :=
  List.mem_singleton.mp (List.mem_of_find?_eq_some h)

/- The last word of the page is fine. -/
theorem memory_accessors_last_word :
    AccessorsOk pageOfRam 0x80000FFC 32 := by
  refine (memory_accessors_iff pageOfRam 0x80000FFC 32 4
    rfl).mpr ⟨?_, ?_, ?_, ?_⟩
  · intro _
    exact ⟨_, rfl⟩
  · intro r hServes
    rw [pageOfRam_serves hServes]
    decide
  · intro r hFound
    rw [pageOfRam_safe hFound]
    decide
  · intro r r' hServes hFound
    rw [pageOfRam_serves hServes, pageOfRam_safe hFound]
    exact fun _ _ => rfl

/- A word that begins in the page and ends behind it. -/
theorem memory_accessors_leave_region :
    pageOfRam.load 0x80000FFD 32 = .error .outOfBounds ∧
      pageOfRam.loadSafe 0x80000FFD 32 =
        .error .outOfBounds ∧
      pageOfRam.store 0x80000FFD 32 0 = .error .outOfBounds ∧
      ¬ AccessorsOk pageOfRam 0x80000FFD 32 := by
  have hLoad : pageOfRam.load 0x80000FFD 32 =
      .error .outOfBounds :=
    rfl
  exact ⟨hLoad, rfl, rfl, fun h => h.load hLoad⟩

end RiscvEm
