import RiscvEm.Defines
import Mathlib.Logic.Function.Basic
import Mathlib.Tactic.Ring

/-
  Guest memory: regions of bytes and the map that finds the
  region of an address.

  A region's `data` is the host array of `size` bytes; an
  access through a pointer into it is modelled by the offset
  from its start, and an offset outside the array is a host
  fault.

  Key definitions include:
    * `MemoryRegion.ptr`
    * `MemoryMap.load`
    * `MemoryMap.store`
    * `hostLoad`
-/

------------------------------------------------------------
-- Bytes
------------------------------------------------------------

namespace RiscvEm

/- The contents of a host byte array. -/
abbrev Bytes := Nat → BitVec 8

/- `p[0] | p[1] << 8 | ...`, as the accessors compose it. -/
def composeLe
    (data : Bytes)
    (off : Nat) : Nat → BitVec 64
  | 0 => 0
  | n + 1 =>
      composeLe data off n |||
        ((data (off + n)).setWidth 64 <<< (8 * n))

/- `p[i] = (uint8_t)(value >> (8 * i))` for `i < n`. -/
def scatterLe
    (data : Bytes)
    (off n : Nat)
    (value : BitVec 64) : Bytes :=
  fun i =>
    if off ≤ i ∧ i < off + n then
      (value >>> (8 * (i - off))).setWidth 8
    else
      data i

/-
  A typed load of `n` bytes on the little-endian host:
  the number whose digits in base 256 are the bytes.
-/
def hostLoad
    (data : Bytes)
    (off : Nat) : Nat → Nat
  | 0 => 0
  | n + 1 =>
      hostLoad data off n + (data (off + n)).toNat * 256 ^ n

end RiscvEm

------------------------------------------------------------
-- Regions
------------------------------------------------------------

namespace RiscvEm

structure MemoryRegion where
  baseAddr : BitVec 64
  size : BitVec 64
  data : Bytes

namespace MemoryRegion

/- The address lies in `[base_addr, base_addr + size)`. -/
def contains
    (r : MemoryRegion)
    (addr : BitVec 64) : Bool :=
  decide (r.baseAddr ≤ addr) &&
    decide (addr < r.baseAddr + r.size)

/- The offset of an address, or the `out_of_range` it throws. -/
def ptr
    (r : MemoryRegion)
    (addr : BitVec 64) : Except HostFault Nat :=
  if r.contains addr then
    .ok (addr - r.baseAddr).toNat
  else
    .error .outOfRange

/- Read `n` bytes through a pointer into the array. -/
def readAt
    (r : MemoryRegion)
    (off n : Nat) : Except HostFault (BitVec 64) :=
  if off + n ≤ r.size.toNat then
    .ok (composeLe r.data off n)
  else
    .error .outOfBounds

/- Write `n` bytes through a pointer into the array. -/
def writeAt
    (r : MemoryRegion)
    (off n : Nat)
    (value : BitVec 64) : Except HostFault MemoryRegion :=
  if off + n ≤ r.size.toNat then
    .ok { r with data := scatterLe r.data off n value }
  else
    .error .outOfBounds

end MemoryRegion

end RiscvEm

------------------------------------------------------------
-- The Memory Map
------------------------------------------------------------

namespace RiscvEm

/-
  The registered regions in order, and the position of the
  one `ram_direct` points to.
-/
structure MemoryMap where
  regions : List MemoryRegion
  ramDirect : Option Nat

namespace MemoryMap

def empty : MemoryMap :=
  ⟨[], none⟩

/- Register a zeroed region; RAM lies at or above 2 GiB. -/
def addRegion
    (m : MemoryMap)
    (base size : BitVec 64) : MemoryMap :=
  { regions := m.regions ++ [⟨base, size, fun _ => 0⟩]
    ramDirect :=
      if 0x80000000 ≤ base then
        some m.regions.length
      else
        m.ramDirect }

/- The region `ram_direct` points to. -/
def ram
    (m : MemoryMap) : Except HostFault MemoryRegion :=
  match m.ramDirect.bind (m.regions[·]?) with
  | some r => .ok r
  | none => .error .outOfBounds

theorem ram_eq_ok_iff
    {m : MemoryMap}
    {r : MemoryRegion} :
    m.ram = .ok r ↔
      ∃ i, m.ramDirect = some i ∧ m.regions[i]? = some r := by
  unfold ram
  constructor
  · intro h
    split at h
    case h_1 r' hRam =>
      cases h
      exact Option.bind_eq_some_iff.mp hRam
    case h_2 => cases h
  · intro h
    rw [Option.bind_eq_some_iff.mpr h]

/- Replace the contents of the region `ram_direct` points to. -/
def setRam
    (m : MemoryMap)
    (r : MemoryRegion) : MemoryMap :=
  match m.ramDirect with
  | some i => { m with regions := m.regions.set i r }
  | none => m

/- The position of the region that serves an address. -/
def findRegion
    (m : MemoryMap)
    (addr : BitVec 64) : Except HostFault Nat :=
  if 0x80000000 ≤ addr then
    match m.ramDirect with
    | some i => .ok i
    | none => .error .outOfBounds
  else
    match m.regions.findIdx? (·.contains addr) with
    | some i => .ok i
    | none => .error .outOfRange

/- The widths in bits that `load` and `store` accept. -/
def widthBytes
    (bits : Nat) : Except HostFault Nat :=
  if bits = 8 then .ok 1
  else if bits = 16 then .ok 2
  else if bits = 32 then .ok 4
  else if bits = 64 then .ok 8
  else .error .invalidArgument

def load
    (m : MemoryMap)
    (addr : BitVec 64)
    (bits : Nat) : Except HostFault (BitVec 64) := do
  let i ← m.findRegion addr
  match m.regions[i]? with
  | none => .error .outOfBounds
  | some r =>
      let off ← r.ptr addr
      let n ← widthBytes bits
      r.readAt off n

def store
    (m : MemoryMap)
    (addr : BitVec 64)
    (bits : Nat)
    (value : BitVec 64) : Except HostFault MemoryMap := do
  let i ← m.findRegion addr
  match m.regions[i]? with
  | none => .error .outOfBounds
  | some r =>
      let off ← r.ptr addr
      let n ← widthBytes bits
      let r' ← r.writeAt off n value
      .ok { m with regions := m.regions.set i r' }

end MemoryMap

end RiscvEm

------------------------------------------------------------
-- Reading Back What Was Written
------------------------------------------------------------

namespace RiscvEm

/- Equal bytes make an equal value, at any offsets. -/
theorem composeLe_congr
    {data data' : Bytes}
    {off off' n : Nat}
    (h : ∀ k < n, data' (off' + k) = data (off + k)) :
    composeLe data' off' n = composeLe data off n := by
  induction n with
  | zero => rfl
  | succ n ih =>
      unfold composeLe
      rw [ih (fun k hk => h k (Nat.lt_succ_of_lt hk)),
        h n (Nat.lt_succ_self n)]

/- Composing the bytes is the host's typed load. -/
theorem composeLe_eq_hostLoad
    (data : Bytes)
    (off n : Nat)
    (hn : n ≤ 8) :
    (composeLe data off n).toNat = hostLoad data off n ∧
      hostLoad data off n < 256 ^ n := by
  induction n with
  | zero => simp [composeLe, hostLoad]
  | succ n ih =>
      obtain ⟨hEq, hLt⟩ := ih (by omega)
      have hByte := (data (off + n)).isLt
      have hPow : (256 : Nat) ^ n = 2 ^ (8 * n) := by
        rw [show (256 : Nat) = 2 ^ 8 by rfl, ← Nat.pow_mul]
      have hLe : 2 ^ (8 * n) ≤ 2 ^ 56 :=
        Nat.pow_le_pow_right (by omega) (by omega)
      have hTop : (data (off + n)).toNat * 2 ^ (8 * n) <
          2 ^ 64 := by
        calc (data (off + n)).toNat * 2 ^ (8 * n)
            ≤ 255 * 2 ^ 56 := Nat.mul_le_mul (by omega) hLe
          _ < 2 ^ 64 := by decide
      have hSet : ((data (off + n)).setWidth 64).toNat =
          (data (off + n)).toNat := by
        rw [BitVec.toNat_setWidth]
        exact Nat.mod_eq_of_lt (by omega)
      have hShift : ((data (off + n)).setWidth 64 <<<
          (8 * n)).toNat =
          (data (off + n)).toNat <<< (8 * n) := by
        rw [BitVec.toNat_shiftLeft, hSet, Nat.shiftLeft_eq,
          Nat.mod_eq_of_lt hTop]
      refine ⟨?_, ?_⟩
      · rw [hPow] at hLt
        rw [composeLe, hostLoad, BitVec.toNat_or, hEq, hShift,
          Nat.or_comm, ← Nat.shiftLeft_add_eq_or_of_lt hLt,
          Nat.shiftLeft_eq, hPow]
        omega
      · rw [hostLoad, Nat.pow_succ]
        have hMul : (data (off + n)).toNat * 256 ^ n ≤
            255 * 256 ^ n :=
          Nat.mul_le_mul_right _ (by omega)
        omega

/- Scattered bytes compose to the value's low bytes. -/
theorem hostLoad_scatterLe
    (data : Bytes)
    (off n k : Nat)
    (value : BitVec 64)
    (hk : k ≤ n) :
    hostLoad (scatterLe data off n value) off k =
      value.toNat % 256 ^ k := by
  induction k with
  | zero => simp [hostLoad, Nat.mod_one]
  | succ k ih =>
      have hByte : (scatterLe data off n value
          (off + k)).toNat = value.toNat / 256 ^ k % 256 := by
        have hPow : (256 : Nat) ^ k = 2 ^ (8 * k) := by
          rw [show (256 : Nat) = 2 ^ 8 by rfl, ← Nat.pow_mul]
        have hIn : off ≤ off + k ∧ off + k < off + n := by
          omega
        simp only [scatterLe, hIn, and_self, if_true,
          BitVec.toNat_setWidth, BitVec.toNat_ushiftRight,
          Nat.add_sub_cancel_left, Nat.shiftRight_eq_div_pow,
          hPow]
      rw [hostLoad, ih (by omega), hByte, Nat.pow_succ,
        Nat.mod_mul]
      ring

end RiscvEm
