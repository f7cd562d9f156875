import RiscvEm.Devices.Clint

/-
  The register file of the core-local interruptor against
  the one that its guests expect: harts that are absent, and
  accesses to the halves of registers.

  Key definitions include:
    * `ClintConfig.Absent`
    * `ClintConfig.Served`
    * `WideReg`
    * `WideReg.WaysAgree`

  Key theorems include `clint_registers_iff`.
-/

------------------------------------------------------------
-- Offsets
------------------------------------------------------------

namespace RiscvEm

/- The offset is of a register of a hart that is absent. -/
def ClintConfig.Absent
    (cfg : ClintConfig)
    (off : Nat) : Prop :=
  (off < 0x4000 ∧ cfg.numHarts ≤ off / 4) ∨
    (0x4000 ≤ off ∧ off < 0xBFF8 ∧
      cfg.numHarts ≤ (off - 0x4000) / 8)

/-
  The offset is of a register of a hart that is there, the
  first byte of `mtime`, or above all registers.
-/
def ClintConfig.Served
    (cfg : ClintConfig)
    (off : Nat) : Prop :=
  (off < 0x4000 → off / 4 < cfg.numHarts) ∧
    (0x4000 ≤ off → off < 0xC000 → off ≠ 0xBFF8 →
      (off - 0x4000) / 8 < cfg.numHarts)

variable {cfg : ClintConfig}

theorem ClintConfig.Served.not_absent
    {off : Nat}
    (h : cfg.Served off) :
    ¬ cfg.Absent off := by
  rintro (⟨hLt, hLe⟩ | ⟨hLow, hHigh, hLe⟩)
  · have hServed := h.1 hLt
    omega
  · have hServed := h.2 hLow (by omega) (by omega)
    omega

/- The address of an offset in the window of 64 KiB. -/
def clintAddr
    (off : BitVec 16) : BitVec 64 :=
  CLINT_START + off.setWidth 64

theorem clintAddr_sub
    (off : BitVec 16) :
    (clintAddr off - CLINT_START).toNat = off.toNat := by
  have hAddr : clintAddr off - CLINT_START =
      off.setWidth 64 := by
    unfold clintAddr
    rw [BitVec.add_comm]
    exact BitVec.add_sub_cancel _ _
  rw [hAddr, BitVec.toNat_setWidth]
  exact Nat.mod_eq_of_lt (by omega)

end RiscvEm

------------------------------------------------------------
-- Indices
------------------------------------------------------------

namespace RiscvEm

variable {cfg : ClintConfig}
variable {w w' : DevWorld (Clint cfg)}
variable {ns ns' value : BitVec 64}
variable {off : BitVec 16}
variable {size : MemorySize}

namespace Clint

theorem readMswi_ok_iff
    {offset : Nat} :
    (∃ val, readMswi offset w = .ok val) ↔
      offset / 4 < cfg.numHarts := by
  unfold readMswi
  split
  case isTrue h => exact ⟨fun _ => h, fun _ => ⟨_, rfl⟩⟩
  case isFalse h =>
    refine ⟨?_, fun hLt => absurd hLt h⟩
    rintro ⟨val, hRead⟩
    cases hRead

theorem readMtimer_ok_iff
    {offset : Nat} :
    (∃ val, readMtimer ns offset w = .ok val) ↔
      (offset ≠ 0x7FF8 → offset / 8 < cfg.numHarts) := by
  unfold readMtimer
  split
  case isTrue hEq =>
    exact ⟨fun _ hNe => absurd hEq hNe, fun _ => ⟨_, rfl⟩⟩
  case isFalse hNe =>
    split
    case isTrue h => exact ⟨fun _ _ => h, fun _ => ⟨_, rfl⟩⟩
    case isFalse h =>
      refine ⟨?_, fun hLt => absurd (hLt hNe) h⟩
      rintro ⟨val, hRead⟩
      cases hRead

/- A read is in bounds exactly where something is served. -/
theorem read_ok_iff
    (ns : BitVec 64)
    (size : MemorySize)
    (w : DevWorld (Clint cfg)) :
    (∃ val, read ns (clintAddr off) size w = .ok val) ↔
      cfg.Served off.toNat := by
  unfold read ClintConfig.Served
  rw [clintAddr_sub]
  dsimp only
  unfold CLINT_MSWI_SIZE CLINT_MTIMER_SIZE
  split
  case isTrue hMswi =>
    rw [readMswi_ok_iff]
    constructor
    · exact fun h => ⟨fun _ => h, fun hLe => by omega⟩
    · exact fun h => h.1 hMswi
  case isFalse hMswi =>
    split
    case isTrue hMtimer =>
      rw [readMtimer_ok_iff]
      constructor
      · intro h
        refine ⟨fun hLt => absurd hLt hMswi, ?_⟩
        intro _ _ hNe
        exact h (by omega)
      · intro h hNe
        exact h.2 (by omega) (by omega) (by omega)
    case isFalse hMtimer =>
      refine ⟨fun _ => ⟨fun hLt => absurd hLt hMswi, ?_⟩,
        fun _ => ⟨0, rfl⟩⟩
      intro _ hLt
      omega

/- What a write leaves: its registers, then the lines. -/
theorem write_cases
    (h : write ns ns' (clintAddr off) size value w = .ok w') :
    cfg.Served off.toNat ∧
      ((off.toNat < 0xC000 ∧
        ∃ dev, w' = updateMip ns' { w with dev := dev }) ∨
      (0xC000 ≤ off.toNat ∧ w' = w)) := by
  unfold write at h
  rw [clintAddr_sub] at h
  dsimp only at h
  unfold CLINT_MSWI_SIZE CLINT_MTIMER_SIZE at h
  split at h
  case isTrue hMswi =>
    unfold writeMswi at h
    split at h
    case isTrue hHart =>
      cases h
      refine ⟨⟨fun _ => hHart, fun hLe => by omega⟩, ?_⟩
      exact Or.inl ⟨by omega, _, rfl⟩
    case isFalse => cases h
  case isFalse hMswi =>
    split at h
    case isTrue hMtimer =>
      have hServed : (off.toNat - 0x4000 ≠ 0x7FF8 →
          (off.toNat - 0x4000) / 8 < cfg.numHarts) →
          cfg.Served off.toNat := by
        intro hHart
        refine ⟨fun hLt => absurd hLt hMswi, ?_⟩
        intro _ _ hNe
        exact hHart (by omega)
      unfold writeMtimer at h
      split at h
      case isTrue hEq =>
        cases h
        exact ⟨hServed (fun hNe => absurd hEq hNe),
          Or.inl ⟨hMtimer, _, rfl⟩⟩
      case isFalse hNe =>
        split at h
        case isTrue hHart =>
          cases h
          exact ⟨hServed (fun _ => hHart),
            Or.inl ⟨hMtimer, _, rfl⟩⟩
        case isFalse => cases h
    case isFalse hMtimer =>
      cases h
      refine ⟨⟨fun hLt => absurd hLt hMswi, ?_⟩,
        Or.inr ⟨by omega, rfl⟩⟩
      intro _ hLt
      omega

theorem write_ok_iff
    (ns ns' value : BitVec 64)
    (size : MemorySize)
    (w : DevWorld (Clint cfg)) :
    (∃ w', write ns ns' (clintAddr off) size value w =
        .ok w') ↔
      cfg.Served off.toNat := by
  constructor
  · rintro ⟨w', h⟩
    exact (write_cases h).1
  · intro h
    unfold write
    rw [clintAddr_sub]
    dsimp only
    unfold CLINT_MSWI_SIZE CLINT_MTIMER_SIZE
    split
    case isTrue hMswi =>
      unfold writeMswi
      rw [if_pos (h.1 hMswi)]
      exact ⟨_, rfl⟩
    case isFalse hMswi =>
      split
      case isTrue hMtimer =>
        unfold writeMtimer
        split
        case isTrue => exact ⟨_, rfl⟩
        case isFalse hNe =>
          rw [if_pos (h.2 (by omega) (by omega) (by omega))]
          exact ⟨_, rfl⟩
      case isFalse => exact ⟨_, rfl⟩

/- The offsets of the timer and of the compare registers. -/
theorem read_mtimer
    {offset : Nat}
    (hOff : off.toNat = 0x4000 + offset)
    (hLt : offset < 0x8000) :
    read ns (clintAddr off) size w = readMtimer ns offset w := by
  have hMswi : ¬ 0x4000 + offset < CLINT_MSWI_SIZE := by
    unfold CLINT_MSWI_SIZE
    omega
  have hMtimer : 0x4000 + offset <
      CLINT_MSWI_SIZE + CLINT_MTIMER_SIZE := by
    unfold CLINT_MSWI_SIZE CLINT_MTIMER_SIZE
    omega
  have hSub : 0x4000 + offset - CLINT_MSWI_SIZE = offset := by
    unfold CLINT_MSWI_SIZE
    omega
  unfold read
  rw [clintAddr_sub, hOff]
  dsimp only
  rw [if_neg hMswi, if_pos hMtimer, hSub]

theorem write_mtimer
    {offset : Nat}
    (hOff : off.toNat = 0x4000 + offset)
    (hLt : offset < 0x8000) :
    write ns ns' (clintAddr off) size value w =
      writeMtimer ns ns' offset value w := by
  have hMswi : ¬ 0x4000 + offset < CLINT_MSWI_SIZE := by
    unfold CLINT_MSWI_SIZE
    omega
  have hMtimer : 0x4000 + offset <
      CLINT_MSWI_SIZE + CLINT_MTIMER_SIZE := by
    unfold CLINT_MSWI_SIZE CLINT_MTIMER_SIZE
    omega
  have hSub : 0x4000 + offset - CLINT_MSWI_SIZE = offset := by
    unfold CLINT_MSWI_SIZE
    omega
  unfold write
  rw [clintAddr_sub, hOff]
  dsimp only
  rw [if_neg hMswi, if_pos hMtimer, hSub]

/- MSIP and MTIP of every hart are as the registers say. -/
def LinesRight
    (ns : BitVec 64)
    (w : DevWorld (Clint cfg)) : Prop :=
  ∀ hart : Fin cfg.numHarts,
    (w.pins hart.val).MSIP =
        (w.dev.msip.get hart).getLsbD 0 ∧
      (w.pins hart.val).MTIP =
        decide (w.dev.mtimecmp.get hart ≤ w.dev.mtime.get ns)

theorem linesRight_updateMip
    (ns : BitVec 64)
    (w : DevWorld (Clint cfg)) :
    LinesRight ns (updateMip ns w) := by
  intro hart
  rw [updateMip_pins, updateMip_dev]
  exact ⟨HartPins.updateMip_MSIP, HartPins.updateMip_MTIP⟩

/- A write to a register is followed by an update. -/
theorem write_linesRight
    (h : write ns ns' (clintAddr off) size value w = .ok w')
    (hReg : off.toNat < 0xC000) :
    LinesRight ns' w' := by
  rcases (write_cases h).2 with ⟨-, dev, rfl⟩ | ⟨hLe, -⟩
  · exact linesRight_updateMip ns' _
  · omega

end Clint

end RiscvEm

------------------------------------------------------------
-- Halves
------------------------------------------------------------

namespace RiscvEm

variable {cfg : ClintConfig}
variable {w w' : DevWorld (Clint cfg)}
variable {ns : BitVec 64}

/- A register of 64 bits. -/
inductive WideReg (cfg : ClintConfig) where
  | mtimecmp (hart : Fin cfg.numHarts)
  | mtime
  deriving DecidableEq

namespace WideReg

def offset
    (r : WideReg cfg) : BitVec 16 :=
  match r with
  | .mtimecmp hart =>
      0x4000#16 + BitVec.ofNat 16 (8 * hart.val)
  | .mtime => 0xBFF8#16

/- What the register shows at a reading of the clock. -/
def value
    (r : WideReg cfg)
    (ns : BitVec 64)
    (dev : Clint cfg) : BitVec 64 :=
  match r with
  | .mtimecmp hart => dev.mtimecmp.get hart
  | .mtime => dev.mtime.get ns

/- The offset of the lower or the upper half. -/
def halfOffset
    (r : WideReg cfg)
    (isUpper : Bool) : BitVec 16 :=
  if isUpper then r.offset + 4#16 else r.offset

end WideReg

/- The lower or the upper half of a value. -/
def halfOf
    (isUpper : Bool)
    (val : BitVec 64) : BitVec 32 :=
  val.extractLsb' (if isUpper then 32 else 0) 32

/- Stores of a guest, while the clock stands still. -/
def clintStores
    (ns : BitVec 64) :
    List (BitVec 16 × MemorySize × BitVec 64) →
      DevWorld (Clint cfg) →
      Except HostFault (DevWorld (Clint cfg))
  | [], w => .ok w
  | (off, size, value) :: stores, w => do
      let w ← Clint.write ns ns (clintAddr off) size value w
      clintStores ns stores w

theorem clintStores_cons
    (off : BitVec 16)
    (size : MemorySize)
    (value : BitVec 64)
    (stores : List (BitVec 16 × MemorySize × BitVec 64))
    (w : DevWorld (Clint cfg)) :
    clintStores ns ((off, size, value) :: stores) w =
      (do
        let w ←
          Clint.write ns ns (clintAddr off) size value w
        clintStores ns stores w) :=
  rfl

namespace WideReg

/- After the stores the register shows the value. -/
def ShowsAfter
    (r : WideReg cfg)
    (ns : BitVec 64)
    (w : DevWorld (Clint cfg))
    (val : BitVec 64)
    (stores : List (BitVec 16 × MemorySize × BitVec 64)) :
    Prop :=
  ∃ w', clintStores ns stores w = .ok w' ∧
    r.value ns w'.dev = val

/-
  The value made of the lower halves of two words is what the
  register shows after one store of it, and after stores of
  the two words to the halves of the register, in both
  orders.
-/
def WaysAgree
    (r : WideReg cfg)
    (ns : BitVec 64)
    (w : DevWorld (Clint cfg))
    (lo hi : BitVec 64) : Prop :=
  let val := halfOf false hi ++ halfOf false lo
  r.ShowsAfter ns w val [(r.offset, .Long, val)] ∧
    r.ShowsAfter ns w val
      [(r.offset, .Int, lo), (r.halfOffset true, .Int, hi)] ∧
    r.ShowsAfter ns w val
      [(r.halfOffset true, .Int, hi), (r.offset, .Int, lo)]

/- A load of four bytes returns the half that it is for. -/
def LoadsHalf
    (r : WideReg cfg)
    (ns : BitVec 64)
    (w : DevWorld (Clint cfg))
    (isUpper : Bool) : Prop :=
  ∃ val, Clint.read ns (clintAddr (r.halfOffset isUpper)) .Int w
      = .ok val ∧
    val.setWidth 32 = halfOf isUpper (r.value ns w.dev)

variable {r : WideReg cfg}

theorem halfOffset_mtimecmp
    (hart : Fin cfg.numHarts)
    (isUpper : Bool) :
    ((mtimecmp hart).halfOffset isUpper).toNat =
      0x4000 + 8 * hart.val + (if isUpper then 4 else 0) := by
  have hHart := Nat.lt_trans hart.isLt cfg.numHarts_lt
  unfold halfOffset offset
  cases isUpper with
  | true =>
      simp only [if_true, BitVec.toNat_add, BitVec.toNat_ofNat]
      omega
  | false =>
      simp only [Bool.false_eq_true, if_false, BitVec.toNat_add,
        BitVec.toNat_ofNat]
      omega

/- The offsets of a compare register are of its hart. -/
theorem halfOffset_hart
    (hart : Fin cfg.numHarts)
    (isUpper : Bool) :
    ∃ offset, ((mtimecmp hart).halfOffset isUpper).toNat =
        0x4000 + offset ∧
      offset < 0x7FF8 ∧ offset / 8 = hart.val := by
  have hHart := Nat.lt_trans hart.isLt cfg.numHarts_lt
  have hHalf : (if isUpper then 4 else 0) < 8 := by
    cases isUpper <;> decide
  refine ⟨8 * hart.val + (if isUpper then 4 else 0), ?_,
    by omega, by omega⟩
  rw [halfOffset_mtimecmp, Nat.add_assoc]

/- Both halves of a compare register are the register. -/
theorem read_mtimecmp
    (ns : BitVec 64)
    (hart : Fin cfg.numHarts)
    (isUpper : Bool)
    (size : MemorySize)
    (w : DevWorld (Clint cfg)) :
    Clint.read ns
        (clintAddr ((mtimecmp hart).halfOffset isUpper)) size w
      = .ok (w.dev.mtimecmp.get hart) := by
  rcases halfOffset_hart hart isUpper with
    ⟨offset, hOff, hLt, hDiv⟩
  rw [Clint.read_mtimer hOff (by omega)]
  unfold Clint.readMtimer
  rw [if_neg (Nat.ne_of_lt hLt), dif_pos (hDiv ▸ hart.isLt)]
  simp only [hDiv]

/- A write to a half is a write to the register. -/
theorem write_mtimecmp
    (ns : BitVec 64)
    (hart : Fin cfg.numHarts)
    (isUpper : Bool)
    (size : MemorySize)
    (val : BitVec 64)
    (w : DevWorld (Clint cfg)) :
    ∃ w', Clint.write ns ns
        (clintAddr ((mtimecmp hart).halfOffset isUpper)) size
        val w = .ok w' ∧
      w'.dev.mtimecmp.get hart = val := by
  rcases halfOffset_hart hart isUpper with
    ⟨offset, hOff, hLt, hDiv⟩
  rw [Clint.write_mtimer hOff (by omega)]
  unfold Clint.writeMtimer
  rw [if_neg (Nat.ne_of_lt hLt), if_pos (hDiv ▸ hart.isLt), hDiv]
  refine ⟨_, rfl, ?_⟩
  rw [Clint.updateMip_dev]
  exact Vector.getElem_setIfInBounds_self hart.isLt

/- Nothing is served at the upper half of `mtime`. -/
theorem not_served_mtime :
    ¬ cfg.Served
      ((mtime : WideReg cfg).halfOffset true).toNat := by
  have hHarts := cfg.numHarts_lt
  have hOff : ((mtime : WideReg cfg).halfOffset true).toNat =
      0xBFFC :=
    rfl
  rw [hOff]
  rintro ⟨-, hServed⟩
  have hHart := hServed (by decide) (by decide) (by decide)
  omega

theorem read_mtime
    (size : MemorySize) :
    Clint.read ns
        (clintAddr ((mtime : WideReg cfg).halfOffset false))
        size w = .ok (w.dev.mtime.get ns) := by
  have hOff : ((mtime : WideReg cfg).halfOffset false).toNat =
      0x4000 + 0x7FF8 :=
    rfl
  rw [Clint.read_mtimer hOff (by decide)]
  unfold Clint.readMtimer
  rw [if_pos rfl]

end WideReg

end RiscvEm

------------------------------------------------------------
-- The Register File
------------------------------------------------------------

namespace RiscvEm

variable {cfg : ClintConfig}
variable {w w' : DevWorld (Clint cfg)}
variable {ns : BitVec 64}

/- A value is made of its halves. -/
theorem halfOf_append
    (hi lo : BitVec 32) :
    halfOf true (hi ++ lo) = hi ∧
      halfOf false (hi ++ lo) = lo := by
  unfold halfOf
  refine ⟨?_, ?_⟩
  · simp only [if_true, BitVec.extractLsb'_append_eq_left]
  · simp only [Bool.false_eq_true, if_false,
      BitVec.extractLsb'_append_eq_right]

theorem append_halfOf
    (val : BitVec 64) :
    halfOf true val ++ halfOf false val = val := by
  unfold halfOf
  simp only [if_true, Bool.false_eq_true, if_false]
  rw [BitVec.extractLsb'_append_extractLsb'_eq_extractLsb'
    (by decide)]
  exact BitVec.extractLsb'_eq_self

theorem setWidth_eq_halfOf
    (val : BitVec 64) :
    val.setWidth 32 = halfOf false val := by
  unfold halfOf
  simp only [Bool.false_eq_true, if_false]
  rw [BitVec.setWidth_eq_extractLsb' (by decide)]

namespace WideReg

/- The last of some stores to a compare register stays. -/
theorem showsAfter_mtimecmp_iff
    (ns : BitVec 64)
    (hart : Fin cfg.numHarts)
    (stores : List (Bool × MemorySize × BitVec 64))
    (last : Bool × MemorySize × BitVec 64)
    (val : BitVec 64)
    (w : DevWorld (Clint cfg)) :
    (mtimecmp hart).ShowsAfter ns w val
        ((stores ++ [last]).map (fun (isUpper, size, x) =>
          ((mtimecmp hart).halfOffset isUpper, size, x))) ↔
      last.2.2 = val := by
  induction stores generalizing w with
  | nil =>
      rcases write_mtimecmp ns hart last.1 last.2.1
        last.2.2 w with ⟨w₁, hWrite, hGet⟩
      have hStores : clintStores ns
          [((mtimecmp hart).halfOffset last.1, last.2.1,
            last.2.2)] w = .ok w₁ := by
        rw [clintStores_cons, hWrite]
        rfl
      constructor
      · rintro ⟨w', hOk, hVal⟩
        cases hStores.symm.trans hOk
        exact hGet.symm.trans hVal
      · intro hVal
        exact ⟨w₁, hStores, hGet.trans hVal⟩
  | cons store stores ih =>
      rcases write_mtimecmp ns hart store.1 store.2.1
        store.2.2 w with ⟨w₁, hWrite, -⟩
      rw [← ih w₁]
      unfold ShowsAfter
      rw [List.cons_append, List.map_cons]
      simp only [clintStores_cons, hWrite]
      rfl

/- The ways to write a register agree for few values. -/
theorem waysAgree_iff
    {r : WideReg cfg}
    {lo hi : BitVec 64} :
    r.WaysAgree ns w lo hi ↔
      (∃ hart, r = .mtimecmp hart) ∧ lo = hi ∧
        halfOf true lo = halfOf false lo := by
  cases r with
  | mtime =>
      constructor
      · rintro ⟨-, -, w', hStores, -⟩
        rcases bind_eq_ok.mp hStores with ⟨w₁, hWrite, -⟩
        have hServed := (Clint.write_ok_iff _ _ _ _ _).mp
          ⟨w₁, hWrite⟩
        exact absurd hServed not_served_mtime
      · rintro ⟨⟨hart, hEq⟩, -⟩
        cases hEq
  | mtimecmp hart =>
      have hWhole := showsAfter_mtimecmp_iff ns hart []
        (false, .Long, halfOf false hi ++ halfOf false lo)
        (halfOf false hi ++ halfOf false lo) w
      have hUp := showsAfter_mtimecmp_iff ns hart
        [(false, .Int, lo)] (true, .Int, hi)
        (halfOf false hi ++ halfOf false lo) w
      have hDown := showsAfter_mtimecmp_iff ns hart
        [(true, .Int, hi)] (false, .Int, lo)
        (halfOf false hi ++ halfOf false lo) w
      constructor
      · rintro ⟨-, hUpper, hLower⟩
        have hHi := hUp.mp hUpper
        have hLo := hDown.mp hLower
        dsimp only at hHi hLo
        refine ⟨⟨hart, rfl⟩, hLo.trans hHi.symm, ?_⟩
        have hSame : hi = lo := hHi.trans hLo.symm
        subst hSame
        have hTop := congrArg (halfOf true) hLo
        rw [(halfOf_append _ _).1] at hTop
        exact hTop
      · rintro ⟨-, rfl, hHalves⟩
        have hVal : halfOf false lo ++ halfOf false lo = lo := by
          conv_rhs => rw [← append_halfOf lo, hHalves]
        exact ⟨hWhole.mpr rfl, hUp.mpr hVal.symm,
          hDown.mpr hVal.symm⟩

/- A load of the upper half returns the lower one. -/
theorem loadsHalf_iff
    {r : WideReg cfg}
    {isUpper : Bool} :
    r.LoadsHalf ns w isUpper ↔
      isUpper = false ∨ ∃ hart, r = .mtimecmp hart ∧
        halfOf true (w.dev.mtimecmp.get hart) =
          halfOf false (w.dev.mtimecmp.get hart) := by
  cases r with
  | mtime =>
      cases isUpper with
      | false =>
          refine ⟨fun _ => Or.inl rfl, fun _ => ?_⟩
          exact ⟨_, read_mtime .Int, setWidth_eq_halfOf _⟩
      | true =>
          constructor
          · rintro ⟨val, hRead, -⟩
            have hServed := (Clint.read_ok_iff _ _ _).mp
              ⟨val, hRead⟩
            exact absurd hServed not_served_mtime
          · rintro (hEq | ⟨hart, hEq, -⟩)
            · cases hEq
            · cases hEq
  | mtimecmp hart =>
      have hRead := read_mtimecmp ns hart isUpper .Int w
      constructor
      · rintro ⟨val, hOk, hHalf⟩
        cases hRead.symm.trans hOk
        rw [setWidth_eq_halfOf] at hHalf
        cases isUpper with
        | false => exact Or.inl rfl
        | true => exact Or.inr ⟨hart, rfl, hHalf.symm⟩
      · intro hCase
        refine ⟨_, hRead, ?_⟩
        rw [setWidth_eq_halfOf]
        rcases hCase with rfl | ⟨hart', hEq, hHalves⟩
        · rfl
        · cases hEq
          cases isUpper with
          | false => rfl
          | true => exact hHalves.symm

end WideReg

/-
  Where the registers are as guests expect them. An access is
  in bounds, and without effect for an absent hart, exactly
  where something is served; the ways to write a register of
  64 bits agree exactly when it is a compare register and
  both stores carry the whole value; a load of four bytes
  returns its half exactly when it is the lower one or both
  are the same; after every write to a register the pending
  bits are right.
-/
theorem clint_registers_iff
    (cfg : ClintConfig)
    (w : DevWorld (Clint cfg))
    (ns ns' : BitVec 64) :
    (∀ (off : BitVec 16) (size : MemorySize)
        (value : BitVec 64),
      ((∃ val, Clint.read ns (clintAddr off) size w = .ok val ∧
          (cfg.Absent off.toNat → val = 0)) ↔
        cfg.Served off.toNat) ∧
      ((∃ w', Clint.write ns ns' (clintAddr off) size value w =
            .ok w' ∧
          (cfg.Absent off.toNat → w' = w)) ↔
        cfg.Served off.toNat)) ∧
    (∀ (r : WideReg cfg) (lo hi : BitVec 64),
      r.WaysAgree ns w lo hi ↔
        (∃ hart, r = .mtimecmp hart) ∧ lo = hi ∧
          halfOf true lo = halfOf false lo) ∧
    (∀ (r : WideReg cfg) (isUpper : Bool),
      r.LoadsHalf ns w isUpper ↔
        isUpper = false ∨ ∃ hart, r = .mtimecmp hart ∧
          halfOf true (w.dev.mtimecmp.get hart) =
            halfOf false (w.dev.mtimecmp.get hart)) ∧
    (∀ (off : BitVec 16) (size : MemorySize)
        (value : BitVec 64) (w' : DevWorld (Clint cfg)),
      Clint.write ns ns' (clintAddr off) size value w =
          .ok w' →
        off.toNat < 0xC000 → Clint.LinesRight ns' w') := by
  refine ⟨?_, fun r lo hi => WideReg.waysAgree_iff,
    fun r isUpper => WideReg.loadsHalf_iff,
    fun off size value w' => Clint.write_linesRight⟩
  intro off size value
  constructor
  · refine Iff.trans ?_ (Clint.read_ok_iff ns size w)
    constructor
    · rintro ⟨val, hRead, -⟩
      exact ⟨val, hRead⟩
    · rintro ⟨val, hRead⟩
      have hServed := (Clint.read_ok_iff _ _ _).mp ⟨val, hRead⟩
      exact ⟨val, hRead,
        fun hAbsent => absurd hAbsent hServed.not_absent⟩
  · refine Iff.trans ?_ (Clint.write_ok_iff ns ns' value size w)
    constructor
    · rintro ⟨w', hWrite, -⟩
      exact ⟨w', hWrite⟩
    · rintro ⟨w', hWrite⟩
      have hServed := (Clint.write_ok_iff _ _ _ _ _).mp
        ⟨w', hWrite⟩
      exact ⟨w', hWrite,
        fun hAbsent => absurd hAbsent hServed.not_absent⟩

def ClintConfig.oneHart : ClintConfig :=
  { numHarts := 1
    numHarts_lt := by decide }

/- The device of a machine of one hart, as it is started. -/
def clintStart : DevWorld (Clint ClintConfig.oneHart) :=
  ⟨Clint.init _ 0, fun _ => ⟨0, 0, 0⟩⟩

/-
  An access to `msip` of a second hart is out of bounds; the
  halves of 2 * 2^32 + 1, stored to `mtimecmp` of the first
  hart, do not make the value; and the upper half of `mtime`
  cannot be loaded.
-/
theorem clint_registers_unexpected :
    Clint.read 0 (clintAddr 4) .Int clintStart =
        .error .outOfBounds ∧
      ¬ (WideReg.mtimecmp ⟨0, by decide⟩).WaysAgree 0
        clintStart 1 2 ∧
      ¬ WideReg.mtime.LoadsHalf 0 clintStart true := by
  refine ⟨rfl, ?_, ?_⟩
  · rw [WideReg.waysAgree_iff]
    rintro ⟨-, hEq, -⟩
    exact absurd hEq (by decide)
  · rw [WideReg.loadsHalf_iff]
    rintro (hEq | ⟨hart, hEq, -⟩)
    · cases hEq
    · cases hEq

end RiscvEm
