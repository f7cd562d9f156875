import RiscvEm.Hart.FloatState

/-
  Accrued exceptions: the flags of `fcsr` are to stay set
  until the guest clears them.

  Key definitions include:
    * `FlagsSticky`
    * `ConvertsBadly`

  Key theorems include `float_flags_sticky_iff`.
-/

------------------------------------------------------------
-- Sticky Flags
------------------------------------------------------------

namespace RiscvEm

variable {σ : Type}

/- No flag is cleared, and the rounding mode stays. -/
structure FlagsSticky
    (s s' : State σ) : Prop where
  fflags : ∀ i, s.hart.fcsr.fflags.getLsbD i = true →
    s'.hart.fcsr.fflags.getLsbD i = true
  frm : s'.hart.fcsr.frm = s.hart.fcsr.frm

namespace FlagsSticky

variable {s s' s'' : State σ}

/- Flags that were not written are sticky. -/
theorem of_fcsr
    (h : s'.hart.fcsr = s.hart.fcsr) :
    FlagsSticky s s' := by
  refine ⟨fun i hFlag => ?_, ?_⟩
  · rw [h]
    exact hFlag
  · rw [h]

/- Sticky over two parts of an instruction. -/
theorem trans
    (h : FlagsSticky s s')
    (h' : FlagsSticky s' s'') :
    FlagsSticky s s'' :=
  ⟨fun i hFlag => h'.fflags i (h.fflags i hFlag),
    h'.frm.trans h.frm⟩

/- Raising flags clears none. -/
theorem orFlags
    (s : State σ)
    (flags : BitVec 5) :
    FlagsSticky s (s.orFlags flags) := by
  refine ⟨fun i hFlag => ?_, s.hart.fcsr.frm_setFflags _⟩
  change (Fcsr.fflags (Fcsr.setFflags _ _)).getLsbD i = true
  rw [Fcsr.fflags_setFflags, BitVec.getLsbD_or, hFlag,
    Bool.true_or]

/- The inexact flag is the one that may be cleared. -/
theorem flagInvalidOnly_iff
    (s : State σ) :
    FlagsSticky s s.flagInvalidOnly ↔
      s.hart.fcsr.fflags.getLsbD 0 = false := by
  have hFlags : s.flagInvalidOnly.hart.fcsr.fflags =
      (s.hart.fcsr.fflags ||| 0b10000) &&& ~~~1 :=
    Fcsr.fflags_setFflags _ _
  constructor
  · intro h
    by_contra hSet
    have hKept := h.fflags 0 (Bool.eq_true_of_not_eq_false hSet)
    rw [hFlags, BitVec.getLsbD_and] at hKept
    have hMask : (~~~1 : BitVec 5).getLsbD 0 = false := rfl
    rw [hMask, Bool.and_false] at hKept
    cases hKept
  · intro hClear
    refine ⟨fun i hFlag => ?_, s.hart.fcsr.frm_setFflags _⟩
    have hPos : i ≠ 0 := by
      rintro rfl
      rw [hClear] at hFlag
      cases hFlag
    have hOthers : ∀ i < 5, i ≠ 0 →
        (~~~1 : BitVec 5).getLsbD i = true := by decide
    have hMask := hOthers i (BitVec.lt_of_getLsbD hFlag) hPos
    rw [hFlags, BitVec.getLsbD_and, BitVec.getLsbD_or, hFlag,
      Bool.true_or, hMask, Bool.true_and]

end FlagsSticky

end RiscvEm

------------------------------------------------------------
-- Conversions To Integers
------------------------------------------------------------

namespace RiscvEm

variable {σ : Type}

/- The operand rounded in the mode of the instruction. -/
def roundedInt
    (P : Platform σ)
    (d : InstructionData)
    (s : State σ)
    (exact : BitVec 64) : BitVec 64 :=
  match rmFunc P s exact d.rm with
  | some (inter, _, s) => P.float.llrint s.round inter
  | none => 0

/- The targets of the conversions, and their sources. -/
def intTarget : Op → Option IntTarget
  | .FCVT_W_S | .FCVT_W_D => some .int32
  | .FCVT_WU_S | .FCVT_WU_D => some .uint32
  | .FCVT_L_S | .FCVT_L_D => some .int64
  | .FCVT_LU_S | .FCVT_LU_D => some .uint64
  | _ => none

def isSingleSource : Op → Bool
  | .FCVT_W_S | .FCVT_WU_S | .FCVT_L_S | .FCVT_LU_S => true
  | _ => false

/- A conversion in a valid mode whose operand does not fit. -/
def ConvertsBadly
    (P : Platform σ)
    (op : Op)
    (d : InstructionData)
    (s : State σ) : Prop :=
  ¬ ReservedRm s d ∧
    ∃ t, intTarget op = some t ∧
      if isSingleSource op then
        Unrepresentable t 23 (s.f32 d.rs1)
          (P.float.widen (s.f32 d.rs1))
          (roundedInt P d s (P.float.widen (s.f32 d.rs1)))
      else
        Unrepresentable t 52 (s.fpr d.rs1) (s.fpr d.rs1)
          (roundedInt P d s (s.fpr d.rs1))

section Conversions

variable {w : Nat}
variable {P : Platform σ}
variable {d : InstructionData}
variable {s s' : State σ}
variable {out : ExecReturn}
variable {t : IntTarget}
variable {m : Nat}

/- A conversion without a result clears the inexact flag. -/
theorem finalizeFcvt_unrepresentable
    {src : BitVec w}
    {exact rounded : BitVec 64}
    (h : Unrepresentable t m src exact rounded) :
    (finalizeFcvt P t m s src exact rounded).2 =
      s.flagInvalidOnly := by
  rw [finalizeFcvt_state, if_pos h]

/- A conversion that has a result only raises flags. -/
theorem finalizeFcvt_representable
    {src : BitVec w}
    {exact rounded : BitVec 64}
    (h : ¬ Unrepresentable t m src exact rounded) :
    FlagsSticky s
      (finalizeFcvt P t m s src exact rounded).2 := by
  rw [finalizeFcvt_state, if_neg h]
  split
  · exact .of_fcsr rfl
  · exact .orFlags s NX

end Conversions

end RiscvEm

------------------------------------------------------------
-- Instructions
------------------------------------------------------------

namespace RiscvEm

variable {σ : Type}
variable {P : Platform σ}
variable {op : Op}
variable {d : InstructionData}
variable {s s' : State σ}
variable {out : ExecReturn}

/- Whatever the result is, it keeps the flags. -/
def StickyResult
    (s : State σ)
    (x : Except HostFault (ExecReturn × State σ)) : Prop :=
  ∀ out s', x = .ok (out, s') → FlagsSticky s s'

namespace StickyResult

/- An instruction that ends in such a state. -/
theorem ok
    (h : FlagsSticky s s') :
    StickyResult s (.ok (out, s')) := by
  rintro _ _ ⟨⟩
  exact h

/-
  An instruction that rounds, if what follows keeps the
  flags.
-/
theorem withRm
    {val : BitVec 64}
    {cont : BitVec 64 → BitVec 5 → State σ → State σ}
    (hCont : ∀ inter flags s,
      FlagsSticky s (cont inter flags s)) :
    StickyResult s (withRm P d val cont s) := by
  unfold RiscvEm.withRm
  split
  case h_1 => exact .ok (.of_fcsr rfl)
  case h_2 inter flags s₁ hSome =>
    refine .ok (FlagsSticky.trans ?_ (hCont inter flags s₁))
    exact .of_fcsr (by rw [rmFunc_hart hSome])

/- Moves to the integer registers. -/
theorem execRd
    {n : BitVec 64}
    {rd : BitVec 5}
    {val : State σ → BitVec 64} :
    StickyResult s (execRd n rd val s) :=
  .ok (.of_fcsr rfl)

/- Moves to the floating-point registers. -/
theorem execFrd
    {n : BitVec 64}
    {rd : BitVec 5}
    {val : State σ → BitVec 64} :
    StickyResult s (execFrd n rd val s) :=
  .ok (.of_fcsr rfl)

/- A load leaves the flags. -/
theorem execLoad
    {n : BitVec 64}
    {size : MemorySize}
    {addr : State σ → BitVec 64}
    {r : BitVec 5}
    {f : BitVec 64 → BitVec 64} :
    StickyResult s (execLoad P n size addr
      (fun s val => s.setFpr r (f val)) s) := by
  intro out s' h
  rcases bind_eq_ok.mp h with ⟨⟨m, val, s₁⟩, hRead, hEq⟩
  cases hEq
  apply FlagsSticky.of_fcsr
  rw [← State.mmioRead_hart hRead]
  split <;> rfl

/- A store leaves them. -/
theorem execStore
    {n : BitVec 64}
    {size : MemorySize}
    {addr val : State σ → BitVec 64} :
    StickyResult s (execStore P n size addr val s) := by
  intro out s' h
  rcases bind_eq_ok.mp h with ⟨⟨m, s₁⟩, hWrite, hEq⟩
  cases hEq
  apply FlagsSticky.of_fcsr
  rw [State.mmioWrite_hart hWrite]

/- A cast raises a flag at most. -/
theorem setCast
    (rd : BitVec 5)
    (s : State σ)
    (val : BitVec 64) :
    FlagsSticky s (setCast P rd s val) := by
  unfold RiscvEm.setCast castFloat
  by_cases hNan : isNan 52 val = true
  · rw [if_pos hNan]
    exact (FlagsSticky.orFlags s NV).trans (.of_fcsr rfl)
  · rw [if_neg hNan]
    exact .of_fcsr rfl

/- The arithmetic of single precision raises flags only. -/
theorem execSingle
    {res : Platform σ → State σ → InstructionData →
      BitVec 64} :
    StickyResult s (execSingle res P d s) := by
  refine .withRm fun inter flags s => ?_
  exact (FlagsSticky.orFlags s _).trans (setCast _ _ _)

/- The arithmetic of double precision raises flags only. -/
theorem execDouble
    {f : HostFloat → RoundMode → BitVec 64 → BitVec 64 →
      BitVec 64 → BitVec 64 × BitVec 5} :
    StickyResult s (execDouble f P d s) := by
  refine .withRm fun inter flags s => ?_
  dsimp only [sanitizeNan]
  split
  · exact ((FlagsSticky.orFlags s _).trans
      (.orFlags _ NV)).trans (.of_fcsr rfl)
  · exact (FlagsSticky.orFlags s _).trans (.of_fcsr rfl)

/- Conversions from integers. -/
theorem execFcvtToD
    {exact : HostFloat → RoundMode → BitVec 64 →
      BitVec 64} :
    StickyResult s (execFcvtToD exact P d s) :=
  .withRm fun _ _ _ => .of_fcsr rfl

theorem execFcvtToS
    {exact : Platform σ → RoundMode → BitVec 64 →
      BitVec 64} :
    StickyResult s (execFcvtToS exact P d s) := by
  refine .withRm fun inter flags s => ?_
  exact (FlagsSticky.orFlags s _).trans (.of_fcsr rfl)

theorem execFcvtToDFlags
    {exact : HostFloat → RoundMode → BitVec 64 →
      BitVec 64} :
    StickyResult s (execFcvtToDFlags exact P d s) := by
  refine .withRm fun inter flags s => ?_
  exact (FlagsSticky.orFlags s _).trans (.of_fcsr rfl)

/- Narrowing raises flags only. -/
theorem execFCVT_S_D :
    StickyResult s (execFCVT_S_D P d s) := by
  refine .withRm fun exact flags s => ?_
  refine (FlagsSticky.orFlags s flags).trans ?_
  dsimp only
  split
  · exact (FlagsSticky.orFlags _ NV).trans (.of_fcsr rfl)
  · exact .of_fcsr rfl

/- Widening raises flags only. -/
theorem execFCVT_D_S :
    StickyResult s (execFCVT_D_S P d s) := by
  unfold RiscvEm.execFCVT_D_S
  dsimp only
  split
  · apply ok
    split
    · exact (FlagsSticky.orFlags s NV).trans (.of_fcsr rfl)
    · exact .of_fcsr rfl
  · exact .ok (.of_fcsr rfl)

/- Comparisons raise flags only. -/
theorem execFcmp
    {w : Nat}
    {src : State σ → BitVec 5 → BitVec w}
    {bad : BitVec w → Bool}
    {cmp : BitVec w → BitVec w → Bool} :
    StickyResult s (execFcmp src bad cmp P d s) := by
  unfold RiscvEm.execFcmp
  dsimp only
  split
  · exact .ok ((FlagsSticky.orFlags s NV).trans
      (.of_fcsr rfl))
  · exact .ok (.of_fcsr rfl)

/- Minimum and maximum raise flags only. -/
theorem execFselect
    {w m : Nat}
    {canonical : BitVec w}
    {src : State σ → BitVec 5 → BitVec w}
    {res : BitVec w → BitVec 64}
    {first : BitVec w → BitVec w → Bool} :
    StickyResult s
      (execFselect m canonical src res first P d s) := by
  apply ok
  split
  · exact (FlagsSticky.orFlags s NV).trans (.of_fcsr rfl)
  · exact .of_fcsr rfl

end StickyResult

section Dispatch

seal execRd execFrd execLoad execStore execSingle execDouble
  execFcvtToInt execFcvtToS execFcvtToD execFcvtToDFlags
  execFcmp execFselect setCast

/- All but the conversions to integers only add flags. -/
theorem Op.exec_sticky
    (hFloat : (floatKind op).isSome = true)
    (hTarget : intTarget op = none) :
    StickyResult s (op.exec P d s) := by
  cases op with
  | FMV_X_W | FCLASS_S | FMV_X_D | FCLASS_D =>
      exact StickyResult.execRd
  | FSGNJX_S | FMV_W_X | FSGNJ_D | FSGNJN_D | FSGNJX_D
  | FMV_D_X =>
      exact StickyResult.execFrd
  | FSW | FSD | C_FSD | C_FSDSP =>
      exact StickyResult.execStore
  | FMADD_S | FMSUB_S | FNMADD_S | FNMSUB_S | FADD_S
  | FSUB_S | FMUL_S | FDIV_S | FSQRT_S =>
      exact StickyResult.execSingle
  | FSGNJ_S | FSGNJN_S =>
      exact StickyResult.ok (StickyResult.setCast _ _ _)
  | FMIN_S | FMAX_S | FMIN_D | FMAX_D =>
      exact StickyResult.execFselect
  | FCVT_S_W | FCVT_S_WU | FCVT_S_L | FCVT_S_LU =>
      exact StickyResult.execFcvtToS
  | FEQ_S | FLT_S | FLE_S | FEQ_D | FLT_D | FLE_D =>
      exact StickyResult.execFcmp
  | FLW =>
      exact StickyResult.execLoad
        (f := fun val => f32Out (val.setWidth 32))
  | FLD | C_FLD | C_FLDSP =>
      exact StickyResult.execLoad (f := id)
  | FMADD_D | FMSUB_D | FNMADD_D | FNMSUB_D | FADD_D
  | FSUB_D | FMUL_D | FDIV_D | FSQRT_D =>
      exact StickyResult.execDouble
  | FCVT_S_D => exact StickyResult.execFCVT_S_D
  | FCVT_D_S => exact StickyResult.execFCVT_D_S
  | FCVT_D_W | FCVT_D_WU =>
      exact StickyResult.execFcvtToD
  | FCVT_D_L | FCVT_D_LU =>
      exact StickyResult.execFcvtToDFlags
  | FCVT_W_S | FCVT_WU_S | FCVT_L_S | FCVT_LU_S | FCVT_W_D
  | FCVT_WU_D | FCVT_L_D | FCVT_LU_D => cases hTarget
  | _ => cases hFloat

end Dispatch

/-
  A conversion to an integer is sticky unless the inexact
  flag is set and there is no result.
-/
theorem execFcvtToInt_sticky_iff
    {w : Nat}
    {t : IntTarget}
    {m : Nat}
    {src : InstructionData → State σ → BitVec w}
    {exact : Platform σ → BitVec w → BitVec 64}
    {ext : BitVec 64 → BitVec 64}
    (h : execFcvtToInt t m src exact ext P d s =
      .ok (out, s')) :
    FlagsSticky s s' ↔
      ¬ (s.hart.fcsr.fflags.getLsbD 0 = true ∧
        ¬ ReservedRm s d ∧
        Unrepresentable t m (src d s) (exact P (src d s))
          (roundedInt P d s (exact P (src d s)))) := by
  unfold execFcvtToInt withRm at h
  dsimp only at h
  unfold roundedInt
  split at h
  case h_1 hNone =>
    cases h
    refine iff_of_true (.of_fcsr rfl) ?_
    rintro ⟨-, hMode, -⟩
    exact hMode (rmFunc_eq_none_iff.mp hNone)
  case h_2 inter flags s₁ hSome =>
    cases h
    have hMode : ¬ ReservedRm s d := by
      intro hReserved
      rw [rmFunc_eq_none_iff.mpr hReserved] at hSome
      cases hSome
    have hHart := rmFunc_hart hSome
    have hStart : ∀ s₂ : State σ, ∀ r v,
        FlagsSticky s (s₂.setGpr r v) ↔ FlagsSticky s₁ s₂ := by
      intro s₂ r v
      constructor
      · rintro ⟨hFlags, hFrm⟩
        rw [← hHart] at hFlags hFrm
        exact ⟨hFlags, hFrm⟩
      · rintro ⟨hFlags, hFrm⟩
        rw [hHart] at hFlags hFrm
        exact ⟨hFlags, hFrm⟩
    rw [hSome, hStart]
    dsimp only
    by_cases hBad : Unrepresentable t m (src d s)
        (exact P (src d s)) (P.float.llrint s₁.round inter)
    · rw [finalizeFcvt_unrepresentable hBad,
        FlagsSticky.flagInvalidOnly_iff, hHart,
        ← Bool.not_eq_true]
      exact not_congr ⟨fun hSet => ⟨hSet, hMode, hBad⟩,
        fun hAll => hAll.1⟩
    · refine iff_of_true (finalizeFcvt_representable hBad) ?_
      rintro ⟨-, -, hBad'⟩
      exact hBad hBad'

/-
  A conversion from single precision keeps the flags unless
  it clears `NX`.
-/
theorem execFcvtS_sticky_iff
    {t : IntTarget}
    (ext : BitVec 64 → BitVec 64)
    (h : execFcvtS t ext P d s = .ok (out, s')) :
    FlagsSticky s s' ↔
      ¬ (s.hart.fcsr.fflags.getLsbD 0 = true ∧
        ¬ ReservedRm s d ∧
        Unrepresentable t 23 (s.f32 d.rs1)
          (P.float.widen (s.f32 d.rs1))
          (roundedInt P d s (P.float.widen (s.f32 d.rs1)))) :=
  execFcvtToInt_sticky_iff h

/-
  A conversion from double precision keeps them unless it
  clears `NX`.
-/
theorem execFcvtD_sticky_iff
    {t : IntTarget}
    (ext : BitVec 64 → BitVec 64)
    (h : execFcvtD t ext P d s = .ok (out, s')) :
    FlagsSticky s s' ↔
      ¬ (s.hart.fcsr.fflags.getLsbD 0 = true ∧
        ¬ ReservedRm s d ∧
        Unrepresentable t 52 (s.fpr d.rs1) (s.fpr d.rs1)
          (roundedInt P d s (s.fpr d.rs1))) :=
  execFcvtToInt_sticky_iff h

/-
  The flags are sticky, but for the inexact flag, which a
  conversion of an operand without a value clears.
-/
theorem float_flags_sticky_iff
    (P : Platform σ)
    (op : Op)
    (d : InstructionData)
    (s s' : State σ)
    (out : ExecReturn)
    (hFloat : (floatKind op).isSome = true)
    (hExec : op.exec P d s = .ok (out, s')) :
    FlagsSticky s s' ↔
      ¬ (s.hart.fcsr.fflags.getLsbD 0 = true ∧
        ConvertsBadly P op d s) := by
  unfold ConvertsBadly
  cases hTarget : intTarget op with
  | none =>
      refine iff_of_true
        (Op.exec_sticky hFloat hTarget out s' hExec) ?_
      rintro ⟨-, -, t, hSome, -⟩
      cases hSome
  | some t =>
      simp only [Option.some.injEq, exists_eq_left']
      cases op with
      | FCVT_W_S | FCVT_WU_S =>
          cases hTarget
          exact execFcvtS_sticky_iff sextW hExec
      | FCVT_L_S | FCVT_LU_S =>
          cases hTarget
          exact execFcvtS_sticky_iff id hExec
      | FCVT_W_D | FCVT_WU_D =>
          cases hTarget
          exact execFcvtD_sticky_iff sextW hExec
      | FCVT_L_D | FCVT_LU_D =>
          cases hTarget
          exact execFcvtD_sticky_iff id hExec
      | _ => cases hTarget

/- A hart with `NX` set, a NaN in `f0` and zero in `f1`. -/
def inexactState : State Unit :=
  ((State.boot []).setFcsr 1).setFpr 0 F64_NAN

/- `fcvt.w.d x1, f1, rne` keeps `NX`. -/
theorem float_flags_sticky_fcvt :
    let d : InstructionData := ⟨0xC20080D3, 1, 0, 1, 0, 0, 0⟩
    ∃ out s', Op.FCVT_W_D.exec Platform.bare d inexactState =
      .ok (out, s') ∧ FlagsSticky inexactState s' := by
  intro d
  refine ⟨_, _, rfl, ?_⟩
  refine (float_flags_sticky_iff Platform.bare .FCVT_W_D d
    inexactState _ _ rfl rfl).mpr ?_
  rintro ⟨-, -, t, hTarget, hBad⟩
  cases hTarget
  revert hBad
  unfold Unrepresentable
  decide

/- `fcvt.w.d x1, f0, rne` clears `NX`. -/
theorem float_flags_cleared_fcvt :
    let d : InstructionData := ⟨0xC20000D3, 0, 0, 1, 0, 0, 0⟩
    (floatKind .FCVT_W_D).isSome = true ∧
      ∃ out s', Op.FCVT_W_D.exec Platform.bare d
          inexactState = .ok (out, s') ∧
        ¬ FlagsSticky inexactState s' := by
  intro d
  refine ⟨rfl, _, _, rfl, ?_⟩
  intro hSticky
  have hKept := hSticky.fflags 0 (by decide)
  exact absurd hKept (by decide)

end RiscvEm
