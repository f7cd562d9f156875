import RiscvEm.Hart.FloatFlags

/-
  Sign injection: the magnitude of one operand under a sign
  taken from both, on every bit pattern.

  Key definitions include:
    * `Injects`
    * `SignExact`
    * `SignSafe`

  Key theorems include `sign_injection_iff`.
-/

------------------------------------------------------------
-- Signs And Magnitudes
------------------------------------------------------------

namespace RiscvEm

/- The operand's sign, its complement, or that of both. -/
inductive SignKind where
  | copy
  | negate
  | xor
  deriving DecidableEq, Repr

def SignKind.sign
    (k : SignKind)
    (a b : Bool) : Bool :=
  match k with
  | .copy => b
  | .negate => !b
  | .xor => a ^^ b

variable {w : Nat}

/-
  What sign injection is to return: the magnitude bits of `x`
  and the sign that the kind asks for.
-/
structure Injects
    (k : SignKind)
    (x y r : BitVec w) : Prop where
  sign : r.msb = k.sign x.msb y.msb
  magnitude : ∀ i, i + 1 < w → r.getLsbD i = x.getLsbD i

variable {k : SignKind}
variable {x y r r' : BitVec w}

/- A word is its sign and its magnitude. -/
theorem eq_of_sign_magnitude
    (hSign : r.msb = r'.msb)
    (hMag : ∀ i, i + 1 < w → r.getLsbD i = r'.getLsbD i) :
    r = r' := by
  apply BitVec.eq_of_getLsbD_eq
  intro i hi
  by_cases hLast : i + 1 = w
  · have hTop : i = w - 1 := by omega
    rw [BitVec.msb_eq_getLsbD_last,
      BitVec.msb_eq_getLsbD_last] at hSign
    rw [hTop]
    exact hSign
  · exact hMag i (by omega)

namespace Injects

/- The result is determined. -/
theorem unique
    (h : Injects k x y r)
    (h' : Injects k x y r') :
    r = r' := by
  refine eq_of_sign_magnitude (h.sign.trans h'.sign.symm) ?_
  intro i hi
  exact (h.magnitude i hi).trans (h'.magnitude i hi).symm

/- Moving a number is copying its own sign. -/
theorem copy_self
    (h : Injects .copy x x r) :
    r = x :=
  eq_of_sign_magnitude h.sign h.magnitude

/- Negating twice gives the value back. -/
theorem negate_negate
    (h : Injects .negate x x r)
    (h' : Injects .negate r r r') :
    r' = x := by
  refine eq_of_sign_magnitude ?_ fun i hi => ?_
  · rw [h'.sign, SignKind.sign, h.sign, SignKind.sign,
      Bool.not_not]
  · rw [h'.magnitude i hi, h.magnitude i hi]

/- Clearing the sign twice is clearing it once. -/
theorem xor_xor
    (h : Injects .xor x x r)
    (h' : Injects .xor r r r') :
    r' = r := by
  refine eq_of_sign_magnitude ?_ fun i hi => ?_
  · rw [h'.sign, SignKind.sign, h.sign, SignKind.sign,
      Bool.xor_self, Bool.xor_self]
  · exact h'.magnitude i hi

end Injects

/- The mask has the topmost bit only. -/
theorem getLsbD_signMask
    (w i : Nat)
    (hi : i < w) :
    (signMask w).getLsbD i = decide (i + 1 = w) := by
  unfold signMask
  rw [BitVec.getLsbD_ofNat, decide_eq_true hi, Bool.true_and,
    Nat.testBit_two_pow]
  exact decide_eq_decide.mpr (by omega)

/- The sign is copied, and nothing else. -/
theorem getLsbD_copySign
    (x y : BitVec w)
    (i : Nat)
    (hi : i < w) :
    (copySign x y).getLsbD i =
      if i + 1 = w then y.getLsbD i else x.getLsbD i := by
  unfold copySign
  simp only [BitVec.getLsbD_or, BitVec.getLsbD_and,
    BitVec.getLsbD_not, getLsbD_signMask w i hi]
  split <;> simp [*]

/- The topmost bit is that of the other operand. -/
theorem msb_copySign
    (x y : BitVec w) :
    (copySign x y).msb = y.msb := by
  rcases Nat.eq_zero_or_pos w with rfl | hPos
  · rw [BitVec.of_length_zero (x := copySign x y),
      BitVec.of_length_zero (x := y)]
  · rw [BitVec.msb_eq_getLsbD_last,
      BitVec.msb_eq_getLsbD_last,
      getLsbD_copySign x y _ (by omega), if_pos (by omega)]

/- The host's negation flips it. -/
theorem msb_floatNeg
    (x : BitVec w)
    (hPos : 0 < w) :
    (floatNeg x).msb = !x.msb := by
  unfold floatNeg
  rw [BitVec.msb_xor, BitVec.msb_eq_getLsbD_last (signMask w),
    getLsbD_signMask w _ (by omega),
    decide_eq_true (by omega), Bool.xor_true]

/- Any copied sign leaves the magnitude. -/
theorem injects_copySign
    (hSign : y.msb = k.sign x.msb r.msb) :
    Injects k x r (copySign x y) where
  sign := (msb_copySign x y).trans hSign
  magnitude := fun i hi => by
    rw [getLsbD_copySign x y i (by omega), if_neg (by omega)]

/- Magnitudes are all bits but the topmost. -/
theorem floatMagnitude_eq_iff :
    floatMagnitude x = floatMagnitude y ↔
      ∀ i, i + 1 < w → x.getLsbD i = y.getLsbD i := by
  unfold floatMagnitude
  constructor
  · intro h i hi
    have hBit := congrArg (fun n => n.testBit i) h
    simp only [Nat.testBit_mod_two_pow] at hBit
    rw [decide_eq_true (show i < w - 1 by omega),
      Bool.true_and, Bool.true_and] at hBit
    exact hBit
  · intro h
    apply Nat.eq_of_testBit_eq
    intro i
    rw [Nat.testBit_mod_two_pow, Nat.testBit_mod_two_pow]
    by_cases hi : i < w - 1
    · have hBit := h i (by omega)
      rw [← BitVec.testBit_toNat, ← BitVec.testBit_toNat]
        at hBit
      rw [hBit]
    · rw [decide_eq_false hi, Bool.false_and, Bool.false_and]

/- Injections keep the magnitude. -/
theorem Injects.floatMagnitude_eq
    (h : Injects k x y r) :
    floatMagnitude r = floatMagnitude x :=
  floatMagnitude_eq_iff.mpr h.magnitude

end RiscvEm

------------------------------------------------------------
-- Sign Injection By The Host
------------------------------------------------------------

namespace RiscvEm

/-
  What the host's casts between `float` and `double` do: NaN
  stays NaN, and another number comes back unchanged.
-/
structure HostFloat.Casts
    (F : HostFloat) : Prop where
  nan : ∀ x, isNan 52 (F.widen x) = isNan 23 x
  narrow : ∀ r x, isNan 23 x = false →
    (F.narrow r (F.widen x)).1 = x

/- A single precision value survives its box. -/
@[simp] theorem f32In_f32Out
    (x : BitVec 32) :
    f32In (f32Out x) = x := by
  apply BitVec.eq_of_getLsbD_eq
  intro i hi
  unfold f32In f32Out
  simp [hi]

theorem f32Out_inj
    {x y : BitVec 32} :
    f32Out x = f32Out y ↔ x = y := by
  constructor
  · intro h
    rw [← f32In_f32Out x, h, f32In_f32Out]
  · intro h
    rw [h]

variable {σ : Type}

/- The instructions that inject a sign. -/
def signKind : Op → Option SignKind
  | .FSGNJ_S | .FSGNJ_D => some .copy
  | .FSGNJN_S | .FSGNJN_D => some .negate
  | .FSGNJX_S | .FSGNJX_D => some .xor
  | _ => none

def isSingleSign : Op → Bool
  | .FSGNJ_S | .FSGNJN_S | .FSGNJX_S => true
  | _ => false

/-
  The instruction writes what sign injection is to return,
  and nothing else changes, `fcsr` included.
-/
def SignExact
    (P : Platform σ)
    (op : Op)
    (k : SignKind)
    (d : InstructionData)
    (s : State σ) : Prop :=
  if isSingleSign op then
    ∃ r, Injects k (s.f32 d.rs1) (s.f32 d.rs2) r ∧
      op.exec P d s =
        .ok (.next 4, s.setFpr d.rd (f32Out r))
  else
    ∃ r, Injects k (s.fpr d.rs1) (s.fpr d.rs2) r ∧
      op.exec P d s = .ok (.next 4, s.setFpr d.rd r)

/-
  The two instructions that canonicalise do not see a NaN, or
  the canonical one is the result and its flag is set.
-/
def SignSafe
    (op : Op)
    (k : SignKind)
    (d : InstructionData)
    (s : State σ) : Prop :=
  op = .FSGNJ_S ∨ op = .FSGNJN_S →
    isNan 23 (s.f32 d.rs1) = false ∨
      (floatMagnitude (s.f32 d.rs1) = 0x7FC00000 ∧
        k.sign (s.f32 d.rs1).msb (s.f32 d.rs2).msb = false ∧
        s.hart.fcsr.fflags.getLsbD 4 = true)

/- What exact sign injection means for moves and the like. -/
structure SignLaws : Prop where
  move : ∀ w (x r : BitVec w), Injects .copy x x r → r = x
  negate : ∀ w (x r r' : BitVec w), Injects .negate x x r →
    Injects .negate r r r' → r' = x
  abs : ∀ w (x r r' : BitVec w), Injects .xor x x r →
    Injects .xor r r r' → r' = r

variable {P : Platform σ}
variable {op : Op}
variable {k : SignKind}
variable {d : InstructionData}
variable {s : State σ}

/- The sign decides no NaN. -/
theorem isNan_copySign
    {w m : Nat}
    (x y : BitVec w) :
    isNan m (copySign x y) = isNan m x := by
  have hInjects : Injects .copy x y (copySign x y) :=
    injects_copySign rfl
  unfold isNan
  rw [hInjects.floatMagnitude_eq]

/-
  Raising the invalid flag changes nothing exactly if it is
  set.
-/
theorem Fcsr.orFlags_eq_self_iff
    (f : Fcsr) :
    f.orFlags NV = f ↔ f.fflags.getLsbD 4 = true := by
  constructor
  · intro h
    rw [← h]
    unfold orFlags
    rw [fflags_setFflags, BitVec.getLsbD_or]
    exact Bool.or_true _
  · intro hSet
    have hFlags : f.fflags ||| NV = f.fflags := by
      revert hSet
      generalize f.fflags = flags
      revert flags
      decide
    unfold orFlags
    rw [hFlags, setFflags_fflags]

theorem orFlags_eq_self_iff :
    s.orFlags NV = s ↔
      s.hart.fcsr.fflags.getLsbD 4 = true := by
  rw [← Fcsr.orFlags_eq_self_iff]
  constructor
  · intro h
    exact congrArg (fun s => s.hart.fcsr) h
  · intro h
    change s.setFcsr (s.hart.fcsr.orFlags NV) = s
    rw [h]
    rfl

/- The canonical NaN under the sign that is asked for. -/
theorem injects_canonical_iff
    {x y : BitVec 32} :
    Injects k x y F32_NAN ↔
      floatMagnitude x = 0x7FC00000 ∧
        k.sign x.msb y.msb = false := by
  have hMag : floatMagnitude F32_NAN = 0x7FC00000 := by
    decide
  have hSign : F32_NAN.msb = false := by decide
  constructor
  · intro h
    refine ⟨?_, ?_⟩
    · rw [← h.floatMagnitude_eq, hMag]
    · rw [← h.sign, hSign]
  · rintro ⟨hMag', hSign'⟩
    refine ⟨hSign.trans hSign'.symm, ?_⟩
    exact floatMagnitude_eq_iff.mp (hMag.trans hMag'.symm)

/- Writes of a register agree if state and value do. -/
theorem setFpr_orFlags_iff
    {r : BitVec 5}
    {v v' : BitVec 64} :
    (s.orFlags NV).setFpr r v = s.setFpr r v' ↔
      s.orFlags NV = s ∧ v = v' := by
  constructor
  · intro h
    refine ⟨?_, ?_⟩
    · have hFcsr := congrArg (fun s => s.hart.fcsr) h
      change s.setFcsr _ = s
      rw [show (s.hart.fcsr.setFflags
        (s.hart.fcsr.fflags ||| NV)) = s.hart.fcsr
        from hFcsr]
      rfl
    · have hFpr := congrArg (fun s => s.fpr r) h
      simpa only [State.fpr, State.setFpr, State.setHart,
        Function.update_self] using hFpr
  · rintro ⟨hState, rfl⟩
    rw [hState]

/- A copied sign, canonicalised. -/
theorem setCast_copySign_iff
    (hCasts : P.float.Casts)
    {rd : BitVec 5}
    {x y z : BitVec 32}
    (hSign : y.msb = k.sign x.msb z.msb) :
    (∃ r, Injects k x z r ∧
      setCast P rd s (P.float.widen (copySign x y)) =
        s.setFpr rd (f32Out r)) ↔
      (isNan 23 x = false ∨
        (floatMagnitude x = 0x7FC00000 ∧
          k.sign x.msb z.msb = false ∧
          s.hart.fcsr.fflags.getLsbD 4 = true)) := by
  have hInjects : Injects k x z (copySign x y) :=
    injects_copySign hSign
  unfold setCast castFloat
  rw [hCasts.nan, isNan_copySign]
  cases hNan : isNan 23 x with
  | false =>
      refine iff_of_true ⟨_, hInjects, ?_⟩ (Or.inl rfl)
      rw [if_neg Bool.false_ne_true]
      dsimp only
      rw [hCasts.narrow _ _ ((isNan_copySign x y).trans hNan)]
  | true =>
      rw [if_pos rfl]
      dsimp only
      rw [← and_assoc, ← injects_canonical_iff,
        ← orFlags_eq_self_iff]
      constructor
      · rintro ⟨r, hRes, hEq⟩
        rcases setFpr_orFlags_iff.mp hEq with ⟨hState, hVal⟩
        rw [f32Out_inj.mp hVal]
        exact Or.inr ⟨hRes, hState⟩
      · rintro (hFalse | ⟨hRes, hState⟩)
        · cases hFalse
        · exact ⟨F32_NAN, hRes,
            setFpr_orFlags_iff.mpr ⟨hState, rfl⟩⟩

/- The masks of `FSGNJX` copy the sign of both. -/
theorem injects_masks
    {w : Nat}
    (x y : BitVec w) :
    Injects .xor x y ((x &&& ~~~signMask w) |||
      ((x ^^^ y) &&& signMask w)) :=
  injects_copySign (BitVec.msb_xor ..)

/-
  Sign injection is exact on every bit pattern, but for the
  NaNs that the single-precision forms canonicalise.
-/
theorem sign_injection_iff
    (P : Platform σ)
    (hCasts : P.float.Casts)
    (op : Op)
    (k : SignKind)
    (hKind : signKind op = some k)
    (d : InstructionData)
    (s : State σ) :
    (SignExact P op k d s ↔ SignSafe op k d s) ∧
      SignLaws := by
  refine ⟨?_, ⟨fun _ _ _ h => h.copy_self,
    fun _ _ _ _ h h' => h.negate_negate h',
    fun _ _ _ _ h h' => h.xor_xor h'⟩⟩
  unfold SignExact SignSafe
  have hOk : ∀ a b : State σ,
      (.ok (.next 4, a) :
        Except HostFault (ExecReturn × State σ)) =
          .ok (.next 4, b) ↔ a = b := by
    intro a b
    rw [Except.ok.injEq, Prod.mk.injEq, eq_self, true_and]
  have hOther : ∀ {p q : Prop}, p → (op ≠ .FSGNJ_S ∧
      op ≠ .FSGNJN_S) → (p ↔ (op = .FSGNJ_S ∨
        op = .FSGNJN_S → q)) := by
    rintro p q hExact ⟨hCopy, hNegate⟩
    refine iff_of_true hExact ?_
    rintro (hOp | hOp)
    · exact absurd hOp hCopy
    · exact absurd hOp hNegate
  cases op with
  | FSGNJ_S =>
      cases hKind
      have hSingle : isSingleSign .FSGNJ_S = true := rfl
      rw [if_pos hSingle, forall_prop_of_true (Or.inl rfl),
        ← setCast_copySign_iff hCasts rfl]
      exact exists_congr fun r => and_congr_right fun _ =>
        hOk _ _
  | FSGNJN_S =>
      cases hKind
      have hSingle : isSingleSign .FSGNJN_S = true := rfl
      rw [if_pos hSingle, forall_prop_of_true (Or.inr rfl),
        ← setCast_copySign_iff hCasts
          (msb_floatNeg (s.f32 d.rs2) (by decide))]
      exact exists_congr fun r => and_congr_right fun _ =>
        hOk _ _
  | FSGNJX_S =>
      cases hKind
      refine hOther ?_ ⟨nofun, nofun⟩
      exact ⟨_, injects_masks (s.f32 d.rs1) (s.f32 d.rs2), rfl⟩
  | FSGNJ_D =>
      cases hKind
      refine hOther ?_ ⟨nofun, nofun⟩
      exact ⟨_, injects_copySign rfl, rfl⟩
  | FSGNJN_D =>
      cases hKind
      refine hOther ?_ ⟨nofun, nofun⟩
      exact ⟨_, injects_copySign
        (msb_floatNeg (s.fpr d.rs2) (by decide)), rfl⟩
  | FSGNJX_D =>
      cases hKind
      refine hOther ?_ ⟨nofun, nofun⟩
      exact ⟨_, injects_masks (s.fpr d.rs1) (s.fpr d.rs2), rfl⟩
  | _ => cases hKind

/- Casts that are those of the host on zero, one and NaN. -/
def HostFloat.ofOne : HostFloat :=
  { HostFloat.unused with
    widen := fun x =>
      if isNan 23 x then
        F64_NAN
      else if x = 0x3F800000 then
        0x3FF0000000000000
      else
        x.setWidth 64
    narrow := fun _ x =>
      (if x = 0x3FF0000000000000 then
        0x3F800000
      else
        x.setWidth 32, 0) }

theorem HostFloat.ofOne_casts : HostFloat.ofOne.Casts := by
  have hSmall : ∀ x : BitVec 32,
      (x.setWidth 64).toNat = x.toNat := by
    intro x
    rw [BitVec.toNat_setWidth]
    exact Nat.mod_eq_of_lt (by omega)
  have hZext : ∀ x : BitVec 32,
      isNan 52 (x.setWidth 64) = false := by
    intro x
    unfold isNan floatMagnitude infMagnitude
    rw [hSmall, decide_eq_false]
    omega
  constructor
  · intro x
    simp only [ofOne]
    split
    case isTrue hNan =>
      rw [hNan]
      decide
    case isFalse hNan =>
      rw [Bool.not_eq_true] at hNan
      split
      case isTrue hOne =>
        rw [hOne]
        decide
      case isFalse => rw [hNan, hZext]
  · intro r x hNan
    have hNot : ¬ isNan 23 x = true := by
      rw [hNan]
      exact Bool.false_ne_true
    simp only [ofOne, if_neg hNot]
    by_cases hOne : x = 0x3F800000
    · rw [if_pos hOne, if_pos rfl, hOne]
    · have hNe : x.setWidth 64 ≠ 0x3FF0000000000000 := by
        intro hEq
        have hNat := congrArg BitVec.toNat hEq
        rw [hSmall] at hNat
        have hLt := x.isLt
        change x.toNat = 0x3FF0000000000000 at hNat
        omega
      rw [if_neg hOne, if_neg hNe,
        BitVec.setWidth_setWidth_of_le _ (by decide),
        BitVec.setWidth_eq]

def platformOfOne : Platform Unit :=
  { Platform.bare with float := .ofOne }

/- `fsgnj.s f1, f0, f0` on `1.0` moves it. -/
theorem sign_injection_one :
    let d : InstructionData := ⟨0x200000D3, 0, 0, 1, 0, 0, 0⟩
    let s := (State.boot []).setFpr 0 (f32Out 0x3F800000)
    SignExact platformOfOne .FSGNJ_S .copy d s := by
  intro d s
  refine (sign_injection_iff platformOfOne
    HostFloat.ofOne_casts .FSGNJ_S .copy rfl d s).1.mpr ?_
  exact fun _ => Or.inl (by decide)

/- `fsgnj.s f1, f0, f0` on a signalling NaN. -/
theorem sign_injection_snan :
    let d : InstructionData := ⟨0x200000D3, 0, 0, 1, 0, 0, 0⟩
    let s := (State.boot []).setFpr 0 (f32Out 0x7F800001)
    ¬ SignExact platformOfOne .FSGNJ_S .copy d s := by
  intro d s hExact
  rcases hExact with ⟨r, hRes, hEq⟩
  have hSafe := (setCast_copySign_iff (P := platformOfOne)
    HostFloat.ofOne_casts rfl).mp
      ⟨r, hRes, (Prod.mk.inj (Except.ok.inj hEq)).2⟩
  revert hSafe
  decide

end RiscvEm
