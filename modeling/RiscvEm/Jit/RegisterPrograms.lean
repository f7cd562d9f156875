import RiscvEm.Jit.BlockRefines

/-
  Straight-line programs of instructions on registers: the
  code of prologue, templates and epilogue, and the bodies of
  the instructions, one after the other.

  The frames copy the other operand of `x0`, or the source
  next to a zero immediate, and a comparison with `x0` clears
  `RDI`, which may hold a guest register. An instruction is
  compiled well where neither shows.

  Key definitions include:
    * `RegisterInst`
    * `blockCode`
    * `execAll`
    * `StepOk`
    * `StepsOk`

  Key theorems include `StepsOk.arrived`.
-/

------------------------------------------------------------
-- Programs
------------------------------------------------------------

namespace RiscvEm

open JitEmitter

variable {σ : Type}

/- An instruction on registers, as it was decoded. -/
structure RegisterInst where
  op : Op
  data : InstructionData
  registers : (rValue op).isSome = true ∨
    ((iValue op).isSome = true ∧
      data.imm = immOf op data.inst)

/- The templates of a list of instructions, in order. -/
def emitAll
    (slow : SlowFuncs) :
    List RegisterInst → JitEmitter × JitBlock →
      Option (JitEmitter × JitBlock)
  | [], c => some c
  | i :: rest, (em, blk) => do
      let template ← conversionTbl slow i.op
      emitAll slow rest (← (template i.data em blk).toOption)

/- A reset emitter, with the prologue in the block. -/
def emitStart : JitEmitter × JitBlock :=
  (.reset, rvjitEmitPrologue .empty)

/- The code of a block that ends after these instructions. -/
def blockCode
    (slow : SlowFuncs)
    (prog : List RegisterInst) : Option Code :=
  (emitAll slow prog emitStart).map fun (em, blk) =>
    (em.rvjitEmitEpilogue blk).bytes

/- The bodies in order. Each tick clears `x0` first. -/
def execAll
    (P : Platform σ) :
    List RegisterInst → State σ → Except HostFault (State σ)
  | [], s => .ok s
  | i :: rest, s => do
      let (_, s) ← i.op.exec P i.data (s.setGpr 0 0)
      execAll P rest s

/- The block leaves the registers as the interpreter does. -/
def BlockEquals
    (P : Platform σ)
    (prog : List RegisterInst)
    (s : State σ) : Prop :=
  ∃ code s' u, blockCode P.host.slow prog = some code ∧
    runBlock P code s = .ok s' ∧ execAll P prog s = .ok u ∧
    ∀ r, r ≠ 0 → s'.gpr r = u.gpr r

/-
  Where the shortcut of the frame gives the result. Of two
  operands that are zero each result is zero.
-/
def ShortcutOk
    (i : RegisterInst)
    (t : State σ) : Prop :=
  let d := i.data
  let a := t.gpr d.rs1
  let b := t.gpr d.rs2
  match i.op with
  | .SUB => d.rs1 = 0 → b + b = 0
  | .ADDW =>
      (d.rs1 = 0 → sextW b = b) ∧ (d.rs2 = 0 → sextW a = a)
  | .SUBW =>
      (d.rs1 = 0 → sextW (-b) = b) ∧
        (d.rs2 = 0 → sextW a = a)
  | .SLL | .SRL | .SRA => d.rs1 = 0 → b = 0
  | .SLLW | .SRLW | .SRAW =>
      (d.rs1 = 0 → b = 0) ∧ (d.rs2 = 0 → sextW a = a)
  | .ADDIW => d.imm = 0 → sextW a = a
  | .SLLI | .SRLI | .SRAI => d.rs1 = 0 → d.imm = 0
  | .SLLIW | .SRLIW | .SRAIW =>
      (d.rs1 = 0 → d.imm = 0) ∧ (d.imm = 0 → sextW a = a)
  | _ => True

/- `RDI` is the fourth of the eight host registers. -/
theorem rdi_lt : 3 < 8 := by
  decide

/- The guest register that `RDI` holds. -/
def JitEmitter.inRdi
    (em : JitEmitter) : Option (BitVec 5) :=
  em.slot ⟨3, rdi_lt⟩

/-
  Where a comparison with `x0` may clear `RDI`: the register
  that it holds is zero, or it is the destination, and if
  that is a source, the comparison is false.
-/
def ComparisonOk
    (i : RegisterInst)
    (em : JitEmitter)
    (t : State σ) : Prop :=
  let d := i.data
  let a := t.gpr d.rs1
  let b := t.gpr d.rs2
  match em.inRdi with
  | none => True
  | some q =>
      match i.op with
      | .SLT => (d.rs1 = 0 ∨ d.rs2 = 0) → t.gpr q = 0 ∨
          (q = d.rd ∧ (q = d.rs1 ∨ q = d.rs2 →
            a.slt b = false))
      | .SLTU => (d.rs1 = 0 ∨ d.rs2 = 0) → t.gpr q = 0 ∨
          (q = d.rd ∧ (q = d.rs1 ∨ q = d.rs2 → ¬ a < b))
      | .SLTI | .SLTIU => d.rs1 = 0 → t.gpr q = 0 ∨ q = d.rd
      | _ => True

/-
  An instruction is compiled well, in the state before it,
  with the emitter behind it.
-/
def StepOk
    (i : RegisterInst)
    (em : JitEmitter)
    (t : State σ) : Prop :=
  i.data.rd = 0 ∨ (ShortcutOk i t ∧ ComparisonOk i em t)

/-
  Its code leaves another value than the instruction in a
  register that the block writes back.
-/
def StepShows
    (i : RegisterInst)
    (em : JitEmitter)
    (t : State σ) : Prop :=
  i.data.rd ≠ 0 ∧
    (¬ ShortcutOk i t ∨
      (¬ ComparisonOk i em t ∧
        ∀ q, em.inRdi = some q →
          (em.vregs q).dirty = true))

/- The instruction behind these meets a condition. -/
def NextMeets
    (P : Platform σ)
    (ok : RegisterInst → JitEmitter → State σ → Prop)
    (done : List RegisterInst)
    (i : RegisterInst)
    (s : State σ) : Prop :=
  ∃ em blk t,
    emitAll P.host.slow (done ++ [i]) emitStart =
        some (em, blk) ∧
      execAll P done s = .ok t ∧
      ok i em (t.setGpr 0 0)

/- Every instruction is compiled well where it stands. -/
def StepsOk
    (P : Platform σ)
    (prog : List RegisterInst)
    (s : State σ) : Prop :=
  ∀ done i, done ++ [i] <+: prog →
    NextMeets P StepOk done i s

instance
    (i : RegisterInst)
    (t : State σ) :
    Decidable (ShortcutOk i t) := by
  unfold ShortcutOk
  split <;> infer_instance

instance
    (i : RegisterInst)
    (em : JitEmitter)
    (t : State σ) :
    Decidable (ComparisonOk i em t) := by
  unfold ComparisonOk
  split
  · infer_instance
  · split <;> infer_instance

instance
    (i : RegisterInst)
    (em : JitEmitter)
    (t : State σ) :
    Decidable (StepOk i em t) :=
  inferInstanceAs (Decidable (_ ∨ _))

instance
    (i : RegisterInst)
    (em : JitEmitter)
    (t : State σ) :
    Decidable (StepShows i em t) :=
  inferInstanceAs (Decidable (_ ∧ (_ ∨ (_ ∧
    ∀ q, em.inRdi = some q → (em.vregs q).dirty = true))))

/- Whether the next one does, by emitting and executing. -/
instance
    (P : Platform σ)
    (ok : RegisterInst → JitEmitter → State σ → Prop)
    [∀ i em t, Decidable (ok i em t)]
    (done : List RegisterInst)
    (i : RegisterInst)
    (s : State σ) :
    Decidable (NextMeets P ok done i s) :=
  match hEmit : emitAll P.host.slow (done ++ [i]) emitStart,
      hExec : execAll P done s with
  | some (em, blk), .ok t =>
      decidable_of_iff (ok i em (t.setGpr 0 0))
        ⟨fun h => ⟨em, blk, t, hEmit, hExec, h⟩, by
          rintro ⟨em', blk', t', hEmit', hExec', h⟩
          cases hEmit.symm.trans hEmit'
          cases hExec.symm.trans hExec'
          exact h⟩
  | none, _ => .isFalse (by
      rintro ⟨em', blk', t', hEmit', -⟩
      cases hEmit.symm.trans hEmit')
  | some _, .error _ => .isFalse (by
      rintro ⟨em', blk', t', -, hExec', -⟩
      cases hExec.symm.trans hExec')

/- Whether all do, one position after the other. -/
instance
    (P : Platform σ)
    (prog : List RegisterInst)
    (s : State σ) :
    Decidable (StepsOk P prog s) :=
  decidable_of_iff
    (∀ n : Fin prog.length,
      NextMeets P StepOk (prog.take n) (prog.get n) s) <| by
    constructor
    · rintro h done i ⟨rest, rfl⟩
      have hHere := h ⟨done.length, by simp⟩
      simp only [List.append_assoc, List.take_left,
        List.get_eq_getElem, List.singleton_append,
        List.getElem_append_right (le_refl _),
        Nat.sub_self, List.getElem_cons_zero] at hHere
      exact hHere
    · intro h n
      apply h
      rw [List.get_eq_getElem, List.take_append_getElem]
      exact List.take_prefix _ _

end RiscvEm

------------------------------------------------------------
-- One Instruction
------------------------------------------------------------

namespace RiscvEm

open JitEmitter

variable {σ : Type}
variable {P : Platform σ}
variable {s t u : State σ}
variable {m : X86.Machine (State σ)}
variable {em em' : JitEmitter}
variable {blk blk' : JitBlock}
variable {i : RegisterInst}
variable {f : BitVec 64 → BitVec 64 → BitVec 64}

/- The two kinds of instructions on registers. -/
theorem RegisterInst.kind
    (i : RegisterInst) :
    (∃ f, rValue i.op = some f) ∨
      ∃ optimize f, iValue i.op = some (optimize, f) ∧
        i.data.imm = immOf i.op i.data.inst := by
  rcases i.registers with hValue | ⟨hValue, hImm⟩
  · rcases Option.isSome_iff_exists.mp hValue with ⟨f, hf⟩
    exact Or.inl ⟨f, hf⟩
  · rcases Option.isSome_iff_exists.mp hValue with
      ⟨⟨optimize, f⟩, hf⟩
    exact Or.inr ⟨optimize, f, hf, hImm⟩

/- Zero may be shifted. -/
theorem shift_of_zero
    {w : Nat}
    (n : BitVec 64) :
    shl (0 : BitVec w) n = 0 ∧ shr (0 : BitVec w) n = 0 ∧
      sar (0 : BitVec w) n = 0 := by
  refine ⟨?_, ?_, ?_⟩
  · exact BitVec.zero_shiftLeft _
  · exact BitVec.zero_ushiftRight
  · exact BitVec.zero_sshiftRight

/- Nothing is shifted by zero. -/
theorem shift_by_zero
    {w : Nat}
    (x : BitVec w) :
    shl x 0 = x ∧ shr x 0 = x ∧ sar x 0 = x := by
  have hNone : (0 : BitVec 64).toNat % w = 0 := Nat.zero_mod w
  unfold shl shr sar
  rw [hNone]
  exact ⟨BitVec.shiftLeft_zero x, BitVec.ushiftRight_zero x,
    BitVec.sshiftRight_zero⟩

/- The shortcuts of two registers, by their results. -/
theorem shortcutOk_r
    (hValue : rValue i.op = some f) :
    ShortcutOk i t ↔
      (copiesOperand i.op = true → i.data.rs1 = 0 →
        f 0 (t.gpr i.data.rs2) = t.gpr i.data.rs2) ∧
      (copiesOperand i.op = true → i.data.rs2 = 0 →
        f (t.gpr i.data.rs1) 0 = t.gpr i.data.rs1) := by
  rcases i with ⟨op, d, hRegisters⟩
  have hNeg : ∀ b : BitVec 64, b + b = 0 ↔ -b = b := by
    intro b
    constructor <;> intro h <;> bv_omega
  have hZero := fun w n => shift_of_zero (w := w) n
  have hNone := fun w x => shift_by_zero (w := w) x
  simp only [BitVec.ofNat_eq_ofNat] at hZero hNone hNeg
  unfold ShortcutOk
  cases op <;> cases hValue
  all_goals simp [copiesOperand, hNeg, hZero, hNone, sextW,
    @eq_comm _ 0#64]

/- The shortcuts of an immediate, by their results. -/
theorem shortcutOk_i
    {optimize : Bool}
    (hValue : iValue i.op = some (optimize, f))
    (hImm : imm32 i.data.imm = i.data.imm) :
    ShortcutOk i t ↔
      (optimize = true → i.data.rs1 = 0 →
        f 0 i.data.imm = i.data.imm) ∧
      (optimize = true → i.data.imm = 0 →
        f (t.gpr i.data.rs1) 0 = t.gpr i.data.rs1) := by
  rcases i with ⟨op, d, hRegisters⟩
  have hZero := fun w n => shift_of_zero (w := w) n
  have hNone := fun w x => shift_by_zero (w := w) x
  have hClear : imm32 0 = 0 := rfl
  have hWide : (d.imm.setWidth 32).signExtend 64 = d.imm :=
    hImm
  simp only [BitVec.ofNat_eq_ofNat] at hZero hNone hClear
  unfold ShortcutOk
  cases op <;> cases hValue
  all_goals dsimp only at hImm
  all_goals simp [hZero, hNone, hImm, hClear, hWide, sextW,
    @eq_comm _ 0#64]

/- `RDI` by its slot. -/
theorem inRdi_eq
    (em : JitEmitter) :
    em.inRdi = em.slot ⟨3, by decide⟩ :=
  rfl

/- The condition on `RDI`, for a comparison of registers. -/
theorem comparisonOk_r
    (hValue : rValue i.op = some f)
    (hKind : compares i.op = true)
    (hAny : i.data.rs1 = 0 ∨ i.data.rs2 = 0) :
    ComparisonOk i em t ↔
      em.Clears t i.data.rd [i.data.rs1, i.data.rs2]
        (f (t.gpr i.data.rs1) (t.gpr i.data.rs2)) := by
  rcases i with ⟨op, d, hRegisters⟩
  have hFalse : ∀ p [Decidable p], ofCond p = 0 ↔ ¬ p := by
    intro p _
    unfold ofCond
    by_cases hp : p
    · simp [hp]
    · simp [hp]
  unfold ComparisonOk Clears
  rw [inRdi_eq]
  cases op <;> cases hValue
  case SLT =>
    cases em.slot ⟨3, by decide⟩ with
    | none => exact iff_of_true trivial nofun
    | some q =>
        simp only [Option.some.injEq, forall_eq', hFalse,
          List.mem_cons, List.not_mem_nil, or_false,
          Bool.not_eq_true]
        exact forall_prop_of_true hAny
  case SLTU =>
    cases em.slot ⟨3, by decide⟩ with
    | none => exact iff_of_true trivial nofun
    | some q =>
        simp only [Option.some.injEq, forall_eq', hFalse,
          List.mem_cons, List.not_mem_nil, or_false]
        exact forall_prop_of_true hAny
  all_goals cases hKind

/- The condition on `RDI`, for one with an immediate. -/
theorem comparisonOk_i
    {optimize : Bool}
    (hValue : iValue i.op = some (optimize, f))
    (hKind : compares i.op = true)
    (hRd : i.data.rd ≠ 0)
    (hRs1 : i.data.rs1 = 0) :
    ComparisonOk i em t ↔
      em.Clears t i.data.rd [i.data.rs1]
        (f (t.gpr i.data.rs1) i.data.imm) := by
  rcases i with ⟨op, d, hRegisters⟩
  have hNot : ∀ q, q = d.rd → q ≠ d.rs1 := by
    rintro q rfl hEq
    exact hRd (hEq.trans hRs1)
  unfold ComparisonOk Clears
  rw [inRdi_eq]
  cases op <;> cases hValue
  case SLTI | SLTIU =>
    cases em.slot ⟨3, by decide⟩ with
    | none => exact iff_of_true trivial nofun
    | some q =>
        simp only [Option.some.injEq, forall_eq',
          List.mem_singleton]
        refine (forall_prop_of_true hRs1).trans
          (or_congr_right ⟨fun hq => ⟨hq, fun hEq => ?_⟩,
            And.left⟩)
        exact absurd hEq (hNot q hq)
  all_goals cases hKind

/- The condition is about the registers only. -/
theorem StepOk.congr
    (h : StepOk i em u)
    (hValues : ∀ r, u.gpr r = t.gpr r) :
    StepOk i em t := by
  unfold StepOk ShortcutOk ComparisonOk at h ⊢
  simp only [hValues] at h
  exact h

/- So is the one for what shows. -/
theorem StepShows.congr
    (h : StepShows i em u)
    (hValues : ∀ r, u.gpr r = t.gpr r) :
    StepShows i em t := by
  unfold StepShows ShortcutOk ComparisonOk at h ⊢
  simp only [hValues] at h
  exact h

/- A template of the list is emitted. -/
theorem emitAll_one
    {slow : SlowFuncs}
    {c c' : JitEmitter × JitBlock}
    (h : emitAll slow [i] c = some c') :
    ∃ template, conversionTbl slow i.op = some template ∧
      template i.data c.1 c.2 = .ok c' := by
  unfold emitAll at h
  rcases Option.bind_eq_some_iff.mp h with
    ⟨template, hEntry, hRest⟩
  rcases Option.bind_eq_some_iff.mp hRest with
    ⟨c₁, hEmit, hEnd⟩
  cases hEnd
  refine ⟨template, hEntry, ?_⟩
  cases hEq : template i.data c.1 c.2 with
  | ok c₂ =>
      rw [hEq] at hEmit
      cases hEmit
      rfl
  | error e =>
      rw [hEq] at hEmit
      cases hEmit

/- A body of the list is executed. -/
theorem execAll_one
    (h : execAll P [i] u = .ok t) :
    ∃ out, i.op.exec P i.data (u.setGpr 0 0) =
      .ok (out, t) := by
  unfold execAll at h
  rcases bind_eq_ok.mp h with ⟨⟨out, u'⟩, hExec, hEnd⟩
  cases hEnd
  exact ⟨out, hExec⟩

/- An instruction on `x0` does nothing, and has no code. -/
theorem RegisterInst.ignored
    {template : JitTemplate}
    {out : ExecReturn}
    (hRd : i.data.rd = 0)
    (hEntry : conversionTbl P.host.slow i.op = some template)
    (hEmit : template i.data em blk = .ok (em', blk'))
    (hExec : i.op.exec P i.data u = .ok (out, t)) :
    em' = em ∧ blk' = blk ∧ ∃ v, t = u.setGpr 0 v := by
  have hNone : ∀ hKind : storeParts i.op = none,
      em' = em ∧ blk' = blk :=
    fun hKind => emits_nothing
      (e := ⟨i.op, i.data, em, blk⟩) hKind hRd hEntry hEmit
  rcases i.kind with ⟨f, hValue⟩ | ⟨optimize, f, hValue, hImm⟩
  · rcases hNone (storeParts_of_r hValue) with ⟨hEm, hBlk⟩
    rw [rValue_exec hValue] at hExec
    cases hExec
    exact ⟨hEm, hBlk, _, by rw [hRd]⟩
  · rcases hNone (storeParts_of_i hValue) with ⟨hEm, hBlk⟩
    rw [iValue_exec hValue P i.data hImm] at hExec
    cases hExec
    exact ⟨hEm, hBlk, _, by rw [hRd]⟩

/- The code of an instruction that is compiled well. -/
theorem Arrived.registers
    {u' : State σ}
    (h : Arrived P s t em blk m)
    (hZero : t.gpr 0 = 0)
    (hSame : SameGuest t u)
    (hEmit : emitAll P.host.slow [i] (em, blk) =
      some (em', blk'))
    (hExec : execAll P [i] u = .ok u')
    (hOk : StepOk i em' (u.setGpr 0 0)) :
    ∃ t' m', Arrived P s t' em' blk' m' ∧ t'.gpr 0 = 0 ∧
      SameGuest t' u' := by
  have hValues := hSame.values hZero
  have hZeroed := hSame.zeroed
  rcases emitAll_one hEmit with ⟨template, hEntry, hOne⟩
  rcases execAll_one hExec with ⟨out, hBody⟩
  by_cases hRd : i.data.rd = 0
  · rcases i.ignored hRd hEntry hOne hBody with
      ⟨rfl, rfl, v, rfl⟩
    exact ⟨t, m, h, hZero, hZeroed.setZero v⟩
  · rcases (hOk.congr hValues).resolve_left hRd with
      ⟨hShortcut, hComparison⟩
    have hSet : ∀ v, (t.setGpr i.data.rd v).gpr 0 = 0 := by
      intro v
      exact (Function.update_of_ne (Ne.symm hRd) v
        t.hart.GPR).trans hZero
    rcases i.kind with ⟨f, hValue⟩ | ⟨optimize, f, hValue, hImm⟩
    · rw [rValue_exec hValue] at hBody
      cases hBody
      rcases (shortcutOk_r hValue).mp hShortcut with
        ⟨hFirst, hSecond⟩
      rcases Arrived.rType (e := ⟨i.op, i.data, em, blk⟩) h
        hZero hRd hValue hFirst hSecond
        (fun hKind hAny em₁ blk₁ hGrants hEq => by
          rw [comparisonOk_r hValue hKind hAny, hEq]
            at hComparison
          exact hComparison) hEntry hOne with ⟨m', hArrived⟩
      simp only [hValues]
      exact ⟨_, m', hArrived, hSet _, hZeroed.setGpr _ _⟩
    · rw [iValue_exec hValue P i.data hImm] at hBody
      cases hBody
      have hWide : imm32 i.data.imm = i.data.imm := by
        rw [hImm]
        exact imm32_immOf i.op i.data.inst
      rcases (shortcutOk_i hValue hWide).mp hShortcut with
        ⟨hFirst, hSecond⟩
      rcases Arrived.iType (e := ⟨i.op, i.data, em, blk⟩) h
        hZero hRd hValue hWide hFirst hSecond
        (fun hKind hRs1 em₁ blk₁ hGrants hEq => by
          rw [comparisonOk_i hValue hKind hRd hRs1, hEq]
            at hComparison
          exact hComparison) hEntry hOne with ⟨m', hArrived⟩
      simp only [hValues]
      exact ⟨_, m', hArrived, hSet _, hZeroed.setGpr _ _⟩

end RiscvEm

------------------------------------------------------------
-- Whole Programs
------------------------------------------------------------

namespace RiscvEm

open JitEmitter

variable {σ : Type}
variable {P : Platform σ}
variable {s t u : State σ}
variable {em em' : JitEmitter}
variable {blk blk' : JitBlock}
variable {c : JitEmitter × JitBlock}
variable {i : RegisterInst}
variable {prog rest : List RegisterInst}
variable {slow : SlowFuncs}

/- Templates are emitted one after the other. -/
theorem emitAll_append
    (slow : SlowFuncs)
    (prog rest : List RegisterInst)
    (c : JitEmitter × JitBlock) :
    emitAll slow (prog ++ rest) c =
      (emitAll slow prog c).bind (emitAll slow rest) := by
  induction prog generalizing c with
  | nil => rfl
  | cons i prog ih =>
      simp only [List.cons_append, emitAll,
        Option.bind_eq_bind, Option.bind_assoc, ih]

/- Bodies are executed one after the other. -/
theorem execAll_append
    (prog rest : List RegisterInst)
    (s : State σ) :
    execAll P (prog ++ rest) s =
      (execAll P prog s).bind (execAll P rest) := by
  induction prog generalizing s with
  | nil => rfl
  | cons i prog ih =>
      rw [List.cons_append]
      unfold execAll
      cases hExec : i.op.exec P i.data (s.setGpr 0 0) with
      | error e => rfl
      | ok out => exact ih out.2

/- No body of these faults. -/
theorem RegisterInst.executes
    (i : RegisterInst)
    (u : State σ) :
    ∃ u', execAll P [i] u = .ok u' := by
  unfold execAll
  rcases i.kind with ⟨f, hValue⟩ | ⟨optimize, f, hValue, hImm⟩
  · rw [rValue_exec hValue]
    exact ⟨_, rfl⟩
  · rw [iValue_exec hValue P i.data hImm]
    exact ⟨_, rfl⟩

/- The templates of a list are emissions. -/
theorem emitAll_emitted
    {es : List Emission}
    (hBefore : Emitted slow es c.1 c.2)
    (h : emitAll slow prog c = some (em', blk')) :
    ∃ es', es'.length = es.length + prog.length ∧
      Emitted slow es' em' blk' := by
  induction prog generalizing es c with
  | nil =>
      cases h
      exact ⟨es, rfl, hBefore⟩
  | cons i prog ih =>
      rw [← List.singleton_append, emitAll_append] at h
      rcases Option.bind_eq_some_iff.mp h with
        ⟨c₁, hFirst, hRest⟩
      rcases emitAll_one hFirst with ⟨template, hEntry, hEmit⟩
      rcases ih (.instr hBefore hEntry hEmit) hRest with
        ⟨es', hLength, hEmitted⟩
      refine ⟨es', ?_, hEmitted⟩
      rw [hLength, List.length_append, List.length_singleton,
        List.length_cons]
      omega

/- Good programs grow at their ends. -/
theorem StepsOk.concat
    (h : StepsOk P (prog ++ [i]) s) :
    StepsOk P prog s ∧ NextMeets P StepOk prog i s :=
  ⟨fun done j hDone =>
      h done j (hDone.trans (List.prefix_append prog [i])),
    h prog i (List.prefix_refl _)⟩

/- Their code leads where the bodies lead. -/
theorem StepsOk.arrived
    (h : StepsOk P prog s)
    (hZero : s.gpr 0 = 0) :
    ∃ em blk u t m,
      emitAll P.host.slow prog emitStart = some (em, blk) ∧
        execAll P prog s = .ok u ∧
        Arrived P s t em blk m ∧ t.gpr 0 = 0 ∧
        SameGuest t u := by
  induction prog using List.reverseRecOn with
  | nil =>
      have hBytes : JitBlock.empty.bytes = [] := rfl
      rcases arrived_prologue P s hBytes rfl with
        ⟨m, hArrived⟩
      exact ⟨_, _, s, s, m, rfl, rfl, hArrived, hZero,
        fun _ _ => rfl, rfl, rfl, rfl⟩
  | append_singleton prog i ih =>
      rcases h.concat with ⟨hInit, hNext⟩
      rcases ih hInit with
        ⟨em, blk, u, t, m, hEmit, hExec, hArrived, hStill,
          hSame⟩
      rcases hNext with
        ⟨em', blk', u₀, hEmit', hExec', hOk⟩
      cases hExec.symm.trans hExec'
      rw [emitAll_append, hEmit] at hEmit'
      rcases i.executes (P := P) u with ⟨u', hLast⟩
      rcases hArrived.registers hStill hSame hEmit' hLast hOk
        with ⟨t', m', hArrived', hStill', hSame'⟩
      refine ⟨em', blk', u', t', m', ?_, ?_, hArrived',
        hStill', hSame'⟩
      · rw [emitAll_append, hEmit]
        exact hEmit'
      · rw [execAll_append, hExec]
        exact hLast

/- The block of what was emitted so. -/
theorem Arrived.blockCode
    {m : X86.Machine (State σ)}
    (h : Arrived P s t em blk m)
    (hMost : prog.length ≤ RVJIT_MAX_INSTRUCTIONS)
    (hEmit : emitAll P.host.slow prog emitStart =
      some (em, blk)) :
    blockCode P.host.slow prog =
        some (em.rvjitEmitEpilogue blk).bytes ∧
      runBlock P (em.rvjitEmitEpilogue blk).bytes s =
        .ok t := by
  constructor
  · unfold RiscvEm.blockCode
    rw [hEmit]
    rfl
  · have hBytes : JitBlock.empty.bytes = [] := rfl
    rcases emitAll_emitted (.prologue hBytes rfl) hEmit with
      ⟨es, hLength, hEmitted⟩
    apply h.block hEmitted.bytes.2.2
    rw [hLength, List.length_nil, Nat.zero_add]
    exact hMost

end RiscvEm
