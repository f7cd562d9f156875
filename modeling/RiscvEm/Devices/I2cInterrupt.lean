import RiscvEm.Devices.I2c
import RiscvEm.Devices.PlicRuns

/-
  The interrupt of the I2C controller: when a completed command
  is signalled, and when the latched line agrees with `IF`.

  Writing a command clears `IF` but leaves the line raised, so
  a command without `IACK` that finds it raised signals
  nothing.

  Key definitions include:
    * `I2cLine.command`
    * `I2cLine.Access`
    * `I2cStep.Signalled`
    * `I2cStep.Acknowledged`

  Key theorems include `i2c_completion_signalled_iff`.
-/

------------------------------------------------------------
-- The Line
------------------------------------------------------------

namespace RiscvEm

namespace I2cLine

def raise
    (l : I2cLine) : I2cLine :=
  if l.irqEnabled = true ∧ l.intLine = false then
    { l with intLine := true, levels := true :: l.levels }
  else
    l

def lower
    (l : I2cLine) : I2cLine :=
  if l.intLine = true then
    { l with intLine := false, levels := false :: l.levels }
  else
    l

/- What `IACK` does. -/
def acknowledge
    (l : I2cLine)
    (cr : I2cCr) : I2cLine :=
  if cr.iack = true then
    { l with irqFlag := false }.lower
  else
    l

/- What the end of a transfer does. -/
def complete
    (l : I2cLine)
    (cr : I2cCr) : I2cLine :=
  if cr.transfers = true then
    { l with irqFlag := true }.raise
  else
    l

/- What an executed command does. -/
def command
    (l : I2cLine)
    (cr : I2cCr) : I2cLine :=
  { (l.acknowledge cr).complete cr with opActive := false }

/- What else can happen to the line. -/
inductive Access
    (l : I2cLine) : I2cLine → Prop
  | enable (irqEnabled : Bool) :
      Access l { l with irqEnabled := irqEnabled }
  | disable (irqEnabled : Bool) :
      Access l { l with
        irqEnabled := irqEnabled, irqFlag := false }.lower
  | ask :
      Access l { l with irqFlag := false, opActive := true }

/- Nothing done is an access. -/
theorem Access.refl
    (l : I2cLine) :
    Access l l :=
  .enable l.irqEnabled

end I2cLine

end RiscvEm

------------------------------------------------------------
-- The Line Of The Controller
------------------------------------------------------------

namespace RiscvEm

variable {cfg : PlicConfig}
variable {σ : Type}

namespace I2cWorld

variable {w w' : I2cWorld cfg σ}

/- Raising the interrupt raises the line. -/
theorem raiseInterrupt_line
    (h : w.raiseInterrupt = .ok w') :
    w'.line = w.line.raise := by
  unfold raiseInterrupt at h
  unfold I2cLine.raise
  split at h
  case isTrue hRaise =>
    rcases setPending_cases h with ⟨plic, rfl⟩
    exact (if_pos hRaise).symm
  case isFalse hKeep =>
    cases h
    exact (if_neg hKeep).symm

/- Lowering the interrupt lowers the line. -/
theorem lowerInterrupt_line
    (h : w.lowerInterrupt = .ok w') :
    w'.line = w.line.lower := by
  unfold lowerInterrupt at h
  unfold I2cLine.lower
  split at h
  case isTrue hLower =>
    rcases setPending_cases h with ⟨plic, rfl⟩
    exact (if_pos hLower).symm
  case isFalse hKeep =>
    cases h
    exact (if_neg hKeep).symm

/- A command acknowledges on the line. -/
theorem acknowledge_line
    (h : w.acknowledge = .ok w') :
    w'.line = w.line.acknowledge w.i2c.cr := by
  unfold acknowledge at h
  unfold I2cLine.acknowledge
  split at h
  case isTrue hIack =>
    rcases bind_eq_ok.mp h with ⟨w₁, hLower, hEq⟩
    cases hEq
    exact (lowerInterrupt_line hLower).trans
      (if_pos hIack).symm
  case isFalse hIack =>
    cases h
    exact (if_neg hIack).symm

/- Clearing `IACK` leaves the rest of the command. -/
theorem acknowledge_asks
    (h : w.acknowledge = .ok w') :
    w'.i2c.cr.transfers = w.i2c.cr.transfers ∧
      w'.i2c.cr.asks = w.i2c.cr.asks := by
  rcases acknowledge_cases h with ⟨_, _, _, _, _, rfl⟩
  exact ⟨rfl, rfl⟩

/- A command completes on the line. -/
theorem complete_line
    (h : w.complete = .ok w') :
    w'.line = w.line.complete w.i2c.cr := by
  unfold complete at h
  unfold I2cLine.complete
  split at h
  case isTrue hTransfers =>
    exact (raiseInterrupt_line h).trans (if_pos hTransfers).symm
  case isFalse hQuiet =>
    cases h
    exact (if_neg hQuiet).symm

/- A command acknowledges first and completes after that. -/
theorem executeCommand_line
    (h : w.executeCommand = .ok w') :
    w'.line =
      (w.line.acknowledge w.i2c.cr).complete w.i2c.cr := by
  rcases bind_eq_ok.mp h with ⟨w₁, hAck, hRest⟩
  rcases acknowledge_asks hAck with ⟨hTransfers, hAsks⟩
  rw [← acknowledge_line hAck]
  split at hRest
  case isTrue =>
    rcases bind_eq_ok.mp hRest with ⟨w₂, hWrite, hRest⟩
    rcases bind_eq_ok.mp hRest with ⟨w₃, hRead, hRest⟩
    rcases bind_eq_ok.mp hRest with ⟨w₄, hStop, hComplete⟩
    have hBus := ((startPhase_onBus.trans
      (writePhase_onBus hWrite)).trans
      (readPhase_onBus hRead)).trans (stopPhase_onBus hStop)
    have hSame := congrArg I2cCr.transfers hBus.cr
    rw [complete_line hComplete, hBus.line]
    unfold I2cLine.complete
    rw [hSame.trans hTransfers]
  case isFalse hNothing =>
    cases hRest
    -- a command that asks for nothing transfers nothing
    have hQuiet : ¬ w.i2c.cr.transfers = true := by
      rw [hAsks] at hNothing
      simp only [I2cCr.asks, Bool.or_eq_true, not_or]
        at hNothing
      simp only [I2cCr.transfers, Bool.or_eq_true, not_or]
      exact ⟨⟨hNothing.2, hNothing.1.2⟩, hNothing.1.1.2⟩
    exact (if_neg hQuiet).symm

/- Writes are accesses to the line. -/
theorem write_access
    {addr value : BitVec 64}
    (h : w.write addr value = .ok w') :
    w.line.Access w'.line := by
  unfold write at h
  dsimp only at h
  split at h
  case isTrue =>
    cases h
    exact .refl _
  case isFalse =>
    split at h
    case isTrue =>
      cases h
      exact .refl _
    case isFalse =>
      split at h
      case isTrue =>
        unfold writeCtr at h
        dsimp only at h
        split at h
        case isTrue =>
          cases h
          exact .enable _
        case isFalse =>
          rw [lowerInterrupt_line h]
          exact .disable _
      case isFalse =>
        split at h
        case isTrue =>
          cases h
          exact .refl _
        case isFalse =>
          split at h
          case isTrue =>
            cases h
            unfold writeCr
            split
            · exact .ask
            · exact .refl _
          case isFalse =>
            cases h
            exact .refl _

end I2cWorld

/- A step executes a command, or does no more than an access. -/
theorem I2cOp.exec_line
    {op : I2cOp cfg σ}
    {w w' : I2cWorld cfg σ}
    (h : op.exec w = .ok w') :
    (I2cStep.Executes ⟨w, op, w'⟩ ∧
        w'.line = w.line.command w.i2c.cr) ∨
      ¬ I2cStep.Executes ⟨w, op, w'⟩ ∧
        w.line.Access w'.line := by
  cases op with
  | read addr =>
      cases h
      exact Or.inr ⟨nofun, .refl _⟩
  | write addr value =>
      exact Or.inr ⟨nofun, I2cWorld.write_access h⟩
  | tick =>
      unfold I2cOp.exec I2cWorld.tick at h
      dsimp only at h
      split at h
      case isTrue hActive =>
        split at h
        case isTrue hWait =>
          cases h
          exact Or.inr ⟨fun hRun => not_lt.mpr hRun.2.2 hWait,
            .refl _⟩
        case isFalse hOver =>
          rcases bind_eq_ok.mp h with ⟨w₁, hRun, hEq⟩
          cases hEq
          refine Or.inl ⟨⟨rfl, hActive, not_lt.mp hOver⟩, ?_⟩
          have hLine := I2cWorld.executeCommand_line hRun
          exact congrArg
            (fun l => { l with opActive := false }) hLine
      case isFalse hIdle =>
        cases h
        exact Or.inr ⟨fun hRun => hIdle hRun.2.1, .refl _⟩
  | others world =>
      cases h
      exact Or.inr ⟨nofun, .refl _⟩

end RiscvEm

------------------------------------------------------------
-- Signalled Completions
------------------------------------------------------------

namespace RiscvEm

namespace I2cLine

/- No command is in progress, `IF` is clear, the line is not. -/
def AtRest
    (l : I2cLine) : Prop :=
  l.irqFlag = false → l.opActive = false → l.intLine = false

/- `set_pending(irq, true)` was called in between. -/
def Raises
    (l l' : I2cLine) : Prop :=
  ∃ levels, l'.levels = levels ++ l.levels ∧ true ∈ levels

end I2cLine

variable {cfg : PlicConfig}
variable {σ : Type}

/-
  The step signals a completion that it makes, and leaves the
  latched line in agreement with `IF`.
-/
structure I2cStep.Signalled
    (t : I2cStep cfg σ) : Prop where
  raised : t.Executes → t.after.i2c.sr.irqFlag = true →
    t.after.i2c.irqEnabled = true →
    t.before.line.Raises t.after.line
  atRest : t.after.line.AtRest

/-
  A command that is executed acknowledges the one before it,
  unless the line is down or nobody listens to it.
-/
def I2cStep.Acknowledged
    (t : I2cStep cfg σ) : Prop :=
  t.Executes →
    t.before.i2c.cr.iack = true ∨
      t.before.i2c.intLine = false ∨
      (t.before.i2c.irqEnabled = false ∧
        t.before.i2c.cr.transfers = true)

end RiscvEm

------------------------------------------------------------
-- One Step
------------------------------------------------------------

namespace RiscvEm

namespace I2cLine

variable {l l' : I2cLine}

/- A lowered line is down. -/
theorem lower_down :
    l.lower.intLine = false := by
  unfold lower
  split
  case isTrue => rfl
  case isFalse hDown => exact Bool.not_eq_true _ ▸ hDown

/- Lowering leaves the flag. -/
theorem lower_irqFlag :
    l.lower.irqFlag = l.irqFlag := by
  unfold lower
  split
  · rfl
  · rfl

/- An access keeps the agreement of line and flag. -/
theorem Access.atRest
    (h : l.Access l')
    (hRest : l.AtRest) :
    l'.AtRest := by
  cases h with
  | enable irqEnabled => exact hRest
  | disable irqEnabled => exact fun _ _ => lower_down
  | ask => exact fun _ hIdle => Bool.noConfusion hIdle

/- `IF` is clear while a command is in progress. -/
def Working
    (l : I2cLine) : Prop :=
  l.opActive = true → l.irqFlag = false

/- Accesses keep the line working. -/
theorem Access.working
    (h : l.Access l')
    (hWorking : l.Working) :
    l'.Working := by
  cases h with
  | enable irqEnabled => exact hWorking
  | disable irqEnabled => exact fun _ => lower_irqFlag
  | ask => exact fun _ => rfl

/- With `IACK`, or with the line down, it is down after it. -/
theorem acknowledge_down
    {cr : I2cCr}
    (hDown : cr.iack = true ∨ l.intLine = false) :
    (l.acknowledge cr).intLine = false := by
  unfold acknowledge
  split
  case isTrue => exact lower_down
  case isFalse hIack => exact hDown.resolve_left hIack

/- Acknowledging never sets the flag. -/
theorem acknowledge_irqFlag
    (cr : I2cCr)
    (hClear : l.irqFlag = false) :
    (l.acknowledge cr).irqFlag = false := by
  unfold acknowledge
  split
  · exact lower_irqFlag
  · exact hClear

/- Levels are appended only. -/
theorem acknowledge_levels
    (cr : I2cCr) :
    ∃ levels, (l.acknowledge cr).levels = levels ++ l.levels := by
  unfold acknowledge
  split
  · unfold lower
    split
    · exact ⟨[false], rfl⟩
    · exact ⟨[], rfl⟩
  · exact ⟨[], rfl⟩

/- A completion that finds the line down raises it. -/
theorem complete_raises
    {cr : I2cCr}
    (hDown : l.intLine = false)
    (hClear : l.irqFlag = false)
    (hFlag : (l.complete cr).irqFlag = true)
    (hOn : (l.complete cr).irqEnabled = true) :
    (l.complete cr).levels = true :: l.levels := by
  unfold complete at hFlag hOn ⊢
  split
  case isTrue hTransfers =>
    rw [if_pos hTransfers] at hOn
    unfold raise at hOn ⊢
    split
    case isTrue => rfl
    case isFalse hOff =>
      rw [if_neg hOff] at hOn
      exact absurd ⟨hOn, hDown⟩ hOff
  case isFalse hQuiet =>
    rw [if_neg hQuiet] at hFlag
    exact absurd (hClear.symm.trans hFlag) Bool.noConfusion

/- Nothing is raised without the flag. -/
theorem complete_clear
    {cr : I2cCr}
    (hDown : l.intLine = false)
    (hClear : (l.complete cr).irqFlag = false) :
    (l.complete cr).intLine = false := by
  unfold complete at hClear ⊢
  split
  case isTrue hTransfers =>
    rw [if_pos hTransfers] at hClear
    unfold raise at hClear
    split at hClear
    · exact Bool.noConfusion hClear
    · exact Bool.noConfusion hClear
  case isFalse => exact hDown

/- A completion that finds the line up changes the flag only. -/
theorem complete_up
    {cr : I2cCr}
    (hUp : l.intLine = true) :
    l.complete cr =
      { l with irqFlag := cr.transfers || l.irqFlag } := by
  unfold complete
  split
  case isTrue hTransfers =>
    have hNot : ¬ ({ l with irqFlag := true }.irqEnabled = true ∧
        { l with irqFlag := true }.intLine = false) :=
      fun h => absurd (hUp.symm.trans h.2) Bool.noConfusion
    rw [hTransfers, Bool.true_or]
    exact if_neg hNot
  case isFalse hQuiet =>
    rw [Bool.not_eq_true] at hQuiet
    rw [hQuiet, Bool.false_or]

/- What makes a command signal what it completes. -/
def Heard
    (l : I2cLine)
    (cr : I2cCr) : Prop :=
  cr.iack = true ∨ l.intLine = false ∨
    (l.irqEnabled = false ∧ cr.transfers = true)

/- What a command that is executed has to do. -/
structure Signals
    (l l' : I2cLine) : Prop where
  raised : l'.irqFlag = true → l'.irqEnabled = true →
    l.Raises l'
  atRest : l'.AtRest

/-
  A line that is down, or acknowledged, signals the
  completion.
-/
theorem command_signals
    {cr : I2cCr}
    (hClear : l.irqFlag = false)
    (hDown : cr.iack = true ∨ l.intLine = false) :
    l.Signals (l.command cr) := by
  have hDown₁ := acknowledge_down hDown
  have hClear₁ := acknowledge_irqFlag cr hClear
  refine ⟨fun hFlag hOn => ?_, fun hFlag _ => ?_⟩
  · rcases acknowledge_levels (l := l) cr with ⟨levels, hLevels⟩
    have hRaise := complete_raises hDown₁ hClear₁ hFlag hOn
    rw [hLevels] at hRaise
    exact ⟨true :: levels, hRaise, List.mem_cons_self⟩
  · exact complete_clear hDown₁ hFlag

/- A line that is still up signals nothing. -/
theorem command_up
    {cr : I2cCr}
    (hIack : ¬ cr.iack = true)
    (hUp : l.intLine = true)
    (hClear : l.irqFlag = false) :
    l.command cr =
      { l with irqFlag := cr.transfers, opActive := false } := by
  have hSame : l.acknowledge cr = l := if_neg hIack
  unfold command
  rw [hSame, complete_up hUp, hClear, Bool.or_false]

/- A completion is signalled exactly if it is heard. -/
theorem command_signals_iff
    {cr : I2cCr}
    (hClear : l.irqFlag = false) :
    l.Signals (l.command cr) ↔ l.Heard cr := by
  by_cases hDown : cr.iack = true ∨ l.intLine = false
  · exact iff_of_true (command_signals hClear hDown)
      (hDown.imp_right Or.inl)
  · rcases not_or.mp hDown with ⟨hIack, hUp⟩
    rw [Bool.not_eq_false] at hUp
    have hEq := command_up hIack hUp hClear
    constructor
    · intro hOk
      rw [hEq] at hOk
      refine Or.inr (Or.inr ?_)
      -- a command that completes nothing leaves the line up
      have hTransfers : cr.transfers = true := by
        by_contra hQuiet
        rw [Bool.not_eq_true] at hQuiet
        exact absurd (hUp.symm.trans (hOk.atRest hQuiet rfl))
          Bool.noConfusion
      refine ⟨?_, hTransfers⟩
      by_contra hOn
      rw [Bool.not_eq_false] at hOn
      rcases hOk.raised hTransfers hOn with
        ⟨levels, hLevels, hMem⟩
      rw [List.self_eq_append_left.mp hLevels] at hMem
      exact absurd hMem List.not_mem_nil
    · intro hHeard
      rcases (hHeard.resolve_left hIack).resolve_left
        (fun h => hDown (Or.inr h)) with ⟨hOff, hTransfers⟩
      rw [hEq]
      refine ⟨fun _ hOn => ?_, fun hFlag _ => ?_⟩
      · exact absurd (hOff.symm.trans hOn) Bool.noConfusion
      · exact absurd (hTransfers.symm.trans hFlag)
          Bool.noConfusion

end I2cLine

end RiscvEm

------------------------------------------------------------
-- Every Run
------------------------------------------------------------

namespace RiscvEm

variable {cfg : PlicConfig}
variable {σ : Type}
variable {w w' : I2cWorld cfg σ}
variable {ts : List (I2cStep cfg σ)}

/- Every operation keeps the line working. -/
theorem I2cOp.working
    {op : I2cOp cfg σ}
    (h : op.exec w = .ok w')
    (hWorking : w.line.Working) :
    w'.line.Working := by
  rcases I2cOp.exec_line h with ⟨-, hLine⟩ | ⟨-, hAccess⟩
  · rw [hLine]
    exact fun hActive => Bool.noConfusion hActive
  · exact hAccess.working hWorking

/- Every run keeps the line working. -/
theorem I2cRun.working
    (hRun : I2cRun w ts w')
    (hWorking : w.line.Working) :
    w'.line.Working := by
  induction hRun with
  | refl => exact hWorking
  | step _ hExec ih => exact I2cOp.working hExec ih

/- An executed command signals exactly if it is heard. -/
theorem I2cStep.signalled_iff
    {op : I2cOp cfg σ}
    (h : op.exec w = .ok w')
    (hWorking : w.line.Working)
    (hRest : w.line.AtRest) :
    I2cStep.Signalled ⟨w, op, w'⟩ ↔
      I2cStep.Acknowledged ⟨w, op, w'⟩ := by
  rcases I2cOp.exec_line h with ⟨hRun, hLine⟩ | ⟨hNot, hAccess⟩
  · have hClear : w.line.irqFlag = false := hWorking hRun.2.1
    have hIff : w.line.Signals w'.line ↔
        w.line.Heard w.i2c.cr := by
      rw [hLine]
      exact I2cLine.command_signals_iff hClear
    constructor
    · intro hOk _
      exact hIff.mp ⟨hOk.raised hRun, hOk.atRest⟩
    · intro hAck
      have hSignals := hIff.mpr (hAck hRun)
      exact ⟨fun _ => hSignals.raised, hSignals.atRest⟩
  · refine iff_of_true ⟨?_, hAccess.atRest hRest⟩ ?_
    · exact fun hRun => absurd hRun hNot
    · exact fun hRun => absurd hRun hNot

/-
  If all completions are signalled, the line is at rest
  again.
-/
theorem I2cRun.atRest
    (hRun : I2cRun w ts w')
    (hRest : w.line.AtRest)
    (hAll : ∀ t ∈ ts, t.Signalled) :
    w'.line.AtRest := by
  cases hRun with
  | refl => exact hRest
  | step _ _ => exact (hAll _ List.mem_cons_self).atRest

/- In a run that is exactly if all are acknowledged. -/
theorem I2cRun.signalled_iff
    (hRun : I2cRun w ts w')
    (hWorking : w.line.Working)
    (hRest : w.line.AtRest) :
    (∀ t ∈ ts, t.Signalled) ↔ ∀ t ∈ ts, t.Acknowledged := by
  induction hRun with
  | refl =>
      exact iff_of_true
        (fun _ hMem => absurd hMem List.not_mem_nil)
        (fun _ hMem => absurd hMem List.not_mem_nil)
  | step hBefore hExec ih =>
      have hWorking₁ := hBefore.working hWorking
      rw [List.forall_mem_cons, List.forall_mem_cons]
      constructor
      · rintro ⟨hStep, hAll⟩
        have hRest₁ := hBefore.atRest hRest hAll
        exact ⟨(I2cStep.signalled_iff hExec hWorking₁
          hRest₁).mp hStep, ih.mp hAll⟩
      · rintro ⟨hStep, hAll⟩
        have hRest₁ := hBefore.atRest hRest (ih.mpr hAll)
        exact ⟨(I2cStep.signalled_iff hExec hWorking₁
          hRest₁).mpr hStep, ih.mpr hAll⟩

/-
  In a run, every completed command is signalled and the line
  agrees with `IF` at rest exactly if each command that is
  executed acknowledges the one before it, finds the line down,
  or completes a transfer with the interrupt disabled.
-/
theorem i2c_completion_signalled_iff
    (irqNum : BitVec 32)
    (slaves : List (I2cSlave cfg σ))
    (world : SlaveWorld cfg σ)
    (ts : List (I2cStep cfg σ))
    (w : I2cWorld cfg σ)
    (hRun : I2cRun (.new irqNum slaves world) ts w) :
    (∀ t ∈ ts, t.Signalled) ↔ ∀ t ∈ ts, t.Acknowledged := by
  refine hRun.signalled_iff ?_ ?_
  · exact fun hActive => Bool.noConfusion hActive
  · exact fun _ _ => rfl

/- The controller of a machine, with nothing on its bus. -/
def i2cStart : I2cWorld PlicConfig.twoHarts Unit :=
  .new 11 [] ⟨(), plicStart⟩

/- An address is to be sent, with the interrupt enabled. -/
def i2cAsked : List (I2cOp PlicConfig.twoHarts Unit) :=
  List.replicate 99 .tick ++
    [.write (I2C_START + I2C_REG_CR_SR) 0x90,
      .write (I2C_START + I2C_REG_CTR) 0xC0]

/- After it a byte is to be sent, without `IACK`. -/
def i2cUnheard : List (I2cOp PlicConfig.twoHarts Unit) :=
  List.replicate 99 .tick ++
    .write (I2C_START + I2C_REG_CR_SR) 0x10 ::
      .tick :: i2cAsked

/- The first completion raises the line, once. -/
theorem i2c_completion_signalled_first :
    ∃ ts w, I2cRun i2cStart ts w ∧
      ts.map I2cStep.op = .tick :: i2cAsked ∧
      w.levels = [true] ∧ ∀ t ∈ ts, t.Signalled := by
  have hLevels : (runI2cOps i2cStart
      (.tick :: i2cAsked)).toOption.map I2cWorld.levels =
        some [true] := by
    decide +kernel
  rcases Option.map_eq_some_iff.mp hLevels with ⟨w, hOps, hEq⟩
  rcases i2cRun_of_runI2cOps (toOption_eq_some.mp hOps) with
    ⟨ts, hRun, hMap⟩
  have hDown : checkI2cOps (fun w => !w.i2c.intLine) i2cStart
      (ts.map I2cStep.op) = true := by
    rw [hMap]
    decide +kernel
  refine ⟨ts, w, hRun, hMap, hEq,
    (i2c_completion_signalled_iff 11 [] ⟨(), plicStart⟩ ts w
      hRun).mpr ?_⟩
  intro t hMem _
  have hLine := hRun.checked hDown t hMem
  rw [Bool.not_eq_eq_eq_not, Bool.not_true] at hLine
  exact Or.inr (Or.inl hLine)

/-
  The second command completes, and nothing is signalled: its
  write cleared `IF` and left the line up.
-/
theorem i2c_completion_not_signalled :
    ∃ ts w, I2cRun i2cStart ts w ∧
      ts.map I2cStep.op = .tick :: i2cUnheard ∧
      ¬ ∀ t ∈ ts, t.Signalled := by
  have hOk : (runI2cOps i2cStart
      (.tick :: i2cUnheard)).toOption.isSome = true := by
    decide +kernel
  have hBefore : (runI2cOps i2cStart i2cUnheard).toOption.map
      (fun w => (w.i2c.opActive, w.i2c.delay, w.i2c.cr.iack,
        w.i2c.intLine, w.i2c.irqEnabled)) =
        some (true, 99, false, true, true) := by
    decide +kernel
  rcases Option.isSome_iff_exists.mp hOk with ⟨w, hOps⟩
  rcases bind_eq_ok.mp (toOption_eq_some.mp hOps) with
    ⟨w₁, hOps₁, hTick⟩
  rcases i2cRun_of_runI2cOps hOps₁ with ⟨ts, hRun, hMap⟩
  rw [hOps₁] at hBefore
  simp only [Except.toOption, Option.map_some, Option.some.injEq,
    Prod.mk.injEq] at hBefore
  rcases hBefore with ⟨hActive, hDelay, hIack, hUp, hOn⟩
  have hWhole := hRun.step hTick
  refine ⟨_, w, hWhole, congrArg (List.cons _) hMap, ?_⟩
  intro hAll
  have hAck := (hWhole.signalled_iff
    (fun hBusy => Bool.noConfusion hBusy)
    (fun _ _ => rfl)).mp hAll _ List.mem_cons_self
  have hExec : I2C_RUN_DELAY ≤ w₁.i2c.delay + 1 := by
    rw [hDelay]
    exact le_refl 100
  rcases hAck ⟨rfl, hActive, hExec⟩ with h | h | ⟨h, -⟩
  · exact absurd (hIack.symm.trans h) Bool.noConfusion
  · exact absurd (hUp.symm.trans h) Bool.noConfusion
  · exact absurd (hOn.symm.trans h) Bool.noConfusion

end RiscvEm
