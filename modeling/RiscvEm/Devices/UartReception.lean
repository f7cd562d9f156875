import RiscvEm.Devices.UartState

/-
  The bytes that the serial port hands to the guest are those
  it accepted, in order, and a byte that it refuses shows in
  the overrun flag.

  Key definitions include:
    * `Uart.waiting`
    * `Uart.Accepts`
    * `returnedBytes`
    * `acceptedBytes`
    * `ReceivedInOrder`

  Key theorems include `uart_reception_in_order`.
-/

------------------------------------------------------------
-- What Is Returned And Accepted
------------------------------------------------------------

namespace RiscvEm

variable {cfg : PlicConfig}

namespace Uart

/- The bytes that arrived and are not read yet. -/
def waiting
    (u : Uart) : List (BitVec 8) :=
  if u.fifoEnabled = true then
    u.fifoBuffer
  else if u.HasLsr LSR_DATA_READY then
    [u.rhr]
  else
    []

/- There is room for a byte that arrives now. -/
def Accepts
    (u : Uart) : Prop :=
  if u.fifoEnabled = true then
    u.fifoBuffer.length < 16
  else
    ¬ u.HasLsr LSR_DATA_READY

instance
    (u : Uart) :
    Decidable u.Accepts := by
  unfold Accepts
  infer_instance

/-
  A write of `FCR` that changes the enable bit or flushes the
  queue.
-/
def SwitchesFifo
    (u : Uart) : UartOp cfg → Prop
  | .write addr value =>
      (uartReg addr).toNat = 2 ∧
        ((value.setWidth 8 &&& 0x01 != (0 : BitVec 8)) ≠
            u.fifoEnabled ∨
          value.setWidth 8 &&& 0x02 ≠ (0 : BitVec 8))
  | _ => False

end Uart

/- A read of `RHR`. -/
def UartStep.IsRhrRead
    (t : UartStep cfg) : Prop :=
  ∃ addr, t.op = .read addr ∧ t.before.uart.ReadsRhr addr

/- A byte arrived and was not accepted. -/
def UartStep.Loses
    (t : UartStep cfg) : Prop :=
  ∃ byte, t.op = .receiveByte byte ∧
    ¬ t.before.uart.Accepts

/- What a read of `RHR` returns while data is ready. -/
def UartStep.returned
    (t : UartStep cfg) : List (BitVec 64) :=
  match t.op with
  | .read addr =>
      if t.before.uart.ReadsRhr addr ∧
          t.before.uart.HasLsr LSR_DATA_READY then
        [t.value]
      else
        []
  | _ => []

def UartStep.accepted
    (t : UartStep cfg) : List (BitVec 8) :=
  match t.op with
  | .receiveByte byte =>
      if t.before.uart.Accepts then [byte] else []
  | _ => []

/- The bytes of a run, oldest first. -/
def returnedBytes :
    List (UartStep cfg) → List (BitVec 64)
  | [] => []
  | t :: ts => returnedBytes ts ++ t.returned

def acceptedBytes :
    List (UartStep cfg) → List (BitVec 8)
  | [] => []
  | t :: ts => acceptedBytes ts ++ t.accepted

/-
  What was returned and what still waits is what waited at the
  start and what was accepted. A lost byte sets the overrun
  flag, which stays until `RHR` is read.
-/
structure ReceivedInOrder
    (w : UartWorld cfg)
    (ts : List (UartStep cfg))
    (w' : UartWorld cfg) : Prop where
  order : returnedBytes ts ++
      w'.uart.waiting.map (BitVec.setWidth 64) =
    (w.uart.waiting ++ acceptedBytes ts).map
      (BitVec.setWidth 64)
  ready : w'.uart.HasLsr LSR_DATA_READY ↔
    w'.uart.waiting ≠ []
  lost : ∀ newer later t older,
    ts = newer ++ later ++ t :: older →
    t.Loses → (∀ s ∈ later, ¬ s.IsRhrRead) →
    ∀ s ∈ later ++ [t], s.after.uart.HasLsr LSR_OE

end RiscvEm

------------------------------------------------------------
-- One Operation
------------------------------------------------------------

namespace RiscvEm

namespace Uart

variable {u v : Uart}

theorem hasLsr_congr
    (h : u.receiver = v.receiver)
    (flag : BitVec 8) :
    u.HasLsr flag ↔ v.HasLsr flag := by
  unfold HasLsr
  rw [(UartReceiver.mk.inj h).2.2.2]

theorem waiting_congr
    (h : u.receiver = v.receiver) :
    u.waiting = v.waiting := by
  have hReady := hasLsr_congr h LSR_DATA_READY
  rcases UartReceiver.mk.inj h with
    ⟨hEnabled, hBuffer, hRhr, -⟩
  unfold waiting
  simp only [hEnabled, hBuffer, hRhr, hReady]

theorem waiting_on
    (u : Uart)
    (hOn : u.fifoEnabled = true) :
    u.waiting = u.fifoBuffer :=
  if_pos hOn

theorem waiting_off
    (u : Uart)
    (hOff : ¬ u.fifoEnabled = true) :
    u.waiting =
      if u.HasLsr LSR_DATA_READY then [u.rhr] else [] :=
  if_neg hOff

/- A byte waits in the holding register. -/
theorem waiting_held
    (u : Uart)
    (hOff : ¬ u.fifoEnabled = true)
    (hReady : u.HasLsr LSR_DATA_READY) :
    u.waiting = [u.rhr] := by
  rw [waiting_off u hOff, if_pos hReady]

theorem waiting_none
    (u : Uart)
    (hOff : ¬ u.fifoEnabled = true)
    (hIdle : ¬ u.HasLsr LSR_DATA_READY) :
    u.waiting = [] := by
  rw [waiting_off u hOff, if_neg hIdle]

/- The flag says whether a byte waits. -/
theorem Consistent.ready_iff
    (hOk : u.Consistent) :
    u.HasLsr LSR_DATA_READY ↔ u.waiting ≠ [] := by
  by_cases hOn : u.fifoEnabled = true
  · rw [waiting_on u hOn]
    exact hOk.ready hOn
  · rw [waiting_off u hOn]
    split
    case isTrue hReady =>
      exact iff_of_true hReady (List.cons_ne_nil _ _)
    case isFalse hIdle =>
      exact iff_of_false hIdle (not_not.mpr rfl)

/- The overrun flag is not among what decides who waits. -/
theorem waiting_setOverrun
    (u : Uart) :
    (u.setLsr LSR_OE).waiting = u.waiting := by
  unfold waiting
  simp only [hasLsr_set_other (u := u)
    (rfl : LSR_OE &&& LSR_DATA_READY = 0#8)]
  rfl

theorem waiting_clearOverrun
    (u : Uart) :
    (u.clearLsr LSR_OE).waiting = u.waiting := by
  unfold waiting
  simp only [hasLsr_clear_other (u := u)
    (rfl : LSR_OE &&& LSR_DATA_READY = 0#8)]
  rfl

/- A read with data ready takes the byte that waits longest. -/
theorem Consistent.waiting_takeByte
    (hOk : u.Consistent)
    (hReady : u.HasLsr LSR_DATA_READY) :
    u.waiting = u.takeByte.1 :: u.takeByte.2.waiting := by
  unfold Uart.takeByte
  split
  case isTrue hOn =>
    rw [waiting_on u hOn]
    split
    case h_1 byte rest hBuffer =>
      rw [hBuffer]
      have hRest (v : Uart) (hV : v.fifoEnabled = true)
          (hEq : v.fifoBuffer = rest) : rest = v.waiting := by
        rw [waiting_on v hV, hEq]
      split
      · exact congrArg (List.cons byte) (hRest _ hOn rfl)
      · exact congrArg (List.cons byte) (hRest _ hOn rfl)
    case h_2 hEmpty =>
      exact absurd hEmpty ((hOk.ready hOn).mp hReady)
  case isFalse hOff =>
    rw [waiting_held u hOff hReady]
    refine congrArg (List.cons u.rhr)
      (waiting_none _ ?_ hasLsr_clear).symm
    exact hOff

theorem Consistent.waiting_takeByte_idle
    (hOk : u.Consistent)
    (hIdle : ¬ u.HasLsr LSR_DATA_READY) :
    u.takeByte.2.waiting = u.waiting := by
  unfold Uart.takeByte
  split
  case isTrue hOn =>
    split
    case h_1 byte rest hBuffer =>
      refine absurd ((hOk.ready hOn).mpr ?_) hIdle
      rw [hBuffer]
      exact List.cons_ne_nil _ _
    case h_2 => rfl
  case isFalse hOff =>
    rw [waiting_none u hOff hIdle]
    exact waiting_none _ hOff hasLsr_clear

theorem readRhr_eq
    (u : Uart) :
    u.readRhr.1 = u.takeByte.1 ∧
      u.readRhr.2.waiting = u.takeByte.2.waiting := by
  unfold Uart.readRhr
  dsimp only
  split
  · exact ⟨rfl, waiting_clearOverrun _⟩
  · exact ⟨rfl, rfl⟩

/- A byte that is accepted waits behind the others. -/
theorem waiting_acceptByte
    (hRoom : u.Accepts)
    (byte : BitVec 8) :
    (u.acceptByte byte).waiting = u.waiting ++ [byte] := by
  unfold Accepts at hRoom
  unfold Uart.acceptByte
  split
  case isTrue hOn =>
    rw [waiting_on u hOn]
    exact waiting_on _ hOn
  case isFalse hOff =>
    rw [if_neg hOff] at hRoom
    rw [if_neg hRoom, waiting_none u hOff hRoom]
    exact waiting_held _ hOff (hasLsr_set (by decide))

/- Any other byte leaves what waits, and sets the flag. -/
theorem acceptByte_refused
    (hRefused : ¬ u.Accepts)
    (hRoom : ¬ u.FifoFull)
    (byte : BitVec 8) :
    (u.acceptByte byte).waiting = u.waiting ∧
      (u.acceptByte byte).HasLsr LSR_OE := by
  have hOff : ¬ u.fifoEnabled = true := by
    intro hOn
    unfold Accepts at hRefused
    rw [if_pos hOn] at hRefused
    exact hRoom ⟨hOn, not_lt.mp hRefused⟩
  have hReady : u.HasLsr LSR_DATA_READY := by
    unfold Accepts at hRefused
    rw [if_neg hOff] at hRefused
    exact not_not.mp hRefused
  unfold Uart.acceptByte
  rw [if_neg hOff, if_pos hReady]
  constructor
  · rw [waiting_held u hOff hReady]
    exact waiting_held _ hOff (hasLsr_set (by decide))
  · exact (hasLsr_set_other rfl).mpr (hasLsr_set (by decide))

/- Only a read of `RHR` clears the overrun flag. -/
theorem overrun_acceptByte
    (hOverrun : u.HasLsr LSR_OE)
    (byte : BitVec 8) :
    (u.acceptByte byte).HasLsr LSR_OE := by
  unfold Uart.acceptByte
  split
  · exact (hasLsr_set_other rfl).mpr hOverrun
  · split
    · exact (hasLsr_set_other rfl).mpr (hasLsr_set (by decide))
    · exact (hasLsr_set_other rfl).mpr hOverrun

theorem overrun_switchFifo
    (hOverrun : u.HasLsr LSR_OE)
    (byte : BitVec 8) :
    (u.switchFifo byte).HasLsr LSR_OE := by
  unfold Uart.switchFifo Uart.followFifo
  dsimp only
  split
  · split
    · exact (hasLsr_clear_other rfl).mpr hOverrun
    · exact (hasLsr_set_other rfl).mpr hOverrun
  · split
    · split
      · exact (hasLsr_set_other rfl).mpr hOverrun
      · exact hOverrun
    · exact hOverrun

theorem overrun_writeFcr
    (hOverrun : u.HasLsr LSR_OE)
    (byte : BitVec 8) :
    (u.writeFcr byte).HasLsr LSR_OE := by
  have hSwitch := overrun_switchFifo hOverrun byte
  unfold Uart.writeFcr
  split
  · exact (hasLsr_clear_other rfl).mpr hSwitch
  · exact hSwitch

/- The queue keeps its mode: what waits stays. -/
theorem switchFifo_waiting
    {byte : BitVec 8}
    (hSame : (byte &&& 0x01 != 0) = u.fifoEnabled) :
    (u.switchFifo byte).receiver = u.receiver := by
  unfold Uart.switchFifo Uart.followFifo
  dsimp only
  rw [if_neg (fun h =>
      absurd (h.1.symm.trans (hSame.trans h.2.1))
        Bool.noConfusion),
    if_neg (fun h =>
      absurd (h.1.symm.trans (hSame.trans h.2))
        Bool.noConfusion)]
  unfold receiver
  rw [hSame]

end Uart

end RiscvEm

------------------------------------------------------------
-- A Whole Run
------------------------------------------------------------

namespace RiscvEm

variable {cfg : PlicConfig}
variable {w w' : UartWorld cfg}
variable {value : BitVec 64}

/- The value of a read of `RHR`. -/
theorem UartWorld.read_rhr_value
    {addr : BitVec 64}
    (hReads : w.uart.ReadsRhr addr)
    (h : w.read addr = .ok (value, w')) :
    value = w.uart.readRhr.1.setWidth 64 := by
  unfold UartWorld.read at h
  rw [hReads.1] at h
  dsimp only at h
  rw [if_neg (fun hDlab =>
    absurd (hDlab.symm.trans hReads.2) Bool.noConfusion)] at h
  rcases bind_eq_ok.mp h with ⟨w₁, -, hEq⟩
  cases hEq
  rfl

/- What a step returns goes, what it accepts comes. -/
theorem UartOp.exec_order
    {op : UartOp cfg}
    (hOk : w.uart.Consistent)
    (hKept : ¬ w.uart.SwitchesFifo op)
    (h : op.exec w = .ok (value, w')) :
    UartStep.returned ⟨w, op, value, w'⟩ ++
        w'.uart.waiting.map (BitVec.setWidth 64) =
      (w.uart.waiting ++
        UartStep.accepted ⟨w, op, value, w'⟩).map
          (BitVec.setWidth 64) := by
  rw [Uart.waiting_congr (UartOp.receiver_exec hOk h)]
  cases op with
  | read addr =>
      have hAccepted :
          UartStep.accepted ⟨w, .read addr, value, w'⟩ = [] :=
        rfl
      rw [hAccepted, List.append_nil]
      by_cases hReads : w.uart.ReadsRhr addr
      · have hReceive : (UartOp.read addr : UartOp cfg).receive
            w.uart = w.uart.readRhr.2 := if_pos hReads
        rw [hReceive, (Uart.readRhr_eq _).2]
        by_cases hReady : w.uart.HasLsr LSR_DATA_READY
        · have hReturned : UartStep.returned
              ⟨w, .read addr, value, w'⟩ = [value] :=
            if_pos ⟨hReads, hReady⟩
          rw [hReturned, hOk.waiting_takeByte hReady,
            UartWorld.read_rhr_value hReads h,
            (Uart.readRhr_eq _).1, List.map_cons]
          rfl
        · have hReturned : UartStep.returned
              ⟨w, .read addr, value, w'⟩ = [] :=
            if_neg (fun hBoth => hReady hBoth.2)
          rw [hReturned, hOk.waiting_takeByte_idle hReady]
          rfl
      · have hReceive : (UartOp.read addr : UartOp cfg).receive
            w.uart = w.uart := if_neg hReads
        have hReturned : UartStep.returned
            ⟨w, .read addr, value, w'⟩ = [] :=
          if_neg (fun hBoth => hReads hBoth.1)
        rw [hReceive, hReturned]
        rfl
  | write addr val =>
      have hSame : ((UartOp.write addr val :
          UartOp cfg).receive w.uart).receiver =
            w.uart.receiver := by
        unfold UartOp.receive
        dsimp only
        split
        case isTrue hReg =>
          have hBits := not_or.mp fun hOr => hKept ⟨hReg, hOr⟩
          unfold Uart.writeFcr
          rw [if_neg hBits.2]
          exact Uart.switchFifo_waiting (not_not.mp hBits.1)
        case isFalse => rfl
      rw [Uart.waiting_congr hSame]
      change w.uart.waiting.map _ =
        (w.uart.waiting ++ []).map _
      rw [List.append_nil]
  | receiveByte byte =>
      change (Uart.waiting (if w.uart.FifoFull then _
        else _)).map _ = _
      by_cases hAccepts : w.uart.Accepts
      · have hRoom : ¬ w.uart.FifoFull := by
          intro hFull
          unfold Uart.Accepts at hAccepts
          rw [if_pos hFull.1] at hAccepts
          exact absurd hFull.2 (not_le.mpr hAccepts)
        have hAccepted : UartStep.accepted
            ⟨w, .receiveByte byte, value, w'⟩ = [byte] :=
          if_pos hAccepts
        rw [if_neg hRoom, hAccepted,
          Uart.waiting_acceptByte hAccepts]
      · have hAccepted : UartStep.accepted
            ⟨w, .receiveByte byte, value, w'⟩ = [] :=
          if_neg hAccepts
        rw [hAccepted, List.append_nil]
        split
        case isTrue => rw [Uart.waiting_setOverrun]
        case isFalse hRoom =>
          rw [(Uart.acceptByte_refused hAccepts hRoom byte).1]
  | others plic =>
      change w.uart.waiting.map _ =
        (w.uart.waiting ++ []).map _
      rw [List.append_nil]

/- A byte that is lost sets the flag. -/
theorem UartOp.exec_loses
    {op : UartOp cfg}
    (hOk : w.uart.Consistent)
    (hLoses : UartStep.Loses ⟨w, op, value, w'⟩)
    (h : op.exec w = .ok (value, w')) :
    w'.uart.HasLsr LSR_OE := by
  rcases hLoses with ⟨byte, hOp, hRefused⟩
  dsimp only at hOp
  rw [hOp] at h
  refine (Uart.hasLsr_congr
    (UartOp.receiver_exec hOk h) _).mpr ?_
  change (if w.uart.FifoFull then _ else _ : Uart).HasLsr _
  split
  case isTrue => exact Uart.hasLsr_set (by decide)
  case isFalse hRoom =>
    exact (Uart.acceptByte_refused hRefused hRoom byte).2

/- The flag stays until the guest reads a byte. -/
theorem UartOp.exec_keeps_overrun
    {op : UartOp cfg}
    (hOk : w.uart.Consistent)
    (hOther : ¬ UartStep.IsRhrRead ⟨w, op, value, w'⟩)
    (hOverrun : w.uart.HasLsr LSR_OE)
    (h : op.exec w = .ok (value, w')) :
    w'.uart.HasLsr LSR_OE := by
  refine (Uart.hasLsr_congr
    (UartOp.receiver_exec hOk h) _).mpr ?_
  cases op with
  | read addr =>
      have hNot : ¬ w.uart.ReadsRhr addr :=
        fun hReads => hOther ⟨addr, rfl, hReads⟩
      unfold UartOp.receive
      dsimp only
      rw [if_neg hNot]
      exact hOverrun
  | write addr val =>
      unfold UartOp.receive
      dsimp only
      split
      · exact Uart.overrun_writeFcr hOverrun _
      · exact hOverrun
  | receiveByte byte =>
      unfold UartOp.receive
      dsimp only
      split
      · exact Uart.hasLsr_set (by decide)
      · exact Uart.overrun_acceptByte hOverrun byte
  | others plic => exact hOverrun

theorem UartRun.order
    {ts : List (UartStep cfg)}
    (hRun : UartRun w ts w')
    (hOk : w.uart.Consistent)
    (hKept : ∀ t ∈ ts, ¬ t.before.uart.SwitchesFifo t.op) :
    returnedBytes ts ++
        w'.uart.waiting.map (BitVec.setWidth 64) =
      (w.uart.waiting ++ acceptedBytes ts).map
        (BitVec.setWidth 64) := by
  induction hRun with
  | refl =>
      unfold returnedBytes acceptedBytes
      rw [List.append_nil, List.nil_append]
  | @step ts w₁ w₂ op value hBefore hExec ih =>
      have hStep := UartOp.exec_order (hBefore.consistent hOk)
        (hKept _ (List.mem_cons_self ..)) hExec
      have hRest := ih fun t hMem =>
        hKept t (List.mem_cons_of_mem _ hMem)
      unfold returnedBytes acceptedBytes
      rw [List.append_assoc, hStep, List.map_append,
        ← List.append_assoc, hRest, ← List.map_append,
        List.append_assoc]

theorem UartRun.last
    {t : UartStep cfg}
    {ts : List (UartStep cfg)}
    (hRun : UartRun w (t :: ts) w') :
    UartRun w ts t.before ∧
      t.op.exec t.before = .ok (t.value, t.after) ∧
      t.after = w' := by
  generalize hEq : t :: ts = us at hRun
  cases hRun with
  | refl => cases hEq
  | step hBefore hExec =>
      rcases List.cons.inj hEq with ⟨rfl, rfl⟩
      exact ⟨hBefore, hExec, rfl⟩

/- A run goes through the states of its steps. -/
theorem UartRun.split
    {newer older : List (UartStep cfg)}
    {t : UartStep cfg}
    (hRun : UartRun w (newer ++ t :: older) w') :
    UartRun w older t.before ∧
      t.op.exec t.before = .ok (t.value, t.after) ∧
      UartRun t.after newer w' := by
  induction newer generalizing w' with
  | nil =>
      rcases hRun.last with ⟨hBefore, hExec, hEnd⟩
      exact ⟨hBefore, hExec, hEnd ▸ .refl⟩
  | cons s newer ih =>
      rcases hRun.last with ⟨hBefore, hExec, hEnd⟩
      rcases ih hBefore with ⟨hOlder, hStep, hNewer⟩
      exact ⟨hOlder, hStep, hEnd ▸ hNewer.step hExec⟩

/- A run begins with what is left of its last steps. -/
theorem UartRun.older
    {newer older : List (UartStep cfg)}
    (hRun : UartRun w (newer ++ older) w') :
    ∃ w₁, UartRun w older w₁ := by
  induction newer generalizing w' with
  | nil => exact ⟨w', hRun⟩
  | cons s newer ih => exact ih hRun.last.1

/- The flag is set throughout a run without such a read. -/
theorem UartRun.keeps_overrun
    {ts : List (UartStep cfg)}
    (hRun : UartRun w ts w')
    (hOk : w.uart.Consistent)
    (hOverrun : w.uart.HasLsr LSR_OE)
    (hOther : ∀ t ∈ ts, ¬ t.IsRhrRead) :
    w'.uart.HasLsr LSR_OE ∧
      ∀ t ∈ ts, t.after.uart.HasLsr LSR_OE := by
  induction hRun with
  | refl => exact ⟨hOverrun, List.forall_mem_nil _⟩
  | @step ts w₁ w₂ op value hBefore hExec ih =>
      rcases ih (fun t hMem =>
        hOther t (List.mem_cons_of_mem _ hMem)) with
          ⟨hMid, hAll⟩
      have hNow : ¬ UartStep.IsRhrRead ⟨w₁, op, value, w₂⟩ :=
        hOther _ (List.mem_cons_self ..)
      have hEnd := UartOp.exec_keeps_overrun
        (hBefore.consistent hOk) hNow hMid hExec
      exact ⟨hEnd, List.forall_mem_cons.mpr ⟨hEnd, hAll⟩⟩

theorem UartRun.lost
    {newer later older : List (UartStep cfg)}
    {t : UartStep cfg}
    (hRun : UartRun w (newer ++ (later ++ t :: older)) w')
    (hOk : w.uart.Consistent)
    (hLoses : t.Loses)
    (hOther : ∀ s ∈ later, ¬ s.IsRhrRead) :
    ∀ s ∈ later ++ [t], s.after.uart.HasLsr LSR_OE := by
  rcases hRun.older with ⟨w₂, hRun⟩
  rcases hRun.split with ⟨hOlder, hExec, hLater⟩
  have hBefore := hOlder.consistent hOk
  have hSet := UartOp.exec_loses hBefore hLoses hExec
  have hAfter := (UartRun.refl.step hExec).consistent hBefore
  intro s hMem
  rcases List.mem_append.mp hMem with hMem | hMem
  · exact (hLater.keeps_overrun hAfter hSet hOther).2 s hMem
  · cases List.mem_singleton.mp hMem
    exact hSet

end RiscvEm

------------------------------------------------------------
-- Reception
------------------------------------------------------------

namespace RiscvEm

variable {cfg : PlicConfig}

/-
  From any state that the port can reach, as long as the queue
  is neither switched nor flushed, the guest reads the bytes
  that were accepted, in order and once each.
-/
theorem uart_reception_in_order
    (irqNum : BitVec 32)
    (plic : DevWorld (Plic cfg))
    (past ts : List (UartStep cfg))
    (w w' : UartWorld cfg)
    (hPast : UartRun (.new irqNum plic) past w)
    (hRun : UartRun w ts w')
    (hKept : ∀ t ∈ ts, ¬ t.before.uart.SwitchesFifo t.op) :
    ReceivedInOrder w ts w' := by
  have hOk := hPast.consistent (Uart.consistent_new irqNum)
  refine ⟨hRun.order hOk hKept,
    (hRun.consistent hOk).ready_iff, ?_⟩
  intro newer later t older hEq hLoses hOther
  rw [hEq, List.append_assoc] at hRun
  exact hRun.lost hOk hLoses hOther

/- Two bytes arrive at the queue, and the guest reads one. -/
def uartExchange : List (UartOp PlicConfig.twoHarts) :=
  [.read UART_START, .receiveByte 0x42, .receiveByte 0x41]

theorem uart_reception_of_two :
    ∃ past ts w w', UartRun uartStart past w ∧
      UartRun w ts w' ∧
      ts.map UartStep.op = uartExchange ∧
      ReceivedInOrder w ts w' := by
  have hOk : ∃ w w', runUartOps uartStart
        [.write (UART_START + 2) 0x01] = .ok w ∧
      runUartOps w uartExchange = .ok w' :=
    ⟨_, _, rfl, rfl⟩
  rcases hOk with ⟨w, w', hPast, hOps⟩
  rcases uartRun_of_runUartOps hPast with ⟨past, hPast, -⟩
  rcases uartRun_of_runUartOps hOps with ⟨ts, hRun, hMap⟩
  refine ⟨past, ts, w, w', hPast, hRun, hMap, ?_⟩
  refine uart_reception_in_order 10 plicStart past ts w w'
    hPast hRun ?_
  intro t hMem
  have hOp : t.op ∈ uartExchange :=
    hMap ▸ List.mem_map_of_mem hMem
  have hNone : ∀ op ∈ uartExchange, ∀ u : Uart,
      ¬ u.SwitchesFifo op := by
    intro op hMem u
    simp only [uartExchange, List.mem_cons, List.not_mem_nil,
      or_false] at hMem
    rcases hMem with rfl | rfl | rfl
    · exact id
    · exact id
    · exact id
  exact hNone t.op hOp t.before.uart

end RiscvEm
