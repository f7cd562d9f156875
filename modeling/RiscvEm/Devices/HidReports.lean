import RiscvEm.Devices.HidOverI2c

/-
  The reports of the keyboard reach the driver in order, each
  once and in one piece, whatever keys change while one of them
  is read.

  Key definitions include:
    * `HidSession`
    * `HidOp.exec`
    * `HidInvariant`
    * `ReportsDelivered`

  Key theorems include `keyboard_reports_delivered`.
-/

------------------------------------------------------------
-- Sessions
------------------------------------------------------------

namespace RiscvEm

/-
  The keyboard with what happened since the session began: the
  reports it accepted, what each finished transaction read, and
  the bytes that the open one has read.
-/
structure HidSession where
  keyboard : HidKeyboard
  accepted : List (List (BitVec 8))
  delivered : List (List (BitVec 8))
  current : Option (List (BitVec 8))

inductive HidOp where
  | update (s : KeyState)
  | start
  | read (mAck : Bool)
  | stop

namespace HidSession

def begin
    (k : HidKeyboard) : HidSession where
  keyboard := k
  accepted := []
  delivered := []
  current := none

def update
    (h : HidSession)
    (s : KeyState) : HidSession :=
  { h with
    keyboard := h.keyboard.update s
    accepted :=
      if h.keyboard.Accepts then h.accepted ++ [s.report]
      else h.accepted }

/- A transaction on the input register may begin. -/
def MayStart
    (h : HidSession) : Prop :=
  h.keyboard.reportQueue ≠ [] ∧ h.keyboard.curReg = 3

instance
    (h : HidSession) :
    Decidable h.MayStart :=
  inferInstanceAs (Decidable (_ ∧ _))

def start
    (h : HidSession) : HidSession :=
  { h with
    keyboard := h.keyboard.startTransmit, current := some [] }

def read
    (h : HidSession)
    (bytes : List (BitVec 8))
    (mAck : Bool) : HidSession :=
  { h with
    keyboard := (h.keyboard.devRead mAck).2
    current := some (bytes ++ [(h.keyboard.devRead mAck).1]) }

def stop
    (h : HidSession)
    (bytes : List (BitVec 8)) : HidSession :=
  { h with
    keyboard := h.keyboard.stopTransmit
    delivered := h.delivered ++ [bytes]
    current := none }

end HidSession

/-
  One operation. A transaction is a start, ten reads and a
  stop; nothing else is a step of a session.
-/
def HidOp.exec
    (op : HidOp)
    (h : HidSession) : Option HidSession :=
  match op, h.current with
  | .update s, _ => some (h.update s)
  | .start, none => if h.MayStart then some h.start else none
  | .read mAck, some bytes =>
      if bytes.length < 10 then some (h.read bytes mAck)
      else none
  | .stop, some bytes =>
      if bytes.length = 10 then some (h.stop bytes) else none
  | _, _ => none

/- Execute operations, of which the newest comes first. -/
def runHidOps
    (h : HidSession) :
    List HidOp → Option HidSession
  | [] => some h
  | op :: ops => do
      let h ← runHidOps h ops
      op.exec h

end RiscvEm

------------------------------------------------------------
-- The Queue And The Buffer
------------------------------------------------------------

namespace RiscvEm

namespace HidKeyboard

variable {k : HidKeyboard}
variable {rest : List (List (BitVec 8))}
variable {report : List (BitVec 8)}

/-
  These reports wait, and the first of them stands in the
  buffer.
-/
structure Holds
    (k : HidKeyboard)
    (rest : List (List (BitVec 8))) : Prop where
  queue : k.reportQueue = rest
  front : ∀ report ∈ rest.head?, k.inputReport =
    reportFrame report

/- A keyboard's buffer has room for a keyboard's report. -/
structure Sized
    (k : HidKeyboard) : Prop where
  size : k.inputReportSize = 10
  buffer : k.inputReport.length = 10

/- A report has eight bytes. -/
theorem length_report
    (s : KeyState) :
    s.report.length = 8 := by
  unfold KeyState.report
  split
  · rfl
  · rw [List.length_append, Vector.length_toList]
    rfl

/- The frame of a report has ten bytes. -/
theorem length_reportFrame
    (hReport : report.length = 8) :
    (reportFrame report).length = 10 := by
  unfold reportFrame
  rw [List.length_cons, List.length_cons, hReport]

/- The buffer then holds the frame. -/
theorem inputReport_write
    (hSized : k.Sized)
    (hReport : report.length = 8) :
    (k.hidInputReportWrite report).inputReport =
      reportFrame report := by
  have hDrop : k.inputReport.drop (report.length + 2) = [] :=
    List.drop_eq_nil_of_le (by rw [hSized.buffer, hReport])
  unfold hidInputReportWrite
  rw [hDrop, List.append_nil]

/- The buffer keeps its size. -/
theorem Sized.write
    (hSized : k.Sized)
    (hReport : report.length = 8) :
    (k.hidInputReportWrite report).Sized := by
  refine ⟨hSized.size, ?_⟩
  rw [inputReport_write hSized hReport]
  exact length_reportFrame hReport

/- Only the queue and the buffer see a report that arrives. -/
theorem enqueue_cases
    (k : HidKeyboard)
    (report : List (BitVec 8)) :
    (k.reportQueue = [] ∧ k.enqueue report =
        { k with reportQueue := [report] }.hidInputReportWrite
          report) ∨
      (k.reportQueue ≠ [] ∧ k.enqueue report =
        { k with
          reportQueue := k.reportQueue ++ [report] }) := by
  unfold enqueue
  dsimp only
  by_cases hEmpty : k.reportQueue = []
  · rw [hEmpty, List.nil_append]
    exact Or.inl ⟨rfl, if_pos rfl⟩
  · have hLong : ¬ (k.reportQueue ++ [report]).length = 1 := by
      have hPos := List.length_pos_iff.mpr hEmpty
      rw [List.length_append, List.length_singleton]
      omega
    exact Or.inr ⟨hEmpty, if_neg hLong⟩

/- Queued reports have their size. -/
theorem Sized.enqueue
    (hSized : k.Sized)
    (hReport : report.length = 8) :
    (k.enqueue report).Sized := by
  rcases enqueue_cases k report with ⟨-, hEq⟩ | ⟨-, hEq⟩
  · rw [hEq]
    exact Sized.write ⟨hSized.size, hSized.buffer⟩ hReport
  · rw [hEq]
    exact ⟨hSized.size, hSized.buffer⟩

/- A report goes behind those that wait. -/
theorem Holds.enqueue
    (hHolds : k.Holds rest)
    (hSized : k.Sized)
    (hReport : report.length = 8) :
    (k.enqueue report).Holds (rest ++ [report]) := by
  have hQueue := hHolds.queue
  rcases enqueue_cases k report with ⟨hEmpty, hEq⟩ | ⟨hSome, hEq⟩
  · rw [hEq]
    rw [hEmpty] at hQueue
    rw [← hQueue, List.nil_append]
    refine ⟨rfl, fun r hMem => ?_⟩
    rw [← Option.some.inj hMem]
    exact inputReport_write ⟨hSized.size, hSized.buffer⟩ hReport
  · rw [hEq]
    rw [hQueue] at hSome
    refine ⟨congrArg (· ++ [report]) hQueue, fun r hMem => ?_⟩
    rw [List.head?_append_of_ne_nil _ hSome] at hMem
    exact hHolds.front r hMem

/- The fields that an arriving report does not touch. -/
theorem enqueue_kept
    (k : HidKeyboard)
    (report : List (BitVec 8)) :
    (k.enqueue report).isTransmitting = k.isTransmitting ∧
      (k.enqueue report).curReg = k.curReg ∧
      (k.enqueue report).ioOffset = k.ioOffset ∧
      (k.enqueue report).lastEvent = k.lastEvent ∧
      (k.enqueue report).levels = k.levels := by
  rcases enqueue_cases k report with ⟨-, hEq⟩ | ⟨-, hEq⟩
  · rw [hEq]
    exact ⟨rfl, rfl, rfl, rfl, rfl⟩
  · rw [hEq]
    exact ⟨rfl, rfl, rfl, rfl, rfl⟩

/- The last byte: the next report takes the buffer. -/
theorem Holds.finish
    {front : List (BitVec 8)}
    (hHolds : k.Holds (front :: rest))
    (hSized : k.Sized)
    (hReports : ∀ r ∈ rest, r.length = 8) :
    k.finishReport.Holds rest ∧ k.finishReport.Sized := by
  have hTail : k.reportQueue.tail = rest := by
    rw [hHolds.queue, List.tail_cons]
  unfold finishReport
  dsimp only
  rw [hTail]
  cases hRest : rest with
  | nil =>
      refine ⟨⟨rfl, fun r hMem => ?_⟩, ⟨hSized.size,
        hSized.buffer⟩⟩
      exact absurd hMem (Option.not_mem_none r)
  | cons next later =>
      have hNext : next.length = 8 :=
        hReports next (by rw [hRest]; exact List.mem_cons_self)
      refine ⟨⟨rfl, fun r hMem => ?_⟩, ?_⟩
      · rw [← Option.some.inj hMem]
        exact inputReport_write ⟨hSized.size, hSized.buffer⟩
          hNext
      · have hWrite := Sized.write
          (k := { k with reportQueue := next :: later })
          ⟨hSized.size, hSized.buffer⟩ hNext
        exact ⟨hWrite.size, hWrite.buffer⟩

/- Finishing a report leaves the transfer as it is. -/
theorem finishReport_kept
    (k : HidKeyboard) :
    k.finishReport.isTransmitting = k.isTransmitting ∧
      k.finishReport.lastEvent = k.lastEvent := by
  unfold finishReport
  dsimp only
  split
  · exact ⟨rfl, rfl⟩
  · exact ⟨rfl, rfl⟩

end HidKeyboard

end RiscvEm

------------------------------------------------------------
-- The Invariant
------------------------------------------------------------

namespace RiscvEm

namespace HidSession

open HidKeyboard

/- No transaction is open. -/
structure Outside
    (h : HidSession)
    (pending : List (List (BitVec 8))) : Prop where
  idle : h.keyboard.isTransmitting = false
  holds : h.keyboard.Holds pending
  raised : h.keyboard.reportQueue ≠ [] →
    h.keyboard.levels.head? = some true

/- Some bytes of the first report are read. -/
structure Reading
    (h : HidSession)
    (bytes : List (BitVec 8))
    (pending : List (List (BitVec 8))) : Prop where
  busy : h.keyboard.isTransmitting = true
  curReg : h.keyboard.curReg = 3
  offset : h.keyboard.ioOffset.toNat = bytes.length
  noEvent : h.keyboard.lastEvent = .none
  holds : h.keyboard.Holds pending
  untorn : ∃ front rest, pending = front :: rest ∧
    bytes = (reportFrame front).take bytes.length

/- The first report is read and off the queue. -/
structure Finished
    (h : HidSession)
    (bytes : List (BitVec 8))
    (pending : List (List (BitVec 8))) : Prop where
  busy : h.keyboard.isTransmitting = true
  noEvent : h.keyboard.lastEvent = .none
  untorn : ∃ front rest, pending = front :: rest ∧
    h.keyboard.Holds rest ∧ bytes = reportFrame front

def Phase
    (h : HidSession)
    (pending : List (List (BitVec 8))) : Prop :=
  match h.current with
  | none => h.Outside pending
  | some bytes =>
      if bytes.length < 10 then h.Reading bytes pending
      else h.Finished bytes pending

/- No transfer is going on. -/
theorem Phase.outside
    {h : HidSession}
    {pending : List (List (BitVec 8))}
    (hPhase : h.Phase pending)
    (hNone : h.current = none) :
    h.Outside pending := by
  unfold Phase at hPhase
  rwa [hNone] at hPhase

/- A transfer has not yet delivered its frame. -/
theorem Phase.reading
    {h : HidSession}
    {bytes : List (BitVec 8)}
    {pending : List (List (BitVec 8))}
    (hPhase : h.Phase pending)
    (hSome : h.current = some bytes)
    (hShort : bytes.length < 10) :
    h.Reading bytes pending := by
  unfold Phase at hPhase
  rw [hSome] at hPhase
  exact (if_pos hShort).mp hPhase

/- A transfer has delivered it. -/
theorem Phase.finished
    {h : HidSession}
    {bytes : List (BitVec 8)}
    {pending : List (List (BitVec 8))}
    (hPhase : h.Phase pending)
    (hSome : h.current = some bytes)
    (hLong : ¬ bytes.length < 10) :
    h.Finished bytes pending := by
  unfold Phase at hPhase
  rw [hSome] at hPhase
  exact (if_neg hLong).mp hPhase

end HidSession

/-
  The accepted reports are those whose transaction is over and
  those that are pending, in this order.
-/
structure HidInvariant
    (h : HidSession) : Prop where
  sized : h.keyboard.Sized
  reports : ∀ r ∈ h.accepted, r.length = 8
  progress : ∃ done pending, h.accepted = done ++ pending ∧
    h.delivered = done.map HidKeyboard.reportFrame ∧
    h.Phase pending

end RiscvEm

------------------------------------------------------------
-- One Operation
------------------------------------------------------------

namespace RiscvEm

open HidKeyboard

namespace HidKeyboard

variable {k : HidKeyboard}
variable {s : KeyState}
variable {pending : List (List (BitVec 8))}

/- While a transfer goes on, a report only waits. -/
theorem update_busy
    (hAccepts : k.Accepts)
    (hBusy : k.isTransmitting = true) :
    k.update s = k.enqueue s.report := by
  have hKept := (enqueue_kept k s.report).1.trans hBusy
  unfold update
  rw [if_pos hAccepts]
  exact if_pos hKept

/-
  A report that comes while no transfer goes on is
  announced.
-/
theorem update_idle
    (hAccepts : k.Accepts)
    (hIdle : k.isTransmitting = false) :
    k.update s = (k.enqueue s.report).setPending true := by
  have hKept : ¬ (k.enqueue s.report).isTransmitting = true := by
    rw [(enqueue_kept k s.report).1, hIdle]
    exact Bool.noConfusion
  unfold update
  rw [if_pos hAccepts]
  exact if_neg hKept

/- A full queue takes no report. -/
theorem update_full
    (hFull : ¬ k.Accepts) :
    k.update s = k :=
  if_neg hFull

/-
  A transfer that ends without an event announces what is
  left.
-/
theorem stopTransmit_of_noEvent
    (hNone : k.lastEvent = .none) :
    k.stopTransmit =
      if 0 < k.reportQueue.length then
        { k with
          isTransmitting := false
          curReg := 0x03 }.setPending true
      else
        { k with isTransmitting := false, curReg := 0x03 } := by
  have hHandle : { k with
      isTransmitting := false
      curReg := 0x03 }.handleEvent =
        { k with isTransmitting := false, curReg := 0x03 } := by
    unfold handleEvent
    dsimp only
    rw [hNone]
  unfold stopTransmit
  dsimp only
  rw [hHandle]

/- The size of reports is kept. -/
theorem Sized.update
    (hSized : k.Sized) :
    (k.update s).Sized := by
  have hEnqueue := hSized.enqueue (length_report s)
  by_cases hAccepts : k.Accepts
  · cases hBusy : k.isTransmitting with
    | true =>
        rw [update_busy hAccepts hBusy]
        exact hEnqueue
    | false =>
        rw [update_idle hAccepts hBusy]
        exact ⟨hEnqueue.size, hEnqueue.buffer⟩
  · rw [update_full hAccepts]
    exact hSized

end HidKeyboard

namespace HidSession

variable {h : HidSession}
variable {s : KeyState}
variable {bytes : List (BitVec 8)}
variable {pending : List (List (BitVec 8))}

/- A report that arrives joins the pending ones. -/
theorem Phase.update
    (hPhase : h.Phase pending)
    (hSized : h.keyboard.Sized)
    (hAccepts : h.keyboard.Accepts) :
    (h.update s).Phase (pending ++ [s.report]) := by
  rcases enqueue_kept h.keyboard s.report with
    ⟨hBusy, hReg, hOffset, hEvent, -⟩
  have hReport := length_report s
  unfold Phase
  change match h.current with
    | none => _
    | some bytes => _
  split
  case h_1 hNone =>
    have hOut := hPhase.outside hNone
    have hHolds := hOut.holds.enqueue hSized hReport
    have hEq : (h.update s).keyboard =
        (h.keyboard.enqueue s.report).setPending true :=
      update_idle hAccepts hOut.idle
    constructor
    · rw [hEq]
      exact hBusy.trans hOut.idle
    · rw [hEq]
      exact ⟨hHolds.queue, hHolds.front⟩
    · intro _
      rw [hEq]
      rfl
  case h_2 bytes hSome =>
    split
    case isTrue hShort =>
      have hRead := hPhase.reading hSome hShort
      have hEq : (h.update s).keyboard =
          h.keyboard.enqueue s.report :=
        update_busy hAccepts hRead.busy
      rcases hRead.untorn with ⟨front, rest, hPending, hBytes⟩
      constructor
      · rw [hEq]
        exact hBusy.trans hRead.busy
      · rw [hEq]
        exact hReg.trans hRead.curReg
      · rw [hEq, hOffset]
        exact hRead.offset
      · rw [hEq]
        exact hEvent.trans hRead.noEvent
      · rw [hEq]
        exact hRead.holds.enqueue hSized hReport
      · refine ⟨front, rest ++ [s.report], ?_, hBytes⟩
        rw [hPending, List.cons_append]
    case isFalse hLong =>
      have hDone := hPhase.finished hSome hLong
      have hEq : (h.update s).keyboard =
          h.keyboard.enqueue s.report :=
        update_busy hAccepts hDone.busy
      rcases hDone.untorn with
        ⟨front, rest, hPending, hHolds, hBytes⟩
      constructor
      · rw [hEq]
        exact hBusy.trans hDone.busy
      · rw [hEq]
        exact hEvent.trans hDone.noEvent
      · refine ⟨front, rest ++ [s.report], ?_, ?_, hBytes⟩
        · rw [hPending, List.cons_append]
        · rw [hEq]
          exact hHolds.enqueue hSized hReport

/- A transfer starts with nothing delivered. -/
theorem Outside.start
    (hOut : h.Outside pending)
    (hStart : h.MayStart) :
    h.start.Reading [] pending := by
  have hSome : pending ≠ [] := by
    rw [← hOut.holds.queue]
    exact hStart.1
  rcases List.exists_cons_of_ne_nil hSome with
    ⟨front, rest, hPending⟩
  exact
    { busy := rfl
      curReg := hStart.2
      offset := rfl
      noEvent := rfl
      holds := ⟨hOut.holds.queue, hOut.holds.front⟩
      untorn := ⟨front, rest, hPending, rfl⟩ }

/- The byte that a read of the input register returns. -/
theorem Reading.byte
    (hRead : h.Reading bytes pending)
    (hSized : h.keyboard.Sized)
    (hReports : ∀ r ∈ pending, r.length = 8)
    (hShort : bytes.length < 10)
    (mAck : Bool) :
    ∃ front rest, pending = front :: rest ∧
      bytes ++ [(h.keyboard.devRead mAck).1] =
        (reportFrame front).take (bytes.length + 1) := by
  rcases hRead.untorn with ⟨front, rest, hPending, hBytes⟩
  refine ⟨front, rest, hPending, ?_⟩
  have hFront : front.length = 8 :=
    hReports front (by rw [hPending]; exact List.mem_cons_self)
  have hFrame := length_reportFrame hFront
  have hBuffer : h.keyboard.inputReport = reportFrame front :=
    hRead.holds.front front (by rw [hPending]; rfl)
  have hIn : h.keyboard.ioOffset <
      h.keyboard.inputReportSize := by
    rw [BitVec.lt_def, hRead.offset, hSized.size]
    exact hShort
  have hVal : (h.keyboard.devRead mAck).1 =
      h.keyboard.inputReport.getD
        h.keyboard.ioOffset.toNat 0 := by
    unfold devRead
    rw [hRead.curReg]
    dsimp only
    rw [if_neg (by decide), if_neg (by decide), if_pos rfl,
      if_pos hIn]
    split
    · rfl
    · rfl
  have hLt : bytes.length < (reportFrame front).length := by
    rw [hFrame]
    exact hShort
  rw [hVal, hBuffer, hRead.offset, List.getD_eq_getElem _ _ hLt]
  calc
    bytes ++ [(reportFrame front)[bytes.length]]
    _ = (reportFrame front).take bytes.length ++
          [(reportFrame front)[bytes.length]] :=
        congrArg (· ++ _) hBytes
    _ = (reportFrame front).take (bytes.length + 1) :=
        List.take_append_getElem hLt

/- What a read of the input register leaves. -/
theorem Reading.keyboard
    (hRead : h.Reading bytes pending)
    (hSized : h.keyboard.Sized)
    (mAck : Bool) :
    (h.keyboard.devRead mAck).2 =
      if 10 ≤ bytes.length + 1 then h.keyboard.finishReport
      else h.keyboard.advance := by
  unfold devRead
  rw [hRead.curReg]
  dsimp only
  rw [if_neg (by decide), if_neg (by decide), if_pos rfl,
    hSized.size, hRead.offset, apply_ite Prod.snd]
  rfl

/- Every byte that is read is the next one of the frame. -/
theorem Reading.read
    (hRead : h.Reading bytes pending)
    (hSized : h.keyboard.Sized)
    (hReports : ∀ r ∈ pending, r.length = 8)
    (hShort : bytes.length < 10)
    (mAck : Bool) :
    (h.read bytes mAck).keyboard.Sized ∧
      (h.read bytes mAck).Phase pending := by
  rcases hRead.byte hSized hReports hShort mAck with
    ⟨front, rest, hPending, hBytes⟩
  have hKeyboard : (h.read bytes mAck).keyboard = _ :=
    hRead.keyboard hSized mAck
  have hLength : (bytes ++
      [(h.keyboard.devRead mAck).1]).length =
        bytes.length + 1 := by
    rw [List.length_append, List.length_singleton]
  unfold Phase
  change _ ∧ if (bytes ++ [_]).length < 10 then _ else _
  rw [hLength]
  by_cases hLast : 10 ≤ bytes.length + 1
  · rw [if_pos hLast] at hKeyboard
    rw [if_neg (not_lt.mpr hLast)]
    have hHolds := hRead.holds
    rw [hPending] at hHolds
    have hRest : ∀ r ∈ rest, r.length = 8 := fun r hMem =>
      hReports r (by
        rw [hPending]
        exact List.mem_cons_of_mem front hMem)
    have hFront : front.length = 8 :=
      hReports front (by rw [hPending]; exact List.mem_cons_self)
    rcases hHolds.finish hSized hRest with ⟨hNext, hNextSized⟩
    rcases finishReport_kept h.keyboard with ⟨hBusy, hEvent⟩
    rw [← hKeyboard] at hNext hNextSized hBusy hEvent
    refine ⟨hNextSized, hBusy.trans hRead.busy,
      hEvent.trans hRead.noEvent, front, rest, hPending, hNext,
      hBytes.trans ?_⟩
    exact List.take_of_length_le
      ((length_reportFrame hFront).trans_le hLast)
  · rw [if_neg hLast] at hKeyboard
    rw [if_pos (not_le.mp hLast)]
    refine ⟨?_, ?_⟩
    · rw [hKeyboard]
      exact ⟨hSized.size, hSized.buffer⟩
    · constructor
      · rw [hKeyboard]
        exact hRead.busy
      · rw [hKeyboard]
        exact hRead.curReg
      · rw [hKeyboard, hLength]
        change (h.keyboard.ioOffset + 1).toNat = _
        rw [BitVec.toNat_add, hRead.offset]
        exact Nat.mod_eq_of_lt (by
          have hOne : (1 : BitVec 16).toNat = 1 := rfl
          omega)
      · rw [hKeyboard]
        exact hRead.noEvent
      · rw [hKeyboard]
        exact ⟨hRead.holds.queue, hRead.holds.front⟩
      · refine ⟨front, rest, hPending, ?_⟩
        rw [hLength]
        exact hBytes

/- At its end the first report was delivered, and is gone. -/
theorem Finished.stop
    (hDone : h.Finished bytes pending)
    (hSized : h.keyboard.Sized) :
    ∃ front rest, pending = front :: rest ∧
      bytes = reportFrame front ∧
      (h.stop bytes).keyboard.Sized ∧
      (h.stop bytes).Outside rest := by
  rcases hDone.untorn with
    ⟨front, rest, hPending, hHolds, hBytes⟩
  have hKeyboard : (h.stop bytes).keyboard = _ :=
    stopTransmit_of_noEvent hDone.noEvent
  refine ⟨front, rest, hPending, hBytes, ?_⟩
  by_cases hSome : 0 < h.keyboard.reportQueue.length
  · rw [if_pos hSome] at hKeyboard
    refine ⟨?_, ?_, ?_, ?_⟩
    · rw [hKeyboard]
      exact ⟨hSized.size, hSized.buffer⟩
    · rw [hKeyboard]
      rfl
    · rw [hKeyboard]
      exact ⟨hHolds.queue, hHolds.front⟩
    · intro _
      rw [hKeyboard]
      rfl
  · rw [if_neg hSome] at hKeyboard
    refine ⟨?_, ?_, ?_, ?_⟩
    · rw [hKeyboard]
      exact ⟨hSized.size, hSized.buffer⟩
    · rw [hKeyboard]
    · rw [hKeyboard]
      exact ⟨hHolds.queue, hHolds.front⟩
    · intro hQueue
      rw [hKeyboard] at hQueue
      exact absurd (List.length_pos_iff.mpr hQueue) hSome

end HidSession

end RiscvEm

------------------------------------------------------------
-- Every Session
------------------------------------------------------------

namespace RiscvEm

open HidKeyboard

namespace HidInvariant

variable {h : HidSession}
variable {s : KeyState}
variable {bytes : List (BitVec 8)}

/- A keyboard event keeps the invariant. -/
theorem update
    (hInv : HidInvariant h) :
    HidInvariant (h.update s) := by
  rcases hInv.progress with
    ⟨done, pending, hAccepted, hDelivered, hPhase⟩
  by_cases hAccepts : h.keyboard.Accepts
  · have hNew : (h.update s).accepted =
        h.accepted ++ [s.report] :=
      if_pos hAccepts
    constructor
    · exact hInv.sized.update
    · intro r hMem
      rw [hNew] at hMem
      rcases List.mem_append.mp hMem with hOld | hReport
      · exact hInv.reports r hOld
      · rw [List.mem_singleton.mp hReport]
        exact length_report s
    · refine ⟨done, pending ++ [s.report], ?_, hDelivered,
        hPhase.update hInv.sized hAccepts⟩
      rw [hNew, hAccepted, List.append_assoc]
  · have hSame : h.update s = h := by
      unfold HidSession.update
      rw [update_full hAccepts, if_neg hAccepts]
    rw [hSame]
    exact hInv

/- The start of a transfer keeps it. -/
theorem start
    (hInv : HidInvariant h)
    (hNone : h.current = none)
    (hStart : h.MayStart) :
    HidInvariant h.start := by
  rcases hInv.progress with
    ⟨done, pending, hAccepted, hDelivered, hPhase⟩
  exact
    { sized := ⟨hInv.sized.size, hInv.sized.buffer⟩
      reports := hInv.reports
      progress := ⟨done, pending, hAccepted, hDelivered,
        (hPhase.outside hNone).start hStart⟩ }

/- A byte that is read keeps it. -/
theorem read
    (hInv : HidInvariant h)
    (hSome : h.current = some bytes)
    (hShort : bytes.length < 10)
    (mAck : Bool) :
    HidInvariant (h.read bytes mAck) := by
  rcases hInv.progress with
    ⟨done, pending, hAccepted, hDelivered, hPhase⟩
  have hPending : ∀ r ∈ pending, r.length = 8 := by
    intro r hMem
    refine hInv.reports r ?_
    rw [hAccepted]
    exact List.mem_append_right done hMem
  rcases (hPhase.reading hSome hShort).read hInv.sized hPending
    hShort mAck with ⟨hSized, hNext⟩
  exact
    { sized := hSized
      reports := hInv.reports
      progress := ⟨done, pending, hAccepted, hDelivered, hNext⟩ }

/- The end of a transfer keeps it. -/
theorem stop
    (hInv : HidInvariant h)
    (hSome : h.current = some bytes)
    (hLong : bytes.length = 10) :
    HidInvariant (h.stop bytes) := by
  rcases hInv.progress with
    ⟨done, pending, hAccepted, hDelivered, hPhase⟩
  have hFull : ¬ bytes.length < 10 := by omega
  rcases (hPhase.finished hSome hFull).stop hInv.sized with
    ⟨front, rest, hPending, hBytes, hSized, hOut⟩
  refine ⟨hSized, hInv.reports, done ++ [front], rest, ?_, ?_,
    hOut⟩
  · rw [List.append_assoc, List.singleton_append, ← hPending]
    exact hAccepted
  · rw [List.map_append, ← hDelivered, hBytes]
    rfl

/- Every operation keeps the invariant. -/
theorem exec
    {op : HidOp}
    {h' : HidSession}
    (hInv : HidInvariant h)
    (hExec : op.exec h = some h') :
    HidInvariant h' := by
  unfold HidOp.exec at hExec
  split at hExec
  case h_1 s =>
    cases hExec
    exact hInv.update
  case h_2 hNone =>
    split at hExec
    case isTrue hStart =>
      cases hExec
      exact hInv.start hNone hStart
    case isFalse => cases hExec
  case h_3 mAck bytes hSome =>
    split at hExec
    case isTrue hShort =>
      cases hExec
      exact hInv.read hSome hShort mAck
    case isFalse => cases hExec
  case h_4 bytes hSome =>
    split at hExec
    case isTrue hLong =>
      cases hExec
      exact hInv.stop hSome hLong
    case isFalse => cases hExec
  case h_5 => cases hExec

/- Every session keeps the invariant. -/
theorem run
    {ops : List HidOp}
    {h' : HidSession}
    (hInv : HidInvariant h)
    (hRun : runHidOps h ops = some h') :
    HidInvariant h' := by
  induction ops generalizing h' with
  | nil =>
      cases hRun
      exact hInv
  | cons op ops ih =>
      rcases Option.bind_eq_some_iff.mp hRun with
        ⟨h₁, hOps, hExec⟩
      exact (ih hOps).exec hExec

end HidInvariant

end RiscvEm

------------------------------------------------------------
-- Delivery
------------------------------------------------------------

namespace RiscvEm

open HidKeyboard

/- No report waits and no transaction is open. -/
structure HidKeyboard.Ready
    (k : HidKeyboard) : Prop where
  sized : k.Sized
  idle : k.isTransmitting = false
  empty : k.reportQueue = []

/- A new keyboard has nothing to report. -/
theorem HidKeyboard.ready_new
    (irqNum : BitVec 32)
    (mem : HidMemory) :
    (HidKeyboard.new irqNum mem).Ready where
  sized := ⟨rfl, Vector.length_toList⟩
  idle := rfl
  empty := rfl

/- A session begins with the invariant. -/
theorem HidInvariant.begin
    {k : HidKeyboard}
    (hReady : k.Ready) :
    HidInvariant (.begin k) where
  sized := hReady.sized
  reports r hMem := absurd hMem List.not_mem_nil
  progress := by
    refine ⟨[], [], rfl, rfl, hReady.idle, ⟨hReady.empty, ?_⟩, ?_⟩
    · exact fun r hMem => absurd hMem (Option.not_mem_none r)
    · exact fun hSome => absurd hReady.empty hSome

/-
  Each transaction reads the report that was accepted at its
  place, behind the two length bytes. The reports that no
  transaction has read are queued, and while one is, the line
  is raised outside transactions, by the stop or the update
  that leaves it there.
-/
structure ReportsDelivered
    (h : HidSession) : Prop where
  order : ∀ (k : Nat) bytes, h.delivered[k]? = some bytes →
    ∃ report, h.accepted[k]? = some report ∧
      report.length = 8 ∧ bytes = [0x0A, 0x00] ++ report
  queued : h.current = none →
    h.keyboard.reportQueue = h.accepted.drop h.delivered.length
  raised : h.current = none → h.keyboard.reportQueue ≠ [] →
    h.keyboard.levels.head? = some true
  stopRaises : ∀ bytes, h.current = some bytes →
    bytes.length = 10 →
    (h.stop bytes).keyboard.reportQueue ≠ [] →
    (h.stop bytes).keyboard.levels = true :: h.keyboard.levels
  updateRaises : h.current = none → h.keyboard.Accepts →
    ∀ s, (h.update s).keyboard.levels =
      true :: h.keyboard.levels

namespace HidInvariant

variable {h : HidSession}

/- The frame is the length in two bytes and the report. -/
theorem reportFrame_eq
    {report : List (BitVec 8)}
    (hReport : report.length = 8) :
    reportFrame report = [0x0A, 0x00] ++ report := by
  unfold reportFrame
  rw [hReport]
  rfl

/- The reports arrive in the order of the events. -/
theorem order
    (hInv : HidInvariant h)
    {k : Nat}
    {bytes : List (BitVec 8)}
    (hBytes : h.delivered[k]? = some bytes) :
    ∃ report, h.accepted[k]? = some report ∧
      report.length = 8 ∧ bytes = [0x0A, 0x00] ++ report := by
  rcases hInv.progress with
    ⟨done, pending, hAccepted, hDelivered, -⟩
  rw [hDelivered, List.getElem?_map] at hBytes
  rcases Option.map_eq_some_iff.mp hBytes with
    ⟨report, hReport, hFrame⟩
  have hAt : h.accepted[k]? = some report := by
    have hLt : k < done.length :=
      (List.getElem?_eq_some_iff.mp hReport).1
    rw [hAccepted, List.getElem?_append_left hLt]
    exact hReport
  have hLength := hInv.reports report
    (List.mem_of_getElem? hAt)
  refine ⟨report, hAt, hLength, ?_⟩
  rw [← hFrame, reportFrame_eq hLength]

/- Delivery follows from the invariant. -/
theorem reportsDelivered
    (hInv : HidInvariant h) :
    ReportsDelivered h := by
  rcases hInv.progress with
    ⟨done, pending, hAccepted, hDelivered, hPhase⟩
  constructor
  · exact fun _ _ => hInv.order
  · intro hNone
    rw [(hPhase.outside hNone).holds.queue, hAccepted,
      hDelivered, List.length_map, List.drop_left]
  · exact fun hNone => (hPhase.outside hNone).raised
  · intro bytes hSome hLong hQueue
    have hFull : ¬ bytes.length < 10 := by omega
    have hKeyboard : (h.stop bytes).keyboard = _ :=
      stopTransmit_of_noEvent
        (hPhase.finished hSome hFull).noEvent
    rw [hKeyboard] at hQueue ⊢
    split at hQueue
    case isTrue hPos =>
      rw [if_pos hPos]
      rfl
    case isFalse hZero =>
      exact absurd (List.length_pos_iff.mpr hQueue) hZero
  · intro hNone hAccepts s
    have hEq : (h.update s).keyboard =
        (h.keyboard.enqueue s.report).setPending true :=
      update_idle hAccepts (hPhase.outside hNone).idle
    rw [hEq]
    exact congrArg (List.cons true)
      (enqueue_kept h.keyboard s.report).2.2.2.2

end HidInvariant

/-
  Keyboard reports are delivered once each, in order and in one
  piece, in every session of updates and transactions on the
  input register.
-/
theorem keyboard_reports_delivered
    (k : HidKeyboard)
    (hReady : k.Ready)
    (ops : List HidOp)
    (h : HidSession)
    (hRun : runHidOps (.begin k) ops = some h) :
    ReportsDelivered h :=
  ((HidInvariant.begin hReady).run hRun).reportsDelivered

/- A keyboard whose input register is selected. -/
def keyboardStart : HidKeyboard :=
  .new 12
    { curReg := 3
      inputReport := Vector.replicate _ 0
      outputReport := Vector.replicate _ 0
      dataRegister := Vector.replicate _ 0
      commandRegister := Vector.replicate _ 0 }

/- A key goes down, and up while its report is read. -/
def keyStroke : List HidOp :=
  [.stop] ++ List.replicate 4 (.read true) ++
    [.update ⟨0, #v[0, 0, 0, 0, 0, 0], false⟩] ++
    List.replicate 6 (.read true) ++
    [.start, .update ⟨2, #v[4, 0, 0, 0, 0, 0], false⟩]

/- A letter is pressed, and its report is read. -/
theorem keyboard_reports_delivered_stroke :
    ∃ h, runHidOps (.begin keyboardStart) keyStroke = some h ∧
      h.delivered =
        [[0x0A, 0, 2, 0, 4, 0, 0, 0, 0, 0]] ∧
      ReportsDelivered h := by
  have hRun : (runHidOps (.begin keyboardStart) keyStroke).map
      HidSession.delivered =
        some [[0x0A, 0, 2, 0, 4, 0, 0, 0, 0, 0]] := by
    decide +kernel
  rcases Option.map_eq_some_iff.mp hRun with ⟨h, hOps, hEq⟩
  exact ⟨h, hOps, hEq, keyboard_reports_delivered keyboardStart
    (HidKeyboard.ready_new 12 _) keyStroke h hOps⟩

end RiscvEm
