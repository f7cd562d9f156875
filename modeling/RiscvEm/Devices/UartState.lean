import RiscvEm.Devices.PlicRuns
import RiscvEm.Devices.Uart

/-
  What holds of the serial port after any sequence of register
  accesses and received bytes.

  Key definitions include:
    * `UartOp.exec`
    * `UartRun`
    * `UartOp.receive`
    * `UartInvariant`

  Key theorems include `uart_state_invariant`.
-/

------------------------------------------------------------
-- Runs
------------------------------------------------------------

namespace RiscvEm

variable {cfg : PlicConfig}

/-
  What happens to the port: the guest accesses a register, a
  byte arrives, or others use the interrupt controller.
-/
inductive UartOp (cfg : PlicConfig) where
  | read (addr : BitVec 64)
  | write (addr value : BitVec 64)
  | receiveByte (byte : BitVec 8)
  | others (plic : DevWorld (Plic cfg))

/- An operation, with the value that a read returns. -/
def UartOp.exec
    (op : UartOp cfg)
    (w : UartWorld cfg) :
    Except HostFault (BitVec 64 × UartWorld cfg) :=
  match op with
  | .read addr => w.read addr
  | .write addr value => do
      let w ← w.write addr value
      .ok (0, w)
  | .receiveByte byte => do
      let w ← w.receiveByte byte
      .ok (0, w)
  | .others plic => .ok (0, { w with plic := plic })

/- An operation with the states around it and its value. -/
structure UartStep (cfg : PlicConfig) where
  before : UartWorld cfg
  op : UartOp cfg
  value : BitVec 64
  after : UartWorld cfg

/- A run of the port, newest operation first. -/
inductive UartRun
    (w : UartWorld cfg) :
    List (UartStep cfg) → UartWorld cfg → Prop
  | refl : UartRun w [] w
  | step {ts : List (UartStep cfg)} {w₁ w₂ : UartWorld cfg}
      {op : UartOp cfg} {value : BitVec 64} :
      UartRun w ts w₁ → op.exec w₁ = .ok (value, w₂) →
      UartRun w (⟨w₁, op, value, w₂⟩ :: ts) w₂

/- Execute operations, of which the newest comes first. -/
def runUartOps
    (w : UartWorld cfg) :
    List (UartOp cfg) → Except HostFault (UartWorld cfg)
  | [] => .ok w
  | op :: ops => do
      let w ← runUartOps w ops
      let (_, w) ← op.exec w
      .ok w

/- Operations that execute one after the other are a run. -/
theorem uartRun_of_runUartOps
    {w w' : UartWorld cfg}
    {ops : List (UartOp cfg)}
    (h : runUartOps w ops = .ok w') :
    ∃ ts, UartRun w ts w' ∧ ts.map UartStep.op = ops := by
  induction ops generalizing w' with
  | nil =>
      cases h
      exact ⟨[], .refl, rfl⟩
  | cons op ops ih =>
      rcases bind_eq_ok.mp h with ⟨w₁, hOps, hExec⟩
      rcases bind_eq_ok.mp hExec with ⟨⟨value, w₂⟩, hExec, hEq⟩
      cases hEq
      rcases ih hOps with ⟨ts, hRun, hMap⟩
      exact ⟨_, hRun.step hExec, by rw [List.map_cons, hMap]⟩

end RiscvEm

------------------------------------------------------------
-- Flags Of The Line Status
------------------------------------------------------------

namespace RiscvEm

namespace Uart

variable {u : Uart}
variable {flag other : BitVec 8}

/- A flag that was set is set. -/
theorem hasLsr_set
    (hFlag : flag ≠ 0) :
    (u.setLsr flag).HasLsr flag := by
  have hEq : (u.lsr ||| flag) &&& flag = flag := by
    rw [BitVec.and_or_distrib_right, BitVec.and_self]
    ext i hi
    simp only [BitVec.getElem_or, BitVec.getElem_and]
    cases u.lsr[i] <;> cases flag[i] <;> rfl
  change (u.lsr ||| flag) &&& flag ≠ 0
  rw [hEq]
  exact hFlag

/- A flag that was cleared is not set. -/
theorem hasLsr_clear :
    ¬ (u.clearLsr flag).HasLsr flag := by
  have hEq : u.lsr &&& ~~~flag &&& flag = 0#8 := by
    ext i hi
    simp only [BitVec.getElem_and, BitVec.getElem_not,
      BitVec.getElem_zero]
    cases u.lsr[i] <;> cases flag[i] <;> rfl
  exact not_not.mpr hEq

/- Setting or clearing a flag leaves the others. -/
theorem hasLsr_set_other
    (hApart : flag &&& other = 0#8) :
    (u.setLsr flag).HasLsr other ↔ u.HasLsr other := by
  change (u.lsr ||| flag) &&& other ≠ 0 ↔ _
  rw [BitVec.and_or_distrib_right, hApart, BitVec.or_zero]
  exact Iff.rfl

/- Clearing one keeps the others. -/
theorem hasLsr_clear_other
    (hApart : flag &&& other = 0#8) :
    (u.clearLsr flag).HasLsr other ↔ u.HasLsr other := by
  have hEq : ~~~flag &&& other = other := by
    ext i hi
    have hBit := congrArg (fun x => x[i]) hApart
    simp only [BitVec.getElem_and, BitVec.getElem_zero]
      at hBit
    simp only [BitVec.getElem_and, BitVec.getElem_not]
    cases hF : flag[i] with
    | false => rfl
    | true =>
        rw [hF, Bool.true_and] at hBit
        rw [hBit]
        rfl
  change u.lsr &&& ~~~flag &&& other ≠ 0 ↔ _
  rw [BitVec.and_assoc, hEq]
  exact Iff.rfl

end Uart

end RiscvEm

------------------------------------------------------------
-- Receiver
------------------------------------------------------------

namespace RiscvEm

variable {cfg : PlicConfig}

/- The registers in which bytes arrive. -/
structure UartReceiver where
  fifoEnabled : Bool
  fifoBuffer : List (BitVec 8)
  rhr : BitVec 8
  lsr : BitVec 8

def Uart.receiver
    (u : Uart) : UartReceiver :=
  ⟨u.fifoEnabled, u.fifoBuffer, u.rhr, u.lsr⟩

/- The access reads `RHR`. -/
def Uart.ReadsRhr
    (u : Uart)
    (addr : BitVec 64) : Prop :=
  (uartReg addr).toNat = 0 ∧ u.dlab = false

instance
    (u : Uart)
    (addr : BitVec 64) :
    Decidable (u.ReadsRhr addr) :=
  inferInstanceAs (Decidable (_ ∧ _))

/- A write of `FCR`, with the flush that it may ask for. -/
def Uart.writeFcr
    (u : Uart)
    (byte : BitVec 8) : Uart :=
  if byte &&& 0x02 ≠ 0 then
    (u.switchFifo byte).flushFifo
  else
    u.switchFifo byte

/- What an operation does to the receiver. -/
def UartOp.receive
    (op : UartOp cfg)
    (u : Uart) : Uart :=
  match op with
  | .read addr =>
      if u.ReadsRhr addr then u.readRhr.2 else u
  | .write addr value =>
      if (uartReg addr).toNat = 2 then
        u.writeFcr (value.setWidth 8)
      else
        u
  | .receiveByte byte =>
      if u.FifoFull then u.setLsr LSR_OE
      else u.acceptByte byte
  | .others _ => u

/- The registers that no update of the interrupt touches. -/
def Uart.core
    (u : Uart) : Uart :=
  { u with
    iir := 0, rxIrqPending := false, txIrqPending := false }

/- Noting an interrupt touches no register. -/
theorem Uart.notePending_eq
    (u : Uart)
    (newIir : BitVec 8) :
    (u.notePending newIir).core = u.core ∧
      (u.notePending newIir).iir = u.iir := by
  unfold Uart.notePending
  split
  · split
    · exact ⟨rfl, rfl⟩
    · split
      · exact ⟨rfl, rfl⟩
      · exact ⟨rfl, rfl⟩
  · exact ⟨rfl, rfl⟩

/- An update computes `iir` and drives the line to match. -/
theorem UartWorld.updateIir_eq
    {w w' : UartWorld cfg}
    (h : w.updateIir = .ok w') :
    w'.uart.core = w.uart.core ∧
      w'.uart.iir = w.uart.calcIirLocked ∧
      w'.level =
        some (decide (w.uart.calcIirLocked ≠ IIR_NO_INT)) := by
  rcases bind_eq_ok.mp h with ⟨w₁, hLevel, hEq⟩
  cases hEq
  have hPending : ∀ w₀ pending,
      UartWorld.setPending w₀ pending = .ok w₁ →
        w₁.uart = w₀.uart ∧ w₁.level = some pending := by
    intro w₀ pending hSet
    rcases bind_eq_ok.mp hSet with ⟨plic, -, hEq⟩
    cases hEq
    exact ⟨rfl, rfl⟩
  have hBoth : w₁.uart =
        { w.uart with iir := w.uart.calcIirLocked } ∧
      w₁.level =
        some (decide (w.uart.calcIirLocked ≠ IIR_NO_INT)) := by
    split at hLevel
    case isTrue hActive =>
      rw [decide_eq_true hActive]
      exact hPending _ true hLevel
    case isFalse hIdle =>
      rw [decide_eq_false hIdle]
      exact hPending _ false hLevel
  refine ⟨?_, ?_, hBoth.2⟩
  · refine (Uart.notePending_eq _ _).1.trans ?_
    rw [hBoth.1]
    rfl
  · refine (Uart.notePending_eq _ _).2.trans ?_
    rw [hBoth.1]

/- Updating the interrupt leaves the receiver alone. -/
theorem UartWorld.receiver_updateIir
    {w w' : UartWorld cfg}
    (h : w.updateIir = .ok w') :
    w'.uart.receiver = w.uart.receiver := by
  have hCore := (UartWorld.updateIir_eq h).1
  exact (congrArg Uart.receiver hCore :)

end RiscvEm

------------------------------------------------------------
-- Consistent Registers
------------------------------------------------------------

namespace RiscvEm

namespace Uart

/- What the registers of the receiver say agrees. -/
structure Consistent
    (u : Uart) : Prop where
  ready : u.fifoEnabled = true →
    (u.HasLsr LSR_DATA_READY ↔ u.fifoBuffer ≠ [])
  disabled : u.fifoEnabled = false → u.fifoBuffer = []
  length : u.fifoBuffer.length ≤ 16
  thrEmpty : u.HasLsr LSR_THR_EMPTY
  temt : u.HasLsr LSR_TEMT

variable {u v : Uart}

/- Whether the registers agree is up to the receiver. -/
theorem consistent_congr
    (h : u.receiver = v.receiver) :
    u.Consistent ↔ v.Consistent := by
  have hAll := UartReceiver.mk.inj h
  rcases hAll with ⟨hEnabled, hBuffer, -, hLsr⟩
  have hFlag : ∀ flag, u.HasLsr flag ↔ v.HasLsr flag := by
    intro flag
    unfold HasLsr
    rw [hLsr]
  constructor
  · intro hOk
    refine ⟨?_, ?_, ?_, ?_, ?_⟩
    · rw [← hEnabled, ← hFlag, ← hBuffer]
      exact hOk.ready
    · rw [← hEnabled, ← hBuffer]
      exact hOk.disabled
    · rw [← hBuffer]
      exact hOk.length
    · exact (hFlag _).mp hOk.thrEmpty
    · exact (hFlag _).mp hOk.temt
  · intro hOk
    refine ⟨?_, ?_, ?_, ?_, ?_⟩
    · rw [hEnabled, hFlag, hBuffer]
      exact hOk.ready
    · rw [hEnabled, hBuffer]
      exact hOk.disabled
    · rw [hBuffer]
      exact hOk.length
    · exact (hFlag _).mpr hOk.thrEmpty
    · exact (hFlag _).mpr hOk.temt

/- The fields of a new UART agree. -/
theorem consistent_new
    (irqNum : BitVec 32) :
    (Uart.new irqNum).Consistent where
  ready := nofun
  disabled _ := rfl
  length := Nat.zero_le _
  thrEmpty := (by decide :
    (LSR_THR_EMPTY ||| LSR_TEMT) &&& LSR_THR_EMPTY ≠ 0)
  temt := (by decide :
    (LSR_THR_EMPTY ||| LSR_TEMT) &&& LSR_TEMT ≠ 0)

/- The overrun flag is none of the flags that must agree. -/
theorem Consistent.setOverrun
    (hOk : u.Consistent) :
    (u.setLsr LSR_OE).Consistent where
  ready hOn := (hasLsr_set_other rfl).trans (hOk.ready hOn)
  disabled := hOk.disabled
  length := hOk.length
  thrEmpty := (hasLsr_set_other rfl).mpr hOk.thrEmpty
  temt := (hasLsr_set_other rfl).mpr hOk.temt

/- Clearing the overrun flag keeps this. -/
theorem Consistent.clearOverrun
    (hOk : u.Consistent) :
    (u.clearLsr LSR_OE).Consistent where
  ready hOn := (hasLsr_clear_other rfl).trans (hOk.ready hOn)
  disabled := hOk.disabled
  length := hOk.length
  thrEmpty := (hasLsr_clear_other rfl).mpr hOk.thrEmpty
  temt := (hasLsr_clear_other rfl).mpr hOk.temt

/- Bytes wait, and the flag says so. -/
theorem Consistent.setReady
    (hOk : u.Consistent)
    (hBuffer : v.fifoEnabled = true → v.fifoBuffer ≠ [])
    (hDisabled : v.fifoEnabled = false → v.fifoBuffer = [])
    (hLength : v.fifoBuffer.length ≤ 16)
    (hLsr : v.lsr = u.lsr) :
    (v.setLsr LSR_DATA_READY).Consistent where
  ready hOn := iff_of_true (hasLsr_set (by decide)) (hBuffer hOn)
  disabled := hDisabled
  length := hLength
  thrEmpty := by
    refine (hasLsr_set_other rfl).mpr ?_
    unfold HasLsr
    rw [hLsr]
    exact hOk.thrEmpty
  temt := by
    refine (hasLsr_set_other rfl).mpr ?_
    unfold HasLsr
    rw [hLsr]
    exact hOk.temt

/- No byte waits, and the flag says so. -/
theorem Consistent.clearReady
    (hOk : u.Consistent)
    (hBuffer : v.fifoBuffer = [])
    (hLsr : v.lsr = u.lsr) :
    (v.clearLsr LSR_DATA_READY).Consistent where
  ready _ := iff_of_false hasLsr_clear (not_not.mpr hBuffer)
  disabled _ := hBuffer
  length := hBuffer ▸ Nat.zero_le _
  thrEmpty := by
    refine (hasLsr_clear_other rfl).mpr ?_
    unfold HasLsr
    rw [hLsr]
    exact hOk.thrEmpty
  temt := by
    refine (hasLsr_clear_other rfl).mpr ?_
    unfold HasLsr
    rw [hLsr]
    exact hOk.temt

/- Taking a byte out keeps the fields in agreement. -/
theorem Consistent.takeByte
    (hOk : u.Consistent) :
    u.takeByte.2.Consistent := by
  unfold Uart.takeByte
  split
  case isTrue hOn =>
    split
    case h_1 byte rest hBuffer =>
      split
      case isTrue hLast =>
        exact hOk.clearReady (List.isEmpty_iff.mp hLast) rfl
      case isFalse hMore =>
        have hLength := hOk.length
        rw [hBuffer, List.length_cons] at hLength
        have hReady := (hOk.ready hOn).mpr (by
          rw [hBuffer]
          exact List.cons_ne_nil _ _)
        rw [List.isEmpty_iff] at hMore
        exact
          { ready := fun _ => iff_of_true hReady hMore
            disabled := fun hOff =>
              absurd (hOn.symm.trans hOff) Bool.noConfusion
            length := Nat.le_of_succ_le hLength
            thrEmpty := hOk.thrEmpty
            temt := hOk.temt }
    case h_2 => exact hOk
  case isFalse hOff =>
    rw [Bool.not_eq_true] at hOff
    exact hOk.clearReady (hOk.disabled hOff) rfl

/- Reading the holding register does. -/
theorem Consistent.readRhr
    (hOk : u.Consistent) :
    u.readRhr.2.Consistent := by
  have hTake := hOk.takeByte
  unfold Uart.readRhr
  dsimp only
  split
  · exact hTake.clearOverrun
  · exact hTake

/- A byte that has room keeps it. -/
theorem Consistent.acceptByte
    (hOk : u.Consistent)
    (hRoom : ¬ u.FifoFull)
    (byte : BitVec 8) :
    (u.acceptByte byte).Consistent := by
  unfold Uart.acceptByte
  split
  case isTrue hOn =>
    refine hOk.setReady (fun _ => ?_) (fun hOff => ?_) ?_ rfl
    · exact List.append_ne_nil_of_right_ne_nil _
        (List.cons_ne_nil _ _)
    · exact absurd (hOn.symm.trans hOff) Bool.noConfusion
    · have hShort := not_le.mp fun hLong => hRoom ⟨hOn, hLong⟩
      rw [List.length_append]
      exact hShort
  case isFalse hOff =>
    rw [Bool.not_eq_true] at hOff
    have hEmpty := hOk.disabled hOff
    have hOn : u.fifoEnabled = true → u.fifoBuffer ≠ [] :=
      fun hOn => absurd (hOn.symm.trans hOff) Bool.noConfusion
    split
    · exact hOk.setOverrun.setReady hOn (fun _ => hEmpty)
        hOk.length rfl
    · exact hOk.setReady hOn (fun _ => hEmpty) hOk.length rfl

/- Flushing the queue does. -/
theorem Consistent.flushFifo
    (hOk : u.Consistent) :
    u.flushFifo.Consistent := by
  have hClear := hOk.clearReady
    (v := { u with fifoBuffer := [] }) rfl rfl
  have hSame : u.flushFifo.receiver =
      ({ u with fifoBuffer := [] }.clearLsr
        LSR_DATA_READY).receiver := rfl
  exact (consistent_congr hSame).mpr hClear

/- A switch of the queue leaves it to the flag what waits. -/
theorem Consistent.switchFifo
    (hOk : u.Consistent)
    (byte : BitVec 8) :
    (u.switchFifo byte).Consistent ∧
      ((u.switchFifo byte).HasLsr LSR_DATA_READY ↔
        u.HasLsr LSR_DATA_READY) := by
  unfold Uart.switchFifo Uart.followFifo
  dsimp only
  split
  case isTrue hOn =>
    rcases hOn with ⟨hNew, hOld, hReady⟩
    have hEmpty := hOk.disabled hOld
    have hSome : (u.fifoBuffer ++ [u.rhr]).isEmpty ≠ true := by
      rw [hEmpty]
      exact Bool.noConfusion
    rw [if_neg hSome]
    refine ⟨hOk.setReady ?_ ?_ ?_ rfl, ?_⟩
    · exact fun _ => List.append_ne_nil_of_right_ne_nil _
        (List.cons_ne_nil _ _)
    · exact fun hOff =>
        absurd (hNew.symm.trans hOff) Bool.noConfusion
    · rw [hEmpty]
      exact (by omega : 1 ≤ 16)
    · exact iff_of_true (hasLsr_set (by decide)) hReady
  case isFalse hKept =>
    split
    case isTrue hOff =>
      rcases hOff with ⟨hNew, hOld⟩
      have hNot : (byte &&& 0x01 != 0) = true → False :=
        fun hOn => absurd (hOn.symm.trans hNew) Bool.noConfusion
      split
      case h_1 front rest hBuffer =>
        refine ⟨hOk.setReady (fun hOn => (hNot hOn).elim)
          (fun _ => rfl) (Nat.zero_le _) rfl, ?_⟩
        refine iff_of_true (hasLsr_set (by decide)) ?_
        refine (hOk.ready hOld).mpr ?_
        rw [hBuffer]
        exact List.cons_ne_nil _ _
      case h_2 hBuffer =>
        exact ⟨
          { ready := fun hOn => (hNot hOn).elim
            disabled := fun _ => hBuffer
            length := hOk.length
            thrEmpty := hOk.thrEmpty
            temt := hOk.temt }, Iff.rfl⟩
    case isFalse hStay =>
      refine ⟨⟨?_, ?_, hOk.length, hOk.thrEmpty, hOk.temt⟩,
        Iff.rfl⟩
      · intro hNew
        cases hOld : u.fifoEnabled with
        | true => exact hOk.ready hOld
        | false =>
            have hIdle : ¬ u.HasLsr LSR_DATA_READY :=
              fun hReady => hKept ⟨hNew, hOld, hReady⟩
            exact iff_of_false hIdle
              (not_not.mpr (hOk.disabled hOld))
      · intro hNew
        refine hOk.disabled ?_
        rw [← Bool.not_eq_true]
        exact fun hOld => hStay ⟨hNew, hOld⟩

/- The switch touches nothing else. -/
theorem switchFifo_frame
    (u : Uart)
    (byte : BitVec 8) :
    (u.switchFifo byte).ier = u.ier ∧
      (u.switchFifo byte).iir = u.iir := by
  unfold Uart.switchFifo Uart.followFifo
  dsimp only
  split
  · split
    · exact ⟨rfl, rfl⟩
    · exact ⟨rfl, rfl⟩
  · split
    · split
      · exact ⟨rfl, rfl⟩
      · exact ⟨rfl, rfl⟩
    · exact ⟨rfl, rfl⟩

/- What `iir` is computed from. -/
theorem calcIirLocked_congr
    (hIer : v.ier = u.ier)
    (hReady : v.HasLsr LSR_DATA_READY ↔
      u.HasLsr LSR_DATA_READY)
    (hEmpty : v.HasLsr LSR_THR_EMPTY ↔
      u.HasLsr LSR_THR_EMPTY) :
    v.calcIirLocked = u.calcIirLocked := by
  unfold calcIirLocked
  simp only [hIer, hReady, hEmpty]

/- Writing the FIFO control register does. -/
theorem Consistent.writeFcr
    (hOk : u.Consistent)
    (byte : BitVec 8) :
    (u.writeFcr byte).Consistent := by
  unfold Uart.writeFcr
  split
  · exact (hOk.switchFifo byte).1.flushFifo
  · exact (hOk.switchFifo byte).1

end Uart

end RiscvEm

------------------------------------------------------------
-- What An Operation Does
------------------------------------------------------------

namespace RiscvEm

variable {cfg : PlicConfig}
variable {w w' : UartWorld cfg}
variable {value : BitVec 64}

/- The operation ends with an update of the interrupt. -/
def Updates
    (op : UartOp cfg)
    (w w' : UartWorld cfg) : Prop :=
  ∃ w₁ : UartWorld cfg,
    w₁.uart.receiver = (op.receive w.uart).receiver ∧
      w₁.updateIir = .ok w'

/- The operation changes nothing the interrupt depends on. -/
structure Idles
    (op : UartOp cfg)
    (w w' : UartWorld cfg) : Prop where
  receiver :
    w'.uart.receiver = (op.receive w.uart).receiver
  iir : w'.uart.iir = w.uart.iir
  calcIir : w'.uart.calcIirLocked = w.uart.calcIirLocked
  level : w'.level = w.level

/-
  Reading the identification updates it, but for one
  register.
-/
theorem UartWorld.readIir_cases
    {addr : BitVec 64}
    (hReg : (uartReg addr).toNat ≠ 0)
    (h : w.readIir = .ok w') :
    Updates (.read addr) w w' ∨ Idles (.read addr) w w' := by
  have hNone : (UartOp.read addr : UartOp cfg).receive w.uart =
      w.uart :=
    if_neg (fun hReads => hReg hReads.1)
  have hRefresh : ∀ u : Uart,
      u.core = w.uart.core → u.iir = w.uart.iir →
      (if u.calcIirLocked = IIR_NO_INT then
          (w.setUart u).updateIir
        else
          .ok (w.setUart u)) = .ok w' →
      Updates (.read addr) w w' ∨ Idles (.read addr) w w' := by
    intro u hCore hIir hThen
    have hReceiver : u.receiver = w.uart.receiver :=
      (congrArg Uart.receiver hCore :)
    split at hThen
    · refine Or.inl ⟨w.setUart u, ?_, hThen⟩
      rw [hNone]
      exact hReceiver
    · cases hThen
      refine Or.inr ⟨?_, hIir, ?_, rfl⟩
      · rw [hNone]
        exact hReceiver
      · exact (congrArg Uart.calcIirLocked hCore :)
  unfold UartWorld.readIir at h
  split at h
  · exact hRefresh { w.uart with rxIrqPending := false }
      rfl rfl h
  · split at h
    · exact hRefresh { w.uart with txIrqPending := false }
        rfl rfl h
    · cases h
      exact Or.inr ⟨by rw [hNone], rfl, rfl, rfl⟩

/- Every read updates the interrupt or leaves it. -/
theorem UartWorld.read_cases
    {addr : BitVec 64}
    (h : w.read addr = .ok (value, w')) :
    Updates (.read addr) w w' ∨ Idles (.read addr) w w' := by
  have hKeeps (hNot : ¬ w.uart.ReadsRhr addr) :
      Idles (.read addr) w w := by
    refine ⟨?_, rfl, rfl, rfl⟩
    exact congrArg Uart.receiver (if_neg hNot).symm
  have hOther (hNe : (uartReg addr).toNat ≠ 0) :
      Idles (.read addr) w w :=
    hKeeps (fun hReads => hNe hReads.1)
  unfold UartWorld.read at h
  split at h
  case h_1 hReg =>
    split at h
    case isTrue hDlab =>
      cases h
      refine Or.inr (hKeeps fun hReads => ?_)
      exact absurd (hDlab.symm.trans hReads.2) Bool.noConfusion
    case isFalse hDlab =>
      rcases bind_eq_ok.mp h with ⟨w₁, hUpdate, hEq⟩
      cases hEq
      rw [Bool.not_eq_true] at hDlab
      refine Or.inl ⟨_, ?_, hUpdate⟩
      exact congrArg Uart.receiver (if_pos ⟨hReg, hDlab⟩).symm
  case h_2 hReg =>
    have hNe : (uartReg addr).toNat ≠ 0 := by omega
    split at h
    · cases h
      exact Or.inr (hOther hNe)
    · cases h
      exact Or.inr (hOther hNe)
  case h_3 hReg =>
    rcases bind_eq_ok.mp h with ⟨w₁, hIir, hEq⟩
    cases hEq
    exact UartWorld.readIir_cases (by omega) hIir
  case h_9 hNe _ _ _ _ _ _ _ =>
    cases h
    exact Or.inr (hOther hNe)
  all_goals
    rename_i hReg
    cases h
    exact Or.inr (hOther (by omega))

/- Every write updates the interrupt or leaves it. -/
theorem UartWorld.write_cases
    {addr : BitVec 64}
    (hOk : w.uart.Consistent)
    (h : w.write addr value = .ok w') :
    Updates (.write addr value) w w' ∨
      Idles (.write addr value) w w' := by
  have hOther (hNe : (uartReg addr).toNat ≠ 2) :
      ((UartOp.write addr value : UartOp cfg).receive
        w.uart).receiver = w.uart.receiver :=
    congrArg Uart.receiver (if_neg hNe)
  unfold UartWorld.write at h
  dsimp only at h
  split at h
  case h_1 hReg =>
    have hSame := hOther (by omega)
    split at h
    · cases h
      exact Or.inr ⟨hSame.symm, rfl, rfl, rfl⟩
    · refine Or.inl ⟨_, ?_, h⟩
      exact hSame.symm
  case h_2 hReg =>
    have hSame := hOther (by omega)
    split at h
    · cases h
      exact Or.inr ⟨hSame.symm, rfl, rfl, rfl⟩
    · refine Or.inl ⟨_, ?_, h⟩
      exact hSame.symm
  case h_3 hReg =>
    have hFcr : (UartOp.write addr value : UartOp cfg).receive
        w.uart = w.uart.writeFcr (value.setWidth 8) :=
      if_pos hReg
    split at h
    case isTrue hFlush =>
      refine Or.inl ⟨_, ?_, h⟩
      rw [hFcr, Uart.writeFcr, if_pos hFlush]
      rfl
    case isFalse hKeep =>
      cases h
      refine Or.inr ⟨?_, ?_, ?_, rfl⟩
      · rw [hFcr, Uart.writeFcr, if_neg hKeep]
        rfl
      · exact (Uart.switchFifo_frame _ _).2
      · have hSwitch := hOk.switchFifo (value.setWidth 8)
        exact Uart.calcIirLocked_congr
          (Uart.switchFifo_frame _ _).1 hSwitch.2
          (iff_of_true hSwitch.1.thrEmpty hOk.thrEmpty)
  case h_7 hNe _ _ _ =>
    cases h
    exact Or.inr ⟨(hOther hNe).symm, rfl, rfl, rfl⟩
  all_goals
    rename_i hReg
    cases h
    exact Or.inr ⟨(hOther (by omega)).symm, rfl, rfl, rfl⟩

/- A byte that comes in updates the interrupt or leaves it. -/
theorem UartWorld.receiveByte_cases
    {byte : BitVec 8}
    (h : w.receiveByte byte = .ok w') :
    Updates (.receiveByte byte) w w' ∨
      Idles (.receiveByte byte) w w' := by
  unfold UartWorld.receiveByte at h
  split at h
  case isTrue hFull =>
    cases h
    refine Or.inr ⟨?_, rfl, ?_, rfl⟩
    · exact congrArg Uart.receiver (if_pos hFull).symm
    · exact Uart.calcIirLocked_congr rfl
        (Uart.hasLsr_set_other rfl) (Uart.hasLsr_set_other rfl)
  case isFalse hRoom =>
    refine Or.inl ⟨_, ?_, h⟩
    exact congrArg Uart.receiver (if_neg hRoom).symm

/- Every operation updates the interrupt or leaves it. -/
theorem UartOp.exec_cases
    {op : UartOp cfg}
    (hOk : w.uart.Consistent)
    (h : op.exec w = .ok (value, w')) :
    Updates op w w' ∨ Idles op w w' := by
  cases op with
  | read addr => exact UartWorld.read_cases h
  | write addr val =>
      rcases bind_eq_ok.mp h with ⟨w₁, hWrite, hEq⟩
      cases hEq
      exact UartWorld.write_cases hOk hWrite
  | receiveByte byte =>
      rcases bind_eq_ok.mp h with ⟨w₁, hReceive, hEq⟩
      cases hEq
      exact UartWorld.receiveByte_cases hReceive
  | others plic =>
      cases h
      exact Or.inr ⟨rfl, rfl, rfl, rfl⟩

/- What happens to the receiver is what the queue does. -/
theorem UartOp.receiver_exec
    {op : UartOp cfg}
    (hOk : w.uart.Consistent)
    (h : op.exec w = .ok (value, w')) :
    w'.uart.receiver = (op.receive w.uart).receiver := by
  rcases UartOp.exec_cases hOk h with
    ⟨w₁, hSame, hUpdate⟩ | hIdle
  · exact (UartWorld.receiver_updateIir hUpdate).trans hSame
  · exact hIdle.receiver

/- No operation breaks the agreement. -/
theorem UartOp.consistent_receive
    (op : UartOp cfg)
    {u : Uart}
    (hOk : u.Consistent) :
    (op.receive u).Consistent := by
  cases op with
  | read addr =>
      unfold UartOp.receive
      dsimp only
      split
      · exact hOk.readRhr
      · exact hOk
  | write addr val =>
      unfold UartOp.receive
      dsimp only
      split
      · exact hOk.writeFcr _
      · exact hOk
  | receiveByte byte =>
      unfold UartOp.receive
      dsimp only
      split
      case isTrue => exact hOk.setOverrun
      case isFalse hRoom => exact hOk.acceptByte hRoom byte
  | others plic => exact hOk

end RiscvEm

------------------------------------------------------------
-- The Invariant
------------------------------------------------------------

namespace RiscvEm

variable {cfg : PlicConfig}
variable {w w' : UartWorld cfg}

/- The interrupt shows what the registers ask for. -/
structure UartWorld.Settled
    (w : UartWorld cfg) : Prop where
  iir : w.uart.iir = w.uart.calcIirLocked
  level : w.level = some true ↔ w.uart.iir ≠ IIR_NO_INT

/- After an update the line is what the registers say. -/
theorem UartWorld.settled_updateIir
    (h : w.updateIir = .ok w') :
    w'.Settled := by
  rcases UartWorld.updateIir_eq h with ⟨hCore, hIir, hLevel⟩
  have hCalc : w'.uart.calcIirLocked = w.uart.calcIirLocked :=
    (congrArg Uart.calcIirLocked hCore :)
  refine ⟨hIir.trans hCalc.symm, ?_⟩
  rw [hLevel, hIir, Option.some.injEq, decide_eq_true_iff]

/- Every operation leaves the line settled. -/
theorem UartWorld.settled_exec
    {op : UartOp cfg}
    {value : BitVec 64}
    (hOk : w.uart.Consistent)
    (hSettled : w.Settled)
    (h : op.exec w = .ok (value, w')) :
    w'.Settled := by
  rcases UartOp.exec_cases hOk h with
    ⟨w₁, -, hUpdate⟩ | hIdle
  · exact UartWorld.settled_updateIir hUpdate
  · refine ⟨?_, ?_⟩
    · rw [hIdle.iir, hIdle.calcIir]
      exact hSettled.iir
    · rw [hIdle.level, hIdle.iir]
      exact hSettled.level

/- Over a run the registers agree. -/
theorem UartRun.consistent
    {ts : List (UartStep cfg)}
    (hRun : UartRun w ts w')
    (hOk : w.uart.Consistent) :
    w'.uart.Consistent := by
  induction hRun with
  | refl => exact hOk
  | step _ hExec ih =>
      have hSame := UartOp.receiver_exec ih hExec
      exact (Uart.consistent_congr hSame).mpr
        (UartOp.consistent_receive _ ih)

/- Every run leaves the line settled. -/
theorem UartRun.settled
    {ts : List (UartStep cfg)}
    (hRun : UartRun w ts w')
    (hOk : w.uart.Consistent)
    (hSettled : w.Settled) :
    w'.Settled := by
  induction hRun with
  | refl => exact hSettled
  | step hBefore hExec ih =>
      exact UartWorld.settled_exec (hBefore.consistent hOk) ih
        hExec

/-
  What a driver may rely on: the flags say what the queue
  holds, and the interrupt says what the flags ask for.
-/
structure UartInvariant
    (w : UartWorld cfg) : Prop where
  ready : w.uart.fifoEnabled = true →
    (w.uart.HasLsr LSR_DATA_READY ↔ w.uart.fifoBuffer ≠ [])
  disabled : w.uart.fifoEnabled = false →
    w.uart.fifoBuffer = []
  length : w.uart.fifoBuffer.length ≤ 16
  thrEmpty : w.uart.HasLsr LSR_THR_EMPTY
  temt : w.uart.HasLsr LSR_TEMT
  iir : w.uart.iir = w.uart.calcIirLocked
  iirMeaning : w.uart.iir =
    if w.uart.ier &&& 0x01 ≠ 0 ∧
        w.uart.HasLsr LSR_DATA_READY then
      IIR_RX_AVAILABLE
    else if w.uart.ier &&& 0x02 ≠ 0 then
      IIR_THR_EMPTY
    else
      IIR_NO_INT
  level : w.level = some true ↔ w.uart.iir ≠ IIR_NO_INT

/- Consistent fields and a settled line make the invariant. -/
theorem UartInvariant.of_consistent
    (hOk : w.uart.Consistent)
    (hSettled : w.Settled) :
    UartInvariant w where
  ready := hOk.ready
  disabled := hOk.disabled
  length := hOk.length
  thrEmpty := hOk.thrEmpty
  temt := hOk.temt
  iir := hSettled.iir
  iirMeaning := by
    refine hSettled.iir.trans ?_
    unfold Uart.calcIirLocked
    simp only [hOk.thrEmpty, and_true]
  level := hSettled.level

/- A new UART is settled. -/
theorem UartWorld.settled_new
    (irqNum : BitVec 32)
    (plic : DevWorld (Plic cfg)) :
    (UartWorld.new irqNum plic).Settled where
  iir := by
    change IIR_NO_INT = _
    unfold Uart.calcIirLocked
    have hRx : (0 : BitVec 8) &&& 0x01 = 0 := by decide
    have hTx : (0 : BitVec 8) &&& 0x02 = 0 := by decide
    rw [if_neg (fun h => h.1 hRx), if_neg (fun h => h.1 hTx)]
  level := iff_of_false nofun (not_not.mpr rfl)

/-
  The registers of the port, its queue and its interrupt line
  agree in every state that it can reach.
-/
theorem uart_state_invariant
    (irqNum : BitVec 32)
    (plic : DevWorld (Plic cfg))
    (ts : List (UartStep cfg))
    (w : UartWorld cfg)
    (hRun : UartRun (.new irqNum plic) ts w) :
    UartInvariant w := by
  have hOk := Uart.consistent_new irqNum
  exact .of_consistent (hRun.consistent hOk)
    (hRun.settled hOk (UartWorld.settled_new irqNum plic))

/- The port of a machine of two harts. -/
def uartStart : UartWorld PlicConfig.twoHarts :=
  .new 10 plicStart

/- The queue and the interrupt are on, and a byte arrives. -/
def uartQueued : List (UartOp PlicConfig.twoHarts) :=
  [.receiveByte 0x41,
    .write (UART_START + 1) 0x01,
    .write (UART_START + 2) 0x01]

/- A run that fills the queue. -/
theorem uart_state_invariant_queued :
    ∃ ts w, UartRun uartStart ts w ∧
      ts.map UartStep.op = uartQueued ∧
      UartInvariant w := by
  have hOk : ∃ w, runUartOps uartStart uartQueued = .ok w :=
    ⟨_, rfl⟩
  rcases hOk with ⟨w, hOps⟩
  rcases uartRun_of_runUartOps hOps with ⟨ts, hRun, hMap⟩
  exact ⟨ts, w, hRun, hMap,
    uart_state_invariant 10 plicStart ts w hRun⟩

end RiscvEm
