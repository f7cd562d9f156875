import RiscvEm.Devices.Plic

/-
  The serial port: its registers, the queue and the holding
  register of the receiver, and its interrupt.

  Key definitions include:
    * `Uart`
    * `UartWorld.updateIir`
    * `UartWorld.read`
    * `UartWorld.write`
    * `UartWorld.receiveByte`
    * `uartDevice`
-/

------------------------------------------------------------
-- Registers
------------------------------------------------------------

namespace RiscvEm

def IIR_NO_INT : BitVec 8 := 0x01
def IIR_THR_EMPTY : BitVec 8 := 0x02
def IIR_RX_AVAILABLE : BitVec 8 := 0x04

def LSR_DATA_READY : BitVec 8 := 0x01
def LSR_THR_EMPTY : BitVec 8 := 0x20
def LSR_TEMT : BitVec 8 := 0x40
def LSR_OE : BitVec 8 := 0x02

structure Uart where
  rhr : BitVec 8
  thr : BitVec 8
  ier : BitVec 8
  iir : BitVec 8
  fcr : BitVec 8
  lcr : BitVec 8
  mcr : BitVec 8
  lsr : BitVec 8
  msr : BitVec 8
  scr : BitVec 8
  dll : BitVec 8
  dlm : BitVec 8
  rxIrqPending : Bool
  txIrqPending : Bool
  irqNum : BitVec 32
  dlab : Bool
  fifoEnabled : Bool
  fifoBuffer : List (BitVec 8)

namespace Uart

/- The constructor, with the source that `acquire_irq` gave. -/
def new
    (irqNum : BitVec 32) : Uart where
  rhr := 0
  thr := 0
  ier := 0
  iir := 0x01
  fcr := 0
  lcr := 0
  mcr := 0
  lsr := LSR_THR_EMPTY ||| LSR_TEMT
  msr := 0
  scr := 0
  dll := 0
  dlm := 0
  rxIrqPending := false
  txIrqPending := false
  irqNum := irqNum
  dlab := false
  fifoEnabled := false
  fifoBuffer := []

/- `lsr & flag`. -/
def HasLsr
    (u : Uart)
    (flag : BitVec 8) : Prop :=
  u.lsr &&& flag ≠ 0

instance
    (u : Uart)
    (flag : BitVec 8) :
    Decidable (u.HasLsr flag) :=
  inferInstanceAs (Decidable (_ ≠ _))

/- `lsr |= flag`. -/
def setLsr
    (u : Uart)
    (flag : BitVec 8) : Uart :=
  { u with lsr := u.lsr ||| flag }

/- `lsr &= ~flag`. -/
def clearLsr
    (u : Uart)
    (flag : BitVec 8) : Uart :=
  { u with lsr := u.lsr &&& ~~~flag }

/- Received data first, then an empty transmitter. -/
def calcIirLocked
    (u : Uart) : BitVec 8 :=
  if u.ier &&& 0x01 ≠ 0 ∧ u.HasLsr LSR_DATA_READY then
    IIR_RX_AVAILABLE
  else if u.ier &&& 0x02 ≠ 0 ∧ u.HasLsr LSR_THR_EMPTY then
    IIR_THR_EMPTY
  else
    IIR_NO_INT

end Uart

/-
  The port with what it drives: the interrupt controller and
  the output stream. `level` is the last one that was passed
  to `set_pending`, if there was any.
-/
structure UartWorld (cfg : PlicConfig) where
  uart : Uart
  plic : DevWorld (Plic cfg)
  out : List (BitVec 8)
  level : Option Bool

end RiscvEm

------------------------------------------------------------
-- Interrupt
------------------------------------------------------------

namespace RiscvEm

namespace UartWorld

variable {cfg : PlicConfig}

/- The port as it is constructed. -/
def new
    (irqNum : BitVec 32)
    (plic : DevWorld (Plic cfg)) : UartWorld cfg where
  uart := .new irqNum
  plic := plic
  out := []
  level := none

def setUart
    (w : UartWorld cfg)
    (u : Uart) : UartWorld cfg :=
  { w with uart := u }

/- `plic->set_pending(irq_num, pending)`. -/
def setPending
    (w : UartWorld cfg)
    (pending : Bool) : Except HostFault (UartWorld cfg) := do
  let plic ← Plic.setPending w.uart.irqNum pending w.plic
  .ok { w with plic := plic, level := some pending }

def triggerIrq
    (w : UartWorld cfg) : Except HostFault (UartWorld cfg) :=
  w.setPending true

def clearIrq
    (w : UartWorld cfg) : Except HostFault (UartWorld cfg) :=
  w.setPending false

end UartWorld

/- The pending flags after an update, with the new `iir`. -/
def Uart.notePending
    (u : Uart)
    (newIir : BitVec 8) : Uart :=
  if newIir ≠ IIR_NO_INT then
    if newIir = IIR_RX_AVAILABLE then
      { u with rxIrqPending := true }
    else if newIir = IIR_THR_EMPTY then
      { u with txIrqPending := true }
    else
      u
  else
    { u with rxIrqPending := false, txIrqPending := false }

def UartWorld.updateIir
    {cfg : PlicConfig}
    (w : UartWorld cfg) :
    Except HostFault (UartWorld cfg) := do
  let newIir := w.uart.calcIirLocked
  let w := w.setUart { w.uart with iir := newIir }
  let w ← (if newIir ≠ IIR_NO_INT then w.triggerIrq
    else w.clearIrq)
  .ok (w.setUart (w.uart.notePending newIir))

end RiscvEm

------------------------------------------------------------
-- Receiver
------------------------------------------------------------

namespace RiscvEm

namespace Uart

/- Take the next byte, as a read of `RHR` does. -/
def takeByte
    (u : Uart) : BitVec 8 × Uart :=
  if u.fifoEnabled = true then
    match u.fifoBuffer with
    | byte :: rest =>
        let u := { u with fifoBuffer := rest }
        if rest.isEmpty = true then
          (byte, u.clearLsr LSR_DATA_READY)
        else
          (byte, u)
    | [] => (0, u)
  else
    (u.rhr, u.clearLsr LSR_DATA_READY)

/- Read a byte; the overrun is forgotten then. -/
def readRhr
    (u : Uart) : BitVec 8 × Uart :=
  let (value, u) := u.takeByte
  if u.HasLsr LSR_OE then
    (value, u.clearLsr LSR_OE)
  else
    (value, u)

/- `DATA_READY` follows the queue. -/
def followFifo
    (u : Uart) : Uart :=
  if u.fifoBuffer.isEmpty = true then
    u.clearLsr LSR_DATA_READY
  else
    u.setLsr LSR_DATA_READY

/-
  Write `FCR`: a byte that waits moves between the holding
  register and the queue when the queue is switched.
-/
def switchFifo
    (u : Uart)
    (byte : BitVec 8) : Uart :=
  let oldFifo := u.fifoEnabled
  let u := { u with
    fcr := byte, fifoEnabled := byte &&& 0x01 != 0 }
  if u.fifoEnabled = true ∧ oldFifo = false ∧
      u.HasLsr LSR_DATA_READY then
    { u with fifoBuffer := u.fifoBuffer ++ [u.rhr] }.followFifo
  else if u.fifoEnabled = false ∧ oldFifo = true then
    match u.fifoBuffer with
    | front :: _ =>
        { u with rhr := front, fifoBuffer := [] }.setLsr
          LSR_DATA_READY
    | [] => u
  else
    u

/- Empty the queue. -/
def flushFifo
    (u : Uart) : Uart :=
  { { u with fifoBuffer := [] }.clearLsr LSR_DATA_READY with
    rxIrqPending := false }

/- The queue holds 16 bytes already. -/
def FifoFull
    (u : Uart) : Prop :=
  u.fifoEnabled = true ∧ 16 ≤ u.fifoBuffer.length

instance
    (u : Uart) :
    Decidable u.FifoFull :=
  inferInstanceAs (Decidable (_ ∧ _))

/- Put a byte that arrives where there is room for it. -/
def acceptByte
    (u : Uart)
    (byte : BitVec 8) : Uart :=
  if u.fifoEnabled = true then
    { u with fifoBuffer := u.fifoBuffer ++ [byte] }.setLsr
      LSR_DATA_READY
  else if u.HasLsr LSR_DATA_READY then
    (u.setLsr LSR_OE).setLsr LSR_DATA_READY
  else
    { u with rhr := byte }.setLsr LSR_DATA_READY

end Uart

end RiscvEm

------------------------------------------------------------
-- Accesses
------------------------------------------------------------

namespace RiscvEm

def UART_START : BitVec 64 := 0x10000000
def UART_SIZE : BitVec 64 := 0x100

/- `uint8_t reg = offset`. -/
def uartReg
    (addr : BitVec 64) : BitVec 8 :=
  (addr - UART_START).setWidth 8

namespace UartWorld

variable {cfg : PlicConfig}

/- Read `IIR`, which acknowledges what it shows. -/
def readIir
    (w : UartWorld cfg) : Except HostFault (UartWorld cfg) :=
  let refresh (w : UartWorld cfg) :
      Except HostFault (UartWorld cfg) :=
    if w.uart.calcIirLocked = IIR_NO_INT then
      w.updateIir
    else
      .ok w
  if w.uart.iir = IIR_RX_AVAILABLE ∧
      w.uart.rxIrqPending = true then
    refresh (w.setUart { w.uart with rxIrqPending := false })
  else if w.uart.iir = IIR_THR_EMPTY ∧
      w.uart.txIrqPending = true then
    refresh (w.setUart { w.uart with txIrqPending := false })
  else
    .ok w

/- The access size is not looked at. -/
def read
    (w : UartWorld cfg)
    (addr : BitVec 64) :
    Except HostFault (BitVec 64 × UartWorld cfg) :=
  match (uartReg addr).toNat with
  | 0 =>
      if w.uart.dlab = true then
        .ok (w.uart.dll.setWidth 64, w)
      else do
        let (value, u) := w.uart.readRhr
        let w ← (w.setUart u).updateIir
        .ok (value.setWidth 64, w)
  | 1 =>
      if w.uart.dlab = true then
        .ok (w.uart.dlm.setWidth 64, w)
      else
        .ok (w.uart.ier.setWidth 64, w)
  | 2 => do
      let value := w.uart.iir
      let w ← w.readIir
      .ok (value.setWidth 64, w)
  | 3 => .ok (w.uart.lcr.setWidth 64, w)
  | 4 => .ok (w.uart.mcr.setWidth 64, w)
  | 5 => .ok (w.uart.lsr.setWidth 64, w)
  | 6 => .ok (w.uart.msr.setWidth 64, w)
  | 7 => .ok (w.uart.scr.setWidth 64, w)
  | _ => .ok (0, w)

/- `fputc(thr, out_stream)`. -/
def transmit
    (w : UartWorld cfg)
    (byte : BitVec 8) : UartWorld cfg :=
  { w with
    uart := { w.uart with thr := byte }, out := byte :: w.out }

def write
    (w : UartWorld cfg)
    (addr value : BitVec 64) :
    Except HostFault (UartWorld cfg) :=
  let byte := value.setWidth 8
  let u := w.uart
  match (uartReg addr).toNat with
  | 0 =>
      if u.dlab = true then
        .ok (w.setUart { u with dll := byte })
      else
        -- both branches of the source update
        (w.transmit byte).updateIir
  | 1 =>
      if u.dlab = true then
        .ok (w.setUart { u with dlm := byte })
      else
        (w.setUart { u with ier := byte &&& 0x0F }).updateIir
  | 2 =>
      let u := u.switchFifo byte
      if byte &&& 0x02 ≠ 0 then
        (w.setUart u.flushFifo).updateIir
      else
        .ok (w.setUart u)
  | 3 =>
      .ok (w.setUart
        { u with lcr := byte, dlab := byte &&& 0x80 != 0 })
  | 4 => .ok (w.setUart { u with mcr := byte })
  | 7 => .ok (w.setUart { u with scr := byte })
  | _ => .ok w

/- A byte arrives; with the queue full it is lost. -/
def receiveByte
    (w : UartWorld cfg)
    (byte : BitVec 8) : Except HostFault (UartWorld cfg) :=
  if w.uart.FifoFull then
    .ok (w.setUart (w.uart.setLsr LSR_OE))
  else
    (w.setUart (w.uart.acceptByte byte)).updateIir

/- The controller drives the pins of the machine. -/
def onPins
    (w : UartWorld cfg)
    (pins : Nat → HartPins) : UartWorld cfg :=
  { w with plic := ⟨w.plic.dev, pins⟩ }

end UartWorld

/- `init_auto`: the port on the bus. -/
def uartDevice
    (cfg : PlicConfig) : Device (UartWorld cfg) :=
  { start := UART_START
    size := UART_SIZE
    read := fun addr _ w => do
      let (value, port) ← (w.dev.onPins w.pins).read addr
      .ok (value, ⟨port, port.plic.pins⟩)
    write := fun addr _ value w mem => do
      let port ← (w.dev.onPins w.pins).write addr value
      .ok (⟨port, port.plic.pins⟩, mem) }

end RiscvEm
