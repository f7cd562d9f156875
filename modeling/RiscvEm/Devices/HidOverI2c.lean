import RiscvEm.Devices.I2c
import RiscvEm.Devices.ReportDescriptor

/-
  The keyboard: a HID device that is a slave on the I2C bus.

  The reports wait in a queue, and the oldest one stands in the
  buffer that the driver reads.

  Key definitions include:
    * `HidKeyboard`
    * `HidKeyboard.devRead`
    * `HidKeyboard.stopTransmit`
    * `HidKeyboard.update`
    * `HidKeyboard.slave`
-/

------------------------------------------------------------
-- State
------------------------------------------------------------

namespace RiscvEm

inductive WriteEvent where
  | none
  | command
  | data
  | output
  deriving DecidableEq

/-
  The fields of `HIDOverI2C`. `levels` are the arguments that
  `set_pending` got for the device's source, newest first.
-/
structure HidKeyboard where
  irqNum : BitVec 32
  isTransmitting : Bool
  reportDesc : List (BitVec 8)
  hidDescriptor : List (BitVec 8)
  curReg : BitVec 16
  ioOffset : BitVec 16
  inputReportSize : BitVec 16
  reportQueue : List (List (BitVec 8))
  inputReport : List (BitVec 8)
  outputReport : List (BitVec 8)
  dataRegister : List (BitVec 8)
  commandRegister : List (BitVec 8)
  lastEvent : WriteEvent
  levels : List Bool

/- What the constructor leaves as it finds it. -/
structure HidMemory where
  curReg : BitVec 16
  inputReport : Vector (BitVec 8) 10
  outputReport : Vector (BitVec 8) 1024
  dataRegister : Vector (BitVec 8) 1024
  commandRegister : Vector (BitVec 8) 1024

/- `hid_descriptor`, with the sizes that are filled in. -/
def hidDescriptorOf
    (descSize inputReportSize : BitVec 16) : List (BitVec 8) :=
  [ 0x1e, 0x00,
    0x00, 0x01,
    descSize.setWidth 8, (descSize >>> 8).setWidth 8,
    0x02, 0x00,
    0x03, 0x00,
    inputReportSize.setWidth 8,
    (inputReportSize >>> 8).setWidth 8,
    0x07, 0x00,
    0x00, 0x04,
    0x05, 0x00,
    0x06, 0x00,
    0x34, 0x12,
    0x78, 0x56,
    0x01, 0x00,
    0x00, 0x00, 0x00, 0x00 ]

namespace HidKeyboard

/- The constructors of the keyboard and of its base. -/
def new
    (irqNum : BitVec 32)
    (mem : HidMemory) : HidKeyboard :=
  let reportDesc := generateReportDescriptor keyboardItems
  { irqNum := irqNum
    isTransmitting := false
    reportDesc := reportDesc
    hidDescriptor :=
      hidDescriptorOf (BitVec.ofNat 16 reportDesc.length) 10
    curReg := mem.curReg
    ioOffset := 0
    inputReportSize := 10
    reportQueue := []
    inputReport := mem.inputReport.toList
    outputReport := mem.outputReport.toList
    dataRegister := mem.dataRegister.toList
    commandRegister := mem.commandRegister.toList
    lastEvent := .none
    levels := [] }

/- `plic->set_pending(irq_num, pending)`. -/
def setPending
    (k : HidKeyboard)
    (pending : Bool) : HidKeyboard :=
  { k with levels := pending :: k.levels }

/- `io_offset++`. -/
def advance
    (k : HidKeyboard) : HidKeyboard :=
  { k with ioOffset := k.ioOffset + 1 }

/- The length of a report and its two length bytes. -/
def reportFrame
    (bytes : List (BitVec 8)) : List (BitVec 8) :=
  let totalLen := BitVec.ofNat 16 (bytes.length + 2)
  totalLen.setWidth 8 :: (totalLen >>> 8).setWidth 8 :: bytes

/-
  The report overwrites the front of the buffer. No report is
  longer than the buffer.
-/
def hidInputReportWrite
    (k : HidKeyboard)
    (bytes : List (BitVec 8)) : HidKeyboard :=
  { k with
    inputReport := reportFrame bytes ++
      k.inputReport.drop (bytes.length + 2) }

end HidKeyboard

end RiscvEm

------------------------------------------------------------
-- The Virtual Functions
------------------------------------------------------------

namespace RiscvEm

namespace HidKeyboard

def startTransmit
    (k : HidKeyboard) : HidKeyboard :=
  { k with
    ioOffset := 0, isTransmitting := true, lastEvent := .none }

/- The last byte of a report takes it off the queue. -/
def finishReport
    (k : HidKeyboard) : HidKeyboard :=
  let k := { k with reportQueue := k.reportQueue.tail }
  match k.reportQueue with
  -- the source returns here, without moving `io_offset`
  | front :: _ => (k.hidInputReportWrite front).setPending true
  | [] => (k.setPending false).advance

def devRead
    (k : HidKeyboard)
    (_mAck : Bool) : BitVec 8 × HidKeyboard :=
  let byteAt (bytes : List (BitVec 8)) : BitVec 8 :=
    bytes.getD k.ioOffset.toNat 0
  if k.curReg = 0x01 then
    (byteAt k.hidDescriptor, k.advance)
  else if k.curReg = 0x02 then
    (byteAt k.reportDesc, k.advance)
  else if k.curReg = 0x03 then
    let val :=
      if k.ioOffset < k.inputReportSize then byteAt k.inputReport
      else 0
    if k.inputReportSize.toNat ≤ k.ioOffset.toNat + 1 then
      (val, k.finishReport)
    else
      (val, k.advance)
  else if k.curReg = 0x05 then
    (byteAt k.commandRegister, k.advance)
  else if k.curReg = 0x06 then
    (byteAt k.dataRegister, k.advance)
  else
    (0, k.advance)

/- The first two bytes that are written select a register. -/
def devWrite
    (val : BitVec 8)
    (k : HidKeyboard) : HidKeyboard :=
  let put (bytes : List (BitVec 8)) : List (BitVec 8) :=
    bytes.set (k.ioOffset.toNat - 2) val
  if k.ioOffset = 0 then
    { k with curReg := val.setWidth 16 }.advance
  else if k.ioOffset = 1 then
    { k with
      curReg := k.curReg ||| (val.setWidth 16 <<< 8) }.advance
  else if k.curReg = 0x05 then
    { k with
      commandRegister := put k.commandRegister
      lastEvent := .command }.advance
  else if k.curReg = 0x06 then
    { k with
      dataRegister := put k.dataRegister
      lastEvent := .data }.advance
  else if k.curReg = 0x07 then
    { k with
      outputReport := put k.outputReport
      lastEvent := .output }.advance
  else
    k

/- RESET forgets the reports; SET_POWER does nothing. -/
def hidEventCommandRegisterWrite
    (k : HidKeyboard) : HidKeyboard :=
  let opcode := k.commandRegister.getD 1 0 &&& 0x0F
  if opcode = 0x01 then
    { k with
      ioOffset := 0
      inputReport := (k.inputReport.set 0 0).set 1 0
      reportQueue := [] }.setPending true
  else
    k

/- The keyboard's handlers of the other events are empty. -/
def handleEvent
    (k : HidKeyboard) : HidKeyboard :=
  match k.lastEvent with
  | .command => k.hidEventCommandRegisterWrite
  | _ => k

def stopTransmit
    (k : HidKeyboard) : HidKeyboard :=
  let k := { k with
    isTransmitting := false, curReg := 0x03 }.handleEvent
  if 0 < k.reportQueue.length then
    k.setPending true
  else
    k

end HidKeyboard

end RiscvEm

------------------------------------------------------------
-- Reports
------------------------------------------------------------

namespace RiscvEm

/- The arguments of `update`. -/
structure KeyState where
  modifiers : BitVec 8
  keys : Vector (BitVec 8) 6
  rollover : Bool

/- The report of the keys that are down. -/
def KeyState.report
    (s : KeyState) : List (BitVec 8) :=
  if s.rollover = true then
    [s.modifiers, 0x00, 0x1, 0x1, 0x1, 0x1, 0x1, 0x1]
  else
    [s.modifiers, 0x0] ++ s.keys.toList

namespace HidKeyboard

/- There is room in the queue. -/
def Accepts
    (k : HidKeyboard) : Prop :=
  k.reportQueue.length < 64

instance
    (k : HidKeyboard) :
    Decidable k.Accepts :=
  inferInstanceAs (Decidable (_ < _))

/- A report joins the queue, and the buffer if it is alone. -/
def enqueue
    (k : HidKeyboard)
    (report : List (BitVec 8)) : HidKeyboard :=
  let k := { k with reportQueue := k.reportQueue ++ [report] }
  if k.reportQueue.length = 1 then
    k.hidInputReportWrite report
  else
    k

def update
    (s : KeyState)
    (k : HidKeyboard) : HidKeyboard :=
  if k.Accepts then
    let k := k.enqueue s.report
    if k.isTransmitting = true then k else k.setPending true
  else
    k

end HidKeyboard

end RiscvEm

------------------------------------------------------------
-- The Keyboard On The Bus
------------------------------------------------------------

namespace RiscvEm

variable {cfg : PlicConfig}

namespace HidKeyboard

/- The interrupt controller gets what the device signalled. -/
def signal
    (k k' : HidKeyboard)
    (plic : DevWorld (Plic cfg)) :
    Except HostFault (DevWorld (Plic cfg)) :=
  let new := k'.levels.take (k'.levels.length - k.levels.length)
  new.reverse.foldlM
    (fun plic pending => Plic.setPending k'.irqNum pending plic)
    plic

def become
    (k' : HidKeyboard)
    (w : SlaveWorld cfg HidKeyboard) :
    Except HostFault (SlaveWorld cfg HidKeyboard) := do
  let plic ← w.slave.signal k' w.plic
  .ok ⟨k', plic⟩

/- The keyboard as the controller of the bus sees it. -/
def slave
    (address : BitVec 8) : I2cSlave cfg HidKeyboard where
  address := address
  startTransmit w := w.slave.startTransmit.become w
  devWrite val w := (w.slave.devWrite val).become w
  devRead mAck w := do
    let (val, k) := w.slave.devRead mAck
    let w ← k.become w
    .ok (val, w)
  stopTransmit w := w.slave.stopTransmit.become w

end HidKeyboard

end RiscvEm
