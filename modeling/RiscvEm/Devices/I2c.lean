import RiscvEm.Devices.Plic

/-
  The I2C controller: its registers, the command that it
  executes some ticks after the guest wrote it, and the slaves
  on its bus.

  A slave is a device of its own. It is taken here as what its
  four virtual functions do to everything that slaves can
  change.

  Key definitions include:
    * `I2cSlave`
    * `I2c`
    * `I2cWorld.executeCommand`
    * `I2cWorld.tick`
    * `I2cWorld.write`
-/

------------------------------------------------------------
-- Registers
------------------------------------------------------------

namespace RiscvEm

def I2C_START : BitVec 64 := 0x10030000

def I2C_REG_PRER_LO : BitVec 64 := 0x0
def I2C_REG_PRER_HI : BitVec 64 := 0x4
def I2C_REG_CTR : BitVec 64 := 0x8
def I2C_REG_TXR_RXR : BitVec 64 := 0xC
def I2C_REG_CR_SR : BitVec 64 := 0x10

/- `_run_delay`: ticks between a command and its execution. -/
def I2C_RUN_DELAY : Nat := 100

/- The fields of the command register. -/
structure I2cCr where
  iack : Bool
  ack : Bool
  wr : Bool
  rd : Bool
  sto : Bool
  sta : Bool
  deriving DecidableEq

namespace I2cCr

/- `cr.raw = val`. -/
def ofRaw
    (raw : BitVec 8) : I2cCr where
  iack := raw.getLsbD 0
  ack := raw.getLsbD 3
  wr := raw.getLsbD 4
  rd := raw.getLsbD 5
  sto := raw.getLsbD 6
  sta := raw.getLsbD 7

/- The command asks for something on the bus. -/
def asks
    (cr : I2cCr) : Bool :=
  cr.sta || cr.sto || cr.rd || cr.wr

/- `transaction_started` at the end of the command. -/
def transfers
    (cr : I2cCr) : Bool :=
  cr.wr || cr.rd || cr.sto

end I2cCr

/- The fields of the status register. -/
structure I2cSr where
  irqFlag : Bool
  tip : Bool
  al : Bool
  busy : Bool
  rxAck : Bool
  deriving DecidableEq

namespace I2cSr

/- `sr.raw = 0`. -/
def zero : I2cSr where
  irqFlag := false
  tip := false
  al := false
  busy := false
  rxAck := false

def raw
    (sr : I2cSr) : BitVec 8 :=
  BitVec.ofBool sr.rxAck ++ BitVec.ofBool sr.busy ++
    BitVec.ofBool sr.al ++ 0#3 ++ BitVec.ofBool sr.tip ++
    BitVec.ofBool sr.irqFlag

end I2cSr

end RiscvEm

------------------------------------------------------------
-- Slaves And State
------------------------------------------------------------

namespace RiscvEm

/-
  What the slaves can change: their own state, and the
  interrupt controller that some of them signal.
-/
structure SlaveWorld
    (cfg : PlicConfig)
    (σ : Type) where
  slave : σ
  plic : DevWorld (Plic cfg)

/- A slave: its address and its virtual functions. -/
structure I2cSlave
    (cfg : PlicConfig)
    (σ : Type) where
  address : BitVec 8
  startTransmit : SlaveWorld cfg σ →
    Except HostFault (SlaveWorld cfg σ)
  devWrite : BitVec 8 → SlaveWorld cfg σ →
    Except HostFault (SlaveWorld cfg σ)
  devRead : Bool → SlaveWorld cfg σ →
    Except HostFault (BitVec 8 × SlaveWorld cfg σ)
  stopTransmit : SlaveWorld cfg σ →
    Except HostFault (SlaveWorld cfg σ)

/- A call of a virtual function, with the slave's address. -/
inductive SlaveCall where
  | startTransmit (address : BitVec 8)
  | devWrite (address data : BitVec 8)
  | devRead (address : BitVec 8) (mAck : Bool)
  | stopTransmit (address : BitVec 8)
  deriving DecidableEq

structure I2c
    (cfg : PlicConfig)
    (σ : Type) where
  irqNum : BitVec 32
  prerLo : BitVec 8
  prerHi : BitVec 8
  ctr : BitVec 8
  txr : BitVec 8
  rxr : BitVec 8
  cr : I2cCr
  sr : I2cSr
  deviceSelected : Bool
  currentAddress : BitVec 16
  currentDev : Option (I2cSlave cfg σ)
  isReadOperation : Bool
  intLine : Bool
  slaves : List (I2cSlave cfg σ)
  opActive : Bool
  delay : Nat

namespace I2c

variable {cfg : PlicConfig}
variable {σ : Type}

/- The constructor, with the devices created on the bus. -/
def new
    (irqNum : BitVec 32)
    (slaves : List (I2cSlave cfg σ)) : I2c cfg σ where
  irqNum := irqNum
  prerLo := 0xFF
  prerHi := 0xFF
  ctr := 0
  txr := 0
  rxr := 0
  cr := .ofRaw 0
  sr := .zero
  deviceSelected := false
  currentAddress := 0xFFFF
  currentDev := none
  isReadOperation := false
  intLine := false
  slaves := slaves
  opActive := false
  delay := 0

/- `ctr & (1 << 7)`. -/
def enabled
    (i : I2c cfg σ) : Bool :=
  i.ctr.getLsbD 7

/- `ctr & 0x40`. -/
def irqEnabled
    (i : I2c cfg σ) : Bool :=
  i.ctr.getLsbD 6

/- The address that `txr` holds. -/
def target
    (i : I2c cfg σ) : BitVec 16 :=
  (i.txr >>> 1).setWidth 16

/- The first slave whose address is `current_address`. -/
def findSlave
    (i : I2c cfg σ)
    (address : BitVec 16) : Option (I2cSlave cfg σ) :=
  i.slaves.find?
    (fun dev => dev.address.setWidth 16 == address)

/- `device_selected && current_dev`. -/
def selectedDev
    (i : I2c cfg σ) : Option (I2cSlave cfg σ) :=
  if i.deviceSelected = true then i.currentDev else none

end I2c

/-
  The controller with what it drives. `calls` are the calls of
  slaves and `levels` the arguments that `set_pending` got, the
  newest first.
-/
structure I2cWorld
    (cfg : PlicConfig)
    (σ : Type) where
  i2c : I2c cfg σ
  world : SlaveWorld cfg σ
  calls : List SlaveCall
  levels : List Bool

end RiscvEm

------------------------------------------------------------
-- Interrupt
------------------------------------------------------------

namespace RiscvEm

namespace I2cWorld

variable {cfg : PlicConfig}
variable {σ : Type}

def new
    (irqNum : BitVec 32)
    (slaves : List (I2cSlave cfg σ))
    (world : SlaveWorld cfg σ) : I2cWorld cfg σ where
  i2c := .new irqNum slaves
  world := world
  calls := []
  levels := []

def setI2c
    (w : I2cWorld cfg σ)
    (i : I2c cfg σ) : I2cWorld cfg σ :=
  { w with i2c := i }

/- A slave was called, and `world` is what it left. -/
def called
    (w : I2cWorld cfg σ)
    (call : SlaveCall)
    (world : SlaveWorld cfg σ) : I2cWorld cfg σ :=
  { w with world := world, calls := call :: w.calls }

/- `plic->set_pending(irq_num, pending)`. -/
def setPending
    (w : I2cWorld cfg σ)
    (pending : Bool) : Except HostFault (I2cWorld cfg σ) := do
  let plic ← Plic.setPending w.i2c.irqNum pending w.world.plic
  .ok { w with
    world := { w.world with plic := plic }
    levels := pending :: w.levels }

def raiseInterrupt
    (w : I2cWorld cfg σ) : Except HostFault (I2cWorld cfg σ) :=
  if w.i2c.irqEnabled = true ∧ w.i2c.intLine = false then
    (w.setI2c { w.i2c with intLine := true }).setPending true
  else
    .ok w

def lowerInterrupt
    (w : I2cWorld cfg σ) : Except HostFault (I2cWorld cfg σ) :=
  if w.i2c.intLine = true then
    (w.setI2c { w.i2c with intLine := false }).setPending false
  else
    .ok w

end I2cWorld

end RiscvEm

------------------------------------------------------------
-- Commands
------------------------------------------------------------

namespace RiscvEm

namespace I2cWorld

variable {cfg : PlicConfig}
variable {σ : Type}

/- `IACK`: the flag and the line are cleared. -/
def acknowledge
    (w : I2cWorld cfg σ) :
    Except HostFault (I2cWorld cfg σ) :=
  if w.i2c.cr.iack = true then do
    let w ← (w.setI2c { w.i2c with
      sr := { w.i2c.sr with irqFlag := false } }).lowerInterrupt
    .ok (w.setI2c { w.i2c with
      cr := { w.i2c.cr with iack := false } })
  else
    .ok w

/- `STA`: the next byte that is written is an address. -/
def startPhase
    (w : I2cWorld cfg σ) : I2cWorld cfg σ :=
  if w.i2c.cr.sta = true then
    w.setI2c { w.i2c with
      sr := { w.i2c.sr with busy := true }
      currentAddress := 0xFFFF }
  else
    w

/- The written byte selects a slave, and says the direction. -/
def addressPhase
    (w : I2cWorld cfg σ) :
    Except HostFault (I2cWorld cfg σ) :=
  let i := { w.i2c with
    currentAddress := w.i2c.target
    isReadOperation := w.i2c.txr.getLsbD 0
    deviceSelected := false }
  match i.findSlave i.currentAddress with
  | some dev => do
      let world ← dev.startTransmit w.world
      .ok ((w.called (.startTransmit dev.address) world).setI2c
        { i with
          currentDev := some dev
          deviceSelected := true
          sr := { i.sr with rxAck := false } })
  -- `RxACK` keeps the value of the command before
  | none => .ok (w.setI2c i)

/- The written byte is data for the selected slave. -/
def dataWrite
    (w : I2cWorld cfg σ) :
    Except HostFault (I2cWorld cfg σ) :=
  match w.i2c.selectedDev with
  | some dev => do
      let world ← dev.devWrite w.i2c.txr w.world
      .ok ((w.called (.devWrite dev.address w.i2c.txr)
        world).setI2c { w.i2c with
          sr := { w.i2c.sr with tip := true, rxAck := false } })
  | none =>
      .ok (w.setI2c { w.i2c with
        sr := { w.i2c.sr with tip := true, rxAck := true } })

/- `WR`. -/
def writePhase
    (w : I2cWorld cfg σ) :
    Except HostFault (I2cWorld cfg σ) :=
  if w.i2c.cr.wr = true then
    if w.i2c.currentAddress = 0xFFFF then
      w.addressPhase
    else
      w.dataWrite
  else
    .ok w

/- `RD`. -/
def readPhase
    (w : I2cWorld cfg σ) :
    Except HostFault (I2cWorld cfg σ) :=
  if w.i2c.cr.rd = true then
    match w.i2c.selectedDev with
    | some dev => do
        let (value, world) ← dev.devRead w.i2c.cr.ack w.world
        .ok ((w.called (.devRead dev.address w.i2c.cr.ack)
          world).setI2c { w.i2c with
            rxr := value
            sr := { w.i2c.sr with
              tip := true, rxAck := false } })
    | none =>
        .ok (w.setI2c { w.i2c with
          rxr := 0xFF
          sr := { w.i2c.sr with tip := true, rxAck := true } })
  else
    .ok w

/- `STO`: the bus is released. -/
def stopPhase
    (w : I2cWorld cfg σ) :
    Except HostFault (I2cWorld cfg σ) :=
  if w.i2c.cr.sto = true then
    let i := { w.i2c with
      deviceSelected := false
      sr := { w.i2c.sr with busy := false } }
    match w.i2c.selectedDev with
    | some dev => do
        let world ← dev.stopTransmit w.world
        .ok ((w.called (.stopTransmit dev.address) world).setI2c
          i)
    | none => .ok (w.setI2c i)
  else
    .ok w

/- A transfer is complete: set `IF` and ask for the interrupt. -/
def complete
    (w : I2cWorld cfg σ) :
    Except HostFault (I2cWorld cfg σ) :=
  if w.i2c.cr.transfers = true then
    (w.setI2c { w.i2c with
      sr := { w.i2c.sr with
        tip := false, irqFlag := true } }).raiseInterrupt
  else
    .ok w

def executeCommand
    (w : I2cWorld cfg σ) :
    Except HostFault (I2cWorld cfg σ) := do
  let w ← w.acknowledge
  if w.i2c.cr.asks = true then do
    let w ← w.startPhase.writePhase
    let w ← w.readPhase
    let w ← w.stopPhase
    w.complete
  else
    .ok w

/- A command is executed once its delay is over. -/
def tick
    (w : I2cWorld cfg σ) :
    Except HostFault (I2cWorld cfg σ) :=
  if w.i2c.opActive = true then
    let w := w.setI2c { w.i2c with delay := w.i2c.delay + 1 }
    if w.i2c.delay < I2C_RUN_DELAY then
      .ok w
    else do
      let w ← w.executeCommand
      .ok (w.setI2c { w.i2c with opActive := false })
  else
    .ok w

end I2cWorld

end RiscvEm

------------------------------------------------------------
-- Accesses
------------------------------------------------------------

namespace RiscvEm

namespace I2cWorld

variable {cfg : PlicConfig}
variable {σ : Type}

/- The access size is not looked at. -/
def read
    (w : I2cWorld cfg σ)
    (addr : BitVec 64) : BitVec 64 :=
  let offs := addr - I2C_START
  if offs = I2C_REG_PRER_LO then
    w.i2c.prerLo.setWidth 64
  else if offs = I2C_REG_PRER_HI then
    w.i2c.prerHi.setWidth 64
  else if offs = I2C_REG_CTR then
    w.i2c.ctr.setWidth 64
  else if offs = I2C_REG_TXR_RXR then
    w.i2c.rxr.setWidth 64
  else if offs = I2C_REG_CR_SR then
    w.i2c.sr.raw.setWidth 64
  else
    0

/- Write `CTR`; without its enable bit the core is reset. -/
def writeCtr
    (w : I2cWorld cfg σ)
    (value : BitVec 8) :
    Except HostFault (I2cWorld cfg σ) :=
  let w := w.setI2c { w.i2c with ctr := value }
  if w.i2c.enabled = true then
    .ok w
  else
    (w.setI2c { w.i2c with
      sr := .zero
      deviceSelected := false
      currentAddress := 0xFFFF }).lowerInterrupt

/- Write `CR`: the command waits for its delay. -/
def writeCr
    (w : I2cWorld cfg σ)
    (value : BitVec 8) : I2cWorld cfg σ :=
  if w.i2c.enabled = true then
    w.setI2c { w.i2c with
      cr := .ofRaw value
      opActive := true
      delay := 0
      sr := { w.i2c.sr with tip := true, irqFlag := false } }
  else
    w

def write
    (w : I2cWorld cfg σ)
    (addr value : BitVec 64) :
    Except HostFault (I2cWorld cfg σ) :=
  let offs := addr - I2C_START
  let byte := value.setWidth 8
  if offs = I2C_REG_PRER_LO then
    .ok (w.setI2c { w.i2c with prerLo := byte })
  else if offs = I2C_REG_PRER_HI then
    .ok (w.setI2c { w.i2c with prerHi := byte })
  else if offs = I2C_REG_CTR then
    w.writeCtr byte
  else if offs = I2C_REG_TXR_RXR then
    .ok (w.setI2c { w.i2c with txr := byte })
  else if offs = I2C_REG_CR_SR then
    .ok (w.writeCr byte)
  else
    .ok w

end I2cWorld

end RiscvEm

------------------------------------------------------------
-- Runs
------------------------------------------------------------

namespace RiscvEm

variable {cfg : PlicConfig}
variable {σ : Type}

/-
  What happens to the controller: the guest accesses a
  register, time passes, or others use the slaves and the
  interrupt controller.
-/
inductive I2cOp
    (cfg : PlicConfig)
    (σ : Type) where
  | read (addr : BitVec 64)
  | write (addr value : BitVec 64)
  | tick
  | others (world : SlaveWorld cfg σ)

def I2cOp.exec
    (op : I2cOp cfg σ)
    (w : I2cWorld cfg σ) :
    Except HostFault (I2cWorld cfg σ) :=
  match op with
  | .read _ => .ok w
  | .write addr value => w.write addr value
  | .tick => w.tick
  | .others world => .ok { w with world := world }

/- An operation with the states around it. -/
structure I2cStep
    (cfg : PlicConfig)
    (σ : Type) where
  before : I2cWorld cfg σ
  op : I2cOp cfg σ
  after : I2cWorld cfg σ

/- A run of the controller, newest operation first. -/
inductive I2cRun
    (w : I2cWorld cfg σ) :
    List (I2cStep cfg σ) → I2cWorld cfg σ → Prop
  | refl : I2cRun w [] w
  | step {ts : List (I2cStep cfg σ)} {w₁ w₂ : I2cWorld cfg σ}
      {op : I2cOp cfg σ} :
      I2cRun w ts w₁ → op.exec w₁ = .ok w₂ →
      I2cRun w (⟨w₁, op, w₂⟩ :: ts) w₂

/- Execute operations, of which the newest comes first. -/
def runI2cOps
    (w : I2cWorld cfg σ) :
    List (I2cOp cfg σ) → Except HostFault (I2cWorld cfg σ)
  | [] => .ok w
  | op :: ops => do
      let w ← runI2cOps w ops
      op.exec w

/- Operations that execute one after the other are a run. -/
theorem i2cRun_of_runI2cOps
    {w w' : I2cWorld cfg σ}
    {ops : List (I2cOp cfg σ)}
    (h : runI2cOps w ops = .ok w') :
    ∃ ts, I2cRun w ts w' ∧ ts.map I2cStep.op = ops := by
  induction ops generalizing w' with
  | nil =>
      cases h
      exact ⟨[], .refl, rfl⟩
  | cons op ops ih =>
      rcases bind_eq_ok.mp h with ⟨w₁, hOps, hExec⟩
      rcases ih hOps with ⟨ts, hRun, hMap⟩
      exact ⟨_, hRun.step hExec, by rw [List.map_cons, hMap]⟩

/- A run executes its own operations again. -/
theorem I2cRun.runI2cOps_eq
    {w w' : I2cWorld cfg σ}
    {ts : List (I2cStep cfg σ)}
    (h : I2cRun w ts w') :
    runI2cOps w (ts.map I2cStep.op) = .ok w' := by
  induction h with
  | refl => rfl
  | step _ hExec ih =>
      rw [List.map_cons]
      unfold runI2cOps
      rw [ih]
      exact hExec

/- A check of the state before each of the operations. -/
def checkI2cOps
    (check : I2cWorld cfg σ → Bool)
    (w : I2cWorld cfg σ) :
    List (I2cOp cfg σ) → Bool
  | [] => true
  | _ :: ops =>
      checkI2cOps check w ops &&
        (runI2cOps w ops).toOption.all check

/- A check that every prefix passes holds before each step. -/
theorem I2cRun.checked
    {check : I2cWorld cfg σ → Bool}
    {w w' : I2cWorld cfg σ}
    {ts : List (I2cStep cfg σ)}
    (hRun : I2cRun w ts w')
    (h : checkI2cOps check w (ts.map I2cStep.op) = true) :
    ∀ t ∈ ts, check t.before = true := by
  induction hRun with
  | refl => exact fun t hMem => absurd hMem List.not_mem_nil
  | step hBefore hExec ih =>
      rw [List.map_cons] at h
      unfold checkI2cOps at h
      rw [hBefore.runI2cOps_eq, Bool.and_eq_true] at h
      intro t hMem
      rcases List.mem_cons.mp hMem with rfl | hMem
      · exact h.2
      · exact ih h.1 t hMem

/- The step executes the command that waited. -/
def I2cStep.Executes
    (t : I2cStep cfg σ) : Prop :=
  t.op = .tick ∧ t.before.i2c.opActive = true ∧
    I2C_RUN_DELAY ≤ t.before.i2c.delay + 1

end RiscvEm

------------------------------------------------------------
-- What A Phase Can Do
------------------------------------------------------------

namespace RiscvEm

namespace I2cWorld

variable {cfg : PlicConfig}
variable {σ : Type}
variable {w w' : I2cWorld cfg σ}

/- Setting the pin records its level. -/
theorem setPending_cases
    {pending : Bool}
    (h : w.setPending pending = .ok w') :
    ∃ plic, w' = { w with
      world := { w.world with plic := plic }
      levels := pending :: w.levels } := by
  rcases bind_eq_ok.mp h with ⟨plic, -, hEq⟩
  cases hEq
  exact ⟨plic, rfl⟩

/- Lowering the line changes nothing else of the controller. -/
theorem lowerInterrupt_cases
    (h : w.lowerInterrupt = .ok w') :
    ∃ world levels, w' = { w with
      i2c := { w.i2c with intLine := false }
      world := world
      levels := levels } := by
  unfold lowerInterrupt at h
  split at h
  case isTrue =>
    rcases setPending_cases h with ⟨plic, rfl⟩
    exact ⟨_, _, rfl⟩
  case isFalse hDown =>
    cases h
    rw [Bool.not_eq_true] at hDown
    exact ⟨w.world, w.levels, by rw [← hDown]⟩

/-
  An acknowledgement touches `IACK`, `IF` and the line only.
-/
theorem acknowledge_cases
    (h : w.acknowledge = .ok w') :
    ∃ iack irqFlag intLine world levels, w' = { w with
      i2c := { w.i2c with
        cr := { w.i2c.cr with iack := iack }
        sr := { w.i2c.sr with irqFlag := irqFlag }
        intLine := intLine }
      world := world
      levels := levels } := by
  unfold acknowledge at h
  split at h
  case isTrue =>
    rcases bind_eq_ok.mp h with ⟨w₁, hLower, hEq⟩
    rcases lowerInterrupt_cases hLower with
      ⟨world, levels, rfl⟩
    cases hEq
    exact ⟨_, _, _, _, _, rfl⟩
  case isFalse =>
    cases h
    exact ⟨_, _, _, _, _, rfl⟩

/-
  The address selects the first slave that has it, or none.
-/
theorem addressPhase_cases
    (h : w.addressPhase = .ok w') :
    (∃ dev world, w.i2c.findSlave w.i2c.target = some dev ∧
      w' = (w.called (.startTransmit dev.address) world).setI2c
        { w.i2c with
          currentAddress := w.i2c.target
          isReadOperation := w.i2c.txr.getLsbD 0
          currentDev := some dev
          deviceSelected := true
          sr := { w.i2c.sr with rxAck := false } }) ∨
      w.i2c.findSlave w.i2c.target = none ∧
        w' = w.setI2c { w.i2c with
          currentAddress := w.i2c.target
          isReadOperation := w.i2c.txr.getLsbD 0
          deviceSelected := false } := by
  unfold addressPhase at h
  dsimp only at h
  split at h
  case h_1 dev hFind =>
    rcases bind_eq_ok.mp h with ⟨world, -, hEq⟩
    cases hEq
    exact Or.inl ⟨dev, world, hFind, rfl⟩
  case h_2 hFind =>
    cases h
    exact Or.inr ⟨hFind, rfl⟩

/-
  A byte goes to the selected slave, or is not acknowledged.
-/
theorem dataWrite_cases
    (h : w.dataWrite = .ok w') :
    (∃ dev world, w.i2c.selectedDev = some dev ∧
      w' = (w.called (.devWrite dev.address w.i2c.txr)
        world).setI2c { w.i2c with
          sr := { w.i2c.sr with tip := true, rxAck := false } }) ∨
      w.i2c.selectedDev = none ∧
        w' = w.setI2c { w.i2c with
          sr := { w.i2c.sr with
            tip := true, rxAck := true } } := by
  unfold dataWrite at h
  split at h
  case h_1 dev hSelected =>
    rcases bind_eq_ok.mp h with ⟨world, -, hEq⟩
    cases hEq
    exact Or.inl ⟨dev, world, hSelected, rfl⟩
  case h_2 hNone =>
    cases h
    exact Or.inr ⟨hNone, rfl⟩

/- A byte is read from the selected slave, or nothing is. -/
theorem readPhase_cases
    (hRd : w.i2c.cr.rd = true)
    (h : w.readPhase = .ok w') :
    (∃ dev value world, w.i2c.selectedDev = some dev ∧
      w' = (w.called (.devRead dev.address w.i2c.cr.ack)
        world).setI2c { w.i2c with
          rxr := value
          sr := { w.i2c.sr with tip := true, rxAck := false } }) ∨
      w.i2c.selectedDev = none ∧
        w' = w.setI2c { w.i2c with
          rxr := 0xFF
          sr := { w.i2c.sr with
            tip := true, rxAck := true } } := by
  unfold readPhase at h
  rw [if_pos hRd] at h
  split at h
  case h_1 dev hSelected =>
    rcases bind_eq_ok.mp h with ⟨⟨value, world⟩, -, hEq⟩
    cases hEq
    exact Or.inl ⟨dev, value, world, hSelected, rfl⟩
  case h_2 hNone =>
    cases h
    exact Or.inr ⟨hNone, rfl⟩

theorem readPhase_skip
    (hRd : ¬ w.i2c.cr.rd = true)
    (h : w.readPhase = .ok w') :
    w' = w := by
  unfold readPhase at h
  rw [if_neg hRd] at h
  cases h
  rfl

/- A STOP deselects the slave that was selected. -/
theorem stopPhase_cases
    (hSto : w.i2c.cr.sto = true)
    (h : w.stopPhase = .ok w') :
    (∃ dev world, w.i2c.selectedDev = some dev ∧
      w' = (w.called (.stopTransmit dev.address) world).setI2c
        { w.i2c with
          deviceSelected := false
          sr := { w.i2c.sr with busy := false } }) ∨
      w.i2c.selectedDev = none ∧
        w' = w.setI2c { w.i2c with
          deviceSelected := false
          sr := { w.i2c.sr with busy := false } } := by
  unfold stopPhase at h
  rw [if_pos hSto] at h
  dsimp only at h
  split at h
  case h_1 dev hSelected =>
    rcases bind_eq_ok.mp h with ⟨world, -, hEq⟩
    cases hEq
    exact Or.inl ⟨dev, world, hSelected, rfl⟩
  case h_2 hNone =>
    cases h
    exact Or.inr ⟨hNone, rfl⟩

theorem stopPhase_skip
    (hSto : ¬ w.i2c.cr.sto = true)
    (h : w.stopPhase = .ok w') :
    w' = w := by
  unfold stopPhase at h
  rw [if_neg hSto] at h
  cases h
  rfl

end I2cWorld

end RiscvEm

------------------------------------------------------------
-- What The Phases On The Bus Keep
------------------------------------------------------------

namespace RiscvEm

variable {cfg : PlicConfig}
variable {σ : Type}

/- What the interrupt of the controller depends on. -/
structure I2cLine where
  irqEnabled : Bool
  irqFlag : Bool
  intLine : Bool
  opActive : Bool
  levels : List Bool

namespace I2cWorld

def line
    (w : I2cWorld cfg σ) : I2cLine where
  irqEnabled := w.i2c.irqEnabled
  irqFlag := w.i2c.sr.irqFlag
  intLine := w.i2c.intLine
  opActive := w.i2c.opActive
  levels := w.levels

/- A phase changes neither the command nor the interrupt. -/
structure OnBus
    (w w' : I2cWorld cfg σ) : Prop where
  cr : w'.i2c.cr = w.i2c.cr
  line : w'.line = w.line

variable {w w₁ w' : I2cWorld cfg σ}

/- Two phases change neither, one after the other. -/
theorem OnBus.trans
    (h₁ : OnBus w w₁)
    (h₂ : OnBus w₁ w') :
    OnBus w w' :=
  ⟨h₂.cr.trans h₁.cr, h₂.line.trans h₁.line⟩

/- A START changes neither the command nor the interrupt. -/
theorem startPhase_onBus :
    OnBus w w.startPhase := by
  unfold startPhase
  split
  · exact ⟨rfl, rfl⟩
  · exact ⟨rfl, rfl⟩

/- Sending a byte changes neither. -/
theorem writePhase_onBus
    (h : w.writePhase = .ok w') :
    OnBus w w' := by
  unfold writePhase at h
  split at h
  · split at h
    · rcases addressPhase_cases h with
        ⟨_, _, -, rfl⟩ | ⟨-, rfl⟩
      · exact ⟨rfl, rfl⟩
      · exact ⟨rfl, rfl⟩
    · rcases dataWrite_cases h with
        ⟨_, _, -, rfl⟩ | ⟨-, rfl⟩
      · exact ⟨rfl, rfl⟩
      · exact ⟨rfl, rfl⟩
  · cases h
    exact ⟨rfl, rfl⟩

/- Reading a byte changes neither. -/
theorem readPhase_onBus
    (h : w.readPhase = .ok w') :
    OnBus w w' := by
  by_cases hRd : w.i2c.cr.rd = true
  · rcases readPhase_cases hRd h with
      ⟨_, _, _, -, rfl⟩ | ⟨-, rfl⟩
    · exact ⟨rfl, rfl⟩
    · exact ⟨rfl, rfl⟩
  · rw [readPhase_skip hRd h]
    exact ⟨rfl, rfl⟩

/- A STOP changes neither. -/
theorem stopPhase_onBus
    (h : w.stopPhase = .ok w') :
    OnBus w w' := by
  by_cases hSto : w.i2c.cr.sto = true
  · rcases stopPhase_cases hSto h with
      ⟨_, _, -, rfl⟩ | ⟨-, rfl⟩
    · exact ⟨rfl, rfl⟩
    · exact ⟨rfl, rfl⟩
  · rw [stopPhase_skip hSto h]
    exact ⟨rfl, rfl⟩

end I2cWorld

end RiscvEm
