import RiscvEm.Devices.I2cInterrupt

/-
  Whether `RxACK` tells the driver the truth about the slave
  that it addresses.

  The bus is followed beside the controller: a START begins a
  transaction, the byte after it addresses a slave, and a STOP
  ends it. The controller keeps `RxACK` when no slave answers,
  and keeps a selected slave across a START.

  Key definitions include:
    * `I2cBus`
    * `I2cLink.command`
    * `I2cStep.Truthful`
    * `I2cStep.Careful`

  Key theorems include `i2c_acknowledge_truthful_iff`.
-/

------------------------------------------------------------
-- The Bus
------------------------------------------------------------

namespace RiscvEm

/-
  The transaction on the bus: none, one whose address is still
  to come, or one whose address a slave answered or not.
-/
inductive I2cBus where
  | idle
  | begun
  | addressed (acked : Bool)
  deriving DecidableEq

namespace I2cBus

def start
    (b : I2cBus)
    (cr : I2cCr) : I2cBus :=
  if cr.sta = true then .begun else b

/- The first byte after a START is the address. -/
def address
    (b : I2cBus)
    (cr : I2cCr)
    (acked : Bool) : I2cBus :=
  if cr.wr = true ∧ b = .begun then .addressed acked else b

def stop
    (b : I2cBus)
    (cr : I2cCr) : I2cBus :=
  if cr.sto = true then .idle else b

def command
    (b : I2cBus)
    (cr : I2cCr)
    (acked : Bool) : I2cBus :=
  ((b.start cr).address cr acked).stop cr

end I2cBus

end RiscvEm

------------------------------------------------------------
-- The Controller On The Bus
------------------------------------------------------------

namespace RiscvEm

/- What the controller knows of its bus. -/
structure I2cLink
    (cfg : PlicConfig)
    (σ : Type) where
  slaves : List (I2cSlave cfg σ)
  txr : BitVec 8
  currentAddress : BitVec 16
  selected : Option (I2cSlave cfg σ)
  rxAck : Bool
  calls : List SlaveCall

variable {cfg : PlicConfig}
variable {σ : Type}

namespace I2cLink

/- Some slave has the address that `txr` holds. -/
def Answered
    (l : I2cLink cfg σ) : Prop :=
  ∃ dev ∈ l.slaves, dev.address = l.txr >>> 1

instance
    (l : I2cLink cfg σ) :
    Decidable l.Answered :=
  inferInstanceAs (Decidable (∃ _ ∈ _, _))

def target
    (l : I2cLink cfg σ) : BitVec 16 :=
  (l.txr >>> 1).setWidth 16

def answering
    (l : I2cLink cfg σ) : Option (I2cSlave cfg σ) :=
  l.slaves.find?
    (fun dev => dev.address.setWidth 16 == l.target)

def start
    (l : I2cLink cfg σ)
    (cr : I2cCr) : I2cLink cfg σ :=
  if cr.sta = true then
    { l with currentAddress := 0xFFFF }
  else
    l

def address
    (l : I2cLink cfg σ) : I2cLink cfg σ :=
  match l.answering with
  | some dev =>
      { l with
        currentAddress := l.target
        selected := some dev
        rxAck := false
        calls := .startTransmit dev.address :: l.calls }
  | none =>
      { l with currentAddress := l.target, selected := none }

def send
    (l : I2cLink cfg σ) : I2cLink cfg σ :=
  match l.selected with
  | some dev =>
      { l with
        rxAck := false
        calls := .devWrite dev.address l.txr :: l.calls }
  | none => { l with rxAck := true }

def write
    (l : I2cLink cfg σ)
    (cr : I2cCr) : I2cLink cfg σ :=
  if cr.wr = true then
    if l.currentAddress = 0xFFFF then l.address else l.send
  else
    l

def read
    (l : I2cLink cfg σ)
    (cr : I2cCr) : I2cLink cfg σ :=
  if cr.rd = true then
    match l.selected with
    | some dev =>
        { l with
          rxAck := false
          calls := .devRead dev.address cr.ack :: l.calls }
    | none => { l with rxAck := true }
  else
    l

def stop
    (l : I2cLink cfg σ)
    (cr : I2cCr) : I2cLink cfg σ :=
  if cr.sto = true then
    match l.selected with
    | some dev =>
        { l with
          selected := none
          calls := .stopTransmit dev.address :: l.calls }
    | none => l
  else
    l

def command
    (l : I2cLink cfg σ)
    (cr : I2cCr) : I2cLink cfg σ :=
  (((l.start cr).write cr).read cr).stop cr

variable {l : I2cLink cfg σ}
variable {cr : I2cCr}
variable {dev : I2cSlave cfg σ}

/- The slave that answers is selected. -/
theorem address_some
    (h : l.answering = some dev) :
    l.address = { l with
      currentAddress := l.target
      selected := some dev
      rxAck := false
      calls := .startTransmit dev.address :: l.calls } := by
  unfold address
  rw [h]

/- An address that no slave has leaves `RxACK` as it is. -/
theorem address_none
    (h : l.answering = none) :
    l.address = { l with
      currentAddress := l.target, selected := none } := by
  unfold address
  rw [h]

/- A byte for the selected slave is acknowledged. -/
theorem send_some
    (h : l.selected = some dev) :
    l.send = { l with
      rxAck := false
      calls := .devWrite dev.address l.txr :: l.calls } := by
  unfold send
  rw [h]

/- A byte that is sent to nobody is not acknowledged. -/
theorem send_none
    (h : l.selected = none) :
    l.send = { l with rxAck := true } := by
  unfold send
  rw [h]

/- The selected slave is read. -/
theorem read_some
    (hRd : cr.rd = true)
    (h : l.selected = some dev) :
    l.read cr = { l with
      rxAck := false
      calls := .devRead dev.address cr.ack :: l.calls } := by
  unfold read
  rw [if_pos hRd, h]

/- A read without a slave is not acknowledged. -/
theorem read_none
    (hRd : cr.rd = true)
    (h : l.selected = none) :
    l.read cr = { l with rxAck := true } := by
  unfold read
  rw [if_pos hRd, h]

/- A STOP deselects the slave. -/
theorem stop_some
    (hSto : cr.sto = true)
    (h : l.selected = some dev) :
    l.stop cr = { l with
      selected := none
      calls := .stopTransmit dev.address :: l.calls } := by
  unfold stop
  rw [if_pos hSto, h]

/- A STOP without a slave does nothing. -/
theorem stop_none
    (h : l.selected = none) :
    l.stop cr = l := by
  unfold stop
  split
  · rw [h]
  · rfl

end I2cLink

namespace I2cWorld

variable {w w' : I2cWorld cfg σ}

def link
    (w : I2cWorld cfg σ) : I2cLink cfg σ where
  slaves := w.i2c.slaves
  txr := w.i2c.txr
  currentAddress := w.i2c.currentAddress
  selected := w.i2c.selectedDev
  rxAck := w.i2c.sr.rxAck
  calls := w.calls

/- An acknowledgement does not reach the bus. -/
theorem acknowledge_link
    (h : w.acknowledge = .ok w') :
    w'.link = w.link ∧
      ∃ iack, w'.i2c.cr = { w.i2c.cr with iack := iack } := by
  rcases acknowledge_cases h with ⟨iack, _, _, _, _, rfl⟩
  exact ⟨rfl, iack, rfl⟩

/- The START, as the bus sees it. -/
theorem startPhase_link :
    w.startPhase.link = w.link.start w.i2c.cr := by
  unfold startPhase I2cLink.start
  split
  · rfl
  · rfl

/- The controller sends an address as the link does. -/
theorem addressPhase_link
    (h : w.addressPhase = .ok w') :
    w'.link = w.link.address := by
  rcases addressPhase_cases h with
    ⟨dev, world, hFind, rfl⟩ | ⟨hFind, rfl⟩
  · rw [I2cLink.address_some (l := w.link) hFind]
    rfl
  · rw [I2cLink.address_none (l := w.link) hFind]
    rfl

/- It sends a byte as the link does. -/
theorem dataWrite_link
    (h : w.dataWrite = .ok w') :
    w'.link = w.link.send := by
  rcases dataWrite_cases h with
    ⟨dev, world, hSelected, rfl⟩ | ⟨hSelected, rfl⟩
  · rw [I2cLink.send_some (l := w.link) hSelected]
    rfl
  · rw [I2cLink.send_none (l := w.link) hSelected]
    rfl

/- Either way it writes as the link does. -/
theorem writePhase_link
    (h : w.writePhase = .ok w') :
    w'.link = w.link.write w.i2c.cr := by
  unfold writePhase at h
  unfold I2cLink.write
  split at h
  case isTrue hWr =>
    rw [if_pos hWr]
    split at h
    case isTrue hAddress =>
      rw [addressPhase_link h]
      exact (if_pos hAddress).symm
    case isFalse hAddress =>
      rw [dataWrite_link h]
      exact (if_neg hAddress).symm
  case isFalse hWr =>
    cases h
    exact (if_neg hWr).symm

/- It reads a byte as the link does. -/
theorem readPhase_link
    (h : w.readPhase = .ok w') :
    w'.link = w.link.read w.i2c.cr := by
  by_cases hRd : w.i2c.cr.rd = true
  · rcases readPhase_cases hRd h with
      ⟨dev, value, world, hSelected, rfl⟩ | ⟨hSelected, rfl⟩
    · rw [I2cLink.read_some (l := w.link) hRd hSelected]
      rfl
    · rw [I2cLink.read_none (l := w.link) hRd hSelected]
      rfl
  · rw [readPhase_skip hRd h]
    exact (if_neg hRd).symm

/- It sends a STOP as the link does. -/
theorem stopPhase_link
    (h : w.stopPhase = .ok w') :
    w'.link = w.link.stop w.i2c.cr := by
  by_cases hSto : w.i2c.cr.sto = true
  · rcases stopPhase_cases hSto h with
      ⟨dev, world, hSelected, rfl⟩ | ⟨hSelected, rfl⟩
    · rw [I2cLink.stop_some (l := w.link) hSto hSelected]
      rfl
    · have hNone : w.link.selected = none := hSelected
      rw [I2cLink.stop_none hNone]
      exact congrArg
        (fun dev => { w.link with selected := dev }) hNone.symm
  · rw [stopPhase_skip hSto h]
    exact (if_neg hSto).symm

/- A completion does not reach the bus. -/
theorem complete_link
    (h : w.complete = .ok w') :
    w'.link = w.link := by
  unfold complete raiseInterrupt at h
  split at h
  · split at h
    · rcases setPending_cases h with ⟨plic, rfl⟩
      rfl
    · cases h
      rfl
  · cases h
    rfl

/- The link goes through a command as the controller does. -/
theorem executeCommand_link
    (h : w.executeCommand = .ok w') :
    w'.link = w.link.command w.i2c.cr := by
  rcases bind_eq_ok.mp h with ⟨w₁, hAck, hRest⟩
  rcases acknowledge_link hAck with ⟨hLink, iack, hCr⟩
  have hSame : w.link.command w.i2c.cr =
      w₁.link.command w₁.i2c.cr := by
    rw [hLink, hCr]
    rfl
  rw [hSame]
  split at hRest
  case isTrue =>
    rcases bind_eq_ok.mp hRest with ⟨w₂, hWrite, hRest⟩
    rcases bind_eq_ok.mp hRest with ⟨w₃, hRead, hRest⟩
    rcases bind_eq_ok.mp hRest with ⟨w₄, hStop, hComplete⟩
    have hStart := (startPhase_onBus (w := w₁)).cr
    have hWritten := (writePhase_onBus hWrite).cr
    have hReadCr := (readPhase_onBus hRead).cr
    rw [complete_link hComplete, stopPhase_link hStop,
      readPhase_link hRead, writePhase_link hWrite,
      startPhase_link, hReadCr, hWritten, hStart]
    rfl
  case isFalse hNothing =>
    cases hRest
    -- none of the phases has anything to do
    simp only [I2cCr.asks, Bool.or_eq_true, not_or] at hNothing
    rcases hNothing with ⟨⟨⟨hSta, hSto⟩, hRd⟩, hWr⟩
    unfold I2cLink.command I2cLink.start I2cLink.write
      I2cLink.read I2cLink.stop
    rw [if_neg hSta, if_neg hWr, if_neg hRd, if_neg hSto]

end I2cWorld

end RiscvEm

------------------------------------------------------------
-- Truthful Commands
------------------------------------------------------------

namespace RiscvEm

variable {cfg : PlicConfig}
variable {σ : Type}

/-
  What a command owes its driver, with the bus as it was
  before: `RxACK` after an address tells whether a slave has
  it, after data whether the transaction selected one, and
  without a selected slave none is called.
-/
structure I2cLink.Truthful
    (l l' : I2cLink cfg σ)
    (cr : I2cCr)
    (b : I2cBus) : Prop where
  address : cr.wr = true → b.start cr = .begun →
    (l'.rxAck = false ↔ l.Answered)
  data : (cr.wr = true ∧ b.start cr ≠ .begun) ∨ cr.rd = true →
    (l'.rxAck = false ↔
      (b.start cr).address cr l.Answered = .addressed true)
  silent :
    (b.start cr).address cr l.Answered ≠ .addressed true →
      l'.calls = l.calls

/- The controller takes the byte that is written as address. -/
def I2cLink.Addresses
    (l : I2cLink cfg σ)
    (cr : I2cCr) : Prop :=
  cr.wr = true ∧ (cr.sta = true ∨ l.currentAddress = 0xFFFF)

/-
  A command that is safe to execute: an address that no slave
  has is not sent while `RxACK` is clear, nor is one sent
  without a START, and no slave of an earlier transaction is
  still selected.
-/
structure I2cLink.Careful
    (l : I2cLink cfg σ)
    (cr : I2cCr)
    (b : I2cBus) : Prop where
  address : l.Addresses cr → b.start cr = .begun →
    l.Answered ∨ l.rxAck = true ∨ cr.rd = true
  noStart : l.Addresses cr → b.start cr ≠ .begun →
    ¬ l.Answered ∧ (l.rxAck = true ∨ cr.rd = true)
  stale : ¬ l.Addresses cr → cr.transfers = true →
    l.selected.isSome = true → b.start cr = .addressed true

/- The controller knows which transaction is on the bus. -/
structure I2cLink.Follows
    (l : I2cLink cfg σ)
    (b : I2cBus) : Prop where
  begun : b = .begun → l.currentAddress = 0xFFFF
  addressed : ∀ acked, b = .addressed acked →
    l.currentAddress ≠ 0xFFFF ∧ l.selected.isSome = acked

end RiscvEm

------------------------------------------------------------
-- The Parts Of A Command
------------------------------------------------------------

namespace RiscvEm

variable {cfg : PlicConfig}
variable {σ : Type}

namespace I2cLink

variable {l : I2cLink cfg σ}
variable {cr : I2cCr}
variable {dev : I2cSlave cfg σ}

/- Addresses of eight bits are compared as sixteen. -/
theorem setWidth_inj
    (a b : BitVec 8) :
    a.setWidth 16 = b.setWidth 16 ↔ a = b := by
  constructor
  · intro h
    have hBack := congrArg (BitVec.setWidth 8) h
    rwa [BitVec.setWidth_setWidth_of_le a (by decide),
      BitVec.setWidth_setWidth_of_le b (by decide),
      BitVec.setWidth_eq, BitVec.setWidth_eq] at hBack
  · exact congrArg (BitVec.setWidth 16)

/- A slave is found exactly if one has the address. -/
theorem answering_isSome :
    l.answering.isSome = true ↔ l.Answered := by
  unfold answering Answered
  rw [List.find?_isSome]
  simp only [beq_iff_eq, target, setWidth_inj]

/- An address has seven bits. -/
theorem target_ne :
    l.target ≠ 0xFFFF := by
  intro h
  have hNat := congrArg BitVec.toNat h
  unfold target at hNat
  rw [BitVec.toNat_setWidth] at hNat
  have hLt := (l.txr >>> 1).isLt
  have hMod : (l.txr >>> 1).toNat % 2 ^ 16 =
      (l.txr >>> 1).toNat :=
    Nat.mod_eq_of_lt (by omega)
  rw [hMod] at hNat
  have hAll : (0xFFFF : BitVec 16).toNat = 65535 := rfl
  omega

/- Reading keeps the selection. -/
theorem read_selected :
    (l.read cr).selected = l.selected ∧
      (l.read cr).currentAddress = l.currentAddress := by
  unfold read
  split
  · split
    · exact ⟨rfl, rfl⟩
    · exact ⟨rfl, rfl⟩
  · exact ⟨rfl, rfl⟩

/- Sending keeps the slave and the address. -/
theorem send_selected :
    l.send.selected = l.selected ∧
      l.send.currentAddress = l.currentAddress := by
  unfold send
  split
  · exact ⟨rfl, rfl⟩
  · exact ⟨rfl, rfl⟩

/- A STOP keeps `RxACK` and the address. -/
theorem stop_kept :
    (l.stop cr).rxAck = l.rxAck ∧
      (l.stop cr).currentAddress = l.currentAddress := by
  unfold stop
  split
  · split
    · exact ⟨rfl, rfl⟩
    · exact ⟨rfl, rfl⟩
  · exact ⟨rfl, rfl⟩

/- A read makes one call. -/
theorem read_length
    (h : l.selected = some dev) :
    (l.read cr).calls.length =
      l.calls.length + cr.rd.toNat := by
  by_cases hRd : cr.rd = true
  · rw [read_some hRd h, hRd]
    rfl
  · have hSkip : l.read cr = l := if_neg hRd
    rw [Bool.not_eq_true] at hRd
    rw [hSkip, hRd]
    rfl

/- A STOP makes one call. -/
theorem stop_length
    (h : l.selected = some dev) :
    (l.stop cr).calls.length =
      l.calls.length + cr.sto.toNat := by
  by_cases hSto : cr.sto = true
  · rw [stop_some hSto h, hSto]
    rfl
  · have hSkip : l.stop cr = l := if_neg hSto
    rw [Bool.not_eq_true] at hSto
    rw [hSkip, hSto]
    rfl

/- What `RD` and `STO` do with a slave, and without one. -/
theorem rest_some
    (cr : I2cCr)
    (h : l.selected = some dev) :
    ((l.read cr).stop cr).rxAck = (!cr.rd && l.rxAck) ∧
      ((l.read cr).stop cr).calls.length =
        l.calls.length + cr.rd.toNat + cr.sto.toNat := by
  constructor
  · rw [stop_kept.1]
    by_cases hRd : cr.rd = true
    · rw [read_some hRd h, hRd]
      rfl
    · have hSkip : l.read cr = l := if_neg hRd
      rw [Bool.not_eq_true] at hRd
      rw [hSkip, hRd]
      rfl
  · rw [stop_length (read_selected.1.trans h), read_length h]

/- Without a slave no call is made. -/
theorem rest_none
    (cr : I2cCr)
    (h : l.selected = none) :
    ((l.read cr).stop cr).rxAck = (cr.rd || l.rxAck) ∧
      ((l.read cr).stop cr).calls = l.calls := by
  have hRead : (l.read cr).selected = none :=
    read_selected.1.trans h
  rw [stop_none hRead]
  by_cases hRd : cr.rd = true
  · rw [read_none hRd h, hRd]
    exact ⟨rfl, rfl⟩
  · have hSkip : l.read cr = l := if_neg hRd
    rw [Bool.not_eq_true] at hRd
    rw [hSkip, hRd]
    exact ⟨rfl, rfl⟩

end I2cLink

end RiscvEm

------------------------------------------------------------
-- One Command
------------------------------------------------------------

namespace RiscvEm

variable {cfg : PlicConfig}
variable {σ : Type}

namespace I2cLink

variable {l : I2cLink cfg σ}
variable {cr : I2cCr}
variable {b : I2cBus}

/- A START changes the address only. -/
theorem start_fields
    (l : I2cLink cfg σ)
    (cr : I2cCr) :
    (l.start cr).slaves = l.slaves ∧
      (l.start cr).txr = l.txr ∧
      (l.start cr).selected = l.selected ∧
      (l.start cr).rxAck = l.rxAck ∧
      (l.start cr).calls = l.calls := by
  unfold start
  split
  · exact ⟨rfl, rfl, rfl, rfl, rfl⟩
  · exact ⟨rfl, rfl, rfl, rfl, rfl⟩

/- Who would answer is not among it. -/
theorem start_answered :
    (l.start cr).Answered ↔ l.Answered := by
  unfold Answered
  rw [(start_fields l cr).1, (start_fields l cr).2.1]

/-
  After a START, or without a transaction, a byte is an
  address.
-/
theorem start_currentAddress :
    (l.start cr).currentAddress = 0xFFFF ↔
      cr.sta = true ∨ l.currentAddress = 0xFFFF := by
  unfold start
  split
  case isTrue hSta => exact iff_of_true rfl (Or.inl hSta)
  case isFalse hSta =>
    exact ⟨Or.inr, fun h => h.resolve_left hSta⟩

/- A START begins a transaction for both. -/
theorem Follows.start
    (h : l.Follows b) :
    (l.start cr).Follows (b.start cr) := by
  unfold I2cLink.start I2cBus.start
  split
  · exact ⟨fun _ => rfl, fun _ hEq => I2cBus.noConfusion hEq⟩
  · exact h

/- `WR` when the controller takes the byte as address. -/
theorem write_address
    (h : l.Addresses cr) :
    (l.start cr).write cr = (l.start cr).address := by
  unfold write
  rw [if_pos h.1, if_pos (start_currentAddress.mpr h.2)]

/- Otherwise the byte goes to the selected slave. -/
theorem write_send
    (h : ¬ l.Addresses cr)
    (hWr : cr.wr = true) :
    (l.start cr).write cr = (l.start cr).send := by
  have hNot : ¬ (l.start cr).currentAddress = 0xFFFF :=
    fun hEq => h ⟨hWr, start_currentAddress.mp hEq⟩
  unfold write
  rw [if_pos hWr, if_neg hNot]

/- Without a write the link is as the START left it. -/
theorem write_skip
    (hWr : ¬ cr.wr = true) :
    (l.start cr).write cr = l.start cr :=
  if_neg hWr

/- An address is sent, and some slave has it. -/
theorem command_answered
    (h : l.Addresses cr)
    (hAnswered : l.Answered) :
    (l.command cr).rxAck = false ∧
      (l.command cr).calls.length =
        l.calls.length + 1 + cr.rd.toNat + cr.sto.toNat := by
  have hSome : (l.start cr).answering.isSome = true :=
    answering_isSome.mpr (start_answered.mpr hAnswered)
  rcases Option.isSome_iff_exists.mp hSome with ⟨dev, hDev⟩
  unfold command
  rw [write_address h, address_some hDev]
  rcases rest_some (l := { l.start cr with
    currentAddress := (l.start cr).target
    selected := some dev
    rxAck := false
    calls := .startTransmit dev.address ::
      (l.start cr).calls }) cr rfl with ⟨hAck, hCalls⟩
  refine ⟨hAck.trans (Bool.and_false _), ?_⟩
  rw [hCalls, List.length_cons, (start_fields l cr).2.2.2.2]

/- An address is sent, and no slave has it. -/
theorem command_unanswered
    (h : l.Addresses cr)
    (hNone : ¬ l.Answered) :
    (l.command cr).rxAck = (cr.rd || l.rxAck) ∧
      (l.command cr).calls = l.calls := by
  have hDev : (l.start cr).answering = none := by
    rw [← Option.not_isSome_iff_eq_none, answering_isSome,
      start_answered]
    exact hNone
  unfold command
  rw [write_address h, address_none hDev]
  rcases rest_none (l := { l.start cr with
    currentAddress := (l.start cr).target
    selected := none }) cr rfl with ⟨hAck, hCalls⟩
  rcases start_fields l cr with
    ⟨-, -, -, hSame, hSameCalls⟩
  rw [hAck, hCalls]
  exact ⟨congrArg (cr.rd || ·) hSame, hSameCalls⟩

/- Data, or nothing, is sent while a slave is selected. -/
theorem command_selected
    (h : ¬ l.Addresses cr)
    {dev : I2cSlave cfg σ}
    (hDev : l.selected = some dev) :
    (l.command cr).rxAck =
        (!cr.rd && (!cr.wr && l.rxAck)) ∧
      (l.command cr).calls.length = l.calls.length +
        cr.wr.toNat + cr.rd.toNat + cr.sto.toNat := by
  rcases start_fields l cr with
    ⟨-, -, hSelected, hAck, hCalls⟩
  have hSome := hSelected.trans hDev
  unfold command
  by_cases hWr : cr.wr = true
  · rw [write_send h hWr]
    rcases rest_some cr
      (send_selected.1.trans hSome) with ⟨hRest, hLength⟩
    rw [hRest, hLength, send_some hSome, hWr, List.length_cons,
      hCalls]
    exact ⟨rfl, rfl⟩
  · rw [write_skip hWr]
    rcases rest_some cr hSome with ⟨hRest, hLength⟩
    rw [Bool.not_eq_true] at hWr
    rw [hRest, hLength, hAck, hCalls, hWr]
    exact ⟨rfl, rfl⟩

/- Data, or nothing, is sent, and no slave is selected. -/
theorem command_unselected
    (h : ¬ l.Addresses cr)
    (hDev : l.selected = none) :
    (l.command cr).rxAck = (cr.rd || (cr.wr || l.rxAck)) ∧
      (l.command cr).calls = l.calls := by
  rcases start_fields l cr with
    ⟨-, -, hSelected, hAck, hCalls⟩
  have hNone := hSelected.trans hDev
  unfold command
  by_cases hWr : cr.wr = true
  · rw [write_send h hWr]
    rcases rest_none cr
      (send_selected.1.trans hNone) with ⟨hRest, hSame⟩
    rw [hRest, hSame, send_none hNone, hWr]
    exact ⟨rfl, hCalls⟩
  · rw [write_skip hWr]
    rcases rest_none cr hNone with ⟨hRest, hSame⟩
    rw [Bool.not_eq_true] at hWr
    rw [hRest, hSame, hAck, hWr]
    exact ⟨rfl, hCalls⟩

end I2cLink

end RiscvEm

------------------------------------------------------------
-- Truth Of One Command
------------------------------------------------------------

namespace RiscvEm

variable {cfg : PlicConfig}
variable {σ : Type}

namespace I2cLink

variable {l : I2cLink cfg σ}
variable {cr : I2cCr}
variable {b : I2cBus}

/- Nobody owns the bus when an address goes out of turn. -/
theorem Follows.not_addressed
    (hFollows : l.Follows b)
    (hAddr : l.Addresses cr)
    (acked : Bool) :
    b.start cr ≠ .addressed acked := by
  intro hBus
  have hAway := (hFollows.start.addressed acked hBus).1
  exact hAway (start_currentAddress.mpr hAddr.2)

/- A transaction that begins is waiting for its address. -/
theorem Follows.addresses
    (hFollows : l.Follows b)
    (hWr : cr.wr = true)
    (hBegun : b.start cr = .begun) :
    l.Addresses cr :=
  ⟨hWr, start_currentAddress.mp (hFollows.start.begun hBegun)⟩

/- An address after a START. -/
theorem truthful_begun
    (hAddr : l.Addresses cr)
    (hBegun : b.start cr = .begun) :
    l.Truthful (l.command cr) cr b ↔
      l.Answered ∨ l.rxAck = true ∨ cr.rd = true := by
  have hBus : (b.start cr).address cr l.Answered =
      .addressed l.Answered :=
    if_pos ⟨hAddr.1, hBegun⟩
  by_cases hAns : l.Answered
  · rcases command_answered hAddr hAns with ⟨hAck, -⟩
    have hTrue : (b.start cr).address cr l.Answered =
        .addressed true := by
      rw [hBus, decide_eq_true hAns]
    refine iff_of_true ⟨fun _ _ => ?_, fun _ => ?_, ?_⟩
      (Or.inl hAns)
    · exact iff_of_true hAck hAns
    · exact iff_of_true hAck hTrue
    · exact fun hNot => absurd hTrue hNot
  · rcases command_unanswered hAddr hAns with ⟨hAck, hCalls⟩
    have hFalse : (b.start cr).address cr l.Answered ≠
        .addressed true := by
      rw [hBus, decide_eq_false hAns]
      exact fun hEq => Bool.noConfusion (I2cBus.addressed.inj hEq)
    constructor
    · intro hOk
      have hNack := mt (hOk.address hAddr.1 hBegun).mp hAns
      rw [hAck, Bool.not_eq_false, Bool.or_eq_true] at hNack
      exact Or.inr hNack.symm
    · intro hCare
      have hNack : (l.command cr).rxAck = true := by
        rw [hAck, Bool.or_eq_true]
        exact (hCare.resolve_left hAns).symm
      refine ⟨fun _ _ => ?_, fun _ => ?_, fun _ => hCalls⟩
      · exact iff_of_false (Bool.not_eq_false _ ▸ hNack) hAns
      · exact iff_of_false (Bool.not_eq_false _ ▸ hNack) hFalse

/- An address without a START. -/
theorem truthful_noStart
    (hFollows : l.Follows b)
    (hAddr : l.Addresses cr)
    (hBegun : b.start cr ≠ .begun) :
    l.Truthful (l.command cr) cr b ↔
      ¬ l.Answered ∧ (l.rxAck = true ∨ cr.rd = true) := by
  have hBus : (b.start cr).address cr l.Answered =
      b.start cr :=
    if_neg (fun h => hBegun h.2)
  have hFalse : (b.start cr).address cr l.Answered ≠
      .addressed true := by
    rw [hBus]
    exact hFollows.not_addressed hAddr true
  have hData : l.Truthful (l.command cr) cr b →
      (l.command cr).rxAck = true := by
    intro hOk
    rw [← Bool.not_eq_false]
    exact mt (hOk.data (Or.inl ⟨hAddr.1, hBegun⟩)).mp hFalse
  by_cases hAns : l.Answered
  · rcases command_answered hAddr hAns with ⟨hAck, -⟩
    refine iff_of_false (fun hOk => ?_) (fun h => h.1 hAns)
    exact absurd (hAck.symm.trans (hData hOk)) Bool.noConfusion
  · rcases command_unanswered hAddr hAns with ⟨hAck, hCalls⟩
    constructor
    · intro hOk
      have hNack := hData hOk
      rw [hAck, Bool.or_eq_true] at hNack
      exact ⟨hAns, hNack.symm⟩
    · intro hCare
      have hNack : (l.command cr).rxAck = true := by
        rw [hAck, Bool.or_eq_true]
        exact hCare.2.symm
      refine ⟨?_, fun _ => ?_, fun _ => hCalls⟩
      · exact fun _ hEq => absurd hEq hBegun
      · exact iff_of_false (Bool.not_eq_false _ ▸ hNack) hFalse

/- Data, a read or a STOP. -/
theorem truthful_data
    (hFollows : l.Follows b)
    (hAddr : ¬ l.Addresses cr) :
    l.Truthful (l.command cr) cr b ↔
      (cr.transfers = true → l.selected.isSome = true →
        b.start cr = .addressed true) := by
  have hNotBegun (hWr : cr.wr = true) : b.start cr ≠ .begun :=
    fun hBegun => hAddr (hFollows.addresses hWr hBegun)
  have hBus : (b.start cr).address cr l.Answered =
      b.start cr :=
    if_neg (fun h => hNotBegun h.1 h.2)
  have hSel : (l.start cr).selected = l.selected :=
    (start_fields l cr).2.2.1
  cases hDev : l.selected with
  | some dev =>
      rcases command_selected hAddr hDev with ⟨hAck, hCalls⟩
      constructor
      · intro hOk hTransfers _
        by_contra hNot
        have hSame := hOk.silent (by rw [hBus]; exact hNot)
        rw [hSame] at hCalls
        simp only [I2cCr.transfers, Bool.or_eq_true]
          at hTransfers
        rcases hTransfers with (hWr | hRd) | hSto
        · rw [hWr, Bool.toNat_true] at hCalls
          omega
        · rw [hRd, Bool.toNat_true] at hCalls
          omega
        · rw [hSto, Bool.toNat_true] at hCalls
          omega
      · intro hCare
        refine ⟨?_, fun hData => ?_, fun hNot => ?_⟩
        · exact fun hWr hEq => absurd hEq (hNotBegun hWr)
        · have hBits : cr.wr = true ∨ cr.rd = true :=
            hData.imp_left And.left
          have hTransfers : cr.transfers = true := by
            unfold I2cCr.transfers
            rw [Bool.or_eq_true, Bool.or_eq_true]
            exact Or.inl hBits
          rw [hBus]
          refine iff_of_true ?_ (hCare hTransfers rfl)
          rw [hAck]
          rcases hBits with hWr | hRd
          · rw [hWr]
            exact Bool.and_false _
          · rw [hRd]
            rfl
        · -- without the transaction nothing was asked for
          rw [hBus] at hNot
          have hQuiet := mt (fun h => hCare h rfl) hNot
          simp only [I2cCr.transfers, Bool.or_eq_true,
            not_or, Bool.not_eq_true] at hQuiet
          rw [hQuiet.1.1, hQuiet.1.2, hQuiet.2] at hCalls
          unfold command
          rw [write_skip (by rw [hQuiet.1.1]; decide)]
          have hRead : (l.start cr).read cr = l.start cr :=
            if_neg (by rw [hQuiet.1.2]; decide)
          have hStop : (l.start cr).stop cr = l.start cr :=
            if_neg (by rw [hQuiet.2]; decide)
          rw [hRead, hStop]
          exact (start_fields l cr).2.2.2.2
  | none =>
      rcases command_unselected hAddr hDev with ⟨hAck, hCalls⟩
      have hFalse : b.start cr ≠ .addressed true := by
        intro hEq
        have hSome := (hFollows.start.addressed true hEq).2
        rw [hSel, hDev] at hSome
        exact Bool.noConfusion hSome
      refine iff_of_true ⟨?_, fun hData => ?_, fun _ => hCalls⟩
        (fun _ hSome => Bool.noConfusion hSome)
      · exact fun hWr hEq => absurd hEq (hNotBegun hWr)
      · rw [hBus]
        refine iff_of_false ?_ hFalse
        rw [hAck, Bool.not_eq_false]
        rcases hData with ⟨hWr, -⟩ | hRd
        · rw [hWr, Bool.true_or, Bool.or_true]
        · rw [hRd, Bool.true_or]

/-
  The outcome is truthful exactly if the command was
  careful.
-/
theorem truthful_iff
    (hFollows : l.Follows b) :
    l.Truthful (l.command cr) cr b ↔ l.Careful cr b := by
  by_cases hAddr : l.Addresses cr
  · by_cases hBegun : b.start cr = .begun
    · rw [truthful_begun hAddr hBegun]
      constructor
      · exact fun h => ⟨fun _ _ => h,
          fun _ hNot => absurd hBegun hNot,
          fun hNot => absurd hAddr hNot⟩
      · exact fun h => h.address hAddr hBegun
    · rw [truthful_noStart hFollows hAddr hBegun]
      constructor
      · exact fun h => ⟨fun _ hEq => absurd hEq hBegun,
          fun _ _ => h, fun hNot => absurd hAddr hNot⟩
      · exact fun h => h.noStart hAddr hBegun
  · rw [truthful_data hFollows hAddr]
    constructor
    · exact fun h => ⟨fun hIs => absurd hIs hAddr,
        fun hIs => absurd hIs hAddr, fun _ => h⟩
    · exact fun h => h.stale hAddr

end I2cLink

end RiscvEm

------------------------------------------------------------
-- What A Command Leaves
------------------------------------------------------------

namespace RiscvEm

variable {cfg : PlicConfig}
variable {σ : Type}

namespace I2cLink

variable {l l' : I2cLink cfg σ}
variable {cr : I2cCr}
variable {b : I2cBus}

/- What is followed are the selection and the address. -/
theorem Follows.congr
    (h : l.Follows b)
    (hSelected : l'.selected = l.selected)
    (hAddress : l'.currentAddress = l.currentAddress) :
    l'.Follows b where
  begun hEq := hAddress.trans (h.begun hEq)
  addressed acked hEq := by
    rw [hAddress, hSelected]
    exact h.addressed acked hEq

/- An idle bus is followed always. -/
theorem follows_idle
    (l : I2cLink cfg σ) :
    l.Follows .idle where
  begun hEq := I2cBus.noConfusion hEq
  addressed _ hEq := I2cBus.noConfusion hEq

/- An address selects the slave that answers it. -/
theorem address_fields :
    l.address.currentAddress = l.target ∧
      l.address.selected = l.answering := by
  unfold address
  split
  case h_1 dev hDev => exact ⟨rfl, hDev.symm⟩
  case h_2 hDev => exact ⟨rfl, hDev.symm⟩

/- Who answers after a START. -/
theorem answering_start :
    (l.start cr).answering.isSome = decide l.Answered := by
  rw [Bool.eq_iff_iff, decide_eq_true_iff, answering_isSome,
    start_answered]

/- The link follows the bus through a START and a write. -/
theorem Follows.write
    (h : l.Follows b) :
    ((l.start cr).write cr).Follows
      ((b.start cr).address cr l.Answered) := by
  by_cases hAddr : l.Addresses cr
  · rw [write_address hAddr]
    by_cases hBegun : b.start cr = .begun
    · have hBus : (b.start cr).address cr l.Answered =
          .addressed l.Answered :=
        if_pos ⟨hAddr.1, hBegun⟩
      rw [hBus]
      refine ⟨fun hEq => I2cBus.noConfusion hEq, ?_⟩
      intro acked hEq
      rw [← I2cBus.addressed.inj hEq, address_fields.1,
        address_fields.2]
      exact ⟨target_ne, answering_start⟩
    · have hBus : (b.start cr).address cr l.Answered =
          b.start cr :=
        if_neg (fun hBoth => hBegun hBoth.2)
      rw [hBus]
      exact ⟨fun hEq => absurd hEq hBegun, fun acked hEq =>
        absurd hEq (h.not_addressed hAddr acked)⟩
  · have hBus : (b.start cr).address cr l.Answered =
        b.start cr :=
      if_neg (fun hBoth =>
        hAddr (h.addresses hBoth.1 hBoth.2))
    rw [hBus]
    by_cases hWr : cr.wr = true
    · rw [write_send hAddr hWr]
      exact h.start.congr send_selected.1 send_selected.2
    · rw [write_skip hWr]
      exact h.start

/- The link follows the bus through a command. -/
theorem Follows.command
    (h : l.Follows b) :
    (l.command cr).Follows (b.command cr l.Answered) := by
  have hRead : (((l.start cr).write cr).read cr).Follows
      ((b.start cr).address cr l.Answered) :=
    h.write.congr read_selected.1 read_selected.2
  unfold I2cLink.command I2cBus.command
  by_cases hSto : cr.sto = true
  · have hBus : ∀ b : I2cBus, b.stop cr = .idle :=
      fun _ => if_pos hSto
    rw [hBus]
    exact follows_idle _
  · have hBus : ∀ b : I2cBus, b.stop cr = b :=
      fun _ => if_neg hSto
    have hSkip : ∀ k : I2cLink cfg σ, k.stop cr = k :=
      fun _ => if_neg hSto
    rw [hBus, hSkip]
    exact hRead

end I2cLink

end RiscvEm

------------------------------------------------------------
-- Every Run
------------------------------------------------------------

namespace RiscvEm

variable {cfg : PlicConfig}
variable {σ : Type}

/- The guest disables the core, which resets it. -/
def I2cOp.disables :
    I2cOp cfg σ → Bool
  | .write addr value =>
      addr - I2C_START == I2C_REG_CTR && !value.getLsbD 7
  | _ => false

namespace I2cStep

instance
    (t : I2cStep cfg σ) :
    Decidable t.Executes :=
  match t with
  | ⟨w, .tick, _⟩ =>
      decidable_of_iff
        (w.i2c.opActive = true ∧
          I2C_RUN_DELAY ≤ w.i2c.delay + 1)
        ⟨fun h => ⟨rfl, h⟩, fun h => h.2⟩
  | ⟨_, .read _, _⟩ => isFalse nofun
  | ⟨_, .write _ _, _⟩ => isFalse nofun
  | ⟨_, .others _, _⟩ => isFalse nofun

/- The bus after the step. -/
def bus
    (t : I2cStep cfg σ)
    (b : I2cBus) : I2cBus :=
  if t.Executes then
    b.command t.before.i2c.cr t.before.link.Answered
  else if t.op.disables = true then
    .idle
  else
    b

/- The command that the step executes tells the truth. -/
structure Truthful
    (t : I2cStep cfg σ)
    (b : I2cBus) : Prop where
  executed : t.Executes → t.before.link.Truthful t.after.link
    t.before.i2c.cr b
  silent : ¬ t.Executes → t.after.calls = t.before.calls

def Careful
    (t : I2cStep cfg σ)
    (b : I2cBus) : Prop :=
  t.Executes → t.before.link.Careful t.before.i2c.cr b

end I2cStep

/- The bus after the steps of a run. -/
def busAfter :
    List (I2cStep cfg σ) → I2cBus
  | [] => .idle
  | t :: ts => t.bus (busAfter ts)

/- Something holds of each step, with the bus before it. -/
def AtEachStep
    (P : I2cStep cfg σ → I2cBus → Prop) :
    List (I2cStep cfg σ) → Prop
  | [] => True
  | t :: ts => P t (busAfter ts) ∧ AtEachStep P ts

end RiscvEm

------------------------------------------------------------
-- One Step
------------------------------------------------------------

namespace RiscvEm

variable {cfg : PlicConfig}
variable {σ : Type}

/- No slave is called and, but for a reset, none deselected. -/
structure I2cWorld.OffBus
    (w w' : I2cWorld cfg σ)
    (disables : Bool) : Prop where
  calls : w'.calls = w.calls
  selected : disables = false →
    w'.link.selected = w.link.selected
  address : disables = false →
    w'.link.currentAddress = w.link.currentAddress

namespace I2cWorld

variable {w w' : I2cWorld cfg σ}

/- A world is as it was when nothing is done. -/
theorem OffBus.refl
    (disables : Bool) :
    w.OffBus w disables :=
  ⟨rfl, fun _ => rfl, fun _ => rfl⟩

/- Disabling the core resets it. -/
theorem writeCtr_offBus
    {value : BitVec 8}
    (h : w.writeCtr value = .ok w') :
    w.OffBus w' (!value.getLsbD 7) := by
  unfold writeCtr at h
  dsimp only at h
  split at h
  case isTrue hOn =>
    cases h
    exact ⟨rfl, fun _ => rfl, fun _ => rfl⟩
  case isFalse hOff =>
    have hBit : ¬ value.getLsbD 7 = true := hOff
    rcases lowerInterrupt_cases h with ⟨world, levels, rfl⟩
    refine ⟨rfl, fun hNot => ?_, fun hNot => ?_⟩
    · exact absurd ((Bool.not_eq_false' _).mp hNot) hBit
    · exact absurd ((Bool.not_eq_false' _).mp hNot) hBit

/- Writing a command starts nothing yet. -/
theorem writeCr_offBus
    (value : BitVec 8)
    (disables : Bool) :
    w.OffBus (w.writeCr value) disables := by
  unfold writeCr
  split
  · exact ⟨rfl, fun _ => rfl, fun _ => rfl⟩
  · exact .refl disables

/- Every write stays off the bus. -/
theorem write_offBus
    {addr value : BitVec 64}
    (h : w.write addr value = .ok w') :
    w.OffBus w'
      (I2cOp.disables (.write addr value : I2cOp cfg σ)) := by
  unfold write at h
  dsimp only at h
  split at h
  case isTrue =>
    cases h
    exact ⟨rfl, fun _ => rfl, fun _ => rfl⟩
  case isFalse =>
    split at h
    case isTrue =>
      cases h
      exact ⟨rfl, fun _ => rfl, fun _ => rfl⟩
    case isFalse =>
      split at h
      case isTrue hCtr =>
        have hBit : (value.setWidth 8).getLsbD 7 =
            value.getLsbD 7 := by
          rw [BitVec.getLsbD_setWidth]
          rfl
        have hDisables : I2cOp.disables
            (.write addr value : I2cOp cfg σ) =
              !(value.setWidth 8).getLsbD 7 := by
          change (addr - I2C_START == I2C_REG_CTR &&
            !value.getLsbD 7) = _
          rw [hCtr, hBit, beq_self_eq_true, Bool.true_and]
        rw [hDisables]
        exact writeCtr_offBus h
      case isFalse =>
        split at h
        case isTrue =>
          cases h
          exact ⟨rfl, fun _ => rfl, fun _ => rfl⟩
        case isFalse =>
          split at h
          case isTrue =>
            cases h
            exact writeCr_offBus _ _
          case isFalse =>
            cases h
            exact .refl _

end I2cWorld

/- A step executes a command, or stays off the bus. -/
theorem I2cOp.exec_link
    {op : I2cOp cfg σ}
    {w w' : I2cWorld cfg σ}
    (h : op.exec w = .ok w') :
    (I2cStep.Executes ⟨w, op, w'⟩ ∧
        w'.link = w.link.command w.i2c.cr) ∨
      ¬ I2cStep.Executes ⟨w, op, w'⟩ ∧
        w.OffBus w' op.disables := by
  cases op with
  | read addr =>
      cases h
      exact Or.inr ⟨nofun, .refl _⟩
  | write addr value =>
      exact Or.inr ⟨nofun, I2cWorld.write_offBus h⟩
  | tick =>
      unfold I2cOp.exec I2cWorld.tick at h
      dsimp only at h
      split at h
      case isTrue hActive =>
        split at h
        case isTrue hWait =>
          cases h
          exact Or.inr ⟨fun hRun => not_lt.mpr hRun.2.2 hWait,
            rfl, fun _ => rfl, fun _ => rfl⟩
        case isFalse hOver =>
          rcases bind_eq_ok.mp h with ⟨w₁, hRun, hEq⟩
          cases hEq
          refine Or.inl ⟨⟨rfl, hActive, not_lt.mp hOver⟩, ?_⟩
          exact (I2cWorld.executeCommand_link hRun :)
      case isFalse hIdle =>
        cases h
        exact Or.inr ⟨fun hRun => hIdle hRun.2.1, .refl _⟩
  | others world =>
      cases h
      exact Or.inr ⟨nofun, rfl, fun _ => rfl, fun _ => rfl⟩

namespace I2cStep

variable {op : I2cOp cfg σ}
variable {w w' : I2cWorld cfg σ}
variable {b : I2cBus}

/- The controller follows the bus over a step. -/
theorem follows
    (h : op.exec w = .ok w')
    (hFollows : w.link.Follows b) :
    w'.link.Follows (I2cStep.bus ⟨w, op, w'⟩ b) := by
  unfold I2cStep.bus
  rcases I2cOp.exec_link h with ⟨hRun, hLink⟩ | ⟨hNot, hOff⟩
  · rw [if_pos hRun, hLink]
    exact hFollows.command
  · rw [if_neg hNot]
    split
    case isTrue hReset => exact I2cLink.follows_idle _
    case isFalse hKept =>
      rw [Bool.not_eq_true] at hKept
      exact hFollows.congr (hOff.selected hKept)
        (hOff.address hKept)

/- A step is truthful exactly if it is careful. -/
theorem truthful_iff
    (h : op.exec w = .ok w')
    (hFollows : w.link.Follows b) :
    I2cStep.Truthful ⟨w, op, w'⟩ b ↔
      I2cStep.Careful ⟨w, op, w'⟩ b := by
  rcases I2cOp.exec_link h with ⟨hRun, hLink⟩ | ⟨hNot, hOff⟩
  · have hIff : w.link.Truthful w'.link w.i2c.cr b ↔
        w.link.Careful w.i2c.cr b := by
      rw [hLink]
      exact I2cLink.truthful_iff hFollows
    constructor
    · exact fun hOk _ => hIff.mp (hOk.executed hRun)
    · exact fun hCare => ⟨fun _ => hIff.mpr (hCare hRun),
        fun hNot => absurd hRun hNot⟩
  · exact iff_of_true
      ⟨fun hRun => absurd hRun hNot, fun _ => hOff.calls⟩
      (fun hRun => absurd hRun hNot)

end I2cStep

namespace I2cRun

variable {w w' : I2cWorld cfg σ}
variable {ts : List (I2cStep cfg σ)}

/- The controller follows the bus over a run. -/
theorem follows
    (hRun : I2cRun w ts w')
    (hStart : w.link.Follows .idle) :
    w'.link.Follows (busAfter ts) := by
  induction hRun with
  | refl => exact hStart
  | step _ hExec ih => exact I2cStep.follows hExec ih

/- A run is truthful exactly if it is careful. -/
theorem truthful_iff
    (hRun : I2cRun w ts w')
    (hStart : w.link.Follows .idle) :
    AtEachStep I2cStep.Truthful ts ↔
      AtEachStep I2cStep.Careful ts := by
  induction hRun with
  | refl => exact Iff.rfl
  | step hBefore hExec ih =>
      exact and_congr
        (I2cStep.truthful_iff hExec (hBefore.follows hStart)) ih

end I2cRun

/-
  In a run, `RxACK` tells the truth after every command and no
  slave is called that was not selected, exactly if every
  command that is executed is careful on the bus as the
  commands before it left it.
-/
theorem i2c_acknowledge_truthful_iff
    (irqNum : BitVec 32)
    (slaves : List (I2cSlave cfg σ))
    (world : SlaveWorld cfg σ)
    (ts : List (I2cStep cfg σ))
    (w : I2cWorld cfg σ)
    (hRun : I2cRun (.new irqNum slaves world) ts w) :
    AtEachStep I2cStep.Truthful ts ↔
      AtEachStep I2cStep.Careful ts :=
  hRun.truthful_iff (I2cLink.follows_idle _)

/- A probe of the address 0x50, until it is executed. -/
def i2cProbe : List (I2cOp PlicConfig.twoHarts Unit) :=
  List.replicate 99 .tick ++
    [.write (I2C_START + I2C_REG_CR_SR) 0x90,
      .write (I2C_START + I2C_REG_TXR_RXR) 0xA0,
      .write (I2C_START + I2C_REG_CTR) 0x80]

/- A slave at that address that ignores what it is sent. -/
def quietSlave : I2cSlave PlicConfig.twoHarts Unit where
  address := 0x50
  startTransmit := .ok
  devWrite _ w := .ok w
  devRead _ w := .ok (0, w)
  stopTransmit := .ok

/- If a command is executed, it calls a slave that is there. -/
def callsSlave
    (w : I2cWorld cfg σ) : Bool :=
  !(w.i2c.opActive && I2C_RUN_DELAY ≤ w.i2c.delay + 1) ||
    (w.i2c.cr.sta && w.i2c.cr.wr && decide w.link.Answered)

/- Calling a slave that is there is careful on any bus. -/
theorem careful_of_callsSlave
    {t : I2cStep cfg σ}
    {b : I2cBus}
    (h : callsSlave t.before = true) :
    t.Careful b := by
  rintro ⟨-, hActive, hDelay⟩
  unfold callsSlave at h
  rw [hActive, decide_eq_true hDelay] at h
  simp only [Bool.and_self, Bool.not_true, Bool.false_or,
    Bool.and_eq_true, decide_eq_true_eq] at h
  rcases h with ⟨⟨hSta, hWr⟩, hAnswered⟩
  have hBegun : b.start t.before.i2c.cr = .begun :=
    if_pos hSta
  exact {
    address := fun _ _ => Or.inl hAnswered
    noStart := fun _ hNot => absurd hBegun hNot
    stale := fun hNot => absurd ⟨hWr, Or.inl hSta⟩ hNot }

/- What holds on every bus holds on the one there is. -/
theorem atEachStep_of_forall
    {P : I2cStep cfg σ → I2cBus → Prop}
    {ts : List (I2cStep cfg σ)}
    (h : ∀ t ∈ ts, ∀ b, P t b) :
    AtEachStep P ts := by
  induction ts with
  | nil => trivial
  | cons t ts ih =>
      exact ⟨h t List.mem_cons_self _,
        ih fun t' hMem => h t' (List.mem_cons_of_mem t hMem)⟩

/- The slave that the probe finds is acknowledged. -/
theorem i2c_acknowledge_truthful_answered :
    ∃ ts w, I2cRun
        (.new 11 [quietSlave] ⟨(), plicStart⟩) ts w ∧
      ts.map I2cStep.op = .tick :: i2cProbe ∧
      w.calls = [.startTransmit 0x50] ∧
      AtEachStep I2cStep.Truthful ts := by
  have hCalls : (runI2cOps (.new 11 [quietSlave] ⟨(), plicStart⟩)
      (.tick :: i2cProbe)).toOption.map I2cWorld.calls =
        some [.startTransmit 0x50] := by
    decide +kernel
  rcases Option.map_eq_some_iff.mp hCalls with ⟨w, hOps, hEq⟩
  rcases i2cRun_of_runI2cOps (toOption_eq_some.mp hOps) with
    ⟨ts, hRun, hMap⟩
  have hCheck : checkI2cOps callsSlave
      (.new 11 [quietSlave] ⟨(), plicStart⟩)
        (ts.map I2cStep.op) = true := by
    rw [hMap]
    decide +kernel
  refine ⟨ts, w, hRun, hMap, hEq,
    (i2c_acknowledge_truthful_iff 11 [quietSlave]
      ⟨(), plicStart⟩ ts w hRun).mpr ?_⟩
  refine atEachStep_of_forall fun t hMem b => ?_
  exact careful_of_callsSlave (hRun.checked hCheck t hMem)

/-
  Nobody is on the bus, and the probe is acknowledged: `RxACK`
  is clear from the start, and the address leaves it so.
-/
theorem i2c_acknowledge_empty_bus :
    ∃ ts w, I2cRun i2cStart ts w ∧
      ts.map I2cStep.op = .tick :: i2cProbe ∧
      ¬ AtEachStep I2cStep.Truthful ts := by
  have hOk : (runI2cOps i2cStart
      (.tick :: i2cProbe)).toOption.isSome = true := by
    decide +kernel
  have hBefore : (runI2cOps i2cStart i2cProbe).toOption.map
      (fun w => (w.i2c.opActive, w.i2c.delay, w.i2c.cr,
        w.i2c.sr.rxAck, w.i2c.slaves.length)) =
        some (true, 99, .ofRaw 0x90, false, 0) := by
    decide +kernel
  rcases Option.isSome_iff_exists.mp hOk with ⟨w, hOps⟩
  rcases bind_eq_ok.mp (toOption_eq_some.mp hOps) with
    ⟨w₁, hOps₁, hTick⟩
  rcases i2cRun_of_runI2cOps hOps₁ with ⟨ts, hRun, hMap⟩
  rw [hOps₁] at hBefore
  simp only [Except.toOption, Option.map_some, Option.some.injEq,
    Prod.mk.injEq] at hBefore
  rcases hBefore with ⟨hActive, hDelay, hCr, hAck, hSlaves⟩
  have hWhole := hRun.step hTick
  refine ⟨_, w, hWhole, congrArg (List.cons _) hMap, ?_⟩
  intro hAll
  have hCare := ((hWhole.truthful_iff
    (I2cLink.follows_idle _)).mp hAll).1
  have hExec : I2C_RUN_DELAY ≤ w₁.i2c.delay + 1 := by
    rw [hDelay]
    exact le_refl 100
  have hAddress := (hCare ⟨rfl, hActive, hExec⟩).address
  rw [hCr] at hAddress
  rcases hAddress ⟨rfl, Or.inl rfl⟩ rfl with
    ⟨dev, hMem, -⟩ | h | h
  · have hNone : w₁.i2c.slaves = [] := List.length_eq_zero_iff.mp
      hSlaves
    have hDev : dev ∈ w₁.i2c.slaves := hMem
    rw [hNone] at hDev
    exact absurd hDev List.not_mem_nil
  · exact absurd (hAck.symm.trans h) Bool.noConfusion
  · exact absurd h (by decide)

end RiscvEm
