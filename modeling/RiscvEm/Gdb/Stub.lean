import RiscvEm.Hart.Trap
import RiscvEm.Lib.HexText

/-
  The register packets of the GDB stub: `p` and `P` for one
  register, `g` and `G` for the integer registers and `pc`.

  Key definitions include:
    * `GdbStub`
    * `gdbSendPacket`
    * `gdbGetRegister`, `gdbPutRegister`
    * `gdbReadRegisters`, `gdbWriteRegisters`
    * `gdbParsePacket`
-/

------------------------------------------------------------
-- Texts
------------------------------------------------------------

namespace RiscvEm

open HexText (Text byteText strtoul16 substr)

def toLittleEndianHex
    (value : BitVec 64) : Text :=
  (List.range 8).flatMap fun i =>
    byteText ((value >>> (i * 8)).setWidth 8)

/- The parts of two characters, from `size_bytes` down. -/
def swapHexEndian
    (value : Text)
    (sizeBytes : Nat) : Option Text := do
  let parts ← (List.range (sizeBytes + 1)).reverse.mapM
    fun i => substr value (i * 2) 2
  some parts.flatten

/- The sum of the characters, as eight bits. -/
def gdbChecksum
    (buffer : Text) : BitVec 8 :=
  buffer.foldl (fun sum ch => sum + BitVec.ofNat 8 ch.toNat) 0

/- What is sent for a packet. -/
def gdbSendPacket
    (buffer : Text) : Text :=
  '$' :: buffer ++ '#' :: byteText (gdbChecksum buffer)

/- The frame of a packet is four characters. -/
theorem gdbSendPacket_length
    (buffer : Text) :
    (gdbSendPacket buffer).length = buffer.length + 4 := by
  unfold gdbSendPacket
  rw [List.length_append, List.length_cons, List.length_cons]
  rfl

/-
  Without the first character and the last three; shorter
  texts keep what is behind the first.
-/
def gdbUnformatPacket
    (buffer : Text) : Text :=
  let buffer := buffer.drop 1
  if buffer.length < 3 then
    buffer
  else
    buffer.take (buffer.length - 3)

/- `packet.substr(packet.find(c) + 1)`. -/
def textBehind
    (c : Char)
    (packet : Text) : Text :=
  match packet.dropWhile (· != c) with
  | [] => packet
  | _ :: rest => rest

/- `stoul(text, nullptr, 16)`. -/
def stoul
    (text : Text) : Except HostFault (BitVec 64) :=
  match strtoul16 text with
  | some n => .ok n
  | none => .error .invalidArgument

/- A part of a text that may throw. -/
def partOf
    (text : Option Text) : Except HostFault Text :=
  match text with
  | some part => .ok part
  | none => .error .outOfRange

end RiscvEm

------------------------------------------------------------
-- The Stub
------------------------------------------------------------

namespace RiscvEm

variable {σ : Type}

open HexText (Text substr)

/-
  The hart that is debugged. The value of `mode` is kept
  beside it while it is none of the enumeration.
-/
structure GdbStub (σ : Type) where
  state : State σ
  strayMode : Option (BitVec 32)

namespace GdbStub

/- `(uint8_t)gdb_hart->mode`. -/
def modeByte
    (g : GdbStub σ) : BitVec 8 :=
  match g.strayMode with
  | some mode => mode.setWidth 8
  | none => BitVec.ofNat 8 g.state.hart.mode.toNat

def setState
    (g : GdbStub σ)
    (s : State σ) : GdbStub σ :=
  { g with state := s }

/- `gdb_hart->mode = (PrivilegeMode)num;` -/
def setMode
    (g : GdbStub σ)
    (num : BitVec 64) : GdbStub σ :=
  let enter := fun mode : PrivilegeMode =>
    { state := g.state.setHart { g.state.hart with
        mode := mode }
      strayMode := none : GdbStub σ }
  match (num.setWidth 32).toNat with
  | 0 => enter .User
  | 1 => enter .Supervisor
  | 2 => enter .Hypervisor
  | 3 => enter .Machine
  | _ => { g with strayMode := some (num.setWidth 32) }

end GdbStub

/- `csr_read` of a number that the array has. -/
def gdbCsrRead
    (s : State σ)
    (csr : BitVec 16) :
    Except HostFault (BitVec 64 × State σ) :=
  if csr < 4096 then .ok (s.csrRead csr)
  else .error .outOfBounds

/- `csr_write` of a number that the array has. -/
def gdbCsrWrite
    (s : State σ)
    (csr : BitVec 16)
    (num : BitVec 64) : Except HostFault (State σ) :=
  if csr < 4096 then .ok (s.csrWrite csr num)
  else .error .outOfBounds

/- What `p` sends for a register, and the stub after it. -/
def gdbGetRegister
    (idx : BitVec 64)
    (g : GdbStub σ) :
    Except HostFault (List Text × GdbStub σ) :=
  if idx ≤ 31 then
    .ok ([gdbSendPacket (toLittleEndianHex
      (g.state.gpr (idx.setWidth 5)))], g)
  else if idx = 32 then
    .ok ([gdbSendPacket (toLittleEndianHex
      g.state.hart.pc)], g)
  else if idx < 64 then
    let priv :=
      if idx = 33 then
        [gdbSendPacket (toLittleEndianHex
          (g.modeByte.setWidth 64))]
      else
        []
    .ok (priv ++ [gdbSendPacket (toLittleEndianHex
      (g.state.fpr ((idx - 33).setWidth 5)))], g)
  else do
    let csr := if 5000 ≤ idx then idx - 5000 else idx
    let (val, s) ← gdbCsrRead g.state (csr.setWidth 16)
    .ok ([gdbSendPacket (toLittleEndianHex val)],
      g.setState s)

/- The packet `p`. -/
def gdbReadRegister
    (packet : Text)
    (g : GdbStub σ) :
    Except HostFault (List Text × GdbStub σ) := do
  let idx ← stoul (packet.drop 1)
  gdbGetRegister idx g

/- The eight numbers of two digits, each shifted by its place. -/
def gdbNumber
    (data : Text) : Except HostFault (BitVec 64) :=
  (List.range 8).foldlM
    (fun num i => do
      let byte ← stoul (← partOf (substr data (i * 2) 2))
      .ok (num ||| byte <<< i))
    0

/- The register that `P` changes. -/
def gdbPutRegister
    (P : Platform σ)
    (idx num : BitVec 64)
    (g : GdbStub σ) : Except HostFault (GdbStub σ) :=
  if idx ≤ 31 then
    .ok (g.setState (g.state.setGpr (idx.setWidth 5) num))
  else if idx = 32 then
    .ok (g.setState (g.state.setPc num))
  else if idx < 64 then
    let g := if idx = 33 then g.setMode num else g
    .ok (g.setState (g.state.setFpr ((idx - 33).setWidth 5)
      (P.float.ofUInt .toNearest num)))
  else do
    let s ← gdbCsrWrite g.state (idx.setWidth 16) num
    .ok (g.setState s)

/- The packet `P`. -/
def gdbWriteRegister
    (P : Platform σ)
    (packet : Text)
    (g : GdbStub σ) :
    Except HostFault (List Text × GdbStub σ) := do
  let idx ← stoul (packet.drop 1)
  let num ← gdbNumber (textBehind '=' packet)
  let g ← gdbPutRegister P idx num g
  .ok ([gdbSendPacket "OK".toList], g)

/- The packet `g`. -/
def gdbReadRegisters
    (g : GdbStub σ) : List Text :=
  [gdbSendPacket ((List.range 32).flatMap (fun i =>
      toLittleEndianHex (g.state.gpr (BitVec.ofNat 5 i))) ++
    toLittleEndianHex g.state.hart.pc)]

/- The number at place `i` of the data of `G`. -/
def gdbNumberAt
    (data : Text)
    (i : Nat) : Except HostFault (BitVec 64) := do
  let part ← partOf (substr data (i * 16) 16)
  stoul (← partOf (swapHexEndian part 8))

/- The packet `G`. -/
def gdbWriteRegisters
    (packet : Text)
    (g : GdbStub σ) :
    Except HostFault (List Text × GdbStub σ) := do
  let data := packet.drop 1
  let s ← (List.range 32).foldlM
    (fun s i => do
      let val ← gdbNumberAt data i
      .ok (s.setGpr (BitVec.ofNat 5 i) val))
    g.state
  let val ← gdbNumberAt data 32
  .ok ([gdbSendPacket "OK".toList], g.setState (s.setPc val))

/-
  What is sent for the contents of the receive buffer. The
  packets that have nothing to do with registers are handled
  by `other`.
-/
def gdbParsePacket
    (P : Platform σ)
    (other : Text → GdbStub σ →
      Except HostFault (List Text × GdbStub σ))
    (buffer : Text)
    (g : GdbStub σ) :
    Except HostFault (List Text × GdbStub σ) :=
  match buffer with
  | '$' :: _ =>
      let packet := gdbUnformatPacket buffer
      match packet with
      | 'p' :: _ => gdbReadRegister packet g
      | 'P' :: _ => gdbWriteRegister P packet g
      | 'g' :: _ => .ok (gdbReadRegisters g, g)
      | 'G' :: _ => gdbWriteRegisters packet g
      | _ => other packet g
  | _ => .ok ([], g)

end RiscvEm
