import RiscvEm.Gdb.Stub
import RiscvEm.Machine.WorkLoop

/-
  The GDB server: every packet that the stub answers, and
  what is received between packets.

  Key definitions include:
    * `GdbServer`
    * `gdbServe`
    * `bufferText`
    * `gdbReceive`
    * `gdbSession`
    * `Served`

  Key theorems include:
    * `gdbServe_served`
    * `gdbReceive_cases`
-/

------------------------------------------------------------
-- Parts Of Packets
------------------------------------------------------------

namespace RiscvEm

open HexText (Text substr)

/- `packet.starts_with(s)`. -/
def startsWith
    (s : String)
    (packet : Text) : Bool :=
  s.toList.isPrefixOf packet

/- `s.substr(0, s.find(c))`. -/
def textBefore
    (c : Char)
    (s : Text) : Text :=
  s.takeWhile (· != c)

/- The value of `std::string::npos`. -/
def npos : Nat := 2 ^ 64 - 1

/- `s.find(c, pos)`. -/
def findFrom
    (c : Char)
    (s : Text)
    (pos : Nat) : Nat :=
  match (s.drop pos).findIdx? (· == c) with
  | some i => pos + i
  | none => npos

/- `s.find(c) + 1` as a `size_t`. -/
def placeBehind
    (c : Char)
    (s : Text) : Nat :=
  (findFrom c s 0 + 1) % 2 ^ 64

/- `format("{:02d}", n)`. -/
def decimalText
    (n : Nat) : Text :=
  let digits := Nat.toDigits 10 n
  if digits.length < 2 then '0' :: digits else digits

end RiscvEm

------------------------------------------------------------
-- The Server
------------------------------------------------------------

namespace RiscvEm

variable {σ : Type}

open HexText (Text byteText substr)

/-
  The variables of the server, with the hart and the control
  state of the machine. `threads` counts the threads that
  were started to continue the machine.
-/
structure GdbServer (σ : Type) where
  stub : GdbStub σ
  cpu : Control
  isR : Bool
  exec : Bool
  sigint : Bool
  threads : Nat
  bp : List (BitVec 64)
  xml : Text

namespace GdbServer

def setStub
    (g : GdbServer σ)
    (stub : GdbStub σ) : GdbServer σ :=
  { g with stub := stub }

def setState
    (g : GdbServer σ)
    (s : State σ) : GdbServer σ :=
  g.setStub (g.stub.setState s)

def setBp
    (g : GdbServer σ)
    (bp : List (BitVec 64)) : GdbServer σ :=
  { g with bp := bp }

/- `gdb_cpu->gdb_single_step = true;` -/
def singleStep
    (g : GdbServer σ) : GdbServer σ :=
  { g with cpu := { g.cpu with gdbSingleStep := true } }

/- A thread that continues the machine is started. -/
def goOn
    (g : GdbServer σ) : GdbServer σ :=
  { g with exec := true, threads := g.threads + 1 }

end GdbServer

/- What handling a packet gives: what is sent, and the server. -/
abbrev GdbSent (σ : Type) :=
  List Text × GdbServer σ

/- One packet is sent and nothing changes. -/
def gdbReply
    (text : String)
    (g : GdbServer σ) : Except HostFault (GdbSent σ) :=
  .ok ([gdbSendPacket text.toList], g)

/- `qXfer:features:read:target.xml:` -/
def gdbReadXml
    (createXML : Text)
    (packet : Text)
    (g : GdbServer σ) : Except HostFault (GdbSent σ) := do
  let g := if g.xml.length = 0 then
      { g with xml := createXML }
    else
      g
  let dat := packet.drop 31
  let startp ← stoul (textBefore ',' dat)
  let endp ← stoul (textBehind ',' dat)
  let part ← partOf (substr g.xml startp.toNat endp.toNat)
  let mark :=
    if g.xml.length ≤ (startp + endp).toNat then 'l' else 'm'
  .ok ([gdbSendPacket (mark :: part)], g)

/- `vCont;` -/
def gdbContinue
    (packet : Text)
    (g : GdbServer σ) : Except HostFault (GdbSent σ) :=
  match packet.drop 6 with
  | [] => .ok ([], g)
  | 'c' :: _ => .ok ([], g.goOn)
  | 's' :: _ => gdbReply "S05" g.singleStep
  | _ => gdbReply "" g

/- `k` -/
def gdbKill
    (g : GdbServer σ) : GdbServer σ :=
  { g with isR := false, cpu := g.cpu.setState .Off }

/-
  Write the `n` bytes from place `i` on; whether all were
  accepted.
-/
def gdbWriteBytes
    (P : Platform σ)
    (address : BitVec 64)
    (data : Text) :
    Nat → Nat → State σ → Except HostFault (Bool × State σ)
  | 0, _, s => .ok (true, s)
  | n + 1, i, s => do
      let byte ← stoul (← partOf (substr data (i * 2) 2))
      let (out, s) ← s.mmioWrite P
        (address + BitVec.ofNat 64 i) .Byte byte
      if out.isSuccess then
        gdbWriteBytes P address data n (i + 1) s
      else
        .ok (false, s)

/- The address of `M` and `m`. -/
def gdbAddress
    (packet : Text) : Except HostFault (BitVec 64) := do
  stoul (← partOf (substr packet 1 (findFrom ',' packet 0)))

/- The packet `M`. -/
def gdbWriteMemory
    (P : Platform σ)
    (packet : Text)
    (g : GdbServer σ) : Except HostFault (GdbSent σ) := do
  let address ← gdbAddress packet
  let first := placeBehind ',' packet
  let size ← stoul (← partOf
    (substr packet first (findFrom ':' packet first)))
  let (done, s) ← gdbWriteBytes P address
    (textBehind ':' packet) size.toNat 0 g.stub.state
  if done then
    .ok ([gdbSendPacket (Nat.toDigits 16 size.toNat)],
      g.setState s)
  else
    gdbReply "E01" (g.setState s)

/- Read the `n` bytes from place `i` on. -/
def gdbReadBytes
    (P : Platform σ)
    (address : BitVec 64) :
    Nat → Nat → State σ →
      Except HostFault (Option Text × State σ)
  | 0, _, s => .ok (some [], s)
  | n + 1, i, s => do
      let (out, val, s) ← s.mmioRead P
        (address + BitVec.ofNat 64 i) .Byte
      if out.isSuccess then
        let (rest, s) ← gdbReadBytes P address n (i + 1) s
        .ok (rest.map (byteText (val.setWidth 8) ++ ·), s)
      else
        .ok (none, s)

/- The packet `m`. -/
def gdbReadMemory
    (P : Platform σ)
    (packet : Text)
    (g : GdbServer σ) : Except HostFault (GdbSent σ) := do
  let address ← gdbAddress packet
  let size ← stoul (textBehind ',' packet)
  let (resp, s) ← gdbReadBytes P address size.toNat 0
    g.stub.state
  match resp with
  | some text => .ok ([gdbSendPacket text], g.setState s)
  | none => gdbReply "E01" (g.setState s)

/- The address of `Z0` and `z0`; the kind has to be a number. -/
def gdbBreakAddress
    (packet : Text) : Except HostFault (BitVec 64) := do
  let dat := textBehind ',' packet
  let addr ← stoul (textBefore ',' dat)
  let _ ← stoul (textBehind ',' dat)
  .ok addr

/- The packet `Z0`. -/
def gdbSetBreak
    (packet : Text)
    (g : GdbServer σ) : Except HostFault (GdbSent σ) := do
  let addr ← gdbBreakAddress packet
  if addr ∈ g.bp then
    gdbReply "E01" g
  else
    gdbReply "OK" (g.setBp (g.bp ++ [addr]))

/- The packet `z0`. -/
def gdbClearBreak
    (packet : Text)
    (g : GdbServer σ) : Except HostFault (GdbSent σ) := do
  let addr ← gdbBreakAddress packet
  if addr ∈ g.bp then
    gdbReply "OK" (g.setBp (g.bp.erase addr))
  else
    gdbReply "E01" g

/- What the register packets do to the hart. -/
def onStub
    (answer : Except HostFault (List Text × GdbStub σ))
    (g : GdbServer σ) : Except HostFault (GdbSent σ) := do
  let (sent, stub) ← answer
  .ok (sent, g.setStub stub)

/- A packet without its frame, in the order of the tests. -/
def gdbServe
    (P : Platform σ)
    (createXML : Text)
    (packet : Text)
    (g : GdbServer σ) : Except HostFault (GdbSent σ) :=
  if startsWith "qSupported:" packet then
    gdbReply ("PacketSize=4096;qXfer:features:read+;" ++
      "vContSupported+;swbreak+;hwbreak+;") g
  else if startsWith "qXfer:features:read:target.xml:"
      packet then
    gdbReadXml createXML packet g
  else if startsWith "vCont?" packet then
    gdbReply "vCont;s;S;c;C" g
  else if startsWith "vCont;" packet then
    gdbContinue packet g
  else if startsWith "k" packet then
    .ok ([], gdbKill g)
  else if startsWith "c" packet then
    .ok ([], g.goOn)
  else if startsWith "s" packet then
    gdbReply "S05" g.singleStep
  else if startsWith "?" packet then
    .ok ([gdbSendPacket ('S' :: decimalText
      (g.stub.state.hart.csrs CSR_MCAUSE).toNat)], g)
  else if startsWith "qfThreadInfo" packet then
    gdbReply "m1" g
  else if startsWith "Hc" packet then
    gdbReply "OK" g
  else if startsWith "qC" packet then
    gdbReply "QC1" g
  else if startsWith "qAttached" packet then
    gdbReply "0" g
  else if startsWith "p" packet then
    onStub (gdbReadRegister packet g.stub) g
  else if startsWith "P" packet then
    onStub (gdbWriteRegister P packet g.stub) g
  else if startsWith "g" packet then
    .ok (gdbReadRegisters g.stub, g)
  else if startsWith "G" packet then
    onStub (gdbWriteRegisters packet g.stub) g
  else if startsWith "M" packet then
    gdbWriteMemory P packet g
  else if startsWith "m" packet then
    gdbReadMemory P packet g
  else if startsWith "Z0" packet then
    gdbSetBreak packet g
  else if startsWith "z0" packet then
    gdbClearBreak packet g
  else
    gdbReply "" g

end RiscvEm

------------------------------------------------------------
-- Receiving
------------------------------------------------------------

namespace RiscvEm

variable {σ : Type}

open HexText (Text)

/- An acknowledged packet. -/
def gdbHandle
    (P : Platform σ)
    (createXML : Text)
    (buffer : Text)
    (g : GdbServer σ) : Except HostFault (GdbSent σ) := do
  let (sent, g) ← gdbServe P createXML
    (gdbUnformatPacket buffer) g
  .ok (['+'] :: sent, g)

/- `sizeof(buffer)` -/
def bufferSize : Nat := 4096

/-
  The buffer as a string. A text that leaves no place for the
  zero behind it has no end.
-/
def bufferText
    (buffer : Text) : Except HostFault Text :=
  if buffer.length < bufferSize then
    .ok buffer
  else
    .error .outOfBounds

/-
  What `recv` put into the buffer, up to the first zero: a
  packet, an interrupt, or a packet behind an acknowledgement.
-/
def gdbReceive
    (P : Platform σ)
    (createXML : Text)
    (buffer : Text)
    (g : GdbServer σ) : Except HostFault (GdbSent σ) :=
  match buffer with
  | '$' :: _ => do
      gdbHandle P createXML (← bufferText buffer) g
  | '\x03' :: _ =>
      .ok ([['+']], { g with sigint := true, exec := false })
  | '-' :: '$' :: _ | '+' :: '$' :: _ => do
      let str ← bufferText buffer
      gdbHandle P createXML (str.drop 1) g
  | _ => .ok ([], g)

/- A text that fits is taken as it is. -/
theorem bufferText_eq_ok
    {buffer str : Text}
    (h : bufferText buffer = .ok str) :
    str = buffer := by
  unfold bufferText at h
  split at h
  case isTrue =>
    cases h
    rfl
  case isFalse => cases h

/-
  A connection: what is received in turn until the server is
  stopped, with the answers to each.
-/
def gdbSession
    (P : Platform σ)
    (createXML : Text) :
    List Text → GdbServer σ →
      Except HostFault (List (List Text) × GdbServer σ)
  | [], g => .ok ([], g)
  | buffer :: buffers, g =>
      if g.isR then do
        let (sent, g) ← gdbReceive P createXML buffer g
        let (later, g) ← gdbSession P createXML buffers g
        .ok (sent :: later, g)
      else
        .ok ([], g)

/- The server that a debugger connects to. -/
def GdbServer.start
    (s : State σ) : GdbServer σ :=
  { stub := ⟨s, none⟩
    cpu :=
      { state := .Halted
        gdb := true
        gdbSingleStep := false
        workThreadW := true
        requests := []
        stopped := false }
    isR := true
    exec := true
    sigint := false
    threads := 0
    bp := []
    xml := [] }

end RiscvEm

------------------------------------------------------------
-- What A Packet Can Do
------------------------------------------------------------

namespace RiscvEm

open HexText (Text)

variable {σ : Type}
variable {P : Platform σ}
variable {createXML packet buffer : Text}
variable {g g' : GdbServer σ}
variable {sent : List Text}

/- The packet sets or clears a breakpoint. -/
def AboutBreak
    (packet : Text) : Prop :=
  ∃ rest, packet = 'Z' :: '0' :: rest ∨
    packet = 'z' :: '0' :: rest

/- What a packet makes of the server. -/
inductive Served
    (packet : Text)
    (g : GdbServer σ) : GdbServer σ → Prop
  | same : Served packet g g
  | xml (text : Text) : Served packet g { g with xml := text }
  | hart (stub : GdbStub σ) : Served packet g (g.setStub stub)
  | breaks (bp : List (BitVec 64)) :
      AboutBreak packet → Served packet g (g.setBp bp)
  | step : Served packet g g.singleStep
  | goOn : Served packet g g.goOn
  | kill : Served packet g (gdbKill g)

/- However it is answered, this is what it makes. -/
def Serves
    (packet : Text)
    (g : GdbServer σ)
    (answer : Except HostFault (GdbSent σ)) : Prop :=
  ∀ sent g', answer = .ok (sent, g') → Served packet g g'

namespace Serves

/- An answer that was sent is served. -/
theorem ok
    (h : Served packet g g') :
    Serves packet g (.ok (sent, g')) := by
  intro _ _ hEq
  cases hEq
  exact h

/- A reply with a text is served. -/
theorem reply
    (text : String)
    (h : Served packet g g') :
    Serves packet g (gdbReply text g') :=
  ok h

/-
  Where a part fails nothing is claimed, so what follows
  counts.
-/
theorem bind
    {α : Type}
    {x : Except HostFault α}
    {f : α → Except HostFault (GdbSent σ)}
    (h : ∀ a, Serves packet g (f a)) :
    Serves packet g (x >>= f) := by
  intro sent g' hEq
  rcases bind_eq_ok.mp hEq with ⟨a, -, hRest⟩
  exact h a sent g' hRest

/- Both branches may be served for reasons of their own. -/
theorem ite
    {p : Prop}
    [Decidable p]
    {x y : Except HostFault (GdbSent σ)}
    (hx : p → Serves packet g x)
    (hy : Serves packet g y) :
    Serves packet g (if p then x else y) := by
  split
  case isTrue h => exact hx h
  case isFalse => exact hy

/- Reading a part may make the description first. -/
theorem readXml
    (createXML packet : Text)
    (g : GdbServer σ) :
    Serves packet g (gdbReadXml createXML packet g) := by
  unfold gdbReadXml
  dsimp only
  refine bind fun startp => ?_
  refine bind fun endp => ?_
  refine bind fun part => ?_
  apply ok
  split
  · exact .xml createXML
  · exact .same

/- A continue packet steps, goes on or changes nothing. -/
theorem goOn
    (packet : Text)
    (g : GdbServer σ) :
    Serves packet g (gdbContinue packet g) := by
  unfold gdbContinue
  split
  · exact ok .same
  · exact ok .goOn
  · exact reply _ .step
  · exact reply _ .same

/- What the stub answers changes its hart at most. -/
theorem stub
    (answer : Except HostFault (List Text × GdbStub σ))
    (g : GdbServer σ) :
    Serves packet g (onStub answer g) :=
  bind fun _ => ok (.hart _)

/- Writing memory changes the hart at most. -/
theorem writeMemory
    (P : Platform σ)
    (packet : Text)
    (g : GdbServer σ) :
    Serves packet g (gdbWriteMemory P packet g) := by
  refine bind fun address => ?_
  refine bind fun part => ?_
  refine bind fun size => ?_
  refine bind fun done => ?_
  exact ite (fun _ => ok (.hart _)) (reply _ (.hart _))

/- Reading memory changes the hart at most. -/
theorem readMemory
    (P : Platform σ)
    (packet : Text)
    (g : GdbServer σ) :
    Serves packet g (gdbReadMemory P packet g) := by
  refine bind fun address => ?_
  refine bind fun size => ?_
  refine bind fun resp => ?_
  dsimp only
  cases resp.1 with
  | some text => exact ok (.hart _)
  | none => exact reply _ (.hart _)

/- A breakpoint is set by its own packet only. -/
theorem setBreak
    (hPacket : AboutBreak packet) :
    Serves packet g (gdbSetBreak packet g) := by
  refine bind fun addr => ?_
  exact ite (fun _ => reply _ .same)
    (reply _ (.breaks _ hPacket))

/- A breakpoint is cleared by its own packet only. -/
theorem clearBreak
    (hPacket : AboutBreak packet) :
    Serves packet g (gdbClearBreak packet g) := by
  refine bind fun addr => ?_
  exact ite (fun _ => reply _ (.breaks _ hPacket))
    (reply _ .same)

end Serves

/- A packet that starts with two characters has them. -/
theorem startsWith_two
    {a b : Char}
    (h : [a, b].isPrefixOf packet = true) :
    ∃ rest, packet = a :: b :: rest := by
  rcases List.isPrefixOf_iff_prefix.mp h with ⟨rest, rfl⟩
  exact ⟨rest, rfl⟩

/- One case for each packet, in the order of the tests. -/
theorem gdbServe_served :
    Serves packet g (gdbServe P createXML packet g) := by
  unfold gdbServe
  refine .ite (fun _ => .reply _ .same) ?_
  refine .ite (fun _ => .readXml _ _ g) ?_
  refine .ite (fun _ => .reply _ .same) ?_
  refine .ite (fun _ => .goOn _ g) ?_
  refine .ite (fun _ => .ok .kill) ?_
  refine .ite (fun _ => .ok .goOn) ?_
  refine .ite (fun _ => .reply _ .step) ?_
  refine .ite (fun _ => .ok .same) ?_
  refine .ite (fun _ => .reply _ .same) ?_
  refine .ite (fun _ => .reply _ .same) ?_
  refine .ite (fun _ => .reply _ .same) ?_
  refine .ite (fun _ => .reply _ .same) ?_
  refine .ite (fun _ => .stub _ g) ?_
  refine .ite (fun _ => .stub _ g) ?_
  refine .ite (fun _ => .ok .same) ?_
  refine .ite (fun _ => .stub _ g) ?_
  refine .ite (fun _ => .writeMemory P _ g) ?_
  refine .ite (fun _ => .readMemory P _ g) ?_
  refine .ite (fun hSet => ?_) ?_
  · rcases startsWith_two hSet with ⟨rest, hEq⟩
    exact .setBreak ⟨rest, Or.inl hEq⟩
  · refine .ite (fun hClear => ?_) (.reply _ .same)
    rcases startsWith_two hClear with ⟨rest, hEq⟩
    exact .clearBreak ⟨rest, Or.inr hEq⟩

/- The buffer starts with the byte of an interrupt. -/
def IsInterrupt
    (buffer : Text) : Prop :=
  buffer.head? = some '\x03'

/- A packet is served, or it is an interrupt, or ignored. -/
theorem gdbReceive_cases
    (h : gdbReceive P createXML buffer g = .ok (sent, g')) :
    (¬ IsInterrupt buffer ∧
      ∃ packet, Served packet g g') ∨
    (IsInterrupt buffer ∧
      g' = { g with sigint := true, exec := false }) := by
  have hHandle : ∀ framed,
      gdbHandle P createXML framed g = .ok (sent, g') →
        ∃ packet, Served packet g g' := by
    intro framed hServe
    rcases bind_eq_ok.mp hServe with ⟨⟨texts, g₁⟩, hOne, hEq⟩
    cases hEq
    exact ⟨_, gdbServe_served texts g' hOne⟩
  unfold gdbReceive at h
  split at h
  · rcases bind_eq_ok.mp h with ⟨str, -, hServe⟩
    exact Or.inl ⟨by simp [IsInterrupt], hHandle _ hServe⟩
  · cases h
    exact Or.inr ⟨rfl, rfl⟩
  · rcases bind_eq_ok.mp h with ⟨str, -, hServe⟩
    exact Or.inl ⟨by simp [IsInterrupt], hHandle _ hServe⟩
  · rcases bind_eq_ok.mp h with ⟨str, -, hServe⟩
    exact Or.inl ⟨by simp [IsInterrupt], hHandle _ hServe⟩
  · rename_i hInterrupt _ _
    cases h
    refine Or.inl ⟨?_, [], .same⟩
    intro hHead
    cases buffer with
    | nil => cases hHead
    | cons c rest =>
        cases hHead
        exact hInterrupt rest rfl

end RiscvEm
