import Mathlib.Logic.Function.Basic

/-
  A fragment of the x86-64 instruction set: its syntax and
  the decoder of its machine code.

  The fragment has the forms that a simple compiler emits
  for integer code: register and immediate arithmetic,
  shifts, `SETcc`, moves to and from memory, the stack, calls
  through a register and short jumps. Bytes outside of the
  fragment do not decode.

  Key definitions include:
    * `Instr`
    * `Reader`
    * `decode`

  Key theorems include `decode_append`.
-/

------------------------------------------------------------
-- Instructions
------------------------------------------------------------

namespace X86

abbrev Reg := BitVec 4

inductive Alu where
  | add
  | or
  | and
  | sub
  | xor
  | cmp
  deriving DecidableEq, Repr

inductive Shift where
  | shl
  | shr
  | sar
  deriving DecidableEq, Repr

/- Below, below or equal, less. -/
inductive Cond where
  | b
  | be
  | l
  deriving DecidableEq, Repr

/- The address `base + index * 2^scale + disp`. -/
structure Addr where
  base : Reg
  index : Option Reg
  scale : BitVec 2
  disp : BitVec 64
  deriving DecidableEq, Repr

/-
  A flag `wide` tells 64-bit operands from 32-bit ones. A
  store has its number of bytes.
-/
inductive Instr where
  | mov (dst src : Reg)
  | movImm (dst : Reg) (imm : BitVec 64)
  | movsxd (dst src : Reg)
  | movzx8 (dst src : Reg)
  | alu (op : Alu) (wide : Bool) (dst src : Reg)
  | aluImm (op : Alu) (wide : Bool) (dst : Reg)
      (imm : BitVec 32)
  | shiftCl (op : Shift) (wide : Bool) (dst : Reg)
  | shiftImm (op : Shift) (wide : Bool) (dst : Reg)
      (imm : BitVec 8)
  | setcc (c : Cond) (dst : Reg)
  | load (dst : Reg) (a : Addr)
  | store (bytes : Nat) (a : Addr) (src : Reg)
  | cmpMem (dst : Reg) (a : Addr)
  | push (r : Reg)
  | pop (r : Reg)
  | call (r : Reg)
  | ret
  | jcc (c : Cond) (rel : BitVec 8)
  | jmp (rel : BitVec 8)
  deriving DecidableEq, Repr

end X86

------------------------------------------------------------
-- Readers
------------------------------------------------------------

namespace X86

abbrev Bytes := List (BitVec 8)

/-
  A reader consumes bytes from the front. It is stable: what
  follows the bytes that it consumed does not matter.
-/
structure Reader (α : Type) where
  run : Bytes → Option (α × Bytes)
  stable : ∀ {bs : Bytes} {a : α} {rest : Bytes},
    run bs = some (a, rest) →
      ∀ more, run (bs ++ more) = some (a, rest ++ more)

namespace Reader

variable {α β : Type}

def unit
    (a : α) : Reader α where
  run bs := some (a, bs)
  stable h more := by
    cases h
    rfl

def fail : Reader α where
  run _ := none
  stable h := by cases h

def bind
    (p : Reader α)
    (f : α → Reader β) : Reader β where
  run bs := (p.run bs).bind fun (a, rest) => (f a).run rest
  stable {bs b rest} h more := by
    obtain ⟨⟨a, mid⟩, hp, hf⟩ := Option.bind_eq_some_iff.mp h
    rw [p.stable hp more, Option.bind_some]
    exact (f a).stable hf more

def byte : Reader (BitVec 8) where
  run
    | [] => none
    | b :: bs => some (b, bs)
  stable {bs _ _} h more := by
    cases bs with
    | nil => cases h
    | cons b bs =>
        cases h
        rfl

instance : Monad Reader where
  pure := unit
  bind := bind

/- Give up unless the condition holds. -/
def ensure
    (c : Bool) : Reader Unit :=
  if c then unit () else fail

/- An optional value that has to be there. -/
def ofOption : Option α → Reader α
  | some a => unit a
  | none => fail

/- A reader that reads nothing. -/
@[simp] theorem run_unit
    (a : α)
    (bs : Bytes) :
    (unit a).run bs = some (a, bs) :=
  rfl

/- Two readers one after the other. -/
@[simp] theorem run_bind
    (p : Reader α)
    (f : α → Reader β)
    (bs : Bytes) :
    (p.bind f).run bs =
      (p.run bs).bind fun x => (f x.1).run x.2 :=
  rfl

/- One byte is read from the front. -/
@[simp] theorem run_byte_cons
    (b : BitVec 8)
    (bs : Bytes) :
    byte.run (b :: bs) = some (b, bs) :=
  rfl

/- A condition that holds reads nothing. -/
@[simp] theorem run_ensure_true
    (bs : Bytes) :
    (ensure true).run bs = some ((), bs) :=
  rfl

/- A value that is there reads nothing. -/
@[simp] theorem run_ofOption_some
    (a : α)
    (bs : Bytes) :
    (ofOption (some a)).run bs = some (a, bs) :=
  rfl

end Reader

end X86

------------------------------------------------------------
-- Fields
------------------------------------------------------------

namespace X86

open X86.Reader

/- The bits of a REX prefix. -/
structure Rex where
  present : Bool
  w : Bool
  r : Bool
  x : Bool
  b : Bool

def Rex.absent : Rex :=
  ⟨false, false, false, false, false⟩

/- A register number from its high bit and its field. -/
def regOf
    (hi : Bool)
    (lo : BitVec 3) : Reg :=
  BitVec.ofBool hi ++ lo

def imm32 : Reader (BitVec 32) := do
  let b0 ← byte
  let b1 ← byte
  let b2 ← byte
  let b3 ← byte
  return b3 ++ b2 ++ b1 ++ b0

def imm64 : Reader (BitVec 64) := do
  let lo ← imm32
  let hi ← imm32
  return hi ++ lo

inductive Operand where
  | reg (r : Reg)
  | mem (a : Addr)

/- What a ModRM byte and its followers say. -/
structure ModRm where
  field : BitVec 3
  reg : Reg
  rm : Operand

/- The displacement that the mode asks for. -/
def displacement
    (mod : BitVec 2) : Reader (BitVec 64) :=
  if mod = 0 then
    unit 0
  else if mod = 1 then do
    let d ← byte
    return d.signExtend 64
  else do
    let d ← imm32
    return d.signExtend 64

/-
  Memory operands without a base register are not in the
  fragment.
-/
def memOperand
    (rex : Rex)
    (mod : BitVec 2)
    (rm : BitVec 3) : Reader Addr :=
  if rm = 4 then do
    let s ← byte
    let base : BitVec 3 := s.extractLsb' 0 3
    let index := regOf rex.x (s.extractLsb' 3 3)
    ensure (!(mod = 0 && base = 5))
    let disp ← displacement mod
    return { base := regOf rex.b base
             index := if index = 4 then none else some index
             scale := s.extractLsb' 6 2
             disp := disp }
  else do
    ensure (!(mod = 0 && rm = 5))
    let disp ← displacement mod
    return ⟨regOf rex.b rm, none, 0, disp⟩

def modRm
    (rex : Rex) : Reader ModRm := do
  let m ← byte
  let mod : BitVec 2 := m.extractLsb' 6 2
  let field : BitVec 3 := m.extractLsb' 3 3
  let rm : BitVec 3 := m.extractLsb' 0 3
  if mod = 3 then
    return ⟨field, regOf rex.r field, .reg (regOf rex.b rm)⟩
  else
    let a ← memOperand rex mod rm
    return ⟨field, regOf rex.r field, .mem a⟩

/- A register operand that has to be one. -/
def Operand.asReg : Operand → Reader Reg
  | .reg r => Reader.unit r
  | .mem _ => Reader.fail

/- A memory operand that has to be one. -/
def Operand.asMem : Operand → Reader Addr
  | .reg _ => Reader.fail
  | .mem a => Reader.unit a

/- A register operand read as a register. -/
@[simp] theorem run_asReg_reg
    (r : Reg)
    (bs : Bytes) :
    (Operand.reg r).asReg.run bs = some (r, bs) :=
  rfl

end X86

------------------------------------------------------------
-- Opcodes
------------------------------------------------------------

namespace X86

open X86.Reader

/- The operations of the one-byte opcodes `op r/m, r`. -/
def aluOfOpcode
    (op : BitVec 8) : Option Alu :=
  if op = 0x01 then some .add
  else if op = 0x09 then some .or
  else if op = 0x21 then some .and
  else if op = 0x29 then some .sub
  else if op = 0x31 then some .xor
  else if op = 0x39 then some .cmp
  else none

/- The operations of the groups `op r/m, imm32`. -/
def aluOfField
    (field : BitVec 3) : Option Alu :=
  if field = 0 then some .add
  else if field = 1 then some .or
  else if field = 4 then some .and
  else if field = 5 then some .sub
  else if field = 6 then some .xor
  else if field = 7 then some .cmp
  else none

def shiftOfField
    (field : BitVec 3) : Option Shift :=
  if field = 4 then some .shl
  else if field = 5 then some .shr
  else if field = 7 then some .sar
  else none

def condOfNibble
    (c : BitVec 4) : Option Cond :=
  if c = 0x2 then some .b
  else if c = 0x6 then some .be
  else if c = 0xC then some .l
  else none

/- Low bytes of the registers 4 to 7 need a REX prefix. -/
def byteReg
    (rex : Rex)
    (r : Reg) : Bool :=
  rex.present || decide (r < 4)

def twoByte
    (rex : Rex) : Reader Instr := do
  let op ← byte
  let m ← modRm rex
  if op = 0xB6 then
    let src ← m.rm.asReg
    ensure (rex.w && byteReg rex src)
    return .movzx8 m.reg src
  else if op.extractLsb' 4 4 = 0x9 then
    let c ← ofOption (condOfNibble (op.extractLsb' 0 4))
    let dst ← m.rm.asReg
    ensure (byteReg rex dst)
    return .setcc c dst
  else
    fail

/- Opcodes that have a ModRM byte; `short` is prefix `66`. -/
def modRmOpcode
    (short : Bool)
    (rex : Rex)
    (op : BitVec 8) : Reader Instr := do
  let m ← modRm rex
  if op = 0x89 then
    match m.rm with
    | .reg dst =>
        ensure rex.w
        return .mov dst m.reg
    | .mem a =>
        return .store
          (if rex.w then 8 else if short then 2 else 4) a m.reg
  else if op = 0x88 then
    let a ← m.rm.asMem
    ensure (byteReg rex m.reg)
    return .store 1 a m.reg
  else if op = 0x8B then
    let a ← m.rm.asMem
    ensure rex.w
    return .load m.reg a
  else if op = 0x3B then
    let a ← m.rm.asMem
    ensure rex.w
    return .cmpMem m.reg a
  else if op = 0x63 then
    let src ← m.rm.asReg
    ensure rex.w
    return .movsxd m.reg src
  else if op = 0x81 then
    let alu ← ofOption (aluOfField m.field)
    let dst ← m.rm.asReg
    let imm ← imm32
    return .aluImm alu rex.w dst imm
  else if op = 0xC7 then
    let dst ← m.rm.asReg
    ensure (rex.w && m.field = 0)
    let imm ← imm32
    return .movImm dst (imm.signExtend 64)
  else if op = 0xD3 then
    let sh ← ofOption (shiftOfField m.field)
    let dst ← m.rm.asReg
    return .shiftCl sh rex.w dst
  else if op = 0xC1 then
    let sh ← ofOption (shiftOfField m.field)
    let dst ← m.rm.asReg
    let imm ← byte
    return .shiftImm sh rex.w dst imm
  else if op = 0xFF then
    let r ← m.rm.asReg
    ensure (m.field = 2)
    return .call r
  else
    let alu ← ofOption (aluOfOpcode op)
    let dst ← m.rm.asReg
    return .alu alu rex.w dst m.reg

def opcode
    (short : Bool)
    (rex : Rex)
    (op : BitVec 8) : Reader Instr :=
  if op = 0x0F then
    twoByte rex
  else if op = 0xC3 then
    unit .ret
  else if op = 0xEB then do
    let rel ← byte
    return .jmp rel
  else if op.extractLsb' 4 4 = 0x7 then do
    let c ← ofOption (condOfNibble (op.extractLsb' 0 4))
    let rel ← byte
    return .jcc c rel
  else if op.extractLsb' 3 5 = 0b01010 then
    unit (.push (regOf rex.b (op.extractLsb' 0 3)))
  else if op.extractLsb' 3 5 = 0b01011 then
    unit (.pop (regOf rex.b (op.extractLsb' 0 3)))
  else if op.extractLsb' 3 5 = 0b10111 then do
    ensure rex.w
    let imm ← imm64
    return .movImm (regOf rex.b (op.extractLsb' 0 3)) imm
  else
    modRmOpcode short rex op

/- The REX prefix, if there is one, and the opcode. -/
def afterPrefix
    (short : Bool)
    (b : BitVec 8) : Reader Instr :=
  if b.extractLsb' 4 4 = 0x4 then do
    let op ← byte
    opcode short
      ⟨true, b.getLsbD 3, b.getLsbD 2, b.getLsbD 1,
        b.getLsbD 0⟩ op
  else
    opcode short .absent b

def instr : Reader Instr := do
  let b ← byte
  if b = 0x66 then
    let b ← byte
    afterPrefix true b
  else
    afterPrefix false b

/- The first instruction and the bytes after it. -/
def decode
    (bs : Bytes) : Option (Instr × Bytes) :=
  instr.run bs

/- Decoding does not depend on what follows. -/
theorem decode_append
    {bs : Bytes}
    {i : Instr}
    (h : decode bs = some (i, []))
    (more : Bytes) :
    decode (bs ++ more) = some (i, more) :=
  instr.stable h more

end X86
