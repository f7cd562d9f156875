import RiscvEm.Defines

/-
  The byte encoders of the emitter: one function for each
  x86-64 instruction form that the templates use.

  Host registers are the byte values of the source. Encoders
  whose parameters are `char` compare them as signed bytes,
  so that the marker `0xFF` passes for a low register; the
  memory forms take `uint8_t`.

  Key definitions include:
    * `rex`
    * `modrm`
    * `sibHelper`
    * `rrOp`
-/

------------------------------------------------------------
-- Host Registers
------------------------------------------------------------

namespace RiscvEm

def REG_RAX : BitVec 8 := 0b0000
def REG_RCX : BitVec 8 := 0b0001
def REG_RDX : BitVec 8 := 0b0010
def REG_RBP : BitVec 8 := 0b0101
def REG_RSI : BitVec 8 := 0b0110
def REG_RDI : BitVec 8 := 0b0111
def REG_R8 : BitVec 8 := 0b1000
def REG_R9 : BitVec 8 := 0b1001
def REG_R10 : BitVec 8 := 0b1010
def REG_R11 : BitVec 8 := 0b1011
def REG_R12 : BitVec 8 := 0b1100
def REG_R13 : BitVec 8 := 0b1101
def REG_R14 : BitVec 8 := 0b1110

def NO_INDEX : BitVec 8 := 0xFF

/- `reg > 7` for a `char`. -/
def high
    (reg : BitVec 8) : Bool :=
  (7 : BitVec 8).slt reg

/- `reg > 7` for a `uint8_t`. -/
def uhigh
    (reg : BitVec 8) : Bool :=
  decide (7 < reg)

end RiscvEm

------------------------------------------------------------
-- Parts Of An Encoding
------------------------------------------------------------

namespace RiscvEm

abbrev Code := List (BitVec 8)

def modrm
    (mod reg rm : BitVec 8) : BitVec 8 :=
  (mod <<< 6) ||| ((reg &&& 7) <<< 3) ||| (rm &&& 7)

def sib
    (scale index base : BitVec 8) : BitVec 8 :=
  let index := if index = 0xFF then 4 else index
  (scale <<< 6) ||| ((index &&& 7) <<< 3) ||| (base &&& 7)

def rex
    (w r x b : Bool) : BitVec 8 :=
  (0b0100 <<< 4) ||| (BitVec.ofBool w).setWidth 8 <<< 3 |||
    (BitVec.ofBool r).setWidth 8 <<< 2 |||
    (BitVec.ofBool x).setWidth 8 <<< 1 |||
    (BitVec.ofBool b).setWidth 8

/- The base can stand without a displacement. -/
def needsDisp0
    (base : BitVec 8) : Bool :=
  base ≠ REG_RBP && base ≠ REG_R13

def needsSib
    (base index : BitVec 8) : Bool :=
  index ≠ NO_INDEX || base &&& 7 = 4

/- Four bytes, lowest first. -/
def bytes32
    (imm : BitVec 32) : Code :=
  [imm.setWidth 8, (imm >>> 8).setWidth 8,
    (imm >>> 16).setWidth 8, (imm >>> 24).setWidth 8]

/- Eight bytes, lowest first. -/
def bytes64
    (imm : BitVec 64) : Code :=
  (List.range 8).map fun i => (imm >>> (i * 8)).setWidth 8

/- ModRM, SIB and displacement of a memory operand. -/
def sibHelper
    (reg base index scale : BitVec 8)
    (disp : BitVec 32) : Code :=
  let hasIndex := index ≠ 0xFF
  let needSib := needsSib base index
  let mod : BitVec 8 :=
    if disp = 0 ∧ needsDisp0 base then 0
    else if (-128 : Int) ≤ disp.toInt ∧ disp.toInt ≤ 127 then 1
    else 2
  [modrm mod (reg &&& 7) (if needSib then 4 else base &&& 7)] ++
    (if needSib then
      [sib scale (if hasIndex then index &&& 7 else 4)
        (base &&& 7)]
    else
      []) ++
    (if mod = 1 then
      [disp.setWidth 8]
    else if mod = 2 then
      bytes32 disp
    else
      [])

end RiscvEm

------------------------------------------------------------
-- Register Forms
------------------------------------------------------------

namespace RiscvEm

/- `op r/m, r` with the destination in RM. -/
def rrOp
    (w : Bool)
    (opcode dest source : BitVec 8) : Code :=
  [rex w (high source) false (high dest), opcode,
    modrm 3 (source &&& 7) (dest &&& 7)]

def subRr := rrOp true 0x29
def subRr32 := rrOp false 0x29
def addRr := rrOp true 0x01
def addRr32 := rrOp false 0x01
def xorRr := rrOp true 0x31
def orRr := rrOp true 0x09
def andRr := rrOp true 0x21
def mov := rrOp true 0x89
def cmp := rrOp true 0x39

/- `op r/m, imm32` with the operation in REG. -/
def rimm32Op
    (w : Bool)
    (ext dest : BitVec 8)
    (imm32 : BitVec 32) : Code :=
  [rex w false false (high dest), 0x81,
    modrm 3 ext (dest &&& 7)] ++ bytes32 imm32

def subRimm32 := rimm32Op true 0b101
def addRimm32 := rimm32Op true 0b000
def addR32imm32 := rimm32Op false 0b000
def xorRimm32 := rimm32Op true 0b110
def orRimm32 := rimm32Op true 0b001
def andRimm32 := rimm32Op true 0b100

/- `MOV r/m64, imm32`. -/
def movImm32
    (dest : BitVec 8)
    (imm32 : BitVec 32) : Code :=
  [rex true false false (high dest), 0xC7,
    modrm 3 0 (dest &&& 7)] ++ bytes32 imm32

/- `MOV r64, imm64`. -/
def movImm64
    (dest : BitVec 8)
    (imm64 : BitVec 64) : Code :=
  [rex true false false (high dest), 0xB8 + (dest &&& 7)] ++
    bytes64 imm64

/- `MOVSXD r64, r/m32`, the destination in REG. -/
def movsxd
    (dest source : BitVec 8) : Code :=
  [rex true (high dest) false (high source), 0x63,
    modrm 3 (dest &&& 7) (source &&& 7)]

/- `MOVZX r64, r/m8`, the destination in REG. -/
def movzx
    (dest source : BitVec 8) : Code :=
  [rex true (high dest) false (high source), 0x0F, 0xB6,
    modrm 3 (dest &&& 7) (source &&& 7)]

/- Shift by `CL`, which is loaded from `source` first. -/
def shiftRc
    (w : Bool)
    (ext dest source : BitVec 8) : Code :=
  mov REG_RCX source ++
    [rex w false false (high dest), 0xD3,
      modrm 3 ext (dest &&& 7)]

def shlRc := shiftRc true 0b100
def shrRc := shiftRc true 0b101
def sarRc := shiftRc true 0b111
def shlRc32 := shiftRc false 0b100
def shrRc32 := shiftRc false 0b101
def sarRc32 := shiftRc false 0b111

/- Shift by an immediate. -/
def shiftImm8
    (w : Bool)
    (ext dest imm8 : BitVec 8) : Code :=
  [rex w false false (high dest), 0xC1,
    modrm 3 ext (dest &&& 7), imm8]

def shlRimm8 := shiftImm8 true 0b100
def shrRimm8 := shiftImm8 true 0b101
def sarRimm8 := shiftImm8 true 0b111
def shlR32imm8 := shiftImm8 false 0b100
def shrR32imm8 := shiftImm8 false 0b101
def sarR32imm8 := shiftImm8 false 0b111

/- `SETcc r/m8`. -/
def setcc
    (opcode dest : BitVec 8) : Code :=
  (if (3 : BitVec 8).slt dest then
    [rex false false false (high dest)]
  else
    []) ++
    [0x0F, opcode, modrm 3 0 (dest &&& 7)]

def setl := setcc 0x9C
def setb := setcc 0x92

def push
    (reg : BitVec 8) : Code :=
  (if high reg then [rex false false false true] else []) ++
    [0x50 + (reg &&& 7)]

def pop
    (reg : BitVec 8) : Code :=
  (if high reg then [rex false false false true] else []) ++
    [0x58 + (reg &&& 7)]

def ret : Code :=
  [0xC3]

def call
    (reg : BitVec 8) : Code :=
  [rex true false false ((reg >>> 3) &&& 1 = 1), 0xFF,
    modrm 0b11 2 (reg &&& 7)]

def jbe8
    (rel8 : BitVec 8) : Code :=
  [0x76, rel8]

def jmp8
    (rel8 : BitVec 8) : Code :=
  [0xEB, rel8]

end RiscvEm

------------------------------------------------------------
-- Memory Forms
------------------------------------------------------------

namespace RiscvEm

/- `MOV` between a register and memory, after a prefix. -/
def memOp
    (lead : Code)
    (w : Bool)
    (opcode reg base index scale : BitVec 8)
    (disp : BitVec 32) : Code :=
  lead ++
    [rex w (uhigh reg) (index ≠ 0xFF && uhigh index)
      (uhigh base), opcode] ++
    sibHelper reg base index scale disp

def movM8r8 := memOp [] false 0x88
def movM16r16 := memOp [0x66] false 0x89
def movM32r32 := memOp [] false 0x89
def movMr := memOp [] true 0x89
def movRm := memOp [] true 0x8B

/- `CMP r64, r/m64`; its registers are `char`s. -/
def cmpRm
    (dest base index scale : BitVec 8)
    (disp : BitVec 32) : Code :=
  [rex true (high dest) (high index) (high base), 0x3B] ++
    sibHelper dest base index scale disp

end RiscvEm
