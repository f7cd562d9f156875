import RiscvEm.Decode.Fields

/-
  The instruction table: `register_instr`, the registrations
  of every set in the order of `init_all_instrs`, and the
  list of instructions they give.

  Key definitions include:
    * `maskBits`
    * `registerInstr`
    * `initAllInstrs`
    * `allInstrs`

  Key theorems include `initAllInstrs_eq`.
-/

------------------------------------------------------------
-- Registering One Instruction
------------------------------------------------------------

namespace RiscvEm

/-
  The loop of `register_instr` over the characters of a mask,
  last one first, from bit `i` on; it builds `inst_mask` and
  `inst_match`.
-/
def maskBits :
    List Char → Nat → Nat × Nat → Nat × Nat
  | [], _, acc => acc
  | c :: cs, i, (mask, matchBits) =>
      if c = '1' then
        maskBits cs (i + 1)
          (mask ||| 1 <<< i, matchBits ||| 1 <<< i)
      else if c = '0' then
        maskBits cs (i + 1) (mask ||| 1 <<< i, matchBits)
      else
        maskBits cs (i + 1) (mask, matchBits)

/-
  A further fixed bit keeps the set bits among the fixed
  ones.
-/
theorem and_or_eq_of_subset
    {mask matchBits : Nat}
    (hSub : matchBits &&& mask = matchBits)
    (bit : Nat) :
    matchBits &&& (mask ||| bit) = matchBits ∧
      (matchBits ||| bit) &&& (mask ||| bit) =
        matchBits ||| bit := by
  have hBits : ∀ i, matchBits.testBit i = true →
      mask.testBit i = true := by
    intro i hMatch
    rw [← hSub, Nat.testBit_and, Bool.and_eq_true] at hMatch
    exact hMatch.2
  refine ⟨?_, ?_⟩
  · apply Nat.eq_of_testBit_eq
    intro i
    have := hBits i
    simp only [Nat.testBit_and, Nat.testBit_or]
    grind
  · apply Nat.eq_of_testBit_eq
    intro i
    have := hBits i
    simp only [Nat.testBit_and, Nat.testBit_or]
    grind

/- The matched bits stay under the mask. -/
theorem maskBits_subset
    (cs : List Char)
    (i : Nat)
    (acc : Nat × Nat)
    (hSub : acc.2 &&& acc.1 = acc.2) :
    (maskBits cs i acc).2 &&& (maskBits cs i acc).1 =
      (maskBits cs i acc).2 := by
  induction cs generalizing i acc with
  | nil => simpa [maskBits] using hSub
  | cons c cs ih =>
      obtain ⟨mask, matchBits⟩ := acc
      have hOr := and_or_eq_of_subset hSub (1 <<< i)
      simp only [maskBits]
      split
      · exact ih _ _ hOr.2
      · split
        · exact ih _ _ hOr.1
        · exact ih _ _ hSub

/-
  One call of `register_instr`: mask, function, immediate.
  The mask is kept together with its characters.
-/
structure Registration where
  mask : String
  chars : List Char
  mask_eq : mask = String.ofList chars
  func : Op
  immDecodeFunc : Option (BitVec 32 → BitVec 64)

/- The table entry that a call adds. -/
def Registration.instruction
    (r : Registration) : Instruction :=
  let bits := maskBits r.chars.reverse 0 (0, 0)
  { mask := BitVec.ofNat 32 bits.1
    matchBits := BitVec.ofNat 32 bits.2
    func := r.func
    -- `imm_I` unless the caller names another function
    immDecodeFunc := r.immDecodeFunc.getD immI
    size := BitVec.ofNat 8 (r.chars.length / 8)
    matchBits_and_mask := by
      rw [← BitVec.ofNat_and, maskBits_subset _ _ _ rfl] }

/- The mask must have 16 or 32 characters. -/
def registerInstr
    (instructions : List Instruction)
    (r : Registration) :
    Except HostFault (List Instruction) :=
  if r.chars.length = 16 ∨ r.chars.length = 32 then
    .ok (instructions ++ [r.instruction])
  else
    .error .assertFailed

end RiscvEm

------------------------------------------------------------
-- The Registrations Of Each Set
------------------------------------------------------------

namespace RiscvEm

def initRv64i : List Registration := [
  ⟨"0000000**********000*****0110011", _, rfl, .ADD, none⟩,
  ⟨"0000000**********000*****0111011", _, rfl, .ADDW, none⟩,
  ⟨"0100000**********000*****0110011", _, rfl, .SUB, none⟩,
  ⟨"0100000**********000*****0111011", _, rfl, .SUBW, none⟩,
  ⟨"0000000**********100*****0110011", _, rfl, .XOR, none⟩,
  ⟨"0000000**********110*****0110011", _, rfl, .OR, none⟩,
  ⟨"0000000**********111*****0110011", _, rfl, .AND, none⟩,
  ⟨"0000000**********001*****0110011", _, rfl, .SLL, none⟩,
  ⟨"0000000**********001*****0111011", _, rfl, .SLLW, none⟩,
  ⟨"0000000**********101*****0110011", _, rfl, .SRL, none⟩,
  ⟨"0000000**********101*****0111011", _, rfl, .SRLW, none⟩,
  ⟨"0100000**********101*****0110011", _, rfl, .SRA, none⟩,
  ⟨"0100000**********101*****0111011", _, rfl, .SRAW, none⟩,
  ⟨"0000000**********010*****0110011", _, rfl, .SLT, none⟩,
  ⟨"0000000**********011*****0110011", _, rfl, .SLTU, none⟩,
  ⟨"*****************000*****0010011", _, rfl, .ADDI, some immI⟩,
  ⟨"*****************000*****0011011", _, rfl, .ADDIW, some immI⟩,
  ⟨"*****************100*****0010011", _, rfl, .XORI, some immI⟩,
  ⟨"*****************110*****0010011", _, rfl, .ORI, some immI⟩,
  ⟨"*****************111*****0010011", _, rfl, .ANDI, some immI⟩,
  ⟨"000000***********001*****0010011", _, rfl,
    .SLLI, some shamt64⟩,
  ⟨"0000000**********001*****0011011", _, rfl, .SLLIW,
    some shamt⟩,
  ⟨"0000000**********101*****0011011", _, rfl, .SRLIW,
    some shamt⟩,
  ⟨"0100000**********101*****0011011", _, rfl, .SRAIW,
    some shamt⟩,
  ⟨"000000***********101*****0010011", _, rfl,
    .SRLI, some shamt64⟩,
  ⟨"010000***********101*****0010011", _, rfl,
    .SRAI, some shamt64⟩,
  ⟨"*****************010*****0010011", _, rfl, .SLTI, some immI⟩,
  ⟨"*****************011*****0010011", _, rfl, .SLTIU, some immI⟩,
  ⟨"*****************000*****0000011", _, rfl, .LB, some immI⟩,
  ⟨"*****************001*****0000011", _, rfl, .LH, some immI⟩,
  ⟨"*****************010*****0000011", _, rfl, .LW, some immI⟩,
  ⟨"*****************011*****0000011", _, rfl, .LD, some immI⟩,
  ⟨"*****************100*****0000011", _, rfl, .LBU, some immI⟩,
  ⟨"*****************101*****0000011", _, rfl, .LHU, some immI⟩,
  ⟨"*****************110*****0000011", _, rfl, .LWU, some immI⟩,
  ⟨"*****************000*****0100011", _, rfl, .SB, some immS⟩,
  ⟨"*****************001*****0100011", _, rfl, .SH, some immS⟩,
  ⟨"*****************010*****0100011", _, rfl, .SW, some immS⟩,
  ⟨"*****************011*****0100011", _, rfl, .SD, some immS⟩,
  ⟨"*****************000*****1100011", _, rfl, .BEQ, some immB⟩,
  ⟨"*****************001*****1100011", _, rfl, .BNE, some immB⟩,
  ⟨"*****************100*****1100011", _, rfl, .BLT, some immB⟩,
  ⟨"*****************101*****1100011", _, rfl, .BGE, some immB⟩,
  ⟨"*****************110*****1100011", _, rfl, .BLTU, some immB⟩,
  ⟨"*****************111*****1100011", _, rfl, .BGEU, some immB⟩,
  ⟨"*************************1101111", _, rfl, .JAL, some immJ⟩,
  ⟨"*****************000*****1100111", _, rfl, .JALR, some immI⟩,
  ⟨"*************************0110111", _, rfl, .LUI, some immU⟩,
  ⟨"*************************0010111", _, rfl, .AUIPC, some immU⟩,
  ⟨"00000000000000000000000001110011", _, rfl, .ECALL, none⟩,
  ⟨"00000000000100000000000001110011", _, rfl, .EBREAK, none⟩,
  ⟨"0000********00000000000000001111", _, rfl, .FENCE, some immI⟩]

def initRv64m : List Registration := [
  ⟨"0000001**********000*****0110011", _, rfl, .MUL, none⟩,
  ⟨"0000001**********000*****0111011", _, rfl, .MULW, none⟩,
  ⟨"0000001**********001*****0110011", _, rfl, .MULH, none⟩,
  ⟨"0000001**********010*****0110011", _, rfl, .MULHSU, none⟩,
  ⟨"0000001**********011*****0110011", _, rfl, .MULHU, none⟩,
  ⟨"0000001**********100*****0110011", _, rfl, .DIV, none⟩,
  ⟨"0000001**********101*****0110011", _, rfl, .DIVU, none⟩,
  ⟨"0000001**********101*****0111011", _, rfl, .DIVUW, none⟩,
  ⟨"0000001**********100*****0111011", _, rfl, .DIVW, none⟩,
  ⟨"0000001**********110*****0110011", _, rfl, .REM, none⟩,
  ⟨"0000001**********111*****0110011", _, rfl, .REMU, none⟩,
  ⟨"0000001**********111*****0111011", _, rfl, .REMUW, none⟩,
  ⟨"0000001**********110*****0111011", _, rfl, .REMW, none⟩]

def initRv64a : List Registration := [
  ⟨"00001************010*****0101111", _, rfl, .AMOSWAP_W, none⟩,
  ⟨"00000************010*****0101111", _, rfl, .AMOADD_W, none⟩,
  ⟨"01100************010*****0101111", _, rfl, .AMOAND_W, none⟩,
  ⟨"00100************010*****0101111", _, rfl, .AMOXOR_W, none⟩,
  ⟨"01000************010*****0101111", _, rfl, .AMOOR_W, none⟩,
  ⟨"10000************010*****0101111", _, rfl, .AMOMIN_W, none⟩,
  ⟨"11000************010*****0101111", _, rfl, .AMOMINU_W, none⟩,
  ⟨"10100************010*****0101111", _, rfl, .AMOMAX_W, none⟩,
  ⟨"11100************010*****0101111", _, rfl, .AMOMAXU_W, none⟩,
  ⟨"00010************010*****0101111", _, rfl, .LR_W, none⟩,
  ⟨"00011************010*****0101111", _, rfl, .SC_W, none⟩,
  ⟨"00001************011*****0101111", _, rfl, .AMOSWAP_D, none⟩,
  ⟨"00000************011*****0101111", _, rfl, .AMOADD_D, none⟩,
  ⟨"01100************011*****0101111", _, rfl, .AMOAND_D, none⟩,
  ⟨"00100************011*****0101111", _, rfl, .AMOXOR_D, none⟩,
  ⟨"01000************011*****0101111", _, rfl, .AMOOR_D, none⟩,
  ⟨"10000************011*****0101111", _, rfl, .AMOMIN_D, none⟩,
  ⟨"11000************011*****0101111", _, rfl, .AMOMINU_D, none⟩,
  ⟨"10100************011*****0101111", _, rfl, .AMOMAX_D, none⟩,
  ⟨"11100************011*****0101111", _, rfl, .AMOMAXU_D, none⟩,
  ⟨"00010************011*****0101111", _, rfl, .LR_D, none⟩,
  ⟨"00011************011*****0101111", _, rfl, .SC_D, none⟩]

def initRv64f : List Registration := [
  ⟨"*****00******************1000011", _, rfl, .FMADD_S, none⟩,
  ⟨"*****00******************1000111", _, rfl, .FMSUB_S, none⟩,
  ⟨"*****00******************1001111", _, rfl, .FNMADD_S, none⟩,
  ⟨"*****00******************1001011", _, rfl, .FNMSUB_S, none⟩,
  ⟨"0000000******************1010011", _, rfl, .FADD_S, none⟩,
  ⟨"0000100******************1010011", _, rfl, .FSUB_S, none⟩,
  ⟨"0001000******************1010011", _, rfl, .FMUL_S, none⟩,
  ⟨"0001100******************1010011", _, rfl, .FDIV_S, none⟩,
  ⟨"010110000000*************1010011", _, rfl, .FSQRT_S, none⟩,
  ⟨"0010000**********000*****1010011", _, rfl, .FSGNJ_S, none⟩,
  ⟨"0010000**********001*****1010011", _, rfl, .FSGNJN_S, none⟩,
  ⟨"0010000**********010*****1010011", _, rfl, .FSGNJX_S, none⟩,
  ⟨"0010100**********000*****1010011", _, rfl, .FMIN_S, none⟩,
  ⟨"0010100**********001*****1010011", _, rfl, .FMAX_S, none⟩,
  ⟨"110000000000*************1010011", _, rfl, .FCVT_W_S, none⟩,
  ⟨"110000000001*************1010011", _, rfl, .FCVT_WU_S, none⟩,
  ⟨"110100000000*************1010011", _, rfl, .FCVT_S_W, none⟩,
  ⟨"110100000001*************1010011", _, rfl, .FCVT_S_WU, none⟩,
  ⟨"110000000010*************1010011", _, rfl, .FCVT_L_S, none⟩,
  ⟨"110000000011*************1010011", _, rfl, .FCVT_LU_S, none⟩,
  ⟨"110100000010*************1010011", _, rfl, .FCVT_S_L, none⟩,
  ⟨"110100000011*************1010011", _, rfl, .FCVT_S_LU, none⟩,
  ⟨"111000000000*****000*****1010011", _, rfl, .FMV_X_W, none⟩,
  ⟨"111100000000*****000*****1010011", _, rfl, .FMV_W_X, none⟩,
  ⟨"1010000**********010*****1010011", _, rfl, .FEQ_S, none⟩,
  ⟨"1010000**********001*****1010011", _, rfl, .FLT_S, none⟩,
  ⟨"1010000**********000*****1010011", _, rfl, .FLE_S, none⟩,
  ⟨"111000000000*****001*****1010011", _, rfl, .FCLASS_S, none⟩,
  ⟨"*****************010*****0000111", _, rfl, .FLW, some immI⟩,
  ⟨"*****************010*****0100111", _, rfl, .FSW, some immS⟩]

def initRv64d : List Registration := [
  ⟨"*****01******************1000011", _, rfl, .FMADD_D, none⟩,
  ⟨"*****01******************1000111", _, rfl, .FMSUB_D, none⟩,
  ⟨"*****01******************1001111", _, rfl, .FNMADD_D, none⟩,
  ⟨"*****01******************1001011", _, rfl, .FNMSUB_D, none⟩,
  ⟨"0000001******************1010011", _, rfl, .FADD_D, none⟩,
  ⟨"0000101******************1010011", _, rfl, .FSUB_D, none⟩,
  ⟨"0001001******************1010011", _, rfl, .FMUL_D, none⟩,
  ⟨"0001101******************1010011", _, rfl, .FDIV_D, none⟩,
  ⟨"010110100000*************1010011", _, rfl, .FSQRT_D, none⟩,
  ⟨"0010001**********000*****1010011", _, rfl, .FSGNJ_D, none⟩,
  ⟨"0010001**********001*****1010011", _, rfl, .FSGNJN_D, none⟩,
  ⟨"0010001**********010*****1010011", _, rfl, .FSGNJX_D, none⟩,
  ⟨"0010101**********000*****1010011", _, rfl, .FMIN_D, none⟩,
  ⟨"0010101**********001*****1010011", _, rfl, .FMAX_D, none⟩,
  ⟨"010000000001*************1010011", _, rfl, .FCVT_S_D, none⟩,
  ⟨"010000100000*************1010011", _, rfl, .FCVT_D_S, none⟩,
  ⟨"110000100000*************1010011", _, rfl, .FCVT_W_D, none⟩,
  ⟨"110000100001*************1010011", _, rfl, .FCVT_WU_D, none⟩,
  ⟨"110100100000*************1010011", _, rfl, .FCVT_D_W, none⟩,
  ⟨"110100100001*************1010011", _, rfl, .FCVT_D_WU, none⟩,
  ⟨"110000100010*************1010011", _, rfl, .FCVT_L_D, none⟩,
  ⟨"110000100011*************1010011", _, rfl, .FCVT_LU_D, none⟩,
  ⟨"110100100010*************1010011", _, rfl, .FCVT_D_L, none⟩,
  ⟨"110100100011*************1010011", _, rfl, .FCVT_D_LU, none⟩,
  ⟨"111000100000*****000*****1010011", _, rfl, .FMV_X_D, none⟩,
  ⟨"111100100000*****000*****1010011", _, rfl, .FMV_D_X, none⟩,
  ⟨"1010001**********010*****1010011", _, rfl, .FEQ_D, none⟩,
  ⟨"1010001**********001*****1010011", _, rfl, .FLT_D, none⟩,
  ⟨"1010001**********000*****1010011", _, rfl, .FLE_D, none⟩,
  ⟨"111000100000*****001*****1010011", _, rfl, .FCLASS_D, none⟩,
  ⟨"*****************011*****0000111", _, rfl, .FLD, some immI⟩,
  ⟨"*****************011*****0100111", _, rfl, .FSD, some immS⟩]

def initRv64c : List Registration := [
  ⟨"000***********00", _, rfl, .C_ADDI4SPN, some dCUimm⟩,
  ⟨"010***********00", _, rfl, .C_LW, some dCUimmCl⟩,
  ⟨"011***********00", _, rfl, .C_LD, some dCUimmCl1⟩,
  ⟨"110***********00", _, rfl, .C_SW, some dCUimmCl⟩,
  ⟨"111***********00", _, rfl, .C_SD, some dCUimmCl1⟩,
  ⟨"0000000000000001", _, rfl, .C_NOP, none⟩,
  ⟨"000***********01", _, rfl, .C_ADDI, some dCNzimm⟩,
  ⟨"001***********01", _, rfl, .C_ADDIW, some dCNzimm⟩,
  ⟨"010***********01", _, rfl, .C_LI, some dCNzimm⟩,
  ⟨"011***********01", _, rfl, .C_LUI_ADDI16SP, some dCNzimm⟩,
  ⟨"100*00********01", _, rfl, .C_SRLI, some dCUimmArith⟩,
  ⟨"100*01********01", _, rfl, .C_SRAI, some dCUimmArith⟩,
  ⟨"100*10********01", _, rfl, .C_ANDI, some dCUimmArith⟩,
  ⟨"100011***00***01", _, rfl, .C_SUB, none⟩,
  ⟨"100011***01***01", _, rfl, .C_XOR, none⟩,
  ⟨"100011***10***01", _, rfl, .C_OR, none⟩,
  ⟨"100011***11***01", _, rfl, .C_AND, none⟩,
  ⟨"100111***00***01", _, rfl, .C_SUBW, none⟩,
  ⟨"100111***01***01", _, rfl, .C_ADDW, none⟩,
  ⟨"101***********01", _, rfl, .C_J, some dCJImm⟩,
  ⟨"110***********01", _, rfl, .C_BEQZ, some dCBImm⟩,
  ⟨"111***********01", _, rfl, .C_BNEZ, some dCBImm⟩,
  ⟨"000***********10", _, rfl, .C_SLLI, some dCUimmArith⟩,
  ⟨"010***********10", _, rfl, .C_LWSP, some dCUimmLwsp⟩,
  ⟨"011***********10", _, rfl, .C_LDSP, some dCUimmLdsp⟩,
  ⟨"1000*****0000010", _, rfl, .C_JR, none⟩,
  ⟨"1000**********10", _, rfl, .C_MV, none⟩,
  ⟨"1001000000000010", _, rfl, .C_EBREAK, none⟩,
  ⟨"1001*****0000010", _, rfl, .C_JALR, none⟩,
  ⟨"1001**********10", _, rfl, .C_ADD, none⟩,
  ⟨"110***********10", _, rfl, .C_SWSP, some dCUimmSwsp⟩,
  ⟨"111***********10", _, rfl, .C_SDSP, some dCUimmSdsp⟩,
  ⟨"001***********00", _, rfl, .C_FLD, some dCUimmCl1⟩,
  ⟨"101***********00", _, rfl, .C_FSD, some dCUimmCl1⟩,
  ⟨"001***********10", _, rfl, .C_FLDSP, some dCUimmLdsp⟩,
  ⟨"101***********10", _, rfl, .C_FSDSP, some dCUimmSdsp⟩]

def initPriv : List Registration := [
  ⟨"00110000001000000000000001110011", _, rfl, .MRET, none⟩,
  ⟨"00010000001000000000000001110011", _, rfl, .SRET, none⟩,
  ⟨"00010000010100000000000001110011", _, rfl, .WFI, none⟩,
  ⟨"0001001**********000000001110011", _, rfl, .SFENCE_VMA, none⟩]

def initZicsr : List Registration := [
  ⟨"*****************001*****1110011", _, rfl,
    .CSRRW, some immZicsr⟩,
  ⟨"*****************010*****1110011", _, rfl,
    .CSRRS, some immZicsr⟩,
  ⟨"*****************011*****1110011", _, rfl,
    .CSRRC, some immZicsr⟩,
  ⟨"*****************101*****1110011", _, rfl,
    .CSRRWI, some immZicsr⟩,
  ⟨"*****************110*****1110011", _, rfl,
    .CSRRSI, some immZicsr⟩,
  ⟨"*****************111*****1110011", _, rfl,
    .CSRRCI, some immZicsr⟩]

def initZifencei : List Registration := [
  ⟨"*****************001*****0001111", _, rfl, .FENCE_I, none⟩]

def initZba : List Registration := [
  ⟨"0000100**********000*****0111011", _, rfl, .ADD_UW, none⟩,
  ⟨"0010000**********010*****0110011", _, rfl, .SH1ADD, none⟩,
  ⟨"0010000**********010*****0111011", _, rfl, .SH1ADD_UW, none⟩,
  ⟨"0010000**********100*****0110011", _, rfl, .SH2ADD, none⟩,
  ⟨"0010000**********100*****0111011", _, rfl, .SH2ADD_UW, none⟩,
  ⟨"0010000**********110*****0110011", _, rfl, .SH3ADD, none⟩,
  ⟨"0010000**********110*****0111011", _, rfl, .SH3ADD_UW, none⟩,
  ⟨"000010***********001*****0011011", _, rfl, .SLLI_UW, none⟩]

def initZbb : List Registration := [
  ⟨"0100000**********111*****0110011", _, rfl, .ANDN, none⟩,
  ⟨"0100000**********110*****0110011", _, rfl, .ORN, none⟩,
  ⟨"0100000**********100*****0110011", _, rfl, .XNOR, none⟩,
  ⟨"011000000000*****001*****0010011", _, rfl, .CLZ, none⟩,
  ⟨"011000000000*****001*****0011011", _, rfl, .CLZW, none⟩,
  ⟨"011000000001*****001*****0010011", _, rfl, .CTZ, none⟩,
  ⟨"011000000001*****001*****0011011", _, rfl, .CTZW, none⟩,
  ⟨"011000000010*****001*****0010011", _, rfl, .CPOP, none⟩,
  ⟨"011000000010*****001*****0011011", _, rfl, .CPOPW, none⟩,
  ⟨"0000101**********110*****0110011", _, rfl, .MAX, none⟩,
  ⟨"0000101**********111*****0110011", _, rfl, .MAXU, none⟩,
  ⟨"0000101**********100*****0110011", _, rfl, .MIN, none⟩,
  ⟨"0000101**********101*****0110011", _, rfl, .MINU, none⟩,
  ⟨"011000000100*****001*****0010011", _, rfl, .SEXT_B, none⟩,
  ⟨"011000000101*****001*****0010011", _, rfl, .SEXT_H, none⟩,
  ⟨"000010000000*****100*****0111011", _, rfl, .ZEXT_H, none⟩,
  ⟨"0110000**********001*****0110011", _, rfl, .ROL, none⟩,
  ⟨"0110000**********001*****0111011", _, rfl, .ROLW, none⟩,
  ⟨"0110000**********101*****0110011", _, rfl, .ROR, none⟩,
  ⟨"011000***********101*****0010011", _, rfl, .RORI, none⟩,
  ⟨"0110000**********101*****0011011", _, rfl, .RORIW, none⟩,
  ⟨"0110000**********101*****0111011", _, rfl, .RORW, none⟩,
  ⟨"001010000111*****101*****0010011", _, rfl, .ORC_B, none⟩,
  ⟨"011010111000*****101*****0010011", _, rfl, .REV8, none⟩]

def initZbc : List Registration := [
  ⟨"0000101**********001*****0110011", _, rfl, .CLMUL, none⟩,
  ⟨"0000101**********011*****0110011", _, rfl, .CLMULH, none⟩,
  ⟨"0000101**********010*****0110011", _, rfl, .CLMULR, none⟩]

def initZbs : List Registration := [
  ⟨"0100100**********001*****0110011", _, rfl, .BCLR, none⟩,
  ⟨"010010***********001*****0010011", _, rfl, .BCLRI, none⟩,
  ⟨"0100100**********101*****0110011", _, rfl, .BEXT, none⟩,
  ⟨"010010***********101*****0010011", _, rfl, .BEXTI, none⟩,
  ⟨"0110100**********001*****0110011", _, rfl, .BINV, none⟩,
  ⟨"011010***********001*****0010011", _, rfl, .BINVI, none⟩,
  ⟨"0010100**********001*****0110011", _, rfl, .BSET, none⟩,
  ⟨"001010***********001*****0010011", _, rfl, .BSETI, none⟩]

def initZicboz : List Registration := [
  ⟨"000000000100*****010000000001111", _, rfl, .cbo_zero, none⟩]

end RiscvEm

------------------------------------------------------------
-- The Whole Table
------------------------------------------------------------

namespace RiscvEm

/- The registrations in the order of `init_all_instrs`. -/
def registrations : List Registration :=
  initRv64i ++
  initRv64m ++
  initRv64a ++
  initRv64f ++
  initRv64d ++
  initRv64c ++
  initPriv ++
  initZicsr ++
  initZifencei ++
  initZba ++
  initZbb ++
  initZbc ++
  initZbs ++
  initZicboz

/- Register everything, starting from an empty vector. -/
def initAllInstrs :
    Except HostFault (List Instruction) :=
  registrations.foldlM registerInstr []

/- The vector `instructions` after initialisation. -/
def allInstrs : List Instruction :=
  registrations.map Registration.instruction

/- Registering a list appends its instructions in order. -/
theorem foldlM_registerInstr
    (rs : List Registration)
    (instructions : List Instruction)
    (hLen : ∀ r ∈ rs, r.chars.length = 16 ∨
      r.chars.length = 32) :
    rs.foldlM registerInstr instructions =
      .ok (instructions ++
        rs.map Registration.instruction) := by
  induction rs generalizing instructions with
  | nil => simp [pure, Except.pure]
  | cons r rs ih =>
      have hHead := hLen r (by simp)
      have hTail := ih (instructions ++ [r.instruction])
        (fun r' hr' => hLen r' (by simp [hr']))
      rw [List.foldlM_cons, registerInstr, if_pos hHead]
      simpa [bind, Except.bind] using hTail

/- No mask of the table has a wrong length. -/
theorem registrations_length :
    ∀ r ∈ registrations, r.chars.length = 16 ∨
      r.chars.length = 32 := by
  decide +kernel

/- The table is built without an error. -/
theorem initAllInstrs_eq :
    initAllInstrs = .ok allInstrs := by
  simpa [initAllInstrs, allInstrs] using
    foldlM_registerInstr registrations []
      registrations_length

attribute [irreducible] allInstrs

end RiscvEm
