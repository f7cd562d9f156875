import RiscvEm.Jit.Emitter
import RiscvEm.Lib.X86Run

/-
  What the host makes of the emitted bytes: each encoder
  decodes to its instruction, and running it has the effect
  of that instruction.

  Key definitions include:
    * `hostByte`
    * `Only`
    * `Sets`

  Key theorems include:
    * `decode_alu`
    * `Sets.after`
-/

------------------------------------------------------------
-- Bytes Of Immediates
------------------------------------------------------------

namespace RiscvEm

open X86

/- Two neighbouring fields of a word make one field. -/
theorem shiftRight_append
    {w : Nat}
    (x : BitVec w)
    (k n m : Nat) :
    (x >>> (k + n)).setWidth m ++ (x >>> k).setWidth n =
      (x >>> k).setWidth (m + n) := by
  apply BitVec.eq_of_getLsbD_eq
  intro i hi
  simp only [BitVec.getLsbD_append, BitVec.getLsbD_setWidth,
    BitVec.getLsbD_ushiftRight]
  by_cases hLow : i < n
  · simp [hLow, hi]
  · simp [hLow, hi, show i - n < m by omega,
      show k + n + (i - n) = k + i by omega]

/- Four bytes of a word make 32 bits of it. -/
theorem word_of_bytes
    {w : Nat}
    (x : BitVec w)
    (k : Nat) :
    (x >>> (k + 24)).setWidth 8 ++
        (x >>> (k + 16)).setWidth 8 ++
        (x >>> (k + 8)).setWidth 8 ++ (x >>> k).setWidth 8 =
      (x >>> k).setWidth 32 := by
  have hTop := shiftRight_append x (k + 16) 8 8
  have hMid := shiftRight_append x (k + 8) 8 16
  have hLow := shiftRight_append x k 8 24
  rw [← hLow, ← hMid, ← hTop]

/- Four bytes read back as the immediate. -/
theorem imm32_run
    (imm : BitVec 32)
    (rest : Code) :
    imm32.run (bytes32 imm ++ rest) = some (imm, rest) := by
  have hWord := word_of_bytes imm 0
  simp only [Nat.zero_add, BitVec.ushiftRight_zero,
    BitVec.setWidth_eq] at hWord
  show some (_, rest) = _
  rw [hWord]

/- Eight bytes are read back as an immediate. -/
theorem imm64_run
    (imm : BitVec 64)
    (rest : Code) :
    imm64.run (bytes64 imm ++ rest) = some (imm, rest) := by
  have hLow := word_of_bytes imm 0
  have hHigh := word_of_bytes imm 32
  have hBoth := shiftRight_append imm 0 32 32
  show some (_, rest) = _
  simp only [Nat.reduceAdd, Nat.reduceMul,
    BitVec.ushiftRight_zero, BitVec.setWidth_eq]
    at hLow hHigh hBoth ⊢
  rw [hLow, hHigh, hBoth]

end RiscvEm

------------------------------------------------------------
-- Prefix And ModRM
------------------------------------------------------------

namespace RiscvEm

open X86

/- The byte that the emitter has for a host register. -/
def hostByte
    (r : Reg) : BitVec 8 :=
  r.setWidth 8

/- The low bits of a register's byte. -/
theorem hostByte_low
    (r : Reg) :
    hostByte r &&& 7 = (r.setWidth 3).setWidth 8 := by
  revert r
  decide

/- The low bits and the prefix name the register. -/
theorem regOf_hostByte
    (r : Reg) :
    regOf (high (hostByte r)) (r.setWidth 3) = r := by
  revert r
  decide

/- A prefix is read with the opcode behind it. -/
theorem decode_rex
    (w r x b : Bool)
    (op : BitVec 8)
    (rest : Code) :
    decode (rex w r x b :: op :: rest) =
      (opcode false ⟨true, w, r, x, b⟩ op).run rest := by
  cases w <;> cases r <;> cases x <;> cases b <;> rfl

/- The fields of a ModRM byte. -/
theorem modrm_fields
    (f d : BitVec 3) :
    (modrm 3 (f.setWidth 8) (d.setWidth 8)).extractLsb' 6 2 =
        3#2 ∧
      (modrm 3 (f.setWidth 8) (d.setWidth 8)).extractLsb' 3 3 =
        f ∧
      (modrm 3 (f.setWidth 8) (d.setWidth 8)).extractLsb' 0 3 =
        d := by
  revert f d
  decide +kernel

/- A ModRM byte for two registers. -/
theorem modRm_of_byte
    {m : BitVec 8}
    {f d : BitVec 3}
    (hMod : m.extractLsb' 6 2 = 3#2)
    (hField : m.extractLsb' 3 3 = f)
    (hRm : m.extractLsb' 0 3 = d)
    (rx : Rex)
    (rest : Code) :
    (modRm rx).run (m :: rest) =
      some (⟨f, regOf rx.r f, .reg (regOf rx.b d)⟩, rest) := by
  subst hField hRm
  have hRun : (modRm rx).run (m :: rest) =
      (if m.extractLsb' 6 2 = 3#2 then
        Reader.unit ⟨m.extractLsb' 3 3,
          regOf rx.r (m.extractLsb' 3 3),
          .reg (regOf rx.b (m.extractLsb' 0 3))⟩
      else
        (memOperand rx (m.extractLsb' 6 2)
          (m.extractLsb' 0 3)).bind fun a =>
            Reader.unit ⟨m.extractLsb' 3 3,
              regOf rx.r (m.extractLsb' 3 3),
              .mem a⟩ : Reader ModRm).run rest :=
    rfl
  rw [hRun, if_pos hMod]
  rfl

/- A ModRM byte that the emitter makes is read back. -/
theorem modRm_run
    (rx : Rex)
    (f d : BitVec 3)
    (rest : Code) :
    (modRm rx).run
        (modrm 3 (f.setWidth 8) (d.setWidth 8) :: rest) =
      some (⟨f, regOf rx.r f, .reg (regOf rx.b d)⟩, rest) := by
  rcases modrm_fields f d with ⟨hMod, hField, hRm⟩
  exact modRm_of_byte hMod hField hRm rx rest

/- An opcode with a ModRM byte that names registers. -/
theorem decode_modRm
    {w r x b : Bool}
    {op : BitVec 8}
    {K : ModRm → Reader Instr}
    (hOp : opcode false ⟨true, w, r, x, b⟩ op =
      (modRm ⟨true, w, r, x, b⟩).bind K)
    (f d : BitVec 3)
    (rest : Code) :
    decode (rex w r x b :: op ::
        modrm 3 (f.setWidth 8) (d.setWidth 8) :: rest) =
      (K ⟨f, regOf r f, .reg (regOf b d)⟩).run rest := by
  rw [decode_rex, hOp]
  show ((modRm _).run _).bind _ = _
  rw [modRm_run]
  rfl

end RiscvEm

------------------------------------------------------------
-- Register Forms
------------------------------------------------------------

namespace RiscvEm

open X86

/- A move between registers is decoded. -/
theorem decode_mov
    (d s : Reg) :
    decode (mov (hostByte d) (hostByte s)) =
      some (.mov d s, []) := by
  unfold mov rrOp
  rw [hostByte_low, hostByte_low, decode_rex]
  show ((modRm _).run _).bind _ = _
  rw [modRm_run, regOf_hostByte, regOf_hostByte]
  rfl

/- An operation on two registers. -/
theorem decode_alu
    {op : BitVec 8}
    {alu : Alu}
    (hOp : ∀ rx, opcode false rx op =
      (modRm rx).bind fun m => m.rm.asReg.bind fun dst =>
        Reader.unit (.alu alu rx.w dst m.reg))
    (w : Bool)
    (d s : Reg) :
    decode (rrOp w op (hostByte d) (hostByte s)) =
      some (.alu alu w d s, []) := by
  unfold rrOp
  rw [hostByte_low, hostByte_low, decode_modRm (hOp _),
    regOf_hostByte, regOf_hostByte]
  rfl

/- The operation of the group `81` stands in the ModRM byte. -/
theorem decode_aluImm
    {f : BitVec 3}
    {alu : Alu}
    (hField : aluOfField f = some alu)
    (w : Bool)
    (d : Reg)
    (imm : BitVec 32) :
    decode (rimm32Op w (f.setWidth 8) (hostByte d) imm) =
      some (.aluImm alu w d imm, []) := by
  have hOp : ∀ rx, opcode false rx 0x81 =
      (modRm rx).bind fun m =>
        (Reader.ofOption (aluOfField m.field)).bind fun alu =>
          m.rm.asReg.bind fun dst =>
            imm32.bind fun imm =>
              Reader.unit (.aluImm alu rx.w dst imm) :=
    fun _ => rfl
  unfold rimm32Op
  rw [hostByte_low, List.cons_append, List.cons_append,
    List.cons_append, List.nil_append, decode_modRm (hOp _),
    regOf_hostByte]
  have hImm := imm32_run imm []
  rw [List.append_nil] at hImm
  simp [hField, hImm]

/- A move of 32 bits extends their sign. -/
theorem decode_movImm32
    (d : Reg)
    (imm : BitVec 32) :
    decode (movImm32 (hostByte d) imm) =
      some (.movImm d (imm.signExtend 64), []) := by
  have hOp : ∀ rx, opcode false rx 0xC7 =
      (modRm rx).bind fun m =>
        m.rm.asReg.bind fun dst =>
          (Reader.ensure (rx.w && m.field = 0)).bind fun _ =>
            imm32.bind fun imm =>
              Reader.unit (.movImm dst (imm.signExtend 64)) :=
    fun _ => rfl
  unfold movImm32
  rw [hostByte_low, List.cons_append, List.cons_append,
    List.cons_append, List.nil_append,
    show (0 : BitVec 8) = (0 : BitVec 3).setWidth 8 from rfl,
    decode_modRm (hOp _), regOf_hostByte]
  have hImm := imm32_run imm []
  rw [List.append_nil] at hImm
  simp [hImm]

/- A move of 64 bits takes them as they are. -/
theorem decode_movImm64_rcx
    (imm : BitVec 64) :
    decode (movImm64 REG_RCX imm) =
      some (.movImm 1 imm, []) := by
  have hImm := imm64_run imm []
  rw [List.append_nil] at hImm
  have hOpcode : decode (movImm64 REG_RCX imm) =
      ((Reader.ensure true).bind fun _ =>
        imm64.bind fun imm =>
          Reader.unit (.movImm 1 imm)).run (bytes64 imm) :=
    rfl
  rw [hOpcode]
  simp [hImm]

/- A move that extends the sign. -/
theorem decode_movsxd
    (d s : Reg) :
    decode (movsxd (hostByte d) (hostByte s)) =
      some (.movsxd d s, []) := by
  have hOp : ∀ rx, opcode false rx 0x63 =
      (modRm rx).bind fun m =>
        m.rm.asReg.bind fun src =>
          (Reader.ensure rx.w).bind fun _ =>
            Reader.unit (.movsxd m.reg src) :=
    fun _ => rfl
  unfold movsxd
  rw [hostByte_low, hostByte_low, decode_modRm (hOp _),
    regOf_hostByte, regOf_hostByte]
  rfl

/- The instructions that name one register and no more. -/
theorem decode_oneReg :
    ∀ d : Reg,
      decode (movzx (hostByte d) (hostByte d)) =
          some (.movzx8 d d, []) ∧
        decode (setl (hostByte d)) =
          some (.setcc .l d, []) ∧
        decode (setb (hostByte d)) =
          some (.setcc .b d, []) ∧
        decode (push (hostByte d)) = some (.push d, []) ∧
        decode (pop (hostByte d)) = some (.pop d, []) := by
  decide +kernel

/- A move that extends a byte by zeros. -/
theorem decode_movzx
    (d : Reg) :
    decode (movzx (hostByte d) (hostByte d)) =
      some (.movzx8 d d, []) :=
  (decode_oneReg d).1

/- The second instruction of a shift by `CL`. -/
theorem decode_shiftCl
    {f : BitVec 3}
    {op : Shift}
    (hField : shiftOfField f = some op)
    (w : Bool)
    (d : Reg) :
    decode [rex w false false (high (hostByte d)), 0xD3,
        modrm 3 (f.setWidth 8) (hostByte d &&& 7)] =
      some (.shiftCl op w d, []) := by
  have hOp : ∀ rx, opcode false rx 0xD3 =
      (modRm rx).bind fun m =>
        (Reader.ofOption (shiftOfField m.field)).bind fun sh =>
          m.rm.asReg.bind fun dst =>
            Reader.unit (.shiftCl sh rx.w dst) :=
    fun _ => rfl
  rw [hostByte_low, decode_modRm (hOp _), regOf_hostByte]
  dsimp only
  rw [hField]
  rfl

/- A shift by an immediate is decoded. -/
theorem decode_shiftImm
    {f : BitVec 3}
    {op : Shift}
    (hField : shiftOfField f = some op)
    (w : Bool)
    (d : Reg)
    (imm : BitVec 8) :
    decode (shiftImm8 w (f.setWidth 8) (hostByte d) imm) =
      some (.shiftImm op w d imm, []) := by
  have hOp : ∀ rx, opcode false rx 0xC1 =
      (modRm rx).bind fun m =>
        (Reader.ofOption (shiftOfField m.field)).bind fun sh =>
          m.rm.asReg.bind fun dst =>
            Reader.byte.bind fun imm =>
              Reader.unit (.shiftImm sh rx.w dst imm) :=
    fun _ => rfl
  unfold shiftImm8
  rw [hostByte_low, decode_modRm (hOp _), regOf_hostByte]
  dsimp only
  rw [hField]
  rfl

/- The byte of a signed comparison. -/
theorem decode_setl
    (d : Reg) :
    decode (setl (hostByte d)) = some (.setcc .l d, []) :=
  (decode_oneReg d).2.1

/- The byte of an unsigned one. -/
theorem decode_setb
    (d : Reg) :
    decode (setb (hostByte d)) = some (.setcc .b d, []) :=
  (decode_oneReg d).2.2.1

end RiscvEm

------------------------------------------------------------
-- Memory And Stack Forms
------------------------------------------------------------

namespace RiscvEm

open X86

/- The element of `GPR` of a guest register, from `R13`. -/
def regAddr
    (r : BitVec 5) : Addr :=
  ⟨13, none, 0, r.setWidth 64 * 8⟩

/- Both ways between a host register and `GPR`. -/
theorem decode_moveReg :
    ∀ (d : Reg) (r : BitVec 5),
      decode (movRm (hostByte d) REG_R13 NO_INDEX 0
          (JitEmitter.vregDisp r)) =
            some (.load d (regAddr r), []) ∧
        decode (movMr (hostByte d) REG_R13 NO_INDEX 0
          (JitEmitter.vregDisp r)) =
            some (.store 8 (regAddr r) d, []) := by
  decide +kernel

/- A guest register is loaded from the context. -/
theorem decode_loadReg
    (d : Reg)
    (r : BitVec 5) :
    decode (movRm (hostByte d) REG_R13 NO_INDEX 0
        (JitEmitter.vregDisp r)) =
      some (.load d (regAddr r), []) :=
  (decode_moveReg d r).1

/- A store of a guest register is decoded. -/
theorem decode_storeReg
    (s : Reg)
    (r : BitVec 5) :
    decode (movMr (hostByte s) REG_R13 NO_INDEX 0
        (JitEmitter.vregDisp r)) =
      some (.store 8 (regAddr r) s, []) :=
  (decode_moveReg s r).2

/- A push is decoded. -/
theorem decode_push
    (r : Reg) :
    decode (push (hostByte r)) = some (.push r, []) :=
  (decode_oneReg r).2.2.2.1

/- A pop is decoded. -/
theorem decode_pop
    (r : Reg) :
    decode (pop (hostByte r)) = some (.pop r, []) :=
  (decode_oneReg r).2.2.2.2

end RiscvEm

------------------------------------------------------------
-- Code That Sets One Register
------------------------------------------------------------

namespace RiscvEm

open X86

variable {M : Type}
variable {E : Env M}

/-
  Nothing but one register, `RCX` and the flags may have
  changed.
-/
structure Only
    (r : Reg)
    (m m' : X86.Machine M) : Prop where
  regs : ∀ q, q ≠ r → q ≠ 1 → m'.regs q = m.regs q
  stack : m'.stack = m.stack
  mem : m'.mem = m.mem

/- Setting one register twice changes no other. -/
theorem Only.trans
    {r : Reg}
    {m m' m'' : X86.Machine M}
    (h : Only r m m')
    (h' : Only r m' m'') :
    Only r m m'' := by
  refine ⟨?_, ?_, ?_⟩
  · intro q hReg hRcx
    rw [h'.regs q hReg hRcx, h.regs q hReg hRcx]
  · rw [h'.stack, h.stack]
  · rw [h'.mem, h.mem]

/- Setting a register changes no other. -/
theorem Only.setReg
    (m : X86.Machine M)
    (r : Reg)
    (v : BitVec 64) :
    Only r m (m.setReg r v) := by
  refine ⟨?_, rfl, rfl⟩
  intro q hReg _
  exact Machine.setReg_of_ne hReg m v

/- The count may be put into `rcx`. -/
theorem Only.setRcx
    (m : X86.Machine M)
    (r : Reg)
    (v : BitVec 64) :
    Only r m (m.setReg 1 v) := by
  refine ⟨?_, rfl, rfl⟩
  intro q _ hRcx
  exact Machine.setReg_of_ne hRcx m v

/- Changing the flags changes no register. -/
theorem Only.setFlags
    {r : Reg}
    {m m' : X86.Machine M}
    (h : Only r m m')
    (f : Option Flags) :
    Only r m (m'.setFlags f) :=
  ⟨h.regs, h.stack, h.mem⟩

/- The code leaves a value in a register. -/
def Sets
    (E : Env M)
    (code : Code)
    (r : Reg)
    (v : BitVec 64)
    (m : X86.Machine M) : Prop :=
  ∃ m', E.Runs code m m' ∧ Only r m m' ∧ m'.regs r = v

/- Code before it may prepare `RCX` and the register. -/
theorem Sets.after
    {c c' : Code}
    {r : Reg}
    {v : BitVec 64}
    {m m₁ : X86.Machine M}
    (h : Sets E c' r v m₁)
    (hFirst : E.Runs c m m₁)
    (hOnly : Only r m m₁) :
    Sets E (c ++ c') r v m := by
  rcases h with ⟨m', hRuns, hOnly', hValue⟩
  exact ⟨m', hFirst.append hRuns, hOnly.trans hOnly', hValue⟩

/- One instruction that computes a register. -/
theorem Sets.instr
    {c : Code}
    {i : Instr}
    {r : Reg}
    {v : BitVec 64}
    {m m' : X86.Machine M}
    (hDecode : decode c = some (i, []))
    (hExec : E.exec i m = some (.next m'))
    (hOnly : Only r m m')
    (hValue : m'.regs r = v) :
    Sets E c r v m :=
  ⟨m', .instr hDecode hExec, hOnly, hValue⟩

/- A move runs to its end. -/
theorem runs_mov
    (m : X86.Machine M)
    (d s : Reg) :
    E.Runs (mov (hostByte d) (hostByte s)) m
      (m.setReg d (m.regs s)) :=
  .instr (decode_mov d s) rfl

/- It sets its target only. -/
theorem sets_mov
    (m : X86.Machine M)
    (d s : Reg) :
    Sets E (mov (hostByte d) (hostByte s)) d (m.regs s) m :=
  ⟨_, runs_mov m d s, .setReg m d _, m.setReg_self d _⟩

/- The move of an immediate sets its target only. -/
theorem sets_movImm32
    (m : X86.Machine M)
    (d : Reg)
    (imm : BitVec 32) :
    Sets E (movImm32 (hostByte d) imm) d (imm.signExtend 64)
      m :=
  .instr (decode_movImm32 d imm) rfl (.setReg m d _)
    (Machine.setReg_self ..)

/- The usual way to clear a register. -/
theorem sets_xor_self
    (m : X86.Machine M)
    (d : Reg) :
    Sets E (xorRr (hostByte d) (hostByte d)) d 0 m := by
  apply Sets.instr (decode_alu (fun _ => rfl) true d d) rfl
  · exact (Only.setReg m d _).setFlags _
  · exact (Machine.setReg_self ..).trans BitVec.xor_self

/- Sign extension of the lower half follows. -/
theorem Sets.movsxd
    {c : Code}
    {d : Reg}
    {v : BitVec 64}
    {m : X86.Machine M}
    (h : Sets E c d v m) :
    Sets E (c ++ RiscvEm.movsxd (hostByte d) (hostByte d)) d
      ((v.setWidth 32).signExtend 64) m := by
  rcases h with ⟨m', hRuns, hOnly, hValue⟩
  refine Sets.after ?_ hRuns hOnly
  apply Sets.instr (decode_movsxd d d) rfl (.setReg m' d _)
  rw [← hValue]
  exact Machine.setReg_self ..

end RiscvEm

------------------------------------------------------------
-- Operations In Place
------------------------------------------------------------

namespace RiscvEm

open X86

/- `op dest, source` replaces `dest` by a function of both. -/
def ActsInPlace
    (op : BitVec 8 → BitVec 8 → Code)
    (f : BitVec 64 → BitVec 64 → BitVec 64) : Prop :=
  ∀ {M : Type} (E : Env M) (m : X86.Machine M) (d s : Reg),
    d ≠ 1 →
      Sets E (op (hostByte d) (hostByte s)) d
        (f (m.regs d) (m.regs s)) m

/- `op dest, imm` replaces `dest`. -/
def ActsInPlaceImm
    (op : BitVec 8 → BitVec 64 → Code)
    (f : BitVec 64 → BitVec 64 → BitVec 64) : Prop :=
  ∀ {M : Type} (E : Env M) (m : X86.Machine M) (d : Reg)
    (imm : BitVec 64),
    Sets E (op (hostByte d) imm) d (f (m.regs d) imm) m

/- An operation of the arithmetic unit acts in place. -/
theorem ActsInPlace.alu
    {op : BitVec 8}
    {a : Alu}
    (hOp : ∀ rx, opcode false rx op =
      (modRm rx).bind fun m => m.rm.asReg.bind fun dst =>
        Reader.unit (.alu a rx.w dst m.reg))
    (w : Bool) :
    ActsInPlace (rrOp w op)
      (fun x y => (a.apply w x y).1) := by
  intro M E m d s _
  apply Sets.instr (decode_alu hOp w d s) rfl
  · exact (Only.setReg m d _).setFlags _
  · exact Machine.setReg_self ..

/- A shift by `cl` acts in place. -/
theorem ActsInPlace.shiftCl
    {f : BitVec 3}
    {op : Shift}
    (hField : shiftOfField f = some op)
    (w : Bool) :
    ActsInPlace (shiftRc w (f.setWidth 8))
      (fun x y => op.apply w x (y.setWidth 8)) := by
  intro M E m d s hd
  refine Sets.after ?_ (runs_mov m 1 s) (.setRcx m d _)
  apply Sets.instr (decode_shiftCl hField w d) rfl
  · exact (Only.setReg _ d _).setFlags _
  · have hDest : (m.setReg 1 (m.regs s)).regs d = m.regs d :=
      Machine.setReg_of_ne hd m _
    have hCount : (m.setReg 1 (m.regs s)).regs 1 = m.regs s :=
      Machine.setReg_self ..
    rw [← hDest, ← hCount]
    exact Machine.setReg_self ..

/- An operation with an immediate acts in place. -/
theorem ActsInPlaceImm.alu
    {f : BitVec 3}
    {a : Alu}
    (hField : aluOfField f = some a)
    (w : Bool) :
    ActsInPlaceImm
      (fun dest imm =>
        rimm32Op w (f.setWidth 8) dest (imm.setWidth 32))
      (fun x imm =>
        (a.apply w x ((imm.setWidth 32).signExtend 64)).1) := by
  intro M E m d imm
  apply Sets.instr (decode_aluImm hField w d _) rfl
  · exact (Only.setReg m d _).setFlags _
  · exact Machine.setReg_self ..

/- A shift by an immediate that is masked. -/
theorem ActsInPlaceImm.shift
    {f : BitVec 3}
    {op : Shift}
    (hField : shiftOfField f = some op)
    (w : Bool)
    (mask : BitVec 64) :
    ActsInPlaceImm
      (fun dest imm =>
        shiftImm8 w (f.setWidth 8) dest
          ((imm &&& mask).setWidth 8))
      (fun x imm =>
        op.apply w x ((imm &&& mask).setWidth 8)) := by
  intro M E m d imm
  apply Sets.instr (decode_shiftImm hField w d _) rfl
  · exact (Only.setReg m d _).setFlags _
  · exact Machine.setReg_self ..

end RiscvEm

------------------------------------------------------------
-- Comparisons
------------------------------------------------------------

namespace RiscvEm

open X86

variable {M : Type}
variable {E : Env M}

/- `SETcc` writes one byte; the extension clears the rest. -/
theorem lowByte_setcc
    (x : BitVec 64)
    (c : Bool) :
    ((((x &&& ~~~0xFF) ||| (if c then 1 else 0)).setWidth
        8).setWidth 64 : BitVec 64) =
      if c then 1 else 0 := by
  have hLow : (~~~0xFF : BitVec 64).setWidth 8 = 0 := by decide
  rw [BitVec.setWidth_or, BitVec.setWidth_and, hLow]
  cases c <;> simp

/- Compare, set the byte and extend it. -/
theorem sets_compare
    {set : BitVec 8 → Code}
    {c : Cond}
    (hSet : ∀ d, decode (set (hostByte d)) =
      some (.setcc c d, []))
    (m : X86.Machine M)
    (d x y : Reg) :
    Sets E
      (cmp (hostByte x) (hostByte y) ++ set (hostByte d) ++
        movzx (hostByte d) (hostByte d))
      d
      (if c.holds (subFlags (m.regs x) (m.regs y)) then 1
        else 0)
      m := by
  generalize hFlags : subFlags (m.regs x) (m.regs y) = fl
  have hCmp : E.Runs (cmp (hostByte x) (hostByte y)) m
      (m.setFlags (some fl)) := by
    apply Env.Runs.instr (decode_alu (fun _ => rfl) true x y)
    show some (Outcome.next
      ((m.setReg x (m.regs x)).setFlags _)) = _
    rw [m.setReg_regs, ← hFlags]
  have hByte : E.Runs (set (hostByte d))
      (m.setFlags (some fl))
      ((m.setFlags (some fl)).setReg d
        ((m.regs d &&& ~~~0xFF) |||
          (if c.holds fl then 1 else 0))) :=
    .instr (hSet d) rfl
  have hFlagsOnly : Only d m (m.setFlags (some fl)) :=
    ⟨fun _ _ _ => rfl, rfl, rfl⟩
  refine Sets.after ?_ (hCmp.append hByte)
    (hFlagsOnly.trans (.setReg _ d _))
  apply Sets.instr (decode_movzx d) rfl (.setReg _ d _)
  rw [Machine.setReg_self, Machine.setReg_self]
  exact lowByte_setcc (m.regs d) (c.holds fl)

end RiscvEm
