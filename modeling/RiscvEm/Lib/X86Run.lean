import RiscvEm.Lib.X86

/-
  Execution of x86-64 code from the fragment, over an
  arbitrary memory.

  The stack is kept apart from the memory: `PUSH` and `POP`
  work on a list, and `RET` with an empty stack returns to
  the caller of the code. Reading flags that an instruction
  left undefined is a fault, as is any access that the
  environment refuses.

  Straight-line code is reasoned about by fragments: `Runs`
  says that a fragment, wherever it stands in the code, takes
  a machine to another and leaves at its end, and `Fails`
  that it comes to a fault. No fragment does both, and it
  takes a machine to one other at most.

  Key definitions include:
    * `Machine`
    * `Env`
    * `Env.exec`
    * `Env.run`
    * `Env.Runs`
    * `Env.Fails`

  Key theorems include:
    * `Env.run_preserves`
    * `Env.Runs.append`
    * `Env.Runs.unique`
-/

------------------------------------------------------------
-- Machines
------------------------------------------------------------

namespace X86

structure Flags where
  cf : Bool
  zf : Bool
  sf : Bool
  of : Bool
  deriving DecidableEq, Repr

structure Machine (M : Type) where
  regs : Reg → BitVec 64
  flags : Option Flags
  stack : List (BitVec 64)
  mem : M

/-
  What surrounds the code: loads of eight bytes, stores of a
  number of bytes, and the effect of calling an address on
  the registers and the memory.
-/
structure Env (M : Type) where
  load : M → BitVec 64 → Option (BitVec 64)
  store : M → BitVec 64 → Nat → BitVec 64 → Option M
  call : BitVec 64 → (Reg → BitVec 64) → M →
    Option ((Reg → BitVec 64) × M)

namespace Machine

variable {M : Type}

def setReg
    (m : Machine M)
    (r : Reg)
    (v : BitVec 64) : Machine M :=
  { m with regs := Function.update m.regs r v }

def setFlags
    (m : Machine M)
    (f : Option Flags) : Machine M :=
  { m with flags := f }

/- A register reads what was set. -/
@[simp] theorem setReg_self
    (m : Machine M)
    (r : Reg)
    (v : BitVec 64) :
    (m.setReg r v).regs r = v := by
  simp [setReg]

/- Setting a register leaves the others. -/
theorem setReg_of_ne
    {r q : Reg}
    (h : q ≠ r)
    (m : Machine M)
    (v : BitVec 64) :
    (m.setReg r v).regs q = m.regs q := by
  simp [setReg, h]

/- Setting what was there changes nothing. -/
@[simp] theorem setReg_regs
    (m : Machine M)
    (r : Reg) :
    m.setReg r (m.regs r) = m := by
  simp [setReg]

/- Flags are no registers. -/
@[simp] theorem setFlags_regs
    (m : Machine M)
    (f : Option Flags) :
    (m.setFlags f).regs = m.regs :=
  rfl

def addr
    (m : Machine M)
    (a : Addr) : BitVec 64 :=
  m.regs a.base +
    (match a.index with
    | some i => m.regs i <<< a.scale.toNat
    | none => 0) +
    a.disp

end Machine

end X86

------------------------------------------------------------
-- Arithmetic
------------------------------------------------------------

namespace X86

/- Flags of an addition. -/
def addFlags
    {w : Nat}
    (a b : BitVec w) : Flags :=
  ⟨a.uaddOverflow b, a + b == 0, (a + b).msb,
    a.saddOverflow b⟩

/- Flags of a subtraction or comparison. -/
def subFlags
    {w : Nat}
    (a b : BitVec w) : Flags :=
  ⟨decide (a < b), a - b == 0, (a - b).msb,
    a.ssubOverflow b⟩

/- Flags of a logical operation. -/
def logicFlags
    {w : Nat}
    (x : BitVec w) : Flags :=
  ⟨false, x == 0, x.msb, false⟩

/- The value and the flags of an operation. -/
def Alu.eval
    {w : Nat}
    (op : Alu)
    (a b : BitVec w) : BitVec w × Flags :=
  match op with
  | .add => (a + b, addFlags a b)
  | .sub => (a - b, subFlags a b)
  | .cmp => (a, subFlags a b)
  | .and => (a &&& b, logicFlags (a &&& b))
  | .or => (a ||| b, logicFlags (a ||| b))
  | .xor => (a ^^^ b, logicFlags (a ^^^ b))

/- A 32-bit result clears the upper half of its register. -/
def Alu.apply
    (op : Alu)
    (wide : Bool)
    (a b : BitVec 64) : BitVec 64 × Flags :=
  if wide then
    op.eval a b
  else
    let (x, f) := op.eval (a.setWidth 32) (b.setWidth 32)
    (x.setWidth 64, f)

/- The count is taken modulo the width of the operand. -/
def Shift.eval
    {w : Nat}
    (op : Shift)
    (a : BitVec w)
    (count : BitVec 8) : BitVec w :=
  let n := count.toNat % w
  match op with
  | .shl => a <<< n
  | .shr => a >>> n
  | .sar => a.sshiftRight n

def Shift.apply
    (op : Shift)
    (wide : Bool)
    (a : BitVec 64)
    (count : BitVec 8) : BitVec 64 :=
  if wide then
    op.eval a count
  else
    (op.eval (a.setWidth 32) count).setWidth 64

def Cond.holds
    (c : Cond)
    (f : Flags) : Bool :=
  match c with
  | .b => f.cf
  | .be => f.cf || f.zf
  | .l => f.sf != f.of

/- After a comparison the conditions compare numbers. -/
theorem Cond.holds_b
    (a b : BitVec 64) :
    Cond.b.holds (subFlags a b) = decide (a < b) :=
  rfl

/- Below or equal is decided by a comparison. -/
theorem Cond.holds_be
    (a b : BitVec 64) :
    Cond.be.holds (subFlags a b) = decide (a ≤ b) := by
  have ha := a.isLt
  have hb := b.isLt
  have hZero : (0 : BitVec 64).toNat = 0 := rfl
  simp only [holds, subFlags]
  rw [Bool.eq_iff_iff]
  simp only [Bool.or_eq_true, decide_eq_true_eq, beq_iff_eq,
    BitVec.lt_def, BitVec.le_def, ← BitVec.toNat_inj,
    BitVec.toNat_sub, hZero]
  omega

/- Less is decided by a comparison. -/
theorem Cond.holds_l
    (a b : BitVec 64) :
    Cond.l.holds (subFlags a b) = a.slt b := by
  have ha := a.isLt
  have hb := b.isLt
  have hSlt := BitVec.slt_iff_toInt_lt (x := a) (y := b)
  simp only [holds, subFlags]
  rw [Bool.eq_iff_iff, hSlt, BitVec.ssubOverflow_eq]
  simp only [BitVec.msb_eq_decide, BitVec.toNat_sub,
    BitVec.toInt_eq_toNat_cond]
  -- the signs of the operands decide which case overflows
  by_cases hA : 2 ^ (64 - 1) ≤ a.toNat <;>
    by_cases hB : 2 ^ (64 - 1) ≤ b.toNat <;>
    simp only [hA, hB, decide_true, decide_false,
      Bool.not_true, Bool.not_false, Bool.true_and,
      Bool.false_and, Bool.and_false, Bool.and_true,
      Bool.or_false, Bool.false_or, Bool.bne_false,
      bne_self_eq_false, Bool.bne_not_self,
      Bool.false_eq_true, decide_eq_true_eq, true_iff,
      false_iff] <;> omega

end X86

------------------------------------------------------------
-- Execution
------------------------------------------------------------

namespace X86

/- Where execution goes on after an instruction. -/
inductive Outcome (M : Type) where
  | next (m : Machine M)
  | jump (rel : BitVec 8) (m : Machine M)
  | done (m : Machine M)

namespace Env

variable {M : Type}

def exec
    (E : Env M)
    (i : Instr)
    (m : Machine M) : Option (Outcome M) :=
  match i with
  | .mov dst src => some (.next (m.setReg dst (m.regs src)))
  | .movImm dst imm => some (.next (m.setReg dst imm))
  | .movsxd dst src =>
      some (.next (m.setReg dst
        (((m.regs src).setWidth 32).signExtend 64)))
  | .movzx8 dst src =>
      some (.next (m.setReg dst
        (((m.regs src).setWidth 8).setWidth 64)))
  | .alu op wide dst src =>
      let (x, f) := op.apply wide (m.regs dst) (m.regs src)
      some (.next ((m.setReg dst x).setFlags (some f)))
  | .aluImm op wide dst imm =>
      let (x, f) := op.apply wide (m.regs dst)
        (imm.signExtend 64)
      some (.next ((m.setReg dst x).setFlags (some f)))
  | .shiftCl op wide dst =>
      some (.next ((m.setReg dst
        (op.apply wide (m.regs dst)
          ((m.regs 1).setWidth 8))).setFlags none))
  | .shiftImm op wide dst imm =>
      some (.next ((m.setReg dst
        (op.apply wide (m.regs dst) imm)).setFlags none))
  | .setcc c dst => do
      let f ← m.flags
      let bit : BitVec 64 := if c.holds f then 1 else 0
      some (.next (m.setReg dst
        ((m.regs dst &&& ~~~0xFF) ||| bit)))
  | .load dst a => do
      let v ← E.load m.mem (m.addr a)
      some (.next (m.setReg dst v))
  | .store bytes a src => do
      let mem ← E.store m.mem (m.addr a) bytes (m.regs src)
      some (.next { m with mem := mem })
  | .cmpMem dst a => do
      let v ← E.load m.mem (m.addr a)
      some (.next (m.setFlags (some
        (subFlags (m.regs dst) v))))
  | .push r =>
      some (.next { m with stack := m.regs r :: m.stack })
  | .pop r =>
      match m.stack with
      | v :: vs =>
          some (.next { (m.setReg r v) with stack := vs })
      | [] => none
  | .call r => do
      let (regs, mem) ← E.call (m.regs r) m.regs m.mem
      some (.next { m with
        regs := regs, flags := none, mem := mem })
  | .ret => if m.stack = [] then some (.done m) else none
  | .jcc c rel => do
      let f ← m.flags
      some (if c.holds f then .jump rel m else .next m)
  | .jmp rel => some (.jump rel m)

/- The position that a jump from `next` leads to. -/
def target
    (next : Nat)
    (rel : BitVec 8) : Option Nat :=
  let t := (next : Int) + rel.toInt
  if 0 ≤ t then some t.toNat else none

/- At most `fuel` instructions from position `ip` on. -/
def run
    (E : Env M)
    (code : Bytes) :
    Nat → Nat → Machine M → Option (Machine M)
  | 0, _, _ => none
  | fuel + 1, ip, m => do
      let (i, rest) ← decode (code.drop ip)
      let next := code.length - rest.length
      match ← E.exec i m with
      | .next m => run E code fuel next m
      | .jump rel m => do
          let ip ← target next rel
          run E code fuel ip m
      | .done m => some m

end Env

end X86

------------------------------------------------------------
-- What Runs Preserve
------------------------------------------------------------

namespace X86

namespace Env

variable {M : Type}

/- A property of memory that stores and calls keep. -/
structure Preserves
    (E : Env M)
    (p : M → Prop) : Prop where
  store : ∀ {mem mem' : M} {a : BitVec 64} {n : Nat}
    {v : BitVec 64},
    E.store mem a n v = some mem' → p mem → p mem'
  call : ∀ {mem mem' : M} {a : BitVec 64}
    {regs regs' : Reg → BitVec 64},
    E.call a regs mem = some (regs', mem') → p mem → p mem'

/- The machine that an instruction leaves. -/
def outcomeMachine : Outcome M → Machine M
  | .next m => m
  | .jump _ m => m
  | .done m => m

/- An instruction preserves what its accesses preserve. -/
theorem exec_preserves
    {E : Env M}
    {p : M → Prop}
    (hE : E.Preserves p)
    {i : Instr}
    {m : Machine M}
    {o : Outcome M}
    (h : E.exec i m = some o)
    (hp : p m.mem) :
    p (outcomeMachine o).mem := by
  cases i with
  | mov | movImm | movsxd | movzx8 | alu | aluImm | shiftCl
  | shiftImm | push | jmp =>
      cases h
      exact hp
  | setcc c dst =>
      rcases Option.bind_eq_some_iff.mp h with ⟨f, -, h⟩
      cases h
      exact hp
  | load dst a =>
      rcases Option.bind_eq_some_iff.mp h with ⟨v, -, h⟩
      cases h
      exact hp
  | store bytes a src =>
      rcases Option.bind_eq_some_iff.mp h with
        ⟨mem, hStore, h⟩
      cases h
      exact hE.store hStore hp
  | cmpMem dst a =>
      rcases Option.bind_eq_some_iff.mp h with ⟨v, -, h⟩
      cases h
      exact hp
  | pop r =>
      unfold exec at h
      dsimp only at h
      split at h
      · cases h
        exact hp
      · cases h
  | call r =>
      rcases Option.bind_eq_some_iff.mp h with
        ⟨⟨regs, mem⟩, hCall, h⟩
      cases h
      exact hE.call hCall hp
  | ret =>
      unfold exec at h
      dsimp only at h
      split at h
      · cases h
        exact hp
      · cases h
  | jcc c rel =>
      rcases Option.bind_eq_some_iff.mp h with ⟨f, -, h⟩
      cases h
      split <;> exact hp

/- What every store and call keeps, a run keeps. -/
theorem run_preserves
    {E : Env M}
    {p : M → Prop}
    (hE : E.Preserves p)
    {code : Bytes}
    {fuel ip : Nat}
    {m m' : Machine M}
    (h : E.run code fuel ip m = some m')
    (hp : p m.mem) :
    p m'.mem := by
  induction fuel generalizing ip m with
  | zero => cases h
  | succ fuel ih =>
      rcases Option.bind_eq_some_iff.mp h with
        ⟨⟨i, rest⟩, -, h⟩
      rcases Option.bind_eq_some_iff.mp h with ⟨o, hExec, h⟩
      have hNext := exec_preserves hE hExec hp
      cases o with
      | next m₁ => exact ih h hNext
      | jump rel m₁ =>
          rcases Option.bind_eq_some_iff.mp h with ⟨ip', -, h⟩
          exact ih h hNext
      | done m₁ =>
          cases h
          exact hNext

end Env

end X86

------------------------------------------------------------
-- Fragments
------------------------------------------------------------

namespace X86

namespace Env

variable {M : Type}
variable {E : Env M}

/-
  A fragment takes `m` to `m'`, in no more steps than it has
  bytes, whatever code stands around it.
-/
def Runs
    (E : Env M)
    (frag : Bytes)
    (m m' : Machine M) : Prop :=
  ∃ n ≤ frag.length, ∀ (pre post : Bytes) (fuel : Nat),
    E.run (pre ++ frag ++ post) (n + fuel) pre.length m =
      E.run (pre ++ frag ++ post) fuel
        (pre ++ frag).length m'

/- A fragment comes to a fault. -/
def Fails
    (E : Env M)
    (frag : Bytes)
    (m : Machine M) : Prop :=
  ∃ n ≤ frag.length, ∀ (pre post : Bytes) (fuel : Nat),
    E.run (pre ++ frag ++ post) (n + fuel) pre.length m = none

/- No code leaves the machine as it is. -/
theorem Runs.nil
    (m : Machine M) :
    E.Runs [] m m := by
  refine ⟨0, Nat.zero_le _, ?_⟩
  intro pre post fuel
  simp

/- Fragments run one after the other. -/
theorem Runs.append
    {f g : Bytes}
    {m m' m'' : Machine M}
    (hf : E.Runs f m m')
    (hg : E.Runs g m' m'') :
    E.Runs (f ++ g) m m'' := by
  obtain ⟨nf, hnf, hf⟩ := hf
  obtain ⟨ng, hng, hg⟩ := hg
  refine ⟨nf + ng, by simp; omega, ?_⟩
  intro pre post fuel
  have hFirst := hf pre (g ++ post) (ng + fuel)
  have hSecond := hg (pre ++ f) post fuel
  simp only [List.append_assoc] at hFirst hSecond ⊢
  rw [Nat.add_assoc, hFirst, hSecond]

/- The fault may come in the second of two fragments. -/
theorem Runs.append_fails
    {f g : Bytes}
    {m m' : Machine M}
    (hf : E.Runs f m m')
    (hg : E.Fails g m') :
    E.Fails (f ++ g) m := by
  obtain ⟨nf, hnf, hf⟩ := hf
  obtain ⟨ng, hng, hg⟩ := hg
  refine ⟨nf + ng, by simp; omega, ?_⟩
  intro pre post fuel
  have hFirst := hf pre (g ++ post) (ng + fuel)
  have hSecond := hg (pre ++ f) post fuel
  simp only [List.append_assoc] at hFirst hSecond ⊢
  rw [Nat.add_assoc, hFirst, hSecond]

/- Nothing comes after a fault. -/
theorem Fails.append
    {f : Bytes}
    {m : Machine M}
    (hf : E.Fails f m)
    (g : Bytes) :
    E.Fails (f ++ g) m := by
  obtain ⟨n, hn, hf⟩ := hf
  refine ⟨n, by simp; omega, ?_⟩
  intro pre post fuel
  have hFirst := hf pre (g ++ post) fuel
  simp only [List.append_assoc] at hFirst ⊢
  exact hFirst

/- One step at the start of a fragment. -/
theorem run_step
    {bs : Bytes}
    {i : Instr}
    (hDecode : decode bs = some (i, []))
    (pre post : Bytes)
    (fuel : Nat)
    (m : Machine M) :
    E.run (pre ++ bs ++ post) (1 + fuel) pre.length m =
      (E.exec i m).bind fun o =>
        match o with
        | .next m => E.run (pre ++ bs ++ post) fuel
            (pre ++ bs).length m
        | .jump rel m =>
            (target (pre ++ bs).length rel).bind fun ip =>
              E.run (pre ++ bs ++ post) fuel ip m
        | .done m => some m := by
  have hDrop : (pre ++ bs ++ post).drop pre.length =
      bs ++ post := by
    rw [List.append_assoc, List.drop_left]
  have hNext : (pre ++ bs ++ post).length - post.length =
      (pre ++ bs).length := by
    simp only [List.length_append]
    omega
  rw [Nat.add_comm, run, hDrop, decode_append hDecode post]
  simp only [Option.bind_eq_bind, Option.bind_some, hNext]

/- No instruction is empty. -/
theorem length_pos_of_decode
    {bs : Bytes}
    {i : Instr}
    (hDecode : decode bs = some (i, [])) :
    1 ≤ bs.length := by
  cases bs with
  | nil => cases hDecode
  | cons b bs => simp

/- An instruction that falls through is a fragment. -/
theorem Runs.instr
    {bs : Bytes}
    {i : Instr}
    {m m' : Machine M}
    (hDecode : decode bs = some (i, []))
    (hExec : E.exec i m = some (.next m')) :
    E.Runs bs m m' := by
  refine ⟨1, length_pos_of_decode hDecode, ?_⟩
  intro pre post fuel
  rw [run_step hDecode, hExec, Option.bind_some]

/- An instruction that is refused is a fault. -/
theorem Fails.instr
    {bs : Bytes}
    {i : Instr}
    {m : Machine M}
    (hDecode : decode bs = some (i, []))
    (hExec : E.exec i m = none) :
    E.Fails bs m := by
  refine ⟨1, length_pos_of_decode hDecode, ?_⟩
  intro pre post fuel
  rw [run_step hDecode, hExec, Option.bind_none]

/- A jump over the code that follows it. -/
theorem Runs.skip
    {bs skipped : Bytes}
    {i : Instr}
    {rel : BitVec 8}
    {m m' : Machine M}
    (hDecode : decode bs = some (i, []))
    (hExec : E.exec i m = some (.jump rel m'))
    (hRel : rel.toInt = skipped.length) :
    E.Runs (bs ++ skipped) m m' := by
  have hLen := length_pos_of_decode hDecode
  refine ⟨1, by simp; omega, ?_⟩
  intro pre post fuel
  have hStep := run_step (E := E) hDecode pre
    (skipped ++ post) fuel m
  have hTarget : target (pre ++ bs).length rel =
      some (pre ++ (bs ++ skipped)).length := by
    simp only [target, hRel, List.length_append]
    rw [if_pos (by omega)]
    congr 1
    omega
  rw [hExec, Option.bind_some] at hStep
  simp only [hTarget, Option.bind_some] at hStep
  simpa only [List.append_assoc] using hStep

/- A whole function: a body and a return. -/
theorem run_of_runs
    {body : Bytes}
    {tail : Bytes}
    {m m' : Machine M}
    (hBody : E.Runs body m m')
    (hRet : decode tail = some (.ret, []))
    (hStack : m'.stack = [])
    (fuel : Nat)
    (hFuel : (body ++ tail).length ≤ fuel) :
    E.run (body ++ tail) fuel 0 m = some m' := by
  obtain ⟨n, hn, hRun⟩ := hBody
  have hLen := length_pos_of_decode hRet
  obtain ⟨k, rfl⟩ : ∃ k, fuel = n + (1 + k) := by
    refine ⟨fuel - n - 1, ?_⟩
    simp at hFuel
    omega
  have hFirst := hRun [] tail (1 + k)
  have hSecond := run_step (E := E) hRet body [] k m'
  have hExec : E.exec .ret m' = some (.done m') := by
    simp [exec, hStack]
  rw [hExec, Option.bind_some] at hSecond
  simp only [List.nil_append, List.length_nil,
    List.append_nil] at hFirst hSecond
  rw [hFirst, hSecond]

end Env

end X86

------------------------------------------------------------
-- One Run
------------------------------------------------------------

namespace X86

namespace Env

variable {M : Type}
variable {E : Env M}
variable {frag : Bytes}
variable {m m' m'' : Machine M}

/- `POP RCX` until the stack is empty. -/
theorem runs_pops
    (n : Machine M) :
    ∃ n', E.Runs (List.replicate n.stack.length 0x59) n n' ∧
      n'.stack = [] ∧ n'.mem = n.mem ∧
      ∀ r, r ≠ 1 → n'.regs r = n.regs r := by
  generalize hStack : n.stack = stack
  induction stack generalizing n with
  | nil => exact ⟨n, .nil n, hStack, rfl, fun _ _ => rfl⟩
  | cons v vs ih =>
      let n₁ := { (n.setReg 1 v) with stack := vs }
      have hPop : E.Runs [0x59] n n₁ := by
        apply Runs.instr (i := .pop 1) rfl
        simp [exec, hStack, n₁]
      rcases ih n₁ rfl with ⟨n', hRuns, hEmpty, hMem, hRegs⟩
      refine ⟨n', hPop.append hRuns, hEmpty, hMem, ?_⟩
      intro r hr
      rw [hRegs r hr]
      exact Machine.setReg_of_ne hr n v

/- A run that is seen to its end, with a return behind it. -/
theorem Runs.returns
    (h : E.Runs frag m m')
    (fuel : Nat)
    (hFuel : frag.length + m'.stack.length + 1 ≤ fuel) :
    ∃ n, E.run (frag ++ List.replicate m'.stack.length 0x59 ++
        [0xC3]) fuel 0 m = some n ∧
      n.mem = m'.mem ∧ ∀ r, r ≠ 1 → n.regs r = m'.regs r := by
  rcases runs_pops (E := E) m' with
    ⟨n, hPops, hEmpty, hMem, hRegs⟩
  refine ⟨n, ?_, hMem, hRegs⟩
  apply run_of_runs (h.append hPops) rfl hEmpty
  simp only [List.length_append, List.length_replicate,
    List.length_singleton]
  omega

/- A fragment takes a machine to no other, but for `RCX`. -/
theorem Runs.unique
    (h : E.Runs frag m m')
    (h' : E.Runs frag m m'')
    (hStack : m'.stack = m''.stack) :
    m'.mem = m''.mem ∧
      ∀ r, r ≠ 1 → m'.regs r = m''.regs r := by
  rcases h.returns _ (Nat.le_refl _) with
    ⟨n, hRun, hMem, hRegs⟩
  rw [hStack] at hRun
  rcases h'.returns _ (Nat.le_refl _) with
    ⟨n', hRun', hMem', hRegs'⟩
  cases hRun.symm.trans hRun'
  refine ⟨hMem.symm.trans hMem', ?_⟩
  intro r hr
  exact (hRegs r hr).symm.trans (hRegs' r hr)

/- A fragment that comes to a fault does not run. -/
theorem Fails.not_runs
    (h : E.Fails frag m) :
    ¬ E.Runs frag m m' := by
  intro hRuns
  obtain ⟨n, hn, hFails⟩ := h
  rcases hRuns.returns (n + (frag.length +
    m'.stack.length + 1)) (by omega) with ⟨m'', hRun, -⟩
  have hNone := hFails []
    (List.replicate m'.stack.length 0x59 ++ [0xC3])
    (frag.length + m'.stack.length + 1)
  simp only [List.nil_append, List.length_nil,
    ← List.append_assoc] at hNone
  rw [hNone] at hRun
  cases hRun

end Env

end X86
