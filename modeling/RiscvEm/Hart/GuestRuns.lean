import RiscvEm.Hart.BaseExecution
import RiscvEm.Hart.CalledBlocks
import RiscvEm.Hart.Interrupts
import RiscvEm.Lib.Runs

/-
  A hart against the manual: its ticks execute the base
  instructions that are in memory, one in a tick of the
  interpreter, and all of a block in the tick that calls it.

  Key definitions include:
    * `GuestReady`
    * `PlainRun`
    * `GuestTick`

  Key theorems include:
    * `interpreted_tick`
    * `called_tick`
    * `guest_runs_rv64i`
-/

------------------------------------------------------------
-- Ticks Of A Guest
------------------------------------------------------------

namespace RiscvEm

open Rv64i (Instr)
open WordArith (IsEven)

variable {σ : Type}

/-
  The compiled code of an instruction takes no shortcut: no
  operand is `x0` and no immediate is zero. Upper immediates,
  jumps, branches and loads have no compiled code.
-/
def Plain : Instr → Prop
  | .regReg _ rd rs1 rs2 => rd ≠ 0 ∧ rs1 ≠ 0 ∧ rs2 ≠ 0
  | .regImm _ rd rs1 imm => rd ≠ 0 ∧ rs1 ≠ 0 ∧ imm ≠ 0
  | .shift _ rd rs1 amount =>
      rd ≠ 0 ∧ rs1 ≠ 0 ∧ amount ≠ 0
  | .shiftW _ rd rs1 amount =>
      rd ≠ 0 ∧ rs1 ≠ 0 ∧ amount ≠ 0
  | .store _ _ rs1 _ => rs1 ≠ 0
  | _ => False

/- Plain instructions in memory, with accesses to RAM. -/
inductive PlainRun
    (P : Platform σ)
    (m : Rv64i.State) : List Instr → Rv64i.State → Prop
  | start : PlainRun P m [] m
  | step {is : List Instr} {i : Instr} {m₁ : Rv64i.State}
      (before : PlainRun P m is m₁)
      (word : m₁.word = i.encode)
      (ram : AccessesRam P m₁ i)
      (plain : Plain i) :
      PlainRun P m (is ++ [i]) (i.exec m₁)

/-
  A tick without an interrupt that executes an instruction of
  the manual, calls a block of plain ones, or drops a block
  that is out of date.
-/
inductive GuestTick
    (P : Platform σ)
    (s : State σ) : List Instr → State σ → Prop
  | interpreted {i : Instr} {s' : State σ}
      (tick : s.tick P = .ok s')
      (calm : s.preTick = s.counted)
      (interprets : s.Interprets)
      (fetch : RamRange P s.hart.pc 4)
      (word : s.isa.word = i.encode)
      (ram : AccessesRam P s.isa i) :
      GuestTick P s [i] s'
  | called {is : List Instr} {f : JitFunction}
      {m : Rv64i.State} {s' : State σ}
      (tick : s.tick P = .ok s')
      (calm : s.preTick = s.counted)
      (awake : s.preTick.hart.WFI = false)
      (entry : s.preTick.jitEntry = some f)
      (current : s.preTick.isCurrent f = true)
      (words : is.map Instr.encode = f.words)
      (run : PlainRun P s.isa is m) :
      GuestTick P s is s'
  | dropped {f : JitFunction} {s' : State σ}
      (tick : s.tick P = .ok s')
      (calm : s.preTick = s.counted)
      (awake : s.preTick.hart.WFI = false)
      (entry : s.preTick.jitEntry = some f)
      (outdated : s.preTick.isCurrent f = false) :
      GuestTick P s [] s'

/- What the ticks of a guest rest on, and keep. -/
structure GuestReady
    (P : Platform σ)
    (s : State σ) : Prop where
  wf : s.Wf P
  even : IsEven s.hart.pc
  sources : s.PcSources
  compiles : s.jctx.Compiles P.host.slow

theorem PlainRun.executes
    {P : Platform σ}
    {m m' : Rv64i.State}
    {is : List Instr}
    (h : PlainRun P m is m') :
    Rv64i.Executes m is m' := by
  induction h with
  | start => exact .start
  | step before word ram plain ih => exact ih.step (.exec word)

end RiscvEm

------------------------------------------------------------
-- What Ticks Keep
------------------------------------------------------------

namespace RiscvEm

variable {σ : Type}
variable {P : Platform σ}
variable {s s' : State σ}

/- Compiling does not touch the size of memory. -/
theorem JitContext.handle_memorySize
    {j j' : JitContext}
    {host : HostCode}
    {cache : InstructionCache}
    {inst : Instruction}
    {pc : BitVec 64}
    (h : j.handleInstruction host cache inst pc = .ok j') :
    j'.memorySize = j.memorySize := by
  have hBranch := branch_of_handle j host cache inst pc
  rw [h] at hBranch
  generalize hOut : (Except.ok j' : Except HostFault _) = out
    at hBranch
  cases hBranch with
  | kept hits =>
      cases hOut
      rfl
  | noPage => cases hOut
  | ended hits hBuilding hEnds =>
      rcases endBlockGen_cases hOut.symm with
        ⟨-, hEq⟩ | ⟨-, hEq⟩
      · rw [hEq]
      · rcases compile_frame { j with pcHits := hits } host with
          ⟨blk, arena, used, -, hFrame⟩
        rw [hFrame] at hEq
        rw [hEq]
  | grown hits hBuilding hFew hTable =>
      rcases bind_eq_ok.mp hOut.symm with ⟨j₁, hEmit, hDone⟩
      rcases emitInstruction_cases
        (conversionTbl_isTemplate hTable) hEmit with
        ⟨em, blk, -, hEq⟩
      cases hDone
      rw [hEq]
      rfl
  | begun hits hRam hTable =>
      rcases bind_eq_ok.mp hOut.symm with ⟨j₁, hEmit, hDone⟩
      rcases emitInstruction_cases
        (conversionTbl_isTemplate hTable) hEmit with
        ⟨em, blk, -, hEq⟩
      cases hDone
      rw [hEq]
      rfl

theorem State.isa_counted
    (s : State σ) :
    s.counted.isa = s.isa := by
  refine State.isa_eq ?_ rfl rfl
  intro r hr
  change Function.update s.hart.GPR 0 0 r = s.hart.GPR r
  exact Function.update_of_ne hr _ _

theorem State.preTick_wf
    (hWf : s.Wf P)
    (hCalm : s.preTick = s.counted) :
    s.preTick.Wf P := by
  rw [hCalm]
  exact ⟨hWf.hasRam, hWf.memorySize⟩

/- What is left to show of a tick. -/
theorem GuestReady.after
    (h : GuestReady P s)
    (hTick : s.tick P = .ok s')
    {is : List Rv64i.Instr}
    (hRun : Rv64i.Executes s.isa is s'.isa)
    (hWf : s'.Wf P) :
    GuestReady P s' := by
  refine ⟨hWf, ?_, h.sources.tick hTick,
    State.tick_compiles h.sources h.compiles hTick⟩
  exact hRun.isEven h.even

end RiscvEm

------------------------------------------------------------
-- The Interpreter
------------------------------------------------------------

namespace RiscvEm

open Rv64i (Instr)

variable {σ : Type}
variable {P : Platform σ}
variable {s s' : State σ}

/- A tick of the interpreter executes one instruction. -/
theorem interpreted_tick
    {i : Instr}
    (h : GuestReady P s)
    (hTick : s.tick P = .ok s')
    (hCalm : s.preTick = s.counted)
    (hInt : s.Interprets)
    (hFetch : RamRange P s.hart.pc 4)
    (hWord : s.isa.word = i.encode)
    (hRam : AccessesRam P s.isa i) :
    s'.isa = i.exec s.isa ∧ s'.Wf P := by
  have hIsa : s.atFetch.isa = s.isa := by
    unfold State.atFetch
    rw [hCalm]
    exact s.isa_counted
  have hWf : s.atFetch.Wf P :=
    ⟨(State.preTick_wf h.wf hCalm).hasRam,
      (State.preTick_wf h.wf hCalm).memorySize⟩
  have hPc : s.atFetch.hart.pc = s.hart.pc :=
    congrArg Rv64i.State.pc hIsa
  -- the word that is fetched is the one in memory
  have hRange : RamRange P s.atFetch.hart.pc
      MemorySize.Int.bytes := by
    rw [hPc]
    exact hFetch
  have hRead := hWf.read_ram hRange
  rw [readBytes_ram hRange (by decide)] at hRead
  have hFetched : (BitVec.ofNat 64 (Rv64i.readBytes
      s.atFetch.ramByte s.atFetch.hart.pc
        MemorySize.Int.bytes)).setWidth 32 = i.encode := by
    rw [← hWord, ← hIsa]
    exact BitVec.setWidth_ofNat_of_le (by decide) _
  rw [hInt.tick_eq P, State.interpret_of_read hRead, hFetched]
    at hTick
  -- and the decoder takes it to its entry
  rcases baseEntry_decodes i with ⟨inst, hBest, hFunc, hImm⟩
  have hSound := (h.sources.preTick).cache
  have hEntry : (s.atFetch.decode i.encode).1 =
      matchEntry s.atFetch.hart.pc i.encode (some inst) := by
    rw [State.decode_selected s.atFetch hSound, hBest]
  have hDecoded : (s.atFetch.decode i.encode).2.isa = s.isa :=
    (State.isa_eq (fun _ _ => rfl) rfl rfl).trans hIsa
  have hZero : (s.atFetch.decode i.encode).2.gpr 0 = 0 :=
    s.preTick_zero
  have hData : operandData i.encode
      (inst.immDecodeFunc i.encode) = baseData i := by
    rw [hImm]
    rfl
  have hEven : WordArith.IsEven
      (s.atFetch.decode i.encode).2.hart.pc := by
    change WordArith.IsEven (s.atFetch.decode i.encode).2.isa.pc
    rw [hDecoded]
    exact h.even
  have hRam' : AccessesRam P
      (s.atFetch.decode i.encode).2.isa i := by
    rw [hDecoded]
    exact hRam
  rcases exec_base hZero ⟨hWf.hasRam, hWf.memorySize⟩ hEven i
    hRam' with ⟨out, s₁, hExec, hDone⟩
  change State.runEntry P (s.atFetch.decode i.encode).1 _ _
    (s.atFetch.decode i.encode).2 = _ at hTick
  rw [hEntry] at hTick
  rcases State.runEntry_cases hTick with
    ⟨hNone, -⟩ | ⟨inst', out', s₂, hSel, hExec', hEnd⟩
  · cases hNone
  · cases hSel
    change inst.func.exec P (operandData i.encode
      (inst.immDecodeFunc i.encode)) _ = _ at hExec'
    rw [hFunc, hData, hExec] at hExec'
    cases hExec'
    rcases hEnd with ⟨hFail, -⟩ | ⟨-, j, hHandle, rfl⟩
    · rw [hDone.success] at hFail
      cases hFail
    · refine ⟨hDone.effect.trans (by rw [hDecoded]),
        hDone.wf.hasRam, ?_⟩
      change j.memorySize = _
      rw [JitContext.handle_memorySize hHandle]
      exact hDone.wf.memorySize

end RiscvEm

------------------------------------------------------------
-- Blocks
------------------------------------------------------------

namespace RiscvEm

open Rv64i (Instr)
open WordArith (IsEven)

variable {σ : Type}
variable {P : Platform σ}
variable {s s' : State σ}

/- A decoded instruction has the entry of its word. -/
theorem Emission.Decoded.base
    {e : Emission}
    {i : Instr}
    (h : e.Decoded)
    (hWord : e.data.inst = i.encode) :
    e.op = (baseEntry i).func ∧ e.data = baseData i := by
  rcases h with ⟨inst, hBest, hFunc, hData⟩
  rcases baseEntry_decodes i with ⟨inst', hBest', hFunc', hImm⟩
  rw [hWord] at hBest hData
  cases hBest.symm.trans hBest'
  refine ⟨hFunc.symm.trans hFunc', ?_⟩
  rw [hData, hImm]
  rfl

/- A word with a sign that is zero is zero. -/
theorem signExtend_ne_zero
    {n : Nat}
    {x : BitVec n}
    (hn : n ≤ 64)
    (hx : x ≠ 0) :
    x.signExtend 64 ≠ 0 := by
  intro hZero
  apply hx
  have hInt := congrArg BitVec.toInt hZero
  rw [BitVec.toInt_signExtend_of_le hn] at hInt
  exact BitVec.eq_of_toInt_eq (hInt.trans (by simp))

theorem setWidth_ne_zero
    {n : Nat}
    {x : BitVec n}
    (hn : n ≤ 64)
    (hx : x ≠ 0) :
    x.setWidth 64 ≠ 0 := by
  intro hZero
  apply hx
  have hNat := congrArg BitVec.toNat hZero
  rw [BitVec.toNat_setWidth_of_le hn] at hNat
  exact BitVec.eq_of_toNat_eq (hNat.trans (by simp))

/- With nothing that is zero, an immediate is not special. -/
theorem faithful_of_iValue
    {e : Emission}
    (hValue : ∃ o f, iValue e.op = some (o, f))
    (hFirst : e.data.rs1 ≠ 0)
    (hImm : e.data.imm ≠ 0) :
    Faithful P e s := by
  rcases hValue with ⟨o, f, hValue⟩
  exact .i hValue (fun _ h => absurd h hFirst)
    (fun _ h => absurd h hImm) (fun _ h => absurd h hFirst)

/- Plain instructions meet the conditions of their code. -/
theorem Plain.faithful
    {e : Emission}
    {i : Instr}
    (hPlain : Plain i)
    (hOp : e.op = (baseEntry i).func)
    (hData : e.data = baseData i)
    (hZero : s.gpr 0 = 0)
    (hWf : s.Wf P)
    (hRam : AccessesRam P s.isa i) :
    Faithful P e s := by
  have hSource : ∀ r : BitVec 5, r ≠ 0 →
      dRs1 i.encode = r → e.data.rs1 ≠ 0 := by
    intro r hr hField hEq
    rw [hData] at hEq
    exact hr (hField.symm.trans hEq)
  cases i with
  | regReg op rd rs1 rs2 =>
      rcases hPlain with ⟨-, hRs1, hRs2⟩
      have hFields := Formats.rType_fields op.code.1 rs2 rs1 rd
        op.code.2.1 op.code.2.2
      have hFirst := hSource rs1 hRs1 hFields.2.1
      have hSecond : e.data.rs2 ≠ 0 := by
        intro hEq
        rw [hData] at hEq
        exact hRs2 (hFields.2.2.symm.trans hEq)
      have hValue : ∃ f, rValue e.op = some f := by
        rw [hOp]
        cases op <;> exact ⟨_, rfl⟩
      rcases hValue with ⟨f, hValue⟩
      refine .r hValue (fun _ h => absurd h hFirst)
        (fun _ h => absurd h hSecond) ?_
      rintro - (h | h)
      · exact absurd h hFirst
      · exact absurd h hSecond
  | regImm op rd rs1 imm =>
      rcases hPlain with ⟨-, hRs1, hNe⟩
      have hFields := Formats.iType_fields rs1 rd op.code.1
        op.code.2 imm
      have hValue : ∃ o f, iValue e.op = some (o, f) := by
        rw [hOp]
        cases op <;> exact ⟨_, _, rfl⟩
      have hImm : e.data.imm = imm.signExtend 64 := by
        rw [hData]
        exact regImm_imm op rd rs1 imm
      refine faithful_of_iValue hValue
        (hSource rs1 hRs1 hFields.2.1) ?_
      rw [hImm]
      exact signExtend_ne_zero (by decide) hNe
  | shift op rd rs1 amount =>
      rcases hPlain with ⟨-, hRs1, hNe⟩
      have hFields := Formats.iType_fields rs1 rd op.code.2
        0x13 (op.code.1 ++ amount)
      have hValue : ∃ o f, iValue e.op = some (o, f) := by
        rw [hOp]
        cases op <;> exact ⟨_, _, rfl⟩
      have hImm : e.data.imm = amount.setWidth 64 := by
        rw [hData]
        exact shift_imm op rd rs1 amount
      refine faithful_of_iValue hValue
        (hSource rs1 hRs1 hFields.2.1) ?_
      rw [hImm]
      exact setWidth_ne_zero (by decide) hNe
  | shiftW op rd rs1 amount =>
      rcases hPlain with ⟨-, hRs1, hNe⟩
      have hFields := Formats.rType_fields (op.code.1 ++ 0#1)
        amount rs1 rd op.code.2 0x1B
      have hValue : ∃ o f, iValue e.op = some (o, f) := by
        rw [hOp]
        cases op <;> exact ⟨_, _, rfl⟩
      have hImm : e.data.imm = amount.setWidth 64 := by
        rw [hData]
        exact shiftW_imm op rd rs1 amount
      refine faithful_of_iValue hValue
        (hSource rs1 hRs1 hFields.2.1) ?_
      rw [hImm]
      exact setWidth_ne_zero (by decide) hNe
  | store op rs2 rs1 imm =>
      have hFields := Formats.sType_fields rs2 rs1 op.code 0x23
        imm
      have hFirst := hSource rs1 hPlain hFields.1
      have hAddr : s.gpr e.data.rs1 + e.data.imm =
          Rv64i.address s.isa rs1 imm := by
        have hEq : (baseData (.store op rs2 rs1 imm)).imm =
            imm.signExtend 64 := store_imm op rs2 rs1 imm
        have hBase : (baseData (.store op rs2 rs1 imm)).rs1 =
            rs1 := hFields.1
        rw [hData, hEq, hBase, ← State.isa_regs hZero]
        rfl
      have hParts : ∃ m, storeParts e.op =
          some (m, storeSize op) := by
        rw [hOp]
        cases op <;> exact ⟨_, rfl⟩
      rcases hParts with ⟨m, hParts⟩
      have hRange : RamRange P (Rv64i.address s.isa rs1 imm)
          (storeSize op).bytes := by
        rw [storeSize_bytes]
        exact hRam
      obtain ⟨hDram, hFit, -⟩ := hRange.access hWf
      refine .s hParts hFirst hWf.hasRam ?_ ?_
      · rw [hAddr]
        exact Or.inl hDram
      · intro hBeyond
        refine absurd ?_ hBeyond
        have hIn := (takesDram_iff P _ _ hFit).mp hDram
        have hOff := toNat_ramOffset _ hRange.low
        rw [hAddr, BitVec.le_def, hOff]
        omega
  | _ => exact hPlain.elim

/- Clearing `x0` does not show. -/
theorem State.isa_cleared
    (s : State σ) :
    (s.setGpr 0 0).isa = s.isa := by
  refine State.isa_eq ?_ rfl rfl
  intro r hr
  exact Function.update_of_ne hr _ _

/-
  Interpreting the instructions of a block follows the run of
  the words, by induction on that run.
-/
theorem PlainRun.interpreted
    {m : Rv64i.State}
    {is : List Instr}
    (h : PlainRun P s.isa is m)
    (hWf : s.Wf P)
    (hEven : IsEven s.hart.pc)
    {es : List Emission}
    (hWords : is.map Instr.encode = es.map (·.data.inst))
    (hDecoded : ∀ e ∈ es, e.Decoded) :
    ∃ u, Interpreted P (Faithful P) es s u ∧ u.isa = m ∧
      u.Wf P := by
  induction h generalizing es with
  | start =>
      rw [List.map_eq_nil_iff.mp hWords.symm]
      exact ⟨s, .start s, rfl, hWf⟩
  | @step is i m₁ before word ram plain ih =>
      rw [List.map_append] at hWords
      rcases List.map_eq_append_iff.mp hWords.symm with
        ⟨es₁, es₂, rfl, hFront, hLast⟩
      rcases List.map_eq_singleton_iff.mp hLast with
        ⟨e, rfl, hWord⟩
      rcases ih hFront.symm (fun e he =>
        hDecoded e (List.mem_append_left _ he)) with
        ⟨u, hRun, hIsa, hWf'⟩
      rcases (hDecoded e (by simp)).base hWord with
        ⟨hOp, hData⟩
      have hCleared : (u.setGpr 0 0).isa = m₁ :=
        (State.isa_cleared u).trans hIsa
      have hZero : (u.setGpr 0 0).gpr 0 = 0 := by
        change Function.update u.hart.GPR 0 0 0 = 0
        exact Function.update_self _ _ _
      have hWf₀ : (u.setGpr 0 0).Wf P := hWf'.of_setGpr 0 0
      have hEven₀ : IsEven (u.setGpr 0 0).hart.pc := by
        change IsEven (u.setGpr 0 0).isa.pc
        rw [hCleared]
        exact before.executes.isEven hEven
      rw [← hCleared] at ram ⊢
      rcases exec_base hZero hWf₀ hEven₀ i ram with
        ⟨out, s₁, hExec, hDone⟩
      refine ⟨s₁.retire out, .instr hRun
        (plain.faithful hOp hData hZero hWf₀ ram) ?_
        hDone.success, hDone.effect,
        ⟨hDone.wf.hasRam, hDone.wf.memorySize⟩⟩
      rw [hOp, hData]
      exact hExec

/- A tick that calls a block executes its instructions. -/
theorem called_tick
    {is : List Instr}
    {f : JitFunction}
    {m : Rv64i.State}
    (h : GuestReady P s)
    (hTick : s.tick P = .ok s')
    (hCalm : s.preTick = s.counted)
    (hAwake : s.preTick.hart.WFI = false)
    (hEntry : s.preTick.jitEntry = some f)
    (hCurrent : s.preTick.isCurrent f = true)
    (hWords : is.map Instr.encode = f.words)
    (hRun : PlainRun P s.isa is m) :
    s'.isa = m ∧ s'.Wf P := by
  have hFrom : ∃ es, f.EmittedFrom P.host.slow es := by
    unfold State.jitEntry at hEntry
    dsimp only at hEntry
    rw [s.preTick_jctx] at hEntry
    split at hEntry
    case isFalse => cases hEntry
    case isTrue hFound =>
      cases hEntry
      exact h.compiles.entries _ hFound.2.1
  rcases hFrom with ⟨es, hFrom⟩
  have hIsa : s.atCall.isa = s.isa := by
    unfold State.atCall
    rw [hCalm]
    exact s.isa_counted
  have hPre := State.preTick_wf h.wf hCalm
  rw [← hIsa] at hRun
  have hEven : IsEven s.atCall.hart.pc := by
    change IsEven s.atCall.isa.pc
    rw [hIsa]
    exact h.even
  rcases hRun.interpreted ⟨hPre.hasRam, hPre.memorySize⟩
    hEven (hWords.trans hFrom.words) hFrom.decoded with
    ⟨u, hInterpreted, hEnd, hWf⟩
  rw [State.tick_of_entry hAwake hEntry, if_pos hCurrent]
    at hTick
  rcases callBlock_refines hFrom hInterpreted hTick with
    ⟨hSame, hPc⟩
  refine ⟨?_, ?_, ?_⟩
  · rw [← hEnd]
    exact State.isa_eq hSame.gpr hPc hSame.mem
  · rw [hSame.mem]
    exact hWf.hasRam
  · rw [(ExecKept.callBlock hTick).jctx]
    exact hPre.memorySize

end RiscvEm

------------------------------------------------------------
-- Runs Of A Guest
------------------------------------------------------------

namespace RiscvEm

open Rv64i (Instr)
open Runs (Trans)

variable {σ : Type}
variable {P : Platform σ}
variable {s s' : State σ}

/- A tick executes its instructions and keeps the rest. -/
theorem GuestTick.executes
    {is : List Instr}
    (hTick : GuestTick P s is s')
    (h : GuestReady P s) :
    Rv64i.Executes s.isa is s'.isa ∧ GuestReady P s' := by
  cases hTick with
  | @interpreted i _ tick calm interprets fetch word ram =>
      rcases interpreted_tick h tick calm interprets fetch word
        ram with ⟨hIsa, hWf⟩
      have hRun : Rv64i.Executes s.isa [i] s'.isa := by
        rw [hIsa]
        exact .step .start (.exec word)
      exact ⟨hRun, h.after tick hRun hWf⟩
  | @called _ f m _ tick calm awake entry current words run =>
      rcases called_tick h tick calm awake entry current words
        run with ⟨rfl, hWf⟩
      exact ⟨run.executes, h.after tick run.executes hWf⟩
  | @dropped f _ tick calm awake entry outdated =>
      have hEnd : s' = s.preTick.dropBlock f := by
        have hTick := tick
        rw [State.tick_of_entry awake entry, outdated,
          if_neg Bool.false_ne_true] at hTick
        exact (Except.ok.inj hTick).symm
      have hIsa : s'.isa = s.isa := by
        rw [hEnd, calm]
        exact s.isa_counted
      have hRun : Rv64i.Executes s.isa [] s'.isa := by
        rw [hIsa]
        exact .start
      have hPre := State.preTick_wf h.wf calm
      refine ⟨hRun, h.after tick hRun ?_⟩
      rw [hEnd]
      exact ⟨hPre.hasRam, hPre.memorySize⟩

/- The instructions of a run, in the order of the run. -/
def guestInstrs
    (ts : List (Trans (State σ) (List Instr))) : List Instr :=
  ts.reverse.flatMap (·.event)

theorem guestInstrs_cons
    (t : Trans (State σ) (List Instr))
    (ts : List (Trans (State σ) (List Instr))) :
    guestInstrs (t :: ts) = guestInstrs ts ++ t.event := by
  unfold guestInstrs
  rw [List.reverse_cons, List.flatMap_append,
    List.flatMap_singleton]

theorem guest_run
    {ts : List (Trans (State σ) (List Instr))}
    (hRun : Runs.Run (GuestTick P) s ts s')
    (h : GuestReady P s) :
    Rv64i.Executes s.isa (guestInstrs ts) s'.isa ∧
      GuestReady P s' := by
  induction hRun with
  | start => exact ⟨.start, h⟩
  | step _ hLast ih =>
      rcases hLast.executes ih.2 with ⟨hExec, hReady⟩
      rw [guestInstrs_cons]
      exact ⟨ih.1.append hExec, hReady⟩

theorem Machine.Run.blocksCompiled
    {m m' : Machine σ}
    {ts : List (State σ × State σ)}
    (hRun : m.Run P ts m')
    (hm : m.BlocksCompiled P.host.slow) :
    m'.BlocksCompiled P.host.slow := by
  induction hRun with
  | start => exact hm
  | step _ hLast ih => exact hLast.blocksCompiled ih

/-
  After any run from the start, the ticks of a hart execute
  the manual's instructions one after the other, each as it
  stands in memory at that moment, as long as there is no
  interrupt, the accesses are to RAM and the instructions in
  compiled blocks are plain.
-/
theorem guest_runs_rv64i
    (P : Platform σ)
    (m m' : Machine σ)
    (ts : List (State σ × State σ))
    (hStart : m.StartedEmpty)
    (hRun : m.Run P ts m')
    (n : Nat)
    (c : HartCore)
    (hCore : m'.harts[n]? = some c)
    (hWf : (m'.state n c).Wf P)
    (hEven : WordArith.IsEven c.hart.pc)
    (s' : State σ)
    (steps : List (Trans (State σ) (List Instr)))
    (hSteps : Runs.Run (GuestTick P) (m'.state n c) steps s') :
    Rv64i.Executes (m'.state n c).isa (guestInstrs steps)
      s'.isa := by
  have hCompiled := hRun.blocksCompiled
    (hStart.blocksCompiled P.host.slow)
  have hMem := List.mem_of_getElem? hCore
  exact (guest_run hSteps ⟨hWf, hEven,
    ⟨hCompiled.sources.cache, hCompiled.sources.sizes c hMem⟩,
    hCompiled.harts c hMem⟩).1

/- What is seen of a state whose next tick calls a block. -/
structure GuestReport where
  words : List (BitVec 32)
  word : BitVec 32
  pending : BitVec 64
  pc : BitVec 64
  direct : Option Nat
  region : Option (BitVec 64 × BitVec 64)
  memorySize : BitVec 64
  deriving DecidableEq

def guestReport
    (n : Nat)
    (program : List (BitVec 32)) : Option GuestReport := do
  let s ← (State.evalTicks Platform.bare n
    (State.boot program)).toOption
  let f ← s.calledBlock
  let _ ← (s.evalTick Platform.bare).toOption
  some ⟨f.words, s.isa.word, s.pendingAll, s.hart.pc,
    s.mem.ramDirect,
    (s.mem.regions[0]?).map fun r => (r.baseAddr, r.size),
    s.jctx.memorySize⟩

/- The call of the block of the loop executes `addi`. -/
theorem guest_runs_rv64i_loop :
    ∃ (ts : List (State Unit × State Unit))
      (s s' : State Unit),
      (Machine.single (State.boot loopProgram)).Run
        Platform.bare ts (.single s) ∧
      (∃ f, s.preTick.jitEntry = some f ∧
        s.preTick.isCurrent f = true) ∧
      s.tick Platform.bare = .ok s' ∧
      Rv64i.Executes s.isa [.regImm .addi 1 1 1] s'.isa := by
  have hReport : guestReport 202 loopProgram =
      some ⟨[0x00108093], 0x00108093, 0, 0x80000000, some 0,
        some (0x80000000, 0x100000), 0x100000⟩ := by
    decide +kernel
  rcases Option.bind_eq_some_iff.mp hReport with
    ⟨s, hTicks, hRest⟩
  rcases Option.bind_eq_some_iff.mp hRest with
    ⟨f, hCalled, hRest⟩
  rcases Option.bind_eq_some_iff.mp hRest with
    ⟨s', hTick, hEnd⟩
  rw [toOption_eq_some] at hTicks hTick
  rw [← State.tick_eq_evalTick] at hTick
  rcases run_of_evalTicks 202 Machine.Run.start rfl hTicks with
    ⟨⟨ts, hRun, -⟩, hSelf⟩
  rcases State.calledBlock_spec hCalled with
    ⟨hAwake, hEntry, hCurrent⟩
  have hSeen := GuestReport.mk.inj (Option.some.inj hEnd)
  rcases hSeen with
    ⟨hWords, hWord, hPending, hPc, hDirect, hRegion, hSize⟩
  rcases Option.map_eq_some_iff.mp hRegion with ⟨r, hGet, hr⟩
  have hCalm : s.preTick = s.counted := by
    rw [s.preTick_eq, if_neg (not_not.mpr hPending)]
  have hState : (Machine.single s).state 0
      ⟨s.hart, s.jctx⟩ = s := by
    rw [← hSelf]
    rfl
  have hStep : GuestTick Platform.bare s
      [.regImm .addi 1 1 1] s' :=
    .called hTick hCalm hAwake hEntry hCurrent hWords.symm
      (@PlainRun.step _ _ _ [] _ _ .start hWord trivial
        ⟨by decide, by decide, by decide⟩)
  have hSteps : Runs.Run (GuestTick Platform.bare)
      ((Machine.single s).state 0 ⟨s.hart, s.jctx⟩)
      [⟨s, [.regImm .addi 1 1 1], s'⟩] s' := by
    rw [hState]
    exact .step .start hStep
  have hExec := guest_runs_rv64i Platform.bare _ _ ts
    (startedEmpty_single_boot _) hRun 0 ⟨s.hart, s.jctx⟩ rfl
    ⟨⟨0, r, hDirect, hGet, congrArg Prod.fst hr,
      congrArg Prod.snd hr⟩, hSize⟩
    (by
      change WordArith.IsEven s.hart.pc
      rw [hPc]
      decide) s' _ hSteps
  rw [hState] at hExec
  exact ⟨ts, s, s', hRun, ⟨f, hEntry, hCurrent⟩, hTick, hExec⟩

end RiscvEm
