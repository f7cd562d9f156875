import RiscvEm.Devices.Plic
import RiscvEm.Hart.Trap

/-
  Runs of the interrupt controller together with the pending
  interrupts of the harts, and when its lines are up to date.

  Key definitions include:
    * `PlicOp.exec`
    * `PlicRun`
    * `UpToDate`
    * `LinesKept`

  Key theorems include `plic_lines_up_to_date_iff`.
-/

------------------------------------------------------------
-- Operations
------------------------------------------------------------

namespace RiscvEm

variable {cfg : PlicConfig}

/- What a write to a CSR does to the pins of the hart. -/
def HartPins.csrWrite
    (p : HartPins)
    (csr : BitVec 16)
    (val : BitVec 64) : HartPins :=
  if csr = CSR_SIP then
    { p with
      ip := (p.ip &&& ~~~SE_MASK) |||
        (val.setWidth 16 &&& SE_MASK) }
  else if csr = CSR_MIP then
    { p with ip := val.setWidth 16 }
  else if csr = CSR_STIMECMP then
    { p with stimecmp := val }
  else if csr = CSR_TIME then
    { p with time := val }
  else
    p

/- `csr_write` reaches the devices through its pins only. -/
theorem State.csrWrite_world
    {σ : Type}
    (s : State σ)
    (csr : BitVec 16)
    (val : BitVec 64) :
    (s.csrWrite csr val).world =
      { s.world with
        pins := Function.update s.world.pins s.self
          (s.pins.csrWrite csr val) } := by
  have hSame : { s.world with
      pins := Function.update s.world.pins s.self s.pins } =
        s.world := by
    unfold State.pins
    rw [Function.update_eq_self]
  unfold State.csrWrite HartPins.csrWrite State.setCsr
  dsimp only
  by_cases h1 : csr = CSR_MSTATUS
  · subst h1
    exact hSame.symm
  by_cases h2 : csr = CSR_SSTATUS
  · subst h2
    exact hSame.symm
  by_cases h3 : csr = CSR_SIE
  · subst h3
    exact hSame.symm
  by_cases h4 : csr = CSR_SIP
  · subst h4
    rfl
  by_cases h5 : csr = CSR_MIE
  · subst h5
    exact hSame.symm
  by_cases h6 : csr = CSR_MIP
  · subst h6
    rfl
  by_cases h7 : csr = CSR_STIMECMP
  · subst h7
    rfl
  rw [if_neg h1, if_neg h2, if_neg h3, if_neg h4, if_neg h5,
    if_neg h6, if_neg h7, if_neg h4, if_neg h6, if_neg h7]
  by_cases h8 : csr = CSR_TIME
  · subst h8
    rfl
  rw [if_neg h8]
  repeat' split
  all_goals exact hSame.symm

/-
  What devices and harts do to the controller: raise or
  withdraw a request, read or write a register of it, and
  write a CSR of a hart.
-/
inductive PlicOp where
  | setPending (sourceId : BitVec 32) (pending : Bool)
  | read (addr : BitVec 64) (size : MemorySize)
  | write (addr : BitVec 64) (size : MemorySize)
      (val : BitVec 64)
  | csrWrite (hart : Nat) (csr : BitVec 16)
      (val : BitVec 64)
  deriving DecidableEq, Repr

def PlicOp.exec
    (op : PlicOp)
    (w : DevWorld (Plic cfg)) :
    Except HostFault (DevWorld (Plic cfg)) :=
  match op with
  | .setPending sourceId pending =>
      Plic.setPending sourceId pending w
  | .read addr size =>
      (Plic.read addr size w).map Prod.snd
  | .write addr size val => Plic.write addr size val w
  | .csrWrite hart csr val =>
      .ok { w with
        pins := Function.update w.pins hart
          ((w.pins hart).csrWrite csr val) }

/-
  A run, with the state before each operation; the newest
  operation comes first.
-/
inductive PlicRun
    (w : DevWorld (Plic cfg)) :
    List (DevWorld (Plic cfg) × PlicOp) →
      DevWorld (Plic cfg) → Prop
  | refl : PlicRun w [] w
  | step {ts : List (DevWorld (Plic cfg) × PlicOp)}
      {w₁ w₂ : DevWorld (Plic cfg)} {op : PlicOp} :
      PlicRun w ts w₁ → op.exec w₁ = .ok w₂ →
      PlicRun w ((w₁, op) :: ts) w₂

end RiscvEm

------------------------------------------------------------
-- Lines
------------------------------------------------------------

namespace RiscvEm

variable {cfg : PlicConfig}

namespace Plic

def line
    (p : Plic cfg)
    (c : Fin cfg.numContexts) : Bool :=
  (p.contexts.get c).interruptLine

/- Some source asks for the attention of the context. -/
def raised
    (p : Plic cfg)
    (c : Fin cfg.numContexts) : Bool :=
  p.findHighest c != 0

end Plic

/- MEIP or SEIP of the hart that a context belongs to. -/
def externalPending
    (w : DevWorld (Plic cfg))
    (c : Fin cfg.numContexts) : Bool :=
  (w.pins (hartOfContext c)).ip.getLsbD
    (externalBit (supervisorOfContext c))

/- The harts see the lines of the controller. -/
def Synced
    (w : DevWorld (Plic cfg)) : Prop :=
  ∀ c, externalPending w c = w.dev.line c

/-
  Every line tells whether a source asks for attention, and
  every hart sees its lines.
-/
structure UpToDate
    (w : DevWorld (Plic cfg)) : Prop where
  line : ∀ c, w.dev.line c = w.dev.raised c
  synced : Synced w

/-
  Every other context that may be interrupted by the source
  may be interrupted by another one as well.
-/
def OthersServed
    (p : Plic cfg)
    (c : Fin cfg.numContexts)
    (id : Nat) : Prop :=
  ∀ c', c' ≠ c → p.Eligible c' id →
    ∃ id', id' ≠ id ∧ p.Eligible c' id'

/-
  The operations that keep the lines up to date: a claim and
  a completion must not take the last source of another
  context away, and a write to `mip` or `sip` must write the
  external bits that are there.
-/
def LinesKept
    (w : DevWorld (Plic cfg)) : PlicOp → Prop
  | .setPending _ _ => True
  | .read addr size =>
      ∀ c, plicAccess cfg addr size = .claimComplete c →
        OthersServed w.dev c (w.dev.findHighest c)
  | .write addr size val =>
      ∀ c, plicAccess cfg addr size = .claimComplete c →
        OthersServed w.dev c (val.setWidth 32).toNat
  | .csrWrite hart csr val =>
      hart < cfg.numHarts →
        (csr = CSR_MIP →
          val.getLsbD 11 = (w.pins hart).ip.getLsbD 11) ∧
        (csr = CSR_MIP ∨ csr = CSR_SIP →
          val.getLsbD 9 = (w.pins hart).ip.getLsbD 9)

end RiscvEm

------------------------------------------------------------
-- Updates Of The Lines
------------------------------------------------------------

namespace RiscvEm

variable {cfg : PlicConfig}

namespace Plic

variable {p p' : Plic cfg}

/- The registers that arbitration looks at are the same. -/
structure SameRegs
    (p p' : Plic cfg) : Prop where
  priorities : p'.priorities = p.priorities
  pendingWords : p'.pendingWords = p.pendingWords
  threshold : ∀ c, (p'.contexts.get c).threshold =
    (p.contexts.get c).threshold
  enables : ∀ c, (p'.contexts.get c).enables =
    (p.contexts.get c).enables

/- A controller has its own registers. -/
theorem SameRegs.refl
    (p : Plic cfg) :
    SameRegs p p :=
  ⟨rfl, rfl, fun _ => rfl, fun _ => rfl⟩

/- Equality of registers is transitive. -/
theorem SameRegs.trans
    {p'' : Plic cfg}
    (h : SameRegs p p')
    (h' : SameRegs p' p'') :
    SameRegs p p'' :=
  ⟨h'.priorities.trans h.priorities,
    h'.pendingWords.trans h.pendingWords,
    fun c => (h'.threshold c).trans (h.threshold c),
    fun c => (h'.enables c).trans (h.enables c)⟩

/- Arbitration for a context looks at its own registers. -/
theorem findHighest_congr
    {c : Fin cfg.numContexts}
    (hPriorities : p'.priorities = p.priorities)
    (hPending : p'.pendingWords = p.pendingWords)
    (hThreshold : (p'.contexts.get c).threshold =
      (p.contexts.get c).threshold)
    (hEnables : (p'.contexts.get c).enables =
      (p.contexts.get c).enables) :
    p'.findHighest c = p.findHighest c := by
  have hConsider : p'.consider = p.consider := by
    unfold consider
    rw [hPriorities]
  unfold findHighest
  dsimp only
  rw [hConsider, hPending, hThreshold, hEnables]

/- Lines depend on the registers only. -/
theorem SameRegs.raised
    (h : SameRegs p p')
    (c : Fin cfg.numContexts) :
    p'.raised c = p.raised c := by
  unfold Plic.raised
  rw [findHighest_congr h.priorities h.pendingWords
    (h.threshold c) (h.enables c)]

/- Pending bits depend on the registers only. -/
theorem SameRegs.pendingBit
    (h : SameRegs p p')
    (id : Nat) :
    p'.pendingBit id = p.pendingBit id := by
  unfold Plic.pendingBit
  rw [h.pendingWords]

/- A context reads what was set. -/
theorem get_modifyContext_self
    (p : Plic cfg)
    (c : Fin cfg.numContexts)
    (f : PlicContext cfg → PlicContext cfg) :
    (p.modifyContext c f).contexts.get c =
      f (p.contexts.get c) :=
  Vector.getElem_set_self c.isLt

/- Modifying a context leaves the others. -/
theorem get_modifyContext_ne
    (p : Plic cfg)
    {c c' : Fin cfg.numContexts}
    (hNe : c' ≠ c)
    (f : PlicContext cfg → PlicContext cfg) :
    (p.modifyContext c f).contexts.get c' =
      p.contexts.get c' :=
  Vector.getElem_set_ne c.isLt c'.isLt
    (fun h => hNe (Fin.ext h.symm))

/- A change of a line changes no other register. -/
theorem modifyContext_line
    (p : Plic cfg)
    (c : Fin cfg.numContexts)
    (b : Bool) :
    SameRegs p (p.modifyContext c (fun ctx =>
      { ctx with interruptLine := b })) := by
  refine ⟨rfl, rfl, ?_, ?_⟩
  · intro c'
    by_cases hEq : c' = c
    · rw [hEq, get_modifyContext_self]
    · rw [get_modifyContext_ne p hEq]
  · intro c'
    by_cases hEq : c' = c
    · rw [hEq, get_modifyContext_self]
    · rw [get_modifyContext_ne p hEq]

end Plic

/- The bit that was driven has the level it was driven to. -/
theorem getLsbD_setIpBit
    (p : HartPins)
    (i j : Nat)
    (level : Bool)
    (hi : i < 16) :
    (p.setIpBit i level).ip.getLsbD j =
      if j = i then level else p.ip.getLsbD j := by
  unfold HartPins.setIpBit
  by_cases hEq : j = i
  · subst hEq
    cases level <;> simp [hi]
  · have hSub : ¬ (j - i = 0 ∧ i ≤ j) := by omega
    by_cases hj : j < 16
    · cases level with
      | true =>
          simp [hEq, hj]
          omega
      | false =>
          simp [hEq, hj]
          omega
    · rw [if_neg hEq, BitVec.getLsbD_of_ge _ _ (by omega),
        BitVec.getLsbD_of_ge _ _ (by omega)]

/- The bits of the lines are low ones. -/
theorem externalBit_lt
    (supervisorMode : Bool) :
    externalBit supervisorMode < 16 := by
  cases supervisorMode <;> decide

/- Contexts drive different bits. -/
theorem externalPending_signal
    (w : DevWorld (Plic cfg))
    (c c' : Fin cfg.numContexts)
    (level : Bool) :
    externalPending (Plic.signalCpuInterrupt
        (hartOfContext c) (supervisorOfContext c) level w) c' =
      if c' = c then level else externalPending w c' := by
  have hHart : ¬ 64 ≤ hartOfContext c := by
    have hLt := c.isLt
    have hLe := cfg.numHarts_le
    unfold PlicConfig.numContexts at hLt
    unfold hartOfContext
    omega
  unfold externalPending Plic.signalCpuInterrupt
  rw [if_neg hHart]
  dsimp only
  by_cases hEq : c' = c
  · rw [if_pos hEq, hEq, Function.update_self,
      getLsbD_setIpBit _ _ _ _ (externalBit_lt _), if_pos rfl]
  · rw [if_neg hEq]
    by_cases hSame : hartOfContext c' = hartOfContext c
    · rw [hSame, Function.update_self,
        getLsbD_setIpBit _ _ _ _ (externalBit_lt _), if_neg]
      intro hBit
      apply hEq
      have hSup : supervisorOfContext c' =
          supervisorOfContext c := by
        revert hBit
        cases supervisorOfContext c' <;>
          cases supervisorOfContext c <;> decide
      unfold supervisorOfContext at hSup
      unfold hartOfContext at hSame
      rw [Bool.eq_iff_iff, beq_iff_eq, beq_iff_eq] at hSup
      apply Fin.ext
      omega
    · rw [Function.update_of_ne hSame]

/-
  Some contexts were updated: their lines are as arbitration
  says, the others are as they were, and the harts follow.
-/
structure Refreshed
    (w w' : DevWorld (Plic cfg))
    (cs : List (Fin cfg.numContexts)) : Prop where
  regs : Plic.SameRegs w.dev w'.dev
  updated : ∀ c ∈ cs, w'.dev.line c = w.dev.raised c
  kept : ∀ c, c ∉ cs → w'.dev.line c = w.dev.line c
  synced : Synced w → Synced w'

/- Updating a context refreshes its line. -/
theorem refreshed_updateContext
    (w : DevWorld (Plic cfg))
    (c : Fin cfg.numContexts) :
    Refreshed w (Plic.updateContext w c) [c] := by
  have hRaised : (w.dev.findHighest c != 0) =
      w.dev.raised c := rfl
  unfold Plic.updateContext
  dsimp only
  rw [hRaised]
  by_cases hNe : w.dev.raised c ≠
      (w.dev.contexts.get c).interruptLine
  · rw [if_pos hNe]
    have hDev : (Plic.signalCpuInterrupt (hartOfContext c)
        (supervisorOfContext c) (w.dev.raised c)
        { w with dev := w.dev.modifyContext c (fun ctx =>
          { ctx with
            interruptLine := w.dev.raised c }) }).dev =
        w.dev.modifyContext c (fun ctx =>
          { ctx with interruptLine := w.dev.raised c }) := by
      unfold Plic.signalCpuInterrupt
      split <;> rfl
    have hSelf : (w.dev.modifyContext c (fun ctx =>
        { ctx with
          interruptLine := w.dev.raised c })).line c =
        w.dev.raised c := by
      unfold Plic.line
      rw [Plic.get_modifyContext_self]
    have hOther : ∀ c', c' ≠ c →
        (w.dev.modifyContext c (fun ctx =>
          { ctx with
            interruptLine := w.dev.raised c })).line c' =
          w.dev.line c' := by
      intro c' hEq
      unfold Plic.line
      rw [Plic.get_modifyContext_ne _ hEq]
    refine ⟨?_, ?_, ?_, ?_⟩
    · rw [hDev]
      exact w.dev.modifyContext_line c _
    · intro c' hMem
      rw [List.mem_singleton.mp hMem, hDev, hSelf]
    · intro c' hMem
      rw [hDev, hOther c' (fun h => hMem (by simp [h]))]
    · intro hSynced c'
      rw [externalPending_signal, hDev]
      by_cases hEq : c' = c
      · rw [if_pos hEq, hEq, hSelf]
      · rw [if_neg hEq, hOther c' hEq]
        exact hSynced c'
  · rw [if_neg hNe]
    rw [not_not] at hNe
    refine ⟨.refl _, ?_, fun _ _ => rfl, id⟩
    intro c' hMem
    rw [List.mem_singleton.mp hMem]
    exact hNe.symm

/- Lines are refreshed one after the other. -/
theorem Refreshed.trans
    {w w' w'' : DevWorld (Plic cfg)}
    {cs cs' : List (Fin cfg.numContexts)}
    (h : Refreshed w w' cs)
    (h' : Refreshed w' w'' cs') :
    Refreshed w w'' (cs ++ cs') := by
  refine ⟨h.regs.trans h'.regs, ?_, ?_,
    fun hs => h'.synced (h.synced hs)⟩
  · intro c hMem
    by_cases hLater : c ∈ cs'
    · rw [h'.updated c hLater, h.regs.raised]
    · rw [h'.kept c hLater]
      refine h.updated c ?_
      exact (List.mem_append.mp hMem).resolve_right hLater
  · intro c hMem
    rw [List.mem_append, not_or] at hMem
    rw [h'.kept c hMem.2, h.kept c hMem.1]

/- Updating a list refreshes all of it. -/
theorem refreshed_foldl
    (cs : List (Fin cfg.numContexts))
    (w : DevWorld (Plic cfg)) :
    Refreshed w (cs.foldl Plic.updateContext w) cs := by
  induction cs generalizing w with
  | nil =>
      refine ⟨.refl _, ?_, fun _ _ => rfl, id⟩
      intro c hMem
      cases hMem
  | cons c cs ih =>
      exact (refreshed_updateContext w c).trans (ih _)

/- All contexts are updated. -/
theorem refreshed_updateAllContexts
    (w : DevWorld (Plic cfg)) :
    Refreshed w (Plic.updateAllContexts w)
      (List.finRange cfg.numContexts) :=
  refreshed_foldl _ w

end RiscvEm

------------------------------------------------------------
-- Pending Requests
------------------------------------------------------------

namespace RiscvEm

variable {cfg : PlicConfig}

namespace Plic

variable {p p' : Plic cfg}

/- A word of pending bits was changed, and nothing else. -/
theorem modifyPending_cases
    {i : Nat}
    {f : BitVec 32 → BitVec 32}
    (h : p.modifyPending i f = .ok p') :
    ∃ hi : i < cfg.words,
      p' = { p with
        pendingWords := p.pendingWords.set i
          (f (p.pendingWords.get ⟨i, hi⟩)) } := by
  unfold modifyPending at h
  split at h
  case isTrue hi =>
    cases h
    exact ⟨hi, rfl⟩
  case isFalse => cases h

/- Pending bits are no part of the contexts. -/
theorem putPending_contexts
    {id : Nat}
    {pending : Bool}
    (h : p.putPending id pending = .ok p') :
    p'.contexts = p.contexts := by
  unfold putPending at h
  split at h
  · rcases modifyPending_cases h with ⟨_, rfl⟩
    rfl
  · rcases modifyPending_cases h with ⟨_, rfl⟩
    rfl

/- A word of pending bits that is modified. -/
theorem pendingBit_modifyPending
    {i : Nat}
    {f : BitVec 32 → BitVec 32}
    (h : p.modifyPending i f = .ok p')
    (id : Nat) :
    p'.pendingBit id =
      if id / 32 = i then
        (f (p.pendingWords[i]?.getD 0)).getLsbD (id % 32)
      else
        p.pendingBit id := by
  rcases modifyPending_cases h with ⟨hi, rfl⟩
  unfold pendingBit
  by_cases hEq : id / 32 = i
  · subst hEq
    rw [if_pos rfl, Vector.getElem?_set_self hi,
      Vector.getElem?_eq_getElem hi]
    rfl
  · rw [if_neg hEq, Vector.getElem?_set_ne hi
      (fun h => hEq h.symm)]

/- Clearing a pending bit leaves the others. -/
theorem pendingBit_clearPending
    {id : Nat}
    (h : p.clearPending id = .ok p')
    (id' : Nat) :
    p'.pendingBit id' =
      (p.pendingBit id' && decide (id' ≠ id)) := by
  rw [pendingBit_modifyPending h]
  unfold pendingBit
  have hMod : id' % 32 < 32 := Nat.mod_lt _ (by decide)
  by_cases hWord : id' / 32 = id / 32
  · have hIff : id' = id ↔ id' % 32 = id % 32 := by omega
    rw [if_pos hWord, hWord]
    simp only [BitVec.getLsbD_and, BitVec.getLsbD_not, hMod,
      decide_true, Bool.true_and, ne_eq, hIff]
    congr 1
    by_cases hBit : id' % 32 = id % 32
    · simp [hBit]
      omega
    · simp [hBit]
      omega
  · have hNe : id' ≠ id := by
      rintro rfl
      exact hWord rfl
    rw [if_neg hWord]
    simp [hNe]

/- Setting a pending bit leaves the others. -/
theorem pendingBit_setPending
    {id : Nat}
    (h : p.modifyPending (id / 32)
      (fun word => word ||| (1#32 <<< (id % 32))) = .ok p')
    (id' : Nat) :
    p'.pendingBit id' =
      (p.pendingBit id' || decide (id' = id)) := by
  rw [pendingBit_modifyPending h]
  unfold pendingBit
  have hMod : id' % 32 < 32 := Nat.mod_lt _ (by decide)
  by_cases hWord : id' / 32 = id / 32
  · have hIff : id' = id ↔ id' % 32 = id % 32 := by omega
    rw [if_pos hWord, hWord]
    simp only [BitVec.getLsbD_or, hIff]
    congr 1
    by_cases hBit : id' % 32 = id % 32
    · simp [hBit]
      omega
    · simp [hBit]
      omega
  · have hNe : id' ≠ id := by
      rintro rfl
      exact hWord rfl
    rw [if_neg hWord]
    simp [hNe]

/- Without its request a source is not eligible. -/
theorem eligible_clearPending
    {id : Nat}
    (h : p.clearPending id = .ok p')
    (c : Fin cfg.numContexts)
    (id' : Nat) :
    p'.Eligible c id' ↔ p.Eligible c id' ∧ id' ≠ id := by
  have hBit := pendingBit_clearPending h id'
  rcases modifyPending_cases h with ⟨hi, hEq⟩
  have hSource : p'.Above (p'.contexts.get c).threshold id' ↔
      p.Above (p.contexts.get c).threshold id' := by
    rw [hEq]
    constructor <;> exact fun h => ⟨h.1, h.2, h.3⟩
  have hEnabled : p'.enabledBit c id' = p.enabledBit c id' := by
    rw [hEq]
    rfl
  constructor
  · rintro ⟨hAbove, hPending, hOn⟩
    rw [hBit, Bool.and_eq_true, decide_eq_true_iff] at hPending
    exact ⟨⟨hSource.mp hAbove, hPending.1, hEnabled ▸ hOn⟩,
      hPending.2⟩
  · rintro ⟨⟨hAbove, hPending, hOn⟩, hNe⟩
    refine ⟨hSource.mpr hAbove, ?_, hEnabled ▸ hOn⟩
    rw [hBit, Bool.and_eq_true, decide_eq_true_iff]
    exact ⟨hPending, hNe⟩

/- A line is raised if a source is eligible. -/
theorem raised_iff
    {c : Fin cfg.numContexts} :
    p.raised c = true ↔ ∃ id, p.Eligible c id := by
  unfold raised
  rw [bne_iff_ne, ne_eq, findHighest_eq_zero_iff, not_forall]
  simp only [not_not]

/- When clearing a request lowers no other line. -/
theorem othersServed_iff
    {id : Nat}
    {c : Fin cfg.numContexts}
    (h : p.clearPending id = .ok p') :
    OthersServed p c id ↔
      ∀ c', c' ∉ [c] → p'.raised c' = p.raised c' := by
  have hRaised : ∀ c', p'.raised c' = true ↔
      ∃ id', id' ≠ id ∧ p.Eligible c' id' := by
    intro c'
    rw [raised_iff]
    simp only [eligible_clearPending h, and_comm]
  constructor
  · intro hServed c' hNe
    rw [Bool.eq_iff_iff, hRaised, raised_iff]
    constructor
    · rintro ⟨id', -, hEl⟩
      exact ⟨id', hEl⟩
    · rintro ⟨id', hEl⟩
      by_cases hEq : id' = id
      · subst hEq
        exact hServed c' (fun h => hNe (by simp [h])) hEl
      · exact ⟨id', hEq, hEl⟩
  · intro hSame c' hNe hEl
    have hEq := hSame c' (by simpa using hNe)
    rw [← hRaised, hEq, raised_iff]
    exact ⟨id, hEl⟩

end Plic

end RiscvEm

------------------------------------------------------------
-- One Operation
------------------------------------------------------------

namespace RiscvEm

variable {cfg : PlicConfig}
variable {w w₁ w' : DevWorld (Plic cfg)}

/-
  After registers changed and some contexts were updated, the
  others must not have needed it.
-/
theorem UpToDate.refreshed_iff
    {cs : List (Fin cfg.numContexts)}
    (h : UpToDate w)
    (hRef : Refreshed w₁ w' cs)
    (hLine : ∀ c, w₁.dev.line c = w.dev.line c)
    (hPins : w₁.pins = w.pins) :
    UpToDate w' ↔
      ∀ c, c ∉ cs → w₁.dev.raised c = w.dev.raised c := by
  have hSynced : Synced w₁ := by
    intro c
    rw [hLine, ← h.synced c]
    unfold externalPending
    rw [hPins]
  constructor
  · intro h' c hNot
    calc w₁.dev.raised c
        = w'.dev.raised c := (hRef.regs.raised c).symm
      _ = w'.dev.line c := (h'.line c).symm
      _ = w₁.dev.line c := hRef.kept c hNot
      _ = w.dev.line c := hLine c
      _ = w.dev.raised c := h.line c
  · intro hSame
    refine ⟨?_, hRef.synced hSynced⟩
    intro c
    rw [hRef.regs.raised]
    by_cases hMem : c ∈ cs
    · exact hRef.updated c hMem
    · rw [hRef.kept c hMem, hLine, h.line, hSame c hMem]

/- A change of pending bits or priorities updates all. -/
theorem UpToDate.updateAll
    (h : UpToDate w)
    {p : Plic cfg}
    (hContexts : p.contexts = w.dev.contexts) :
    UpToDate (Plic.updateAllContexts { w with dev := p }) := by
  have hLine : ∀ c, p.line c = w.dev.line c := by
    intro c
    unfold Plic.line
    rw [hContexts]
  have hRef := refreshed_updateAllContexts { w with dev := p }
  refine (h.refreshed_iff hRef hLine rfl).mpr ?_
  intro c hNot
  exact absurd (List.mem_finRange c) hNot

/- A change of a context's own registers updates it. -/
theorem UpToDate.updateOne
    (h : UpToDate w)
    (c : Fin cfg.numContexts)
    {f : PlicContext cfg → PlicContext cfg}
    (hf : ∀ ctx, (f ctx).interruptLine = ctx.interruptLine) :
    UpToDate (Plic.updateContext
      { w with dev := w.dev.modifyContext c f } c) := by
  have hLine : ∀ c', (w.dev.modifyContext c f).line c' =
      w.dev.line c' := by
    intro c'
    unfold Plic.line
    by_cases hEq : c' = c
    · rw [hEq, Plic.get_modifyContext_self, hf]
    · rw [Plic.get_modifyContext_ne _ hEq]
  have hRef := refreshed_updateContext
    { w with dev := w.dev.modifyContext c f } c
  refine (h.refreshed_iff hRef hLine rfl).mpr ?_
  intro c' hNot
  have hNe : c' ≠ c := fun hEq => hNot (by simp [hEq])
  have hGet := Plic.get_modifyContext_ne w.dev hNe f
  have hSame : (w.dev.modifyContext c f).findHighest c' =
      w.dev.findHighest c' :=
    Plic.findHighest_congr rfl rfl (by rw [hGet])
      (by rw [hGet])
  exact congrArg (· != 0) hSame

/- A request is taken away and one context updated. -/
theorem UpToDate.clear_iff
    (h : UpToDate w)
    {p : Plic cfg}
    {id : Nat}
    (c : Fin cfg.numContexts)
    (hClear : w.dev.clearPending id = .ok p) :
    UpToDate (Plic.updateContext { w with dev := p } c) ↔
      OthersServed w.dev c id := by
  have hLine : ∀ c', p.line c' = w.dev.line c' := by
    rcases Plic.modifyPending_cases hClear with ⟨_, rfl⟩
    exact fun _ => rfl
  have hRef := refreshed_updateContext { w with dev := p } c
  have hIff := h.refreshed_iff hRef hLine rfl
  exact hIff.trans (Plic.othersServed_iff hClear).symm

/- Setting a pending bit updates all lines. -/
theorem UpToDate.setPending
    (h : UpToDate w)
    {sourceId : BitVec 32}
    {pending : Bool}
    (hExec : Plic.setPending sourceId pending w = .ok w') :
    UpToDate w' := by
  unfold Plic.setPending at hExec
  split at hExec
  · cases hExec
    exact h
  · rcases bind_eq_ok.mp hExec with ⟨p, hp, hEq⟩
    cases hEq
    exact h.updateAll (Plic.putPending_contexts hp)

/- A claim updates one context only. -/
theorem UpToDate.claim_iff
    (h : UpToDate w)
    (c : Fin cfg.numContexts)
    {val : BitVec 64}
    (hExec : Plic.claimInterrupt c w = .ok (val, w')) :
    UpToDate w' ↔
      OthersServed w.dev c (w.dev.findHighest c) := by
  unfold Plic.claimInterrupt at hExec
  dsimp only at hExec
  split at hExec
  case isTrue =>
    rcases bind_eq_ok.mp hExec with ⟨p, hp, hEq⟩
    cases hEq
    exact h.clear_iff c hp
  case isFalse hZero =>
    cases hExec
    refine ⟨fun _ => ?_, fun _ => h⟩
    intro c' _ hEl
    exact absurd hEl.source.ne_zero hZero

/- A completion updates one context only. -/
theorem UpToDate.complete_iff
    (h : UpToDate w)
    (c : Fin cfg.numContexts)
    {id : BitVec 32}
    (hExec : Plic.completeInterrupt c id w = .ok w') :
    UpToDate w' ↔ OthersServed w.dev c id.toNat := by
  unfold Plic.completeInterrupt at hExec
  split at hExec
  case isTrue hOut =>
    cases hExec
    refine ⟨fun _ => ?_, fun _ => h⟩
    intro c' _ hEl
    rcases hOut with rfl | hGt
    · exact absurd rfl hEl.source.ne_zero
    · exact absurd hEl.source.le (by omega)
  case isFalse =>
    rcases bind_eq_ok.mp hExec with ⟨p, hp, hEq⟩
    cases hEq
    exact h.clear_iff c hp

/- Software writes `MEIP` through `mip`. -/
theorem getLsbD_csrWrite_meip
    (p : HartPins)
    (csr : BitVec 16)
    (val : BitVec 64) :
    (p.csrWrite csr val).ip.getLsbD 11 =
      if csr = CSR_MIP then val.getLsbD 11
      else p.ip.getLsbD 11 := by
  unfold HartPins.csrWrite
  by_cases hSip : csr = CSR_SIP
  · have hNe : csr ≠ CSR_MIP := by
      rw [hSip]
      decide
    rw [if_pos hSip, if_neg hNe]
    simp [SE_MASK]
  · by_cases hMip : csr = CSR_MIP
    · rw [if_neg hSip, if_pos hMip, if_pos hMip]
      simp
    · rw [if_neg hSip, if_neg hMip, if_neg hMip]
      split
      · rfl
      · split <;> rfl

/- It writes `SEIP` through `mip` and `sip`. -/
theorem getLsbD_csrWrite_seip
    (p : HartPins)
    (csr : BitVec 16)
    (val : BitVec 64) :
    (p.csrWrite csr val).ip.getLsbD 9 =
      if csr = CSR_MIP ∨ csr = CSR_SIP then val.getLsbD 9
      else p.ip.getLsbD 9 := by
  unfold HartPins.csrWrite
  by_cases hSip : csr = CSR_SIP
  · rw [if_pos hSip, if_pos (Or.inr hSip)]
    simp [SE_MASK]
  · by_cases hMip : csr = CSR_MIP
    · rw [if_neg hSip, if_pos hMip, if_pos (Or.inl hMip)]
      simp
    · rw [if_neg hSip, if_neg hMip,
        if_neg (not_or.mpr ⟨hMip, hSip⟩)]
      split
      · rfl
      · split <;> rfl

/- The two contexts of a hart, at machine level first. -/
def PlicConfig.contextOf
    (hart : Nat)
    (hLt : hart < cfg.numHarts)
    (supervisorMode : Bool) : Fin cfg.numContexts :=
  ⟨hart * 2 + supervisorMode.toNat, by
    have hBool := Bool.toNat_lt supervisorMode
    unfold PlicConfig.numContexts
    omega⟩

/- A context's line is a bit of its hart. -/
theorem externalPending_contextOf
    (w : DevWorld (Plic cfg))
    {hart : Nat}
    (hLt : hart < cfg.numHarts)
    (supervisorMode : Bool) :
    externalPending w
        (PlicConfig.contextOf hart hLt supervisorMode) =
      (w.pins hart).ip.getLsbD (externalBit supervisorMode) := by
  have hHart : hartOfContext
      (PlicConfig.contextOf hart hLt supervisorMode) = hart := by
    have hBool := Bool.toNat_lt supervisorMode
    unfold hartOfContext PlicConfig.contextOf
    dsimp only
    omega
  have hMode : supervisorOfContext
      (PlicConfig.contextOf hart hLt supervisorMode) =
        supervisorMode := by
    unfold supervisorOfContext PlicConfig.contextOf
    cases supervisorMode <;> simp
  unfold externalPending
  rw [hHart, hMode]

/- Every context belongs to a hart. -/
theorem contextOf_surjective
    (c : Fin cfg.numContexts) :
    ∃ hLt : hartOfContext c < cfg.numHarts,
      c = PlicConfig.contextOf (hartOfContext c) hLt
        (supervisorOfContext c) := by
  have hLt := c.isLt
  unfold PlicConfig.numContexts at hLt
  refine ⟨by unfold hartOfContext; omega, ?_⟩
  apply Fin.ext
  unfold hartOfContext supervisorOfContext
    PlicConfig.contextOf
  dsimp only
  rcases Nat.mod_two_eq_zero_or_one c.val with h | h
  · rw [h]
    simp only [Nat.zero_ne_one, beq_false_of_ne, ne_eq,
      not_false_eq_true, Bool.toNat_false]
    omega
  · rw [h]
    simp only [beq_self_eq_true, Bool.toNat_true]
    omega

/- A statement about all contexts is one about all harts. -/
theorem forall_context_iff
    {q : Fin cfg.numContexts → Prop} :
    (∀ c, q c) ↔ ∀ hart (hLt : hart < cfg.numHarts),
      q (PlicConfig.contextOf hart hLt false) ∧
        q (PlicConfig.contextOf hart hLt true) := by
  constructor
  · intro h hart hLt
    exact ⟨h _, h _⟩
  · intro h c
    rcases contextOf_surjective c with ⟨hLt, hEq⟩
    rw [hEq]
    cases supervisorOfContext c with
    | false => exact (h _ hLt).1
    | true => exact (h _ hLt).2

/- Software may change the lines by hand. -/
theorem UpToDate.csrWrite_iff
    (h : UpToDate w)
    (hart : Nat)
    (csr : BitVec 16)
    (val : BitVec 64) :
    UpToDate { w with
        pins := Function.update w.pins hart
          ((w.pins hart).csrWrite csr val) } ↔
      LinesKept w (.csrWrite hart csr val) := by
  have hBits : UpToDate { w with
        pins := Function.update w.pins hart
          ((w.pins hart).csrWrite csr val) } ↔
      ∀ c, externalPending { w with
        pins := Function.update w.pins hart
          ((w.pins hart).csrWrite csr val) } c =
        externalPending w c := by
    constructor
    · intro h' c
      rw [h'.synced c, h.synced c]
    · intro hSame
      refine ⟨h.line, ?_⟩
      intro c
      rw [hSame c]
      exact h.synced c
  rw [hBits, forall_context_iff]
  simp only [externalPending_contextOf]
  unfold LinesKept externalBit
  simp only [Bool.false_eq_true, if_false, if_true]
  constructor
  · intro hAll hLt
    have hHart := hAll hart hLt
    rw [Function.update_self, getLsbD_csrWrite_meip,
      getLsbD_csrWrite_seip] at hHart
    constructor
    · intro hMip
      rw [if_pos hMip] at hHart
      exact hHart.1
    · intro hEither
      rw [if_pos hEither] at hHart
      exact hHart.2
  · intro hKept hart' hLt
    by_cases hEq : hart' = hart
    · subst hEq
      rw [Function.update_self, getLsbD_csrWrite_meip,
        getLsbD_csrWrite_seip]
      constructor
      · split
        · rename_i hMip
          exact (hKept hLt).1 hMip
        · rfl
      · split
        · rename_i hEither
          exact (hKept hLt).2 hEither
        · rfl
    · rw [Function.update_of_ne hEq]
      exact ⟨rfl, rfl⟩

/-
  Reads keep the lines except for claims that leave others.
-/
theorem UpToDate.read_iff
    (h : UpToDate w)
    {addr val : BitVec 64}
    {size : MemorySize}
    (hRead : Plic.read addr size w = .ok (val, w')) :
    UpToDate w' ↔ LinesKept w (.read addr size) := by
  change UpToDate w' ↔ ∀ c,
    plicAccess cfg addr size = .claimComplete c →
      OthersServed w.dev c (w.dev.findHighest c)
  unfold Plic.read at hRead
  cases hReg : plicAccess cfg addr size with
  | claimComplete c =>
      rw [hReg] at hRead
      refine (h.claim_iff c hRead).trans ?_
      constructor
      · rintro hServed _ ⟨⟩
        exact hServed
      · intro hAll
        exact hAll c rfl
  | priority _ | pending _ | enable _ _ | threshold _
  | none =>
      rw [hReg] at hRead
      cases hRead
      refine iff_of_true h ?_
      intro c hEq
      cases hEq

/- Writes except for completions that do. -/
theorem UpToDate.write_iff
    (h : UpToDate w)
    {addr val : BitVec 64}
    {size : MemorySize}
    (hWrite : Plic.write addr size val w = .ok w') :
    UpToDate w' ↔ LinesKept w (.write addr size val) := by
  change UpToDate w' ↔ ∀ c,
    plicAccess cfg addr size = .claimComplete c →
      OthersServed w.dev c (val.setWidth 32).toNat
  unfold Plic.write at hWrite
  by_cases hReg : ∃ c,
      plicAccess cfg addr size = .claimComplete c
  · rcases hReg with ⟨c, hReg⟩
    rw [hReg] at hWrite ⊢
    refine (h.complete_iff c hWrite).trans ?_
    constructor
    · rintro hServed _ ⟨⟩
      exact hServed
    · intro hAll
      exact hAll c rfl
  · -- every other register updates the contexts it concerns
    refine iff_of_true ?_
      (fun c hEq => absurd ⟨c, hEq⟩ hReg)
    split at hWrite
    case h_1 => cases hWrite; exact h.updateAll rfl
    case h_2 => cases hWrite; exact h
    case h_3 c word _ =>
      cases hWrite
      exact h.updateOne c (fun _ => rfl)
    case h_4 c _ =>
      cases hWrite
      exact h.updateOne c (fun _ => rfl)
    case h_5 c hEq => exact absurd ⟨c, hEq⟩ hReg
    case h_6 => cases hWrite; exact h

/- When an operation keeps the lines up to date. -/
theorem UpToDate.exec_iff
    (h : UpToDate w)
    {op : PlicOp}
    (hExec : op.exec w = .ok w') :
    UpToDate w' ↔ LinesKept w op := by
  cases op with
  | setPending sourceId pending =>
      exact iff_of_true (h.setPending hExec) trivial
  | read addr size =>
      change (Plic.read addr size w).map Prod.snd = _ at hExec
      cases hRead : Plic.read addr size w with
      | error e =>
          rw [hRead] at hExec
          cases hExec
      | ok res =>
          rw [hRead] at hExec
          cases hExec
          exact h.read_iff hRead
  | write addr size val => exact h.write_iff hExec
  | csrWrite hart csr val =>
      cases hExec
      exact h.csrWrite_iff hart csr val

end RiscvEm

------------------------------------------------------------
-- Whole Runs
------------------------------------------------------------

namespace RiscvEm

variable {cfg : PlicConfig}
variable {w w' : DevWorld (Plic cfg)}

/-
  In every state of a run the lines are up to date exactly if
  they are at its start and no operation breaks them.
-/
theorem PlicRun.upToDate_iff
    {ts : List (DevWorld (Plic cfg) × PlicOp)}
    (hRun : PlicRun w ts w') :
    ((∀ t ∈ ts, UpToDate t.1) ∧ UpToDate w') ↔
      UpToDate w ∧ ∀ t ∈ ts, LinesKept t.1 t.2 := by
  induction hRun with
  | refl => simp
  | step _ hExec ih =>
      constructor
      · rintro ⟨hBefore, hAfter⟩
        have hHead := hBefore _ (List.mem_cons_self ..)
        have hRest := ih.mp ⟨fun t hMem => hBefore t
          (List.mem_cons_of_mem _ hMem), hHead⟩
        refine ⟨hRest.1, ?_⟩
        intro t hMem
        rcases List.mem_cons.mp hMem with rfl | hOld
        · exact (hHead.exec_iff hExec).mp hAfter
        · exact hRest.2 t hOld
      · rintro ⟨hStart, hKept⟩
        have hRest := ih.mpr ⟨hStart, fun t hMem => hKept t
          (List.mem_cons_of_mem _ hMem)⟩
        constructor
        · intro t hMem
          rcases List.mem_cons.mp hMem with rfl | hOld
          · exact hRest.2
          · exact hRest.1 t hOld
        · exact (hRest.2.exec_iff hExec).mpr
            (hKept _ (List.mem_cons_self ..))

/- Nothing is pending in a new controller. -/
theorem Plic.init_raised
    (c : Fin cfg.numContexts) :
    (Plic.init cfg).raised c = false := by
  apply Bool.eq_false_of_not_eq_true
  rw [Plic.raised_iff]
  rintro ⟨id, hEl⟩
  have hPending := hEl.pending
  unfold Plic.pendingBit Plic.init at hPending
  dsimp only at hPending
  rw [Vector.getElem?_replicate] at hPending
  split at hPending
  · simp at hPending
  · simp at hPending

/- No line is raised at first. -/
theorem Plic.init_line
    (c : Fin cfg.numContexts) :
    (Plic.init cfg).line c = false := by
  have hGet : (Plic.init cfg).contexts.get c =
      ⟨0, Vector.replicate _ 0, false⟩ :=
    Vector.getElem_replicate c.isLt
  unfold Plic.line
  rw [hGet]

/-
  The lines are right at the start exactly if they are down.
-/
theorem upToDate_init_iff
    (cfg : PlicConfig)
    (pins : Nat → HartPins) :
    UpToDate ⟨Plic.init cfg, pins⟩ ↔
      ∀ hart, hart < cfg.numHarts →
        (pins hart).ip.getLsbD 11 = false ∧
          (pins hart).ip.getLsbD 9 = false := by
  have hSynced : UpToDate ⟨Plic.init cfg, pins⟩ ↔
      ∀ c, externalPending ⟨Plic.init cfg, pins⟩ c = false := by
    constructor
    · intro h c
      rw [h.synced c]
      exact Plic.init_line c
    · intro h
      refine ⟨?_, ?_⟩
      · intro c
        exact (Plic.init_line c).trans (Plic.init_raised c).symm
      · intro c
        exact (h c).trans (Plic.init_line c).symm
  rw [hSynced, forall_context_iff]
  simp only [externalPending_contextOf]
  exact Iff.rfl

/-
  From its construction on, in every run the lines are up to
  date in every state exactly if no external interrupt was
  pending at a hart at the start and every operation keeps
  them.
-/
theorem plic_lines_up_to_date_iff
    (cfg : PlicConfig)
    (pins : Nat → HartPins)
    (ts : List (DevWorld (Plic cfg) × PlicOp))
    (w' : DevWorld (Plic cfg))
    (hRun : PlicRun ⟨Plic.init cfg, pins⟩ ts w') :
    ((∀ t ∈ ts, UpToDate t.1) ∧ UpToDate w') ↔
      (∀ hart, hart < cfg.numHarts →
        (pins hart).ip.getLsbD 11 = false ∧
          (pins hart).ip.getLsbD 9 = false) ∧
        ∀ t ∈ ts, LinesKept t.1 t.2 := by
  rw [hRun.upToDate_iff, upToDate_init_iff]

/- Execute operations, of which the newest comes first. -/
def runPlicOps
    (w : DevWorld (Plic cfg)) :
    List PlicOp → Except HostFault (DevWorld (Plic cfg))
  | [] => .ok w
  | op :: ops => do
      let w ← runPlicOps w ops
      op.exec w

/- Operations that are executed make a run. -/
theorem plicRun_of_runPlicOps
    {ops : List PlicOp}
    (h : runPlicOps w ops = .ok w') :
    ∃ ts, PlicRun w ts w' ∧ ts.map Prod.snd = ops := by
  induction ops generalizing w' with
  | nil =>
      cases h
      exact ⟨[], .refl, rfl⟩
  | cons op ops ih =>
      rcases bind_eq_ok.mp h with ⟨w₁, hOps, hExec⟩
      rcases ih hOps with ⟨ts, hRun, hMap⟩
      exact ⟨_, hRun.step hExec, by rw [List.map_cons, hMap]⟩

/- The controller of `init_auto` in a machine of two harts. -/
def PlicConfig.twoHarts : PlicConfig :=
  { maxSources := 64
    numHarts := 2
    maxSources_lt := by decide
    numHarts_le := by decide }

/- The controller of `init_auto` in a machine of one hart. -/
def PlicConfig.oneHart : PlicConfig :=
  { maxSources := 64
    numHarts := 1
    maxSources_lt := by decide
    numHarts_le := by decide }

def plicStart : DevWorld (Plic PlicConfig.twoHarts) :=
  ⟨Plic.init _, fun _ => ⟨0, 0, 0⟩⟩

/- The claim register of a context. -/
def plicClaimAddr
    (c : Nat) : BitVec 64 :=
  PLIC_START + 0x200004 + BitVec.ofNat 64 (c * 0x1000)

/- Source 10 gets a priority and is enabled at both harts. -/
def plicSetup : List PlicOp :=
  [ .write (PLIC_START + 0x2100) .Int 0x400,
    .write (PLIC_START + 0x2000) .Int 0x400,
    .write (PLIC_START + 10 * 4) .Int 1 ]

/- A request of source 10 after the setup. -/
theorem plic_lines_up_to_date_request :
    ∃ ts w', PlicRun plicStart ts w' ∧
      ts.map Prod.snd =
        .setPending 10 true :: plicSetup ∧
      UpToDate w' := by
  have hOk : ∃ w', runPlicOps plicStart
      (.setPending 10 true :: plicSetup) = .ok w' :=
    ⟨_, rfl⟩
  rcases hOk with ⟨w', hOps⟩
  rcases plicRun_of_runPlicOps hOps with ⟨ts, hRun, hMap⟩
  refine ⟨ts, w', hRun, hMap, ?_⟩
  refine ((plic_lines_up_to_date_iff _ _ ts w' hRun).mpr
    ⟨fun _ _ => ⟨rfl, rfl⟩, ?_⟩).2
  intro t hMem
  have hOp : t.2 ∈ ts.map Prod.snd :=
    List.mem_map_of_mem hMem
  rw [hMap] at hOp
  have hReg : ∀ op ∈ PlicOp.setPending 10 true :: plicSetup,
      ∀ w : DevWorld (Plic PlicConfig.twoHarts),
        LinesKept w op := by
    intro op hMem w
    simp only [plicSetup, List.mem_cons, List.not_mem_nil,
      or_false] at hMem
    rcases hMem with rfl | rfl | rfl | rfl
    · trivial
    all_goals
      intro c hEq
      exact absurd hEq (by revert c; decide +kernel)
  exact hReg t.2 hOp t.1

/-
  After the context of one hart has claimed the request, the
  other hart still sees it.
-/
theorem plic_lines_stale_after_claim :
    ∃ ts w', PlicRun plicStart ts w' ∧
      ts.map Prod.snd =
        .read (plicClaimAddr 0) .Int ::
          .setPending 10 true :: plicSetup ∧
      ¬ UpToDate w' := by
  have hLine : (runPlicOps plicStart
      (.read (plicClaimAddr 0) .Int ::
        .setPending 10 true :: plicSetup)).toOption.map
          (fun w => (w.dev.line ⟨2, by decide⟩,
            w.dev.raised ⟨2, by decide⟩)) =
      some (true, false) := by
    decide +kernel
  rcases Option.map_eq_some_iff.mp hLine with ⟨w', hOps, hEq⟩
  rw [toOption_eq_some] at hOps
  rcases plicRun_of_runPlicOps hOps with ⟨ts, hRun, hMap⟩
  refine ⟨ts, w', hRun, hMap, ?_⟩
  intro h
  have hSame := h.line ⟨2, by decide⟩
  rw [Prod.mk.injEq] at hEq
  rw [hEq.1, hEq.2] at hSame
  cases hSame

end RiscvEm
