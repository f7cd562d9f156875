import RiscvEm.Hart.State
import RiscvEm.Lib.BitScan

/-
  The platform-level interrupt controller.

  A word or a context that does not exist is not accessed
  unless the source does so without a check; then the access
  is a fault of the host.

  Key definitions include:
    * `Plic`
    * `Plic.findHighest`
    * `Plic.setPending`
    * `Plic.read`
    * `Plic.write`
    * `plicDevice`
-/

------------------------------------------------------------
-- State
------------------------------------------------------------

namespace RiscvEm

/-
  The arguments of the constructor. There are at most 64
  harts, as `main` checks.
-/
structure PlicConfig where
  maxSources : Nat
  numHarts : Nat
  maxSources_lt : maxSources + 31 < 2 ^ 32
  numHarts_le : numHarts ≤ 64

namespace PlicConfig

def numContexts
    (cfg : PlicConfig) : Nat :=
  cfg.numHarts * 2

/- `pending_words_count` and `enable_words_count`. -/
def words
    (cfg : PlicConfig) : Nat :=
  (cfg.maxSources + 31) / 32

end PlicConfig

structure PlicContext (cfg : PlicConfig) where
  threshold : BitVec 32
  enables : Vector (BitVec 32) cfg.words
  interruptLine : Bool

structure Plic (cfg : PlicConfig) where
  priorities : Vector (BitVec 32) (cfg.maxSources + 1)
  pendingWords : Vector (BitVec 32) cfg.words
  contexts : Vector (PlicContext cfg) cfg.numContexts

variable {cfg : PlicConfig}

/- The controller as it is constructed. -/
def Plic.init
    (cfg : PlicConfig) : Plic cfg :=
  { priorities := Vector.replicate _ 0
    pendingWords := Vector.replicate _ 0
    contexts := Vector.replicate _
      { threshold := 0
        enables := Vector.replicate _ 0
        interruptLine := false } }

/- `contexts[i].hart_id`, as the constructor sets it. -/
def hartOfContext
    (c : Fin cfg.numContexts) : Nat :=
  c.val / 2

/- `contexts[i].supervisor_mode`. -/
def supervisorOfContext
    (c : Fin cfg.numContexts) : Bool :=
  c.val % 2 == 1

end RiscvEm

------------------------------------------------------------
-- Arbitration
------------------------------------------------------------

namespace RiscvEm

variable {cfg : PlicConfig}

namespace Plic

/-
  The body of the loop of `find_highest_pending_enabled`: a
  better source replaces the best one so far, which is kept
  with its priority.
-/
def consider
    (p : Plic cfg)
    (threshold : BitVec 32)
    (best : Nat × BitVec 32)
    (id : Nat) : Nat × BitVec 32 :=
  if h : id ≠ 0 ∧ id ≤ cfg.maxSources then
    let prio := p.priorities.get ⟨id, by omega⟩
    if threshold < prio then
      if best.2 < prio ∨ (prio = best.2 ∧ id < best.1) then
        (id, prio)
      else
        best
    else
      best
  else
    best

/- Every set bit of every word is considered, in order. -/
def findHighest
    (p : Plic cfg)
    (c : Fin cfg.numContexts) : Nat :=
  let ctx := p.contexts.get c
  let scanned := (List.finRange cfg.words).foldl
    (fun best word =>
      let active := p.pendingWords.get word &&&
        ctx.enables.get word
      Bits.scanBits
        (fun best bit =>
          p.consider ctx.threshold best (word * 32 + bit))
        32 active best)
    (0, 0)
  scanned.1

end Plic

end RiscvEm

------------------------------------------------------------
-- Signals To The Harts
------------------------------------------------------------

namespace RiscvEm

variable {cfg : PlicConfig}

/- The bit of `ip` that a context drives: SEIP or MEIP. -/
def externalBit
    (supervisorMode : Bool) : Nat :=
  if supervisorMode then 9 else 11

def HartPins.setIpBit
    (p : HartPins)
    (i : Nat)
    (level : Bool) : HartPins :=
  { p with
    ip :=
      if level then
        p.ip ||| (1#16 <<< i)
      else
        p.ip &&& ~~~(1#16 <<< i) }

namespace Plic

def signalCpuInterrupt
    {σ : Type}
    (hartId : Nat)
    (supervisorMode level : Bool)
    (w : DevWorld σ) : DevWorld σ :=
  if 64 ≤ hartId then
    w
  else
    { w with
      pins := Function.update w.pins hartId
        ((w.pins hartId).setIpBit
          (externalBit supervisorMode) level) }

/- `contexts[c]` after a change to one of its fields. -/
def modifyContext
    (p : Plic cfg)
    (c : Fin cfg.numContexts)
    (f : PlicContext cfg → PlicContext cfg) : Plic cfg :=
  { p with
    contexts := p.contexts.set c.val (f (p.contexts.get c)) }

def updateContext
    (w : DevWorld (Plic cfg))
    (c : Fin cfg.numContexts) : DevWorld (Plic cfg) :=
  let shouldRaise := w.dev.findHighest c != 0
  if shouldRaise ≠ (w.dev.contexts.get c).interruptLine then
    signalCpuInterrupt (hartOfContext c)
      (supervisorOfContext c) shouldRaise
      { w with
        dev := w.dev.modifyContext c (fun ctx =>
          { ctx with interruptLine := shouldRaise }) }
  else
    w

def updateAllContexts
    (w : DevWorld (Plic cfg)) : DevWorld (Plic cfg) :=
  (List.finRange cfg.numContexts).foldl updateContext w

end Plic

end RiscvEm

------------------------------------------------------------
-- Requests
------------------------------------------------------------

namespace RiscvEm

variable {cfg : PlicConfig}

namespace Plic

/- `pending_words[i] = f(pending_words[i])`, unchecked. -/
def modifyPending
    (p : Plic cfg)
    (i : Nat)
    (f : BitVec 32 → BitVec 32) :
    Except HostFault (Plic cfg) :=
  if h : i < cfg.words then
    .ok { p with
      pendingWords := p.pendingWords.set i
        (f (p.pendingWords.get ⟨i, h⟩)) }
  else
    .error .outOfBounds

/- Clear the pending bit of a source. -/
def clearPending
    (p : Plic cfg)
    (id : Nat) : Except HostFault (Plic cfg) :=
  p.modifyPending (id / 32)
    (fun word => word &&& ~~~(1#32 <<< (id % 32)))

/- Set or clear the pending bit of a source. -/
def putPending
    (p : Plic cfg)
    (id : Nat)
    (pending : Bool) : Except HostFault (Plic cfg) :=
  if pending then
    p.modifyPending (id / 32)
      (fun word => word ||| (1#32 <<< (id % 32)))
  else
    p.clearPending id

def setPending
    (sourceId : BitVec 32)
    (pending : Bool)
    (w : DevWorld (Plic cfg)) :
    Except HostFault (DevWorld (Plic cfg)) :=
  if sourceId = 0 ∨ cfg.maxSources < sourceId.toNat then
    .ok w
  else do
    let p ← w.dev.putPending sourceId.toNat pending
    .ok (updateAllContexts { w with dev := p })

def claimInterrupt
    (c : Fin cfg.numContexts)
    (w : DevWorld (Plic cfg)) :
    Except HostFault (BitVec 64 × DevWorld (Plic cfg)) :=
  let id := w.dev.findHighest c
  if id ≠ 0 then do
    let p ← w.dev.clearPending id
    .ok (BitVec.ofNat 64 id,
      updateContext { w with dev := p } c)
  else
    .ok (0, w)

def completeInterrupt
    (c : Fin cfg.numContexts)
    (id : BitVec 32)
    (w : DevWorld (Plic cfg)) :
    Except HostFault (DevWorld (Plic cfg)) :=
  if id = 0 ∨ cfg.maxSources < id.toNat then
    .ok w
  else do
    let p ← w.dev.clearPending id.toNat
    .ok (updateContext { w with dev := p } c)

end Plic

end RiscvEm

------------------------------------------------------------
-- Registers
------------------------------------------------------------

namespace RiscvEm

variable {cfg : PlicConfig}

/- The register that an offset belongs to, if any. -/
inductive PlicReg (cfg : PlicConfig) where
  | priority (idx : Fin (cfg.maxSources + 1))
  | pending (word : Fin cfg.words)
  | enable (ctx : Fin cfg.numContexts) (word : Fin cfg.words)
  | threshold (ctx : Fin cfg.numContexts)
  | claimComplete (ctx : Fin cfg.numContexts)
  | none
  deriving DecidableEq

/- The tests on the offset that `read` and `write` share. -/
def plicReg
    (cfg : PlicConfig)
    (offset : Nat) : PlicReg cfg :=
  if offset < 0x1000 then
    if h : 1 ≤ offset / 4 ∧ offset / 4 ≤ cfg.maxSources then
      .priority ⟨offset / 4, by omega⟩
    else
      .none
  else if 0x1000 ≤ offset ∧ offset < 0x1080 then
    if h : (offset - 0x1000) / 4 < cfg.words then
      .pending ⟨(offset - 0x1000) / 4, h⟩
    else
      .none
  else if 0x2000 ≤ offset ∧ offset < 0x200000 then
    if h : (offset - 0x2000) / 0x80 < cfg.numContexts then
      if h' : (offset - 0x2000) % 0x80 / 4 < cfg.words then
        .enable ⟨(offset - 0x2000) / 0x80, h⟩
          ⟨(offset - 0x2000) % 0x80 / 4, h'⟩
      else
        .none
    else
      .none
  else if 0x200000 ≤ offset ∧
      offset < 0x200000 + cfg.numContexts * 0x1000 then
    if h : (offset - 0x200000) / 0x1000 < cfg.numContexts then
      if (offset - 0x200000) % 0x1000 = 0 then
        .threshold ⟨(offset - 0x200000) / 0x1000, h⟩
      else if (offset - 0x200000) % 0x1000 = 4 then
        .claimComplete ⟨(offset - 0x200000) / 0x1000, h⟩
      else
        .none
    else
      .none
  else
    .none

def PLIC_START : BitVec 64 := 0x0C000000
def PLIC_SIZE : BitVec 64 := 0x400000

/- The register that an access is to: only words count. -/
def plicAccess
    (cfg : PlicConfig)
    (addr : BitVec 64)
    (size : MemorySize) : PlicReg cfg :=
  if size ≠ .Int then
    .none
  else
    plicReg cfg (addr - PLIC_START).toNat

namespace Plic

def read
    (addr : BitVec 64)
    (size : MemorySize)
    (w : DevWorld (Plic cfg)) :
    Except HostFault (BitVec 64 × DevWorld (Plic cfg)) :=
  let value (x : BitVec 32) := x.setWidth 64
  match plicAccess cfg addr size with
  | .priority idx => .ok (value (w.dev.priorities.get idx), w)
  | .pending word =>
      .ok (value (w.dev.pendingWords.get word), w)
  | .enable ctx word =>
      .ok (value ((w.dev.contexts.get ctx).enables.get word), w)
  | .threshold ctx =>
      .ok (value (w.dev.contexts.get ctx).threshold, w)
  | .claimComplete ctx => claimInterrupt ctx w
  | .none => .ok (0, w)

def write
    (addr : BitVec 64)
    (size : MemorySize)
    (value : BitVec 64)
    (w : DevWorld (Plic cfg)) :
    Except HostFault (DevWorld (Plic cfg)) :=
  match plicAccess cfg addr size with
  | .priority idx =>
      .ok (updateAllContexts { w with
        dev := { w.dev with
          priorities := w.dev.priorities.set idx.val
            ((value &&& 0x7FFFFFFF).setWidth 32) } })
  | .pending _ => .ok w
  | .enable ctx word =>
      .ok (updateContext
        { w with
          dev := w.dev.modifyContext ctx (fun old =>
            { old with
              enables := old.enables.set word.val
                (value.setWidth 32) }) } ctx)
  | .threshold ctx =>
      .ok (updateContext
        { w with
          dev := w.dev.modifyContext ctx (fun old =>
            { old with
              threshold :=
                (value &&& 0x7FFFFFFF).setWidth 32 }) } ctx)
  | .claimComplete ctx =>
      completeInterrupt ctx (value.setWidth 32) w
  | .none => .ok w

end Plic

/- `init_auto`: the controller on the bus. -/
def plicDevice
    (cfg : PlicConfig) : Device (Plic cfg) :=
  { start := PLIC_START
    size := PLIC_SIZE
    read := Plic.read
    write := fun addr size value w mem =>
      (Plic.write addr size value w).map (fun w => (w, mem)) }

end RiscvEm

------------------------------------------------------------
-- What Arbitration Finds
------------------------------------------------------------

namespace RiscvEm

variable {cfg : PlicConfig}

namespace Plic

variable {p : Plic cfg}
variable {c : Fin cfg.numContexts}
variable {id : Nat}

def pendingBit
    (p : Plic cfg)
    (id : Nat) : Bool :=
  (p.pendingWords[id / 32]?.getD 0).getLsbD (id % 32)

def enabledBit
    (p : Plic cfg)
    (c : Fin cfg.numContexts)
    (id : Nat) : Bool :=
  ((p.contexts.get c).enables[id / 32]?.getD 0).getLsbD
    (id % 32)

def priority
    (p : Plic cfg)
    (id : Nat) : BitVec 32 :=
  p.priorities[id]?.getD 0

/- A source whose priority is above a threshold. -/
structure Above
    (p : Plic cfg)
    (threshold : BitVec 32)
    (id : Nat) : Prop where
  ne_zero : id ≠ 0
  le : id ≤ cfg.maxSources
  above : threshold < p.priority id

/- A source that a context may be interrupted by. -/
structure Eligible
    (p : Plic cfg)
    (c : Fin cfg.numContexts)
    (id : Nat) : Prop where
  source : p.Above (p.contexts.get c).threshold id
  pending : p.pendingBit id = true
  enabled : p.enabledBit c id = true

/-
  The best source among some: the highest priority, and the
  lowest number among those. Zero stands for none.
-/
inductive BestOf
    (p : Plic cfg)
    (threshold : BitVec 32)
    (ids : List Nat) : Nat × BitVec 32 → Prop
  | none :
      (∀ id ∈ ids, ¬ p.Above threshold id) →
      BestOf p threshold ids (0, 0)
  | best {id : Nat} :
      id ∈ ids → p.Above threshold id →
      (∀ id' ∈ ids, p.Above threshold id' →
        p.priority id' < p.priority id ∨
          (p.priority id' = p.priority id ∧ id ≤ id')) →
      BestOf p threshold ids (id, p.priority id)

/- The priority of a source that exists. -/
theorem priority_of_le
    (hLe : id ≤ cfg.maxSources) :
    p.priority id =
      p.priorities.get ⟨id, Nat.lt_succ_of_le hLe⟩ := by
  unfold priority
  rw [Vector.getElem?_eq_getElem (Nat.lt_succ_of_le hLe)]
  rfl

/- A source that is not above the threshold is passed over. -/
theorem consider_not
    {threshold : BitVec 32}
    {best : Nat × BitVec 32}
    (hNot : ¬ p.Above threshold id) :
    p.consider threshold best id = best := by
  unfold consider
  split
  · rename_i h
    dsimp only
    rw [if_neg]
    intro hAbove
    rw [← priority_of_le h.2] at hAbove
    exact hNot ⟨h.1, h.2, hAbove⟩
  · rfl

/-
  A source above the threshold replaces the best one if it
  has the higher priority, or the same and the lower number.
-/
theorem consider_above
    {threshold : BitVec 32}
    {best : Nat × BitVec 32}
    (h : p.Above threshold id) :
    p.consider threshold best id =
      if best.2 < p.priority id ∨
          (p.priority id = best.2 ∧ id < best.1) then
        (id, p.priority id)
      else
        best := by
  unfold consider
  rw [dif_pos ⟨h.ne_zero, h.le⟩]
  dsimp only
  rw [← priority_of_le h.le, if_pos h.above]

/- One more source is considered. -/
theorem BestOf.step
    {threshold : BitVec 32}
    {ids : List Nat}
    {best : Nat × BitVec 32}
    (h : BestOf p threshold ids best)
    (id : Nat) :
    BestOf p threshold (ids ++ [id])
      (p.consider threshold best id) := by
  by_cases hAbove : p.Above threshold id
  · rw [consider_above hAbove]
    have hPos : (0 : BitVec 32) < p.priority id := by
      have hLt := hAbove.above
      rw [BitVec.lt_def] at hLt ⊢
      exact Nat.lt_of_le_of_lt (Nat.zero_le _) hLt
    cases h with
    | none hNone =>
        rw [if_pos (Or.inl hPos)]
        refine .best (by simp) hAbove ?_
        intro id' hMem hAbove'
        rcases List.mem_append.mp hMem with hOld | hNew
        · exact absurd hAbove' (hNone id' hOld)
        · rw [List.mem_singleton.mp hNew]
          exact Or.inr ⟨rfl, Nat.le_refl id⟩
    | @best b hb hbAbove hMax =>
        split
        case isTrue hBetter =>
          refine .best (by simp) hAbove ?_
          intro id' hMem hAbove'
          rcases List.mem_append.mp hMem with hOld | hNew
          · rcases hMax id' hOld hAbove' with
              hLt | ⟨hEq, hLe⟩
            · rcases hBetter with hGt | ⟨hSame, -⟩
              · exact Or.inl (BitVec.lt_trans hLt hGt)
              · exact Or.inl (hSame ▸ hLt)
            · rcases hBetter with hGt | ⟨hSame, hLow⟩
              · exact Or.inl (hEq ▸ hGt)
              · exact Or.inr ⟨hEq.trans hSame.symm, by omega⟩
          · rw [List.mem_singleton.mp hNew]
            exact Or.inr ⟨rfl, Nat.le_refl id⟩
        case isFalse hWorse =>
          refine .best (by simp [hb]) hbAbove ?_
          intro id' hMem hAbove'
          rcases List.mem_append.mp hMem with hOld | hNew
          · exact hMax id' hOld hAbove'
          · rw [List.mem_singleton.mp hNew]
            have hNotLt : ¬ p.priority b < p.priority id :=
              fun hLt => hWorse (Or.inl hLt)
            by_cases hSame : p.priority id = p.priority b
            · refine Or.inr ⟨hSame, ?_⟩
              by_contra hLow
              exact hWorse (Or.inr ⟨hSame, by omega⟩)
            · left
              rw [BitVec.lt_def]
              rw [BitVec.lt_def] at hNotLt
              have hNat := BitVec.toNat_ne.mp hSame
              omega
  · rw [consider_not hAbove]
    cases h with
    | none hNone =>
        refine .none ?_
        intro id' hMem
        rcases List.mem_append.mp hMem with hOld | hNew
        · exact hNone id' hOld
        · rw [List.mem_singleton.mp hNew]
          exact hAbove
    | best hb hbAbove hMax =>
        refine .best (by simp [hb]) hbAbove ?_
        intro id' hMem hAbove'
        rcases List.mem_append.mp hMem with hOld | hNew
        · exact hMax id' hOld hAbove'
        · rw [List.mem_singleton.mp hNew] at hAbove'
          exact absurd hAbove' hAbove

/- The loop keeps the best of what it has seen. -/
theorem BestOf.foldl
    {threshold : BitVec 32}
    {seen : List Nat}
    {best : Nat × BitVec 32}
    (h : BestOf p threshold seen best)
    (ids : List Nat) :
    BestOf p threshold (seen ++ ids)
      (ids.foldl (p.consider threshold) best) := by
  induction ids generalizing seen best with
  | nil =>
      rw [List.append_nil]
      exact h
  | cons id ids ih =>
      have hStep := ih (h.step id)
      rw [List.append_assoc] at hStep
      exact hStep

/- The sources that the loops of arbitration visit. -/
def candidates
    (p : Plic cfg)
    (c : Fin cfg.numContexts) : List Nat :=
  (List.finRange cfg.words).flatMap (fun word =>
    (Bits.setBits (p.pendingWords.get word &&&
      (p.contexts.get c).enables.get word)).map
        (fun bit => word.val * 32 + bit))

/-
  The scan passes the sources that are pending and enabled.
-/
theorem mem_candidates :
    id ∈ p.candidates c ↔
      p.pendingBit id = true ∧ p.enabledBit c id = true := by
  unfold candidates pendingBit enabledBit
  simp only [List.mem_flatMap, List.mem_finRange, true_and,
    List.mem_map, Bits.mem_setBits, BitVec.getLsbD_and,
    Bool.and_eq_true]
  constructor
  · rintro ⟨word, bit, ⟨hPending, hEnabled⟩, rfl⟩
    have hBit : bit < 32 := BitVec.lt_of_getLsbD hPending
    have hDiv : (word.val * 32 + bit) / 32 = word.val := by
      omega
    have hMod : (word.val * 32 + bit) % 32 = bit := by omega
    rw [hDiv, hMod, Vector.getElem?_eq_getElem word.isLt,
      Vector.getElem?_eq_getElem word.isLt]
    exact ⟨hPending, hEnabled⟩
  · rintro ⟨hPending, hEnabled⟩
    by_cases hWord : id / 32 < cfg.words
    · rw [Vector.getElem?_eq_getElem hWord] at hPending
      rw [Vector.getElem?_eq_getElem hWord] at hEnabled
      refine ⟨⟨id / 32, hWord⟩, id % 32,
        ⟨hPending, hEnabled⟩, ?_⟩
      exact Nat.div_add_mod' id 32
    · rw [Vector.getElem?_eq_none (by omega)] at hPending
      simp at hPending

/- Arbitration is a loop over the candidates. -/
theorem findHighest_eq_foldl
    (p : Plic cfg)
    (c : Fin cfg.numContexts) :
    p.findHighest c = ((p.candidates c).foldl
      (p.consider (p.contexts.get c).threshold) (0, 0)).1 := by
  unfold findHighest candidates
  simp only [Bits.scanBits_eq_foldl, List.foldl_flatMap,
    List.foldl_map]

/-
  A source is eligible if it is one of them and above the
  threshold.
-/
theorem eligible_iff :
    p.Eligible c id ↔ id ∈ p.candidates c ∧
      p.Above (p.contexts.get c).threshold id := by
  rw [mem_candidates]
  constructor
  · rintro ⟨hSource, hPending, hEnabled⟩
    exact ⟨⟨hPending, hEnabled⟩, hSource⟩
  · rintro ⟨⟨hPending, hEnabled⟩, hSource⟩
    exact ⟨hSource, hPending, hEnabled⟩

/-
  Arbitration finds the eligible source of the highest
  priority and lowest number, or zero.
-/
theorem findHighest_cases
    (p : Plic cfg)
    (c : Fin cfg.numContexts) :
    (p.findHighest c = 0 ∧ ∀ id, ¬ p.Eligible c id) ∨
      (p.Eligible c (p.findHighest c) ∧
        ∀ id, p.Eligible c id →
          p.priority id < p.priority (p.findHighest c) ∨
            (p.priority id = p.priority (p.findHighest c) ∧
              p.findHighest c ≤ id)) := by
  have hStart : BestOf p (p.contexts.get c).threshold []
      (0, 0) := by
    refine .none ?_
    intro id hMem
    cases hMem
  have hBest := hStart.foldl (p.candidates c)
  rw [List.nil_append] at hBest
  rw [findHighest_eq_foldl]
  generalize List.foldl _ _ _ = best at hBest
  cases hBest with
  | none hNone =>
      refine Or.inl ⟨rfl, ?_⟩
      intro id hEligible
      rw [eligible_iff] at hEligible
      exact hNone id hEligible.1 hEligible.2
  | best hMem hAbove hMax =>
      refine Or.inr ⟨eligible_iff.mpr ⟨hMem, hAbove⟩, ?_⟩
      intro id hEligible
      rw [eligible_iff] at hEligible
      exact hMax id hEligible.1 hEligible.2

/- Zero stands for no source. -/
theorem findHighest_eq_zero_iff :
    p.findHighest c = 0 ↔ ∀ id, ¬ p.Eligible c id := by
  rcases p.findHighest_cases c with ⟨hZero, hNone⟩ | ⟨hEl, -⟩
  · exact ⟨fun _ => hNone, fun _ => hZero⟩
  · constructor
    · intro hZero
      exact absurd hZero hEl.source.ne_zero
    · intro hNone
      exact absurd hEl (hNone _)

end Plic

end RiscvEm
