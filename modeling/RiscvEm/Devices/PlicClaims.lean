import RiscvEm.Devices.PlicRuns

/-
  Claims in a row: they hand out the sources that a context
  may be interrupted by, one after the other.

  Key definitions include:
    * `Plic.Before`
    * `Plic.Order`
    * `Plic.claims`

  Key theorems include `plic_arbitration`.
-/

------------------------------------------------------------
-- The Order Of Sources
------------------------------------------------------------

namespace RiscvEm

namespace Plic

variable {cfg : PlicConfig}
variable {p p' : Plic cfg}
variable {c : Fin cfg.numContexts}

/-
  A source goes before another one: its priority is higher,
  or it is the same and the number is lower.
-/
def Before
    (p : Plic cfg)
    (id id' : Nat) : Prop :=
  p.priority id' < p.priority id ∨
    (p.priority id' = p.priority id ∧ id < id')

/- All sources that may interrupt a context, in order. -/
structure Order
    (p : Plic cfg)
    (c : Fin cfg.numContexts)
    (ids : List Nat) : Prop where
  pairwise : ids.Pairwise p.Before
  mem_iff : ∀ id, id ∈ ids ↔ p.Eligible c id

theorem Before.irrefl
    (id : Nat) :
    ¬ p.Before id id := by
  rintro (hLt | ⟨-, hLt⟩)
  · exact BitVec.lt_irrefl _ hLt
  · exact Nat.lt_irrefl _ hLt

theorem Before.asymm
    {id id' : Nat}
    (h : p.Before id id') :
    ¬ p.Before id' id := by
  rcases h with hLt | ⟨hSame, hLow⟩
  · rintro (hGt | ⟨hSame, -⟩)
    · exact absurd (BitVec.lt_trans hLt hGt)
        (BitVec.lt_irrefl _)
    · rw [hSame] at hLt
      exact BitVec.lt_irrefl _ hLt
  · rintro (hGt | ⟨-, hHigh⟩)
    · rw [hSame] at hGt
      exact BitVec.lt_irrefl _ hGt
    · omega

/- Of two sources one goes before the other. -/
theorem before_or_before
    (p : Plic cfg)
    {id id' : Nat}
    (hNe : id ≠ id') :
    p.Before id id' ∨ p.Before id' id := by
  by_cases hSame : p.priority id = p.priority id'
  · rcases Nat.lt_or_gt_of_ne hNe with hLow | hHigh
    · exact Or.inl (Or.inr ⟨hSame.symm, hLow⟩)
    · exact Or.inr (Or.inr ⟨hSame, hHigh⟩)
  · have hNat := BitVec.toNat_ne.mp hSame
    rcases Nat.lt_or_gt_of_ne hNat with hLt | hGt
    · exact Or.inr (Or.inl (BitVec.lt_def.mpr hLt))
    · exact Or.inl (Or.inl (BitVec.lt_def.mpr hGt))

/- What arbitration finds goes before every other source. -/
theorem findHighest_spec
    (hNe : p.findHighest c ≠ 0) :
    p.Eligible c (p.findHighest c) ∧
      ∀ id, p.Eligible c id → id ≠ p.findHighest c →
        p.Before (p.findHighest c) id := by
  rcases p.findHighest_cases c with ⟨hZero, -⟩ | ⟨hEl, hMax⟩
  · exact absurd hZero hNe
  · refine ⟨hEl, ?_⟩
    intro id hId hOther
    rcases hMax id hId with hLt | ⟨hSame, hLe⟩
    · exact Or.inl hLt
    · exact Or.inr
        ⟨hSame, Nat.lt_of_le_of_ne hLe hOther.symm⟩

/- Arbitration finds the first source of the order. -/
theorem Order.findHighest_nil
    (h : p.Order c []) :
    p.findHighest c = 0 := by
  rw [findHighest_eq_zero_iff]
  intro id hEl
  have hMem := (h.mem_iff id).mpr hEl
  cases hMem

theorem Order.findHighest_cons
    {id : Nat}
    {ids : List Nat}
    (h : p.Order c (id :: ids)) :
    p.findHighest c = id := by
  have hEl := (h.mem_iff id).mp (List.mem_cons_self ..)
  have hNe : p.findHighest c ≠ 0 := by
    intro hZero
    exact findHighest_eq_zero_iff.mp hZero id hEl
  rcases findHighest_spec hNe with ⟨hFound, hFirst⟩
  by_contra hOther
  have hBefore := hFirst id hEl (fun h => hOther h.symm)
  have hMem := (h.mem_iff _).mpr hFound
  rcases List.mem_cons.mp hMem with hEq | hTail
  · exact hOther hEq
  · have hHead := (List.pairwise_cons.mp h.pairwise).1 _ hTail
    exact hHead.asymm hBefore

end Plic

end RiscvEm

------------------------------------------------------------
-- The Order Exists
------------------------------------------------------------

namespace RiscvEm

namespace Plic

variable {cfg : PlicConfig}

/- A source goes before another one or is the same. -/
def rank
    (p : Plic cfg)
    (id id' : Nat) : Bool :=
  decide (p.priority id' < p.priority id) ||
    (decide (p.priority id' = p.priority id) &&
      decide (id ≤ id'))

variable {p : Plic cfg}

theorem rank_iff
    {id id' : Nat} :
    p.rank id id' = true ↔ p.Before id id' ∨ id = id' := by
  unfold rank Before
  simp only [Bool.or_eq_true, Bool.and_eq_true,
    decide_eq_true_iff]
  constructor
  · rintro (hLt | ⟨hSame, hLe⟩)
    · exact Or.inl (Or.inl hLt)
    · rcases Nat.lt_or_eq_of_le hLe with hLt | hEq
      · exact Or.inl (Or.inr ⟨hSame, hLt⟩)
      · exact Or.inr hEq
  · rintro ((hLt | ⟨hSame, hLt⟩) | rfl)
    · exact Or.inl hLt
    · exact Or.inr ⟨hSame, Nat.le_of_lt hLt⟩
    · exact Or.inr ⟨rfl, Nat.le_refl _⟩

theorem rank_trans
    (id₁ id₂ id₃ : Nat)
    (h : p.rank id₁ id₂ = true)
    (h' : p.rank id₂ id₃ = true) :
    p.rank id₁ id₃ = true := by
  unfold rank at *
  simp only [Bool.or_eq_true, Bool.and_eq_true,
    decide_eq_true_iff, BitVec.lt_def, ← BitVec.toNat_inj]
    at *
  omega

theorem rank_total
    (id id' : Nat) :
    (p.rank id id' || p.rank id' id) = true := by
  rw [Bool.or_eq_true, rank_iff, rank_iff]
  by_cases hEq : id = id'
  · exact Or.inl (Or.inr hEq)
  · rcases before_or_before p hEq with hFirst | hSecond
    · exact Or.inl (Or.inl hFirst)
    · exact Or.inr (Or.inl hSecond)

open Classical in
/- The order is found by sorting. -/
theorem exists_order
    (p : Plic cfg)
    (c : Fin cfg.numContexts) :
    ∃ ids, p.Order c ids := by
  let sources := (List.range (cfg.maxSources + 1)).filter
    (fun id => p.Eligible c id)
  have hPerm := List.mergeSort_perm sources p.rank
  have hNodup : (sources.mergeSort p.rank).Nodup :=
    hPerm.nodup_iff.mpr (List.nodup_range.filter _)
  have hSorted : (sources.mergeSort p.rank).Pairwise
      (fun id id' => p.rank id id' = true) :=
    List.pairwise_mergeSort rank_trans rank_total sources
  refine ⟨sources.mergeSort p.rank, ?_, ?_⟩
  · refine (hSorted.and hNodup).imp ?_
    rintro id id' ⟨hRank, hNe⟩
    exact (rank_iff.mp hRank).resolve_right hNe
  · intro id
    rw [hPerm.mem_iff, List.mem_filter, List.mem_range,
      decide_eq_true_iff]
    constructor
    · exact fun h => h.2
    · intro hEl
      exact ⟨Nat.lt_succ_of_le hEl.source.le, hEl⟩

end Plic

end RiscvEm

------------------------------------------------------------
-- Claims
------------------------------------------------------------

namespace RiscvEm

namespace Plic

variable {cfg : PlicConfig}
variable {p p' : Plic cfg}
variable {w w' : DevWorld (Plic cfg)}
variable {c : Fin cfg.numContexts}

/- Claims in a row and the sources that they return. -/
def claims
    (c : Fin cfg.numContexts) :
    Nat → DevWorld (Plic cfg) →
      Except HostFault (List (BitVec 64) × DevWorld (Plic cfg))
  | 0, w => .ok ([], w)
  | k + 1, w => do
      let (id, w) ← claimInterrupt c w
      let (ids, w) ← claims c k w
      .ok (id :: ids, w)

/- Nothing but one pending bit was changed by a claim. -/
structure Claimed
    (p p' : Plic cfg)
    (id : Nat) : Prop where
  pendingBit : ∀ id', p'.pendingBit id' =
    (p.pendingBit id' && decide (id' ≠ id))
  priorities : p'.priorities = p.priorities
  threshold : ∀ c, (p'.contexts.get c).threshold =
    (p.contexts.get c).threshold
  enables : ∀ c, (p'.contexts.get c).enables =
    (p.contexts.get c).enables

theorem Claimed.eligible_iff
    {id : Nat}
    (h : Claimed p p' id)
    (id' : Nat) :
    p'.Eligible c id' ↔ p.Eligible c id' ∧ id' ≠ id := by
  have hAbove : p'.Above (p'.contexts.get c).threshold id' ↔
      p.Above (p.contexts.get c).threshold id' := by
    rw [h.threshold c]
    constructor
    · rintro ⟨hNe, hLe, hLt⟩
      refine ⟨hNe, hLe, ?_⟩
      unfold priority at hLt ⊢
      rwa [h.priorities] at hLt
    · rintro ⟨hNe, hLe, hLt⟩
      refine ⟨hNe, hLe, ?_⟩
      unfold priority at hLt ⊢
      rwa [h.priorities]
  have hEnabled : p'.enabledBit c id' = p.enabledBit c id' := by
    unfold enabledBit
    rw [h.enables c]
  have hBit := h.pendingBit id'
  constructor
  · rintro ⟨hSource, hPending, hOn⟩
    rw [hBit, Bool.and_eq_true, decide_eq_true_iff] at hPending
    rw [hEnabled] at hOn
    exact ⟨⟨hAbove.mp hSource, hPending.1, hOn⟩, hPending.2⟩
  · rintro ⟨⟨hSource, hPending, hOn⟩, hNe⟩
    refine ⟨hAbove.mpr hSource, ?_, ?_⟩
    · rw [hBit, Bool.and_eq_true, decide_eq_true_iff]
      exact ⟨hPending, hNe⟩
    · rw [hEnabled]
      exact hOn

/- The rest of the order is the order after the claim. -/
theorem Order.tail
    {id : Nat}
    {ids : List Nat}
    (h : p.Order c (id :: ids))
    (hClaimed : Claimed p p' id) :
    p'.Order c ids := by
  rcases List.pairwise_cons.mp h.pairwise with ⟨hHead, hTail⟩
  refine ⟨?_, ?_⟩
  · refine hTail.imp ?_
    intro a b hBefore
    unfold Before priority at hBefore ⊢
    rwa [hClaimed.priorities]
  · intro id'
    rw [hClaimed.eligible_iff, ← h.mem_iff, List.mem_cons]
    constructor
    · intro hMem
      refine ⟨Or.inr hMem, ?_⟩
      rintro rfl
      exact Before.irrefl _ (hHead _ hMem)
    · rintro ⟨hEq | hMem, hNe⟩
      · exact absurd hEq hNe
      · exact hMem

/- The bit of a source that is eligible is in a word. -/
theorem Eligible.word_lt
    {id : Nat}
    (h : p.Eligible c id) :
    id / 32 < cfg.words := by
  by_contra hWord
  have hPending := h.pending
  unfold pendingBit at hPending
  rw [Vector.getElem?_eq_none (by omega)] at hPending
  simp at hPending

theorem claimInterrupt_zero
    (hZero : w.dev.findHighest c = 0) :
    claimInterrupt c w = .ok (0, w) := by
  unfold claimInterrupt
  dsimp only
  rw [if_neg (not_not.mpr hZero)]

/- A claim clears the bit of the source that it returns. -/
theorem claimInterrupt_found
    (hNe : w.dev.findHighest c ≠ 0) :
    ∃ w', claimInterrupt c w =
        .ok (BitVec.ofNat 64 (w.dev.findHighest c), w') ∧
      Claimed w.dev w'.dev (w.dev.findHighest c) := by
  have hWord := (findHighest_spec hNe).1.word_lt
  have hSome : ∃ p, w.dev.clearPending
      (w.dev.findHighest c) = .ok p := by
    unfold clearPending modifyPending
    rw [dif_pos hWord]
    exact ⟨_, rfl⟩
  rcases hSome with ⟨p, hp⟩
  refine ⟨updateContext { w with dev := p } c, ?_, ?_⟩
  · unfold claimInterrupt
    dsimp only
    rw [if_pos hNe, hp]
    rfl
  · have hRegs := (refreshed_updateContext
      { w with dev := p } c).regs
    rcases modifyPending_cases hp with ⟨_, hEq⟩
    refine ⟨?_, ?_, ?_, ?_⟩
    · intro id'
      rw [hRegs.pendingBit id']
      exact pendingBit_clearPending hp id'
    · rw [hRegs.priorities, hEq]
    · intro c'
      rw [hRegs.threshold c', hEq]
    · intro c'
      rw [hRegs.enables c', hEq]

/- Claims in a row return the order, and zeros after it. -/
theorem Order.claims
    {ids : List Nat}
    (h : w.dev.Order c ids)
    (k : Nat) :
    ∃ w', claims c k w = .ok
      ((ids.take k).map (BitVec.ofNat 64) ++
        List.replicate (k - ids.length) 0, w') := by
  induction k generalizing w ids with
  | zero => exact ⟨w, by simp [Plic.claims]⟩
  | succ k ih =>
      cases ids with
      | nil =>
          rcases ih h with ⟨w', hRest⟩
          refine ⟨w', ?_⟩
          unfold Plic.claims
          rw [claimInterrupt_zero h.findHighest_nil]
          change (Plic.claims c k w).bind _ = _
          rw [hRest]
          simp [List.replicate_succ, Except.bind]
      | cons id ids =>
          have hFound := h.findHighest_cons
          have hEl := (h.mem_iff id).mp (List.mem_cons_self ..)
          have hNe : w.dev.findHighest c ≠ 0 := by
            rw [hFound]
            exact hEl.source.ne_zero
          rcases claimInterrupt_found hNe with
            ⟨w₁, hClaim, hClaimed⟩
          rw [hFound] at hClaim hClaimed
          rcases ih (h.tail hClaimed) with ⟨w', hRest⟩
          refine ⟨w', ?_⟩
          unfold Plic.claims
          rw [hClaim]
          change (Plic.claims c k w₁).bind _ = _
          rw [hRest]
          simp [Except.bind]

end Plic

end RiscvEm

------------------------------------------------------------
-- Arbitration
------------------------------------------------------------

namespace RiscvEm

/-
  Arbitration finds the first of the sources that may
  interrupt the context, a claim returns it and clears its
  pending bit alone, and claims in a row return all of them
  in order, and then zero.
-/
theorem plic_arbitration
    (cfg : PlicConfig)
    (w : DevWorld (Plic cfg))
    (c : Fin cfg.numContexts) :
    (w.dev.findHighest c = 0 ↔ ∀ id, ¬ w.dev.Eligible c id) ∧
      (w.dev.findHighest c = 0 →
        Plic.claimInterrupt c w = .ok (0, w)) ∧
      (w.dev.findHighest c ≠ 0 →
        w.dev.Eligible c (w.dev.findHighest c) ∧
        (∀ id, w.dev.Eligible c id →
          id ≠ w.dev.findHighest c →
            w.dev.Before (w.dev.findHighest c) id) ∧
        ∃ id w', Plic.claimInterrupt c w = .ok (id, w') ∧
          id.toNat = w.dev.findHighest c ∧
          Plic.Claimed w.dev w'.dev (w.dev.findHighest c)) ∧
      ∃ ids, w.dev.Order c ids ∧
        ∀ k, ∃ out w', Plic.claims c k w = .ok (out, w') ∧
          out.map BitVec.toNat =
            ids.take k ++ List.replicate (k - ids.length) 0 := by
  have hToNat : ∀ id, id ≤ cfg.maxSources →
      (BitVec.ofNat 64 id).toNat = id := by
    intro id hLe
    have hMax := cfg.maxSources_lt
    rw [BitVec.toNat_ofNat, Nat.mod_eq_of_lt (by omega)]
  refine ⟨Plic.findHighest_eq_zero_iff,
    Plic.claimInterrupt_zero, ?_, ?_⟩
  · intro hNe
    rcases Plic.findHighest_spec hNe with ⟨hEl, hFirst⟩
    rcases Plic.claimInterrupt_found hNe with
      ⟨w', hClaim, hClaimed⟩
    exact ⟨hEl, hFirst, _, w', hClaim,
      hToNat _ hEl.source.le, hClaimed⟩
  · rcases Plic.exists_order w.dev c with ⟨ids, hOrder⟩
    refine ⟨ids, hOrder, ?_⟩
    intro k
    rcases hOrder.claims k with ⟨w', hClaims⟩
    refine ⟨_, w', hClaims, ?_⟩
    rw [List.map_append, List.map_map, List.map_replicate]
    congr 1
    refine (List.map_congr_left ?_).trans (List.map_id _)
    intro id hMem
    have hEl := (hOrder.mem_iff id).mp (List.mem_of_mem_take hMem)
    exact hToNat id hEl.source.le

end RiscvEm
