import RiscvEm.Decode.Cache

/-
  Which instruction a word decodes to, computed from the
  registered masks instead of the lookup tables.

  Key definitions include:
    * `bestMatch`
    * `matchEntry`

  Key theorems include:
    * `decodeEntry_eq_matchEntry`
    * `bestMatch_row`
    * `bestMatch_gap`
-/

------------------------------------------------------------
-- The Best Match
------------------------------------------------------------

namespace RiscvEm

instance
    (w : BitVec 32) :
    DecidablePred
      (fun i => RightLength w i ∧ Matches w i) := by
  intro i
  unfold RightLength Matches
  infer_instance

/- The entry left by trying every instruction in turn. -/
def bestMatch
    (w : BitVec 32) : Option Instruction :=
  allInstrs.foldl
    (fun entry i =>
      if RightLength w i ∧ Matches w i then
        place entry i
      else
        entry)
    none

theorem firstMostSpecific_foldl
    {p : Instruction → Prop}
    [DecidablePred p]
    (rest instrs : List Instruction)
    {entry : Option Instruction}
    (hEntry : FirstMostSpecific instrs p entry) :
    FirstMostSpecific (instrs ++ rest) p
      (rest.foldl
        (fun entry i => if p i then place entry i else entry)
        entry) := by
  induction rest generalizing instrs entry with
  | nil => simpa using hEntry
  | cons i rest ih =>
      have hNext := ih (instrs ++ [i]) (hEntry.snoc i)
      rw [List.append_assoc] at hNext
      exact hNext

theorem bestMatch_spec
    (w : BitVec 32) :
    FirstMostSpecific allInstrs
      (fun i => RightLength w i ∧ Matches w i)
      (bestMatch w) := by
  have hEmpty : FirstMostSpecific []
      (fun i => RightLength w i ∧ Matches w i) none := by
    apply FirstMostSpecific.null
    intro i hMem
    cases hMem
  exact firstMostSpecific_foldl allInstrs [] hEmpty

/- Position and instruction are determined. -/
theorem MostSpecificAt.unique
    {instrs : List Instruction}
    {p : Instruction → Prop}
    {i i' : Instruction}
    {k k' : Nat}
    (h : MostSpecificAt instrs p i k)
    (h' : MostSpecificAt instrs p i' k') :
    i = i' := by
  have hLe := h.best k' i' h'.get h'.holds
  have hLe' := h'.best k i h.get h.holds
  have hEq : k = k' := by
    have hPop : popcountU32 i.mask = popcountU32 i'.mask := by
      omega
    have hFirst := hLe.2 hPop.symm
    have hFirst' := hLe'.2 hPop
    omega
  subst hEq
  exact Option.some.inj (h.get.symm.trans h'.get)

theorem FirstMostSpecific.unique
    {instrs : List Instruction}
    {p : Instruction → Prop}
    {e e' : Option Instruction}
    (h : FirstMostSpecific instrs p e)
    (h' : FirstMostSpecific instrs p e') :
    e = e' := by
  cases h with
  | null hNone =>
      cases h' with
      | null hNone' => rfl
      | entry hAt =>
          exact absurd hAt.holds
            (hNone _ (List.mem_of_getElem? hAt.get))
  | entry hAt =>
      cases h' with
      | null hNone =>
          exact absurd hAt.holds
            (hNone _ (List.mem_of_getElem? hAt.get))
      | entry hAt' => rw [hAt.unique hAt']

theorem selected_eq_bestMatch
    (pc : BitVec 64)
    (w : BitVec 32) :
    (decodeEntry decoder pc w).selected = bestMatch w :=
  (selected_spec pc w).unique (bestMatch_spec w)

end RiscvEm

------------------------------------------------------------
-- The Whole Entry
------------------------------------------------------------

namespace RiscvEm

/- The entry of a word for which `sel` was selected. -/
def matchEntry
    (pc : BitVec 64)
    (w : BitVec 32)
    (sel : Option Instruction) : InstructionCache :=
  match sel with
  | some i =>
      ⟨pc, w, some i, operandData w (i.immDecodeFunc w), true⟩
  | none => invalidEntry pc w

theorem decodeEntry_eq_of_selected
    (luts : Luts)
    (pc : BitVec 64)
    (w : BitVec 32) :
    decodeEntry luts pc w =
      matchEntry pc w (decodeEntry luts pc w).selected := by
  unfold decodeEntry
  cases luts.lookup w with
  | none => rfl
  | some d =>
      by_cases hMatch : w &&& d.mask = d.matchBits
      · simp [hMatch, InstructionCache.selected, matchEntry]
      · simp [hMatch, InstructionCache.selected, matchEntry,
          invalidEntry]

theorem decodeEntry_eq_matchEntry
    (pc : BitVec 64)
    (w : BitVec 32) :
    decodeEntry decoder pc w =
      matchEntry pc w (bestMatch w) := by
  rw [decodeEntry_eq_of_selected, selected_eq_bestMatch]

theorem matchEntry_selected
    (pc : BitVec 64)
    (w : BitVec 32)
    (sel : Option Instruction) :
    (matchEntry pc w sel).selected = sel := by
  cases sel <;> rfl

end RiscvEm

------------------------------------------------------------
-- Rows Of The Table
------------------------------------------------------------

namespace RiscvEm

/-
  A row is a set of words given by fixed bits. An instruction
  is apart from a row if a bit is fixed differently in both.
-/
def ApartFrom
    (mask fixed : BitVec 32)
    (i : Instruction) : Prop :=
  i.mask &&& mask &&& (i.matchBits ^^^ fixed) ≠ 0

instance
    (mask fixed : BitVec 32)
    (i : Instruction) :
    Decidable (ApartFrom mask fixed i) :=
  inferInstanceAs (Decidable (_ ≠ _))

/- No word of the row matches an instruction apart from it. -/
theorem ApartFrom.not_matches
    {mask fixed w : BitVec 32}
    {i : Instruction}
    (h : ApartFrom mask fixed i)
    (hRow : w &&& mask = fixed) :
    ¬ Matches w i := by
  intro hMatch
  apply h
  unfold Matches at hMatch
  rw [← hMatch, ← hRow]
  apply BitVec.eq_of_getLsbD_eq
  intro j hj
  simp only [BitVec.getLsbD_and, BitVec.getLsbD_xor]
  cases w.getLsbD j
  · simp
  · cases i.mask.getLsbD j
    · simp
    · simp

/- Every instruction of the length is apart from the row. -/
def rowIsGap
    (size : BitVec 8)
    (mask fixed : BitVec 32) : Prop :=
  ∀ i ∈ allInstrs, i.size = size → ApartFrom mask fixed i

instance
    (size : BitVec 8)
    (mask fixed : BitVec 32) :
    Decidable (rowIsGap size mask fixed) :=
  inferInstanceAs (Decidable (∀ i ∈ allInstrs, _))

/-
  The instruction at position `k` matches the words of the
  row and is preferred to the others that could.
-/
def rowTakes
    (size : BitVec 8)
    (mask fixed : BitVec 32)
    (k : Nat) : Prop :=
  ∃ i, allInstrs[k]? = some i ∧
    i.size = size ∧ i.mask &&& mask = i.mask ∧
    fixed &&& i.mask = i.matchBits ∧
    ∀ j i', allInstrs[j]? = some i' → i'.size = size →
      ¬ ApartFrom mask fixed i' →
        popcountU32 i'.mask ≤ popcountU32 i.mask ∧
          (popcountU32 i'.mask = popcountU32 i.mask → k ≤ j)

/- A row as the table of a decoder is checked for it. -/
def rowTakesB
    (size : BitVec 8)
    (mask fixed : BitVec 32)
    (k : Nat) : Bool :=
  match allInstrs[k]? with
  | none => false
  | some i =>
      i.size == size && i.mask &&& mask == i.mask &&
        fixed &&& i.mask == i.matchBits &&
        allInstrs.zipIdx.all (fun x =>
          !(x.1.size == size) ||
            decide (ApartFrom mask fixed x.1) ||
            decide (popcountU32 x.1.mask < popcountU32 i.mask) ||
            (popcountU32 x.1.mask == popcountU32 i.mask &&
              decide (k ≤ x.2)))

theorem rowTakes_of_rowTakesB
    {size : BitVec 8}
    {mask fixed : BitVec 32}
    {k : Nat}
    (h : rowTakesB size mask fixed k = true) :
    rowTakes size mask fixed k := by
  unfold rowTakesB at h
  cases hAt : allInstrs[k]? with
  | none =>
      rw [hAt] at h
      cases h
  | some i =>
      rw [hAt] at h
      simp only [Bool.and_eq_true, beq_iff_eq,
        List.all_eq_true, Bool.or_eq_true, Bool.not_eq_true',
        beq_eq_false_iff_ne, decide_eq_true_eq] at h
      rcases h with ⟨⟨⟨hSize, hMask⟩, hFixed⟩, hAll⟩
      refine ⟨i, hAt, hSize, hMask, hFixed, ?_⟩
      intro j i' hGet hSize' hNear
      have hMem : (i', j) ∈ allInstrs.zipIdx :=
        List.mem_zipIdx_iff_getElem?.mpr hGet
      rcases hAll _ hMem with ((hNe | hApart) | hLt) | hEq
      · exact absurd hSize' hNe
      · exact absurd hApart hNear
      · exact ⟨hLt.le, fun h => absurd h hLt.ne⟩
      · exact ⟨hEq.1.le, fun _ => hEq.2⟩

/- The length that the lowest bits of a word announce. -/
def announcedSize
    (w : BitVec 32) : BitVec 8 :=
  if w &&& 0x3 = 0x3 then 4 else 2

theorem rightLength_iff
    (w : BitVec 32)
    (i : Instruction) :
    RightLength w i ↔ i.size = announcedSize w := by
  unfold RightLength announcedSize
  split <;> rfl

/- The length is a matter of the row. -/
theorem announcedSize_row
    {mask fixed w : BitVec 32}
    (hRow : w &&& mask = fixed)
    (hMask : mask &&& 0x3 = 0x3) :
    announcedSize w = announcedSize fixed := by
  unfold announcedSize
  rw [← hRow, BitVec.and_assoc, hMask]

/- No instruction is selected for the words of a gap. -/
theorem bestMatch_gap
    {mask fixed w : BitVec 32}
    (hGap : rowIsGap (announcedSize w) mask fixed)
    (hRow : w &&& mask = fixed) :
    bestMatch w = none := by
  have hSpec := bestMatch_spec w
  cases hBest : bestMatch w with
  | none => rfl
  | some i =>
      rw [hBest] at hSpec
      cases hSpec with
      | entry hAt =>
          have hSize := (rightLength_iff w i).mp hAt.holds.1
          have hApart := hGap i
            (List.mem_of_getElem? hAt.get) hSize
          exact absurd hAt.holds.2 (hApart.not_matches hRow)

/- The instruction that the words of a row select. -/
theorem bestMatch_row
    {mask fixed w : BitVec 32}
    {k : Nat}
    (hTakes : rowTakes (announcedSize w) mask fixed k)
    (hRow : w &&& mask = fixed) :
    bestMatch w = allInstrs[k]? := by
  rcases hTakes with ⟨i, hGet, hSize, hMask, hFixed, hBest⟩
  have hMatch : Matches w i := by
    unfold Matches
    rw [← hFixed, ← hRow, BitVec.and_assoc,
      BitVec.and_comm mask, hMask]
  have hAt : MostSpecificAt allInstrs
      (fun i => RightLength w i ∧ Matches w i) i k := by
    refine ⟨hGet, ⟨(rightLength_iff w i).mpr hSize, hMatch⟩,
      ?_⟩
    intro j i' hGet' hHolds
    apply hBest j i' hGet'
    · exact (rightLength_iff w i').mp hHolds.1
    · intro hApart
      exact hApart.not_matches hRow hHolds.2
  rw [hGet]
  exact (bestMatch_spec w).unique (.entry hAt)

/- A row of half-words is a row of words. -/
theorem row_setWidth
    {w : BitVec 32}
    {mask fixed : BitVec 16}
    (h : w.setWidth 16 &&& mask = fixed) :
    w &&& mask.setWidth 32 = fixed.setWidth 32 := by
  rw [← h]
  apply BitVec.eq_of_getLsbD_eq
  intro j hj
  simp only [BitVec.getLsbD_and, BitVec.getLsbD_setWidth]
  by_cases hLow : j < 16
  · simp [hLow, hj]
  · simp [BitVec.getLsbD_of_ge mask j (by omega)]

/- A row with one bit more that is set. -/
theorem row_or_bit
    {h mask fixed : BitVec 16}
    {j : Nat}
    (hRow : h &&& mask = fixed)
    (hBit : h.getLsbD j = true) :
    h &&& (mask ||| 1#16 <<< j) = fixed ||| 1#16 <<< j := by
  rw [← hRow]
  apply BitVec.eq_of_getLsbD_eq
  intro i hi
  simp only [BitVec.getLsbD_and, BitVec.getLsbD_or,
    BitVec.getLsbD_shiftLeft, BitVec.getLsbD_one]
  by_cases hAt : i = j
  · rw [hAt, hBit]
    simp
  · by_cases hLt : i < j
    · simp [hLt]
    · simp [show ¬ i - j = 0 by omega]

/- What the decoder does with a word that it accepts. -/
structure DecodesTo
    (w : BitVec 32)
    (op : Op)
    (imm : BitVec 32 → BitVec 64)
    (i : Instruction) : Prop where
  best : bestMatch w = some i
  func : i.func = op
  immDecode : i.immDecodeFunc = imm

/- Entry `k` of the table decodes the words of the row. -/
theorem decodesTo_row
    {mask fixed w : BitVec 32}
    {op : Op}
    {imm : BitVec 32 → BitVec 64}
    (k : Nat)
    (hRow : w &&& mask = fixed)
    (hTable : mask &&& 0x3 = 0x3 ∧
      rowTakesB (announcedSize fixed) mask fixed k = true ∧
      (allInstrs[k]?).map (·.func) = some op)
    (hImm : (allInstrs[k]?).map (·.immDecodeFunc) =
      some imm) :
    ∃ i, DecodesTo w op imm i := by
  rcases hTable with ⟨hMask, hTakes, hFunc⟩
  have hBest : bestMatch w = allInstrs[k]? := by
    refine bestMatch_row ?_ hRow
    rw [announcedSize_row hRow hMask]
    exact rowTakes_of_rowTakesB hTakes
  rcases Option.map_eq_some_iff.mp hFunc with
    ⟨i, hAt, hFunc⟩
  rw [hAt] at hBest hImm
  exact ⟨i, hBest, hFunc, Option.some.inj hImm⟩

end RiscvEm
