import RiscvEm.Decode.Lut
import Mathlib.Data.List.Pairwise

/-
  The decoder: the lookup of a word in the tables and the
  two-way cache in front of it.

  Key definitions include:
    * `decodeEntry`
    * `decodeInstSlow`
    * `decodeInst`
    * `initDecoder`

  Key theorems include `table_decode_eq_spec`.
-/

------------------------------------------------------------
-- Cache Entries
------------------------------------------------------------

namespace RiscvEm

structure InstructionCache where
  pc : BitVec 64
  instRaw : BitVec 32
  inst : Option Instruction
  data : InstructionData
  valid : Bool

/- Two ways, and the way that the next miss replaces. -/
structure CacheSet where
  ways : Fin 2 → InstructionCache
  victim : Fin 2

/- `CacheSet cache[CACHE_SIZE]` with `CACHE_SIZE = 65536`. -/
abbrev DecodeCache := BitVec 16 → CacheSet

def InstructionCache.zero : InstructionCache :=
  { pc := 0
    instRaw := 0
    inst := none
    data := ⟨0, 0, 0, 0, 0, 0, 0⟩
    valid := false }

/- The cache of a new decoder, zeroed by `new`. -/
def DecodeCache.init : DecodeCache :=
  fun _ => ⟨fun _ => .zero, 0⟩

/- `(pc >> 2) & (CACHE_SIZE - 1)`. -/
def cacheIndex
    (pc : BitVec 64) : BitVec 16 :=
  (pc >>> 2).setWidth 16

end RiscvEm

------------------------------------------------------------
-- Decoding A Word
------------------------------------------------------------

namespace RiscvEm

/-
  The pointer found for a word: a word that is not 32 bits
  long is looked up in `lut16` first.
-/
def Luts.lookup
    (luts : Luts)
    (inst : BitVec 32) : Option Instruction :=
  let dinst :=
    if inst &&& 0x3 ≠ 0x3 then
      luts.lut16 (pextU32 (inst &&& 0xFFFF) HASH_MASK_16)
    else
      none
  match dinst with
  | some d => some d
  | none => luts.lut (pextU32 inst HASH_MASK)

/- The operand fields of a word, with the given immediate. -/
def operandData
    (inst : BitVec 32)
    (imm : BitVec 64) : InstructionData :=
  { inst := inst
    rs1 := dRs1 inst
    rs2 := dRs2 inst
    rd := dRd inst
    imm := imm
    rs3 := dRs3 inst
    rm := dRm inst }

/- The entry of a word that no instruction matches. -/
def invalidEntry
    (pc : BitVec 64)
    (inst : BitVec 32) : InstructionCache :=
  ⟨pc, inst, none, operandData inst 0, false⟩

/- The entry that `decode_inst_slow` fills in. -/
def decodeEntry
    (luts : Luts)
    (pc : BitVec 64)
    (inst : BitVec 32) : InstructionCache :=
  match luts.lookup inst with
  | some dinst =>
      if inst &&& dinst.mask = dinst.matchBits then
        ⟨pc, inst, some dinst,
          operandData inst (dinst.immDecodeFunc inst), true⟩
      else
        invalidEntry pc inst
  | none => invalidEntry pc inst

/- Decode, and replace the victim of the set. -/
def decodeInstSlow
    (luts : Luts)
    (cache : DecodeCache)
    (pc : BitVec 64)
    (inst : BitVec 32) :
    InstructionCache × DecodeCache :=
  let idx := cacheIndex pc
  let set := cache idx
  let entry := decodeEntry luts pc inst
  (entry,
    Function.update cache idx
      { ways := Function.update set.ways set.victim entry
        victim := set.victim + 1 })

/- The way holds a valid entry of this `pc` and word. -/
def InstructionCache.hits
    (way : InstructionCache)
    (pc : BitVec 64)
    (inst : BitVec 32) : Bool :=
  way.valid && way.pc == pc && way.instRaw == inst

def decodeInst
    (luts : Luts)
    (cache : DecodeCache)
    (pc : BitVec 64)
    (inst : BitVec 32) :
    InstructionCache × DecodeCache :=
  let set := cache (cacheIndex pc)
  if (set.ways 0).hits pc inst then
    (set.ways 0, cache)
  else if (set.ways 1).hits pc inst then
    (set.ways 1, cache)
  else
    decodeInstSlow luts cache pc inst

/- The same with the entry that a miss fills in. -/
def decodeInstWith
    (entry : InstructionCache)
    (cache : DecodeCache)
    (pc : BitVec 64)
    (inst : BitVec 32) :
    InstructionCache × DecodeCache :=
  let set := cache (cacheIndex pc)
  if (set.ways 0).hits pc inst then
    (set.ways 0, cache)
  else if (set.ways 1).hits pc inst then
    (set.ways 1, cache)
  else
    (entry,
      Function.update cache (cacheIndex pc)
        { ways := Function.update set.ways set.victim entry
          victim := set.victim + 1 })

theorem decodeInst_eq_decodeInstWith
    (luts : Luts)
    (cache : DecodeCache)
    (pc : BitVec 64)
    (inst : BitVec 32) :
    decodeInst luts cache pc inst =
      decodeInstWith (decodeEntry luts pc inst) cache pc
        inst :=
  rfl

/- The loop of `exec_FENCE_I` over all sets. -/
def DecodeCache.flush
    (cache : DecodeCache) : DecodeCache :=
  fun i =>
    { ways := fun k => { (cache i).ways k with valid := false }
      victim := 0 }

end RiscvEm

------------------------------------------------------------
-- The Decoder Of The Machine
------------------------------------------------------------

namespace RiscvEm

/-
  `init_all_instrs`: register every set, fill the tables;
  `none` when an assertion fails or a loop does not end.
-/
def initDecoder : Option Luts :=
  initAllInstrs.toOption.bind buildLut

/- The tables of an initialised decoder. -/
def decoder : Luts :=
  initDecoder.getD ⟨fun _ => none, fun _ => none⟩

theorem initDecoder_eq_buildLut :
    initDecoder = buildLut allInstrs := by
  rw [initDecoder, initAllInstrs_eq, Except.toOption,
    Option.bind_some]

theorem decoder_spec :
    initDecoder = some decoder ∧
      decoder.Correct allInstrs := by
  obtain ⟨luts, hBuild, hCorrect⟩ := buildLut_spec allInstrs
  have hInit : initDecoder = some luts := by
    rw [initDecoder_eq_buildLut, hBuild]
  have hDecoder : decoder = luts := by
    rw [decoder, hInit, Option.getD_some]
  rw [hDecoder]
  exact ⟨hInit, hCorrect⟩

attribute [irreducible] decoder

end RiscvEm

------------------------------------------------------------
-- No Instruction Shadows Another
------------------------------------------------------------

namespace RiscvEm

/- The word matches all fixed bits of the instruction. -/
def Matches
    (w : BitVec 32)
    (inst : Instruction) : Prop :=
  w &&& inst.mask = inst.matchBits

/- Words that end in `11` are 32 bits long, others 16. -/
def RightLength
    (w : BitVec 32)
    (inst : Instruction) : Prop :=
  if w &&& 0x3 = 0x3 then inst.size = 4 else inst.size = 2

/-
  What decides the slots of an instruction: its hashed mask,
  its matched bits, and whether it is a 16-bit one.
-/
def hashKey
    (i : Instruction) : Nat × Nat × Bool :=
  (i.mask.toNat &&& 0xFFF0707F, i.matchBits.toNat,
    i.size == 2)

/- Two 32-bit instructions differ in a fixed hashed bit. -/
def keysDiffer
    (a b : Nat × Nat × Bool) : Bool :=
  !(Nat.beq ((a.2.1 ^^^ b.2.1) &&& (a.1 &&& b.1)) 0) ||
    a.2.2 || b.2.2

/- The relation holds between every two elements. -/
def allPairs
    {α : Type}
    (r : α → α → Bool) : List α → Bool
  | [] => true
  | x :: xs => xs.all (r x) && allPairs r xs

theorem pairwise_of_allPairs
    {α : Type}
    {r : α → α → Bool}
    (xs : List α)
    (hAll : allPairs r xs = true) :
    xs.Pairwise (fun a b => r a b = true) := by
  induction xs with
  | nil => exact List.Pairwise.nil
  | cons x xs ih =>
      rw [allPairs, Bool.and_eq_true, List.all_eq_true] at hAll
      exact List.pairwise_cons.mpr ⟨hAll.1, ih hAll.2⟩

/- Different 32-bit instructions fall into different slots. -/
theorem allPairs_hashKey :
    allPairs keysDiffer (allInstrs.map hashKey) = true := by
  decide +kernel

/- The length of an instruction shows in its lowest bits. -/
theorem allInstrs_length :
    ∀ i ∈ allInstrs,
      (i.size = 2 ∧ i.mask &&& 0xFFFF0003 = 0x3 ∧
          i.matchBits &&& 0x3 ≠ 0x3) ∨
        (i.size = 4 ∧ i.mask &&& 0x3 = 0x3 ∧
          i.matchBits &&& 0x3 = 0x3) := by
  decide +kernel

/- Two instructions that agree with one word do not differ. -/
theorem keysDiffer_eq_false
    {w : BitVec 32}
    {i j : Instruction}
    (hi : Candidate32 w i)
    (hj : Candidate32 w j) :
    keysDiffer (hashKey i) (hashKey j) = false := by
  have hZero : (i.matchBits ^^^ j.matchBits) &&&
      ((i.mask &&& HASH_MASK) &&& (j.mask &&& HASH_MASK)) =
        0 := by
    apply BitVec.eq_of_getLsbD_eq
    intro k hk
    have hiBit := congrArg (fun v => v.getLsbD k) hi.2
    have hjBit := congrArg (fun v => v.getLsbD k) hj.2
    simp only [BitVec.getLsbD_and] at hiBit hjBit
    simp only [BitVec.getLsbD_and, BitVec.getLsbD_xor,
      BitVec.ofNat_eq_ofNat, BitVec.getLsbD_zero]
    grind
  have hNat : (i.matchBits.toNat ^^^ j.matchBits.toNat) &&&
      ((i.mask.toNat &&& 0xFFF0707F) &&&
        (j.mask.toNat &&& 0xFFF0707F)) = 0 := by
    have hToNat := congrArg BitVec.toNat hZero
    simpa [BitVec.toNat_and, BitVec.toNat_xor,
      HASH_MASK] using hToNat
  have hSizes : (i.size == 2) = false ∧
      (j.size == 2) = false :=
    ⟨beq_eq_false_iff_ne.mpr hi.1,
      beq_eq_false_iff_ne.mpr hj.1⟩
  rw [keysDiffer, hashKey, hashKey, hNat, hSizes.1, hSizes.2]
  rfl

/- At most one 32-bit instruction is entered for a word. -/
theorem candidate32_unique
    {w : BitVec 32}
    {k j : Nat}
    {i i' : Instruction}
    (hk : allInstrs[k]? = some i)
    (hj : allInstrs[j]? = some i')
    (hi : Candidate32 w i)
    (hi' : Candidate32 w i') :
    k = j := by
  obtain ⟨hkLt, rfl⟩ := List.getElem?_eq_some_iff.mp hk
  obtain ⟨hjLt, rfl⟩ := List.getElem?_eq_some_iff.mp hj
  have hPair := List.pairwise_iff_getElem.mp
    (List.pairwise_map.mp
      (pairwise_of_allPairs _ allPairs_hashKey))
  have hNot : ∀ a b : Instruction,
      Candidate32 w a → Candidate32 w b →
      ¬ keysDiffer (hashKey a) (hashKey b) = true := by
    intro a b ha hb
    rw [keysDiffer_eq_false ha hb]
    exact Bool.false_ne_true
  rcases Nat.lt_trichotomy k j with hLt | hEq | hGt
  · exact absurd (hPair k j hkLt hjLt hLt) (hNot _ _ hi hi')
  · exact hEq
  · exact absurd (hPair j k hjLt hkLt hGt) (hNot _ _ hi' hi)

end RiscvEm

------------------------------------------------------------
-- The Table Decodes As The Masks Say
------------------------------------------------------------

namespace RiscvEm

theorem MostSpecificAt.congr
    {instrs : List Instruction}
    {p q : Instruction → Prop}
    {inst : Instruction}
    {k : Nat}
    (hAt : MostSpecificAt instrs p inst k)
    (hIff : ∀ i ∈ instrs, p i ↔ q i) :
    MostSpecificAt instrs q inst k := by
  refine ⟨hAt.get, ?_, ?_⟩
  · exact (hIff _ (List.mem_of_getElem? hAt.get)).mp hAt.holds
  · intro j i hj hi
    exact hAt.best j i hj
      ((hIff _ (List.mem_of_getElem? hj)).mpr hi)

/- A full match agrees on the hashed bits. -/
theorem Matches.hashAgrees
    {w hash : BitVec 32}
    {i : Instruction}
    (hi : Matches w i) :
    HashAgrees hash w i := by
  rw [HashAgrees, ← BitVec.and_assoc, hi]

/- In the 16-bit table the hashed bits are all bits. -/
theorem candidate16_iff
    {w : BitVec 32}
    {i : Instruction}
    (hMem : i ∈ allInstrs)
    (hw : w &&& 0x3 ≠ 0x3) :
    Candidate16 w i ↔ RightLength w i ∧ Matches w i := by
  rw [RightLength, if_neg hw]
  constructor
  · rintro ⟨hSize, hAgrees⟩
    refine ⟨hSize, ?_⟩
    rcases allInstrs_length i hMem with hLen | hLen
    · have hMask : i.mask &&& HASH_MASK_16 = i.mask := by
        have hHigh : i.mask &&& 0xFFFF0000 = 0 := by
          have hAnd := congrArg (· &&& 0xFFFF0000#32) hLen.2.1
          simpa [BitVec.and_assoc] using hAnd
        have hSplit : i.mask = (i.mask &&& 0x0000FFFF) |||
            (i.mask &&& 0xFFFF0000) := by
          rw [← BitVec.and_or_distrib_left]
          exact BitVec.and_allOnes.symm
        rw [hHigh] at hSplit
        simpa [HASH_MASK_16] using hSplit.symm
      have hMatch : i.matchBits &&& HASH_MASK_16 =
          i.matchBits := by
        rw [← i.matchBits_and_mask, BitVec.and_assoc, hMask]
      rw [HashAgrees, hMask, hMatch] at hAgrees
      exact hAgrees
    · rw [hLen.1] at hSize
      exact absurd hSize (by decide)
  · rintro ⟨hSize, hMatch⟩
    exact ⟨hSize, hMatch.hashAgrees⟩

/- A 32-bit instruction matches only words ending in `11`. -/
theorem low_bits_of_matches
    {w : BitVec 32}
    {i : Instruction}
    (hMem : i ∈ allInstrs)
    (hSize : i.size ≠ 2)
    (hMatch : Matches w i) :
    w &&& 0x3 = 0x3 := by
  rcases allInstrs_length i hMem with hLen | hLen
  · exact absurd hLen.1 hSize
  · calc w &&& 0x3
        = w &&& (i.mask &&& 0x3) := by rw [hLen.2.1]
      _ = i.matchBits &&& 0x3 := by
          rw [← BitVec.and_assoc, hMatch]
      _ = 0x3 := hLen.2.2

/- The pointer that the decoder uses, null when invalid. -/
def InstructionCache.selected
    (entry : InstructionCache) : Option Instruction :=
  if entry.valid then entry.inst else none

theorem selected_of_lookup
    {luts : Luts}
    {w : BitVec 32}
    {d : Instruction}
    (hLookup : luts.lookup w = some d)
    (hMatch : Matches w d)
    (pc : BitVec 64) :
    (decodeEntry luts pc w).selected = some d := by
  have hEq : w &&& d.mask = d.matchBits := hMatch
  rw [decodeEntry, hLookup]
  simp only [InstructionCache.selected, if_pos hEq, if_true]

theorem selected_eq_none
    {luts : Luts}
    {w : BitVec 32}
    (hNone : ∀ d, luts.lookup w = some d → ¬ Matches w d)
    (pc : BitVec 64) :
    (decodeEntry luts pc w).selected = none := by
  rw [decodeEntry]
  cases hLookup : luts.lookup w with
  | none => rfl
  | some d =>
      have hNe : ¬ w &&& d.mask = d.matchBits :=
        hNone d hLookup
      simp only [InstructionCache.selected, if_neg hNe,
        invalidEntry, Bool.false_eq_true, if_false]

theorem valid_eq_isSome_selected
    (luts : Luts)
    (pc : BitVec 64)
    (w : BitVec 32) :
    (decodeEntry luts pc w).valid =
      (decodeEntry luts pc w).selected.isSome := by
  rw [decodeEntry]
  cases luts.lookup w with
  | none => rfl
  | some d =>
      by_cases hMatch : w &&& d.mask = d.matchBits
      · simp [hMatch, InstructionCache.selected]
      · simp [hMatch, InstructionCache.selected,
          invalidEntry]

theorem lookup_of_lut16
    {luts : Luts}
    {w : BitVec 32}
    {d : Instruction}
    (hw : w &&& 0x3 ≠ 0x3)
    (hSlot : luts.lut16 (pextU32 w HASH_MASK_16) = some d) :
    luts.lookup w = some d := by
  have hLow : pextU32 (w &&& 0xFFFF) HASH_MASK_16 =
      pextU32 w HASH_MASK_16 := by
    rw [pextU32, BitVec.toNat_and]
    exact Bits.pext_and 32 w.toNat HASH_MASK_16.toNat
  rw [Luts.lookup, if_pos hw, hLow, hSlot]

theorem lookup_of_lut16_null
    {luts : Luts}
    {w : BitVec 32}
    (hSlot : w &&& 0x3 = 0x3 ∨
      luts.lut16 (pextU32 w HASH_MASK_16) = none) :
    luts.lookup w = luts.lut (pextU32 w HASH_MASK) := by
  have hLow : pextU32 (w &&& 0xFFFF) HASH_MASK_16 =
      pextU32 w HASH_MASK_16 := by
    rw [pextU32, BitVec.toNat_and]
    exact Bits.pext_and 32 w.toNat HASH_MASK_16.toNat
  by_cases hw : w &&& 0x3 = 0x3
  · rw [Luts.lookup, if_neg (not_not_intro hw)]
  · have hNull := hSlot.resolve_left hw
    rw [Luts.lookup, if_pos hw, hLow, hNull]

/- Decoding a word whose low bits are not `11`. -/
theorem selected_short
    {w : BitVec 32}
    (hw : w &&& 0x3 ≠ 0x3)
    (pc : BitVec 64) :
    FirstMostSpecific allInstrs
      (fun i => RightLength w i ∧ Matches w i)
      (decodeEntry decoder pc w).selected := by
  have hTable := decoder_spec.2.lut16 w
  cases hSlot : decoder.lut16 (pextU32 w HASH_MASK_16) with
  | some d =>
      have hLookup : decoder.lookup w = some d :=
        lookup_of_lut16 hw hSlot
      rw [hSlot] at hTable
      cases hTable with
      | entry hAt =>
          have hAt' := hAt.congr
            (fun i hi => candidate16_iff (w := w) hi hw)
          rw [selected_of_lookup hLookup hAt'.holds.2]
          exact .entry hAt'
  | none =>
      have hLookup : decoder.lookup w =
          decoder.lut (pextU32 w HASH_MASK) :=
        lookup_of_lut16_null (Or.inr hSlot)
      have hNone : ∀ d, decoder.lookup w = some d →
          ¬ Matches w d := by
        intro d hd hMatch
        have hTable32 := decoder_spec.2.lut w
        rw [← hLookup, hd] at hTable32
        cases hTable32 with
        | entry hAt =>
            exact hw (low_bits_of_matches
              (List.mem_of_getElem? hAt.get)
              hAt.holds.1 hMatch)
      rw [selected_eq_none hNone]
      rw [hSlot] at hTable
      cases hTable with
      | null hEmpty =>
          refine .null ?_
          intro i hMem hi
          exact hEmpty i hMem
            ((candidate16_iff hMem hw).mpr hi)

/- Decoding a word whose low bits are `11`. -/
theorem selected_long
    {w : BitVec 32}
    (hw : w &&& 0x3 = 0x3)
    (pc : BitVec 64) :
    FirstMostSpecific allInstrs
      (fun i => RightLength w i ∧ Matches w i)
      (decodeEntry decoder pc w).selected := by
  have hCandidate : ∀ i, RightLength w i ∧ Matches w i →
      Candidate32 w i := by
    rintro i ⟨hLen, hMatch⟩
    rw [RightLength, if_pos hw] at hLen
    refine ⟨?_, hMatch.hashAgrees⟩
    rw [hLen]
    decide
  have hTable := decoder_spec.2.lut w
  have hLookup : decoder.lookup w =
      decoder.lut (pextU32 w HASH_MASK) :=
    lookup_of_lut16_null (Or.inl hw)
  rw [← hLookup] at hTable
  cases hSlot : decoder.lookup w with
  | none =>
      rw [hSlot] at hTable
      have hNone : ∀ d, decoder.lookup w = some d →
          ¬ Matches w d := by
        intro d hd
        rw [hSlot] at hd
        cases hd
      rw [selected_eq_none hNone]
      cases hTable with
      | null hEmpty =>
          refine .null ?_
          intro i hMem hi
          exact hEmpty i hMem (hCandidate i hi)
  | some d =>
      rw [hSlot] at hTable
      cases hTable with
      | @entry _ k hAt =>
      -- every match sits at the position of the entry
      have hOnly : ∀ (j : Nat) (i : Instruction),
          allInstrs[j]? = some i →
          RightLength w i ∧ Matches w i → j = k ∧ i = d := by
        intro j i hj hi
        have hjk : j = k := candidate32_unique hj hAt.get
          (hCandidate i hi) hAt.holds
        subst hjk
        exact ⟨rfl, Option.some.inj (hj.symm.trans hAt.get)⟩
      by_cases hMatch : Matches w d
      · rw [selected_of_lookup hSlot hMatch]
        have hMem := List.mem_of_getElem? hAt.get
        have hSize : d.size = 4 := by
          rcases allInstrs_length d hMem with hLen | hLen
          · exact absurd hLen.1 hAt.holds.1
          · exact hLen.1
        refine .entry (k := k) ⟨hAt.get, ⟨?_, hMatch⟩, ?_⟩
        · rw [RightLength, if_pos hw]
          exact hSize
        · intro j i hj hi
          obtain ⟨rfl, rfl⟩ := hOnly j i hj hi
          exact ⟨Nat.le_refl _, fun _ => Nat.le_refl _⟩
      · have hNone : ∀ d', decoder.lookup w = some d' →
            ¬ Matches w d' := by
          intro d' hd'
          rw [hSlot] at hd'
          cases hd'
          exact hMatch
        rw [selected_eq_none hNone]
        refine .null ?_
        intro i hMem hi
        obtain ⟨j, hj⟩ := List.getElem?_of_mem hMem
        obtain ⟨rfl, rfl⟩ := hOnly j i hj hi
        exact hMatch hi.2

/- The selected instruction is the most specific match. -/
theorem selected_spec
    (pc : BitVec 64)
    (w : BitVec 32) :
    FirstMostSpecific allInstrs
      (fun i => RightLength w i ∧ Matches w i)
      (decodeEntry decoder pc w).selected := by
  by_cases hw : w &&& 0x3 = 0x3
  · exact selected_long hw pc
  · exact selected_short hw pc

/-
  Whatever is registered, both tables are built and hold at
  the index of a word the first most specific instruction
  that agrees with it; and with the instructions of the
  emulator a word decodes exactly when an instruction of the
  right length matches it, to the most specific one.
-/
theorem table_decode_eq_spec :
    (∀ instrs : List Instruction,
      ∃ luts : Luts, buildLut instrs = some luts ∧
        ∀ w : BitVec 32,
          FirstMostSpecific instrs (Candidate32 w)
              (luts.lut (pextU32 w HASH_MASK)) ∧
            FirstMostSpecific instrs (Candidate16 w)
              (luts.lut16 (pextU32 w HASH_MASK_16))) ∧
      initAllInstrs = .ok allInstrs ∧
      ∃ luts : Luts, initDecoder = some luts ∧
        ∀ (cache : DecodeCache) (pc : BitVec 64)
            (w : BitVec 32),
          let entry := (decodeInstSlow luts cache pc w).1
          (entry.valid = true ↔
            ∃ i ∈ allInstrs,
              RightLength w i ∧ Matches w i) ∧
            (entry.valid = true →
              ∃ i k, entry.inst = some i ∧
                MostSpecificAt allInstrs
                  (fun i => RightLength w i ∧ Matches w i)
                  i k) := by
  refine ⟨?_, initAllInstrs_eq, decoder, decoder_spec.1, ?_⟩
  · intro instrs
    obtain ⟨luts, hBuild, hCorrect⟩ := buildLut_spec instrs
    exact ⟨luts, hBuild,
      fun w => ⟨hCorrect.lut w, hCorrect.lut16 w⟩⟩
  · intro cache pc w
    show ((decodeEntry decoder pc w).valid = true ↔ _) ∧
      ((decodeEntry decoder pc w).valid = true → _)
    have hSpec := selected_spec pc w
    have hValid := valid_eq_isSome_selected decoder pc w
    cases hSel : (decodeEntry decoder pc w).selected with
    | none =>
        rw [hSel] at hSpec hValid
        cases hSpec with
        | null hEmpty =>
            have hFalse :
                (decodeEntry decoder pc w).valid ≠ true := by
              rw [hValid]
              exact Bool.false_ne_true
            refine ⟨⟨fun h => absurd h hFalse, ?_⟩,
              fun h => absurd h hFalse⟩
            rintro ⟨i, hMem, hi⟩
            exact absurd hi (hEmpty i hMem)
    | some i =>
        rw [hSel] at hSpec hValid
        cases hSpec with
        | @entry _ k hAt =>
            have hTrue :
                (decodeEntry decoder pc w).valid = true := by
              rw [hValid, Option.isSome_some]
            have hInst : (decodeEntry decoder pc w).inst =
                some i := by
              rw [InstructionCache.selected,
                if_pos hTrue] at hSel
              exact hSel
            refine ⟨⟨fun _ => ?_, fun _ => hTrue⟩,
              fun _ => ⟨i, k, hInst, hAt⟩⟩
            exact ⟨i, List.mem_of_getElem? hAt.get, hAt.holds⟩

end RiscvEm
