import RiscvEm.Machine.Loader
import RiscvEm.Memory.Accessors

/-
  The tables of an ELF file as they stand in the buffer, and
  which reads of them stay in it.

  Key definitions include:
    * `headerAt`
    * `programHeaders`
    * `TableFits`

  Key theorems include:
    * `inBounds_readElfHeader_iff`
    * `inBounds_readProgramHeaders_iff`
-/

------------------------------------------------------------
-- Parts Of A Buffer
------------------------------------------------------------

namespace RiscvEm

open ByteCodec

variable {buf : List Byte}
variable {off n : Nat}

/- A slice inside of the buffer is read. -/
theorem bufferBytes_eq
    (h : n = 0 ∨ off + n ≤ buf.length) :
    bufferBytes buf off n = .ok ((buf.drop off).take n) := by
  unfold bufferBytes
  by_cases hZero : n = 0
  · rw [if_pos hZero, hZero, List.take_zero]
  · rw [if_neg hZero, if_pos (h.resolve_left hZero)]

/- A slice that reaches outside is a fault. -/
theorem bufferBytes_outside
    (h : ¬ (n = 0 ∨ off + n ≤ buf.length)) :
    bufferBytes buf off n = .error .outOfBounds := by
  rcases not_or.mp h with ⟨hZero, hFit⟩
  unfold bufferBytes
  rw [if_neg hZero, if_neg hFit]

/- A slice is read exactly if it is empty or inside. -/
theorem inBounds_bufferBytes_iff :
    InBounds (bufferBytes buf off n) ↔
      n = 0 ∨ off + n ≤ buf.length := by
  by_cases h : n = 0 ∨ off + n ≤ buf.length
  · rw [bufferBytes_eq h]
    exact iff_of_true (inBounds_ok _) h
  · rw [bufferBytes_outside h, inBounds_error_iff]
    exact iff_of_false (fun hNe => hNe rfl) h

/- A structure of a size that is not zero. -/
theorem inBounds_struct_iff
    (hPos : n ≠ 0) :
    InBounds (bufferBytes buf off n) ↔
      off + n ≤ buf.length := by
  rw [inBounds_bufferBytes_iff]
  exact or_iff_right hPos

/- What is read are the bytes of the slice. -/
theorem bufferBytes_eq_ok_iff
    {bs : List Byte} :
    bufferBytes buf off n = .ok bs ↔
      (n = 0 ∨ off + n ≤ buf.length) ∧
        bs = (buf.drop off).take n := by
  by_cases h : n = 0 ∨ off + n ≤ buf.length
  · rw [bufferBytes_eq h, and_iff_right h, Except.ok.injEq]
    exact eq_comm
  · rw [bufferBytes_outside h]
    exact iff_of_false nofun (fun hYes => h hYes.1)

/- A slice has the length that was asked for. -/
theorem length_take_drop
    (h : n = 0 ∨ off + n ≤ buf.length) :
    ((buf.drop off).take n).length = n := by
  rw [List.length_take, List.length_drop]
  omega

end RiscvEm

------------------------------------------------------------
-- Headers
------------------------------------------------------------

namespace RiscvEm

open ByteCodec

/- The header at an offset of the buffer. -/
def headerAt
    (buf : List Byte)
    (off : Nat) : ElfHeader :=
  let bs := (buf.drop off).take 64
  { magic := (field bs 0 4).setWidth 32
    eClass := (field bs 4 1).setWidth 8
    eMachine := (field bs 18 2).setWidth 16
    eEntry := field bs 24 8
    ePhoff := field bs 32 8
    eShoff := field bs 40 8
    ePhnum := (field bs 56 2).setWidth 16
    eShnum := (field bs 60 2).setWidth 16 }

def programHeaderAt
    (buf : List Byte)
    (off : Nat) : ElfProgramHeader :=
  let bs := (buf.drop off).take 56
  { pType := (field bs 0 4).setWidth 32
    pOffset := field bs 8 8
    pVaddr := field bs 16 8
    pPaddr := field bs 24 8
    pFilesz := field bs 32 8
    pMemsz := field bs 40 8 }

/- The entries of the table that starts at an offset. -/
def programHeaders
    (buf : List Byte) :
    Nat → BitVec 64 → List ElfProgramHeader
  | 0, _ => []
  | n + 1, offset =>
      programHeaderAt buf offset.toNat ::
        programHeaders buf n (offset + 56)

/- `n` entries of a size, one behind the other, are there. -/
def TableFits
    (buf : List Byte)
    (size n : Nat)
    (offset : BitVec 64) : Prop :=
  ∀ i < n, (offset + BitVec.ofNat 64 (size * i)).toNat +
    size ≤ buf.length

instance instDecidableTableFits
    (buf : List Byte)
    (size n : Nat)
    (offset : BitVec 64) :
    Decidable (TableFits buf size n offset) :=
  inferInstanceAs (Decidable (∀ i < n, _ ≤ _))

variable {buf : List Byte}
variable {n size : Nat}
variable {offset : BitVec 64}

/-
  A table fits if its first entry does and the rest behind
  it.
-/
theorem tableFits_succ_iff :
    TableFits buf size (n + 1) offset ↔
      offset.toNat + size ≤ buf.length ∧
        TableFits buf size n
          (offset + BitVec.ofNat 64 size) := by
  have hStep : ∀ i, offset + BitVec.ofNat 64 size +
      BitVec.ofNat 64 (size * i) =
        offset + BitVec.ofNat 64 (size * (i + 1)) := by
    intro i
    rw [BitVec.add_assoc, ← BitVec.ofNat_add,
      Nat.mul_succ, Nat.add_comm size]
  have hZero : offset + BitVec.ofNat 64 (size * 0) =
      offset := by
    rw [Nat.mul_zero]
    exact BitVec.add_zero offset
  constructor
  · intro h
    refine ⟨?_, ?_⟩
    · have hFirst := h 0 (Nat.succ_pos n)
      rw [hZero] at hFirst
      exact hFirst
    · intro i hi
      rw [hStep]
      exact h (i + 1) (Nat.succ_lt_succ hi)
  · rintro ⟨hFirst, hRest⟩ i hi
    cases i with
    | zero =>
        rw [hZero]
        exact hFirst
    | succ i =>
        rw [← hStep]
        exact hRest i (Nat.lt_of_succ_lt_succ hi)

/- A header inside of the file is read. -/
theorem readElfHeader_eq
    (h : offset.toNat + 64 ≤ buf.length) :
    readElfHeader buf offset =
      .ok (headerAt buf offset.toNat) := by
  unfold readElfHeader
  rw [bufferBytes_eq (Or.inr h)]
  rfl

/-
  The header is read exactly if the file has 64 bytes behind
  the offset.
-/
theorem inBounds_readElfHeader_iff :
    InBounds (readElfHeader buf offset) ↔
      offset.toNat + 64 ≤ buf.length := by
  refine inBounds_bind_iff.trans ?_
  rw [inBounds_struct_iff (by decide)]
  exact and_iff_left fun _ _ => inBounds_ok _

/- A table of program headers that fits is read. -/
theorem readProgramHeaders_eq
    (h : TableFits buf 56 n offset) :
    readProgramHeaders buf n offset =
      .ok (programHeaders buf n offset) := by
  induction n generalizing offset with
  | zero => rfl
  | succ n ih =>
      rcases tableFits_succ_iff.mp h with ⟨hFirst, hRest⟩
      unfold readProgramHeaders
      rw [bufferBytes_eq (Or.inr hFirst)]
      refine bind_eq_ok.mpr ⟨_, rfl, ?_⟩
      exact bind_eq_ok.mpr ⟨_, ih hRest, rfl⟩

/-
  The program headers are read in bounds exactly if they
  fit.
-/
theorem inBounds_readProgramHeaders_iff :
    InBounds (readProgramHeaders buf n offset) ↔
      TableFits buf 56 n offset := by
  induction n generalizing offset with
  | zero =>
      refine iff_of_true (inBounds_ok _) ?_
      intro i hi
      exact absurd hi (Nat.not_lt_zero i)
  | succ n ih =>
      rw [tableFits_succ_iff]
      refine inBounds_bind_iff.trans ?_
      rw [inBounds_struct_iff (by decide)]
      refine and_congr_right fun hFirst => ?_
      have hBytes := bufferBytes_eq (Or.inr hFirst)
      constructor
      · intro h
        exact ih.mp (inBounds_bind_iff.mp (h _ hBytes)).1
      · intro h bs _
        refine inBounds_bind_iff.mpr ⟨ih.mpr h, ?_⟩
        intro _ _
        exact inBounds_ok _

/- A table of section headers that fits is skipped. -/
theorem readSectionHeaders_eq
    (h : TableFits buf 64 n offset) :
    readSectionHeaders buf n offset = .ok () := by
  induction n generalizing offset with
  | zero => rfl
  | succ n ih =>
      rcases tableFits_succ_iff.mp h with ⟨hFirst, hRest⟩
      unfold readSectionHeaders
      rw [bufferBytes_eq (Or.inr hFirst)]
      exact bind_eq_ok.mpr ⟨_, rfl, ih hRest⟩

/-
  The section headers are read in bounds exactly if they
  fit.
-/
theorem inBounds_readSectionHeaders_iff :
    InBounds (readSectionHeaders buf n offset) ↔
      TableFits buf 64 n offset := by
  induction n generalizing offset with
  | zero =>
      refine iff_of_true (inBounds_ok _) ?_
      intro i hi
      exact absurd hi (Nat.not_lt_zero i)
  | succ n ih =>
      rw [tableFits_succ_iff]
      refine inBounds_bind_iff.trans ?_
      rw [inBounds_struct_iff (by decide)]
      refine and_congr_right fun hFirst => ?_
      have hBytes := bufferBytes_eq (Or.inr hFirst)
      constructor
      · intro h
        exact ih.mp (h _ hBytes)
      · intro h bs _
        exact ih.mpr h

end RiscvEm

------------------------------------------------------------
-- The Parser
------------------------------------------------------------

namespace RiscvEm

open ByteCodec

/- The parser refuses the file and touches nothing else. -/
def ElfHeader.Refused
    (header : ElfHeader)
    (locals : ElfLocals) : Prop :=
  header.magic ≠ ELF_MAGIC ∨
    (locals.v8 &&& ~~~0xFF) |||
      header.eClass.setWidth 32 = 1 ∨
    header.eMachine ≠ ELF_RISCV

instance instDecidableRefused
    (header : ElfHeader)
    (locals : ElfLocals) :
    Decidable (header.Refused locals) :=
  inferInstanceAs (Decidable (_ ∨ _ ∨ _))

/- The segments that the header announces. -/
def segmentsOf
    (buf : List Byte)
    (header : ElfHeader) : List ElfProgramHeader :=
  programHeaders buf header.ePhnum.toNat header.ePhoff

/- Both tables lie in the buffer. -/
def TablesFit
    (buf : List Byte)
    (header : ElfHeader) : Prop :=
  TableFits buf 56 header.ePhnum.toNat header.ePhoff ∧
    TableFits buf 64 header.eShnum.toNat header.eShoff

variable {m : MemoryMap}
variable {locals : ElfLocals}
variable {buf : List Byte}

/-
  A file with another header is refused before any segment.
-/
theorem parseElf_refused
    (hHeader : locals.offset.toNat + 64 ≤ buf.length)
    (hRefused : (headerAt buf locals.offset.toNat).Refused
      locals) :
    m.parseElf locals buf = .ok (none, m) := by
  unfold MemoryMap.parseElf
  rw [readElfHeader_eq hHeader]
  exact if_pos hRefused

/-
  An accepted file has its tables read, and then its
  segments.
-/
theorem parseElf_accepted
    (hHeader : locals.offset.toNat + 64 ≤ buf.length)
    (hGood : ¬ (headerAt buf locals.offset.toNat).Refused
      locals) :
    m.parseElf locals buf = (do
      let header := headerAt buf locals.offset.toNat
      let phs ← readProgramHeaders buf header.ePhnum.toNat
        header.ePhoff
      readSectionHeaders buf header.eShnum.toNat header.eShoff
      let m' ← m.loadSegments buf phs
      .ok (some header.eEntry, m')) := by
  unfold MemoryMap.parseElf
  rw [readElfHeader_eq hHeader]
  exact if_neg hGood

/- With tables that fit, only loading can go wrong. -/
theorem parseElf_eq
    (hHeader : locals.offset.toNat + 64 ≤ buf.length)
    (hGood : ¬ (headerAt buf locals.offset.toNat).Refused
      locals)
    (hTables : TablesFit buf
      (headerAt buf locals.offset.toNat)) :
    m.parseElf locals buf = (do
      let m' ← m.loadSegments buf
        (segmentsOf buf (headerAt buf locals.offset.toNat))
      .ok (some (headerAt buf locals.offset.toNat).eEntry,
        m')) := by
  rw [parseElf_accepted hHeader hGood]
  dsimp only
  rw [readProgramHeaders_eq hTables.1,
    readSectionHeaders_eq hTables.2]
  rfl

/- The parser reads the tables inside the buffer or fails. -/
theorem inBounds_parseElf_iff :
    InBounds (m.parseElf locals buf) ↔
      locals.offset.toNat + 64 ≤ buf.length ∧
        (¬ (headerAt buf locals.offset.toNat).Refused locals →
          TablesFit buf (headerAt buf locals.offset.toNat) ∧
            InBounds (m.loadSegments buf (segmentsOf buf
              (headerAt buf locals.offset.toNat)))) := by
  by_cases hHeader : locals.offset.toNat + 64 ≤ buf.length
  case neg =>
    refine iff_of_false ?_ (fun h => hHeader h.1)
    intro h
    exact hHeader (inBounds_readElfHeader_iff.mp
      (inBounds_bind_iff.mp h).1)
  case pos =>
    rw [and_iff_right hHeader]
    by_cases hRefused :
        (headerAt buf locals.offset.toNat).Refused locals
    · rw [parseElf_refused hHeader hRefused]
      exact iff_of_true (inBounds_ok _)
        (fun hGood => absurd hRefused hGood)
    · rw [imp_iff_right hRefused]
      constructor
      · intro h
        -- the tables come before the segments
        have hTables : TablesFit buf
            (headerAt buf locals.offset.toNat) := by
          rw [parseElf_accepted hHeader hRefused] at h
          rcases inBounds_bind_iff.mp h with ⟨hPhs, h⟩
          have hProgram :=
            inBounds_readProgramHeaders_iff.mp hPhs
          have h := h _ (readProgramHeaders_eq hProgram)
          exact ⟨hProgram, inBounds_readSectionHeaders_iff.mp
            (inBounds_bind_iff.mp h).1⟩
        rw [parseElf_eq hHeader hRefused hTables] at h
        exact ⟨hTables, (inBounds_bind_iff.mp h).1⟩
      · rintro ⟨hTables, h⟩
        rw [parseElf_eq hHeader hRefused hTables]
        exact inBounds_bind_iff.mpr
          ⟨h, fun _ _ => inBounds_ok _⟩

/- What is known of a file that was accepted. -/
theorem parseElf_some
    {m' : MemoryMap}
    {entry : BitVec 64}
    (h : m.parseElf locals buf = .ok (some entry, m')) :
    TablesFit buf (headerAt buf locals.offset.toNat) ∧
      m.loadSegments buf (segmentsOf buf
        (headerAt buf locals.offset.toNat)) = .ok m' ∧
      entry = (headerAt buf locals.offset.toNat).eEntry := by
  have hBounds : InBounds (m.parseElf locals buf) := by
    rw [h]
    exact inBounds_ok _
  rcases inBounds_parseElf_iff.mp hBounds with
    ⟨hHeader, hRest⟩
  by_cases hRefused :
      (headerAt buf locals.offset.toNat).Refused locals
  · rw [parseElf_refused hHeader hRefused] at h
    cases h
  · have hTables := (hRest hRefused).1
    rw [parseElf_eq hHeader hRefused hTables] at h
    rcases bind_eq_ok.mp h with ⟨m₁, hLoad, hEq⟩
    cases hEq
    exact ⟨hTables, hLoad, rfl⟩

end RiscvEm
