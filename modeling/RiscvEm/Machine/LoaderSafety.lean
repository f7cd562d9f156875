import RiscvEm.Machine.ElfImage

/-
  Images of any contents: a load stays in the buffer and in
  the registered regions, or it fails.

  Key definitions include:
    * `SegmentFits`
    * `SegmentsFit`
    * `ImageFits`

  Key theorems include `load_buffer_safe_iff`.
-/

------------------------------------------------------------
-- Images That Fit
------------------------------------------------------------

namespace RiscvEm

open ByteCodec

/-
  The file bytes of a segment are in the buffer, and the
  region has room for them at the physical address. The rest
  of the segment is counted from the begin of the region.
-/
structure FillFits
    (buf : List Byte)
    (ph : ElfProgramHeader)
    (r : MemoryRegion) : Prop where
  file : ph.pFilesz ≠ 0 →
    ph.pOffset.toNat + ph.pFilesz.toNat ≤ buf.length
  copy : ph.pFilesz ≠ 0 →
    r.Fits ph.pPaddr ph.pFilesz.toNat
  clear : ph.pMemsz ≠ ph.pFilesz →
    ph.pFilesz < ph.pMemsz ∧ ph.pMemsz ≤ r.size

/- The map in which the region of a segment is looked up. -/
def MemoryMap.mapFor
    (m : MemoryMap)
    (ph : ElfProgramHeader) : MemoryMap :=
  if ph.pType = ELF_PT_LOAD then m.withSegment ph else m

/- No region is found, so that the lookup throws. -/
def MemoryMap.Throws
    (m : MemoryMap)
    (ph : ElfProgramHeader) : Prop :=
  ph.pType = ELF_PT_LOAD ∧
    (m.mapFor ph).findRegion ph.pVaddr = .error .outOfRange

/-
  RAM is there if a segment asks for it, and the region that
  is found for a segment has room.
-/
structure SegmentFits
    (m : MemoryMap)
    (buf : List Byte)
    (ph : ElfProgramHeader) : Prop where
  ram : 0x80000000 ≤ ph.pVaddr →
    ∃ r, (m.mapFor ph).ram = .ok r
  fill : ∀ i r,
    (m.mapFor ph).findRegion ph.pVaddr = .ok i →
    (m.mapFor ph).regions[i]? = some r →
    FillFits buf ph r

/-
  All segments up to the first one whose lookup throws, with
  the regions that those before it have added.
-/
def SegmentsFit
    (m : MemoryMap)
    (buf : List Byte) : List ElfProgramHeader → Prop
  | [] => True
  | ph :: phs =>
      (ph.pType = ELF_PT_LOAD → SegmentFits m buf ph) ∧
        (¬ m.Throws ph → SegmentsFit (m.mapFor ph) buf phs)

/-
  The structures that are read are in the buffer, and the
  segments or the raw image have room where they go.
-/
structure ImageFits
    (m : MemoryMap)
    (locals : ElfLocals)
    (path : BitVec 64)
    (buf : List Byte) : Prop where
  magic : 4 ≤ buf.length
  raw : (field (buf.take 4) 0 4).setWidth 32 ≠ ELF_MAGIC →
    (0x80000000 ≤ path → ∃ r, m.ram = .ok r) ∧
      ∀ r, m.Serves path r → r.Fits path buf.length
  header : (field (buf.take 4) 0 4).setWidth 32 = ELF_MAGIC →
    locals.offset.toNat + 64 ≤ buf.length
  tables : (field (buf.take 4) 0 4).setWidth 32 = ELF_MAGIC →
    ¬ (headerAt buf locals.offset.toNat).Refused locals →
      TablesFit buf (headerAt buf locals.offset.toNat) ∧
        SegmentsFit m buf (segmentsOf buf
          (headerAt buf locals.offset.toNat))

end RiscvEm

------------------------------------------------------------
-- One Region
------------------------------------------------------------

namespace RiscvEm

open ByteCodec

variable {m : MemoryMap}
variable {r r' : MemoryRegion}
variable {buf bs : List Byte}
variable {ph : ElfProgramHeader}
variable {dst n : Nat}

theorem inBounds_memcpy_iff :
    InBounds (r.memcpy dst bs) ↔
      bs = [] ∨ dst + bs.length ≤ r.size.toNat := by
  unfold MemoryRegion.memcpy
  by_cases hNil : bs = []
  · rw [if_pos hNil]
    exact iff_of_true (inBounds_ok _) (Or.inl hNil)
  · rw [if_neg hNil, inBounds_ite_iff, or_iff_right hNil]

theorem inBounds_memset_iff :
    InBounds (r.memset dst n) ↔
      n = 0 ∨ dst + n ≤ r.size.toNat := by
  unfold MemoryRegion.memset
  by_cases hZero : n = 0
  · rw [if_pos hZero]
    exact iff_of_true (inBounds_ok _) (Or.inl hZero)
  · rw [if_neg hZero, inBounds_ite_iff, or_iff_right hZero]

/- A difference of sizes that wraps is larger than memory. -/
theorem clear_fits_iff
    (filesz memsz size : BitVec 64) :
    (memsz - filesz).toNat = 0 ∨
        filesz.toNat + (memsz - filesz).toNat ≤ size.toNat ↔
      (memsz ≠ filesz → filesz < memsz ∧ memsz ≤ size) := by
  have hFile := filesz.isLt
  have hMem := memsz.isLt
  have hSize := size.isLt
  rw [Ne, ← BitVec.toNat_inj, BitVec.lt_def, BitVec.le_def,
    BitVec.toNat_sub]
  by_cases hLt : filesz.toNat ≤ memsz.toNat
  · have hMod : (2 ^ 64 - filesz.toNat + memsz.toNat) %
        2 ^ 64 = memsz.toNat - filesz.toNat := by
      omega
    rw [hMod]
    omega
  · have hMod : (2 ^ 64 - filesz.toNat + memsz.toNat) %
        2 ^ 64 = 2 ^ 64 - filesz.toNat + memsz.toNat := by
      omega
    rw [hMod]
    omega

theorem toNat_eq_zero_or_iff
    {x : BitVec 64}
    {p : Prop} :
    x.toNat = 0 ∨ p ↔ (x ≠ 0 → p) := by
  have hZero : x.toNat = 0 ↔ x = 0 := by
    rw [← BitVec.toNat_inj]
    rfl
  rw [hZero, Ne, imp_iff_not_or, not_not]

/- What the copy of the file bytes needs. -/
theorem copy_fits_iff
    (hLen : bs.length = ph.pFilesz.toNat) :
    bs = [] ∨ (ph.pPaddr - r.baseAddr).toNat + bs.length ≤
        r.size.toNat ↔
      (ph.pFilesz ≠ 0 →
        r.Fits ph.pPaddr ph.pFilesz.toNat) := by
  rw [← List.length_eq_zero_iff, hLen, toNat_eq_zero_or_iff]
  rfl

/- The file bytes of a segment, and then zeros. -/
def ElfProgramHeader.patches
    (ph : ElfProgramHeader)
    (buf : List Byte)
    (base : BitVec 64) : List Patch :=
  [ ⟨(ph.pPaddr - base).toNat,
      (ph.pPaddr - base).toNat + ph.pFilesz.toNat,
      (buf.drop ph.pOffset.toNat).take ph.pFilesz.toNat⟩,
    ⟨ph.pFilesz.toNat,
      ph.pFilesz.toNat + (ph.pMemsz - ph.pFilesz).toNat,
      []⟩ ]

/- What filling a segment needs, and what it does. -/
theorem fillSegment_eq_ok_iff :
    fillSegment buf ph r = .ok r' ↔
      FillFits buf ph r ∧
        r' = { r with
          data := overlay (ph.patches buf r.baseAddr)
            r.data } := by
  constructor
  · intro h
    rcases bind_eq_ok.mp h with ⟨bs, hBytes, h⟩
    rcases bind_eq_ok.mp h with ⟨r₁, hCopy, hSet⟩
    rcases bufferBytes_eq_ok_iff.mp hBytes with ⟨hFile, hBs⟩
    have hLen := length_take_drop hFile
    rw [← hBs] at hLen
    rcases MemoryRegion.memcpy_eq_ok_iff.mp hCopy with
      ⟨hRoom, hCopied⟩
    rcases MemoryRegion.memset_eq_ok_iff.mp hSet with
      ⟨hClear, hCleared⟩
    rw [hLen, hBs] at hCopied
    rw [hCopied] at hClear hCleared
    exact ⟨⟨toNat_eq_zero_or_iff.mp hFile,
      (copy_fits_iff hLen).mp hRoom,
      (clear_fits_iff _ _ _).mp hClear⟩, hCleared⟩
  · rintro ⟨hFits, rfl⟩
    have hFile := toNat_eq_zero_or_iff.mpr hFits.file
    have hLen := length_take_drop hFile
    have hRoom := (copy_fits_iff hLen).mpr hFits.copy
    have hClear := (clear_fits_iff _ _ _).mpr hFits.clear
    refine bind_eq_ok.mpr
      ⟨_, bufferBytes_eq_ok_iff.mpr ⟨hFile, rfl⟩, ?_⟩
    refine bind_eq_ok.mpr
      ⟨_, MemoryRegion.memcpy_eq_ok_iff.mpr ⟨hRoom, rfl⟩, ?_⟩
    refine MemoryRegion.memset_eq_ok_iff.mpr ⟨hClear, ?_⟩
    rw [hLen]
    rfl

theorem fillSegment_bounds
    (h : fillSegment buf ph r = .ok r') :
    r'.bounds = r.bounds := by
  rw [(fillSegment_eq_ok_iff.mp h).2]
  rfl

/- Filling fails only by leaving the buffer or the region. -/
theorem inBounds_fillSegment_iff :
    InBounds (fillSegment buf ph r) ↔ FillFits buf ph r := by
  constructor
  · intro h
    rcases inBounds_bind_iff.mp h with ⟨hFile, h⟩
    have hFile := inBounds_bufferBytes_iff.mp hFile
    rcases inBounds_bind_iff.mp (h _
      (bufferBytes_eq_ok_iff.mpr ⟨hFile, rfl⟩)) with
        ⟨hRoom, h⟩
    have hRoom := inBounds_memcpy_iff.mp hRoom
    have hClear := inBounds_memset_iff.mp (h _
      (MemoryRegion.memcpy_eq_ok_iff.mpr ⟨hRoom, rfl⟩))
    exact ⟨toNat_eq_zero_or_iff.mp hFile,
      (copy_fits_iff (length_take_drop hFile)).mp hRoom,
      (clear_fits_iff _ _ _).mp hClear⟩
  · intro h
    rw [fillSegment_eq_ok_iff.mpr ⟨h, rfl⟩]
    exact inBounds_ok _

end RiscvEm

------------------------------------------------------------
-- Segments
------------------------------------------------------------

namespace RiscvEm

open ByteCodec

variable {m m' : MemoryMap}
variable {r : MemoryRegion}
variable {buf : List Byte}
variable {ph : ElfProgramHeader}
variable {addr : BitVec 64}
variable {f : MemoryRegion → Except HostFault MemoryRegion}

namespace MemoryMap

theorem inBounds_updateRegion_iff :
    InBounds (m.updateRegion addr f) ↔
      (0x80000000 ≤ addr → ∃ r, m.ram = .ok r) ∧
        ∀ i r, m.findRegion addr = .ok i →
          m.regions[i]? = some r → InBounds (f r) := by
  have hEq : m.updateRegion addr f =
      m.withRegion addr (fun i r => do
        let r' ← f r
        .ok { m with regions := m.regions.set i r' }) := rfl
  have hBind : ∀ i r, InBounds (do
      let r' ← f r
      .ok { m with regions := m.regions.set i r' }) ↔
        InBounds (f r) := by
    intro i r
    refine inBounds_bind_iff.trans ?_
    exact and_iff_left fun _ _ => inBounds_ok _
  rw [hEq, inBounds_withRegion_iff]
  refine and_congr_right fun _ => ?_
  exact forall₂_congr fun i r =>
    forall₂_congr fun _ _ => hBind i r

/- A change that keeps the bounds keeps the layout. -/
theorem updateRegion_layout
    (hf : ∀ {r r'}, f r = .ok r' → r'.bounds = r.bounds)
    (h : m.updateRegion addr f = .ok m') :
    SameLayout m m' := by
  rcases updateRegion_cases h with
    ⟨i, r, r', -, hGet, hEq, rfl⟩
  refine ⟨rfl, ?_⟩
  have hGetMap : (m.regions.map MemoryRegion.bounds)[i]? =
      some r.bounds := by
    rw [List.getElem?_map, hGet]
    rfl
  rcases List.getElem?_eq_some_iff.mp hGetMap with
    ⟨hLt, hBounds⟩
  rw [List.map_set, hf hEq, ← hBounds]
  exact List.set_getElem_self hLt

theorem SameLayout.mapFor
    (h : SameLayout m m')
    (ph : ElfProgramHeader) :
    SameLayout (m.mapFor ph) (m'.mapFor ph) := by
  have hLength : m'.regions.length = m.regions.length := by
    have hMap := congrArg List.length h.bounds
    rw [List.length_map, List.length_map] at hMap
    exact hMap
  unfold MemoryMap.mapFor MemoryMap.withSegment
  split
  · split
    · refine ⟨?_, ?_⟩
      · unfold addRegion
        dsimp only
        rw [hLength, h.ramDirect]
      · unfold addRegion
        rw [List.map_append, List.map_append, h.bounds]
    · exact h
  · exact h

/- RAM is there in both maps, or in none. -/
theorem SameLayout.hasRam
    (h : SameLayout m m')
    (hRam : ∃ r, m.ram = .ok r) :
    ∃ r, m'.ram = .ok r := by
  rcases hRam with ⟨r, hEq⟩
  rcases ram_eq_ok_iff.mp hEq with ⟨i, hDirect, hGet⟩
  rcases h.region hGet with ⟨r', hGet', -, -⟩
  exact ⟨r', ram_eq_ok_iff.mpr
    ⟨i, h.ramDirect.trans hDirect, hGet'⟩⟩

end MemoryMap

open MemoryMap

/- The contents of a region do not matter. -/
theorem FillFits.of_bounds
    {r' : MemoryRegion}
    (h : FillFits buf ph r)
    (hBase : r'.baseAddr = r.baseAddr)
    (hSize : r'.size = r.size) :
    FillFits buf ph r' := by
  refine ⟨h.file, ?_, ?_⟩
  · unfold MemoryRegion.Fits
    rw [hBase, hSize]
    exact h.copy
  · rw [hSize]
    exact h.clear

theorem SegmentFits.of_layout
    (h : SegmentFits m buf ph)
    (hLayout : SameLayout m m') :
    SegmentFits m' buf ph := by
  have hFor := hLayout.mapFor ph
  refine ⟨fun hHigh => hFor.hasRam (h.ram hHigh), ?_⟩
  intro i r hFind hGet
  rw [hFor.findRegion] at hFind
  rcases hFor.symm.region hGet with
    ⟨r', hGet', hBase, hSize⟩
  exact (h.fill i r' hFind hGet').of_bounds hBase.symm
    hSize.symm

theorem MemoryMap.Throws.of_layout
    (h : m.Throws ph)
    (hLayout : SameLayout m m') :
    m'.Throws ph :=
  ⟨h.1, ((hLayout.mapFor ph).findRegion _).trans h.2⟩

theorem SegmentsFit.of_layout
    {phs : List ElfProgramHeader}
    {m m' : MemoryMap}
    (h : SegmentsFit m buf phs)
    (hLayout : SameLayout m m') :
    SegmentsFit m' buf phs := by
  induction phs generalizing m m' with
  | nil => trivial
  | cons ph phs ih =>
      refine ⟨fun hType => (h.1 hType).of_layout hLayout, ?_⟩
      intro hNot
      have hBefore : ¬ m.Throws ph :=
        fun hThrows => hNot (hThrows.of_layout hLayout)
      exact ih (h.2 hBefore) (hLayout.mapFor ph)

theorem inBounds_loadSegment_iff :
    InBounds (m.loadSegment buf ph) ↔
      (ph.pType = ELF_PT_LOAD → SegmentFits m buf ph) := by
  unfold MemoryMap.loadSegment
  by_cases hType : ph.pType = ELF_PT_LOAD
  · have hFor : m.mapFor ph = m.withSegment ph :=
      if_pos hType
    rw [if_neg (not_not.mpr hType), imp_iff_right hType,
      ← hFor, inBounds_updateRegion_iff]
    constructor
    · rintro ⟨hRam, hFill⟩
      exact ⟨hRam, fun i r hFind hGet =>
        inBounds_fillSegment_iff.mp (hFill i r hFind hGet)⟩
    · rintro ⟨hRam, hFill⟩
      exact ⟨hRam, fun i r hFind hGet =>
        inBounds_fillSegment_iff.mpr (hFill i r hFind hGet)⟩
  · rw [if_pos hType]
    exact iff_of_true (inBounds_ok _)
      (fun hYes => absurd hYes hType)

theorem loadSegment_layout
    (h : m.loadSegment buf ph = .ok m') :
    SameLayout (m.mapFor ph) m' := by
  unfold MemoryMap.loadSegment at h
  unfold MemoryMap.mapFor
  by_cases hType : ph.pType = ELF_PT_LOAD
  · rw [if_neg (not_not.mpr hType)] at h
    rw [if_pos hType]
    exact updateRegion_layout fillSegment_bounds h
  · rw [if_pos hType] at h
    rw [if_neg hType]
    cases h
    exact .refl m

/- A segment that is loaded did not throw. -/
theorem loadSegment_not_throws
    (h : m.loadSegment buf ph = .ok m') :
    ¬ m.Throws ph := by
  rintro ⟨hType, hFind⟩
  unfold MemoryMap.mapFor at hFind
  rw [if_pos hType] at hFind
  unfold MemoryMap.loadSegment at h
  rw [if_neg (not_not.mpr hType)] at h
  rcases updateRegion_cases h with ⟨i, r, r', hOk, -⟩
  rw [hFind] at hOk
  cases hOk

/-
  A segment that fits is loaded, unless its lookup throws.
-/
theorem loadSegment_ok
    (hFits : ph.pType = ELF_PT_LOAD → SegmentFits m buf ph)
    (hNot : ¬ m.Throws ph) :
    ∃ m', m.loadSegment buf ph = .ok m' := by
  unfold MemoryMap.loadSegment
  by_cases hType : ph.pType = ELF_PT_LOAD
  · have hFor : m.mapFor ph = m.withSegment ph :=
      if_pos hType
    have hFit := hFits hType
    rw [if_neg (not_not.mpr hType), ← hFor]
    rcases (m.mapFor ph).findRegion_cases ph.pVaddr with
      ⟨i, r, hFind, hGet, -⟩ | ⟨-, hThrow⟩ |
        ⟨hHigh, hNoRam, -⟩
    · have hFill : ∃ r', fillSegment buf ph r = .ok r' :=
        ⟨_, fillSegment_eq_ok_iff.mpr
          ⟨hFit.fill i r hFind hGet, rfl⟩⟩
      rcases hFill with ⟨r', hEq⟩
      refine ⟨{ m.mapFor ph with
        regions := (m.mapFor ph).regions.set i r' }, ?_⟩
      refine bind_eq_ok.mpr ⟨i, hFind, ?_⟩
      rw [hGet]
      exact bind_eq_ok.mpr ⟨r', hEq, rfl⟩
    · exact absurd ⟨hType, hThrow⟩ hNot
    · rcases hFit.ram hHigh with ⟨r, hEq⟩
      exact absurd hEq (hNoRam r)
  · exact ⟨m, if_pos hType⟩

/-
  By induction on the segments: each one is judged in the map
  that the segments before it leave, whose layout is known.
-/
theorem inBounds_loadSegments_iff
    (phs : List ElfProgramHeader)
    {m : MemoryMap} :
    InBounds (m.loadSegments buf phs) ↔
      SegmentsFit m buf phs := by
  induction phs generalizing m with
  | nil => exact iff_of_true (inBounds_ok m) trivial
  | cons ph phs ih =>
      refine inBounds_bind_iff.trans ?_
      rw [inBounds_loadSegment_iff]
      refine and_congr_right fun hFits => ?_
      constructor
      · intro h hNot
        rcases loadSegment_ok hFits hNot with ⟨m', hLoad⟩
        exact (ih.mp (h m' hLoad)).of_layout
          (loadSegment_layout hLoad).symm
      · intro h m' hLoad
        have hRest := h (loadSegment_not_throws hLoad)
        exact ih.mpr (hRest.of_layout
          (loadSegment_layout hLoad))

end RiscvEm

------------------------------------------------------------
-- Loading
------------------------------------------------------------

namespace RiscvEm

open ByteCodec MemoryMap

variable {m : MemoryMap}
variable {path : BitVec 64}
variable {buf : List Byte}

/- What copying an image as it is needs. -/
theorem inBounds_raw_iff
    (hPos : buf ≠ []) :
    InBounds (m.updateRegion path (fun r => do
        let off ← r.ptr path
        r.memcpy off buf)) ↔
      (0x80000000 ≤ path → ∃ r, m.ram = .ok r) ∧
        ∀ r, m.Serves path r → r.Fits path buf.length := by
  rw [inBounds_updateRegion_iff]
  refine and_congr_right fun _ => ?_
  constructor
  · rintro h r ⟨i, hFind, hGet, hIn⟩
    have hCopy := inBounds_ptr_iff.mp (h i r hFind hGet) hIn
    exact (inBounds_memcpy_iff.mp hCopy).resolve_left hPos
  · intro h i r hFind hGet
    refine inBounds_ptr_iff.mpr fun hIn => ?_
    exact inBounds_memcpy_iff.mpr
      (Or.inr (h r ⟨i, hFind, hGet, hIn⟩))

/-
  The load stays in bounds or fails exactly if the image fits
  the buffer and the memory it is loaded into.
-/
theorem load_buffer_safe_iff
    (m : MemoryMap)
    (locals : ElfLocals)
    (path : BitVec 64)
    (buf : List Byte) :
    InBounds (m.loadBuffer locals path buf buf.length) ↔
      ImageFits m locals path buf := by
  by_cases hMagic : 4 ≤ buf.length
  case neg =>
    refine iff_of_false ?_ (fun h => hMagic h.magic)
    intro h
    have hStart := (inBounds_bind_iff.mp h).1
    rw [inBounds_struct_iff (by decide)] at hStart
    omega
  case pos =>
    have hStart : bufferBytes buf 0 4 = .ok (buf.take 4) :=
      bufferBytes_eq (Or.inr (by omega))
    have hAll : bufferBytes buf 0 buf.length = .ok buf := by
      rw [bufferBytes_eq (Or.inr (by omega)), List.drop_zero,
        List.take_length]
    have hPos : buf ≠ [] := by
      intro hNil
      rw [hNil] at hMagic
      exact absurd hMagic (by decide)
    unfold MemoryMap.loadBuffer
    rw [hStart, hAll]
    change InBounds (if (field (buf.take 4) 0 4).setWidth 32 =
      ELF_MAGIC then _ else _) ↔ _
    by_cases hElf :
        (field (buf.take 4) 0 4).setWidth 32 = ELF_MAGIC
    case pos =>
      rw [if_pos hElf]
      refine inBounds_bind_iff.trans ?_
      rw [and_iff_left (fun _ _ => inBounds_ok _),
        inBounds_parseElf_iff, inBounds_loadSegments_iff]
      constructor
      · rintro ⟨hHeader, hTables⟩
        exact ⟨hMagic, fun hRaw => absurd hElf hRaw,
          fun _ => hHeader, fun _ => hTables⟩
      · intro h
        exact ⟨h.header hElf, h.tables hElf⟩
    case neg =>
      rw [if_neg hElf]
      refine inBounds_bind_iff.trans ?_
      constructor
      · rintro ⟨-, h⟩
        have hRaw := (inBounds_bind_iff.mp (h buf rfl)).1
        exact ⟨hMagic, fun _ => (inBounds_raw_iff hPos).mp hRaw,
          fun hYes => absurd hYes hElf,
          fun hYes => absurd hYes hElf⟩
      · intro h
        refine ⟨inBounds_ok buf, ?_⟩
        intro bs hBs
        cases hBs
        refine inBounds_bind_iff.mpr
          ⟨(inBounds_raw_iff hPos).mpr (h.raw hElf), ?_⟩
        intro _ _
        exact inBounds_ok _

/-
  A buffer of one byte, from which four are read, and five
  bytes that are loaded where RAM has room for four.
-/
theorem load_buffer_unsafe :
    ¬ InBounds (pageOfRam.loadBuffer ⟨0, 0⟩ 0x80000000
        [0x13] 1) ∧
      ¬ InBounds (pageOfRam.loadBuffer ⟨0, 0⟩ 0x80000FFC
        [0x13, 0, 0, 0, 0x13] 5) := by
  have hShort : pageOfRam.loadBuffer ⟨0, 0⟩ 0x80000000
      [0x13] 1 = .error .outOfBounds :=
    rfl
  have hLong : pageOfRam.loadBuffer ⟨0, 0⟩ 0x80000FFC
      [0x13, 0, 0, 0, 0x13] 5 = .error .outOfBounds :=
    rfl
  exact ⟨fun h => h hShort, fun h => h hLong⟩

end RiscvEm
