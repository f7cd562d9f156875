import RiscvEm.Machine.LoaderSafety

/-
  What is in RAM after an ELF file was loaded, and what its
  program headers ask for.

  The file bytes of a segment go to its physical address. The
  bytes that are cleared for the rest of its size are counted
  from the begin of the region instead.

  Key definitions include:
    * `WellFormedElf`
    * `ElfLoaded`
    * `FillsHarmless`

  Key theorems include `elf_loaded_iff`.
-/

------------------------------------------------------------
-- What A File Asks For
------------------------------------------------------------

namespace RiscvEm

open ByteCodec

namespace ElfProgramHeader

/- The segment is one that is loaded. -/
def Loads
    (ph : ElfProgramHeader) : Prop :=
  ph.pType = ELF_PT_LOAD

/- The place of a segment, as an offset of RAM. -/
def ramOffset
    (ph : ElfProgramHeader) : Nat :=
  (ph.pPaddr - 0x80000000).toNat

def Covers
    (ph : ElfProgramHeader)
    (x : Nat) : Prop :=
  ph.ramOffset ≤ x ∧ x < ph.ramOffset + ph.pMemsz.toNat

/- Byte `k` of a segment, as it stands in the file. -/
def fileByte
    (ph : ElfProgramHeader)
    (buf : List Byte)
    (k : Nat) : Byte :=
  buf.getD (ph.pOffset.toNat + k) 0

/- The segment lies in RAM and its bytes in the file. -/
structure WellFormed
    (ph : ElfProgramHeader)
    (buf : List Byte)
    (size : BitVec 64) : Prop where
  sizes : ph.pFilesz ≤ ph.pMemsz
  file : ph.pOffset.toNat + ph.pFilesz.toNat ≤ buf.length
  low : 0x80000000 ≤ ph.pPaddr
  high : ph.ramOffset + ph.pMemsz.toNat ≤ size.toNat

end ElfProgramHeader

/- No byte belongs to two segments that are loaded. -/
def SegmentsApart
    (phs : List ElfProgramHeader) : Prop :=
  phs.Pairwise fun a b => a.Loads → b.Loads →
    ∀ x, a.Covers x → ¬ b.Covers x

/- A file for this machine, with RAM of the given size. -/
structure WellFormedElf
    (buf : List Byte)
    (size : BitVec 64) : Prop where
  header : 64 ≤ buf.length
  magic : (headerAt buf 0).magic = ELF_MAGIC
  class64 : (headerAt buf 0).eClass = 2
  machine : (headerAt buf 0).eMachine = ELF_RISCV
  segments : ∀ ph ∈ segmentsOf buf (headerAt buf 0),
    ph.Loads → ph.WellFormed buf size
  disjoint : SegmentsApart (segmentsOf buf (headerAt buf 0))

/-
  Every segment is in its place: its file bytes and zeros
  behind them. The other bytes of RAM are as they were.
-/
structure SegmentsLoaded
    (buf : List Byte)
    (phs : List ElfProgramHeader)
    (before after : MemoryRegion) : Prop where
  files : ∀ ph ∈ phs, ph.Loads → ∀ k < ph.pFilesz.toNat,
    after.data (ph.ramOffset + k) = ph.fileByte buf k
  zeros : ∀ ph ∈ phs, ph.Loads → ∀ k,
    ph.pFilesz.toNat ≤ k → k < ph.pMemsz.toNat →
      after.data (ph.ramOffset + k) = 0
  others : ∀ x < before.size.toNat,
    (∀ ph ∈ phs, ph.Loads → ¬ ph.Covers x) →
      after.data x = before.data x

structure ElfLoaded
    (buf : List Byte)
    (before after : MemoryRegion)
    (entry : BitVec 64) : Prop where
  segments : SegmentsLoaded buf
    (segmentsOf buf (headerAt buf 0)) before after
  entry : entry = (headerAt buf 0).eEntry

end RiscvEm

------------------------------------------------------------
-- What Is Cleared Instead
------------------------------------------------------------

namespace RiscvEm

open ByteCodec

/- The region that is found for the segment is RAM. -/
def ElfProgramHeader.Served
    (ph : ElfProgramHeader) : Prop :=
  ph.Loads ∧ 0x80000000 ≤ ph.pVaddr

instance instDecidableServed
    (ph : ElfProgramHeader) :
    Decidable ph.Served :=
  inferInstanceAs (Decidable (ph.pType = _ ∧ _))

/- Byte `x` of RAM is cleared for one of the segments. -/
def Cleared
    (phs : List ElfProgramHeader)
    (x : Nat) : Prop :=
  ∃ ph ∈ phs, ph.Served ∧ ph.pFilesz.toNat ≤ x ∧
    x < ph.pMemsz.toNat

/-
  No byte that was copied is lost: if it is cleared with its
  segment or after it, it was zero. The bytes that are to be
  zero are cleared, or were zero; nothing else is cleared
  that was not zero. A segment with a virtual address below
  2 GiB was in RAM already.
-/
structure FillsHarmless
    (buf : List Byte)
    (before : MemoryRegion)
    (phs : List ElfProgramHeader) : Prop where
  copied : ∀ pre ph post, phs = pre ++ ph :: post →
    ph.Served → ∀ k < ph.pFilesz.toNat,
      Cleared (ph :: post) (ph.ramOffset + k) →
        ph.fileByte buf k = 0
  elsewhere : ∀ ph ∈ phs, ph.Loads → ¬ ph.Served →
    ∀ k < ph.pFilesz.toNat,
      (Cleared phs (ph.ramOffset + k) →
        ph.fileByte buf k = 0) ∧
      (¬ Cleared phs (ph.ramOffset + k) →
        before.data (ph.ramOffset + k) = ph.fileByte buf k)
  zeros : ∀ ph ∈ phs, ph.Loads → ∀ k,
    ph.pFilesz.toNat ≤ k → k < ph.pMemsz.toNat →
      ¬ Cleared phs (ph.ramOffset + k) →
        before.data (ph.ramOffset + k) = 0
  others : ∀ x < before.size.toNat,
    (∀ ph ∈ phs, ph.Loads → ¬ ph.Covers x) →
      Cleared phs x → before.data x = 0

end RiscvEm

------------------------------------------------------------
-- RAM After The Segments
------------------------------------------------------------

namespace RiscvEm

open ByteCodec

/- The patches of the segments that RAM serves. -/
def ramPatches
    (buf : List Byte)
    (phs : List ElfProgramHeader) : List Patch :=
  phs.flatMap fun ph =>
    if ph.Served then ph.patches buf 0x80000000 else []

variable {m m' : MemoryMap}
variable {r : MemoryRegion}
variable {buf : List Byte}
variable {ph : ElfProgramHeader}

/- What loading one segment does to RAM. -/
theorem loadSegment_ram
    (hRam : m.ramRegion = some r)
    (hBase : r.baseAddr = 0x80000000)
    (h : m.loadSegment buf ph = .ok m') :
    m'.ramRegion = some { r with
      data := overlay (ramPatches buf [ph]) r.data } := by
  have hInPlace : m.RamInPlace := ⟨r, hRam, hBase⟩
  have hSame : ¬ ph.Served → some { r with
      data := overlay (ramPatches buf [ph]) r.data } =
        some r := by
    intro hNot
    unfold ramPatches
    rw [List.flatMap_singleton, if_neg hNot]
    rfl
  unfold MemoryMap.loadSegment at h
  by_cases hType : ph.pType = ELF_PT_LOAD
  case neg =>
    rw [if_pos hType] at h
    cases h
    rw [hSame fun hServed => hType hServed.1]
    exact hRam
  case pos =>
    rw [if_neg (not_not.mpr hType)] at h
    have hAdded := MemoryMap.withSegment_ramRegion hInPlace ph
    by_cases hHigh : 0x80000000 ≤ ph.pVaddr
    case pos =>
      rcases MemoryMap.updateRegion_high hHigh h with
        ⟨r₁, r₂, hBefore, hFill, hAfter⟩
      rw [hAdded, hRam] at hBefore
      cases hBefore
      rw [hAfter, (fillSegment_eq_ok_iff.mp hFill).2, hBase]
      unfold ramPatches
      rw [List.flatMap_singleton, if_pos ⟨hType, hHigh⟩]
    case neg =>
      rw [hSame fun hServed => hHigh hServed.2, ← hRam,
        ← hAdded]
      refine MemoryMap.updateRegion_low ?_ hHigh h
      exact ⟨r, hAdded.trans hRam, hBase⟩

/- By induction on the segments, in their order. -/
theorem loadSegments_ram
    (phs : List ElfProgramHeader)
    {m : MemoryMap}
    {r : MemoryRegion}
    (hRam : m.ramRegion = some r)
    (hBase : r.baseAddr = 0x80000000)
    (h : m.loadSegments buf phs = .ok m') :
    m'.ramRegion = some { r with
      data := overlay (ramPatches buf phs) r.data } := by
  induction phs generalizing m r with
  | nil =>
      cases h
      exact hRam
  | cons ph phs ih =>
      rcases bind_eq_ok.mp h with ⟨m₁, hFirst, hRest⟩
      have hOne := loadSegment_ram hRam hBase hFirst
      rw [ih hOne hBase hRest]
      have hSplit : ramPatches buf (ph :: phs) =
          ramPatches buf [ph] ++ ramPatches buf phs := by
        unfold ramPatches
        rw [List.flatMap_cons, List.flatMap_singleton]
      rw [hSplit, overlay_append]

end RiscvEm

------------------------------------------------------------
-- Bytes Of RAM
------------------------------------------------------------

namespace RiscvEm

open ByteCodec

variable {buf : List Byte}
variable {phs pre post : List ElfProgramHeader}
variable {ph : ElfProgramHeader}
variable {size : BitVec 64}
variable {base : Bytes}
variable {p : Patch}
variable {x k : Nat}

/- No segment that RAM serves has a file byte there. -/
def Uncopied
    (phs : List ElfProgramHeader)
    (x : Nat) : Prop :=
  ∀ ph ∈ phs, ph.Served → ∀ k < ph.pFilesz.toNat,
    x ≠ ph.ramOffset + k

theorem mem_ramPatches_iff :
    p ∈ ramPatches buf phs ↔
      ∃ ph ∈ phs, ph.Served ∧
        p ∈ ph.patches buf 0x80000000 := by
  unfold ramPatches
  rw [List.mem_flatMap]
  refine exists_congr fun ph => and_congr_right fun _ => ?_
  by_cases hServed : ph.Served
  · rw [if_pos hServed, and_iff_right hServed]
  · rw [if_neg hServed]
    exact iff_of_false List.not_mem_nil
      (fun h => hServed h.1)

theorem clear_stop
    (h : ph.WellFormed buf size) :
    ph.pFilesz.toNat + (ph.pMemsz - ph.pFilesz).toNat =
      ph.pMemsz.toNat := by
  have hSizes := h.sizes
  rw [BitVec.le_def] at hSizes
  rw [BitVec.toNat_sub_of_le h.sizes]
  omega

/- The byte of a file, in the block that is copied. -/
theorem copy_byte
    (off stop : Nat)
    (hk : k < ph.pFilesz.toNat) :
    Patch.byte ⟨off, stop,
      (buf.drop ph.pOffset.toNat).take ph.pFilesz.toNat⟩
        (off + k) = ph.fileByte buf k := by
  unfold Patch.byte ElfProgramHeader.fileByte
  rw [Nat.add_sub_cancel_left, List.getD_eq_getElem?_getD,
    List.getD_eq_getElem?_getD, List.getElem?_take_of_lt hk,
    List.getElem?_drop]

/- The two patches of a segment, and what they do to a byte. -/
theorem patches_cases
    (h : ph.WellFormed buf size)
    (hMem : p ∈ ph.patches buf 0x80000000)
    (hIn : p.Covers x) :
    (∃ k < ph.pFilesz.toNat, x = ph.ramOffset + k) ∨
      (ph.pFilesz.toNat ≤ x ∧ x < ph.pMemsz.toNat ∧
        p.byte x = 0) := by
  rcases List.mem_cons.mp hMem with rfl | hMem
  · refine Or.inl ⟨x - ph.ramOffset, ?_⟩
    rcases hIn with ⟨hLow, hHigh⟩
    unfold ElfProgramHeader.ramOffset
    dsimp only at hLow hHigh
    omega
  · cases List.mem_singleton.mp hMem
    rcases hIn with ⟨hLow, hHigh⟩
    rw [clear_stop h] at hHigh
    exact Or.inr ⟨hLow, hHigh, List.getD_nil⟩

/- A byte without file contents is zero once it is cleared. -/
theorem overlay_of_cleared
    (hAll : ∀ ph ∈ phs, ph.Loads → ph.WellFormed buf size)
    (hNot : Uncopied phs x)
    (hCleared : Cleared phs x) :
    overlay (ramPatches buf phs) base x = 0 := by
  refine overlay_uniform ?_ ?_
  · intro p hMem hIn
    rcases mem_ramPatches_iff.mp hMem with
      ⟨ph, hPh, hServed, hPatch⟩
    rcases patches_cases (hAll ph hPh hServed.1) hPatch hIn with
      ⟨k, hk, hEq⟩ | ⟨-, -, hZero⟩
    · exact absurd hEq (hNot ph hPh hServed k hk)
    · exact hZero
  · rcases hCleared with ⟨ph, hPh, hServed, hLow, hHigh⟩
    refine ⟨⟨_, _, _⟩, mem_ramPatches_iff.mpr
      ⟨ph, hPh, hServed, List.mem_cons_of_mem _
        List.mem_cons_self⟩, hLow, ?_⟩
    rw [clear_stop (hAll ph hPh hServed.1)]
    exact hHigh

/- A byte that is not cleared either stays as it was. -/
theorem overlay_of_not_cleared
    (hAll : ∀ ph ∈ phs, ph.Loads → ph.WellFormed buf size)
    (hNot : Uncopied phs x)
    (hKept : ¬ Cleared phs x) :
    overlay (ramPatches buf phs) base x = base x := by
  refine overlay_kept ?_
  intro p hMem hIn
  rcases mem_ramPatches_iff.mp hMem with
    ⟨ph, hPh, hServed, hPatch⟩
  rcases patches_cases (hAll ph hPh hServed.1) hPatch hIn with
    ⟨k, hk, hEq⟩ | ⟨hLow, hHigh, -⟩
  · exact hNot ph hPh hServed k hk hEq
  · exact hKept ⟨ph, hPh, hServed, hLow, hHigh⟩

theorem ramPatches_split
    (hServed : ph.Served) :
    ramPatches buf (pre ++ ph :: post) =
      (ramPatches buf pre ++ ph.patches buf 0x80000000) ++
        ramPatches buf post := by
  unfold ramPatches
  rw [List.flatMap_append, List.flatMap_cons,
    if_pos hServed, List.append_assoc]

/-
  A byte that is copied is there unless it is cleared with
  its segment or later.
-/
theorem overlay_of_copied
    (pre : List ElfProgramHeader)
    (base : Bytes)
    (hAll : ∀ q ∈ ph :: post,
      q.Loads → q.WellFormed buf size)
    (hServed : ph.Served)
    (hk : k < ph.pFilesz.toNat)
    (hNot : Uncopied post (ph.ramOffset + k)) :
    (Cleared (ph :: post) (ph.ramOffset + k) →
      overlay (ramPatches buf (pre ++ ph :: post)) base
        (ph.ramOffset + k) = 0) ∧
    (¬ Cleared (ph :: post) (ph.ramOffset + k) →
      overlay (ramPatches buf (pre ++ ph :: post)) base
        (ph.ramOffset + k) = ph.fileByte buf k) := by
  have hWf := hAll ph List.mem_cons_self hServed.1
  have hPost : ∀ q ∈ post, q.Loads → q.WellFormed buf size :=
    fun q hMem => hAll q (List.mem_cons_of_mem ph hMem)
  have hStop := clear_stop hWf
  rw [ramPatches_split hServed, overlay_append]
  constructor
  · rintro ⟨q, hMem, hCleared⟩
    by_cases hLater : Cleared post (ph.ramOffset + k)
    · exact overlay_of_cleared hPost hNot hLater
    · refine (overlay_of_not_cleared hPost hNot hLater).trans
        ?_
      have hOwn : q = ph := by
        rcases List.mem_cons.mp hMem with hEq | hMem
        · exact hEq
        · exact absurd ⟨q, hMem, hCleared⟩ hLater
      rw [hOwn] at hCleared
      rw [overlay_append]
      refine (window_of_mem _ hCleared.2.1 ?_).trans
        List.getD_nil
      rw [hStop]
      exact hCleared.2.2
  · intro hKept
    have hLater : ¬ Cleared post (ph.ramOffset + k) := by
      rintro ⟨q, hMem, hCleared⟩
      exact hKept ⟨q, List.mem_cons_of_mem ph hMem, hCleared⟩
    refine (overlay_of_not_cleared hPost hNot hLater).trans ?_
    have hOwn : ¬ Patch.Covers ⟨ph.pFilesz.toNat,
        ph.pFilesz.toNat + (ph.pMemsz - ph.pFilesz).toNat, []⟩
          (ph.ramOffset + k) := by
      rintro ⟨hLow, hHigh⟩
      rw [hStop] at hHigh
      exact hKept ⟨ph, List.mem_cons_self, hServed, hLow,
        hHigh⟩
    refine (overlay_last ⟨?_, ?_⟩
      (List.forall_mem_singleton.mpr hOwn)).trans
        (copy_byte _ _ hk)
    · exact Nat.le_add_right _ _
    · exact Nat.add_lt_add_left hk _

end RiscvEm

------------------------------------------------------------
-- Segments SegmentsApart From Each Other
------------------------------------------------------------

namespace RiscvEm

open ByteCodec

variable {buf : List Byte}
variable {phs pre post : List ElfProgramHeader}
variable {ph : ElfProgramHeader}
variable {size : BitVec 64}
variable {x k : Nat}

theorem ElfProgramHeader.WellFormed.covers_file
    (h : ph.WellFormed buf size)
    (hk : k < ph.pFilesz.toNat) :
    ph.Covers (ph.ramOffset + k) := by
  have hSizes := h.sizes
  rw [BitVec.le_def] at hSizes
  exact ⟨Nat.le_add_right _ _, by omega⟩

theorem uncopied_of_not_covers
    (hAll : ∀ ph ∈ phs, ph.Loads → ph.WellFormed buf size)
    (hNot : ∀ ph ∈ phs, ph.Loads → ¬ ph.Covers x) :
    Uncopied phs x := by
  intro ph hMem hServed k hk hEq
  apply hNot ph hMem hServed.1
  rw [hEq]
  exact (hAll ph hMem hServed.1).covers_file hk

/- The segments around one that has a byte do not have it. -/
theorem SegmentsApart.others
    (h : SegmentsApart (pre ++ ph :: post))
    (hLoads : ph.Loads)
    (hIn : ph.Covers x) :
    (∀ q ∈ pre, q.Loads → ¬ q.Covers x) ∧
      ∀ q ∈ post, q.Loads → ¬ q.Covers x := by
  rcases List.pairwise_append.mp h with ⟨-, hPost, hPre⟩
  constructor
  · intro q hMem hQ hCovers
    exact hPre q hMem ph List.mem_cons_self hQ hLoads x
      hCovers hIn
  · intro q hMem hQ
    exact (List.pairwise_cons.mp hPost).1 q hMem hLoads hQ
      x hIn

theorem SegmentsApart.uncopied
    (h : SegmentsApart phs)
    (hAll : ∀ ph ∈ phs, ph.Loads → ph.WellFormed buf size)
    (hMem : ph ∈ phs)
    (hLoads : ph.Loads)
    (hIn : ph.Covers x)
    (hOwn : ph.Served → ∀ k < ph.pFilesz.toNat,
      x ≠ ph.ramOffset + k) :
    Uncopied phs x := by
  rcases List.append_of_mem hMem with ⟨pre, post, rfl⟩
  rcases h.others hLoads hIn with ⟨hPre, hPost⟩
  intro q hQ hServed
  rcases List.mem_append.mp hQ with hQ | hQ
  · refine uncopied_of_not_covers (fun a hA => hAll a
      (List.mem_append_left _ hA)) hPre q hQ hServed
  · rcases List.mem_cons.mp hQ with rfl | hQ
    · exact hOwn hServed
    · exact uncopied_of_not_covers (fun a hA => hAll a
        (List.mem_append_right _ (List.mem_cons_of_mem _ hA)))
        hPost q hQ hServed

/- A byte of the part that is to be zero. -/
theorem SegmentsApart.uncopied_zero
    (h : SegmentsApart phs)
    (hAll : ∀ ph ∈ phs, ph.Loads → ph.WellFormed buf size)
    (hMem : ph ∈ phs)
    (hLoads : ph.Loads)
    (hLow : ph.pFilesz.toNat ≤ k)
    (hHigh : k < ph.pMemsz.toNat) :
    Uncopied phs (ph.ramOffset + k) := by
  refine h.uncopied hAll hMem hLoads
    ⟨Nat.le_add_right _ _, Nat.add_lt_add_left hHigh _⟩ ?_
  intro _ j hj hEq
  omega

/- A file byte of a segment that another region serves. -/
theorem SegmentsApart.uncopied_elsewhere
    (h : SegmentsApart phs)
    (hAll : ∀ ph ∈ phs, ph.Loads → ph.WellFormed buf size)
    (hMem : ph ∈ phs)
    (hLoads : ph.Loads)
    (hNot : ¬ ph.Served)
    (hk : k < ph.pFilesz.toNat) :
    Uncopied phs (ph.ramOffset + k) :=
  h.uncopied hAll hMem hLoads
    ((hAll ph hMem hLoads).covers_file hk)
    (fun hServed => absurd hServed hNot)

/- The other segments after a copied byte. -/
theorem SegmentsApart.uncopied_post
    (h : SegmentsApart (pre ++ ph :: post))
    (hAll : ∀ q ∈ pre ++ ph :: post,
      q.Loads → q.WellFormed buf size)
    (hLoads : ph.Loads)
    (hk : k < ph.pFilesz.toNat) :
    Uncopied post (ph.ramOffset + k) := by
  have hPh : ph ∈ pre ++ ph :: post :=
    List.mem_append_right _ List.mem_cons_self
  have hIn := (hAll ph hPh hLoads).covers_file hk
  have hPost : ∀ q ∈ post, q.Loads → q.WellFormed buf size :=
    fun q hMem => hAll q (List.mem_append_right _
      (List.mem_cons_of_mem ph hMem))
  exact uncopied_of_not_covers hPost (h.others hLoads hIn).2

end RiscvEm

------------------------------------------------------------
-- Loading A File
------------------------------------------------------------

namespace RiscvEm

open ByteCodec

variable {buf : List Byte}
variable {phs : List ElfProgramHeader}
variable {r : MemoryRegion}

/-
  The segments are in place exactly if clearing the wrong
  bytes does no harm.
-/
theorem segmentsLoaded_iff
    (hAll : ∀ ph ∈ phs, ph.Loads → ph.WellFormed buf r.size)
    (hApart : SegmentsApart phs) :
    SegmentsLoaded buf phs r { r with
        data := overlay (ramPatches buf phs) r.data } ↔
      FillsHarmless buf r phs := by
  constructor
  · intro h
    refine ⟨?_, ?_, ?_, ?_⟩
    · rintro pre ph post rfl hServed k hk hCleared
      have hMem : ph ∈ pre ++ ph :: post :=
        List.mem_append_right _ List.mem_cons_self
      have hLost := (overlay_of_copied pre r.data
        (fun q hQ => hAll q (List.mem_append_right _ hQ))
        hServed hk
        (hApart.uncopied_post hAll hServed.1 hk)).1 hCleared
      exact (h.files ph hMem hServed.1 k hk).symm.trans hLost
    · intro ph hMem hLoads hNot k hk
      have hUncopied := hApart.uncopied_elsewhere hAll hMem
        hLoads hNot hk
      have hByte := h.files ph hMem hLoads k hk
      constructor
      · intro hCleared
        exact hByte.symm.trans
          (overlay_of_cleared hAll hUncopied hCleared)
      · intro hKept
        exact (overlay_of_not_cleared hAll hUncopied
          hKept).symm.trans hByte
    · intro ph hMem hLoads k hLow hHigh hKept
      have hUncopied := hApart.uncopied_zero hAll hMem hLoads
        hLow hHigh
      exact (overlay_of_not_cleared hAll hUncopied
        hKept).symm.trans (h.zeros ph hMem hLoads k hLow hHigh)
    · intro x hx hNone hCleared
      have hUncopied := uncopied_of_not_covers hAll hNone
      exact (h.others x hx hNone).symm.trans
        (overlay_of_cleared hAll hUncopied hCleared)
  · intro h
    refine ⟨?_, ?_, ?_⟩
    · intro ph hMem hLoads k hk
      by_cases hServed : ph.Served
      · rcases List.append_of_mem hMem with ⟨pre, post, rfl⟩
        have hCopied := overlay_of_copied pre r.data
          (fun q hQ => hAll q (List.mem_append_right _ hQ))
          hServed hk (hApart.uncopied_post hAll hLoads hk)
        by_cases hCleared :
            Cleared (ph :: post) (ph.ramOffset + k)
        · exact (hCopied.1 hCleared).trans (h.copied pre ph
            post rfl hServed k hk hCleared).symm
        · exact hCopied.2 hCleared
      · have hUncopied := hApart.uncopied_elsewhere hAll hMem
          hLoads hServed hk
        have hByte := h.elsewhere ph hMem hLoads hServed k hk
        by_cases hCleared : Cleared phs (ph.ramOffset + k)
        · exact (overlay_of_cleared hAll hUncopied
            hCleared).trans (hByte.1 hCleared).symm
        · exact (overlay_of_not_cleared hAll hUncopied
            hCleared).trans (hByte.2 hCleared)
    · intro ph hMem hLoads k hLow hHigh
      have hUncopied := hApart.uncopied_zero hAll hMem hLoads
        hLow hHigh
      by_cases hCleared : Cleared phs (ph.ramOffset + k)
      · exact overlay_of_cleared hAll hUncopied hCleared
      · exact (overlay_of_not_cleared hAll hUncopied
          hCleared).trans (h.zeros ph hMem hLoads k hLow hHigh
            hCleared)
    · intro x hx hNone
      have hUncopied := uncopied_of_not_covers hAll hNone
      by_cases hCleared : Cleared phs x
      · exact (overlay_of_cleared hAll hUncopied
          hCleared).trans (h.others x hx hNone hCleared).symm
      · exact overlay_of_not_cleared hAll hUncopied hCleared

/- A segment in RAM has room there. -/
theorem ElfProgramHeader.WellFormed.fillFits
    {ph : ElfProgramHeader}
    {size : BitVec 64}
    (h : ph.WellFormed buf size)
    (hBase : r.baseAddr = 0x80000000)
    (hSize : r.size = size) :
    FillFits buf ph r := by
  rw [← hSize] at h
  have hSizes := h.sizes
  have hHigh := h.high
  unfold ramOffset at hHigh
  rw [BitVec.le_def] at hSizes
  refine ⟨fun _ => h.file, ?_, ?_⟩
  · intro _
    unfold MemoryRegion.Fits
    rw [hBase]
    omega
  · intro hNe
    rw [BitVec.lt_def, BitVec.le_def]
    have hNat : ph.pMemsz.toNat ≠ ph.pFilesz.toNat :=
      fun hEq => hNe (BitVec.eq_of_toNat_eq hEq)
    omega

theorem loadSegments_accepts
    (phs : List ElfProgramHeader)
    {m : MemoryMap}
    {r : MemoryRegion}
    {size : BitVec 64}
    (hAll : ∀ ph ∈ phs, ph.Loads → ph.WellFormed buf size)
    (hHigh : ∀ ph ∈ phs, ph.Loads → 0x80000000 ≤ ph.pVaddr)
    (hRam : m.ramRegion = some r)
    (hBase : r.baseAddr = 0x80000000)
    (hSize : r.size = size) :
    ∃ m', m.loadSegments buf phs = .ok m' := by
  induction phs generalizing m r with
  | nil => exact ⟨m, rfl⟩
  | cons ph phs ih =>
      have hStep : ∃ m₁, m.loadSegment buf ph = .ok m₁ := by
        unfold MemoryMap.loadSegment
        by_cases hLoads : ph.pType = ELF_PT_LOAD
        · have hVaddr := hHigh ph List.mem_cons_self hLoads
          have hFits := (hAll ph List.mem_cons_self
            hLoads).fillFits hBase hSize
          have hSame : m.withSegment ph = m :=
            if_neg (BitVec.not_lt.mpr hVaddr)
          rw [if_neg (not_not.mpr hLoads), hSame]
          rcases MemoryMap.updateRegion_ram hVaddr hRam
            (fillSegment_eq_ok_iff.mpr ⟨hFits, rfl⟩) with
              ⟨m₁, hUpdate, -⟩
          exact ⟨m₁, hUpdate⟩
        · exact ⟨m, if_pos hLoads⟩
      rcases hStep with ⟨m₁, hFirst⟩
      have hAfter := loadSegment_ram hRam hBase hFirst
      rcases ih (fun q hMem => hAll q
          (List.mem_cons_of_mem ph hMem))
        (fun q hMem => hHigh q (List.mem_cons_of_mem ph hMem))
        hAfter hBase hSize with ⟨m', hRest⟩
      exact ⟨m', bind_eq_ok.mpr ⟨m₁, hFirst, hRest⟩⟩

/- A file of class 2 is not taken for one of class 1. -/
theorem WellFormedElf.not_refused
    {size : BitVec 64}
    (h : WellFormedElf buf size)
    (locals : ElfLocals) :
    ¬ (headerAt buf 0).Refused locals := by
  rintro (hMagic | hClass | hMachine)
  · exact hMagic h.magic
  · rw [h.class64] at hClass
    have hBit := congrArg (fun w => w.getLsbD 1) hClass
    rw [BitVec.getLsbD_or, (by decide : (BitVec.setWidth 32
      (2 : BitVec 8)).getLsbD 1 = true), Bool.or_true] at hBit
    exact absurd hBit (by decide)
  · exact hMachine h.machine

/-
  A well-formed file with virtual addresses in RAM is
  accepted.
-/
theorem WellFormedElf.accepted
    {m : MemoryMap}
    {locals : ElfLocals}
    (h : WellFormedElf buf r.size)
    (hOffset : locals.offset = 0)
    (hTables : TablesFit buf (headerAt buf 0))
    (hHigh : ∀ ph ∈ segmentsOf buf (headerAt buf 0),
      ph.Loads → 0x80000000 ≤ ph.pVaddr)
    (hRam : m.ramRegion = some r)
    (hBase : r.baseAddr = 0x80000000) :
    ∃ m', m.parseElf locals buf =
      .ok (some (headerAt buf 0).eEntry, m') := by
  rcases loadSegments_accepts _ h.segments hHigh hRam
    hBase rfl with ⟨m', hLoad⟩
  have hStart : locals.offset.toNat = 0 := by
    rw [hOffset]
    rfl
  have hHeader : locals.offset.toNat + 64 ≤ buf.length := by
    rw [hStart]
    exact h.header
  have hParse := parseElf_eq (m := m) hHeader
    (hStart ▸ h.not_refused locals) (hStart ▸ hTables)
  rw [hParse, hStart]
  exact ⟨m', bind_eq_ok.mpr ⟨m', hLoad, rfl⟩⟩

/-
  After the parser accepted a well-formed file, RAM holds its
  segments exactly if clearing the wrong bytes did no harm.
-/
theorem elf_loaded_iff
    (m m' : MemoryMap)
    (r : MemoryRegion)
    (locals : ElfLocals)
    (buf : List Byte)
    (entry : BitVec 64)
    (hOffset : locals.offset = 0)
    (hRam : m.ramRegion = some r)
    (hBase : r.baseAddr = 0x80000000)
    (hElf : WellFormedElf buf r.size)
    (h : m.parseElf locals buf = .ok (some entry, m')) :
    (∃ r', m'.ramRegion = some r' ∧
        ElfLoaded buf r r' entry) ↔
      FillsHarmless buf r
        (segmentsOf buf (headerAt buf 0)) := by
  rcases parseElf_some h with ⟨-, hLoad, hEntry⟩
  rw [hOffset] at hLoad hEntry
  have hAfter := loadSegments_ram _ hRam hBase hLoad
  rw [← segmentsLoaded_iff hElf.segments hElf.disjoint]
  constructor
  · rintro ⟨r', hEq, hLoaded⟩
    rw [hAfter] at hEq
    cases hEq
    exact hLoaded.segments
  · intro hSegments
    exact ⟨_, hAfter, hSegments, hEntry⟩

end RiscvEm

------------------------------------------------------------
-- Two Files
------------------------------------------------------------

namespace RiscvEm

open ByteCodec

/- A number of `n` bytes, in the order of the file. -/
def leBytes
    (n value : Nat) : List Byte :=
  (List.range n).map fun i =>
    BitVec.ofNat 8 (value / 256 ^ i)

/- A file that starts at the begin of RAM. -/
def elfFile
    (phs : List ElfProgramHeader)
    (contents : List Byte) : List Byte :=
  leBytes 4 0x464C457F ++ [2, 1, 1, 0] ++ leBytes 8 0 ++
    leBytes 2 2 ++ leBytes 2 0xF3 ++ leBytes 4 1 ++
    leBytes 8 0x80000000 ++ leBytes 8 64 ++ leBytes 8 0 ++
    leBytes 4 0 ++ leBytes 2 64 ++ leBytes 2 56 ++
    leBytes 2 phs.length ++ leBytes 2 64 ++ leBytes 2 0 ++
    leBytes 2 0 ++
    phs.flatMap (fun ph =>
      leBytes 4 ph.pType.toNat ++ leBytes 4 7 ++
        leBytes 8 ph.pOffset.toNat ++
        leBytes 8 ph.pVaddr.toNat ++
        leBytes 8 ph.pPaddr.toNat ++
        leBytes 8 ph.pFilesz.toNat ++
        leBytes 8 ph.pMemsz.toNat ++ leBytes 8 4) ++
    contents

theorem elfFile_length
    (phs : List ElfProgramHeader)
    (contents : List Byte) :
    (elfFile phs contents).length =
      64 + 56 * phs.length + contents.length := by
  have hHeaders : (phs.flatMap (fun ph =>
      leBytes 4 ph.pType.toNat ++ leBytes 4 7 ++
        leBytes 8 ph.pOffset.toNat ++
        leBytes 8 ph.pVaddr.toNat ++
        leBytes 8 ph.pPaddr.toNat ++
        leBytes 8 ph.pFilesz.toNat ++
        leBytes 8 ph.pMemsz.toNat ++ leBytes 8 4)).length =
      56 * phs.length := by
    induction phs with
    | nil => rfl
    | cons ph phs ih =>
        rw [List.flatMap_cons, List.length_append, ih]
        simp [leBytes]
        omega
  unfold elfFile
  rw [List.length_append, List.length_append, hHeaders]
  simp [leBytes]

/- The header of such a file. -/
def elfFileHeader
    (count : BitVec 16) : ElfHeader :=
  { magic := ELF_MAGIC
    eClass := 2
    eMachine := ELF_RISCV
    eEntry := 0x80000000
    ePhoff := 64
    eShoff := 0
    ePhnum := count
    eShnum := 0 }

/- Two segments apart make a file well formed. -/
theorem pair_wellFormed
    {buf : List Byte}
    {size : BitVec 64}
    {ph ph' : ElfProgramHeader}
    (hLong : 64 ≤ buf.length)
    (hHeader : headerAt buf 0 = elfFileHeader 2)
    (hSegments : segmentsOf buf (headerAt buf 0) = [ph, ph'])
    (hFirst : ph.WellFormed buf size)
    (hSecond : ph'.WellFormed buf size)
    (hApart : ∀ x, ph.Covers x → ¬ ph'.Covers x) :
    WellFormedElf buf size := by
  refine ⟨hLong, ?_, ?_, ?_, ?_, ?_⟩
  · rw [hHeader]
    rfl
  · rw [hHeader]
    rfl
  · rw [hHeader]
    rfl
  · rw [hSegments]
    exact List.forall_mem_cons.mpr ⟨fun _ => hFirst,
      List.forall_mem_singleton.mpr fun _ => hSecond⟩
  · rw [hSegments]
    exact List.pairwise_cons.mpr
      ⟨List.forall_mem_singleton.mpr fun _ _ => hApart,
        List.pairwise_singleton _ _⟩

/-
  Four bytes at the begin of RAM with four zeros, and a byte
  behind them.
-/
def bssSegments : List ElfProgramHeader :=
  [ { pType := ELF_PT_LOAD
      pOffset := 176
      pVaddr := 0x80000000
      pPaddr := 0x80000000
      pFilesz := 4
      pMemsz := 8 },
    { pType := ELF_PT_LOAD
      pOffset := 180
      pVaddr := 0x80000100
      pPaddr := 0x80000100
      pFilesz := 1
      pMemsz := 1 } ]

def bssFile : List Byte :=
  elfFile bssSegments [0x73, 0x00, 0x50, 0x10, 0x2A]

theorem bssFile_contents :
    headerAt bssFile 0 = elfFileHeader 2 ∧
      segmentsOf bssFile (elfFileHeader 2) = bssSegments := by
  decide +kernel

theorem bssFile_segments :
    segmentsOf bssFile (headerAt bssFile 0) =
      bssSegments := by
  rw [bssFile_contents.1]
  exact bssFile_contents.2

theorem bssFile_length :
    bssFile.length = 181 :=
  elfFile_length bssSegments _

theorem bssFile_wellFormed :
    WellFormedElf bssFile 0x1000 := by
  have hLength := bssFile_length
  refine pair_wellFormed (by omega) bssFile_contents.1
    bssFile_segments ?_ ?_ ?_
  · refine ⟨by decide, ?_, by decide, by decide⟩
    rw [hLength]
    decide
  · refine ⟨by decide, ?_, by decide, by decide⟩
    rw [hLength]
    decide
  · rintro x ⟨-, hFirst⟩ ⟨hSecond, -⟩
    have hHigh : x < 0 + 8 := hFirst
    have hLow : 0x100 ≤ x := hSecond
    omega

/- The page before a file is loaded. -/
def emptyPage : MemoryRegion :=
  ⟨0x80000000, 0x1000, fun _ => 0⟩

theorem bssFile_parse :
    ∃ m', pageOfRam.parseElf ⟨0, 0⟩ bssFile =
      .ok (some (headerAt bssFile 0).eEntry, m') := by
  have hTables : TablesFit bssFile (headerAt bssFile 0) := by
    rw [bssFile_contents.1]
    unfold TablesFit TableFits
    rw [bssFile_length]
    decide
  refine WellFormedElf.accepted (r := emptyPage)
    bssFile_wellFormed rfl hTables ?_ rfl rfl
  rw [bssFile_segments]
  exact List.forall_mem_cons.mpr ⟨fun _ => by decide,
    List.forall_mem_singleton.mpr fun _ => by decide⟩

/- The bytes that are cleared lie behind the first four. -/
theorem cleared_bss
    {x : Nat}
    (h : Cleared bssSegments x) :
    4 ≤ x ∧ x < 8 := by
  rcases h with ⟨ph, hMem, -, hLow, hHigh⟩
  rcases List.mem_cons.mp hMem with rfl | hMem
  · exact ⟨hLow, hHigh⟩
  · cases List.mem_singleton.mp hMem
    have hLow' : 1 ≤ x := hLow
    have hHigh' : x < 1 := hHigh
    omega

theorem bssFile_harmless :
    FillsHarmless bssFile emptyPage
      (segmentsOf bssFile (headerAt bssFile 0)) := by
  rw [bssFile_segments]
  refine ⟨?_, ?_, fun _ _ _ _ _ _ _ => rfl,
    fun _ _ _ _ => rfl⟩
  · rintro pre ph post hSplit hServed k hk ⟨q, hMem, hQ⟩
    have hQMem : q ∈ bssSegments := by
      rw [hSplit]
      exact List.mem_append_right _ hMem
    have hAt := cleared_bss ⟨q, hQMem, hQ⟩
    have hPh : ph ∈ bssSegments := by
      rw [hSplit]
      exact List.mem_append_right _ List.mem_cons_self
    rcases List.mem_cons.mp hPh with rfl | hPh
    · have hLow : 4 ≤ 0 + k := hAt.1
      have hHigh : k < 4 := hk
      omega
    · cases List.mem_singleton.mp hPh
      have hHigh : 0x100 + k < 8 := hAt.2
      omega
  · intro ph hMem hLoads hNot
    refine absurd ?_ hNot
    rcases List.mem_cons.mp hMem with rfl | hMem
    · decide
    · cases List.mem_singleton.mp hMem
      decide

/- At the begin of RAM the right bytes are cleared. -/
theorem elf_loaded_bss :
    ∃ m' r', pageOfRam.parseElf ⟨0, 0⟩ bssFile =
        .ok (some (headerAt bssFile 0).eEntry, m') ∧
      m'.ramRegion = some r' ∧
      ElfLoaded bssFile emptyPage r'
        (headerAt bssFile 0).eEntry := by
  rcases bssFile_parse with ⟨m', hParse⟩
  rcases (elf_loaded_iff pageOfRam m' emptyPage ⟨0, 0⟩
    bssFile _ rfl rfl rfl bssFile_wellFormed hParse).mpr
      bssFile_harmless with ⟨r', hLoaded⟩
  exact ⟨m', r', hParse, hLoaded⟩

/- The second segment clears three bytes of the first one. -/
def twoSegments : List ElfProgramHeader :=
  [ { pType := ELF_PT_LOAD
      pOffset := 176
      pVaddr := 0x80000000
      pPaddr := 0x80000000
      pFilesz := 4
      pMemsz := 4 },
    { pType := ELF_PT_LOAD
      pOffset := 180
      pVaddr := 0x80000100
      pPaddr := 0x80000100
      pFilesz := 1
      pMemsz := 4 } ]

def twoSegmentFile : List Byte :=
  elfFile twoSegments [0x73, 0x00, 0x50, 0x10, 0x2A]

theorem twoSegmentFile_contents :
    headerAt twoSegmentFile 0 = elfFileHeader 2 ∧
      segmentsOf twoSegmentFile (elfFileHeader 2) =
        twoSegments := by
  decide +kernel

theorem twoSegmentFile_header :
    headerAt twoSegmentFile 0 = elfFileHeader 2 :=
  twoSegmentFile_contents.1

theorem twoSegmentFile_segments :
    segmentsOf twoSegmentFile (headerAt twoSegmentFile 0) =
      twoSegments := by
  rw [twoSegmentFile_header]
  exact twoSegmentFile_contents.2

theorem twoSegmentFile_length :
    twoSegmentFile.length = 181 :=
  elfFile_length twoSegments _

theorem twoSegmentFile_wellFormed :
    WellFormedElf twoSegmentFile 0x1000 := by
  have hLength := twoSegmentFile_length
  refine pair_wellFormed (by omega) twoSegmentFile_header
    twoSegmentFile_segments ?_ ?_ ?_
  · refine ⟨by decide, ?_, by decide, by decide⟩
    rw [hLength]
    decide
  · refine ⟨by decide, ?_, by decide, by decide⟩
    rw [hLength]
    decide
  · rintro x ⟨-, hFirst⟩ ⟨hSecond, -⟩
    have hHigh : x < 0 + 4 := hFirst
    have hLow : 0x100 ≤ x := hSecond
    omega

theorem twoSegmentFile_parse :
    ∃ m', pageOfRam.parseElf ⟨0, 0⟩ twoSegmentFile =
      .ok (some (headerAt twoSegmentFile 0).eEntry, m') := by
  have hTables : TablesFit twoSegmentFile
      (headerAt twoSegmentFile 0) := by
    rw [twoSegmentFile_header]
    unfold TablesFit TableFits
    rw [twoSegmentFile_length]
    decide
  refine WellFormedElf.accepted (r := emptyPage)
    twoSegmentFile_wellFormed rfl hTables ?_ rfl rfl
  rw [twoSegmentFile_segments]
  exact List.forall_mem_cons.mpr ⟨fun _ => by decide,
    List.forall_mem_singleton.mpr fun _ => by decide⟩

/- The third byte of the program is lost. -/
theorem elf_not_loaded_two_segments :
    WellFormedElf twoSegmentFile emptyPage.size ∧
      ∃ m', pageOfRam.parseElf ⟨0, 0⟩ twoSegmentFile =
          .ok (some (headerAt twoSegmentFile 0).eEntry, m') ∧
        ¬ ∃ r', m'.ramRegion = some r' ∧
          ElfLoaded twoSegmentFile emptyPage r'
            (headerAt twoSegmentFile 0).eEntry := by
  rcases twoSegmentFile_parse with ⟨m', hParse⟩
  refine ⟨twoSegmentFile_wellFormed, m', hParse, ?_⟩
  rintro ⟨r', hRegion, hLoaded⟩
  have hLoad := (parseElf_some hParse).2.1
  have hStart : (⟨0, 0⟩ : ElfLocals).offset.toNat = 0 := rfl
  rw [hStart, twoSegmentFile_segments] at hLoad
  have hAfter := loadSegments_ram _ (r := emptyPage) rfl rfl
    hLoad
  rw [hRegion] at hAfter
  cases hAfter
  have hFiles := hLoaded.segments.files
  rw [twoSegmentFile_segments] at hFiles
  have hByte := hFiles _ List.mem_cons_self rfl 2 (by decide)
  have hBytes : overlay (ramPatches twoSegmentFile twoSegments)
      (fun _ => 0) 2 = 0 ∧
        twoSegmentFile.getD (176 + 2) 0 = 0x50 := by
    decide +kernel
  exact absurd (hBytes.1.symm.trans (hByte.trans hBytes.2))
    (by decide)

end RiscvEm
