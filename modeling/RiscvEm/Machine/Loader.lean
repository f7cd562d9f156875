import RiscvEm.Fdt.Tree
import RiscvEm.Memory.Mmio

/-
  Loading images into guest memory: raw files, ELF files and
  the device tree.

  Two locals of the ELF parser are read before they are
  assigned, and memory from `malloc` is not cleared; what they
  hold is an input here.

  Key definitions include:
    * `MemoryMap.loadBuffer`
    * `BootFiles`
    * `MemoryMap.bootMemory`

  Key theorems include `bootMemory_sameRam`.
-/

------------------------------------------------------------
-- Buffers And Regions
------------------------------------------------------------

namespace RiscvEm

open ByteCodec

/- Read a part of a host buffer. -/
def bufferBytes
    (buf : List Byte)
    (off n : Nat) : Except HostFault (List Byte) :=
  if n = 0 then
    .ok []
  else if off + n ≤ buf.length then
    .ok ((buf.drop off).take n)
  else
    .error .outOfBounds

/- A field of a structure that was read from a buffer. -/
def field
    (bs : List Byte)
    (off n : Nat) : BitVec 64 :=
  composeLe (fun i => bs.getD i 0) off n

namespace MemoryRegion

/- Copy bytes to an offset of the array. -/
def memcpy
    (r : MemoryRegion)
    (dst : Nat)
    (bs : List Byte) : Except HostFault MemoryRegion :=
  if bs = [] then
    .ok r
  else if dst + bs.length ≤ r.size.toNat then
    .ok { r with
      data := fun i =>
        if dst ≤ i ∧ i < dst + bs.length then
          bs.getD (i - dst) 0
        else
          r.data i }
  else
    .error .outOfBounds

/- Clear `n` bytes from an offset on. -/
def memset
    (r : MemoryRegion)
    (dst n : Nat) : Except HostFault MemoryRegion :=
  if n = 0 then
    .ok r
  else if dst + n ≤ r.size.toNat then
    .ok { r with
      data := fun i =>
        if dst ≤ i ∧ i < dst + n then 0 else r.data i }
  else
    .error .outOfBounds

variable {r r' : MemoryRegion}
variable {dst n : Nat}
variable {bs : List Byte}

/- What a copy needs, and what it does. -/
theorem memcpy_eq_ok_iff :
    r.memcpy dst bs = .ok r' ↔
      (bs = [] ∨ dst + bs.length ≤ r.size.toNat) ∧
        r' = { r with
          data := window r.data dst (dst + bs.length) bs } := by
  unfold memcpy
  by_cases hNil : bs = []
  · have hSame : window r.data dst (dst + bs.length) bs =
        r.data := by
      funext i
      rw [hNil, List.length_nil, Nat.add_zero]
      exact if_neg (fun h => absurd h.1 (by omega))
    rw [if_pos hNil, hSame, and_iff_right (Or.inl hNil),
      Except.ok.injEq]
    exact eq_comm
  · rw [if_neg hNil, or_iff_right hNil]
    by_cases hFit : dst + bs.length ≤ r.size.toNat
    · rw [if_pos hFit, and_iff_right hFit, Except.ok.injEq]
      exact eq_comm
    · rw [if_neg hFit]
      exact iff_of_false nofun (fun h => hFit h.1)

/- Clearing a part of a region that lies inside of it. -/
theorem memset_eq_ok_iff :
    r.memset dst n = .ok r' ↔
      (n = 0 ∨ dst + n ≤ r.size.toNat) ∧
        r' = { r with
          data := window r.data dst (dst + n) [] } := by
  unfold memset
  by_cases hZero : n = 0
  · have hSame : window r.data dst (dst + n) [] = r.data :=
      window_nil_of_zero fun i hLow hHigh => by omega
    rw [if_pos hZero, hSame, and_iff_right (Or.inl hZero),
      Except.ok.injEq]
    exact eq_comm
  · rw [if_neg hZero, or_iff_right hZero]
    by_cases hFit : dst + n ≤ r.size.toNat
    · rw [if_pos hFit, and_iff_right hFit, Except.ok.injEq]
      exact eq_comm
    · rw [if_neg hFit]
      exact iff_of_false nofun (fun h => hFit h.1)

end MemoryRegion

/- Change the region that serves an address. -/
def MemoryMap.updateRegion
    (m : MemoryMap)
    (addr : BitVec 64)
    (f : MemoryRegion → Except HostFault MemoryRegion) :
    Except HostFault MemoryMap := do
  let i ← m.findRegion addr
  match m.regions[i]? with
  | none => .error .outOfBounds
  | some r =>
      let r' ← f r
      .ok { m with regions := m.regions.set i r' }

end RiscvEm

------------------------------------------------------------
-- ELF Files
------------------------------------------------------------

namespace RiscvEm

open ByteCodec

def ELF_MAGIC : BitVec 32 := 0x464C457F
def ELF_RISCV : BitVec 16 := 0xF3
def ELF_PT_LOAD : BitVec 32 := 1

/- The fields of the header that the parser uses. -/
structure ElfHeader where
  magic : BitVec 32
  eClass : BitVec 8
  eMachine : BitVec 16
  eEntry : BitVec 64
  ePhoff : BitVec 64
  eShoff : BitVec 64
  ePhnum : BitVec 16
  eShnum : BitVec 16
  deriving DecidableEq, Repr

structure ElfProgramHeader where
  pType : BitVec 32
  pOffset : BitVec 64
  pVaddr : BitVec 64
  pPaddr : BitVec 64
  pFilesz : BitVec 64
  pMemsz : BitVec 64
  deriving DecidableEq, Repr

def readElfHeader
    (buf : List Byte)
    (offset : BitVec 64) : Except HostFault ElfHeader := do
  let bs ← bufferBytes buf offset.toNat 64
  .ok
    { magic := (field bs 0 4).setWidth 32
      eClass := (field bs 4 1).setWidth 8
      eMachine := (field bs 18 2).setWidth 16
      eEntry := field bs 24 8
      ePhoff := field bs 32 8
      eShoff := field bs 40 8
      ePhnum := (field bs 56 2).setWidth 16
      eShnum := (field bs 60 2).setWidth 16 }

def readProgramHeaders
    (buf : List Byte) :
    Nat → BitVec 64 →
      Except HostFault (List ElfProgramHeader)
  | 0, _ => .ok []
  | n + 1, offset => do
      let bs ← bufferBytes buf offset.toNat 56
      let rest ← readProgramHeaders buf n (offset + 56)
      .ok ({ pType := (field bs 0 4).setWidth 32
             pOffset := field bs 8 8
             pVaddr := field bs 16 8
             pPaddr := field bs 24 8
             pFilesz := field bs 32 8
             pMemsz := field bs 40 8 } :: rest)

/- Section headers are read and not used. -/
def readSectionHeaders
    (buf : List Byte) :
    Nat → BitVec 64 → Except HostFault Unit
  | 0, _ => .ok ()
  | n + 1, offset => do
      let _ ← bufferBytes buf offset.toNat 64
      readSectionHeaders buf n (offset + 64)

/-
  A segment goes to the region of its virtual address, at the
  offset of its physical address. The rest of its size is
  cleared from the file size on, counted from the begin of
  the region.
-/
def fillSegment
    (buf : List Byte)
    (ph : ElfProgramHeader)
    (r : MemoryRegion) : Except HostFault MemoryRegion := do
  let bs ← bufferBytes buf ph.pOffset.toNat ph.pFilesz.toNat
  let r ← r.memcpy (ph.pPaddr - r.baseAddr).toNat bs
  r.memset ph.pFilesz.toNat (ph.pMemsz - ph.pFilesz).toNat

/- Segments below RAM get a region of their own. -/
def MemoryMap.withSegment
    (m : MemoryMap)
    (ph : ElfProgramHeader) : MemoryMap :=
  if ph.pVaddr < 0x80000000 then
    m.addRegion ph.pVaddr ph.pMemsz
  else
    m

def MemoryMap.loadSegment
    (m : MemoryMap)
    (buf : List Byte)
    (ph : ElfProgramHeader) : Except HostFault MemoryMap :=
  if ph.pType ≠ ELF_PT_LOAD then
    .ok m
  else
    (m.withSegment ph).updateRegion ph.pVaddr
      (fillSegment buf ph)

def MemoryMap.loadSegments
    (m : MemoryMap)
    (buf : List Byte) :
    List ElfProgramHeader → Except HostFault MemoryMap
  | [] => .ok m
  | ph :: phs => do
      let m ← m.loadSegment buf ph
      m.loadSegments buf phs

/-
  What the locals `offset` and `v8` hold before they are
  assigned; of `v8` only the low byte is then assigned.
-/
structure ElfLocals where
  offset : BitVec 64
  v8 : BitVec 32

/- The entry point, or nothing if the file is refused. -/
def MemoryMap.parseElf
    (m : MemoryMap)
    (locals : ElfLocals)
    (buf : List Byte) :
    Except HostFault (Option (BitVec 64) × MemoryMap) := do
  let header ← readElfHeader buf locals.offset
  let v8 := (locals.v8 &&& ~~~0xFF) |||
    header.eClass.setWidth 32
  if header.magic ≠ ELF_MAGIC ∨ v8 = 1 ∨
      header.eMachine ≠ ELF_RISCV then
    .ok (none, m)
  else
    let phs ← readProgramHeaders buf header.ePhnum.toNat
      header.ePhoff
    readSectionHeaders buf header.eShnum.toNat header.eShoff
    let m ← m.loadSegments buf phs
    .ok (some header.eEntry, m)

end RiscvEm

------------------------------------------------------------
-- Booting
------------------------------------------------------------

namespace RiscvEm

open ByteCodec

/- What was loaded: whether it was accepted, and its entry. -/
structure Loaded where
  accepted : Bool
  entry : Option (BitVec 64)
  mem : MemoryMap

def MemoryMap.loadBuffer
    (m : MemoryMap)
    (locals : ElfLocals)
    (path : BitVec 64)
    (buf : List Byte)
    (size : Nat) : Except HostFault Loaded := do
  let start ← bufferBytes buf 0 4
  if (field start 0 4).setWidth 32 = ELF_MAGIC then
    let (entry, m) ← m.parseElf locals buf
    .ok ⟨entry.isSome, entry, m⟩
  else
    let bs ← bufferBytes buf 0 size
    let m ← m.updateRegion path (fun r => do
      let off ← r.ptr path
      r.memcpy off bs)
    .ok ⟨true, none, m⟩

/- The files of a machine, and what is left uninitialised. -/
structure BootFiles where
  bios : List Byte
  kernel : Option (List Byte)
  dtb : Option (List Byte)
  fdt : Fdt.Node
  locals : ElfLocals
  heap : Bytes

/- A file is read into a buffer with a terminator. -/
def MemoryMap.loadImage
    (m : MemoryMap)
    (locals : ElfLocals)
    (path : BitVec 64)
    (file : List Byte) : Except HostFault MemoryMap := do
  let loaded ← m.loadBuffer locals path (file ++ [0])
    file.length
  .ok loaded.mem

def dtbPath
    (memorySize : BitVec 64) : BitVec 64 :=
  0x80000000 + memorySize - 0x20000

/- The serialized tree, in a buffer of its size. -/
def fdtBlob
    (files : BootFiles) :
    Except HostFault (List Byte × Nat) := do
  let dtbSize := (Fdt.sizeOfTree files.fdt).toNat
  let (size, buffer) ← Fdt.serialize files.fdt
    (some ⟨files.heap, dtbSize⟩) 0x1000 0
  match buffer with
  | none => .error .outOfBounds
  | some b => .ok (slice b.data 0 dtbSize, size.toNat)

def MemoryMap.writeFdt
    (m : MemoryMap)
    (files : BootFiles)
    (memorySize : BitVec 64) :
    Except HostFault MemoryMap :=
  match files.dtb with
  | some dtb =>
      m.loadImage files.locals (dtbPath memorySize) dtb
  | none => do
      let (blob, size) ← fdtBlob files
      let loaded ← m.loadBuffer files.locals
        (dtbPath memorySize) blob size
      .ok loaded.mem

def MemoryMap.resetMemory
    (m : MemoryMap) : MemoryMap :=
  { m with
    regions := m.regions.map (fun r =>
      { r with data := fun _ => 0 }) }

def MemoryMap.loadKernel
    (m : MemoryMap)
    (files : BootFiles) : Except HostFault MemoryMap :=
  match files.kernel with
  | some kernel =>
      m.loadImage files.locals 0x80200000 kernel
  | none => .ok m

/- Memory as a reset leaves it. -/
def MemoryMap.bootMemory
    (m : MemoryMap)
    (files : BootFiles)
    (memorySize : BitVec 64) :
    Except HostFault MemoryMap := do
  let m ← m.resetMemory.loadImage files.locals 0x80000000
    files.bios
  let m ← m.loadKernel files
  m.writeFdt files memorySize

end RiscvEm

------------------------------------------------------------
-- RAM And The Other Regions
------------------------------------------------------------

namespace RiscvEm

open ByteCodec

/- The region `ram_direct` points to, if there is one. -/
def MemoryMap.ramRegion
    (m : MemoryMap) : Option MemoryRegion :=
  m.ramDirect.bind (m.regions[·]?)

/- RAM is where `init_mmap` puts it. -/
def MemoryMap.RamInPlace
    (m : MemoryMap) : Prop :=
  ∃ r, m.ramRegion = some r ∧ r.baseAddr = 0x80000000

/- Both maps have RAM, with the same contents. -/
def SameRam
    (m₁ m₂ : MemoryMap) : Prop :=
  ∃ r, m₁.ramRegion = some r ∧ m₂.ramRegion = some r ∧
    r.baseAddr = 0x80000000

/- A change of a region that leaves it in its place. -/
def InPlace
    (f : MemoryRegion → Except HostFault MemoryRegion) :
    Prop :=
  ∀ {r r'}, f r = .ok r' → r'.baseAddr = r.baseAddr

variable {m m' m₁ m₂ m₁' m₂' : MemoryMap}
variable {addr : BitVec 64}
variable {f : MemoryRegion → Except HostFault MemoryRegion}

/- An update of a region leaves the others. -/
theorem MemoryMap.updateRegion_cases
    (h : m.updateRegion addr f = .ok m') :
    ∃ i r r', m.findRegion addr = .ok i ∧
      m.regions[i]? = some r ∧ f r = .ok r' ∧
      m' = { m with regions := m.regions.set i r' } := by
  rcases bind_eq_ok.mp h with ⟨i, hFind, h⟩
  cases hGet : m.regions[i]? with
  | none =>
      rw [hGet] at h
      cases h
  | some r =>
      rw [hGet] at h
      rcases bind_eq_ok.mp h with ⟨r', hf, hEq⟩
      cases hEq
      exact ⟨i, r, r', hFind, hGet, hf, rfl⟩

/- An address from 2 GiB on is served by RAM. -/
theorem MemoryMap.updateRegion_high
    (hHigh : 0x80000000 ≤ addr)
    (h : m.updateRegion addr f = .ok m') :
    ∃ r r', m.ramRegion = some r ∧ f r = .ok r' ∧
      m'.ramRegion = some r' := by
  rcases updateRegion_cases h with
    ⟨i, r, r', hFind, hGet, hf, rfl⟩
  have hLt := (List.getElem?_eq_some_iff.mp hGet).1
  unfold findRegion at hFind
  rw [if_pos hHigh] at hFind
  cases hRam : m.ramDirect with
  | none =>
      rw [hRam] at hFind
      cases hFind
  | some j =>
      rw [hRam] at hFind
      cases hFind
      refine ⟨r, r', ?_, hf, ?_⟩
      · unfold ramRegion
        rw [hRam]
        exact hGet
      · unfold ramRegion
        dsimp only
        exact List.getElem?_set_self hLt

/- A change of RAM, by an address from 2 GiB on. -/
theorem MemoryMap.updateRegion_ram
    {r r' : MemoryRegion}
    (hHigh : 0x80000000 ≤ addr)
    (hRam : m.ramRegion = some r)
    (hf : f r = .ok r') :
    ∃ m', m.updateRegion addr f = .ok m' ∧
      m'.ramRegion = some r' := by
  rcases Option.bind_eq_some_iff.mp hRam with
    ⟨i, hDirect, hGet⟩
  have hLt := (List.getElem?_eq_some_iff.mp hGet).1
  have hFind : m.findRegion addr = .ok i := by
    unfold findRegion
    rw [if_pos hHigh, hDirect]
  refine ⟨{ m with regions := m.regions.set i r' }, ?_, ?_⟩
  · refine bind_eq_ok.mpr ⟨i, hFind, ?_⟩
    rw [hGet]
    exact bind_eq_ok.mpr ⟨r', hf, rfl⟩
  · unfold ramRegion
    dsimp only
    rw [hDirect]
    exact List.getElem?_set_self hLt

/- An address below is served by another region. -/
theorem MemoryMap.updateRegion_low
    (hRam : m.RamInPlace)
    (hLow : ¬ 0x80000000 ≤ addr)
    (h : m.updateRegion addr f = .ok m') :
    m'.ramRegion = m.ramRegion := by
  rcases updateRegion_cases h with
    ⟨i, r, r', hFind, hGet, hf, rfl⟩
  unfold findRegion at hFind
  rw [if_neg hLow] at hFind
  have hIn : r.contains addr = true := by
    split at hFind
    case h_1 j hIdx =>
      cases hFind
      have hSome := List.findIdx?_eq_some_iff_getElem.mp hIdx
      rcases hSome with ⟨hLt, hContains, -⟩
      rw [List.getElem?_eq_getElem hLt] at hGet
      cases hGet
      exact hContains
    case h_2 => cases hFind
  rcases hRam with ⟨ram, hRegion, hBase⟩
  unfold ramRegion at hRegion ⊢
  cases hDirect : m.ramDirect with
  | none => rfl
  | some j =>
      dsimp only
      rw [hDirect] at hRegion
      change m.regions[j]? = some ram at hRegion
      change (m.regions.set i r')[j]? = m.regions[j]?
      have hNe : i ≠ j := by
        intro hEq
        rw [hEq, hRegion] at hGet
        cases hGet
        unfold MemoryRegion.contains at hIn
        rw [Bool.and_eq_true, decide_eq_true_iff, hBase] at hIn
        exact hLow hIn.1
      exact List.getElem?_set_ne hNe

/- Both machines have RAM where it belongs. -/
theorem SameRam.ramInPlace
    (h : SameRam m₁ m₂) :
    m₁.RamInPlace ∧ m₂.RamInPlace := by
  rcases h with ⟨r, h₁, h₂, hBase⟩
  exact ⟨⟨r, h₁, hBase⟩, ⟨r, h₂, hBase⟩⟩

/- The same update keeps the RAM equal. -/
theorem SameRam.updateRegion
    (h : SameRam m₁ m₂)
    (hf : InPlace f)
    (h₁ : m₁.updateRegion addr f = .ok m₁')
    (h₂ : m₂.updateRegion addr f = .ok m₂') :
    SameRam m₁' m₂' := by
  have hRam := h.ramInPlace
  rcases h with ⟨r, hOne, hTwo, hBase⟩
  by_cases hHigh : 0x80000000 ≤ addr
  · rcases MemoryMap.updateRegion_high hHigh h₁ with
      ⟨a, a', hA, hFa, hA'⟩
    rcases MemoryMap.updateRegion_high hHigh h₂ with
      ⟨b, b', hB, hFb, hB'⟩
    rw [hOne] at hA
    cases hA
    rw [hTwo] at hB
    cases hB
    rw [hFa] at hFb
    cases hFb
    exact ⟨a', hA', hB', (hf hFa).trans hBase⟩
  · refine ⟨r, ?_, ?_, hBase⟩
    · rw [MemoryMap.updateRegion_low hRam.1 hHigh h₁]
      exact hOne
    · rw [MemoryMap.updateRegion_low hRam.2 hHigh h₂]
      exact hTwo

/- A new region below 2 GiB is not RAM. -/
theorem MemoryMap.withSegment_ramRegion
    (h : m.RamInPlace)
    (ph : ElfProgramHeader) :
    (m.withSegment ph).ramRegion = m.ramRegion := by
  unfold withSegment
  split
  case isTrue hLow =>
    rcases h with ⟨r, hRegion, -⟩
    rw [hRegion]
    unfold addRegion
    rw [if_neg (BitVec.not_le.mpr hLow)]
    unfold ramRegion at hRegion ⊢
    rcases Option.bind_eq_some_iff.mp hRegion with
      ⟨i, hDirect, hGet⟩
    dsimp only
    rw [hDirect]
    have hLt := (List.getElem?_eq_some_iff.mp hGet).1
    exact (List.getElem?_append_left hLt).trans hGet
  case isFalse => rfl

/- A segment of its own for both. -/
theorem SameRam.withSegment
    (h : SameRam m₁ m₂)
    (ph : ElfProgramHeader) :
    SameRam (m₁.withSegment ph) (m₂.withSegment ph) := by
  rcases h.ramInPlace with ⟨h₁, h₂⟩
  rcases h with ⟨r, hOne, hTwo, hBase⟩
  refine ⟨r, ?_, ?_, hBase⟩
  · rw [MemoryMap.withSegment_ramRegion h₁]
    exact hOne
  · rw [MemoryMap.withSegment_ramRegion h₂]
    exact hTwo

end RiscvEm

------------------------------------------------------------
-- RAM Depends On The Files
------------------------------------------------------------

namespace RiscvEm

open ByteCodec

variable {m₁ m₂ m₁' m₂' : MemoryMap}

/- Filling a segment depends on the file only. -/
theorem fillSegment_inPlace
    (buf : List Byte)
    (ph : ElfProgramHeader) :
    InPlace (fillSegment buf ph) := by
  intro r r' h
  rcases bind_eq_ok.mp h with ⟨bs, -, h⟩
  rcases bind_eq_ok.mp h with ⟨r₁, hCopy, hSet⟩
  rw [(MemoryRegion.memset_eq_ok_iff.mp hSet).2,
    (MemoryRegion.memcpy_eq_ok_iff.mp hCopy).2]

/- Loading a segment keeps it equal. -/
theorem SameRam.loadSegment
    (h : SameRam m₁ m₂)
    {buf : List Byte}
    {ph : ElfProgramHeader}
    (h₁ : m₁.loadSegment buf ph = .ok m₁')
    (h₂ : m₂.loadSegment buf ph = .ok m₂') :
    SameRam m₁' m₂' := by
  unfold MemoryMap.loadSegment at h₁ h₂
  by_cases hType : ph.pType ≠ ELF_PT_LOAD
  · rw [if_pos hType] at h₁ h₂
    cases h₁
    cases h₂
    exact h
  · rw [if_neg hType] at h₁ h₂
    exact (h.withSegment ph).updateRegion
      (fillSegment_inPlace buf ph) h₁ h₂

/- Loading all segments keeps it equal. -/
theorem SameRam.loadSegments
    {buf : List Byte}
    (phs : List ElfProgramHeader)
    {m₁ m₂ : MemoryMap}
    (h : SameRam m₁ m₂)
    (h₁ : m₁.loadSegments buf phs = .ok m₁')
    (h₂ : m₂.loadSegments buf phs = .ok m₂') :
    SameRam m₁' m₂' := by
  induction phs generalizing m₁ m₂ with
  | nil =>
      cases h₁
      cases h₂
      exact h
  | cons ph phs ih =>
      rcases bind_eq_ok.mp h₁ with ⟨a, hA, h₁⟩
      rcases bind_eq_ok.mp h₂ with ⟨b, hB, h₂⟩
      exact ih (h.loadSegment hA hB) h₁ h₂

/- Loading a whole file keeps it equal. -/
theorem SameRam.parseElf
    (h : SameRam m₁ m₂)
    {locals : ElfLocals}
    {buf : List Byte}
    {e₁ e₂ : Option (BitVec 64)}
    (h₁ : m₁.parseElf locals buf = .ok (e₁, m₁'))
    (h₂ : m₂.parseElf locals buf = .ok (e₂, m₂')) :
    SameRam m₁' m₂' := by
  rcases bind_eq_ok.mp h₁ with ⟨header, hHeader, h₁⟩
  rcases bind_eq_ok.mp h₂ with ⟨header', hHeader', h₂⟩
  rw [hHeader] at hHeader'
  cases hHeader'
  dsimp only at h₁ h₂
  split at h₁
  case isTrue hBad =>
    rw [if_pos hBad] at h₂
    cases h₁
    cases h₂
    exact h
  case isFalse hGood =>
    rw [if_neg hGood] at h₂
    rcases bind_eq_ok.mp h₁ with ⟨phs, hPhs, h₁⟩
    rcases bind_eq_ok.mp h₂ with ⟨phs', hPhs', h₂⟩
    rw [hPhs] at hPhs'
    cases hPhs'
    rcases bind_eq_ok.mp h₁ with ⟨-, -, h₁⟩
    rcases bind_eq_ok.mp h₂ with ⟨-, -, h₂⟩
    rcases bind_eq_ok.mp h₁ with ⟨a, hA, h₁⟩
    rcases bind_eq_ok.mp h₂ with ⟨b, hB, h₂⟩
    cases h₁
    cases h₂
    exact h.loadSegments phs hA hB

/- Loading a file of any kind keeps it equal. -/
theorem SameRam.loadBuffer
    (h : SameRam m₁ m₂)
    {locals : ElfLocals}
    {path : BitVec 64}
    {buf : List Byte}
    {size : Nat}
    {l₁ l₂ : Loaded}
    (h₁ : m₁.loadBuffer locals path buf size = .ok l₁)
    (h₂ : m₂.loadBuffer locals path buf size = .ok l₂) :
    SameRam l₁.mem l₂.mem := by
  rcases bind_eq_ok.mp h₁ with ⟨start, hStart, h₁⟩
  rcases bind_eq_ok.mp h₂ with ⟨start', hStart', h₂⟩
  rw [hStart] at hStart'
  cases hStart'
  split at h₁
  case isTrue hElf =>
    rw [if_pos hElf] at h₂
    rcases bind_eq_ok.mp h₁ with ⟨⟨e₁, a⟩, hA, h₁⟩
    rcases bind_eq_ok.mp h₂ with ⟨⟨e₂, b⟩, hB, h₂⟩
    cases h₁
    cases h₂
    exact h.parseElf hA hB
  case isFalse hRaw =>
    rw [if_neg hRaw] at h₂
    rcases bind_eq_ok.mp h₁ with ⟨bs, hBs, h₁⟩
    rcases bind_eq_ok.mp h₂ with ⟨bs', hBs', h₂⟩
    rw [hBs] at hBs'
    cases hBs'
    rcases bind_eq_ok.mp h₁ with ⟨a, hA, h₁⟩
    rcases bind_eq_ok.mp h₂ with ⟨b, hB, h₂⟩
    cases h₁
    cases h₂
    refine h.updateRegion ?_ hA hB
    intro r r' hf
    rcases bind_eq_ok.mp hf with ⟨off, -, hCopy⟩
    rw [(MemoryRegion.memcpy_eq_ok_iff.mp hCopy).2]

/- An image, if there is one. -/
theorem SameRam.loadImage
    (h : SameRam m₁ m₂)
    {locals : ElfLocals}
    {path : BitVec 64}
    {file : List Byte}
    (h₁ : m₁.loadImage locals path file = .ok m₁')
    (h₂ : m₂.loadImage locals path file = .ok m₂') :
    SameRam m₁' m₂' := by
  rcases bind_eq_ok.mp h₁ with ⟨l₁, hA, h₁⟩
  rcases bind_eq_ok.mp h₂ with ⟨l₂, hB, h₂⟩
  cases h₁
  cases h₂
  exact h.loadBuffer hA hB

/- Loading the firmware and the kernel keeps it equal. -/
theorem SameRam.loadKernel
    (h : SameRam m₁ m₂)
    {files : BootFiles}
    (h₁ : m₁.loadKernel files = .ok m₁')
    (h₂ : m₂.loadKernel files = .ok m₂') :
    SameRam m₁' m₂' := by
  unfold MemoryMap.loadKernel at h₁ h₂
  cases hKernel : files.kernel with
  | none =>
      rw [hKernel] at h₁ h₂
      cases h₁
      cases h₂
      exact h
  | some kernel =>
      rw [hKernel] at h₁ h₂
      exact h.loadImage h₁ h₂

/- Writing the device tree keeps it equal. -/
theorem SameRam.writeFdt
    (h : SameRam m₁ m₂)
    {files : BootFiles}
    {memorySize : BitVec 64}
    (h₁ : m₁.writeFdt files memorySize = .ok m₁')
    (h₂ : m₂.writeFdt files memorySize = .ok m₂') :
    SameRam m₁' m₂' := by
  unfold MemoryMap.writeFdt at h₁ h₂
  cases hDtb : files.dtb with
  | some dtb =>
      rw [hDtb] at h₁ h₂
      exact h.loadImage h₁ h₂
  | none =>
      rw [hDtb] at h₁ h₂
      rcases bind_eq_ok.mp h₁ with ⟨⟨blob, size⟩, hBlob, h₁⟩
      rcases bind_eq_ok.mp h₂ with ⟨⟨blob', size'⟩, hBlob', h₂⟩
      rw [hBlob] at hBlob'
      cases hBlob'
      rcases bind_eq_ok.mp h₁ with ⟨l₁, hA, h₁⟩
      rcases bind_eq_ok.mp h₂ with ⟨l₂, hB, h₂⟩
      cases h₁
      cases h₂
      exact h.loadBuffer hA hB

/- RAM is the region at 2 GiB. -/
theorem MemoryMap.HasRam.ramRegion
    {m : MemoryMap}
    {memorySize : BitVec 64}
    (h : m.HasRam memorySize) :
    ∃ r, m.ramRegion = some r ∧ r.baseAddr = 0x80000000 ∧
      r.size = memorySize := by
  rcases h with ⟨i, r, hDirect, hGet, hBase, hSize⟩
  refine ⟨r, ?_, hBase, hSize⟩
  unfold MemoryMap.ramRegion
  rw [hDirect]
  exact hGet

/- A reset clears RAM. -/
theorem resetMemory_ramRegion
    (m : MemoryMap) :
    m.resetMemory.ramRegion = m.ramRegion.map (fun r =>
      { r with data := fun _ => 0 }) := by
  unfold MemoryMap.resetMemory MemoryMap.ramRegion
  cases m.ramDirect with
  | none => rfl
  | some i => exact List.getElem?_map

/- After a reset both machines have the same RAM. -/
theorem resetMemory_sameRam
    {memorySize : BitVec 64}
    (h₁ : m₁.HasRam memorySize)
    (h₂ : m₂.HasRam memorySize) :
    SameRam m₁.resetMemory m₂.resetMemory := by
  rcases h₁.ramRegion with ⟨r, hr, hBase, hSize⟩
  rcases h₂.ramRegion with ⟨r', hr', hBase', hSize'⟩
  refine ⟨{ r with data := fun _ => 0 }, ?_, ?_, hBase⟩
  · rw [resetMemory_ramRegion, hr]
    rfl
  · rw [resetMemory_ramRegion, hr', Option.map_some]
    rcases r with ⟨base, size, data⟩
    rcases r' with ⟨base', size', data'⟩
    cases hBase
    cases hBase'
    cases hSize
    cases hSize'
    rfl

/- After a reset RAM does not show what was there before. -/
theorem bootMemory_sameRam
    {files : BootFiles}
    {memorySize : BitVec 64}
    (hRam₁ : m₁.HasRam memorySize)
    (hRam₂ : m₂.HasRam memorySize)
    (h₁ : m₁.bootMemory files memorySize = .ok m₁')
    (h₂ : m₂.bootMemory files memorySize = .ok m₂') :
    SameRam m₁' m₂' := by
  rcases bind_eq_ok.mp h₁ with ⟨a, hA, h₁⟩
  rcases bind_eq_ok.mp h₂ with ⟨b, hB, h₂⟩
  rcases bind_eq_ok.mp h₁ with ⟨a', hA', h₁⟩
  rcases bind_eq_ok.mp h₂ with ⟨b', hB', h₂⟩
  have hBios := (resetMemory_sameRam hRam₁ hRam₂).loadImage
    hA hB
  exact (hBios.loadKernel hA' hB').writeFdt h₁ h₂

end RiscvEm
