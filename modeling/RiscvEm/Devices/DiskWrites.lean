import RiscvEm.Devices.BlkRequest

/-
  What requests do to the image. A write request is carried
  out before its length is checked, and at an offset of 64
  bits.

  Key definitions include:
    * `DiskLaw`
    * `DiskSafe`

  Key theorems include `request_disk_law_iff`.
-/

------------------------------------------------------------
-- The Image After A Request
------------------------------------------------------------

namespace RiscvEm

variable {cfg : PlicConfig}
variable {w w' : BlkWorld cfg}
variable {r : BlkRequest}
variable {ok : Bool}

/- The image is the same before and after. -/
def SameImage
    (disk disk' : Option DiskImage) : Prop :=
  Option.Rel DiskImage.SameContents disk disk'

theorem SameImage.refl
    (disk : Option DiskImage) :
    SameImage disk disk := by
  cases disk with
  | none => exact .none
  | some d => exact .some (fun _ => rfl)

theorem sameImage_some_iff
    {d d' : DiskImage} :
    SameImage (some d) (some d') ↔ d.SameContents d' :=
  Option.rel_some_some

/- The first byte that the sector of the request stands for. -/
def BlkRequest.pos
    (r : BlkRequest) : Nat :=
  r.req.sector.toNat * 512

/-
  The request makes the device write: bytes from guest memory
  go to an offset of the image.
-/
structure Overwrites
    (w : BlkWorld cfg)
    (r : BlkRequest)
    (d : DiskImage)
    (offset : Nat)
    (buf : List (BitVec 8)) : Prop where
  isOut : r.req.type = VIRTIO_BLK_T_OUT
  disk : w.blk.disk = some d
  seek : seekSector r.req.sector = some offset
  buffers : BuffersHold w.mem r.datas buf

theorem Overwrites.unique
    {d d' : DiskImage}
    {offset offset' : Nat}
    {buf buf' : List (BitVec 8)}
    (h : Overwrites w r d offset buf)
    (h' : Overwrites w r d' offset' buf') :
    d' = d ∧ offset' = offset ∧ buf' = buf := by
  have hDisk := h'.disk
  have hSeek := h'.seek
  rw [h.disk] at hDisk
  rw [h.seek] at hSeek
  exact ⟨(Option.some.inj hDisk).symm,
    (Option.some.inj hSeek).symm,
    h.buffers.unique h'.buffers⟩

/-
  The image is overwritten whatever the status is, or it is
  kept, and a write that was refused has failed.
-/
theorem Completes.disk_cases
    (h : Completes w r ok w') :
    (∃ d offset buf, Overwrites w r d offset buf ∧
      ok = (dataTotal r.datas % 512 == 0) ∧
      w'.blk.disk = some (d.put offset buf)) ∨
    ((r.req.type = VIRTIO_BLK_T_OUT → ok = false ∧
        ∀ d, w.blk.disk = some d →
          seekSector r.req.sector = none) ∧
      w'.blk.disk = w.blk.disk) := by
  rcases h.steps with ⟨w₁, m, hPerformed, -, hComplete⟩
  have hDisk := (complete_device hComplete).1
  change w'.blk.disk = w₁.blk.disk at hDisk
  rw [hDisk]
  have hInOut : r.req.type = VIRTIO_BLK_T_IN →
      r.req.type ≠ VIRTIO_BLK_T_OUT := by
    intro hIn
    rw [hIn]
    decide
  cases hPerformed with
  | readRefused hIn _ =>
      exact Or.inr ⟨fun hOut => absurd hOut (hInOut hIn), rfl⟩
  | read hIn _ _ =>
      exact Or.inr ⟨fun hOut => absurd hOut (hInOut hIn), rfl⟩
  | @writeRefused buf hOut hHold hWrite =>
      refine Or.inr ⟨fun _ => ⟨rfl, ?_⟩, rfl⟩
      intro d hSome
      unfold diskWrite at hWrite
      change w.blk.disk.bind _ = _ at hWrite
      rw [hSome] at hWrite
      exact Option.map_eq_none_iff.mp hWrite
  | @written buf d offset hOut hHold hSome hSeek =>
      exact Or.inl ⟨d, offset, buf,
        ⟨hOut, hSome, hSeek, hHold⟩, rfl, rfl⟩
  | unsupported hIn hOut =>
      exact Or.inr ⟨fun h => absurd h hOut, rfl⟩

/- The offset is the place of the sector, or far below it. -/
theorem seekSector_pos
    {sector : BitVec 64}
    {offset : Nat}
    (h : seekSector sector = some offset) :
    offset < 2 ^ 63 ∧
      (offset = sector.toNat * 512 ∨
        2 ^ 64 ≤ sector.toNat * 512) := by
  have hVal : (sector * SECTOR_SIZE).toNat =
      sector.toNat * 512 % 2 ^ 64 := by
    rw [BitVec.toNat_mul]
    rfl
  unfold seekSector at h
  dsimp only at h
  split at h
  case isTrue hLt =>
    cases h
    refine ⟨hLt, ?_⟩
    omega
  case isFalse => cases h

end RiscvEm

------------------------------------------------------------
-- Status And Image
------------------------------------------------------------

namespace RiscvEm

variable {cfg : PlicConfig}
variable {w w' : BlkWorld cfg}
variable {r : BlkRequest}
variable {ok : Bool}

/-
  A request that failed leaves the image as it was, and a
  write that succeeded has changed the bytes of its sectors
  to those of its buffers, and no others.
-/
structure DiskLaw
    (w : BlkWorld cfg)
    (r : BlkRequest)
    (ok : Bool)
    (w' : BlkWorld cfg) : Prop where
  failed : ok = false → SameImage w.blk.disk w'.blk.disk
  written : ok = true → r.req.type = VIRTIO_BLK_T_OUT →
    ∃ d d' buf, w.blk.disk = some d ∧ w'.blk.disk = some d' ∧
      BuffersHold w.mem r.datas buf ∧
      d.WrittenAt d' r.pos buf

/-
  What the device writes is all right: with a length it
  rejects the image holds these bytes already, and otherwise
  the offset is the place of the sector and no gap is filled,
  or both places hold the bytes already.
-/
def DiskSafe
    (w : BlkWorld cfg)
    (r : BlkRequest) : Prop :=
  ∀ d offset buf, Overwrites w r d offset buf →
    (dataTotal r.datas % 512 ≠ 0 → d.Holds offset buf) ∧
    (dataTotal r.datas % 512 = 0 →
      (offset = r.pos ∧ offset ≤ d.size) ∨
        (d.Holds offset buf ∧ d.Holds r.pos buf))

/-
  A completed request obeys the law of the image exactly if
  what the device writes is all right.
-/
theorem request_disk_law_iff
    (w w' : BlkWorld cfg)
    (r : BlkRequest)
    (ok : Bool)
    (h : Completes w r ok w') :
    DiskLaw w r ok w' ↔ DiskSafe w r := by
  rcases h.disk_cases with
    ⟨d, offset, buf, hOver, hOk, hDisk⟩ | ⟨hRefused, hDisk⟩
  · have hSafe : DiskSafe w r ↔
        (dataTotal r.datas % 512 ≠ 0 → d.Holds offset buf) ∧
        (dataTotal r.datas % 512 = 0 →
          (offset = r.pos ∧ offset ≤ d.size) ∨
            (d.Holds offset buf ∧ d.Holds r.pos buf)) := by
      constructor
      · exact fun hAll => hAll d offset buf hOver
      · intro hOne d' offset' buf' hOver'
        rcases hOver.unique hOver' with ⟨rfl, rfl, rfl⟩
        exact hOne
    have hPlace : offset = r.pos ∨
        offset + buf.length ≤ r.pos := by
      have hSeek := seekSector_pos hOver.seek
      have hTotal := h.names.dataTotal_lt
      rw [hOver.buffers.length]
      unfold BlkRequest.pos
      omega
    rw [hSafe]
    by_cases hLen : dataTotal r.datas % 512 = 0
    · rw [hLen] at hOk
      constructor
      · intro hLaw
        refine ⟨absurd hLen, fun _ => ?_⟩
        rcases hLaw.written hOk hOver.isOut with
          ⟨d₁, d₂, buf₁, hBefore, hAfter, hHold, hWritten⟩
        rw [hOver.disk] at hBefore
        rw [hDisk] at hAfter
        cases hBefore
        cases hAfter
        rw [hOver.buffers.unique hHold] at hWritten
        exact (DiskImage.put_written_iff hPlace).mp hWritten
      · intro hGood
        refine ⟨fun hFail => ?_, fun _ _ => ?_⟩
        · rw [hOk] at hFail
          cases hFail
        · exact ⟨d, _, buf, hOver.disk, hDisk, hOver.buffers,
            (DiskImage.put_written_iff hPlace).mpr
              (hGood.2 hLen)⟩
    · have hFail : ok = false := by
        rw [hOk]
        exact beq_false_of_ne hLen
      constructor
      · intro hLaw
        refine ⟨fun _ => ?_, fun hZero => absurd hZero hLen⟩
        have hSame := hLaw.failed hFail
        rw [hOver.disk, hDisk, sameImage_some_iff] at hSame
        exact DiskImage.put_same_iff.mp hSame
      · intro hGood
        refine ⟨fun _ => ?_, fun hTrue => ?_⟩
        · rw [hOver.disk, hDisk, sameImage_some_iff]
          exact DiskImage.put_same_iff.mpr (hGood.1 hLen)
        · rw [hFail] at hTrue
          cases hTrue
  · refine iff_of_true ⟨?_, ?_⟩ ?_
    · intro _
      rw [hDisk]
      exact .refl _
    · intro hTrue hOut
      rw [(hRefused hOut).1] at hTrue
      cases hTrue
    · intro d offset buf hOver
      have hNone := (hRefused hOver.isOut).2 d hOver.disk
      rw [hOver.seek] at hNone
      cases hNone

/-
  Memory with rings and a table of descriptors as before. The
  header is at `0x400`, the status at `0x500` and `len` bytes
  of data at `0x600`. The flags of the data, the type and a
  high byte of the sector are given.
-/
def requestMemory
    (len : BitVec 16)
    (flags type sector : BitVec 8) : MemoryMap :=
  { regions := [{
      baseAddr := 0x80000000
      size := 0x1000
      data := fun
        | 0x101 => 0x04
        | 0x103 => 0x80
        | 0x108 => 16
        | 0x10C => 1
        | 0x10E => 1
        | 0x111 => 0x06
        | 0x113 => 0x80
        | 0x118 => len.setWidth 8
        | 0x119 => (len >>> 8).setWidth 8
        | 0x11C => flags
        | 0x11E => 2
        | 0x121 => 0x05
        | 0x123 => 0x80
        | 0x128 => 1
        | 0x12C => 2
        | 0x202 => 1
        | 0x400 => type
        | 0x40E => sector
        | 0x600 => 0xAA
        | _ => 0 }]
    ramDirect := some 0 }

/- An image of two sectors that holds zeros. -/
def blankDisk : DiskImage :=
  ⟨fun _ => 0, 1024⟩

theorem firstIrq_ne :
    (1 : BitVec 32) ≠ 0 := by
  decide

theorem firstIrq_lt :
    (1 : BitVec 32).toNat < PlicConfig.twoHarts.maxSources := by
  decide

/- A device with the image, as it is constructed. -/
def diskStart
    (m : MemoryMap) : BlkWorld PlicConfig.twoHarts :=
  { blk := .init 1 firstIrq_ne firstIrq_lt (some blankDisk)
    plic := plicStart
    mem := m
    trace := [] }

/- The device with its queue set up. -/
def diskReady
    (m : MemoryMap) : BlkWorld PlicConfig.twoHarts :=
  (diskStart m).setQueue
    { VirtQueueState.init with
      size := 8
      descAddr := 0x80000100
      availAddr := 0x80000200
      usedAddr := 0x80000300
      ready := true }

/- The request that the memory describes. -/
def requestOf
    (len : BitVec 16)
    (flags type sector : BitVec 8) : BlkRequest :=
  { head := 0
    chain := [⟨0x80000400, 16, 1, 1⟩,
      ⟨0x80000600, len.setWidth 32, flags.setWidth 16, 2⟩,
      ⟨0x80000500, 1, 2, 0⟩]
    req := ⟨type.setWidth 32, sector.setWidth 64 <<< 48⟩
    datas :=
      [⟨0x80000600, len.setWidth 32, flags.setWidth 16, 2⟩]
    status := ⟨0x80000500, 1, 2, 0⟩ }

/- The operations of `ringOps` before the notification. -/
theorem diskReady_reachable
    (m : MemoryMap) :
    ∃ ts, BlkRun (diskStart m) ts (diskReady m) ∧
      ts.map BlkStep.op = ringOps.tail := by
  have hEnd : (runBlkOps (diskStart m) ringOps.tail).map
      Prod.snd = .ok (diskReady m) := by
    with_unfolding_all rfl
  cases hOps : runBlkOps (diskStart m) ringOps.tail with
  | error e =>
      rw [hOps] at hEnd
      cases hEnd
  | ok p =>
      rw [hOps] at hEnd
      cases p with
      | mk ts w =>
          cases hEnd
          exact ⟨ts, blkRun_of_runBlkOps hOps⟩

theorem processLoop_new
    {w w' : BlkWorld cfg}
    {availIdx : BitVec 16}
    {n : Nat}
    (hNew : w.queue.lastAvailIdx ≠ availIdx)
    (hEntry : w.processEntry = .ok w') :
    w.processLoop availIdx (n + 1) =
      w'.processLoop availIdx n := by
  conv_lhs => unfold BlkWorld.processLoop
  rw [if_neg hNew, hEntry]
  rfl

/- A notification that finds one new entry. -/
theorem processQueue_single
    {w w' : BlkWorld cfg}
    {v : BitVec 64}
    (hReady : w.queue.ready = true)
    (hSize : w.queue.size ≠ 0)
    (hLoad : w.mem.load (w.queue.availAddr + 2) 16 = .ok v)
    (hNext : w.queue.lastAvailIdx + 1 = v.setWidth 16)
    (hEntry : w.processEntry = .ok w') :
    w.processQueue 0 = .ok w' := by
  have hNew : w.queue.lastAvailIdx ≠ v.setWidth 16 := by
    rw [← hNext]
    bv_omega
  have hEnd : w'.queue.lastAvailIdx = v.setWidth 16 :=
    (processEntry_lastAvailIdx hEntry).trans hNext
  unfold BlkWorld.processQueue
  rw [if_neg (not_not.mpr rfl), if_neg]
  · refine bind_eq_ok.mpr ⟨v, hLoad, ?_⟩
    have hStep := processLoop_new (n := 65535) hNew hEntry
    exact hStep.trans (processLoop_of_end hEnd)
  · rw [hReady]
    exact not_or.mpr ⟨Bool.false_ne_true.symm, hSize⟩

/- What the device answers to a request in such a memory. -/
theorem requestMemory_completes
    {len : BitVec 16}
    {flags type sector : BitVec 8}
    {ok : Bool}
    (hNames : Names
      (diskReady (requestMemory len flags type sector))
      (requestOf len flags type sector))
    (hResult : (((diskReady
      (requestMemory len flags type sector)).taken
        (requestOf len flags type sector)).perform
          (requestOf len flags type sector).req
          (requestOf len flags type sector).datas
      ).toOption.map Prod.fst = some ok)
    (hDone : (diskReady (requestMemory len flags type sector)
      ).processEntry.toOption.isSome = true)
    (hLoad : (requestMemory len flags type sector).load
      (0x80000200 + 2) 16 = .ok 1) :
    ∃ w', Completes
        (diskReady (requestMemory len flags type sector))
        (requestOf len flags type sector) ok w' ∧
      (diskReady (requestMemory len flags type sector)
        ).processQueue 0 = .ok w' := by
  have hSize : (8 : BitVec 32) ≠ 0 := by decide
  rcases Option.isSome_iff_exists.mp hDone with ⟨w', hSome⟩
  rw [toOption_eq_some] at hSome
  rcases Option.map_eq_some_iff.mp hResult with
    ⟨⟨ok', w₁⟩, hPerform, rfl⟩
  rw [toOption_eq_some] at hPerform
  exact ⟨w', ⟨hNames, hSome, w₁, hPerform⟩,
    processQueue_single (v := 1) rfl hSize hLoad rfl hSome⟩

/- One byte is to be written. -/
theorem oneByte_completes :
    ∃ w', Completes (diskReady (requestMemory 1 1 1 0))
        (requestOf 1 1 1 0) false w' ∧
      (diskReady (requestMemory 1 1 1 0)).processQueue 0 =
        .ok w' :=
  requestMemory_completes
    ⟨⟨0, rfl, rfl⟩, rfl, rfl, ⟨_, rfl, _, rfl, rfl⟩,
      2, rfl, rfl⟩
    (by decide +kernel) (by decide +kernel) rfl

/- A whole sector is to be written. -/
theorem oneSector_completes :
    ∃ w', Completes (diskReady (requestMemory 512 1 1 0))
        (requestOf 512 1 1 0) true w' ∧
      (diskReady (requestMemory 512 1 1 0)).processQueue 0 =
        .ok w' :=
  requestMemory_completes
    ⟨⟨0, rfl, rfl⟩, rfl, rfl, ⟨_, rfl, _, rfl, rfl⟩,
      2, rfl, rfl⟩
    (by decide +kernel) (by decide +kernel) rfl

/- A sector of the image is written as the law says. -/
theorem request_disk_law_sector :
    ∃ w', Completes (diskReady (requestMemory 512 1 1 0))
        (requestOf 512 1 1 0) true w' ∧
      DiskSafe (diskReady (requestMemory 512 1 1 0))
        (requestOf 512 1 1 0) ∧
      DiskLaw (diskReady (requestMemory 512 1 1 0))
        (requestOf 512 1 1 0) true w' := by
  have hSafe : DiskSafe (diskReady (requestMemory 512 1 1 0))
      (requestOf 512 1 1 0) := by
    rintro d offset buf ⟨-, hDisk, hSeek, -⟩
    refine ⟨fun hLen => absurd rfl hLen, fun _ => Or.inl ?_⟩
    have hZero : seekSector 0 = some 0 := rfl
    change seekSector 0 = _ at hSeek
    rw [hZero] at hSeek
    cases hSeek
    exact ⟨rfl, Nat.zero_le _⟩
  rcases oneSector_completes with ⟨w', hCompletes, -⟩
  exact ⟨w', hCompletes, hSafe,
    (request_disk_law_iff _ w' _ _ hCompletes).mpr hSafe⟩

/-
  A write of one byte is answered with an error, and the byte
  is in the image.
-/
theorem failed_write_changes_image :
    ∃ ts w r w',
      BlkRun (diskStart (requestMemory 1 1 1 0)) ts w ∧
      w.processQueue 0 = .ok w' ∧
      Completes w r false w' ∧
      ¬ SameImage w.blk.disk w'.blk.disk := by
  rcases diskReady_reachable (requestMemory 1 1 1 0) with
    ⟨ts, hRun, -⟩
  rcases oneByte_completes with ⟨w', hCompletes, hQueue⟩
  refine ⟨ts, _, _, w', hRun, hQueue, hCompletes, ?_⟩
  have hHold : BuffersHold (requestMemory 1 1 1 0)
      (requestOf 1 1 1 0).datas [0xAA] :=
    gatherOut_eq_ok_iff.mp rfl
  have hOver : Overwrites
      (diskReady (requestMemory 1 1 1 0)) (requestOf 1 1 1 0)
      blankDisk 0 [0xAA] :=
    ⟨rfl, rfl, rfl, hHold⟩
  intro hSame
  rcases hCompletes.disk_cases with
    ⟨d, offset, buf, hOver', -, hDisk⟩ | ⟨hRefused, -⟩
  · rcases hOver.unique hOver' with ⟨rfl, rfl, rfl⟩
    rw [hDisk] at hSame
    have hHolds := DiskImage.put_same_iff.mp
      (sameImage_some_iff.mp hSame)
    exact absurd (hHolds 0 (by decide)) (by decide)
  · have hNone := (hRefused rfl).2 blankDisk rfl
    rw [hOver.seek] at hNone
    cases hNone

end RiscvEm
