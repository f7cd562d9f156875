import RiscvEm.Devices.BlkStores
import RiscvEm.Devices.DiskWrites
import Mathlib.Logic.Relation

/-
  Requests and the capacity of the image. The device never
  compares the two: a read behind the end finds zeros, and a
  write there makes the image longer.

  Key definitions include:
    * `CapacityLaw`
    * `CapacitySafe`
    * `BlkReached`

  Key theorems include `request_capacity_iff`.
-/

------------------------------------------------------------
-- States Of A Device
------------------------------------------------------------

namespace RiscvEm

variable {cfg : PlicConfig}
variable {w w' : BlkWorld cfg}

/- The device is as it was constructed. -/
def Constructed
    (w : BlkWorld cfg) : Prop :=
  ∃ irqNum hNe hLt disk, w.blk = .init irqNum hNe hLt disk

/- One round of the loop of `process_queue`. -/
def BlkRound
    (w w' : BlkWorld cfg) : Prop :=
  w.processEntry = .ok w'

/-
  A state after a run of operations, or within a notification
  that follows it.
-/
def BlkReached
    (start w : BlkWorld cfg) : Prop :=
  ∃ ts w₀, BlkRun start ts w₀ ∧
    Relation.ReflTransGen BlkRound w₀ w

/- The image has at least as many sectors as it had at first. -/
def CapacityBounded
    (b : VirtioBlk cfg) : Prop :=
  ∀ d, b.disk = some d → b.capacitySectors.toNat * 512 ≤ d.size

theorem Constructed.bounded
    (h : Constructed w) :
    CapacityBounded w.blk := by
  rcases h with ⟨irqNum, hNe, hLt, disk, hBlk⟩
  unfold CapacityBounded
  rw [hBlk]
  intro d hDisk
  change disk = some d at hDisk
  subst hDisk
  change (BitVec.ofNat 64 (d.size / 512)).toNat * 512 ≤ d.size
  rw [BitVec.toNat_ofNat]
  have hMod := Nat.mod_le (d.size / 512) (2 ^ 64)
  omega

theorem DiskImage.size_put
    (d : DiskImage)
    (offset : Nat)
    (buf : List (BitVec 8)) :
    d.size ≤ (d.put offset buf).size := by
  by_cases hNil : buf = []
  · rw [hNil, DiskImage.put_nil]
  · rw [DiskImage.put_of_ne hNil]
    exact le_max_left _ _

/- A round keeps the capacity, and an image is not cut. -/
theorem CapacityBounded.round
    (h : CapacityBounded w.blk)
    (hRound : w.processEntry = .ok w') :
    CapacityBounded w'.blk := by
  rcases processEntry_request hRound with
    ⟨r, ok, hDone⟩ | ⟨head, hAnswer⟩ | ⟨head, rfl⟩
  · rcases hDone.steps with
      ⟨w₁, m, hPerformed, -, hComplete⟩
    have hCapacity := (complete_device hComplete).2.trans
      hPerformed.capacity
    intro d' hAfter
    rw [hCapacity]
    rcases hDone.disk_cases with
      ⟨d, offset, buf, hOver, -, hDisk⟩ | ⟨-, hDisk⟩
    · rw [hDisk] at hAfter
      cases hAfter
      exact (h d hOver.disk).trans (d.size_put offset buf)
    · rw [hDisk] at hAfter
      exact h d' hAfter
  · have hSame := complete_device hAnswer
    intro d' hAfter
    rw [hSame.1] at hAfter
    rw [hSame.2]
    exact h d' hAfter
  · exact h

theorem CapacityBounded.writeReg
    {b : VirtioBlk cfg}
    (h : CapacityBounded b)
    (off val : BitVec 64) :
    CapacityBounded (b.writeReg off val) := by
  have hSame := keepsImage_writeReg b off val
  unfold CapacityBounded
  rw [hSame.disk, hSame.capacitySectors]
  exact h

theorem BlkRun.bounded
    {start : BlkWorld cfg}
    {ts : List (BlkStep cfg)}
    (hStart : CapacityBounded start.blk)
    (h : BlkRun start ts w) :
    CapacityBounded w.blk := by
  induction h with
  | refl => exact hStart
  | step _ hExec ih =>
      exact exec_keeps (p := fun _ => True)
        (fun _ _ hBefore _ hRound => hBefore.round hRound)
        (fun _ off val hBefore => hBefore.writeReg off val)
        (fun _ _ _ => alongLoop_of_forall (fun _ => trivial))
        hExec ih

theorem BlkReached.bounded
    {start : BlkWorld cfg}
    (hStart : Constructed start)
    (h : BlkReached start w) :
    CapacityBounded w.blk := by
  rcases h with ⟨ts, w₀, hRun, hRounds⟩
  have hOps := hRun.bounded hStart.bounded
  induction hRounds with
  | refl => exact hOps
  | tail _ hRound ih => exact ih.round hRound

end RiscvEm

------------------------------------------------------------
-- The Law Of The Capacity
------------------------------------------------------------

namespace RiscvEm

variable {cfg : PlicConfig}
variable {w w' : BlkWorld cfg}
variable {r : BlkRequest}
variable {ok : Bool}

/- The transfer lies in the image, without wrapping. -/
def Fits
    (w : BlkWorld cfg)
    (r : BlkRequest) : Prop :=
  r.pos + dataTotal r.datas ≤
    w.blk.capacitySectors.toNat * 512

def imageSize
    (disk : Option DiskImage) : Nat :=
  disk.elim 0 DiskImage.size

/-
  Only a request that fits succeeds. Any other one fails, the
  image keeps its bytes and no buffer is stored to. The image
  does not grow.
-/
structure CapacityLaw
    (w : BlkWorld cfg)
    (r : BlkRequest)
    (ok : Bool)
    (w' : BlkWorld cfg) : Prop where
  fits : ok = true → Fits w r
  kept : ¬ Fits w r →
    ok = false ∧ SameImage w.blk.disk w'.blk.disk ∧
      flatStores (transferStores w r) = []
  size : imageSize w'.blk.disk ≤ imageSize w.blk.disk

/-
  The buffers up to one that is not writable are empty, that
  one as well.
-/
def ReadStops : List VirtqDesc → Prop
  | [] => False
  | d :: ds =>
      d.len = 0 ∧ (d.isWrite = false ∨ ReadStops ds)

/-
  A request that does not fit gets as far as the image only
  if it does no harm: a read stops before it stores a byte,
  a write has a length that is rejected and the image holds
  these bytes already.
-/
def CapacitySafe
    (w : BlkWorld cfg)
    (r : BlkRequest) : Prop :=
  Fits w r ∨
    ∀ d offset, w.blk.disk = some d →
      seekSector r.req.sector = some offset →
      (r.req.type = VIRTIO_BLK_T_IN → ReadStops r.datas) ∧
      (r.req.type = VIRTIO_BLK_T_OUT →
        dataTotal r.datas % 512 ≠ 0 ∧
          ∀ buf, BuffersHold w.mem r.datas buf →
            d.Holds offset buf)

/- When a read that is carried out fails without a store. -/
theorem readStops_iff
    {buf : List (BitVec 8)}
    {datas : List VirtqDesc}
    (hLen : buf.length = dataTotal datas) :
    ReadStops datas ↔
      datas.all VirtqDesc.isWrite = false ∧
        flatStores (scatterStores buf datas) = [] := by
  induction datas generalizing buf with
  | nil =>
      refine iff_of_false (fun h => h) ?_
      rintro ⟨hAll, -⟩
      cases hAll
  | cons d ds ih =>
      rw [dataTotal_cons] at hLen
      have hFirst : byteStores d.addr
          (buf.take d.len.toNat) = [] ↔ d.len = 0 := by
        rw [byteStores_eq_nil_iff, ← List.length_eq_zero_iff,
          List.length_take, hLen, ← BitVec.toNat_inj]
        change _ ↔ d.len.toNat = 0
        omega
      unfold ReadStops scatterStores
      rw [flatStores_cons, List.append_eq_nil_iff, hFirst,
        List.all_cons]
      cases hWrite : d.isWrite with
      | false =>
          rw [Bool.false_and]
          constructor
          · rintro ⟨hZero, -⟩
            exact ⟨rfl, hZero, rfl⟩
          · rintro ⟨-, hZero, -⟩
            exact ⟨hZero, Or.inl rfl⟩
      | true =>
          rw [Bool.true_and, if_pos rfl]
          have hDrop : (buf.drop d.len.toNat).length =
              dataTotal ds := by
            rw [List.length_drop]
            omega
          have hRest := ih hDrop
          constructor
          · rintro ⟨hZero, hNot | hStops⟩
            · cases hNot
            · rcases hRest.mp hStops with ⟨hAll, hNone⟩
              exact ⟨hAll, hZero, hNone⟩
          · rintro ⟨hAll, hZero, hNone⟩
            exact ⟨hZero, Or.inr (hRest.mpr ⟨hAll, hNone⟩)⟩

end RiscvEm

------------------------------------------------------------
-- Keeping The Law
------------------------------------------------------------

namespace RiscvEm

variable {cfg : PlicConfig}
variable {w w' : BlkWorld cfg}
variable {r : BlkRequest}
variable {ok : Bool}

theorem DiskImage.SameContents.size_eq
    {d d' : DiskImage}
    (h : d.SameContents d') :
    d'.size = d.size := by
  have hNone : ∀ (e : DiskImage) (i : Nat),
      e.byteAt i = none ↔ e.size ≤ i := by
    intro e i
    unfold DiskImage.byteAt
    simp
  refine le_antisymm ?_ ?_
  · rw [← hNone, h, hNone]
  · rw [← hNone, ← h, hNone]

theorem SameImage.size_eq
    {disk disk' : Option DiskImage}
    (h : SameImage disk disk') :
    imageSize disk' = imageSize disk := by
  cases h with
  | none => rfl
  | some hSame => exact hSame.size_eq

/- A write that fits stays within the image. -/
theorem Completes.size_of_fits
    (h : Completes w r ok w')
    (hBounded : CapacityBounded w.blk)
    (hFits : Fits w r) :
    imageSize w'.blk.disk ≤ imageSize w.blk.disk := by
  rcases h.disk_cases with
    ⟨d, offset, buf, hOver, -, hDisk⟩ | ⟨-, hDisk⟩
  · have hSeek := seekSector_pos hOver.seek
    have hSize := hBounded d hOver.disk
    have hLen := hOver.buffers.length
    unfold Fits at hFits
    change _ ∧ (_ = r.pos ∨ 2 ^ 64 ≤ r.pos) at hSeek
    rw [hDisk, hOver.disk]
    change (d.put offset buf).size ≤ d.size
    by_cases hNil : buf = []
    · rw [hNil, DiskImage.put_nil]
    · rw [DiskImage.put_of_ne hNil]
      exact max_le (le_refl _) (by omega)
  · rw [hDisk]

/- What the law says of a request that does not fit. -/
theorem capacityLaw_iff_of_not_fits
    (hFits : ¬ Fits w r) :
    CapacityLaw w r ok w' ↔
      ok = false ∧ SameImage w.blk.disk w'.blk.disk ∧
        flatStores (transferStores w r) = [] := by
  constructor
  · exact fun h => h.kept hFits
  · rintro ⟨rfl, hSame, hNone⟩
    exact ⟨fun hTrue => (nomatch hTrue),
      fun _ => ⟨rfl, hSame, hNone⟩, hSame.size_eq.le⟩

/- A read request that does not fit. -/
theorem Completes.capacity_read
    (h : Completes w r ok w')
    (hFits : ¬ Fits w r)
    (hIn : r.req.type = VIRTIO_BLK_T_IN) :
    CapacityLaw w r ok w' ↔
      ∀ d offset, w.blk.disk = some d →
        seekSector r.req.sector = some offset →
        ReadStops r.datas := by
  have hSame : SameImage w.blk.disk w'.blk.disk := by
    rcases h.disk_cases with
      ⟨d, offset, buf, hOver, -, -⟩ | ⟨-, hDisk⟩
    · exact absurd hIn (isOut_not_in hOver.isOut)
    · rw [hDisk]
      exact .refl _
  rw [capacityLaw_iff_of_not_fits hFits, h.read_ok hIn,
    and_iff_right hSame]
  unfold transferStores
  rw [if_pos hIn]
  cases hDisk : w.blk.disk with
  | none =>
      refine iff_of_true ⟨rfl, rfl⟩ ?_
      intro d offset hSome
      cases hSome
  | some d =>
      cases hSeek : seekSector r.req.sector with
      | none =>
          have hRead : diskRead (some d) r.req.sector
              (dataTotal r.datas) = none := by
            rw [diskRead_none_iff, hSeek]
            exact fun hBoth => nomatch hBoth.2
          rw [hRead]
          refine iff_of_true ⟨rfl, rfl⟩ ?_
          intro d' offset _ hSome
          cases hSome
      | some offset =>
          cases hRead : diskRead (some d) r.req.sector
              (dataTotal r.datas) with
          | none =>
              rw [diskRead_none_iff, hSeek] at hRead
              exact absurd ⟨rfl, rfl⟩ hRead
          | some buf =>
              have hStops := readStops_iff
                (diskRead_length hRead)
              dsimp only
              rw [Option.isSome_some, Option.isSome_some,
                Bool.true_and, Bool.true_and, ← hStops]
              constructor
              · exact fun hAll _ _ _ _ => hAll
              · exact fun hAll => hAll d offset rfl rfl

/- A write request that does not fit. -/
theorem Completes.capacity_write
    (h : Completes w r ok w')
    (hFits : ¬ Fits w r)
    (hOut : r.req.type = VIRTIO_BLK_T_OUT) :
    CapacityLaw w r ok w' ↔
      ∀ d offset, w.blk.disk = some d →
        seekSector r.req.sector = some offset →
        dataTotal r.datas % 512 ≠ 0 ∧
          ∀ buf, BuffersHold w.mem r.datas buf →
            d.Holds offset buf := by
  have hStores : flatStores (transferStores w r) = [] := by
    unfold transferStores
    rw [if_neg (isOut_not_in hOut)]
    rfl
  rw [capacityLaw_iff_of_not_fits hFits,
    and_iff_left hStores]
  rcases h.disk_cases with
    ⟨d, offset, buf, hOver, hOk, hDisk⟩ | ⟨hRefused, hDisk⟩
  · rw [hOk, hDisk, hOver.disk, sameImage_some_iff,
      DiskImage.put_same_iff, beq_eq_false_iff_ne]
    constructor
    · rintro ⟨hLen, hHolds⟩ d' offset' hSome hSeek
      cases hSome
      rw [hOver.seek] at hSeek
      cases hSeek
      refine ⟨hLen, fun buf' hHold => ?_⟩
      rwa [hOver.buffers.unique hHold]
    · intro hAll
      rcases hAll d offset rfl hOver.seek with ⟨hLen, hBufs⟩
      exact ⟨hLen, hBufs buf hOver.buffers⟩
  · rcases hRefused hOut with ⟨rfl, hNone⟩
    refine iff_of_true ⟨rfl, ?_⟩ ?_
    · rw [hDisk]
      exact .refl _
    · intro d offset hSome hSeek
      rw [hNone d hSome] at hSeek
      cases hSeek

/-
  A read or write request in any state of a device obeys the
  law of the capacity exactly if it fits or does no harm.
-/
theorem request_capacity_iff
    (start w w' : BlkWorld cfg)
    (r : BlkRequest)
    (ok : Bool)
    (hStart : Constructed start)
    (hReach : BlkReached start w)
    (hDone : Completes w r ok w')
    (hType : r.req.type = VIRTIO_BLK_T_IN ∨
      r.req.type = VIRTIO_BLK_T_OUT) :
    CapacityLaw w r ok w' ↔ CapacitySafe w r := by
  unfold CapacitySafe
  by_cases hFits : Fits w r
  · refine iff_of_true ⟨fun _ => hFits, absurd hFits, ?_⟩
      (Or.inl hFits)
    exact hDone.size_of_fits (hReach.bounded hStart) hFits
  · rw [or_iff_right hFits]
    rcases hType with hIn | hOut
    · rw [hDone.capacity_read hFits hIn]
      have hNotOut : r.req.type ≠ VIRTIO_BLK_T_OUT :=
        fun hOut => isOut_not_in hOut hIn
      simp only [hIn, forall_true_left] at hNotOut ⊢
      simp only [hNotOut, false_implies, and_true]
    · rw [hDone.capacity_write hFits hOut]
      have hNotIn := isOut_not_in hOut
      simp only [hOut, forall_true_left] at hNotIn ⊢
      simp only [hNotIn, false_implies, true_and]

theorem diskStart_constructed
    (m : MemoryMap) :
    Constructed (diskStart m) :=
  ⟨1, firstIrq_ne, firstIrq_lt, some blankDisk, rfl⟩

/- The image of two sectors. -/
theorem diskReady_fits_iff
    (m : MemoryMap)
    (r : BlkRequest) :
    Fits (diskReady m) r ↔
      r.pos + dataTotal r.datas ≤ 1024 := by
  have hCapacity : (diskReady m).blk.capacitySectors = 2 := rfl
  unfold Fits
  rw [hCapacity]
  exact Iff.rfl

/- The first sector is written, which fits. -/
theorem request_capacity_sector :
    ∃ w', Completes (diskReady (requestMemory 512 1 1 0))
        (requestOf 512 1 1 0) true w' ∧
      CapacityLaw (diskReady (requestMemory 512 1 1 0))
        (requestOf 512 1 1 0) true w' := by
  rcases diskReady_reachable (requestMemory 512 1 1 0) with
    ⟨ts, hRun, -⟩
  rcases oneSector_completes with ⟨w', hDone, -⟩
  have hFits : Fits (diskReady (requestMemory 512 1 1 0))
      (requestOf 512 1 1 0) := by
    rw [diskReady_fits_iff]
    decide
  exact ⟨w', hDone, (request_capacity_iff
    (diskStart (requestMemory 512 1 1 0)) _ w' _ _
    (diskStart_constructed _) ⟨ts, _, hRun, .refl⟩ hDone
    (Or.inr rfl)).mpr (Or.inl hFits)⟩

/- A sector whose offset is `2 ^ 64` is to be written. -/
theorem wrappedSector_completes :
    ∃ w', Completes
        (diskReady (requestMemory 512 1 1 0x80))
        (requestOf 512 1 1 0x80) true w' ∧
      (diskReady (requestMemory 512 1 1 0x80)).processQueue 0 =
        .ok w' :=
  requestMemory_completes
    ⟨⟨0, rfl, rfl⟩, rfl, rfl, ⟨_, rfl, _, rfl, rfl⟩,
      2, rfl, rfl⟩
    (by decide +kernel) (by decide +kernel) rfl

/-
  A write far behind the end of the image succeeds, and it
  has overwritten the start.
-/
theorem write_behind_capacity :
    ∃ ts w r w',
      Constructed (diskStart (requestMemory 512 1 1 0x80)) ∧
      BlkRun (diskStart (requestMemory 512 1 1 0x80)) ts w ∧
      w.processQueue 0 = .ok w' ∧
      Completes w r true w' ∧ ¬ Fits w r ∧
      ¬ SameImage w.blk.disk w'.blk.disk := by
  rcases diskReady_reachable (requestMemory 512 1 1 0x80) with
    ⟨ts, hRun, -⟩
  rcases wrappedSector_completes with ⟨w', hDone, hQueue⟩
  refine ⟨ts, _, _, w', diskStart_constructed _, hRun, hQueue,
    hDone, ?_, ?_⟩
  · rw [diskReady_fits_iff]
    decide
  · intro hSame
    rcases hDone.disk_cases with
      ⟨d, offset, buf, hOver, -, hDisk⟩ | ⟨hRefused, -⟩
    · have hSeek : seekSector (0x80 <<< 48) = some 0 := rfl
      rw [hDisk, hOver.disk, sameImage_some_iff,
        DiskImage.put_same_iff] at hSame
      have hDrive := hOver.disk
      have hPlace := hOver.seek
      change some blankDisk = some d at hDrive
      change seekSector (0x80 <<< 48) = _ at hPlace
      rw [hSeek] at hPlace
      cases hDrive
      cases hPlace
      rcases hOver.buffers with ⟨hLe, hHolds, -⟩
      cases buf with
      | nil => exact absurd hLe (by decide)
      | cons b bs =>
          have hLoad : (requestMemory 512 1 1 0x80).load
              0x80000600 8 = .ok 0xAA := rfl
          have hByte := hLoad.symm.trans hHolds.1
          have hZero := hSame 0 (Nat.succ_pos _)
          cases hZero
          cases hByte
    · have hNone := (hRefused rfl).2 blankDisk rfl
      cases hNone

end RiscvEm
