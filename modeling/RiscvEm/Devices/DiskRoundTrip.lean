import RiscvEm.Devices.BlkSubmit
import RiscvEm.Devices.DiskWrites
import Mathlib.Logic.Relation

/-
  What was written to the image by one request is read back
  by another, however the bytes are split among descriptors,
  if no request in between writes to their place.

  Key definitions include:
    * `ImageHolds`
    * `RequestApart`
    * `ApartStep`

  Key theorems include `scatter_gather_round_trip`.
-/

------------------------------------------------------------
-- Bytes After Stores
------------------------------------------------------------

namespace RiscvEm

variable {m m' : MemoryMap}
variable {gpa : BitVec 64}
variable {bs : List (BitVec 8)}

theorem holdsBytes_iff :
    HoldsBytes m gpa bs ↔ ∀ i (h : i < bs.length),
      m.load (gpa + BitVec.ofNat 64 i) 8 =
        .ok (bs[i].setWidth 64) := by
  induction bs generalizing gpa with
  | nil =>
      exact iff_of_true trivial
        (fun i h => absurd h (Nat.not_lt_zero i))
  | cons b bs ih =>
      have hNext : ∀ i, gpa + BitVec.ofNat 64 (i + 1) =
          gpa + 1 + BitVec.ofNat 64 i := by
        intro i
        rw [BitVec.ofNat_add]
        bv_omega
      unfold HoldsBytes
      rw [ih]
      constructor
      · rintro ⟨hFirst, hRest⟩ i hi
        cases i with
        | zero => simpa using hFirst
        | succ i =>
            rw [hNext]
            exact hRest i (Nat.lt_of_succ_lt_succ hi)
      · intro hAll
        refine ⟨?_, ?_⟩
        · simpa using hAll 0 (Nat.succ_pos _)
        · intro i hi
          rw [← hNext]
          exact hAll (i + 1) (Nat.succ_lt_succ hi)

/- Bytes survive stores that lie apart. -/
theorem HoldsBytes.stores
    {ss : List GuestStore}
    (h : HoldsBytes m gpa bs)
    (hStores : storeAll m ss = .ok m')
    (hRam : m.InRam ⟨gpa, bs.length⟩)
    (hApart : StoresApart m ss ⟨gpa, bs.length⟩) :
    HoldsBytes m' gpa bs := by
  rw [holdsBytes_iff] at h ⊢
  intro i hi
  have hPart : Area.Part ⟨gpa + BitVec.ofNat 64 i, 1⟩
      ⟨gpa, bs.length⟩ :=
    ⟨i, rfl, hi⟩
  exact storeAll_load_apart hStores hApart hRam hPart rfl
    (h i hi)

theorem byteStores_within
    {s : GuestStore}
    (h : s ∈ byteStores gpa bs) :
    s.Within ⟨gpa, bs.length⟩ := by
  rcases mem_byteStores h with ⟨hBits, k, hLt, hAddr⟩
  refine ⟨1, ?_, k, hAddr, hLt⟩
  rw [hBits]
  rfl

/- The address after a byte of an area. -/
theorem toNat_add_one
    {n : Nat}
    (h : m.InRam ⟨gpa, n + 1⟩) :
    (gpa + 1).toNat = gpa.toNat + 1 := by
  have hFit := h.fit
  have hOne : (1 : BitVec 64).toNat = 1 := rfl
  dsimp only at hFit
  rw [BitVec.toNat_add, hOne, Nat.mod_eq_of_lt (by omega)]

/- Bytes that were stored one after another are held. -/
theorem byteStores_hold
    (hRam : m.InRam ⟨gpa, bs.length⟩)
    (h : storeAll m (byteStores gpa bs) = .ok m') :
    HoldsBytes m' gpa bs := by
  induction bs generalizing m gpa with
  | nil => trivial
  | cons b bs ih =>
      rcases bind_eq_ok.mp h with ⟨m₁, hStore, hRest⟩
      have hLayout := MemoryMap.store_layout rfl hStore
      have hTail : Area.Part ⟨gpa + 1, bs.length⟩
          ⟨gpa, (b :: bs).length⟩ :=
        ⟨1, rfl, (Nat.add_comm _ _).le⟩
      have hHead : Area.Part ⟨gpa, 1⟩
          ⟨gpa, (b :: bs).length⟩ :=
        ⟨0, by simp, by simp⟩
      have hRamTail := (hRam.part hTail).layout hLayout
      have hRamHead := (hRam.part hHead).layout hLayout
      refine ⟨?_, ih hRamTail hRest⟩
      have hLoad := MemoryMap.load_store rfl hStore
      have hByte : BitVec.ofNat 64
          ((b.setWidth 64).toNat % 256 ^ 1) =
          b.setWidth 64 := by
        have hLt := b.isLt
        apply BitVec.eq_of_toNat_eq
        rw [BitVec.toNat_ofNat, BitVec.toNat_setWidth]
        omega
      rw [hByte] at hLoad
      have hApart : StoresApart m₁ (byteStores (gpa + 1) bs)
          ⟨gpa, 1⟩ := by
        intro s hMem
        refine ⟨_, byteStores_within hMem, hRamTail, ?_⟩
        exact Or.inr (toNat_add_one hRam).ge
      exact storeAll_load_apart hRest hApart hRamHead
        (Area.part_refl _) rfl hLoad

/- The areas of the buffers of a list of descriptors. -/
theorem bufferAreas_cons
    (d : VirtqDesc)
    (ds : List VirtqDesc) :
    bufferAreas (d :: ds) =
      if d.len = 0 then bufferAreas ds
      else ⟨d.addr, d.len.toNat⟩ :: bufferAreas ds :=
  rfl

/- Stores into buffers lie apart from what the buffers do. -/
theorem scatterStores_apart
    {buf : List (BitVec 8)}
    {datas : List VirtqDesc}
    {b : Area}
    (hRam : ∀ a ∈ bufferAreas datas, m.InRam a)
    (hApart : ∀ a ∈ bufferAreas datas, a.Apart b) :
    StoresApart m (flatStores (scatterStores buf datas)) b := by
  intro s hMem
  rcases List.mem_flatMap.mp hMem with ⟨⟨d, ss⟩, hPair, hIn⟩
  rcases scatterStores_inside hPair hIn with
    ⟨hBits, k, hLt, hAddr⟩
  rcases mem_scatterStores.mp hPair with
    ⟨before, after, hDatas, -, -⟩
  have hLen : d.len ≠ 0 := by
    intro hZero
    rw [hZero] at hLt
    exact absurd hLt (Nat.not_lt_zero _)
  have hDesc : d ∈ datas := by
    rw [hDatas]
    exact List.mem_append_right _ (List.mem_cons_self ..)
  have hArea := mem_bufferAreas hDesc hLen
  refine ⟨⟨d.addr, d.len.toNat⟩, ⟨1, ?_, k, hAddr, hLt⟩,
    hRam _ hArea, hApart _ hArea⟩
  rw [hBits]
  rfl

/- What the buffers hold survives stores that lie apart. -/
theorem BuffersHold.stores
    {datas : List VirtqDesc}
    {buf : List (BitVec 8)}
    {ss : List GuestStore}
    (h : BuffersHold m datas buf)
    (hStores : storeAll m ss = .ok m')
    (hRam : ∀ a ∈ bufferAreas datas, m.InRam a)
    (hApart : ∀ a ∈ bufferAreas datas, StoresApart m ss a) :
    BuffersHold m' datas buf := by
  induction datas generalizing buf with
  | nil => exact h
  | cons d ds ih =>
      rcases h with ⟨hLe, hHolds, hRest⟩
      rw [bufferAreas_cons] at hRam hApart
      by_cases hLen : d.len = 0
      · rw [if_pos hLen] at hRam hApart
        refine ⟨hLe, ?_, ih hRest hRam hApart⟩
        rw [hLen]
        trivial
      · rw [if_neg hLen, List.forall_mem_cons] at hRam hApart
        refine ⟨hLe, ?_, ih hRest hRam.2 hApart.2⟩
        have hTake := List.length_take_of_le hLe
        refine hHolds.stores hStores ?_ ?_
        · rw [hTake]
          exact hRam.1
        · rw [hTake]
          exact hApart.1

/-
  Filling buffers that lie apart leaves the bytes in them.
-/
theorem scatterStores_hold
    {datas : List VirtqDesc}
    {buf : List (BitVec 8)}
    (hLen : buf.length = dataTotal datas)
    (hWrite : ∀ d ∈ datas, d.isWrite = true)
    (hRam : ∀ a ∈ bufferAreas datas, m.InRam a)
    (hApart : (bufferAreas datas).Pairwise Area.Apart)
    (h : storeAll m (flatStores (scatterStores buf datas)) =
      .ok m') :
    BuffersHold m' datas buf := by
  induction datas generalizing m buf with
  | nil => exact List.length_eq_zero_iff.mp hLen
  | cons d ds ih =>
      rw [dataTotal_cons] at hLen
      rw [List.forall_mem_cons] at hWrite
      have hLe : d.len.toNat ≤ buf.length := by
        omega
      have hTake := List.length_take_of_le hLe
      have hDrop : (buf.drop d.len.toNat).length =
          dataTotal ds := by
        rw [List.length_drop]
        omega
      unfold scatterStores at h
      rw [if_pos hWrite.1, flatStores_cons, storeAll_append]
        at h
      rcases bind_eq_ok.mp h with ⟨m₁, hFirst, hRest⟩
      have hLayout := storeAll_layout hFirst
      rw [bufferAreas_cons] at hRam hApart
      by_cases hZero : d.len = 0
      · rw [if_pos hZero] at hRam hApart
        refine ⟨hLe, ?_, ih hDrop hWrite.2
          (fun a hMem => (hRam a hMem).layout hLayout)
          hApart hRest⟩
        rw [hZero]
        trivial
      · rw [if_neg hZero, List.forall_mem_cons] at hRam
        rw [if_neg hZero, List.pairwise_cons] at hApart
        have hRamRest : ∀ a ∈ bufferAreas ds, m₁.InRam a :=
          fun a hMem => (hRam.2 a hMem).layout hLayout
        refine ⟨hLe, ?_, ih hDrop hWrite.2 hRamRest hApart.2
          hRest⟩
        have hHolds := byteStores_hold
          (by rw [hTake]; exact hRam.1) hFirst
        refine hHolds.stores hRest ?_ ?_
        · rw [hTake]
          exact hRam.1.layout hLayout
        · rw [hTake]
          exact scatterStores_apart hRamRest
            (fun a hMem => (hApart.1 a hMem).symm)

/- The status byte and the used element lie in their areas. -/
theorem answerStores_apart
    {q : VirtQueueState}
    {status : VirtqDesc}
    {head : BitVec 16}
    {v : BitVec 64}
    {b : Area}
    (hRam : ∀ a ∈ answerAreas q status, m.InRam a)
    (hApart : ∀ a ∈ answerAreas q status, a.Apart b) :
    StoresApart m
      (⟨status.addr, 8, v⟩ :: answerStores q head) b := by
  rcases part_usedElem q with ⟨hId, hLen⟩
  unfold answerAreas at hRam hApart
  simp only [List.forall_mem_cons, List.not_mem_nil,
    false_implies, implies_true, and_true] at hRam hApart
  rcases hRam with ⟨hRamStatus, hRamElem, hRamIdx⟩
  rcases hApart with ⟨hStatus, hElem, hIdx⟩
  unfold StoresApart answerStores
  simp only [List.forall_mem_cons, List.not_mem_nil,
    false_implies, implies_true, and_true]
  refine ⟨?_, ?_, ?_, ?_⟩
  · exact ⟨_, ⟨1, rfl, Area.part_refl _⟩, hRamStatus, hStatus⟩
  · exact ⟨_, ⟨4, rfl, hId⟩, hRamElem, hElem⟩
  · exact ⟨_, ⟨4, rfl, hLen⟩, hRamElem, hElem⟩
  · exact ⟨_, ⟨2, rfl, Area.part_refl _⟩, hRamIdx, hIdx⟩

end RiscvEm

------------------------------------------------------------
-- Bytes Of The Image
------------------------------------------------------------

namespace RiscvEm

variable {d : DiskImage}
variable {pos offset : Nat}
variable {data buf : List (BitVec 8)}

theorem DiskImage.put_holds :
    (d.put pos data).Holds pos data := by
  intro i hi
  rw [DiskImage.byteAt_put_inside (by omega) (by omega),
    Nat.add_sub_cancel_left]

/- Bytes of the image survive a write that lies apart. -/
theorem DiskImage.Holds.put
    (h : d.Holds pos data)
    (hApart : offset + buf.length ≤ pos ∨
      pos + data.length ≤ offset) :
    (d.put offset buf).Holds pos data := by
  intro i hi
  have hSize := h.le_size (List.ne_nil_of_length_pos
    (Nat.lt_of_le_of_lt (Nat.zero_le i) hi))
  rw [DiskImage.byteAt_put_outside (by omega),
    if_neg (fun hGap => by omega)]
  exact h i hi

/- A read returns the bytes that the image holds. -/
theorem diskRead_of_holds
    {sector : BitVec 64}
    (hSeek : seekSector sector = some pos)
    (h : d.Holds pos data) :
    diskRead (some d) sector data.length = some data := by
  unfold diskRead
  rw [hSeek]
  refine congrArg some (List.ext_getElem ?_ ?_)
  · rw [List.length_map, List.length_range]
  · intro i _ hi
    have hByte := h i hi
    unfold DiskImage.byteAt at hByte
    rw [List.getElem?_eq_getElem hi] at hByte
    rw [List.getElem_map, List.getElem_range]
    split at hByte
    case isTrue hIn =>
      rw [if_pos hIn]
      exact Option.some.inj hByte
    case isFalse => cases hByte

/- Where the file can be that long, the place is exact. -/
theorem seekSector_of_lt
    {sector : BitVec 64}
    (h : sector.toNat * 512 < 2 ^ 63) :
    seekSector sector = some (sector.toNat * 512) := by
  have hVal : (sector * SECTOR_SIZE).toNat =
      sector.toNat * 512 := by
    have hUnit : SECTOR_SIZE.toNat = 512 := rfl
    rw [BitVec.toNat_mul, hUnit]
    exact Nat.mod_eq_of_lt (by omega)
  unfold seekSector
  dsimp only
  rw [hVal, if_pos h]

end RiscvEm

------------------------------------------------------------
-- Requests In Between
------------------------------------------------------------

namespace RiscvEm

variable {cfg : PlicConfig}
variable {w w' : BlkWorld cfg}
variable {pos n : Nat}
variable {data : List (BitVec 8)}

/- The image of the device holds the bytes. -/
def ImageHolds
    (pos : Nat)
    (data : List (BitVec 8))
    (b : VirtioBlk cfg) : Prop :=
  ∃ d, b.disk = some d ∧ d.Holds pos data

/-
  A write request that comes next does not write to the `n`
  bytes from `pos` on.
-/
def RequestApart
    (pos n : Nat)
    (w : BlkWorld cfg) : Prop :=
  ∀ r, Names w r → r.req.type = VIRTIO_BLK_T_OUT →
    ∀ offset, seekSector r.req.sector = some offset →
      offset + dataTotal r.datas ≤ pos ∨ pos + n ≤ offset

/-
  A request to other sectors is apart if its place on the
  image does not wrap.
-/
theorem requestApart_of_sectors
    (hSectors : ∀ r, Names w r →
      r.req.type = VIRTIO_BLK_T_OUT →
      r.pos < 2 ^ 64 ∧
        (r.pos + dataTotal r.datas ≤ pos ∨
          pos + n ≤ r.pos)) :
    RequestApart pos n w := by
  intro r hNames hOut offset hSeek
  rcases hSectors r hNames hOut with ⟨hWrap, hApart⟩
  have hPlace := (seekSector_pos hSeek).2
  change offset = r.pos ∨ 2 ^ 64 ≤ r.pos at hPlace
  omega

/-
  What happens in between: rounds of `process_queue`, and
  operations of the guest with their notifications, with
  requests that lie apart.
-/
inductive ApartStep
    (pos n : Nat) : BlkWorld cfg → BlkWorld cfg → Prop
  | round {w w' : BlkWorld cfg} :
      RequestApart pos n w →
      w.processEntry = .ok w' →
      ApartStep pos n w w'
  | op {w w' : BlkWorld cfg} {op : BlkOp cfg} :
      AlongNotification (RequestApart pos n) w op →
      op.exec w = .ok w' →
      ApartStep pos n w w'

theorem ImageHolds.round
    (h : ImageHolds pos data w.blk)
    (hApart : RequestApart pos data.length w)
    (hEntry : w.processEntry = .ok w') :
    ImageHolds pos data w'.blk := by
  unfold ImageHolds
  rcases processEntry_request hEntry with
    ⟨r, ok, hDone⟩ | ⟨head, hAnswer⟩ | ⟨head, rfl⟩
  · rcases hDone.disk_cases with
      ⟨d, offset, buf, hOver, -, hDisk⟩ | ⟨-, hDisk⟩
    · rcases h with ⟨d', hBefore, hHolds⟩
      rw [hOver.disk] at hBefore
      cases hBefore
      have hPlace := hApart r hDone.names hOver.isOut offset
        hOver.seek
      rw [← hOver.buffers.length] at hPlace
      exact ⟨_, hDisk, hHolds.put hPlace⟩
    · rw [hDisk]
      exact h
  · rw [(complete_device hAnswer).1]
    exact h
  · exact h

theorem ImageHolds.writeReg
    {b : VirtioBlk cfg}
    (h : ImageHolds pos data b)
    (off val : BitVec 64) :
    ImageHolds pos data (b.writeReg off val) := by
  unfold ImageHolds
  rw [(keepsImage_writeReg b off val).disk]
  exact h

theorem ApartStep.imageHolds
    (hStep : ApartStep pos data.length w w')
    (h : ImageHolds pos data w.blk) :
    ImageHolds pos data w'.blk := by
  cases hStep with
  | round hApart hEntry => exact h.round hApart hEntry
  | op hApart hExec =>
      exact exec_keeps
        (fun _ _ hBefore hHere hEntry =>
          hBefore.round hHere hEntry)
        (fun _ off val hBefore => hBefore.writeReg off val)
        hApart hExec h

theorem imageHolds_of_steps
    (hSteps : Relation.ReflTransGen
      (ApartStep pos data.length) w w')
    (h : ImageHolds pos data w.blk) :
    ImageHolds pos data w'.blk := by
  induction hSteps with
  | refl => exact h
  | tail _ hStep ih => exact hStep.imageHolds ih

end RiscvEm

------------------------------------------------------------
-- The Round Trip
------------------------------------------------------------

namespace RiscvEm

variable {cfg : PlicConfig}
variable {w w' : BlkWorld cfg}
variable {header : VirtqDesc}
variable {r : BlkRequest}
variable {ok : Bool}
variable {pos : Nat}
variable {data : List (BitVec 8)}

/- A write request brings the bytes of its buffers home. -/
theorem Completes.write_holds
    {d : DiskImage}
    (h : Completes w r ok w')
    (hOut : r.req.type = VIRTIO_BLK_T_OUT)
    (hDisk : w.blk.disk = some d)
    (hSeek : seekSector r.req.sector = some pos)
    (hData : BuffersHold w.mem r.datas data)
    (hLen : data.length % 512 = 0) :
    ok = true ∧ ImageHolds pos data w'.blk := by
  rcases h.disk_cases with
    ⟨d', offset, buf, hOver, hOk, hAfter⟩ | ⟨hRefused, -⟩
  · have hWrite : Overwrites w r d pos data :=
      ⟨hOut, hDisk, hSeek, hData⟩
    rcases hWrite.unique hOver with ⟨rfl, rfl, rfl⟩
    rw [← hData.length, hLen] at hOk
    exact ⟨hOk, _, hAfter, DiskImage.put_holds⟩
  · have hNone := (hRefused hOut).2 d hDisk
    rw [hSeek] at hNone
    cases hNone

/- A read request delivers what the image holds. -/
theorem Completes.read_holds
    (h : Completes w r ok w')
    (hPlaced : Placed w r)
    (hIn : r.req.type = VIRTIO_BLK_T_IN)
    (hSeek : seekSector r.req.sector = some pos)
    (hImage : ImageHolds pos data w.blk)
    (hLen : dataTotal r.datas = data.length)
    (hWrite : ∀ x ∈ r.datas, x.isWrite = true) :
    ok = true ∧ BuffersHold w'.mem r.datas data := by
  rcases hImage with ⟨d, hDisk, hHolds⟩
  have hAll : r.datas.all VirtqDesc.isWrite = true :=
    List.all_eq_true.mpr hWrite
  have hOk := h.read_ok hIn
  rw [hDisk, hSeek, hAll] at hOk
  have hTransfer : transferStores w r =
      scatterStores data r.datas := by
    unfold transferStores
    rw [if_pos hIn, hDisk, hLen,
      diskRead_of_holds hSeek hHolds]
  have hApart := List.pairwise_append.mp hPlaced.apart
  rcases hApart with ⟨hBuffers, -, hCross⟩
  have hStores := h.stores
  unfold entryStores at hStores
  rw [hTransfer, storeAll_append] at hStores
  rcases bind_eq_ok.mp hStores with ⟨m, hFill, hRest⟩
  have hLayout := storeAll_layout hFill
  have hRam : ∀ a ∈ bufferAreas r.datas, w.mem.InRam a :=
    fun a hMem => hPlaced.inRam a
      (List.mem_append_left _ hMem)
  have hFilled := scatterStores_hold hLen.symm hWrite hRam
    hBuffers hFill
  refine ⟨hOk, hFilled.stores hRest ?_ ?_⟩
  · exact fun a hMem => (hRam a hMem).layout hLayout
  · intro a hMem
    refine answerStores_apart ?_ ?_
    · exact fun b hAnswer =>
        (hPlaced.answer hAnswer).layout hLayout
    · exact fun b hAnswer =>
        (hCross a hMem b hAnswer).symm

/-
  A write request is completed, and whatever follows, as long
  as no request writes to its place on the image, a read
  request of the same sectors is completed and delivers the
  same bytes.
-/
theorem scatter_gather_round_trip
    (w₀ : BlkWorld cfg)
    (header : VirtqDesc)
    (r : BlkRequest)
    (d : DiskImage)
    (data : List (BitVec 8))
    (hSubmitted : Submitted w₀ header r)
    (hPlaced : Placed w₀ r)
    (hOut : r.req.type = VIRTIO_BLK_T_OUT)
    (hData : BuffersHold w₀.mem r.datas data)
    (hLen : data.length % 512 = 0)
    (hDisk : w₀.blk.disk = some d)
    (hFits : r.pos + data.length ≤ d.size)
    (hFile : d.size < 2 ^ 63) :
    ∃ w₁, Completes w₀ r true w₁ ∧
      ∀ w₂, Relation.ReflTransGen
          (ApartStep r.pos data.length) w₁ w₂ →
      ∀ header' r', Submitted w₂ header' r' →
        Placed w₂ r' →
        r'.req.type = VIRTIO_BLK_T_IN →
        r'.req.sector = r.req.sector →
        dataTotal r'.datas = data.length →
        (∀ x ∈ r'.datas, x.isWrite = true) →
        ∃ w₃, Completes w₂ r' true w₃ ∧
          BuffersHold w₃.mem r'.datas data := by
  have hSeek : seekSector r.req.sector = some r.pos :=
    seekSector_of_lt (by
      unfold BlkRequest.pos at hFits
      omega)
  rcases hSubmitted.completes hPlaced with ⟨ok, w₁, hDone⟩
  rcases hDone.write_holds hOut hDisk hSeek hData hLen with
    ⟨rfl, hImage⟩
  refine ⟨w₁, hDone, ?_⟩
  intro w₂ hSteps header' r' hSubmitted' hPlaced' hIn hSector
    hTotal hWrite
  rcases hSubmitted'.completes hPlaced' with ⟨ok, w₃, hDone'⟩
  rw [← hSector] at hSeek
  rcases hDone'.read_holds hPlaced' hIn hSeek
    (imageHolds_of_steps hSteps hImage) hTotal hWrite with
    ⟨rfl, hHold⟩
  exact ⟨w₃, hDone', hHold⟩

/- Memory in which a byte was changed. -/
def withByte
    (off : Nat)
    (b : BitVec 8)
    (m : MemoryMap) : MemoryMap :=
  { m with
    regions := m.regions.map (fun r =>
      { r with data := Function.update r.data off b }) }

/- A write of `0xAA` and zeros to the first sector. -/
def firstWrite : MemoryMap :=
  requestMemory 512 1 1 0

/- Then a write of zeros to the sector `2 ^ 55`. -/
def otherWrite : MemoryMap :=
  withByte 0x202 2 (withByte 0x600 0 (requestMemory 512 1 1 0x80))

/- A read of the first sector, as the entry `n`. -/
def thenRead
    (n : BitVec 8) : MemoryMap :=
  withByte 0x202 n (requestMemory 512 3 0 0)

/- The bytes of the first write. -/
def tripData : List (BitVec 8) :=
  0xAA :: List.replicate 511 0

/- The queue after `n` requests were answered. -/
def queueAfter
    (n : BitVec 16) : VirtQueueState :=
  { VirtQueueState.init with
    size := 8
    descAddr := 0x80000100
    availAddr := 0x80000200
    usedAddr := 0x80000300
    lastAvailIdx := n
    lastUsedIdx := n
    ready := true }

def tripHeader : VirtqDesc :=
  ⟨0x80000400, 16, 1, 1⟩

/- Areas in the RAM of these memories. -/
def TripAreas
    (q : VirtQueueState)
    (r : BlkRequest) : Prop :=
  (∀ a ∈ bufferAreas r.datas ++ answerAreas q r.status,
    2 ^ 31 ≤ a.addr.toNat ∧
      a.addr.toNat + a.len ≤ 2 ^ 31 + 0x1000) ∧
  (bufferAreas r.datas ++ answerAreas q r.status).Pairwise
    (fun a b => a.addr.toNat + a.len ≤ b.addr.toNat ∨
      b.addr.toNat + b.len ≤ a.addr.toNat)

instance
    (q : VirtQueueState)
    (r : BlkRequest) :
    Decidable (TripAreas q r) :=
  inferInstanceAs (Decidable (_ ∧ _))

theorem placed_of_tripAreas
    {w : BlkWorld cfg}
    {r : BlkRequest}
    {reg : MemoryRegion}
    (hAreas : TripAreas w.queue r)
    (hDirect : w.mem.ramDirect = some 0)
    (hGet : w.mem.regions[0]? = some reg)
    (hBase : reg.baseAddr = 0x80000000)
    (hSize : reg.size = 0x1000) :
    Placed w r := by
  refine ⟨?_, hAreas.2⟩
  intro a hMem
  have hBounds := hAreas.1 a hMem
  refine ⟨0, reg, hDirect, hGet, hBase, ?_, hBounds.1, ?_⟩
  · rw [hSize]
    decide
  · rw [hSize]
    exact hBounds.2

/- A request at the head of such a table, after `n` others. -/
theorem trip_submitted
    {w : BlkWorld PlicConfig.twoHarts}
    {m : MemoryMap}
    {n : BitVec 16}
    {r : BlkRequest}
    {reg : MemoryRegion}
    (hMem : w.mem = m)
    (hQueue : w.queue = queueAfter n)
    (hHead : r.head = 0)
    (hShape : r.chain = tripHeader :: (r.datas ++ [r.status]))
    (hShort : r.chain.length ≤ 8)
    (hStatus : r.status.isWrite = true)
    (hEntry : m.load (queueAfter n).availEntryAddr 16 = .ok 0)
    (hChain : ChainAt m (queueAfter n) 0 r.chain)
    (hCopy : ∃ bs, copyFromDram m tripHeader.addr reqSize =
      .ok bs ∧ r.req = .ofBytes bs)
    (hAreas : TripAreas (queueAfter n) r)
    (hDirect : m.ramDirect = some 0)
    (hGet : m.regions[0]? = some reg)
    (hBase : reg.baseAddr = 0x80000000)
    (hSize : reg.size = 0x1000) :
    Submitted w tripHeader r ∧ Placed w r := by
  subst hMem
  rw [← hQueue] at hEntry hChain hAreas
  rw [← hHead] at hChain
  rcases hCopy with ⟨bs, hCopy, hReq⟩
  rcases copyFromDram_eq_ok_iff.mp hCopy with ⟨hLen, hHolds⟩
  refine ⟨⟨?_, ?_, hShape, hChain, ?_, by decide,
    ⟨bs, hLen, hHolds, hReq⟩, hStatus⟩,
    placed_of_tripAreas hAreas hDirect hGet hBase hSize⟩
  · rw [hQueue]
    exact (by decide : (0x80000100 : BitVec 64) ≠ 0)
  · rw [hEntry, hHead]
    rfl
  · rw [hQueue]
    exact hShort

/- The first write is submitted to the device at its start. -/
theorem firstWrite_submitted
    {w : BlkWorld PlicConfig.twoHarts}
    (hMem : w.mem = firstWrite)
    (hQueue : w.queue = queueAfter 0) :
    Submitted w tripHeader (requestOf 512 1 1 0) ∧
      Placed w (requestOf 512 1 1 0) :=
  trip_submitted hMem hQueue rfl rfl (by decide) rfl rfl
    (.next rfl rfl (.next rfl rfl (.last rfl rfl)))
    ⟨_, rfl, rfl⟩ (by decide) rfl rfl rfl rfl

theorem otherWrite_submitted
    {w : BlkWorld PlicConfig.twoHarts}
    (hMem : w.mem = otherWrite)
    (hQueue : w.queue = queueAfter 1) :
    Submitted w tripHeader (requestOf 512 1 1 0x80) ∧
      Placed w (requestOf 512 1 1 0x80) :=
  trip_submitted hMem hQueue rfl rfl (by decide) rfl rfl
    (.next rfl rfl (.next rfl rfl (.last rfl rfl)))
    ⟨_, rfl, rfl⟩ (by decide) rfl rfl rfl rfl

theorem thenRead_submitted
    {w : BlkWorld PlicConfig.twoHarts}
    (hMem : w.mem = thenRead 3)
    (hQueue : w.queue = queueAfter 2) :
    Submitted w tripHeader (requestOf 512 3 0 0) ∧
      Placed w (requestOf 512 3 0 0) :=
  trip_submitted hMem hQueue rfl rfl (by decide) rfl rfl
    (.next rfl rfl (.next rfl rfl (.last rfl rfl)))
    ⟨_, rfl, rfl⟩ (by decide) rfl rfl rfl rfl

/- The queue after a request was answered. -/
theorem Submitted.queue_after
    {w w' : BlkWorld PlicConfig.twoHarts}
    {header : VirtqDesc}
    {r : BlkRequest}
    {n : BitVec 16}
    (h : Submitted w header r)
    (hQueue : w.queue = queueAfter n)
    (hDone : w.processEntry = .ok w') :
    w'.queue = queueAfter (n + 1) := by
  have hNames := h.names
  rcases hNames.entry with ⟨v, hLoad, hHead⟩
  rcases processEntry_cases hDone with
    ⟨-, hAnswered⟩ | ⟨hBad, -⟩
  · rw [hAnswered.queue, hQueue]
    rfl
  · refine absurd ⟨v, r.chain, hLoad, ?_, hNames.shape⟩ hBad
    rw [← hHead]
    exact hNames.chain

theorem tripData_held :
    BuffersHold firstWrite (requestOf 512 1 1 0).datas
      tripData := by
  apply gatherOut_eq_ok_iff.mp
  decide +kernel

/-
  A request of one sector whose data is in two parts, the
  first of `len` bytes, as the entry `n`.
-/
def splitMemory
    (n : BitVec 8)
    (len : BitVec 16)
    (flags type sector : BitVec 8) : MemoryMap :=
  { regions := [{
      baseAddr := 0x80000000
      size := 0x1000
      data := fun
        | 0x101 => 0x04
        | 0x103 => 0x80
        | 0x108 => 16
        | 0x10C => 1
        | 0x10E => 1
        | 0x111 => 0x06
        | 0x113 => 0x80
        | 0x118 => len.setWidth 8
        | 0x119 => (len >>> 8).setWidth 8
        | 0x11C => flags
        | 0x11E => 2
        | 0x121 => 0x09
        | 0x123 => 0x80
        | 0x128 => (512 - len).setWidth 8
        | 0x129 => ((512 - len) >>> 8).setWidth 8
        | 0x12C => flags
        | 0x12E => 3
        | 0x131 => 0x05
        | 0x133 => 0x80
        | 0x138 => 1
        | 0x13C => 2
        | 0x202 => n
        | 0x400 => type
        | 0x408 => sector
        | 0x600 => 0xAA
        | 0x900 => 0xBB
        | _ => 0 }]
    ramDirect := some 0 }

def splitRequest
    (len : BitVec 16)
    (flags type sector : BitVec 8) : BlkRequest :=
  let datas : List VirtqDesc :=
    [⟨0x80000600, len.setWidth 32, flags.setWidth 16, 2⟩,
      ⟨0x80000900, (512 - len).setWidth 32,
        flags.setWidth 16, 3⟩]
  let status : VirtqDesc := ⟨0x80000500, 1, 2, 0⟩
  { head := 0
    chain := tripHeader :: (datas ++ [status])
    req := ⟨type.setWidth 32, sector.setWidth 64⟩
    datas := datas
    status := status }

/- Both parts, of which the first has `n + 1` bytes. -/
def splitData
    (n : Nat) : List (BitVec 8) :=
  0xAA :: List.replicate n 0 ++
    0xBB :: List.replicate (510 - n) 0

theorem splitWrite_submitted :
    Submitted (diskReady (splitMemory 1 200 1 1 0)) tripHeader
        (splitRequest 200 1 1 0) ∧
      Placed (diskReady (splitMemory 1 200 1 1 0))
        (splitRequest 200 1 1 0) :=
  trip_submitted (n := 0) rfl rfl rfl rfl (by decide) rfl rfl
    (.next rfl rfl (.next rfl rfl (.next rfl rfl
      (.last rfl rfl))))
    ⟨_, rfl, rfl⟩ (by decide) rfl rfl rfl rfl

/- Then a write to the second sector. -/
theorem splitOther_submitted
    {w : BlkWorld PlicConfig.twoHarts}
    (hMem : w.mem = splitMemory 2 256 1 1 1)
    (hQueue : w.queue = queueAfter 1) :
    Submitted w tripHeader (splitRequest 256 1 1 1) ∧
      Placed w (splitRequest 256 1 1 1) :=
  trip_submitted hMem hQueue rfl rfl (by decide) rfl rfl
    (.next rfl rfl (.next rfl rfl (.next rfl rfl
      (.last rfl rfl))))
    ⟨_, rfl, rfl⟩ (by decide) rfl rfl rfl rfl

/- And a read of the first one, split in another place. -/
theorem splitRead_submitted
    {w : BlkWorld PlicConfig.twoHarts}
    (hMem : w.mem = splitMemory 3 100 3 0 0)
    (hQueue : w.queue = queueAfter 2) :
    Submitted w tripHeader (splitRequest 100 3 0 0) ∧
      Placed w (splitRequest 100 3 0 0) :=
  trip_submitted hMem hQueue rfl rfl (by decide) rfl rfl
    (.next rfl rfl (.next rfl rfl (.next rfl rfl
      (.last rfl rfl))))
    ⟨_, rfl, rfl⟩ (by decide) rfl rfl rfl rfl

theorem splitData_held :
    BuffersHold (splitMemory 1 200 1 1 0)
      (splitRequest 200 1 1 0).datas (splitData 199) := by
  apply gatherOut_eq_ok_iff.mp
  decide +kernel

theorem splitOther_held :
    BuffersHold (splitMemory 2 256 1 1 1)
      (splitRequest 256 1 1 1).datas (splitData 255) := by
  apply gatherOut_eq_ok_iff.mp
  decide +kernel

/- The second sector lies apart from the first. -/
theorem splitOther_apart
    {w : BlkWorld PlicConfig.twoHarts}
    (hNames : Names w (splitRequest 256 1 1 1)) :
    RequestApart 0 512 w := by
  intro r hOther _ offset hSeek
  rw [hNames.unique hOther] at hSeek
  cases hSeek
  exact Or.inr le_rfl

/-
  What was written to the first sector is read from there,
  in other parts and after a write to the second one.
-/
theorem round_trip_sector :
    ∃ w₁ w₂ w₃,
      Completes (diskReady (splitMemory 1 200 1 1 0))
        (splitRequest 200 1 1 0) true w₁ ∧
      Completes (w₁.setMem (splitMemory 2 256 1 1 1))
        (splitRequest 256 1 1 1) true w₂ ∧
      Completes (w₂.setMem (splitMemory 3 100 3 0 0))
        (splitRequest 100 3 0 0) true w₃ ∧
      BuffersHold w₃.mem (splitRequest 100 3 0 0).datas
        (splitData 199) := by
  rcases splitWrite_submitted with ⟨hSubmitted, hPlaced⟩
  rcases scatter_gather_round_trip _ tripHeader _ blankDisk
    (splitData 199) hSubmitted hPlaced rfl splitData_held
    (by decide +kernel) rfl (by decide +kernel)
    (by decide +kernel) with ⟨w₁, hDone₁, hRest⟩
  have hLength : (splitData 199).length = 512 := by
    decide +kernel
  have hPos : (splitRequest 200 1 1 0).pos = 0 := rfl
  rw [hLength, hPos] at hRest
  have hFirst : seekSector
      (splitRequest 200 1 1 0).req.sector = some 0 := rfl
  rcases hDone₁.write_holds rfl rfl hFirst splitData_held
    (by decide +kernel) with ⟨-, d₁, hDisk₁, -⟩
  have hQueue₁ := hSubmitted.queue_after (n := 0) rfl
    hDone₁.done
  rcases splitOther_submitted
    (w := w₁.setMem (splitMemory 2 256 1 1 1)) rfl hQueue₁
    with ⟨hOther, hOtherPlaced⟩
  rcases hOther.completes hOtherPlaced with ⟨ok, w₂, hDone₂⟩
  have hSecond : seekSector
      (splitRequest 256 1 1 1).req.sector = some 512 := rfl
  rcases hDone₂.write_holds rfl hDisk₁ hSecond
    splitOther_held (by decide +kernel) with ⟨rfl, -⟩
  have hQueue₂ := hOther.queue_after (n := 1) hQueue₁
    hDone₂.done
  have hThen := splitRead_submitted
    (w := w₂.setMem (splitMemory 3 100 3 0 0)) rfl hQueue₂
  have hGuest : ∀ (w : BlkWorld PlicConfig.twoHarts) m,
      ApartStep 0 512 w (w.setMem m) := by
    intro w m
    have hExec : (BlkOp.guest m w.plic).exec w =
        .ok (w.setMem m) := rfl
    refine .op ?_ hExec
    exact fun hNotifies => absurd hNotifies id
  have hRound : ApartStep 0 512
      (w₁.setMem (splitMemory 2 256 1 1 1)) w₂ :=
    .round (splitOther_apart hDone₂.names) hDone₂.done
  rcases hRest _ (((Relation.ReflTransGen.single
    (hGuest _ _)).tail hRound).tail (hGuest _ _)) tripHeader _
    hThen.1 hThen.2 rfl rfl (by decide +kernel) (by decide)
    with ⟨w₃, hRead, hHold⟩
  exact ⟨w₁, w₂, w₃, hDone₁, hDone₂, hRead, hHold⟩

/-
  A write to the sector `2 ^ 55` in between replaces the
  bytes, although that is another sector.
-/
theorem round_trip_overwritten :
    ∃ w₁ w₂ w₃,
      Submitted (diskReady firstWrite) tripHeader
        (requestOf 512 1 1 0) ∧
      Placed (diskReady firstWrite) (requestOf 512 1 1 0) ∧
      BuffersHold firstWrite (requestOf 512 1 1 0).datas
        tripData ∧
      Completes (diskReady firstWrite) (requestOf 512 1 1 0)
        true w₁ ∧
      Completes (w₁.setMem otherWrite) (requestOf 512 1 1 0x80)
        true w₂ ∧
      (requestOf 512 1 1 0).pos + tripData.length ≤
        (requestOf 512 1 1 0x80).pos ∧
      Submitted (w₂.setMem (thenRead 3)) tripHeader
        (requestOf 512 3 0 0) ∧
      Placed (w₂.setMem (thenRead 3)) (requestOf 512 3 0 0) ∧
      Completes (w₂.setMem (thenRead 3)) (requestOf 512 3 0 0)
        true w₃ ∧
      ¬ BuffersHold w₃.mem (requestOf 512 3 0 0).datas
        tripData := by
  have hZeros : BuffersHold otherWrite
      (requestOf 512 1 1 0x80).datas
      (List.replicate 512 0) := by
    apply gatherOut_eq_ok_iff.mp
    decide +kernel
  have hLen : (List.replicate 512 (0 : BitVec 8)).length =
      512 :=
    List.length_replicate
  rcases firstWrite_submitted (w := diskReady firstWrite) rfl
    rfl with ⟨hFirst, hFirstPlaced⟩
  rcases hFirst.completes hFirstPlaced with ⟨ok, w₁, hDone₁⟩
  rcases hDone₁.write_holds rfl rfl rfl tripData_held
    (by decide +kernel) with ⟨rfl, d₁, hDisk₁, -⟩
  have hQueue₁ := hFirst.queue_after (n := 0) rfl hDone₁.done
  rcases otherWrite_submitted (w := w₁.setMem otherWrite) rfl
    hQueue₁ with ⟨hOther, hOtherPlaced⟩
  rcases hOther.completes hOtherPlaced with ⟨ok, w₂, hDone₂⟩
  have hWraps : seekSector (requestOf 512 1 1 0x80).req.sector =
      some 0 := rfl
  rcases hDone₂.write_holds rfl hDisk₁ hWraps hZeros
    (by rw [hLen]) with ⟨rfl, hImage⟩
  have hQueue₂ := hOther.queue_after (n := 1) hQueue₁
    hDone₂.done
  rcases thenRead_submitted (w := w₂.setMem (thenRead 3)) rfl
    hQueue₂ with ⟨hRead, hReadPlaced⟩
  rcases hRead.completes hReadPlaced with ⟨ok, w₃, hDone₃⟩
  have hPlace : seekSector (requestOf 512 3 0 0).req.sector =
      some 0 := rfl
  rcases hDone₃.read_holds hReadPlaced rfl hPlace hImage
    (by rw [hLen]; rfl) (by decide) with ⟨rfl, hHold⟩
  refine ⟨w₁, w₂, w₃, hFirst, hFirstPlaced, tripData_held,
    hDone₁, hDone₂, ?_, hRead, hReadPlaced, hDone₃, ?_⟩
  · decide +kernel
  · intro hTrip
    have hEq := hHold.unique hTrip
    have hHead := congrArg List.head? hEq
    exact absurd hHead (by decide)

end RiscvEm
