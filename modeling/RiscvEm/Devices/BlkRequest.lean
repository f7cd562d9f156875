import RiscvEm.Devices.VirtioSafety

/-
  Requests of the block device: what the next entry of the
  queue names, what the image holds, and what a round of
  `process_queue` that completes a request has done.

  Key definitions include:
    * `DiskImage.byteAt`
    * `BuffersHold`
    * `BlkRequest`
    * `Completes`

  Key theorems include:
    * `gatherOut_eq_ok_iff`
    * `processEntry_request`
-/

------------------------------------------------------------
-- The Contents Of The Image
------------------------------------------------------------

namespace RiscvEm

namespace DiskImage

variable {d d' : DiskImage}
variable {pos offset : Nat}
variable {buf : List (BitVec 8)}

/- A byte of the file, if it is that long. -/
def byteAt
    (d : DiskImage)
    (i : Nat) : Option (BitVec 8) :=
  if i < d.size then some (d.data i) else none

/- The file holds the bytes from a position on. -/
def Holds
    (d : DiskImage)
    (pos : Nat)
    (buf : List (BitVec 8)) : Prop :=
  ∀ i < buf.length, d.byteAt (pos + i) = buf[i]?

/- The files have the same length and the same bytes. -/
def SameContents
    (d d' : DiskImage) : Prop :=
  ∀ i, d'.byteAt i = d.byteAt i

/- The bytes from a position on were changed, and no other. -/
def WrittenAt
    (d d' : DiskImage)
    (pos : Nat)
    (buf : List (BitVec 8)) : Prop :=
  ∀ i, d'.byteAt i =
    if pos ≤ i ∧ i < pos + buf.length then buf[i - pos]?
    else d.byteAt i

theorem byteAt_of_lt
    {i : Nat}
    (h : i < d.size) :
    d.byteAt i = some (d.data i) :=
  if_pos h

theorem byteAt_of_le
    {i : Nat}
    (h : d.size ≤ i) :
    d.byteAt i = none :=
  if_neg (Nat.not_lt.mpr h)

/- A write of nothing does nothing. -/
theorem put_nil :
    d.put offset [] = d :=
  rfl

theorem put_of_ne
    (h : buf ≠ []) :
    d.put offset buf =
      { data := fun i =>
          if offset ≤ i ∧ i < offset + buf.length then
            buf.getD (i - offset) 0
          else if i < d.size then
            d.data i
          else
            0
        size := max d.size (offset + buf.length) } :=
  if_neg (fun hLen => h (List.length_eq_zero_iff.mp hLen))

theorem byteAt_put_inside
    {i : Nat}
    (hLo : offset ≤ i)
    (hHi : i < offset + buf.length) :
    (d.put offset buf).byteAt i = buf[i - offset]? := by
  have hLt : i - offset < buf.length := by omega
  have hNil : buf ≠ [] := by
    rintro rfl
    exact absurd hLt (Nat.not_lt_zero _)
  rw [put_of_ne hNil, byteAt_of_lt (lt_max_of_lt_right hHi)]
  dsimp only
  rw [if_pos ⟨hLo, hHi⟩, List.getD_eq_getElem?_getD,
    List.getElem?_eq_getElem hLt]
  rfl

/- Behind the end of the file, the gap is filled. -/
theorem byteAt_put_outside
    {i : Nat}
    (hOut : i < offset ∨ offset + buf.length ≤ i) :
    (d.put offset buf).byteAt i =
      if d.size ≤ i ∧ i < offset ∧ buf ≠ [] then some 0
      else d.byteAt i := by
  by_cases hNil : buf = []
  · subst hNil
    rw [put_nil, if_neg (fun h => h.2.2 rfl)]
  · rw [put_of_ne hNil]
    unfold byteAt
    dsimp only
    rw [if_neg (fun h => by omega : ¬ (offset ≤ i ∧
      i < offset + buf.length))]
    by_cases hSize : i < d.size
    · rw [if_pos (lt_max_of_lt_left hSize), if_pos hSize,
        if_neg (fun h => absurd hSize (Nat.not_lt.mpr h.1)),
        if_pos hSize]
    · rw [if_neg hSize, if_neg hSize]
      by_cases hGap : i < offset
      · rw [if_pos (lt_max_of_lt_right (by omega)),
          if_pos ⟨Nat.le_of_not_lt hSize, hGap, hNil⟩]
      · rw [if_neg (by omega), if_neg (fun h => hGap h.2.1)]

/- Bytes that are held lie in the file. -/
theorem Holds.le_size
    (h : d.Holds pos buf)
    (hNil : buf ≠ []) :
    pos + buf.length ≤ d.size := by
  have hPos : 0 < buf.length := List.length_pos_iff.mpr hNil
  by_contra hLe
  have hLast := h (buf.length - 1) (by omega)
  rw [byteAt_of_le (by omega),
    List.getElem?_eq_getElem (by omega)] at hLast
  cases hLast

theorem Holds.at
    (h : d.Holds pos buf)
    {i : Nat}
    (hLo : pos ≤ i)
    (hHi : i < pos + buf.length) :
    d.byteAt i = buf[i - pos]? := by
  have hAt := h (i - pos) (by omega)
  rwa [Nat.add_sub_cancel' hLo] at hAt

/- A write leaves the file as it is if it holds the bytes. -/
theorem put_same_iff :
    d.SameContents (d.put offset buf) ↔
      d.Holds offset buf := by
  constructor
  · intro h i hi
    rw [← h, byteAt_put_inside (by omega) (by omega),
      Nat.add_sub_cancel_left]
  · intro h i
    by_cases hIn : offset ≤ i ∧ i < offset + buf.length
    · rw [byteAt_put_inside hIn.1 hIn.2, h.at hIn.1 hIn.2]
    · rw [byteAt_put_outside (by omega)]
      refine if_neg ?_
      rintro ⟨hSize, hGap, hNil⟩
      have hLe := h.le_size hNil
      omega

/-
  A write at `offset` is the one wanted at `pos` if these are
  the same place and no gap is filled, or if nothing changes
  and nothing had to.
-/
theorem put_written_iff
    (hPos : offset = pos ∨ offset + buf.length ≤ pos) :
    d.WrittenAt (d.put offset buf) pos buf ↔
      (offset = pos ∧ offset ≤ d.size) ∨
        (d.Holds offset buf ∧ d.Holds pos buf) := by
  constructor
  · intro h
    rcases hPos with rfl | hApart
    · by_cases hSize : offset ≤ d.size
      · exact Or.inl ⟨rfl, hSize⟩
      · have hNil : buf = [] := by
          by_contra hNil
          have hGap := h d.size
          rw [byteAt_put_outside (by omega),
            if_pos ⟨le_refl _, by omega, hNil⟩,
            if_neg (by omega), byteAt_of_le (le_refl _)]
            at hGap
          cases hGap
        subst hNil
        exact Or.inr ⟨fun i hi => absurd hi (Nat.not_lt_zero i),
          fun i hi => absurd hi (Nat.not_lt_zero i)⟩
    · refine Or.inr ⟨?_, ?_⟩
      · intro i hi
        have hAt := h (offset + i)
        rw [byteAt_put_inside (by omega) (by omega),
          if_neg (by omega), Nat.add_sub_cancel_left] at hAt
        exact hAt.symm
      · intro i hi
        have hAt := h (pos + i)
        rw [byteAt_put_outside (by omega), if_neg (by omega),
          if_pos ⟨by omega, by omega⟩,
          Nat.add_sub_cancel_left] at hAt
        exact hAt
  · rintro (⟨rfl, hSize⟩ | ⟨hOff, hHeld⟩) i
    · by_cases hIn : offset ≤ i ∧ i < offset + buf.length
      · rw [byteAt_put_inside hIn.1 hIn.2, if_pos hIn]
      · rw [byteAt_put_outside (by omega), if_neg (by omega),
          if_neg hIn]
    · rw [put_same_iff.mpr hOff i]
      by_cases hIn : pos ≤ i ∧ i < pos + buf.length
      · rw [if_pos hIn, hHeld.at hIn.1 hIn.2]
      · rw [if_neg hIn]

end DiskImage

end RiscvEm

------------------------------------------------------------
-- What Guest Memory Holds
------------------------------------------------------------

namespace RiscvEm

variable {m : MemoryMap}

/- Guest memory holds the bytes from an address on. -/
def HoldsBytes
    (m : MemoryMap)
    (gpa : BitVec 64) : List (BitVec 8) → Prop
  | [] => True
  | b :: bs =>
      m.load gpa 8 = .ok (b.setWidth 64) ∧
        HoldsBytes m (gpa + 1) bs

/- The descriptors, one after another, hold the bytes. -/
def BuffersHold
    (m : MemoryMap) :
    List VirtqDesc → List (BitVec 8) → Prop
  | [], buf => buf = []
  | d :: ds, buf =>
      d.len.toNat ≤ buf.length ∧
        HoldsBytes m d.addr (buf.take d.len.toNat) ∧
        BuffersHold m ds (buf.drop d.len.toNat)

/- A load of one byte returns a byte. -/
theorem load_byte
    {gpa v : BitVec 64}
    (h : m.load gpa 8 = .ok v) :
    (v.setWidth 8).setWidth 64 = v := by
  rcases MemoryMap.load_cases rfl h with
    ⟨i, r, -, -, -, -, rfl⟩
  simp [composeLe]

theorem copyFromDram_eq_ok_iff
    {gpa : BitVec 64}
    {n : Nat}
    {bs : List (BitVec 8)} :
    copyFromDram m gpa n = .ok bs ↔
      bs.length = n ∧ HoldsBytes m gpa bs := by
  induction n generalizing gpa bs with
  | zero =>
      rw [List.length_eq_zero_iff]
      constructor
      · intro h
        cases h
        exact ⟨rfl, trivial⟩
      · rintro ⟨rfl, -⟩
        rfl
  | succ n ih =>
      constructor
      · intro h
        rcases bind_eq_ok.mp h with ⟨v, hLoad, h⟩
        rcases bind_eq_ok.mp h with ⟨rest, hRest, hEq⟩
        cases hEq
        rcases ih.mp hRest with ⟨hLen, hHolds⟩
        refine ⟨congrArg (· + 1) hLen, ?_, hHolds⟩
        rw [load_byte hLoad]
        exact hLoad
      · rintro ⟨hLen, hHolds⟩
        cases bs with
        | nil => cases hLen
        | cons b bs =>
            have hRest := ih.mpr
              ⟨Nat.succ.inj hLen, hHolds.2⟩
            refine bind_eq_ok.mpr ⟨_, hHolds.1, ?_⟩
            refine bind_eq_ok.mpr ⟨bs, hRest, ?_⟩
            simp

theorem dataTotal_cons
    (d : VirtqDesc)
    (ds : List VirtqDesc) :
    dataTotal (d :: ds) = d.len.toNat + dataTotal ds := by
  simp only [dataTotal, List.map_cons, List.sum_cons]

/- A write request collects what the descriptors hold. -/
theorem gatherOut_eq_ok_iff
    {datas : List VirtqDesc}
    {buf : List (BitVec 8)} :
    gatherOut m datas = .ok buf ↔
      BuffersHold m datas buf := by
  induction datas generalizing buf with
  | nil =>
      constructor
      · intro h
        cases h
        rfl
      · rintro rfl
        rfl
  | cons d ds ih =>
      constructor
      · intro h
        rcases bind_eq_ok.mp h with ⟨bs, hCopy, h⟩
        rcases bind_eq_ok.mp h with ⟨rest, hRest, hEq⟩
        cases hEq
        rcases copyFromDram_eq_ok_iff.mp hCopy with
          ⟨hLen, hHolds⟩
        refine ⟨?_, ?_, ?_⟩
        · rw [List.length_append]
          omega
        · rwa [List.take_left' hLen]
        · rw [List.drop_left' hLen]
          exact ih.mp hRest
      · rintro ⟨hLe, hHolds, hRest⟩
        have hCopy := copyFromDram_eq_ok_iff.mpr
          ⟨List.length_take_of_le hLe, hHolds⟩
        refine bind_eq_ok.mpr ⟨_, hCopy, ?_⟩
        refine bind_eq_ok.mpr ⟨_, ih.mpr hRest, ?_⟩
        rw [List.take_append_drop]

theorem BuffersHold.length
    {datas : List VirtqDesc}
    {buf : List (BitVec 8)}
    (h : BuffersHold m datas buf) :
    buf.length = dataTotal datas := by
  induction datas generalizing buf with
  | nil =>
      rw [show buf = [] from h]
      rfl
  | cons d ds ih =>
      rcases h with ⟨hLe, -, hRest⟩
      have hLen := ih hRest
      rw [List.length_drop] at hLen
      rw [dataTotal_cons]
      omega

/- The bytes that the descriptors hold are determined. -/
theorem BuffersHold.unique
    {datas : List VirtqDesc}
    {buf buf' : List (BitVec 8)}
    (h : BuffersHold m datas buf)
    (h' : BuffersHold m datas buf') :
    buf' = buf := by
  have hGather := gatherOut_eq_ok_iff.mpr h
  rw [gatherOut_eq_ok_iff.mpr h'] at hGather
  cases hGather
  rfl

end RiscvEm

------------------------------------------------------------
-- Requests
------------------------------------------------------------

namespace RiscvEm

variable {cfg : PlicConfig}
variable {w w' : BlkWorld cfg}

/- A request with the descriptors that make it up. -/
structure BlkRequest where
  head : BitVec 16
  chain : List VirtqDesc
  req : VirtioBlkReq
  datas : List VirtqDesc
  status : VirtqDesc

/-
  The next entry of the queue names the request: its chain
  has the shape of one, and a descriptor for the status.
-/
structure Names
    (w : BlkWorld cfg)
    (r : BlkRequest) : Prop where
  entry : ∃ v, w.mem.load w.queue.availEntryAddr 16 = .ok v ∧
    r.head = v.setWidth 16
  chain : fetchDescriptorChain w.mem w.queue r.head =
    .ok (true, r.chain)
  shape : BlkWorld.isRequest r.chain = true
  header : ∃ d ∈ r.chain.head?, ∃ bs,
    copyFromDram w.mem d.addr reqSize = .ok bs ∧
      r.req = .ofBytes bs
  status : ∃ i, statusDesc r.chain = some (i, r.status) ∧
    r.datas = (r.chain.take i).drop 1

/- The state in which the request is carried out. -/
def BlkWorld.taken
    (w : BlkWorld cfg)
    (r : BlkRequest) : BlkWorld cfg :=
  w.log (.consumed r.head)

/- The status byte of a request. -/
def statusVal
    (ok : Bool) : BitVec 64 :=
  if ok then VIRTIO_BLK_S_OK else VIRTIO_BLK_S_IOERR

/-
  A round of `process_queue` completes the request, with
  status OK or IOERR.
-/
structure Completes
    (w : BlkWorld cfg)
    (r : BlkRequest)
    (ok : Bool)
    (w' : BlkWorld cfg) : Prop where
  names : Names w r
  done : w.processEntry = .ok w'
  result : ∃ w₁, (w.taken r).perform r.req r.datas =
    .ok (ok, w₁)

/- The entry names at most one request. -/
theorem Names.unique
    {r r' : BlkRequest}
    (h : Names w r)
    (h' : Names w r') :
    r' = r := by
  rcases r with ⟨head, chain, req, datas, status⟩
  rcases r' with ⟨head', chain', req', datas', status'⟩
  rcases h.entry with ⟨v, hLoad, hHead⟩
  rcases h'.entry with ⟨v', hLoad', hHead'⟩
  rw [hLoad] at hLoad'
  cases hLoad'
  dsimp only at hHead hHead'
  subst hHead hHead'
  have hChain := h'.chain
  rw [h.chain] at hChain
  cases hChain
  rcases h.header with ⟨d, hMem, bs, hCopy, hReq⟩
  rcases h'.header with ⟨d', hMem', bs', hCopy', hReq'⟩
  rw [Option.mem_unique hMem' hMem, hCopy] at hCopy'
  cases hCopy'
  rcases h.status with ⟨i, hStatus, hDatas⟩
  rcases h'.status with ⟨i', hStatus', hDatas'⟩
  dsimp only at hStatus hStatus' hDatas hDatas' hReq hReq'
  rw [hStatus] at hStatus'
  cases hStatus'
  rw [hReq, hReq', hDatas, hDatas']

/- The chain is short enough for its position to be an `int`. -/
theorem statusDesc_short
    {chain : List VirtqDesc}
    {p : Nat × VirtqDesc}
    (h : statusDesc chain = some p) :
    chain.length < 2 ^ 31 := by
  unfold statusDesc at h
  split at h
  case isTrue hLt => exact hLt
  case isFalse => cases h

theorem dataTotal_le
    (datas : List VirtqDesc) :
    dataTotal datas ≤ datas.length * (2 ^ 32 - 1) := by
  induction datas with
  | nil => exact Nat.zero_le _
  | cons d ds ih =>
      have hLt := d.len.isLt
      rw [dataTotal_cons, List.length_cons]
      omega

/- The length of a transfer is far below `2 ^ 64`. -/
theorem Names.dataTotal_lt
    {r : BlkRequest}
    (h : Names w r) :
    dataTotal r.datas < 2 ^ 63 := by
  rcases h.status with ⟨i, hStatus, hDatas⟩
  have hShort := statusDesc_short hStatus
  have hLen : r.datas.length ≤ r.chain.length := by
    rw [hDatas, List.length_drop, List.length_take]
    omega
  have hTotal := dataTotal_le r.datas
  omega

end RiscvEm

------------------------------------------------------------
-- One Round
------------------------------------------------------------

namespace RiscvEm

variable {cfg : PlicConfig}
variable {w w' w₁ : BlkWorld cfg}
variable {r : BlkRequest}
variable {ok : Bool}

def BlkWorld.setDisk
    (w : BlkWorld cfg)
    (d : DiskImage) : BlkWorld cfg :=
  { w with blk := { w.blk with disk := some d } }

/- What a transfer can do, and what it then has done. -/
inductive Performed
    (w : BlkWorld cfg)
    (req : VirtioBlkReq)
    (datas : List VirtqDesc) : Bool → BlkWorld cfg → Prop
  | readRefused :
      req.type = VIRTIO_BLK_T_IN →
      diskRead w.blk.disk req.sector (dataTotal datas) =
        none →
      Performed w req datas false w
  | read {ok : Bool} {buf : List (BitVec 8)}
      {m : MemoryMap} :
      req.type = VIRTIO_BLK_T_IN →
      diskRead w.blk.disk req.sector (dataTotal datas) =
        some buf →
      scatterIn w.mem buf datas = .ok (ok, m) →
      Performed w req datas ok (w.setMem m)
  | writeRefused {buf : List (BitVec 8)} :
      req.type = VIRTIO_BLK_T_OUT →
      BuffersHold w.mem datas buf →
      diskWrite w.blk.disk req.sector buf = none →
      Performed w req datas false w
  | written {buf : List (BitVec 8)} {d : DiskImage}
      {offset : Nat} :
      req.type = VIRTIO_BLK_T_OUT →
      BuffersHold w.mem datas buf →
      w.blk.disk = some d →
      seekSector req.sector = some offset →
      Performed w req datas (dataTotal datas % 512 == 0)
        (w.setDisk (d.put offset buf))
  | unsupported :
      req.type ≠ VIRTIO_BLK_T_IN →
      req.type ≠ VIRTIO_BLK_T_OUT →
      Performed w req datas false w

theorem diskWrite_eq_some
    {disk : Option DiskImage}
    {sector : BitVec 64}
    {buf : List (BitVec 8)}
    {d' : DiskImage}
    (h : diskWrite disk sector buf = some d') :
    ∃ d offset, disk = some d ∧
      seekSector sector = some offset ∧
      d' = d.put offset buf := by
  rcases Option.bind_eq_some_iff.mp h with ⟨d, hDisk, h⟩
  rcases Option.map_eq_some_iff.mp h with
    ⟨offset, hSeek, hPut⟩
  exact ⟨d, offset, hDisk, hSeek, hPut.symm⟩

theorem perform_performed
    {req : VirtioBlkReq}
    {datas : List VirtqDesc}
    (h : w.perform req datas = .ok (ok, w')) :
    Performed w req datas ok w' := by
  unfold BlkWorld.perform at h
  split at h
  case isTrue hIn =>
    split at h
    case h_1 hRead =>
      cases h
      exact .readRefused hIn hRead
    case h_2 buf hRead =>
      rcases bind_eq_ok.mp h with ⟨⟨ok', m⟩, hScatter, hEq⟩
      cases hEq
      exact .read hIn hRead hScatter
  case isFalse hIn =>
    split at h
    case isTrue hOut =>
      rcases bind_eq_ok.mp h with ⟨buf, hGather, h⟩
      have hHold := gatherOut_eq_ok_iff.mp hGather
      split at h
      case h_1 hWrite =>
        cases h
        exact .writeRefused hOut hHold hWrite
      case h_2 disk hWrite =>
        cases h
        rcases diskWrite_eq_some hWrite with
          ⟨d, offset, hDisk, hSeek, rfl⟩
        exact .written hOut hHold hDisk hSeek
    case isFalse hOut =>
      cases h
      exact .unsupported hIn hOut

/- The answer to an entry keeps the image and its capacity. -/
theorem complete_device
    {head : BitVec 16}
    (h : w.complete head = .ok w') :
    w'.blk.disk = w.blk.disk ∧
      w'.blk.capacitySectors = w.blk.capacitySectors := by
  rcases bind_eq_ok.mp h with ⟨m₁, -, h⟩
  rcases bind_eq_ok.mp h with ⟨m₂, -, h⟩
  rcases bind_eq_ok.mp h with ⟨m₃, -, h⟩
  rcases bind_eq_ok.mp h with ⟨plic, -, hEq⟩
  cases hEq
  exact ⟨rfl, rfl⟩

theorem Performed.capacity
    {req : VirtioBlkReq}
    {datas : List VirtqDesc}
    (h : Performed w req datas ok w') :
    w'.blk.capacitySectors = w.blk.capacitySectors := by
  cases h with
  | readRefused _ _ => rfl
  | read _ _ _ => rfl
  | writeRefused _ _ _ => rfl
  | written _ _ _ _ => rfl
  | unsupported _ _ => rfl

/- A request is carried out and gets its status byte. -/
theorem serve_request
    {chain : List VirtqDesc}
    {d : VirtqDesc}
    {bs : List (BitVec 8)}
    {i : Nat}
    {status : VirtqDesc}
    (hHead : d ∈ chain.head?)
    (hCopy : copyFromDram w.mem d.addr reqSize = .ok bs)
    (hStatus : statusDesc chain = some (i, status))
    (h : w.serve chain = .ok w') :
    ∃ ok w₁ m,
      w.perform (.ofBytes bs) ((chain.take i).drop 1) =
        .ok (ok, w₁) ∧
      w₁.mem.store status.addr 8 (statusVal ok) = .ok m ∧
      w' = w₁.setMem m := by
  cases chain with
  | nil => cases hHead
  | cons d' ds =>
      cases hHead
      unfold BlkWorld.serve at h
      rcases bind_eq_ok.mp h with ⟨bs', hCopy', h⟩
      rw [hCopy] at hCopy'
      cases hCopy'
      rw [hStatus] at h
      rcases bind_eq_ok.mp h with ⟨⟨ok, w₁⟩, hPerform, h⟩
      rcases bind_eq_ok.mp h with ⟨m, hStore, hEq⟩
      cases hEq
      exact ⟨ok, w₁, m, hPerform, hStore, rfl⟩

/-
  A round that finds a request carries it out, writes the
  status byte and then the used element.
-/
theorem Names.steps
    (h : Names w r)
    (hDone : w.processEntry = .ok w') :
    ∃ ok w₁ m,
      (w.taken r).perform r.req r.datas = .ok (ok, w₁) ∧
      w₁.mem.store r.status.addr 8 (statusVal ok) = .ok m ∧
      (w₁.setMem m).complete r.head = .ok w' := by
  rcases h.entry with ⟨v, hLoad, hHead⟩
  rcases h.header with ⟨d, hMem, bs, hCopy, hReq⟩
  rcases h.status with ⟨i, hStatus, hDatas⟩
  rcases bind_eq_ok.mp hDone with ⟨v', hLoad', hDone⟩
  rw [hLoad] at hLoad'
  cases hLoad'
  rcases bind_eq_ok.mp hDone with
    ⟨⟨done, chain⟩, hFetch, hDone⟩
  rw [← hHead] at hFetch hDone
  change fetchDescriptorChain w.mem w.queue _ = _ at hFetch
  rw [h.chain] at hFetch
  cases hFetch
  dsimp only at hDone
  rw [h.shape, Bool.and_self, if_pos rfl] at hDone
  rcases bind_eq_ok.mp hDone with ⟨w₂, hServe, hComplete⟩
  rcases serve_request (w := w.taken r) hMem hCopy hStatus
    hServe with ⟨ok, w₁, m, hPerform, hStore, rfl⟩
  rw [← hReq, ← hDatas] at hPerform
  exact ⟨ok, w₁, m, hPerform, hStore, hComplete⟩

/- A round that finds a request completes it. -/
theorem Names.completes
    (h : Names w r)
    (hDone : w.processEntry = .ok w') :
    ∃ ok, Completes w r ok w' := by
  rcases h.steps hDone with ⟨ok, w₁, m, hPerform, -, -⟩
  exact ⟨ok, h, hDone, w₁, hPerform⟩

theorem Completes.steps
    (h : Completes w r ok w') :
    ∃ w₁ m,
      Performed (w.taken r) r.req r.datas ok w₁ ∧
      w₁.mem.store r.status.addr 8 (statusVal ok) = .ok m ∧
      (w₁.setMem m).complete r.head = .ok w' := by
  rcases h.names.steps h.done with
    ⟨ok', w₁, m, hPerform, hStore, hComplete⟩
  rcases h.result with ⟨w₂, hPerform'⟩
  rw [hPerform] at hPerform'
  cases hPerform'
  exact ⟨w₁, m, perform_performed hPerform, hStore, hComplete⟩

/-
  A round completes a request, or answers an entry without a
  status byte, or drops the entry.
-/
theorem processEntry_request
    (h : w.processEntry = .ok w') :
    (∃ r ok, Completes w r ok w') ∨
      (∃ head, (w.log (.consumed head)).complete head =
        .ok w') ∨
      (∃ head, w' = (w.log (.consumed head)).skipAvail) := by
  have hDone := h
  rcases bind_eq_ok.mp h with ⟨v, hLoad, h⟩
  rcases bind_eq_ok.mp h with ⟨⟨done, chain⟩, hFetch, h⟩
  change fetchDescriptorChain w.mem w.queue _ = _ at hFetch
  dsimp only at h
  by_cases hGood : (done && BlkWorld.isRequest chain) = true
  · rw [if_pos hGood] at h
    rw [Bool.and_eq_true] at hGood
    rcases hGood with ⟨rfl, hShape⟩
    rcases bind_eq_ok.mp h with ⟨w₁, hServe, hComplete⟩
    cases chain with
    | nil => cases hShape
    | cons d ds =>
        unfold BlkWorld.serve at hServe
        rcases bind_eq_ok.mp hServe with ⟨bs, hCopy, hServe⟩
        change copyFromDram w.mem d.addr reqSize = .ok bs
          at hCopy
        cases hStatus : statusDesc (d :: ds) with
        | none =>
            rw [hStatus] at hServe
            cases hServe
            exact Or.inr (Or.inl ⟨_, hComplete⟩)
        | some p =>
            rcases p with ⟨i, status⟩
            rw [hStatus] at hServe
            rcases bind_eq_ok.mp hServe with
              ⟨⟨ok, w₂⟩, hPerform, -⟩
            refine Or.inl ⟨⟨v.setWidth 16, d :: ds,
              .ofBytes bs, ((d :: ds).take i).drop 1,
              status⟩, ok, ?_, hDone, w₂, hPerform⟩
            exact ⟨⟨v, hLoad, rfl⟩, hFetch, hShape,
              ⟨d, rfl, bs, hCopy, rfl⟩, i, hStatus, rfl⟩
  · rw [if_neg hGood] at h
    cases h
    exact Or.inr (Or.inr ⟨_, rfl⟩)

end RiscvEm

------------------------------------------------------------
-- Properties Of The Device
------------------------------------------------------------

namespace RiscvEm

variable {cfg : PlicConfig}
variable {w w' : BlkWorld cfg}
variable {I : VirtioBlk cfg → Prop}
variable {p : BlkWorld cfg → Prop}
variable {availIdx : BitVec 16}
variable {n : Nat}

/-
  What a round keeps where `p` holds, the loop keeps if `p`
  holds along it.
-/
theorem processLoop_keeps
    (hRound : ∀ w w', I w.blk → p w →
      w.processEntry = .ok w' → I w'.blk)
    (hAlong : AlongLoop p availIdx n w)
    (h : w.processLoop availIdx n = .ok w')
    (hBefore : I w.blk) :
    I w'.blk := by
  induction n generalizing w with
  | zero =>
      cases h
      exact hBefore
  | succ n ih =>
      unfold BlkWorld.processLoop at h
      by_cases hEnd : w.queue.lastAvailIdx = availIdx
      · rw [if_pos hEnd] at h
        cases h
        exact hBefore
      · rw [if_neg hEnd] at h
        rcases bind_eq_ok.mp h with ⟨w₁, hEntry, hLoop⟩
        rcases hAlong.resolve_left hEnd with ⟨hHere, hRest⟩
        exact ih (hRest w₁ hEntry) hLoop
          (hRound w w₁ hBefore hHere hEntry)

/- Every entry of a notification satisfies `p` in its turn. -/
def AlongNotification
    (p : BlkWorld cfg → Prop)
    (w : BlkWorld cfg)
    (op : BlkOp cfg) : Prop :=
  Notifies w op → ∀ availIdx,
    w.mem.load (w.queue.availAddr + 2) 16 = .ok availIdx →
      AlongLoop p (availIdx.setWidth 16) (2 ^ 16) w

/- So does an operation, if registers keep it as well. -/
theorem exec_keeps
    {op : BlkOp cfg}
    (hRound : ∀ w w', I w.blk → p w →
      w.processEntry = .ok w' → I w'.blk)
    (hReg : ∀ b off val, I b → I (b.writeReg off val))
    (hAlong : AlongNotification p w op)
    (hExec : op.exec w = .ok w')
    (hBefore : I w.blk) :
    I w'.blk := by
  cases op with
  | guest mem plic =>
      cases hExec
      exact hBefore
  | write addr val =>
      change w.write addr val = .ok w' at hExec
      unfold BlkWorld.write BlkWorld.processQueue at hExec
      dsimp only at hExec
      split at hExec
      case isFalse =>
        cases hExec
        exact hReg _ _ _ hBefore
      case isTrue hOff =>
        split at hExec
        case isTrue =>
          cases hExec
          exact hBefore
        case isFalse hSel =>
          split at hExec
          case isTrue =>
            cases hExec
            exact hBefore
          case isFalse hReady =>
            rcases bind_eq_ok.mp hExec with ⟨v, hLoad, hLoop⟩
            rw [not_or] at hReady
            have hNotifies : Notifies w (.write addr val) :=
              ⟨hOff, not_not.mp hSel,
                Bool.eq_true_of_not_eq_false hReady.1,
                hReady.2⟩
            exact processLoop_keeps hRound
              (hAlong hNotifies v hLoad) hLoop hBefore

theorem alongLoop_of_forall
    (h : ∀ w, p w) :
    AlongLoop p availIdx n w := by
  induction n generalizing w with
  | zero => trivial
  | succ n ih => exact Or.inr ⟨h w, fun _ _ => ih⟩

theorem alongLoop_of_end
    (hEnd : w.queue.lastAvailIdx = availIdx) :
    AlongLoop p availIdx n w := by
  cases n with
  | zero => trivial
  | succ n => exact Or.inl hEnd

/- The image and its capacity are kept. -/
structure KeepsImage
    (b b' : VirtioBlk cfg) : Prop where
  disk : b'.disk = b.disk
  capacitySectors : b'.capacitySectors = b.capacitySectors

theorem keepsImage_modifyQueue
    (b : VirtioBlk cfg)
    (f : VirtQueueState → VirtQueueState) :
    KeepsImage b (b.modifyQueue f) := by
  unfold VirtioBlk.modifyQueue
  split
  · exact ⟨rfl, rfl⟩
  · exact ⟨rfl, rfl⟩

/- Registers change neither the image nor its capacity. -/
theorem keepsImage_writeReg
    (b : VirtioBlk cfg)
    (off val : BitVec 64) :
    KeepsImage b (b.writeReg off val) := by
  unfold VirtioBlk.writeReg
  repeat'
    apply iteInduction (motive := KeepsImage b)
    all_goals intro _
  all_goals first
    | exact keepsImage_modifyQueue b _
    | exact ⟨rfl, rfl⟩

end RiscvEm
