import RiscvEm.Devices.BlkStores
import RiscvEm.Devices.DiskWrites

/-
  Where the device writes in guest memory. A read request
  fills a descriptor before its flag stops it, and the status
  byte is written whatever the length of its descriptor is.

  Key definitions include:
    * `MayWrite`
    * `WritesConfined`
    * `Confinable`

  Key theorems include `process_queue_confined_iff`.
-/

------------------------------------------------------------
-- Where The Device May Write
------------------------------------------------------------

namespace RiscvEm

variable {cfg : PlicConfig}

/- The bytes of a descriptor. -/
def DescCells
    (m : MemoryMap)
    (d : VirtqDesc)
    (c : Cell) : Prop :=
  ∃ k < d.len.toNat,
    m.CellsAt (d.addr + BitVec.ofNat 64 k) 1 c

/- The used element that comes next and the used index. -/
def UsedCells
    (m : MemoryMap)
    (q : VirtQueueState)
    (c : Cell) : Prop :=
  m.CellsAt (q.usedElemAddr + 0) 4 c ∨
    m.CellsAt (q.usedElemAddr + 4) 4 c ∨
    m.CellsAt (q.usedAddr + 2) 2 c

/-
  The used ring, and the descriptors of the chain that are
  writable.
-/
def MayWrite
    (w : BlkWorld cfg)
    (r : BlkRequest)
    (c : Cell) : Prop :=
  UsedCells w.mem w.queue c ∨
    ∃ d ∈ r.chain, d.isWrite = true ∧ DescCells w.mem d c

/-
  Every store of the round goes where it may. A read request
  with a descriptor that is not writable fails, and nothing is
  stored for that descriptor.
-/
structure WritesConfined
    (w : BlkWorld cfg)
    (r : BlkRequest)
    (ok : Bool) : Prop where
  stores : ∀ s ∈ entryStores w r ok, ∀ c,
    s.Touches w.mem c → MayWrite w r c
  refused : r.req.type = VIRTIO_BLK_T_IN →
    ∀ d ∈ r.datas, d.isWrite = false →
      ok = false ∧
      ∀ ss, (d, ss) ∈ transferStores w r → ss = []

/-
  A read that is carried out reaches no descriptor that is not
  writable, unless that one is empty, and the status byte lies
  where the device may write.
-/
structure Confinable
    (w : BlkWorld cfg)
    (r : BlkRequest) : Prop where
  datas : r.req.type = VIRTIO_BLK_T_IN →
    w.blk.disk.isSome = true →
    (seekSector r.req.sector).isSome = true →
    ∀ d, r.datas.find? (fun d => !d.isWrite) = some d →
      d.len = 0
  status : r.status.len = 0 → ∀ c,
    w.mem.CellsAt r.status.addr 1 c → MayWrite w r c

end RiscvEm

------------------------------------------------------------
-- One Request
------------------------------------------------------------

namespace RiscvEm

variable {cfg : PlicConfig}
variable {w w' : BlkWorld cfg}
variable {r : BlkRequest}
variable {ok : Bool}

theorem findStatusDesc_eq_some
    {chain : List VirtqDesc}
    {n i : Nat}
    {status : VirtqDesc}
    (h : findStatusDesc chain n = some (i, status)) :
    0 < i ∧ i < n ∧ chain[i]? = some status ∧
      status.isWrite = true := by
  induction n with
  | zero => cases h
  | succ n ih =>
      cases n with
      | zero => cases h
      | succ n =>
          have hRest : findStatusDesc chain (n + 1) =
              some (i, status) →
              0 < i ∧ i < n + 2 ∧ chain[i]? = some status ∧
                status.isWrite = true := by
            intro hFind
            rcases ih hFind with ⟨hPos, hLt, hBoth⟩
            exact ⟨hPos, Nat.lt_succ_of_lt hLt, hBoth⟩
          unfold findStatusDesc at h
          cases hGet : chain[n + 1]? with
          | none =>
              rw [hGet] at h
              exact hRest h
          | some d =>
              rw [hGet] at h
              dsimp only at h
              split at h
              case isTrue hWrite =>
                cases h
                exact ⟨Nat.succ_pos n, Nat.lt_succ_self _,
                  hGet, hWrite⟩
              case isFalse => exact hRest h

/- The status descriptor is writable and in the chain. -/
theorem Names.status_mem
    (h : Names w r) :
    r.status ∈ r.chain ∧ r.status.isWrite = true := by
  rcases h.status with ⟨i, hStatus, -⟩
  unfold statusDesc at hStatus
  split at hStatus
  case isFalse => cases hStatus
  case isTrue =>
    rcases findStatusDesc_eq_some hStatus with
      ⟨-, -, hGet, hWrite⟩
    exact ⟨List.mem_of_getElem? hGet, hWrite⟩

/- The data descriptors are in the chain. -/
theorem Names.datas_subset
    (h : Names w r)
    {d : VirtqDesc}
    (hMem : d ∈ r.datas) :
    d ∈ r.chain := by
  rcases h.status with ⟨i, -, hDatas⟩
  rw [hDatas] at hMem
  exact List.mem_of_mem_take (List.mem_of_mem_drop hMem)

/- A transfer with stores is a read that is carried out. -/
theorem transferStores_cases
    {d : VirtqDesc}
    {ss : List GuestStore}
    (h : (d, ss) ∈ transferStores w r) :
    r.req.type = VIRTIO_BLK_T_IN ∧
      w.blk.disk.isSome = true ∧
      (seekSector r.req.sector).isSome = true ∧
      ∃ buf, buf.length = dataTotal r.datas ∧
        (d, ss) ∈ scatterStores buf r.datas := by
  unfold transferStores at h
  split at h
  case isFalse => cases h
  case isTrue hIn =>
    cases hRead : diskRead w.blk.disk r.req.sector
        (dataTotal r.datas) with
    | none =>
        rw [hRead] at h
        cases h
    | some buf =>
        rw [hRead] at h
        have hBoth : w.blk.disk.isSome = true ∧
            (seekSector r.req.sector).isSome = true := by
          by_contra hNone
          rw [(diskRead_none_iff _ _ _).mpr hNone] at hRead
          cases hRead
        exact ⟨hIn, hBoth.1, hBoth.2, buf,
          diskRead_length hRead, h⟩

/- The first descriptor that is not writable is filled. -/
theorem find_not_write_iff
    {datas : List VirtqDesc}
    {d : VirtqDesc} :
    datas.find? (fun d => !d.isWrite) = some d ↔
      d.isWrite = false ∧ ∃ before after,
        datas = before ++ d :: after ∧
        ∀ x ∈ before, x.isWrite = true := by
  rw [List.find?_eq_some_iff_append]
  simp only [Bool.not_eq_true', Bool.not_not]

/- Nothing is stored for a descriptor that is not writable. -/
theorem Confinable.refused
    (h : Confinable w r)
    {d : VirtqDesc}
    {ss : List GuestStore}
    (hWrite : d.isWrite = false)
    (hMem : (d, ss) ∈ transferStores w r) :
    ss = [] := by
  rcases transferStores_cases hMem with
    ⟨hIn, hDisk, hSeek, buf, -, hScatter⟩
  rcases mem_scatterStores.mp hScatter with
    ⟨before, after, hDatas, hAll, rfl⟩
  have hFind := find_not_write_iff.mpr
    ⟨hWrite, before, after, hDatas, hAll⟩
  have hLen := h.datas hIn hDisk hSeek d hFind
  rw [hLen]
  rfl

/- A read with such a descriptor fails. -/
theorem Completes.refused
    (h : Completes w r ok w')
    (hIn : r.req.type = VIRTIO_BLK_T_IN)
    {d : VirtqDesc}
    (hMem : d ∈ r.datas)
    (hWrite : d.isWrite = false) :
    ok = false := by
  have hAll : r.datas.all VirtqDesc.isWrite = false := by
    rw [List.all_eq_false]
    exact ⟨d, hMem, by rw [hWrite]; exact Bool.false_ne_true⟩
  rw [h.read_ok hIn, hAll, Bool.and_false]

/- The stores of the transfer go where they may. -/
theorem Confinable.transfer
    (hNames : Names w r)
    (h : Confinable w r)
    {s : GuestStore}
    {c : Cell}
    (hMem : s ∈ flatStores (transferStores w r))
    (hTouch : s.Touches w.mem c) :
    MayWrite w r c := by
  rcases List.mem_flatMap.mp hMem with ⟨⟨d, ss⟩, hPair, hIn⟩
  cases hWrite : d.isWrite with
  | false =>
      rw [show ss = [] from h.refused hWrite hPair] at hIn
      cases hIn
  | true =>
      rcases transferStores_cases hPair with
        ⟨-, -, -, buf, -, hScatter⟩
      rcases scatterStores_inside hScatter hIn with
        ⟨hBits, k, hLt, hAddr⟩
      rcases mem_scatterStores.mp hScatter with
        ⟨before, after, hDatas, -, -⟩
      rcases hTouch with ⟨n, hWidth, hCell⟩
      rw [hBits] at hWidth
      cases hWidth
      rw [hAddr] at hCell
      have hData : d ∈ r.datas := by
        rw [hDatas]
        exact List.mem_append_right _ (List.mem_cons_self ..)
      exact Or.inr ⟨d, hNames.datas_subset hData, hWrite, k,
        hLt, hCell⟩

/- The bytes of the used ring are those of its stores. -/
theorem answerStores_touches
    {m : MemoryMap}
    {q : VirtQueueState}
    {head : BitVec 16}
    {s : GuestStore}
    {c : Cell}
    (hMem : s ∈ answerStores q head)
    (hTouch : s.Touches m c) :
    UsedCells m q c := by
  rcases hTouch with ⟨n, hWidth, hCell⟩
  unfold answerStores at hMem
  simp only [List.mem_cons, List.not_mem_nil, or_false] at hMem
  rcases hMem with rfl | rfl | rfl
  · cases hWidth
    exact Or.inl hCell
  · cases hWidth
    exact Or.inr (Or.inl hCell)
  · cases hWidth
    exact Or.inr (Or.inr hCell)

theorem Confinable.confined
    (hDone : Completes w r ok w')
    (h : Confinable w r) :
    WritesConfined w r ok := by
  refine ⟨?_, ?_⟩
  · intro s hMem c hTouch
    rcases List.mem_append.mp hMem with hTransfer | hRest
    · exact h.transfer hDone.names hTransfer hTouch
    · rcases List.mem_cons.mp hRest with rfl | hAnswer
      · rcases hTouch with ⟨n, hWidth, hCell⟩
        cases hWidth
        by_cases hLen : r.status.len = 0
        · exact h.status hLen c hCell
        · have hPos : 0 < r.status.len.toNat := by
            bv_omega
          rcases hDone.names.status_mem with ⟨hIn, hWrite⟩
          refine Or.inr ⟨r.status, hIn, hWrite, 0, hPos, ?_⟩
          simpa using hCell
      · exact Or.inl (answerStores_touches hAnswer hTouch)
  · intro hIn d hMem hWrite
    exact ⟨hDone.refused hIn hMem hWrite,
      fun ss hPair => h.refused hWrite hPair⟩

/- What the stores of a request reveal about it. -/
theorem WritesConfined.confinable
    (h : WritesConfined w r ok) :
    Confinable w r := by
  refine ⟨?_, ?_⟩
  · intro hIn hDisk hSeek d hFind
    rcases find_not_write_iff.mp hFind with
      ⟨hWrite, before, after, hDatas, hAll⟩
    have hData : d ∈ r.datas := by
      rw [hDatas]
      exact List.mem_append_right _ (List.mem_cons_self ..)
    have hRead : ∃ buf, diskRead w.blk.disk r.req.sector
        (dataTotal r.datas) = some buf := by
      rw [← Option.isSome_iff_exists, Option.isSome_iff_ne_none]
      exact fun hNone => (diskRead_none_iff _ _ _).mp hNone
        ⟨hDisk, hSeek⟩
    rcases hRead with ⟨buf, hRead⟩
    have hPair : (d, byteStores d.addr
        ((buf.drop (dataTotal before)).take d.len.toNat)) ∈
        transferStores w r := by
      unfold transferStores
      rw [if_pos hIn, hRead]
      exact mem_scatterStores.mpr
        ⟨before, after, hDatas, hAll, rfl⟩
    have hNil := byteStores_eq_nil_iff.mp
      ((h.refused hIn d hData hWrite).2 _ hPair)
    have hTotal : dataTotal r.datas =
        dataTotal before + (d.len.toNat + dataTotal after) := by
      rw [hDatas, ← dataTotal_cons]
      unfold dataTotal
      rw [List.map_append, List.sum_append]
    have hBuf := diskRead_length hRead
    have hLength := congrArg List.length hNil
    rw [List.length_take, List.length_drop, List.length_nil]
      at hLength
    have hZero : d.len.toNat = 0 := by
      omega
    exact BitVec.eq_of_toNat_eq hZero
  · intro _ c hCell
    refine h.stores ⟨r.status.addr, 8, statusVal ok⟩ ?_ c
      ⟨1, rfl, hCell⟩
    exact List.mem_append_right _ (List.mem_cons_self ..)

end RiscvEm

------------------------------------------------------------
-- Whole Notifications
------------------------------------------------------------

namespace RiscvEm

variable {cfg : PlicConfig}
variable {w w' : BlkWorld cfg}
variable {availIdx : BitVec 16}
variable {n : Nat}
variable {c : Cell}

/- Where the device may write for the next entry. -/
def EntryMayWrite
    (w : BlkWorld cfg)
    (c : Cell) : Prop :=
  (WellFormedEntry w ∧ UsedCells w.mem w.queue c) ∨
    ∃ r, Names w r ∧
      ∃ d ∈ r.chain, d.isWrite = true ∧ DescCells w.mem d c

/- Where it may write for the entries up to an index. -/
def LoopMayWrite
    (availIdx : BitVec 16) :
    Nat → BlkWorld cfg → Cell → Prop
  | 0, _, _ => False
  | n + 1, w, c =>
      w.queue.lastAvailIdx ≠ availIdx ∧
        (EntryMayWrite w c ∨
          ∃ w', w.processEntry = .ok w' ∧
            LoopMayWrite availIdx n w' c)

/- Where it may write when it is notified. -/
def QueueMayWrite
    (w : BlkWorld cfg)
    (c : Cell) : Prop :=
  ∃ availIdx,
    w.mem.load (w.queue.availAddr + 2) 16 = .ok availIdx ∧
      LoopMayWrite (availIdx.setWidth 16) (2 ^ 16) w c

def EntryConfinable
    (w : BlkWorld cfg) : Prop :=
  ∀ r, Names w r → Confinable w r

/- Each request is confinable when its turn comes. -/
def QueueConfinable
    (w : BlkWorld cfg) : Prop :=
  ∀ availIdx,
    w.mem.load (w.queue.availAddr + 2) 16 = .ok availIdx →
      AlongLoop EntryConfinable (availIdx.setWidth 16)
        (2 ^ 16) w

/- A byte that changed was stored to. -/
theorem exists_store_of_changed
    {m m' : MemoryMap}
    {ss : List GuestStore}
    (h : storeAll m ss = .ok m')
    (hChanged : m'.byteOf c ≠ m.byteOf c) :
    ∃ s ∈ ss, s.Touches m c := by
  by_contra hNone
  refine hChanged (storeAll_byteOf h ?_)
  exact fun s hMem hTouch => hNone ⟨s, hMem, hTouch⟩

theorem processEntry_confined
    (h : w.processEntry = .ok w')
    (hSafe : EntryConfinable w)
    (hChanged : w'.mem.byteOf c ≠ w.mem.byteOf c) :
    EntryMayWrite w c := by
  rcases processEntry_cases h with
    ⟨hGood, -⟩ | ⟨-, head, rfl⟩
  · rcases processEntry_request h with
      ⟨r, ok, hDone⟩ | ⟨head, hAnswer⟩ | ⟨head, rfl⟩
    · have hConfined := (hSafe r hDone.names).confined hDone
      rcases exists_store_of_changed hDone.stores hChanged with
        ⟨s, hMem, hTouch⟩
      rcases hConfined.stores s hMem c hTouch with
        hUsed | hDesc
      · exact Or.inl ⟨hGood, hUsed⟩
      · exact Or.inr ⟨r, hDone.names, hDesc⟩
    · have hStores := answered_stores hAnswer
      rcases exists_store_of_changed hStores hChanged with
        ⟨s, hMem, hTouch⟩
      exact Or.inl ⟨hGood, answerStores_touches hMem hTouch⟩
    · exact absurd rfl hChanged
  · exact absurd rfl hChanged

theorem processLoop_confined
    (h : w.processLoop availIdx n = .ok w')
    (hSafe : AlongLoop EntryConfinable availIdx n w)
    (hChanged : w'.mem.byteOf c ≠ w.mem.byteOf c) :
    LoopMayWrite availIdx n w c := by
  induction n generalizing w with
  | zero =>
      cases h
      exact absurd rfl hChanged
  | succ n ih =>
      unfold BlkWorld.processLoop at h
      by_cases hEnd : w.queue.lastAvailIdx = availIdx
      · rw [if_pos hEnd] at h
        cases h
        exact absurd rfl hChanged
      · rw [if_neg hEnd] at h
        rcases bind_eq_ok.mp h with ⟨w₁, hEntry, hLoop⟩
        rcases hSafe.resolve_left hEnd with ⟨hFirst, hRest⟩
        refine ⟨hEnd, ?_⟩
        by_cases hEarly : w₁.mem.byteOf c = w.mem.byteOf c
        · rw [← hEarly] at hChanged
          exact Or.inr ⟨w₁, hEntry,
            ih hLoop (hRest w₁ hEntry) hChanged⟩
        · exact Or.inl (processEntry_confined hEntry hFirst
            hEarly)

theorem processQueue_confined
    {qsel : BitVec 32}
    (h : w.processQueue qsel = .ok w')
    (hSafe : QueueConfinable w)
    (hChanged : w'.mem.byteOf c ≠ w.mem.byteOf c) :
    QueueMayWrite w c := by
  unfold BlkWorld.processQueue at h
  split at h
  · cases h
    exact absurd rfl hChanged
  · split at h
    · cases h
      exact absurd rfl hChanged
    · rcases bind_eq_ok.mp h with ⟨v, hLoad, hLoop⟩
      exact ⟨v, hLoad,
        processLoop_confined hLoop (hSafe v hLoad) hChanged⟩

/-
  A completed request stores where it may exactly if it is
  confinable, and a notification all of whose requests are
  changes no other byte of memory.
-/
theorem process_queue_confined_iff
    (cfg : PlicConfig) :
    (∀ (w w' : BlkWorld cfg) (r : BlkRequest) (ok : Bool),
      Completes w r ok w' →
        (WritesConfined w r ok ↔ Confinable w r)) ∧
    (∀ (w w' : BlkWorld cfg) (qsel : BitVec 32),
      w.processQueue qsel = .ok w' →
      QueueConfinable w →
      ∀ c, w'.mem.byteOf c ≠ w.mem.byteOf c →
        QueueMayWrite w c) := by
  constructor
  · intro w w' r ok hDone
    exact ⟨fun h => h.confinable, fun h => h.confined hDone⟩
  · intro w w' qsel h hSafe c hChanged
    exact processQueue_confined h hSafe hChanged

/- A byte is to be read into a writable descriptor. -/
theorem readByte_completes :
    ∃ w', Completes (diskReady (requestMemory 1 3 0 0))
        (requestOf 1 3 0 0) true w' ∧
      (diskReady (requestMemory 1 3 0 0)).processQueue 0 =
        .ok w' :=
  requestMemory_completes
    ⟨⟨0, rfl, rfl⟩, rfl, rfl, ⟨_, rfl, _, rfl, rfl⟩,
      2, rfl, rfl⟩
    (by decide +kernel) (by decide +kernel) rfl

/- Such a request is confined, and so is its notification. -/
theorem process_queue_confined_read :
    ∃ w', (diskReady (requestMemory 1 3 0 0)).processQueue 0 =
        .ok w' ∧
      WritesConfined (diskReady (requestMemory 1 3 0 0))
        (requestOf 1 3 0 0) true ∧
      ∀ c, w'.mem.byteOf c ≠
          (requestMemory 1 3 0 0).byteOf c →
        QueueMayWrite (diskReady (requestMemory 1 3 0 0)) c := by
  rcases readByte_completes with ⟨w', hDone, hQueue⟩
  have hRules := process_queue_confined_iff PlicConfig.twoHarts
  have hSafe : Confinable (diskReady (requestMemory 1 3 0 0))
      (requestOf 1 3 0 0) := by
    refine ⟨?_, ?_⟩
    · intro _ _ _ d hFind
      cases hFind
    · intro hLen
      exact absurd hLen (by decide)
  have hSafeQueue :
      QueueConfinable (diskReady (requestMemory 1 3 0 0)) := by
    intro v hLoad
    have hOne : (requestMemory 1 3 0 0).load (0x80000200 + 2)
        16 = .ok 1 := rfl
    change (requestMemory 1 3 0 0).load (0x80000200 + 2)
      16 = .ok v at hLoad
    rw [hOne] at hLoad
    cases hLoad
    change AlongLoop EntryConfinable _ (65535 + 1) _
    refine Or.inr ⟨?_, ?_⟩
    · intro r hNames
      rw [hDone.names.unique hNames]
      exact hSafe
    · intro w₁ hEntry
      exact alongLoop_of_end (processEntry_lastAvailIdx hEntry)
  exact ⟨w', hQueue, (hRules.1 _ w' _ _ hDone).mpr hSafe,
    hRules.2 _ w' 0 hQueue hSafeQueue⟩

/- The byte of the image is read into a buffer of the driver. -/
theorem readOnly_completes :
    ∃ w', Completes (diskReady (requestMemory 1 1 0 0))
        (requestOf 1 1 0 0) false w' ∧
      (diskReady (requestMemory 1 1 0 0)).processQueue 0 =
        .ok w' :=
  requestMemory_completes
    ⟨⟨0, rfl, rfl⟩, rfl, rfl, ⟨_, rfl, _, rfl, rfl⟩,
      2, rfl, rfl⟩
    (by decide +kernel) (by decide +kernel) rfl

/-
  A read request with a buffer that is not writable fails,
  and the buffer has changed.
-/
theorem failed_read_changes_buffer :
    ∃ ts w r w',
      BlkRun (diskStart (requestMemory 1 1 0 0)) ts w ∧
      w.processQueue 0 = .ok w' ∧
      Completes w r false w' ∧
      ¬ QueueMayWrite w (0, 0x600) ∧
      w'.mem.byteOf (0, 0x600) ≠ w.mem.byteOf (0, 0x600) := by
  rcases diskReady_reachable (requestMemory 1 1 0 0) with
    ⟨ts, hRun, -⟩
  rcases readOnly_completes with ⟨w', hDone, hQueue⟩
  refine ⟨ts, _, _, w', hRun, hQueue, hDone, ?_, ?_⟩
  · rintro ⟨v, hLoad, hLoop⟩
    have hOne : (requestMemory 1 1 0 0).load (0x80000200 + 2)
        16 = .ok 1 := rfl
    change (requestMemory 1 1 0 0).load (0x80000200 + 2)
      16 = .ok v at hLoad
    rw [hOne] at hLoad
    cases hLoad
    change LoopMayWrite _ (65535 + 1) _ _ at hLoop
    rcases hLoop.2 with (⟨-, hUsed⟩ | ⟨r, hNames, hDesc⟩) |
      ⟨w₁, hEntry, hRest⟩
    · unfold UsedCells at hUsed
      rw [MemoryMap.cellsAt_iff rfl rfl,
        MemoryMap.cellsAt_iff rfl rfl,
        MemoryMap.cellsAt_iff rfl rfl] at hUsed
      exact absurd hUsed (by decide)
    · rw [hDone.names.unique hNames] at hDesc
      rcases hDesc with ⟨d, hMem, hWrite, k, hLt, hCell⟩
      unfold requestOf at hMem
      simp only [List.mem_cons, List.not_mem_nil, or_false]
        at hMem
      rcases hMem with rfl | rfl | rfl
      · cases hWrite
      · cases hWrite
      · have hZero : k = 0 := Nat.lt_one_iff.mp hLt
        subst hZero
        rw [MemoryMap.cellsAt_iff rfl rfl] at hCell
        exact absurd hCell (by decide)
    · change LoopMayWrite _ (65534 + 1) _ _ at hRest
      exact hRest.1 (processEntry_lastAvailIdx hEntry)
  · have hAfter : ((diskReady (requestMemory 1 1 0 0)
        ).processEntry.toOption.map
          (fun w => w.mem.byteOf (0, 0x600))) =
        some (some 0) := by
      decide +kernel
    rw [hDone.done] at hAfter
    have hZero : w'.mem.byteOf (0, 0x600) = some 0 :=
      Option.some.inj hAfter
    have hBefore : (requestMemory 1 1 0 0).byteOf (0, 0x600) =
        some 0xAA := rfl
    change w'.mem.byteOf _ ≠ (requestMemory 1 1 0 0).byteOf _
    rw [hZero, hBefore]
    decide

end RiscvEm
