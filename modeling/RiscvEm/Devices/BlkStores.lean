import RiscvEm.Devices.BlkRequest
import RiscvEm.Memory.Cells

/-
  The stores to guest memory of a round of `process_queue`,
  as a list: those of the transfer for each descriptor, the
  status byte and the used element.

  Key definitions include:
    * `scatterStores`
    * `transferStores`
    * `entryStores`

  Key theorems include:
    * `scatterIn_eq_stores`
    * `mem_scatterStores`
    * `Completes.stores`
-/

------------------------------------------------------------
-- Filling Buffers
------------------------------------------------------------

namespace RiscvEm

variable {m m' : MemoryMap}

/- The stores of `copy_to_dram`. -/
def byteStores
    (gpa : BitVec 64) : List (BitVec 8) → List GuestStore
  | [] => []
  | b :: bs =>
      ⟨gpa, 8, b.setWidth 64⟩ :: byteStores (gpa + 1) bs

theorem copyToDram_eq_stores
    (gpa : BitVec 64)
    (bs : List (BitVec 8)) :
    copyToDram m gpa bs = storeAll m (byteStores gpa bs) := by
  induction bs generalizing m gpa with
  | nil => rfl
  | cons b bs ih =>
      unfold copyToDram byteStores storeAll
      simp only [ih]

/- The stores lie at consecutive addresses. -/
theorem mem_byteStores
    {gpa : BitVec 64}
    {bs : List (BitVec 8)}
    {s : GuestStore}
    (h : s ∈ byteStores gpa bs) :
    s.bits = 8 ∧
      ∃ k < bs.length, s.addr = gpa + BitVec.ofNat 64 k := by
  induction bs generalizing gpa with
  | nil => cases h
  | cons b bs ih =>
      rcases List.mem_cons.mp h with rfl | h
      · exact ⟨rfl, 0, Nat.succ_pos _, by simp⟩
      · rcases ih h with ⟨hBits, k, hLt, hAddr⟩
        refine ⟨hBits, k + 1, Nat.succ_lt_succ hLt, ?_⟩
        rw [hAddr, BitVec.ofNat_add]
        bv_omega

theorem byteStores_eq_nil_iff
    {gpa : BitVec 64}
    {bs : List (BitVec 8)} :
    byteStores gpa bs = [] ↔ bs = [] := by
  cases bs with
  | nil => exact iff_of_true rfl rfl
  | cons b bs => simp [byteStores]

/-
  The stores that fill the data descriptors, each with its
  descriptor. One that is not writable is the last one.
-/
def scatterStores
    (buf : List (BitVec 8)) :
    List VirtqDesc → List (VirtqDesc × List GuestStore)
  | [] => []
  | d :: ds =>
      (d, byteStores d.addr (buf.take d.len.toNat)) ::
        if d.isWrite then
          scatterStores (buf.drop d.len.toNat) ds
        else
          []

/- All stores, without their descriptors. -/
def flatStores
    (ss : List (VirtqDesc × List GuestStore)) :
    List GuestStore :=
  ss.flatMap Prod.snd

theorem flatStores_cons
    (d : VirtqDesc)
    (s : List GuestStore)
    (ss : List (VirtqDesc × List GuestStore)) :
    flatStores ((d, s) :: ss) = s ++ flatStores ss :=
  rfl

/-
  Filling the descriptors is these stores in their order, and
  all is well if every descriptor is writable.
-/
theorem scatterIn_eq_stores
    (buf : List (BitVec 8))
    (datas : List VirtqDesc) :
    scatterIn m buf datas =
      (storeAll m (flatStores (scatterStores buf datas))).map
        (fun m => (datas.all VirtqDesc.isWrite, m)) := by
  induction datas generalizing m buf with
  | nil => rfl
  | cons d ds ih =>
      unfold scatterIn scatterStores
      rw [flatStores_cons, storeAll_append,
        copyToDram_eq_stores]
      cases storeAll m
          (byteStores d.addr (buf.take d.len.toNat)) with
      | error e => rfl
      | ok m₁ =>
          cases hWrite : d.isWrite with
          | true =>
              simp only [List.all_cons, hWrite, Bool.true_and]
              exact ih _
          | false =>
              simp only [List.all_cons, hWrite, Bool.false_and]
              rfl

/- The stores of one descriptor among the others. -/
theorem mem_scatterStores
    {buf : List (BitVec 8)}
    {datas : List VirtqDesc}
    {d : VirtqDesc}
    {ss : List GuestStore} :
    (d, ss) ∈ scatterStores buf datas ↔
      ∃ before after, datas = before ++ d :: after ∧
        (∀ x ∈ before, x.isWrite = true) ∧
        ss = byteStores d.addr
          ((buf.drop (dataTotal before)).take d.len.toNat) := by
  induction datas generalizing buf with
  | nil =>
      constructor
      · intro h
        cases h
      · rintro ⟨before, after, hEq, -⟩
        cases before with
        | nil => cases hEq
        | cons => cases hEq
  | cons d' ds ih =>
      unfold scatterStores
      rw [List.mem_cons]
      constructor
      · rintro (hEq | hMem)
        · cases hEq
          refine ⟨[], ds, rfl, ?_, rfl⟩
          exact fun x hMem => absurd hMem List.not_mem_nil
        · split at hMem
          case isFalse => cases hMem
          case isTrue hWrite =>
            rcases ih.mp hMem with
              ⟨before, after, rfl, hAll, rfl⟩
            refine ⟨d' :: before, after, rfl, ?_, ?_⟩
            · rw [List.forall_mem_cons]
              exact ⟨hWrite, hAll⟩
            · rw [dataTotal_cons, List.drop_drop]
      · rintro ⟨before, after, hEq, hAll, rfl⟩
        cases before with
        | nil =>
            cases hEq
            exact Or.inl rfl
        | cons x before =>
            cases hEq
            rw [List.forall_mem_cons] at hAll
            rw [if_pos hAll.1]
            refine Or.inr (ih.mpr ⟨before, after, rfl, hAll.2,
              ?_⟩)
            rw [dataTotal_cons, List.drop_drop]

/- A store for a descriptor lies in its bytes. -/
theorem scatterStores_inside
    {buf : List (BitVec 8)}
    {datas : List VirtqDesc}
    {d : VirtqDesc}
    {ss : List GuestStore}
    {s : GuestStore}
    (h : (d, ss) ∈ scatterStores buf datas)
    (hMem : s ∈ ss) :
    s.bits = 8 ∧ ∃ k < d.len.toNat,
      s.addr = d.addr + BitVec.ofNat 64 k := by
  rcases mem_scatterStores.mp h with
    ⟨before, after, rfl, hAll, rfl⟩
  rcases mem_byteStores hMem with ⟨hBits, k, hLt, hAddr⟩
  rw [List.length_take] at hLt
  exact ⟨hBits, k, by omega, hAddr⟩

end RiscvEm

------------------------------------------------------------
-- The Stores Of A Round
------------------------------------------------------------

namespace RiscvEm

variable {cfg : PlicConfig}
variable {w w' : BlkWorld cfg}
variable {r : BlkRequest}
variable {ok : Bool}

/- The stores of the transfer: only a read request has some. -/
def transferStores
    (w : BlkWorld cfg)
    (r : BlkRequest) : List (VirtqDesc × List GuestStore) :=
  if r.req.type = VIRTIO_BLK_T_IN then
    match diskRead w.blk.disk r.req.sector
        (dataTotal r.datas) with
    | none => []
    | some buf => scatterStores buf r.datas
  else
    []

/- The stores to the used ring. -/
def answerStores
    (q : VirtQueueState)
    (head : BitVec 16) : List GuestStore :=
  [ ⟨q.usedElemAddr + 0, 32, head.setWidth 64⟩,
    ⟨q.usedElemAddr + 4, 32, 0⟩,
    ⟨q.usedAddr + 2, 16, (q.lastUsedIdx + 1).setWidth 64⟩ ]

/- The stores of a round that completes a request. -/
def entryStores
    (w : BlkWorld cfg)
    (r : BlkRequest)
    (ok : Bool) : List GuestStore :=
  flatStores (transferStores w r) ++
    ⟨r.status.addr, 8, statusVal ok⟩ ::
      answerStores w.queue r.head

theorem complete_stores
    {head : BitVec 16}
    (h : w.complete head = .ok w') :
    storeAll w.mem (answerStores w.queue head) =
      .ok w'.mem := by
  rcases bind_eq_ok.mp h with ⟨m₁, hId, h⟩
  rcases bind_eq_ok.mp h with ⟨m₂, hLen, h⟩
  rcases bind_eq_ok.mp h with ⟨m₃, hIdx, h⟩
  rcases bind_eq_ok.mp h with ⟨plic, -, hEq⟩
  cases hEq
  refine bind_eq_ok.mpr ⟨m₁, hId, ?_⟩
  refine bind_eq_ok.mpr ⟨m₂, hLen, ?_⟩
  exact bind_eq_ok.mpr ⟨m₃, hIdx, rfl⟩

theorem isOut_not_in
    (h : r.req.type = VIRTIO_BLK_T_OUT) :
    r.req.type ≠ VIRTIO_BLK_T_IN := by
  rw [h]
  decide

/- The transfer changes memory by its stores. -/
theorem Performed.stores
    {w₁ : BlkWorld cfg}
    (h : Performed (w.taken r) r.req r.datas ok w₁) :
    storeAll w.mem (flatStores (transferStores w r)) =
        .ok w₁.mem ∧
      w₁.queue = w.queue := by
  unfold transferStores
  cases h with
  | readRefused hIn hRead =>
      rw [if_pos hIn]
      change diskRead w.blk.disk _ _ = _ at hRead
      rw [hRead]
      exact ⟨rfl, rfl⟩
  | @read _ buf m hIn hRead hScatter =>
      rw [if_pos hIn]
      change diskRead w.blk.disk _ _ = _ at hRead
      rw [hRead]
      change scatterIn w.mem buf r.datas = _ at hScatter
      rw [scatterIn_eq_stores] at hScatter
      refine ⟨?_, rfl⟩
      dsimp only
      cases hAll : storeAll w.mem
          (flatStores (scatterStores buf r.datas)) with
      | error e =>
          rw [hAll] at hScatter
          cases hScatter
      | ok m₁ =>
          rw [hAll] at hScatter
          cases hScatter
          rfl
  | writeRefused hOut _ _ =>
      rw [if_neg (isOut_not_in hOut)]
      exact ⟨rfl, rfl⟩
  | written hOut _ _ _ =>
      rw [if_neg (isOut_not_in hOut)]
      exact ⟨rfl, rfl⟩
  | unsupported hIn _ =>
      rw [if_neg hIn]
      exact ⟨rfl, rfl⟩

/- Memory after a round is what its stores make of it. -/
theorem Completes.stores
    (h : Completes w r ok w') :
    storeAll w.mem (entryStores w r ok) = .ok w'.mem := by
  rcases h.steps with ⟨w₁, m, hPerformed, hStore, hComplete⟩
  rcases hPerformed.stores with ⟨hTransfer, hQueue⟩
  have hAnswer := complete_stores hComplete
  change storeAll m (answerStores w₁.queue _) = _ at hAnswer
  rw [hQueue] at hAnswer
  unfold entryStores
  rw [storeAll_append, hTransfer]
  change storeAll w₁.mem (_ :: _) = _
  exact bind_eq_ok.mpr ⟨m, hStore, hAnswer⟩

/- An answer without a status byte stores to the ring only. -/
theorem answered_stores
    {head : BitVec 16}
    (h : (w.log (.consumed head)).complete head = .ok w') :
    storeAll w.mem (answerStores w.queue head) = .ok w'.mem :=
  complete_stores (w := w.log (.consumed head)) h

/- When a read request goes well. -/
theorem Completes.read_ok
    (h : Completes w r ok w')
    (hIn : r.req.type = VIRTIO_BLK_T_IN) :
    ok = (w.blk.disk.isSome &&
      (seekSector r.req.sector).isSome &&
      r.datas.all VirtqDesc.isWrite) := by
  rcases h.steps with ⟨w₁, m, hPerformed, -, -⟩
  cases hPerformed with
  | readRefused _ hRead =>
      rw [diskRead_none_iff, not_and_or, Bool.not_eq_true,
        Bool.not_eq_true] at hRead
      change w.blk.disk.isSome = false ∨ _ at hRead
      rcases hRead with hDisk | hSeek
      · rw [hDisk, Bool.false_and, Bool.false_and]
      · rw [hSeek, Bool.and_false, Bool.false_and]
  | @read _ buf m _ hRead hScatter =>
      have hBoth : w.blk.disk.isSome = true ∧
          (seekSector r.req.sector).isSome = true := by
        by_contra hNone
        change diskRead w.blk.disk _ _ = _ at hRead
        rw [(diskRead_none_iff _ _ _).mpr hNone] at hRead
        cases hRead
      rw [hBoth.1, hBoth.2, Bool.true_and, Bool.true_and]
      rw [scatterIn_eq_stores] at hScatter
      cases hStores : storeAll (w.taken r).mem
          (flatStores (scatterStores buf r.datas)) with
      | error e =>
          rw [hStores] at hScatter
          cases hScatter
      | ok m₁ =>
          rw [hStores] at hScatter
          cases hScatter
          rfl
  | writeRefused hOut _ _ =>
      exact absurd hIn (isOut_not_in hOut)
  | written hOut _ _ _ =>
      exact absurd hIn (isOut_not_in hOut)
  | unsupported hNot _ => exact absurd hIn hNot

end RiscvEm
