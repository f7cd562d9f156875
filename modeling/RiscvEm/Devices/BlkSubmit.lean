import RiscvEm.Devices.BlkStores
import RiscvEm.Memory.Areas
import Mathlib.Data.Fintype.Card

/-
  Requests as a driver submits them: a chain of a header, any
  list of data descriptors and a status byte. If what the
  device writes for it lies in RAM, it completes the request.

  Key definitions include:
    * `ChainAt`
    * `Submitted`
    * `Placed`

  Key theorems include:
    * `Submitted.names`
    * `Submitted.completes`
-/

------------------------------------------------------------
-- Chains In Memory
------------------------------------------------------------

namespace RiscvEm

variable {m : MemoryMap}
variable {q : VirtQueueState}
variable {idx : BitVec 16}
variable {chain : List VirtqDesc}

/- The table links the descriptors, from an index on. -/
inductive ChainAt
    (m : MemoryMap)
    (q : VirtQueueState) : BitVec 16 → List VirtqDesc → Prop
  | last {idx : BitVec 16} {d : VirtqDesc} :
      readDesc m (q.descAt idx) = .ok d →
      d.hasNext = false →
      ChainAt m q idx [d]
  | next {idx : BitVec 16} {d : VirtqDesc}
      {ds : List VirtqDesc} :
      readDesc m (q.descAt idx) = .ok d →
      d.hasNext = true →
      ChainAt m q d.next ds →
      ChainAt m q idx (d :: ds)

/- There is one chain at an index only. -/
theorem ChainAt.unique
    {chain' : List VirtqDesc}
    (h : ChainAt m q idx chain)
    (h' : ChainAt m q idx chain') :
    chain' = chain := by
  induction h generalizing chain' with
  | last hRead hEnd =>
      cases h' with
      | last hRead' _ =>
          rw [hRead] at hRead'
          cases hRead'
          rfl
      | next hRead' hNext _ =>
          rw [hRead] at hRead'
          cases hRead'
          rw [hEnd] at hNext
          cases hNext
  | next hRead hNext _ ih =>
      cases h' with
      | last hRead' hEnd =>
          rw [hRead] at hRead'
          cases hRead'
          rw [hEnd] at hNext
          cases hNext
      | next hRead' _ hRest =>
          rw [hRead] at hRead'
          cases hRead'
          rw [ih hRest]

/- Each rest of a chain is a chain. -/
theorem ChainAt.drop
    (h : ChainAt m q idx chain)
    {k : Nat}
    (hk : k < chain.length) :
    ∃ idx', ChainAt m q idx' (chain.drop k) := by
  induction h generalizing k with
  | last hRead hEnd =>
      have hZero : k = 0 := Nat.lt_one_iff.mp hk
      subst hZero
      exact ⟨_, .last hRead hEnd⟩
  | next hRead hNext hRest ih =>
      cases k with
      | zero => exact ⟨_, .next hRead hNext hRest⟩
      | succ k =>
          rw [List.drop_succ_cons]
          exact ih (Nat.lt_of_succ_lt_succ hk)

/-
  A chain that ends visits no index twice, so that it is no
  longer than the indices are many.
-/
theorem ChainAt.length_le
    (h : ChainAt m q idx chain) :
    chain.length ≤ 2 ^ 16 := by
  have hAll : ∀ k : Fin chain.length,
      ∃ idx', ChainAt m q idx' (chain.drop k) :=
    fun k => h.drop k.isLt
  choose f hf using hAll
  have hInj : Function.Injective
      (fun k : Fin chain.length => (f k).toFin) := by
    intro j k hEq
    have hSame : f j = f k := BitVec.eq_of_toFin_eq hEq
    have hJ := hf j
    rw [hSame] at hJ
    have hLen := congrArg List.length (hJ.unique (hf k))
    rw [List.length_drop, List.length_drop] at hLen
    apply Fin.ext
    have hJLt := j.isLt
    have hKLt := k.isLt
    omega
  have hCard := Fintype.card_le_of_injective _ hInj
  rwa [Fintype.card_fin, Fintype.card_fin] at hCard

/- The device finds the chain if its rounds suffice. -/
theorem ChainAt.fetch
    {n : Nat}
    (h : ChainAt m q idx chain)
    (hLen : chain.length ≤ n) :
    fetchChainLoop m q n idx = .ok (true, chain) := by
  induction h generalizing n with
  | last hRead hEnd =>
      cases n with
      | zero => cases hLen
      | succ n =>
          refine bind_eq_ok.mpr ⟨_, hRead, ?_⟩
          rw [hEnd]
          rfl
  | next hRead hNext _ ih =>
      cases n with
      | zero => cases hLen
      | succ n =>
          refine bind_eq_ok.mpr ⟨_, hRead, ?_⟩
          rw [hNext, if_pos rfl]
          exact bind_eq_ok.mpr
            ⟨_, ih (Nat.le_of_succ_le_succ hLen), rfl⟩

/- The status descriptor of a chain that ends with one. -/
theorem statusDesc_last
    {header status : VirtqDesc}
    {datas : List VirtqDesc}
    (hShort : datas.length + 2 < 2 ^ 31)
    (hWrite : status.isWrite = true) :
    statusDesc (header :: (datas ++ [status])) =
      some (datas.length + 1, status) := by
  have hLen : (header :: (datas ++ [status])).length =
      datas.length + 2 := by
    simp
  have hGet : (header :: (datas ++ [status]))[datas.length + 1]?
      = some status := by
    simp
  unfold statusDesc
  rw [hLen, if_pos hShort]
  unfold findStatusDesc
  rw [hGet]
  exact if_pos hWrite

end RiscvEm

------------------------------------------------------------
-- Submitted Requests
------------------------------------------------------------

namespace RiscvEm

variable {cfg : PlicConfig}
variable {w w' : BlkWorld cfg}
variable {header : VirtqDesc}
variable {r : BlkRequest}

/-
  The next entry leads to a chain of a header, the data and
  the status, not longer than the queue.
-/
structure Submitted
    (w : BlkWorld cfg)
    (header : VirtqDesc)
    (r : BlkRequest) : Prop where
  table : w.queue.descAddr ≠ 0
  entry : w.mem.load w.queue.availEntryAddr 16 =
    .ok (r.head.setWidth 64)
  chain : r.chain = header :: (r.datas ++ [r.status])
  linked : ChainAt w.mem w.queue r.head r.chain
  size : r.chain.length ≤ w.queue.size.toNat
  long : reqSize ≤ header.len.toNat
  holds : ∃ bs, bs.length = reqSize ∧
    HoldsBytes w.mem header.addr bs ∧ r.req = .ofBytes bs
  status : r.status.isWrite = true

/- A submitted request is named by the queue. -/
theorem Submitted.names
    (h : Submitted w header r) :
    Names w r := by
  have hLength : r.chain.length = r.datas.length + 2 := by
    rw [h.chain]
    simp
  have hShort := h.linked.length_le
  refine ⟨⟨_, h.entry, ?_⟩, ?_, ?_, ?_, ?_⟩
  · rw [BitVec.setWidth_setWidth_of_le _ (by decide),
      BitVec.setWidth_eq]
  · unfold fetchDescriptorChain
    rw [if_neg h.table]
    exact h.linked.fetch h.size
  · rw [h.chain]
    cases hRest : r.datas ++ [r.status] with
    | nil => simp at hRest
    | cons d ds => exact decide_eq_true h.long
  · rcases h.holds with ⟨bs, hLen, hHolds, hReq⟩
    refine ⟨header, ?_, bs, ?_, hReq⟩
    · rw [h.chain]
      rfl
    · exact copyFromDram_eq_ok_iff.mpr ⟨hLen, hHolds⟩
  · refine ⟨r.datas.length + 1, ?_, ?_⟩
    · rw [h.chain]
      exact statusDesc_last (by omega) h.status
    · rw [h.chain, List.take_succ_cons, List.take_left]
      rfl

/- The areas of the buffers that are not empty. -/
def bufferAreas : List VirtqDesc → List Area
  | [] => []
  | d :: ds =>
      if d.len = 0 then bufferAreas ds
      else ⟨d.addr, d.len.toNat⟩ :: bufferAreas ds

/- The status byte, the used element and the used index. -/
def answerAreas
    (q : VirtQueueState)
    (status : VirtqDesc) : List Area :=
  [⟨status.addr, 1⟩, ⟨q.usedElemAddr, 8⟩, ⟨q.usedAddr + 2, 2⟩]

/-
  The buffers, the status byte and the used ring lie in RAM
  and apart. The rest may lie wherever the device can read.
-/
structure Placed
    (w : BlkWorld cfg)
    (r : BlkRequest) : Prop where
  inRam : ∀ a ∈ bufferAreas r.datas ++
    answerAreas w.queue r.status, w.mem.InRam a
  apart : (bufferAreas r.datas ++
    answerAreas w.queue r.status).Pairwise Area.Apart

/- The buffers in use are among the areas. -/
theorem mem_bufferAreas
    {datas : List VirtqDesc}
    {d : VirtqDesc}
    (hMem : d ∈ datas)
    (hLen : d.len ≠ 0) :
    ⟨d.addr, d.len.toNat⟩ ∈ bufferAreas datas := by
  induction datas with
  | nil => cases hMem
  | cons d' ds ih =>
      unfold bufferAreas
      rcases List.mem_cons.mp hMem with rfl | hRest
      · rw [if_neg hLen]
        exact List.mem_cons_self ..
      · split
        · exact ih hRest
        · exact List.mem_cons_of_mem _ (ih hRest)

/- Every byte of an area in RAM is mapped. -/
theorem mappedBytes_of_inRam
    {m : MemoryMap}
    {a : Area}
    (h : m.InRam a) :
    MappedBytes m a.addr a.len := by
  intro i hi
  have hByte : Area.Part ⟨a.addr + BitVec.ofNat 64 i, 1⟩ a :=
    ⟨i, rfl, hi⟩
  exact (h.part hByte).mapped Nat.one_pos

/- The buffers of a placed request are mapped. -/
theorem Placed.buffers
    (h : Placed w r)
    {d : VirtqDesc}
    (hMem : d ∈ r.datas) :
    MappedBytes w.mem d.addr d.len.toNat := by
  by_cases hLen : d.len = 0
  · rw [hLen]
    exact mappedBytes_zero _ _
  · exact mappedBytes_of_inRam (h.inRam _
      (List.mem_append_left _ (mem_bufferAreas hMem hLen)))

/- The areas of its answer lie in RAM. -/
theorem Placed.answer
    (h : Placed w r)
    {a : Area}
    (hMem : a ∈ answerAreas w.queue r.status) :
    w.mem.InRam a :=
  h.inRam a (List.mem_append_right _ hMem)

/- The element of the used ring lies in RAM. -/
theorem Placed.usedElem
    (h : Placed w r) :
    w.mem.InRam ⟨w.queue.usedElemAddr, 8⟩ :=
  h.answer (List.mem_cons_of_mem _ (List.mem_cons_self ..))

/- The index of the used ring lies in RAM. -/
theorem Placed.usedIdx
    (h : Placed w r) :
    w.mem.InRam ⟨w.queue.usedAddr + 2, 2⟩ :=
  h.answer (List.mem_cons_of_mem _
    (List.mem_cons_of_mem _ (List.mem_cons_self ..)))

/- The status byte lies in RAM. -/
theorem Placed.status
    (h : Placed w r) :
    w.mem.InRam ⟨r.status.addr, 1⟩ :=
  h.answer (List.mem_cons_self ..)

/- The two words of the used element. -/
theorem part_usedElem
    (q : VirtQueueState) :
    Area.Part ⟨q.usedElemAddr + 0, 4⟩ ⟨q.usedElemAddr, 8⟩ ∧
      Area.Part ⟨q.usedElemAddr + 4, 4⟩
        ⟨q.usedElemAddr, 8⟩ :=
  ⟨⟨0, rfl, Nat.le_add_right 4 4⟩, ⟨4, rfl, Nat.le_refl 8⟩⟩

/- All that completing a placed request writes is mapped. -/
theorem Placed.used
    (h : Placed w r) :
    UsedMapped w.mem w.queue := by
  rcases part_usedElem w.queue with ⟨hId, hLen⟩
  exact ⟨(h.usedElem.part hId).mapped (Nat.succ_pos 3),
    (h.usedElem.part hLen).mapped (Nat.succ_pos 3),
    h.usedIdx.mapped (Nat.succ_pos 1)⟩

/- Buffers that can be written can be read. -/
theorem buffersIn_of_mapped
    {m : MemoryMap}
    {datas : List VirtqDesc}
    (h : BuffersOut m datas) :
    BuffersIn m datas := by
  induction datas with
  | nil => trivial
  | cons d ds ih =>
      unfold BuffersOut at h ih
      rw [List.forall_mem_cons] at h
      exact ⟨h.1, fun _ => ih h.2⟩

/- The device serves the entry of a request in its place. -/
theorem Names.returns
    (h : Names w r)
    (hPlaced : Placed w r) :
    Returns w.processEntry := by
  rcases h.entry with ⟨v, hLoad, hHead⟩
  rw [processEntry_returns_iff]
  refine ⟨(load_returns_iff 16 rfl).mp ⟨v, hLoad⟩, ?_, ?_⟩
  · intro v' hLoad'
    rw [hLoad] at hLoad'
    cases hLoad'
    rw [← fetchDescriptorChain_returns_iff, ← hHead]
    exact ⟨_, h.chain⟩
  · intro v' chain hLoad' hFetch _
    rw [hLoad] at hLoad'
    cases hLoad'
    rw [← hHead, h.chain] at hFetch
    cases hFetch
    refine ⟨⟨?_, ?_, ?_⟩, hPlaced.used⟩
    · intro d hMem
      rcases h.header with ⟨d', hMem', bs, hCopy, -⟩
      rw [Option.mem_unique hMem hMem']
      exact (copyFromDram_returns_iff _ _ _).mp ⟨bs, hCopy⟩
    · intro _ _ _ _ i status hStatus
      rcases h.status with ⟨i', hStatus', hDatas⟩
      rw [hStatus'] at hStatus
      cases hStatus
      rw [← hDatas]
      have hAll : BuffersOut w.mem r.datas :=
        fun d hMem => hPlaced.buffers hMem
      exact ⟨fun _ _ _ => buffersIn_of_mapped hAll,
        fun _ => hAll⟩
    · intro i status hStatus
      rcases h.status with ⟨i', hStatus', -⟩
      rw [hStatus'] at hStatus
      cases hStatus
      exact hPlaced.status.mapped Nat.one_pos

/- A submitted request that is placed completes. -/
theorem Submitted.completes
    (h : Submitted w header r)
    (hPlaced : Placed w r) :
    ∃ ok w', Completes w r ok w' := by
  rcases h.names.returns hPlaced with ⟨w', hDone⟩
  rcases h.names.completes hDone with ⟨ok, hCompletes⟩
  exact ⟨ok, w', hCompletes⟩

end RiscvEm
