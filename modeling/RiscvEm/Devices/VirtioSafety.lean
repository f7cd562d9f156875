import RiscvEm.Devices.VirtQueue

/-
  When the block device serves its queue without a host
  fault. Rings, descriptors and buffers are used at the
  addresses the guest names, so that it does exactly if the
  bytes there are mapped.

  Key definitions include:
    * `MappedBytes`
    * `ChainMapped`
    * `MappedEntry`
    * `QueueMapped`

  Key theorems include `process_queue_returns_iff`.
-/

------------------------------------------------------------
-- Returning
------------------------------------------------------------

namespace RiscvEm

variable {α β : Type}

/- The computation ends without a host fault. -/
def Returns
    (x : Except HostFault α) : Prop :=
  ∃ a, x = .ok a

/- A result that is there returns. -/
theorem returns_ok
    (a : α) :
    Returns (.ok a) :=
  ⟨a, rfl⟩

/- A sequence returns if each part does on what it gets. -/
theorem returns_bind_iff
    {x : Except HostFault α}
    {f : α → Except HostFault β} :
    Returns (x >>= f) ↔
      Returns x ∧ ∀ a, x = .ok a → Returns (f a) := by
  constructor
  · rintro ⟨b, h⟩
    rcases bind_eq_ok.mp h with ⟨a, hx, hf⟩
    refine ⟨⟨a, hx⟩, ?_⟩
    intro a' hx'
    rw [hx] at hx'
    cases hx'
    exact ⟨b, hf⟩
  · rintro ⟨⟨a, hx⟩, hf⟩
    rcases hf a hx with ⟨b, hb⟩
    exact ⟨b, bind_eq_ok.mpr ⟨a, hx, hb⟩⟩

/- The rest returns if it does so for every result. -/
theorem returns_bind_const_iff
    {x : Except HostFault α}
    {f : α → Except HostFault β}
    {p : Prop}
    (hf : ∀ a, x = .ok a → (Returns (f a) ↔ p)) :
    Returns (x >>= f) ↔ Returns x ∧ p := by
  rw [returns_bind_iff]
  constructor
  · rintro ⟨⟨a, hx⟩, hAll⟩
    exact ⟨⟨a, hx⟩, (hf a hx).mp (hAll a hx)⟩
  · rintro ⟨hx, hp⟩
    exact ⟨hx, fun a ha => (hf a ha).mpr hp⟩

end RiscvEm

------------------------------------------------------------
-- Buffers
------------------------------------------------------------

namespace RiscvEm

variable {m m' : MemoryMap}

/- Each of the bytes is mapped. -/
def MappedBytes
    (m : MemoryMap)
    (gpa : BitVec 64)
    (n : Nat) : Prop :=
  ∀ i < n, m.Mapped (gpa + BitVec.ofNat 64 i) 1

/- An empty area is always mapped. -/
theorem mappedBytes_zero
    (m : MemoryMap)
    (gpa : BitVec 64) :
    MappedBytes m gpa 0 :=
  fun _ h => absurd h (Nat.not_lt_zero _)

/- An area is mapped if its first byte and the rest are. -/
theorem mappedBytes_succ
    (gpa : BitVec 64)
    (n : Nat) :
    MappedBytes m gpa (n + 1) ↔
      m.Mapped gpa 1 ∧ MappedBytes m (gpa + 1) n := by
  have hNext : ∀ i, gpa + BitVec.ofNat 64 (i + 1) =
      gpa + 1 + BitVec.ofNat 64 i := by
    intro i
    rw [BitVec.ofNat_add]
    bv_omega
  constructor
  · intro h
    refine ⟨?_, ?_⟩
    · have hFirst := h 0 (Nat.succ_pos n)
      simpa using hFirst
    · intro i hi
      rw [← hNext]
      exact h (i + 1) (Nat.succ_lt_succ hi)
  · rintro ⟨hFirst, hRest⟩ i hi
    cases i with
    | zero => simpa using hFirst
    | succ i =>
        rw [hNext]
        exact hRest i (Nat.lt_of_succ_lt_succ hi)

/- Stores do not change which bytes are mapped. -/
theorem MappedBytes.layout_iff
    (h : MemoryMap.SameLayout m m')
    (gpa : BitVec 64)
    (n : Nat) :
    MappedBytes m' gpa n ↔ MappedBytes m gpa n := by
  unfold MappedBytes
  simp only [h.mapped_iff]

/- A load returns exactly if its bytes are mapped. -/
theorem load_returns_iff
    {addr : BitVec 64}
    {n : Nat}
    (bits : Nat)
    (hWidth : MemoryMap.widthBytes bits = .ok n) :
    Returns (m.load addr bits) ↔ m.Mapped addr n :=
  MemoryMap.load_ok_iff hWidth

/- A store returns exactly if its bytes are mapped. -/
theorem store_returns_iff
    {addr v : BitVec 64}
    {n : Nat}
    (bits : Nat)
    (hWidth : MemoryMap.widthBytes bits = .ok n) :
    Returns (m.store addr bits v) ↔ m.Mapped addr n :=
  MemoryMap.store_ok_iff hWidth v

/- Copying from memory returns if all bytes are mapped. -/
theorem copyFromDram_returns_iff
    (m : MemoryMap)
    (gpa : BitVec 64)
    (n : Nat) :
    Returns (copyFromDram m gpa n) ↔ MappedBytes m gpa n := by
  induction n generalizing gpa with
  | zero =>
      exact iff_of_true (returns_ok []) (mappedBytes_zero m gpa)
  | succ n ih =>
      rw [mappedBytes_succ, ← ih, ← load_returns_iff 8 rfl]
      refine returns_bind_const_iff (fun b _ => ?_)
      rw [returns_bind_iff]
      exact and_iff_left (fun bs _ => returns_ok _)

/- Copying to memory keeps the regions. -/
theorem copyToDram_layout
    {gpa : BitVec 64}
    {bs : List (BitVec 8)}
    (h : copyToDram m gpa bs = .ok m') :
    MemoryMap.SameLayout m m' := by
  induction bs generalizing m gpa with
  | nil =>
      cases h
      exact .refl _
  | cons b bs ih =>
      rcases bind_eq_ok.mp h with ⟨m₁, hStore, hRest⟩
      exact (MemoryMap.store_layout rfl hStore).trans (ih hRest)

/- It returns exactly if all bytes are mapped. -/
theorem copyToDram_returns_iff
    (m : MemoryMap)
    (gpa : BitVec 64)
    (bs : List (BitVec 8)) :
    Returns (copyToDram m gpa bs) ↔
      MappedBytes m gpa bs.length := by
  induction bs generalizing m gpa with
  | nil =>
      exact iff_of_true (returns_ok m) (mappedBytes_zero m gpa)
  | cons b bs ih =>
      rw [List.length_cons, mappedBytes_succ,
        ← store_returns_iff 8 rfl]
      refine returns_bind_const_iff (fun m₁ hStore => ?_)
      have hLayout := MemoryMap.store_layout rfl hStore
      rw [ih m₁, MappedBytes.layout_iff hLayout]

/-
  The buffers a read request fills: all up to the first that
  is not writable, and that one.
-/
def BuffersIn
    (m : MemoryMap) : List VirtqDesc → Prop
  | [] => True
  | d :: ds =>
      MappedBytes m d.addr d.len.toNat ∧
        (d.isWrite = true → BuffersIn m ds)

/- The buffers a write request collects. -/
def BuffersOut
    (m : MemoryMap)
    (datas : List VirtqDesc) : Prop :=
  ∀ d ∈ datas, MappedBytes m d.addr d.len.toNat

/- Buffers are mapped or not, whatever memory holds. -/
theorem BuffersIn.layout_iff
    (h : MemoryMap.SameLayout m m')
    (datas : List VirtqDesc) :
    BuffersIn m' datas ↔ BuffersIn m datas := by
  induction datas with
  | nil => exact Iff.rfl
  | cons d ds ih =>
      unfold BuffersIn
      rw [MappedBytes.layout_iff h, ih]

/- Scattering keeps the regions. -/
theorem scatterIn_layout
    {buf : List (BitVec 8)}
    {datas : List VirtqDesc}
    {ok : Bool}
    (h : scatterIn m buf datas = .ok (ok, m')) :
    MemoryMap.SameLayout m m' := by
  induction datas generalizing m buf with
  | nil =>
      cases h
      exact .refl _
  | cons d ds ih =>
      rcases bind_eq_ok.mp h with ⟨m₁, hCopy, hRest⟩
      have hLayout := copyToDram_layout hCopy
      split at hRest
      · exact hLayout.trans (ih hRest)
      · cases hRest
        exact hLayout

/- It returns exactly if the writable buffers are mapped. -/
theorem scatterIn_returns_iff
    (m : MemoryMap)
    (buf : List (BitVec 8))
    (datas : List VirtqDesc)
    (hLen : buf.length = dataTotal datas) :
    Returns (scatterIn m buf datas) ↔ BuffersIn m datas := by
  induction datas generalizing m buf with
  | nil => exact iff_of_true (returns_ok _) trivial
  | cons d ds ih =>
      have hTotal : dataTotal (d :: ds) =
          d.len.toNat + dataTotal ds := by
        simp only [dataTotal, List.map_cons, List.sum_cons]
      have hTake : (buf.take d.len.toNat).length =
          d.len.toNat := by
        rw [List.length_take]
        omega
      have hCopy := copyToDram_returns_iff m d.addr
        (buf.take d.len.toNat)
      rw [hTake] at hCopy
      unfold BuffersIn
      rw [← hCopy]
      refine returns_bind_const_iff (fun m₁ hStore => ?_)
      have hLayout := copyToDram_layout hStore
      by_cases hWrite : d.isWrite = true
      · rw [if_pos hWrite, ih, BuffersIn.layout_iff hLayout]
        · exact ⟨fun h _ => h, fun h => h hWrite⟩
        · rw [List.length_drop]
          omega
      · rw [if_neg hWrite]
        exact iff_of_true (returns_ok _)
          (fun h => absurd h hWrite)

/- Gathering returns if the readable ones are. -/
theorem gatherOut_returns_iff
    (m : MemoryMap)
    (datas : List VirtqDesc) :
    Returns (gatherOut m datas) ↔ BuffersOut m datas := by
  induction datas with
  | nil =>
      refine iff_of_true (returns_ok _) ?_
      intro d hMem
      cases hMem
  | cons d ds ih =>
      unfold BuffersOut
      rw [List.forall_mem_cons, ← copyFromDram_returns_iff]
      refine returns_bind_const_iff (fun bs _ => ?_)
      rw [returns_bind_iff, ih]
      exact and_iff_left (fun rest _ => returns_ok _)

end RiscvEm

------------------------------------------------------------
-- Chains And Requests
------------------------------------------------------------

namespace RiscvEm

variable {cfg : PlicConfig}

/- The four fields of a descriptor are mapped. -/
structure DescMapped
    (m : MemoryMap)
    (addr : BitVec 64) : Prop where
  base : m.Mapped (addr + 0) 8
  len : m.Mapped (addr + 8) 4
  flags : m.Mapped (addr + 12) 2
  next : m.Mapped (addr + 14) 2

/- So is every descriptor that the chain leads to. -/
def ChainMapped
    (m : MemoryMap)
    (q : VirtQueueState) : Nat → BitVec 16 → Prop
  | 0, _ => True
  | n + 1, idx =>
      DescMapped m (q.descAt idx) ∧
        ∀ d, readDesc m (q.descAt idx) = .ok d →
          d.hasNext = true → ChainMapped m q n d.next

/- A descriptor is read if it is mapped. -/
theorem readDesc_returns_iff
    (m : MemoryMap)
    (addr : BitVec 64) :
    Returns (readDesc m addr) ↔ DescMapped m addr := by
  have hAll : Returns (readDesc m addr) ↔
      m.Mapped (addr + 0) 8 ∧ m.Mapped (addr + 8) 4 ∧
        m.Mapped (addr + 12) 2 ∧ m.Mapped (addr + 14) 2 := by
    rw [← load_returns_iff 64 rfl,
      ← load_returns_iff 32 rfl,
      ← load_returns_iff 16 rfl,
      ← load_returns_iff 16 rfl]
    refine returns_bind_const_iff (fun _ _ => ?_)
    refine returns_bind_const_iff (fun _ _ => ?_)
    refine returns_bind_const_iff (fun _ _ => ?_)
    rw [returns_bind_iff]
    exact and_iff_left (fun _ _ => returns_ok _)
  rw [hAll]
  constructor
  · rintro ⟨hAddr, hLen, hFlags, hNext⟩
    exact ⟨hAddr, hLen, hFlags, hNext⟩
  · rintro ⟨hAddr, hLen, hFlags, hNext⟩
    exact ⟨hAddr, hLen, hFlags, hNext⟩

/- A chain is followed if every link of it is. -/
theorem fetchChainLoop_returns_iff
    (m : MemoryMap)
    (q : VirtQueueState)
    (n : Nat)
    (idx : BitVec 16) :
    Returns (fetchChainLoop m q n idx) ↔
      ChainMapped m q n idx := by
  induction n generalizing idx with
  | zero => exact iff_of_true (returns_ok _) trivial
  | succ n ih =>
      unfold fetchChainLoop ChainMapped
      rw [returns_bind_iff, readDesc_returns_iff]
      refine and_congr_right (fun _ =>
        forall_congr' (fun d => ?_))
      refine imp_congr_right (fun _ => ?_)
      by_cases hNext : d.hasNext = true
      · rw [if_pos hNext, returns_bind_iff, ih]
        constructor
        · exact fun h _ => h.1
        · exact fun h => ⟨h hNext, fun _ _ => returns_ok _⟩
      · rw [if_neg hNext]
        exact iff_of_true (returns_ok _)
          (fun h => absurd h hNext)

/- The buffers of the request at hand. -/
structure BuffersMapped
    (w : BlkWorld cfg)
    (req : VirtioBlkReq)
    (datas : List VirtqDesc) : Prop where
  dataIn : req.type = VIRTIO_BLK_T_IN →
    w.blk.disk.isSome = true →
    (seekSector req.sector).isSome = true →
      BuffersIn w.mem datas
  dataOut : req.type = VIRTIO_BLK_T_OUT →
    BuffersOut w.mem datas

/-
  A read of the image fails without an image or a place on
  it.
-/
theorem diskRead_none_iff
    (disk : Option DiskImage)
    (sector : BitVec 64)
    (n : Nat) :
    diskRead disk sector n = none ↔
      ¬ (disk.isSome = true ∧
        (seekSector sector).isSome = true) := by
  cases disk with
  | none => simp [diskRead]
  | some d =>
      cases hSeek : seekSector sector with
      | none => simp [diskRead, hSeek]
      | some offset => simp [diskRead, hSeek]

/- A read within the image delivers what was asked for. -/
theorem diskRead_length
    {disk : Option DiskImage}
    {sector : BitVec 64}
    {n : Nat}
    {buf : List (BitVec 8)}
    (h : diskRead disk sector n = some buf) :
    buf.length = n := by
  rcases Option.bind_eq_some_iff.mp h with ⟨d, -, h⟩
  rcases Option.map_eq_some_iff.mp h with ⟨offset, -, rfl⟩
  rw [List.length_map, List.length_range]

/-
  A request is performed if the buffers it touches are
  mapped.
-/
theorem perform_returns_iff
    (w : BlkWorld cfg)
    (req : VirtioBlkReq)
    (datas : List VirtqDesc) :
    Returns (w.perform req datas) ↔
      BuffersMapped w req datas := by
  unfold BlkWorld.perform
  by_cases hIn : req.type = VIRTIO_BLK_T_IN
  · have hOut : req.type ≠ VIRTIO_BLK_T_OUT := by
      rw [hIn]
      decide
    rw [if_pos hIn]
    cases hRead : diskRead w.blk.disk req.sector
        (dataTotal datas) with
    | none =>
        rw [diskRead_none_iff] at hRead
        refine iff_of_true (returns_ok _) ⟨?_, ?_⟩
        · intro _ hDisk hSeek
          exact absurd ⟨hDisk, hSeek⟩ hRead
        · exact fun h => absurd h hOut
    | some buf =>
        have hBoth : w.blk.disk.isSome = true ∧
            (seekSector req.sector).isSome = true := by
          by_contra hNone
          rw [(diskRead_none_iff _ _ _).mpr hNone] at hRead
          cases hRead
        have hScatter := scatterIn_returns_iff w.mem buf datas
          (diskRead_length hRead)
        dsimp only
        rw [returns_bind_iff, hScatter]
        constructor
        · rintro ⟨hBuffers, -⟩
          exact ⟨fun _ _ _ => hBuffers, fun h => absurd h hOut⟩
        · intro h
          exact ⟨h.dataIn hIn hBoth.1 hBoth.2,
            fun _ _ => returns_ok _⟩
  · rw [if_neg hIn]
    by_cases hOut : req.type = VIRTIO_BLK_T_OUT
    · rw [if_pos hOut, returns_bind_iff, gatherOut_returns_iff]
      constructor
      · rintro ⟨hBuffers, -⟩
        exact ⟨fun h => absurd h hIn, fun _ => hBuffers⟩
      · intro h
        refine ⟨h.dataOut hOut, fun buf _ => ?_⟩
        split
        · exact returns_ok _
        · exact returns_ok _
    · rw [if_neg hOut]
      exact iff_of_true (returns_ok _)
        ⟨fun h => absurd h hIn, fun h => absurd h hOut⟩

/- Performing it keeps the regions. -/
theorem perform_layout
    {w w' : BlkWorld cfg}
    {req : VirtioBlkReq}
    {datas : List VirtqDesc}
    {ok : Bool}
    (h : w.perform req datas = .ok (ok, w')) :
    MemoryMap.SameLayout w.mem w'.mem := by
  unfold BlkWorld.perform at h
  split at h
  · split at h
    · cases h
      exact .refl _
    · rcases bind_eq_ok.mp h with ⟨⟨ok', m⟩, hScatter, hEq⟩
      cases hEq
      exact scatterIn_layout hScatter
  · split at h
    · rcases bind_eq_ok.mp h with ⟨buf, -, hEq⟩
      split at hEq
      · cases hEq
        exact .refl _
      · cases hEq
        exact .refl _
    · cases h
      exact .refl _

/- The header, the buffers and the status byte are mapped. -/
structure RequestMapped
    (w : BlkWorld cfg)
    (chain : List VirtqDesc) : Prop where
  header : ∀ d ∈ chain.head?, MappedBytes w.mem d.addr reqSize
  buffers : ∀ d ∈ chain.head?, ∀ bs,
    copyFromDram w.mem d.addr reqSize = .ok bs →
    ∀ i status, statusDesc chain = some (i, status) →
      BuffersMapped w (.ofBytes bs) ((chain.take i).drop 1)
  status : ∀ i status, statusDesc chain = some (i, status) →
    w.mem.Mapped status.addr 1

/- A chain without descriptors has no status. -/
theorem statusDesc_nil :
    statusDesc [] = none :=
  rfl

/- The transfer of a request and its status byte. -/
theorem serveRest_returns_iff
    (w : BlkWorld cfg)
    (req : VirtioBlkReq)
    (bufs : List VirtqDesc)
    (status : VirtqDesc) :
    Returns (do
      let (ok, w) ← w.perform req bufs
      let m ← w.mem.store status.addr 8
        (if ok then VIRTIO_BLK_S_OK else VIRTIO_BLK_S_IOERR)
      .ok (w.setMem m)) ↔
    BuffersMapped w req bufs ∧
      w.mem.Mapped status.addr 1 := by
  rw [← perform_returns_iff]
  refine returns_bind_const_iff ?_
  rintro ⟨ok, w₁⟩ hPerform
  dsimp only
  rw [returns_bind_iff, store_returns_iff 8 rfl,
    (perform_layout hPerform).mapped_iff]
  exact and_iff_left (fun _ _ => returns_ok _)

/-
  Serving a chain returns if the request and its parts are
  mapped.
-/
theorem serve_returns_iff
    (w : BlkWorld cfg)
    (chain : List VirtqDesc) :
    Returns (w.serve chain) ↔ RequestMapped w chain := by
  cases chain with
  | nil =>
      refine iff_of_true (returns_ok w) ⟨?_, ?_, ?_⟩
      · intro d hMem
        cases hMem
      · intro d hMem
        cases hMem
      · intro i status h
        rw [statusDesc_nil] at h
        cases h
  | cons d ds =>
      unfold BlkWorld.serve
      rw [returns_bind_iff, copyFromDram_returns_iff]
      cases hStatus : statusDesc (d :: ds) with
      | none =>
          constructor
          · rintro ⟨hHeader, -⟩
            refine ⟨?_, ?_, ?_⟩
            · rintro d' ⟨⟩
              exact hHeader
            · intro _ _ _ _ i status h
              rw [hStatus] at h
              cases h
            · intro i status h
              rw [hStatus] at h
              cases h
          · intro h
            exact ⟨h.header d rfl, fun _ _ => returns_ok w⟩
      | some p =>
          rcases p with ⟨i, status⟩
          have hRest := fun bs => serveRest_returns_iff w
            (.ofBytes bs) (((d :: ds).take i).drop 1) status
          constructor
          · rintro ⟨hHeader, hAll⟩
            have hCopy := (copyFromDram_returns_iff _ _ _).mpr
              hHeader
            rcases hCopy with ⟨bs₀, hBs₀⟩
            refine ⟨?_, ?_, ?_⟩
            · rintro d' ⟨⟩
              exact hHeader
            · rintro d' ⟨⟩ bs hBs i' status' h
              rw [hStatus] at h
              cases h
              exact ((hRest bs).mp (hAll bs hBs)).1
            · intro i' status' h
              rw [hStatus] at h
              cases h
              exact ((hRest bs₀).mp (hAll bs₀ hBs₀)).2
          · intro h
            refine ⟨h.header d rfl, fun bs hBs => ?_⟩
            exact (hRest bs).mpr
              ⟨h.buffers d rfl bs hBs i status hStatus,
                h.status i status hStatus⟩

/- Serving keeps the regions. -/
theorem serve_layout
    {w w' : BlkWorld cfg}
    {chain : List VirtqDesc}
    (h : w.serve chain = .ok w') :
    MemoryMap.SameLayout w.mem w'.mem := by
  unfold BlkWorld.serve at h
  split at h
  · cases h
    exact .refl _
  · rcases bind_eq_ok.mp h with ⟨header, -, h⟩
    split at h
    · cases h
      exact .refl _
    · rcases bind_eq_ok.mp h with ⟨⟨ok, w₁⟩, hPerform, h⟩
      rcases bind_eq_ok.mp h with ⟨m, hStore, hEq⟩
      cases hEq
      exact (perform_layout hPerform).trans
        (MemoryMap.store_layout rfl hStore)

end RiscvEm

------------------------------------------------------------
-- Entries
------------------------------------------------------------

namespace RiscvEm

variable {cfg : PlicConfig}
variable {w w' : BlkWorld cfg}

/- The used element and the index of the used ring. -/
structure UsedMapped
    (m : MemoryMap)
    (q : VirtQueueState) : Prop where
  id : m.Mapped (q.usedElemAddr + 0) 4
  len : m.Mapped (q.usedElemAddr + 4) 4
  idx : m.Mapped (q.usedAddr + 2) 2

/- What the device touches for the next entry is mapped. -/
structure MappedEntry
    (w : BlkWorld cfg) : Prop where
  slot : w.mem.Mapped w.queue.availEntryAddr 2
  chain : ∀ entry,
    w.mem.load w.queue.availEntryAddr 16 = .ok entry →
    w.queue.descAddr ≠ 0 →
      ChainMapped w.mem w.queue w.queue.size.toNat
        (entry.setWidth 16)
  request : ∀ entry chain,
    w.mem.load w.queue.availEntryAddr 16 = .ok entry →
    fetchDescriptorChain w.mem w.queue (entry.setWidth 16) =
      .ok (true, chain) →
    BlkWorld.isRequest chain = true →
      RequestMapped w chain ∧ UsedMapped w.mem w.queue

/-
  A chain is followed exactly if all of it is mapped or
  there is no table.
-/
theorem fetchDescriptorChain_returns_iff
    (m : MemoryMap)
    (q : VirtQueueState)
    (head : BitVec 16) :
    Returns (fetchDescriptorChain m q head) ↔
      (q.descAddr ≠ 0 →
        ChainMapped m q q.size.toNat head) := by
  unfold fetchDescriptorChain
  by_cases hZero : q.descAddr = 0
  · rw [if_pos hZero]
    exact iff_of_true (returns_ok _) (absurd hZero)
  · rw [if_neg hZero, fetchChainLoop_returns_iff]
    exact ⟨fun h _ => h, fun h => h hZero⟩

/- The interrupt of the device can always be raised. -/
theorem raiseIrq_returns
    (w : BlkWorld cfg) :
    Returns w.raiseIrq := by
  rcases setPending_ok w.blk.irqNum_ne w.blk.irqNum_lt w.plic
    with ⟨plic, hOk, -⟩
  exact ⟨_, bind_eq_ok.mpr ⟨plic, hOk, rfl⟩⟩

/- An answer is given if the used ring is mapped. -/
theorem complete_returns_iff
    (w : BlkWorld cfg)
    (head : BitVec 16) :
    Returns (w.complete head) ↔ UsedMapped w.mem w.queue := by
  have hAll : Returns (w.complete head) ↔
      w.mem.Mapped (w.queue.usedElemAddr + 0) 4 ∧
        w.mem.Mapped (w.queue.usedElemAddr + 4) 4 ∧
        w.mem.Mapped (w.queue.usedAddr + 2) 2 := by
    rw [← store_returns_iff 32 rfl]
    refine returns_bind_const_iff (fun m₁ hId => ?_)
    have hLayout₁ := MemoryMap.store_layout rfl hId
    rw [← hLayout₁.mapped_iff, ← store_returns_iff 32 rfl]
    refine returns_bind_const_iff (fun m₂ hLen => ?_)
    have hLayout₂ := hLayout₁.trans
      (MemoryMap.store_layout rfl hLen)
    rw [returns_bind_iff, store_returns_iff 16 rfl,
      hLayout₂.mapped_iff]
    exact and_iff_left (fun _ _ => raiseIrq_returns _)
  rw [hAll]
  constructor
  · rintro ⟨hId, hLen, hIdx⟩
    exact ⟨hId, hLen, hIdx⟩
  · rintro ⟨hId, hLen, hIdx⟩
    exact ⟨hId, hLen, hIdx⟩

/- A request that was taken is served and answered. -/
theorem serve_complete_returns_iff
    (w : BlkWorld cfg)
    (chain : List VirtqDesc)
    (head : BitVec 16) :
    Returns (do
      let w ← w.serve chain
      w.complete head) ↔
      RequestMapped w chain ∧ UsedMapped w.mem w.queue := by
  rw [← serve_returns_iff]
  refine returns_bind_const_iff (fun w₁ hServe => ?_)
  have hLayout := serve_layout hServe
  rw [complete_returns_iff, (serve_sameQueue hServe).queue]
  constructor
  · rintro ⟨hId, hLen, hIdx⟩
    exact ⟨hLayout.mapped_iff.mp hId,
      hLayout.mapped_iff.mp hLen, hLayout.mapped_iff.mp hIdx⟩
  · rintro ⟨hId, hLen, hIdx⟩
    exact ⟨hLayout.mapped hId, hLayout.mapped hLen,
      hLayout.mapped hIdx⟩

/- Events of the trace do not matter. -/
theorem requestMapped_log
    (w : BlkWorld cfg)
    (e : RingEvent)
    (chain : List VirtqDesc) :
    RequestMapped (w.log e) chain ↔ RequestMapped w chain := by
  constructor
  · rintro ⟨hHeader, hBuffers, hStatus⟩
    refine ⟨hHeader, ?_, hStatus⟩
    intro d hMem bs hBs i status hSome
    rcases hBuffers d hMem bs hBs i status hSome with
      ⟨hIn, hOut⟩
    exact ⟨hIn, hOut⟩
  · rintro ⟨hHeader, hBuffers, hStatus⟩
    refine ⟨hHeader, ?_, hStatus⟩
    intro d hMem bs hBs i status hSome
    rcases hBuffers d hMem bs hBs i status hSome with
      ⟨hIn, hOut⟩
    exact ⟨hIn, hOut⟩

/- What happens once an entry was read from the ring. -/
theorem chain_returns_iff
    (w : BlkWorld cfg)
    (entry : BitVec 64) :
    Returns (do
      let w := w.log (.consumed (entry.setWidth 16))
      let (done, chain) ← fetchDescriptorChain w.mem w.queue
        (entry.setWidth 16)
      if done && BlkWorld.isRequest chain then
        let w ← w.serve chain
        w.complete (entry.setWidth 16)
      else
        .ok w.skipAvail) ↔
    (w.queue.descAddr ≠ 0 → ChainMapped w.mem w.queue
      w.queue.size.toNat (entry.setWidth 16)) ∧
    ∀ chain, fetchDescriptorChain w.mem w.queue
        (entry.setWidth 16) = .ok (true, chain) →
      BlkWorld.isRequest chain = true →
      RequestMapped w chain ∧ UsedMapped w.mem w.queue := by
  dsimp only
  rw [returns_bind_iff, fetchDescriptorChain_returns_iff]
  refine and_congr_right (fun _ => ?_)
  constructor
  · intro h chain hFetch hRequest
    have hServe := h (true, chain) hFetch
    dsimp only at hServe
    rw [hRequest, Bool.and_self, if_pos rfl,
      serve_complete_returns_iff, requestMapped_log] at hServe
    exact hServe
  · rintro h ⟨done, chain⟩ hFetch
    dsimp only
    by_cases hGood : (done && BlkWorld.isRequest chain) = true
    · rw [if_pos hGood, serve_complete_returns_iff,
        requestMapped_log]
      rw [Bool.and_eq_true] at hGood
      rcases hGood with ⟨rfl, hRequest⟩
      exact h chain hFetch hRequest
    · rw [if_neg hGood]
      exact returns_ok _

/-
  An entry is processed exactly if what it names is mapped.
-/
theorem processEntry_returns_iff
    (w : BlkWorld cfg) :
    Returns w.processEntry ↔ MappedEntry w := by
  unfold BlkWorld.processEntry
  rw [returns_bind_iff, load_returns_iff 16 rfl]
  have hEntry := chain_returns_iff w
  constructor
  · rintro ⟨hSlot, hAll⟩
    refine ⟨hSlot, ?_, ?_⟩
    · intro entry hLoad
      exact ((hEntry entry).mp (hAll entry hLoad)).1
    · intro entry chain hLoad
      exact ((hEntry entry).mp (hAll entry hLoad)).2 chain
  · intro h
    refine ⟨h.slot, fun entry hLoad => ?_⟩
    exact (hEntry entry).mpr ⟨h.chain entry hLoad,
      fun chain => h.request entry chain hLoad⟩

end RiscvEm

------------------------------------------------------------
-- The Queue
------------------------------------------------------------

namespace RiscvEm

variable {cfg : PlicConfig}

/- What a notification of a queue touches is mapped. -/
structure QueueMapped
    (w : BlkWorld cfg) : Prop where
  availIdx : w.mem.Mapped (w.queue.availAddr + 2) 2
  entries : ∀ availIdx,
    w.mem.load (w.queue.availAddr + 2) 16 = .ok availIdx →
      AlongLoop MappedEntry (availIdx.setWidth 16) (2 ^ 16) w

/-
  The loop returns exactly if each entry does when it is
  reached.
-/
theorem processLoop_returns_iff
    (availIdx : BitVec 16)
    (n : Nat)
    (w : BlkWorld cfg) :
    Returns (w.processLoop availIdx n) ↔
      AlongLoop MappedEntry availIdx n w := by
  induction n generalizing w with
  | zero => exact iff_of_true (returns_ok w) trivial
  | succ n ih =>
      unfold BlkWorld.processLoop AlongLoop
      by_cases hEnd : w.queue.lastAvailIdx = availIdx
      · rw [if_pos hEnd]
        exact iff_of_true (returns_ok w) (Or.inl hEnd)
      · rw [if_neg hEnd, returns_bind_iff,
          processEntry_returns_iff, or_iff_right hEnd]
        simp only [ih]

/-
  The device serves a notification without a host fault
  exactly if what it touches is mapped, whatever the guest
  wrote to memory and to the registers.
-/
theorem process_queue_returns_iff
    (w : BlkWorld cfg)
    (qsel : BitVec 32) :
    (∃ w', w.processQueue qsel = .ok w') ↔
      (qsel = 0 → w.queue.ready = true →
        w.queue.size ≠ 0 → QueueMapped w) := by
  change Returns (w.processQueue qsel) ↔ _
  unfold BlkWorld.processQueue
  by_cases hSel : qsel = 0
  · rw [if_neg (not_not.mpr hSel)]
    by_cases hIdle : w.queue.ready = false ∨ w.queue.size = 0
    · rw [if_pos hIdle]
      refine iff_of_true (returns_ok w) ?_
      intro _ hReady hSize
      rcases hIdle with hFalse | hZero
      · rw [hReady] at hFalse
        cases hFalse
      · exact absurd hZero hSize
    · rw [if_neg hIdle, returns_bind_iff,
        load_returns_iff 16 rfl]
      rw [not_or] at hIdle
      simp only [processLoop_returns_iff]
      constructor
      · rintro ⟨hIdx, hEntries⟩ _ _ _
        exact ⟨hIdx, hEntries⟩
      · intro h
        have hMapped := h hSel
          (Bool.eq_true_of_not_eq_false hIdle.1) hIdle.2
        exact ⟨hMapped.availIdx, hMapped.entries⟩
  · rw [if_pos hSel]
    exact iff_of_true (returns_ok w) (fun h => absurd h hSel)

/- The registers of a queue whose available ring is at `addr`. -/
def availOps
    (addr : BitVec 64) : List (BlkOp PlicConfig.twoHarts) :=
  [ .write (VIRTIO_BLK_START + VIRT_REG_QUEUENOTIFY) 0,
    .write (VIRTIO_BLK_START + VIRT_REG_QUEUEREADY) 1,
    .write (VIRTIO_BLK_START + VIRT_REG_QUEUEDRIVERLOW) addr,
    .write (VIRTIO_BLK_START + VIRT_REG_QUEUENUM) 8 ]

/-
  The first ring is in no region, and the index of the second
  one begins in the last byte of memory.
-/
theorem process_queue_throws :
    runBlkOps (ringStart 1) (availOps 0) =
      .error .outOfRange ∧
    runBlkOps (ringStart 1) (availOps 0x80000FFD) =
      .error .outOfBounds := by
  constructor
  · rfl
  · rfl

end RiscvEm
