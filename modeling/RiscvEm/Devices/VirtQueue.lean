import RiscvEm.Devices.PlicPending
import RiscvEm.Devices.VirtioBlk
import RiscvEm.Memory.Layout

/-
  Accounting of the queue of the block device: what it takes
  from the available ring and what it puts into the used
  ring.

  Key definitions include:
    * `BlkRun`
    * `Accounted`
    * `WellFormedEntry`
    * `QueueServed`

  Key theorems include `virtq_accounting_iff`.
-/

------------------------------------------------------------
-- Accounting
------------------------------------------------------------

namespace RiscvEm

variable {cfg : PlicConfig}

/- The heads that were taken from the available ring. -/
def consumedHeads
    (es : List RingEvent) : List (BitVec 16) :=
  es.filterMap (fun
    | .consumed head => some head
    | .used _ => none)

/- The numbers that were written into the used ring. -/
def usedIds
    (es : List RingEvent) : List (BitVec 16) :=
  es.filterMap (fun
    | .consumed _ => none
    | .used id => some id)

/-
  Every entry that was taken has its used element, in the
  same order, and the two indices agree.
-/
structure Accounted
    (w : BlkWorld cfg) : Prop where
  indices : w.queue.lastUsedIdx = w.queue.lastAvailIdx
  elements : usedIds w.trace = consumedHeads w.trace

instance
    (w : BlkWorld cfg) :
    Decidable (Accounted w) :=
  decidable_of_iff
    (w.queue.lastUsedIdx = w.queue.lastAvailIdx ∧
      usedIds w.trace = consumedHeads w.trace)
    ⟨fun h => ⟨h.1, h.2⟩, fun h => ⟨h.1, h.2⟩⟩

/- The index in guest memory is the one of the device. -/
def UsedIdxWritten
    (w : BlkWorld cfg) : Prop :=
  w.mem.load (w.queue.usedAddr + 2) 16 =
    .ok (w.queue.lastUsedIdx.setWidth 64)

instance
    (w : BlkWorld cfg) :
    Decidable (UsedIdxWritten w) :=
  inferInstanceAs (Decidable (_ = _))

/-
  The next entry names a chain that ends and has the shape of
  a request.
-/
def WellFormedEntry
    (w : BlkWorld cfg) : Prop :=
  ∃ entry chain,
    w.mem.load w.queue.availEntryAddr 16 = .ok entry ∧
    fetchDescriptorChain w.mem w.queue
      (entry.setWidth 16) = .ok (true, chain) ∧
    BlkWorld.isRequest chain = true

/- Every entry up to an index satisfies `p` when its turn is. -/
def AlongLoop
    (p : BlkWorld cfg → Prop)
    (availIdx : BitVec 16) : Nat → BlkWorld cfg → Prop
  | 0, _ => True
  | n + 1, w =>
      w.queue.lastAvailIdx = availIdx ∨
        (p w ∧ ∀ w', w.processEntry = .ok w' →
          AlongLoop p availIdx n w')

end RiscvEm

------------------------------------------------------------
-- Runs
------------------------------------------------------------

namespace RiscvEm

variable {cfg : PlicConfig}

/-
  What happens to the device: the guest writes a register, or
  harts and other devices change guest memory and the
  interrupt controller.
-/
inductive BlkOp (cfg : PlicConfig) where
  | write (addr val : BitVec 64)
  | guest (mem : MemoryMap) (plic : DevWorld (Plic cfg))

def BlkOp.exec
    (op : BlkOp cfg)
    (w : BlkWorld cfg) : Except HostFault (BlkWorld cfg) :=
  match op with
  | .write addr val => w.write addr val
  | .guest mem plic => .ok { w with mem := mem, plic := plic }

/- An operation with the states around it. -/
structure BlkStep (cfg : PlicConfig) where
  before : BlkWorld cfg
  op : BlkOp cfg
  after : BlkWorld cfg

/- A run of the device, newest operation first. -/
inductive BlkRun
    (w : BlkWorld cfg) :
    List (BlkStep cfg) → BlkWorld cfg → Prop
  | refl : BlkRun w [] w
  | step {ts : List (BlkStep cfg)} {w₁ w₂ : BlkWorld cfg}
      {op : BlkOp cfg} :
      BlkRun w ts w₁ → op.exec w₁ = .ok w₂ →
      BlkRun w (⟨w₁, op, w₂⟩ :: ts) w₂

/- The operation makes the device look at its queue. -/
def Notifies
    (w : BlkWorld cfg) : BlkOp cfg → Prop
  | .write addr val =>
      addr - VIRTIO_BLK_START = VIRT_REG_QUEUENOTIFY ∧
        val.setWidth 32 = (0 : BitVec 32) ∧
        w.queue.ready = true ∧ w.queue.size ≠ 0
  | .guest _ _ => False

instance
    (w : BlkWorld cfg) :
    (op : BlkOp cfg) → Decidable (Notifies w op)
  | .write _ _ => inferInstanceAs (Decidable (_ ∧ _))
  | .guest _ _ => inferInstanceAs (Decidable False)

/-
  A notification finds well-formed entries only, and if it
  finds none, the index in guest memory is right already.
-/
def QueueServed
    (w : BlkWorld cfg)
    (op : BlkOp cfg) : Prop :=
  Notifies w op → ∀ availIdx,
    w.mem.load (w.queue.availAddr + 2) 16 = .ok availIdx →
      AlongLoop WellFormedEntry (availIdx.setWidth 16)
        (2 ^ 16) w ∧
      (w.queue.lastAvailIdx = availIdx.setWidth 16 →
        UsedIdxWritten w)

end RiscvEm

------------------------------------------------------------
-- One Entry
------------------------------------------------------------

namespace RiscvEm

variable {cfg : PlicConfig}
variable {w w' w₁ : BlkWorld cfg}

/- Serving a request leaves the queue and the log alone. -/
structure SameQueue
    (w w' : BlkWorld cfg) : Prop where
  queue : w'.queue = w.queue
  trace : w'.trace = w.trace

/- A queue is the same as itself. -/
theorem SameQueue.refl
    (w : BlkWorld cfg) :
    SameQueue w w :=
  ⟨rfl, rfl⟩

/- Equality of queues is transitive. -/
theorem SameQueue.trans
    {w'' : BlkWorld cfg}
    (h : SameQueue w w')
    (h' : SameQueue w' w'') :
    SameQueue w w'' :=
  ⟨h'.queue.trans h.queue, h'.trace.trans h.trace⟩

/- Performing a request leaves the queue. -/
theorem perform_sameQueue
    {req : VirtioBlkReq}
    {datas : List VirtqDesc}
    {ok : Bool}
    (h : w.perform req datas = .ok (ok, w')) :
    SameQueue w w' := by
  unfold BlkWorld.perform at h
  split at h
  · split at h
    · cases h
      exact .refl w
    · rcases bind_eq_ok.mp h with ⟨res, -, hEq⟩
      cases hEq
      exact ⟨rfl, rfl⟩
  · split at h
    · rcases bind_eq_ok.mp h with ⟨buf, -, hEq⟩
      split at hEq
      · cases hEq
        exact .refl w
      · cases hEq
        exact ⟨rfl, rfl⟩
    · cases h
      exact .refl w

/- Serving a chain leaves the queue. -/
theorem serve_sameQueue
    {chain : List VirtqDesc}
    (h : w.serve chain = .ok w') :
    SameQueue w w' := by
  unfold BlkWorld.serve at h
  split at h
  · cases h
    exact .refl w
  · rcases bind_eq_ok.mp h with ⟨header, -, h⟩
    split at h
    · cases h
      exact .refl w
    · rcases bind_eq_ok.mp h with ⟨⟨ok, w₁⟩, hPerform, h⟩
      rcases bind_eq_ok.mp h with ⟨m, -, hEq⟩
      cases hEq
      exact (perform_sameQueue hPerform).trans ⟨rfl, rfl⟩

/- An entry was answered with a used element. -/
structure Answered
    (w w' : BlkWorld cfg) : Prop where
  queue : w'.queue = { w.queue with
    lastUsedIdx := w.queue.lastUsedIdx + 1
    lastAvailIdx := w.queue.lastAvailIdx + 1 }
  trace : ∃ head,
    w'.trace = .used head :: .consumed head :: w.trace
  written : UsedIdxWritten w'

/- Completing writes one element and the index. -/
theorem complete_cases
    {head : BitVec 16}
    (h : w.complete head = .ok w') :
    w'.queue = { w.queue with
        lastUsedIdx := w.queue.lastUsedIdx + 1
        lastAvailIdx := w.queue.lastAvailIdx + 1 } ∧
      w'.trace = .used head :: w.trace ∧
      UsedIdxWritten w' := by
  rcases bind_eq_ok.mp h with ⟨m₁, -, h⟩
  rcases bind_eq_ok.mp h with ⟨m₂, -, h⟩
  rcases bind_eq_ok.mp h with ⟨m₃, hStore, h⟩
  rcases bind_eq_ok.mp h with ⟨plic, -, hEq⟩
  cases hEq
  refine ⟨rfl, rfl, ?_⟩
  have hLoad := MemoryMap.load_store rfl hStore
  refine hLoad.trans ?_
  congr 1
  apply BitVec.eq_of_toNat_eq
  have hLt := (w.queue.lastUsedIdx + 1).isLt
  change _ = ((w.queue.lastUsedIdx + 1).setWidth 64).toNat
  rw [BitVec.toNat_ofNat, BitVec.toNat_setWidth]
  omega

/- An entry is answered if it is well formed, or skipped. -/
theorem processEntry_cases
    (h : w.processEntry = .ok w') :
    (WellFormedEntry w ∧ Answered w w') ∨
      (¬ WellFormedEntry w ∧ ∃ head,
        w' = (w.log (.consumed head)).skipAvail) := by
  rcases bind_eq_ok.mp h with ⟨entry, hEntry, h⟩
  rcases bind_eq_ok.mp h with ⟨⟨done, chain⟩, hFetch, h⟩
  dsimp only at h hFetch
  by_cases hGood : (done && BlkWorld.isRequest chain) = true
  · rw [if_pos hGood] at h
    rw [Bool.and_eq_true] at hGood
    rcases hGood with ⟨rfl, hRequest⟩
    rcases bind_eq_ok.mp h with ⟨w₁, hServe, hComplete⟩
    have hSame := serve_sameQueue hServe
    rcases complete_cases hComplete with
      ⟨hQueue, hTrace, hWritten⟩
    rw [hSame.queue] at hQueue
    rw [hSame.trace] at hTrace
    exact Or.inl ⟨⟨entry, chain, hEntry, hFetch, hRequest⟩,
      hQueue, ⟨_, hTrace⟩, hWritten⟩
  · rw [if_neg hGood] at h
    cases h
    refine Or.inr ⟨?_, _, rfl⟩
    rintro ⟨entry', chain', hEntry', hFetch', hRequest⟩
    rw [hEntry] at hEntry'
    cases hEntry'
    change fetchDescriptorChain w.mem w.queue _ = _ at hFetch
    rw [hFetch'] at hFetch
    cases hFetch
    exact hGood (by rw [hRequest]; rfl)

/- Every entry advances the index by one. -/
theorem processEntry_lastAvailIdx
    (h : w.processEntry = .ok w') :
    w'.queue.lastAvailIdx = w.queue.lastAvailIdx + 1 := by
  rcases processEntry_cases h with
    ⟨-, hAnswered⟩ | ⟨-, head, rfl⟩
  · rw [hAnswered.queue]
  · rfl

end RiscvEm

------------------------------------------------------------
-- One Notification
------------------------------------------------------------

namespace RiscvEm

variable {cfg : PlicConfig}
variable {w w' : BlkWorld cfg}
variable {availIdx : BitVec 16}
variable {n : Nat}

/- How far the device is behind the guest. -/
def behind
    (w : BlkWorld cfg)
    (availIdx : BitVec 16) : Nat :=
  (availIdx - w.queue.lastAvailIdx).toNat

/- The loop is behind by nothing at its end. -/
theorem behind_eq_zero_iff :
    behind w availIdx = 0 ↔
      w.queue.lastAvailIdx = availIdx := by
  have hLt := availIdx.isLt
  have hLt' := w.queue.lastAvailIdx.isLt
  unfold behind
  rw [BitVec.toNat_sub, ← BitVec.toNat_inj]
  omega

/- An entry brings it nearer by one. -/
theorem behind_processEntry
    (h : w.processEntry = .ok w')
    (hNe : w.queue.lastAvailIdx ≠ availIdx) :
    behind w' availIdx + 1 = behind w availIdx := by
  have hPos := mt behind_eq_zero_iff.mp hNe
  have hLt := availIdx.isLt
  have hLt' := w.queue.lastAvailIdx.isLt
  unfold behind at hPos ⊢
  rw [processEntry_lastAvailIdx h]
  simp only [BitVec.toNat_sub, BitVec.toNat_add,
    BitVec.reduceToNat] at hPos ⊢
  omega

/- The loop returns when no entry is left. -/
theorem processLoop_of_end
    (hEnd : w.queue.lastAvailIdx = availIdx) :
    w.processLoop availIdx n = .ok w := by
  cases n with
  | zero => rfl
  | succ n =>
      unfold BlkWorld.processLoop
      exact if_pos hEnd

/-
  The indices drift apart by the entries that were skipped,
  and none is skipped exactly if all are well formed.
-/
theorem processLoop_drift
    (hFuel : behind w availIdx ≤ n)
    (h : w.processLoop availIdx n = .ok w') :
    ∃ skips, skips ≤ behind w availIdx ∧
      (skips = 0 ↔ AlongLoop WellFormedEntry availIdx n w) ∧
      w'.queue.lastAvailIdx - w'.queue.lastUsedIdx =
        w.queue.lastAvailIdx - w.queue.lastUsedIdx +
          BitVec.ofNat 16 skips := by
  induction n generalizing w with
  | zero =>
      cases h
      refine ⟨0, Nat.zero_le _, ?_, by simp⟩
      exact ⟨fun _ => trivial, fun _ => rfl⟩
  | succ n ih =>
      unfold BlkWorld.processLoop at h
      by_cases hEnd : w.queue.lastAvailIdx = availIdx
      · rw [if_pos hEnd] at h
        cases h
        refine ⟨0, Nat.zero_le _, ?_, by simp⟩
        exact ⟨fun _ => Or.inl hEnd, fun _ => rfl⟩
      · rw [if_neg hEnd] at h
        rcases bind_eq_ok.mp h with ⟨w₁, hEntry, hLoop⟩
        have hBehind := behind_processEntry hEntry hEnd
        rcases ih (by omega) hLoop with
          ⟨skips, hLe, hIff, hDrift⟩
        -- what the loop does after this entry is determined
        have hRest : (∀ w₂, w.processEntry = .ok w₂ →
            AlongLoop WellFormedEntry availIdx n w₂) ↔
            AlongLoop WellFormedEntry availIdx n w₁ := by
          constructor
          · exact fun hAll => hAll w₁ hEntry
          · intro hOne w₂ hEntry₂
            rw [hEntry] at hEntry₂
            cases hEntry₂
            exact hOne
        rcases processEntry_cases hEntry with
          ⟨hGood, hAnswered⟩ | ⟨hBad, head, hSkip⟩
        · refine ⟨skips, by omega, ?_, ?_⟩
          · rw [hIff, ← hRest]
            constructor
            · exact fun hAll => Or.inr ⟨hGood, hAll⟩
            · exact fun hAlong => (hAlong.resolve_left hEnd).2
          · rw [hDrift, hAnswered.queue]
            congr 1
            bv_omega
        · refine ⟨skips + 1, by omega, ?_, ?_⟩
          · constructor
            · intro hZero
              omega
            · intro hAlong
              exact absurd (hAlong.resolve_left hEnd).1 hBad
          · rw [hDrift, hSkip, BitVec.ofNat_add]
            change w.queue.lastAvailIdx + 1 -
              w.queue.lastUsedIdx + BitVec.ofNat 16 skips = _
            bv_omega

/- What well-formed entries leave in the rings. -/
theorem processLoop_elements
    (hAlong : AlongLoop WellFormedEntry availIdx n w)
    (h : w.processLoop availIdx n = .ok w')
    (hElements : usedIds w.trace = consumedHeads w.trace) :
    usedIds w'.trace = consumedHeads w'.trace := by
  induction n generalizing w with
  | zero =>
      cases h
      exact hElements
  | succ n ih =>
      unfold BlkWorld.processLoop at h
      by_cases hEnd : w.queue.lastAvailIdx = availIdx
      · rw [if_pos hEnd] at h
        cases h
        exact hElements
      · rw [if_neg hEnd] at h
        rcases bind_eq_ok.mp h with ⟨w₁, hEntry, hLoop⟩
        rcases hAlong.resolve_left hEnd with ⟨hGood, hRest⟩
        refine ih (hRest w₁ hEntry) hLoop ?_
        rcases processEntry_cases hEntry with
          ⟨-, hAnswered⟩ | ⟨hBad, -⟩
        · rcases hAnswered.trace with ⟨head, hTrace⟩
          rw [hTrace]
          exact congrArg (head :: ·) hElements
        · exact absurd hGood hBad

/- The index in memory stays the last one written. -/
theorem processLoop_written
    (hAlong : AlongLoop WellFormedEntry availIdx n w)
    (h : w.processLoop availIdx n = .ok w')
    (hWritten : UsedIdxWritten w) :
    UsedIdxWritten w' := by
  induction n generalizing w with
  | zero =>
      cases h
      exact hWritten
  | succ n ih =>
      unfold BlkWorld.processLoop at h
      by_cases hEnd : w.queue.lastAvailIdx = availIdx
      · rw [if_pos hEnd] at h
        cases h
        exact hWritten
      · rw [if_neg hEnd] at h
        rcases bind_eq_ok.mp h with ⟨w₁, hEntry, hLoop⟩
        rcases hAlong.resolve_left hEnd with ⟨hGood, hRest⟩
        refine ih (hRest w₁ hEntry) hLoop ?_
        rcases processEntry_cases hEntry with
          ⟨-, hAnswered⟩ | ⟨hBad, -⟩
        · exact hAnswered.written
        · exact absurd hGood hBad

/- The first well-formed entry already writes the index. -/
theorem processLoop_written_of_new
    (hAlong : AlongLoop WellFormedEntry availIdx (n + 1) w)
    (h : w.processLoop availIdx (n + 1) = .ok w')
    (hNew : w.queue.lastAvailIdx ≠ availIdx) :
    UsedIdxWritten w' := by
  unfold BlkWorld.processLoop at h
  rw [if_neg hNew] at h
  rcases bind_eq_ok.mp h with ⟨w₁, hEntry, hLoop⟩
  rcases hAlong.resolve_left hNew with ⟨hGood, hRest⟩
  refine processLoop_written (hRest w₁ hEntry) hLoop ?_
  rcases processEntry_cases hEntry with
    ⟨-, hAnswered⟩ | ⟨hBad, -⟩
  · exact hAnswered.written
  · exact absurd hGood hBad

/- When a notification keeps the accounts. -/
theorem processLoop_accounted_iff
    (h : w.processLoop availIdx (2 ^ 16) = .ok w')
    (hBefore : Accounted w) :
    (Accounted w' ∧ UsedIdxWritten w') ↔
      AlongLoop WellFormedEntry availIdx (2 ^ 16) w ∧
        (w.queue.lastAvailIdx = availIdx →
          UsedIdxWritten w) := by
  have hLt : behind w availIdx < 2 ^ 16 :=
    (availIdx - w.queue.lastAvailIdx).isLt
  rcases processLoop_drift hLt.le h with
    ⟨skips, hLe, hIff, hDrift⟩
  constructor
  · rintro ⟨hAfter, hWritten⟩
    rw [hAfter.indices, hBefore.indices, BitVec.sub_self,
      BitVec.sub_self, BitVec.zero_add] at hDrift
    have hZero := congrArg BitVec.toNat hDrift.symm
    rw [BitVec.toNat_ofNat, BitVec.toNat_zero,
      Nat.mod_eq_of_lt (by omega)] at hZero
    refine ⟨hIff.mp hZero, ?_⟩
    intro hEnd
    rw [processLoop_of_end hEnd] at h
    cases h
    exact hWritten
  · rintro ⟨hAlong, hStart⟩
    refine ⟨⟨?_, ?_⟩, ?_⟩
    · rw [hIff.mpr hAlong, hBefore.indices, BitVec.sub_self,
        BitVec.add_zero] at hDrift
      have hSame := congrArg (· + w'.queue.lastUsedIdx) hDrift
      simp only [BitVec.sub_add_cancel, BitVec.zero_add]
        at hSame
      exact hSame.symm
    · exact processLoop_elements hAlong h hBefore.elements
    · by_cases hEnd : w.queue.lastAvailIdx = availIdx
      · exact processLoop_written hAlong h (hStart hEnd)
      · exact processLoop_written_of_new hAlong h hEnd

end RiscvEm

------------------------------------------------------------
-- Whole Runs
------------------------------------------------------------

namespace RiscvEm

variable {cfg : PlicConfig}
variable {w w' : BlkWorld cfg}

/- The two indices of the device agree. -/
def IndicesAgree
    (b : VirtioBlk cfg) : Prop :=
  b.queue0.lastUsedIdx = b.queue0.lastAvailIdx

/- Writes to other fields keep the indices. -/
theorem IndicesAgree.modifyQueue
    {b : VirtioBlk cfg}
    (h : IndicesAgree b)
    {f : VirtQueueState → VirtQueueState}
    (hUsed : (f b.queue0).lastUsedIdx = b.queue0.lastUsedIdx)
    (hAvail :
      (f b.queue0).lastAvailIdx = b.queue0.lastAvailIdx) :
    IndicesAgree (b.modifyQueue f) := by
  unfold VirtioBlk.modifyQueue
  split
  · exact hUsed.trans (h.trans hAvail.symm)
  · exact h

/- The indices change with a reset only, and then together. -/
theorem IndicesAgree.writeReg
    {b : VirtioBlk cfg}
    (h : IndicesAgree b)
    (off val : BitVec 64) :
    IndicesAgree (b.writeReg off val) := by
  unfold VirtioBlk.writeReg
  repeat'
    apply iteInduction (motive := IndicesAgree)
    all_goals intro _
  all_goals first
    | exact h
    | exact h.modifyQueue rfl rfl
    | rfl

/- Writes to registers keep the accounts. -/
theorem Accounted.writeReg
    (h : Accounted w)
    (off val : BitVec 64) :
    Accounted { w with blk := w.blk.writeReg off val } :=
  ⟨IndicesAgree.writeReg h.indices off val, h.elements⟩

/- An operation keeps the accounts exactly if it may. -/
theorem Accounted.exec_iff
    (h : Accounted w)
    {op : BlkOp cfg}
    (hExec : op.exec w = .ok w') :
    (Accounted w' ∧ (Notifies w op → UsedIdxWritten w')) ↔
      QueueServed w op := by
  by_cases hNotifies : Notifies w op
  · cases op with
    | guest mem plic => exact absurd hNotifies id
    | write addr val =>
        rcases hNotifies with ⟨hOff, hSel, hReady, hSize⟩
        change w.write addr val = .ok w' at hExec
        unfold BlkWorld.write BlkWorld.processQueue at hExec
        dsimp only at hExec
        rw [if_pos hOff, if_neg (not_not.mpr hSel), if_neg]
          at hExec
        · rcases bind_eq_ok.mp hExec with ⟨v, hLoad, hLoop⟩
          have hIff := processLoop_accounted_iff hLoop h
          constructor
          · rintro ⟨hAfter, hWritten⟩ _ v' hLoad'
            rw [hLoad] at hLoad'
            cases hLoad'
            exact hIff.mp ⟨hAfter,
              hWritten ⟨hOff, hSel, hReady, hSize⟩⟩
          · intro hServed
            have hBoth := hIff.mpr
              (hServed ⟨hOff, hSel, hReady, hSize⟩ v hLoad)
            exact ⟨hBoth.1, fun _ => hBoth.2⟩
        · rw [hReady]
          exact not_or.mpr ⟨Bool.false_ne_true.symm, hSize⟩
  · refine iff_of_true ⟨?_, fun hYes => absurd hYes hNotifies⟩
      (fun hYes => absurd hYes hNotifies)
    cases op with
    | guest mem plic =>
        cases hExec
        exact ⟨h.indices, h.elements⟩
    | write addr val =>
        change w.write addr val = .ok w' at hExec
        unfold BlkWorld.write BlkWorld.processQueue at hExec
        dsimp only at hExec
        split at hExec
        case isFalse =>
          cases hExec
          exact h.writeReg _ _
        case isTrue hOff =>
          split at hExec
          case isTrue =>
            cases hExec
            exact h
          case isFalse hSel =>
            split at hExec
            case isTrue =>
              cases hExec
              exact h
            case isFalse hReady =>
              rw [not_or] at hReady
              refine absurd ⟨hOff, not_not.mp hSel, ?_,
                hReady.2⟩ hNotifies
              exact Bool.eq_true_of_not_eq_false hReady.1

/-
  Over a run they are kept exactly if every step keeps them.
-/
theorem BlkRun.accounted_iff
    {ts : List (BlkStep cfg)}
    (hRun : BlkRun w ts w')
    (hStart : Accounted w) :
    ((∀ t ∈ ts, Accounted t.after ∧
        (Notifies t.before t.op → UsedIdxWritten t.after)) ↔
      ∀ t ∈ ts, QueueServed t.before t.op) ∧
      ((∀ t ∈ ts, Accounted t.after) → Accounted w') := by
  induction hRun with
  | refl =>
      refine ⟨⟨?_, ?_⟩, fun _ => hStart⟩
      · intro _ t hMem
        cases hMem
      · intro _ t hMem
        cases hMem
  | step _ hExec ih =>
      rcases ih with ⟨ih, ihLast⟩
      refine ⟨?_, fun hAll => hAll _ (List.mem_cons_self ..)⟩
      simp only [List.forall_mem_cons]
      constructor
      · rintro ⟨hHead, hTail⟩
        have hLast := ihLast (fun t hMem => (hTail t hMem).1)
        exact ⟨(hLast.exec_iff hExec).mp hHead, ih.mp hTail⟩
      · rintro ⟨hHead, hTail⟩
        have hOld := ih.mpr hTail
        have hLast := ihLast (fun t hMem => (hOld t hMem).1)
        exact ⟨(hLast.exec_iff hExec).mpr hHead, hOld⟩

/-
  Since a reset, after every operation each consumed entry
  has its used element and the indices agree, and after every
  notification the index in guest memory is the device's,
  exactly if the notifications find well-formed entries.
-/
theorem virtq_accounting_iff
    (w w' : BlkWorld cfg)
    (ts : List (BlkStep cfg))
    (hReset : w.queue = .init)
    (hTrace : w.trace = [])
    (hRun : BlkRun w ts w') :
    (∀ t ∈ ts, Accounted t.after ∧
        (Notifies t.before t.op → UsedIdxWritten t.after)) ↔
      ∀ t ∈ ts, QueueServed t.before t.op := by
  refine (hRun.accounted_iff ⟨?_, ?_⟩).1
  · rw [hReset]
    rfl
  · rw [hTrace]
    rfl

/- Execute operations, of which the newest comes first. -/
def runBlkOps
    (w : BlkWorld cfg) :
    List (BlkOp cfg) →
      Except HostFault (List (BlkStep cfg) × BlkWorld cfg)
  | [] => .ok ([], w)
  | op :: ops => do
      let (ts, w₁) ← runBlkOps w ops
      let w₂ ← op.exec w₁
      .ok (⟨w₁, op, w₂⟩ :: ts, w₂)

/- Operations that are executed make a run. -/
theorem blkRun_of_runBlkOps
    {ops : List (BlkOp cfg)}
    {ts : List (BlkStep cfg)}
    (h : runBlkOps w ops = .ok (ts, w')) :
    BlkRun w ts w' ∧ ts.map BlkStep.op = ops := by
  induction ops generalizing ts w' with
  | nil =>
      cases h
      exact ⟨.refl, rfl⟩
  | cons op ops ih =>
      rcases bind_eq_ok.mp h with ⟨⟨ts₁, w₁⟩, hOps, h⟩
      rcases bind_eq_ok.mp h with ⟨w₂, hExec, hEq⟩
      cases hEq
      rcases ih hOps with ⟨hRun, hMap⟩
      exact ⟨hRun.step hExec, congrArg (op :: ·) hMap⟩

/-
  Memory with a descriptor table at `0x100`, an available
  ring with one entry at `0x200`, a used ring at `0x300` and
  a request at `0x400`. The first descriptor names `next`.
-/
def ringMemory
    (next : BitVec 8) : MemoryMap :=
  { regions := [{
      baseAddr := 0x80000000
      size := 0x1000
      data := fun
        | 0x101 => 0x04
        | 0x103 => 0x80
        | 0x108 => 16
        | 0x10C => 1
        | 0x10E => next
        | 0x111 => 0x05
        | 0x113 => 0x80
        | 0x118 => 1
        | 0x11C => 2
        | 0x202 => 1
        | _ => 0 }]
    ramDirect := some 0 }

def ringStart
    (next : BitVec 8) : BlkWorld PlicConfig.twoHarts :=
  { blk := .init 1 (by decide) (by decide) none
    plic := plicStart
    mem := ringMemory next
    trace := [] }

/- Set the queue up and notify the device. -/
def ringOps : List (BlkOp PlicConfig.twoHarts) :=
  [ .write (VIRTIO_BLK_START + VIRT_REG_QUEUENOTIFY) 0,
    .write (VIRTIO_BLK_START + VIRT_REG_QUEUEREADY) 1,
    .write (VIRTIO_BLK_START + VIRT_REG_QUEUEDEVICELOW)
      0x80000300,
    .write (VIRTIO_BLK_START + VIRT_REG_QUEUEDRIVERLOW)
      0x80000200,
    .write (VIRTIO_BLK_START + VIRT_REG_QUEUEDESCLOW)
      0x80000100,
    .write (VIRTIO_BLK_START + VIRT_REG_QUEUENUM) 8 ]

/- The request is answered, so its notification was served. -/
theorem virtq_accounting_request :
    ∃ ts w', BlkRun (ringStart 1) ts w' ∧
      ts.map BlkStep.op = ringOps ∧
      ∀ t ∈ ts, QueueServed t.before t.op := by
  have hDone : (runBlkOps (ringStart 1) ringOps).toOption.map
      (fun r => decide (∀ t ∈ r.1, Accounted t.after ∧
        (Notifies t.before t.op → UsedIdxWritten t.after))) =
      some true := by
    decide +kernel
  rcases Option.map_eq_some_iff.mp hDone with
    ⟨⟨ts, w'⟩, hOps, hAll⟩
  rw [toOption_eq_some] at hOps
  rcases blkRun_of_runBlkOps hOps with ⟨hRun, hMap⟩
  refine ⟨ts, w', hRun, hMap, ?_⟩
  exact (virtq_accounting_iff _ w' ts rfl rfl hRun).mp
    (of_decide_eq_true hAll)

/-
  A chain that goes round is dropped: its entry was taken and
  has no used element.
-/
theorem virtq_entry_dropped :
    (ringStart 0).queue = .init ∧
    ∃ ts w', BlkRun (ringStart 0) ts w' ∧
      ts.map BlkStep.op = ringOps ∧
      consumedHeads w'.trace = [0] ∧ usedIds w'.trace = [] ∧
      w'.queue.lastAvailIdx ≠ w'.queue.lastUsedIdx := by
  have hDone : (runBlkOps (ringStart 0) ringOps).toOption.map
      (fun r => decide (
        consumedHeads r.2.trace = [0] ∧
        usedIds r.2.trace = [] ∧
        r.2.queue.lastAvailIdx ≠ r.2.queue.lastUsedIdx)) =
      some true := by
    decide +kernel
  rcases Option.map_eq_some_iff.mp hDone with
    ⟨⟨ts, w'⟩, hOps, hAll⟩
  rw [toOption_eq_some] at hOps
  rcases blkRun_of_runBlkOps hOps with ⟨hRun, hMap⟩
  exact ⟨rfl, ts, w', hRun, hMap, of_decide_eq_true hAll⟩

end RiscvEm
