import RiscvEm.Devices.BlkRequest

/-
  Reset of the block device by its status register, and the
  negotiation of features.

  A reset clears the status, the interrupt status and the
  queue. The selectors and the features of the driver stay.

  Key definitions include:
    * `BlkWorld.answers`
    * `IsFresh`
    * `FeaturesValid`
    * `NegotiationOk`

  Key theorems include `virtio_reset_iff`.
-/

------------------------------------------------------------
-- What A Reset Should Do
------------------------------------------------------------

namespace RiscvEm

variable {cfg : PlicConfig}

/- A register access of the guest. -/
inductive BlkAccess where
  | read (addr : BitVec 64)
  | write (addr val : BitVec 64)

/- What the reads of a sequence return, and the end of it. -/
def BlkWorld.answers
    (w : BlkWorld cfg) :
    List BlkAccess →
      Except HostFault (List (BitVec 64) × BlkWorld cfg)
  | [] => .ok ([], w)
  | .read addr :: as => do
      let (vs, w') ← w.answers as
      .ok (w.blk.read addr :: vs, w')
  | .write addr val :: as => do
      let w ← w.write addr val
      w.answers as

/-
  The device is the constructed device `b`, apart from what
  the image holds by now.
-/
structure IsFresh
    (b : VirtioBlk cfg)
    (w : BlkWorld cfg) : Prop where
  deviceStatus : w.blk.deviceStatus = b.deviceStatus
  interruptStatus : w.blk.interruptStatus = b.interruptStatus
  driverFeatures : w.blk.driverFeatures = b.driverFeatures
  deviceFeaturesSel :
    w.blk.deviceFeaturesSel = b.deviceFeaturesSel
  driverFeaturesSel :
    w.blk.driverFeaturesSel = b.driverFeaturesSel
  queueSel : w.blk.queueSel = b.queueSel
  queue0 : w.blk.queue0 = b.queue0
  configGeneration :
    w.blk.configGeneration = b.configGeneration
  answers : ∀ as, w.answers as =
    { w with blk := { b with disk := w.blk.disk } }.answers as

/- `device_status & VIRT_STATUS_FEATURES_OK`. -/
def VirtioBlk.featuresOk
    (b : VirtioBlk cfg) : Prop :=
  b.deviceStatus &&& VirtioBlk.VIRT_STATUS_FEATURES_OK ≠ 0

/- Accepted features are ones that the device offers. -/
def FeaturesValid
    (b : VirtioBlk cfg) : Prop :=
  b.featuresOk → b.driverFeatures &&& ~~~b.deviceFeatures = 0

/- A write of zero to the status register. -/
def ResetsDevice : BlkOp cfg → Prop
  | .write addr val =>
      addr - VIRTIO_BLK_START = VIRT_REG_STATUS ∧ val = 0
  | .guest _ _ => False

/- The members that a reset leaves as they are. -/
structure Unselected
    (b : VirtioBlk cfg) : Prop where
  driverFeatures : b.driverFeatures = 0
  deviceFeaturesSel : b.deviceFeaturesSel = 0
  driverFeaturesSel : b.driverFeaturesSel = 0
  queueSel : b.queueSel = 0

/- A word of features, of which the device offers every bit. -/
def Offered
    (b : VirtioBlk cfg)
    (val : BitVec 64) : Prop :=
  (val.setWidth 32).setWidth 64 &&&
    ~~~(if b.driverFeaturesSel = 0 then
      lowWord b.deviceFeatures
    else
      highWord b.deviceFeatures) = 0

/- The operation writes features after they were accepted. -/
def WritesAccepted
    (b : VirtioBlk cfg)
    (off : BitVec 64) : Prop :=
  off = VIRT_REG_DRIVERFEATURES ∧ b.featuresOk

def FeaturesKept
    (w : BlkWorld cfg) : BlkOp cfg → Prop
  | .write addr val =>
      WritesAccepted w.blk (addr - VIRTIO_BLK_START) →
        Offered w.blk val
  | .guest _ _ => True

/-
  A reset finds nothing selected and no features of the
  driver, and features that were accepted are replaced by
  ones that the device offers.
-/
structure NegotiationOk
    (w : BlkWorld cfg)
    (op : BlkOp cfg) : Prop where
  reset : ResetsDevice op → Unselected w.blk
  features : FeaturesKept w op

end RiscvEm

------------------------------------------------------------
-- Words Of Features
------------------------------------------------------------

namespace RiscvEm

/- A set of bits that lies in another one. -/
theorem and_not_eq_zero_iff
    {x y : BitVec 64} :
    x &&& ~~~y = 0 ↔
      ∀ i, i < 64 → x.getLsbD i = true →
        y.getLsbD i = true := by
  constructor
  · intro h i hi hx
    have hBit := congrArg (·.getLsbD i) h
    simpa [hi, hx] using hBit
  · intro h
    apply BitVec.eq_of_getLsbD_eq
    intro i hi
    have hBit := h i hi
    cases hx : x.getLsbD i with
    | false => simp [hx]
    | true => simp [hx, hi, hBit hx]

/- The mask has the bits of the low half. -/
theorem getLsbD_lowMask
    (i : Nat) :
    (0xFFFFFFFF : BitVec 64).getLsbD i = decide (i < 32) := by
  have hMask : (0xFFFFFFFF : BitVec 64) =
      (BitVec.allOnes 32).setWidth 64 := by
    decide
  rw [hMask, BitVec.getLsbD_setWidth, BitVec.getLsbD_allOnes]
  by_cases hi : i < 32
  · simp [hi, Nat.lt_trans hi (by decide : 32 < 64)]
  · simp [hi]

/- Setting the low half leaves the high one. -/
theorem getLsbD_setLowWord
    (x v : BitVec 64)
    {i : Nat}
    (hi : i < 64) :
    (setLowWord x v).getLsbD i =
      if i < 32 then v.getLsbD i else x.getLsbD i := by
  unfold setLowWord
  rw [BitVec.getLsbD_or, BitVec.getLsbD_and,
    BitVec.getLsbD_not, getLsbD_lowMask,
    BitVec.getLsbD_setWidth, BitVec.getLsbD_setWidth]
  by_cases hLow : i < 32
  · simp [hi, hLow]
  · simp [hi, hLow]

/- Setting the high half leaves the low one. -/
theorem getLsbD_setHighWord
    (x v : BitVec 64)
    {i : Nat}
    (hi : i < 64) :
    (setHighWord x v).getLsbD i =
      if i < 32 then x.getLsbD i else v.getLsbD (i - 32) := by
  change ((x &&& (0xFFFFFFFF : BitVec 64)) |||
    ((v.setWidth 32).setWidth 64 <<< 32)).getLsbD i = _
  rw [BitVec.getLsbD_or, BitVec.getLsbD_and, getLsbD_lowMask,
    BitVec.getLsbD_shiftLeft, BitVec.getLsbD_setWidth,
    BitVec.getLsbD_setWidth]
  by_cases hLow : i < 32
  · simp [hLow]
  · have hHigh : i - 32 < 32 := by omega
    simp [hi, hLow, hHigh, Nat.lt_trans hHigh
      (by decide : 32 < 64)]

/- The lower half is replaced; the upper one was fine. -/
theorem setLowWord_subset_iff
    {x y v : BitVec 64}
    (hx : x &&& ~~~y = 0) :
    setLowWord x v &&& ~~~y = 0 ↔
      (v.setWidth 32).setWidth 64 &&& ~~~lowWord y = 0 := by
  rw [and_not_eq_zero_iff] at hx
  rw [and_not_eq_zero_iff, and_not_eq_zero_iff]
  unfold lowWord
  constructor
  · intro h i hi hBit
    rw [BitVec.getLsbD_setWidth, BitVec.getLsbD_setWidth] at hBit
    simp only [Bool.and_eq_true, decide_eq_true_eq] at hBit
    have hOld := h i hi
    rw [getLsbD_setLowWord x v hi, if_pos hBit.2.1] at hOld
    rw [BitVec.getLsbD_and, getLsbD_lowMask, hOld hBit.2.2]
    simp [hBit.2.1]
  · intro h i hi hBit
    rw [getLsbD_setLowWord x v hi] at hBit
    by_cases hLow : i < 32
    · rw [if_pos hLow] at hBit
      have hNew := h i hi
      rw [BitVec.getLsbD_setWidth, BitVec.getLsbD_setWidth,
        BitVec.getLsbD_and, getLsbD_lowMask] at hNew
      simp only [hi, hLow, hBit, decide_true, Bool.and_true,
        forall_const] at hNew
      exact hNew
    · rw [if_neg hLow] at hBit
      exact hx i hi hBit

/- The upper half is replaced; the lower one was fine. -/
theorem setHighWord_subset_iff
    {x y v : BitVec 64}
    (hx : x &&& ~~~y = 0) :
    setHighWord x v &&& ~~~y = 0 ↔
      (v.setWidth 32).setWidth 64 &&& ~~~highWord y = 0 := by
  rw [and_not_eq_zero_iff] at hx
  rw [and_not_eq_zero_iff, and_not_eq_zero_iff]
  unfold highWord
  constructor
  · intro h i hi hBit
    rw [BitVec.getLsbD_setWidth, BitVec.getLsbD_setWidth] at hBit
    simp only [Bool.and_eq_true, decide_eq_true_eq] at hBit
    have hOld := h (32 + i) (by omega)
    rw [getLsbD_setHighWord x v (by omega),
      if_neg (by omega), Nat.add_sub_cancel_left] at hOld
    rw [BitVec.getLsbD_ushiftRight]
    exact hOld hBit.2.2
  · intro h i hi hBit
    rw [getLsbD_setHighWord x v hi] at hBit
    by_cases hLow : i < 32
    · rw [if_pos hLow] at hBit
      exact hx i hi hBit
    · rw [if_neg hLow] at hBit
      have hLt : i - 32 < 32 := by omega
      have hLt' : i - 32 < 64 := by omega
      have hNew := h (i - 32) hLt'
      rw [BitVec.getLsbD_setWidth, BitVec.getLsbD_setWidth,
        BitVec.getLsbD_ushiftRight,
        Nat.add_sub_cancel' (by omega)] at hNew
      simp only [hLt, hLt', hBit, decide_true, Bool.and_true,
        forall_const] at hNew
      exact hNew

end RiscvEm

------------------------------------------------------------
-- What Serving The Queue Changes
------------------------------------------------------------

namespace RiscvEm

variable {cfg : PlicConfig}
variable {b b' b'' : VirtioBlk cfg}
variable {w w' : BlkWorld cfg}

/- Only the image, the interrupt status and the queue differ. -/
def OnlyServed
    (b b' : VirtioBlk cfg) : Prop :=
  b' = { b with
    disk := b'.disk
    interruptStatus := b'.interruptStatus
    queue0 := b'.queue0 }

/- A device is as it was when nothing was served. -/
theorem OnlyServed.refl
    (b : VirtioBlk cfg) :
    OnlyServed b b :=
  rfl

/- Queues served one after the other. -/
theorem OnlyServed.trans
    (h : OnlyServed b b')
    (h' : OnlyServed b' b'') :
    OnlyServed b b'' := by
  unfold OnlyServed at h h' ⊢
  rw [h', h]

/- Performing a request touches the disk only. -/
theorem performed_onlyServed
    {req : VirtioBlkReq}
    {datas : List VirtqDesc}
    {ok : Bool}
    (h : Performed w req datas ok w') :
    OnlyServed w.blk w'.blk := by
  cases h with
  | readRefused _ _ => rfl
  | read _ _ _ => rfl
  | writeRefused _ _ _ => rfl
  | written _ _ _ _ => rfl
  | unsupported _ _ => rfl

/- Completing it touches the queue and the interrupt. -/
theorem complete_onlyServed
    {head : BitVec 16}
    (h : w.complete head = .ok w') :
    OnlyServed w.blk w'.blk := by
  rcases bind_eq_ok.mp h with ⟨m₁, -, h⟩
  rcases bind_eq_ok.mp h with ⟨m₂, -, h⟩
  rcases bind_eq_ok.mp h with ⟨m₃, -, h⟩
  rcases bind_eq_ok.mp h with ⟨plic, -, hEq⟩
  cases hEq
  rfl

/- Serving an entry changes what serving may change only. -/
theorem processEntry_onlyServed
    (h : w.processEntry = .ok w') :
    OnlyServed w.blk w'.blk := by
  rcases processEntry_request h with
    ⟨r, ok, hDone⟩ | ⟨head, hDone⟩ | ⟨head, rfl⟩
  · rcases hDone.steps with ⟨w₁, m, hPerformed, -, hComplete⟩
    exact (performed_onlyServed hPerformed).trans
      (complete_onlyServed (w := w₁.setMem m) hComplete)
  · exact complete_onlyServed (w := w.log (.consumed head))
      hDone
  · rfl

/- The queue is served, or a register is written. -/
theorem exec_cases
    {op : BlkOp cfg}
    (h : op.exec w = .ok w') :
    (OnlyServed w.blk w'.blk ∧ ∀ addr val,
      op = .write addr val →
        addr - VIRTIO_BLK_START = VIRT_REG_QUEUENOTIFY) ∨
      ∃ addr val, op = .write addr val ∧
        w' = { w with
          blk := w.blk.writeReg (addr - VIRTIO_BLK_START)
            val } := by
  cases op with
  | guest mem plic =>
      cases h
      exact Or.inl ⟨rfl, fun _ _ hOp => nomatch hOp⟩
  | write addr val =>
      by_cases hOff :
          addr - VIRTIO_BLK_START = VIRT_REG_QUEUENOTIFY
      · refine Or.inl ⟨?_, ?_⟩
        case refine_2 =>
          intro _ _ hOp
          cases hOp
          exact hOff
        have hQueue : w.processQueue (val.setWidth 32) =
            .ok w' := by
          change w.write addr val = .ok w' at h
          unfold BlkWorld.write at h
          dsimp only at h
          rw [if_pos hOff] at h
          exact h
        unfold BlkWorld.processQueue at hQueue
        split at hQueue
        · cases hQueue
          rfl
        · split at hQueue
          · cases hQueue
            rfl
          · rcases bind_eq_ok.mp hQueue with ⟨v, -, hLoop⟩
            refine processLoop_keeps
              (p := fun _ => True) (I := OnlyServed w.blk)
              ?_ (alongLoop_of_forall fun _ => trivial) hLoop
              rfl
            intro w₁ w₂ hBefore _ hEntry
            exact hBefore.trans (processEntry_onlyServed hEntry)
      · refine Or.inr ⟨addr, val, rfl, ?_⟩
        change w.write addr val = .ok w' at h
        unfold BlkWorld.write at h
        dsimp only at h
        rw [if_neg hOff] at h
        cases h
        rfl

end RiscvEm

------------------------------------------------------------
-- Registers
------------------------------------------------------------

namespace RiscvEm

variable {cfg : PlicConfig}
variable {b b' : VirtioBlk cfg}
variable {w w' : BlkWorld cfg}
variable {off val : BitVec 64}

/- What the constructor sets and nothing changes. -/
structure SameBuild
    (b b' : VirtioBlk cfg) : Prop where
  irqNum : b'.irqNum = b.irqNum
  deviceFeatures : b'.deviceFeatures = b.deviceFeatures
  configGeneration : b'.configGeneration = b.configGeneration
  capacitySectors : b'.capacitySectors = b.capacitySectors

/- Serving a queue does not change the build. -/
theorem OnlyServed.sameBuild
    (h : OnlyServed b b') :
    SameBuild b b' := by
  unfold OnlyServed at h
  rw [h]
  exact ⟨rfl, rfl, rfl, rfl⟩

/- Builds are kept in sequence. -/
theorem SameBuild.trans
    {b'' : VirtioBlk cfg}
    (h : SameBuild b b')
    (h' : SameBuild b' b'') :
    SameBuild b b'' :=
  ⟨h'.irqNum.trans h.irqNum,
    h'.deviceFeatures.trans h.deviceFeatures,
    h'.configGeneration.trans h.configGeneration,
    h'.capacitySectors.trans h.capacitySectors⟩

/- Queues are not a part of the build. -/
theorem sameBuild_modifyQueue
    (b : VirtioBlk cfg)
    (f : VirtQueueState → VirtQueueState) :
    SameBuild b (b.modifyQueue f) := by
  unfold VirtioBlk.modifyQueue
  split
  · exact ⟨rfl, rfl, rfl, rfl⟩
  · exact ⟨rfl, rfl, rfl, rfl⟩

/- Writing a register does not change the build. -/
theorem sameBuild_writeReg
    (b : VirtioBlk cfg)
    (off val : BitVec 64) :
    SameBuild b (b.writeReg off val) := by
  unfold VirtioBlk.writeReg
  repeat'
    apply iteInduction (motive := SameBuild b)
    all_goals intro _
  all_goals first
    | exact sameBuild_modifyQueue b _
    | exact ⟨rfl, rfl, rfl, rfl⟩

/- No operation changes the build. -/
theorem sameBuild_exec
    {op : BlkOp cfg}
    (h : op.exec w = .ok w') :
    SameBuild w.blk w'.blk := by
  rcases exec_cases h with ⟨hServed, -⟩ | ⟨addr, val, -, rfl⟩
  · exact hServed.sameBuild
  · exact sameBuild_writeReg _ _ _

/- Serving keeps the features. -/
theorem OnlyServed.featuresValid
    (h : OnlyServed b b')
    (hValid : FeaturesValid b) :
    FeaturesValid b' := by
  unfold OnlyServed at h
  rw [h]
  exact hValid

/- Features are checked when the status is written. -/
theorem featuresValid_orStatus
    (b : VirtioBlk cfg)
    (val : BitVec 64) :
    FeaturesValid (b.orStatus val) := by
  intro hOk
  change b.driverFeatures &&& ~~~b.deviceFeatures = 0
  by_contra hBad
  have hClear : ∀ s : BitVec 32,
      s &&& ~~~VirtioBlk.VIRT_STATUS_FEATURES_OK &&&
        VirtioBlk.VIRT_STATUS_FEATURES_OK = 0 := by
    intro s
    rw [BitVec.and_assoc, BitVec.and_comm (~~~_),
      BitVec.and_not_self]
    exact BitVec.and_zero
  unfold VirtioBlk.featuresOk VirtioBlk.orStatus at hOk
  dsimp only at hOk
  split at hOk
  case isTrue => exact hOk (hClear _)
  case isFalse hNot => exact hNot ⟨hOk, hBad⟩

/- Writes to the queue keep the accepted features valid. -/
theorem featuresValid_modifyQueue
    (h : FeaturesValid b)
    (f : VirtQueueState → VirtQueueState) :
    FeaturesValid (b.modifyQueue f) := by
  unfold VirtioBlk.modifyQueue
  split
  · exact h
  · exact h

/- Every register but the features themselves is harmless. -/
theorem featuresValid_writeReg
    (h : FeaturesValid b)
    (hOff : off ≠ VIRT_REG_DRIVERFEATURES) :
    FeaturesValid (b.writeReg off val) := by
  unfold VirtioBlk.writeReg
  repeat'
    apply iteInduction (motive := FeaturesValid)
    all_goals intro _
  all_goals first
    | contradiction
    | exact h
    | exact featuresValid_modifyQueue h _
    | exact featuresValid_orStatus b val
    | skip
  intro hOk
  exact absurd (BitVec.zero_and ..) hOk

/- The features are replaced by ones that are offered. -/
theorem featuresValid_features_iff
    (h : FeaturesValid b) :
    FeaturesValid (b.writeReg VIRT_REG_DRIVERFEATURES val) ↔
      (b.featuresOk → Offered b val) := by
  have hWrite : b.writeReg VIRT_REG_DRIVERFEATURES val =
      { b with
        driverFeatures :=
          if b.driverFeaturesSel = 0 then
            setLowWord b.driverFeatures val
          else
            setHighWord b.driverFeatures val } :=
    rfl
  rw [hWrite]
  unfold FeaturesValid Offered
  refine forall_congr' fun hOk => ?_
  have hOld := h hOk
  by_cases hSel : b.driverFeaturesSel = 0
  · dsimp only
    rw [if_pos hSel, if_pos hSel]
    exact setLowWord_subset_iff hOld
  · dsimp only
    rw [if_neg hSel, if_neg hSel]
    exact setHighWord_subset_iff hOld

/- An operation keeps features valid exactly if it may. -/
theorem FeaturesValid.exec_iff
    (h : FeaturesValid w.blk)
    {op : BlkOp cfg}
    (hExec : op.exec w = .ok w') :
    FeaturesValid w'.blk ↔ FeaturesKept w op := by
  rcases exec_cases hExec with
    ⟨hServed, hNotify⟩ | ⟨addr, val, rfl, rfl⟩
  · refine iff_of_true (hServed.featuresValid h) ?_
    cases op with
    | guest mem plic => trivial
    | write addr val =>
        rintro ⟨hOff, -⟩
        rw [hNotify addr val rfl] at hOff
        exact absurd hOff (by decide)
  · by_cases hOff :
        addr - VIRTIO_BLK_START = VIRT_REG_DRIVERFEATURES
    · dsimp only
      rw [hOff, featuresValid_features_iff h]
      constructor
      · rintro hOffered ⟨-, hOk⟩
        exact hOffered hOk
      · intro hKept hOk
        exact hKept ⟨hOff, hOk⟩
    · exact iff_of_true (featuresValid_writeReg h hOff)
        (fun hWrites => absurd hWrites.1 hOff)

end RiscvEm

------------------------------------------------------------
-- Resets
------------------------------------------------------------

namespace RiscvEm

variable {cfg : PlicConfig}
variable {b b₀ : VirtioBlk cfg}
variable {w w' : BlkWorld cfg}

/- A device that nothing was written to. -/
structure Untouched
    (b : VirtioBlk cfg) : Prop where
  deviceStatus : b.deviceStatus = 0
  interruptStatus : b.interruptStatus = 0
  queue0 : b.queue0 = .init
  unselected : Unselected b

/- A new device is untouched. -/
theorem init_untouched
    {irqNum : BitVec 32}
    {hNe : irqNum ≠ 0}
    {hLt : irqNum.toNat < cfg.maxSources}
    {disk : Option DiskImage} :
    Untouched (VirtioBlk.init irqNum hNe hLt disk) :=
  ⟨rfl, rfl, rfl, rfl, rfl, rfl, rfl⟩

/-
  Untouched devices of one build differ in their disk only.
-/
theorem Untouched.eq
    (h : Untouched b)
    (h₀ : Untouched b₀)
    (hBuild : SameBuild b₀ b) :
    b = { b₀ with disk := b.disk } := by
  rcases b with ⟨irqNum, hNe, hLt⟩
  rcases b₀ with ⟨irqNum₀, hNe₀, hLt₀⟩
  rcases h with ⟨hStatus, hInt, hQueue, hRest⟩
  rcases h₀ with ⟨hStatus₀, hInt₀, hQueue₀, hRest₀⟩
  rcases hRest with ⟨hDriver, hSel, hDriverSel, hQueueSel⟩
  rcases hRest₀ with ⟨hDriver₀, hSel₀, hDriverSel₀, hQueueSel₀⟩
  rcases hBuild with ⟨hIrq, hDevice, hConfig, hCapacity⟩
  dsimp only at *
  subst_vars
  rfl

/- An untouched device is like a new one of its build. -/
theorem Untouched.isFresh
    (h : Untouched w.blk)
    (h₀ : Untouched b₀)
    (hBuild : SameBuild b₀ w.blk) :
    IsFresh b₀ w := by
  have hEq := h.eq h₀ hBuild
  refine ⟨?_, ?_, ?_, ?_, ?_, ?_, ?_, hBuild.configGeneration,
    ?_⟩
  · exact h.deviceStatus.trans h₀.deviceStatus.symm
  · exact h.interruptStatus.trans h₀.interruptStatus.symm
  · exact h.unselected.driverFeatures.trans
      h₀.unselected.driverFeatures.symm
  · exact h.unselected.deviceFeaturesSel.trans
      h₀.unselected.deviceFeaturesSel.symm
  · exact h.unselected.driverFeaturesSel.trans
      h₀.unselected.driverFeaturesSel.symm
  · exact h.unselected.queueSel.trans
      h₀.unselected.queueSel.symm
  · exact h.queue0.trans h₀.queue0.symm
  · intro as
    rw [← hEq]

/- A reset makes the device new exactly if the rest is new. -/
theorem reset_isFresh_iff
    (h₀ : Untouched b₀)
    (hBuild : SameBuild b₀ w.blk)
    {op : BlkOp cfg}
    (hReset : ResetsDevice op)
    (hExec : op.exec w = .ok w') :
    IsFresh b₀ w' ↔ Unselected w.blk := by
  cases op with
  | guest mem plic => exact absurd hReset id
  | write addr val =>
      rcases hReset with ⟨hOff, rfl⟩
      change w.write addr 0 = .ok w' at hExec
      unfold BlkWorld.write at hExec
      dsimp only at hExec
      rw [hOff, if_neg (by decide)] at hExec
      cases hExec
      change IsFresh b₀ { w with blk := w.blk.reset } ↔ _
      constructor
      · intro h
        exact ⟨h.driverFeatures.trans
            h₀.unselected.driverFeatures,
          h.deviceFeaturesSel.trans
            h₀.unselected.deviceFeaturesSel,
          h.driverFeaturesSel.trans
            h₀.unselected.driverFeaturesSel,
          h.queueSel.trans h₀.unselected.queueSel⟩
      · intro h
        refine Untouched.isFresh ⟨rfl, rfl, rfl, ?_⟩ h₀ ?_
        · exact ⟨h.driverFeatures, h.deviceFeaturesSel,
            h.driverFeaturesSel, h.queueSel⟩
        · exact ⟨hBuild.irqNum, hBuild.deviceFeatures,
            hBuild.configGeneration, hBuild.capacitySectors⟩

/- No run changes the build. -/
theorem BlkRun.sameBuild
    {w₀ : BlkWorld cfg}
    {ts : List (BlkStep cfg)}
    (hRun : BlkRun w₀ ts w) :
    SameBuild w₀.blk w.blk ∧
      ∀ t ∈ ts, SameBuild w₀.blk t.before.blk ∧
        t.op.exec t.before = .ok t.after := by
  induction hRun with
  | refl =>
      refine ⟨⟨rfl, rfl, rfl, rfl⟩, ?_⟩
      intro t hMem
      cases hMem
  | step _ hExec ih =>
      rcases ih with ⟨ih, ihSteps⟩
      refine ⟨ih.trans (sameBuild_exec hExec), ?_⟩
      intro t hMem
      rcases List.mem_cons.mp hMem with rfl | hMem
      · exact ⟨ih, hExec⟩
      · exact ihSteps t hMem

/-
  Features stay valid exactly as long as every step keeps
  them.
-/
theorem BlkRun.featuresValid_iff
    {w₀ : BlkWorld cfg}
    {ts : List (BlkStep cfg)}
    (hRun : BlkRun w₀ ts w)
    (hStart : FeaturesValid w₀.blk) :
    ((∀ t ∈ ts, FeaturesValid t.after.blk) ↔
      ∀ t ∈ ts, FeaturesKept t.before t.op) ∧
      ((∀ t ∈ ts, FeaturesValid t.after.blk) →
        FeaturesValid w.blk) := by
  induction hRun with
  | refl =>
      refine ⟨⟨?_, ?_⟩, fun _ => hStart⟩
      · intro _ t hMem
        cases hMem
      · intro _ t hMem
        cases hMem
  | step _ hExec ih =>
      rcases ih with ⟨ih, ihLast⟩
      refine ⟨?_, fun hAll => hAll _ (List.mem_cons_self ..)⟩
      simp only [List.forall_mem_cons]
      constructor
      · rintro ⟨hHead, hTail⟩
        have hLast := ihLast hTail
        exact ⟨(hLast.exec_iff hExec).mp hHead, ih.mp hTail⟩
      · rintro ⟨hHead, hTail⟩
        have hOld := ih.mpr hTail
        have hLast := ihLast hOld
        exact ⟨(hLast.exec_iff hExec).mpr hHead, hOld⟩

/-
  From the construction on, every reset makes the device like
  new and accepted features are always offered ones, exactly
  if every operation finds what it needs for that.
-/
theorem virtio_reset_iff
    (irqNum : BitVec 32)
    (hNe : irqNum ≠ 0)
    (hLt : irqNum.toNat < cfg.maxSources)
    (disk : Option DiskImage)
    (w₀ w : BlkWorld cfg)
    (ts : List (BlkStep cfg))
    (hInit : w₀.blk = .init irqNum hNe hLt disk)
    (hRun : BlkRun w₀ ts w) :
    (∀ t ∈ ts, (ResetsDevice t.op → IsFresh w₀.blk t.after) ∧
        FeaturesValid t.after.blk) ↔
      ∀ t ∈ ts, NegotiationOk t.before t.op := by
  have hNew : Untouched w₀.blk := by
    rw [hInit]
    exact init_untouched
  have hStart : FeaturesValid w₀.blk := by
    intro hOk
    unfold VirtioBlk.featuresOk at hOk
    rw [hNew.deviceStatus] at hOk
    exact absurd (BitVec.zero_and ..) hOk
  have hSteps := hRun.sameBuild.2
  have hValid := (hRun.featuresValid_iff hStart).1
  constructor
  · intro h t hMem
    rcases hSteps t hMem with ⟨hBuild, hExec⟩
    refine ⟨?_, ?_⟩
    · intro hReset
      exact (reset_isFresh_iff hNew hBuild hReset hExec).mp
        ((h t hMem).1 hReset)
    · exact hValid.mp (fun t hMem => (h t hMem).2) t hMem
  · intro h t hMem
    rcases hSteps t hMem with ⟨hBuild, hExec⟩
    refine ⟨?_, ?_⟩
    · intro hReset
      exact (reset_isFresh_iff hNew hBuild hReset hExec).mpr
        ((h t hMem).reset hReset)
    · exact hValid.mpr (fun t hMem => (h t hMem).features) t
        hMem

/- A write of a register of the device. -/
def setReg
    (off val : BitVec 64) : BlkOp PlicConfig.twoHarts :=
  .write (VIRTIO_BLK_START + off) val

/- Features are accepted, and the device is reset. -/
theorem virtio_reset_of_status :
    ∃ ts w, BlkRun (ringStart 1) ts w ∧
      ts.map BlkStep.op =
        [setReg VIRT_REG_STATUS 0, setReg VIRT_REG_STATUS 8] ∧
      ∀ t ∈ ts,
        (ResetsDevice t.op →
          IsFresh (ringStart 1).blk t.after) ∧
        FeaturesValid t.after.blk := by
  refine ⟨_, _, .step (.step .refl rfl) rfl, rfl, ?_⟩
  refine (virtio_reset_iff 1 (by decide) (by decide) none
    (ringStart 1) _ _ rfl (.step (.step .refl rfl) rfl)).mpr ?_
  have hFeatures : ∀ (w : BlkWorld PlicConfig.twoHarts) val,
      FeaturesKept w (setReg VIRT_REG_STATUS val) :=
    fun _ _ hWrites => absurd hWrites.1 (by decide)
  intro t hMem
  rcases List.mem_cons.mp hMem with rfl | hMem
  · exact ⟨fun _ => ⟨rfl, rfl, rfl, rfl⟩, hFeatures _ _⟩
  · rw [List.mem_singleton.mp hMem]
    exact ⟨fun _ => ⟨rfl, rfl, rfl, rfl⟩, hFeatures _ _⟩

/-
  A selected queue stays selected over a reset, and features
  that the device does not offer are taken after the accepted
  ones.
-/
theorem virtio_reset_keeps_selector :
    (∃ ts w, BlkRun (ringStart 1) ts w ∧
      ts.map BlkStep.op =
        [setReg VIRT_REG_STATUS 0,
          setReg VIRT_REG_QUEUESEL 1] ∧
      w.blk.read (VIRTIO_BLK_START + VIRT_REG_QUEUESEL) = 1 ∧
      (ringStart 1).blk.read
        (VIRTIO_BLK_START + VIRT_REG_QUEUESEL) = 0 ∧
      ¬ IsFresh (ringStart 1).blk w) ∧
    (∃ ts w, BlkRun (ringStart 1) ts w ∧
      ts.map BlkStep.op =
        [setReg VIRT_REG_DRIVERFEATURES 1,
          setReg VIRT_REG_STATUS 8] ∧
      w.blk.featuresOk ∧ ¬ FeaturesValid w.blk) := by
  refine ⟨⟨_, _, .step (.step .refl rfl) rfl, rfl, rfl, rfl,
    ?_⟩, ⟨_, _, .step (.step .refl rfl) rfl, rfl, ?_, ?_⟩⟩
  · intro h
    exact absurd h.queueSel (by decide)
  · change (8#32 &&& 8#32) ≠ 0
    decide
  · intro h
    have hSubset : (1#64 &&& ~~~(VIRTIO_F_VERSION_1)) = 0 :=
      h (by change (8#32 &&& 8#32) ≠ 0; decide)
    exact absurd hSubset (by decide)

end RiscvEm
