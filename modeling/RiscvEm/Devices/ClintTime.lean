import RiscvEm.Devices.ClintRegisters

/-
  How long the timer of the core-local interruptor is exact.

  The nanoseconds of the host are multiplied by the frequency
  in 64 bits before they are divided.

  Key definitions include:
    * `ticks`
    * `TimeExact`

  Key theorems include `clint_time_exact_iff`.
-/

------------------------------------------------------------
-- Readings
------------------------------------------------------------

namespace RiscvEm

/- The ticks of a frequency in some nanoseconds. -/
def ticks
    (freq ns : BitVec 64) : Nat :=
  ns.toNat * freq.toNat / 10 ^ 9

variable {freq ns ns₁ ns₂ last t : BitVec 64}
variable {timer : Timer}

theorem ticks_mono
    (freq : BitVec 64)
    (hLe : ns₁ ≤ ns₂) :
    ticks freq ns₁ ≤ ticks freq ns₂ :=
  Nat.div_le_div_right
    (Nat.mul_le_mul_right _ (BitVec.le_def.mp hLe))

theorem toNat_timerClocksource
    (freq ns : BitVec 64) :
    (timerClocksource freq ns).toNat =
      ns.toNat * freq.toNat % 2 ^ 64 / 10 ^ 9 := by
  unfold timerClocksource
  rw [BitVec.toNat_udiv, BitVec.toNat_mul]
  rfl

/- The conversion loses ticks exactly when it overflows. -/
theorem toNat_timerClocksource_eq_iff :
    (timerClocksource freq ns).toNat = ticks freq ns ↔
      ns.toNat * freq.toNat < 2 ^ 64 := by
  rw [toNat_timerClocksource]
  unfold ticks
  generalize ns.toNat * freq.toNat = product
  constructor
  · intro hEq
    omega
  · intro hLt
    rw [Nat.mod_eq_of_lt hLt]

/- A reading after the timer was set. -/
theorem toNat_get_set
    (timer : Timer)
    (ns₀ ns t : BitVec 64) :
    ((timer.set ns₀ t).get ns).toNat =
      (t.toNat + (timerClocksource timer.freq ns).toNat +
        (2 ^ 64 - (timerClocksource timer.freq ns₀).toNat)) %
        2 ^ 64 := by
  unfold Timer.get Timer.set
  dsimp only
  generalize timerClocksource timer.freq ns = now
  generalize timerClocksource timer.freq ns₀ = start
  bv_omega

/- Before the overflow, a reading is what has elapsed. -/
theorem toNat_get_set_eq
    {ns₀ : BitVec 64}
    (hMul : last.toNat * timer.freq.toNat < 2 ^ 64)
    (hFit : t.toNat + ticks timer.freq last < 2 ^ 64)
    (hStart : ns₀ ≤ ns)
    (hLast : ns ≤ last) :
    ((timer.set ns₀ t).get ns).toNat + ticks timer.freq ns₀ =
      t.toNat + ticks timer.freq ns := by
  have hExact : ∀ n : BitVec 64, n ≤ last →
      (timerClocksource timer.freq n).toNat =
        ticks timer.freq n := by
    intro n hn
    rw [toNat_timerClocksource_eq_iff]
    exact Nat.lt_of_le_of_lt
      (Nat.mul_le_mul_right _ (BitVec.le_def.mp hn)) hMul
  have hMono := ticks_mono timer.freq hStart
  have hMono' := ticks_mono timer.freq hLast
  have hStart' : ns₀ ≤ last := BitVec.le_trans hStart hLast
  rw [toNat_get_set, hExact ns hLast, hExact ns₀ hStart']
  omega

end RiscvEm

------------------------------------------------------------
-- Registers That Stay
------------------------------------------------------------

namespace RiscvEm

variable {cfg : ClintConfig}
variable {w w' w₁ : DevWorld (Clint cfg)}
variable {ns ns' : BitVec 64}
variable {op : ClintOp}

namespace ClintOp

/- A write to `mtime`. -/
def WritesTime : ClintOp → Prop
  | .write addr _ _ =>
      (addr - CLINT_START).toNat = 0xBFF8
  | _ => False

/- A write to the compare register of a hart. -/
def WritesCompare
    (hart : Nat) : ClintOp → Prop
  | .write addr _ _ =>
      0x4000 ≤ (addr - CLINT_START).toNat ∧
        (addr - CLINT_START).toNat < 0xBFF8 ∧
        ((addr - CLINT_START).toNat - 0x4000) / 8 = hart
  | _ => False

/- A write to the compare CSR of a hart. -/
def WritesStimecmp
    (hart : Nat) : ClintOp → Prop
  | .csrWrite hart' csr _ => hart' = hart ∧ csr = CSR_STIMECMP
  | _ => False

end ClintOp

@[simp] theorem HartPins.updateMip_stimecmp
    (p : HartPins)
    (now mtimecmp : BitVec 64)
    (msip : BitVec 32) :
    (p.updateMip now msip mtimecmp).stimecmp = p.stimecmp :=
  rfl

namespace Clint

/- The loop of `update_mip` writes no compare CSR. -/
theorem updateMip_stimecmp
    (ns : BitVec 64)
    (w : DevWorld (Clint cfg))
    (hart : Nat) :
    ((updateMip ns w).pins hart).stimecmp =
      (w.pins hart).stimecmp := by
  unfold updateMip
  generalize w.dev.mtime.get ns = now
  induction List.finRange cfg.numHarts generalizing w with
  | nil => rfl
  | cons first harts ih =>
      rw [List.foldl_cons, ih]
      unfold updateHart
      dsimp only
      by_cases hEq : hart = first.val
      · subst hEq
        rw [Function.update_self]
        rfl
      · rw [Function.update_of_ne hEq]

/- The compare CSRs after an update with other registers. -/
theorem updateMip_regs
    (ns : BitVec 64)
    (dev : Clint cfg)
    (w : DevWorld (Clint cfg)) :
    (updateMip ns { w with dev := dev }).dev = dev ∧
      ∀ hart,
        ((updateMip ns { w with dev := dev }).pins hart).stimecmp
          = (w.pins hart).stimecmp :=
  ⟨updateMip_dev ns _, updateMip_stimecmp ns _⟩

theorem writeMswi_regs
    {offset : Nat}
    {value : BitVec 64}
    (h : writeMswi ns offset value w = .ok w') :
    w'.dev.mtime = w.dev.mtime ∧
      w'.dev.mtimecmp = w.dev.mtimecmp ∧
      ∀ hart, (w'.pins hart).stimecmp =
        (w.pins hart).stimecmp := by
  unfold writeMswi at h
  split at h
  case isTrue =>
    cases h
    rcases updateMip_regs ns { w.dev with
      msip := w.dev.msip.setIfInBounds (offset / 4)
        (value.setWidth 32) } w with ⟨hDev, hPins⟩
    rw [hDev]
    exact ⟨rfl, rfl, hPins⟩
  case isFalse => cases h

theorem writeMtimer_regs
    {offset : Nat}
    {value : BitVec 64}
    (h : writeMtimer ns ns' offset value w = .ok w') :
    (offset ≠ 0x7FF8 → w'.dev.mtime = w.dev.mtime) ∧
      (∀ hart : Fin cfg.numHarts,
        ¬ (offset ≠ 0x7FF8 ∧ offset / 8 = hart.val) →
          w'.dev.mtimecmp.get hart =
            w.dev.mtimecmp.get hart) ∧
      ∀ hart, (w'.pins hart).stimecmp =
        (w.pins hart).stimecmp := by
  unfold writeMtimer at h
  split at h
  case isTrue hTime =>
    cases h
    rcases updateMip_regs ns' { w.dev with
      mtime := w.dev.mtime.set ns value } w with ⟨hDev, hPins⟩
    rw [hDev]
    exact ⟨fun hNe => absurd hTime hNe, fun _ _ => rfl, hPins⟩
  case isFalse hTime =>
    split at h
    case isTrue hHart =>
      cases h
      rcases updateMip_regs ns' { w.dev with
        mtimecmp :=
          w.dev.mtimecmp.setIfInBounds (offset / 8) value } w
        with ⟨hDev, hPins⟩
      rw [hDev]
      refine ⟨fun _ => rfl, fun hart hNot => ?_, hPins⟩
      exact Vector.getElem_setIfInBounds_ne hart.isLt
        (fun hEq => hNot ⟨hTime, hEq⟩)
    case isFalse => cases h

/- What a write to the device changes of its registers. -/
theorem write_regs
    {addr value : BitVec 64}
    {size : MemorySize}
    (h : write ns ns' addr size value w = .ok w') :
    (¬ ClintOp.WritesTime (.write addr size value) →
      w'.dev.mtime = w.dev.mtime) ∧
    (∀ hart : Fin cfg.numHarts,
      ¬ ClintOp.WritesCompare hart (.write addr size value) →
        w'.dev.mtimecmp.get hart = w.dev.mtimecmp.get hart) ∧
    ∀ hart, (w'.pins hart).stimecmp =
      (w.pins hart).stimecmp := by
  have hMswiSize : CLINT_MSWI_SIZE = 0x4000 := rfl
  have hMtimerSize : CLINT_MTIMER_SIZE = 0x8000 := rfl
  unfold write at h
  dsimp only at h
  unfold ClintOp.WritesTime ClintOp.WritesCompare
  dsimp only
  split at h
  case isTrue hMswi =>
    rcases writeMswi_regs h with ⟨hTime, hCmp, hPins⟩
    refine ⟨fun _ => hTime, fun hart _ => ?_, hPins⟩
    rw [hCmp]
  case isFalse hMswi =>
    split at h
    case isTrue hMtimer =>
      rcases writeMtimer_regs h with ⟨hTime, hCmp, hPins⟩
      refine ⟨fun hNot => hTime ?_, fun hart hNot => ?_, hPins⟩
      · omega
      · refine hCmp hart ?_
        rintro ⟨hNe, hEq⟩
        have hHarts := cfg.numHarts_lt
        rw [hMswiSize] at hEq
        exact hNot ⟨by omega, by omega, hEq⟩
    case isFalse =>
      cases h
      exact ⟨fun _ => rfl, fun _ _ => rfl, fun _ => rfl⟩

end Clint

/- What an operation changes of the registers. -/
theorem ClintOp.exec_regs
    (h : op.exec ns ns' w = .ok w') :
    (¬ op.WritesTime → w'.dev.mtime = w.dev.mtime) ∧
    (∀ hart : Fin cfg.numHarts, ¬ op.WritesCompare hart →
      w'.dev.mtimecmp.get hart = w.dev.mtimecmp.get hart) ∧
    ∀ hart, ¬ op.WritesStimecmp hart →
      (w'.pins hart).stimecmp = (w.pins hart).stimecmp := by
  cases op with
  | read addr size =>
      change (Clint.read ns addr size w).map _ = _ at h
      cases hRead : Clint.read ns addr size w with
      | error e =>
          rw [hRead] at h
          cases h
      | ok val =>
          rw [hRead] at h
          cases h
          exact ⟨fun _ => rfl, fun _ _ => rfl, fun _ _ => rfl⟩
  | write addr size value =>
      rcases Clint.write_regs h with ⟨hTime, hCmp, hPins⟩
      exact ⟨hTime, hCmp, fun hart _ => hPins hart⟩
  | updateMip =>
      cases h
      rw [Clint.updateMip_dev]
      exact ⟨fun _ => rfl, fun _ _ => rfl,
        fun hart _ => Clint.updateMip_stimecmp ns' w hart⟩
  | csrWrite hart csr val =>
      cases h
      refine ⟨fun _ => rfl, fun _ _ => rfl, ?_⟩
      intro hart' hNot
      by_cases hEq : hart' = hart
      · subst hEq
        have hCsr : csr ≠ CSR_STIMECMP :=
          fun h => hNot ⟨rfl, h⟩
        dsimp only
        rw [Function.update_self]
        unfold HartPins.csrWrite
        repeat' split
        all_goals rfl
      · dsimp only
        rw [Function.update_of_ne hEq]

theorem ClintRun.regs
    {ops : List ClintOp}
    (hRun : ClintRun w ops w') :
    ((∀ op ∈ ops, ¬ op.WritesTime) →
      w'.dev.mtime = w.dev.mtime) ∧
    (∀ hart : Fin cfg.numHarts,
      (∀ op ∈ ops, ¬ op.WritesCompare hart) →
        w'.dev.mtimecmp.get hart = w.dev.mtimecmp.get hart) ∧
    ∀ hart, (∀ op ∈ ops, ¬ op.WritesStimecmp hart) →
      (w'.pins hart).stimecmp = (w.pins hart).stimecmp := by
  induction hRun with
  | refl => exact ⟨fun _ => rfl, fun _ _ => rfl, fun _ _ => rfl⟩
  | step _ hExec ih =>
      rcases ClintOp.exec_regs hExec with ⟨hTime, hCmp, hPins⟩
      rcases ih with ⟨ihTime, ihCmp, ihPins⟩
      refine ⟨?_, ?_, ?_⟩
      · intro hNot
        rcases List.forall_mem_cons.mp hNot with ⟨hOp, hOps⟩
        exact (hTime hOp).trans (ihTime hOps)
      · intro hart hNot
        rcases List.forall_mem_cons.mp hNot with ⟨hOp, hOps⟩
        exact (hCmp hart hOp).trans (ihCmp hart hOps)
      · intro hart hNot
        rcases List.forall_mem_cons.mp hNot with ⟨hOp, hOps⟩
        exact (hPins hart hOp).trans (ihPins hart hOps)

end RiscvEm

------------------------------------------------------------
-- Exact Time
------------------------------------------------------------

namespace RiscvEm

/-
  Readings of a timer of some frequency that was set to a
  time, as long as the host clock is at most at `last`: they
  start at the time and advance by what has elapsed, so that
  they never go back, and no pending bit that they raised
  falls without a write to `mtime` or its compare register.
-/
structure TimeExact
    (freq t last : BitVec 64) : Prop where
  starts : ∀ (timer : Timer) (ns₀ : BitVec 64),
    timer.freq = freq → (timer.set ns₀ t).get ns₀ = t
  elapsed : ∀ (timer : Timer) (ns₀ ns₁ ns₂ : BitVec 64),
    timer.freq = freq → ns₀ ≤ ns₁ → ns₁ ≤ ns₂ → ns₂ ≤ last →
      ((timer.set ns₀ t).get ns₂).toNat + ticks freq ns₁ =
        ((timer.set ns₀ t).get ns₁).toNat + ticks freq ns₂
  monotone : ∀ (timer : Timer) (ns₀ ns₁ ns₂ : BitVec 64),
    timer.freq = freq → ns₀ ≤ ns₁ → ns₁ ≤ ns₂ → ns₂ ≤ last →
      (timer.set ns₀ t).get ns₁ ≤ (timer.set ns₀ t).get ns₂
  pending : ∀ (cfg : ClintConfig)
    (w w' : DevWorld (Clint cfg)) (ops : List ClintOp)
    (timer : Timer) (ns₀ ns₁ ns₂ : BitVec 64)
    (hart : Fin cfg.numHarts),
    timer.freq = freq → ns₀ ≤ ns₁ → ns₁ ≤ ns₂ → ns₂ ≤ last →
    w.dev.mtime = timer.set ns₀ t →
    ClintRun (Clint.updateMip ns₁ w) ops w' →
    (∀ op ∈ ops, ¬ op.WritesTime) →
      ((∀ op ∈ ops, ¬ op.WritesCompare hart) →
        ((Clint.updateMip ns₁ w).pins hart.val).MTIP = true →
          ((Clint.updateMip ns₂ w').pins hart.val).MTIP =
            true) ∧
      ((∀ op ∈ ops, ¬ op.WritesStimecmp hart) →
        ((Clint.updateMip ns₁ w).pins hart.val).STIP = true →
          ((Clint.updateMip ns₂ w').pins hart.val).STIP =
            true)

variable {freq t last : BitVec 64}

/- Readings that never go back let no pending bit fall. -/
theorem pending_of_monotone
    {cfg : ClintConfig}
    {w w' : DevWorld (Clint cfg)}
    {ops : List ClintOp}
    {ns₁ ns₂ : BitVec 64}
    {hart : Fin cfg.numHarts}
    (hMono : w.dev.mtime.get ns₁ ≤ w.dev.mtime.get ns₂)
    (hRun : ClintRun (Clint.updateMip ns₁ w) ops w')
    (hTime : ∀ op ∈ ops, ¬ op.WritesTime) :
    ((∀ op ∈ ops, ¬ op.WritesCompare hart) →
      ((Clint.updateMip ns₁ w).pins hart.val).MTIP = true →
        ((Clint.updateMip ns₂ w').pins hart.val).MTIP =
          true) ∧
    ((∀ op ∈ ops, ¬ op.WritesStimecmp hart) →
      ((Clint.updateMip ns₁ w).pins hart.val).STIP = true →
        ((Clint.updateMip ns₂ w').pins hart.val).STIP =
          true) := by
  rcases hRun.regs with ⟨hRunTime, hRunCmp, hRunPins⟩
  have hSame := hRunTime hTime
  rw [Clint.updateMip_dev] at hSame
  rw [Clint.updateMip_pins, Clint.updateMip_pins, hSame]
  constructor
  · intro hCmp
    have hCmpSame := hRunCmp hart hCmp
    rw [Clint.updateMip_dev] at hCmpSame
    rw [HartPins.updateMip_MTIP, HartPins.updateMip_MTIP,
      hCmpSame, decide_eq_true_iff, decide_eq_true_iff]
    exact fun hLe => BitVec.le_trans hLe hMono
  · intro hCmp
    have hCmpSame := hRunPins hart hCmp
    rw [Clint.updateMip_stimecmp] at hCmpSame
    rw [HartPins.updateMip_STIP, HartPins.updateMip_STIP,
      hCmpSame, Bool.and_eq_true, Bool.and_eq_true,
      decide_eq_true_iff, decide_eq_true_iff]
    rintro ⟨hLe, hSet⟩
    exact ⟨BitVec.le_trans hLe hMono, hSet⟩

/- The timer is exact as long as nothing overflows. -/
theorem timeExact_of_lt
    (hMul : last.toNat * freq.toNat < 2 ^ 64)
    (hFit : t.toNat + ticks freq last < 2 ^ 64) :
    TimeExact freq t last := by
  have hElapsed : ∀ (timer : Timer) (ns₀ ns₁ ns₂ : BitVec 64),
      timer.freq = freq → ns₀ ≤ ns₁ → ns₁ ≤ ns₂ →
      ns₂ ≤ last →
        ((timer.set ns₀ t).get ns₂).toNat + ticks freq ns₁ =
          ((timer.set ns₀ t).get ns₁).toNat +
            ticks freq ns₂ := by
    rintro timer ns₀ ns₁ ns₂ rfl hStart hLe hLast
    have hFirst := toNat_get_set_eq hMul hFit hStart
      (BitVec.le_trans hLe hLast)
    have hSecond := toNat_get_set_eq hMul hFit
      (BitVec.le_trans hStart hLe) hLast
    omega
  have hMono : ∀ (timer : Timer) (ns₀ ns₁ ns₂ : BitVec 64),
      timer.freq = freq → ns₀ ≤ ns₁ → ns₁ ≤ ns₂ →
      ns₂ ≤ last →
        (timer.set ns₀ t).get ns₁ ≤
          (timer.set ns₀ t).get ns₂ := by
    intro timer ns₀ ns₁ ns₂ hFreq hStart hLe hLast
    have hEq := hElapsed timer ns₀ ns₁ ns₂ hFreq hStart hLe
      hLast
    have hTicks := ticks_mono freq hLe
    rw [BitVec.le_def]
    omega
  refine ⟨fun timer ns₀ _ => timer.get_set_self ns₀ t,
    hElapsed, hMono, ?_⟩
  intro cfg w w' ops timer ns₀ ns₁ ns₂ hart hFreq hStart hLe
    hLast hTimer hRun hTime
  refine pending_of_monotone ?_ hRun hTime
  rw [hTimer]
  exact hMono timer ns₀ ns₁ ns₂ hFreq hStart hLe hLast

/-
  The time of a guest is exact up to a reading of the host
  clock exactly when the product of the reading and of the
  frequency fits 64 bits, and so does the time it stands for.
-/
theorem clint_time_exact_iff
    (freq t last : BitVec 64) :
    TimeExact freq t last ↔
      last.toNat * freq.toNat < 2 ^ 64 ∧
        t.toNat + ticks freq last < 2 ^ 64 := by
  constructor
  · intro h
    have hZero : ∀ ns : BitVec 64, (0 : BitVec 64) ≤ ns :=
      fun ns => BitVec.le_def.mpr (Nat.zero_le _)
    have hEq := h.elapsed ⟨0, freq⟩ 0 0 last rfl (hZero _)
      (hZero _) (BitVec.le_refl _)
    rw [Timer.get_set_self] at hEq
    have hTicks : ticks freq 0 = 0 := by
      unfold ticks
      simp
    have hStart : (timerClocksource freq 0).toNat = 0 := by
      rw [toNat_timerClocksource]
      simp
    have hGet := toNat_get_set ⟨0, freq⟩ 0 last t
    have hLt := ((Timer.set ⟨0, freq⟩ 0 t).get last).isLt
    dsimp only at hGet
    rw [hStart, toNat_timerClocksource] at hGet
    unfold ticks at hEq hTicks ⊢
    rw [hTicks] at hEq
    generalize last.toNat * freq.toNat = product at *
    refine ⟨?_, by omega⟩
    omega
  · rintro ⟨hMul, hFit⟩
    exact timeExact_of_lt hMul hFit

/-
  A little more than an hour after the host was started, the
  time of a guest that is started with it falls back, and
  with it a pending timer interrupt.
-/
theorem clint_time_falls :
    ∃ ns₁ ns₂ : BitVec 64, ns₁ ≤ ns₂ ∧
      ns₂.toNat < 2 ^ 63 ∧
      (Timer.init timebase 0).get ns₂ <
        (Timer.init timebase 0).get ns₁ ∧
      ∃ w : DevWorld (Clint ClintConfig.oneHart),
        w.dev.mtime = Timer.init timebase 0 ∧
        ((Clint.updateMip ns₁ w).pins 0).MTIP = true ∧
        ((Clint.updateMip ns₂
          (Clint.updateMip ns₁ w)).pins 0).MTIP = false := by
  refine ⟨3689348814741, 3689348814742, by decide, by decide,
    by decide, ?_⟩
  exact ⟨⟨⟨#v[0], #v[1000], Timer.init timebase 0⟩,
    fun _ => ⟨0, 0, 0⟩⟩, rfl, by decide +kernel,
    by decide +kernel⟩

end RiscvEm
