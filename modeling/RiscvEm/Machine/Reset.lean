import RiscvEm.Devices.PlicRuns
import RiscvEm.Hart.Machine
import RiscvEm.Machine.Loader

/-
  The reset of a machine: its harts are made again, memory is
  cleared and loaded again.

  A new hart is built in storage that holds anything; the
  constructor and `Hart::init` assign a part of it. Devices
  are not made again.

  Key definitions include:
    * `Hart.new`
    * `Machine.rebuild`
    * `SameReset`
    * `SameStorage`

  Key theorems include `reset_forgets_iff`.
-/

------------------------------------------------------------
-- Harts In Storage
------------------------------------------------------------

namespace RiscvEm

/-
  The constructor in storage that holds `storage`. It makes
  `hctx` anew; the other members it assigns have an
  initialiser.
-/
def Hart.new
    (id : BitVec 8)
    (storage : Hart) : Hart :=
  { storage with
    id := id
    WFI := false
    lastJitPcExit := 0
    exitPc := 0 }

/- What the new harts find in their storage. -/
structure Storage where
  hart : Nat → Hart
  pins : Nat → HartPins

/- What a machine is made of, and does not change. -/
structure BootConfig where
  memorySize : BitVec 64
  hartsCount : BitVec 8
  entryPc : BitVec 64
  files : BootFiles

def BootConfig.newHart
    (cfg : BootConfig)
    (i : Nat)
    (storage : Hart) : Hart :=
  (Hart.new (BitVec.ofNat 8 i) storage).init
    (dtbPath cfg.memorySize) cfg.entryPc

def BootConfig.newCore
    (cfg : BootConfig)
    (storage : Storage)
    (i : Nat) : HartCore :=
  { hart := cfg.newHart i (storage.hart i)
    jctx := JitContext.init cfg.memorySize }

/- `hctx.ram = mmap->ram_direct->ptr(0x80000000)`. -/
def MemoryMap.ramPtr
    (m : MemoryMap) : Except HostFault Nat :=
  match m.ramRegion with
  | none => .error .outOfBounds
  | some r => r.ptr 0x80000000

/-
  The branch of `work` for `Resetting`; `reset` does the same
  if the machine is off. The decoder and the devices stay.
-/
def Machine.rebuild
    {σ : Type}
    (m : Machine σ)
    (cfg : BootConfig)
    (storage : Storage) : Except HostFault (Machine σ) := do
  let mem ← m.mem.bootMemory cfg.files cfg.memorySize
  let _ ← mem.ramPtr
  .ok { m with
    harts := (List.range cfg.hartsCount.toNat).map
      (cfg.newCore storage)
    mem := mem
    world := ⟨m.world.dev, storage.pins⟩ }

end RiscvEm

------------------------------------------------------------
-- What A Reset Should Determine
------------------------------------------------------------

namespace RiscvEm

variable {σ ρ : Type}

/- The states of two harts that a reset should make equal. -/
structure SameHart
    (s₁ s₂ : State σ) : Prop where
  gpr : ∀ r, r ≠ 0 → s₁.gpr r = s₂.gpr r
  csr : ∀ n, n < 4096 → s₁.csr n = s₂.csr n
  status : s₁.hart.status = s₂.hart.status
  ie : s₁.hart.ie = s₂.hart.ie
  ip : s₁.pins.ip = s₂.pins.ip
  mode : s₁.hart.mode = s₂.hart.mode
  pc : s₁.hart.pc = s₂.hart.pc
  fcsr : s₁.hart.fcsr = s₂.hart.fcsr
  stimecmp : s₁.pins.stimecmp = s₂.pins.stimecmp
  reservation : s₁.hart.reservation = s₂.hart.reservation
  WFI : s₁.hart.WFI = s₂.hart.WFI

/- RAM, the registers of the devices, and every hart. -/
structure SameReset
    (regs : σ → ρ)
    (m₁ m₂ : Machine σ) : Prop where
  ram : SameRam m₁.mem m₂.mem
  devices : regs m₁.world.dev = regs m₂.world.dev
  harts : ∀ i c₁ c₂,
    m₁.harts[i]? = some c₁ → m₂.harts[i]? = some c₂ →
      SameHart (m₁.state i c₁) (m₂.state i c₂)

/- The bits of `status` that `Hart::init` does not assign. -/
def Status.unassigned
    (s : Status) : BitVec 64 :=
  s &&& ~~~0xF00000000

/-
  Two storages that agree on the members that nothing assigns
  when a hart is made.
-/
structure SameStorage
    (h₁ h₂ : Hart)
    (p₁ p₂ : HartPins) : Prop where
  gpr : ∀ r, r ≠ 0 → r ≠ 10 → r ≠ 11 →
    h₁.GPR r = h₂.GPR r
  csrs : ∀ n, n < 4096 → n ≠ CSR_TIME → n ≠ CSR_MISA →
    n ≠ CSR_MHARTID → h₁.csrs n = h₂.csrs n
  time : p₁.time = p₂.time
  status : h₁.status.unassigned = h₂.status.unassigned
  ie : h₁.ie = h₂.ie
  ip : p₁.ip = p₂.ip
  fcsr : h₁.fcsr = h₂.fcsr
  stimecmp : p₁.stimecmp = p₂.stimecmp
  reservation : h₁.reservation = h₂.reservation

end RiscvEm

------------------------------------------------------------
-- The Members Of A New Hart
------------------------------------------------------------

namespace RiscvEm

variable {cfg : BootConfig}
variable {i : Nat}
variable {h h₁ h₂ : Hart}

/- Registers that are not assigned stay. -/
theorem newHart_gpr
    {r : BitVec 5}
    (h10 : r ≠ 10)
    (h11 : r ≠ 11) :
    (cfg.newHart i h).GPR r = h.GPR r := by
  unfold BootConfig.newHart Hart.init
  dsimp only
  rw [Function.update_of_ne h11, Function.update_of_ne h10]
  rfl

/- The two others are assigned. -/
theorem newHart_gpr_assigned
    {r : BitVec 5}
    (hr : r = 10 ∨ r = 11) :
    (cfg.newHart i h₁).GPR r = (cfg.newHart i h₂).GPR r := by
  rcases hr with rfl | rfl <;> rfl

/- Other registers of control are those of the storage. -/
theorem newHart_csrs
    {n : BitVec 16}
    (hMisa : n ≠ CSR_MISA)
    (hHartid : n ≠ CSR_MHARTID) :
    (cfg.newHart i h).csrs n = h.csrs n := by
  unfold BootConfig.newHart Hart.init
  dsimp only
  rw [Function.update_of_ne hHartid,
    Function.update_of_ne hMisa]
  rfl

/- `misa` and `mhartid` are assigned. -/
theorem newHart_csrs_assigned
    {n : BitVec 16}
    (hn : n = CSR_MISA ∨ n = CSR_MHARTID) :
    (cfg.newHart i h₁).csrs n = (cfg.newHart i h₂).csrs n := by
  rcases hn with rfl | rfl <;> rfl

/- Setting both widths is setting these bits. -/
theorem setXL_eq
    (s : Status) :
    (s.setSXL 2).setUXL 2 = s.unassigned ||| 0xA00000000 := by
  unfold Status.setSXL Status.setUXL setField
    Status.unassigned
  rw [BitVec.and_or_distrib_right, BitVec.and_assoc,
    BitVec.or_assoc]
  rfl

/- The widths can be taken out again. -/
theorem unassigned_and
    (s : Status) :
    (s.unassigned ||| 0xA00000000) &&& ~~~0xF00000000 =
      s.unassigned := by
  unfold Status.unassigned
  rw [BitVec.and_or_distrib_right, BitVec.and_assoc]
  exact BitVec.or_zero

/- Two new harts agree in `mstatus` if the rest of it does. -/
theorem newHart_status_iff :
    (cfg.newHart i h₁).status = (cfg.newHart i h₂).status ↔
      h₁.status.unassigned = h₂.status.unassigned := by
  change (h₁.status.setSXL 2).setUXL 2 =
    (h₂.status.setSXL 2).setUXL 2 ↔ _
  rw [setXL_eq, setXL_eq]
  constructor
  · intro hEq
    rw [← unassigned_and h₁.status, hEq, unassigned_and]
  · intro hEq
    rw [hEq]

end RiscvEm

------------------------------------------------------------
-- What A Reset Determines
------------------------------------------------------------

namespace RiscvEm

variable {σ ρ : Type}
variable {cfg : BootConfig}
variable {storage storage₁ storage₂ : Storage}
variable {i : Nat}
variable {m m₁ m₂ m' m₁' m₂' : Machine σ}

/- A rebuild boots memory and puts new harts. -/
theorem Machine.rebuild_cases
    (h : m.rebuild cfg storage = .ok m') :
    m.mem.bootMemory cfg.files cfg.memorySize = .ok m'.mem ∧
      m'.harts = (List.range cfg.hartsCount.toNat).map
        (cfg.newCore storage) ∧
      m'.world = ⟨m.world.dev, storage.pins⟩ := by
  rcases bind_eq_ok.mp h with ⟨mem, hBoot, h⟩
  rcases bind_eq_ok.mp h with ⟨-, -, h⟩
  cases h
  exact ⟨hBoot, rfl, rfl⟩

/- Each hart of a rebuilt machine is a new one. -/
theorem rebuild_harts
    (h : m.rebuild cfg storage = .ok m')
    (hi : i < cfg.hartsCount.toNat) :
    m'.harts[i]? = some (cfg.newCore storage i) := by
  rw [(Machine.rebuild_cases h).2.1, List.getElem?_map,
    List.getElem?_range hi]
  rfl

/- A rebuilt machine has no other harts. -/
theorem rebuild_harts_lt
    {c : HartCore}
    (h : m.rebuild cfg storage = .ok m')
    (hc : m'.harts[i]? = some c) :
    i < cfg.hartsCount.toNat := by
  have hLt := (List.getElem?_eq_some_iff.mp hc).1
  rw [(Machine.rebuild_cases h).2.1, List.length_map,
    List.length_range] at hLt
  exact hLt

/- A CSR of it is the hart's, or the time of its pins. -/
theorem rebuild_csr
    {c : HartCore}
    (h : m.rebuild cfg storage = .ok m')
    (n : BitVec 16) :
    (m'.state i c).csr n =
      if n = CSR_TIME then (storage.pins i).time
      else c.hart.csrs n := by
  unfold State.csr State.pins Machine.state
  rw [(Machine.rebuild_cases h).2.2]

/- New harts are equal if what nothing assigns is equal. -/
theorem rebuild_sameHart_iff
    (h₁ : m₁.rebuild cfg storage₁ = .ok m₁')
    (h₂ : m₂.rebuild cfg storage₂ = .ok m₂') :
    SameHart (m₁'.state i (cfg.newCore storage₁ i))
        (m₂'.state i (cfg.newCore storage₂ i)) ↔
      SameStorage (storage₁.hart i) (storage₂.hart i)
        (storage₁.pins i) (storage₂.pins i) := by
  have hPins₁ : (m₁'.state i (cfg.newCore storage₁ i)).pins =
      storage₁.pins i := by
    unfold State.pins Machine.state
    rw [(Machine.rebuild_cases h₁).2.2]
  have hPins₂ : (m₂'.state i (cfg.newCore storage₂ i)).pins =
      storage₂.pins i := by
    unfold State.pins Machine.state
    rw [(Machine.rebuild_cases h₂).2.2]
  constructor
  · intro h
    constructor
    · intro r hZero h10 h11
      have hr := h.gpr r hZero
      exact (newHart_gpr h10 h11).symm.trans
        (hr.trans (newHart_gpr h10 h11))
    · intro n hLt hTime hMisa hHartid
      have hn := h.csr n hLt
      rw [rebuild_csr h₁, rebuild_csr h₂, if_neg hTime,
        if_neg hTime] at hn
      exact (newHart_csrs hMisa hHartid).symm.trans
        (hn.trans (newHart_csrs hMisa hHartid))
    · have hTime := h.csr CSR_TIME (by decide)
      rw [rebuild_csr h₁, rebuild_csr h₂, if_pos rfl,
        if_pos rfl] at hTime
      exact hTime
    · exact newHart_status_iff.mp h.status
    · exact h.ie
    · rw [← hPins₁, ← hPins₂]
      exact h.ip
    · exact h.fcsr
    · rw [← hPins₁, ← hPins₂]
      exact h.stimecmp
    · exact h.reservation
  · intro h
    constructor
    · intro r hZero
      by_cases hr : r = 10 ∨ r = 11
      · exact newHart_gpr_assigned hr
      · rw [not_or] at hr
        have hEq := h.gpr r hZero hr.1 hr.2
        exact (newHart_gpr hr.1 hr.2).trans
          (hEq.trans (newHart_gpr hr.1 hr.2).symm)
    · intro n hLt
      rw [rebuild_csr h₁, rebuild_csr h₂]
      by_cases hTime : n = CSR_TIME
      · rw [if_pos hTime, if_pos hTime]
        exact h.time
      · rw [if_neg hTime, if_neg hTime]
        by_cases hn : n = CSR_MISA ∨ n = CSR_MHARTID
        · exact newHart_csrs_assigned hn
        · rw [not_or] at hn
          have hEq := h.csrs n hLt hTime hn.1 hn.2
          exact (newHart_csrs hn.1 hn.2).trans
            (hEq.trans (newHart_csrs hn.1 hn.2).symm)
    · exact newHart_status_iff.mpr h.status
    · exact h.ie
    · rw [hPins₁, hPins₂]
      exact h.ip
    · rfl
    · rfl
    · exact h.fcsr
    · rw [hPins₁, hPins₂]
      exact h.stimecmp
    · exact h.reservation
    · rfl

/-
  Two resets of the same machine end in the same state
  exactly if the devices were the same before, and the harts
  were made in the same storage as far as nothing assigns it.
-/
theorem reset_forgets_iff
    (regs : σ → ρ)
    (hRam₁ : m₁.mem.HasRam cfg.memorySize)
    (hRam₂ : m₂.mem.HasRam cfg.memorySize)
    (h₁ : m₁.rebuild cfg storage₁ = .ok m₁')
    (h₂ : m₂.rebuild cfg storage₂ = .ok m₂') :
    SameReset regs m₁' m₂' ↔
      regs m₁.world.dev = regs m₂.world.dev ∧
        ∀ i, i < cfg.hartsCount.toNat →
          SameStorage (storage₁.hart i) (storage₂.hart i)
            (storage₁.pins i) (storage₂.pins i) := by
  have hDev₁ : m₁'.world.dev = m₁.world.dev := by
    rw [(Machine.rebuild_cases h₁).2.2]
  have hDev₂ : m₂'.world.dev = m₂.world.dev := by
    rw [(Machine.rebuild_cases h₂).2.2]
  constructor
  · intro h
    refine ⟨?_, ?_⟩
    · rw [← hDev₁, ← hDev₂]
      exact h.devices
    · intro i hi
      apply (rebuild_sameHart_iff h₁ h₂).mp
      exact h.harts i _ _ (rebuild_harts h₁ hi)
        (rebuild_harts h₂ hi)
  · rintro ⟨hDev, hStorage⟩
    constructor
    · exact bootMemory_sameRam hRam₁ hRam₂
        (Machine.rebuild_cases h₁).1 (Machine.rebuild_cases h₂).1
    · rw [hDev₁, hDev₂]
      exact hDev
    · intro i c₁ c₂ hc₁ hc₂
      have hi := rebuild_harts_lt h₁ hc₁
      rw [rebuild_harts h₁ hi] at hc₁
      rw [rebuild_harts h₂ hi] at hc₂
      cases hc₁
      cases hc₂
      exact (rebuild_sameHart_iff h₁ h₂).mpr (hStorage i hi)

/- A machine of two harts with a megabyte of RAM. -/
def smallBoot : BootConfig :=
  { memorySize := 0x100000
    hartsCount := 2
    entryPc := 0x80000000
    files :=
      { bios := [0x13, 0, 0, 0]
        kernel := none
        dtb := some [1, 2, 3, 4]
        fdt := ⟨[], [], []⟩
        locals := ⟨0, 0⟩
        heap := fun _ => 0 } }

def smallMachine
    (ram : Bytes)
    (world : DevWorld (Plic PlicConfig.twoHarts)) :
    Machine (Plic PlicConfig.twoHarts) :=
  { harts := []
    mem := ⟨[⟨0x80000000, 0x100000, ram⟩], some 0⟩
    world := world
    cache := DecodeCache.init
    round := .toNearest
    trace := [] }

def zeroStorage : Storage :=
  { hart := fun _ => Hart.zero 0
    pins := fun _ => ⟨0, 0, 0⟩ }

/- The loader succeeds, whatever was in RAM. -/
theorem smallMachine_bootMemory
    (ram : Bytes)
    (world : DevWorld (Plic PlicConfig.twoHarts)) :
    ∃ mem off, (smallMachine ram world).mem.bootMemory
        smallBoot.files smallBoot.memorySize = .ok mem ∧
      mem.ramPtr = .ok off := by
  have hOk : ((MemoryMap.mk [⟨0x80000000, 0x100000,
      fun _ => 0⟩] (some 0)).bootMemory smallBoot.files
        smallBoot.memorySize >>= MemoryMap.ramPtr).isOk =
          true := by
    decide +kernel
  change ((smallMachine ram world).mem.bootMemory
    smallBoot.files smallBoot.memorySize >>=
      MemoryMap.ramPtr).isOk = true at hOk
  cases hBoot : (smallMachine ram world).mem.bootMemory
      smallBoot.files smallBoot.memorySize with
  | error e =>
      rw [hBoot] at hOk
      cases hOk
  | ok mem =>
      rw [hBoot] at hOk
      change mem.ramPtr.isOk = true at hOk
      cases hPtr : mem.ramPtr with
      | error e =>
          rw [hPtr] at hOk
          cases hOk
      | ok off => exact ⟨mem, off, rfl, hPtr⟩

/- The small machine can be rebuilt. -/
theorem smallMachine_rebuild
    (ram : Bytes)
    (world : DevWorld (Plic PlicConfig.twoHarts)) :
    ∃ m, (smallMachine ram world).rebuild smallBoot
      zeroStorage = .ok m := by
  rcases smallMachine_bootMemory ram world with
    ⟨mem, off, hBoot, hPtr⟩
  unfold Machine.rebuild
  rw [hBoot]
  change ∃ m, (mem.ramPtr >>= fun _ => _) = Except.ok m
  rw [hPtr]
  exact ⟨_, rfl⟩

/- The small machine has RAM where it belongs. -/
theorem smallMachine_hasRam
    (ram : Bytes)
    (world : DevWorld (Plic PlicConfig.twoHarts)) :
    (smallMachine ram world).mem.HasRam
      smallBoot.memorySize :=
  ⟨0, _, rfl, rfl, rfl, rfl⟩

/- What was in RAM before the reset does not show. -/
theorem reset_forgets_ram :
    ∃ m₁ m₂,
      (smallMachine (fun _ => 0) plicStart).rebuild smallBoot
          zeroStorage = .ok m₁ ∧
        (smallMachine (fun _ => 0xFF) plicStart).rebuild
          smallBoot zeroStorage = .ok m₂ ∧
        SameReset (fun plic => plic) m₁ m₂ := by
  rcases smallMachine_rebuild (fun _ => 0) plicStart with
    ⟨m₁, h₁⟩
  rcases smallMachine_rebuild (fun _ => 0xFF) plicStart with
    ⟨m₂, h₂⟩
  refine ⟨m₁, m₂, h₁, h₂, ?_⟩
  refine (reset_forgets_iff _ (smallMachine_hasRam _ _)
    (smallMachine_hasRam _ _) h₁ h₂).mpr ⟨rfl, ?_⟩
  intro i _
  constructor
  all_goals intros
  all_goals rfl

/- The priority of a source before and after some writes. -/
theorem plicSetup_priority :
    ∃ w, runPlicOps plicStart plicSetup = .ok w ∧
      plicStart.dev.priorities[10]? ≠
        w.dev.priorities[10]? := by
  have hRun : (runPlicOps plicStart plicSetup).toOption.map
      (fun w => w.dev.priorities[10]?) = some (some 1) := by
    decide +kernel
  cases hOps : runPlicOps plicStart plicSetup with
  | error e =>
      rw [hOps] at hRun
      cases hRun
  | ok w =>
      rw [hOps] at hRun
      have hOne : w.dev.priorities[10]? = some 1 :=
        Option.some.inj hRun
      refine ⟨w, rfl, ?_⟩
      rw [hOne]
      decide +kernel

/-
  Two machines whose guests set up the interrupt controller
  differently differ after a reset.
-/
theorem reset_keeps_plic :
    ∃ w m₁ m₂, runPlicOps plicStart plicSetup = .ok w ∧
      (smallMachine (fun _ => 0) plicStart).rebuild smallBoot
          zeroStorage = .ok m₁ ∧
        (smallMachine (fun _ => 0) w).rebuild smallBoot
          zeroStorage = .ok m₂ ∧
        ¬ SameReset (fun plic => plic) m₁ m₂ := by
  rcases plicSetup_priority with ⟨w, hOps, hNe⟩
  rcases smallMachine_rebuild (fun _ => 0) plicStart with
    ⟨m₁, h₁⟩
  rcases smallMachine_rebuild (fun _ => 0) w with ⟨m₂, h₂⟩
  refine ⟨w, m₁, m₂, hOps, h₁, h₂, ?_⟩
  intro hSame
  have hDev := hSame.devices
  rw [(Machine.rebuild_cases h₁).2.2,
    (Machine.rebuild_cases h₂).2.2] at hDev
  apply hNe
  exact congrArg (fun plic => plic.priorities[10]?) hDev

end RiscvEm
