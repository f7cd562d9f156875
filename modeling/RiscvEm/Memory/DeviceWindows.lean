import RiscvEm.Jit.Run

/-
  The windows of devices, as reads, writes and the slow paths
  of compiled stores test them.

  Key definitions include:
    * `Device.holds`
    * `DevicePathsAgree`
    * `Device.WindowOk`

  Key theorems include `device_paths_agree_iff`.
-/

------------------------------------------------------------
-- Devices That An Access Reaches
------------------------------------------------------------

namespace RiscvEm

variable {σ : Type}

/- The whole access lies in the window of the device. -/
def Device.holds
    (dev : Device σ)
    (addr : BitVec 64)
    (size : MemorySize) : Bool :=
  decide (dev.start.toNat ≤ addr.toNat) &&
    decide (addr.toNat + size.bytes ≤
      dev.start.toNat + dev.size.toNat)

/- The first device that holds an access. -/
def holdingDevice
    (P : Platform σ)
    (addr : BitVec 64)
    (size : MemorySize) : Option (Device σ) :=
  P.devs.find? (·.holds addr size)

/- The device that `MMIO::read` takes. -/
def readDevice
    (P : Platform σ)
    (addr : BitVec 64)
    (size : MemorySize) : Option (Device σ) :=
  if takesDram P addr size then
    none
  else
    P.devs.find? (·.inReadWindow addr size)

/- The device that `MMIO::write` takes. -/
def writeDevice
    (P : Platform σ)
    (addr : BitVec 64)
    (size : MemorySize) : Option (Device σ) :=
  if takesDram P addr size then
    none
  else
    P.devs.find? (·.inWriteWindow addr size)

/-
  The device that `jit_slow_s*` takes; its argument is the
  distance from the begin of RAM.
-/
def slowDevice
    (P : Platform σ)
    (off : BitVec 64)
    (size : MemorySize) : Option (Device σ) :=
  P.devs.find? (·.inReadWindow (off + 0x80000000) size)

/- Read from a device, or report a fault. -/
def State.readFrom
    (s : State σ)
    (dev : Option (Device σ))
    (addr : BitVec 64)
    (size : MemorySize) :
    Except HostFault (MemoryReturn × BitVec 64 × State σ) :=
  match dev with
  | some dev => do
      let (out, world) ← dev.read addr size s.world
      .ok (⟨true, 0, 0⟩,
        BitVec.ofNat 64 (out.toNat % 256 ^ size.bytes),
        { s with world := world })
  | none => .ok (⟨false, EXC_LOAD_ACCESS_FAULT, addr⟩, 0, s)

/- Write to a device, or report a fault. -/
def State.writeTo
    (s : State σ)
    (dev : Option (Device σ))
    (addr : BitVec 64)
    (size : MemorySize)
    (val : BitVec 64) :
    Except HostFault (MemoryReturn × State σ) :=
  match dev with
  | some dev => do
      let s := s.amoCheckReservation addr
      let (world, mem) ← dev.write addr size val s.world s.mem
      .ok (⟨true, 0, 0⟩,
        { s with world := world, mem := mem }.log
          (.store s.self .mmio addr size.bytes))
  | none => .ok (⟨false, EXC_STORE_ACCESS_FAULT, addr⟩, s)

/- A store of compiled code to a device, if there is one. -/
def State.slowStoreTo
    (s : State σ)
    (dev : Option (Device σ))
    (addr : BitVec 64)
    (size : MemorySize)
    (val : BitVec 64) : Option (State σ) :=
  match dev with
  | some dev =>
      match dev.write addr size val s.world s.mem with
      | .ok (world, mem) =>
          some ({ s with world := world, mem := mem }.log
            (.store s.self .compiled addr size.bytes))
      | .error _ => none
  | none => some s

variable {P : Platform σ}
variable {addr : BitVec 64}
variable {size : MemorySize}

/- Reads outside of RAM go to the first device. -/
theorem State.mmioRead_eq_readFrom
    (s : State σ)
    (h : ¬ takesDram P addr size) :
    s.mmioRead P addr size =
      s.readFrom (readDevice P addr size) addr size := by
  unfold mmioRead readDevice
  rw [if_neg h, if_neg h]
  rfl

/- Writes outside of RAM go to the first device. -/
theorem State.mmioWrite_eq_writeTo
    (s : State σ)
    (val : BitVec 64)
    (h : ¬ takesDram P addr size) :
    s.mmioWrite P addr size val =
      s.writeTo (writeDevice P addr size) addr size val := by
  unfold mmioWrite writeDevice
  rw [if_neg h, if_neg h]
  rfl

/- A compiled store takes the first device, too. -/
theorem jitSlowStore_device
    (s : State σ)
    (off val : BitVec 64) :
    jitSlowStore P s size off val =
      s.slowStoreTo (slowDevice P off size)
        (off + 0x80000000) size val := by
  unfold jitSlowStore slowDevice State.slowStoreTo
  dsimp only
  cases P.devs.find? (·.inReadWindow (off + 0x80000000) size)
    <;> rfl

end RiscvEm

------------------------------------------------------------
-- One Device
------------------------------------------------------------

namespace RiscvEm

variable {σ : Type}

/- One of the three tests accepts the access. -/
def Device.touches
    (dev : Device σ)
    (addr : BitVec 64)
    (size : MemorySize) : Bool :=
  dev.inReadWindow addr size || dev.inWriteWindow addr size ||
    dev.holds addr size

/-
  The end of the window does not wrap, and the access does
  not end where the window ends.
-/
structure Device.WindowOk
    (dev : Device σ)
    (addr : BitVec 64)
    (size : MemorySize) : Prop where
  size_le : size.bytes ≤ dev.start.toNat + dev.size.toNat
  end_lt : dev.start.toNat + dev.size.toNat + 1 <
    2 ^ 64 + size.bytes
  end_ne : addr.toNat + size.bytes ≠
    dev.start.toNat + dev.size.toNat

theorem MemorySize.word_toNat
    (size : MemorySize) :
    size.word.toNat = size.bytes := by
  cases size <;> rfl

theorem MemorySize.bytes_bounds
    (size : MemorySize) :
    1 ≤ size.bytes ∧ size.bytes ≤ 8 := by
  cases size <;> decide

/- The tests as statements about numbers. -/
theorem Device.inReadWindow_iff
    (dev : Device σ)
    (addr : BitVec 64)
    (size : MemorySize) :
    dev.inReadWindow addr size = true ↔
      dev.start.toNat ≤ addr.toNat ∧
        addr.toNat < (dev.start.toNat + dev.size.toNat +
          2 ^ 64 - size.bytes + 1) % 2 ^ 64 := by
  unfold Device.inReadWindow
  rw [Bool.and_eq_true, decide_eq_true_iff,
    decide_eq_true_iff, BitVec.le_def, BitVec.lt_def,
    BitVec.toNat_add, BitVec.toNat_sub, BitVec.toNat_add,
    size.word_toNat]
  have hSize := size.bytes_bounds
  have hOne : (1 : BitVec 64).toNat = 1 := rfl
  rw [hOne]
  omega

/- What the comparison of a write means for the window. -/
theorem Device.inWriteWindow_iff
    (dev : Device σ)
    (addr : BitVec 64)
    (size : MemorySize) :
    dev.inWriteWindow addr size = true ↔
      dev.start.toNat ≤ addr.toNat ∧
        addr.toNat < (dev.start.toNat + dev.size.toNat +
          2 ^ 64 - size.bytes) % 2 ^ 64 := by
  unfold Device.inWriteWindow
  rw [Bool.and_eq_true, decide_eq_true_iff,
    decide_eq_true_iff, BitVec.le_def, BitVec.lt_def,
    BitVec.toNat_sub, BitVec.toNat_add, size.word_toNat]
  have hSize := size.bytes_bounds
  omega

/- Where one test accepts, all do if the window is right. -/
theorem Device.tests_agree_iff
    {dev : Device σ}
    {addr : BitVec 64}
    {size : MemorySize}
    (h : dev.touches addr size = true) :
    (dev.inReadWindow addr size = true ∧
        dev.inWriteWindow addr size = true ∧
        dev.holds addr size = true) ↔
      dev.WindowOk addr size := by
  have hSize := size.bytes_bounds
  have hStart := dev.start.isLt
  have hLen := dev.size.isLt
  have hAddr := addr.isLt
  unfold Device.touches at h
  rw [Bool.or_eq_true, Bool.or_eq_true] at h
  have hHolds : dev.holds addr size = true ↔
      dev.start.toNat ≤ addr.toNat ∧
        addr.toNat + size.bytes ≤
          dev.start.toNat + dev.size.toNat := by
    unfold Device.holds
    rw [Bool.and_eq_true, decide_eq_true_iff,
      decide_eq_true_iff]
  rw [dev.inReadWindow_iff, dev.inWriteWindow_iff, hHolds]
    at h ⊢
  constructor
  · rintro ⟨hRead, hWrite, hIn⟩
    refine ⟨?_, ?_, ?_⟩ <;> omega
  · rintro ⟨hLe, hLt, hNe⟩
    refine ⟨⟨?_, ?_⟩, ⟨?_, ?_⟩, ⟨?_, ?_⟩⟩ <;> omega

end RiscvEm

------------------------------------------------------------
-- Lists Of Devices
------------------------------------------------------------

namespace RiscvEm

variable {σ : Type}

theorem find?_head_iff
    {α : Type}
    (t : α → Bool)
    (x : α)
    (xs : List α) :
    (x :: xs).find? t = some x ↔ t x = true := by
  constructor
  · exact List.find?_some
  · intro h
    exact List.find?_cons_of_pos (p := t) h

/-
  Three searches find the same exactly if the first element
  that one of the tests accepts is accepted by all.
-/
theorem find?_agree_iff
    {α : Type}
    (p q r : α → Bool)
    (xs : List α) :
    (xs.find? p = xs.find? r ∧ xs.find? q = xs.find? r) ↔
      ∀ x, xs.find? (fun x => p x || q x || r x) = some x →
        p x = true ∧ q x = true ∧ r x = true := by
  let t := fun x => p x || q x || r x
  change _ ↔ ∀ x, xs.find? t = some x → _
  have hAny (x : α) :
      t x = true ↔ p x = true ∨ q x = true ∨ r x = true := by
    simp [t, or_assoc]
  induction xs with
  | nil => simp
  | cons x xs ih =>
      by_cases hHead : t x = true
      · rw [List.find?_cons_of_pos (p := t) hHead]
        constructor
        · rintro ⟨hPR, hQR⟩ y hy
          rcases Option.some.inj hy
          rw [hAny] at hHead
          -- whichever search stops at the head, all do
          rw [← find?_head_iff p x xs, ← find?_head_iff q x xs,
            ← find?_head_iff r x xs, hPR, hQR] at hHead ⊢
          rw [or_self, or_self] at hHead
          exact ⟨hHead, hHead, hHead⟩
        · intro h
          rcases h x rfl with ⟨hp, hq, hr⟩
          rw [List.find?_cons_of_pos (p := p) hp,
            List.find?_cons_of_pos (p := q) hq,
            List.find?_cons_of_pos (p := r) hr]
          exact ⟨rfl, rfl⟩
      · have hNone := hHead
        rw [hAny, not_or, not_or] at hNone
        rw [List.find?_cons_of_neg (p := t) hHead,
          List.find?_cons_of_neg (p := p) hNone.1,
          List.find?_cons_of_neg (p := q) hNone.2.1,
          List.find?_cons_of_neg (p := r) hNone.2.2]
        exact ih

end RiscvEm

------------------------------------------------------------
-- The Three Paths
------------------------------------------------------------

namespace RiscvEm

variable {σ : Type}

/- The whole access lies in RAM. -/
def Platform.InRam
    (P : Platform σ)
    (addr : BitVec 64)
    (size : MemorySize) : Prop :=
  2 ^ 31 ≤ addr.toNat ∧
    addr.toNat + size.bytes ≤ 2 ^ 31 + P.memsize.toNat

/- The paths for an access outside RAM. -/
structure DevicePathsAgree
    (P : Platform σ)
    (s : State σ)
    (addr : BitVec 64)
    (size : MemorySize)
    (val : BitVec 64) : Prop where
  read : readDevice P addr size = holdingDevice P addr size
  write : writeDevice P addr size = holdingDevice P addr size
  slow : slowDevice P (addr - 0x80000000) size =
    holdingDevice P addr size
  refused : holdingDevice P addr size = none →
    s.mmioRead P addr size =
        .ok (⟨false, EXC_LOAD_ACCESS_FAULT, addr⟩, 0, s) ∧
      s.mmioWrite P addr size val =
        .ok (⟨false, EXC_STORE_ACCESS_FAULT, addr⟩, s)

variable {P : Platform σ}
variable {addr : BitVec 64}
variable {size : MemorySize}

/- Outside RAM only an access that wraps passes the test. -/
theorem takesDram_outside_iff
    (hOut : ¬ P.InRam addr size) :
    takesDram P addr size ↔
      2 ^ 64 ≤ addr.toNat + size.bytes := by
  by_cases hFit : addr.toNat + size.bytes < 2 ^ 64
  · rw [takesDram_iff P addr size hFit]
    unfold Platform.InRam at hOut
    omega
  · have hMem := P.memsize_lt
    have hSize := size.bytes_bounds
    have hBase : (0x80000000 : BitVec 64).toNat = 2 ^ 31 :=
      rfl
    have hLt := addr.isLt
    simp only [takesDram, Platform.ramEnd, BitVec.le_def,
      BitVec.toNat_add, size.word_toNat, hBase]
    omega

/- An access that passes the test is never refused. -/
theorem State.mmioRead_dram_ne_refused
    (s : State σ)
    (h : takesDram P addr size) :
    s.mmioRead P addr size ≠
      .ok (⟨false, EXC_LOAD_ACCESS_FAULT, addr⟩, 0, s) := by
  intro hRead
  unfold mmioRead at hRead
  dsimp only at hRead
  rw [if_pos h] at hRead
  rcases bind_eq_ok.mp hRead with ⟨out, -, hOut⟩
  cases hOut

/- Compiled stores look for the absolute address. -/
theorem slowDevice_sub
    (P : Platform σ)
    (addr : BitVec 64)
    (size : MemorySize) :
    slowDevice P (addr - 0x80000000) size =
      P.devs.find? (·.inReadWindow addr size) := by
  unfold slowDevice
  rw [BitVec.sub_add_cancel]

/-
  Reads, writes and compiled stores agree on the device
  exactly if the access does not wrap and the first device
  that one of them could take has its window end elsewhere.
-/
theorem device_paths_agree_iff
    (P : Platform σ)
    (s : State σ)
    (addr : BitVec 64)
    (size : MemorySize)
    (val : BitVec 64)
    (hOut : ¬ P.InRam addr size) :
    DevicePathsAgree P s addr size val ↔
      addr.toNat + size.bytes < 2 ^ 64 ∧
        ∀ dev,
          P.devs.find? (·.touches addr size) = some dev →
            dev.WindowOk addr size := by
  have hFind := find?_agree_iff
    (fun dev : Device σ => dev.inReadWindow addr size)
    (fun dev => dev.inWriteWindow addr size)
    (fun dev => dev.holds addr size) P.devs
  by_cases hDram : takesDram P addr size
  · have hWrap := (takesDram_outside_iff hOut).mp hDram
    constructor
    · intro h
      have hNone : holdingDevice P addr size = none := by
        rw [← h.read]
        exact if_pos hDram
      exact absurd (h.refused hNone).1
        (s.mmioRead_dram_ne_refused hDram)
    · rintro ⟨hFit, -⟩
      omega
  · have hFit : addr.toNat + size.bytes < 2 ^ 64 := by
      rw [takesDram_outside_iff hOut] at hDram
      omega
    have hRead : readDevice P addr size =
        P.devs.find? (·.inReadWindow addr size) :=
      if_neg hDram
    have hWrite : writeDevice P addr size =
        P.devs.find? (·.inWriteWindow addr size) :=
      if_neg hDram
    have hTouch (dev : Device σ)
        (hDev : P.devs.find? (·.touches addr size) =
          some dev) :
        dev.touches addr size = true :=
      List.find?_some
        (p := fun dev : Device σ => dev.touches addr size)
        hDev
    constructor
    · intro h
      refine ⟨hFit, fun dev hDev => ?_⟩
      rw [← Device.tests_agree_iff (hTouch dev hDev)]
      apply hFind.mp _ dev hDev
      exact ⟨hRead ▸ h.read, hWrite ▸ h.write⟩
    · rintro ⟨-, hOk⟩
      have hBoth := hFind.mpr (fun dev hDev =>
        (Device.tests_agree_iff (hTouch dev hDev)).mpr
          (hOk dev hDev))
      constructor
      · exact hRead.trans hBoth.1
      · exact hWrite.trans hBoth.2
      · exact (slowDevice_sub P addr size).trans hBoth.1
      · intro hNone
        rw [s.mmioRead_eq_readFrom hDram,
          s.mmioWrite_eq_writeTo val hDram,
          hRead.trans (hBoth.1.trans hNone),
          hWrite.trans (hBoth.2.trans hNone)]
        exact ⟨rfl, rfl⟩

/- A device of two registers that read as zero. -/
def Device.constant : Device Unit :=
  { start := 0x1000
    size := 0x10
    read := fun _ _ w => .ok (0, w)
    write := fun _ _ _ w m => .ok (w, m) }

def Platform.withConstant : Platform Unit :=
  { Platform.bare with devs := [Device.constant] }

/- At its first register all three agree. -/
theorem first_register_paths_agree :
    DevicePathsAgree Platform.withConstant (State.boot [])
      0x1000 .Long 0 := by
  apply (device_paths_agree_iff Platform.withConstant
    (State.boot []) 0x1000 .Long 0 _).mpr
  · refine ⟨by decide, fun dev hDev => ?_⟩
    have hFirst : Platform.withConstant.devs.find?
        (·.touches 0x1000 .Long) = some Device.constant :=
      rfl
    rcases Option.some.inj (hFirst.symm.trans hDev)
    constructor <;> decide
  · unfold Platform.InRam
    decide

/- The last register can be read and not written. -/
theorem last_register_paths_differ :
    ¬ Platform.withConstant.InRam 0x1008 .Long ∧
    readDevice Platform.withConstant 0x1008 .Long =
      some Device.constant ∧
    writeDevice Platform.withConstant 0x1008 .Long = none ∧
    ¬ DevicePathsAgree Platform.withConstant (State.boot [])
      0x1008 .Long 0 := by
  refine ⟨?_, rfl, rfl, ?_⟩
  · unfold Platform.InRam
    decide
  · intro h
    have hNone : holdingDevice Platform.withConstant
        0x1008 .Long = none := h.write.symm
    cases hNone

end RiscvEm
