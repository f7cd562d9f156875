import RiscvEm.Hart.State
import RiscvEm.Memory.Layout

/-
  Memory accesses of a hart: RAM directly, everything else
  through the devices.

  Key definitions include:
    * `State.amoCheckReservation`
    * `State.mmioWrite`
    * `State.mmioRead`
    * `State.Wf`

  Key theorems include `dram_access_ok_iff`.
-/

------------------------------------------------------------
-- Reads And Writes
------------------------------------------------------------

namespace RiscvEm

variable {σ : Type}

/- `0x80000000ULL + memsize`. -/
def Platform.ramEnd
    (P : Platform σ) : BitVec 64 :=
  0x80000000 + P.memsize

def MemorySize.word
    (size : MemorySize) : BitVec 64 :=
  BitVec.ofNat 64 size.bytes

/- The test for RAM that both `read` and `write` begin with. -/
def takesDram
    (P : Platform σ)
    (vaddr : BitVec 64)
    (size : MemorySize) : Prop :=
  0x80000000 ≤ vaddr ∧ vaddr + size.word ≤ P.ramEnd

instance
    (P : Platform σ)
    (vaddr : BitVec 64)
    (size : MemorySize) :
    Decidable (takesDram P vaddr size) :=
  inferInstanceAs (Decidable (_ ∧ _))

/- The window in which a device accepts writes. -/
def Device.inWriteWindow
    (dev : Device σ)
    (vaddr : BitVec 64)
    (size : MemorySize) : Bool :=
  decide (dev.start ≤ vaddr) &&
    decide (vaddr < dev.start + dev.size - size.word)

/- The window in which a device accepts reads. -/
def Device.inReadWindow
    (dev : Device σ)
    (vaddr : BitVec 64)
    (size : MemorySize) : Bool :=
  decide (dev.start ≤ vaddr) &&
    decide (vaddr < dev.start + dev.size - size.word + 1)

/- A store at `va` may end the reservation. -/
def Reservation.check
    (r : Reservation)
    (va : BitVec 64) : Reservation :=
  if r.valid = true ∧ va ≤ r.vaddr ∧
      va ≤ r.vaddr + r.size.word then
    { r with valid := false }
  else
    r

namespace State

def amoCheckReservation
    (s : State σ)
    (va : BitVec 64) : State σ :=
  s.setHart { s.hart with
    reservation := s.hart.reservation.check va }

def mmioWrite
    (P : Platform σ)
    (s : State σ)
    (vaddr : BitVec 64)
    (size : MemorySize)
    (val : BitVec 64) :
    Except HostFault (MemoryReturn × State σ) :=
  if takesDram P vaddr size then do
    let s := s.amoCheckReservation vaddr
    let mem ← s.mem.store vaddr (size.bytes * 8) val
    let jctx ← s.jctx.bumpPage vaddr
    .ok (⟨true, 0, 0⟩,
      { s with mem := mem, jctx := jctx }.log
        (.store s.self .mmio vaddr size.bytes))
  else
    match P.devs.find? (·.inWriteWindow vaddr size) with
    | some dev => do
        let s := s.amoCheckReservation vaddr
        let (world, mem) ←
          dev.write vaddr size val s.world s.mem
        .ok (⟨true, 0, 0⟩,
          { s with world := world, mem := mem }.log
            (.store s.self .mmio vaddr size.bytes))
    | none =>
        .ok (⟨false, EXC_STORE_ACCESS_FAULT, vaddr⟩, s)

/- A typed load through `ram_direct->data`. -/
def readDramFast
    (s : State σ)
    (vaddr : BitVec 64)
    (size : MemorySize) : Except HostFault (BitVec 64) := do
  let ram ← s.mem.ram
  let off := (vaddr - 0x80000000).toNat
  if off + size.bytes ≤ ram.size.toNat then
    .ok (BitVec.ofNat 64 (hostLoad ram.data off size.bytes))
  else
    .error .outOfBounds

/-
  The value is what `*val` holds afterwards, zero extended;
  it is zero when nothing was written there.
-/
def mmioRead
    (P : Platform σ)
    (s : State σ)
    (vaddr : BitVec 64)
    (size : MemorySize) :
    Except HostFault
      (MemoryReturn × BitVec 64 × State σ) :=
  let truncate (out : BitVec 64) : BitVec 64 :=
    BitVec.ofNat 64 (out.toNat % 256 ^ size.bytes)
  if takesDram P vaddr size then do
    let out ← s.readDramFast vaddr size
    .ok (⟨true, 0, 0⟩, truncate out, s)
  else
    match P.devs.find? (·.inReadWindow vaddr size) with
    | some dev => do
        let (out, world) ← dev.read vaddr size s.world
        .ok (⟨true, 0, 0⟩, truncate out,
          { s with world := world })
    | none =>
        .ok (⟨false, EXC_LOAD_ACCESS_FAULT, vaddr⟩, 0, s)

end State

end RiscvEm

------------------------------------------------------------
-- What An Access Can Do
------------------------------------------------------------

namespace RiscvEm

variable {σ : Type}
variable {P : Platform σ}
variable {s s₁ : State σ}
variable {addr val : BitVec 64}
variable {size : MemorySize}
variable {m : MemoryReturn}

/- A read changes devices at most. -/
theorem State.mmioRead_cases
    (h : s.mmioRead P addr size = .ok (m, val, s₁)) :
    (m.isSuccess = true ∧
        s₁ = { s with world := s₁.world }) ∨
      (m = ⟨false, EXC_LOAD_ACCESS_FAULT, addr⟩ ∧
        val = 0 ∧ s₁ = s) := by
  unfold State.mmioRead at h
  split at h
  · obtain ⟨out, -, hEq⟩ := bind_eq_ok.mp h
    cases hEq
    exact Or.inl ⟨rfl, rfl⟩
  · split at h
    · obtain ⟨⟨out, world⟩, -, hEq⟩ := bind_eq_ok.mp h
      cases hEq
      exact Or.inl ⟨rfl, rfl⟩
    · cases h
      exact Or.inr ⟨rfl, rfl, rfl⟩

/- A read changes only the world of the devices. -/
theorem State.mmioRead_frame
    (h : s.mmioRead P addr size = .ok (m, val, s₁)) :
    s₁ = { s with world := s₁.world } := by
  rcases State.mmioRead_cases h with ⟨-, hEq⟩ | ⟨-, -, hEq⟩
  · exact hEq
  · rw [hEq]

theorem State.mmioRead_hart
    (h : s.mmioRead P addr size = .ok (m, val, s₁)) :
    s₁.hart = s.hart := by
  rw [State.mmioRead_frame h]

/- The state after a write that was done. -/
def State.written
    (s : State σ)
    (addr : BitVec 64)
    (size : MemorySize)
    (mem : MemoryMap)
    (world : DevWorld σ)
    (jctx : JitContext) : State σ :=
  { (s.amoCheckReservation addr) with
    mem := mem, world := world, jctx := jctx }.log
    (.store s.self .mmio addr size.bytes)

/-
  A write goes to RAM and counts its page, or to a device, or
  nothing accepts it; with the tests that decide which.
-/
theorem State.mmioWrite_steps
    (h : s.mmioWrite P addr size val = .ok (m, s₁)) :
    (takesDram P addr size ∧ m = ⟨true, 0, 0⟩ ∧
      ∃ mem jctx,
        s.mem.store addr (size.bytes * 8) val = .ok mem ∧
        s.jctx.bumpPage addr = .ok jctx ∧
        s₁ = s.written addr size mem s.world jctx) ∨
    (¬ takesDram P addr size ∧ m = ⟨true, 0, 0⟩ ∧
      ∃ dev world mem,
        P.devs.find? (·.inWriteWindow addr size) = some dev ∧
        dev.write addr size val s.world s.mem =
          .ok (world, mem) ∧
        s₁ = s.written addr size mem world s.jctx) ∨
    (¬ takesDram P addr size ∧
      P.devs.find? (·.inWriteWindow addr size) = none ∧
      m = ⟨false, EXC_STORE_ACCESS_FAULT, addr⟩ ∧
      s₁ = s) := by
  unfold State.mmioWrite at h
  split at h
  case isTrue hDram =>
    rcases bind_eq_ok.mp h with ⟨mem, hStore, h⟩
    rcases bind_eq_ok.mp h with ⟨jctx, hBump, h⟩
    cases h
    exact Or.inl ⟨hDram, rfl, mem, jctx, hStore, hBump, rfl⟩
  case isFalse hDram =>
    split at h
    case h_1 dev hFind =>
      rcases bind_eq_ok.mp h with ⟨⟨world, mem⟩, hWrite, h⟩
      cases h
      exact Or.inr (Or.inl
        ⟨hDram, rfl, dev, world, mem, hFind, hWrite, rfl⟩)
    case h_2 hFind =>
      cases h
      exact Or.inr (Or.inr ⟨hDram, hFind, rfl, rfl⟩)

/- The effect of a write, without the tests. -/
theorem State.mmioWrite_cases
    (h : s.mmioWrite P addr size val = .ok (m, s₁)) :
    (m.isSuccess = true ∧ takesDram P addr size ∧
      ∃ mem jctx,
        s.mem.store addr (size.bytes * 8) val = .ok mem ∧
        s.jctx.bumpPage addr = .ok jctx ∧
        s₁ = s.written addr size mem s.world jctx) ∨
    (m.isSuccess = true ∧
      ∃ dev world mem,
        P.devs.find? (·.inWriteWindow addr size) = some dev ∧
        dev.write addr size val s.world s.mem =
          .ok (world, mem) ∧
        s₁ = s.written addr size mem world s.jctx) ∨
    (m = ⟨false, EXC_STORE_ACCESS_FAULT, addr⟩ ∧
      s₁ = s) := by
  rcases State.mmioWrite_steps h with
    ⟨hDram, rfl, hRam⟩ | ⟨-, rfl, hDev⟩ | ⟨-, -, hFail⟩
  · exact Or.inl ⟨rfl, hDram, hRam⟩
  · exact Or.inr (Or.inl ⟨rfl, hDev⟩)
  · exact Or.inr (Or.inr hFail)

/- Only a write that was done changes the state. -/
theorem State.mmioWrite_fault
    (h : s.mmioWrite P addr size val = .ok (m, s₁))
    (hFail : m.isSuccess = false) :
    s₁ = s := by
  rcases State.mmioWrite_cases h with
    ⟨hTrue, -⟩ | ⟨hTrue, -⟩ | ⟨-, hEq⟩
  · rw [hFail] at hTrue
    cases hTrue
  · rw [hFail] at hTrue
    cases hTrue
  · exact hEq

theorem State.mmioRead_fault
    (h : s.mmioRead P addr size = .ok (m, val, s₁))
    (hFail : m.isSuccess = false) :
    s₁ = s := by
  rcases State.mmioRead_cases h with ⟨hTrue, -⟩ | ⟨-, -, hEq⟩
  · rw [hFail] at hTrue
    cases hTrue
  · exact hEq

end RiscvEm

------------------------------------------------------------
-- Well-Formed Memory
------------------------------------------------------------

namespace RiscvEm

variable {σ : Type}

/-
  The region `ram_direct` points to is the one that
  `add_region(0x80000000, memory_size)` made.
-/
def MemoryMap.HasRam
    (m : MemoryMap)
    (memsize : BitVec 64) : Prop :=
  ∃ i r, m.ramDirect = some i ∧ m.regions[i]? = some r ∧
    r.baseAddr = 0x80000000 ∧ r.size = memsize

/- The machine built its memory and contexts for one size. -/
structure State.Wf
    (P : Platform σ)
    (s : State σ) : Prop where
  hasRam : s.mem.HasRam P.memsize
  memorySize : s.jctx.memorySize = P.memsize

/- Without wrapping, the test for RAM is about numbers. -/
theorem takesDram_iff
    (P : Platform σ)
    (vaddr : BitVec 64)
    (size : MemorySize)
    (hFit : vaddr.toNat + size.bytes < 2 ^ 64) :
    takesDram P vaddr size ↔
      2 ^ 31 ≤ vaddr.toNat ∧
        vaddr.toNat + size.bytes ≤
          2 ^ 31 + P.memsize.toNat := by
  have hMem := P.memsize_lt
  have hBytes := size.bytes_le
  have hBase : (0x80000000 : BitVec 64).toNat = 2 ^ 31 := rfl
  simp only [takesDram, Platform.ramEnd, MemorySize.word,
    BitVec.le_def, BitVec.toNat_add, BitVec.toNat_ofNat,
    hBase]
  omega

/- The number of bits passed to `store` is one it accepts. -/
theorem widthBytes_bytes
    (size : MemorySize) :
    MemoryMap.widthBytes (size.bytes * 8) =
      .ok size.bytes := by
  cases size <;> rfl

end RiscvEm

------------------------------------------------------------
-- RAM Behaves As Memory
------------------------------------------------------------

namespace RiscvEm

variable {σ : Type}

/- The RAM array of a memory map. -/
def MemoryMap.ramBytes
    (m : MemoryMap) : Bytes :=
  match m.ram with
  | .ok r => r.data
  | .error _ => fun _ => 0

/- The bytes that an access touches, as offsets in RAM. -/
def touches
    (vaddr : BitVec 64)
    (size : MemorySize)
    (i : Nat) : Prop :=
  (vaddr - 0x80000000).toNat ≤ i ∧
    i < (vaddr - 0x80000000).toNat + size.bytes

/-
  The access lies in the RAM array; a read composes its
  bytes and agrees with `load`; a write changes these bytes
  to the bytes of the value and nothing else in memory, and
  a read then returns the value.
-/
structure DramAccessOk
    (P : Platform σ)
    (s : State σ)
    (vaddr : BitVec 64)
    (size : MemorySize)
    (val : BitVec 64) : Prop where
  inside :
    (vaddr - 0x80000000).toNat + size.bytes ≤
      P.memsize.toNat
  read :
    s.mmioRead P vaddr size =
      .ok (⟨true, 0, 0⟩,
        composeLe s.mem.ramBytes
          (vaddr - 0x80000000).toNat size.bytes, s)
  read_eq_load :
    s.mem.load vaddr (size.bytes * 8) =
      .ok (composeLe s.mem.ramBytes
        (vaddr - 0x80000000).toNat size.bytes)
  write :
    ∃ s', s.mmioWrite P vaddr size val =
        .ok (⟨true, 0, 0⟩, s') ∧
      (∀ i, touches vaddr size i →
        s'.mem.ramBytes i =
          (val >>> (8 * (i - (vaddr - 0x80000000).toNat))
            ).setWidth 8) ∧
      (∀ i, ¬ touches vaddr size i →
        s'.mem.ramBytes i = s.mem.ramBytes i) ∧
      (∀ i, s.mem.ramDirect ≠ some i →
        s'.mem.regions[i]? = s.mem.regions[i]?) ∧
      s'.mmioRead P vaddr size =
        .ok (⟨true, 0, 0⟩,
          BitVec.ofNat 64 (val.toNat % 256 ^ size.bytes), s')

/- The facts about RAM that a typed access depends on. -/
structure MemoryMap.RamIs
    (m : MemoryMap)
    (r : MemoryRegion) : Prop where
  ram : m.ram = .ok r
  base : r.baseAddr = 0x80000000

theorem MemoryMap.HasRam.ramIs
    {m : MemoryMap}
    {memsize : BitVec 64}
    (h : m.HasRam memsize) :
    ∃ r, m.RamIs r ∧ r.size = memsize := by
  obtain ⟨i, r, hDirect, hGet, hBase, hSize⟩ := h
  have hRam : m.ram = .ok r := by
    simp [MemoryMap.ram, hDirect, hGet]
  exact ⟨r, ⟨hRam, hBase⟩, hSize⟩

theorem MemoryMap.ram_setRam
    {m : MemoryMap}
    {r : MemoryRegion}
    (h : m.ram = .ok r)
    (r' : MemoryRegion) :
    (m.setRam r').ram = .ok r' := by
  obtain ⟨i, hDirect, hGet⟩ := ram_eq_ok_iff.mp h
  have hLt : i < m.regions.length :=
    (List.getElem?_eq_some_iff.mp hGet).1
  simp [MemoryMap.setRam, MemoryMap.ram, hDirect, hLt]

/- A pointer to an address in RAM. -/
theorem MemoryRegion.ptr_ram
    {r : MemoryRegion}
    (hBase : r.baseAddr = 0x80000000)
    (hSize : r.size.toNat < 2 ^ 63)
    (vaddr : BitVec 64)
    (hLo : 2 ^ 31 ≤ vaddr.toNat)
    (hHi : vaddr.toNat < 2 ^ 31 + r.size.toNat) :
    r.ptr vaddr = .ok (vaddr - 0x80000000).toNat := by
  have hConst : (0x80000000 : BitVec 64).toNat = 2 ^ 31 := rfl
  have hContains : r.contains vaddr = true := by
    simp only [contains, hBase, Bool.and_eq_true,
      decide_eq_true_eq, BitVec.le_def, BitVec.lt_def,
      BitVec.toNat_add, hConst]
    omega
  simp [ptr, hContains, hBase]

section RamAccess

variable {m : MemoryMap}
variable {r : MemoryRegion}
variable (hRam : m.RamIs r)
variable (hSize : r.size.toNat < 2 ^ 63)
variable (vaddr : BitVec 64)
variable (size : MemorySize)
variable (hLo : 2 ^ 31 ≤ vaddr.toNat)
variable (hHi :
  vaddr.toNat + size.bytes ≤ 2 ^ 31 + r.size.toNat)

include hRam hSize hLo hHi

theorem MemoryMap.load_ram :
    m.load vaddr (size.bytes * 8) =
      .ok (composeLe r.data (vaddr - 0x80000000).toNat
        size.bytes) := by
  obtain ⟨i, hDirect, hGet⟩ := ram_eq_ok_iff.mp hRam.ram
  have hPos := size.bytes_pos
  have hFind := findRegion_ram hDirect vaddr hLo
  have hPtr := MemoryRegion.ptr_ram hRam.base hSize vaddr hLo
    (by omega)
  have hOff := toNat_ramOffset vaddr hLo
  have hIn : (vaddr - 0x80000000).toNat + size.bytes ≤
      r.size.toNat := by
    omega
  have hRead : r.readAt (vaddr - 0x80000000).toNat size.bytes =
      .ok (composeLe r.data (vaddr - 0x80000000).toNat
        size.bytes) :=
    if_pos hIn
  simp only [load, hFind, hGet, hPtr, widthBytes_bytes, hRead,
    bind, Except.bind]

theorem MemoryMap.store_ram
    (val : BitVec 64) :
    m.store vaddr (size.bytes * 8) val =
      .ok (m.setRam { r with
        data := scatterLe r.data (vaddr - 0x80000000).toNat
          size.bytes val }) := by
  obtain ⟨i, hDirect, hGet⟩ := ram_eq_ok_iff.mp hRam.ram
  have hPos := size.bytes_pos
  have hFind := findRegion_ram hDirect vaddr hLo
  have hPtr := MemoryRegion.ptr_ram hRam.base hSize vaddr hLo
    (by omega)
  have hOff := toNat_ramOffset vaddr hLo
  have hIn : (vaddr - 0x80000000).toNat + size.bytes ≤
      r.size.toNat := by
    omega
  have hWrite : r.writeAt (vaddr - 0x80000000).toNat
      size.bytes val =
      .ok { r with
        data := scatterLe r.data (vaddr - 0x80000000).toNat
          size.bytes val } :=
    if_pos hIn
  simp only [store, hFind, hGet, hPtr, widthBytes_bytes,
    hWrite, setRam, hDirect, bind, Except.bind]

end RamAccess

/- The region of RAM in a well-formed state. -/
theorem State.Wf.ramIs
    {P : Platform σ}
    {s : State σ}
    (hWf : s.Wf P) :
    ∃ r, s.mem.RamIs r ∧ r.size = P.memsize :=
  hWf.hasRam.ramIs

section DramAccess

variable {P : Platform σ}
variable {s : State σ}
variable {r : MemoryRegion}
variable (hRam : s.mem.RamIs r)
variable (hSize : r.size = P.memsize)
variable {vaddr : BitVec 64}
variable {size : MemorySize}
variable (hDram : takesDram P vaddr size)
variable (hFit : vaddr.toNat + size.bytes < 2 ^ 64)

include hRam hSize hDram hFit

theorem State.mmioRead_dram :
    s.mmioRead P vaddr size =
      .ok (⟨true, 0, 0⟩,
        composeLe r.data (vaddr - 0x80000000).toNat
          size.bytes, s) := by
  obtain ⟨hLo, hHi⟩ := (takesDram_iff P vaddr size hFit).mp
    hDram
  have hOff := toNat_ramOffset vaddr hLo
  have hIn : (vaddr - 0x80000000).toNat + size.bytes ≤
      r.size.toNat := by
    rw [hSize]
    omega
  obtain ⟨hLoad, hLt⟩ := composeLe_eq_hostLoad r.data
    (vaddr - 0x80000000).toNat size.bytes size.bytes_le
  have hFast : s.readDramFast vaddr size =
      .ok (composeLe r.data (vaddr - 0x80000000).toNat
        size.bytes) := by
    simp only [readDramFast, hRam.ram, bind, Except.bind,
      if_pos hIn, ← hLoad, BitVec.ofNat_toNat,
      BitVec.setWidth_eq]
  have hTrunc : BitVec.ofNat 64
      ((composeLe r.data (vaddr - 0x80000000).toNat
        size.bytes).toNat % 256 ^ size.bytes) =
      composeLe r.data (vaddr - 0x80000000).toNat
        size.bytes := by
    rw [Nat.mod_eq_of_lt (by rw [hLoad]; exact hLt)]
    simp
  simp only [mmioRead, if_pos hDram, hFast, bind, Except.bind,
    hTrunc]

theorem State.mmioWrite_dram
    (hPages : pageIndex vaddr < s.jctx.pages)
    (val : BitVec 64) :
    ∃ s', s.mmioWrite P vaddr size val =
        .ok (⟨true, 0, 0⟩, s') ∧
      s'.mem = s.mem.setRam { r with
        data := scatterLe r.data (vaddr - 0x80000000).toNat
          size.bytes val } := by
  obtain ⟨hLo, hHi⟩ := (takesDram_iff P vaddr size hFit).mp
    hDram
  have hStore := MemoryMap.store_ram hRam
    (by rw [hSize]; exact P.memsize_lt) vaddr size hLo
    (by rw [hSize]; exact hHi) val
  have hBump : s.jctx.bumpPage vaddr = .ok { s.jctx with
      pageVerionBitmap := Function.update
        s.jctx.pageVerionBitmap (pageIndex vaddr)
        (s.jctx.pageVerionBitmap (pageIndex vaddr) + 1) } :=
    if_pos hPages
  simp only [mmioWrite, if_pos hDram, amoCheckReservation,
    setHart, hStore, hBump, bind, Except.bind]
  exact ⟨_, rfl, rfl⟩

end DramAccess

theorem scatterLe_touched
    (data : Bytes)
    (vaddr : BitVec 64)
    (size : MemorySize)
    (val : BitVec 64)
    (i : Nat)
    (h : touches vaddr size i) :
    scatterLe data (vaddr - 0x80000000).toNat size.bytes val i =
      (val >>> (8 * (i - (vaddr - 0x80000000).toNat))
        ).setWidth 8 :=
  if_pos h

theorem scatterLe_untouched
    (data : Bytes)
    (vaddr : BitVec 64)
    (size : MemorySize)
    (val : BitVec 64)
    (i : Nat)
    (h : ¬ touches vaddr size i) :
    scatterLe data (vaddr - 0x80000000).toNat size.bytes val i =
      data i :=
  if_neg h

theorem MemoryMap.ramBytes_of_ram
    {m : MemoryMap}
    {r : MemoryRegion}
    (h : m.ram = .ok r) :
    m.ramBytes = r.data := by
  simp [ramBytes, h]

/- The conditions suffice. -/
theorem dramAccessOk_of_fit
    {P : Platform σ}
    {s : State σ}
    (hWf : s.Wf P)
    {vaddr : BitVec 64}
    {size : MemorySize}
    (hDram : takesDram P vaddr size)
    (hFit : vaddr.toNat + size.bytes < 2 ^ 64)
    (hPages : pageIndex vaddr < s.jctx.pages)
    (val : BitVec 64) :
    DramAccessOk P s vaddr size val := by
  obtain ⟨r, hRam, hSize⟩ := hWf.ramIs
  obtain ⟨hLo, hHi⟩ := (takesDram_iff P vaddr size hFit).mp
    hDram
  have hOff := toNat_ramOffset vaddr hLo
  have hBytes := MemoryMap.ramBytes_of_ram hRam.ram
  obtain ⟨s', hWrite, hMem⟩ := State.mmioWrite_dram hRam hSize
    hDram hFit hPages val
  have hRam' : s'.mem.RamIs { r with
      data := scatterLe r.data (vaddr - 0x80000000).toNat
        size.bytes val } := by
    rw [hMem]
    exact ⟨MemoryMap.ram_setRam hRam.ram _, hRam.base⟩
  have hBytes' := MemoryMap.ramBytes_of_ram hRam'.ram
  refine ⟨by omega, ?_, ?_, s', hWrite, ?_, ?_, ?_, ?_⟩
  · rw [hBytes]
    exact State.mmioRead_dram hRam hSize hDram hFit
  · rw [hBytes]
    exact MemoryMap.load_ram hRam
      (by rw [hSize]; exact P.memsize_lt) vaddr size hLo
      (by rw [hSize]; exact hHi)
  · intro i hTouch
    rw [hBytes']
    exact scatterLe_touched r.data vaddr size val i hTouch
  · intro i hTouch
    rw [hBytes', hBytes]
    exact scatterLe_untouched r.data vaddr size val i hTouch
  · intro i hOther
    obtain ⟨k, hDirect, -⟩ := MemoryMap.ram_eq_ok_iff.mp hRam.ram
    have hNe : k ≠ i := by
      rintro rfl
      exact hOther hDirect
    rw [hMem]
    simp [MemoryMap.setRam, hDirect, hNe]
  · rw [State.mmioRead_dram hRam' hSize hDram hFit]
    have hValue := (composeLe_eq_hostLoad
      (scatterLe r.data (vaddr - 0x80000000).toNat size.bytes
        val) (vaddr - 0x80000000).toNat size.bytes
      size.bytes_le).1
    rw [hostLoad_scatterLe r.data _ size.bytes size.bytes val
      le_rfl] at hValue
    rw [← hValue, BitVec.ofNat_toNat, BitVec.setWidth_eq]

/- An access that wraps around lies outside of RAM. -/
theorem fit_of_dramAccessOk
    {P : Platform σ}
    {s : State σ}
    {vaddr : BitVec 64}
    {size : MemorySize}
    {val : BitVec 64}
    (hDram : takesDram P vaddr size)
    (hOk : DramAccessOk P s vaddr size val) :
    vaddr.toNat + size.bytes < 2 ^ 64 := by
  have hLo : 2 ^ 31 ≤ vaddr.toNat := hDram.1
  have hOff := toNat_ramOffset vaddr hLo
  have hInside := hOk.inside
  have hMem := P.memsize_lt
  omega

/- A write that succeeds has found its page counter. -/
theorem pages_of_dramAccessOk
    {P : Platform σ}
    {s : State σ}
    {vaddr : BitVec 64}
    {size : MemorySize}
    {val : BitVec 64}
    (hDram : takesDram P vaddr size)
    (hOk : DramAccessOk P s vaddr size val) :
    pageIndex vaddr < s.jctx.pages := by
  obtain ⟨s', hWrite, -⟩ := hOk.write
  by_contra hNot
  have hBump : s.jctx.bumpPage vaddr = .error .outOfBounds :=
    if_neg hNot
  simp only [State.mmioWrite, if_pos hDram,
    State.amoCheckReservation, State.setHart, hBump, bind,
    Except.bind] at hWrite
  split at hWrite <;> cases hWrite

/-
  Accesses that take the RAM branch behave as memory exactly
  when they do not wrap around the address space and their
  page has a version counter; there is none for a last page
  that RAM fills only in part.
-/
theorem dram_access_ok_iff
    (P : Platform σ)
    (s : State σ)
    (hWf : s.Wf P)
    (vaddr : BitVec 64)
    (size : MemorySize)
    (val : BitVec 64) :
    (takesDram P vaddr size →
        DramAccessOk P s vaddr size val) ↔
      (takesDram P vaddr size →
        vaddr.toNat + size.bytes < 2 ^ 64 ∧
          pageIndex vaddr < (P.memsize >>> 12).toNat) := by
  have hPages : s.jctx.pages = (P.memsize >>> 12).toNat := by
    rw [JitContext.pages, hWf.memorySize]
  rw [← hPages]
  constructor
  · intro hOk hDram
    exact ⟨fit_of_dramAccessOk hDram (hOk hDram),
      pages_of_dramAccessOk hDram (hOk hDram)⟩
  · intro hCond hDram
    obtain ⟨hFit, hPage⟩ := hCond hDram
    exact dramAccessOk_of_fit hWf hDram hFit hPage val

/- A machine of 1 MiB that was just started. -/
theorem State.boot_wf :
    (State.boot []).Wf Platform.bare :=
  ⟨⟨0, _, rfl, rfl, rfl, rfl⟩, rfl⟩

theorem State.Wf.setGpr
    {P : Platform σ}
    {s : State σ}
    (h : s.Wf P)
    (r : BitVec 5)
    (v : BitVec 64) :
    (s.setGpr r v).Wf P :=
  ⟨h.hasRam, h.memorySize⟩

/- The last byte below the size. -/
theorem dram_access_ok_last_byte :
    takesDram Platform.bare 0x800FFFFF .Byte ∧
      DramAccessOk Platform.bare (State.boot []) 0x800FFFFF
        .Byte 0x1FF := by
  have hDram : takesDram Platform.bare 0x800FFFFF .Byte := by
    decide
  refine ⟨hDram, ?_⟩
  exact (dram_access_ok_iff Platform.bare (State.boot [])
    State.boot_wf 0x800FFFFF .Byte 0x1FF).mpr
    (fun _ => by decide) hDram

/- The top of the address space passes the test for RAM. -/
theorem dram_access_not_ok_top :
    (State.boot []).Wf Platform.bare ∧
      takesDram Platform.bare 0xFFFFFFFFFFFFFFFF .Byte ∧
      ¬ DramAccessOk Platform.bare (State.boot [])
        0xFFFFFFFFFFFFFFFF .Byte 0 := by
  refine ⟨State.boot_wf, by decide, ?_⟩
  intro hOk
  have hInside := hOk.inside
  exact absurd hInside (by decide)

end RiscvEm
