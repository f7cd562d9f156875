import RiscvEm.Memory.Accessors
import RiscvEm.Memory.DeviceWindows

/-
  The framebuffer and the accesses that the bus forwards to
  it.

  The window of the device is four bytes longer than the
  pixel buffer, and the device tests only where an access
  begins.

  Key definitions include:
    * `framebuffer`
    * `FramebufferOk`

  Key theorems include `framebuffer_never_ok`.
-/

------------------------------------------------------------
-- The Device
------------------------------------------------------------

namespace RiscvEm

variable {σ : Type}

/- Where the devices keep the bytes of the pixel buffer. -/
structure PixelStore (σ : Type) where
  get : σ → Bytes
  set : σ → Bytes → σ

/- `main` creates the framebuffer at this address. -/
def FRAMEBUFFER_START : BitVec 64 := 0x18000000

/- `size_t arr_size = width * height * 4`. -/
def arrSize
    (width height : BitVec 64) : BitVec 64 :=
  width * height * 4

namespace Framebuffer

def windowSize
    (width height : BitVec 64) : BitVec 64 :=
  width * height * 4 + 4

def read
    (store : PixelStore σ)
    (width height : BitVec 64)
    (addr : BitVec 64)
    (sz : MemorySize)
    (w : DevWorld σ) :
    Except HostFault (BitVec 64 × DevWorld σ) :=
  let offs := addr - FRAMEBUFFER_START
  if windowSize width height ≤ offs then
    .ok (0, w)
  else if offs.toNat + sz.bytes ≤
      (arrSize width height).toNat then
    .ok (BitVec.ofNat 64
      (hostLoad (store.get w.dev) offs.toNat sz.bytes), w)
  else
    .error .outOfBounds

def write
    (store : PixelStore σ)
    (width height : BitVec 64)
    (addr : BitVec 64)
    (sz : MemorySize)
    (val : BitVec 64)
    (w : DevWorld σ)
    (mem : MemoryMap) :
    Except HostFault (DevWorld σ × MemoryMap) :=
  let offs := addr - FRAMEBUFFER_START
  if windowSize width height ≤ offs then
    .ok (w, mem)
  else if offs.toNat + sz.bytes ≤
      (arrSize width height).toNat then
    let buffer := scatterLe (store.get w.dev) offs.toNat
      sz.bytes val
    .ok ({ w with dev := store.set w.dev buffer }, mem)
  else
    .error .outOfBounds

end Framebuffer

def framebuffer
    (store : PixelStore σ)
    (width height : BitVec 64) : Device σ :=
  { start := FRAMEBUFFER_START
    size := Framebuffer.windowSize width height
    read := Framebuffer.read store width height
    write := Framebuffer.write store width height }

/- An access begins at an offset into the buffer. -/
def Hits
    (addr : BitVec 64)
    (offs : Nat) : Prop :=
  (addr - FRAMEBUFFER_START).toNat = offs

/-
  What the bus forwards stays in the buffer, and every byte
  and every pixel of the buffer can be read and written.
-/
structure FramebufferOk
    (P : Platform σ)
    (store : PixelStore σ)
    (width height : BitVec 64) : Prop where
  readsInside : ∀ addr sz w,
    readDevice P addr sz =
        some (framebuffer store width height) →
    InBounds ((framebuffer store width height).read addr sz w)
  writesInside : ∀ addr sz val w mem,
    writeDevice P addr sz =
        some (framebuffer store width height) →
    InBounds ((framebuffer store width height).write
      addr sz val w mem)
  bytesReadable : ∀ i < (arrSize width height).toNat,
    ∃ addr, Hits addr i ∧ readDevice P addr .Byte =
      some (framebuffer store width height)
  bytesWritable : ∀ i < (arrSize width height).toNat,
    ∃ addr, Hits addr i ∧ writeDevice P addr .Byte =
      some (framebuffer store width height)
  pixelsReadable : ∀ i < width.toNat * height.toNat,
    ∃ addr, Hits addr (4 * i) ∧ readDevice P addr .Int =
      some (framebuffer store width height)
  pixelsWritable : ∀ i < width.toNat * height.toNat,
    ∃ addr, Hits addr (4 * i) ∧ writeDevice P addr .Int =
      some (framebuffer store width height)

/-
  The machine has the framebuffer, and the windows of its
  other devices end below it.
-/
structure HasFramebuffer
    (P : Platform σ)
    (fb : Device σ) : Prop where
  mem : fb ∈ P.devs
  others : ∀ d ∈ P.devs, d = fb ∨
    8 ≤ d.start.toNat + d.size.toNat ∧
      d.start.toNat + d.size.toNat ≤
        FRAMEBUFFER_START.toNat

end RiscvEm

------------------------------------------------------------
-- What Is Forwarded
------------------------------------------------------------

namespace RiscvEm

variable {σ : Type}
variable {P : Platform σ}
variable {store : PixelStore σ}
variable {width height : BitVec 64}
variable {addr : BitVec 64}
variable {sz : MemorySize}

theorem find?_eq_of_unique
    {α : Type}
    {p : α → Bool}
    {x : α}
    {xs : List α}
    (hMem : x ∈ xs)
    (hOk : p x = true)
    (hUnique : ∀ y ∈ xs, p y = true → y = x) :
    xs.find? p = some x := by
  cases hFind : xs.find? p with
  | none =>
      exact absurd hOk (List.find?_eq_none.mp hFind x hMem)
  | some y =>
      rw [hUnique y (List.mem_of_find?_eq_some hFind)
        (List.find?_some hFind)]

/- The length of the buffer is a multiple of four. -/
theorem arrSize_mod
    (width height : BitVec 64) :
    (arrSize width height).toNat % 4 = 0 := by
  unfold arrSize
  rw [BitVec.toNat_mul]
  have hFour : (4 : BitVec 64).toNat = 4 := rfl
  rw [hFour]
  omega

theorem windowSize_toNat
    (width height : BitVec 64) :
    (Framebuffer.windowSize width height).toNat =
      ((arrSize width height).toNat + 4) % 2 ^ 64 := by
  unfold Framebuffer.windowSize arrSize
  rw [BitVec.toNat_add]
  rfl

theorem framebuffer_start_toNat :
    FRAMEBUFFER_START.toNat = 0x18000000 :=
  rfl

/- The offset of an address at or above the begin. -/
theorem offset_toNat
    (h : 0x18000000 ≤ addr.toNat) :
    (addr - FRAMEBUFFER_START).toNat =
      addr.toNat - 0x18000000 := by
  rw [BitVec.toNat_sub, framebuffer_start_toNat]
  have hLt := addr.isLt
  omega

/- The window of the framebuffer does not wrap. -/
def WindowFits
    (width height : BitVec 64) : Prop :=
  0x18000000 + (arrSize width height).toNat + 4 < 2 ^ 64

theorem framebuffer_inReadWindow_iff
    (hFits : WindowFits width height) :
    (framebuffer store width height).inReadWindow addr sz =
        true ↔
      0x18000000 ≤ addr.toNat ∧
        addr.toNat + sz.bytes ≤
          0x18000000 + (arrSize width height).toNat + 4 := by
  rw [Device.inReadWindow_iff]
  change FRAMEBUFFER_START.toNat ≤ _ ∧ _ <
    (FRAMEBUFFER_START.toNat + (Framebuffer.windowSize width
      height).toNat + 2 ^ 64 - _ + 1) % 2 ^ 64 ↔ _
  rw [windowSize_toNat, framebuffer_start_toNat]
  have hSize := sz.bytes_bounds
  unfold WindowFits at hFits
  omega

theorem framebuffer_inWriteWindow_iff
    (hFits : WindowFits width height) :
    (framebuffer store width height).inWriteWindow addr sz =
        true ↔
      0x18000000 ≤ addr.toNat ∧
        addr.toNat + sz.bytes <
          0x18000000 + (arrSize width height).toNat + 4 := by
  rw [Device.inWriteWindow_iff]
  change FRAMEBUFFER_START.toNat ≤ _ ∧ _ <
    (FRAMEBUFFER_START.toNat + (Framebuffer.windowSize width
      height).toNat + 2 ^ 64 - _) % 2 ^ 64 ↔ _
  rw [windowSize_toNat, framebuffer_start_toNat]
  have hSize := sz.bytes_bounds
  unfold WindowFits at hFits
  omega

/- A window that wraps is empty for bytes. -/
theorem framebuffer_not_inReadWindow
    (hWraps : ¬ WindowFits width height) :
    (framebuffer store width height).inReadWindow addr .Byte ≠
      true := by
  rw [Ne, Device.inReadWindow_iff]
  change ¬ (FRAMEBUFFER_START.toNat ≤ _ ∧ _ <
    (FRAMEBUFFER_START.toNat + (Framebuffer.windowSize width
      height).toNat + 2 ^ 64 - 1 + 1) % 2 ^ 64)
  rw [windowSize_toNat, framebuffer_start_toNat]
  have hMod := arrSize_mod width height
  have hLt := (arrSize width height).isLt
  unfold WindowFits at hWraps
  omega

/- Nothing from the framebuffer on reaches another device. -/
theorem HasFramebuffer.read_unique
    {fb : Device σ}
    (hFb : HasFramebuffer P fb)
    (hAddr : 0x18000000 ≤ addr.toNat) :
    ∀ d ∈ P.devs, d.inReadWindow addr sz = true → d = fb := by
  intro d hMem hIn
  rcases hFb.others d hMem with hEq | ⟨hLow, hHigh⟩
  · exact hEq
  · rw [Device.inReadWindow_iff] at hIn
    rw [framebuffer_start_toNat] at hHigh
    have hSize := sz.bytes_bounds
    omega

theorem HasFramebuffer.write_unique
    {fb : Device σ}
    (hFb : HasFramebuffer P fb)
    (hAddr : 0x18000000 ≤ addr.toNat) :
    ∀ d ∈ P.devs, d.inWriteWindow addr sz = true → d = fb := by
  intro d hMem hIn
  rcases hFb.others d hMem with hEq | ⟨hLow, hHigh⟩
  · exact hEq
  · rw [Device.inWriteWindow_iff] at hIn
    rw [framebuffer_start_toNat] at hHigh
    have hSize := sz.bytes_bounds
    omega

theorem HasFramebuffer.readDevice_eq
    (hFb : HasFramebuffer P (framebuffer store width height))
    (hRam : ¬ takesDram P addr sz)
    (hIn : (framebuffer store width height).inReadWindow
      addr sz = true) :
    readDevice P addr sz =
      some (framebuffer store width height) := by
  unfold readDevice
  rw [if_neg hRam]
  refine find?_eq_of_unique (p := (·.inReadWindow addr sz))
    hFb.mem hIn (hFb.read_unique ?_)
  exact ((Device.inReadWindow_iff _ _ _).mp hIn).1

theorem HasFramebuffer.writeDevice_eq
    (hFb : HasFramebuffer P (framebuffer store width height))
    (hRam : ¬ takesDram P addr sz)
    (hIn : (framebuffer store width height).inWriteWindow
      addr sz = true) :
    writeDevice P addr sz =
      some (framebuffer store width height) := by
  unfold writeDevice
  rw [if_neg hRam]
  refine find?_eq_of_unique (p := (·.inWriteWindow addr sz))
    hFb.mem hIn (hFb.write_unique ?_)
  exact ((Device.inWriteWindow_iff _ _ _).mp hIn).1

theorem readDevice_some
    {dev : Device σ}
    (h : readDevice P addr sz = some dev) :
    ¬ takesDram P addr sz ∧
      dev.inReadWindow addr sz = true := by
  unfold readDevice at h
  split at h
  case isTrue => cases h
  case isFalse hRam =>
    have hFind : P.devs.find? (·.inReadWindow addr sz) =
        some dev := h
    have hIn := List.find?_some hFind
    exact ⟨hRam, hIn⟩

end RiscvEm

------------------------------------------------------------
-- Accesses Past The Buffer
------------------------------------------------------------

namespace RiscvEm

variable {σ : Type}
variable {P : Platform σ}
variable {store : PixelStore σ}
variable {width height : BitVec 64}
variable {addr : BitVec 64}
variable {sz : MemorySize}

/- In the window, only the length of the buffer matters. -/
theorem framebuffer_read_inBounds_iff
    (hFits : WindowFits width height)
    (hLow : 0x18000000 ≤ addr.toNat)
    (hHigh : addr.toNat <
      0x18000000 + (arrSize width height).toNat + 4)
    (w : DevWorld σ) :
    InBounds ((framebuffer store width height).read
        addr sz w) ↔
      addr.toNat + sz.bytes ≤
        0x18000000 + (arrSize width height).toNat := by
  have hOffs := offset_toNat hLow
  have hBegin : ¬ Framebuffer.windowSize width height ≤
      addr - FRAMEBUFFER_START := by
    rw [BitVec.le_def, windowSize_toNat, hOffs]
    unfold WindowFits at hFits
    omega
  change InBounds (Framebuffer.read _ _ _ _ _ _) ↔ _
  unfold Framebuffer.read
  dsimp only
  rw [if_neg hBegin, inBounds_ite_iff, hOffs]
  omega

/- Bytes of the buffer that lie in RAM's place are hidden. -/
theorem byte_hidden_by_ram
    {a : BitVec 64}
    (hRam : takesDram P a .Int)
    (hFit : a.toNat + 4 < 2 ^ 64)
    (hHits : Hits addr (2 ^ 31 - 0x18000000)) :
    readDevice P addr .Byte = none := by
  have hRange := (takesDram_iff P a .Int hFit).mp hRam
  have hBytes : MemorySize.Int.bytes = 4 := rfl
  have hByte : MemorySize.Byte.bytes = 1 := rfl
  have hAddr : addr.toNat = 2 ^ 31 := by
    unfold Hits at hHits
    rw [BitVec.toNat_sub, framebuffer_start_toNat] at hHits
    have hLt := addr.isLt
    omega
  unfold readDevice
  refine if_pos ((takesDram_iff P addr .Byte ?_).mpr ?_)
  · rw [hAddr]
    decide
  · rw [hAddr, hByte]
    rw [hBytes] at hRange
    omega

/- An access that ends past the buffer is let through. -/
theorem framebuffer_leaves_buffer
    (hFb : HasFramebuffer P (framebuffer store width height))
    (hFits : WindowFits width height)
    (hRam : ¬ takesDram P addr sz)
    (hLow : 0x18000000 ≤ addr.toNat)
    (hPast : 0x18000000 + (arrSize width height).toNat <
      addr.toNat + sz.bytes)
    (hIn : addr.toNat + sz.bytes ≤
      0x18000000 + (arrSize width height).toNat + 4)
    (w : DevWorld σ) :
    readDevice P addr sz =
        some (framebuffer store width height) ∧
      ¬ InBounds ((framebuffer store width height).read
        addr sz w) := by
  have hSize := sz.bytes_bounds
  constructor
  · exact hFb.readDevice_eq hRam
      ((framebuffer_inReadWindow_iff hFits).mpr ⟨hLow, hIn⟩)
  · rw [framebuffer_read_inBounds_iff hFits hLow (by omega)]
    omega

/-
  Whatever the resolution, an access leaves the buffer or a
  byte of it is out of reach.
-/
theorem framebuffer_never_ok
    (P : Platform σ)
    (store : PixelStore σ)
    (width height : BitVec 64)
    (w : DevWorld σ)
    (hFb : HasFramebuffer P (framebuffer store width height)) :
    ¬ FramebufferOk P store width height := by
  intro hOk
  have hInt : MemorySize.Int.bytes = 4 := rfl
  have hByte : MemorySize.Byte.bytes = 1 := rfl
  have hMod := arrSize_mod width height
  have hLt := (arrSize width height).isLt
  by_cases hFits : WindowFits width height
  case neg =>
    -- a window that wraps hides the first byte
    have hPos : 0 < (arrSize width height).toNat := by
      unfold WindowFits at hFits
      omega
    rcases hOk.bytesReadable 0 hPos with ⟨addr, -, hRead⟩
    exact framebuffer_not_inReadWindow hFits
      (readDevice_some hRead).2
  case pos =>
    have hEnd := hFits
    unfold WindowFits at hEnd
    by_cases hEmpty : (arrSize width height).toNat = 0
    case pos =>
      -- without pixels, the first byte is past the end
      have hRam : ¬ takesDram P FRAMEBUFFER_START .Byte := by
        rw [takesDram_iff _ _ _ (by decide),
          framebuffer_start_toNat]
        omega
      rcases framebuffer_leaves_buffer hFb hFits hRam
        (Nat.le_refl _) (by
          rw [framebuffer_start_toNat, hByte]
          omega) (by
          rw [framebuffer_start_toNat, hByte]
          omega) w with ⟨hRead, hLeaves⟩
      exact hLeaves (hOk.readsInside _ _ w hRead)
    case neg =>
      -- a word at the last byte leaves the buffer, or RAM
      -- takes it and hides the bytes from 2 GiB on
      have hAddr : ∃ a : BitVec 64, a.toNat =
          0x18000000 + (arrSize width height).toNat - 1 :=
        ⟨BitVec.ofNat 64 _, by
          rw [BitVec.toNat_ofNat]
          exact Nat.mod_eq_of_lt (by omega)⟩
      rcases hAddr with ⟨a, hAddr⟩
      by_cases hRam : takesDram P a .Int
      case pos =>
        have hFit : a.toNat + 4 < 2 ^ 64 := by omega
        have hTop := (takesDram_iff P a .Int hFit).mp hRam
        rcases hOk.bytesReadable (2 ^ 31 - 0x18000000)
          (by omega) with ⟨addr, hHits, hRead⟩
        rw [byte_hidden_by_ram hRam hFit hHits] at hRead
        cases hRead
      case neg =>
        rcases framebuffer_leaves_buffer hFb hFits hRam
          (by omega) (by rw [hInt]; omega)
          (by rw [hInt]; omega) w with ⟨hRead, hLeaves⟩
        exact hLeaves (hOk.readsInside _ _ w hRead)

/-
  Below RAM every byte and every pixel of the buffer can be
  read and written.
-/
theorem framebuffer_reachable
    (hFb : HasFramebuffer P (framebuffer store width height))
    (hBelow : 0x18000000 + (arrSize width height).toNat + 4 ≤
      2 ^ 31)
    (offs : Nat)
    (hOffs : offs + sz.bytes ≤
      (arrSize width height).toNat) :
    ∃ addr, Hits addr offs ∧
      readDevice P addr sz =
        some (framebuffer store width height) ∧
      writeDevice P addr sz =
        some (framebuffer store width height) := by
  have hSize := sz.bytes_bounds
  have hFits : WindowFits width height := by
    unfold WindowFits
    omega
  have hAddr : (BitVec.ofNat 64 (0x18000000 + offs)).toNat =
      0x18000000 + offs := by
    rw [BitVec.toNat_ofNat]
    exact Nat.mod_eq_of_lt (by omega)
  have hRam : ¬ takesDram P
      (BitVec.ofNat 64 (0x18000000 + offs)) sz := by
    rw [takesDram_iff _ _ _ (by omega), hAddr]
    omega
  refine ⟨BitVec.ofNat 64 (0x18000000 + offs), ?_, ?_, ?_⟩
  · unfold Hits
    rw [offset_toNat (by omega), hAddr]
    omega
  · refine hFb.readDevice_eq hRam
      ((framebuffer_inReadWindow_iff hFits).mpr ?_)
    omega
  · refine hFb.writeDevice_eq hRam
      ((framebuffer_inWriteWindow_iff hFits).mpr ?_)
    omega

end RiscvEm

------------------------------------------------------------
-- The Default Resolution
------------------------------------------------------------

namespace RiscvEm

/- The pixels are all there is. -/
def PixelStore.whole : PixelStore Bytes :=
  { get := id
    set := fun _ buffer => buffer }

/- The framebuffer of `-fb` without a size. -/
def framebufferDefault : Device Bytes :=
  framebuffer .whole 640 480

def Platform.withFramebuffer : Platform Bytes :=
  Platform.bare.withDevs
    [{ start := 0x10000000
       size := 0x100
       read := fun _ _ w => .ok (0, w)
       write := fun _ _ _ w m => .ok (w, m) },
     framebufferDefault]

theorem framebuffer_default_never_ok :
    ¬ FramebufferOk Platform.withFramebuffer .whole
      640 480 := by
  refine framebuffer_never_ok Platform.withFramebuffer .whole
    640 480 ⟨fun _ => 0, fun _ => ⟨0, 0, 0⟩⟩ ⟨?_, ?_⟩
  · exact List.mem_cons_of_mem _ (List.mem_singleton_self _)
  · intro d hMem
    rcases List.mem_cons.mp hMem with rfl | hMem
    · exact Or.inr (by decide)
    · exact Or.inl (List.mem_singleton.mp hMem)

/- The byte after the last pixel is read from the device. -/
theorem framebuffer_read_past_end :
    readDevice Platform.withFramebuffer 0x1812C000 .Byte =
        some framebufferDefault ∧
      framebufferDefault.read 0x1812C000 .Byte
          ⟨fun _ => 0, fun _ => ⟨0, 0, 0⟩⟩ =
        .error .outOfBounds ∧
      ¬ FramebufferOk Platform.withFramebuffer .whole
        640 480 := by
  refine ⟨rfl, rfl, fun hOk => ?_⟩
  have hIn := hOk.readsInside 0x1812C000 .Byte
    ⟨fun _ => 0, fun _ => ⟨0, 0, 0⟩⟩ rfl
  exact hIn rfl

end RiscvEm
