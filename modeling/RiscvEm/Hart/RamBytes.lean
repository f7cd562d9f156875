import RiscvEm.Hart.InstructionFrame
import RiscvEm.Lib.ByteCodec

/-
  The bytes of RAM: accesses that lie in it, of any size, and
  what they leave alone.

  Key definitions include:
    * `RamRange`
    * `State.ramByte`
    * `OnlyRamBytes`

  Key theorems include `State.Wf.write_ram`.
-/

------------------------------------------------------------
-- Definitions
------------------------------------------------------------

namespace RiscvEm

open ByteCodec (Byte)

variable {σ : Type}
variable {P : Platform σ}
variable {s s' s'' : State σ}

/- The `n` bytes from `a` on lie in whole pages of RAM. -/
structure RamRange
    (P : Platform σ)
    (a : BitVec 64)
    (n : Nat) : Prop where
  low : 2 ^ 31 ≤ a.toNat
  high : a.toNat + n ≤
    2 ^ 31 + 4096 * (P.memsize >>> 12).toNat

/- The byte of RAM at an address. -/
def State.ramByte
    (s : State σ)
    (a : BitVec 64) : Byte :=
  s.mem.ramBytes (a - 0x80000000).toNat

/-
  The states differ at most in the region of RAM, the
  versions of pages, the reservation of the hart and the
  trace.
-/
structure OnlyRamBytes
    (s s' : State σ) : Prop where
  hart : s'.hart = { s.hart with
    reservation := s'.hart.reservation }
  jctx : s'.jctx = { s.jctx with
    pageVerionBitmap := s'.jctx.pageVerionBitmap }
  rest : s' = { s with
    hart := s'.hart
    mem := s'.mem
    jctx := s'.jctx
    trace := s'.trace }
  direct : s'.mem.ramDirect = s.mem.ramDirect
  regions : ∀ i, s.mem.ramDirect ≠ some i →
    s'.mem.regions[i]? = s.mem.regions[i]?

namespace OnlyRamBytes

theorem refl
    (s : State σ) :
    OnlyRamBytes s s :=
  ⟨rfl, rfl, rfl, rfl, fun _ _ => rfl⟩

theorem trans
    (h : OnlyRamBytes s s')
    (h' : OnlyRamBytes s' s'') :
    OnlyRamBytes s s'' := by
  refine ⟨?_, ?_, ?_, ?_, ?_⟩
  · rw [h'.hart, h.hart]
  · rw [h'.jctx, h.jctx]
  · rw [h'.rest, h.rest]
  · rw [h'.direct, h.direct]
  · intro i hOther
    rw [h'.regions i (by rw [h.direct]; exact hOther),
      h.regions i hOther]

end OnlyRamBytes

end RiscvEm

------------------------------------------------------------
-- Ranges
------------------------------------------------------------

namespace RiscvEm

variable {σ : Type}
variable {P : Platform σ}
variable {s : State σ}

namespace RamRange

variable {a : BitVec 64}
variable {n i k : Nat}

theorem le_memsize
    (P : Platform σ) :
    4096 * (P.memsize >>> 12).toNat ≤ P.memsize.toNat := by
  rw [BitVec.toNat_ushiftRight, Nat.shiftRight_eq_div_pow]
  exact Nat.mul_div_le _ _

/- Addresses in the range do not wrap. -/
theorem byte
    (h : RamRange P a n)
    (hi : i ≤ n) :
    (a + BitVec.ofNat 64 i).toNat = a.toNat + i := by
  have hHigh := h.high
  have hLe := le_memsize P
  have hMem := P.memsize_lt
  rw [BitVec.toNat_add, BitVec.toNat_ofNat]
  omega

theorem offset
    (h : RamRange P a n)
    (hi : i ≤ n) :
    (a + BitVec.ofNat 64 i - 0x80000000).toNat =
      (a - 0x80000000).toNat + i := by
  have hLow := h.low
  have hByte := h.byte hi
  rw [toNat_ramOffset _ (by rw [hByte]; omega), hByte,
    toNat_ramOffset _ hLow]
  omega

/- A part of a range. -/
theorem sub
    (h : RamRange P a n)
    (hFit : i + k ≤ n) :
    RamRange P (a + BitVec.ofNat 64 i) k := by
  have hByte := h.byte (i := i) (by omega)
  have hLow := h.low
  have hHigh := h.high
  constructor <;> rw [hByte] <;> omega

/- An access of the size of the range is one to RAM. -/
theorem access
    {size : MemorySize}
    (h : RamRange P a size.bytes)
    (hWf : s.Wf P) :
    takesDram P a size ∧
      a.toNat + size.bytes < 2 ^ 64 ∧
      pageIndex a < s.jctx.pages := by
  have hLow := h.low
  have hHigh := h.high
  have hLe := le_memsize P
  have hMem := P.memsize_lt
  have hOff := toNat_ramOffset a hLow
  have hPos : 1 ≤ size.bytes := by
    cases size <;> decide
  have hFit : a.toNat + size.bytes < 2 ^ 64 := by omega
  have hDram : takesDram P a size := by
    rw [takesDram_iff P _ _ hFit]
    omega
  refine ⟨hDram, hFit, ?_⟩
  unfold pageIndex JitContext.pages
  rw [hWf.memorySize]
  rw [BitVec.toNat_ushiftRight, Nat.shiftRight_eq_div_pow,
    hOff]
  omega

end RamRange

end RiscvEm

------------------------------------------------------------
-- Accesses
------------------------------------------------------------

namespace RiscvEm

open ByteCodec (Byte)

variable {σ : Type}
variable {P : Platform σ}
variable {s : State σ}
variable {a : BitVec 64}

theorem MemoryMap.HasRam.setData
    {m : MemoryMap}
    {r : MemoryRegion}
    {memsize : BitVec 64}
    (h : m.HasRam memsize)
    (hRam : m.RamIs r)
    (hSize : r.size = memsize)
    (data : Bytes) :
    (m.setRam { r with data := data }).HasRam memsize := by
  obtain ⟨i, r₀, hDirect, hGet, -⟩ := h
  have hLt : i < m.regions.length :=
    (List.getElem?_eq_some_iff.mp hGet).1
  refine ⟨i, { r with data := data }, ?_, ?_, hRam.base,
    hSize⟩
  · unfold MemoryMap.setRam
    rw [hDirect]
  · unfold MemoryMap.setRam
    rw [hDirect]
    exact List.getElem?_set_self hLt

/- The bytes of a write, by their distance to its address. -/
theorem scatterLe_apart
    {n : Nat}
    (h : RamRange P a n)
    (val : BitVec 64)
    (data : Bytes)
    (c : BitVec 64) :
    scatterLe data (a - 0x80000000).toNat n val
        (c - 0x80000000).toNat =
      if (c - a).toNat < n then
        (val >>> (8 * (c - a).toNat)).setWidth 8
      else
        data (c - 0x80000000).toNat := by
  have hLow := h.low
  have hHigh := h.high
  have hLe := RamRange.le_memsize P
  have hMem := P.memsize_lt
  have hOff := toNat_ramOffset a hLow
  have hBase : (0x80000000 : BitVec 64).toNat = 2 ^ 31 := rfl
  have hC := c.isLt
  have hIn : (a - 0x80000000).toNat ≤ (c - 0x80000000).toNat ∧
      (c - 0x80000000).toNat < (a - 0x80000000).toNat + n ↔
      (c - a).toNat < n := by
    rw [hOff, BitVec.toNat_sub, BitVec.toNat_sub, hBase]
    omega
  unfold scatterLe
  by_cases hLt : (c - a).toNat < n
  · have hPlace : (c - 0x80000000).toNat -
        (a - 0x80000000).toNat = (c - a).toNat := by
      have hBoth := hIn.mpr hLt
      rw [hOff, BitVec.toNat_sub, hBase] at hBoth ⊢
      rw [BitVec.toNat_sub] at hLt ⊢
      omega
    rw [if_pos (hIn.mpr hLt), if_pos hLt, hPlace]
  · rw [if_neg (mt hIn.mp hLt), if_neg hLt]

/- A read in a range composes its bytes. -/
theorem State.Wf.read_ram
    {size : MemorySize}
    (hWf : s.Wf P)
    (h : RamRange P a size.bytes) :
    s.mmioRead P a size =
      .ok (⟨true, 0, 0⟩,
        composeLe s.mem.ramBytes (a - 0x80000000).toNat
          size.bytes, s) := by
  obtain ⟨hDram, hFit, hPages⟩ := h.access hWf
  exact (dramAccessOk_of_fit hWf hDram hFit hPages 0).read

/- A write in a range changes its bytes. -/
theorem State.Wf.write_ram
    {size : MemorySize}
    (hWf : s.Wf P)
    (h : RamRange P a size.bytes)
    (val : BitVec 64) :
    ∃ s', s.mmioWrite P a size val =
        .ok (⟨true, 0, 0⟩, s') ∧
      s'.Wf P ∧ OnlyRamBytes s s' ∧
      ∀ c, s'.ramByte c =
        if (c - a).toNat < size.bytes then
          (val >>> (8 * (c - a).toNat)).setWidth 8
        else
          s.ramByte c := by
  obtain ⟨hDram, hFit, hPages⟩ := h.access hWf
  obtain ⟨r, hRam, hSize⟩ := hWf.ramIs
  obtain ⟨s', hWrite, hMem⟩ := State.mmioWrite_dram hRam hSize
    hDram hFit hPages val
  rcases State.mmioWrite_steps hWrite with
    ⟨-, -, mem, jctx, -, hBump, rfl⟩ |
    ⟨hNot, -⟩ | ⟨hNot, -⟩
  · have hFrame := ExecKept.bumpPage hBump
    obtain ⟨k, hDirect, -⟩ :=
      MemoryMap.ram_eq_ok_iff.mp hRam.ram
    refine ⟨_, hWrite, ⟨?_, ?_⟩,
      ⟨rfl, hFrame, rfl, ?_, ?_⟩, ?_⟩
    · rw [hMem]
      exact hWf.hasRam.setData hRam hSize _
    · change jctx.memorySize = _
      rw [hFrame]
      exact hWf.memorySize
    · rw [hMem]
      simp [MemoryMap.setRam, hDirect]
    · intro i hOther
      have hNe : k ≠ i := by
        rintro rfl
        exact hOther hDirect
      rw [hMem]
      simp [MemoryMap.setRam, hDirect, hNe]
    · intro c
      unfold State.ramByte
      rw [hMem, MemoryMap.ramBytes_of_ram hRam.ram,
        MemoryMap.ramBytes_of_ram
          (MemoryMap.ram_setRam hRam.ram _)]
      exact scatterLe_apart h val r.data c
  · exact absurd hDram hNot
  · exact absurd hDram hNot

end RiscvEm
