import RiscvEm.Jit.Context
import RiscvEm.Memory.MemoryMap

/-
  The state that a hart works on, and the platform it runs
  on: devices, host floating point and the layout of host
  memory.

  Devices are given by their read and write functions over a
  device state. What they share with the harts, the pending
  interrupts, `csrs[CSR_TIME]` and `stimecmp`, is kept in the
  device world.

  Key definitions include:
    * `Device`
    * `Platform`
    * `Hart`
    * `Hart.init`
    * `State`
-/

------------------------------------------------------------
-- Devices
------------------------------------------------------------

namespace RiscvEm

/- The fields of a hart that devices read or write. -/
structure HartPins where
  ip : BitVec 16
  time : BitVec 64
  stimecmp : BitVec 64

/- The state of the devices, and the pins of every hart. -/
structure DevWorld (σ : Type) where
  dev : σ
  pins : Nat → HartPins

/-
  A device: its window and its two virtual functions. A read
  may change the device; a write may also change guest
  memory, as a block device does.
-/
structure Device (σ : Type) where
  start : BitVec 64
  size : BitVec 64
  read : BitVec 64 → MemorySize → DevWorld σ →
    Except HostFault (BitVec 64 × DevWorld σ)
  write : BitVec 64 → MemorySize → BitVec 64 → DevWorld σ →
    MemoryMap → Except HostFault (DevWorld σ × MemoryMap)

end RiscvEm

------------------------------------------------------------
-- Host Floating Point
------------------------------------------------------------

namespace RiscvEm

/- The rounding modes of `fesetround`. -/
inductive RoundMode where
  | toNearest
  | towardZero
  | downward
  | upward
  deriving DecidableEq, Repr

/-
  Arithmetic of the host on the bits of `float` and
  `double`. The second component of a result holds the
  exceptions it raises, in the order of `fflags`.
-/
structure HostFloat where
  widen : BitVec 32 → BitVec 64
  narrow : RoundMode → BitVec 64 → BitVec 32 × BitVec 5
  add : RoundMode → BitVec 64 → BitVec 64 →
    BitVec 64 × BitVec 5
  sub : RoundMode → BitVec 64 → BitVec 64 →
    BitVec 64 × BitVec 5
  mul : RoundMode → BitVec 64 → BitVec 64 →
    BitVec 64 × BitVec 5
  div : RoundMode → BitVec 64 → BitVec 64 →
    BitVec 64 × BitVec 5
  sqrt : RoundMode → BitVec 64 → BitVec 64 × BitVec 5
  sqrtFloat : RoundMode → BitVec 32 → BitVec 64
  fma : RoundMode → BitVec 64 → BitVec 64 → BitVec 64 →
    BitVec 64 × BitVec 5
  round : BitVec 64 → BitVec 64 × BitVec 5
  llrint : RoundMode → BitVec 64 → BitVec 64
  ofInt : RoundMode → BitVec 64 → BitVec 64
  ofUInt : RoundMode → BitVec 64 → BitVec 64

end RiscvEm

------------------------------------------------------------
-- The Platform
------------------------------------------------------------

namespace RiscvEm

/-
  Host addresses of the objects that compiled code touches:
  the context, the register array and the RAM array of the
  hart that runs it, and the hart with a given number.

  `hctxHart` is what the context of that hart holds in
  `hart`. The constructor stores the address of the hart
  there, and nothing else ever does: the move constructor
  leaves the member of the new hart without a value.
-/
structure HostLayout where
  ctx : BitVec 64
  regs : BitVec 64
  ram : BitVec 64
  hart : Nat → BitVec 64
  hctxHart : Nat → BitVec 64

/-
  The addresses from `a` on, `n` of them, do not wrap and do
  not meet the `m` addresses from `b` on.
-/
def Apart
    (a : BitVec 64)
    (n : Nat)
    (b : BitVec 64)
    (m : Nat) : Prop :=
  a.toNat + n ≤ b.toNat ∨ b.toNat + m ≤ a.toNat

/- The objects have their sizes and do not overlap. -/
structure HostLayout.Disjoint
    (l : HostLayout)
    (memsize : BitVec 64) : Prop where
  ctx_le : l.ctx.toNat + 56 ≤ 2 ^ 64
  regs_le : l.regs.toNat + 256 ≤ 2 ^ 64
  ram_le : l.ram.toNat + memsize.toNat + 8 ≤ 2 ^ 64
  ctx_regs : Apart l.ctx 56 l.regs 256
  ctx_ram : Apart l.ctx 56 l.ram (memsize.toNat + 8)
  regs_ram : Apart l.regs 256 l.ram (memsize.toNat + 8)

/-
  Everything around the harts that does not change: the
  size of RAM, which as a host object has fewer than `2^63`
  bytes, the devices, the host's floating point, code memory
  and layout, the values that a host call leaves in
  caller-saved registers, and the value of an uninitialised
  local.
-/
structure Platform (σ : Type) where
  memsize : BitVec 64
  memsize_lt : memsize.toNat < 2 ^ 63
  devs : List (Device σ)
  float : HostFloat
  host : HostCode
  layout : HostLayout
  disjoint : layout.Disjoint memsize
  clobber : BitVec 4 → BitVec 64
  uninit : BitVec 64

end RiscvEm

------------------------------------------------------------
-- The Hart
------------------------------------------------------------

namespace RiscvEm

structure Reservation where
  vaddr : BitVec 64
  size : MemorySize
  valid : Bool
  deriving DecidableEq, Repr

/-
  A hart. The element `csrs[CSR_TIME]`, `ip` and `stimecmp`
  are among the pins; `exitPc` is `hctx.exit_pc`.
-/
structure Hart where
  id : BitVec 8
  GPR : BitVec 5 → BitVec 64
  FPR : BitVec 5 → BitVec 64
  csrs : BitVec 16 → BitVec 64
  pc : BitVec 64
  mode : PrivilegeMode
  status : Status
  ie : BitVec 16
  fcsr : Fcsr
  WFI : Bool
  reservation : Reservation
  lastJitPcExit : BitVec 64
  exitPc : BitVec 64

/- A hart whose storage is all zeros. -/
def Hart.zero
    (id : BitVec 8) : Hart :=
  { id := id
    GPR := fun _ => 0
    FPR := fun _ => 0
    csrs := fun _ => 0
    pc := 0
    mode := .User
    status := 0
    ie := 0
    fcsr := 0
    WFI := false
    reservation := ⟨0, .Byte, false⟩
    lastJitPcExit := 0
    exitPc := 0 }

/- `(1ULL << 63) | (1ULL << 8) | ...`: RV64IMAFDCBSU. -/
def MISA_VALUE : BitVec 64 := 0x800000000014112F

def Hart.init
    (h : Hart)
    (dtbPosAtMemory entryPc : BitVec 64) : Hart :=
  { h with
    pc := entryPc
    mode := .Machine
    GPR := Function.update
      (Function.update h.GPR 10 (h.id.setWidth 64))
      11 dtbPosAtMemory
    csrs := Function.update
      (Function.update h.csrs CSR_MISA MISA_VALUE)
      CSR_MHARTID (h.id.setWidth 64)
    status := (h.status.setSXL 2).setUXL 2 }

/- How a store reached memory. -/
inductive StorePath where
  | mmio
  | compiled
  | cboZero
  deriving DecidableEq, Repr

/-
  What a hart did that the statements about runs speak of.
  Events are not part of the source; nothing reads them.
-/
inductive Event where
  | trap (hart : Nat) (cause tval : BitVec 64)
      (interrupt : Bool)
  | store (hart : Nat) (path : StorePath) (addr : BitVec 64)
      (size : Nat)
  | lr (hart : Nat) (addr : BitVec 64) (size : MemorySize)
  | sc (hart : Nat) (addr : BitVec 64) (size : MemorySize)
      (success : Bool)
  deriving DecidableEq, Repr

/-
  The state during a tick of hart number `self`: the hart
  with its JIT context, and what it shares with the others.
  Events are kept newest first.
-/
structure State (σ : Type) where
  self : Nat
  hart : Hart
  jctx : JitContext
  mem : MemoryMap
  world : DevWorld σ
  cache : DecodeCache
  round : RoundMode
  trace : List Event

end RiscvEm

------------------------------------------------------------
-- Access To The State
------------------------------------------------------------

namespace RiscvEm

namespace State

variable {σ : Type}

def setHart
    (s : State σ)
    (h : Hart) : State σ :=
  { s with hart := h }

def log
    (s : State σ)
    (e : Event) : State σ :=
  { s with trace := e :: s.trace }

def gpr
    (s : State σ)
    (r : BitVec 5) : BitVec 64 :=
  s.hart.GPR r

def fpr
    (s : State σ)
    (r : BitVec 5) : BitVec 64 :=
  s.hart.FPR r

def setGpr
    (s : State σ)
    (r : BitVec 5)
    (v : BitVec 64) : State σ :=
  s.setHart { s.hart with
    GPR := Function.update s.hart.GPR r v }

def setFpr
    (s : State σ)
    (r : BitVec 5)
    (v : BitVec 64) : State σ :=
  s.setHart { s.hart with
    FPR := Function.update s.hart.FPR r v }

def setPc
    (s : State σ)
    (pc : BitVec 64) : State σ :=
  s.setHart { s.hart with pc := pc }

def setFcsr
    (s : State σ)
    (f : Fcsr) : State σ :=
  s.setHart { s.hart with fcsr := f }

def setRound
    (s : State σ)
    (r : RoundMode) : State σ :=
  { s with round := r }

/- The pins of the running hart. -/
def pins
    (s : State σ) : HartPins :=
  s.world.pins s.self

def setPins
    (s : State σ)
    (p : HartPins) : State σ :=
  { s with
    world := { s.world with
      pins := Function.update s.world.pins s.self p } }

/- `csrs[csr]`. -/
def csr
    (s : State σ)
    (n : BitVec 16) : BitVec 64 :=
  if n = CSR_TIME then s.pins.time else s.hart.csrs n

/- `csrs[csr] = val`. -/
def setCsr
    (s : State σ)
    (n : BitVec 16)
    (v : BitVec 64) : State σ :=
  if n = CSR_TIME then
    s.setPins { s.pins with time := v }
  else
    s.setHart { s.hart with
      csrs := Function.update s.hart.csrs n v }

end State

end RiscvEm

------------------------------------------------------------
-- A Machine Without Devices
------------------------------------------------------------

namespace RiscvEm

/- Floating point for programs that do not use it. -/
def HostFloat.unused : HostFloat :=
  { widen := fun _ => 0
    narrow := fun _ _ => (0, 0)
    add := fun _ _ _ => (0, 0)
    sub := fun _ _ _ => (0, 0)
    mul := fun _ _ _ => (0, 0)
    div := fun _ _ _ => (0, 0)
    sqrt := fun _ _ => (0, 0)
    sqrtFloat := fun _ _ => 0
    fma := fun _ _ _ _ => (0, 0)
    round := fun _ => (0, 0)
    llrint := fun _ _ => 0
    ofInt := fun _ _ => 0
    ofUInt := fun _ _ => 0 }

/- One megabyte of RAM and nothing else. -/
def Platform.bare : Platform Unit :=
  { memsize := 0x100000
    memsize_lt := by decide
    devs := []
    float := .unused
    host :=
      { slow := fun size => 0x400000 + size.bytes
        slow_injective := by
          intro a b
          cases a <;> cases b <;> decide
        pageSize := 0x1000
        mprotectOk := fun _ _ => true }
    layout :=
      { ctx := 0x1000
        regs := 0x2000
        ram := 0x200000
        hart := fun _ => 0x3000
        hctxHart := fun _ => 0x3000 }
    disjoint := by
      constructor <;> (try unfold Apart) <;> decide
    clobber := fun _ => 0
    uninit := 0 }

/- The same host with other devices. -/
def Platform.withDevs
    {σ τ : Type}
    (P : Platform σ)
    (devs : List (Device τ)) : Platform τ :=
  { memsize := P.memsize
    memsize_lt := P.memsize_lt
    devs := devs
    float := P.float
    host := P.host
    layout := P.layout
    disjoint := P.disjoint
    clobber := P.clobber
    uninit := P.uninit }

/- The contents of an array that starts with a program. -/
def Bytes.ofWords
    (ws : List (BitVec 32)) : Bytes :=
  fun i => (ws.getD (i / 4) 0 >>> (8 * (i % 4))).setWidth 8

/- A machine of one hart after loading a program. -/
def State.boot
    (ws : List (BitVec 32)) : State Unit :=
  { self := 0
    hart := (Hart.zero 0).init 0x800E0000 0x80000000
    jctx := .init Platform.bare.memsize
    mem :=
      { regions := [⟨0x80000000, Platform.bare.memsize,
          Bytes.ofWords ws⟩]
        ramDirect := some 0 }
    world := ⟨(), fun _ => ⟨0, 0, 0⟩⟩
    cache := .init
    round := .toNearest
    trace := [] }

/- The same hart next to other devices. -/
def State.withWorld
    {σ τ : Type}
    (s : State σ)
    (world : DevWorld τ) : State τ :=
  { self := s.self
    hart := s.hart
    jctx := s.jctx
    mem := s.mem
    world := world
    cache := s.cache
    round := s.round
    trace := s.trace }

end RiscvEm
