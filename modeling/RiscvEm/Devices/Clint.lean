import RiscvEm.Devices.PlicRuns

/-
  The core-local interruptor: software interrupts, the timer
  and its compare registers.

  The host clock is read by the functions themselves; here
  its readings are arguments. A write reads it a second time
  when it updates the pending bits.

  Key definitions include:
    * `Timer`
    * `Clint`
    * `Clint.updateMip`
    * `Clint.read`
    * `Clint.write`
    * `ClintRun`
-/

------------------------------------------------------------
-- The Timer
------------------------------------------------------------

namespace RiscvEm

/- `timer_st`. -/
structure Timer where
  begin : BitVec 64
  freq : BitVec 64
  deriving DecidableEq, Repr

/- The conversion of a reading of the clock, in nanoseconds. -/
def timerClocksource
    (freq ns : BitVec 64) : BitVec 64 :=
  (ns * freq) / 1000000000

namespace Timer

def get
    (timer : Timer)
    (ns : BitVec 64) : BitVec 64 :=
  timerClocksource timer.freq ns - timer.begin

def set
    (timer : Timer)
    (ns time : BitVec 64) : Timer :=
  { timer with
    begin := timerClocksource timer.freq ns - time }

def init
    (freq ns : BitVec 64) : Timer :=
  set { begin := 0, freq := freq } ns 0

/- Setting the time keeps the frequency. -/
@[simp] theorem set_freq
    (timer : Timer)
    (ns time : BitVec 64) :
    (timer.set ns time).freq = timer.freq :=
  rfl

/- At the reading at which it was set, the timer shows it. -/
theorem get_set_self
    (timer : Timer)
    (ns time : BitVec 64) :
    (timer.set ns time).get ns = time := by
  unfold get set
  dsimp only
  generalize timerClocksource timer.freq ns = now
  bv_omega

end Timer

end RiscvEm

------------------------------------------------------------
-- Registers
------------------------------------------------------------

namespace RiscvEm

/- `harts_count` is a byte. -/
structure ClintConfig where
  numHarts : Nat
  numHarts_lt : numHarts < 256

structure Clint (cfg : ClintConfig) where
  msip : Vector (BitVec 32) cfg.numHarts
  mtimecmp : Vector (BitVec 64) cfg.numHarts
  mtime : Timer

def CLINT_START : BitVec 64 := 0x02000000
def CLINT_SIZE : BitVec 64 := 0x10000
def CLINT_MSWI_SIZE : Nat := 0x4000
def CLINT_MTIMER_SIZE : Nat := 0x8000

/- `Machine::timebase`. -/
def timebase : BitVec 64 := 5000000

variable {cfg : ClintConfig}

/- The registers as they are constructed. -/
def Clint.init
    (cfg : ClintConfig)
    (ns : BitVec 64) : Clint cfg :=
  { msip := Vector.replicate _ 0
    mtimecmp := Vector.replicate _ (BitVec.allOnes 64)
    mtime := Timer.init timebase ns }

/- The pins of one hart, as `update_mip` sets them. -/
def HartPins.updateMip
    (p : HartPins)
    (now : BitVec 64)
    (msip : BitVec 32)
    (mtimecmp : BitVec 64) : HartPins :=
  let p := { p with time := now }
  let p := p.setIpBit 3 (msip &&& 1 != 0)
  let p := p.setIpBit 7 (decide (mtimecmp ≤ now))
  p.setIpBit 5 (decide (p.stimecmp ≤ now) &&
    p.stimecmp != BitVec.allOnes 64)

namespace Clint

/- One round of the loop over the harts. -/
def updateHart
    (now : BitVec 64)
    (w : DevWorld (Clint cfg))
    (hart : Fin cfg.numHarts) : DevWorld (Clint cfg) :=
  { w with
    pins := Function.update w.pins hart.val
      ((w.pins hart.val).updateMip now
        (w.dev.msip.get hart) (w.dev.mtimecmp.get hart)) }

def updateMip
    (ns : BitVec 64)
    (w : DevWorld (Clint cfg)) : DevWorld (Clint cfg) :=
  (List.finRange cfg.numHarts).foldl
    (updateHart (w.dev.mtime.get ns)) w

end Clint

end RiscvEm

------------------------------------------------------------
-- Accesses
------------------------------------------------------------

namespace RiscvEm

variable {cfg : ClintConfig}

namespace Clint

def readMswi
    (offset : Nat)
    (w : DevWorld (Clint cfg)) :
    Except HostFault (BitVec 64) :=
  if h : offset / 4 < cfg.numHarts then
    .ok ((w.dev.msip.get ⟨offset / 4, h⟩).setWidth 64)
  else
    .error .outOfBounds

def readMtimer
    (ns : BitVec 64)
    (offset : Nat)
    (w : DevWorld (Clint cfg)) :
    Except HostFault (BitVec 64) :=
  if offset = 0x7FF8 then
    .ok (w.dev.mtime.get ns)
  else if h : offset / 8 < cfg.numHarts then
    .ok (w.dev.mtimecmp.get ⟨offset / 8, h⟩)
  else
    .error .outOfBounds

def writeMswi
    (ns : BitVec 64)
    (offset : Nat)
    (value : BitVec 64)
    (w : DevWorld (Clint cfg)) :
    Except HostFault (DevWorld (Clint cfg)) :=
  if offset / 4 < cfg.numHarts then
    .ok (updateMip ns { w with
      dev := { w.dev with
        msip := w.dev.msip.setIfInBounds (offset / 4)
          (value.setWidth 32) } })
  else
    .error .outOfBounds

def writeMtimer
    (ns ns' : BitVec 64)
    (offset : Nat)
    (value : BitVec 64)
    (w : DevWorld (Clint cfg)) :
    Except HostFault (DevWorld (Clint cfg)) :=
  if offset = 0x7FF8 then
    .ok (updateMip ns' { w with
      dev := { w.dev with
        mtime := w.dev.mtime.set ns value } })
  else if offset / 8 < cfg.numHarts then
    .ok (updateMip ns' { w with
      dev := { w.dev with
        mtimecmp :=
          w.dev.mtimecmp.setIfInBounds (offset / 8) value } })
  else
    .error .outOfBounds

/- The size is not looked at. -/
def read
    (ns : BitVec 64)
    (addr : BitVec 64)
    (_size : MemorySize)
    (w : DevWorld (Clint cfg)) :
    Except HostFault (BitVec 64) :=
  let off := (addr - CLINT_START).toNat
  if off < CLINT_MSWI_SIZE then
    readMswi off w
  else if off < CLINT_MSWI_SIZE + CLINT_MTIMER_SIZE then
    readMtimer ns (off - CLINT_MSWI_SIZE) w
  else
    .ok 0

def write
    (ns ns' : BitVec 64)
    (addr : BitVec 64)
    (_size : MemorySize)
    (value : BitVec 64)
    (w : DevWorld (Clint cfg)) :
    Except HostFault (DevWorld (Clint cfg)) :=
  let off := (addr - CLINT_START).toNat
  if off < CLINT_MSWI_SIZE then
    writeMswi ns' off value w
  else if off < CLINT_MSWI_SIZE + CLINT_MTIMER_SIZE then
    writeMtimer ns ns' (off - CLINT_MSWI_SIZE) value w
  else
    .ok w

end Clint

end RiscvEm

------------------------------------------------------------
-- Pending Bits
------------------------------------------------------------

namespace RiscvEm

/- MSIP, MTIP and STIP of `ip`. -/
def HartPins.MSIP (p : HartPins) : Bool := p.ip.getLsbD 3
def HartPins.MTIP (p : HartPins) : Bool := p.ip.getLsbD 7
def HartPins.STIP (p : HartPins) : Bool := p.ip.getLsbD 5

/- A bit of `ip` is not the comparator. -/
theorem HartPins.setIpBit_stimecmp
    (p : HartPins)
    (i : Nat)
    (level : Bool) :
    (p.setIpBit i level).stimecmp = p.stimecmp :=
  rfl

section

variable {p : HartPins}
variable {now mtimecmp : BitVec 64}
variable {msip : BitVec 32}

/- The software interrupt is the register's lowest bit. -/
theorem HartPins.updateMip_MSIP :
    (p.updateMip now msip mtimecmp).MSIP =
      msip.getLsbD 0 := by
  unfold MSIP updateMip
  simp only [getLsbD_setIpBit, Nat.reduceLT, Nat.reduceEqDiff,
    if_false, if_true]
  rw [show msip &&& 1 = _ from
    BitVec.and_one_eq_setWidth_ofBool_getLsbD]
  cases msip.getLsbD 0 <;> rfl

/- The timer interrupt compares the time. -/
theorem HartPins.updateMip_MTIP :
    (p.updateMip now msip mtimecmp).MTIP =
      decide (mtimecmp ≤ now) := by
  unfold MTIP updateMip
  simp only [getLsbD_setIpBit, Nat.reduceLT, Nat.reduceEqDiff,
    if_false, if_true]

/-
  The supervisor's timer compares the time unless it is
  disabled.
-/
theorem HartPins.updateMip_STIP :
    (p.updateMip now msip mtimecmp).STIP =
      (decide (p.stimecmp ≤ now) &&
        p.stimecmp != BitVec.allOnes 64) := by
  unfold STIP updateMip
  simp only [getLsbD_setIpBit, Nat.reduceLT, if_true,
    HartPins.setIpBit_stimecmp]
  rfl

end

variable {cfg : ClintConfig}
variable {w w' : DevWorld (Clint cfg)}

namespace Clint

/- Updating harts leaves the device as it is. -/
theorem foldl_updateHart_dev
    (now : BitVec 64)
    (harts : List (Fin cfg.numHarts))
    (w : DevWorld (Clint cfg)) :
    (harts.foldl (updateHart now) w).dev = w.dev := by
  induction harts generalizing w with
  | nil => rfl
  | cons hart harts ih => exact ih _

/- The pending bits change no register. -/
@[simp] theorem updateMip_dev
    (ns : BitVec 64)
    (w : DevWorld (Clint cfg)) :
    (updateMip ns w).dev = w.dev :=
  foldl_updateHart_dev _ _ w

/- The update of a hart leaves the others alone. -/
theorem updateHart_pins_of_ne
    (now : BitVec 64)
    (w : DevWorld (Clint cfg))
    {hart other : Fin cfg.numHarts}
    (hNe : hart ≠ other) :
    (updateHart now w other).pins hart.val =
      w.pins hart.val := by
  unfold updateHart
  exact Function.update_of_ne (fun h => hNe (Fin.ext h)) ..

/- A hart that is not among them keeps its pins. -/
theorem foldl_updateHart_of_not_mem
    (now : BitVec 64)
    {harts : List (Fin cfg.numHarts)}
    {hart : Fin cfg.numHarts}
    (hNot : hart ∉ harts)
    (w : DevWorld (Clint cfg)) :
    (harts.foldl (updateHart now) w).pins hart.val =
      w.pins hart.val := by
  induction harts generalizing w with
  | nil => rfl
  | cons first harts ih =>
      rw [List.mem_cons, not_or] at hNot
      rw [List.foldl_cons, ih hNot.2,
        updateHart_pins_of_ne now w hNot.1]

/- Every hart is updated once, with its own registers. -/
theorem foldl_updateHart_pins
    (now : BitVec 64)
    {harts : List (Fin cfg.numHarts)}
    {hart : Fin cfg.numHarts}
    (hNodup : harts.Nodup)
    (hMem : hart ∈ harts)
    (w : DevWorld (Clint cfg)) :
    (harts.foldl (updateHart now) w).pins hart.val =
      (w.pins hart.val).updateMip now
        (w.dev.msip.get hart) (w.dev.mtimecmp.get hart) := by
  induction harts generalizing w with
  | nil => cases hMem
  | cons first harts ih =>
      rcases List.nodup_cons.mp hNodup with ⟨hFirst, hRest⟩
      rw [List.foldl_cons]
      by_cases hEq : hart = first
      · subst hEq
        rw [foldl_updateHart_of_not_mem now hFirst]
        unfold updateHart
        exact Function.update_self ..
      · have hIn := (List.mem_cons.mp hMem).resolve_left hEq
        rw [ih hRest hIn, updateHart_pins_of_ne now w hEq]
        rfl

/- After an update each hart has its interrupts. -/
theorem updateMip_pins
    (ns : BitVec 64)
    (w : DevWorld (Clint cfg))
    (hart : Fin cfg.numHarts) :
    (updateMip ns w).pins hart.val =
      (w.pins hart.val).updateMip (w.dev.mtime.get ns)
        (w.dev.msip.get hart) (w.dev.mtimecmp.get hart) := by
  unfold updateMip
  exact foldl_updateHart_pins _ (List.nodup_finRange _)
    (List.mem_finRange _) w

end Clint

end RiscvEm

------------------------------------------------------------
-- Runs
------------------------------------------------------------

namespace RiscvEm

variable {cfg : ClintConfig}

/-
  What guests and the thread of the device do to it: an
  access, an update of the pending bits, and a write to a CSR
  of a hart.
-/
inductive ClintOp where
  | read (addr : BitVec 64) (size : MemorySize)
  | write (addr : BitVec 64) (size : MemorySize)
      (value : BitVec 64)
  | updateMip
  | csrWrite (hart : Nat) (csr : BitVec 16)
      (val : BitVec 64)
  deriving DecidableEq, Repr

def ClintOp.exec
    (ns ns' : BitVec 64)
    (op : ClintOp)
    (w : DevWorld (Clint cfg)) :
    Except HostFault (DevWorld (Clint cfg)) :=
  match op with
  | .read addr size =>
      (Clint.read ns addr size w).map (fun _ => w)
  | .write addr size value =>
      Clint.write ns ns' addr size value w
  | .updateMip => .ok (Clint.updateMip ns' w)
  | .csrWrite hart csr val =>
      .ok { w with
        pins := Function.update w.pins hart
          ((w.pins hart).csrWrite csr val) }

/- A run, with any readings of the clock at its steps. -/
inductive ClintRun
    (w : DevWorld (Clint cfg)) :
    List ClintOp → DevWorld (Clint cfg) → Prop
  | refl : ClintRun w [] w
  | step {ops : List ClintOp} {w₁ w₂ : DevWorld (Clint cfg)}
      {op : ClintOp} {ns ns' : BitVec 64} :
      ClintRun w ops w₁ → op.exec ns ns' w₁ = .ok w₂ →
      ClintRun w (op :: ops) w₂

end RiscvEm
