import RiscvEm.Decode.Select
import RiscvEm.Hart.Machine

/-
  Ticks that can be computed: the lookup tables, too large
  to fill here, are replaced by the search over the masks
  that they stand for.

  Key definitions include:
    * `State.evalTick`
    * `State.evalTicks`
    * `Machine.evalSchedule`

  Key theorems include:
    * `run_of_evalTicks`
    * `run_of_evalSchedule`
-/

------------------------------------------------------------
-- Computable Ticks
------------------------------------------------------------

namespace RiscvEm

variable {σ : Type}

/- `decodeInst` with the search in place of the tables. -/
def evalDecode
    (cache : DecodeCache)
    (pc : BitVec 64)
    (w : BitVec 32) : InstructionCache × DecodeCache :=
  decodeInstWith (matchEntry pc w (bestMatch w)) cache pc w

/- The tables find what the search finds. -/
theorem decodeInst_eq_evalDecode
    (cache : DecodeCache)
    (pc : BitVec 64)
    (w : BitVec 32) :
    decodeInst decoder cache pc w =
      evalDecode cache pc w := by
  unfold evalDecode
  rw [decodeInst_eq_decodeInstWith, decodeEntry_eq_matchEntry]

namespace State

def evalInterpret
    (P : Platform σ)
    (s : State σ) : Except HostFault (State σ) := do
  let prevPc := s.hart.pc
  let (inst, s) ← s.fetch P s.hart.pc
  let (entry, cache) := evalDecode s.cache s.hart.pc inst
  (s.setCache cache).runEntry P entry inst prevPc

/- An interpreted tick can be computed. -/
theorem interpret_eq_evalInterpret
    (P : Platform σ)
    (s : State σ) :
    s.interpret P = s.evalInterpret P := by
  unfold interpret evalInterpret
  simp only [decodeInst_eq_evalDecode]

def evalTick
    (P : Platform σ)
    (s : State σ) : Except HostFault (State σ) :=
  let s := s.preTick
  if s.hart.WFI then
    .ok (if s.intLocalPending then
      s.setHart { s.hart with WFI := false }
    else
      s)
  else
    match s.jitEntry with
    | some f =>
        if s.isCurrent f then
          s.callBlock P f
        else
          .ok (s.dropBlock f)
    | none =>
        (s.setHart { s.hart with
          lastJitPcExit := 0 }).evalInterpret P

/- Every tick can be computed. -/
theorem tick_eq_evalTick
    (P : Platform σ)
    (s : State σ) :
    s.tick P = s.evalTick P := by
  unfold tick evalTick dispatch
  dsimp only
  split
  · rfl
  · cases s.preTick.jitEntry with
    | none => exact interpret_eq_evalInterpret P _
    | some f => rfl

/- The state after a number of ticks. -/
def evalTicks
    (P : Platform σ) :
    Nat → State σ → Except HostFault (State σ)
  | 0, s => .ok s
  | n + 1, s => s.evalTick P >>= evalTicks P n

end State

end RiscvEm

------------------------------------------------------------
-- Computed Runs
------------------------------------------------------------

namespace RiscvEm

variable {σ : Type}
variable {P : Platform σ}

/- Computed ticks are a run of the machine. -/
theorem run_of_evalTicks
    (n : Nat)
    {m : Machine σ}
    {ts : List (State σ × State σ)}
    {s s' : State σ}
    (hRun : m.Run P ts (.single s))
    (hSelf : s.self = 0)
    (h : State.evalTicks P n s = .ok s') :
    (∃ ts', m.Run P ts' (.single s') ∧
        ts'.length = n + ts.length) ∧
      s'.self = 0 := by
  induction n generalizing s ts with
  | zero =>
      cases h
      exact ⟨⟨ts, hRun, by simp⟩, hSelf⟩
  | succ n ih =>
      rcases bind_eq_ok.mp h with ⟨s₁, hTick, hRest⟩
      rw [← State.tick_eq_evalTick] at hTick
      rcases ih (hRun.tick_single hSelf hTick)
        ((State.tick_self hTick).trans hSelf) hRest with
        ⟨⟨ts', hRun', hLen⟩, hSelf'⟩
      refine ⟨⟨ts', hRun', ?_⟩, hSelf'⟩
      rw [hLen, List.length_cons]
      omega

/- The harts take their ticks in a given order. -/
def Machine.evalSchedule
    (P : Platform σ) :
    List Nat → Machine σ → Except HostFault (Machine σ)
  | [], m => .ok m
  | i :: is, m =>
      match m.harts[i]? with
      | none => evalSchedule P is m
      | some c => do
          let s ← (m.state i c).evalTick P
          evalSchedule P is (m.put i s)

/- A schedule that was computed is a run. -/
theorem run_of_evalSchedule
    (is : List Nat)
    {m m₁ m' : Machine σ}
    {ts : List (State σ × State σ)}
    (hRun : m.Run P ts m₁)
    (h : m₁.evalSchedule P is = .ok m') :
    ∃ ts', m.Run P ts' m' := by
  induction is generalizing m₁ ts with
  | nil =>
      cases h
      exact ⟨ts, hRun⟩
  | cons i is ih =>
      unfold Machine.evalSchedule at h
      split at h
      case h_1 => exact ih hRun h
      case h_2 c hCore =>
        rcases bind_eq_ok.mp h with ⟨s, hTick, hRest⟩
        rw [← State.tick_eq_evalTick] at hTick
        exact ih (hRun.step (.tick hCore hTick)) hRest

end RiscvEm
