import Mathlib.Data.List.Nodup
import Mathlib.Data.List.Range
import Mathlib.Data.List.Perm.Subperm
import Mathlib.Logic.Function.Basic

/-
  Forests of nodes that know their parents.

  A node is linked to its parent or is the top of its tree.
  Climbing follows the links.

  Key definitions include:
    * `climb`
    * `Top`
    * `Acyclic`

  Key theorems include:
    * `top_climb`
    * `acyclic_attach`
    * `top_attach`
-/

------------------------------------------------------------
-- Tops
------------------------------------------------------------

namespace ParentLinks

variable {α : Type}
variable {parent : α → Option α}
variable {x y p r s : α}

/- Follow at most `n` links. -/
def climb
    (parent : α → Option α) : Nat → α → α
  | 0, x => x
  | n + 1, x =>
      match parent x with
      | none => x
      | some p => climb parent n p

/- The top of the tree in which a node is. -/
inductive Top
    (parent : α → Option α) : α → α → Prop
  | here {x : α} : parent x = none → Top parent x x
  | up {x p r : α} :
      parent x = some p → Top parent p r → Top parent x r

theorem Top.parent_eq
    (h : Top parent x r) :
    parent r = none := by
  induction h with
  | here hNone => exact hNone
  | up _ _ ih => exact ih

theorem Top.eq_of_none
    (h : Top parent x r)
    (hNone : parent x = none) :
    r = x := by
  cases h with
  | here => rfl
  | up hSome => rw [hNone] at hSome; cases hSome

theorem Top.of_parent
    (h : Top parent x r)
    (hSome : parent x = some p) :
    Top parent p r := by
  cases h with
  | here hNone => rw [hNone] at hSome; cases hSome
  | up hSome' hTop =>
      rw [hSome] at hSome'
      cases hSome'
      exact hTop

/- A node is in one tree only. -/
theorem Top.unique
    (h : Top parent x r)
    (h' : Top parent x s) :
    r = s := by
  induction h with
  | here hNone => exact (h'.eq_of_none hNone).symm
  | up hSome _ ih => exact ih (h'.of_parent hSome)

/- Climbing stays in a set that parents stay in. -/
theorem Top.closed
    {good : α → Prop}
    (h : Top parent x r)
    (hParent : ∀ x p, parent x = some p → good p)
    (hGood : good x) :
    good r := by
  induction h with
  | here => exact hGood
  | up hSome _ ih => exact ih (hParent _ _ hSome)

/- Links lead up: some rank grows strictly downwards. -/
def Acyclic
    (parent : α → Option α) : Prop :=
  ∃ rank : α → Nat,
    ∀ x p, parent x = some p → rank p < rank x

theorem acyclic_none :
    Acyclic (fun _ : α => none) :=
  ⟨fun _ => 0, nofun⟩

end ParentLinks

------------------------------------------------------------
-- Climbing
------------------------------------------------------------

namespace ParentLinks

variable {parent : Nat → Option Nat}
variable {size : Nat}

/- Only the nodes below `size` have a parent. -/
def Within
    (parent : Nat → Option Nat)
    (size : Nat) : Prop :=
  ∀ x p, parent x = some p → x < size

/-
  If a climb of `n` links does not reach the top, it passed
  `n + 1` nodes that have a parent, of which no two are equal.
-/
theorem climb_path
    {rank : Nat → Nat}
    (hRank : ∀ x p, parent x = some p → rank p < rank x)
    (hWithin : Within parent size)
    (n x : Nat)
    (hMore : parent (climb parent n x) ≠ none) :
    ∃ path : List Nat, path.length = n + 1 ∧ path.Nodup ∧
      ∀ y ∈ path, y < size ∧ rank y ≤ rank x := by
  induction n generalizing x with
  | zero =>
      rcases Option.ne_none_iff_exists'.mp hMore with ⟨p, hp⟩
      refine ⟨[x], rfl, List.nodup_singleton x, ?_⟩
      intro y hMem
      rw [List.mem_singleton.mp hMem]
      exact ⟨hWithin x p hp, Nat.le_refl _⟩
  | succ n ih =>
      cases hp : parent x with
      | none =>
          refine absurd ?_ hMore
          unfold climb
          rw [hp]
          exact hp
      | some p =>
          have hClimb : climb parent (n + 1) x =
              climb parent n p := by
            rw [climb, hp]
          rw [hClimb] at hMore
          rcases ih p hMore with ⟨path, hLen, hNodup, hAll⟩
          have hLt := hRank x p hp
          have hNew : x ∉ path := by
            intro hMem
            have hLe := (hAll x hMem).2
            omega
          refine ⟨x :: path, ?_,
            List.nodup_cons.mpr ⟨hNew, hNodup⟩, ?_⟩
          · rw [List.length_cons, hLen]
          · refine List.forall_mem_cons.mpr ⟨?_, ?_⟩
            · exact ⟨hWithin x p hp, Nat.le_refl _⟩
            · intro y hMem
              have hY := hAll y hMem
              exact ⟨hY.1, by omega⟩

/- As many links as there are nodes lead to the top. -/
theorem climb_parent
    (hAcyclic : Acyclic parent)
    (hWithin : Within parent size)
    (x : Nat) :
    parent (climb parent size x) = none := by
  rcases hAcyclic with ⟨rank, hRank⟩
  by_contra hMore
  rcases climb_path hRank hWithin size x hMore with
    ⟨path, hLen, hNodup, hAll⟩
  have hSub := hNodup.subperm (fun y hMem =>
    List.mem_range.mpr (hAll y hMem).1)
  have hLe := hSub.length_le
  rw [hLen, List.length_range] at hLe
  omega

theorem top_of_climb
    {n x : Nat}
    (h : parent (climb parent n x) = none) :
    Top parent x (climb parent n x) := by
  induction n generalizing x with
  | zero => exact .here h
  | succ n ih =>
      cases hp : parent x with
      | none =>
          have hStay : climb parent (n + 1) x = x := by
            rw [climb, hp]
          rw [hStay]
          exact .here hp
      | some p =>
          have hClimb : climb parent (n + 1) x =
              climb parent n p := by
            rw [climb, hp]
          rw [hClimb] at h ⊢
          exact .up hp (ih h)

theorem top_climb
    (hAcyclic : Acyclic parent)
    (hWithin : Within parent size)
    (x : Nat) :
    Top parent x (climb parent size x) :=
  top_of_climb (climb_parent hAcyclic hWithin x)

end ParentLinks

------------------------------------------------------------
-- Attaching A Tree
------------------------------------------------------------

namespace ParentLinks

variable {α : Type} [DecidableEq α]
variable {parent : α → Option α}
variable {node child x r s : α}

/- Link a top to a node of another tree. -/
def attach
    (parent : α → Option α)
    (node child : α) : α → Option α :=
  Function.update parent child (some node)

theorem attach_child :
    attach parent node child child = some node :=
  Function.update_self ..

theorem attach_other
    (h : x ≠ child) :
    attach parent node child x = parent x :=
  Function.update_of_ne h _ _

/- Trees that are not attached keep their tops. -/
theorem top_attach_other
    (hChild : parent child = none)
    (hTop : Top parent x s)
    (hNe : s ≠ child) :
    Top (attach parent node child) x s := by
  induction hTop with
  | here hNone =>
      exact .here ((attach_other hNe).trans hNone)
  | up hSome _ ih =>
      refine .up ((attach_other ?_).trans hSome) (ih hNe)
      intro hSame
      rw [hSame, hChild] at hSome
      cases hSome

/- The tree that is attached gets the top of the other one. -/
theorem top_attach_moved
    (hChild : parent child = none)
    (hNode : Top parent node r)
    (hNe : r ≠ child)
    (hTop : Top parent x child) :
    Top (attach parent node child) x r := by
  have hNodeTop : Top (attach parent node child) node r :=
    top_attach_other hChild hNode hNe
  have hMoved : ∀ y s, Top parent y s → s = child →
      Top (attach parent node child) y r := by
    intro y s hTop hEq
    induction hTop with
    | here _ =>
        rw [hEq]
        exact .up attach_child hNodeTop
    | @up x _ _ hSome _ ih =>
        have hOther : x ≠ child := by
          intro hSame
          rw [hSame, hChild] at hSome
          cases hSome
        exact .up ((attach_other hOther).trans hSome) (ih hEq)
  exact hMoved x child hTop rfl

/- The top of any node after a tree was attached. -/
theorem top_attach
    (hChild : parent child = none)
    (hNode : Top parent node r)
    (hNe : r ≠ child)
    (hTop : Top parent x s) :
    Top (attach parent node child) x
      (if s = child then r else s) := by
  split
  case isTrue hEq =>
    exact top_attach_moved hChild hNode hNe (hEq ▸ hTop)
  case isFalse hOther =>
    exact top_attach_other hChild hTop hOther

/- The nodes of the attached tree move below its new place. -/
theorem acyclic_attach
    (hAcyclic : Acyclic parent)
    (hChild : parent child = none)
    (hNode : Top parent node r)
    (hNe : r ≠ child) :
    Acyclic (attach parent node child) := by
  classical
  rcases hAcyclic with ⟨rank, hRank⟩
  refine ⟨fun y =>
    if Top parent y child then rank y + rank node + 1
    else rank y, ?_⟩
  intro y p hSome
  have hOutside : ¬ Top parent node child :=
    fun hIn => hNe (hNode.unique hIn)
  dsimp only
  by_cases hy : y = child
  · rw [hy, attach_child] at hSome
    cases hSome
    rw [if_neg hOutside, hy, if_pos (.here hChild)]
    omega
  · rw [attach_other hy] at hSome
    have hLt := hRank y p hSome
    have hSame : Top parent y child ↔ Top parent p child :=
      ⟨fun h => h.of_parent hSome, fun h => .up hSome h⟩
    by_cases hIn : Top parent p child
    · rw [if_pos hIn, if_pos (hSame.mpr hIn)]
      omega
    · rw [if_neg hIn, if_neg (fun h => hIn (hSame.mp h))]
      exact hLt

end ParentLinks
