import RiscvEm.Fdt.Tree
import RiscvEm.Lib.ParentLinks

/-
  The phandles of a device tree while it is built.

  The counter is in the phandle of the topmost node. A subtree
  that was asked for phandles before it is attached brings a
  counter along, which then counts as its top's phandle.

  Key definitions include:
    * `Forest.addChild`
    * `Forest.getPhandle`
    * `PhandleRun`
    * `StepsOk`
    * `PhandlesOk`

  Key theorems include `phandles_unique_of_steps`.
-/

------------------------------------------------------------
-- Nodes And Their Parents
------------------------------------------------------------

namespace RiscvEm.Fdt

open ByteCodec ParentLinks

/- A node as the constructor and its setters keep it. -/
structure PNode where
  name : List Byte
  parent : Option Nat
  phandle : BitVec 32
  props : List Property
  children : List Nat

/- `add_prop_u32` with a name that is not empty. -/
def PNode.addPropU32
    (n : PNode)
    (name : List Byte)
    (val : BitVec 32) : PNode :=
  { n with
    props := setProp name (hostBytes 4 (toBe32 val)) n.props }

/- All nodes that were created, by number. -/
structure Forest where
  size : Nat
  node : Nat → PNode

/- `Node::Node(name)`. -/
def PNode.new
    (name : List Byte) : PNode :=
  { name := name
    parent := none
    phandle := 0
    props := []
    children := [] }

namespace Forest

def empty : Forest :=
  { size := 0
    node := fun _ => .new [] }

def parent
    (f : Forest)
    (x : Nat) : Option Nat :=
  (f.node x).parent

def modify
    (f : Forest)
    (x : Nat)
    (g : PNode → PNode) : Forest :=
  { f with node := Function.update f.node x (g (f.node x)) }

def create
    (f : Forest)
    (name : List Byte) : Forest :=
  { size := f.size + 1
    node := Function.update f.node f.size (.new name) }

/-
  `fdt_node_add_child`. Only a top is owned by its wrapper; a
  node that has a parent is not moved.
-/
def addChild
    (f : Forest)
    (node child : Nat) : Forest :=
  if (f.node child).parent ≠ none then
    f
  else
    (f.modify child (fun n => { n with parent := some node }))
      |>.modify node (fun n =>
        { n with children := n.children ++ [child] })

/- Trace to the root. -/
def topmost
    (f : Forest)
    (x : Nat) : Nat :=
  climb f.parent f.size x

end Forest

def isIllegalPhandle
    (ph : BitVec 32) : Bool :=
  ph == 0 || ph == 0xFFFFFFFF

/- `"phandle"`. -/
def phandleName : List Byte :=
  [0x70, 0x68, 0x61, 0x6E, 0x64, 0x6C, 0x65]

/- The property that `add_prop_u32("phandle", ph)` sets. -/
def phandleProp
    (ph : BitVec 32) : Property :=
  ⟨phandleName, hostBytes 4 (toBe32 ph)⟩

namespace Forest

def allocateNewPhandle
    (f : Forest)
    (x : Nat) : BitVec 32 × Forest :=
  let r := f.topmost x
  let f := f.modify r (fun n =>
    { n with phandle := n.phandle + 1 })
  ((f.node r).phandle, f)

def getPhandle
    (f : Forest)
    (x : Nat) : BitVec 32 × Forest :=
  if (f.node x).parent = none ∨ (f.node x).name = [] then
    (0, f)
  else if isIllegalPhandle (f.node x).phandle = true then
    let (ph, f) := f.allocateNewPhandle x
    (ph, f.modify x (fun n =>
      { n with phandle := ph }.addPropU32 phandleName ph))
  else
    ((f.node x).phandle, f)

/- The phandle of a node; a top has none. -/
def phandleOf
    (f : Forest)
    (x : Nat) : BitVec 32 :=
  if (f.node x).parent = none ∨ (f.node x).name = [] then 0
  else (f.node x).phandle

end Forest

end RiscvEm.Fdt

------------------------------------------------------------
-- Runs
------------------------------------------------------------

namespace RiscvEm.Fdt

open ByteCodec ParentLinks

inductive PhandleOp where
  | create (name : List Byte)
  | addChild (node child : Nat)
  | getPhandle (x : Nat)
  deriving DecidableEq

/-
  The operation is about nodes that exist, and no tree is
  attached to itself.
-/
def PhandleOp.Valid
    (f : Forest) : PhandleOp → Prop
  | .create _ => True
  | .addChild node child =>
      node < f.size ∧ child < f.size ∧ f.topmost node ≠ child
  | .getPhandle x => x < f.size

instance PhandleOp.decidableValid
    (f : Forest) :
    (op : PhandleOp) → Decidable (op.Valid f)
  | .create _ => inferInstanceAs (Decidable True)
  | .addChild _ _ => inferInstanceAs (Decidable (_ ∧ _ ∧ _))
  | .getPhandle _ => inferInstanceAs (Decidable (_ < _))

/- What `get_phandle` returns, and the nodes after it. -/
def PhandleOp.exec
    (op : PhandleOp)
    (f : Forest) : BitVec 32 × Forest :=
  match op with
  | .create name => (0, f.create name)
  | .addChild node child => (0, f.addChild node child)
  | .getPhandle x => f.getPhandle x

/- An operation, the nodes before it and its value. -/
structure PhandleStep where
  before : Forest
  op : PhandleOp
  value : BitVec 32

/- A tree is built; the newest operation comes first. -/
inductive PhandleRun :
    List PhandleStep → Forest → Prop
  | refl : PhandleRun [] .empty
  | step {ts : List PhandleStep} {f : Forest}
      {op : PhandleOp} :
      PhandleRun ts f → op.Valid f →
      PhandleRun (⟨f, op, (op.exec f).1⟩ :: ts) (op.exec f).2

/-
  Different nodes of a tree have different phandles, the
  property shows what was returned, and asking again returns
  the same.
-/
structure PhandlesOk
    (ts : List PhandleStep)
    (f : Forest) : Prop where
  unique : ∀ x y, x < f.size → y < f.size → x ≠ y →
    f.topmost x = f.topmost y → f.phandleOf x ≠ 0 →
      f.phandleOf x ≠ f.phandleOf y
  property : ∀ t ∈ ts, ∀ x, t.op = .getPhandle x →
    t.value ≠ 0 →
      (f.node x).props.filter (·.name = phandleName) =
        [phandleProp t.value]
  repeated : ∀ t ∈ ts, ∀ s ∈ ts, ∀ x,
    t.op = .getPhandle x → s.op = .getPhandle x →
      t.value = s.value

/- The operation links a top to another tree. -/
def Attaches
    (f : Forest)
    (child : Nat) : PhandleOp → Prop
  | .addChild _ c => c = child ∧ (f.node c).parent = none
  | _ => False

/- An earlier call found no parent, and returned zero. -/
def AskedAtTop
    (older : List PhandleStep)
    (x : Nat) : Prop :=
  ∃ s ∈ older, s.op = .getPhandle x ∧
    (s.before.node x).parent = none

/-
  A tree that is attached has not counted yet. A node that
  gets a number was not asked for it while it was a top, and
  the counter stays below the numbers that are not legal.
-/
def StepOk
    (older : List PhandleStep)
    (t : PhandleStep) : Prop :=
  match t.op with
  | .create _ => True
  | .addChild _ child =>
      (t.before.node child).parent = none →
        (t.before.node child).phandle = 0
  | .getPhandle x =>
      (t.before.node x).parent ≠ none →
        (t.before.node x).name ≠ [] →
          ¬ AskedAtTop older x ∧
            (isIllegalPhandle (t.before.node x).phandle =
                true →
              (t.before.node (t.before.topmost
                x)).phandle.toNat + 1 < 0xFFFFFFFF)

instance
    (older : List PhandleStep)
    (x : Nat) :
    Decidable (AskedAtTop older x) :=
  inferInstanceAs (Decidable (∃ s ∈ older, _ ∧ _))

instance
    (older : List PhandleStep) :
    (t : PhandleStep) → Decidable (StepOk older t)
  | ⟨_, .create _, _⟩ => inferInstanceAs (Decidable True)
  | ⟨_, .addChild _ _, _⟩ =>
      inferInstanceAs (Decidable (_ → _))
  | ⟨_, .getPhandle _, _⟩ =>
      inferInstanceAs (Decidable (_ → _ → _ ∧ (_ → _)))

def StepsOk : List PhandleStep → Prop
  | [] => True
  | t :: older => StepOk older t ∧ StepsOk older

instance StepsOk.decidable :
    (ts : List PhandleStep) → Decidable (StepsOk ts)
  | [] => inferInstanceAs (Decidable True)
  | t :: older =>
      have := StepsOk.decidable older
      inferInstanceAs (Decidable (StepOk older t ∧ _))

end RiscvEm.Fdt

------------------------------------------------------------
-- One Operation
------------------------------------------------------------

namespace RiscvEm.Fdt

open ByteCodec ParentLinks

namespace Forest

variable {f : Forest}
variable {x y node child r s : Nat}

theorem node_modify_self
    (f : Forest)
    (x : Nat)
    (g : PNode → PNode) :
    (f.modify x g).node x = g (f.node x) :=
  Function.update_self ..

theorem node_modify_other
    (f : Forest)
    (g : PNode → PNode)
    (h : y ≠ x) :
    (f.modify x g).node y = f.node y :=
  Function.update_of_ne h _ _

/- What a change of one node does to a member of all nodes. -/
theorem node_modify
    {β : Type}
    (f : Forest)
    (x y : Nat)
    (g : PNode → PNode)
    (member : PNode → β)
    (hSame : member (g (f.node x)) = member (f.node x)) :
    member ((f.modify x g).node y) = member (f.node y) := by
  by_cases hy : y = x
  · rw [hy, node_modify_self, hSame]
  · rw [node_modify_other f g hy]

/- Every node that is not a top has a parent. -/
theorem top_ne
    (hTop : Top f.parent x r)
    (hNe : x ≠ r) :
    f.parent x ≠ none :=
  fun hNone => hNe (hTop.eq_of_none hNone).symm

end Forest

/-
  The numbers in a forest: in each tree they are at most the
  counter and no two are equal, and the properties agree.
-/
structure Numbered
    (f : Forest) : Prop where
  within : Within f.parent f.size
  parents : ∀ x p, f.parent x = some p → p < f.size
  blank : ∀ x, f.size ≤ x → f.node x = .new []
  acyclic : Acyclic f.parent
  bounded : ∀ x r, Top f.parent x r → x ≠ r →
    (f.node x).phandle.toNat ≤ (f.node r).phandle.toNat
  unique : ∀ x y r, Top f.parent x r → Top f.parent y r →
    x ≠ r → y ≠ r → x ≠ y → (f.node x).phandle ≠ 0 →
      (f.node x).phandle ≠ (f.node y).phandle
  unnamed : ∀ x, f.parent x ≠ none → (f.node x).name = [] →
    (f.node x).phandle = 0
  legal : ∀ x, f.parent x ≠ none →
    (f.node x).phandle ≠ 0xFFFFFFFF
  fresh : ∀ x, f.parent x = none ∨ (f.node x).phandle = 0 →
    (f.node x).props.filter (·.name = phandleName) = []
  property : ∀ x, f.parent x ≠ none →
    (f.node x).phandle ≠ 0 →
      (f.node x).props.filter (·.name = phandleName) =
        [phandleProp (f.node x).phandle]

variable {f : Forest}
variable {x y node child r s : Nat}

/- `topmost` finds the topmost node. -/
theorem Numbered.top_topmost
    (h : Numbered f)
    (x : Nat) :
    Top f.parent x (f.topmost x) :=
  top_climb h.acyclic h.within x

/- An empty forest is numbered. -/
theorem numbered_empty :
    Numbered .empty where
  within := nofun
  parents := nofun
  blank _ _ := rfl
  acyclic := acyclic_none
  bounded _ _ hTop hNe := absurd (hTop.eq_of_none rfl).symm hNe
  unique _ _ _ hTop _ hNe _ _ _ :=
    absurd (hTop.eq_of_none rfl).symm hNe
  unnamed _ hSome := absurd rfl hSome
  legal _ hSome := absurd rfl hSome
  fresh _ _ := rfl
  property _ hSome := absurd rfl hSome

/- Creating a node leaves the others. -/
theorem node_create_other
    (name : List Byte)
    (hx : x ≠ f.size) :
    (f.create name).node x = f.node x :=
  Function.update_of_ne hx _ _

/- The new one has its name only. -/
theorem node_create_self
    (name : List Byte) :
    (f.create name).node f.size = .new name :=
  Function.update_self ..

/- A new node shows in its name only. -/
theorem Numbered.node_create
    {β : Type}
    (h : Numbered f)
    (name : List Byte)
    (member : PNode → β)
    (hSame : member (.new name) = member (.new []))
    (x : Nat) :
    member ((f.create name).node x) = member (f.node x) := by
  by_cases hx : x = f.size
  · rw [hx, node_create_self, h.blank _ (Nat.le_refl _), hSame]
  · rw [node_create_other name hx]

/- Creating a node keeps the forest numbered. -/
theorem Numbered.create
    (h : Numbered f)
    (name : List Byte) :
    Numbered (f.create name) := by
  have hParent : (f.create name).parent = f.parent :=
    funext (h.node_create name PNode.parent rfl)
  have hPhandle := h.node_create name PNode.phandle rfl
  have hProps := h.node_create name PNode.props rfl
  have hNew : f.parent f.size = none := by
    unfold Forest.parent
    rw [h.blank _ (Nat.le_refl _)]
    rfl
  constructor
  case within =>
    intro x p hSome
    rw [hParent] at hSome
    exact Nat.lt_succ_of_lt (h.within x p hSome)
  case parents =>
    intro x p hSome
    rw [hParent] at hSome
    exact Nat.lt_succ_of_lt (h.parents x p hSome)
  case blank =>
    intro x hx
    rw [node_create_other name (Nat.ne_of_gt hx)]
    exact h.blank x (Nat.le_of_succ_le hx)
  case unnamed =>
    intro x hSome hName
    rw [hParent] at hSome
    have hx : x ≠ f.size := fun hEq => hSome (hEq ▸ hNew)
    rw [node_create_other name hx] at hName ⊢
    exact h.unnamed x hSome hName
  all_goals simp only [hParent, hPhandle, hProps]
  · exact h.acyclic
  · exact h.bounded
  · exact h.unique
  · exact h.legal
  · exact h.fresh
  · exact h.property

/- Attaching a node links it both ways. -/
theorem addChild_top
    (hTop : f.parent child = none) :
    f.addChild node child =
      (f.modify child (fun n =>
        { n with parent := some node })).modify node (fun n =>
          { n with children := n.children ++ [child] }) :=
  if_neg (not_not.mpr hTop)

/- What attaching a top changes. -/
theorem addChild_eq
    (node : Nat)
    (hTop : f.parent child = none) :
    (f.addChild node child).parent =
        attach f.parent node child ∧
      (f.addChild node child).size = f.size ∧
      ∀ {β : Type} (member : PNode → β),
        (∀ n p, member { n with parent := p } = member n) →
        (∀ n c, member { n with children := c } = member n) →
        ∀ x, member ((f.addChild node child).node x) =
          member (f.node x) := by
  rw [addChild_top hTop]
  refine ⟨?_, rfl, ?_⟩
  · funext x
    refine (Forest.node_modify _ node x _ PNode.parent rfl).trans
      ?_
    by_cases hx : x = child
    · rw [hx, Forest.node_modify_self, attach_child]
    · rw [Forest.node_modify_other f _ hx, attach_other hx]
      rfl
  · intro β member hMember hChildren x
    refine (Forest.node_modify _ node x _ member
      (hChildren _ _)).trans ?_
    exact Forest.node_modify f child x _ member (hMember _ _)

/-
  Attaching a top without a phandle keeps the forest
  numbered.
-/
theorem Numbered.addChild
    (h : Numbered f)
    (hNode : node < f.size)
    (hChild : child < f.size)
    (hOther : f.topmost node ≠ child)
    (hTop : f.parent child = none)
    (hZero : (f.node child).phandle = 0) :
    Numbered (f.addChild node child) := by
  rcases addChild_eq node hTop with
    ⟨hParent, hSize, hMember⟩
  have hPhandle := hMember PNode.phandle
    (fun _ _ => rfl) (fun _ _ => rfl)
  have hProps := hMember PNode.props
    (fun _ _ => rfl) (fun _ _ => rfl)
  have hName := hMember PNode.name
    (fun _ _ => rfl) (fun _ _ => rfl)
  have hNodeTop := h.top_topmost node
  -- the nodes of the attached tree have no number yet
  have hUnset : ∀ x, Top f.parent x child →
      (f.node x).phandle = 0 := by
    intro x hIn
    by_cases hx : x = child
    · rw [hx, hZero]
    · have hLe := h.bounded x child hIn hx
      rw [hZero] at hLe
      exact BitVec.eq_of_toNat_eq (Nat.le_zero.mp hLe)
  have hTops : ∀ x t, Top (attach f.parent node child) x t →
      Top f.parent x child ∨ Top f.parent x t := by
    intro x t hAfter
    have hNow := top_attach hTop hNodeTop hOther
      (h.top_topmost x)
    have hEq := hAfter.unique hNow
    split at hEq
    case isTrue hIn =>
      exact Or.inl (hIn ▸ h.top_topmost x)
    case isFalse =>
      exact Or.inr (hEq ▸ h.top_topmost x)
  constructor
  case within =>
    intro x p hSome
    rw [hSize]
    rw [hParent] at hSome
    by_cases hx : x = child
    · rw [hx]
      exact hChild
    · rw [attach_other hx] at hSome
      exact h.within x p hSome
  case parents =>
    intro x p hSome
    rw [hSize]
    rw [hParent] at hSome
    by_cases hx : x = child
    · rw [hx, attach_child] at hSome
      cases hSome
      exact hNode
    · rw [attach_other hx] at hSome
      exact h.parents x p hSome
  case blank =>
    intro x hx
    rw [hSize] at hx
    rw [← h.blank x hx]
    rw [addChild_top hTop,
      Forest.node_modify_other _ _ (by omega),
      Forest.node_modify_other _ _ (by omega)]
  case acyclic =>
    rw [hParent]
    exact acyclic_attach h.acyclic hTop hNodeTop hOther
  all_goals simp only [hParent, hPhandle, hProps, hName]
  · intro x t hAfter hNe
    rcases hTops x t hAfter with hIn | hOld
    · rw [hUnset x hIn]
      exact Nat.zero_le _
    · exact h.bounded x t hOld hNe
  · intro x y t hX hY hxt hyt hxy hPos
    rcases hTops x t hX with hIn | hXOld
    · exact absurd (hUnset x hIn) hPos
    · rcases hTops y t hY with hIn | hYOld
      · rw [hUnset y hIn]
        exact hPos
      · exact h.unique x y t hXOld hYOld hxt hyt hxy hPos
  · intro x hSome hEmpty
    by_cases hx : x = child
    · rw [hx, hZero]
    · rw [attach_other hx] at hSome
      exact h.unnamed x hSome hEmpty
  · intro x hSome
    by_cases hx : x = child
    · rw [hx, hZero]
      decide
    · rw [attach_other hx] at hSome
      exact h.legal x hSome
  · intro x hNone
    refine h.fresh x (hNone.imp_left fun hNone => ?_)
    have hx : x ≠ child := by
      rintro rfl
      rw [attach_child] at hNone
      cases hNone
    rw [attach_other hx] at hNone
    exact hNone
  · intro x hSome hPos
    have hx : x ≠ child := fun hEq => hPos (hEq ▸ hZero)
    rw [attach_other hx] at hSome
    exact h.property x hSome hPos

end RiscvEm.Fdt

------------------------------------------------------------
-- New Phandles
------------------------------------------------------------

namespace RiscvEm.Fdt

open ByteCodec ParentLinks

variable {f : Forest}
variable {x y r : Nat}

/- A property that was not there is there once. -/
theorem filter_setProp
    (name data : List Byte)
    (ps : List Property)
    (hNone : ps.filter (·.name = name) = []) :
    (setProp name data ps).filter (·.name = name) =
      [⟨name, data⟩] := by
  induction ps with
  | nil =>
      unfold setProp
      rw [List.filter_cons_of_pos (by simp)]
      rfl
  | cons p ps ih =>
      have hAll := List.filter_eq_nil_iff.mp hNone
      have hHead : p.name ≠ name := by
        simpa using hAll p (List.mem_cons_self ..)
      have hRest : ps.filter (·.name = name) = [] :=
        List.filter_eq_nil_iff.mpr fun q hMem =>
          hAll q (List.mem_cons_of_mem _ hMem)
      unfold setProp
      rw [if_neg hHead, List.filter_cons_of_neg (by simpa)]
      exact ih hRest

/- The counter of the tree moves on, and `x` gets its value. -/
def Forest.number
    (f : Forest)
    (x r : Nat) : Forest :=
  let ph := (f.node r).phandle + 1
  (f.modify r (fun n => { n with phandle := ph })).modify x
    (fun n =>
      { n with phandle := ph }.addPropU32 phandleName ph)

/- Tops and nameless nodes get none. -/
theorem getPhandle_none
    (h : f.parent x = none ∨ (f.node x).name = []) :
    f.getPhandle x = (0, f) :=
  if_pos h

/- A legal phandle is returned again. -/
theorem getPhandle_old
    (hNot : ¬ (f.parent x = none ∨ (f.node x).name = []))
    (hLegal : isIllegalPhandle (f.node x).phandle ≠ true) :
    f.getPhandle x = ((f.node x).phandle, f) := by
  unfold Forest.getPhandle
  rw [if_neg hLegal]
  exact if_neg hNot

/- A node without a legal phandle gets the next number. -/
theorem getPhandle_new
    (hNot : ¬ (f.parent x = none ∨ (f.node x).name = []))
    (hIllegal : isIllegalPhandle (f.node x).phandle = true) :
    f.getPhandle x =
      ((f.node (f.topmost x)).phandle + 1,
        f.number x (f.topmost x)) := by
  unfold Forest.getPhandle
  rw [if_pos hIllegal]
  refine (if_neg hNot).trans ?_
  unfold Forest.allocateNewPhandle Forest.number
  dsimp only
  rw [Forest.node_modify_self]
  rfl

/- Zero and the largest word are no phandles. -/
theorem isIllegalPhandle_iff
    (ph : BitVec 32) :
    isIllegalPhandle ph = true ↔ ph = 0 ∨ ph = 0xFFFFFFFF := by
  unfold isIllegalPhandle
  rw [Bool.or_eq_true, beq_iff_eq, beq_iff_eq]

/- What a new phandle leaves as it is. -/
theorem number_frame
    {β : Type}
    (member : PNode → β)
    (hPhandle : ∀ n ph, member { n with phandle := ph } =
      member n)
    (hProps : ∀ n ps, member { n with props := ps } =
      member n)
    (y : Nat) :
    member ((f.number x r).node y) = member (f.node y) := by
  unfold Forest.number
  refine (Forest.node_modify _ x y _ member ?_).trans
    (Forest.node_modify f r y _ member (hPhandle _ _))
  exact (hProps _ _).trans (hPhandle _ _)

/- The node and the counter at its top get the new number. -/
theorem number_phandle
    (y : Nat) :
    ((f.number x r).node y).phandle =
      if y = x ∨ y = r then (f.node r).phandle + 1
      else (f.node y).phandle := by
  unfold Forest.number
  dsimp only
  by_cases hx : y = x
  · rw [hx, if_pos (Or.inl rfl), Forest.node_modify_self]
    rfl
  · rw [Forest.node_modify_other _ _ hx]
    by_cases hr : y = r
    · rw [hr, if_pos (Or.inr rfl), Forest.node_modify_self]
    · rw [if_neg (not_or.mpr ⟨hx, hr⟩),
        Forest.node_modify_other _ _ hr]

/- Numbering a node leaves the properties of others. -/
theorem number_props_other
    (hy : y ≠ x) :
    ((f.number x r).node y).props = (f.node y).props := by
  unfold Forest.number
  rw [Forest.node_modify_other _ _ hy]
  exact Forest.node_modify f r y _ PNode.props rfl

/- The node gets its `phandle`. -/
theorem number_props_self :
    ((f.number x r).node x).props =
      setProp phandleName
        (hostBytes 4 (toBe32 ((f.node r).phandle + 1)))
        (f.node x).props := by
  unfold Forest.number
  rw [Forest.node_modify_self]
  exact congrArg _
    (Forest.node_modify f r x _ PNode.props rfl)

/-
  A new number keeps the forest numbered, unless they ran
  out.
-/
theorem Numbered.number
    (h : Numbered f)
    (hTop : Top f.parent x r)
    (hNe : x ≠ r)
    (hNamed : (f.node x).name ≠ [])
    (hUnset : (f.node x).phandle = 0)
    (hCounter : (f.node r).phandle.toNat + 1 < 0xFFFFFFFF) :
    Numbered (f.number x r) := by
  have hParent : (f.number x r).parent = f.parent :=
    funext (number_frame PNode.parent (fun _ _ => rfl)
      (fun _ _ => rfl))
  have hName := number_frame (f := f) (x := x) (r := r)
    PNode.name (fun _ _ => rfl) (fun _ _ => rfl)
  have hSome := Forest.top_ne hTop hNe
  have hRoot : f.parent r = none := hTop.parent_eq
  have hNext : ((f.node r).phandle + 1).toNat =
      (f.node r).phandle.toNat + 1 := by
    rw [BitVec.toNat_add]
    exact Nat.mod_eq_of_lt (by
      change _ + 1 < 2 ^ 32
      omega)
  -- a node of another tree is neither of the two
  have hOut : ∀ y t, Top f.parent y t → y ≠ t → t ≠ r →
      ¬ (y = x ∨ y = r) := by
    rintro y t hY hyt htr (rfl | rfl)
    · exact htr (hY.unique hTop)
    · exact hyt (hY.eq_of_none hRoot).symm
  constructor
  case within =>
    rw [hParent]
    exact h.within
  case parents =>
    rw [hParent]
    exact h.parents
  case blank =>
    intro y hy
    rcases Option.ne_none_iff_exists'.mp hSome with ⟨p, hp⟩
    have hx := h.within x p hp
    have hr := hTop.closed h.parents hx
    change f.size ≤ y at hy
    unfold Forest.number
    rw [Forest.node_modify_other _ _ (by omega),
      Forest.node_modify_other _ _ (by omega)]
    exact h.blank y hy
  case acyclic =>
    rw [hParent]
    exact h.acyclic
  case bounded =>
    intro y t hY hyt
    rw [hParent] at hY
    rw [number_phandle, number_phandle]
    by_cases htr : t = r
    · have hLe := h.bounded y t hY hyt
      rw [htr] at hLe
      rw [htr, if_pos (Or.inr rfl), hNext]
      split
      · rw [hNext]
      · omega
    · have htx : t ≠ x := by
        rintro rfl
        exact hSome hY.parent_eq
      rw [if_neg (hOut y t hY hyt htr),
        if_neg (not_or.mpr ⟨htx, htr⟩)]
      exact h.bounded y t hY hyt
  case unique =>
    intro y z t hY hZ hyt hzt hyz hPos
    rw [hParent] at hY hZ
    rw [number_phandle] at hPos ⊢
    rw [number_phandle]
    by_cases htr : t = r
    · rw [htr] at hY hZ hyt hzt
      have hAbove : ∀ w, Top f.parent w r → w ≠ r →
          (f.node r).phandle + 1 ≠ (f.node w).phandle := by
        intro w hW hwr hEq
        have hLe := h.bounded w r hW hwr
        rw [← hEq, hNext] at hLe
        omega
      by_cases hyx : y = x
      · have hzx : ¬ (z = x ∨ z = r) :=
          not_or.mpr ⟨fun hEq => hyz (hyx.trans hEq.symm), hzt⟩
        rw [if_pos (Or.inl hyx), if_neg hzx]
        exact hAbove z hZ hzt
      · have hyOld : ¬ (y = x ∨ y = r) :=
          not_or.mpr ⟨hyx, hyt⟩
        rw [if_neg hyOld] at hPos ⊢
        split
        · exact (hAbove y hY hyt).symm
        · exact h.unique y z r hY hZ hyt hzt hyz hPos
    · have hYOut := hOut y t hY hyt htr
      have hZOut := hOut z t hZ hzt htr
      rw [if_neg hYOut] at hPos ⊢
      rw [if_neg hZOut]
      exact h.unique y z t hY hZ hyt hzt hyz hPos
  case unnamed =>
    intro y hParentY hEmpty
    rw [hParent] at hParentY
    rw [hName] at hEmpty
    have hy : ¬ (y = x ∨ y = r) := by
      rintro (rfl | rfl)
      · exact hNamed hEmpty
      · exact hParentY hRoot
    rw [number_phandle, if_neg hy]
    exact h.unnamed y hParentY hEmpty
  case legal =>
    intro y hParentY
    rw [hParent] at hParentY
    rw [number_phandle]
    split
    · intro hEq
      have hMax := congrArg BitVec.toNat hEq
      rw [hNext] at hMax
      change _ = 0xFFFFFFFF at hMax
      omega
    · exact h.legal y hParentY
  case fresh =>
    intro y hNone
    rw [hParent, number_phandle] at hNone
    by_cases hyx : y = x
    · rw [if_pos (Or.inl hyx)] at hNone
      rcases hNone with hNone | hZero
      · exact absurd (hyx ▸ hNone) hSome
      · have hMax := congrArg BitVec.toNat hZero
        rw [hNext] at hMax
        exact absurd hMax (Nat.succ_ne_zero _)
    · rw [number_props_other hyx]
      refine h.fresh y ?_
      rcases hNone with hNone | hZero
      · exact Or.inl hNone
      · by_cases hyr : y = r
        · exact Or.inl (hyr ▸ hRoot)
        · rw [if_neg (not_or.mpr ⟨hyx, hyr⟩)] at hZero
          exact Or.inr hZero
  case property =>
    intro y hParentY hPos
    rw [hParent] at hParentY
    rw [number_phandle] at hPos ⊢
    by_cases hyx : y = x
    · rw [if_pos (Or.inl hyx), hyx, number_props_self]
      exact filter_setProp _ _ _ (h.fresh x (Or.inr hUnset))
    · have hyr : y ≠ r := fun hEq => hParentY (hEq ▸ hRoot)
      rw [if_neg (not_or.mpr ⟨hyx, hyr⟩)] at hPos ⊢
      rw [number_props_other hyx]
      exact h.property y hParentY hPos

end RiscvEm.Fdt

------------------------------------------------------------
-- What Was Returned Stays
------------------------------------------------------------

namespace RiscvEm.Fdt

open ByteCodec ParentLinks

variable {f : Forest}
variable {ts : List PhandleStep}
variable {x : Nat}

/- Asking the node for its phandle changes nothing. -/
def Forest.Settled
    (f : Forest)
    (x : Nat) : Prop :=
  (f.parent x = none ∨ (f.node x).name = []) ∨
    (f.node x).phandle ≠ 0

/- What is seen of a top or a nameless node. -/
theorem phandleOf_none
    (h : f.parent x = none ∨ (f.node x).name = []) :
    f.phandleOf x = 0 :=
  if_pos h

/- The phandle of a named child is what its field holds. -/
theorem phandleOf_some
    (h : ¬ (f.parent x = none ∨ (f.node x).name = [])) :
    f.phandleOf x = (f.node x).phandle :=
  if_neg h

/- The three members that a phandle depends on. -/
theorem settled_congr
    {f' : Forest}
    (hParent : f'.parent x = f.parent x)
    (hName : (f'.node x).name = (f.node x).name)
    (hPhandle : (f'.node x).phandle = (f.node x).phandle)
    (hSettled : f.Settled x) :
    f'.phandleOf x = f.phandleOf x ∧ f'.Settled x := by
  constructor
  · have hLink : (f'.node x).parent = (f.node x).parent :=
      hParent
    unfold Forest.phandleOf
    simp only [hLink, hName, hPhandle]
  · unfold Forest.Settled
    rw [hParent, hName, hPhandle]
    exact hSettled

/- A node that had no phandle and gets none. -/
theorem settled_of_none
    {f' : Forest}
    (hBefore : f.parent x = none ∨ (f.node x).name = [])
    (hAfter : f'.parent x = none ∨ (f'.node x).name = []) :
    f'.phandleOf x = f.phandleOf x ∧ f'.Settled x := by
  refine ⟨?_, Or.inl hAfter⟩
  rw [phandleOf_none hAfter, phandleOf_none hBefore]

/- The top of a node that has a parent. -/
theorem Numbered.topmost_facts
    (h : Numbered f)
    (hSome : f.parent x ≠ none) :
    Top f.parent x (f.topmost x) ∧ x ≠ f.topmost x := by
  have hTop := h.top_topmost x
  refine ⟨hTop, fun hEq => hSome ?_⟩
  rw [hEq]
  exact hTop.parent_eq

/- A node that takes a number had none. -/
theorem Numbered.unset
    (h : Numbered f)
    (hSome : f.parent x ≠ none)
    (hIllegal : isIllegalPhandle (f.node x).phandle = true) :
    (f.node x).phandle = 0 := by
  rcases (isIllegalPhandle_iff _).mp hIllegal with hZero | hMax
  · exact hZero
  · exact absurd hMax (h.legal x hSome)

/- Every operation keeps the forest numbered. -/
theorem Numbered.exec
    (h : Numbered f)
    {op : PhandleOp}
    {value : BitVec 32}
    (hValid : op.Valid f)
    (hOk : StepOk ts ⟨f, op, value⟩) :
    Numbered (op.exec f).2 := by
  cases op with
  | create name => exact h.create name
  | addChild node child =>
      rcases hValid with ⟨hNode, hChild, hOther⟩
      by_cases hTop : f.parent child = none
      · exact h.addChild hNode hChild hOther hTop (hOk hTop)
      · have hSame : f.addChild node child = f := if_pos hTop
        change Numbered (f.addChild node child)
        rw [hSame]
        exact h
  | getPhandle y =>
      change Numbered (f.getPhandle y).2
      by_cases hNone : f.parent y = none ∨ (f.node y).name = []
      · rw [getPhandle_none hNone]
        exact h
      · have hBoth := not_or.mp hNone
        by_cases hIllegal :
          isIllegalPhandle (f.node y).phandle = true
        · rw [getPhandle_new hNone hIllegal]
          have hTop := h.topmost_facts hBoth.1
          exact h.number hTop.1 hTop.2 hBoth.2
            (h.unset hBoth.1 hIllegal)
            ((hOk hBoth.1 hBoth.2).2 hIllegal)
        · rw [getPhandle_old hNone hIllegal]
          exact h

/- Only a node on top can be attached. -/
theorem attaches_top
    {op : PhandleOp}
    (h : Attaches f x op) :
    f.parent x = none := by
  cases op with
  | addChild node child => exact h.1 ▸ h.2
  | create | getPhandle => exact h.elim

/- Unless it is attached, a settled node stays as it is. -/
theorem Numbered.settled_exec
    (h : Numbered f)
    (op : PhandleOp)
    (hSettled : f.Settled x)
    (hAttach : Attaches f x op → (f.node x).name = []) :
    (op.exec f).2.phandleOf x = f.phandleOf x ∧
      (op.exec f).2.Settled x := by
  cases op with
  | create name =>
      change (f.create name).phandleOf x = _ ∧
        (f.create name).Settled x
      have hParent := h.node_create name PNode.parent rfl x
      by_cases hx : x = f.size
      · have hNone : f.parent x = none := by
          unfold Forest.parent
          rw [hx, h.blank _ (Nat.le_refl _)]
          rfl
        exact settled_of_none (Or.inl hNone)
          (Or.inl (hParent.trans hNone))
      · have hNode := node_create_other (f := f) name hx
        exact settled_congr hParent (by rw [hNode])
          (by rw [hNode]) hSettled
  | addChild node child =>
      change (f.addChild node child).phandleOf x = _ ∧
        (f.addChild node child).Settled x
      by_cases hTop : f.parent child = none
      · rcases addChild_eq node hTop with
          ⟨hParent, -, hMember⟩
        have hName := hMember PNode.name
          (fun _ _ => rfl) (fun _ _ => rfl) x
        have hPhandle := hMember PNode.phandle
          (fun _ _ => rfl) (fun _ _ => rfl) x
        by_cases hx : x = child
        · have hEmpty := hAttach ⟨hx.symm, hTop⟩
          exact settled_of_none (Or.inr hEmpty)
            (Or.inr (hName.trans hEmpty))
        · have hSame := congrFun hParent x
          rw [attach_other hx] at hSame
          exact settled_congr hSame hName hPhandle hSettled
      · have hSame : f.addChild node child = f := if_pos hTop
        rw [hSame]
        exact ⟨rfl, hSettled⟩
  | getPhandle y =>
      change (f.getPhandle y).2.phandleOf x = _ ∧
        (f.getPhandle y).2.Settled x
      by_cases hNone : f.parent y = none ∨ (f.node y).name = []
      · rw [getPhandle_none hNone]
        exact ⟨rfl, hSettled⟩
      · have hBoth := not_or.mp hNone
        by_cases hIllegal :
          isIllegalPhandle (f.node y).phandle = true
        · rw [getPhandle_new hNone hIllegal]
          have hZero := h.unset hBoth.1 hIllegal
          have hxy : x ≠ y := by
            rintro rfl
            exact hSettled.elim hNone (fun hPos => hPos hZero)
          have hTop := h.top_topmost y
          have hParent := number_frame (f := f) (x := y)
            (r := f.topmost y) PNode.parent (fun _ _ => rfl)
            (fun _ _ => rfl) x
          by_cases hxr : x = f.topmost y
          · have hRoot : f.parent x = none :=
              hxr ▸ hTop.parent_eq
            exact settled_of_none (Or.inl hRoot)
              (Or.inl (hParent.trans hRoot))
          · refine settled_congr hParent ?_ ?_ hSettled
            · exact number_frame PNode.name (fun _ _ => rfl)
                (fun _ _ => rfl) x
            · rw [number_phandle,
                if_neg (not_or.mpr ⟨hxy, hxr⟩)]
        · rw [getPhandle_old hNone hIllegal]
          exact ⟨rfl, hSettled⟩

/- What `get_phandle` returns is the phandle from then on. -/
theorem getPhandle_settles
    {older : List PhandleStep}
    {value : BitVec 32}
    (hOk : StepOk older ⟨f, .getPhandle x, value⟩) :
    (f.getPhandle x).1 = (f.getPhandle x).2.phandleOf x ∧
      (f.getPhandle x).2.Settled x := by
  by_cases hNone : f.parent x = none ∨ (f.node x).name = []
  · rw [getPhandle_none hNone]
    exact ⟨(phandleOf_none hNone).symm, Or.inl hNone⟩
  · have hBoth := not_or.mp hNone
    by_cases hIllegal :
      isIllegalPhandle (f.node x).phandle = true
    · rw [getPhandle_new hNone hIllegal]
      have hLt : (f.node (f.topmost x)).phandle.toNat + 1 <
          0xFFFFFFFF := (hOk hBoth.1 hBoth.2).2 hIllegal
      have hParent := number_frame (f := f) (x := x)
        (r := f.topmost x) PNode.parent (fun _ _ => rfl)
        (fun _ _ => rfl) x
      have hName := number_frame (f := f) (x := x)
        (r := f.topmost x) PNode.name (fun _ _ => rfl)
        (fun _ _ => rfl) x
      have hNumber := number_phandle (f := f) (x := x)
        (r := f.topmost x) x
      rw [if_pos (Or.inl rfl)] at hNumber
      constructor
      · refine Eq.trans ?_ (phandleOf_some ?_).symm
        · exact hNumber.symm
        · intro hEither
          exact hNone (hEither.imp (hParent.symm.trans ·)
            (hName.symm.trans ·))
      · refine Or.inr ?_
        rw [hNumber]
        intro hZero
        have hMax := congrArg BitVec.toNat hZero
        rw [BitVec.toNat_add] at hMax
        change (_ + 1) % 2 ^ 32 = 0 at hMax
        omega
    · rw [getPhandle_old hNone hIllegal]
      refine ⟨(phandleOf_some hNone).symm, Or.inr ?_⟩
      intro hZero
      rw [hZero] at hIllegal
      exact hIllegal rfl

end RiscvEm.Fdt

------------------------------------------------------------
-- Whole Runs
------------------------------------------------------------

namespace RiscvEm.Fdt

open ByteCodec ParentLinks

variable {f : Forest}
variable {ts : List PhandleStep}
variable {x : Nat}

/- A node that has a parent keeps one. -/
theorem Numbered.linked_exec
    (h : Numbered f)
    {op : PhandleOp}
    (hSome : f.parent x ≠ none) :
    (op.exec f).2.parent x ≠ none := by
  cases op with
  | create name =>
      have hParent := h.node_create name PNode.parent rfl x
      change ((f.create name).node x).parent ≠ none
      rw [hParent]
      exact hSome
  | addChild node child =>
      change (f.addChild node child).parent x ≠ none
      by_cases hTop : f.parent child = none
      · rw [(addChild_eq node hTop).1]
        by_cases hx : x = child
        · rw [hx, attach_child]
          nofun
        · rw [attach_other hx]
          exact hSome
      · have hSame : f.addChild node child = f := if_pos hTop
        rw [hSame]
        exact hSome
  | getPhandle y =>
      change (f.getPhandle y).2.parent x ≠ none
      by_cases hNone : f.parent y = none ∨ (f.node y).name = []
      · rw [getPhandle_none hNone]
        exact hSome
      · by_cases hIllegal :
          isIllegalPhandle (f.node y).phandle = true
        · rw [getPhandle_new hNone hIllegal]
          have hParent := number_frame (f := f) (x := y)
            (r := f.topmost y) PNode.parent (fun _ _ => rfl)
            (fun _ _ => rfl) x
          change ((f.number y (f.topmost y)).node x).parent ≠
            none
          rw [hParent]
          exact hSome
        · rw [getPhandle_old hNone hIllegal]
          exact hSome

/- Every run keeps the forest numbered. -/
theorem PhandleRun.numbered
    (hRun : PhandleRun ts f)
    (hOk : StepsOk ts) :
    Numbered f := by
  induction hRun with
  | refl => exact numbered_empty
  | step _ hValid ih => exact (ih hOk.2).exec hValid hOk.1

/- Once a node was linked it is linked. -/
theorem PhandleRun.linked
    (hRun : PhandleRun ts f)
    (hOk : StepsOk ts) :
    ∀ t ∈ ts, t.before.parent x ≠ none →
      f.parent x ≠ none := by
  induction hRun with
  | refl => exact List.forall_mem_nil _
  | @step ts f op hRun hValid ih =>
      have hNumbered := hRun.numbered hOk.2
      refine List.forall_mem_cons.mpr ⟨?_, ?_⟩
      · exact hNumbered.linked_exec
      · intro t hMem hSome
        exact hNumbered.linked_exec (ih hOk.2 t hMem hSome)

/-
  A value that was returned is the phandle now, unless it is
  the zero of a node that was a top.
-/
def Answered
    (ts : List PhandleStep)
    (f : Forest) : Prop :=
  ∀ t ∈ ts, ∀ x, t.op = .getPhandle x →
    (t.value = f.phandleOf x ∧ f.Settled x) ∨
      (t.value = 0 ∧ t.before.parent x = none)

/- Over a run, phandles stay what they were answered to be. -/
theorem PhandleRun.answered
    (hRun : PhandleRun ts f)
    (hOk : StepsOk ts) :
    Answered ts f := by
  induction hRun with
  | refl => exact List.forall_mem_nil _
  | @step ts f op hRun hValid ih =>
      have hNumbered := hRun.numbered hOk.2
      refine List.forall_mem_cons.mpr ⟨?_, ?_⟩
      · rintro x hOp
        dsimp only at hOp
        cases hOp
        exact Or.inl (getPhandle_settles hOk.1)
      · intro t hMem x hOp
        rcases ih hOk.2 t hMem x hOp with ⟨hOld, hSettled⟩ | h
        · by_cases hTop : f.parent x = none
          · -- the node may be linked now
            refine Or.inr ⟨?_, ?_⟩
            · rw [hOld, phandleOf_none (Or.inl hTop)]
            · by_contra hSome
              exact hRun.linked hOk.2 t hMem hSome hTop
          · have hNew := hNumbered.settled_exec op
              hSettled (fun hAttach => absurd
                (attaches_top hAttach) hTop)
            exact Or.inl ⟨hOld.trans hNew.1.symm, hNew.2⟩
        · exact Or.inr h

/- Asking again returns the same. -/
theorem PhandleRun.repeated
    (hRun : PhandleRun ts f)
    (hOk : StepsOk ts) :
    ∀ t ∈ ts, ∀ s ∈ ts, ∀ x,
      t.op = .getPhandle x → s.op = .getPhandle x →
        t.value = s.value := by
  induction hRun with
  | refl => exact List.forall_mem_nil _
  | @step ts f op hRun hValid ih =>
      have hNumbered := hRun.numbered hOk.2
      -- the newest call and an older one
      have hPair : ∀ s ∈ ts, ∀ x, op = .getPhandle x →
          s.op = .getPhandle x →
            (op.exec f).1 = s.value := by
        rintro s hMem x rfl hOp
        have hNow := getPhandle_settles hOk.1
        rcases hRun.answered hOk.2 s hMem x hOp with
          ⟨hOld, hSettled⟩ | ⟨hZero, hTop⟩
        · have hNew := hNumbered.settled_exec
            (.getPhandle x) hSettled nofun
          exact (hNow.1.trans hNew.1).trans hOld.symm
        · by_cases hNone : f.parent x = none ∨
              (f.node x).name = []
          · change (f.getPhandle x).1 = _
            rw [getPhandle_none hNone, hZero]
          · have hBoth := not_or.mp hNone
            exact absurd ⟨s, hMem, hOp, hTop⟩
              (hOk.1 hBoth.1 hBoth.2).1
      refine List.forall_mem_cons.mpr ⟨?_, ?_⟩
      · refine List.forall_mem_cons.mpr ⟨fun _ _ _ => rfl, ?_⟩
        exact hPair
      · intro t hMem
        refine List.forall_mem_cons.mpr ⟨?_, ih hOk.2 t hMem⟩
        intro x hOpT hOp
        exact (hPair t hMem x hOp hOpT).symm

/- A node with a phandle has a parent and a name. -/
theorem phandleOf_ne_zero
    (h : f.phandleOf x ≠ 0) :
    f.parent x ≠ none ∧ f.phandleOf x = (f.node x).phandle := by
  have hNot : ¬ (f.parent x = none ∨ (f.node x).name = []) :=
    fun hNone => h (phandleOf_none hNone)
  exact ⟨(not_or.mp hNot).1, phandleOf_some hNot⟩

/-
  While trees without numbers are attached, no node gets a
  number after it was asked as a top, and the counter does
  not run out, phandles are unique and stay.
-/
theorem phandles_unique_of_steps
    (ts : List PhandleStep)
    (f : Forest)
    (hRun : PhandleRun ts f)
    (hOk : StepsOk ts) :
    PhandlesOk ts f := by
  have h := hRun.numbered hOk
  have hAnswered := hRun.answered hOk
  refine ⟨?_, ?_, ?_⟩
  · intro x y _ _ hxy hTree hPos hEq
    have hPosY : f.phandleOf y ≠ 0 := hEq ▸ hPos
    rcases phandleOf_ne_zero hPos with ⟨hParentX, hX⟩
    rcases phandleOf_ne_zero hPosY with ⟨hParentY, hY⟩
    have hTopX := h.topmost_facts hParentX
    have hTopY := h.topmost_facts hParentY
    rw [← hTree] at hTopY
    refine h.unique x y _ hTopX.1 hTopY.1 hTopX.2 hTopY.2 hxy
      (hX ▸ hPos) ?_
    rw [← hX, hEq, hY]
  · intro t hMem x hOp hPos
    have hValue := ((hAnswered t hMem x hOp).resolve_right
      (fun hZero => hPos hZero.1)).1
    rw [hValue] at hPos ⊢
    rcases phandleOf_ne_zero hPos with ⟨hParent, hPhandle⟩
    rw [hPhandle] at hPos ⊢
    exact h.property x hParent hPos
  · exact hRun.repeated hOk

end RiscvEm.Fdt

------------------------------------------------------------
-- Two Orders Of Building
------------------------------------------------------------

namespace RiscvEm.Fdt

/- Execute operations, of which the newest comes first. -/
def buildForest : List PhandleOp → Forest
  | [] => .empty
  | op :: ops => (op.exec (buildForest ops)).2

def buildSteps : List PhandleOp → List PhandleStep
  | [] => []
  | op :: ops =>
      ⟨buildForest ops, op, (op.exec (buildForest ops)).1⟩ ::
        buildSteps ops

def ValidOps : List PhandleOp → Prop
  | [] => True
  | op :: ops => op.Valid (buildForest ops) ∧ ValidOps ops

instance ValidOps.decidable :
    (ops : List PhandleOp) → Decidable (ValidOps ops)
  | [] => inferInstanceAs (Decidable True)
  | op :: ops =>
      have := ValidOps.decidable ops
      inferInstanceAs (Decidable (op.Valid _ ∧ _))

/- A valid list of operations is a run. -/
theorem phandleRun_of_ops
    {ops : List PhandleOp}
    (hValid : ValidOps ops) :
    PhandleRun (buildSteps ops) (buildForest ops) := by
  induction ops with
  | nil => exact .refl
  | cons op ops ih => exact .step (ih hValid.2) hValid.1

/-
  The order of `init_fdt` for one hart, and a device: the
  interrupt controller of the hart is asked while it is a
  top, and the device when it is attached, twice.
-/
def initOrder : List PhandleOp :=
  [.getPhandle 5, .getPhandle 5, .addChild 4 5,
    .create [0x70, 0x6C, 0x69, 0x63], .addChild 0 4,
    .create [0x73, 0x6F, 0x63], .addChild 0 1, .addChild 1 2,
    .addChild 2 3, .getPhandle 3,
    .create [0x69, 0x6E, 0x74, 0x63],
    .create [0x63, 0x70, 0x75, 0x40, 0x30],
    .create [0x63, 0x70, 0x75, 0x73], .create []]

/- Both calls for the device return one. -/
theorem phandles_unique_init_order :
    PhandlesOk (buildSteps initOrder)
        (buildForest initOrder) ∧
      (buildForest initOrder).phandleOf 5 = 1 := by
  have hValid : ValidOps initOrder := by decide +kernel
  have hOk : StepsOk (buildSteps initOrder) := by
    decide +kernel
  exact ⟨phandles_unique_of_steps (buildSteps initOrder)
    (buildForest initOrder) (phandleRun_of_ops hValid) hOk,
    rfl⟩

/- The child of a subtree is asked before it is attached. -/
def attachLater : List PhandleOp :=
  [.getPhandle 1, .addChild 0 1, .getPhandle 2, .addChild 1 2,
    .create [0x62], .create [0x61], .create []]

/- Node 1 reports the counter of its subtree as its phandle. -/
theorem phandles_clash_attach_later :
    PhandleRun (buildSteps attachLater)
        (buildForest attachLater) ∧
      (buildForest attachLater).phandleOf 1 = 1 ∧
      (buildForest attachLater).phandleOf 2 = 1 ∧
      ¬ PhandlesOk (buildSteps attachLater)
        (buildForest attachLater) := by
  have hOne : (buildForest attachLater).phandleOf 1 = 1 := rfl
  have hTwo : (buildForest attachLater).phandleOf 2 = 1 := rfl
  refine ⟨phandleRun_of_ops ?_, hOne, hTwo, fun hOk => ?_⟩
  · exact ⟨by decide, by decide, by decide, by decide,
      trivial, trivial, trivial, trivial⟩
  · refine hOk.unique 1 2 (by decide) (by decide) (by decide)
      rfl ?_ (hOne.trans hTwo.symm)
    rw [hOne]
    decide

end RiscvEm.Fdt
