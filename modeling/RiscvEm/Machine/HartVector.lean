import RiscvEm.Machine.Reset

/-
  The growth of `Machine::harts` while the machine is
  constructed.

  When the vector is full, its harts move to a new block. The
  move constructor of a hart takes the compiled code along
  and leaves the other members as the block has them.

  Key definitions include:
    * `HartObject.move`
    * `HartVector.emplaceBack`
    * `constructHarts`
    * `HartIdentity`

  Key theorems include `hart_identity_iff`.
-/

------------------------------------------------------------
-- Hart Objects
------------------------------------------------------------

namespace RiscvEm

/-
  A hart with the pointers that its constructors assign: the
  compiled code that it owns, and `hctx.hart`.
-/
structure HartObject where
  hart : Hart
  jctx : Option JitContext
  hctxHart : Nat

namespace HartObject

/- The constructor at address `this`. -/
def new
    (id : BitVec 8)
    (memsize : BitVec 64)
    (this : Nat)
    (storage : HartObject) : HartObject :=
  { hart := Hart.new id storage.hart
    jctx := some (JitContext.init memsize)
    hctxHart := this }

/-
  The move constructor. Apart from `jctx` it assigns members
  that have an initialiser.
-/
def move
    (other storage : HartObject) : HartObject :=
  { hart := { storage.hart with
      WFI := false
      lastJitPcExit := 0
      exitPc := 0 }
    jctx := other.jctx
    hctxHart := storage.hctxHart }

/- `h.init(dtb_path_in_memory, entry_pc)`. -/
def init
    (o : HartObject)
    (dtbPosAtMemory entryPc : BitVec 64) : HartObject :=
  { o with hart := o.hart.init dtbPosAtMemory entryPc }

end HartObject

end RiscvEm

------------------------------------------------------------
-- The Vector
------------------------------------------------------------

namespace RiscvEm

/-
  The capacity that an implementation chooses when it grows a
  full vector; there is room for one more element at least.
-/
structure Growth where
  capacity : Nat → Nat
  enough : ∀ size, size < capacity size

/-
  The blocks that the allocator hands out, by the number of
  elements at that time: where they begin and what they hold.
-/
structure HartBlocks where
  sizeofHart : Nat
  base : Nat → Nat
  contents : Nat → Nat → HartObject

structure HartVector where
  slots : List HartObject
  capacity : Nat
  base : Nat
  contents : Nat → HartObject

/- The address of element `i` of a block. -/
def HartBlocks.address
    (blocks : HartBlocks)
    (base i : Nat) : Nat :=
  base + i * blocks.sizeofHart

namespace HartVector

/- A vector without a block. -/
def empty
    (blocks : HartBlocks) : HartVector :=
  { slots := []
    capacity := 0
    base := 0
    contents := blocks.contents 0 }

/- `harts.emplace_back(id, memsize)`. -/
def emplaceBack
    (growth : Growth)
    (blocks : HartBlocks)
    (memsize : BitVec 64)
    (v : HartVector)
    (id : BitVec 8) : HartVector :=
  let size := v.slots.length
  if size < v.capacity then
    { v with
      slots := v.slots ++ [.new id memsize
        (blocks.address v.base size) (v.contents size)] }
  else
    let block : HartVector :=
      { slots := []
        capacity := growth.capacity size
        base := blocks.base size
        contents := blocks.contents size }
    { block with
      slots := v.slots.mapIdx
          (fun i o => o.move (block.contents i)) ++
        [.new id memsize (blocks.address block.base size)
          (block.contents size)] }

end HartVector

/- The loop of `Machine::Machine`. -/
def constructHarts
    (growth : Growth)
    (blocks : HartBlocks)
    (memsize : BitVec 64) : Nat → HartVector
  | 0 => .empty blocks
  | i + 1 =>
      (constructHarts growth blocks memsize i).emplaceBack
        growth blocks memsize (BitVec.ofNat 8 i)

/- The loop of `Machine::run` that initialises the harts. -/
def HartVector.initHarts
    (v : HartVector)
    (dtbPosAtMemory entryPc : BitVec 64) : HartVector :=
  { v with
    slots := v.slots.map (·.init dtbPosAtMemory entryPc) }

/- A hart knows its number and its place. -/
structure HartIdentity
    (blocks : HartBlocks)
    (v : HartVector)
    (dtbPosAtMemory entryPc : BitVec 64)
    (i : Nat) : Prop where
  constructed : ∃ o, v.slots[i]? = some o ∧
    o.hart.id = BitVec.ofNat 8 i ∧
      o.hctxHart = blocks.address v.base i
  initialised : ∃ o,
    (v.initHarts dtbPosAtMemory entryPc).slots[i]? = some o ∧
    o.hart.csrs CSR_MHARTID = BitVec.ofNat 64 i ∧
    o.hart.GPR 10 = BitVec.ofNat 64 i

end RiscvEm

------------------------------------------------------------
-- Vectors That Never Move
------------------------------------------------------------

namespace RiscvEm

variable {growth : Growth}
variable {blocks : HartBlocks}
variable {memsize dtbPosAtMemory entryPc : BitVec 64}

/- The vector in the first block, with `n` harts. -/
def HartVector.filled
    (growth : Growth)
    (blocks : HartBlocks)
    (memsize : BitVec 64)
    (n : Nat) : HartVector :=
  { slots := (List.range n).map fun i =>
      .new (BitVec.ofNat 8 i) memsize
        (blocks.address (blocks.base 0) i)
        (blocks.contents 0 i)
    capacity := growth.capacity 0
    base := blocks.base 0
    contents := blocks.contents 0 }

/- As long as the first block has room, no hart moves. -/
theorem constructHarts_filled
    {n : Nat}
    (hFits : n + 1 ≤ growth.capacity 0) :
    constructHarts growth blocks memsize (n + 1) =
      .filled growth blocks memsize (n + 1) := by
  induction n with
  | zero => rfl
  | succ n ih =>
      rw [constructHarts, ih (by omega)]
      unfold HartVector.emplaceBack
      have hLen : (HartVector.filled growth blocks memsize
          (n + 1)).slots.length = n + 1 := by
        unfold HartVector.filled
        rw [List.length_map, List.length_range]
      have hRoom : n + 1 < (HartVector.filled growth blocks
          memsize (n + 1)).capacity := hFits
      dsimp only
      rw [hLen, if_pos hRoom]
      unfold HartVector.filled
      rw [List.range_succ (n := n + 1), List.map_append]
      rfl

theorem filled_slot
    (growth : Growth)
    (blocks : HartBlocks)
    (memsize : BitVec 64)
    {n i : Nat}
    (hi : i < n) :
    (HartVector.filled growth blocks memsize n).slots[i]? =
      some (.new (BitVec.ofNat 8 i) memsize
        (blocks.address (blocks.base 0) i)
        (blocks.contents 0 i)) := by
  unfold HartVector.filled
  rw [List.getElem?_map, List.getElem?_range hi]
  rfl

/- A number of one byte, as the registers show it. -/
theorem setWidth_hartId
    {i : Nat}
    (hi : i < 256) :
    (BitVec.ofNat 8 i).setWidth 64 = BitVec.ofNat 64 i := by
  apply BitVec.eq_of_toNat_eq
  rw [BitVec.toNat_setWidth, BitVec.toNat_ofNat,
    BitVec.toNat_ofNat]
  omega

theorem identity_of_fits
    {n i : Nat}
    (hFits : n ≤ growth.capacity 0)
    (hByte : n ≤ 256)
    (hi : i < n) :
    HartIdentity blocks
      (constructHarts growth blocks memsize n)
      dtbPosAtMemory entryPc i := by
  cases n with
  | zero => exact absurd hi (Nat.not_lt_zero i)
  | succ n =>
      rw [constructHarts_filled hFits]
      have hId := setWidth_hartId (i := i) (by omega)
      have hSlot := filled_slot growth blocks memsize hi
      have hInit : ((HartVector.filled growth blocks memsize
          (n + 1)).initHarts dtbPosAtMemory entryPc).slots[i]? =
            some ((HartObject.new (BitVec.ofNat 8 i) memsize
              (blocks.address (blocks.base 0) i)
              (blocks.contents 0 i)).init
                dtbPosAtMemory entryPc) := by
        unfold HartVector.initHarts
        rw [List.getElem?_map, hSlot]
        rfl
      exact ⟨⟨_, hSlot, rfl, rfl⟩, ⟨_, hInit, hId, hId⟩⟩

end RiscvEm

------------------------------------------------------------
-- Harts That Moved
------------------------------------------------------------

namespace RiscvEm

/-
  Growth keeps the first hart, or builds it from what the new
  block holds.
-/
theorem emplaceBack_first
    (growth : Growth)
    (blocks : HartBlocks)
    (memsize : BitVec 64)
    {v : HartVector}
    {o : HartObject}
    (id : BitVec 8)
    (hFirst : v.slots[0]? = some o) :
    (v.emplaceBack growth blocks memsize id).slots[0]? =
        some o ∧ v.slots.length < v.capacity ∨
      ∃ storage ∈ Set.range (blocks.contents v.slots.length),
        (v.emplaceBack growth blocks memsize id).slots[0]? =
          some (o.move storage) := by
  have hLt : 0 < v.slots.length :=
    (List.getElem?_eq_some_iff.mp hFirst).1
  unfold HartVector.emplaceBack
  dsimp only
  split
  case isTrue hRoom =>
    refine Or.inl ⟨?_, hRoom⟩
    rw [List.getElem?_append_left hLt]
    exact hFirst
  case isFalse hFull =>
    refine Or.inr ⟨_, ⟨0, rfl⟩, ?_⟩
    rw [List.getElem?_append_left (by
        rw [List.length_mapIdx]
        exact hLt),
      List.getElem?_mapIdx, hFirst]
    rfl

/- Once it moved, the first hart has a number that was there. -/
theorem first_id_of_moved
    (growth : Growth)
    (blocks : HartBlocks)
    (memsize : BitVec 64)
    {x : BitVec 8}
    (hBlocks : ∀ k j, (blocks.contents k j).hart.id = x)
    {n : Nat}
    (hMoved : growth.capacity 0 < n) :
    ∃ o, (constructHarts growth blocks memsize n).slots[0]? =
      some o ∧ o.hart.id = x := by
  induction n with
  | zero => exact absurd hMoved (Nat.not_lt_zero _)
  | succ n ih =>
      rw [constructHarts]
      by_cases hBefore : growth.capacity 0 < n
      case pos =>
        rcases ih hBefore with ⟨o, hFirst, hId⟩
        rcases emplaceBack_first growth blocks memsize
          (BitVec.ofNat 8 n) hFirst with
            ⟨hKept, -⟩ | ⟨storage, ⟨j, rfl⟩, hMove⟩
        · exact ⟨o, hKept, hId⟩
        · exact ⟨_, hMove, hBlocks _ j⟩
      case neg =>
        -- the first block is full now
        have hFull : n = growth.capacity 0 := by omega
        have hPos := growth.enough 0
        rcases Nat.exists_eq_succ_of_ne_zero
          (by omega : n ≠ 0) with ⟨k, rfl⟩
        rw [constructHarts_filled (by omega)]
        rcases emplaceBack_first growth blocks memsize
          (BitVec.ofNat 8 (k + 1)) (filled_slot growth blocks
            memsize (Nat.succ_pos k)) with
              ⟨-, hRoom⟩ | ⟨storage, ⟨j, rfl⟩, hMove⟩
        · unfold HartVector.filled at hRoom
          dsimp only at hRoom
          rw [List.length_map, List.length_range] at hRoom
          omega
        · exact ⟨_, hMove, hBlocks _ j⟩

/- Memory in which a hart of another number was. -/
def HartBlocks.used : HartBlocks :=
  { sizeofHart := 0x9000
    base := fun _ => 0x10000
    contents := fun _ _ =>
      { hart := Hart.zero 1
        jctx := none
        hctxHart := 0 } }

/-
  Whatever the blocks hold, every hart knows its number and
  its place, exactly if the first block has room for all of
  them.
-/
theorem hart_identity_iff
    (growth : Growth)
    (memsize dtbPosAtMemory entryPc : BitVec 64)
    (hartCount : BitVec 8) :
    (∀ blocks : HartBlocks, ∀ i < hartCount.toNat,
        HartIdentity blocks
          (constructHarts growth blocks memsize
            hartCount.toNat)
          dtbPosAtMemory entryPc i) ↔
      hartCount.toNat ≤ growth.capacity 0 := by
  have hByte := hartCount.isLt
  constructor
  · intro hAll
    by_contra hMore
    rw [not_le] at hMore
    rcases (hAll .used 0 (by omega)).constructed with
      ⟨o, hFirst, hId, -⟩
    rcases first_id_of_moved growth .used memsize
      (fun _ _ => rfl) hMore with
        ⟨o', hFirst', hId'⟩
    rw [hFirst] at hFirst'
    cases hFirst'
    rw [hId] at hId'
    exact absurd hId' (by decide)
  · intro hFits blocks i hi
    exact identity_of_fits hFits (by omega) hi

/- Capacities 1, 2, 4 and so on. -/
def Growth.doubling : Growth :=
  { capacity := fun size => size + max size 1
    enough := fun size => by omega }

/- Two harts: the second makes the first move. -/
theorem second_hart_moves_first :
    ¬ ∀ blocks : HartBlocks, ∀ i < 2,
      HartIdentity blocks
        (constructHarts .doubling blocks 0x100000 2)
        0x800E0000 0x80000000 i := by
  intro hAll
  rcases (hAll .used 0 (by decide)).constructed with
    ⟨o, hFirst, hId, -⟩
  cases hFirst
  exact absurd hId (by decide)

end RiscvEm
