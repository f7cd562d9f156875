import RiscvEm.Fdt.Format
import Mathlib.Data.List.TakeWhile
import Mathlib.Tactic.IntervalCases

/-
  What the serializer writes, as lists of bytes, and that the
  sizes it computes beforehand are the lengths of these.

  Key definitions include:
    * `nodeBytes`, `nodeNames`
    * `totalSize`
    * `Node.NulFree`

  Key theorems include `treeDesc_eq`.
-/

------------------------------------------------------------
-- Blocks Of A Tree
------------------------------------------------------------

namespace RiscvEm.Fdt

open ByteCodec

/- A name with its terminator and padding. -/
def nameBytes
    (s : List Byte) : List Byte :=
  pad4 (cStr s ++ [0])

/- A property, whose name is at `nameOff`. -/
def propBytes
    (p : Property)
    (nameOff : Nat) : List Byte :=
  be32 FDT_PROP ++
    (be32 (BitVec.ofNat 32 p.data.length) ++
      (be32 (BitVec.ofNat 32 nameOff) ++ pad4 p.data))

def propsBytes : List Property → Nat → List Byte
  | [], _ => []
  | p :: ps, nameOff =>
      propBytes p nameOff ++
        propsBytes ps (nameOff + (nameBytes p.name).length)

def propsNames : List Property → List Byte
  | [] => []
  | p :: ps => nameBytes p.name ++ propsNames ps

mutual

/- The names of a tree, in the strings block. -/
def nodeNames : Node → List Byte
  | .mk _ props children =>
      propsNames props ++ nodesNames children

def nodesNames : List Node → List Byte
  | [] => []
  | c :: cs => nodeNames c ++ nodesNames cs

end

mutual

/- A tree in the structure block; its names are at `nameOff`. -/
def nodeBytes : Node → Nat → List Byte
  | .mk name props children, nameOff =>
      be32 FDT_BEGIN_NODE ++ (nameBytes name ++
        (propsBytes props nameOff ++
          (nodesBytes children
              (nameOff + (propsNames props).length) ++
            be32 FDT_END_NODE)))

def nodesBytes : List Node → Nat → List Byte
  | [], _ => []
  | c :: cs, nameOff =>
      nodeBytes c nameOff ++
        nodesBytes cs (nameOff + (nodeNames c).length)

end

end RiscvEm.Fdt

------------------------------------------------------------
-- Sizes Of A Tree
------------------------------------------------------------

namespace RiscvEm.Fdt

open ByteCodec

/- The next multiple of four. -/
def align4
    (n : Nat) : Nat :=
  (n + 3) / 4 * 4

def propsSize : List Property → Nat
  | [] => 0
  | p :: ps => 12 + align4 p.data.length + propsSize ps

def propsNamesSize : List Property → Nat
  | [] => 0
  | p :: ps => align4 (p.name.length + 1) + propsNamesSize ps

mutual

/- The size of a tree in the structure block. -/
def structSize : Node → Nat
  | .mk name props children =>
      4 + align4 (name.length + 1) + propsSize props +
        structSizes children + 4

def structSizes : List Node → Nat
  | [] => 0
  | c :: cs => structSize c + structSizes cs

end

mutual

/- The size of its names. -/
def stringsSize : Node → Nat
  | .mk _ props children =>
      propsNamesSize props + stringsSizes children

def stringsSizes : List Node → Nat
  | [] => 0
  | c :: cs => stringsSize c + stringsSizes cs

end

/- Header, reservations, structure block and strings block. -/
def totalSize
    (node : Node) : Nat :=
  40 + 16 + (structSize node + 4) + stringsSize node

def PropsNulFree
    (ps : List Property) : Prop :=
  ∀ p ∈ ps, 0 ∉ p.name

mutual

/- No name in the tree contains a zero byte. -/
def Node.NulFree : Node → Prop
  | .mk name props children =>
      0 ∉ name ∧ PropsNulFree props ∧ NodesNulFree children

def NodesNulFree : List Node → Prop
  | [] => True
  | c :: cs => c.NulFree ∧ NodesNulFree cs

end

/- Trees that are built from such names have only such names. -/
theorem Node.nulFree_create
    {name : List Byte}
    (h : 0 ∉ name) :
    (Node.create name).NulFree := by
  refine ⟨h, ?_, trivial⟩
  intro p hMem
  cases hMem

/- A child without zero bytes may be appended. -/
theorem nodesNulFree_append
    {nodes : List Node}
    {node : Node}
    (h : NodesNulFree nodes)
    (hNode : node.NulFree) :
    NodesNulFree (nodes ++ [node]) := by
  induction nodes with
  | nil => exact ⟨hNode, trivial⟩
  | cons c cs ih => exact ⟨h.1, ih h.2⟩

/- Adding a child keeps names and values clean. -/
theorem Node.NulFree.addChild
    {node child : Node}
    (h : node.NulFree)
    (hChild : child.NulFree) :
    (node.addChild child).NulFree := by
  rcases node with ⟨name, props, children⟩
  rcases h with ⟨hName, hProps, hChildren⟩
  exact ⟨hName, hProps, nodesNulFree_append hChildren hChild⟩

/-
  Setting a property keeps names clean, whatever the value.
-/
theorem propsNulFree_setProp
    {ps : List Property}
    {name : List Byte}
    (h : PropsNulFree ps)
    (hName : 0 ∉ name)
    (data : List Byte) :
    PropsNulFree (setProp name data ps) := by
  induction ps with
  | nil => exact List.forall_mem_singleton.mpr hName
  | cons p ps ih =>
      rcases List.forall_mem_cons.mp h with ⟨hHead, hRest⟩
      unfold setProp
      split
      · exact List.forall_mem_cons.mpr ⟨hName, hRest⟩
      · exact List.forall_mem_cons.mpr ⟨hHead, ih hRest⟩

/-
  A property with a proper name keeps the node free of NULs.
-/
theorem Node.NulFree.addProp
    {node : Node}
    {name : List Byte}
    (h : node.NulFree)
    (hName : 0 ∉ name)
    (data : List Byte) :
    (node.addProp name data).NulFree := by
  rcases node with ⟨nodeName, props, children⟩
  rcases h with ⟨hNode, hProps, hChildren⟩
  unfold Node.addProp
  split
  · exact ⟨hNode, hProps, hChildren⟩
  · exact ⟨hNode, propsNulFree_setProp hProps hName data,
      hChildren⟩

/- A name without a zero byte is its own C string. -/
theorem cStr_of_nulFree
    {s : List Byte}
    (h : 0 ∉ s) :
    cStr s = s := by
  unfold cStr
  rw [List.takeWhile_eq_self_iff]
  intro b hb
  rw [decide_eq_true_iff]
  intro hZero
  rw [hZero] at hb
  exact h hb

/- A name takes a multiple of four bytes with its zero. -/
theorem length_nameBytes
    {s : List Byte}
    (h : 0 ∉ s) :
    (nameBytes s).length = align4 (s.length + 1) := by
  unfold nameBytes
  rw [length_pad4, cStr_of_nulFree h, List.length_append]
  rfl

/- A property takes three words and its padded value. -/
theorem length_propBytes
    (p : Property)
    (nameOff : Nat) :
    (propBytes p nameOff).length =
      12 + align4 p.data.length := by
  unfold propBytes
  simp only [List.length_append, length_be32, length_pad4]
  unfold align4
  omega

/- The properties of a node take what was counted for them. -/
theorem length_propsBytes
    (ps : List Property)
    (nameOff : Nat) :
    (propsBytes ps nameOff).length = propsSize ps := by
  induction ps generalizing nameOff with
  | nil => rfl
  | cons p ps ih =>
      unfold propsBytes propsSize
      rw [List.length_append, length_propBytes, ih]

/- The names take the bytes that were counted for them. -/
theorem length_propsNames
    {ps : List Property}
    (h : PropsNulFree ps) :
    (propsNames ps).length = propsNamesSize ps := by
  induction ps with
  | nil => rfl
  | cons p ps ih =>
      rcases List.forall_mem_cons.mp h with ⟨hName, hRest⟩
      unfold propsNames propsNamesSize
      rw [List.length_append, length_nameBytes hName, ih hRest]

mutual

/- Over the tree, the names take what was counted. -/
theorem length_nodeNames :
    (node : Node) → node.NulFree →
      (nodeNames node).length = stringsSize node
  | .mk name props children, h => by
      rcases h with ⟨hName, hProps, hChildren⟩
      unfold nodeNames stringsSize
      rw [List.length_append, length_propsNames hProps,
        length_nodesNames children hChildren]

theorem length_nodesNames :
    (nodes : List Node) → NodesNulFree nodes →
      (nodesNames nodes).length = stringsSizes nodes
  | [], _ => rfl
  | c :: cs, h => by
      unfold nodesNames stringsSizes
      rw [List.length_append, length_nodeNames c h.1,
        length_nodesNames cs h.2]

end

mutual

/- Over the tree, the blocks take what was counted. -/
theorem length_nodeBytes :
    (node : Node) → node.NulFree → (nameOff : Nat) →
      (nodeBytes node nameOff).length = structSize node
  | .mk name props children, h, nameOff => by
      rcases h with ⟨hName, hProps, hChildren⟩
      unfold nodeBytes structSize
      simp only [List.length_append, length_be32,
        length_nameBytes hName, length_propsBytes,
        length_nodesBytes children hChildren]
      omega

theorem length_nodesBytes :
    (nodes : List Node) → NodesNulFree nodes →
      (nameOff : Nat) →
      (nodesBytes nodes nameOff).length = structSizes nodes
  | [], _, _ => rfl
  | c :: cs, h, nameOff => by
      unfold nodesBytes structSizes
      rw [List.length_append, length_nodeBytes c h.1,
        length_nodesBytes cs h.2]

end

/- Padding ends on a multiple of four. -/
theorem dvd_align4
    (n : Nat) :
    4 ∣ align4 n :=
  Nat.dvd_mul_left 4 _

/- Properties end on a multiple of four. -/
theorem dvd_propsSize
    (ps : List Property) :
    4 ∣ propsSize ps := by
  induction ps with
  | nil => exact Nat.dvd_zero 4
  | cons p ps ih =>
      have hData := dvd_align4 p.data.length
      unfold propsSize
      omega

mutual

/- Blocks of subtrees end on a multiple of four. -/
theorem dvd_structSize :
    (node : Node) → 4 ∣ structSize node
  | .mk name props children => by
      have hName := dvd_align4 (name.length + 1)
      have hProps := dvd_propsSize props
      have hChildren := dvd_structSizes children
      unfold structSize
      omega

theorem dvd_structSizes :
    (nodes : List Node) → 4 ∣ structSizes nodes
  | [] => Nat.dvd_zero 4
  | c :: cs => by
      have hNode := dvd_structSize c
      have hRest := dvd_structSizes cs
      unfold structSizes
      omega

end

end RiscvEm.Fdt

------------------------------------------------------------
-- Machine Arithmetic
------------------------------------------------------------

namespace RiscvEm.Fdt

open ByteCodec

/- Padding never shortens. -/
theorem le_align4
    (n : Nat) :
    n ≤ align4 n := by
  unfold align4
  omega

/- Clearing two bits rounds down to a multiple of four. -/
theorem toNat_clearLow
    (x : BitVec 64) :
    (x &&& ~~~(3 : BitVec 64)).toNat = x.toNat / 4 * 4 := by
  have hShift : x &&& ~~~(3 : BitVec 64) = (x >>> 2) <<< 2 := by
    apply BitVec.eq_of_getLsbD_eq
    intro i hi
    have hThree : (3 : BitVec 64).getLsbD i =
        decide (i < 2) := by
      revert i
      decide
    simp only [BitVec.getLsbD_and, BitVec.getLsbD_not, hThree,
      BitVec.getLsbD_shiftLeft, BitVec.getLsbD_ushiftRight, hi]
    by_cases hLow : i < 2
    · simp [hLow]
    · have hEq : 2 + (i - 2) = i := by omega
      simp [hLow, hEq]
  have hLt := x.isLt
  rw [hShift, BitVec.toNat_shiftLeft, BitVec.toNat_ushiftRight,
    Nat.shiftRight_eq_div_pow, Nat.shiftLeft_eq]
  omega

/- Without overflow the code's alignment is the padding. -/
theorem alignUp_toNat
    (v : BitVec 64)
    (h : v.toNat + 3 < 2 ^ 64) :
    (alignUp v 4).toNat = align4 v.toNat := by
  have hAdd : (v + 4 - 1).toNat = v.toNat + 3 := by
    rw [show v + 4 - 1 = v + 3 by bv_omega, BitVec.toNat_add]
    exact Nat.mod_eq_of_lt h
  have hMask : (4 - 1 : BitVec 64) = 3 := by
    decide
  unfold alignUp align4
  rw [hMask, toNat_clearLow, hAdd]

/- An aligned size in 32 bits. -/
theorem alignUp_setWidth
    {v : BitVec 64}
    {n : Nat}
    (hv : v.toNat = n)
    (h : n < 2 ^ 33) :
    (alignUp v 4).setWidth 32 = BitVec.ofNat 32 (align4 n) := by
  apply BitVec.eq_of_toNat_eq
  rw [BitVec.toNat_setWidth, BitVec.toNat_ofNat,
    alignUp_toNat v (by omega), hv]

/- A swapped word lies in memory in big-endian order. -/
theorem hostBytes_toBe32
    (v : BitVec 32) :
    hostBytes 4 (toBe32 v) = be32 v := by
  have hByte : ∀ i < 4, ((toBe32 v) >>> (8 * i)).setWidth 8 =
      ((v >>> (24 - 8 * i)).setWidth 8 : BitVec 8) := by
    intro i hi
    apply BitVec.eq_of_getLsbD_eq
    intro j hj
    unfold toBe32
    interval_cases i <;> interval_cases j <;> simp
  apply List.ext_getElem
  · rfl
  · intro i hLeft hRight
    have hLt : i < 4 := hRight
    have hOne := hByte i hLt
    simp only [hostBytes, List.getElem_map, List.getElem_range]
    rw [hOne]
    interval_cases i <;> simp [be32]

/- The length of a short list is not cut by `size_t`. -/
theorem sizeT_toNat
    {bs : List Byte}
    (h : bs.length < 2 ^ 32) :
    (sizeT bs).toNat = bs.length := by
  unfold sizeT
  rw [BitVec.toNat_ofNat]
  omega

/- With the zero behind it the length is not cut either. -/
theorem sizeT_add_one_toNat
    {bs : List Byte}
    (h : bs.length < 2 ^ 32) :
    (sizeT bs + 1).toNat = bs.length + 1 := by
  have hOne : (1 : BitVec 64).toNat = 1 := rfl
  rw [BitVec.toNat_add, sizeT_toNat h, hOne]
  exact Nat.mod_eq_of_lt (by omega)

end RiscvEm.Fdt

------------------------------------------------------------
-- Computed Sizes
------------------------------------------------------------

namespace RiscvEm.Fdt

open ByteCodec

/- Sizes that are larger by a number of bytes. -/
def SizeDesc.add
    (d : SizeDesc)
    (a b : Nat) : SizeDesc :=
  { structSize := d.structSize + BitVec.ofNat 32 a
    stringSize := d.stringSize + BitVec.ofNat 32 b }

namespace SizeDesc

/- Sizes added twice are added once. -/
theorem add_add
    (d : SizeDesc)
    (a b a' b' : Nat) :
    (d.add a b).add a' b' = d.add (a + a') (b + b') := by
  unfold add
  simp only [BitVec.ofNat_add, BitVec.add_assoc]

theorem add_zero
    (d : SizeDesc) :
    d.add 0 0 = d := by
  unfold add
  simp

/- The bytes counted for the start of a node. -/
theorem beginNode_eq
    (d : SizeDesc)
    {name : List Byte}
    (h : name.length < 2 ^ 32) :
    d.beginNode name =
      d.add (4 + align4 (name.length + 1)) 0 := by
  have hLen : (if name = [] then 1 else sizeT name + 1) =
      sizeT name + 1 := by
    split
    case isTrue hNil =>
      rw [hNil]
      rfl
    case isFalse => rfl
  unfold beginNode add
  dsimp only
  rw [hLen, alignUp_setWidth (sizeT_add_one_toNat h) (by omega),
    BitVec.ofNat_add]
  simp

/- The bytes counted for a property and its name. -/
theorem prop_eq
    (d : SizeDesc)
    {p : Property}
    (hData : p.data.length < 2 ^ 32)
    (hName : p.name.length < 2 ^ 32) :
    d.prop p = d.add (12 + align4 p.data.length)
      (align4 (p.name.length + 1)) := by
  unfold prop add
  rw [alignUp_setWidth (sizeT_toNat hData) (by omega),
    alignUp_setWidth (sizeT_add_one_toNat hName) (by omega),
    BitVec.ofNat_add, BitVec.add_assoc]
  rfl

theorem token_eq
    (d : SizeDesc) :
    d.token = d.add 4 0 := by
  unfold token add
  simp

end SizeDesc

/- Counting the properties of a node one after the other. -/
theorem foldl_prop_eq
    (ps : List Property)
    (d : SizeDesc)
    (hStruct : propsSize ps < 2 ^ 32)
    (hNames : propsNamesSize ps < 2 ^ 32) :
    ps.foldl SizeDesc.prop d =
      d.add (propsSize ps) (propsNamesSize ps) := by
  induction ps generalizing d with
  | nil => exact d.add_zero.symm
  | cons p ps ih =>
      unfold propsSize at hStruct
      unfold propsNamesSize at hNames
      have hData := le_align4 p.data.length
      have hName := le_align4 (p.name.length + 1)
      rw [List.foldl_cons, ih _ (by omega) (by omega),
        SizeDesc.prop_eq d (by omega) (by omega),
        SizeDesc.add_add]
      rfl

mutual

/-
  `get_tree_size` counts the blocks and the names of a tree.
-/
theorem getTreeSize_eq :
    (node : Node) → (d : SizeDesc) →
      structSize node < 2 ^ 32 → stringsSize node < 2 ^ 32 →
      getTreeSize node d =
        d.add (structSize node) (stringsSize node)
  | .mk name props children, d, hStruct, hStrings => by
      unfold structSize at hStruct
      unfold stringsSize at hStrings
      have hName := le_align4 (name.length + 1)
      unfold getTreeSize structSize stringsSize
      rw [SizeDesc.token_eq,
        getTreeSizes_eq children _ (by omega) (by omega),
        foldl_prop_eq props _ (by omega) (by omega),
        SizeDesc.beginNode_eq d (by omega), SizeDesc.add_add,
        SizeDesc.add_add, SizeDesc.add_add]
      congr 1
      · omega
      · omega

theorem getTreeSizes_eq :
    (nodes : List Node) → (d : SizeDesc) →
      structSizes nodes < 2 ^ 32 →
      stringsSizes nodes < 2 ^ 32 →
      getTreeSizes nodes d =
        d.add (structSizes nodes) (stringsSizes nodes)
  | [], d, _, _ => d.add_zero.symm
  | c :: cs, d, hStruct, hStrings => by
      unfold structSizes at hStruct
      unfold stringsSizes at hStrings
      unfold getTreeSizes structSizes stringsSizes
      rw [getTreeSizes_eq cs _ (by omega) (by omega),
        getTreeSize_eq c d (by omega) (by omega),
        SizeDesc.add_add]

end

/- The sizes that are computed are those of the blocks. -/
theorem treeDesc_eq
    {node : Node}
    (h : totalSize node < 2 ^ 32) :
    treeDesc node =
      { structSize := BitVec.ofNat 32 (structSize node + 4)
        stringSize := BitVec.ofNat 32 (stringsSize node) } := by
  unfold totalSize at h
  unfold treeDesc
  rw [getTreeSize_eq node _ (by omega) (by omega),
    SizeDesc.token_eq, SizeDesc.add_add]
  unfold SizeDesc.add
  simp

/- `size_of_tree` is the size of the blob. -/
theorem sizeOfTree_toNat
    {node : Node}
    (h : totalSize node < 2 ^ 32) :
    (sizeOfTree node).toNat = totalSize node := by
  unfold sizeOfTree
  rw [treeDesc_eq h]
  unfold totalSize at h ⊢
  simp only [FDT_HDR_SIZE, FDT_RSV_SIZE, BitVec.toNat_setWidth,
    BitVec.toNat_add, BitVec.toNat_ofNat, BitVec.reduceToNat]
  omega

end RiscvEm.Fdt
