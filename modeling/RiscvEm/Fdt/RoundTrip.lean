import RiscvEm.Fdt.Serializer

/-
  Reading back what the serializer wrote gives the tree.

  Key theorems include:
    * `readNode_nodeBytes`
    * `serialize_round_trip`
-/

------------------------------------------------------------
-- Properties
------------------------------------------------------------

namespace RiscvEm.Fdt

open ByteCodec

/- A token is read back, unless it is to be skipped. -/
theorem nextToken_be32
    {token : BitVec 32}
    (h : token ≠ 4)
    (rest : List Byte) :
    nextToken (be32 token ++ rest) = some (token, rest) := by
  have hLen : (be32 token ++ rest).length =
      rest.length + 3 + 1 := by
    rw [List.length_append, length_be32]
    omega
  unfold nextToken
  rw [hLen]
  unfold readToken
  rw [readBe32_be32]
  exact if_neg h

/- Short numbers survive 32 bits. -/
theorem toNat_ofNat_of_lt
    {n : Nat}
    (h : n < 2 ^ 32) :
    (BitVec.ofNat 32 n).toNat = n := by
  rw [BitVec.toNat_ofNat]
  exact Nat.mod_eq_of_lt h

/- The names at an offset of the strings block. -/
theorem drop_names
    {strings names rest : List Byte}
    {off : Nat}
    (h : strings.drop off = names ++ rest) :
    strings.drop (off + names.length) = rest := by
  rw [← List.drop_drop, h, List.drop_left]

/- A name is read up to its zero, with its padding. -/
theorem readCString_nameBytes
    {s : List Byte}
    (hNul : 0 ∉ s)
    (rest : List Byte) :
    readCString (nameBytes s ++ rest) = some (s, rest) := by
  unfold nameBytes
  rw [cStr_of_nulFree hNul]
  exact readCString_pad4 hNul rest

/- A property is read back, with its name from the strings. -/
theorem readProp_propBytes
    {strings post : List Byte}
    {off : Nat}
    {p : Property}
    (hNames : strings.drop off = nameBytes p.name ++ post)
    (hNul : 0 ∉ p.name)
    (hOff : off < 2 ^ 32)
    (hData : p.data.length < 2 ^ 32)
    (rest : List Byte) :
    readProp strings (be32 (BitVec.ofNat 32 p.data.length) ++
        (be32 (BitVec.ofNat 32 off) ++
          (pad4 p.data ++ rest))) =
      some (p, rest) := by
  have hName : cString (nameBytes p.name ++ post) =
      some p.name := by
    unfold nameBytes
    rw [cStr_of_nulFree hNul]
    exact cString_pad4 hNul post
  simp only [readProp, readBe32_be32, Option.bind_eq_bind,
    Option.bind_some, toNat_ofNat_of_lt hData,
    toNat_ofNat_of_lt hOff, readPadded_pad4, hNames, hName]

/- The properties of a node are read back in order. -/
theorem readProps_propsBytes
    {strings post rest rest' : List Byte}
    {off n : Nat}
    {token : BitVec 32}
    (ps : List Property)
    (hNames : strings.drop off = propsNames ps ++ post)
    (hNul : PropsNulFree ps)
    (hOff : off + (propsNames ps).length < 2 ^ 32)
    (hData : (propsBytes ps off).length < 2 ^ 32)
    (hFuel : (propsBytes ps off).length < n)
    (hNext : nextToken rest = some (token, rest'))
    (hToken : token ≠ 3) :
    readProps strings n (propsBytes ps off ++ rest) =
      some (ps, rest) := by
  induction ps generalizing off n with
  | nil =>
      rcases n with - | n
      · exact absurd hFuel (Nat.not_lt_zero _)
      · unfold readProps propsBytes
        simp only [List.nil_append, hNext,
          Option.bind_eq_bind, Option.bind_some]
        rw [if_neg hToken]
  | cons p ps ih =>
      rcases List.forall_mem_cons.mp hNul with ⟨hName, hRest⟩
      unfold propsNames at hNames hOff
      unfold propsBytes at hData hFuel ⊢
      rw [List.append_assoc] at hNames
      simp only [List.length_append, length_propBytes]
        at hOff hData hFuel
      have hLe := le_align4 p.data.length
      have hPos : 0 < (nameBytes p.name).length :=
        lt_of_lt_of_le (Nat.succ_pos _) (length_cStr_lt p.name)
      rcases n with - | n
      · exact absurd hFuel (Nat.not_lt_zero _)
      · have hRead := readProp_propBytes hNames hName
          (by omega) (by omega)
          (propsBytes ps (off + (nameBytes p.name).length) ++
            rest)
        have hTail := ih (n := n) (drop_names hNames) hRest
          (by omega) (by omega) (by omega)
        unfold readProps propBytes
        simp only [List.append_assoc]
        rw [nextToken_be32 (by decide)]
        simp only [Option.bind_eq_bind, Option.bind_some]
        have hProp : FDT_PROP = 3 := rfl
        rw [if_pos hProp, hRead]
        simp only [Option.bind_some]
        rw [hTail]
        rfl

end RiscvEm.Fdt

------------------------------------------------------------
-- Trees
------------------------------------------------------------

namespace RiscvEm.Fdt

open ByteCodec

/- A node begins with its token. -/
theorem nextToken_nodeBytes
    (node : Node)
    (off : Nat)
    (rest : List Byte) :
    ∃ rest', nextToken (nodeBytes node off ++ rest) =
      some (1, rest') := by
  rcases node with ⟨name, props, children⟩
  unfold nodeBytes
  rw [List.append_assoc]
  exact ⟨_, nextToken_be32 (by decide) _⟩

/- After the properties comes a child, or the node ends. -/
theorem nextToken_nodesBytes
    (nodes : List Node)
    (off : Nat)
    (rest : List Byte) :
    ∃ token rest', nextToken (nodesBytes nodes off ++
        (be32 FDT_END_NODE ++ rest)) = some (token, rest') ∧
      token ≠ 3 := by
  cases nodes with
  | nil =>
      refine ⟨FDT_END_NODE, rest, ?_, by decide⟩
      unfold nodesBytes
      exact nextToken_be32 (by decide) _
  | cons c cs =>
      unfold nodesBytes
      rw [List.append_assoc]
      rcases nextToken_nodeBytes c off _ with ⟨rest', hNext⟩
      exact ⟨1, rest', hNext, by decide⟩

mutual

/- A node is read back with everything below it. -/
theorem readNode_nodeBytes {strings : List Byte} :
    (node : Node) → node.NulFree →
      ∀ {off n : Nat} {post : List Byte} (rest : List Byte),
      strings.drop off = nodeNames node ++ post →
      off + (nodeNames node).length < 2 ^ 32 →
      (nodeBytes node off).length < 2 ^ 32 →
      (nodeBytes node off).length ≤ n →
      readNode strings n (nodeBytes node off ++ rest) =
        some (node, rest)
  | .mk name props children, hNul, off, n, post, rest,
      hNames, hOff, hLen, hFuel => by
      rcases hNul with ⟨hName, hProps, hChildren⟩
      unfold nodeNames at hNames hOff
      unfold nodeBytes at hLen hFuel ⊢
      rw [List.append_assoc] at hNames
      simp only [List.length_append, length_be32]
        at hOff hLen hFuel
      rcases n with - | n
      · omega
      · rcases nextToken_nodesBytes children
          (off + (propsNames props).length) rest with
          ⟨token, rest', hNext, hToken⟩
        have hPropsRead := readProps_propsBytes
          (n := (propsBytes props off ++ (nodesBytes children
            (off + (propsNames props).length) ++
              (be32 FDT_END_NODE ++ rest))).length) props
          hNames hProps (by omega) (by omega) (by
            simp only [List.length_append, length_be32]
            omega) hNext hToken
        have hNodes := readNodes_nodesBytes children hChildren
          (n := n) rest (drop_names hNames) (by omega)
          (by omega) (by omega)
        unfold readNode
        simp only [List.append_assoc]
        rw [nextToken_be32 (by decide)]
        simp only [Option.bind_eq_bind, Option.bind_some]
        have hBegin : FDT_BEGIN_NODE = 1 := rfl
        rw [if_pos hBegin, readCString_nameBytes hName]
        simp only [Option.bind_some]
        rw [hPropsRead]
        simp only [Option.bind_some]
        rw [hNodes]
        rfl

theorem readNodes_nodesBytes {strings : List Byte} :
    (nodes : List Node) → NodesNulFree nodes →
      ∀ {off n : Nat} {post : List Byte} (rest : List Byte),
      strings.drop off = nodesNames nodes ++ post →
      off + (nodesNames nodes).length < 2 ^ 32 →
      (nodesBytes nodes off).length < 2 ^ 32 →
      (nodesBytes nodes off).length + 4 ≤ n →
      readNodes strings n (nodesBytes nodes off ++
          (be32 FDT_END_NODE ++ rest)) =
        some (nodes, rest)
  | [], _, off, n, post, rest, _, _, _, hFuel => by
      rcases n with - | n
      · omega
      · unfold readNodes nodesBytes
        rw [List.nil_append, nextToken_be32 (by decide)]
        rfl
  | c :: cs, hNul, off, n, post, rest,
      hNames, hOff, hLen, hFuel => by
      unfold nodesNames at hNames hOff
      unfold nodesBytes at hLen hFuel ⊢
      rw [List.append_assoc] at hNames ⊢
      simp only [List.length_append] at hOff hLen hFuel
      have hSize := length_nodeBytes c hNul.1 off
      have hPos : 4 ≤ structSize c := by
        rcases c with ⟨name, props, children⟩
        unfold structSize
        omega
      rcases n with - | n
      · omega
      · have hNode := readNode_nodeBytes c hNul.1 (n := n)
          (nodesBytes cs (off + (nodeNames c).length) ++
            (be32 FDT_END_NODE ++ rest)) hNames (by omega)
          (by omega) (by omega)
        have hNodes := readNodes_nodesBytes cs hNul.2 (n := n)
          rest (drop_names hNames) (by omega) (by omega)
          (by omega)
        rcases nextToken_nodeBytes c off
          (nodesBytes cs (off + (nodeNames c).length) ++
            (be32 FDT_END_NODE ++ rest)) with ⟨rest', hNext⟩
        unfold readNodes
        rw [hNext]
        simp only [Option.bind_eq_bind, Option.bind_some]
        rw [if_neg (by decide), hNode]
        simp only [Option.bind_some]
        rw [hNodes]
        rfl

end

end RiscvEm.Fdt

------------------------------------------------------------
-- The Header
------------------------------------------------------------

namespace RiscvEm.Fdt

open ByteCodec

def headerBytes
    (h : Header) : List Byte :=
  [h.magic, h.totalSize, h.offDtStruct, h.offDtStrings,
    h.offMemRsvmap, h.version, h.lastCompVersion,
    h.bootCpuidPhys, h.sizeDtStrings,
    h.sizeDtStruct].flatMap be32

/- A header has ten words. -/
theorem length_headerBytes
    (h : Header) :
    (headerBytes h).length = 40 :=
  rfl

/- The header is read back from its bytes. -/
theorem readHeader_headerBytes
    (h : Header) :
    readHeader (headerBytes h) = some h := by
  simp only [readHeader, headerBytes, List.flatMap_cons,
    List.flatMap_nil, readBe32_be32, Option.bind_eq_bind,
    Option.bind_some]

/- The next word of the header. -/
theorem writeBe32ToBuf_header
    {base : Bytes}
    {size total dst : Nat}
    (H : List Byte)
    (v : BitVec 32)
    (hDst : dst = H.length)
    (hFits : H.length + 4 ≤ total)
    (hSize : total ≤ size) :
    writeBe32ToBuf ⟨window base 0 total H, size⟩ dst v =
      .ok ⟨window base 0 total (H ++ be32 v), size⟩ := by
  have hWindow : window (window base 0 total H)
      (0 + H.length) (0 + H.length + (be32 v).length)
      (be32 v) = window base 0 total (H ++ be32 v) :=
    window_append (by rw [length_be32]; omega)
  rw [Nat.zero_add] at hWindow
  unfold writeBe32ToBuf
  rw [hostBytes_toBe32, hDst,
    memcpy_eq (by rw [length_be32]; dsimp only; omega)]
  dsimp only
  rw [hWindow]

/- The header the serializer writes. -/
def writtenHeader
    (ctx : SerializerCtx)
    (desc : SizeDesc)
    (bufSize bootCpuid : BitVec 32) : Header :=
  { magic := FDT_MAGIC
    totalSize := bufSize
    offDtStruct := ctx.structOff
    offDtStrings := ctx.stringsOff
    offMemRsvmap := ctx.reserveOff
    version := FDT_VERSION
    lastCompVersion := FDT_COMP_VERSION
    bootCpuidPhys := bootCpuid
    sizeDtStrings := desc.stringSize
    sizeDtStruct := desc.structSize }

/- Writing the header replaces the first 40 bytes. -/
theorem writeHeader_eq
    {base : Bytes}
    {size total : Nat}
    (ctx : SerializerCtx)
    (desc : SizeDesc)
    (bufSize bootCpuid : BitVec 32)
    (hTotal : 40 ≤ total)
    (hSize : total ≤ size) :
    writeHeader ⟨window base 0 total [], size⟩ ctx desc
        bufSize bootCpuid =
      .ok ⟨window base 0 total (headerBytes
        (writtenHeader ctx desc bufSize bootCpuid)), size⟩ := by
  have hWord : ∀ {dst : Nat} {H : List Byte} {v : BitVec 32},
      dst = H.length → dst ≤ 36 →
      writeBe32ToBuf ⟨window base 0 total H, size⟩ dst v =
        .ok ⟨window base 0 total (H ++ be32 v), size⟩ := by
    intro dst H v hDst hLe
    exact writeBe32ToBuf_header H v hDst (by omega) hSize
  have hStep : ∀ {dst : Nat} {H : List Byte} {v : BitVec 32}
      {rest : Buffer → Except HostFault Buffer},
      dst = H.length → dst ≤ 36 →
      (writeBe32ToBuf ⟨window base 0 total H, size⟩ dst v >>=
          rest) =
        rest ⟨window base 0 total (H ++ be32 v), size⟩ := by
    intro dst H v rest hDst hLe
    rw [hWord hDst hLe]
    rfl
  unfold writeHeader
  rw [hStep, hStep, hStep, hStep, hStep, hStep, hStep, hStep,
    hStep, hWord]
  all_goals first
    | rfl
    | omega

/- Clearing replaces all of them. -/
theorem memset_eq
    {b : Buffer}
    {n : Nat}
    (h : n ≤ b.size) :
    memset b n = .ok ⟨window b.data 0 n [], b.size⟩ := by
  have hZeros := window_zeros b.data 0 n [] n
  rw [List.nil_append] at hZeros
  unfold memset
  rw [memcpy_eq (by rw [List.length_replicate]; omega),
    List.length_replicate, Nat.zero_add, hZeros]

end RiscvEm.Fdt

------------------------------------------------------------
-- The Blob
------------------------------------------------------------

namespace RiscvEm.Fdt

open ByteCodec

variable {node : Node}

/- Where the strings block begins. -/
def stringsStart
    (node : Node) : Nat :=
  40 + 16 + (structSize node + 4)

/- The header of the blob of a tree. -/
def blobHeader
    (node : Node)
    (bootCpuid : BitVec 32) : Header :=
  { magic := FDT_MAGIC
    totalSize := BitVec.ofNat 32 (totalSize node)
    offDtStruct := 56
    offDtStrings := BitVec.ofNat 32 (stringsStart node)
    offMemRsvmap := 40
    version := FDT_VERSION
    lastCompVersion := FDT_COMP_VERSION
    bootCpuidPhys := bootCpuid
    sizeDtStrings := BitVec.ofNat 32 (stringsSize node)
    sizeDtStruct := BitVec.ofNat 32 (structSize node + 4) }

/- The header that is written is valid. -/
theorem blobHeader_valid
    (h : totalSize node < 2 ^ 32)
    (bootCpuid : BitVec 32) :
    (blobHeader node bootCpuid).Valid (totalSize node) := by
  have hTotal : totalSize node =
      stringsStart node + stringsSize node := rfl
  have hStart : stringsStart node =
      56 + (structSize node + 4) := rfl
  have hRsvmap : 8 ∣ (40 : BitVec 32).toNat := by decide
  have hStruct : 4 ∣ (56 : BitVec 32).toNat := by decide
  have hVersion : 17 ≤ FDT_VERSION := by decide
  have hCompatible : FDT_COMP_VERSION ≤ 17 := by decide
  refine ⟨rfl, hVersion, hCompatible, hRsvmap, hStruct,
    Nat.le_refl 40, Nat.le_refl 56, ?_, ?_, ?_⟩
  · simp only [blobHeader]
    rw [toNat_ofNat_of_lt (by omega),
      toNat_ofNat_of_lt (by omega), hStart]
    exact Nat.le_refl _
  · simp only [blobHeader]
    rw [toNat_ofNat_of_lt (by omega),
      toNat_ofNat_of_lt (by omega), toNat_ofNat_of_lt h]
    omega
  · simp only [blobHeader]
    rw [toNat_ofNat_of_lt h]

/- The frame of the blob in a buffer. -/
def blobFrame
    (node : Node)
    (b : Buffer)
    (bootCpuid : BitVec 32)
    (hSize : totalSize node ≤ b.size)
    (hTotal : totalSize node < 2 ^ 32) : Frame :=
  { base := window b.data 0 (totalSize node)
      (headerBytes (blobHeader node bootCpuid))
    size := b.size
    begin := stringsStart node
    total := totalSize node
    begin_dvd := by
      have hDvd := dvd_structSize node
      unfold stringsStart
      omega
    begin_le := Nat.le_add_right _ _
    total_le := hSize
    total_lt := hTotal }

/- Emission begins behind the header and the reservations. -/
theorem startCtx_eq
    (h : totalSize node < 2 ^ 32)
    (b : Buffer) :
    startCtx b (treeDesc node) =
      { buf := b
        structOff := 56
        stringsBegin := BitVec.ofNat 32 (stringsStart node)
        stringsOff := BitVec.ofNat 32 (stringsStart node)
        reserveOff := 40 } := by
  have hBegin : FDT_HDR_SIZE + FDT_RSV_SIZE +
      BitVec.ofNat 32 (structSize node + 4) =
      BitVec.ofNat 32 (stringsStart node) := by
    unfold stringsStart
    rw [BitVec.ofNat_add (40 + 16)]
    rfl
  unfold startCtx
  rw [treeDesc_eq h]
  dsimp only
  rw [hBegin]
  rfl

/- The two blocks add up to the size. -/
theorem bufSize_eq
    (node : Node) :
    BitVec.ofNat 32 (stringsStart node) +
        BitVec.ofNat 32 (stringsSize node) =
      BitVec.ofNat 32 (totalSize node) :=
  (BitVec.ofNat_add _ _).symm

/- Before the tree is written, both blocks are zero. -/
theorem emitted_start
    (b : Buffer)
    (bootCpuid : BitVec 32)
    (hSize : totalSize node ≤ b.size)
    (hTotal : totalSize node < 2 ^ 32) :
    Emitted (blobFrame node b bootCpuid hSize hTotal)
      { startCtx b (treeDesc node) with
        buf := ⟨window b.data 0 (totalSize node)
          (headerBytes (blobHeader node bootCpuid)), b.size⟩ }
      [] [] := by
  have hSum : totalSize node =
      stringsStart node + stringsSize node := rfl
  have hZero : ∀ i, 56 ≤ i → i < totalSize node →
      (blobFrame node b bootCpuid hSize hTotal).base i = 0 := by
    intro i hLow hHigh
    refine window_behind ?_ hHigh
    rw [length_headerBytes]
    omega
  rw [startCtx_eq hTotal]
  refine ⟨?_, rfl, rfl, ?_, ?_, Nat.dvd_zero 4, Nat.dvd_zero 4⟩
  · unfold Frame.image
    rw [window_nil_of_zero, window_nil_of_zero]
    · rfl
    · intro i hLow hHigh
      refine hZero i hLow (lt_of_lt_of_le hHigh ?_)
      exact Nat.le_add_right _ _
    · intro i hLow hHigh
      rw [window_nil_of_zero]
      · refine hZero i (le_trans ?_ hLow) hHigh
        change 56 ≤ stringsStart node
        unfold stringsStart
        omega
      · intro j hLow' hHigh'
        refine hZero j hLow' (lt_of_lt_of_le hHigh' ?_)
        exact Nat.le_add_right _ _
  · exact toNat_ofNat_of_lt (by omega)
  · exact toNat_ofNat_of_lt (by omega)

/- The whole blob. -/
theorem serializeInto_eq
    (b : Buffer)
    (bootCpuid : BitVec 32)
    (hNul : node.NulFree)
    (hSize : totalSize node ≤ b.size)
    (hTotal : totalSize node < 2 ^ 32) :
    ∃ ctx, serializeInto node b bootCpuid = .ok ctx ∧
      Emitted (blobFrame node b bootCpuid hSize hTotal) ctx
        (nodeBytes node 0 ++ be32 FDT_END) (nodeNames node) := by
  have hBytes := length_nodeBytes node hNul 0
  have hNames := length_nodeNames node hNul
  have hSum : totalSize node =
      stringsStart node + stringsSize node := rfl
  have hStart : stringsStart node =
      56 + (structSize node + 4) := rfl
  have hEmitted := emitted_start b bootCpuid hSize hTotal
  rcases Emitted.serTree node hEmitted (by
    change 56 + 0 + (nodeBytes node 0).length ≤
      stringsStart node
    omega) (by
    change stringsStart node + 0 + _ ≤ totalSize node
    omega) with ⟨c₁, h₁, e₁⟩
  rcases e₁.serU32 FDT_END (by
    change 56 + (nodeBytes node 0).length + 4 ≤
      stringsStart node
    omega) with ⟨c₂, h₂, e₂⟩
  refine ⟨c₂, ?_, e₂⟩
  have hCtx := startCtx_eq hTotal b
  have hDesc := treeDesc_eq hTotal
  have hBuf : (startCtx b (treeDesc node)).stringsBegin +
      (treeDesc node).stringSize =
      BitVec.ofNat 32 (totalSize node) := by
    rw [hCtx, hDesc]
    exact bufSize_eq node
  have hHeader : writtenHeader (startCtx b (treeDesc node))
      (treeDesc node) (BitVec.ofNat 32 (totalSize node))
      bootCpuid = blobHeader node bootCpuid := by
    rw [hCtx, hDesc]
    rfl
  unfold serializeInto
  dsimp only
  rw [hBuf, toNat_ofNat_of_lt hTotal, memset_eq hSize]
  refine bind_eq_ok.mpr ⟨_, rfl, ?_⟩
  rw [writeHeader_eq _ _ _ _ (by omega) hSize, hHeader]
  refine bind_eq_ok.mpr ⟨_, rfl, ?_⟩
  exact bind_eq_ok.mpr ⟨c₁, h₁, h₂⟩

end RiscvEm.Fdt

------------------------------------------------------------
-- Reading The Blob
------------------------------------------------------------

namespace RiscvEm.Fdt

open ByteCodec

variable {node : Node}

/- The array that holds the blob of a tree. -/
def blobData
    (node : Node)
    (base : Bytes)
    (bootCpuid : BitVec 32) : Bytes :=
  window (window (window base 0 (totalSize node)
      (headerBytes (blobHeader node bootCpuid)))
    56 (stringsStart node) (nodeBytes node 0 ++ be32 FDT_END))
    (stringsStart node) (totalSize node) (nodeNames node)

/- The strings are the last part. -/
theorem totalSize_eq
    (node : Node) :
    totalSize node = stringsStart node + stringsSize node :=
  rfl

/- The strings begin behind the structure. -/
theorem stringsStart_eq
    (node : Node) :
    stringsStart node = 56 + (structSize node + 4) :=
  rfl

/- Nothing is written behind the blob. -/
theorem blobData_of_ge
    (base : Bytes)
    (bootCpuid : BitVec 32)
    {i : Nat}
    (h : totalSize node ≤ i) :
    blobData node base bootCpuid i = base i := by
  have hSum := totalSize_eq node
  unfold blobData
  rw [window_of_ge _ h, window_of_ge _ (by omega),
    window_of_ge _ h]

/- The first part of the blob is the header. -/
theorem slice_header
    (base : Bytes)
    (bootCpuid : BitVec 32) :
    slice (blobData node base bootCpuid) 0 40 =
      headerBytes (blobHeader node bootCpuid) := by
  have hSum := totalSize_eq node
  have hStart := stringsStart_eq node
  unfold blobData
  rw [slice_window_of_apart _ _ (Or.inl (by omega)),
    slice_window_of_apart _ _ (Or.inl (by omega))]
  refine slice_window _ ?_
  rw [length_headerBytes]
  omega

/- The second part is the empty list of reservations. -/
theorem slice_reserve
    (base : Bytes)
    (bootCpuid : BitVec 32) :
    slice (blobData node base bootCpuid) 40 16 =
      List.replicate 16 0 := by
  have hSum := totalSize_eq node
  have hStart := stringsStart_eq node
  unfold blobData
  rw [slice_window_of_apart _ _ (Or.inl (by omega)),
    slice_window_of_apart _ _ (Or.inl (by omega))]
  refine slice_eq_zeros (fun i hi => ?_)
  refine window_behind ?_ (by omega)
  rw [length_headerBytes]
  omega

/- The third part is the structure. -/
theorem slice_struct
    (base : Bytes)
    (bootCpuid : BitVec 32)
    (hNul : node.NulFree) :
    slice (blobData node base bootCpuid) 56
        (structSize node + 4) =
      nodeBytes node 0 ++ be32 FDT_END := by
  have hStart := stringsStart_eq node
  have hLen : (nodeBytes node 0 ++ be32 FDT_END).length =
      structSize node + 4 := by
    rw [List.length_append, length_nodeBytes node hNul,
      length_be32]
  unfold blobData
  rw [slice_window_of_apart _ _ (Or.inl (by omega)), ← hLen]
  exact slice_window _ (by omega)

/- The last part is the strings. -/
theorem slice_strings
    (base : Bytes)
    (bootCpuid : BitVec 32)
    (hNul : node.NulFree) :
    slice (blobData node base bootCpuid) (stringsStart node)
        (stringsSize node) = nodeNames node := by
  have hSum := totalSize_eq node
  have hNames := length_nodeNames node hNul
  unfold blobData
  rw [← hNames]
  exact slice_window _ (by omega)

/- An empty list of reservations is one entry of zeros. -/
theorem readReservations_zeros
    {n : Nat}
    (h : 0 < n) :
    readReservations n (List.replicate 16 0) = some [] := by
  cases n with
  | zero => exact absurd h (Nat.lt_irrefl 0)
  | succ n => rfl

/- The blocks are read back as the tree. -/
theorem readStruct_blocks
    (hNul : node.NulFree)
    (hTotal : totalSize node < 2 ^ 32) :
    readStruct (nodeNames node)
        (nodeBytes node 0 ++ be32 FDT_END) = some node := by
  have hSum := totalSize_eq node
  have hStart := stringsStart_eq node
  have hBytes := length_nodeBytes node hNul 0
  have hNames := length_nodeNames node hNul
  have hDrop : (nodeNames node).drop 0 =
      nodeNames node ++ [] := by
    rw [List.append_nil, List.drop_zero]
  have hFuel : (nodeBytes node 0).length ≤
      (nodeBytes node 0 ++ be32 FDT_END).length := by
    rw [List.length_append]
    exact Nat.le_add_right _ _
  have hNode := readNode_nodeBytes node hNul (be32 FDT_END)
    hDrop (by omega) (by omega) hFuel
  have hEnd := nextToken_be32 (show FDT_END ≠ 4 by decide) []
  rw [List.append_nil] at hEnd
  unfold readStruct
  rw [hNode]
  simp only [Option.bind_eq_bind, Option.bind_some]
  rw [hEnd]
  rfl

/- The whole blob is read back. -/
theorem readFdt_blobData
    (base : Bytes)
    (bootCpuid : BitVec 32)
    (hNul : node.NulFree)
    (hTotal : totalSize node < 2 ^ 32) :
    readFdt (blobData node base bootCpuid) (totalSize node) =
      some ⟨blobHeader node bootCpuid, [], node⟩ := by
  have hSum := totalSize_eq node
  have hStart := stringsStart_eq node
  have hStrings :
      (blobHeader node bootCpuid).offDtStrings.toNat =
        stringsStart node := toNat_ofNat_of_lt (by omega)
  have hStringsLen :
      (blobHeader node bootCpuid).sizeDtStrings.toNat =
        stringsSize node := toNat_ofNat_of_lt (by omega)
  have hStruct :
      (blobHeader node bootCpuid).offDtStruct.toNat = 56 := rfl
  have hStructLen :
      (blobHeader node bootCpuid).sizeDtStruct.toNat =
        structSize node + 4 := toNat_ofNat_of_lt (by omega)
  have hRsvmap :
      (blobHeader node bootCpuid).offMemRsvmap.toNat = 40 := rfl
  have hRsvmapLen :
      ((blobHeader node bootCpuid).offDtStruct -
        (blobHeader node bootCpuid).offMemRsvmap).toNat = 16 := by
    change ((56 : BitVec 32) - 40).toNat = 16
    decide
  unfold readFdt
  rw [slice_header, readHeader_headerBytes]
  simp only [Option.bind_eq_bind, Option.bind_some]
  rw [if_pos (blobHeader_valid hTotal bootCpuid), hRsvmapLen,
    hRsvmap, slice_reserve, hStringsLen, hStrings,
    slice_strings _ _ hNul, hStructLen, hStruct,
    slice_struct _ _ hNul, readStruct_blocks hNul hTotal,
    readReservations_zeros (by omega)]
  rfl

/-
  The serializer returns the size of the tree, writes no byte
  behind it, leaves no gap between the blocks nor after them,
  and its blob is read back as the same tree.
-/
theorem serialize_round_trip
    (node : Node)
    (b : Buffer)
    (size : BitVec 64)
    (bootCpuid : BitVec 32)
    (hNul : node.NulFree)
    (hTotal : totalSize node < 2 ^ 32)
    (hBuffer : size.toNat ≤ b.size)
    (hSize : sizeOfTree node ≤ size) :
    (sizeOfTree node).toNat = totalSize node ∧
    ∃ ctx header, serializeInto node b bootCpuid = .ok ctx ∧
      serialize node (some b) size bootCpuid =
        .ok (sizeOfTree node, some ctx.buf) ∧
      ctx.buf.size = b.size ∧
      (∀ i, (sizeOfTree node).toNat ≤ i →
        ctx.buf.data i = b.data i) ∧
      ctx.structOff = ctx.stringsBegin ∧
      ctx.stringsOff.setWidth 64 = sizeOfTree node ∧
      readFdt ctx.buf.data (sizeOfTree node).toNat =
        some ⟨header, [], node⟩ ∧
      header.totalSize.setWidth 64 = sizeOfTree node ∧
      header.offDtStruct + header.sizeDtStruct =
        header.offDtStrings ∧
      header.offDtStrings = ctx.stringsBegin ∧
      header.offDtStrings + header.sizeDtStrings =
        header.totalSize ∧
      header.bootCpuidPhys = bootCpuid := by
  have hSum := totalSize_eq node
  have hStart := stringsStart_eq node
  have hBytes := length_nodeBytes node hNul 0
  have hNames := length_nodeNames node hNul
  have hNat := sizeOfTree_toNat hTotal
  have hFits : totalSize node ≤ b.size := by
    have hLe : (sizeOfTree node).toNat ≤ size.toNat := hSize
    omega
  rcases serializeInto_eq b bootCpuid hNul hFits hTotal with
    ⟨ctx, hInto, hEmitted⟩
  have hData : ctx.buf.data =
      blobData node b.data bootCpuid := hEmitted.data
  have hBegin : ctx.stringsBegin =
      BitVec.ofNat 32 (stringsStart node) := by
    apply BitVec.eq_of_toNat_eq
    rw [hEmitted.stringsBegin, toNat_ofNat_of_lt (by omega)]
    rfl
  have hTotalWidth :
      (BitVec.ofNat 32 (totalSize node)).setWidth 64 =
        sizeOfTree node := by
    apply BitVec.eq_of_toNat_eq
    rw [BitVec.toNat_setWidth, toNat_ofNat_of_lt hTotal, hNat]
    exact Nat.mod_eq_of_lt (by omega)
  have hStringsOff : ctx.stringsOff =
      BitVec.ofNat 32 (totalSize node) := by
    apply BitVec.eq_of_toNat_eq
    rw [hEmitted.stringsOff, toNat_ofNat_of_lt hTotal, hNames]
    rfl
  refine ⟨hNat, ctx, blobHeader node bootCpuid, hInto, ?_,
    hEmitted.size, ?_, ?_, ?_, ?_, hTotalWidth, ?_, hBegin.symm,
    bufSize_eq node, rfl⟩
  · have hEnough : ¬ size < sizeOfTree node :=
      BitVec.not_lt.mpr hSize
    unfold serialize
    dsimp only
    change (if size < sizeOfTree node then _ else _) = _
    rw [if_neg hEnough, hInto]
    rfl
  · intro i hi
    rw [hData]
    exact blobData_of_ge _ _ (by omega)
  · rw [hBegin]
    apply BitVec.eq_of_toNat_eq
    rw [hEmitted.structOff, toNat_ofNat_of_lt (by omega),
      List.length_append, length_be32]
    omega
  · rw [hStringsOff]
    exact hTotalWidth
  · rw [hData, hNat]
    exact readFdt_blobData _ _ hNul hTotal
  · change (56 : BitVec 32) +
      BitVec.ofNat 32 (structSize node + 4) =
        BitVec.ofNat 32 (stringsStart node)
    rw [hStart, BitVec.ofNat_add 56]
    rfl

/- A root with a property of one cell and one empty child. -/
def sampleTree : Node :=
  ((Node.create []).addPropU32 [0x61] 5).addChild
    (Node.create [0x62])

/- A node with a property and a child is read back. -/
theorem serialize_round_trip_sample :
    sizeOfTree sampleTree = 104 ∧
    ∃ ctx header,
      serializeInto sampleTree ⟨fun _ => 7, 128⟩ 0 = .ok ctx ∧
      readFdt ctx.buf.data 104 =
        some ⟨header, [], sampleTree⟩ := by
  have hSize : sizeOfTree sampleTree = 104 := by
    decide
  have hNul : sampleTree.NulFree :=
    ((Node.nulFree_create (by decide)).addProp
      (by decide) _).addChild (Node.nulFree_create (by decide))
  have hTotal : totalSize sampleTree < 2 ^ 32 := by
    decide
  rcases serialize_round_trip sampleTree ⟨fun _ => 7, 128⟩ 128
    0 hNul hTotal (Nat.le_refl 128) (by rw [hSize]; decide)
    with ⟨-, ctx, header, hInto, -, -, -, -, -, hRead, -⟩
  rw [hSize] at hRead
  exact ⟨hSize, ctx, header, hInto, hRead⟩

end RiscvEm.Fdt
