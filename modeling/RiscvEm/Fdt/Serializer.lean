import RiscvEm.Fdt.Emit

/-
  The serializer fills two blocks of a cleared buffer, each
  from its begin on. Padding is not written: the bytes are
  zero already.

  Key definitions include:
    * `Frame`
    * `Emitted`

  Key theorems include `Emitted.serTree`.
-/

------------------------------------------------------------
-- The Two Blocks
------------------------------------------------------------

namespace RiscvEm.Fdt

open ByteCodec

/-
  Where the blocks lie: the structure block from 56 on, the
  strings block from `begin` to `total`.
-/
structure Frame where
  base : Bytes
  size : Nat
  begin : Nat
  total : Nat
  begin_dvd : 4 ∣ begin
  begin_le : begin ≤ total
  total_le : total ≤ size
  total_lt : total < 2 ^ 32

/- The array with the parts of the blocks written so far. -/
def Frame.image
    (f : Frame)
    (S T : List Byte) : Bytes :=
  window (window f.base 56 f.begin S) f.begin f.total T

/- The serializer has written `S` and `T`. -/
structure Emitted
    (f : Frame)
    (ctx : SerializerCtx)
    (S T : List Byte) : Prop where
  data : ctx.buf.data = f.image S T
  size : ctx.buf.size = f.size
  structOff : ctx.structOff.toNat = 56 + S.length
  stringsBegin : ctx.stringsBegin.toNat = f.begin
  stringsOff : ctx.stringsOff.toNat = f.begin + T.length
  structDvd : 4 ∣ S.length
  stringsDvd : 4 ∣ T.length

/- A copy that fits replaces the bytes. -/
theorem memcpy_eq
    {b : Buffer}
    {dst : Nat}
    {bs : List Byte}
    (h : dst + bs.length ≤ b.size) :
    memcpy b dst bs = .ok { b with
      data := window b.data dst (dst + bs.length) bs } :=
  if_pos h

variable {f : Frame}
variable {ctx : SerializerCtx}
variable {S T : List Byte}

/- Bytes written behind the structure belong to it. -/
theorem image_append_struct
    {bs : List Byte}
    (hFits : 56 + S.length + bs.length ≤ f.begin) :
    window (f.image S T) (56 + S.length)
        (56 + S.length + bs.length) bs =
      f.image (S ++ bs) T := by
  unfold Frame.image
  rw [← window_comm _ bs T hFits, window_append hFits]

/- Bytes written behind the strings belong to them. -/
theorem image_append_strings
    {bs : List Byte}
    (hFits : f.begin + T.length + bs.length ≤ f.total) :
    window (f.image S T) (f.begin + T.length)
        (f.begin + T.length + bs.length) bs =
      f.image S (T ++ bs) := by
  unfold Frame.image
  rw [window_append hFits]

/- Padding is there before, as zeros. -/
theorem image_pad_struct
    (bs : List Byte) :
    f.image (S ++ pad4 bs) T = f.image (S ++ bs) T := by
  unfold Frame.image pad4
  rw [← List.append_assoc, window_zeros]

/- The strings are padded by zeros as well. -/
theorem image_pad_strings
    (bs : List Byte) :
    f.image S (T ++ pad4 bs) = f.image S (T ++ bs) := by
  unfold Frame.image pad4
  rw [← List.append_assoc, window_zeros]

/- Bytes that are copied to the end of the structure block. -/
theorem Emitted.memcpy_struct
    (h : Emitted f ctx S T)
    (bs : List Byte)
    (hFits : 56 + S.length + bs.length ≤ f.begin) :
    memcpy ctx.buf ctx.structOff.toNat bs =
      .ok ⟨f.image (S ++ bs) T, f.size⟩ := by
  have hLe := f.begin_le
  have hLe' := f.total_le
  rw [memcpy_eq (by rw [h.structOff, h.size]; omega),
    h.structOff, h.data, h.size, image_append_struct hFits]

/- Bytes that are copied to the end of the strings block. -/
theorem Emitted.memcpy_strings
    (h : Emitted f ctx S T)
    (bs : List Byte)
    (hFits : f.begin + T.length + bs.length ≤ f.total) :
    memcpy ctx.buf ctx.stringsOff.toNat bs =
      .ok ⟨f.image S (T ++ bs), f.size⟩ := by
  have hLe' := f.total_le
  rw [memcpy_eq (by rw [h.stringsOff, h.size]; omega),
    h.stringsOff, h.data, h.size, image_append_strings hFits]

end RiscvEm.Fdt

------------------------------------------------------------
-- Tokens, Strings And Data
------------------------------------------------------------

namespace RiscvEm.Fdt

open ByteCodec

variable {f : Frame}
variable {ctx : SerializerCtx}
variable {S T : List Byte}

/- A token goes behind the structure. -/
theorem Emitted.serU32
    (h : Emitted f ctx S T)
    (v : BitVec 32)
    (hFits : 56 + S.length + 4 ≤ f.begin) :
    ∃ ctx', serU32 ctx v = .ok ctx' ∧
      Emitted f ctx' (S ++ be32 v) T := by
  have hLt := f.total_lt
  have hLe := f.begin_le
  have hCopy : writeBe32ToBuf ctx.buf ctx.structOff.toNat v =
      .ok ⟨f.image (S ++ be32 v) T, f.size⟩ := by
    unfold writeBe32ToBuf
    rw [hostBytes_toBe32]
    exact h.memcpy_struct (be32 v) hFits
  refine ⟨_, bind_eq_ok.mpr ⟨_, hCopy, rfl⟩, ?_⟩
  refine ⟨rfl, rfl, ?_, h.stringsBegin, h.stringsOff, ?_,
    h.stringsDvd⟩
  · change (ctx.structOff + 4).toNat = _
    have hFour : (4 : BitVec 32).toNat = 4 := rfl
    rw [BitVec.toNat_add, h.structOff, hFour,
      List.length_append, length_be32]
    omega
  · rw [List.length_append, length_be32]
    exact Nat.dvd_add h.structDvd (Nat.dvd_refl 4)

/- The cursor after a block of bytes that is padded. -/
theorem cursor_pad
    {off : BitVec 32}
    {v : BitVec 64}
    {start : Nat}
    {block bs : List Byte}
    (hOff : off.toNat = start + block.length)
    (hStart : 4 ∣ start)
    (hDvd : 4 ∣ block.length)
    (hv : v.toNat = off.toNat + bs.length)
    (hLt : start + block.length + (pad4 bs).length < 2 ^ 32) :
    ((alignUp v 4).setWidth 32).toNat =
      start + (block ++ pad4 bs).length := by
  rw [length_pad4] at hLt
  rw [BitVec.toNat_setWidth, alignUp_toNat v (by omega), hv,
    hOff, List.length_append, length_pad4]
  unfold align4
  omega

/- The field of a name has a place for the zero. -/
theorem length_cStr_lt
    (s : List Byte) :
    (cStr s).length + 1 ≤ (nameBytes s).length := by
  unfold nameBytes
  rw [length_pad4, List.length_append, List.length_singleton]
  omega

/- The name of a node goes there with its padding. -/
theorem Emitted.serString
    (h : Emitted f ctx S T)
    (s : List Byte)
    (hFits : 56 + S.length + (nameBytes s).length ≤ f.begin) :
    ∃ ctx', serString ctx s = .ok ctx' ∧
      Emitted f ctx' (S ++ nameBytes s) T := by
  have hLt := f.total_lt
  have hLe := f.begin_le
  have hPad := length_cStr_lt s
  have hCopy := h.memcpy_struct (cStr s ++ [0]) (by
    rw [List.length_append, List.length_singleton]
    omega)
  refine ⟨_, bind_eq_ok.mpr ⟨_, hCopy, rfl⟩, ?_⟩
  refine ⟨?_, rfl, ?_, h.stringsBegin, h.stringsOff, ?_,
    h.stringsDvd⟩
  · exact (image_pad_struct _).symm
  · refine cursor_pad h.structOff (by decide) h.structDvd ?_
      (lt_of_le_of_lt hFits (by omega))
    have hOne : (1 : BitVec 64).toNat = 1 := rfl
    have hOff := ctx.structOff.isLt
    rw [BitVec.toNat_add, BitVec.toNat_add, hOne,
      sizeT_toNat (by omega), BitVec.toNat_setWidth,
      List.length_append, List.length_singleton]
    omega
  · rw [List.length_append]
    exact Nat.dvd_add h.structDvd (dvd_length_pad4 _)

/- The name of a property goes to the strings. -/
theorem Emitted.serName
    (h : Emitted f ctx S T)
    (s : List Byte)
    (hFits :
      f.begin + T.length + (nameBytes s).length ≤ f.total) :
    ∃ ctx', serName ctx s = .ok ctx' ∧
      Emitted f ctx' S (T ++ nameBytes s) := by
  have hLt := f.total_lt
  have hPad := length_cStr_lt s
  have hCopy := h.memcpy_strings (cStr s ++ [0]) (by
    rw [List.length_append, List.length_singleton]
    omega)
  refine ⟨_, bind_eq_ok.mpr ⟨_, hCopy, rfl⟩, ?_⟩
  refine ⟨?_, rfl, h.structOff, h.stringsBegin, ?_,
    h.structDvd, ?_⟩
  · exact (image_pad_strings _).symm
  · refine cursor_pad h.stringsOff f.begin_dvd h.stringsDvd ?_
      (lt_of_le_of_lt hFits (by omega))
    have hOne : (1 : BitVec 64).toNat = 1 := rfl
    have hOff := ctx.stringsOff.isLt
    rw [BitVec.toNat_add, BitVec.toNat_add, hOne,
      sizeT_toNat (by omega), BitVec.toNat_setWidth,
      List.length_append, List.length_singleton]
    omega
  · rw [List.length_append]
    exact Nat.dvd_add h.stringsDvd (dvd_length_pad4 _)

/- Nothing is copied for empty data. -/
theorem Emitted.copyData
    (h : Emitted f ctx S T)
    (data : List Byte)
    (hFits : 56 + S.length + data.length ≤ f.begin) :
    copyData ctx.buf ctx.structOff.toNat data
        (BitVec.ofNat 32 data.length) =
      .ok ⟨f.image (S ++ data) T, f.size⟩ := by
  have hLt := f.total_lt
  have hLe := f.begin_le
  have hLen : (BitVec.ofNat 32 data.length).toNat =
      data.length := by
    rw [BitVec.toNat_ofNat]
    exact Nat.mod_eq_of_lt (by omega)
  unfold RiscvEm.Fdt.copyData
  rw [hLen, List.take_length]
  cases data with
  | nil =>
      rw [if_neg (fun hBoth => hBoth.2 rfl), List.append_nil,
        ← h.data, ← h.size]
  | cons b bs =>
      rw [if_pos, h.memcpy_struct _ hFits]
      refine ⟨?_, List.cons_ne_nil b bs⟩
      intro hZero
      rw [hZero] at hLen
      cases hLen

/- The value of a property goes behind its header. -/
theorem Emitted.serData
    (h : Emitted f ctx S T)
    (data : List Byte)
    (hFits : 56 + S.length + (pad4 data).length ≤ f.begin) :
    ∃ ctx', serData ctx data (BitVec.ofNat 32 data.length) =
        .ok ctx' ∧
      Emitted f ctx' (S ++ pad4 data) T := by
  have hLt := f.total_lt
  have hLe := f.begin_le
  have hPad : data.length ≤ (pad4 data).length := by
    rw [length_pad4]
    omega
  refine ⟨_, bind_eq_ok.mpr
    ⟨_, h.copyData data (by omega), rfl⟩, ?_⟩
  refine ⟨?_, rfl, ?_, h.stringsBegin, h.stringsOff, ?_,
    h.stringsDvd⟩
  · exact (image_pad_struct _).symm
  · refine cursor_pad h.structOff (by decide) h.structDvd ?_
      (lt_of_le_of_lt hFits (by omega))
    have hOff := h.structOff
    rw [BitVec.toNat_setWidth, BitVec.toNat_add,
      BitVec.toNat_ofNat]
    omega
  · rw [List.length_append]
    exact Nat.dvd_add h.structDvd (dvd_length_pad4 _)

end RiscvEm.Fdt

------------------------------------------------------------
-- Trees
------------------------------------------------------------

namespace RiscvEm.Fdt

open ByteCodec

variable {f : Frame}
variable {ctx : SerializerCtx}
variable {S T : List Byte}

/- The offset of the next name in the strings block. -/
theorem Emitted.nameOff
    (h : Emitted f ctx S T) :
    ctx.stringsOff - ctx.stringsBegin =
      BitVec.ofNat 32 T.length := by
  have hBegin := ctx.stringsBegin.isLt
  apply BitVec.eq_of_toNat_eq
  rw [BitVec.toNat_sub, h.stringsOff, h.stringsBegin,
    BitVec.toNat_ofNat]
  rw [h.stringsBegin] at hBegin
  omega

/- A property is a header, a value and a name. -/
theorem Emitted.serProp
    (h : Emitted f ctx S T)
    (p : Property)
    (hStruct : 56 + S.length + (propBytes p T.length).length ≤
      f.begin)
    (hStrings : f.begin + T.length +
      (nameBytes p.name).length ≤ f.total) :
    ∃ ctx', serProp ctx p = .ok ctx' ∧
      Emitted f ctx' (S ++ propBytes p T.length)
        (T ++ nameBytes p.name) := by
  unfold propBytes at hStruct ⊢
  simp only [List.length_append, length_be32] at hStruct
  rcases h.serU32 FDT_PROP (by omega) with ⟨c₁, h₁, e₁⟩
  rcases e₁.serU32 (BitVec.ofNat 32 p.data.length) (by
    rw [List.length_append, length_be32]
    omega) with ⟨c₂, h₂, e₂⟩
  have hOff := e₂.nameOff
  rcases e₂.serU32 (BitVec.ofNat 32 T.length) (by
    simp only [List.length_append, length_be32]
    omega) with ⟨c₃, h₃, e₃⟩
  rcases e₃.serData p.data (by
    simp only [List.length_append, length_be32]
    omega) with ⟨c₄, h₄, e₄⟩
  rcases e₄.serName p.name hStrings with ⟨c₅, h₅, e₅⟩
  refine ⟨c₅, ?_, ?_⟩
  · unfold RiscvEm.Fdt.serProp
    simp only [bind, Except.bind, h₁, h₂, hOff, h₃, h₄, h₅]
  · simpa only [List.append_assoc] using e₅

/- The properties of a node, in their order. -/
theorem Emitted.serProps
    (ps : List Property)
    (h : Emitted f ctx S T)
    (hStruct : 56 + S.length +
      (propsBytes ps T.length).length ≤ f.begin)
    (hStrings : f.begin + T.length +
      (propsNames ps).length ≤ f.total) :
    ∃ ctx', serProps ctx ps = .ok ctx' ∧
      Emitted f ctx' (S ++ propsBytes ps T.length)
        (T ++ propsNames ps) := by
  induction ps generalizing ctx S T with
  | nil =>
      refine ⟨ctx, rfl, ?_⟩
      unfold propsBytes propsNames
      simpa only [List.append_nil] using h
  | cons p ps ih =>
      unfold propsBytes at hStruct ⊢
      unfold propsNames at hStrings ⊢
      simp only [List.length_append] at hStruct hStrings
      rcases h.serProp p (by omega) (by omega) with
        ⟨c₁, h₁, e₁⟩
      rcases ih e₁ (by
        simp only [List.length_append]
        omega) (by
        simp only [List.length_append]
        omega) with ⟨c₂, h₂, e₂⟩
      refine ⟨c₂, bind_eq_ok.mpr ⟨c₁, h₁, h₂⟩, ?_⟩
      simpa only [List.append_assoc, List.length_append]
        using e₂

mutual

/- A node is emitted with everything below it. -/
theorem Emitted.serTree :
    (node : Node) → ∀ {ctx : SerializerCtx} {S T : List Byte},
      Emitted f ctx S T →
      56 + S.length + (nodeBytes node T.length).length ≤
        f.begin →
      f.begin + T.length + (nodeNames node).length ≤ f.total →
      ∃ ctx', serTree ctx node = .ok ctx' ∧
        Emitted f ctx' (S ++ nodeBytes node T.length)
          (T ++ nodeNames node)
  | .mk name props children, ctx, S, T, h, hStruct, hStrings => by
      unfold nodeBytes at hStruct ⊢
      unfold nodeNames at hStrings ⊢
      simp only [List.length_append, length_be32]
        at hStruct hStrings
      rcases h.serU32 FDT_BEGIN_NODE (by omega) with
        ⟨c₁, h₁, e₁⟩
      rcases e₁.serString name (by
        simp only [List.length_append, length_be32]
        omega) with ⟨c₂, h₂, e₂⟩
      rcases e₂.serProps props (by
        simp only [List.length_append, length_be32]
        omega) (by omega) with ⟨c₃, h₃, e₃⟩
      rcases Emitted.serTrees children e₃ (by
        simp only [List.length_append, length_be32]
        omega) (by
        simp only [List.length_append]
        omega) with ⟨c₄, h₄, e₄⟩
      rcases e₄.serU32 FDT_END_NODE (by
        simp only [List.length_append, length_be32]
        omega) with ⟨c₅, h₅, e₅⟩
      refine ⟨c₅, ?_, ?_⟩
      · unfold RiscvEm.Fdt.serTree
        simp only [bind, Except.bind, h₁, h₂, h₃, h₄, h₅]
      · simpa only [List.append_assoc, List.length_append]
          using e₅

theorem Emitted.serTrees :
    (nodes : List Node) →
      ∀ {ctx : SerializerCtx} {S T : List Byte},
      Emitted f ctx S T →
      56 + S.length + (nodesBytes nodes T.length).length ≤
        f.begin →
      f.begin + T.length + (nodesNames nodes).length ≤
        f.total →
      ∃ ctx', serTrees ctx nodes = .ok ctx' ∧
        Emitted f ctx' (S ++ nodesBytes nodes T.length)
          (T ++ nodesNames nodes)
  | [], ctx, S, T, h, _, _ => by
      refine ⟨ctx, rfl, ?_⟩
      unfold nodesBytes nodesNames
      simpa only [List.append_nil] using h
  | c :: cs, ctx, S, T, h, hStruct, hStrings => by
      unfold nodesBytes at hStruct ⊢
      unfold nodesNames at hStrings ⊢
      simp only [List.length_append] at hStruct hStrings
      rcases Emitted.serTree c h (by omega) (by omega) with
        ⟨c₁, h₁, e₁⟩
      rcases Emitted.serTrees cs e₁ (by
        simp only [List.length_append]
        omega) (by
        simp only [List.length_append]
        omega) with ⟨c₂, h₂, e₂⟩
      refine ⟨c₂, ?_, ?_⟩
      · unfold RiscvEm.Fdt.serTrees
        exact bind_eq_ok.mpr ⟨c₁, h₁, h₂⟩
      · simpa only [List.append_assoc, List.length_append]
          using e₂

end

end RiscvEm.Fdt
