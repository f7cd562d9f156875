import Mathlib.Data.List.Basic
import RiscvEm.Gdb.Registers
import RiscvEm.Gdb.Server

/-
  The target description: the debugger asks for it part by
  part, and puts the parts together.

  Key definitions include:
    * `readXmlPacket`
    * `fetchXml`

  Key theorems include:
    * `stoul_digits`
    * `gdb_xml_reassembled`
-/

------------------------------------------------------------
-- Numbers In Packets
------------------------------------------------------------

namespace RiscvEm

open HexText (Text IsDigit)

/- A number of up to 64 bits is read back from its digits. -/
theorem stoul_digits
    {n : Nat}
    (hn : n < 2 ^ 64)
    (rest : Text)
    (hRest : ∀ c ∈ rest.head?, ¬ IsDigit c ∧ c ≠ 'x' ∧
      c ≠ 'X') :
    stoul (Nat.toDigits 16 n ++ rest) =
      .ok (BitVec.ofNat 64 n) := by
  have hValue := HexText.value_toDigits n
  have hRead := HexText.strtoul16_digits rest
    (HexText.isDigit_toDigits n) (HexText.toDigits_ne_nil n)
    (by rw [hValue]; exact hn) hRest
  unfold stoul
  rw [hRead, hValue]

theorem stoul_only_digits
    {n : Nat}
    (hn : n < 2 ^ 64) :
    stoul (Nat.toDigits 16 n) = .ok (BitVec.ofNat 64 n) := by
  have hRead := stoul_digits hn [] nofun
  rw [List.append_nil] at hRead
  exact hRead

/- Digits up to a character that is none. -/
theorem digits_ne
    {c : Char}
    (hc : ¬ IsDigit c)
    (n : Nat) :
    ∀ d ∈ Nat.toDigits 16 n, (d != c) = true := by
  intro d hMem
  rw [bne_iff_ne]
  intro hEq
  rw [hEq] at hMem
  exact hc (HexText.isDigit_toDigits n c hMem)

theorem textBefore_digits
    {c : Char}
    (hc : ¬ IsDigit c)
    (n : Nat)
    (rest : Text) :
    textBefore c (Nat.toDigits 16 n ++ c :: rest) =
      Nat.toDigits 16 n := by
  unfold textBefore
  rw [List.takeWhile_append_of_pos (digits_ne hc n),
    List.takeWhile_cons_of_neg (by simp), List.append_nil]

theorem textBehind_digits
    {c : Char}
    (hc : ¬ IsDigit c)
    (n : Nat)
    (rest : Text) :
    textBehind c (Nat.toDigits 16 n ++ c :: rest) =
      rest := by
  unfold textBehind
  rw [List.dropWhile_append_of_pos (digits_ne hc n),
    List.dropWhile_cons_of_neg (by simp)]

end RiscvEm

------------------------------------------------------------
-- Asking For The Description
------------------------------------------------------------

namespace RiscvEm

variable {σ : Type}

open HexText (Text substr)

/- The request for `len` characters from `off` on. -/
def readXmlPacket
    (off len : Nat) : Text :=
  "qXfer:features:read:target.xml:".toList ++
    (Nat.toDigits 16 off ++ ',' :: Nat.toDigits 16 len)

/-
  A debugger that asks for parts of `len` characters, each
  behind the ones it has, until a part is marked as the last.
-/
def fetchXml
    (P : Platform σ)
    (createXML : Text)
    (len : Nat) :
    Nat → Nat → GdbServer σ →
      Except HostFault (Option (Text × GdbServer σ))
  | 0, _, _ => .ok none
  | fuel + 1, off, g => do
      let (sent, g) ← gdbReceive P createXML
        (gdbSendPacket (readXmlPacket off len)) g
      match sent.map gdbUnformatPacket with
      | [_, 'l' :: part] => .ok (some (part, g))
      | [_, 'm' :: part] => do
          let rest ← fetchXml P createXML len fuel
            (off + part.length) g
          .ok (rest.map fun (text, g) => (part ++ text, g))
      | _ => .ok none

/- The description that the server has, or makes. -/
def GdbServer.description
    (g : GdbServer σ)
    (createXML : Text) : Text :=
  if g.xml.length = 0 then createXML else g.xml

variable {P : Platform σ}
variable {createXML : Text}
variable {off len : Nat}

/- A packet and its frame are to fit into the buffer. -/
theorem gdbReceive_send
    {packet : Text}
    (hFits : packet.length + 4 < bufferSize)
    (g : GdbServer σ) :
    gdbReceive P createXML (gdbSendPacket packet) g = (do
      let (sent, g) ← gdbServe P createXML packet g
      .ok (['+'] :: sent, g)) := by
  have hText : bufferText (gdbSendPacket packet) =
      .ok (gdbSendPacket packet) := by
    refine if_pos ?_
    rw [gdbSendPacket_length]
    exact hFits
  have hHandle : gdbReceive P createXML (gdbSendPacket packet)
      g = (bufferText (gdbSendPacket packet) >>= fun str =>
        gdbHandle P createXML str g) := rfl
  rw [hHandle, hText]
  change gdbHandle P createXML (gdbSendPacket packet) g = _
  unfold gdbHandle
  rw [gdbUnformatPacket_send]

/- The digits of a 64-bit number. -/
theorem digits_length
    {n : Nat}
    (hn : n < 2 ^ 64) :
    (Nat.toDigits 16 n).length ≤ 16 :=
  (Nat.length_toDigits_le_iff (by decide) (by decide)).mpr hn

theorem readXmlPacket_fits
    (hOff : off < 2 ^ 64)
    (hLen : len < 2 ^ 64) :
    (readXmlPacket off len).length + 4 < bufferSize := by
  have hFirst := digits_length hOff
  have hSecond := digits_length hLen
  have hLength : (readXmlPacket off len).length =
      31 + ((Nat.toDigits 16 off).length +
        ((Nat.toDigits 16 len).length + 1)) := by
    unfold readXmlPacket
    rw [List.length_append, List.length_append,
      List.length_cons]
    rfl
  unfold bufferSize
  omega

theorem gdbServe_xml
    (g : GdbServer σ) :
    gdbServe P createXML (readXmlPacket off len) g =
      gdbReadXml createXML (readXmlPacket off len) g :=
  rfl

theorem readXmlPacket_drop
    (off len : Nat) :
    (readXmlPacket off len).drop 31 =
      Nat.toDigits 16 off ++ ',' :: Nat.toDigits 16 len :=
  rfl

/- A part is marked as the last if it reaches the end. -/
theorem gdbReceive_xml
    (g : GdbServer σ)
    (hOff : off ≤ (g.description createXML).length)
    (hFit : (g.description createXML).length + len <
      2 ^ 64) :
    gdbReceive P createXML
        (gdbSendPacket (readXmlPacket off len)) g =
      .ok ([['+'], gdbSendPacket
        ((if (g.description createXML).length ≤ off + len then
            'l'
          else
            'm') ::
          ((g.description createXML).drop off).take len)],
        { g with xml := g.description createXML }) := by
  have hComma : ¬ HexText.IsDigit ',' := by decide
  have hServer : (if g.xml.length = 0 then
      { g with xml := createXML }
    else
      g) = { g with xml := g.description createXML } := by
    unfold GdbServer.description
    split
    · rfl
    · rfl
  have hPart : substr (g.description createXML) off len =
      some (((g.description createXML).drop off).take len) :=
    if_pos hOff
  have hSum : (BitVec.ofNat 64 off + BitVec.ofNat 64 len).toNat =
      off + len := by
    rw [BitVec.toNat_add, BitVec.toNat_ofNat,
      BitVec.toNat_ofNat]
    omega
  have hOffNat : (BitVec.ofNat 64 off).toNat = off := by
    rw [BitVec.toNat_ofNat]
    omega
  have hLenNat : (BitVec.ofNat 64 len).toNat = len := by
    rw [BitVec.toNat_ofNat]
    omega
  rw [gdbReceive_send (readXmlPacket_fits (by omega)
    (by omega)), gdbServe_xml]
  unfold gdbReadXml
  dsimp only
  rw [readXmlPacket_drop, textBefore_digits hComma,
    textBehind_digits hComma, stoul_only_digits (by omega),
    stoul_only_digits (by omega), hServer]
  dsimp only [bind, Except.bind]
  rw [hOffNat, hLenNat, hPart]
  dsimp only [partOf]
  rw [hSum]

/- The last part ends the exchange. -/
theorem fetchXml_last
    {g g₁ : GdbServer σ}
    {fuel : Nat}
    {part : Text}
    (h : gdbReceive P createXML
      (gdbSendPacket (readXmlPacket off len)) g =
      .ok ([['+'], gdbSendPacket ('l' :: part)], g₁)) :
    fetchXml P createXML len (fuel + 1) off g =
      .ok (some (part, g₁)) := by
  rw [fetchXml, h]
  dsimp only [bind, Except.bind, List.map]
  rw [gdbUnformatPacket_send]
  rfl

/- Another part is asked for behind the one that was sent. -/
theorem fetchXml_more
    {g g₁ g₂ : GdbServer σ}
    {fuel : Nat}
    {part text : Text}
    (h : gdbReceive P createXML
      (gdbSendPacket (readXmlPacket off len)) g =
      .ok ([['+'], gdbSendPacket ('m' :: part)], g₁))
    (hPart : part.length = len)
    (hRest : fetchXml P createXML len fuel (off + len) g₁ =
      .ok (some (text, g₂))) :
    fetchXml P createXML len (fuel + 1) off g =
      .ok (some (part ++ text, g₂)) := by
  rw [fetchXml, h]
  dsimp only [bind, Except.bind, List.map]
  rw [gdbUnformatPacket_send]
  change (fetchXml P createXML len fuel (off + part.length) g₁
    >>= fun rest => _) = _
  rw [hPart, hRest]
  rfl

theorem description_of_made
    (g : GdbServer σ)
    (hSome : (g.description createXML).length ≠ 0) :
    GdbServer.description
        { g with xml := g.description createXML } createXML =
      g.description createXML :=
  if_neg hSome

/- From an offset on, the rest is put together. -/
theorem fetchXml_from
    (g : GdbServer σ)
    (hFit : (g.description createXML).length + len <
      2 ^ 64)
    (fuel : Nat)
    (hOff : off ≤ (g.description createXML).length)
    (hFuel : (g.description createXML).length <
      off + fuel * len) :
    fetchXml P createXML len fuel off g =
      .ok (some ((g.description createXML).drop off,
        { g with xml := g.description createXML })) := by
  induction fuel generalizing off g with
  | zero => omega
  | succ fuel ih =>
      have hSent := gdbReceive_xml (P := P) g hOff hFit
      by_cases hLast : (g.description createXML).length ≤
          off + len
      · rw [if_pos hLast] at hSent
        rw [fetchXml_last hSent, List.take_of_length_le]
        rw [List.length_drop]
        omega
      · rw [if_neg hLast] at hSent
        have hKept : GdbServer.description
            { g with xml := g.description createXML }
            createXML = g.description createXML :=
          description_of_made g (by omega)
        have hPart : (((g.description createXML).drop off).take
            len).length = len := by
          rw [List.length_take, List.length_drop]
          omega
        have hFuel' : (g.description createXML).length <
            off + len + fuel * len := by
          rw [Nat.add_assoc, Nat.add_comm len, ← Nat.succ_mul]
          exact hFuel
        have hNext : fetchXml P createXML len fuel (off + len)
            { g with xml := g.description createXML } =
            .ok (some ((g.description createXML).drop
              (off + len),
              { g with xml := g.description createXML })) := by
          have hRest := @ih (off + len)
            { g with xml := g.description createXML }
          rw [hKept] at hRest
          exact hRest hFit (by omega) hFuel'
        rw [fetchXml_more hSent hPart hNext, ← List.drop_drop,
          List.take_append_drop]

/-
  Whatever the size of the parts, the debugger puts together
  the description that the server has, or makes the first
  time, and the server is otherwise as before.
-/
theorem gdb_xml_reassembled
    (P : Platform σ)
    (createXML : Text)
    (g : GdbServer σ)
    (len fuel : Nat)
    (hFit : (g.description createXML).length + len <
      2 ^ 64)
    (hFuel : (g.description createXML).length <
      fuel * len) :
    fetchXml P createXML len fuel 0 g =
      .ok (some (g.description createXML,
        { g with xml := g.description createXML })) := by
  have hAll := fetchXml_from (P := P) g hFit fuel
    (Nat.zero_le _) (by rw [Nat.zero_add]; exact hFuel)
  rw [List.drop_zero] at hAll
  exact hAll

/- Ten characters in parts of four. -/
theorem gdb_xml_reassembled_ten :
    fetchXml Platform.bare "0123456789".toList 4 3 0
        (GdbServer.start (State.boot [])) =
      .ok (some ("0123456789".toList,
        { GdbServer.start (State.boot []) with
          xml := "0123456789".toList })) :=
  gdb_xml_reassembled Platform.bare "0123456789".toList
    (GdbServer.start (State.boot [])) 4 3 (by decide)
    (by decide)

end RiscvEm
