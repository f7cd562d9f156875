import Mathlib.Data.List.Basic
import RiscvEm.Gdb.Stub

/-
  Access to registers through the GDB stub: which values of
  a register come back after they were written, and that the
  integer registers with `pc` come back as a whole.

  Key definitions include:
    * `GdbReg`
    * `RegisterTrip`
    * `TripHolds`

  Key theorems include:
    * `gdbNumber_toLittleEndianHex`
    * `gdb_registers_round_trip_iff`
-/

------------------------------------------------------------
-- Registers Of The Debugger
------------------------------------------------------------

namespace RiscvEm

variable {σ : Type}

open HexText (Text)

/- The registers that the debugger knows. -/
inductive GdbReg where
  | x (r : BitVec 5)
  | pc
  | f (r : BitVec 5)
  | priv
  | csr (n : BitVec 12)
  deriving DecidableEq

/- The numbers of `xml_data`, up to that of `f31`. -/
def targetRegister
    (idx : Nat) : GdbReg :=
  if idx ≤ 31 then .x (BitVec.ofNat 5 idx)
  else if idx = 32 then .pc
  else .f (BitVec.ofNat 5 (idx - 33))

/- What a register holds. -/
def GdbStub.value
    (g : GdbStub σ) : GdbReg → BitVec 64
  | .x r => g.state.gpr r
  | .pc => g.state.hart.pc
  | .f r => g.state.fpr r
  | .priv => g.modeByte.setWidth 64
  | .csr n => (g.state.csrRead (n.setWidth 16)).1

def readPacket
    (idx : Nat) : Text :=
  'p' :: Nat.toDigits 16 idx

def writePacket
    (idx : Nat)
    (v : BitVec 64) : Text :=
  'P' :: Nat.toDigits 16 idx ++ '=' :: toLittleEndianHex v

/-
  Writing `v` into register `idx` and reading it back answers
  with one packet that holds the digits of `v`, and the write
  leaves the other registers alone.
-/
def RegisterTrip
    (P : Platform σ)
    (other : Text → GdbStub σ →
      Except HostFault (List Text × GdbStub σ))
    (g : GdbStub σ)
    (idx : Nat)
    (v : BitVec 64) : Prop :=
  ∃ sent g₁ g₂,
    gdbParsePacket P other (gdbSendPacket (writePacket idx v))
      g = .ok (sent, g₁) ∧
    gdbParsePacket P other (gdbSendPacket (readPacket idx))
      g₁ = .ok ([gdbSendPacket (toLittleEndianHex v)], g₂) ∧
    ∀ r, r ≠ targetRegister idx → g₁.value r = g.value r

/- The integer registers and `pc`, as in `g` and `G`. -/
def registersText
    (vals : Fin 33 → BitVec 64) : Text :=
  (List.ofFn vals).flatMap toLittleEndianHex

/- Writing all of them and reading them back. -/
def RegistersTrip
    (P : Platform σ)
    (other : Text → GdbStub σ →
      Except HostFault (List Text × GdbStub σ))
    (g : GdbStub σ)
    (vals : Fin 33 → BitVec 64) : Prop :=
  ∃ sent g₁ g₂,
    gdbParsePacket P other
      (gdbSendPacket ('G' :: registersText vals)) g =
      .ok (sent, g₁) ∧
    gdbParsePacket P other (gdbSendPacket ['g']) g₁ =
      .ok ([gdbSendPacket (registersText vals)], g₂)

/-
  The values that come back: one byte for the integer
  registers and `pc`, zero and one other pattern for most of
  the floating-point registers, none for `f0`, and for `f31`
  a byte that the CSR of its number already holds.
-/
def TripHolds
    (g : GdbStub σ)
    (idx : Nat)
    (v : BitVec 64) : Prop :=
  (idx ≤ 32 ∧ v.toNat ≤ 0xFF) ∨
    (34 ≤ idx ∧ idx ≤ 63 ∧
      (v = 0 ∨ v = 0x40CFE00000000000)) ∨
    (idx = 64 ∧ v.toNat ≤ 0xFF ∧ g.state.hart.csrs 64 = v)

/- The bits of a natural number below `2^53` as a double. -/
def doubleOfNat
    (n : Nat) : BitVec 64 :=
  if n = 0 then 0
  else BitVec.ofNat 64 ((1023 + n.log2) * 2 ^ 52 +
    (n - 2 ^ n.log2) * 2 ^ (52 - n.log2))

/- Conversion is exact where a double can hold the integer. -/
def HostFloat.ExactOfUInt
    (F : HostFloat) : Prop :=
  ∀ r n, n.toNat < 2 ^ 53 →
    F.ofUInt r n = doubleOfNat n.toNat

/- The byte at place `i`, shifted by as many bits. -/
def shiftedByte
    (v : BitVec 64)
    (i : Nat) : BitVec 64 :=
  ((v >>> (i * 8)).setWidth 8).setWidth 64 <<< i

/- The number that `P` makes of the digits of `v`. -/
def shiftedBytes
    (v : BitVec 64) : BitVec 64 :=
  (List.range 8).foldl (fun num i => num ||| shiftedByte v i) 0

end RiscvEm

------------------------------------------------------------
-- Shifted Bytes
------------------------------------------------------------

namespace RiscvEm

theorem shiftedByte_toNat
    (v : BitVec 64)
    {i : Nat}
    (hi : i < 8) :
    (shiftedByte v i).toNat =
      v.toNat / 2 ^ (i * 8) % 256 * 2 ^ i := by
  have hByte : v.toNat / 2 ^ (i * 8) % 256 < 256 :=
    Nat.mod_lt _ (by decide)
  have hPow : 2 ^ i ≤ 2 ^ 8 :=
    Nat.pow_le_pow_right (by decide) (by omega)
  have hLt : v.toNat / 2 ^ (i * 8) % 256 * 2 ^ i <
      2 ^ 64 := by
    calc v.toNat / 2 ^ (i * 8) % 256 * 2 ^ i
        ≤ 256 * 2 ^ 8 :=
          Nat.mul_le_mul (Nat.le_of_lt hByte) hPow
      _ < 2 ^ 64 := by decide
  unfold shiftedByte
  rw [BitVec.toNat_shiftLeft, BitVec.toNat_setWidth,
    BitVec.toNat_setWidth, BitVec.toNat_ushiftRight,
    Nat.shiftRight_eq_div_pow, Nat.shiftLeft_eq,
    Nat.mod_eq_of_lt (by omega : v.toNat / 2 ^ (i * 8) %
      2 ^ 8 < 2 ^ 64)]
  exact Nat.mod_eq_of_lt hLt

/- What holds of the parts, and of a union, holds of all. -/
theorem shiftedBytes_of_parts
    {v : BitVec 64}
    {p : BitVec 64 → Prop}
    (hZero : p 0)
    (hOr : ∀ a b, p a → p b → p (a ||| b))
    (hParts : ∀ i < 8, p (shiftedByte v i)) :
    p (shiftedBytes v) := by
  have hFold : ∀ (is : List Nat) (num : BitVec 64),
      p num → (∀ i ∈ is, i < 8) →
        p (is.foldl (fun num i => num ||| shiftedByte v i)
          num) := by
    intro is
    induction is with
    | nil => exact fun num hNum _ => hNum
    | cons i is ih =>
        intro num hNum hAll
        have hFirst := hParts i (hAll i List.mem_cons_self)
        exact ih _ (hOr num _ hNum hFirst)
          fun k hk => hAll k (List.mem_cons_of_mem i hk)
  exact hFold (List.range 8) 0 hZero
    fun i hi => List.mem_range.mp hi

theorem or_toNat_lt
    {k : Nat}
    (a b : BitVec 64)
    (ha : a.toNat < 2 ^ k)
    (hb : b.toNat < 2 ^ k) :
    (a ||| b).toNat < 2 ^ k := by
  rw [BitVec.toNat_or]
  exact Nat.or_lt_two_pow ha hb

theorem shiftedBytes_lt
    (v : BitVec 64) :
    (shiftedBytes v).toNat < 2 ^ 15 := by
  apply shiftedBytes_of_parts (by decide) or_toNat_lt
  intro i hi
  rw [shiftedByte_toNat v hi]
  have hByte : v.toNat / 2 ^ (i * 8) % 256 < 2 ^ 8 :=
    Nat.mod_lt _ (by decide)
  have hPow : 2 ^ i ≤ 2 ^ 7 :=
    Nat.pow_le_pow_right (by decide) (by omega)
  calc v.toNat / 2 ^ (i * 8) % 256 * 2 ^ i
      < 2 ^ 8 * 2 ^ i :=
        Nat.mul_lt_mul_of_pos_right hByte
          (Nat.two_pow_pos i)
    _ ≤ 2 ^ 8 * 2 ^ 7 := Nat.mul_le_mul_left _ hPow
    _ = 2 ^ 15 := by decide

/- The bytes from the third on are gone below `2^15`. -/
theorem shiftedByte_small
    {v : BitVec 64}
    (hv : v.toNat < 2 ^ 15)
    {i : Nat}
    (hi : i < 8) :
    (shiftedByte v i).toNat < 2 ^ 8 := by
  rw [shiftedByte_toNat v hi]
  match i, hi with
  | 0, _ =>
      simp only [Nat.reducePow, Nat.reduceMul]
      omega
  | 1, _ =>
      simp only [Nat.reducePow, Nat.reduceMul]
      omega
  | i + 2, _ =>
      have hPow : 2 ^ 16 ≤ 2 ^ ((i + 2) * 8) :=
        Nat.pow_le_pow_right (by decide) (by omega)
      have hGone : v.toNat / 2 ^ ((i + 2) * 8) = 0 :=
        Nat.div_eq_of_lt (by omega)
      rw [hGone, Nat.zero_mod, Nat.zero_mul]
      exact Nat.two_pow_pos 8

/- Exactly the numbers of one byte are unchanged. -/
theorem shiftedBytes_eq_self_iff
    (v : BitVec 64) :
    shiftedBytes v = v ↔ v.toNat ≤ 0xFF := by
  constructor
  · intro hEq
    have hLt := shiftedBytes_lt v
    rw [hEq] at hLt
    have hByte : (shiftedBytes v).toNat < 2 ^ 8 :=
      shiftedBytes_of_parts (by decide) or_toNat_lt
        fun i hi => shiftedByte_small hLt hi
    rw [hEq] at hByte
    omega
  · intro hLe
    have hBytes : ∀ b : BitVec 8, shiftedBytes (b.setWidth 64) =
        b.setWidth 64 := by
      decide +kernel
    have hv : (v.setWidth 8).setWidth 64 = v := by
      apply BitVec.eq_of_toNat_eq
      rw [BitVec.toNat_setWidth, BitVec.toNat_setWidth]
      omega
    rw [← hv]
    exact hBytes _

/- The digits of a small integer as a double end in zeros. -/
theorem doubleOfNat_dvd
    {n : Nat}
    (hn : n < 2 ^ 15) :
    2 ^ 38 ∣ (doubleOfNat n).toNat := by
  unfold doubleOfNat
  split
  case isTrue => exact Nat.dvd_zero _
  case isFalse hNe =>
    have hLog : n.log2 < 15 := (Nat.log2_lt hNe).mpr hn
    have hHigh : 2 ^ 38 ∣ (1023 + n.log2) * 2 ^ 52 :=
      Nat.dvd_mul_left_of_dvd (Nat.pow_dvd_pow 2 (by decide)) _
    have hLow : 2 ^ 38 ∣
        (n - 2 ^ n.log2) * 2 ^ (52 - n.log2) :=
      Nat.dvd_mul_left_of_dvd
        (Nat.pow_dvd_pow 2 (by omega)) _
    rw [BitVec.toNat_ofNat, Nat.dvd_mod_iff
      (Nat.pow_dvd_pow 2 (by decide))]
    exact Nat.dvd_add hHigh hLow

/- So the number that is made of them ends in five zeros. -/
theorem shiftedBytes_dvd
    {v : BitVec 64}
    (hv : 2 ^ 38 ∣ v.toNat) :
    2 ^ 5 ∣ (shiftedBytes v).toNat := by
  have hMod : (shiftedBytes v).toNat % 2 ^ 5 = 0 := by
    refine shiftedBytes_of_parts
      (p := fun a => a.toNat % 2 ^ 5 = 0) rfl ?_ ?_
    · intro a b ha hb
      rw [BitVec.toNat_or, Nat.or_mod_two_pow, ha, hb]
      rfl
    · intro i hi
      rw [shiftedByte_toNat v hi]
      rcases hv with ⟨q, hq⟩
      rw [hq]
      match i, hi with
      | 0, _ | 1, _ | 2, _ | 3, _ | 4, _ =>
          simp only [Nat.reducePow, Nat.reduceMul]
          omega
      | i + 5, _ =>
          rw [pow_add, Nat.mul_left_comm, ← Nat.mul_assoc,
            Nat.mul_comm _ (2 ^ 5)]
          exact Nat.mul_mod_right _ _
  exact Nat.dvd_of_mod_eq_zero hMod

/-
  The doubles that come back: that of zero, and that of
  16320.
-/
theorem doubleOfNat_shiftedBytes_iff
    (v : BitVec 64) :
    doubleOfNat (shiftedBytes v).toNat = v ↔
      v = 0 ∨ v = 0x40CFE00000000000 := by
  constructor
  · intro hEq
    have hLt := shiftedBytes_lt v
    have hDvd := doubleOfNat_dvd hLt
    rw [hEq] at hDvd
    rcases shiftedBytes_dvd hDvd with ⟨k, hk⟩
    have hSearch : ∀ a b : Fin 32,
        (shiftedBytes (doubleOfNat (2 ^ 5 * (32 * a + b)))
          ).toNat = 2 ^ 5 * (32 * a + b) →
        2 ^ 5 * (32 * a.val + b) = 0 ∨
          2 ^ 5 * (32 * a.val + b) = 16320 := by
      decide +kernel
    have hSplit : 32 * (k / 32) + k % 32 = k :=
      Nat.div_add_mod k 32
    have hFound := hSearch ⟨k / 32, by omega⟩
      ⟨k % 32, Nat.mod_lt _ (by decide)⟩
    dsimp only at hFound
    rw [hSplit, ← hk, hEq] at hFound
    rcases hFound rfl with hZero | hOther
    · rw [hZero] at hEq
      exact Or.inl hEq.symm
    · rw [hOther] at hEq
      refine Or.inr ?_
      rw [← hEq]
      decide +kernel
  · intro h
    rcases h with rfl | rfl
    · decide +kernel
    · decide +kernel

end RiscvEm

------------------------------------------------------------
-- Packets
------------------------------------------------------------

namespace RiscvEm

variable {σ : Type}
variable {P : Platform σ}
variable {other : Text → GdbStub σ →
  Except HostFault (List Text × GdbStub σ)}
variable {g : GdbStub σ}

open HexText (Text IsDigit byteText strtoul16 substr)

/- What is sent for a packet is unpacked as the packet. -/
theorem gdbUnformatPacket_send
    (packet : Text) :
    gdbUnformatPacket (gdbSendPacket packet) = packet := by
  have hDrop : (gdbSendPacket packet).drop 1 =
      packet ++ '#' :: byteText (gdbChecksum packet) := rfl
  have hLength : (packet ++ '#' ::
      byteText (gdbChecksum packet)).length =
        packet.length + 3 := by
    rw [List.length_append]
    rfl
  unfold gdbUnformatPacket
  rw [hDrop]
  dsimp only
  rw [hLength, if_neg (by omega), Nat.add_sub_cancel,
    List.take_left]

theorem gdbSendPacket_inj
    {a b : Text}
    (h : gdbSendPacket a = gdbSendPacket b) :
    a = b := by
  rw [← gdbUnformatPacket_send a, h, gdbUnformatPacket_send]

/- Steps that cannot fail fold as functions do. -/
theorem foldlM_eq_ok
    {ε α β : Type}
    {step : β → α → Except ε β}
    {f : β → α → β}
    {as : List α}
    (b : β)
    (h : ∀ a ∈ as, ∀ b, step b a = .ok (f b a)) :
    as.foldlM step b = .ok (as.foldl f b) := by
  induction as generalizing b with
  | nil => rfl
  | cons a as ih =>
      rw [List.foldlM_cons, h a List.mem_cons_self]
      exact ih _ fun a' ha' => h a' (List.mem_cons_of_mem a ha')

/- `P` takes the bytes of a value and shifts them too little. -/
theorem gdbNumber_toLittleEndianHex
    (v : BitVec 64) :
    gdbNumber (toLittleEndianHex v) = .ok (shiftedBytes v) := by
  unfold gdbNumber shiftedBytes
  apply foldlM_eq_ok
  intro i hi num
  have hLt : i < (List.range 8).length := by
    rw [List.length_range]
    exact List.mem_range.mp hi
  have hTwo : ∀ i,
      (byteText ((v >>> (i * 8)).setWidth 8)).length = 2 :=
    fun _ => rfl
  have hPart := HexText.substr_flatMap hTwo hLt
  rw [List.getElem_range] at hPart
  unfold toLittleEndianHex partOf stoul
  rw [hPart]
  dsimp only [bind, Except.bind]
  rw [HexText.strtoul16_byteText]
  rfl

/- The digits of a register's number are read as the number. -/
theorem stoul_toDigits
    {idx : Nat}
    (hIdx : idx ≤ 64)
    (rest : Text)
    (hRest : ∀ c ∈ rest.head?, c = '=') :
    stoul (Nat.toDigits 16 idx ++ rest) =
      .ok (BitVec.ofNat 64 idx) := by
  have hValue := HexText.value_toDigits idx
  have hRead := HexText.strtoul16_digits rest
    (HexText.isDigit_toDigits idx)
    (HexText.toDigits_ne_nil idx)
    (by rw [hValue]; omega) (fun c hc => by
      rw [hRest c hc]
      decide)
  unfold stoul
  rw [hRead, hValue]

theorem textBehind_writePacket
    (idx : Nat)
    (v : BitVec 64) :
    textBehind '=' (writePacket idx v) =
      toLittleEndianHex v := by
  have hNone : ∀ c ∈ 'P' :: Nat.toDigits 16 idx,
      (c != '=') = true := by
    intro c hMem
    rw [bne_iff_ne]
    intro hEq
    subst hEq
    rcases List.mem_cons.mp hMem with hFirst | hDigit
    · exact absurd hFirst (by decide)
    · exact absurd (HexText.isDigit_toDigits idx '=' hDigit)
        (by decide)
  have hDrop : (writePacket idx v).dropWhile (· != '=') =
      '=' :: toLittleEndianHex v := by
    have hText : writePacket idx v =
        ('P' :: Nat.toDigits 16 idx) ++
          '=' :: toLittleEndianHex v := rfl
    rw [hText, List.dropWhile_append_of_pos hNone]
    rfl
  unfold textBehind
  rw [hDrop]

/- A packet that is sent whole is handled by its letter. -/
theorem gdbParsePacket_send
    (packet : Text) :
    gdbParsePacket P other (gdbSendPacket packet) g =
      match packet with
      | 'p' :: _ => gdbReadRegister packet g
      | 'P' :: _ => gdbWriteRegister P packet g
      | 'g' :: _ => .ok (gdbReadRegisters g, g)
      | 'G' :: _ => gdbWriteRegisters packet g
      | _ => other packet g := by
  have hParse : gdbParsePacket P other (gdbSendPacket packet)
      g =
      match gdbUnformatPacket (gdbSendPacket packet) with
      | 'p' :: _ => gdbReadRegister
          (gdbUnformatPacket (gdbSendPacket packet)) g
      | 'P' :: _ => gdbWriteRegister P
          (gdbUnformatPacket (gdbSendPacket packet)) g
      | 'g' :: _ => .ok (gdbReadRegisters g, g)
      | 'G' :: _ => gdbWriteRegisters
          (gdbUnformatPacket (gdbSendPacket packet)) g
      | _ => other
          (gdbUnformatPacket (gdbSendPacket packet)) g := rfl
  rw [hParse, gdbUnformatPacket_send]

/- Handling `P` comes to changing the register. -/
theorem gdbParsePacket_write
    {idx : Nat}
    (hIdx : idx ≤ 64)
    {v : BitVec 64}
    {g₁ : GdbStub σ}
    (hPut : gdbPutRegister P (BitVec.ofNat 64 idx)
      (shiftedBytes v) g = .ok g₁) :
    gdbParsePacket P other (gdbSendPacket (writePacket idx v))
        g = .ok ([gdbSendPacket "OK".toList], g₁) := by
  have hRead : stoul ((writePacket idx v).drop 1) =
      .ok (BitVec.ofNat 64 idx) :=
    stoul_toDigits hIdx _ fun c hc => (Option.some.inj hc).symm
  rw [gdbParsePacket_send]
  change gdbWriteRegister P (writePacket idx v) g = _
  unfold gdbWriteRegister
  rw [hRead, textBehind_writePacket,
    gdbNumber_toLittleEndianHex]
  refine bind_eq_ok.mpr ⟨_, rfl, ?_⟩
  refine bind_eq_ok.mpr ⟨_, rfl, ?_⟩
  exact bind_eq_ok.mpr ⟨_, hPut, rfl⟩

/- Handling `p` comes to sending the register. -/
theorem gdbParsePacket_read
    {idx : Nat}
    (hIdx : idx ≤ 64) :
    gdbParsePacket P other (gdbSendPacket (readPacket idx)) g =
      gdbGetRegister (BitVec.ofNat 64 idx) g := by
  have hRead : stoul ((readPacket idx).drop 1) =
      .ok (BitVec.ofNat 64 idx) := by
    have hNil := stoul_toDigits hIdx [] nofun
    rw [List.append_nil] at hNil
    exact hNil
  rw [gdbParsePacket_send]
  change gdbReadRegister (readPacket idx) g = _
  unfold gdbReadRegister
  rw [hRead]
  rfl

theorem toLittleEndianHex_eq
    (v : BitVec 64) :
    toLittleEndianHex v =
      (ByteCodec.le 8 v.toNat).flatMap byteText := by
  unfold toLittleEndianHex
  rw [← ByteCodec.map_shift_eq_le, List.flatMap_map]

/- The digits, from the last byte to the first. -/
theorem swapHexEndian_toLittleEndianHex
    (v : BitVec 64) :
    swapHexEndian (toLittleEndianHex v) 8 =
      some ((ByteCodec.le 8 v.toNat).reverse.flatMap
        byteText) := by
  rw [toLittleEndianHex_eq]
  rfl

/- They are read as the value. -/
theorem strtoul16_le
    (v : BitVec 64) :
    strtoul16 ((ByteCodec.le 8 v.toNat).reverse.flatMap
      byteText) = some v := by
  have hSome : ByteCodec.le 8 v.toNat ≠ [] :=
    List.cons_ne_nil _ _
  have hLt : v.toNat < 256 ^ 8 := v.isLt
  rw [HexText.strtoul16_bytes hSome
    (le_of_eq (ByteCodec.length_le 8 _)), ByteCodec.leNat_le,
    Nat.mod_eq_of_lt hLt, BitVec.ofNat_toNat,
    BitVec.setWidth_eq]

theorem toLittleEndianHex_inj
    {v w : BitVec 64}
    (h : toLittleEndianHex v = toLittleEndianHex w) :
    v = w := by
  have hSwap := congrArg (swapHexEndian · 8) h
  rw [swapHexEndian_toLittleEndianHex,
    swapHexEndian_toLittleEndianHex] at hSwap
  have hRead := congrArg strtoul16 (Option.some.inj hSwap)
  rw [strtoul16_le, strtoul16_le] at hRead
  exact Option.some.inj hRead

end RiscvEm

------------------------------------------------------------
-- One Register
------------------------------------------------------------

namespace RiscvEm

variable {σ : Type}
variable {P : Platform σ}
variable {other : Text → GdbStub σ →
  Except HostFault (List Text × GdbStub σ)}
variable {g g₁ g₂ : GdbStub σ}
variable {idx : Nat}
variable {v : BitVec 64}

open HexText (Text)

/- A value comes back when it is what the register sends. -/
theorem registerTrip_iff
    {sent : List Text}
    (hIdx : idx ≤ 64)
    (hPut : gdbPutRegister P (BitVec.ofNat 64 idx)
      (shiftedBytes v) g = .ok g₁)
    (hGet : gdbGetRegister (BitVec.ofNat 64 idx) g₁ =
      .ok (sent, g₂)) :
    RegisterTrip P other g idx v ↔
      sent = [gdbSendPacket (toLittleEndianHex v)] ∧
        ∀ r, r ≠ targetRegister idx →
          g₁.value r = g.value r := by
  have hWrite : gdbParsePacket P other
      (gdbSendPacket (writePacket idx v)) g =
      .ok ([gdbSendPacket "OK".toList], g₁) :=
    gdbParsePacket_write hIdx hPut
  have hRead : gdbParsePacket P other
      (gdbSendPacket (readPacket idx)) g₁ = .ok (sent, g₂) :=
    (gdbParsePacket_read hIdx).trans hGet
  constructor
  · rintro ⟨sent', g₁', g₂', hWrite', hRead', hKept⟩
    cases Except.ok.inj (hWrite.symm.trans hWrite')
    cases Except.ok.inj (hRead.symm.trans hRead')
    exact ⟨rfl, hKept⟩
  · rintro ⟨rfl, hKept⟩
    exact ⟨_, g₁, g₂, hWrite, hRead, hKept⟩

theorem send_hex_eq_iff
    (w v : BitVec 64) :
    [gdbSendPacket (toLittleEndianHex w)] =
        [gdbSendPacket (toLittleEndianHex v)] ↔ w = v := by
  constructor
  · intro h
    exact toLittleEndianHex_inj
      (gdbSendPacket_inj (List.cons.inj h).1)
  · intro h
    rw [h]

/- Registers that a hart shares with no CSR. -/
theorem State.csrRead_regs
    (s : State σ)
    (GPR FPR : BitVec 5 → BitVec 64)
    (pc : BitVec 64)
    (csr : BitVec 16) :
    ((s.setHart { s.hart with
      GPR := GPR, FPR := FPR, pc := pc }).csrRead csr).1 =
      (s.csrRead csr).1 := by
  unfold State.csrRead
  simp only [apply_ite Prod.fst]
  rfl

end RiscvEm

------------------------------------------------------------
-- What A Write Changes
------------------------------------------------------------

namespace RiscvEm

variable {σ : Type}

/- CSR 64 is read for no other number. -/
theorem State.csrRead_setCsr
    (s : State σ)
    (num : BitVec 64)
    {csr : BitVec 16}
    (hNe : csr ≠ 64) :
    ((s.setCsr 64 num).csrRead csr).1 =
      (s.csrRead csr).1 := by
  have hKept : ∀ n, n ≠ 64 →
      (s.setCsr 64 num).csr n = s.csr n := by
    intro n hOther
    have hSet : (s.setCsr 64 num).hart.csrs =
        Function.update s.hart.csrs 64 num := rfl
    have hSame := Function.update_of_ne hOther num s.hart.csrs
    rw [← hSet] at hSame
    exact congrArg (ite (n = CSR_TIME) s.pins.time) hSame
  have hCounter : CSR_HPMCOUNTER3 ≤ csr ∧
      csr ≤ CSR_HPMCOUNTER31 → csr - 0x100 ≠ 64 := by
    intro hRange hEq
    have hLow := hRange.1
    unfold CSR_HPMCOUNTER3 at hLow
    bv_omega
  unfold State.csrRead
  simp only [apply_ite Prod.fst]
  rw [hKept CSR_MCYCLE (by decide),
    hKept CSR_MINSTRET (by decide), hKept csr hNe]
  by_cases hRange : CSR_HPMCOUNTER3 ≤ csr ∧
      csr ≤ CSR_HPMCOUNTER31
  · rw [hKept _ (hCounter hRange)]
    rfl
  · simp only [if_neg hRange]
    rfl

namespace GdbStub

theorem value_setGpr
    (g : GdbStub σ)
    (r : BitVec 5)
    (num : BitVec 64)
    (reg : GdbReg) :
    (g.setState (g.state.setGpr r num)).value reg =
      if reg = .x r then num else g.value reg := by
  cases reg with
  | x r' =>
      simp only [GdbReg.x.injEq]
      exact Function.update_apply g.state.hart.GPR r num r'
  | pc | f | priv => rfl
  | csr n =>
      exact g.state.csrRead_regs _ g.state.hart.FPR
        g.state.hart.pc _

theorem value_setPc
    (g : GdbStub σ)
    (num : BitVec 64)
    (reg : GdbReg) :
    (g.setState (g.state.setPc num)).value reg =
      if reg = .pc then num else g.value reg := by
  cases reg with
  | x | pc | f | priv => rfl
  | csr n =>
      exact g.state.csrRead_regs g.state.hart.GPR
        g.state.hart.FPR _ _

theorem value_setFpr
    (g : GdbStub σ)
    (r : BitVec 5)
    (num : BitVec 64)
    (reg : GdbReg) :
    (g.setState (g.state.setFpr r num)).value reg =
      if reg = .f r then num else g.value reg := by
  cases reg with
  | f r' =>
      simp only [GdbReg.f.injEq]
      exact Function.update_apply g.state.hart.FPR r num r'
  | x | pc | priv => rfl
  | csr n =>
      exact g.state.csrRead_regs g.state.hart.GPR _
        g.state.hart.pc _

theorem value_setCsr
    (g : GdbStub σ)
    (num : BitVec 64)
    (reg : GdbReg) :
    (g.setState (g.state.setCsr 64 num)).value reg =
      if reg = .csr 64 then num else g.value reg := by
  cases reg with
  | x | pc | f | priv => rfl
  | csr n =>
      by_cases hEq : n = 64
      · subst hEq
        rfl
      · have hNe : n.setWidth 16 ≠ 64 := by
          bv_omega
        rw [if_neg (fun h => hEq (GdbReg.csr.inj h))]
        exact g.state.csrRead_setCsr num hNe

end GdbStub

end RiscvEm

------------------------------------------------------------
-- Registers By Number
------------------------------------------------------------

namespace RiscvEm

variable {σ : Type}
variable {P : Platform σ}
variable {other : Text → GdbStub σ →
  Except HostFault (List Text × GdbStub σ)}
variable {idx : Nat}

open HexText (Text)

theorem index_le_iff
    (hIdx : idx ≤ 64)
    {n : Nat}
    (hn : n ≤ 64) :
    BitVec.ofNat 64 idx ≤ BitVec.ofNat 64 n ↔ idx ≤ n := by
  rw [BitVec.le_def, BitVec.toNat_ofNat, BitVec.toNat_ofNat,
    Nat.mod_eq_of_lt (by omega), Nat.mod_eq_of_lt (by omega)]

/- The number of a floating-point register in the array. -/
theorem fpr_index :
    ∀ idx < 64, 34 ≤ idx →
      (BitVec.ofNat 64 idx - 33).setWidth 5 =
        BitVec.ofNat 5 (idx - 33) := by
  decide +kernel

/- The integer registers. -/
theorem registerTrip_gpr_iff
    (hIdx : idx ≤ 31)
    (g : GdbStub σ)
    (v : BitVec 64) :
    RegisterTrip P other g idx v ↔ v.toNat ≤ 0xFF := by
  have hLe : BitVec.ofNat 64 idx ≤ 31 :=
    (index_le_iff (by omega) (by decide)).mpr hIdx
  have hReg : (BitVec.ofNat 64 idx).setWidth 5 =
      BitVec.ofNat 5 idx :=
    BitVec.setWidth_ofNat_of_le (by decide) idx
  have hTarget : targetRegister idx =
      .x (BitVec.ofNat 5 idx) := if_pos hIdx
  let s := g.state.setGpr (BitVec.ofNat 5 idx) (shiftedBytes v)
  have hPut : gdbPutRegister P (BitVec.ofNat 64 idx)
      (shiftedBytes v) g = .ok (g.setState s) := by
    unfold gdbPutRegister
    rw [if_pos hLe, hReg]
  have hGet : gdbGetRegister (BitVec.ofNat 64 idx)
      (g.setState s) =
      .ok ([gdbSendPacket (toLittleEndianHex
        (s.gpr (BitVec.ofNat 5 idx)))], g.setState s) := by
    unfold gdbGetRegister
    rw [if_pos hLe, hReg]
    rfl
  have hValue : s.gpr (BitVec.ofNat 5 idx) = shiftedBytes v :=
    Function.update_self _ _ _
  rw [registerTrip_iff (by omega) hPut hGet, hValue,
    send_hex_eq_iff, shiftedBytes_eq_self_iff, hTarget]
  apply and_iff_left
  intro r hNe
  rw [g.value_setGpr, if_neg hNe]

theorem registerTrip_pc_iff
    (g : GdbStub σ)
    (v : BitVec 64) :
    RegisterTrip P other g 32 v ↔ v.toNat ≤ 0xFF := by
  let s := g.state.setPc (shiftedBytes v)
  have hPut : gdbPutRegister P (BitVec.ofNat 64 32)
      (shiftedBytes v) g = .ok (g.setState s) := rfl
  have hGet : gdbGetRegister (BitVec.ofNat 64 32)
      (g.setState s) =
      .ok ([gdbSendPacket (toLittleEndianHex
        (shiftedBytes v))], g.setState s) := rfl
  have hTarget : targetRegister 32 = .pc := rfl
  rw [registerTrip_iff (by decide) hPut hGet,
    send_hex_eq_iff, shiftedBytes_eq_self_iff, hTarget]
  apply and_iff_left
  intro r hNe
  rw [g.value_setPc, if_neg hNe]

/- `f0` shares its number with the privilege mode. -/
theorem registerTrip_priv
    (g : GdbStub σ)
    (v : BitVec 64) :
    ¬ RegisterTrip P other g 33 v := by
  let g₁ := (g.setMode (shiftedBytes v)).setState
    ((g.setMode (shiftedBytes v)).state.setFpr 0
      (P.float.ofUInt .toNearest (shiftedBytes v)))
  have hPut : gdbPutRegister P (BitVec.ofNat 64 33)
      (shiftedBytes v) g = .ok g₁ := rfl
  have hGet : gdbGetRegister (BitVec.ofNat 64 33) g₁ =
      .ok ([gdbSendPacket (toLittleEndianHex
          (g₁.modeByte.setWidth 64)),
        gdbSendPacket (toLittleEndianHex (g₁.state.fpr 0))],
        g₁) := rfl
  rw [registerTrip_iff (by decide) hPut hGet]
  intro hTrip
  cases (List.cons.inj hTrip.1).2

/- The other floating-point registers hold a number. -/
theorem registerTrip_fpr_iff
    (hExact : P.float.ExactOfUInt)
    (hLow : 34 ≤ idx)
    (hHigh : idx < 64)
    (g : GdbStub σ)
    (v : BitVec 64) :
    RegisterTrip P other g idx v ↔
      v = 0 ∨ v = 0x40CFE00000000000 := by
  have hLe : ¬ BitVec.ofNat 64 idx ≤ 31 := by
    intro hLe
    have := (index_le_iff (n := 31) (by omega)
      (by decide)).mp hLe
    omega
  have hPc : BitVec.ofNat 64 idx ≠ 32 := by
    bv_omega
  have hPriv : BitVec.ofNat 64 idx ≠ 33 := by
    bv_omega
  have hLt : BitVec.ofNat 64 idx < 64 := by
    bv_omega
  have hReg := fpr_index idx hHigh hLow
  have hTarget : targetRegister idx =
      .f (BitVec.ofNat 5 (idx - 33)) := by
    unfold targetRegister
    rw [if_neg (by omega), if_neg (by omega)]
  let num := P.float.ofUInt .toNearest (shiftedBytes v)
  let s := g.state.setFpr (BitVec.ofNat 5 (idx - 33)) num
  have hPut : gdbPutRegister P (BitVec.ofNat 64 idx)
      (shiftedBytes v) g = .ok (g.setState s) := by
    unfold gdbPutRegister
    rw [if_neg hLe, if_neg hPc, if_pos hLt, hReg]
    simp only [if_neg hPriv]
    rfl
  have hGet : gdbGetRegister (BitVec.ofNat 64 idx)
      (g.setState s) =
      .ok ([gdbSendPacket (toLittleEndianHex
        (s.fpr (BitVec.ofNat 5 (idx - 33))))],
        g.setState s) := by
    unfold gdbGetRegister
    rw [if_neg hLe, if_neg hPc, if_pos hLt, hReg]
    simp only [if_neg hPriv]
    rfl
  have hValue : s.fpr (BitVec.ofNat 5 (idx - 33)) =
      doubleOfNat (shiftedBytes v).toNat := by
    have hSmall := shiftedBytes_lt v
    have hNum : num = doubleOfNat (shiftedBytes v).toNat :=
      hExact _ _ (by omega)
    rw [← hNum]
    exact Function.update_self _ _ _
  rw [registerTrip_iff (by omega) hPut hGet, hValue,
    send_hex_eq_iff, doubleOfNat_shiftedBytes_iff, hTarget]
  apply and_iff_left
  intro r hNe
  rw [g.value_setFpr, if_neg hNe]

/- The number of `f31` is that of a CSR. -/
theorem registerTrip_csr_iff
    (g : GdbStub σ)
    (v : BitVec 64) :
    RegisterTrip P other g 64 v ↔
      v.toNat ≤ 0xFF ∧ g.state.hart.csrs 64 = v := by
  let g₁ := g.setState (g.state.setCsr 64 (shiftedBytes v))
  have hPut : gdbPutRegister P (BitVec.ofNat 64 64)
      (shiftedBytes v) g = .ok g₁ := rfl
  have hValue : (g₁.state.csrRead 64).1 = shiftedBytes v :=
    rfl
  have hGet : gdbGetRegister (BitVec.ofNat 64 64) g₁ =
      .ok ([gdbSendPacket (toLittleEndianHex
        (shiftedBytes v))], g₁) := rfl
  have hTarget : targetRegister 64 = .f 31 := rfl
  rw [registerTrip_iff (by decide) hPut hGet,
    send_hex_eq_iff, shiftedBytes_eq_self_iff, hTarget]
  apply and_congr_right
  intro hByte
  have hSelf := (shiftedBytes_eq_self_iff v).mpr hByte
  constructor
  · intro hKept
    have hCsr := hKept (.csr 64) nofun
    rw [g.value_setCsr, if_pos rfl, hSelf] at hCsr
    exact hCsr.symm
  · intro hAlready r _
    rw [g.value_setCsr]
    by_cases hCsr : r = .csr 64
    · rw [if_pos hCsr, hCsr, hSelf]
      exact hAlready.symm
    · rw [if_neg hCsr]

/- Every register of the description. -/
theorem registerTrip_iff_holds
    (hExact : P.float.ExactOfUInt)
    (g : GdbStub σ)
    (hIdx : idx ≤ 64)
    (v : BitVec 64) :
    RegisterTrip P other g idx v ↔ TripHolds g idx v := by
  unfold TripHolds
  by_cases hGpr : idx ≤ 31
  · rw [registerTrip_gpr_iff hGpr]
    omega
  by_cases hPc : idx = 32
  · subst hPc
    rw [registerTrip_pc_iff]
    omega
  by_cases hPriv : idx = 33
  · subst hPriv
    simp [registerTrip_priv g v]
  by_cases hCsr : idx = 64
  · subst hCsr
    simp [registerTrip_csr_iff]
  · have hLow : 34 ≤ idx := by omega
    have hHigh : idx ≤ 63 := by omega
    have hNot : ¬ idx ≤ 32 := by omega
    rw [registerTrip_fpr_iff hExact hLow (by omega)]
    simp [hLow, hHigh, hNot, hCsr]

end RiscvEm

------------------------------------------------------------
-- All Registers
------------------------------------------------------------

namespace RiscvEm

variable {σ : Type}
variable {P : Platform σ}
variable {other : Text → GdbStub σ →
  Except HostFault (List Text × GdbStub σ)}

open HexText (Text)

/- The value at a place of `G`. -/
def valueAt
    (vals : Fin 33 → BitVec 64)
    (i : Nat) : BitVec 64 :=
  if h : i < 33 then vals ⟨i, h⟩ else 0

theorem ofFn_eq_valueAt
    (vals : Fin 33 → BitVec 64) :
    List.ofFn vals = (List.range 33).map (valueAt vals) := by
  apply List.ext_getElem
  · simp
  · intro i hi _
    rw [List.length_ofFn] at hi
    rw [List.getElem_ofFn, List.getElem_map,
      List.getElem_range]
    unfold valueAt
    rw [dif_pos hi]

/- `G` finds each value at its place. -/
theorem gdbNumberAt_registersText
    (vals : Fin 33 → BitVec 64)
    {i : Nat}
    (hi : i < 33) :
    gdbNumberAt (registersText vals) i =
      .ok (valueAt vals i) := by
  have hLt : i < (List.ofFn vals).length := by
    rw [List.length_ofFn]
    exact hi
  have hLength : ∀ v, (toLittleEndianHex v).length = 16 :=
    fun _ => rfl
  have hPart := HexText.substr_flatMap hLength hLt
  rw [List.getElem_ofFn] at hPart
  have hValue : valueAt vals i = vals ⟨i, hi⟩ := dif_pos hi
  unfold gdbNumberAt registersText
  rw [hPart, hValue]
  dsimp only [partOf, bind, Except.bind]
  rw [swapHexEndian_toLittleEndianHex]
  dsimp only
  unfold stoul
  rw [strtoul16_le]

theorem State.setPc_gpr
    (s : State σ)
    (pc : BitVec 64)
    (r : BitVec 5) :
    (s.setPc pc).gpr r = s.gpr r := rfl

/- Writes of the first `n` registers, in their order. -/
def setGprs
    (vals : Fin 33 → BitVec 64)
    (n : Nat)
    (s : State σ) : State σ :=
  (List.range n).foldl
    (fun s i => s.setGpr (BitVec.ofNat 5 i) (valueAt vals i)) s

theorem setGprs_gpr
    (vals : Fin 33 → BitVec 64)
    (s : State σ)
    {n : Nat}
    (hn : n ≤ 32)
    {i : Nat}
    (hi : i < n) :
    (setGprs vals n s).gpr (BitVec.ofNat 5 i) =
      valueAt vals i := by
  induction n with
  | zero => cases hi
  | succ n ih =>
      have hStep : setGprs vals (n + 1) s =
          (setGprs vals n s).setGpr (BitVec.ofNat 5 n)
            (valueAt vals n) := by
        unfold setGprs
        rw [List.range_succ, List.foldl_append]
        rfl
      rw [hStep]
      by_cases hLast : i = n
      · subst hLast
        exact Function.update_self _ _ _
      · have hNe : BitVec.ofNat 5 i ≠ BitVec.ofNat 5 n := by
          bv_omega
        rw [← ih (by omega) (by omega)]
        exact Function.update_of_ne hNe _ _

/- `g` sends what the registers hold. -/
theorem gdbReadRegisters_eq
    {g : GdbStub σ}
    {vals : Fin 33 → BitVec 64}
    (hGprs : ∀ i < 32,
      g.state.gpr (BitVec.ofNat 5 i) = valueAt vals i)
    (hPc : g.state.hart.pc = valueAt vals 32) :
    gdbReadRegisters g =
      [gdbSendPacket (registersText vals)] := by
  have hText : (List.range 32).flatMap (fun i =>
      toLittleEndianHex (g.state.gpr (BitVec.ofNat 5 i))) =
      (List.range 32).flatMap fun i =>
        toLittleEndianHex (valueAt vals i) := by
    apply List.flatMap_congr
    intro i hi
    rw [hGprs i (List.mem_range.mp hi)]
  unfold gdbReadRegisters registersText
  rw [hText, hPc, ofFn_eq_valueAt, List.flatMap_map,
    List.range_succ (n := 32), List.flatMap_append,
    List.flatMap_singleton]

/- `G` writes the values of its text. -/
theorem gdbWriteRegisters_registersText
    (g : GdbStub σ)
    (vals : Fin 33 → BitVec 64) :
    gdbWriteRegisters ('G' :: registersText vals) g =
      .ok ([gdbSendPacket "OK".toList],
        g.setState ((setGprs vals 32 g.state).setPc
          (valueAt vals 32))) := by
  have hFold : (List.range 32).foldlM
      (fun s i => do
        let val ← gdbNumberAt (registersText vals) i
        .ok (s.setGpr (BitVec.ofNat 5 i) val))
      g.state = .ok (setGprs vals 32 g.state) := by
    apply foldlM_eq_ok
    intro i hi s
    have hLt := List.mem_range.mp hi
    refine bind_eq_ok.mpr ⟨valueAt vals i, ?_, rfl⟩
    exact gdbNumberAt_registersText vals (by omega)
  have hPc := gdbNumberAt_registersText vals (i := 32)
    (by decide)
  refine bind_eq_ok.mpr ⟨_, hFold, ?_⟩
  exact bind_eq_ok.mpr ⟨_, hPc, rfl⟩

/- The registers come back as a whole. -/
theorem registersTrip_all
    (g : GdbStub σ)
    (vals : Fin 33 → BitVec 64) :
    RegistersTrip P other g vals := by
  let g₁ := g.setState ((setGprs vals 32 g.state).setPc
    (valueAt vals 32))
  have hWrite : gdbParsePacket P other
      (gdbSendPacket ('G' :: registersText vals)) g =
      .ok ([gdbSendPacket "OK".toList], g₁) := by
    rw [gdbParsePacket_send]
    exact gdbWriteRegisters_registersText g vals
  have hSent : gdbReadRegisters g₁ =
      [gdbSendPacket (registersText vals)] := by
    apply gdbReadRegisters_eq
    · intro i hi
      have hReg := setGprs_gpr vals g.state (le_refl 32) hi
      exact (State.setPc_gpr _ _ _).trans hReg
    · rfl
  have hRead : gdbParsePacket P other (gdbSendPacket ['g'])
      g₁ = .ok ([gdbSendPacket (registersText vals)], g₁) := by
    rw [gdbParsePacket_send]
    exact congrArg (fun sent => Except.ok (sent, g₁)) hSent
  exact ⟨_, g₁, g₁, hWrite, hRead⟩

/-
  Which values come back through `P` and `p`: of the integer
  registers and `pc` those of one byte, because `P` shifts
  the byte at place `i` by `i` bits only. The
  floating-point registers hold the number as a double
  instead of its bits, `f0` shares its number with the
  privilege mode, and the number of `f31` is that of a CSR.
  What `G` writes comes back through `g` in full.
-/
theorem gdb_registers_round_trip_iff
    (P : Platform σ)
    (hExact : P.float.ExactOfUInt)
    (other : Text → GdbStub σ →
      Except HostFault (List Text × GdbStub σ))
    (g : GdbStub σ) :
    (∀ idx v, 1 ≤ idx → idx ≤ 64 →
      (RegisterTrip P other g idx v ↔ TripHolds g idx v)) ∧
      ∀ vals, RegistersTrip P other g vals :=
  ⟨fun _ v _ hIdx => registerTrip_iff_holds hExact g hIdx v,
    registersTrip_all g⟩

/- A platform that converts small integers exactly. -/
def Platform.counting : Platform Unit :=
  { Platform.bare with
    float := { HostFloat.unused with
      ofUInt := fun _ n => doubleOfNat n.toNat } }

/- The stub on a machine that has just started. -/
def GdbStub.boot : GdbStub Unit :=
  ⟨State.boot [], none⟩

/- Packets that do nothing. -/
def ignorePacket
    (_ : Text)
    (g : GdbStub Unit) :
    Except HostFault (List Text × GdbStub Unit) :=
  .ok ([], g)

theorem gdb_registers_round_trip_byte :
    RegisterTrip Platform.counting ignorePacket .boot 1 0x7F ∧
      RegisterTrip Platform.counting ignorePacket .boot 34
        0x40CFE00000000000 := by
  have hTrips := (gdb_registers_round_trip_iff
    Platform.counting (fun _ _ _ => rfl) ignorePacket .boot).1
  constructor
  · refine (hTrips 1 0x7F (by decide) (by decide)).mpr ?_
    exact Or.inl ⟨by decide, by decide⟩
  · refine (hTrips 34 _ (by decide) (by decide)).mpr ?_
    exact Or.inr (Or.inl ⟨by decide, by decide, Or.inr rfl⟩)

/- Two bytes do not come back from `x1`. -/
theorem gdb_registers_round_trip_two_bytes :
    ¬ RegisterTrip Platform.bare ignorePacket .boot 1
      0x100 := by
  rw [registerTrip_gpr_iff (by decide)]
  decide

end RiscvEm
