import RiscvEm.Lib.ByteCodec

/-
  Numbers as hexadecimal text: the digits of a byte, texts
  of several bytes, and the reading of a number from the
  front of a text as `strtoul` does for base 16.

  Key definitions include:
    * `byteText`
    * `value`
    * `strtoul16`
    * `substr`

  Key theorems include:
    * `strtoul16_digits`
    * `value_bytes`
    * `value_toDigits`
    * `substr_flatMap`
-/

------------------------------------------------------------
-- Digits
------------------------------------------------------------

namespace HexText

open ByteCodec (Byte leNat)

abbrev Text := List Char

/- The lower-case digit of a number below 16. -/
def digit
    (n : Nat) : Char :=
  if n < 10 then Char.ofNat (0x30 + n)
  else Char.ofNat (0x57 + n)

/- What a character is worth as a digit of base 16. -/
def digitValue
    (c : Char) : Option Nat :=
  let n := c.toNat
  if 0x30 ≤ n ∧ n ≤ 0x39 then some (n - 0x30)
  else if 0x41 ≤ n ∧ n ≤ 0x46 then some (n - 0x37)
  else if 0x61 ≤ n ∧ n ≤ 0x66 then some (n - 0x57)
  else none

def IsDigit
    (c : Char) : Prop :=
  (digitValue c).isSome = true

instance
    (c : Char) :
    Decidable (IsDigit c) :=
  inferInstanceAs (Decidable (_ = _))

/- The two digits of a byte. -/
def byteText
    (b : Byte) : Text :=
  [digit (b.toNat / 16), digit (b.toNat % 16)]

/- The number that digits stand for, from `n` on. -/
def valueFrom
    (n : Nat)
    (ds : Text) : Nat :=
  ds.foldl (fun n c => 16 * n + (digitValue c).getD 0) n

def value
    (ds : Text) : Nat :=
  valueFrom 0 ds

theorem digitValue_digit :
    ∀ n < 16, digitValue (digit n) = some n := by
  decide

theorem isDigit_byteText
    (b : Byte) :
    ∀ c ∈ byteText b, IsDigit c := by
  have hHigh : b.toNat / 16 < 16 := by omega
  have hLow : b.toNat % 16 < 16 := Nat.mod_lt _ (by decide)
  intro c hMem
  simp only [byteText, List.mem_cons, List.not_mem_nil,
    or_false] at hMem
  unfold IsDigit
  rcases hMem with rfl | rfl
  · rw [digitValue_digit _ hHigh]
    rfl
  · rw [digitValue_digit _ hLow]
    rfl

theorem isDigit_bytes
    (bs : List Byte) :
    ∀ c ∈ bs.flatMap byteText, IsDigit c := by
  intro c hMem
  rcases List.mem_flatMap.mp hMem with ⟨b, -, hc⟩
  exact isDigit_byteText b c hc

theorem valueFrom_byteText
    (n : Nat)
    (b : Byte) :
    valueFrom n (byteText b) = 256 * n + b.toNat := by
  have hHigh : b.toNat / 16 < 16 := by omega
  have hLow : b.toNat % 16 < 16 := Nat.mod_lt _ (by decide)
  unfold valueFrom byteText
  simp only [List.foldl_cons, List.foldl_nil,
    digitValue_digit _ hHigh, digitValue_digit _ hLow,
    Option.getD_some]
  omega

/- Bytes from the highest down are a number. -/
theorem value_bytes
    (bs : List Byte) :
    value (bs.reverse.flatMap byteText) = leNat bs := by
  induction bs with
  | nil => rfl
  | cons b bs ih =>
      have hLast : value ((b :: bs).reverse.flatMap byteText) =
          valueFrom (value (bs.reverse.flatMap byteText))
            (byteText b) := by
        unfold value valueFrom
        rw [List.reverse_cons, List.flatMap_append,
          List.foldl_append, List.flatMap_singleton]
      rw [hLast, ih, valueFrom_byteText, leNat]
      omega

theorem digitValue_digitChar :
    ∀ n < 16, digitValue (Nat.digitChar n) = some n := by
  decide

/- The text of a number is made of digits. -/
theorem isDigit_toDigits
    (n : Nat) :
    ∀ c ∈ Nat.toDigits 16 n, IsDigit c := by
  induction n using Nat.strongRecOn with
  | ind n ih =>
      intro c hMem
      rw [Nat.toDigits_eq_if (by decide)] at hMem
      have hDigit : ∀ n < 16, IsDigit (Nat.digitChar n) := by
        intro n hn
        unfold IsDigit
        rw [digitValue_digitChar n hn]
        rfl
      by_cases hSmall : n < 16
      · rw [if_pos hSmall, List.mem_singleton] at hMem
        rw [hMem]
        exact hDigit n hSmall
      · rw [if_neg hSmall, List.mem_append,
          List.mem_singleton] at hMem
        rcases hMem with hHigh | hLast
        · exact ih (n / 16) (by omega) c hHigh
        · rw [hLast]
          exact hDigit _ (Nat.mod_lt n (by decide))

theorem toDigits_ne_nil
    (n : Nat) :
    Nat.toDigits 16 n ≠ [] := by
  rw [Nat.toDigits_eq_if (by decide)]
  by_cases hSmall : n < 16
  · rw [if_pos hSmall]
    exact List.cons_ne_nil _ _
  · rw [if_neg hSmall]
    exact List.append_ne_nil_of_right_ne_nil _
      (List.cons_ne_nil _ _)

/- It is worth the number. -/
theorem value_toDigits
    (n : Nat) :
    value (Nat.toDigits 16 n) = n := by
  induction n using Nat.strongRecOn with
  | ind n ih =>
      rw [Nat.toDigits_eq_if (by decide)]
      by_cases hSmall : n < 16
      · rw [if_pos hSmall]
        unfold value valueFrom
        rw [List.foldl_cons, digitValue_digitChar n hSmall]
        exact Nat.zero_add n
      · have hLast := digitValue_digitChar (n % 16)
          (Nat.mod_lt n (by decide))
        have hHigh := ih (n / 16) (by omega)
        unfold value valueFrom at hHigh ⊢
        rw [if_neg hSmall, List.foldl_append, hHigh,
          List.foldl_cons, hLast]
        exact Nat.div_add_mod n 16

end HexText

------------------------------------------------------------
-- Reading Numbers
------------------------------------------------------------

namespace HexText

open ByteCodec (Byte leNat)

/- `isspace` of the default locale. -/
def isSpace
    (c : Char) : Bool :=
  c.toNat == 0x20 || (decide (0x09 ≤ c.toNat) &&
    decide (c.toNat ≤ 0x0D))

/- A sign in front of a number is a minus. -/
def takeSign : Text → Bool × Text
  | '-' :: s => (true, s)
  | '+' :: s => (false, s)
  | s => (false, s)

/- `0x` is skipped when a digit follows. -/
def skipPrefix : Text → Text
  | z :: x :: d :: s =>
      if z = '0' ∧ (x = 'x' ∨ x = 'X') ∧ IsDigit d then
        d :: s
      else
        z :: x :: d :: s
  | s => s

/-
  Read a number of base 16 from the front of a text: there is
  none without digits or when it does not fit into 64 bits.
-/
def strtoul16
    (s : Text) : Option (BitVec 64) :=
  let signed := takeSign (s.dropWhile isSpace)
  let ds := (skipPrefix signed.2).takeWhile (IsDigit ·)
  if ds = [] then
    none
  else if 2 ^ 64 ≤ value ds then
    none
  else if signed.1 then
    some (- BitVec.ofNat 64 (value ds))
  else
    some (BitVec.ofNat 64 (value ds))

theorem IsDigit.le_toNat
    {c : Char}
    (h : IsDigit c) :
    0x30 ≤ c.toNat := by
  unfold IsDigit digitValue at h
  dsimp only at h
  split at h
  case isTrue hRange => exact hRange.1
  case isFalse =>
    split at h
    case isTrue hRange => omega
    case isFalse =>
      split at h
      case isTrue hRange => omega
      case isFalse => cases h

theorem IsDigit.not_space
    {c : Char}
    (h : IsDigit c) :
    isSpace c = false := by
  have hLe := h.le_toNat
  unfold isSpace
  rw [Bool.or_eq_false_iff, Bool.and_eq_false_iff,
    beq_eq_false_iff_ne, decide_eq_false_iff_not,
    decide_eq_false_iff_not]
  omega

/- A text of digits has no sign. -/
theorem takeSign_digit
    {c : Char}
    (h : IsDigit c)
    (s : Text) :
    takeSign (c :: s) = (false, c :: s) := by
  unfold takeSign
  split
  case h_1 hEq =>
    cases hEq
    exact absurd h (by decide)
  case h_2 hEq =>
    cases hEq
    exact absurd h (by decide)
  case h_3 => rfl

/- A text whose second character is no `x` has no prefix. -/
theorem skipPrefix_of_ne
    {s : Text}
    (h : ∀ c ∈ s[1]?, c ≠ 'x' ∧ c ≠ 'X') :
    skipPrefix s = s := by
  unfold skipPrefix
  split
  case h_1 z x d s =>
    rw [if_neg]
    rintro ⟨-, hx, -⟩
    have hNe := h x rfl
    rcases hx with rfl | rfl
    · exact hNe.1 rfl
    · exact hNe.2 rfl
  case h_2 => rfl

/-
  Digits are read up to a character that is neither a digit
  nor an `x`.
-/
theorem strtoul16_digits
    {ds : Text}
    (rest : Text)
    (hDigits : ∀ c ∈ ds, IsDigit c)
    (hSome : ds ≠ [])
    (hSmall : value ds < 2 ^ 64)
    (hRest : ∀ c ∈ rest.head?, ¬ IsDigit c ∧ c ≠ 'x' ∧
      c ≠ 'X') :
    strtoul16 (ds ++ rest) =
      some (BitVec.ofNat 64 (value ds)) := by
  have hTake : (ds ++ rest).takeWhile (IsDigit ·) = ds := by
    rw [List.takeWhile_append_of_pos]
    · cases rest with
      | nil => exact List.append_nil ds
      | cons c rest =>
          have hNot := (hRest c rfl).1
          rw [List.takeWhile_cons_of_neg (by simpa using hNot),
            List.append_nil]
    · intro c hMem
      exact decide_eq_true (hDigits c hMem)
  cases ds with
  | nil => exact absurd rfl hSome
  | cons c ds =>
      have hFirst := hDigits c List.mem_cons_self
      have hDrop : (c :: ds ++ rest).dropWhile isSpace =
          c :: (ds ++ rest) := by
        rw [List.cons_append, List.dropWhile_cons_of_neg]
        rw [hFirst.not_space]
        exact Bool.false_ne_true
      have hPrefix : skipPrefix (c :: (ds ++ rest)) =
          c :: (ds ++ rest) := by
        apply skipPrefix_of_ne
        intro x hx
        cases ds with
        | nil =>
            have hHead : x ∈ rest.head? := by
              rw [List.head?_eq_getElem?]
              exact hx
            exact (hRest x hHead).2
        | cons d ds =>
            have hDigit := hDigits d (by simp)
            cases Option.some.inj hx
            constructor
            all_goals
              rintro rfl
              exact absurd hDigit (by decide)
      unfold strtoul16
      rw [hDrop, takeSign_digit hFirst]
      dsimp only
      rw [hPrefix, ← List.cons_append, hTake,
        if_neg hSome, if_neg (Nat.not_le_of_lt hSmall),
        if_neg Bool.false_ne_true]

/- The two digits of a byte are read as the byte. -/
theorem strtoul16_byteText
    (b : Byte) :
    strtoul16 (byteText b) = some (b.setWidth 64) := by
  have hValue : value (byteText b) = b.toNat := by
    unfold value
    rw [valueFrom_byteText]
    omega
  have hLt := b.isLt
  have hRead := strtoul16_digits []
    (isDigit_byteText b) (List.cons_ne_nil _ _)
    (by rw [hValue]; omega) nofun
  rw [List.append_nil, hValue] at hRead
  rw [hRead, BitVec.ofNat_toNat]

/- Up to eight bytes, highest first, are read as a number. -/
theorem strtoul16_bytes
    {bs : List Byte}
    (hSome : bs ≠ [])
    (hLength : bs.length ≤ 8) :
    strtoul16 (bs.reverse.flatMap byteText) =
      some (BitVec.ofNat 64 (leNat bs)) := by
  have hValue := value_bytes bs
  have hLt : leNat bs < 2 ^ 64 := by
    have hPow : 256 ^ bs.length ≤ 256 ^ 8 :=
      Nat.pow_le_pow_right (by decide) hLength
    exact (ByteCodec.leNat_lt bs).trans_le hPow
  have hText : bs.reverse.flatMap byteText ≠ [] := by
    intro hNil
    rw [List.flatMap_eq_nil_iff] at hNil
    rcases List.exists_mem_of_ne_nil bs hSome with ⟨b, hb⟩
    cases hNil b (List.mem_reverse.mpr hb)
  have hRead := strtoul16_digits []
    (isDigit_bytes bs.reverse) hText (by rw [hValue]; exact hLt)
    nofun
  rw [List.append_nil, hValue] at hRead
  exact hRead

end HexText

------------------------------------------------------------
-- Parts Of A Text
------------------------------------------------------------

namespace HexText

/- `s.substr(pos, n)`; it throws behind the end. -/
def substr
    (s : Text)
    (pos n : Nat) : Option Text :=
  if pos ≤ s.length then some ((s.drop pos).take n) else none

theorem substr_append
    (a s : Text)
    (pos n : Nat) :
    substr (a ++ s) (a.length + pos) n = substr s pos n := by
  unfold substr
  rw [List.length_append, List.drop_length_add_append]
  by_cases h : pos ≤ s.length
  · rw [if_pos h, if_pos (Nat.add_le_add_left h _)]
  · rw [if_neg h, if_neg]
    exact fun hAdd => h (Nat.le_of_add_le_add_left hAdd)

theorem substr_front
    (a s : Text) :
    substr (a ++ s) 0 a.length = some a := by
  unfold substr
  rw [if_pos (Nat.zero_le _), List.drop_zero, List.take_left]

/- A part of a text that is made of parts of one length. -/
theorem substr_flatMap
    {α : Type}
    {f : α → Text}
    {n : Nat}
    (hLength : ∀ a, (f a).length = n)
    {as : List α}
    {i : Nat}
    (hi : i < as.length) :
    substr (as.flatMap f) (i * n) n = some (f as[i]) := by
  induction as generalizing i with
  | nil => cases hi
  | cons a as ih =>
      rw [List.flatMap_cons]
      cases i with
      | zero =>
          have hFront := substr_front (f a) (as.flatMap f)
          rw [hLength a] at hFront
          rw [Nat.zero_mul]
          exact hFront
      | succ i =>
          have hSkip := substr_append (f a) (as.flatMap f)
            (i * n) n
          rw [hLength a, Nat.add_comm n, ← Nat.succ_mul] at hSkip
          rw [hSkip, ih (Nat.lt_of_succ_lt_succ hi)]
          rfl

end HexText
