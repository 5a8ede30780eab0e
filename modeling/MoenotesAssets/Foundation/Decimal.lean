import MoenotesAssets.Foundation.Binary64
import MoenotesAssets.Foundation.Bytes

/-! Numbers of 64 bits as decimal text: what is read is rounded once, and what is printed has the
fewest digits that are read back.
-/

namespace Foundation.Binary64

-----------------------------------------------------------------------------------------
-- Reading
-----------------------------------------------------------------------------------------

/-- A natural number times a power of ten, rounded. -/
def ofDecimal (negative : Bool) (digits : Nat) (exponent : Int) : Binary64 :=
  round negative (digits * 10 ^ exponent.toNat * one)
    (Nat.pow_pos (by decide : 0 < 10) : 0 < 10 ^ (-exponent).toNat)

/-- The sign in front of a number. -/
def readSign : List Char → Bool × List Char
  | '-' :: letters => (true, letters)
  | '+' :: letters => (false, letters)
  | letters => (false, letters)

/-- The digits in front of other letters. -/
def readDigits (letters : List Char) : List Char × List Char :=
  (letters.takeWhile Char.isDigit, letters.dropWhile Char.isDigit)

/-- The digits behind a point, if there is one. -/
def readFraction : List Char → List Char × List Char
  | '.' :: letters => readDigits letters
  | letters => ([], letters)

/-- The exponent that digits stand for, which no longer grows when it is far beyond all numbers. -/
def saturated (digits : List Char) : Nat :=
  digits.foldl
    (fun exponent digit =>
      if exponent < 0x10000 then 10 * exponent + (digit.toNat - '0'.toNat) else exponent)
    0

/-- The exponent at the end of a number, if there is one. -/
def readExponent : List Char → Option Int
  | [] => some 0
  | mark :: letters =>
      let (negative, digits) := readSign letters
      if (mark = 'e' ∨ mark = 'E') ∧ digits ≠ [] ∧ digits.all Char.isDigit then
        some (if negative then -saturated digits else saturated digits)
      else none

/-- A number in digits. -/
def readNumber (negative : Bool) (letters : List Char) : Option Binary64 :=
  let (whole, behind) := readDigits letters
  let (fraction, behind) := readFraction behind
  if whole = [] ∧ fraction = [] then none
  else
    (readExponent behind).map fun exponent =>
      ofDecimal negative (Nat.ofDigitChars 10 (whole ++ fraction) 0) (exponent - fraction.length)

/-- What is not written in digits, in letters of either case. -/
def readName (negative : Bool) (letters : List Char) : Option Binary64 :=
  let name := String.ofList (letters.map Char.toLower)
  if name = "inf" ∨ name = "infinity" then some (infinite negative)
  else if name = "nan" then some nan
  else none

/-- The number that a text stands for. -/
def parse (text : String) : Option Binary64 :=
  let (negative, letters) := readSign text.toList
  (readNumber negative letters).or (readName negative letters)

-----------------------------------------------------------------------------------------
-- Printing
-----------------------------------------------------------------------------------------

/-- A natural number times a power of ten. -/
structure Decimal where
  digits : Nat
  exponent : Int

/-- The count that a decimal number is rounded to. -/
def Decimal.rounded (decimal : Decimal) : Nat :=
  nearest (decimal.digits * 10 ^ decimal.exponent.toNat * one) (10 ^ (-decimal.exponent).toNat)

/-- The decimal numbers of an exponent around a count: the nearer one first, and of two that are
equally near the larger one.
-/
def around (units : Nat) (exponent : Int) : List Decimal :=
  let p := units * 10 ^ (-exponent).toNat
  let q := one * 10 ^ exponent.toNat
  if 2 * (p % q) < q then [⟨p / q, exponent⟩, ⟨p / q + 1, exponent⟩]
  else [⟨p / q + 1, exponent⟩, ⟨p / q, exponent⟩]

/-- The first decimal number that is rounded to a count, by exponents that go down; at the last of
them it is the count itself.
-/
def shortest (units : Nat) : Nat → Int → Decimal
  | 0, _ => { digits := units * 5 ^ depth, exponent := -depth }
  | steps + 1, exponent =>
      match (around units exponent).find? fun decimal => decimal.rounded = units with
      | some decimal => decimal
      | none => shortest units steps (exponent - 1)

/-- The letters of a decimal number without an exponent. -/
def Decimal.letters (decimal : Decimal) : List Char :=
  match decimal.exponent with
  | .ofNat zeros => Nat.toDigits 10 (decimal.digits * 10 ^ zeros)
  | .negSucc places =>
      let shift := 10 ^ (places + 1)
      Nat.toDigits 10 (decimal.digits / shift)
      ++ '.' :: (Nat.toDigits 10 (decimal.digits % shift)).leftpad (places + 1) '0'

/-- The decimal number that is printed for a count. -/
def Magnitude.decimal (magnitude : Magnitude) : Decimal :=
  let length := (Nat.toDigits 10 (magnitude.units / one)).length
  shortest magnitude.units (length + depth) length

/-- The text of a number. -/
def toText : Binary64 → String
  | finite negative magnitude =>
      String.ofList ((if negative then ['-'] else []) ++ magnitude.decimal.letters)
  | infinite negative => if negative then "-inf" else "inf"
  | nan => "NaN"

-----------------------------------------------------------------------------------------
-- Round trip
-----------------------------------------------------------------------------------------

/-- Digits are read up to what is none. -/
theorem readDigits_append {digits behind : List Char}
    (all : ∀ letter ∈ digits, letter.isDigit = true)
    (stops : ∀ letter ∈ behind.head?, letter.isDigit = false)
    : readDigits (digits ++ behind) = (digits, behind) := by
  rw [readDigits, List.takeWhile_append_of_pos all, List.dropWhile_append_of_pos all]
  cases behind with
  | nil => simp
  | cons letter behind =>
      have stops := stops letter rfl
      simp [stops]

/-- The digits of a number are digits. -/
theorem toDigits_isDigit (n : Nat) : ∀ letter ∈ Nat.toDigits 10 n, letter.isDigit = true :=
  fun _ member => Nat.isDigit_of_mem_toDigits (by decide) (by decide) member

/-- Padded to no fewer digits than it has, a number has as many as that. -/
theorem leftpad_length {n width : Nat} (positive : 0 < width) (small : n < 10 ^ width)
    : ((Nat.toDigits 10 n).leftpad width '0').length = width := by
  have short := (Nat.length_toDigits_le_iff (by decide : 1 < 10) positive).mpr small
  rw [List.length_leftpad, Nat.max_eq_left short]

/-- A number whose digits are split at a place has the same value. -/
theorem split_digits {n width : Nat} (positive : 0 < width)
    : Nat.ofDigitChars 10
        (Nat.toDigits 10 (n / 10 ^ width) ++ (Nat.toDigits 10 (n % 10 ^ width)).leftpad width '0')
        0
      = n := by
  have length := leftpad_length positive (Nat.mod_lt n (Nat.pow_pos (by decide : 0 < 10)))
  rw [Nat.ofDigitChars_append, Nat.ofDigitChars_ten_toDigits, Nat.ofDigitChars_eq_ofDigitChars_zero,
    length, List.leftpad, Nat.ofDigitChars_append, Nat.ofDigitChars_replicate_zero, Nat.mul_zero,
    Nat.ofDigitChars_ten_toDigits]
  exact Nat.div_add_mod _ _

/-- A decimal number is read back as it is rounded. -/
theorem readNumber_letters (negative : Bool) (decimal : Decimal)
    : readNumber negative decimal.letters
      = some (ofDecimal negative decimal.digits decimal.exponent) := by
  obtain ⟨digits, exponent⟩ := decimal
  cases exponent with
  | ofNat zeros =>
      have read : readDigits (Nat.toDigits 10 (digits * 10 ^ zeros))
          = (Nat.toDigits 10 (digits * 10 ^ zeros), []) := by
        have := @readDigits_append _ [] (toDigits_isDigit (digits * 10 ^ zeros)) (by simp)
        rwa [List.append_nil] at this
      have some : Nat.toDigits 10 (digits * 10 ^ zeros) ≠ [] := Nat.toDigits_ne_nil
      simp [readNumber, Decimal.letters, read, readFraction, some, readExponent, ofDecimal,
        Nat.ofDigitChars_toDigits]
  | negSucc places =>
      have some : Nat.toDigits 10 (digits / 10 ^ (places + 1)) ≠ [] := Nat.toDigits_ne_nil
      have length := leftpad_length (Nat.succ_pos places)
        (Nat.mod_lt digits (Nat.pow_pos (by decide : 0 < 10)))
      have read := @readDigits_append _ []
        (Bytes.leftpad_digits (places + 1) (digits % 10 ^ (places + 1))) (by simp)
      rw [List.append_nil] at read
      rw [readNumber, Decimal.letters]
      dsimp only
      rw [readDigits_append (toDigits_isDigit _) (by simp)]
      dsimp only
      rw [readFraction, read]
      simp only [some, false_and, if_false, readExponent, Option.map_some, length,
        split_digits (Nat.succ_pos places)]
      congr 1

/-- The last decimal number of the search is the count itself. -/
theorem rounded_units {units places : Nat} (unit : one = 2 ^ places) (fits : Fits units)
    : Decimal.rounded { digits := units * 5 ^ places, exponent := -places } = units := by
  have ten : 10 ^ places = 5 ^ places * one := by rw [unit, ← Nat.mul_pow]
  have whole : units * 5 ^ places * 10 ^ (0 : Nat) * one = units * 10 ^ places := by
    rw [ten]
    ring
  have none : (-places : Int).toNat = 0 := by simp
  rw [Decimal.rounded, none, whole, Int.neg_neg, Int.toNat_natCast]
  exact nearest_exact (Nat.pow_pos (by decide)) fits

/-- The decimal number that is found is rounded to its count, after any number of steps. -/
theorem shortest_rounded {units : Nat} (fits : Fits units) (steps : Nat) (exponent : Int)
    : (shortest units steps exponent).rounded = units := by
  induction steps generalizing exponent with
  | zero =>
      have unit : one = 2 ^ depth := rfl
      exact rounded_units unit fits
  | succ steps hypothesis =>
      rw [shortest]
      split
      case h_1 decimal found =>
        have same := List.find?_some found
        exact of_decide_eq_true same
      case h_2 => exact hypothesis _

/-- The letters of a decimal number start with a digit, so that no sign is found in them. -/
theorem readSign_letters (decimal : Decimal)
    : readSign decimal.letters = (false, decimal.letters) := by
  obtain ⟨n, behind, same⟩ : ∃ n behind, decimal.letters = Nat.toDigits 10 n ++ behind := by
    rw [Decimal.letters]
    split
    · exact ⟨_, [], (List.append_nil _).symm⟩
    · exact ⟨_, _, rfl⟩
  obtain ⟨letter, more, digits⟩ :=
    List.exists_cons_of_ne_nil (Nat.toDigits_ne_nil (n := n) (b := 10))
  have digit := toDigits_isDigit n letter (digits ▸ List.mem_cons_self)
  rw [same, digits, List.cons_append, readSign.eq_def]
  split
  case h_1 sign =>
    obtain ⟨rfl, -⟩ := List.cons.inj sign
    cases digit
  case h_2 sign =>
    obtain ⟨rfl, -⟩ := List.cons.inj sign
    cases digit
  case h_3 => rfl

/-- What is printed is read back, whatever number it is. -/
theorem parse_toText (x : Binary64) : parse x.toText = some x := by
  cases x with
  | finite negative magnitude =>
      have rounded : magnitude.decimal.rounded = magnitude.units :=
        shortest_rounded magnitude.fits _ _
      have sign : readSign ((if negative then ['-'] else []) ++ magnitude.decimal.letters)
          = (negative, magnitude.decimal.letters) := by
        cases negative with
        | false => exact readSign_letters _
        | true => rfl
      have read : ofDecimal negative magnitude.decimal.digits magnitude.decimal.exponent
          = finite negative magnitude := round_eq _ rounded
      rw [toText, parse, String.toList_ofList, sign]
      dsimp only
      rw [readNumber_letters, Option.some_or, read]
  | infinite negative => cases negative <;> decide +kernel
  | nan => decide +kernel

end Foundation.Binary64
