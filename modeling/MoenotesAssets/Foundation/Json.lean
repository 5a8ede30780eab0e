import MoenotesAssets.Foundation.Bytes
import Mathlib.Data.List.TakeWhile

/-! JSON values, their compact text as `serde_json` writes it, and that the text determines the
value.
-/

namespace Foundation

open Bytes

-----------------------------------------------------------------------------------------
-- Values and their text
-----------------------------------------------------------------------------------------

/-- A JSON value with unsigned numbers. -/
inductive Json where
  | null
  | bool (value : Bool)
  | number (value : Nat)
  | string (value : String)
  | array (items : List Json)
  | object (fields : List (String × Json))

namespace Json

/-- The letters that are escaped by one letter. -/
def shortEscapes : List (Char × Char) :=
  [('"', '"'), ('\\', '\\'), ('\x08', 'b'), ('\x0c', 'f'), ('\n', 'n'), ('\r', 'r'), ('\t', 't')]

/-- The letter that stands for another one behind a backslash. -/
def short (letter : Char) : Option Char :=
  (shortEscapes.find? fun entry => entry.1 == letter).map Prod.snd

/-- A letter within a string. -/
def escape (letter : Char) : List Char :=
  match short letter with
  | some code => ['\\', code]
  | none =>
      if letter.toNat < 0x20 then
        ['\\', 'u', '0', '0', hexDigit (letter.toNat / 16), hexDigit (letter.toNat % 16)]
      else [letter]

/-- The letters of a string behind its opening quote. -/
def quoted : List Char → List Char
  | [] => ['"']
  | letter :: rest => escape letter ++ quoted rest

mutual

/-- The compact text of a value. -/
def compact : Json → List Char
  | null => ['n', 'u', 'l', 'l']
  | bool true => ['t', 'r', 'u', 'e']
  | bool false => ['f', 'a', 'l', 's', 'e']
  | number value => Nat.toDigits 10 value
  | string value => '"' :: quoted value.toList
  | array items => '[' :: compactItems items
  | object fields => '{' :: compactFields fields

/-- The items of an array behind its opening bracket. -/
def compactItems : List Json → List Char
  | [] => [']']
  | item :: rest => compact item ++ compactMore rest

/-- The items of an array behind another one. -/
def compactMore : List Json → List Char
  | [] => [']']
  | item :: rest => ',' :: compact item ++ compactMore rest

/-- The fields of an object behind its opening brace. -/
def compactFields : List (String × Json) → List Char
  | [] => ['}']
  | (name, value) :: rest =>
      '"' :: quoted name.toList ++ ':' :: compact value ++ compactFieldsMore rest

/-- The fields of an object behind another one. -/
def compactFieldsMore : List (String × Json) → List Char
  | [] => ['}']
  | (name, value) :: rest =>
      ',' :: '"' :: quoted name.toList ++ ':' :: compact value ++ compactFieldsMore rest

end

/-- `serde_json::to_vec` -/
def toVec (value : Json) : List UInt8 := textBytes (String.ofList (compact value))

-----------------------------------------------------------------------------------------
-- Strings
-----------------------------------------------------------------------------------------

/-- A short escape is one of the table. -/
theorem short_mem {letter code : Char} (found : short letter = some code)
    : (letter, code) ∈ shortEscapes := by
  obtain ⟨⟨source, target⟩, held, rfl⟩ := Option.map_eq_some_iff.mp found
  obtain rfl : source = letter := by simpa using List.find?_some held
  exact List.mem_of_find?_eq_some held

/-- A short escape determines its letter. -/
theorem short_injective {letter other code : Char} (found : short letter = some code)
    (found' : short other = some code)
    : letter = other := by
  have each : ∀ first ∈ shortEscapes, ∀ second ∈ shortEscapes,
      first.2 = second.2 → first.1 = second.1 := by
    decide
  exact each _ (short_mem found) _ (short_mem found') rfl

/-- No short escape is the one of other control letters. -/
theorem short_ne_u {letter : Char} : short letter ≠ some 'u' := by
  intro found
  have each : ∀ entry ∈ shortEscapes, entry.2 ≠ 'u' := by decide
  exact each _ (short_mem found) rfl

/-- A letter that is written as it is does not look like an escape or a quote. -/
theorem plain_ne {letter : Char} (plain : short letter = none) : letter ≠ '\\' ∧ letter ≠ '"' := by
  constructor
  · rintro rfl
    cases plain
  · rintro rfl
    cases plain

/-- The three shapes of an escape. -/
inductive Escapes (letter : Char) : List Char → Prop where
  | short {code} (found : short letter = some code) : Escapes letter ['\\', code]
  | control (plain : Json.short letter = none) (low : letter.toNat < 0x20)
    : Escapes letter
        ['\\', 'u', '0', '0', hexDigit (letter.toNat / 16), hexDigit (letter.toNat % 16)]
  | plain (plain : Json.short letter = none) : Escapes letter [letter]

/-- An escape has one of the shapes. -/
theorem escape_escapes (letter : Char) : Escapes letter (escape letter) := by
  rw [escape]
  split
  case h_1 code found => exact .short found
  case h_2 plain =>
    split
    case isTrue low => exact .control plain low
    case isFalse => exact .plain plain

/-- The text of a letter determines it and what follows. -/
theorem escape_readable {letter other : Char} {r s : List Char}
    (same : escape letter ++ r = escape other ++ s)
    : letter = other ∧ r = s := by
  have first := escape_escapes letter
  have second := escape_escapes other
  generalize escape letter = text at first same
  generalize escape other = text' at second same
  revert same
  cases first with
  | short found =>
      cases second with
      | short found' =>
          intro same
          obtain ⟨rfl, rfl⟩ : _ = _ ∧ r = s := by simpa using same
          exact ⟨short_injective found found', rfl⟩
      | control plain low =>
          intro same
          obtain ⟨rfl, -⟩ : _ = _ ∧ _ := by simpa using same
          exact absurd found short_ne_u
      | plain plain =>
          intro same
          exact absurd (List.cons.inj same).1.symm (plain_ne plain).1
  | control plain low =>
      cases second with
      | short found =>
          intro same
          obtain ⟨rfl, -⟩ : 'u' = _ ∧ _ := by simpa using same
          exact absurd found short_ne_u
      | control plain' low' =>
          intro same
          obtain ⟨high, digit, rfl⟩ : _ ∧ _ ∧ r = s := by simpa using same
          have upper := hexDigit_injective (by omega) (by omega) high
          have lower := hexDigit_injective (by omega) (by omega) digit
          exact ⟨Char.toNat_inj.mp (by omega), rfl⟩
      | plain plain' =>
          intro same
          exact absurd (List.cons.inj same).1.symm (plain_ne plain').1
  | plain plain =>
      cases second with
      | short found =>
          intro same
          exact absurd (List.cons.inj same).1 (plain_ne plain).1
      | control plain' low =>
          intro same
          exact absurd (List.cons.inj same).1 (plain_ne plain).1
      | plain => exact fun same => List.cons.inj same

/-- No escape starts with a quote. -/
theorem escape_ne_quote {letter : Char} {r s : List Char} : escape letter ++ r ≠ '"' :: s := by
  have shape := escape_escapes letter
  generalize escape letter = text at shape
  cases shape with
  | short => exact fun same => absurd (List.cons.inj same).1 (by decide)
  | control => exact fun same => absurd (List.cons.inj same).1 (by decide)
  | plain plain => exact fun same => (plain_ne plain).2 (List.cons.inj same).1

/-- The text of a string determines it and what follows, by induction on its letters. -/
theorem quoted_readable {letters others : List Char} {r s : List Char}
    (same : quoted letters ++ r = quoted others ++ s)
    : letters = others ∧ r = s := by
  induction letters generalizing others with
  | nil =>
      cases others with
      | nil => exact ⟨rfl, (List.cons.inj same).2⟩
      | cons letter rest =>
          rw [quoted, quoted, List.append_assoc] at same
          exact absurd same.symm escape_ne_quote
  | cons letter rest ih =>
      cases others with
      | nil =>
          rw [quoted, quoted, List.append_assoc] at same
          exact absurd same escape_ne_quote
      | cons other rest' =>
          rw [quoted, quoted, List.append_assoc, List.append_assoc] at same
          obtain ⟨rfl, later⟩ := escape_readable same
          obtain ⟨rfl, rfl⟩ := ih later
          exact ⟨rfl, rfl⟩

-----------------------------------------------------------------------------------------
-- Numbers
-----------------------------------------------------------------------------------------

/-- What follows a number does not continue it. -/
def Quiet (text : List Char) : Prop := ∀ letter ∈ text.head?, letter.isDigit = false

/-- The digits of a number are the digits at the start of its text. -/
theorem takeWhile_digits (number : Nat) {r : List Char} (quiet : Quiet r)
    : (Nat.toDigits 10 number ++ r).takeWhile Char.isDigit = Nat.toDigits 10 number := by
  have all : ∀ letter ∈ Nat.toDigits 10 number, letter.isDigit = true :=
    fun letter member => Nat.isDigit_of_mem_toDigits (by decide) (by decide) member
  rw [List.takeWhile_append_of_pos all]
  cases r with
  | nil => rw [List.takeWhile_nil, List.append_nil]
  | cons letter rest =>
      have stops : ¬letter.isDigit = true := by simp [quiet letter rfl]
      rw [List.takeWhile_cons_of_neg stops, List.append_nil]

/-- The text of a number determines it and what follows. -/
theorem digits_readable {number other : Nat} {r s : List Char} (quiet : Quiet r)
    (quiet' : Quiet s) (same : Nat.toDigits 10 number ++ r = Nat.toDigits 10 other ++ s)
    : number = other ∧ r = s := by
  have digits := congrArg (List.takeWhile Char.isDigit) same
  rw [takeWhile_digits number quiet, takeWhile_digits other quiet'] at digits
  rw [digits] at same
  exact ⟨digits_injective digits, List.append_cancel_left same⟩

-----------------------------------------------------------------------------------------
-- Values
-----------------------------------------------------------------------------------------

/-- The letter at the start of a value, one for all digits. -/
def opening : Json → Char
  | null => 'n'
  | bool value => if value then 't' else 'f'
  | number _ => '0'
  | string _ => '"'
  | array _ => '['
  | object _ => '{'

/-- A letter, one for all digits. -/
def lead (letter : Char) : Char := if letter.isDigit then '0' else letter

/-- The text of a value starts with its opening letter. -/
theorem compact_lead (value : Json)
    : ∃ letter rest, compact value = letter :: rest ∧ lead letter = opening value := by
  cases value with
  | null => exact ⟨_, _, rfl, rfl⟩
  | bool flag => cases flag <;> exact ⟨_, _, rfl, rfl⟩
  | number count =>
      obtain ⟨letter, rest, digits⟩ :=
        List.exists_cons_of_ne_nil (Nat.toDigits_ne_nil (n := count) (b := 10))
      have digit : letter.isDigit = true :=
        Nat.isDigit_of_mem_toDigits (by decide) (by decide)
          (digits ▸ List.mem_cons_self : letter ∈ Nat.toDigits 10 count)
      exact ⟨letter, rest, digits, if_pos digit⟩
  | string => exact ⟨_, _, rfl, rfl⟩
  | array => exact ⟨_, _, rfl, rfl⟩
  | object => exact ⟨_, _, rfl, rfl⟩

/-- Values with the same text start alike. -/
theorem opening_eq {left right : Json} {r s : List Char}
    (same : compact left ++ r = compact right ++ s)
    : opening left = opening right := by
  obtain ⟨letter, rest, text, starts⟩ := compact_lead left
  obtain ⟨letter', rest', text', starts'⟩ := compact_lead right
  rw [text, text'] at same
  rw [← starts, ← starts', (List.cons.inj same).1]

/-- Values of one kind, as their opening letters tell. -/
inductive Alike : Json → Json → Prop where
  | null : Alike null null
  | bool (value : Bool) : Alike (bool value) (bool value)
  | number (left right : Nat) : Alike (number left) (number right)
  | string (left right : String) : Alike (string left) (string right)
  | array (left right : List Json) : Alike (array left) (array right)
  | object (left right : List (String × Json)) : Alike (object left) (object right)

/-- Opening letters tell the kind of a value. -/
theorem alike_of_opening {left right : Json} (same : opening left = opening right)
    : Alike left right := by
  cases left <;> cases right <;> grind [opening, Alike]

/-- No value starts like the end of an array. -/
theorem compact_ne_close {value : Json} {r s : List Char} : compact value ++ r ≠ ']' :: s := by
  obtain ⟨letter, rest, text, starts⟩ := compact_lead value
  intro same
  rw [text] at same
  rw [(List.cons.inj same).1] at starts
  cases value <;> grind [opening, lead]

/-- What follows an item of an array is no digit. -/
theorem quiet_more (items : List Json) (r : List Char) : Quiet (compactMore items ++ r) := by
  cases items <;> simp [Quiet, compactMore]

/-- What follows a field of an object is no digit. -/
theorem quiet_fields (fields : List (String × Json)) (r : List Char)
    : Quiet (compactFieldsMore fields ++ r) := by
  cases fields <;> simp [Quiet, compactFieldsMore]

/-- The name of a field is determined by its text. -/
theorem name_readable {name other : String} {r s : List Char}
    (same : quoted name.toList ++ ':' :: r = quoted other.toList ++ ':' :: s)
    : name = other ∧ r = s := by
  obtain ⟨letters, rest⟩ := quoted_readable same
  exact ⟨String.toList_inj.mp letters, (List.cons.inj rest).2⟩

mutual

/-- The text of a value determines it and what follows, by recursion on the value. -/
theorem compact_readable : ∀ (left right : Json) {r s : List Char}, Quiet r → Quiet s
    → compact left ++ r = compact right ++ s → left = right ∧ r = s
  | null, right, r, s, _, _, same => by
      cases alike_of_opening (opening_eq same) with
      | null => exact ⟨rfl, List.append_cancel_left same⟩
  | bool value, right, r, s, _, _, same => by
      cases alike_of_opening (opening_eq same) with
      | bool => exact ⟨rfl, List.append_cancel_left same⟩
  | number value, right, r, s, quiet, quiet', same => by
      cases alike_of_opening (opening_eq same) with
      | number _ other =>
          obtain ⟨rfl, rest⟩ := digits_readable quiet quiet' same
          exact ⟨rfl, rest⟩
  | string value, right, r, s, _, _, same => by
      cases alike_of_opening (opening_eq same) with
      | string _ other =>
          obtain ⟨letters, rest⟩ := quoted_readable (List.cons.inj same).2
          exact ⟨congrArg string (String.toList_inj.mp letters), rest⟩
  | array items, right, r, s, _, _, same => by
      cases alike_of_opening (opening_eq same) with
      | array _ others =>
          obtain ⟨rfl, rest⟩ := compactItems_readable items others (List.cons.inj same).2
          exact ⟨rfl, rest⟩
  | object fields, right, r, s, _, _, same => by
      cases alike_of_opening (opening_eq same) with
      | object _ others =>
          obtain ⟨rfl, rest⟩ := compactFields_readable fields others (List.cons.inj same).2
          exact ⟨rfl, rest⟩

/-- The text of the items of an array determines them. -/
theorem compactItems_readable : ∀ (items others : List Json) {r s : List Char},
    compactItems items ++ r = compactItems others ++ s → items = others ∧ r = s
  | [], [], _, _, same => ⟨rfl, (List.cons.inj same).2⟩
  | [], item :: rest, _, _, same => by
      rw [compactItems, compactItems, List.append_assoc] at same
      exact absurd same.symm compact_ne_close
  | item :: rest, [], _, _, same => by
      rw [compactItems, compactItems, List.append_assoc] at same
      exact absurd same compact_ne_close
  | item :: rest, other :: others, _, _, same => by
      rw [compactItems, compactItems, List.append_assoc, List.append_assoc] at same
      obtain ⟨rfl, more⟩ := compact_readable item other (quiet_more _ _) (quiet_more _ _) same
      obtain ⟨rfl, later⟩ := compactMore_readable rest others more
      exact ⟨rfl, later⟩

/-- The text of the further items of an array determines them. -/
theorem compactMore_readable : ∀ (items others : List Json) {r s : List Char},
    compactMore items ++ r = compactMore others ++ s → items = others ∧ r = s
  | [], [], _, _, same => ⟨rfl, (List.cons.inj same).2⟩
  | [], _ :: _, _, _, same => by cases same
  | _ :: _, [], _, _, same => by cases same
  | item :: rest, other :: others, _, _, same => by
      rw [compactMore, compactMore, List.cons_append, List.cons_append, List.append_assoc,
        List.append_assoc] at same
      obtain ⟨rfl, more⟩ :=
        compact_readable item other (quiet_more _ _) (quiet_more _ _) (List.cons.inj same).2
      obtain ⟨rfl, later⟩ := compactMore_readable rest others more
      exact ⟨rfl, later⟩

/-- The text of the fields of an object determines them. -/
theorem compactFields_readable : ∀ (fields others : List (String × Json)) {r s : List Char},
    compactFields fields ++ r = compactFields others ++ s → fields = others ∧ r = s
  | [], [], _, _, same => ⟨rfl, (List.cons.inj same).2⟩
  | [], (_, _) :: _, _, _, same => by cases same
  | (_, _) :: _, [], _, _, same => by cases same
  | (name, value) :: rest, (other, value') :: others, _, _, same => by
      simp only [compactFields, List.cons_append, List.append_assoc, List.cons.injEq,
        true_and] at same
      obtain ⟨rfl, behind⟩ := name_readable same
      obtain ⟨rfl, more⟩ :=
        compact_readable value value' (quiet_fields _ _) (quiet_fields _ _) behind
      obtain ⟨rfl, later⟩ := compactFieldsMore_readable rest others more
      exact ⟨rfl, later⟩

/-- The text of the further fields of an object determines them. -/
theorem compactFieldsMore_readable : ∀ (fields others : List (String × Json)) {r s : List Char},
    compactFieldsMore fields ++ r = compactFieldsMore others ++ s → fields = others ∧ r = s
  | [], [], _, _, same => ⟨rfl, (List.cons.inj same).2⟩
  | [], (_, _) :: _, _, _, same => by cases same
  | (_, _) :: _, [], _, _, same => by cases same
  | (name, value) :: rest, (other, value') :: others, _, _, same => by
      simp only [compactFieldsMore, List.cons_append, List.append_assoc, List.cons.injEq,
        true_and] at same
      obtain ⟨rfl, behind⟩ := name_readable same
      obtain ⟨rfl, more⟩ :=
        compact_readable value value' (quiet_fields _ _) (quiet_fields _ _) behind
      obtain ⟨rfl, later⟩ := compactFieldsMore_readable rest others more
      exact ⟨rfl, later⟩

end

/-- The text of a value determines it. -/
theorem compact_injective : Function.Injective compact := by
  intro left right same
  have quiet : Quiet [] := fun letter member => nomatch member
  exact (compact_readable left right quiet quiet (congrArg (· ++ []) same)).1

/-- The bytes of a value determine it. -/
theorem toVec_injective : Function.Injective toVec := fun _ _ same =>
  compact_injective (String.ofList_injective (textBytes_injective same))

end Json

end Foundation
