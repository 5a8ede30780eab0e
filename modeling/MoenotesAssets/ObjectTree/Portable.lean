import MoenotesAssets.ObjectTree.Recording
import Mathlib.Data.List.TakeWhile

/-! The names of a tree are portable: every part of an object key is a file name on any system,
and an object key is refused only for its length.
-/

namespace MoenotesAssets.ObjectTree
open Foundation Export

-----------------------------------------------------------------------------------------
-- Portable names
-----------------------------------------------------------------------------------------

/-- The letters of portable names. -/
def isNameLetter (letter : Char) : Bool :=
  isAsciiAlphanumeric letter || "-_. ()[]%~".toList.contains letter

/-- What stands before the first dot of a name. -/
def stem (letters : List Char) : List Char := letters.takeWhile (· ≠ '.')

/-- The names of devices on Windows. -/
def deviceNames : List String :=
  ["CON", "PRN", "AUX", "NUL", "COM1", "COM2", "COM3", "COM4", "COM5", "COM6", "COM7", "COM8",
    "COM9", "LPT1", "LPT2", "LPT3", "LPT4", "LPT5", "LPT6", "LPT7", "LPT8", "LPT9"]

/-- A name is a file name on any system. -/
structure IsPortable (name : String) : Prop where
  nonempty : name ≠ ""
  letters : ∀ letter ∈ name.toList, isNameLetter letter = true
  short : name.utf8ByteSize ≤ 255
  proper : name ≠ "." ∧ name ≠ ".."
  ending : ∀ last ∈ name.toList.getLast?, last ≠ '.' ∧ last ≠ ' '
  device : String.ofList ((stem name.toList).map Char.toUpper) ∉ deviceNames

/-- Letters that make a portable name when they are not too many. -/
structure Tidy (letters : List Char) : Prop where
  nonempty : letters ≠ []
  named : ∀ letter ∈ letters, isNameLetter letter = true
  ending : ∀ last ∈ letters.getLast?, last ≠ '.' ∧ last ≠ ' '
  unreserved : isReserved (stem letters) = false

-----------------------------------------------------------------------------------------
-- Stems and devices
-----------------------------------------------------------------------------------------

section Stems

variable {letters front back : List Char} {letter : Char}

/-- A dot in the front ends the stem there. -/
theorem stem_append_dot (dot : '.' ∈ front) : stem (front ++ back) = stem front := by
  rw [stem, stem, List.takeWhile_append, if_neg]
  intro whole
  have all := (List.takeWhile_prefix fun letter => decide (letter ≠ '.')).eq_of_length whole
  exact absurd (List.takeWhile_eq_self_iff.mp all '.' dot) (by decide)

/-- A front without a dot belongs to the stem. -/
theorem stem_append (plain : '.' ∉ front) : stem (front ++ back) = front ++ stem back := by
  rw [stem, stem, List.takeWhile_append_of_pos]
  intro letter member
  rw [decide_eq_true_eq]
  rintro rfl
  exact plain member

/-- The names of devices are letters and digits. -/
theorem isReserved_letters (reserved : isReserved letters = true) (member : letter ∈ letters)
    : isAsciiAlphanumeric letter.toUpper = true := by
  have upper : letter.toUpper ∈ letters.map Char.toUpper := List.mem_map_of_mem member
  rw [isReserved, Bool.or_eq_true] at reserved
  obtain named | numbered := reserved
  · have each : ∀ name ∈ ["CON".toList, "PRN".toList, "AUX".toList, "NUL".toList],
        name.all isAsciiAlphanumeric = true := by
      decide
    exact List.all_eq_true.mp (each _ (List.contains_iff_mem.mp named)) _ upper
  · -- a numbered device: its three letters, and the digit behind them
    simp only [Bool.and_eq_true, Bool.or_eq_true, decide_eq_true_eq, Option.any_eq_true,
      List.isPrefixOf_iff_prefix] at numbered
    obtain ⟨⟨size, front⟩, digit, last, isDigit, -⟩ := numbered
    have behind : ∀ start : List Char, start.length = 3 → start <+: letters.map Char.toUpper
        → letter.toUpper ∈ start ∨ letter.toUpper = digit := by
      rintro start three ⟨rest, shape⟩
      rw [← shape, List.length_append] at size
      obtain ⟨only, rfl⟩ := List.length_eq_one_iff.mp (by omega : rest.length = 1)
      rw [← shape, List.getLast?_concat] at last
      rw [← shape, List.mem_append, List.mem_singleton] at upper
      exact Option.some.inj last ▸ upper
    have plain : isAsciiAlphanumeric digit = true := by
      rw [isAsciiAlphanumeric, Char.isAlphanum, isDigit, Bool.or_true]
    have each : ∀ start ∈ ["COM".toList, "LPT".toList],
        start.length = 3 ∧ start.all isAsciiAlphanumeric = true := by
      decide
    have found : ∃ start ∈ ["COM".toList, "LPT".toList], start <+: letters.map Char.toUpper := by
      obtain com | lpt := front
      · exact ⟨_, List.mem_cons_self, com⟩
      · exact ⟨_, List.mem_cons_of_mem _ List.mem_cons_self, lpt⟩
    obtain ⟨start, given, prefixed⟩ := found
    obtain inside | rest := behind start (each start given).1 prefixed
    · exact List.all_eq_true.mp (each start given).2 _ inside
    · exact rest ▸ plain

/-- A stem with another letter is no device. -/
theorem isReserved_marked (member : letter ∈ letters)
    (other : isAsciiAlphanumeric letter.toUpper = false)
    : isReserved letters = false := by
  rw [← Bool.not_eq_true]
  intro reserved
  rw [isReserved_letters reserved member] at other
  cases other

/-- The names of devices are reserved. -/
theorem isReserved_device (device : String.ofList (letters.map Char.toUpper) ∈ deviceNames)
    : isReserved letters = true := by
  have upper : letters.map Char.toUpper ∈ deviceNames.map String.toList :=
    List.mem_map.mpr ⟨_, device, String.toList_ofList⟩
  rw [isReserved]
  generalize letters.map Char.toUpper = name at upper
  revert name
  decide

end Stems

-----------------------------------------------------------------------------------------
-- The steps of an encoding
-----------------------------------------------------------------------------------------

section Steps

variable {letters rest : List Char} {mark : Char}

/-- Escaped bytes are letters of names. -/
theorem escape_named (byte : UInt8) : ∀ letter ∈ escape byte, isNameLetter letter = true := by
  have each : ∀ value : Fin 256, (escape (UInt8.ofNat value)).all isNameLetter = true := by
    decide +kernel
  have this := each ⟨byte.toNat, byte.toNat_lt⟩
  rwa [UInt8.ofNat_toNat, List.all_eq_true] at this

/-- Digits of digests are letters of names. -/
theorem shortDigest_letters (sha256 : List UInt8 → List UInt8) (text : String)
    : ∀ letter ∈ shortDigest sha256 text, ∃ value < 16, letter = Bytes.hexDigit value := by
  intro letter member
  have digit := List.mem_of_mem_take member
  rw [digest, Bytes.hexEncode, String.toList_ofList, List.mem_flatMap] at digit
  obtain ⟨byte, -, found⟩ := digit
  have bound := byte.toNat_lt
  rcases List.mem_cons.mp found with high | low
  · exact ⟨_, by omega, high⟩
  · exact ⟨_, by omega, List.mem_singleton.mp low⟩

/-- A digit of a digest is a letter of names, and neither a dot nor a blank. -/
theorem hexDigit_named {value : Nat} (small : value < 16)
    : isNameLetter (Bytes.hexDigit value) = true
      ∧ Bytes.hexDigit value ≠ '.'
      ∧ Bytes.hexDigit value ≠ ' ' := by
  have each : ∀ value < 16, isNameLetter (Bytes.hexDigit value) = true
      ∧ Bytes.hexDigit value ≠ '.'
      ∧ Bytes.hexDigit value ≠ ' ' := by
    decide
  exact each value small

/-- Marking a special name keeps the letters. -/
theorem escapeSpecial_named (named : ∀ letter ∈ letters, isNameLetter letter = true)
    : ∀ letter ∈ escapeSpecial letters, isNameLetter letter = true := by
  rw [escapeSpecial]
  split
  case isTrue special =>
    refine List.all_eq_true.mp ?_
    obtain rfl | rfl | rfl := special
    · decide
    · decide
    · decide
  case isFalse => exact named

/-- Escaping the last letter keeps the letters, and the name then ends neither in a dot nor in a
blank.
-/
theorem escapeLast_tidy (named : ∀ letter ∈ letters, isNameLetter letter = true)
    : (∀ letter ∈ escapeLast letters, isNameLetter letter = true)
      ∧ ∀ last ∈ (escapeLast letters).getLast?, last ≠ '.' ∧ last ≠ ' ' := by
  have others : ∀ letter ∈ letters.dropLast, isNameLetter letter = true := fun letter member =>
    named letter (List.dropLast_subset _ member)
  have escaped : ∀ code : List Char, (∀ letter ∈ code, isNameLetter letter = true)
      → (∃ last, code.getLast? = some last ∧ last ≠ '.' ∧ last ≠ ' ')
      → (∀ letter ∈ letters.dropLast ++ code, isNameLetter letter = true)
        ∧ ∀ last ∈ (letters.dropLast ++ code).getLast?, last ≠ '.' ∧ last ≠ ' ' := by
    rintro code coded ⟨digit, ends, plain⟩
    refine ⟨fun letter member => ?_, fun last found => ?_⟩
    · exact (List.mem_append.mp member).elim (others letter) (coded letter)
    · rw [List.getLast?_append, ends, Option.some_or] at found
      exact Option.some.inj found ▸ plain
  rw [escapeLast]
  split
  case h_1 => exact escaped _ (List.all_eq_true.mp (by decide)) ⟨'E', rfl, by decide⟩
  case h_2 => exact escaped _ (List.all_eq_true.mp (by decide)) ⟨'0', rfl, by decide⟩
  case h_3 dot blank =>
    refine ⟨named, fun last found => ⟨?_, ?_⟩⟩
    · rintro rfl
      exact dot found
    · rintro rfl
      exact blank found

/-- Marking a device name makes tidy letters. -/
theorem escapeReserved_tidy (nonempty : letters ≠ [])
    (named : ∀ letter ∈ letters, isNameLetter letter = true)
    (ending : ∀ last ∈ letters.getLast?, last ≠ '.' ∧ last ≠ ' ')
    : Tidy (escapeReserved letters) := by
  rw [escapeReserved]
  split
  case isTrue =>
    refine ⟨List.cons_ne_nil _ _, ?_, ?_, ?_⟩
    · exact List.forall_mem_cons.mpr ⟨by decide, named⟩
    · rw [List.getLast?_cons_of_ne_nil nonempty]
      exact ending
    · have front : stem ('_' :: letters) = '_' :: stem letters := rfl
      rw [front]
      exact isReserved_marked List.mem_cons_self (by decide)
  case isFalse unreserved => exact ⟨nonempty, named, ending, Bool.not_eq_true _ ▸ unreserved⟩

/-- Letters behind a tilde keep a name from being a device. -/
theorem stem_tilde (unreserved : isReserved (stem letters) = false) (front : List Char)
    (start : front <+: letters) (rest : List Char)
    : isReserved (stem (front ++ '~' :: rest)) = false := by
  by_cases dot : '.' ∈ front
  · obtain ⟨back, rfl⟩ := start
    rw [stem_append_dot dot] at unreserved ⊢
    exact unreserved
  · rw [stem_append dot]
    have tilde : '~' ∈ front ++ stem ('~' :: rest) := List.mem_append_right _ List.mem_cons_self
    exact isReserved_marked tilde (by decide)

/-- Shortening keeps letters tidy, and leaves at most 160 of them. -/
theorem shorten_tidy (sha256 : List UInt8 → List UInt8) (value : String) (tidy : Tidy letters)
    : Tidy (shorten sha256 value letters) ∧ (shorten sha256 value letters).length ≤ 160 := by
  rw [shorten]
  split
  case isTrue =>
    have digits := shortDigest_letters sha256 value
    have short : (shortDigest sha256 value).length ≤ 16 := List.length_take_le _ _
    have cut : (letters.take 140).length ≤ 140 := List.length_take_le _ _
    refine ⟨⟨?_, ?_, ?_, ?_⟩, ?_⟩
    · exact List.append_ne_nil_of_right_ne_nil _ (List.cons_ne_nil _ _)
    · intro letter member
      rcases List.mem_append.mp member with kept | added
      · exact tidy.named letter (List.mem_of_mem_take kept)
      · rcases List.mem_cons.mp added with rfl | digit
        · decide
        · obtain ⟨value, small, rfl⟩ := digits letter digit
          exact (hexDigit_named small).1
    · intro last found
      rw [List.getLast?_append, List.getLast?_cons, Option.some_or] at found
      have ends := Option.some.inj found
      cases shape : (shortDigest sha256 value).getLast? with
      | none =>
          rw [shape] at ends
          exact ends ▸ by decide
      | some digit =>
          rw [shape] at ends
          obtain ⟨value, small, named⟩ := digits digit (List.mem_of_getLast? shape)
          exact ends ▸ named ▸ (hexDigit_named small).2
    · exact stem_tilde tidy.unreserved _ (List.take_prefix _ _) _
    · rw [List.length_append, List.length_cons]
      omega
  case isFalse short => exact ⟨tidy, Nat.le_of_not_lt short⟩

/-- A suffix that starts with a dot or a tilde keeps letters tidy. -/
theorem Tidy.append (tidy : Tidy letters) (start : mark = '.' ∨ mark = '~')
    (named : ∀ letter ∈ rest, isNameLetter letter = true)
    (ending : ∃ last, rest.getLast? = some last ∧ last ≠ '.' ∧ last ≠ ' ')
    : Tidy (letters ++ mark :: rest) := by
  obtain ⟨last, ends, plain⟩ := ending
  refine ⟨List.append_ne_nil_of_left_ne_nil tidy.nonempty _, ?_, ?_, ?_⟩
  · intro letter member
    rcases List.mem_append.mp member with front | added
    · exact tidy.named letter front
    · rcases List.mem_cons.mp added with rfl | behind
      · rcases start with rfl | rfl
        · decide
        · decide
      · exact named letter behind
  · intro other found
    rw [List.getLast?_append, List.getLast?_cons, ends, Option.some_or] at found
    exact Option.some.inj found ▸ plain
  · rcases start with rfl | rfl
    · by_cases dot : '.' ∈ letters
      · rw [stem_append_dot dot]
        exact tidy.unreserved
      · have whole : stem letters = letters := by
          have self := @stem_append letters [] dot
          rwa [List.append_nil, show stem [] = [] from rfl, List.append_nil] at self
        have none : stem ('.' :: rest) = [] := rfl
        rw [stem_append dot, none, List.append_nil, ← whole]
        exact tidy.unreserved
    · exact stem_tilde tidy.unreserved _ (List.prefix_refl _) _

/-- Tidy letters that are not too many make a portable name. -/
theorem Tidy.portable {name : String} (tidy : Tidy name.toList) (short : name.utf8ByteSize ≤ 255)
    : IsPortable name := by
  refine ⟨?_, tidy.named, short, ⟨?_, ?_⟩, tidy.ending, fun device => ?_⟩
  · rintro rfl
    exact tidy.nonempty rfl
  · rintro rfl
    exact (tidy.ending '.' rfl).1 rfl
  · rintro rfl
    exact (tidy.ending '.' rfl).1 rfl
  · have unreserved := tidy.unreserved
    rw [isReserved_device device] at unreserved
    cases unreserved

end Steps

-----------------------------------------------------------------------------------------
-- Encoded parts and file names
-----------------------------------------------------------------------------------------

section Names

variable (sha256 : List UInt8 → List UInt8) {name : String}

/-- An encoded part is tidy, and has at most 160 letters. -/
theorem component_tidy (value : String)
    : Tidy (component sha256 value).toList ∧ (component sha256 value).toList.length ≤ 160 := by
  have escaped : ∀ letter ∈ (Bytes.textBytes value).flatMap escape,
      isNameLetter letter = true := by
    intro letter member
    obtain ⟨byte, -, found⟩ := List.mem_flatMap.mp member
    exact escape_named byte letter found
  obtain ⟨named, ending⟩ := escapeLast_tidy (escapeSpecial_named escaped)
  have nonempty := escapeLast_ne_nil
    (escapeSpecial_ne_nil ((Bytes.textBytes value).flatMap escape))
  rw [component, String.toList_ofList]
  exact shorten_tidy sha256 value (escapeReserved_tidy nonempty named ending)

/-- A letter of names is one byte. -/
theorem isNameLetter_size {letter : Char} (named : isNameLetter letter = true)
    : letter.utf8Size = 1 := by
  rw [Char.utf8Size_eq_one_iff]
  rw [isNameLetter, Bool.or_eq_true] at named
  obtain plain | other := named
  · have alphabetic : letter.isAlpha
        = (decide (letter.val ≥ 'A'.val ∧ letter.val ≤ 'Z'.val)
          || (letter.val ≥ 'a'.val && letter.val ≤ 'z'.val)) := rfl
    simp only [isAsciiAlphanumeric, Char.isAlphanum, alphabetic, Char.isDigit, Bool.or_eq_true,
      Bool.and_eq_true, decide_eq_true_eq, UInt32.le_iff_toNat_le, UInt32.reduceToNat, ge_iff_le,
      Char.reduceVal] at plain ⊢
    omega
  · have each : "-_. ()[]%~".toList.all (fun letter => letter.val ≤ 127) = true := by decide
    exact of_decide_eq_true (List.all_eq_true.mp each _ (List.contains_iff_mem.mp other))

/-- A name has as many bytes as letters, by induction on the letters. -/
theorem utf8ByteSize_named (named : ∀ letter ∈ name.toList, isNameLetter letter = true)
    : name.utf8ByteSize = name.toList.length := by
  have each : ∀ letters : List Char, (∀ letter ∈ letters, isNameLetter letter = true)
      → (String.ofList letters).utf8ByteSize = letters.length := by
    intro letters
    induction letters with
    | nil => exact fun _ => rfl
    | cons letter rest ih =>
        intro named
        obtain ⟨first, others⟩ := List.forall_mem_cons.mp named
        rw [String.ofList_cons, String.utf8ByteSize_append, String.utf8ByteSize_singleton,
          isNameLetter_size first, ih others, List.length_cons, Nat.add_comm]
  have whole := each name.toList named
  rwa [String.ofList_toList] at whole

/-- Letters and digits are letters of names, and neither dots nor blanks. -/
theorem alphanumeric_named {letter : Char} (plain : isAsciiAlphanumeric letter = true)
    : isNameLetter letter = true ∧ letter ≠ '.' ∧ letter ≠ ' ' := by
  refine ⟨by rw [isNameLetter, plain, Bool.true_or], ?_, ?_⟩
  · rintro rfl
    exact absurd plain (by decide)
  · rintro rfl
    exact absurd plain (by decide)

/-- The extension of an artifact. -/
structure IsExtension (ext : String) : Prop where
  nonempty : ext ≠ ""
  letters : ext.toList.all isAsciiAlphanumeric = true
  short : ext.utf8ByteSize ≤ 12

variable {base ext role stable label : String}

/-- The letters of an extension. -/
theorem IsExtension.named (extension : IsExtension ext)
    : ∀ letter ∈ ext.toList, isNameLetter letter = true := fun letter member =>
  (alphanumeric_named (List.all_eq_true.mp extension.letters letter member)).1

/-- An extension ends neither in a dot nor in a blank, whatever stands before it. -/
theorem IsExtension.ending (extension : IsExtension ext) (front : List Char)
    : ∃ last, (front ++ ext.toList).getLast? = some last ∧ last ≠ '.' ∧ last ≠ ' ' := by
  have nonempty : ext.toList ≠ [] := fun empty =>
    extension.nonempty (String.toList_eq_nil_iff.mp empty)
  have last := List.getLast?_eq_some_getLast nonempty
  refine ⟨_, by rw [List.getLast?_append, last, Option.some_or], ?_⟩
  exact (alphanumeric_named (List.all_eq_true.mp extension.letters _
    (List.getLast_mem nonempty))).2

/-- The name of the file of an artifact is portable. -/
theorem objectName_portable (tidy : Tidy base.toList) (few : base.toList.length ≤ 160)
    (extension : IsExtension ext)
    : IsPortable (objectName sha256 base ext role stable label) := by
  have short : ext.toList.length ≤ 12 := by
    rw [← utf8ByteSize_named extension.named]
    exact extension.short
  have built : Tidy (objectName sha256 base ext role stable label).toList
      ∧ (objectName sha256 base ext role stable label).toList.length ≤ 255 := by
    rw [objectName]
    split
    case isTrue =>
      rw [String.toList_append]
      refine ⟨tidy.append (Or.inl rfl) (List.all_eq_true.mp (by decide))
        ⟨'v', rfl, by decide⟩, ?_⟩
      rw [List.length_append]
      exact Nat.le_trans (Nat.add_le_add_right few _) (by decide)
    split
    case isTrue =>
      rw [String.toList_append, String.toList_append, List.append_assoc]
      refine ⟨tidy.append (Or.inl rfl) extension.named (extension.ending []), ?_⟩
      simp only [List.length_append, String.reduceToList, List.length_singleton]
      omega
    case isFalse =>
      obtain ⟨labelled, many⟩ := component_tidy sha256 label
      have digits : (shortDigest sha256 stable).length ≤ 16 := List.length_take_le _ _
      have tilde : "~".toList = ['~'] := rfl
      have dot : ".".toList = ['.'] := rfl
      simp only [String.toList_append, String.toList_ofList, List.append_assoc, tilde, dot,
        List.singleton_append]
      refine ⟨@Tidy.append _ (shortDigest sha256 stable ++ '.' :: ext.toList) '~' labelled
        (Or.inr rfl) ?_ ?_, ?_⟩
      · intro letter member
        rcases List.mem_append.mp member with digit | dotted
        · obtain ⟨value, small, rfl⟩ := shortDigest_letters sha256 stable letter digit
          exact (hexDigit_named small).1
        · rcases List.mem_cons.mp dotted with rfl | behind
          · decide
          · exact extension.named letter behind
      · have joined : shortDigest sha256 stable ++ '.' :: ext.toList
            = (shortDigest sha256 stable ++ ['.']) ++ ext.toList := List.append_cons _ _ _
        exact joined ▸ extension.ending _
      · simp only [List.length_append, List.length_cons]
        omega
  exact built.1.portable (by rw [utf8ByteSize_named built.1.named]; exact built.2)

/-- A name without a slash that is no dot name is its own file name. -/
theorem fileName_part (part : IsPart name) (nonempty : name ≠ "")
    (proper : name ≠ "." ∧ name ≠ "..")
    : fileName name = some name := by
  have alone : splitPath name = [name] := by
    have joined := @splitPath_joinPath [name] (List.forall_mem_singleton.mpr part)
      (List.cons_ne_nil _ _)
    rwa [joinPath_singleton] at joined
  have kept : ([name].filter fun part => part ≠ "" && part ≠ ".") = [name] := by
    refine List.filter_eq_self.mpr (List.forall_mem_singleton.mpr ?_)
    rw [Bool.and_eq_true, decide_eq_true_eq, decide_eq_true_eq]
    exact ⟨nonempty, proper.1⟩
  rw [fileName, alone, kept]
  exact if_neg proper.2

/-- An output name has the extension that it is given. -/
theorem extension_outputName (index : Nat) (given : IsExtension ext)
    : extension (outputName index ext) = some ext := by
  obtain ⟨digit, rest, start, isDigit⟩ := outputName_head index ext
  have digits := outputIndex_digits index
  have letters : ∀ letter ∈ ext.toList, isAsciiAlphanumeric letter = true :=
    List.all_eq_true.mp given.letters
  have shape : (outputName index ext).toList
      = (Nat.toDigits 10 index).leftpad 5 '0' ++ '.' :: ext.toList := by
    simp only [outputName, String.toList_append, String.toList_ofList, List.append_assoc]
    rfl
  have part : IsPart (outputName index ext) := by
    rw [IsPart, shape, List.mem_append, List.mem_cons]
    rintro (padding | dot | behind)
    · exact absurd (digits _ padding) (by decide)
    · exact absurd dot (by decide)
    · exact absurd (letters _ behind) (by decide)
  have other : ∀ name : String, (name.toList.any Char.isDigit) = false
      → outputName index ext ≠ name := by
    rintro name none rfl
    rw [start, List.any_cons, isDigit, Bool.true_or] at none
    cases none
  have split : (outputName index ext).toList.splitOn '.'
      = [(Nat.toDigits 10 index).leftpad 5 '0', ext.toList] := by
    have joined : (outputName index ext).toList
        = ['.'].intercalate [(Nat.toDigits 10 index).leftpad 5 '0', ext.toList] := by
      rw [shape, List.intercalate_cons_cons, List.intercalate_singleton, List.append_assoc]
      rfl
    rw [joined, List.splitOn_intercalate]
    case hx =>
      intro piece member
      rcases List.mem_cons.mp member with rfl | last
      · exact fun dot => absurd (digits _ dot) (by decide)
      · rw [List.mem_singleton.mp last]
        exact fun dot => absurd (letters _ dot) (by decide)
    case hls => exact List.cons_ne_nil _ _
  have proper := other "." (by decide)
  have proper' := other ".." (by decide)
  rw [extension, fileName_part part (other _ (by decide)) ⟨proper, proper'⟩]
  dsimp only
  rw [split]
  have both : ¬((Nat.toDigits 10 index).leftpad 5 '0' = [] ∧ ([] : List (List Char)) = []) :=
    fun empty => outputIndex_ne_nil index empty.1
  exact (if_neg both).trans (congrArg some String.ofList_toList)

/-- A path of portable names is refused only for its length. -/
theorem isSafePath_portable {relative : String}
    (portable : ∀ part ∈ splitPath relative, IsPortable part)
    : isSafePath relative = false ↔ 1024 < relative.utf8ByteSize := by
  have letters : ∀ letter ∈ relative.toList, letter = '/' ∨ isNameLetter letter = true := by
    intro letter member
    rw [← joinPath_splitPath relative, joinPath, String.toList_ofList] at member
    rcases Bytes.mem_joined member with slash | ⟨part, among, found⟩
    · exact Or.inl slash
    · obtain ⟨name, given, rfl⟩ := List.mem_map.mp among
      exact Or.inr ((portable name given).letters letter found)
  have plain : relative.toList.all (fun letter =>
      letter ≠ '\\' && letter ≠ ':' && letter ≠ '\x00') = true := by
    rw [List.all_eq_true]
    intro letter member
    simp only [Bool.and_eq_true, decide_eq_true_eq]
    rcases letters letter member with rfl | named
    · decide
    · refine ⟨⟨?_, ?_⟩, ?_⟩
      · rintro rfl
        exact absurd named (by decide)
      · rintro rfl
        exact absurd named (by decide)
      · rintro rfl
        exact absurd named (by decide)
  have proper : (splitPath relative).all (fun part =>
      part ≠ "" && part ≠ "." && part ≠ "..") = true := by
    rw [List.all_eq_true]
    intro part member
    simp only [Bool.and_eq_true, decide_eq_true_eq]
    exact ⟨⟨(portable part member).nonempty, (portable part member).proper.1⟩,
      (portable part member).proper.2⟩
  rw [isSafePath, plain, proper, Bool.and_true, Bool.and_true, decide_eq_false_iff_not, Nat.not_le]

/-- Every part of an object key is portable, for every asset key, label, stable id and role, and
an object key is refused only for its length.
-/
theorem objectKey_portable (m : Manifest) (f : PublishedFile) (index : Nat)
    (named : f.artifact.name = outputName index ext) (given : IsExtension ext)
    : ∃ object,
        describe sha256 m f = .ok object
        ∧ (∀ part ∈ splitPath object.objectKey, IsPortable part)
        ∧ (isSafePath object.objectKey = false ↔ 1024 < object.objectKey.utf8ByteSize) := by
  have extended : extension f.artifact.name = some ext := named ▸ extension_outputName index given
  have nonempty := @encodedParts_ne_nil sha256 m.key
  have found := List.getLast?_eq_some_getLast nonempty
  obtain ⟨object, described⟩ : ∃ object, describe sha256 m f = .ok object := by
    refine ⟨_, bind_ok.mpr ⟨_, context_ok.mpr extended, bind_ok.mpr ⟨(), ensure_ok.mpr ?_,
      bind_ok.mpr ⟨_, context_ok.mpr found, rfl⟩⟩⟩⟩
    rw [given.letters, decide_eq_true given.short, Bool.and_self]
  have shape := described
  simp only [describe, bind_ok, context_ok, ensure_ok, pure_ok, exists_const,
    Bool.and_eq_true, extended, Option.some.injEq, exists_eq_left'] at shape
  obtain ⟨-, last, ends, rfl⟩ := shape
  have tidy : ∀ part ∈ encodedParts sha256 m.key, Tidy part.toList ∧ part.toList.length ≤ 160 := by
    intro part member
    obtain ⟨value, -, rfl⟩ := List.mem_map.mp member
    exact component_tidy sha256 value
  have parts : ∀ part ∈ encodedParts sha256 m.key, IsPortable part := by
    intro part member
    obtain ⟨neat, few⟩ := tidy part member
    refine neat.portable ?_
    rw [utf8ByteSize_named neat.named]
    omega
  have among := List.mem_of_getLast? ends
  obtain ⟨neat, few⟩ := tidy last among
  have name := @objectName_portable sha256 last ext (f.artifact.role.getD "asset")
    (f.artifact.stableId.getD f.id) f.artifact.label neat few given
  have whole := List.forall_mem_append.mpr ⟨parts, List.forall_mem_singleton.mpr name⟩
  rw [← splitPath_object ends given.letters] at whole
  exact ⟨_, described, whole, isSafePath_portable whole⟩

end Names

/-- A file with a device name for a label. -/
def deviceFile : PublishedFile where
  artifact :=
    {
      name := "00000.png"
      label := "nul.tar"
      mediaType := "image/png"
      bytes := 1
      sha256 := ""
      stableId := some "object-1"
      role := none
    }
  id := "1a"

/-- An export of an asset key with device names, dot names and blanks. -/
def deviceManifest : Manifest where
  id := "1a"
  snapshot := "s1"
  key := "aux/../Jacket. "
  profile := workerProfile
  files := [deviceFile]
  empty := false

/-- The object of a file with a device name for a label. -/
theorem objectKey_portable_device
    : ∃ object,
        describe id deviceManifest deviceFile = .ok object
        ∧ (∀ part ∈ splitPath object.objectKey, IsPortable part)
        ∧ (isSafePath object.objectKey = false ↔ 1024 < object.objectKey.utf8ByteSize) :=
  @objectKey_portable id "png" deviceManifest deviceFile 0 (by decide +kernel)
    ⟨by decide, by decide, by decide⟩

end MoenotesAssets.ObjectTree
