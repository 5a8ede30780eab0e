import MoenotesAssets.Foundation.Bytes

/-! Names of `tree.rs`: paths and their parts, the encoding of one part of an asset key,
and the names that are refused.
-/

namespace MoenotesAssets.ObjectTree
open Foundation

-----------------------------------------------------------------------------------------
-- Paths and their parts
-----------------------------------------------------------------------------------------

/-- `split('/')` -/
def splitPath (text : String) : List String :=
  (text.toList.splitOn '/').map String.ofList

/-- `join("/")` -/
def joinPath (parts : List String) : String :=
  String.ofList (['/'].intercalate (parts.map String.toList))

/-- A text without a slash, as the parts of a path are. -/
def IsPart (text : String) : Prop := '/' ∉ text.toList

/-- `to_ascii_lowercase` -/
def toAsciiLowercase (text : String) : String :=
  String.ofList (text.toList.map Char.toLower)

/-- Splitting leaves at least one part. -/
theorem splitPath_ne_nil (text : String) : splitPath text ≠ [] := by
  rw [splitPath, ne_eq, List.map_eq_nil_iff]
  exact List.splitOn_ne_nil '/' text.toList

/-- A text is joined again from its parts. -/
@[simp] theorem joinPath_splitPath (text : String) : joinPath (splitPath text) = text := by
  rw [joinPath, splitPath, List.map_map]
  have same : (String.toList ∘ String.ofList) = id := funext fun _ => String.toList_ofList
  rw [same, List.map_id, List.intercalate_splitOn, String.ofList_toList]

/-- Texts with the same parts are the same. -/
theorem splitPath_injective {left right : String} (same : splitPath left = splitPath right)
    : left = right := by
  rw [← joinPath_splitPath left, same, joinPath_splitPath]

/-- Joined parts are split again. -/
theorem splitPath_joinPath {parts : List String} (plain : ∀ part ∈ parts, IsPart part)
    (nonempty : parts ≠ [])
    : splitPath (joinPath parts) = parts := by
  rw [splitPath, joinPath, String.toList_ofList, List.splitOn_intercalate, List.map_map]
  case hx =>
    intro letters member
    obtain ⟨part, given, rfl⟩ := List.mem_map.mp member
    exact plain part given
  case hls => simpa using nonempty
  have same : (String.ofList ∘ String.toList) = id := funext fun _ => String.ofList_toList
  rw [same, List.map_id]

/-- A path without parts is empty. -/
@[simp] theorem joinPath_nil : joinPath [] = "" := rfl

/-- A path of one part is that part. -/
@[simp] theorem joinPath_singleton (part : String) : joinPath [part] = part := by
  simp [joinPath]

/-- A part behind others follows a slash. -/
theorem joinPath_concat {parts : List String} (nonempty : parts ≠ []) (part : String)
    : joinPath (parts ++ [part]) = joinPath parts ++ "/" ++ part := by
  induction parts with
  | nil => exact absurd rfl nonempty
  | cons first rest ih =>
      cases rest with
      | nil => simp [joinPath, String.ofList_append, String.append_assoc]
      | cons second others =>
          have later := congrArg String.toList (ih (List.cons_ne_nil second others))
          simp only [joinPath, List.cons_append, List.map_cons, String.toList_ofList,
            String.toList_append] at later
          refine String.toList_inj.mp ?_
          simp only [joinPath, List.cons_append, List.map_cons, List.intercalate_cons_cons,
            String.toList_ofList, String.toList_append, later, List.append_assoc]

/-- Lower case keeps the slashes of a path where they are. -/
theorem toAsciiLowercase_joinPath (parts : List String)
    : toAsciiLowercase (joinPath parts) = joinPath (parts.map toAsciiLowercase) := by
  have letters : ∀ (lists : List (List Char)),
      (['/'].intercalate lists).map Char.toLower
        = ['/'].intercalate (lists.map (List.map Char.toLower)) := by
    intro lists
    induction lists with
    | nil => rfl
    | cons first rest ih =>
        cases rest with
        | nil => simp
        | cons second others =>
            rw [List.map_cons] at ih
            simp only [List.intercalate_cons_cons, List.map_cons, List.map_append, ih]
            rfl
  rw [toAsciiLowercase, joinPath, String.toList_ofList, letters, joinPath, List.map_map,
    List.map_map]
  congr 3
  funext part
  simp [toAsciiLowercase]

-----------------------------------------------------------------------------------------
-- Encoded parts
-----------------------------------------------------------------------------------------

/-- A digit of `{b:02X}`. -/
def upperHexDigit (value : Nat) : Char :=
  if value < 10 then Char.ofNat ('0'.toNat + value) else Char.ofNat ('A'.toNat + (value - 10))

/-- `is_ascii_alphanumeric` -/
def isAsciiAlphanumeric (letter : Char) : Bool :=
  letter.isAlphanum

/-- One byte of a key: itself, or an escape. -/
def escape (byte : UInt8) : List Char :=
  let letter := Char.ofNat byte.toNat
  if isAsciiAlphanumeric letter || "-_. ()[]".toList.contains letter then [letter]
  else ['%', upperHexDigit (byte.toNat / 16), upperHexDigit (byte.toNat % 16)]

/-- `replace('.', "%2E")` -/
def escapeDots (letters : List Char) : List Char :=
  letters.flatMap fun letter => if letter = '.' then "%2E".toList else [letter]

/-- The loop over trailing dots and blanks: it ends after one round, as the name then ends
in a digit or a letter.
-/
def escapeLast (letters : List Char) : List Char :=
  match letters.getLast? with
  | some '.' => letters.dropLast ++ "%2E".toList
  | some ' ' => letters.dropLast ++ "%20".toList
  | _ => letters

/-- The device names that a part must not start with. -/
def isReserved (stem : List Char) : Bool :=
  let stem := stem.map Char.toUpper
  ["CON".toList, "PRN".toList, "AUX".toList, "NUL".toList].contains stem
    || (stem.length = 4
      && ("COM".toList.isPrefixOf stem || "LPT".toList.isPrefixOf stem)
      && (stem.getLast?.any fun digit => digit.isDigit && digit ≠ '0'))

/-- A part that is empty or a dot name is marked. -/
def escapeSpecial (letters : List Char) : List Char :=
  if letters = [] ∨ letters = ['.'] ∨ letters = ['.', '.'] then '_' :: escapeDots letters
  else letters

/-- A part that starts like a device is marked. -/
def escapeReserved (letters : List Char) : List Char :=
  if isReserved (letters.takeWhile (· ≠ '.')) then '_' :: letters else letters

section Digest

variable (sha256 : List UInt8 → List UInt8)

/-- `crypto::digest` over a digest function of bytes. -/
def digest (bytes : List UInt8) : String := Bytes.hexEncode (sha256 bytes)

/-- `crypto::digest(..)[..16]` -/
def shortDigest (text : String) : List Char :=
  (digest sha256 (Bytes.textBytes text)).toList.take 16

/-- A long part is cut and marked with the digest of its text. -/
def shorten (value : String) (letters : List Char) : List Char :=
  if 160 < letters.length then letters.take 140 ++ '~' :: shortDigest sha256 value else letters

/-- `component` -/
def component (value : String) : String :=
  let out := (Bytes.textBytes value).flatMap escape
  String.ofList (shorten sha256 value (escapeReserved (escapeLast (escapeSpecial out))))

-----------------------------------------------------------------------------------------
-- Encoded parts are parts
-----------------------------------------------------------------------------------------

/-- No escape has a slash. -/
theorem escape_plain (byte : UInt8) : '/' ∉ escape byte := by
  have each : ∀ value : Fin 256, '/' ∉ escape (UInt8.ofNat value) := by decide +kernel
  have this := each ⟨byte.toNat, byte.toNat_lt⟩
  rwa [UInt8.ofNat_toNat] at this

/-- No digest has a slash. -/
theorem digest_plain (bytes : List UInt8) : IsPart (digest sha256 bytes) :=
  Bytes.hexEncode_digits (by decide) (sha256 bytes)

/-- No short digest has a slash. -/
theorem shortDigest_plain (text : String) : '/' ∉ shortDigest sha256 text :=
  fun member => digest_plain sha256 _ (List.mem_of_mem_take member)

variable {letters : List Char} {mark : Char}

/-- The letters that the steps of `component` add to those of the escaped bytes. -/
def addedLetters : List Char := "_%2E0".toList

/-- Escaping dots adds no other letter. -/
theorem escapeDots_plain (foreign : mark ∉ addedLetters) (plain : mark ∉ letters)
    : mark ∉ escapeDots letters := by
  have added : "%2E".toList ⊆ addedLetters := by decide
  rw [escapeDots, List.mem_flatMap]
  rintro ⟨letter, member, found⟩
  split at found
  · exact foreign (added found)
  · rw [List.mem_singleton] at found
    exact plain (found ▸ member)

/-- An underscore adds no other letter. -/
theorem underscore_plain (foreign : mark ∉ addedLetters) (plain : mark ∉ letters)
    : mark ∉ '_' :: letters := by
  refine List.not_mem_cons_of_ne_of_not_mem ?_ plain
  rintro rfl
  exact foreign List.mem_cons_self

/-- Marking a special name adds no other letter. -/
theorem escapeSpecial_plain (foreign : mark ∉ addedLetters) (plain : mark ∉ letters)
    : mark ∉ escapeSpecial letters := by
  rw [escapeSpecial]
  split
  · exact underscore_plain foreign (escapeDots_plain foreign plain)
  · exact plain

/-- Escaping the last letter adds no other letter. -/
theorem escapeLast_plain (foreign : mark ∉ addedLetters) (plain : mark ∉ letters)
    : mark ∉ escapeLast letters := by
  have others : mark ∉ letters.dropLast := fun member => plain (List.dropLast_subset _ member)
  have dot : "%2E".toList ⊆ addedLetters := by decide
  have blank : "%20".toList ⊆ addedLetters := by decide
  rw [escapeLast]
  split
  · exact List.not_mem_append others fun added => foreign (dot added)
  · exact List.not_mem_append others fun added => foreign (blank added)
  · exact plain

/-- Marking a device name adds no other letter. -/
theorem escapeReserved_plain (foreign : mark ∉ addedLetters) (plain : mark ∉ letters)
    : mark ∉ escapeReserved letters := by
  rw [escapeReserved]
  split
  · exact underscore_plain foreign plain
  · exact plain

/-- Shortening adds no slash. -/
theorem shorten_plain (value : String) (plain : '/' ∉ letters)
    : '/' ∉ shorten sha256 value letters := by
  rw [shorten]
  split
  · refine List.not_mem_append (fun member => plain (List.mem_of_mem_take member)) ?_
    exact List.not_mem_cons_of_ne_of_not_mem (by decide) (shortDigest_plain sha256 value)
  · exact plain

/-- An encoded part has no slash. -/
theorem component_isPart (value : String) : IsPart (component sha256 value) := by
  have escaped : '/' ∉ (Bytes.textBytes value).flatMap escape := by
    rw [List.mem_flatMap]
    rintro ⟨byte, -, member⟩
    exact escape_plain byte member
  have foreign : '/' ∉ addedLetters := by decide
  rw [IsPart, component, String.toList_ofList]
  apply shorten_plain
  apply escapeReserved_plain foreign
  apply escapeLast_plain foreign
  apply escapeSpecial_plain foreign
  exact escaped

/-- A special name is not empty any more. -/
theorem escapeSpecial_ne_nil (letters : List Char) : escapeSpecial letters ≠ [] := by
  rw [escapeSpecial]
  split
  · exact List.cons_ne_nil _ _
  · rename_i other
    exact fun empty => other (Or.inl empty)

/-- Escaping the last letter leaves letters. -/
theorem escapeLast_ne_nil (nonempty : letters ≠ []) : escapeLast letters ≠ [] := by
  rw [escapeLast]
  split
  · exact List.append_ne_nil_of_right_ne_nil _ (by decide)
  · exact List.append_ne_nil_of_right_ne_nil _ (by decide)
  · exact nonempty

/-- Marking a device name leaves letters. -/
theorem escapeReserved_ne_nil (nonempty : letters ≠ []) : escapeReserved letters ≠ [] := by
  rw [escapeReserved]
  split
  · exact List.cons_ne_nil _ _
  · exact nonempty

/-- Shortening leaves letters. -/
theorem shorten_ne_nil (value : String) (nonempty : letters ≠ [])
    : shorten sha256 value letters ≠ [] := by
  rw [shorten]
  split
  · exact List.append_ne_nil_of_right_ne_nil _ (List.cons_ne_nil _ _)
  · exact nonempty

/-- An encoded part is not empty. -/
theorem component_ne_empty (value : String) : component sha256 value ≠ "" := by
  rw [component, ← String.ofList_nil, ne_eq, String.ofList_inj]
  apply shorten_ne_nil
  apply escapeReserved_ne_nil
  apply escapeLast_ne_nil
  exact escapeSpecial_ne_nil _

end Digest

-----------------------------------------------------------------------------------------
-- Digests without collisions
-----------------------------------------------------------------------------------------

/-- No two of some byte strings have one digest. -/
def NoCollision (sha256 : List UInt8 → List UInt8) (inputs : List (List UInt8)) : Prop :=
  ∀ left ∈ inputs, ∀ right ∈ inputs, sha256 left = sha256 right → left = right

/-- A digest determines its input among inputs that do not collide. -/
theorem digest_inj {sha256 : List UInt8 → List UInt8} {inputs : List (List UInt8)}
    (secure : NoCollision sha256 inputs) {left right : List UInt8} (member : left ∈ inputs)
    (member' : right ∈ inputs) (same : digest sha256 left = digest sha256 right)
    : left = right :=
  secure left member right member' (Bytes.hexEncode_injective same)

/-- Fewer byte strings do not collide either. -/
theorem NoCollision.subset {sha256 : List UInt8 → List UInt8} {inputs fewer : List (List UInt8)}
    (secure : NoCollision sha256 inputs) (among : fewer ⊆ inputs)
    : NoCollision sha256 fewer :=
  fun left member right member' => secure left (among member) right (among member')

-----------------------------------------------------------------------------------------
-- File names
-----------------------------------------------------------------------------------------

/-- `Path::file_name`: the last normal component. -/
def fileName (name : String) : Option String :=
  match ((splitPath name).filter fun part => part ≠ "" && part ≠ ".").getLast? with
  | some part => if part = ".." then none else some part
  | none => none

/-- `Path::extension`: what follows the last dot of the file name, when something stands
before that dot.
-/
def extension (name : String) : Option String :=
  match fileName name with
  | none => none
  | some file =>
      match (file.toList.splitOn '.').reverse with
      | last :: stem :: others =>
          if stem = [] ∧ others = [] then none else some (String.ofList last)
      | _ => none

/-- The names that `safe_destination` accepts below a root. An absolute path has an empty
first part.
-/
def isSafePath (relative : String) : Bool :=
  relative.utf8ByteSize ≤ 1024
    && (relative.toList.all fun letter => letter ≠ '\\' && letter ≠ ':' && letter ≠ '\x00')
    && ((splitPath relative).all fun part => part ≠ "" && part ≠ "." && part ≠ "..")

/-- `is_ascii_hexdigit` -/
def isAsciiHexdigit (letter : Char) : Bool :=
  letter.isDigit || ('a' ≤ letter && letter ≤ 'f') || ('A' ≤ letter && letter ≤ 'F')

/-- The export ids that name a directory. -/
def isExportId (id : String) : Bool :=
  id ≠ "" && id.toList.all fun letter => isAsciiHexdigit letter || letter = '-'

end MoenotesAssets.ObjectTree
