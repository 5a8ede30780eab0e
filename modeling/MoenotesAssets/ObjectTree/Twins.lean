import MoenotesAssets.ObjectTree.Portable
import MoenotesAssets.ObjectTree.Preflight

/-! Which parts of asset keys are encoded alike: besides equal ones, only a marked part and the
same part behind an underscore.
-/

namespace MoenotesAssets.ObjectTree
open Foundation Foundation.Bytes

-----------------------------------------------------------------------------------------
-- Decoding
-----------------------------------------------------------------------------------------

/-- The value of a digit of an escape. -/
def hexValue (digit : Char) : Nat :=
  if digit.isDigit then digit.toNat - '0'.toNat else digit.toNat - 'A'.toNat + 10

/-- The bytes that letters and escapes stand for. -/
def decode : List Char → List UInt8
  | '%' :: high :: low :: rest => UInt8.ofNat (16 * hexValue high + hexValue low) :: decode rest
  | letter :: rest => UInt8.ofNat letter.toNat :: decode rest
  | [] => []

section Decoding

variable {letters : List Char}

/-- A letter stands for itself. -/
theorem decode_letter {letter : Char} (plain : letter ≠ '%') (rest : List Char)
    : decode (letter :: rest) = UInt8.ofNat letter.toNat :: decode rest := by
  rw [decode]
  intro high low others percent
  exact absurd percent plain

/-- A byte is escaped to a letter that stands for it, or to an escape. -/
theorem escape_cases (byte : UInt8)
    : (∃ letter, escape byte = [letter] ∧ letter ≠ '%' ∧ UInt8.ofNat letter.toNat = byte)
      ∨ ∃ high low,
          escape byte = ['%', high, low]
          ∧ UInt8.ofNat (16 * hexValue high + hexValue low) = byte
          ∧ low ≠ '.'
          ∧ low ≠ ' ' := by
  have bound := byte.toNat_lt
  rw [escape]
  split
  case isTrue plain =>
    refine Or.inl ⟨_, rfl, ?_, ?_⟩
    · intro percent
      rw [percent] at plain
      exact absurd plain (by decide)
    · have each : ∀ value : Fin 256,
          UInt8.ofNat (Char.ofNat value).toNat = UInt8.ofNat value := by
        decide +kernel
      have this := each ⟨byte.toNat, bound⟩
      rwa [UInt8.ofNat_toNat] at this
  case isFalse =>
    have digits : ∀ value < 16, hexValue (upperHexDigit value) = value
        ∧ upperHexDigit value ≠ '.' ∧ upperHexDigit value ≠ ' ' := by
      decide
    obtain ⟨high, -⟩ := digits (byte.toNat / 16) (by omega)
    obtain ⟨low, plain⟩ := digits (byte.toNat % 16) (by omega)
    refine Or.inr ⟨_, _, rfl, ?_, plain⟩
    rw [high, low, Nat.div_add_mod, UInt8.ofNat_toNat]

/-- An escaped byte is decoded again. -/
theorem decode_escape (byte : UInt8) (rest : List Char)
    : decode (escape byte ++ rest) = byte :: decode rest := by
  obtain ⟨letter, shape, plain, same⟩ | ⟨high, low, shape, same, -⟩ := escape_cases byte
  · rw [shape, List.singleton_append, decode_letter plain, same]
  · rw [shape, ← same]
    rfl

/-- Escaped bytes are decoded again, by induction on them. -/
theorem decode_escapes (bytes : List UInt8) (rest : List Char)
    : decode (bytes.flatMap escape ++ rest) = bytes ++ decode rest := by
  induction bytes with
  | nil => rfl
  | cons byte others ih =>
      rw [List.flatMap_cons, List.append_assoc, decode_escape, ih, List.cons_append]

/-- The last letter decides how it is escaped. -/
theorem escapeLast_concat (front : List Char) (letter : Char)
    : escapeLast (front ++ [letter])
      = front
          ++ if letter = '.' then "%2E".toList
            else if letter = ' ' then "%20".toList
            else [letter] := by
  rw [escapeLast, List.getLast?_concat, List.dropLast_concat]
  by_cases dot : letter = '.'
  · subst dot
    rfl
  by_cases blank : letter = ' '
  · subst blank
    rfl
  rw [if_neg dot, if_neg blank]
  split
  case h_1 same => exact absurd (Option.some.inj same) dot
  case h_2 same => exact absurd (Option.some.inj same) blank
  case h_3 => rfl

/-- Escaping the last letter of escaped bytes keeps what they stand for. -/
theorem decode_escapeLast (bytes : List UInt8)
    : decode (escapeLast (bytes.flatMap escape)) = bytes := by
  obtain rfl | ⟨front, byte, rfl⟩ := List.eq_nil_or_concat bytes
  · rfl
  rw [List.concat_eq_append, List.flatMap_append, List.flatMap_singleton]
  obtain ⟨letter, shape, plain, same⟩ | ⟨high, low, shape, same, other⟩ := escape_cases byte
  · rw [shape, escapeLast_concat, decode_escapes]
    congr 1
    by_cases dot : letter = '.'
    · subst dot
      exact congrArg (fun byte => [byte]) same
    by_cases blank : letter = ' '
    · subst blank
      exact congrArg (fun byte => [byte]) same
    rw [if_neg dot, if_neg blank, decode_letter plain, same]
    rfl
  · have split : front.flatMap escape ++ escape byte
        = (front.flatMap escape ++ ['%', high]) ++ [low] := by
      rw [shape, List.append_assoc]
      rfl
    rw [split, escapeLast_concat, if_neg other.1, if_neg other.2, ← split, decode_escapes]
    have last := decode_escape byte []
    rw [List.append_nil] at last
    rw [last]
    rfl

end Decoding

-----------------------------------------------------------------------------------------
-- Marks
-----------------------------------------------------------------------------------------

/-- The escaped bytes of a part. -/
def escaped (value : String) : List Char := (textBytes value).flatMap escape

/-- What `component` has of a part before it shortens it. -/
def encode (value : String) : List Char :=
  escapeReserved (escapeLast (escapeSpecial (escaped value)))

/-- The parts that `component` marks with an underscore and changes no further than it changes
the same part behind an underscore.
-/
def isMarked (value : String) : Bool :=
  value = "" || value = "." || isReserved (stem (escapeLast (escaped value)))

section Marks

variable {value other : String}

/-- Escaped parts are decoded again. -/
theorem decode_escaped (value : String) : decode (escaped value) = textBytes value := by
  have whole := decode_escapes (textBytes value) []
  rw [List.append_nil] at whole
  exact whole.trans (List.append_nil _)

/-- Escaping loses nothing. -/
theorem escaped_injective : Function.Injective escaped := by
  intro value other same
  refine textBytes_injective ?_
  rw [← decode_escaped, ← decode_escaped, same]

/-- A part behind an underscore is escaped behind an underscore. -/
theorem escaped_underscore (value : String) : escaped ("_" ++ value) = '_' :: escaped value := by
  rw [escaped, textBytes_append, List.flatMap_append]
  rfl

/-- The parts without a mark, and the others. -/
theorem escapeSpecial_cases (value : String)
    : (value = "" ∨ value = "." ∨ value = "..")
      ∨ escapeSpecial (escaped value) = escaped value := by
  by_cases special : escaped value = [] ∨ escaped value = ['.'] ∨ escaped value = ['.', '.']
  · refine Or.inl ?_
    have empty : escaped "" = [] := by decide
    have dot : escaped "." = ['.'] := by decide
    have dots : escaped ".." = ['.', '.'] := by decide
    rw [← dots, ← dot, ← empty] at special
    exact special.imp (fun same => escaped_injective same)
      (Or.imp (fun same => escaped_injective same) fun same => escaped_injective same)
  · exact Or.inr (if_neg special)

/-- The encoding of a part stands for the part, or for the part behind an underscore. -/
theorem decode_encode (value : String)
    : decode (encode value) = textBytes value
      ∨ (isMarked value = true ∨ value = "..")
        ∧ decode (encode value) = textBytes ("_" ++ value) := by
  obtain special | plain := escapeSpecial_cases value
  · refine Or.inr ?_
    obtain rfl | rfl | rfl := special
    · exact ⟨Or.inl (by decide), by decide +kernel⟩
    · exact ⟨Or.inl (by decide), by decide +kernel⟩
    · exact ⟨Or.inr rfl, by decide +kernel⟩
  · rw [encode, plain]
    by_cases reserved : isReserved (stem (escapeLast (escaped value))) = true
    · have marked : escapeReserved (escapeLast (escaped value))
          = '_' :: escapeLast (escaped value) := if_pos reserved
      refine Or.inr ⟨Or.inl ?_, ?_⟩
      · rw [isMarked, reserved, Bool.or_true]
      · rw [marked, decode_letter (by decide), escaped, decode_escapeLast, textBytes_append]
        rfl
    · have same : escapeReserved (escapeLast (escaped value)) = escapeLast (escaped value) :=
        if_neg reserved
      rw [same, escaped, decode_escapeLast]
      exact Or.inl rfl

/-- Escaping the last letter leaves a first one as it is. -/
theorem escapeLast_cons {letters : List Char} (nonempty : letters ≠ []) (first : Char)
    : escapeLast (first :: letters) = first :: escapeLast letters := by
  obtain ⟨front, last, rfl⟩ := (List.eq_nil_or_concat letters).resolve_left nonempty
  rw [List.concat_eq_append, ← List.cons_append, escapeLast_concat, escapeLast_concat,
    List.cons_append]

/-- A marked part is encoded like the same part behind an underscore. -/
theorem encode_underscore (marked : isMarked value = true)
    : encode ("_" ++ value) = encode value := by
  rw [isMarked, Bool.or_eq_true, Bool.or_eq_true, decide_eq_true_eq, decide_eq_true_eq] at marked
  obtain (rfl | rfl) | reserved := marked
  · decide +kernel
  · decide +kernel
  · have plain : escapeSpecial (escaped value) = escaped value := by
      refine (escapeSpecial_cases value).resolve_left fun special => ?_
      obtain rfl | rfl | rfl := special
      · exact absurd reserved (by decide)
      · exact absurd reserved (by decide)
      · exact absurd reserved (by decide)
    have nonempty : escaped value ≠ [] := by
      intro empty
      rw [empty] at reserved
      exact absurd reserved (by decide)
    have whole : escapeSpecial ('_' :: escaped value) = '_' :: escaped value := by
      refine if_neg ?_
      rintro (none | dot | dots)
      · cases none
      · exact absurd (List.cons.inj dot).1 (by decide)
      · exact absurd (List.cons.inj dots).1 (by decide)
    have unreserved : isReserved (stem ('_' :: escapeLast (escaped value))) = false :=
      isReserved_marked List.mem_cons_self (by decide)
    rw [encode, escaped_underscore, whole, escapeLast_cons nonempty, encode, plain]
    rw [escapeReserved, escapeReserved]
    exact (if_neg (Bool.eq_false_iff.mp unreserved)).trans (if_pos reserved).symm

/-- Parts of one encoding are the same but for the underscore of a marked one. -/
theorem encode_eq_iff
    : encode value = encode other
      ↔ value = other
        ∨ other = "_" ++ value ∧ isMarked value = true
        ∨ value = "_" ++ other ∧ isMarked other = true := by
  have dots : encode "_.." ≠ encode ".." := by decide +kernel
  have one : ∀ {left right : String}, encode left = encode right
      → (isMarked left = true ∨ left = "..") → right = "_" ++ left → isMarked left = true := by
    rintro left right same (marked | rfl) shape
    · exact marked
    · exact absurd (shape ▸ same).symm dots
  constructor
  · intro same
    obtain plain | ⟨special, shifted⟩ := decode_encode value
    · obtain plain' | ⟨special', shifted'⟩ := decode_encode other
      · exact Or.inl (textBytes_injective (plain.symm.trans (same ▸ plain')))
      · have shape := textBytes_injective (plain.symm.trans (same ▸ shifted'))
        exact Or.inr (Or.inr ⟨shape, one same.symm special' shape⟩)
    · obtain plain' | ⟨special', shifted'⟩ := decode_encode other
      · have shape := textBytes_injective (plain'.symm.trans (same ▸ shifted))
        exact Or.inr (Or.inl ⟨shape, one same special shape⟩)
      · have shape := textBytes_injective (shifted.symm.trans (same ▸ shifted'))
        exact Or.inl (String.append_right_inj "_" |>.mp shape)
  · rintro (rfl | ⟨rfl, marked⟩ | ⟨rfl, marked⟩)
    · rfl
    · exact (encode_underscore marked).symm
    · exact encode_underscore marked

/-- No encoding has a tilde before it is shortened. -/
theorem encode_tilde (value : String) : '~' ∉ encode value := by
  have each : ∀ code : Fin 256, '~' ∉ escape (UInt8.ofNat code) := by decide +kernel
  have plain : '~' ∉ escaped value := by
    rw [escaped, List.mem_flatMap]
    rintro ⟨byte, -, found⟩
    have this := each ⟨byte.toNat, byte.toNat_lt⟩
    rw [UInt8.ofNat_toNat] at this
    exact this found
  have foreign : '~' ∉ addedLetters := by decide
  exact escapeReserved_plain foreign (escapeLast_plain foreign (escapeSpecial_plain foreign plain))

end Marks

-----------------------------------------------------------------------------------------
-- Parts of one name
-----------------------------------------------------------------------------------------

/-- The second part is the first one behind an underscore, which `component` adds to the first
one, and it does not shorten them.
-/
structure Twin (value other : String) : Prop where
  shape : other = "_" ++ value
  marked : isMarked value = true
  short : (encode value).length ≤ 160

/-- Two parts are the same, or one is the twin of the other. -/
def Alike (value other : String) : Prop := value = other ∨ Twin value other ∨ Twin other value

section Sha

variable {sha256 : List UInt8 → List UInt8} {value other : String}

/-- Shortened letters end in a tilde and the digest. -/
theorem shorten_long {letters : List Char} (long : 160 < letters.length)
    : shorten sha256 value letters = letters.take 140 ++ '~' :: shortDigest sha256 value :=
  if_pos long

/-- Two parts have one name just when they are alike, unless their short digests agree. -/
theorem component_eq_iff
    (fresh : shortDigest sha256 value = shortDigest sha256 other → value = other)
    : component sha256 value = component sha256 other ↔ Alike value other := by
  have shape : ∀ text, component sha256 text
      = String.ofList (shorten sha256 text (encode text)) := fun _ => rfl
  rw [shape, shape, String.ofList_inj]
  constructor
  · intro same
    by_cases long : 160 < (encode value).length
    · by_cases long' : 160 < (encode other).length
      · rw [shorten_long long, shorten_long long'] at same
        have size : ((encode value).take 140).length = ((encode other).take 140).length := by
          rw [List.length_take, List.length_take]
          omega
        exact Or.inl (fresh (List.cons.inj (List.append_inj same size).2).2)
      · rw [shorten_long long, shorten, if_neg long'] at same
        exact absurd (same ▸ List.mem_append_right _ List.mem_cons_self) (encode_tilde other)
    · by_cases long' : 160 < (encode other).length
      · rw [shorten_long long', shorten, if_neg long] at same
        exact absurd (same ▸ List.mem_append_right _ List.mem_cons_self) (encode_tilde value)
      · rw [shorten, shorten, if_neg long, if_neg long'] at same
        obtain equal | ⟨behind, marked⟩ | ⟨behind, marked⟩ := encode_eq_iff.mp same
        · exact Or.inl equal
        · exact Or.inr (Or.inl ⟨behind, marked, by omega⟩)
        · exact Or.inr (Or.inr ⟨behind, marked, by omega⟩)
  · have twins : ∀ {left right : String}, Twin left right
        → shorten sha256 left (encode left) = shorten sha256 right (encode right) := by
      rintro left right ⟨rfl, marked, short⟩
      have same := encode_underscore marked
      rw [shorten, shorten, same, if_neg (by omega), if_neg (by omega)]
    rintro (rfl | twin | twin)
    · rfl
    · exact twins twin
    · exact (twins twin).symm

/-- No two of the texts have the same short digest. -/
def Fresh (sha256 : List UInt8 → List UInt8) (texts : List String) : Prop :=
  ∀ text ∈ texts, ∀ other ∈ texts, shortDigest sha256 text = shortDigest sha256 other → text = other

/-- Paths have one encoding just when their parts are alike, by induction on them. -/
theorem components_eq_iff {path path' : List String} (fresh : Fresh sha256 (path ++ path'))
    : path.map (component sha256) = path'.map (component sha256)
      ↔ List.Forall₂ Alike path path' := by
  induction path generalizing path' with
  | nil =>
      cases path' with
      | nil => exact iff_of_true rfl List.Forall₂.nil
      | cons first rest => exact iff_of_false (fun same => by cases same) fun both => by cases both
  | cons first rest ih =>
      cases path' with
      | nil => exact iff_of_false (fun same => by cases same) fun both => by cases both
      | cons second others =>
          have here : shortDigest sha256 first = shortDigest sha256 second → first = second :=
            fresh first List.mem_cons_self second
              (List.mem_append_right _ List.mem_cons_self)
          have later : Fresh sha256 (rest ++ others) := by
            have inside : ∀ text ∈ rest ++ others,
                text ∈ (first :: rest) ++ (second :: others) := by
              intro text member
              exact (List.mem_append.mp member).elim
                (fun front => List.mem_append_left _ (List.mem_cons_of_mem _ front))
                (fun back => List.mem_append_right _ (List.mem_cons_of_mem _ back))
            exact fun text member text' member' =>
              fresh text (inside text member) text' (inside text' member')
          rw [List.map_cons, List.map_cons, List.cons.injEq, component_eq_iff here, ih later,
            List.forall₂_cons]

/-- Joined encodings of parts are the same just when the encodings are. -/
theorem joinPath_component_inj {path path' : List String} (nonempty : path ≠ [])
    (nonempty' : path' ≠ [])
    : joinPath (path.map (component sha256)) = joinPath (path'.map (component sha256))
      ↔ path.map (component sha256) = path'.map (component sha256) := by
  have plain : ∀ path : List String, ∀ part ∈ path.map (component sha256), IsPart part := by
    intro path part member
    obtain ⟨original, -, rfl⟩ := List.mem_map.mp member
    exact component_isPart sha256 original
  refine ⟨fun same => ?_, fun same => same ▸ rfl⟩
  have split := congrArg splitPath same
  rwa [splitPath_joinPath (plain path) (mt List.map_eq_nil_iff.mp nonempty),
    splitPath_joinPath (plain path') (mt List.map_eq_nil_iff.mp nonempty')] at split

/-- The directories of a key are beginnings of its path, by induction on its parts. -/
theorem of_mem_directoriesFrom {above parts : List String} {entry : String × String}
    (member : entry ∈ directoriesFrom sha256 above parts)
    : ∃ path,
        path ≠ []
        ∧ path <+: parts
        ∧ entry
          = (toAsciiLowercase (joinPath ((above ++ path).map (component sha256))),
            joinPath (above ++ path)) := by
  induction parts generalizing above with
  | nil => exact absurd member List.not_mem_nil
  | cons part rest ih =>
      rw [directoriesFrom] at member
      rcases List.mem_cons.mp member with rfl | later
      · exact ⟨[part], List.cons_ne_nil _ _, ⟨rest, rfl⟩, rfl⟩
      · obtain ⟨path, -, ⟨back, rfl⟩, rfl⟩ := ih later
        exact ⟨part :: path, List.cons_ne_nil _ _, ⟨back, rfl⟩, by
          rw [List.append_cons above part path]⟩

/-- Two beginnings of the paths of keys, in one directory up to the case of letters. -/
structure Overlap (sha256 : List UInt8 → List UInt8) (keys path path' : List String) : Prop where
  claimed : ∃ key ∈ keys, path ≠ [] ∧ path <+: splitPath key
  claimed' : ∃ key ∈ keys, path' ≠ [] ∧ path' <+: splitPath key
  different : path ≠ path'
  folded
    : toAsciiLowercase (joinPath (path.map (component sha256)))
      = toAsciiLowercase (joinPath (path'.map (component sha256)))

/-- Keys whose directories are refused have two paths that overlap. -/
theorem claimDirectories_overlap {keys : List String} {error : String}
    (failed : keys.foldlM (claimDirectories sha256) ∅ = .error error)
    : ∃ path path', Overlap sha256 keys path path' := by
  have refused : ¬ Table.Agreeing (keys.flatMap (directoriesOf sha256)) := by
    intro agreeing
    obtain ⟨directories, done⟩ := claimDirectories_ok.mpr agreeing
    rw [done] at failed
    cases failed
  have entries : ∀ entry ∈ keys.flatMap (directoriesOf sha256), ∃ path,
      (∃ key ∈ keys, path ≠ [] ∧ path <+: splitPath key)
      ∧ entry
        = (toAsciiLowercase (joinPath (path.map (component sha256))), joinPath path) := by
    intro entry member
    obtain ⟨key, given, found⟩ := List.mem_flatMap.mp member
    obtain ⟨path, nonempty, front, rfl⟩ := of_mem_directoriesFrom found
    exact ⟨path, ⟨key, given, nonempty, front⟩, rfl⟩
  simp only [Table.Agreeing, not_forall] at refused
  obtain ⟨entry, member, other, member', folded, different⟩ := refused
  obtain ⟨path, claimed, rfl⟩ := entries entry member
  obtain ⟨path', claimed', rfl⟩ := entries other member'
  exact ⟨path, path', claimed, claimed', fun same => different (congrArg joinPath same), folded⟩

/-- `component` gives one name to two parts just when they are alike, keys have one directory just
when their parts are alike, and directories are refused for the case of letters or for parts that
are alike; unless short digests agree.
-/
theorem component_alike (sha256 : List UInt8 → List UInt8)
    : (∀ value other,
        Fresh sha256 [value, other]
        → (component sha256 value = component sha256 other ↔ Alike value other))
      ∧ (∀ key key',
          Fresh sha256 (splitPath key ++ splitPath key')
          → (joinPath (encodedParts sha256 key) = joinPath (encodedParts sha256 key')
            ↔ List.Forall₂ Alike (splitPath key) (splitPath key')))
      ∧ ∀ keys error,
          Fresh sha256 (keys.flatMap splitPath)
          → keys.foldlM (claimDirectories sha256) ∅ = .error error
          → ∃ path path',
              Overlap sha256 keys path path'
              ∧ (joinPath (path.map (component sha256)) ≠ joinPath (path'.map (component sha256))
                ∨ List.Forall₂ Alike path path') := by
  refine ⟨fun value other fresh => ?_, fun key key' fresh => ?_, fun keys error fresh failed => ?_⟩
  · exact component_eq_iff
      (fresh value List.mem_cons_self other (List.mem_cons_of_mem _ List.mem_cons_self))
  · exact (joinPath_component_inj (splitPath_ne_nil key) (splitPath_ne_nil key')).trans
      (components_eq_iff fresh)
  · obtain ⟨path, path', overlap⟩ := claimDirectories_overlap failed
    obtain ⟨key, given, nonempty, front⟩ := overlap.claimed
    obtain ⟨key', given', nonempty', front'⟩ := overlap.claimed'
    refine ⟨path, path', overlap, (ne_or_eq _ _).imp_right fun same => ?_⟩
    have inside : ∀ part ∈ path ++ path', part ∈ keys.flatMap splitPath := by
      intro part member
      rcases List.mem_append.mp member with left | right
      · exact List.mem_flatMap.mpr ⟨key, given, front.subset left⟩
      · exact List.mem_flatMap.mpr ⟨key', given', front'.subset right⟩
    have rare : Fresh sha256 (path ++ path') := fun text member other member' =>
      fresh text (inside text member) other (inside other member')
    exact (components_eq_iff rare).mp ((joinPath_component_inj nonempty nonempty').mp same)

/-- Two asset keys with one directory: a device name, and the same name behind an underscore. -/
theorem component_alike_keys
    : joinPath (encodedParts id "Image/aux") = joinPath (encodedParts id "Image/_aux")
      ↔ List.Forall₂ Alike (splitPath "Image/aux") (splitPath "Image/_aux") := by
  have parts : splitPath "Image/aux" ++ splitPath "Image/_aux"
      = ["Image", "aux", "Image", "_aux"] := by
    decide +kernel
  refine (component_alike id).2.1 "Image/aux" "Image/_aux" ?_
  rw [parts]
  unfold Fresh
  decide +kernel

/-- A device name and the same name behind an underscore have one encoding, though they differ in
more than the case of letters and their digests do not agree.
-/
theorem component_twins
    : "CON" ≠ "_CON"
      ∧ shortDigest id "CON" ≠ shortDigest id "_CON"
      ∧ component id "CON" = component id "_CON"
      ∧ joinPath (encodedParts id "Voice/CON") = joinPath (encodedParts id "Voice/_CON") := by
  decide +kernel

end Sha

end MoenotesAssets.ObjectTree
