import MoenotesAssets.Catalog.Graph

/-! Parsing a catalog does not panic, whatever the bytes: every offset that is added to was
read within the file, and every sum is bounded by a budget.
-/

namespace MoenotesAssets.Catalogs

open Foundation Foundation.Bytes Foundation.Machine

variable {data : List UInt8}

-----------------------------------------------------------------------------------------
-- Sizes of texts
-----------------------------------------------------------------------------------------

/-- The bytes of a text of characters. -/
theorem utf8ByteSize_ofList (letters : List Char)
    : (String.ofList letters).utf8ByteSize ≤ 4 * letters.length := by
  induction letters with
  | nil => simp
  | cons letter rest ih =>
      have size := Char.utf8Size_le_four letter
      rw [String.ofList_cons, String.utf8ByteSize_append, String.utf8ByteSize_singleton,
        List.length_cons]
      omega

/-- The bytes of a joined text, by induction on its parts. -/
theorem utf8ByteSize_intercalate (sep : Char) (parts : List String)
    : (String.intercalate (String.singleton sep) parts).utf8ByteSize
      ≤ (parts.map String.utf8ByteSize).sum + 4 * parts.length := by
  have size := Char.utf8Size_le_four sep
  induction parts with
  | nil => simp
  | cons part rest ih =>
      cases rest with
      | nil => simp
      | cons next rest =>
          rw [String.intercalate_cons_cons, String.utf8ByteSize_append,
            String.utf8ByteSize_append, String.utf8ByteSize_singleton, List.map_cons,
            List.sum_cons, List.length_cons]
          omega

/-- A decoded text has no more characters than units. -/
theorem utf16_length {units : List Nat} {text : List Char} (decoded : utf16 units = some text)
    : text.length ≤ units.length := by
  fun_induction utf16 units generalizing text with
  | case1 =>
      obtain rfl := Option.some.inj decoded
      exact Nat.le_refl _
  | case2 unit rest plain ih =>
      obtain ⟨later, found, rfl⟩ := Option.map_eq_some_iff.mp decoded
      exact Nat.succ_le_succ (ih found)
  | case3 => cases decoded
  | case4 unit high alone low rest pair ih =>
      obtain ⟨later, found, rfl⟩ := Option.map_eq_some_iff.mp decoded
      have shorter := ih found
      rw [List.length_cons, List.length_cons, List.length_cons]
      omega
  | case5 => cases decoded
  | case6 => cases decoded

/-- A hexadecimal text has two digits for a byte. -/
theorem utf8ByteSize_hexEncode (bytes : List UInt8)
    : (hexEncode bytes).utf8ByteSize ≤ 8 * bytes.length := by
  have size := utf8ByteSize_ofList
    (bytes.flatMap fun byte => [hexDigit (byte.toNat / 16), hexDigit (byte.toNat % 16)])
  simp only [List.length_flatMap, List.length_cons, List.length_nil, List.map_const',
    List.sum_replicate_nat] at size
  rw [hexEncode]
  omega

/-- Two bytes make a unit. -/
theorem units_length (bytes : List UInt8) : (units bytes).length ≤ bytes.length := by
  fun_induction units bytes with
  | case1 low high rest ih =>
      rw [List.length_cons, List.length_cons, List.length_cons]
      omega
  | case2 => exact Nat.zero_le _

-----------------------------------------------------------------------------------------
-- Words and arrays
-----------------------------------------------------------------------------------------

/-- The largest catalog: `32 << 20` bytes. -/
def maxSize : Nat := 32 * 2 ^ 20

/-- Taken bytes lie within the file. -/
theorem take_yields (o : UInt32) (n : Nat)
    : Yields (fun bytes => bytes.length = n ∧ o.toNat + n ≤ data.length) (take data o n) := by
  refine .bind (.context _ _) fun added => (Yields.context _ _).imp fun found => ?_
  obtain ⟨rfl, -⟩ := checkedAdd_eq_some added
  obtain ⟨length, within⟩ := slice_length found
  exact ⟨by omega, within⟩

/-- A word lies within the file. -/
theorem u32_yields (o : UInt32) : Yields (fun _ => o.toNat + 4 ≤ data.length) (u32 data o) :=
  (take_yields o 4).bind fun taken => .value taken.2

/-- A word behind an offset. -/
theorem wordAt_yields {o n : UInt32} (fits : o.toNat + n.toNat < 2 ^ 32)
    : Yields (fun _ => True) (wordAt data o n) :=
  (addWord_yields fits).bind fun _ => (u32_yields _).imp fun _ => trivial

/-- A missing length word is an error. -/
theorem lengthWord_yields (o : UInt32) (message : String)
    : Yields (fun _ => True) (lengthWord o message) := by
  rw [lengthWord]
  split
  · exact .value trivial
  · exact .error _

/-- The places of an array lie within the file. -/
theorem array_yields (small : data.length ≤ maxSize) (o : UInt32) {stride : Nat}
    (positive : 0 < stride)
    : Yields
        (fun places => places.length ≤ 200000 ∧ ∀ a ∈ places, a.toNat + stride ≤ data.length)
        (array data o stride) := by
  rw [array]
  split
  · exact .value ⟨Nat.zero_le _, by simp⟩
  · refine .bind (lengthWord_yields _ _) fun _ => .bind (u32_yields _) fun {size} _ => ?_
    refine .bind (.ensure _ _) fun checked => ?_
    refine .bind (take_yields _ _) fun ⟨_, within⟩ => ?_
    simp only [Bool.and_eq_true, beq_iff_eq, decide_eq_true_eq] at checked
    have place : ∀ i ∈ List.range (size.toNat / stride),
        i * stride + stride ≤ size.toNat := by
      intro i member
      have count := Nat.mul_le_mul_right stride (Nat.succ_le_of_lt (List.mem_range.mp member))
      have whole := Nat.div_mul_le_self size.toNat stride
      rw [Nat.succ_mul] at count
      omega
    rw [maxSize] at small
    refine (Yields.mapM (P := fun a => a.toNat + stride ≤ data.length) fun i member => ?_).imp
      fun ⟨length, all⟩ => ⟨?_, all⟩
    · have inside := place i member
      have offset : (UInt32.ofNat (i * stride)).toNat = i * stride :=
        UInt32.toNat_ofNat_of_lt' (by rw [UInt32.size]; omega)
      refine (addWord_yields (by rw [offset]; omega)).imp fun sum => ?_
      rw [sum, offset]
      omega
    · rw [length, List.length_range]
      exact checked.2

/-- The words of an array are no more than its budget. -/
theorem words_yields (small : data.length ≤ maxSize) (o : UInt32)
    : Yields (fun ids => ids.length ≤ 200000) (words data o) := by
  refine .bind (array_yields small o (by decide)) fun ⟨few, _⟩ => ?_
  refine (Yields.mapM (P := fun _ => True) fun a _ => (u32_yields a).imp fun _ => trivial).imp
    fun ⟨length, _⟩ => ?_
  rwa [length]

-----------------------------------------------------------------------------------------
-- Strings
-----------------------------------------------------------------------------------------

/-- The budget of the cached strings: `64 << 20` bytes. -/
def maxStrings : Nat := 64 * 2 ^ 20

/-- The cached strings are counted, and their count is within its budget. -/
structure Cache.Small (cache : Cache) : Prop where
  bytes : cache.bytes ≤ maxStrings
  counted
    : ∀ {o : UInt32} {sep : Char} {value : String},
        cache.strings.lookup (o, sep) = some value → value.utf8ByteSize ≤ cache.bytes

/-- What a reader returns: a counted string and a cache within its budget. -/
def Counted (read : String × Cache) : Prop :=
  read.1.utf8ByteSize ≤ maxStrings ∧ read.2.Small

/-- A reader that has read nothing is within its budget. -/
theorem Cache.Small.empty : Cache.Small .empty where
  bytes := Nat.zero_le _
  counted := fun found => by cases found

/-- A new string is counted. -/
theorem Cache.Small.remember {cache : Cache} (small : cache.Small) (o : UInt32) (sep : Char)
    {value : String} (short : value.utf8ByteSize ≤ maxStrings)
    : Yields Counted (cache.remember o sep value) := by
  have bytes := small.bytes
  rw [maxStrings] at bytes short
  refine .bind (addSize_yields (by rw [max64]; omega)) fun {total} sum => ?_
  refine .bind (.ensure _ _) fun checked => .value ⟨?_, ?_, fun {other separator found} held => ?_⟩
  · exact short
  · exact of_decide_eq_true checked
  · rw [List.lookup_cons] at held
    split at held
    · obtain rfl := Option.some.inj held
      simp only [sum]
      omega
    · have counted := small.counted held
      simp only [sum]
      omega

/-- A string that is not dynamic has 65536 bytes in the file. -/
theorem staticString_yields (o : UInt32)
    : Yields (fun value => value.utf8ByteSize ≤ 4 * 65536) (staticString data o) := by
  rw [staticString]
  refine .bind (lengthWord_yields _ _) fun _ => .bind (u32_yields _) fun _ => ?_
  refine .bind (.ensure _ _) fun limit => .bind (take_yields _ _) fun {bytes} ⟨length, _⟩ => ?_
  rw [decide_eq_true_eq] at limit
  split
  case isTrue =>
    refine .bind (.ensure _ _) fun _ => .bind (.context _ _) fun {letters} decoded => .value ?_
    have size := utf8ByteSize_ofList letters
    have fewer := utf16_length decoded
    have half := units_length bytes
    omega
  case isFalse =>
    refine .bind (.ensure _ _) fun _ => .value ?_
    have size := utf8ByteSize_ofList (bytes.map fun byte => Char.ofNat byte.toNat)
    rw [List.length_map] at size
    rw [asciiText]
    omega

/-- A part of a dynamic string is counted. -/
theorem partString_yields {cache : Cache} (small : cache.Small) (s : UInt32)
    : Yields Counted (partString data s cache) := by
  rw [partString]
  split
  case isTrue => exact .value ⟨Nat.zero_le _, small⟩
  case isFalse =>
    split
    · rename_i known
      exact .value ⟨(small.counted known).trans small.bytes, small⟩
    · refine .bind (staticString_yields s) fun short => small.remember s _ ?_
      rw [maxStrings]
      omega

/-- What a walk over the parts of a dynamic string keeps. -/
structure Walk.Small (walk : Walk Cache) : Prop where
  cache : walk.cache.Small
  sum : (walk.parts.map String.utf8ByteSize).sum = walk.bytes
  bytes : walk.bytes < 65536
  parts : walk.parts.length ≤ walk.seen.size
  seen : walk.seen.size ≤ 4096

/-- An offset without its two flags leaves room for a word behind it. -/
theorem masked_lt (p : UInt32) : (p &&& 0x3FFFFFFF).toNat < 2 ^ 30 := by
  rw [UInt32.toNat_and]
  exact Nat.lt_of_le_of_lt Nat.and_le_right (by decide)

/-- One part of a dynamic string keeps the walk small. -/
theorem walkPart_yields {walk : Walk Cache} (small : walk.Small)
    : Yields (fun after => ∀ next ∈ after, next.Small)
        (walkPart data (partString data) walk) := by
  rw [walkPart]
  split
  case isTrue => exact .value fun next member => by cases member
  case isFalse =>
    refine .bind (.ensure _ _) fun checked => .bind (u32_yields _) fun {s} _ => ?_
    refine .bind (.ensure _ _) fun _ => .bind (partString_yields small.cache s) fun counted => ?_
    rename_i read
    obtain ⟨short, cache⟩ := counted
    have bytes := small.bytes
    rw [maxStrings] at short
    refine .bind (addSize_yields (by rw [max64]; omega)) fun {total} sum => ?_
    refine .bind (.ensure _ _) fun limit => ?_
    have room := masked_lt walk.p
    refine .bind (wordAt_yields (by rw [show (4 : UInt32).toNat = 4 from rfl]; omega)) fun _ => ?_
    refine .value fun next member => ?_
    obtain rfl := Option.some.inj member
    simp only [Bool.and_eq_true, Bool.not_eq_true', decide_eq_true_eq] at checked limit
    have grown := @Std.TreeSet.size_insert _ _ walk.seen _ (walk.p &&& 0x3FFFFFFF)
    rw [checked.1, if_neg Bool.false_ne_true] at grown
    have counted := small.parts
    constructor
    case cache => exact cache
    case sum => simp [small.sum, sum]
    case bytes => exact limit
    case parts =>
      rw [List.length_append, List.length_singleton, grown]
      omega
    case seen => exact checked.2

/-- A string that is decoded is short. -/
theorem decode_yields {cache : Cache} (small : cache.Small) (o : UInt32) (sep : Char)
    : Yields Counted (decode data (partString data) o sep cache) := by
  rw [decode]
  split
  case isTrue =>
    refine .bind (.ensure _ _) fun _ => ?_
    have start : Walk.Small { p := o, seen := ∅, parts := [], bytes := 0, cache } :=
      ⟨small, rfl, Nat.zero_lt_succ _, Nat.zero_le _, Nat.zero_le _⟩
    refine .bind (.loop (P := Walk.Small) walkPart_yields start) fun {walk} ends => .value ?_
    have joined := utf8ByteSize_intercalate sep walk.parts.reverse
    have parts := ends.parts
    have bytes := ends.bytes
    have seen := ends.seen
    rw [List.map_reverse, List.sum_reverse, List.length_reverse, ends.sum] at joined
    refine ⟨?_, ends.cache⟩
    simp only [maxStrings]
    omega
  case isFalse =>
    refine .bind (staticString_yields o) fun {text} short => .value ⟨?_, small⟩
    simp only [maxStrings]
    omega

/-- A string is counted. -/
theorem string_yields {cache : Cache} (small : cache.Small) (o : UInt32) (sep : Char)
    : Yields Counted (string data o sep cache) := by
  rw [string]
  split
  case isTrue => exact .value ⟨Nat.zero_le _, small⟩
  case isFalse =>
    split
    · rename_i known
      exact .value ⟨(small.counted known).trans small.bytes, small⟩
    · refine .bind (decode_yields small o sep) fun {value} read => ?_
      exact read.2.remember o sep read.1

-----------------------------------------------------------------------------------------
-- Types, keys and locations
-----------------------------------------------------------------------------------------

/-- A word of a record that was taken from the file. -/
theorem field_yields (small : data.length ≤ maxSize) {o n : UInt32} {size : Nat}
    (within : o.toNat + size ≤ data.length) (inside : n.toNat ≤ size)
    : Yields (fun _ => True) (wordAt data o n) := by
  rw [maxSize] at small
  exact wordAt_yields (by omega)

/-- A type name is counted. -/
theorem typeName_yields (small : data.length ≤ maxSize) {cache : Cache} (kept : cache.Small)
    (o : UInt32)
    : Yields Counted (typeName data (string data) o cache) := by
  refine .bind (.ensure _ _) fun _ => .bind (take_yields _ _) fun ⟨_, within⟩ => ?_
  refine .bind (field_yields small within (by decide)) fun _ => ?_
  exact string_yields kept _ _

/-- A key is counted. -/
theorem key_yields (small : data.length ≤ maxSize) {cache : Cache} (kept : cache.Small)
    (o : UInt32)
    : Yields
        (fun read => (∀ text ∈ read.1, text.utf8ByteSize ≤ maxStrings) ∧ read.2.Small)
        (key data (string data) o cache) := by
  refine .bind (take_yields _ _) fun ⟨_, within⟩ => .bind (u32_yields _) fun _ => ?_
  refine .bind (typeName_yields small kept _) fun {kind} typed => ?_
  refine .bind (field_yields small within (by decide)) fun {place} _ => ?_
  simp only
  split
  case isTrue =>
    refine .bind (take_yields _ _) fun ⟨_, inside⟩ => ?_
    rw [maxSize] at small
    refine .bind (addWord_yields (by rw [show (4 : UInt32).toNat = 4 from rfl]; omega)) fun _ => ?_
    refine .bind (take_yields _ _) fun _ => .bind (u32_yields _) fun _ => ?_
    refine .bind (.context _ _) fun _ => .bind (string_yields typed.2 _ _) fun {read} counted => ?_
    refine .value ⟨fun text member => ?_, counted.2⟩
    obtain rfl := Option.some.inj member
    exact counted.1
  case isFalse =>
    split
    · exact .value ⟨fun text member => (by cases member), typed.2⟩
    · exact .error _

/-- Options that are read have counted texts. -/
def Options.Small (options : Options) : Prop :=
  options.materialized ≤ maxStrings + 128

/-- Options are small. -/
theorem options_yields (small : data.length ≤ maxSize) {cache : Cache} (kept : cache.Small)
    (extra : UInt32)
    : Yields (fun read => (∀ options ∈ read.1, options.Small) ∧ read.2.Small)
        (options data (string data) extra cache) := by
  rw [options]
  split
  case isTrue => exact .value ⟨fun options member => (by cases member), kept⟩
  case isFalse =>
    refine .bind (take_yields _ _) fun ⟨_, record⟩ => .bind (u32_yields _) fun _ => ?_
    refine .bind (typeName_yields small kept _) fun {kind} typed => .bind (.ensure _ _) fun _ => ?_
    refine .bind (field_yields small record (by decide)) fun {a} _ => ?_
    refine .bind (take_yields _ _) fun ⟨_, within⟩ => .bind (u32_yields _) fun _ => ?_
    refine .bind (take_yields _ _) fun {bytes} ⟨length, _⟩ => ?_
    refine .bind (field_yields small within (by decide)) fun _ => ?_
    refine .bind (string_yields typed.2 _ _) fun {name} counted => ?_
    refine .bind (field_yields small within (by decide)) fun _ => ?_
    refine .bind (field_yields small within (by decide)) fun _ => ?_
    refine .value ⟨fun options member => ?_, counted.2⟩
    obtain rfl := Option.some.inj member
    have hash := utf8ByteSize_hexEncode bytes
    have short := counted.1
    simp only [Options.Small, Options.materialized]
    omega

/-- A location that is read has counted texts and the dependencies of one array. -/
structure Location.Small (location : Location) : Prop where
  texts : location.materialized ≤ 4 * maxStrings + 4 * 200000
  options : ∀ options ∈ location.options, options.Small
  dependencies : location.dependencies.length ≤ 200000

/-- A location is small. -/
theorem location_yields (small : data.length ≤ maxSize) {cache : Cache} (kept : cache.Small)
    (id : UInt32)
    : Yields (fun read => read.1.Small ∧ read.2.Small)
        (location data (string data) id cache) := by
  refine .bind (take_yields _ _) fun ⟨_, within⟩ => .bind (u32_yields _) fun _ => ?_
  refine .bind (string_yields kept _ _) fun {name} key => ?_
  refine .bind (field_yields small within (by decide)) fun _ => ?_
  refine .bind (string_yields key.2 _ _) fun {path} internal => ?_
  refine .bind (field_yields small within (by decide)) fun _ => ?_
  refine .bind (string_yields internal.2 _ _) fun {kind} provider => ?_
  refine .bind (field_yields small within (by decide)) fun _ => ?_
  refine .bind (words_yields small _) fun {ids} few => ?_
  refine .bind (field_yields small within (by decide)) fun _ => ?_
  refine .bind (typeName_yields small provider.2 _) fun {type} typed => ?_
  refine .bind (field_yields small within (by decide)) fun _ => ?_
  refine .bind (options_yields small typed.2 _) fun {extra} options =>
    .bind (.ensure _ _) fun _ => ?_
  refine .value ⟨⟨?_, options.1, few⟩, options.2⟩
  have texts := Nat.add_le_add (Nat.add_le_add key.1 internal.1)
    (Nat.add_le_add provider.1 typed.1)
  simp only [Location.materialized]
  omega

-----------------------------------------------------------------------------------------
-- The key table and the worklist
-----------------------------------------------------------------------------------------

/-- What the loop over the key table keeps. -/
structure Tables.Small (tables : Tables) : Prop where
  references : tables.references ≤ 1000000
  materialized : tables.materialized ≤ 128 * 2 ^ 20
  cache : tables.cache.Small

/-- One entry of the key table keeps its budgets. -/
theorem readEntry_yields (small : data.length ≤ maxSize) {tables : Tables}
    (kept : tables.Small) {a : UInt32} (within : a.toNat + 8 ≤ data.length)
    : Yields Tables.Small (readEntry data tables a) := by
  refine .bind (field_yields small within (by decide)) fun _ => ?_
  refine .bind (words_yields small _) fun {ids} few => ?_
  have references := kept.references
  have budget := kept.materialized
  refine .bind (addSize_yields (by rw [max64]; omega)) fun _ => .bind (.ensure _ _) fun limit => ?_
  rw [decide_eq_true_eq] at limit
  refine .bind (u32_yields _) fun _ => .bind (key_yields small kept.cache _) fun {read} named => ?_
  obtain ⟨texts, cache⟩ := named
  rcases read with ⟨none | name, after⟩
  · exact .value (P := Tables.Small) ⟨limit, kept.materialized, cache⟩
  · have short := texts name rfl
    rw [maxStrings] at short
    refine .bind (addSize_yields (by rw [max64]; omega)) fun _ => ?_
    refine .bind (.ensure _ _) fun total => .bind (.ensure _ _) fun _ => .value ?_
    exact ⟨limit, of_decide_eq_true total, cache⟩

/-- The key table is within its budgets, and the file within its limit. -/
theorem readTables_yields (data : List UInt8)
    : Yields (fun tables => tables.Small ∧ data.length ≤ maxSize) (readTables data) := by
  refine .bind (.ensure _ _) fun limit => ?_
  have small : data.length ≤ maxSize := of_decide_eq_true limit
  refine .bind (u32_yields _) fun _ => .bind (.ensure _ _) fun _ => ?_
  refine .bind (u32_yields _) fun _ => .bind (.ensure _ _) fun _ => ?_
  refine .bind (take_yields _ _) fun _ => ?_
  refine .bind (.bind (u32_yields _) fun _ => array_yields small _ (by decide)) fun places => ?_
  have start : Tables.empty.Small := ⟨Nat.zero_le _, Nat.zero_le _, .empty⟩
  refine (Yields.foldlM (P := Tables.Small) ?_ start).imp fun kept => ⟨kept, small⟩
  exact fun a member {tables} kept => readEntry_yields small kept (places.2 a member)

/-- What the loop over the pending ids keeps. -/
structure Progress.Small (progress : Progress) : Prop where
  edges : progress.edges ≤ 1000000
  materialized : progress.materialized ≤ 128 * 2 ^ 20
  cache : progress.cache.Small

/-- One round over the pending ids keeps the budgets. -/
theorem locateFirst_yields (small : data.length ≤ maxSize) {progress : Progress}
    (kept : progress.Small)
    : Yields (fun after => ∀ next ∈ after, next.Small) (locateFirst data progress) := by
  rw [locateFirst]
  split
  · exact .value fun next member => by cases member
  · simp only
    split
    case isTrue =>
      refine .value fun next member => ?_
      obtain rfl := Option.some.inj member
      exact ⟨kept.edges, kept.materialized, kept.cache⟩
    case isFalse =>
      refine .bind (.ensure _ _) fun _ =>
        .bind (location_yields small kept.cache _) fun {read} => ?_
      rintro ⟨found, cache⟩
      have texts := found.texts
      have dependencies := found.dependencies
      have budget := kept.materialized
      have limit := kept.edges
      rw [maxStrings] at texts
      have extra : read.1.options.elim 0 Options.materialized ≤ maxStrings + 128 := by
        cases given : read.1.options with
        | none => exact Nat.zero_le _
        | some options => exact found.options options given
      rw [maxStrings] at extra
      refine .bind (addSize_yields (by rw [max64]; omega)) fun first => ?_
      refine .bind (addSize_yields (by rw [max64]; omega)) fun _ =>
        .bind (.ensure _ _) fun total => ?_
      refine .bind (addSize_yields (by rw [max64]; omega)) fun _ =>
        .bind (.ensure _ _) fun edges => ?_
      refine .value fun next member => ?_
      obtain rfl := Option.some.inj member
      exact ⟨of_decide_eq_true edges, of_decide_eq_true total, cache⟩

/-- Parsing yields a catalog or an error. -/
theorem parse_noPanic (data : List UInt8) : NoPanic (parse data) := by
  refine Yields.calm (P := fun _ => True) ?_
  refine .bind (readTables_yields data) fun {tables} ⟨kept, small⟩ => ?_
  have start : Progress.Small
      {
        pending := tables.pending
        locations := ∅
        edges := 0
        materialized := tables.materialized
        cache := tables.cache
      } :=
    ⟨Nat.zero_le _, kept.materialized, kept.cache⟩
  exact .bind (.loop (P := Progress.Small) (locateFirst_yields small) start) fun _ => .value trivial

-----------------------------------------------------------------------------------------
-- Recursion and chains
-----------------------------------------------------------------------------------------

/-- `Reader::string` with its recursion, which panics below the given depth. -/
def stringWithin (data : List UInt8) : Nat → ReadString Cache
  | 0, _, _, _ => .error (.panic "recursion")
  | depth + 1, o, sep, cache =>
      if o = null then .ok ("", cache)
      else
        match cache.strings.lookup (o, sep) with
        | some value => .ok (value, cache)
        | none => do
            let (value, cache) ←
              decode data (fun s => stringWithin data depth s '\x00') o sep cache
            cache.remember o sep value

/-- A walk calls its part function for offsets that are null or not dynamic only. -/
theorem walkPart_congr {κ : Type} {part part' : UInt32 → κ → Except Failure (String × κ)}
    (agree : ∀ {s : UInt32}, dynamic s = false ∨ s = null → part s = part' s)
    : walkPart data part = walkPart data part' := by
  funext walk
  rw [walkPart, walkPart]
  split
  case isTrue => rfl
  case isFalse =>
    refine bind_congr fun _ => bind_congr fun s => ?_
    cases kind : !dynamic s || s == null with
    | false => rfl
    | true =>
        have either : dynamic s = false ∨ s = null := by simpa using kind
        rw [agree either]

/-- Loops with the same body are the same. -/
theorem decode_congr {κ : Type} {part part' : UInt32 → κ → Except Failure (String × κ)}
    (agree : ∀ {s : UInt32}, dynamic s = false ∨ s = null → part s = part' s) (o : UInt32)
    (sep : Char) (cache : κ)
    : decode data part o sep cache = decode data part' o sep cache := by
  have same := @walkPart_congr data _ _ _ agree
  rw [decode, decode]
  simp only [same]

/-- A part needs one call. -/
theorem stringWithin_part {s : UInt32} (part : dynamic s = false ∨ s = null) (depth : Nat)
    : stringWithin data (depth + 1) s '\x00' = partString data s := by
  funext cache
  rw [← string_part data part cache, stringWithin, string]
  split
  case isTrue => rfl
  case isFalse present =>
    have plain := part.resolve_right present
    cases cache.strings.lookup (s, '\x00') with
    | some value => rfl
    | none => simp only [decode, plain, Bool.false_eq_true, if_false]

/-- A string needs two calls. -/
theorem stringWithin_string (data : List UInt8) (depth : Nat)
    : stringWithin data (depth + 2) = string data := by
  funext o sep cache
  rw [stringWithin, string]
  split
  case isTrue => rfl
  case isFalse =>
    cases cache.strings.lookup (o, sep) with
    | some value => rfl
    | none => simp only [@decode_congr data _ _ _ fun {s} part => stringWithin_part part depth]

/-- (Parts data p offsets) holds when the linked parts from `p` are at `offsets`, up to the
null link.
-/
inductive Parts (data : List UInt8) : UInt32 → List UInt32 → Prop where
  | nil : Parts data null []
  | cons {p next : UInt32} {offsets : List UInt32} (present : p ≠ null)
    (link : wordAt data (p &&& 0x3FFFFFFF) 4 = .ok next) (rest : Parts data next offsets)
    : Parts data p ((p &&& 0x3FFFFFFF) :: offsets)

/-- A walk that stops has seen the parts of a chain that ends, each once, by induction on
its rounds.
-/
theorem walk_parts {κ : Type} {part : UInt32 → κ → Except Failure (String × κ)}
    {walk last : Walk κ} {count : Nat}
    (rounds : Rounds (walkPart data part) walk count (.ok last))
    : ∃ offsets, Parts data walk.p offsets ∧ offsets.Nodup
        ∧ (∀ a ∈ offsets, a ∉ walk.seen)
        ∧ (offsets ≠ [] → walk.seen.size + offsets.length ≤ 4096) := by
  generalize ended : (Except.ok last : Except Failure (Walk κ)) = outcome at rounds
  induction rounds with
  | failed => cases ended
  | stopped round =>
      rw [walkPart_stops.mp round]
      exact ⟨[], .nil, .nil, by simp, by simp⟩
  | @continued walk after count outcome round rest ih =>
      obtain ⟨offsets, chain, distinct, unseen, few⟩ := ih ended
      rw [walkPart] at round
      split at round
      case isTrue => cases round
      case isFalse present =>
        simp only [bind_ok, pure_ok, ensure_ok, Option.some.injEq, Bool.and_eq_true,
          decide_eq_true_eq, Bool.not_eq_true'] at round
        obtain ⟨_, ⟨fresh, limit⟩, _, _, _, _, _, _, _, _, _, _, next, link, rfl⟩ := round
        simp only at chain unseen few
        have grown := @Std.TreeSet.size_insert _ _ walk.seen _ (walk.p &&& 0x3FFFFFFF)
        rw [fresh, if_neg Bool.false_ne_true] at grown
        have outside : ∀ a ∈ offsets, ¬(walk.p &&& 0x3FFFFFFF = a) ∧ a ∉ walk.seen := by
          intro a member
          simpa [Std.TreeSet.mem_insert] using unseen a member
        refine ⟨_, .cons present link chain, ?_, ?_, fun _ => ?_⟩
        · exact List.nodup_cons.mpr ⟨fun member => (outside _ member).1 rfl, distinct⟩
        · refine List.forall_mem_cons.mpr ⟨?_, fun a member => (outside a member).2⟩
          rw [← Std.TreeSet.contains_iff_mem, fresh]
          exact Bool.false_ne_true
        · rw [List.length_cons]
          rcases offsets with _ | ⟨second, rest⟩
          · simp only [List.length_nil]
            omega
          · have bound := few (List.cons_ne_nil _ _)
            omega

/-- A dynamic string that is read has a chain that ends, of distinct and few parts. -/
theorem decode_parts {κ : Type} {part : UInt32 → κ → Except Failure (String × κ)} {o : UInt32}
    {sep : Char} {cache : κ} {read : String × κ} (kind : dynamic o = true)
    (given : decode data part o sep cache = .ok read)
    : ∃ offsets, Parts data o offsets ∧ offsets.Nodup ∧ offsets.length ≤ 4096 := by
  rw [decode, if_pos kind] at given
  obtain ⟨_, -, last, walked, -⟩ := bind_ok.mp given |>.imp fun _ => And.imp_right bind_ok.mp
  obtain ⟨count, -, rounds⟩ := loop_rounds (@walkPart_lowers data κ part)
    { p := o, seen := ∅, parts := [], bytes := 0, cache }
  rw [walked] at rounds
  obtain ⟨offsets, chain, distinct, -, few⟩ := walk_parts rounds
  refine ⟨offsets, chain, distinct, ?_⟩
  rcases offsets with _ | ⟨first, rest⟩
  · exact Nat.zero_le _
  · have bound := few (List.cons_ne_nil _ _)
    omega

-----------------------------------------------------------------------------------------
-- Parsing
-----------------------------------------------------------------------------------------

/-- Parsing is safe: it ends with a catalog or an error, both loops that have no list to go
through are bounded, strings recurse once, and only chains that end are read.
-/
structure ParsesSafely (data : List UInt8) : Prop where
  ends
    : (∃ catalog, parse data = .ok catalog)
      ∨ ∃ message, parse data = .error (.error message)
  worklist
    : ∀ (progress : Progress),
        ∃ count ≤ progress.measure,
          Rounds (locateFirst data) progress count
            (loop (locateFirst data) (locateFirst_lowers data) progress)
  depth : ∀ (depth : Nat), stringWithin data (depth + 2) = string data
  walk
    : ∀ {κ : Type} (part : UInt32 → κ → Except Failure (String × κ)) (walk : Walk κ),
        ∃ count ≤ 4097 - walk.seen.size,
          Rounds (walkPart data part) walk count
            (loop (walkPart data part) (walkPart_lowers data) walk)
  chains
    : ∀ {κ : Type} {part : UInt32 → κ → Except Failure (String × κ)} {o : UInt32}
        {sep : Char} {cache : κ} {read : String × κ},
        dynamic o = true
        → decode data part o sep cache = .ok read
        → ∃ offsets, Parts data o offsets ∧ offsets.Nodup ∧ offsets.length ≤ 4096

/-- Parsing any bytes is safe. -/
theorem parse_is_safe (data : List UInt8) : ParsesSafely data where
  ends := by
    cases parsed : parse data with
    | ok catalog => exact Or.inl ⟨catalog, rfl⟩
    | error failure =>
        cases failure with
        | error message => exact Or.inr ⟨message, rfl⟩
        | panic message => exact absurd parsed (parse_noPanic data message)
  worklist := loop_rounds (locateFirst_lowers data)
  depth := stringWithin_string data
  walk := fun _ walk => loop_rounds (walkPart_lowers data) walk
  chains := decode_parts

end MoenotesAssets.Catalogs
