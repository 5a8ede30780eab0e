import MoenotesAssets.Catalog.Safety
import MoenotesAssets.Foundation.Mirroring

/-! `catalog::Reader` with what its failing methods leave behind: each method is a program
over the cache. Any sequence of reads returns what reading the data directly returns, until
the budget of the cached strings is exceeded.
-/

namespace MoenotesAssets.Catalogs

open Foundation Foundation.Bytes Foundation.Machine

namespace Reader

variable (data : List UInt8)

-----------------------------------------------------------------------------------------
-- Methods
-----------------------------------------------------------------------------------------

/-- A method of a reader: `string_bytes` and the strings stay as they are when it fails. -/
abbrev Method (α : Type) := Program Cache Failure α

/-- What is computed from the data alone. -/
abbrev lift {α : Type} (computed : Except Failure α) : Method α := Program.lift computed

/-- `self.strings.get` -/
def cached (o : UInt32) (sep : Char) : Method (Option String) :=
  Program.observe fun cache => .ok (cache.strings.lookup (o, sep))

/-- A value read for the first time: its bytes are counted before the budget is checked. -/
def remember (o : UInt32) (sep : Char) (value : String) : Method String := do
  let bytes ← Program.observe fun cache => addSize cache.bytes value.utf8ByteSize
  Program.change fun cache => { cache with bytes }
  lift (ensure (bytes ≤ 64 * 2 ^ 20) (.error "catalog string budget"))
  Program.change fun cache => { cache with strings := ((o, sep), value) :: cache.strings }
  return value

/-- The recursive call of `Reader::string` for a part, whose offset is null or not dynamic. -/
def part (s : UInt32) : Method String :=
  if s = null then return ""
  else do
    match ← cached s '\x00' with
    | some value => return value
    | none => do remember s '\x00' (← lift (staticString data s))

/-- The loop over the parts of a dynamic string. -/
def walkPart (walk : Walk Unit) : Method (Option (Walk Unit)) :=
  if walk.p = null then return none
  else do
    let a := walk.p &&& 0x3FFFFFFF
    let seen := walk.seen.insert a
    lift (ensure (!walk.seen.contains a && seen.size ≤ 4096) (.error "cyclic/long string"))
    let s ← lift (u32 data a)
    lift (ensure (!dynamic s || s == null) (.error "nested dynamic string"))
    let text ← part data s
    let bytes ← lift (addSize walk.bytes text.utf8ByteSize)
    lift (ensure (bytes < 65536) (.error "string too long"))
    let p ← lift (wordAt data a 4)
    return some { p, seen, parts := walk.parts ++ [text], bytes, cache := () }

/-- The value of `Reader::string` at an offset that is neither null nor cached. The loop has
4097 rounds at most: its last one finds too many parts.
-/
def decode (o : UInt32) (sep : Char) : Method String :=
  if dynamic o then do
    lift (ensure (sep ≠ '\x00') (.error "dynamic string without separator"))
    let walk ←
      Program.iterate (walkPart data) 4098
        { p := o, seen := ∅, parts := [], bytes := 0, cache := () }
    return String.intercalate (String.singleton sep) walk.parts.reverse
  else lift (staticString data o)

/-- `Reader::string` -/
def string (o : UInt32) (sep : Char) : Method String :=
  if o = null then return ""
  else do
    match ← cached o sep with
    | some value => return value
    | none => do remember o sep (← decode data o sep)

/-- `Reader::type_name` -/
def typeName (o : UInt32) : Method String := do
  lift (ensure (o ≠ null) (.error "null type"))
  let _ ← lift (take data o 8)
  string data (← lift (wordAt data o 4)) '.'

/-- `Reader::key` -/
def key (o : UInt32) : Method (Option String) := do
  let _ ← lift (take data o 8)
  let kind ← typeName data (← lift (u32 data o))
  let at' ← lift (wordAt data o 4)
  if kind = "System.String" then do
    let _ ← lift (take data at' 6)
    let unit := littleEndian (← lift (take data (← lift (addWord at' 4)) 2))
    let o ← lift (u32 data at')
    let sep ← lift (context (separator unit) (.error "separator"))
    return some (← string data o sep)
  else if kind = "System.Int32" ∨ kind = "System.Int64" ∨ kind = "System.Boolean" then
    return none
  else
    lift (.error (.error ("unsupported key type " ++ kind)))

/-- The options of a location, at the offset `extra`. -/
def options (extra : UInt32) : Method (Option Options) :=
  if extra = null then return none
  else do
    let _ ← lift (take data extra 8)
    let kind ← typeName data (← lift (u32 data extra))
    lift
      (ensure
        (kind == "UnityEngine.ResourceManagement.ResourceProviders.AssetBundleRequestOptions")
        (.error "unsupported options"))
    let a ← lift (wordAt data extra 4)
    let _ ← lift (take data a 20)
    let hash := hexEncode (← lift (take data (← lift (u32 data a)) 16))
    let bundleName ← string data (← lift (wordAt data a 4)) '_'
    let crc ← lift (wordAt data a 8)
    let size := (← lift (wordAt data a 12)).toUInt64
    return some { hash, bundleName, crc, size }

/-- `Reader::location` -/
def location (id : UInt32) : Method Location := do
  let _ ← lift (take data id 28)
  let key ← string data (← lift (u32 data id)) '/'
  let internal ← string data (← lift (wordAt data id 4)) '/'
  let provider ← string data (← lift (wordAt data id 8)) '.'
  let dependencies ← lift (words data (← lift (wordAt data id 12)))
  let resourceType ← typeName data (← lift (wordAt data id 24))
  let options ← options data (← lift (wordAt data id 20))
  lift (ensure (!internal.isEmpty && !provider.isEmpty) (.error "empty location"))
  return { id, key, internal, provider, resourceType, dependencies, options }

-----------------------------------------------------------------------------------------
-- The methods that return
-----------------------------------------------------------------------------------------

variable {data}

/-- A value that is remembered. -/
theorem remember_outcome (o : UInt32) (sep : Char) (value : String) (cache : Cache)
    : (remember o sep value).outcome cache = cache.remember o sep value := by
  rw [remember, Cache.remember]
  simp only [Program.outcome_bind, Program.outcome_observe, Program.outcome_change,
    Program.outcome_lift, Program.outcome_pure, bind_assoc, ok_bind]
  rfl

/-- A part that is returned. -/
theorem part_outcome (s : UInt32) (cache : Cache)
    : (part data s).outcome cache = partString data s cache := by
  rw [part, partString]
  split
  · rfl
  · simp only [cached, Program.outcome_bind, Program.outcome_observe, ok_bind]
    cases cache.strings.lookup (s, '\x00') with
    | some value => rfl
    | none =>
        simp only [Program.outcome_bind, Program.outcome_lift, bind_assoc, ok_bind,
          remember_outcome]

/-- A walk with the cache it has reached. -/
def join (walk : Walk Unit) (cache : Cache) : Walk Cache :=
  { p := walk.p, seen := walk.seen, parts := walk.parts, bytes := walk.bytes, cache }

/-- One part of a walk. -/
theorem walkPart_outcome (walk : Walk Unit) (cache : Cache)
    : Catalogs.walkPart data (partString data) (join walk cache)
      = (walkPart data walk).outcome cache >>= fun given =>
          .ok (given.1.map fun next => join next given.2) := by
  rw [Catalogs.walkPart, walkPart, join]
  split
  · rfl
  · simp only [Program.outcome_bind, Program.outcome_lift, bind_assoc, ok_bind, part_outcome]
    rfl

/-- A walk that stops keeps its cache. -/
theorem walkPart_stays {walk : Walk Unit} {cache after : Cache}
    (stopped : (walkPart data walk).outcome cache = .ok (none, after))
    : after = cache := by
  rw [walkPart] at stopped
  split at stopped
  · exact (Prod.mk.inj (Except.ok.inj stopped)).2.symm
  · simp only [Program.outcome_bind, Program.outcome_lift, Program.outcome_pure, bind_assoc,
      ok_bind, bind_ok, Except.ok.injEq, Prod.mk.injEq, reduceCtorEq, false_and, and_false,
      exists_false] at stopped

/-- A decoded value. -/
theorem decode_outcome (o : UInt32) (sep : Char) (cache : Cache)
    : (decode data o sep).outcome cache = Catalogs.decode data (partString data) o sep cache := by
  rw [decode, Catalogs.decode]
  split
  · simp only [Program.outcome_bind, Program.outcome_lift, Program.outcome_pure, bind_assoc,
      ok_bind]
    have lowers : Lowers (Catalogs.walkPart data (partString data)) _ := walkPart_lowers data
    obtain ⟨count, few, rounds⟩ := loop_rounds lowers
      { p := o, seen := ∅, parts := [], bytes := 0, cache }
    have start : ({ p := o, seen := ∅, parts := [], bytes := 0, cache } : Walk Cache)
        = join { p := o, seen := ∅, parts := [], bytes := 0, cache := () } cache := rfl
    rw [start] at rounds
    rw [start, ← Program.outcome_iterate walkPart_outcome walkPart_stays rounds
      (Nat.lt_succ_of_le few)]
    simp only [bind_assoc, ok_bind]
    rfl
  · rw [Program.outcome_lift]
    rfl

/-- A string. -/
theorem string_outcome (o : UInt32) (sep : Char) (cache : Cache)
    : (string data o sep).outcome cache = Catalogs.string data o sep cache := by
  rw [string, Catalogs.string]
  split
  · rfl
  · simp only [cached, Program.outcome_bind, Program.outcome_observe, ok_bind]
    cases cache.strings.lookup (o, sep) with
    | some value => rfl
    | none => simp only [Program.outcome_bind, decode_outcome, remember_outcome]

/-- A type name. -/
theorem typeName_outcome (o : UInt32) (cache : Cache)
    : (typeName data o).outcome cache = Catalogs.typeName data (Catalogs.string data) o cache := by
  rw [typeName, Catalogs.typeName]
  simp only [Program.outcome_bind, Program.outcome_lift, bind_assoc, ok_bind, string_outcome]

/-- A key. -/
theorem key_outcome (o : UInt32) (cache : Cache)
    : (key data o).outcome cache = Catalogs.key data (Catalogs.string data) o cache := by
  rw [key, Catalogs.key]
  simp only [Program.outcome_bind, Program.outcome_lift, Program.outcome_ite, Program.outcome_pure,
    bind_assoc, ok_bind, typeName_outcome, string_outcome]
  rfl

/-- The options of a location. -/
theorem options_outcome (extra : UInt32) (cache : Cache)
    : (options data extra).outcome cache
      = Catalogs.options data (Catalogs.string data) extra cache := by
  rw [options, Catalogs.options]
  simp only [Program.outcome_bind, Program.outcome_lift, Program.outcome_ite, Program.outcome_pure,
    bind_assoc, ok_bind, typeName_outcome, string_outcome]
  rfl

/-- A location. -/
theorem location_outcome (id : UInt32) (cache : Cache)
    : (location data id).outcome cache
      = Catalogs.location data (Catalogs.string data) id cache := by
  rw [location, Catalogs.location]
  simp only [Program.outcome_bind, Program.outcome_lift, Program.outcome_pure, bind_assoc, ok_bind,
    typeName_outcome, string_outcome, options_outcome]
  rfl

-----------------------------------------------------------------------------------------
-- Remembering
-----------------------------------------------------------------------------------------

/-- The error of a reader whose strings exceed their budget. -/
def budgetError : Failure := .error "catalog string budget"

/-- The panic of a sum of string lengths that exceeds a counter. -/
def overflow : Failure := .panic "attempt to add with overflow"

/-- How remembering a value ends: the sum does not fit into a counter, it exceeds the budget
and stays there, or the value is stored.
-/
theorem remember_cases (o : UInt32) (sep : Char) (value : String) (cache : Cache)
    : (remember o sep value cache).result = .error overflow
        ∧ (remember o sep value cache).last = cache
        ∧ max64 < cache.bytes + value.utf8ByteSize
      ∨ (remember o sep value cache).result = .error budgetError
        ∧ (remember o sep value cache).last
          = { cache with bytes := cache.bytes + value.utf8ByteSize }
        ∧ maxStrings < cache.bytes + value.utf8ByteSize
      ∨ (remember o sep value cache).result = .ok value
        ∧ (remember o sep value cache).last
          = {
              strings := ((o, sep), value) :: cache.strings
              bytes := cache.bytes + value.utf8ByteSize
            }
        ∧ cache.bytes + value.utf8ByteSize ≤ maxStrings := by
  rw [remember]
  by_cases fits : cache.bytes + value.utf8ByteSize ≤ max64
  · right
    rw [Program.bind_returned (addSize_eq fits)]
    by_cases within : cache.bytes + value.utf8ByteSize ≤ maxStrings
    · right
      have passes := ensure_passes (decide_eq_true within) budgetError
      rw [Program.bind_returned rfl, Program.bind_returned passes]
      exact ⟨rfl, rfl, within⟩
    · left
      have fails : ensure (decide (cache.bytes + value.utf8ByteSize ≤ maxStrings)) budgetError
          = .error budgetError :=
        ensure_error.mpr ⟨decide_eq_false within, rfl⟩
      rw [Program.bind_returned rfl, Program.bind_failed fails]
      exact ⟨rfl, rfl, Nat.lt_of_not_le within⟩
  · left
    rw [Program.bind_failed (if_neg fits)]
    exact ⟨rfl, rfl, Nat.lt_of_not_le fits⟩

-----------------------------------------------------------------------------------------
-- Lengths of strings
-----------------------------------------------------------------------------------------

/-- The longest part of a dynamic string. -/
def maxPart : Nat := 4 * 65536

/-- What a walk over the parts of a dynamic string keeps of their lengths. -/
structure Short (walk : Walk Unit) : Prop where
  sum : (walk.parts.map String.utf8ByteSize).sum = walk.bytes
  bytes : walk.bytes < 65536
  parts : walk.parts.length ≤ walk.seen.size
  seen : walk.seen.size ≤ 4096

/-- One more part keeps a walk short. -/
theorem Short.next {walk after : Walk Unit} (short : Short walk)
    (round : Catalogs.walkPart data (plainPart data) walk = .ok (some after))
    : Short after := by
  rw [Catalogs.walkPart] at round
  split at round
  · cases round
  · simp only [bind_ok, pure_ok, ensure_ok, addSize_ok, Option.some.injEq, Bool.and_eq_true,
      decide_eq_true_eq, Bool.not_eq_true'] at round
    obtain ⟨_, ⟨fresh, limit⟩, _, _, _, _, ⟨text, _⟩, _, total, ⟨sum, _⟩, _, below, _, _, rfl⟩ :=
      round
    have grown := @Std.TreeSet.size_insert _ _ walk.seen _ (walk.p &&& 0x3FFFFFFF)
    rw [fresh, if_neg Bool.false_ne_true] at grown
    have counted := short.parts
    constructor
    case sum => simp [short.sum, ← sum]
    case bytes => exact below
    case parts =>
      rw [List.length_append, List.length_singleton, grown]
      omega
    case seen => exact limit

/-- A string of the data is short. -/
theorem plainString_short {o : UInt32} {sep : Char} {value : String}
    (read : plainString data o sep () = .ok (value, ()))
    : value.utf8ByteSize ≤ maxPart := by
  rw [plainString] at read
  split at read
  · obtain ⟨rfl, -⟩ := Prod.mk.inj (Except.ok.inj read)
    exact Nat.zero_le _
  · rw [Catalogs.decode] at read
    split at read
    · simp only [bind_ok, pure_ok, Prod.mk.injEq] at read
      obtain ⟨_, _, walk, walked, rfl, -⟩ := read
      have start : Short { p := o, seen := ∅, parts := [], bytes := 0, cache := () } :=
        ⟨rfl, Nat.zero_lt_succ _, Nat.zero_le _, Nat.zero_le _⟩
      have short := (loop_invariant walked (fun short round => short.next round) start).1
      have joined := utf8ByteSize_intercalate sep walk.parts.reverse
      have parts := short.parts
      have bytes := short.bytes
      have seen := short.seen
      rw [List.map_reverse, List.sum_reverse, List.length_reverse, short.sum] at joined
      rw [maxPart]
      omega
    · obtain ⟨text, given, returned⟩ := bind_ok.mp read
      obtain ⟨rfl, -⟩ := Prod.mk.inj (pure_ok.mp returned)
      exact (staticString_yields o).holds given

/-- A part is a string of the data under no separator. -/
theorem plainString_part {s : UInt32} (kind : dynamic s = false ∨ s = null)
    : plainString data s '\x00' () = plainPart data s () := by
  rw [plainString, plainPart]
  split
  · rfl
  · rename_i present
    rw [Catalogs.decode, if_neg (by simp [kind.resolve_right present])]

-----------------------------------------------------------------------------------------
-- Reads under an invariant of the cache
-----------------------------------------------------------------------------------------

/-- (Regime data seps P excuse) holds when remembering a string of the data under one of the
separators `seps` leads from `P n` to `P (n + k)`, for its `k` bytes, unless it fails with
`excuse`.
-/
structure Regime (data : List UInt8) (seps : Char → Prop) (P : Nat → Cache → Prop)
    (excuse : Nat → Failure → Cache → Prop)
    : Prop where
  weaken : ∀ {n m : Nat} {cache : Cache}, n ≤ m → P n cache → P m cache
  excuses
    : ∀ {n m : Nat} {error : Failure} {cache : Cache},
        n ≤ m → excuse n error cache → excuse m error cache
  sound : ∀ {n : Nat} {cache : Cache}, P n cache → cache.Sound data
  remembers
    : ∀ {n : Nat} {o : UInt32} {sep : Char} {value : String},
        seps sep
        → plainString data o sep () = .ok (value, ())
        → Program.Mirrors (fun cache => P n cache ∧ cache.strings.lookup (o, sep) = none)
            (remember o sep value) (.ok (value, ()) : Except Failure (String × Unit))
            (fun given other cache =>
              other = (given, ()) ∧ given = value ∧ P (n + value.utf8ByteSize) cache)
            (P n) (excuse (n + value.utf8ByteSize))

variable {seps : Char → Prop} {P : Nat → Cache → Prop} {excuse : Nat → Failure → Cache → Prop}

/-- Two strings are remembered apart: one that is not cached stays so while strings under
other separators are remembered.
-/
theorem Regime.absent (regime : Regime data seps P excuse) (o : UInt32) (sep : Char)
    : Regime data (fun other => seps other ∧ other ≠ sep)
        (fun n cache => P n cache ∧ cache.strings.lookup (o, sep) = none) excuse where
  weaken := fun less holds => ⟨regime.weaken less holds.1, holds.2⟩
  excuses := regime.excuses
  sound := fun holds => regime.sound holds.1
  remembers := by
    intro n place other value allowed read
    have mirrors := regime.remembers (n := n) allowed.1 read
    have stays {cache : Cache} (missing : cache.strings.lookup (o, sep) = none)
        : (remember place other value cache).last.strings.lookup (o, sep) = none := by
      rcases remember_cases place other value cache with ⟨-, same, -⟩ | ⟨-, same, -⟩ | ⟨-, same, -⟩
      · rw [same, missing]
      · rw [same]
        exact missing
      · have apart : ((o, sep) == (place, other)) = false :=
          beq_false_of_ne fun clash => allowed.2 (Prod.mk.inj clash).2.symm
        rw [same, List.lookup_cons, apart, missing]
    constructor
    case returns =>
      intro cache given holds same
      obtain ⟨found, plainly, paired, kept, after⟩ :=
        mirrors.returns ⟨holds.1.1, holds.2⟩ same
      exact ⟨found, plainly, paired, kept, after, stays holds.1.2⟩
    case fails =>
      intro cache error holds same
      rcases mirrors.fails ⟨holds.1.1, holds.2⟩ same with ⟨plainly, -⟩ | excused
      · cases plainly
      · exact Or.inr excused

/-- A cached value is the one in the data. -/
theorem Regime.cached (regime : Regime data seps P excuse) {α β : Type} {n : Nat} {o : UInt32}
    {sep : Char} {known : String → Method α} {fresh : Method α} {plain : Except Failure β}
    {post : α → β → Cache → Prop} {broken : Cache → Prop} {excuse' : Failure → Cache → Prop}
    (hit
      : ∀ {value : String},
          plainString data o sep () = .ok (value, ())
          → Program.Mirrors (P n) (known value) plain post broken excuse')
    (miss
      : Program.Mirrors (fun cache => P n cache ∧ cache.strings.lookup (o, sep) = none)
          fresh plain post broken excuse')
    : Program.Mirrors (P n)
        (do
          match ← cached o sep with
          | some value => known value
          | none => fresh)
        plain post broken excuse' := by
  have looked (cache : Cache) : ((do
        match ← Reader.cached o sep with
        | some value => known value
        | none => fresh) : Method α) cache
      = (match cache.strings.lookup (o, sep) with
        | some value => known value
        | none => fresh) cache := by
    rw [Reader.cached, Program.bind_returned rfl]
    rfl
  constructor
  case returns =>
    intro cache value holds same
    rw [looked] at same ⊢
    cases found : cache.strings.lookup (o, sep) with
    | some known =>
        rw [found] at same
        exact (hit (regime.sound holds found)).returns holds same
    | none =>
        rw [found] at same
        exact miss.returns ⟨holds, found⟩ same
  case fails =>
    intro cache error holds same
    rw [looked] at same ⊢
    cases found : cache.strings.lookup (o, sep) with
    | some known =>
        rw [found] at same
        exact (hit (regime.sound holds found)).fails holds same
    | none =>
        rw [found] at same
        exact miss.fails ⟨holds, found⟩ same

/-- A part of a dynamic string. -/
theorem Regime.part (regime : Regime data seps P excuse) (allowed : seps '\x00') {n : Nat}
    {s : UInt32} (kind : dynamic s = false ∨ s = null)
    : Program.Mirrors (P n) (part data s) (plainPart data s ())
        (fun value other cache =>
          other = (value, ()) ∧ value.utf8ByteSize ≤ maxPart
            ∧ P (n + value.utf8ByteSize) cache)
        (P n) (excuse (n + maxPart)) := by
  have plainly : plainString data s '\x00' () = plainPart data s () := plainString_part kind
  rw [Reader.part]
  split
  · rename_i missing
    rw [plainPart, if_pos missing]
    exact .pure fun holds => ⟨rfl, Nat.zero_le _, holds⟩
  · rename_i present
    refine regime.cached (fun {value} read => ?_) ?_
    · rw [← plainly, read]
      exact .pure fun holds =>
        ⟨rfl, plainString_short read, regime.weaken (Nat.le_add_right _ _) holds⟩
    · rw [plainPart, if_neg present]
      refine .lift_bind (fun {text} found => ?_) fun holds => holds.1
      have read : plainString data s '\x00' () = .ok (text, ()) := by
        rw [plainly, plainPart, if_neg present, found]
        rfl
      have short := plainString_short read
      refine (regime.remembers allowed read).imp id ?_ id (regime.excuses (by omega))
      rintro value other cache ⟨rfl, rfl, after⟩
      exact ⟨rfl, short, after⟩

/-- One part of a walk; the walk has counted the bytes of its parts. -/
theorem Regime.walkPart (regime : Regime data seps P excuse) (allowed : seps '\x00') {n : Nat}
    {walk : Walk Unit}
    : Program.Mirrors (fun cache => walk.bytes < 65536 ∧ P (n + walk.bytes) cache)
        (walkPart data walk) (Catalogs.walkPart data (plainPart data) walk)
        (fun next other cache =>
          other = next
          ∧ next.elim (walk.bytes < 65536 ∧ P (n + walk.bytes) cache)
              fun after => after.bytes < 65536 ∧ P (n + after.bytes) cache)
        (P (n + (65536 + maxPart))) (excuse (n + (65536 + maxPart))) := by
  have whole {cache : Cache} (holds : walk.bytes < 65536 ∧ P (n + walk.bytes) cache)
      : P (n + (65536 + maxPart)) cache :=
    regime.weaken (by omega) holds.2
  rw [Reader.walkPart, Catalogs.walkPart]
  split
  · exact .pure fun holds => ⟨rfl, holds⟩
  · refine .lift_bind (fun _ => .lift_bind (fun {s} _ => .lift_bind (fun linked => ?_) whole)
      whole) whole
    have kind : dynamic s = false ∨ s = null := by simpa using linked
    refine .given fun below => ?_
    refine Program.Mirrors.bind
      ((regime.part allowed kind).imp id id (regime.weaken (by omega)) (regime.excuses (by omega)))
      fun {text other} _ => ?_
    refine .given fun paired => .given fun short => ?_
    subst paired
    have later {cache : Cache} (holds : P (n + walk.bytes + text.utf8ByteSize) cache)
        : P (n + (65536 + maxPart)) cache :=
      regime.weaken (by omega) holds
    refine .lift_bind (fun {total} added => .lift_bind (fun limit => .lift_bind (fun _ => ?_)
      later) later) later
    have sum := (addSize_ok.mp added).1
    have fits := of_decide_eq_true (ensure_ok.mp limit)
    have less : n + walk.bytes + text.utf8ByteSize ≤ n + total := by omega
    exact .pure fun holds => ⟨rfl, fits, regime.weaken less holds⟩

/-- The bytes that reading a string adds to a cache at most. -/
def stringCost : Nat := 2 * (65536 + maxPart)

/-- A decoded value that is not cached. -/
theorem Regime.decode (regime : Regime data seps P excuse) (zero : seps '\x00') {n : Nat}
    (o : UInt32) (sep : Char)
    : Program.Mirrors (fun cache => P n cache ∧ cache.strings.lookup (o, sep) = none)
        (decode data o sep) (Catalogs.decode data (plainPart data) o sep ())
        (fun value other cache =>
          other = (value, ())
          ∧ P (n + 65536) cache ∧ cache.strings.lookup (o, sep) = none)
        (P (n + (65536 + maxPart))) (excuse (n + (65536 + maxPart))) := by
  rw [Reader.decode, Catalogs.decode]
  split
  · refine .lift_bind (fun separated => ?_) fun holds => regime.weaken (by omega) holds.1
    have other : '\x00' ≠ sep := by
      rintro rfl
      cases separated
    have absent := regime.absent o sep
    have lowers : Lowers (Catalogs.walkPart data (plainPart data)) _ := walkPart_lowers data
    obtain ⟨count, few, rounds⟩ := loop_rounds lowers
      { p := o, seen := ∅, parts := [], bytes := 0, cache := () }
    have walks := Program.Mirrors.iterate
      (absent.walkPart ⟨zero, other⟩ (n := n)) rounds (Nat.lt_succ_of_le few)
    refine Program.Mirrors.bind (walks.imp ?_ id And.left id) fun {walk final} _ => ?_
    · exact fun holds => ⟨Nat.zero_lt_succ _, holds⟩
    · refine .given fun same => .given fun below => ?_
      subst same
      exact .pure fun holds => ⟨rfl, regime.weaken (by omega) holds.1, holds.2⟩
  · refine .lift_map (fun _ => fun holds => ?_) fun holds => regime.weaken (by omega) holds.1
    exact ⟨rfl, regime.weaken (by omega) holds.1, holds.2⟩

/-- (Served P excuse n m method plain) holds when a method returns what `plain` computes from
the data and leads from `P n` to `P m`.
-/
def Served {α : Type} (P : Nat → Cache → Prop) (excuse : Nat → Failure → Cache → Prop)
    (n m : Nat) (method : Method α) (plain : Except Failure (α × Unit))
    : Prop :=
  Program.Mirrors (P n) method plain (fun value other cache => other = (value, ()) ∧ P m cache)
    (P m) (excuse m)

/-- A string. -/
theorem Regime.string (regime : Regime data seps P excuse) (zero : seps '\x00') {sep : Char}
    (allowed : seps sep) (n : Nat) (o : UInt32)
    : Served P excuse n (n + stringCost) (string data o sep) (plainString data o sep ()) := by
  have cost : stringCost = 2 * (65536 + maxPart) := rfl
  rw [Reader.string, Served]
  split
  · rename_i missing
    rw [plainString, if_pos missing]
    exact .pure fun holds => ⟨rfl, regime.weaken (Nat.le_add_right _ _) holds⟩
  · rename_i present
    refine regime.cached (fun {value} read => ?_) ?_
    · rw [read]
      exact .pure fun holds => ⟨rfl, regime.weaken (Nat.le_add_right _ _) holds⟩
    · have whole : plainString data o sep ()
          = Catalogs.decode data (plainPart data) o sep () >>= fun given => .ok given := by
        rw [plainString, if_neg present]
        exact (bind_pure _).symm
      rw [whole]
      refine Program.Mirrors.bind ((regime.decode zero o sep).imp id id
        (regime.weaken (by omega)) (regime.excuses (by omega))) fun {value given} decoded => ?_
      refine .given fun paired => ?_
      subst paired
      have read : plainString data o sep () = .ok (value, ()) := by
        rw [plainString, if_neg present, decoded]
      have short := plainString_short read
      refine (regime.remembers allowed read).imp id ?_ (regime.weaken (by omega))
        (regime.excuses (by omega))
      rintro text other cache ⟨rfl, rfl, after⟩
      exact ⟨rfl, regime.weaken (by omega) after⟩

-----------------------------------------------------------------------------------------
-- Types, keys and locations
-----------------------------------------------------------------------------------------

/-- A sequence of methods. -/
theorem Served.bind (regime : Regime data seps P excuse) {α β : Type} {n m l : Nat}
    {first : Method α} {next : α → Method β} {plain : Except Failure (α × Unit)}
    {plainNext : α × Unit → Except Failure (β × Unit)} (less : m ≤ l)
    (begins : Served P excuse n m first plain)
    (continues : ∀ {value : α}, Served P excuse m l (next value) (plainNext (value, ())))
    : Served P excuse n l (first >>= next) (plain >>= plainNext) := by
  refine Program.Mirrors.bind (begins.imp id id (regime.weaken less) (regime.excuses less)) ?_
  intro value other _
  refine .given fun paired => ?_
  subst paired
  exact continues

/-- A sequence that begins with a computation from the data. -/
theorem Served.lift_bind (regime : Regime data seps P excuse) {α β : Type} {n m : Nat}
    {computed : Except Failure α} {next : α → Method β}
    {plainNext : α → Except Failure (β × Unit)} (less : n ≤ m)
    (continues : ∀ {value : α}, Served P excuse n m (next value) (plainNext value))
    : Served P excuse n m (lift computed >>= next) (computed >>= plainNext) :=
  Program.Mirrors.lift_bind (fun _ => continues) (regime.weaken less)

/-- A returned value. -/
theorem Served.pure (regime : Regime data seps P excuse) {α : Type} {n m : Nat} (less : n ≤ m)
    (value : α)
    : Served P excuse n m (pure value) (.ok (value, ())) :=
  Program.Mirrors.pure fun holds => ⟨rfl, regime.weaken less holds⟩

/-- A type name. -/
theorem Regime.typeName (regime : Regime data (fun _ => True) P excuse) (n : Nat) (o : UInt32)
    : Served P excuse n (n + stringCost) (typeName data o)
        (Catalogs.typeName data (plainString data) o ()) := by
  have less := Nat.le_add_right n stringCost
  rw [Reader.typeName, Catalogs.typeName]
  refine .lift_bind regime less (.lift_bind regime less (.lift_bind regime less ?_))
  exact regime.string trivial trivial n _

/-- A key. -/
theorem Regime.key (regime : Regime data (fun _ => True) P excuse) (n : Nat) (o : UInt32)
    : Served P excuse n (n + 2 * stringCost) (key data o)
        (Catalogs.key data (plainString data) o ()) := by
  have whole : n ≤ n + 2 * stringCost := by omega
  have less : n + stringCost ≤ n + 2 * stringCost := by omega
  have last : n + 2 * stringCost = n + stringCost + stringCost := by omega
  rw [Reader.key, Catalogs.key]
  refine .lift_bind regime whole (.lift_bind regime whole ?_)
  refine .bind regime less (regime.typeName n _) fun {kind} => .lift_bind regime less ?_
  dsimp only
  split
  · refine .lift_bind regime less (.lift_bind regime less (.lift_bind regime less ?_))
    refine .lift_bind regime less (.lift_bind regime less ?_)
    rw [last]
    refine .bind regime (Nat.le_refl _) (regime.string trivial trivial _ _) fun {text} => ?_
    exact .pure regime (Nat.le_refl _) _
  · split
    · exact .pure regime less _
    · exact Program.Mirrors.fail (regime.weaken less)

/-- The options of a location. -/
theorem Regime.options (regime : Regime data (fun _ => True) P excuse) (n : Nat) (extra : UInt32)
    : Served P excuse n (n + 2 * stringCost) (options data extra)
        (Catalogs.options data (plainString data) extra ()) := by
  have whole : n ≤ n + 2 * stringCost := by omega
  have less : n + stringCost ≤ n + 2 * stringCost := by omega
  have last : n + 2 * stringCost = n + stringCost + stringCost := by omega
  rw [Reader.options, Catalogs.options]
  split
  · exact .pure regime whole _
  · refine .lift_bind regime whole (.lift_bind regime whole ?_)
    refine .bind regime less (regime.typeName n _) fun {kind} => ?_
    refine .lift_bind regime less (.lift_bind regime less (.lift_bind regime less ?_))
    refine .lift_bind regime less (.lift_bind regime less (.lift_bind regime less ?_))
    rw [last]
    refine .bind regime (Nat.le_refl _) (regime.string trivial trivial _ _) fun {text} => ?_
    refine .lift_bind regime (Nat.le_refl _) (.lift_bind regime (Nat.le_refl _) ?_)
    exact .pure regime (Nat.le_refl _) _

/-- The bytes that reading a location adds to a cache at most. -/
def locationCost : Nat := 6 * stringCost

/-- A location. -/
theorem Regime.location (regime : Regime data (fun _ => True) P excuse) (n : Nat) (id : UInt32)
    : Served P excuse n (n + locationCost) (location data id)
        (Catalogs.location data (plainString data) id ()) := by
  have whole : n + locationCost
      = n + stringCost + stringCost + stringCost + stringCost + 2 * stringCost := by
    rw [locationCost]
    omega
  have string (m : Nat) (o : UInt32) (sep : Char)
      : Served P excuse m (m + stringCost) (Reader.string data o sep)
          (plainString data o sep ()) :=
    regime.string trivial trivial m o
  rw [Reader.location, Catalogs.location, whole]
  refine .lift_bind regime (by omega) (.lift_bind regime (by omega) ?_)
  refine .bind regime (by omega) (string n _ _) fun {key} => .lift_bind regime (by omega) ?_
  refine .bind regime (by omega) (string _ _ _) fun {internal} => .lift_bind regime (by omega) ?_
  refine .bind regime (by omega) (string _ _ _) fun {provider} => .lift_bind regime (by omega) ?_
  refine .lift_bind regime (by omega) (.lift_bind regime (by omega) ?_)
  refine .bind regime (by omega) (regime.typeName _ _) fun {type} => ?_
  refine .lift_bind regime (by omega) ?_
  refine .bind regime (Nat.le_refl _) (regime.options _ _) fun {extra} => ?_
  refine .lift_bind regime (Nat.le_refl _) ?_
  exact .pure regime (Nat.le_refl _) _

-----------------------------------------------------------------------------------------
-- Two regimes
-----------------------------------------------------------------------------------------

/-- A failure of a reader whose strings exceed their budget. -/
def Exceeds (error : Failure) : Prop :=
  error = budgetError ∨ error = overflow

/-- The rule of remembering: what holds when the value is stored, when its length exceeds the
budget, and when the sum does not fit into a counter.
-/
theorem remember_mirrors {pre after broken : Cache → Prop} {excuse : Failure → Cache → Prop}
    {o : UInt32} {sep : Char} {value : String}
    (stored
      : ∀ {cache : Cache},
          pre cache
          → cache.bytes + value.utf8ByteSize ≤ maxStrings
          → after {
              strings := ((o, sep), value) :: cache.strings
              bytes := cache.bytes + value.utf8ByteSize
            })
    (exceeded
      : ∀ {cache : Cache},
          pre cache
          → maxStrings < cache.bytes + value.utf8ByteSize
          → excuse budgetError { cache with bytes := cache.bytes + value.utf8ByteSize })
    (overflowed
      : ∀ {cache : Cache},
          pre cache → max64 < cache.bytes + value.utf8ByteSize → excuse overflow cache)
    : Program.Mirrors pre (remember o sep value)
        (.ok (value, ()) : Except Failure (String × Unit))
        (fun given other cache => other = (given, ()) ∧ given = value ∧ after cache) broken
        excuse := by
  constructor
  case returns =>
    intro cache given holds same
    rcases remember_cases o sep value cache with
      ⟨failed, -, -⟩ | ⟨failed, -, -⟩ | ⟨kept, last, fits⟩
    · cases same.symm.trans failed
    · cases same.symm.trans failed
    · obtain rfl := Except.ok.inj (same.symm.trans kept)
      rw [last]
      exact ⟨_, rfl, rfl, rfl, stored holds fits⟩
  case fails =>
    intro cache error holds same
    right
    rcases remember_cases o sep value cache with
      ⟨failed, last, beyond⟩ | ⟨failed, last, beyond⟩ | ⟨kept, -, -⟩
    · obtain rfl := Except.error.inj (same.symm.trans failed)
      rw [last]
      exact overflowed holds beyond
    · obtain rfl := Except.error.inj (same.symm.trans failed)
      rw [last]
      exact exceeded holds beyond
    · cases same.symm.trans kept

/-- The lengths of the cached strings. -/
def cachedBytes (cache : Cache) : Nat :=
  (cache.strings.map fun entry => entry.2.utf8ByteSize).sum

/-- A cache that is kept, whatever has failed: every cached string is the one in the data, no
key is cached twice, and the cached strings are within the count and the budget.
-/
structure Kept (data : List UInt8) (cache : Cache) : Prop where
  sound : cache.Sound data
  distinct : (cache.strings.map Prod.fst).Nodup
  below : cachedBytes cache ≤ cache.bytes
  held : cachedBytes cache ≤ maxStrings

/-- A new string within the budget is kept. -/
theorem Kept.extend {o : UInt32} {sep : Char} {value : String} {cache : Cache}
    (kept : Kept data cache) (missing : cache.strings.lookup (o, sep) = none)
    (read : plainString data o sep () = .ok (value, ()))
    (fits : cache.bytes + value.utf8ByteSize ≤ maxStrings)
    : Kept data {
        strings := ((o, sep), value) :: cache.strings
        bytes := cache.bytes + value.utf8ByteSize
      } := by
  have new : (o, sep) ∉ cache.strings.map Prod.fst := by
    intro member
    obtain ⟨entry, held, named⟩ := List.mem_map.mp member
    have apart := List.lookup_eq_none_iff.mp missing entry held
    exact absurd named.symm (bne_iff_ne.mp apart)
  have below : value.utf8ByteSize + cachedBytes cache ≤ cache.bytes + value.utf8ByteSize :=
    (Nat.add_comm _ _).trans_le (Nat.add_le_add_right kept.below _)
  constructor
  case sound => exact Cache.Sound.extend kept.sound read _
  case distinct => exact List.nodup_cons.mpr ⟨new, kept.distinct⟩
  case below => exact below
  case held => exact below.trans fits

/-- A reader keeps its cache, whatever has failed. -/
theorem kept_regime
    : Regime data (fun _ => True) (fun _ cache => Kept data cache)
        (fun _ error cache => Kept data cache ∧ Exceeds error) where
  weaken := fun _ holds => holds
  excuses := fun _ holds => holds
  sound := fun holds => holds.sound
  remembers := by
    intro n o sep value _ read
    apply remember_mirrors
    case stored => exact fun holds fits => holds.1.extend holds.2 read fits
    case exceeded =>
      intro cache holds _
      have below := holds.1.below.trans (Nat.le_add_right _ value.utf8ByteSize)
      exact ⟨{ holds.1 with below }, Or.inl rfl⟩
    case overflowed => exact fun holds _ => ⟨holds.1, Or.inr rfl⟩

/-- A kept cache that counts its strings. -/
structure Coherent (data : List UInt8) (cache : Cache) : Prop extends Kept data cache where
  counted : cache.bytes = cachedBytes cache

/-- A reader that counts its strings does so until they exceed the budget. -/
theorem coherent_regime
    : Regime data (fun _ => True) (fun n cache => Coherent data cache ∧ cache.bytes ≤ n)
        (fun n error _ => error = budgetError ∧ maxStrings < n) where
  weaken := fun less holds => ⟨holds.1, holds.2.trans less⟩
  excuses := fun less holds => ⟨holds.1, Nat.lt_of_lt_of_le holds.2 less⟩
  sound := fun holds => holds.1.sound
  remembers := by
    intro n o sep value _ read
    have short := plainString_short read
    apply remember_mirrors
    case stored =>
      intro cache holds fits
      have counted : cache.bytes + value.utf8ByteSize
          = value.utf8ByteSize + cachedBytes cache := by
        rw [holds.1.1.counted, Nat.add_comm]
      have kept := holds.1.1.extend holds.2 read fits
      exact ⟨⟨kept, counted⟩, Nat.add_le_add_right holds.1.2 _⟩
    case exceeded =>
      exact fun holds beyond =>
        ⟨rfl, Nat.lt_of_lt_of_le beyond (Nat.add_le_add_right holds.1.2 _)⟩
    case overflowed =>
      -- a sum that was within the budget does not overflow
      intro cache holds beyond
      have bytes := holds.1.1.held
      rw [← holds.1.1.counted] at bytes
      simp only [maxStrings, maxPart, max64] at bytes short beyond
      omega

-----------------------------------------------------------------------------------------
-- Sequences of reads
-----------------------------------------------------------------------------------------

/-- A read of one of the four kinds. -/
inductive Read where
  | string (o : UInt32) (sep : Char)
  | typeName (o : UInt32)
  | key (o : UInt32)
  | location (id : UInt32)
deriving DecidableEq

/-- What a read returns. -/
inductive Answer where
  | text (text : String)
  | key (text : Option String)
  | location (location : Location)
deriving DecidableEq

/-- A read on a reader. -/
def Read.run (data : List UInt8) : Read → Method Answer
  | .string o sep => do return .text (← Reader.string data o sep)
  | .typeName o => do return .text (← Reader.typeName data o)
  | .key o => do return .key (← Reader.key data o)
  | .location id => do return .location (← Reader.location data id)

/-- A read by the functions that `Catalog::parse` is made of. -/
def Read.parsed (data : List UInt8) (cache : Cache) : Read → Except Failure (Answer × Cache)
  | .string o sep => do
      let (text, cache) ← Catalogs.string data o sep cache
      return (.text text, cache)
  | .typeName o => do
      let (text, cache) ← Catalogs.typeName data (Catalogs.string data) o cache
      return (.text text, cache)
  | .key o => do
      let (text, cache) ← Catalogs.key data (Catalogs.string data) o cache
      return (.key text, cache)
  | .location id => do
      let (place, cache) ← Catalogs.location data (Catalogs.string data) id cache
      return (.location place, cache)

/-- A read that returns is one of these functions. -/
theorem Read.run_outcome (read : Read) (cache : Cache)
    : (read.run data).outcome cache = read.parsed data cache := by
  cases read with
  | string o sep => rw [Read.run, Program.outcome_bind, string_outcome]; rfl
  | typeName o => rw [Read.run, Program.outcome_bind, typeName_outcome]; rfl
  | key o => rw [Read.run, Program.outcome_bind, key_outcome]; rfl
  | location id => rw [Read.run, Program.outcome_bind, location_outcome]; rfl

/-- A read of the data without a cache and its budget. -/
def Read.uncached (data : List UInt8) : Read → Except Failure Answer
  | .string o sep => do return .text (← plainString data o sep ()).1
  | .typeName o => do return .text (← Catalogs.typeName data (plainString data) o ()).1
  | .key o => do return .key (← Catalogs.key data (plainString data) o ()).1
  | .location id => do
      return .location (← Catalogs.location data (plainString data) id ()).1

/-- Reads in a row on one reader, with their results and the last cache. -/
def readAll (data : List UInt8) : List Read → Cache → List (Except Failure Answer) × Cache
  | [], cache => ([], cache)
  | read :: rest, cache =>
      let attempt := read.run data cache
      let later := readAll data rest attempt.last
      (attempt.result :: later.1, later.2)

/-- A value that is made an answer. -/
theorem Served.answer {α : Type} {n m : Nat} {method : Method α}
    {plain : Except Failure (α × Unit)} (served : Served P excuse n m method plain)
    (answer : α → Answer)
    : Program.Mirrors (P n) (do return answer (← method)) (do return answer (← plain).1)
        (fun value other cache => other = value ∧ P m cache) (P m) (excuse m) := by
  refine Program.Mirrors.bind served fun {value other} _ => ?_
  refine .given fun paired => ?_
  subst paired
  exact .pure fun holds => ⟨rfl, holds⟩

/-- A read of any kind. -/
theorem Regime.read (regime : Regime data (fun _ => True) P excuse) (n : Nat) (read : Read)
    : Program.Mirrors (P n) (read.run data) (read.uncached data)
        (fun value other cache => other = value ∧ P (n + locationCost) cache)
        (P (n + locationCost)) (excuse (n + locationCost)) := by
  have one : n + stringCost ≤ n + locationCost := by
    rw [locationCost]
    omega
  have two : n + 2 * stringCost ≤ n + locationCost := by
    rw [locationCost]
    omega
  cases read with
  | string o sep =>
      exact ((regime.string trivial trivial n o).answer .text).imp id
        (And.imp_right (regime.weaken one)) (regime.weaken one) (regime.excuses one)
  | typeName o =>
      exact ((regime.typeName n o).answer .text).imp id
        (And.imp_right (regime.weaken one)) (regime.weaken one) (regime.excuses one)
  | key o =>
      exact ((regime.key n o).answer .key).imp id
        (And.imp_right (regime.weaken two)) (regime.weaken two) (regime.excuses two)
  | location id => exact (regime.location n id).answer .location

/-- A result that is the uncached one, or a failure on the budget. -/
def Agrees (data : List UInt8) (read : Read) (answer : Except Failure Answer) : Prop :=
  answer = read.uncached data ∨ ∃ error, answer = .error error ∧ Exceeds error

/-- What a sequence of reads on a new reader has returned and cached. -/
structure Transparent (data : List UInt8) (reads : List Read)
    (answers : List (Except Failure Answer)) (cache : Cache)
    : Prop where
  entries
    : ∀ {o : UInt32} {sep : Char} {value : String},
        cache.strings.lookup (o, sep) = some value
        → plainString data o sep () = .ok (value, ())
  distinct : (cache.strings.map Prod.fst).Nodup
  below : cachedBytes cache ≤ cache.bytes
  held : cachedBytes cache ≤ maxStrings
  agrees : List.Forall₂ (Agrees data) reads answers
  uncached : .error budgetError ∉ answers → answers = reads.map (Read.uncached data)
  fresh
    : .error budgetError ∉ answers
        → answers = reads.map fun read => (read.run data .empty).result
  counted
    : .error budgetError ∉ answers
        → cache.bytes = cachedBytes cache ∧ cache.bytes ≤ maxStrings

/-- One read keeps the cache and agrees with the data. -/
theorem read_kept {cache : Cache} (kept : Kept data cache) (read : Read)
    : Kept data (read.run data cache).last ∧ Agrees data read (read.run data cache).result := by
  have mirrors := (kept_regime : Regime data _ _ _).read 0 read
  cases result : (read.run data cache).result with
  | ok value =>
      obtain ⟨other, found, same, after⟩ := mirrors.returns kept result
      subst same
      exact ⟨after, Or.inl found.symm⟩
  | error error =>
      rcases mirrors.fails kept result with ⟨found, after⟩ | ⟨after, exceeds⟩
      · exact ⟨after, Or.inl found.symm⟩
      · exact ⟨after, Or.inr ⟨error, rfl, exceeds⟩⟩

/-- One read of a coherent reader either exceeds the budget, which the bytes it may add then
do, or agrees with the data.
-/
theorem read_coherent {cache : Cache} (coherent : Coherent data cache) (read : Read)
    : (read.run data cache).result = .error budgetError
        ∧ maxStrings < cache.bytes + locationCost
      ∨ (read.run data cache).result = read.uncached data
        ∧ Coherent data (read.run data cache).last := by
  have mirrors := (coherent_regime : Regime data _ _ _).read cache.bytes read
  have start : Coherent data cache ∧ cache.bytes ≤ cache.bytes := ⟨coherent, Nat.le_refl _⟩
  cases result : (read.run data cache).result with
  | ok value =>
      obtain ⟨other, found, same, after, -⟩ := mirrors.returns start result
      subst same
      exact Or.inr ⟨found.symm, after⟩
  | error error =>
      rcases mirrors.fails start result with ⟨found, after, -⟩ | ⟨rfl, beyond⟩
      · exact Or.inr ⟨found.symm, after⟩
      · exact Or.inl ⟨rfl, beyond⟩

/-- A new reader is coherent. -/
theorem Coherent.empty : Coherent data .empty where
  sound := Cache.Sound.empty
  distinct := List.nodup_nil
  below := Nat.zero_le _
  held := Nat.zero_le _
  counted := rfl

/-- The first read of a reader does not exceed the budget. -/
theorem read_fresh (read : Read) : (read.run data .empty).result = read.uncached data := by
  have start : Coherent data .empty := Coherent.empty
  rcases read_coherent start read with ⟨-, beyond⟩ | ⟨same, -⟩
  · exact absurd beyond (by decide)
  · exact same

/-- Reads in a row keep the cache and agree with the data, by induction on them. -/
theorem readAll_kept {cache : Cache} (kept : Kept data cache) (reads : List Read)
    : Kept data (readAll data reads cache).2
      ∧ List.Forall₂ (Agrees data) reads (readAll data reads cache).1 := by
  induction reads generalizing cache with
  | nil => exact ⟨kept, .nil⟩
  | cons read rest ih =>
      obtain ⟨after, agrees⟩ := read_kept kept read
      obtain ⟨last, later⟩ := ih after
      exact ⟨last, .cons agrees later⟩

/-- Reads in a row that never exceed the budget return what the data give and leave a
coherent reader, by induction on them.
-/
theorem readAll_coherent {cache : Cache} (coherent : Coherent data cache) {reads : List Read}
    (within : .error budgetError ∉ (readAll data reads cache).1)
    : (readAll data reads cache).1 = reads.map (Read.uncached data)
      ∧ Coherent data (readAll data reads cache).2 := by
  induction reads generalizing cache with
  | nil => exact ⟨rfl, coherent⟩
  | cons read rest ih =>
      obtain ⟨here, later⟩ := not_or.mp (mt List.mem_cons.mpr within)
      rcases read_coherent coherent read with ⟨exceeded, -⟩ | ⟨same, after⟩
      · exact absurd exceeded.symm here
      · obtain ⟨rest', last⟩ := ih after later
        exact ⟨congrArg₂ List.cons same rest', last⟩

/-- For every data and every sequence of reads, also after reads that failed: the cache of a
reader cannot be told from the data until its budget is exceeded.
-/
theorem reads_transparent (data : List UInt8) (reads : List Read)
    : Transparent data reads (readAll data reads .empty).1 (readAll data reads .empty).2 := by
  have start : Coherent data .empty := Coherent.empty
  obtain ⟨kept, agrees⟩ := readAll_kept start.toKept reads
  constructor
  case entries => exact fun held => kept.sound held
  case distinct => exact kept.distinct
  case below => exact kept.below
  case held => exact kept.held
  case agrees => exact agrees
  case uncached => exact fun within => (readAll_coherent start within).1
  case fresh =>
    intro within
    rw [(readAll_coherent start within).1]
    exact List.map_congr_left fun read _ => (read_fresh read).symm
  case counted =>
    intro within
    obtain ⟨-, coherent⟩ := readAll_coherent start within
    exact ⟨coherent.counted, coherent.counted.trans_le coherent.held⟩

-----------------------------------------------------------------------------------------
-- Beyond the budget
-----------------------------------------------------------------------------------------

/-- Reads in two parts. -/
theorem readAll_append (first second : List Read) (cache : Cache)
    : readAll data (first ++ second) cache
      = ((readAll data first cache).1 ++ (readAll data second (readAll data first cache).2).1,
          (readAll data second (readAll data first cache).2).2) := by
  induction first generalizing cache with
  | nil => rfl
  | cons read rest ih => rw [List.cons_append, readAll, ih]; rfl

/-- A string that is read for the first time is remembered. -/
theorem string_new {o : UInt32} {sep : Char} {value : String} {cache : Cache} (present : o ≠ null)
    (missing : cache.strings.lookup (o, sep) = none) (kind : dynamic o = false)
    (read : staticString data o = .ok value)
    : (string data o sep cache).result = (remember o sep value cache).result
      ∧ (string data o sep cache).last = (remember o sep value cache).last := by
  have decoded : decode data o sep cache = ⟨[], cache, .ok value⟩ := by
    rw [decode, kind, if_neg Bool.false_ne_true, read]
    rfl
  have returned : (decode data o sep cache).result = .ok value := congrArg Attempt.result decoded
  have run : (decode data o sep >>= fun value => remember o sep value) cache
      = ⟨(remember o sep value cache).passed, (remember o sep value cache).last,
          (remember o sep value cache).result⟩ := by
    rw [Program.bind_returned returned, decoded]
    rfl
  rw [string, if_neg present, cached, Program.bind_returned (congrArg Except.ok missing)]
  exact ⟨congrArg Attempt.result run, congrArg Attempt.last run⟩

/-- Reading such a string ends as remembering it does. -/
theorem readAll_new {o : UInt32} {sep : Char} {value : String} {cache : Cache} (present : o ≠ null)
    (missing : cache.strings.lookup (o, sep) = none) (kind : dynamic o = false)
    (read : staticString data o = .ok value)
    : readAll data [.string o sep] cache
      = ([(remember o sep value cache).result.map .text], (remember o sep value cache).last) := by
  obtain ⟨result, last⟩ := string_new present missing kind read
  rw [readAll, readAll, Read.run, Program.map_run, result, last]

/-- After a read that exceeds the budget, a read of no string succeeds and the bytes stay
increased.
-/
theorem readAll_excess {first : List Read} {cache : Cache} {o : UInt32} {sep : Char}
    {value : String} (filled : (readAll data first .empty).2 = cache) (present : o ≠ null)
    (missing : cache.strings.lookup (o, sep) = none) (kind : dynamic o = false)
    (read : staticString data o = .ok value)
    (counted : cache.bytes + value.utf8ByteSize ≤ max64)
    (beyond : maxStrings < cache.bytes + value.utf8ByteSize)
    : ∃ answers,
        readAll data (first ++ ([.string o sep] ++ [.string null sep])) .empty
        = (answers ++ [.ok (.text "")],
            { cache with bytes := cache.bytes + value.utf8ByteSize }) := by
  have nothing {last : Cache}
      : readAll data [.string null sep] last = ([.ok (.text "")], last) := rfl
  have added : (remember o sep value cache).last
      = { cache with bytes := cache.bytes + value.utf8ByteSize } := by
    rcases remember_cases o sep value cache with ⟨-, -, excess⟩ | ⟨-, last, -⟩ | ⟨-, -, fits⟩
    · omega
    · exact last
    · omega
  rw [readAll_append, filled, readAll_append, readAll_new present missing kind read, nothing,
    added]
  exact ⟨(readAll data first .empty).1 ++ [_], congrArg (·, _) (List.append_assoc _ _ _).symm⟩

/-- A file with one string of 65536 letters, at the offset 4. -/
def longFile : List UInt8 := [0, 0, 1, 0] ++ List.replicate 65536 97

/-- The string of the file. -/
def longText : String := asciiText (List.replicate 65536 97)

/-- The string is read. -/
theorem longFile_string : staticString longFile 4 = .ok longText := by
  have length : longFile.length = 65540 := by
    rw [longFile, List.length_append, List.length_replicate]
    rfl
  have part {start stop : Nat} {bytes : List UInt8} (ordered : start ≤ stop) (few : stop ≤ 65540)
      (same : (longFile.drop start).take (stop - start) = bytes)
      : slice longFile start stop = some bytes :=
    slice_eq_some.mpr ⟨ordered, length ▸ few, same⟩
  have header : take longFile 0 4 = .ok [0, 0, 1, 0] :=
    bind_ok.mpr ⟨4, rfl, context_ok.mpr (part (by decide) (by decide) rfl)⟩
  have body : take longFile 4 65536 = .ok (List.replicate 65536 97) := by
    have added : checkedAdd (4 : UInt32).toNat 65536 = some 65540 := if_pos (by decide)
    refine bind_ok.mpr ⟨65540, context_ok.mpr added, context_ok.mpr (part ?_ ?_ ?_)⟩
    · decide
    · exact Nat.le_refl _
    · have rest : longFile.drop (4 : UInt32).toNat = List.replicate 65536 97 :=
        List.drop_left' rfl
      rw [rest]
      exact List.take_of_length_le (Nat.le_of_eq List.length_replicate)
  have size : u32 longFile 0 = .ok 65536 := bind_ok.mpr ⟨_, header, rfl⟩
  have plain : isAscii (List.replicate 65536 97) = true := by
    rw [isAscii, List.all_replicate]
    rfl
  rw [staticString]
  refine bind_ok.mpr ⟨0, rfl, bind_ok.mpr ⟨65536, size, bind_ok.mpr ⟨(), rfl, ?_⟩⟩⟩
  refine bind_ok.mpr ⟨_, body, ?_⟩
  rw [if_neg (by decide)]
  exact bind_ok.mpr ⟨(), ensure_passes plain _, rfl⟩

/-- The string has a byte for each of its letters. -/
theorem longText_size : longText.utf8ByteSize = 65536 := by
  have letters (n : Nat) : (asciiText (List.replicate n 97)).utf8ByteSize = n := by
    induction n with
    | zero => rfl
    | succ n ih =>
        rw [asciiText, List.replicate_succ, List.map_cons, String.ofList_cons,
          String.utf8ByteSize_append, String.utf8ByteSize_singleton]
        rw [asciiText] at ih
        rw [ih]
        exact Nat.add_comm _ _
  exact letters 65536

/-- The separator of a read of the string. -/
def separatorAt (i : Nat) : Char := Char.ofNat (i + 1)

/-- Reads of the string under the first separators. -/
def longReads (count : Nat) : List Read :=
  (List.range count).map fun i => .string 4 (separatorAt i)

/-- The cache after these reads. -/
def longCache (count : Nat) : Cache :=
  {
    strings := (List.range count).reverse.map fun i => ((4, separatorAt i), longText)
    bytes := count * 65536
  }

/-- The separators differ. -/
theorem separatorAt_injective {i j : Nat} (first : i < 2000) (second : j < 2000)
    (same : separatorAt i = separatorAt j)
    : i = j := by
  have number {k : Nat} (small : k < 2000) : (separatorAt k).toNat = k + 1 := by
    have valid : (k + 1).isValidChar := Or.inl (by omega)
    rw [separatorAt, Char.ofNat, dif_pos valid]
    rfl
  have numbers := congrArg Char.toNat same
  rw [number first, number second] at numbers
  exact Nat.succ.inj numbers

/-- A separator that was not used is not cached. -/
theorem longCache_missing {count : Nat} (few : count ≤ 1024)
    : (longCache count).strings.lookup (4, separatorAt count) = none := by
  refine List.lookup_eq_none_iff.mpr fun entry member => bne_iff_ne.mpr fun same => ?_
  obtain ⟨i, used, rfl⟩ := List.mem_map.mp member
  have below := List.mem_range.mp (List.mem_reverse.mp used)
  have clash := separatorAt_injective (by omega) (by omega) (Prod.mk.inj same).2
  omega

/-- One more read of the string ends as remembering it does. -/
theorem longReads_next {count : Nat} (few : count ≤ 1024)
    : readAll longFile [.string 4 (separatorAt count)] (longCache count)
      = ([(remember 4 (separatorAt count) longText (longCache count)).result.map .text],
          (remember 4 (separatorAt count) longText (longCache count)).last) :=
  readAll_new (by decide) (longCache_missing few) (by decide) longFile_string

/-- One more string in the cache. -/
theorem longCache_next (count : Nat)
    : longCache (count + 1)
      = {
          strings := ((4, separatorAt count), longText) :: (longCache count).strings
          bytes := (longCache count).bytes + 65536
        } := by
  rw [longCache, List.range_succ, List.reverse_append, Nat.succ_mul]
  rfl

/-- The first 1024 reads fill the budget, by induction on their number. -/
theorem longReads_cache {count : Nat} (few : count ≤ 1024)
    : (readAll longFile (longReads count) .empty).2 = longCache count := by
  induction count with
  | zero => rfl
  | succ count ih =>
      have before : count ≤ 1024 := by omega
      have bytes : (longCache count).bytes = count * 65536 := rfl
      have next : longReads (count + 1) = longReads count ++ [.string 4 (separatorAt count)] := by
        rw [longReads, List.range_succ, List.map_append]
        rfl
      rw [next, readAll_append, ih before, longReads_next before]
      rcases remember_cases 4 (separatorAt count) longText (longCache count) with
        ⟨-, -, beyond⟩ | ⟨-, -, beyond⟩ | ⟨-, last, -⟩
      · rw [longText_size, bytes, max64] at beyond
        omega
      · rw [longText_size, bytes, maxStrings] at beyond
        omega
      · rw [last, longText_size, longCache_next]

/-- After 1025 reads, the last of which exceeded the budget, a read of no string succeeds, and
the bytes are neither the sum of the cached lengths nor within the budget.
-/
theorem excess_miscounted
    : ¬∀ (data : List UInt8) (reads : List Read) (answer : Answer),
        (readAll data reads .empty).1.getLast? = some (.ok answer)
        → (readAll data reads .empty).2.bytes = cachedBytes (readAll data reads .empty).2
          ∧ (readAll data reads .empty).2.bytes ≤ maxStrings := by
  intro counts
  obtain ⟨cache, bytes, missing, filled⟩
      : ∃ cache : Cache,
          cache.bytes = 1024 * 65536
          ∧ cache.strings.lookup (4, separatorAt 1024) = none
          ∧ (readAll longFile (longReads 1024) .empty).2 = cache :=
    ⟨
      longCache 1024,
      by rw [longCache],
      longCache_missing (Nat.le_refl 1024),
      longReads_cache (Nat.le_refl 1024)
    ⟩
  have counted : cache.bytes + longText.utf8ByteSize ≤ max64 := by
    rw [bytes, longText_size, max64]; omega
  have beyond : maxStrings < cache.bytes + longText.utf8ByteSize := by
    rw [bytes, longText_size, maxStrings]; omega
  obtain ⟨answers, ends⟩ :=
    readAll_excess filled (by decide) missing (by decide) longFile_string counted beyond
  have within := counts longFile _ (.text "") (by rw [ends]; exact List.getLast?_concat)
  rw [ends] at within
  exact absurd within.2 (Nat.not_le_of_lt beyond)

end Reader

end MoenotesAssets.Catalogs
