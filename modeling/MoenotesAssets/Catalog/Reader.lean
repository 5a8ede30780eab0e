import MoenotesAssets.Catalog.Data
import MoenotesAssets.Foundation.Bytes
import MoenotesAssets.Foundation.Loop
import MoenotesAssets.Foundation.Machine
import Std.Data.TreeSet

/-! `catalog::Reader`: its data are a parameter `data`, its string cache is passed along. -/

namespace MoenotesAssets.Catalogs

open Foundation Foundation.Bytes Foundation.Machine

variable (data : List UInt8)

-----------------------------------------------------------------------------------------
-- Words and arrays
-----------------------------------------------------------------------------------------

/-- `NULL` -/
def null : UInt32 := 0xFFFFFFFF

/-- `Reader::take` -/
def take (o : UInt32) (n : Nat) : Except Failure (List UInt8) := do
  let stop ← context (checkedAdd o.toNat n) (.error "offset overflow")
  context (slice data o.toNat stop) (.error "catalog out of bounds")

/-- `Reader::u32` -/
def u32 (o : UInt32) : Except Failure UInt32 := do
  return UInt32.ofNat (littleEndian (← take data o 4))

/-- `self.u32(o + n)` -/
def wordAt (o n : UInt32) : Except Failure UInt32 := do
  u32 data (← addWord o n)

/-- The offset of the length word before `o`. -/
def lengthWord (o : UInt32) (message : String) : Except Failure UInt32 :=
  if 4 ≤ o then .ok (o - 4) else .error (.error message)

/-- `Reader::array` -/
def array (o : UInt32) (stride : Nat) : Except Failure (List UInt32) :=
  if o = null then .ok []
  else do
    let size := (← u32 data (← lengthWord o "array offset")).toNat
    ensure (size % stride == 0 && size / stride ≤ 200000) (.error "catalog array limit")
    let _ ← take data o size
    (List.range (size / stride)).mapM (fun i => addWord o (UInt32.ofNat (i * stride)))

/-- The words at the places an array lists. -/
def words (o : UInt32) : Except Failure (List UInt32) := do
  (← array data o 4).mapM (u32 data)

-----------------------------------------------------------------------------------------
-- Strings
-----------------------------------------------------------------------------------------

/-- The strings read so far, by offset and separator, and `string_bytes`. -/
structure Cache where
  strings : List ((UInt32 × Char) × String)
  bytes : Nat

/-- A reader that has read nothing. -/
def Cache.empty : Cache := { strings := [], bytes := 0 }

/-- A value read for the first time. -/
def Cache.remember (cache : Cache) (o : UInt32) (sep : Char) (value : String)
    : Except Failure (String × Cache) := do
  let bytes ← addSize cache.bytes value.utf8ByteSize
  ensure (bytes ≤ 64 * 2 ^ 20) (.error "catalog string budget")
  return (value, { strings := ((o, sep), value) :: cache.strings, bytes })

/-- The offset names a linked list of parts. -/
def dynamic (o : UInt32) : Bool := o &&& 0x40000000 != 0

/-- The branch of `Reader::string` for a string that is not dynamic. -/
def staticString (o : UInt32) : Except Failure String := do
  let a := o &&& 0x3FFFFFFF
  let n := (← u32 data (← lengthWord a "string offset")).toNat
  ensure (n ≤ 65536) (.error "string limit")
  let bytes ← take data a n
  if o &&& 0x80000000 != 0 then do
    ensure (n % 2 == 0) (.error "UTF16 size")
    let text ← context (utf16 (units bytes)) (.error "invalid utf-16: lone surrogate found")
    return String.ofList text
  else do
    ensure (isAscii bytes) (.error "catalog ASCII string")
    return asciiText bytes

/-- The locals of the loop over the parts of a dynamic string. -/
structure Walk (κ : Type) where
  p : UInt32
  seen : Std.TreeSet UInt32
  parts : List String
  bytes : Nat
  cache : κ

variable {κ : Type}

/-- The loop over the parts of a dynamic string; `part` is the recursive call. -/
def walkPart (part : UInt32 → κ → Except Failure (String × κ)) (walk : Walk κ)
    : Except Failure (Option (Walk κ)) :=
  if walk.p = null then .ok none
  else do
    let a := walk.p &&& 0x3FFFFFFF
    let seen := walk.seen.insert a
    ensure (!walk.seen.contains a && seen.size ≤ 4096) (.error "cyclic/long string")
    let s ← u32 data a
    ensure (!dynamic s || s == null) (.error "nested dynamic string")
    let (text, cache) ← part s walk.cache
    let bytes ← addSize walk.bytes text.utf8ByteSize
    ensure (bytes < 65536) (.error "string too long")
    let p ← wordAt data a 4
    return some { p, seen, parts := walk.parts ++ [text], bytes, cache }

/-- A continuing round has seen one more of 4096 parts at most. -/
theorem walkPart_lowers {part : UInt32 → κ → Except Failure (String × κ)}
    : Lowers (walkPart data part) (fun walk => 4097 - walk.seen.size) := by
  intro walk after round
  rw [walkPart] at round
  split at round
  · cases round
  · simp only [bind_ok, pure_ok, ensure_ok, Option.some.injEq, Bool.and_eq_true,
      decide_eq_true_eq, Bool.not_eq_true'] at round
    obtain ⟨_, ⟨fresh, limit⟩, _, _, _, _, _, _, _, _, _, _, _, _, _, _, rfl⟩ := round
    have grown := @Std.TreeSet.size_insert _ _ walk.seen _ (walk.p &&& 0x3FFFFFFF)
    rw [fresh] at grown
    simp only [Bool.false_eq_true, if_false] at grown
    simp only
    omega

/-- The value of `Reader::string` at an offset that is neither null nor cached. -/
def decode (part : UInt32 → κ → Except Failure (String × κ)) (o : UInt32) (sep : Char)
    (cache : κ)
    : Except Failure (String × κ) :=
  if dynamic o then do
    ensure (sep ≠ '\x00') (.error "dynamic string without separator")
    let walk ←
      loop (walkPart data part) (walkPart_lowers data)
        { p := o, seen := ∅, parts := [], bytes := 0, cache }
    return (String.intercalate (String.singleton sep) walk.parts.reverse, walk.cache)
  else do
    return (← staticString data o, cache)

/-- The recursive call of `Reader::string` for a part, whose offset is null or not dynamic. -/
def partString (s : UInt32) (cache : Cache) : Except Failure (String × Cache) :=
  if s = null then .ok ("", cache)
  else
    match cache.strings.lookup (s, '\x00') with
    | some value => .ok (value, cache)
    | none => do cache.remember s '\x00' (← staticString data s)

/-- `Reader::string` -/
def string (o : UInt32) (sep : Char) (cache : Cache) : Except Failure (String × Cache) :=
  if o = null then .ok ("", cache)
  else
    match cache.strings.lookup (o, sep) with
    | some value => .ok (value, cache)
    | none => do
        let (value, cache) ← decode data (partString data) o sep cache
        cache.remember o sep value

/-- The recursive call is `Reader::string` itself. -/
theorem string_part {s : UInt32} (part : dynamic s = false ∨ s = null) (cache : Cache)
    : string data s '\x00' cache = partString data s cache := by
  rw [string, partString]
  split
  · rfl
  · rename_i present
    have plain : dynamic s = false := part.resolve_right present
    split
    · rfl
    · cases read : staticString data s with
      | error failure => simp [decode, plain, read, bind, Except.bind]
      | ok value => simp [decode, plain, read, bind, Except.bind, pure, Except.pure]

-----------------------------------------------------------------------------------------
-- Types, keys and locations
-----------------------------------------------------------------------------------------

/-- A way to read strings; `κ` is what it remembers. -/
abbrev ReadString (κ : Type) := UInt32 → Char → κ → Except Failure (String × κ)

variable (read : ReadString κ)

/-- `Reader::type_name` -/
def typeName (o : UInt32) (cache : κ) : Except Failure (String × κ) := do
  ensure (o ≠ null) (.error "null type")
  let _ ← take data o 8
  read (← wordAt data o 4) '.' cache

/-- `char::from_u32` of a 16-bit unit. -/
def separator (unit : Nat) : Option Char :=
  if unit < 0xD800 ∨ 0xDFFF < unit then some (Char.ofNat unit) else none

/-- `Reader::key`: no text for a key that is no string. -/
def key (o : UInt32) (cache : κ) : Except Failure (Option String × κ) := do
  let _ ← take data o 8
  let (kind, cache) ← typeName data read (← u32 data o) cache
  let at' ← wordAt data o 4
  if kind = "System.String" then do
    let _ ← take data at' 6
    let unit := littleEndian (← take data (← addWord at' 4) 2)
    let o ← u32 data at'
    let sep ← context (separator unit) (.error "separator")
    let (text, cache) ← read o sep cache
    return (some text, cache)
  else if kind = "System.Int32" ∨ kind = "System.Int64" ∨ kind = "System.Boolean" then
    return (none, cache)
  else
    .error (.error ("unsupported key type " ++ kind))

/-- The options of a location, at the offset `extra`. -/
def options (extra : UInt32) (cache : κ) : Except Failure (Option Options × κ) :=
  if extra = null then .ok (none, cache)
  else do
    let _ ← take data extra 8
    let (kind, cache) ← typeName data read (← u32 data extra) cache
    ensure
      (kind == "UnityEngine.ResourceManagement.ResourceProviders.AssetBundleRequestOptions")
      (.error "unsupported options")
    let a ← wordAt data extra 4
    let _ ← take data a 20
    let hash := hexEncode (← take data (← u32 data a) 16)
    let (bundleName, cache) ← read (← wordAt data a 4) '_' cache
    let crc ← wordAt data a 8
    let size := (← wordAt data a 12).toUInt64
    return (some { hash, bundleName, crc, size }, cache)

/-- `Reader::location` -/
def location (id : UInt32) (cache : κ) : Except Failure (Location × κ) := do
  let _ ← take data id 28
  let (key, cache) ← read (← u32 data id) '/' cache
  let (internal, cache) ← read (← wordAt data id 4) '/' cache
  let (provider, cache) ← read (← wordAt data id 8) '.' cache
  let dependencies ← words data (← wordAt data id 12)
  let (resourceType, cache) ← typeName data read (← wordAt data id 24) cache
  let (options, cache) ← options data read (← wordAt data id 20) cache
  ensure (!internal.isEmpty && !provider.isEmpty) (.error "empty location")
  return ({ id, key, internal, provider, resourceType, dependencies, options }, cache)

/-- A location carries the id it was read at. -/
theorem location_id {id : UInt32} {cache cache' : κ} {location : Location}
    (found : Catalogs.location data read id cache = .ok (location, cache'))
    : location.id = id := by
  simp only [Catalogs.location, bind_ok, pure_ok, Prod.mk.injEq] at found
  -- the reads and the check before the record
  obtain ⟨_, -, _, -, _, -, _, -, _, -, _, -, _, -, _, -, _, -, _, -, _, -, _, -, _, -, _, -,
    record, -⟩ := found
  exact congrArg Location.id record.symm

end MoenotesAssets.Catalogs
