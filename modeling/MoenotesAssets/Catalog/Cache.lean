import MoenotesAssets.Catalog.Reader

/-! The string cache of a reader: every cached string is what reading it without a cache
gives, so what a reader returns does not depend on what it has read before.
-/

namespace MoenotesAssets.Catalogs

open Foundation Foundation.Bytes Foundation.Machine

variable {data : List UInt8}

-----------------------------------------------------------------------------------------
-- Reading without a cache
-----------------------------------------------------------------------------------------

/-- A part of a dynamic string, read without a cache. -/
def plainPart (data : List UInt8) (s : UInt32) (cache : Unit)
    : Except Failure (String × Unit) :=
  if s = null then .ok ("", cache) else do return (← staticString data s, cache)

/-- A string, read without a cache and without its budget. -/
def plainString (data : List UInt8) : ReadString Unit := fun o sep cache =>
  if o = null then .ok ("", cache) else decode data (plainPart data) o sep cache

/-- Every cached string is read back from the data. -/
def Cache.Sound (data : List UInt8) (cache : Cache) : Prop :=
  ∀ {o : UInt32} {sep : Char} {value : String},
    cache.strings.lookup (o, sep) = some value → plainString data o sep () = .ok (value, ())

/-- A reader that has read nothing has nothing cached. -/
theorem Cache.Sound.empty : Cache.Sound data .empty := by
  intro o sep value found
  cases found

/-- One more string of the data keeps the cache sound. -/
theorem Cache.Sound.extend {cache : Cache} {o : UInt32} {sep : Char} {value : String}
    (sound : cache.Sound data) (read : plainString data o sep () = .ok (value, ())) (bytes : Nat)
    : Cache.Sound data { strings := ((o, sep), value) :: cache.strings, bytes } := by
  intro other sep' found held
  rw [List.lookup_cons] at held
  split at held
  · rename_i same
    obtain ⟨rfl, rfl⟩ := Prod.mk.inj (eq_of_beq same)
    obtain rfl := Option.some.inj held
    exact read
  · exact sound held

/-- Remembering a string of the data keeps the cache sound. -/
theorem Cache.Sound.remember {cache cache' : Cache} {o : UInt32} {sep : Char}
    {value value' : String} (sound : cache.Sound data)
    (read : plainString data o sep () = .ok (value, ()))
    (stored : cache.remember o sep value = .ok (value', cache'))
    : value' = value ∧ cache'.Sound data := by
  simp only [Cache.remember, bind_ok, pure_ok, Prod.mk.injEq] at stored
  obtain ⟨bytes, -, _, -, rfl, rfl⟩ := stored
  exact ⟨rfl, sound.extend read bytes⟩

-----------------------------------------------------------------------------------------
-- The reader agrees with it
-----------------------------------------------------------------------------------------

/-- A part read through the cache is the part in the data. -/
theorem partString_sound {cache cache' : Cache} {s : UInt32} {value : String}
    (sound : cache.Sound data) (part : dynamic s = false ∨ s = null)
    (read : partString data s cache = .ok (value, cache'))
    : plainPart data s () = .ok (value, ()) ∧ cache'.Sound data := by
  rw [partString] at read
  rw [plainPart]
  split at read
  · rename_i missing
    obtain ⟨rfl, rfl⟩ := Prod.mk.inj (Except.ok.inj read)
    exact ⟨by rw [if_pos missing], sound⟩
  · rename_i present
    have plain : dynamic s = false := part.resolve_right present
    have direct : ∀ {text : String}, plainString data s '\x00' () = .ok (text, ()) →
        staticString data s = .ok text := by
      intro text given
      rw [plainString, if_neg present, decode, plain, if_neg Bool.false_ne_true] at given
      obtain ⟨value, found, returned⟩ := bind_ok.mp given
      obtain ⟨rfl, -⟩ := Prod.mk.inj (pure_ok.mp returned)
      exact found
    split at read
    · rename_i known
      obtain ⟨rfl, rfl⟩ := Prod.mk.inj (Except.ok.inj read)
      refine ⟨?_, sound⟩
      rw [if_neg present, direct (sound known)]
      rfl
    · obtain ⟨text, given, stored⟩ := bind_ok.mp read
      have found : plainString data s '\x00' () = .ok (text, ()) := by
        simp [plainString, present, decode, plain, given]
      obtain ⟨rfl, sound'⟩ := sound.remember found stored
      refine ⟨?_, sound'⟩
      rw [if_neg present, given]
      rfl

/-- Two walks over the parts of one string, with and without a sound cache. -/
structure Walk.Agrees (data : List UInt8) (cached : Walk Cache) (plain : Walk Unit)
    : Prop where
  p : plain.p = cached.p
  seen : plain.seen = cached.seen
  parts : plain.parts = cached.parts
  bytes : plain.bytes = cached.bytes
  sound : cached.cache.Sound data

/-- One part of a walk with a cache is one of the walk without. -/
theorem walkPart_agrees {cached after : Walk Cache} {plain : Walk Unit}
    (agrees : cached.Agrees data plain)
    (round : walkPart data (partString data) cached = .ok (some after))
    : ∃ next, walkPart data (plainPart data) plain = .ok (some next) ∧ after.Agrees data next := by
  obtain ⟨p, seen, parts, bytes, ⟨⟩⟩ := plain
  obtain ⟨rfl, rfl, rfl, rfl, sound⟩ := agrees
  simp only [walkPart] at round ⊢
  split at round
  · cases round
  · rename_i present
    simp only [bind_ok, pure_ok, Option.some.injEq] at round
    obtain ⟨fresh, checked, s, word, part, unlinked, ⟨text, cache⟩, read, total, summed, short,
      fits, next, follows, rfl⟩ := round
    have kind : dynamic s = false ∨ s = null := by simpa using unlinked
    obtain ⟨direct, sound'⟩ := partString_sound sound kind read
    refine ⟨{ p := next, seen := _, parts := _, bytes := total, cache := () }, ?_,
      ⟨rfl, rfl, rfl, rfl, sound'⟩⟩
    rw [if_neg present]
    simp only [bind_ok, pure_ok, Option.some.injEq]
    exact ⟨fresh, checked, s, word, part, unlinked, (text, ()), direct, total, summed, short,
      fits, next, follows, rfl⟩

/-- A walk stops behind the last part only. -/
theorem walkPart_stops {κ : Type} {part : UInt32 → κ → Except Failure (String × κ)}
    {walk : Walk κ}
    : walkPart data part walk = .ok none ↔ walk.p = null := by
  rw [walkPart]
  split
  · rename_i ended
    simp [ended]
  · rename_i present
    simp only [bind_ok, pure_ok, reduceCtorEq, and_false, exists_false, present]

/-- A value decoded with a sound cache is the value in the data. -/
theorem decode_sound {cache cache' : Cache} {o : UInt32} {sep : Char} {value : String}
    (sound : cache.Sound data)
    (read : decode data (partString data) o sep cache = .ok (value, cache'))
    : decode data (plainPart data) o sep () = .ok (value, ()) ∧ cache'.Sound data := by
  rw [decode] at read ⊢
  split at read
  · rename_i kind
    rw [if_pos kind]
    simp only [bind_ok, pure_ok, Prod.mk.injEq] at read ⊢
    obtain ⟨separated, checked, last, walked, rfl, rfl⟩ := read
    have start : Walk.Agrees data { p := o, seen := ∅, parts := [], bytes := 0, cache }
        { p := o, seen := ∅, parts := [], bytes := 0, cache := () } :=
      ⟨rfl, rfl, rfl, rfl, sound⟩
    obtain ⟨final, plainly, agrees⟩ :=
      @loop_simulates _ _ _ _ _ _ _ (walkPart_lowers data) (walkPart_lowers data)
        (Walk.Agrees data) (fun agrees round => walkPart_agrees agrees round)
        (fun agrees ended => walkPart_stops.mpr (agrees.p.trans (walkPart_stops.mp ended)))
        _ _ _ start walked
    exact ⟨⟨separated, checked, final, plainly, by rw [agrees.parts], trivial⟩, agrees.sound⟩
  · rename_i kind
    rw [if_neg kind]
    simp only [bind_ok, pure_ok, Prod.mk.injEq] at read ⊢
    obtain ⟨text, given, rfl, rfl⟩ := read
    exact ⟨⟨text, given, rfl, trivial⟩, sound⟩

/-- A string read through a sound cache is the string in the data. -/
theorem string_sound {cache cache' : Cache} {o : UInt32} {sep : Char} {value : String}
    (sound : cache.Sound data) (read : string data o sep cache = .ok (value, cache'))
    : plainString data o sep () = .ok (value, ()) ∧ cache'.Sound data := by
  rw [string] at read
  split at read
  · rename_i missing
    obtain ⟨rfl, rfl⟩ := Prod.mk.inj (Except.ok.inj read)
    exact ⟨by rw [plainString, if_pos missing], sound⟩
  · rename_i present
    split at read
    · rename_i known
      obtain ⟨rfl, rfl⟩ := Prod.mk.inj (Except.ok.inj read)
      exact ⟨sound known, sound⟩
    · obtain ⟨⟨text, middle⟩, given, stored⟩ := bind_ok.mp read
      obtain ⟨plainly, sound'⟩ := decode_sound sound given
      have found : plainString data o sep () = .ok (text, ()) := by
        rw [plainString, if_neg present]
        exact plainly
      obtain ⟨rfl, sound''⟩ := sound'.remember found stored
      exact ⟨found, sound''⟩

/-- A type name read through a sound cache is the one in the data. -/
theorem typeName_sound {cache cache' : Cache} {o : UInt32} {value : String}
    (sound : cache.Sound data)
    (read : typeName data (string data) o cache = .ok (value, cache'))
    : typeName data (plainString data) o () = .ok (value, ()) ∧ cache'.Sound data := by
  simp only [typeName, bind_ok] at read ⊢
  obtain ⟨present, checked, bytes, taken, word, found, text⟩ := read
  obtain ⟨plainly, sound'⟩ := string_sound sound text
  exact ⟨⟨present, checked, bytes, taken, word, found, plainly⟩, sound'⟩

/-- A key read through a sound cache is the one in the data. -/
theorem key_sound {cache cache' : Cache} {o : UInt32} {value : Option String}
    (sound : cache.Sound data) (read : key data (string data) o cache = .ok (value, cache'))
    : key data (plainString data) o () = .ok (value, ()) ∧ cache'.Sound data := by
  simp only [key, bind_ok] at read ⊢
  obtain ⟨bytes, taken, word, found, ⟨kind, middle⟩, typed, place, placed, rest⟩ := read
  obtain ⟨plainly, sound'⟩ := typeName_sound sound typed
  suffices ends : _ ∧ cache'.Sound data from
    ⟨⟨bytes, taken, word, found, (kind, ()), plainly, place, placed, ends.1⟩, ends.2⟩
  split at rest
  · rename_i named
    simp only [bind_ok, pure_ok, Prod.mk.injEq] at rest
    obtain ⟨record, within, second, placedRecord, unit, half, first, start, sep, given,
      ⟨text, last⟩, found', rfl, rfl⟩ := rest
    obtain ⟨direct, sound''⟩ := string_sound sound' found'
    refine ⟨?_, sound''⟩
    rw [if_pos named]
    simp only [bind_ok, pure_ok, Prod.mk.injEq]
    exact ⟨record, within, second, placedRecord, unit, half, first, start, sep, given,
      (text, ()), direct, rfl, trivial⟩
  · rename_i other
    split at rest
    · rename_i number
      obtain ⟨rfl, rfl⟩ := Prod.mk.inj (pure_ok.mp rest)
      refine ⟨?_, sound'⟩
      rw [if_neg other, if_pos number]
      rfl
    · cases rest

end MoenotesAssets.Catalogs
