import MoenotesAssets.Foundation.Bytes
import MoenotesAssets.Foundation.Machine

/-! Readers of a byte string that remember a position, and the pieces that they read. A format
says which pieces a value is written as; reading inverts it.
-/

namespace Foundation

open Bytes Machine

-----------------------------------------------------------------------------------------
-- Positions
-----------------------------------------------------------------------------------------

/-- Bytes and the position of the next one. -/
structure Cursor where
  bytes : List UInt8
  pos : Nat

/-- A computation that moves a cursor. -/
abbrev Reading (α : Type) := StateT Cursor (Except Failure) α

/-- A check between two reads. -/
def Reading.ensure (condition : Bool) (message : String) : Reading Unit :=
  StateT.lift (Foundation.ensure condition (.error message))

/-- A read that must return the given value. -/
def Reading.expect {α : Type} [BEq α] (reading : Reading α) (expected : α) (message : String)
    : Reading Unit := do
  Reading.ensure ((← reading) == expected) message

/-- A value from a context between two reads. -/
def Reading.context {α : Type} (found : Option α) (message : String) : Reading α :=
  StateT.lift (Foundation.context found (.error message))

/-- The position lies within the bytes and fits into a counter. -/
structure Cursor.Within (cursor : Cursor) : Prop where
  inside : cursor.pos ≤ cursor.bytes.length
  counted : cursor.pos ≤ max64

/-- (cursor.Passes piece after) holds when moving from `cursor` to `after` passes `piece`. -/
structure Cursor.Passes (cursor : Cursor) (piece : List UInt8) (after : Cursor) : Prop where
  bytes : after.bytes = cursor.bytes
  pos : after.pos = cursor.pos + piece.length
  piece : cursor.bytes.drop cursor.pos = piece ++ after.bytes.drop after.pos
  counted : after.pos ≤ max64

/-- Not moving passes nothing. -/
theorem Cursor.Within.stays {cursor : Cursor} (within : cursor.Within)
    : cursor.Passes [] cursor :=
  ⟨rfl, rfl, rfl, within.counted⟩

/-- Passing nothing is not moving. -/
theorem Cursor.Passes.stays {cursor after : Cursor} (passes : cursor.Passes [] after)
    : after = cursor := by
  obtain ⟨bytes, pos⟩ := after
  obtain ⟨bytes', pos'⟩ := cursor
  obtain ⟨same, moved, -, -⟩ := passes
  simp only [List.length_nil, Nat.add_zero] at same moved
  rw [same, moved]

/-- A cursor stays within the bytes. -/
theorem Cursor.Passes.within {cursor after : Cursor} {piece : List UInt8}
    (passes : cursor.Passes piece after) (within : cursor.Within)
    : after.Within := by
  have rest := congrArg List.length passes.piece
  rw [List.length_drop, List.length_append, List.length_drop, passes.bytes, passes.pos] at rest
  have inside := within.inside
  refine ⟨?_, passes.counted⟩
  rw [passes.bytes, passes.pos]
  omega

/-- Two moves pass two pieces. -/
theorem Cursor.Passes.trans {cursor middle after : Cursor} {first second : List UInt8}
    (one : cursor.Passes first middle) (other : middle.Passes second after)
    : cursor.Passes (first ++ second) after where
  bytes := other.bytes.trans one.bytes
  pos := by
    rw [other.pos, one.pos, List.length_append, Nat.add_assoc]
  piece := by
    rw [one.piece, other.piece, List.append_assoc]
  counted := other.counted

/-- A move over two pieces passes the first one, then the second one. -/
theorem Cursor.Passes.split {cursor after : Cursor} {first second : List UInt8}
    (passes : cursor.Passes (first ++ second) after)
    : ∃ middle, cursor.Passes first middle ∧ middle.Passes second after := by
  have moved := passes.pos
  rw [List.length_append] at moved
  have counted := passes.counted
  have rest : cursor.bytes.drop (cursor.pos + first.length)
      = second ++ after.bytes.drop after.pos := by
    rw [← List.drop_drop, passes.piece, List.append_assoc, List.drop_left]
  refine ⟨{ cursor with pos := cursor.pos + first.length }, ⟨rfl, rfl, ?_, ?_⟩,
    ⟨passes.bytes, ?_, rest, counted⟩⟩
  · rw [rest, passes.piece, List.append_assoc]
  · simp only
    omega
  · rw [moved, Nat.add_assoc]

/-- A slice at the cursor is passed. -/
theorem Cursor.Within.slice_passes {cursor : Cursor} (within : cursor.Within)
    {piece : List UInt8} {stop : Nat}
    : slice cursor.bytes cursor.pos stop = some piece ∧ stop ≤ max64
      ↔ cursor.Passes piece { cursor with pos := stop } := by
  rw [slice]
  constructor
  · rintro ⟨found, counted⟩
    split at found
    · rename_i range
      obtain rfl := Option.some.inj found
      have length : ((cursor.bytes.drop cursor.pos).take (stop - cursor.pos)).length
          = stop - cursor.pos := by
        rw [List.length_take, List.length_drop]
        omega
      refine ⟨rfl, ?_, ?_, counted⟩
      · rw [length]
        simp only
        omega
      · have rest : cursor.bytes.drop stop
            = (cursor.bytes.drop cursor.pos).drop (stop - cursor.pos) := by
          rw [List.drop_drop, Nat.add_sub_cancel' range.1]
        simp only [rest, List.take_append_drop]
    · cases found
  · intro passes
    have inside := (passes.within within).inside
    have moved := passes.pos
    have rest := passes.piece
    simp only at inside moved rest
    rw [if_pos ⟨by omega, inside⟩, rest, moved, Nat.add_sub_cancel_left, List.take_left]
    exact ⟨rfl, moved ▸ passes.counted⟩

-----------------------------------------------------------------------------------------
-- Formats
-----------------------------------------------------------------------------------------

/-- (Reads format reading) holds when `reading` returns a value just when it passes a piece
that `format` allows for the position and the value.
-/
structure Reads {α : Type} (format : Nat → α → List UInt8 → Prop) (reading : Reading α)
    : Prop where
  inverts
    : ∀ {cursor after : Cursor} {value : α},
        cursor.Within
        → (reading cursor = .ok (value, after)
            ↔ ∃ piece, format cursor.pos value piece ∧ cursor.Passes piece after)

variable {α β : Type}

/-- Two formats that allow the same pieces. -/
theorem Reads.congr {format format' : Nat → α → List UInt8 → Prop} {reading : Reading α}
    (reads : Reads format reading)
    (same : ∀ {pos : Nat} {value : α} {piece : List UInt8},
      format pos value piece ↔ format' pos value piece)
    : Reads format' reading := by
  refine ⟨fun {cursor after value} within => ?_⟩
  rw [reads.inverts within]
  simp only [same]

/-- A value that is returned is written as nothing. -/
theorem Reads.pure (value : α)
    : Reads (fun _ found piece => found = value ∧ piece = []) (pure value) := by
  refine ⟨fun {cursor after found} within => ?_⟩
  constructor
  · intro same
    obtain ⟨rfl, rfl⟩ := Prod.mk.inj (pure_ok.mp same)
    exact ⟨[], ⟨rfl, rfl⟩, within.stays⟩
  · rintro ⟨piece, ⟨rfl, rfl⟩, passes⟩
    rw [passes.stays]
    rfl

/-- What is computed without reading is written as nothing. -/
theorem Reads.lift (computation : Except Failure α)
    : Reads (fun _ value piece => computation = .ok value ∧ piece = [])
        (StateT.lift computation) := by
  refine ⟨fun {cursor after value} within => ?_⟩
  constructor
  · intro same
    obtain ⟨given, computed, returned⟩ := bind_ok.mp same
    obtain ⟨rfl, rfl⟩ := Prod.mk.inj (pure_ok.mp returned)
    exact ⟨[], ⟨computed, rfl⟩, within.stays⟩
  · rintro ⟨piece, ⟨computed, rfl⟩, passes⟩
    rw [passes.stays]
    exact bind_ok.mpr ⟨value, computed, rfl⟩

/-- A value from a context is written as nothing. -/
theorem Reads.context (found : Option α) (message : String)
    : Reads (fun _ value piece => found = some value ∧ piece = [])
        (Reading.context found message) :=
  (Reads.lift _).congr (by simp)

/-- A check is written as nothing. -/
theorem Reads.ensure (condition : Bool) (message : String)
    : Reads (fun _ _ piece => condition = true ∧ piece = []) (Reading.ensure condition message) :=
  (Reads.lift _).congr (by simp)

/-- The rule of sequences: a piece of the first reading, then one of the second. -/
theorem Reads.bind {format : Nat → α → List UInt8 → Prop}
    {later : α → Nat → β → List UInt8 → Prop} {reading : Reading α} {next : α → Reading β}
    (reads : Reads format reading) (continues : ∀ (value : α), Reads (later value) (next value))
    : Reads
        (fun pos value piece =>
          ∃ given first second,
            format pos given first
            ∧ later given (pos + first.length) value second
            ∧ piece = first ++ second)
        (reading >>= next) := by
  refine ⟨fun {cursor after value} within => ?_⟩
  constructor
  · intro same
    obtain ⟨⟨given, middle⟩, begins, ends⟩ := bind_ok.mp same
    obtain ⟨first, written, passes⟩ := (reads.inverts within).mp begins
    obtain ⟨second, written', passes'⟩ := ((continues given).inverts (passes.within within)).mp ends
    rw [passes.pos] at written'
    exact ⟨first ++ second, ⟨given, first, second, written, written', rfl⟩, passes.trans passes'⟩
  · rintro ⟨piece, ⟨given, first, second, written, written', rfl⟩, passes⟩
    obtain ⟨middle, one, other⟩ := passes.split
    have begins := (reads.inverts within).mpr ⟨first, written, one⟩
    have ends := ((continues given).inverts (one.within within)).mpr
      ⟨second, one.pos ▸ written', other⟩
    exact bind_ok.mpr ⟨(given, middle), begins, ends⟩

-----------------------------------------------------------------------------------------
-- Formats in blocks
-----------------------------------------------------------------------------------------

/-- (ReadsBlocks size format reading) holds when `reading`, from a position that is a multiple
of `size`, inverts the format, whose pieces are as long as whole blocks.
-/
structure ReadsBlocks (size : Nat) (format : α → List UInt8 → Prop) (reading : Reading α)
    : Prop where
  whole : ∀ {value : α} {piece : List UInt8}, format value piece → size ∣ piece.length
  inverts
    : ∀ {cursor after : Cursor} {value : α},
        cursor.Within
        → size ∣ cursor.pos
        → (reading cursor = .ok (value, after)
            ↔ ∃ piece, format value piece ∧ cursor.Passes piece after)

variable {size : Nat}

/-- A format that does not depend on the block. -/
theorem Reads.blocks {format : Nat → α → List UInt8 → Prop} {format' : α → List UInt8 → Prop}
    {reading : Reading α} (reads : Reads format reading)
    (same : ∀ {pos : Nat} {value : α} {piece : List UInt8},
      size ∣ pos → (format pos value piece ↔ format' value piece))
    (whole : ∀ {value : α} {piece : List UInt8}, format' value piece → size ∣ piece.length)
    : ReadsBlocks size format' reading := by
  refine ⟨whole, fun {cursor after value} within start => ?_⟩
  rw [reads.inverts within]
  simp only [same start]

/-- Two formats that allow the same pieces. -/
theorem ReadsBlocks.congr {format format' : α → List UInt8 → Prop} {reading : Reading α}
    (reads : ReadsBlocks size format reading)
    (same : ∀ {value : α} {piece : List UInt8}, format value piece ↔ format' value piece)
    : ReadsBlocks size format' reading := by
  refine ⟨fun written => reads.whole (same.mpr written),
    fun {cursor after value} within start => ?_⟩
  rw [reads.inverts within start]
  simp only [same]

/-- A value that is returned is written as nothing. -/
theorem ReadsBlocks.pure (value : α)
    : ReadsBlocks size (fun found piece => found = value ∧ piece = []) (pure value) := by
  refine (Reads.pure value).blocks (fun _ => Iff.rfl) ?_
  rintro found piece ⟨-, rfl⟩
  exact Nat.dvd_zero size

/-- The rule of sequences: blocks of the first reading, then those of the second. -/
theorem ReadsBlocks.bind {format : α → List UInt8 → Prop} {later : α → β → List UInt8 → Prop}
    {reading : Reading α} {next : α → Reading β} (reads : ReadsBlocks size format reading)
    (continues : ∀ (value : α), ReadsBlocks size (later value) (next value))
    : ReadsBlocks size
        (fun value piece =>
          ∃ given first second,
            format given first ∧ later given value second ∧ piece = first ++ second)
        (reading >>= next) := by
  constructor
  case whole =>
    rintro value piece ⟨given, first, second, written, written', rfl⟩
    rw [List.length_append]
    exact Nat.dvd_add (reads.whole written) ((continues given).whole written')
  case inverts =>
    intro cursor after value within start
    constructor
    · intro same
      obtain ⟨⟨given, middle⟩, begins, ends⟩ := bind_ok.mp same
      obtain ⟨first, written, passes⟩ := (reads.inverts within start).mp begins
      have next : size ∣ middle.pos := passes.pos ▸ Nat.dvd_add start (reads.whole written)
      obtain ⟨second, written', passes'⟩ :=
        ((continues given).inverts (passes.within within) next).mp ends
      exact ⟨_, ⟨given, first, second, written, written', rfl⟩, passes.trans passes'⟩
    · rintro ⟨piece, ⟨given, first, second, written, written', rfl⟩, passes⟩
      obtain ⟨middle, one, other⟩ := passes.split
      have next : size ∣ middle.pos := one.pos ▸ Nat.dvd_add start (reads.whole written)
      have begins := (reads.inverts within start).mpr ⟨first, written, one⟩
      have ends :=
        ((continues given).inverts (one.within within) next).mpr ⟨second, written', other⟩
      exact bind_ok.mpr ⟨(given, middle), begins, ends⟩

/-- The rule of sequences behind a reading that is always written as the same piece. -/
theorem ReadsBlocks.andThen {piece : List UInt8} {later : β → List UInt8 → Prop}
    {reading : Reading Unit} {next : Unit → Reading β}
    (reads : ReadsBlocks size (fun _ found => found = piece) reading)
    (continues : ReadsBlocks size later (next ()))
    : ReadsBlocks size (fun value found => ∃ rest, later value rest ∧ found = piece ++ rest)
        (reading >>= next) := by
  refine (reads.bind fun _ => continues).congr ?_
  intro value found
  constructor
  · rintro ⟨_, _, rest, rfl, follows, rfl⟩
    exact ⟨rest, follows, rfl⟩
  · rintro ⟨rest, follows, rfl⟩
    exact ⟨(), piece, rest, rfl, follows, rfl⟩

/-- A value that must be read is written as itself. -/
theorem ReadsBlocks.expect [BEq α] [LawfulBEq α] {format : α → List UInt8 → Prop}
    {reading : Reading α} (reads : ReadsBlocks size format reading) (expected : α)
    (message : String)
    : ReadsBlocks size (fun _ piece => format expected piece)
        (Reading.expect reading expected message) := by
  have checks : ∀ (value : α),
      ReadsBlocks size (fun (_ : Unit) piece => (value == expected) = true ∧ piece = [])
        (Reading.ensure (value == expected) message) := by
    intro value
    refine (Reads.ensure _ _).blocks (fun _ => Iff.rfl) ?_
    rintro found piece ⟨-, rfl⟩
    exact Nat.dvd_zero size
  refine (reads.bind checks).congr ?_
  intro done piece
  constructor
  · rintro ⟨value, first, second, written, ⟨same, rfl⟩, rfl⟩
    rwa [List.append_nil, ← eq_of_beq same]
  · exact fun written => ⟨expected, piece, [], written, ⟨beq_self_eq_true _, rfl⟩, by simp⟩

-----------------------------------------------------------------------------------------
-- Readings without a panic
-----------------------------------------------------------------------------------------

/-- The largest byte string: `isize::MAX` bytes. -/
def maxBytes : Nat := 2 ^ 63 - 1

/-- (Advances size P reading) holds when `reading` does not panic, moves over `size` bytes at
most and returns values that satisfy `P` only.
-/
structure Advances (size : Nat) (P : α → Prop) (reading : Reading α) : Prop where
  moves
    : ∀ {cursor : Cursor},
        cursor.pos + size ≤ maxBytes
        → Yields (fun read => P read.1 ∧ read.2.pos ≤ cursor.pos + size) (reading cursor)

/-- A returned value. -/
theorem Advances.pure {P : α → Prop} {value : α} (holds : P value)
    : Advances 0 P (pure value) :=
  ⟨fun _ => .value ⟨holds, Nat.le_refl _⟩⟩

/-- What is computed without reading. -/
theorem Advances.lift {P : α → Prop} {computation : Except Failure α}
    (yields : Yields P computation)
    : Advances 0 P (StateT.lift computation) :=
  ⟨fun _ => yields.bind fun holds => .value ⟨holds, Nat.le_refl _⟩⟩

/-- A value from a context. -/
theorem Advances.context (found : Option α) (message : String)
    : Advances 0 (fun value => found = some value) (Reading.context found message) :=
  .lift (.context found message)

/-- A check. -/
theorem Advances.ensure (condition : Bool) (message : String)
    : Advances 0 (fun _ => condition = true) (Reading.ensure condition message) :=
  .lift (.ensure condition message)

/-- The rule of sequences: the sizes add up. -/
theorem Advances.bind {first second : Nat} {P : α → Prop} {Q : β → Prop} {reading : Reading α}
    {next : α → Reading β} (advances : Advances first P reading)
    (continues : ∀ {value : α}, P value → Advances second Q (next value))
    : Advances (first + second) Q (reading >>= next) := by
  refine ⟨fun {cursor} room => ?_⟩
  refine .bind (advances.moves (by omega)) fun {read} ⟨holds, moved⟩ => ?_
  refine ((continues holds).moves (by omega)).imp fun {read'} ⟨ends, moved'⟩ => ⟨ends, ?_⟩
  omega

/-- A weaker property and a larger size. -/
theorem Advances.weaken {size size' : Nat} {P Q : α → Prop} {reading : Reading α}
    (advances : Advances size P reading) (larger : size ≤ size')
    (weaker : ∀ {value : α}, P value → Q value)
    : Advances size' Q reading := by
  refine ⟨fun {cursor} room => ?_⟩
  refine (advances.moves (by omega)).imp fun {read} ⟨holds, moved⟩ => ⟨weaker holds, ?_⟩
  omega

end Foundation
