import MoenotesAssets.Embedded.Extract

/-! Extraction accepts the encodings of wrappers, each as the payload that it holds: every read
inverts one part of the layout.
-/

namespace MoenotesAssets.Embedded

open Foundation Foundation.Bytes Foundation.Machine

-----------------------------------------------------------------------------------------
-- Padding
-----------------------------------------------------------------------------------------

/-- Padding depends on the position within a group of four. -/
theorem padding_congr {left right : Nat} (same : left % 4 = right % 4)
    : padding left = padding right := by
  rw [padding, padding, same]

/-- Padding fills a group of four. -/
theorem padding_length (pos : Nat) : (padding pos).length = (4 - pos % 4) % 4 :=
  List.length_replicate

/-- Padded bytes are groups of four. -/
theorem padded_aligned (bytes : List UInt8) : (padded bytes).length % 4 = 0 := by
  rw [padded, List.length_append, padding_length]
  omega

/-- Delimited bytes are groups of four. -/
theorem delimited_aligned (bytes : List UInt8) : (delimited bytes).length % 4 = 0 :=
  padded_aligned _

/-- The distance to the next multiple of four. -/
theorem toAlign_ok {pos n : Nat}
    : toAlign pos = .ok n ↔ n = (4 - pos % 4) % 4 ∧ pos + n ≤ max64 := by
  have stop : divCeil pos 4 * 4 = pos + (4 - pos % 4) % 4 := by
    rw [divCeil]
    omega
  rw [toAlign, mulSize, stop]
  split
  · simp only [bind_ok, Except.ok.injEq, exists_eq_left', subSize_ok]
    omega
  · simp only [bind_ok, reduceCtorEq, false_and, exists_false, false_iff]
    omega

/-- Zero bytes of a length. -/
theorem all_zero {bytes : List UInt8} {n : Nat}
    : bytes.length = n ∧ bytes.all (· == 0) = true ↔ bytes = List.replicate n 0 := by
  rw [List.eq_replicate_iff, List.all_eq_true]
  simp only [beq_iff_eq]

-----------------------------------------------------------------------------------------
-- Reads
-----------------------------------------------------------------------------------------

/-- Bytes are read as they are. -/
theorem take_reads (n : Nat)
    : Reads (fun _ value piece => piece = value ∧ value.length = n) (take n) := by
  refine ⟨fun {cursor after value} within => ?_⟩
  simp only [take, bind_ok, context_ok, pure_ok, Prod.mk.injEq]
  constructor
  · rintro ⟨stop, added, piece, found, rfl, rfl⟩
    obtain ⟨rfl, counted⟩ := checkedAdd_eq_some added
    obtain ⟨length, -⟩ := slice_length found
    exact ⟨piece, ⟨rfl, by omega⟩, within.slice_passes.mp ⟨found, counted⟩⟩
  · rintro ⟨piece, ⟨rfl, rfl⟩, passes⟩
    obtain ⟨bytes, pos⟩ := after
    obtain rfl : bytes = cursor.bytes := passes.bytes
    obtain rfl : pos = cursor.pos + piece.length := passes.pos
    obtain ⟨found, counted⟩ := within.slice_passes.mpr passes
    exact ⟨_, if_pos counted, piece, found, rfl, rfl⟩

/-- A little-endian number of a width, read into a type that holds it. -/
theorem number_reads {α : Type} {width : Nat} (ofNat : Nat → α) (toNat : α → Nat)
    (inverse : ∀ {n : Nat}, n < 256 ^ width → toNat (ofNat n) = n)
    (inverse' : ∀ (value : α), ofNat (toNat value) = value ∧ toNat value < 256 ^ width)
    : Reads (fun _ value piece => piece = littleEndianBytes width (toNat value))
        (do return ofNat (littleEndian (← take width))) := by
  refine (Reads.bind (take_reads width) fun bytes => Reads.pure _).congr ?_
  intro pos value piece
  constructor
  · rintro ⟨bytes, first, second, ⟨rfl, length⟩, ⟨rfl, rfl⟩, rfl⟩
    have small := littleEndian_lt first
    rw [length] at small
    rw [List.append_nil, inverse small, ← length, littleEndianBytes_littleEndian]
  · rintro rfl
    refine ⟨_, _, [], ⟨rfl, littleEndianBytes_length _ _⟩, ⟨?_, rfl⟩, (List.append_nil _).symm⟩
    rw [littleEndian_bytes, Nat.mod_eq_of_lt (inverse' value).2, (inverse' value).1]

/-- A word is read from four bytes. -/
theorem u32_reads : Reads (fun _ value piece => piece = littleEndianBytes 4 value.toNat) u32 :=
  number_reads UInt32.ofNat UInt32.toNat (fun small => UInt32.toNat_ofNat_of_lt' small)
    (fun value => ⟨UInt32.ofNat_toNat, value.toNat_lt⟩)

/-- A 64-bit number is read from eight bytes. -/
theorem i64_reads : Reads (fun _ value piece => piece = long value) i64 :=
  number_reads (fun n => (UInt64.ofNat n).toInt64) (fun value => value.toUInt64.toNat)
    (fun small => UInt64.toNat_ofNat_of_lt' small)
    (fun value =>
      ⟨by rw [UInt64.ofNat_toNat, Int64.toInt64_toUInt64], value.toUInt64.toNat_lt⟩)

/-- The padding up to a group of four is read. -/
theorem align_reads : Reads (fun pos _ piece => piece = padding pos) align := by
  refine ⟨fun {cursor after done} within => ?_⟩
  have reads := (Reads.lift (toAlign cursor.pos)).bind fun n => (take_reads n).bind fun zeros =>
    Reads.ensure (zeros.all (· == 0)) "nonzero embedded alignment"
  have unfolded : align cursor = (StateT.lift (toAlign cursor.pos) >>= fun n => take n >>=
      fun zeros => Reading.ensure (zeros.all (· == 0)) "nonzero embedded alignment") cursor := rfl
  rw [unfolded, reads.inverts within]
  refine exists_congr fun piece => and_congr_left fun passes => ?_
  constructor
  · rintro ⟨n, _, _, ⟨aligned, rfl⟩, ⟨zeros, _, _, ⟨rfl, length⟩, ⟨zero, rfl⟩, rfl⟩, rfl⟩
    obtain ⟨rfl, -⟩ := toAlign_ok.mp aligned
    rw [List.nil_append, List.append_nil]
    exact all_zero.mp ⟨length, zero⟩
  · rintro rfl
    obtain ⟨length, zero⟩ := all_zero.mpr (rfl : padding cursor.pos = List.replicate _ 0)
    have counted := passes.counted
    rw [passes.pos, padding_length] at counted
    exact ⟨_, [], _, ⟨toAlign_ok.mpr ⟨rfl, counted⟩, rfl⟩,
      ⟨_, _, [], ⟨rfl, length⟩, ⟨zero, rfl⟩, (List.append_nil _).symm⟩, rfl⟩

/-- Bytes behind their length, at a position. -/
def delimitedAt (pos : Nat) (bytes : List UInt8) : List UInt8 :=
  littleEndianBytes 4 bytes.length ++ bytes ++ padding (pos + 4 + bytes.length)

/-- Behind groups of four, the position does not matter. -/
theorem delimitedAt_aligned {pos : Nat} (aligned : pos % 4 = 0) (bytes : List UInt8)
    : delimitedAt pos bytes = delimited bytes := by
  rw [delimitedAt, delimited, padded, List.length_append, littleEndianBytes_length]
  exact congrArg (_ ++ ·) (padding_congr (by omega))

/-- A short text is read from its delimited bytes. -/
theorem string_reads
    : Reads
        (fun pos value piece =>
          value.utf8ByteSize ≤ 4096 ∧ piece = delimitedAt pos (textBytes value))
        string := by
  refine (u32_reads.bind fun n => (Reads.ensure _ _).bind fun _ => (take_reads n.toNat).bind
    fun bytes => (Reads.context (fromUtf8 bytes) _).bind fun value => align_reads.bind fun _ =>
    Reads.pure value).congr ?_
  intro pos value piece
  constructor
  · rintro ⟨n, _, _, rfl, ⟨_, _, _, ⟨limit, rfl⟩, ⟨bytes, _, _, ⟨rfl, length⟩, ⟨text, _, _,
      ⟨decoded, rfl⟩, ⟨_, _, _, rfl, ⟨rfl, rfl⟩, rfl⟩, rfl⟩, rfl⟩, rfl⟩, rfl⟩
    obtain rfl := fromUtf8_eq_some.mp decoded
    rw [textBytes_length] at length
    rw [decide_eq_true_eq, ← length] at limit
    refine ⟨limit, ?_⟩
    simp [delimitedAt, length]
  · rintro ⟨limit, rfl⟩
    obtain ⟨n, size⟩ : ∃ n : UInt32, n.toNat = value.utf8ByteSize :=
      ⟨UInt32.ofNat value.utf8ByteSize,
        UInt32.toNat_ofNat_of_lt' (by rw [UInt32.size]; omega)⟩
    rw [← size] at limit
    refine ⟨n, _, _, rfl, ⟨(), [], _, ⟨decide_eq_true limit, rfl⟩, ⟨textBytes value, _, _,
      ⟨rfl, size.symm⟩, ⟨value, [], _, ⟨fromUtf8_eq_some.mpr rfl, rfl⟩, ⟨(), _, [], rfl,
      ⟨rfl, rfl⟩, rfl⟩, rfl⟩, rfl⟩, rfl⟩, ?_⟩
    simp [delimitedAt, size]

-----------------------------------------------------------------------------------------
-- The parts of a wrapper
-----------------------------------------------------------------------------------------

/-- Bytes of whole groups are read as they are. -/
theorem take_blocks {n : Nat} (whole : 4 ∣ n)
    : ReadsBlocks 4 (fun value piece => piece = value ∧ value.length = n) (take n) := by
  refine (take_reads n).blocks (fun _ => Iff.rfl) ?_
  rintro value piece ⟨rfl, length⟩
  exact length ▸ whole

/-- A word is a group. -/
theorem u32_blocks
    : ReadsBlocks 4 (fun value piece => piece = littleEndianBytes 4 value.toNat) u32 := by
  refine u32_reads.blocks (fun _ => Iff.rfl) ?_
  rintro value piece rfl
  exact ⟨1, littleEndianBytes_length _ _⟩

/-- A 64-bit number is two groups. -/
theorem i64_blocks : ReadsBlocks 4 (fun value piece => piece = long value) i64 := by
  refine i64_reads.blocks (fun _ => Iff.rfl) ?_
  rintro value piece rfl
  exact ⟨2, littleEndianBytes_length _ _⟩

/-- A delimited text is whole groups. -/
theorem string_blocks
    : ReadsBlocks 4
        (fun value piece =>
          value.utf8ByteSize ≤ 4096 ∧ piece = delimited (textBytes value))
        string := by
  refine string_reads.blocks (fun {pos value piece} start => ?_) ?_
  · rw [delimitedAt_aligned (Nat.mod_eq_zero_of_dvd start)]
  · rintro value piece ⟨-, rfl⟩
    exact Nat.dvd_of_mod_eq_zero (delimited_aligned _)

/-- The byte of a flag. -/
theorem flag_byte {bytes : List UInt8}
    : (bytes.length = 1 ∧ ∃ byte, index bytes 0 = .ok byte ∧ byte ≤ 1)
      ↔ ∃ flag : Bool, bytes = [if flag then 1 else 0] := by
  constructor
  · rintro ⟨single, byte, found, small⟩
    obtain ⟨first, rfl⟩ := List.length_eq_one_iff.mp single
    obtain rfl := Except.ok.inj found
    rcases Nat.le_one_iff_eq_zero_or_eq_one.mp (UInt8.le_iff_toNat_le.mp small) with zero | one
    · exact ⟨false, congrArg (fun byte => [byte]) (UInt8.toNat_inj.mp zero)⟩
    · exact ⟨true, congrArg (fun byte => [byte]) (UInt8.toNat_inj.mp one)⟩
  · rintro ⟨flag, rfl⟩
    cases flag with
    | false => exact ⟨rfl, 0, rfl, by decide⟩
    | true => exact ⟨rfl, 1, rfl, by decide⟩

/-- The flag is a group. -/
theorem enabled_blocks
    : ReadsBlocks 4 (fun _ piece => ∃ flag : Bool, piece = padded [if flag then 1 else 0])
        enabled := by
  refine ((take_reads 1).bind fun bytes => (Reads.lift (index bytes 0)).bind fun byte =>
    (Reads.ensure (byte ≤ 1) _).bind fun _ => align_reads).blocks ?_ ?_
  · intro pos done piece start
    have place : padding (pos + 1) = padding 1 := padding_congr (by omega)
    constructor
    · rintro ⟨bytes, _, _, ⟨rfl, single⟩, ⟨byte, _, _, ⟨found, rfl⟩, ⟨_, _, _, ⟨small, rfl⟩,
        rfl, rfl⟩, rfl⟩, rfl⟩
      obtain ⟨flag, rfl⟩ := flag_byte.mp ⟨single, byte, found, of_decide_eq_true small⟩
      refine ⟨flag, ?_⟩
      simp [padded, place]
    · rintro ⟨flag, rfl⟩
      obtain ⟨single, byte, found, small⟩ :=
        flag_byte.mpr ⟨flag, (rfl : [if flag then (1 : UInt8) else 0] = _)⟩
      refine ⟨_, _, _, ⟨rfl, single⟩, ⟨byte, [], _, ⟨found, rfl⟩, ⟨(), [], _,
        ⟨decide_eq_true small, rfl⟩, rfl, rfl⟩, rfl⟩, ?_⟩
      simp [padded, place]
  · rintro done piece ⟨flag, rfl⟩
    exact Nat.dvd_of_mod_eq_zero (padded_aligned _)

/-- A null reference is three groups. -/
theorem awb_blocks : ReadsBlocks 4 (fun _ piece => piece = List.replicate 12 0) awb := by
  refine ((take_reads 12).bind fun bytes => Reads.ensure (bytes.all (· == 0)) _).blocks ?_ ?_
  · intro pos done piece start
    constructor
    · rintro ⟨bytes, _, _, ⟨rfl, length⟩, ⟨zero, rfl⟩, rfl⟩
      rw [List.append_nil]
      exact all_zero.mp ⟨length, zero⟩
    · rintro rfl
      obtain ⟨length, zero⟩ := all_zero.mpr (rfl : List.replicate 12 (0 : UInt8) = _)
      exact ⟨_, _, [], ⟨rfl, length⟩, ⟨zero, rfl⟩, (List.append_nil _).symm⟩
  · rintro done piece rfl
    exact ⟨3, List.length_replicate⟩

/-- The registry with one reference. -/
theorem registry_blocks (rid : Int64)
    : ReadsBlocks 4
        (fun _ piece =>
          piece
            = [
                littleEndianBytes 4 2,
                littleEndianBytes 4 1,
                long rid,
                delimited (textBytes className),
                delimited (textBytes namespaceName),
                delimited (textBytes assemblyName)
              ].flatten)
        (registry rid) := by
  have named : ∀ {text message : String}, text.utf8ByteSize ≤ 4096 →
      ReadsBlocks 4 (fun _ piece => piece = delimited (textBytes text))
        (Reading.expect string text message) := by
    intro text message short
    exact (string_blocks.expect text message).congr (by simp [short])
  refine ((u32_blocks.expect 2 _).andThen ((u32_blocks.expect 1 _).andThen
    ((i64_blocks.expect rid _).andThen ((named (by decide)).andThen
    ((named (by decide)).andThen (named (by decide))))))).congr ?_
  intro done piece
  simp [List.flatten]

/-- The bytes before the registry, of the values that are passed over and the reference id. -/
def preamble (gameObject script : List UInt8) (enabled : Bool) (name : String) (rid : Int64)
    : List UInt8 :=
  [
    gameObject,
    padded [if enabled then 1 else 0],
    script,
    delimited (textBytes name),
    long rid,
    List.replicate 12 0,
    littleEndianBytes 4 0
  ].flatten

/-- The bytes before the registry. -/
theorem behaviour_blocks
    : ReadsBlocks 4
        (fun rid piece =>
          ∃ gameObject script enabled name,
            gameObject.length = 12
            ∧ script.length = 12
            ∧ name.utf8ByteSize ≤ 4096
            ∧ piece = preamble gameObject script enabled name rid)
        behaviour := by
  refine ((take_blocks (by decide)).bind fun _ => enabled_blocks.bind fun _ =>
    (take_blocks (by decide)).bind fun _ => string_blocks.bind fun _ => i64_blocks.bind fun rid =>
    awb_blocks.andThen ((u32_blocks.expect 0 _).andThen (ReadsBlocks.pure rid))).congr ?_
  intro rid piece
  constructor
  · rintro ⟨gameObject, _, _, ⟨rfl, length⟩, ⟨_, _, _, ⟨enabled, rfl⟩, ⟨script, _, _,
      ⟨rfl, length'⟩, ⟨name, _, _, ⟨short, rfl⟩, ⟨_, _, _, rfl, ⟨_, ⟨_, ⟨rfl, rfl⟩, rfl⟩, rfl⟩,
      rfl⟩, rfl⟩, rfl⟩, rfl⟩, rfl⟩
    exact ⟨_, _, enabled, name, length, length', short, by simp [preamble]⟩
  · rintro ⟨gameObject, script, enabled, name, length, length', short, rfl⟩
    refine ⟨gameObject, _, _, ⟨rfl, length⟩, ⟨(), _, _, ⟨enabled, rfl⟩, ⟨script, _, _,
      ⟨rfl, length'⟩, ⟨name, _, _, ⟨short, rfl⟩, ⟨rid, _, _, rfl, ⟨_, ⟨_, ⟨rfl, rfl⟩, rfl⟩, rfl⟩,
      rfl⟩, rfl⟩, rfl⟩, rfl⟩, ?_⟩
    simp [preamble]

/-- The payload. -/
theorem payload_blocks (limit : UInt64)
    : ReadsBlocks 4
        (fun value piece =>
          0 < value.length
          ∧ value.length < 2 ^ 32
          ∧ value.length ≤ limit.toNat
          ∧ piece = delimited value)
        (payload limit) := by
  refine (u32_reads.bind fun n => (Reads.ensure _ _).bind fun _ => (take_reads n.toNat).bind
    fun value => align_reads.bind fun _ => Reads.pure value).blocks ?_ ?_
  · intro pos value piece start
    have place := delimitedAt_aligned (Nat.mod_eq_zero_of_dvd start) value
    rw [← place]
    constructor
    · rintro ⟨n, _, _, rfl, ⟨_, _, _, ⟨limits, rfl⟩, ⟨bytes, _, _, ⟨rfl, length⟩,
        ⟨_, _, _, rfl, ⟨rfl, rfl⟩, rfl⟩, rfl⟩, rfl⟩, rfl⟩
      have fits := n.toNat_lt
      rw [Bool.and_eq_true, decide_eq_true_eq, decide_eq_true_eq, UInt64.le_iff_toNat_le,
        UInt32.toNat_toUInt64, ← length] at limits
      refine ⟨limits.1, by omega, limits.2, ?_⟩
      simp [delimitedAt, length]
    · rintro ⟨positive, fits, small, rfl⟩
      obtain ⟨n, size⟩ : ∃ n : UInt32, n.toNat = value.length :=
        ⟨UInt32.ofNat value.length, UInt32.toNat_ofNat_of_lt' fits⟩
      have limits : (decide (0 < n.toNat) && decide (n.toUInt64 ≤ limit)) = true := by
        rw [Bool.and_eq_true, decide_eq_true_eq, decide_eq_true_eq, UInt64.le_iff_toNat_le,
          UInt32.toNat_toUInt64, size]
        exact ⟨positive, small⟩
      refine ⟨n, _, _, rfl, ⟨(), [], _, ⟨limits, rfl⟩, ⟨value, _, _, ⟨rfl, size.symm⟩,
        ⟨(), _, [], rfl, ⟨rfl, rfl⟩, rfl⟩, rfl⟩, rfl⟩, ?_⟩
      simp [delimitedAt, size]
  · rintro value piece ⟨-, -, -, rfl⟩
    exact Nat.dvd_of_mod_eq_zero (delimited_aligned _)

end MoenotesAssets.Embedded
