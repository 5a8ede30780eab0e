import Mathlib.Data.List.Basic
import Mathlib.Data.List.GetD
import Mathlib.Data.List.Induction
import Mathlib.Data.String.Basic
import Mathlib.Tactic.Ring

/-! Byte strings: slices, masks, fixed-width integers, hexadecimal text and UTF-16. -/

namespace Foundation.Bytes

/-- `data.get(start..stop)` -/
def slice (data : List UInt8) (start stop : Nat) : Option (List UInt8) :=
  if start ≤ stop ∧ stop ≤ data.length then some ((data.drop start).take (stop - start))
  else none

/-- `from_le_bytes` of any width. -/
def littleEndian (bytes : List UInt8) : Nat :=
  bytes.foldr (fun byte rest => byte.toNat + 256 * rest) 0

/-- `from_be_bytes` of any width. -/
def bigEndian (bytes : List UInt8) : Nat :=
  bytes.foldl (fun first byte => 256 * first + byte.toNat) 0

/-- `to_le_bytes` of a width. -/
def littleEndianBytes : Nat → Nat → List UInt8
  | 0, _ => []
  | width + 1, value => UInt8.ofNat value :: littleEndianBytes width (value / 256)

/-- `to_be_bytes` of a width. -/
def bigEndianBytes (width value : Nat) : List UInt8 :=
  (List.range width).reverse.map fun place => UInt8.ofNat (value / 256 ^ place)

/-- A hexadecimal digit as `hex::encode` writes it. -/
def hexDigit (value : Nat) : Char :=
  if value < 10 then Char.ofNat ('0'.toNat + value) else Char.ofNat ('a'.toNat + (value - 10))

/-- `hex::encode` -/
def hexEncode (bytes : List UInt8) : String :=
  String.ofList
    (bytes.flatMap fun byte => [hexDigit (byte.toNat / 16), hexDigit (byte.toNat % 16)])

/-- `is_ascii` on bytes. -/
def isAscii (bytes : List UInt8) : Bool := bytes.all (fun byte => byte.toNat < 128)

/-- The text of bytes below 256, one character each. -/
def asciiText (bytes : List UInt8) : String :=
  String.ofList (bytes.map fun byte => Char.ofNat byte.toNat)

/-- `as_bytes` of a text. -/
def textBytes (text : String) : List UInt8 := text.toByteArray.data.toList

/-- `str::from_utf8` -/
def fromUtf8 (bytes : List UInt8) : Option String := String.fromUTF8? ⟨bytes.toArray⟩

/-- `trim_end_matches` of a letter. -/
def trimEnd (letter : Char) (text : String) : List Char :=
  (text.toList.reverse.dropWhile (· = letter)).reverse

/-- The little-endian 16-bit units of bytes, without a last odd byte. -/
def units : List UInt8 → List Nat
  | low :: high :: rest => littleEndian [low, high] :: units rest
  | _ => []

/-- `String::from_utf16`: no text when a surrogate is unpaired. -/
def utf16 : List Nat → Option (List Char)
  | [] => some []
  | unit :: rest =>
      if unit < 0xD800 ∨ 0xDFFF < unit then (utf16 rest).map (Char.ofNat unit :: ·)
      else if 0xDBFF < unit then none
      else
        match rest with
        | low :: rest =>
            if 0xDC00 ≤ low ∧ low ≤ 0xDFFF then
              (utf16 rest).map
                (Char.ofNat (0x10000 + (unit - 0xD800) * 0x400 + (low - 0xDC00)) :: ·)
            else none
        | [] => none

/-- Little-endian bytes have their width. -/
@[simp] theorem littleEndianBytes_length (width value : Nat)
    : (littleEndianBytes width value).length = width := by
  induction width generalizing value with
  | zero => rfl
  | succ width ih => rw [littleEndianBytes, List.length_cons, ih]

/-- The last byte of a little-endian number is the highest one. -/
theorem littleEndian_concat (bytes : List UInt8) (byte : UInt8)
    : littleEndian (bytes ++ [byte])
      = littleEndian bytes + 256 ^ bytes.length * byte.toNat := by
  induction bytes with
  | nil => simp [littleEndian]
  | cons first rest ih =>
      rw [littleEndian, littleEndian] at ih ⊢
      rw [List.cons_append, List.foldr_cons, ih, List.foldr_cons, List.length_cons, Nat.pow_succ']
      ring

/-- Little-endian bytes are read back, as far as the value fits. -/
theorem littleEndian_bytes (width value : Nat)
    : littleEndian (littleEndianBytes width value) = value % 256 ^ width := by
  induction width generalizing value with
  | zero => simp [littleEndianBytes, littleEndian, Nat.mod_one]
  | succ width ih =>
      have rest := ih (value / 256)
      rw [littleEndian] at rest
      have low : (UInt8.ofNat value).toNat = value % 256 := UInt8.toNat_ofNat'
      rw [littleEndianBytes, littleEndian, List.foldr_cons, rest, low, Nat.pow_succ',
        Nat.mod_mul]

/-- Bytes are the little-endian bytes of the number they are read as. -/
theorem littleEndianBytes_littleEndian (bytes : List UInt8)
    : littleEndianBytes bytes.length (littleEndian bytes) = bytes := by
  induction bytes with
  | nil => rfl
  | cons byte rest ih =>
      have low := byte.toNat_lt
      rw [littleEndian] at ih
      rw [littleEndian, List.foldr_cons, List.length_cons, littleEndianBytes,
        show (byte.toNat + 256 * rest.foldr (fun byte rest => byte.toNat + 256 * rest) 0) / 256
          = rest.foldr (fun byte rest => byte.toNat + 256 * rest) 0 by omega, ih]
      congr 1
      rw [← UInt8.toNat_inj, UInt8.toNat_ofNat']
      omega

/-- A number that fits is determined by its little-endian bytes. -/
theorem littleEndianBytes_injective {width left right : Nat} (fits : left < 256 ^ width)
    (fits' : right < 256 ^ width)
    (same : littleEndianBytes width left = littleEndianBytes width right)
    : left = right := by
  have values := congrArg littleEndian same
  rwa [littleEndian_bytes, littleEndian_bytes, Nat.mod_eq_of_lt fits, Nat.mod_eq_of_lt fits']
    at values

/-- A number that is read from bytes fits into their width. -/
theorem littleEndian_lt (bytes : List UInt8) : littleEndian bytes < 256 ^ bytes.length := by
  rw [← littleEndianBytes_littleEndian bytes, littleEndian_bytes, littleEndianBytes_length]
  exact Nat.mod_lt _ (Nat.pow_pos (by decide))

/-- The last byte of a big-endian number is the lowest one. -/
theorem bigEndian_concat (bytes : List UInt8) (byte : UInt8)
    : bigEndian (bytes ++ [byte]) = 256 * bigEndian bytes + byte.toNat := by
  rw [bigEndian, List.foldl_append]
  rfl

/-- The lowest byte of a big-endian number is written last. -/
theorem bigEndianBytes_succ (width value : Nat)
    : bigEndianBytes (width + 1) value
      = bigEndianBytes width (value / 256) ++ [UInt8.ofNat value] := by
  rw [bigEndianBytes, List.range_succ_eq_map, List.reverse_cons, List.map_append,
    ← List.map_reverse, List.map_map, bigEndianBytes]
  refine congrArg₂ _ (List.map_congr_left fun place _ => ?_) ?_
  · simp only [Function.comp, Nat.succ_eq_add_one, Nat.pow_succ', Nat.div_div_eq_div_mul]
  · rw [List.map_singleton, Nat.pow_zero, Nat.div_one]

/-- Big-endian bytes have their width. -/
@[simp] theorem bigEndianBytes_length (width value : Nat)
    : (bigEndianBytes width value).length = width := by
  rw [bigEndianBytes, List.length_map, List.length_reverse, List.length_range]

/-- Big-endian bytes are read back, as far as the value fits. -/
theorem bigEndian_bytes (width value : Nat)
    : bigEndian (bigEndianBytes width value) = value % 256 ^ width := by
  induction width generalizing value with
  | zero => rw [Nat.pow_zero, Nat.mod_one]; rfl
  | succ width ih =>
      have low : (UInt8.ofNat value).toNat = value % 256 := UInt8.toNat_ofNat'
      rw [bigEndianBytes_succ, bigEndian_concat, ih, low, Nat.pow_succ', Nat.mod_mul,
        Nat.add_comm]

/-- A number that is read from big-endian bytes fits into their width, by induction on the bytes
from the last one.
-/
theorem bigEndian_lt (bytes : List UInt8) : bigEndian bytes < 256 ^ bytes.length := by
  induction bytes using List.reverseRec with
  | nil => exact Nat.one_pos
  | append_singleton bytes byte ih =>
      have low := byte.toNat_lt
      rw [bigEndian_concat, List.length_append, List.length_singleton, Nat.pow_succ']
      omega

/-- The bytes of a text. -/
@[simp] theorem textBytes_length (text : String) : (textBytes text).length = text.utf8ByteSize :=
  rfl

/-- The digits of a byte determine it. -/
theorem hexDigit_injective {left right : Nat} (small : left < 16) (small' : right < 16)
    (same : hexDigit left = hexDigit right)
    : left = right := by
  have each : ∀ first second : Fin 16, hexDigit first = hexDigit second → first = second := by
    decide +kernel
  simpa using each ⟨left, small⟩ ⟨right, small'⟩ same

/-- Bytes are determined by their hexadecimal text. -/
theorem hexEncode_injective : Function.Injective hexEncode := by
  intro left right same
  have letters := String.ofList_injective same
  clear same
  induction left generalizing right with
  | nil =>
      cases right with
      | nil => rfl
      | cons byte rest => cases letters
  | cons first rest ih =>
      cases right with
      | nil => cases letters
      | cons second others =>
          simp only [List.flatMap_cons, List.cons_append, List.nil_append,
            List.cons.injEq] at letters
          obtain ⟨high, low, later⟩ := letters
          have bound := first.toNat_lt
          have bound' := second.toNat_lt
          have upper := hexDigit_injective (by omega) (by omega) high
          have lower := hexDigit_injective (by omega) (by omega) low
          have same : first = second := UInt8.toNat_inj.mp (by omega)
          rw [ih later, same]

/-- Only digits are written. -/
theorem hexEncode_digits {mark : Char} (foreign : ∀ value < 16, hexDigit value ≠ mark)
    (bytes : List UInt8)
    : mark ∉ (hexEncode bytes).toList := by
  rw [hexEncode, String.toList_ofList, List.mem_flatMap]
  rintro ⟨byte, -, member⟩
  have bound := byte.toNat_lt
  rcases List.mem_cons.mp member with high | low
  · exact foreign (byte.toNat / 16) (by omega) high.symm
  · exact foreign (byte.toNat % 16) (by omega) (List.mem_singleton.mp low).symm

/-- Digits determine their number. -/
theorem digits_injective : Function.Injective (Nat.toDigits 10) := by
  intro number other same
  have parsed := congrArg (fun digits => Nat.ofDigitChars 10 digits 0) same
  simpa only [Nat.ofDigitChars_toDigits (by decide : 1 < 10) (by decide : 10 ≤ 10)] using parsed

/-- A number padded with zeros has digits only. -/
theorem leftpad_digits (width value : Nat)
    : ∀ letter ∈ (Nat.toDigits 10 value).leftpad width '0', letter.isDigit = true := by
  intro letter member
  rw [List.leftpad, List.mem_append] at member
  rcases member with padding | digit
  · rw [List.eq_of_mem_replicate padding]
    rfl
  · exact Nat.isDigit_of_mem_toDigits (by decide) (by decide) digit

/-- Reading UTF-8 inverts writing it. -/
theorem fromUtf8_eq_some {bytes : List UInt8} {text : String}
    : fromUtf8 bytes = some text ↔ textBytes text = bytes := by
  rw [fromUtf8, String.fromUTF8?]
  constructor
  · intro found
    split at found
    · obtain rfl := Option.some.inj found
      rfl
    · cases found
  · rintro rfl
    exact dif_pos text.isValidUTF8

/-- A text is determined by its bytes. -/
theorem textBytes_injective {left right : String} (same : textBytes left = textBytes right)
    : left = right :=
  Option.some.inj ((fromUtf8_eq_some.mpr same).symm.trans (fromUtf8_eq_some.mpr rfl))

/-- The bytes of a text of letters, letter by letter. -/
theorem textBytes_ofList (letters : List Char)
    : textBytes (String.ofList letters) = letters.flatMap String.utf8EncodeChar := by
  rw [textBytes, String.toByteArray_ofList, List.utf8Encode]
  simp

/-- A letter of ASCII is one byte. -/
theorem utf8EncodeChar_ascii {letter : Char} (plain : letter.toNat < 128)
    : String.utf8EncodeChar letter = [letter.toNat.toUInt8] := by
  have small : letter.val.toNat ≤ 127 := Nat.le_of_lt_succ plain
  rw [String.utf8EncodeChar]
  exact if_pos small

/-- The bytes of two texts, one behind the other. -/
theorem textBytes_append (left right : String)
    : textBytes (left ++ right) = textBytes left ++ textBytes right := by
  rw [textBytes, String.toByteArray_append, ByteArray.data_append, Array.toList_append]
  rfl

-----------------------------------------------------------------------------------------
-- Parts
-----------------------------------------------------------------------------------------

/-- A member of joined parts separates them or belongs to one, by induction on the parts. -/
theorem mem_joined {α : Type} {member mark : α} {parts : List (List α)}
    (joined : member ∈ [mark].intercalate parts)
    : member = mark ∨ ∃ part ∈ parts, member ∈ part := by
  induction parts with
  | nil => exact absurd joined List.not_mem_nil
  | cons first rest ih =>
      cases rest with
      | nil =>
          rw [List.intercalate_singleton] at joined
          exact Or.inr ⟨first, List.mem_cons_self, joined⟩
      | cons second others =>
          rw [List.intercalate_cons_cons, List.mem_append, List.mem_append] at joined
          rcases joined with (here | between) | later
          · exact Or.inr ⟨first, List.mem_cons_self, here⟩
          · exact Or.inl (List.mem_singleton.mp between)
          · exact (ih later).imp_right fun ⟨part, among, found⟩ =>
              ⟨part, List.mem_cons_of_mem _ among, found⟩

/-- The parts of a list around the first of its marks are determined. -/
theorem separated_inj {α : Type} {mark : α} {front back front' back' : List α}
    (plain : mark ∉ front) (plain' : mark ∉ front')
    (same : front ++ mark :: back = front' ++ mark :: back')
    : front = front' ∧ back = back' := by
  induction front generalizing front' with
  | nil =>
      cases front' with
      | nil => exact ⟨rfl, (List.cons.inj same).2⟩
      | cons first rest => exact absurd (List.cons.inj same).1 (List.ne_of_not_mem_cons plain')
  | cons first rest ih =>
      cases front' with
      | nil => exact absurd (List.cons.inj same).1.symm (List.ne_of_not_mem_cons plain)
      | cons first' rest' =>
          obtain ⟨rfl, later⟩ := List.cons.inj same
          obtain ⟨rfl, rfl⟩ := ih (List.not_mem_of_not_mem_cons plain)
            (List.not_mem_of_not_mem_cons plain') later
          exact ⟨rfl, rfl⟩

/-- A slice as a part. -/
theorem slice_eq_some {bytes part : List UInt8} {start stop : Nat}
    : slice bytes start stop = some part
      ↔ start ≤ stop ∧ stop ≤ bytes.length ∧ (bytes.drop start).take (stop - start) = part := by
  rw [slice]
  split
  · rename_i within
    simp [within]
  · rename_i beyond
    constructor
    · intro absurd'
      cases absurd'
    · exact fun found => absurd ⟨found.1, found.2.1⟩ beyond

/-- A slice has the length of its range. -/
theorem slice_length {data bytes : List UInt8} {start stop : Nat}
    (found : slice data start stop = some bytes)
    : bytes.length = stop - start ∧ stop ≤ data.length := by
  obtain ⟨_, inside, rfl⟩ := slice_eq_some.mp found
  rw [List.length_take, List.length_drop]
  omega

/-- A number is bounded by the width of its slice. -/
theorem bigEndian_slice_lt {data bytes : List UInt8} {start width : Nat}
    (found : slice data start (start + width) = some bytes)
    : bigEndian bytes < 256 ^ width := by
  have bound := bigEndian_lt bytes
  rwa [(slice_length found).1, Nat.add_sub_cancel_left] at bound

/-- What comes after a position. -/
theorem slice_rest {data : List UInt8} {start : Nat} (inside : start ≤ data.length)
    : slice data start data.length = some (data.drop start) := by
  refine slice_eq_some.mpr ⟨inside, Nat.le_refl _, List.take_of_length_le ?_⟩
  rw [List.length_drop]

/-- A part of a part. -/
theorem part_part (bytes : List UInt8) {start size first count : Nat}
    (inside : first + count ≤ size)
    : (((bytes.drop start).take size).drop first).take count
      = (bytes.drop (start + first)).take count := by
  rw [List.drop_take, List.take_take, Nat.min_eq_left (Nat.le_sub_of_add_le' inside),
    List.drop_drop]

/-- A part that is cut in two. -/
theorem part_cut (bytes : List UInt8) (start first second : Nat)
    : (bytes.drop start).take (first + second)
      = (bytes.drop start).take first ++ (bytes.drop (start + first)).take second := by
  rw [List.take_add, List.drop_drop]

/-- A part of one byte. -/
theorem part_byte {bytes : List UInt8} {place : Nat} (inside : place < bytes.length)
    : (bytes.drop place).take 1 = [bytes.getD place 0] := by
  rw [List.drop_eq_getElem_cons inside, List.take_succ_cons, List.take_zero,
    List.getD_eq_getElem?_getD, List.getElem?_eq_getElem inside, Option.getD_some]

/-- A part of the first bytes. -/
theorem part_take {start size limit : Nat} (bytes : List UInt8) (inside : start + size ≤ limit)
    : ((bytes.take limit).drop start).take size = (bytes.drop start).take size := by
  rw [List.drop_take, List.take_take, Nat.min_eq_left (Nat.le_sub_of_add_le' inside)]

/-- A byte of the first bytes. -/
theorem byte_take {place limit : Nat} (bytes : List UInt8) (inside : place < limit)
    : (bytes.take limit).getD place 0 = bytes.getD place 0 := by
  rw [List.getD_eq_getElem?_getD, List.getElem?_take_of_lt inside, List.getD_eq_getElem?_getD]

/-- Storing behind the start of a part stores in the part. -/
theorem drop_set_add (list : List UInt8) (start i : Nat) (byte : UInt8)
    : (list.set (start + i) byte).drop start = (list.drop start).set i byte := by
  rw [List.drop_set, if_neg (by omega), Nat.add_sub_cancel_left]

/-- Another byte than the one stored. -/
theorem getD_set_ne (list : List UInt8) (byte : UInt8) {i j : Nat} (apart : i ≠ j)
    : (list.set i byte).getD j 0 = list.getD j 0 := by
  rw [List.getD_eq_getElem?_getD, List.getElem?_set_ne apart, List.getD_eq_getElem?_getD]

/-- The byte stored. -/
theorem getD_set_self {list : List UInt8} (byte : UInt8) {i : Nat} (inside : i < list.length)
    : (list.set i byte).getD i 0 = byte := by
  rw [List.getD_eq_getElem?_getD, List.getElem?_set_self inside, Option.getD_some]

-----------------------------------------------------------------------------------------
-- Masks
-----------------------------------------------------------------------------------------

/-- Combining with the same key twice changes nothing. -/
theorem xor_undoes (byte key : UInt8) : byte ^^^ key ^^^ key = byte := by
  rw [UInt8.xor_assoc, UInt8.xor_self, UInt8.xor_zero]

/-- A byte of a row that is combined with a mask. -/
theorem zipWith_getElem? {row mask : List UInt8} {i : Nat} (inside : i < mask.length)
    : (List.zipWith (· ^^^ ·) row mask)[i]? = row[i]?.map (· ^^^ mask.getD i 0) := by
  rw [List.getElem?_zipWith, List.getD_eq_getElem?_getD, List.getElem?_eq_getElem inside]
  cases row[i]? <;> rfl

/-- A byte of a row that is combined with a mask, as a value. -/
theorem zipWith_getD {row mask : List UInt8} {i : Nat} (held : i < row.length)
    (inside : i < mask.length)
    : (List.zipWith (· ^^^ ·) row mask).getD i 0 = row.getD i 0 ^^^ mask.getD i 0 := by
  rw [List.getD_eq_getElem?_getD, zipWith_getElem? inside, List.getD_eq_getElem row _ held,
    List.getElem?_eq_getElem held, Option.map_some, Option.getD_some]

/-- A row that is combined with a mask keeps its length. -/
theorem zipWith_length {row mask : List UInt8} (fits : row.length ≤ mask.length)
    : (List.zipWith (· ^^^ ·) row mask).length = row.length := by
  rw [List.length_zipWith, Nat.min_eq_left fits]

end Foundation.Bytes
