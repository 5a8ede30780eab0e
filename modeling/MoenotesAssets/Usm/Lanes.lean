import MoenotesAssets.Foundation.Keystream
import MoenotesAssets.Foundation.Machine
import MoenotesAssets.Foundation.Bytes
import MoenotesAssets.Usm.Mask
import Mathlib.Data.List.GetD

/-! The mask routines work on rows of 32 bytes. Byte by byte they are ciphers with one lane for
each place of a row: in a video, the key of a byte follows the decoded byte a row before.
-/

namespace MoenotesAssets.Usm

open Foundation Foundation.Keystream Foundation.Machine Foundation.Bytes

-----------------------------------------------------------------------------------------
-- Byte by byte
-----------------------------------------------------------------------------------------

/-- One byte of the second pass: it is decoded with the mask of its lane, which then follows the
decoded byte.
-/
def scalarByte (second : List UInt8) (state : List UInt8 × List UInt8) (i : Nat)
    : List UInt8 × List UInt8 :=
  let (mask, buf) := state
  let lane := i % 32
  let byte := buf.getD (0x40 + i) 0 ^^^ mask.getD lane 0
  (mask.set lane (byte ^^^ second.getD lane 0), buf.set (0x40 + i) byte)

/-- The second pass over a buffer, byte by byte. -/
def scalarTail (second buf : List UInt8) : List UInt8 :=
  ((List.range' 0x100 (buf.length - 0x40 - 0x100)).foldl (scalarByte second) (second, buf)).2

/-- `mask_video` byte by byte. -/
def scalarVideo (buf : List UInt8) (vmask : VideoMask) : List UInt8 :=
  if buf.length < 0x240 then buf
  else ((List.range 0x100).foldl maskHead (vmask.first, scalarTail vmask.second buf)).2

/-- `mask_audio` byte by byte. -/
def scalarAudio (buf amask : List UInt8) : List UInt8 :=
  buf.mapIdx fun i byte => if 0x140 ≤ i then byte ^^^ amask.getD (i % 32) 0 else byte

/-- The masks of every key have 32 bytes. -/
theorem getMask_lengths (key : UInt64)
    : (getMask key).video.first.length = 32
      ∧ (getMask key).video.second.length = 32
      ∧ (getMask key).audio.length = 32 := by
  have width : (maskTable key).length = 32 := rfl
  refine ⟨width, ?_, ?_⟩
  · rw [getMask, List.length_map, width]
  · rw [getMask, List.length_mapIdx, width]

-----------------------------------------------------------------------------------------
-- Rows
-----------------------------------------------------------------------------------------

/-- The key of a byte after the first row follows the decoded byte a row before; `mask` is for
the first row.
-/
def rowKey (second mask plain : List UInt8) (i : Nat) : UInt8 :=
  if i < 32 then mask.getD i 0 else plain.getD (i - 32) 0 ^^^ second.getD (i % 32) 0

/-- A key follows the bytes before its own. -/
theorem rowKey_causal (second mask : List UInt8) : Causal (rowKey second mask) := by
  intro left right i same
  simp only [rowKey]
  split
  case isTrue => rfl
  case isFalse later =>
    have here : left.getD (i - 32) 0 = right.getD (i - 32) 0 := by
      have before : i - 32 < i := by omega
      rw [List.getD_eq_getElem?_getD, List.getD_eq_getElem?_getD,
        ← List.getElem?_take_of_lt before, same, List.getElem?_take_of_lt before]
    rw [here]

/-- The rows of the second pass decode with keys that follow the decoded bytes, by induction on
the number of full rows.
-/
theorem maskRows_deciphers {second mask rest : List UInt8} {count : Nat}
    (width : second.length = 32) (lanes : mask.length = 32)
    (few : rest.length ≤ 32 * count + 32) (many : 32 * count ≤ rest.length)
    : Deciphers (· ^^^ ·) (rowKey second mask) rest (maskRows second count mask rest) := by
  induction count generalizing mask rest with
  | zero =>
      refine List.ext_getElem? fun i => ?_
      rw [crypt_getElem?, Nat.zero_add, maskRows]
      by_cases inside : i < 32
      · rw [zipWith_getElem? (lanes ▸ inside), rowKey, if_pos inside]
      · rw [List.getElem?_eq_none (by rw [List.length_zipWith]; omega),
          List.getElem?_eq_none (by omega), Option.map_none]
  | succ count ih =>
      have full : (rest.take 32).length = 32 := by rw [List.length_take]; omega
      have decoded : (List.zipWith (· ^^^ ·) (rest.take 32) mask).length = 32 := by
        rw [zipWith_length (by omega), full]
      have later := @ih (List.zipWith (· ^^^ ·) (List.zipWith (· ^^^ ·) (rest.take 32) mask) second)
        (rest.drop 32) (by rw [zipWith_length (by omega), decoded])
        (by rw [List.length_drop]; omega) (by rw [List.length_drop]; omega)
      refine List.ext_getElem? fun i => ?_
      rw [crypt_getElem?, Nat.zero_add, maskRows]
      by_cases inside : i < 32
      · rw [List.getElem?_append_left (by omega), zipWith_getElem? (by omega),
          List.getElem?_take_of_lt inside, rowKey, if_pos inside]
      · have behind : 32 ≤ i := by omega
        rw [List.getElem?_append_right (by omega), decoded, later, crypt_getElem?,
          List.getElem?_drop, Nat.add_sub_cancel' behind, ← later]
        refine Option.map_congr fun byte held => ?_
        have within : i < rest.length := (List.getElem?_eq_some_iff.mp held).1
        rw [Nat.zero_add, rowKey, rowKey, if_neg inside]
        by_cases next : i - 32 < 32
        · have lane : i % 32 = i - 32 := by omega
          rw [if_pos next, List.getD_append _ _ _ _ (by omega), lane,
            zipWith_getD (by omega) (by omega)]
        · have lane : i % 32 = (i - 32) % 32 := by omega
          rw [if_neg next, List.getD_append_right _ _ _ _ (by omega), decoded, lane]

-----------------------------------------------------------------------------------------
-- The second pass
-----------------------------------------------------------------------------------------

/-- What holds after some bytes of the second pass: the bytes decoded are combined with their
keys, the others are as before, and the masks are the keys of the next 32 bytes.
-/
structure Decoding (second buf : List UInt8) (count : Nat) (state : List UInt8 × List UInt8)
    : Prop where
  lanes : state.1.length = 32
  size : state.2.length = buf.length
  before : ∀ i < 0x140, state.2[i]? = buf[i]?
  decoded
    : ∀ i < count,
        (state.2.drop 0x140)[i]?
        = (buf.drop 0x140)[i]?.map (· ^^^ rowKey second second (state.2.drop 0x140) i)
  waiting : ∀ i, count ≤ i → (state.2.drop 0x140)[i]? = (buf.drop 0x140)[i]?
  keys
    : ∀ i,
        count ≤ i
        → i < count + 32
        → state.1.getD (i % 32) 0 = rowKey second second (state.2.drop 0x140) i

/-- Before the first byte, the masks are those of the first row. -/
theorem Decoding.start {second : List UInt8} (width : second.length = 32) (buf : List UInt8)
    : Decoding second buf 0 (second, buf) where
  lanes := width
  size := rfl
  before := fun _ _ => rfl
  decoded := fun i below => absurd below (Nat.not_lt_zero i)
  waiting := fun _ _ => rfl
  keys := fun i _ below => by
    have inside : i < 32 := by omega
    rw [rowKey, if_pos inside, Nat.mod_eq_of_lt inside]

/-- A byte decoded adds to what is decoded. -/
theorem Decoding.step {second buf : List UInt8} {count : Nat} {state : List UInt8 × List UInt8}
    (decoding : Decoding second buf count state) (inside : count + 0x140 < buf.length)
    : Decoding second buf (count + 1) (scalarByte second state (0x100 + count)) := by
  obtain ⟨mask, now⟩ := state
  obtain ⟨lanes, size, before, decoded, waiting, keys⟩ := decoding
  dsimp only at lanes size before decoded waiting keys
  have lane : (0x100 + count) % 32 = count % 32 := by omega
  have place : 0x40 + (0x100 + count) = 0x140 + count := by omega
  -- The byte that is stored, and the tail of the buffer with it.
  obtain ⟨byte, stored⟩ : ∃ byte, byte = now.getD (0x140 + count) 0 ^^^ mask.getD (count % 32) 0 :=
    ⟨_, rfl⟩
  have tail : (now.set (0x140 + count) byte).drop 0x140 = (now.drop 0x140).set count byte :=
    drop_set_add now 0x140 count byte
  have long : count < (now.drop 0x140).length := by
    rw [List.length_drop, size]
    exact Nat.lt_sub_of_add_lt inside
  have kept : ∀ i, i ≤ count →
      rowKey second second ((now.drop 0x140).set count byte) i
        = rowKey second second (now.drop 0x140) i := by
    intro i below
    refine rowKey_causal second second _ _ i ?_
    rw [List.take_set_of_le below]
  simp only [scalarByte, lane, place, ← stored]
  refine ⟨by rw [List.length_set, lanes], by rw [List.length_set, size], ?_, ?_, ?_, ?_⟩
  · intro i below
    rw [List.getElem?_set_ne (by omega), before i below]
  · intro i below
    rw [tail]
    rcases Nat.lt_or_ge i count with earlier | here
    · rw [List.getElem?_set_ne (by omega), decoded i earlier, kept i (by omega)]
    · obtain rfl : i = count := by omega
      have held : now.getD (0x140 + i) 0 = (now.drop 0x140)[i] := by
        rw [List.getElem_drop, List.getD_eq_getElem _ _ (by omega)]
      rw [List.getElem?_set_self long, kept i (by omega), ← waiting i (Nat.le_refl i),
        List.getElem?_eq_getElem long, Option.map_some, stored, held,
        keys i (Nat.le_refl i) (by omega)]
  · intro i later
    rw [tail, List.getElem?_set_ne (by omega), waiting i (by omega)]
  · intro i later below
    rw [tail]
    rcases Nat.lt_or_ge i (count + 32) with near | last
    · rw [getD_set_ne _ _ (by omega), keys i (by omega) near]
      simp only [rowKey]
      split
      case isTrue => rfl
      case isFalse => rw [getD_set_ne _ _ (by omega)]
    · obtain rfl : i = count + 32 := by omega
      have same : (count + 32) % 32 = count % 32 := by omega
      have further : ¬ count + 32 < 32 := by omega
      rw [rowKey, if_neg further, same, Nat.add_sub_cancel, getD_set_self _ (by omega),
        getD_set_self _ long]

/-- So many bytes of the second pass decode so many bytes, by induction on their number. -/
theorem Decoding.run {second buf : List UInt8} {count : Nat} (width : second.length = 32)
    (within : count + 0x140 ≤ buf.length)
    : Decoding second buf count
        ((List.range' 0x100 count).foldl (scalarByte second) (second, buf)) := by
  induction count with
  | zero => exact .start width buf
  | succ count ih =>
      rw [List.range'_1_concat, List.foldl_append]
      exact (ih (by omega)).step (by omega)

/-- The second pass keeps the bytes before the tail, and decodes the tail with keys that follow
the decoded bytes.
-/
theorem scalarTail_deciphers {second buf : List UInt8} (width : second.length = 32)
    (long : 0x240 ≤ buf.length)
    : (scalarTail second buf).take 0x140 = buf.take 0x140
      ∧ Deciphers (· ^^^ ·) (rowKey second second) (buf.drop 0x140)
          ((scalarTail second buf).drop 0x140) := by
  obtain ⟨count, size⟩ : ∃ count, buf.length = count + 0x140 :=
    ⟨buf.length - 0x140, (Nat.sub_add_cancel (by omega)).symm⟩
  have rounds : buf.length - 0x40 - 0x100 = count := by omega
  have decoding := @Decoding.run second buf count width (by omega)
  rw [scalarTail, rounds]
  refine ⟨List.ext_getElem? fun i => ?_, List.ext_getElem? fun i => ?_⟩
  · by_cases inside : i < 0x140
    · rw [List.getElem?_take_of_lt inside, List.getElem?_take_of_lt inside,
        decoding.before i inside]
    · rw [List.getElem?_take_eq_none (by omega), List.getElem?_take_eq_none (by omega)]
  · rw [crypt_getElem?, Nat.zero_add]
    by_cases inside : i < count
    · exact decoding.decoded i inside
    · rw [decoding.waiting i (by omega), List.getElem?_drop,
        List.getElem?_eq_none (by omega), Option.map_none]

/-- The routine decodes row by row what it decodes byte by byte. -/
theorem maskVideo_scalar {buf : List UInt8} {vmask : VideoMask}
    (width : vmask.second.length = 32)
    : maskVideo buf vmask = scalarVideo buf vmask := by
  rw [maskVideo, scalarVideo]
  by_cases short : buf.length < 0x240
  · rw [if_pos (by omega), if_pos short]
  · obtain ⟨count, size⟩ : ∃ count, buf.length = count + 0x140 :=
      ⟨buf.length - 0x140, (Nat.sub_add_cancel (by omega)).symm⟩
    have region : (buf.drop 0x140).length = count := by
      rw [List.length_drop, size]
      exact Nat.add_sub_cancel count 0x140
    obtain ⟨before, decoded⟩ := scalarTail_deciphers width (by omega : 0x240 ≤ buf.length)
    have rows : Deciphers (· ^^^ ·) (rowKey vmask.second vmask.second) (buf.drop 0x140)
        (maskRows vmask.second ((buf.drop 0x140).length / 32) vmask.second (buf.drop 0x140)) :=
      maskRows_deciphers width width (by omega) (by omega)
    have same := rows.unique (rowKey_causal _ _) decoded
    rw [if_neg (by omega), if_neg short]
    dsimp only
    rw [same, ← before, List.take_append_drop]

-----------------------------------------------------------------------------------------
-- Audio
-----------------------------------------------------------------------------------------

/-- A byte of the rows of `mask_audio`, by induction on the number of full rows. -/
theorem audioRows_getElem? {amask rest : List UInt8} {count : Nat} (width : amask.length = 32)
    (few : rest.length ≤ 32 * count + 32) (many : 32 * count ≤ rest.length) (i : Nat)
    : (audioRows amask count rest)[i]? = rest[i]?.map (· ^^^ amask.getD (i % 32) 0) := by
  induction count generalizing rest i with
  | zero =>
      rw [audioRows]
      by_cases inside : i < 32
      · rw [zipWith_getElem? (width ▸ inside), Nat.mod_eq_of_lt inside]
      · rw [List.getElem?_eq_none (by rw [List.length_zipWith]; omega),
          List.getElem?_eq_none (by omega), Option.map_none]
  | succ count ih =>
      have full : (List.zipWith (· ^^^ ·) (rest.take 32) amask).length = 32 := by
        rw [List.length_zipWith, List.length_take]
        omega
      rw [audioRows]
      by_cases inside : i < 32
      · rw [List.getElem?_append_left (by omega), zipWith_getElem? (by omega),
          List.getElem?_take_of_lt inside, Nat.mod_eq_of_lt inside]
      · have behind : 32 ≤ i := by omega
        have lane : (i - 32) % 32 = i % 32 := by omega
        rw [List.getElem?_append_right (by omega), full,
          ih (by rw [List.length_drop]; omega) (by rw [List.length_drop]; omega),
          List.getElem?_drop, Nat.add_sub_cancel' behind, lane]

/-- The routine combines row by row what it combines byte by byte. -/
theorem maskAudio_scalar {buf amask : List UInt8} (width : amask.length = 32)
    : maskAudio buf amask = scalarAudio buf amask := by
  refine List.ext_getElem? fun i => ?_
  rw [maskAudio, scalarAudio, List.getElem?_mapIdx]
  by_cases short : buf.length < 0x140
  · rw [if_pos short]
    by_cases late : 0x140 ≤ i
    · rw [List.getElem?_eq_none (by omega), Option.map_none]
    · simp only [if_neg late, Option.map_id']
  · have size : (buf.take 0x140).length = 0x140 := by
      rw [List.length_take]
      omega
    rw [if_neg short]
    by_cases late : 0x140 ≤ i
    · have lane : (i - 0x140) % 32 = i % 32 := by omega
      rw [List.getElem?_append_right (by omega), size,
        audioRows_getElem? width (by omega) (by omega), List.getElem?_drop,
        Nat.add_sub_cancel' late, lane]
      simp only [if_pos late]
    · rw [List.getElem?_append_left (by omega), List.getElem?_take_of_lt (by omega)]
      simp only [if_neg late, Option.map_id']

end MoenotesAssets.Usm
