import MoenotesAssets.Usm.Lanes
import Mathlib.Data.Set.Function

/-! Masks can be put back: `mask_video` and `mask_audio` lose nothing of a packet. The tail of a
video packet is restored from its decoded bytes, and the head with the decoded tail.
-/

namespace MoenotesAssets.Usm

open Foundation Foundation.Keystream Foundation.Bytes

-----------------------------------------------------------------------------------------
-- The head
-----------------------------------------------------------------------------------------

/-- The lane masks of the first pass after some rounds over the decoded tail. -/
def laneMasks (first tail : List UInt8) : Nat → List UInt8
  | 0 => first
  | count + 1 =>
      let mask := laneMasks first tail count
      mask.set (count % 32) (mask.getD (count % 32) 0 ^^^ tail.getD count 0)

/-- The key of a byte in the first pass: that of its lane after the round of the byte. -/
def headKey (first tail : List UInt8) (i : Nat) : UInt8 :=
  if 0x40 ≤ i ∧ i < 0x140 then (laneMasks first tail (i - 0x40 + 1)).getD ((i - 0x40) % 32) 0
  else 0

/-- The keys of the bytes that some rounds of the first pass have reached. -/
def headKeyBelow (first tail : List UInt8) (count i : Nat) : UInt8 :=
  if i < 0x40 + count then headKey first tail i else 0

/-- The number of lanes does not change. -/
@[simp] theorem laneMasks_length (first tail : List UInt8) (count : Nat)
    : (laneMasks first tail count).length = first.length := by
  induction count with
  | zero => rfl
  | succ count ih => rw [laneMasks, List.length_set, ih]

/-- So many rounds of the first pass, by induction on their number: the masks follow the tail,
which no round changes, and the bytes reached are combined with their keys.
-/
theorem maskHead_rounds {first buf : List UInt8} {count : Nat} (lanes : first.length = 32)
    (few : count ≤ 0x100)
    : (List.range count).foldl maskHead (first, buf)
      = (laneMasks first (buf.drop 0x140) count,
          crypt (· ^^^ ·) (headKeyBelow first (buf.drop 0x140) count) 0 buf) := by
  induction count with
  | zero =>
      refine Prod.ext rfl (crypt_idle fun i _ byte => ?_).symm
      have idle : headKeyBelow first (buf.drop 0x140) 0 (0 + i) = 0 := by
        rw [headKeyBelow, headKey]
        split
        · exact if_neg (by omega)
        · rfl
      rw [idle, UInt8.xor_zero]
  | succ count ih =>
      rw [List.range_succ, List.foldl_append, ih (by omega), List.foldl_cons, List.foldl_nil]
      have tail : (crypt (· ^^^ ·) (headKeyBelow first (buf.drop 0x140) count) 0 buf).getD
          (0x140 + count) 0 = (buf.drop 0x140).getD count 0 := by
        have idle : headKeyBelow first (buf.drop 0x140) count (0 + (0x140 + count)) = 0 :=
          if_neg (by omega)
        rw [List.getD_eq_getElem?_getD, crypt_getElem?, idle, List.getD_eq_getElem?_getD,
          List.getElem?_drop]
        simp only [UInt8.xor_zero, Option.map_id']
      simp only [maskHead, tail]
      refine Prod.ext rfl (List.ext_getElem? fun i => ?_)
      simp only [List.getElem?_modify, crypt_getElem?, Nat.zero_add, Option.map_eq_map,
        Option.map_map]
      by_cases here : 0x40 + count = i
      · subst here
        have reached : headKeyBelow first (buf.drop 0x140) (count + 1) (0x40 + count)
            = (laneMasks first (buf.drop 0x140) (count + 1)).getD (count % 32) 0 := by
          have place : 0x40 + count - 0x40 = count := by omega
          rw [headKeyBelow, if_pos (by omega), headKey, if_pos (by omega), place]
        have before : headKeyBelow first (buf.drop 0x140) count (0x40 + count) = 0 :=
          if_neg (by omega)
        have stored := @getD_set_self (laneMasks first (buf.drop 0x140) count)
          ((laneMasks first (buf.drop 0x140) count).getD (count % 32) 0
            ^^^ (buf.drop 0x140).getD count 0) (count % 32)
          (by rw [laneMasks_length]; omega)
        rw [reached, before, laneMasks, stored]
        refine Option.map_congr fun byte _ => ?_
        simp only [Function.comp, if_true, UInt8.xor_zero]
      · have same : headKeyBelow first (buf.drop 0x140) (count + 1) i
            = headKeyBelow first (buf.drop 0x140) count i := by
          rw [headKeyBelow, headKeyBelow]
          by_cases below : i < 0x40 + count
          · rw [if_pos below, if_pos (by omega)]
          · rw [if_neg below, if_neg (by omega)]
        rw [same]
        refine Option.map_congr fun byte _ => ?_
        simp only [Function.comp, if_neg here]

/-- The first pass combines the bytes of the head with keys that the tail determines. -/
theorem maskHead_pass {first buf : List UInt8} (lanes : first.length = 32)
    : ((List.range 0x100).foldl maskHead (first, buf)).2
      = crypt (· ^^^ ·) (headKey first (buf.drop 0x140)) 0 buf := by
  rw [maskHead_rounds lanes (Nat.le_refl _)]
  refine crypt_congr fun i _ => ?_
  rw [headKeyBelow, headKey]
  by_cases below : 0 + i < 0x40 + 0x100
  · rw [if_pos below]
  · rw [if_neg below, if_neg (by omega)]

-----------------------------------------------------------------------------------------
-- Video
-----------------------------------------------------------------------------------------

/-- The masks put back on a video packet. -/
def remaskVideo (buf : List UInt8) (vmask : VideoMask) : List UInt8 :=
  if buf.length < 0x240 then buf
  else
    crypt (· ^^^ ·) (headKey vmask.first (buf.drop 0x140)) 0 (buf.take 0x140)
      ++ encipher (· ^^^ ·) (rowKey vmask.second vmask.second) (buf.drop 0x140)

/-- A long packet is unmasked in two parts: the tail with keys that follow the tail, and the head
with keys that the decoded tail determines.
-/
theorem maskVideo_parts {buf : List UInt8} {vmask : VideoMask} (lanes : vmask.first.length = 32)
    (width : vmask.second.length = 32) (long : 0x240 ≤ buf.length)
    : ∃ plain,
        Deciphers (· ^^^ ·) (rowKey vmask.second vmask.second) (buf.drop 0x140) plain
        ∧ maskVideo buf vmask
          = crypt (· ^^^ ·) (headKey vmask.first plain) 0 (buf.take 0x140) ++ plain := by
  obtain ⟨before, decoded⟩ := scalarTail_deciphers width long
  obtain ⟨plain, shape⟩ : ∃ plain, plain = (scalarTail vmask.second buf).drop 0x140 := ⟨_, rfl⟩
  have whole : scalarTail vmask.second buf = buf.take 0x140 ++ plain := by
    rw [shape, ← before, List.take_append_drop]
  rw [← shape] at decoded
  refine ⟨plain, decoded, ?_⟩
  have start : (buf.take 0x140).length = 0x140 := by
    rw [List.length_take]
    omega
  rw [maskVideo_scalar width, scalarVideo, if_neg (by omega), whole, maskHead_pass lanes,
    List.drop_left' start, crypt_append]
  refine congrArg _ (crypt_idle fun i _ byte => ?_)
  have idle : headKey vmask.first plain (0 + (buf.take 0x140).length + i) = 0 :=
    if_neg (by omega)
  rw [idle, UInt8.xor_zero]

/-- What was unmasked can be masked again. -/
theorem remaskVideo_maskVideo {vmask : VideoMask} (lanes : vmask.first.length = 32)
    (width : vmask.second.length = 32) (buf : List UInt8)
    : remaskVideo (maskVideo buf vmask) vmask = buf := by
  by_cases short : buf.length < 0x240
  · rw [maskVideo_scalar width, scalarVideo, if_pos short, remaskVideo, if_pos short]
  · obtain ⟨plain, decoded, parts⟩ := maskVideo_parts lanes width (Nat.le_of_not_lt short)
    have head : (crypt (· ^^^ ·) (headKey vmask.first plain) 0 (buf.take 0x140)).length
        = 0x140 := by
      rw [crypt_length, List.length_take]
      omega
    have first := @List.take_left' _ _ plain _ head
    have rest := @List.drop_left' _ _ plain _ head
    have size : plain.length = (buf.drop 0x140).length := by
      rw [decoded, crypt_length]
    have long : ¬ (crypt (· ^^^ ·) (headKey vmask.first plain) 0 (buf.take 0x140)
        ++ plain).length < 0x240 := by
      rw [List.length_append, crypt_length, size, ← List.length_append, List.take_append_drop]
      exact short
    rw [parts, remaskVideo, if_neg long, first, rest, crypt_crypt xor_undoes,
      ← (deciphers_iff xor_undoes).mp decoded, List.take_append_drop]

/-- What was masked can be unmasked again. -/
theorem maskVideo_remaskVideo {vmask : VideoMask} (lanes : vmask.first.length = 32)
    (width : vmask.second.length = 32) (buf : List UInt8)
    : maskVideo (remaskVideo buf vmask) vmask = buf := by
  by_cases short : buf.length < 0x240
  · rw [remaskVideo, if_pos short, maskVideo_scalar width, scalarVideo, if_pos short]
  · rw [remaskVideo, if_neg short]
    have head : (crypt (· ^^^ ·) (headKey vmask.first (buf.drop 0x140)) 0
        (buf.take 0x140)).length = 0x140 := by
      rw [crypt_length, List.length_take]
      omega
    have first := @List.take_left' _ _
      (encipher (· ^^^ ·) (rowKey vmask.second vmask.second) (buf.drop 0x140)) _ head
    have rest := @List.drop_left' _ _
      (encipher (· ^^^ ·) (rowKey vmask.second vmask.second) (buf.drop 0x140)) _ head
    obtain ⟨plain, decoded, parts⟩ := @maskVideo_parts
      (crypt (· ^^^ ·) (headKey vmask.first (buf.drop 0x140)) 0 (buf.take 0x140)
        ++ encipher (· ^^^ ·) (rowKey vmask.second vmask.second) (buf.drop 0x140))
      vmask lanes width (by
        rw [List.length_append, crypt_length, encipher, crypt_length, ← List.length_append,
          List.take_append_drop]
        omega)
    rw [rest] at decoded
    have same : plain = buf.drop 0x140 :=
      decoded.unique (rowKey_causal _ _) ((deciphers_iff xor_undoes).mpr rfl)
    rw [parts, first, same, crypt_crypt xor_undoes, List.take_append_drop]

/-- Packets that are unmasked to the same bytes are the same. -/
theorem maskVideo_injective {vmask : VideoMask} (lanes : vmask.first.length = 32)
    (width : vmask.second.length = 32)
    : Function.Injective (maskVideo · vmask) := by
  have inverse : Function.LeftInverse (remaskVideo · vmask) (maskVideo · vmask) :=
    remaskVideo_maskVideo lanes width
  exact inverse.injective

/-- A packet keeps its length. -/
theorem maskVideo_length {vmask : VideoMask} (lanes : vmask.first.length = 32)
    (width : vmask.second.length = 32) (buf : List UInt8)
    : (maskVideo buf vmask).length = buf.length := by
  by_cases short : buf.length < 0x240
  · rw [maskVideo_scalar width, scalarVideo, if_pos short]
  · obtain ⟨plain, decoded, parts⟩ := maskVideo_parts lanes width (Nat.le_of_not_lt short)
    rw [parts, List.length_append, crypt_length, decoded, crypt_length, ← List.length_append,
      List.take_append_drop]

/-- The first 64 bytes of a packet stay as they are. -/
theorem maskVideo_start {vmask : VideoMask} (lanes : vmask.first.length = 32)
    (width : vmask.second.length = 32) (buf : List UInt8)
    : (maskVideo buf vmask).take 0x40 = buf.take 0x40 := by
  by_cases short : buf.length < 0x240
  · rw [maskVideo_scalar width, scalarVideo, if_pos short]
  · obtain ⟨plain, -, parts⟩ := maskVideo_parts lanes width (Nat.le_of_not_lt short)
    refine List.ext_getElem? fun i => ?_
    by_cases inside : i < 0x40
    · have idle : headKey vmask.first plain (0 + i) = 0 := if_neg (by omega)
      rw [List.getElem?_take_of_lt inside, List.getElem?_take_of_lt inside, parts,
        List.getElem?_append_left (by rw [crypt_length, List.length_take]; omega),
        crypt_getElem?, idle, List.getElem?_take_of_lt (by omega)]
      simp only [UInt8.xor_zero, Option.map_id']
    · rw [List.getElem?_take_eq_none (by omega), List.getElem?_take_eq_none (by omega)]

-----------------------------------------------------------------------------------------
-- Audio
-----------------------------------------------------------------------------------------

/-- `mask_audio` undoes itself. -/
theorem maskAudio_maskAudio {amask : List UInt8} (width : amask.length = 32) (buf : List UInt8)
    : maskAudio (maskAudio buf amask) amask = buf := by
  rw [maskAudio_scalar width, maskAudio_scalar width]
  refine List.ext_getElem? fun i => ?_
  rw [scalarAudio, List.getElem?_mapIdx, scalarAudio, List.getElem?_mapIdx, Option.map_map]
  cases buf[i]? with
  | none => rfl
  | some byte =>
      rw [Option.map_some, Function.comp]
      split
      case isTrue => rw [xor_undoes]
      case isFalse => rfl

/-- Audio packets that are unmasked to the same bytes are the same. -/
theorem maskAudio_injective {amask : List UInt8} (width : amask.length = 32)
    : Function.Injective (maskAudio · amask) := by
  have involutive : Function.Involutive (maskAudio · amask) := maskAudio_maskAudio width
  exact involutive.injective

/-- The masks of a packet can be put back: `mask_video` has an inverse, so that it is a bijection on
the buffers of each length, keeps short buffers and the first 64 bytes of any, and `mask_audio` is
its own inverse; with the masks of any key, different packets of one length stay different.
-/
theorem masks_invertible (vmask : VideoMask) (amask : List UInt8)
    (first : vmask.first.length = 32) (second : vmask.second.length = 32)
    (audio : amask.length = 32)
    : (∃ remask : List UInt8 → List UInt8,
        Function.LeftInverse remask (maskVideo · vmask)
        ∧ Function.RightInverse remask (maskVideo · vmask))
      ∧ (∀ size : Nat,
          Set.BijOn (maskVideo · vmask) {buf | buf.length = size} {buf | buf.length = size})
      ∧ (∀ buf : List UInt8,
          (maskVideo buf vmask).take 0x40 = buf.take 0x40
          ∧ (buf.length < 0x240 → maskVideo buf vmask = buf))
      ∧ Function.Involutive (maskAudio · amask)
      ∧ ∀ (key : UInt64) (packet other : List UInt8),
          packet.length = other.length
          → packet ≠ other
          → maskVideo packet (getMask key).video ≠ maskVideo other (getMask key).video
            ∧ maskAudio packet (getMask key).audio ≠ maskAudio other (getMask key).audio := by
  refine ⟨⟨(remaskVideo · vmask), remaskVideo_maskVideo first second,
    maskVideo_remaskVideo first second⟩, fun size => ?_,
    fun buf => ⟨maskVideo_start first second buf, fun short => ?_⟩, maskAudio_maskAudio audio,
    fun key packet other _ apart => ⟨?_, ?_⟩⟩
  · refine ⟨fun buf sized => (maskVideo_length first second buf).trans sized,
      (maskVideo_injective first second).injOn,
      fun buf sized => ⟨remaskVideo buf vmask, ?_, maskVideo_remaskVideo first second buf⟩⟩
    have back := maskVideo_length first second (remaskVideo buf vmask)
    rw [maskVideo_remaskVideo first second] at back
    exact back.symm.trans sized
  · rw [maskVideo_scalar second, scalarVideo, if_pos short]
  · obtain ⟨lanes, width, -⟩ := getMask_lengths key
    exact fun same => apart (maskVideo_injective lanes width same)
  · obtain ⟨-, -, width⟩ := getMask_lengths key
    exact fun same => apart (maskAudio_injective width same)

/-- The masks of a video. -/
theorem masks_invertible_video
    : Function.Involutive (maskAudio · (getMask 1).audio)
      ∧ Set.BijOn (maskVideo · (getMask 1).video) {buf | buf.length = 600}
          {buf | buf.length = 600} := by
  obtain ⟨first, second, audio⟩ := getMask_lengths 1
  obtain ⟨-, bijective, -, sound, -⟩ := masks_invertible _ _ first second audio
  exact ⟨sound, bijective 600⟩

end MoenotesAssets.Usm
