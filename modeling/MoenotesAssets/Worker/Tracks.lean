import MoenotesAssets.Foundation.Decimal
import MoenotesAssets.Worker.Ivf
import MoenotesAssets.Worker.Regions

/-! What `ffprobe` says of a media file, and the checks of it: which tracks a converted file has, in
which format, how many frames they hold and how long they last.
-/

namespace MoenotesAssets.Worker.Media

open Foundation Foundation.Machine
open Usm (VideoInfo)

-----------------------------------------------------------------------------------------
-- Values
-----------------------------------------------------------------------------------------

/-- `serde_json::Number`; a float has its value. -/
inductive Number where
  | natural (value : UInt64)
  | negative (value : Int)
  | float (value : ℚ)
deriving DecidableEq

/-- `serde_json::Value`; the fields of an object stand in the order of their names. -/
inductive Value where
  | null
  | bool (value : Bool)
  | number (value : Number)
  | text (letters : String)
  | array (items : List Value)
  | object (fields : List (String × Value))

namespace Value

/-- `[]` with a name: `null` for a missing field. -/
def get (name : String) : Value → Value
  | object fields => (fields.lookup name).getD null
  | _ => null

/-- `[]` with a number: `null` beyond the end. -/
def item (position : Nat) : Value → Value
  | array items => items.getD position null
  | _ => null

/-- `Value::as_str` -/
def asStr : Value → Option String
  | text letters => some letters
  | _ => none

/-- `Value::as_array` -/
def asArray : Value → Option (List Value)
  | array items => some items
  | _ => none

/-- `Value::as_u64` -/
def asU64 : Value → Option Nat
  | number (.natural value) => some value.toNat
  | _ => none

mutual

/-- `==` -/
def same : Value → Value → Bool
  | null, null => true
  | bool left, bool right => left == right
  | number left, number right => left == right
  | text left, text right => left == right
  | array left, array right => sameItems left right
  | object left, object right => sameFields left right
  | _, _ => false

/-- `==` of the items of arrays. -/
def sameItems : List Value → List Value → Bool
  | [], [] => true
  | left :: lefts, right :: rights => left.same right && sameItems lefts rights
  | _, _ => false

/-- `==` of the fields of objects. -/
def sameFields : List (String × Value) → List (String × Value) → Bool
  | [], [] => true
  | (name, left) :: lefts, (name', right) :: rights =>
      name == name' && left.same right && sameFields lefts rights
  | _, _ => false

end

mutual

/-- Values are compared exactly, by recursion on them. -/
theorem same_iff (left right : Value) : left.same right = true ↔ left = right := by
  cases left <;> cases right <;> simp only [same, beq_iff_eq, reduceCtorEq, Bool.false_eq_true,
    bool.injEq, number.injEq, text.injEq, array.injEq, object.injEq]
  case array.array lefts rights => exact sameItems_iff lefts rights
  case object.object lefts rights => exact sameFields_iff lefts rights

/-- So are items. -/
theorem sameItems_iff (lefts rights : List Value)
    : sameItems lefts rights = true ↔ lefts = rights := by
  cases lefts with
  | nil => cases rights <;> simp [sameItems]
  | cons left lefts =>
      cases rights with
      | nil => simp [sameItems]
      | cons right rights =>
          rw [sameItems, Bool.and_eq_true, same_iff, sameItems_iff, List.cons.injEq]

/-- So are fields. -/
theorem sameFields_iff (lefts rights : List (String × Value))
    : sameFields lefts rights = true ↔ lefts = rights := by
  cases lefts with
  | nil => cases rights <;> simp [sameFields]
  | cons left lefts =>
      cases rights with
      | nil => simp [sameFields]
      | cons right rights =>
          rw [sameFields, Bool.and_eq_true, Bool.and_eq_true, beq_iff_eq, same_iff, sameFields_iff,
            List.cons.injEq, Prod.ext_iff]

end

instance : DecidableEq Value :=
  fun left right => decidable_of_iff (left.same right = true) (same_iff left right)

end Value

-----------------------------------------------------------------------------------------
-- Checks
-----------------------------------------------------------------------------------------

/-- `parse::<u32>` -/
def parseU32 (text : String) : Option Nat :=
  let digits :=
    match text.toList with
    | '+' :: rest => rest
    | letters => letters
  if digits ≠ [] ∧ digits.all Char.isDigit ∧ Nat.ofDigitChars 10 digits 0 < 2 ^ 32 then
    some (Nat.ofDigitChars 10 digits 0)
  else none

/-- The type of a track. -/
def kind (track : Value) : Option String := (track.get "codec_type").asStr

/-- The codec of a track. -/
def codec (track : Value) : Option String := (track.get "codec_name").asStr

/-- The number of frames that were decoded of a track. -/
def decodedFrames (track : Value) : Option Nat := (track.get "nb_read_frames").asStr.bind parseU32

/-- `video_track` -/
def videoTrack (probe : Value) : Except Failure Value := do
  let streams ← context (probe.get "streams").asArray (.error "missing video streams")
  context (streams.find? fun v => kind v = some "video") (.error "missing video track")

/-- `check_frames` -/
def checkFrames (probe : Value) (info : VideoInfo) : Except Failure Unit := do
  let track ← videoTrack probe
  let count ← context (decodedFrames track) (.error "decoded frame count unavailable")
  ensure (count = info.frames)
    (.error
      ("USM frame count mismatch: decoded " ++ shown count ++ ", declared " ++ shown info.frames))

/-- The check of one track in `validate_media`. -/
def checkStream (video : Bool) (s : Value) : Except Failure Unit :=
  if kind s = some "video" then
    ensure (video && codec s = some "h264") (.error "wrong video codec")
  else if kind s = some "audio" then ensure (codec s = some "aac") (.error "wrong audio codec")
  else .error (.error "unexpected output stream")

/-- The checks of the tracks in `validate_media`. -/
def checkStreams (p : Value) (video : Bool) : Except Failure Unit := do
  let streams ← context (p.get "streams").asArray (.error "missing streams")
  ensure (!streams.isEmpty) (.error "empty media")
  let videos := streams.countP fun s => kind s = some "video"
  let audios := streams.countP fun s => kind s = some "audio"
  ensure (videos = video.toNat && if video then audios ≤ 1 else audios = 1)
    (.error "output track count mismatch")
  streams.forM (checkStream video)

/-- `VideoInfo::duration` -/
def videoDuration (info : VideoInfo) : Binary64 :=
  ((Binary64.ofNat info.frames).mul (.ofNat info.fpsD)).div (.ofNat info.fpsN)

/-- The closure `duration` of `compare_tracks`. -/
def duration (p s : Value) : Option Binary64 :=
  (((s.get "duration").asStr.or ((p.get "format").get "duration").asStr).bind Binary64.parse).filter
    fun n => n.isFinite && (Binary64.ofNat 0).le n

/-- One round of the loop over what is expected in `compare_tracks`. -/
def expectedTrack (probe : Value) : Except Failure (Value × Value) := do
  let tracks ← context (probe.get "streams").asArray (.error "missing source tracks")
  ensure (tracks.length = 1) (.error "ambiguous source tracks")
  return (probe, ← index tracks 0)

/-- One round of the loop over the dimensions. -/
def compareDimension (src dst : Value) (dim : String) : Except Failure Unit := do
  let n ← context (src.get dim).asU64 (.error "video dimension")
  let even ← mulSize (divCeil n 2) 2
  ensure ((dst.get dim).asU64 = some even) (.error "video dimension changed")

/-- One round of the loop over the source tracks. -/
def compareTrack (output : Value) (actual : List Value) (source : Value × Value)
    : Except Failure Unit := do
  let (probe, src) := source
  let sort ← context (kind src) (.error "source track type")
  let dst ← context (actual.find? fun s => kind s = some sort) (.error "output track missing")
  let before ← context (duration probe src) (.error "source duration unavailable")
  let after ← context (duration output dst) (.error "output duration unavailable")
  ensure ((before.sub after).abs.le (.ofDecimal false 1 (-1)))
    (.error "media duration mismatch or truncated output")
  if sort = "audio" then
    ensure
      (src.get "channels" = dst.get "channels" && src.get "sample_rate" = dst.get "sample_rate")
      (.error "audio format changed")
  else if sort = "video" then ["width", "height"].forM (compareDimension src dst)
  else .error (.error "unsupported source track")

/-- `compare_tracks` -/
def compareTracks (input : Value) (audio : Option Value) (output : Value)
    : Except Failure Unit := do
  let expected ← (input :: audio.toList).mapM expectedTrack
  let actual ← context (output.get "streams").asArray (.error "missing output tracks")
  ensure (actual.length = expected.length) (.error "output track count mismatch")
  expected.forM (compareTrack output actual)

/-- A number of 32 bits as a value. -/
def natural (n : Nat) : Value := .number (.natural (.ofNat n))

/-- The track that a video is expected to have. -/
def expectedPicture (info : VideoInfo) : Value :=
  .object
    [("codec_type", .text "video"),
      ("duration", .text (videoDuration info).toText),
      ("height", natural info.displayHeight),
      ("width", natural info.displayWidth)]

/-- `expected` in `usm_video`. -/
def expectedVideo (info : VideoInfo) : Value :=
  .object [("streams", .array [expectedPicture info])]

-----------------------------------------------------------------------------------------
-- Tracks
-----------------------------------------------------------------------------------------

/-- A tenth of a second, with half of the last place that it has as a number of 64 bits. -/
def tenth : ℚ := 14411518807585589 / 2 ^ 57

/-- A hundredth of a second, with half of its last place. -/
def hundredth : ℚ := 11529215046068471 / 2 ^ 60

/-- The first bound is a tenth up to the last places of numbers of that size. -/
theorem tenth_near : |tenth - 1 / 10| < 1 / 2 ^ 56 := by
  norm_num [tenth, abs_lt]

/-- The second bound is a hundredth up to these. -/
theorem hundredth_near : |hundredth - 1 / 100| < 1 / 2 ^ 56 := by
  norm_num [hundredth, abs_lt]

/-- The seconds that a track lasts, if they are known. -/
def seconds (probe track : Value) : Option ℚ := (duration probe track).bind Binary64.value

/-- (Lasts long output dst) holds when a track lasts as long as that, up to a tenth of a second. -/
def Lasts (long : Option ℚ) (output dst : Value) : Prop :=
  ∃ before after,
    long = some before ∧ seconds output dst = some after ∧ |before - after| ≤ tenth

/-- A track with the pictures of a video: H.264 of its display size, rounded up to even numbers, and
as long.
-/
structure Picture (info : VideoInfo) (output dst : Value) : Prop where
  kind : kind dst = some "video"
  codec : codec dst = some "h264"
  width : (dst.get "width").asU64 = some (2 * divCeil info.displayWidth 2)
  height : (dst.get "height").asU64 = some (2 * divCeil info.displayHeight 2)
  lasts : Lasts (videoDuration info).value output dst

/-- A track with the sound of another one: AAC of as many channels at the same rate, and as long. -/
structure Sound (probe src output dst : Value) : Prop where
  source : kind src = some "audio"
  kind : kind dst = some "audio"
  codec : codec dst = some "aac"
  channels : src.get "channels" = dst.get "channels"
  rate : src.get "sample_rate" = dst.get "sample_rate"
  lasts : Lasts (seconds probe src) output dst

/-- A file with a sound and nothing else. -/
def HasSound (source output : Value) : Prop :=
  ∃ src dst,
    source.get "streams" = .array [src]
    ∧ output.get "streams" = .array [dst]
    ∧ Sound source src output dst

/-- Two tracks in either order. -/
def Both (streams : List Value) (picture sound : Value) : Prop :=
  streams = [picture, sound] ∨ streams = [sound, picture]

/-- A file with the pictures of a video, all of its frames, the sound of another file, if there is
one, and nothing else.
-/
def HasVideo (info : VideoInfo) (audio : Option Value) (output : Value) : Prop :=
  ∃ picture,
    Picture info output picture
    ∧ decodedFrames picture = some info.frames
    ∧ match audio with
      | none => output.get "streams" = .array [picture]
      | some source =>
          ∃ src sound streams,
            source.get "streams" = .array [src]
            ∧ Sound source src output sound
            ∧ output.get "streams" = .array streams
            ∧ Both streams picture sound

-----------------------------------------------------------------------------------------
-- Seconds
-----------------------------------------------------------------------------------------

section Seconds

variable {x y : Binary64} {info : VideoInfo}

/-- The constant 0.1 and its digits. -/
theorem tenth_units
    : ∃ bound,
        Binary64.ofDecimal false 1 (-1) = .finite false bound
        ∧ bound.units = 7205759403792794 * 2 ^ 1018 :=
  ⟨⟨_, Binary64.fits_mul (by decide) 1018, by decide +kernel⟩, by decide +kernel, rfl⟩

/-- The constant 0.01 and its digits. -/
theorem hundredth_units
    : ∃ bound,
        Binary64.ofDecimal false 1 (-2) = .finite false bound
        ∧ bound.units = 5764607523034235 * 2 ^ 1015 :=
  ⟨⟨_, Binary64.fits_mul (by decide) 1015, by decide +kernel⟩, by decide +kernel, rfl⟩

/-- The last digit of 0.1 is even, so that the middle behind it is no further away. -/
theorem within_tenth
    : (x.sub y).abs.le (.ofDecimal false 1 (-1)) = true
      ↔ ∃ a b, x.value = some a ∧ y.value = some b ∧ |a - b| ≤ tenth := by
  obtain ⟨bound, same, units⟩ := tenth_units
  have point : 1018 + 56 = Binary64.depth := by rw [Binary64.depth]
  have middle : (2 * (7205759403792794 : Nat) + 1 : ℚ) / 2 ^ (56 + 1) = tenth := by
    norm_num [tenth]
  have even : 7205759403792794 % 2 = 0 := by decide
  rw [same, Binary64.sub_abs_le (by decide) (by decide) units point]
  simp only [middle, even, and_true, le_iff_lt_or_eq]

/-- The last digit of 0.01 is odd, so that the middle behind it is too far away. -/
theorem within_hundredth
    : (x.sub y).abs.le (.ofDecimal false 1 (-2)) = true
      ↔ ∃ a b, x.value = some a ∧ y.value = some b ∧ |a - b| < hundredth := by
  obtain ⟨bound, same, units⟩ := hundredth_units
  have point : 1015 + 59 = Binary64.depth := by rw [Binary64.depth]
  have middle : (2 * (5764607523034235 : Nat) + 1 : ℚ) / 2 ^ (59 + 1) = hundredth := by
    norm_num [hundredth]
  have odd : ¬5764607523034235 % 2 = 0 := by decide
  rw [same, Binary64.sub_abs_le (by decide) (by decide) units point]
  simp only [middle, odd, and_false, or_false]

/-- Two tracks are compared by the seconds that they last. -/
theorem lasts_iff {probe src output dst : Value}
    : Lasts (seconds probe src) output dst
      ↔ ∃ before after,
          duration probe src = some before
          ∧ duration output dst = some after
          ∧ (before.sub after).abs.le (.ofDecimal false 1 (-1)) = true := by
  simp only [Lasts, seconds, Option.bind_eq_some_iff, within_tenth]
  constructor
  · rintro ⟨a, b, ⟨before, known, long⟩, ⟨after, known', long'⟩, near⟩
    exact ⟨before, after, known, known', a, b, long, long', near⟩
  · rintro ⟨before, after, known, known', a, b, long, long', near⟩
    exact ⟨a, b, ⟨before, known, long⟩, ⟨after, known', long'⟩, near⟩

/-- A number without a sign is kept as a duration if it is finite. -/
theorem counted_value (unsigned : x.Unsigned)
    : ((some x).filter fun n => n.isFinite && (Binary64.ofNat 0).le n).bind Binary64.value
      = x.value := by
  cases finite : x.isFinite with
  | true =>
      have zero := unsigned.zero_le finite
      simp only [Option.filter, finite, zero, Bool.and_self, if_true, Option.bind_some]
  | false =>
      have none : x.value = none := by
        rw [Option.eq_none_iff_forall_ne_some]
        intro a long
        rw [Binary64.isFinite_iff.mpr ⟨a, long⟩] at finite
        cases finite
      simp [Option.filter, finite, none]

/-- The duration of a video has no sign. -/
theorem videoDuration_unsigned (info : VideoInfo) : (videoDuration info).Unsigned :=
  ((Binary64.ofNat_unsigned _).mul (Binary64.ofNat_unsigned _)).div (Binary64.ofNat_unsigned _)

/-- The text of the duration that a video is expected to have is read back. -/
theorem picture_duration
    : duration (expectedVideo info) (expectedPicture info)
      = (some (videoDuration info)).filter fun n => n.isFinite && (Binary64.ofNat 0).le n := by
  have text : ((expectedPicture info).get "duration").asStr = some (videoDuration info).toText := by
    simp [expectedPicture, Value.get, List.lookup_cons, Value.asStr]
  rw [duration, text, Option.some_or, Option.bind_some, Binary64.parse_toText]

/-- The track that a video is expected to have lasts as long as the video. -/
theorem picture_seconds
    : seconds (expectedVideo info) (expectedPicture info) = (videoDuration info).value := by
  rw [seconds, picture_duration, counted_value (videoDuration_unsigned info)]

end Seconds

-----------------------------------------------------------------------------------------
-- What the checks accept
-----------------------------------------------------------------------------------------

/-- The items of an array. -/
theorem asArray_some {value : Value} {items : List Value}
    : value.asArray = some items ↔ value = .array items := by
  cases value <;> simp [Value.asArray]

/-- A source with one track. -/
theorem expectedTrack_ok {probe : Value} {source : Value × Value}
    : expectedTrack probe = .ok source
      ↔ ∃ src, probe.get "streams" = .array [src] ∧ source = (probe, src) := by
  simp only [expectedTrack, bind_ok, context_ok, ensure_ok, pure_ok, asArray_some,
    decide_eq_true_eq, exists_const]
  constructor
  · rintro ⟨tracks, streams, single, src, first, rfl⟩
    obtain ⟨track, rfl⟩ := List.length_eq_one_iff.mp single
    obtain rfl : track = src := Except.ok.inj first
    exact ⟨track, streams, rfl⟩
  · rintro ⟨src, streams, rfl⟩
    exact ⟨[src], streams, rfl, src, rfl, rfl⟩

/-- The tracks that pass are videos in H.264, where these are expected, and sounds in AAC. -/
theorem checkStream_ok {video : Bool} {s : Value}
    : checkStream video s = .ok ()
      ↔ kind s = some "video" ∧ video = true ∧ codec s = some "h264"
        ∨ kind s = some "audio" ∧ codec s = some "aac" := by
  rw [checkStream]
  split
  case isTrue picture => simp [picture]
  case isFalse other =>
    split
    case isTrue sound => simp [sound]
    case isFalse neither => simp [other, neither]

/-- The tracks that pass, by their number. -/
theorem checkStreams_ok {p : Value} {video : Bool}
    : checkStreams p video = .ok ()
      ↔ ∃ streams,
          p.get "streams" = .array streams
          ∧ streams ≠ []
          ∧ (streams.countP fun s => kind s = some "video") = video.toNat
          ∧ (if video then (streams.countP fun s => kind s = some "audio") ≤ 1
            else (streams.countP fun s => kind s = some "audio") = 1)
          ∧ ∀ s ∈ streams, checkStream video s = .ok () := by
  simp only [checkStreams, bind_ok, context_ok, ensure_ok, asArray_some, forM_ok, exists_const,
    Bool.not_eq_true', List.isEmpty_eq_false_iff, Bool.and_eq_true, decide_eq_true_eq]
  cases video <;> simp [and_assoc]

section Compared

variable {info : VideoInfo} {output : Value}

/-- The sound that is compared is the first one of the output. -/
theorem compareTrack_sound {actual : List Value} {probe src : Value}
    (sound : kind src = some "audio")
    : compareTrack output actual (probe, src) = .ok ()
      ↔ ∃ dst,
          actual.find? (fun s => kind s = some "audio") = some dst
          ∧ src.get "channels" = dst.get "channels"
          ∧ src.get "sample_rate" = dst.get "sample_rate"
          ∧ Lasts (seconds probe src) output dst := by
  simp only [compareTrack, sound, bind_ok, context_ok, ensure_ok, Option.some.injEq,
    exists_eq_left', if_true, Bool.and_eq_true, decide_eq_true_eq, exists_const, lasts_iff]
  constructor
  · rintro ⟨dst, found, before, known, after, known', near, channels, rate⟩
    exact ⟨dst, found, channels, rate, before, after, known, known', near⟩
  · rintro ⟨dst, found, channels, rate, before, after, known, known', near⟩
    exact ⟨dst, found, before, known, after, known', near, channels, rate⟩

/-- A dimension passes when it is rounded up to an even number. -/
theorem compareDimension_ok {src dst : Value} {dim : String} {n : Nat}
    (given : (src.get dim).asU64 = some n) (small : n ≤ 16384)
    : compareDimension src dst dim = .ok () ↔ (dst.get dim).asU64 = some (2 * divCeil n 2) := by
  have fits : divCeil n 2 * 2 ≤ max64 := by
    rw [divCeil, max64]
    omega
  simp only [compareDimension, given, bind_ok, context_ok, mulSize_ok, ensure_ok,
    Option.some.injEq, exists_eq_left', decide_eq_true_eq, Nat.mul_comm 2]
  constructor
  · rintro ⟨_, ⟨same, -⟩, passed⟩
    exact same ▸ passed
  · intro passed
    exact ⟨_, ⟨rfl, fits⟩, passed⟩

/-- A number that is small is read back. -/
theorem natural_asU64 {n : Nat} (small : n ≤ 16384) : (natural n).asU64 = some n := by
  rw [natural, Value.asU64, UInt64.toNat_ofNat_of_lt' (Nat.lt_of_le_of_lt small (by decide))]

/-- The pictures that are compared are the first ones of the output. -/
theorem compareTrack_picture {actual : List Value} (wide : info.displayWidth ≤ 16384)
    (high : info.displayHeight ≤ 16384)
    : compareTrack output actual (expectedVideo info, expectedPicture info)
        = .ok ()
      ↔ ∃ dst,
          actual.find? (fun s => kind s = some "video") = some dst
          ∧ (dst.get "width").asU64 = some (2 * divCeil info.displayWidth 2)
          ∧ (dst.get "height").asU64 = some (2 * divCeil info.displayHeight 2)
          ∧ Lasts (videoDuration info).value output dst := by
  have sort : kind (expectedPicture info) = some "video" := rfl
  have width : ((expectedPicture info).get "width").asU64 = some info.displayWidth :=
    natural_asU64 wide
  have height : ((expectedPicture info).get "height").asU64 = some info.displayHeight :=
    natural_asU64 high
  have other : "video" ≠ "audio" := by decide
  simp only [compareTrack, sort, bind_ok, context_ok, ensure_ok, Option.some.injEq,
    exists_eq_left', if_neg other, if_true, forM_ok, List.forall_mem_cons, exists_const,
    compareDimension_ok width wide, compareDimension_ok height high, ← picture_seconds, lasts_iff]
  constructor
  · rintro ⟨dst, found, before, known, after, known', near, wide, high, -⟩
    exact ⟨dst, found, wide, high, before, after, known, known', near⟩
  · rintro ⟨dst, found, wide, high, before, after, known, known', near⟩
    exact ⟨dst, found, before, known, after, known', near, wide, high, List.forall_mem_nil _⟩

/-- The comparison finds the tracks of the sources in as many tracks of the output. -/
theorem compareTracks_ok {input : Value} {audio : Option Value}
    : compareTracks input audio output = .ok ()
      ↔ ∃ expected actual,
          List.Forall₂ (fun probe source => expectedTrack probe = .ok source)
            (input :: audio.toList) expected
          ∧ output.get "streams" = .array actual
          ∧ actual.length = expected.length
          ∧ ∀ source ∈ expected, compareTrack output actual source = .ok () := by
  simp only [compareTracks, bind_ok, context_ok, ensure_ok, asArray_some, mapM_ok, forM_ok,
    exists_const, decide_eq_true_eq, exists_and_left]

/-- A converted sound passes exactly if it has the sound of its source. -/
theorem sound_accepted {source : Value}
    : checkStreams output false = .ok () ∧ compareTracks source none output = .ok ()
      ↔ HasSound source output := by
  rw [checkStreams_ok, compareTracks_ok]
  constructor
  · rintro ⟨⟨streams, held, -, -, sounds, passed⟩, expected, actual, sources, held', number,
      compared⟩
    obtain rfl : streams = actual := Value.array.inj (held.symm.trans held')
    obtain _ | ⟨taken, _ | _⟩ := sources
    obtain ⟨src, source', rfl⟩ := expectedTrack_ok.mp taken
    obtain ⟨dst, rfl⟩ := List.length_eq_one_iff.mp number
    obtain ⟨_, wrong, _⟩ | ⟨sound, aac⟩ := checkStream_ok.mp (passed dst List.mem_cons_self)
    · cases wrong
    have compared := compared _ List.mem_cons_self
    -- the track that is found is the only one, so that the source is a sound as well
    have sort : kind src = some "audio" := by
      simp only [compareTrack, bind_ok, context_ok] at compared
      obtain ⟨sort, src', found, first, -⟩ := compared
      have here := List.find?_some first
      have only := List.mem_singleton.mp (List.mem_of_find?_eq_some first)
      rw [only, sound] at here
      rw [src', of_decide_eq_true here]
    obtain ⟨found, first, channels, rate, lasts⟩ := (compareTrack_sound sort).mp compared
    obtain rfl := List.mem_singleton.mp (List.mem_of_find?_eq_some first)
    exact ⟨src, found, source', held, sort, sound, aac, channels, rate, lasts⟩
  · rintro ⟨src, dst, source', held, sound⟩
    have passed : checkStream false dst = .ok () :=
      checkStream_ok.mpr (.inr ⟨sound.kind, sound.codec⟩)
    refine ⟨⟨[dst], held, List.cons_ne_nil _ _, ?_, ?_, List.forall_mem_singleton.mpr passed⟩, ?_⟩
    · simp [sound.kind]
    · simp [sound.kind]
    refine ⟨_, [dst], .cons (expectedTrack_ok.mpr ⟨src, source', rfl⟩) .nil, held, rfl, ?_⟩
    refine List.forall_mem_singleton.mpr ((compareTrack_sound sound.source).mpr ?_)
    exact ⟨dst, by simp [sound.kind], sound.channels, sound.rate, sound.lasts⟩

/-- The frames of the first video track are counted. -/
theorem checkFrames_ok
    : checkFrames output info = .ok ()
      ↔ ∃ streams track,
          output.get "streams" = .array streams
          ∧ streams.find? (fun v => kind v = some "video") = some track
          ∧ decodedFrames track = some info.frames := by
  simp only [checkFrames, videoTrack, bind_ok, context_ok, ensure_ok, asArray_some,
    decide_eq_true_eq]
  constructor
  · rintro ⟨track, ⟨streams, held, first⟩, count, decoded, rfl⟩
    exact ⟨streams, track, held, first, decoded⟩
  · rintro ⟨streams, track, held, first, decoded⟩
    exact ⟨track, ⟨streams, held, first⟩, _, decoded, rfl⟩

/-- Of a picture and a sound each is found by its type. -/
theorem Both.find {streams : List Value} {picture sound : Value}
    (both : Both streams picture sound) (seen : kind picture = some "video")
    (heard : kind sound = some "audio")
    : streams.find? (fun s => kind s = some "video") = some picture
      ∧ streams.find? (fun s => kind s = some "audio") = some sound := by
  rcases both with rfl | rfl <;> simp [List.find?, seen, heard]

/-- One video among two tracks that pass stands beside a sound. -/
theorem both_of_passed {streams : List Value} (two : streams.length = 2)
    (one : (streams.countP fun s => kind s = some "video") = 1)
    (passed : ∀ s ∈ streams, checkStream true s = .ok ())
    : ∃ picture sound,
        Both streams picture sound
        ∧ kind picture = some "video"
        ∧ codec picture = some "h264"
        ∧ kind sound = some "audio"
        ∧ codec sound = some "aac" := by
  obtain ⟨first, second, rfl⟩ := List.length_eq_two.mp two
  have here := checkStream_ok.mp (passed first List.mem_cons_self)
  have there := checkStream_ok.mp (passed second (List.mem_cons_of_mem _ List.mem_cons_self))
  rcases here with ⟨seen, -, h264⟩ | ⟨heard, aac⟩
    <;> rcases there with ⟨seen', -, h264'⟩ | ⟨heard', aac'⟩
  · simp [seen, seen'] at one
  · exact ⟨first, second, .inl rfl, seen, h264, heard', aac'⟩
  · exact ⟨second, first, .inr rfl, seen', h264', heard, aac⟩
  · simp [heard, heard'] at one

/-- One video alone. -/
theorem single_of_passed {streams : List Value} (single : streams.length = 1)
    (one : (streams.countP fun s => kind s = some "video") = 1)
    (passed : ∀ s ∈ streams, checkStream true s = .ok ())
    : ∃ picture,
        streams = [picture] ∧ kind picture = some "video" ∧ codec picture = some "h264" := by
  obtain ⟨picture, rfl⟩ := List.length_eq_one_iff.mp single
  rcases checkStream_ok.mp (passed picture List.mem_cons_self) with ⟨seen, -, h264⟩ | ⟨heard, -⟩
  · exact ⟨picture, rfl, seen, h264⟩
  · simp [heard] at one

/-- A converted video passes exactly if it has the pictures of its video and the sound of its sound,
if there is one.
-/
theorem video_accepted {audio : Option Value} (wide : info.displayWidth ≤ 16384)
    (high : info.displayHeight ≤ 16384)
    (heard
      : ∀ source ∈ audio, ∀ src, source.get "streams" = .array [src] → kind src = some "audio")
    : checkStreams output true = .ok ()
        ∧ checkFrames output info = .ok ()
        ∧ compareTracks (expectedVideo info) audio output = .ok ()
      ↔ HasVideo info audio output := by
  rw [checkStreams_ok, checkFrames_ok, compareTracks_ok]
  constructor
  · rintro ⟨⟨streams, held, -, one, -, passed⟩, ⟨streams', track, held', first, decoded⟩,
      expected, actual, sources, held'', number, compared⟩
    obtain rfl : streams = streams' := Value.array.inj (held.symm.trans held')
    obtain rfl : streams = actual := Value.array.inj (held.symm.trans held'')
    obtain _ | ⟨taken, sources⟩ := sources
    obtain ⟨src, single, rfl⟩ := expectedTrack_ok.mp taken
    obtain rfl : expectedPicture info = src := (List.cons.inj (Value.array.inj single)).1
    obtain ⟨picture, found, wide', high', lasts⟩ :=
      (compareTrack_picture wide high).mp (compared _ List.mem_cons_self)
    obtain rfl := Option.some.inj (first.symm.trans found)
    cases audio with
    | none =>
        obtain _ | _ := sources
        obtain ⟨only, rfl, seen, h264⟩ := single_of_passed number one passed
        obtain rfl := List.mem_singleton.mp (List.mem_of_find?_eq_some first)
        exact ⟨track, ⟨seen, h264, wide', high', lasts⟩, decoded, held⟩
    | some source =>
        obtain _ | ⟨taken, _ | _⟩ := sources
        obtain ⟨src, source', rfl⟩ := expectedTrack_ok.mp taken
        have sort := heard source rfl src source'
        obtain ⟨picture, sound, both, seen, h264, heard', aac⟩ := both_of_passed number one passed
        obtain ⟨findsPicture, findsSound⟩ := both.find seen heard'
        obtain rfl := Option.some.inj (first.symm.trans findsPicture)
        obtain ⟨dst, found, channels, rate, lasts'⟩ := (compareTrack_sound sort).mp
          (compared _ (List.mem_cons_of_mem _ List.mem_cons_self))
        obtain rfl := Option.some.inj (findsSound.symm.trans found)
        exact ⟨track, ⟨seen, h264, wide', high', lasts⟩, decoded, src, sound, streams, source',
          ⟨sort, heard', aac, channels, rate, lasts'⟩, held, both⟩
  · rintro ⟨picture, seen, decoded, rest⟩
    have passed : checkStream true picture = .ok () :=
      checkStream_ok.mpr (.inl ⟨seen.kind, rfl, seen.codec⟩)
    have expected : expectedTrack (expectedVideo info)
        = .ok (expectedVideo info, expectedPicture info) :=
      expectedTrack_ok.mpr ⟨_, rfl, rfl⟩
    cases audio with
    | none =>
        have first : [picture].find? (fun s => kind s = some "video") = some picture := by
          simp [seen.kind]
        have compared := (compareTrack_picture wide high).mpr
          ⟨picture, first, seen.width, seen.height, seen.lasts⟩
        refine ⟨⟨[picture], rest, List.cons_ne_nil _ _, ?_, ?_, ?_⟩,
          ⟨[picture], picture, rest, first, decoded⟩,
          ⟨_, [picture], .cons expected .nil, rest, rfl, List.forall_mem_singleton.mpr compared⟩⟩
        · simp [seen.kind]
        · simp [seen.kind]
        · exact List.forall_mem_singleton.mpr passed
    | some source =>
        obtain ⟨src, sound, streams, source', voice, held, both⟩ := rest
        have passed' : checkStream true sound = .ok () :=
          checkStream_ok.mpr (.inr ⟨voice.kind, voice.codec⟩)
        obtain ⟨findsPicture, findsSound⟩ := both.find seen.kind voice.kind
        have compared := (compareTrack_picture wide high).mpr
          ⟨picture, findsPicture, seen.width, seen.height, seen.lasts⟩
        have compared' := (compareTrack_sound voice.source).mpr
          ⟨sound, findsSound, voice.channels, voice.rate, voice.lasts⟩
        refine ⟨⟨streams, held, ?_⟩, ⟨streams, picture, held, findsPicture, decoded⟩,
          ⟨_, streams, .cons expected (.cons (expectedTrack_ok.mpr ⟨src, source', rfl⟩) .nil), held,
            ?_, ?_⟩⟩
        · rcases both with rfl | rfl <;> simp [seen.kind, voice.kind, passed, passed']
        · rcases both with rfl | rfl <;> rfl
        · simp [compared, compared']

end Compared

end MoenotesAssets.Worker.Media
