import MoenotesAssets.Usm.Reordering
import MoenotesAssets.Worker.Conversion

/-! What the worker publishes of sounds and videos: every sound is that of a waveform, every video
has the frames, the display size and the sound of its container, and every mask stands behind the
video that it belongs to.
-/

namespace MoenotesAssets.Worker.Media

open Foundation Foundation.Machine Foundation.Program
open Usm (VideoInfo)
open Run (Work Stage Written)

-----------------------------------------------------------------------------------------
-- Containers
-----------------------------------------------------------------------------------------

/-- What `VideoInfo::from_table` requires of the dimensions and of the times. -/
structure Sized (info : VideoInfo) : Prop where
  shown : 0 < info.displayWidth ∧ 0 < info.displayHeight
  inside : info.displayWidth ≤ info.width ∧ info.displayHeight ≤ info.height
  limit : info.width ≤ 16384 ∧ info.height ≤ 16384
  frames : 0 < info.frames ∧ info.frames ≤ 10000000
  timebase : Timebase info

/-- A header that is read has these dimensions and times. -/
theorem fromTable_sized {t : Usm.Fields} {info : VideoInfo}
    (read : VideoInfo.fromTable t = .ok info)
    : Sized info := by
  have timebase := fromTable_timebase read
  simp only [VideoInfo.fromTable, bind_ok, ensure_ok, pure_ok, exists_const, Bool.and_eq_true,
    decide_eq_true_eq] at read
  obtain ⟨width, -, height, -, displayWidth, -, displayHeight, -, frames, -, fpsN, -, fpsD, -,
    codec, -, ⟨⟨⟨frames, -⟩, -⟩, -⟩, ⟨⟨⟨⟨⟨wide, high⟩, left⟩, top⟩, right⟩, bottom⟩, -, rfl⟩ := read
  exact ⟨⟨wide, high⟩, ⟨left, top⟩, ⟨right, bottom⟩, frames, timebase⟩

/-- The duration of a video is that of its frames at its rate, up to two roundings. -/
theorem videoDuration_near {info : VideoInfo} (sized : Sized info)
    : ∃ declared,
        (videoDuration info).value = some declared
        ∧ |declared - info.frames * info.fpsD / info.fpsN|
          ≤ info.frames * info.fpsD / info.fpsN / 2 ^ 51 := by
  obtain ⟨some, few⟩ := sized.frames
  have times := sized.timebase
  exact Binary64.mul_div_near some (Nat.lt_of_le_of_lt few (by decide)) times.scale times.scaleFits
    times.rate times.rateFits

/-- Pictures that are as long as a video last for its frames at its rate, up to a tenth of a second
and the roundings.
-/
theorem Picture.frames_last {info : VideoInfo} (sized : Sized info) {output dst : Value}
    (picture : Picture info output dst)
    : ∃ long,
        seconds output dst = some long
        ∧ |info.frames * info.fpsD / info.fpsN - long|
          ≤ info.frames * info.fpsD / info.fpsN / 2 ^ 51 + tenth := by
  obtain ⟨declared, is, near⟩ := videoDuration_near sized
  obtain ⟨before, long, is', known, near'⟩ := picture.lasts
  obtain rfl := Option.some.inj (is.symm.trans is')
  rw [abs_sub_comm] at near
  exact ⟨long, known, (abs_sub_le _ declared long).trans (add_le_add near near')⟩

/-- A track of a container has its signature, and all but sounds have the header of a video. -/
theorem track_header {id : Usm.StreamId} {chunks : List Usm.Chunk} {stream : Usm.Stream}
    (track : Usm.IsTrack id chunks stream)
    : stream.signature = id.signature
      ∧ (id.signature ≠ .sfa → ∃ info, stream.video = some info ∧ Sized info) := by
  obtain ⟨_, header, _, _, _, _, _, read, _⟩ := track
  cases read with
  | audio own => exact ⟨rfl, fun other => absurd own other⟩
  | video own content shown => exact ⟨rfl, fun _ => ⟨_, rfl, fromTable_sized shown⟩⟩

/-- The streams of a file: exactly one is a video, at most one is a sound and one a mask, and all
but sounds have the header of a video.
-/
structure Streams (streams : List Track) : Prop where
  video : (streams.countP fun s => s.1.signature = .sfv) = 1
  audio : (streams.countP fun s => s.1.signature = .sfa) ≤ 1
  alpha : (streams.countP fun s => s.1.signature = .alp) ≤ 1
  headers
    : ∀ stream ∈ streams,
        stream.1.signature ≠ .sfa → ∃ info, stream.1.video = some info ∧ Sized info

/-- These are the streams that are extracted. -/
theorem extract_streams {file : List UInt8} {key : Option UInt64} {limit : UInt64}
    {streams : List Track} (extracted : Usm.extract file key limit = .ok streams)
    : Streams streams := by
  obtain ⟨frames, tracks, -, container, rfl⟩ := Usm.extract_ok.mp extracted
  have counted : ∀ signature, ((tracks.map (Usm.trackOutput (key.map Usm.getMask)
      (frames.map Usm.Frame.chunk))).countP fun s => s.1.signature = signature)
      = tracks.count signature := by
    intro signature
    rw [List.countP_map, Usm.Tracks.count, ← List.countP_eq_length_filter]
    refine List.countP_congr fun track member => ?_
    have same := (track_header (container.spelled track member)).1
    simp [Usm.trackOutput, same]
  constructor
  case video => exact (counted .sfv).trans container.video
  case audio => exact (counted .sfa).trans_le container.audio
  case alpha => exact (counted .alp).trans_le container.alpha
  case headers =>
    intro stream member picture
    obtain ⟨track, listed, rfl⟩ := List.mem_map.mp member
    obtain ⟨same, header⟩ := track_header (container.spelled track listed)
    exact header fun sound => picture (same.trans sound)

-----------------------------------------------------------------------------------------
-- Sources
-----------------------------------------------------------------------------------------

section Conversions

variable (externals : Externals) (c : Settings)

/-- A video stream is decoded as a whole, to the frames and the dimensions that it declares. -/
structure Decodes (stream : Track) (info : VideoInfo) : Prop where
  verified : verifyDecode externals c stream.1.path stream.2 = .ok ()
  probed
    : ∃ p v,
        probe externals stream.1.path stream.2 = .ok p
        ∧ videoTrack p = .ok v
        ∧ decodedFrames v = some info.frames
        ∧ (v.get "width").asU64 = some info.width
        ∧ (v.get "height").asU64 = some info.height

/-- A mask has the frames, the rate and the display size of a video. -/
structure Masks (info a : VideoInfo) : Prop where
  frames : a.frames = info.frames
  rate : a.fpsN * info.fpsD = info.fpsN * a.fpsD
  width : a.displayWidth = info.displayWidth
  height : a.displayHeight = info.displayHeight

/-- (Sourced externals c key content s) holds when a container has the video, the mask and the sound
of `s`, all decoded as they are declared.
-/
structure Sourced (key : String) (content : List UInt8) (streams : List Track) (s : Source)
    : Prop where
  extracted : Usm.extract content (usmKey c key) (.ofNat c.limits.expandedBytes) = .ok streams
  parts : Streams streams
  color : s.color ∈ streams ∧ s.color.1.signature = .sfv ∧ s.color.1.video = some s.info
  sized : Sized s.info
  decoded : Decodes externals c s.color s.info
  noAlpha : s.alpha = none → ∀ stream ∈ streams, stream.1.signature ≠ .alp
  alpha
    : ∀ alpha,
        s.alpha = some alpha
        → alpha ∈ streams
          ∧ alpha.1.signature = .alp
          ∧ ∃ a, alpha.1.video = some a ∧ Masks s.info a ∧ Decodes externals c alpha a
  noAudio : s.audio = none → ∀ stream ∈ streams, stream.1.signature ≠ .sfa
  audio
    : ∀ file p,
        s.audio = some (file, p)
        → ∃ stream ∈ streams,
            stream.1.signature = .sfa
            ∧ decodeAudio externals c stream = .ok file
            ∧ probe externals file.1 file.2 = .ok p

variable {externals c}

/-- A video stream that is checked decodes as it is declared. -/
theorem checkVideo_decodes {stream : Track} {info : VideoInfo}
    (passed : checkVideo externals c stream info = .ok ())
    : Decodes externals c stream info := by
  simp only [checkVideo, bind_ok, ensure_ok, exists_const, Bool.and_eq_true,
    decide_eq_true_eq] at passed
  obtain ⟨_, -, p, probed, _, counted, v, found, ⟨wide, high⟩, verified⟩ := passed
  obtain ⟨streams, track, held, first, decoded⟩ := checkFrames_ok.mp counted
  have same : videoTrack p = .ok track := by
    simp only [videoTrack, bind_ok, context_ok, asArray_some]
    exact ⟨streams, held, first⟩
  obtain rfl := Except.ok.inj (same.symm.trans found)
  exact ⟨verified, p, track, probed, found, decoded, wide, high⟩

/-- A stream that is found is one of its signature. -/
theorem findStream_some {streams : List Track} {signature : Usm.Signature} {stream : Track}
    (found : findStream streams signature = some stream)
    : stream ∈ streams ∧ stream.1.signature = signature := by
  rw [findStream] at found
  have same := List.find?_some found
  exact ⟨List.mem_of_find?_eq_some found, of_decide_eq_true same⟩

/-- Where none is found there is none. -/
theorem findStream_none {streams : List Track} {signature : Usm.Signature}
    (missing : findStream streams signature = none)
    : ∀ stream ∈ streams, stream.1.signature ≠ signature := by
  rw [findStream, List.find?_eq_none] at missing
  exact fun stream member same => missing stream member (decide_eq_true same)

/-- What is converted is what a container holds. -/
theorem source_sourced {key : String} {content : List UInt8} {s : Source}
    (loaded : source externals c key content = .ok s)
    : ∃ streams, Sourced externals c key content streams s := by
  simp only [source, bind_ok, context_ok, pure_ok, mapM_ok] at loaded
  obtain ⟨streams, extracted, color, first, info, timed, _, masks, _, videos, audio, sounds,
    rfl⟩ := loaded
  have masks := forM_ok.mp masks
  have videos := forM_ok.mp videos
  have parts := extract_streams extracted
  have decodes : ∀ stream ∈ streams, ∀ metadata, stream.1.video = some metadata
      → Decodes externals c stream metadata :=
    fun stream member metadata header =>
      checkVideo_decodes (forM_ok.mp (videos stream member) metadata (Option.mem_toList.mpr header))
  obtain ⟨member, picture⟩ := findStream_some first
  refine ⟨streams, ?_⟩
  constructor
  case extracted => exact extracted
  case parts => exact parts
  case color => exact ⟨member, picture, timed⟩
  case sized =>
    obtain ⟨found, header, sized⟩ := parts.headers color member (by rw [picture]; decide)
    obtain rfl := Option.some.inj (timed.symm.trans header)
    exact sized
  case decoded => exact decodes color member info timed
  case noAlpha => exact findStream_none
  case alpha =>
    intro alpha found
    obtain ⟨listed, sort⟩ := findStream_some found
    obtain ⟨a, header, same⟩ := bind_ok.mp (masks alpha (Option.mem_toList.mpr found))
    simp only [context_ok] at header
    simp only [checkAlpha, ensure_ok, Bool.and_eq_true, decide_eq_true_eq] at same
    obtain ⟨⟨⟨frames, rate⟩, width⟩, height⟩ := same
    exact ⟨listed, sort, a, header, ⟨frames, rate, width, height⟩, decodes alpha listed a header⟩
  case noAudio =>
    intro none
    cases found : findStream streams .sfa with
    | none => exact findStream_none found
    | some stream =>
        rw [found] at sounds
        obtain _ | ⟨_, _⟩ := sounds
        cases none
  case audio =>
    intro file p held
    cases found : findStream streams .sfa with
    | none =>
        rw [found] at sounds
        obtain _ | _ := sounds
        cases held
    | some stream =>
        rw [found] at sounds
        obtain _ | ⟨loaded, _ | _⟩ := sounds
        obtain rfl := Option.some.inj held
        simp only [Prod.mk.injEq] at loaded
        obtain ⟨file', decoded, p', probed, rfl, rfl⟩ := loaded
        obtain ⟨listed, sort⟩ := findStream_some found
        exact ⟨stream, listed, sort, decoded, probed⟩

end Conversions

-----------------------------------------------------------------------------------------
-- Converted files
-----------------------------------------------------------------------------------------

section Files

variable (externals : Externals) (c : Settings)

/-- (Passes externals c has p file) holds when a file is decoded as a whole, and its probe has what
is asked for.
-/
def Passes (has : Value → Prop) (p : String) (file : List UInt8) : Prop :=
  ∃ metadata,
    probe externals p file = .ok metadata
    ∧ has metadata
    ∧ verifyDecode externals c p file = .ok ()

/-- A file with the gray pictures of a mask, all of its frames in the display size, and nothing
else.
-/
def HasMask (info : VideoInfo) (output : Value) : Prop :=
  ∃ picture long declared,
    output.get "streams" = .array [picture]
    ∧ kind picture = some "video"
    ∧ decodedFrames picture = some info.frames
    ∧ codec picture = some "ffv1"
    ∧ (picture.get "pix_fmt").asStr = some "gray"
    ∧ (picture.get "width").asU64 = some info.displayWidth
    ∧ (picture.get "height").asU64 = some info.displayHeight
    ∧ (((output.get "format").get "duration").asStr.bind Binary64.parse).bind Binary64.value
        = some long
    ∧ (videoDuration info).value = some declared
    ∧ |long - declared| < hundredth

/-- The sound that is decoded of a video is probed as a sound. -/
def Hears : Prop :=
  ∀ stream file p src,
    decodeAudio externals c stream = .ok file
    → probe externals file.1 file.2 = .ok p
    → p.get "streams" = .array [src]
    → kind src = some "audio"

variable {externals c}

/-- The checks of an encoded sound accept exactly the files with the sound of its source. -/
theorem checkSound_ok {source : Value} {p : String} {file : List UInt8}
    : checkSound externals c source p file = .ok ()
      ↔ Passes externals c (HasSound source) p file := by
  simp only [checkSound, validateMedia, bind_ok, pure_ok, Passes, ← sound_accepted]
  constructor
  · rintro ⟨_, ⟨metadata, probed, _, tracks, _, verified, rfl⟩, compared⟩
    exact ⟨metadata, probed, ⟨tracks, compared⟩, verified⟩
  · rintro ⟨metadata, probed, ⟨tracks, compared⟩, verified⟩
    exact ⟨metadata, ⟨metadata, probed, (), tracks, (), verified, rfl⟩, compared⟩

/-- The checks of an encoded video accept exactly the files with its pictures and its sound. -/
theorem checkColor_ok (hears : Hears externals c) {key : String} {content : List UInt8}
    {streams : List Track} {s : Source} (sourced : Sourced externals c key content streams s)
    {p : String} {file : List UInt8}
    : checkColor externals c s p file = .ok ()
      ↔ Passes externals c (HasVideo s.info (s.audio.map Prod.snd)) p file := by
  have heard : ∀ source ∈ s.audio.map Prod.snd, ∀ src, source.get "streams" = .array [src]
      → kind src = some "audio" := by
    intro source member src single
    obtain ⟨⟨wav, p⟩, held, rfl⟩ := Option.mem_map.mp member
    obtain ⟨stream, -, -, decoded, probed⟩ := sourced.audio wav p held
    exact hears stream wav p src decoded probed single
  have wide := sourced.sized.inside.1.trans sourced.sized.limit.1
  have high := sourced.sized.inside.2.trans sourced.sized.limit.2
  simp only [checkColor, validateMedia, bind_ok, pure_ok, Passes, ← video_accepted wide high heard]
  constructor
  · rintro ⟨_, ⟨metadata, probed, _, tracks, _, verified, rfl⟩, _, counted, compared⟩
    exact ⟨metadata, probed, ⟨tracks, counted, compared⟩, verified⟩
  · rintro ⟨metadata, probed, ⟨tracks, counted, compared⟩, verified⟩
    exact ⟨metadata, ⟨metadata, probed, (), tracks, (), verified, rfl⟩, (), counted, compared⟩

/-- A mask lasts as long as its video, as far as the numbers of its duration tell. -/
theorem maskLasts_iff {info : VideoInfo} {output : Value}
    : (∃ long declared,
        (((output.get "format").get "duration").asStr.bind Binary64.parse).bind Binary64.value
            = some long
          ∧ (videoDuration info).value = some declared
          ∧ |long - declared| < hundredth)
      ↔ ∃ duration,
          ((output.get "format").get "duration").asStr.bind Binary64.parse = some duration
          ∧ (duration.sub (videoDuration info)).abs.le (.ofDecimal false 1 (-2)) = true := by
  simp only [Option.bind_eq_some_iff (f := Binary64.value), within_hundredth]
  constructor
  · rintro ⟨long, declared, ⟨duration, known, read⟩, exact', near⟩
    exact ⟨duration, known, long, declared, read, exact', near⟩
  · rintro ⟨duration, known, long, declared, read, exact', near⟩
    exact ⟨long, declared, ⟨duration, known, read⟩, exact', near⟩

/-- The checks of an encoded mask accept exactly the files with its pictures. -/
theorem checkMask_ok {info : VideoInfo} {p : String} {file : List UInt8}
    : checkMask externals c info p file = .ok ()
      ↔ Passes externals c (HasMask info) p file := by
  simp only [checkMask, bind_ok, context_ok, ensure_ok, Passes, exists_const, Bool.and_eq_true,
    decide_eq_true_eq, Option.any_eq_true, videoTrack, asArray_some]
  constructor
  · rintro ⟨metadata, probed, _, counted, v, ⟨streams, held, first⟩,
      ⟨⟨⟨⟨⟨actual, held', single⟩, ffv1⟩, gray⟩, wide⟩, high⟩, duration, known, near, verified⟩
    obtain rfl : streams = actual := Value.array.inj (held.symm.trans held')
    obtain ⟨picture, rfl⟩ := List.length_eq_one_iff.mp single
    obtain rfl := List.mem_singleton.mp (List.mem_of_find?_eq_some first)
    obtain ⟨streams, track, held'', first', decoded⟩ := checkFrames_ok.mp counted
    obtain rfl := Value.array.inj (held.symm.trans held'')
    obtain rfl := Option.some.inj (first.symm.trans first')
    have seen := List.find?_some first
    have seen := of_decide_eq_true seen
    obtain ⟨long, declared, lasts⟩ := maskLasts_iff.mpr ⟨duration, known, near⟩
    exact ⟨metadata, probed,
      ⟨v, long, declared, held, seen, decoded, ffv1, gray, wide, high, lasts⟩, verified⟩
  · rintro ⟨metadata, probed,
      ⟨v, long, declared, held, seen, decoded, ffv1, gray, wide, high, lasts⟩, verified⟩
    have first : [v].find? (fun s => kind s = some "video") = some v := by simp [seen]
    obtain ⟨duration, known, near⟩ := maskLasts_iff.mp ⟨long, declared, lasts⟩
    exact ⟨metadata, probed, (), checkFrames_ok.mpr ⟨[v], v, held, first, decoded⟩, v,
      ⟨[v], held, first⟩, ⟨⟨⟨⟨⟨[v], held, rfl⟩, ffv1⟩, gray⟩, wide⟩, high⟩, duration, known,
      near, verified⟩

end Files

-----------------------------------------------------------------------------------------
-- What a run leaves
-----------------------------------------------------------------------------------------

/-- The media types of sounds, videos and masks. -/
def mediaTypes : List String := ["audio/mp4", "video/mp4", "video/x-matroska"]

/-- The media types and the files of artifacts. -/
abbrev Entries := List (String × Option (List UInt8))

/-- The artifacts of a stage. -/
def entries (stage : Stage) : Entries :=
  stage.out.files.map fun artifact => (artifact.mediaType, stage.directory[artifact.name]?)

/-- (Playable externals c key entries) holds when every sound is that of a waveform, every video is
that of a container without a mask or stands before the mask of its container, and no mask
stands anywhere else.
-/
inductive Playable (externals : Externals) (c : Settings) (key : String)
    : Entries → Prop where
  | none : Playable externals c key []
  | other {entries : Entries} {kind : String}
    {file : Option (List UInt8)} (played : Playable externals c key entries)
    (silent : kind ∉ mediaTypes)
    : Playable externals c key (entries ++ [(kind, file)])
  | sound {entries : Entries} {i channels : Nat} {w : Wave}
    {content file : List UInt8} {source : Value} {p : String}
    (played : Playable externals c key entries)
    (decoded : decodeWave externals c i w = .ok (channels, content, source))
    (passes : Passes externals c (HasSound source) p file)
    : Playable externals c key (entries ++ [("audio/mp4", some file)])
  | video {entries : Entries} {content file : List UInt8}
    {streams : List Track} {s : Source} {p : String} (played : Playable externals c key entries)
    (sourced : Sourced externals c key content streams s) (whole : s.alpha = .none)
    (passes
      : Passes externals c (HasVideo s.info (s.audio.map Prod.snd)) p file)
    : Playable externals c key (entries ++ [("video/mp4", some file)])
  | masked {entries : Entries} {content file mask : List UInt8}
    {streams : List Track} {s : Source} {alpha : Track} {p q : String}
    (played : Playable externals c key entries)
    (sourced : Sourced externals c key content streams s) (split : s.alpha = some alpha)
    (passes
      : Passes externals c (HasVideo s.info (s.audio.map Prod.snd)) p file)
    (masks : Passes externals c (HasMask s.info) q mask)
    : Playable externals c key
        (entries ++ [("video/mp4", some file)] ++ [("video/x-matroska", some mask)])

section Steps

variable {sha256 : List UInt8 → List UInt8} {config : Config} {stage after : Stage}
  {label media : String} {stableId role : Option String}

/-- An artifact is added behind the others. -/
theorem entries_add {path : String}
    (added : stage.add sha256 config path label media stableId role = .ok after)
    : entries after = entries stage ++ [(media, stage.directory[path]?)] := by
  simp only [Stage.add, bind_ok, context_ok, ensure_ok, pure_ok, exists_const] at added
  obtain ⟨content, -, total, -, -, -, rfl⟩ := added
  rw [entries, List.map_append]
  rfl

/-- A file at a fresh path changes no artifact. -/
theorem entries_store {path : String} (fresh : path ∉ stage.names)
    (content : Option (List UInt8))
    : entries (stage.store path content) = entries stage := by
  rw [entries, entries, Stage.store_out]
  refine List.map_congr_left fun artifact member => ?_
  rw [Stage.store_other fresh (List.mem_map_of_mem member)]

/-- A description changes neither the type nor the file of an artifact. -/
theorem entries_describe {id : String} (described : stage.describe id role = .ok after)
    : entries after = entries stage := by
  simp only [Stage.describe, bind_ok, context_ok, pure_ok] at described
  obtain ⟨last, held, rfl⟩ := described
  have split := List.dropLast_append_getLast? last held
  rw [entries, entries, ← split, List.map_append, List.map_append]
  simp

/-- Neither does a mark. -/
theorem entries_assemble (before : Nat) (source : Export.SplitAcb)
    : entries (stage.assemble before source) = entries stage := by
  have same : ∀ directory : Std.TreeMap String (List UInt8),
      (fun artifact : Export.Artifact => (artifact.mediaType, directory[artifact.name]?))
        ∘ Run.assembled source
      = fun artifact => (artifact.mediaType, directory[artifact.name]?) := fun _ => rfl
  rw [entries, entries, Stage.assemble, List.map_append, List.map_map, same, ← List.map_append,
    List.take_append_drop]

/-- A change that was not refused has been made. -/
theorem advance_returned {effect : Stage → Except Failure Stage} {state : Stage} {value : Unit}
    (returned : ((Program.advance effect : Work Unit) state).result = .ok value)
    : effect state = .ok ((Program.advance effect : Work Unit) state).last := by
  rw [Program.advance] at returned ⊢
  cases outcome : effect state with
  | ok after => rfl
  | error failure =>
      rw [outcome] at returned
      cases returned

/-- A file that is written at a fresh path and added is the last artifact. -/
theorem written_entries {path : String} {out : Written Unit} (fresh : path ∉ stage.names)
    (returned
      : ((Run.create path out >>= fun _ => Run.add sha256 config path label media stableId role)
          stage).result
        = .ok ())
    : out.result = .ok ()
      ∧ ∃ file,
          (∀ content, out.content = some content → file = some content)
          ∧ entries
              ((Run.create path out >>= fun _ =>
                Run.add sha256 config path label media stableId role)
                stage).last
            = entries stage ++ [(media, file)] := by
  obtain ⟨_, created, returned⟩ := bind_result returned
  rw [bind_returned created]
  have added := entries_add (advance_returned returned)
  refine ⟨created, (stage.store path out.content).directory[path]?, fun content held => ?_, ?_⟩
  · rw [held]
    exact Table.insert_self _ _ _
  · rw [← entries_store fresh out.content]
    exact added

end Steps

-----------------------------------------------------------------------------------------
-- Parts of a run
-----------------------------------------------------------------------------------------

section Parts

variable (externals : Externals) (c : Settings) (key : String) (sha256 : List UInt8 → List UInt8)
  (config : Config)

/-- A sound stage of whose artifacts something holds. -/
structure Holding (P : Entries → Prop) (stage : Stage) : Prop where
  sound : stage.Sound sha256 config
  held : P (entries stage)

/-- Such a stage with the path of the next artifact. -/
structure Placed (P : Entries → Prop) (path : String) (stage : Stage) : Prop where
  holding : Holding sha256 config P stage
  next : ∃ extension, path = Export.outputName stage.out.files.length extension

/-- A part of a run that returns with something about the artifacts. -/
def Leads {α : Type} (pre : Stage → Prop) (work : Work α) (post : α → Stage → Prop) : Prop :=
  Guards pre work post (fun _ _ => True) (fun _ => True)

/-- A part of a run that leaves playable artifacts when it returns. -/
def Plays {α : Type} (work : Work α) : Prop :=
  Leads (Holding sha256 config (Playable externals c key)) work
    fun _ => Holding sha256 config (Playable externals c key)

/-- An artifact behind those of which something holds; its file is the one that was written. -/
def Behind (P : Entries → Prop) (media : String) (out : Written Unit) (all : Entries) : Prop :=
  ∃ before file,
    P before
    ∧ out.result = .ok ()
    ∧ (∀ content, out.content = some content → file = some content)
    ∧ all = before ++ [(media, file)]

variable {externals c key sha256 config} {α β : Type} {P : Entries → Prop}

/-- What is computed from the stage. -/
theorem observe_leads {pre : Stage → Prop} (compute : Stage → Except Failure α)
    : Leads pre (Program.observe compute)
        fun value stage => pre stage ∧ compute stage = .ok value :=
  .returned fun holds same => ⟨holds, same⟩

/-- What is computed without need. -/
theorem observe_keeps {pre : Stage → Prop} (compute : Stage → Except Failure α)
    : Leads pre (Program.observe compute) fun _ => pre :=
  .returned fun holds _ => holds

/-- What is computed without the output. -/
theorem lift_plays (outcome : Except Failure α)
    : Plays externals c key sha256 config (Program.lift outcome) :=
  observe_keeps _

/-- A value. -/
theorem pure_plays (value : α) : Plays externals c key sha256 config (pure value : Work α) :=
  Guards.pure id

/-- A path is allocated. -/
theorem path_places (ext : String)
    : Leads (Holding sha256 config P) (Run.path ext) (Placed sha256 config P) :=
  .returned fun holding same => ⟨holding, ext, (Except.ok.inj same).symm⟩

/-- A file that is written at an allocated path is the last artifact. -/
theorem written_behind {path label media : String} {stableId role : Option String}
    (known : media ∈ Run.outputTypes) (out : Written Unit)
    : Leads (Placed sha256 config P path)
        (Run.create path out >>= fun _ => Run.add sha256 config path label media stableId role)
        fun _ => Holding sha256 config (Behind P media out) := by
  refine .returned fun {state _} placed returned => ?_
  obtain ⟨extension, rfl⟩ := placed.next
  obtain ⟨ran, file, held, same⟩ := written_entries (placed.holding.sound.fresh extension) returned
  exact ⟨(Run.written_evolves _ label known stableId role out).returns
    ⟨placed.holding.sound, extension, rfl⟩ returned,
    _, file, placed.holding.held, ran, held, same⟩

/-- An artifact of another type. -/
theorem silent_plays {path label media : String} {stableId role : Option String}
    (silent : media ∈ Run.outputTypes ∧ media ∉ mediaTypes) (out : Written Unit)
    : Leads (Placed sha256 config (Playable externals c key) path)
        (Run.create path out >>= fun _ => Run.add sha256 config path label media stableId role)
        fun _ => Holding sha256 config (Playable externals c key) := by
  refine Guards.imp (written_behind silent.1 out) id ?_
  rintro _ _ ⟨sound, before, file, played, -, -, same⟩
  exact ⟨sound, same ▸ played.other silent.2⟩

/-- `Output::bytes` for another type. -/
theorem bytes_plays (tools : Run.Tools) (data : List UInt8) (ext label : String) {media : String}
    (silent : media ∈ Run.outputTypes ∧ media ∉ mediaTypes)
    : Plays externals c key sha256 config (Run.bytes sha256 config tools data ext label media) :=
  Guards.bind (observe_keeps _) fun _ => Guards.bind (lift_plays _) fun _ =>
    Guards.bind (path_places ext) fun _ => silent_plays silent _

/-- A description. -/
theorem describe_plays (stableId : String) (role : Option String)
    : Plays externals c key sha256 config (Run.describe stableId role) := by
  refine .returned fun {state _} holding returned => ?_
  have described := advance_returned returned
  exact ⟨holding.sound.alike (Stage.describe_alike described),
    entries_describe described ▸ holding.held⟩

/-- A mark. -/
theorem assemble_plays (before : Nat) (source : Export.SplitAcb)
    : Plays externals c key sha256 config (Program.change (Stage.assemble before source)) :=
  Guards.change (fun _ => trivial) fun holding =>
    ⟨holding.sound.alike (Stage.assemble_alike before source),
      (entries_assemble before source).symm ▸ holding.held⟩

-----------------------------------------------------------------------------------------
-- Sounds and videos
-----------------------------------------------------------------------------------------

/-- A checked file is there when its command and its check have passed. -/
theorem checked_ok {out : Written Unit} {check : List UInt8 → Except Failure Unit}
    : (checked out check).result = .ok ()
      ↔ ∃ file, out.result = .ok () ∧ out.content = some file ∧ check file = .ok () := by
  simp only [checked, written, bind_ok, context_ok]
  constructor
  · rintro ⟨file, ⟨_, ran, held⟩, passed⟩
    exact ⟨file, ran, held, passed⟩
  · rintro ⟨file, ran, held, passed⟩
    exact ⟨file, ⟨(), ran, held⟩, passed⟩

/-- A waveform that is encoded is a sound. -/
theorem encodeWave_ok {i : Nat} {w : Wave} {p : String}
    (encoded : (encodeWave externals c i w p).result = .ok ())
    : ∃ channels content source file,
        decodeWave externals c i w = .ok (channels, content, source)
        ∧ (encodeWave externals c i w p).content = some file
        ∧ Passes externals c (HasSound source) p file := by
  rw [encodeWave] at encoded ⊢
  split at encoded
  case h_1 => cases encoded
  case h_2 channels content source decoded =>
    obtain ⟨file, -, held, passed⟩ := checked_ok.mp encoded
    rw [decoded]
    exact ⟨channels, content, source, file, rfl, held, checkSound_ok.mp passed⟩

/-- A video that is encoded has passed its checks. -/
theorem encodeColor_ok {s : Source} {content : List UInt8} {p : String}
    (loaded : source externals c key content = .ok s)
    (encoded : (encodeColor externals c key content p).result = .ok ())
    : ∃ file,
        (encodeColor externals c key content p).content = some file
        ∧ checkColor externals c s p file = .ok () := by
  rw [encodeColor, loaded] at encoded ⊢
  obtain ⟨file, -, held, passed⟩ := checked_ok.mp encoded
  exact ⟨file, held, passed⟩

/-- A mask that is encoded has passed its checks. -/
theorem encodeMask_ok {s : Source} {alpha : Track} {content : List UInt8} {p : String} {room : Nat}
    (loaded : source externals c key content = .ok s) (split : s.alpha = some alpha)
    (encoded : (encodeMask externals c key content p room).result = .ok ())
    : ∃ file,
        (encodeMask externals c key content p room).content = some file
        ∧ checkMask externals c s.info p file = .ok () := by
  rw [encodeMask, loaded] at encoded ⊢
  dsimp only at encoded ⊢
  rw [split] at encoded ⊢
  obtain ⟨file, -, held, passed⟩ := checked_ok.mp encoded
  exact ⟨file, held, passed⟩

section Job

variable {job : Job} {base : Run.Tools}

/-- A waveform. -/
theorem wave_plays (w : Wave) (i : Nat)
    : Plays externals c key sha256 job.limits.toConfig
        (Run.wave sha256 (mediaTools externals c base key) job w i) := by
  refine Guards.bind (lift_plays _) fun _ => Guards.bind (lift_plays _) fun _ =>
    Guards.bind (path_places "m4a") fun p => Guards.imp (written_behind (by decide) _) id ?_
  rintro _ _ ⟨sound, before, file, played, encoded, held, same⟩
  obtain ⟨channels, content, source, wave, decoded, written, passes⟩ := encodeWave_ok encoded
  rw [held wave written] at same
  exact ⟨sound, same ▸ played.sound decoded passes⟩

/-- A video has been added, before its mask if it has one. -/
def Shown (externals : Externals) (c : Settings) (key : String) (s : Source) (all : Entries)
    : Prop :=
  ∃ before p file,
    Playable externals c key before
    ∧ Passes externals c (HasVideo s.info (s.audio.map Prod.snd)) p file
    ∧ all = before ++ [("video/mp4", some file)]

/-- The mask of a video. -/
theorem videoMask_plays {content : List UInt8} {streams : List Track} {s : Source} {alpha : Track}
    (loaded : source externals c key content = .ok s)
    (sourced : Sourced externals c key content streams s) (split : s.alpha = some alpha)
    : Leads (Holding sha256 job.limits.toConfig (Shown externals c key s))
        (Run.videoMask sha256 (mediaTools externals c base key) job content)
        fun _ => Holding sha256 job.limits.toConfig (Playable externals c key) := by
  refine Guards.bind (path_places "mkv") fun p => Guards.bind (observe_keeps _) fun room =>
    Guards.imp (written_behind (by decide) _) id ?_
  rintro _ _ ⟨sound, _, file, ⟨before, q, color, played, passes, rfl⟩, encoded, held, same⟩
  obtain ⟨mask, written, checked⟩ := encodeMask_ok loaded split encoded
  rw [held mask written] at same
  exact ⟨sound, same ▸ played.masked sourced split passes (checkMask_ok.mp checked)⟩

/-- A video. -/
theorem usmVideo_plays (hears : Hears externals c) (content : List UInt8)
    : Plays externals c key sha256 job.limits.toConfig
        (Run.usmVideo sha256 (mediaTools externals c base key) job content) := by
  refine Guards.bind (observe_leads _) fun alpha => Guards.given fun given => ?_
  have given : (source externals c key content).map (fun s => s.alpha.isSome) = .ok alpha := given
  cases loaded : source externals c key content with
  | error failure =>
      rw [loaded] at given
      cases given
  | ok s =>
      obtain ⟨streams, sourced⟩ := source_sourced loaded
      rw [loaded] at given
      obtain rfl : s.alpha.isSome = alpha := Except.ok.inj given
      refine Guards.bind (path_places "mp4") fun p => ?_
      rw [← bind_assoc]
      refine Guards.bind (written_behind (by decide) _) fun _ => ?_
      let color := encodeColor externals c key content p
      have shown : ∀ {stage : Stage}, Holding sha256 job.limits.toConfig
          (Behind (Playable externals c key) "video/mp4" color) stage
          → Holding sha256 job.limits.toConfig (Shown externals c key s) stage := by
        rintro stage ⟨sound, before, file, played, encoded, held, same⟩
        obtain ⟨video, written, checked⟩ := encodeColor_ok loaded encoded
        rw [held video written] at same
        exact ⟨sound, before, p, video, played, (checkColor_ok hears sourced).mp checked, same⟩
      cases split : s.alpha with
      | none =>
          refine .pure fun holding => ?_
          obtain ⟨sound, before, q, video, played, passes, same⟩ := shown holding
          exact ⟨sound, same ▸ played.video sourced split passes⟩
      | some alpha => exact Guards.imp (videoMask_plays loaded sourced split) shown id

/-- A CRI payload. -/
theorem cri_plays (hears : Hears externals c) (content : List UInt8)
    : Plays externals c key sha256 job.limits.toConfig
        (Run.cri sha256 (mediaTools externals c base key) job content) := by
  refine Guards.bind (lift_plays _) fun mark => ?_
  split
  · exact Guards.bind (lift_plays _) fun waves => Guards.forM fun entry _ =>
      wave_plays entry.1 entry.2
  · split
    · exact usmVideo_plays hears content
    · exact lift_plays _

-----------------------------------------------------------------------------------------
-- Whole runs
-----------------------------------------------------------------------------------------

/-- A text is none of these. -/
theorem textForm_silent (tools : Run.Tools) (data : List UInt8)
    : (Run.textForm tools data).2 ∈ Run.outputTypes ∧ (Run.textForm tools data).2 ∉ mediaTypes := by
  refine ⟨Run.textForm_known tools data, ?_⟩
  rw [Run.textForm]
  split
  · decide
  · split
    · decide
    · split <;> decide

/-- Neither is an archived input. -/
theorem archiveForm_silent {tools : Run.Tools} {limits : Limits} {input : Input} {form : Run.Form}
    (formed : Run.archiveForm tools limits input = .ok form)
    : form.media ∈ Run.outputTypes ∧ form.media ∉ mediaTypes := by
  rcases Run.archiveForm_media formed with same | same <;> rw [same] <;> decide

/-- An archived input. -/
theorem archiveInput_plays {tools : Run.Tools} (input : Input)
    : Plays externals c key sha256 job.limits.toConfig
        (Run.archiveInput sha256 tools job input) :=
  Guards.bind (lift_plays _) fun _ => Guards.bind (observe_leads _) fun form =>
    Guards.given fun formed => Guards.bind (path_places form.extension) fun _ =>
      Guards.bind (observe_keeps _) fun _ => silent_plays (archiveForm_silent formed) _

/-- A font reference. -/
theorem archiveReference_plays {tools : Run.Tools}
    : Plays externals c key sha256 job.limits.toConfig
        (Run.archiveReference sha256 tools job) := by
  rw [Run.archiveReference]
  split
  · exact Guards.bind (bytes_plays tools _ _ _ (by decide)) fun _ => describe_plays _ _
  · exact pure_plays ()

/-- A text. -/
theorem textObject_plays {tools : Run.Tools} (object : Run.Object) (label : String)
    : Plays externals c key sha256 job.limits.toConfig
        (Run.textObject sha256 tools job object label) :=
  Guards.bind (lift_plays _) fun _ => Guards.bind (lift_plays _) fun data =>
    Guards.bind (bytes_plays tools _ _ _ (textForm_silent tools data)) fun _ => describe_plays _ _

/-- An image. -/
theorem imageObject_plays (object : Run.Object) (label : String)
    : Plays externals c key sha256 job.limits.toConfig
        (Run.imageObject sha256 job object label) :=
  Guards.bind (lift_plays _) fun _ => Guards.bind (path_places "png") fun _ =>
    Guards.bind (observe_keeps _) fun _ => silent_plays (by decide) _

/-- An object. -/
theorem unityObject_plays {tools : Run.Tools} (object : Run.Object)
    : Plays externals c key sha256 job.limits.toConfig
        (Run.unityObject sha256 tools job object) := by
  rw [Run.unityObject]
  split
  · exact textObject_plays object _
  · split
    · exact imageObject_plays object _
    · exact lift_plays _

/-- A target. -/
theorem target_plays (hears : Hears externals c) (emptyAtlases : Nat)
    (found : Except Failure Run.Target)
    : Plays externals c key sha256 job.limits.toConfig
        (Run.target sha256 (mediaTools externals c base key) job emptyAtlases found) := by
  refine Guards.bind (lift_plays _) fun object => ?_
  split
  · refine Guards.bind (lift_plays _) fun ⟨payload, cueSheet, chunks⟩ =>
      Guards.bind (observe_keeps _) fun before => ?_
    exact Guards.bind (cri_plays hears payload) fun _ =>
      Guards.bind (assemble_plays _ _) fun _ => pure_plays _
  split
  · exact Guards.bind (lift_plays _) fun _ => Guards.bind (lift_plays _) fun payload =>
      Guards.bind (cri_plays hears payload) fun _ => pure_plays _
  split
  · refine Guards.bind (lift_plays _) fun atlas => Guards.bind (lift_plays _) fun _ => ?_
    refine Guards.bind ?_ fun _ => pure_plays _
    exact Guards.forM fun sprite _ => Guards.bind (lift_plays _) fun object =>
      unityObject_plays object
  · exact Guards.bind (unityObject_plays _) fun _ => pure_plays _

/-- A preview up to its outputs. -/
theorem previewObjects_plays (hears : Hears externals c)
    : Plays externals c key sha256 job.limits.toConfig
        (Run.previewObjects sha256 (mediaTools externals c base key) job) := by
  refine Guards.bind (lift_plays _) fun opened => ?_
  cases opened with
  | raw input =>
      exact Guards.bind (lift_plays _) fun payload =>
        Guards.bind (cri_plays hears payload) fun _ => pure_plays _
  | regions regions =>
      refine Guards.bind (lift_plays _) fun targets => Guards.bind (lift_plays _) fun _ => ?_
      exact Guards.foldlM
        (P := fun _ _ => Holding sha256 job.limits.toConfig (Playable externals c key))
        (fun emptyAtlases found _ => target_plays hears emptyAtlases found) targets 0

/-- A run. -/
theorem run_plays (hears : Hears externals c)
    : Plays externals c key sha256 job.limits.toConfig
        (Run.run sha256 (mediaTools externals c base key) job) := by
  refine Guards.bind (lift_plays _) fun _ => Guards.bind (lift_plays _) fun _ =>
    Guards.bind (lift_plays _) fun _ => ?_
  split
  · exact Guards.bind archiveReference_plays fun _ =>
      Guards.bind (Guards.forM fun input _ => archiveInput_plays input) fun _ => observe_keeps _
  · exact Guards.bind (previewObjects_plays hears) fun _ => Guards.bind (observe_keeps _) fun _ =>
      Guards.bind (lift_plays _) fun _ => pure_plays _

end Job

end Parts

-----------------------------------------------------------------------------------------
-- What is published
-----------------------------------------------------------------------------------------

section Published

variable {externals : Externals} {c : Settings}

/-- The checks behind the encoders accept exactly the files with the tracks of their sources. -/
theorem conversions_accepted (hears : Hears externals c)
    : (∀ source p file,
        checkSound externals c source p file = .ok ()
        ↔ Passes externals c (HasSound source) p file)
      ∧ (∀ key content s p file,
          source externals c key content = .ok s
          → (checkColor externals c s p file = .ok ()
            ↔ Passes externals c (HasVideo s.info (s.audio.map Prod.snd)) p
                file))
      ∧ ∀ info p file,
          checkMask externals c info p file = .ok ()
          ↔ Passes externals c (HasMask info) p file := by
  refine ⟨fun _ _ _ => checkSound_ok, fun key content s p file loaded => ?_,
    fun _ _ _ => checkMask_ok⟩
  obtain ⟨streams, sourced⟩ := source_sourced loaded
  exact checkColor_ok hears sourced

end Published

/-- A video track of two frames as it is probed. -/
def sampleTrack (format pixels : String) (size : Nat) : Value :=
  .object
    [("codec_name", .text format),
      ("codec_type", .text "video"),
      ("height", natural size),
      ("nb_read_frames", .text "2"),
      ("pix_fmt", .text pixels),
      ("width", natural size)]

/-- An audio track of 32 samples as it is probed. -/
def sampleSound (format : String) : Value :=
  .object
    [("channels", natural 1),
      ("codec_name", .text format),
      ("codec_type", .text "audio"),
      ("duration_ts", natural 32),
      ("sample_rate", .text "48000"),
      ("time_base", .text "1/48000")]

/-- A file with these tracks as it is probed. -/
def sampleProbe (tracks : List Value) : Value :=
  .object
    [("format", .object [("duration", .text "0.066667"), ("filename", .text "file")]),
      ("streams", .array tracks)]

/-- Tools for a video of two frames, eight pixels wide and high, of which seven are shown. A byte
stands for each file that they write.
-/
def sampleExternals : Externals :=
  {
    ffmpeg := fun stage args _ =>
      if stage = "encode" then
        { content := some (if args.contains "ffv1" then [2] else [1]), result := .ok () }
      else if stage = "decode" then { content := some [3], result := .ok () }
      else { content := none, result := .ok () }
    ffprobe := fun _ content => .ok content
    fromSlice := fun content =>
      match content with
      | [1] => some (sampleProbe [sampleTrack "h264" "yuv420p" 8, sampleSound "aac"])
      | [2] => some (sampleProbe [sampleTrack "ffv1" "gray" 7])
      | [3] => some (sampleProbe [sampleSound "pcm_s16le"])
      | _ => some (sampleProbe [sampleTrack "mpeg1video" "yuv420p" 8])
    hcaHeader := fun _ => .error (.error "no HCA")
    testBlock := fun _ _ _ _ => false
    hcaInfo := fun _ => .error (.error "no HCA")
    hcaWav := fun _ _ _ => .error (.error "no HCA")
  }

/-- A video stream of one payload that starts a sequence. -/
def sampleVideo : List (List UInt8) :=
  [Usm.videoPieces.head!,
    [64, 83, 70, 86, 0, 0, 0, 29, 0, 24, 0, 0, 0, 0, 0, 0, 0, 0, 0, 0, 0, 0, 0, 0, 0, 0, 0, 0, 0, 0,
      0, 0, 0, 0, 1, 179, 16],
    [64, 83, 70, 86, 0, 0, 0, 37, 0, 24, 0, 0, 0, 0, 0, 2, 0, 0, 0, 0, 0, 0, 0, 0, 0, 0, 0, 0, 0, 0,
      0, 0, 35, 67, 79, 78, 84, 69, 78, 84, 83, 32, 69, 78, 68]]

/-- An audio stream of one block of samples. -/
def sampleAudio : List (List UInt8) :=
  [Usm.audioPieces.head!,
    [64, 83, 70, 65, 0, 0, 0, 72, 0, 24, 0, 0, 0, 0, 0, 0, 0, 0, 0, 0, 0, 0, 0, 0, 0, 0, 0, 0, 0, 0,
      0, 0, 128, 0, 0, 22, 3, 18, 4, 1, 0, 0, 187, 128, 0, 0, 0, 32, 0, 0, 3, 0, 40, 99, 41, 67, 82,
      73, 0, 0, 0, 0, 0, 0, 0, 0, 0, 0, 0, 0, 0, 0, 0, 0, 0, 0, 128, 1, 0, 0],
    [64, 83, 70, 65, 0, 0, 0, 37, 0, 24, 0, 0, 0, 0, 0, 2, 0, 0, 0, 0, 0, 0, 0, 0, 0, 0, 0, 0, 0, 0,
      0, 0, 35, 67, 79, 78, 84, 69, 78, 84, 83, 32, 69, 78, 68]]

/-- The container of the video with its sound and a mask of the same pictures. -/
def sampleMovie : List UInt8 :=
  Usm.directoryPiece ++ sampleVideo.flatten ++ sampleAudio.flatten
  ++ (sampleVideo.map fun piece => [64, 65, 76, 80] ++ piece.drop 4).flatten

/-- The location of the video. -/
def sampleLocation : Catalogs.Location :=
  {
    id := 1
    key := "movie"
    internal := "https://h/movie"
    provider := Planning.criProvider
    resourceType := "Movie"
    dependencies := []
    options := none
  }

/-- The preview of the video. -/
def sampleJob : Job :=
  {
    limits := { expandedBytes := 2 ^ 20, outputBytes := 2 ^ 20, memoryThreshold := 2 ^ 20 }
    target := sampleLocation
    inputs := [{ location := sampleLocation, path := "movie" }]
    archive := false
    fontReference := none
  }

/-- A configuration for videos that are not masked. -/
def sampleSettings : Settings :=
  {
    criKey := 0
    usmDecryption := .plaintext
    usmDecryptionOverrides := ∅
    ffmpegThreads := 4
    limits := sampleJob.limits
  }

/-- A worker with the container. -/
def sampleTools : Run.Tools :=
  mediaTools sampleExternals sampleSettings
    { Run.idleTools with read := fun _ => .ok sampleMovie } sampleJob.target.key

/-- The sound of the sample is probed as a sound. -/
theorem sample_hears : Hears sampleExternals sampleSettings := by
  intro stream file p src decoded probed single
  have written : file.2 = [3] := by
    rw [decodeAudio] at decoded
    split at decoded
    · simp only [normalizeAdx, bind_ok, pure_ok] at decoded
      obtain ⟨_, ⟨_, -, output, ran, _, -, _, -, rfl⟩, rfl⟩ := decoded
      exact (Except.ok.inj ran).symm
    · split at decoded
      · cases decoded
      · cases decoded
  rw [written] at probed
  obtain rfl := Except.ok.inj probed
  obtain rfl := (List.cons.inj (Value.array.inj single)).1
  rfl

/-- The encoded video of the sample has its pictures and its sound. -/
theorem conversions_accepted_movie
    : ∃ s,
        source sampleExternals sampleSettings "movie" sampleMovie = .ok s
        ∧ Passes sampleExternals sampleSettings
            (HasVideo s.info (s.audio.map Prod.snd)) "00000.mp4" [1] := by
  have computed : (source sampleExternals sampleSettings "movie" sampleMovie >>= fun s =>
      checkColor sampleExternals sampleSettings s "00000.mp4" [1]).isOk = true := by
    decide +kernel
  obtain ⟨_, passed⟩ := ok_of_isOk computed
  obtain ⟨s, loaded, checked⟩ := bind_ok.mp passed
  have accepted := conversions_accepted sample_hears
  exact ⟨s, loaded, (accepted.2.1 "movie" sampleMovie s "00000.mp4" [1] loaded).mp checked⟩

end MoenotesAssets.Worker.Media
