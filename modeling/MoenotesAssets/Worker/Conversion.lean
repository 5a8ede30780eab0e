import MoenotesAssets.Service.Identity
import MoenotesAssets.Usm.Extraction
import MoenotesAssets.Worker.Adx
import MoenotesAssets.Worker.Outputs
import MoenotesAssets.Worker.Tracks

/-! The conversions of `worker.rs`: what is decoded of a waveform or a video, how the media tools
are called, and what is checked before and after. With them the worker has all its tools but the
file system and the loaders.
-/

namespace MoenotesAssets.Worker.Media

open Foundation Foundation.Machine
open Usm (VideoInfo)
open Run (Written)

-----------------------------------------------------------------------------------------
-- What lies outside
-----------------------------------------------------------------------------------------

/-- `ClHca::get_info` -/
structure HcaHeader where
  headerSize : Nat
  blockCount : Nat
  blockSize : Nat

/-- `HcaDecoder::info` -/
structure HcaInfo where
  channelCount : Nat
  blockCount : Nat
  samplesPerBlock : Nat

/-- What the conversions call: `ffmpeg` in a stage, for its arguments and the files that they name,
and the file that it leaves; `ffprobe` for a file; `serde_json::from_slice`; and the HCA decoder of
`cridecoder`, which tests a block with a key behind earlier ones.
-/
structure Externals where
  ffmpeg : String → List String → List (String × List UInt8) → Written Unit
  ffprobe : List String → List UInt8 → Except Failure (List UInt8)
  fromSlice : List UInt8 → Option Value
  hcaHeader : List UInt8 → Except Failure HcaHeader
  testBlock : List UInt8 → UInt64 → List (List UInt8) → List UInt8 → Bool
  hcaInfo : List UInt8 → Except Failure HcaInfo
  hcaWav : List UInt8 → UInt64 → UInt64 → Except Failure (List UInt8)

/-- What the conversions read of `config::Config`. -/
structure Settings extends Identity.Config where
  limits : Limits

/-- `VideoInfo::fps` -/
def fps (info : VideoInfo) : String := shown info.fpsN ++ "/" ++ shown info.fpsD

/-- `as_object_mut` and `remove` -/
def Value.remove (name : String) : Value → Value
  | .object fields => .object (fields.filter fun field => field.1 ≠ name)
  | value => value

/-- The name of the file is removed from what `ffprobe` prints. -/
def Value.anonymous : Value → Value
  | .object fields =>
      .object
        (fields.map fun (name, value) =>
          (name, if name = "format" then value.remove "filename" else value))
  | value => value

section Conversions

variable (externals : Externals) (c : Settings)

-----------------------------------------------------------------------------------------
-- Media tools
-----------------------------------------------------------------------------------------

/-- `command` -/
def command (stage : String) (args : List String) (files : List (String × List UInt8))
    : Written Unit :=
  externals.ffmpeg stage
    (["-nostdin", "-v", "error", "-xerror", "-y", "-threads", shown c.ffmpegThreads] ++ args) files

/-- `probe` -/
def probe (path : String) (content : List UInt8) : Except Failure Value := do
  let data ←
    externals.ffprobe
      ["-v", "error", "-count_frames", "-show_streams", "-show_format", "-of", "json", path] content
  let value ← context (externals.fromSlice data) (.error "media_probe_invalid_json")
  return value.anonymous

/-- `verify_decode` -/
def verifyDecode (path : String) (content : List UInt8) : Except Failure Unit :=
  let args := ["-i", path, "-map", "0", "-f", "null", "-"]
  (command externals c "verify" args [(path, content)]).result

/-- `validate_media` -/
def validateMedia (path : String) (content : List UInt8) (video : Bool) : Except Failure Value := do
  let p ← probe externals path content
  checkStreams p video
  verifyDecode externals c path content
  return p

/-- The file that a command has written. -/
def written (out : Written Unit) : Except Failure (List UInt8) := do
  out.result
  context out.content (.error "media_probe_failed")

/-- A file that is checked behind the command that wrote it. -/
def checked (out : Written Unit) (check : List UInt8 → Except Failure Unit) : Written Unit :=
  { out with result := written out >>= check }

-----------------------------------------------------------------------------------------
-- Sounds
-----------------------------------------------------------------------------------------

/-- The key that `wav` tests the blocks with. -/
def effectiveKey (key : UInt64) (subkey : UInt16) : UInt64 :=
  if subkey = 0 then key
  else key * ((subkey.toUInt64 <<< 16) ||| ((~~~subkey).toUInt64 + 2))

/-- `wav`: the number of channels, and the content of the file. -/
def wav (raw : List UInt8) (subkey : UInt16) : Except Failure (Nat × List UInt8) := do
  let header ← externals.hcaHeader raw
  ensure (0 < header.blockSize) (.error "invalid HCA block size")
  let stop ← addSize header.headerSize (← mulSize header.blockCount header.blockSize)
  ensure (stop ≤ raw.length) (.error "truncated HCA")
  let blocks := ((raw.take stop).drop header.headerSize).toChunks header.blockSize
  blocks.zipIdx.forM fun (block, i) =>
    ensure (externals.testBlock raw (effectiveKey c.criKey subkey) (blocks.take i) block)
      (.error "HCA key or block validation failed")
  let info ← externals.hcaInfo raw
  ensure (1 ≤ info.channelCount && info.channelCount ≤ 2) (.error "unsupported channel count")
  let samples ← mulSize (← mulSize info.blockCount info.samplesPerBlock) info.channelCount
  ensure ((← mulSize samples 2) ≤ c.limits.expandedBytes) (.error "PCM expansion limit")
  return (info.channelCount, ← externals.hcaWav raw c.criKey subkey.toUInt64)

/-- The bit rate of a sound, by its channels. -/
def bitRate (mono : Bool) : String := if mono then "96k" else "192k"

/-- The file in the work directory for the waveform at an index. -/
def wavePath (i : Nat) : String := "wave-" ++ shown i ++ ".wav"

/-- The waveform at an index as it is decoded, with its number of channels and its probe. -/
def decodeWave (i : Nat) (w : Wave) : Except Failure (Nat × List UInt8 × Value) := do
  let (channels, content) ← wav externals c w.data (.ofNat w.subkey)
  return (channels, content, ← probe externals (wavePath i) content)

/-- The arguments that encode a waveform. -/
def waveArgs (i channels : Nat) (p : String) : List String :=
  ["-i", wavePath i, "-map_metadata", "-1", "-c:a", "aac", "-b:a", bitRate (channels = 1),
    "-movflags", "+faststart", "-fs", shown c.limits.outputBytes, p]

/-- The checks of an encoded waveform. -/
def checkSound (source : Value) (p : String) (content : List UInt8) : Except Failure Unit := do
  let metadata ← validateMedia externals c p content false
  compareTracks source none metadata

/-- The waveform at an index as it is encoded. -/
def encodeWave (i : Nat) (w : Wave) (p : String) : Written Unit :=
  match decodeWave externals c i w with
  | .error failure => { content := none, result := .error failure }
  | .ok (channels, content, source) =>
      checked (command externals c "encode" (waveArgs c i channels p) [(wavePath i, content)])
        (checkSound externals c source p)

/-- `normalize_adx`: the content of the file. -/
def normalizeAdx (raw : List UInt8) : Except Failure (List UInt8) := do
  let (normalized, info) ← Adx.normalize raw c.limits.expandedBytes
  let output ←
    written
      (command externals c "decode"
        ["-i", "normalized.adx", "-af", "atrim=end_sample=" ++ shown info.samples, "-c:a",
          "pcm_s16le", "normalized.wav"]
        [("normalized.adx", normalized)])
  let p ← probe externals "normalized.wav" output
  let audio := (p.get "streams").item 0
  ensure
    ((audio.get "channels").asU64 = some info.channels
      && (audio.get "sample_rate").asStr = some (shown info.rate)
      && (audio.get "duration_ts").asU64 = some info.samples
      && (audio.get "time_base").asStr = some ("1/" ++ shown info.rate))
    (.error "ADX decoded sample count/format mismatch")
  return output

-----------------------------------------------------------------------------------------
-- Videos
-----------------------------------------------------------------------------------------

/-- A stream with the bytes of its file. -/
abbrev Track := Usm.Stream × List UInt8

/-- The marker of an MPEG sequence. -/
def mpegMark : List UInt8 := [0, 0, 1, 0xB3]

/-- An MPEG video starts with its marker, behind 64 zeros or none. -/
def mpegHeader (file : List UInt8) : Bool :=
  mpegMark.isPrefixOf file
  || (68 ≤ file.length && (file.take 64).all (· == 0) && (file.drop 64).take 4 == mpegMark)

/-- The header of a video stream, by its codec. -/
def checkContainer (file : List UInt8) (metadata : VideoInfo) : Except Failure Unit :=
  if metadata.codec = 9 then
    if fits : file.length ≤ max64 then validateIvf ⟨file, fits⟩ metadata
    else .error (.error "File too large")
  else ensure (mpegHeader file) (.error "USM MPEG header mismatch")

/-- One round of the loop over the video streams. -/
def checkVideo (stream : Track) (metadata : VideoInfo) : Except Failure Unit := do
  checkContainer stream.2 metadata
  let p ← probe externals stream.1.path stream.2
  checkFrames p metadata
  let v ← videoTrack p
  ensure
    ((v.get "width").asU64 = some metadata.width && (v.get "height").asU64 = some metadata.height)
    (.error "USM decoded dimensions mismatch")
  verifyDecode externals c stream.1.path stream.2

/-- The mask has the times and dimensions of the video. -/
def checkAlpha (info a : VideoInfo) : Except Failure Unit :=
  ensure
    (a.frames = info.frames && a.fpsN * info.fpsD = info.fpsN * a.fpsD
      && a.displayWidth = info.displayWidth && a.displayHeight = info.displayHeight)
    (.error "alpha timing/dimensions mismatch")

/-- The sound of a video as a file in the work directory. -/
def decodeAudio (stream : Track) : Except Failure (String × List UInt8) := do
  if stream.1.audioCodec = some 2 then
    return ("normalized.wav", ← normalizeAdx externals c stream.2)
  else if stream.1.audioCodec = some 4 then
    return ("audio.wav", (← wav externals c stream.2 0).2)
  else .error (.error "unsupported USM audio codec")

/-- The locals of `usm_video` before it encodes; of the sound the file and its probe. -/
structure Source where
  color : Track
  info : VideoInfo
  alpha : Option Track
  audio : Option ((String × List UInt8) × Value)

/-- The key of `usm::extract` for a target. -/
def usmKey (key : String) : Option UInt64 :=
  if c.decryption key = .key then some c.criKey else none

/-- The first stream of a signature. -/
def findStream (streams : List Track) (signature : Usm.Signature) : Option Track :=
  streams.find? fun s => s.1.signature = signature

/-- `usm_video` up to its encoding. -/
def source (key : String) (content : List UInt8) : Except Failure Source := do
  let streams ← Usm.extract content (usmKey c key) (.ofNat c.limits.expandedBytes)
  let color ← context (findStream streams .sfv) (.error "no USM video")
  let info ← context color.1.video (.error "no USM timing")
  let alpha := findStream streams .alp
  alpha.toList.forM fun alpha => do
    checkAlpha info (← context alpha.1.video (.error "alpha header"))
  streams.forM fun stream => stream.1.video.toList.forM (checkVideo externals c stream)
  let audio ←
    (findStream streams .sfa).toList.mapM fun stream => do
      let file ← decodeAudio externals c stream
      return (file, ← probe externals file.1 file.2)
  return { color, info, alpha, audio := audio.head? }

/-- The size that the video is cropped to. -/
def crop (info : VideoInfo) : String :=
  "crop=" ++ shown info.displayWidth ++ ":" ++ shown info.displayHeight ++ ":0:0:exact=1"

/-- The arguments of the sound of a video. -/
def audioArgs (probe : Value) : List String :=
  let channels := (((probe.get "streams").item 0).get "channels").asU64
  ["-map", "1:a:0", "-c:a", "aac", "-b:a", bitRate (channels = some 1)]

/-- The arguments that encode a video. -/
def colorArgs (s : Source) (p : String) : List String :=
  ["-r", fps s.info, "-i", s.color.1.path]
  ++ s.audio.toList.flatMap (fun audio => ["-i", audio.1.1])
  ++ ["-map", "0:v:0"]
  ++ s.audio.toList.flatMap (fun audio => audioArgs audio.2)
  ++ ["-map_metadata", "-1", "-c:v", "libx264", "-threads", shown c.ffmpegThreads, "-crf", "20",
    "-preset", "medium", "-vf", crop s.info ++ ",pad=ceil(iw/2)*2:ceil(ih/2)*2", "-pix_fmt",
    "yuv420p", "-vsync", "0", "-movflags", "+faststart", "-fs", shown c.limits.outputBytes, p]

/-- The checks of an encoded video. -/
def checkColor (s : Source) (p : String) (content : List UInt8) : Except Failure Unit := do
  let metadata ← validateMedia externals c p content true
  checkFrames metadata s.info
  compareTracks (expectedVideo s.info) (s.audio.map Prod.snd) metadata

/-- The encoded video. -/
def encodeColor (key : String) (content : List UInt8) (p : String) : Written Unit :=
  match source externals c key content with
  | .error failure => { content := none, result := .error failure }
  | .ok s =>
      let files := (s.color.1.path, s.color.2) :: s.audio.toList.map Prod.fst
      checked (command externals c "encode" (colorArgs c s p) files)
        (checkColor externals c s p)

/-- The arguments that encode a mask. -/
def maskArgs (info : VideoInfo) (alpha p : String) (room : Nat) : List String :=
  ["-r", fps info, "-i", alpha, "-map", "0:v:0", "-an", "-vf", crop info, "-c:v", "ffv1",
    "-threads", shown c.ffmpegThreads, "-pix_fmt", "gray", "-vsync", "0", "-fs", shown room, p]

/-- The checks of an encoded mask. -/
def checkMask (info : VideoInfo) (p : String) (content : List UInt8) : Except Failure Unit := do
  let metadata ← probe externals p content
  checkFrames metadata info
  let v ← videoTrack metadata
  ensure
    ((metadata.get "streams").asArray.any (fun s => s.length = 1)
      && codec v = some "ffv1" && (v.get "pix_fmt").asStr = some "gray"
      && (v.get "width").asU64 = some info.displayWidth
      && (v.get "height").asU64 = some info.displayHeight)
    (.error "alpha output mismatch")
  let duration ←
    context (((metadata.get "format").get "duration").asStr.bind Binary64.parse)
      (.error "alpha duration missing")
  ensure ((duration.sub (videoDuration info)).abs.le (.ofDecimal false 1 (-2)))
    (.error "alpha duration mismatch")
  verifyDecode externals c p content

/-- The encoded mask within a number of bytes. -/
def encodeMask (key : String) (content : List UInt8) (p : String) (room : Nat) : Written Unit :=
  match source externals c key content with
  | .error failure => { content := none, result := .error failure }
  | .ok s =>
      match s.alpha with
      | none => { content := none, result := .ok () }
      | some alpha =>
          checked
            (command externals c "encode" (maskArgs c s.info alpha.1.path p room)
              [(alpha.1.path, alpha.2)])
            (checkMask externals c s.info p)

/-- The tools of a worker for a target, with these conversions. -/
def mediaTools (base : Run.Tools) (key : String) : Run.Tools :=
  {
    base with
    decode := fun i w => (decodeWave externals c i w).map fun _ => ()
    encode := encodeWave externals c
    video := fun content => (source externals c key content).map fun s => s.alpha.isSome
    encodeColor := encodeColor externals c key
    encodeMask := encodeMask externals c key
  }

end Conversions

end MoenotesAssets.Worker.Media
