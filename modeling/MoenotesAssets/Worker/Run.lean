import MoenotesAssets.Embedded.Extract
import MoenotesAssets.Foundation.Interruptible
import MoenotesAssets.Worker.References
import MoenotesAssets.Worker.Regions

/-! `worker::run` over the directory that it fills: where each artifact is written, what is checked
before and after, and what is recorded of it.
-/

namespace MoenotesAssets.Worker.Run

open Foundation Foundation.Bytes Foundation.Machine MoenotesAssets.Catalogs
open Export (Artifact SplitAcb outputName)
open ObjectTree (digest toAsciiLowercase)
open Planning (providedByCri remote splitAcbType startsWith)

-----------------------------------------------------------------------------------------
-- What is outside
-----------------------------------------------------------------------------------------

/-- What an attempt to write a file left at its path, and how it ended. -/
structure Written (α : Type) where
  content : Option (List UInt8)
  result : Except Failure α

/-- An image as it is decoded: the attempt to write it within a number of bytes. -/
structure Image where
  png : Nat → Written Unit

/-- An object of the bundles, as `unity_object` looks at it. -/
structure Object where
  classId : Int
  name : Option String
  sourcePath : String
  pathId : Int
  readTextBytes : Nat → Except Failure (List UInt8)
  decodeTexture : Nat → Except Failure Image
  decodeSprite : Nat → Except Failure Image

/-- `read_sprite_atlas`: its sprites, and whether it has render data or names besides. -/
structure Atlas where
  sprites : List (Except Failure Object)
  unresolved : Bool

/-- An object that the target of the job resolves to. The bytes of a split sound are those of
`split_acb::read`, with the name of its sheet and the number of its chunks; the raw bytes of a
wrapper are those that `embedded::read` extracts from.
-/
structure Target extends Object where
  split : Nat → Except Failure (List UInt8 × String × Nat)
  wrapped : Nat → Except Failure (List UInt8)
  atlas : Except Failure Atlas

/-- What the worker calls and reads besides: the checks of `Config::validate`, the file system,
`cridecoder`, `unity_rs_core`, `flate2`, `serde_json`, and the media tools with the checks of what
they produced.
-/
structure Tools extends Store where
  validate : Limits → Except Failure Unit
  createDir : Except Failure Unit
  interrupted : String → Option (Option (List UInt8) × Failure)
  pretty : Planning.FontReference → List UInt8
  bankRows : List UInt8 → Except Failure Nat
  bankTracks : List UInt8 → Except Failure (List Track)
  bankAwb : List UInt8 → Option (List UInt8)
  extract : List UInt8 → Except Failure (List Wave)
  decode : Nat → Wave → Except Failure Unit
  encode : Nat → Wave → String → Written Unit
  video : List UInt8 → Except Failure Bool
  encodeColor : List UInt8 → String → Written Unit
  encodeMask : List UInt8 → String → Nat → Written Unit
  gunzip : List UInt8 → Nat → Except Failure (List UInt8)
  isJson : List UInt8 → Bool
  targets : List (String × Region) → String → Except Failure (List (Except Failure Target))

/-- `File::create` and `write_all`: the file holds the data, unless they were interrupted. -/
def Tools.save (tools : Tools) (name : String) (data : List UInt8) : Written Unit :=
  match tools.interrupted name with
  | none => { content := some data, result := .ok () }
  | some (left, failure) => { content := left, result := .error failure }

-----------------------------------------------------------------------------------------
-- The output
-----------------------------------------------------------------------------------------

/-- A run so far: what is recorded, and the files in the directory of the output. -/
structure Stage where
  out : Output
  directory : Std.TreeMap String (List UInt8)

/-- The new directory. -/
def Stage.empty : Stage := { out := { files := [], total := 0 }, directory := ∅ }

/-- A part of a run. -/
abbrev Work := Program Stage Failure

/-- `ensure!` -/
def require (condition : Bool) (message : String) : Work Unit :=
  Program.lift (ensure condition (.error message))

/-- `Output::path` -/
def path (ext : String) : Work String :=
  Program.observe fun stage => .ok (outputName stage.out.files.length ext)

/-- `out.total` -/
def total : Work Nat := Program.observe fun stage => .ok stage.out.total

/-- `output.files` -/
def files : Work (List Artifact) := Program.observe fun stage => .ok stage.out.files

/-- A file as an attempt to write it left it. -/
def Stage.store (name : String) (content : Option (List UInt8)) (stage : Stage) : Stage :=
  match content with
  | some bytes => { stage with directory := stage.directory.insert name bytes }
  | none => stage

/-- An attempt to write a file. -/
def create {α : Type} (name : String) (written : Written α) : Work α := do
  Program.change (Stage.store name written.content)
  Program.lift written.result

section Output

variable (sha256 : List UInt8 → List UInt8) (config : Config)

/-- `Output::add`: its size and its digest are those of the file at the path. -/
def Stage.add (path label media : String) (stableId role : Option String) (stage : Stage)
    : Except Failure Stage := do
  let content ← context stage.directory[path]? (.error "No such file or directory")
  let n := content.length
  let total ← context (checkedAdd stage.out.total n) (.error "output overflow")
  ensure (total ≤ config.outputBytes) (.error "output budget exceeded")
  ensure (stage.out.files.length < 10000) (.error "output file count limit")
  let artifact : Artifact :=
    {
      name := path
      label
      mediaType := media
      bytes := n
      sha256 := digest sha256 content
      stableId
      role
    }
  return { stage with out := { files := stage.out.files ++ [artifact], total } }

/-- `Output::add` as a part of a run. -/
def add (path label media : String) (stableId role : Option String) : Work Unit :=
  Program.advance (Stage.add sha256 config path label media stableId role)

/-- `Output::bytes` -/
def bytes (tools : Tools) (data : List UInt8) (ext label media : String) : Work Unit := do
  require (data.length ≤ config.outputBytes - (← total)) "output budget"
  let p ← path ext
  create p (tools.save p data)
  add sha256 config p label media none none

/-- `files.last_mut().unwrap().metadata = ..` -/
def Stage.describe (stableId : String) (role : Option String) (stage : Stage)
    : Except Failure Stage := do
  let last ← context stage.out.files.getLast?
    (.panic "called `Option::unwrap()` on a `None` value")
  let described := { last with stableId := some stableId, role, splitAcb := none }
  return { stage with out := { stage.out with files := stage.out.files.dropLast ++ [described] } }

/-- The metadata of the last artifact is set. -/
def describe (stableId : String) (role : Option String) : Work Unit :=
  Program.advance (Stage.describe stableId role)

/-- `file.metadata["split_acb"] = ..` for an artifact. -/
def assembled (source : SplitAcb) (artifact : Artifact) : Artifact :=
  { artifact with splitAcb := some source }

/-- The artifacts behind the first ones are marked as those of a split sound. -/
def Stage.assemble (before : Nat) (source : SplitAcb) (stage : Stage) : Stage :=
  let marked := (stage.out.files.drop before).map (assembled source)
  { stage with out := { stage.out with files := stage.out.files.take before ++ marked } }

/-- What is recorded of the sound that was put together. -/
def splitSource (payload : List UInt8) (cueSheet : String) (chunks : Nat) : SplitAcb :=
  {
    cueSheet
    chunks
    reconstructedSha256 := digest sha256 payload
    assembly := "ordered-textasset-xor5a-v1"
  }

end Output

/-- `read_exact` of the four bytes at the start of a file. -/
def magic (content : List UInt8) : Except Failure (List UInt8) :=
  context (slice content 0 4) (.error "failed to fill whole buffer")

/-- `b"@UTF"` -/
def utfMark : List UInt8 := [0x40, 0x55, 0x54, 0x46]

/-- `b"CRID"` -/
def cridMark : List UInt8 := [0x43, 0x52, 0x49, 0x44]

/-- `b"CPK "` -/
def cpkMark : List UInt8 := [0x43, 0x50, 0x4B, 0x20]

-----------------------------------------------------------------------------------------
-- Archives
-----------------------------------------------------------------------------------------

/-- How an archived input is recorded. -/
structure Form where
  extension : String
  media : String
  role : String
  stableId : String

/-- `worker::run` for one input of an archive, up to its form. -/
def archiveForm (tools : Tools) (limits : Limits) (input : Input) : Except Failure Form := do
  if providedByCri input.location then
    let mark ← magic (← tools.read input.path)
    ensure ([utfMark, cridMark, awbMark, cpkMark].contains mark)
      (.error "unsupported CRI container signature")
    return {
      extension :=
        if mark = cridMark then "usm"
        else if mark = utfMark then "acb"
        else if mark = awbMark then "awb"
        else "cpk"
      media := "application/octet-stream"
      role := "cri-container"
      stableId := "container-" ++ shown input.location.id.toNat
    }
  else
    let crc ← tools.bundleCrc input.path limits.expandedBytes
    ensure (crcAccepted input.location crc) (.error "bundle CRC mismatch")
    return {
      extension := "bundle"
      media := "application/vnd.unity"
      role := "unity-bundle"
      stableId := "bundle-" ++ shown input.location.id.toNat
    }

section Sha

variable (sha256 : List UInt8 → List UInt8) (tools : Tools) (job : Job)

/-- One round of the loop over the inputs of an archive. -/
def archiveInput (input : Input) : Work Unit := do
  require (remote input.location) "archive accepts only HTTP resources"
  let form ← Program.lift (archiveForm tools job.limits input)
  let p ← path form.extension
  let content ← Program.lift (tools.read input.path)
  create p (tools.save p content)
  add sha256 job.limits.toConfig p input.location.key form.media (some form.stableId)
    (some form.role)

/-- The font reference of an archive, if it has one. -/
def archiveReference : Work Unit :=
  match job.fontReference with
  | some reference => do
      bytes sha256 job.limits.toConfig tools (tools.pretty reference) "json" job.target.key
        "application/json"
      describe "font-reference" (some "font-reference")
  | none => pure ()

/-- `worker::run` for an archive. -/
def archive : Work (List Artifact) := do
  archiveReference sha256 tools job
  job.inputs.forM (archiveInput sha256 tools job)
  files

-----------------------------------------------------------------------------------------
-- Sounds and videos
-----------------------------------------------------------------------------------------

/-- The waveforms of a bank, behind its checks. -/
def bankWaves (content : List UInt8) : Except Failure (List Wave) := do
  ensure ((← tools.bankRows content) = 1) (.error "invalid ACB header rows")
  let tracks ← tools.bankTracks content
  ensure (tracks.all fun t => !t.isStream)
    (.error "external AWB dependency is not supported yet")
  let awb ← context (tools.bankAwb content) (.error "missing embedded AWB")
  checkAwbReferencesSized awb tracks
  let waves ← tools.extract content
  ensure (waves.length = (tracks.map Track.source).dedup.length) (.error "missing ACB waveforms")
  ensure (waves ≠ [] && waves.length ≤ 10000) (.error "waveform count")
  ensure ((waves.map fun w => w.data.length).sum ≤ job.limits.expandedBytes)
    (.error "waveform budget")
  return waves

/-- One round of the loop over the waveforms. -/
def wave (w : Wave) (i : Nat) : Work Unit := do
  require (toAsciiLowercase w.extension = "hca") "unsupported waveform codec"
  Program.lift (tools.decode i w)
  let p ← path "m4a"
  create p (tools.encode i w p)
  add sha256 job.limits.toConfig p (w.label i) "audio/mp4" (some (w.stableId sha256)) none

/-- The mask of a video. -/
def videoMask (content : List UInt8) : Work Unit := do
  let p ← path "mkv"
  create p (tools.encodeMask content p (job.limits.outputBytes - (← total)))
  add sha256 job.limits.toConfig p (job.target.key ++ ".alpha") "video/x-matroska"
    (some "video-alpha") (some "alpha-mask")

/-- `usm_video` -/
def usmVideo (content : List UInt8) : Work Unit := do
  let alpha ← Program.lift (tools.video content)
  let p ← path "mp4"
  create p (tools.encodeColor content p)
  add sha256 job.limits.toConfig p job.target.key "video/mp4" (some "video-color")
    (some (if alpha then "color" else "video"))
  if alpha then videoMask sha256 tools job content else pure ()

/-- `cri` for the content of a file. -/
def cri (content : List UInt8) : Work Unit := do
  let mark ← Program.lift (magic content)
  if mark = utfMark then do
    let waves ← Program.lift (bankWaves tools job content)
    waves.zipIdx.forM fun entry => wave sha256 tools job entry.1 entry.2
  else if mark = cridMark then usmVideo sha256 tools job content
  else Program.lift (.error (.error "unsupported CRI container"))

-----------------------------------------------------------------------------------------
-- Objects
-----------------------------------------------------------------------------------------

/-- `64 << 20` -/
def textLimit : Nat := 64 <<< 20

/-- `512 << 20` -/
def imageLimit : Nat := 512 <<< 20

/-- `decode_text` -/
def decodeText (raw : List UInt8) (limit : Nat) : Except Failure (List UInt8) := do
  if [0x1F, 0x8B].isPrefixOf raw then
    let data ← tools.gunzip raw (limit + 1)
    ensure (data.length ≤ limit) (.error "text expansion limit")
    return data
  else
    ensure (raw.length ≤ limit) (.error "text expansion limit")
    return raw

/-- The extension and the media type of a text. -/
def textForm (data : List UInt8) : String × String :=
  if tools.isJson data then ("json", "application/json")
  else if (textBytes "#TITLE ").isPrefixOf data then ("sus", "text/plain; charset=utf-8")
  else if (fromUtf8 data).isSome then ("txt", "text/plain; charset=utf-8")
  else ("bin", "application/octet-stream")

/-- The `stable_id` of an object. -/
def Object.stableId (object : Object) : String :=
  "unity-" ++ digest sha256 (textBytes object.sourcePath) ++ "-" ++ shown object.pathId

/-- `unity_object` for a text. -/
def textObject (object : Object) (label : String) : Work Unit := do
  let limit := min job.limits.expandedBytes textLimit
  let raw ← Program.lift (object.readTextBytes limit)
  let data ← Program.lift (decodeText tools raw limit)
  let form := textForm tools data
  bytes sha256 job.limits.toConfig tools data form.1 label form.2
  describe (object.stableId sha256) none

/-- `unity_object` for a texture or a sprite. -/
def imageObject (object : Object) (label : String) : Work Unit := do
  let limit := min job.limits.outputBytes imageLimit
  let image ← Program.lift
    (if object.classId = 28 then object.decodeTexture limit else object.decodeSprite limit)
  let p ← path "png"
  create p (image.png (job.limits.outputBytes - (← total)))
  add sha256 job.limits.toConfig p label "image/png" (some (object.stableId sha256)) none

/-- `unity_object` -/
def unityObject (object : Object) : Work Unit := do
  let label := object.name.getD "unnamed"
  if object.classId = 49 then textObject sha256 tools job object label
  else if object.classId = 28 ∨ object.classId = 213 then imageObject sha256 job object label
  else
    Program.lift (.error (.error ("unsupported Unity class " ++ shown object.classId)))

/-- One object that the target resolves to, with the number of empty atlases so far. -/
def target (emptyAtlases : Nat) (found : Except Failure Target) : Work Nat := do
  let object ← Program.lift found
  if job.target.resourceType = splitAcbType then do
    let (payload, cueSheet, chunks) ← Program.lift (object.split job.limits.expandedBytes)
    let before ← files
    cri sha256 tools job payload
    Program.change (Stage.assemble before.length (splitSource sha256 payload cueSheet chunks))
    pure emptyAtlases
  else if object.classId = 114 ∧ startsWith job.target.resourceType "CriWare." then do
    let raw ← Program.lift (object.wrapped job.limits.expandedBytes)
    let payload ← Program.lift (Embedded.extract raw (.ofNat job.limits.expandedBytes))
    cri sha256 tools job payload
    pure emptyAtlases
  else if object.classId = 687078895 then do
    let atlas ← Program.lift object.atlas
    require (!(atlas.sprites.isEmpty && atlas.unresolved)) "atlas contains unresolved render data"
    atlas.sprites.forM fun sprite => do
      unityObject sha256 tools job (← Program.lift sprite)
    pure (if atlas.sprites.isEmpty then emptyAtlases + 1 else emptyAtlases)
  else do
    unityObject sha256 tools job object.toObject
    pure emptyAtlases

-----------------------------------------------------------------------------------------
-- Runs
-----------------------------------------------------------------------------------------

/-- The objects of a preview from its regions; yields the number of empty atlases. -/
def objects (regions : List (String × Region)) : Work Nat := do
  let targets ← Program.lift (tools.targets regions job.target.internal)
  require (!targets.isEmpty) "target InternalId not found in bundle containers"
  targets.foldlM (target sha256 tools job) 0

/-- The payload or the objects of a preview; yields the number of empty atlases. -/
def previewObjects : Work Nat := do
  match ← Program.lift (opening tools.toStore job) with
  | .raw input => do
      cri sha256 tools job (← Program.lift (tools.read input))
      pure 0
  | .regions regions => objects sha256 tools job regions

/-- `worker::run` for a preview. -/
def preview : Work (List Artifact) := do
  let emptyAtlases ← previewObjects sha256 tools job
  let outputs ← files
  require (!outputs.isEmpty || 0 < emptyAtlases) "no supported outputs"
  pure outputs

/-- `worker::run` in its new directory. -/
def run : Work (List Artifact) := do
  Program.lift (tools.validate job.limits)
  require (!job.inputs.isEmpty || (job.archive && job.fontReference.isSome)) "empty worker inputs"
  Program.lift tools.createDir
  if job.archive then archive sha256 tools job else preview sha256 tools job

end Sha

end MoenotesAssets.Worker.Run
