import MoenotesAssets.Export.Manifest
import MoenotesAssets.Foundation.Machine
import MoenotesAssets.ObjectTree.Names
import Mathlib.Data.List.Dedup
import Mathlib.Data.List.Sort

/-! `worker::cri` for sound banks: the checks of a bank, and one artifact for each waveform that
is extracted from it.
-/

namespace MoenotesAssets.Worker

open Foundation Foundation.Bytes Foundation.Machine Export
open ObjectTree (digest toAsciiLowercase)

-----------------------------------------------------------------------------------------
-- Banks
-----------------------------------------------------------------------------------------

/-- `cridecoder::acb::Track`: a waveform that a cue plays. -/
structure Track where
  cueId : Int
  name : String
  wavId : Int
  isStream : Bool
  streamAwbId : Int
deriving DecidableEq

/-- What identifies a waveform: `(t.is_stream, t.stream_awb_id, t.wav_id)`. -/
abbrev Source := Bool × Int × Int

/-- The waveform of a track. -/
def Track.source (track : Track) : Source := (track.isStream, track.streamAwbId, track.wavId)

/-- A cue that refers to a waveform. -/
structure Cue where
  name : String
  id : Int
deriving DecidableEq

/-- The cue of a track. -/
def Track.cue (track : Track) : Cue := { name := track.name, id := track.cueId }

/-- A waveform as it is extracted from a bank. -/
structure Wave where
  data : List UInt8
  extension : String
  subkey : Nat
  cues : List Cue
deriving DecidableEq

/-- What is read of a bank: the number of rows of its header, its tracks and its `AwbFile`. -/
structure Bank where
  rows : Nat
  tracks : List Track
  awb : Option (List UInt8)

/-- What is called besides: `extract_acb_unique_to_memory`, and the conversion of the waveform at
an index to the bytes of an `m4a` file, with its checks before and after.
-/
structure Tools where
  extract : Bank → Except String (List Wave)
  encode : Nat → Wave → Except String (List UInt8)

/-- One waveform is extracted for each source of the tracks, with the cues of its tracks. -/
def Extracted (tracks : List Track) (waves : List Wave) : Prop :=
  ∃ sources : List Source,
    sources.Nodup
    ∧ (∀ source, source ∈ sources ↔ source ∈ tracks.map Track.source)
    ∧ waves.map Wave.cues
      = sources.map fun source =>
          (tracks.filter fun track => track.source = source).map Track.cue

-----------------------------------------------------------------------------------------
-- References
-----------------------------------------------------------------------------------------

/-- `b"AFS2"` -/
def awbMark : List UInt8 := [0x41, 0x46, 0x53, 0x32]

/-- The bytes `data[start..stop]`. -/
def bytesAt (data : List UInt8) (start stop : Nat) : List UInt8 :=
  (data.drop start).take (stop - start)

/-- One round of the loop over the ids of the waveforms of an AWB. -/
def checkId (data : List UInt8) (idSize : Nat) (ids : List Nat) (i : Nat)
    : Except String (List Nat) := do
  let id := littleEndian (bytesAt data (16 + i * idSize) (16 + (i + 1) * idSize))
  ensure (!ids.contains id) "duplicate AWB wave ID"
  return id :: ids

/-- One round of the loop over the offsets of an AWB. -/
def checkOffset (data offsets : List UInt8) (offsetSize alignment count previous i : Nat)
    : Except String Nat := do
  let n := littleEndian (bytesAt offsets (i * offsetSize) ((i + 1) * offsetSize))
  ensure (previous ≤ n && n ≤ data.length) "invalid AWB offset"
  let start := if i < count then divCeil n alignment * alignment else n
  ensure (start ≤ data.length) "invalid AWB alignment"
  return start

/-- `check_awb_references` -/
def checkAwbReferences (data : List UInt8) (tracks : List Track) : Except String Unit := do
  ensure (16 ≤ data.length && awbMark.isPrefixOf data) "invalid embedded AWB"
  let count := littleEndian (bytesAt data 8 12)
  let offsetSize := (data.getD 5 0).toNat
  let idSize := (data.getD 6 0).toNat
  let alignment := littleEndian (bytesAt data 12 14)
  ensure
    (count ≤ 10000 && (offsetSize == 2 || offsetSize == 4) && (idSize == 2 || idSize == 4)
      && 0 < alignment)
    "unsupported AWB header"
  let tableEnd := 16 + count * idSize + (count + 1) * offsetSize
  ensure (tableEnd ≤ data.length) "truncated AWB table"
  let ids ← (List.range count).foldlM (checkId data idSize) []
  let offsets := bytesAt data (16 + count * idSize) tableEnd
  let _ ← (List.range (count + 1)).foldlM
    (checkOffset data offsets offsetSize alignment count) tableEnd
  tracks.forM fun t =>
    ensure (0 ≤ t.wavId && ids.contains t.wavId.toNat)
      "ACB references a missing AWB waveform"

-----------------------------------------------------------------------------------------
-- Artifacts
-----------------------------------------------------------------------------------------

/-- The limits of a configuration. -/
structure Config where
  expandedBytes : Nat
  outputBytes : Nat

/-- `worker::Output` -/
structure Output where
  files : List Artifact
  total : Nat
deriving DecidableEq

/-- An integer as JSON writes it. -/
def decimal : Int → List Char
  | .ofNat value => Nat.toDigits 10 value
  | .negSucc value => '-' :: Nat.toDigits 10 (value + 1)

/-- `serde_json::to_vec` of integers. -/
def jsonArray (values : List Int) : String :=
  String.ofList ('[' :: [','].intercalate (values.map decimal) ++ [']'])

section Sha

variable (sha256 : List UInt8 → List UInt8)

/-- The JSON of the sorted ids of the cues of a waveform. -/
def Wave.identities (w : Wave) : String :=
  jsonArray ((w.cues.map Cue.id).insertionSort (· ≤ ·))

/-- The `stable_id` of a waveform. -/
def Wave.stableId (w : Wave) : String := "wave-" ++ digest sha256 (textBytes w.identities)

/-- `Output::add` -/
def Output.add (config : Config) (out : Output) (content : List UInt8) (ext label media : String)
    (stableId role : Option String)
    : Except String Output := do
  let total := out.total + content.length
  ensure (total < 2 ^ 64) "output overflow"
  ensure (total ≤ config.outputBytes) "output budget exceeded"
  ensure (out.files.length < 10000) "output file count limit"
  let artifact : Artifact :=
    {
      name := outputName out.files.length ext
      label
      mediaType := media
      bytes := content.length
      sha256 := digest sha256 content
      stableId
      role
    }
  return { files := out.files ++ [artifact], total }

/-- The label of the waveform at an index. -/
def Wave.label (w : Wave) (i : Nat) : String :=
  match w.cues.head? with
  | some cue => cue.name
  | none => "wave-" ++ String.ofList (Nat.toDigits 10 i)

/-- One round of the loop over the waveforms. -/
def addWave (config : Config) (tools : Tools) (out : Output) (entry : Wave × Nat)
    : Except String Output := do
  let (w, i) := entry
  ensure (toAsciiLowercase w.extension = "hca") "unsupported waveform codec"
  let content ← tools.encode i w
  out.add sha256 config content "m4a" (w.label i) "audio/mp4" (some (w.stableId sha256)) none

/-- `cri` for a bank. -/
def cri (config : Config) (tools : Tools) (bank : Bank) (out : Output) : Except String Output := do
  ensure (bank.rows = 1) "invalid ACB header rows"
  ensure (bank.tracks.all fun t => !t.isStream) "external AWB dependency is not supported yet"
  let awb ← context bank.awb "missing embedded AWB"
  checkAwbReferences awb bank.tracks
  let waves ← tools.extract bank
  let expected := (bank.tracks.map Track.source).dedup
  ensure (waves.length = expected.length) "missing ACB waveforms"
  ensure (waves ≠ [] && waves.length ≤ 10000) "waveform count"
  ensure ((waves.map fun w => w.data.length).sum ≤ config.expandedBytes) "waveform budget"
  waves.zipIdx.foldlM (addWave sha256 config tools) out

end Sha

-----------------------------------------------------------------------------------------
-- Identities
-----------------------------------------------------------------------------------------

section Identities

/-- The letters of an integer are digits behind a sign. -/
theorem decimal_letters (value : Int)
    : ∀ letter ∈ decimal value, letter.isDigit ∨ letter = '-' := by
  have digits : ∀ number, ∀ letter ∈ Nat.toDigits 10 number, letter.isDigit = true :=
    fun number letter member => Nat.isDigit_of_mem_toDigits (by decide) (by decide) member
  intro letter member
  cases value with
  | ofNat number => exact Or.inl (digits number letter member)
  | negSucc number =>
      rcases List.mem_cons.mp member with sign | digit
      · exact Or.inr sign
      · exact Or.inl (digits _ letter digit)

/-- No digits start with a sign. -/
theorem toDigits_unsigned (number : Nat) (rest : List Char)
    : Nat.toDigits 10 number ≠ '-' :: rest := by
  intro same
  have sign : '-' ∈ Nat.toDigits 10 number := same ▸ List.mem_cons_self
  exact absurd (Nat.isDigit_of_mem_toDigits (by decide) (by decide) sign) (by decide)

/-- The letters of an integer determine it. -/
theorem decimal_injective : Function.Injective decimal := by
  intro value other same
  cases value with
  | ofNat number =>
      cases other with
      | ofNat number' => exact congrArg Int.ofNat (Bytes.digits_injective same)
      | negSucc number' => exact absurd same (toDigits_unsigned _ _)
  | negSucc number =>
      cases other with
      | ofNat number' => exact absurd same.symm (toDigits_unsigned _ _)
      | negSucc number' =>
          have next := Bytes.digits_injective (List.cons.inj same).2
          exact congrArg Int.negSucc (Nat.succ.inj next)

/-- Integers have letters. -/
theorem decimal_ne_nil (value : Int) : decimal value ≠ [] := by
  cases value with
  | ofNat number => exact Nat.toDigits_ne_nil
  | negSucc number => exact List.cons_ne_nil _ _

/-- The JSON of integers determines them. -/
theorem jsonArray_injective : Function.Injective jsonArray := by
  have split : ∀ values : List Int, values ≠ []
      → ([','].intercalate (values.map decimal)).splitOn ',' = values.map decimal := by
    intro values nonempty
    rw [List.splitOn_intercalate]
    case hx =>
      intro letters member comma
      obtain ⟨value, -, rfl⟩ := List.mem_map.mp member
      exact absurd (decimal_letters value _ comma) (by decide)
    case hls => rwa [ne_eq, List.map_eq_nil_iff]
  -- the text of no integers is empty, and that of others is not
  have empty : ∀ values : List Int, values ≠ []
      → [','].intercalate (([] : List Int).map decimal)
        ≠ [','].intercalate (values.map decimal) := by
    intro values nonempty same
    obtain ⟨first, rest, rfl⟩ := List.exists_cons_of_ne_nil nonempty
    have whole := split (first :: rest) nonempty
    rw [← same] at whole
    exact decimal_ne_nil first (List.cons.inj whole).1.symm
  intro values other same
  have letters := String.ofList_injective same
  rw [List.cons_append, List.cons_append] at letters
  have inner := List.append_cancel_right (List.cons.inj letters).2
  by_cases none : values = []
  · by_cases none' : other = []
    · rw [none, none']
    · exact absurd (none ▸ inner) (empty other none')
  · by_cases none' : other = []
    · exact absurd (none' ▸ inner).symm (empty values none)
    · have parts := congrArg (List.splitOn ',') inner
      rw [split values none, split other none'] at parts
      exact decimal_injective.list_map parts

/-- Waveforms have one identity just when the same cue ids refer to them. -/
theorem identities_eq_iff {w w' : Wave}
    : w.identities = w'.identities ↔ (w.cues.map Cue.id).Perm (w'.cues.map Cue.id) := by
  have perm := List.perm_insertionSort (· ≤ ·) (w.cues.map Cue.id)
  have perm' := List.perm_insertionSort (· ≤ ·) (w'.cues.map Cue.id)
  constructor
  · intro same
    rw [jsonArray_injective same] at perm
    exact perm.symm.trans perm'
  · intro alike
    exact congrArg jsonArray (List.Perm.eq_of_pairwise' (List.pairwise_insertionSort _ _)
      (List.pairwise_insertionSort _ _) (perm.trans (alike.trans perm'.symm)))

end Identities

-----------------------------------------------------------------------------------------
-- What is written
-----------------------------------------------------------------------------------------

section Written

variable {sha256 : List UInt8 → List UInt8} {config : Config} {tools : Tools} {bank : Bank}
  {before after : Output} {waves : List Wave}

/-- An artifact is that of a waveform at an index. -/
structure Wave.Describes (sha256 : List UInt8 → List UInt8) (entry : Wave × Nat)
    (artifact : Artifact)
    : Prop where
  name : ∃ index, artifact.name = outputName index "m4a"
  label : artifact.label = entry.1.label entry.2
  stableId : artifact.stableId = some (entry.1.stableId sha256)
  role : artifact.role = none

/-- A waveform adds its artifact. -/
theorem addWave_ok {entry : Wave × Nat}
    (added : addWave sha256 config tools before entry = .ok after)
    : ∃ artifact,
        after.files = before.files ++ [artifact]
        ∧ Wave.Describes sha256 entry artifact := by
  simp only [addWave, Output.add, bind_ok, ensure_ok, pure_ok, exists_const,
    decide_eq_true_eq] at added
  obtain ⟨-, content, -, -, -, -, rfl⟩ := added
  exact ⟨_, rfl, ⟨_, rfl⟩, rfl, rfl, rfl⟩

/-- Waveforms add their artifacts in order, by induction on them. -/
theorem addWaves_ok {entries : List (Wave × Nat)}
    (added : entries.foldlM (addWave sha256 config tools) before = .ok after)
    : ∃ artifacts,
        after.files = before.files ++ artifacts
        ∧ List.Forall₂ (Wave.Describes sha256) entries artifacts := by
  induction entries generalizing before with
  | nil =>
      obtain rfl := pure_ok.mp added
      exact ⟨[], (List.append_nil _).symm, List.Forall₂.nil⟩
  | cons entry rest ih =>
      obtain ⟨middle, first, others⟩ := bind_ok.mp added
      obtain ⟨artifact, shape, described⟩ := addWave_ok first
      obtain ⟨artifacts, shape', describes⟩ := ih others
      refine ⟨artifact :: artifacts, ?_, List.Forall₂.cons described describes⟩
      rw [shape', shape, List.append_assoc, List.singleton_append]

/-- An accepted bank adds an artifact for each of its waveforms. -/
theorem cri_ok (extracted : tools.extract bank = .ok waves)
    (accepted : cri sha256 config tools bank before = .ok after)
    : ∃ artifacts,
        after.files = before.files ++ artifacts
        ∧ List.Forall₂ (Wave.Describes sha256) waves.zipIdx artifacts := by
  simp only [cri, bind_ok, ensure_ok, exists_const, extracted, Except.ok.injEq,
    exists_eq_left'] at accepted
  obtain ⟨-, -, awb, -, -, -, -, -, -, added⟩ := accepted
  exact addWaves_ok added

end Written

end MoenotesAssets.Worker
