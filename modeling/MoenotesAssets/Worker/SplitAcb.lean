import MoenotesAssets.Worker.Outputs

/-! A sound that is split over text assets. They are read in the order in which the sheet refers to
them, every byte is masked with `0x5a`, and the header of what they make up is checked.
-/

namespace MoenotesAssets.Worker.SplitAcb

open Foundation Foundation.Bytes Foundation.Machine
open Export (Artifact)
open Run (Object Stage Target assembled bankWaves files objects require splitSource usmVideo utfMark
  videoMask)

-----------------------------------------------------------------------------------------
-- The type tree of a sheet
-----------------------------------------------------------------------------------------

/-- `serde_json::Value`: a number has its value when it is written as an integer, and no two fields
of an object share a name.
-/
inductive Tree where
  | null
  | bool (value : Bool)
  | number (integer : Option Int)
  | text (letters : String)
  | array (items : List Tree)
  | object (fields : List (String × Tree))

/-- `[]` on a value: `null` for a missing field. -/
def Tree.get (key : String) : Tree → Tree
  | .object fields => (fields.lookup key).getD .null
  | _ => .null

/-- `Value::as_str` -/
def Tree.asStr : Tree → Option String
  | .text letters => some letters
  | _ => none

/-- `Value::as_array` -/
def Tree.asArray : Tree → Option (List Tree)
  | .array items => some items
  | _ => none

/-- `Value::as_i64` -/
def Tree.asI64 : Tree → Option Int
  | .number (some integer) =>
      if -2 ^ 63 ≤ integer ∧ integer < 2 ^ 63 then some integer else none
  | _ => none

/-- `i32::try_from` -/
def toI32 (value : Int) : Except Failure Int :=
  if -2 ^ 31 ≤ value ∧ value < 2 ^ 31 then .ok value
  else .error (.error "out of range integral type conversion attempted")

/-- `ObjectReference` -/
structure ObjectReference where
  fileId : Int
  pathId : Int
deriving DecidableEq

/-- The reference of one chunk. -/
def reference (value : Tree) : Except Failure ObjectReference := do
  let fileId ← toI32 (← context (value.get "m_FileID").asI64 (.error "split ACB file ID"))
  let pathId ← context (value.get "m_PathID").asI64 (.error "split ACB path ID")
  return { fileId, pathId }

/-- `references` -/
def references (tree : Tree) : Except Failure (String × List ObjectReference) := do
  let name ← context (tree.get "_cueSheetName").asStr (.error "split ACB cue sheet name missing")
  ensure (name ≠ "" && name.utf8ByteSize ≤ 4096) (.error "split ACB cue sheet name limit")
  let values ← context (tree.get "_chunks").asArray (.error "split ACB chunks missing")
  ensure (!values.isEmpty && values.length ≤ 4096) (.error "split ACB chunk count")
  let refs ← values.mapM reference
  ensure (refs.all fun r => 0 ≤ r.fileId && r.pathId ≠ 0) (.error "invalid split ACB reference")
  return (name, refs)

-----------------------------------------------------------------------------------------
-- The bytes of a sound
-----------------------------------------------------------------------------------------

/-- `chunk.iter().map(|v| v ^ 0x5a)` -/
def masked (chunk : List UInt8) : List UInt8 := chunk.map (· ^^^ 0x5A)

/-- Where a reference leads. -/
structure Resolved where
  fileIndex : Nat
  pathId : Int

/-- What the loader calls: `Studio`, `resolve_object_reference`, `serde_json::from_slice`, and the
allocator, which may refuse to make room for more bytes after those of a vector.
-/
structure Studio where
  fromSlice : List UInt8 → Except Failure Tree
  resolveObjectReference : Nat → ObjectReference → Except Failure (Option Resolved)
  object : Nat → Int → Option Object
  reserves : Nat → Nat → Bool

/-- The object of a sheet. -/
structure Sheet where
  classId : Int
  fileIndex : Nat
  readTypeTreeJson : Nat → Except Failure (List UInt8)

/-- `append` -/
def append (studio : Studio) (out chunk : List UInt8) (limit : Nat)
    : Except Failure (List UInt8) := do
  ensure (!chunk.isEmpty && (checkedAdd out.length chunk.length).any fun n => n ≤ limit)
    (.error "split ACB byte budget or empty chunk")
  ensure (studio.reserves out.length chunk.length) (.error "split ACB allocation")
  return out ++ masked chunk

/-- `validate` -/
def validate (bytes : List UInt8) : Except Failure Unit := do
  ensure (32 ≤ bytes.length && utfMark.isPrefixOf bytes)
    (.error "split ACB reconstructed header invalid")
  let table := bigEndian (← range bytes 4 8) + 8
  ensure (32 ≤ table && table ≤ bytes.length) (.error "split ACB table truncated")

/-- One round of the loop over the references. -/
def appendReference (studio : Studio) (fileIndex limit : Nat) (bytes : List UInt8)
    (r : ObjectReference)
    : Except Failure (List UInt8) := do
  let resolved ← context (← studio.resolveObjectReference fileIndex r)
    (.error "split ACB chunk reference missing")
  let chunk ← context (studio.object resolved.fileIndex resolved.pathId)
    (.error "split ACB chunk object missing")
  ensure (chunk.classId = 49) (.error "split ACB chunk is not TextAsset")
  let raw ← chunk.readTextBytes (limit - bytes.length)
  append studio bytes raw limit

/-- `read`: the bytes of the sound, the name of its sheet and the number of its chunks. -/
def read (studio : Studio) (object : Sheet) (limit : Nat)
    : Except Failure (List UInt8 × String × Nat) := do
  ensure (object.classId = 114) (.error "split ACB wrapper class")
  let tree ← studio.fromSlice (← object.readTypeTreeJson (1 <<< 20))
  let (name, refs) ← references tree
  let bytes ← refs.foldlM (appendReference studio object.fileIndex limit) []
  validate bytes
  return (bytes, name, refs.length)

-----------------------------------------------------------------------------------------
-- What is accepted
-----------------------------------------------------------------------------------------

/-- `as_i64` of an integer that fits. -/
theorem asI64_eq_some {tree : Tree} {value : Int}
    : tree.asI64 = some value
      ↔ tree = .number (some value) ∧ -2 ^ 63 ≤ value ∧ value < 2 ^ 63 := by
  cases tree with
  | number integer =>
      cases integer with
      | none => simp [Tree.asI64]
      | some integer =>
          rw [Tree.asI64, Option.ite_none_right_eq_some, Tree.number.injEq, Option.some.injEq]
          constructor
          · rintro ⟨fits, rfl⟩
            exact ⟨rfl, fits⟩
          · rintro ⟨rfl, fits⟩
            exact ⟨fits, rfl⟩
  | null | bool _ | text _ | array _ | object _ => simp [Tree.asI64]

/-- `as_str` of a text. -/
theorem asStr_eq_some {tree : Tree} {letters : String}
    : tree.asStr = some letters ↔ tree = .text letters := by
  cases tree <;> simp [Tree.asStr]

/-- `as_array` of an array. -/
theorem asArray_eq_some {tree : Tree} {items : List Tree}
    : tree.asArray = some items ↔ tree = .array items := by
  cases tree <;> simp [Tree.asArray]

/-- The value of a chunk in a sheet, for the reference that it is. -/
structure Points (value : Tree) (r : ObjectReference) : Prop where
  file : value.get "m_FileID" = .number (some r.fileId)
  path : value.get "m_PathID" = .number (some r.pathId)
  small : 0 ≤ r.fileId ∧ r.fileId < 2 ^ 31
  present : r.pathId ≠ 0
  fits : -2 ^ 63 ≤ r.pathId ∧ r.pathId < 2 ^ 63

/-- What a sheet says: the name of the sound, and the references to its chunks in their order. -/
structure Refers (tree : Tree) (name : String) (refs : List ObjectReference) : Prop where
  sheet : tree.get "_cueSheetName" = .text name
  named : name ≠ ""
  short : name.utf8ByteSize ≤ 4096
  chunks : ∃ values, tree.get "_chunks" = .array values ∧ List.Forall₂ Points values refs
  present : refs ≠ []
  few : refs.length ≤ 4096

/-- A reference that is accepted is the one that its value is for. -/
theorem reference_ok {value : Tree} {r : ObjectReference}
    : reference value = .ok r ∧ 0 ≤ r.fileId ∧ r.pathId ≠ 0 ↔ Points value r := by
  simp only [reference, toI32, bind_ok, context_ok, guarded_ok, pure_ok, asI64_eq_some]
  constructor
  · rintro ⟨⟨_, ⟨file, _⟩, _, ⟨rfl, _, small⟩, _, ⟨path, fits⟩, rfl⟩, least, present⟩
    exact { file, path, small := ⟨least, small⟩, present, fits }
  · rintro ⟨file, path, ⟨least, small⟩, present, fits⟩
    have wide : -2 ^ 63 ≤ r.fileId ∧ r.fileId < 2 ^ 63 := by omega
    have narrow : -2 ^ 31 ≤ r.fileId ∧ r.fileId < 2 ^ 31 := by omega
    exact ⟨⟨_, ⟨file, wide⟩, _, ⟨rfl, narrow⟩, _, ⟨path, fits⟩, rfl⟩, least, present⟩

/-- The sheets that are accepted are those that say what a sheet has to. -/
theorem references_ok {tree : Tree} {name : String} {refs : List ObjectReference}
    : references tree = .ok (name, refs) ↔ Refers tree name refs := by
  simp only [references, bind_ok, context_ok, ensure_ok, pure_ok, asStr_eq_some, asArray_eq_some,
    Bool.and_eq_true, decide_eq_true_eq, Bool.not_eq_true', List.isEmpty_eq_false_iff, mapM_ok,
    List.all_eq_true, Prod.mk.injEq]
  constructor
  · rintro ⟨name, sheet, _, ⟨named, short⟩, values, chunks, _, ⟨present, few⟩, refs, read, _,
      valid, rfl, rfl⟩
    have both := (List.forall₂_and_left refs values).mpr ⟨valid, read.flip⟩
    have points : List.Forall₂ Points values refs :=
      both.flip.imp fun _ _ accepted => reference_ok.mp accepted.symm
    have same := read.length_eq
    exact { sheet, named, short, chunks := ⟨values, chunks, points⟩
            present := by simpa [← List.length_pos_iff, same] using present
            few := same ▸ few }
  · rintro ⟨sheet, named, short, ⟨values, chunks, points⟩, present, few⟩
    have same := points.length_eq
    have some : values ≠ [] := by simpa [← List.length_pos_iff, same] using present
    have read := points.imp fun _ _ pointed => (reference_ok.mpr pointed).1
    have valid : ∀ r ∈ refs, 0 ≤ r.fileId ∧ r.pathId ≠ 0 := fun r member => by
      obtain ⟨value, _, pointed⟩ := forall₂_comes points member
      exact (reference_ok.mpr pointed).2
    exact ⟨_, sheet, (), ⟨named, short⟩, values, chunks, (), ⟨some, same ▸ few⟩, refs, read, (),
      valid, rfl, rfl⟩

/-- The size that the header of a sound states for its table. -/
def stated (sound : List UInt8) : Nat := bigEndian ((sound.drop 4).take 4) + 8

/-- The header of a sound: the mark of a table, and a size of the table that lies within it. -/
structure Header (sound : List UInt8) : Prop where
  long : 32 ≤ sound.length
  marked : utfMark <+: sound
  least : 32 ≤ stated sound
  inside : stated sound ≤ sound.length

/-- The sounds that are accepted are those with a header. -/
theorem validate_ok {sound : List UInt8} {done : Unit}
    : validate sound = .ok done ↔ Header sound := by
  simp only [validate, bind_ok, ensure_ok, range, context_ok, slice_eq_some, Bool.and_eq_true,
    decide_eq_true_eq, List.isPrefixOf_iff_prefix]
  constructor
  · rintro ⟨_, ⟨long, marked⟩, _, ⟨_, _, rfl⟩, least, inside⟩
    exact { long, marked, least, inside }
  · rintro ⟨long, marked, least, inside⟩
    exact ⟨(), ⟨long, marked⟩, _, ⟨by decide, by omega, rfl⟩, least, inside⟩

/-- What the text asset of a reference adds to a sound of which some bytes are already there. -/
structure Adds (studio : Studio) (fileIndex limit held : Nat) (r : ObjectReference)
    (chunk : List UInt8)
    : Prop where
  read : ∃ resolved object, studio.resolveObjectReference fileIndex r = .ok (some resolved)
    ∧ studio.object resolved.fileIndex resolved.pathId = some object
    ∧ object.classId = 49
    ∧ object.readTextBytes (limit - held) = .ok chunk
  present : chunk ≠ []
  fits : held + chunk.length ≤ min limit max64
  reserved : studio.reserves held chunk.length = true

/-- A chunk is appended, masked, when it is not empty, fits and finds room. -/
theorem append_ok {studio : Studio} {out chunk after : List UInt8} {limit : Nat}
    : append studio out chunk limit = .ok after
      ↔ chunk ≠ [] ∧ out.length + chunk.length ≤ min limit max64
        ∧ studio.reserves out.length chunk.length = true ∧ after = out ++ masked chunk := by
  have within : (checkedAdd out.length chunk.length).any (fun n => n ≤ limit) = true
      ↔ out.length + chunk.length ≤ min limit max64 := by
    rw [checkedAdd]
    split
    · simp only [Option.any_some, decide_eq_true_eq]
      omega
    · simp only [Option.any_none, Bool.false_eq_true, false_iff]
      omega
  simp only [append, bind_ok, ensure_ok, pure_ok, Bool.and_eq_true, Bool.not_eq_true',
    List.isEmpty_eq_false_iff, within]
  constructor
  · rintro ⟨_, ⟨present, fits⟩, _, reserved, rfl⟩
    exact ⟨present, fits, reserved, rfl⟩
  · rintro ⟨present, fits, reserved, rfl⟩
    exact ⟨(), ⟨present, fits⟩, (), reserved, rfl⟩

/-- One round appends what the text asset of its reference adds, masked. -/
theorem appendReference_ok {studio : Studio} {fileIndex limit : Nat} {bytes after : List UInt8}
    {r : ObjectReference}
    : appendReference studio fileIndex limit bytes r = .ok after
      ↔ ∃ chunk, Adds studio fileIndex limit bytes.length r chunk
        ∧ after = bytes ++ masked chunk := by
  simp only [appendReference, bind_ok, context_ok, ensure_ok, append_ok, decide_eq_true_eq]
  constructor
  · rintro ⟨_, resolves, resolved, rfl, object, found, _, isText, chunk, read, present, fits,
      reserved, rfl⟩
    have adds : Adds studio fileIndex limit bytes.length r chunk :=
      { read := ⟨resolved, object, resolves, found, isText, read⟩, present, fits, reserved }
    exact ⟨chunk, adds, rfl⟩
  · rintro ⟨chunk, adds, rfl⟩
    obtain ⟨resolved, object, resolves, found, isText, read⟩ := adds.read
    exact ⟨_, resolves, resolved, rfl, object, found, (), isText, chunk, read, adds.present,
      adds.fits, adds.reserved, rfl⟩

/-- The chunks of a sound, each behind those before it. -/
inductive Chunks (studio : Studio) (fileIndex limit : Nat)
    : Nat → List ObjectReference → List (List UInt8) → Prop where
  | nil (held : Nat) : Chunks studio fileIndex limit held [] []
  | cons {held : Nat} {r : ObjectReference} {refs : List ObjectReference} {chunk : List UInt8}
      {chunks : List (List UInt8)} (adds : Adds studio fileIndex limit held r chunk)
      (rest : Chunks studio fileIndex limit (held + chunk.length) refs chunks)
    : Chunks studio fileIndex limit held (r :: refs) (chunk :: chunks)

/-- The mask works byte by byte. -/
@[simp] theorem masked_append (left right : List UInt8)
    : masked (left ++ right) = masked left ++ masked right :=
  List.map_append

/-- The mask keeps the length. -/
@[simp] theorem masked_length (chunk : List UInt8) : (masked chunk).length = chunk.length :=
  List.length_map ..

/-- The mask undoes itself. -/
@[simp] theorem masked_masked (chunk : List UInt8) : masked (masked chunk) = chunk := by
  rw [masked, masked, List.map_map]
  exact (List.map_congr_left fun byte _ => xor_undoes byte 0x5A).trans (List.map_id' chunk)

/-- The mask works chunk by chunk. -/
theorem flatten_masked (pieces : List (List UInt8))
    : (pieces.map masked).flatten = masked pieces.flatten :=
  List.map_flatten.symm

/-- The rounds append the chunks in the order of their references. -/
theorem appendReferences_ok {studio : Studio} {fileIndex limit : Nat}
    {refs : List ObjectReference} {bytes after : List UInt8}
    : refs.foldlM (appendReference studio fileIndex limit) bytes = .ok after
      ↔ ∃ chunks, Chunks studio fileIndex limit bytes.length refs chunks
        ∧ after = bytes ++ masked chunks.flatten := by
  induction refs generalizing bytes with
  | nil =>
      simp only [List.foldlM_nil, pure_ok]
      constructor
      · rintro rfl
        exact ⟨[], .nil _, by simp [masked]⟩
      · rintro ⟨_, ⟨⟩, rfl⟩
        simp [masked]
  | cons r refs ih =>
      simp only [List.foldlM_cons, bind_ok, appendReference_ok, ih]
      constructor
      · rintro ⟨_, ⟨chunk, adds, rfl⟩, chunks, rest, rfl⟩
        rw [List.length_append, masked_length] at rest
        exact ⟨chunk :: chunks, .cons adds rest, by simp⟩
      · rintro ⟨_, ⟨⟩, rfl⟩
        rename_i chunk chunks adds rest
        refine ⟨_, ⟨chunk, adds, rfl⟩, chunks, ?_, by simp⟩
        rwa [List.length_append, masked_length]

/-- A sheet is read exactly when it refers to text assets that make up a sound with a header, each
of them present and all of them within the limit. The sound is what they hold, in the order of
the references and with every byte masked.
-/
theorem read_ok {studio : Studio} {object : Sheet} {limit count : Nat} {sound : List UInt8}
    {name : String}
    : read studio object limit = .ok (sound, name, count)
      ↔ object.classId = 114 ∧ ∃ json tree refs chunks,
        object.readTypeTreeJson (1 <<< 20) = .ok json ∧ studio.fromSlice json = .ok tree
        ∧ Refers tree name refs ∧ count = refs.length
        ∧ Chunks studio object.fileIndex limit 0 refs chunks
        ∧ sound = masked chunks.flatten ∧ Header sound := by
  simp only [read, bind_ok, ensure_ok, pure_ok, appendReferences_ok, validate_ok, references_ok,
    decide_eq_true_eq, Prod.exists, Prod.mk.injEq, List.nil_append, List.length_nil]
  constructor
  · rintro ⟨_, isSheet, json, shown, tree, parsed, _, refs, refers, _, ⟨chunks, held, rfl⟩,
      _, header, rfl, rfl, rfl⟩
    exact ⟨isSheet, json, tree, refs, chunks, shown, parsed, refers, rfl, held, rfl, header⟩
  · rintro ⟨isSheet, json, tree, refs, chunks, shown, parsed, refers, rfl, held, rfl, header⟩
    exact ⟨(), isSheet, json, shown, tree, parsed, _, refs, refers, _, ⟨chunks, held, rfl⟩,
      (), header, rfl, rfl, rfl⟩

-----------------------------------------------------------------------------------------
-- Sounds that were split
-----------------------------------------------------------------------------------------

/-- A reference leads to a text asset that holds a piece of a sound, masked, and that is read
within any number of bytes that the piece fits in.
-/
def Holds (studio : Studio) (fileIndex : Nat) (r : ObjectReference) (piece : List UInt8) : Prop :=
  ∃ resolved object,
    studio.resolveObjectReference fileIndex r = .ok (some resolved)
    ∧ studio.object resolved.fileIndex resolved.pathId = some object
    ∧ object.classId = 49
    ∧ ∀ limit, piece.length ≤ limit → object.readTextBytes limit = .ok (masked piece)

/-- A sheet and the text assets of a sound that was split into pieces. -/
structure Split (studio : Studio) (object : Sheet) (name : String) (pieces : List (List UInt8))
    : Prop where
  sheet : object.classId = 114
  refers : ∃ json tree refs,
    object.readTypeTreeJson (1 <<< 20) = .ok json ∧ studio.fromSlice json = .ok tree
    ∧ Refers tree name refs ∧ List.Forall₂ (Holds studio object.fileIndex) refs pieces
  present : ∀ piece ∈ pieces, piece ≠ []
  header : Header pieces.flatten
  room : ∀ held more, studio.reserves held more = true

/-- The pieces of a sound are read where they fit, by induction on the pieces. -/
theorem holds_chunks {studio : Studio} {fileIndex limit held : Nat}
    {refs : List ObjectReference} {pieces : List (List UInt8)}
    (holds : List.Forall₂ (Holds studio fileIndex) refs pieces)
    (present : ∀ piece ∈ pieces, piece ≠ [])
    (room : ∀ held more, studio.reserves held more = true)
    (fits : held + pieces.flatten.length ≤ min limit max64)
    : Chunks studio fileIndex limit held refs (pieces.map masked) := by
  induction holds generalizing held with
  | nil => exact .nil held
  | @cons r piece refs pieces here rest ih =>
      obtain ⟨resolved, object, resolves, found, isText, read⟩ := here
      rw [List.flatten_cons, List.length_append] at fits
      obtain ⟨some, others⟩ := List.forall_mem_cons.mp present
      have adds : Adds studio fileIndex limit held r (masked piece) :=
        {
          read := ⟨resolved, object, resolves, found, isText, read _ (by omega)⟩
          present := fun none => some (List.map_eq_nil_iff.mp none)
          fits := by
            rw [masked_length]
            omega
          reserved := room held _
        }
      refine .cons adds (ih others ?_)
      rw [masked_length]
      omega

/-- A sound that was split is read back, within any limit that it fits in. -/
theorem Split.read {studio : Studio} {object : Sheet} {name : String}
    {pieces : List (List UInt8)} {limit : Nat} (split : Split studio object name pieces)
    (fits : pieces.flatten.length ≤ min limit max64)
    : SplitAcb.read studio object limit = .ok (pieces.flatten, name, pieces.length) := by
  obtain ⟨json, tree, refs, shown, parsed, refers, holds⟩ := split.refers
  have fits' : 0 + pieces.flatten.length ≤ min limit max64 := by omega
  have chunks := holds_chunks holds split.present split.room fits'
  have whole : pieces.flatten = masked (pieces.map masked).flatten := by
    rw [flatten_masked, masked_masked]
  exact read_ok.mpr ⟨split.sheet, json, tree, refs, _, shown, parsed, refers,
    holds.length_eq.symm, chunks, whole, split.header⟩

-----------------------------------------------------------------------------------------
-- Conversions
-----------------------------------------------------------------------------------------

/-- A preview of the sheet of a split sound, the one object that its target resolves to. -/
structure OfSheet (tools : Run.Tools) (job : Job) (found : Target) : Prop where
  preview : job.archive = false
  sound : job.target.resourceType = Planning.splitAcbType
  given : job.inputs ≠ []
  leads : ∃ regions,
    opening tools.toStore job = .ok (.regions regions)
    ∧ tools.targets regions job.target.internal = .ok [.ok found]

/-- A preview of a file. -/
structure OfFile (tools : Run.Tools) (job : Job) (content : List UInt8) : Prop where
  preview : job.archive = false
  leads : ∃ path, opening tools.toStore job = .ok (.raw path) ∧ tools.read path = .ok content

/-- (Marks source parts whole) holds when a run yields what another one yields, with the source of a
split sound recorded for every artifact, and both leave the same files.
-/
structure Marks (source : Export.SplitAcb) (parts whole : Attempt Stage Failure (List Artifact))
    : Prop where
  result : parts.result = whole.result.map (List.map (assembled source))
  directory : parts.last.directory = whole.last.directory

section Previews

variable {sha256 : List UInt8 → List UInt8} {tools : Run.Tools} {job job' : Job}

/-- What is made of a sound depends on the limits and the key of the job only. -/
theorem cri_congr (limits : job'.limits = job.limits) (key : job'.target.key = job.target.key)
    (content : List UInt8)
    : Run.cri sha256 tools job' content = Run.cri sha256 tools job content := by
  have waves : Run.wave sha256 tools job' = Run.wave sha256 tools job := by
    funext w i
    rw [Run.wave, Run.wave, limits]
  have bank : bankWaves tools job' content = bankWaves tools job content := by
    rw [bankWaves, bankWaves, limits]
  have mask : videoMask sha256 tools job' content = videoMask sha256 tools job content := by
    rw [videoMask, videoMask, limits, key]
  have video : usmVideo sha256 tools job' content = usmVideo sha256 tools job content := by
    rw [usmVideo, usmVideo, limits, key, mask]
  rw [Run.cri, Run.cri, waves, bank, video]

/-- What a preview goes on to in its new directory. -/
theorem run_preview (preview : job.archive = false) (given : job.inputs ≠ [])
    : Run.run sha256 tools job
      = Program.lift (tools.validate job.limits) >>= fun _ => Program.lift tools.createDir
        >>= fun _ => Run.preview sha256 tools job := by
  have some : job.inputs.isEmpty = false := List.isEmpty_eq_false_iff.mpr given
  have passes : require (!job.inputs.isEmpty || (job.archive && job.fontReference.isSome))
      "empty worker inputs" = Program.lift (.ok ()) := by
    rw [some]
    rfl
  have branch : ¬job.archive = true := Bool.not_eq_true _ ▸ preview
  rw [Run.run, passes, if_neg branch]
  refine congrArg _ (funext fun _ => ?_)
  exact Program.lift_ok_bind _ _

/-- The preview of a file converts it. -/
theorem OfFile.converts {content : List UInt8} (file : OfFile tools job content)
    : Run.previewObjects sha256 tools job
      = Run.cri sha256 tools job content >>= fun _ => pure 0 := by
  obtain ⟨path, opened, read⟩ := file.leads
  rw [Run.previewObjects, opened, Program.lift_ok_bind]
  dsimp only
  rw [read, Program.lift_ok_bind]

/-- The file of a preview is among its inputs. -/
theorem OfFile.given {content : List UInt8} (file : OfFile tools job content)
    : job.inputs ≠ [] := by
  obtain ⟨path, opened, -⟩ := file.leads
  rintro empty
  obtain ⟨input, member, -⟩ | ⟨_, _, other, -⟩ := opening_routed file.preview opened
  · rw [empty] at member
    cases member
  · cases other

/-- The preview of a sheet converts the sound that it was made of, and marks what it made. -/
theorem OfSheet.converts {found : Target} {content : List UInt8} {name : String} {chunks : Nat}
    (sheet : OfSheet tools job found)
    (loaded : found.split job.limits.expandedBytes = .ok (content, name, chunks))
    : Run.previewObjects sha256 tools job
      = files >>= fun before => Run.cri sha256 tools job content >>= fun _ =>
        Program.change (Stage.assemble before.length (splitSource sha256 content name chunks))
        >>= fun _ => pure 0 := by
  obtain ⟨regions, opened, leads⟩ := sheet.leads
  have target : Run.target sha256 tools job 0 (.ok found)
      = files >>= fun before => Run.cri sha256 tools job content >>= fun _ =>
        Program.change (Stage.assemble before.length (splitSource sha256 content name chunks))
        >>= fun _ => pure 0 := by
    rw [Run.target, Program.lift_ok_bind, if_pos sheet.sound, loaded, Program.lift_ok_bind]
  rw [Run.previewObjects, opened, Program.lift_ok_bind]
  dsimp only
  rw [objects, leads, Program.lift_ok_bind, ← target]
  exact (Program.lift_ok_bind () _).trans (Program.bind_return _)

/-- A preview ends with the artifacts of its objects, if there are some or empty atlases. -/
theorem preview_returned {emptyAtlases : Nat} {stage : Stage}
    (returned : (Run.previewObjects sha256 tools job stage).result = .ok emptyAtlases)
    : (Run.preview sha256 tools job stage).last
        = (Run.previewObjects sha256 tools job stage).last
      ∧ (Run.preview sha256 tools job stage).result
        = (ensure
            (!(Run.previewObjects sha256 tools job stage).last.out.files.isEmpty
              || 0 < emptyAtlases)
            (.error "no supported outputs")).map
          fun _ => (Run.previewObjects sha256 tools job stage).last.out.files := by
  rw [Run.preview, Program.bind_returned returned]
  generalize (Run.previewObjects sha256 tools job stage).last = after
  rw [@Program.bind_returned _ _ _ _ files _ _ _ rfl]
  dsimp only [files, Program.observe]
  cases some : ensure (!after.out.files.isEmpty || 0 < emptyAtlases)
      (Failure.error "no supported outputs") with
  | error failure =>
      rw [@Program.bind_failed _ _ _ _ (require _ _) _ _ _ some]
      exact ⟨rfl, rfl⟩
  | ok done =>
      rw [@Program.bind_returned _ _ _ _ (require _ _) _ _ _ some]
      exact ⟨rfl, rfl⟩

/-- A preview that fails at its objects. -/
theorem preview_failed {failure : Failure} {stage : Stage}
    (failed : (Run.previewObjects sha256 tools job stage).result = .error failure)
    : (Run.preview sha256 tools job stage).last
        = (Run.previewObjects sha256 tools job stage).last
      ∧ (Run.preview sha256 tools job stage).result = .error failure := by
  rw [Run.preview, Program.bind_failed failed]
  exact ⟨rfl, rfl⟩

/-- The preview of a sheet yields what the preview of the sound itself yields, marked, by cases on
how the conversion of the sound ends.
-/
theorem previews_mark {found : Target} {content : List UInt8} {name : String} {chunks : Nat}
    (sheet : OfSheet tools job found)
    (loaded : found.split job.limits.expandedBytes = .ok (content, name, chunks))
    (file : OfFile tools job' content) (limits : job'.limits = job.limits)
    (key : job'.target.key = job.target.key)
    : Marks (splitSource sha256 content name chunks) (Run.preview sha256 tools job Stage.empty)
        (Run.preview sha256 tools job' Stage.empty) := by
  have whole := congrFun (@OfFile.converts sha256 _ _ _ file) Stage.empty
  have parts := congrFun (@OfSheet.converts sha256 _ _ _ _ _ _ sheet loaded) Stage.empty
  rw [cri_congr limits key] at whole
  rw [@Program.bind_returned _ _ _ _ files _ _ _ rfl] at parts
  dsimp only [files, Program.observe] at parts
  cases converted : (Run.cri sha256 tools job content Stage.empty).result with
  | error failure =>
      rw [Program.bind_failed converted] at whole parts
      obtain ⟨last, result⟩ := preview_failed (congrArg Attempt.result whole)
      obtain ⟨last', result'⟩ := preview_failed (congrArg Attempt.result parts)
      constructor
      case result => rw [result, result']; rfl
      case directory => rw [last, last', whole, parts]
  | ok done =>
      rw [Program.bind_returned converted] at whole parts
      obtain ⟨last, result⟩ := preview_returned (congrArg Attempt.result whole)
      obtain ⟨last', result'⟩ := preview_returned (congrArg Attempt.result parts)
      have here : (Run.previewObjects sha256 tools job' Stage.empty).last
          = (Run.cri sha256 tools job content Stage.empty).last := congrArg Attempt.last whole
      have there : (Run.previewObjects sha256 tools job Stage.empty).last
          = (Run.cri sha256 tools job content Stage.empty).last.assemble 0
            (splitSource sha256 content name chunks) := congrArg Attempt.last parts
      rw [here] at last result
      rw [there] at last' result'
      constructor
      case result =>
        rw [result, result', Stage.assemble, List.take_zero, List.drop_zero, List.nil_append,
          List.isEmpty_map]
        cases ensure _ _ <;> rfl
      case directory =>
        rw [last, last']
        rfl

/-- A worker run for a sheet yields what the run for the sound itself yields, marked. -/
theorem runs_mark {found : Target} {content : List UInt8} {name : String} {chunks : Nat}
    (sheet : OfSheet tools job found)
    (loaded : found.split job.limits.expandedBytes = .ok (content, name, chunks))
    (file : OfFile tools job' content) (limits : job'.limits = job.limits)
    (key : job'.target.key = job.target.key)
    : Marks (splitSource sha256 content name chunks) (Run.run sha256 tools job Stage.empty)
        (Run.run sha256 tools job' Stage.empty) := by
  rw [run_preview sheet.preview sheet.given, run_preview file.preview file.given, limits]
  cases validated : tools.validate job.limits with
  | error failure =>
      rw [Program.bind_failed rfl, Program.bind_failed rfl]
      exact ⟨rfl, rfl⟩
  | ok done =>
  rw [Program.lift_ok_bind, Program.lift_ok_bind]
  cases created : tools.createDir with
  | error failure =>
      rw [Program.bind_failed rfl, Program.bind_failed rfl]
      exact ⟨rfl, rfl⟩
  | ok done =>
  rw [Program.lift_ok_bind, Program.lift_ok_bind]
  exact previews_mark sheet loaded file limits key

end Previews

/-- A sound that was split is put together again, and the worker makes of it what it makes of the
sound itself, however it was split: the same files, or the same failure. The source is recorded for
each of the artifacts.
-/
theorem split_converted (sha256 : List UInt8 → List UInt8) {tools : Run.Tools} {job job' : Job}
    {studio : Studio} {object : Sheet} {found : Target} {name : String}
    {pieces : List (List UInt8)} (sheet : OfSheet tools job found)
    (loads : found.split = SplitAcb.read studio object) (split : Split studio object name pieces)
    (fits : pieces.flatten.length ≤ min job.limits.expandedBytes max64)
    (file : OfFile tools job' pieces.flatten) (limits : job'.limits = job.limits)
    (key : job'.target.key = job.target.key)
    : SplitAcb.read studio object job.limits.expandedBytes
        = .ok (pieces.flatten, name, pieces.length)
      ∧ Marks (splitSource sha256 pieces.flatten name pieces.length)
          (Run.run sha256 tools job Stage.empty) (Run.run sha256 tools job' Stage.empty) := by
  have read := split.read fits
  exact ⟨read, runs_mark sheet (loads ▸ read) file limits key⟩

/-- A text asset, which is read within any number of bytes that its content fits in. -/
def textAsset (pathId : Int) (content : List UInt8) : Object :=
  {
    classId := 49
    name := none
    sourcePath := "bundle"
    pathId
    readTextBytes := fun limit =>
      if content.length ≤ limit then .ok content else .error (.error "text limit")
    decodeTexture := fun _ => .error (.error "no texture")
    decodeSprite := fun _ => .error (.error "no sprite")
  }

/-- The smallest sound, in two pieces. -/
def songPieces : List (List UInt8) :=
  [[0x40, 0x55, 0x54], [0x46, 0, 0, 0, 24] ++ List.replicate 24 0]

/-- The tree of its sheet. -/
def songTree : Tree :=
  .object
    [
      ("_cueSheetName", .text "song"),
      ("_chunks", .array
        [
          .object [("m_FileID", .number (some 0)), ("m_PathID", .number (some 20))],
          .object [("m_FileID", .number (some 2)), ("m_PathID", .number (some (-9)))]
        ])
    ]

/-- The text assets that it refers to. -/
def songStudio : Studio :=
  {
    fromSlice := fun _ => .ok songTree
    resolveObjectReference := fun _ r =>
      .ok (some { fileIndex := r.fileId.toNat, pathId := r.pathId })
    object := fun _ pathId => songPieces[if pathId = 20 then 0 else 1]?.map fun piece =>
      textAsset pathId (masked piece)
    reserves := fun _ _ => true
  }

/-- The sheet. -/
def songSheet : Sheet :=
  { classId := 114, fileIndex := 0, readTypeTreeJson := fun _ => .ok [] }

/-- The sheet, as the target of a job. -/
def songTarget : Target :=
  {
    toObject := { textAsset 1 [] with classId := 114 }
    split := read songStudio songSheet
    wrapped := fun _ => .error (.error "no wrapper")
    atlas := .error (.error "no atlas")
  }

/-- The location of the sheet. -/
def songLocation : Catalogs.Location :=
  {
    Run.fontJob.target with
    key := "song"
    internal := "song.asset"
    resourceType := Planning.splitAcbType
  }

/-- The preview of the sheet in its bundle. -/
def songJob : Job :=
  {
    Run.fontJob with
    target := songLocation
    inputs := [{ location := songLocation, path := "sheet.bundle" }]
    archive := false
    fontReference := none
  }

/-- The preview of the sound as a file of its own. -/
def songFileJob : Job :=
  let location := { songLocation with provider := Planning.criProvider, resourceType := "Song" }
  { songJob with target := location, inputs := [{ location, path := "song.acb" }] }

/-- The one waveform of the sound. -/
def songWave : Wave :=
  { data := [9, 8, 7], extension := "hca", subkey := 0, cues := [{ name := "song", id := 1 }] }

/-- Tools that convert it. -/
def songTools : Run.Tools :=
  {
    Run.idleTools with
    read := fun path => .ok (if path = "song.acb" then songPieces.flatten else [1, 2, 3])
    bundleCrc := fun _ _ => .ok 0
    bankRows := fun _ => .ok 1
    bankTracks := fun _ =>
      .ok [{ cueId := 1, name := "song", wavId := 0, isStream := false, streamAwbId := 0 }]
    bankAwb := fun _ =>
      some (awbMark ++ [2, 4, 2, 0, 1, 0, 0, 0, 32, 0, 0, 0] ++ [0, 0]
        ++ [26, 0, 0, 0, 64, 0, 0, 0] ++ List.replicate 38 0)
    extract := fun _ => .ok [songWave]
    decode := fun _ _ => .ok ()
    encode := fun _ w _ => { content := some w.data.reverse, result := .ok () }
    targets := fun _ _ => .ok [.ok songTarget]
  }

/-- The smallest sound was split. -/
theorem song_split : Split songStudio songSheet "song" songPieces where
  sheet := rfl
  refers := by
    refine ⟨[], songTree, [⟨0, 20⟩, ⟨2, -9⟩], rfl, rfl, references_ok.mp rfl,
      .cons ?_ (.cons ?_ .nil)⟩
    · exact ⟨⟨0, 20⟩, _, rfl, rfl, rfl, fun limit fits => if_pos fits⟩
    · exact ⟨⟨2, -9⟩, _, rfl, rfl, rfl, fun limit fits => if_pos fits⟩
  present := by decide
  header := by
    have accepted : validate songPieces.flatten = .ok () := rfl
    exact validate_ok.mp accepted
  room := fun _ _ => rfl

/-- The two pieces are converted like the whole, and marked. -/
theorem split_converted_song
    : ∃ whole,
        (Run.run List.reverse songTools songFileJob Stage.empty).result = .ok [whole]
        ∧ whole.bytes = 3
        ∧ (Run.run List.reverse songTools songJob Stage.empty).result
          = .ok [assembled (splitSource List.reverse songPieces.flatten "song" 2) whole] := by
  have sheet : OfSheet songTools songJob songTarget :=
    {
      preview := rfl
      sound := rfl
      given := List.cons_ne_nil _ _
      leads := by
        have opens : (openInputs songTools.toStore songJob.limits songJob.inputs).isOk = true := by
          decide +kernel
        obtain ⟨regions, opened⟩ := ok_of_isOk opens
        refine ⟨regions, ?_, rfl⟩
        rw [opening, if_neg (by decide +kernel), opened]
        rfl
    }
  have file : OfFile songTools songFileJob songPieces.flatten :=
    { preview := rfl, leads := ⟨"song.acb", by decide +kernel, by decide +kernel⟩ }
  have converted := split_converted List.reverse sheet rfl song_split (by decide) file rfl rfl
  have computed : (Run.run List.reverse songTools songFileJob Stage.empty).result.map
      (List.map Artifact.bytes) = .ok [3] := by decide +kernel
  cases ran : (Run.run List.reverse songTools songFileJob Stage.empty).result with
  | error failure =>
      rw [ran] at computed
      cases computed
  | ok outputs =>
      have marked := converted.2.result
      rw [ran] at computed marked
      obtain ⟨whole, rfl, size⟩ := List.map_eq_singleton_iff.mp (Except.ok.inj computed)
      exact ⟨whole, rfl, size, marked⟩

end MoenotesAssets.Worker.SplitAcb
