import MoenotesAssets.ObjectTree.Names
import MoenotesAssets.Export.Manifest
import MoenotesAssets.Foundation.Disk
import MoenotesAssets.Foundation.Interruptible
import MoenotesAssets.Foundation.Table
import Mathlib.Data.List.Sort

/-! `tree::export_profile`: the planning of the objects of a tree, and the loop that copies
them and rewrites the index.
-/

namespace MoenotesAssets.ObjectTree
open Foundation Export

-----------------------------------------------------------------------------------------
-- Trees and jobs
-----------------------------------------------------------------------------------------

/-- `tree::Object` -/
structure Object where
  objectKey : String
  assetKey : String
  artifactId : String
  label : String
  contentType : String
  bytes : Nat
  sha256 : String
  snapshot : String
  profile : String
  role : String
  exportId : String
deriving DecidableEq

/-- A value of `empty_exports`: a member is missing when it is no text. -/
structure EmptyExport where
  assetKey : Option String
  exportId : Option String
  snapshot : Option String
  profile : Option String
  status : Option String
deriving DecidableEq

/-- `tree::Index` -/
structure Index where
  schema : String
  naming : String
  objects : List Object
  emptyExports : List EmptyExport
deriving DecidableEq

/-- The index of a tree without one. -/
def Index.new : Index where
  schema := "moenotes-assets-object-index/v2"
  naming := "key-stable-artifact-v2"
  objects := []
  emptyExports := []

/-- The objects of an index in the order of their keys. -/
def sortObjects (objects : List Object) : List Object :=
  objects.insertionSort fun left right => left.objectKey ≤ right.objectKey

/-- An object pushed to the index, which is then sorted. -/
def Index.push (index : Index) (object : Object) : Index :=
  { index with objects := sortObjects (index.objects ++ [object]) }

/-- A destination: its directories and files, `_meta/manifest.json`,
`_meta/upload-plan.json`, and what unfinished copies hold. Temporary files have names of
their own, which no object has.
-/
structure Tree where
  disk : Disk
  index : Option Index
  uploadPlan : Option Index
  temporaries : List (List UInt8)

/-- An empty destination. -/
def Tree.empty : Tree where
  disk := .empty
  index := none
  uploadPlan := none
  temporaries := []

/-- What a call is given: the bodies of the table `exports` in the order of their ids, the
data directory, and the arguments.
-/
structure Job where
  manifests : List Manifest
  data : Disk
  snapshot : Option String
  hardlink : Bool
  profile : String

/-- The order in which manifests are planned. -/
def Manifest.before (left right : Manifest) : Prop :=
  left.key < right.key ∨ left.key = right.key ∧ left.id ≤ right.id

instance (left right : Manifest) : Decidable (Manifest.before left right) :=
  inferInstanceAs (Decidable (_ ∨ _))

/-- The manifests that a job exports. -/
def Job.selected (job : Job) : List Manifest :=
  (job.manifests.filter fun m =>
    (job.snapshot.all fun snapshot => m.snapshot = snapshot) && m.profile = job.profile)
    |>.insertionSort Manifest.before

/-- A file that is to be copied. -/
structure Planned where
  source : Path
  target : Path
  object : Object

-----------------------------------------------------------------------------------------
-- Planning
-----------------------------------------------------------------------------------------

section Sha

variable (sha256 : List UInt8 → List UInt8)

/-- `verify` -/
def verify (disk : Disk) (path : Path) (bytes : Nat) (sha : String) : Except String Unit :=
  match disk.node path with
  | some (.file content) => do
      ensure (content.length = bytes) "object file/size mismatch"
      ensure (digest sha256 content = sha) "object SHA256 mismatch"
  | _ => .error "object file/size mismatch"

/-- `safe_destination`: none of the parents is a symlink either. -/
def safeDestination (disk : Disk) (relative : String) : Except String Path := do
  ensure (isSafePath relative) "unsafe tree path"
  let path := splitPath relative
  ensure (path.inits.all fun above => disk.node above ≠ some .symlink) "tree symlink refused"
  return path

/-- The key by which objects are kept apart. -/
def Object.folded (object : Object) : String := toAsciiLowercase object.objectKey

/-- The entries of `existing` for the objects of an index. -/
def existingOf (objects : List Object) : Std.TreeMap String Object :=
  Table.insertAll ∅ (objects.map fun object => (object.folded, object))

/-- The export that an index has for each asset key, with every file verified. -/
def logicalOf (disk : Disk) (index : Index) : Except String (Std.TreeMap String String) := do
  let logical ← index.objects.foldlM (fun logical old => do
    let path ← safeDestination disk old.objectKey
    verify sha256 disk path old.bytes old.sha256
    return logical.insert old.assetKey old.exportId) (∅ : Std.TreeMap String String)
  index.emptyExports.foldlM (fun logical empty => do
    let key ← context empty.assetKey "empty export key"
    let id ← context empty.exportId "empty export ID"
    return logical.insert key id) logical

/-- Where the walk along the parts of a key stands. -/
structure Walk where
  encoded : String
  original : String
  directories : Std.TreeMap String String

/-- One part of a key: its directory belongs to one original path only. -/
def Walk.next (walk : Walk) (part : String) : Except String Walk := do
  let slash := if walk.encoded = "" then "" else "/"
  let encoded := walk.encoded ++ slash ++ component sha256 part
  let original := walk.original ++ slash ++ part
  let directories ←
    Table.insertAgreeing walk.directories (toAsciiLowercase encoded) original
      "asset key directory case/encoding collision"
  return { encoded, original, directories }

/-- The directories of a key. -/
def claimDirectories (directories : Std.TreeMap String String) (key : String)
    : Except String (Std.TreeMap String String) := do
  let walk ←
    (splitPath key).foldlM (Walk.next sha256) { encoded := "", original := "", directories }
  return walk.directories

/-- The name of the file of an artifact in the directory of its key. -/
def objectName (base ext role stable label : String) : String :=
  if role = "alpha-mask" then base ++ ".alpha.mkv"
  else if role = "color" ∨ role = "video" then base ++ "." ++ ext
  else
    component sha256 label ++ "~" ++ String.ofList (shortDigest sha256 stable) ++ "." ++ ext

/-- The encoded parts of an asset key. -/
def encodedParts (key : String) : List String := (splitPath key).map (component sha256)

/-- The object of a file of a manifest. -/
def describe (m : Manifest) (f : PublishedFile) : Except String Object := do
  let ext ← context (extension f.artifact.name) "artifact extension"
  ensure (ext.toList.all isAsciiAlphanumeric && ext.utf8ByteSize ≤ 12)
    "unsafe artifact extension"
  let stable := f.artifact.stableId.getD f.id
  let role := f.artifact.role.getD "asset"
  let parts := encodedParts sha256 m.key
  let base ← context parts.getLast? "empty key"
  let name := objectName sha256 base ext role stable f.artifact.label
  return {
    objectKey := joinPath parts ++ "/" ++ name
    assetKey := m.key
    artifactId := f.id
    label := f.artifact.label
    contentType := f.artifact.mediaType
    bytes := f.artifact.bytes
    sha256 := f.artifact.sha256
    snapshot := m.snapshot
    profile := m.profile
    role
    exportId := m.id
  }

/-- A file of a manifest with its object, its destination and its verified source. -/
def inspect (disk data : Disk) (m : Manifest) (f : PublishedFile) : Except String Planned := do
  let object ← describe sha256 m f
  let target ← safeDestination disk object.objectKey
  ensure (isExportId m.id && fileName f.artifact.name = some f.artifact.name)
    "unsafe source identity"
  let source ← safeDestination data ("exports/" ++ m.id ++ "/" ++ f.artifact.name)
  verify sha256 data source object.bytes object.sha256
  return { source, target, object }

/-- The objects known so far, and those that are to be copied. -/
structure Ledger where
  existing : Std.TreeMap String Object
  planned : List Planned

/-- A file is planned unless its object is known. -/
def Ledger.enlist (disk : Disk) (ledger : Ledger) (file : Planned) : Except String Ledger := do
  match ledger.existing[file.object.folded]? with
  | some old =>
      ensure (old = file.object) "tree path/case/content collision; explicit migration required"
      return ledger
  | none =>
      if (disk.node file.target).isSome then
        verify sha256 disk file.target file.object.bytes file.object.sha256
      return {
        existing := ledger.existing.insert file.object.folded file.object
        planned := ledger.planned ++ [file]
      }

/-- The empty export of a manifest. -/
def EmptyExport.of (m : Manifest) : EmptyExport where
  assetKey := some m.key
  exportId := some m.id
  snapshot := some m.snapshot
  profile := some m.profile
  status := some "empty"

/-- An empty manifest is recorded once. -/
def recordEmpty (emptyExports : List EmptyExport) (m : Manifest) : List EmptyExport :=
  if m.empty && !emptyExports.any (fun empty => empty.exportId = some m.id) then
    emptyExports ++ [EmptyExport.of m]
  else emptyExports

/-- What the loop over the manifests has built. -/
structure Planning where
  logical : Std.TreeMap String String
  emptyExports : List EmptyExport
  ledger : Ledger

/-- One manifest of the planning loop. -/
def planManifest (disk data : Disk) (planning : Planning) (m : Manifest)
    : Except String Planning := do
  let logical ←
    Table.insertAgreeing planning.logical m.key m.id
      "multiple exports for one key; choose snapshot and a fresh tree for migration"
  let emptyExports := recordEmpty planning.emptyExports m
  let parts := encodedParts sha256 m.key
  ensure (parts.head?.any fun part => toAsciiLowercase part ≠ "_meta")
    "reserved _meta asset key"
  let ledger ← m.files.foldlM (fun ledger f => do
    let file ← inspect sha256 disk data m f
    ledger.enlist sha256 disk file) planning.ledger
  return { logical, emptyExports, ledger }

/-- What is checked and planned before anything is written. -/
def plan (job : Job) (tree : Tree) : Except String (Index × List Planned) := do
  let index := tree.index.getD .new
  ensure (index.schema = Index.new.schema && index.naming = Index.new.naming)
    "tree naming migration required"
  let manifests := job.selected
  let existing := existingOf index.objects
  ensure (existing.size = index.objects.length) "tree case collision"
  let logical ← logicalOf sha256 tree.disk index
  let keys := manifests.map Manifest.key ++ index.objects.map Object.assetKey
  let _ ← keys.foldlM (claimDirectories sha256) ∅
  let planning ←
    manifests.foldlM (planManifest sha256 tree.disk job.data) {
      logical
      emptyExports := index.emptyExports
      ledger := { existing, planned := [] }
    }
  return ({ index with emptyExports := planning.emptyExports }, planning.ledger.planned)

end Sha

end MoenotesAssets.ObjectTree
