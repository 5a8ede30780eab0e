import MoenotesAssets.ObjectTree.Model

/-! The copy loop of `tree::export_profile` and the whole run, as programs over the tree. A
run that dies, or that fails at an input or output operation, leaves a tree that it passed.
-/

namespace MoenotesAssets.ObjectTree
open Foundation Export

-----------------------------------------------------------------------------------------
-- Single changes of a tree
-----------------------------------------------------------------------------------------

/-- A node that is created. -/
def Tree.create (tree : Tree) (path : Path) (node : Node) : Tree :=
  { tree with disk := tree.disk.create path node }

/-- A new temporary file. -/
def Tree.openTemporary (tree : Tree) : Tree :=
  { tree with temporaries := [] :: tree.temporaries }

/-- One more byte in the temporary file of the running copy. -/
def Tree.writeTemporary (tree : Tree) (byte : UInt8) : Tree :=
  match tree.temporaries with
  | written :: others => { tree with temporaries := (written ++ [byte]) :: others }
  | [] => tree

/-- `persist_noclobber`: the temporary file becomes a file of the tree. -/
def Tree.persistTemporary (tree : Tree) (path : Path) : Tree :=
  match tree.temporaries with
  | written :: others =>
      { tree with disk := tree.disk.create path (.file written), temporaries := others }
  | [] => tree

/-- `atomic_json` of the index. -/
def Tree.writeIndex (tree : Tree) (index : Index) : Tree :=
  { tree with index := some index }

/-- `atomic_json` of the upload plan. -/
def Tree.writeUploadPlan (tree : Tree) (index : Index) : Tree :=
  { tree with uploadPlan := some index }

-----------------------------------------------------------------------------------------
-- The copy loop
-----------------------------------------------------------------------------------------

/-- One directory of `create_dir_all`. -/
def makeDirectory (path : Path) : Program Tree String Unit := do
  let found ← Program.observe fun tree => .ok (tree.disk.node path)
  match found with
  | some .directory => pure ()
  | some _ => Program.observe fun _ => .error "File exists"
  | none =>
      Program.observe fun tree =>
        ensure (tree.disk.Vacant path) "No such file or directory"
      Program.change fun tree => tree.create path .directory

/-- `create_dir_all` below a directory. -/
def createDirAll (above : Path) : List String → Program Tree String Unit
  | [] => pure ()
  | name :: rest => do
      makeDirectory (above ++ [name])
      createDirAll (above ++ [name]) rest

/-- What a source file holds. -/
def readSource (data : Disk) (path : Path) : Except String (List UInt8) :=
  match data.node path with
  | some (.file content) => .ok content
  | _ => .error "No such file or directory"

/-- `hard_link` -/
def hardLink (data : Disk) (file : Planned) : Program Tree String Unit := do
  let content ← Program.observe fun _ => readSource data file.source
  Program.observe fun tree =>
    ensure (tree.disk.Vacant file.target) "hardlink failed; use copy across filesystems"
  Program.change fun tree => tree.create file.target (.file content)

section Sha

variable (sha256 : List UInt8 → List UInt8)

/-- `verify` of the temporary file. -/
def verifyTemporary (tree : Tree) (bytes : Nat) (sha : String) : Except String Unit :=
  match tree.temporaries with
  | written :: _ => do
      ensure (written.length = bytes) "object file/size mismatch"
      ensure (digest sha256 written = sha) "object SHA256 mismatch"
  | [] => .error "object file/size mismatch"

/-- A copy through a temporary file next to the destination. -/
def copyFile (data : Disk) (file : Planned) : Program Tree String Unit := do
  Program.observe fun tree =>
    ensure (tree.disk.node file.target.dropLast = some .directory) "No such file or directory"
  Program.change Tree.openTemporary
  let content ← Program.observe fun _ => readSource data file.source
  content.foldlM (fun _ byte => Program.change fun tree => tree.writeTemporary byte) ()
  Program.observe fun tree => verifyTemporary sha256 tree file.object.bytes file.object.sha256
  Program.observe fun tree => ensure (tree.disk.Vacant file.target) "File exists"
  Program.change fun tree => tree.persistTemporary file.target

/-- The file is placed at its destination unless something stands there. -/
def placeFile (job : Job) (file : Planned) : Program Tree String Unit := do
  let found ← Program.observe fun tree => .ok (tree.disk.node file.target).isSome
  if found then pure ()
  else if job.hardlink then hardLink job.data file
  else copyFile sha256 job.data file

/-- One round of the copy loop. -/
def copyObject (job : Job) (index : Index) (file : Planned) : Program Tree String Index := do
  createDirAll [] file.target.dropLast
  let _ ← Program.observe fun tree => safeDestination tree.disk file.object.objectKey
  placeFile sha256 job file
  Program.observe fun tree =>
    verify sha256 tree.disk file.target file.object.bytes file.object.sha256
  let index := index.push file.object
  Program.change fun tree => tree.writeIndex index
  return index

/-- `export_profile` on a tree that is locked. -/
def exportProfile (job : Job) : Program Tree String Index := do
  let (index, planned) ← Program.observe (plan sha256 job)
  let index ← planned.foldlM (copyObject sha256 job) index
  Program.change fun tree => tree.writeIndex index
  Program.change fun tree => tree.writeUploadPlan index
  return index

end Sha

end MoenotesAssets.ObjectTree
