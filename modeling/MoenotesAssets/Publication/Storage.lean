import MoenotesAssets.Export.Manifest
import MoenotesAssets.Foundation.Fallible
import MoenotesAssets.Foundation.Table

/-! The two stores of a publication: directories of files that are synced or not, and the
tables `exports` and `files` of the database.
-/

namespace MoenotesAssets.Publication

open Foundation MoenotesAssets.Export

-----------------------------------------------------------------------------------------
-- Directories
-----------------------------------------------------------------------------------------

/-- What a name in a directory stands for: a regular file, whose content may not have
reached the disk yet, or anything else.
-/
inductive Entry where
  | file (content : List UInt8) (synced : Bool)
  | other
deriving DecidableEq

/-- `sync_all` on an open file. -/
def Entry.sync : Entry → Entry
  | .file content _ => .file content true
  | .other => .other

/-- A directory; `synced` tells that its names have reached the disk. -/
structure Directory where
  entries : Std.TreeMap String Entry
  synced : Bool

/-- The length of a regular file that is no symbolic link. -/
def Directory.fileLength (directory : Directory) (name : String) : Option Nat :=
  match directory.entries[name]? with
  | some (.file content _) => some content.length
  | _ => none

/-- Syncing one file. -/
def Directory.syncFile (directory : Directory) (name : String) : Directory :=
  { directory with entries := directory.entries.modify name Entry.sync }

/-- Writing one file. -/
def Directory.write (directory : Directory) (name : String) (content : List UInt8)
    : Directory :=
  { entries := directory.entries.insert name (.file content false), synced := false }

/-- Syncing the directory itself. -/
def Directory.sync (directory : Directory) : Directory :=
  { directory with synced := true }

/-- A file whose content and name a crash cannot take away. -/
def Directory.Stable (directory : Directory) (name : String) (content : List UInt8) : Prop :=
  directory.synced = true ∧ directory.entries[name]? = some (.file content true)

/-- A directory has all files of a manifest, of the recorded size and stable. -/
def Directory.Holds (directory : Directory) (manifest : Manifest) : Prop :=
  ∀ file ∈ manifest.files,
    ∃ content,
      directory.Stable file.artifact.name content ∧ content.length = file.artifact.bytes

/-- What a crash leaves of a directory: its stable files, next to anything. -/
def Directory.Keeps (earlier later : Directory) : Prop :=
  ∀ {name : String} {content : List UInt8},
    earlier.Stable name content → later.Stable name content

/-- A directory keeps its own files. -/
theorem Directory.Keeps.refl (directory : Directory) : directory.Keeps directory :=
  fun stable => stable

/-- Keeping files is transitive. -/
theorem Directory.Keeps.trans {first second third : Directory} (head : first.Keeps second)
    (tail : second.Keeps third)
    : first.Keeps third :=
  fun stable => tail (head stable)

/-- What is kept holds the same manifests. -/
theorem Directory.Holds.later {earlier later : Directory} {manifest : Manifest}
    (holds : earlier.Holds manifest) (keeps : earlier.Keeps later)
    : later.Holds manifest := by
  intro file member
  obtain ⟨content, stable, length⟩ := holds file member
  exact ⟨content, keeps stable, length⟩

-----------------------------------------------------------------------------------------
-- Sealing the output of a worker
-----------------------------------------------------------------------------------------

/-- What `export_one` is given of its resource: the export id and the manifest's texts. -/
structure Job where
  id : String
  snapshot : String
  key : String
deriving DecidableEq

/-- `worker::WorkerResult` -/
structure WorkerResult where
  files : List Artifact
  error : Option String
  empty : Bool

/-- `config.output_bytes`, `crypto::digest` on a text and `serde_json::to_vec_pretty`. -/
structure Settings where
  outputBytes : Nat
  digest : String → String
  encode : Manifest → List UInt8

/-- The loop of `export_one` over the files of a worker, with its running `total`. -/
def sealFiles (settings : Settings) (id : String)
    : List Artifact → Nat → Directory → Except String (Directory × List PublishedFile)
  | [], _, output => .ok (output, [])
  | artifact :: rest, total, output => do
      ensure (artifact.name.utf8ByteSize < 100 && isFileName artifact.name)
        "unsafe worker output name"
      ensure (output.fileLength artifact.name == some artifact.bytes) "invalid output file"
      ensure (total + artifact.bytes ≤ settings.outputBytes) "output budget"
      let synced := output.syncFile artifact.name
      let (sealed, files) ← sealFiles settings id rest (total + artifact.bytes) synced
      return (sealed, { artifact, id := settings.digest (id ++ ":" ++ artifact.name) } :: files)

/-- `export_one` from the worker's result to the synced output directory. -/
def sealOutput (settings : Settings) (job : Job) (result : WorkerResult) (output : Directory)
    : Except String (Directory × Manifest) :=
  match result.error with
  | some error => .error error
  | none => do
      ensure (!result.files.isEmpty || result.empty) "empty worker result"
      let (sealed, files) ← sealFiles settings job.id result.files 0 output
      let manifest : Manifest :=
        {
          id := job.id
          snapshot := job.snapshot
          key := job.key
          profile := workerProfile
          files
          empty := result.empty
        }
      let written := sealed.write "manifest.json" (settings.encode manifest)
      return ((written.syncFile "manifest.json").sync, manifest)

/-- A worker names its files by `Output::path`. -/
def WorkerResult.Named (result : WorkerResult) : Prop :=
  ∀ artifact ∈ result.files, ∃ index extension, artifact.name = outputName index extension

/-- A file of the recorded length. -/
theorem Directory.fileLength_some {directory : Directory} {name : String} {length : Nat}
    (found : directory.fileLength name = some length)
    : ∃ content synced,
        directory.entries[name]? = some (.file content synced) ∧ content.length = length := by
  rw [fileLength] at found
  split at found
  · rename_i content synced held
    exact ⟨content, synced, held, Option.some.inj found⟩
  · cases found

/-- Syncing a file leaves synced files as they are. -/
theorem Directory.syncFile_keeps {directory : Directory} {name other : String}
    {content : List UInt8} (held : directory.entries[other]? = some (.file content true))
    : (directory.syncFile name).entries[other]? = some (.file content true) := by
  by_cases same : other = name
  · subst same
    exact Table.modify_self _ Entry.sync held
  · exact (Table.modify_other _ Entry.sync same).trans held

/-- The loop keeps synced files and syncs the files it lists with their recorded size, by
induction on the files.
-/
theorem sealFiles_spec {settings : Settings} {id : String} {artifacts : List Artifact}
    {total : Nat} {output sealed : Directory} {files : List PublishedFile}
    (done : sealFiles settings id artifacts total output = .ok (sealed, files))
    : files.map PublishedFile.artifact = artifacts
      ∧ (∀ {name : String} {content : List UInt8},
          output.entries[name]? = some (.file content true)
          → sealed.entries[name]? = some (.file content true))
      ∧ ∀ file ∈ files,
          ∃ content,
            sealed.entries[file.artifact.name]? = some (.file content true)
            ∧ content.length = file.artifact.bytes := by
  induction artifacts generalizing total output files with
  | nil =>
      obtain ⟨rfl, rfl⟩ := Prod.mk.inj (Except.ok.inj done)
      exact ⟨rfl, fun held => held, by simp⟩
  | cons artifact rest ih =>
      simp only [sealFiles, bind_ok, pure_ok, ensure_ok, beq_iff_eq] at done
      obtain ⟨_, _, _, present, _, _, ⟨last, others⟩, step, returned⟩ := done
      obtain ⟨rfl, rfl⟩ := Prod.mk.inj returned
      obtain ⟨listed, kept, sealedFiles⟩ := ih step
      obtain ⟨content, synced, held, length⟩ := Directory.fileLength_some present
      refine ⟨by simp [listed], fun held => kept (Directory.syncFile_keeps held), ?_⟩
      intro file member
      rcases List.mem_cons.mp member with rfl | later
      · exact ⟨content, kept (Table.modify_self _ Entry.sync held), length⟩
      · exact sealedFiles file later

/-- The ids of sealed files. -/
theorem sealFiles_ids {settings : Settings} {id : String} {artifacts : List Artifact}
    {total : Nat} {output sealed : Directory} {files : List PublishedFile}
    (done : sealFiles settings id artifacts total output = .ok (sealed, files))
    : files.map PublishedFile.id
      = artifacts.map fun artifact => settings.digest (id ++ ":" ++ artifact.name) := by
  induction artifacts generalizing total output files with
  | nil =>
      obtain ⟨rfl, rfl⟩ := Prod.mk.inj (Except.ok.inj done)
      rfl
  | cons artifact rest ih =>
      simp only [sealFiles, bind_ok, pure_ok, ensure_ok] at done
      obtain ⟨_, _, _, _, _, _, ⟨last, others⟩, step, returned⟩ := done
      obtain ⟨rfl, rfl⟩ := Prod.mk.inj returned
      rw [List.map_cons, List.map_cons, ih step]

/-- A sealed manifest has the export id and the files of the worker under their ids. -/
theorem sealOutput_ids {settings : Settings} {job : Job} {result : WorkerResult}
    {output sealed : Directory} {manifest : Manifest}
    (done : sealOutput settings job result output = .ok (sealed, manifest))
    : manifest.id = job.id
      ∧ manifest.files.map PublishedFile.artifact = result.files
      ∧ manifest.files.map PublishedFile.id
        = result.files.map fun artifact => settings.digest (job.id ++ ":" ++ artifact.name) := by
  rw [sealOutput] at done
  split at done
  · cases done
  simp only [bind_ok, pure_ok, ensure_ok] at done
  obtain ⟨_, _, ⟨last, files⟩, step, returned⟩ := done
  obtain ⟨rfl, rfl⟩ := Prod.mk.inj returned
  exact ⟨rfl, (sealFiles_spec step).1, sealFiles_ids step⟩

/-- A sealed output holds its manifest, which carries the export id. -/
theorem sealOutput_spec {settings : Settings} {job : Job} {result : WorkerResult}
    {output sealed : Directory} {manifest : Manifest} (named : result.Named)
    (done : sealOutput settings job result output = .ok (sealed, manifest))
    : manifest.id = job.id ∧ sealed.Holds manifest := by
  rw [sealOutput] at done
  split at done
  · cases done
  simp only [bind_ok, pure_ok, ensure_ok] at done
  obtain ⟨_, _, ⟨last, files⟩, step, returned⟩ := done
  obtain ⟨rfl, rfl⟩ := Prod.mk.inj returned
  obtain ⟨listed, _, sealedFiles⟩ := sealFiles_spec step
  refine ⟨rfl, fun file member => ?_⟩
  obtain ⟨content, held, length⟩ := sealedFiles file member
  have worked : file.artifact ∈ result.files := listed ▸ List.mem_map_of_mem member
  obtain ⟨index, extension, name⟩ := named _ worked
  -- the manifest is written next to the artifacts, never over one
  have apart : file.artifact.name ≠ "manifest.json" := by
    rw [name]
    exact outputName_ne_manifest index extension
  refine ⟨content, ⟨rfl, ?_⟩, length⟩
  exact Directory.syncFile_keeps ((Table.insert_other _ _ apart).trans held)

-----------------------------------------------------------------------------------------
-- The database
-----------------------------------------------------------------------------------------

/-- A row of `files`, without its primary key. -/
structure FileRow where
  exportId : String
  name : String
  mime : String
  hash : String
deriving DecidableEq

/-- The tables `exports`, whose bodies are manifests, and `files`. -/
structure Index where
  exports : Std.TreeMap String Manifest
  files : Std.TreeMap String FileRow

/-- The row of a published file. -/
def fileRow (exportId : String) (file : PublishedFile) : FileRow :=
  {
    exportId
    name := file.artifact.name
    mime := file.artifact.mediaType
    hash := file.artifact.sha256
  }

/-- The inserts into `files` of one transaction; one that violates a primary key fails. -/
def insertFiles (exportId : String) (table : Std.TreeMap String FileRow)
    (files : List PublishedFile)
    : Option (Std.TreeMap String FileRow) :=
  files.foldlM (fun rows file => Table.insertNew rows file.id (fileRow exportId file)) table

/-- The transaction of `export_one`. -/
def Index.publish (index : Index) (manifest : Manifest) : Option Index := do
  let exports ← Table.insertNew index.exports manifest.id manifest
  let files ← insertFiles manifest.id index.files manifest.files
  return { exports, files }

/-- The inserted rows belong to the export, by induction on the files. -/
theorem insertFiles_cases {exportId : String} {table after : Std.TreeMap String FileRow}
    {files : List PublishedFile} {id : String} {row : FileRow}
    (inserted : insertFiles exportId table files = some after) (held : after[id]? = some row)
    : row.exportId = exportId ∨ table[id]? = some row := by
  induction files generalizing table with
  | nil =>
      obtain rfl := Option.some.inj inserted
      exact Or.inr held
  | cons file rest ih =>
      simp only [insertFiles, List.foldlM_cons, Option.bind_eq_bind,
        Option.bind_eq_some_iff] at inserted
      obtain ⟨middle, first, later⟩ := inserted
      rcases ih later with owned | old
      · exact Or.inl owned
      · rcases Table.insertNew_cases first old with ⟨_, rfl⟩ | older
        · exact Or.inl rfl
        · exact Or.inr older

/-- A publication adds one row to `exports` and rows of that export to `files`. -/
theorem Index.publish_spec {index after : Index} {manifest : Manifest}
    (published : index.publish manifest = some after)
    : Table.insertNew index.exports manifest.id manifest = some after.exports
      ∧ ∀ {id : String} {row : FileRow},
          after.files[id]? = some row
          → row.exportId = manifest.id ∨ index.files[id]? = some row := by
  simp only [Index.publish, Option.bind_eq_bind, Option.bind_eq_some_iff, Option.pure_def,
    Option.some.injEq] at published
  obtain ⟨exports, inserted, files, rows, rfl⟩ := published
  exact ⟨inserted, fun held => insertFiles_cases rows held⟩

/-- The ids of the files of a manifest. -/
def fileIds (manifest : Manifest) : List String := manifest.files.map PublishedFile.id

/-- The row of an export. -/
def exportEntry (manifest : Manifest) : String × Manifest := (manifest.id, manifest)

/-- The rows of the files of an export. -/
def fileEntries (manifest : Manifest) : List (String × FileRow) :=
  manifest.files.map fun file => (file.id, fileRow manifest.id file)

/-- A publication succeeds when its ids are new and distinct. -/
theorem Index.publish_fresh {index : Index} {manifest : Manifest}
    (absent : manifest.id ∉ index.exports) (distinct : (fileIds manifest).Nodup)
    (fresh : ∀ id ∈ fileIds manifest, id ∉ index.files)
    : index.publish manifest
      = some
          {
            exports := Table.insertAll index.exports [exportEntry manifest]
            files := Table.insertAll index.files (fileEntries manifest)
          } := by
  have ids : (fileEntries manifest).map Prod.fst = fileIds manifest := List.map_map
  have rows : insertFiles manifest.id index.files manifest.files
      = some (Table.insertAll index.files (fileEntries manifest)) := by
    rw [← Table.foldlM_insertNew (ids ▸ distinct), fileEntries, List.foldlM_map]
    · rfl
    · exact fun entry member => fresh entry.1 (ids ▸ List.mem_map_of_mem member)
  rw [publish, Table.insertNew, if_neg absent, rows]
  rfl

/-- Publications one after another succeed when all of their ids are new and distinct, by
induction on them.
-/
theorem foldlM_publish_fresh {index : Index} {manifests : List Manifest}
    (distinct : (manifests.map Manifest.id).Nodup)
    (absent : ∀ manifest ∈ manifests, manifest.id ∉ index.exports)
    (distinct' : (manifests.flatMap fileIds).Nodup)
    (fresh : ∀ id ∈ manifests.flatMap fileIds, id ∉ index.files)
    : manifests.foldlM Index.publish index
      = some
          {
            exports := Table.insertAll index.exports (manifests.map exportEntry)
            files := Table.insertAll index.files (manifests.flatMap fileEntries)
          } := by
  induction manifests generalizing index with
  | nil => rfl
  | cons manifest rest ih =>
      rw [List.flatMap_cons] at distinct' fresh
      obtain ⟨apart, distinct⟩ := List.nodup_cons.mp distinct
      obtain ⟨absent, absentRest⟩ := List.forall_mem_cons.mp absent
      obtain ⟨own, others, disjoint⟩ := List.nodup_append.mp distinct'
      have published := Index.publish_fresh absent own fun id member =>
        fresh id (List.mem_append_left _ member)
      rw [List.foldlM_cons, published]
      have later := @ih
        {
          exports := Table.insertAll index.exports [exportEntry manifest]
          files := Table.insertAll index.files (fileEntries manifest)
        } distinct ?_ others ?_
      · refine later.trans (congrArg some ?_)
        rw [List.flatMap_cons, Table.insertAll_append]
        rfl
      · intro other member inserted
        rcases Table.mem_insertAll_iff.mp inserted with same | old
        · have same : other.id = manifest.id := List.mem_singleton.mp same
          exact apart (same ▸ List.mem_map_of_mem member)
        · exact absentRest other member old
      · intro id member inserted
        rcases Table.mem_insertAll_iff.mp inserted with same | old
        · rw [fileEntries, List.map_map] at same
          exact disjoint id same id member rfl
        · exact fresh id (List.mem_append_right _ member) old

end MoenotesAssets.Publication
