import MoenotesAssets.ObjectTree.History
import MoenotesAssets.Upload.Success

/-! From exports to uploads: whatever history of exports a destination has, an upload accepts the
tree it finds there and selects the objects of its index, and what it publishes under their keys
are the files of the tree.
-/

namespace MoenotesAssets.ObjectTree
open Foundation

section Sha

variable {sha256 : List UInt8 → List UInt8} {job : Job} {tree seen : Tree} {files : List Planned}

/-- An index that later readers accept: it has the schema they know and safe keys. -/
structure Readable (tree : Tree) : Prop where
  schema : tree.loaded.schema = Index.new.schema
  safe : ∀ object ∈ tree.loaded.objects, isSafePath object.objectKey = true

/-- An empty tree is readable. -/
theorem Readable.empty : Readable .empty where
  schema := rfl
  safe := fun _ member => (List.not_mem_nil member).elim

/-- A run keeps the index readable, at every step of it. -/
theorem Readable.stage {done rest reached : List Planned}
    (accepted : Acceptable sha256 job tree files)
    (whole : newcomers (tree.loaded.objects.map Object.folded) files = done ++ rest)
    (stage : Stage sha256 tree (tree.loaded.withEmpties job.selected) done reached seen)
    : Readable seen where
  schema := by
    rcases stage.index with ⟨same, -⟩ | written
    · rw [Tree.loaded, same, ← Tree.loaded]
      exact accepted.schema.1
    · rw [Tree.loaded, written, Option.getD_some, (pushAll_rest _ done).1]
      exact accepted.schema.1
  safe := by
    intro object member
    rcases List.mem_append.mp (stage.recorded.objects.mem_iff.mp member) with old | new
    · exact (accepted.intact object old).1
    · obtain ⟨file, copied, rfl⟩ := List.mem_map.mp new
      exact accepted.prepared.safe file (whole ▸ List.mem_append_left rest copied)

/-- A history keeps the index readable, by induction on its runs. -/
theorem History.readable {first : Tree} (readable : Readable first)
    (history : History sha256 first tree)
    : Readable tree := by
  induction history with
  | here => exact readable
  | run job before visible ih =>
      rcases found_of_visible visible with rfl | ⟨files, accepted, done, rest, whole, stage⟩
      · exact ih
      · exact Readable.stage accepted whole stage
  | cleared before fewer ih => exact { ih with }

end Sha

end MoenotesAssets.ObjectTree

namespace MoenotesAssets.Upload
open Foundation ObjectTree

/-- What stands in the directory of a tree: its files, and under `_meta` its index, as `encode`
writes it, but no symlink in place of the lock or the journal.
-/
structure Stands (encode : Index → List UInt8) (tree : Tree) (disk : Disk) : Prop where
  keeps : tree.disk.Keeps disk
  index
    : ∀ index, tree.index = some index
      → disk.node ["_meta", "manifest.json"] = some (.file (encode index))
  plain
    : ∀ name ∈ ["tree.lock", "upload-local.jsonl"], disk.node ["_meta", name] ≠ some .symlink

/-- The file of an object, as an upload selects it. -/
def locate (object : Object) : Selected where
  path := splitPath object.objectKey
  object

section Sha

variable {sha256 : List UInt8 → List UInt8} {encode : Index → List UInt8}
  {decode : List UInt8 → Except String Index} {tree : Tree} {index : Index} {disk : Disk}

/-- Objects of different keys whose files are complete are selected, by induction on them. -/
theorem selection_all {objects : List Object} {selection : Selection}
    (safe : ∀ o ∈ objects, isSafePath o.objectKey = true)
    (complete : ∀ o ∈ objects, Complete sha256 disk o)
    (distinct : (objects.map Object.objectKey).Nodup)
    (fresh : ∀ o ∈ objects, o.objectKey ∉ selection.seen)
    : ∃ seen,
        objects.foldlM (Selection.add sha256 disk) selection
          = .ok { seen, selected := selection.selected ++ objects.map locate } := by
  induction objects generalizing selection with
  | nil => exact ⟨selection.seen, by rw [List.map_nil, List.append_nil]; rfl⟩
  | cons o rest ih =>
      obtain ⟨other, distinct⟩ := List.nodup_cons.mp distinct
      have intact := complete o List.mem_cons_self
      have destination : safeDestination disk o.objectKey = .ok (splitPath o.objectKey) :=
        safeDestination_ok.mpr ⟨safe o List.mem_cons_self, intact.noSymlink, rfl⟩
      have unseen : (!selection.seen.contains o.objectKey) = true := by
        simpa using fresh o List.mem_cons_self
      have added : Selection.add sha256 disk selection o = .ok {
          seen := o.objectKey :: selection.seen
          selected := selection.selected ++ [locate o]
        } := by
        simp only [Selection.add, bind_ok, ensure_ok, pure_ok]
        exact ⟨(), unseen, _, destination, (), verify_ok.mpr intact, rfl⟩
      obtain ⟨seen, whole⟩ := @ih {
          seen := o.objectKey :: selection.seen
          selected := selection.selected ++ [locate o]
        }
        (fun p member => safe p (List.mem_cons_of_mem o member))
        (fun p member => complete p (List.mem_cons_of_mem o member)) distinct (by
          intro p member known
          rcases List.mem_cons.mp known with same | before
          · exact other (same ▸ List.mem_map_of_mem member)
          · exact fresh p (List.mem_cons_of_mem o member) before)
      refine ⟨seen, ?_⟩
      rw [List.foldlM_cons, added]
      refine whole.trans ?_
      rw [List.map_cons, List.append_assoc]
      rfl

/-- A file in a directory of the root is reached without a symlink. -/
theorem safeDestination_inside {relative above name : String}
    (directory : disk.node [above] = some .directory) (safe : isSafePath relative = true)
    (parts : splitPath relative = [above, name])
    (plain : disk.node [above, name] ≠ some .symlink)
    : safeDestination disk relative = .ok [above, name] := by
  refine safeDestination_ok.mpr ⟨safe, ?_, parts⟩
  rw [parts]
  intro path higher link
  have among : path = [] ∨ path = [above] ∨ path = [above, name] := by
    simpa [List.inits] using (List.mem_inits path [above, name]).mpr higher
  rcases among with rfl | rfl | rfl
  · cases disk.root.symm.trans link
  · cases directory.symm.trans link
  · exact plain link

/-- An upload accepts the directory of a tree that a history of exports has left with an index, and
selects the objects of the index in its order.
-/
theorem prepare_accepts (history : History sha256 .empty tree) (written : tree.index = some index)
    (stands : Stands encode tree disk) (reads : decode (encode index) = .ok index)
    : prepare sha256 decode disk
      = .ok { manifest := splitPath manifestKey, selected := index.objects.map locate } := by
  have sound := (history.keeps Sound.empty).1
  have readable := history.readable .empty
  have loaded : tree.loaded = index := by rw [Tree.loaded, written, Option.getD_some]
  have manifest := stands.index index written
  have directory : disk.node ["_meta"] = some .directory :=
    Disk.node_above (by rw [manifest]; exact Option.some_ne_none _) (by decide)
  have kept : ∀ o ∈ index.objects, Complete sha256 disk o := fun o member =>
    (sound.complete o (loaded ▸ member)).kept stands.keeps
  have distinct : (index.objects.map Object.objectKey).Nodup := by
    have folded := sound.distinct
    rw [loaded] at folded
    refine List.Nodup.of_map toAsciiLowercase ?_
    rwa [List.map_map]
  obtain ⟨seen, selected⟩ := @selection_all sha256 disk index.objects { seen := [], selected := [] }
    (fun o member => readable.safe o (loaded ▸ member)) kept distinct
    (fun _ _ => List.not_mem_nil)
  have there : safeDestination disk manifestKey = .ok ["_meta", "manifest.json"] :=
    safeDestination_inside directory (by decide) (by decide)
      (by rw [manifest]; exact fun link => by cases link)
  have lock : safeDestination disk "_meta/tree.lock" = .ok ["_meta", "tree.lock"] :=
    safeDestination_inside directory (by decide) (by decide) (stands.plain _ (by decide))
  have journal : safeDestination disk "_meta/upload-local.jsonl"
      = .ok ["_meta", "upload-local.jsonl"] :=
    safeDestination_inside directory (by decide) (by decide) (stands.plain _ (by decide))
  simp only [prepare, bind_ok, ensure_ok, pure_ok]
  refine ⟨_, lock, _, there, (), ?_, encode index, ?_, index, reads, (), ?_, _, selected, _,
    journal, ?_⟩
  · rw [manifest]
    rfl
  · rw [readSource, manifest]
  · have schema := readable.schema
    rw [loaded] at schema
    rw [decide_eq_true_eq, schema]
    rfl
  · rfl

/-- From exports to the bucket: an upload accepts what any history of exports has left, and when a
run with the objects of the index succeeds, among any other runs, the files of the tree are stored
under the keys of its objects, if the responses without a length were whole and unless contents
collide.
-/
theorem exports_reach_the_bucket (history : History sha256 .empty tree)
    (written : tree.index = some index) (stands : Stands encode tree disk)
    (reads : decode (encode index) = .ok index)
    : prepare sha256 decode disk
        = .ok { manifest := splitPath manifestKey, selected := index.objects.map locate }
      ∧ ∀ trace bucket id bytes,
          (uploads sha256 decode).Execution trace bucket
          → Label.opened id index.objects ∈ trace
          → Label.did id (.returned (some bytes)) ∈ trace
          → ReadsWhole sha256 trace bucket
          → (∃ stored,
              bucket.store manifestKey = some stored
              ∧ (NoCollision sha256 [stored, bytes] → stored = bytes))
            ∧ ∀ object ∈ index.objects, ∃ content stored,
                tree.disk.node (splitPath object.objectKey) = some (.file content)
                ∧ bucket.store object.objectKey = some stored
                ∧ (NoCollision sha256 [stored, content] → stored = content) := by
  refine ⟨prepare_accepts history written stands reads, ?_⟩
  intro trace bucket id bytes execution opened returned whole
  obtain ⟨objects, manifest⟩ := success_verified execution returned opened
  obtain ⟨stored, held, described⟩ := manifest.stored whole
  refine ⟨⟨stored, held, fun secure => described.unique secure (manifest_described bytes) rfl⟩, ?_⟩
  intro object member
  have loaded : tree.loaded = index := by rw [Tree.loaded, written, Option.getD_some]
  have complete := (history.keeps Sound.empty).1.complete object (loaded ▸ member)
  obtain ⟨content, there, length, sha⟩ := complete
  obtain ⟨stored, held, described⟩ := (objects object member).stored whole
  exact ⟨content, stored, there, held,
    fun secure => described.unique secure (⟨length, sha⟩ : Describes sha256 object content) rfl⟩

/-- An upload of such a tree into an empty bucket can succeed, with responses that state their
lengths, if no file is too large and none has the key of the manifest.
-/
theorem exports_upload (history : History sha256 .empty tree) (written : tree.index = some index)
    (stands : Stands encode tree disk) (reads : decode (encode index) = .ok index)
    (small : ∀ o ∈ index.objects, o.bytes ≤ 5 * 1024 * 1024 * 1024)
    (unlisted : ∀ o ∈ index.objects, o.objectKey ≠ manifestKey)
    (short : (encode index).length ≤ 5 * 1024 * 1024 * 1024)
    : ∃ trace bucket,
        (uploads sha256 decode).Execution trace bucket
        ∧ Label.opened 0 index.objects ∈ trace
        ∧ Label.did 0 (.returned (some (encode index))) ∈ trace
        ∧ ReadsWhole sha256 trace bucket := by
  let prepared : Prepared :=
    { manifest := splitPath manifestKey, selected := index.objects.map locate }
  have prepares : prepare sha256 decode disk = .ok prepared :=
    prepare_accepts history written stands reads
  have whole : prepared.selected.map Selected.object = index.objects := by
    rw [List.map_map]
    exact List.map_id _
  obtain ⟨-, -, -, -, -, -, found⟩ := prepare_ok prepares
  have inside : ∀ s ∈ prepared.selected, s.object ∈ index.objects :=
    fun s member => whole ▸ List.mem_map_of_mem member
  have manifest : readSource disk (splitPath manifestKey) = .ok (encode index) := by
    rw [readSource, show splitPath manifestKey = ["_meta", "manifest.json"] by decide,
      stands.index index written]
  obtain ⟨trace, bucket, path, accepts, -⟩ :=
    @sendable_succeeds sha256 decode 0 disk prepared { concurrency := 4, timeoutSeconds := 900 }
      emptyBucket (encode index) rfl rfl prepares (fun s member => unlisted _ (inside s member))
      (by
        intro s member
        obtain ⟨-, body, read, described⟩ := found s member
        exact ⟨body, read, described, small _ (inside s member), .inl rfl⟩)
      ⟨manifest, manifest_described _, short, .inl rfl⟩
  rw [whole] at path
  have initial : (uploads sha256 decode).initial emptyBucket := ⟨rfl, fun _ => rfl⟩
  refine ⟨_, bucket, ⟨emptyBucket, initial, path⟩, by simp, by simp, ?_⟩
  intro who slot response member none
  have seen : Label.did who (.call slot (.readBack response)) ∈ trace := by simpa using member
  exact absurd none (accepts who slot response seen)

end Sha

-----------------------------------------------------------------------------------------
-- A sample
-----------------------------------------------------------------------------------------

/-- A destination with one exported movie. -/
private def movieTree : Tree := (exportProfile id (sampleJob false [("a", "Movie/A")]) .empty).last

/-- The directory of that destination, with an index of one byte. -/
private def movieDisk : Disk :=
  (movieTree.disk.create ["_meta"] .directory).create ["_meta", "manifest.json"] (.file [1])

/-- The index of the destination stands in its directory. -/
private theorem movie_stands : Stands (fun _ => [1]) movieTree movieDisk where
  keeps := (Disk.keeps_create _ _ _).trans (Disk.keeps_create _ _ _)
  index := fun _ _ => by decide +kernel
  plain := by decide +kernel

/-- A movie that is exported into an empty destination is uploaded. -/
theorem exports_reach_the_bucket_sample
    : ∃ index trace bucket,
        (uploads id fun _ => .ok index).Execution trace bucket
        ∧ Label.did 0 (.returned (some [1])) ∈ trace
        ∧ bucket.store manifestKey = some [1]
        ∧ bucket.store "Movie/A/A.mp4" = some [1] := by
  have computed : movieTree.index.map (fun index => index.objects.map fun o =>
        (o.objectKey, o.bytes))
      = some [("Movie/A/A.mp4", 1)] := by
    decide +kernel
  obtain ⟨index, written, listed⟩ := Option.map_eq_some_iff.mp computed
  have history : History id .empty movieTree := History.here.last _
  have only : ∀ o ∈ index.objects, o.objectKey = "Movie/A/A.mp4" ∧ o.bytes = 1 := by
    intro o member
    have entry : (o.objectKey, o.bytes) ∈ [("Movie/A/A.mp4", 1)] :=
      listed ▸ List.mem_map_of_mem member
    simpa using entry
  obtain ⟨trace, bucket, execution, opened, returned, whole⟩ :=
    @exports_upload id (fun _ => [1]) (fun _ => .ok index) movieTree index movieDisk history written
      movie_stands rfl (fun o member => by rw [(only o member).2]; decide)
      (fun o member => by rw [(only o member).1]; decide) (by decide)
  obtain ⟨-, reach⟩ :=
    @exports_reach_the_bucket id (fun _ => [1]) (fun _ => .ok index) movieTree index movieDisk
      history written movie_stands rfl
  obtain ⟨⟨stored, held, same⟩, files⟩ :=
    reach trace bucket 0 [1] execution opened returned whole
  have collisionFree : ∀ inputs, NoCollision id inputs := fun _ _ _ _ _ same => same
  obtain ⟨object, member⟩ : ∃ object, object ∈ index.objects := by
    refine List.exists_mem_of_ne_nil _ fun none => ?_
    rw [none] at listed
    cases listed
  obtain ⟨content, stored', there, held', same'⟩ := files object member
  have file : movieTree.disk.node (splitPath "Movie/A/A.mp4") = some (.file [1]) := by
    decide +kernel
  rw [(only object member).1] at there held'
  obtain rfl : content = [1] := by
    rw [file, Option.some.injEq, Node.file.injEq] at there
    exact there.symm
  exact ⟨index, trace, bucket, execution, returned, same (collisionFree _) ▸ held,
    same' (collisionFree _) ▸ held'⟩

end MoenotesAssets.Upload
