import MoenotesAssets.ObjectTree.Recording

/-! Trees over any history of exports: each run may end, fail or die at any step. The index on
disk stays sound, and what an earlier run recorded stays as it is.
-/

namespace MoenotesAssets.ObjectTree
open Foundation Export

/-- (History sha256 first tree) holds when runs on a tree have led from `first` to `tree`.
Each run ends, or dies or fails at any step, and then leaves a tree that it passed. A run
that fails removes its temporary file.
-/
inductive History (sha256 : List UInt8 → List UInt8) (first : Tree) : Tree → Prop where
  | here : History sha256 first first
  | run {tree seen : Tree} (job : Job) (before : History sha256 first tree)
    (visible : seen ∈ (exportProfile sha256 job tree).visible)
    : History sha256 first seen
  | cleared {tree : Tree} {kept : List (List UInt8)} (before : History sha256 first tree)
    (fewer : kept.Sublist tree.temporaries)
    : History sha256 first { tree with temporaries := kept }

/-- The directory of an object. -/
def Object.directory (object : Object) : List String := (splitPath object.objectKey).dropLast

/-- What holds of the index on disk. -/
structure Sound (sha256 : List UInt8 → List UInt8) (tree : Tree) : Prop where
  distinct : (tree.loaded.objects.map Object.folded).Nodup
  keyed : ∀ empty ∈ tree.loaded.emptyExports, empty.entry.isSome
  oneExport : Table.Agreeing tree.loaded.recorded
  located : ∀ object ∈ tree.loaded.objects, object.IsLocated sha256
  apart
    : ∀ object ∈ tree.loaded.objects, ∀ other ∈ tree.loaded.objects,
        object.assetKey ≠ other.assetKey
        → object.directory.map toAsciiLowercase ≠ other.directory.map toAsciiLowercase
  unreserved
    : ∀ object ∈ tree.loaded.objects, ∀ {part : String},
        (splitPath object.objectKey).head? = some part
        → toAsciiLowercase part ≠ "_meta"
  complete : ∀ object ∈ tree.loaded.objects, Complete sha256 tree.disk object

/-- What is kept of a tree: the recorded objects and every file. -/
structure Persists (tree later : Tree) : Prop where
  records : ∀ object ∈ tree.loaded.objects, object ∈ later.loaded.objects
  keeps : tree.disk.Keeps later.disk

section Sha

variable {sha256 : List UInt8 → List UInt8} {job : Job} {tree seen : Tree} {files : List Planned}

/-- An empty tree is sound. -/
theorem Sound.empty : Sound sha256 .empty where
  distinct := List.nodup_nil
  keyed := fun _ member => (List.not_mem_nil member).elim
  oneExport := fun _ member => (List.not_mem_nil member).elim
  located := fun _ member => (List.not_mem_nil member).elim
  apart := fun _ member => (List.not_mem_nil member).elim
  unreserved := fun _ member => (List.not_mem_nil member).elim
  complete := fun _ member => (List.not_mem_nil member).elim

/-- A run ends with a tree that is part of its history. -/
theorem History.last (job : Job) (before : History sha256 tree seen)
    : History sha256 tree (exportProfile sha256 job seen).last :=
  before.run job (List.mem_append_right _ List.mem_cons_self)

-----------------------------------------------------------------------------------------
-- What a run adds to the index
-----------------------------------------------------------------------------------------

/-- A file belongs to a manifest of the run. -/
theorem Acceptable.origin (accepted : Acceptable sha256 job tree files) {file : Planned}
    (member : file ∈ files)
    : ∃ m ∈ job.selected,
        file.object.assetKey = m.key ∧ file.object.exportId = m.id
        ∧ file.object.IsLocated sha256 := by
  obtain ⟨entry, among, found⟩ := mapM_comes accepted.inspected member
  obtain ⟨m, selected, inside⟩ := List.mem_flatMap.mp among
  obtain ⟨f, -, rfl⟩ := List.mem_map.mp inside
  exact ⟨m, selected, describe_ok (inspect_ok.mp found).1⟩

/-- The index that a run leaves: old and copied objects, old empty exports and those of its
manifests.
-/
structure Recorded (job : Job) (tree : Tree) (done : List Planned) (seen : Tree) : Prop where
  objects : seen.loaded.objects.Perm (tree.loaded.objects ++ done.map Planned.object)
  empties
    : ∀ empty ∈ seen.loaded.emptyExports,
        empty ∈ tree.loaded.emptyExports ∨ ∃ m ∈ job.selected, empty = EmptyExport.of m

/-- A stage of a run leaves such an index. -/
theorem Stage.recorded {done reached : List Planned}
    (stage : Stage sha256 tree (tree.loaded.withEmpties job.selected) done reached seen)
    : Recorded job tree done seen := by
  rcases stage.index with ⟨same, rfl⟩ | written
  · have loaded : seen.loaded = tree.loaded := by rw [Tree.loaded, same, ← Tree.loaded]
    refine ⟨?_, fun empty member => Or.inl (loaded ▸ member)⟩
    rw [loaded, List.map_nil, List.append_nil]
  · have loaded : seen.loaded = pushAll (tree.loaded.withEmpties job.selected) done := by
      rw [Tree.loaded, written, Option.getD_some]
    constructor
    · rw [loaded]
      exact pushAll_objects _ done
    · intro empty member
      rw [loaded, (pushAll_rest _ done).2.2] at member
      exact mem_recordEmpty member

/-- The exports of a run agree with the recorded ones. -/
theorem Acceptable.exports_agree (accepted : Acceptable sha256 job tree files)
    (oneExport : Table.Agreeing tree.loaded.recorded)
    : Table.Agreeing (tree.loaded.recorded ++ job.selected.map fun m => (m.key, m.id)) := by
  have across : ∀ entry ∈ tree.loaded.recorded, ∀ m ∈ job.selected,
      entry.1 = m.key → entry.2 = m.id := by
    intro entry member m selected same
    refine accepted.exports m selected ?_
    rw [← same]
    exact Table.insertAll_agreeing oneExport member
  intro left first right second same
  rcases List.mem_append.mp first with old | new
  · rcases List.mem_append.mp second with old' | new'
    · exact oneExport left old right old' same
    · obtain ⟨m, selected, rfl⟩ := List.mem_map.mp new'
      exact across left old m selected same
  · rcases List.mem_append.mp second with old' | new'
    · obtain ⟨m, selected, rfl⟩ := List.mem_map.mp new
      exact (across right old' m selected same.symm).symm
    · exact accepted.versions left new right new' same

/-- An index of a run records exports of the tree and of the run. -/
theorem Recorded.recorded_subset {done : List Planned} (recorded : Recorded job tree done seen)
    (origin
      : ∀ file ∈ done, ∃ m ∈ job.selected,
          file.object.assetKey = m.key ∧ file.object.exportId = m.id)
    : seen.loaded.recorded
      ⊆ tree.loaded.recorded ++ job.selected.map fun m => (m.key, m.id) := by
  intro entry member
  rcases List.mem_append.mp member with object | empty
  · obtain ⟨object, inside, rfl⟩ := List.mem_map.mp object
    rcases List.mem_append.mp (recorded.objects.mem_iff.mp inside) with old | new
    · refine List.mem_append_left _ (List.mem_append_left _ ?_)
      exact List.mem_map_of_mem (f := fun object => (object.assetKey, object.exportId)) old
    · obtain ⟨file, copied, rfl⟩ := List.mem_map.mp new
      obtain ⟨m, selected, key, id⟩ := origin file copied
      rw [key, id]
      exact List.mem_append_right _
        (List.mem_map_of_mem (f := fun m => (m.key, m.id)) selected)
  · obtain ⟨empty, inside, same⟩ := List.mem_filterMap.mp empty
    rcases recorded.empties empty inside with old | ⟨m, selected, rfl⟩
    · refine List.mem_append_left _ (List.mem_append_right _ ?_)
      exact List.mem_filterMap.mpr ⟨empty, old, same⟩
    · obtain rfl := Option.some.inj same
      exact List.mem_append_right _
        (List.mem_map_of_mem (f := fun m => (m.key, m.id)) selected)

/-- Objects of different keys lie in different directories when the directories of all keys
were claimed.
-/
theorem apart_of_directories {keys : List String} {object other : Object}
    (directories : Table.Agreeing (keys.flatMap (directoriesOf sha256)))
    (among : object.assetKey ∈ keys) (among' : other.assetKey ∈ keys)
    (located : object.IsLocated sha256) (located' : other.IsLocated sha256)
    (differ : object.assetKey ≠ other.assetKey)
    : object.directory.map toAsciiLowercase ≠ other.directory.map toAsciiLowercase := by
  obtain ⟨name, path⟩ := located
  obtain ⟨name', path'⟩ := located'
  rw [Object.directory, Object.directory, path, path', List.dropLast_concat,
    List.dropLast_concat]
  intro same
  have encoded := congrArg joinPath same
  rw [← toAsciiLowercase_joinPath, ← toAsciiLowercase_joinPath] at encoded
  have claimed := List.mem_flatMap.mpr ⟨_, among, @mem_directoriesOf sha256 object.assetKey⟩
  have claimed' := List.mem_flatMap.mpr ⟨_, among', @mem_directoriesOf sha256 other.assetKey⟩
  exact differ (directories _ claimed _ claimed' encoded)

/-- An object of an unreserved key does not lie under `_meta`. -/
theorem IsUnreserved.head {object : Object} {part : String}
    (unreserved : IsUnreserved sha256 object.assetKey) (located : object.IsLocated sha256)
    (head : (splitPath object.objectKey).head? = some part)
    : toAsciiLowercase part ≠ "_meta" := by
  obtain ⟨name, path⟩ := located
  obtain ⟨first, rest, parts⟩ :=
    List.exists_cons_of_ne_nil (@encodedParts_ne_nil sha256 object.assetKey)
  rw [path, parts, List.cons_append, List.head?_cons, Option.some.injEq] at head
  rw [IsUnreserved, parts, List.head?_cons, Option.any_some, decide_eq_true_eq] at unreserved
  rwa [← head]

/-- A run keeps the index sound, at every step of it. -/
theorem Sound.stage {done rest reached : List Planned} (sound : Sound sha256 tree)
    (accepted : Acceptable sha256 job tree files)
    (whole : newcomers (tree.loaded.objects.map Object.folded) files = done ++ rest)
    (stage : Stage sha256 tree (tree.loaded.withEmpties job.selected) done reached seen)
    : Sound sha256 seen := by
  have recorded : Recorded job tree done seen := stage.recorded
  have copied : ∀ file ∈ done, file ∈ files ∧ file.object.folded ∉ _ :=
    fun file member => mem_newcomers (whole ▸ List.mem_append_left rest member)
  have origin : ∀ file ∈ done, _ := fun file member => accepted.origin (copied file member).1
  have either : ∀ {object : Object}, object ∈ seen.loaded.objects →
      object ∈ tree.loaded.objects ∨ ∃ file ∈ done, file.object = object :=
    fun member => (List.mem_append.mp (recorded.objects.mem_iff.mp member)).imp_right
      List.mem_map.mp
  have located : ∀ object ∈ seen.loaded.objects, object.IsLocated sha256 := by
    intro object member
    rcases either member with old | ⟨file, new, rfl⟩
    · exact sound.located object old
    · obtain ⟨m, -, -, -, located⟩ := origin file new
      exact located
  have keys : ∀ object ∈ seen.loaded.objects, object.assetKey ∈ keysOf job tree.loaded := by
    intro object member
    rcases either member with old | ⟨file, new, rfl⟩
    · exact List.mem_append_right _ (List.mem_map_of_mem old)
    · obtain ⟨m, selected, key, -⟩ := origin file new
      rw [key]
      exact List.mem_append_left _ (List.mem_map_of_mem selected)
  constructor
  case distinct =>
    rw [(recorded.objects.map Object.folded).nodup_iff, List.map_append, List.map_map]
    refine List.Nodup.append accepted.distinct ?_ ?_
    · have planned := newcomers_nodup (tree.loaded.objects.map Object.folded) files
      rw [whole, List.map_append] at planned
      exact planned.of_append_left
    · intro key old new
      obtain ⟨file, member, rfl⟩ := List.mem_map.mp new
      exact (copied file member).2 old
  case keyed =>
    intro empty member
    rcases recorded.empties empty member with old | ⟨m, -, rfl⟩
    · exact accepted.keyed empty old
    · rfl
  case oneExport =>
    refine (accepted.exports_agree sound.oneExport).subset (recorded.recorded_subset ?_)
    intro file member
    obtain ⟨m, selected, key, id, -⟩ := origin file member
    exact ⟨m, selected, key, id⟩
  case located => exact located
  case apart =>
    intro object member other member' differ
    exact apart_of_directories accepted.directories (keys object member) (keys other member')
      (located object member) (located other member') differ
  case unreserved =>
    intro object member part head
    rcases either member with old | ⟨file, new, rfl⟩
    · exact sound.unreserved object old head
    · obtain ⟨m, selected, key, -, inside⟩ := origin file new
      exact IsUnreserved.head (key ▸ accepted.unreserved m selected) inside head
  case complete =>
    intro object member
    rcases either member with old | ⟨file, new, rfl⟩
    · exact (sound.complete object old).kept stage.grown.keeps
    · exact stage.complete file new

/-- A run keeps what is recorded, at every step of it. -/
theorem Stage.persists {done reached : List Planned}
    (stage : Stage sha256 tree (tree.loaded.withEmpties job.selected) done reached seen)
    : Persists tree seen where
  records := fun _ member =>
    stage.recorded.objects.mem_iff.mpr (List.mem_append_left _ member)
  keeps := stage.grown.keeps

-----------------------------------------------------------------------------------------
-- Histories
-----------------------------------------------------------------------------------------

/-- A history keeps the index sound and what is recorded, by induction on its runs. -/
theorem History.keeps {first : Tree} (sound : Sound sha256 first)
    (history : History sha256 first tree)
    : Sound sha256 tree ∧ Persists first tree := by
  induction history with
  | here => exact ⟨sound, fun _ member => member, .refl _⟩
  | run job before visible ih =>
      rcases found_of_visible visible with rfl | ⟨files, accepted, done, rest, whole, stage⟩
      · exact ih
      · refine ⟨ih.1.stage accepted whole stage, ?_, ?_⟩
        · exact fun object member => stage.persists.records object (ih.2.records object member)
        · exact ih.2.keeps.trans stage.persists.keeps
  | cleared before fewer ih => exact ⟨{ ih.1 with }, { ih.2 with }⟩

/-- Over any history of runs on an empty destination the index on disk is sound, and what an
earlier index recorded stays recorded, with its file as it was.
-/
theorem index_stays_sound {tree later : Tree} (before : History sha256 .empty tree)
    (after : History sha256 tree later)
    : Sound sha256 later
      ∧ ∀ object ∈ tree.loaded.objects,
          object ∈ later.loaded.objects
          ∧ later.disk.node (splitPath object.objectKey)
            = tree.disk.node (splitPath object.objectKey) := by
  obtain ⟨sound, -⟩ := before.keeps Sound.empty
  obtain ⟨later, persists⟩ := after.keeps sound
  refine ⟨later, fun object member => ⟨persists.records object member, ?_⟩⟩
  obtain ⟨content, held, -⟩ := sound.complete object member
  rw [held, persists.keeps _ _ held]

end Sha

-----------------------------------------------------------------------------------------
-- A sample
-----------------------------------------------------------------------------------------

/-- A data directory with one file of one byte for each export. -/
def sampleData (exports : List String) : Disk :=
  exports.foldl (fun disk id =>
    (disk.create ["exports", id] .directory).create ["exports", id, "00000.mp4"] (.file [1]))
    (Disk.empty.create ["exports"] .directory)

/-- A manifest with one movie, which a digest that returns its bytes verifies. -/
def sampleManifest (id key : String) : Manifest where
  id := id
  snapshot := "s"
  key := key
  profile := workerProfile
  files := [{
    id := "f"
    artifact := {
      name := "00000.mp4"
      label := "movie"
      mediaType := "video/mp4"
      bytes := 1
      sha256 := "01"
      stableId := none
      role := some "color"
    }
  }]
  empty := false

/-- A job that copies or links the given exports. -/
def sampleJob (hardlink : Bool) (exports : List (String × String)) : Job where
  manifests := exports.map fun entry => sampleManifest entry.1 entry.2
  data := sampleData (exports.map Prod.fst)
  snapshot := none
  hardlink := hardlink
  profile := workerProfile

/-- Two runs, one after the other. -/
theorem index_stays_sound_sample
    : let tree := (exportProfile id (sampleJob false [("a", "Movie/A")]) .empty).last
      let later :=
        (exportProfile id (sampleJob true [("a", "Movie/A"), ("b", "Movie/B")]) tree).last
      tree.loaded.objects.map Object.objectKey = ["Movie/A/A.mp4"]
      ∧ later.loaded.objects.map Object.objectKey = ["Movie/A/A.mp4", "Movie/B/B.mp4"]
      ∧ Sound id later
      ∧ later.disk.node ["Movie", "A", "A.mp4"] = some (.file [1]) := by
  intro tree later
  have before : History id .empty tree := History.here.last (sampleJob false [("a", "Movie/A")])
  have after : History id tree later :=
    History.here.last (sampleJob true [("a", "Movie/A"), ("b", "Movie/B")])
  exact ⟨by decide +kernel, by decide +kernel, (index_stays_sound before after).1,
    by decide +kernel⟩

end MoenotesAssets.ObjectTree
