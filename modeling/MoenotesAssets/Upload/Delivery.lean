import MoenotesAssets.Upload.Handoff
import MoenotesAssets.Upload.Success
import MoenotesAssets.Worker.Served

/-! From the runs of the worker to the bucket: exports of a tree read the manifests of a service,
and what an upload of the tree publishes are files that the worker converted.
-/

namespace MoenotesAssets.ObjectTree
open Foundation Export

-----------------------------------------------------------------------------------------
-- The origin of objects
-----------------------------------------------------------------------------------------

/-- (Exports sha256 reads tree) holds when runs on an empty destination have led to `tree`, each of
which ended, failed or died at any step and was given manifests as `reads` allows.
-/
inductive Exports (sha256 : List UInt8 → List UInt8) (reads : Job → Prop) : Tree → Prop where
  | here : Exports sha256 reads .empty
  | run {tree seen : Tree} (job : Job) (read : reads job) (before : Exports sha256 reads tree)
    (visible : seen ∈ (exportProfile sha256 job tree).visible)
    : Exports sha256 reads seen
  | cleared {tree : Tree} {kept : List (List UInt8)} (before : Exports sha256 reads tree)
    (fewer : kept.Sublist tree.temporaries)
    : Exports sha256 reads { tree with temporaries := kept }

section Sha

variable {sha256 : List UInt8 → List UInt8} {reads : Job → Prop} {tree : Tree}

/-- Such runs are a history. -/
theorem Exports.history (exported : Exports sha256 reads tree) : History sha256 .empty tree := by
  induction exported with
  | here => exact .here
  | run job _ _ visible ih => exact ih.run job visible
  | cleared _ fewer ih => exact ih.cleared fewer

/-- A manifest that a job selects was given to it. -/
theorem Job.selected_subset (job : Job) : job.selected ⊆ job.manifests := by
  intro m member
  have kept := (List.mem_insertionSort _).mp member
  exact List.mem_of_mem_filter kept

/-- Every object describes a file of a manifest that a run was given, by induction on the runs. -/
theorem Exports.origin (exported : Exports sha256 reads tree)
    : ∀ object ∈ tree.loaded.objects,
        ∃ job m f,
          reads job
          ∧ m ∈ job.manifests
          ∧ f ∈ m.files
          ∧ describe sha256 m f = .ok object := by
  induction exported with
  | here => exact fun _ member => (List.not_mem_nil member).elim
  | @run tree seen job read before visible ih =>
      rcases found_of_visible visible with rfl | ⟨files, accepted, done, rest, whole, stage⟩
      · exact ih
      · intro object member
        rcases List.mem_append.mp (stage.recorded.objects.mem_iff.mp member) with old | new
        · exact ih object old
        · obtain ⟨file, copied, rfl⟩ := List.mem_map.mp new
          have among := (mem_newcomers (whole ▸ List.mem_append_left rest copied)).1
          obtain ⟨entry, listed, found⟩ := mapM_comes accepted.inspected among
          obtain ⟨m, selected, inside⟩ := List.mem_flatMap.mp listed
          obtain ⟨f, own, rfl⟩ := List.mem_map.mp inside
          exact ⟨job, m, f, read, job.selected_subset selected, own, (inspect_ok.mp found).1⟩
  | cleared before fewer ih => exact ih

/-- An object has the media type, the length and the digest of its artifact. -/
theorem describe_records {m : Manifest} {f : PublishedFile} {object : Object}
    (described : describe sha256 m f = .ok object)
    : object.contentType = f.artifact.mediaType
      ∧ object.bytes = f.artifact.bytes
      ∧ object.sha256 = f.artifact.sha256 := by
  simp only [describe, bind_ok, context_ok, ensure_ok, pure_ok, exists_const,
    Bool.and_eq_true] at described
  obtain ⟨ext, -, -, base, -, rfl⟩ := described
  exact ⟨rfl, rfl, rfl⟩

end Sha

end MoenotesAssets.ObjectTree

namespace MoenotesAssets.Upload
open Foundation ObjectTree
open Worker.Media (Externals Installed Playing Settings)
open Worker.Run (Converted Delivered)

-----------------------------------------------------------------------------------------
-- Published objects
-----------------------------------------------------------------------------------------

/-- A job of a tree is given rows of `exports` as they are at some moment of a service whose workers
deliver what they may.
-/
def Reads (settings : Publication.Settings) (supply : Publication.Supply) (job : ObjectTree.Job)
    : Prop :=
  ∃ state,
    (Publication.supplied settings supply).Reachable state
    ∧ ∀ m ∈ job.manifests, state.store.index.exports[m.id]? = some m

section Sha

variable {sha256 : List UInt8 → List UInt8} {admits : Worker.Run.Tools → Worker.Job → Prop}
  {settings : Publication.Settings} {tree : Tree}

/-- Every object of such a tree describes a file that the worker converted. -/
theorem objects_converted
    (exported : Exports sha256 (Reads settings (Delivered sha256 admits)) tree)
    : ∀ object ∈ tree.loaded.objects,
        ∃ tools job artifact content,
          Converted sha256 admits tools job artifact content
          ∧ object.contentType = artifact.mediaType
          ∧ Describes sha256 object content := by
  intro object member
  obtain ⟨reader, m, f, ⟨state, reached, rows⟩, given, own, described⟩ :=
    exported.origin object member
  obtain ⟨origin, output, result, sealed, content, delivered, done, worked, -⟩ :=
    Publication.published_delivered reached (rows m given) own
  obtain ⟨tools, job, converted⟩ :=
    Worker.Run.converted_of_delivered delivered done own worked
  obtain ⟨kind, bytes, sha⟩ := describe_records described
  exact ⟨tools, job, f.artifact, content, converted, kind, converted.length.trans bytes.symm,
    converted.digested.trans sha.symm⟩

end Sha

-----------------------------------------------------------------------------------------
-- The sample
-----------------------------------------------------------------------------------------

open Worker.Media (movieManifest movieSettings movie_published sampleExternals)

/-- The export of the video into a tree. -/
def movieExport : ObjectTree.Job where
  manifests := [movieManifest]
  data := [
      (["exports"], .directory),
      (["exports", "ab"], .directory),
      (["exports", "ab", "00000.mp4"], .file [1]),
      (["exports", "ab", "00001.mkv"], .file [2])
    ].foldl (fun disk (path, node) => disk.create path node) Disk.empty
  snapshot := none
  hardlink := false
  profile := Export.workerProfile

/-- The tree with the video. -/
def exportedMovie : Tree := (exportProfile List.reverse movieExport .empty).last

/-- Its directory, with an index of one byte. -/
def exportedDisk : Disk :=
  (exportedMovie.disk.create ["_meta"] .directory).create ["_meta", "manifest.json"] (.file [1])

/-- The tree stands in its directory. -/
theorem exported_stands : Stands (fun _ => [1]) exportedMovie exportedDisk where
  keeps := (Disk.keeps_create _ _ _).trans (Disk.keeps_create _ _ _)
  index := fun _ _ => by decide +kernel
  plain := by decide +kernel

/-- The video and its mask are uploaded. -/
theorem movie_uploaded {index : Index} (written : exportedMovie.index = some index)
    : ∃ trace bucket,
        (uploads List.reverse fun _ => .ok index).Execution trace bucket
        ∧ Label.opened 0 index.objects ∈ trace
        ∧ Label.did 0 (.returned (some [1])) ∈ trace
        ∧ ReadsWhole List.reverse trace bucket := by
  have history : History List.reverse .empty exportedMovie := History.here.last movieExport
  have computed : exportedMovie.index.map (fun index => index.objects.map fun o =>
        (o.objectKey, o.bytes))
      = some [("movie/movie.alpha.mkv", 1), ("movie/movie.mp4", 1)] := by
    decide +kernel
  rw [written] at computed
  have plain : ∀ o ∈ index.objects, o.objectKey ≠ manifestKey ∧ o.bytes = 1 := by
    intro o member
    have listed : (o.objectKey, o.bytes) ∈ [("movie/movie.alpha.mkv", 1), ("movie/movie.mp4", 1)] :=
      Option.some.inj computed ▸ List.mem_map_of_mem member
    simp only [List.mem_cons, Prod.mk.injEq, List.not_mem_nil, or_false] at listed
    rcases listed with ⟨key, size⟩ | ⟨key, size⟩
    · exact ⟨by rw [key]; decide, size⟩
    · exact ⟨by rw [key]; decide, size⟩
  exact @exports_upload List.reverse (fun _ => [1]) (fun _ => .ok index) exportedMovie index
    exportedDisk history written exported_stands rfl
    (fun o member => by rw [(plain o member).2]; decide) (fun o member => (plain o member).1)
    (by decide)

end MoenotesAssets.Upload
