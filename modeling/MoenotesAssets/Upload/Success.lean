import MoenotesAssets.Upload.Agreement

/-! An upload that nothing disturbs succeeds, whatever runs have left before it: every `PUT` finds
its key free or taken by the same content, and the server acts on it at once.
-/

namespace MoenotesAssets.Upload
open Foundation ObjectTree

section Alone

variable {sha256 : List UInt8 → List UInt8} {decode : List UInt8 → Except String Index} {id : Nat}

/-- A file that can be sent for an object, and that is not kept out by what is stored. -/
structure Sendable (sha256 : List UInt8 → List UInt8) (tree : Disk)
    (store : String → Option (List UInt8)) (path : Path) (object : Object) (body : List UInt8)
    : Prop where
  read : readSource tree path = .ok body
  described : Describes sha256 object body
  small : object.bytes ≤ 5 * 1024 * 1024 * 1024
  free : store object.objectKey = none ∨ store object.objectKey = some body

/-- A request that is served in full leaves its body under its key. -/
theorem Sendable.served {tree : Disk} {store : String → Option (List UInt8)} {path : Path}
    {object : Object} {body : List UInt8} (sendable : Sendable sha256 tree store path object body)
    : serve store (putRequest object body) body object.objectKey = some body := by
  rcases sendable.free with vacant | taken
  · rw [serve, if_neg]
    · exact Function.update_self object.objectKey (some body) store
    · rintro ⟨-, present⟩
      rw [putRequest, vacant] at present
      cases present
  · exact serve_keeps rfl body _ _ taken

/-- A file that can be sent passes when it is read back as a whole. -/
theorem Sendable.passes {tree : Disk} {store : String → Option (List UInt8)} {path : Path}
    {object : Object} {body : List UInt8} (sendable : Sendable sha256 tree store path object body)
    : Passes sha256 tree store path object body (carrying (some body.length) body) where
  read := sendable.read
  small := sendable.small
  delivered := by
    rw [sendable.served]
    exact carrying_delivered (List.prefix_refl _) fun n stated => (Option.some.inj stated).symm
  verified :=
    verifyResponse_whole sendable.described _ fun n stated => (Option.some.inj stated).symm

/-- An upload of files that can be sent succeeds, with responses that state their lengths. -/
theorem sendable_succeeds {tree : Disk} {prepared : Prepared} {config : Config} {bucket : Bucket}
    {bytes : List UInt8} (fresh : bucket.runs id = none) (valid : Config.check config = .ok ())
    (prepares : prepare sha256 decode tree = .ok prepared)
    (unlisted : ∀ s ∈ prepared.selected, s.object.objectKey ≠ manifestKey)
    (ready
      : ∀ s ∈ prepared.selected, ∃ body, Sendable sha256 tree bucket.store s.path s.object body)
    (manifest
      : Sendable sha256 tree bucket.store prepared.manifest (manifestObject sha256 bytes) bytes)
    : ∃ (trace : List Label) (later : Bucket),
        (uploads sha256 decode).Path bucket
          (.opened id (prepared.selected.map Selected.object)
            :: (trace ++ [.did id (.returned (some bytes))]))
          later
        ∧ Accepts (fun response => response.contentLength ≠ none) trace
        ∧ later.store manifestKey = some bytes
        ∧ ∀ s ∈ prepared.selected,
            ∃ body,
              readSource tree s.path = .ok body
              ∧ later.store s.object.objectKey = some body := by
  obtain ⟨trace, later, path, -, accepts, stored, files⟩ :=
    @run_passes sha256 decode id (fun response => response.contentLength ≠ none) tree prepared
      config bucket bytes _ fresh valid prepares unlisted
      (by
        intro s member
        obtain ⟨body, sendable⟩ := ready s member
        exact ⟨body, _, Option.some_ne_none _, sendable.passes⟩)
      (Option.some_ne_none _) manifest.passes
  refine ⟨trace, later, path, accepts, stored.trans manifest.served, fun s member => ?_⟩
  obtain ⟨body, read, held⟩ := files s member
  obtain ⟨content, sendable⟩ := ready s member
  obtain rfl := Except.ok.inj (read.symm.trans sendable.read)
  exact ⟨body, read, held.trans sendable.served⟩

end Alone

/-- A bucket that has the object of the sample only. -/
def halfBucket : Bucket where
  store := fun key => if key = "Movie/A.mp4" then some [7] else none
  requests := []
  runs := fun _ => none

end MoenotesAssets.Upload
