import MoenotesAssets.Upload.Course

/-! The contract of concurrent and repeated uploads into one bucket. -/

namespace MoenotesAssets.Upload
open Foundation ObjectTree

section Contract

variable {sha256 : List UInt8 → List UInt8} {decode : List UInt8 → Except String Index}
  {trace first second rest : List Label} {bucket middle : Bucket} {id : Nat}
  {objects : List Object} {bytes : List UInt8} {request : PutRequest}

/-- What is stored stays along an execution, by induction on its later part. -/
theorem stored_stays (head : (uploads sha256 decode).Execution first middle)
    (tail : (uploads sha256 decode).Path middle second bucket)
    : Keeps middle.store bucket.store := by
  induction tail with
  | here => exact fun _ _ stored => stored
  | next path step ih =>
      have lawful := lawful_execution (head.append path)
      exact fun key content stored => step.keeps lawful key content (ih key content stored)

/-- The index with which a run began is the one that it holds. -/
theorem opened_unique {run : Run} (execution : (uploads sha256 decode).Execution trace bucket)
    (opened : Label.opened id objects ∈ trace) (held : bucket.runs id = some run)
    : run.objects = objects := by
  obtain ⟨other, found, same⟩ := (lawful_execution execution).opened id objects opened
  cases held.symm.trans found
  exact same

/-- Before a run sends its manifest, it has read back every object of its index. -/
theorem manifest_sent_last
    (execution
      : (uploads sha256 decode).Execution
          (first ++ .did id (.call (.manifest bytes) (.sent request)) :: rest) bucket)
    : request.key = manifestKey
      ∧ ∃ objects,
          Label.opened id objects ∈ first
          ∧ ∀ o ∈ objects, Verified sha256 first bucket id (.object o) := by
  obtain ⟨before, after, head, step, tail⟩ := execution.taken
  have keeps := stored_stays head (.append (.next .here step) tail)
  have lawful := lawful_execution head
  cases step with
  | @acts _ run _ next held step =>
      obtain ⟨began, sound⟩ := lawful.sound id run held
      refine ⟨(step.sends sound).2, run.objects, began, fun o member => ?_⟩
      obtain ⟨response, seen, read⟩ := step.publishes sound o member
      exact ⟨response, seen, read.later keeps⟩

/-- A request for the key of the manifest that is not the run's last one comes from an index
that lists its own manifest.
-/
theorem object_sent_listed {o : Object}
    (execution
      : (uploads sha256 decode).Execution
          (first ++ .did id (.call (.object o) (.sent request)) :: rest) bucket)
    (key : request.key = manifestKey)
    : ∃ objects, Label.opened id objects ∈ first ∧ ListsItself sha256 decode objects := by
  obtain ⟨before, after, head, step, -⟩ := execution.taken
  have lawful := lawful_execution head
  cases step with
  | @acts _ run _ next held step =>
      obtain ⟨began, sound⟩ := lawful.sound id run held
      have same := (step.sends sound).2
      exact ⟨run.objects, began,
        lawful.listed id run.objects began ⟨o, step.listed sound, same.symm.trans key⟩⟩

/-- A run that succeeds has read back its objects and its manifest. -/
theorem success_verified (execution : (uploads sha256 decode).Execution trace bucket)
    (returned : Label.did id (.returned (some bytes)) ∈ trace)
    (opened : Label.opened id objects ∈ trace)
    : (∀ o ∈ objects, Verified sha256 trace bucket id (.object o))
      ∧ Verified sha256 trace bucket id (.manifest bytes) := by
  have lawful := lawful_execution execution
  obtain ⟨run, held, phase⟩ := lawful.returned id (some bytes) returned
  have sound := (lawful.sound id run held).2
  rw [opened_unique execution opened held, phase] at sound
  exact sound

/-- Objects that were read back under one key have the same size and digest, when the responses
were whole.
-/
theorem Verified.agree {other : Nat} {o p : Object} (whole : ReadsWhole sha256 trace bucket)
    (left : Verified sha256 trace bucket id (.object o))
    (right : Verified sha256 trace bucket other (.object p)) (key : o.objectKey = p.objectKey)
    : o.bytes = p.bytes
      ∧ o.sha256 = p.sha256
      ∧ ∃ stored,
          bucket.store o.objectKey = some stored
          ∧ ∀ content, Describes sha256 o content ∨ Describes sha256 p content →
              NoCollision sha256 [stored, content] → content = stored := by
  obtain ⟨stored, held, described⟩ := left.stored whole
  obtain ⟨stored', held', described'⟩ := right.stored whole
  change bucket.store o.objectKey = some stored at held
  change bucket.store p.objectKey = some stored' at held'
  obtain rfl : stored = stored' := by
    rw [key, held', Option.some.injEq] at held
    exact held.symm
  refine ⟨described.bytes.symm.trans described'.bytes,
    described.sha.symm.trans described'.sha, stored, held, ?_⟩
  rintro content (file | file) secure
  · exact (described.unique secure file rfl).symm
  · exact (described'.unique secure file rfl).symm

/-- Manifests that were read back are the one that is stored, when the responses were whole. -/
theorem Verified.manifests {other : Nat} {bytes' : List UInt8}
    (whole : ReadsWhole sha256 trace bucket)
    (left : Verified sha256 trace bucket id (.manifest bytes))
    (right : Verified sha256 trace bucket other (.manifest bytes'))
    : ∃ stored,
        bucket.store manifestKey = some stored
        ∧ (NoCollision sha256 [stored, bytes, bytes'] → bytes = stored ∧ bytes' = stored) := by
  obtain ⟨stored, held, described⟩ := left.stored whole
  obtain ⟨stored', held', described'⟩ := right.stored whole
  obtain rfl : stored = stored' := Option.some.inj (held.symm.trans held')
  refine ⟨stored, held, fun secure => ⟨?_, ?_⟩⟩
  · exact ((described.unique (secure.subset (by simp)) (manifest_described bytes)) rfl).symm
  · exact ((described'.unique (secure.subset (by simp)) (manifest_described bytes')) rfl).symm

/-- Uploads into a bucket whose server only creates, for any number of runs and any behaviour
of the network: what is stored never changes; a run sends its manifest after it read every
object of its index back, and any other request for that key comes from an index that lists
its own manifest; a run succeeds only when its objects and its manifest were read back; and if
the responses that were accepted without a length were whole, successful runs agree on the
objects they share and on the manifest.
-/
theorem uploads_publish_verified (execution : (uploads sha256 decode).Execution trace bucket)
    : (∀ first second middle,
          (uploads sha256 decode).Execution first middle
          → (uploads sha256 decode).Path middle second bucket
          → Keeps middle.store bucket.store)
      ∧ (∀ first rest id slot request,
          trace = first ++ .did id (.call slot (.sent request)) :: rest
          → request.key = manifestKey
          → ∃ objects,
              Label.opened id objects ∈ first
              ∧ (∀ other, Label.opened id other ∈ trace → other = objects)
              ∧ ((∃ bytes, slot = .manifest bytes)
                  ∧ (∀ o ∈ objects, Verified sha256 first bucket id (.object o))
                ∨ (∃ o, slot = .object o) ∧ ListsItself sha256 decode objects))
      ∧ (∀ id bytes,
          Label.did id (.returned (some bytes)) ∈ trace
          → Verified sha256 trace bucket id (.manifest bytes)
            ∧ (∃ objects, Label.opened id objects ∈ trace)
            ∧ ∀ objects,
                Label.opened id objects ∈ trace
                → ∀ o ∈ objects, Verified sha256 trace bucket id (.object o))
      ∧ (ReadsWhole sha256 trace bucket
          → ∀ id id' bytes bytes' objects objects',
              Label.did id (.returned (some bytes)) ∈ trace
              → Label.did id' (.returned (some bytes')) ∈ trace
              → Label.opened id objects ∈ trace
              → Label.opened id' objects' ∈ trace
              → (∃ stored,
                  bucket.store manifestKey = some stored
                  ∧ (NoCollision sha256 [stored, bytes, bytes']
                    → bytes = stored ∧ bytes' = stored))
                ∧ ∀ o ∈ objects, ∀ p ∈ objects', o.objectKey = p.objectKey →
                    o.bytes = p.bytes
                    ∧ o.sha256 = p.sha256
                    ∧ ∃ stored,
                        bucket.store o.objectKey = some stored
                        ∧ ∀ content, Describes sha256 o content ∨ Describes sha256 p content →
                            NoCollision sha256 [stored, content] → content = stored) := by
  refine ⟨fun first second middle => stored_stays, ?sends, ?succeeds, ?agrees⟩
  case sends =>
    rintro first rest id slot request rfl key
    have only : ∀ {objects}, Label.opened id objects ∈ first → ∀ other,
        Label.opened id other ∈ first ++ .did id (.call slot (.sent request)) :: rest →
        other = objects := by
      intro objects early other late
      obtain ⟨run, held, same⟩ := (lawful_execution execution).opened id other late
      exact same.symm.trans (opened_unique execution (List.mem_append_left _ early) held)
    cases slot with
    | manifest bytes =>
        obtain ⟨-, objects, opened, all⟩ := manifest_sent_last execution
        exact ⟨objects, opened, only opened, Or.inl ⟨⟨bytes, rfl⟩, all⟩⟩
    | object o =>
        obtain ⟨objects, opened, listed⟩ := object_sent_listed execution key
        exact ⟨objects, opened, only opened, Or.inr ⟨⟨o, rfl⟩, listed⟩⟩
  case succeeds =>
    intro id bytes returned
    obtain ⟨run, held, -⟩ := (lawful_execution execution).returned id _ returned
    have opened := ((lawful_execution execution).sound id run held).1
    refine ⟨(success_verified execution returned opened).2, ⟨_, opened⟩, ?_⟩
    exact fun objects opened => (success_verified execution returned opened).1
  case agrees =>
    intro whole id id' bytes bytes' objects objects' returned returned' opened opened'
    obtain ⟨files, manifest⟩ := success_verified execution returned opened
    obtain ⟨files', manifest'⟩ := success_verified execution returned' opened'
    refine ⟨manifest.manifests whole manifest', ?_⟩
    intro o member p member' key
    exact (files o member).agree whole (files' p member') key

end Contract

-----------------------------------------------------------------------------------------
-- Samples
-----------------------------------------------------------------------------------------

/-- An object with one byte, which a digest that returns its bytes verifies. -/
def sampleObject : Object where
  objectKey := "Movie/A.mp4"
  assetKey := "Movie/A"
  artifactId := "f"
  label := "movie"
  contentType := "video/mp4"
  bytes := 1
  sha256 := "07"
  snapshot := "s"
  profile := "p"
  role := "color"
  exportId := "e"

/-- A longer object under the same key. -/
def longObject : Object := { sampleObject with bytes := 2, sha256 := "0708" }

/-- A tree with a manifest and a file under the key of these objects. -/
def sampleDisk (manifest file : List UInt8) : Disk :=
  [
    (["_meta"], .directory),
    (["_meta", "manifest.json"], .file manifest),
    (["Movie"], .directory),
    (["Movie", "A.mp4"], .file file)
  ].foldl (fun disk (path, node) => disk.create path node) Disk.empty

/-- A tree with the object; its manifest is the byte 1. -/
def sampleTree : Disk := sampleDisk [1] [7]

/-- A tree with the longer object; its manifest is longer too. -/
def longTree : Disk := sampleDisk [1, 2] [7, 8]

/-- The two manifests stand for indexes with these objects. -/
def sampleDecode (bytes : List UInt8) : Except String Index :=
  if bytes = [1] then .ok { Index.new with objects := [sampleObject] }
  else if bytes = [1, 2] then .ok { Index.new with objects := [longObject] }
  else .error "expected value"

/-- A bucket without anything. -/
def emptyBucket : Bucket where
  store := fun _ => none
  requests := []
  runs := fun _ => none

/-- What is selected of either tree. -/
def samplePrepared (object : Object) : Prepared where
  manifest := ["_meta", "manifest.json"]
  selected := [{ path := ["Movie", "A.mp4"], object }]

/-- A run on one of the trees ends with its manifest when the responses carry its own files, which
stand at the front of what is stored.
-/
theorem sample_passes {tree : Disk} {object : Object} {file bytes : List UInt8} {who : Nat}
    {bucket : Bucket} {allowed : Response → Prop} {length : List UInt8 → Option Nat}
    {content manifest : List UInt8} (fresh : bucket.runs who = none)
    (prepares : prepare id sampleDecode tree = .ok (samplePrepared object))
    (key : object.objectKey = "Movie/A.mp4") (few : object.bytes ≤ 2)
    (read : readSource tree ["Movie", "A.mp4"] = .ok file)
    (described : Describes id object file)
    (listed : readSource tree ["_meta", "manifest.json"] = .ok bytes) (short : bytes.length ≤ 2)
    (allows : ∀ bytes, allowed (carrying (length bytes) bytes))
    (served : serve bucket.store (putRequest object file) file "Movie/A.mp4" = some content)
    (served'
      : serve bucket.store (putRequest (manifestObject id bytes) bytes) bytes manifestKey
        = some manifest)
    (front : file <+: content) (front' : bytes <+: manifest)
    (stated : ∀ n, length file = some n → n = file.length ∧ n = content.length)
    (stated' : ∀ n, length bytes = some n → n = bytes.length ∧ n = manifest.length)
    : ∃ (trace : List Label) (later : Bucket),
        (uploads id sampleDecode).Path bucket
          (.opened who [object] :: (trace ++ [.did who (.returned (some bytes))])) later
        ∧ (∀ other ≠ who, later.runs other = bucket.runs other)
        ∧ Accepts allowed trace
        ∧ later.store manifestKey = some manifest
        ∧ later.store "Movie/A.mp4" = some content := by
  have passes : Passes id tree bucket.store ["Movie", "A.mp4"] object file
      (carrying (length file) file) := by
    refine ⟨read, few.trans (by decide), ?_,
      verifyResponse_whole described _ fun n own => (stated n own).1⟩
    rw [key, served]
    exact carrying_delivered front fun n own => (stated n own).2
  have manifestPasses : Passes id tree bucket.store ["_meta", "manifest.json"]
      (manifestObject id bytes) bytes (carrying (length bytes) bytes) := by
    refine ⟨listed, short.trans (by decide), ?_,
      verifyResponse_whole (manifest_described bytes) _ fun n own => (stated' n own).1⟩
    change Delivers (serve bucket.store _ bytes manifestKey) _
    rw [served']
    exact carrying_delivered front' fun n own => (stated' n own).2
  obtain ⟨trace, later, path, runs, accepts, stored, files⟩ :=
    @run_passes id sampleDecode who allowed tree _ { concurrency := 4, timeoutSeconds := 900 }
      bucket bytes _ fresh rfl prepares
      (List.forall_mem_singleton.mpr (by rw [key]; decide))
      (List.forall_mem_singleton.mpr ⟨file, _, allows file, passes⟩) (allows bytes)
      manifestPasses
  obtain ⟨body, own, held⟩ := files _ List.mem_cons_self
  obtain rfl := Except.ok.inj (read.symm.trans own)
  rw [key] at held
  exact ⟨trace, later, path, runs, accepts, stored.trans served', held.trans served⟩

/-- Two runs on one tree, the second of which finds everything stored, agree on what they have
published.
-/
theorem uploads_publish_verified_sample
    : ∃ trace bucket,
        (uploads id sampleDecode).Execution trace bucket
        ∧ Label.did 0 (.returned (some [1])) ∈ trace
        ∧ Label.did 1 (.returned (some [1])) ∈ trace
        ∧ bucket.store manifestKey = some [1]
        ∧ bucket.store "Movie/A.mp4" = some [7] := by
  have prepares : prepare id sampleDecode sampleTree = .ok (samplePrepared sampleObject) := by
    decide +kernel
  have read : readSource sampleTree ["Movie", "A.mp4"] = .ok [7] := by decide +kernel
  have listed : readSource sampleTree ["_meta", "manifest.json"] = .ok [1] := by decide +kernel
  have described : Describes id sampleObject [7] := ⟨rfl, by decide⟩
  have stated : ∀ (bytes : List UInt8) n,
      some bytes.length = some n → n = bytes.length ∧ n = bytes.length :=
    fun bytes n own => ⟨(Option.some.inj own).symm, (Option.some.inj own).symm⟩
  obtain ⟨first, middle, path, runs, accepts, stored, held⟩ :=
    @sample_passes sampleTree sampleObject [7] [1] 0 emptyBucket
      (fun response => response.contentLength ≠ none) (fun bytes => some bytes.length) [7] [1] rfl
      prepares rfl (by decide) read described listed (by decide) (fun _ => nofun) rfl rfl
      (List.prefix_refl _) (List.prefix_refl _) (stated [7]) (stated [1])
  have kept : serve middle.store (putRequest sampleObject [7]) [7] "Movie/A.mp4" = some [7] :=
    serve_keeps rfl [7] _ _ held
  have kept' : serve middle.store (putRequest (manifestObject id [1]) [1]) [1] manifestKey
      = some [1] :=
    serve_keeps rfl [1] _ _ stored
  obtain ⟨second, bucket, path', -, accepts', -, -⟩ :=
    @sample_passes sampleTree sampleObject [7] [1] 1 middle
      (fun response => response.contentLength ≠ none) (fun bytes => some bytes.length) [7] [1]
      (runs 1 (by decide)) prepares rfl (by decide) read described listed (by decide)
      (fun _ => nofun) kept kept' (List.prefix_refl _) (List.prefix_refl _) (stated [7])
      (stated [1])
  have initial : (uploads id sampleDecode).initial emptyBucket := ⟨rfl, fun _ => rfl⟩
  let trace : List Label :=
    .opened 0 [sampleObject] :: (first ++ [.did 0 (.returned (some [1]))])
    ++ .opened 1 [sampleObject] :: (second ++ [.did 1 (.returned (some [1]))])
  have execution : (uploads id sampleDecode).Execution trace bucket :=
    ⟨emptyBucket, initial, path.append path'⟩
  have whole : ReadsWhole id trace bucket := by
    intro who slot response member none
    have seen : Label.did who (.call slot (.readBack response)) ∈ first ++ second := by
      simpa [trace] using member
    exact absurd none (accepts.append accepts' who slot response seen)
  obtain ⟨-, -, -, agree⟩ := uploads_publish_verified execution
  have returned : Label.did 0 (.returned (some [1])) ∈ trace := by simp [trace]
  have returned' : Label.did 1 (.returned (some [1])) ∈ trace := by simp [trace]
  have collisionFree : ∀ inputs, NoCollision id inputs := fun _ _ _ _ _ same => same
  obtain ⟨⟨manifest, there, same⟩, objects⟩ := agree whole 0 1 [1] [1] [sampleObject]
    [sampleObject] returned returned' (by simp [trace]) (by simp [trace])
  obtain ⟨-, -, file, there', same'⟩ :=
    objects _ List.mem_cons_self _ List.mem_cons_self rfl
  refine ⟨_, bucket, execution, returned, returned', ?_, ?_⟩
  · rw [there, ← (same (collisionFree _)).1]
  · rw [← same' [7] (Or.inl described) (collisionFree _)] at there'
    exact there'

/-- A read that is cut short and states no length passes for an object that stands at the front of
what is stored: two runs succeed that do not agree on an object or on the manifest.
-/
theorem truncated_reads_disagree
    : ∃ trace bucket,
        (uploads id sampleDecode).Execution trace bucket
        ∧ Label.did 0 (.returned (some [1, 2])) ∈ trace
        ∧ Label.did 1 (.returned (some [1])) ∈ trace
        ∧ Label.opened 0 [longObject] ∈ trace
        ∧ Label.opened 1 [sampleObject] ∈ trace
        ∧ longObject.objectKey = sampleObject.objectKey
        ∧ longObject.sha256 ≠ sampleObject.sha256
        ∧ bucket.store manifestKey = some [1, 2]
        ∧ bucket.store sampleObject.objectKey = some [7, 8] := by
  have silent : ∀ (bytes content : List UInt8) n,
      none = some n → n = bytes.length ∧ n = content.length :=
    fun _ _ _ absurd' => by cases absurd'
  obtain ⟨first, middle, path, runs, -, stored, held⟩ :=
    @sample_passes longTree longObject [7, 8] [1, 2] 0 emptyBucket (fun _ => True)
      (fun _ => none) [7, 8] [1, 2] rfl (by decide +kernel) rfl (by decide) (by decide +kernel)
      ⟨rfl, by decide⟩ (by decide +kernel) (by decide) (fun _ => trivial) rfl rfl
      (List.prefix_refl _) (List.prefix_refl _) (silent _ _) (silent _ _)
  have kept : serve middle.store (putRequest sampleObject [7]) [7] "Movie/A.mp4" = some [7, 8] :=
    serve_keeps rfl [7] _ _ held
  have kept' : serve middle.store (putRequest (manifestObject id [1]) [1]) [1] manifestKey
      = some [1, 2] :=
    serve_keeps rfl [1] _ _ stored
  obtain ⟨second, bucket, path', -, -, stored, held⟩ :=
    @sample_passes sampleTree sampleObject [7] [1] 1 middle (fun _ => True) (fun _ => none) [7, 8]
      [1, 2] (runs 1 (by decide)) (by decide +kernel) rfl (by decide) (by decide +kernel)
      ⟨rfl, by decide⟩ (by decide +kernel) (by decide) (fun _ => trivial) kept kept'
      (by decide) (by decide) (silent _ _) (silent _ _)
  have initial : (uploads id sampleDecode).initial emptyBucket := ⟨rfl, fun _ => rfl⟩
  have execution : (uploads id sampleDecode).Execution _ bucket :=
    ⟨emptyBucket, initial, path.append path'⟩
  exact ⟨_, bucket, execution, by simp, by simp, by simp, by simp, rfl, by decide, stored, held⟩

end MoenotesAssets.Upload
