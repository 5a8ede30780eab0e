import MoenotesAssets.ObjectTree.Export
import MoenotesAssets.Foundation.Http

/-! `upload.rs` without its tasks: what an upload selects from a tree, the conditional `PUT`
of an object, and the verification of what a `GET` delivers.
-/

namespace MoenotesAssets.Upload
open Foundation ObjectTree

-----------------------------------------------------------------------------------------
-- Requests
-----------------------------------------------------------------------------------------

/-- The key under which a tree is published. -/
def manifestKey : String := "_meta/manifest.json"

/-- A `PUT` as `S3::put` sends it; `body` is what the file holds. -/
structure PutRequest where
  key : String
  ifNoneMatch : Option String
  contentType : String
  metaSha256 : String
  contentLength : Nat
  body : List UInt8
deriving DecidableEq

/-- The part of `Config` that the requests do not carry. -/
structure Config where
  concurrency : Nat
  timeoutSeconds : Nat
deriving DecidableEq

/-- The limits that `S3::new` checks. -/
def Config.check (config : Config) : Except String Unit :=
  ensure (decide (1 ≤ config.concurrency ∧ config.concurrency ≤ 32)
      && decide (1 ≤ config.timeoutSeconds ∧ config.timeoutSeconds ≤ 7200))
    "invalid upload limits"

-----------------------------------------------------------------------------------------
-- `S3::put`
-----------------------------------------------------------------------------------------

/-- The request for an object whose file holds `body`. -/
def putRequest (o : Object) (body : List UInt8) : PutRequest where
  key := o.objectKey
  ifNoneMatch := some "*"
  contentType := o.contentType
  metaSha256 := o.sha256
  contentLength := o.bytes
  body

/-- `S3::put` up to `send`. -/
def beginPut (tree : Disk) (path : Path) (o : Object) : Except String PutRequest := do
  ensure (o.bytes ≤ 5 * 1024 * 1024 * 1024) "single PUT exceeds 5 GiB; multipart unsupported"
  let body ← readSource tree path
  return putRequest o body

/-- The statuses after which `S3::put` verifies the object. -/
def acceptsStatus (status : Nat) : Bool := (200 ≤ status && status < 300) || status = 412

section Sha

variable (sha256 : List UInt8 → List UInt8)

-----------------------------------------------------------------------------------------
-- `S3::verify`
-----------------------------------------------------------------------------------------

/-- One chunk of the stream; the bytes received so far stand for `count` and `hash`. -/
def receive (o : Object) (received chunk : List UInt8) : Except String (List UInt8) := do
  let received := received ++ chunk
  let count := received.length
  let actual := digest sha256 received
  ensure (count ≤ o.bytes)
    s!"S3 verification excess bytes: received={count}, sha256={actual}"
  return received

/-- `S3::verify` from the response on. -/
def verifyResponse (o : Object) (response : Response) : Except String Unit := do
  let status := response.status
  ensure (status = 200) s!"S3 verification HTTP {status}"
  ensure (response.contentLength.all fun n => n = o.bytes)
    "S3 verification Content-Length mismatch"
  let received ← response.chunks.foldlM (receive sha256 o) []
  let count := received.length
  let actual := digest sha256 received
  ensure response.ended s!"S3 verification interrupted: received={count}, sha256={actual}"
  ensure (count = o.bytes && actual = o.sha256)
    s!"S3 verification mismatch: received={count}, sha256={actual}"

/-- The file content that an object describes. -/
structure Describes (o : Object) (content : List UInt8) : Prop where
  bytes : content.length = o.bytes
  sha : digest sha256 content = o.sha256

-----------------------------------------------------------------------------------------
-- `upload` before its first task
-----------------------------------------------------------------------------------------

/-- A file with its object. -/
structure Selected where
  path : Path
  object : Object
deriving DecidableEq

/-- The keys seen and the files selected so far. -/
structure Selection where
  seen : List String
  selected : List Selected

/-- One object of the index: its key is new and its file is verified. -/
def Selection.add (tree : Disk) (selection : Selection) (o : Object)
    : Except String Selection := do
  ensure (!selection.seen.contains o.objectKey) "duplicate upload key"
  let path ← safeDestination tree o.objectKey
  verify sha256 tree path o.bytes o.sha256
  return {
    seen := o.objectKey :: selection.seen
    selected := selection.selected ++ [{ path, object := o }]
  }

/-- What an upload takes from its tree before it sends anything. -/
structure Prepared where
  manifest : Path
  selected : List Selected
deriving DecidableEq

/-- `upload` up to its stream of tasks. `decode` is `serde_json::from_slice`. -/
def prepare (decode : List UInt8 → Except String Index) (tree : Disk)
    : Except String Prepared := do
  let _ ← safeDestination tree "_meta/tree.lock"
  let manifest ← safeDestination tree manifestKey
  ensure (tree.node manifest ≠ some .symlink) "manifest symlink refused"
  let bytes ← readSource tree manifest
  let index ← decode bytes
  ensure (index.schema = "moenotes-assets-object-index/v2") "unsupported upload manifest"
  let selection ←
    index.objects.foldlM (Selection.add sha256 tree) { seen := [], selected := [] }
  let _ ← safeDestination tree "_meta/upload-local.jsonl"
  return { manifest, selected := selection.selected }

/-- The object of the manifest. -/
def manifestObject (bytes : List UInt8) : Object where
  objectKey := manifestKey
  assetKey := "_meta"
  artifactId := "manifest"
  label := "manifest"
  contentType := "application/json"
  bytes := bytes.length
  sha256 := digest sha256 bytes
  snapshot := ""
  profile := ""
  role := "manifest"
  exportId := ""

-----------------------------------------------------------------------------------------
-- What verification establishes
-----------------------------------------------------------------------------------------

variable {sha256} {o : Object} {response : Response}

/-- A chunk that is accepted is appended. -/
theorem receive_ok {received chunk next : List UInt8}
    (accepted : receive sha256 o received chunk = .ok next)
    : next = received ++ chunk := by
  obtain ⟨_, -, accepted⟩ := bind_ok.mp accepted
  exact (pure_ok.mp accepted).symm

/-- A verified response arrived whole and with the size and the digest of the object. -/
theorem verifyResponse_ok {done : Unit} (verified : verifyResponse sha256 o response = .ok done)
    : response.status = 200
      ∧ (∀ n, response.contentLength = some n → n = o.bytes)
      ∧ response.ended = true
      ∧ Describes sha256 o response.body := by
  simp only [verifyResponse, bind_ok, ensure_ok, decide_eq_true_eq, Bool.and_eq_true] at verified
  obtain ⟨_, status, _, length, received, stream, _, ended, bytes, sha⟩ := verified
  obtain rfl : received = response.body :=
    Response.received_all (fun _ _ _ => receive_ok) stream
  refine ⟨status, ?_, ended, bytes, sha⟩
  intro n stated
  simpa [stated] using length

/-- A response that carries the file an object describes is verified. -/
theorem verifyResponse_whole {content : List UInt8} (described : Describes sha256 o content)
    (length : Option Nat) (stated : ∀ n, length = some n → n = content.length)
    : verifyResponse sha256 o {
        status := 200
        contentLength := length
        chunks := [content]
        ended := true
      } = .ok () := by
  have declared : (length.all fun n => n = o.bytes) = true := by
    cases length with
    | none => rfl
    | some n => simpa [← described.bytes] using stated n rfl
  have received : [content].foldlM (receive sha256 o) [] = .ok content := by
    rw [List.foldlM_cons, receive, List.nil_append, ensure_passes]
    · rfl
    · simpa using described.bytes.le
  simp only [verifyResponse, bind_ok, ensure_ok]
  refine ⟨(), by simp, (), declared, content, received, (), trivial, ?_⟩
  simp [described.bytes, described.sha]

/-- Objects of one digest describe one content, unless two contents collide. -/
theorem Describes.unique {left right : List UInt8} {p : Object}
    (secure : NoCollision sha256 [left, right]) (first : Describes sha256 o left)
    (second : Describes sha256 p right) (same : o.sha256 = p.sha256)
    : left = right :=
  digest_inj secure (by simp) (by simp) (first.sha.trans (same.trans second.sha.symm))

/-- What describes the manifest is the manifest. -/
theorem manifest_described (bytes : List UInt8)
    : Describes sha256 (manifestObject sha256 bytes) bytes :=
  ⟨rfl, rfl⟩

-----------------------------------------------------------------------------------------
-- What an upload selects
-----------------------------------------------------------------------------------------

variable {tree : Disk} {decode : List UInt8 → Except String Index} {prepared : Prepared}

/-- A file that was found where its object says, with the content it says. -/
def Selected.Found (sha256 : List UInt8 → List UInt8) (tree : Disk) (selected : Selected) : Prop :=
  safeDestination tree selected.object.objectKey = .ok selected.path
  ∧ ∃ content,
      readSource tree selected.path = .ok content ∧ Describes sha256 selected.object content

/-- A verified file holds what its object describes. -/
theorem verify_reads {path : Path} {done : Unit}
    (verified : verify sha256 tree path o.bytes o.sha256 = .ok done)
    : ∃ content, readSource tree path = .ok content ∧ Describes sha256 o content := by
  unfold verify at verified
  split at verified
  case h_1 content found =>
    simp only [bind_ok, ensure_ok, decide_eq_true_eq] at verified
    obtain ⟨_, bytes, sha⟩ := verified
    exact ⟨content, by rw [readSource, found], bytes, sha⟩
  case h_2 => cases verified

/-- The selected files are those of the index, in its order, by induction on the index. -/
theorem selection_complete {objects : List Object} {selection last : Selection}
    (done : objects.foldlM (Selection.add sha256 tree) selection = .ok last)
    (found : ∀ selected ∈ selection.selected, selected.Found sha256 tree)
    : last.selected.map Selected.object = selection.selected.map Selected.object ++ objects
      ∧ ∀ selected ∈ last.selected, selected.Found sha256 tree := by
  induction objects generalizing selection with
  | nil =>
      obtain rfl := pure_ok.mp done
      exact ⟨(List.append_nil _).symm, found⟩
  | cons o rest ih =>
      rw [List.foldlM_cons] at done
      obtain ⟨next, step, done⟩ := bind_ok.mp done
      simp only [Selection.add, bind_ok, ensure_ok] at step
      obtain ⟨_, -, path, safe, _, verified, step⟩ := step
      obtain rfl := pure_ok.mp step
      obtain ⟨same, all⟩ := ih done (by
        intro selected member
        rcases List.mem_append.mp member with earlier | new
        · exact found selected earlier
        · obtain rfl := List.mem_singleton.mp new
          exact ⟨safe, verify_reads verified⟩)
      refine ⟨?_, all⟩
      rw [same, List.map_append, List.append_assoc]
      rfl

/-- A safe destination is the path that its text spells. -/
theorem safeDestination_path {relative : String} {path : Path}
    (safe : safeDestination tree relative = .ok path)
    : path = splitPath relative := by
  simp only [safeDestination, bind_ok] at safe
  obtain ⟨_, -, _, -, safe⟩ := safe
  exact (pure_ok.mp safe).symm

/-- A prepared upload selects the objects of the index that its manifest holds, each found in
the tree.
-/
theorem prepare_ok (done : prepare sha256 decode tree = .ok prepared)
    : ∃ bytes index,
        readSource tree (splitPath manifestKey) = .ok bytes
        ∧ decode bytes = .ok index
        ∧ prepared.manifest = splitPath manifestKey
        ∧ prepared.selected.map Selected.object = index.objects
        ∧ ∀ selected ∈ prepared.selected, selected.Found sha256 tree := by
  simp only [prepare, bind_ok] at done
  obtain ⟨_, -, manifest, safe, _, -, bytes, read, index, decoded, _, -, selection, folded,
    _, -, done⟩ := done
  obtain rfl := pure_ok.mp done
  obtain rfl := safeDestination_path safe
  obtain ⟨same, found⟩ := selection_complete folded (by
    intro selected member
    cases member)
  exact ⟨bytes, index, read, decoded, rfl, same, found⟩

/-- An index that lists the manifest itself lists the digest of the manifest it stands in. -/
theorem prepare_lists_manifest (done : prepare sha256 decode tree = .ok prepared) {o : Object}
    (listed : o ∈ prepared.selected.map Selected.object) (key : o.objectKey = manifestKey)
    : ∃ bytes index,
        decode bytes = .ok index
        ∧ index.objects = prepared.selected.map Selected.object
        ∧ o.sha256 = digest sha256 bytes := by
  obtain ⟨bytes, index, read, decoded, -, same, found⟩ := prepare_ok done
  obtain ⟨selected, member, rfl⟩ := List.mem_map.mp listed
  obtain ⟨safe, content, held, described⟩ := found selected member
  rw [safeDestination_path safe, key, read] at held
  cases held
  exact ⟨bytes, index, decoded, same.symm, described.sha.symm⟩

/-- The objects that are selected have different keys, by induction on them. -/
theorem selection_distinct {objects : List Object} {selection last : Selection}
    (done : objects.foldlM (Selection.add sha256 tree) selection = .ok last)
    : (∀ o ∈ objects, o.objectKey ∉ selection.seen) ∧ (objects.map Object.objectKey).Nodup := by
  induction objects generalizing selection with
  | nil => exact ⟨fun _ member => absurd member List.not_mem_nil, List.nodup_nil⟩
  | cons o rest ih =>
      rw [List.foldlM_cons] at done
      obtain ⟨next, step, done⟩ := bind_ok.mp done
      simp only [Selection.add, bind_ok, ensure_ok] at step
      obtain ⟨_, new, path, -, _, -, step⟩ := step
      obtain rfl := pure_ok.mp step
      obtain ⟨fresh, distinct⟩ := ih done
      have unseen : o.objectKey ∉ selection.seen := by simpa using new
      constructor
      · intro p member
        rcases List.mem_cons.mp member with rfl | later
        · exact unseen
        · exact fun known => fresh p later (List.mem_cons_of_mem _ known)
      · rw [List.map_cons, List.nodup_cons]
        refine ⟨fun again => ?_, distinct⟩
        obtain ⟨p, later, same⟩ := List.mem_map.mp again
        exact fresh p later (same ▸ List.mem_cons_self)

/-- A prepared upload has no key twice. -/
theorem prepare_distinct (done : prepare sha256 decode tree = .ok prepared)
    : ((prepared.selected.map Selected.object).map Object.objectKey).Nodup := by
  obtain ⟨bytes, index, read, decoded, -, same, -⟩ := prepare_ok done
  simp only [prepare, bind_ok] at done
  obtain ⟨_, -, manifest, safe, _, -, bytes', read', index', decoded', _, -, selection, folded,
    _⟩ := done
  obtain rfl := safeDestination_path safe
  obtain rfl : bytes = bytes' := Except.ok.inj (read.symm.trans read')
  obtain rfl : index = index' := Except.ok.inj (decoded.symm.trans decoded')
  rw [same]
  exact (selection_distinct folded).2

end Sha

end MoenotesAssets.Upload
