import MoenotesAssets.Upload.Client
import MoenotesAssets.Foundation.Transition
import Mathlib.Data.List.Infix

/-! Uploads into one bucket. Each run of `upload` holds at most `concurrency` calls of
`upload_object`, which stand at the points where other work may come between. The server
honours `If-None-Match: *` and deletes nothing; it may act on a request at any time after it
was sent, more than once, or never, whatever the sender is told.
-/

namespace MoenotesAssets.Upload
open Foundation ObjectTree

-----------------------------------------------------------------------------------------
-- Calls of `upload_object`
-----------------------------------------------------------------------------------------

/-- Where a call of `upload_object` stands: not yet polled, in `put` before and after `send`,
in `verify`, before the record of an attempt, in the pause between attempts, or returned.
-/
inductive Work where
  | waiting
  | putting (attempt : Nat)
  | sent (attempt : Nat)
  | verifying (attempt : Nat)
  | concluded (attempt : Nat) (verified : Bool)
  | resting (attempt : Nat)
  | returned (verified : Bool)
deriving DecidableEq

/-- A call that `buffer_unordered` counts. -/
def Work.active : Work → Bool
  | .waiting | .returned _ => false
  | _ => true

/-- A call that has seen its object verified. -/
def Work.verified : Work → Bool
  | .concluded _ verified | .returned verified => verified
  | _ => false

/-- The attempt that `select!` may leave. -/
def Work.inPut : Work → Option Nat
  | .putting attempt | .sent attempt | .verifying attempt => some attempt
  | _ => none

/-- What follows a recorded attempt. -/
def settle (cancelled : Bool) (attempt : Nat) (verified : Bool) : Work :=
  if verified then .returned true
  else if cancelled then .returned false
  else if attempt < 3 then .resting attempt
  else .returned false

/-- A call of `upload_object`. -/
structure Task where
  path : Path
  object : Object
  work : Work
deriving DecidableEq

/-- The call for a selected file. -/
def Selected.task (selected : Selected) : Task where
  path := selected.path
  object := selected.object
  work := .waiting

/-- What a call does to the outside: it sends a `PUT`, or it reads its object back. -/
inductive Event where
  | sent (request : PutRequest)
  | readBack (response : Response)
  | silent

/-- What a `GET` may deliver of what is stored: `200` only for an object that exists, with
its true length if any, and a stream that is cut short or goes on, whether it breaks off or
ends like a whole one.
-/
def Delivers (stored : Option (List UInt8)) (response : Response) : Prop :=
  response.status = 200
  → ∃ content,
      stored = some content
      ∧ (∀ n, response.contentLength = some n → n = content.length)
      ∧ (response.body <+: content ∨ content <+: response.body)

section Sha

variable (sha256 : List UInt8 → List UInt8)

/-- One step of a call, given what is stored, the local tree and the token. An attempt fails
at any time: the file is not read, the transport breaks, or the token is set.
-/
inductive Work.Step (store : String → Option (List UInt8)) (tree : Disk) (cancelled : Bool)
    (path : Path) (object : Object) : Work → Event → Work → Prop where
  | send {attempt request} (begun : beginPut tree path object = .ok request)
    : Step store tree cancelled path object (.putting attempt) (.sent request) (.sent attempt)
  | answer {attempt} (status : Nat)
    : Step store tree cancelled path object (.sent attempt) .silent
        (if acceptsStatus status then .verifying attempt else .concluded attempt false)
  | readBack {attempt response} (delivered : Delivers (store object.objectKey) response)
    (verified : verifyResponse sha256 object response = .ok ())
    : Step store tree cancelled path object (.verifying attempt) (.readBack response)
        (.concluded attempt true)
  | refuse {attempt response error} (delivered : Delivers (store object.objectKey) response)
    (refused : verifyResponse sha256 object response = .error error)
    : Step store tree cancelled path object (.verifying attempt) .silent
        (.concluded attempt false)
  | fail {work attempt} (attempting : work.inPut = some attempt)
    : Step store tree cancelled path object work .silent (.concluded attempt false)
  | record {attempt verified}
    : Step store tree cancelled path object (.concluded attempt verified) .silent
        (settle cancelled attempt verified)
  | unrecorded {attempt verified}
    : Step store tree cancelled path object (.concluded attempt verified) .silent
        (.returned false)
  | sleep {attempt}
    : Step store tree cancelled path object (.resting attempt) .silent (.putting (attempt + 1))
  | wake {attempt} (set : cancelled = true)
    : Step store tree cancelled path object (.resting attempt) .silent (.returned false)

-----------------------------------------------------------------------------------------
-- Runs of `upload`
-----------------------------------------------------------------------------------------

/-- Where a run stands: it drives its calls, or the one for its manifest, whose bytes it has
read; it has returned, with the manifest it published unless it failed; or it died.
-/
inductive Phase where
  | uploading (tasks : List Task)
  | publishing (bytes : List UInt8) (task : Task)
  | returned (manifest : Option (List UInt8))
  | died

/-- A run of `upload`. Its lock keeps exports away from the tree, but nothing else. -/
structure Run where
  tree : Disk
  manifest : Path
  objects : List Object
  concurrency : Nat
  cancelled : Bool
  phase : Phase

/-- A run that has prepared its uploads. -/
def Run.start (tree : Disk) (prepared : Prepared) (config : Config) (cancelled : Bool) : Run where
  tree
  manifest := prepared.manifest
  objects := prepared.selected.map Selected.object
  concurrency := config.concurrency
  cancelled
  phase := .uploading (prepared.selected.map Selected.task)

/-- What a call of a run is for. -/
inductive Slot where
  | object (o : Object)
  | manifest (bytes : List UInt8)

/-- The object of a slot. -/
def Slot.described : Slot → Object
  | .object o => o
  | .manifest bytes => manifestObject sha256 bytes

/-- What a run does to the outside. -/
inductive Action where
  | call (slot : Slot) (event : Event)
  | returned (manifest : Option (List UInt8))
  | silent

/-- The requests that an action sends. -/
def Action.requests : Action → List PutRequest
  | .call _ (.sent request) => [request]
  | _ => []

/-- One step of a run, of the holder of its token, or of anything else that changes its tree
or ends its process.
-/
inductive Run.Step (store : String → Option (List UInt8)) : Run → Action → Run → Prop where
  | start {run before task after}
    (phase : run.phase = .uploading (before ++ task :: after))
    (waits : task.work = .waiting)
    (earlier : ∀ other ∈ before, other.work ≠ .waiting)
    (room : before.countP (fun other => other.work.active) < run.concurrency)
    : Step store run (.call (.object task.object) .silent)
        { run with phase := .uploading (before ++ { task with work := .putting 1 } :: after) }
  | work {run before task after event work}
    (phase : run.phase = .uploading (before ++ task :: after))
    (step : Work.Step sha256 store run.tree run.cancelled task.path task.object task.work event
      work)
    : Step store run (.call (.object task.object) event)
        { run with phase := .uploading (before ++ { task with work } :: after) }
  | errors {run tasks}
    (phase : run.phase = .uploading tasks)
    (returned : ∀ task ∈ tasks, ∃ verified, task.work = .returned verified)
    (failed : ∃ task ∈ tasks, task.work = .returned false)
    : Step store run (.returned none) { run with phase := .returned none }
  | readManifest {run tasks bytes}
    (phase : run.phase = .uploading tasks)
    (verified : ∀ task ∈ tasks, task.work = .returned true)
    (read : readSource run.tree run.manifest = .ok bytes)
    : Step store run (.call (.manifest bytes) .silent) {
        run with
        phase := .publishing bytes {
          path := run.manifest
          object := manifestObject sha256 bytes
          work := .putting 1
        }
      }
  | manifestUnread {run tasks}
    (phase : run.phase = .uploading tasks)
    (verified : ∀ task ∈ tasks, task.work = .returned true)
    : Step store run (.returned none) { run with phase := .returned none }
  | publish {run bytes task event work}
    (phase : run.phase = .publishing bytes task)
    (step : Work.Step sha256 store run.tree run.cancelled task.path task.object task.work event
      work)
    : Step store run (.call (.manifest bytes) event)
        { run with phase := .publishing bytes { task with work } }
  | finish {run bytes task verified}
    (phase : run.phase = .publishing bytes task)
    (returned : task.work = .returned verified)
    : Step store run (.returned (if verified then some bytes else none))
        { run with phase := .returned (if verified then some bytes else none) }
  | cancel {run} : Step store run .silent { run with cancelled := true }
  | edit {run} (tree : Disk) : Step store run .silent { run with tree }
  | die {run} (running : ∀ manifest, run.phase ≠ .returned manifest)
    : Step store run .silent { run with phase := .died }

-----------------------------------------------------------------------------------------
-- The bucket
-----------------------------------------------------------------------------------------

/-- What is stored, the requests that were sent, and the runs. -/
structure Bucket where
  store : String → Option (List UInt8)
  requests : List PutRequest
  runs : Nat → Option Run

/-- The effect of a `PUT` of which `written` arrived: with `If-None-Match: *` it only creates. -/
def serve (store : String → Option (List UInt8)) (request : PutRequest) (written : List UInt8)
    : String → Option (List UInt8) :=
  if request.ifNoneMatch = some "*" ∧ (store request.key).isSome then store
  else Function.update store request.key (some written)

/-- What is seen of a step: a run began with an index, a run acted, or the server did. -/
inductive Label where
  | opened (id : Nat) (objects : List Object)
  | did (id : Nat) (action : Action)
  | served (request : PutRequest)

/-- One step of the bucket and its clients. -/
inductive Bucket.Step (decode : List UInt8 → Except String Index)
    : Bucket → Label → Bucket → Prop where
  | opens {bucket id tree config prepared} (cancelled : Bool)
    (fresh : bucket.runs id = none)
    (valid : Config.check config = .ok ())
    (prepares : prepare sha256 decode tree = .ok prepared)
    : Step decode bucket (.opened id (prepared.selected.map Selected.object)) {
        bucket with
        runs := Function.update bucket.runs id (some (.start tree prepared config cancelled))
      }
  | acts {bucket id run action after}
    (held : bucket.runs id = some run)
    (step : Run.Step sha256 bucket.store run action after)
    : Step decode bucket (.did id action) {
        bucket with
        requests := bucket.requests ++ action.requests
        runs := Function.update bucket.runs id (some after)
      }
  | serves {bucket request written}
    (sent : request ∈ bucket.requests)
    (arrived : written <+: request.body)
    : Step decode bucket (.served request)
        { bucket with store := serve bucket.store request written }

/-- Uploads into a bucket with any content. -/
def uploads (decode : List UInt8 → Except String Index) : System Bucket Label where
  initial := fun bucket => bucket.requests = [] ∧ ∀ id, bucket.runs id = none
  step := Bucket.Step sha256 decode

end Sha

end MoenotesAssets.Upload
