import MoenotesAssets.Upload.Safety

/-! How an upload goes on to its end when its calls are served at once and answered with what
passes their verification, whatever runs have left before it.
-/

namespace MoenotesAssets.Upload
open Foundation ObjectTree

section Course

variable {sha256 : List UInt8 → List UInt8} {decode : List UInt8 → Except String Index} {id : Nat}

-----------------------------------------------------------------------------------------
-- One call
-----------------------------------------------------------------------------------------

/-- A file that can be sent for an object, and a response that passes once it was served. -/
structure Passes (sha256 : List UInt8 → List UInt8) (tree : Disk)
    (store : String → Option (List UInt8)) (path : Path) (object : Object) (body : List UInt8)
    (response : Response)
    : Prop where
  read : readSource tree path = .ok body
  small : object.bytes ≤ 5 * 1024 * 1024 * 1024
  delivered
    : Delivers (serve store (putRequest object body) body object.objectKey) response
  verified : verifyResponse sha256 object response = .ok ()

/-- Serving a request depends on nothing but what is stored under its key. -/
theorem serve_own {store later : String → Option (List UInt8)} {request : PutRequest}
    (same : later request.key = store request.key) (written : List UInt8)
    : serve later request written request.key = serve store request written request.key := by
  rw [serve, serve, same]
  split
  · exact same
  · rw [Function.update_self, Function.update_self]

/-- Serving a request leaves the other keys. -/
theorem serve_other {store : String → Option (List UInt8)} {request : PutRequest} {key : String}
    (apart : key ≠ request.key) (written : List UInt8)
    : serve store request written key = store key := by
  rw [serve]
  split
  · rfl
  · rw [Function.update_of_ne apart]

/-- A file passes while what is stored under its key stays. -/
theorem Passes.kept {tree : Disk} {store later : String → Option (List UInt8)} {path : Path}
    {object : Object} {body : List UInt8} {response : Response}
    (passes : Passes sha256 tree store path object body response)
    (same : later object.objectKey = store object.objectKey)
    : Passes sha256 tree later path object body response :=
  { passes with
    delivered :=
      (@serve_own _ _ (putRequest object body) same body).symm ▸ passes.delivered }

/-- A response with some bytes, which states a length or not, and ends behind them. -/
def carrying (length : Option Nat) (bytes : List UInt8) : Response where
  status := 200
  contentLength := length
  chunks := [bytes]
  ended := true

/-- A response may carry what stands at the front of what is stored. -/
theorem carrying_delivered {length : Option Nat} {bytes content : List UInt8}
    (front : bytes <+: content) (stated : ∀ n, length = some n → n = content.length)
    : Delivers (some content) (carrying length bytes) := by
  intro _
  refine ⟨content, rfl, stated, Or.inl ?_⟩
  simpa [carrying, Response.body] using front

/-- What a call does that is served at once and passes. -/
def passingCall (id : Nat) (slot : Slot) (request : PutRequest) (response : Response)
    : List Label :=
  [
    .did id (.call slot (.sent request)),
    .served request,
    .did id (.call slot .silent),
    .did id (.call slot (.readBack response)),
    .did id (.call slot .silent)
  ]

/-- A bucket in which a request was sent and served. -/
def Bucket.taking (bucket : Bucket) (request : PutRequest) (body : List UInt8) : Bucket :=
  {
    bucket with
    store := serve bucket.store request body
    requests := bucket.requests ++ [request]
  }

/-- A bucket in which a run stands where it is told. -/
def Bucket.holding (bucket : Bucket) (id : Nat) (run : Run) : Bucket :=
  { bucket with runs := Function.update bucket.runs id (some run) }

/-- The run is found there. -/
theorem Bucket.holding_runs (bucket : Bucket) (id : Nat) (run : Run)
    : (bucket.holding id run).runs id = some run := by
  simp only [holding, Function.update_self]

/-- A run that acts stands behind its action. -/
theorem acts_alone {bucket : Bucket} {run after : Run} {action : Action}
    (step : Run.Step sha256 bucket.store run action after)
    : (uploads sha256 decode).step (bucket.holding id run) (.did id action)
        ({ bucket with requests := bucket.requests ++ action.requests }.holding id after) := by
  have taken : Bucket.Step sha256 decode (bucket.holding id run) (.did id action) _ :=
    .acts (bucket.holding_runs id run) step
  simp only [Bucket.holding, Function.update_idem] at taken
  exact taken

/-- An action without a request leaves everything but its run. -/
theorem acts_quietly {bucket : Bucket} {run after : Run} {action : Action}
    (quiet : action.requests = []) (step : Run.Step sha256 bucket.store run action after)
    : (uploads sha256 decode).step (bucket.holding id run) (.did id action)
        (bucket.holding id after) := by
  have taken := @acts_alone sha256 decode id _ _ _ _ step
  rwa [quiet, List.append_nil] at taken

/-- A call whose file passes is served, answered and verified. -/
theorem call_passes {tree : Disk} {wrap : Work → Run} {slot : Slot} {path : Path}
    {object : Object} {body : List UInt8} {response : Response} {bucket : Bucket}
    (lift
      : ∀ {store work event later},
          Work.Step sha256 store tree false path object work event later
          → Run.Step sha256 store (wrap work) (.call slot event) (wrap later))
    (passes : Passes sha256 tree bucket.store path object body response) (attempt : Nat)
    : (uploads sha256 decode).Path (bucket.holding id (wrap (.putting attempt)))
        (passingCall id slot (putRequest object body) response)
        ((bucket.taking (putRequest object body) body).holding id (wrap (.returned true))) := by
  have begun : beginPut tree path object = .ok (putRequest object body) := by
    simp only [beginPut, bind_ok, ensure_ok, pure_ok, decide_eq_true_eq]
    exact ⟨(), passes.small, body, passes.read, rfl⟩
  let sent : Bucket := { bucket with requests := bucket.requests ++ [putRequest object body] }
  let served : Bucket := bucket.taking (putRequest object body) body
  have sends : (uploads sha256 decode).step (bucket.holding id (wrap (.putting attempt))) _
      (sent.holding id (wrap (.sent attempt))) :=
    acts_alone (lift (.send begun))
  have serves : (uploads sha256 decode).step (sent.holding id (wrap (.sent attempt)))
      (.served (putRequest object body)) (served.holding id (wrap (.sent attempt))) :=
    .serves (List.mem_append_right _ List.mem_cons_self) (List.prefix_refl _)
  have answers : Work.Step sha256 served.store tree false path object (.sent attempt) .silent
      (.verifying attempt) :=
    .answer 200
  have checks : Work.Step sha256 served.store tree false path object (.verifying attempt)
      (.readBack response) (.concluded attempt true) :=
    .readBack passes.delivered passes.verified
  have records : Work.Step sha256 served.store tree false path object (.concluded attempt true)
      .silent (.returned true) :=
    .record
  exact ((((System.Path.here.next sends).next serves).next (acts_quietly rfl (lift answers))).next
    (acts_quietly rfl (lift checks))).next (acts_quietly rfl (lift records))

-----------------------------------------------------------------------------------------
-- One run
-----------------------------------------------------------------------------------------

variable {allowed : Response → Prop}

/-- The responses that runs accept along a trace are allowed. -/
def Accepts (allowed : Response → Prop) (trace : List Label) : Prop :=
  ∀ id slot response, Label.did id (.call slot (.readBack response)) ∈ trace → allowed response

/-- Two traces accept what each of them does. -/
theorem Accepts.append {first second : List Label} (head : Accepts allowed first)
    (tail : Accepts allowed second)
    : Accepts allowed (first ++ second) := by
  intro id slot response member
  rcases List.mem_append.mp member with early | late
  · exact head id slot response early
  · exact tail id slot response late

/-- A call that begins and passes accepts the response that it was answered with. -/
theorem Accepts.call {slot : Slot} {request : PutRequest} {response : Response}
    (held : allowed response)
    : Accepts allowed
        (.did id (.call slot .silent) :: passingCall id slot request response) := by
  intro other slot' response' member
  simp only [passingCall, List.mem_cons, List.not_mem_nil, or_false, Label.did.injEq,
    Action.call.injEq, reduceCtorEq, and_false, false_or, Event.readBack.injEq] at member
  rw [member.2.2]
  exact held

/-- The first call that waits behind calls that have ended begins and passes. -/
theorem next_passes {run : Run} {s : Selected} {done waiting : List Task} {bucket : Bucket}
    {body : List UInt8} {response : Response} (calm : run.cancelled = false)
    (room : 0 < run.concurrency) (settled : ∀ task ∈ done, task.work = .returned true)
    (passes : Passes sha256 run.tree bucket.store s.path s.object body response)
    : (uploads sha256 decode).Path
        (bucket.holding id { run with phase := .uploading (done ++ s.task :: waiting) })
        (.did id (.call (.object s.object) .silent)
          :: passingCall id (.object s.object) (putRequest s.object body) response)
        ((bucket.taking (putRequest s.object body) body).holding id
          {
            run with
            phase := .uploading (done ++ { s.task with work := .returned true } :: waiting)
          }) := by
  let wrap (work : Work) : Run :=
    { run with phase := .uploading (done ++ { s.task with work } :: waiting) }
  have idle : done.countP (fun other => other.work.active) = 0 := by
    refine List.countP_eq_zero.mpr fun task member => ?_
    rw [settled task member]
    exact Bool.false_ne_true
  have starts : Run.Step sha256 bucket.store (wrap .waiting)
      (.call (.object s.object) .silent) (wrap (.putting 1)) :=
    @Run.Step.start sha256 _ (wrap .waiting) done s.task waiting rfl rfl
      (fun other member waits => by rw [settled other member] at waits; cases waits)
      (by rw [idle]; exact room)
  have lift : ∀ {store work event later},
      Work.Step sha256 store run.tree false s.path s.object work event later
      → Run.Step sha256 store (wrap work) (.call (.object s.object) event) (wrap later) :=
    fun {store work event later} step =>
      @Run.Step.work sha256 store (wrap work) done { s.task with work } waiting event later rfl
        (calm ▸ step)
  have begun : (uploads sha256 decode).step (bucket.holding id (wrap .waiting))
      (.did id (.call (.object s.object) .silent)) (bucket.holding id (wrap (.putting 1))) :=
    acts_quietly rfl starts
  exact (System.Path.here.next begun).append (call_passes lift passes 1)

/-- The manifest is read once all calls have verified their objects, and its call passes. -/
theorem manifest_passes {run : Run} {tasks : List Task} {bucket : Bucket} {bytes : List UInt8}
    {response : Response} (calm : run.cancelled = false)
    (verified : ∀ task ∈ tasks, task.work = .returned true)
    (passes
      : Passes sha256 run.tree bucket.store run.manifest (manifestObject sha256 bytes) bytes
          response)
    : (uploads sha256 decode).Path
        (bucket.holding id { run with phase := .uploading tasks })
        (.did id (.call (.manifest bytes) .silent)
          :: passingCall id (.manifest bytes) (putRequest (manifestObject sha256 bytes) bytes)
            response)
        ((bucket.taking (putRequest (manifestObject sha256 bytes) bytes) bytes).holding id {
          run with
          phase := .publishing bytes {
            path := run.manifest
            object := manifestObject sha256 bytes
            work := .returned true
          }
        }) := by
  let wrap (work : Work) : Run := {
    run with
    phase := .publishing bytes {
      path := run.manifest
      object := manifestObject sha256 bytes
      work
    }
  }
  have reads : Run.Step sha256 bucket.store { run with phase := .uploading tasks }
      (.call (.manifest bytes) .silent) (wrap (.putting 1)) :=
    .readManifest rfl verified passes.read
  have lift : ∀ {store work event later},
      Work.Step sha256 store run.tree false run.manifest (manifestObject sha256 bytes) work event
        later
      → Run.Step sha256 store (wrap work) (.call (.manifest bytes) event) (wrap later) :=
    fun {store work event later} step =>
      @Run.Step.publish sha256 store (wrap work) bytes _ event later rfl (calm ▸ step)
  have turns : (uploads sha256 decode).step
      (bucket.holding id { run with phase := .uploading tasks })
      (.did id (.call (.manifest bytes) .silent)) (bucket.holding id (wrap (.putting 1))) :=
    acts_quietly rfl reads
  exact (System.Path.here.next turns).append (call_passes lift passes 1)

/-- The calls of a run pass one after the other, by induction on those that wait. -/
theorem calls_pass {run : Run} {selected : List Selected} {done : List Task} {bucket : Bucket}
    (calm : run.cancelled = false) (room : 0 < run.concurrency)
    (settled : ∀ task ∈ done, task.work = .returned true)
    (distinct : (selected.map fun s => s.object.objectKey).Nodup)
    (ready
      : ∀ s ∈ selected, ∃ body response,
          allowed response ∧ Passes sha256 run.tree bucket.store s.path s.object body response)
    : ∃ (trace : List Label) (later : Bucket) (tasks : List Task),
        (uploads sha256 decode).Path
          (bucket.holding id
            { run with phase := .uploading (done ++ selected.map Selected.task) })
          trace (later.holding id { run with phase := .uploading tasks })
        ∧ later.runs = bucket.runs
        ∧ Accepts allowed trace
        ∧ (∀ task ∈ tasks, task.work = .returned true)
        ∧ (∀ s ∈ selected,
            ∃ body,
              readSource run.tree s.path = .ok body
              ∧ later.store s.object.objectKey
                = serve bucket.store (putRequest s.object body) body s.object.objectKey)
        ∧ ∀ key ∉ selected.map fun s => s.object.objectKey,
            later.store key = bucket.store key := by
  induction selected generalizing done bucket with
  | nil =>
      rw [List.map_nil, List.append_nil]
      exact ⟨[], bucket, done, .here, rfl, fun _ _ _ member => (by cases member), settled,
        fun _ member => (by cases member), fun _ _ => rfl⟩
  | cons s rest ih =>
      obtain ⟨apart, distinct⟩ := List.nodup_cons.mp distinct
      obtain ⟨body, response, held, passes⟩ := ready s List.mem_cons_self
      let middle := bucket.taking (putRequest s.object body) body
      have others : ∀ key, key ≠ s.object.objectKey → middle.store key = bucket.store key :=
        fun key other => serve_other other body
      have done_settled : ∀ task ∈ done ++ [{ s.task with work := .returned true }],
          task.work = .returned true := by
        intro task member
        rcases List.mem_append.mp member with before | new
        · exact settled task before
        · rw [List.mem_singleton.mp new]
      have rest_ready : ∀ other ∈ rest, ∃ body response,
          allowed response
          ∧ Passes sha256 run.tree middle.store other.path other.object body response := by
        intro other member
        obtain ⟨content, response, held, passes⟩ := ready other (List.mem_cons_of_mem s member)
        refine ⟨content, response, held, passes.kept (others _ ?_)⟩
        intro same
        exact apart (List.mem_map.mpr ⟨other, member, same⟩)
      obtain ⟨second, last, tasks, path, runs, accepts, all, files, kept⟩ :=
        ih done_settled distinct rest_ready
      rw [List.append_assoc] at path
      refine ⟨_, last, tasks, (next_passes calm room settled passes).append path, runs,
        (Accepts.call held).append accepts, all, ?_, ?_⟩
      · intro other member
        rcases List.mem_cons.mp member with rfl | later
        · exact ⟨body, passes.read, kept _ apart⟩
        · obtain ⟨content, read, stored⟩ := files other later
          refine ⟨content, read, stored.trans ?_⟩
          refine @serve_own _ _ (putRequest other.object content) (others _ ?_) content
          intro same
          exact apart (List.mem_map.mpr ⟨other, later, same⟩)
      · intro key fresh
        rw [List.map_cons, List.mem_cons, not_or] at fresh
        rw [kept key fresh.2, others key fresh.1]

/-- A run whose files and manifest pass returns the manifest. -/
theorem start_passes {tree : Disk} {prepared : Prepared} {config : Config} {bucket : Bucket}
    {bytes : List UInt8} {response : Response} (room : 0 < config.concurrency)
    (distinct : (prepared.selected.map fun s => s.object.objectKey).Nodup)
    (unlisted : ∀ s ∈ prepared.selected, s.object.objectKey ≠ manifestKey)
    (ready
      : ∀ s ∈ prepared.selected, ∃ body response,
          allowed response ∧ Passes sha256 tree bucket.store s.path s.object body response)
    (held : allowed response)
    (manifest
      : Passes sha256 tree bucket.store prepared.manifest (manifestObject sha256 bytes) bytes
          response)
    : ∃ (trace : List Label) (later : Bucket) (run : Run),
        (uploads sha256 decode).Path (bucket.holding id (.start tree prepared config false))
          (trace ++ [.did id (.returned (some bytes))]) (later.holding id run)
        ∧ later.runs = bucket.runs
        ∧ Accepts allowed trace
        ∧ later.store manifestKey
          = serve bucket.store (putRequest (manifestObject sha256 bytes) bytes) bytes manifestKey
        ∧ ∀ s ∈ prepared.selected,
            ∃ body,
              readSource tree s.path = .ok body
              ∧ later.store s.object.objectKey
                = serve bucket.store (putRequest s.object body) body s.object.objectKey := by
  let run := Run.start tree prepared config false
  obtain ⟨first, sent, tasks, path, runs, accepts, all, files, kept⟩ :=
    @calls_pass sha256 decode id allowed run prepared.selected [] bucket rfl room
      (fun _ member => by cases member) distinct ready
  have apart : manifestKey ∉ prepared.selected.map fun s => s.object.objectKey := by
    intro member
    obtain ⟨s, listed, same⟩ := List.mem_map.mp member
    exact unlisted s listed same
  have own : sent.store (manifestObject sha256 bytes).objectKey
      = bucket.store (manifestObject sha256 bytes).objectKey :=
    kept _ apart
  have published := @manifest_passes sha256 decode id run tasks sent bytes response rfl all
    (manifest.kept own)
  refine ⟨_, _, _, (path.append published).next
    (acts_quietly rfl (@Run.Step.finish _ _ _ bytes _ true rfl rfl)), runs,
    accepts.append (Accepts.call held), serve_own own bytes, ?_⟩
  · intro s member
    obtain ⟨body, read, stored⟩ := files s member
    refine ⟨body, read, Eq.trans ?_ stored⟩
    exact serve_other (unlisted s member) bytes

/-- A run that is prepared begins and returns the manifest when its files and the manifest pass. -/
theorem run_passes {tree : Disk} {prepared : Prepared} {config : Config} {bucket : Bucket}
    {bytes : List UInt8} {response : Response} (fresh : bucket.runs id = none)
    (valid : Config.check config = .ok ()) (prepares : prepare sha256 decode tree = .ok prepared)
    (unlisted : ∀ s ∈ prepared.selected, s.object.objectKey ≠ manifestKey)
    (ready
      : ∀ s ∈ prepared.selected, ∃ body response,
          allowed response ∧ Passes sha256 tree bucket.store s.path s.object body response)
    (held : allowed response)
    (manifest
      : Passes sha256 tree bucket.store prepared.manifest (manifestObject sha256 bytes) bytes
          response)
    : ∃ (trace : List Label) (later : Bucket),
        (uploads sha256 decode).Path bucket
          (.opened id (prepared.selected.map Selected.object)
            :: (trace ++ [.did id (.returned (some bytes))]))
          later
        ∧ (∀ other ≠ id, later.runs other = bucket.runs other)
        ∧ Accepts allowed trace
        ∧ later.store manifestKey
          = serve bucket.store (putRequest (manifestObject sha256 bytes) bytes) bytes manifestKey
        ∧ ∀ s ∈ prepared.selected,
            ∃ body,
              readSource tree s.path = .ok body
              ∧ later.store s.object.objectKey
                = serve bucket.store (putRequest s.object body) body s.object.objectKey := by
  have room : 0 < config.concurrency := by
    simp only [Config.check, ensure_ok, Bool.and_eq_true, decide_eq_true_eq] at valid
    exact valid.1.1
  have distinct := prepare_distinct prepares
  rw [List.map_map] at distinct
  have opens : (uploads sha256 decode).step bucket
      (.opened id (prepared.selected.map Selected.object))
      (bucket.holding id (.start tree prepared config false)) :=
    .opens false fresh valid prepares
  obtain ⟨trace, later, run, path, runs, accepts, stored, files⟩ :=
    @start_passes sha256 decode id allowed tree prepared config bucket bytes response room distinct
      unlisted ready held manifest
  refine ⟨trace, later.holding id run, (System.Path.here.next opens).append path, ?_, accepts,
    stored, files⟩
  intro other apart
  exact (Function.update_of_ne apart _ _).trans (congrFun runs other)

end Course

end MoenotesAssets.Upload
