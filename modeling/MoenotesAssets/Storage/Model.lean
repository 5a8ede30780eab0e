import MoenotesAssets.SharedWork.Model

/-! Temporary storage of `service.rs`: the byte budget, the downloads that reserve from it
through `shared::join`, and the worker space an export reserves.
-/

namespace MoenotesAssets.Storage

open Foundation Foundation.Arena Foundation.Machine

-----------------------------------------------------------------------------------------
-- The budget
-----------------------------------------------------------------------------------------

/-- `service::Budget` -/
structure Budget where
  used : Nat
  max : Nat
deriving DecidableEq

/-- `Budget::reserve`, whose caller keeps a `Reservation` of `bytes`. -/
def Budget.reserve (budget : Budget) (bytes : Nat) : Option Budget :=
  ((checkedAdd budget.used bytes).filter (fun used => used ≤ budget.max)).map
    (fun used => { budget with used })

/-- The drop of a `Reservation` of `bytes`. -/
def Budget.release (budget : Budget) (bytes : Nat) : Budget :=
  { budget with used := wrappingSub budget.used bytes }

-----------------------------------------------------------------------------------------
-- Downloads
-----------------------------------------------------------------------------------------

/-- The settings of `config.rs` that bound temporary storage. -/
structure Limits where
  tempBytes : Nat
  inputBytes : Nat
  outputBytes : Nat
  expandedBytes : Nat
deriving DecidableEq

/-- What an export reserves for its worker. -/
def Limits.workerBytes (limits : Limits) : Nat :=
  limits.outputBytes + limits.expandedBytes * 2

/-- The value a download producer returns, with the bytes its `Reservation` holds. -/
structure Download where
  bytes : Nat
deriving DecidableEq

/-- How the closure of a download ends without a value. -/
inductive Ending where
  | error (message : String)
  | panic
deriving DecidableEq

/-- Who drops the last `Arc` of a `Shared<Download>`. -/
inductive Agent where
  | caller (index : Nat)
  | producer (shared : Nat)
deriving DecidableEq

/-- Where the closure of `App::download` stands, and then its value. `unwinding` and
`dropping` remove the directory first and release the reservation last: the order in which
the locals of the closure and the fields of a `Download` are dropped.
-/
inductive Phase where
  | idle
  | slot
  | measured
  | reserved
  | prepared
  | receiving (received : Nat)
  | ready
  | unwinding (ending : Ending)
  | failed (ending : Ending)
  | stored
  | dropping (agent : Agent)
  | freed
deriving DecidableEq

/-- The closure may still end without a value. -/
def Phase.fallible : Phase → Bool
  | .slot | .measured | .reserved | .prepared | .receiving _ => true
  | _ => false

/-- The directory and the reservation are being given up. -/
def Phase.letsGo : Phase → Bool
  | .unwinding _ | .dropping _ => true
  | _ => false

/-- The phase after the reservation was released. -/
def Phase.released : Phase → Phase
  | .unwinding ending => .failed ending
  | .dropping _ => .freed
  | phase => phase

/-- One download: `opts.size` of its location, the bytes of its live `Reservation`, and
the bytes in the payload file of its directory, if that exists.
-/
structure Job where
  size : Option Nat
  phase : Phase
  reservation : Option Nat
  payload : Option Nat
deriving DecidableEq

/-- A download whose producer has not started. -/
def Job.new (size : Option Nat) : Job :=
  { size, phase := .idle, reservation := none, payload := none }

inductive JobLabel where
  | measure
  | reserve
  | directory
  | file
  | chunk
  | succeed
  | fail
  | removeDirectory
  | release
  | settle

/-- One step of a download on its own directory and on the budget. A chunk is counted
before all of its bytes reach the file, and the file is synced before success.
-/
inductive JobStep (limits : Limits) : Job → Budget → JobLabel → Job → Budget → Prop where
  | measure {job budget size} (at' : job.phase = .slot) (sized : job.size = some size)
    (fits : 0 < size ∧ size ≤ limits.inputBytes)
    : JobStep limits job budget .measure { job with phase := .measured } budget
  | reserve {job budget size budget'} (at' : job.phase = .measured)
    (sized : job.size = some size) (reserved : budget.reserve size = some budget')
    : JobStep limits job budget .reserve
        { job with phase := .reserved, reservation := some size } budget'
  | directory {job budget} (at' : job.phase = .reserved)
    : JobStep limits job budget .directory
        { job with phase := .prepared, payload := some 0 } budget
  | file {job budget} (at' : job.phase = .prepared)
    : JobStep limits job budget .file { job with phase := .receiving 0 } budget
  | chunk {job budget size received length written} (at' : job.phase = .receiving received)
    (sized : job.size = some size) (fits : received + length ≤ size)
    (buffered : written ≤ received + length)
    : JobStep limits job budget .chunk
        { job with phase := .receiving (received + length), payload := some written } budget
  | succeed {job budget size} (at' : job.phase = .receiving size)
    (sized : job.size = some size)
    : JobStep limits job budget .succeed
        { job with phase := .ready, payload := some size } budget
  | fail {job budget ending} (running : job.phase.fallible = true)
    : JobStep limits job budget .fail { job with phase := .unwinding ending } budget
  | removeDirectory {job budget written} (leaves : job.phase.letsGo = true)
    (exists' : job.payload = some written)
    : JobStep limits job budget .removeDirectory { job with payload := none } budget
  | release {job budget bytes} (leaves : job.phase.letsGo = true)
    (removed : job.payload = none) (holds : job.reservation = some bytes)
    : JobStep limits job budget .release
        { job with phase := job.phase.released, reservation := none }
        (budget.release bytes)
  | settle {job budget ending} (at' : job.phase = .unwinding ending)
    (removed : job.payload = none) (free : job.reservation = none)
    : JobStep limits job budget .settle { job with phase := .failed ending } budget

-----------------------------------------------------------------------------------------
-- The service
-----------------------------------------------------------------------------------------

/-- The storage part of one `export_one`: before its reservation, with it, or ended. -/
inductive Export where
  | running
  | holding (bytes : Nat)
  | ended
deriving DecidableEq

/-- The registry of downloads, the download of each `Shared` by its index, the exports and
the budget they share.
-/
structure State where
  work : SharedWork.State Download
  jobs : List Job
  exports : List Export
  budget : Budget

/-- A service that has just been opened. -/
def State.open (limits : Limits) : State :=
  { work := .empty, jobs := [], exports := [], budget := { used := 0, max := limits.tempBytes } }

/-- The bytes of the `Reservation` of a download. -/
def Job.held (job : Job) : Nat := job.reservation.getD 0

/-- The bytes in the payload file of a download. -/
def Job.present (job : Job) : Nat := job.payload.getD 0

/-- The bytes of the `Reservation` of an export. -/
def Export.held : Export → Nat
  | .holding bytes => bytes
  | _ => 0

/-- The agent of a registry step, who runs the drops it causes. -/
def agentOf : SharedWork.Label Download → Agent
  | .enter caller _ | .attach caller _ | .create caller _ | .receive caller _ _
  | .leave caller _ | .cancel caller _ | .release caller _ => .caller caller
  | .start shared | .complete shared _ | .fail shared _ | .panic shared | .publish shared _
  | .finish shared => .producer shared

/-- The registry learns of a closure's end from the closure itself. -/
def Allowed (jobs : List Job) : SharedWork.Label Download → Prop
  | .complete shared value =>
      ∃ job,
        jobs[shared]? = some job ∧ job.phase = .ready ∧ job.reservation = some value.bytes
  | .fail shared error =>
      ∃ job, jobs[shared]? = some job ∧ job.phase = .failed (.error error)
  | .panic shared => ∃ job, jobs[shared]? = some job ∧ job.phase = .failed .panic
  | _ => True

/-- What a registry step does to the closures: a new `Shared` has a new one, which starts
with its producer and hands its value over when it completes.
-/
def Job.follow (label : SharedWork.Label Download) (shared : Nat) (job : Job) : Job :=
  match label with
  | .start other => if other = shared then { job with phase := .slot } else job
  | .complete other _ => if other = shared then { job with phase := .stored } else job
  | _ => job

/-- The jobs that follow the registry, one for each `Shared` after the step. -/
def followJobs (sizes : String → Option Nat) (label : SharedWork.Label Download)
    (after : SharedWork.State Download) (jobs : List Job)
    : List Job :=
  jobs.mapIdx (fun shared job => job.follow label shared)
  ++ (after.shareds.drop jobs.length).map (fun entry => Job.new (sizes entry.key))

/-- The drop of the last `Arc` of a `Shared` drops its `Download`. -/
def sweepJobs (agent : Agent) (after : SharedWork.State Download) (jobs : List Job)
    : List Job :=
  jobs.mapIdx
    (fun shared job =>
      if job.phase = .stored ∧ after.strongCount shared = 0 then
        { job with phase := .dropping agent }
      else job)

inductive Label where
  | work (label : SharedWork.Label Download)
  | job (shared : Nat) (label : JobLabel)
  | beginExport
  | reserveExport (index : Nat)
  | endExport (index : Nat)

/-- One step of the registry, of a download or of an export. `sizes` gives the declared
size of the location a download key names, if it has options.
-/
inductive Step (limits : Limits) (sizes : String → Option Nat)
    : State → Label → State → Prop where
  | work {state label after} (taken : SharedWork.Step state.work label after)
    (allowed : Allowed state.jobs label)
    : Step limits sizes state (.work label)
        {
          state with
          work := after
          jobs := sweepJobs (agentOf label) after (followJobs sizes label after state.jobs)
        }
  | job {state shared job label job' budget} (found : state.jobs[shared]? = some job)
    (moved : JobStep limits job state.budget label job' budget)
    : Step limits sizes state (.job shared label)
        { state with jobs := state.jobs.set shared job', budget }
  | beginExport {state}
    : Step limits sizes state .beginExport { state with exports := state.exports ++ [.running] }
  | reserveExport {state index budget} (found : state.exports[index]? = some .running)
    (reserved : state.budget.reserve limits.workerBytes = some budget)
    : Step limits sizes state (.reserveExport index)
        { state with exports := state.exports.set index (.holding limits.workerBytes), budget }
  | endUnreserved {state index} (found : state.exports[index]? = some .running)
    : Step limits sizes state (.endExport index)
        { state with exports := state.exports.set index .ended }
  | endReserved {state index bytes} (found : state.exports[index]? = some (.holding bytes))
    : Step limits sizes state (.endExport index)
        {
          state with
          exports := state.exports.set index .ended
          budget := state.budget.release bytes
        }

/-- The temporary storage of a running service, from its opening on. -/
def system (limits : Limits) (sizes : String → Option Nat) : System State Label where
  initial state := state = .open limits
  step := Step limits sizes

-----------------------------------------------------------------------------------------
-- Agents that are done
-----------------------------------------------------------------------------------------

/-- An agent has returned from the drops it caused. -/
def State.Idle (state : State) (agent : Agent) : Prop :=
  ∀ job ∈ state.jobs, job.phase ≠ .dropping agent

/-- All leases are dropped and all producers have ended, of downloads and of exports. -/
structure State.Quiet (state : State) : Prop where
  callers
    : ∀ {index : Nat} {caller : SharedWork.Caller Download},
        state.work.callers[index]? = some caller
        → caller = .gone ∧ state.Idle (.caller index)
  producers
    : ∀ {shared : Nat} {entry : SharedWork.Shared Download},
        state.work.shareds[shared]? = some entry
        → entry.producer = .ended ∧ state.Idle (.producer shared)
  exports : ∀ other ∈ state.exports, other = .ended

end MoenotesAssets.Storage
