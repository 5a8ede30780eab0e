import MoenotesAssets.Foundation.Transition
import MoenotesAssets.Service.Task
import Mathlib.Logic.Function.Basic

/-! `task_runner::run`: a coordinator that starts resource futures, collects their
results in any order, saves a checkpoint every twenty results and stops on cancellation.
-/

namespace MoenotesAssets.TaskRunner

open Foundation MoenotesAssets.Service

-----------------------------------------------------------------------------------------
-- Data
-----------------------------------------------------------------------------------------

/-- What joining a resource task yields: its result, or the error of a panic. -/
inductive Joined where
  | result (item : ItemResult)
  | panicked
deriving DecidableEq

/-- A resource task in the `JoinSet`, with its task id and, once it ended, its outcome. -/
structure Resource where
  id : Nat
  key : String
  outcome : Option Joined
deriving DecidableEq

/-- Where the coordinator stands: in the spawning loop, awaiting `join_next_with_id`,
after pushing a result, awaiting `persist`, or done. `unwound` is the panic of
`expect("tracked resource task")`.
-/
inductive Phase where
  | spawning
  | joining
  | recorded
  | persisting
  | returned
  | unwound
deriving DecidableEq

/-- The locals of `run`, the task it updates and the token it watches. -/
structure State where
  task : Task
  pending : List String
  active : List Resource
  identities : Nat → Option String
  cancelled : Bool
  phase : Phase

/-- The state in which `run` is called. -/
def State.start (task : Task) (keys : List String) (cancelled : Bool) : State :=
  {
    task
    pending := keys
    active := []
    identities := fun _ => none
    cancelled
    phase := .spawning
  }

-----------------------------------------------------------------------------------------
-- Updates of the task
-----------------------------------------------------------------------------------------

/-- `task.results.push(result)` and the two fields that follow it. -/
def pushResult (task : Task) (result : ItemResult) (now : Nat) : Task :=
  {
    task with
    results := task.results ++ [result]
    completed := (task.results ++ [result]).length
    updated := now
  }

/-- `task.error.is_none() && task.completed.is_multiple_of(20)` -/
def checkpointDue (task : Task) : Bool :=
  task.error.isNone && task.completed % 20 == 0

/-- The number of results with an export id. -/
def successes (task : Task) : Nat :=
  task.results.countP (fun result => result.exportId.isSome)

/-- The state assigned when no resource is left. -/
def finalState (task : Task) (cancelled : Bool) : TaskState :=
  if task.error.isSome then .failed
  else if cancelled then .cancelled
  else if successes task = task.total then .succeeded
  else if 0 < successes task then .partially
  else .failed

/-- The keys never started are reported as cancelled. -/
def extendPending (task : Task) (pending : List String) : Task :=
  {
    task with
    results := task.results ++ pending.map (fun key => failedItem key "cancelled")
    completed := (task.results ++ pending.map (fun key => failedItem key "cancelled")).length
  }

/-- What `run` does after its loop, at time `now`. -/
def finish (task : Task) (pending : List String) (cancelled : Bool) (now : Nat) : Task :=
  {
    extendPending task pending with
    state := finalState (extendPending task pending) cancelled
    updated := now
  }

-----------------------------------------------------------------------------------------
-- Steps
-----------------------------------------------------------------------------------------

/-- What an observer sees of one step: `persist` is the checkpoint handed to the callback. -/
inductive Label where
  | cancel
  | spawn (id : Nat) (key : String)
  | idle
  | settle (id : Nat) (outcome : Joined)
  | join (result : ItemResult)
  | persist (checkpoint : Task)
  | skip
  | saved
  | saveFailed
  | finish

/-- The results a resource task may end with: what its future yields, the cancelled item
once the token is set, or a panic.
-/
inductive Settles (executes : String → ItemResult → Prop) (cancelled : Bool) (key : String)
    : Joined → Prop where
  | yields {item} (result : executes key item) : Settles executes cancelled key (.result item)
  | stopped (set : cancelled = true)
    : Settles executes cancelled key (.result (failedItem key "cancelled"))
  | panics : Settles executes cancelled key .panicked

/-- One step of `run`, of a resource task, or of the holder of the token. `executes` says
which results the future of a key may yield; a new task's id is not in use in the set.
-/
inductive Step (executes : String → ItemResult → Prop) (concurrency : Nat)
    : State → Label → State → Prop where
  | cancel {state} (before : state.phase ≠ .returned)
    : Step executes concurrency state .cancel { state with cancelled := true }
  | spawn {state id key rest} (at' : state.phase = .spawning)
    (room : state.active.length < concurrency) (live : state.cancelled = false)
    (next : state.pending = key :: rest) (unused : ∀ other ∈ state.active, other.id ≠ id)
    : Step executes concurrency state (.spawn id key)
        {
          state with
          pending := rest
          active := state.active ++ [{ id, key, outcome := none }]
          identities := Function.update state.identities id (some key)
        }
  | idle {state} (at' : state.phase = .spawning)
    (full : concurrency ≤ state.active.length ∨ state.cancelled = true ∨ state.pending = [])
    : Step executes concurrency state .idle { state with phase := .joining }
  | settle {state before id key rest outcome}
    (running : state.active = before ++ { id, key, outcome := none } :: rest)
    (settles : Settles executes state.cancelled key outcome)
    : Step executes concurrency state (.settle id outcome)
        { state with active := before ++ { id, key, outcome := some outcome } :: rest }
  /-- `Ok((id, result))` -/
  | join {state before id key item rest now} (at' : state.phase = .joining)
    (ended : state.active = before ++ { id, key, outcome := some (.result item) } :: rest)
    : Step executes concurrency state (.join item)
        {
          state with
          task := pushResult state.task item now
          active := before ++ rest
          identities := Function.update state.identities id none
          phase := .recorded
        }
  /-- `Err(error)`, with the key its id was tracked under -/
  | joinPanicked {state before id key tracked rest now} (at' : state.phase = .joining)
    (ended : state.active = before ++ { id, key, outcome := some .panicked } :: rest)
    (known : state.identities id = some tracked)
    : Step executes concurrency state
        (.join (failedItem tracked "resource task terminated unexpectedly"))
        {
          state with
          task := pushResult state.task
            (failedItem tracked "resource task terminated unexpectedly") now
          active := before ++ rest
          identities := Function.update state.identities id none
          phase := .recorded
        }
  /-- `expect("tracked resource task")` fails -/
  | joinUntracked {state before id key rest item} (at' : state.phase = .joining)
    (ended : state.active = before ++ { id, key, outcome := some .panicked } :: rest)
    (unknown : state.identities id = none)
    : Step executes concurrency state (.join item) { state with phase := .unwound }
  | persist {state} (at' : state.phase = .recorded) (due : checkpointDue state.task = true)
    : Step executes concurrency state (.persist state.task) { state with phase := .persisting }
  | skip {state} (at' : state.phase = .recorded) (undue : checkpointDue state.task = false)
    : Step executes concurrency state .skip { state with phase := .spawning }
  | saved {state} (at' : state.phase = .persisting)
    : Step executes concurrency state .saved { state with phase := .spawning }
  | saveFailed {state now} (at' : state.phase = .persisting)
    : Step executes concurrency state .saveFailed
        {
          state with
          task := persistenceFailed state.task now
          cancelled := true
          phase := .spawning
        }
  | finish {state now} (at' : state.phase = .joining) (drained : state.active = [])
    : Step executes concurrency state .finish
        {
          state with
          task := finish state.task state.pending state.cancelled now
          pending := []
          phase := .returned
        }

/-- `run` on a selection of `keys`, for a task that has gathered nothing yet. -/
def system (executes : String → ItemResult → Prop) (concurrency : Nat) (keys : List String)
    : System State Label where
  initial state :=
    ∃ task cancelled,
      state = .start task keys cancelled ∧ task.results = [] ∧ task.total = keys.length
  step := Step executes concurrency

end MoenotesAssets.TaskRunner
