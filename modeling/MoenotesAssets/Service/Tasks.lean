import MoenotesAssets.Service.Selection
import MoenotesAssets.TaskRunner.Model
import Std.Data.TreeSet

/-! The task service of `service.rs`: `new_task` calls, the coordinators they spawn, the
`tasks` table and the records kept in memory when the table refuses them. Every save may
succeed or fail; a handler may be dropped while its save is in flight.
-/

namespace MoenotesAssets.Service

open Foundation

-----------------------------------------------------------------------------------------
-- Data
-----------------------------------------------------------------------------------------

/-- Task records by id: the `tasks` table, or `unpersisted_tasks`. -/
abbrev Records := Std.TreeMap String Task

/-- The arguments of `new_task`. -/
structure Draft where
  kind : TaskKind
  snapshot : Option String
  total : Nat
  keys : List String
deriving DecidableEq

/-- The draft of `submit_export` for a snapshot and the keys it selected. -/
def exportDraft (snapshot : String) (keys : List String) : Draft :=
  { kind := .exports, snapshot := some snapshot, total := keys.length, keys }

/-- The draft of `submit_refresh`. -/
def refreshDraft : Draft :=
  { kind := .catalogRefresh, snapshot := none, total := 1, keys := [] }

/-- The record `new_task` saves first. -/
def newTask (draft : Draft) (id : String) (created updated : Nat) : Task :=
  {
    id
    kind := draft.kind
    state := .queued
    snapshot := draft.snapshot
    keys := draft.keys
    total := draft.total
    completed := 0
    results := []
    error := none
    created
    updated
  }

/-- The drafts of the two submissions. -/
inductive Submits (config : Config) : Draft → Prop where
  | exports {request lookup snapshot keys}
    (selected : selectKeys config request lookup = .ok (snapshot, keys))
    : Submits config (exportDraft snapshot keys)
  | refresh : Submits config refreshDraft

/-- Where a `new_task` call stands. The first three await nothing; `abandoned` is a save
whose handler was dropped before it was answered, and which may still take effect.
-/
inductive CallPhase where
  | started
  | opened
  | cleared
  | saving (task : Task)
  | abandoned (task : Task)
  | landed (task : Task)
  | refused (error : String)
  | answered (task : Task)
deriving DecidableEq

structure Call where
  draft : Draft
  phase : CallPhase
deriving DecidableEq

/-- Where a spawned coordinator stands: saving the running task, in `task_runner::run`,
in `refresh`, in the two saves of `finish_task`, or ended with its last record.
-/
inductive Progress where
  | starting (task : Task) (cancelled : Bool)
  | exporting (run : TaskRunner.State)
  | refreshing (task : Task) (cancelled : Bool)
  | finishing (task : Task)
  | retrying (task : Task)
  | ended (task : Task)

/-- The record a coordinator works on. -/
def Progress.task : Progress → Task
  | .starting task _ | .refreshing task _ | .finishing task | .retrying task | .ended task =>
      task
  | .exporting run => run.task

def Progress.isEnded : Progress → Bool
  | .ended _ => true
  | _ => false

structure State where
  rows : Records
  unpersisted : Records
  cancellations : Std.TreeSet String
  permits : Nat
  shutdown : Bool
  calls : List Call
  coordinators : List Progress

/-- A service opened on stored rows. -/
def State.open (config : Config) (rows : Records) : State :=
  {
    rows
    unpersisted := {}
    cancellations := {}
    permits := config.queueLimit
    shutdown := false
    calls := []
    coordinators := []
  }

-----------------------------------------------------------------------------------------
-- Coordinators
-----------------------------------------------------------------------------------------

/-- What a coordinator's step leaves outside of it: a saved row or a record in memory. -/
inductive Write where
  | nothing
  | row (task : Task)
  | retained (task : Task)

def Write.rows (rows : Records) : Write → Records
  | .row task => rows.insert task.id task
  | _ => rows

def Write.unpersisted (unpersisted : Records) : Write → Records
  | .retained task => unpersisted.insert task.id task
  | _ => unpersisted

/-- What a coordinator does next once its running task is saved, or after that failed. -/
def Progress.launch (task : Task) (cancelled : Bool) : Progress :=
  match task.kind with
  | .exports => .exporting (.start task task.keys cancelled)
  | .catalogRefresh => .refreshing task cancelled

/-- The start save failed: a run starts cancelled, a refresh does not start. -/
def Progress.abort (task : Task) : Progress :=
  match task.kind with
  | .exports => .exporting (.start task task.keys true)
  | .catalogRefresh => .finishing task

/-- The outcome of `refresh` recorded in its task. -/
def refreshed (task : Task) (result : Except String String) (cancelled : Bool) (now : Nat)
    : Task :=
  match result with
  | .ok snapshot =>
      {
        task with
        snapshot := some snapshot
        completed := 1
        state := .succeeded
        updated := now
      }
  | .error error =>
      {
        task with
        state := if cancelled then .cancelled else .failed
        error := some error
        updated := now
      }

/-- The write of a run's step: its `persist` callback is `save_task`. -/
def runWrite (run : TaskRunner.State) : TaskRunner.Label → Write
  | .saved => .row run.task
  | _ => .nothing

inductive CoordinatorLabel where
  | started
  | startFailed
  | cancel
  | run (label : TaskRunner.Label)
  | returned
  | refreshed
  | saved
  | saveFailed
  | retrySaved
  | retryFailed

/-- One step of a coordinator. `cancellable` says that its token can be cancelled: its id
is in `cancellations` or the service shuts down.
-/
inductive CoordinatorStep (executes : String → ItemResult → Prop) (downloads : Nat)
    (cancellable : Prop) : Progress → CoordinatorLabel → Write → Progress → Prop where
  | started {task cancelled}
    : CoordinatorStep executes downloads cancellable (.starting task cancelled) .started
        (.row task) (.launch task cancelled)
  | startFailed {task cancelled now}
    : CoordinatorStep executes downloads cancellable (.starting task cancelled) .startFailed
        .nothing (.abort (persistenceFailed task now))
  | cancelStarting {task cancelled} (allowed : cancellable)
    : CoordinatorStep executes downloads cancellable (.starting task cancelled) .cancel .nothing
        (.starting task true)
  | cancelRefreshing {task cancelled} (allowed : cancellable)
    : CoordinatorStep executes downloads cancellable (.refreshing task cancelled) .cancel
        .nothing (.refreshing task true)
  | run {run label after} (allowed : label = .cancel → cancellable)
    (taken : TaskRunner.Step executes downloads run label after)
    : CoordinatorStep executes downloads cancellable (.exporting run) (.run label)
        (runWrite run label) (.exporting after)
  | returned {run} (done : run.phase = .returned)
    : CoordinatorStep executes downloads cancellable (.exporting run) .returned .nothing
        (.finishing run.task)
  | refreshed {task cancelled result now}
    : CoordinatorStep executes downloads cancellable (.refreshing task cancelled) .refreshed
        .nothing (.finishing (refreshed task result cancelled now))
  | saved {task}
    : CoordinatorStep executes downloads cancellable (.finishing task) .saved (.row task)
        (.ended task)
  | saveFailed {task now}
    : CoordinatorStep executes downloads cancellable (.finishing task) .saveFailed .nothing
        (.retrying (persistenceFailed task now))
  | retrySaved {task}
    : CoordinatorStep executes downloads cancellable (.retrying task) .retrySaved (.row task)
        (.ended task)
  | retryFailed {task}
    : CoordinatorStep executes downloads cancellable (.retrying task) .retryFailed
        (.retained task) (.ended task)

-----------------------------------------------------------------------------------------
-- The service
-----------------------------------------------------------------------------------------

/-- The id of the record a call may still save. -/
def Call.owned? (call : Call) : Option String :=
  match call.phase with
  | .saving task | .abandoned task => some task.id
  | _ => none

/-- A new UUID is not empty and differs from every id in use. -/
structure State.Fresh (state : State) (id : String) : Prop where
  nonempty : id ≠ ""
  stored : state.rows[id]? = none
  kept : state.unpersisted[id]? = none
  called : ∀ call ∈ state.calls, call.owned? ≠ some id
  coordinated : ∀ progress ∈ state.coordinators, progress.task.id ≠ id

inductive Label where
  | begin
  | openChecked (call : Nat)
  | memoryChecked (call : Nat)
  | admitted (call : Nat)
  | refused (call : Nat)
  | accepted (call : Nat)
  | abandoned (call : Nat)
  | landed (call : Nat)
  | coordinate (index : Nat) (label : CoordinatorLabel)
  | shutdown

/-- One step of a call, of a coordinator or of `stop`. -/
inductive Step (config : Config) (executes : String → ItemResult → Prop)
    : State → Label → State → Prop where
  | begin {state draft} (submits : Submits config draft)
    : Step config executes state .begin
        { state with calls := state.calls ++ [{ draft, phase := .started }] }
  | openChecked {state call draft}
    (found : state.calls[call]? = some { draft, phase := .started })
    (running : state.shutdown = false)
    : Step config executes state (.openChecked call)
        { state with calls := state.calls.set call { draft, phase := .opened } }
  | refusedClosed {state call draft}
    (found : state.calls[call]? = some { draft, phase := .started })
    (closed : state.shutdown = true)
    : Step config executes state (.refused call)
        {
          state with
          calls := state.calls.set call { draft, phase := .refused "service shutting down" }
        }
  | memoryChecked {state call draft}
    (found : state.calls[call]? = some { draft, phase := .opened })
    (clear : state.unpersisted.isEmpty = true)
    : Step config executes state (.memoryChecked call)
        { state with calls := state.calls.set call { draft, phase := .cleared } }
  | refusedUnpersisted {state call draft}
    (found : state.calls[call]? = some { draft, phase := .opened })
    (retained : state.unpersisted.isEmpty = false)
    : Step config executes state (.refused call)
        {
          state with
          calls := state.calls.set call
            {
              draft
              phase := .refused
                "task persistence unavailable; restart after repairing storage"
            }
        }
  | admitted {state call draft id created updated}
    (found : state.calls[call]? = some { draft, phase := .cleared })
    (free : 0 < state.permits) (fresh : state.Fresh id)
    : Step config executes state (.admitted call)
        {
          state with
          permits := state.permits - 1
          calls := state.calls.set call
            { draft, phase := .saving (newTask draft id created updated) }
        }
  | refusedFull {state call draft}
    (found : state.calls[call]? = some { draft, phase := .cleared })
    (full : state.permits = 0)
    : Step config executes state (.refused call)
        {
          state with
          calls := state.calls.set call { draft, phase := .refused "task queue full" }
        }
  /-- `save_task` succeeded: the token is registered and the coordinator spawned -/
  | accepted {state call draft task}
    (found : state.calls[call]? = some { draft, phase := .saving task })
    : Step config executes state (.accepted call)
        {
          state with
          rows := state.rows.insert task.id task
          cancellations := state.cancellations.insert task.id
          calls := state.calls.set call { draft, phase := .answered task }
          coordinators := state.coordinators
            ++ [.starting { task with state := .running } state.shutdown]
        }
  /-- `save_task` failed -/
  | refusedSave {state call draft task error}
    (found : state.calls[call]? = some { draft, phase := .saving task })
    : Step config executes state (.refused call)
        {
          state with
          permits := state.permits + 1
          calls := state.calls.set call { draft, phase := .refused error }
        }
  /-- the handler is dropped at the await of `save_task` -/
  | abandoned {state call draft task}
    (found : state.calls[call]? = some { draft, phase := .saving task })
    : Step config executes state (.abandoned call)
        {
          state with
          permits := state.permits + 1
          calls := state.calls.set call { draft, phase := .abandoned task }
        }
  | landed {state call draft task}
    (found : state.calls[call]? = some { draft, phase := .abandoned task })
    : Step config executes state (.landed call)
        {
          state with
          rows := state.rows.insert task.id task
          calls := state.calls.set call { draft, phase := .landed task }
        }
  /-- an ended coordinator has removed its token and returned its permit -/
  | coordinate {state index progress label write after}
    (found : state.coordinators[index]? = some progress)
    (taken
      : CoordinatorStep executes config.downloads
          (state.shutdown = true ∨ progress.task.id ∈ state.cancellations)
          progress label write after)
    : Step config executes state (.coordinate index label)
        {
          state with
          rows := write.rows state.rows
          unpersisted := write.unpersisted state.unpersisted
          cancellations :=
            if after.isEnded then state.cancellations.erase progress.task.id
            else state.cancellations
          permits := if after.isEnded then state.permits + 1 else state.permits
          coordinators := state.coordinators.set index after
        }
  | shutdown {state} : Step config executes state .shutdown { state with shutdown := true }

/-- One life of the service, opened on stored rows that satisfy `stored`. -/
def process (config : Config) (executes : String → ItemResult → Prop) (rows : Records)
    : System State Label where
  initial state := state = .open config rows
  step := Step config executes

-----------------------------------------------------------------------------------------
-- What clients read
-----------------------------------------------------------------------------------------

/-- The handler of `GET /v1/tasks/{id}`, which looks into memory in `first` and, when the
record is not there, into the table in `second`.
-/
def getTask (first second : State) (id : String) : Option Task :=
  match first.unpersisted[id]? with
  | some task => some task
  | none => second.rows[id]?

/-- The refusals of the readiness handler that this state decides. -/
def notReady (state : State) : Option String :=
  if !state.unpersisted.isEmpty then some "task persistence unavailable"
  else if state.shutdown then some "shutting down"
  else none

end MoenotesAssets.Service
