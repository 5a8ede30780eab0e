import MoenotesAssets.Planning.Archiving
import MoenotesAssets.Service.Recovery

/-! The handlers of `submit_refresh`, `submit_export` and `archive_resources`, one step for each
of their awaits and for each statement that others can see. A client that disconnects drops its
handler at the await where it is suspended; an `INSERT` handed to SQL may take effect before
or after that.
-/

namespace MoenotesAssets.Service.Handlers

open Foundation MoenotesAssets.Catalogs MoenotesAssets.Planning

-----------------------------------------------------------------------------------------
-- Data
-----------------------------------------------------------------------------------------

/-- What a handler was asked for. -/
inductive Request where
  | refresh
  | exports (request : ExportRequest)
  | archive (snapshot : Option String)

/-- The awaits of `App::snapshot`: the id of the current snapshot, the lock of the catalog
cache, and the row of the snapshot.
-/
inductive Lookup where
  | currentId
  | cacheLock
  | row
deriving DecidableEq

/-- The first await for a snapshot that was or was not named. -/
def Lookup.first (requested : Option String) : Lookup :=
  if requested.isSome then .cacheLock else .currentId

/-- The next await of a lookup that has not found the snapshot yet. -/
def Lookup.next? : Lookup → Option Lookup
  | .currentId => some .cacheLock
  | .cacheLock => some .row
  | .row => none

/-- Where a handler stands. It is suspended while `looking`, while `saving` and while `stored`,
where its row is in the table but it has not been polled since; the other phases of
`new_task` and what follows it await nothing. A dropped handler has `left` without a trace,
or `abandoned` a save that may still take effect, or `lost` one that did.
-/
inductive Phase where
  | looking (lookup : Lookup)
  | started (draft : Draft)
  | opened (draft : Draft)
  | cleared (draft : Draft)
  | saving (task : Task)
  | stored (task : Task)
  | resumed (task : Task)
  | registered (task : Task) (cancelled : Bool)
  | answered (task : Task)
  | refused (error : String)
  | left
  | abandoned (task : Task)
  | lost (task : Task)
deriving DecidableEq

structure Handler where
  request : Request
  phase : Phase

structure State where
  rows : Records
  unpersisted : Records
  cancellations : Std.TreeSet String
  permits : Nat
  shutdown : Bool
  handlers : List Handler
  coordinators : List Progress

/-- A service opened on stored rows. -/
def State.open (config : Config) (rows : Records) : State :=
  {
    rows
    unpersisted := {}
    cancellations := {}
    permits := config.queueLimit
    shutdown := false
    handlers := []
    coordinators := []
  }

/-- The arguments of `new_task` that a handler has worked out. -/
def Phase.draft? : Phase → Option Draft
  | .started draft | .opened draft | .cleared draft => some draft
  | _ => none

/-- The record whose save a handler has begun and not passed on to a coordinator. -/
def Phase.task? : Phase → Option Task
  | .saving task | .stored task | .resumed task | .registered task _ | .abandoned task
  | .lost task => some task
  | _ => none

/-- The record for which a handler is in `new_task`, or between its return and the spawn of the
coordinator, which one poll does.
-/
def Phase.executing? : Phase → Option Task
  | .saving task | .stored task | .resumed task | .registered task _ => some task
  | _ => none

/-- A handler was dropped and its row is in the table. -/
def Phase.isLost : Phase → Bool
  | .lost _ => true
  | _ => false

/-- A new UUID is not empty and differs from every id in use. -/
structure State.Fresh (state : State) (id : String) : Prop where
  nonempty : id ≠ ""
  stored : state.rows[id]? = none
  kept : state.unpersisted[id]? = none
  handled
    : ∀ handler ∈ state.handlers, ∀ task, handler.phase.task? = some task → task.id ≠ id
  coordinated : ∀ progress ∈ state.coordinators, progress.task.id ≠ id

-----------------------------------------------------------------------------------------
-- Functions of the handlers
-----------------------------------------------------------------------------------------

/-- Where a handler begins: a refresh calls `new_task` at once, the others look up a snapshot. -/
def Request.entry : Request → Phase
  | .refresh => .started refreshDraft
  | .exports request =>
      if request.keyPrefix.isSome != !request.keys.isEmpty then
        .looking (.first request.snapshot)
      else .refused "provide either keys or prefix"
  | .archive snapshot => .looking (.first snapshot)

/-- The request that `archive_resources` passes to `submit_export`. -/
def archiveRequest (snapshot : String) (keys : List String) : ExportRequest :=
  {
    snapshot := some snapshot
    keys
    keyPrefix := none
    selector := Selector.default
    archive := true
  }

/-- The item of a key in the coordinator of `submit_export`, for what `export_shared` returned:
the id of a manifest or an error.
-/
def resourceItem (key : String) : Except String String → ItemResult
  | .ok id => { key, exportId := some id, error := none }
  | .error error => failedItem key error

/-- The items a resource may end with. -/
def Yields (key : String) (item : ItemResult) : Prop :=
  ∃ result, item = resourceItem key result

/-- Both kinds of items carry their key. -/
theorem Yields.key {key : String} {item : ItemResult} (yields : Yields key item)
    : item.key = key := by
  obtain ⟨result, rfl⟩ := yields
  cases result <;> rfl

-----------------------------------------------------------------------------------------
-- The service
-----------------------------------------------------------------------------------------

inductive Label where
  | began
  | looked (index : Nat)
  | resolved (index : Nat)
  | selected (index : Nat)
  | openChecked (index : Nat)
  | memoryChecked (index : Nat)
  | admitted (index : Nat)
  | stored (index : Nat)
  | resumed (index : Nat)
  | registered (index : Nat)
  | cancelled (index : Nat)
  | spawned (index : Nat)
  | refused (index : Nat)
  | left (index : Nat)
  | abandoned (index : Nat)
  | orphaned (index : Nat)
  | landed (index : Nat)
  | coordinate (index : Nat) (label : CoordinatorLabel)
  | shutdown

/-- The steps after which a dropped handler has left a row: it was dropped when its `INSERT` had
taken effect, or the `INSERT` took effect later.
-/
def Label.loses : Label → Bool
  | .orphaned _ | .landed _ => true
  | _ => false

/-- One step of a handler, of its client, of SQL, of a coordinator or of `stop`. -/
inductive Step (config : Config) : State → Label → State → Prop where
  | began {state request}
    : Step config state .began
        { state with handlers := state.handlers ++ [{ request, phase := request.entry }] }
  /-- `App::snapshot` goes on to its next await -/
  | looked {state index request lookup next}
    (found : state.handlers[index]? = some { request, phase := .looking lookup })
    (further : lookup.next? = some next)
    : Step config state (.looked index)
        {
          state with
          handlers := state.handlers.set index { request, phase := .looking next }
        }
  /-- `App::snapshot` fails -/
  | refusedLookup {state index request lookup error}
    (found : state.handlers[index]? = some { request, phase := .looking lookup })
    : Step config state (.refused index)
        {
          state with
          handlers := state.handlers.set index { request, phase := .refused error }
        }
  /-- `archive_resources` has its snapshot and calls `submit_export` -/
  | resolved {state index requested lookup snapshot catalog keys}
    (found
      : state.handlers[index]? = some { request := .archive requested, phase := .looking lookup })
    (answered : lookup ≠ .currentId)
    (gathered : (resources catalog).foldlM (addKey catalog) [] = .ok keys)
    : Step config state (.resolved index)
        {
          state with
          handlers := state.handlers.set index
            {
              request := .exports (archiveRequest snapshot keys)
              phase := (Request.exports (archiveRequest snapshot keys)).entry
            }
        }
  | refusedArchive {state index requested lookup catalog error}
    (found
      : state.handlers[index]? = some { request := .archive requested, phase := .looking lookup })
    (answered : lookup ≠ .currentId)
    (ambiguous : (resources catalog).foldlM (addKey catalog) [] = .error error)
    : Step config state (.refused index)
        {
          state with
          handlers := state.handlers.set index
            { request := .archive requested, phase := .refused error }
        }
  /-- `submit_export` has its snapshot and calls `new_task` -/
  | selected {state index request lookup given snapshot keys}
    (found
      : state.handlers[index]? = some { request := .exports request, phase := .looking lookup })
    (answered : lookup ≠ .currentId)
    (selects : selectKeys config request (.ok given) = .ok (snapshot, keys))
    : Step config state (.selected index)
        {
          state with
          handlers := state.handlers.set index
            { request := .exports request, phase := .started (exportDraft snapshot keys) }
        }
  | refusedSelection {state index request lookup given error}
    (found
      : state.handlers[index]? = some { request := .exports request, phase := .looking lookup })
    (answered : lookup ≠ .currentId)
    (fails : selectKeys config request (.ok given) = .error error)
    : Step config state (.refused index)
        {
          state with
          handlers := state.handlers.set index
            { request := .exports request, phase := .refused error }
        }
  | openChecked {state index request draft}
    (found : state.handlers[index]? = some { request, phase := .started draft })
    (running : state.shutdown = false)
    : Step config state (.openChecked index)
        {
          state with
          handlers := state.handlers.set index { request, phase := .opened draft }
        }
  | refusedClosed {state index request draft}
    (found : state.handlers[index]? = some { request, phase := .started draft })
    (closed : state.shutdown = true)
    : Step config state (.refused index)
        {
          state with
          handlers := state.handlers.set index
            { request, phase := .refused "service shutting down" }
        }
  | memoryChecked {state index request draft}
    (found : state.handlers[index]? = some { request, phase := .opened draft })
    (clear : state.unpersisted.isEmpty = true)
    : Step config state (.memoryChecked index)
        {
          state with
          handlers := state.handlers.set index { request, phase := .cleared draft }
        }
  | refusedUnpersisted {state index request draft}
    (found : state.handlers[index]? = some { request, phase := .opened draft })
    (retained : state.unpersisted.isEmpty = false)
    : Step config state (.refused index)
        {
          state with
          handlers := state.handlers.set index
            {
              request
              phase := .refused
                "task persistence unavailable; restart after repairing storage"
            }
        }
  | admitted {state index request draft id created updated}
    (found : state.handlers[index]? = some { request, phase := .cleared draft })
    (free : 0 < state.permits) (fresh : state.Fresh id)
    : Step config state (.admitted index)
        {
          state with
          permits := state.permits - 1
          handlers := state.handlers.set index
            { request, phase := .saving (newTask draft id created updated) }
        }
  | refusedFull {state index request draft}
    (found : state.handlers[index]? = some { request, phase := .cleared draft })
    (full : state.permits = 0)
    : Step config state (.refused index)
        {
          state with
          handlers := state.handlers.set index { request, phase := .refused "task queue full" }
        }
  /-- the `INSERT` takes effect -/
  | stored {state index request task}
    (found : state.handlers[index]? = some { request, phase := .saving task })
    : Step config state (.stored index)
        {
          state with
          rows := state.rows.insert task.id task
          handlers := state.handlers.set index { request, phase := .stored task }
        }
  /-- `save_task` failed -/
  | refusedSave {state index request task error}
    (found : state.handlers[index]? = some { request, phase := .saving task })
    : Step config state (.refused index)
        {
          state with
          permits := state.permits + 1
          handlers := state.handlers.set index { request, phase := .refused error }
        }
  /-- `save_task` returned -/
  | resumed {state index request task}
    (found : state.handlers[index]? = some { request, phase := .stored task })
    : Step config state (.resumed index)
        {
          state with
          handlers := state.handlers.set index { request, phase := .resumed task }
        }
  | registered {state index request task}
    (found : state.handlers[index]? = some { request, phase := .resumed task })
    : Step config state (.registered index)
        {
          state with
          cancellations := state.cancellations.insert task.id
          handlers := state.handlers.set index { request, phase := .registered task false }
        }
  /-- a token is cancelled before its coordinator is spawned -/
  | cancelled {state index request task before}
    (found : state.handlers[index]? = some { request, phase := .registered task before })
    (allowed : task.id ∈ state.cancellations)
    : Step config state (.cancelled index)
        {
          state with
          handlers := state.handlers.set index { request, phase := .registered task true }
        }
  /-- the token is a child of that of the service -/
  | spawned {state index request task cancelled}
    (found : state.handlers[index]? = some { request, phase := .registered task cancelled })
    : Step config state (.spawned index)
        {
          state with
          handlers := state.handlers.set index { request, phase := .answered task }
          coordinators := state.coordinators
            ++ [.starting { task with state := .running } (cancelled || state.shutdown)]
        }
  /-- the handler is dropped in `App::snapshot` -/
  | left {state index request lookup}
    (found : state.handlers[index]? = some { request, phase := .looking lookup })
    : Step config state (.left index)
        { state with handlers := state.handlers.set index { request, phase := .left } }
  /-- the handler is dropped at the await of `save_task` -/
  | abandoned {state index request task}
    (found : state.handlers[index]? = some { request, phase := .saving task })
    : Step config state (.abandoned index)
        {
          state with
          permits := state.permits + 1
          handlers := state.handlers.set index { request, phase := .abandoned task }
        }
  /-- the handler is dropped there and its `INSERT` has taken effect -/
  | orphaned {state index request task}
    (found : state.handlers[index]? = some { request, phase := .stored task })
    : Step config state (.orphaned index)
        {
          state with
          permits := state.permits + 1
          handlers := state.handlers.set index { request, phase := .lost task }
        }
  /-- the `INSERT` of a dropped handler takes effect -/
  | landed {state index request task}
    (found : state.handlers[index]? = some { request, phase := .abandoned task })
    : Step config state (.landed index)
        {
          state with
          rows := state.rows.insert task.id task
          handlers := state.handlers.set index { request, phase := .lost task }
        }
  /-- an ended coordinator has removed its token and returned its permit -/
  | coordinate {state index progress label write after}
    (found : state.coordinators[index]? = some progress)
    (taken
      : CoordinatorStep Yields config.downloads
          (state.shutdown = true ∨ progress.task.id ∈ state.cancellations)
          progress label write after)
    : Step config state (.coordinate index label)
        {
          state with
          rows := write.rows state.rows
          unpersisted := write.unpersisted state.unpersisted
          cancellations :=
            if after.isEnded then state.cancellations.erase progress.task.id
            else state.cancellations
          permits := if after.isEnded then state.permits + 1 else state.permits
          coordinators := state.coordinators.set index after
        }
  | shutdown {state} : Step config state .shutdown { state with shutdown := true }

/-- One life of the service on stored rows. -/
def process (config : Config) (rows : Records) : System State Label where
  initial state := state = .open config rows
  step := Step config

-----------------------------------------------------------------------------------------
-- The lives
-----------------------------------------------------------------------------------------

/-- Between two lives there is only the table. -/
inductive Life where
  | stopped (rows : Records)
  | opening (clock : String → Nat) (cursor : KeysetScan.Cursor String Task)
  | serving (state : State)

inductive LifeLabel where
  | opens
  | scans (visit : Option String)
  | opened
  | dies
  | serves (label : Label)

/-- `App::open` rebuilds the rows before it serves, and the process may die at any moment. -/
inductive LifeStep (config : Config) : Life → LifeLabel → Life → Prop where
  | opens {rows clock}
    : LifeStep config (.stopped rows) .opens (.opening clock (KeysetScan.start rows ""))
  | scans {clock cursor visit after}
    (taken : KeysetScan.advance pageLimit (recoverRow clock) cursor = some (visit, after))
    : LifeStep config (.opening clock cursor) (.scans visit) (.opening clock after)
  | opened {clock cursor}
    (done : KeysetScan.advance pageLimit (recoverRow clock) cursor = none)
    : LifeStep config (.opening clock cursor) .opened (.serving (.open config cursor.table))
  | diesOpening {clock cursor}
    : LifeStep config (.opening clock cursor) .dies (.stopped cursor.table)
  | diesServing {state} : LifeStep config (.serving state) .dies (.stopped state.rows)
  | serves {state label after} (taken : Step config state label after)
    : LifeStep config (.serving state) (.serves label) (.serving after)

/-- All lives of a service whose table starts empty. -/
def lifetime (config : Config) : System Life LifeLabel where
  initial life := life = .stopped {}
  step := LifeStep config

end MoenotesAssets.Service.Handlers
