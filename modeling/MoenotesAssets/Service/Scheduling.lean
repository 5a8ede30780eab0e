import MoenotesAssets.Foundation.Arena
import MoenotesAssets.Foundation.Draining
import Std.Data.TreeSet

/-! What the awaits of `export_one` and of the producers of `App::download` wait for: the gate of an
export, the downloads of its closure, and the permits of three semaphores. No order of steps
leaves them waiting for each other.
-/

namespace MoenotesAssets.Service.Scheduling

open Foundation

-----------------------------------------------------------------------------------------
-- Data
-----------------------------------------------------------------------------------------

/-- The permits of the semaphores, which `Config::validate` requires to be positive. -/
structure Limits where
  downloads : Nat
  workers : Nat
  videos : Nat
  downloads_pos : 0 < downloads
  workers_pos : 0 < workers
  videos_pos : 0 < videos

/-- Where a producer of `App::download` stands: before it has a permit of `downloads`, with that
permit, or ended with a payload or an error.
-/
inductive FetchPhase where
  | acquiring
  | receiving
  | ended (ok : Bool)
deriving DecidableEq

/-- A producer of `App::download` and its key in the registry. -/
structure Fetch where
  key : String
  phase : FetchPhase
deriving DecidableEq

/-- Where `export_one` stands. While `fetching` it has the keys it has not asked for yet, the
downloads it waits for, at most `downloads` of them at once, and those it holds. It has ended with
an export or an error.
-/
inductive Phase where
  | waiting
  | gated
  | fetching (todo : List String) (running held : List Nat)
  | awaitingVideo (held : List Nat)
  | awaitingWorker (video : Bool) (held : List Nat)
  | working (video : Bool) (held : List Nat)
  | ended (ok : Bool)
deriving DecidableEq

/-- A call of `export_one`, with the keys of the downloads that its plan asks for, if there is a
plan.
-/
structure Export where
  id : String
  plan : Option (List String)
  phase : Phase
deriving DecidableEq

/-- The free permits, the ids of `exports`, and all producers. -/
structure State where
  downloads : Nat
  workers : Nat
  videos : Nat
  published : Std.TreeSet String
  fetches : List Fetch
  exports : List Export

/-- A service that was opened on the exports of earlier lives. -/
def State.open (limits : Limits) (published : Std.TreeSet String) : State :=
  {
    downloads := limits.downloads
    workers := limits.workers
    videos := limits.videos
    published
    fetches := []
    exports := []
  }

def Phase.isEnded : Phase → Bool
  | .ended _ => true
  | _ => false

/-- The gate of an export is locked. -/
def Phase.critical : Phase → Bool
  | .waiting | .ended _ => false
  | _ => true

/-- The permit of `workers` that an export holds. -/
def Phase.workers : Phase → Nat
  | .working .. => 1
  | _ => 0

/-- The permit of `videos` that an export holds. -/
def Phase.videos : Phase → Nat
  | .awaitingWorker true _ | .working true _ => 1
  | _ => 0

/-- An export waits for a download or holds it. -/
def Phase.uses (fetch : Nat) : Phase → Bool
  | .fetching _ running held => running.contains fetch || held.contains fetch
  | .awaitingVideo held | .awaitingWorker _ held | .working _ held => held.contains fetch
  | _ => false

/-- The permit of `downloads` that a producer holds. -/
def FetchPhase.slots : FetchPhase → Nat
  | .receiving => 1
  | _ => 0

def FetchPhase.isEnded : FetchPhase → Bool
  | .ended _ => true
  | _ => false

/-- Some export waits for a download or holds it. -/
def State.used (state : State) (fetch : Nat) : Bool :=
  state.exports.any (fun e => e.phase.uses fetch)

-----------------------------------------------------------------------------------------
-- Steps
-----------------------------------------------------------------------------------------

inductive Label where
  | arrived
  | locked (index : Nat)
  | found (index : Nat)
  | refused (index : Nat)
  | planned (index : Nat)
  | attached (index fetch : Nat)
  | spawned (index : Nat)
  | received (index fetch : Nat)
  | broke (index fetch : Nat)
  | collected (index : Nat)
  | tookVideo (index : Nat)
  | tookWorker (index : Nat)
  | worked (index : Nat) (ok : Bool)
  | failed (index : Nat)
  | tookSlot (fetch : Nat)
  | fetched (fetch : Nat) (ok : Bool)
  | dropped (fetch : Nat)

/-- A new call, which comes from outside. -/
def Label.arrives : Label → Bool
  | .arrived => true
  | _ => false

/-- Something fails that could have succeeded: a call is cancelled, fails between two awaits or
panics, a worker or its publication fails, or a download fails or is cancelled.
-/
def Label.fails : Label → Bool
  | .failed _ | .worked _ false | .fetched _ false | .dropped _ => true
  | _ => false

/-- A call ends with an error that it could not avoid any more: its planning was refused, or a
download that it waits for has failed.
-/
def Label.refuses : Label → Bool
  | .refused _ | .broke .. => true
  | _ => false

/-- One step of a call of `export_one` or of a producer of `App::download`. -/
inductive Step (limits : Limits) : State → Label → State → Prop where
  | arrived {state id plan}
    : Step limits state .arrived
        { state with exports := state.exports ++ [{ id, plan, phase := .waiting }] }
  | locked {state index id plan}
    (at' : state.exports[index]? = some { id, plan, phase := .waiting })
    (unlocked : ∀ other ∈ state.exports, other.id = id → other.phase.critical = false)
    : Step limits state (.locked index)
        { state with exports := state.exports.set index { id, plan, phase := .gated } }
  | found {state index id plan}
    (at' : state.exports[index]? = some { id, plan, phase := .gated })
    (row : id ∈ state.published)
    : Step limits state (.found index)
        { state with exports := state.exports.set index { id, plan, phase := .ended true } }
  | refused {state index id}
    (at' : state.exports[index]? = some { id, plan := none, phase := .gated })
    (absent : id ∉ state.published)
    : Step limits state (.refused index)
        {
          state with
          exports := state.exports.set index { id, plan := none, phase := .ended false }
        }
  | planned {state index id todo}
    (at' : state.exports[index]? = some { id, plan := some todo, phase := .gated })
    (absent : id ∉ state.published)
    : Step limits state (.planned index)
        {
          state with
          exports := state.exports.set index
            { id, plan := some todo, phase := .fetching todo [] [] }
        }
  /-- `shared::join` finds a producer that somebody waits for or holds -/
  | attached {state index id plan key todo running held position fetch}
    (at'
      : state.exports[index]? = some { id, plan, phase := .fetching (key :: todo) running held })
    (room : running.length < limits.downloads)
    (listed : state.fetches[position]? = some fetch) (same : fetch.key = key)
    (used : state.used position = true)
    : Step limits state (.attached index position)
        {
          state with
          exports := state.exports.set index
            { id, plan, phase := .fetching todo (running ++ [position]) held }
        }
  | spawned {state index id plan key todo running held}
    (at'
      : state.exports[index]? = some { id, plan, phase := .fetching (key :: todo) running held })
    (room : running.length < limits.downloads)
    (unused
      : ∀ {position fetch},
          state.fetches[position]? = some fetch
          → fetch.key = key
          → state.used position = false)
    : Step limits state (.spawned index)
        {
          state with
          fetches := state.fetches ++ [{ key, phase := .acquiring }]
          exports := state.exports.set index
            { id, plan, phase := .fetching todo (running ++ [state.fetches.length]) held }
        }
  | received {state index id plan todo running held position key}
    (at' : state.exports[index]? = some { id, plan, phase := .fetching todo running held })
    (member : position ∈ running)
    (done : state.fetches[position]? = some { key, phase := .ended true })
    : Step limits state (.received index position)
        {
          state with
          exports := state.exports.set index
            { id, plan, phase := .fetching todo (running.erase position) (held ++ [position]) }
        }
  /-- `try_collect` drops the other downloads -/
  | broke {state index id plan todo running held position key}
    (at' : state.exports[index]? = some { id, plan, phase := .fetching todo running held })
    (member : position ∈ running)
    (done : state.fetches[position]? = some { key, phase := .ended false })
    : Step limits state (.broke index position)
        { state with exports := state.exports.set index { id, plan, phase := .ended false } }
  | collected {state index id plan held} (video : Bool)
    (at' : state.exports[index]? = some { id, plan, phase := .fetching [] [] held })
    : Step limits state (.collected index)
        {
          state with
          exports := state.exports.set index
            {
              id, plan
              phase := if video then .awaitingVideo held else .awaitingWorker false held
            }
        }
  | tookVideo {state index id plan held}
    (at' : state.exports[index]? = some { id, plan, phase := .awaitingVideo held })
    (free : 0 < state.videos)
    : Step limits state (.tookVideo index)
        {
          state with
          videos := state.videos - 1
          exports := state.exports.set index { id, plan, phase := .awaitingWorker true held }
        }
  | tookWorker {state index id plan video held}
    (at' : state.exports[index]? = some { id, plan, phase := .awaitingWorker video held })
    (free : 0 < state.workers)
    : Step limits state (.tookWorker index)
        {
          state with
          workers := state.workers - 1
          exports := state.exports.set index { id, plan, phase := .working video held }
        }
  /-- the worker has ended and its result is published, or refused -/
  | worked {state index id plan video held} (ok : Bool)
    (at' : state.exports[index]? = some { id, plan, phase := .working video held })
    : Step limits state (.worked index ok)
        {
          state with
          workers := state.workers + 1
          videos := state.videos + if video then 1 else 0
          published := if ok then state.published.insert id else state.published
          exports := state.exports.set index { id, plan, phase := .ended ok }
        }
  /-- a call that fails drops what it holds -/
  | failed {state index id plan phase}
    (at' : state.exports[index]? = some { id, plan, phase }) (live : phase.isEnded = false)
    : Step limits state (.failed index)
        {
          state with
          workers := state.workers + phase.workers
          videos := state.videos + phase.videos
          exports := state.exports.set index { id, plan, phase := .ended false }
        }
  | tookSlot {state position key}
    (listed : state.fetches[position]? = some { key, phase := .acquiring })
    (free : 0 < state.downloads)
    : Step limits state (.tookSlot position)
        {
          state with
          downloads := state.downloads - 1
          fetches := state.fetches.set position { key, phase := .receiving }
        }
  | fetched {state position key} (ok : Bool)
    (listed : state.fetches[position]? = some { key, phase := .receiving })
    : Step limits state (.fetched position ok)
        {
          state with
          downloads := state.downloads + 1
          fetches := state.fetches.set position { key, phase := .ended ok }
        }
  /-- a producer that nobody waits for is cancelled -/
  | dropped {state position key phase}
    (listed : state.fetches[position]? = some { key, phase }) (live : phase.isEnded = false)
    (unused : state.used position = false)
    : Step limits state (.dropped position)
        {
          state with
          downloads := state.downloads + phase.slots
          fetches := state.fetches.set position { key, phase := .ended false }
        }

/-- Exports and downloads on the exports of earlier lives. -/
def system (limits : Limits) : System State Label where
  initial state := ∃ published, state = .open limits published
  step := Step limits

/-- Nothing is under way. -/
structure State.Quiet (state : State) : Prop where
  exports : ∀ e ∈ state.exports, e.phase.isEnded = true
  fetches : ∀ fetch ∈ state.fetches, fetch.phase.isEnded = true

end MoenotesAssets.Service.Scheduling
