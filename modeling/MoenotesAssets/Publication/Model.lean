import MoenotesAssets.Foundation.Arena
import MoenotesAssets.Foundation.Transition
import MoenotesAssets.Publication.Storage
import MoenotesAssets.Service.Task

/-! The publication protocol of `service.rs`: requests in `export_shared`, producers in
`export_one`, the drop of a `PendingPublication`, and the start-up sweep of `App::open`.
-/

namespace MoenotesAssets.Publication

open Foundation MoenotesAssets.Export MoenotesAssets.Service

-----------------------------------------------------------------------------------------
-- One export under its gate
-----------------------------------------------------------------------------------------

/-- What outlives the process: the database, the directory `exports` as it is read, and
the entries of that directory as its last sync left them.
-/
structure Store where
  index : Index
  disk : Std.TreeMap String Directory
  durable : Std.TreeMap String Directory

/-- What `export_one` returns; a panic counts as an error. -/
abbrev Outcome := Except String Manifest

/-- Where a producer stands in `export_one`. From `gated` to `leaving` it holds the lock of
its gate; from `renamed` on a `PendingPublication` is armed, whose drop is `retracting`.
-/
inductive Phase where
  | spawned
  | waiting
  | gated
  | preparing
  | working
  | staged (output : Directory) (result : WorkerResult)
  | sealed (output : Directory) (manifest : Manifest)
  | renamed (manifest : Manifest)
  | synced (manifest : Manifest)
  | retracting (error : String)
  | leaving (outcome : Outcome)
  | dropping (outcome : Outcome)
  | ended (outcome : Outcome)

/-- The gate is locked. -/
def Phase.critical : Phase → Bool
  | .spawned | .waiting | .dropping _ | .ended _ => false
  | _ => true

/-- The `Arc` of the gate is alive. -/
def Phase.live : Phase → Bool
  | .spawned | .ended _ => false
  | _ => true

/-- An error or a cancellation returns at once. -/
def Phase.fallible : Phase → Bool
  | .gated | .preparing | .working | .staged .. | .sealed .. => true
  | _ => false

/-- An error drops the armed `PendingPublication`. -/
def Phase.armed : Phase → Bool
  | .renamed _ | .synced _ => true
  | _ => false

inductive WorkLabel where
  | found
  | absent
  | startWorker
  | finishWorker
  | accept
  | reject
  | rename
  | sync
  | commit
  | abort
  | erode
  | retracted
  | fail
deriving DecidableEq

/-- `rename` of a directory succeeds on a free name and on an empty directory. -/
def Store.Vacant (store : Store) (id : String) : Prop :=
  ∀ {directory : Directory}, store.disk[id]? = some directory → directory.entries.isEmpty = true

/-- One step of `export_one` that reads or changes what is stored. A removal goes through
any leftover and may end with one.
-/
inductive WorkStep (settings : Settings) (job : Job)
    : Phase → Store → WorkLabel → Phase → Store → Prop where
  | found {store manifest} (row : store.index.exports[job.id]? = some manifest)
    : WorkStep settings job .gated store .found (.leaving (.ok manifest)) store
  | absent {store} (row : store.index.exports[job.id]? = none)
    : WorkStep settings job .gated store .absent .preparing store
  | startWorker {store} : WorkStep settings job .preparing store .startWorker .working store
  | finishWorker {store output result} (named : result.Named)
    : WorkStep settings job .working store .finishWorker (.staged output result) store
  | accept {store output result sealed manifest}
    (done : sealOutput settings job result output = .ok (sealed, manifest))
    : WorkStep settings job (.staged output result) store .accept (.sealed sealed manifest) store
  | reject {store output result error}
    (refused : sealOutput settings job result output = .error error)
    : WorkStep settings job (.staged output result) store .reject (.leaving (.error error)) store
  | rename {store output manifest} (vacant : store.Vacant job.id)
    : WorkStep settings job (.sealed output manifest) store .rename (.renamed manifest)
        { store with disk := store.disk.insert job.id output }
  | sync {store manifest}
    : WorkStep settings job (.renamed manifest) store .sync (.synced manifest)
        { store with durable := store.disk }
  | commit {store manifest index} (inserted : store.index.publish manifest = some index)
    : WorkStep settings job (.synced manifest) store .commit (.leaving (.ok manifest))
        { store with index }
  | abort {phase store error} (armed : phase.armed = true)
    : WorkStep settings job phase store .abort (.retracting error) store
  | erode {store error leftover}
    : WorkStep settings job (.retracting error) store .erode (.retracting error)
        { store with disk := Table.replace store.disk job.id leftover }
  | retracted {store error}
    : WorkStep settings job (.retracting error) store .retracted (.leaving (.error error)) store
  | fail {phase store error} (fallible : phase.fallible = true)
    : WorkStep settings job phase store .fail (.leaving (.error error)) store

-----------------------------------------------------------------------------------------
-- The service
-----------------------------------------------------------------------------------------

/-- The process does not run, `App::open` sweeps the entries it has listed, or the service
is open.
-/
inductive Mode where
  | down
  | opening (entries : List String)
  | serving
deriving DecidableEq

/-- A producer task of `shared::join` running `export_one`, with the gate whose `Arc` it
holds.
-/
structure Producer where
  job : Job
  gate : Option Nat
  phase : Phase

/-- Where a request stands in `export_shared`: before its look at `exports`, before it
joins, waiting for a producer, or answered.
-/
inductive RequestPhase where
  | checking
  | joining
  | attached (producer : Nat)
  | answered
deriving DecidableEq

structure Request where
  job : Job
  phase : RequestPhase
deriving DecidableEq

/-- `locks` is `resource_locks` with gates as numbers below `gates`. `results` are the
items of all tasks so far: their records outlive the process.
-/
structure State where
  mode : Mode
  store : Store
  locks : Std.TreeMap String Nat
  gates : Nat
  producers : List Producer
  requests : List Request
  results : List ItemResult

/-- An empty data directory. -/
def State.fresh : State :=
  {
    mode := .down
    store := { index := { exports := ∅, files := ∅ }, disk := ∅, durable := ∅ }
    locks := ∅
    gates := 0
    producers := []
    requests := []
    results := []
  }

/-- The process is gone, and its memory with it. -/
def State.stopped (state : State) (store : Store) : State :=
  { State.fresh with store, results := state.results }

/-- `service::valid_id` -/
def validId (name : String) : Bool :=
  name ≠ "" && name.utf8ByteSize ≤ 64
  && name.toList.all
    (fun letter =>
      letter.isDigit || "abcdefABCDEF".toList.contains letter || letter == '-')

/-- Some producer holds the `Arc` of a gate. -/
def State.holds (state : State) (gate : Nat) : Bool :=
  state.producers.any (fun producer => producer.gate == some gate)

/-- `resource_locks` after `retain`. -/
def State.retained (state : State) : Std.TreeMap String Nat :=
  state.locks.filter (fun _ gate => state.holds gate)

/-- The critical section of `export_one` on `resource_locks`, which finds or makes a gate. -/
def State.enterMap (state : State) (index : Nat) (producer : Producer) : State :=
  match state.retained[producer.job.id]? with
  | some gate =>
      {
        state with
        locks := state.retained
        producers :=
          state.producers.set index { producer with gate := some gate, phase := .waiting }
      }
  | none =>
      {
        state with
        locks := state.retained.insert producer.job.id state.gates
        gates := state.gates + 1
        producers :=
          state.producers.set index
            { producer with gate := some state.gates, phase := .waiting }
      }

/-- No producer is between locking a gate and unlocking it. -/
def State.Unlocked (state : State) (gate : Nat) : Prop :=
  ∀ producer ∈ state.producers, producer.gate = some gate → producer.phase.critical = false

/-- The item a request adds to its task. -/
def Request.item (request : Request) : Outcome → ItemResult
  | .ok manifest => { key := request.job.key, exportId := some manifest.id, error := none }
  | .error error => failedItem request.job.key error

/-- A request returns. -/
def State.answer (state : State) (index : Nat) (request : Request) (outcome : Outcome)
    : State :=
  {
    state with
    requests := state.requests.set index { request with phase := .answered }
    results := state.results ++ [request.item outcome]
  }

/-- What a crash leaves under one name: the entry as it is read or as it was last synced,
with its stable files.
-/
def Survives (current durable after : Option Directory) : Prop :=
  (∃ entry, (entry = current ∨ entry = durable)
    ∧ (entry = none ∧ after = none
      ∨ ∃ earlier later, entry = some earlier ∧ after = some later ∧ earlier.Keeps later))

inductive Label where
  | boot
  | erode (id : String)
  | swept (id : String)
  | keep (id : String)
  | refuse
  | opened
  | kill
  | crash
  | flush (id : String)
  | request (job : Job)
  | answer (index : Nat) (outcome : Outcome)
  | miss (index : Nat)
  | spawn (index : Nat)
  | attach (index producer : Nat)
  | enterMap (producer : Nat)
  | acquire (producer : Nat)
  | giveUp (producer : Nat)
  | work (id : String) (label : WorkLabel)
  | unlock (producer : Nat)
  | drop (producer : Nat)

/-- A step of opening the service. -/
inductive OpenStep : State → Label → State → Prop where
  | boot {state} (down : state.mode = .down)
    : OpenStep state .boot { state with mode := .opening state.store.disk.keys }
  | erode {state id rest leftover} (at' : state.mode = .opening (id :: rest))
    (valid : validId id = true) (row : state.store.index.exports[id]? = none)
    : OpenStep state (.erode id)
        {
          state with
          store.disk := Table.replace state.store.disk id leftover
        }
  | swept {state id rest} (at' : state.mode = .opening (id :: rest))
    (row : state.store.index.exports[id]? = none) (removed : state.store.disk[id]? = none)
    : OpenStep state (.swept id) { state with mode := .opening rest }
  | keep {state id rest manifest} (at' : state.mode = .opening (id :: rest))
    (valid : validId id = true) (row : state.store.index.exports[id]? = some manifest)
    : OpenStep state (.keep id) { state with mode := .opening rest }
  | refuse {state entries} (at' : state.mode = .opening entries)
    : OpenStep state .refuse { state with mode := .down }
  | opened {state} (at' : state.mode = .opening [])
    : OpenStep state .opened { state with mode := .serving }

/-- A step of a request. `joining` finds the producer of an earlier request for its id in
the registry, running or ended, or starts one; every error and a cancellation `stop` it.
-/
inductive RequestStep : State → Label → State → Prop where
  | request {state} (job : Job)
    : RequestStep state (.request job)
        { state with requests := state.requests ++ [{ job, phase := .checking }] }
  | hit {state index request manifest} (found : state.requests[index]? = some request)
    (at' : request.phase = .checking)
    (row : state.store.index.exports[request.job.id]? = some manifest)
    : RequestStep state (.answer index (.ok manifest)) (state.answer index request (.ok manifest))
  | miss {state index request} (found : state.requests[index]? = some request)
    (at' : request.phase = .checking)
    (row : state.store.index.exports[request.job.id]? = none)
    : RequestStep state (.miss index)
        { state with requests := state.requests.set index { request with phase := .joining } }
  | spawn {state index request} (found : state.requests[index]? = some request)
    (at' : request.phase = .joining)
    : RequestStep state (.spawn index)
        {
          state with
          requests :=
            state.requests.set index
              { request with phase := .attached state.producers.length }
          producers :=
            state.producers ++ [{ job := request.job, gate := none, phase := .spawned }]
        }
  | attach {state index request position producer}
    (found : state.requests[index]? = some request) (at' : request.phase = .joining)
    (listed : state.producers[position]? = some producer)
    (same : producer.job.id = request.job.id)
    : RequestStep state (.attach index position)
        {
          state with
          requests :=
            state.requests.set index { request with phase := .attached position }
        }
  | receive {state index request position producer outcome}
    (found : state.requests[index]? = some request) (at' : request.phase = .attached position)
    (listed : state.producers[position]? = some producer)
    (ended : producer.phase = .ended outcome)
    : RequestStep state (.answer index outcome) (state.answer index request outcome)
  | stop {state index request error} (found : state.requests[index]? = some request)
    (open' : request.phase ≠ .answered)
    : RequestStep state (.answer index (.error error))
        (state.answer index request (.error error))

/-- A step of a producer. -/
inductive ProducerStep (settings : Settings) : State → Label → State → Prop where
  | enterMap {state index producer} (found : state.producers[index]? = some producer)
    (at' : producer.phase = .spawned)
    : ProducerStep settings state (.enterMap index) (state.enterMap index producer)
  | acquire {state index producer gate} (found : state.producers[index]? = some producer)
    (at' : producer.phase = .waiting) (gated : producer.gate = some gate)
    (unlocked : state.Unlocked gate)
    : ProducerStep settings state (.acquire index)
        { state with producers := state.producers.set index { producer with phase := .gated } }
  | giveUp {state index producer error} (found : state.producers[index]? = some producer)
    (at' : producer.phase = .waiting)
    : ProducerStep settings state (.giveUp index)
        {
          state with
          producers :=
            state.producers.set index { producer with phase := .dropping (.error error) }
        }
  | work {state index producer label phase store}
    (found : state.producers[index]? = some producer)
    (moved : WorkStep settings producer.job producer.phase state.store label phase store)
    : ProducerStep settings state (.work producer.job.id label)
        { state with store, producers := state.producers.set index { producer with phase } }
  | unlock {state index producer outcome} (found : state.producers[index]? = some producer)
    (at' : producer.phase = .leaving outcome)
    : ProducerStep settings state (.unlock index)
        {
          state with
          producers := state.producers.set index { producer with phase := .dropping outcome }
        }
  | drop {state index producer outcome} (found : state.producers[index]? = some producer)
    (at' : producer.phase = .dropping outcome)
    : ProducerStep settings state (.drop index)
        {
          state with
          producers :=
            state.producers.set index { producer with gate := none, phase := .ended outcome }
        }

/-- One step of the protocol. The process can be killed, and the machine can crash, at any
point; a crash keeps what was committed to the database. The file system may write an entry
back on its own.
-/
inductive Step (settings : Settings) : State → Label → State → Prop where
  | opening {state label after} (taken : OpenStep state label after)
    : Step settings state label after
  | request {state label after} (serves : state.mode = .serving)
    (taken : RequestStep state label after)
    : Step settings state label after
  | producer {state label after} (serves : state.mode = .serving)
    (taken : ProducerStep settings state label after)
    : Step settings state label after
  | kill {state} : Step settings state .kill (state.stopped state.store)
  | flush {state} (id : String)
    : Step settings state (.flush id)
        {
          state with
          store.durable :=
            Table.replace state.store.durable id state.store.disk[id]?
        }
  | crash {state disk}
    (survives
      : ∀ (id : String), Survives state.store.disk[id]? state.store.durable[id]? disk[id]?)
    : Step settings state .crash
        (state.stopped { index := state.store.index, disk, durable := disk })

/-- The protocol on a data directory, from its first use on. -/
def system (settings : Settings) : System State Label where
  initial state := state = .fresh
  step := Step settings

end MoenotesAssets.Publication
