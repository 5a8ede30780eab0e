import MoenotesAssets.Foundation.Transition
import MoenotesAssets.Foundation.Arena
import MoenotesAssets.Foundation.Machine
import Mathlib.Logic.Function.Basic

/-! The shared-work registry of `shared.rs`: callers that join one keyed operation, the
producer spawned for it, and the counter that cancels it when the last caller leaves.
-/

namespace MoenotesAssets.SharedWork

open Foundation Foundation.Arena Foundation.Machine

variable {T : Type}

-----------------------------------------------------------------------------------------
-- Data
-----------------------------------------------------------------------------------------

/-- The published value of `Outcome<T>`; `none` in the watch channel is "not yet". -/
abbrev Outcome (T : Type) := Except String T

/-- The outcome stored when the inner task panics. -/
def terminated : Outcome T := .error "shared operation terminated unexpectedly"

/-- The two tasks `join` spawns for a new `Shared`. The outer one calls `create`, awaits
the inner task that polls the returned future, and stores the outcome.
-/
inductive Producer (T : Type) where
  | spawned
  | running
  | returned (outcome : Outcome T)
  | published
  | ended

/-- The outer task owns an `Arc` of its `Shared` until it ends. -/
def Producer.strong : Producer T → Nat
  | .ended => 0
  | _ => 1

/-- `Shared<T>`, with the key it was registered under and its producer. -/
structure Shared (T : Type) where
  key : String
  result : Option (Outcome T)
  cancelled : Bool
  users : Nat
  producer : Producer T

/-- The value `join` allocates when no entry can be reused: one user, the caller. -/
def Shared.new (key : String) : Shared T :=
  { key, result := none, cancelled := false, users := 1, producer := .spawned }

/-- One call of `join`, from the entry under the registry lock to the release of its `Arc`.
`failed` still owns the waiter of an error result; `cancelling` has decremented `users`
from one and is about to call `cancel`; `releasing` owns nothing but the `Arc`.
-/
inductive Caller (T : Type) where
  | entering (key : String) (existing : Option Nat)
  | waiting (shared : Nat)
  | failed (shared : Nat) (error : String)
  | leased (shared : Nat) (value : T)
  | cancelling (shared : Nat)
  | releasing (shared : Nat)
  | gone

/-- The `Shared` whose `Waiter` or `Lease` a caller owns. -/
def Caller.live? : Caller T → Option Nat
  | .waiting shared | .failed shared _ | .leased shared _ => some shared
  | _ => none

/-- The `Shared` a caller owns an `Arc` of: its live handle, a handle being dropped, or
the entry upgraded under the lock.
-/
def Caller.arc? : Caller T → Option Nat
  | .entering _ existing => existing
  | .waiting shared | .failed shared _ | .leased shared _ | .cancelling shared
  | .releasing shared => some shared
  | .gone => none

/-- Whether a caller owns a live handle of `shared`, as a weight. -/
def Caller.lives (shared : Nat) (caller : Caller T) : Nat :=
  if caller.live? = some shared then 1 else 0

/-- Whether a caller owns an `Arc` of `shared`, as a weight. -/
def Caller.strong (shared : Nat) (caller : Caller T) : Nat :=
  if caller.arc? = some shared then 1 else 0

/-- The registry map of weak references, every `Shared` ever allocated, every call of
`join` ever started, and the call inside the critical section.
-/
structure State (T : Type) where
  registry : String → Option Nat
  shareds : List (Shared T)
  callers : List (Caller T)
  lock : Option Nat

/-- The empty registry. -/
def State.empty : State T :=
  { registry := fun _ => none, shareds := [], callers := [], lock := none }

/-- The number of live `Waiter`s and `Lease`s of a `Shared`. -/
def State.liveCount (state : State T) (shared : Nat) : Nat :=
  total (Caller.lives shared) state.callers

/-- The references a `Shared`'s own outer task holds. -/
def State.producerCount (state : State T) (shared : Nat) : Nat :=
  ((state.shareds[shared]?).map (fun entry => entry.producer.strong)).getD 0

/-- `strong_count`: the references held by callers and by the outer task. -/
def State.strongCount (state : State T) (shared : Nat) : Nat :=
  total (Caller.strong shared) state.callers + state.producerCount shared

-----------------------------------------------------------------------------------------
-- join, under the registry lock
-----------------------------------------------------------------------------------------

/-- `map.retain(|_, v| v.strong_count() > 0)` -/
def State.retain (state : State T) : String → Option Nat :=
  fun key => (state.registry key).filter (fun shared => 0 < state.strongCount shared)

/-- `s.cancel.is_cancelled()` -/
def State.isCancelled (state : State T) (shared : Nat) : Bool :=
  ((state.shareds[shared]?).map (fun entry => entry.cancelled)).getD false

/-- The upgraded entry of `key` whose token is not cancelled. -/
def State.existing (state : State T) (key : String) : Option Nat :=
  (state.retain key).filter (fun shared => !state.isCancelled shared)

/-- `|n| if n > 0 { n.checked_add(1) } else { None }` -/
def joinUsers (users : Nat) : Option Nat :=
  if 0 < users then checkedAdd users 1 else none

/-- The call enters the critical section, sweeps dead entries and upgrades a candidate. -/
def State.enter (state : State T) (key : String) : State T :=
  {
    state with
    registry := state.retain
    callers := state.callers ++ [.entering key (state.existing key)]
    lock := some state.callers.length
  }

/-- The call counted itself in an existing `Shared` and leaves the critical section. -/
def State.attach (state : State T) (caller shared : Nat) (entry : Shared T) (users : Nat)
    : State T :=
  {
    state with
    shareds := state.shareds.set shared { entry with users }
    callers := state.callers.set caller (.waiting shared)
    lock := none
  }

/-- The call registers a new `Shared`, spawns its producer and leaves the critical section. -/
def State.create (state : State T) (caller : Nat) (key : String) : State T :=
  {
    registry := Function.update state.registry key (some state.shareds.length)
    shareds := state.shareds ++ [Shared.new key]
    callers := state.callers.set caller (.waiting state.shareds.length)
    lock := none
  }

-----------------------------------------------------------------------------------------
-- Steps
-----------------------------------------------------------------------------------------

/-- What an observer sees of one step. -/
inductive Label (T : Type) where
  | enter (caller : Nat) (key : String)
  | attach (caller shared : Nat)
  | create (caller shared : Nat)
  | start (shared : Nat)
  | complete (shared : Nat) (value : T)
  | fail (shared : Nat) (error : String)
  | panic (shared : Nat)
  | publish (shared : Nat) (outcome : Outcome T)
  | finish (shared : Nat)
  | receive (caller shared : Nat) (outcome : Outcome T)
  | leave (caller shared : Nat)
  | cancel (caller shared : Nat)
  | release (caller shared : Nat)

/-- The steps of a producer's two tasks on its own `Shared`. The callers of `join` pass
closures that only build a future, so the call of `create` itself does not fail.
-/
inductive ProducerStep (shared : Nat) : Shared T → Label T → Shared T → Prop where
  /-- The outer task calls `create(producer.cancel.clone())` and spawns the inner one. -/
  | start {entry} (ready : entry.producer = .spawned)
    : ProducerStep shared entry (.start shared) { entry with producer := .running }
  | complete {entry value} (ready : entry.producer = .running)
    : ProducerStep shared entry (.complete shared value)
        { entry with producer := .returned (.ok value) }
  | fail {entry error} (ready : entry.producer = .running)
    : ProducerStep shared entry (.fail shared error)
        { entry with producer := .returned (.error error) }
  | panic {entry} (ready : entry.producer = .running)
    : ProducerStep shared entry (.panic shared)
        { entry with producer := .returned terminated }
  /-- `producer.result.send_replace(Some(r))` -/
  | publish {entry outcome} (ready : entry.producer = .returned outcome)
    : ProducerStep shared entry (.publish shared outcome)
        { entry with result := some outcome, producer := .published }
  | finish {entry} (ready : entry.producer = .published)
    : ProducerStep shared entry (.finish shared) { entry with producer := .ended }

/-- The steps of a caller that owns a handle of a `Shared`. A waiting caller may leave at
any await point: its token may be cancelled, or its future dropped.
-/
inductive HandleStep (index shared : Nat)
    : Caller T → Shared T → Label T → Caller T → Shared T → Prop where
  | lease {entry value} (ready : entry.result = some (.ok value))
    : HandleStep index shared (.waiting shared) entry (.receive index shared (.ok value))
        (.leased shared value) entry
  | reject {entry error} (ready : entry.result = some (.error error))
    : HandleStep index shared (.waiting shared) entry (.receive index shared (.error error))
        (.failed shared error) entry
  /-- `fetch_sub` returned 1: `cancel` is the next instruction of the drop. -/
  | leaveLast {caller entry} (owns : caller.live? = some shared) (last : entry.users = 1)
    : HandleStep index shared caller entry (.leave index shared) (.cancelling shared)
        { entry with users := wrappingSub entry.users 1 }
  | leave {caller entry} (owns : caller.live? = some shared) (others : entry.users ≠ 1)
    : HandleStep index shared caller entry (.leave index shared) (.releasing shared)
        { entry with users := wrappingSub entry.users 1 }
  | cancel {entry}
    : HandleStep index shared (.cancelling shared) entry (.cancel index shared)
        (.releasing shared) { entry with cancelled := true }
  | release {entry}
    : HandleStep index shared (.releasing shared) entry (.release index shared) .gone entry

/-- One step of the registry, its callers and its producers. Only one call at a time is
between `enter` and `attach` or `create`; every other step may interleave with it.
-/
inductive Step : State T → Label T → State T → Prop where
  /-- `Weak::upgrade` aborts the process beyond `isize::MAX` references. -/
  | enter {state key} (free : state.lock = none)
    (counted : ∀ shared, state.retain key = some shared → state.strongCount shared ≤ maxRefcount)
    : Step state (.enter state.callers.length key) (state.enter key)
  | attach {state caller key shared entry users}
    (held : state.callers[caller]? = some (.entering key (some shared)))
    (found : state.shareds[shared]? = some entry)
    (joined : joinUsers entry.users = some users)
    : Step state (.attach caller shared) (state.attach caller shared entry users)
  | create {state caller key existing}
    (held : state.callers[caller]? = some (.entering key existing))
    (refused
      : ∀ shared entry,
          existing = some shared
          → state.shareds[shared]? = some entry
          → joinUsers entry.users = none)
    : Step state (.create caller state.shareds.length) (state.create caller key)
  | handle {state index shared caller entry label caller' entry'}
    (held : state.callers[index]? = some caller)
    (found : state.shareds[shared]? = some entry)
    (moved : HandleStep index shared caller entry label caller' entry')
    : Step state label
        {
          state with
          shareds := state.shareds.set shared entry'
          callers := state.callers.set index caller'
        }
  | producer {state shared entry label entry'}
    (found : state.shareds[shared]? = some entry)
    (moved : ProducerStep shared entry label entry')
    : Step state label { state with shareds := state.shareds.set shared entry' }

/-- The registry of a running process, from its creation on. -/
def system (T : Type) : System (State T) (Label T) where
  initial state := state = .empty
  step := Step

end MoenotesAssets.SharedWork
