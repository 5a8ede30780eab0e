import MoenotesAssets.TaskRunner.Model
import Mathlib.Data.List.Nodup

/-! Every selected key is in exactly one place: reported, outstanding or pending. The
coordinator moves keys between these places and loses none.
-/

namespace MoenotesAssets.TaskRunner

open Foundation MoenotesAssets.Service

variable {executes : String → ItemResult → Prop} {concurrency : Nat} {keys : List String}

-----------------------------------------------------------------------------------------
-- The invariant
-----------------------------------------------------------------------------------------

/-- The keys of the outstanding resource tasks. -/
def activeKeys (active : List Resource) : List String :=
  active.map Resource.key

/-- The keys are accounted for, the task ids are tracked, and the final task describes
the final results.
-/
structure Accounted (keys : List String) (concurrency : Nat) (state : State) : Prop where
  placed
    : (resultKeys state.task.results ++ activeKeys state.active ++ state.pending).Perm keys
  bounded : state.active.length ≤ concurrency
  distinct : (state.active.map Resource.id).Nodup
  tracked : ∀ resource ∈ state.active, state.identities resource.id = some resource.key
  honest
    : ∀ resource ∈ state.active, ∀ item,
        resource.outcome = some (.result item) → item.key = resource.key
  total : state.task.total = keys.length
  finished
    : state.phase = .returned
        → state.active = [] ∧ state.pending = []
          ∧ state.task.completed = state.task.results.length
          ∧ state.task.state = finalState state.task state.cancelled
  wound : state.phase ≠ .unwound

/-- The keys move from one place to another without loss when one of them is joined. -/
private theorem moved_perm {results before rest pending : List String} {key : String}
    : (results ++ [key] ++ (before ++ rest) ++ pending).Perm
        (results ++ (before ++ key :: rest) ++ pending) := by
  have middle : (key :: (before ++ rest)).Perm (before ++ key :: rest) :=
    List.perm_middle.symm
  refine List.Perm.append_right pending ?_
  rw [List.append_assoc]
  exact List.Perm.append_left results middle

/-- The initial state accounts for all keys as pending. -/
theorem Accounted.start {state : State}
    (initial : (system executes concurrency keys).initial state)
    : Accounted keys concurrency state := by
  obtain ⟨task, cancelled, rfl, empty, total⟩ := initial
  constructor
  case placed => simp [State.start, empty, resultKeys, activeKeys]
  case total => exact total
  all_goals simp [State.start]

/-- Removing a joined resource and reporting its key keeps the account. -/
theorem Accounted.join {state : State} (accounted : Accounted keys concurrency state)
    {before rest : List Resource} {resource : Resource} {item : ItemResult} (now : Nat)
    (ended : state.active = before ++ resource :: rest) (same : item.key = resource.key)
    : Accounted keys concurrency
        {
          state with
          task := pushResult state.task item now
          active := before ++ rest
          identities := Function.update state.identities resource.id none
          phase := .recorded
        } := by
  have member {other : Resource} (kept : other ∈ before ++ rest) : other ∈ state.active := by
    rw [ended]
    simp only [List.mem_append, List.mem_cons] at kept ⊢
    exact kept.imp_right Or.inr
  have distinct := accounted.distinct
  rw [ended] at distinct
  simp only [List.map_append, List.map_cons] at distinct
  have apart : resource.id ∉ before.map Resource.id ++ rest.map Resource.id :=
    (List.nodup_middle.mp distinct).notMem
  constructor
  case placed =>
    have placed := accounted.placed
    rw [ended] at placed
    simp only [activeKeys, List.map_append, List.map_cons] at placed
    refine List.Perm.trans ?_ placed
    simp only [pushResult, activeKeys, resultKeys_append, List.map_append]
    simpa only [resultKeys, List.map_cons, List.map_nil, same] using moved_perm
  case bounded =>
    have bounded := accounted.bounded
    rw [ended] at bounded
    simp only [List.length_append, List.length_cons] at *
    omega
  case distinct =>
    simpa only [List.map_append] using (List.nodup_middle.mp distinct).of_cons
  case tracked =>
    intro other kept
    have elsewhere : other.id ≠ resource.id := by
      intro clash
      rw [← clash, ← List.map_append] at apart
      exact apart (List.mem_map_of_mem kept)
    exact (Function.update_of_ne elsewhere _ _).trans (accounted.tracked other (member kept))
  case honest => exact fun other kept => accounted.honest other (member kept)
  case total => exact accounted.total
  case finished => simp
  case wound => simp

/-- A step that leaves the keys, the set and the counters alone keeps the account. -/
theorem Accounted.frame {state after : State} (accounted : Accounted keys concurrency state)
    (results : after.task.results = state.task.results)
    (total : after.task.total = state.task.total)
    (active : after.active = state.active) (pending : after.pending = state.pending)
    (identities : after.identities = state.identities)
    (running : after.phase ≠ .returned) (wound : after.phase ≠ .unwound)
    : Accounted keys concurrency after := by
  constructor
  case placed => simpa only [results, active, pending] using accounted.placed
  case bounded => simpa only [active] using accounted.bounded
  case distinct => simpa only [active] using accounted.distinct
  case tracked => simpa only [active, identities] using accounted.tracked
  case honest => simpa only [active] using accounted.honest
  case total => exact total.trans accounted.total
  case finished => exact fun done => absurd done running
  case wound => exact wound

/-- Every step keeps the account, for futures that report their own key. -/
theorem Accounted.step (honest : ∀ key item, executes key item → item.key = key)
    {state after : State} {label : Label}
    (taken : (system executes concurrency keys).step state label after)
    (accounted : Accounted keys concurrency state)
    : Accounted keys concurrency after := by
  cases taken with
  | cancel before => exact accounted.frame rfl rfl rfl rfl rfl before accounted.wound
  | @spawn id key rest at' room live next unused =>
      constructor
      case placed =>
        refine List.Perm.trans (List.Perm.of_eq ?_) accounted.placed
        simp [activeKeys, next]
      case bounded =>
        simp only [List.length_append, List.length_cons, List.length_nil]
        omega
      case distinct =>
        simp only [List.map_append, List.map_cons, List.map_nil]
        refine List.nodup_append.mpr ⟨accounted.distinct, by simp, ?_⟩
        intro left member right new same
        obtain ⟨other, kept, rfl⟩ := List.mem_map.mp member
        rw [List.mem_singleton.mp new] at same
        exact unused other kept same
      case tracked =>
        intro other member
        rcases List.mem_append.mp member with old | new
        · exact (Function.update_of_ne (unused other old) _ _).trans
            (accounted.tracked other old)
        · rw [List.mem_singleton.mp new]
          exact Function.update_self ..
      case honest =>
        intro other member item outcome
        rcases List.mem_append.mp member with old | new
        · exact accounted.honest other old item outcome
        · rw [List.mem_singleton.mp new] at outcome
          cases outcome
      case total => exact accounted.total
      case finished => simp [at']
      case wound => exact accounted.wound
  | idle => exact accounted.frame rfl rfl rfl rfl rfl (by simp) (by simp)
  | @settle before id key rest outcome running settles =>
      have same : (before ++ { id, key, outcome := some outcome } :: rest).map Resource.id
          = state.active.map Resource.id := by
        simp [running]
      have unfinished : state.phase ≠ .returned := by
        intro done
        rw [(accounted.finished done).1] at running
        simp at running
      constructor
      case placed =>
        refine List.Perm.trans (List.Perm.of_eq ?_) accounted.placed
        simp [activeKeys, running]
      case bounded =>
        have bounded := accounted.bounded
        rw [running] at bounded
        simpa using bounded
      case distinct => exact same ▸ accounted.distinct
      case tracked =>
        intro other member
        rcases List.mem_append.mp member with old | new
        · exact accounted.tracked other (by simp [running, old])
        · rcases List.mem_cons.mp new with rfl | old
          · exact accounted.tracked { id, key, outcome := none } (by simp [running])
          · exact accounted.tracked other (by simp [running, old])
      case honest =>
        intro other member item ended
        rcases List.mem_append.mp member with old | new
        · exact accounted.honest other (by simp [running, old]) item ended
        · rcases List.mem_cons.mp new with rfl | old
          · obtain rfl : outcome = .result item := Option.some.inj ended
            cases settles with
            | yields result => exact honest key item result
            | stopped => rfl
          · exact accounted.honest other (by simp [running, old]) item ended
      case total => exact accounted.total
      case finished => exact fun done => absurd done unfinished
      case wound => exact accounted.wound
  | @join before id key item rest now at' ended =>
      exact accounted.join now ended (accounted.honest _ (by simp [ended]) item rfl)
  | @joinPanicked before id key tracked rest now at' ended known =>
      have own := accounted.tracked { id, key, outcome := some .panicked } (by simp [ended])
      obtain rfl : key = tracked := Option.some.inj (own.symm.trans known)
      exact accounted.join now ended rfl
  | @joinUntracked before id key rest item at' ended unknown =>
      have own := accounted.tracked { id, key, outcome := some .panicked } (by simp [ended])
      rw [unknown] at own
      cases own
  | persist => exact accounted.frame rfl rfl rfl rfl rfl (by simp) (by simp)
  | skip => exact accounted.frame rfl rfl rfl rfl rfl (by simp) (by simp)
  | saved => exact accounted.frame rfl rfl rfl rfl rfl (by simp) (by simp)
  | saveFailed => exact accounted.frame rfl rfl rfl rfl rfl (by simp) (by simp)
  | finish at' drained =>
      constructor
      case placed =>
        refine List.Perm.trans (List.Perm.of_eq ?_) accounted.placed
        simp [finish, extendPending, drained, activeKeys]
      case finished => exact fun _ => ⟨drained, rfl, rfl, rfl⟩
      case total => exact accounted.total
      all_goals simp [drained]

/-- Every reachable state accounts for every key. -/
theorem accounted_of_reachable (honest : ∀ key item, executes key item → item.key = key)
    {state : State} (reached : (system executes concurrency keys).Reachable state)
    : Accounted keys concurrency state :=
  reached.invariant Accounted.start (fun taken => Accounted.step honest taken)

-----------------------------------------------------------------------------------------
-- The state of the task
-----------------------------------------------------------------------------------------

/-- The final state is terminal. -/
theorem finalState_terminal (task : Task) (cancelled : Bool)
    : (finalState task cancelled).terminal = true := by
  unfold finalState
  split_ifs <;> rfl

/-- Until the run returns, the task is running unless persistence has failed, and only a
task without that failure is handed to a checkpoint.
-/
structure Running (state : State) : Prop where
  running
    : state.phase ≠ .returned → state.task.error = none → state.task.state = .running
  persisting : state.phase = .persisting → state.task.error = none

/-- Every step keeps the task running or failed. -/
theorem Running.step {state after : State} {label : Label} (running : Running state)
    (taken : Step executes concurrency state label after)
    : Running after := by
  cases taken with
  | cancel before => exact ⟨running.running, running.persisting⟩
  | spawn | settle => exact ⟨running.running, running.persisting⟩
  | idle at' | join at' | joinPanicked at' | joinUntracked at' | skip at' | saved at' =>
      refine ⟨fun _ => running.running ?_, by simp⟩
      simp [at']
  | persist at' due =>
      have healthy : state.task.error = none := by
        simp only [checkpointDue, Bool.and_eq_true, Option.isNone_iff_eq_none] at due
        exact due.1
      exact ⟨fun _ => running.running (by simp [at']), fun _ => healthy⟩
  | saveFailed => exact ⟨by simp [persistenceFailed], by simp⟩
  | finish => exact ⟨by simp, by simp⟩

-----------------------------------------------------------------------------------------
-- Futures and checkpoints, along the trace
-----------------------------------------------------------------------------------------

/-- The key whose future a step creates. -/
def Label.spawned? : Label → Option String
  | .spawn _ key => some key
  | _ => none

/-- The futures created so far are those of the keys no longer pending, in their order,
and every checkpoint handed out so far is an initial part of the results.
-/
structure Traced (keys : List String) (trace : List Label) (state : State) : Prop where
  created : trace.filterMap Label.spawned? <+: keys
  remaining
    : state.phase ≠ .returned → trace.filterMap Label.spawned? ++ state.pending = keys
  checkpoints
    : ∀ checkpoint, .persist checkpoint ∈ trace → checkpoint.results <+: state.task.results

/-- A step continues the task: its selection stays and its results grow at their end. -/
theorem Step.continues {state after : State} {label : Label}
    (taken : Step executes concurrency state label after)
    : state.task.Continues after.task := by
  cases taken with
  | join | joinPanicked => exact ⟨rfl, rfl, rfl, rfl, List.prefix_append _ _⟩
  | finish => exact ⟨rfl, rfl, rfl, rfl, List.prefix_append _ _⟩
  | saveFailed => exact persistenceFailed_continues _ _
  | cancel | spawn | idle | settle | joinUntracked | persist | skip | saved =>
      exact Task.Continues.refl _

/-- Only a spawning step creates a future, and it takes the first pending key. -/
theorem Step.spawned {state after : State} {label : Label}
    (taken : Step executes concurrency state label after)
    : (∃ key, label.spawned? = some key ∧ state.pending = key :: after.pending)
      ∨ label.spawned? = none ∧ (after.pending = state.pending ∨ after.phase = .returned) := by
  cases taken with
  | spawn _ _ _ next => exact Or.inl ⟨_, rfl, next⟩
  | finish => exact Or.inr ⟨rfl, Or.inr rfl⟩
  | cancel | idle | settle | join | joinPanicked | joinUntracked | persist | skip | saved
  | saveFailed => exact Or.inr ⟨rfl, Or.inl rfl⟩

/-- A returned run takes no step that would create a future. -/
theorem Step.returned {state after : State} {label : Label}
    (taken : Step executes concurrency state label after) (done : state.phase = .returned)
    : label.spawned? = none ∧ after.phase = .returned := by
  cases taken with
  | cancel before => exact absurd done before
  | settle => exact ⟨rfl, done⟩
  | spawn at' | idle at' | join at' | joinPanicked at' | joinUntracked at' | persist at'
  | skip at' | saved at' | saveFailed at' | finish at' =>
      rw [at'] at done
      cases done

/-- Every execution is traced, by induction on its steps. -/
theorem traced_of_execution {trace : List Label} {state : State}
    (run : (system executes concurrency keys).Execution trace state)
    : Traced keys trace state := by
  refine run.history ?_ ?_
  · rintro state ⟨task, cancelled, rfl, _, _⟩
    exact ⟨List.nil_prefix, fun _ => rfl, by simp⟩
  · intro trace state label after _ traced taken
    have spawned : (trace ++ [label]).filterMap Label.spawned?
        = trace.filterMap Label.spawned? ++ label.spawned?.toList := by
      rw [List.filterMap_append]
      cases created : label.spawned? <;> simp [created]
    constructor
    case created =>
      rw [spawned]
      by_cases done : state.phase = .returned
      · rw [(taken.returned done).1]
        simpa using traced.created
      · rcases taken.spawned with ⟨key, created, next⟩ | ⟨silent, _⟩
        · have whole := traced.remaining done
          rw [next] at whole
          exact ⟨after.pending, by simpa [created] using whole⟩
        · rw [silent]
          simpa using traced.created
    case remaining =>
      intro running
      have before : state.phase ≠ .returned := fun done => running (taken.returned done).2
      have whole := traced.remaining before
      rw [spawned]
      rcases taken.spawned with ⟨key, created, next⟩ | ⟨silent, kept | done⟩
      · rw [created, ← whole, next]
        simp
      · rw [silent, kept, ← whole]
        simp
      · exact absurd done running
    case checkpoints =>
      intro checkpoint member
      rcases List.mem_append.mp member with old | new
      · exact (traced.checkpoints checkpoint old).trans taken.continues.results
      · obtain rfl := List.mem_singleton.mp new
        cases taken with
        | persist => exact List.prefix_rfl

end MoenotesAssets.TaskRunner
