import MoenotesAssets.TaskRunner.Accounting
import Mathlib.Algebra.GroupWithZero.Nat
import Mathlib.Data.Fintype.EquivFin

/-! What a returned run guarantees about its task, and that every run returns.
-/

namespace MoenotesAssets.TaskRunner

open Foundation MoenotesAssets.Service

variable {executes : String → ItemResult → Prop} {concurrency : Nat} {keys : List String}

-----------------------------------------------------------------------------------------
-- After a failed checkpoint
-----------------------------------------------------------------------------------------

/-- A failed checkpoint leaves an error in the task and a cancelled token. -/
def Halted (state : State) : Prop :=
  state.task.error.isSome ∧ state.cancelled = true

/-- A step that starts a key or attempts a checkpoint. -/
def Label.advances : Label → Bool
  | .spawn _ _ | .persist _ => true
  | _ => false

/-- A halted run starts nothing and saves nothing, and stays halted. -/
theorem Step.halted {state after : State} {label : Label}
    (taken : Step executes concurrency state label after) (halted : Halted state)
    : label.advances = false ∧ Halted after := by
  obtain ⟨error, cancelled⟩ := halted
  cases taken with
  | spawn _ _ live => rw [cancelled] at live; cases live
  | persist _ due =>
      simp [checkpointDue, Option.isNone_iff_eq_none, Option.isSome_iff_ne_none.mp error] at due
  | saveFailed => exact ⟨rfl, rfl, rfl⟩
  | cancel => exact ⟨rfl, error, rfl⟩
  | idle | settle | join | joinPanicked | joinUntracked | skip | saved | finish =>
      exact ⟨rfl, error, cancelled⟩

/-- From a halted state on, no step starts a key or attempts a checkpoint. -/
theorem halted_of_path {state after : State} {trace : List Label}
    (path : (system executes concurrency keys).Path state trace after) (halted : Halted state)
    : Halted after ∧ ∀ label ∈ trace, label.advances = false := by
  induction path with
  | here => exact ⟨halted, by simp⟩
  | next _ taken ih =>
      obtain ⟨before, silent⟩ := ih
      obtain ⟨quiet, still⟩ := Step.halted taken before
      refine ⟨still, fun label member => ?_⟩
      rcases List.mem_append.mp member with old | new
      · exact silent label old
      · rw [List.mem_singleton.mp new]
        exact quiet

-----------------------------------------------------------------------------------------
-- Every run ends
-----------------------------------------------------------------------------------------

/-- The work a phase still owes. -/
def Phase.work : Phase → Nat
  | .recorded => 4
  | .persisting => 3
  | .spawning => 2
  | .joining => 1
  | .returned | .unwound => 0

/-- The work an outstanding resource still owes. -/
def Resource.work (resource : Resource) : Nat :=
  if resource.outcome.isSome then 5 else 6

/-- The work a state still owes: every key is spawned, settled and joined once. -/
def State.work (state : State) : Nat :=
  7 * state.pending.length + (state.active.map Resource.work).sum + state.phase.work

/-- Every step but a cancellation does some of the remaining work, so a schedule has
finitely many of them.
-/
theorem Step.work_lt {state after : State} {label : Label}
    (taken : Step executes concurrency state label after) (own : label ≠ .cancel)
    : after.work < state.work := by
  cases taken with
  | cancel => exact absurd rfl own
  | spawn at' _ _ next =>
      simp [State.work, next, Resource.work]
      omega
  | settle running _ =>
      simp [State.work, running, Resource.work]
  | join at' ended =>
      simp [State.work, ended, at', Resource.work, Phase.work]
      omega
  | joinPanicked at' ended =>
      simp [State.work, ended, at', Resource.work, Phase.work]
      omega
  | finish at' =>
      simp only [State.work, at', Phase.work, List.length_nil]
      omega
  | idle at' | joinUntracked at' | persist at' | skip at' | saved at' | saveFailed at' =>
      simp [State.work, at', Phase.work]

/-- A run that has not returned can take a step: an outstanding resource can end and an
ended one can be joined, whatever the futures do.
-/
theorem Accounted.progress {state : State} (accounted : Accounted keys concurrency state)
    (running : state.phase ≠ .returned)
    : ∃ label after, label ≠ .cancel ∧ Step executes concurrency state label after := by
  cases at' : state.phase with
  | spawning =>
      by_cases full : concurrency ≤ state.active.length ∨ state.cancelled = true
        ∨ state.pending = []
      · exact ⟨_, _, by simp, .idle at' full⟩
      · simp only [not_or, Nat.not_le, Bool.not_eq_true] at full
        obtain ⟨room, live, more⟩ := full
        obtain ⟨key, rest, next⟩ := List.exists_cons_of_ne_nil more
        obtain ⟨id, unused⟩ :=
          Infinite.exists_notMem_finset (state.active.map Resource.id).toFinset
        have apart : ∀ other ∈ state.active, other.id ≠ id := by
          intro other member same
          exact unused (List.mem_toFinset.mpr (same ▸ List.mem_map_of_mem member))
        exact ⟨_, _, by simp, .spawn at' room live next apart⟩
  | joining =>
      cases active : state.active with
      | nil => exact ⟨_, _, by simp, @Step.finish _ _ _ 0 at' active⟩
      | cons resource rest =>
          obtain ⟨id, key, outcome⟩ := resource
          have own := accounted.tracked ⟨id, key, outcome⟩ (by simp [active])
          have first : state.active = [] ++ ⟨id, key, outcome⟩ :: rest := active
          rcases outcome with _ | item | _
          · exact ⟨_, _, by simp, .settle first .panics⟩
          · exact ⟨_, _, by simp, @Step.join _ _ _ _ _ _ _ _ 0 at' first⟩
          · exact ⟨_, _, by simp, @Step.joinPanicked _ _ _ _ _ _ _ _ 0 at' first own⟩
  | recorded =>
      cases due : checkpointDue state.task with
      | true => exact ⟨_, _, by simp, .persist at' due⟩
      | false => exact ⟨_, _, by simp, .skip at' due⟩
  | persisting => exact ⟨_, _, by simp, .saved at'⟩
  | returned => exact absurd at' running
  | unwound => exact absurd at' accounted.wound

/-- The steps of the coordinator and its resources, as opposed to a cancellation. -/
def Label.own : Label → Bool
  | .cancel => false
  | _ => true

/-- A schedule takes no more steps than the work owed at its start. -/
theorem work_of_path {state after : State} {trace : List Label}
    (path : (system executes concurrency keys).Path state trace after)
    : trace.countP Label.own + after.work ≤ state.work := by
  induction path with
  | here => simp
  | @next trace middle label after _ taken ih =>
      rw [List.countP_append, List.countP_singleton]
      by_cases cancel : label = .cancel
      · subst cancel
        cases taken
        simpa [Label.own, State.work] using ih
      · have less := Step.work_lt taken cancel
        have own : label.own = true := by cases label <;> simp_all [Label.own]
        rw [own]
        simp only [if_true]
        omega

/-- Every state of a run leads to a returned one, by induction on the remaining work. -/
theorem exists_return (honest : ∀ key item, executes key item → item.key = key)
    {state : State} (accounted : Accounted keys concurrency state)
    : ∃ more after,
        (system executes concurrency keys).Path state more after
        ∧ after.phase = .returned := by
  by_cases done : state.phase = .returned
  · exact ⟨[], state, .here, done⟩
  · obtain ⟨label, middle, own, taken⟩
        : ∃ label middle, label ≠ .cancel ∧ Step executes concurrency state label middle :=
      accounted.progress done
    have less := taken.work_lt own
    obtain ⟨more, after, path, returned⟩ :=
      exists_return honest (Accounted.step honest taken accounted)
    exact ⟨[label] ++ more, after, (System.Path.here.next taken).append path, returned⟩
termination_by state.work

-----------------------------------------------------------------------------------------
-- The guarantee
-----------------------------------------------------------------------------------------

/-- What `run` promises about its keys, checkpoints and final state, at any moment of a
run and when it has returned.
-/
structure AccountsForKeys (executes : String → ItemResult → Prop) (concurrency : Nat)
    (keys : List String) (trace : List Label) (state : State) : Prop where
  reported
    : state.phase = .returned
        → ∀ key, (resultKeys state.task.results).count key = if key ∈ keys then 1 else 0
  completed
    : state.phase = .returned
        → state.task.completed = state.task.results.length
          ∧ state.task.results.length = keys.length
  createdOnce : ∀ key, (trace.filterMap Label.spawned?).count key ≤ 1
  outstanding : state.active.length ≤ concurrency
  checkpoints
    : ∀ checkpoint, .persist checkpoint ∈ trace → checkpoint.results <+: state.task.results
  halts
    : ∀ before after, trace = before ++ .saveFailed :: after
        → (∀ label ∈ after, label.advances = false)
          ∧ (state.phase = .returned → state.task.state = .failed)
  succeeded
    : state.phase = .returned → state.task.state = .succeeded
        → state.task.error = none ∧ state.cancelled = false
          ∧ ∀ key ∈ keys, ∃ result ∈ state.task.results,
              result.key = key ∧ result.exportId.isSome
  tracked : state.phase ≠ .unwound
  returns
    : ∃ more after,
        (system executes concurrency keys).Path state more after
        ∧ after.phase = .returned
  finite
    : ∀ more after, (system executes concurrency keys).Path state more after
        → more.countP Label.own ≤ state.work

/-- A task with an error ends as failed. -/
theorem finalState_of_error {task : Task} {cancelled : Bool} (error : task.error.isSome)
    : finalState task cancelled = .failed := by
  simp [finalState, error]

/-- A task ends as succeeded only without error or cancellation, when every result
counted toward the total carries an export id.
-/
theorem finalState_succeeded {task : Task} {cancelled : Bool}
    (succeeded : finalState task cancelled = .succeeded)
    : task.error = none ∧ cancelled = false ∧ successes task = task.total := by
  unfold finalState at succeeded
  split at succeeded
  · cases succeeded
  · rename_i error
    split at succeeded
    · cases succeeded
    · rename_i live
      split at succeeded
      · rename_i all
        exact ⟨by simpa using error, by simpa using live, all⟩
      · split at succeeded <;> cases succeeded

/-- Every schedule of `run` over distinct keys accounts for each of them exactly once.
The account of places gives the final results, the trace the rest.
-/
theorem run_accounts_for_keys (distinct : keys.Nodup)
    (honest : ∀ key item, executes key item → item.key = key)
    {trace : List Label} {state : State}
    (run : (system executes concurrency keys).Execution trace state)
    : AccountsForKeys executes concurrency keys trace state := by
  have accounted := accounted_of_reachable honest run.reachable
  have traced := traced_of_execution run
  have final (done : state.phase = .returned)
      : (resultKeys state.task.results).Perm keys := by
    obtain ⟨active, pending, _⟩ := accounted.finished done
    simpa [active, pending, activeKeys] using accounted.placed
  constructor
  case reported =>
    intro done key
    rw [(final done).count_eq, distinct.count]
  case completed =>
    intro done
    have length := (final done).length_eq
    rw [resultKeys, List.length_map] at length
    exact ⟨(accounted.finished done).2.2.1, length⟩
  case createdOnce =>
    intro key
    exact Nat.le_trans (traced.created.sublist.count_le key)
      (List.nodup_iff_count_le_one.mp distinct key)
  case outstanding => exact accounted.bounded
  case checkpoints => exact traced.checkpoints
  case halts =>
    rintro before after rfl
    have failed : (system executes concurrency keys).Execution
        ((before ++ [.saveFailed]) ++ after) state := by
      simpa using run
    obtain ⟨middle, head, tail⟩ := failed.split
    obtain ⟨earlier, _, last⟩ := head.split
    have halted : Halted middle := by
      cases last.single with
      | saveFailed => exact ⟨rfl, rfl⟩
    obtain ⟨still, silent⟩ := halted_of_path tail halted
    refine ⟨silent, fun done => ?_⟩
    rw [(accounted.finished done).2.2.2]
    exact finalState_of_error still.1
  case succeeded =>
    intro done succeeded
    rw [(accounted.finished done).2.2.2] at succeeded
    obtain ⟨error, live, all⟩ := finalState_succeeded succeeded
    refine ⟨error, live, fun key member => ?_⟩
    have length := (final done).length_eq
    rw [resultKeys, List.length_map] at length
    have every := List.countP_eq_length.mp
      (all.trans (accounted.total.trans length.symm))
    obtain ⟨result, reported, same⟩ := List.mem_map.mp ((final done).mem_iff.mpr member)
    exact ⟨result, reported, same, every result reported⟩
  case tracked => exact accounted.wound
  case returns => exact exists_return honest accounted
  case finite =>
    intro more after path
    have := work_of_path path
    omega

/-- Two keys, one at a time: the first is published, then the token is cancelled, and the
second is reported without having been started.
-/
theorem run_accounts_for_two_keys
    : ∃ trace state,
        state.phase = .returned ∧ resultKeys state.task.results = ["a", "b"]
        ∧ state.task.state = .cancelled
        ∧ AccountsForKeys (fun key item => item.key = key) 1 ["a", "b"] trace state := by
  let task : Task :=
    {
      id := "t", kind := .exports, state := .running, snapshot := none
      keys := ["a", "b"], total := 2, completed := 0, results := [], error := none
      created := 0, updated := 0
    }
  let item : ItemResult := { key := "a", exportId := some "e", error := none }
  have start : (system (fun key item => item.key = key) 1 ["a", "b"]).Execution []
      (.start task ["a", "b"] false) :=
    ⟨_, ⟨task, false, rfl, rfl, rfl⟩, .here⟩
  have spawn := start.next
    (@Step.spawn _ _ _ 7 "a" ["b"] rfl (by decide) rfl rfl (by simp [State.start]))
  have full := spawn.next (@Step.idle _ _ _ rfl (Or.inl (by decide)))
  have settle := full.next
    (@Step.settle _ _ _ [] 7 "a" [] (.result item) rfl (.yields rfl))
  have join := settle.next (@Step.join _ _ _ [] 7 "a" item [] 1 rfl rfl)
  have skip := join.next (@Step.skip _ _ _ rfl rfl)
  have cancel := skip.next (@Step.cancel _ _ _ (by simp))
  have idle := cancel.next (@Step.idle _ _ _ rfl (Or.inr (Or.inl rfl)))
  have done := idle.next (@Step.finish _ _ _ 2 rfl rfl)
  exact ⟨_, _, rfl, rfl, rfl,
    run_accounts_for_keys (by decide) (fun _ _ same => same) done⟩

end MoenotesAssets.TaskRunner
