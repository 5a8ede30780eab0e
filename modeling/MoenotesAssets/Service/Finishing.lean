import MoenotesAssets.Service.Coordinators
import MoenotesAssets.TaskRunner.Completion

/-! A spawned coordinator calls `finish_task`: as long as it has not ended it can go on, it takes
finitely many steps of its own, and no way to its end avoids that call.
-/

namespace MoenotesAssets.Service

open Foundation

variable {executes : String → ItemResult → Prop} {downloads : Nat} {cancellable : Prop}
variable {stored kept : Option Task} {before after : Progress} {label : CoordinatorLabel}
variable {write : Write}

-----------------------------------------------------------------------------------------
-- Runs of a coordinator
-----------------------------------------------------------------------------------------

/-- A coordinator on its own, whose token may be cancelled at any time. -/
def coordination (executes : String → ItemResult → Prop) (downloads : Nat)
    : System Progress CoordinatorLabel where
  initial progress := ∃ task cancelled, progress = .starting task cancelled
  step before label after :=
    ∃ write, CoordinatorStep executes downloads True before label write after

/-- The steps of the coordinator, its futures and its saves, as opposed to a cancellation. -/
def CoordinatorLabel.own : CoordinatorLabel → Bool
  | .cancel => false
  | .run label => label.own
  | _ => true

/-- The work a coordinator still owes: a start spawns, settles and joins every key once. -/
def Progress.work : Progress → Nat
  | .starting task _ => 7 * task.keys.length + 6
  | .exporting run => run.work + 3
  | .refreshing _ _ => 3
  | .finishing _ => 2
  | .retrying _ => 1
  | .ended _ => 0

/-- The coordinator has called `finish_task`, which has not returned. -/
def Progress.inFinishTask : Progress → Bool
  | .finishing _ | .retrying _ => true
  | _ => false

/-- (WillFinish executes downloads id progress) holds when a coordinator will call `finish_task`
for the task `id`, if its futures and saves end: it can go on without being cancelled.
-/
structure WillFinish (executes : String → ItemResult → Prop) (downloads : Nat) (id : String)
    (progress : Progress)
    : Prop where
  continues
    : ∀ {trace after},
        (coordination executes downloads).Path progress trace after
        → after.isEnded = false
        → ∃ label write next,
            label.own = true ∧ CoordinatorStep executes downloads False after label write next
  bounded
    : ∀ {trace after},
        (coordination executes downloads).Path progress trace after
        → trace.countP CoordinatorLabel.own ≤ progress.work
  finishes
    : ∀ {trace after},
        (coordination executes downloads).Path progress trace after
        → after.isEnded = true
        → ∃ first second between,
            trace = first ++ second
            ∧ (coordination executes downloads).Path progress first between
            ∧ between.inFinishTask = true
            ∧ between.task.id = id

-----------------------------------------------------------------------------------------
-- Progress
-----------------------------------------------------------------------------------------

/-- What launches or aborts a start owes less than the start. -/
theorem launch_work_lt (task : Task) (cancelled : Bool)
    : (Progress.launch task cancelled).work < 7 * task.keys.length + 6 := by
  rw [Progress.launch]
  cases task.kind with
  | exports => exact Nat.lt_succ_self _
  | catalogRefresh =>
      rw [Progress.work]
      omega

theorem abort_work_lt (task : Task) : (Progress.abort task).work < 7 * task.keys.length + 6 := by
  rw [Progress.abort]
  cases task.kind with
  | exports => exact Nat.lt_succ_self _
  | catalogRefresh =>
      rw [Progress.work]
      omega

/-- A step of its own does some of the work of a coordinator. -/
theorem CoordinatorStep.work_lt
    (taken : CoordinatorStep executes downloads cancellable before label write after)
    (own : label.own = true)
    : after.work < before.work := by
  cases taken with
  | started => exact launch_work_lt _ _
  | @startFailed task _ now => exact abort_work_lt (persistenceFailed task now)
  | cancelStarting | cancelRefreshing => cases own
  | @run run label after _ taken =>
      have less : after.work < run.work := by
        refine taken.work_lt ?_
        rintro rfl
        cases own
      exact Nat.add_lt_add_right less 3
  | returned =>
      rw [Progress.work, Progress.work]
      omega
  | refreshed | saved | saveFailed | retrySaved | retryFailed =>
      rw [Progress.work, Progress.work]
      decide

/-- A cancellation does not. -/
theorem CoordinatorStep.work_eq
    (taken : CoordinatorStep executes downloads cancellable before label write after)
    (foreign : label.own = false)
    : after.work = before.work := by
  cases taken with
  | cancelStarting | cancelRefreshing => rfl
  | run _ taken =>
      cases taken with
      | cancel => rfl
      | _ => cases foreign
  | _ => cases foreign

/-- A lawful coordinator that has not ended can go on without being cancelled. -/
theorem Progress.Lawful.advances (honest : ∀ key item, executes key item → item.key = key)
    {progress : Progress} (lawful : progress.Lawful executes downloads stored kept)
    (running : progress.isEnded = false)
    : ∃ label write next,
        label.own = true ∧ CoordinatorStep executes downloads False progress label write next := by
  cases progress with
  | starting task cancelled => exact ⟨.started, _, _, rfl, .started⟩
  | exporting run =>
      obtain ⟨working, export', _, reached⟩ := lawful
      have accounted := TaskRunner.accounted_of_reachable honest reached
      by_cases done : run.phase = .returned
      · exact ⟨.returned, _, _, rfl, .returned done⟩
      · obtain ⟨label, next, own, taken⟩
            : ∃ label next, label ≠ .cancel ∧ TaskRunner.Step executes downloads run label next :=
          accounted.progress done
        refine ⟨.run label, _, _, ?_, .run (fun cancel => own cancel) taken⟩
        cases label with
        | cancel => exact absurd rfl own
        | _ => rfl
  | refreshing task cancelled =>
      exact ⟨.refreshed, _, _, rfl, @CoordinatorStep.refreshed _ _ _ _ _ (.error "") 0⟩
  | finishing task => exact ⟨.saved, _, _, rfl, .saved⟩
  | retrying task => exact ⟨.retrySaved, _, _, rfl, .retrySaved⟩
  | ended task => cases running

/-- A coordinator stays lawful on its own. -/
theorem lawful_of_coordination (honest : ∀ key item, executes key item → item.key = key)
    {trace : List CoordinatorLabel}
    (path : (coordination executes downloads).Path before trace after)
    (lawful : before.Lawful executes downloads stored kept)
    : ∃ stored kept, after.Lawful executes downloads stored kept := by
  refine path.preserves
    (P := fun progress => ∃ stored kept, progress.Lawful executes downloads stored kept) ?_
    ⟨stored, kept, lawful⟩
  rintro _ _ _ ⟨write, taken⟩ ⟨stored, kept, lawful⟩
  exact ⟨_, _, taken.lawful honest lawful⟩

/-- A coordinator takes no more steps of its own than the work it owes. -/
theorem work_of_coordination {trace : List CoordinatorLabel}
    (path : (coordination executes downloads).Path before trace after)
    : trace.countP CoordinatorLabel.own + after.work ≤ before.work := by
  induction path with
  | here => exact Nat.le_of_eq (Nat.zero_add _)
  | @next trace middle label after _ taken ih =>
      obtain ⟨write, taken⟩ := taken
      rw [List.countP_append, List.countP_singleton]
      cases own : label.own with
      | true =>
          have less := taken.work_lt own
          simp only [if_true]
          omega
      | false =>
          have same := taken.work_eq own
          simp only [Bool.false_eq_true, if_false]
          omega

/-- Only a return from `finish_task` ends a coordinator. -/
theorem CoordinatorStep.ends
    (taken : CoordinatorStep executes downloads cancellable before label write after)
    (ended : after.isEnded = true)
    : before.inFinishTask = true := by
  cases taken with
  | @started task cancelled =>
      rw [Progress.launch] at ended
      cases kind : task.kind <;> simp [kind, Progress.isEnded] at ended
  | @startFailed task _ now =>
      rw [Progress.abort] at ended
      cases kind : (persistenceFailed task now).kind <;> simp [kind, Progress.isEnded] at ended
  | cancelStarting | cancelRefreshing | run | returned | refreshed | saveFailed => cases ended
  | saved | retrySaved | retryFailed => rfl

/-- A coordinator on its own keeps its task. -/
theorem id_of_coordination {trace : List CoordinatorLabel}
    (path : (coordination executes downloads).Path before trace after)
    : after.task.id = before.task.id := by
  refine path.preserves (P := fun progress => progress.task.id = before.task.id) ?_ rfl
  rintro _ _ _ ⟨write, taken⟩ same
  exact taken.continues.id.trans same

/-- A lawful coordinator that has not ended will call `finish_task`. -/
theorem Progress.Lawful.willFinish (honest : ∀ key item, executes key item → item.key = key)
    {progress : Progress} (lawful : progress.Lawful executes downloads stored kept)
    (running : progress.isEnded = false)
    : WillFinish executes downloads progress.task.id progress := by
  constructor
  case continues =>
    intro trace after path open'
    obtain ⟨stored, kept, lawful⟩ := lawful_of_coordination honest path lawful
    exact lawful.advances honest open'
  case bounded =>
    intro trace after path
    exact (Nat.le_add_right _ _).trans (work_of_coordination path)
  case finishes =>
    intro trace after path ended
    cases path with
    | here => cases running.symm.trans ended
    | @next trace between label _ path taken =>
        obtain ⟨write, taken⟩ := taken
        exact ⟨trace, [label], between, rfl, path, taken.ends ended, id_of_coordination path⟩

end MoenotesAssets.Service
