import MoenotesAssets.Service.Tasks
import MoenotesAssets.TaskRunner.Accounting

/-! What a coordinator knows of the two places its task is recorded in: while it works the
table holds an earlier version that is not terminal and memory holds none; once it ended
one of the two shows its last record.
-/

namespace MoenotesAssets.Service

open Foundation

variable {executes : String → ItemResult → Prop} {downloads : Nat} {cancellable : Prop}
variable {stored kept : Option Task}

-----------------------------------------------------------------------------------------
-- Records
-----------------------------------------------------------------------------------------

/-- An export's record names every key once and its results account for some of them. -/
structure Accountable (task : Task) : Prop where
  selected : task.kind = .exports → task.keys.Nodup ∧ task.total = task.keys.length
  missing : task.kind = .exports → ∃ rest, (resultKeys task.results ++ rest).Perm task.keys

/-- Accountability does not depend on the state, the error or the times. -/
theorem Accountable.of_same {task later : Task} (accountable : Accountable task)
    (same : task.Continues later) (results : later.results = task.results)
    : Accountable later := by
  constructor
  case selected =>
    intro export'
    rw [same.keys, same.total]
    exact accountable.selected (same.kind ▸ export')
  case missing =>
    intro export'
    rw [same.keys, results]
    exact accountable.missing (same.kind ▸ export')

/-- A new task is accountable, for any draft of the two submissions. -/
theorem newTask_accountable {config : Config} {draft : Draft} (submits : Submits config draft)
    (id : String) (created updated : Nat)
    : Accountable (newTask draft id created updated) := by
  cases submits with
  | @exports _ _ _ keys selected =>
      exact ⟨fun _ => ⟨selectKeys_nodup selected, rfl⟩, fun _ => ⟨keys, .refl _⟩⟩
  | refresh => exact ⟨by simp [newTask, refreshDraft], by simp [newTask, refreshDraft]⟩

/-- A run keeps its task accountable. -/
theorem accountable_of_run (honest : ∀ key item, executes key item → item.key = key)
    {run : TaskRunner.State} (distinct : run.task.keys.Nodup)
    (reached : (TaskRunner.system executes downloads run.task.keys).Reachable run)
    : Accountable run.task := by
  have accounted := TaskRunner.accounted_of_reachable honest reached
  refine ⟨fun _ => ⟨distinct, accounted.total⟩, fun _ => ?_⟩
  exact ⟨_, by simpa only [List.append_assoc] using accounted.placed⟩

-----------------------------------------------------------------------------------------
-- The law of a coordinator
-----------------------------------------------------------------------------------------

/-- The task is being worked on: it is not in memory and the table shows an earlier
version of it that is not terminal.
-/
structure Working (stored kept : Option Task) (task : Task) : Prop where
  absent : kept = none
  earlier : ∃ row, stored = some row ∧ row.state.terminal = false ∧ row.Continues task
  accountable : Accountable task

/-- Working goes on under a later version of the task. -/
theorem Working.later {task after : Task} (working : Working stored kept task)
    (continues : task.Continues after) (accountable : Accountable after)
    : Working stored kept after := by
  obtain ⟨row, held, open', earlier⟩ := working.earlier
  exact ⟨working.absent, ⟨row, held, open', earlier.trans continues⟩, accountable⟩

/-- A saved record that is not terminal is an earlier version of itself. -/
theorem Working.saved {task : Task} (working : Working stored kept task)
    (open' : task.state.terminal = false)
    : Working (some task) kept task :=
  ⟨working.absent, ⟨task, rfl, open', .refl task⟩, working.accountable⟩

/-- What holds of the row and the record in memory at each stage of a coordinator. -/
def Progress.Lawful (executes : String → ItemResult → Prop) (downloads : Nat)
    (stored kept : Option Task) : Progress → Prop
  | .starting task _ =>
      Working stored kept task ∧ task.state = .running ∧ task.error = none
        ∧ task.results = []
  | .exporting run =>
      Working stored kept run.task ∧ run.task.kind = .exports ∧ TaskRunner.Running run
        ∧ (TaskRunner.system executes downloads run.task.keys).Reachable run
  | .refreshing task _ => Working stored kept task
  | .finishing task | .retrying task =>
      Working stored kept task ∧ task.state.terminal = true
  | .ended task =>
      task.state.terminal = true ∧ (kept = some task ∨ kept = none ∧ stored = some task)

/-- The row after a write by its own coordinator. -/
def Write.storedRow (stored : Option Task) : Write → Option Task
  | .row task => some task
  | _ => stored

/-- The record in memory after a write by its own coordinator. -/
def Write.keptRecord (kept : Option Task) : Write → Option Task
  | .retained task => some task
  | _ => kept

/-- The record a write puts into one of the two places. -/
def Write.task? : Write → Option Task
  | .nothing => none
  | .row task | .retained task => some task

/-- Before it ended, a coordinator is working on its task. -/
theorem Progress.Lawful.working {progress : Progress}
    (lawful : progress.Lawful executes downloads stored kept)
    (running : progress.isEnded = false)
    : Working stored kept progress.task := by
  cases progress with
  | refreshing => exact lawful
  | ended => cases running
  | starting | exporting | finishing | retrying => exact lawful.1

-----------------------------------------------------------------------------------------
-- Steps of a coordinator
-----------------------------------------------------------------------------------------

/-- Launching or aborting keeps the record. -/
theorem launch_task (task : Task) (cancelled : Bool)
    : (Progress.launch task cancelled).task = task := by
  unfold Progress.launch
  cases task.kind <;> rfl

theorem abort_task (task : Task) : (Progress.abort task).task = task := by
  unfold Progress.abort
  cases task.kind <;> rfl

/-- The outcome of a refresh continues its task and is terminal. -/
theorem refreshed_continues (task : Task) (result : Except String String) (cancelled : Bool)
    (now : Nat)
    : task.Continues (refreshed task result cancelled now) := by
  cases result <;> exact ⟨rfl, rfl, rfl, rfl, List.prefix_rfl⟩

theorem refreshed_terminal (task : Task) (result : Except String String) (cancelled : Bool)
    (now : Nat)
    : (refreshed task result cancelled now).state.terminal = true := by
  cases result <;> cases cancelled <;> rfl

/-- A coordinator never exchanges its task and never drops a result. -/
theorem CoordinatorStep.continues {before after : Progress} {label : CoordinatorLabel}
    {write : Write}
    (taken : CoordinatorStep executes downloads cancellable before label write after)
    : before.task.Continues after.task := by
  cases taken with
  | started =>
      rw [launch_task]
      exact .refl _
  | startFailed =>
      rw [abort_task]
      exact persistenceFailed_continues _ _
  | run _ taken => exact taken.continues
  | refreshed => exact refreshed_continues _ _ _ _
  | saveFailed => exact persistenceFailed_continues _ _
  | cancelStarting | cancelRefreshing | returned | saved | retrySaved | retryFailed =>
      exact .refl _

/-- An ended coordinator takes no step. -/
theorem CoordinatorStep.running {before after : Progress} {label : CoordinatorLabel}
    {write : Write}
    (taken : CoordinatorStep executes downloads cancellable before label write after)
    : before.isEnded = false := by
  cases taken <;> rfl

/-- A coordinator may be cancelled where more is allowed. -/
theorem CoordinatorStep.mono {fewer more : Prop} {before after : Progress}
    {label : CoordinatorLabel} {write : Write}
    (taken : CoordinatorStep executes downloads fewer before label write after)
    (allows : fewer → more)
    : CoordinatorStep executes downloads more before label write after := by
  cases taken with
  | started => exact .started
  | startFailed => exact .startFailed
  | cancelStarting allowed => exact .cancelStarting (allows allowed)
  | cancelRefreshing allowed => exact .cancelRefreshing (allows allowed)
  | run allowed taken => exact .run (fun cancel => allows (allowed cancel)) taken
  | returned done => exact .returned done
  | refreshed => exact .refreshed
  | saved => exact .saved
  | saveFailed => exact .saveFailed
  | retrySaved => exact .retrySaved
  | retryFailed => exact .retryFailed

/-- The only run step that writes is an answered checkpoint, of the task as it stands. -/
theorem runWrite_cases {run after : TaskRunner.State} {label : TaskRunner.Label}
    (taken : TaskRunner.Step executes downloads run label after)
    : runWrite run label = .nothing
      ∨ runWrite run label = .row run.task ∧ run.phase = .persisting
        ∧ after.task = run.task := by
  cases taken with
  | saved at' => exact Or.inr ⟨rfl, at', rfl⟩
  | cancel | spawn | idle | settle | join | joinPanicked | joinUntracked | persist | skip
  | saveFailed | finish => exact Or.inl rfl

/-- A run that starts on a working task is lawful. -/
theorem lawful_start {task : Task} (cancelled : Bool) (working : Working stored kept task)
    (export' : task.kind = .exports) (empty : task.results = [])
    (running : task.error = none → task.state = .running)
    : (Progress.exporting (.start task task.keys cancelled)).Lawful executes downloads
        stored kept := by
  refine ⟨working, export', ⟨fun _ => running, by simp [TaskRunner.State.start]⟩, [], _, ?_,
    .here⟩
  exact ⟨task, cancelled, rfl, empty, (working.accountable.selected export').2⟩

/-- One step of a run keeps its coordinator lawful. -/
theorem lawful_run (honest : ∀ key item, executes key item → item.key = key)
    {run after : TaskRunner.State} {label : TaskRunner.Label}
    (lawful : (Progress.exporting run).Lawful executes downloads stored kept)
    (taken : TaskRunner.Step executes downloads run label after)
    : (Progress.exporting after).Lawful executes downloads
        ((runWrite run label).storedRow stored) ((runWrite run label).keptRecord kept) := by
  obtain ⟨working, export', running, reached⟩ := lawful
  have continues := taken.continues
  have reached' : (TaskRunner.system executes downloads after.task.keys).Reachable after := by
    rw [continues.keys]
    exact reached.append (System.Path.here.next taken)
  have distinct : after.task.keys.Nodup := by
    rw [continues.keys]
    exact (working.accountable.selected export').1
  have accountable := accountable_of_run honest distinct reached'
  refine ⟨?_, continues.kind.trans export', running.step taken, reached'⟩
  rcases runWrite_cases taken with silent | ⟨writes, persisting, same⟩
  · rw [silent]
    exact working.later continues accountable
  · have shown : run.task.state = .running :=
      running.running (by simp [persisting]) (running.persisting persisting)
    rw [writes, same]
    exact working.saved (by simp [shown, TaskState.terminal])

/-- Every step of a coordinator keeps it lawful. -/
theorem CoordinatorStep.lawful (honest : ∀ key item, executes key item → item.key = key)
    {before after : Progress} {label : CoordinatorLabel} {write : Write}
    (taken : CoordinatorStep executes downloads cancellable before label write after)
    (lawful : before.Lawful executes downloads stored kept)
    : after.Lawful executes downloads (write.storedRow stored) (write.keptRecord kept) := by
  cases taken with
  | @started task cancelled =>
      obtain ⟨working, shown, healthy, empty⟩ := lawful
      have saved := working.saved (by simp [shown, TaskState.terminal])
      unfold Progress.launch
      cases export' : task.kind with
      | exports => exact lawful_start cancelled saved export' empty fun _ => shown
      | catalogRefresh => exact saved
  | @startFailed task cancelled now =>
      obtain ⟨working, shown, healthy, empty⟩ := lawful
      have continues := persistenceFailed_continues task now
      have failed := working.later continues (working.accountable.of_same continues rfl)
      unfold Progress.abort
      cases export' : (persistenceFailed task now).kind with
      | exports => exact lawful_start true failed export' empty (by simp [persistenceFailed])
      | catalogRefresh => exact ⟨failed, rfl⟩
  | cancelStarting => exact lawful
  | cancelRefreshing => exact lawful
  | run _ taken => exact lawful_run honest lawful taken
  | returned done =>
      obtain ⟨working, export', running, reached⟩ := lawful
      have accounted := TaskRunner.accounted_of_reachable honest reached
      obtain ⟨_, _, _, final⟩ := accounted.finished done
      exact ⟨working, by rw [final]; exact TaskRunner.finalState_terminal _ _⟩
  | @refreshed task cancelled result now =>
      have working : Working stored kept task := lawful
      have continues := refreshed_continues task result cancelled now
      have same : (Service.refreshed task result cancelled now).results = task.results := by
        cases result <;> rfl
      exact ⟨working.later continues (working.accountable.of_same continues same),
        refreshed_terminal _ _ _ _⟩
  | saved =>
      obtain ⟨working, terminal⟩ := lawful
      exact ⟨terminal, Or.inr ⟨working.absent, rfl⟩⟩
  | @saveFailed task now =>
      obtain ⟨working, terminal⟩ := lawful
      have continues := persistenceFailed_continues task now
      exact ⟨working.later continues (working.accountable.of_same continues rfl), rfl⟩
  | retrySaved =>
      obtain ⟨working, terminal⟩ := lawful
      exact ⟨terminal, Or.inr ⟨working.absent, rfl⟩⟩
  | retryFailed =>
      obtain ⟨working, terminal⟩ := lawful
      exact ⟨terminal, Or.inl rfl⟩

/-- What a coordinator writes is the record it works on. -/
theorem CoordinatorStep.writes {before after : Progress} {label : CoordinatorLabel}
    {write : Write} {task : Task}
    (taken : CoordinatorStep executes downloads cancellable before label write after)
    (written : write.task? = some task)
    : task = before.task := by
  cases taken with
  | @run run label after _ taken =>
      rcases runWrite_cases taken with silent | ⟨writes, _⟩
      · rw [silent] at written
        cases written
      · rw [writes] at written
        exact (Option.some.inj written).symm
  | started | saved | retrySaved | retryFailed => exact (Option.some.inj written).symm
  | startFailed | cancelStarting | cancelRefreshing | returned | refreshed | saveFailed =>
      cases written

/-- Only the failed retry leaves a record in memory, and it is terminal. -/
theorem CoordinatorStep.retains {before after : Progress} {label : CoordinatorLabel}
    {task : Task}
    (taken : CoordinatorStep executes downloads cancellable before label (.retained task) after)
    : before = .retrying task ∧ label = .retryFailed ∧ after = .ended task := by
  generalize kind : Write.retained task = write at taken
  cases taken with
  | retryFailed =>
      cases kind
      exact ⟨rfl, rfl, rfl⟩
  | run _ taken =>
      rcases runWrite_cases taken with silent | ⟨writes, _⟩
      · cases kind.trans silent
      · cases kind.trans writes
  | started | startFailed | cancelStarting | cancelRefreshing | returned | refreshed | saved
  | saveFailed | retrySaved => cases kind

end MoenotesAssets.Service
