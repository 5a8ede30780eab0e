import MoenotesAssets.Service.Lifetime

/-! What `GET /v1/tasks/{id}` shows while saves fail: a record that is terminal once stays
as it is, and a task that could not be saved is kept in memory and stops new tasks.
-/

namespace MoenotesAssets.Service

open Foundation

variable {config : Config} {executes : String → ItemResult → Prop} {rows : Records}

-----------------------------------------------------------------------------------------
-- What a step may change
-----------------------------------------------------------------------------------------

/-- A later state of a process: rows and coordinators continue, terminal rows, retained
records and ended coordinators stay, and a terminal row is never retained as well.
-/
structure Later (state after : State) : Prop where
  rows
    : ∀ {id : String} {row : Task},
        state.rows[id]? = some row
        → ∃ later,
            after.rows[id]? = some later ∧ row.Continues later
              ∧ (row.state.terminal = true → later = row)
  retained
    : ∀ {id : String} {task : Task},
        state.unpersisted[id]? = some task → after.unpersisted[id]? = some task
  coordinators
    : ∀ {index : Nat} {progress : Progress},
        state.coordinators[index]? = some progress
        → ∃ later,
            after.coordinators[index]? = some later ∧ progress.task.Continues later.task
              ∧ (progress.isEnded = true → later = progress)

/-- Every state is a later state of itself. -/
theorem Later.refl (state : State) : Later state state := by
  constructor
  case rows => exact fun held => ⟨_, held, .refl _, fun _ => rfl⟩
  case retained => exact fun held => held
  case coordinators => exact fun held => ⟨_, held, .refl _, fun _ => rfl⟩

/-- Later is transitive. -/
theorem Later.trans {first second third : State} (head : Later first second)
    (tail : Later second third)
    : Later first third := by
  constructor
  case rows =>
    intro id row held
    obtain ⟨middle, between, continues, same⟩ := head.rows held
    obtain ⟨last, shown, further, same'⟩ := tail.rows between
    refine ⟨last, shown, continues.trans further, fun done => ?_⟩
    obtain rfl := same done
    exact same' done
  case retained => exact fun held => tail.retained (head.retained held)
  case coordinators =>
    intro index progress held
    obtain ⟨middle, between, continues, same⟩ := head.coordinators held
    obtain ⟨last, shown, further, same'⟩ := tail.coordinators between
    refine ⟨last, shown, continues.trans further, fun done => ?_⟩
    obtain rfl := same done
    exact same' done

/-- Storing a record under an unused id changes no other row. -/
theorem rows_insert {table : Records} {task : Task} (absent : table[task.id]? = none)
    {id : String} {row : Task} (held : table[id]? = some row)
    : (table.insert task.id task)[id]? = some row := by
  rw [Table.insert_other, held]
  rintro rfl
  rw [absent] at held
  cases held

/-- A write of a coordinator that works on its record leads to a later state. -/
theorem Later.coordinate {state after : State} {index : Nat} {before next : Progress}
    {label : CoordinatorLabel} {write : Write} {cancellable : Prop}
    (consistent : Consistent config executes state)
    (found : state.coordinators[index]? = some before)
    (taken : CoordinatorStep executes config.downloads cancellable before label write next)
    (rows : after.rows = write.rows state.rows)
    (unpersisted : after.unpersisted = write.unpersisted state.unpersisted)
    (coordinators : after.coordinators = state.coordinators.set index next)
    : Later state after := by
  obtain ⟨_, lawful⟩ := consistent.coordinators found
  have working := lawful.working taken.running
  have writes : ∀ task, write.task? = some task → task = before.task :=
    fun _ written => taken.writes written
  have own : ∀ task, write.task? = some task → task.id = before.task.id :=
    fun task written => by rw [writes task written]
  constructor
  case rows =>
    intro id row held
    rw [rows]
    by_cases clash : id = before.task.id
    · subst clash
      rw [Write.rows_own state.rows own]
      obtain ⟨later, shown, continues⟩ := working.written held writes
      obtain ⟨earlier, stored, open', _⟩ := working.earlier
      obtain rfl := Option.some.inj (held.symm.trans stored)
      exact ⟨later, shown, continues, fun done => by rw [open'] at done; cases done⟩
    · rw [Write.rows_other state.rows own clash]
      exact ⟨row, held, .refl row, fun _ => rfl⟩
  case retained =>
    intro id task held
    rw [unpersisted]
    by_cases clash : id = before.task.id
    · rw [clash, working.absent] at held
      cases held
    · rw [Write.unpersisted_other state.unpersisted own clash, held]
  case coordinators =>
    intro other progress held
    rw [coordinators]
    by_cases same : other = index
    · subst same
      obtain rfl := Option.some.inj (held.symm.trans found)
      refine ⟨next, Arena.getElem?_set_of found, taken.continues, fun done => ?_⟩
      rw [taken.running] at done
      cases done
    · refine ⟨progress, ?_, .refl _, fun _ => rfl⟩
      rw [List.getElem?_set_ne (Ne.symm same), held]

/-- Every step of a consistent service leads to a later state. -/
theorem Later.step {state after : State} {label : Label}
    (taken : Step config executes state label after)
    (consistent : Consistent config executes state)
    : Later state after := by
  cases taken with
  | begin | openChecked | refusedClosed | memoryChecked | refusedUnpersisted | admitted
  | refusedFull | refusedSave | abandoned | shutdown =>
      exact ⟨(Later.refl state).rows, (Later.refl state).retained,
        (Later.refl state).coordinators⟩
  | landed found =>
      obtain ⟨_, _, _, absent, _⟩ := consistent.calls found
      exact ⟨fun held => ⟨_, rows_insert absent held, .refl _, fun _ => rfl⟩,
        (Later.refl state).retained, (Later.refl state).coordinators⟩
  | accepted found =>
      obtain ⟨_, _, _, absent, _⟩ := consistent.calls found
      exact ⟨fun held => ⟨_, rows_insert absent held, .refl _, fun _ => rfl⟩,
        (Later.refl state).retained,
        fun held => ⟨_, Arena.getElem?_push_of held, .refl _, fun _ => rfl⟩⟩
  | coordinate found taken => exact Later.coordinate consistent found taken rfl rfl rfl

/-- The states of a process are later than those before them, and stay consistent. -/
theorem later_of_path (honest : ∀ key item, executes key item → item.key = key)
    {state after : State} {trace : List Label}
    (path : (process config executes rows).Path state trace after)
    (consistent : Consistent config executes state)
    : Later state after ∧ Consistent config executes after :=
  ⟨path.relates Later.refl Later.trans (fun taken => Consistent.step honest taken)
      (fun taken => Later.step taken) consistent,
    path.preserves (fun taken => Consistent.step honest taken) consistent⟩

-----------------------------------------------------------------------------------------
-- Reading
-----------------------------------------------------------------------------------------

/-- A record in memory is shown by every later reading. -/
theorem getTask_retained {state first second : State} {id : String} {task : Task}
    (kept : state.unpersisted[id]? = some task) (later : Later state first)
    : getTask first second id = some task := by
  rw [getTask, later.retained kept]

/-- A terminal row is shown by every later reading: it never changes, and a record that is
kept in memory has a row that is not terminal.
-/
theorem getTask_stored {state first second : State} {id : String} {row : Task}
    (stored : state.rows[id]? = some row) (done : row.state.terminal = true)
    (consistent : Consistent config executes first) (early : Later state first)
    (late : Later first second)
    : getTask first second id = some row := by
  obtain ⟨middle, shown, _, same⟩ := early.rows stored
  obtain rfl := same done
  obtain ⟨last, shown', _, same'⟩ := late.rows shown
  obtain rfl := same' done
  rw [getTask]
  cases kept : first.unpersisted[id]? with
  | none => exact shown'
  | some task =>
      obtain ⟨_, row, held, open', _⟩ := consistent.retained kept
      obtain rfl := Option.some.inj (shown.symm.trans held)
      cases done.symm.trans open'

/-- What a reading has shown as terminal, every later reading shows. -/
theorem getTask_settled {begun ended first second : State} {id : String} {task : Task}
    (shown : getTask begun ended id = some task) (done : task.state.terminal = true)
    (consistent : Consistent config executes first) (reading : Later begun ended)
    (early : Later ended first) (late : Later first second)
    : getTask first second id = some task := by
  rw [getTask] at shown
  cases kept : begun.unpersisted[id]? with
  | some record =>
      rw [kept] at shown
      obtain rfl := Option.some.inj shown
      exact getTask_retained kept (reading.trans early)
  | none =>
      rw [kept] at shown
      exact getTask_stored shown done consistent early late

/-- The record of an ended coordinator is shown by every later reading. -/
theorem getTask_ended {state first second : State} {index : Nat} {task : Task}
    (held : state.coordinators[index]? = some (.ended task))
    (consistent : Consistent config executes state)
    (consistent' : Consistent config executes first) (early : Later state first)
    (late : Later first second)
    : getTask first second task.id = some task := by
  obtain ⟨_, done, kept | ⟨_, stored⟩⟩ := consistent.coordinators held
  · exact getTask_retained kept early
  · exact getTask_stored stored done consistent' early late

-----------------------------------------------------------------------------------------
-- Refusing new tasks
-----------------------------------------------------------------------------------------

/-- A call that has not passed the check of the records in memory, or has ended there. -/
def Call.held (call : Call) : Prop :=
  call.phase = .started ∨ call.phase = .opened ∨ ∃ error, call.phase = .refused error

/-- Some record is in memory, and no call that began at `first` or later got past it. -/
structure Refusing (first : Nat) (state : State) : Prop where
  retained : state.unpersisted.isEmpty = false
  held
    : ∀ {index : Nat} {call : Call},
        first ≤ index → state.calls[index]? = some call → call.held

/-- Replacing a call by a held one keeps the refusal. -/
theorem Refusing.advance {first index : Nat} {state after : State} {call : Call}
    (refusing : Refusing first state) (held : first ≤ index → call.held)
    (unpersisted : after.unpersisted = state.unpersisted)
    (calls : after.calls = state.calls.set index call)
    : Refusing first after := by
  refine ⟨unpersisted ▸ refusing.retained, fun {other found} later shown => ?_⟩
  rw [calls] at shown
  rcases Arena.getElem?_set_cases shown with ⟨rfl, rfl⟩ | ⟨_, shown⟩
  · exact held later
  · exact refusing.held later shown

/-- No step lets a call pass while a record is in memory. -/
theorem Refusing.step {first : Nat} {state after : State} {label : Label}
    (taken : Step config executes state label after) (refusing : Refusing first state)
    : Refusing first after := by
  cases taken with
  | begin =>
      refine ⟨refusing.retained, fun {index call} later shown => ?_⟩
      rcases Arena.getElem?_push shown with shown | ⟨_, rfl⟩
      · exact refusing.held later shown
      · exact Or.inl rfl
  | openChecked => exact refusing.advance (fun _ => Or.inr (Or.inl rfl)) rfl rfl
  | refusedClosed | refusedUnpersisted | refusedFull | refusedSave =>
      exact refusing.advance (fun _ => Or.inr (Or.inr ⟨_, rfl⟩)) rfl rfl
  | memoryChecked _ clear =>
      rw [refusing.retained] at clear
      cases clear
  | admitted found | abandoned found | landed found =>
      refine refusing.advance (fun later => ?_) rfl rfl
      have held := refusing.held later found
      simp [Call.held] at held
  | accepted found =>
      refine refusing.advance (fun later => ?_) rfl rfl
      have held := refusing.held later found
      simp [Call.held] at held
  | @coordinate index progress label write next found taken =>
      refine ⟨?_, refusing.held⟩
      cases write with
      | retained task =>
          exact Table.isEmpty_of_entry (Table.insert_self _ _ _)
      | nothing | row => exact refusing.retained
  | shutdown => exact ⟨refusing.retained, refusing.held⟩

/-- A held call can end, and it ends with an error. -/
theorem Refusing.refuses {first index : Nat} {state : State} {call : Call}
    (refusing : Refusing first state) (later : first ≤ index)
    (shown : state.calls[index]? = some call)
    : (∃ error, call.phase = .refused error)
      ∨ ∃ trace after error,
          (process config executes rows).Path state trace after
          ∧ after.calls[index]? = some { call with phase := .refused error } := by
  have memory {state : State} {draft : Draft}
      (retained : state.unpersisted.isEmpty = false)
      (shown : state.calls[index]? = some { draft, phase := .opened })
      : ∃ trace after error,
          (process config executes rows).Path state trace after
          ∧ after.calls[index]? = some { draft, phase := .refused error } :=
    ⟨_, _, _, System.Path.here.next (.refusedUnpersisted shown retained),
      Arena.getElem?_set_of shown⟩
  obtain ⟨draft, phase⟩ := call
  rcases refusing.held later shown with started | opened | refused
  · obtain rfl : phase = .started := started
    right
    cases closed : state.shutdown with
    | true =>
        exact ⟨_, _, _, System.Path.here.next (.refusedClosed shown closed),
          Arena.getElem?_set_of shown⟩
    | false =>
        let opened : State :=
          { state with calls := state.calls.set index { draft, phase := .opened } }
        have opens : (process config executes rows).Path state [.openChecked index] opened :=
          System.Path.here.next (.openChecked shown closed)
        have reread : opened.calls[index]? = some { draft, phase := .opened } :=
          Arena.getElem?_set_of shown
        have remembered : opened.unpersisted.isEmpty = false := refusing.retained
        obtain ⟨trace, after, error, path, ended⟩ := memory remembered reread
        exact ⟨_, after, error, opens.append path, ended⟩
  · obtain rfl : phase = .opened := opened
    exact Or.inr (memory refusing.retained shown)
  · exact Or.inl refused

-----------------------------------------------------------------------------------------
-- The service under failing saves
-----------------------------------------------------------------------------------------

/-- What the service in `state` shows from then on, in every later state of its process.
A reading begins in one state and may end in a later one.
-/
structure ShowsTasks (config : Config) (executes : String → ItemResult → Prop)
    (rows : Records) (state : State) : Prop where
  ended
    : ∀ {index : Nat} {task : Task},
        state.coordinators[index]? = some (.ended task)
        → task.state.terminal = true
          ∧ ∀ {early late : List Label} {first second : State},
              (process config executes rows).Path state early first
              → (process config executes rows).Path first late second
              → getTask first second task.id = some task
  settled
    : ∀ {id : String} {task : Task} {reading : List Label} {answered : State},
        (process config executes rows).Path state reading answered
        → getTask state answered id = some task
        → task.state.terminal = true
        → ∀ {early late : List Label} {first second : State},
            (process config executes rows).Path answered early first
            → (process config executes rows).Path first late second
            → getTask first second id = some task
  unsaved
    : ∀ {index : Nat} {task : Task} {after : State},
        state.coordinators[index]? = some (.retrying task)
        → Step config executes state (.coordinate index .retryFailed) after
        → ∀ {trace : List Label} {later : State},
            (process config executes rows).Path after trace later
            → later.unpersisted[task.id]? = some task
              ∧ notReady later = some "task persistence unavailable"
              ∧ ∀ {call : Nat} {begun : Call},
                  after.calls.length ≤ call
                  → later.calls[call]? = some begun
                  → begun.held
                    ∧ ((∃ error, begun.phase = .refused error)
                      ∨ ∃ more last error,
                          (process config executes rows).Path later more last
                          ∧ last.calls[call]? = some { begun with phase := .refused error })
  gathered
    : ∀ {index : Nat} {progress : Progress} {trace : List Label} {later : State},
        state.coordinators[index]? = some progress
        → (process config executes rows).Path state trace later
        → ∃ last,
            later.coordinators[index]? = some last
            ∧ progress.task.results <+: last.task.results
            ∧ (last.isEnded = true → getTask later later last.task.id = some last.task)

/-- A failed retry leaves its record in memory and refuses every call that begins later. -/
theorem refusing_of_retryFailed {state after : State} {index : Nat} {task : Task}
    (found : state.coordinators[index]? = some (.retrying task))
    (taken : Step config executes state (.coordinate index .retryFailed) after)
    : after.unpersisted[task.id]? = some task ∧ Refusing after.calls.length after := by
  cases taken with
  | coordinate held taken =>
      obtain rfl := Option.some.inj (held.symm.trans found)
      cases taken with
      | retryFailed =>
          have kept : (state.unpersisted.insert task.id task)[task.id]? = some task :=
            Table.insert_self _ _ _
          refine ⟨kept, Table.isEmpty_of_entry kept, fun {call begun} later shown => ?_⟩
          exact absurd (Arena.lt_length shown) (Nat.not_lt.mpr later)

/-- For any number of tasks and every pattern of failing saves, the service shows the
terminal record of every ended coordinator for good, and what it could not save it keeps.
-/
theorem tasks_stay_visible (honest : ∀ key item, executes key item → item.key = key)
    {state : State} (reached : (lifetime config executes).Reachable (.serving state))
    : ShowsTasks config executes rows state := by
  have consistent := consistent_of_reachable honest reached
  constructor
  case ended =>
    intro index task held
    refine ⟨(consistent.coordinators held).2.1, fun {_ _ first second} early late => ?_⟩
    obtain ⟨laterFirst, consistentFirst⟩ := later_of_path honest early consistent
    obtain ⟨laterSecond, _⟩ := later_of_path honest late consistentFirst
    exact getTask_ended held consistent consistentFirst laterFirst laterSecond
  case settled =>
    intro id task reading answered path shown done early late first second toFirst toSecond
    obtain ⟨laterAnswered, consistentAnswered⟩ := later_of_path honest path consistent
    obtain ⟨laterFirst, consistentFirst⟩ := later_of_path honest toFirst consistentAnswered
    obtain ⟨laterSecond, _⟩ := later_of_path honest toSecond consistentFirst
    exact getTask_settled shown done consistentFirst laterAnswered laterFirst laterSecond
  case unsaved =>
    intro index task after found taken trace later path
    obtain ⟨kept, refusing⟩ := refusing_of_retryFailed found taken
    have refusing := path.preserves (P := Refusing after.calls.length)
      (fun taken refusing => refusing.step taken) refusing
    have further := (later_of_path honest path (Consistent.step honest taken consistent)).1
    refine ⟨further.retained kept, by simp [notReady, refusing.retained], ?_⟩
    exact fun late shown => ⟨refusing.held late shown, refusing.refuses late shown⟩
  case gathered =>
    intro index progress trace later held path
    obtain ⟨further, consistentLater⟩ := later_of_path honest path consistent
    obtain ⟨last, shown, continues, _⟩ := further.coordinators held
    refine ⟨last, shown, continues.results, fun done => ?_⟩
    cases last with
    | ended task =>
        exact getTask_ended shown consistentLater consistentLater (.refl _) (.refl _)
    | starting | exporting | refreshing | finishing | retrying => cases done

/-- A refresh whose start and final saves failed, before its retry. -/
theorem unsaved_refresh_stays_visible
    : ∃ state task,
        state.coordinators[0]? = some (.retrying task) ∧ task.state = .failed
        ∧ ShowsTasks ⟨1, 1, 1⟩ (fun key item => item.key = key) {} state := by
  let config : Config := ⟨1, 1, 1⟩
  let sys := lifetime config (fun key item => item.key = key)
  let task : Task := newTask refreshDraft "t" 3 3
  let running : Task := { task with state := .running }
  let called (phase : CallPhase) : State :=
    { State.open config {} with calls := [{ draft := refreshDraft, phase }] }
  let coordinated (progress : Progress) : State :=
    {
      called (.answered task) with
      rows := Std.TreeMap.insert {} "t" task
      cancellations := Std.TreeSet.insert {} "t"
      permits := 0
      coordinators := [progress]
    }
  have start : sys.Execution [] (.stopped {}) := ⟨_, rfl, .here⟩
  have opened : sys.Execution _ (.serving (.open config {})) :=
    (start.next (@LifeStep.opens _ _ {} (fun _ => 0))).next (.opened (by decide))
  have begun : sys.Execution _ (.serving (called .started)) :=
    opened.next (.serves (.begin .refresh))
  have checked : sys.Execution _ (.serving (called .opened)) :=
    begun.next (.serves (@Step.openChecked _ _ _ 0 refreshDraft rfl rfl))
  have clear : sys.Execution _ (.serving (called .cleared)) :=
    checked.next (.serves (@Step.memoryChecked _ _ _ 0 refreshDraft rfl rfl))
  have admitted : sys.Execution _ (.serving { called (.saving task) with permits := 0 }) :=
    clear.next (.serves (@Step.admitted _ _ _ 0 refreshDraft "t" 3 3 rfl (by decide)
      ⟨by decide, rfl, rfl, by decide, by decide⟩))
  have accepted : sys.Execution _ (.serving (coordinated (.starting running false))) :=
    admitted.next (.serves (@Step.accepted _ _ _ 0 refreshDraft task rfl))
  have failed : sys.Execution _
      (.serving (coordinated (.finishing (persistenceFailed running 4)))) :=
    accepted.next (.serves (@Step.coordinate _ _ (coordinated (.starting running false)) 0 _ _ _ _
      rfl (@CoordinatorStep.startFailed _ _ _ running false 4)))
  have retries : sys.Execution _
      (.serving (coordinated (.retrying (persistenceFailed running 5)))) :=
    failed.next (.serves (@Step.coordinate _ _
      (coordinated (.finishing (persistenceFailed running 4))) 0 _ _ _ _ rfl
      (@CoordinatorStep.saveFailed _ _ _ (persistenceFailed running 4) 5)))
  exact ⟨_, _, rfl, rfl, tasks_stay_visible (fun _ _ same => same) retries.reachable⟩

end MoenotesAssets.Service
