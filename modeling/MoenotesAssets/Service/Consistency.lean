import MoenotesAssets.Foundation.Arena
import MoenotesAssets.Foundation.Table
import MoenotesAssets.Service.Coordinators

/-! The invariant of the task service: every record has at most one owner, a call or a
coordinator, and only its owner writes it.
-/

namespace MoenotesAssets.Service

open Foundation

variable {config : Config} {executes : String → ItemResult → Prop}

-----------------------------------------------------------------------------------------
-- The invariant
-----------------------------------------------------------------------------------------

/-- The record a call created for its draft. -/
def Created (draft : Draft) (task : Task) : Prop :=
  ∃ created updated, task = newTask draft task.id created updated

/-- What holds of the records of a call: nobody has seen those still being saved, and the
others are in the table, at that version or a later one.
-/
def Call.Lawful (config : Config) (rows unpersisted : Records) (call : Call) : Prop :=
  Submits config call.draft
  ∧ match call.phase with
    | .saving task | .abandoned task =>
        Created call.draft task ∧ task.id ≠ "" ∧ rows[task.id]? = none
          ∧ unpersisted[task.id]? = none
    | .answered task | .landed task =>
        Created call.draft task ∧ ∃ row, rows[task.id]? = some row ∧ task.Continues row
    | .started | .opened | .cleared | .refused _ => True

/-- The law of a stored row. -/
structure RowLaw (id : String) (task : Task) : Prop where
  own : task.id = id
  nonempty : id ≠ ""
  accountable : Accountable task

structure Consistent (config : Config) (executes : String → ItemResult → Prop)
    (state : State) : Prop where
  rows : ∀ {id : String} {task : Task}, state.rows[id]? = some task → RowLaw id task
  retained
    : ∀ {id : String} {task : Task},
        state.unpersisted[id]? = some task
        → task.state.terminal = true
          ∧ ∃ row,
              state.rows[id]? = some row ∧ row.state.terminal = false ∧ row.Continues task
  coordinators
    : ∀ {index : Nat} {progress : Progress},
        state.coordinators[index]? = some progress
        → progress.task.id ≠ ""
          ∧ progress.Lawful executes config.downloads state.rows[progress.task.id]?
              state.unpersisted[progress.task.id]?
  distinct
    : ∀ {i j : Nat} {left right : Progress},
        state.coordinators[i]? = some left
        → state.coordinators[j]? = some right
        → left.task.id = right.task.id
        → i = j
  calls
    : ∀ {index : Nat} {call : Call},
        state.calls[index]? = some call → call.Lawful config state.rows state.unpersisted
  exclusive
    : ∀ {i j : Nat} {left right : Call} {id : String},
        state.calls[i]? = some left
        → state.calls[j]? = some right
        → left.owned? = some id
        → right.owned? = some id
        → i = j
  apart
    : ∀ {i j : Nat} {call : Call} {progress : Progress},
        state.calls[i]? = some call
        → state.coordinators[j]? = some progress
        → call.owned? ≠ some progress.task.id

/-- A service opened on lawful rows is consistent. -/
theorem Consistent.open {rows : Records}
    (lawful : ∀ {id : String} {task : Task}, rows[id]? = some task → RowLaw id task)
    : Consistent config executes (.open config rows) := by
  constructor
  case rows => exact lawful
  all_goals simp [State.open]

-----------------------------------------------------------------------------------------
-- Calls
-----------------------------------------------------------------------------------------

/-- A step of one call that touches neither records nor coordinators keeps consistency,
if the id it owns afterwards was its own or is fresh.
-/
theorem Consistent.advance {state after : State} {index : Nat} {old call : Call}
    (consistent : Consistent config executes state)
    (rows : after.rows = state.rows) (unpersisted : after.unpersisted = state.unpersisted)
    (coordinators : after.coordinators = state.coordinators)
    (calls : after.calls = state.calls.set index call)
    (found : state.calls[index]? = some old)
    (lawful : call.Lawful config state.rows state.unpersisted)
    (owned : ∀ {id : String}, call.owned? = some id → old.owned? = some id ∨ state.Fresh id)
    : Consistent config executes after := by
  constructor
  case rows =>
    simp only [rows]
    exact consistent.rows
  case retained =>
    simp only [rows, unpersisted]
    exact consistent.retained
  case coordinators =>
    simp only [rows, unpersisted, coordinators]
    exact consistent.coordinators
  case distinct =>
    simp only [coordinators]
    exact consistent.distinct
  case calls =>
    intro i other held
    rw [calls] at held
    rw [rows, unpersisted]
    rcases Arena.getElem?_set_cases held with ⟨rfl, rfl⟩ | ⟨_, held⟩
    · exact lawful
    · exact consistent.calls held
  case exclusive =>
    intro i j left right id heldLeft heldRight ownedLeft ownedRight
    rw [calls] at heldLeft heldRight
    rcases Arena.getElem?_set_cases heldLeft with ⟨rfl, rfl⟩ | ⟨_, keptLeft⟩
    · rcases Arena.getElem?_set_cases heldRight with ⟨rfl, rfl⟩ | ⟨_, keptRight⟩
      · rfl
      · rcases owned ownedLeft with same | fresh
        · exact consistent.exclusive found keptRight same ownedRight
        · exact absurd ownedRight (fresh.called right (List.mem_of_getElem? keptRight))
    · rcases Arena.getElem?_set_cases heldRight with ⟨rfl, rfl⟩ | ⟨_, keptRight⟩
      · rcases owned ownedRight with same | fresh
        · exact consistent.exclusive keptLeft found ownedLeft same
        · exact absurd ownedLeft (fresh.called left (List.mem_of_getElem? keptLeft))
      · exact consistent.exclusive keptLeft keptRight ownedLeft ownedRight
  case apart =>
    intro i j other progress heldCall heldProgress claimed
    rw [calls] at heldCall
    rw [coordinators] at heldProgress
    rcases Arena.getElem?_set_cases heldCall with ⟨rfl, rfl⟩ | ⟨_, heldCall⟩
    · rcases owned claimed with same | fresh
      · exact consistent.apart found heldProgress same
      · exact fresh.coordinated progress (List.mem_of_getElem? heldProgress) rfl
    · exact consistent.apart heldCall heldProgress claimed

/-- A new call owns nothing. -/
theorem Consistent.begin {state : State} {draft : Draft}
    (consistent : Consistent config executes state) (submits : Submits config draft)
    : Consistent config executes
        { state with calls := state.calls ++ [{ draft, phase := .started }] } := by
  constructor
  case rows => exact consistent.rows
  case retained => exact consistent.retained
  case coordinators => exact consistent.coordinators
  case distinct => exact consistent.distinct
  case calls =>
    intro index call held
    rcases Arena.getElem?_push held with held | ⟨_, rfl⟩
    · exact consistent.calls held
    · exact ⟨submits, trivial⟩
  case exclusive =>
    intro i j left right id heldLeft heldRight ownedLeft ownedRight
    rcases Arena.getElem?_push heldLeft with heldLeft | ⟨_, rfl⟩
    · rcases Arena.getElem?_push heldRight with heldRight | ⟨_, rfl⟩
      · exact consistent.exclusive heldLeft heldRight ownedLeft ownedRight
      · cases ownedRight
    · cases ownedLeft
  case apart =>
    intro i j call progress heldCall heldProgress claimed
    rcases Arena.getElem?_push heldCall with heldCall | ⟨_, rfl⟩
    · exact consistent.apart heldCall heldProgress claimed
    · cases claimed

/-- A call whose save takes effect puts its record into the table and owns nothing more.
-/
theorem Consistent.land {state after : State} {index : Nat} {draft : Draft} {task : Task}
    {old : Call} {phase : CallPhase} (consistent : Consistent config executes state)
    (found : state.calls[index]? = some old)
    (saves : old = { draft, phase := .saving task } ∨ old = { draft, phase := .abandoned task })
    (done : phase = .answered task ∨ phase = .landed task)
    (rows : after.rows = state.rows.insert task.id task)
    (unpersisted : after.unpersisted = state.unpersisted)
    (coordinators : after.coordinators = state.coordinators)
    (calls : after.calls = state.calls.set index { draft, phase })
    : Consistent config executes after := by
  have claims : old.owned? = some task.id := by
    rcases saves with rfl | rfl <;> rfl
  have unborn : Submits config draft ∧ Created draft task ∧ task.id ≠ ""
      ∧ state.rows[task.id]? = none ∧ state.unpersisted[task.id]? = none := by
    have lawful := consistent.calls found
    rcases saves with rfl | rfl <;> exact lawful
  obtain ⟨submits, created, nonempty, absent, forgotten⟩ := unborn
  have free : ({ draft, phase } : Call).owned? = none := by
    rcases done with rfl | rfl <;> rfl
  constructor
  case rows =>
    intro id row held
    rw [rows] at held
    rcases Table.insert_cases held with ⟨rfl, rfl⟩ | ⟨_, held⟩
    · obtain ⟨created, updated, new⟩ := created
      exact ⟨rfl, nonempty, new ▸ newTask_accountable submits row.id created updated⟩
    · exact consistent.rows held
  case retained =>
    intro id kept held
    rw [unpersisted] at held
    have elsewhere : id ≠ task.id := by
      rintro rfl
      rw [forgotten] at held
      cases held
    rw [rows, Table.insert_other _ _ elsewhere]
    exact consistent.retained held
  case coordinators =>
    intro other progress held
    rw [coordinators] at held
    have elsewhere : progress.task.id ≠ task.id := by
      intro same
      exact consistent.apart found held (same ▸ claims)
    rw [rows, unpersisted, Table.insert_other _ _ elsewhere]
    exact consistent.coordinators held
  case distinct =>
    simp only [coordinators]
    exact consistent.distinct
  case calls =>
    intro other call held
    rw [calls] at held
    rw [rows, unpersisted]
    rcases Arena.getElem?_set_cases held with ⟨rfl, rfl⟩ | ⟨apart, held⟩
    · refine ⟨submits, ?_⟩
      rcases done with rfl | rfl
      all_goals exact ⟨created, task, Table.insert_self _ _ _, .refl task⟩
    · have lawful := consistent.calls held
      have elsewhere {mine : Task} (owned : call.owned? = some mine.id)
          : mine.id ≠ task.id := by
        intro same
        exact apart (consistent.exclusive held found (same ▸ owned) claims)
      have shown {mine row : Task} (held : state.rows[mine.id]? = some row)
          : (state.rows.insert task.id task)[mine.id]? = some row := by
        have elsewhere : mine.id ≠ task.id := by
          intro same
          rw [same, absent] at held
          cases held
        rw [Table.insert_other _ _ elsewhere, held]
      obtain ⟨its, phase⟩ := call
      refine ⟨lawful.1, ?_⟩
      cases phase with
      | saving mine | abandoned mine =>
          have lawful := lawful.2
          dsimp only at lawful ⊢
          rwa [Table.insert_other _ _ (elsewhere rfl)]
      | answered mine | landed mine =>
          obtain ⟨_, created, row, held, continues⟩ := lawful
          exact ⟨created, row, shown held, continues⟩
      | started | opened | cleared | refused => trivial
  case exclusive =>
    intro i j left right id heldLeft heldRight ownedLeft ownedRight
    rw [calls] at heldLeft heldRight
    rcases Arena.getElem?_set_cases heldLeft with ⟨rfl, rfl⟩ | ⟨_, heldLeft⟩
    · cases free.symm.trans ownedLeft
    · rcases Arena.getElem?_set_cases heldRight with ⟨rfl, rfl⟩ | ⟨_, heldRight⟩
      · cases free.symm.trans ownedRight
      · exact consistent.exclusive heldLeft heldRight ownedLeft ownedRight
  case apart =>
    intro i j call progress heldCall heldProgress claimed
    rw [calls] at heldCall
    rw [coordinators] at heldProgress
    rcases Arena.getElem?_set_cases heldCall with ⟨rfl, rfl⟩ | ⟨_, heldCall⟩
    · cases free.symm.trans claimed
    · exact consistent.apart heldCall heldProgress claimed

-----------------------------------------------------------------------------------------
-- Coordinators
-----------------------------------------------------------------------------------------

/-- A coordinator is spawned for a record that is stored and owned by nobody. -/
theorem Consistent.spawn {state after : State} {task row : Task} {cancelled : Bool}
    (consistent : Consistent config executes state)
    (rows : after.rows = state.rows) (unpersisted : after.unpersisted = state.unpersisted)
    (calls : after.calls = state.calls)
    (coordinators : after.coordinators = state.coordinators ++ [.starting task cancelled])
    (held : state.rows[task.id]? = some row)
    (working : Working (some row) state.unpersisted[task.id]? task)
    (shown : task.state = .running) (healthy : task.error = none) (empty : task.results = [])
    (unowned : ∀ call ∈ state.calls, call.owned? ≠ some task.id)
    (unspawned : ∀ progress ∈ state.coordinators, progress.task.id ≠ task.id)
    : Consistent config executes after := by
  constructor
  case rows =>
    simp only [rows]
    exact consistent.rows
  case retained =>
    simp only [rows, unpersisted]
    exact consistent.retained
  case coordinators =>
    intro index progress found
    rw [coordinators] at found
    rw [rows, unpersisted]
    rcases Arena.getElem?_push found with found | ⟨_, rfl⟩
    · exact consistent.coordinators found
    · refine ⟨(consistent.rows held).nonempty, ?_⟩
      change Progress.Lawful executes config.downloads state.rows[task.id]? _ _
      rw [held]
      exact ⟨working, shown, healthy, empty⟩
  case distinct =>
    intro i j left right heldLeft heldRight same
    rw [coordinators] at heldLeft heldRight
    rcases Arena.getElem?_push heldLeft with heldLeft | ⟨atLeft, rfl⟩
    · rcases Arena.getElem?_push heldRight with heldRight | ⟨_, rfl⟩
      · exact consistent.distinct heldLeft heldRight same
      · exact absurd same (unspawned left (List.mem_of_getElem? heldLeft))
    · rcases Arena.getElem?_push heldRight with heldRight | ⟨atRight, _⟩
      · exact absurd same.symm (unspawned right (List.mem_of_getElem? heldRight))
      · rw [atLeft, atRight]
  case calls =>
    simp only [rows, unpersisted, calls]
    exact consistent.calls
  case exclusive =>
    simp only [calls]
    exact consistent.exclusive
  case apart =>
    intro i j call progress heldCall heldProgress
    rw [calls] at heldCall
    rw [coordinators] at heldProgress
    rcases Arena.getElem?_push heldProgress with heldProgress | ⟨_, rfl⟩
    · exact consistent.apart heldCall heldProgress
    · exact unowned call (List.mem_of_getElem? heldCall)

/-- A write under one id is invisible under the others. -/
theorem Write.rows_other {write : Write} {id other : String} (rows : Records)
    (own : ∀ task, write.task? = some task → task.id = id) (apart : other ≠ id)
    : (write.rows rows)[other]? = rows[other]? := by
  cases write with
  | row task => exact Table.insert_other _ _ (by rwa [own task rfl])
  | nothing | retained => rfl

theorem Write.unpersisted_other {write : Write} {id other : String} (unpersisted : Records)
    (own : ∀ task, write.task? = some task → task.id = id) (apart : other ≠ id)
    : (write.unpersisted unpersisted)[other]? = unpersisted[other]? := by
  cases write with
  | retained task => exact Table.insert_other _ _ (by rwa [own task rfl])
  | nothing | row => rfl

/-- A write under one id is read back under it. -/
theorem Write.rows_own {write : Write} {id : String} (rows : Records)
    (own : ∀ task, write.task? = some task → task.id = id)
    : (write.rows rows)[id]? = write.storedRow rows[id]? := by
  cases write with
  | row task => exact own task rfl ▸ Table.insert_self _ _ _
  | nothing | retained => rfl

theorem Write.unpersisted_own {write : Write} {id : String} (unpersisted : Records)
    (own : ∀ task, write.task? = some task → task.id = id)
    : (write.unpersisted unpersisted)[id]? = write.keptRecord unpersisted[id]? := by
  cases write with
  | retained task => exact own task rfl ▸ Table.insert_self _ _ _
  | nothing | row => rfl

/-- The row a coordinator writes is a later version of the one it found. -/
theorem Working.written {stored kept : Option Task} {task row : Task} {write : Write}
    (working : Working stored kept task) (held : stored = some row)
    (writes : ∀ written, write.task? = some written → written = task)
    : ∃ later, write.storedRow stored = some later ∧ row.Continues later := by
  obtain ⟨earlier, stored', _, continues⟩ := working.earlier
  obtain rfl := Option.some.inj (held.symm.trans stored')
  cases write with
  | row written => exact ⟨written, rfl, writes written rfl ▸ continues⟩
  | nothing | retained => exact ⟨row, held, .refl row⟩

/-- A coordinator's step keeps consistency: it writes its own record only. -/
theorem Consistent.coordinate {state after : State} {index : Nat} {before next : Progress}
    {label : CoordinatorLabel} {write : Write} {cancellable : Prop}
    (honest : ∀ key item, executes key item → item.key = key)
    (consistent : Consistent config executes state)
    (found : state.coordinators[index]? = some before)
    (taken : CoordinatorStep executes config.downloads cancellable before label write next)
    (rows : after.rows = write.rows state.rows)
    (unpersisted : after.unpersisted = write.unpersisted state.unpersisted)
    (calls : after.calls = state.calls)
    (coordinators : after.coordinators = state.coordinators.set index next)
    : Consistent config executes after := by
  obtain ⟨nonempty, lawful⟩ := consistent.coordinators found
  have working := lawful.working taken.running
  have writes : ∀ task, write.task? = some task → task = before.task :=
    fun _ written => taken.writes written
  have own : ∀ task, write.task? = some task → task.id = before.task.id :=
    fun task written => by rw [writes task written]
  have same : next.task.id = before.task.id := taken.continues.id
  have shownRow := Write.rows_own state.rows own
  have shownKept := Write.unpersisted_own state.unpersisted own
  have hiddenRow := fun {other : String} (apart : other ≠ before.task.id) =>
    Write.rows_other state.rows own apart
  have hiddenKept := fun {other : String} (apart : other ≠ before.task.id) =>
    Write.unpersisted_other state.unpersisted own apart
  constructor
  case rows =>
    intro id task held
    rw [rows] at held
    cases write with
    | row written =>
        rcases Table.insert_cases held with ⟨rfl, rfl⟩ | ⟨_, held⟩
        · obtain rfl := writes task rfl
          exact ⟨rfl, nonempty, working.accountable⟩
        · exact consistent.rows held
    | nothing | retained => exact consistent.rows held
  case retained =>
    intro id task held
    rw [unpersisted] at held
    rw [rows]
    by_cases clash : id = before.task.id
    · subst clash
      rw [shownKept] at held
      rw [shownRow]
      cases write with
      | retained written =>
          obtain rfl : written = task := Option.some.inj held
          obtain ⟨rfl, -, -⟩ := taken.retains
          exact ⟨lawful.2, working.earlier⟩
      | nothing | row => cases working.absent.symm.trans held
    · rw [hiddenKept clash] at held
      rw [hiddenRow clash]
      exact consistent.retained held
  case coordinators =>
    intro other progress held
    rw [coordinators] at held
    rw [rows, unpersisted]
    rcases Arena.getElem?_set_cases held with ⟨_, rfl⟩ | ⟨apart, held⟩
    · rw [same, shownRow, shownKept]
      exact ⟨nonempty, taken.lawful honest lawful⟩
    · have elsewhere : progress.task.id ≠ before.task.id :=
        fun clash => apart (consistent.distinct held found clash)
      rw [hiddenRow elsewhere, hiddenKept elsewhere]
      exact consistent.coordinators held
  case distinct =>
    intro i j left right heldLeft heldRight clash
    rw [coordinators] at heldLeft heldRight
    rcases Arena.getElem?_set_cases heldLeft with ⟨atLeft, rfl⟩ | ⟨_, keptLeft⟩
    · rcases Arena.getElem?_set_cases heldRight with ⟨atRight, _⟩ | ⟨_, keptRight⟩
      · rw [atLeft, atRight]
      · rw [atLeft]
        exact consistent.distinct found keptRight (same.symm.trans clash)
    · rcases Arena.getElem?_set_cases heldRight with ⟨atRight, rfl⟩ | ⟨_, keptRight⟩
      · rw [atRight]
        exact consistent.distinct keptLeft found (clash.trans same)
      · exact consistent.distinct keptLeft keptRight clash
  case calls =>
    intro other call held
    rw [calls] at held
    rw [rows, unpersisted]
    have lawful := consistent.calls held
    have elsewhere {mine : Task} (owned : call.owned? = some mine.id)
        : mine.id ≠ before.task.id := by
      intro clash
      exact consistent.apart held found (clash ▸ owned)
    have shown {mine row : Task} (held : state.rows[mine.id]? = some row)
        (continues : mine.Continues row)
        : ∃ row, (write.rows state.rows)[mine.id]? = some row ∧ mine.Continues row := by
      by_cases clash : mine.id = before.task.id
      · rw [clash] at held ⊢
        obtain ⟨later, stored, further⟩ := working.written held writes
        exact ⟨later, shownRow.trans stored, continues.trans further⟩
      · exact ⟨row, (hiddenRow clash).trans held, continues⟩
    obtain ⟨its, phase⟩ := call
    refine ⟨lawful.1, ?_⟩
    cases phase with
    | saving mine | abandoned mine =>
        have lawful := lawful.2
        dsimp only at lawful ⊢
        rwa [hiddenRow (elsewhere rfl), hiddenKept (elsewhere rfl)]
    | answered mine | landed mine =>
        obtain ⟨_, created, row, held, continues⟩ := lawful
        exact ⟨created, shown held continues⟩
    | started | opened | cleared | refused => trivial
  case exclusive =>
    simp only [calls]
    exact consistent.exclusive
  case apart =>
    intro i j call progress heldCall heldProgress
    rw [calls] at heldCall
    rw [coordinators] at heldProgress
    rcases Arena.getElem?_set_cases heldProgress with ⟨_, rfl⟩ | ⟨_, heldProgress⟩
    · rw [same]
      exact consistent.apart heldCall found
    · exact consistent.apart heldCall heldProgress

-----------------------------------------------------------------------------------------
-- Every step
-----------------------------------------------------------------------------------------

/-- Every step of the service keeps it consistent. -/
theorem Consistent.step (honest : ∀ key item, executes key item → item.key = key)
    {state after : State} {label : Label} (taken : Step config executes state label after)
    (consistent : Consistent config executes state)
    : Consistent config executes after := by
  cases taken with
  | begin submits => exact consistent.begin submits
  | openChecked found | refusedClosed found | memoryChecked found | refusedUnpersisted found
  | refusedFull found | refusedSave found =>
      have lawful := consistent.calls found
      exact consistent.advance rfl rfl rfl rfl found ⟨lawful.1, trivial⟩ (by simp [Call.owned?])
  | @admitted call draft id created updated found free fresh =>
      have lawful := consistent.calls found
      refine consistent.advance rfl rfl rfl rfl found ⟨lawful.1, ?_⟩ ?_
      · exact ⟨⟨created, updated, rfl⟩, fresh.nonempty, fresh.stored, fresh.kept⟩
      · intro other owned
        obtain rfl : id = other := Option.some.inj owned
        exact Or.inr fresh
  | abandoned found =>
      have lawful := consistent.calls found
      exact consistent.advance rfl rfl rfl rfl found ⟨lawful.1, lawful.2⟩ Or.inl
  | landed found =>
      exact consistent.land found (Or.inr rfl) (Or.inr rfl) rfl rfl rfl rfl
  | @accepted call draft task found =>
      let saved : State :=
        {
          state with
          rows := state.rows.insert task.id task
          calls := state.calls.set call { draft, phase := .answered task }
        }
      have stored : Consistent config executes saved :=
        consistent.land found (Or.inl rfl) (Or.inl rfl) rfl rfl rfl rfl
      obtain ⟨submits, ⟨created, updated, new⟩, nonempty, absent, forgotten⟩ :=
        consistent.calls found
      have held : saved.rows[task.id]? = some task := Table.insert_self _ _ _
      refine @Consistent.spawn _ _ saved _ { task with state := .running } task state.shutdown
        stored rfl rfl rfl rfl held ?_ rfl ?_ ?_ ?_ ?_
      · rw [new]
        refine ⟨forgotten, ⟨_, rfl, rfl, ⟨rfl, rfl, rfl, rfl, List.prefix_rfl⟩⟩, ?_⟩
        exact (newTask_accountable submits task.id created updated).of_same
          ⟨rfl, rfl, rfl, rfl, List.prefix_rfl⟩ rfl
      · rw [new]; rfl
      · rw [new]; rfl
      · intro other member owned
        obtain ⟨index, held⟩ := List.mem_iff_getElem?.mp member
        rcases Arena.getElem?_set_cases held with ⟨_, rfl⟩ | ⟨apart, held⟩
        · cases owned
        · exact apart (consistent.exclusive held found owned rfl)
      · intro progress member same
        obtain ⟨index, held⟩ := List.mem_iff_getElem?.mp member
        exact consistent.apart found held (congrArg some same.symm)
  | coordinate found taken => exact consistent.coordinate honest found taken rfl rfl rfl rfl
  | shutdown => exact ⟨consistent.rows, consistent.retained, consistent.coordinators,
      consistent.distinct, consistent.calls, consistent.exclusive, consistent.apart⟩

end MoenotesAssets.Service
