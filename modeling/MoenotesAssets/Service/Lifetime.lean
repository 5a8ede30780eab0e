import MoenotesAssets.Foundation.KeysetScan
import MoenotesAssets.Service.Consistency

/-! The lives of a service: `App::open` rebuilds the rows its predecessor left behind,
and the process may die at any moment, also while it rebuilds them.
-/

namespace MoenotesAssets.Service

open Foundation

variable {config : Config} {executes : String → ItemResult → Prop}

-----------------------------------------------------------------------------------------
-- The lives
-----------------------------------------------------------------------------------------

/-- The selected keys without a result. -/
def missingKeys (task : Task) : List String :=
  task.keys.filter (fun key => !(resultKeys task.results).contains key)

/-- The record `App::open` writes over one that was queued or running. -/
def recovered (task : Task) (now : Nat) : Task :=
  let results := task.results
    ++ (missingKeys task).map (fun key => failedItem key "interrupted by service restart")
  {
    task with
    state := .failed
    error := some "interrupted by service restart; resubmit failed keys"
    results
    completed := if task.kind = .exports then results.length else task.completed
    updated := now
  }

/-- The record of a row after the recovery visited it. -/
def visitedRow (clock : String → Nat) (id : String) (task : Task) : Task :=
  if task.state.terminal then task else recovered task (clock id)

/-- `UPDATE tasks SET body=? WHERE id=?`, with the id of the record itself. -/
def recoverRow (clock : String → Nat) (rows : Records) (id : String) (task : Task) : Records :=
  if task.state.terminal then rows
  else rows.modify task.id (fun _ => recovered task (clock id))

/-- Rows per query of the recovery. -/
def pageLimit : Nat := 100

/-- Between two lives there is only the table. -/
inductive Life where
  | stopped (rows : Records)
  | opening (clock : String → Nat) (cursor : KeysetScan.Cursor String Task)
  | serving (state : State)

inductive LifeLabel where
  | opens
  | scans (visit : Option String)
  | opened
  | dies
  | serves (label : Label)

/-- An `App::open` that fails after its scan leaves what a death there leaves. -/
inductive LifeStep (config : Config) (executes : String → ItemResult → Prop)
    : Life → LifeLabel → Life → Prop where
  | opens {rows clock}
    : LifeStep config executes (.stopped rows) .opens
        (.opening clock (KeysetScan.start rows ""))
  | scans {clock cursor visit after}
    (taken : KeysetScan.advance pageLimit (recoverRow clock) cursor = some (visit, after))
    : LifeStep config executes (.opening clock cursor) (.scans visit) (.opening clock after)
  | opened {clock cursor}
    (done : KeysetScan.advance pageLimit (recoverRow clock) cursor = none)
    : LifeStep config executes (.opening clock cursor) .opened
        (.serving (.open config cursor.table))
  | diesOpening {clock cursor}
    : LifeStep config executes (.opening clock cursor) .dies (.stopped cursor.table)
  | diesServing {state}
    : LifeStep config executes (.serving state) .dies (.stopped state.rows)
  | serves {state label after} (taken : Step config executes state label after)
    : LifeStep config executes (.serving state) (.serves label) (.serving after)

/-- All lives of a service whose table starts empty. -/
def lifetime (config : Config) (executes : String → ItemResult → Prop)
    : System Life LifeLabel where
  initial life := life = .stopped {}
  step := LifeStep config executes

-----------------------------------------------------------------------------------------
-- Rebuilt records
-----------------------------------------------------------------------------------------

/-- Reported and missing keys are the selection: filtering a permutation of the keys
keeps the part that is not reported.
-/
theorem missing_perm {task : Task} (accountable : Accountable task)
    (export' : task.kind = .exports)
    : (resultKeys task.results ++ missingKeys task).Perm task.keys := by
  obtain ⟨rest, placed⟩ := accountable.missing export'
  have distinct : (resultKeys task.results ++ rest).Nodup :=
    placed.nodup_iff.mpr (accountable.selected export').1
  have apart : ∀ key ∈ rest, key ∉ resultKeys task.results :=
    fun key later earlier => (List.nodup_append.mp distinct).2.2 key earlier key later rfl
  have filtered : (missingKeys task).Perm rest := by
    refine (placed.symm.filter _).trans (List.Perm.of_eq ?_)
    have reported : (resultKeys task.results).filter
        (fun key => !(resultKeys task.results).contains key) = [] := by
      simp
    have others : rest.filter (fun key => !(resultKeys task.results).contains key) = rest :=
      List.filter_eq_self.mpr fun key later => by simpa using apart key later
    rw [List.filter_append, reported, others, List.nil_append]
  exact (filtered.append_left _).trans placed

/-- A rebuilt record continues the one it replaces. -/
theorem recovered_continues (task : Task) (now : Nat) : task.Continues (recovered task now) :=
  ⟨rfl, rfl, rfl, rfl, List.prefix_append _ _⟩

/-- The keys a rebuilt record reports. -/
theorem recovered_keys (task : Task) (now : Nat)
    : resultKeys (recovered task now).results
      = resultKeys task.results ++ missingKeys task := by
  simp [recovered]

/-- A rebuilt record is accountable. -/
theorem recovered_accountable {task : Task} (accountable : Accountable task) (now : Nat)
    : Accountable (recovered task now) := by
  refine ⟨accountable.selected, fun export' => ⟨[], ?_⟩⟩
  rw [recovered_keys, List.append_nil]
  exact missing_perm accountable export'

/-- The recovery keeps the law of a row. -/
theorem RowLaw.visited {id : String} {task : Task} (law : RowLaw id task)
    (clock : String → Nat)
    : RowLaw id (visitedRow clock id task) := by
  unfold visitedRow
  split
  · exact law
  · exact ⟨law.own, law.nonempty, recovered_accountable law.accountable _⟩

-----------------------------------------------------------------------------------------
-- The invariant of all lives
-----------------------------------------------------------------------------------------

/-- Every row satisfies its law. -/
def Storable (rows : Records) : Prop :=
  ∀ {id task}, rows[id]? = some task → RowLaw id task

/-- The rows of an ongoing recovery of `origin`. -/
def Recovering (origin : Records) (clock : String → Nat)
    (cursor : KeysetScan.Cursor String Task) : Prop :=
  ∃ visited, KeysetScan.Scanned origin "" (visitedRow clock) visited cursor

/-- On lawful rows the recovery rewrites exactly the row it visits. -/
theorem recoverRow_rewrites {origin : Records} (storable : Storable origin)
    (clock : String → Nat)
    : KeysetScan.Rewrites origin (recoverRow clock) (visitedRow clock) := by
  intro id task original rows held other
  have own := (storable original).own
  by_cases done : task.state.terminal = true
  · rw [recoverRow, if_pos done, visitedRow, if_pos done]
    split
    · rename_i same
      rw [← Std.LawfulEqOrd.compare_eq_iff_eq.mp same, held]
    · rfl
  · rw [recoverRow, if_neg done, visitedRow, if_neg done, Std.TreeMap.getElem?_modify, own, held]
    rfl

/-- A row of an ongoing recovery is the original one or the rebuilt one. -/
theorem Recovering.row {origin : Records} {clock : String → Nat}
    {cursor : KeysetScan.Cursor String Task} (recovering : Recovering origin clock cursor)
    (id : String)
    : cursor.table[id]? = origin[id]?
      ∨ cursor.table[id]? = (origin[id]?).map (visitedRow clock id) := by
  obtain ⟨visited, scanned⟩ := recovering
  by_cases old : id ∈ visited
  · exact Or.inr (scanned.rewritten id old)
  · exact Or.inl (scanned.untouched id old)

/-- The rows of an ongoing recovery satisfy their law. -/
theorem Recovering.storable {origin : Records} {clock : String → Nat}
    {cursor : KeysetScan.Cursor String Task} (recovering : Recovering origin clock cursor)
    (storable : Storable origin)
    : Storable cursor.table := by
  intro id task held
  rcases recovering.row id with same | rewritten
  · exact storable (same ▸ held)
  · rw [rewritten] at held
    obtain ⟨row, original, rfl⟩ := Option.map_eq_some_iff.mp held
    exact (storable original).visited clock

/-- One step of a recovery. -/
theorem Recovering.step {origin : Records} {clock : String → Nat} {visit : Option String}
    {cursor after : KeysetScan.Cursor String Task}
    (recovering : Recovering origin clock cursor) (storable : Storable origin)
    (taken : KeysetScan.advance pageLimit (recoverRow clock) cursor = some (visit, after))
    : Recovering origin clock after := by
  obtain ⟨visited, scanned⟩ := recovering
  exact ⟨_, scanned.step (recoverRow_rewrites storable clock) taken⟩

/-- Lawful rows in every life, and a consistent service while one is serving. -/
def Life.Lawful (config : Config) (executes : String → ItemResult → Prop) : Life → Prop
  | .stopped rows => Storable rows
  | .opening clock cursor => ∃ origin, Storable origin ∧ Recovering origin clock cursor
  | .serving state => Consistent config executes state

/-- Every step of a life is lawful. -/
theorem Life.Lawful.step (honest : ∀ key item, executes key item → item.key = key)
    {life after : Life} {label : LifeLabel} (taken : LifeStep config executes life label after)
    (lawful : life.Lawful config executes)
    : after.Lawful config executes := by
  cases taken with
  | @opens rows clock => exact ⟨rows, lawful, [], KeysetScan.Scanned.start⟩
  | scans taken =>
      obtain ⟨origin, storable, recovering⟩ := lawful
      exact ⟨origin, storable, recovering.step storable taken⟩
  | opened done =>
      obtain ⟨origin, storable, recovering⟩ := lawful
      exact Consistent.open (recovering.storable storable)
  | diesOpening =>
      obtain ⟨origin, storable, recovering⟩ := lawful
      exact recovering.storable storable
  | diesServing =>
      have consistent : Consistent config executes _ := lawful
      intro id task held
      exact consistent.rows held
  | serves taken => exact Consistent.step honest taken lawful

/-- Every reachable life is lawful. -/
theorem lawful_of_reachable (honest : ∀ key item, executes key item → item.key = key)
    {life : Life} (reached : (lifetime config executes).Reachable life)
    : life.Lawful config executes := by
  refine reached.invariant (P := Life.Lawful config executes) ?_
    (fun taken lawful => lawful.step honest taken)
  rintro life rfl
  exact fun held => by simp at held

/-- A serving service is consistent. -/
theorem consistent_of_reachable (honest : ∀ key item, executes key item → item.key = key)
    {state : State} (reached : (lifetime config executes).Reachable (.serving state))
    : Consistent config executes state :=
  lawful_of_reachable honest reached

end MoenotesAssets.Service
