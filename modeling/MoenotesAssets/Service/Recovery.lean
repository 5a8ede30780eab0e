import MoenotesAssets.Service.Lifetime

/-! What a death leaves and the next `App::open` makes of it: every interrupted export
accounts for all of its keys, and no row stays queued or running.
-/

namespace MoenotesAssets.Service

open Foundation

variable {config : Config} {executes : String → ItemResult → Prop}

-----------------------------------------------------------------------------------------
-- Rows after openings
-----------------------------------------------------------------------------------------

/-- After any number of openings, finished or not, a row is the one left by the death or
the record rebuilt from it.
-/
def Rebuilt (before after : Records) : Prop :=
  ∀ id : String,
    after[id]? = before[id]?
    ∨ ∃ row now,
        before[id]? = some row ∧ row.state.terminal = false
          ∧ after[id]? = some (recovered row now)

/-- A recovery of rebuilt rows leaves rebuilt rows: a rebuilt record is terminal, so it is
not rebuilt again.
-/
theorem Rebuilt.visited {before origin : Records} {clock : String → Nat}
    {cursor : KeysetScan.Cursor String Task} (rebuilt : Rebuilt before origin)
    (recovering : Recovering origin clock cursor)
    : Rebuilt before cursor.table := by
  intro id
  rcases recovering.row id with same | rewritten
  · rw [same]
    exact rebuilt id
  · rw [rewritten]
    rcases rebuilt id with same | ⟨row, now, held, open', done⟩
    · rw [same]
      cases held : before[id]? with
      | none => exact Or.inl rfl
      | some row =>
          by_cases done : row.state.terminal = true
          · exact Or.inl (by simp [visitedRow, done])
          · refine Or.inr ⟨row, clock id, rfl, by simpa using done, ?_⟩
            simp [visitedRow, done]
    · refine Or.inr ⟨row, now, held, open', ?_⟩
      rw [done]
      rfl

/-- No row is queued or running. -/
def Closed (rows : Records) : Prop :=
  ∀ {id : String} {task : Task}, rows[id]? = some task → task.state.terminal = true

/-- A record after its visit is terminal. -/
theorem visitedRow_terminal (clock : String → Nat) (id : String) (task : Task)
    : (visitedRow clock id task).state.terminal = true := by
  unfold visitedRow
  split
  · assumption
  · rfl

/-- Every id but the empty one comes after the empty one. -/
theorem empty_before {id : String} (nonempty : id ≠ "") : compare "" id = .lt := by
  rw [compare_lt_iff_lt, String.lt_iff_toList_lt]
  cases spelled : id.toList with
  | nil => exact absurd spelled (by simpa using nonempty)
  | cons first rest => exact List.nil_lt_cons first rest

/-- On lawful rows a scan from the empty id has all rows ahead of it. -/
theorem remaining_all {rows : Records} (storable : Storable rows)
    : KeysetScan.remaining rows "" = rows.toList := by
  refine List.filter_eq_self.mpr ?_
  rintro ⟨id, task⟩ member
  have held := Std.TreeMap.mem_toList_iff_getElem?_eq_some.mp member
  simpa using empty_before (storable held).nonempty

/-- A finished recovery has closed every row. -/
theorem Scanned.closed {origin : Records} {clock : String → Nat} {visited : List String}
    {cursor : KeysetScan.Cursor String Task} (storable : Storable origin)
    (scanned : KeysetScan.Scanned origin "" (visitedRow clock) visited cursor)
    (done : KeysetScan.advance pageLimit (recoverRow clock) cursor = none)
    : Closed cursor.table := by
  intro id task held
  have everything := scanned.finished (by decide) done
  rw [remaining_all storable, Std.TreeMap.map_fst_toList_eq_keys] at everything
  by_cases old : id ∈ visited
  · rw [scanned.rewritten id old] at held
    obtain ⟨row, _, rfl⟩ := Option.map_eq_some_iff.mp held
    exact visitedRow_terminal clock id row
  · rw [scanned.untouched id old] at held
    have member : id ∈ origin := Std.TreeMap.mem_iff_isSome_getElem?.mpr (by simp [held])
    exact absurd (everything ▸ Std.TreeMap.mem_keys.mpr member) old

/-- What holds of the lives that follow a death which left `before`, up to and including
the moment the next service is opened.
-/
def Life.Follows (before : Records) : Life → Prop
  | .stopped rows => Storable rows ∧ Rebuilt before rows
  | .opening clock cursor =>
      ∃ origin, Storable origin ∧ Rebuilt before origin ∧ Recovering origin clock cursor
  | .serving state => Storable state.rows ∧ Rebuilt before state.rows ∧ Closed state.rows

/-- A step that serves nothing keeps the rows rebuilt. -/
theorem Life.Follows.step {before : Records} {life after : Life} {label : LifeLabel}
    (taken : LifeStep config executes life label after) (idle : ∀ step, label ≠ .serves step)
    (follows : life.Follows before)
    : after.Follows before := by
  cases taken with
  | @opens rows clock =>
      obtain ⟨storable, rebuilt⟩ := follows
      exact ⟨rows, storable, rebuilt, [], KeysetScan.Scanned.start⟩
  | scans taken =>
      obtain ⟨origin, storable, rebuilt, recovering⟩ := follows
      exact ⟨origin, storable, rebuilt, recovering.step storable taken⟩
  | opened done =>
      obtain ⟨origin, storable, rebuilt, recovering⟩ := follows
      refine ⟨recovering.storable storable, rebuilt.visited recovering, ?_⟩
      obtain ⟨visited, scanned⟩ := recovering
      exact Scanned.closed storable scanned done
  | diesOpening =>
      obtain ⟨origin, storable, rebuilt, recovering⟩ := follows
      exact ⟨recovering.storable storable, rebuilt.visited recovering⟩
  | diesServing =>
      obtain ⟨storable, rebuilt, _⟩ := follows
      exact ⟨storable, rebuilt⟩
  | serves _ => exact absurd rfl (idle _)

/-- The rows after a path that serves nothing, by induction on its steps. -/
theorem follows_of_path {before : Records} {life after : Life} {trace : List LifeLabel}
    (path : (lifetime config executes).Path life trace after)
    (idle : ∀ label ∈ trace, ∀ step, label ≠ .serves step) (follows : life.Follows before)
    : after.Follows before := by
  induction path with
  | here => exact follows
  | next path taken ih =>
      have earlier := ih fun label member => idle label (List.mem_append_left _ member)
      exact earlier.step taken (idle _ (by simp))

-----------------------------------------------------------------------------------------
-- One opening
-----------------------------------------------------------------------------------------

/-- The scanning steps of a life are the steps of its scan, by induction from the end. -/
theorem execution_of_scans {rows : Records} {clock : String → Nat}
    {cursor : KeysetScan.Cursor String Task} {visits : List (Option String)}
    (path
      : (lifetime config executes).Path (.opening clock (KeysetScan.start rows ""))
          (visits.map .scans) (.opening clock cursor))
    : (KeysetScan.system pageLimit (recoverRow clock) rows "").Execution visits cursor := by
  induction visits using List.reverseRecOn generalizing cursor with
  | nil =>
      have same := path.empty
      cases same
      exact ⟨_, rfl, .here⟩
  | append_singleton visits visit ih =>
      rw [List.map_append] at path
      obtain ⟨middle, head, tail⟩ := path.split
      have taken := tail.single
      cases taken with
      | scans taken => exact (ih head).next taken

/-- A scanning life stays with its clock. -/
theorem opening_of_scans {clock : String → Nat} {life : Life}
    {first : KeysetScan.Cursor String Task} {visits : List (Option String)}
    (path : (lifetime config executes).Path (.opening clock first) (visits.map .scans) life)
    : ∃ cursor, life = .opening clock cursor := by
  induction visits using List.reverseRecOn generalizing life with
  | nil => exact ⟨first, path.empty⟩
  | append_singleton visits visit ih =>
      rw [List.map_append] at path
      obtain ⟨middle, head, tail⟩ := path.split
      obtain ⟨cursor, rfl⟩ := ih head
      have taken := tail.single
      cases taken with
      | scans taken => exact ⟨_, rfl⟩

/-- The steps of a scan are steps of the life it opens. -/
theorem scans_of_path {rows : Records} {clock : String → Nat}
    {first cursor : KeysetScan.Cursor String Task} {visits : List (Option String)}
    (path : (KeysetScan.system pageLimit (recoverRow clock) rows "").Path first visits cursor)
    : (lifetime config executes).Path (.opening clock first) (visits.map .scans)
        (.opening clock cursor) := by
  induction path with
  | here => exact .here
  | next _ taken ih =>
      rw [List.map_append]
      exact ih.next (.scans taken)

/-- An opening that nothing interrupts visits every row once, in the order of the ids. -/
theorem visits_of_opening {rows : Records} {life : Life} {visits : List (Option String)}
    (storable : Storable rows)
    (path
      : (lifetime config executes).Path (.stopped rows)
          (.opens :: visits.map .scans ++ [.opened]) life)
    : visits.filterMap id = rows.keys := by
  have path' : (lifetime config executes).Path (.stopped rows)
      ([.opens] ++ (visits.map .scans ++ [.opened])) life := path
  obtain ⟨opening, first, rest⟩ := path'.split
  obtain ⟨scanned, scans, last⟩ := rest.split
  have opens := first.single
  cases opens with
  | @opens _ clock =>
      obtain ⟨cursor, rfl⟩ := opening_of_scans scans
      have opened := last.single
      cases opened with
      | opened done =>
          have scanned := KeysetScan.scanned_of_execution
            (recoverRow_rewrites storable clock) (execution_of_scans scans)
          rw [scanned.finished (by decide) done, remaining_all storable,
            Std.TreeMap.map_fst_toList_eq_keys]

/-- Every table can be opened. -/
theorem exists_opening {rows : Records} (storable : Storable rows)
    : ∃ (visits : List (Option String)) (state : State),
        (lifetime config executes).Path (.stopped rows)
          (.opens :: visits.map .scans ++ [.opened]) (.serving state) := by
  have clock : String → Nat := fun _ => 0
  have start : (KeysetScan.system pageLimit (recoverRow clock) rows "").Execution []
      (KeysetScan.start rows "") := ⟨_, rfl, .here⟩
  obtain ⟨visits, cursor, path, done⟩ :=
    KeysetScan.exists_finished (recoverRow_rewrites storable clock) start
  refine ⟨visits, .open config cursor.table, ?_⟩
  have opens : (lifetime config executes).Path (.stopped rows) [.opens]
      (.opening clock (KeysetScan.start rows "")) := System.Path.here.next .opens
  exact (opens.append (scans_of_path path)).next (.opened done)

-----------------------------------------------------------------------------------------
-- Interrupted exports
-----------------------------------------------------------------------------------------

/-- The record of an export rebuilt from the row it was interrupted with: failed, with the
stored results first and then one failure for every key without a result.
-/
structure RebuiltExport (row task : Task) : Prop where
  state : task.state = .failed
  keys : task.keys = row.keys
  kept : row.results <+: task.results
  once : (resultKeys task.results).Perm row.keys
  added
    : ∀ result ∈ task.results.drop row.results.length,
        result.exportId = none ∧ result.error = some "interrupted by service restart"
  completed : task.completed = task.results.length
  total : task.results.length = task.total

/-- The recovery rebuilds an accountable export. -/
theorem rebuiltExport_of_recovered {row : Task} (accountable : Accountable row)
    (export' : row.kind = .exports) (now : Nat)
    : RebuiltExport row (recovered row now) := by
  have once : (resultKeys (recovered row now).results).Perm row.keys := by
    rw [recovered_keys]
    exact missing_perm accountable export'
  constructor
  case state => rfl
  case keys => rfl
  case kept => exact (recovered_continues row now).results
  case once => exact once
  case added =>
    intro result member
    simp only [recovered, List.drop_left, List.mem_map] at member
    obtain ⟨key, _, rfl⟩ := member
    exact ⟨rfl, rfl⟩
  case completed => simp [recovered, export']
  case total =>
    have length := once.length_eq
    simp only [resultKeys, List.length_map] at length
    rw [length]
    exact (accountable.selected export').2.symm

/-- What an open service shows of the rows a death left behind. -/
structure RecoversRows (before after : Records) : Prop where
  settled
    : ∀ {id : String} {row : Task},
        before[id]? = some row → row.state.terminal = true → after[id]? = some row
  rebuilt
    : ∀ {id : String} {row : Task},
        before[id]? = some row
        → row.state.terminal = false
        → row.kind = .exports
        → ∃ task, after[id]? = some task ∧ RebuiltExport row task
  closed : Closed after
  known : ∀ {id : String} {task : Task}, after[id]? = some task → id ∈ before

/-- Rebuilt and closed rows are recovered. -/
theorem RecoversRows.of_rebuilt {before after : Records} (storable : Storable before)
    (rebuilt : Rebuilt before after) (closed : Closed after)
    : RecoversRows before after := by
  constructor
  case settled =>
    intro id row held done
    rcases rebuilt id with same | ⟨other, now, held', open', _⟩
    · exact same.trans held
    · obtain rfl := Option.some.inj (held.symm.trans held')
      cases done.symm.trans open'
  case rebuilt =>
    intro id row held open' export'
    rcases rebuilt id with same | ⟨other, now, held', _, done⟩
    · cases (closed (same.trans held)).symm.trans open'
    · obtain rfl := Option.some.inj (held.symm.trans held')
      exact ⟨_, done, rebuiltExport_of_recovered (storable held).accountable export' now⟩
  case closed => exact closed
  case known =>
    intro id task held
    rw [Std.TreeMap.mem_iff_isSome_getElem?]
    rcases rebuilt id with same | ⟨row, _, held', _, _⟩
    · rw [← same, held]
      rfl
    · rw [held']
      rfl

/-- The service `final` opened after the death of the service in `state`. -/
structure RecoversService (config : Config) (executes : String → ItemResult → Prop)
    (state : State) (trace : List LifeLabel) (final : State) : Prop where
  rows : RecoversRows state.rows final.rows
  /-- every export that `new_task` has saved, also when its handler was dropped -/
  exports
    : ∀ {call : Nat} {draft : Draft} {task : Task},
        state.calls[call]? = some { draft, phase := .answered task }
          ∨ state.calls[call]? = some { draft, phase := .landed task }
        → draft.kind = .exports
        → ∃ row last,
            state.rows[task.id]? = some row ∧ final.rows[task.id]? = some last
              ∧ draft.keys.Nodup ∧ row.keys = draft.keys
              ∧ (row.state.terminal = true → last = row)
              ∧ (row.state.terminal = false → RebuiltExport row last)
  visits
    : ∀ {visits : List (Option String)},
        trace = .opens :: visits.map .scans ++ [.opened]
        → visits.filterMap id = state.rows.keys
  opens
    : ∃ (visits : List (Option String)) (last : State),
        (lifetime config executes).Path (.stopped state.rows)
          (.opens :: visits.map .scans ++ [.opened]) (.serving last)

/-- A process may die in any state, and the openings that follow may die as well: the first
one that succeeds recovers every row.
-/
theorem open_recovers_tasks (honest : ∀ key item, executes key item → item.key = key)
    {state final : State} {trace : List LifeLabel}
    (reached : (lifetime config executes).Reachable (.serving state))
    (path
      : (lifetime config executes).Path (.serving state) (.dies :: trace) (.serving final))
    (idle : ∀ label ∈ trace, ∀ step, label ≠ .serves step)
    : RecoversService config executes state trace final := by
  have consistent := consistent_of_reachable honest reached
  have storable : Storable state.rows := consistent.rows
  have split : (lifetime config executes).Path (.serving state) ([.dies] ++ trace)
      (.serving final) := path
  obtain ⟨stopped, died, opens⟩ := split.split
  have dies := died.single
  cases dies with
  | diesServing =>
      have start : Life.Follows state.rows (.stopped state.rows) :=
        ⟨storable, fun _ => Or.inl rfl⟩
      obtain ⟨_, rebuilt, closed⟩ := follows_of_path opens idle start
      have recovers := RecoversRows.of_rebuilt storable rebuilt closed
      constructor
      case rows => exact recovers
      case exports =>
        intro call draft task saved export'
        have lawful : Submits config draft ∧ Created draft task
            ∧ ∃ row, state.rows[task.id]? = some row ∧ task.Continues row := by
          rcases saved with saved | saved <;> exact consistent.calls saved
        obtain ⟨submits, ⟨created, updated, new⟩, row, held, continues⟩ := lawful
        have accountable := newTask_accountable submits task.id created updated
        have kind : row.kind = .exports := by
          rw [continues.kind, new]
          exact export'
        have keys : row.keys = draft.keys := by
          rw [continues.keys, new]
          rfl
        have distinct : draft.keys.Nodup := (accountable.selected export').1
        cases done : row.state.terminal with
        | true =>
            exact ⟨row, row, held, recovers.settled held done, distinct, keys, fun _ => rfl,
              fun open' => absurd (done.symm.trans open') Bool.noConfusion⟩
        | false =>
            obtain ⟨last, shown, rebuilt⟩ := recovers.rebuilt held done kind
            exact ⟨row, last, held, shown, distinct, keys,
              fun closed => absurd (done.symm.trans closed) Bool.noConfusion, fun _ => rebuilt⟩
      case visits =>
        intro visits uninterrupted
        exact visits_of_opening storable (uninterrupted ▸ opens)
      case opens => exact exists_opening storable

/-- An export of two keys whose process dies right after `new_task` saved it. -/
theorem open_recovers_two_keys
    : ∃ state trace final,
        state.rows["t"]?.map Task.state = some .queued
        ∧ final.rows["t"]?.map (fun task => resultKeys task.results) = some ["a", "b"]
        ∧ RecoversService ⟨1, 2, 1⟩ (fun key item => item.key = key) state trace final := by
  let config : Config := ⟨1, 2, 1⟩
  let request : ExportRequest :=
    {
      snapshot := none, keys := ["b", "a", "b"], keyPrefix := none
      selector := { expectedType := none, locationId := none }, archive := false
    }
  let draft : Draft := exportDraft "s" ["a", "b"]
  have selected : selectKeys config request (.ok ("s", { keys := {}, locations := {} }))
      = .ok ("s", ["a", "b"]) := by decide
  let task : Task := newTask draft "t" 3 3
  let clock : String → Nat := fun _ => 9
  let called (phase : CallPhase) : State :=
    { State.open config {} with calls := [{ draft, phase }] }
  let saved : State :=
    {
      called (.answered task) with
      rows := Std.TreeMap.insert {} "t" task
      cancellations := Std.TreeSet.insert {} "t"
      permits := 0
      coordinators := [.starting { task with state := .running } false]
    }
  let rebuilt : Records := recoverRow clock saved.rows "t" task
  let sys := lifetime config (fun key item => item.key = key)
  have start : sys.Execution [] (.stopped {}) := ⟨_, rfl, .here⟩
  have opened : sys.Execution _ (.serving (.open config {})) :=
    (start.next (@LifeStep.opens _ _ {} clock)).next (.opened (by decide))
  have begun : sys.Execution _ (.serving (called .started)) :=
    opened.next (.serves (.begin (.exports selected)))
  have running : sys.Execution _ (.serving (called .opened)) :=
    begun.next (.serves (@Step.openChecked _ _ _ 0 draft rfl rfl))
  have clear : sys.Execution _ (.serving (called .cleared)) :=
    running.next (.serves (@Step.memoryChecked _ _ _ 0 draft rfl rfl))
  have admitted : sys.Execution _ (.serving { called (.saving task) with permits := 0 }) :=
    clear.next (.serves (@Step.admitted _ _ _ 0 draft "t" 3 3 rfl (by decide)
      ⟨by decide, rfl, rfl, by decide, by decide⟩))
  have accepted : sys.Execution _ (.serving saved) :=
    admitted.next (.serves (@Step.accepted _ _ _ 0 draft task rfl))
  have dies : sys.Path (.serving saved) [.dies] (.stopped saved.rows) :=
    System.Path.here.next .diesServing
  have opens := dies.next (@LifeStep.opens _ _ saved.rows clock)
  have queried : sys.Path (.serving saved) [.dies, .opens, .scans none]
      (.opening clock { table := saved.rows, previous := "", page := [("t", task)] }) :=
    opens.next (.scans (KeysetScan.advance_query rfl (by decide)))
  have visited : sys.Path (.serving saved) [.dies, .opens, .scans none, .scans (some "t")]
      (.opening clock { table := rebuilt, previous := "t", page := [] }) :=
    queried.next (.scans rfl)
  have reopened : sys.Path (.serving saved)
      (.dies :: [.opens, .scans none, .scans (some "t"), .opened])
      (.serving (.open config rebuilt)) :=
    visited.next (.opened (by decide))
  exact ⟨saved, _, _, rfl, by decide,
    open_recovers_tasks (fun _ _ same => same) accepted.reachable reopened (by simp)⟩

end MoenotesAssets.Service
