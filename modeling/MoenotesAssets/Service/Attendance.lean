import MoenotesAssets.Service.Finishing
import MoenotesAssets.Service.Owners

/-! Who attends to the rows of `tasks`: a queued or running row belongs to a handler in
`new_task`, to a coordinator that will finish it or to a record in memory, as long as no
client disconnects while the first save of its task takes effect. Such a row stays queued.
-/

namespace MoenotesAssets.Service.Handlers

open Foundation

variable {config : Config} {state after : State} {task : Task}

-----------------------------------------------------------------------------------------
-- Attended rows
-----------------------------------------------------------------------------------------

/-- Who answers for a row that is queued or running. -/
inductive Attended (config : Config) (state : State) (id : String) : Prop where
  | executing {handler task} (member : handler ∈ state.handlers)
    (executes : handler.phase.executing? = some task) (own : task.id = id)
  | coordinated {progress} (member : progress ∈ state.coordinators)
    (own : progress.task.id = id) (running : progress.isEnded = false)
    (finishes : WillFinish Yields config.downloads id progress)
  | superseded {record} (kept : state.unpersisted[id]? = some record)
    (terminal : record.state.terminal = true)

/-- No row is queued or running with nobody working on it. -/
def NoOrphan (config : Config) (state : State) : Prop :=
  ∀ {id : String} {row : Task},
    state.rows[id]? = some row → row.state.terminal = false → Attended config state id

/-- A row that lost its handler. -/
def Lost (state : State) (task : Task) : Prop :=
  ∃ handler ∈ state.handlers, handler.phase = .lost task

/-- A handler with a stored row is in `new_task` or was dropped. -/
theorem owner?_cases {handler : Handler} {owner : Owner} (owns : handler.owner? = some owner)
    : (∃ task, owner = .saving task)
      ∨ (∃ task, owner = .stored task ∧ handler.phase.executing? = some task)
      ∨ ∃ task, owner = .lost task ∧ handler.phase = .lost task := by
  rw [Handler.owner?] at owns
  split at owns <;> rename_i at' <;> cases owns
  · exact Or.inl ⟨_, rfl⟩
  · exact Or.inl ⟨_, rfl⟩
  · exact Or.inr (Or.inl ⟨_, rfl, congrArg Phase.executing? at'⟩)
  · exact Or.inr (Or.inl ⟨_, rfl, congrArg Phase.executing? at'⟩)
  · exact Or.inr (Or.inl ⟨_, rfl, congrArg Phase.executing? at'⟩)
  · exact Or.inr (Or.inr ⟨_, rfl, at'⟩)

/-- A handler in `new_task` owns its record and is not dropped. -/
theorem executing?_owner {handler : Handler} (executes : handler.phase.executing? = some task)
    : handler.owner? = some (.saving task) ∨ handler.owner? = some (.stored task) := by
  obtain ⟨request, phase⟩ := handler
  cases phase with
  | saving =>
      obtain rfl := Option.some.inj executes
      exact Or.inl rfl
  | stored | resumed | registered =>
      obtain rfl := Option.some.inj executes
      exact Or.inr rfl
  | _ => cases executes

/-- The rows of an orderly service that lost no handler are attended. -/
theorem Orderly.attended (orderly : Orderly config state) (kept : ∀ task, ¬Lost state task)
    : NoOrphan config state := by
  intro id row held open'
  rcases orderly.owned.cases id with ⟨owner, member, rfl, law⟩ | rests
  · rcases List.mem_append.mp member with member | member
    · obtain ⟨handler, inside, owns⟩ := List.mem_filterMap.mp member
      rcases owner?_cases owns with ⟨task, rfl⟩ | ⟨task, rfl, executes⟩ | ⟨task, rfl, lost⟩
      · cases held.symm.trans (congrArg Prod.fst law.2)
      · exact .executing inside executes rfl
      · exact absurd ⟨handler, inside, lost⟩ (kept task)
    · obtain ⟨progress, inside, rfl⟩ := List.mem_map.mp member
      obtain ⟨-, -, lawful⟩ := law
      cases running : progress.isEnded with
      | false =>
          have finishes := lawful.willFinish (fun _ _ yields => yields.key) running
          exact .coordinated inside rfl running finishes
      | true =>
          cases progress with
          | ended task =>
              obtain ⟨terminal, kept | ⟨-, stored⟩⟩ := lawful
              · exact .superseded kept terminal
              · obtain rfl := Option.some.inj (held.symm.trans stored)
                cases open'.symm.trans terminal
          | _ => cases running
  · cases open'.symm.trans (rests.2 row held).2

/-- A row that lost its handler is queued and nobody works on it. -/
theorem Orderly.orphaned (orderly : Orderly config state) (lost : Lost state task)
    : state.rows[task.id]? = some task ∧ task.state = .queued
      ∧ ¬Attended config state task.id := by
  obtain ⟨dropped, inside, phase⟩ := lost
  have owner : .lost task ∈ owners state.handlers state.coordinators :=
    mem_owners inside (by rw [Handler.owner?, phase])
  obtain ⟨new, places⟩ := orderly.owned.lawful _ owner
  refine ⟨congrArg Prod.fst places, new.queued, fun attended => ?_⟩
  cases attended with
  | @executing handler other member executes own =>
      rcases executing?_owner executes with owns | owns
      · cases orderly.owned.sole (mem_owners member owns) owner own
      · cases orderly.owned.sole (mem_owners member owns) owner own
  | @coordinated progress member own =>
      have coordinator : .coordinator progress ∈ owners state.handlers state.coordinators :=
        List.mem_append_right _ (List.mem_map_of_mem member)
      cases orderly.owned.sole coordinator owner own
  | superseded kept => cases kept.symm.trans (congrArg Prod.snd places)

-----------------------------------------------------------------------------------------
-- Runs
-----------------------------------------------------------------------------------------

/-- What a step does to the handlers: a dropped one stays as it is, and one more is lost by the
two steps that lose one.
-/
theorem Step.handlers_cases {label : Label} (taken : Step config state label after)
    : after.handlers = state.handlers ∧ label.loses = false
      ∨ (∃ new,
          after.handlers = state.handlers ++ [new] ∧ new.phase.isLost = false
            ∧ label.loses = false)
      ∨ ∃ index old new,
          state.handlers[index]? = some old ∧ after.handlers = state.handlers.set index new
            ∧ old.phase.isLost = false ∧ new.phase.isLost = label.loses := by
  have entry (request : Request) : request.entry.isLost = false := by
    rcases entry_cases request with entry | ⟨_, entry⟩ | ⟨_, entry⟩ <;> rw [entry] <;> rfl
  cases taken with
  | coordinate | shutdown => exact Or.inl ⟨rfl, rfl⟩
  | began => exact Or.inr (Or.inl ⟨_, rfl, entry _, rfl⟩)
  | @resolved index requested lookup snapshot catalog keys found =>
      have submitted := entry (.exports (archiveRequest snapshot keys))
      exact Or.inr (Or.inr ⟨_, _, _, found, rfl, rfl, submitted⟩)
  | looked found | refusedLookup found | refusedArchive found | selected found
  | refusedSelection found | openChecked found | refusedClosed found | memoryChecked found
  | refusedUnpersisted found | admitted found | refusedFull found | stored found
  | refusedSave found | resumed found | registered found | cancelled found | spawned found
  | left found | abandoned found | orphaned found | landed found =>
      exact Or.inr (Or.inr ⟨_, _, _, found, rfl, rfl, rfl⟩)

/-- A handler is lost after a step if one was before or the step loses one. -/
theorem Step.lost {label : Label} (taken : Step config state label after)
    : (∃ handler ∈ after.handlers, handler.phase.isLost = true)
      ↔ (∃ handler ∈ state.handlers, handler.phase.isLost = true) ∨ label.loses = true := by
  rcases taken.handlers_cases with ⟨same, keeps⟩ | ⟨new, pushed, fresh, keeps⟩
    | ⟨index, old, new, found, replaced, kept, loses⟩
  · simp [same, keeps]
  · simp [pushed, fresh, keeps, or_and_right, exists_or]
  · obtain ⟨others, here, there⟩ := Arena.set_perm found
    simp only [replaced, (there new).mem_iff, here.mem_iff]
    simp [kept, loses, or_comm]

/-- A lost handler stays lost. -/
theorem Lost.step {label : Label} (taken : Step config state label after)
    (lost : Lost state task)
    : Lost after task := by
  obtain ⟨handler, member, phase⟩ := lost
  refine ⟨handler, ?_, phase⟩
  rcases taken.handlers_cases with ⟨same, -⟩ | ⟨new, pushed, -⟩
    | ⟨index, old, new, found, replaced, kept, -⟩
  · exact same ▸ member
  · exact pushed ▸ List.mem_append_left _ member
  · obtain ⟨others, here, there⟩ := Arena.set_perm found
    rw [replaced, (there new).mem_iff]
    rcases List.mem_cons.mp (here.mem_iff.mp member) with rfl | member
    · rw [phase] at kept
      cases kept
    · exact List.mem_cons_of_mem _ member

/-- The steps of a run that lose a handler are those after which one is lost. -/
theorem lost_iff {rows : Records} {trace : List Label}
    (run : (process config rows).Execution trace state)
    : (∃ task, Lost state task) ↔ ∃ label ∈ trace, label.loses = true := by
  have history : (∃ handler ∈ state.handlers, handler.phase.isLost = true)
      ↔ ∃ label ∈ trace, label.loses = true := by
    refine run.history
      (I := fun trace state => (∃ handler ∈ state.handlers, handler.phase.isLost = true)
        ↔ ∃ label ∈ trace, label.loses = true) ?_ ?_
    · rintro state rfl
      simp [State.open]
    · intro trace state label after _ ih taken
      rw [taken.lost, ih]
      simp [or_and_right, exists_or]
  rw [← history]
  constructor
  · rintro ⟨task, handler, member, phase⟩
    exact ⟨handler, member, by rw [phase]; rfl⟩
  · rintro ⟨handler, member, isLost⟩
    cases phase : handler.phase with
    | lost task => exact ⟨task, handler, member, phase⟩
    | _ =>
        rw [phase] at isLost
        cases isLost

/-- A row that lost its handler stays queued with nobody working on it. -/
theorem Lost.stays {rows : Records} {trace : List Label} (orderly : Orderly config state)
    (lost : Lost state task) (path : (process config rows).Path state trace after)
    : after.rows[task.id]? = some task ∧ task.state = .queued
      ∧ ¬Attended config after task.id := by
  have later : Orderly config after :=
    path.preserves (fun taken orderly => Orderly.step taken orderly) orderly
  have stays : Lost after task :=
    path.preserves (P := (Lost · task)) (fun taken lost => lost.step taken) lost
  exact later.orphaned stays

/-- A service that was opened and has run is orderly. -/
theorem orderly_of_run {rows : Records} {trace : List Label}
    (opened : (lifetime config).Reachable (.serving (.open config rows)))
    (run : (process config rows).Execution trace state)
    : Orderly config state := by
  obtain ⟨start, rfl, path⟩ := run
  exact path.preserves (fun taken orderly => Orderly.step taken orderly)
    (orderly_of_reachable opened)

/-- In every life of a service and for every order of its steps: no row is orphaned as long as no
client disconnects while the first save of its task takes effect, before or after that. A
row that is orphaned stays so.
-/
theorem no_orphan_iff {rows : Records} {trace : List Label}
    (opened : (lifetime config).Reachable (.serving (.open config rows)))
    (run : (process config rows).Execution trace state)
    : NoOrphan config state ↔ ∀ label ∈ trace, label.loses = false := by
  have orderly := orderly_of_run opened run
  have lost := lost_iff run
  constructor
  · intro attended label member
    refine Bool.eq_false_iff.mpr fun loses => ?_
    obtain ⟨task, lost⟩ := lost.mpr ⟨label, member, loses⟩
    obtain ⟨held, queued, unattended⟩ := orderly.orphaned lost
    exact unattended (attended held (by rw [queued]; rfl))
  · intro keeps
    refine orderly.attended fun task dropped => ?_
    obtain ⟨label, member, loses⟩ := lost.mp ⟨task, dropped⟩
    cases (keeps label member).symm.trans loses

/-- A service with a queue of one task. -/
def narrow : Config := ⟨1, 1, 1⟩

/-- The record of its first refresh. -/
def firstRefresh : Task := newTask refreshDraft "t" 3 3

/-- A service with one handler, which was asked to refresh. -/
def refreshing (phase : Phase) : State :=
  { State.open narrow {} with handlers := [{ request := .refresh, phase }] }

/-- The service opens on an empty table. -/
theorem narrow_opens : (lifetime narrow).Reachable (.serving (.open narrow {})) :=
  have start : (lifetime narrow).Execution [] (.stopped {}) := ⟨_, rfl, .here⟩
  ((start.next (@LifeStep.opens _ {} (fun _ => 0))).next (.opened (by decide))).reachable

/-- A refresh comes to the await of its first save. -/
theorem firstRefresh_saving
    : (process narrow {}).Execution
        [.began, .openChecked 0, .memoryChecked 0, .admitted 0]
        { refreshing (.saving firstRefresh) with permits := 0 } := by
  have start : (process narrow {}).Execution [] (.open narrow {}) := ⟨_, rfl, .here⟩
  have began : (process narrow {}).Execution _ (refreshing (.started refreshDraft)) :=
    start.next (@Step.began _ _ .refresh)
  have checked : (process narrow {}).Execution _ (refreshing (.opened refreshDraft)) :=
    began.next (@Step.openChecked _ _ 0 .refresh refreshDraft rfl rfl)
  have clear : (process narrow {}).Execution _ (refreshing (.cleared refreshDraft)) :=
    checked.next (@Step.memoryChecked _ _ 0 .refresh refreshDraft rfl rfl)
  refine clear.next (@Step.admitted _ _ 0 .refresh refreshDraft "t" 3 3 rfl (by decide) ?_)
  refine ⟨by decide, rfl, rfl, ?_, by simp [refreshing, State.open]⟩
  intro handler member task saves
  obtain rfl := List.mem_singleton.mp member
  cases saves

/-- The refresh is spawned, and its row is attended. -/
theorem firstRefresh_attended
    : ∃ state,
        state.rows["t"]? = some firstRefresh ∧ state.coordinators.length = 1
        ∧ NoOrphan narrow state := by
  have stored := firstRefresh_saving.next (@Step.stored _ _ 0 .refresh firstRefresh rfl)
  have resumed := stored.next (@Step.resumed _ _ 0 .refresh firstRefresh rfl)
  have registered := resumed.next (@Step.registered _ _ 0 .refresh firstRefresh rfl)
  have spawned := registered.next (@Step.spawned _ _ 0 .refresh firstRefresh false rfl)
  refine ⟨_, ?_, rfl, (no_orphan_iff narrow_opens spawned).mpr (by decide)⟩
  exact Table.insert_self _ _ _

/-- A client disconnects when the first save of its refresh has taken effect. -/
theorem disconnect_orphans
    : ¬∀ (config : Config) (rows : Records) (trace : List Label) (state : State),
        (lifetime config).Reachable (.serving (.open config rows))
        → (process config rows).Execution trace state
        → NoOrphan config state := by
  intro attended
  have stored := firstRefresh_saving.next (@Step.stored _ _ 0 .refresh firstRefresh rfl)
  have orphaned := stored.next (@Step.orphaned _ _ 0 .refresh firstRefresh rfl)
  obtain ⟨held, queued, unattended⟩ :=
    (orderly_of_run narrow_opens orphaned).orphaned ⟨_, List.mem_singleton_self _, rfl⟩
  exact unattended (attended _ _ _ _ narrow_opens orphaned held (by rw [queued]; rfl))

end MoenotesAssets.Service.Handlers
