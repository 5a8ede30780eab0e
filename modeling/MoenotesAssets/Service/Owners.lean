import MoenotesAssets.Foundation.Ownership
import MoenotesAssets.Service.Consistency
import MoenotesAssets.Service.Handlers

/-! The invariant of the handlers: an id in use has one owner, a handler or a coordinator, and
stands in the table and in memory as that owner left it.
-/

namespace MoenotesAssets.Service.Handlers

open Foundation

variable {config : Config}

-----------------------------------------------------------------------------------------
-- Owners
-----------------------------------------------------------------------------------------

/-- Who holds the id of a record: a save that has not taken effect, a handler whose row is
stored, a dropped one, or a coordinator.
-/
inductive Owner where
  | saving (task : Task)
  | stored (task : Task)
  | lost (task : Task)
  | coordinator (progress : Progress)

def Owner.id : Owner → String
  | .saving task | .stored task | .lost task => task.id
  | .coordinator progress => progress.task.id

/-- What a handler owns. -/
def Handler.owner? (handler : Handler) : Option Owner :=
  match handler.phase with
  | .saving task | .abandoned task => some (.saving task)
  | .stored task | .resumed task | .registered task _ => some (.stored task)
  | .lost task => some (.lost task)
  | _ => none

/-- All owners, those of the handlers first. -/
def owners (handlers : List Handler) (coordinators : List Progress) : List Owner :=
  handlers.filterMap Handler.owner? ++ coordinators.map .coordinator

/-- A record as `new_task` creates it. -/
structure New (task : Task) : Prop where
  nonempty : task.id ≠ ""
  queued : task.state = .queued
  healthy : task.error = none
  empty : task.results = []
  accountable : Accountable task

/-- What an owner finds in the table and in memory under its id. -/
def Owner.Law (config : Config) : Owner → Option Task × Option Task → Prop
  | .saving task, places => New task ∧ places = (none, none)
  | .stored task, places | .lost task, places => New task ∧ places = (some task, none)
  | .coordinator progress, places =>
      progress.task.id ≠ ""
      ∧ (∀ row, places.1 = some row → RowLaw progress.task.id row)
      ∧ progress.Lawful Yields config.downloads places.1 places.2

/-- What stands under an id without an owner: at most a terminal row. -/
def Resting (id : String) (places : Option Task × Option Task) : Prop :=
  places.2 = none ∧ ∀ row, places.1 = some row → RowLaw id row ∧ row.state.terminal = true

/-- The two places of a record. -/
def State.places (state : State) (id : String) : Option Task × Option Task :=
  (state.rows[id]?, state.unpersisted[id]?)

/-- Every id in use has one owner, and the drafts are those of the two submissions. -/
structure Orderly (config : Config) (state : State) : Prop where
  drafted
    : ∀ handler ∈ state.handlers, ∀ draft,
        handler.phase.draft? = some draft → Submits config draft
  owned
    : Owned Owner.id (Owner.Law config) Resting state.places
        (owners state.handlers state.coordinators)

/-- A service opened on closed rows is orderly. -/
theorem Orderly.open {rows : Records} (storable : Storable rows) (closed : Closed rows)
    : Orderly config (.open config rows) where
  drafted := by simp [State.open]
  owned := .start fun _ => ⟨by simp [State.places, State.open],
    fun _ held => ⟨storable held, closed held⟩⟩

/-- The rows of an orderly service satisfy their law. -/
theorem Orderly.storable {state : State} (orderly : Orderly config state)
    : Storable state.rows := by
  intro id row held
  rcases orderly.owned.cases id with ⟨owner, -, rfl, law⟩ | rests
  · cases owner with
    | saving task =>
        obtain ⟨-, nothing⟩ := law
        cases held.symm.trans (congrArg Prod.fst nothing)
    | stored task | lost task =>
        obtain ⟨new, stands⟩ := law
        obtain rfl := Option.some.inj (held.symm.trans (congrArg Prod.fst stands))
        exact ⟨rfl, new.nonempty, new.accountable⟩
    | coordinator progress => exact law.2.1 row held
  · exact (rests.2 row held).1

-----------------------------------------------------------------------------------------
-- Lists of owners
-----------------------------------------------------------------------------------------

section Lists

variable {handlers : List Handler} {coordinators : List Progress} {index : Nat}

/-- The owner of a handler stands in front of the others, and so does that of any handler which
replaces it.
-/
theorem owners_handler {old : Handler} (found : handlers[index]? = some old)
    (coordinators : List Progress)
    : ∃ others,
        (owners handlers coordinators).Perm (old.owner?.toList ++ others)
        ∧ ∀ new : Handler,
            (owners (handlers.set index new) coordinators).Perm
              (new.owner?.toList ++ others) := by
  obtain ⟨others, here, there⟩ := Arena.filterMap_perm Handler.owner? found
  have front {cells : List Handler} {first : List Owner}
      (same : (cells.filterMap Handler.owner?).Perm (first ++ others))
      : (owners cells coordinators).Perm (first ++ (others ++ coordinators.map .coordinator)) := by
    rw [← List.append_assoc]
    exact same.append_right _
  exact ⟨_, front here, fun new => front (there new)⟩

/-- A coordinator that is spawned takes the place of the owner of its handler. -/
theorem owners_spawned {old : Handler} (found : handlers[index]? = some old)
    (coordinators : List Progress)
    : ∃ others,
        (owners handlers coordinators).Perm (old.owner?.toList ++ others)
        ∧ ∀ (new : Handler) (progress : Progress),
            new.owner? = none
            → (owners (handlers.set index new) (coordinators ++ [progress])).Perm
                (.coordinator progress :: others) := by
  obtain ⟨others, here, there⟩ := owners_handler found coordinators
  refine ⟨others, here, fun new progress nothing => ?_⟩
  have front := (there new).cons (.coordinator progress)
  rw [nothing] at front
  rw [owners, List.map_append, ← List.append_assoc]
  exact List.perm_append_comm.trans front

/-- A coordinator stands in front of the others, and so does any that replaces it. -/
theorem owners_coordinator {old : Progress} (handlers : List Handler)
    (found : coordinators[index]? = some old)
    : ∃ others,
        (owners handlers coordinators).Perm (.coordinator old :: others)
        ∧ ∀ new : Progress,
            (owners handlers (coordinators.set index new)).Perm (.coordinator new :: others) := by
  obtain ⟨others, here, there⟩ := Arena.set_perm found
  have front {cells : List Progress} {first : Progress} (same : cells.Perm (first :: others))
      : (owners handlers cells).Perm
          (.coordinator first
            :: (handlers.filterMap Handler.owner?
              ++ others.map .coordinator)) :=
    ((same.map Owner.coordinator).append_left _).trans List.perm_middle
  exact ⟨_, front here, fun new => front (there new)⟩

/-- A new handler that owns nothing changes no owner. -/
theorem owners_push {new : Handler} (nothing : new.owner? = none)
    : owners (handlers ++ [new]) coordinators = owners handlers coordinators := by
  rw [owners, List.filterMap_append, List.filterMap_cons_none nothing, List.filterMap_nil,
    List.append_nil, owners]

/-- A handler's owner is among all. -/
theorem mem_owners {handler : Handler} {owner : Owner} (member : handler ∈ handlers)
    (owns : handler.owner? = some owner)
    : owner ∈ owners handlers coordinators :=
  List.mem_append_left _ (List.mem_filterMap.mpr ⟨handler, member, owns⟩)

end Lists

-----------------------------------------------------------------------------------------
-- Steps of handlers
-----------------------------------------------------------------------------------------

section Steps

variable {state after : State} {index : Nat} {old new : Handler} {task : Task}

/-- A new record has the law of a row. -/
theorem New.row (new : New task) : RowLaw task.id task :=
  ⟨rfl, new.nonempty, new.accountable⟩

/-- What `new_task` creates is new. -/
theorem newTask_new {draft : Draft} (submits : Submits config draft) {id : String}
    (nonempty : id ≠ "") (created updated : Nat)
    : New (newTask draft id created updated) :=
  ⟨nonempty, rfl, rfl, rfl, newTask_accountable submits id created updated⟩

/-- A handler that is replaced leaves the service orderly when its owner passes on what it
holds.
-/
theorem Orderly.handle (orderly : Orderly config state)
    (found : state.handlers[index]? = some old)
    (handlers : after.handlers = state.handlers.set index new)
    (coordinators : after.coordinators = state.coordinators)
    (drafted : ∀ draft, new.phase.draft? = some draft → Submits config draft)
    (passes
      : ∀ others,
          (owners state.handlers state.coordinators).Perm (old.owner?.toList ++ others)
          → Owned Owner.id (Owner.Law config) Resting state.places (old.owner?.toList ++ others)
          → Owned Owner.id (Owner.Law config) Resting after.places
              (new.owner?.toList ++ others))
    : Orderly config after := by
  obtain ⟨others, here, there⟩ := owners_handler found state.coordinators
  constructor
  case drafted =>
    intro handler member
    rw [handlers] at member
    rcases List.mem_or_eq_of_mem_set member with member | rfl
    · exact orderly.drafted handler member
    · exact drafted
  case owned =>
    rw [handlers, coordinators]
    exact (passes others here (orderly.owned.perm here)).perm (there new).symm

/-- A save that takes effect: its owner finds its row instead of nothing. -/
theorem owned_insert {before owner : Owner} {others : List Owner}
    (owned : Owned Owner.id (Owner.Law config) Resting state.places (before :: others))
    (saving : before = .saving task) (owner' : owner = .stored task ∨ owner = .lost task)
    (rows : after.rows = state.rows.insert task.id task)
    (unpersisted : after.unpersisted = state.unpersisted)
    : Owned Owner.id (Owner.Law config) Resting after.places (owner :: others) := by
  subst saving
  obtain ⟨new, nothing⟩ := owned.lawful _ List.mem_cons_self
  have own : after.places task.id = (some task, none) := by
    rw [State.places, rows, unpersisted, Table.insert_self]
    exact congrArg (some task, ·) (congrArg Prod.snd nothing)
  have elsewhere : ∀ k, k ≠ task.id → after.places k = state.places k := by
    intro k apart
    rw [State.places, rows, unpersisted, Table.insert_other _ _ apart, State.places]
  rcases owner' with rfl | rfl
  · exact owned.exchange rfl elsewhere ⟨new, own⟩
  · exact owned.exchange rfl elsewhere ⟨new, own⟩

/-- A new handler refreshes, looks up a snapshot or is refused. -/
theorem entry_cases (request : Request)
    : request.entry = .started refreshDraft
      ∨ (∃ lookup, request.entry = .looking lookup)
      ∨ ∃ error, request.entry = .refused error := by
  cases request with
  | refresh => exact Or.inl rfl
  | archive => exact Or.inr (Or.inl ⟨_, rfl⟩)
  | exports request =>
      rw [Request.entry]
      split
      · exact Or.inr (Or.inl ⟨_, rfl⟩)
      · exact Or.inr (Or.inr ⟨_, rfl⟩)

/-- A new handler owns nothing. -/
theorem entry_owner? (request : Request)
    : ({ request, phase := request.entry } : Handler).owner? = none := by
  rcases entry_cases request with entry | ⟨_, entry⟩ | ⟨_, entry⟩ <;> rw [entry] <;> rfl

/-- A new handler has worked out the draft of a refresh or none. -/
theorem entry_draft? {request : Request} {draft : Draft}
    (drafted : request.entry.draft? = some draft)
    : Submits config draft := by
  rcases entry_cases request with entry | ⟨_, entry⟩ | ⟨_, entry⟩ <;> rw [entry] at drafted
  · obtain rfl := Option.some.inj drafted
    exact .refresh
  · cases drafted
  · cases drafted

/-- An arriving request leaves the service orderly. -/
theorem Orderly.began (orderly : Orderly config state) (request : Request)
    : Orderly config
        { state with handlers := state.handlers ++ [{ request, phase := request.entry }] } := by
  constructor
  case drafted =>
    intro handler member
    rcases List.mem_append.mp member with member | member
    · exact orderly.drafted handler member
    · obtain rfl := List.mem_singleton.mp member
      exact fun _ => entry_draft?
  case owned =>
    rw [owners_push (entry_owner? request)]
    exact orderly.owned

/-- A fresh id has no owner. -/
theorem State.Fresh.unowned {id : String} (fresh : state.Fresh id)
    : id ∉ (owners state.handlers state.coordinators).map Owner.id := by
  intro member
  obtain ⟨owner, held, rfl⟩ := List.mem_map.mp member
  rcases List.mem_append.mp held with held | held
  · obtain ⟨handler, inside, owns⟩ := List.mem_filterMap.mp held
    have handled := fresh.handled handler inside
    rw [Handler.owner?] at owns
    split at owns <;> rename_i at' <;> cases owns
    all_goals exact handled _ (congrArg Phase.task? at') rfl
  · obtain ⟨progress, inside, rfl⟩ := List.mem_map.mp held
    exact fresh.coordinated progress inside rfl

/-- A new record becomes the start of a coordinator. -/
theorem New.starting (new : New task) (cancelled : Bool)
    : Owner.Law config (.coordinator (.starting { task with state := .running } cancelled))
        (some task, none) := by
  have continues : task.Continues { task with state := .running } :=
    ⟨rfl, rfl, rfl, rfl, List.prefix_rfl⟩
  have open' : task.state.terminal = false := by rw [new.queued]; rfl
  refine ⟨new.nonempty, fun row held => ?_, ⟨rfl, ⟨task, rfl, open', continues⟩, ?_⟩, rfl,
    new.healthy, new.empty⟩
  · obtain rfl := Option.some.inj held
    exact new.row
  · exact new.accountable.of_same continues rfl

/-- A spawned coordinator takes the record over from its handler. -/
theorem Orderly.spawned {request : Request} {cancelled : Bool} (orderly : Orderly config state)
    (found : state.handlers[index]? = some { request, phase := .registered task cancelled })
    : Orderly config
        {
          state with
          handlers := state.handlers.set index { request, phase := .answered task }
          coordinators := state.coordinators
            ++ [.starting { task with state := .running } (cancelled || state.shutdown)]
        } := by
  obtain ⟨others, here, there⟩ := owners_spawned found state.coordinators
  have owned : Owned Owner.id (Owner.Law config) Resting state.places (.stored task :: others) :=
    orderly.owned.perm here
  obtain ⟨new, stands⟩ := owned.lawful _ List.mem_cons_self
  constructor
  case drafted =>
    intro handler member
    rcases List.mem_or_eq_of_mem_set member with member | rfl
    · exact orderly.drafted handler member
    · exact fun _ drafted => by cases drafted
  case owned =>
    have passed (cancelled : Bool)
        : Owned Owner.id (Owner.Law config) Resting state.places
            (.coordinator (.starting { task with state := .running } cancelled) :: others) :=
      owned.exchange rfl (fun _ _ => rfl) (stands ▸ new.starting cancelled)
    exact (passed _).perm (there { request, phase := .answered task } _ rfl).symm

/-- A step of a coordinator changes its own record only. -/
theorem Orderly.coordinate {progress next : Progress} {label : CoordinatorLabel} {write : Write}
    {cancellable : Prop} (orderly : Orderly config state)
    (found : state.coordinators[index]? = some progress)
    (taken : CoordinatorStep Yields config.downloads cancellable progress label write next)
    (rows : after.rows = write.rows state.rows)
    (unpersisted : after.unpersisted = write.unpersisted state.unpersisted)
    (handlers : after.handlers = state.handlers)
    (coordinators : after.coordinators = state.coordinators.set index next)
    : Orderly config after := by
  obtain ⟨others, here, there⟩ := owners_coordinator state.handlers found
  have owned := orderly.owned.perm here
  obtain ⟨nonempty, law, lawful⟩ := owned.lawful _ List.mem_cons_self
  have working := lawful.working taken.running
  have writes : ∀ task, write.task? = some task → task = progress.task :=
    fun _ written => taken.writes written
  have own : ∀ task, write.task? = some task → task.id = progress.task.id :=
    fun task written => by rw [writes task written]
  have same : next.task.id = progress.task.id := taken.continues.id
  have elsewhere : ∀ k, k ≠ progress.task.id → after.places k = state.places k := by
    intro k apart
    rw [State.places, rows, unpersisted, Write.rows_other _ own apart,
      Write.unpersisted_other _ own apart, State.places]
  have places : after.places progress.task.id
      = (write.storedRow (state.places progress.task.id).1,
          write.keptRecord (state.places progress.task.id).2) := by
    rw [State.places, rows, unpersisted, Write.rows_own _ own, Write.unpersisted_own _ own,
      State.places]
  constructor
  case drafted =>
    rw [handlers]
    exact orderly.drafted
  case owned =>
    rw [handlers, coordinators]
    have passed : Owned Owner.id (Owner.Law config) Resting after.places
        (.coordinator next :: others) := by
      refine owned.exchange same elsewhere ?_
      rw [Owner.id, same, places]
      refine ⟨same ▸ nonempty, fun row held => ?_,
        taken.lawful (fun _ _ yields => yields.key) lawful⟩
      rw [same]
      cases write with
      | row written =>
          obtain rfl := writes row held
          exact ⟨rfl, nonempty, working.accountable⟩
      | nothing | retained => exact law row held
    exact passed.perm (there next).symm

end Steps

/-- Every step of the service keeps it orderly. -/
theorem Orderly.step {state after : State} {label : Label}
    (taken : Step config state label after) (orderly : Orderly config state)
    : Orderly config after := by
  cases taken with
  | began => exact orderly.began _
  | @resolved index requested lookup snapshot catalog keys found =>
      let request : Request := .exports (archiveRequest snapshot keys)
      refine orderly.handle found rfl rfl (fun _ => @entry_draft? _ request _) ?_
      exact fun _ _ owned => (entry_owner? request).symm ▸ owned
  | selected found _ selects =>
      refine orderly.handle found rfl rfl (fun draft drafted => ?_) fun _ _ owned => owned
      obtain rfl := Option.some.inj drafted
      exact .exports selects
  | openChecked found | memoryChecked found =>
      refine orderly.handle found rfl rfl (fun draft drafted => ?_) fun _ _ owned => owned
      exact orderly.drafted _ (List.mem_of_getElem? found) draft drafted
  | looked found | refusedLookup found | refusedArchive found | refusedSelection found
  | refusedClosed found | refusedUnpersisted found | refusedFull found | resumed found
  | registered found | cancelled found | left found | abandoned found =>
      refine orderly.handle found rfl rfl (fun _ drafted => ?_) fun _ _ owned => owned
      cases drafted
  | @admitted index request draft id created updated found free fresh =>
      have submits := orderly.drafted _ (List.mem_of_getElem? found) draft rfl
      refine orderly.handle found rfl rfl (fun _ drafted => by cases drafted) ?_
      intro others here owned
      refine Owned.adopt owned (fun member => fresh.unowned ?_) ⟨?_, ?_⟩
      · exact (here.map Owner.id).mem_iff.mpr member
      · exact newTask_new submits fresh.nonempty created updated
      · exact Prod.ext fresh.stored fresh.kept
  | refusedSave found =>
      refine orderly.handle found rfl rfl (fun _ drafted => by cases drafted) ?_
      intro others _ owned
      obtain ⟨new, nothing⟩ := owned.lawful _ List.mem_cons_self
      refine Owned.release owned ⟨congrArg Prod.snd nothing, fun row held => ?_⟩
      cases (congrArg Prod.fst nothing).symm.trans held
  | stored found | landed found =>
      refine orderly.handle found rfl rfl (fun _ drafted => by cases drafted) ?_
      exact fun _ _ owned => owned_insert owned rfl (by simp) rfl rfl
  | orphaned found =>
      refine orderly.handle found rfl rfl (fun _ drafted => by cases drafted) ?_
      intro others _ owned
      have lawful := owned.lawful _ List.mem_cons_self
      exact Owned.exchange owned rfl (fun _ _ => rfl) lawful
  | spawned found => exact orderly.spawned found
  | coordinate found taken => exact orderly.coordinate found taken rfl rfl rfl rfl
  | shutdown => exact ⟨orderly.drafted, orderly.owned⟩

-----------------------------------------------------------------------------------------
-- Lives
-----------------------------------------------------------------------------------------

/-- Lawful rows in every life, and an orderly service while one is serving. -/
def Life.Lawful (config : Config) : Life → Prop
  | .stopped rows => Storable rows
  | .opening clock cursor => ∃ origin, Storable origin ∧ Recovering origin clock cursor
  | .serving state => Orderly config state

/-- Every step of a life is lawful. -/
theorem Life.Lawful.step {life after : Life} {label : LifeLabel}
    (taken : LifeStep config life label after) (lawful : life.Lawful config)
    : after.Lawful config := by
  cases taken with
  | @opens rows clock => exact ⟨rows, lawful, [], KeysetScan.Scanned.start⟩
  | scans taken =>
      obtain ⟨origin, storable, recovering⟩ := lawful
      exact ⟨origin, storable, recovering.step storable taken⟩
  | opened done =>
      obtain ⟨origin, storable, recovering⟩ := lawful
      have rows : Storable _ := recovering.storable storable
      obtain ⟨visited, scanned⟩ := recovering
      exact Orderly.open rows (Scanned.closed storable scanned done)
  | diesOpening =>
      obtain ⟨origin, storable, recovering⟩ := lawful
      exact recovering.storable storable
  | diesServing => exact Orderly.storable lawful
  | serves taken => exact Orderly.step taken lawful

/-- A service that serves is orderly in every life. -/
theorem orderly_of_reachable {state : State}
    (reached : (lifetime config).Reachable (.serving state))
    : Orderly config state := by
  refine reached.invariant (P := Life.Lawful config) ?_ fun taken lawful => lawful.step taken
  rintro life rfl
  exact fun held => by simp at held

end MoenotesAssets.Service.Handlers
