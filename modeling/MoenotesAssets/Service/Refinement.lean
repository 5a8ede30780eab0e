import MoenotesAssets.Service.Owners

/-! The handlers refine the calls of `new_task`: a run of one life, await by await, is a run of the
task service in which a save, the registration of its token and the spawn of its coordinator
are one step. A row is shown there once its coordinator is spawned.
-/

namespace MoenotesAssets.Service.Handlers

open Foundation

variable {config : Config}

-----------------------------------------------------------------------------------------
-- The relation
-----------------------------------------------------------------------------------------

/-- The arguments of `new_task` that a record was made of. -/
def draftOf (task : Task) : Draft :=
  { kind := task.kind, snapshot := task.snapshot, total := task.total, keys := task.keys }

/-- The call of a handler that is in `new_task` or beyond. -/
def Handler.call? (handler : Handler) : Option Call :=
  match handler.phase with
  | .started draft => some { draft, phase := .started }
  | .opened draft => some { draft, phase := .opened }
  | .cleared draft => some { draft, phase := .cleared }
  | .saving task | .stored task | .resumed task | .registered task _ =>
      some { draft := draftOf task, phase := .saving task }
  | .answered task => some { draft := draftOf task, phase := .answered task }
  | .abandoned task => some { draft := draftOf task, phase := .abandoned task }
  | .lost task => some { draft := draftOf task, phase := .landed task }
  | .looking _ | .refused _ | .left => none

/-- (Matched handlers calls) holds when the calls are those of the handlers, in any order, and
some that were refused.
-/
def Matched (handlers : List Handler) (calls : List Call) : Prop :=
  ∃ refused,
    calls.Perm (handlers.filterMap Handler.call? ++ refused)
    ∧ ∀ call ∈ refused, ∃ error, call.phase = .refused error

/-- The row of an owner is not shown while a handler has to spawn its coordinator. -/
def Shown : Owner → Option Task × Option Task → Prop
  | .stored _, rows => rows.2 = none
  | _, rows => rows.1 = rows.2

/-- (Refines state image) holds when a service of handlers looks like a service of calls. -/
structure Refines (state : State) (image : Service.State) : Prop where
  shown
    : Owned Owner.id Shown (fun _ rows => rows.1 = rows.2)
        (fun id => (state.rows[id]?, image.rows[id]?))
        (owners state.handlers state.coordinators)
  unpersisted : image.unpersisted = state.unpersisted
  tokens
    : ∀ progress ∈ state.coordinators,
        progress.task.id ∈ state.cancellations → progress.task.id ∈ image.cancellations
  permits : image.permits = state.permits
  shutdown : image.shutdown = state.shutdown
  calls : Matched state.handlers image.calls
  coordinators : image.coordinators = state.coordinators

-----------------------------------------------------------------------------------------
-- Calls and handlers
-----------------------------------------------------------------------------------------

section Matched

variable {handlers : List Handler} {calls : List Call} {index : Nat} {old new : Handler}

/-- A handler that arrives and has not called `new_task`. -/
theorem Matched.push (matched : Matched handlers calls) (waits : new.call? = none)
    : Matched (handlers ++ [new]) calls := by
  rw [Matched, List.filterMap_append, List.filterMap_cons_none waits, List.filterMap_nil,
    List.append_nil]
  exact matched

/-- A handler that arrives and calls `new_task` at once. -/
theorem Matched.arrives {call : Call} (matched : Matched handlers calls)
    (begins : new.call? = some call)
    : Matched (handlers ++ [new]) (calls ++ [call]) := by
  obtain ⟨refused, perm, errors⟩ := matched
  refine ⟨refused, ?_, errors⟩
  rw [List.filterMap_append, List.filterMap_cons_some begins, List.filterMap_nil]
  have moved : (refused ++ [call]).Perm ([call] ++ refused) := List.perm_append_comm
  have whole := (perm.append_right [call]).trans (.of_eq (List.append_assoc _ _ _))
  exact whole.trans ((moved.append_left _).trans (.of_eq (List.append_assoc _ _ _).symm))

/-- A handler that keeps its call. -/
theorem Matched.keeps (matched : Matched handlers calls) (found : handlers[index]? = some old)
    (same : new.call? = old.call?)
    : Matched (handlers.set index new) calls := by
  obtain ⟨refused, perm, errors⟩ := matched
  obtain ⟨others, here, there⟩ := Arena.filterMap_perm Handler.call? found
  have after := there new
  rw [same] at after
  exact ⟨refused, perm.trans ((here.trans after.symm).append_right refused), errors⟩

/-- A handler that calls `new_task`. -/
theorem Matched.begins {call : Call} (matched : Matched handlers calls)
    (found : handlers[index]? = some old) (before : old.call? = none)
    (begins : new.call? = some call)
    : Matched (handlers.set index new) (calls ++ [call]) := by
  obtain ⟨refused, perm, errors⟩ := matched
  obtain ⟨others, here, there⟩ := Arena.filterMap_perm Handler.call? found
  have after := there new
  rw [before] at here
  rw [begins] at after
  have whole := (perm.trans (here.append_right refused)).cons call
  exact ⟨refused, List.perm_append_comm.trans (whole.trans (after.append_right refused).symm),
    errors⟩

/-- The call of a handler, which goes on as the handler does or is refused with it. -/
theorem Matched.call {call : Call} (matched : Matched handlers calls)
    (found : handlers[index]? = some old) (owns : old.call? = some call)
    : ∃ i,
        calls[i]? = some call
        ∧ (∀ {new : Handler} {next : Call},
            new.call? = some next → Matched (handlers.set index new) (calls.set i next))
        ∧ ∀ {new : Handler} {next : Call} {error : String},
            new.call? = none
            → next.phase = .refused error
            → Matched (handlers.set index new) (calls.set i next) := by
  obtain ⟨refused, perm, errors⟩ := matched
  obtain ⟨others, here, there⟩ := Arena.filterMap_perm Handler.call? found
  rw [owns] at here
  have whole := perm.trans (here.append_right refused)
  obtain ⟨i, held⟩ := List.mem_iff_getElem?.mp (whole.mem_iff.mpr List.mem_cons_self)
  obtain ⟨rest, place, replaced⟩ := Arena.set_perm held
  have same : rest.Perm (others ++ refused) := (place.symm.trans whole).cons_inv
  refine ⟨i, held, fun {new next} goes => ?_, fun {new next error} stops refuses => ?_⟩
  · have after := there new
    rw [goes] at after
    refine ⟨refused, ?_, errors⟩
    exact (replaced next).trans ((same.cons next).trans (after.append_right refused).symm)
  · have after := there new
    rw [stops] at after
    refine ⟨next :: refused, ?_, List.forall_mem_cons.mpr ⟨⟨error, refuses⟩, errors⟩⟩
    refine (replaced next).trans ((same.cons next).trans ?_)
    exact List.perm_middle.symm.trans (after.append_right _).symm

end Matched

-----------------------------------------------------------------------------------------
-- Steps
-----------------------------------------------------------------------------------------

section Steps

variable {rows : Records} {state after : State} {image next : Service.State} {index : Nat}
variable {old new : Handler}

/-- (Follows config rows image after) holds when a service of calls can go on from `image` to one
that looks like `after`.
-/
def Follows (config : Config) (rows : Records) (image : Service.State) (after : State) : Prop :=
  ∃ trace next, (Service.process config Yields rows).Path image trace next ∧ Refines after next

/-- It need not move. -/
theorem Follows.stay (refines : Refines after image) : Follows config rows image after :=
  ⟨[], image, .here, refines⟩

/-- It takes one step and goes on. -/
theorem Follows.step {label : Service.Label} (taken : Service.Step config Yields image label next)
    (follows : Follows config rows next after)
    : Follows config rows image after := by
  obtain ⟨trace, last, path, refines⟩ := follows
  exact ⟨_, last, (System.Path.here.next taken).append path, refines⟩

/-- The rows that are shown after a handler has been replaced. -/
theorem Refines.passes {stored shown : Records} (refines : Refines state image)
    (found : state.handlers[index]? = some old)
    (passes
      : ∀ others,
          (owners state.handlers state.coordinators).Perm (old.owner?.toList ++ others)
          → Owned Owner.id Shown (fun _ rows => rows.1 = rows.2)
              (fun id => (state.rows[id]?, image.rows[id]?)) (old.owner?.toList ++ others)
          → Owned Owner.id Shown (fun _ rows => rows.1 = rows.2)
              (fun id => (stored[id]?, shown[id]?)) (new.owner?.toList ++ others))
    : Owned Owner.id Shown (fun _ rows => rows.1 = rows.2) (fun id => (stored[id]?, shown[id]?))
        (owners (state.handlers.set index new) state.coordinators) := by
  obtain ⟨others, here, there⟩ := owners_handler found state.coordinators
  exact (passes others here (refines.shown.perm here)).perm (there new).symm

/-- A fresh id is fresh for the calls. -/
theorem Refines.fresh {id : String} (refines : Refines state image) (fresh : state.Fresh id)
    : image.Fresh id where
  nonempty := fresh.nonempty
  stored := (refines.shown.resting id fresh.unowned).symm.trans fresh.stored
  kept := refines.unpersisted ▸ fresh.kept
  called := by
    intro call member owned
    obtain ⟨refused, perm, errors⟩ := refines.calls
    rcases List.mem_append.mp (perm.mem_iff.mp member) with member | member
    · obtain ⟨handler, inside, calls⟩ := List.mem_filterMap.mp member
      obtain ⟨request, phase⟩ := handler
      have handled := fresh.handled _ inside
      cases phase with
      | saving | stored | resumed | registered | abandoned =>
          obtain rfl := Option.some.inj calls
          exact handled _ rfl (Option.some.inj owned)
      | started | opened | cleared | answered | lost =>
          obtain rfl := Option.some.inj calls
          cases owned
      | looking | refused | left => cases calls
    · obtain ⟨error, phase⟩ := errors call member
      rw [Call.owned?, phase] at owned
      cases owned
  coordinated := refines.coordinators ▸ fresh.coordinated

/-- A handler that goes on and owns what it owned. -/
theorem Refines.passes_same (refines : Refines state image)
    (found : state.handlers[index]? = some old) (same : new.owner? = old.owner?)
    : Owned Owner.id Shown (fun _ rows => rows.1 = rows.2)
        (fun id => (state.rows[id]?, image.rows[id]?))
        (owners (state.handlers.set index new) state.coordinators) :=
  refines.passes found fun _ _ owned => same ▸ owned

/-- A request for an export has not called `new_task`. -/
theorem exports_call? (request : ExportRequest)
    : ({ request := .exports request, phase := (Request.exports request).entry } : Handler).call?
      = none := by
  rw [Handler.call?, Request.entry]
  by_cases valid : request.keyPrefix.isSome != !request.keys.isEmpty <;> simp [valid]

/-- A save that has not taken effect is not shown. -/
theorem Refines.unsaved {task : Task} (refines : Refines state image)
    (orderly : Orderly config state)
    (member : .saving task ∈ owners state.handlers state.coordinators)
    : image.rows[task.id]? = none := by
  have same : state.rows[task.id]? = image.rows[task.id]? := refines.shown.lawful _ member
  obtain ⟨-, nothing⟩ := orderly.owned.lawful _ member
  exact same.symm.trans (congrArg Prod.fst nothing)

/-- A save that takes effect, for both or for the handlers alone. -/
theorem shown_insert {stored shown stored' shown' : Records} {task : Task}
    {before owner : Owner} {others : List Owner}
    (owned
      : Owned Owner.id Shown (fun _ rows => rows.1 = rows.2)
          (fun id => (stored[id]?, shown[id]?)) (before :: others))
    (own : before.id = task.id) (same : owner.id = task.id)
    (stores : stored' = stored ∨ stored' = stored.insert task.id task)
    (shows' : shown' = shown ∨ shown' = shown.insert task.id task)
    (law : Shown owner (stored'[task.id]?, shown'[task.id]?))
    : Owned Owner.id Shown (fun _ rows => rows.1 = rows.2)
        (fun id => (stored'[id]?, shown'[id]?)) (owner :: others) := by
  have elsewhere {rows rows' : Records} (kept : rows' = rows ∨ rows' = rows.insert task.id task)
      {id : String} (apart : id ≠ task.id)
      : rows'[id]? = rows[id]? := by
    rcases kept with rfl | rfl
    · rfl
    · exact Table.insert_other _ _ apart
  refine owned.exchange (same.trans own.symm) (fun id apart => ?_) (same ▸ law)
  rw [own] at apart
  exact Prod.ext (elsewhere stores apart) (elsewhere shows' apart)

/-- A spawned coordinator: its call saves the record, registers the token and spawns it; a token
that was cancelled before is cancelled after that.
-/
theorem Refines.spawned {request : Request} {task : Task} {cancelled : Bool}
    (refines : Refines state image) (orderly : Orderly config state)
    (found : state.handlers[index]? = some { request, phase := .registered task cancelled })
    : Follows config rows image
        {
          state with
          handlers := state.handlers.set index { request, phase := .answered task }
          coordinators := state.coordinators
            ++ [.starting { task with state := .running } (cancelled || state.shutdown)]
        } := by
  have member : .stored task ∈ owners state.handlers state.coordinators :=
    mem_owners (List.mem_of_getElem? found) rfl
  obtain ⟨-, places⟩ := orderly.owned.lawful _ member
  obtain ⟨others, here, there⟩ := owners_spawned found state.coordinators
  obtain ⟨i, held, goes, -⟩ := refines.calls.call found rfl
  let starting (cancelled : Bool) : Progress :=
    .starting { task with state := .running } cancelled
  let accepted (coordinators : List Progress) : Service.State :=
    {
      image with
      rows := image.rows.insert task.id task
      cancellations := image.cancellations.insert task.id
      calls := image.calls.set i { draft := draftOf task, phase := .answered task }
      coordinators
    }
  have taken : Service.Step config Yields image (.accepted i)
      (accepted (image.coordinators ++ [starting image.shutdown])) :=
    .accepted held
  have cancels
      : Service.Step config Yields (accepted (image.coordinators ++ [starting image.shutdown]))
          (.coordinate image.coordinators.length .cancel)
          (accepted (image.coordinators ++ [starting true])) := by
    have replaced
        : (image.coordinators ++ [starting image.shutdown]).set image.coordinators.length
            (starting true)
          = image.coordinators ++ [starting true] := by
      simp
    rw [← replaced]
    exact .coordinate (Arena.getElem?_push_self _ _)
      (.cancelStarting (Or.inr Std.TreeSet.mem_insert_self))
  have follows (cancelled : Bool)
      : Refines
          {
            state with
            handlers := state.handlers.set index { request, phase := .answered task }
            coordinators := state.coordinators ++ [starting cancelled]
          }
          (accepted (image.coordinators ++ [starting cancelled])) := by
    have passed
        : Owned Owner.id Shown (fun _ rows => rows.1 = rows.2)
            (fun id => (state.rows[id]?, (image.rows.insert task.id task)[id]?))
            (.coordinator (starting cancelled) :: others) :=
      shown_insert (refines.shown.perm here) rfl rfl (Or.inl rfl) (Or.inr rfl)
        ((congrArg Prod.fst places).trans (Table.insert_self _ _ _).symm)
    constructor
    case shown => exact passed.perm (there { request, phase := .answered task } _ rfl).symm
    case unpersisted => exact refines.unpersisted
    case tokens =>
      intro progress inside token
      rcases List.mem_append.mp inside with inside | inside
      · exact Std.TreeSet.mem_insert.mpr (Or.inr (refines.tokens progress inside token))
      · obtain rfl := List.mem_singleton.mp inside
        exact Std.TreeSet.mem_insert_self
    case permits => exact refines.permits
    case shutdown => exact refines.shutdown
    case calls => exact goes rfl
    case coordinators => exact congrArg (· ++ [starting cancelled]) refines.coordinators
  cases cancelled with
  | false => exact .step taken (.stay (refines.shutdown ▸ follows state.shutdown))
  | true => exact .step taken (.step cancels (.stay (follows true)))

/-- A request that arrives: a refresh calls `new_task` at once. -/
theorem Refines.began (refines : Refines state image) (request : Request)
    : Follows config rows image
        { state with handlers := state.handlers ++ [{ request, phase := request.entry }] } := by
  have shown := refines.shown
  rw [← owners_push (entry_owner? request)] at shown
  cases request with
  | refresh =>
      exact .step (.begin .refresh)
        (.stay { refines with shown, calls := refines.calls.arrives rfl })
  | exports request =>
      exact .stay { refines with shown, calls := refines.calls.push (exports_call? request) }
  | archive => exact .stay { refines with shown, calls := refines.calls.push rfl }

/-- A handler that is given a permit and an id. -/
theorem Refines.admitted {request : Request} {draft : Draft} {id : String} {created updated : Nat}
    (refines : Refines state image)
    (found : state.handlers[index]? = some { request, phase := .cleared draft })
    (free : 0 < state.permits) (fresh : state.Fresh id)
    : Follows config rows image
        {
          state with
          permits := state.permits - 1
          handlers := state.handlers.set index
            { request, phase := .saving (newTask draft id created updated) }
        } := by
  obtain ⟨i, held, goes, -⟩ := refines.calls.call found rfl
  have shown := refines.shown.resting id fresh.unowned
  exact .step
    (@Service.Step.admitted _ _ _ i draft id created updated held (refines.permits ▸ free)
      (refines.fresh fresh))
    (.stay
      {
        refines with
        shown := refines.passes found fun others here owned =>
          Owned.adopt owned
            (fun member => fresh.unowned ((here.map Owner.id).mem_iff.mpr member)) shown
        permits := congrArg (· - 1) refines.permits
        calls := goes rfl
      })

/-- A save that has taken effect is shown later. -/
theorem Refines.stored {request : Request} {task : Task} (refines : Refines state image)
    (orderly : Orderly config state)
    (found : state.handlers[index]? = some { request, phase := .saving task })
    : Follows config rows image
        {
          state with
          rows := state.rows.insert task.id task
          handlers := state.handlers.set index { request, phase := .stored task }
        } := by
  have member : .saving task ∈ owners state.handlers state.coordinators :=
    mem_owners (List.mem_of_getElem? found) rfl
  exact .stay
    {
      refines with
      shown := refines.passes found fun others _ owned =>
        shown_insert owned rfl rfl (Or.inr rfl) (Or.inl rfl) (refines.unsaved orderly member)
      calls := refines.calls.keeps found rfl
    }

/-- A save that failed. -/
theorem Refines.refusedSave {request : Request} {task : Task} {error : String}
    (refines : Refines state image)
    (found : state.handlers[index]? = some { request, phase := .saving task })
    : Follows config rows image
        {
          state with
          permits := state.permits + 1
          handlers := state.handlers.set index { request, phase := .refused error }
        } := by
  obtain ⟨i, held, -, refuses⟩ := refines.calls.call found rfl
  exact .step (@Service.Step.refusedSave _ _ _ i _ _ error held)
    (.stay
      {
        refines with
        shown := refines.passes found fun others _ owned =>
          Owned.release owned (owned.lawful _ List.mem_cons_self)
        permits := congrArg (· + 1) refines.permits
        calls := refuses rfl rfl
      })

/-- A token that is registered: no coordinator has its id yet. -/
theorem Refines.registered {request : Request} {task : Task} (refines : Refines state image)
    (found : state.handlers[index]? = some { request, phase := .resumed task })
    : Follows config rows image
        {
          state with
          cancellations := state.cancellations.insert task.id
          handlers := state.handlers.set index { request, phase := .registered task false }
        } := by
  have member : .stored task ∈ owners state.handlers state.coordinators :=
    mem_owners (List.mem_of_getElem? found) rfl
  refine .stay
    {
      refines with
      shown := refines.passes_same found rfl
      calls := refines.calls.keeps found rfl
      tokens := fun progress inside token => ?_
    }
  rcases Std.TreeSet.mem_insert.mp token with same | token
  · have coordinator : .coordinator progress ∈ owners state.handlers state.coordinators :=
      List.mem_append_right _ (List.mem_map_of_mem inside)
    cases refines.shown.sole member coordinator (Std.LawfulEqOrd.compare_eq_iff_eq.mp same)
  · exact refines.tokens progress inside token

/-- A handler that is dropped when its save has taken effect: its call is dropped, and then the save
lands.
-/
theorem Refines.orphaned {request : Request} {task : Task} (refines : Refines state image)
    (orderly : Orderly config state)
    (found : state.handlers[index]? = some { request, phase := .stored task })
    : Follows config rows image
        {
          state with
          permits := state.permits + 1
          handlers := state.handlers.set index { request, phase := .lost task }
        } := by
  have member : .stored task ∈ owners state.handlers state.coordinators :=
    mem_owners (List.mem_of_getElem? found) rfl
  obtain ⟨-, places⟩ := orderly.owned.lawful _ member
  obtain ⟨i, held, goes, -⟩ := refines.calls.call found rfl
  refine .step (.abandoned held) (.step (.landed (Arena.getElem?_set_of held)) (.stay ?_))
  exact
    {
      refines with
      shown := refines.passes found fun others _ owned =>
        shown_insert owned rfl rfl (Or.inl rfl) (Or.inr rfl)
          ((congrArg Prod.fst places).trans (Table.insert_self _ _ _).symm)
      permits := congrArg (· + 1) refines.permits
      calls := by
        rw [List.set_set]
        exact goes rfl
    }

/-- The save of a dropped handler lands. -/
theorem Refines.landed {request : Request} {task : Task} (refines : Refines state image)
    (found : state.handlers[index]? = some { request, phase := .abandoned task })
    : Follows config rows image
        {
          state with
          rows := state.rows.insert task.id task
          handlers := state.handlers.set index { request, phase := .lost task }
        } := by
  obtain ⟨i, held, goes, -⟩ := refines.calls.call found rfl
  exact .step (.landed held)
    (.stay
      {
        refines with
        shown := refines.passes found fun others _ owned =>
          shown_insert owned rfl rfl (Or.inr rfl) (Or.inr rfl)
            ((Table.insert_self _ _ _).trans (Table.insert_self _ _ _).symm)
        calls := goes rfl
      })

/-- A step of a coordinator. -/
theorem Refines.coordinated {progress next : Progress} {label : CoordinatorLabel} {write : Write}
    (refines : Refines state image) (found : state.coordinators[index]? = some progress)
    (taken
      : CoordinatorStep Yields config.downloads
          (state.shutdown = true ∨ progress.task.id ∈ state.cancellations)
          progress label write next)
    : Follows config rows image
        {
          state with
          rows := write.rows state.rows
          unpersisted := write.unpersisted state.unpersisted
          cancellations :=
            if next.isEnded then state.cancellations.erase progress.task.id
            else state.cancellations
          permits := if next.isEnded then state.permits + 1 else state.permits
          coordinators := state.coordinators.set index next
        } := by
  have held : image.coordinators[index]? = some progress := refines.coordinators ▸ found
  have inside := List.mem_of_getElem? found
  obtain ⟨others, here, there⟩ := owners_coordinator state.handlers found
  have owned := refines.shown.perm here
  have own : ∀ task, write.task? = some task → task.id = progress.task.id :=
    fun task written => by rw [taken.writes written]
  have same : next.task.id = progress.task.id := taken.continues.id
  have allowed : state.shutdown = true ∨ progress.task.id ∈ state.cancellations
      → image.shutdown = true ∨ progress.task.id ∈ image.cancellations :=
    Or.imp refines.shutdown.trans (refines.tokens progress inside)
  refine .step (.coordinate held (taken.mono allowed)) (.stay ?_)
  constructor
  case shown =>
    have passed
        : Owned Owner.id Shown (fun _ rows => rows.1 = rows.2)
            (fun id => ((write.rows state.rows)[id]?, (write.rows image.rows)[id]?))
            (.coordinator next :: others) := by
      refine owned.exchange same (fun id apart => ?_) ?_
      · exact Prod.ext (Write.rows_other _ own apart) (Write.rows_other _ own apart)
      · have equal : state.rows[progress.task.id]? = image.rows[progress.task.id]? :=
          owned.lawful _ List.mem_cons_self
        change (write.rows state.rows)[next.task.id]? = (write.rows image.rows)[next.task.id]?
        rw [same, Write.rows_own _ own, Write.rows_own _ own, equal]
    exact passed.perm (there next).symm
  case unpersisted => exact congrArg write.unpersisted refines.unpersisted
  case tokens =>
    intro other member token
    have known : other.task.id ∈ state.cancellations → other.task.id ∈ image.cancellations := by
      rcases List.mem_or_eq_of_mem_set member with member | rfl
      · exact refines.tokens other member
      · rw [same]
        exact refines.tokens progress inside
    cases ended : next.isEnded with
    | true =>
        simp only [ended, if_true, Std.TreeSet.mem_erase] at token ⊢
        exact token.imp_right known
    | false =>
        simp only [ended, Bool.false_eq_true, if_false] at token ⊢
        exact known token
  case permits => simp only [refines.permits]
  case shutdown => exact refines.shutdown
  case calls => exact refines.calls
  case coordinators => exact congrArg (·.set index next) refines.coordinators

/-- A step of the handlers is none, one or two of the calls. -/
theorem Refines.step {label : Label} (taken : Step config state label after)
    (orderly : Orderly config state) (refines : Refines state image)
    : Follows config rows image after := by
  cases taken with
  | @began request => exact refines.began request
  | looked found | refusedLookup found | refusedArchive found | refusedSelection found
  | left found | resumed found | cancelled found =>
      exact .stay
        {
          refines with
          shown := refines.passes_same found rfl
          calls := refines.calls.keeps found rfl
        }
  | resolved found =>
      exact .stay
        {
          refines with
          shown := refines.passes_same found (entry_owner? _)
          calls := refines.calls.keeps found (exports_call? _)
        }
  | selected found _ selects =>
      exact .step (.begin (.exports selects))
        (.stay
          {
            refines with
            shown := refines.passes_same found rfl
            calls := refines.calls.begins found rfl rfl
          })
  | openChecked found running =>
      obtain ⟨i, held, goes, -⟩ := refines.calls.call found rfl
      exact .step (.openChecked held (refines.shutdown.trans running))
        (.stay { refines with shown := refines.passes_same found rfl, calls := goes rfl })
  | refusedClosed found closed =>
      obtain ⟨i, held, -, refuses⟩ := refines.calls.call found rfl
      exact .step (.refusedClosed held (refines.shutdown.trans closed))
        (.stay { refines with shown := refines.passes_same found rfl, calls := refuses rfl rfl })
  | memoryChecked found clear =>
      obtain ⟨i, held, goes, -⟩ := refines.calls.call found rfl
      exact .step (.memoryChecked held (refines.unpersisted ▸ clear))
        (.stay { refines with shown := refines.passes_same found rfl, calls := goes rfl })
  | refusedUnpersisted found retained =>
      obtain ⟨i, held, -, refuses⟩ := refines.calls.call found rfl
      exact .step (.refusedUnpersisted held (refines.unpersisted ▸ retained))
        (.stay { refines with shown := refines.passes_same found rfl, calls := refuses rfl rfl })
  | refusedFull found full =>
      obtain ⟨i, held, -, refuses⟩ := refines.calls.call found rfl
      exact .step (.refusedFull held (refines.permits.trans full))
        (.stay { refines with shown := refines.passes_same found rfl, calls := refuses rfl rfl })
  | admitted found free fresh => exact refines.admitted found free fresh
  | stored found => exact refines.stored orderly found
  | refusedSave found => exact refines.refusedSave found
  | registered found => exact refines.registered found
  | spawned found => exact refines.spawned orderly found
  | abandoned found =>
      obtain ⟨i, held, goes, -⟩ := refines.calls.call found rfl
      exact .step (.abandoned held)
        (.stay
          {
            refines with
            shown := refines.passes_same found rfl
            permits := congrArg (· + 1) refines.permits
            calls := goes rfl
          })
  | orphaned found => exact refines.orphaned orderly found
  | landed found => exact refines.landed found
  | coordinate found taken => exact refines.coordinated found taken
  | shutdown => exact .step .shutdown (.stay { refines with shutdown := rfl })

end Steps

-----------------------------------------------------------------------------------------
-- Runs
-----------------------------------------------------------------------------------------

/-- A service of handlers that is opened looks like a service of calls that is. -/
theorem Refines.open (config : Config) (rows : Records)
    : Refines (.open config rows) (.open config rows) where
  shown := .start fun _ => rfl
  unpersisted := rfl
  tokens := by simp [State.open]
  permits := rfl
  shutdown := rfl
  calls := ⟨[], .nil, by simp⟩
  coordinators := rfl

/-- Every run of the handlers is a run of the calls: the service they have reached looks like one
that the task service reaches on the same rows.
-/
theorem handlers_refine_tasks {rows : Records} {trace : List Label} {state : State}
    (opened : (lifetime config).Reachable (.serving (.open config rows)))
    (run : (process config rows).Execution trace state)
    : ∃ image, (Service.process config Yields rows).Reachable image ∧ Refines state image := by
  obtain ⟨start, rfl, path⟩ := run
  obtain ⟨trace, image, path, refines⟩ :=
    path.simulated (P := Orderly config) (R := Refines)
      (fun taken orderly => Orderly.step taken orderly)
      (fun taken orderly refines => refines.step taken orderly) (orderly_of_reachable opened)
      (Refines.open config rows)
  exact ⟨image, ⟨trace, _, rfl, path⟩, refines⟩

/-- What is shown is in the table. -/
theorem Refines.row {state : State} {image : Service.State} {id : String} {row : Task}
    (refines : Refines state image) (held : image.rows[id]? = some row)
    : state.rows[id]? = some row := by
  rcases refines.shown.cases id with ⟨owner, -, rfl, law⟩ | same
  · cases owner with
    | stored => cases held.symm.trans law
    | saving | lost | coordinator => exact Eq.trans law held
  · exact Eq.trans same held

/-- A result on the calls of `new_task` carried over: the record of an answered handler is in the
table, at that version or a later one.
-/
theorem answered_stored {rows : Records} {trace : List Label} {state : State} {handler : Handler}
    {task : Task} (opened : (lifetime config).Reachable (.serving (.open config rows)))
    (run : (process config rows).Execution trace state) (member : handler ∈ state.handlers)
    (answered : handler.phase = .answered task)
    : ∃ row, state.rows[task.id]? = some row ∧ task.Continues row := by
  obtain ⟨image, reached, refines⟩ := handlers_refine_tasks opened run
  have storable : Storable rows := Orderly.storable (orderly_of_reachable opened)
  have consistent : Consistent config Yields image := by
    refine reached.invariant (P := Consistent config Yields) ?_
      fun taken consistent => consistent.step (fun _ _ yields => yields.key) taken
    rintro _ rfl
    exact Consistent.open storable
  obtain ⟨refused, perm, -⟩ := refines.calls
  have calls : handler.call? = some { draft := draftOf task, phase := .answered task } := by
    rw [Handler.call?, answered]
  have inside := List.mem_append_left refused (List.mem_filterMap.mpr ⟨handler, member, calls⟩)
  obtain ⟨i, held⟩ := List.mem_iff_getElem?.mp (perm.mem_iff.mpr inside)
  obtain ⟨-, -, row, stored, continues⟩ := consistent.calls held
  exact ⟨row, refines.row stored, continues⟩

end MoenotesAssets.Service.Handlers
