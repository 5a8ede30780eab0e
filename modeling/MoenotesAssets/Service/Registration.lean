import MoenotesAssets.Service.Attendance

/-! What the service holds for the tasks under way: a queue permit for each handler in `new_task`
and for each coordinator, and a token in `cancellations` for each task that was registered
and has not ended. `App::stop` waits until no token is left.
-/

namespace MoenotesAssets.Service

open Foundation

-----------------------------------------------------------------------------------------
-- Permits and tokens
-----------------------------------------------------------------------------------------

/-- The queue permit of a coordinator, which it drops when it ends. -/
def Progress.permits (progress : Progress) : Nat := if !progress.isEnded then 1 else 0

/-- The token of a coordinator, which it removes when it ends. -/
def Progress.token? (progress : Progress) : Option String :=
  if progress.isEnded then none else some progress.task.id

namespace Handlers

variable {config : Config}

/-- The queue permit of a handler, which it holds until it passes it on or is dropped. -/
def Handler.permits (handler : Handler) : Nat :=
  if handler.phase.executing?.isSome then 1 else 0

/-- The token that a handler has registered and not passed on. -/
def Handler.token? (handler : Handler) : Option String :=
  match handler.phase with
  | .registered task _ => some task.id
  | _ => none

/-- The ids of all tokens, those of the handlers first. -/
def heldTokens (handlers : List Handler) (coordinators : List Progress) : List String :=
  handlers.filterMap Handler.token? ++ coordinators.filterMap Progress.token?

/-- The permits that the handlers and the coordinators hold. -/
def heldPermits (handlers : List Handler) (coordinators : List Progress) : Nat :=
  Arena.total Handler.permits handlers + Arena.total Progress.permits coordinators

/-- Every permit is in the queue or held, and every token is that of a task under way. -/
structure Registered (config : Config) (state : State) : Prop where
  permits : state.permits + heldPermits state.handlers state.coordinators = config.queueLimit
  tokens
    : ∀ id : String,
        id ∈ state.cancellations ↔ id ∈ heldTokens state.handlers state.coordinators

/-- A service that is opened holds no permit and no token. -/
theorem Registered.open (config : Config) (rows : Records)
    : Registered config (.open config rows) where
  permits := rfl
  tokens := by simp [State.open, heldTokens]

-----------------------------------------------------------------------------------------
-- Lists of tokens
-----------------------------------------------------------------------------------------

section Lists

variable {handlers : List Handler} {coordinators : List Progress} {index : Nat}

/-- The token of a handler stands in front of the others, and so does that of any handler which
replaces it.
-/
theorem tokens_handler {old : Handler} (found : handlers[index]? = some old)
    (coordinators : List Progress)
    : ∃ others,
        (heldTokens handlers coordinators).Perm (old.token?.toList ++ others)
        ∧ ∀ new : Handler,
            (heldTokens (handlers.set index new) coordinators).Perm
              (new.token?.toList ++ others) := by
  obtain ⟨others, here, there⟩ := Arena.filterMap_perm Handler.token? found
  have front {cells : List Handler} {first : List String}
      (same : (cells.filterMap Handler.token?).Perm (first ++ others))
      : (heldTokens cells coordinators).Perm
          (first ++ (others ++ coordinators.filterMap Progress.token?)) := by
    rw [← List.append_assoc]
    exact same.append_right _
  exact ⟨_, front here, fun new => front (there new)⟩

/-- The token of a coordinator stands in front of the others, and so does that of any which
replaces it.
-/
theorem tokens_coordinator {old : Progress} (handlers : List Handler)
    (found : coordinators[index]? = some old)
    : ∃ others,
        (heldTokens handlers coordinators).Perm (old.token?.toList ++ others)
        ∧ ∀ new : Progress,
            (heldTokens handlers (coordinators.set index new)).Perm
              (new.token?.toList ++ others) := by
  obtain ⟨others, here, there⟩ := Arena.filterMap_perm Progress.token? found
  have front {cells : List Progress} {first : List String}
      (same : (cells.filterMap Progress.token?).Perm (first ++ others))
      : (heldTokens handlers cells).Perm
          (first ++ (handlers.filterMap Handler.token? ++ others)) :=
    (same.append_left _).trans (List.perm_append_comm_assoc _ _ _)
  exact ⟨_, front here, fun new => front (there new)⟩

/-- A token is that of an owner. -/
theorem tokens_sublist (handlers : List Handler) (coordinators : List Progress)
    : (heldTokens handlers coordinators).Sublist ((owners handlers coordinators).map Owner.id) := by
  have handled : (handlers.filterMap Handler.token?).Sublist
      ((handlers.filterMap Handler.owner?).map Owner.id) := by
    induction handlers with
    | nil => exact .slnil
    | cons handler rest ih =>
        obtain ⟨request, phase⟩ := handler
        cases phase with
        | registered => exact ih.cons_cons _
        | saving | stored | resumed | abandoned | lost => exact ih.cons _
        | looking | started | opened | cleared | answered | refused | left => exact ih
  have coordinated : (coordinators.filterMap Progress.token?).Sublist
      ((coordinators.map Owner.coordinator).map Owner.id) := by
    induction coordinators with
    | nil => exact .slnil
    | cons progress rest ih =>
        cases ended : progress.isEnded with
        | true =>
            rw [List.filterMap_cons_none (by rw [Progress.token?, ended, if_pos rfl])]
            exact ih.cons _
        | false =>
            rw [List.filterMap_cons_some (b := progress.task.id)
              (by rw [Progress.token?, ended, if_neg Bool.false_ne_true])]
            exact ih.cons_cons _
  rw [owners, List.map_append]
  exact handled.append coordinated

/-- Tokens are distinct. -/
theorem Orderly.tokens_nodup {state : State} (orderly : Orderly config state)
    : (heldTokens state.handlers state.coordinators).Nodup :=
  orderly.owned.distinct.sublist (tokens_sublist _ _)

end Lists

-----------------------------------------------------------------------------------------
-- Steps
-----------------------------------------------------------------------------------------

section Steps

variable {state after : State} {index : Nat} {old new : Handler} {task : Task}

/-- A handler that is replaced gives and takes permits as the queue takes and gives them, and keeps
its token or has none.
-/
theorem Registered.handle (registered : Registered config state)
    (found : state.handlers[index]? = some old)
    (handlers : after.handlers = state.handlers.set index new)
    (coordinators : after.coordinators = state.coordinators)
    (cancellations : after.cancellations = state.cancellations)
    (exchanged : after.permits + new.permits = state.permits + old.permits)
    (same : new.token? = old.token?)
    : Registered config after := by
  constructor
  case permits =>
    have whole := registered.permits
    have replaced := Arena.total_set Handler.permits new found
    rw [heldPermits] at whole ⊢
    rw [handlers, coordinators]
    omega
  case tokens =>
    obtain ⟨others, here, there⟩ := tokens_handler found state.coordinators
    have front := there new
    rw [same] at front
    intro id
    rw [handlers, coordinators, cancellations, registered.tokens, here.mem_iff, front.mem_iff]

/-- An arriving request holds nothing. -/
theorem Registered.began (registered : Registered config state) (request : Request)
    : Registered config
        { state with handlers := state.handlers ++ [{ request, phase := request.entry }] } := by
  have nothing : ({ request, phase := request.entry } : Handler).permits = 0
      ∧ ({ request, phase := request.entry } : Handler).token? = none := by
    rcases entry_cases request with entry | ⟨_, entry⟩ | ⟨_, entry⟩ <;> rw [entry] <;>
      exact ⟨rfl, rfl⟩
  obtain ⟨free, silent⟩ := nothing
  constructor
  case permits =>
    have whole := registered.permits
    rw [heldPermits] at whole ⊢
    rw [Arena.total_append, Arena.total_cons, Arena.total_nil, free]
    exact whole
  case tokens =>
    intro id
    rw [registered.tokens, heldTokens, heldTokens, List.filterMap_append,
      List.filterMap_cons_none silent, List.filterMap_nil, List.append_nil]

/-- A new token is registered. -/
theorem Registered.registers {request : Request} (registered : Registered config state)
    (found : state.handlers[index]? = some { request, phase := .resumed task })
    : Registered config
        {
          state with
          cancellations := state.cancellations.insert task.id
          handlers := state.handlers.set index { request, phase := .registered task false }
        } := by
  let new : Handler := { request, phase := .registered task false }
  constructor
  case permits =>
    have same : new.permits = Handler.permits { request, phase := .resumed task } := rfl
    have replaced := Arena.total_set Handler.permits new found
    have kept : heldPermits (state.handlers.set index new) state.coordinators
        = heldPermits state.handlers state.coordinators := by
      rw [heldPermits, heldPermits]
      omega
    exact kept ▸ registered.permits
  case tokens =>
    obtain ⟨others, here, there⟩ := tokens_handler found state.coordinators
    intro id
    rw [(there new).mem_iff, Std.TreeSet.mem_insert, registered.tokens, here.mem_iff,
      Std.LawfulEqOrd.compare_eq_iff_eq, eq_comm]
    exact List.mem_cons.symm

/-- A spawned coordinator takes over the permit and the token of its handler. -/
theorem Registered.spawned {request : Request} {cancelled : Bool}
    (registered : Registered config state)
    (found : state.handlers[index]? = some { request, phase := .registered task cancelled })
    : Registered config
        {
          state with
          handlers := state.handlers.set index { request, phase := .answered task }
          coordinators := state.coordinators
            ++ [.starting { task with state := .running } (cancelled || state.shutdown)]
        } := by
  let new : Handler := { request, phase := .answered task }
  let starting : Progress :=
    .starting { task with state := .running } (cancelled || state.shutdown)
  constructor
  case permits =>
    have passed : Handler.permits { request, phase := .registered task cancelled }
        = starting.permits + new.permits := rfl
    have replaced := Arena.total_set Handler.permits new found
    have kept : heldPermits (state.handlers.set index new) (state.coordinators ++ [starting])
        = heldPermits state.handlers state.coordinators := by
      rw [heldPermits, heldPermits, Arena.total_append, Arena.total_cons, Arena.total_nil]
      omega
    exact kept ▸ registered.permits
  case tokens =>
    obtain ⟨others, here, there⟩ := tokens_handler found state.coordinators
    have before : (heldTokens state.handlers state.coordinators).Perm (task.id :: others) := here
    have after : (heldTokens (state.handlers.set index new) state.coordinators).Perm others :=
      there new
    have pushed : heldTokens (state.handlers.set index new) (state.coordinators ++ [starting])
        = heldTokens (state.handlers.set index new) state.coordinators ++ [task.id] := by
      rw [heldTokens, heldTokens, List.filterMap_append, List.append_assoc]
      rfl
    intro id
    rw [registered.tokens, before.mem_iff, pushed, List.mem_append, after.mem_iff,
      List.mem_singleton, List.mem_cons, or_comm]

/-- A coordinator gives its permit and its token back when it ends. -/
theorem Registered.coordinate {progress next : Progress} {label : CoordinatorLabel}
    {write : Write} {cancellable : Prop} (registered : Registered config state)
    (orderly : Orderly config state) (found : state.coordinators[index]? = some progress)
    (taken : CoordinatorStep Yields config.downloads cancellable progress label write next)
    (handlers : after.handlers = state.handlers)
    (coordinators : after.coordinators = state.coordinators.set index next)
    (cancellations
      : after.cancellations
        = if next.isEnded then state.cancellations.erase progress.task.id
          else state.cancellations)
    (permits : after.permits = if next.isEnded then state.permits + 1 else state.permits)
    : Registered config after := by
  have running : progress.isEnded = false := taken.running
  constructor
  case permits =>
    have whole := registered.permits
    have replaced := Arena.total_set Progress.permits next found
    have held : progress.permits = 1 := by rw [Progress.permits, running]; rfl
    rw [heldPermits] at whole ⊢
    rw [handlers, coordinators, permits]
    rw [held, Progress.permits] at replaced
    cases ended : next.isEnded with
    | true =>
        rw [ended, Bool.not_true, if_neg Bool.false_ne_true] at replaced
        rw [if_pos rfl]
        omega
    | false =>
        rw [ended, Bool.not_false, if_pos rfl] at replaced
        rw [if_neg Bool.false_ne_true]
        omega
  case tokens =>
    obtain ⟨others, here, there⟩ := tokens_coordinator state.handlers found
    have distinct := orderly.tokens_nodup
    have token : progress.token? = some progress.task.id := by
      rw [Progress.token?, running, if_neg Bool.false_ne_true]
    rw [token] at here
    have alone : progress.task.id ∉ others := (List.nodup_cons.mp (here.nodup_iff.mp distinct)).1
    have same : next.task.id = progress.task.id := taken.continues.id
    intro id
    rw [handlers, coordinators, cancellations, (there next).mem_iff, Progress.token?]
    cases next.isEnded with
    | true =>
        simp only [if_true, Std.TreeSet.mem_erase, registered.tokens, here.mem_iff]
        simp only [Option.toList_some, Option.toList_none, List.cons_append, List.nil_append,
          List.mem_cons, ne_eq, Std.LawfulEqOrd.compare_eq_iff_eq]
        constructor
        · rintro ⟨apart, rfl | member⟩
          · exact absurd rfl apart
          · exact member
        · intro member
          exact ⟨fun clash => alone (clash ▸ member), Or.inr member⟩
    | false =>
        simp only [Bool.false_eq_true, if_false, registered.tokens, here.mem_iff, same]

end Steps

/-- Every step of the service keeps the permits and the tokens. -/
theorem Registered.step {state after : State} {label : Label}
    (taken : Step config state label after) (orderly : Orderly config state)
    (registered : Registered config state)
    : Registered config after := by
  cases taken with
  | began => exact registered.began _
  | @resolved index requested lookup snapshot catalog keys found =>
      have entered := entry_cases (.exports (archiveRequest snapshot keys))
      refine registered.handle found rfl rfl rfl ?_ ?_ <;>
        rcases entered with entry | ⟨_, entry⟩ | ⟨_, entry⟩ <;> rw [entry] <;> rfl
  | looked found | refusedLookup found | refusedArchive found | selected found
  | refusedSelection found | openChecked found | refusedClosed found | memoryChecked found
  | refusedUnpersisted found | refusedFull found | stored found | refusedSave found
  | resumed found | cancelled found | left found | abandoned found | orphaned found
  | landed found => exact registered.handle found rfl rfl rfl rfl rfl
  | admitted found free => exact registered.handle found rfl rfl rfl (Nat.sub_add_cancel free) rfl
  | registered found => exact registered.registers found
  | spawned found => exact registered.spawned found
  | coordinate found taken =>
      exact registered.coordinate orderly found taken rfl rfl rfl rfl
  | shutdown => exact ⟨registered.permits, registered.tokens⟩

-----------------------------------------------------------------------------------------
-- Runs
-----------------------------------------------------------------------------------------

section Runs

variable {rows : Records} {trace : List Label} {state : State}

/-- A service that was opened and has run accounts for its permits and its tokens. -/
theorem registered_of_run (opened : (lifetime config).Reachable (.serving (.open config rows)))
    (run : (process config rows).Execution trace state)
    : Registered config state := by
  obtain ⟨start, rfl, path⟩ := run
  have kept : Orderly config state ∧ Registered config state :=
    path.preserves (P := fun state => Orderly config state ∧ Registered config state)
      (fun taken ⟨orderly, registered⟩ =>
        ⟨Orderly.step taken orderly, Registered.step taken orderly registered⟩)
      ⟨orderly_of_reachable opened, Registered.open config rows⟩
  exact kept.2

/-- A token is that of a handler which has registered it or of a coordinator at work. -/
theorem mem_heldTokens {handlers : List Handler} {coordinators : List Progress} {id : String}
    : id ∈ heldTokens handlers coordinators
      ↔ (∃ handler ∈ handlers, ∃ task cancelled,
          handler.phase = .registered task cancelled ∧ task.id = id)
        ∨ ∃ progress ∈ coordinators, progress.isEnded = false ∧ progress.task.id = id := by
  have handled {handler : Handler}
      : handler.token? = some id
        ↔ ∃ task cancelled, handler.phase = .registered task cancelled ∧ task.id = id := by
    obtain ⟨request, phase⟩ := handler
    cases phase <;> simp [Handler.token?]
  have coordinated {progress : Progress}
      : progress.token? = some id ↔ progress.isEnded = false ∧ progress.task.id = id := by
    rw [Progress.token?]
    cases progress.isEnded <;> simp
  simp only [heldTokens, List.mem_append, List.mem_filterMap, handled, coordinated]

/-- For every order of steps, also when clients disconnect and saves fail: no permit of the queue is
lost or given twice, and the tokens that `cancel` and `stop` find are exactly those of the
tasks that were registered and have not ended.
-/
theorem permits_and_tokens_kept
    (opened : (lifetime config).Reachable (.serving (.open config rows)))
    (run : (process config rows).Execution trace state)
    : state.permits + state.handlers.countP (·.phase.executing?.isSome)
          + state.coordinators.countP (!·.isEnded)
        = config.queueLimit
      ∧ ∀ id : String,
          id ∈ state.cancellations
          ↔ (∃ handler ∈ state.handlers, ∃ task cancelled,
              handler.phase = .registered task cancelled ∧ task.id = id)
            ∨ ∃ progress ∈ state.coordinators,
                progress.isEnded = false ∧ progress.task.id = id := by
  have registered := registered_of_run opened run
  refine ⟨?_, fun id => (registered.tokens id).trans mem_heldTokens⟩
  have handled : Arena.total Handler.permits state.handlers
      = state.handlers.countP (·.phase.executing?.isSome) :=
    Arena.total_countP (fun _ => rfl) _
  have coordinated : Arena.total Progress.permits state.coordinators
      = state.coordinators.countP (!·.isEnded) :=
    Arena.total_countP (fun _ => rfl) _
  rw [Nat.add_assoc, ← handled, ← coordinated]
  exact registered.permits

/-- The service when it has spawned the coordinator of its first refresh. -/
def spawnedRefresh : State :=
  {
    State.open narrow {} with
    rows := ({} : Records).insert "t" firstRefresh
    cancellations := ({} : Std.TreeSet String).insert "t"
    permits := 0
    handlers := [{ request := .refresh, phase := .answered firstRefresh }]
    coordinators := [.starting { firstRefresh with state := .running } false]
  }

/-- The first refresh is spawned. -/
theorem firstRefresh_spawned
    : ∃ trace, (process narrow {}).Execution trace spawnedRefresh := by
  have stored := firstRefresh_saving.next (@Step.stored _ _ 0 .refresh firstRefresh rfl)
  have resumed := stored.next (@Step.resumed _ _ 0 .refresh firstRefresh rfl)
  have registered := resumed.next (@Step.registered _ _ 0 .refresh firstRefresh rfl)
  exact ⟨_, registered.next (@Step.spawned _ _ 0 .refresh firstRefresh false rfl)⟩

/-- It holds the only permit and its token. -/
theorem firstRefresh_registered
    : spawnedRefresh.coordinators.countP (!·.isEnded) = 1 ∧ "t" ∈ spawnedRefresh.cancellations := by
  obtain ⟨trace, spawned⟩ := firstRefresh_spawned
  have kept := permits_and_tokens_kept narrow_opens spawned
  refine ⟨?_, (kept.2 "t").mpr (Or.inr ⟨_, List.mem_singleton_self _, rfl, rfl⟩)⟩
  exact (Nat.zero_add _).symm.trans kept.1

/-- What may stand in the table without a coordinator: a queued row that its handler has saved and
not registered yet, for which `stop` does not wait, or that a dropped handler has left.
-/
def Unregistered (state : State) (row : Task) : Prop :=
  row.state = .queued
  ∧ ∃ handler ∈ state.handlers,
      handler.phase = .stored row ∨ handler.phase = .resumed row ∨ handler.phase = .lost row

/-- When no token is left, which `stop` waits for, every run that was registered has ended, and
every row is terminal, was not registered, or has its terminal record in memory.
-/
theorem registered_runs_have_ended
    (opened : (lifetime config).Reachable (.serving (.open config rows)))
    (run : (process config rows).Execution trace state)
    (drained : state.cancellations.isEmpty = true)
    : (∀ progress ∈ state.coordinators, progress.isEnded = true)
      ∧ ∀ {id : String} {row : Task},
          state.rows[id]? = some row
          → row.state.terminal = true ∨ Unregistered state row
            ∨ ∃ record, state.unpersisted[id]? = some record
                ∧ record.state.terminal = true := by
  have tokens := (registered_of_run opened run).tokens
  have orderly := orderly_of_run opened run
  have none (id : String) : id ∉ heldTokens state.handlers state.coordinators := by
    rw [← tokens]
    exact Std.TreeSet.not_mem_of_isEmpty drained
  have ended : ∀ progress ∈ state.coordinators, progress.isEnded = true := by
    intro progress member
    by_contra running
    rw [Bool.not_eq_true] at running
    exact none _ (mem_heldTokens.mpr (Or.inr ⟨progress, member, running, rfl⟩))
  refine ⟨ended, fun {id row} held => ?_⟩
  rcases orderly.owned.cases id with ⟨owner, member, rfl, law⟩ | rests
  · rcases List.mem_append.mp member with member | member
    · obtain ⟨handler, inside, owns⟩ := List.mem_filterMap.mp member
      obtain ⟨request, phase⟩ := handler
      cases phase with
      | saving | abandoned =>
          obtain rfl := Option.some.inj owns
          cases held.symm.trans (congrArg Prod.fst law.2)
      | registered task cancelled =>
          exact absurd (mem_heldTokens.mpr (Or.inl ⟨_, inside, task, cancelled, rfl, rfl⟩))
            (none task.id)
      | stored task | resumed task | lost task =>
          obtain rfl := Option.some.inj owns
          obtain rfl := Option.some.inj (held.symm.trans (congrArg Prod.fst law.2))
          exact Or.inr (Or.inl ⟨law.1.queued, _, inside, by simp⟩)
      | looking | started | opened | cleared | answered | refused | left => cases owns
    · obtain ⟨progress, inside, rfl⟩ := List.mem_map.mp member
      obtain ⟨-, -, lawful⟩ := law
      cases progress with
      | ended task =>
          obtain ⟨terminal, kept | ⟨-, stored⟩⟩ := lawful
          · exact Or.inr (Or.inr ⟨task, kept, terminal⟩)
          · obtain rfl := Option.some.inj (held.symm.trans stored)
            exact Or.inl terminal
      | _ => cases ended _ inside
  · exact Or.inl (rests.2 row held).2

/-- The first refresh comes to its end, and its row is terminal. -/
theorem firstRefresh_drained
    : ∃ state : State,
        state.cancellations.isEmpty = true ∧ state.coordinators.length = 1
        ∧ (∀ progress ∈ state.coordinators, progress.isEnded = true)
        ∧ ∃ row, state.rows["t"]? = some row ∧ row.state.terminal = true := by
  obtain ⟨trace, spawned⟩ := firstRefresh_spawned
  have started := spawned.next (@Step.coordinate _ _ 0 _ _ _ _ rfl .started)
  have refreshed := started.next
    (@Step.coordinate _ _ 0 _ _ _ _ rfl (@CoordinatorStep.refreshed _ _ _ _ _ (.ok "s") 4))
  have saved := refreshed.next (@Step.coordinate _ _ 0 _ _ _ _ rfl .saved)
  have stopped := registered_runs_have_ended narrow_opens saved (by decide)
  refine ⟨_, by decide, rfl, stopped.1, _, Table.insert_self _ _ _, rfl⟩

end Runs

end Handlers

end MoenotesAssets.Service
