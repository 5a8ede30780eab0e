import MoenotesAssets.Service.Scheduling

/-! The permits of the semaphores are held or free, an export waits only for what comes after it,
and so every export that arrives comes to its end, whatever the order of steps is.
-/

namespace MoenotesAssets.Service.Scheduling

open Foundation

variable {limits : Limits}

-----------------------------------------------------------------------------------------
-- Permits and gates
-----------------------------------------------------------------------------------------

/-- Every permit is free or held, an export uses producers that there are, and one export of an id
at most is behind its gate.
-/
structure Accounted (limits : Limits) (state : State) : Prop where
  downloads
    : state.downloads + Arena.total (fun fetch => fetch.phase.slots) state.fetches
      = limits.downloads
  workers
    : state.workers + Arena.total (fun e => e.phase.workers) state.exports = limits.workers
  videos : state.videos + Arena.total (fun e => e.phase.videos) state.exports = limits.videos
  listed
    : ∀ e ∈ state.exports, ∀ position : Nat,
        e.phase.uses position = true → position < state.fetches.length
  exclusive
    : ∀ {first second : Nat} {one other : Export},
        state.exports[first]? = some one
        → state.exports[second]? = some other
        → one.phase.critical = true
        → other.phase.critical = true
        → one.id = other.id
        → first = second

/-- A service that is opened holds no permit. -/
theorem Accounted.open (limits : Limits) (published : Std.TreeSet String)
    : Accounted limits (.open limits published) where
  downloads := rfl
  workers := rfl
  videos := rfl
  listed := by simp [State.open]
  exclusive := by simp [State.open]

/-- While it is fetching, an export uses the downloads that it waits for and those it holds. -/
theorem uses_fetching {todo : List String} {running held : List Nat} {position : Nat}
    : (Phase.fetching todo running held).uses position = true
      ↔ position ∈ running ∨ position ∈ held := by
  simp only [Phase.uses, Bool.or_eq_true, List.contains_eq_mem, decide_eq_true_eq]

section Steps

variable {state after : State} {index position : Nat} {old new : Export}

/-- An export that goes on exchanges its permits, uses producers that there are, and is behind its
gate only if it was or if the gate was free.
-/
theorem Accounted.advance (accounted : Accounted limits state)
    (at' : state.exports[index]? = some old)
    (exports : after.exports = state.exports.set index new)
    (slots
      : after.downloads + Arena.total (fun fetch => fetch.phase.slots) after.fetches
        = state.downloads + Arena.total (fun fetch => fetch.phase.slots) state.fetches)
    (grown : state.fetches.length ≤ after.fetches.length)
    (workers : after.workers + new.phase.workers = state.workers + old.phase.workers)
    (videos : after.videos + new.phase.videos = state.videos + old.phase.videos)
    (uses
      : ∀ position : Nat,
          new.phase.uses position = true
          → old.phase.uses position = true ∨ position < after.fetches.length)
    (same : new.id = old.id)
    (enters
      : new.phase.critical = true
        → old.phase.critical = true
          ∨ ∀ other ∈ state.exports, other.id = old.id → other.phase.critical = false)
    : Accounted limits after := by
  have known : ∀ position : Nat,
      old.phase.uses position = true → position < state.fetches.length :=
    accounted.listed old (List.mem_of_getElem? at')
  constructor
  case downloads => exact slots.trans accounted.downloads
  case workers =>
    have replaced := Arena.total_set (fun e : Export => e.phase.workers) new at'
    have whole := accounted.workers
    rw [exports]
    omega
  case videos =>
    have replaced := Arena.total_set (fun e : Export => e.phase.videos) new at'
    have whole := accounted.videos
    rw [exports]
    omega
  case listed =>
    intro e member position used
    rw [exports] at member
    rcases List.mem_or_eq_of_mem_set member with member | rfl
    · exact Nat.lt_of_lt_of_le (accounted.listed e member position used) grown
    · rcases uses position used with used | below
      · exact Nat.lt_of_lt_of_le (known position used) grown
      · exact below
  case exclusive =>
    have entered {other : Export} {second : Nat} (critical : new.phase.critical = true)
        (found : state.exports[second]? = some other) (inside : other.phase.critical = true)
        (alike : new.id = other.id)
        : index = second := by
      rcases enters critical with before | unlocked
      · exact accounted.exclusive at' found before inside (same.symm.trans alike)
      · have outside := unlocked other (List.mem_of_getElem? found) (alike.symm.trans same)
        cases outside.symm.trans inside
    intro first second one other found found' critical critical' alike
    rw [exports] at found found'
    rcases Arena.getElem?_set_cases found with ⟨rfl, is⟩ | ⟨-, kept⟩
    · rcases Arena.getElem?_set_cases found' with ⟨rfl, -⟩ | ⟨-, kept'⟩
      · rfl
      · exact entered (is ▸ critical) kept' critical' (is ▸ alike)
    · rcases Arena.getElem?_set_cases found' with ⟨rfl, is⟩ | ⟨-, kept'⟩
      · exact (entered (is ▸ critical') kept critical (is ▸ alike.symm)).symm
      · exact accounted.exclusive kept kept' critical critical' alike

/-- A producer that goes on exchanges its permit. -/
theorem Accounted.fetch {fetch next : Fetch} (accounted : Accounted limits state)
    (listed : state.fetches[position]? = some fetch) (exports : after.exports = state.exports)
    (fetches : after.fetches = state.fetches.set position next)
    (workers : after.workers = state.workers) (videos : after.videos = state.videos)
    (slots : after.downloads + next.phase.slots = state.downloads + fetch.phase.slots)
    : Accounted limits after := by
  constructor
  case downloads =>
    have replaced := Arena.total_set (fun fetch : Fetch => fetch.phase.slots) next listed
    have whole := accounted.downloads
    rw [fetches]
    omega
  case workers => exact exports ▸ workers ▸ accounted.workers
  case videos => exact exports ▸ videos ▸ accounted.videos
  case listed =>
    rw [exports, fetches, List.length_set]
    exact accounted.listed
  case exclusive =>
    rw [exports]
    exact accounted.exclusive

/-- A call that arrives holds nothing. -/
theorem Accounted.arrived (accounted : Accounted limits state) (id : String)
    (plan : Option (List String))
    : Accounted limits
        { state with exports := state.exports ++ [{ id, plan, phase := .waiting }] } := by
  constructor
  case downloads => exact accounted.downloads
  case workers =>
    rw [Arena.total_append]
    exact accounted.workers
  case videos =>
    rw [Arena.total_append]
    exact accounted.videos
  case listed =>
    intro e member
    rcases List.mem_append.mp member with member | member
    · exact accounted.listed e member
    · obtain rfl := List.mem_singleton.mp member
      intro position used
      cases used
  case exclusive =>
    intro first second one other found found' critical critical'
    rcases Arena.getElem?_push found with found | ⟨-, rfl⟩
    · rcases Arena.getElem?_push found' with found' | ⟨-, rfl⟩
      · exact accounted.exclusive found found' critical critical'
      · cases critical'
    · cases critical

end Steps

/-- Every step keeps the permits and the gates. -/
theorem Accounted.step {state after : State} {label : Label}
    (taken : Step limits state label after) (accounted : Accounted limits state)
    : Accounted limits after := by
  cases taken with
  | arrived => exact accounted.arrived _ _
  | locked at' unlocked =>
      exact accounted.advance at' rfl rfl (Nat.le_refl _) rfl rfl (fun _ used => by cases used) rfl
        fun _ => Or.inr unlocked
  | found at' | refused at' | broke at' =>
      exact accounted.advance at' rfl rfl (Nat.le_refl _) rfl rfl (fun _ used => by cases used) rfl
        fun critical => by cases critical
  | planned at' =>
      exact accounted.advance at' rfl rfl (Nat.le_refl _) rfl rfl (fun _ used => by cases used) rfl
        fun _ => Or.inl rfl
  | attached at' room listed =>
      refine accounted.advance at' rfl rfl (Nat.le_refl _) rfl rfl (fun position used => ?_) rfl
        fun _ => Or.inl rfl
      have below := Arena.lt_length listed
      simp only [uses_fetching, List.mem_append, List.mem_singleton] at used ⊢
      rcases used with (running | rfl) | held
      · exact Or.inl (Or.inl running)
      · exact Or.inr below
      · exact Or.inl (Or.inr held)
  | spawned at' =>
      refine accounted.advance at' rfl ?_ ?_ rfl rfl (fun position used => ?_) rfl
        fun _ => Or.inl rfl
      · rw [Arena.total_append]
        rfl
      · rw [List.length_append]
        exact Nat.le_add_right _ _
      · simp only [uses_fetching, List.mem_append, List.mem_singleton, List.length_append,
          List.length_singleton] at used ⊢
        rcases used with (running | rfl) | held
        · exact Or.inl (Or.inl running)
        · exact Or.inr (Nat.lt_succ_self _)
        · exact Or.inl (Or.inr held)
  | received at' member =>
      refine accounted.advance at' rfl rfl (Nat.le_refl _) rfl rfl (fun position used => ?_) rfl
        fun _ => Or.inl rfl
      simp only [uses_fetching, List.mem_append, List.mem_singleton] at used ⊢
      rcases used with running | held | rfl
      · exact Or.inl (Or.inl (List.mem_of_mem_erase running))
      · exact Or.inl (Or.inr held)
      · exact Or.inl (Or.inl member)
  | collected video at' =>
      cases video <;>
        exact accounted.advance at' rfl rfl (Nat.le_refl _) rfl rfl (fun _ used => Or.inl used) rfl
          fun _ => Or.inl rfl
  | tookVideo at' free =>
      exact accounted.advance at' rfl rfl (Nat.le_refl _) rfl (Nat.sub_add_cancel free)
        (fun _ used => Or.inl used) rfl fun _ => Or.inl rfl
  | @tookWorker index id plan video held at' free =>
      refine accounted.advance at' rfl rfl (Nat.le_refl _) (Nat.sub_add_cancel free) ?_
        (fun _ used => Or.inl used) rfl fun _ => Or.inl rfl
      cases video <;> rfl
  | @worked index id plan video held ok at' =>
      refine accounted.advance at' rfl rfl (Nat.le_refl _) rfl ?_ (fun _ used => by cases used) rfl
        fun critical => by cases critical
      cases video <;> rfl
  | failed at' live =>
      exact accounted.advance at' rfl rfl (Nat.le_refl _) rfl rfl (fun _ used => by cases used) rfl
        fun critical => by cases critical
  | tookSlot listed free => exact accounted.fetch listed rfl rfl rfl rfl (Nat.sub_add_cancel free)
  | fetched ok listed => exact accounted.fetch listed rfl rfl rfl rfl rfl
  | dropped listed => exact accounted.fetch listed rfl rfl rfl rfl rfl

-----------------------------------------------------------------------------------------
-- Work
-----------------------------------------------------------------------------------------

/-- The steps that a producer has left. -/
def FetchPhase.work : FetchPhase → Nat
  | .acquiring => 2
  | .receiving => 1
  | .ended _ => 0

/-- The steps that an export has left, with those of the producers it may still spawn. -/
def Export.work (e : Export) : Nat :=
  match e.phase with
  | .waiting => 6 + 4 * (e.plan.getD []).length
  | .gated => 5 + 4 * (e.plan.getD []).length
  | .fetching todo running _ => 4 + 4 * todo.length + running.length
  | .awaitingVideo _ => 3
  | .awaitingWorker .. => 2
  | .working .. => 1
  | .ended _ => 0

def State.work (state : State) : Nat :=
  Arena.total (fun fetch => fetch.phase.work) state.fetches + Arena.total Export.work state.exports

/-- An export that goes on with less work for itself and new producers. -/
theorem work_advance {state after : State} {index : Nat} {old new : Export}
    (at' : state.exports[index]? = some old)
    (exports : after.exports = state.exports.set index new)
    (less
      : new.work + Arena.total (fun fetch => fetch.phase.work) after.fetches
        < old.work + Arena.total (fun fetch => fetch.phase.work) state.fetches)
    : after.work < state.work := by
  have replaced := Arena.total_set Export.work new at'
  rw [State.work, State.work, exports]
  omega

/-- A producer that goes on with less work. -/
theorem work_fetch {state after : State} {position : Nat} {fetch next : Fetch}
    (listed : state.fetches[position]? = some fetch) (exports : after.exports = state.exports)
    (fetches : after.fetches = state.fetches.set position next)
    (less : next.phase.work < fetch.phase.work)
    : after.work < state.work := by
  have replaced := Arena.total_set (fun fetch : Fetch => fetch.phase.work) next listed
  rw [State.work, State.work, exports, fetches]
  omega

/-- Whatever is not over has work left. -/
theorem Export.work_pos {id : String} {plan : Option (List String)} {phase : Phase}
    (live : phase.isEnded = false)
    : 0 < Export.work { id, plan, phase } := by
  cases phase with
  | ended => cases live
  | _ => simp only [Export.work]; omega

/-- Every step that is not an arrival lowers the work. -/
theorem Step.work_lt {state after : State} {label : Label}
    (taken : Step limits state label after) (inside : label.arrives = false)
    : after.work < state.work := by
  cases taken with
  | arrived => cases inside
  | locked at' | found at' | refused at' | planned at' | broke at' =>
      refine work_advance at' rfl ?_
      simp only [Export.work, Option.getD, List.length_nil]
      omega
  | attached at' =>
      refine work_advance at' rfl ?_
      simp only [Export.work, List.length_append, List.length_cons, List.length_nil]
      omega
  | spawned at' =>
      refine work_advance at' rfl ?_
      simp only [Export.work, List.length_append, List.length_cons, List.length_nil,
        Arena.total_append, Arena.total_cons, Arena.total_nil, FetchPhase.work]
      omega
  | received at' member =>
      refine work_advance at' rfl ?_
      have shorter := List.length_erase_of_mem member
      have some := List.length_pos_of_mem member
      simp only [Export.work, shorter]
      omega
  | collected video at' =>
      refine work_advance at' rfl ?_
      cases video <;> simp [Export.work]
  | tookVideo at' | tookWorker at' | worked _ at' =>
      refine work_advance at' rfl ?_
      simp [Export.work]
  | failed at' live =>
      refine work_advance at' rfl ?_
      exact Nat.add_lt_add_right (Export.work_pos live) _
  | tookSlot listed | fetched _ listed => exact work_fetch listed rfl rfl (Nat.lt_succ_self _)
  | @dropped position key phase listed live =>
      refine work_fetch listed rfl rfl ?_
      cases phase with
      | ended => cases live
      | acquiring | receiving => exact Nat.zero_lt_succ _

-----------------------------------------------------------------------------------------
-- Who waits for whom
-----------------------------------------------------------------------------------------

/-- An export or a producer, by its index. -/
abbrev Process := Nat ⊕ Nat

/-- How far what a process waits for is behind it. -/
def Phase.rank : Phase → Nat
  | .waiting | .ended _ => 0
  | .gated | .fetching .. | .awaitingVideo _ => 1
  | .awaitingWorker .. => 2
  | .working .. => 3

def FetchPhase.rank : FetchPhase → Nat
  | .ended _ => 0
  | .acquiring => 2
  | .receiving => 3

/-- A process is under way at a rank. -/
inductive At (state : State) : Process → Nat → Prop where
  | exports {index e} (found : state.exports[index]? = some e) (live : e.phase.isEnded = false)
    : At state (.inl index) e.phase.rank
  | fetch {position fetch} (listed : state.fetches[position]? = some fetch)
    (live : fetch.phase.isEnded = false)
    : At state (.inr position) fetch.phase.rank

/-- A step that is no arrival and no failure. -/
def Label.normal (label : Label) : Prop := label.arrives = false ∧ label.fails = false

/-- A step is possible that is no arrival and no failure. -/
def CanGoOn (limits : Limits) (state : State) : Prop :=
  ∃ label after, label.normal ∧ Step limits state label after

/-- A step is possible, or a process of a higher rank is under way. -/
def Waits (limits : Limits) (state : State) (rank : Nat) : Prop :=
  CanGoOn limits state ∨ ∃ other higher, At state other higher ∧ rank < higher

theorem Phase.rank_le (phase : Phase) : phase.rank ≤ 3 := by
  unfold Phase.rank
  split <;> omega

theorem FetchPhase.rank_le (phase : FetchPhase) : phase.rank ≤ 3 := by
  unfold FetchPhase.rank
  split <;> omega

section Waiting

variable {state : State} {index position : Nat}

/-- Where no permit is free, somebody holds one. -/
theorem exists_holder {α : Type} {cells : List α} {weight : α → Nat} {free limit : Nat}
    (whole : free + Arena.total weight cells = limit) (pos : 0 < limit) (none : ¬0 < free)
    : ∃ (index : Nat) (cell : α), cells[index]? = some cell ∧ 0 < weight cell :=
  Arena.exists_weight (by omega)

/-- A producer waits for one that holds a permit, at most. -/
theorem fetch_waits {fetch : Fetch} (accounted : Accounted limits state)
    (listed : state.fetches[position]? = some fetch) (live : fetch.phase.isEnded = false)
    : Waits limits state fetch.phase.rank := by
  obtain ⟨key, phase⟩ := fetch
  cases phase with
  | ended => cases live
  | receiving => exact Or.inl ⟨_, _, ⟨rfl, rfl⟩, .fetched true listed⟩
  | acquiring =>
      by_cases free : 0 < state.downloads
      · exact Or.inl ⟨_, _, ⟨rfl, rfl⟩, .tookSlot listed free⟩
      · obtain ⟨other, holder, found, holds⟩ :=
          exists_holder accounted.downloads limits.downloads_pos free
        obtain ⟨key', phase⟩ := holder
        cases phase with
        | acquiring | ended => cases holds
        | receiving => exact Or.inr ⟨.inr other, _, .fetch found rfl, Nat.lt_succ_self _⟩

/-- An export waits for another one behind its gate, for a producer, or for an export that holds a
permit it needs.
-/
theorem export_waits {e : Export} (accounted : Accounted limits state)
    (found : state.exports[index]? = some e) (live : e.phase.isEnded = false)
    : Waits limits state e.phase.rank := by
  obtain ⟨id, plan, phase⟩ := e
  cases phase with
  | ended => cases live
  | waiting =>
      by_cases unlocked : ∀ other ∈ state.exports, other.id = id → other.phase.critical = false
      · exact Or.inl ⟨_, _, ⟨rfl, rfl⟩, .locked found unlocked⟩
      · push Not at unlocked
        obtain ⟨other, member, -, critical⟩ := unlocked
        obtain ⟨place, held⟩ := List.mem_iff_getElem?.mp member
        obtain ⟨id', plan', phase⟩ := other
        cases phase with
        | waiting | ended => cases critical rfl
        | gated | fetching | awaitingVideo | awaitingWorker | working =>
            refine Or.inr ⟨.inl place, _, .exports held rfl, ?_⟩
            exact Nat.zero_lt_succ _
  | gated =>
      by_cases row : id ∈ state.published
      · exact Or.inl ⟨_, _, ⟨rfl, rfl⟩, .found found row⟩
      · cases plan with
        | none => exact Or.inl ⟨_, _, ⟨rfl, rfl⟩, .refused found row⟩
        | some todo => exact Or.inl ⟨_, _, ⟨rfl, rfl⟩, .planned found row⟩
  | fetching todo running held =>
      cases running with
      | cons first others =>
          have used : Phase.uses first (.fetching todo (first :: others) held) = true := by
            simp [Phase.uses]
          have below := accounted.listed _ (List.mem_of_getElem? found) first used
          have listed := List.getElem?_eq_getElem below
          generalize state.fetches[first] = fetch at listed
          obtain ⟨key, phase⟩ := fetch
          cases phase with
          | ended ok =>
              cases ok with
              | true =>
                  exact Or.inl ⟨_, _, ⟨rfl, rfl⟩, .received found List.mem_cons_self listed⟩
              | false => exact Or.inl ⟨_, _, ⟨rfl, rfl⟩, .broke found List.mem_cons_self listed⟩
          | acquiring => exact Or.inr ⟨.inr first, _, .fetch listed rfl, Nat.lt_succ_self _⟩
          | receiving =>
              exact Or.inr ⟨.inr first, _, .fetch listed rfl, Nat.lt_add_of_pos_right Nat.two_pos⟩
      | nil =>
          cases todo with
          | nil => exact Or.inl ⟨_, _, ⟨rfl, rfl⟩, .collected true found⟩
          | cons key rest =>
              refine Or.inl ?_
              by_cases unused : ∀ position fetch, state.fetches[position]? = some fetch →
                  fetch.key = key → state.used position = false
              · exact ⟨_, _, ⟨rfl, rfl⟩,
                  .spawned found limits.downloads_pos fun {p f} => unused p f⟩
              · push Not at unused
                obtain ⟨position, fetch, listed, same, used⟩ := unused
                exact ⟨_, _, ⟨rfl, rfl⟩, .attached found limits.downloads_pos listed same
                  (Bool.not_eq_false _ ▸ used)⟩
  | awaitingVideo held =>
      by_cases free : 0 < state.videos
      · exact Or.inl ⟨_, _, ⟨rfl, rfl⟩, .tookVideo found free⟩
      · obtain ⟨other, holder, found', holds⟩ :=
          exists_holder accounted.videos limits.videos_pos free
        obtain ⟨id', plan', phase⟩ := holder
        cases phase with
        | awaitingWorker | working =>
            exact Or.inr ⟨.inl other, _, .exports found' rfl, by simp [Phase.rank]⟩
        | _ => cases holds
  | awaitingWorker video held =>
      by_cases free : 0 < state.workers
      · exact Or.inl ⟨_, _, ⟨rfl, rfl⟩, .tookWorker found free⟩
      · obtain ⟨other, holder, found', holds⟩ :=
          exists_holder accounted.workers limits.workers_pos free
        obtain ⟨id', plan', phase⟩ := holder
        cases phase with
        | working => exact Or.inr ⟨.inl other, _, .exports found' rfl, by simp [Phase.rank]⟩
        | _ => cases holds
  | working video held => exact Or.inl ⟨_, _, ⟨rfl, rfl⟩, .worked true found⟩

end Waiting

/-- Where something is under way, a step is possible that is no arrival and no failure. -/
theorem Accounted.ready {state : State} (accounted : Accounted limits state)
    (restless : ¬state.Quiet)
    : CanGoOn limits state := by
  have waits {process : Process × Nat} (live : At state process.1 process.2)
      : Waits limits state process.2 := by
    obtain ⟨process, rank⟩ := process
    cases live with
    | exports found live => exact export_waits accounted found live
    | fetch listed live => exact fetch_waits accounted listed live
  have below {process : Process × Nat} (live : At state process.1 process.2)
      : process.2 ≤ 3 := by
    obtain ⟨process, rank⟩ := process
    cases live with
    | exports => exact Phase.rank_le _
    | fetch => exact FetchPhase.rank_le _
  have goes (process : Process × Nat) (live : At state process.1 process.2)
      : CanGoOn limits state := by
    obtain ⟨-, -, goes⟩ :=
      @exists_ready _ (fun process => At state process.1 process.2) (fun _ => CanGoOn limits state)
        Prod.snd 3 below
        (fun live => (waits live).imp_right fun ⟨other, higher, live, more⟩ =>
          ⟨(other, higher), live, more⟩)
        process live
    exact goes
  by_contra stuck
  refine restless ⟨fun e member => ?_, fun fetch member => ?_⟩
  · by_contra live
    obtain ⟨index, found⟩ := List.mem_iff_getElem?.mp member
    exact stuck (goes (.inl index, _) (.exports found (Bool.eq_false_iff.mpr live)))
  · by_contra live
    obtain ⟨position, listed⟩ := List.mem_iff_getElem?.mp member
    exact stuck (goes (.inr position, _) (.fetch listed (Bool.eq_false_iff.mpr live)))

/-- A service that is not asked for more comes to rest, with or without failures. -/
theorem drains {own : Label → Prop} (inside : ∀ {label}, own label → label.arrives = false)
    (normal : ∀ {label : Label}, label.normal → own label)
    : (system limits).Drains (Accounted limits) own State.Quiet State.work where
  kept accounted _ taken := Accounted.step taken accounted
  lowers _ is taken := Step.work_lt taken (inside is)
  ready accounted restless := by
    obtain ⟨label, after, is, taken⟩ := accounted.ready restless
    exact ⟨label, after, normal is, taken⟩

-----------------------------------------------------------------------------------------
-- Calls that complete
-----------------------------------------------------------------------------------------

/-- Nothing has gone wrong for the calls that are under way: each can be planned, or its export is
there, and none waits for a download that has failed.
-/
structure State.Sound (state : State) : Prop where
  planned
    : ∀ e ∈ state.exports, e.phase.isEnded = false → e.plan.isSome ∨ e.id ∈ state.published
  downloads
    : ∀ e ∈ state.exports, ∀ {position : Nat} {fetch : Fetch},
        e.phase.uses position = true
        → state.fetches[position]? = some fetch
        → fetch.phase ≠ .ended false

/-- The call at an index is under way, or its export is there. -/
def State.Fares (state : State) (index : Nat) (id : String) : Prop :=
  ∃ e,
    state.exports[index]? = some e ∧ e.id = id
    ∧ (e.phase.isEnded = false ∨ e.phase = .ended true ∧ id ∈ state.published)

section Completion

variable {state after : State} {index : Nat} {old new : Export}

/-- An export that goes on keeps calls sound when it can be planned as before and uses no download
that has failed.
-/
theorem State.Sound.advance (sound : state.Sound) (at' : state.exports[index]? = some old)
    (exports : after.exports = state.exports.set index new)
    (published : ∀ id ∈ state.published, id ∈ after.published)
    (same : new.id = old.id ∧ new.plan = old.plan)
    (live : new.phase.isEnded = false → old.phase.isEnded = false)
    (fetches
      : ∀ {position : Nat} {fetch : Fetch},
          after.fetches[position]? = some fetch
          → state.fetches[position]? = some fetch ∨ fetch.phase ≠ .ended false)
    (uses
      : ∀ {position : Nat} {fetch : Fetch},
          new.phase.uses position = true
          → after.fetches[position]? = some fetch
          → old.phase.uses position = true ∨ fetch.phase ≠ .ended false)
    : after.Sound := by
  have before := List.mem_of_getElem? at'
  constructor
  case planned =>
    intro e member going
    rw [exports] at member
    rcases List.mem_or_eq_of_mem_set member with member | rfl
    · exact (sound.planned e member going).imp_right (published e.id)
    · rw [same.1, same.2]
      exact (sound.planned old before (live going)).imp_right (published old.id)
  case downloads =>
    intro e member position fetch used listed
    rw [exports] at member
    rcases fetches listed with kept | fine
    · rcases List.mem_or_eq_of_mem_set member with member | rfl
      · exact sound.downloads e member used kept
      · rcases uses used listed with used | fine
        · exact sound.downloads old before used kept
        · exact fine
    · exact fine

/-- Producers that go on without a failure keep calls sound. -/
theorem State.Sound.fetch (sound : state.Sound) {position : Nat} {next : Fetch}
    (exports : after.exports = state.exports) (published : after.published = state.published)
    (fetches : after.fetches = state.fetches.set position next)
    (fine : next.phase ≠ .ended false)
    : after.Sound := by
  constructor
  case planned =>
    rw [exports, published]
    exact sound.planned
  case downloads =>
    rw [exports, fetches]
    intro e member place fetch used listed
    rcases Arena.getElem?_set_cases listed with ⟨rfl, is⟩ | ⟨-, kept⟩
    · exact is ▸ fine
    · exact sound.downloads e member used kept

/-- Steps that are no arrivals and no failures keep calls sound, and refuse none of them. -/
theorem State.Sound.step {label : Label} (sound : state.Sound)
    (taken : Step limits state label after) (normal : label.normal)
    : label.refuses = false ∧ after.Sound := by
  cases taken with
  | arrived => cases normal.1
  | refused at' absent =>
      rcases sound.planned _ (List.mem_of_getElem? at') rfl with plan | row
      · cases plan
      · exact absurd row absent
  | broke at' member done =>
      refine absurd rfl (sound.downloads _ (List.mem_of_getElem? at') ?_ done)
      exact uses_fetching.mpr (Or.inl member)
  | failed => cases normal.2
  | dropped => cases normal.2
  | locked at' | found at' | planned at' =>
      exact ⟨rfl, sound.advance at' rfl (fun _ row => row) ⟨rfl, rfl⟩ (fun _ => rfl) Or.inl
        fun used => by cases used⟩
  | @attached index id plan key todo running held position fetch at' room listed alike used =>
      refine ⟨rfl, sound.advance at' rfl (fun _ row => row) ⟨rfl, rfl⟩ (fun _ => rfl) Or.inl ?_⟩
      intro place found uses there
      simp only [uses_fetching, List.mem_append, List.mem_singleton] at uses ⊢
      rcases uses with (running | rfl) | held
      · exact Or.inl (Or.inl running)
      · obtain ⟨other, among, uses⟩ := List.any_eq_true.mp used
        exact Or.inr (sound.downloads other among uses there)
      · exact Or.inl (Or.inr held)
  | spawned at' =>
      refine ⟨rfl, sound.advance at' rfl (fun _ row => row) ⟨rfl, rfl⟩ (fun _ => rfl) ?_ ?_⟩
      · intro place found there
        rcases Arena.getElem?_push there with before | ⟨-, rfl⟩
        · exact Or.inl before
        · exact Or.inr nofun
      · intro place found uses there
        rcases Arena.getElem?_push there with before | ⟨-, rfl⟩
        · have below := Arena.lt_length before
          simp only [uses_fetching, List.mem_append, List.mem_singleton] at uses ⊢
          rcases uses with (running | rfl) | held
          · exact Or.inl (Or.inl running)
          · exact absurd below (Nat.lt_irrefl _)
          · exact Or.inl (Or.inr held)
        · exact Or.inr nofun
  | received at' member =>
      refine ⟨rfl, sound.advance at' rfl (fun _ row => row) ⟨rfl, rfl⟩ (fun _ => rfl) Or.inl ?_⟩
      intro place found uses there
      simp only [uses_fetching, List.mem_append, List.mem_singleton] at uses ⊢
      rcases uses with running | held | rfl
      · exact Or.inl (Or.inl (List.mem_of_mem_erase running))
      · exact Or.inl (Or.inr held)
      · exact Or.inl (Or.inl member)
  | collected video at' =>
      refine ⟨rfl, sound.advance at' rfl (fun _ row => row) ⟨rfl, rfl⟩ (fun _ => rfl) Or.inl ?_⟩
      intro place found uses there
      cases video <;> exact Or.inl uses
  | tookVideo at' | tookWorker at' =>
      exact ⟨rfl, sound.advance at' rfl (fun _ row => row) ⟨rfl, rfl⟩ (fun _ => rfl) Or.inl
        fun uses _ => Or.inl uses⟩
  | worked ok at' =>
      cases ok with
      | false => cases normal.2
      | true =>
          exact ⟨rfl, sound.advance at' rfl
            (fun _ row => Std.TreeSet.mem_insert.mpr (Or.inr row)) ⟨rfl, rfl⟩ (fun _ => rfl) Or.inl
            fun used => by cases used⟩
  | tookSlot listed => exact ⟨rfl, sound.fetch rfl rfl rfl nofun⟩
  | fetched ok listed =>
      cases ok with
      | false => cases normal.2
      | true => exact ⟨rfl, sound.fetch rfl rfl rfl nofun⟩

/-- An export that goes on fares well, and so do the others that did. -/
theorem State.Fares.advance {place : Nat} {id : String} (fares : state.Fares place id)
    (at' : state.exports[index]? = some old) (exports : after.exports = state.exports.set index new)
    (published : ∀ id ∈ state.published, id ∈ after.published) (same : new.id = old.id)
    (ends : new.phase.isEnded = false ∨ new.phase = .ended true ∧ old.id ∈ after.published)
    : after.Fares place id := by
  obtain ⟨e, found, rfl, well⟩ := fares
  rw [State.Fares, exports]
  by_cases here : place = index
  · subst here
    cases at'.symm.trans found
    exact ⟨new, List.getElem?_set_self (Arena.lt_length at'), same, ends⟩
  · refine ⟨e, (List.getElem?_set_ne (Ne.symm here)).trans found, rfl, ?_⟩
    exact well.imp_right fun ⟨ended, row⟩ => ⟨ended, published _ row⟩

/-- Steps that are no failures and refuse no call let every call fare well. -/
theorem Step.fares {label : Label} {place : Nat} {id : String}
    (taken : Step limits state label after) (normal : label.normal) (calm : label.refuses = false)
    (fares : state.Fares place id)
    : after.Fares place id := by
  cases taken with
  | arrived => cases normal.1
  | refused | broke => cases calm
  | failed | dropped => cases normal.2
  | tookSlot | fetched => exact fares
  | found at' row => exact fares.advance at' rfl (fun _ row => row) rfl (Or.inr ⟨rfl, row⟩)
  | locked at' | planned at' | attached at' | spawned at' | received at' | tookVideo at'
  | tookWorker at' =>
      exact fares.advance at' rfl (fun _ row => row) rfl (Or.inl rfl)
  | collected video at' =>
      refine fares.advance at' rfl (fun _ row => row) rfl (Or.inl ?_)
      cases video <;> rfl
  | worked ok at' =>
      cases ok with
      | false => cases normal.2
      | true =>
          exact fares.advance at' rfl (fun _ row => Std.TreeSet.mem_insert.mpr (Or.inr row)) rfl
            (Or.inr ⟨rfl, Std.TreeSet.mem_insert_self⟩)

/-- So it is over a run, by induction on its steps. -/
theorem path_fares {trace : List Label} {place : Nat} {id : String}
    (path : (system limits).Path state trace after)
    (calm : ∀ label ∈ trace, label.normal ∧ label.refuses = false) (fares : state.Fares place id)
    : after.Fares place id := by
  induction path with
  | here => exact fares
  | @next trace middle label finish path taken ih =>
      obtain ⟨normal, quiet⟩ := calm label (by simp)
      exact Step.fares taken normal quiet
        (ih fun label member => calm label (List.mem_append_left _ member))

end Completion

/-- A service for which nothing has gone wrong comes to rest without a failure. -/
theorem sound_drains
    : (system limits).Drains (fun state => Accounted limits state ∧ state.Sound)
        (fun label => label.normal ∧ label.refuses = false) State.Quiet State.work where
  kept within own taken := ⟨within.1.step taken, (within.2.step taken own.1).2⟩
  lowers _ own taken := Step.work_lt taken own.1.1
  ready within restless := by
    obtain ⟨label, after, normal, taken⟩ := within.1.ready restless
    exact ⟨label, after, ⟨normal, (within.2.step taken normal).1⟩, taken⟩

-----------------------------------------------------------------------------------------
-- Runs
-----------------------------------------------------------------------------------------

section Runs

variable {state after : State} {trace : List Label}

/-- The permits of a reachable state are accounted for. -/
theorem accounted_of_reachable (reached : (system limits).Reachable state)
    : Accounted limits state := by
  refine reached.invariant (P := Accounted limits) ?_ fun taken before => before.step taken
  rintro start ⟨published, rfl⟩
  exact Accounted.open limits published

/-- At rest every permit is free. -/
theorem State.Quiet.free (quiet : state.Quiet) (accounted : Accounted limits state)
    : state.downloads = limits.downloads ∧ state.workers = limits.workers
      ∧ state.videos = limits.videos := by
  have slots : Arena.total (fun fetch => fetch.phase.slots) state.fetches = 0 := by
    refine (Arena.total_eq_zero _ _).mpr fun fetch member => ?_
    have ended := quiet.fetches fetch member
    cases phase : fetch.phase with
    | ended => rfl
    | _ => rw [phase] at ended; cases ended
  have held (weight : Phase → Nat) (none : ∀ ok, weight (.ended ok) = 0)
      : Arena.total (fun e => weight e.phase) state.exports = 0 := by
    refine (Arena.total_eq_zero _ _).mpr fun e member => ?_
    have ended := quiet.exports e member
    cases phase : e.phase with
    | ended ok => exact none ok
    | _ => rw [phase] at ended; cases ended
  have workers := accounted.workers
  have videos := accounted.videos
  have downloads := accounted.downloads
  rw [held Phase.workers fun _ => rfl] at workers
  rw [held Phase.videos fun _ => rfl] at videos
  rw [slots] at downloads
  exact ⟨downloads, workers, videos⟩

/-- One permit of each kind. -/
def oneEach : Limits := ⟨1, 1, 1, Nat.one_pos, Nat.one_pos, Nat.one_pos⟩

/-- Two calls for one export, the first of them behind its gate with a download that has the permit.
-/
def twoCalls : State :=
  {
    State.open oneEach ∅ with
    downloads := 0
    fetches := [{ key := "s:1", phase := .receiving }]
    exports :=
      [
        { id := "a", plan := some ["s:1"], phase := .fetching [] [0] [] },
        { id := "a", plan := some ["s:1"], phase := .waiting }
      ]
  }

/-- They are reached. -/
theorem twoCalls_reached : (system oneEach).Reachable twoCalls := by
  have start : (system oneEach).Execution [] (.open oneEach ∅) := ⟨_, ⟨_, rfl⟩, .here⟩
  have first := start.next (@Step.arrived _ _ "a" (some ["s:1"]))
  have second := first.next (@Step.arrived _ _ "a" (some ["s:1"]))
  have locked := second.next (@Step.locked _ _ 0 _ _ rfl (by decide))
  have planned := locked.next (@Step.planned _ _ 0 _ _ rfl (by decide))
  have spawned := planned.next
    (@Step.spawned _ _ 0 _ _ _ _ _ _ rfl Nat.one_pos (fun listed => by cases listed))
  exact (spawned.next (@Step.tookSlot _ _ 0 _ rfl Nat.one_pos)).reachable

end Runs

end MoenotesAssets.Service.Scheduling
