import MoenotesAssets.Foundation.Fallible

/-! Programs over a persistent state that may be interrupted: a run keeps the states that it
passes, any of which may be found after it stopped. The rules bound those states, next to
what holds when the program returns or fails.
-/

namespace Foundation

/-- How a run went: the states it passed, the last one and its result. -/
structure Attempt (σ ε α : Type) where
  passed : List σ
  last : σ
  result : Except ε α

/-- A program over a persistent state. -/
def Program (σ ε α : Type) := σ → Attempt σ ε α

variable {σ ε α β : Type}

/-- The states that may be found after a run was stopped or has ended. -/
def Attempt.visible (attempt : Attempt σ ε α) : List σ :=
  attempt.passed ++ [attempt.last]

namespace Program

/-- A program that only returns. -/
protected def pure (value : α) : Program σ ε α := fun state => ⟨[], state, .ok value⟩

/-- What follows a program that has returned. -/
protected def bind (first : Program σ ε α) (next : α → Program σ ε β) : Program σ ε β :=
  fun state =>
    match (first state).result with
    | .ok value =>
        let rest := next value (first state).last
        ⟨(first state).passed ++ rest.passed, rest.last, rest.result⟩
    | .error error => ⟨(first state).passed, (first state).last, .error error⟩

instance : Monad (Program σ ε) where
  pure := Program.pure
  bind := Program.bind

/-- What is computed from the state without changing it. -/
def observe (compute : σ → Except ε α) : Program σ ε α :=
  fun state => ⟨[], state, compute state⟩

/-- One atomic change of the state. -/
def change (effect : σ → σ) : Program σ ε Unit :=
  fun state => ⟨[effect state], effect state, .ok ()⟩

/-- One atomic change of the state that may be refused; a refusal leaves the state as it is. -/
def advance (effect : σ → Except ε σ) : Program σ ε Unit :=
  fun state =>
    match effect state with
    | .ok after => ⟨[after], after, .ok ()⟩
    | .error error => ⟨[], state, .error error⟩

/-- What is computed without the state. -/
def lift (outcome : Except ε α) : Program σ ε α := observe fun _ => outcome

-----------------------------------------------------------------------------------------
-- Runs of sequences
-----------------------------------------------------------------------------------------

/-- A program followed by another one, when it returns. -/
theorem bind_returned {first : Program σ ε α} {next : α → Program σ ε β} {state : σ} {value : α}
    (returned : (first state).result = .ok value)
    : (first >>= next) state
      = ⟨(first state).passed ++ (next value (first state).last).passed,
          (next value (first state).last).last, (next value (first state).last).result⟩ := by
  change Program.bind first next state = _
  rw [Program.bind, returned]

/-- What follows a value that is known. -/
theorem lift_ok_bind (value : α) (next : α → Program σ ε β)
    : (lift (.ok value) >>= next) = next value := by
  funext state
  exact bind_returned rfl

/-- A program followed by another one, when it fails. -/
theorem bind_failed {first : Program σ ε α} {next : α → Program σ ε β} {state : σ} {error : ε}
    (failed : (first state).result = .error error)
    : (first >>= next) state = ⟨(first state).passed, (first state).last, .error error⟩ := by
  change Program.bind first next state = _
  rw [Program.bind, failed]

/-- Nothing follows a failure that is known. -/
theorem lift_error_bind (error : ε) (next : α → Program σ ε β)
    : (lift (.error error) >>= next) = lift (.error error) := by
  funext state
  exact bind_failed rfl

/-- A program whose value is returned. -/
theorem bind_return (program : Program σ ε α) : program >>= pure = program := by
  funext state
  cases result : (program state).result with
  | error error => rw [bind_failed result, ← result]
  | ok value =>
      refine (bind_returned result).trans ?_
      change Attempt.mk ((program state).passed ++ []) (program state).last (.ok value) = _
      rw [List.append_nil, ← result]

/-- Both parts of a sequence that returned have returned. -/
theorem bind_result {first : Program σ ε α} {next : α → Program σ ε β} {state : σ} {value : β}
    (returned : ((first >>= next) state).result = .ok value)
    : ∃ given,
        (first state).result = .ok given
        ∧ (next given (first state).last).result = .ok value := by
  cases result : (first state).result with
  | error error =>
      rw [bind_failed result] at returned
      cases returned
  | ok given =>
      rw [bind_returned result] at returned
      exact ⟨given, rfl, returned⟩

/-- Sequences may be grouped in any way. -/
theorem bind_assoc {γ : Type} (first : Program σ ε α) (next : α → Program σ ε β)
    (last : β → Program σ ε γ)
    : (first >>= next) >>= last = first >>= fun value => next value >>= last := by
  funext state
  cases result : (first state).result with
  | error error =>
      rw [bind_failed result, bind_failed (by rw [bind_failed result]), bind_failed result]
  | ok value =>
      rw [bind_returned result]
      cases rest : (next value (first state).last).result with
      | error error =>
          rw [bind_failed rest, bind_failed (by rw [bind_returned result]; exact rest),
            bind_returned result]
      | ok given =>
          rw [bind_returned rest, bind_returned (by rw [bind_returned result]; exact rest),
            bind_returned result, List.append_assoc]

/-- Every round of a loop that returned has returned, by induction on the list. -/
theorem forM_returned {f : β → Program σ ε PUnit} {list : List β} {state : σ} {done : PUnit}
    (returned : ((list.forM f) state).result = .ok done)
    : ∀ item ∈ list, ∃ (before : σ), (f item before).result = .ok ⟨⟩ := by
  induction list generalizing state with
  | nil => exact List.forall_mem_nil _
  | cons item rest ih =>
      obtain ⟨_, here, later⟩ := bind_result returned
      exact List.forall_mem_cons.mpr ⟨⟨state, here⟩, ih later⟩

-----------------------------------------------------------------------------------------
-- Rules
-----------------------------------------------------------------------------------------

/-- (Guards pre program post broken crash) holds when from every state with `pre` the program
passes states with `crash` only, returns with `post` and fails with `broken`.
-/
structure Guards (pre : σ → Prop) (program : Program σ ε α) (post : α → σ → Prop)
    (broken : ε → σ → Prop) (crash : σ → Prop)
    : Prop where
  passes : ∀ {state : σ}, pre state → ∀ seen ∈ (program state).passed, crash seen
  returns
    : ∀ {state : σ} {value : α},
        pre state
        → (program state).result = .ok value
        → post value (program state).last
  fails
    : ∀ {state : σ} {error : ε},
        pre state
        → (program state).result = .error error
        → broken error (program state).last

variable {pre crash : σ → Prop} {broken : ε → σ → Prop}

/-- A returned value. -/
theorem Guards.pure {post : α → σ → Prop} {value : α}
    (holds : ∀ {state : σ}, pre state → post value state)
    : Guards pre (pure value : Program σ ε α) post broken crash where
  passes := fun _ _ member => by cases member
  returns := fun start same => Except.ok.inj same ▸ holds start
  fails := fun _ same => by cases same

/-- An observation. -/
theorem Guards.observe {post : α → σ → Prop} {compute : σ → Except ε α}
    (returns : ∀ {state : σ} {value : α}, pre state → compute state = .ok value → post value state)
    (fails
      : ∀ {state : σ} {error : ε}, pre state → compute state = .error error → broken error state)
    : Guards pre (Program.observe compute) post broken crash where
  passes := fun _ _ member => by cases member
  returns := returns
  fails := fails

/-- A part of the state that is looked at. -/
theorem Guards.look {part : σ → α}
    : Guards pre (Program.observe fun state => .ok (part state))
        (fun value state => pre state ∧ part state = value) broken crash :=
  .observe (fun start same => ⟨start, Except.ok.inj same⟩) fun _ failed => by cases failed

/-- A check that never fails. -/
theorem Guards.passing {condition : σ → Bool} {error : ε}
    (holds : ∀ {state : σ}, pre state → condition state = true)
    : Guards pre (Program.observe fun state => ensure (condition state) error)
        (fun _ => pre) broken crash := by
  refine .observe (fun start _ => start) fun start failed => ?_
  cases (holds start).symm.trans (ensure_error.mp failed).1

/-- An error. -/
theorem Guards.fail {post : α → σ → Prop} {error : ε}
    (fails : ∀ {state : σ}, pre state → broken error state)
    : Guards pre (Program.observe fun _ => .error error) post broken crash :=
  .observe (fun _ same => by cases same) fun start failed => Except.error.inj failed ▸ fails start

/-- An atomic change. -/
theorem Guards.change {post : Unit → σ → Prop} {effect : σ → σ}
    (passes : ∀ {state : σ}, pre state → crash (effect state))
    (returns : ∀ {state : σ}, pre state → post () (effect state))
    : Guards pre (Program.change effect) post broken crash where
  passes := by
    intro state start seen member
    rw [List.mem_singleton.mp member]
    exact passes start
  returns := fun start _ => returns start
  fails := fun _ same => by cases same

/-- The rule of sequences. -/
theorem Guards.bind {middle : α → σ → Prop} {post : β → σ → Prop} {first : Program σ ε α}
    {next : α → Program σ ε β} (begins : Guards pre first middle broken crash)
    (continues : ∀ (value : α), Guards (middle value) (next value) post broken crash)
    : Guards pre (first >>= next) post broken crash := by
  constructor
  case passes =>
    intro state start seen member
    cases result : (first state).result with
    | error error =>
        rw [bind_failed result] at member
        exact begins.passes start seen member
    | ok value =>
        rw [bind_returned result] at member
        rcases List.mem_append.mp member with early | late
        · exact begins.passes start seen early
        · exact (continues value).passes (begins.returns start result) seen late
  case returns =>
    intro state value start same
    cases result : (first state).result with
    | error error =>
        rw [bind_failed result] at same
        cases same
    | ok given =>
        rw [bind_returned result] at same ⊢
        exact (continues given).returns (begins.returns start result) same
  case fails =>
    intro state error start same
    cases result : (first state).result with
    | error given =>
        rw [bind_failed result] at same ⊢
        exact Except.error.inj same ▸ begins.fails start result
    | ok given =>
        rw [bind_returned result] at same ⊢
        exact (continues given).fails (begins.returns start result) same

/-- A weaker conclusion and a stronger precondition. -/
theorem Guards.imp {pre' : σ → Prop} {post post' : α → σ → Prop} {program : Program σ ε α}
    (guards : Guards pre program post broken crash)
    (start : ∀ {state : σ}, pre' state → pre state)
    (ends : ∀ {value : α} {state : σ}, post value state → post' value state)
    : Guards pre' program post' broken crash where
  passes := fun holds => guards.passes (start holds)
  returns := fun holds same => ends (guards.returns (start holds) same)
  fails := fun holds same => guards.fails (start holds) same

/-- A program after an observation whose outcome is known. -/
theorem Guards.bind_known {middle : σ → Prop} {post : β → σ → Prop} {compute : σ → Except ε α}
    {next : α → Program σ ε β} {value : α}
    (known : ∀ {state : σ}, pre state → compute state = .ok value ∧ middle state)
    (continues : Guards middle (next value) post broken crash)
    : Guards pre (Program.observe compute >>= next) post broken crash := by
  have observed : Guards pre (Program.observe compute)
      (fun given state => given = value ∧ middle state) broken crash := by
    refine .observe (fun start same => ⟨?_, (known start).2⟩) fun start failed => ?_
    · exact Except.ok.inj (same.symm.trans (known start).1)
    · cases failed.symm.trans (known start).1
  refine observed.bind fun given => ⟨?_, ?_, ?_⟩
  · rintro state ⟨rfl, holds⟩
    exact continues.passes holds
  · rintro state result ⟨rfl, holds⟩
    exact continues.returns holds
  · rintro state error ⟨rfl, holds⟩
    exact continues.fails holds

/-- A precondition with something that is given. -/
theorem Guards.exists {ι : Sort*} {pre : ι → σ → Prop} {post : α → σ → Prop}
    {program : Program σ ε α}
    (guards : ∀ (given : ι), Guards (pre given) program post broken crash)
    : Guards (fun state => ∃ given, pre given state) program post broken crash where
  passes := fun ⟨given, holds⟩ => (guards given).passes holds
  returns := fun ⟨given, holds⟩ => (guards given).returns holds
  fails := fun ⟨given, holds⟩ => (guards given).fails holds

/-- A precondition with a fact about no state. -/
theorem Guards.given {fact : Prop} {post : α → σ → Prop} {program : Program σ ε α}
    (guards : fact → Guards pre program post broken crash)
    : Guards (fun state => pre state ∧ fact) program post broken crash where
  passes := fun ⟨holds, known⟩ => (guards known).passes holds
  returns := fun ⟨holds, known⟩ => (guards known).returns holds
  fails := fun ⟨holds, known⟩ => (guards known).fails holds

/-- The rule of folds, by induction on the list: an invariant of the items that are left. -/
theorem Guards.foldlM {P : List β → α → σ → Prop} {f : α → β → Program σ ε α}
    (step
      : ∀ (value : α) (item : β) (rest : List β),
          Guards (P (item :: rest) value) (f value item) (P rest) broken crash)
    (list : List β) (value : α)
    : Guards (P list value) (list.foldlM f value) (P []) broken crash := by
  induction list generalizing value with
  | nil => exact .pure id
  | cons item rest ih =>
      rw [List.foldlM_cons]
      exact (step value item rest).bind fun later => ih later

/-- The rule of loops, by induction on the list. -/
theorem Guards.forM {f : β → Program σ ε PUnit} {list : List β}
    (step : ∀ item ∈ list, Guards pre (f item) (fun _ => pre) broken crash)
    : Guards pre (list.forM f) (fun _ => pre) broken crash := by
  induction list with
  | nil => exact .pure id
  | cons item rest ih =>
      obtain ⟨here, later⟩ := List.forall_mem_cons.mp step
      exact here.bind fun _ => ih later

/-- What is bounded when a program returns, and not before. -/
theorem Guards.returned {post : α → σ → Prop} {program : Program σ ε α}
    (returns
      : ∀ {state : σ} {value : α},
          pre state
          → (program state).result = .ok value
          → post value (program state).last)
    : Guards pre program post (fun _ _ => True) (fun _ => True) :=
  ⟨fun _ _ _ => trivial, returns, fun _ _ => trivial⟩

/-- What holds of every state that may be found after a run. -/
theorem Guards.visible {post : α → σ → Prop} {program : Program σ ε α}
    (guards : Guards pre program post broken crash)
    (returned : ∀ {value : α} {state : σ}, post value state → crash state)
    (failed : ∀ {error : ε} {state : σ}, broken error state → crash state) {state : σ}
    (start : pre state)
    : ∀ seen ∈ (program state).visible, crash seen := by
  intro seen member
  rcases List.mem_append.mp member with early | last
  · exact guards.passes start seen early
  · rw [List.mem_singleton.mp last]
    cases result : (program state).result with
    | ok value => exact returned (guards.returns start result)
    | error error => exact failed (guards.fails start result)

-----------------------------------------------------------------------------------------
-- Runs in one direction
-----------------------------------------------------------------------------------------

/-- (Evolves R pre program post) holds when from every state with `pre` each state that the
program passes is related to all earlier ones, the run stops at one of them to which no later
one follows, and it returns with `post`.
-/
structure Evolves (R : σ → σ → Prop) (pre : σ → Prop) (program : Program σ ε α)
    (post : α → σ → Prop)
    : Prop where
  ordered : ∀ {state : σ}, pre state → (state :: (program state).passed).Pairwise R
  reaches : ∀ {state : σ}, pre state → (program state).last ∈ state :: (program state).passed
  ends
    : ∀ {state : σ},
        pre state
        → ∀ seen ∈ state :: (program state).passed,
            seen = (program state).last ∨ R seen (program state).last
  returns
    : ∀ {state : σ} {value : α},
        pre state
        → (program state).result = .ok value
        → post value (program state).last

section Evolves

variable {R : σ → σ → Prop} {post : α → σ → Prop}

/-- A program that changes nothing. -/
theorem Evolves.unchanged {program : Program σ ε α} (still : ∀ state, (program state).passed = [])
    (stays : ∀ state, (program state).last = state)
    (returns
      : ∀ {state : σ} {value : α},
          pre state
          → (program state).result = .ok value
          → post value state)
    : Evolves R pre program post := by
  constructor
  case ordered =>
    intro state start
    rw [still]
    exact List.pairwise_singleton R state
  case reaches =>
    intro state start
    rw [stays]
    exact List.mem_cons_self
  case ends =>
    intro state start seen member
    rw [still, List.mem_singleton] at member
    exact Or.inl (member.trans (stays state).symm)
  case returns =>
    intro state value start same
    rw [stays]
    exact returns start same

/-- A returned value. -/
theorem Evolves.pure {value : α} (holds : ∀ {state : σ}, pre state → post value state)
    : Evolves R pre (pure value : Program σ ε α) post :=
  .unchanged (fun _ => rfl) (fun _ => rfl) fun start same => Except.ok.inj same ▸ holds start

/-- An observation. -/
theorem Evolves.observe {compute : σ → Except ε α}
    (returns : ∀ {state : σ} {value : α}, pre state → compute state = .ok value → post value state)
    : Evolves R pre (Program.observe compute) post :=
  .unchanged (fun _ => rfl) (fun _ => rfl) returns

/-- A computation without the state, whose precondition stays. -/
theorem Evolves.lift {outcome : Except ε α}
    : Evolves R pre (Program.lift outcome) (fun _ => pre) :=
  .observe fun start _ => start

/-- A program that makes one step at most. -/
theorem Evolves.stepped {program : Program σ ε α}
    (steps
      : ∀ {state : σ},
          pre state
          → (program state).passed = [] ∧ (program state).last = state
            ∨ (program state).passed = [(program state).last] ∧ R state (program state).last)
    (returns
      : ∀ {state : σ} {value : α},
          pre state
          → (program state).result = .ok value
          → post value (program state).last)
    : Evolves R pre program post := by
  constructor
  case ordered =>
    intro state start
    rcases steps start with ⟨still, -⟩ | ⟨one, related⟩
    · rw [still]
      exact List.pairwise_singleton R state
    · rw [one]
      exact List.pairwise_pair.mpr related
  case reaches =>
    intro state start
    rcases steps start with ⟨-, stays⟩ | ⟨one, -⟩
    · rw [stays]
      exact List.mem_cons_self
    · rw [one]
      exact List.mem_cons_of_mem state List.mem_cons_self
  case ends =>
    intro state start seen member
    rcases steps start with ⟨still, stays⟩ | ⟨one, related⟩
    · rw [still, List.mem_singleton] at member
      exact Or.inl (member.trans stays.symm)
    · rw [one] at member
      rcases List.mem_cons.mp member with rfl | last
      · exact Or.inr related
      · exact Or.inl (List.mem_singleton.mp last)
  case returns => exact returns

/-- An atomic change. -/
theorem Evolves.change {post : Unit → σ → Prop} {effect : σ → σ}
    (related : ∀ {state : σ}, pre state → R state (effect state))
    (returns : ∀ {state : σ}, pre state → post () (effect state))
    : Evolves R pre (Program.change effect : Program σ ε Unit) post :=
  .stepped (fun start => Or.inr ⟨rfl, related start⟩) fun start _ => returns start

/-- An atomic change that may be refused. -/
theorem Evolves.advance {post : Unit → σ → Prop} {effect : σ → Except ε σ}
    (related : ∀ {state after : σ}, pre state → effect state = .ok after → R state after)
    (returns : ∀ {state after : σ}, pre state → effect state = .ok after → post () after)
    : Evolves R pre (Program.advance effect) post := by
  refine .stepped (fun {state} start => ?_) fun {state value} start same => ?_
  · cases outcome : effect state with
    | ok after =>
        rw [Program.advance, outcome]
        exact Or.inr ⟨rfl, related start outcome⟩
    | error error =>
        rw [Program.advance, outcome]
        exact Or.inl ⟨rfl, rfl⟩
  · cases outcome : effect state with
    | ok after =>
        rw [Program.advance, outcome]
        exact returns start outcome
    | error error =>
        rw [Program.advance, outcome] at same
        cases same

/-- The rule of sequences. -/
theorem Evolves.bind [IsTrans σ R] {middle : α → σ → Prop} {post : β → σ → Prop}
    {first : Program σ ε α} {next : α → Program σ ε β} (begins : Evolves R pre first middle)
    (continues : ∀ (value : α), Evolves R (middle value) (next value) post)
    : Evolves R pre (first >>= next) post := by
  -- a run is that of the first part alone, or goes on from where that part stopped
  have split : ∀ {state : σ}, pre state →
      (∃ error, (first >>= next) state
        = ⟨(first state).passed, (first state).last, .error error⟩)
      ∨ ∃ value, middle value (first state).last
        ∧ (first >>= next) state
          = ⟨(first state).passed ++ (next value (first state).last).passed,
              (next value (first state).last).last, (next value (first state).last).result⟩ := by
    intro state start
    cases result : (first state).result with
    | error error => exact Or.inl ⟨error, bind_failed result⟩
    | ok value => exact Or.inr ⟨value, begins.returns start result, bind_returned result⟩
  constructor
  case ordered =>
    intro state start
    rcases split start with ⟨error, run⟩ | ⟨value, holds, run⟩
    · rw [run]
      exact begins.ordered start
    · have later := List.pairwise_cons.mp ((continues value).ordered holds)
      rw [run, ← List.cons_append]
      refine List.pairwise_append.mpr ⟨begins.ordered start, later.2, ?_⟩
      intro seen early after late
      rcases begins.ends start seen early with rfl | related
      · exact later.1 after late
      · exact IsTrans.trans _ _ _ related (later.1 after late)
  case reaches =>
    intro state start
    rcases split start with ⟨error, run⟩ | ⟨value, holds, run⟩
    · rw [run]
      exact begins.reaches start
    · rw [run, ← List.cons_append]
      rcases List.mem_cons.mp ((continues value).reaches holds) with stays | moves
      · refine List.mem_append_left _ ?_
        change (next value (first state).last).last ∈ _
        rw [stays]
        exact begins.reaches start
      · exact List.mem_append_right _ moves
  case ends =>
    intro state start
    rcases split start with ⟨error, run⟩ | ⟨value, holds, run⟩
    · rw [run]
      exact begins.ends start
    · rw [run, ← List.cons_append]
      have middle := (continues value).ends holds _ List.mem_cons_self
      intro seen member
      rcases List.mem_append.mp member with early | late
      · rcases begins.ends start seen early with rfl | related
        · exact middle
        · rcases middle with same | further
          · exact Or.inr (same ▸ related)
          · exact Or.inr (IsTrans.trans _ _ _ related further)
      · exact (continues value).ends holds seen (List.mem_cons_of_mem _ late)
  case returns =>
    intro state value start same
    rcases split start with ⟨error, run⟩ | ⟨value, holds, run⟩
    · rw [run] at same
      cases same
    · rw [run] at same ⊢
      exact (continues value).returns holds same

/-- The rule of folds, by induction on the list: what every step keeps. -/
theorem Evolves.foldlM [IsTrans σ R] {f : α → β → Program σ ε α} {list : List β}
    (step : ∀ item ∈ list, ∀ (value : α), Evolves R pre (f value item) fun _ => pre) (value : α)
    : Evolves R pre (list.foldlM f value) fun _ => pre := by
  induction list generalizing value with
  | nil => exact .pure id
  | cons item rest ih =>
      obtain ⟨here, later⟩ := List.forall_mem_cons.mp step
      rw [List.foldlM_cons]
      exact (here value).bind (ih later)

/-- The rule of loops, by induction on the list. -/
theorem Evolves.forM [IsTrans σ R] {f : β → Program σ ε PUnit} {list : List β}
    (step : ∀ item ∈ list, Evolves R pre (f item) fun _ => pre)
    : Evolves R pre (list.forM f) fun _ => pre := by
  induction list with
  | nil => exact .pure id
  | cons item rest ih =>
      obtain ⟨here, later⟩ := List.forall_mem_cons.mp step
      exact here.bind fun _ => ih later

end Evolves

end Program

end Foundation
