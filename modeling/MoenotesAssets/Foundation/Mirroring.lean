import MoenotesAssets.Foundation.Interruptible
import MoenotesAssets.Foundation.Loop

/-! Programs over a state against computations without one. The rules show, in the order of
the program, that its results are those of the computation, whatever the state it starts in.
-/

namespace Foundation.Program

variable {σ ε α β γ δ τ υ : Type}

-----------------------------------------------------------------------------------------
-- Loops and outcomes
-----------------------------------------------------------------------------------------

/-- Rounds of a body until it stops; a body that goes on is run `rounds` times at most. -/
def iterate (body : τ → Program σ ε (Option τ)) : (rounds : Nat) → τ → Program σ ε τ
  | 0, value => pure value
  | rounds + 1, value => do
      match ← body value with
      | none => return value
      | some next => iterate body rounds next

/-- What a program that returns hands on: its value and the last state. -/
def outcome (program : Program σ ε α) (state : σ) : Except ε (α × σ) :=
  match (program state).result with
  | .ok value => .ok (value, (program state).last)
  | .error error => .error error

/-- The outcome of a returned value. -/
@[simp] theorem outcome_pure (value : α) (state : σ)
    : (pure value : Program σ ε α).outcome state = .ok (value, state) := rfl

/-- The outcome of what is computed without the state. -/
@[simp] theorem outcome_lift (computed : Except ε α) (state : σ)
    : (lift computed).outcome state = computed >>= fun value => .ok (value, state) := by
  cases computed <;> rfl

/-- The outcome of an observation. -/
@[simp] theorem outcome_observe (compute : σ → Except ε α) (state : σ)
    : (observe compute).outcome state = compute state >>= fun value => .ok (value, state) := by
  unfold outcome observe
  cases compute state <;> rfl

/-- The outcome of a change. -/
@[simp] theorem outcome_change (effect : σ → σ) (state : σ)
    : (change effect : Program σ ε Unit).outcome state = .ok ((), effect state) := rfl

/-- The outcome of a sequence. -/
@[simp] theorem outcome_bind (first : Program σ ε α) (next : α → Program σ ε β) (state : σ)
    : (first >>= next).outcome state
      = first.outcome state >>= fun given => (next given.1).outcome given.2 := by
  unfold outcome
  cases returned : (first state).result with
  | ok value =>
      rw [bind_returned returned]
      rfl
  | error error =>
      rw [bind_failed returned]
      rfl

/-- The outcome of a choice. -/
@[simp] theorem outcome_ite (condition : Prop) [Decidable condition] (left right : Program σ ε α)
    (state : σ)
    : (if condition then left else right).outcome state
      = if condition then left.outcome state else right.outcome state := by
  split <;> rfl

/-- The outcome of a loop is that of a loop over the joined state, by induction on its
rounds, when the one of the body is.
-/
theorem outcome_iterate {body : τ → Program σ ε (Option τ)} {joined : υ → Except ε (Option υ)}
    {join : τ → σ → υ}
    (same
      : ∀ (value : τ) (state : σ),
          joined (join value state)
            = (body value).outcome state >>= fun given =>
                .ok (given.1.map fun next => join next given.2))
    (stays : ∀ {value : τ} {state after : σ},
      (body value).outcome state = .ok (none, after) → after = state)
    {value : τ} {state : σ} {count : Nat} {last : Except ε υ}
    (run : Rounds joined (join value state) count last) {rounds : Nat} (enough : count < rounds)
    : ((iterate body rounds value).outcome state >>= fun given => .ok (join given.1 given.2))
      = last := by
  generalize begun : join value state = start at run
  induction run generalizing value state rounds with
  | @failed _ error round =>
      obtain _ | rounds := rounds
      · exact absurd enough (Nat.not_lt_zero _)
      rw [← begun, same] at round
      rw [iterate, outcome_bind]
      cases outcome : (body value).outcome state with
      | error given =>
          rw [outcome] at round
          cases round
          rfl
      | ok given =>
          rw [outcome] at round
          cases round
  | stopped round =>
      obtain _ | rounds := rounds
      · exact absurd enough (Nat.not_lt_zero _)
      rw [← begun, same] at round
      rw [iterate, outcome_bind]
      obtain ⟨⟨next, after⟩, outcome, ends⟩ := bind_ok.mp round
      cases next with
      | some next => cases ends
      | none =>
          obtain rfl := stays outcome
          rw [outcome, ← begun]
          rfl
  | continued round _ ih =>
      obtain _ | rounds := rounds
      · exact absurd enough (Nat.not_lt_zero _)
      rw [← begun, same] at round
      rw [iterate, outcome_bind]
      obtain ⟨⟨next, after⟩, outcome, ends⟩ := bind_ok.mp round
      cases next with
      | none => cases ends
      | some next =>
          rw [outcome]
          exact ih (by omega) (Option.some.inj (Except.ok.inj ends))

/-- A program whose value is only changed. -/
theorem map_run (program : Program σ ε α) (change : α → β) (state : σ)
    : (do return change (← program) : Program σ ε β) state
      = ⟨(program state).passed, (program state).last, (program state).result.map change⟩ := by
  cases result : (program state).result with
  | ok value =>
      have returned : (pure (change value) : Program σ ε β) (program state).last
          = ⟨[], (program state).last, .ok (change value)⟩ := rfl
      rw [bind_returned result, returned, List.append_nil]
      rfl
  | error error =>
      rw [bind_failed result]
      rfl

-----------------------------------------------------------------------------------------
-- Mirrors
-----------------------------------------------------------------------------------------

/-- (Mirrors pre program plain post broken excuse) holds when from every state with `pre` the
program returns what `plain` computes, with `post`, or fails as `plain` does, with `broken`;
a failure with `excuse` is exempt.
-/
structure Mirrors (pre : σ → Prop) (program : Program σ ε α) (plain : Except ε β)
    (post : α → β → σ → Prop) (broken : σ → Prop) (excuse : ε → σ → Prop)
    : Prop where
  returns
    : ∀ {state : σ} {value : α},
        pre state
        → (program state).result = .ok value
        → ∃ other, plain = .ok other ∧ post value other (program state).last
  fails
    : ∀ {state : σ} {error : ε},
        pre state
        → (program state).result = .error error
        → plain = .error error ∧ broken (program state).last
          ∨ excuse error (program state).last

variable {pre broken : σ → Prop} {excuse : ε → σ → Prop}

/-- A returned value. -/
theorem Mirrors.pure {post : α → β → σ → Prop} {value : α} {other : β}
    (holds : ∀ {state : σ}, pre state → post value other state)
    : Mirrors pre (pure value : Program σ ε α) (.ok other) post broken excuse where
  returns := fun start same => ⟨other, rfl, Except.ok.inj same ▸ holds start⟩
  fails := fun _ same => by cases same

/-- A weaker conclusion and a stronger precondition. -/
theorem Mirrors.imp {pre' broken' : σ → Prop} {excuse' : ε → σ → Prop}
    {post post' : α → β → σ → Prop} {program : Program σ ε α} {plain : Except ε β}
    (mirrors : Mirrors pre program plain post broken excuse)
    (start : ∀ {state : σ}, pre' state → pre state)
    (ends
      : ∀ {value : α} {other : β} {state : σ}, post value other state → post' value other state)
    (breaks : ∀ {state : σ}, broken state → broken' state)
    (excuses : ∀ {error : ε} {state : σ}, excuse error state → excuse' error state)
    : Mirrors pre' program plain post' broken' excuse' where
  returns := fun holds same => by
    obtain ⟨other, found, after⟩ := mirrors.returns (start holds) same
    exact ⟨other, found, ends after⟩
  fails := fun holds same =>
    (mirrors.fails (start holds) same).imp (And.imp_right breaks) excuses

/-- A precondition with a fact that does not depend on the state. -/
theorem Mirrors.given {fact : Prop} {post : α → β → σ → Prop} {program : Program σ ε α}
    {plain : Except ε β} (mirrors : fact → Mirrors pre program plain post broken excuse)
    : Mirrors (fun state => fact ∧ pre state) program plain post broken excuse where
  returns := fun start same => (mirrors start.1).returns start.2 same
  fails := fun start same => (mirrors start.1).fails start.2 same

/-- The rule of sequences. -/
theorem Mirrors.bind {middle : α → β → σ → Prop} {post : γ → δ → σ → Prop}
    {first : Program σ ε α} {next : α → Program σ ε γ} {plain : Except ε β}
    {plainNext : β → Except ε δ} (begins : Mirrors pre first plain middle broken excuse)
    (continues
      : ∀ {value : α} {other : β},
          plain = .ok other
          → Mirrors (middle value other) (next value) (plainNext other) post broken excuse)
    : Mirrors pre (first >>= next) (plain >>= plainNext) post broken excuse := by
  constructor
  case returns =>
    intro state value start same
    cases result : (first state).result with
    | error error =>
        rw [bind_failed result] at same
        cases same
    | ok given =>
        obtain ⟨other, found, holds⟩ := begins.returns start result
        rw [bind_returned result] at same ⊢
        rw [found, ok_bind]
        exact (continues found).returns holds same
  case fails =>
    intro state error start same
    cases result : (first state).result with
    | error given =>
        rw [bind_failed result] at same ⊢
        obtain rfl := Except.error.inj same
        refine (begins.fails start result).imp (fun ⟨found, holds⟩ => ⟨?_, holds⟩) id
        rw [found]
        rfl
    | ok given =>
        obtain ⟨other, found, holds⟩ := begins.returns start result
        rw [bind_returned result] at same ⊢
        rw [found, ok_bind]
        exact (continues found).fails holds same

/-- The rule of sequences that begin without the state. -/
theorem Mirrors.lift_bind {post : γ → δ → σ → Prop} {computed : Except ε α}
    {next : α → Program σ ε γ} {plainNext : α → Except ε δ}
    (continues
      : ∀ {value : α},
          computed = .ok value → Mirrors pre (next value) (plainNext value) post broken excuse)
    (breaks : ∀ {state : σ}, pre state → broken state)
    : Mirrors pre (lift computed >>= next) (computed >>= plainNext) post broken excuse := by
  cases computed with
  | ok value => exact continues rfl
  | error error =>
      constructor
      case returns => exact fun _ same => by cases same
      case fails =>
        exact fun start same => Or.inl ⟨congrArg _ (Except.error.inj same), breaks start⟩

/-- A value that is computed without the state. -/
theorem Mirrors.lift_map {post : α → β → σ → Prop} {computed : Except ε α} {other : α → β}
    (holds
      : ∀ {value : α},
          computed = .ok value → ∀ {state : σ}, pre state → post value (other value) state)
    (breaks : ∀ {state : σ}, pre state → broken state)
    : Mirrors pre (lift computed) (computed >>= fun value => .ok (other value)) post broken
        excuse := by
  cases computed with
  | ok value => exact .pure (holds rfl)
  | error error =>
      constructor
      case returns => exact fun _ same => by cases same
      case fails =>
        exact fun start same => Or.inl ⟨congrArg _ (Except.error.inj same), breaks start⟩

/-- The rule of failures. -/
theorem Mirrors.fail {post : α → β → σ → Prop} {error : ε}
    (breaks : ∀ {state : σ}, pre state → broken state)
    : Mirrors pre (lift (.error error) : Program σ ε α) (.error error) post broken excuse where
  returns := fun _ same => by cases same
  fails := fun start same => Or.inl ⟨congrArg _ (Except.error.inj same), breaks start⟩

/-- The rule of loops, by induction on the rounds of the loop without a state. -/
theorem Mirrors.iterate {I : τ → σ → Prop} {body : τ → Program σ ε (Option τ)}
    {plain : τ → Except ε (Option τ)}
    (round
      : ∀ {value : τ},
          Mirrors (I value) (body value) (plain value)
            (fun next other state =>
              other = next ∧ (next.elim (I value state) fun after => I after state))
            broken excuse)
    {value : τ} {count : Nat} {last : Except ε τ} (run : Rounds plain value count last)
    {rounds : Nat} (enough : count < rounds)
    : Mirrors (I value) (iterate body rounds value) last
        (fun final other state => other = final ∧ I final state) broken excuse := by
  induction run generalizing rounds with
  | @failed value error ended =>
      obtain _ | rounds := rounds
      · exact absurd enough (Nat.not_lt_zero _)
      have whole : (Except.error error : Except ε τ) = plain value >>= fun _ => .ok value := by
        rw [ended]
        rfl
      rw [whole]
      refine round.bind fun found => ?_
      cases ended.symm.trans found
  | @stopped value ended =>
      obtain _ | rounds := rounds
      · exact absurd enough (Nat.not_lt_zero _)
      have whole : (Except.ok value : Except ε τ) = plain value >>= fun _ => .ok value := by
        rw [ended]
        rfl
      rw [whole]
      refine round.bind fun {next other} found => ?_
      obtain rfl := Except.ok.inj (ended.symm.trans found)
      refine .given fun same => ?_
      subst same
      exact .pure fun holds => ⟨rfl, holds⟩
  | @continued value after count last ended _ ih =>
      obtain _ | rounds := rounds
      · exact absurd enough (Nat.not_lt_zero _)
      have whole : last = plain value >>= fun _ => last := by
        rw [ended]
        rfl
      rw [whole]
      refine round.bind fun {next other} found => ?_
      obtain rfl := Except.ok.inj (ended.symm.trans found)
      refine .given fun same => ?_
      subst same
      exact ih (Nat.lt_of_succ_lt_succ enough)

end Foundation.Program
