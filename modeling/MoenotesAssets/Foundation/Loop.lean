import MoenotesAssets.Foundation.Fallible
import Mathlib.Order.Basic

/-! Loops whose body fails, stops or continues with a new state. A measure that every
continuing round lowers makes them total.
-/

namespace Foundation

universe u v w

variable {σ : Type u} {ε : Type v} {τ : Type w}

/-- Every round that continues lowers the measure. -/
def Lowers (body : σ → Except ε (Option σ)) (measure : σ → Nat) : Prop :=
  ∀ (state after : σ), body state = .ok (some after) → measure after < measure state

/-- What follows a round: the error, the state when the body stops, or the rest. -/
def following (state : σ)
    : (round : Except ε (Option σ))
      → ((after : σ) → round = .ok (some after) → Except ε σ)
      → Except ε σ
  | .error error, _ => .error error
  | .ok none, _ => .ok state
  | .ok (some after), rest => rest after rfl

/-- The loop from a state whose measure is below `fuel`. -/
def loopBelow {body : σ → Except ε (Option σ)} {measure : σ → Nat}
    (lowers : Lowers body measure)
    : (fuel : Nat) → (state : σ) → measure state < fuel → Except ε σ
  | 0, _, below => absurd below (Nat.not_lt_zero _)
  | fuel + 1, state, below =>
      following state (body state) fun after round =>
        loopBelow lowers fuel after
          (Nat.lt_of_lt_of_le (lowers _ _ round) (Nat.le_of_lt_succ below))

/-- Running the body until it fails or stops. -/
def loop (body : σ → Except ε (Option σ)) {measure : σ → Nat} (lowers : Lowers body measure)
    (state : σ)
    : Except ε σ :=
  loopBelow lowers (measure state + 1) state (Nat.lt_succ_self _)

/-- (Rounds body state count outcome) holds when the loop ends with `outcome` after `count`
rounds that continue.
-/
inductive Rounds (body : σ → Except ε (Option σ)) : σ → Nat → Except ε σ → Prop where
  | failed {state error} (round : body state = .error error)
    : Rounds body state 0 (.error error)
  | stopped {state} (round : body state = .ok none) : Rounds body state 0 (.ok state)
  | continued {state after count outcome} (round : body state = .ok (some after))
    (rest : Rounds body after count outcome)
    : Rounds body state (count + 1) outcome

variable {body : σ → Except ε (Option σ)} {measure : σ → Nat}

/-- The rounds of a loop are its first one and those that follow. -/
theorem following_rounds {state : σ} {round : Except ε (Option σ)}
    (kind : body state = round)
    {rest : (after : σ) → round = .ok (some after) → Except ε σ} {bound : Nat}
    (later
      : ∀ (after : σ) (next : round = .ok (some after)),
          ∃ count, count + 1 ≤ bound ∧ Rounds body after count (rest after next))
    : ∃ count ≤ bound, Rounds body state count (following state round rest) := by
  match round with
  | .error error => exact ⟨0, Nat.zero_le _, .failed kind⟩
  | .ok none => exact ⟨0, Nat.zero_le _, .stopped kind⟩
  | .ok (some after) =>
      obtain ⟨count, below, rounds⟩ := later after rfl
      exact ⟨count + 1, below, .continued kind rounds⟩

/-- One round of the loop. -/
theorem loopBelow_succ (lowers : Lowers body measure) {fuel : Nat} {state : σ}
    (below : measure state < fuel + 1)
    : loopBelow lowers (fuel + 1) state below
      = following state (body state) fun after round =>
          loopBelow lowers fuel after
            (Nat.lt_of_lt_of_le (lowers _ _ round) (Nat.le_of_lt_succ below)) := rfl

/-- The loop runs its body as often as the measure allows at most, by induction on the
fuel.
-/
theorem loopBelow_rounds (lowers : Lowers body measure) (fuel : Nat) {state : σ}
    (below : measure state < fuel)
    : ∃ count ≤ measure state, Rounds body state count (loopBelow lowers fuel state below) := by
  induction fuel generalizing state with
  | zero => exact absurd below (Nat.not_lt_zero _)
  | succ fuel ih =>
      rw [loopBelow_succ]
      refine following_rounds rfl fun after next => ?_
      have lower := lowers _ _ next
      obtain ⟨count, bound, rounds⟩ := ih (Nat.lt_of_lt_of_le lower (Nat.le_of_lt_succ below))
      exact ⟨count, by omega, rounds⟩

/-- The loop runs its body as often as the measure allows at most. -/
theorem loop_rounds (lowers : Lowers body measure) (state : σ)
    : ∃ count ≤ measure state, Rounds body state count (loop body lowers state) :=
  loopBelow_rounds lowers _ _

/-- The rule of loops: what the body preserves holds when the loop stops, and the body then
asks to stop.
-/
theorem Rounds.invariant {P : σ → Prop} {state : σ} {count : Nat} {outcome : Except ε σ}
    (rounds : Rounds body state count outcome)
    (preserved : ∀ {state after}, P state → body state = .ok (some after) → P after)
    (holds : P state)
    : (∃ last, outcome = .ok last ∧ P last ∧ body last = .ok none)
      ∨ ∃ last error, outcome = .error error ∧ P last ∧ body last = .error error := by
  induction rounds with
  | failed round => exact Or.inr ⟨_, _, rfl, holds, round⟩
  | stopped round => exact Or.inl ⟨_, rfl, holds, round⟩
  | continued round _ ih => exact ih (preserved holds round)

/-- The rule of loops for a loop that stopped. -/
theorem loop_invariant {P : σ → Prop} {lowers : Lowers body measure} {state last : σ}
    (stopped : loop body lowers state = .ok last)
    (preserved : ∀ {state after}, P state → body state = .ok (some after) → P after)
    (holds : P state)
    : P last ∧ body last = .ok none := by
  obtain ⟨count, -, rounds⟩ := loop_rounds lowers state
  rcases rounds.invariant preserved holds with ⟨final, same, facts⟩ | ⟨final, error, same, -⟩
  · obtain rfl := Except.ok.inj (stopped.symm.trans same)
    exact facts
  · cases stopped.symm.trans same

/-- The rule of loops for a loop that failed. -/
theorem loop_failed {P : σ → Prop} {lowers : Lowers body measure} {state : σ} {error : ε}
    (failed : loop body lowers state = .error error)
    (preserved : ∀ {state after}, P state → body state = .ok (some after) → P after)
    (holds : P state)
    : ∃ last, P last ∧ body last = .error error := by
  obtain ⟨count, -, rounds⟩ := loop_rounds lowers state
  rcases rounds.invariant preserved holds with ⟨final, same, -⟩ | ⟨final, other, same, facts⟩
  · cases failed.symm.trans same
  · obtain rfl := Except.error.inj (failed.symm.trans same)
    exact ⟨final, facts⟩

/-- A loop that stops is determined by its rounds. -/
theorem Rounds.unique {state : σ} {left right : Nat} {first second : Except ε σ}
    (one : Rounds body state left first) (other : Rounds body state right second)
    : left = right ∧ first = second := by
  induction one generalizing right with
  | failed round =>
      cases other with
      | failed again => exact ⟨rfl, by rw [Except.error.inj (round.symm.trans again)]⟩
      | stopped again => cases round.symm.trans again
      | continued again => cases round.symm.trans again
  | stopped round =>
      cases other with
      | failed again => cases round.symm.trans again
      | stopped => exact ⟨rfl, rfl⟩
      | continued again => cases round.symm.trans again
  | continued round _ ih =>
      cases other with
      | failed again => cases round.symm.trans again
      | stopped again => cases round.symm.trans again
      | continued again rest =>
          obtain rfl := Option.some.inj (Except.ok.inj (round.symm.trans again))
          obtain ⟨rfl, same⟩ := ih rest
          exact ⟨rfl, same⟩

/-- Simulation of loops: when the rounds of one loop are rounds of another one on related
states and it stops, so does the other one, in a related state.
-/
theorem loop_simulates {body' : τ → Except ε (Option τ)} {measure' : τ → Nat}
    {lowers : Lowers body measure} {lowers' : Lowers body' measure'} {R : σ → τ → Prop}
    (continues
      : ∀ {state related after},
          R state related
          → body state = .ok (some after)
          → ∃ next, body' related = .ok (some next) ∧ R after next)
    (stops
      : ∀ {state related},
          R state related → body state = .ok none → body' related = .ok none)
    {state last : σ} {related : τ} (start : R state related)
    (stopped : loop body lowers state = .ok last)
    : ∃ final, loop body' lowers' related = .ok final ∧ R last final := by
  obtain ⟨count, -, rounds⟩ := loop_rounds lowers state
  rw [stopped] at rounds
  have follows : ∃ final, Rounds body' related count (.ok final) ∧ R last final := by
    clear stopped
    generalize ended : (Except.ok last : Except ε σ) = outcome at rounds
    induction rounds generalizing related with
    | failed => cases ended
    | stopped round =>
        obtain rfl := Except.ok.inj ended
        exact ⟨related, .stopped (stops start round), start⟩
    | continued round _ ih =>
        obtain ⟨next, taken, holds⟩ := continues start round
        obtain ⟨final, rest, ends⟩ := ih holds ended
        exact ⟨final, .continued taken rest, ends⟩
  obtain ⟨final, rounds', ends⟩ := follows
  obtain ⟨_, -, own⟩ := loop_rounds lowers' related
  exact ⟨final, (own.unique rounds').2, ends⟩

/-- The rule of loops for bodies that do not panic: every round keeps `P`. -/
theorem Yields.loop {body : σ → Except Failure (Option σ)} {P : σ → Prop}
    {lowers : Lowers body measure} {state : σ}
    (round : ∀ {state : σ}, P state → Yields (fun after => ∀ next ∈ after, P next) (body state))
    (start : P state)
    : Yields P (loop body lowers state) := by
  have preserved : ∀ {state after : σ}, P state → body state = .ok (some after) → P after :=
    fun holds same => (round holds).holds same _ rfl
  constructor
  case calm =>
    intro message failed
    obtain ⟨last, holds, panics⟩ := loop_failed failed preserved start
    exact (round holds).calm message panics
  case holds => exact fun stopped => (loop_invariant stopped preserved start).1

end Foundation
