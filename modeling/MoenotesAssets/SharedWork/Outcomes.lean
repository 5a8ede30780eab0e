import MoenotesAssets.SharedWork.Accounting

/-! One producer per `Shared`, one published outcome, and the same outcome for every
caller that attached to it. The laws are read off the trace of the whole run.
-/

namespace MoenotesAssets.SharedWork

open Foundation Foundation.Arena Foundation.Machine

variable {T : Type}

-----------------------------------------------------------------------------------------
-- Producer labels
-----------------------------------------------------------------------------------------

/-- The `Shared` whose producer takes a step. -/
def Label.producer? : Label T → Option Nat
  | .start shared | .complete shared _ | .fail shared _ | .panic shared
  | .publish shared _ | .finish shared => some shared
  | _ => none

/-- Whether a label is the call of the `create` closure of `shared`. -/
def Label.starts (shared : Nat) : Label T → Bool
  | .start other => other == shared
  | _ => false

/-- Whether a label stores an outcome in `shared`. -/
def Label.publishes (shared : Nat) : Label T → Bool
  | .publish other _ => other == shared
  | _ => false

/-- The calls of `create` a producer has made. -/
def Producer.starts : Producer T → Nat
  | .spawned => 0
  | _ => 1

/-- The outcomes a producer has stored. -/
def Producer.publishes : Producer T → Nat
  | .published | .ended => 1
  | _ => 0

/-- A producer step is labelled with its own `Shared`. -/
theorem ProducerStep.producer? {shared : Nat} {entry entry' : Shared T} {label : Label T}
    (moved : ProducerStep shared entry label entry')
    : label.producer? = some shared := by
  cases moved <;> rfl

/-- A handle step is not labelled as a producer step. -/
theorem HandleStep.producer? {index shared : Nat} {caller caller' : Caller T}
    {entry entry' : Shared T} {label : Label T}
    (moved : HandleStep index shared caller entry label caller' entry')
    : label.producer? = none := by
  cases moved <;> rfl

/-- Only a label of `shared`'s own producer starts it. -/
theorem Label.starts_eq_false {label : Label T} {shared : Nat}
    (other : label.producer? ≠ some shared)
    : label.starts shared = false := by
  cases label <;> simp_all [Label.starts, Label.producer?]

/-- Only a label of `shared`'s own producer publishes in it. -/
theorem Label.publishes_eq_false {label : Label T} {shared : Nat}
    (other : label.producer? ≠ some shared)
    : label.publishes shared = false := by
  cases label <;> simp_all [Label.publishes, Label.producer?]

/-- What a step does to one `Shared`: its own producer moves, or its producer and result
stay, or it is allocated by the step.
-/
theorem Step.entry {state after : State T} {label : Label T} {shared : Nat}
    {entry' : Shared T} (taken : Step state label after)
    (found : after.shareds[shared]? = some entry')
    : (∃ entry, state.shareds[shared]? = some entry ∧ ProducerStep shared entry label entry')
      ∨ label.producer? ≠ some shared
        ∧ (∃ entry, state.shareds[shared]? = some entry ∧ entry'.producer = entry.producer
            ∧ entry'.result = entry.result)
      ∨ label.producer? ≠ some shared ∧ shared = state.shareds.length
        ∧ ∃ key, entry' = Shared.new key := by
  cases taken with
  | enter => exact Or.inr (Or.inl ⟨by simp [Label.producer?], entry', found, rfl, rfl⟩)
  | attach held foundOld joined =>
      refine Or.inr (Or.inl ⟨by simp [Label.producer?], ?_⟩)
      rcases getElem?_set_cases found with ⟨rfl, rfl⟩ | ⟨_, old⟩
      · exact ⟨_, foundOld, rfl, rfl⟩
      · exact ⟨entry', old, rfl, rfl⟩
  | @create _ key _ _ _ =>
      rcases getElem?_push found with old | ⟨same, new⟩
      · exact Or.inr (Or.inl ⟨by simp [Label.producer?], entry', old, rfl, rfl⟩)
      · exact Or.inr (Or.inr ⟨by simp [Label.producer?], same, key, new⟩)
  | handle held foundOld moved =>
      refine Or.inr (Or.inl ⟨by simp [moved.producer?], ?_⟩)
      rcases getElem?_set_cases found with ⟨rfl, rfl⟩ | ⟨_, old⟩
      · obtain ⟨_, result, producer, _⟩ := moved.frame
        exact ⟨_, foundOld, producer, result⟩
      · exact ⟨entry', old, rfl, rfl⟩
  | producer foundOld moved =>
      rcases getElem?_set_cases found with ⟨rfl, rfl⟩ | ⟨different, old⟩
      · exact Or.inl ⟨_, foundOld, moved⟩
      · refine Or.inr (Or.inl ⟨?_, entry', old, rfl, rfl⟩)
        simp [moved.producer?, Ne.symm different]

/-- A `Shared` stays allocated. -/
theorem Step.keeps {state after : State T} {label : Label T} {shared : Nat}
    {entry : Shared T} (taken : Step state label after)
    (found : state.shareds[shared]? = some entry)
    : ∃ entry', after.shareds[shared]? = some entry' := by
  have below := lt_length found
  suffices shared < after.shareds.length from ⟨_, List.getElem?_eq_getElem this⟩
  cases taken <;> simp [State.enter, State.attach, State.create] <;> omega

-----------------------------------------------------------------------------------------
-- The trace and the state agree
-----------------------------------------------------------------------------------------

/-- The state remembers what the trace did: how often each `create` was called, which
outcome was stored, and who owns a handle.
-/
structure Recorded (trace : List (Label T)) (state : State T) : Prop where
  started
    : ∀ {shared : Nat} {entry : Shared T}, state.shareds[shared]? = some entry
        → trace.countP (Label.starts shared) = entry.producer.starts
  published
    : ∀ {shared : Nat} {entry : Shared T}, state.shareds[shared]? = some entry
        → trace.countP (Label.publishes shared) = entry.producer.publishes
  stored
    : ∀ {shared : Nat} {entry : Shared T}, state.shareds[shared]? = some entry
        → ∀ outcome, .publish shared outcome ∈ trace ↔ entry.result = some outcome
  panicked
    : ∀ {shared : Nat} {entry : Shared T}, state.shareds[shared]? = some entry
        → .panic shared ∈ trace
        → entry.producer = .returned terminated ∨ entry.result = some terminated
  fresh
    : ∀ {shared : Nat} {label : Label T}, label ∈ trace → label.producer? = some shared
        → shared < state.shareds.length
  received
    : ∀ {caller shared : Nat} {outcome : Outcome T}, .receive caller shared outcome ∈ trace
        → ∃ entry, state.shareds[shared]? = some entry ∧ entry.result = some outcome
  joined
    : ∀ {index shared : Nat} {caller : Caller T}, state.callers[index]? = some caller
        → caller.live? = some shared
        → .attach index shared ∈ trace ∨ .create index shared ∈ trace

/-- A `Shared` that has not published has no result, by the count of its publications. -/
theorem Recorded.unpublished {trace : List (Label T)} {state : State T}
    (recorded : Recorded trace state) {shared : Nat} {entry : Shared T}
    (found : state.shareds[shared]? = some entry) (pending : entry.producer.publishes = 0)
    : entry.result = none := by
  cases stored : entry.result with
  | none => rfl
  | some outcome =>
      have member := (recorded.stored found outcome).mpr stored
      have counted : 0 < trace.countP (Label.publishes shared) :=
        List.countP_pos_iff.mpr ⟨_, member, by simp [Label.publishes]⟩
      rw [recorded.published found, pending] at counted
      exact absurd counted (Nat.lt_irrefl 0)

/-- A producer step counts itself in the trace. -/
theorem ProducerStep.counted {shared : Nat} {entry entry' : Shared T} {label : Label T}
    (moved : ProducerStep shared entry label entry')
    : entry'.producer.starts = entry.producer.starts + (label.starts shared).toNat
      ∧ entry'.producer.publishes
        = entry.producer.publishes + (label.publishes shared).toNat := by
  cases moved with
  | start ready | complete ready | fail ready | panic ready | publish ready | finish ready =>
      simp [Producer.starts, Producer.publishes, Label.starts, Label.publishes, ready]

/-- A producer step leaves the result alone unless it publishes. -/
theorem ProducerStep.result {shared : Nat} {entry entry' : Shared T} {label : Label T}
    (moved : ProducerStep shared entry label entry')
    : (∃ outcome, label = .publish shared outcome ∧ entry.producer = .returned outcome
        ∧ entry'.result = some outcome)
      ∨ (∀ outcome, label ≠ .publish shared outcome) ∧ entry'.result = entry.result := by
  cases moved with
  | publish ready => exact Or.inl ⟨_, rfl, ready, rfl⟩
  | start | complete | fail | panic | finish => exact Or.inr ⟨by simp, rfl⟩

/-- The length of a trace count after one more label. -/
private theorem countP_snoc (p : Label T → Bool) (trace : List (Label T)) (label : Label T)
    : (trace ++ [label]).countP p = trace.countP p + (p label).toNat := by
  rw [List.countP_append, List.countP_singleton]
  cases p label <;> rfl

/-- No trace, no record. -/
theorem Recorded.empty : Recorded [] (State.empty : State T) := by
  constructor <;> simp [State.empty]

section Steps

variable {trace : List (Label T)} {state after : State T} {label : Label T}

/-- Nothing has happened to a `Shared` that is allocated next. -/
theorem Recorded.newcomer (recorded : Recorded trace state) {shared : Nat} {old : Label T}
    (beyond : shared = state.shareds.length) (member : old ∈ trace)
    : old.producer? ≠ some shared := by
  intro same
  have within := recorded.fresh member same
  omega

/-- Labels that a producer takes note of are counted by it: those of its own steps move the
count and the producer together, and no others move either.
-/
theorem Recorded.tallied (recorded : Recorded trace state) (taken : Step state label after)
    {marks : Nat → Label T → Bool} {tally : Producer T → Nat}
    (own
      : ∀ {shared : Nat} {label : Label T},
          label.producer? ≠ some shared → marks shared label = false)
    (moves
      : ∀ {shared : Nat} {entry entry' : Shared T}, ProducerStep shared entry label entry'
          → tally entry'.producer = tally entry.producer + (marks shared label).toNat)
    (start : ∀ key, tally (Shared.new key : Shared T).producer = 0)
    (before
      : ∀ {shared : Nat} {entry : Shared T}, state.shareds[shared]? = some entry
          → trace.countP (marks shared) = tally entry.producer)
    {shared : Nat} {entry' : Shared T} (found : after.shareds[shared]? = some entry')
    : (trace ++ [label]).countP (marks shared) = tally entry'.producer := by
  rw [countP_snoc]
  rcases taken.entry found with ⟨entry, old, moved⟩ | ⟨other, entry, old, same, _⟩
    | ⟨other, beyond, key, rfl⟩
  · rw [before old, moves moved]
  · rw [before old, same, own other]
    rfl
  · rw [own other, start, List.countP_eq_zero.mpr]
    · rfl
    · intro old member
      simp [own (recorded.newcomer beyond member)]

/-- A stored outcome stays. -/
theorem Recorded.stays (recorded : Recorded trace state) (taken : Step state label after)
    {shared : Nat} {entry : Shared T} {outcome : Outcome T}
    (old : state.shareds[shared]? = some entry) (result : entry.result = some outcome)
    : ∃ entry', after.shareds[shared]? = some entry' ∧ entry'.result = some outcome := by
  obtain ⟨entry', found⟩ := taken.keeps old
  refine ⟨entry', found, ?_⟩
  rcases taken.entry found with ⟨before, at', moved⟩ | ⟨_, before, at', _, same⟩
    | ⟨_, beyond, _⟩
  · obtain rfl : entry = before := Option.some.inj (old.symm.trans at')
    rcases moved.result with ⟨_, _, ready, _⟩ | ⟨_, same⟩
    · rw [recorded.unpublished old (by rw [ready]; rfl)] at result
      cases result
    · exact same.trans result
  · obtain rfl : entry = before := Option.some.inj (old.symm.trans at')
    exact same.trans result
  · have := lt_length old
    omega

/-- A step of its own keeps what a panicked producer has to show. -/
theorem Recorded.terminates (recorded : Recorded trace state) {shared : Nat}
    {entry entry' : Shared T} (old : state.shareds[shared]? = some entry)
    (before : .panic shared ∈ trace) (moved : ProducerStep shared entry label entry')
    : entry'.producer = .returned terminated ∨ entry'.result = some terminated := by
  rcases recorded.panicked old before with returned | result
  · cases moved with
    | publish ready =>
        rw [returned] at ready
        cases ready
        exact Or.inr rfl
    | start ready | complete ready | fail ready | panic ready | finish ready =>
        rw [returned] at ready
        cases ready
  · rcases moved.result with ⟨_, _, ready, _⟩ | ⟨_, same⟩
    · rw [recorded.unpublished old (by rw [ready]; rfl)] at result
      cases result
    · exact Or.inr (same.trans result)

/-- Whoever owns a handle after a step has joined. -/
theorem Recorded.joins (recorded : Recorded trace state) (taken : Step state label after)
    {index shared : Nat} {caller : Caller T} (held : after.callers[index]? = some caller)
    (owns : caller.live? = some shared)
    : (.attach index shared ∈ trace ∨ .attach index shared = label)
      ∨ .create index shared ∈ trace ∨ .create index shared = label := by
  cases taken with
  | enter =>
      rcases getElem?_push held with old | ⟨_, rfl⟩
      · exact (recorded.joined old owns).imp Or.inl Or.inl
      · simp [Caller.live?] at owns
  | attach =>
      rcases getElem?_set_cases held with ⟨rfl, rfl⟩ | ⟨_, old⟩
      · obtain rfl : _ = shared := Option.some.inj owns
        exact Or.inl (Or.inr rfl)
      · exact (recorded.joined old owns).imp Or.inl Or.inl
  | create =>
      rcases getElem?_set_cases held with ⟨rfl, rfl⟩ | ⟨_, old⟩
      · obtain rfl : _ = shared := Option.some.inj owns
        exact Or.inr (Or.inr rfl)
      · exact (recorded.joined old owns).imp Or.inl Or.inl
  | handle heldOld _ moved =>
      rcases getElem?_set_cases held with ⟨rfl, rfl⟩ | ⟨_, old⟩
      · rcases moved.accounted with ⟨same, _⟩ | ⟨_, gone, _⟩
        · exact (recorded.joined heldOld (same ▸ owns)).imp Or.inl Or.inl
        · rw [gone] at owns
          cases owns
      · exact (recorded.joined old owns).imp Or.inl Or.inl
  | producer => exact (recorded.joined held owns).imp Or.inl Or.inl

/-- Every step keeps the record. -/
theorem Recorded.step (recorded : Recorded trace state) (taken : Step state label after)
    : Recorded (trace ++ [label]) after := by
  constructor
  case started =>
    exact recorded.tallied taken Label.starts_eq_false (fun moved => moved.counted.1)
      (fun _ => rfl) recorded.started
  case published =>
    exact recorded.tallied taken Label.publishes_eq_false (fun moved => moved.counted.2)
      (fun _ => rfl) recorded.published
  case stored =>
    intro shared entry' found outcome
    rw [List.mem_append, List.mem_singleton]
    rcases taken.entry found with ⟨entry, old, moved⟩ | ⟨other, entry, old, _, same⟩
      | ⟨other, beyond, key, rfl⟩
    · rcases moved.result with ⟨stored, rfl, ready, result⟩ | ⟨silent, result⟩
      · have pending := recorded.unpublished old (by rw [ready]; rfl)
        rw [recorded.stored old, pending, result]
        simp [eq_comm]
      · rw [recorded.stored old, result]
        exact or_iff_left (Ne.symm (silent outcome))
    · rw [recorded.stored old, same]
      refine or_iff_left ?_
      rintro rfl
      exact other rfl
    · refine iff_of_false ?_ (by simp [Shared.new])
      rintro (member | rfl)
      · exact recorded.newcomer beyond member rfl
      · exact other rfl
  case panicked =>
    intro shared entry' found member
    rw [List.mem_append, List.mem_singleton] at member
    rcases taken.entry found with ⟨entry, old, moved⟩ | ⟨other, entry, old, producer, result⟩
      | ⟨other, beyond, key, rfl⟩
    · rcases member with before | rfl
      · exact recorded.terminates old before moved
      · cases moved with
        | panic => exact Or.inl rfl
    · rw [producer, result]
      rcases member with before | rfl
      · exact recorded.panicked old before
      · exact absurd rfl other
    · rcases member with before | rfl
      · exact absurd rfl (recorded.newcomer beyond before)
      · exact absurd rfl other
  case fresh =>
    intro shared event member named
    rw [List.mem_append, List.mem_singleton] at member
    rcases member with before | rfl
    · obtain ⟨entry, kept⟩ := taken.keeps (List.getElem?_eq_getElem (recorded.fresh before named))
      exact lt_length kept
    · cases taken with
      | enter | attach | create => simp [Label.producer?] at named
      | handle _ _ moved => simp [moved.producer?] at named
      | producer found moved =>
          obtain rfl : _ = shared := Option.some.inj (moved.producer?.symm.trans named)
          simpa using lt_length found
  case received =>
    intro caller shared outcome member
    rw [List.mem_append, List.mem_singleton] at member
    rcases member with before | rfl
    · obtain ⟨entry, old, result⟩ := recorded.received before
      exact recorded.stays taken old result
    · have stays := @Recorded.stays _ _ _ _ _ recorded taken shared
      cases taken with
      | handle _ found moved =>
          cases moved with
          | lease ready | reject ready => exact stays found ready
      | producer _ moved => exact absurd moved.producer? (by simp [Label.producer?])
  case joined =>
    intro index shared caller held owns
    simp only [List.mem_append, List.mem_singleton]
    exact recorded.joins taken held owns

end Steps

/-- Every execution is recorded in its last state. -/
theorem recorded_of_execution {trace : List (Label T)} {state : State T}
    (run : (system T).Execution trace state)
    : Recorded trace state :=
  run.history (fun start => start ▸ .empty) (fun _ recorded taken => recorded.step taken)

end MoenotesAssets.SharedWork
