import MoenotesAssets.SharedWork.Outcomes

/-! What callers of `join` may rely on: nobody's work is cancelled by somebody else, one
running operation per key, and one outcome for all who attached to it.
-/

namespace MoenotesAssets.SharedWork

open Foundation Foundation.Arena Foundation.Machine

variable {T : Type}

/-- In `after`, every `Shared` that had no user in `before` still has none. -/
def StaysIdle (before after : State T) : Prop :=
  ∀ {shared : Nat} {entry : Shared T},
    before.shareds[shared]? = some entry
    → entry.users = 0
    → ∃ entry', after.shareds[shared]? = some entry' ∧ entry'.users = 0

/-- A state keeps its own abandoned operations abandoned. -/
theorem StaysIdle.refl (state : State T) : StaysIdle state state :=
  fun found idle => ⟨_, found, idle⟩

/-- Staying abandoned composes over consecutive runs. -/
theorem StaysIdle.trans {first second third : State T}
    (head : StaysIdle first second) (tail : StaysIdle second third)
    : StaysIdle first third := by
  intro shared entry found idle
  obtain ⟨between, found', idle'⟩ := head found idle
  exact tail found' idle'

/-- No step revives an abandoned `Shared`: attaching requires a user, and only a live
handle subtracts one.
-/
theorem Step.staysIdle {state after : State T} {label : Label T}
    (taken : Step state label after) (coherent : Coherent state)
    : StaysIdle state after := by
  intro shared entry found idle
  have elsewhere {place : Nat} {other replacement : Shared T}
      (at' : state.shareds[place]? = some other) (less : replacement.users ≤ other.users)
      : ∃ entry', (state.shareds.set place replacement)[shared]? = some entry'
          ∧ entry'.users = 0 := by
    by_cases here : shared = place
    · subst here
      obtain rfl : entry = other := Option.some.inj (found.symm.trans at')
      exact ⟨_, getElem?_set_of found, by omega⟩
    · exact ⟨entry, by simpa only [List.getElem?_set_ne (Ne.symm here)] using found, idle⟩
  cases taken with
  | enter => exact ⟨entry, found, idle⟩
  | @attach _ _ target other users _ foundOther joined =>
      by_cases here : shared = target
      · subst here
        obtain rfl : entry = other := Option.some.inj (found.symm.trans foundOther)
        have := (joinUsers_eq_some joined).1
        omega
      · refine ⟨entry, ?_, idle⟩
        simpa only [State.attach, List.getElem?_set_ne (Ne.symm here)] using found
  | create => exact ⟨entry, getElem?_push_of found, idle⟩
  | handle held at' moved => exact elsewhere at' (coherent.users_le held at' moved)
  | producer at' moved => exact elsewhere at' (Nat.le_of_eq moved.frame.2.1)

/-- An abandoned `Shared` stays abandoned in every later state. -/
theorem staysIdle_of_path {state after : State T} {trace : List (Label T)}
    (coherent : Coherent state) (path : (system T).Path state trace after)
    : StaysIdle state after :=
  path.relates StaysIdle.refl StaysIdle.trans Coherent.step
    (fun taken coherent => Step.staysIdle taken coherent) coherent

/-- No step of `shared`'s own producer remains. -/
def Settled (state : State T) (shared : Nat) : Prop :=
  ∀ label after, label.producer? = some shared → ¬ (system T).step state label after

/-- A producer is never stuck before its end, by cases on what it waits for. -/
theorem Settled.ended {state : State T} {shared : Nat} (settled : Settled state shared)
    {entry : Shared T} (found : state.shareds[shared]? = some entry)
    : entry.producer = .ended := by
  have impossible {label : Label T} {entry' : Shared T}
      (moved : ProducerStep shared entry label entry')
      : False :=
    settled label _ moved.producer? (.producer found moved)
  cases phase : entry.producer with
  | spawned => exact (impossible (.start phase)).elim
  | running => exact (impossible (.panic phase)).elim
  | returned outcome => exact (impossible (.publish phase)).elim
  | published => exact (impossible (.finish phase)).elim
  | ended => rfl

/-- The contract of `join` after a run: `users` counts live handles and a token is
cancelled only without any; a key has one `Shared` in use and an abandoned one stays
abandoned; `create` runs once, one outcome is stored, and every result handed out is it.
-/
structure SharesWork (trace : List (Label T)) (state : State T) : Prop where
  counts
    : ∀ {shared : Nat} {entry : Shared T}, state.shareds[shared]? = some entry
        → entry.users = state.liveCount shared
  uncancelled
    : ∀ {shared index : Nat} {entry : Shared T} {caller : Caller T},
        state.shareds[shared]? = some entry
        → state.callers[index]? = some caller
        → caller.live? = some shared
        → entry.cancelled = false
  sole
    : ∀ {first second : Nat} {left right : Shared T},
        state.shareds[first]? = some left
        → state.shareds[second]? = some right
        → left.key = right.key
        → 0 < left.users
        → 0 < right.users
        → first = second
  abandoned
    : ∀ {later : State T} {more : List (Label T)}, (system T).Path state more later
        → StaysIdle state later
  createdOnce
    : ∀ {shared : Nat} {entry : Shared T}, state.shareds[shared]? = some entry
        → trace.countP (Label.starts shared) ≤ 1
          ∧ trace.countP (Label.publishes shared) ≤ 1
          ∧ (Settled state shared
              → trace.countP (Label.starts shared) = 1
                ∧ trace.countP (Label.publishes shared) = 1)
  attached
    : ∀ {index shared : Nat} {caller : Caller T}, state.callers[index]? = some caller
        → caller.live? = some shared
        → .attach index shared ∈ trace ∨ .create index shared ∈ trace
  agrees
    : ∀ {caller shared : Nat} {outcome : Outcome T}, .receive caller shared outcome ∈ trace
        → .publish shared outcome ∈ trace
          ∧ ∀ other, .publish shared other ∈ trace → other = outcome
  panics
    : ∀ {shared : Nat} {outcome : Outcome T}, .panic shared ∈ trace
        → .publish shared outcome ∈ trace
        → outcome = terminated

/-- A stored outcome is the only one ever stored in its `Shared`. -/
theorem Recorded.publish_unique {trace : List (Label T)} {state : State T}
    (recorded : Recorded trace state) {shared : Nat} {first second : Outcome T}
    (left : .publish shared first ∈ trace) (right : .publish shared second ∈ trace)
    : first = second := by
  have found := List.getElem?_eq_getElem (recorded.fresh left rfl)
  have stored := (recorded.stored found first).mp left
  rw [(recorded.stored found second).mp right] at stored
  exact (Option.some.inj stored).symm

/-- Every run of the registry, with any number of callers and keys, keeps the contract of
`join`: coherence gives the counting laws and the record of the trace the others.
-/
theorem join_shares_work {trace : List (Label T)} {state : State T}
    (run : (system T).Execution trace state)
    : SharesWork trace state := by
  have coherent := coherent_of_reachable run.reachable
  have recorded := recorded_of_execution run
  constructor
  case counts => exact coherent.accounted
  case uncancelled =>
    intro shared index entry caller found held owns
    by_contra set
    have := coherent.cancelledIdle found (by simpa using set)
    have := coherent.users_pos held owns found
    omega
  case sole =>
    intro first second left right atFirst atSecond same usedLeft usedRight
    have named := coherent.registered atFirst usedLeft
    rw [same, coherent.registered atSecond usedRight] at named
    exact (Option.some.inj named).symm
  case abandoned => exact fun path => staysIdle_of_path coherent path
  case createdOnce =>
    intro shared entry found
    rw [recorded.started found, recorded.published found]
    refine ⟨?_, ?_, fun settled => ?_⟩
    · cases entry.producer <;> simp [Producer.starts]
    · cases entry.producer <;> simp [Producer.publishes]
    · rw [settled.ended found]
      exact ⟨rfl, rfl⟩
  case attached => exact recorded.joined
  case agrees =>
    intro caller shared outcome received
    obtain ⟨entry, found, result⟩ := recorded.received received
    have stored := (recorded.stored found outcome).mpr result
    exact ⟨stored, fun other also => recorded.publish_unique also stored⟩
  case panics =>
    intro shared outcome panicked stored
    have found := List.getElem?_eq_getElem (recorded.fresh stored rfl)
    have result := (recorded.stored found outcome).mp stored
    rcases recorded.panicked found panicked with returned | panicResult
    · rw [recorded.unpublished found (by rw [returned]; rfl)] at result
      cases result
    · exact Option.some.inj (result.symm.trans panicResult)

/-- Two callers share one operation, the first gives up, and the second gets the value. -/
theorem join_shares_work_two_callers
    : ∃ (trace : List (Label Nat)) (state : State Nat),
        .leave 0 0 ∈ trace ∧ .receive 1 0 (.ok 7) ∈ trace ∧ SharesWork trace state := by
  have start : (system Nat).Execution [] .empty := ⟨.empty, rfl, .here⟩
  have enter := start.next (@Step.enter _ _ "x" rfl (by simp [State.retain, State.empty]))
  have create := enter.next (@Step.create _ _ 0 "x" none rfl (by simp))
  have enterAgain := create.next (@Step.enter _ _ "x" rfl
    (fun shared (kept : some 0 = some shared) => by cases kept; decide))
  have attach := enterAgain.next (@Step.attach _ _ 1 "x" 0 _ 2 rfl rfl rfl)
  have leave := attach.next (@Step.handle _ _ 0 0 _ _ _ _ _ rfl rfl (.leave rfl (by decide)))
  have run := leave.next (@Step.producer _ _ 0 _ _ _ rfl (.start rfl))
  have complete := run.next (@Step.producer _ _ 0 _ _ _ rfl (@ProducerStep.complete _ _ _ 7 rfl))
  have publish := complete.next (@Step.producer _ _ 0 _ _ _ rfl (.publish rfl))
  have receive := publish.next (@Step.handle _ _ 1 0 _ _ _ _ _ rfl rfl (.lease rfl))
  refine ⟨_, _, ?_, ?_, join_shares_work receive⟩
  · simp
  · simp [State.enter, State.create, State.empty]

end MoenotesAssets.SharedWork
