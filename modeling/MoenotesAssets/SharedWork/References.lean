import MoenotesAssets.SharedWork.Outcomes

/-! Who keeps a `Shared` alive: a count of strong references that reached zero stays
there, and every lease was filled from a stored result.
-/

namespace MoenotesAssets.SharedWork

open Foundation Foundation.Arena

variable {T : Type}

/-- A caller that owns an `Arc` is one of the strong references. -/
theorem State.strongCount_pos {state : State T} {index shared : Nat} {caller : Caller T}
    (held : state.callers[index]? = some caller) (owns : caller.arc? = some shared)
    : 0 < state.strongCount shared := by
  have counted := le_total (Caller.strong shared) held
  simp only [Caller.strong, owns, if_true] at counted
  rw [State.strongCount]
  omega

/-- The outer task keeps its `Shared` alive until it ends. -/
theorem State.producer_ended {state : State T} {shared : Nat} {entry : Shared T}
    (found : state.shareds[shared]? = some entry) (dead : state.strongCount shared = 0)
    : entry.producer = .ended := by
  have none' : entry.producer.strong = 0 := by
    have counted : state.producerCount shared = entry.producer.strong := by
      simp [State.producerCount, found]
    rw [State.strongCount] at dead
    omega
  cases kind : entry.producer with
  | ended => rfl
  | spawned | running | returned | published => simp [kind, Producer.strong] at none'

/-- Without callers and without its outer task a `Shared` is dead. -/
theorem State.strongCount_eq_zero {state : State T} {shared : Nat}
    (callers : ∀ caller ∈ state.callers, caller.arc? ≠ some shared)
    (ended : ∀ entry, state.shareds[shared]? = some entry → entry.producer = .ended)
    : state.strongCount shared = 0 := by
  have nobody : total (Caller.strong shared) state.callers = 0 :=
    (total_eq_zero _ _).mpr fun caller member => by simp [Caller.strong, callers caller member]
  have idle : state.producerCount shared = 0 := by
    rw [State.producerCount]
    cases found : state.shareds[shared]? with
    | none => rfl
    | some entry => simp [ended entry found, Producer.strong]
  rw [State.strongCount, nobody, idle]

/-- A `Shared` that nothing refers to is never referred to again: the registry upgrades
only entries that are still alive.
-/
theorem Step.dead {state after : State T} {label : Label T} {shared : Nat}
    (taken : Step state label after) (below : shared < state.shareds.length)
    (dead : state.strongCount shared = 0)
    : after.strongCount shared = 0 := by
  have unheld : ∀ {index : Nat} {caller : Caller T}, state.callers[index]? = some caller →
      caller.arc? ≠ some shared := by
    intro index caller held owns
    have alive := State.strongCount_pos held owns
    omega
  have retired : ∀ {entry : Shared T}, state.shareds[shared]? = some entry →
      entry.producer = .ended := fun found => State.producer_ended found dead
  refine State.strongCount_eq_zero (fun caller member owns => ?_) (fun entry' found => ?_)
  · obtain ⟨index, held⟩ := List.mem_iff_getElem?.mp member
    cases taken with
    | @enter key free counted =>
        rcases getElem?_push held with old | ⟨_, rfl⟩
        · exact unheld old owns
        · have kept : state.retain key = some shared :=
            (Option.filter_eq_some_iff.mp owns).1
          have alive := (Option.filter_eq_some_iff.mp kept).2
          simp [dead] at alive
    | attach old =>
        rcases getElem?_set_cases held with ⟨_, rfl⟩ | ⟨_, kept⟩
        · exact unheld old owns
        · exact unheld kept owns
    | create =>
        rcases getElem?_set_cases held with ⟨_, rfl⟩ | ⟨_, kept⟩
        · obtain rfl : state.shareds.length = shared := Option.some.inj owns
          omega
        · exact unheld kept owns
    | handle old found moved =>
        obtain ⟨_, _, _, its, other, _⟩ := moved.frame
        rcases getElem?_set_cases held with ⟨_, rfl⟩ | ⟨_, kept⟩
        · exact unheld old (other shared owns ▸ its)
        · exact unheld kept owns
    | producer => exact unheld held owns
  · rcases taken.entry found with ⟨entry, before, moved⟩ | ⟨_, entry, before, same, _⟩
      | ⟨_, rfl, _⟩
    · have ended := retired before
      cases moved with
      | start ready | complete ready | fail ready | panic ready | publish ready
      | finish ready =>
          cases ended.symm.trans ready
    · rw [same]
      exact retired before
    · omega

/-- A lease is taken from the stored result, and a caller keeps the lease it has. -/
theorem Step.leases {state after : State T} {label : Label T} {index shared : Nat} {value : T}
    (taken : Step state label after)
    (held : after.callers[index]? = some (.leased shared value))
    : state.callers[index]? = some (.leased shared value)
      ∨ ∃ entry, state.shareds[shared]? = some entry ∧ entry.result = some (.ok value) := by
  cases taken with
  | enter =>
      rcases getElem?_push held with old | ⟨_, new⟩
      · exact Or.inl old
      · cases new
  | attach | create =>
      rcases getElem?_set_cases held with ⟨_, new⟩ | ⟨_, old⟩
      · cases new
      · exact Or.inl old
  | handle _ found moved =>
      rcases getElem?_set_cases held with ⟨_, new⟩ | ⟨_, old⟩
      · cases moved with
        | lease ready =>
            cases new
            exact Or.inr ⟨_, found, ready⟩
        | reject | leaveLast | leave | cancel | release => cases new
      · exact Or.inl old
  | producer => exact Or.inl held

/-- Calls are never forgotten. -/
theorem Step.callers_le {state after : State T} {label : Label T}
    (taken : Step state label after)
    : state.callers.length ≤ after.callers.length := by
  cases taken <;> simp [State.enter, State.attach, State.create]

/-- Nor is any `Shared`. -/
theorem Step.shareds_le {state after : State T} {label : Label T}
    (taken : Step state label after)
    : state.shareds.length ≤ after.shareds.length := by
  cases taken <;> simp [State.enter, State.attach, State.create]

end MoenotesAssets.SharedWork
