import MoenotesAssets.SharedWork.Model

/-! The user counter of every `Shared` counts its live handles, and the registry names
the only `Shared` of a key that still has users.
-/

namespace MoenotesAssets.SharedWork

open Foundation Foundation.Arena Foundation.Machine

variable {T : Type}

-----------------------------------------------------------------------------------------
-- What one step of a producer or of a handle can do
-----------------------------------------------------------------------------------------

/-- A producer never touches the key, the counter or the token of its `Shared`. -/
theorem ProducerStep.frame {shared : Nat} {entry entry' : Shared T} {label : Label T}
    (moved : ProducerStep shared entry label entry')
    : entry'.key = entry.key ∧ entry'.users = entry.users
      ∧ entry'.cancelled = entry.cancelled := by
  cases moved <;> exact ⟨rfl, rfl, rfl⟩

/-- A caller with a live handle owns an `Arc` of the same `Shared`. -/
theorem Caller.arc?_of_live? {caller : Caller T} {shared : Nat}
    (owns : caller.live? = some shared)
    : caller.arc? = some shared := by
  cases caller <;> simp_all [Caller.live?, Caller.arc?]

/-- A live handle is one of the strong references. -/
theorem Caller.lives_le_strong (shared : Nat) (caller : Caller T)
    : caller.lives shared ≤ caller.strong shared := by
  by_cases owns : caller.live? = some shared
  · simp [Caller.lives, Caller.strong, owns, Caller.arc?_of_live? owns]
  · simp [Caller.lives, owns]

/-- A handle step leaves the key, the result and the producer of its `Shared` alone, and
it is taken by a caller that owns an `Arc` of it and is past the lock.
-/
theorem HandleStep.frame {index shared : Nat} {caller caller' : Caller T}
    {entry entry' : Shared T} {label : Label T}
    (moved : HandleStep index shared caller entry label caller' entry')
    : entry'.key = entry.key ∧ entry'.result = entry.result
      ∧ entry'.producer = entry.producer ∧ caller.arc? = some shared
      ∧ (∀ other, caller'.arc? = some other → other = shared)
      ∧ (∀ key existing, caller' ≠ .entering key existing) := by
  cases moved with
  | leaveLast owns _ | leave owns _ =>
      refine ⟨rfl, rfl, rfl, Caller.arc?_of_live? owns, ?_, by simp⟩
      simp [Caller.arc?, eq_comm]
  | lease | reject | cancel | release => simp [Caller.arc?, eq_comm]

/-- A handle step either keeps the handle and the counter, or gives up a live handle and
subtracts one.
-/
theorem HandleStep.accounted {index shared : Nat} {caller caller' : Caller T}
    {entry entry' : Shared T} {label : Label T}
    (moved : HandleStep index shared caller entry label caller' entry')
    : caller'.live? = caller.live? ∧ entry'.users = entry.users
      ∨ caller.live? = some shared ∧ caller'.live? = none
        ∧ entry'.users = wrappingSub entry.users 1 := by
  cases moved with
  | leaveLast owns _ | leave owns _ => exact Or.inr ⟨owns, rfl, rfl⟩
  | lease | reject | cancel | release => exact Or.inl ⟨rfl, rfl⟩

/-- A token is cancelled only by a caller whose decrement brought the counter to zero. -/
theorem HandleStep.cancelled {index shared : Nat} {caller caller' : Caller T}
    {entry entry' : Shared T} {label : Label T}
    (moved : HandleStep index shared caller entry label caller' entry')
    (set : entry'.cancelled = true)
    : entry.cancelled = true ∨ caller = .cancelling shared ∧ entry'.users = entry.users := by
  cases moved with
  | cancel => exact Or.inr ⟨rfl, rfl⟩
  | lease | reject | leaveLast | leave | release => exact Or.inl set

/-- A caller turns to cancelling exactly when it gave up the last live handle. -/
theorem HandleStep.cancelling {index shared other : Nat} {caller caller' : Caller T}
    {entry entry' : Shared T} {label : Label T}
    (moved : HandleStep index shared caller entry label caller' entry')
    (set : caller' = .cancelling other)
    : other = shared ∧ entry.users = 1 ∧ entry'.users = wrappingSub entry.users 1 := by
  cases moved with
  | leaveLast _ last => cases set; exact ⟨rfl, last, rfl⟩
  | lease | reject | leave | cancel | release => cases set

-----------------------------------------------------------------------------------------
-- The invariant
-----------------------------------------------------------------------------------------

/-- The registry, the counters and the callers agree. `entry` is what the call inside the
critical section knows: a candidate of its key, and the only one with users.
-/
structure Coherent (state : State T) : Prop where
  accounted
    : ∀ {shared : Nat} {entry : Shared T}, state.shareds[shared]? = some entry
        → entry.users = state.liveCount shared
  bounded
    : ∀ {shared : Nat} {entry : Shared T},
        state.shareds[shared]? = some entry → entry.users ≤ maxRefcount + 1
  cancelledIdle
    : ∀ {shared : Nat} {entry : Shared T}, state.shareds[shared]? = some entry
        → entry.cancelled = true → entry.users = 0
  cancellingIdle
    : ∀ {index shared : Nat} {entry : Shared T}, state.callers[index]? = some (.cancelling shared)
        → state.shareds[shared]? = some entry → entry.users = 0
  owned
    : ∀ {index shared : Nat} {caller : Caller T}, state.callers[index]? = some caller
        → caller.arc? = some shared → shared < state.shareds.length
  registered
    : ∀ {shared : Nat} {entry : Shared T}, state.shareds[shared]? = some entry
        → 0 < entry.users → state.registry entry.key = some shared
  keyed
    : ∀ {key : String} {shared : Nat}, state.registry key = some shared
        → ∃ entry, state.shareds[shared]? = some entry ∧ entry.key = key
  locked
    : ∀ {index : Nat} {key : String} {existing : Option Nat},
        state.callers[index]? = some (.entering key existing) → state.lock = some index
  sole
    : ∀ {index shared : Nat} {key : String} {existing : Option Nat} {entry : Shared T},
        state.callers[index]? = some (.entering key existing)
        → state.shareds[shared]? = some entry → entry.key = key → 0 < entry.users
        → existing = some shared
  candidate
    : ∀ {index shared : Nat} {key : String},
        state.callers[index]? = some (.entering key (some shared))
        → ∃ entry,
            state.shareds[shared]? = some entry ∧ entry.key = key
            ∧ entry.users ≤ maxRefcount

/-- A caller with a live handle keeps the counter of its `Shared` positive. -/
theorem Coherent.users_pos {state : State T} (coherent : Coherent state)
    {index shared : Nat} {caller : Caller T} {entry : Shared T}
    (held : state.callers[index]? = some caller) (owns : caller.live? = some shared)
    (found : state.shareds[shared]? = some entry)
    : 0 < entry.users := by
  have counted := le_total (Caller.lives shared) held
  rw [coherent.accounted found, State.liveCount]
  simp only [Caller.lives, owns, if_true] at counted
  omega

/-- Every live handle is a strong reference. -/
theorem State.liveCount_le_strongCount (state : State T) (shared : Nat)
    : state.liveCount shared ≤ state.strongCount shared :=
  Nat.le_trans (total_mono (fun caller _ => caller.lives_le_strong shared)) (Nat.le_add_right _ _)

/-- The empty registry is coherent. -/
theorem Coherent.empty : Coherent (State.empty : State T) := by
  constructor <;> simp [State.empty]

/-- Entering the critical section appends a caller without a handle, and the sweep drops
only entries nobody refers to.
-/
theorem Coherent.enter {state : State T} (coherent : Coherent state) (key : String)
    (free : state.lock = none)
    (counted : ∀ shared, state.retain key = some shared → state.strongCount shared ≤ maxRefcount)
    : Coherent (state.enter key) := by
  have outside {index : Nat} {caller : Caller T}
      (held : (state.enter key).callers[index]? = some caller)
      : state.callers[index]? = some caller
        ∨ index = state.callers.length ∧ caller = .entering key (state.existing key) :=
    getElem?_push held
  have nobody {index : Nat} {other : String} {existing : Option Nat}
      : state.callers[index]? ≠ some (.entering other existing) := by
    intro held
    have := coherent.locked held
    simp [free] at this
  have retained {shared : Nat} {entry : Shared T}
      (found : state.shareds[shared]? = some entry)
      (used : 0 < entry.users)
      : state.retain entry.key = some shared := by
    have strong := state.liveCount_le_strongCount shared
    rw [← coherent.accounted found] at strong
    rw [State.retain, coherent.registered found used]
    simp only [Option.filter_some, decide_eq_true_eq, ite_eq_left_iff]
    omega
  have swept {other : String} {shared : Nat} (kept : state.retain other = some shared)
      : state.registry other = some shared :=
    (Option.filter_eq_some_iff.mp kept).1
  have upgraded {shared : Nat} (found : state.existing key = some shared)
      : state.retain key = some shared :=
    (Option.filter_eq_some_iff.mp found).1
  constructor
  case accounted =>
    intro shared entry found
    rw [coherent.accounted found]
    simp [State.liveCount, State.enter, Caller.lives, Caller.live?]
  case bounded => exact coherent.bounded
  case cancelledIdle => exact coherent.cancelledIdle
  case cancellingIdle =>
    intro index shared entry held found
    rcases outside held with old | ⟨_, same⟩
    · exact coherent.cancellingIdle old found
    · cases same
  case owned =>
    intro index caller shared held owns
    rcases outside held with old | ⟨_, rfl⟩
    · exact coherent.owned old owns
    · obtain ⟨entry, found, _⟩ := coherent.keyed (swept (upgraded owns))
      exact lt_length found
  case registered => exact fun found used => retained found used
  case keyed => exact fun kept => coherent.keyed (swept kept)
  case locked =>
    intro index other existing held
    rcases outside held with old | ⟨same, _⟩
    · exact absurd old nobody
    · rw [same]; rfl
  case sole =>
    intro index shared other existing entry held found same used
    change state.shareds[shared]? = some entry at found
    rcases outside held with old | ⟨_, new⟩
    · exact absurd old nobody
    · cases new
      subst same
      have fresh : entry.cancelled = false := by
        by_contra set
        have := coherent.cancelledIdle found (by simpa using set)
        omega
      simp [State.existing, retained found used, State.isCancelled, found, fresh,
        Option.filter_some]
  case candidate =>
    intro index shared other held
    rcases outside held with old | ⟨_, new⟩
    · exact absurd old nobody
    · simp only [Caller.entering.injEq] at new
      obtain ⟨rfl, existing⟩ := new
      have kept := upgraded existing.symm
      obtain ⟨entry, found, same⟩ := coherent.keyed (swept kept)
      refine ⟨entry, found, same, ?_⟩
      rw [coherent.accounted found]
      exact Nat.le_trans (state.liveCount_le_strongCount shared) (counted shared kept)

/-- A candidate that counts its new user had users before, and no overflow. -/
theorem joinUsers_eq_some {users joined : Nat} (counted : joinUsers users = some joined)
    : 0 < users ∧ joined = users + 1 := by
  simp only [joinUsers] at counted
  split at counted
  · exact ⟨by assumption, (checkedAdd_eq_some counted).1⟩
  · simp at counted

/-- A candidate refuses a new user only without users, since no counter comes near
`usize::MAX`.
-/
theorem joinUsers_eq_none {users : Nat} (bounded : users ≤ maxRefcount)
    (refused : joinUsers users = none)
    : users = 0 := by
  simp only [joinUsers] at refused
  split at refused
  · rw [checkedAdd_eq_none] at refused
    simp only [max64, maxRefcount] at *
    omega
  · omega

/-- The call inside the critical section is the only one. -/
theorem Coherent.alone {state : State T} (coherent : Coherent state) {index other : Nat}
    {key key' : String} {existing existing' : Option Nat}
    (held : state.callers[index]? = some (.entering key existing))
    (also : state.callers[other]? = some (.entering key' existing'))
    : other = index :=
  Option.some.inj ((coherent.locked also).symm.trans (coherent.locked held))

/-- Attaching turns the call inside the critical section into one more live handle. -/
theorem Coherent.attach {state : State T} (coherent : Coherent state)
    {caller shared users : Nat} {key : String} {entry : Shared T}
    (held : state.callers[caller]? = some (.entering key (some shared)))
    (found : state.shareds[shared]? = some entry)
    (joined : joinUsers entry.users = some users)
    : Coherent (state.attach caller shared entry users) := by
  obtain ⟨used, rfl⟩ := joinUsers_eq_some joined
  have callerAt {index : Nat} {other : Caller T}
      (at' : (state.attach caller shared entry (entry.users + 1)).callers[index]? = some other)
      : index = caller ∧ other = .waiting shared
        ∨ index ≠ caller ∧ state.callers[index]? = some other :=
    getElem?_set_cases at'
  have sharedAt {index : Nat} {other : Shared T}
      (at' : (state.attach caller shared entry (entry.users + 1)).shareds[index]? = some other)
      : index = shared ∧ other = { entry with users := entry.users + 1 }
        ∨ index ≠ shared ∧ state.shareds[index]? = some other :=
    getElem?_set_cases at'
  have outside {index : Nat} {other : String} {existing : Option Nat}
      : (state.attach caller shared entry (entry.users + 1)).callers[index]?
        ≠ some (.entering other existing) := by
    intro at'
    rcases callerAt at' with ⟨_, same⟩ | ⟨moved, old⟩
    · cases same
    · exact moved (coherent.alone held old)
  constructor
  case accounted =>
    intro index other at'
    have moved := total_set (Caller.lives index) (.waiting shared) held
    simp only [Caller.lives, Caller.live?, reduceCtorEq, if_false, Nat.add_zero] at moved
    simp only [State.liveCount, State.attach] at *
    rcases sharedAt at' with ⟨rfl, rfl⟩ | ⟨different, old⟩
    · have before := coherent.accounted found
      simp only [State.liveCount, if_true] at *
      omega
    · have before := coherent.accounted old
      simp only [State.liveCount, Option.some.injEq, Ne.symm different, if_false] at *
      omega
  case bounded =>
    intro index other at'
    rcases sharedAt at' with ⟨_, rfl⟩ | ⟨_, old⟩
    · obtain ⟨candidate, same, _, bound⟩ := coherent.candidate held
      obtain rfl : entry = candidate := Option.some.inj (found.symm.trans same)
      simpa using bound
    · exact coherent.bounded old
  case cancelledIdle =>
    intro index other at' set
    rcases sharedAt at' with ⟨_, rfl⟩ | ⟨_, old⟩
    · have := coherent.cancelledIdle found set
      omega
    · exact coherent.cancelledIdle old set
  case cancellingIdle =>
    intro index target other at' atShared
    rcases callerAt at' with ⟨_, same⟩ | ⟨_, old⟩
    · cases same
    · rcases sharedAt atShared with ⟨rfl, rfl⟩ | ⟨_, oldShared⟩
      · have := coherent.cancellingIdle old found
        omega
      · exact coherent.cancellingIdle old oldShared
  case owned =>
    intro index target other at' owns
    simp only [State.attach, List.length_set]
    rcases callerAt at' with ⟨_, rfl⟩ | ⟨_, old⟩
    · obtain rfl : shared = target := by simpa [Caller.arc?] using owns
      exact lt_length found
    · exact coherent.owned old owns
  case registered =>
    intro index other at' positive
    rcases sharedAt at' with ⟨rfl, rfl⟩ | ⟨_, old⟩
    · have named := coherent.registered found used
      exact named
    · exact coherent.registered old positive
  case keyed =>
    intro other target named
    obtain ⟨old, oldFound, same⟩ := coherent.keyed named
    by_cases here : target = shared
    · subst here
      obtain rfl : entry = old := Option.some.inj (found.symm.trans oldFound)
      exact ⟨_, getElem?_set_of found, same⟩
    · refine ⟨old, ?_, same⟩
      simpa only [State.attach, List.getElem?_set_ne (Ne.symm here)] using oldFound
  case locked => exact fun at' => absurd at' outside
  case sole => exact fun at' => absurd at' outside
  case candidate => exact fun at' => absurd at' outside

/-- Creating registers the new `Shared` over an entry of its key without users. -/
theorem Coherent.create {state : State T} (coherent : Coherent state)
    {caller : Nat} {key : String} {existing : Option Nat}
    (held : state.callers[caller]? = some (.entering key existing))
    (refused
      : ∀ shared entry,
          existing = some shared
          → state.shareds[shared]? = some entry
          → joinUsers entry.users = none)
    : Coherent (state.create caller key) := by
  have callerAt {index : Nat} {other : Caller T}
      (at' : (state.create caller key).callers[index]? = some other)
      : index = caller ∧ other = .waiting state.shareds.length
        ∨ index ≠ caller ∧ state.callers[index]? = some other :=
    getElem?_set_cases at'
  have sharedAt {index : Nat} {other : Shared T}
      (at' : (state.create caller key).shareds[index]? = some other)
      : state.shareds[index]? = some other
        ∨ index = state.shareds.length ∧ other = Shared.new key :=
    getElem?_push at'
  have outside {index : Nat} {other : String} {existing' : Option Nat}
      : (state.create caller key).callers[index]? ≠ some (.entering other existing') := by
    intro at'
    rcases callerAt at' with ⟨_, same⟩ | ⟨moved, old⟩
    · cases same
    · exact moved (coherent.alone held old)
  -- the candidate of the key had no users left, and no other Shared of the key has any
  have idle {index : Nat} {other : Shared T} (found : state.shareds[index]? = some other)
      (same : other.key = key)
      : other.users = 0 := by
    by_contra used
    have named := coherent.sole held found same (by omega)
    subst named
    obtain ⟨candidate, sameEntry, _, bound⟩ := coherent.candidate held
    obtain rfl : other = candidate := Option.some.inj (found.symm.trans sameEntry)
    exact used (joinUsers_eq_none bound (refused index other rfl found))
  constructor
  case accounted =>
    intro index other at'
    have moved := total_set (Caller.lives index) (.waiting state.shareds.length) held
    simp only [Caller.lives, Caller.live?, reduceCtorEq, if_false, Nat.add_zero] at moved
    simp only [State.liveCount, State.create] at *
    rcases sharedAt at' with old | ⟨rfl, rfl⟩
    · have before := coherent.accounted old
      have below := lt_length old
      simp only [State.liveCount, Option.some.injEq] at *
      rw [if_neg (by omega)] at moved
      omega
    · have nobody : total (Caller.lives state.shareds.length) state.callers = 0 := by
        rw [total_eq_zero]
        intro handle member
        obtain ⟨place, at''⟩ := List.mem_iff_getElem?.mp member
        by_cases owns : handle.live? = some state.shareds.length
        · exact absurd (coherent.owned at'' (Caller.arc?_of_live? owns)) (Nat.lt_irrefl _)
        · simp [Caller.lives, owns]
      simp only [if_true, Shared.new] at *
      omega
  case bounded =>
    intro index other at'
    rcases sharedAt at' with old | ⟨_, rfl⟩
    · exact coherent.bounded old
    · simp [Shared.new]
  case cancelledIdle =>
    intro index other at' set
    rcases sharedAt at' with old | ⟨_, rfl⟩
    · exact coherent.cancelledIdle old set
    · simp [Shared.new] at set
  case cancellingIdle =>
    intro index target other at' atShared
    rcases callerAt at' with ⟨_, same⟩ | ⟨_, old⟩
    · cases same
    · rcases sharedAt atShared with oldShared | ⟨rfl, _⟩
      · exact coherent.cancellingIdle old oldShared
      · exact absurd (coherent.owned old rfl) (Nat.lt_irrefl _)
  case owned =>
    intro index target other at' owns
    simp only [State.create, List.length_append, List.length_cons, List.length_nil]
    rcases callerAt at' with ⟨_, rfl⟩ | ⟨_, old⟩
    · obtain rfl : state.shareds.length = target := by simpa [Caller.arc?] using owns
      omega
    · have := coherent.owned old owns
      omega
  case registered =>
    intro index other at' positive
    simp only [State.create]
    rcases sharedAt at' with old | ⟨rfl, rfl⟩
    · rw [Function.update_of_ne]
      · exact coherent.registered old positive
      · intro same
        have := idle old same
        omega
    · exact Function.update_self ..
  case keyed =>
    intro other target named
    simp only [State.create] at *
    by_cases here : other = key
    · subst here
      rw [Function.update_self] at named
      obtain rfl := Option.some.inj named
      exact ⟨_, getElem?_push_self _ _, rfl⟩
    · rw [Function.update_of_ne here] at named
      obtain ⟨old, found, same⟩ := coherent.keyed named
      exact ⟨old, getElem?_push_of found, same⟩
  case locked => exact fun at' => absurd at' outside
  case sole => exact fun at' => absurd at' outside
  case candidate => exact fun at' => absurd at' outside

/-- The counter after a handle step never exceeds the one before. -/
theorem Coherent.users_le {state : State T} (coherent : Coherent state)
    {index shared : Nat} {caller caller' : Caller T} {entry entry' : Shared T}
    {label : Label T}
    (held : state.callers[index]? = some caller)
    (found : state.shareds[shared]? = some entry)
    (moved : HandleStep index shared caller entry label caller' entry')
    : entry'.users ≤ entry.users := by
  rcases moved.accounted with ⟨_, same⟩ | ⟨owns, _, less⟩
  · omega
  · have positive := coherent.users_pos held owns found
    rw [less, wrappingSub_eq positive]
    omega

/-- A handle step moves the counter and the handles together. -/
theorem Coherent.handle {state : State T} (coherent : Coherent state)
    {index shared : Nat} {caller caller' : Caller T} {entry entry' : Shared T}
    {label : Label T}
    (held : state.callers[index]? = some caller)
    (found : state.shareds[shared]? = some entry)
    (moved : HandleStep index shared caller entry label caller' entry')
    : Coherent
        {
          state with
          shareds := state.shareds.set shared entry'
          callers := state.callers.set index caller'
        } := by
  obtain ⟨sameKey, _, _, owns, owns', beyond⟩ := moved.frame
  have less := coherent.users_le held found moved
  have entryAt {place : Nat} {key : String} {existing : Option Nat}
      (at' : (state.callers.set index caller')[place]? = some (.entering key existing))
      : place ≠ index ∧ state.callers[place]? = some (.entering key existing) := by
    rcases getElem?_set_cases at' with ⟨_, same⟩ | old
    · exact absurd same.symm (beyond key existing)
    · exact old
  constructor
  case accounted =>
    intro target other at'
    have weights := total_set (Caller.lives target) caller' held
    simp only [State.liveCount, Caller.lives] at *
    rcases getElem?_set_cases at' with ⟨rfl, rfl⟩ | ⟨different, old⟩
    · have before := coherent.accounted found
      simp only [State.liveCount] at before
      rcases moved.accounted with ⟨sameLive, sameUsers⟩ | ⟨live, none', lessOne⟩
      · rw [sameLive] at weights
        omega
      · have positive := coherent.users_pos held live found
        rw [lessOne, wrappingSub_eq positive]
        simp only [live, none', reduceCtorEq, if_true, if_false] at weights
        omega
    · have before := coherent.accounted old
      simp only [State.liveCount] at before
      rcases moved.accounted with ⟨sameLive, _⟩ | ⟨live, none', _⟩
      · rw [sameLive] at weights
        omega
      · simp only [live, none', reduceCtorEq, Option.some.injEq, Ne.symm different,
          if_false] at weights
        omega
  case bounded =>
    intro target other at'
    rcases getElem?_set_cases at' with ⟨rfl, rfl⟩ | ⟨_, old⟩
    · exact Nat.le_trans less (coherent.bounded found)
    · exact coherent.bounded old
  case cancelledIdle =>
    intro target other at' set
    rcases getElem?_set_cases at' with ⟨rfl, rfl⟩ | ⟨_, old⟩
    · rcases moved.cancelled set with before | ⟨rfl, same⟩
      · have := coherent.cancelledIdle found before
        omega
      · have := coherent.cancellingIdle held found
        omega
    · exact coherent.cancelledIdle old set
  case cancellingIdle =>
    intro place target other at' atShared
    rcases getElem?_set_cases at' with ⟨rfl, same⟩ | ⟨_, old⟩
    · obtain ⟨rfl, last, lessOne⟩ := moved.cancelling same.symm
      rcases getElem?_set_cases atShared with ⟨_, rfl⟩ | ⟨different, _⟩
      · rw [lessOne, last]
        rfl
      · exact absurd rfl different
    · rcases getElem?_set_cases atShared with ⟨rfl, rfl⟩ | ⟨_, oldShared⟩
      · have := coherent.cancellingIdle old found
        omega
      · exact coherent.cancellingIdle old oldShared
  case owned =>
    intro place target other at' arc
    simp only [List.length_set]
    rcases getElem?_set_cases at' with ⟨rfl, rfl⟩ | ⟨_, old⟩
    · rw [owns' target arc]
      exact lt_length found
    · exact coherent.owned old arc
  case registered =>
    intro target other at' positive
    rcases getElem?_set_cases at' with ⟨rfl, rfl⟩ | ⟨_, old⟩
    · rw [sameKey]
      exact coherent.registered found (by omega)
    · exact coherent.registered old positive
  case keyed =>
    intro key target named
    obtain ⟨old, oldFound, same⟩ := coherent.keyed named
    by_cases here : target = shared
    · subst here
      obtain rfl : entry = old := Option.some.inj (found.symm.trans oldFound)
      exact ⟨entry', getElem?_set_of found, sameKey.trans same⟩
    · exact ⟨old, by simpa only [List.getElem?_set_ne (Ne.symm here)] using oldFound, same⟩
  case locked =>
    intro place key existing at'
    exact coherent.locked (entryAt at').2
  case sole =>
    intro place target key existing other at' atShared same positive
    have old := (entryAt at').2
    rcases getElem?_set_cases atShared with ⟨rfl, rfl⟩ | ⟨_, oldShared⟩
    · exact coherent.sole old found (sameKey.symm.trans same) (by omega)
    · exact coherent.sole old oldShared same positive
  case candidate =>
    intro place target key at'
    obtain ⟨other, oldFound, same, bound⟩ := coherent.candidate (entryAt at').2
    by_cases here : target = shared
    · subst here
      obtain rfl : entry = other := Option.some.inj (found.symm.trans oldFound)
      exact ⟨entry', getElem?_set_of found, sameKey.trans same, by omega⟩
    · exact ⟨other, by simpa only [List.getElem?_set_ne (Ne.symm here)] using oldFound, same, bound⟩

/-- A producer step changes nothing the registry or the callers rely on. -/
theorem Coherent.producer {state : State T} (coherent : Coherent state)
    {shared : Nat} {entry entry' : Shared T} {label : Label T}
    (found : state.shareds[shared]? = some entry)
    (moved : ProducerStep shared entry label entry')
    : Coherent { state with shareds := state.shareds.set shared entry' } := by
  obtain ⟨sameKey, sameUsers, sameToken⟩ := moved.frame
  -- every entry afterwards stands for one with the same key, counter and token before
  have before {target : Nat} {other : Shared T}
      (at' : (state.shareds.set shared entry')[target]? = some other)
      : ∃ old, state.shareds[target]? = some old ∧ other.key = old.key
          ∧ other.users = old.users ∧ other.cancelled = old.cancelled := by
    rcases getElem?_set_cases at' with ⟨rfl, rfl⟩ | ⟨_, old⟩
    · exact ⟨entry, found, sameKey, sameUsers, sameToken⟩
    · exact ⟨other, old, rfl, rfl, rfl⟩
  have after {target : Nat} {old : Shared T} (at' : state.shareds[target]? = some old)
      : ∃ other, (state.shareds.set shared entry')[target]? = some other
          ∧ other.key = old.key ∧ other.users = old.users := by
    by_cases here : target = shared
    · subst here
      obtain rfl : entry = old := Option.some.inj (found.symm.trans at')
      exact ⟨entry', getElem?_set_of found, sameKey, sameUsers⟩
    · exact ⟨old, by simpa only [List.getElem?_set_ne (Ne.symm here)] using at', rfl, rfl⟩
  constructor
  case accounted =>
    intro target other at'
    obtain ⟨old, oldFound, _, users, _⟩ := before at'
    rw [users, coherent.accounted oldFound]
    rfl
  case bounded =>
    intro target other at'
    obtain ⟨old, oldFound, _, users, _⟩ := before at'
    rw [users]
    exact coherent.bounded oldFound
  case cancelledIdle =>
    intro target other at' set
    obtain ⟨old, oldFound, _, users, token⟩ := before at'
    rw [users]
    exact coherent.cancelledIdle oldFound (token ▸ set)
  case cancellingIdle =>
    intro place target other held at'
    obtain ⟨old, oldFound, _, users, _⟩ := before at'
    rw [users]
    exact coherent.cancellingIdle held oldFound
  case owned =>
    intro place target other held arc
    simp only [List.length_set]
    exact coherent.owned held arc
  case registered =>
    intro target other at' positive
    obtain ⟨old, oldFound, key, users, _⟩ := before at'
    rw [key]
    exact coherent.registered oldFound (users ▸ positive)
  case keyed =>
    intro key target named
    obtain ⟨old, oldFound, same⟩ := coherent.keyed named
    obtain ⟨other, at', sameKey', _⟩ := after oldFound
    exact ⟨other, at', sameKey'.trans same⟩
  case locked => exact coherent.locked
  case sole =>
    intro place target key existing other held at' same positive
    obtain ⟨old, oldFound, key', users, _⟩ := before at'
    exact coherent.sole held oldFound (key'.symm.trans same) (users ▸ positive)
  case candidate =>
    intro place target key held
    obtain ⟨old, oldFound, same, bound⟩ := coherent.candidate held
    obtain ⟨other, at', sameKey', users⟩ := after oldFound
    exact ⟨other, at', sameKey'.trans same, users ▸ bound⟩

/-- Every step keeps the registry coherent, by cases on the step. -/
theorem Coherent.step {state after : State T} {label : Label T}
    (taken : (system T).step state label after) (coherent : Coherent state)
    : Coherent after := by
  cases taken with
  | enter free counted => exact coherent.enter _ free counted
  | attach held found joined => exact coherent.attach held found joined
  | create held refused => exact coherent.create held refused
  | handle held found moved => exact coherent.handle held found moved
  | producer found moved => exact coherent.producer found moved

/-- Every reachable registry is coherent. -/
theorem coherent_of_reachable {state : State T} (reached : (system T).Reachable state)
    : Coherent state :=
  reached.invariant (fun start => start ▸ .empty) Coherent.step

end MoenotesAssets.SharedWork
