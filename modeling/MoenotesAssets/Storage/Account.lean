import MoenotesAssets.SharedWork.References
import MoenotesAssets.Storage.Model

/-! The budget counts the live reservations, a directory never outlives its reservation,
and a download lives as long as something refers to its `Shared`.
-/

namespace MoenotesAssets.Storage

open Foundation Foundation.Arena Foundation.Machine

variable {limits : Limits} {sizes : String → Option Nat}

-----------------------------------------------------------------------------------------
-- The budget
-----------------------------------------------------------------------------------------

/-- A granted reservation is added without overflow and stays within the budget. -/
theorem Budget.reserve_some {budget budget' : Budget} {bytes : Nat}
    (reserved : budget.reserve bytes = some budget')
    : budget'.used = budget.used + bytes ∧ budget'.used ≤ budget.max
      ∧ budget'.used ≤ max64 ∧ budget'.max = budget.max := by
  obtain ⟨used, added, rfl⟩ := Option.map_eq_some_iff.mp reserved
  obtain ⟨added, within⟩ := Option.filter_eq_some_iff.mp added
  obtain ⟨rfl, narrow⟩ := checkedAdd_eq_some added
  exact ⟨rfl, by simpa using within, narrow, rfl⟩

/-- A release leaves the limit alone. -/
@[simp] theorem Budget.release_max (budget : Budget) (bytes : Nat)
    : (budget.release bytes).max = budget.max := by
  simp only [Budget.release]

/-- A release of counted bytes does not wrap. -/
theorem Budget.release_used {budget : Budget} {bytes : Nat} (counted : bytes ≤ budget.used)
    : (budget.release bytes).used = budget.used - bytes :=
  wrappingSub_eq counted

-----------------------------------------------------------------------------------------
-- One download
-----------------------------------------------------------------------------------------

/-- What the closure holds in each of its phases. -/
def Job.Shaped (job : Job) : Prop :=
  match job.phase with
  | .idle | .slot | .measured | .failed _ | .freed =>
      job.reservation = none ∧ job.payload = none
  | .reserved | .prepared | .receiving _ => ∃ bytes, job.reservation = some bytes
  | .ready | .stored => ∃ bytes, job.reservation = some bytes ∧ job.payload = some bytes
  | .unwinding _ | .dropping _ => True

/-- A reservation is for the declared size, and bytes on disk are within a live one. -/
structure Job.Lawful (job : Job) : Prop where
  sized : ∀ {bytes : Nat}, job.reservation = some bytes → job.size = some bytes
  within
    : ∀ {written : Nat},
        job.payload = some written → ∃ bytes, job.reservation = some bytes ∧ written ≤ bytes
  shaped : job.Shaped

/-- A download whose producer has not started holds nothing. -/
theorem Job.Lawful.new (size : Option Nat) : (Job.new size).Lawful := by
  constructor <;> simp [Job.new, Job.Shaped]

/-- Every step of a download keeps its law. -/
theorem JobStep.lawful {job job' : Job} {budget budget' : Budget} {label : JobLabel}
    (moved : JobStep limits job budget label job' budget') (lawful : job.Lawful)
    : job'.Lawful := by
  have shaped := lawful.shaped
  cases moved with
  | measure at' =>
      simp only [Job.Shaped, at'] at shaped
      exact ⟨lawful.sized, lawful.within, shaped⟩
  | reserve at' sized =>
      simp only [Job.Shaped, at'] at shaped
      refine ⟨fun held => ?_, fun written => ?_, ⟨_, rfl⟩⟩
      · obtain rfl := Option.some.inj held
        exact sized
      · cases shaped.2.symm.trans written
  | directory at' =>
      simp only [Job.Shaped, at'] at shaped
      obtain ⟨bytes, holds⟩ := shaped
      refine ⟨lawful.sized, fun written => ?_, ⟨bytes, holds⟩⟩
      obtain rfl := Option.some.inj written
      exact ⟨bytes, holds, Nat.zero_le _⟩
  | file at' =>
      simp only [Job.Shaped, at'] at shaped
      exact ⟨lawful.sized, lawful.within, shaped⟩
  | @chunk size received length written at' sized fits buffered =>
      simp only [Job.Shaped, at'] at shaped
      obtain ⟨bytes, holds⟩ := shaped
      obtain rfl : size = bytes := Option.some.inj (sized.symm.trans (lawful.sized holds))
      refine ⟨lawful.sized, fun shown => ?_, ⟨size, holds⟩⟩
      obtain rfl := Option.some.inj shown
      exact ⟨size, holds, Nat.le_trans buffered fits⟩
  | @succeed size at' sized =>
      simp only [Job.Shaped, at'] at shaped
      obtain ⟨bytes, holds⟩ := shaped
      obtain rfl : size = bytes := Option.some.inj (sized.symm.trans (lawful.sized holds))
      refine ⟨lawful.sized, fun shown => ?_, ⟨size, holds, rfl⟩⟩
      obtain rfl := Option.some.inj shown
      exact ⟨size, holds, Nat.le_refl _⟩
  | fail => exact ⟨lawful.sized, lawful.within, trivial⟩
  | removeDirectory leaves =>
      refine ⟨lawful.sized, by simp, ?_⟩
      cases at' : job.phase <;> simp_all [Job.Shaped, Phase.letsGo]
  | release leaves removed =>
      refine ⟨by simp, fun written => ?_, ?_⟩
      · cases removed.symm.trans written
      · cases at' : job.phase <;> simp_all [Job.Shaped, Phase.letsGo, Phase.released]
  | settle at' removed free => exact ⟨lawful.sized, lawful.within, free, removed⟩

/-- A download moves the budget by exactly what it reserves or releases. -/
theorem JobStep.balanced {job job' : Job} {budget budget' : Budget} {label : JobLabel}
    (moved : JobStep limits job budget label job' budget') (lawful : job.Lawful)
    (counted : job.held ≤ budget.used)
    : budget'.used + job.held = budget.used + job'.held ∧ budget'.max = budget.max
      ∧ (budget'.used ≤ budget.used ∨ budget'.used ≤ budget.max ∧ budget'.used ≤ max64) := by
  cases moved with
  | reserve at' sized reserved =>
      have shaped := lawful.shaped
      simp only [Job.Shaped, at'] at shaped
      obtain ⟨used, within, narrow', same⟩ := Budget.reserve_some reserved
      refine ⟨?_, same, Or.inr ⟨within, narrow'⟩⟩
      simp [Job.held, shaped.1, used]
  | @release bytes leaves removed holds =>
      have amount : job.held = bytes := by simp [Job.held, holds]
      have used := Budget.release_used (amount ▸ counted)
      rw [amount] at counted
      refine ⟨?_, budget.release_max bytes, Or.inl (used ▸ Nat.sub_le _ _)⟩
      rw [amount, used, Nat.sub_add_cancel counted]
      rfl
  | measure | directory | file | chunk | succeed | fail | removeDirectory | settle =>
      exact ⟨rfl, rfl, Or.inl (Nat.le_refl _)⟩

-----------------------------------------------------------------------------------------
-- A download and its Shared
-----------------------------------------------------------------------------------------

/-- The closure is running or has just ended. -/
def Phase.inside : Phase → Bool
  | .slot | .measured | .reserved | .prepared | .receiving _ | .ready | .unwinding _
  | .failed _ => true
  | .idle | .stored | .dropping _ | .freed => false

/-- The download behind an outcome: a value is stored while anything refers to it and is
dropped afterwards, an error comes from a closure that holds nothing.
-/
def Job.Delivers (strong : Nat) (job : Job) : SharedWork.Outcome Download → Prop
  | .ok value =>
      job.phase = .stored ∧ 0 < strong ∧ job.reservation = some value.bytes
      ∨ ((∃ agent, job.phase = .dropping agent) ∨ job.phase = .freed) ∧ strong = 0
  | .error _ => ∃ ending, job.phase = .failed ending

/-- The closure, its producer and the stored result are at the same point. -/
def Job.Matches (entry : SharedWork.Shared Download) (strong : Nat) (job : Job) : Prop :=
  match entry.producer with
  | .spawned => entry.result = none ∧ job.phase = .idle
  | .running => entry.result = none ∧ job.phase.inside = true
  | .returned outcome => entry.result = none ∧ job.Delivers strong outcome
  | .published | .ended => ∃ outcome, entry.result = some outcome ∧ job.Delivers strong outcome

/-- One download after the drops a registry step caused. -/
def Job.sweep (agent : Agent) (strong : Nat) (job : Job) : Job :=
  if job.phase = .stored ∧ strong = 0 then { job with phase := .dropping agent } else job

/-- Drops keep what a download holds; only its phase may change. -/
theorem Job.sweep_frame (agent : Agent) (strong : Nat) (job : Job)
    : (job.sweep agent strong).size = job.size
      ∧ (job.sweep agent strong).reservation = job.reservation
      ∧ (job.sweep agent strong).payload = job.payload
      ∧ ((job.sweep agent strong).phase = job.phase
        ∨ (job.sweep agent strong).phase = .dropping agent) := by
  unfold Job.sweep
  split
  · exact ⟨rfl, rfl, rfl, Or.inr rfl⟩
  · exact ⟨rfl, rfl, rfl, Or.inl rfl⟩

/-- Following its producer keeps what a download holds. -/
theorem Job.follow_frame (label : SharedWork.Label Download) (shared : Nat) (job : Job)
    : (job.follow label shared).size = job.size
      ∧ (job.follow label shared).reservation = job.reservation
      ∧ (job.follow label shared).payload = job.payload := by
  unfold Job.follow
  split
  · split <;> exact ⟨rfl, rfl, rfl⟩
  · split <;> exact ⟨rfl, rfl, rfl⟩
  · exact ⟨rfl, rfl, rfl⟩

/-- A closure follows no producer but its own. -/
theorem Job.follow_other {label : SharedWork.Label Download} {shared : Nat} (job : Job)
    (other : label.producer? ≠ some shared)
    : job.follow label shared = job := by
  unfold Job.follow
  cases label <;> simp_all [SharedWork.Label.producer?]

/-- The law of a download survives the drops of a registry step. -/
theorem Job.Lawful.sweep {job : Job} (lawful : job.Lawful) (agent : Agent) (strong : Nat)
    : (job.sweep agent strong).Lawful := by
  unfold Job.sweep
  split
  · exact ⟨lawful.sized, lawful.within, trivial⟩
  · exact lawful

/-- An outcome is delivered by the swept download, when a dead `Shared` stays dead. -/
theorem Job.Delivers.sweep {job : Job} {strong after : Nat}
    {outcome : SharedWork.Outcome Download} (delivers : job.Delivers strong outcome)
    (agent : Agent) (dead : strong = 0 → after = 0)
    : (job.sweep agent after).Delivers after outcome := by
  cases outcome with
  | error message =>
      obtain ⟨ending, failed⟩ := delivers
      exact ⟨ending, by simp [Job.sweep, failed]⟩
  | ok value =>
      rcases delivers with ⟨stored, alive, holds⟩ | ⟨dropped, gone⟩
      · by_cases last : after = 0
        · exact Or.inr ⟨Or.inl ⟨agent, by simp [Job.sweep, stored, last]⟩, last⟩
        · refine Or.inl ⟨by simp [Job.sweep, stored, last], Nat.pos_of_ne_zero last, ?_⟩
          simpa [Job.sweep, stored, last] using holds
      · refine Or.inr ⟨?_, dead gone⟩
        rcases dropped with ⟨other, dropping⟩ | freed
        · exact Or.inl ⟨other, by simp [Job.sweep, dropping]⟩
        · exact Or.inr (by simp [Job.sweep, freed])

/-- A step of another party keeps a download matched to its `Shared`. -/
theorem Job.Matches.sweep {entry entry' : SharedWork.Shared Download} {job : Job}
    {strong after : Nat} (matched : job.Matches entry strong) (agent : Agent)
    (dead : strong = 0 → after = 0) (producer : entry'.producer = entry.producer)
    (result : entry'.result = entry.result)
    : (job.sweep agent after).Matches entry' after := by
  unfold Job.Matches at matched ⊢
  rw [producer, result]
  cases kind : entry.producer with
  | spawned =>
      simp only [kind] at matched ⊢
      exact ⟨matched.1, by simp [Job.sweep, matched.2]⟩
  | running =>
      simp only [kind] at matched ⊢
      refine ⟨matched.1, ?_⟩
      have unstored : job.phase ≠ .stored := fun stored => by simp [stored, Phase.inside] at matched
      simpa [Job.sweep, unstored] using matched.2
  | returned outcome =>
      simp only [kind] at matched ⊢
      exact ⟨matched.1, matched.2.sweep agent dead⟩
  | published | ended =>
      simp only [kind] at matched ⊢
      obtain ⟨outcome, stored, delivers⟩ := matched
      exact ⟨outcome, stored, delivers.sweep agent dead⟩

/-- A step of its own producer keeps a download matched to its `Shared`. -/
theorem Job.Matches.follow {entry entry' : SharedWork.Shared Download} {jobs : List Job}
    {job : Job} {shared strong after : Nat} {label : SharedWork.Label Download}
    (matched : job.Matches entry strong) (found : jobs[shared]? = some job)
    (allowed : Allowed jobs label) (moved : SharedWork.ProducerStep shared entry label entry')
    (alive : entry.producer.strong ≤ strong) (alive' : entry'.producer.strong ≤ after)
    : ((job.follow label shared).sweep (agentOf label) after).Matches entry' after := by
  cases moved with
  | start ready =>
      simp only [Job.Matches, ready] at matched
      exact ⟨matched.1, by simp [Job.follow, Job.sweep, Phase.inside]⟩
  | complete ready =>
      simp only [Job.Matches, ready] at matched
      obtain ⟨other, found', _, holds⟩ := allowed
      obtain rfl := Option.some.inj (found.symm.trans found')
      have lives : 0 < after := alive'
      refine ⟨matched.1, Or.inl ⟨?_, lives, ?_⟩⟩
      · simp [Job.follow, Job.sweep, Nat.ne_of_gt lives]
      · simpa [Job.follow, Job.sweep, Nat.ne_of_gt lives] using holds
  | @fail error ready =>
      simp only [Job.Matches, ready] at matched
      obtain ⟨other, found', failed⟩ := allowed
      obtain rfl := Option.some.inj (found.symm.trans found')
      exact ⟨matched.1, .error error, by simp [Job.follow, Job.sweep, failed]⟩
  | panic ready =>
      simp only [Job.Matches, ready] at matched
      obtain ⟨other, found', failed⟩ := allowed
      obtain rfl := Option.some.inj (found.symm.trans found')
      exact ⟨matched.1, .panic, by simp [Job.follow, Job.sweep, failed]⟩
  | @publish outcome ready =>
      simp only [Job.Matches, ready] at matched
      simp only [ready, SharedWork.Producer.strong] at alive
      exact ⟨outcome, rfl, matched.2.sweep _ (fun gone => by omega)⟩
  | finish ready =>
      simp only [Job.Matches, ready] at matched
      simp only [ready, SharedWork.Producer.strong] at alive
      obtain ⟨outcome, stored, delivers⟩ := matched
      exact ⟨outcome, stored, delivers.sweep _ (fun gone => by omega)⟩

/-- A step of the closure keeps it matched to its `Shared`. -/
theorem JobStep.matches {job job' : Job} {budget budget' : Budget} {label : JobLabel}
    {entry : SharedWork.Shared Download} {strong : Nat}
    (moved : JobStep limits job budget label job' budget') (matched : job.Matches entry strong)
    : job'.Matches entry strong := by
  have delivers {outcome : SharedWork.Outcome Download} (delivers : job.Delivers strong outcome)
      : job'.Delivers strong outcome := by
    cases outcome with
    | error message =>
        obtain ⟨ending, failed⟩ := delivers
        cases moved <;> simp_all [Phase.fallible, Phase.letsGo]
    | ok value =>
        rcases delivers with ⟨stored, _, _⟩ | ⟨⟨agent, dropping⟩ | freed, gone⟩
        · cases moved <;> simp_all [Phase.fallible, Phase.letsGo]
        · cases moved <;> simp_all [Phase.fallible, Phase.letsGo, Phase.released, Job.Delivers]
        · cases moved <;> simp_all [Phase.fallible, Phase.letsGo]
  unfold Job.Matches at matched ⊢
  cases kind : entry.producer with
  | spawned =>
      simp only [kind] at matched ⊢
      cases moved <;> simp_all [Phase.fallible, Phase.letsGo]
  | running =>
      simp only [kind] at matched ⊢
      refine ⟨matched.1, ?_⟩
      cases moved with
      | release leaves =>
          cases at' : job.phase <;> simp_all [Phase.letsGo, Phase.released, Phase.inside]
      | measure | reserve | directory | file | chunk | succeed | fail | settle => rfl
      | removeDirectory => exact matched.2
  | returned outcome =>
      simp only [kind] at matched ⊢
      exact ⟨matched.1, delivers matched.2⟩
  | published | ended =>
      simp only [kind] at matched ⊢
      obtain ⟨outcome, stored, its⟩ := matched
      exact ⟨outcome, stored, delivers its⟩

end MoenotesAssets.Storage
