import MoenotesAssets.Storage.Account

/-! Temporary storage over whole runs: the budget is the sum of the live reservations,
payload bytes are reserved, leases keep their payload, and a quiet service holds nothing.
-/

namespace MoenotesAssets.Storage

open Foundation Foundation.Arena Foundation.Machine

variable {limits : Limits} {sizes : String → Option Nat}

-----------------------------------------------------------------------------------------
-- The invariant
-----------------------------------------------------------------------------------------

/-- The agents that exist. -/
def Agent.Known (work : SharedWork.State Download) : Agent → Prop
  | .caller index => index < work.callers.length
  | .producer shared => shared < work.shareds.length

/-- Every `Shared` has a download at the same point, and the budget counts what the
downloads and the exports hold.
-/
structure Accounted (limits : Limits) (state : State) : Prop where
  aligned : state.jobs.length = state.work.shareds.length
  matched
    : ∀ {shared : Nat} {entry : SharedWork.Shared Download} {job : Job},
        state.work.shareds[shared]? = some entry
        → state.jobs[shared]? = some job
        → job.Matches entry (state.work.strongCount shared)
  lawful : ∀ {shared : Nat} {job : Job}, state.jobs[shared]? = some job → job.Lawful
  known
    : ∀ {shared : Nat} {job : Job} {agent : Agent},
        state.jobs[shared]? = some job
        → job.phase = .dropping agent
        → agent.Known state.work
  leased
    : ∀ {index shared : Nat} {value : Download},
        state.work.callers[index]? = some (.leased shared value)
        → ∃ entry,
            state.work.shareds[shared]? = some entry ∧ entry.result = some (.ok value)
  used
    : state.budget.used = total Job.held state.jobs + total Export.held state.exports
  bounded : state.budget.used ≤ state.budget.max
  narrow : state.budget.used ≤ max64
  limit : state.budget.max = limits.tempBytes

/-- A service that has just been opened holds nothing. -/
theorem Accounted.open : Accounted limits (.open limits) := by
  constructor <;> simp [State.open, SharedWork.State.empty]

-----------------------------------------------------------------------------------------
-- Registry steps
-----------------------------------------------------------------------------------------

/-- The downloads after a registry step: an old one that followed its producer and was
swept, or a new one.
-/
theorem jobs_after {label : SharedWork.Label Download} {after : SharedWork.State Download}
    {jobs : List Job} {shared : Nat} {job' : Job}
    (found : (sweepJobs (agentOf label) after (followJobs sizes label after jobs))[shared]?
      = some job')
    : (∃ job,
        jobs[shared]? = some job
        ∧ job' = (job.follow label shared).sweep (agentOf label) (after.strongCount shared))
      ∨ jobs.length ≤ shared ∧ ∃ size, job' = Job.new size := by
  rw [sweepJobs, List.getElem?_mapIdx, Option.map_eq_some_iff] at found
  obtain ⟨job, followed, rfl⟩ := found
  rw [followJobs, List.getElem?_append, List.length_mapIdx] at followed
  split at followed
  · rw [List.getElem?_mapIdx, Option.map_eq_some_iff] at followed
    obtain ⟨job, held, rfl⟩ := followed
    exact Or.inl ⟨job, held, rfl⟩
  · rename_i beyond
    rw [List.getElem?_map, Option.map_eq_some_iff] at followed
    obtain ⟨entry, _, rfl⟩ := followed
    exact Or.inr ⟨Nat.not_lt.mp beyond, sizes entry.key, by simp [Job.new]⟩

/-- There is one download for every `Shared` after a registry step. -/
theorem jobs_aligned {label : SharedWork.Label Download} {after : SharedWork.State Download}
    {jobs : List Job} (grows : jobs.length ≤ after.shareds.length)
    : (sweepJobs (agentOf label) after (followJobs sizes label after jobs)).length
      = after.shareds.length := by
  simp only [sweepJobs, followJobs, List.length_mapIdx, List.length_append, List.length_map,
    List.length_drop]
  omega

/-- A registry step changes nothing that downloads hold. -/
theorem jobs_held {label : SharedWork.Label Download} {after : SharedWork.State Download}
    {jobs : List Job}
    : total Job.held (sweepJobs (agentOf label) after (followJobs sizes label after jobs))
      = total Job.held jobs := by
  have swept : ∀ shared (job : Job),
      (job.sweep (agentOf label) (after.strongCount shared)).held = job.held := by
    intro shared job
    simp only [Job.held, (job.sweep_frame _ _).2.1]
  have followed : ∀ shared (job : Job), (job.follow label shared).held = job.held := by
    intro shared job
    simp only [Job.held, (job.follow_frame label shared).2.1]
  have fresh : total Job.held
      ((after.shareds.drop jobs.length).map (fun entry => Job.new (sizes entry.key))) = 0 := by
    rw [total_eq_zero]
    intro job member
    obtain ⟨entry, _, rfl⟩ := List.mem_map.mp member
    rfl
  change total Job.held ((followJobs sizes label after jobs).mapIdx fun shared job =>
    job.sweep (agentOf label) (after.strongCount shared)) = _
  rw [total_mapIdx Job.held swept, followJobs, total_append, total_mapIdx Job.held followed,
    fresh, Nat.add_zero]

/-- The agent of a registry step exists after it. -/
theorem agentOf_known {state after : SharedWork.State Download}
    {label : SharedWork.Label Download} (taken : SharedWork.Step state label after)
    : (agentOf label).Known after := by
  cases taken with
  | enter => simp [agentOf, Agent.Known, SharedWork.State.enter]
  | attach held => simpa [agentOf, Agent.Known, SharedWork.State.attach] using lt_length held
  | create held => simpa [agentOf, Agent.Known, SharedWork.State.create] using lt_length held
  | handle held found moved =>
      cases moved <;> simpa [agentOf, Agent.Known] using lt_length held
  | producer found moved =>
      cases moved <;> simpa [agentOf, Agent.Known] using lt_length found

/-- Agents stay known. -/
theorem Agent.Known.later {state after : SharedWork.State Download}
    {label : SharedWork.Label Download} {agent : Agent} (known : agent.Known state)
    (taken : SharedWork.Step state label after)
    : agent.Known after := by
  cases agent with
  | caller => exact Nat.lt_of_lt_of_le known taken.callers_le
  | producer => exact Nat.lt_of_lt_of_le known taken.shareds_le

/-- The outer task of a `Shared` is one of its strong references. -/
theorem producer_le {work : SharedWork.State Download} {shared : Nat}
    {entry : SharedWork.Shared Download} (found : work.shareds[shared]? = some entry)
    : entry.producer.strong ≤ work.strongCount shared := by
  simp [SharedWork.State.strongCount, SharedWork.State.producerCount, found]

/-- A stored value is not replaced: its producer has nothing left to publish. -/
theorem Job.Matches.keeps {entry entry' : SharedWork.Shared Download} {job : Job}
    {strong shared : Nat} {label : SharedWork.Label Download}
    {outcome : SharedWork.Outcome Download}
    (matched : job.Matches entry strong)
    (moved : SharedWork.ProducerStep shared entry label entry')
    (stored : entry.result = some outcome)
    : entry'.result = some outcome := by
  cases moved with
  | publish ready =>
      simp only [Job.Matches, ready] at matched
      cases matched.1.symm.trans stored
  | start | complete | fail | panic | finish => exact stored

/-- A registry step keeps the account. -/
theorem Accounted.work {state : State} {after : SharedWork.State Download}
    {label : SharedWork.Label Download} (accounted : Accounted limits state)
    (taken : SharedWork.Step state.work label after) (allowed : Allowed state.jobs label)
    : Accounted limits
        {
          state with
          work := after
          jobs := sweepJobs (agentOf label) after (followJobs sizes label after state.jobs)
        } := by
  have grows : state.jobs.length ≤ after.shareds.length := accounted.aligned ▸ taken.shareds_le
  constructor
  case aligned => exact jobs_aligned grows
  case matched =>
    intro shared entry' job' found held
    rcases taken.entry found with ⟨entry, before, moved⟩ | ⟨other, entry, before, same, result⟩
      | ⟨_, new, key, rfl⟩
    · rcases jobs_after held with ⟨job, old, rfl⟩ | ⟨beyond, _⟩
      · exact (accounted.matched before old).follow old allowed moved (producer_le before)
          (producer_le found)
      · have below := lt_length before
        rw [← accounted.aligned] at below
        omega
    · rcases jobs_after held with ⟨job, old, rfl⟩ | ⟨beyond, _⟩
      · rw [job.follow_other other]
        exact (accounted.matched before old).sweep _ (taken.dead (lt_length before)) same result
      · have below := lt_length before
        rw [← accounted.aligned] at below
        omega
    · rcases jobs_after held with ⟨job, old, _⟩ | ⟨_, size, rfl⟩
      · have below := lt_length old
        rw [accounted.aligned] at below
        omega
      · exact ⟨rfl, rfl⟩
  case lawful =>
    intro shared job' held
    rcases jobs_after held with ⟨job, old, rfl⟩ | ⟨_, size, rfl⟩
    · refine Job.Lawful.sweep ?_ _ _
      have lawful := accounted.lawful old
      obtain ⟨size, reservation, payload⟩ := job.follow_frame label shared
      refine ⟨?_, ?_, ?_⟩
      · rw [reservation, size]
        exact lawful.sized
      · rw [reservation, payload]
        exact lawful.within
      · have shaped := lawful.shaped
        unfold Job.follow
        split
        · split
          · rename_i other same
            subst same
            cases taken with
            | producer found moved =>
                cases moved with
                | start ready =>
                    have matched := accounted.matched found old
                    simp only [Job.Matches, ready] at matched
                    simpa only [Job.Shaped, matched.2] using shaped
            | handle _ _ moved => cases moved
          · exact shaped
        · split
          · rename_i other value same
            subst same
            obtain ⟨job, held, ready, _⟩ := allowed
            obtain rfl := Option.some.inj (old.symm.trans held)
            simpa only [Job.Shaped, ready] using shaped
          · exact shaped
        · exact shaped
    · exact Job.Lawful.new size
  case known =>
    intro shared job' agent held dropping
    rcases jobs_after held with ⟨job, old, rfl⟩ | ⟨_, size, rfl⟩
    · rcases ((job.follow label shared).sweep_frame (agentOf label)
          (after.strongCount shared)).2.2.2 with kept | swept
      · rw [kept] at dropping
        have before : job.phase = .dropping agent := by
          unfold Job.follow at dropping
          split at dropping
          · split at dropping
            · cases dropping
            · exact dropping
          · split at dropping
            · cases dropping
            · exact dropping
          · exact dropping
        exact (accounted.known old before).later taken
      · rw [swept] at dropping
        cases dropping
        exact agentOf_known taken
    · cases dropping
  case leased =>
    intro index shared value held
    have stored : ∃ entry,
        state.work.shareds[shared]? = some entry ∧ entry.result = some (.ok value) := by
      rcases taken.leases held with old | now
      · exact accounted.leased old
      · exact now
    obtain ⟨entry, before, stored⟩ := stored
    obtain ⟨entry', found⟩ := taken.keeps before
    refine ⟨entry', found, ?_⟩
    rcases taken.entry found with ⟨same, again, moved⟩ | ⟨_, same, again, _, result⟩
      | ⟨_, new, _⟩
    · obtain rfl := Option.some.inj (before.symm.trans again)
      have below := lt_length before
      rw [← accounted.aligned] at below
      exact (accounted.matched before (List.getElem?_eq_getElem below)).keeps moved stored
    · obtain rfl := Option.some.inj (before.symm.trans again)
      exact result.trans stored
    · have below := lt_length before
      omega
  case used =>
    rw [jobs_held]
    exact accounted.used
  case bounded => exact accounted.bounded
  case narrow => exact accounted.narrow
  case limit => exact accounted.limit

-----------------------------------------------------------------------------------------
-- Downloads and exports
-----------------------------------------------------------------------------------------

/-- What an export holds is counted. -/
theorem Accounted.export_le {state : State} (accounted : Accounted limits state)
    {index : Nat} {export' : Export} (found : state.exports[index]? = some export')
    : export'.held ≤ state.budget.used := by
  have counted := le_total Export.held found
  rw [accounted.used]
  omega

/-- What a download holds is counted. -/
theorem Accounted.job_le {state : State} (accounted : Accounted limits state)
    {shared : Nat} {job : Job} (found : state.jobs[shared]? = some job)
    : job.held ≤ state.budget.used := by
  have counted := le_total Job.held found
  rw [accounted.used]
  omega

/-- A step of a download keeps the account. -/
theorem Accounted.job {state : State} {shared : Nat} {job job' : Job} {label : JobLabel}
    {budget : Budget} (accounted : Accounted limits state)
    (found : state.jobs[shared]? = some job)
    (moved : JobStep limits job state.budget label job' budget)
    : Accounted limits { state with jobs := state.jobs.set shared job', budget } := by
  obtain ⟨balance, max, within⟩ :=
    moved.balanced (accounted.lawful found) (accounted.job_le found)
  constructor
  case aligned => simpa using accounted.aligned
  case matched =>
    intro other entry held atEntry atJob
    rcases getElem?_set_cases atJob with ⟨rfl, rfl⟩ | ⟨_, old⟩
    · exact moved.matches (accounted.matched atEntry found)
    · exact accounted.matched atEntry old
  case lawful =>
    intro other held atJob
    rcases getElem?_set_cases atJob with ⟨rfl, rfl⟩ | ⟨_, old⟩
    · exact moved.lawful (accounted.lawful found)
    · exact accounted.lawful old
  case known =>
    intro other held agent atJob dropping
    rcases getElem?_set_cases atJob with ⟨rfl, rfl⟩ | ⟨_, old⟩
    · have before : job.phase = .dropping agent := by
        cases moved with
        | removeDirectory => exact dropping
        | release leaves =>
            cases at' : job.phase <;> simp_all [Phase.released, Phase.letsGo]
        | measure | reserve | directory | file | chunk | succeed | fail | settle =>
            cases dropping
      exact accounted.known found before
    · exact accounted.known old dropping
  case leased => exact accounted.leased
  case used =>
    have weights := total_set Job.held job' found
    have used := accounted.used
    dsimp only
    omega
  case bounded =>
    have bounded := accounted.bounded
    dsimp only
    rw [max]
    omega
  case narrow =>
    have narrow := accounted.narrow
    dsimp only
    omega
  case limit => exact max.trans accounted.limit

/-- A step that only touches exports and the budget keeps the account if it keeps the sum.
-/
theorem Accounted.exports {state : State} {exports : List Export} {budget : Budget}
    (accounted : Accounted limits state)
    (balance
      : budget.used + total Export.held state.exports
        = state.budget.used + total Export.held exports)
    (bounded : budget.used ≤ state.budget.max) (narrow : budget.used ≤ max64)
    (max : budget.max = state.budget.max)
    : Accounted limits { state with exports, budget } := by
  have used := accounted.used
  exact
    {
      aligned := accounted.aligned
      matched := accounted.matched
      lawful := accounted.lawful
      known := accounted.known
      leased := accounted.leased
      used := by dsimp only; omega
      bounded := by dsimp only; omega
      narrow
      limit := max.trans accounted.limit
    }

/-- Every step keeps the account. -/
theorem Accounted.step {state after : State} {label : Label}
    (taken : Step limits sizes state label after) (accounted : Accounted limits state)
    : Accounted limits after := by
  cases taken with
  | work taken allowed => exact accounted.work taken allowed
  | job found moved => exact accounted.job found moved
  | beginExport =>
      refine accounted.exports ?_ accounted.bounded accounted.narrow rfl
      simp [Export.held]
  | reserveExport found reserved =>
      obtain ⟨used, bounded, narrow, max⟩ := Budget.reserve_some reserved
      refine accounted.exports ?_ bounded narrow max
      have weights := total_set Export.held (.holding limits.workerBytes) found
      simp only [Export.held] at weights
      omega
  | endUnreserved found =>
      refine accounted.exports ?_ accounted.bounded accounted.narrow rfl
      have weights := total_set Export.held .ended found
      simp only [Export.held] at weights
      omega
  | @endReserved index bytes found =>
      have counted : bytes ≤ state.budget.used := accounted.export_le found
      have used := Budget.release_used counted
      have weights := total_set Export.held .ended found
      have bounded := accounted.bounded
      have narrow := accounted.narrow
      simp only [Export.held] at weights
      refine accounted.exports ?_ ?_ ?_ (Budget.release_max _ _)
      · rw [used]
        omega
      · rw [used]
        omega
      · rw [used]
        omega

/-- Every reachable state is accounted. -/
theorem accounted_of_reachable {state : State}
    (reached : (system limits sizes).Reachable state)
    : Accounted limits state :=
  reached.invariant (fun start => start ▸ .open) (fun taken accounted => accounted.step taken)

-----------------------------------------------------------------------------------------
-- Temporary storage
-----------------------------------------------------------------------------------------

/-- A service without callers and producers holds nothing: every download was dropped by
an agent that has returned.
-/
theorem Accounted.drained {state : State} (accounted : Accounted limits state)
    (quiet : state.Quiet)
    : state.budget.used = 0 := by
  have exports : total Export.held state.exports = 0 :=
    (total_eq_zero _ _).mpr fun export' member => by rw [quiet.exports export' member]; rfl
  have jobs : total Job.held state.jobs = 0 := by
    refine (total_eq_zero _ _).mpr fun job member => ?_
    obtain ⟨shared, held⟩ := List.mem_iff_getElem?.mp member
    have below := lt_length held
    rw [accounted.aligned] at below
    have found := List.getElem?_eq_getElem below
    have matched := accounted.matched found held
    have shaped := (accounted.lawful held).shaped
    have ended := (quiet.producers found).1
    simp only [Job.Matches, ended] at matched
    have free : state.work.strongCount shared = 0 := by
      refine SharedWork.State.strongCount_eq_zero ?_ ?_
      · intro caller present
        obtain ⟨index, at'⟩ := List.mem_iff_getElem?.mp present
        rw [(quiet.callers at').1]
        simp [SharedWork.Caller.arc?]
      · exact fun entry again => (quiet.producers again).1
    obtain ⟨outcome, _, delivers⟩ := matched
    cases outcome with
    | error message =>
        obtain ⟨ending, failed⟩ := delivers
        simp only [Job.Shaped, failed] at shaped
        simp [Job.held, shaped.1]
    | ok value =>
        rcases delivers with ⟨_, alive, _⟩ | ⟨⟨agent, dropping⟩ | freed, _⟩
        · omega
        · have known := accounted.known held dropping
          cases agent with
          | caller index =>
              have caller := List.getElem?_eq_getElem
                (show index < state.work.callers.length from known)
              exact absurd dropping ((quiet.callers caller).2 job member)
          | producer other =>
              have entry := List.getElem?_eq_getElem
                (show other < state.work.shareds.length from known)
              exact absurd dropping ((quiet.producers entry).2 job member)
        · simp only [Job.Shaped, freed] at shaped
          simp [Job.held, shaped.1]
  rw [accounted.used, jobs, exports]

/-- What a lease guarantees: the download is stored, so its payload file is complete. -/
theorem Accounted.payload {state : State} (accounted : Accounted limits state)
    {index shared : Nat} {value : Download}
    (held : state.work.callers[index]? = some (.leased shared value))
    : ∃ job,
        state.jobs[shared]? = some job ∧ job.payload = some value.bytes
        ∧ job.reservation = some value.bytes := by
  obtain ⟨entry, found, stored⟩ := accounted.leased held
  have alive := @SharedWork.State.strongCount_pos _ _ _ shared _ held rfl
  have below := lt_length found
  rw [← accounted.aligned] at below
  have at' := List.getElem?_eq_getElem below
  have matched := accounted.matched found at'
  have delivers : (state.jobs[shared]).Delivers (state.work.strongCount shared) (.ok value) := by
    unfold Job.Matches at matched
    split at matched
    · cases matched.1.symm.trans stored
    · cases matched.1.symm.trans stored
    · cases matched.1.symm.trans stored
    all_goals
      obtain ⟨outcome, same, delivers⟩ := matched
      obtain rfl := Option.some.inj (stored.symm.trans same)
      exact delivers
  refine ⟨_, at', ?_⟩
  rcases delivers with ⟨kept, _, holds⟩ | ⟨_, dead⟩
  · have shaped := (accounted.lawful at').shaped
    simp only [Job.Shaped, kept] at shaped
    obtain ⟨bytes, reserved, written⟩ := shaped
    obtain rfl := Option.some.inj (reserved.symm.trans holds)
    exact ⟨written, holds⟩
  · omega

/-- What holds of the temporary storage in a reachable state. -/
structure StorageLaw (limits : Limits) (state : State) : Prop where
  used : state.budget.used = total Job.held state.jobs + total Export.held state.exports
  bounded : state.budget.used ≤ limits.tempBytes
  reserves
    : ∀ {bytes : Nat} {budget : Budget},
        state.budget.reserve bytes = some budget → budget.used = state.budget.used + bytes
  releasesJob
    : ∀ {shared : Nat} {job : Job} {bytes : Nat},
        state.jobs[shared]? = some job
        → job.reservation = some bytes
        → (state.budget.release bytes).used + bytes = state.budget.used
  releasesExport
    : ∀ {index bytes : Nat},
        state.exports[index]? = some (.holding bytes)
        → (state.budget.release bytes).used + bytes = state.budget.used
  present : total Job.present state.jobs ≤ total Job.held state.jobs
  /-- a directory that exists is covered by its live reservation -/
  covered
    : ∀ {shared : Nat} {job : Job} {written : Nat},
        state.jobs[shared]? = some job
        → job.payload = some written
        → ∃ bytes, job.reservation = some bytes ∧ written ≤ bytes
  leased
    : ∀ {index shared : Nat} {value : Download},
        state.work.callers[index]? = some (.leased shared value)
        → ∃ job, state.jobs[shared]? = some job ∧ job.payload = some value.bytes
  drained : state.Quiet → state.budget.used = 0

/-- Temporary storage is accounted for in every reachable state, for every interleaving of
downloads, exports, failures, cancellations and drops.
-/
theorem storage_is_reserved {state : State} (reached : (system limits sizes).Reachable state)
    : StorageLaw limits state := by
  have accounted := accounted_of_reachable reached
  constructor
  case used => exact accounted.used
  case bounded => exact accounted.limit ▸ accounted.bounded
  case reserves => exact fun reserved => (Budget.reserve_some reserved).1
  case releasesJob =>
    intro shared job bytes found holds
    have counted : bytes ≤ state.budget.used := by
      simpa [Job.held, holds] using accounted.job_le found
    rw [Budget.release_used counted, Nat.sub_add_cancel counted]
  case releasesExport =>
    intro index bytes found
    have counted : bytes ≤ state.budget.used := accounted.export_le found
    rw [Budget.release_used counted, Nat.sub_add_cancel counted]
  case present =>
    refine total_mono fun job member => ?_
    obtain ⟨shared, held⟩ := List.mem_iff_getElem?.mp member
    cases written : job.payload with
    | none => simp [Job.present, written]
    | some bytes =>
        obtain ⟨reserved, holds, within⟩ := (accounted.lawful held).within written
        simpa [Job.present, Job.held, written, holds] using within
  case covered => exact fun held written => (accounted.lawful held).within written
  case leased =>
    intro index shared value held
    obtain ⟨job, found, written, _⟩ := accounted.payload held
    exact ⟨job, found, written⟩
  case drained => exact accounted.drained

/-- A download of three bytes that has received two, next to an export with its space. -/
theorem storage_of_one_download
    : ∃ state : State,
        state.budget.used = 6 ∧ total Job.present state.jobs = 2
          ∧ StorageLaw ⟨10, 5, 1, 1⟩ state := by
  let sys := system ⟨10, 5, 1, 1⟩ (fun _ => some 3)
  have start : sys.Execution [] (.open ⟨10, 5, 1, 1⟩) := ⟨_, rfl, .here⟩
  have enter := start.next (.work (@SharedWork.Step.enter _ _ "x" rfl
    (by simp [SharedWork.State.retain, State.open, SharedWork.State.empty])) trivial)
  have create := enter.next (.work (@SharedWork.Step.create _ _ 0 "x" none rfl (by simp)) trivial)
  have starts :=
    create.next (.work (@SharedWork.Step.producer _ _ 0 _ _ _ rfl (.start rfl)) trivial)
  have measure := starts.next (@Step.job _ _ _ 0 _ _ _ _ rfl
    (@JobStep.measure _ _ _ 3 rfl rfl (by decide)))
  have reserve := measure.next (@Step.job _ _ _ 0 _ _ _ _ rfl
    (@JobStep.reserve _ _ _ 3 ⟨3, 10⟩ rfl rfl (by decide)))
  have directory := reserve.next (@Step.job _ _ _ 0 _ _ _ _ rfl (.directory rfl))
  have file := directory.next (@Step.job _ _ _ 0 _ _ _ _ rfl (.file rfl))
  have chunk := file.next (@Step.job _ _ _ 0 _ _ _ _ rfl
    (@JobStep.chunk _ _ _ 3 0 2 2 rfl rfl (by decide) (by decide)))
  have begins := chunk.next .beginExport
  have worker := begins.next (@Step.reserveExport _ _ _ 0 ⟨6, 10⟩ rfl (by decide))
  exact ⟨_, rfl, rfl, storage_is_reserved worker.reachable⟩

end MoenotesAssets.Storage
