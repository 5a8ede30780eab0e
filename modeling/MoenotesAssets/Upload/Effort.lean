import MoenotesAssets.Foundation.Draining
import MoenotesAssets.Upload.Agreement

/-! What an upload costs: how often it sends an object, how many calls are under way at once, and
how many steps it takes until it has ended.
-/

namespace MoenotesAssets.Upload
open Foundation ObjectTree

variable {sha256 : List UInt8 → List UInt8}

-----------------------------------------------------------------------------------------
-- What a call may still do
-----------------------------------------------------------------------------------------

/-- The attempt of a call is one of the loop, and only the last one has no pause behind it. -/
@[simp] def Work.Counted : Work → Prop
  | .putting attempt | .sent attempt | .verifying attempt | .concluded attempt _ =>
      1 ≤ attempt ∧ attempt ≤ 3
  | .resting attempt => 1 ≤ attempt ∧ attempt < 3
  | .waiting | .returned _ => True

/-- How often a call may still send its object. -/
@[simp] def Work.sendsLeft : Work → Nat
  | .waiting => 3
  | .putting attempt => 4 - attempt
  | .sent attempt | .verifying attempt | .concluded attempt _ | .resting attempt => 3 - attempt
  | .returned _ => 0

/-- How many steps a call may still take. -/
@[simp] def Work.effort : Work → Nat
  | .waiting => 15
  | .putting attempt => 5 * (4 - attempt) - 1
  | .sent attempt => 5 * (4 - attempt) - 2
  | .verifying attempt => 5 * (4 - attempt) - 3
  | .concluded attempt _ => 5 * (4 - attempt) - 4
  | .resting attempt => 5 * (3 - attempt)
  | .returned _ => 0

/-- A request is sent. -/
@[simp] def Event.sends : Event → Bool
  | .sent _ => true
  | _ => false

section Calls

variable {store : String → Option (List UInt8)} {tree : Disk} {cancelled : Bool} {path : Path}
  {object : Object} {work later : Work} {event : Event}

/-- A call does not wait after an attempt as it does before the first one. -/
theorem settle_ne_waiting (cancelled : Bool) (attempt : Nat) (verified : Bool)
    : settle cancelled attempt verified ≠ .waiting := by
  unfold settle
  repeat' split
  all_goals exact nofun

/-- A call that takes a step was under way and does not wait behind it. -/
theorem Work.Step.active (step : Work.Step sha256 store tree cancelled path object work event later)
    : work.active = true ∧ later ≠ .waiting := by
  cases step with
  | send => exact ⟨rfl, nofun⟩
  | answer => exact ⟨rfl, by split <;> exact fun same => by cases same⟩
  | readBack => exact ⟨rfl, nofun⟩
  | refuse => exact ⟨rfl, nofun⟩
  | fail attempting => cases work <;> first | exact ⟨rfl, nofun⟩ | cases attempting
  | record => exact ⟨rfl, settle_ne_waiting _ _ _⟩
  | unrecorded => exact ⟨rfl, nofun⟩
  | sleep => exact ⟨rfl, nofun⟩
  | wake => exact ⟨rfl, nofun⟩

/-- A step of a call uses up some of its effort, and a request one of its sends. -/
theorem Work.Step.spends (step : Work.Step sha256 store tree cancelled path object work event later)
    (counted : work.Counted)
    : later.Counted
      ∧ later.effort < work.effort
      ∧ event.sends.toNat + later.sendsLeft ≤ work.sendsLeft := by
  cases step with
  | send => simp at counted ⊢; omega
  | answer => split <;> simp at counted ⊢ <;> omega
  | readBack => simp at counted ⊢; omega
  | refuse => simp at counted ⊢; omega
  | fail attempting => cases work <;> simp [Work.inPut] at attempting counted ⊢ <;> omega
  | record =>
      unfold settle
      repeat' split
      all_goals simp at counted ⊢
      all_goals omega
  | unrecorded => simp at counted ⊢; omega
  | sleep => simp at counted ⊢; omega
  | wake => simp at counted ⊢; omega

/-- A call that is under way can take a step, whatever is stored. -/
theorem Work.ready (active : work.active = true)
    : ∃ event later, Work.Step sha256 store tree cancelled path object work event later := by
  cases work with
  | waiting => cases active
  | putting attempt => exact ⟨_, _, .fail rfl⟩
  | sent attempt => exact ⟨_, _, .answer 200⟩
  | verifying attempt => exact ⟨_, _, .fail rfl⟩
  | concluded attempt verified => exact ⟨_, _, .record⟩
  | resting attempt => exact ⟨_, _, .sleep⟩
  | returned verified => cases active

end Calls

-----------------------------------------------------------------------------------------
-- What a run may still do
-----------------------------------------------------------------------------------------

/-- Calls are started in their order. -/
def Started (earlier later : Task) : Prop := earlier.work = .waiting → later.work = .waiting

/-- The calls of a run count their attempts, start in their order, and are under way at no more than
`concurrency` at once; the call for the manifest is under way from the start.
-/
def Phase.Paced (concurrency : Nat) : Phase → Prop
  | .uploading tasks =>
      (∀ task ∈ tasks, task.work.Counted)
      ∧ tasks.Pairwise Started
      ∧ tasks.countP (fun task => task.work.active) ≤ concurrency
  | .publishing _ task => task.work.Counted ∧ task.work ≠ .waiting
  | .returned _ | .died => True

/-- How many steps a run may still take by itself. -/
def Phase.effort : Phase → Nat
  | .uploading tasks => (tasks.map fun task => task.work.effort).sum + 16
  | .publishing _ task => task.work.effort + 1
  | .returned _ | .died => 0

/-- How often a run may still send an object. -/
def Phase.sendsLeft (o : Object) : Phase → Nat
  | .uploading tasks =>
      (tasks.map fun task => if task.object = o then task.work.sendsLeft else 0).sum
  | _ => 0

/-- How often a run may still send its manifest. -/
def Phase.manifestLeft : Phase → Nat
  | .uploading _ => 3
  | .publishing _ task => task.work.sendsLeft
  | .returned _ | .died => 0

/-- A step that a run takes by itself. -/
def Action.own : Action → Bool
  | .silent => false
  | _ => true

/-- An object is sent. -/
def Action.sendsObject (o : Object) : Action → Bool
  | .call (.object p) event => p = o && event.sends
  | _ => false

/-- The manifest is sent. -/
def Action.sendsManifest : Action → Bool
  | .call (.manifest _) event => event.sends
  | _ => false

section Runs

variable {store : String → Option (List UInt8)} {run after : Run} {action : Action}

/-- Calls stay in their order when one moves on before which none waits. -/
theorem started_replace {before behind : List Task} {task : Task} {work : Work}
    (ordered : (before ++ task :: behind).Pairwise Started)
    (begun : ∀ other ∈ before, other.work ≠ .waiting) (new : work ≠ .waiting)
    : (before ++ { task with work } :: behind).Pairwise Started := by
  obtain ⟨front, rest, -⟩ := List.pairwise_append.mp ordered
  refine List.pairwise_append.mpr ⟨front, ?_, ?_⟩
  · exact List.pairwise_cons.mpr ⟨fun _ _ waits => absurd waits new, rest.of_cons⟩
  · exact fun other member _ _ waits => absurd waits (begun other member)

/-- Before a call that is under way none waits. -/
theorem begun_before {before behind : List Task} {task : Task}
    (ordered : (before ++ task :: behind).Pairwise Started) (active : task.work.active = true)
    : ∀ other ∈ before, other.work ≠ .waiting := by
  intro other member waits
  have later := (List.pairwise_append.mp ordered).2.2 other member task List.mem_cons_self waits
  rw [later] at active
  cases active

/-- Behind a call that waits all wait. -/
theorem waiting_behind {before behind : List Task} {task : Task}
    (ordered : (before ++ task :: behind).Pairwise Started) (waits : task.work = .waiting)
    : behind.countP (fun other => other.work.active) = 0 := by
  rw [List.countP_eq_zero]
  intro other member
  have rest := (List.pairwise_append.mp ordered).2.1
  rw [List.rel_of_pairwise_cons rest member waits]
  exact Bool.false_ne_true

/-- The attempts stay counted when one call moves on. -/
theorem counted_replace {before behind : List Task} {task : Task} {work : Work}
    (counted : ∀ other ∈ before ++ task :: behind, other.work.Counted) (new : work.Counted)
    : ∀ other ∈ before ++ { task with work } :: behind, other.work.Counted := by
  intro other member
  rcases List.mem_append.mp member with earlier | here
  · exact counted other (List.mem_append_left _ earlier)
  · rcases List.mem_cons.mp here with rfl | later
    · exact new
    · exact counted other (List.mem_append_right _ (List.mem_cons_of_mem _ later))

/-- A step keeps a run paced. -/
theorem Run.Step.paced (step : Run.Step sha256 store run action after)
    (paced : run.phase.Paced run.concurrency)
    : after.phase.Paced after.concurrency := by
  cases step with
  | @start before task behind phase waits earlier room =>
      rw [phase] at paced
      obtain ⟨counted, ordered, -⟩ := paced
      refine ⟨counted_replace counted (by simp), started_replace ordered earlier nofun, ?_⟩
      change List.countP _ _ ≤ run.concurrency
      rw [List.countP_append, List.countP_cons, waiting_behind ordered waits]
      have begun : (Work.putting 1).active = true := rfl
      simpa [begun] using Nat.succ_le_of_lt room
  | @work before task behind event later phase step =>
      rw [phase] at paced
      obtain ⟨counted, ordered, few⟩ := paced
      obtain ⟨active, begun⟩ := step.active
      have steady := step.spends (counted task List.mem_append_cons_self)
      refine ⟨counted_replace counted steady.1,
        started_replace ordered (begun_before ordered active) begun, ?_⟩
      change List.countP _ _ ≤ run.concurrency
      rw [List.countP_append, List.countP_cons] at few ⊢
      rw [if_pos active] at few
      split <;> omega
  | errors => trivial
  | readManifest => exact ⟨by simp, nofun⟩
  | manifestUnread => trivial
  | publish phase step =>
      rw [phase] at paced
      exact ⟨(step.spends paced.1).1, step.active.2⟩
  | finish => trivial
  | cancel => exact paced
  | edit => exact paced
  | die => trivial

/-- A step that a run takes by itself uses up some of its effort. -/
theorem Run.Step.spends_effort (step : Run.Step sha256 store run action after)
    (paced : run.phase.Paced run.concurrency)
    : action.own.toNat + after.phase.effort ≤ run.phase.effort := by
  cases step with
  | start phase waits =>
      simp [phase, waits, Phase.effort, Action.own]
      omega
  | work phase step =>
      rw [phase] at paced
      obtain ⟨-, less, -⟩ := step.spends (paced.1 _ List.mem_append_cons_self)
      simp [phase, Phase.effort, Action.own, -Work.effort]
      omega
  | errors phase => simp [phase, Phase.effort, Action.own]
  | readManifest phase => simp [phase, Phase.effort, Action.own]
  | manifestUnread phase => simp [phase, Phase.effort, Action.own]
  | publish phase step =>
      rw [phase] at paced
      obtain ⟨-, less, -⟩ := step.spends paced.1
      simp [phase, Phase.effort, Action.own, -Work.effort]
      omega
  | finish phase returned => simp [phase, returned, Phase.effort, Action.own]
  | cancel => simp [Action.own]
  | edit => simp [Action.own]
  | die => simp [Phase.effort, Action.own]

/-- A request for an object uses up one of its sends. -/
theorem Run.Step.spends_send (step : Run.Step sha256 store run action after)
    (paced : run.phase.Paced run.concurrency) (o : Object)
    : (action.sendsObject o).toNat + after.phase.sendsLeft o ≤ run.phase.sendsLeft o := by
  cases step with
  | @start before task behind phase waits =>
      by_cases same : task.object = o <;>
        simp [phase, waits, same, Phase.sendsLeft, Action.sendsObject, Event.sends]
  | @work before task behind event later phase step =>
      rw [phase] at paced
      obtain ⟨-, -, less⟩ := step.spends (paced.1 _ List.mem_append_cons_self)
      by_cases same : task.object = o
      · simp [phase, same, Phase.sendsLeft, Action.sendsObject, -Work.sendsLeft, -Event.sends]
        omega
      · simp [phase, same, Phase.sendsLeft, Action.sendsObject]
  | errors phase => simp [phase, Phase.sendsLeft, Action.sendsObject]
  | readManifest phase => simp [phase, Phase.sendsLeft, Action.sendsObject]
  | manifestUnread phase => simp [phase, Phase.sendsLeft, Action.sendsObject]
  | publish phase step => simp [phase, Phase.sendsLeft, Action.sendsObject]
  | finish phase returned => simp [phase, Phase.sendsLeft, Action.sendsObject]
  | cancel => simp [Action.sendsObject]
  | edit => simp [Action.sendsObject]
  | die => simp [Phase.sendsLeft, Action.sendsObject]

/-- A request for the manifest uses up one of its sends. -/
theorem Run.Step.spends_manifest (step : Run.Step sha256 store run action after)
    (paced : run.phase.Paced run.concurrency)
    : action.sendsManifest.toNat + after.phase.manifestLeft ≤ run.phase.manifestLeft := by
  cases step with
  | start phase => simp [phase, Phase.manifestLeft, Action.sendsManifest]
  | work phase => simp [phase, Phase.manifestLeft, Action.sendsManifest]
  | errors => simp [Phase.manifestLeft, Action.sendsManifest]
  | readManifest phase => simp [phase, Phase.manifestLeft, Action.sendsManifest]
  | manifestUnread => simp [Phase.manifestLeft, Action.sendsManifest]
  | publish phase step =>
      rw [phase] at paced
      obtain ⟨-, -, less⟩ := step.spends paced.1
      simpa only [phase, Phase.manifestLeft, Action.sendsManifest] using less
  | finish => simp [Phase.manifestLeft, Action.sendsManifest]
  | cancel => simp [Action.sendsManifest]
  | edit => simp [Action.sendsManifest]
  | die => simp [Phase.manifestLeft, Action.sendsManifest]

/-- A run that has not ended can take a step by itself, whatever is stored. -/
theorem Run.ready (paced : run.phase.Paced run.concurrency) (allowed : 1 ≤ run.concurrency)
    (running : (∀ manifest, run.phase ≠ .returned manifest) ∧ run.phase ≠ .died)
    : ∃ action after, action.own = true ∧ Run.Step sha256 store run action after := by
  cases phase : run.phase with
  | uploading tasks =>
      by_cases moving : ∃ task ∈ tasks, task.work.active = true
      · obtain ⟨task, member, active⟩ := moving
        obtain ⟨before, behind, rfl⟩ := List.append_of_mem member
        obtain ⟨event, later, step⟩ := Work.ready active
        exact ⟨_, _, rfl, .work phase step⟩
      cases first : tasks.find? fun task => decide (task.work = .waiting) with
      | some task =>
          -- the first call that waits can start, as none is under way
          obtain ⟨waits, before, behind, rfl, earlier⟩ := List.find?_eq_some_iff_append.mp first
          have idle : before.countP (fun other => other.work.active) = 0 := by
            rw [List.countP_eq_zero]
            exact fun other member active =>
              moving ⟨other, List.mem_append_left _ member, active⟩
          refine ⟨_, _, rfl, .start phase (of_decide_eq_true waits) ?_ (by omega)⟩
          intro other member
          simpa using earlier other member
      | none =>
          have waiting : ∀ task ∈ tasks, task.work ≠ .waiting := by
            simpa using List.find?_eq_none.mp first
          have ended : ∀ task ∈ tasks, ∃ verified, task.work = .returned verified := by
            intro task member
            cases work : task.work with
            | waiting => exact absurd work (waiting task member)
            | returned verified => exact ⟨verified, rfl⟩
            | _ => exact absurd ⟨task, member, by rw [work]; rfl⟩ moving
          by_cases failed : ∃ task ∈ tasks, task.work = .returned false
          · exact ⟨_, _, rfl, .errors phase ended failed⟩
          · refine ⟨_, _, rfl, .manifestUnread phase fun task member => ?_⟩
            obtain ⟨verified, returned⟩ := ended task member
            cases verified with
            | true => exact returned
            | false => exact absurd ⟨task, member, returned⟩ failed
  | publishing bytes task =>
      rw [phase] at paced
      cases work : task.work with
      | waiting => exact absurd work paced.2
      | returned verified => exact ⟨_, _, rfl, .finish phase work⟩
      | _ =>
          have active : task.work.active = true := by
            rw [work]
            rfl
          obtain ⟨event, later, step⟩ := Work.ready active
          exact ⟨_, _, rfl, .publish phase step⟩
  | returned manifest => exact absurd phase (running.1 manifest)
  | died => exact absurd phase running.2

end Runs

-----------------------------------------------------------------------------------------
-- A run among others
-----------------------------------------------------------------------------------------

/-- What a run did along a trace. -/
def actionsOf (id : Nat) (trace : List Label) : List Action :=
  trace.filterMap fun
    | .did other action => if other = id then some action else none
    | _ => none

section Histories

variable {decode : List UInt8 → Except String Index} {trace : List Label} {bucket : Bucket}
  {id : Nat} {run : Run}

/-- Single runs, each on a bucket that may change at any time. -/
def runs (sha256 : List UInt8 → List UInt8) (decode : List UInt8 → Except String Index)
    : System Run Action where
  initial run := ∃ tree prepared config cancelled,
    Config.check config = .ok ()
    ∧ prepare sha256 decode tree = .ok prepared
    ∧ run = .start tree prepared config cancelled
  step run action after := ∃ store, Run.Step sha256 store run action after

/-- What a run does comes behind what it did. -/
theorem actionsOf_did (action : Action)
    : actionsOf id (trace ++ [.did id action]) = actionsOf id trace ++ [action] := by
  simp [actionsOf]

/-- What another run does is not what a run did. -/
theorem actionsOf_other {who : Nat} (apart : id ≠ who) (action : Action)
    : actionsOf id (trace ++ [.did who action]) = actionsOf id trace := by
  simp [actionsOf, apart.symm]

/-- A run does nothing where one begins. -/
theorem actionsOf_opened (who : Nat) (objects : List Object)
    : actionsOf id (trace ++ [.opened who objects]) = actionsOf id trace := by
  simp [actionsOf]

/-- A run does nothing where the server acts. -/
theorem actionsOf_served (request : PutRequest)
    : actionsOf id (trace ++ [.served request]) = actionsOf id trace := by
  simp [actionsOf]

/-- Among others, a run takes the steps of a single run. -/
theorem runs_singly (execution : (uploads sha256 decode).Execution trace bucket)
    : (∀ id, bucket.runs id = none → actionsOf id trace = [])
      ∧ ∀ id run, bucket.runs id = some run
          → (runs sha256 decode).Execution (actionsOf id trace) run := by
  refine execution.history (I := fun trace bucket =>
    (∀ id, bucket.runs id = none → actionsOf id trace = [])
    ∧ ∀ id run, bucket.runs id = some run
        → (runs sha256 decode).Execution (actionsOf id trace) run) ?_ ?_
  · intro bucket first
    exact ⟨fun _ _ => rfl, fun id run held => by rw [first.2 id] at held; cases held⟩
  · intro trace bucket label after _ singly step
    obtain ⟨idle, acting⟩ := singly
    cases step with
    | @opens who tree config prepared cancelled fresh valid prepares =>
        dsimp only
        constructor
        · intro id missing
          rw [actionsOf_opened]
          refine idle id ?_
          by_cases same : id = who
          · rw [same, fresh]
          · rwa [Function.update_of_ne same] at missing
        · intro id run held
          rw [actionsOf_opened]
          by_cases same : id = who
          · subst same
            rw [Function.update_self, Option.some.injEq] at held
            rw [idle id fresh]
            exact ⟨run, ⟨tree, prepared, config, cancelled, valid, prepares, held.symm⟩, .here⟩
          · rw [Function.update_of_ne same] at held
            exact acting id run held
    | @acts who run action next held step =>
        dsimp only
        constructor
        · intro id missing
          by_cases same : id = who
          · rw [same, Function.update_self] at missing
            cases missing
          · rw [Function.update_of_ne same] at missing
            rw [actionsOf_other same]
            exact idle id missing
        · intro id other found
          by_cases same : id = who
          · subst same
            rw [Function.update_self, Option.some.injEq] at found
            rw [actionsOf_did, ← found]
            exact (acting id run held).next ⟨_, step⟩
          · rw [Function.update_of_ne same] at found
            rw [actionsOf_other same]
            exact acting id other found
    | serves =>
        constructor
        · intro id missing
          rw [actionsOf_served]
          exact idle id missing
        · intro id run held
          rw [actionsOf_served]
          exact acting id run held

-----------------------------------------------------------------------------------------
-- A run from its start
-----------------------------------------------------------------------------------------

variable {tree : Disk} {prepared : Prepared} {config : Config} {cancelled : Bool}

/-- A run starts paced. -/
theorem start_paced
    : (Run.start tree prepared config cancelled).phase.Paced config.concurrency := by
  have waits : ∀ task ∈ prepared.selected.map Selected.task, task.work = .waiting := by
    intro task member
    obtain ⟨selected, -, rfl⟩ := List.mem_map.mp member
    rfl
  refine ⟨fun task member => ?_, ?_, ?_⟩
  · rw [waits task member]
    trivial
  · exact List.pairwise_of_forall_mem_list fun _ _ later member _ => waits later member
  · rw [List.countP_eq_zero.mpr]
    · exact Nat.zero_le _
    · intro task member
      rw [waits task member]
      exact Bool.false_ne_true

/-- The steps that a run may take at its start. -/
theorem start_effort
    : (Run.start tree prepared config cancelled).phase.effort
      = 15 * (prepared.selected.map Selected.object).length + 16 := by
  simp [Run.start, Phase.effort, Selected.task, Function.comp_def, mul_comm]

/-- The sends of an object at the start of a run. -/
theorem start_sends (o : Object)
    : (Run.start tree prepared config cancelled).phase.sendsLeft o
      = 3 * (prepared.selected.map Selected.object).count o := by
  rw [Run.start, Phase.sendsLeft]
  induction prepared.selected with
  | nil => rfl
  | cons selected rest ih =>
      simp only [List.map_cons, List.sum_cons, ih, List.count_cons, Selected.task, beq_iff_eq]
      split
      · simp
        omega
      · simp

/-- What a single run has spent of what it had at its start, by what each step uses up. -/
theorem run_spends {trace : List Action} (execution : (runs sha256 decode).Execution trace run)
    : (1 ≤ run.concurrency ∧ run.concurrency ≤ 32)
      ∧ run.phase.Paced run.concurrency
      ∧ (∀ o, trace.countP (Action.sendsObject o) ≤ 3)
      ∧ trace.countP Action.sendsManifest ≤ 3
      ∧ trace.countP Action.own ≤ 15 * run.objects.length + 16 := by
  obtain ⟨first, ⟨tree, prepared, config, cancelled, valid, prepares, rfl⟩, path⟩ := execution
  have limits : 1 ≤ config.concurrency ∧ config.concurrency ≤ 32 := by
    rw [Config.check, ensure_ok, Bool.and_eq_true, decide_eq_true_eq] at valid
    exact valid.1
  have fixed : run.objects = prepared.selected.map Selected.object
      ∧ run.concurrency = config.concurrency := by
    refine path.preserves (P := fun run => run.objects = prepared.selected.map Selected.object
      ∧ run.concurrency = config.concurrency) ?_ ⟨rfl, rfl⟩
    rintro state label after ⟨store, step⟩ same
    cases step <;> exact same
  have paced : ∀ {state : Run} {label after}, state.phase.Paced state.concurrency →
      (runs sha256 decode).step state label after → after.phase.Paced after.concurrency :=
    fun paced taken => taken.elim fun _ step => step.paced paced
  obtain ⟨steady, steps⟩ := path.counted Action.own (fun run => run.phase.effort) paced
    (fun paced taken => taken.elim fun _ step => step.spends_effort paced) start_paced
  obtain ⟨-, manifest⟩ := path.counted Action.sendsManifest (fun run => run.phase.manifestLeft)
    paced (fun paced taken => taken.elim fun _ step => step.spends_manifest paced) start_paced
  have thrice : (Run.start tree prepared config cancelled).phase.manifestLeft = 3 := rfl
  refine ⟨fixed.2 ▸ limits, steady, fun o => ?_, by omega, ?_⟩
  · obtain ⟨-, sends⟩ := path.counted (Action.sendsObject o) (fun run => run.phase.sendsLeft o)
      paced (fun paced taken => taken.elim fun _ step => step.spends_send paced o) start_paced
    have once := List.nodup_iff_count_le_one.mp ((prepare_distinct prepares).of_map _) o
    rw [start_sends] at sends
    omega
  · rw [start_effort] at steps
    rw [fixed.1]
    omega

/-- Whatever other runs and the network do, a run sends each of its objects and its manifest at most
three times, has at most `concurrency` calls under way, takes boundedly many steps, and can take
another one until it has ended.
-/
theorem uploads_take_bounded_effort (execution : (uploads sha256 decode).Execution trace bucket)
    (held : bucket.runs id = some run)
    : (∀ o, (actionsOf id trace).countP (Action.sendsObject o) ≤ 3)
      ∧ (actionsOf id trace).countP Action.sendsManifest ≤ 3
      ∧ (actionsOf id trace).countP Action.own ≤ 15 * run.objects.length + 16
      ∧ (∀ tasks, run.phase = .uploading tasks →
          tasks.countP (fun task => task.work.active) ≤ run.concurrency)
      ∧ ((∃ manifest, run.phase = .returned manifest) ∨ run.phase = .died
        ∨ ∃ action after,
            action.own = true ∧ Bucket.Step sha256 decode bucket (.did id action) after) := by
  obtain ⟨limits, paced, sends, manifest, steps⟩ :=
    run_spends ((runs_singly execution).2 id run held)
  refine ⟨sends, manifest, steps, ?_, ?_⟩
  · intro tasks phase
    rw [phase] at paced
    exact paced.2.2
  · by_cases returned : ∃ manifest, run.phase = .returned manifest
    · exact Or.inl returned
    by_cases died : run.phase = .died
    · exact Or.inr (Or.inl died)
    obtain ⟨action, after, own, step⟩ := Run.ready paced limits.1
      ⟨fun manifest phase => returned ⟨manifest, phase⟩, died⟩
    exact Or.inr (Or.inr ⟨action, _, own, .acts held step⟩)

end Histories

/-- A run whose first request gets lost sends its object twice and its manifest once, and has
returned after few enough steps.
-/
theorem uploads_take_bounded_effort_sample
    : ∃ trace bucket run,
        (uploads id sampleDecode).Execution trace bucket
        ∧ bucket.runs 0 = some run
        ∧ run.phase = .returned (some [1])
        ∧ (actionsOf 0 trace).countP (Action.sendsObject sampleObject) = 2
        ∧ (actionsOf 0 trace).countP Action.sendsManifest = 1
        ∧ (actionsOf 0 trace).countP Action.own ≤ 15 * 1 + 16 := by
  have prepares : prepare id sampleDecode sampleTree = .ok (samplePrepared sampleObject) := by
    decide +kernel
  let config : Config := { concurrency := 4, timeoutSeconds := 900 }
  let run := Run.start sampleTree (samplePrepared sampleObject) config false
  let tasks (work : Work) : List Task :=
    [{ path := ["Movie", "A.mp4"], object := sampleObject, work }]
  let uploading (work : Work) : Run := { run with phase := .uploading (tasks work) }
  let request := putRequest sampleObject [7]
  let lost : Bucket := { emptyBucket with requests := [request] }
  let stored := lost.taking request [7]
  let whole := stored.taking (putRequest (manifestObject id [1]) [1]) [1]
  let ended : Run := { run with phase := .returned (some [1]) }
  have opens : (uploads id sampleDecode).step emptyBucket (.opened 0 [sampleObject])
      (emptyBucket.holding 0 (uploading .waiting)) :=
    @Bucket.Step.opens id sampleDecode emptyBucket 0 sampleTree config _ false rfl rfl prepares
  have starts : Run.Step id emptyBucket.store (uploading .waiting)
      (.call (.object sampleObject) .silent) (uploading (.putting 1)) :=
    @Run.Step.start id _ (uploading .waiting) [] _ [] rfl rfl
      (fun _ absurd' => by cases absurd') (by decide)
  have lift : ∀ {store work event later},
      Work.Step id store sampleTree false ["Movie", "A.mp4"] sampleObject work event later
      → Run.Step id store (uploading work) (.call (.object sampleObject) event)
          (uploading later) :=
    fun {store work event later} step =>
      @Run.Step.work id store (uploading work) [] _ [] event later rfl step
  have begun : beginPut sampleTree ["Movie", "A.mp4"] sampleObject = .ok request := by
    decide +kernel
  have sends : (uploads id sampleDecode).step (emptyBucket.holding 0 (uploading (.putting 1)))
      (.did 0 (.call (.object sampleObject) (.sent request)))
      (lost.holding 0 (uploading (.sent 1))) :=
    acts_alone (lift (.send begun))
  have fails : (uploads id sampleDecode).step (lost.holding 0 (uploading (.sent 1)))
      (.did 0 (.call (.object sampleObject) .silent))
      (lost.holding 0 (uploading (.concluded 1 false))) :=
    acts_quietly rfl (lift (.fail rfl))
  have records : (uploads id sampleDecode).step (lost.holding 0 (uploading (.concluded 1 false)))
      (.did 0 (.call (.object sampleObject) .silent)) (lost.holding 0 (uploading (.resting 1))) :=
    acts_quietly rfl (lift .record)
  have sleeps : (uploads id sampleDecode).step (lost.holding 0 (uploading (.resting 1)))
      (.did 0 (.call (.object sampleObject) .silent)) (lost.holding 0 (uploading (.putting 2))) :=
    acts_quietly rfl (lift .sleep)
  have passes : Passes id sampleTree lost.store ["Movie", "A.mp4"] sampleObject [7]
      (carrying none [7]) :=
    ⟨by decide +kernel, by decide, carrying_delivered (List.prefix_refl _) nofun, by decide⟩
  have called : (uploads id sampleDecode).Path (lost.holding 0 (uploading (.putting 2))) _
      (stored.holding 0 (uploading (.returned true))) :=
    call_passes lift passes 2
  have passes' : Passes id sampleTree stored.store ["_meta", "manifest.json"]
      (manifestObject id [1]) [1] (carrying none [1]) :=
    ⟨by decide +kernel, by decide, carrying_delivered (List.prefix_refl _) nofun, by decide⟩
  have settled : ∀ task ∈ tasks (.returned true), task.work = .returned true :=
    List.forall_mem_singleton.mpr rfl
  have published := @manifest_passes id sampleDecode 0 run _ stored [1] _ rfl settled passes'
  have path := ((((((System.Path.here.next opens).next (acts_quietly rfl starts)).next sends).next
    fails).next records).next sleeps).append called
  have initial : (uploads id sampleDecode).initial emptyBucket := ⟨rfl, fun _ => rfl⟩
  have execution : (uploads id sampleDecode).Execution _ (whole.holding 0 ended) :=
    ⟨emptyBucket, initial, (path.append published).next
      (acts_quietly rfl (@Run.Step.finish id _ _ [1] _ true rfl rfl))⟩
  have held := whole.holding_runs 0 ended
  exact ⟨_, _, ended, execution, held, rfl, by decide +kernel, by decide +kernel,
    (uploads_take_bounded_effort execution held).2.2.1⟩

end MoenotesAssets.Upload
