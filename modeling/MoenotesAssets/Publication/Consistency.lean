import MoenotesAssets.Publication.Stored

/-! The invariant of the publication protocol and its preservation by every step. -/

namespace MoenotesAssets.Publication

open Foundation Foundation.Arena MoenotesAssets.Export MoenotesAssets.Service

variable {settings : Settings}

-----------------------------------------------------------------------------------------
-- The invariant
-----------------------------------------------------------------------------------------

/-- A producer holds the gate that `resource_locks` has for its export, from entering the
map to its end, and its phase is lawful.
-/
structure Producer.Lawful (locks : Std.TreeMap String Nat) (store : Store)
    (producer : Producer) : Prop where
  gate
    : producer.phase.live = true
      → ∃ gate, producer.gate = some gate ∧ locks[producer.job.id]? = some gate
  phase : producer.phase.Lawful store producer.job.id

/-- The state of the protocol between two steps. -/
structure Consistent (state : State) : Prop where
  stored : state.store.Lawful
  idle : state.mode ≠ .serving → state.producers = []
  producers
    : ∀ {index : Nat} {producer : Producer},
        state.producers[index]? = some producer → producer.Lawful state.locks state.store
  exclusive
    : ∀ {left right gate : Nat} {first second : Producer},
        state.producers[left]? = some first
        → state.producers[right]? = some second
        → first.phase.critical = true
        → second.phase.critical = true
        → first.gate = some gate
        → second.gate = some gate
        → left = right
  results
    : ∀ {item : ItemResult} {id : String},
        item ∈ state.results
        → item.exportId = some id
        → ∃ manifest, state.store.index.exports[id]? = some manifest

/-- An empty data directory is consistent. -/
theorem Consistent.fresh : Consistent .fresh := by
  constructor
  case stored => constructor <;> simp [State.fresh]
  all_goals simp [State.fresh]

/-- The lock of a gate is held through its `Arc`. -/
theorem Phase.critical_live {phase : Phase} (critical : phase.critical = true)
    : phase.live = true := by
  cases phase <;> first | rfl | cases critical

/-- Two producers of one export are not both between locking their gate and unlocking it. -/
theorem Consistent.alone {state : State} (consistent : Consistent state) {left right : Nat}
    {first second : Producer} (leftFound : state.producers[left]? = some first)
    (rightFound : state.producers[right]? = some second)
    (leftCritical : first.phase.critical = true) (rightCritical : second.phase.critical = true)
    (same : first.job.id = second.job.id)
    : left = right := by
  obtain ⟨gate, leftGate, leftLock⟩ :=
    (consistent.producers leftFound).gate (Phase.critical_live leftCritical)
  obtain ⟨other, rightGate, rightLock⟩ :=
    (consistent.producers rightFound).gate (Phase.critical_live rightCritical)
  have one : some gate = some other := leftLock.symm.trans (same ▸ rightLock)
  obtain rfl := Option.some.inj one
  exact consistent.exclusive leftFound rightFound leftCritical rightCritical leftGate rightGate

/-- Rows that stay keep the results backed. -/
theorem Consistent.results_later {state : State} {after : Store} {id : String}
    (consistent : Consistent state) (touched : state.store.Touches id after)
    {item : ItemResult} {reported : String} (member : item ∈ state.results)
    (names : item.exportId = some reported)
    : ∃ manifest, after.index.exports[reported]? = some manifest := by
  obtain ⟨manifest, row⟩ := consistent.results member names
  exact ⟨manifest, touched.rows row⟩

-----------------------------------------------------------------------------------------
-- Producers
-----------------------------------------------------------------------------------------

/-- A producer moves. Where it changes the stores it is between locking and unlocking its
gate, and where it locks the gate no other producer has it locked.
-/
theorem Consistent.move {state : State} {index : Nat} {producer producer' : Producer}
    {store : Store} (consistent : Consistent state)
    (found : state.producers[index]? = some producer) (serves : state.mode = .serving)
    (stored : store.Lawful) (touched : state.store.Touches producer.job.id store)
    (changes : store = state.store ∨ producer.phase.critical = true)
    (lawful : producer'.Lawful state.locks store)
    (locks
      : producer'.phase.critical = true
        → producer'.gate = producer.gate
          ∧ (producer.phase.critical = true
            ∨ ∀ gate, producer.gate = some gate → state.Unlocked gate))
    : Consistent
        { state with store, producers := state.producers.set index producer' } := by
  constructor
  case stored => exact stored
  case idle => exact fun down => absurd serves down
  case producers =>
    intro position other held
    rcases getElem?_set_cases held with ⟨rfl, rfl⟩ | ⟨moved, kept⟩
    · exact lawful
    · have before := consistent.producers kept
      refine ⟨before.gate, ?_⟩
      rcases changes with rfl | critical
      · exact before.phase
      · by_cases same : other.job.id = producer.job.id
        · -- a producer of the same export is outside of the gate
          cases outside : other.phase.critical with
          | false => exact before.phase.outside touched outside
          | true => exact absurd (consistent.alone kept found outside critical same) moved
        · exact before.phase.apart touched same
  case exclusive =>
    intro left right gate first second leftHeld rightHeld leftCritical rightCritical
      leftGate rightGate
    -- a producer that did not move and has the gate of the moved one locked
    have clash : ∀ {position : Nat} {other : Producer},
        state.producers[position]? = some other
        → other.phase.critical = true
        → other.gate = some gate
        → producer'.phase.critical = true
        → producer'.gate = some gate
        → position = index := by
      intro position other kept otherCritical otherGate critical gated
      obtain ⟨same, before⟩ := locks critical
      rcases before with already | unlocked
      · exact consistent.exclusive kept found otherCritical already otherGate (same ▸ gated)
      · have free := unlocked gate (same ▸ gated) other (List.mem_of_getElem? kept) otherGate
        rw [free] at otherCritical
        cases otherCritical
    rcases getElem?_set_cases leftHeld with ⟨rfl, rfl⟩ | ⟨leftMoved, leftKept⟩ <;>
      rcases getElem?_set_cases rightHeld with ⟨rfl, rfl⟩ | ⟨rightMoved, rightKept⟩
    · rfl
    · exact (clash rightKept rightCritical rightGate leftCritical leftGate).symm
    · exact clash leftKept leftCritical leftGate rightCritical rightGate
    · exact consistent.exclusive leftKept rightKept leftCritical rightCritical leftGate
        rightGate
  case results => exact fun member names => consistent.results_later touched member names

/-- Steps on what is stored are taken under the gate. -/
theorem WorkStep.critical {job : Job} {phase phase' : Phase} {store store' : Store}
    {label : WorkLabel} (moved : WorkStep settings job phase store label phase' store')
    : phase.critical = true := by
  cases moved with
  | abort armed => cases phase <;> first | rfl | cases armed
  | fail fallible => cases phase <;> first | rfl | cases fallible
  | _ => rfl

/-- A gate that is alive stays in `resource_locks`. -/
theorem Consistent.retained {state : State} (consistent : Consistent state) {index : Nat}
    {producer : Producer} (found : state.producers[index]? = some producer)
    (live : producer.phase.live = true)
    : ∃ gate, producer.gate = some gate ∧ state.retained[producer.job.id]? = some gate := by
  obtain ⟨gate, held, lock⟩ := (consistent.producers found).gate live
  refine ⟨gate, held, ?_⟩
  have holds : state.holds gate = true := by
    refine List.any_eq_true.mpr ⟨producer, List.mem_of_getElem? found, ?_⟩
    rw [held]
    exact beq_self_eq_true _
  rw [State.retained, Std.TreeMap.getElem?_filter', lock, Option.filter_some, if_pos holds]

/-- Entering the map finds or makes a gate and leaves the gates that are alive. -/
theorem State.enterMap_spec (state : State) (index : Nat) (producer : Producer)
    : ∃ gate locks gates,
        state.enterMap index producer
          = {
              state with
              locks
              gates
              producers :=
                state.producers.set index
                  { producer with gate := some gate, phase := .waiting }
            }
        ∧ locks[producer.job.id]? = some gate
        ∧ ∀ {id : String} {old : Nat},
            state.retained[id]? = some old → locks[id]? = some old := by
  rw [enterMap]
  split
  · rename_i gate known
    exact ⟨gate, state.retained, state.gates, rfl, known, fun held => held⟩
  · rename_i unknown
    refine ⟨state.gates, _, state.gates + 1, rfl, Table.insert_self _ _ _, ?_⟩
    intro id old held
    have apart : id ≠ producer.job.id := by
      rintro rfl
      rw [unknown] at held
      cases held
    exact (Table.insert_other _ _ apart).trans held

/-- Entering the map keeps the invariant. -/
theorem Consistent.entered {state : State} {index : Nat} {producer : Producer}
    (consistent : Consistent state) (serves : state.mode = .serving)
    : Consistent (state.enterMap index producer) := by
  obtain ⟨gate, locks, gates, same, own, kept⟩ := state.enterMap_spec index producer
  rw [same]
  constructor
  case stored => exact consistent.stored
  case idle => exact fun down => absurd serves down
  case producers =>
    intro position other held
    rcases getElem?_set_cases held with ⟨rfl, rfl⟩ | ⟨_, old⟩
    · exact ⟨fun _ => ⟨gate, rfl, own⟩, trivial⟩
    · refine ⟨fun live => ?_, (consistent.producers old).phase⟩
      obtain ⟨held, gated, lock⟩ := consistent.retained old live
      exact ⟨held, gated, kept lock⟩
  case exclusive =>
    intro left right gate first second leftHeld rightHeld leftCritical rightCritical
      leftGate rightGate
    rcases getElem?_set_cases leftHeld with ⟨rfl, rfl⟩ | ⟨_, leftKept⟩
    · cases leftCritical
    rcases getElem?_set_cases rightHeld with ⟨rfl, rfl⟩ | ⟨_, rightKept⟩
    · cases rightCritical
    exact consistent.exclusive leftKept rightKept leftCritical rightCritical leftGate rightGate
  case results => exact consistent.results

/-- The steps of producers keep the invariant. -/
theorem Consistent.producer {state after : State} {label : Label}
    (consistent : Consistent state) (serves : state.mode = .serving)
    (taken : ProducerStep settings state label after)
    : Consistent after := by
  cases taken with
  | enterMap => exact consistent.entered serves
  | acquire found at' gated unlocked =>
      obtain ⟨live, lawful⟩ := consistent.producers found
      refine consistent.move found serves consistent.stored (.refl _ _) (Or.inl rfl)
        ⟨fun _ => live (by rw [at']; rfl), trivial⟩ (fun _ => ⟨rfl, Or.inr ?_⟩)
      intro other same
      obtain rfl := Option.some.inj (gated.symm.trans same)
      exact unlocked
  | giveUp found at' =>
      have live := (consistent.producers found).gate
      exact consistent.move found serves consistent.stored (.refl _ _) (Or.inl rfl)
        ⟨fun _ => live (by rw [at']; rfl), trivial⟩ (fun critical => by cases critical)
  | work found moved =>
      obtain ⟨live, lawful⟩ := consistent.producers found
      exact consistent.move found serves (moved.stored lawful consistent.stored)
        (moved.touches lawful) (Or.inr moved.critical)
        ⟨fun _ => live (Phase.critical_live moved.critical),
          moved.lawful lawful consistent.stored⟩
        (fun _ => ⟨rfl, Or.inl moved.critical⟩)
  | unlock found at' =>
      obtain ⟨live, lawful⟩ := consistent.producers found
      rw [at'] at lawful
      exact consistent.move found serves consistent.stored (.refl _ _) (Or.inl rfl)
        ⟨fun _ => live (by rw [at']; rfl), lawful⟩ (fun critical => by cases critical)
  | drop found at' =>
      obtain ⟨live, lawful⟩ := consistent.producers found
      rw [at'] at lawful
      exact consistent.move found serves consistent.stored (.refl _ _) (Or.inl rfl)
        ⟨fun live => (by cases live), lawful⟩ (fun critical => by cases critical)

-----------------------------------------------------------------------------------------
-- Requests
-----------------------------------------------------------------------------------------

/-- An answer that is backed keeps the invariant. -/
theorem Consistent.answered {state : State} {index : Nat} {request : Request}
    {outcome : Outcome} {id : String} (consistent : Consistent state)
    (backed : state.store.Backs id outcome)
    : Consistent (state.answer index request outcome) := by
  refine ⟨consistent.stored, consistent.idle, consistent.producers, consistent.exclusive, ?_⟩
  intro item reported member names
  rcases List.mem_append.mp member with old | new
  · exact consistent.results old names
  · obtain rfl := List.mem_singleton.mp new
    cases outcome with
    | error => cases names
    | ok manifest =>
        obtain rfl : manifest.id = reported := Option.some.inj names
        exact ⟨manifest, backed.1 ▸ backed.2⟩

/-- The steps of requests keep the invariant. -/
theorem Consistent.request {state after : State} {label : Label}
    (consistent : Consistent state) (serves : state.mode = .serving)
    (taken : RequestStep state label after)
    : Consistent after := by
  cases taken with
  | request => exact ⟨consistent.1, consistent.2, consistent.3, consistent.4, consistent.5⟩
  | hit found at' row => exact consistent.answered ⟨(consistent.stored.published row).1.1, row⟩
  | miss => exact ⟨consistent.1, consistent.2, consistent.3, consistent.4, consistent.5⟩
  | attach => exact ⟨consistent.1, consistent.2, consistent.3, consistent.4, consistent.5⟩
  | receive found at' listed ended =>
      have lawful := (consistent.producers listed).phase
      rw [ended] at lawful
      exact consistent.answered lawful
  | stop => exact @Consistent.answered _ _ _ _ "" consistent trivial
  | spawn =>
      constructor
      case stored => exact consistent.stored
      case idle => exact fun down => absurd serves down
      case producers =>
        intro position other held
        rcases getElem?_push held with old | ⟨-, rfl⟩
        · exact consistent.producers old
        · exact ⟨fun live => (by cases live), trivial⟩
      case exclusive =>
        intro left right gate first second leftHeld rightHeld leftCritical rightCritical
          leftGate rightGate
        rcases getElem?_push leftHeld with leftKept | ⟨-, rfl⟩
        · rcases getElem?_push rightHeld with rightKept | ⟨-, rfl⟩
          · exact consistent.exclusive leftKept rightKept leftCritical rightCritical leftGate
              rightGate
          · cases rightCritical
        · cases leftCritical
      case results => exact consistent.results

-----------------------------------------------------------------------------------------
-- Opening, killing and crashing
-----------------------------------------------------------------------------------------

/-- Without producers the stores and the results make up the invariant. -/
theorem Consistent.of_idle {state : State} (none' : state.producers = [])
    (stored : state.store.Lawful)
    (results
      : ∀ {item : ItemResult} {id : String},
          item ∈ state.results
          → item.exportId = some id
          → ∃ manifest, state.store.index.exports[id]? = some manifest)
    : Consistent state := by
  constructor
  case stored => exact stored
  case idle => exact fun _ => none'
  case producers => simp [none']
  case exclusive => simp [none']
  case results => exact results

/-- The steps of opening keep the invariant. -/
theorem Consistent.opening {state after : State} {label : Label}
    (consistent : Consistent state) (taken : OpenStep state label after)
    : Consistent after := by
  cases taken with
  | boot down =>
      exact .of_idle (consistent.idle (by simp [down])) consistent.stored consistent.results
  | erode at' valid row =>
      exact .of_idle (consistent.idle (by simp [at']))
        (consistent.stored.unlisted (.replaced _ _ _) rfl row) consistent.results
  | swept at' | keep at' | refuse at' | opened at' =>
      exact .of_idle (consistent.idle (by simp [at'])) consistent.stored consistent.results

/-- A crash may lose nothing. -/
theorem Survives.intact (current durable : Option Directory)
    : Survives current durable current := by
  refine ⟨current, Or.inl rfl, ?_⟩
  cases current with
  | none => exact Or.inl ⟨rfl, rfl⟩
  | some directory => exact Or.inr ⟨directory, directory, rfl, rfl, Directory.Keeps.refl _⟩

/-- What survives of an entry that was synced as it is. -/
theorem Survives.settled {current durable after : Option Directory} {directory : Directory}
    (survives : Survives current durable after) (settled : durable = current)
    (held : current = some directory)
    : ∃ later, after = some later ∧ directory.Keeps later := by
  obtain ⟨entry, chosen, left⟩ := survives
  have same : entry = some directory := by
    rcases chosen with rfl | rfl
    · exact held
    · exact settled.trans held
  rcases left with ⟨empty, -⟩ | ⟨earlier, later, kept, survived, keeps⟩
  · rw [empty] at same
    cases same
  · obtain rfl := Option.some.inj (kept.symm.trans same)
    exact ⟨later, survived, keeps⟩

/-- A crash keeps the tables lawful: what they list was synced. -/
theorem Store.Lawful.crashed {store : Store} {disk : Std.TreeMap String Directory}
    (lawful : store.Lawful)
    (survives : ∀ (id : String), Survives store.disk[id]? store.durable[id]? disk[id]?)
    : Store.Lawful { index := store.index, disk, durable := disk } := by
  refine ⟨fun {id manifest} held => ⟨?_, rfl⟩, fun held => lawful.indexed held⟩
  obtain ⟨⟨named, directory, present, holds⟩, settled⟩ := lawful.published held
  obtain ⟨later, survived, keeps⟩ := (survives id).settled settled present
  exact ⟨named, later, survived, holds.later keeps⟩

/-- What was synced as it is stays so when another entry is written back. -/
theorem Store.flushed_settled {store : Store} {id other : String}
    (settled : store.durable[other]? = store.disk[other]?)
    : (Table.replace store.durable id store.disk[id]?)[other]? = store.disk[other]? := by
  by_cases same : other = id
  · subst same
    exact Table.replace_self _ _ _
  · exact (Table.replace_other _ _ same).trans settled

/-- Writing an entry back early keeps the invariant. -/
theorem Consistent.flushed {state : State} (consistent : Consistent state) (id : String)
    : Consistent
        {
          state with
          store.durable :=
            Table.replace state.store.durable id state.store.disk[id]?
        } := by
  constructor
  case stored =>
    refine ⟨fun held => ?_, fun held => consistent.stored.indexed held⟩
    obtain ⟨shows', settled⟩ := consistent.stored.published held
    exact ⟨shows', Store.flushed_settled settled⟩
  case idle => exact consistent.idle
  case producers =>
    intro index producer found
    obtain ⟨gate, lawful⟩ := consistent.producers found
    refine ⟨gate, ?_⟩
    cases at' : producer.phase with
    | synced =>
        rw [at'] at lawful
        exact ⟨lawful.1, lawful.2.1, Store.flushed_settled lawful.2.2⟩
    | _ =>
        rw [at'] at lawful
        exact lawful
  case exclusive => exact consistent.exclusive
  case results => exact consistent.results

/-- Every step keeps the invariant. -/
theorem Consistent.step {state after : State} {label : Label}
    (taken : Step settings state label after) (consistent : Consistent state)
    : Consistent after := by
  cases taken with
  | opening taken => exact consistent.opening taken
  | request serves taken => exact consistent.request serves taken
  | producer serves taken => exact consistent.producer serves taken
  | kill => exact .of_idle rfl consistent.stored consistent.results
  | crash survives =>
      exact .of_idle rfl (consistent.stored.crashed survives) consistent.results
  | flush id => exact consistent.flushed id

/-- Every reachable state is consistent. -/
theorem consistent_of_reachable {state : State} (reached : (system settings).Reachable state)
    : Consistent state := by
  refine reached.invariant ?_ (fun taken consistent => consistent.step taken)
  rintro _ rfl
  exact .fresh

end MoenotesAssets.Publication
