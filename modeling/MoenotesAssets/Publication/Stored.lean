import MoenotesAssets.Publication.Model

/-! What one step of an export does to the stores: the laws of its own phase and of the
tables, and what it leaves to other exports.
-/

namespace MoenotesAssets.Publication

open Foundation MoenotesAssets.Export

variable {settings : Settings} {job : Job}

-----------------------------------------------------------------------------------------
-- Laws
-----------------------------------------------------------------------------------------

/-- A directory of an export id that is read as `manifest` says. -/
def Store.Shows (store : Store) (id : String) (manifest : Manifest) : Prop :=
  manifest.id = id ∧ ∃ directory, store.disk[id]? = some directory ∧ directory.Holds manifest

/-- Every row of `exports` has its directory, which was synced as it is, and every row of
`files` belongs to a row of `exports`.
-/
structure Store.Lawful (store : Store) : Prop where
  published
    : ∀ {id : String} {manifest : Manifest},
        store.index.exports[id]? = some manifest
        → store.Shows id manifest ∧ store.durable[id]? = store.disk[id]?
  indexed
    : ∀ {id : String} {row : FileRow},
        store.index.files[id]? = some row
        → ∃ manifest, store.index.exports[row.exportId]? = some manifest

/-- An outcome with a manifest is a row of `exports`. -/
def Store.Backs (store : Store) (id : String) : Outcome → Prop
  | .ok manifest => manifest.id = id ∧ store.index.exports[id]? = some manifest
  | .error _ => True

/-- What a phase of the export `id` relies on. Between its second look at `exports` and its
commit there is no row.
-/
def Phase.Lawful (store : Store) (id : String) : Phase → Prop
  | .spawned | .waiting | .gated => True
  | .preparing | .working | .retracting _ => store.index.exports[id]? = none
  | .staged _ result => store.index.exports[id]? = none ∧ result.Named
  | .sealed output manifest =>
      store.index.exports[id]? = none ∧ manifest.id = id ∧ output.Holds manifest
  | .renamed manifest => store.index.exports[id]? = none ∧ store.Shows id manifest
  | .synced manifest =>
      store.index.exports[id]? = none
      ∧ store.Shows id manifest
      ∧ store.durable[id]? = store.disk[id]?
  | .leaving outcome | .dropping outcome | .ended outcome => store.Backs id outcome

-----------------------------------------------------------------------------------------
-- Changes at one export
-----------------------------------------------------------------------------------------

/-- A change made for the export `id`: rows stay, only its row may be new, and no directory
but its own is changed.
-/
structure Store.Touches (id : String) (before after : Store) : Prop where
  rows
    : ∀ {other : String} {manifest : Manifest},
        before.index.exports[other]? = some manifest
        → after.index.exports[other]? = some manifest
  absent
    : ∀ {other : String},
        other ≠ id
        → before.index.exports[other]? = none
        → after.index.exports[other]? = none
  disk : ∀ {other : String}, other ≠ id → after.disk[other]? = before.disk[other]?
  durable
    : ∀ {other : String},
        other ≠ id
        → after.durable[other]? = before.durable[other]?
          ∨ after.durable[other]? = before.disk[other]?

/-- Nothing was changed. -/
theorem Store.Touches.refl (id : String) (store : Store) : Store.Touches id store store :=
  ⟨fun held => held, fun _ held => held, fun _ => rfl, fun _ => Or.inl rfl⟩

/-- One directory was changed. -/
theorem Store.Touches.replaced (id : String) (store : Store) (entry : Option Directory)
    : store.Touches id { store with disk := Table.replace store.disk id entry } :=
  ⟨fun held => held, fun _ held => held, fun apart => Table.replace_other _ entry apart,
    fun _ => Or.inl rfl⟩

/-- An outcome stays backed. -/
theorem Store.Backs.later {before after : Store} {id other : String} {outcome : Outcome}
    (backed : before.Backs id outcome) (touched : before.Touches other after)
    : after.Backs id outcome := by
  cases outcome with
  | error => trivial
  | ok manifest => exact ⟨backed.1, touched.rows backed.2⟩

/-- What other exports show is not changed. -/
theorem Store.Shows.later {before after : Store} {id other : String} {manifest : Manifest}
    (shows' : before.Shows id manifest) (touched : before.Touches other after)
    (apart : id ≠ other)
    : after.Shows id manifest := by
  obtain ⟨named, directory, held, holds⟩ := shows'
  exact ⟨named, directory, (touched.disk apart).trans held, holds⟩

/-- What was synced stays synced where nothing was changed. -/
theorem Store.Touches.settled {before after : Store} {id other : String}
    (touched : before.Touches other after) (apart : id ≠ other)
    (settled : before.durable[id]? = before.disk[id]?)
    : after.durable[id]? = after.disk[id]? := by
  rw [touched.disk apart]
  rcases touched.durable apart with same | synced
  · rw [same, settled]
  · exact synced

/-- The phase of another export keeps its law. -/
theorem Phase.Lawful.apart {before after : Store} {id other : String} {phase : Phase}
    (lawful : phase.Lawful before id) (touched : before.Touches other after)
    (apart : id ≠ other)
    : phase.Lawful after id := by
  cases phase with
  | spawned | waiting | gated => trivial
  | preparing | working | retracting => exact touched.absent apart lawful
  | staged | sealed => exact ⟨touched.absent apart lawful.1, lawful.2⟩
  | renamed => exact ⟨touched.absent apart lawful.1, lawful.2.later touched apart⟩
  | synced =>
      exact ⟨touched.absent apart lawful.1, lawful.2.1.later touched apart,
        touched.settled apart lawful.2.2⟩
  | leaving | dropping | ended => exact Store.Backs.later lawful touched

/-- A phase outside of the gate keeps its law whatever export is changed. -/
theorem Phase.Lawful.outside {before after : Store} {id other : String} {phase : Phase}
    (lawful : phase.Lawful before id) (touched : before.Touches other after)
    (outside : phase.critical = false)
    : phase.Lawful after id := by
  cases phase with
  | spawned | waiting => trivial
  | dropping | ended => exact Store.Backs.later lawful touched
  | _ => cases outside

/-- The tables stay lawful when the changed export has no row. -/
theorem Store.Lawful.unlisted {before after : Store} {id : String} (lawful : before.Lawful)
    (touched : before.Touches id after) (same : after.index = before.index)
    (row : before.index.exports[id]? = none)
    : after.Lawful := by
  constructor
  case published =>
    intro other manifest held
    rw [same] at held
    have apart : other ≠ id := by
      rintro rfl
      rw [row] at held
      cases held
    obtain ⟨shows', settled⟩ := lawful.published held
    exact ⟨shows'.later touched apart, touched.settled apart settled⟩
  case indexed =>
    intro other file held
    rw [same] at held ⊢
    exact lawful.indexed held

-----------------------------------------------------------------------------------------
-- Steps of an export
-----------------------------------------------------------------------------------------

/-- A step of an export changes nothing of another one. -/
theorem WorkStep.touches {phase phase' : Phase} {store store' : Store} {label : WorkLabel}
    (lawful : phase.Lawful store job.id)
    (moved : WorkStep settings job phase store label phase' store')
    : store.Touches job.id store' := by
  cases moved with
  | rename =>
      exact ⟨fun held => held, fun _ held => held, fun apart => Table.insert_other _ _ apart,
        fun _ => Or.inl rfl⟩
  | sync => exact ⟨fun held => held, fun _ held => held, fun _ => rfl, fun _ => Or.inr rfl⟩
  | erode => exact .replaced _ _ _
  | commit inserted =>
      obtain ⟨row, -⟩ := Index.publish_spec inserted
      have named := lawful.2.1.1
      refine ⟨fun held => Table.insertNew_keeps row held, ?_, fun _ => rfl, fun _ => Or.inl rfl⟩
      intro other apart absent
      refine Option.eq_none_iff_forall_not_mem.mpr fun manifest held => ?_
      rcases Table.insertNew_cases row held with ⟨same, -⟩ | old
      · exact apart (same.trans named)
      · rw [absent] at old
        cases old
  | _ => exact .refl _ _

/-- A step of an export moves it to a lawful phase. -/
theorem WorkStep.lawful {phase phase' : Phase} {store store' : Store} {label : WorkLabel}
    (lawful : phase.Lawful store job.id)
    (moved : WorkStep settings job phase store label phase' store') (stored : store.Lawful)
    : phase'.Lawful store' job.id := by
  cases moved with
  | found row => exact ⟨(stored.published row).1.1, row⟩
  | absent row => exact row
  | startWorker => exact lawful
  | finishWorker named => exact ⟨lawful, named⟩
  | accept done =>
      obtain ⟨named, holds⟩ := sealOutput_spec lawful.2 done
      exact ⟨lawful.1, named, holds⟩
  | reject => trivial
  | rename =>
      obtain ⟨row, named, holds⟩ := lawful
      exact ⟨row, named, _, Table.insert_self _ _ _, holds⟩
  | sync => exact ⟨lawful.1, lawful.2, rfl⟩
  | commit inserted =>
      obtain ⟨row, -⟩ := Index.publish_spec inserted
      have named := lawful.2.1.1
      exact ⟨named, named ▸ Table.insertNew_self row⟩
  | abort armed =>
      cases phase with
      | renamed | synced => exact lawful.1
      | _ => cases armed
  | erode => exact lawful
  | retracted => trivial
  | fail => trivial

/-- A step of an export keeps the laws of the tables. -/
theorem WorkStep.stored {phase phase' : Phase} {store store' : Store} {label : WorkLabel}
    (lawful : phase.Lawful store job.id)
    (moved : WorkStep settings job phase store label phase' store') (stored : store.Lawful)
    : store'.Lawful := by
  have touched := moved.touches lawful
  cases moved with
  | rename => exact stored.unlisted touched rfl lawful.1
  | erode => exact stored.unlisted touched rfl lawful
  | sync =>
      refine ⟨fun held => ⟨(stored.published held).1, rfl⟩, fun held => stored.indexed held⟩
  | commit inserted =>
      obtain ⟨row, rows⟩ := Index.publish_spec inserted
      obtain ⟨absent, shows', settled⟩ := lawful
      have named := shows'.1
      constructor
      case published =>
        intro id manifest held
        rcases Table.insertNew_cases row held with ⟨rfl, rfl⟩ | old
        · exact ⟨named ▸ shows', named ▸ settled⟩
        · exact stored.published old
      case indexed =>
        intro id file held
        rcases rows held with owned | old
        · exact ⟨_, owned ▸ Table.insertNew_self row⟩
        · obtain ⟨manifest, listed⟩ := stored.indexed old
          exact ⟨manifest, touched.rows listed⟩
  | _ => exact stored

/-- A worker is only started for an export without a row. -/
theorem WorkStep.starts {phase phase' : Phase} {store store' : Store} {label : WorkLabel}
    (lawful : phase.Lawful store job.id)
    (moved : WorkStep settings job phase store label phase' store')
    (starts : label = .startWorker)
    : store.index.exports[job.id]? = none := by
  cases moved with
  | startWorker => exact lawful
  | _ => cases starts

/-- The directory of an export with a row is left alone. -/
theorem WorkStep.unchanged {phase phase' : Phase} {store store' : Store} {label : WorkLabel}
    (lawful : phase.Lawful store job.id)
    (moved : WorkStep settings job phase store label phase' store') {id : String}
    {manifest : Manifest} (row : store.index.exports[id]? = some manifest)
    : store'.disk[id]? = store.disk[id]? := by
  by_cases own : id = job.id
  · subst own
    cases moved with
    | rename =>
        rw [lawful.1] at row
        cases row
    | erode =>
        have absent : store.index.exports[job.id]? = none := lawful
        rw [absent] at row
        cases row
    | _ => rfl
  · exact (moved.touches lawful).disk own

end MoenotesAssets.Publication
