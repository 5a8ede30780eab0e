import MoenotesAssets.Publication.Files

/-! Where published files come from: each is a file that a worker delivered with its result, and it
has the content that the worker left, through every step of the publication and every crash.
-/

namespace MoenotesAssets.Publication

open Foundation Foundation.Arena MoenotesAssets.Export MoenotesAssets.Service

-----------------------------------------------------------------------------------------
-- Contents
-----------------------------------------------------------------------------------------

/-- The content of a regular file. -/
def Directory.content (directory : Directory) (name : String) : Option (List UInt8) :=
  match directory.entries[name]? with
  | some (.file content _) => some content
  | _ => none

/-- Directories with the same entry under a name have the same content there. -/
theorem Directory.content_congr {left right : Directory} {name : String}
    (same : left.entries[name]? = right.entries[name]?)
    : left.content name = right.content name := by
  rw [content, content, same]

/-- Syncing a file changes no content. -/
theorem Directory.syncFile_content (directory : Directory) (name other : String)
    : (directory.syncFile name).content other = directory.content other := by
  by_cases same : other = name
  · subst same
    cases held : directory.entries[other]? with
    | none =>
        have absent : (directory.syncFile other).entries[other]? = none := by
          rw [syncFile, Std.TreeMap.getElem?_modify_self, held, Option.map_none]
        rw [content, content, absent, held]
    | some entry =>
        have synced : (directory.syncFile other).entries[other]? = some entry.sync :=
          Table.modify_self _ Entry.sync held
        rw [content, content, synced, held]
        cases entry <;> rfl
  · exact content_congr (Table.modify_other _ Entry.sync same)

/-- A file that is stable has its content. -/
theorem Directory.Stable.content {directory : Directory} {name : String} {content : List UInt8}
    (stable : directory.Stable name content)
    : directory.content name = some content := by
  rw [Directory.content, stable.2]

variable {settings : Settings}

/-- The loop over the files of a worker changes no content, by induction on the files. -/
theorem sealFiles_content {id : String} {artifacts : List Artifact} {total : Nat}
    {output sealed : Directory} {files : List PublishedFile}
    (done : sealFiles settings id artifacts total output = .ok (sealed, files)) (name : String)
    : sealed.content name = output.content name := by
  induction artifacts generalizing total output files with
  | nil =>
      obtain ⟨rfl, rfl⟩ := Prod.mk.inj (Except.ok.inj done)
      rfl
  | cons artifact rest ih =>
      simp only [sealFiles, bind_ok, pure_ok, ensure_ok] at done
      obtain ⟨_, _, _, _, _, _, ⟨last, others⟩, step, returned⟩ := done
      obtain ⟨rfl, rfl⟩ := Prod.mk.inj returned
      exact (ih step).trans (output.syncFile_content artifact.name name)

/-- A sealed output has the files of the worker with their contents. -/
theorem sealOutput_content {job : Job} {result : WorkerResult} {output sealed : Directory}
    {manifest : Manifest} (named : result.Named)
    (done : sealOutput settings job result output = .ok (sealed, manifest))
    : ∀ file ∈ manifest.files,
        ∃ content,
          output.content file.artifact.name = some content
          ∧ sealed.Stable file.artifact.name content := by
  intro file member
  obtain ⟨content, stable, -⟩ := (sealOutput_spec named done).2 file member
  refine ⟨content, ?_, stable⟩
  have listed := (sealOutput_ids done).2.1
  have worked : file.artifact ∈ result.files := listed ▸ List.mem_map_of_mem member
  obtain ⟨index, extension, name⟩ := named _ worked
  have apart : file.artifact.name ≠ "manifest.json" := by
    rw [name]
    exact outputName_ne_manifest index extension
  rw [sealOutput] at done
  split at done
  · cases done
  simp only [bind_ok, pure_ok, ensure_ok] at done
  obtain ⟨_, _, ⟨last, files⟩, step, returned⟩ := done
  obtain ⟨rfl, rfl⟩ := Prod.mk.inj returned
  have own := stable.content
  rw [← sealFiles_content step file.artifact.name, ← own]
  have written := Directory.syncFile_content (last.write "manifest.json" (settings.encode
    { id := job.id, snapshot := job.snapshot, key := job.key, profile := workerProfile,
      files, empty := result.empty })) "manifest.json" file.artifact.name
  exact ((Directory.content_congr (Table.insert_other _ _ apart)).symm.trans written.symm)

/-- Only a result without an error is sealed. -/
theorem sealOutput_fine {job : Job} {result : WorkerResult} {output sealed : Directory}
    {manifest : Manifest} (done : sealOutput settings job result output = .ok (sealed, manifest))
    : result.error = none := by
  rw [sealOutput] at done
  split at done
  · cases done
  · assumption

-----------------------------------------------------------------------------------------
-- Supplied exports
-----------------------------------------------------------------------------------------

/-- What workers may deliver for a resource: an output directory and a result. -/
abbrev Supply := Job → Directory → WorkerResult → Prop

/-- A directory has the files of a manifest as a worker delivered them. -/
def Made (settings : Settings) (supply : Supply) (job : Job) (manifest : Manifest)
    (directory : Directory)
    : Prop :=
  ∃ output result sealed,
    supply job output result
    ∧ sealOutput settings job result output = .ok (sealed, manifest)
    ∧ ∀ file ∈ manifest.files,
        ∃ content,
          output.content file.artifact.name = some content
          ∧ directory.Stable file.artifact.name content

/-- A worker has finished with what it may deliver. -/
def Phase.Delivered (supply : Supply) (job : Job) : Phase → Prop
  | .staged output result => supply job output result
  | _ => True

/-- Every worker that has finished delivered what it may. -/
def State.Supplied (supply : Supply) (state : State) : Prop :=
  ∀ producer ∈ state.producers, producer.phase.Delivered supply producer.job

/-- The protocol with workers that deliver what they may. -/
def supplied (settings : Settings) (supply : Supply) : System State Label where
  initial state := state = .fresh
  step state label after := Step settings state label after ∧ after.Supplied supply

/-- What a phase has of an export is made of what a worker delivered. -/
def Phase.Genuine (settings : Settings) (supply : Supply) (store : Store) (job : Job)
    : Phase → Prop
  | .staged output result => supply job output result
  | .sealed output manifest => Made settings supply job manifest output
  | .renamed manifest | .synced manifest =>
      ∃ directory,
        store.disk[job.id]? = some directory ∧ Made settings supply job manifest directory
  | _ => True

/-- The exports in the making and the committed ones are made of what workers delivered. -/
structure Genuine (settings : Settings) (supply : Supply) (state : State) : Prop where
  producers
    : ∀ producer ∈ state.producers,
        producer.phase.Genuine settings supply state.store producer.job
  rows
    : ∀ {id : String} {manifest : Manifest},
        state.store.index.exports[id]? = some manifest
        → ∃ job directory,
            job.id = id
            ∧ state.store.disk[id]? = some directory
            ∧ Made settings supply job manifest directory

section Steps

variable {supply : Supply} {job : Job}

/-- Runs with such workers are runs of the protocol. -/
theorem reachable_of_supplied {state : State} (reached : (supplied settings supply).Reachable state)
    : (system settings).Reachable state := by
  obtain ⟨trace, start, initial, path⟩ := reached
  refine ⟨trace, start, initial, ?_⟩
  clear initial
  induction path with
  | here => exact .here
  | next _ taken ih => exact ih.next taken.1

/-- What is kept is made as it was. -/
theorem Made.later {manifest : Manifest} {earlier later : Directory}
    (made : Made settings supply job manifest earlier) (keeps : earlier.Keeps later)
    : Made settings supply job manifest later := by
  obtain ⟨output, result, sealed, delivered, done, files⟩ := made
  refine ⟨output, result, sealed, delivered, done, fun file member => ?_⟩
  obtain ⟨content, held, stable⟩ := files file member
  exact ⟨content, held, keeps stable⟩

/-- A change at another export leaves a phase genuine. -/
theorem Phase.Genuine.apart {before after : Store} {other : String} {phase : Phase}
    (genuine : phase.Genuine settings supply before job) (touched : before.Touches other after)
    (apart : job.id ≠ other)
    : phase.Genuine settings supply after job := by
  cases phase with
  | renamed | synced =>
      obtain ⟨directory, held, made⟩ := genuine
      exact ⟨directory, (touched.disk apart).trans held, made⟩
  | _ => exact genuine

/-- A phase outside of the gate has nothing of an export. -/
theorem Phase.Genuine.outside {store : Store} {phase : Phase} (outside : phase.critical = false)
    : phase.Genuine settings supply store job := by
  cases phase with
  | spawned | waiting | dropping | ended => trivial
  | _ => cases outside

/-- A phase stays genuine while the entry of its export is left alone. -/
theorem Phase.Genuine.same {before after : Store} {phase : Phase}
    (genuine : phase.Genuine settings supply before job)
    (same : after.disk[job.id]? = before.disk[job.id]?)
    : phase.Genuine settings supply after job := by
  cases phase with
  | renamed | synced =>
      obtain ⟨directory, held, made⟩ := genuine
      exact ⟨directory, same.trans held, made⟩
  | _ => exact genuine

/-- A step of an export keeps to what was delivered for it. -/
theorem WorkStep.genuine {phase phase' : Phase} {store store' : Store} {label : WorkLabel}
    (moved : WorkStep settings job phase store label phase' store')
    (lawful : phase.Lawful store job.id) (genuine : phase.Genuine settings supply store job)
    (delivered : phase'.Delivered supply job)
    : phase'.Genuine settings supply store' job := by
  cases moved with
  | finishWorker => exact delivered
  | accept done => exact ⟨_, _, _, genuine, done, sealOutput_content lawful.2 done⟩
  | rename => exact ⟨_, Table.insert_self _ _ _, genuine⟩
  | sync => exact genuine
  | _ => trivial

/-- The row that a step of an export commits is made of what was delivered for it. -/
theorem WorkStep.row_genuine {phase phase' : Phase} {store store' : Store} {label : WorkLabel}
    (moved : WorkStep settings job phase store label phase' store')
    (lawful : phase.Lawful store job.id) (genuine : phase.Genuine settings supply store job)
    {id : String} {manifest : Manifest} (row : store'.index.exports[id]? = some manifest)
    : store.index.exports[id]? = some manifest
      ∨ job.id = id
        ∧ ∃ directory,
            store'.disk[id]? = some directory ∧ Made settings supply job manifest directory := by
  cases moved with
  | commit inserted =>
      obtain ⟨absent, -⟩ := Index.publish_spec inserted
      rcases Table.insertNew_cases absent row with ⟨rfl, rfl⟩ | old
      · have named := lawful.2.1.1
        exact Or.inr ⟨named.symm, named ▸ genuine⟩
      · exact Or.inl old
  | _ => exact Or.inl row

/-- A producer moves: the others have what they had. -/
theorem Genuine.move {state : State} {index : Nat} {producer producer' : Producer} {store : Store}
    (genuine : Genuine settings supply state) (consistent : Consistent state)
    (found : state.producers[index]? = some producer)
    (touched : state.store.Touches producer.job.id store)
    (changes : store = state.store ∨ producer.phase.critical = true)
    (own : producer'.phase.Genuine settings supply store producer'.job)
    : ∀ other ∈ state.producers.set index producer',
        other.phase.Genuine settings supply store other.job := by
  intro other member
  obtain ⟨position, held⟩ := List.mem_iff_getElem?.mp member
  rcases getElem?_set_cases held with ⟨rfl, rfl⟩ | ⟨moved, kept⟩
  · exact own
  · have before := genuine.producers other (List.mem_of_getElem? kept)
    rcases changes with rfl | critical
    · exact before
    · by_cases same : other.job.id = producer.job.id
      · -- a producer of the same export is outside of the gate
        cases outside : other.phase.critical with
        | false => exact .outside outside
        | true => exact absurd (consistent.alone kept found outside critical same) moved
      · exact before.apart touched same

/-- The steps of producers keep to what was delivered. -/
theorem Genuine.producer {state after : State} {label : Label}
    (genuine : Genuine settings supply state) (consistent : Consistent state)
    (taken : ProducerStep settings state label after) (delivers : after.Supplied supply)
    : ∀ producer ∈ after.producers,
        producer.phase.Genuine settings supply after.store producer.job := by
  cases taken with
  | enterMap found at' =>
      obtain ⟨gate, locks, gates, same, -⟩ := State.enterMap_spec state _ _
      rw [same]
      exact genuine.move consistent found (.refl _ _) (Or.inl rfl) trivial
  | acquire found | giveUp found | unlock found | drop found =>
      exact genuine.move consistent found (.refl _ _) (Or.inl rfl) trivial
  | @work index producer label phase store found moved =>
      have lawful := (consistent.producers found).phase
      have inside : index < state.producers.length := (List.getElem?_eq_some_iff.mp found).1
      have delivered := delivers { producer with phase } (List.mem_set inside _)
      exact genuine.move consistent found (moved.touches lawful) (Or.inr moved.critical)
        (moved.genuine lawful (genuine.producers producer (List.mem_of_getElem? found)) delivered)

/-- A row that was there is made as it was. -/
theorem Genuine.kept {state after : State} {label : Label}
    (genuine : Genuine settings supply state) (consistent : Consistent state)
    (taken : Step settings state label after) {id : String} {manifest : Manifest}
    (row : state.store.index.exports[id]? = some manifest)
    : ∃ job directory,
        job.id = id
        ∧ after.store.disk[id]? = some directory
        ∧ Made settings supply job manifest directory := by
  obtain ⟨job, directory, named, held, made⟩ := genuine.rows row
  obtain ⟨later, there, keeps⟩ := taken.keeps consistent row held
  exact ⟨job, later, named, there, made.later keeps⟩

/-- A row after a step of a producer was there or is made of what was delivered. -/
theorem ProducerStep.row_genuine {state after : State} {label : Label}
    (taken : ProducerStep settings state label after) (genuine : Genuine settings supply state)
    (consistent : Consistent state) {id : String} {manifest : Manifest}
    (row : after.store.index.exports[id]? = some manifest)
    : state.store.index.exports[id]? = some manifest
      ∨ ∃ job directory,
          job.id = id
          ∧ after.store.disk[id]? = some directory
          ∧ Made settings supply job manifest directory := by
  cases taken with
  | enterMap =>
      obtain ⟨gate, locks, gates, same, -⟩ := State.enterMap_spec state _ _
      rw [same] at row
      exact Or.inl row
  | work found moved =>
      have own := genuine.producers _ (List.mem_of_getElem? found)
      rcases moved.row_genuine (consistent.producers found).phase own row with old | made
      · exact Or.inl old
      · obtain ⟨named, directory, held, made⟩ := made
        exact Or.inr ⟨_, directory, named, held, made⟩
  | _ => exact Or.inl row

/-- Every step keeps to what workers delivered. -/
theorem Genuine.step {state after : State} {label : Label}
    (taken : (supplied settings supply).step state label after)
    (genuine : Genuine settings supply state) (consistent : Consistent state)
    : Genuine settings supply after := by
  obtain ⟨step, delivers⟩ := taken
  constructor
  case producers =>
    cases step with
    | opening taken =>
        have none' : after.producers = [] := by
          cases taken with
          | boot down => exact consistent.idle (by simp [down])
          | erode at' | swept at' | keep at' | refuse at' | opened at' =>
              exact consistent.idle (by simp [at'])
        simp [none']
    | request serves taken =>
        cases taken with
        | spawn =>
            intro producer member
            rcases List.mem_append.mp member with old | new
            · exact genuine.producers producer old
            · rw [List.mem_singleton.mp new]
              trivial
        | _ => exact genuine.producers
    | producer serves taken => exact genuine.producer consistent taken delivers
    | kill | crash => exact fun _ member => by cases member
    | flush => exact fun producer member => (genuine.producers producer member).same rfl
  case rows =>
    intro id manifest row
    cases step with
    | producer serves taken =>
        rcases taken.row_genuine genuine consistent row with old | made
        · exact genuine.kept consistent (.producer serves taken) old
        · exact made
    | opening taken =>
        have old : state.store.index.exports[id]? = some manifest := by cases taken <;> exact row
        exact genuine.kept consistent (.opening taken) old
    | request serves taken =>
        have old : state.store.index.exports[id]? = some manifest := by cases taken <;> exact row
        exact genuine.kept consistent (.request serves taken) old
    | kill => exact genuine.kept consistent .kill row
    | flush id => exact genuine.kept consistent (.flush id) row
    | crash survives => exact genuine.kept consistent (.crash survives) row

/-- What is made and committed is so in every reachable state. -/
theorem genuine_of_reachable {state : State}
    (reached : (supplied settings supply).Reachable state)
    : Genuine settings supply state := by
  have kept : ∀ {before : State} {label : Label} {after : State},
      (supplied settings supply).step before label after
      → Consistent before ∧ Genuine settings supply before
      → Consistent after ∧ Genuine settings supply after :=
    fun taken holds => ⟨holds.1.step taken.1, holds.2.step taken holds.1⟩
  obtain ⟨trace, start, rfl, path⟩ := reached
  refine (path.preserves kept ⟨.fresh, fun _ member => (by cases member), ?_⟩).2
  simp [State.fresh]

-----------------------------------------------------------------------------------------
-- Served files
-----------------------------------------------------------------------------------------

/-- A file of a committed export is one that a worker delivered, with its content for good. -/
theorem published_delivered {state : State}
    (reached : (supplied settings supply).Reachable state) {id : String} {manifest : Manifest}
    {published : PublishedFile} (row : state.store.index.exports[id]? = some manifest)
    (member : published ∈ manifest.files)
    : ∃ job output result sealed content,
        supply job output result
        ∧ sealOutput settings job result output = .ok (sealed, manifest)
        ∧ output.content published.artifact.name = some content
        ∧ ∀ {trace : List Label} {after : State},
            (system settings).Path state trace after
            → after.store.index.files[published.id]? = some (fileRow id published)
              ∧ fileContent after.store.disk (fileRow id published) = some content := by
  obtain ⟨job, directory, -, held, output, result, sealed, delivered, done, files⟩ :=
    (genuine_of_reachable reached).rows row
  obtain ⟨content, worked, stable⟩ := files published member
  obtain ⟨content', -, stays⟩ := content_stays (reachable_of_supplied reached) row member
  -- the content that stays is the one that was delivered
  have now := (stays .here).2
  rw [fileContent, fileRow, held, Option.bind_some, stable.2] at now
  obtain rfl := Option.some.inj now
  exact ⟨job, output, result, sealed, content, delivered, done, worked, stays⟩

/-- An answer of the handler in a run with such workers: the query, the check of the path and the
opening of the file each see their own moment.
-/
def Answered (settings : Settings) (supply : Supply) (serve : ServeFile) (id : String)
    (request : Headers) (response : Response)
    : Prop :=
  ∃ before between first second third,
    (supplied settings supply).Reachable first
    ∧ (system settings).Path first before second
    ∧ (system settings).Path second between third
    ∧ file serve first.store.index.files second.store.disk third.store.disk id request
      = .ok response

/-- What is answered but an error is a file that a worker delivered, with its content then. -/
theorem Answered.delivered {serve : ServeFile} {id : String} {request : Headers}
    {response : Response} (answered : Answered settings supply serve id request response)
    : ∃ job output result sealed manifest published content,
        supply job output result
        ∧ sealOutput settings job result output = .ok (sealed, manifest)
        ∧ published ∈ manifest.files
        ∧ published.id = id
        ∧ output.content published.artifact.name = some content
        ∧ answer serve (fileRow manifest.id published) (some content) request = .ok response := by
  obtain ⟨_, _, first, second, third, reached, checks, opens, answered⟩ := answered
  have asked := answered
  simp only [file, bind_ok, context_ok] at asked
  obtain ⟨row, found, -⟩ := asked
  have filed := filed_of_reachable (reachable_of_supplied reached)
  obtain ⟨manifest, published, listed, member, rfl, -⟩ := filed.owned found
  rw [← filed.named listed] at listed
  obtain ⟨job, output, result, sealed, content, delivered, done, worked, stays⟩ :=
    published_delivered reached listed member
  refine ⟨job, output, result, sealed, manifest, published, content, delivered, done, member, rfl,
    worked, ?_⟩
  have recorded := (stays .here).1
  have checked := (stays checks).2
  have opened := (stays (checks.append opens)).2
  rw [← answered]
  simp only [file, recorded, checked, opened, context, ensure, Option.isSome_some, ok_bind,
    if_true]

/-- What a worker may deliver and the service accepts is published and reported in some run. -/
theorem exists_published {job : Job} {output sealed : Directory} {result : WorkerResult}
    {manifest : Manifest} {index : Index} (delivered : supply job output result)
    (named : result.Named)
    (accepted : sealOutput settings job result output = .ok (sealed, manifest))
    (inserted : Index.publish { exports := ∅, files := ∅ } manifest = some index)
    : ∃ state,
        (supplied settings supply).Reachable state
        ∧ state.store.index = index
        ∧ ∃ item ∈ state.results, item.exportId = some manifest.id := by
  have absent : (∅ : Std.TreeMap String Manifest)[job.id]? = none := by simp
  have single : ∀ {producer : Producer}, producer.phase.Delivered supply producer.job
      → ∀ other ∈ [producer], other.phase.Delivered supply other.job :=
    fun phase other member => List.mem_singleton.mp member ▸ phase
  let producer : Producer := { job, gate := none, phase := .spawned }
  have start : (supplied settings supply).Execution [] .fresh := ⟨_, rfl, .here⟩
  have boot := start.next ⟨.opening (.boot rfl), by simp [State.Supplied, State.fresh]⟩
  have opened := boot.next ⟨.opening (.opened rfl), by simp [State.Supplied, State.fresh]⟩
  have asked := opened.next
    ⟨.request rfl (.request job), by simp [State.Supplied, State.fresh]⟩
  have miss := asked.next
    ⟨.request rfl (@RequestStep.miss _ 0 _ rfl rfl absent), by simp [State.Supplied, State.fresh]⟩
  have spawn := miss.next ⟨.request rfl (@RequestStep.spawn _ 0 _ rfl rfl), single trivial⟩
  obtain ⟨gate, locks, gates, entered, -⟩ := State.enterMap_spec _ 0 producer
  have enter := spawn.next
    ⟨.producer rfl (@ProducerStep.enterMap _ _ 0 producer rfl rfl), entered ▸ single trivial⟩
  rw [entered] at enter
  have acquire := enter.next
    ⟨.producer rfl (@ProducerStep.acquire _ _ 0 _ gate rfl rfl rfl fun other member _ => by
      rw [List.mem_singleton.mp member]
      rfl), single trivial⟩
  have lookup := acquire.next
    ⟨.producer rfl (@ProducerStep.work _ _ 0 _ _ _ _ rfl (.absent absent)), single trivial⟩
  have works := lookup.next
    ⟨.producer rfl (@ProducerStep.work _ _ 0 _ _ _ _ rfl .startWorker), single trivial⟩
  have finish := works.next
    ⟨.producer rfl (@ProducerStep.work _ _ 0 _ _ _ _ rfl
      (@WorkStep.finishWorker _ _ _ output _ named)), single delivered⟩
  have accept := finish.next
    ⟨.producer rfl (@ProducerStep.work _ _ 0 _ _ _ _ rfl (.accept accepted)), single trivial⟩
  have vacant : Std.TreeMap.get? (∅ : Std.TreeMap String Directory) job.id = none := by simp
  have rename := accept.next
    ⟨.producer rfl (@ProducerStep.work _ _ 0 _ _ _ _ rfl
      (.rename fun held => by cases vacant.symm.trans held)), single trivial⟩
  have sync := rename.next
    ⟨.producer rfl (@ProducerStep.work _ _ 0 _ _ _ _ rfl .sync), single trivial⟩
  have commit := sync.next
    ⟨.producer rfl (@ProducerStep.work _ _ 0 _ _ _ _ rfl (.commit inserted)), single trivial⟩
  have again := commit.next ⟨.request rfl (.request job), single trivial⟩
  have named : manifest.id = job.id := (sealOutput_ids accepted).1
  have row : index.exports[job.id]? = some manifest := by
    simp only [Index.publish, Option.bind_eq_bind, Option.bind_eq_some_iff, Option.pure_def,
      Option.some.injEq] at inserted
    obtain ⟨exports, first, files, -, rfl⟩ := inserted
    exact named ▸ Table.insertNew_self first
  have hit := again.next
    ⟨.request rfl (@RequestStep.hit _ 1 _ manifest rfl rfl row), single trivial⟩
  exact ⟨_, hit.reachable, rfl, _, List.mem_append_right _ (List.mem_singleton_self _), rfl⟩

end Steps

end MoenotesAssets.Publication
