import MoenotesAssets.Publication.Consistency

/-! The publication protocol over whole runs: committed exports are complete and stay, one
producer at a time works on an export, and results refer to committed exports.
-/

namespace MoenotesAssets.Publication

open Foundation MoenotesAssets.Export MoenotesAssets.Service

variable {settings : Settings}

-----------------------------------------------------------------------------------------
-- Committed exports
-----------------------------------------------------------------------------------------

/-- Rows of `exports` are never changed. -/
theorem Step.rows {state after : State} {label : Label} (consistent : Consistent state)
    (taken : Step settings state label after) {id : String} {manifest : Manifest}
    (row : state.store.index.exports[id]? = some manifest)
    : after.store.index.exports[id]? = some manifest := by
  cases taken with
  | opening taken => cases taken <;> exact row
  | request serves taken => cases taken <;> exact row
  | producer serves taken =>
      cases taken with
      | work found moved => exact (moved.touches (consistent.producers found).phase).rows row
      | enterMap =>
          obtain ⟨gate, locks, gates, same, -⟩ := State.enterMap_spec state _ _
          rw [same]
          exact row
      | _ => exact row
  | kill | flush | crash => exact row

/-- Without a crash the directory of a committed export is left alone. -/
theorem Step.directory {state after : State} {label : Label} (consistent : Consistent state)
    (taken : Step settings state label after) (calm : label ≠ .crash) {id : String}
    {manifest : Manifest} (row : state.store.index.exports[id]? = some manifest)
    : after.store.disk[id]? = state.store.disk[id]? := by
  cases taken with
  | opening taken =>
      cases taken with
      | erode at' valid absent =>
          refine Table.replace_other _ _ ?_
          rintro rfl
          rw [absent] at row
          cases row
      | _ => rfl
  | request serves taken => cases taken <;> rfl
  | producer serves taken =>
      cases taken with
      | work found moved => exact moved.unchanged (consistent.producers found).phase row
      | enterMap =>
          obtain ⟨gate, locks, gates, same, -⟩ := State.enterMap_spec state _ _
          rw [same]
      | _ => rfl
  | kill | flush => rfl
  | crash => exact absurd rfl calm

/-- Through any step the directory of a committed export keeps its stable files. -/
theorem Step.keeps {state after : State} {label : Label} (consistent : Consistent state)
    (taken : Step settings state label after) {id : String} {manifest : Manifest}
    {directory : Directory} (row : state.store.index.exports[id]? = some manifest)
    (held : state.store.disk[id]? = some directory)
    : ∃ later, after.store.disk[id]? = some later ∧ directory.Keeps later := by
  by_cases calm : label = .crash
  · cases taken with
    | crash survives =>
        exact (survives id).settled (consistent.stored.published row).2 held
    | opening taken => cases taken <;> cases calm
    | request _ taken => cases taken <;> cases calm
    | producer _ taken => cases taken <;> cases calm
    | _ => cases calm
  · exact ⟨directory, (taken.directory consistent calm row).trans held, Directory.Keeps.refl _⟩

/-- No worker is started for a committed export. -/
theorem Step.idle {state after : State} {id : String} (consistent : Consistent state)
    (taken : Step settings state (.work id .startWorker) after)
    : state.store.index.exports[id]? = none := by
  cases taken with
  | opening taken => cases taken
  | request serves taken => cases taken
  | producer serves taken =>
      cases taken with
      | work found moved => exact moved.starts (consistent.producers found).phase rfl

/-- A committed export and its directory as it was at some time. -/
structure Committed (id : String) (manifest : Manifest) (directory : Directory)
    (trace : List Label) (state : State) : Prop where
  row : state.store.index.exports[id]? = some manifest
  kept : ∃ later, state.store.disk[id]? = some later ∧ directory.Keeps later
  same : Label.crash ∉ trace → state.store.disk[id]? = some directory
  idle : Label.work id .startWorker ∉ trace

/-- A committed export stays committed along a path, by induction on the path. -/
theorem Committed.path {state after : State} {trace : List Label} {id : String}
    {manifest : Manifest} {directory : Directory} (consistent : Consistent state)
    (row : state.store.index.exports[id]? = some manifest)
    (held : state.store.disk[id]? = some directory)
    (path : (system settings).Path state trace after)
    : Committed id manifest directory trace after := by
  induction path with
  | here => exact ⟨row, ⟨directory, held, Directory.Keeps.refl _⟩, fun _ => held, by simp⟩
  | @next trace middle label finish path taken ih =>
      have reached : Consistent middle :=
        path.preserves (fun taken before => Consistent.step taken before) consistent
      have step : Step settings middle label finish := taken
      constructor
      case row => exact step.rows reached ih.row
      case kept =>
        obtain ⟨earlier, present, keeps⟩ := ih.kept
        obtain ⟨later, survived, still⟩ := step.keeps reached ih.row present
        exact ⟨later, survived, keeps.trans still⟩
      case same =>
        intro calm
        rw [List.mem_append, List.mem_singleton, not_or] at calm
        exact (step.directory reached (Ne.symm calm.2) ih.row).trans (ih.same calm.1)
      case idle =>
        rw [List.mem_append, List.mem_singleton, not_or]
        refine ⟨ih.idle, ?_⟩
        rintro rfl
        have absent := Step.idle reached step
        rw [ih.row] at absent
        cases absent

-----------------------------------------------------------------------------------------
-- The protocol
-----------------------------------------------------------------------------------------

/-- What holds of the exports in a reachable state and from it on. -/
structure Publishes (settings : Settings) (state : State) : Prop where
  published
    : ∀ {id : String} {manifest : Manifest},
        state.store.index.exports[id]? = some manifest
        → manifest.id = id
          ∧ ∃ directory,
              state.store.disk[id]? = some directory
              ∧ ∀ file ∈ manifest.files,
                  directory.fileLength file.artifact.name = some file.artifact.bytes
  indexed
    : ∀ {id : String} {row : FileRow},
        state.store.index.files[id]? = some row
        → ∃ manifest, state.store.index.exports[row.exportId]? = some manifest
  /-- one producer of an export at most is between locking its gate and returning -/
  exclusive
    : ∀ {left right : Nat} {first second : Producer},
        state.producers[left]? = some first
        → state.producers[right]? = some second
        → first.phase.critical = true
        → second.phase.critical = true
        → first.job.id = second.job.id
        → left = right
  reported
    : ∀ {item : ItemResult} {id : String},
        item ∈ state.results
        → item.exportId = some id
        → ∃ manifest, state.store.index.exports[id]? = some manifest
  /-- a committed export keeps its row and its files, and no worker is started for it -/
  kept
    : ∀ {id : String} {manifest : Manifest} {directory : Directory} {trace : List Label}
        {after : State},
        state.store.index.exports[id]? = some manifest
        → state.store.disk[id]? = some directory
        → (system settings).Path state trace after
        → after.store.index.exports[id]? = some manifest
          ∧ (∃ later,
              after.store.disk[id]? = some later
              ∧ ∀ file ∈ manifest.files,
                  later.entries[file.artifact.name]? = directory.entries[file.artifact.name]?)
          ∧ (Label.crash ∉ trace → after.store.disk[id]? = some directory)
          ∧ Label.work id .startWorker ∉ trace

/-- A directory that holds a manifest has its files with the recorded size. -/
theorem Directory.Holds.lengths {directory : Directory} {manifest : Manifest}
    (holds : directory.Holds manifest)
    : ∀ file ∈ manifest.files,
        directory.fileLength file.artifact.name = some file.artifact.bytes := by
  intro file member
  obtain ⟨content, ⟨-, held⟩, length⟩ := holds file member
  rw [fileLength, held]
  exact congrArg some length

/-- Whatever requests, failures, cancellations, kills and crashes came before, committed
exports are complete, exclusive to one producer, and committed for good.
-/
theorem exports_stay_published {state : State} (reached : (system settings).Reachable state)
    : Publishes settings state := by
  have consistent := consistent_of_reachable reached
  constructor
  case published =>
    intro id manifest row
    obtain ⟨⟨named, directory, held, holds⟩, -⟩ := consistent.stored.published row
    exact ⟨named, directory, held, holds.lengths⟩
  case indexed => exact consistent.stored.indexed
  case exclusive => exact consistent.alone
  case reported => exact consistent.results
  case kept =>
    intro id manifest directory trace after row held path
    have committed := Committed.path consistent row held path
    obtain ⟨later, survived, keeps⟩ := committed.kept
    refine ⟨committed.row, ⟨later, survived, fun file member => ?_⟩, committed.same,
      committed.idle⟩
    obtain ⟨⟨-, shown, present, holds⟩, -⟩ := consistent.stored.published row
    obtain rfl := Option.some.inj (present.symm.trans held)
    obtain ⟨content, stable, -⟩ := holds file member
    exact (keeps stable).2.trans stable.2.symm

/-- An export of one file of two bytes, published and reported, after a crash. -/
theorem export_of_one_file_stays
    : ∃ settings state,
        state.results.map ItemResult.exportId = [some "ab"]
        ∧ (state.store.index.exports["ab"]?).isSome = true
        ∧ Publishes settings state := by
  let settings : Settings :=
    { outputBytes := 9, digest := fun text => text, encode := fun _ => [] }
  let sys := system settings
  let output : Directory :=
    {
      entries := (∅ : Std.TreeMap String Entry).insert "00000.bin" (.file [1, 2] false)
      synced := false
    }
  let result : WorkerResult :=
    {
      files := [⟨"00000.bin", "key", "mime", 2, "hash", none, none, none⟩]
      error := none
      empty := false
    }
  have named : result.Named := by
    intro artifact member
    obtain rfl := List.mem_singleton.mp member
    exact ⟨0, "bin", by decide⟩
  have start : sys.Execution [] .fresh := ⟨_, rfl, .here⟩
  have boot := start.next (.opening (.boot rfl))
  have opened := boot.next (.opening (.opened rfl))
  have request := opened.next (.request rfl (.request ⟨"ab", "snapshot", "key"⟩))
  have miss := request.next (.request rfl (@RequestStep.miss _ 0 _ rfl rfl (by decide)))
  have spawn := miss.next (.request rfl (@RequestStep.spawn _ 0 _ rfl rfl))
  have enter := spawn.next (.producer rfl (@ProducerStep.enterMap _ _ 0 _ rfl rfl))
  have acquire := enter.next (.producer rfl (@ProducerStep.acquire _ _ 0 _ 0 rfl rfl rfl (by
    intro producer member _
    obtain rfl := List.mem_singleton.mp member
    rfl)))
  have absent := acquire.next (.producer rfl (@ProducerStep.work _ _ 0 _ _ _ _ rfl
    (.absent (by decide))))
  have works := absent.next (.producer rfl (@ProducerStep.work _ _ 0 _ _ _ _ rfl .startWorker))
  have finish := works.next (.producer rfl (@ProducerStep.work _ _ 0 _ _ _ _ rfl
    (@WorkStep.finishWorker _ _ _ output _ named)))
  have accept := finish.next (.producer rfl (@ProducerStep.work _ _ 0 _ _ _ _ rfl (.accept rfl)))
  have rename := accept.next (.producer rfl (@ProducerStep.work _ _ 0 _ _ _ _ rfl
    (.rename (fun held => by cases held))))
  have sync := rename.next (.producer rfl (@ProducerStep.work _ _ 0 _ _ _ _ rfl .sync))
  have commit := sync.next (.producer rfl (@ProducerStep.work _ _ 0 _ _ _ _ rfl (.commit rfl)))
  have unlock := commit.next (.producer rfl (@ProducerStep.unlock _ _ 0 _ _ rfl rfl))
  have drop := unlock.next (.producer rfl (@ProducerStep.drop _ _ 0 _ _ rfl rfl))
  have receive := drop.next (.request rfl (@RequestStep.receive _ 0 _ 0 _ _ rfl rfl rfl rfl))
  have crash := receive.next (.crash (fun _ => Survives.intact _ _))
  exact ⟨settings, _, rfl, by decide, exports_stay_published crash.reachable⟩
end MoenotesAssets.Publication
