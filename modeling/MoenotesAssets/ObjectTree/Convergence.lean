import MoenotesAssets.ObjectTree.History

/-! Repeated runs of one job: once a run succeeds, every run after any number of deaths returns
the same index, as each of them goes on where the last one was stopped.
-/

namespace MoenotesAssets.ObjectTree
open Foundation Export

/-- (Interrupted sha256 job first tree) holds when runs of a job that died at any step, one
after the other, have led from `first` to `tree`.
-/
inductive Interrupted (sha256 : List UInt8 → List UInt8) (job : Job) (first : Tree)
    : Tree → Prop where
  | start : Interrupted sha256 job first first
  | died {tree seen : Tree} (before : Interrupted sha256 job first tree)
    (visible : seen ∈ (exportProfile sha256 job tree).visible)
    : Interrupted sha256 job first seen

section Sha

variable {sha256 : List UInt8 → List UInt8} {job : Job} {first tree seen : Tree}
  {files done rest : List Planned}

-----------------------------------------------------------------------------------------
-- What is recorded already
-----------------------------------------------------------------------------------------

/-- The empty export of a manifest is recorded, when it has one. -/
def HasEmpty (empties : List EmptyExport) (m : Manifest) : Prop :=
  m.empty = true → ∃ empty ∈ empties, empty.exportId = some m.id

/-- Nothing is recorded twice. -/
theorem recordEmpty_same {empties : List EmptyExport} {m : Manifest}
    (has : HasEmpty empties m)
    : recordEmpty empties m = empties := by
  rw [recordEmpty, if_neg]
  intro new
  simp only [Bool.and_eq_true, Bool.not_eq_true', List.any_eq_false, decide_eq_true_eq] at new
  obtain ⟨empty, member, same⟩ := has new.1
  exact new.2 empty member same

/-- Recording keeps what is recorded. -/
theorem recordEmpty_subset (empties : List EmptyExport) (m : Manifest)
    : empties ⊆ recordEmpty empties m := by
  rw [recordEmpty]
  split
  · exact List.subset_append_left empties _
  · exact List.Subset.refl empties

/-- A manifest is recorded. -/
theorem recordEmpty_has (empties : List EmptyExport) (m : Manifest)
    : HasEmpty (recordEmpty empties m) m := by
  intro isEmpty
  by_cases known : empties.any (fun empty => empty.exportId = some m.id) = true
  · obtain ⟨empty, member, same⟩ := List.any_eq_true.mp known
    exact ⟨empty, recordEmpty_subset empties m member, of_decide_eq_true same⟩
  · rw [recordEmpty, if_pos (by simp [isEmpty, known])]
    exact ⟨EmptyExport.of m, List.mem_append_right empties List.mem_cons_self, rfl⟩

/-- More empty exports have what fewer have. -/
theorem HasEmpty.mono {empties more : List EmptyExport} {m : Manifest} (has : HasEmpty empties m)
    (subset : empties ⊆ more)
    : HasEmpty more m := by
  intro isEmpty
  obtain ⟨empty, member, same⟩ := has isEmpty
  exact ⟨empty, subset member, same⟩

/-- All manifests are recorded, by induction on them. -/
theorem recordEmpties_has {manifests : List Manifest} {empties : List EmptyExport}
    : empties ⊆ manifests.foldl recordEmpty empties
      ∧ ∀ m ∈ manifests, HasEmpty (manifests.foldl recordEmpty empties) m := by
  induction manifests generalizing empties with
  | nil => exact ⟨List.Subset.refl empties, fun _ member => (List.not_mem_nil member).elim⟩
  | cons m rest ih =>
      obtain ⟨subset, has⟩ := @ih (recordEmpty empties m)
      refine ⟨List.Subset.trans (recordEmpty_subset empties m) subset,
        List.forall_mem_cons.mpr ⟨?_, has⟩⟩
      exact (recordEmpty_has empties m).mono subset

/-- Nothing is recorded twice by a whole run, by induction on its manifests. -/
theorem recordEmpties_same {manifests : List Manifest} {empties : List EmptyExport}
    (has : ∀ m ∈ manifests, HasEmpty empties m)
    : manifests.foldl recordEmpty empties = empties := by
  induction manifests with
  | nil => rfl
  | cons m rest ih =>
      obtain ⟨here, later⟩ := List.forall_mem_cons.mp has
      rw [List.foldl_cons, recordEmpty_same here, ih later]

/-- The files that are left when the first planned ones have become known, by induction on
the files.
-/
theorem newcomers_continue {known known' : List String}
    (whole : newcomers known files = done ++ rest)
    (more
      : ∀ {key : String},
          key ∈ known' ↔ key ∈ known ∨ key ∈ done.map fun file => file.object.folded)
    : newcomers known' files = rest := by
  induction files generalizing known known' done rest with
  | nil =>
      obtain ⟨-, rfl⟩ := List.append_eq_nil_iff.mp whole.symm
      rfl
  | cons file others ih =>
      by_cases old : file.object.folded ∈ known
      · rw [newcomers, if_pos old] at whole
        rw [newcomers, if_pos (more.mpr (Or.inl old))]
        exact ih whole more
      · rw [newcomers, if_neg old] at whole
        cases done with
        | nil =>
            have same : ∀ {key : String}, key ∈ known' ↔ key ∈ known := by
              intro key
              rw [more, List.map_nil, or_iff_left List.not_mem_nil]
            rw [List.nil_append] at whole
            rw [newcomers, if_neg (same.not.mpr old), ← whole]
            have others : newcomers (file.object.folded :: known) others
                = [] ++ newcomers (file.object.folded :: known) others := rfl
            refine congrArg (file :: ·) (ih others ?_)
            intro key
            simp only [List.mem_cons, same, List.map_nil, List.not_mem_nil, or_false]
        | cons head tail =>
            obtain ⟨rfl, left⟩ := List.cons.inj whole
            have known : file.object.folded ∈ known' :=
              more.mpr (Or.inr List.mem_cons_self)
            rw [newcomers, if_pos known]
            refine ih left ?_
            intro key
            rw [more, List.map_cons, List.mem_cons, List.mem_cons]
            exact ⟨fun either => by tauto, fun either => by tauto⟩

-----------------------------------------------------------------------------------------
-- A run that goes on
-----------------------------------------------------------------------------------------

/-- What a later run loads, with the empty exports of the job. -/
theorem Stage.withEmpties {reached : List Planned}
    (stage : Stage sha256 first (first.loaded.withEmpties job.selected) done reached tree)
    : tree.loaded.withEmpties job.selected
      = pushAll (first.loaded.withEmpties job.selected) done := by
  rcases stage.index with ⟨same, rfl⟩ | written
  · have loaded : tree.loaded = first.loaded := by rw [Tree.loaded, same, ← Tree.loaded]
    rw [loaded]
    rfl
  · have loaded : tree.loaded = pushAll (first.loaded.withEmpties job.selected) done := by
      rw [Tree.loaded, written, Option.getD_some]
    have empties : (pushAll (first.loaded.withEmpties job.selected) done).emptyExports
        = job.selected.foldl recordEmpty first.loaded.emptyExports :=
      (pushAll_rest _ done).2.2
    rw [loaded, Index.withEmpties, empties, recordEmpties_same recordEmpties_has.2, ← empties]

/-- The schema of an index does not change. -/
theorem Stage.schema {reached : List Planned}
    (stage : Stage sha256 first (first.loaded.withEmpties job.selected) done reached tree)
    : tree.loaded.schema = first.loaded.schema ∧ tree.loaded.naming = first.loaded.naming := by
  have same : tree.loaded.withEmpties job.selected = _ := stage.withEmpties
  obtain ⟨schema, naming, -⟩ := pushAll_rest (first.loaded.withEmpties job.selected) done
  exact ⟨(congrArg Index.schema same).trans schema, (congrArg Index.naming same).trans naming⟩

/-- A complete file at each destination shows that the destinations are free. -/
theorem free_of_complete {planned : List Planned} {disk : Disk}
    (placed : ∀ file ∈ planned, file.IsPlaced) (keeps : first.disk.Keeps disk)
    (complete : ∀ file ∈ planned, Complete sha256 disk file.object)
    : Free first.disk planned := by
  have file : ∀ file ∈ planned, ∃ content, disk.node file.target = some (.file content) := by
    intro file member
    obtain ⟨content, held, -⟩ := complete file member
    exact ⟨content, by rw [placed file member, held]⟩
  intro one member above higher
  obtain ⟨content, held⟩ := file one member
  have directory := Disk.node_above (by rw [held]; exact Option.some_ne_none _) higher
  refine ⟨fun before => ?_, fun other among same => ?_⟩
  · exact Option.some.inj ((keeps _ _ before).symm.trans directory)
  · obtain ⟨content', held'⟩ := file other among
    rw [same, directory] at held'
    cases held'

/-- Destinations stay free while a run copies. -/
theorem Free.grown {planned : List Planned} (free : Free first.disk planned)
    (grown : Grown sha256 first.disk planned tree.disk) (subset : rest ⊆ planned)
    : Free tree.disk rest := by
  intro file member above higher
  refine ⟨fun held => grown.above free (subset member) higher held, fun other among => ?_⟩
  exact (free file (subset member) higher).2 other (subset among)

/-- Files that were inspected once are inspected with the same outcome later. -/
theorem inspected_again {data disk later : Disk} {entries : List (Manifest × PublishedFile)}
    {planned : List Planned}
    (inspected
      : entries.mapM (fun entry => inspect sha256 disk data entry.1 entry.2) = .ok files)
    (grown : Grown sha256 disk planned later) (placed : ∀ file ∈ planned, file.IsPlaced)
    : entries.mapM (fun entry => inspect sha256 later data entry.1 entry.2) = .ok files := by
  refine mapM_ok.mpr ((mapM_ok.mp inspected).imp fun entry file found => ?_)
  obtain ⟨described, safe, plain, others⟩ := inspect_ok.mp found
  exact inspect_ok.mpr ⟨described, safe, grown.noSymlink placed plain, others⟩

/-- A run that goes on after a death plans the files that are left. -/
theorem Acceptable.resumed (accepted : Acceptable sha256 job first files)
    (sound : Sound sha256 first)
    (whole : newcomers (first.loaded.objects.map Object.folded) files = done ++ rest)
    (stage
      : Stage sha256 first (first.loaded.withEmpties job.selected) done (done ++ rest) tree)
    (free : Free first.disk (done ++ rest))
    : Acceptable sha256 job tree files := by
  have recorded : Recorded job first done tree := stage.recorded
  have later : Sound sha256 tree := sound.stage accepted whole stage
  have prepared := accepted.prepared
  rw [whole] at prepared
  have copied : ∀ file ∈ done, file ∈ files := fun file member =>
    (mem_newcomers (whole ▸ List.mem_append_left rest member)).1
  have either : ∀ {object : Object}, object ∈ tree.loaded.objects →
      object ∈ first.loaded.objects ∨ ∃ file ∈ done, file.object = object :=
    fun member => (List.mem_append.mp (recorded.objects.mem_iff.mp member)).imp_right
      List.mem_map.mp
  have origin : ∀ file ∈ done, ∃ m ∈ job.selected,
      file.object.assetKey = m.key ∧ file.object.exportId = m.id := by
    intro file member
    obtain ⟨m, selected, key, id, -⟩ := accepted.origin (copied file member)
    exact ⟨m, selected, key, id⟩
  have keys : keysOf job tree.loaded ⊆ keysOf job first.loaded := by
    intro key member
    rcases List.mem_append.mp member with selected | indexed
    · exact List.mem_append_left _ selected
    · obtain ⟨object, inside, rfl⟩ := List.mem_map.mp indexed
      rcases either inside with old | ⟨file, new, rfl⟩
      · exact List.mem_append_right _ (List.mem_map_of_mem old)
      · obtain ⟨m, selected, key, -⟩ := origin file new
        rw [key]
        exact List.mem_append_left _ (List.mem_map_of_mem selected)
  constructor
  case schema =>
    exact ⟨stage.schema.1.trans accepted.schema.1, stage.schema.2.trans accepted.schema.2⟩
  case distinct => exact later.distinct
  case intact =>
    intro object member
    have complete := later.complete object member
    refine ⟨?_, complete.noSymlink, complete⟩
    rcases either member with old | ⟨file, new, rfl⟩
    · exact (accepted.intact object old).1
    · exact prepared.safe file (List.mem_append_left rest new)
  case keyed => exact later.keyed
  case directories =>
    refine accepted.directories.subset fun entry member => ?_
    obtain ⟨key, among, inside⟩ := List.mem_flatMap.mp member
    exact List.mem_flatMap.mpr ⟨key, keys among, inside⟩
  case versions => exact accepted.versions
  case exports =>
    intro m selected id held
    rcases Table.insertAll_cases held with among | before
    · refine accepted.exports_agree sound.oneExport _ (recorded.recorded_subset origin among)
        (m.key, m.id) (List.mem_append_right _ ?_) rfl
      exact List.mem_map_of_mem (f := fun m => (m.key, m.id)) selected
    · simp at before
  case unreserved => exact accepted.unreserved
  case inspected => exact inspected_again accepted.inspected stage.grown prepared.placed
  case agreeing => exact accepted.agreeing
  case known =>
    intro file member object inside same
    rcases either inside with old | ⟨other, new, rfl⟩
    · exact accepted.known file member object old same
    · exact accepted.agreeing _ (List.mem_map_of_mem (copied other new)) _
        (List.mem_map_of_mem member) same
  case unobstructed =>
    intro file member new
    have placed := inspected_placed accepted.inspected
    rcases @newcomers_cover (first.loaded.objects.map Object.folded) files file member with
      old | ⟨other, among, same⟩
    · obtain ⟨object, inside, key⟩ := List.mem_map.mp old
      refine absurd (List.mem_map.mpr ⟨object, ?_, key⟩) new
      exact recorded.objects.mem_iff.mpr (List.mem_append_left _ inside)
    · have object : other.object = file.object :=
        accepted.agreeing _ (List.mem_map_of_mem (mem_newcomers among).1) _
          (List.mem_map_of_mem member) same
      rw [whole] at among
      refine Planned.IsUnobstructed.same (prepared.placed other among) (placed file member) object
        ?_
      exact fun stands => stage.grown.at prepared free among stands

/-- The first run of a job that succeeds: what it planned can be copied without hindrance. -/
structure Succeeding (sha256 : List UInt8 → List UInt8) (job : Job) (first : Tree)
    (files : List Planned)
    : Prop where
  sound : Sound sha256 first
  accepted : Acceptable sha256 job first files
  free : Free first.disk (newcomers (first.loaded.objects.map Object.folded) files)

/-- (Part sha256 job first files done tree) holds when runs of a job have copied `done`. -/
structure Part (sha256 : List UInt8 → List UInt8) (job : Job) (first : Tree)
    (files done rest : List Planned) (tree : Tree)
    : Prop where
  whole : newcomers (first.loaded.objects.map Object.folded) files = done ++ rest
  stage : Stage sha256 first (first.loaded.withEmpties job.selected) done (done ++ rest) tree

/-- A later run plans what is left. -/
theorem Part.plans (part : Part sha256 job first files done rest tree)
    (succeeding : Succeeding sha256 job first files)
    : plan sha256 job tree
      = .ok (pushAll (first.loaded.withEmpties job.selected) done, rest) := by
  have free := succeeding.free
  rw [part.whole] at free
  have accepted := succeeding.accepted.resumed succeeding.sound part.whole part.stage free
  refine plan_ok.mpr ⟨files, accepted, part.stage.withEmpties.symm, ?_⟩
  have recorded : Recorded job first done tree := part.stage.recorded
  refine (newcomers_continue part.whole fun {key} => ?_).symm
  rw [(recorded.objects.map Object.folded).mem_iff, List.map_append, List.mem_append,
    List.map_map]
  rfl

/-- A later run ends with the same index, and passes trees of the same runs only. -/
theorem Part.guards (part : Part sha256 job first files done rest tree)
    (succeeding : Succeeding sha256 job first files)
    : Program.Guards (fun state => state = tree) (exportProfile sha256 job)
        (Ended sha256 tree (pushAll (first.loaded.withEmpties job.selected) done) rest)
        (fun (_ : String) _ => False)
        (Found sha256 tree (pushAll (first.loaded.withEmpties job.selected) done) rest) := by
  have free := succeeding.free
  rw [part.whole] at free
  have plans := part.plans succeeding
  obtain ⟨files', accepted', -, left⟩ := plan_ok.mp plans
  have guards := exportProfile_guards (left ▸ accepted'.prepared) plans
  have unblocked : ∀ {state : Tree},
      ¬Stopped sha256 tree (pushAll (first.loaded.withEmpties job.selected) done) rest state := by
    rintro state ⟨early, file, others, split, -, blocked⟩
    have within : early ++ [file] ⊆ early ++ file :: others := by
      intro one member
      rcases List.mem_append.mp member with before | here
      · exact List.mem_append_left _ before
      · exact List.mem_append_right _ (List.mem_singleton.mp here ▸ List.mem_cons_self)
    refine blocked (free.grown part.stage.grown fun one member => ?_)
    exact List.mem_append_right done (split ▸ within member)
  exact ⟨guards.passes, guards.returns, fun start failed => unblocked (guards.fails start failed)⟩

/-- A later run passes trees that are parts of the same runs. -/
theorem Part.found (part : Part sha256 job first files done rest tree)
    (found
      : Found sha256 tree (pushAll (first.loaded.withEmpties job.selected) done) rest seen)
    : ∃ done' rest', Part sha256 job first files done' rest' seen := by
  obtain ⟨more, left, split, stage⟩ := found
  have whole : done ++ rest = (done ++ more) ++ left := by rw [split, List.append_assoc]
  refine ⟨done ++ more, left, part.whole.trans whole, ?_⟩
  rw [← whole]
  have pushed : pushAll (first.loaded.withEmpties job.selected) (done ++ more)
      = pushAll (pushAll (first.loaded.withEmpties job.selected) done) more :=
    List.foldl_append
  constructor
  case grown =>
    exact part.stage.grown.trans (stage.grown.mono (List.subset_append_right done rest))
  case complete =>
    intro file member
    rcases List.mem_append.mp member with before | now
    · exact (part.stage.complete file before).kept stage.grown.keeps
    · exact stage.complete file now
  case index =>
    rw [pushed]
    rcases stage.index with ⟨same, rfl⟩ | written
    · rw [same, List.append_nil]
      exact part.stage.index
    · exact Or.inr written

/-- The trees of interrupted runs are parts of what the first run planned, by induction on
the runs.
-/
theorem Interrupted.part (succeeding : Succeeding sha256 job first files)
    (interrupted : Interrupted sha256 job first tree)
    : ∃ done rest, Part sha256 job first files done rest tree := by
  induction interrupted with
  | start =>
      refine ⟨[], _, rfl, .refl _ _, fun _ member => ?_, Or.inl ⟨rfl, rfl⟩⟩
      exact (List.not_mem_nil member).elim
  | @died tree seen before visible ih =>
      obtain ⟨done, rest, part⟩ := ih
      refine part.found ((part.guards succeeding).visible ?_ ?_ rfl seen visible)
      · exact fun ended => ⟨_, [], (List.append_nil _).symm, ended.stage⟩
      · exact fun failed => failed.elim

/-- A run after any part of the runs returns the index of all that was planned. -/
theorem Part.result (part : Part sha256 job first files done rest tree)
    (succeeding : Succeeding sha256 job first files)
    : (exportProfile sha256 job tree).result
      = .ok (pushAll (first.loaded.withEmpties job.selected) (done ++ rest)) := by
  have guards := part.guards succeeding
  cases result : (exportProfile sha256 job tree).result with
  | error error => exact (guards.fails rfl result).elim
  | ok index =>
      rw [(guards.returns rfl result).result, pushAll, pushAll, pushAll, List.foldl_append]

/-- A run that had nothing to copy leaves the disk as it is. -/
theorem Grown.nothing {disk later : Disk} (grown : Grown sha256 disk [] later) : later = disk := by
  refine Disk.ext (funext fun path => ?_)
  cases held : later.node path with
  | none => exact (grown.keeps.absent held).symm
  | some node =>
      rcases grown.added held with old | ⟨-, file, member, -⟩ | ⟨file, member, -⟩
      · exact old.symm
      · exact (List.not_mem_nil member).elim
      · exact (List.not_mem_nil member).elim

/-- Once a run of a job on a tree with a history succeeds, the next run returns the same index
and changes no directory or file. From the tree as it was before that run, every run after
any sequence of deaths returns this index, and every tree that is passed holds the complete
file of each object that its index has.
-/
theorem export_converges {index : Index} (history : History sha256 .empty first)
    (succeeds : (exportProfile sha256 job first).result = .ok index)
    : ((exportProfile sha256 job (exportProfile sha256 job first).last).result = .ok index
        ∧ ∀ seen ∈ (exportProfile sha256 job (exportProfile sha256 job first).last).visible,
            seen.disk = (exportProfile sha256 job first).last.disk)
      ∧ ∀ tree, Interrupted sha256 job first tree →
          (exportProfile sha256 job tree).result = .ok index
          ∧ ∀ seen ∈ (exportProfile sha256 job tree).visible,
              ∀ object ∈ seen.loaded.objects, Complete sha256 seen.disk object := by
  obtain ⟨sound, -⟩ := history.keeps Sound.empty
  obtain ⟨files, accepted, ended⟩ : ∃ files, Acceptable sha256 job first files
      ∧ Ended sha256 first (first.loaded.withEmpties job.selected)
          (newcomers (first.loaded.objects.map Object.folded) files) index
          (exportProfile sha256 job first).last := by
    cases plans : plan sha256 job first with
    | error error =>
        rw [exportProfile_refused plans] at succeeds
        cases succeeds
    | ok result =>
        obtain ⟨base, planned⟩ := result
        obtain ⟨files, accepted, rfl, rfl⟩ := plan_ok.mp plans
        exact ⟨files, accepted,
          (exportProfile_guards accepted.prepared plans).returns rfl succeeds⟩
  have succeeding : Succeeding sha256 job first files :=
    ⟨sound, accepted, free_of_complete accepted.prepared.placed ended.stage.grown.keeps
      ended.stage.complete⟩
  constructor
  · have part : Part sha256 job first files
        (newcomers (first.loaded.objects.map Object.folded) files) []
        (exportProfile sha256 job first).last :=
      ⟨(List.append_nil _).symm, (List.append_nil _).symm ▸ ended.stage⟩
    refine ⟨?_, fun seen visible => ?_⟩
    · rw [part.result succeeding, List.append_nil, ended.result]
    · have found := (part.guards succeeding).visible
        (fun again => ⟨_, [], (List.append_nil _).symm, again.stage⟩)
        (fun failed => failed.elim) rfl seen visible
      obtain ⟨more, left, -, stage⟩ := found
      exact stage.grown.nothing
  · intro tree interrupted
    obtain ⟨done, rest, part⟩ := interrupted.part succeeding
    refine ⟨?_, fun seen visible object member => ?_⟩
    · rw [part.result succeeding, ← part.whole, ended.result]
    · obtain ⟨done', rest', later⟩ := (interrupted.died visible).part succeeding
      exact (sound.stage accepted later.whole later.stage).complete object member

end Sha

/-- Two objects are linked into an empty tree, after a death at any step as well. -/
theorem export_converges_sample
    : let job := sampleJob true [("a", "Movie/A"), ("b", "Movie/B")]
      ∃ index,
        (exportProfile id job .empty).result = .ok index
        ∧ index.objects.map Object.objectKey = ["Movie/A/A.mp4", "Movie/B/B.mp4"]
        ∧ ∀ tree ∈ (exportProfile id job .empty).visible,
            (exportProfile id job tree).result = .ok index := by
  intro job
  have keys : (exportProfile id job .empty).result.toOption.map
      (fun index => index.objects.map Object.objectKey)
        = some ["Movie/A/A.mp4", "Movie/B/B.mp4"] := by decide +kernel
  obtain ⟨index, found, names⟩ := Option.map_eq_some_iff.mp keys
  have result := toOption_eq_some.mp found
  have again := (export_converges .here result).2
  exact ⟨index, result, names, fun tree visible =>
    (again tree (Interrupted.start.died visible)).1⟩

end MoenotesAssets.ObjectTree
