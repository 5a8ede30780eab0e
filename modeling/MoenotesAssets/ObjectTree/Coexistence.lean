import MoenotesAssets.ObjectTree.Convergence

/-! Names that cannot stand in one tree. Planning compares directories of keys with each other
and object keys with each other, but no directory with a file: it finds a clash exactly when
another check fails, or when the first object that is to be copied is blocked, and what it lets
pass can be copied exactly when no new object lies below a file.
-/

namespace MoenotesAssets.ObjectTree
open Foundation Export

-----------------------------------------------------------------------------------------
-- Clashes
-----------------------------------------------------------------------------------------

section Sha

variable (sha256 : List UInt8 → List UInt8)

/-- The objects that the manifests of a job name. -/
def named (job : Job) : List Object :=
  (filesOf job.selected).filterMap fun entry => (describe sha256 entry.1 entry.2).toOption

/-- The objects that are to be present: named ones and indexed ones. -/
def present (job : Job) (tree : Tree) : List Object := named sha256 job ++ tree.loaded.objects

/-- The path of an object under case folding. -/
def Object.foldedPath (object : Object) : Path :=
  (splitPath object.objectKey).map toAsciiLowercase

/-- Two objects cannot stand in one tree under case folding: they have one path, or the file
of one would have to be a directory of the other.
-/
def Clash (object other : Object) : Prop :=
  object ≠ other ∧ object.foldedPath = other.foldedPath
  ∨ Disk.Above object.foldedPath other.foldedPath

instance (object other : Object) : Decidable (Clash object other) :=
  inferInstanceAs (Decidable (_ ∨ _))

/-- Two of the objects that are to be present clash. -/
def HasClash (job : Job) (tree : Tree) : Prop :=
  ∃ object ∈ present sha256 job tree, ∃ other ∈ present sha256 job tree, Clash object other

instance (job : Job) (tree : Tree) : Decidable (HasClash sha256 job tree) :=
  inferInstanceAs (Decidable (∃ object ∈ _, _))

/-- On a clash a run fails before it creates a file or rewrites the index. -/
def PreflightComplete (job : Job) (tree : Tree) : Prop :=
  HasClash sha256 job tree
  → (∃ error, (exportProfile sha256 job tree).result = .error error)
    ∧ ∀ seen ∈ (exportProfile sha256 job tree).visible,
        seen.index = tree.index
        ∧ ∀ {path : Path} {content : List UInt8},
            seen.disk.node path = some (.file content)
            ↔ tree.disk.node path = some (.file content)

/-- Once the planning of a run has ended without an error, its copy loop fails at no step. Nothing
but names makes it fail: sources are as they were planned, and an operation that the system
refuses ends the run like a death.
-/
def CopiesPlanned (job : Job) (tree : Tree) : Prop :=
  ∀ index planned, plan sha256 job tree = .ok (index, planned) →
    ∃ final, (exportProfile sha256 job tree).result = .ok final

/-- No object that is to be copied lies below anything in the tree but directories. -/
def Unblocked (tree : Tree) (files : List Planned) : Prop :=
  ∀ file ∈ newcomers (tree.loaded.objects.map Object.folded) files, ∀ above node,
    Disk.Above above file.target → tree.disk.node above = some node → node = .directory

/-- The first object that is to be copied lies below a file of the tree. -/
def FirstBlocked (tree : Tree) (files : List Planned) : Prop :=
  ∃ file rest,
    newcomers (tree.loaded.objects.map Object.folded) files = file :: rest
    ∧ ∃ above node,
        Disk.Above above file.target ∧ tree.disk.node above = some node ∧ node ≠ .directory

end Sha

-----------------------------------------------------------------------------------------
-- A blocked first object
-----------------------------------------------------------------------------------------

section Sha

variable {sha256 : List UInt8 → List UInt8} {job : Job} {tree : Tree} {files : List Planned}

/-- A directory that is there is not made again. -/
theorem makeDirectory_there {path : Path} (held : tree.disk.node path = some .directory)
    : makeDirectory path tree = ⟨[], tree, .ok ()⟩ := by
  have looked : ((Program.observe fun tree : Tree => .ok (tree.disk.node path)) tree).result
      = (.ok (some .directory) : Except String _) := congrArg Except.ok held
  rw [makeDirectory, Program.bind_returned looked]
  rfl

/-- No directory is made where something else stands. -/
theorem makeDirectory_refused {path : Path} {node : Node}
    (held : tree.disk.node path = some node) (other : node ≠ .directory)
    : makeDirectory path tree = ⟨[], tree, .error "File exists"⟩ := by
  have looked : ((Program.observe fun tree : Tree => .ok (tree.disk.node path)) tree).result
      = (.ok (some node) : Except String _) := congrArg Except.ok held
  rw [makeDirectory, Program.bind_returned looked]
  cases node with
  | directory => exact absurd rfl other
  | file content => rfl
  | symlink => rfl

/-- The directories of a path stop at anything else on the way, with nothing made before it:
by induction on the names up to there, which are directories as something lies below them.
-/
theorem createDirAll_refused {above names rest : Path} {node : Node}
    (held : tree.disk.node (above ++ names) = some node) (other : node ≠ .directory)
    (nonempty : names ≠ [])
    : createDirAll above (names ++ rest) tree = ⟨[], tree, .error "File exists"⟩ := by
  induction names generalizing above with
  | nil => exact absurd rfl nonempty
  | cons name between ih =>
      rw [List.cons_append, createDirAll]
      rw [List.append_cons] at held
      by_cases last : between = []
      · rw [last, List.append_nil] at held
        have refused := makeDirectory_refused held other
        have failed : (makeDirectory (above ++ [name]) tree).result = .error "File exists" := by
          rw [refused]
        rw [Program.bind_failed failed, refused]
      · have directory := Disk.ancestor (by rw [held]; exact Option.some_ne_none node) last
        have there := makeDirectory_there directory
        have returned : (makeDirectory (above ++ [name]) tree).result = .ok () := by rw [there]
        rw [Program.bind_returned returned, there]
        simp only [ih held last, List.nil_append]

/-- A run whose first object is blocked fails and leaves the tree as it is. -/
theorem exportProfile_blocked (accepted : Acceptable sha256 job tree files)
    (blocked : FirstBlocked tree files)
    : exportProfile sha256 job tree = ⟨[], tree, .error "File exists"⟩ := by
  obtain ⟨file, rest, planned, above, node, ⟨⟨below, path⟩, apart⟩, held, other⟩ := blocked
  have plans := plan_ok.mpr ⟨files, accepted, rfl, planned.symm⟩
  have nonempty : above ≠ [] := by
    rintro rfl
    exact other (Option.some.inj (held.symm.trans tree.disk.root))
  have lower : below ≠ [] := by
    rintro rfl
    exact apart (by rw [← path, List.append_nil])
  have directories : file.target.dropLast = above ++ below.dropLast := by
    rw [← path, List.dropLast_append_of_ne_nil lower]
  have stops : createDirAll [] file.target.dropLast tree = ⟨[], tree, .error "File exists"⟩ := by
    rw [directories]
    exact @createDirAll_refused tree [] above below.dropLast node held other nonempty
  have copy : copyObject sha256 job (tree.loaded.withEmpties job.selected) file tree
      = ⟨[], tree, .error "File exists"⟩ := by
    have failed : (createDirAll [] file.target.dropLast tree).result = .error "File exists" := by
      rw [stops]
    rw [copyObject, Program.bind_failed failed, stops]
  have loop : (file :: rest).foldlM (copyObject sha256 job)
      (tree.loaded.withEmpties job.selected) tree = ⟨[], tree, .error "File exists"⟩ := by
    have failed : (copyObject sha256 job (tree.loaded.withEmpties job.selected) file tree).result
        = .error "File exists" := by rw [copy]
    rw [List.foldlM_cons, Program.bind_failed failed, copy]
  have failed : ((file :: rest).foldlM (copyObject sha256 job)
      (tree.loaded.withEmpties job.selected) tree).result = .error "File exists" := by rw [loop]
  have observed : ((Program.observe (plan sha256 job)) tree).result
      = .ok (tree.loaded.withEmpties job.selected, file :: rest) := plans
  rw [exportProfile, Program.bind_returned observed]
  simp only [Program.observe, Program.bind_failed failed, loop, List.nil_append]

/-- Objects that are pushed make an index longer. -/
theorem pushAll_same {base : Index} {done : List Planned}
    (same : (pushAll base done).objects.length = base.objects.length)
    : done = [] := by
  have lengths := (pushAll_objects base done).length_eq
  rw [List.length_append, List.length_map] at lengths
  exact List.eq_nil_of_length_eq_zero (by omega)

/-- A run that stops with the index as it was has stopped at its first object. -/
theorem firstBlocked_of_stopped
    (stopped
      : Stopped sha256 tree (tree.loaded.withEmpties job.selected)
          (newcomers (tree.loaded.objects.map Object.folded) files)
          (exportProfile sha256 job tree).last)
    (same : (exportProfile sha256 job tree).last.index = tree.index)
    : FirstBlocked tree files := by
  obtain ⟨done, file, rest, whole, stage, blocked⟩ := stopped
  have nothing : done = [] := by
    rcases stage.index with ⟨-, nothing⟩ | written
    · exact nothing
    · have loaded : tree.loaded = pushAll (tree.loaded.withEmpties job.selected) done := by
        conv_lhs => rw [Tree.loaded, ← same, written, Option.getD_some]
      exact pushAll_same (congrArg (fun index => index.objects.length) loaded).symm
  subst nothing
  refine ⟨file, rest, whole, ?_⟩
  by_contra free
  refine blocked fun other member above higher => ?_
  obtain rfl := List.mem_singleton.mp member
  refine ⟨fun {node} held => ?_, fun one among equal => ?_⟩
  · by_contra differs
    exact free ⟨above, node, higher, held, differs⟩
  · obtain rfl := List.mem_singleton.mp among
    exact higher.2 equal.symm

/-- A run misses no clash exactly when a check refuses it, the objects do not clash, or its
first object is blocked.
-/
theorem refuses_clash_iff
    : PreflightComplete sha256 job tree
      ↔ ∀ files, Acceptable sha256 job tree files →
          ¬HasClash sha256 job tree ∨ FirstBlocked tree files := by
  constructor
  · intro complete files accepted
    by_cases clash : HasClash sha256 job tree
    · obtain ⟨⟨error, failed⟩, untouched⟩ := complete clash
      have plans := plan_ok.mpr ⟨files, accepted, rfl, rfl⟩
      have stopped := (exportProfile_guards accepted.prepared plans).fails rfl failed
      have last := untouched _ (List.mem_append_right _ List.mem_cons_self)
      exact Or.inr (firstBlocked_of_stopped stopped last.1)
    · exact Or.inl clash
  · intro either clash
    have refused : ∃ error, exportProfile sha256 job tree = ⟨[], tree, .error error⟩ := by
      cases plans : plan sha256 job tree with
      | error error => exact ⟨error, exportProfile_refused plans⟩
      | ok result =>
          obtain ⟨files, accepted, -⟩ := plan_ok.mp plans
          rcases either files accepted with apart | blocked
          · exact absurd clash apart
          · exact ⟨_, exportProfile_blocked accepted blocked⟩
    obtain ⟨error, refused⟩ := refused
    rw [refused]
    refine ⟨⟨error, rfl⟩, fun seen visible => ?_⟩
    obtain rfl : seen = tree := List.mem_singleton.mp visible
    exact ⟨rfl, Iff.rfl⟩

-----------------------------------------------------------------------------------------
-- A copy loop without hindrance
-----------------------------------------------------------------------------------------

/-- What was planned is copied exactly when a check refuses the run or all destinations are free. -/
theorem copies_planned_iff
    : CopiesPlanned sha256 job tree
      ↔ ∀ files, Acceptable sha256 job tree files →
          Free tree.disk (newcomers (tree.loaded.objects.map Object.folded) files) := by
  constructor
  · intro copies files accepted
    have plans := plan_ok.mpr ⟨files, accepted, rfl, rfl⟩
    obtain ⟨final, returned⟩ := copies _ _ plans
    have ended := (exportProfile_guards accepted.prepared plans).returns rfl returned
    exact free_of_complete accepted.prepared.placed ended.stage.grown.keeps ended.stage.complete
  · intro free index planned plans
    obtain ⟨files, accepted, rfl, rfl⟩ := plan_ok.mp plans
    cases result : (exportProfile sha256 job tree).result with
    | ok final => exact ⟨final, rfl⟩
    | error error =>
        obtain ⟨done, file, rest, whole, -, blocked⟩ :=
          (exportProfile_guards accepted.prepared plans).fails rfl result
        refine absurd (fun one member above higher => ?_) blocked
        have among : done ++ [file] ⊆ newcomers (tree.loaded.objects.map Object.folded) files := by
          have split : done ++ file :: rest = (done ++ [file]) ++ rest := List.append_cons ..
          rw [whole, split]
          exact List.subset_append_left _ rest
        obtain ⟨directories, apart⟩ := free files accepted one (among member) higher
        exact ⟨directories, fun other inside => apart other (among inside)⟩

/-- A planned file is one that the manifests name. -/
theorem Acceptable.named (accepted : Acceptable sha256 job tree files) {file : Planned}
    (member : file ∈ files)
    : file.object ∈ named sha256 job := by
  obtain ⟨entry, among, found⟩ := mapM_comes accepted.inspected member
  refine List.mem_filterMap.mpr ⟨entry, among, ?_⟩
  rw [(inspect_ok.mp found).1]
  rfl

/-- A path above another one is so under case folding. -/
theorem above_folded {above path : Path} (higher : Disk.Above above path)
    : Disk.Above (above.map toAsciiLowercase) (path.map toAsciiLowercase) := by
  refine ⟨higher.1.map toAsciiLowercase, fun same => higher.2 ?_⟩
  have lengths := congrArg List.length same
  rw [List.length_map, List.length_map] at lengths
  exact higher.1.eq_of_length lengths

/-- Destinations of objects that do not clash are free when nothing in the tree blocks them. -/
theorem free_of_apart (accepted : Acceptable sha256 job tree files)
    (apart : ¬HasClash sha256 job tree) (unblocked : Unblocked tree files)
    : Free tree.disk (newcomers (tree.loaded.objects.map Object.folded) files) := by
  intro file member above higher
  refine ⟨fun held => unblocked file member above _ higher held, fun other among same => ?_⟩
  have object : ∀ {one : Planned},
      one ∈ newcomers (tree.loaded.objects.map Object.folded) files →
      one.object ∈ present sha256 job tree ∧ one.target = splitPath one.object.objectKey := by
    intro one inside
    exact ⟨List.mem_append_left _ (accepted.named (mem_newcomers inside).1),
      accepted.prepared.placed one inside⟩
  obtain ⟨there, placed⟩ := object member
  obtain ⟨there', placed'⟩ := object among
  refine apart ⟨other.object, there', file.object, there, Or.inr ?_⟩
  rw [← same, placed', placed] at higher
  exact above_folded higher

/-- The preflight is complete, in that it refuses every clash before anything is created and that
what it lets pass can be copied, exactly when a check of the planning refuses the run, or no two
objects clash and none that is new lies below anything in the tree but directories. A clash alone
is also refused when the first new object is blocked, and what was planned is also copied when
names clash that differ in case only.
-/
theorem preflight_complete_iff
    : (PreflightComplete sha256 job tree ∧ CopiesPlanned sha256 job tree
        ↔ ∀ files, Acceptable sha256 job tree files →
            ¬HasClash sha256 job tree ∧ Unblocked tree files)
      ∧ (PreflightComplete sha256 job tree
        ↔ ∀ files, Acceptable sha256 job tree files →
            ¬HasClash sha256 job tree ∨ FirstBlocked tree files)
      ∧ (CopiesPlanned sha256 job tree
        ↔ ∀ files, Acceptable sha256 job tree files →
            Free tree.disk (newcomers (tree.loaded.objects.map Object.folded) files)) := by
  refine ⟨?_, refuses_clash_iff, copies_planned_iff⟩
  rw [refuses_clash_iff, copies_planned_iff]
  constructor
  · rintro ⟨refuses, copies⟩ files accepted
    have unblocked : Unblocked tree files :=
      fun file member above _ higher held => (copies files accepted file member higher).1 held
    refine ⟨(refuses files accepted).resolve_right ?_, unblocked⟩
    rintro ⟨file, rest, planned, above, node, higher, held, other⟩
    exact other (unblocked file (planned ▸ List.mem_cons_self) above node higher held)
  · intro both
    exact ⟨fun files accepted => Or.inl (both files accepted).1, fun files accepted =>
      free_of_apart accepted (both files accepted).1 (both files accepted).2⟩

end Sha

/-- The keys "a" and "a/a.mp4" clash: the file of the first would have to be a directory. It is
copied and recorded before the run fails.
-/
theorem preflight_misses_clash
    : ¬PreflightComplete id (sampleJob false [("a", "a"), ("b", "a/a.mp4")]) .empty
      ∧ ¬CopiesPlanned id (sampleJob false [("a", "a"), ("b", "a/a.mp4")]) .empty := by
  constructor
  · intro complete
    obtain ⟨-, untouched⟩ := complete (by decide +kernel)
    have last := untouched _ (List.mem_append_right _ List.mem_cons_self)
    have written : (exportProfile id (sampleJob false [("a", "a"), ("b", "a/a.mp4")])
        .empty).last.index ≠ Tree.empty.index := by decide +kernel
    exact written last.1
  · intro copies
    have planned : (plan id (sampleJob false [("a", "a"), ("b", "a/a.mp4")]) .empty).isOk := by
      decide +kernel
    obtain ⟨⟨index, files⟩, plans⟩ := ok_of_isOk planned
    obtain ⟨final, returned⟩ := copies index files plans
    have fails : (exportProfile id (sampleJob false [("a", "a"), ("b", "a/a.mp4")])
        .empty).result.isOk = false := by decide +kernel
    rw [returned] at fails
    cases fails

end MoenotesAssets.ObjectTree
