import MoenotesAssets.ObjectTree.Copying

/-! What a run plans and records: the files of new objects, which can be copied, and an index
of old objects, copied ones and empty exports.
-/

namespace MoenotesAssets.ObjectTree
open Foundation Export

section Sha

variable {sha256 : List UInt8 → List UInt8}

-----------------------------------------------------------------------------------------
-- What is planned
-----------------------------------------------------------------------------------------

/-- A planned file is one of the files, and its object is not known. -/
theorem mem_newcomers {known : List String} {files : List Planned} {file : Planned}
    (member : file ∈ newcomers known files)
    : file ∈ files ∧ file.object.folded ∉ known := by
  induction files generalizing known with
  | nil => exact ((List.not_mem_nil) member).elim
  | cons first rest ih =>
      rw [newcomers] at member
      split at member
      · obtain ⟨among, new⟩ := ih member
        exact ⟨List.mem_cons_of_mem first among, new⟩
      · rename_i new
        rcases List.mem_cons.mp member with rfl | later
        · exact ⟨List.mem_cons_self, new⟩
        · obtain ⟨among, fresh⟩ := ih later
          exact ⟨List.mem_cons_of_mem first among,
            fun old => fresh (List.mem_cons_of_mem first.object.folded old)⟩

/-- Planned files have different keys. -/
theorem newcomers_nodup (known : List String) (files : List Planned)
    : ((newcomers known files).map fun file => file.object.folded).Nodup := by
  induction files generalizing known with
  | nil => exact List.nodup_nil
  | cons first rest ih =>
      rw [newcomers]
      split
      · exact ih known
      · refine List.nodup_cons.mpr ⟨fun among => ?_, ih _⟩
        obtain ⟨other, member, same⟩ := List.mem_map.mp among
        exact (mem_newcomers member).2 (same ▸ List.mem_cons_self)

/-- The object of every file is known or planned. -/
theorem newcomers_cover {known : List String} {files : List Planned} {file : Planned}
    (member : file ∈ files)
    : file.object.folded ∈ known
      ∨ ∃ other ∈ newcomers known files, other.object.folded = file.object.folded := by
  induction files generalizing known with
  | nil => exact ((List.not_mem_nil) member).elim
  | cons first rest ih =>
      rw [newcomers]
      rcases List.mem_cons.mp member with rfl | later
      · split
        · rename_i old
          exact Or.inl old
        · exact Or.inr ⟨file, List.mem_cons_self, rfl⟩
      · split
        · exact ih later
        · rcases @ih (first.object.folded :: known) later with old | ⟨other, among, same⟩
          · rcases List.mem_cons.mp old with here | before
            · exact Or.inr ⟨first, List.mem_cons_self, here.symm⟩
            · exact Or.inl before
          · exact Or.inr ⟨other, List.mem_cons_of_mem first among, same⟩

/-- What is planned can be copied. -/
theorem Acceptable.prepared {job : Job} {tree : Tree} {files : List Planned}
    (accepted : Acceptable sha256 job tree files)
    : Prepared sha256 job.data tree.disk
        (newcomers (tree.loaded.objects.map Object.folded) files) := by
  have checked : ∀ file ∈ files, ∃ entry ∈ filesOf job.selected,
      inspect sha256 tree.disk job.data entry.1 entry.2 = .ok file :=
    fun file member => mapM_comes accepted.inspected member
  have placed := inspected_placed accepted.inspected
  constructor
  case placed => exact fun file member => placed file (mem_newcomers member).1
  case safe =>
    intro file member
    obtain ⟨entry, -, found⟩ := checked file (mem_newcomers member).1
    exact (inspect_ok.mp found).2.1
  case plain =>
    intro file member
    obtain ⟨entry, -, found⟩ := checked file (mem_newcomers member).1
    obtain ⟨-, -, plain, placed, -⟩ := inspect_ok.mp found
    rwa [placed]
  case sources =>
    intro file member
    obtain ⟨entry, -, found⟩ := checked file (mem_newcomers member).1
    exact (inspect_ok.mp found).2.2.2.2.2.2
  case unobstructed =>
    intro file member
    obtain ⟨among, new⟩ := mem_newcomers member
    exact accepted.unobstructed file among new
  case distinct => exact newcomers_nodup _ files

/-- What may be found after a run: the tree as it was, or a part of what it planned. -/
theorem found_of_visible {job : Job} {tree seen : Tree}
    (visible : seen ∈ (exportProfile sha256 job tree).visible)
    : seen = tree
      ∨ ∃ files, Acceptable sha256 job tree files
        ∧ Found sha256 tree (tree.loaded.withEmpties job.selected)
            (newcomers (tree.loaded.objects.map Object.folded) files) seen := by
  cases plans : plan sha256 job tree with
  | error error =>
      rw [exportProfile_refused plans] at visible
      exact Or.inl (List.mem_singleton.mp visible)
  | ok result =>
      obtain ⟨base, planned⟩ := result
      obtain ⟨files, accepted, rfl, rfl⟩ := plan_ok.mp plans
      refine Or.inr ⟨files, accepted, ?_⟩
      refine (exportProfile_guards accepted.prepared plans).visible ?_ ?_ rfl seen visible
      · exact fun ended => ⟨_, [], (List.append_nil _).symm, ended.stage⟩
      · rintro error state ⟨done, file, rest, whole, stage, -⟩
        refine ⟨done, file :: rest, whole, stage.mono ?_⟩
        have split : done ++ file :: rest = (done ++ [file]) ++ rest := by simp
        rw [whole, split]
        exact List.subset_append_left (done ++ [file]) rest

-----------------------------------------------------------------------------------------
-- What is recorded
-----------------------------------------------------------------------------------------

/-- Pushed objects are in the index, in some order. -/
theorem pushAll_objects (base : Index) (done : List Planned)
    : (pushAll base done).objects.Perm (base.objects ++ done.map Planned.object) := by
  induction done generalizing base with
  | nil => simp [pushAll]
  | cons file rest ih =>
      refine (ih (base.push file.object)).trans ?_
      have sorted : (base.push file.object).objects.Perm (base.objects ++ [file.object]) :=
        List.perm_insertionSort _ _
      simpa using sorted.append_right (rest.map Planned.object)

/-- Pushing objects changes nothing else. -/
theorem pushAll_rest (base : Index) (done : List Planned)
    : (pushAll base done).schema = base.schema ∧ (pushAll base done).naming = base.naming
      ∧ (pushAll base done).emptyExports = base.emptyExports := by
  induction done generalizing base with
  | nil => exact ⟨rfl, rfl, rfl⟩
  | cons file rest ih => exact ih (base.push file.object)

/-- A recorded empty export was there or belongs to a manifest. -/
theorem mem_recordEmpty {manifests : List Manifest} {empties : List EmptyExport}
    {empty : EmptyExport} (member : empty ∈ manifests.foldl recordEmpty empties)
    : empty ∈ empties ∨ ∃ m ∈ manifests, empty = EmptyExport.of m := by
  induction manifests generalizing empties with
  | nil => exact Or.inl member
  | cons m rest ih =>
      rcases ih member with before | ⟨other, among, same⟩
      · rw [recordEmpty] at before
        split at before
        · rcases List.mem_append.mp before with old | new
          · exact Or.inl old
          · exact Or.inr ⟨m, List.mem_cons_self, List.mem_singleton.mp new⟩
        · exact Or.inl before
      · exact Or.inr ⟨other, List.mem_cons_of_mem m among, same⟩

/-- Names of artifacts have no slash. -/
theorem objectName_isPart {base ext role stable label : String} (plain : IsPart base)
    (letters : ext.toList.all isAsciiAlphanumeric = true)
    : IsPart (objectName sha256 base ext role stable label) := by
  have extension : '/' ∉ ext.toList := fun member =>
    absurd (List.all_eq_true.mp letters _ member) (by decide)
  rw [objectName]
  split
  · simp only [IsPart, String.toList_append]
    exact List.not_mem_append plain (by decide)
  · split
    · simp only [IsPart, String.toList_append]
      exact List.not_mem_append (List.not_mem_append plain (by decide)) extension
    · simp only [IsPart, String.toList_append, String.toList_ofList]
      refine List.not_mem_append (List.not_mem_append (List.not_mem_append
        (List.not_mem_append ?_ (by decide)) ?_) (by decide)) extension
      · exact component_isPart sha256 label
      · exact shortDigest_plain sha256 stable

/-- Encoded parts are parts. -/
theorem encodedParts_isPart (key : String) : ∀ part ∈ encodedParts sha256 key, IsPart part := by
  intro part member
  obtain ⟨original, -, rfl⟩ := List.mem_map.mp member
  exact component_isPart sha256 original

/-- There are encoded parts. -/
theorem encodedParts_ne_nil (key : String) : encodedParts sha256 key ≠ [] := by
  rw [encodedParts, ne_eq, List.map_eq_nil_iff]
  exact splitPath_ne_nil key

/-- An object lies in the directory of its asset key. -/
def Object.IsLocated (sha256 : List UInt8 → List UInt8) (object : Object) : Prop :=
  ∃ name, splitPath object.objectKey = encodedParts sha256 object.assetKey ++ [name]

/-- The parts of an object key: those of its asset key, and the name of its file. -/
theorem splitPath_object {key base ext role stable label : String}
    (last : (encodedParts sha256 key).getLast? = some base)
    (letters : ext.toList.all isAsciiAlphanumeric = true)
    : splitPath (joinPath (encodedParts sha256 key) ++ "/"
          ++ objectName sha256 base ext role stable label)
        = encodedParts sha256 key ++ [objectName sha256 base ext role stable label] := by
  have nonempty := @encodedParts_ne_nil sha256 key
  have plain := @encodedParts_isPart sha256 key
  rw [← joinPath_concat nonempty, splitPath_joinPath]
  · intro part member
    rcases List.mem_append.mp member with encoded | name
    · exact plain part encoded
    · rw [List.mem_singleton.mp name]
      exact objectName_isPart (plain base (List.mem_of_getLast? last)) letters
  · exact List.append_ne_nil_of_left_ne_nil nonempty _

/-- A described object belongs to its manifest and lies in the directory of its key. -/
theorem describe_ok {m : Manifest} {f : PublishedFile} {object : Object}
    (described : describe sha256 m f = .ok object)
    : object.assetKey = m.key ∧ object.exportId = m.id ∧ object.IsLocated sha256 := by
  simp only [describe, bind_ok, context_ok, ensure_ok, pure_ok, exists_const,
    Bool.and_eq_true] at described
  obtain ⟨ext, -, ⟨letters, -⟩, base, last, rfl⟩ := described
  exact ⟨rfl, rfl, _, splitPath_object last letters⟩

end Sha

end MoenotesAssets.ObjectTree
