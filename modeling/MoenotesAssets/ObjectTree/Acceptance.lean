import MoenotesAssets.ObjectTree.Preflight

/-! The loop over the manifests, and the whole planning: it succeeds when its checks hold,
and it plans the first file of each object that the index does not have.
-/

namespace MoenotesAssets.ObjectTree
open Foundation Export

section Sha

variable {sha256 : List UInt8 → List UInt8} {disk data : Disk}

-----------------------------------------------------------------------------------------
-- The loop over the manifests
-----------------------------------------------------------------------------------------

/-- The files of manifests, each with its manifest. -/
def filesOf (manifests : List Manifest) : List (Manifest × PublishedFile) :=
  manifests.flatMap fun m => m.files.map fun f => (m, f)

/-- The first part of a key is not `_meta` in any case. -/
def IsUnreserved (sha256 : List UInt8 → List UInt8) (key : String) : Prop :=
  (encodedParts sha256 key).head?.any (fun part => toAsciiLowercase part ≠ "_meta") = true

/-- The loop over the manifests checks exports and names, records empty exports, and passes
their files to the ledger, by induction on the manifests.
-/
theorem planManifests_ok {manifests : List Manifest} {planning after : Planning}
    : manifests.foldlM (planManifest sha256 disk data) planning = .ok after
      ↔ manifests.foldlM
            (fun logical m =>
              Table.insertAgreeing logical m.key m.id
                "multiple exports for one key; choose snapshot and a fresh tree for migration")
            planning.logical
          = .ok after.logical
        ∧ (∀ m ∈ manifests, IsUnreserved sha256 m.key)
        ∧ manifests.foldl recordEmpty planning.emptyExports = after.emptyExports
        ∧ (filesOf manifests).foldlM
            (fun ledger entry =>
              inspect sha256 disk data entry.1 entry.2 >>= ledger.enlist sha256 disk)
            planning.ledger
          = .ok after.ledger := by
  induction manifests generalizing planning with
  | nil =>
      simp only [List.foldlM_nil, pure_ok, List.foldl_nil, filesOf, List.flatMap_nil]
      constructor
      · rintro rfl
        exact ⟨rfl, fun _ member => (List.not_mem_nil member).elim, rfl, rfl⟩
      · rintro ⟨logical, -, emptyExports, ledger⟩
        cases planning
        cases after
        simp_all
  | cons m rest ih =>
      have files : filesOf (m :: rest) = (m.files.map fun f => (m, f)) ++ filesOf rest :=
        List.flatMap_cons
      rw [files, List.foldlM_append, List.foldlM_map]
      simp only [List.foldlM_cons, List.foldl_cons, List.forall_mem_cons, planManifest, bind_ok,
        pure_ok, ensure_ok, ih, exists_const]
      constructor
      · rintro ⟨_, ⟨logical, agrees, unreserved, ledger, listed, rfl⟩, exports, names, empties,
          others⟩
        exact ⟨⟨logical, agrees, exports⟩, ⟨unreserved, names⟩, empties, ledger, listed, others⟩
      · rintro ⟨⟨logical, agrees, exports⟩, ⟨unreserved, names⟩, empties, ledger, listed, others⟩
        exact ⟨_, ⟨logical, agrees, unreserved, ledger, listed, rfl⟩, exports, names, empties,
          others⟩

-----------------------------------------------------------------------------------------
-- The ledger
-----------------------------------------------------------------------------------------

/-- The first file of each object that is not known. -/
def newcomers (known : List String) : List Planned → List Planned
  | [] => []
  | file :: rest =>
      if file.object.folded ∈ known then newcomers known rest
      else file :: newcomers (file.object.folded :: known) rest

/-- Files under their folded keys. -/
def entriesOf (files : List Planned) : List (String × Object) :=
  files.map fun file => (file.object.folded, file.object)

/-- A file stands at the destination that its object names. -/
def Planned.IsPlaced (file : Planned) : Prop := file.target = splitPath file.object.objectKey

/-- What stands at the destination of a file is the file. -/
def Planned.IsUnobstructed (sha256 : List UInt8 → List UInt8) (disk : Disk) (file : Planned)
    : Prop :=
  disk.node file.target ≠ none → Complete sha256 disk file.object

/-- Files of one object have one destination. -/
theorem Planned.IsUnobstructed.same {file other : Planned} (placed : file.IsPlaced)
    (placed' : other.IsPlaced) (same : file.object = other.object)
    (free : file.IsUnobstructed sha256 disk)
    : other.IsUnobstructed sha256 disk := by
  rw [IsUnobstructed, placed, same, ← placed'] at free
  exact free

/-- A file of a known object is enlisted when the objects are the same. -/
theorem enlist_known {ledger after : Ledger} {file : Planned} {old : Object}
    (known : ledger.existing[file.object.folded]? = some old)
    : ledger.enlist sha256 disk file = .ok after ↔ old = file.object ∧ ledger = after := by
  simp only [Ledger.enlist, known, bind_ok, ensure_ok, pure_ok, exists_const, decide_eq_true_eq]

/-- A file of a new object is enlisted when nothing else stands at its destination. -/
theorem enlist_new {ledger after : Ledger} {file : Planned} (placed : file.IsPlaced)
    (new : ledger.existing[file.object.folded]? = none)
    : ledger.enlist sha256 disk file = .ok after
      ↔ file.IsUnobstructed sha256 disk
        ∧ Ledger.mk (ledger.existing.insert file.object.folded file.object)
            (ledger.planned ++ [file])
          = after := by
  rw [Planned.IsUnobstructed, Complete, ← placed]
  cases stands : disk.node file.target with
  | none => simp [Ledger.enlist, new, stands]
  | some node =>
      simp only [Ledger.enlist, new, stands, Option.isSome_some, if_true, bind_ok, verify_ok,
        pure_ok, exists_const, ne_eq, reduceCtorEq, not_false_eq_true, true_imp_iff]

/-- Files are enlisted when they agree with each other and with the known objects, and when
nothing else stands at the destination of a new one, by induction on the files.
-/
theorem enlist_all_ok {files : List Planned} {ledger : Ledger} {known : List String}
    {planned : List Planned} (placed : ∀ file ∈ files, file.IsPlaced)
    (knows : ∀ {key : String}, key ∈ ledger.existing ↔ key ∈ known)
    : (∃ existing, files.foldlM (Ledger.enlist sha256 disk) ledger = .ok ⟨existing, planned⟩)
      ↔ Table.Agreeing (entriesOf files)
        ∧ (∀ entry ∈ entriesOf files, ∀ {old : Object},
            ledger.existing[entry.1]? = some old → old = entry.2)
        ∧ (∀ file ∈ files, file.object.folded ∉ known → file.IsUnobstructed sha256 disk)
        ∧ planned = ledger.planned ++ newcomers known files := by
  induction files generalizing ledger known with
  | nil =>
      simp only [List.foldlM_nil, pure_ok, newcomers, List.append_nil, entriesOf, List.map_nil]
      constructor
      · rintro ⟨existing, rfl⟩
        refine ⟨?_, ?_, ?_, rfl⟩ <;> intro _ member <;> cases member
      · rintro ⟨-, -, -, rfl⟩
        exact ⟨ledger.existing, rfl⟩
  | cons file rest ih =>
      obtain ⟨here, later⟩ := List.forall_mem_cons.mp placed
      have entries : entriesOf (file :: rest)
          = (file.object.folded, file.object) :: entriesOf rest := rfl
      have among : ∀ {other : Planned}, other ∈ rest →
          (other.object.folded, other.object) ∈ entriesOf rest :=
        fun member => List.mem_map_of_mem member
      rw [entries, List.forall_mem_cons, List.forall_mem_cons, Table.agreeing_cons]
      simp only [List.foldlM_cons, bind_ok]
      cases found : ledger.existing[file.object.folded]? with
      | some old =>
          have isKnown : file.object.folded ∈ known := by
            rw [← knows, ← Std.TreeMap.isSome_getElem?_iff_mem, found]
            rfl
          have rule := ih later knows
          simp only [enlist_known found, newcomers, if_pos isKnown]
          constructor
          · rintro ⟨existing, _, ⟨rfl, rfl⟩, listed⟩
            obtain ⟨agreeing, agrees, free, whole⟩ := rule.mp ⟨existing, listed⟩
            refine ⟨⟨fun entry member same => ?_, agreeing⟩, ⟨?_, agrees⟩, ⟨?_, free⟩, whole⟩
            · exact agrees entry member (same ▸ found)
            · exact fun same => (Option.some.inj same).symm
            · exact fun unknown => absurd isKnown unknown
          · rintro ⟨⟨-, agreeing⟩, ⟨same, agrees⟩, ⟨-, free⟩, whole⟩
            obtain ⟨existing, listed⟩ := rule.mpr ⟨agreeing, agrees, free, whole⟩
            exact ⟨existing, ledger, ⟨same rfl, rfl⟩, listed⟩
      | none =>
          have isNew : file.object.folded ∉ known := by
            rw [← knows, ← Std.TreeMap.isSome_getElem?_iff_mem, found]
            exact Bool.false_ne_true
          have knows' : ∀ {key : String},
              key ∈ ledger.existing.insert file.object.folded file.object
                ↔ key ∈ file.object.folded :: known := by
            intro key
            rw [Std.TreeMap.mem_insert, Std.LawfulEqOrd.compare_eq_iff_eq, List.mem_cons, knows,
              eq_comm]
          have rule :=
            @ih ⟨ledger.existing.insert file.object.folded file.object,
              ledger.planned ++ [file]⟩ _ later knows'
          simp only [enlist_new here found, newcomers, if_neg isNew]
          constructor
          · rintro ⟨existing, _, ⟨free, rfl⟩, listed⟩
            obtain ⟨agreeing, agrees, others, whole⟩ := rule.mp ⟨existing, listed⟩
            have same : ∀ entry ∈ entriesOf rest,
                file.object.folded = entry.1 → file.object = entry.2 := by
              intro entry member same
              exact agrees entry member (same ▸ Table.insert_self _ _ _)
            refine ⟨⟨same, agreeing⟩, ⟨?_, ?_⟩, ⟨fun _ => free, ?_⟩, ?_⟩
            · intro old held
              cases held
            · intro entry member old held
              by_cases first : entry.1 = file.object.folded
              · cases found.symm.trans (first ▸ held)
              · exact agrees entry member ((Table.insert_other _ _ first).trans held)
            · intro other member unknown
              by_cases first : other.object.folded = file.object.folded
              · have object := same _ (among member) first.symm
                exact free.same here (later other member) object
              · exact others other member (List.not_mem_cons_of_ne_of_not_mem first unknown)
            · rw [whole, List.append_assoc, List.singleton_append]
          · rintro ⟨⟨same, agreeing⟩, ⟨-, agrees⟩, ⟨free, others⟩, whole⟩
            have listed := rule.mpr ⟨agreeing, ?_, ?_, ?_⟩
            · obtain ⟨existing, listed⟩ := listed
              exact ⟨existing, _, ⟨free isNew, rfl⟩, listed⟩
            · intro entry member old held
              rcases Table.insert_cases held with ⟨first, rfl⟩ | ⟨-, before⟩
              · exact same entry member first.symm
              · exact agrees entry member before
            · intro other member unknown
              exact others other member fun known => unknown (List.mem_cons_of_mem _ known)
            · rw [whole, List.append_assoc, List.singleton_append]

-----------------------------------------------------------------------------------------
-- The whole planning
-----------------------------------------------------------------------------------------

/-- A file of a manifest is inspected when it has a safe name, without a symlink on its way,
and when its source is intact.
-/
theorem inspect_ok {m : Manifest} {f : PublishedFile} {file : Planned}
    : inspect sha256 disk data m f = .ok file
      ↔ describe sha256 m f = .ok file.object
        ∧ isSafePath file.object.objectKey = true
        ∧ NoSymlink disk (splitPath file.object.objectKey)
        ∧ file.IsPlaced
        ∧ (isExportId m.id && fileName f.artifact.name = some f.artifact.name) = true
        ∧ safeDestination data ("exports/" ++ m.id ++ "/" ++ f.artifact.name) = .ok file.source
        ∧ Intact sha256 data file.source file.object.bytes file.object.sha256 := by
  simp only [inspect, bind_ok, ensure_ok, pure_ok, verify_ok, safeDestination_ok, exists_const,
    Planned.IsPlaced]
  constructor
  · rintro ⟨object, described, target, ⟨safe, plain, rfl⟩, named, source, found, intact, rfl⟩
    exact ⟨described, safe, plain, rfl, named, found, intact⟩
  · rintro ⟨described, safe, plain, placed, named, found, intact⟩
    exact ⟨_, described, _, ⟨safe, plain, rfl⟩, named, _, found, intact, placed ▸ rfl⟩

/-- The index that a run starts from. -/
def Tree.loaded (tree : Tree) : Index := tree.index.getD .new

/-- The asset keys that a run gives directories to. -/
def keysOf (job : Job) (index : Index) : List String :=
  job.selected.map Manifest.key ++ index.objects.map Object.assetKey

/-- (Acceptable sha256 job tree files) holds when the checks of the planning pass, and the
selected manifests have these files.
-/
structure Acceptable (sha256 : List UInt8 → List UInt8) (job : Job) (tree : Tree)
    (files : List Planned)
    : Prop where
  schema
    : tree.loaded.schema = Index.new.schema ∧ tree.loaded.naming = Index.new.naming
  distinct : (tree.loaded.objects.map Object.folded).Nodup
  intact
    : ∀ old ∈ tree.loaded.objects,
        isSafePath old.objectKey = true
        ∧ NoSymlink tree.disk (splitPath old.objectKey)
        ∧ Complete sha256 tree.disk old
  keyed : ∀ empty ∈ tree.loaded.emptyExports, empty.entry.isSome
  directories
    : Table.Agreeing ((keysOf job tree.loaded).flatMap (directoriesOf sha256))
  versions : Table.Agreeing (job.selected.map fun m => (m.key, m.id))
  exports
    : ∀ m ∈ job.selected, ∀ {id : String},
        (Table.insertAll ∅ tree.loaded.recorded)[m.key]? = some id → id = m.id
  unreserved : ∀ m ∈ job.selected, IsUnreserved sha256 m.key
  inspected
    : (filesOf job.selected).mapM
        (fun entry => inspect sha256 tree.disk job.data entry.1 entry.2)
      = .ok files
  agreeing : Table.Agreeing (entriesOf files)
  known
    : ∀ file ∈ files, ∀ old ∈ tree.loaded.objects,
        old.folded = file.object.folded → old = file.object
  unobstructed
    : ∀ file ∈ files,
        file.object.folded ∉ tree.loaded.objects.map Object.folded
        → file.IsUnobstructed sha256 tree.disk

/-- The index of a run after its planning. -/
def Index.withEmpties (index : Index) (manifests : List Manifest) : Index :=
  { index with emptyExports := manifests.foldl recordEmpty index.emptyExports }

/-- The objects of an index are found under their folded keys when those are distinct. -/
theorem existingOf_held {objects : List Object} (distinct : (objects.map Object.folded).Nodup)
    {key : String} {old : Object}
    : (existingOf objects)[key]? = some old ↔ old ∈ objects ∧ old.folded = key := by
  have listed : ∀ {found : Object}, (existingOf objects)[key]? = some found →
      found ∈ objects ∧ found.folded = key := by
    intro found held
    rcases Table.insertAll_cases held with member | before
    · obtain ⟨object, among, same⟩ := List.mem_map.mp member
      cases same
      exact ⟨among, rfl⟩
    · simp at before
  refine ⟨listed, ?_⟩
  rintro ⟨member, rfl⟩
  have agreeing : Table.Agreeing (objects.map fun object => (object.folded, object)) := by
    intro left first right second same
    obtain ⟨object, among, rfl⟩ := List.mem_map.mp first
    obtain ⟨other, inside, rfl⟩ := List.mem_map.mp second
    exact List.inj_on_of_nodup_map distinct among inside same
  exact Table.insertAll_agreeing agreeing
    (List.mem_map_of_mem (f := fun object => (object.folded, object)) member)

/-- The keys of `existing` are the folded keys of the objects. -/
theorem mem_existingOf {objects : List Object} {key : String}
    : key ∈ existingOf objects ↔ key ∈ objects.map Object.folded := by
  rw [existingOf, Table.mem_insertAll_iff, List.map_map, or_iff_left Std.TreeMap.not_mem_emptyc]
  rfl

/-- `existing` is as large as the index when the folded keys are distinct. -/
theorem existingOf_size {objects : List Object}
    : (existingOf objects).size = objects.length ↔ (objects.map Object.folded).Nodup := by
  have sizes := @Table.size_insertAll String Object _ _ _ ∅
    (objects.map fun object => (object.folded, object))
  rw [List.length_map, List.map_map, Std.TreeMap.size_emptyc, Nat.zero_add] at sizes
  refine sizes.trans (and_iff_left fun entry _ => ?_)
  exact Std.TreeMap.not_mem_emptyc

/-- The files that were inspected stand where their objects say. -/
theorem inspected_placed {manifests : List (Manifest × PublishedFile)} {files : List Planned}
    (inspected
      : manifests.mapM (fun entry => inspect sha256 disk data entry.1 entry.2) = .ok files)
    : ∀ file ∈ files, file.IsPlaced := by
  intro file member
  obtain ⟨entry, -, found⟩ := mapM_comes inspected member
  exact (inspect_ok.mp found).2.2.2.1

/-- One export for each key, also among those that the index has. -/
theorem versions_ok {manifests : List Manifest} {logical : Std.TreeMap String String}
    : (∃ after, manifests.foldlM
          (fun logical m =>
            Table.insertAgreeing logical m.key m.id
              "multiple exports for one key; choose snapshot and a fresh tree for migration")
          logical
        = .ok after)
      ↔ Table.Agreeing (manifests.map fun m => (m.key, m.id))
        ∧ ∀ m ∈ manifests, ∀ {id : String}, logical[m.key]? = some id → id = m.id := by
  have rule := fun after =>
    @Table.foldlM_insertAgreeing_ok String String _ _ _ _ String logical after
      (manifests.map fun m => (m.key, m.id))
      "multiple exports for one key; choose snapshot and a fresh tree for migration"
  simp only [List.foldlM_map, List.forall_mem_map] at rule
  simp only [rule]
  exact ⟨fun ⟨_, agreeing, exports, _⟩ => ⟨agreeing, exports⟩,
    fun ⟨agreeing, exports⟩ => ⟨_, agreeing, exports, rfl⟩⟩

/-- Planning succeeds when its checks pass, and plans the files of new objects. -/
theorem plan_ok {job : Job} {tree : Tree} {index : Index} {planned : List Planned}
    : plan sha256 job tree = .ok (index, planned)
      ↔ ∃ files, Acceptable sha256 job tree files
        ∧ index = tree.loaded.withEmpties job.selected
        ∧ planned = newcomers (tree.loaded.objects.map Object.folded) files := by
  simp only [plan, bind_ok, ensure_ok, pure_ok, exists_const, planManifests_ok, logicalOf_ok,
    foldlM_bind_ok, decide_eq_true_eq, existingOf_size, Bool.and_eq_true]
  constructor
  · rintro ⟨schema, distinct, logical, ⟨intact, keyed, rfl⟩, directories, claimed, planning,
      ⟨exports, unreserved, empties, files, inspected, listed⟩, same⟩
    obtain ⟨rfl, rfl⟩ := Prod.mk.inj same
    have placed := inspected_placed inspected
    obtain ⟨agreeing, known, free, whole⟩ :=
      (enlist_all_ok placed mem_existingOf).mp ⟨planning.ledger.existing, listed⟩
    obtain ⟨agree, exported⟩ := versions_ok.mp ⟨_, exports⟩
    refine ⟨files, ?_, ?_, whole⟩
    · exact {
        schema, distinct, intact, keyed
        directories := claimDirectories_ok.mp ⟨directories, claimed⟩
        versions := agree
        exports := exported
        unreserved, inspected, agreeing
        known := fun file member old among same =>
          known _ (List.mem_map_of_mem member) ((existingOf_held distinct).mpr ⟨among, same⟩)
        unobstructed := free
      }
    · rw [Index.withEmpties, ← empties]
      rfl
  · rintro ⟨files, accepted, rfl, rfl⟩
    have placed := inspected_placed accepted.inspected
    have known : ∀ entry ∈ entriesOf files, ∀ {old : Object},
        (existingOf tree.loaded.objects)[entry.1]? = some old → old = entry.2 := by
      intro entry member old held
      obtain ⟨file, among, rfl⟩ := List.mem_map.mp member
      obtain ⟨inside, same⟩ := (existingOf_held accepted.distinct).mp held
      exact accepted.known file among old inside same
    obtain ⟨existing, listed⟩ :=
      (@enlist_all_ok sha256 tree.disk files ⟨existingOf tree.loaded.objects, []⟩ _ _ placed
        mem_existingOf).mpr ⟨accepted.agreeing, known, accepted.unobstructed, rfl⟩
    obtain ⟨logical, exported⟩ := versions_ok.mpr ⟨accepted.versions, accepted.exports⟩
    obtain ⟨directories, claimed⟩ := claimDirectories_ok.mpr accepted.directories
    exact ⟨accepted.schema, accepted.distinct, _, ⟨accepted.intact, accepted.keyed, rfl⟩,
      directories, claimed, ⟨logical, _, ⟨existing, _⟩⟩,
      ⟨exported, accepted.unreserved, rfl, files, accepted.inspected, listed⟩, rfl⟩

end Sha

end MoenotesAssets.ObjectTree
