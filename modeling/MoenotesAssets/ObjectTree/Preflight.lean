import MoenotesAssets.ObjectTree.Model

/-! What the planning of an export accepts, and what it then plans: the checks of the code
as conditions on the manifests, the data directory and the tree.
-/

namespace MoenotesAssets.ObjectTree
open Foundation Export

-----------------------------------------------------------------------------------------
-- Files and destinations
-----------------------------------------------------------------------------------------

section Sha

variable {sha256 : List UInt8 → List UInt8} {disk data : Disk}

/-- A file with the given length and digest stands at a path. -/
def Intact (sha256 : List UInt8 → List UInt8) (disk : Disk) (path : Path) (bytes : Nat)
    (sha : String)
    : Prop :=
  ∃ content,
    disk.node path = some (.file content) ∧ content.length = bytes ∧ digest sha256 content = sha

/-- The file of an object is complete. -/
def Complete (sha256 : List UInt8 → List UInt8) (disk : Disk) (object : Object) : Prop :=
  Intact sha256 disk (splitPath object.objectKey) object.bytes object.sha256

/-- `verify` accepts intact files. -/
theorem verify_ok {path : Path} {bytes : Nat} {sha : String} {done : Unit}
    : verify sha256 disk path bytes sha = .ok done ↔ Intact sha256 disk path bytes sha := by
  rw [verify, Intact]
  split
  case h_1 content held =>
    simp only [bind_ok, ensure_ok, decide_eq_true_eq, held, Option.some.injEq, Node.file.injEq,
      exists_and_left, exists_eq_left', exists_const]
  case h_2 other =>
    refine iff_of_false (fun failed => by cases failed) ?_
    rintro ⟨content, held, -⟩
    exact other content held

/-- An intact file stays so while nodes are kept. -/
theorem Intact.kept {later : Disk} {path : Path} {bytes : Nat} {sha : String}
    (intact : Intact sha256 disk path bytes sha) (keeps : disk.Keeps later)
    : Intact sha256 later path bytes sha := by
  obtain ⟨content, held, same⟩ := intact
  exact ⟨content, keeps _ _ held, same⟩

/-- No symlink stands on a path. -/
def NoSymlink (disk : Disk) (path : Path) : Prop :=
  ∀ above, above <+: path → disk.node above ≠ some .symlink

/-- `safe_destination` accepts safe names without a symlink. -/
theorem safeDestination_ok {relative : String} {path : Path}
    : safeDestination disk relative = .ok path
      ↔ isSafePath relative = true ∧ NoSymlink disk (splitPath relative)
        ∧ splitPath relative = path := by
  simp only [safeDestination, bind_ok, ensure_ok, pure_ok, exists_const, List.all_eq_true,
    List.mem_inits, decide_eq_true_eq, NoSymlink]

/-- Above a file there is no symlink. -/
theorem Intact.noSymlink {path : Path} {bytes : Nat} {sha : String}
    (intact : Intact sha256 disk path bytes sha)
    : NoSymlink disk path := by
  obtain ⟨content, held, -⟩ := intact
  intro above higher link
  by_cases same : above = path
  · rw [same, held] at link
    cases link
  · have directory := Disk.node_above (by rw [held]; exact Option.some_ne_none _) ⟨higher, same⟩
    cases link.symm.trans directory

-----------------------------------------------------------------------------------------
-- What an index records
-----------------------------------------------------------------------------------------

/-- The asset key and the export of an empty export. -/
def EmptyExport.entry (empty : EmptyExport) : Option (String × String) :=
  match empty.assetKey, empty.exportId with
  | some key, some id => some (key, id)
  | _, _ => none

/-- The exports that an index has for asset keys. -/
def Index.recorded (index : Index) : List (String × String) :=
  index.objects.map (fun object => (object.assetKey, object.exportId))
    ++ index.emptyExports.filterMap EmptyExport.entry

/-- The objects of an index are read as its exports when their files are intact. -/
theorem objects_logical_ok {objects : List Object} {table after : Std.TreeMap String String}
    : objects.foldlM (fun logical old => do
          let path ← safeDestination disk old.objectKey
          verify sha256 disk path old.bytes old.sha256
          return logical.insert old.assetKey old.exportId) table
        = (.ok after : Except String _)
      ↔ (∀ old ∈ objects,
          isSafePath old.objectKey = true ∧ NoSymlink disk (splitPath old.objectKey)
            ∧ Complete sha256 disk old)
        ∧ Table.insertAll table (objects.map fun object => (object.assetKey, object.exportId))
          = after := by
  induction objects generalizing table with
  | nil => simp [Table.insertAll]
  | cons old rest ih =>
      simp only [List.foldlM_cons, bind_ok, pure_ok, ih, safeDestination_ok, verify_ok,
        List.forall_mem_cons]
      constructor
      · rintro ⟨_, ⟨path, ⟨safe, plain, rfl⟩, done, intact, rfl⟩, others, rfl⟩
        exact ⟨⟨⟨safe, plain, intact⟩, others⟩, rfl⟩
      · rintro ⟨⟨⟨safe, plain, intact⟩, others⟩, rfl⟩
        exact ⟨_, ⟨_, ⟨safe, plain, rfl⟩, (), intact, rfl⟩, others, rfl⟩

/-- Empty exports are read as exports when they have an asset key and an id. -/
theorem empties_logical_ok {empties : List EmptyExport} {table after : Std.TreeMap String String}
    : empties.foldlM (fun logical empty => do
          let key ← context empty.assetKey "empty export key"
          let id ← context empty.exportId "empty export ID"
          return logical.insert key id) table
        = (.ok after : Except String _)
      ↔ (∀ empty ∈ empties, empty.entry.isSome)
        ∧ Table.insertAll table (empties.filterMap EmptyExport.entry) = after := by
  induction empties generalizing table with
  | nil => simp [Table.insertAll]
  | cons empty rest ih =>
      simp only [List.foldlM_cons, bind_ok, pure_ok, ih, context_ok, List.forall_mem_cons]
      constructor
      · rintro ⟨_, ⟨key, hasKey, id, hasId, rfl⟩, others, rfl⟩
        have entry : empty.entry = some (key, id) := by rw [EmptyExport.entry, hasKey, hasId]
        rw [entry, List.filterMap_cons_some entry]
        exact ⟨⟨rfl, others⟩, rfl⟩
      · rintro ⟨⟨present, others⟩, rfl⟩
        cases hasKey : empty.assetKey with
        | none => simp [EmptyExport.entry, hasKey] at present
        | some key =>
            cases hasId : empty.exportId with
            | none => simp [EmptyExport.entry, hasKey, hasId] at present
            | some id =>
                have entry : empty.entry = some (key, id) := by
                  rw [EmptyExport.entry, hasKey, hasId]
                rw [List.filterMap_cons_some entry]
                exact ⟨_, ⟨key, rfl, id, rfl, rfl⟩, others, rfl⟩

/-- What `logical` starts with. -/
theorem logicalOf_ok {index : Index} {logical : Std.TreeMap String String}
    : logicalOf sha256 disk index = .ok logical
      ↔ (∀ old ∈ index.objects,
          isSafePath old.objectKey = true ∧ NoSymlink disk (splitPath old.objectKey)
            ∧ Complete sha256 disk old)
        ∧ (∀ empty ∈ index.emptyExports, empty.entry.isSome)
        ∧ Table.insertAll ∅ index.recorded = logical := by
  rw [logicalOf, bind_ok]
  simp only [objects_logical_ok, empties_logical_ok, Index.recorded]
  have joined : ∀ (table : Std.TreeMap String String) (first second : List (String × String)),
      Table.insertAll table (first ++ second)
        = Table.insertAll (Table.insertAll table first) second :=
    fun table first second => List.foldl_append
  rw [joined]
  constructor
  · rintro ⟨_, ⟨objects, rfl⟩, empties, rfl⟩
    exact ⟨objects, empties, rfl⟩
  · rintro ⟨objects, empties, rfl⟩
    exact ⟨_, ⟨objects, rfl⟩, empties, rfl⟩

-----------------------------------------------------------------------------------------
-- Directories
-----------------------------------------------------------------------------------------

variable (sha256) in
/-- The encoded and the original path of each directory below `above`. -/
def directoriesFrom (above : List String) : List String → List (String × String)
  | [] => []
  | part :: rest =>
      (toAsciiLowercase (joinPath ((above ++ [part]).map (component sha256))),
          joinPath (above ++ [part]))
        :: directoriesFrom (above ++ [part]) rest

variable (sha256) in
/-- The directories of a key. -/
def directoriesOf (key : String) : List (String × String) :=
  directoriesFrom sha256 [] (splitPath key)

/-- Encoded paths are not empty. -/
theorem joinPath_component_ne {parts : List String} (nonempty : parts ≠ [])
    : joinPath (parts.map (component sha256)) ≠ "" := by
  obtain ⟨first, last, rfl⟩ := (List.eq_nil_or_concat parts).resolve_left nonempty
  rw [List.concat_eq_append, List.map_append, List.map_singleton]
  by_cases alone : first = []
  · rw [alone, List.map_nil, List.nil_append, joinPath_singleton]
    exact component_ne_empty sha256 last
  · rw [joinPath_concat (by simpa using alone)]
    intro empty
    exact component_ne_empty sha256 last (String.append_eq_empty_iff.mp empty).2

/-- A step of the walk inserts the directory that it reaches. -/
theorem walk_next (above : List String) (part : String)
    (directories : Std.TreeMap String String)
    : Walk.next sha256 ⟨joinPath (above.map (component sha256)), joinPath above, directories⟩ part
      = Table.insertAgreeing directories
            (toAsciiLowercase (joinPath ((above ++ [part]).map (component sha256))))
            (joinPath (above ++ [part])) "asset key directory case/encoding collision"
          >>= fun reached =>
            pure {
              encoded := joinPath ((above ++ [part]).map (component sha256))
              original := joinPath (above ++ [part])
              directories := reached
            } := by
  by_cases first : above = []
  · subst first
    have empty : joinPath [] = "" := rfl
    simp only [Walk.next, List.map_nil, List.nil_append, List.map_singleton, joinPath_singleton,
      empty, if_true, String.empty_append]
  · have encoded := joinPath_concat
      (show above.map (component sha256) ≠ [] by simpa using first) (component sha256 part)
    rw [← List.map_singleton, ← List.map_append] at encoded
    rw [Walk.next]
    simp only [if_neg (joinPath_component_ne first)]
    rw [encoded, joinPath_concat first]

/-- The walk along parts inserts their directories, by induction on the parts. -/
theorem walk_directories (above parts : List String) (directories : Std.TreeMap String String)
    : (do
          let walk ←
            parts.foldlM (Walk.next sha256)
              ⟨joinPath (above.map (component sha256)), joinPath above, directories⟩
          return walk.directories)
      = (directoriesFrom sha256 above parts).foldlM
          (fun table entry =>
            Table.insertAgreeing table entry.1 entry.2
              "asset key directory case/encoding collision")
          directories := by
  induction parts generalizing above directories with
  | nil => rfl
  | cons part rest ih =>
      rw [directoriesFrom, List.foldlM_cons, List.foldlM_cons, walk_next]
      simp only [bind_assoc, pure_bind]
      congr 1
      funext reached
      exact ih (above ++ [part]) reached

/-- The directories of a key are inserted in order. -/
theorem claimDirectories_eq (directories : Std.TreeMap String String) (key : String)
    : claimDirectories sha256 directories key
      = (directoriesOf sha256 key).foldlM
          (fun table entry =>
            Table.insertAgreeing table entry.1 entry.2
              "asset key directory case/encoding collision")
          directories := by
  have walked := @walk_directories sha256 [] (splitPath key) directories
  rw [List.map_nil, joinPath_nil] at walked
  rw [claimDirectories, walked, directoriesOf]

/-- The directories of all keys are claimed when no two paths share an encoding. -/
theorem claimDirectories_ok {keys : List String}
    : (∃ directories, keys.foldlM (claimDirectories sha256) ∅ = .ok directories)
      ↔ Table.Agreeing (keys.flatMap (directoriesOf sha256)) := by
  have flat : ∀ (table : Std.TreeMap String String),
      keys.foldlM (claimDirectories sha256) table
        = (keys.flatMap (directoriesOf sha256)).foldlM
            (fun table entry =>
              Table.insertAgreeing table entry.1 entry.2
                "asset key directory case/encoding collision")
            table := by
    induction keys with
    | nil => exact fun table => rfl
    | cons key rest ih =>
        intro table
        rw [List.foldlM_cons, List.flatMap_cons, List.foldlM_append, claimDirectories_eq]
        congr 1
        funext reached
        exact ih reached
  rw [flat]
  simp only [Table.foldlM_insertAgreeing_ok]
  constructor
  · rintro ⟨directories, agreeing, -⟩
    exact agreeing
  · intro agreeing
    refine ⟨_, agreeing, fun entry _ old held => ?_, rfl⟩
    simp at held

/-- The directory of a whole key is among its directories, by induction on its parts. -/
theorem mem_directoriesFrom {above parts : List String} (nonempty : parts ≠ [])
    : (toAsciiLowercase (joinPath ((above ++ parts).map (component sha256))),
          joinPath (above ++ parts))
        ∈ directoriesFrom sha256 above parts := by
  induction parts generalizing above with
  | nil => exact absurd rfl nonempty
  | cons part rest ih =>
      rw [List.append_cons above part rest, directoriesFrom]
      by_cases last : rest = []
      · rw [last, List.append_nil]
        exact List.mem_cons_self
      · exact List.mem_cons_of_mem _ (ih last)

/-- A key is claimed with the encoding of all its parts. -/
theorem mem_directoriesOf (key : String)
    : (toAsciiLowercase (joinPath (encodedParts sha256 key)), key) ∈ directoriesOf sha256 key := by
  have member := @mem_directoriesFrom sha256 [] (splitPath key) (splitPath_ne_nil key)
  rwa [List.nil_append, joinPath_splitPath] at member

end Sha

end MoenotesAssets.ObjectTree
