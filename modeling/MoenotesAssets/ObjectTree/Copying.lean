import MoenotesAssets.ObjectTree.Acceptance
import MoenotesAssets.ObjectTree.Export

/-! What the copy loop leaves at every step: the nodes it found, directories above the
destinations it reached, complete files at those destinations, and an index of the objects
that it has copied. It fails only where a destination is blocked.
-/

namespace MoenotesAssets.ObjectTree
open Foundation Export

section Sha

variable {sha256 : List UInt8 → List UInt8}

-----------------------------------------------------------------------------------------
-- Growth of a disk
-----------------------------------------------------------------------------------------

/-- (Grown sha256 first files disk) holds when a disk has the nodes of `first`, and else
only directories above destinations of the files, and complete files at these.
-/
structure Grown (sha256 : List UInt8 → List UInt8) (first : Disk) (files : List Planned)
    (disk : Disk)
    : Prop where
  keeps : first.Keeps disk
  added
    : ∀ {path : Path} {node : Node},
        disk.node path = some node
        → first.node path = some node
          ∨ node = .directory ∧ (∃ file ∈ files, Disk.Above path file.target)
          ∨ ∃ file ∈ files, path = file.target ∧ Complete sha256 disk file.object

/-- No file and no other destination stands above the destinations of the files. -/
def Free (first : Disk) (files : List Planned) : Prop :=
  ∀ file ∈ files, ∀ {above : Path}, Disk.Above above file.target →
    (∀ {node : Node}, first.node above = some node → node = .directory)
    ∧ ∀ other ∈ files, other.target ≠ above

/-- What planning has established of the files that are copied. -/
structure Prepared (sha256 : List UInt8 → List UInt8) (data first : Disk)
    (files : List Planned)
    : Prop where
  placed : ∀ file ∈ files, file.IsPlaced
  safe : ∀ file ∈ files, isSafePath file.object.objectKey = true
  plain : ∀ file ∈ files, NoSymlink first file.target
  sources
    : ∀ file ∈ files, Intact sha256 data file.source file.object.bytes file.object.sha256
  unobstructed : ∀ file ∈ files, file.IsUnobstructed sha256 first
  distinct : (files.map fun file => file.object.folded).Nodup

variable {data first disk later : Disk} {files more : List Planned} {file other : Planned}
  {path : Path}

/-- A disk has grown from itself by nothing. -/
theorem Grown.refl (first : Disk) (files : List Planned) : Grown sha256 first files first where
  keeps := .refl first
  added := Or.inl

/-- More destinations allow more. -/
theorem Grown.mono (grown : Grown sha256 first files disk) (subset : files ⊆ more)
    : Grown sha256 first more disk where
  keeps := grown.keeps
  added := by
    intro path node held
    rcases grown.added held with old | ⟨directory, file, member, above⟩ | ⟨file, member, same⟩
    · exact Or.inl old
    · exact Or.inr (Or.inl ⟨directory, file, subset member, above⟩)
    · exact Or.inr (Or.inr ⟨file, subset member, same⟩)

/-- Growth goes on. -/
theorem Grown.trans (grown : Grown sha256 first files disk) (again : Grown sha256 disk files later)
    : Grown sha256 first files later where
  keeps := grown.keeps.trans again.keeps
  added := by
    intro path node held
    rcases again.added held with old | new
    · rcases grown.added old with older | directory | ⟨file, member, same, complete⟩
      · exact Or.inl older
      · exact Or.inr (Or.inl directory)
      · exact Or.inr (Or.inr ⟨file, member, same, complete.kept again.keeps⟩)
    · exact Or.inr new

/-- A directory above a destination. -/
theorem Grown.make_directory (grown : Grown sha256 first files disk) (member : file ∈ files)
    (above : Disk.Above path file.target)
    : Grown sha256 first files (disk.create path .directory) := by
  have keeps := disk.keeps_create path .directory
  refine ⟨grown.keeps.trans keeps, fun held => ?_⟩
  rcases Disk.create_cases held with before | ⟨rfl, rfl⟩
  · rcases grown.added before with old | directory | ⟨other, among, same, complete⟩
    · exact Or.inl old
    · exact Or.inr (Or.inl directory)
    · exact Or.inr (Or.inr ⟨other, among, same, complete.kept keeps⟩)
  · exact Or.inr (Or.inl ⟨rfl, file, member, above⟩)

/-- A complete file at its destination. -/
theorem Grown.make_file (grown : Grown sha256 first files disk) (member : file ∈ files)
    (placed : file.IsPlaced) {content : List UInt8} (size : content.length = file.object.bytes)
    (digested : digest sha256 content = file.object.sha256)
    : Grown sha256 first files (disk.create file.target (.file content)) := by
  have keeps := disk.keeps_create file.target (.file content)
  refine ⟨grown.keeps.trans keeps, fun {path node} held => ?_⟩
  rcases Disk.create_cases held with before | ⟨rfl, rfl⟩
  · rcases grown.added before with old | directory | ⟨other, among, same, complete⟩
    · exact Or.inl old
    · exact Or.inr (Or.inl directory)
    · exact Or.inr (Or.inr ⟨other, among, same, complete.kept keeps⟩)
  · refine Or.inr (Or.inr ⟨file, member, rfl, content, ?_, size, digested⟩)
    rw [← placed]
    exact held

/-- Growth adds no symlink. -/
theorem Grown.noSymlink (grown : Grown sha256 first files disk)
    (placed : ∀ file ∈ files, file.IsPlaced) (plain : NoSymlink first path)
    : NoSymlink disk path := by
  intro above higher link
  rcases grown.added link with old | ⟨directory, -⟩ | ⟨file, member, same, content, held, -⟩
  · exact plain above higher old
  · cases directory
  · rw [← placed file member, ← same, link] at held
    cases held

/-- Files at one destination are files of one object, as their keys are distinct. -/
theorem Prepared.unique (prepared : Prepared sha256 data first files) (member : file ∈ files)
    (among : other ∈ files) (same : file.target = other.target)
    : file = other := by
  rw [prepared.placed file member, prepared.placed other among] at same
  have keys := splitPath_injective same
  refine List.inj_on_of_nodup_map prepared.distinct member among ?_
  rw [Object.folded, Object.folded, keys]

/-- Above a free destination there is no node but directories. -/
theorem Grown.above (grown : Grown sha256 first files disk) (free : Free first files)
    (member : file ∈ files) (higher : Disk.Above path file.target) {node : Node}
    (held : disk.node path = some node)
    : node = .directory := by
  obtain ⟨directories, apart⟩ := free file member higher
  rcases grown.added held with old | ⟨directory, -⟩ | ⟨other, among, same, -⟩
  · exact directories old
  · exact directory
  · exact absurd same.symm (apart other among)

/-- What stands at a free destination is the complete file. -/
theorem Grown.at (grown : Grown sha256 first files disk)
    (prepared : Prepared sha256 data first files) (free : Free first files)
    (member : file ∈ files) (stands : disk.node file.target ≠ none)
    : Complete sha256 disk file.object := by
  obtain ⟨node, held⟩ := Option.ne_none_iff_exists'.mp stands
  rcases grown.added held with old | ⟨-, other, among, above⟩ | ⟨other, among, same, complete⟩
  · have before := prepared.unobstructed file member (by rw [old]; exact Option.some_ne_none node)
    exact before.kept grown.keeps
  · exact absurd rfl ((free other among above).2 file member)
  · rw [prepared.unique member among same]
    exact complete

-----------------------------------------------------------------------------------------
-- Stages of the copy loop
-----------------------------------------------------------------------------------------

/-- An index with the objects of files pushed to it. -/
def pushAll (base : Index) (done : List Planned) : Index :=
  done.foldl (fun index file => index.push file.object) base

/-- (Stage sha256 first base done reached tree) holds when a run from `first` has copied the
files `done` and has reached the destinations of `reached`. The index on disk is the first
one until an object is copied.
-/
structure Stage (sha256 : List UInt8 → List UInt8) (first : Tree) (base : Index)
    (done reached : List Planned) (tree : Tree)
    : Prop where
  grown : Grown sha256 first.disk reached tree.disk
  complete : ∀ file ∈ done, Complete sha256 tree.disk file.object
  index : tree.index = first.index ∧ done = [] ∨ tree.index = some (pushAll base done)

/-- A stage in which a directory stands at a path. -/
structure Entered (sha256 : List UInt8 → List UInt8) (first : Tree) (base : Index)
    (done reached : List Planned) (path : Path) (tree : Tree)
    : Prop where
  stage : Stage sha256 first base done reached tree
  directory : tree.disk.node path = some .directory

/-- A stage of a tree is one of a grown tree with the same index. -/
theorem Stage.grow {first tree after : Tree} {base : Index} {done reached : List Planned}
    (stage : Stage sha256 first base done reached tree)
    (grown : Grown sha256 first.disk reached after.disk) (keeps : tree.disk.Keeps after.disk)
    (same : after.index = tree.index)
    : Stage sha256 first base done reached after where
  grown := grown
  complete := fun file member => (stage.complete file member).kept keeps
  index := same ▸ stage.index

/-- Temporary files do not matter. -/
theorem Stage.same {first tree after : Tree} {base : Index} {done reached : List Planned}
    (stage : Stage sha256 first base done reached tree) (disk : after.disk = tree.disk)
    (index : after.index = tree.index)
    : Stage sha256 first base done reached after :=
  stage.grow (disk ▸ stage.grown) (disk ▸ .refl tree.disk) index

/-- More destinations allow more. -/
theorem Stage.mono {first tree : Tree} {base : Index} {done reached more : List Planned}
    (stage : Stage sha256 first base done reached tree) (subset : reached ⊆ more)
    : Stage sha256 first base done more tree :=
  { stage with grown := stage.grown.mono subset }

-----------------------------------------------------------------------------------------
-- One round of the copy loop
-----------------------------------------------------------------------------------------

section Round

variable {job : Job} {first : Tree} {base : Index} {done reached : List Planned} {file : Planned}
  {crash : Tree → Prop} {broken : String → Tree → Prop}
  (prepared : Prepared sha256 job.data first.disk reached) (member : file ∈ reached)
  (passes : ∀ {tree : Tree}, Stage sha256 first base done reached tree → crash tree)
  (blocks
    : ∀ (error : String) (tree : Tree),
        Stage sha256 first base done reached tree
        → ¬Free first.disk reached
        → broken error tree)

/-- A path in an entered directory is vacant when nothing stands there. -/
theorem Entered.vacant {tree : Tree} {above : Path} {name : String}
    (entered : Entered sha256 first base done reached above tree)
    (absent : tree.disk.node (above ++ [name]) = none)
    : tree.disk.Vacant (above ++ [name]) :=
  ⟨absent, by rw [List.dropLast_concat, entered.directory]⟩

include member passes blocks in
/-- A directory above the destination is made, unless the destination is blocked. -/
theorem makeDirectory_guards {above : Path} {name : String}
    (higher : Disk.Above (above ++ [name]) file.target)
    : Program.Guards (Entered sha256 first base done reached above)
        (makeDirectory (above ++ [name]))
        (fun _ => Entered sha256 first base done reached (above ++ [name])) broken crash := by
  refine Program.Guards.look.bind fun found => ?_
  have blocked : ∀ {node : Node} {tree : Tree} {error : String}, node ≠ .directory →
      Entered sha256 first base done reached above tree
        ∧ tree.disk.node (above ++ [name]) = some node →
      broken error tree := by
    rintro node tree error other ⟨entered, held⟩
    refine blocks error tree entered.stage fun free => other ?_
    exact entered.stage.grown.above free member higher held
  cases found with
  | some node =>
      cases node with
      | directory => exact .pure fun ⟨entered, held⟩ => ⟨entered.stage, held⟩
      | file content => exact .fail (blocked Node.noConfusion)
      | symlink => exact .fail (blocked Node.noConfusion)
  | none =>
      have made : ∀ {tree : Tree},
          Entered sha256 first base done reached above tree
            ∧ tree.disk.node (above ++ [name]) = none →
          Entered sha256 first base done reached (above ++ [name])
            (tree.create (above ++ [name]) .directory) := by
        rintro tree ⟨entered, absent⟩
        refine ⟨entered.stage.grow (entered.stage.grown.make_directory member higher) ?_ rfl, ?_⟩
        · exact tree.disk.keeps_create _ _
        · exact Disk.create_self (entered.vacant absent)
      have checked : ∀ {tree : Tree},
          Entered sha256 first base done reached above tree
            ∧ tree.disk.node (above ++ [name]) = none →
          decide (tree.disk.Vacant (above ++ [name])) = true :=
        fun ⟨entered, absent⟩ => decide_eq_true (entered.vacant absent)
      exact (Program.Guards.passing checked).bind fun _ =>
        .change (fun start => passes (made start).stage) made

include member passes blocks in
/-- The directories of the destination are made, by induction on their names. -/
theorem createDirAll_guards {above names : Path}
    (higher : Disk.Above (above ++ names) file.target)
    : Program.Guards (Entered sha256 first base done reached above) (createDirAll above names)
        (fun _ => Entered sha256 first base done reached (above ++ names)) broken crash := by
  induction names generalizing above with
  | nil => exact .pure fun start => by simpa using start
  | cons name rest ih =>
      rw [List.append_cons] at higher ⊢
      have next : Disk.Above (above ++ [name]) file.target := by
        refine ⟨(List.prefix_append _ rest).trans higher.1, fun same => ?_⟩
        have shorter := higher.1.length_le
        rw [← same, List.length_append] at shorter
        have none : rest = [] := List.eq_nil_of_length_eq_zero (by omega)
        exact higher.2 (by rw [none, List.append_nil, same])
      exact (makeDirectory_guards member passes blocks next).bind fun _ => ih higher

/-- A stage in which something stands at the destination of a file. -/
structure Standing (sha256 : List UInt8 → List UInt8) (first : Tree) (base : Index)
    (done reached : List Planned) (file : Planned) (tree : Tree)
    : Prop where
  stage : Stage sha256 first base done reached tree
  stands : tree.disk.node file.target ≠ none

/-- A stage in which the destination of a file can be created. -/
structure Open (sha256 : List UInt8 → List UInt8) (first : Tree) (base : Index)
    (done reached : List Planned) (file : Planned) (tree : Tree)
    : Prop where
  stage : Stage sha256 first base done reached tree
  vacant : tree.disk.Vacant file.target

/-- What the source of a file holds. -/
structure IsContent (sha256 : List UInt8 → List UInt8) (data : Disk) (file : Planned)
    (content : List UInt8)
    : Prop where
  read : readSource data file.source = .ok content
  size : content.length = file.object.bytes
  digested : digest sha256 content = file.object.sha256

include prepared member in
/-- A prepared source can be read. -/
theorem content_of_prepared : ∃ content, IsContent sha256 job.data file content := by
  obtain ⟨content, held, size, digested⟩ := prepared.sources file member
  exact ⟨content, by rw [readSource, held], size, digested⟩

include prepared member in
/-- The content of a source at the destination of its file. -/
theorem Open.create {tree : Tree} {content : List UInt8}
    (place : Open sha256 first base done reached file tree)
    (source : IsContent sha256 job.data file content)
    : Standing sha256 first base done reached file
        (tree.create file.target (.file content)) where
  stage := by
    refine place.stage.grow ?_ (tree.disk.keeps_create _ _) rfl
    exact place.stage.grown.make_file member (prepared.placed file member) source.size
      source.digested
  stands := by
    have created : (tree.create file.target (.file content)).disk.node file.target = _ :=
      Disk.create_self place.vacant
    rw [created]
    exact Option.some_ne_none _

include prepared member passes in
/-- A link is made at the destination. -/
theorem hardLink_guards
    : Program.Guards (Open sha256 first base done reached file) (hardLink job.data file)
        (fun _ => Standing sha256 first base done reached file) broken crash := by
  obtain ⟨content, source⟩ := content_of_prepared prepared member
  refine .bind_known (fun place => ⟨source.read, place⟩) ?_
  refine (Program.Guards.passing fun place => decide_eq_true place.vacant).bind fun _ => ?_
  have linked : ∀ {tree : Tree}, Open sha256 first base done reached file tree →
      Standing sha256 first base done reached file (tree.create file.target (.file content)) :=
    fun place => place.create prepared member source
  exact .change (fun place => passes (linked place).stage) fun place => linked place

/-- A copy under way: the temporary file holds the content but for the rest. -/
structure Writing (sha256 : List UInt8 → List UInt8) (first : Tree) (base : Index)
    (done reached : List Planned) (file : Planned) (content rest : List UInt8) (tree : Tree)
    : Prop where
  place : Open sha256 first base done reached file tree
  written : ∃ before others, tree.temporaries = before :: others ∧ before ++ rest = content

omit passes blocks in
/-- Temporary files do not matter to an open destination. -/
theorem Open.same {tree after : Tree} (place : Open sha256 first base done reached file tree)
    (disk : after.disk = tree.disk) (index : after.index = tree.index)
    : Open sha256 first base done reached file after :=
  ⟨place.stage.same disk index, disk ▸ place.vacant⟩

include passes in
/-- The bytes of the source are written one after the other. -/
theorem write_guards (content rest : List UInt8)
    : Program.Guards (Writing sha256 first base done reached file content rest)
        (rest.foldlM (fun _ byte => Program.change fun tree => tree.writeTemporary byte) ())
        (fun _ => Writing sha256 first base done reached file content []) broken crash := by
  refine Program.Guards.foldlM
    (P := fun rest _ => Writing sha256 first base done reached file content rest) ?_ rest ()
  intro _ byte rest
  have step : ∀ {tree : Tree},
      Writing sha256 first base done reached file content (byte :: rest) tree →
      Writing sha256 first base done reached file content rest (tree.writeTemporary byte) := by
    rintro tree ⟨place, before, others, temporaries, whole⟩
    rw [Tree.writeTemporary, temporaries]
    exact ⟨place.same rfl rfl, before ++ [byte], others, rfl, by simpa using whole⟩
  exact .change (fun start => passes (step start).place.stage) step

include prepared member passes in
/-- A copy is placed at the destination. -/
theorem copyFile_guards
    : Program.Guards (Open sha256 first base done reached file) (copyFile sha256 job.data file)
        (fun _ => Standing sha256 first base done reached file) broken crash := by
  obtain ⟨content, source⟩ := content_of_prepared prepared member
  refine (Program.Guards.passing fun place => decide_eq_true place.vacant.2).bind fun _ => ?_
  have opened : ∀ {tree : Tree}, Open sha256 first base done reached file tree →
      Writing sha256 first base done reached file content content tree.openTemporary :=
    fun place => ⟨place.same rfl rfl, [], _, rfl, rfl⟩
  have opening : Program.Guards (Open sha256 first base done reached file)
      (Program.change Tree.openTemporary)
      (fun _ => Writing sha256 first base done reached file content content) broken crash :=
    .change (fun place => passes (opened place).place.stage) fun place => opened place
  refine opening.bind fun _ => ?_
  refine .bind_known (fun writing => ⟨source.read, writing⟩) ?_
  refine (write_guards passes content content).bind fun _ => ?_
  have verified : ∀ {tree : Tree},
      Writing sha256 first base done reached file content [] tree →
      verifyTemporary sha256 tree file.object.bytes file.object.sha256 = .ok ()
        ∧ Writing sha256 first base done reached file content [] tree := by
    rintro tree ⟨place, before, others, temporaries, whole⟩
    refine ⟨?_, place, before, others, temporaries, whole⟩
    rw [List.append_nil] at whole
    simp only [verifyTemporary, temporaries, whole, source.size, source.digested, bind_ok,
      ensure_ok, decide_true, exists_const, and_self]
  refine .bind_known (fun writing => verified writing) ?_
  refine (Program.Guards.passing fun writing =>
    decide_eq_true writing.place.vacant).bind fun _ => ?_
  have persisted : ∀ {tree : Tree},
      Writing sha256 first base done reached file content [] tree →
      Standing sha256 first base done reached file (tree.persistTemporary file.target) := by
    rintro tree ⟨place, before, others, temporaries, whole⟩
    rw [List.append_nil] at whole
    obtain ⟨stage, stands⟩ := place.create prepared member source
    rw [Tree.persistTemporary, temporaries, whole]
    exact ⟨stage.same rfl rfl, stands⟩
  exact .change (fun writing => passes (persisted writing).stage)
    fun writing => persisted writing

include prepared member in
/-- At a free destination the file is complete. -/
theorem Standing.complete {tree : Tree}
    (standing : Standing sha256 first base done reached file tree)
    (free : Free first.disk reached)
    : Complete sha256 tree.disk file.object :=
  standing.stage.grown.at prepared free member standing.stands

include prepared member passes in
/-- Something stands at the destination once the file is placed. -/
theorem placeFile_guards
    : Program.Guards (Entered sha256 first base done reached file.target.dropLast)
        (placeFile sha256 job file) (fun _ => Standing sha256 first base done reached file)
        broken crash := by
  refine Program.Guards.look.bind fun found => ?_
  cases found with
  | true =>
      refine .pure fun ⟨entered, stands⟩ => ⟨entered.stage, ?_⟩
      exact Option.isSome_iff_ne_none.mp stands
  | false =>
      have place : ∀ {tree : Tree},
          Entered sha256 first base done reached file.target.dropLast tree
            ∧ (tree.disk.node file.target).isSome = false →
          Open sha256 first base done reached file tree := by
        rintro tree ⟨entered, absent⟩
        exact ⟨entered.stage, by simpa using absent, entered.directory⟩
      by_cases linked : job.hardlink = true
      · rw [if_neg Bool.false_ne_true, if_pos linked]
        exact (hardLink_guards prepared member passes).imp (fun start => place start)
          fun standing => standing
      · rw [if_neg Bool.false_ne_true, if_neg linked]
        exact (copyFile_guards prepared member passes).imp (fun start => place start)
          fun standing => standing

include prepared member in
/-- The directories of a destination are above it. -/
theorem parent_above : Disk.Above ([] ++ file.target.dropLast) file.target := by
  refine ⟨List.dropLast_prefix _, fun same => ?_⟩
  have lengths := congrArg List.length same
  have positive : 0 < file.target.length := by
    rw [prepared.placed file member]
    exact List.length_pos_iff.mpr (splitPath_ne_nil _)
  rw [List.nil_append, List.length_dropLast] at lengths
  omega

include prepared member passes blocks in
/-- One round copies the object of its file and records it. -/
theorem copyObject_guards
    (recorded
      : ∀ {tree : Tree}, Stage sha256 first base (done ++ [file]) reached tree → crash tree)
    : Program.Guards (Stage sha256 first base done reached)
        (copyObject sha256 job (pushAll base done) file)
        (fun index tree =>
          index = pushAll base (done ++ [file])
          ∧ Stage sha256 first base (done ++ [file]) reached tree)
        broken crash := by
  have placed := prepared.placed file member
  have entering : Program.Guards (Stage sha256 first base done reached)
      (createDirAll [] file.target.dropLast)
      (fun _ => Entered sha256 first base done reached file.target.dropLast) broken crash :=
    (createDirAll_guards member passes blocks (parent_above prepared member)).imp
      (fun {tree} stage => ⟨stage, tree.disk.root⟩) fun entered => entered
  have safe : ∀ {tree : Tree},
      Entered sha256 first base done reached file.target.dropLast tree →
      safeDestination tree.disk file.object.objectKey = .ok (splitPath file.object.objectKey)
        ∧ Entered sha256 first base done reached file.target.dropLast tree := by
    intro tree entered
    refine ⟨safeDestination_ok.mpr ⟨prepared.safe file member, ?_, rfl⟩, entered⟩
    exact entered.stage.grown.noSymlink prepared.placed (placed ▸ prepared.plain file member)
  have verifying : Program.Guards (Standing sha256 first base done reached file)
      (Program.observe fun tree =>
        verify sha256 tree.disk file.target file.object.bytes file.object.sha256)
      (fun _ tree =>
        Stage sha256 first base done reached tree ∧ Complete sha256 tree.disk file.object)
      broken crash := by
    refine .observe (fun standing same => ⟨standing.stage, ?_⟩) ?_
    · rw [Complete, ← placed]
      exact verify_ok.mp same
    · intro tree error standing failed
      refine blocks error tree standing.stage fun free => ?_
      have complete := standing.complete prepared member free
      rw [Complete, ← placed] at complete
      have accepted : verify sha256 tree.disk file.target file.object.bytes file.object.sha256
          = .ok () := verify_ok.mpr complete
      cases failed.symm.trans accepted
  have pushed : pushAll base (done ++ [file]) = (pushAll base done).push file.object :=
    List.foldl_append
  have indexed : ∀ {tree : Tree},
      Stage sha256 first base done reached tree ∧ Complete sha256 tree.disk file.object →
      Stage sha256 first base (done ++ [file]) reached
        (tree.writeIndex ((pushAll base done).push file.object)) := by
    rintro tree ⟨stage, complete⟩
    refine ⟨stage.grown, ?_, Or.inr (by rw [pushed]; rfl)⟩
    intro other among
    rcases List.mem_append.mp among with before | here
    · exact stage.complete other before
    · exact List.mem_singleton.mp here ▸ complete
  refine entering.bind fun _ => .bind_known (fun entered => safe entered) ?_
  refine (placeFile_guards prepared member passes).bind fun _ => verifying.bind fun _ => ?_
  have writing : Program.Guards
      (fun tree =>
        Stage sha256 first base done reached tree ∧ Complete sha256 tree.disk file.object)
      (Program.change fun tree => tree.writeIndex ((pushAll base done).push file.object))
      (fun _ => Stage sha256 first base (done ++ [file]) reached) broken crash :=
    .change (fun start => recorded (indexed start)) fun start => indexed start
  exact writing.bind fun _ => .pure fun stage => ⟨pushed.symm, stage⟩

end Round

-----------------------------------------------------------------------------------------
-- Whole runs
-----------------------------------------------------------------------------------------

/-- What may be found of a run from `first`: some of its files are copied. -/
def Found (sha256 : List UInt8 → List UInt8) (first : Tree) (base : Index)
    (planned : List Planned) (tree : Tree)
    : Prop :=
  ∃ done rest, planned = done ++ rest ∧ Stage sha256 first base done planned tree

/-- A run that has stopped in front of a blocked destination. -/
def Stopped (sha256 : List UInt8 → List UInt8) (first : Tree) (base : Index)
    (planned : List Planned) (tree : Tree)
    : Prop :=
  ∃ done file rest,
    planned = done ++ file :: rest
    ∧ Stage sha256 first base done (done ++ [file]) tree
    ∧ ¬Free first.disk (done ++ [file])

/-- A run that has ended with an index. -/
structure Ended (sha256 : List UInt8 → List UInt8) (first : Tree) (base : Index)
    (planned : List Planned) (index : Index) (tree : Tree)
    : Prop where
  result : index = pushAll base planned
  written : tree.index = some index
  stage : Stage sha256 first base planned planned tree

/-- What holds of all files of a plan holds of its first ones. -/
theorem Prepared.initial {data first : Disk} {done rest : List Planned}
    (prepared : Prepared sha256 data first (done ++ rest))
    : Prepared sha256 data first done where
  placed := fun file member => prepared.placed file (List.mem_append_left rest member)
  safe := fun file member => prepared.safe file (List.mem_append_left rest member)
  plain := fun file member => prepared.plain file (List.mem_append_left rest member)
  sources := fun file member => prepared.sources file (List.mem_append_left rest member)
  unobstructed := fun file member =>
    prepared.unobstructed file (List.mem_append_left rest member)
  distinct := prepared.distinct.sublist ((List.sublist_append_left done rest).map _)

variable {job : Job} {first : Tree} {base : Index} {planned : List Planned}

/-- The files are copied in their order, by the rule of folds. -/
theorem copyObjects_guards (prepared : Prepared sha256 job.data first.disk planned)
    : Program.Guards (Stage sha256 first base [] [])
        (planned.foldlM (copyObject sha256 job) base)
        (fun index tree =>
          index = pushAll base planned ∧ Stage sha256 first base planned planned tree)
        (fun (_ : String) => Stopped sha256 first base planned)
        (Found sha256 first base planned) := by
  let Along (rest : List Planned) (index : Index) (tree : Tree) : Prop :=
    ∃ done : { done // planned = done ++ rest ∧ index = pushAll base done },
      Stage sha256 first base done.1 done.1 tree
  have loop : Program.Guards (Along planned base) (planned.foldlM (copyObject sha256 job) base)
      (Along []) (fun (_ : String) => Stopped sha256 first base planned)
      (Found sha256 first base planned) := by
    apply Program.Guards.foldlM
    intro index file rest
    refine Program.Guards.exists fun ⟨done, whole, given⟩ => ?_
    subst given
    have split : planned = (done ++ [file]) ++ rest := by rw [whole, List.append_assoc]; rfl
    have reached : Prepared sha256 job.data first.disk (done ++ [file]) := by
      rw [split] at prepared
      exact prepared.initial
    have within : done ++ [file] ⊆ planned := split ▸ List.subset_append_left _ rest
    have round : Program.Guards (Stage sha256 first base done (done ++ [file]))
        (copyObject sha256 job (pushAll base done) file)
        (fun index tree =>
          index = pushAll base (done ++ [file])
          ∧ Stage sha256 first base (done ++ [file]) (done ++ [file]) tree)
        (fun (_ : String) => Stopped sha256 first base planned) (Found sha256 first base planned) :=
      copyObject_guards reached
      (List.mem_append_right done List.mem_cons_self)
      (fun stage => ⟨done, file :: rest, whole, stage.mono within⟩)
      (fun _ _ stage blocked => ⟨done, file, rest, whole, stage, blocked⟩)
      (fun stage => ⟨done ++ [file], rest, split, stage.mono within⟩)
    refine round.imp (fun stage => stage.mono (List.subset_append_left done [file])) ?_
    rintro index tree ⟨given, stage⟩
    exact ⟨⟨done ++ [file], split, given⟩, stage⟩
  refine loop.imp (fun stage => ⟨⟨[], rfl, rfl⟩, stage⟩) ?_
  rintro index tree ⟨⟨done, whole, given⟩, stage⟩
  rw [List.append_nil] at whole
  subst whole
  exact ⟨given, stage⟩

/-- A run whose planning succeeds copies what was planned, and stops in front of a blocked
destination only.
-/
theorem exportProfile_guards (prepared : Prepared sha256 job.data first.disk planned)
    (plans : plan sha256 job first = .ok (base, planned))
    : Program.Guards (fun tree => tree = first) (exportProfile sha256 job)
        (Ended sha256 first base planned) (fun (_ : String) => Stopped sha256 first base planned)
        (Found sha256 first base planned) := by
  have start : ∀ {tree : Tree}, tree = first →
      plan sha256 job tree = .ok (base, planned) ∧ Stage sha256 first base [] [] tree := by
    rintro tree rfl
    exact ⟨plans, .refl _ _, fun _ member => (List.not_mem_nil member).elim, Or.inl ⟨rfl, rfl⟩⟩
  refine .bind_known (fun same => start same) ((copyObjects_guards prepared).bind fun index => ?_)
  have found : ∀ {tree : Tree}, Ended sha256 first base planned index tree →
      Found sha256 first base planned tree :=
    fun ended => ⟨planned, [], (List.append_nil planned).symm, ended.stage⟩
  have ending : ∀ {tree : Tree},
      index = pushAll base planned ∧ Stage sha256 first base planned planned tree →
      Ended sha256 first base planned index (tree.writeIndex index) := by
    rintro tree ⟨rfl, stage⟩
    exact ⟨rfl, rfl, stage.grown, stage.complete, Or.inr rfl⟩
  have published : ∀ {tree : Tree}, Ended sha256 first base planned index tree →
      Ended sha256 first base planned index (tree.writeUploadPlan index) :=
    fun ended => ⟨ended.result, ended.written, ended.stage.same rfl rfl⟩
  have writing : Program.Guards
      (fun tree => index = pushAll base planned ∧ Stage sha256 first base planned planned tree)
      (Program.change fun tree => tree.writeIndex index)
      (fun _ => Ended sha256 first base planned index)
      (fun (_ : String) => Stopped sha256 first base planned) (Found sha256 first base planned) :=
    .change (fun start => found (ending start)) fun start => ending start
  have publishing : Program.Guards (Ended sha256 first base planned index)
      (Program.change fun tree => tree.writeUploadPlan index)
      (fun _ => Ended sha256 first base planned index)
      (fun (_ : String) => Stopped sha256 first base planned) (Found sha256 first base planned) :=
    .change (fun ended => found (published ended)) fun ended => published ended
  exact writing.bind fun _ => publishing.bind fun _ => .pure fun ended => ended

/-- A run whose planning fails leaves the tree as it is. -/
theorem exportProfile_refused {error : String} (refused : plan sha256 job first = .error error)
    : exportProfile sha256 job first = ⟨[], first, .error error⟩ :=
  Program.bind_failed refused

end Sha

end MoenotesAssets.ObjectTree
