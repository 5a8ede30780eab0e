import MoenotesAssets.ObjectTree.Export
import MoenotesAssets.ObjectTree.Twins
import MoenotesAssets.Worker.Waveforms

/-! The artifacts of a sound bank in a tree: they have stable ids of their own just when no two
waveforms are referred to by the same cues, and keys of their own just when no two such waveforms
have labels that are encoded alike.
-/

namespace MoenotesAssets.ObjectTree
open Foundation Export Worker

-----------------------------------------------------------------------------------------
-- Collisions
-----------------------------------------------------------------------------------------

/-- The error of an object whose key another object has. -/
def collision : String := "tree path/case/content collision; explicit migration required"

section Sha

variable {sha256 : List UInt8 → List UInt8} {disk data : Disk} {m : Manifest}

/-- Verifying a file is no collision. -/
theorem verify_avoids (path : Path) (bytes : Nat) (sha : String)
    : Avoids collision (verify sha256 disk path bytes sha) := by
  rw [verify]
  split
  · exact .bind (.ensure _ (by decide)) fun _ => .ensure _ (by decide)
  · intro failed
    exact absurd (Except.error.inj failed) (by decide)

/-- A destination is no collision. -/
theorem safeDestination_avoids (relative : String)
    : Avoids collision (safeDestination disk relative) :=
  .bind (.ensure _ (by decide)) fun _ => .bind (.ensure _ (by decide)) fun _ => .value _

/-- Describing a file is no collision. -/
theorem describe_avoids (f : PublishedFile) : Avoids collision (describe sha256 m f) :=
  .bind (.context _ (by decide)) fun _ => .bind (.ensure _ (by decide)) fun _ =>
    .bind (.context _ (by decide)) fun _ => .value _

/-- Inspecting a file is no collision. -/
theorem inspect_avoids (f : PublishedFile) : Avoids collision (inspect sha256 disk data m f) :=
  .bind (describe_avoids f) fun _ => .bind (safeDestination_avoids _) fun _ =>
    .bind (.ensure _ (by decide)) fun _ => .bind (safeDestination_avoids _) fun _ =>
      .bind (verify_avoids _ _ _) fun _ => .value _

/-- An inspected file has its description. -/
theorem inspect_object {f : PublishedFile} {file : Planned}
    (inspected : inspect sha256 disk data m f = .ok file)
    : describe sha256 m f = .ok file.object := by
  simp only [inspect, bind_ok, ensure_ok, pure_ok, exists_const] at inspected
  obtain ⟨object, described, -, -, -, -, -, -, -, rfl⟩ := inspected
  exact described

/-- A file of a new object is no collision, and makes no other object known. -/
theorem enlist_avoids {ledger : Ledger} {file : Planned}
    (new : ledger.existing[file.object.folded]? = none)
    : Avoids collision (ledger.enlist sha256 disk file)
      ∧ ∀ {after : Ledger}, ledger.enlist sha256 disk file = .ok after
          → after.existing = ledger.existing.insert file.object.folded file.object := by
  simp only [Ledger.enlist, new]
  split
  case isTrue =>
    refine ⟨.bind (verify_avoids _ _ _) fun _ => .value _, fun {after} done => ?_⟩
    obtain ⟨-, -, done⟩ := bind_ok.mp done
    obtain rfl := pure_ok.mp done
    rfl
  case isFalse =>
    refine ⟨.value _, fun {after} done => ?_⟩
    obtain rfl := pure_ok.mp done
    rfl

/-- Files of one manifest have different keys. -/
def Apart (sha256 : List UInt8 → List UInt8) (m : Manifest) (f g : PublishedFile) : Prop :=
  ∀ object other,
    describe sha256 m f = .ok object
    → describe sha256 m g = .ok other
    → object.folded ≠ other.folded

/-- No object of a file is known. -/
def Ledger.Lacks (ledger : Ledger) (sha256 : List UInt8 → List UInt8) (m : Manifest)
    (files : List PublishedFile) : Prop :=
  ∀ f ∈ files, ∀ object,
    describe sha256 m f = .ok object → ledger.existing[object.folded]? = none

/-- Files with different keys do not collide, by induction on them. -/
theorem planFiles_avoids {files : List PublishedFile} {ledger : Ledger}
    (apart : files.Pairwise (Apart sha256 m)) (unknown : ledger.Lacks sha256 m files)
    : Avoids collision
        (files.foldlM
          (fun ledger f => do
            let file ← inspect sha256 disk data m f
            ledger.enlist sha256 disk file)
          ledger) := by
  induction files generalizing ledger with
  | nil => exact .value ledger
  | cons f rest ih =>
      obtain ⟨others, apart⟩ := List.pairwise_cons.mp apart
      rw [List.foldlM_cons]
      refine .bind (.bind (inspect_avoids f) fun {file} inspected => ?_) fun {after} done => ?_
      · exact (enlist_avoids (unknown f List.mem_cons_self _ (inspect_object inspected))).1
      · obtain ⟨file, inspected, enlisted⟩ := bind_ok.mp done
        have described := inspect_object inspected
        have known := (enlist_avoids (unknown f List.mem_cons_self _ described)).2 enlisted
        refine ih apart fun g member object described' => ?_
        have different := others g member file.object object described described'
        rw [known, Table.insert_other _ _ different.symm]
        exact unknown g (List.mem_cons_of_mem _ member) object described'

/-- A manifest whose files have different keys, none of them known, does not collide. -/
theorem planManifest_avoids {planning : Planning} (apart : m.files.Pairwise (Apart sha256 m))
    (unknown : planning.ledger.Lacks sha256 m m.files)
    : Avoids collision (planManifest sha256 disk data planning m) := by
  have agrees : Avoids collision (Table.insertAgreeing planning.logical m.key m.id
      "multiple exports for one key; choose snapshot and a fresh tree for migration") := by
    rw [Table.insertAgreeing]
    split
    · split
      · exact .value _
      · intro failed
        exact absurd (Except.error.inj failed) (by decide)
    · exact .value _
  exact .bind agrees fun _ => .bind (.ensure _ (by decide)) fun _ =>
    .bind (planFiles_avoids apart unknown) fun _ => .value _

-----------------------------------------------------------------------------------------
-- Keys of artifacts
-----------------------------------------------------------------------------------------

/-- What stands before and behind the last tilde of a text. -/
theorem tilde_inj {front front' tail tail' : List Char} (plain : '~' ∉ tail) (plain' : '~' ∉ tail')
    : front ++ '~' :: tail = front' ++ '~' :: tail' ↔ front = front' ∧ tail = tail' := by
  have last : ∀ front tail : List Char, '~' ∉ tail
      → (front ++ '~' :: tail).reverse.takeWhile (· ≠ '~') = tail.reverse := by
    intro front tail plain
    rw [List.reverse_append, List.reverse_cons, List.append_assoc, List.takeWhile_append_of_pos,
      List.singleton_append, List.takeWhile_cons_of_neg (by decide), List.append_nil]
    intro letter member
    rw [decide_eq_true_eq]
    rintro rfl
    exact plain (List.mem_reverse.mp member)
  constructor
  · intro same
    have tails := congrArg (fun letters => letters.reverse.takeWhile (· ≠ '~')) same
    rw [last front tail plain, last front' tail' plain'] at tails
    obtain rfl := List.reverse_injective tails
    exact ⟨List.append_cancel_right same, rfl⟩
  · rintro ⟨rfl, rfl⟩
    rfl

/-- The digits of a short digest are no tildes and have no other case. -/
theorem shortDigest_lower (text : String)
    : '~' ∉ shortDigest sha256 text
      ∧ (shortDigest sha256 text).map Char.toLower = shortDigest sha256 text := by
  have each : ∀ value < 16,
      Bytes.hexDigit value ≠ '~' ∧ (Bytes.hexDigit value).toLower = Bytes.hexDigit value := by
    decide
  have digits := shortDigest_letters sha256 text
  constructor
  · intro member
    obtain ⟨value, small, same⟩ := digits _ member
    exact (each value small).1 same.symm
  · refine (List.map_congr_left fun letter member => ?_).trans (List.map_id _)
    obtain ⟨value, small, rfl⟩ := digits letter member
    exact (each value small).2

/-- The end of the key of a waveform. -/
def ending (sha256 : List UInt8 → List UInt8) (stable : String) : List Char :=
  shortDigest sha256 stable ++ ".m4a".toList

/-- Keys in one directory are equal just when their names and their short digests are. -/
theorem ending_eq_iff {directory name name' : List Char} {stable stable' : String}
    : directory ++ name ++ '~' :: ending sha256 stable
        = directory ++ name' ++ '~' :: ending sha256 stable'
      ↔ name = name' ∧ shortDigest sha256 stable = shortDigest sha256 stable' := by
  have plain : ∀ text, '~' ∉ ending sha256 text :=
    fun text => List.not_mem_append (shortDigest_lower text).1 (by decide)
  rw [tilde_inj (plain stable) (plain stable'), List.append_right_inj, ending, ending,
    List.append_left_inj]

/-- The key of a waveform has its label and its short digest. -/
theorem describe_key {f : PublishedFile} {entry : Wave × Nat} {object : Object}
    (file : Wave.Describes sha256 entry f.artifact) (described : describe sha256 m f = .ok object)
    : object.objectKey.toList
        = (joinPath (encodedParts sha256 m.key) ++ "/").toList
          ++ (component sha256 (entry.1.label entry.2)).toList
          ++ '~' :: ending sha256 (entry.1.stableId sha256) := by
  obtain ⟨index, named⟩ := file.name
  have extended : extension f.artifact.name = some "m4a" :=
    named ▸ extension_outputName index ⟨by decide, by decide, by decide⟩
  have name : ∀ base, objectName sha256 base "m4a" "asset" (entry.1.stableId sha256)
        (entry.1.label entry.2)
      = component sha256 (entry.1.label entry.2) ++ "~"
        ++ String.ofList (shortDigest sha256 (entry.1.stableId sha256)) ++ "." ++ "m4a" :=
    fun _ => rfl
  simp only [describe, bind_ok, context_ok, ensure_ok, pure_ok, exists_const, extended,
    Option.some.injEq, exists_eq_left', file.stableId, file.role, file.label, Option.getD_some,
    Option.getD_none, name] at described
  obtain ⟨-, last, -, rfl⟩ := described
  simp only [String.toList_append, String.toList_ofList, List.append_assoc]
  rfl

/-- The folded key of a waveform. -/
theorem describe_folded {f : PublishedFile} {entry : Wave × Nat} {object : Object}
    (file : Wave.Describes sha256 entry f.artifact) (described : describe sha256 m f = .ok object)
    : object.folded.toList
        = (joinPath (encodedParts sha256 m.key) ++ "/").toList.map Char.toLower
          ++ (toAsciiLowercase (component sha256 (entry.1.label entry.2))).toList
          ++ '~' :: ending sha256 (entry.1.stableId sha256) := by
  have lower := (@shortDigest_lower sha256 (entry.1.stableId sha256)).2
  have mark : '~'.toLower = '~' := by decide
  have extension : ".m4a".toList.map Char.toLower = ".m4a".toList := by decide
  rw [Object.folded, toAsciiLowercase, String.toList_ofList, describe_key file described,
    List.map_append, List.map_append, List.map_cons, mark, ending, List.map_append, lower,
    extension, toAsciiLowercase, String.toList_ofList, String.toList_ofList]

section Pairs

variable {f g : PublishedFile} {entry entry' : Wave × Nat} {object other : Object}

/-- Keys of waveforms in one directory are equal just when their labels are encoded alike and
their short digests are equal.
-/
theorem objectKey_eq_iff (file : Wave.Describes sha256 entry f.artifact)
    (file' : Wave.Describes sha256 entry' g.artifact) (described : describe sha256 m f = .ok object)
    (described' : describe sha256 m g = .ok other)
    : object.objectKey = other.objectKey
      ↔ component sha256 (entry.1.label entry.2) = component sha256 (entry'.1.label entry'.2)
        ∧ shortDigest sha256 (entry.1.stableId sha256)
          = shortDigest sha256 (entry'.1.stableId sha256) := by
  rw [← String.toList_inj, describe_key file described, describe_key file' described',
    ending_eq_iff, String.toList_inj]

/-- The same of folded keys, with labels that are encoded alike but for the case. -/
theorem folded_eq_iff (file : Wave.Describes sha256 entry f.artifact)
    (file' : Wave.Describes sha256 entry' g.artifact) (described : describe sha256 m f = .ok object)
    (described' : describe sha256 m g = .ok other)
    : object.folded = other.folded
      ↔ toAsciiLowercase (component sha256 (entry.1.label entry.2))
          = toAsciiLowercase (component sha256 (entry'.1.label entry'.2))
        ∧ shortDigest sha256 (entry.1.stableId sha256)
          = shortDigest sha256 (entry'.1.stableId sha256) := by
  rw [← String.toList_inj, describe_folded file described, describe_folded file' described',
    ending_eq_iff, String.toList_inj]

end Pairs

-----------------------------------------------------------------------------------------
-- Exports that only a collision can refuse
-----------------------------------------------------------------------------------------

/-- An export that nothing but a collision of its own files can refuse: its key is admitted, its
sources are intact, no object of it is known, and nothing stands at its destinations.
-/
structure Admitted (sha256 : List UInt8 → List UInt8) (disk data : Disk) (planning : Planning)
    (m : Manifest) (files : List Planned) : Prop where
  exports : ∀ {id : String}, planning.logical[m.key]? = some id → id = m.id
  unreserved : IsUnreserved sha256 m.key
  inspected : m.files.mapM (inspect sha256 disk data m) = .ok files
  unknown : ∀ file ∈ files, file.object.folded ∉ planning.ledger.existing
  vacant : ∀ file ∈ files, disk.node file.target = none
  distinct : (files.map fun file => file.object.artifactId).Nodup

/-- Files at vacant destinations are refused for a collision only, by induction on them. -/
theorem enlist_refuses {files : List Planned} {ledger : Ledger} {error : String}
    (vacant : ∀ file ∈ files, disk.node file.target = none)
    (refused : files.foldlM (Ledger.enlist sha256 disk) ledger = .error error)
    : error = collision := by
  induction files generalizing ledger with
  | nil => cases refused
  | cons file rest ih =>
      obtain ⟨free, others⟩ := List.forall_mem_cons.mp vacant
      rw [List.foldlM_cons] at refused
      rcases bind_error.mp refused with here | ⟨after, -, later⟩
      · simp only [Ledger.enlist, free, Option.isSome_none] at here
        split at here
        case h_1 =>
          rcases bind_error.mp here with failed | ⟨_, -, failed⟩
          · exact (ensure_error.mp failed).2.symm
          · cases failed
        case h_2 => cases here
      · exact ih others later

/-- An admitted export is refused for a collision just when two of its files have one folded key. -/
theorem Admitted.collides_iff {planning : Planning} {files : List Planned}
    (admitted : Admitted sha256 disk data planning m files)
    : planManifest sha256 disk data planning m = .error collision
      ↔ ¬ (files.map fun file => file.object.folded).Nodup := by
  obtain ⟨exports, unreserved, inspected, unknown, vacant, distinct⟩ := admitted
  have agrees : Table.insertAgreeing planning.logical m.key m.id
      "multiple exports for one key; choose snapshot and a fresh tree for migration"
        = .ok (planning.logical.insert m.key m.id) :=
    Table.insertAgreeing_ok.mpr ⟨exports, rfl⟩
  have passes : ensure ((encodedParts sha256 m.key).head?.any fun part =>
      toAsciiLowercase part ≠ "_meta") "reserved _meta asset key" = .ok () :=
    ensure_ok.mpr unreserved
  have whole : planManifest sha256 disk data planning m = .error collision
      ↔ files.foldlM (Ledger.enlist sha256 disk) planning.ledger = .error collision := by
    simp only [planManifest, agrees, passes, foldlM_of_mapM inspected, bind_error,
      Except.ok.injEq, exists_eq_left', reduceCtorEq, false_or, and_false, exists_false, or_false,
      pure_error, true_and, exists_const]
  have enlisted : (∃ after, files.foldlM (Ledger.enlist sha256 disk) planning.ledger = .ok after)
      ↔ Table.Agreeing (entriesOf files) := by
    have rule := fun listed => @enlist_all_ok sha256 disk files planning.ledger
      planning.ledger.existing.keys listed
      (fun file member => by
        obtain ⟨f, -, found⟩ := mapM_comes inspected member
        exact (inspect_ok.mp found).2.2.2.1)
      Std.TreeMap.mem_keys.symm
    constructor
    · rintro ⟨⟨existing, listed⟩, done⟩
      exact ((rule listed).mp ⟨existing, done⟩).1
    · intro agreeing
      have known : ∀ entry ∈ entriesOf files, ∀ {old : Object},
          planning.ledger.existing[entry.1]? = some old → old = entry.2 := by
        intro entry member old held
        obtain ⟨file, among, rfl⟩ := List.mem_map.mp member
        refine absurd ?_ (unknown file among)
        rw [← Std.TreeMap.isSome_getElem?_iff_mem, held]
        rfl
      obtain ⟨existing, done⟩ := (rule _).mpr
        ⟨agreeing, known, fun file member _ stands => absurd (vacant file member) stands, rfl⟩
      exact ⟨_, done⟩
  have alike : Table.Agreeing (entriesOf files)
      ↔ (files.map fun file => file.object.folded).Nodup := by
    constructor
    · intro agreeing
      refine (List.Nodup.of_map _ distinct).map_on fun file member other among same => ?_
      have object := agreeing _ (List.mem_map_of_mem member) _ (List.mem_map_of_mem among) same
      exact List.inj_on_of_nodup_map distinct member among (congrArg Object.artifactId object)
    · intro apart entry first entry' second same
      obtain ⟨file, member, rfl⟩ := List.mem_map.mp first
      obtain ⟨other, among, rfl⟩ := List.mem_map.mp second
      rw [List.inj_on_of_nodup_map apart member among same]
  rw [whole, ← alike, ← enlisted]
  cases result : files.foldlM (Ledger.enlist sha256 disk) planning.ledger with
  | ok after => exact iff_of_false (by rintro ⟨⟩) (not_not_intro ⟨after, rfl⟩)
  | error error =>
      rw [enlist_refuses vacant result]
      exact iff_of_true rfl (by rintro ⟨after, found⟩; cases found)

-----------------------------------------------------------------------------------------
-- Banks
-----------------------------------------------------------------------------------------

/-- The artifacts of a bank have stable ids of their own, and so do their objects have keys: an
export of them does not collide with itself.
-/
structure Identified (sha256 : List UInt8 → List UInt8) (artifacts : List Artifact) : Prop where
  distinct : (artifacts.map Artifact.stableId).Nodup
  keys
    : ∀ (m : Manifest) (objects : List Object),
        m.files.map PublishedFile.artifact = artifacts
        → m.files.mapM (describe sha256 m) = .ok objects
        → (objects.map Object.objectKey).Nodup
  planned
    : ∀ (m : Manifest) (disk data : Disk) (planning : Planning),
        m.files.map PublishedFile.artifact = artifacts
        → planning.ledger.Lacks sha256 m m.files
        → planManifest sha256 disk data planning m ≠ .error collision

/-- Two waveforms are referred to by the same cue ids, as often each. -/
def SameCues (w w' : Wave) : Prop := (w.cues.map Cue.id).Perm (w'.cues.map Cue.id)

/-- No two waveforms are referred to by the same cues. -/
def SeparateCues (waves : List Wave) : Prop := waves.Pairwise fun w w' => ¬ SameCues w w'

/-- No two waveforms that are referred to by the same cues have labels that are encoded alike, as
far as `fold` tells names apart.
-/
def SeparateNames (sha256 : List UInt8 → List UInt8) (fold : String → String) (waves : List Wave)
    : Prop :=
  waves.zipIdx.Pairwise fun entry entry' =>
    ¬ (fold (component sha256 (entry.1.label entry.2))
          = fold (component sha256 (entry'.1.label entry'.2))
        ∧ SameCues entry.1 entry'.1)

/-- Waveforms are separate just when they are at their indices. -/
theorem separateCues_iff {waves : List Wave}
    : SeparateCues waves
      ↔ waves.zipIdx.Pairwise fun entry entry' => ¬ SameCues entry.1 entry'.1 := by
  conv_lhs => rw [SeparateCues, ← List.zipIdx_map_fst 0 waves, List.pairwise_map]

section Waves

variable {waves : List Wave}
  (secure
    : ∀ w ∈ waves, ∀ w' ∈ waves,
        sha256 (Bytes.textBytes w.identities) = sha256 (Bytes.textBytes w'.identities)
        → w.identities = w'.identities)
  (fresh : Fresh sha256 (waves.map (Wave.stableId sha256)))

include secure in
/-- Waveforms have one stable id just when the same cues refer to them, unless digests agree. -/
theorem stableId_eq_iff {w w' : Wave} (member : w ∈ waves) (member' : w' ∈ waves)
    : w.stableId sha256 = w'.stableId sha256 ↔ SameCues w w' := by
  rw [SameCues, ← identities_eq_iff]
  constructor
  · intro same
    have digests := String.append_right_inj "wave-" |>.mp same
    exact secure w member w' member' (Bytes.hexEncode_injective digests)
  · intro same
    rw [Wave.stableId, Wave.stableId, same]

include secure fresh in
/-- So it is with their short digests. -/
theorem shortDigest_eq_iff {w w' : Wave} (member : w ∈ waves) (member' : w' ∈ waves)
    : shortDigest sha256 (w.stableId sha256) = shortDigest sha256 (w'.stableId sha256)
      ↔ SameCues w w' := by
  rw [← stableId_eq_iff secure member member']
  refine ⟨fun same => ?_, fun same => by rw [same]⟩
  exact fresh _ (List.mem_map_of_mem member) _ (List.mem_map_of_mem member') same

include secure in
/-- Waveforms have stable ids of their own just when their cues do. -/
theorem stableIds_nodup {artifacts : List Artifact}
    (described : List.Forall₂ (Wave.Describes sha256) waves.zipIdx artifacts)
    : (artifacts.map Artifact.stableId).Nodup ↔ SeparateCues waves := by
  rw [separateCues_iff, List.Nodup, List.pairwise_map]
  refine (forall₂_pairwise_iff described
    fun entry inside entry' inside' {_ _} here there => ?_).symm
  rw [here.stableId, there.stableId, Ne, Option.some.injEq,
    stableId_eq_iff secure (List.fst_mem_of_mem_zipIdx inside)
      (List.fst_mem_of_mem_zipIdx inside')]

include secure fresh in
/-- Objects of waveforms have keys of their own just when the waveforms have names. -/
theorem keys_nodup {fold : String → String} {key : Object → String}
    (pairs
      : ∀ {f g : PublishedFile} {entry entry' : Wave × Nat} {object other : Object},
          Wave.Describes sha256 entry f.artifact
          → Wave.Describes sha256 entry' g.artifact
          → describe sha256 m f = .ok object
          → describe sha256 m g = .ok other
          → (key object = key other
            ↔ fold (component sha256 (entry.1.label entry.2))
                = fold (component sha256 (entry'.1.label entry'.2))
              ∧ shortDigest sha256 (entry.1.stableId sha256)
                = shortDigest sha256 (entry'.1.stableId sha256)))
    {objects : List Object}
    (described
      : List.Forall₂ (Wave.Describes sha256) waves.zipIdx (m.files.map PublishedFile.artifact))
    (mapped : m.files.mapM (describe sha256 m) = .ok objects)
    : (objects.map key).Nodup ↔ SeparateNames sha256 fold waves := by
  rw [List.Nodup, List.pairwise_map]
  have related := forall₂_comp (List.forall₂_map_right_iff.mp described) (mapM_ok.mp mapped)
  refine (forall₂_pairwise_iff related fun entry inside entry' inside' {_ _} here there => ?_).symm
  obtain ⟨f, file, object⟩ := here
  obtain ⟨g, file', object'⟩ := there
  rw [Ne, pairs file file' object object',
    shortDigest_eq_iff secure fresh (List.fst_mem_of_mem_zipIdx inside)
      (List.fst_mem_of_mem_zipIdx inside')]

end Waves

end Sha

-----------------------------------------------------------------------------------------
-- A bank of two waveforms
-----------------------------------------------------------------------------------------

/-- The tracks of two waveforms, the second of which has a cue of its own or that of the first,
which then names it after the first.
-/
def sampleTracks (cue : Int) (name : String) : List Track :=
  [⟨7, "intro", 0, false, 0⟩, ⟨cue, name, 1, false, 0⟩]

/-- The waveforms of two tracks. -/
def sampleWaves (cue : Int) (name : String) : List Wave :=
  [⟨[1], "hca", 0, [⟨"intro", 7⟩]⟩, ⟨[2], "hca", 0, [⟨name, cue⟩]⟩]

/-- A bank of two waveforms with an AWB that has both. -/
def sampleBank (cue : Int) (name : String) : Bank where
  rows := 1
  tracks := sampleTracks cue name
  awb := some
    (awbMark ++ [2, 4, 2, 0, 2, 0, 0, 0, 32, 0, 0, 0] ++ [0, 0, 1, 0]
      ++ [32, 0, 0, 0, 64, 0, 0, 0, 96, 0, 0, 0] ++ List.replicate 64 0)

/-- Tools that extract both waveforms and leave their bytes as they are. -/
def sampleTools (cue : Int) (name : String) : Tools where
  extract := fun _ => .ok (sampleWaves cue name)
  encode := fun _ w => .ok w.data

/-- The limits of the sample. -/
def sampleConfig : Config where
  expandedBytes := 100
  outputBytes := 100

/-- What the sample writes. -/
def sampleOutput (cue : Int) (name : String) : Output where
  files := (sampleWaves cue name).zipIdx.map fun entry =>
    {
      name := outputName entry.2 "m4a"
      label := entry.1.label entry.2
      mediaType := "audio/mp4"
      bytes := 1
      sha256 := digest List.reverse entry.1.data
      stableId := some (entry.1.stableId List.reverse)
      role := none
    }
  total := 2

/-- An export of the sample. -/
def sampleSound (cue : Int) (name : String) : Manifest where
  id := "1a"
  snapshot := "s"
  key := "Voice/Intro"
  profile := workerProfile
  files := (sampleOutput cue name).files.map fun artifact => ⟨artifact, artifact.sha256⟩
  empty := false

/-- A job that exports the sample. -/
def soundJob (cue : Int) (name : String) : ObjectTree.Job where
  manifests := [sampleSound cue name]
  data :=
    (((Disk.empty.create ["exports"] .directory).create ["exports", "1a"] .directory).create
      ["exports", "1a", "00000.m4a"] (.file [1])).create ["exports", "1a", "00001.m4a"] (.file [2])
  snapshot := none
  hardlink := false
  profile := workerProfile

end MoenotesAssets.ObjectTree
