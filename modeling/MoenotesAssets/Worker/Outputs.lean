import MoenotesAssets.Publication.Storage
import MoenotesAssets.Service.Identity
import MoenotesAssets.Worker.Run

/-! What a run of the worker leaves: artifacts that are numbered, counted and never written over.
Their names, and those of the files of all exports, are then distinct.
-/

namespace MoenotesAssets.Worker.Run

open Foundation Foundation.Bytes Foundation.Machine Foundation.Program
open Export (Artifact Manifest PublishedFile outputName)
open ObjectTree (digest)

-----------------------------------------------------------------------------------------
-- Stages of a run
-----------------------------------------------------------------------------------------

/-- The names of the artifacts of a stage. -/
def Stage.names (stage : Stage) : List String := stage.out.files.map Artifact.name

/-- A file of the directory is what an artifact records. -/
def Recorded (sha256 : List UInt8 → List UInt8) (directory : Std.TreeMap String (List UInt8))
    (artifact : Artifact)
    : Prop :=
  ∃ content,
    directory[artifact.name]? = some content
    ∧ content.length = artifact.bytes
    ∧ digest sha256 content = artifact.sha256

/-- The media types of artifacts. -/
def outputTypes : List String :=
  ["application/json", "application/octet-stream", "application/vnd.unity", "audio/mp4",
    "image/png", "text/plain; charset=utf-8", "video/mp4", "video/x-matroska"]

/-- What holds between the steps of a run. -/
structure Stage.Sound (sha256 : List UInt8 → List UInt8) (config : Config) (stage : Stage)
    : Prop where
  named
    : ∀ {i : Nat} {name : String},
        stage.names[i]? = some name → ∃ extension, name = outputName i extension
  count : stage.out.files.length ≤ 10000
  total : stage.out.total = (stage.out.files.map Artifact.bytes).sum
  budget : stage.out.total ≤ config.outputBytes
  recorded : ∀ artifact ∈ stage.out.files, Recorded sha256 stage.directory artifact
  typed : ∀ artifact ∈ stage.out.files, artifact.mediaType ∈ outputTypes

/-- A later stage has the artifacts of an earlier one, and their files as they were. -/
structure Stage.Keeps (earlier later : Stage) : Prop where
  names : earlier.names <+: later.names
  files : ∀ name ∈ earlier.names, later.directory[name]? = earlier.directory[name]?

/-- A stage keeps its own artifacts. -/
theorem Stage.Keeps.refl (stage : Stage) : stage.Keeps stage :=
  ⟨List.prefix_refl _, fun _ _ => rfl⟩

/-- Keeping artifacts is transitive. -/
theorem Stage.Keeps.trans {first second third : Stage} (head : first.Keeps second)
    (tail : second.Keeps third)
    : first.Keeps third where
  names := head.names.trans tail.names
  files := fun name member =>
    (tail.files name (head.names.subset member)).trans (head.files name member)

section Steps

variable {sha256 : List UInt8 → List UInt8} {config : Config} {stage after : Stage}

/-- The new directory is sound. -/
theorem Stage.Sound.empty : Stage.empty.Sound sha256 config where
  named := fun found => by cases found
  count := Nat.zero_le _
  total := rfl
  budget := Nat.zero_le _
  recorded := fun _ member => by cases member
  typed := fun _ member => by cases member

/-- A path of the next artifact is not the name of an earlier one. -/
theorem Stage.Sound.fresh (sound : stage.Sound sha256 config) (extension : String)
    : outputName stage.out.files.length extension ∉ stage.names := by
  intro member
  obtain ⟨i, inside, found⟩ := List.mem_iff_getElem.mp member
  obtain ⟨other, same⟩ := sound.named (List.getElem?_eq_some_iff.mpr ⟨inside, found⟩)
  have index := Export.outputName_index same
  rw [Stage.names, List.length_map] at inside
  omega

/-- The files of a stage besides a path that no artifact has. -/
theorem Stage.store_other {path name : String} (fresh : path ∉ stage.names)
    (member : name ∈ stage.names) (content : Option (List UInt8))
    : (stage.store path content).directory[name]? = stage.directory[name]? := by
  cases content with
  | none => rfl
  | some bytes =>
      refine Table.insert_other stage.directory bytes ?_
      rintro rfl
      exact fresh member

/-- Writing a file changes no record. -/
theorem Stage.store_out (path : String) (content : Option (List UInt8))
    : (stage.store path content).out = stage.out := by
  cases content <;> rfl

/-- Writing a file at a fresh path keeps all artifacts. -/
theorem Stage.Sound.store {path : String} (sound : stage.Sound sha256 config)
    (fresh : path ∉ stage.names) (content : Option (List UInt8))
    : (stage.store path content).Sound sha256 config := by
  have out : (stage.store path content).out = stage.out := Stage.store_out path content
  constructor
  case named =>
    rw [Stage.names, out]
    exact sound.named
  case count =>
    rw [out]
    exact sound.count
  case total =>
    rw [out]
    exact sound.total
  case budget =>
    rw [out]
    exact sound.budget
  case recorded =>
    rw [out]
    intro artifact member
    rw [Recorded, Stage.store_other fresh (List.mem_map_of_mem member)]
    exact sound.recorded artifact member
  case typed =>
    rw [out]
    exact sound.typed

/-- The artifacts stay when a file is written at a fresh path. -/
theorem Stage.store_keeps {path : String} (fresh : path ∉ stage.names)
    (content : Option (List UInt8))
    : stage.Keeps (stage.store path content) where
  names := by
    have same : (stage.store path content).names = stage.names := by
      rw [Stage.names, Stage.names, Stage.store_out]
    exact same ▸ List.prefix_refl _
  files := fun _ member => Stage.store_other fresh member content

/-- What an artifact adds to a stage. -/
structure Stage.Adds (sha256 : List UInt8 → List UInt8) (config : Config) (stage : Stage)
    (artifact : Artifact) (after : Stage)
    : Prop where
  files : after.out.files = stage.out.files ++ [artifact]
  total : after.out.total = stage.out.total + artifact.bytes
  directory : after.directory = stage.directory
  budget : after.out.total ≤ config.outputBytes
  count : stage.out.files.length < 10000
  recorded : Recorded sha256 stage.directory artifact

/-- What `Output::add` adds. -/
theorem Stage.add_ok {path label media : String} {stableId role : Option String}
    (added : stage.add sha256 config path label media stableId role = .ok after)
    : ∃ artifact,
        artifact.name = path
        ∧ artifact.mediaType = media
        ∧ stage.Adds sha256 config artifact after := by
  simp only [Stage.add, bind_ok, context_ok, ensure_ok, pure_ok, exists_const,
    decide_eq_true_eq] at added
  obtain ⟨content, held, total, sum, budget, count, rfl⟩ := added
  let artifact : Artifact :=
    {
      name := path
      label
      mediaType := media
      bytes := content.length
      sha256 := digest sha256 content
      stableId
      role
    }
  have adds : stage.Adds sha256 config artifact
      { stage with out := { files := stage.out.files ++ [artifact], total } } :=
    {
      files := rfl
      total := (checkedAdd_eq_some sum).1
      directory := rfl
      budget
      count
      recorded := ⟨content, held, rfl, rfl⟩
    }
  exact ⟨artifact, rfl, rfl, adds⟩

/-- At the path of its index, `Output::add` of a run is that of an output alone, with the content
of the file at the path.
-/
theorem Stage.add_output {content : List UInt8} {extension : String} (label media : String)
    (stableId role : Option String)
    (held : stage.directory[outputName stage.out.files.length extension]? = some content)
    : stage.add sha256 config (outputName stage.out.files.length extension) label media stableId
        role
      = ((stage.out.add sha256 config content extension label media stableId role).mapError
          .error).map fun out => { stage with out } := by
  have found : context (some content) (Failure.error "No such file or directory") = .ok content :=
    rfl
  rw [Stage.add, held, found, ok_bind, Output.add]
  dsimp only
  by_cases fits : stage.out.total + content.length < 2 ^ 64
  · have sum : context (checkedAdd stage.out.total content.length)
        (Failure.error "output overflow") = .ok (stage.out.total + content.length) := by
      rw [checkedAdd, max64, if_pos (by omega)]
      rfl
    rw [sum, ok_bind, decide_eq_true fits]
    generalize decide (stage.out.total + content.length ≤ config.outputBytes) = inside
    generalize decide (stage.out.files.length < 10000) = few
    cases inside with
    | false => rfl
    | true => cases few <;> rfl
  · have overflow : context (checkedAdd stage.out.total content.length)
        (Failure.error "output overflow") = .error (.error "output overflow") := by
      rw [checkedAdd, max64, if_neg (by omega)]
      rfl
    rw [overflow, decide_eq_false fits]
    rfl

/-- The names behind an addition. -/
theorem Stage.Adds.names {artifact : Artifact} (adds : stage.Adds sha256 config artifact after)
    : after.names = stage.names ++ [artifact.name] := by
  rw [Stage.names, adds.files, List.map_append, List.map_singleton, Stage.names]

/-- A stage stays sound with an artifact at the path of its index. -/
theorem Stage.Sound.add {artifact : Artifact} {extension : String}
    (sound : stage.Sound sha256 config) (adds : stage.Adds sha256 config artifact after)
    (name : artifact.name = outputName stage.out.files.length extension)
    (known : artifact.mediaType ∈ outputTypes)
    : after.Sound sha256 config := by
  constructor
  case named =>
    intro i other found
    rw [adds.names, List.getElem?_append] at found
    split at found
    case isTrue => exact sound.named found
    case isFalse last =>
      -- the only other artifact is the new one, whose index is the number of those before it
      rw [List.getElem?_singleton] at found
      split at found
      · rw [Stage.names, List.length_map] at *
        have index : i = stage.out.files.length := by omega
        exact ⟨extension, by rw [index, ← name, ← Option.some.inj found]⟩
      · cases found
  case count =>
    rw [adds.files, List.length_append, List.length_singleton]
    exact adds.count
  case total =>
    rw [adds.total, adds.files, List.map_append, List.sum_append, ← sound.total]
    simp
  case budget => exact adds.budget
  case recorded =>
    rw [adds.files, adds.directory]
    intro other member
    rcases List.mem_append.mp member with old | new
    · exact sound.recorded other old
    · rw [List.mem_singleton.mp new]
      exact adds.recorded
  case typed =>
    rw [adds.files]
    exact List.forall_mem_append.mpr ⟨sound.typed, List.forall_mem_singleton.mpr known⟩

/-- The artifacts stay when one is added. -/
theorem Stage.Adds.keeps {artifact : Artifact} (adds : stage.Adds sha256 config artifact after)
    : stage.Keeps after where
  names := ⟨[artifact.name], adds.names.symm⟩
  files := fun _ _ => by rw [adds.directory]

/-- What an artifact records of its file. -/
def facts (artifact : Artifact) : String × String × Nat × String :=
  (artifact.name, artifact.mediaType, artifact.bytes, artifact.sha256)

/-- Stages with the same files of the same artifacts. -/
structure Stage.Alike (stage after : Stage) : Prop where
  facts : after.out.files.map facts = stage.out.files.map facts
  total : after.out.total = stage.out.total
  directory : after.directory = stage.directory

/-- Stages that are alike have the same names. -/
theorem Stage.Alike.names (alike : stage.Alike after) : after.names = stage.names := by
  have names := congrArg (List.map Prod.fst) alike.facts
  rwa [List.map_map, List.map_map] at names

/-- The artifacts stay in a stage that is alike. -/
theorem Stage.Alike.keeps (alike : stage.Alike after) : stage.Keeps after where
  names := alike.names ▸ List.prefix_refl _
  files := fun _ _ => by rw [alike.directory]

/-- What is alike is sound alike. -/
theorem Stage.Sound.alike (sound : stage.Sound sha256 config) (alike : stage.Alike after)
    : after.Sound sha256 config := by
  constructor
  case named =>
    rw [alike.names]
    exact sound.named
  case count =>
    have length := congrArg List.length alike.facts
    rw [List.length_map, List.length_map] at length
    exact length ▸ sound.count
  case total =>
    have sizes := congrArg (List.map fun fact => fact.2.2.1) alike.facts
    rw [List.map_map, List.map_map] at sizes
    exact alike.total.trans (sound.total.trans (congrArg List.sum sizes.symm))
  case budget => exact alike.total ▸ sound.budget
  case recorded =>
    intro artifact member
    have among : facts artifact ∈ stage.out.files.map facts :=
      alike.facts ▸ List.mem_map_of_mem member
    obtain ⟨other, old, same⟩ := List.mem_map.mp among
    have recorded := sound.recorded other old
    simp only [facts, Prod.mk.injEq] at same
    obtain ⟨name, -, bytes, hash⟩ := same
    rwa [Recorded, name, bytes, hash, ← alike.directory] at recorded
  case typed =>
    intro artifact member
    have among : facts artifact ∈ stage.out.files.map facts :=
      alike.facts ▸ List.mem_map_of_mem member
    obtain ⟨other, old, same⟩ := List.mem_map.mp among
    simp only [facts, Prod.mk.injEq] at same
    exact same.2.1 ▸ sound.typed other old

/-- Describing the last artifact changes nothing that is recorded of its file. -/
theorem Stage.describe_alike {stableId : String} {role : Option String}
    (described : stage.describe stableId role = .ok after)
    : stage.Alike after := by
  simp only [Stage.describe, bind_ok, context_ok, pure_ok] at described
  obtain ⟨last, found, rfl⟩ := described
  obtain ⟨others, split⟩ := List.getLast?_eq_some_iff.mp found
  refine ⟨?_, rfl, rfl⟩
  simp only [split, List.dropLast_concat, List.map_append, List.map_singleton, facts]

/-- Marking artifacts as those of a split sound changes nothing that is recorded of their files. -/
theorem Stage.assemble_alike (before : Nat) (source : Export.SplitAcb)
    : stage.Alike (stage.assemble before source) := by
  refine ⟨?_, rfl, rfl⟩
  have same : facts ∘ assembled source = facts := rfl
  rw [Stage.assemble, List.map_append, List.map_map, same, ← List.map_append,
    List.take_append_drop]

end Steps

-----------------------------------------------------------------------------------------
-- Parts of a run
-----------------------------------------------------------------------------------------

section Parts

variable (sha256 : List UInt8 → List UInt8) (config : Config)

/-- A sound stage with the artifacts of an earlier one. -/
structure Stage.Grows (earlier later : Stage) : Prop where
  keeps : earlier.Keeps later
  sound : later.Sound sha256 config

instance : IsTrans Stage (Stage.Grows sha256 config) :=
  ⟨fun _ _ _ head tail => ⟨head.keeps.trans tail.keeps, tail.sound⟩⟩

/-- A part of a run that keeps all artifacts and adds sound ones. -/
def Builds {α : Type} (work : Work α) : Prop :=
  Evolves (Stage.Grows sha256 config) (Stage.Sound sha256 config) work
    fun _ => Stage.Sound sha256 config

/-- A path was allocated for the next artifact of a stage. -/
structure Allocated (path : String) (stage : Stage) : Prop where
  sound : stage.Sound sha256 config
  next : ∃ extension, path = outputName stage.out.files.length extension

/-- The artifacts are those of a sound stage. -/
structure Outputs (outputs : List Artifact) (stage : Stage) : Prop where
  sound : stage.Sound sha256 config
  same : outputs = stage.out.files

variable {sha256 config} {α β : Type}

/-- An allocated path is not the name of an artifact. -/
theorem Allocated.fresh {path : String} {stage : Stage}
    (allocated : Allocated sha256 config path stage)
    : path ∉ stage.names := by
  obtain ⟨extension, rfl⟩ := allocated.next
  exact allocated.sound.fresh extension

/-- Parts follow each other. -/
theorem Builds.bind {first : Work α} {next : α → Work β} (begins : Builds sha256 config first)
    (continues : ∀ value, Builds sha256 config (next value))
    : Builds sha256 config (first >>= next) :=
  Evolves.bind begins continues

/-- What is computed without the output. -/
theorem Builds.lift (outcome : Except Failure α) : Builds sha256 config (Program.lift outcome) :=
  Evolves.lift

/-- A value. -/
theorem Builds.pure (value : α) : Builds sha256 config (pure value : Work α) :=
  Evolves.pure id

/-- A loop. -/
theorem Builds.forM {f : β → Work Unit} {list : List β}
    (step : ∀ item ∈ list, Builds sha256 config (f item))
    : Builds sha256 config (list.forM f) :=
  Evolves.forM step

/-- A fold. -/
theorem Builds.foldlM {f : α → β → Work α} {list : List β}
    (step : ∀ item ∈ list, ∀ value, Builds sha256 config (f value item)) (value : α)
    : Builds sha256 config (list.foldlM f value) :=
  Evolves.foldlM step value

/-- A check. -/
theorem require_builds (condition : Bool) (message : String)
    : Builds sha256 config (require condition message) :=
  .lift _

/-- The sum so far. -/
theorem total_evolves {pre : Stage → Prop}
    : Evolves (Stage.Grows sha256 config) pre total fun _ => pre :=
  .observe fun start _ => start

/-- A path is allocated. -/
theorem path_evolves (ext : String)
    : Evolves (Stage.Grows sha256 config) (Stage.Sound sha256 config) (path ext)
        (Allocated sha256 config) :=
  .observe fun sound same => ⟨sound, ext, (Except.ok.inj same).symm⟩

/-- A file that is written at an allocated path. -/
theorem create_evolves (path : String) (written : Written α)
    : Evolves (Stage.Grows sha256 config) (Allocated sha256 config path) (create path written)
        fun _ => Allocated sha256 config path := by
  have sound : ∀ {stage : Stage}, Allocated sha256 config path stage
      → (stage.store path written.content).Sound sha256 config :=
    fun allocated => allocated.sound.store allocated.fresh written.content
  have stored : Evolves (Stage.Grows sha256 config) (Allocated sha256 config path)
      (Program.change (Stage.store path written.content) : Work Unit)
      fun _ => Allocated sha256 config path := by
    refine .change (fun allocated => ?_) fun allocated => ?_
    · exact ⟨Stage.store_keeps allocated.fresh written.content, sound allocated⟩
    · refine ⟨sound allocated, ?_⟩
      rw [Stage.store_out]
      exact allocated.next
  exact stored.bind fun _ => .lift

/-- An artifact at an allocated path. -/
theorem add_evolves (path label : String) {media : String} (known : media ∈ outputTypes)
    (stableId role : Option String)
    : Evolves (Stage.Grows sha256 config) (Allocated sha256 config path)
        (add sha256 config path label media stableId role)
        fun _ => Stage.Sound sha256 config := by
  have sound : ∀ {stage after : Stage}, Allocated sha256 config path stage
      → stage.add sha256 config path label media stableId role = .ok after
      → stage.Grows sha256 config after := by
    intro stage after allocated added
    obtain ⟨artifact, name, kind, adds⟩ := Stage.add_ok added
    obtain ⟨extension, next⟩ := allocated.next
    exact ⟨adds.keeps, allocated.sound.add adds (name.trans next) (kind ▸ known)⟩
  exact .advance sound fun allocated added => (sound allocated added).sound

/-- The file of an artifact is written at an allocated path, and recorded. -/
theorem written_evolves (path label : String) {media : String} (known : media ∈ outputTypes)
    (stableId role : Option String) (written : Written Unit)
    : Evolves (Stage.Grows sha256 config) (Allocated sha256 config path)
        (create path written >>= fun _ => add sha256 config path label media stableId role)
        fun _ => Stage.Sound sha256 config :=
  (create_evolves path written).bind fun _ => add_evolves path label known stableId role

/-- `Output::bytes` -/
theorem bytes_builds (tools : Tools) (data : List UInt8) (ext label : String) {media : String}
    (known : media ∈ outputTypes)
    : Builds sha256 config (bytes sha256 config tools data ext label media) :=
  total_evolves.bind fun _ => .bind (require_builds _ _) fun _ =>
    (path_evolves ext).bind fun p => written_evolves p label known none none _

/-- The metadata of the last artifact is set. -/
theorem describe_builds (stableId : String) (role : Option String)
    : Builds sha256 config (describe stableId role) :=
  .advance
    (fun sound described =>
      have alike := Stage.describe_alike described
      ⟨alike.keeps, sound.alike alike⟩)
    fun sound described => sound.alike (Stage.describe_alike described)

/-- The artifacts so far. -/
theorem files_builds : Builds sha256 config files :=
  .observe fun sound _ => sound

/-- Artifacts are marked as those of a split sound. -/
theorem assemble_builds (before : Nat) (source : Export.SplitAcb)
    : Builds sha256 config (Program.change (Stage.assemble before source)) :=
  .change
    (fun sound =>
      have alike := Stage.assemble_alike before source
      ⟨alike.keeps, sound.alike alike⟩)
    fun sound => sound.alike (Stage.assemble_alike before source)

end Parts

-----------------------------------------------------------------------------------------
-- Whole runs
-----------------------------------------------------------------------------------------

section Runs

variable {sha256 : List UInt8 → List UInt8} {tools : Tools} {job : Job}

/-- The media type of an archived input. -/
theorem archiveForm_media {limits : Limits} {input : Input} {form : Form}
    (formed : archiveForm tools limits input = .ok form)
    : form.media = "application/octet-stream" ∨ form.media = "application/vnd.unity" := by
  rw [archiveForm] at formed
  split at formed
  · simp only [bind_ok, ensure_ok, pure_ok] at formed
    obtain ⟨_, -, _, -, _, -, rfl⟩ := formed
    exact .inl rfl
  · simp only [bind_ok, ensure_ok, pure_ok] at formed
    obtain ⟨_, -, _, -, rfl⟩ := formed
    exact .inr rfl

/-- The media type of a text. -/
theorem textForm_known (tools : Tools) (data : List UInt8)
    : (textForm tools data).2 ∈ outputTypes := by
  rw [textForm]
  split
  · decide
  · split
    · decide
    · split <;> decide

/-- An archived input. -/
theorem archiveInput_builds (input : Input)
    : Builds sha256 job.limits.toConfig (archiveInput sha256 tools job input) := by
  refine .bind (require_builds _ _) fun _ => ?_
  cases formed : archiveForm tools job.limits input with
  | error failure =>
      rw [lift_error_bind]
      exact .lift _
  | ok form =>
      have known : form.media ∈ outputTypes := by
        rcases archiveForm_media formed with same | same <;> rw [same] <;> decide
      rw [lift_ok_bind]
      exact (path_evolves form.extension).bind fun p => Evolves.lift.bind fun _ =>
        written_evolves p _ known _ _ _

/-- A font reference. -/
theorem archiveReference_builds
    : Builds sha256 job.limits.toConfig (archiveReference sha256 tools job) := by
  rw [archiveReference]
  split
  · exact .bind (bytes_builds tools _ _ _ (by decide)) fun _ => describe_builds _ _
  · exact .pure ()

/-- A waveform. -/
theorem wave_builds (w : Wave) (i : Nat)
    : Builds sha256 job.limits.toConfig (wave sha256 tools job w i) :=
  .bind (require_builds _ _) fun _ => .bind (.lift _) fun _ =>
    (path_evolves "m4a").bind fun p => written_evolves p _ (by decide) _ _ _

/-- The mask of a video. -/
theorem videoMask_builds (content : List UInt8)
    : Builds sha256 job.limits.toConfig (videoMask sha256 tools job content) :=
  (path_evolves "mkv").bind
    fun p => total_evolves.bind fun _ => written_evolves p _ (by decide) _ _ _

/-- A video. -/
theorem usmVideo_builds (content : List UInt8)
    : Builds sha256 job.limits.toConfig (usmVideo sha256 tools job content) := by
  refine .bind (.lift _) fun alpha => (path_evolves "mp4").bind fun p => ?_
  refine (create_evolves p _).bind fun _ => (add_evolves p _ (by decide) _ _).bind fun _ => ?_
  cases alpha with
  | true => exact videoMask_builds content
  | false => exact .pure id

/-- A CRI payload. -/
theorem cri_builds (content : List UInt8)
    : Builds sha256 job.limits.toConfig (cri sha256 tools job content) := by
  refine .bind (.lift _) fun mark => ?_
  split
  · exact .bind (.lift _) fun waves => .forM fun entry _ => wave_builds entry.1 entry.2
  · split
    · exact usmVideo_builds content
    · exact .lift _

/-- A text. -/
theorem textObject_builds (object : Object) (label : String)
    : Builds sha256 job.limits.toConfig (textObject sha256 tools job object label) :=
  .bind (.lift _) fun _ => .bind (.lift _) fun data =>
    .bind (bytes_builds tools _ _ _ (textForm_known tools data)) fun _ => describe_builds _ _

/-- An image. -/
theorem imageObject_builds (object : Object) (label : String)
    : Builds sha256 job.limits.toConfig (imageObject sha256 job object label) :=
  .bind (.lift _) fun _ => (path_evolves "png").bind fun p => total_evolves.bind fun _ =>
    written_evolves p _ (by decide) _ _ _

/-- An object. -/
theorem unityObject_builds (object : Object)
    : Builds sha256 job.limits.toConfig (unityObject sha256 tools job object) := by
  rw [unityObject]
  split
  · exact textObject_builds object _
  · split
    · exact imageObject_builds object _
    · exact .lift _

/-- A target. -/
theorem target_builds (emptyAtlases : Nat) (found : Except Failure Target)
    : Builds sha256 job.limits.toConfig (target sha256 tools job emptyAtlases found) := by
  refine .bind (.lift _) fun object => ?_
  split
  · refine .bind (.lift _) fun ⟨payload, cueSheet, chunks⟩ => .bind files_builds fun before => ?_
    exact .bind (cri_builds payload) fun _ => .bind (assemble_builds _ _) fun _ => .pure _
  split
  · exact .bind (.lift _) fun _ => .bind (.lift _) fun payload =>
      .bind (cri_builds payload) fun _ => .pure _
  split
  · refine .bind (.lift _) fun atlas => .bind (require_builds _ _) fun _ => ?_
    refine .bind ?_ fun _ => .pure _
    exact .forM fun sprite _ => .bind (.lift _) fun object => unityObject_builds object
  · exact .bind (unityObject_builds _) fun _ => .pure _

/-- The objects of a preview. -/
theorem objects_builds (regions : List (String × Region))
    : Builds sha256 job.limits.toConfig (objects sha256 tools job regions) :=
  .bind (.lift _) fun _ => .bind (require_builds _ _) fun _ =>
    .foldlM (fun found _ emptyAtlases => target_builds emptyAtlases found) 0

/-- A preview up to its outputs. -/
theorem previewObjects_builds
    : Builds sha256 job.limits.toConfig (previewObjects sha256 tools job) := by
  refine .bind (.lift _) fun opened => ?_
  cases opened with
  | raw input => exact .bind (.lift _) fun payload => .bind (cri_builds payload) fun _ => .pure _
  | regions regions => exact objects_builds regions

/-- The artifacts of a sound stage are read. -/
theorem files_evolves {config : Config}
    : Evolves (Stage.Grows sha256 config) (Stage.Sound sha256 config) files
        (Outputs sha256 config) :=
  .observe fun sound same => ⟨sound, (Except.ok.inj same).symm⟩

/-- An archive. -/
theorem archive_evolves
    : Evolves (Stage.Grows sha256 job.limits.toConfig) (Stage.Sound sha256 job.limits.toConfig)
        (archive sha256 tools job) (Outputs sha256 job.limits.toConfig) :=
  Evolves.bind archiveReference_builds fun _ =>
    Evolves.bind (Builds.forM fun input _ => archiveInput_builds input) fun _ => files_evolves

/-- A preview. -/
theorem preview_evolves
    : Evolves (Stage.Grows sha256 job.limits.toConfig) (Stage.Sound sha256 job.limits.toConfig)
        (preview sha256 tools job) (Outputs sha256 job.limits.toConfig) :=
  Evolves.bind previewObjects_builds fun _ => files_evolves.bind fun _ =>
    Evolves.lift.bind fun _ => .pure id

/-- A run. -/
theorem run_evolves
    : Evolves (Stage.Grows sha256 job.limits.toConfig) (Stage.Sound sha256 job.limits.toConfig)
        (run sha256 tools job) (Outputs sha256 job.limits.toConfig) := by
  refine Evolves.lift.bind fun _ => Evolves.lift.bind fun _ => Evolves.lift.bind fun _ => ?_
  split
  · exact archive_evolves
  · exact preview_evolves

end Runs

-----------------------------------------------------------------------------------------
-- What a run leaves
-----------------------------------------------------------------------------------------

/-- A name starts with a number in five digits. -/
def Numbered (i : Nat) (name : String) : Prop :=
  ∃ digits rest,
    name.toList = digits ++ rest
    ∧ digits.length = 5
    ∧ (∀ digit ∈ digits, digit.isDigit = true)
    ∧ Nat.ofDigitChars 10 digits 0 = i

/-- The artifacts of a stage are numbered and distinct, none is named like the manifest, and they
are within the limits of the worker.
-/
structure Stage.Lawful (config : Config) (stage : Stage) : Prop where
  numbered : ∀ {i : Nat} {name : String}, stage.names[i]? = some name → Numbered i name
  distinct : stage.names.Nodup
  unlike : "manifest.json" ∉ stage.names
  count : stage.out.files.length ≤ 10000
  total : stage.out.total = (stage.out.files.map Artifact.bytes).sum
  budget : stage.out.total ≤ config.outputBytes

/-- How a run goes: whatever step it stops after, its artifacts are lawful, and no artifact of an
earlier step has been written over; it yields the artifacts of its last step.
-/
structure Orderly (config : Config) (attempt : Attempt Stage Failure (List Artifact)) : Prop where
  lawful : ∀ stage ∈ attempt.visible, stage.Lawful config
  keeps : attempt.visible.Pairwise Stage.Keeps
  yields
    : ∀ {outputs : List Artifact},
        attempt.result = .ok outputs
        → outputs = attempt.last.out.files

section Orderly

variable {sha256 : List UInt8 → List UInt8} {config : Config} {stage : Stage}

/-- The names of a sound stage are distinct. -/
theorem Stage.Sound.distinct (sound : stage.Sound sha256 config) : stage.names.Nodup := by
  refine List.nodup_iff_getElem?_ne_getElem?.mpr fun i j below inside same => ?_
  have found : stage.names[j]? = some stage.names[j] := List.getElem?_eq_getElem inside
  obtain ⟨extension, name⟩ := sound.named (same.trans found)
  obtain ⟨extension', name'⟩ := sound.named found
  have index := Export.outputName_index (name.symm.trans name')
  omega

/-- A sound stage is lawful. -/
theorem Stage.Sound.lawful (sound : stage.Sound sha256 config) : stage.Lawful config := by
  constructor
  case numbered =>
    intro i name found
    have inside : i < stage.names.length := (List.getElem?_eq_some_iff.mp found).1
    have count := sound.count
    rw [Stage.names, List.length_map] at inside
    obtain ⟨extension, rfl⟩ := sound.named found
    exact ⟨_, _, Export.outputName_toList i extension, Export.outputIndex_length (by omega),
      Export.outputIndex_digits i, Export.outputIndex_value i⟩
  case distinct => exact sound.distinct
  case unlike =>
    intro member
    obtain ⟨i, found⟩ := List.mem_iff_getElem?.mp member
    obtain ⟨extension, same⟩ := sound.named found
    exact Export.outputName_ne_manifest i extension same.symm
  case count => exact sound.count
  case total => exact sound.total
  case budget => exact sound.budget

/-- A run goes orderly. -/
theorem run_orderly (tools : Tools) (job : Job)
    : Orderly job.limits.toConfig (run sha256 tools job Stage.empty) := by
  have evolves : Evolves _ _ (run sha256 tools job) _ := run_evolves
  have start : Stage.empty.Sound sha256 job.limits.toConfig := .empty
  have ordered := List.pairwise_cons.mp (evolves.ordered start)
  have passed : ∀ seen ∈ (run sha256 tools job Stage.empty).passed,
      seen.Sound sha256 job.limits.toConfig :=
    fun seen member => (ordered.1 seen member).sound
  constructor
  case lawful =>
    intro seen member
    rcases List.mem_append.mp member with early | last
    · exact (passed seen early).lawful
    · rw [List.mem_singleton.mp last]
      rcases List.mem_cons.mp (evolves.reaches start) with stays | moves
      · rw [stays]
        exact start.lawful
      · exact (passed _ moves).lawful
  case keeps =>
    refine List.pairwise_append.mpr
      ⟨ordered.2.imp Stage.Grows.keeps, List.pairwise_singleton _ _, ?_⟩
    intro seen early last member
    rw [List.mem_singleton.mp member]
    rcases evolves.ends start seen (List.mem_cons_of_mem _ early) with same | grows
    · exact same ▸ .refl seen
    · exact grows.keeps
  case yields => exact fun returned => (evolves.returns start returned).same

/-- The names of the artifacts that a run yields are distinct. -/
theorem run_distinct {tools : Tools} {job : Job} {outputs : List Artifact}
    (returned : (run sha256 tools job Stage.empty).result = .ok outputs)
    : (outputs.map Artifact.name).Nodup := by
  have evolves : Evolves _ _ (run sha256 tools job) _ := run_evolves
  obtain ⟨sound, rfl⟩ := evolves.returns .empty returned
  exact sound.distinct

end Orderly

-----------------------------------------------------------------------------------------
-- Published exports
-----------------------------------------------------------------------------------------

/-- `worker_entry`: what is written of a run; a panic leaves nothing. -/
def workerResult : Except Failure (List Artifact) → Option Publication.WorkerResult
  | .ok files => some { files, error := none, empty := files.isEmpty }
  | .error (.error message) => some { files := [], error := some message, empty := false }
  | .error (.panic _) => none

/-- The directory of a run, before anything of it is synced. -/
def Stage.toDirectory (stage : Stage) : Publication.Directory :=
  { entries := stage.directory.map fun _ content => .file content false, synced := false }

/-- A published export: the call that names it, the run of the worker for it, and the manifest that
is sealed with the output.
-/
structure Published (sha256 : List UInt8 → List UInt8) where
  call : Identity.Call
  tools : Tools
  job : Job
  settings : Publication.Settings
  origin : Publication.Job
  result : Publication.WorkerResult
  output : Publication.Directory
  sealed : Publication.Directory
  manifest : Manifest
  digests : settings.digest = fun text => digest sha256 (textBytes text)
  identified : origin.id = Identity.exportId sha256 call
  worked : workerResult (run sha256 tools job Stage.empty).result = some result
  accepted : Publication.sealOutput settings origin result output = .ok (sealed, manifest)

/-- What `crypto::digest` is given for the id of a file. -/
def fileText (id name : String) : List UInt8 := textBytes (id ++ ":" ++ name)

/-- What is digested for the ids of the files of an export. -/
def Published.fileTexts {sha256 : List UInt8 → List UInt8} (published : Published sha256)
    : List (List UInt8) :=
  published.manifest.files.map fun file => fileText published.manifest.id file.artifact.name

section Published

variable {sha256 : List UInt8 → List UInt8}

/-- The text of an id tells the export and the name of the file: no export id has a colon. -/
theorem fileText_inj {id id' name name' : String} (plain : ':' ∉ id.toList)
    (plain' : ':' ∉ id'.toList) (same : fileText id name = fileText id' name')
    : id = id' ∧ name = name' := by
  have letters := congrArg String.toList (textBytes_injective same)
  simp only [String.toList_append, List.append_assoc] at letters
  obtain ⟨ids, names⟩ := separated_inj plain plain' letters
  exact ⟨String.toList_inj.mp ids, String.toList_inj.mp names⟩

/-- The id of a published export is a digest. -/
theorem Published.id (published : Published sha256)
    : published.manifest.id = Identity.exportId sha256 published.call :=
  (Publication.sealOutput_ids published.accepted).1.trans published.identified

/-- The id of a published export has no colon. -/
theorem Published.plain (published : Published sha256)
    : ':' ∉ published.manifest.id.toList := by
  rw [published.id]
  exact hexEncode_digits (by decide) _

/-- The files of a published export have distinct names. -/
theorem Published.distinct (published : Published sha256)
    : (published.manifest.files.map fun file => file.artifact.name).Nodup := by
  have files := (Publication.sealOutput_ids published.accepted).2.1
  have names : (published.result.files.map Artifact.name).Nodup := by
    have worked := published.worked
    cases returned : (run sha256 published.tools published.job Stage.empty).result with
    | ok outputs =>
        rw [returned] at worked
        obtain rfl : published.result.files = outputs :=
          congrArg Publication.WorkerResult.files (Option.some.inj worked).symm
        exact run_distinct returned
    | error failure =>
        rw [returned] at worked
        cases failure with
        | error message =>
            rw [← Option.some.inj worked]
            exact List.nodup_nil
        | panic message => cases worked
  rwa [← files, List.map_map] at names

/-- The ids of the files of a published export are the digests of their texts. -/
theorem Published.fileIds (published : Published sha256)
    : Publication.fileIds published.manifest = published.fileTexts.map (digest sha256) := by
  obtain ⟨id, files, ids⟩ := Publication.sealOutput_ids published.accepted
  rw [Publication.fileIds, ids, ← files, published.digests, ← id, List.map_map, fileTexts,
    List.map_map]
  rfl

/-- The texts for the ids of the files of distinct exports are distinct. -/
theorem fileTexts_nodup {exports : List (Published sha256)}
    (distinct : (exports.map fun published => published.manifest.id).Nodup)
    : (exports.flatMap Published.fileTexts).Nodup := by
  refine List.nodup_flatMap.mpr ⟨fun published _ => ?_, ?_⟩
  · have split : published.fileTexts
        = (published.manifest.files.map fun file => file.artifact.name).map
          (fileText published.manifest.id) := by
      rw [List.map_map]
      rfl
    rw [split]
    refine published.distinct.map fun name name' same => ?_
    exact (fileText_inj published.plain published.plain same).2
  · refine (List.pairwise_map.mp distinct).imp fun {published other} apart => ?_
    intro text member member'
    obtain ⟨file, -, here⟩ := List.mem_map.mp member
    obtain ⟨file', -, there⟩ := List.mem_map.mp member'
    exact apart (fileText_inj published.plain other.plain (here.trans there.symm)).1

/-- The ids of the files of distinct exports are distinct. -/
theorem fileIds_nodup {exports : List (Published sha256)}
    (distinct : (exports.map fun published => published.manifest.id).Nodup)
    (secure : ObjectTree.NoCollision sha256 (exports.flatMap Published.fileTexts))
    : ((exports.map Published.manifest).flatMap Publication.fileIds).Nodup := by
  have ids : (exports.map Published.manifest).flatMap Publication.fileIds
      = (exports.flatMap Published.fileTexts).map (digest sha256) := by
    rw [List.flatMap_map, List.map_flatMap]
    exact List.flatMap_congr fun published _ => published.fileIds
  rw [ids]
  exact (fileTexts_nodup distinct).map_on fun text member text' member' same =>
    ObjectTree.digest_inj secure member member' same

/-- Every run of the worker numbers its artifacts and writes none over, within its limits; and the
files of exports with distinct ids have distinct ids, so that no publication meets a row in use.
-/
theorem outputs_distinct {exports : List (Published sha256)}
    (distinct : (exports.map fun published => published.manifest.id).Nodup)
    (secure : ObjectTree.NoCollision sha256 (exports.flatMap Published.fileTexts))
    : (∀ (tools : Tools) (job : Job),
        Orderly job.limits.toConfig (run sha256 tools job Stage.empty))
      ∧ ((exports.map Published.manifest).flatMap Publication.fileIds).Nodup
      ∧ ∃ index,
          (exports.map Published.manifest).foldlM Publication.Index.publish
              { exports := ∅, files := ∅ }
            = some index := by
  have ids : ((exports.map Published.manifest).map Manifest.id).Nodup := by
    rwa [List.map_map]
  have inserted := @Publication.foldlM_publish_fresh { exports := ∅, files := ∅ } _ ids
    (fun _ _ => Std.TreeMap.not_mem_emptyc) (fileIds_nodup distinct secure)
    fun _ _ => Std.TreeMap.not_mem_emptyc
  exact ⟨run_orderly, fileIds_nodup distinct secure, _, inserted⟩

end Published

/-- A worker that converts nothing, without failures of the file system. -/
def idleTools : Tools :=
  {
    read := fun _ => .error (.error "no file")
    bundleCrc := fun _ _ => .error (.error "no file")
    validate := fun _ => .ok ()
    createDir := .ok ()
    interrupted := fun _ => none
    pretty := fun _ => [0x7B, 0x7D]
    bankRows := fun _ => .error (.error "no bank")
    bankTracks := fun _ => .error (.error "no bank")
    bankAwb := fun _ => none
    extract := fun _ => .error (.error "no bank")
    decode := fun _ _ => .error (.error "no waveform")
    encode := fun _ _ _ => { content := none, result := .error (.error "no waveform") }
    video := fun _ => .error (.error "no video")
    encodeColor := fun _ _ => { content := none, result := .error (.error "no video") }
    encodeMask := fun _ _ _ => { content := none, result := .error (.error "no video") }
    gunzip := fun _ _ => .error (.error "no text")
    isJson := fun _ => false
    targets := fun _ _ => .error (.error "no bundle")
  }

/-- A bundle of the font. -/
def fontBundle (id : UInt32) (internal : String) : Catalogs.Location :=
  {
    id
    key := internal
    internal := "https://h/asset/Android/" ++ internal
    provider := "bundled"
    resourceType := "IAssetBundleResource"
    dependencies := []
    options := none
  }

/-- The archive of a font with two bundles. -/
def fontJob : Job :=
  {
    limits := { expandedBytes := 2 ^ 20, outputBytes := 2 ^ 20, memoryThreshold := 2 ^ 20 }
    target :=
      {
        id := 1
        key := "asset"
        internal := "font"
        provider := "bundled"
        resourceType := "UnityEngine.Font"
        dependencies := []
        options := none
      }
    inputs :=
      [{ location := fontBundle 2 "glyphs", path := "2" },
        { location := fontBundle 3 "shader", path := "3" }]
    archive := true
    fontReference :=
      some
        {
          key := "asset"
          resourceType := "UnityEngine.Font"
          selectedLocation := 1
          disposition := "reference"
          policy := "http-only"
          httpDependencies := []
          packageDependencies := []
        }
  }

/-- Tools that read the bundles. -/
def fontTools : Tools :=
  { idleTools with read := fun path => .ok (textBytes path), bundleCrc := fun _ _ => .ok 0 }

/-- The last stage of the archive. -/
def fontStage : Stage := (run List.reverse fontTools fontJob Stage.empty).last

/-- What the worker leaves of it. -/
def fontResult : Publication.WorkerResult :=
  { files := fontStage.out.files, error := none, empty := false }

/-- The limits and the digest of a service that publishes it. -/
def fontSettings : Publication.Settings :=
  {
    outputBytes := 2 ^ 20
    digest := fun text => digest List.reverse (textBytes text)
    encode := fun _ => []
  }

/-- The names of its exports under two keys. -/
def fontOrigin (key : String) : Publication.Job :=
  {
    id := Identity.exportId List.reverse { Identity.smallCall with key }
    snapshot := "s"
    key
  }

/-- The archive of a font is published under a key when its result is sealed. -/
theorem font_published {key : String}
    (passes
      : (Publication.sealOutput fontSettings (fontOrigin key) fontResult
          fontStage.toDirectory).isOk
        = true)
    : ∃ published : Published List.reverse,
        published.manifest.id = (fontOrigin key).id
        ∧ published.manifest.files.map (fun file => file.artifact.name)
          = ["00000.json", "00001.bundle", "00002.bundle"] := by
  have succeeds : (run List.reverse fontTools fontJob Stage.empty).result.isOk = true := by
    decide +kernel
  obtain ⟨outputs, ran⟩ := ok_of_isOk succeeds
  have worked : workerResult (run List.reverse fontTools fontJob Stage.empty).result
      = some fontResult := by
    rw [ran, (run_orderly fontTools fontJob).yields ran]
    rfl
  obtain ⟨⟨sealed, manifest⟩, accepted⟩ := ok_of_isOk passes
  let published : Published List.reverse :=
    {
      call := { Identity.smallCall with key }
      tools := fontTools
      job := fontJob
      settings := fontSettings
      origin := fontOrigin key
      result := fontResult
      output := fontStage.toDirectory
      sealed
      manifest
      digests := rfl
      identified := rfl
      worked
      accepted
    }
  obtain ⟨id, files, -⟩ := Publication.sealOutput_ids accepted
  have names : fontResult.files.map Artifact.name
      = ["00000.json", "00001.bundle", "00002.bundle"] := by
    decide +kernel
  refine ⟨published, id, ?_⟩
  rw [← names, ← files, List.map_map]
  rfl

/-- The archive of a font is published under two keys, and no file meets a row in use. -/
theorem outputs_distinct_font
    : ∃ first second : Published List.reverse,
        (Publication.fileIds first.manifest ++ Publication.fileIds second.manifest).length = 6
        ∧ (Publication.fileIds first.manifest ++ Publication.fileIds second.manifest).Nodup
        ∧ ∃ index,
            [first.manifest, second.manifest].foldlM Publication.Index.publish
                { exports := ∅, files := ∅ }
              = some index := by
  obtain ⟨first, id, names⟩ := @font_published "asset" (by decide +kernel)
  obtain ⟨second, id', names'⟩ := @font_published "font" (by decide +kernel)
  have length := congrArg List.length names
  have length' := congrArg List.length names'
  rw [List.length_map] at length length'
  have other : (fontOrigin "asset").id ≠ (fontOrigin "font").id := by decide +kernel
  have apart := @outputs_distinct List.reverse [first, second]
    (by simpa [id, id'] using other) fun _ _ _ _ => List.reverse_inj.mp
  have all : [first, second].map Published.manifest = [first.manifest, second.manifest] := rfl
  rw [all, List.flatMap_cons, List.flatMap_singleton] at apart
  obtain ⟨-, distinct, index, inserted⟩ := apart
  refine ⟨first, second, ?_, distinct, index, inserted⟩
  rw [List.length_append, Publication.fileIds, Publication.fileIds, List.length_map,
    List.length_map, length, length']
  rfl

end MoenotesAssets.Worker.Run
