import MoenotesAssets.Snapshots.Model

/-! What refreshes and lookups keep: the table against the files, the calls against the trace,
and the cache against the table.
-/

namespace MoenotesAssets.Snapshots
open Foundation Catalogs ObjectTree

-----------------------------------------------------------------------------------------
-- The table and the files
-----------------------------------------------------------------------------------------

section Records

variable {sha256 : List UInt8 → List UInt8} {Json : Type} {serde : Serde Json}
  {rows : Rows Json} {files later : String → Option (List UInt8)} {stage : Stage}

/-- A snapshot and its catalog belong to the bytes of a catalog. -/
structure Fits (sha256 : List UInt8 → List UInt8) (bytes : List UInt8) (snapshot : Snapshot)
    (catalog : Catalog) : Prop where
  parsed : parse bytes = .ok catalog
  content : snapshot.contentSha256 = digest sha256 bytes
  identified : ∃ config, snapshot.id = snapshotId sha256 config bytes

/-- A row is of a snapshot, for whose id there is a file. -/
def Recorded (sha256 : List UInt8 → List UInt8) (serde : Serde Json)
    (files : String → Option (List UInt8)) (id : String) (row : Row Json) : Prop :=
  (files id).isSome
  ∧ ∃ bytes snapshot catalog,
      row.body = serde.snapshotToString snapshot
      ∧ row.catalog = serde.catalogToString catalog
      ∧ snapshot.id = id
      ∧ Fits sha256 bytes snapshot catalog

/-- What holds of the table and the files in every state. -/
structure Stored (sha256 : List UInt8 → List UInt8) (serde : Serde Json) (rows : Rows Json)
    (files : String → Option (List UInt8)) : Prop where
  named : ∀ id bytes, files id = some bytes → ∃ config, id = snapshotId sha256 config bytes
  recorded : ∀ id row, rows[id]? = some row → Recorded sha256 serde files id row
  single : ∀ id other, rows.Current id → rows.Current other → id = other

/-- The bytes that a call carries belong to its snapshot, for whose id there is a file once it says
so.
-/
def Stage.Sound (sha256 : List UInt8 → List UInt8) (files : String → Option (List UInt8))
    : Stage → Prop
  | .described bytes snapshot catalog => Fits sha256 bytes snapshot catalog
  | .written bytes snapshot catalog => Fits sha256 bytes snapshot catalog
  | .placing bytes snapshot catalog => Fits sha256 bytes snapshot catalog
  | .placed bytes snapshot catalog =>
      Fits sha256 bytes snapshot catalog ∧ (files snapshot.id).isSome
  | _ => True

/-- A file that is kept is there. -/
theorem isSome_kept {id : String}
    (kept : ∀ id bytes, files id = some bytes → later id = some bytes) (there : (files id).isSome)
    : (later id).isSome := by
  obtain ⟨bytes, held⟩ := Option.isSome_iff_exists.mp there
  rw [kept id bytes held]
  rfl

/-- Files that are kept keep a call sound. -/
theorem Stage.Sound.mono (sound : stage.Sound sha256 files)
    (kept : ∀ id bytes, files id = some bytes → later id = some bytes)
    : stage.Sound sha256 later := by
  cases stage with
  | placed bytes snapshot catalog => exact ⟨sound.1, isSome_kept kept sound.2⟩
  | described bytes snapshot catalog => exact sound
  | written bytes snapshot catalog => exact sound
  | placing bytes snapshot catalog => exact sound
  | locking => trivial
  | fetchingHash => trivial
  | fetchingBin remoteHash => trivial
  | committed sid => trivial
  | returned result => trivial
  | died => trivial

/-- A call carries nothing any more when its process has died. -/
theorem Stage.killed_sound (sha256 : List UInt8 → List UInt8)
    (files : String → Option (List UInt8)) (stage : Stage)
    : stage.killed.Sound sha256 files := by
  cases stage <;> trivial

/-- A step of a call keeps it sound. -/
theorem Stage.Step.sound {config : Config} {cancelled : Bool} {next : Stage}
    (step : Stage.Step sha256 config files cancelled stage next)
    (sound : stage.Sound sha256 files)
    : next.Sound sha256 files := by
  cases step with
  | hash => trivial
  | bin created fetched parsed => exact ⟨parsed, rfl, config, rfl⟩
  | write => exact sound
  | found found => exact ⟨sound, found⟩
  | absent => exact sound

/-- A step of a call leads from a live one to a live one. -/
theorem Stage.Step.live {config : Config} {cancelled : Bool} {next : Stage}
    (step : Stage.Step sha256 config files cancelled stage next)
    : stage.live = true ∧ next.live = true := by
  cases step <;> exact ⟨rfl, rfl⟩

/-- A file is put in place where there is none. -/
theorem placed_keeps {id : String} {bytes : List UInt8} (absent : files id = none)
    : ∀ other content, files other = some content →
        Function.update files id (some bytes) other = some content := by
  intro other content held
  rw [Function.update_of_ne]
  · exact held
  · rintro rfl
    cases absent.symm.trans held

/-- The files of a snapshot keep what holds of the table. -/
theorem Stored.place (stored : Stored sha256 serde rows files) {bytes : List UInt8}
    {snapshot : Snapshot} {catalog : Catalog} (fits : Fits sha256 bytes snapshot catalog)
    (absent : files snapshot.id = none)
    : Stored sha256 serde rows (Function.update files snapshot.id (some bytes)) where
  named := by
    intro id content held
    rcases Table.update_cases held with ⟨rfl, rfl⟩ | ⟨-, before⟩
    · exact fits.identified
    · exact stored.named id content before
  recorded := by
    intro id row held
    obtain ⟨there, row⟩ := stored.recorded id row held
    exact ⟨isSome_kept (placed_keeps absent) there, row⟩
  single := stored.single

/-- A transaction keeps what holds of the table. -/
theorem Stored.record (stored : Stored sha256 serde rows files) {bytes : List UInt8}
    {snapshot : Snapshot} {catalog : Catalog} (fits : Fits sha256 bytes snapshot catalog)
    (there : (files snapshot.id).isSome)
    : Stored sha256 serde
        (recordSnapshot rows snapshot.id (serde.snapshotToString snapshot)
          (serde.catalogToString catalog)) files where
  named := stored.named
  recorded := by
    intro id row held
    have before : ∀ {old : Row Json}, rows[id]? = some old → row.body = old.body →
        row.catalog = old.catalog → Recorded sha256 serde files id row := by
      intro old found body column
      obtain ⟨there, content, described, parsed, same, same', rest⟩ :=
        stored.recorded id old found
      exact ⟨there, content, described, parsed, body.trans same, column.trans same', rest⟩
    rcases recordSnapshot_cases held with
      ⟨rfl, -, ⟨old, found, body, column⟩ | ⟨-, body, column⟩⟩
      | ⟨-, -, old, found, body, column⟩
    · exact before found body column
    · exact ⟨there, bytes, snapshot, catalog, body, column, rfl, fits⟩
    · exact before found body column
  single := by
    have only : ∀ {id}, Rows.Current (recordSnapshot rows snapshot.id
        (serde.snapshotToString snapshot) (serde.catalogToString catalog)) id →
        id = snapshot.id := by
      rintro id ⟨row, held, current⟩
      rcases recordSnapshot_cases held with ⟨here, -⟩ | ⟨-, idle, -⟩
      · exact here
      · cases current.symm.trans idle
    exact fun id other first second => (only first).trans (only second).symm

end Records

-----------------------------------------------------------------------------------------
-- Calls and the trace
-----------------------------------------------------------------------------------------

section Calls

variable {trace : List Label} {label : Label} {refreshes later : Nat → Option Refresh}
  {stage next : Stage}

/-- A call that has committed a snapshot, as far as can be seen. -/
def Stage.Committed (sid : String) (stage : Stage) : Prop :=
  stage = .committed sid ∨ stage = .returned (.ok sid) ∨ stage = .died

/-- A call moves on without a transaction and without an answer. -/
structure Stage.Calm (stage next : Stage) : Prop where
  committed : ∀ sid, stage.Committed sid → next.Committed sid
  failed : ∀ error, stage = .returned (.error error) → next = .returned (.error error)
  origin : ∀ sid, next = .committed sid → stage = .committed sid

/-- Standing still is calm. -/
theorem Stage.Calm.refl (stage : Stage) : stage.Calm stage :=
  ⟨fun _ same => same, fun _ same => same, fun _ same => same⟩

/-- A live call has committed nothing and returned nothing. -/
theorem Stage.live_open (live : stage.live = true)
    : (∀ sid, ¬ stage.Committed sid) ∧ ∀ result, stage ≠ .returned result := by
  constructor
  · rintro sid (rfl | rfl | rfl) <;> cases live
  · rintro result rfl
    cases live

/-- Live calls move calmly. -/
theorem Stage.Calm.live (before : stage.live = true) (after : next.live = true)
    : stage.Calm next where
  committed := fun sid committed => absurd committed ((live_open before).1 sid)
  failed := fun _ returned => absurd returned ((live_open before).2 _)
  origin := fun sid committed => absurd (Or.inl committed) ((live_open after).1 sid)

/-- A death is calm. -/
theorem Stage.Calm.killed (stage : Stage) : stage.Calm stage.killed := by
  refine ⟨?_, ?_, ?_⟩
  · rintro sid (rfl | rfl | rfl)
    · exact Or.inr (Or.inr rfl)
    · exact Or.inr (Or.inl rfl)
    · exact Or.inr (Or.inr rfl)
  · rintro error rfl
    rfl
  · intro sid committed
    cases stage <;> cases committed

/-- What the trace tells of the calls of `refresh`. -/
structure Told (trace : List Label) (refreshes : Nat → Option Refresh) : Prop where
  committed
    : ∀ call sid, Label.committed call sid ∈ trace
      → ∃ refresh, refreshes call = some refresh ∧ refresh.stage.Committed sid
  failed
    : ∀ call error, Label.refreshed call (.error error) ∈ trace
      → (∃ refresh, refreshes call = some refresh ∧ refresh.stage = .returned (.error error))
        ∧ ∀ sid, Label.committed call sid ∉ trace
  succeeded
    : ∀ call sid, Label.refreshed call (.ok sid) ∈ trace → Label.committed call sid ∈ trace
  pending
    : ∀ call refresh sid, refreshes call = some refresh → refresh.stage = .committed sid
      → Label.committed call sid ∈ trace

/-- Calls that move calmly are told the same. -/
theorem Told.calm (told : Told trace refreshes)
    (quiet
      : (∀ call sid, label ≠ .committed call sid) ∧ ∀ call result, label ≠ .refreshed call result)
    (moved
      : ∀ call refresh, refreshes call = some refresh
        → ∃ other, later call = some other ∧ refresh.stage.Calm other.stage)
    (origin
      : ∀ call other sid, later call = some other → other.stage = .committed sid
        → ∃ refresh, refreshes call = some refresh ∧ refresh.stage = .committed sid)
    : Told (trace ++ [label]) later := by
  have committed : ∀ {call sid}, Label.committed call sid ∈ trace ++ [label] →
      Label.committed call sid ∈ trace := by
    intro call sid member
    rcases System.mem_concat_cases member with before | new
    · exact before
    · exact absurd new.symm (quiet.1 call sid)
  have refreshed : ∀ {call result}, Label.refreshed call result ∈ trace ++ [label] →
      Label.refreshed call result ∈ trace := by
    intro call result member
    rcases System.mem_concat_cases member with before | new
    · exact before
    · exact absurd new.symm (quiet.2 call result)
  refine ⟨?_, ?_, ?_, ?_⟩
  · intro call sid member
    obtain ⟨refresh, held, stands⟩ := told.committed call sid (committed member)
    obtain ⟨other, present, calm⟩ := moved call refresh held
    exact ⟨other, present, calm.committed sid stands⟩
  · intro call error member
    obtain ⟨⟨refresh, held, stands⟩, never⟩ := told.failed call error (refreshed member)
    obtain ⟨other, present, calm⟩ := moved call refresh held
    exact ⟨⟨other, present, calm.failed error stands⟩,
      fun sid seen => never sid (committed seen)⟩
  · intro call sid member
    exact List.mem_append_left _ (told.succeeded call sid (refreshed member))
  · intro call other sid present stands
    obtain ⟨refresh, held, before⟩ := origin call other sid present stands
    exact List.mem_append_left _ (told.pending call refresh sid held before)

/-- One call that moves calmly, next to others that stand still. -/
theorem Told.step (told : Told trace refreshes) {call : Nat} {refresh next : Refresh}
    (held : refreshes call = some refresh) (calm : refresh.stage.Calm next.stage)
    : Told (trace ++ [.silent]) (Function.update refreshes call (some next)) := by
  refine told.calm ⟨fun _ _ absurd' => (nomatch absurd'), fun _ _ absurd' => (nomatch absurd')⟩
    ?_ ?_
  · intro other before found
    by_cases here : other = call
    · subst here
      cases held.symm.trans found
      exact ⟨next, Function.update_self .., calm⟩
    · exact ⟨before, (Function.update_of_ne here _ _).trans found, .refl _⟩
  · intro other found sid present stands
    rcases Table.update_cases present with ⟨rfl, rfl⟩ | ⟨-, before⟩
    · exact ⟨refresh, held, calm.origin sid stands⟩
    · exact ⟨found, before, stands⟩

/-- What is told of a committed snapshot stays true when another call moves. -/
theorem Told.committed_elsewhere (told : Told trace refreshes) {call other : Nat} {sid : String}
    (before : Label.committed other sid ∈ trace) (apart : other ≠ call) (next : Refresh)
    : ∃ found,
        Function.update refreshes call (some next) other = some found
        ∧ found.stage.Committed sid := by
  obtain ⟨found, present, stands⟩ := told.committed other sid before
  exact ⟨found, (Function.update_of_ne apart _ _).trans present, stands⟩

/-- What is told of an error stays true when a call moves that returned none. -/
theorem Told.failed_elsewhere (told : Told trace refreshes) {call other : Nat}
    {refresh : Refresh} {error : String} (held : refreshes call = some refresh)
    (unreturned : refresh.stage ≠ .returned (.error error))
    (before : Label.refreshed other (.error error) ∈ trace) (next : Refresh)
    : other ≠ call
      ∧ (∃ found,
          Function.update refreshes call (some next) other = some found
          ∧ found.stage = .returned (.error error))
      ∧ ∀ sid, Label.committed other sid ∉ trace := by
  obtain ⟨⟨found, present, stands⟩, never⟩ := told.failed other error before
  have apart : other ≠ call := by
    rintro rfl
    cases held.symm.trans present
    exact unreturned stands
  exact ⟨apart, ⟨found, (Function.update_of_ne apart _ _).trans present, stands⟩, never⟩

/-- A live call has committed nothing. -/
theorem Told.uncommitted (told : Told trace refreshes) {call : Nat} {refresh : Refresh}
    (held : refreshes call = some refresh) (live : refresh.stage.live = true) (sid : String)
    : Label.committed call sid ∉ trace := by
  intro before
  obtain ⟨found, present, stands⟩ := told.committed call sid before
  cases held.symm.trans present
  exact (Stage.live_open live).1 sid stands

/-- The transaction of a live call is told. -/
theorem Told.commit (told : Told trace refreshes) {call : Nat} {refresh : Refresh} (sid : String)
    (held : refreshes call = some refresh) (live : refresh.stage.live = true)
    : Told (trace ++ [.committed call sid])
        (Function.update refreshes call (some { refresh with stage := .committed sid })) := by
  refine ⟨?_, ?_, ?_, ?_⟩
  · intro other sid' member
    rcases System.mem_concat_cases member with before | new
    · refine told.committed_elsewhere before ?_ _
      rintro rfl
      exact told.uncommitted held live sid' before
    · cases new
      exact ⟨_, Function.update_self .., Or.inl rfl⟩
  · intro other error member
    rcases System.mem_concat_cases member with before | new
    · obtain ⟨apart, stands, never⟩ :=
        told.failed_elsewhere held ((Stage.live_open live).2 _) before _
      refine ⟨stands, fun sid' seen => ?_⟩
      rcases System.mem_concat_cases seen with earlier | last
      · exact never sid' earlier
      · cases last
        exact apart rfl
    · cases new
  · intro other sid' member
    rcases System.mem_concat_cases member with before | new
    · exact List.mem_append_left _ (told.succeeded other sid' before)
    · cases new
  · intro other found sid' present stands
    rcases Table.update_cases present with ⟨rfl, rfl⟩ | ⟨-, before⟩
    · cases stands
      exact List.mem_append_right _ List.mem_cons_self
    · exact List.mem_append_left _ (told.pending other found sid' before stands)

/-- The answer of a call that has committed is told. -/
theorem Told.succeed (told : Told trace refreshes) {call : Nat} {refresh : Refresh} {sid : String}
    (held : refreshes call = some refresh) (stage : refresh.stage = .committed sid)
    : Told (trace ++ [.refreshed call (.ok sid)])
        (Function.update refreshes call
          (some { refresh with stage := .returned (.ok sid) })) := by
  refine ⟨?_, ?_, ?_, ?_⟩
  · intro other sid' member
    rcases System.mem_concat_cases member with before | new
    · by_cases here : other = call
      · subst here
        obtain ⟨found, present, stands⟩ := told.committed other sid' before
        cases held.symm.trans present
        rw [stage] at stands
        rcases stands with same | same | same
        · cases same
          exact ⟨_, Function.update_self .., Or.inr (Or.inl rfl)⟩
        · cases same
        · cases same
      · exact told.committed_elsewhere before here _
    · cases new
  · intro other error member
    rcases System.mem_concat_cases member with before | new
    · have unreturned : refresh.stage ≠ .returned (.error error) := by
        rw [stage]
        exact Stage.noConfusion
      obtain ⟨-, stands, never⟩ := told.failed_elsewhere held unreturned before _
      refine ⟨stands, fun sid' seen => ?_⟩
      rcases System.mem_concat_cases seen with earlier | last
      · exact never sid' earlier
      · cases last
    · cases new
  · intro other sid' member
    rcases System.mem_concat_cases member with before | new
    · exact List.mem_append_left _ (told.succeeded other sid' before)
    · cases new
      exact List.mem_append_left _ (told.pending call refresh sid held stage)
  · intro other found sid' present stands
    rcases Table.update_cases present with ⟨rfl, rfl⟩ | ⟨-, before⟩
    · cases stands
    · exact List.mem_append_left _ (told.pending other found sid' before stands)

/-- The error of a live call is told, and that it committed nothing. -/
theorem Told.fail (told : Told trace refreshes) {call : Nat} {refresh : Refresh} (error : String)
    (held : refreshes call = some refresh) (live : refresh.stage.live = true)
    : Told (trace ++ [.refreshed call (.error error)])
        (Function.update refreshes call
          (some { refresh with stage := .returned (.error error) })) := by
  refine ⟨?_, ?_, ?_, ?_⟩
  · intro other sid member
    rcases System.mem_concat_cases member with before | new
    · refine told.committed_elsewhere before ?_ _
      rintro rfl
      exact told.uncommitted held live sid before
    · cases new
  · intro other error' member
    rcases System.mem_concat_cases member with before | new
    · obtain ⟨-, stands, never⟩ :=
        told.failed_elsewhere held ((Stage.live_open live).2 _) before _
      refine ⟨stands, fun sid seen => ?_⟩
      rcases System.mem_concat_cases seen with earlier | last
      · exact never sid earlier
      · cases last
    · cases new
      refine ⟨⟨_, Function.update_self .., rfl⟩, fun sid seen => ?_⟩
      rcases System.mem_concat_cases seen with earlier | last
      · exact told.uncommitted held live sid earlier
      · cases last
  · intro other sid member
    rcases System.mem_concat_cases member with before | new
    · exact List.mem_append_left _ (told.succeeded other sid before)
    · cases new
  · intro other found sid present stands
    rcases Table.update_cases present with ⟨rfl, rfl⟩ | ⟨-, before⟩
    · cases stands
    · exact List.mem_append_left _ (told.pending other found sid before stands)

end Calls

end MoenotesAssets.Snapshots
