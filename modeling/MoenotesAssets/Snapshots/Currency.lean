import MoenotesAssets.Snapshots.Stability

/-! The contract of refreshes and lookups: which snapshot is current, and what an id stands for. -/

namespace MoenotesAssets.Snapshots
open Foundation Catalogs ObjectTree

section Contract

variable {sha256 : List UInt8 → List UInt8} {Json : Type} {serde : Serde Json}
  {trace : List Label} {label : Label} {world after : World Json} {rows newer : Rows Json}

-----------------------------------------------------------------------------------------
-- Rows over time
-----------------------------------------------------------------------------------------

/-- Rows keep their bodies and their catalogs. -/
def Rows.Keeps (rows newer : Rows Json) : Prop :=
  ∀ (id : String) (row : Row Json), rows[id]? = some row →
    ∃ other : Row Json,
      newer[id]? = some other ∧ other.body = row.body ∧ other.catalog = row.catalog

/-- A table keeps its own rows. -/
theorem Rows.Keeps.refl (rows : Rows Json) : rows.Keeps rows :=
  fun _ row held => ⟨row, held, rfl, rfl⟩

/-- Rows are kept over two stretches. -/
theorem Rows.Keeps.trans {last : Rows Json} (first : rows.Keeps newer) (second : newer.Keeps last)
    : rows.Keeps last := by
  intro id row held
  obtain ⟨other, found, body, column⟩ := first id row held
  obtain ⟨final, present, body', column'⟩ := second id other found
  exact ⟨final, present, body'.trans body, column'.trans column⟩

/-- A value is what the row of an id is read as. -/
def Reads (serde : Serde Json) (rows : Rows Json) (sid : String) (value : Snapshot × Catalog)
    : Prop :=
  ∃ row,
    rows[sid]? = some row
    ∧ serde.snapshotFromStr row.body = .ok value.1
    ∧ serde.catalogFromStr row.catalog = .ok value.2

/-- What a row is read as stays. -/
theorem Reads.later {sid : String} {value : Snapshot × Catalog} (reads : Reads serde rows sid value)
    (keeps : rows.Keeps newer)
    : Reads serde newer sid value := by
  obtain ⟨row, held, body, column⟩ := reads
  obtain ⟨other, found, same, same'⟩ := keeps sid row held
  exact ⟨other, found, by rw [same, body], by rw [same', column]⟩

/-- A row is read as one value. -/
theorem Reads.unique {sid : String} {value other : Snapshot × Catalog}
    (reads : Reads serde rows sid value) (reads' : Reads serde rows sid other)
    : value = other := by
  obtain ⟨row, held, body, column⟩ := reads
  obtain ⟨row', held', body', column'⟩ := reads'
  cases held.symm.trans held'
  exact Prod.ext (Except.ok.inj (body.symm.trans body')) (Except.ok.inj (column.symm.trans column'))

-----------------------------------------------------------------------------------------
-- The law of a history
-----------------------------------------------------------------------------------------

/-- What holds along every history. -/
structure Lawful (sha256 : List UInt8 → List UInt8) (serde : Serde Json) (trace : List Label)
    (world : World Json) : Prop where
  stored : Stored sha256 serde world.rows world.files
  sound
    : ∀ call refresh, world.refreshes call = some refresh
      → refresh.stage.Sound sha256 world.files
  told : Told trace world.refreshes
  current : (∃ call sid, Label.committed call sid ∈ trace) → ∃ id, world.rows.Current id
  cached
    : ∀ app sid value, world.app = some app → app.catalogCache[sid]? = some value
      → Reads serde world.rows sid value
  looked
    : ∀ call sid value, Label.looked call sid value ∈ trace → Reads serde world.rows sid value

/-- An empty data directory is lawful. -/
theorem Lawful.empty : Lawful sha256 serde [] (World.empty Json) where
  stored := {
    named := fun _ _ absurd' => (nomatch absurd')
    recorded := by
      intro id row held
      rw [show (World.empty Json).rows[id]? = none from Std.TreeMap.getElem?_emptyc] at held
      cases held
    single := by
      rintro id other ⟨row, held, -⟩
      rw [show (World.empty Json).rows[id]? = none from Std.TreeMap.getElem?_emptyc] at held
      cases held
  }
  sound := fun _ _ absurd' => (nomatch absurd')
  told := {
    committed := fun _ _ absurd' => (nomatch absurd')
    failed := fun _ _ absurd' => (nomatch absurd')
    succeeded := fun _ _ absurd' => (nomatch absurd')
    pending := fun _ _ _ absurd' => (nomatch absurd')
  }
  current := by
    rintro ⟨call, sid, absurd'⟩
    cases absurd'
  cached := fun _ _ _ absurd' => (nomatch absurd')
  looked := fun _ _ _ absurd' => (nomatch absurd')

/-- Calls of `refresh` move on while the table stays. -/
theorem Lawful.move (lawful : Lawful sha256 serde trace world)
    {refreshes : Nat → Option Refresh} {files : String → Option (List UInt8)} {app : Option App}
    (quiet
      : (∀ call sid, label ≠ .committed call sid)
        ∧ ∀ call sid value, label ≠ .looked call sid value)
    (stored : Stored sha256 serde world.rows files)
    (sound : ∀ call refresh, refreshes call = some refresh → refresh.stage.Sound sha256 files)
    (told : Told (trace ++ [label]) refreshes)
    (cached
      : ∀ found, app = some found →
          ∃ old, world.app = some old ∧ found.catalogCache = old.catalogCache)
    : Lawful sha256 serde (trace ++ [label]) { rows := world.rows, files, refreshes, app } where
  stored := stored
  sound := sound
  told := told
  current := by
    rintro ⟨call, sid, member⟩
    rcases System.mem_concat_cases member with before | new
    · exact lawful.current ⟨call, sid, before⟩
    · exact absurd new.symm (quiet.1 call sid)
  cached := by
    intro found sid value opened held
    obtain ⟨old, before, same⟩ := cached found opened
    rw [same] at held
    exact lawful.cached old sid value before held
  looked := by
    intro call sid value member
    rcases System.mem_concat_cases member with before | new
    · exact lawful.looked call sid value before
    · exact absurd new.symm (quiet.2 call sid value)

/-- A process and its lookups move on while everything else stays. -/
theorem Lawful.serve (lawful : Lawful sha256 serde trace world) {app : App}
    (quiet
      : (∀ call sid, label ≠ .committed call sid) ∧ ∀ call result, label ≠ .refreshed call result)
    (looked : ∀ call sid value, label = .looked call sid value → Reads serde world.rows sid value)
    (cached
      : ∀ sid value, app.catalogCache[sid]? = some value → Reads serde world.rows sid value)
    : Lawful sha256 serde (trace ++ [label]) { world with app := some app } where
  stored := lawful.stored
  sound := lawful.sound
  told := by
    refine lawful.told.calm quiet ?_ ?_
    · exact fun call refresh held => ⟨refresh, held, .refl _⟩
    · exact fun call other sid held stands => ⟨other, held, stands⟩
  current := by
    rintro ⟨call, sid, member⟩
    rcases System.mem_concat_cases member with before | new
    · exact lawful.current ⟨call, sid, before⟩
    · exact absurd new.symm (quiet.1 call sid)
  cached := by
    intro found sid value opened held
    cases opened
    exact cached sid value held
  looked := by
    intro call sid value member
    rcases System.mem_concat_cases member with before | new
    · exact lawful.looked call sid value before
    · exact looked call sid value new.symm

/-- A step leaves the table alone unless it is a transaction, which records a snapshot. -/
theorem World.Step.rows_cases (step : World.Step sha256 serde world label after)
    : after.rows = world.rows
      ∨ ∃ call sid body catalog,
          label = .committed call sid
          ∧ after.rows = recordSnapshot world.rows sid body catalog := by
  cases step with
  | commits => exact Or.inr ⟨_, _, _, _, rfl, rfl⟩
  | _ => exact Or.inl rfl

/-- A step keeps the rows. -/
theorem World.Step.keeps (step : World.Step sha256 serde world label after)
    : world.rows.Keeps after.rows := by
  rcases step.rows_cases with same | ⟨call, sid, body, catalog, -, recorded⟩
  · rw [same]
    exact .refl _
  · rw [recorded]
    exact fun id row held => recordSnapshot_keeps held sid body catalog

/-- Calls stay sound when one of them moves to a sound stage. -/
theorem sound_update {refreshes : Nat → Option Refresh} {files : String → Option (List UInt8)}
    (sound : ∀ call refresh, refreshes call = some refresh → refresh.stage.Sound sha256 files)
    {call : Nat} {next : Refresh} (moved : next.stage.Sound sha256 files)
    : ∀ other refresh, Function.update refreshes call (some next) other = some refresh →
        refresh.stage.Sound sha256 files := by
  intro other refresh held
  rcases Table.update_cases held with ⟨-, rfl⟩ | ⟨-, before⟩
  · exact moved
  · exact sound other refresh before

/-- An entry that a purge of the cache leaves was there before. -/
theorem filter_cached {cache : Std.TreeMap String (Snapshot × Catalog)} {keep : String → Bool}
    {sid : String} {value : Snapshot × Catalog}
    (held : (cache.filter fun key _ => keep key)[sid]? = some value)
    : cache[sid]? = some value := by
  rw [Std.TreeMap.getElem?_filter'] at held
  exact (Option.filter_eq_some_iff.mp held).1

/-- Steps that nobody sees are no transactions, answers or results. -/
theorem silent_quiet
    : (∀ call sid, Label.silent ≠ .committed call sid)
      ∧ (∀ call result, Label.silent ≠ .refreshed call result)
      ∧ ∀ call sid value, Label.silent ≠ .looked call sid value :=
  ⟨fun _ _ absurd' => (nomatch absurd'), fun _ _ absurd' => (nomatch absurd'),
    fun _ _ _ absurd' => (nomatch absurd')⟩

/-- The law survives every step. -/
theorem World.Step.lawful (step : World.Step sha256 serde world label after)
    (lawful : Lawful sha256 serde trace world)
    : Lawful sha256 serde (trace ++ [label]) after := by
  obtain ⟨uncommitted, unanswered, unlooked⟩ := silent_quiet
  have unchanged : ∀ {app : App} {found : App} {lock : Option Nat}, world.app = some app →
      some { app with refreshLock := lock } = some found →
      ∃ old, world.app = some old ∧ found.catalogCache = old.catalogCache := by
    rintro app found lock runs same
    cases same
    exact ⟨app, runs, rfl⟩
  cases step with
  | opens config closed =>
      refine lawful.serve ⟨uncommitted, unanswered⟩ (fun _ _ _ absurd' => (nomatch absurd')) ?_
      intro sid value held
      rw [show (App.opened config).catalogCache[sid]? = none from Std.TreeMap.getElem?_emptyc]
        at held
      cases held
  | dies =>
      refine lawful.move ⟨uncommitted, unlooked⟩ lawful.stored ?_ ?_
        (fun _ absurd' => (nomatch absurd'))
      · intro call refresh held
        obtain ⟨old, -, rfl⟩ := Option.map_eq_some_iff.mp held
        exact Stage.killed_sound sha256 world.files old.stage
      · refine lawful.told.calm ⟨uncommitted, unanswered⟩ ?_ ?_
        · intro call refresh held
          exact ⟨_, Option.map_eq_some_iff.mpr ⟨refresh, held, rfl⟩, .killed _⟩
        · intro call other sid held stands
          obtain ⟨old, before, rfl⟩ := Option.map_eq_some_iff.mp held
          exact ⟨old, before, (Stage.Calm.killed old.stage).origin sid stands⟩
  | @begins app call runs fresh =>
      refine lawful.move ⟨uncommitted, unlooked⟩ lawful.stored
        (sound_update lawful.sound trivial) ?_ (fun found same => ⟨found, same, rfl⟩)
      refine lawful.told.calm ⟨uncommitted, unanswered⟩ ?_ ?_
      · intro other refresh held
        refine ⟨refresh, (Function.update_of_ne ?_ _ _).trans held, .refl _⟩
        rintro rfl
        cases fresh.symm.trans held
      · intro other found sid held stands
        rcases Table.update_cases held with ⟨-, rfl⟩ | ⟨-, before⟩
        · cases stands
        · exact ⟨found, before, stands⟩
  | @cancels app call refresh runs held =>
      have sound : refresh.stage.Sound sha256 world.files := lawful.sound call refresh held
      exact lawful.move ⟨uncommitted, unlooked⟩ lawful.stored (sound_update lawful.sound sound)
        (lawful.told.step held (.refl _)) (fun found same => ⟨found, same, rfl⟩)
  | locks runs held stage free =>
      exact lawful.move ⟨uncommitted, unlooked⟩ lawful.stored
        (sound_update lawful.sound trivial)
        (lawful.told.step held (.live (by rw [stage]; rfl) rfl))
        (fun found same => unchanged runs same)
  | advances runs held step =>
      exact lawful.move ⟨uncommitted, unlooked⟩ lawful.stored
        (sound_update lawful.sound (step.sound (lawful.sound _ _ held)))
        (lawful.told.step held (.live step.live.1 step.live.2))
        (fun found same => ⟨found, same, rfl⟩)
  | @places app call refresh bytes snapshot catalog runs held stage absent =>
      have fits : Fits sha256 bytes snapshot catalog := by
        have sound := lawful.sound call refresh held
        rwa [stage] at sound
      have kept : ∀ call refresh, world.refreshes call = some refresh →
          refresh.stage.Sound sha256 (Function.update world.files snapshot.id (some bytes)) :=
        fun call refresh held => (lawful.sound call refresh held).mono (placed_keeps absent)
      exact lawful.move ⟨uncommitted, unlooked⟩ (lawful.stored.place fits absent)
        (sound_update kept ⟨fits, by rw [Function.update_self]; rfl⟩)
        (lawful.told.step held (.live (by rw [stage]; rfl) rfl))
        (fun found same => ⟨found, same, rfl⟩)
  | @commits app call refresh bytes snapshot catalog runs held stage =>
      have sound := lawful.sound call refresh held
      rw [stage] at sound
      have keeps : world.rows.Keeps (recordSnapshot world.rows snapshot.id
          (serde.snapshotToString snapshot) (serde.catalogToString catalog)) :=
        fun id row held => recordSnapshot_keeps held _ _ _
      refine ⟨lawful.stored.record sound.1 sound.2, sound_update lawful.sound trivial,
        lawful.told.commit snapshot.id held (by rw [stage]; rfl), ?_, ?_, ?_⟩
      · exact fun _ => ⟨snapshot.id, recordSnapshot_self ..⟩
      · exact fun app sid value opened cached =>
          (lawful.cached app sid value opened cached).later keeps
      · intro other sid value member
        rcases System.mem_concat_cases member with before | new
        · exact (lawful.looked other sid value before).later keeps
        · cases new
  | succeeds runs held stage =>
      exact lawful.move
        ⟨fun _ _ absurd' => (nomatch absurd'), fun _ _ _ absurd' => (nomatch absurd')⟩
        lawful.stored (sound_update lawful.sound trivial) (lawful.told.succeed held stage)
        (fun found same => unchanged runs same)
  | fails error runs held live =>
      exact lawful.move
        ⟨fun _ _ absurd' => (nomatch absurd'), fun _ _ _ absurd' => (nomatch absurd')⟩
        lawful.stored (sound_update lawful.sound trivial) (lawful.told.fail error held live)
        (fun found same => unchanged runs same)
  | @looks app call id runs fresh =>
      exact lawful.serve ⟨uncommitted, unanswered⟩ (fun _ _ _ absurd' => (nomatch absurd'))
        (lawful.cached app · · runs)
  | @names app call sid runs held current =>
      exact lawful.serve ⟨uncommitted, unanswered⟩ (fun _ _ _ absurd' => (nomatch absurd'))
        (lawful.cached app · · runs)
  | @hits app call sid value runs held free found =>
      refine lawful.serve
        ⟨fun _ _ absurd' => (nomatch absurd'), fun _ _ absurd' => (nomatch absurd')⟩ ?_
        (lawful.cached app · · runs)
      intro other seen result same
      cases same
      exact lawful.cached app sid value runs found
  | @misses app call sid keep runs held free missing room =>
      exact lawful.serve ⟨uncommitted, unanswered⟩ (fun _ _ _ absurd' => (nomatch absurd'))
        (fun seen value found => lawful.cached app seen value runs (filter_cached found))
  | @full app call sid keep runs held free missing full =>
      exact lawful.serve ⟨uncommitted, unanswered⟩ (fun _ _ _ absurd' => (nomatch absurd'))
        (fun seen value found => lawful.cached app seen value runs (filter_cached found))
  | @reads app call sid row snapshot catalog runs held found body parsed =>
      have read : Reads serde world.rows sid (snapshot, catalog) := ⟨row, found, body, parsed⟩
      refine lawful.serve
        ⟨fun _ _ absurd' => (nomatch absurd'), fun _ _ absurd' => (nomatch absurd')⟩ ?_ ?_
      · intro other seen result same
        cases same
        exact read
      · intro seen value present
        rcases Table.insert_cases present with ⟨rfl, rfl⟩ | ⟨-, before⟩
        · exact read
        · exact lawful.cached app seen value runs before
  | @breaks app call lookup error runs held live =>
      exact lawful.serve ⟨uncommitted, unanswered⟩ (fun _ _ _ absurd' => (nomatch absurd'))
        (lawful.cached app · · runs)

/-- The law holds along every execution. -/
theorem lawful_execution
    (execution : (refreshing sha256 serde).Execution trace world)
    : Lawful sha256 serde trace world := by
  refine System.Execution.history (I := Lawful sha256 serde) ?_ ?_ execution
  · rintro world rfl
    exact .empty
  · exact fun _ lawful step => step.lawful lawful

/-- Rows are kept along a path, by induction on its steps. -/
theorem rows_keep {middle : World Json}
    (path : (refreshing sha256 serde).Path middle trace world)
    : middle.rows.Keeps world.rows := by
  induction path with
  | here => exact .refl _
  | next path step ih => exact ih.trans step.keeps

/-- The catalog of a row is parsed from bytes with the recorded digest, and its file, which was
named after its own content, has these bytes unless what was digested for the two names collides.
-/
def Backed (sha256 : List UInt8 → List UInt8) (serde : Serde Json)
    (files : String → Option (List UInt8)) (sid : String) (row : Row Json) : Prop :=
  ∃ snapshot read bytes catalog file config config',
    serde.snapshotFromStr row.body = .ok snapshot
    ∧ serde.catalogFromStr row.catalog = .ok read
    ∧ snapshot.id = sid
    ∧ snapshot.contentSha256 = digest sha256 bytes
    ∧ parse bytes = .ok catalog
    ∧ read.Same catalog
    ∧ files sid = some file
    ∧ sid = snapshotId sha256 config bytes
    ∧ sid = snapshotId sha256 config' file
    ∧ (NoCollision sha256 (digested sha256 config bytes ++ digested sha256 config' file)
      → file = bytes)

/-- What is recorded with a row backs it. -/
theorem Stored.backed {files : String → Option (List UInt8)}
    (stored : Stored sha256 serde rows files) (roundTrips : serde.RoundTrips)
    {sid : String} {row : Row Json} (held : rows[sid]? = some row)
    : Backed sha256 serde files sid row := by
  obtain ⟨there, bytes, snapshot, catalog, body, column, same, fits⟩ := stored.recorded sid row held
  obtain ⟨file, content⟩ := Option.isSome_iff_exists.mp there
  obtain ⟨config, identified⟩ := fits.identified
  obtain ⟨config', named⟩ := stored.named sid file content
  obtain ⟨read, reads, entries⟩ := roundTrips.catalog catalog
  rw [same] at identified
  refine ⟨snapshot, read, bytes, catalog, file, config, config', ?_, ?_, same, fits.content,
    fits.parsed, entries, content, identified, named, fun secure => ?_⟩
  · rw [body, roundTrips.snapshot]
  · rw [column, reads]
  · exact (snapshotId_bytes secure (identified.symm.trans named)).symm

/-- For every interleaving of refreshes and lookups: one snapshot at most is current, and one
is once a refresh has succeeded; the table changes by transactions only, which make their
snapshot current, and a refresh that returns an error has had none; a row keeps its body and its
catalog; lookups of an id return one value, which is the row's; and the catalog of a row is
parsed from the bytes in its file, which have the recorded digest.
-/
theorem snapshots_stay_put (roundTrips : serde.RoundTrips)
    (execution : (refreshing sha256 serde).Execution trace world)
    : (∀ id other, world.rows.Current id → world.rows.Current other → id = other)
      ∧ (∀ call sid, Label.refreshed call (.ok sid) ∈ trace → ∃! id, world.rows.Current id)
      ∧ (∀ label after,
          World.Step sha256 serde world label after
          → (∀ call sid, label = .committed call sid → after.rows.Current sid)
            ∧ ((∀ call sid, label ≠ .committed call sid) → after.rows = world.rows))
      ∧ (∀ call error,
          Label.refreshed call (.error error) ∈ trace → ∀ sid, Label.committed call sid ∉ trace)
      ∧ (∀ first second middle,
          (refreshing sha256 serde).Execution first middle
          → (refreshing sha256 serde).Path middle second world
          → middle.rows.Keeps world.rows)
      ∧ (∀ call sid value,
          Label.looked call sid value ∈ trace
          → Reads serde world.rows sid value
            ∧ ∀ other value', Label.looked other sid value' ∈ trace → value' = value)
      ∧ ∀ sid row, world.rows[sid]? = some row → Backed sha256 serde world.files sid row := by
  have lawful := lawful_execution execution
  refine ⟨lawful.stored.single, ?some, ?steps, ?failed, ?kept, ?looked, ?parsed⟩
  case some =>
    intro call sid succeeded
    obtain ⟨id, current⟩ := lawful.current ⟨call, sid, lawful.told.succeeded call sid succeeded⟩
    exact ⟨id, current, fun other found => lawful.stored.single other id found current⟩
  case steps =>
    intro label after step
    refine ⟨?_, ?_⟩
    · rintro call sid rfl
      cases step with
      | commits => exact recordSnapshot_self ..
    · intro calm
      rcases step.rows_cases with same | ⟨call, sid, body, catalog, committed, -⟩
      · exact same
      · exact absurd committed (calm call sid)
  case failed => exact fun call error failed => (lawful.told.failed call error failed).2
  case kept => exact fun first second middle _ path => rows_keep path
  case looked =>
    intro call sid value looked
    have reads := lawful.looked call sid value looked
    exact ⟨reads, fun other value' again => (lawful.looked other sid value' again).unique reads⟩
  case parsed => exact fun sid row held => lawful.stored.backed roundTrips held

end Contract

-----------------------------------------------------------------------------------------
-- A sample
-----------------------------------------------------------------------------------------

/-- A catalog with two bundles. -/
def sampleFile : List UInt8 :=
  [66, 137, 227, 13, 2, 0, 0, 0, 124, 1, 0, 0, 0, 0, 0, 0, 0, 0, 0, 0, 0, 0, 0, 0, 0, 0, 0, 0,
    0, 0, 0, 0, 13, 0, 0, 0, 83, 121, 115, 116, 101, 109, 46, 83, 116, 114, 105, 110, 103, 0, 0,
    0, 0, 36, 0, 0, 0, 74, 0, 0, 0, 85, 110, 105, 116, 121, 69, 110, 103, 105, 110, 101, 46, 82,
    101, 115, 111, 117, 114, 99, 101, 77, 97, 110, 97, 103, 101, 109, 101, 110, 116, 46, 82, 101,
    115, 111, 117, 114, 99, 101, 80, 114, 111, 118, 105, 100, 101, 114, 115, 46, 65, 115, 115,
    101, 116, 66, 117, 110, 100, 108, 101, 82, 101, 113, 117, 101, 115, 116, 79, 112, 116, 105,
    111, 110, 115, 0, 0, 0, 0, 61, 0, 0, 0, 1, 0, 0, 0, 112, 1, 0, 0, 0, 97, 11, 0, 0, 0, 104,
    116, 116, 112, 115, 58, 47, 47, 104, 47, 97, 0, 0, 0, 0, 0, 0, 0, 0, 0, 0, 0, 0, 0, 0, 0, 0,
    168, 0, 0, 0, 152, 0, 0, 0, 7, 0, 0, 0, 9, 0, 0, 0, 0, 0, 0, 0, 135, 0, 0, 0, 184, 0, 0, 0,
    152, 0, 0, 0, 157, 0, 0, 0, 147, 0, 0, 0, 255, 255, 255, 255, 0, 0, 0, 0, 204, 0, 0, 0, 49, 0,
    0, 0, 4, 0, 0, 0, 212, 0, 0, 0, 152, 0, 0, 0, 47, 0, 49, 0, 0, 0, 248, 0, 0, 0, 1, 0, 0, 0,
    98, 11, 0, 0, 0, 104, 116, 116, 112, 115, 58, 47, 47, 104, 47, 98, 0, 0, 0, 0, 0, 0, 0, 0, 0,
    0, 0, 0, 0, 0, 0, 0, 26, 1, 0, 0, 10, 1, 0, 0, 7, 0, 0, 0, 9, 0, 0, 0, 0, 0, 0, 0, 135, 0, 0,
    0, 42, 1, 0, 0, 10, 1, 0, 0, 15, 1, 0, 0, 147, 0, 0, 0, 255, 255, 255, 255, 0, 0, 0, 0, 62, 1,
    0, 0, 49, 0, 0, 0, 4, 0, 0, 0, 70, 1, 0, 0, 10, 1, 0, 0, 47, 0, 49, 0, 0, 0, 106, 1, 0, 0, 16,
    0, 0, 0, 254, 0, 0, 0, 244, 0, 0, 0, 112, 1, 0, 0, 102, 1, 0, 0]

/-- The entries of a catalog. -/
abbrev Entries := List (String × List UInt32) × List (UInt32 × Location)

/-- The entries of a catalog stand for its text, and a snapshot stands for its own. -/
def sampleSerde : Serde (Snapshot ⊕ Entries) where
  snapshotToString := .inl
  snapshotFromStr := fun text => text.elim .ok fun _ => .error "expected a snapshot"
  catalogToString := fun catalog => .inr (catalog.keys.toList, catalog.locations.toList)
  catalogFromStr := fun text =>
    text.elim (fun _ => .error "expected a catalog") fun entries =>
      .ok { keys := .ofList entries.1 compare, locations := .ofList entries.2 compare }

/-- The texts of the sample are read back. -/
theorem sampleSerde_roundTrips : sampleSerde.RoundTrips where
  snapshot := fun _ => rfl
  catalog := fun value =>
    ⟨_, rfl, Table.ofList_toList value.keys, Table.ofList_toList value.locations⟩

/-- The configuration of the sample. -/
def sampleConfig : Config where
  region := "cn"
  locale := ""
  biliVersion := "1"
  cdnRoot := "https://cdn.example"

/-- A refresh, a lookup of the current snapshot, which reads the table, and two by its id, which
find the value in the cache.
-/
theorem sample_looked
    : ∃ trace world found catalog,
        (refreshing id sampleSerde).Execution trace world
        ∧ parse sampleFile = .ok catalog
        ∧ found.1.id = snapshotId id sampleConfig sampleFile
        ∧ .ok found.2 = sampleSerde.catalogFromStr (sampleSerde.catalogToString catalog)
        ∧ Label.refreshed 0 (.ok found.1.id) ∈ trace
        ∧ ∀ call ∈ [1, 2, 3], Label.looked call found.1.id found ∈ trace := by
  have parses : (parse sampleFile).isOk = true := by decide +kernel
  obtain ⟨catalog, parsed⟩ := ok_of_isOk parses
  let answer (body : List UInt8) : Response :=
    { status := 200, contentLength := some body.length, chunks := [body], ended := true }
  have hash : fetchBytes 65536 (answer [104]) = .ok [104] := by decide +kernel
  have read : readRemoteHash [104] = .ok "h" := by decide +kernel
  have bin : fetchBytes (32 * 2 ^ 20) (answer sampleFile) = .ok sampleFile := by decide +kernel
  have steps : (refreshing id sampleSerde).Path (.empty _) [] (.empty _) := .here
  have steps := steps.next (World.Step.opens sampleConfig rfl)
  have steps := steps.next (@World.Step.begins id _ _ _ _ 0 rfl rfl)
  have steps := steps.next (@World.Step.locks id _ _ _ _ 0 _ rfl rfl rfl rfl)
  have steps := steps.next (@World.Step.advances id _ _ _ _ 0 _ _ rfl rfl (.hash hash read))
  have steps := steps.next (@World.Step.advances id _ _ _ _ 0 _ _ rfl rfl (.bin 0 bin parsed))
  have steps := steps.next (@World.Step.advances id _ _ _ _ 0 _ _ rfl rfl (.write rfl))
  have steps := steps.next (@World.Step.advances id _ _ _ _ 0 _ _ rfl rfl (.absent rfl))
  have steps := steps.next (@World.Step.places id _ _ _ _ 0 _ _ _ _ rfl rfl rfl rfl)
  have steps := steps.next (@World.Step.commits id _ _ _ _ 0 _ _ _ _ rfl rfl rfl)
  have steps := steps.next (@World.Step.succeeds id _ _ _ _ 0 _ _ rfl rfl rfl)
  let snapshot := describe id sampleConfig "h" sampleFile 0
  let column := sampleSerde.catalogToString catalog
  have row := @recordSnapshot_new (Snapshot ⊕ Entries) ∅ snapshot.id
    Std.TreeMap.getElem?_emptyc (.inl snapshot) column
  have current := recordSnapshot_self (∅ : Rows (Snapshot ⊕ Entries)) snapshot.id (.inl snapshot)
    column
  have missing : (∅ : Std.TreeMap String (Snapshot × Catalog))[snapshot.id]? = none :=
    Std.TreeMap.getElem?_emptyc
  have steps := steps.next (@World.Step.looks id _ _ _ _ 1 none rfl rfl)
  have steps := steps.next (@World.Step.names id _ _ _ _ 1 snapshot.id rfl rfl current)
  have steps := steps.next
    (@World.Step.misses id _ _ _ _ 1 snapshot.id (fun _ => true) rfl rfl rfl missing (by decide))
  have steps := steps.next (@World.Step.reads id _ _ _ _ 1 snapshot.id _ _ _ rfl rfl row rfl rfl)
  have steps := steps.next (@World.Step.looks id _ _ _ _ 2 (some snapshot.id) rfl rfl)
  have steps := steps.next
    (@World.Step.hits id _ _ _ _ 2 snapshot.id _ rfl rfl rfl (Table.insert_self ..))
  have steps := steps.next (@World.Step.looks id _ _ _ _ 3 (some snapshot.id) rfl rfl)
  have steps := steps.next
    (@World.Step.hits id _ _ _ _ 3 snapshot.id _ rfl rfl rfl (Table.insert_self ..))
  refine ⟨_, _, (snapshot, _), catalog, ⟨_, rfl, steps⟩, parsed, rfl, rfl, ?refreshed, ?looked⟩
  case refreshed =>
    iterate 8 apply List.mem_append_left
    exact List.mem_concat_self
  case looked =>
    intro call among
    simp only [List.mem_cons, List.not_mem_nil, or_false] at among
    rcases among with rfl | rfl | rfl
    · iterate 4 apply List.mem_append_left
      exact List.mem_concat_self
    · iterate 2 apply List.mem_append_left
      exact List.mem_concat_self
    · exact List.mem_concat_self

/-- After a refresh and lookups that read the table and the cache, a snapshot is current, and the
catalog that was looked up is that of the file.
-/
theorem snapshots_stay_put_sample
    : ∃ trace world found,
        (refreshing id sampleSerde).Execution trace world
        ∧ Label.looked 1 found.1.id found ∈ trace
        ∧ Label.looked 2 found.1.id found ∈ trace
        ∧ (∃! sid, world.rows.Current sid)
        ∧ ∃ file catalog,
            world.files found.1.id = some file
            ∧ parse file = .ok catalog
            ∧ found.2.Same catalog := by
  obtain ⟨trace, world, found, catalog, execution, -, -, -, refreshed, looked⟩ := sample_looked
  obtain ⟨-, succeeded, -, -, -, lookups, backed⟩ :=
    snapshots_stay_put sampleSerde_roundTrips execution
  have first := looked 1 (by decide)
  obtain ⟨⟨row, held, -, column⟩, -⟩ := lookups 1 found.1.id found first
  obtain ⟨_, read, bytes, catalog, file, _, _, -, column', -, -, parsed, same, there, -, -,
    whole⟩ := backed found.1.id row held
  obtain rfl : file = bytes := whole fun _ _ _ _ equal => equal
  cases column.symm.trans column'
  exact ⟨trace, world, found, execution, first, looked 2 (by decide), succeeded 0 _ refreshed, file,
    catalog, there, parsed, same⟩

end MoenotesAssets.Snapshots
