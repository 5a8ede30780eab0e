import MoenotesAssets.Planning.Plan
import MoenotesAssets.Service.Tasks

/-! `ensure_preflight` and `submit_export` of `service.rs`, and what `export_one` takes from a
plan.
-/

namespace MoenotesAssets.Planning

open Foundation MoenotesAssets.Catalogs MoenotesAssets.Service

-----------------------------------------------------------------------------------------
-- Preflight
-----------------------------------------------------------------------------------------

/-- The `status` of a key in a report. -/
inductive Status where
  | ambiguous
  | missing
  | retained
  | unsupported
  | unavailableHttp
  | remote
deriving DecidableEq

/-- What a report says of the plan of a key; `payload` tells whether an embedded CRI candidate
is expected.
-/
structure PlanReport where
  locationId : UInt32
  resourceType : String
  dependencies : List (UInt32 × String)
  omittedLocalDependencies : List Location
  disposition : String
  payload : Bool
  dependencyPolicy : String
deriving DecidableEq

/-- The report of a key. -/
structure KeyReport where
  key : String
  status : Status
  error : Option String
  candidates : List (UInt32 × String)
  plan : Option PlanReport
deriving DecidableEq

structure Report where
  snapshot : String
  results : List KeyReport
deriving DecidableEq

/-- The locations of a key that a report lists. -/
def reportCandidates (catalog : Catalog) (key : String) : List (UInt32 × String) :=
  ((catalog.keys[key]?.getD []).filterMap fun id => catalog.locations[id]?).map
    fun location => (location.id, location.resourceType)

/-- The message of a check that failed. -/
def shownError (checked : Except Failure Unit) : Option String :=
  match checked with
  | .error (.error message) => some message
  | _ => none

/-- The ladder of `ensure_preflight`. -/
def planStatus (plan : Plan) : Status :=
  if plan.font then .retained
  else if !plan.supported then .unsupported
  else if plan.dependencies.isEmpty then .unavailableHttp
  else .remote

/-- The body of the loop of `ensure_preflight`. -/
def reportKey (catalog : Catalog) (request : ExportRequest) (key : String)
    : Except Failure KeyReport :=
  let candidates := reportCandidates catalog key
  match Plan.build catalog key request.selector request.archive with
  | .error (.panic message) => .error (.panic message)
  | .error (.error message) =>
      .ok
        {
          key
          status := if 1 < candidates.length then .ambiguous else .missing
          error := some message
          candidates
          plan := none
        }
  | .ok plan =>
      .ok
        {
          key
          status := planStatus plan
          error := shownError plan.validate
          candidates
          plan :=
            some
              {
                locationId := plan.target.id
                resourceType := plan.target.resourceType
                dependencies :=
                  plan.dependencies.map fun location => (location.id, location.internal)
                omittedLocalDependencies := plan.omittedLocal
                disposition := plan.disposition
                payload := plan.embeddedCri
                dependencyPolicy := policy
              }
        }

/-- The checks of `ensure_preflight` and its selection, for the snapshot it looks up. -/
def preflightKeys (config : Config) (request : ExportRequest)
    (lookup : Except String (String × Catalog))
    : Except String (String × Catalog × List String) := do
  ensure (request.keyPrefix.isSome != !request.keys.isEmpty)
    "provide either keys or prefix"
  let (snapshot, catalog) ← lookup
  let keys := sortedDistinct (requestedKeys config catalog request)
  ensure (!keys.isEmpty && keys.length ≤ config.maxKeys) "empty or excessive selection"
  ensure (request.selector.locationId.isNone || keys.length == 1)
    "location_id requires exactly one key"
  return (snapshot, catalog, keys)

/-- `ensure_preflight` -/
def ensurePreflight (config : Config) (request : ExportRequest)
    (lookup : Except String (String × Catalog))
    : Except Failure Report := do
  let (snapshot, catalog, keys) ← (preflightKeys config request lookup).mapError .error
  return { snapshot, results := ← keys.mapM (reportKey catalog request) }

-----------------------------------------------------------------------------------------
-- Exports
-----------------------------------------------------------------------------------------

/-- What a task is created in: the service, the answer of the database to its first save, and
the fresh id and time.
-/
structure Intake where
  service : Service.State
  save : Task → Except String Unit
  id : String
  now : Nat

/-- `App::new_task`, from a service in which no other call is under way. -/
def Intake.newTask (intake : Intake) (draft : Draft) : Except String Task := do
  ensure (!intake.service.shutdown) "service shutting down"
  ensure intake.service.unpersisted.isEmpty
    "task persistence unavailable; restart after repairing storage"
  ensure (0 < intake.service.permits) "task queue full"
  let task := Service.newTask draft intake.id intake.now intake.now
  intake.save task
  return task

/-- A task that was accepted, and what its coordinator runs. -/
structure Submission where
  task : Task
  snapshot : String
  catalog : Catalog
  keys : List String
  selector : Selector
  archive : Bool

/-- `App::submit_export` -/
def submitExport (config : Config) (intake : Intake) (request : ExportRequest)
    (lookup : Except String (String × Catalog))
    : Except String Submission := do
  let (snapshot, keys) ← selectKeys config request lookup
  let (_, catalog) ← lookup
  let task ← intake.newTask (exportDraft snapshot keys)
  return { task, snapshot, catalog, keys, selector := request.selector, archive := request.archive }

/-- The planning of `App::export_one`. -/
def planExport (catalog : Catalog) (key : String) (selector : Selector) (archive : Bool)
    : Except Failure Plan := do
  let plan ← Plan.build catalog key selector archive
  plan.validate
  return plan

/-- The `options` of a manifest, as far as they come from the request and its plan. -/
structure ManifestOptions where
  selector : Selector
  archive : Bool
  requestedArchive : Bool
  disposition : String
  dependencyPolicy : String
  omittedLocalDependencies : List Location
  dependencyClosureComplete : Bool

/-- The options that `App::export_one` writes to the manifest. -/
def manifestOptions (plan : Plan) (selector : Selector) (archive : Bool) : ManifestOptions :=
  {
    selector
    archive := plan.archive
    requestedArchive := archive
    disposition := plan.disposition
    dependencyPolicy := policy
    omittedLocalDependencies := plan.omittedLocal
    dependencyClosureComplete := plan.omittedLocal.isEmpty
  }

/-- The locations that `App::export_one` downloads. -/
def Plan.downloads (plan : Plan) : List Location := plan.dependencies

-----------------------------------------------------------------------------------------
-- The ladder and the checks
-----------------------------------------------------------------------------------------

/-- What the checks of a plan say, by the steps of the ladder. -/
theorem validate_ladder {plan : Plan} (lawful : plan.Lawful)
    : (planStatus plan = .remote ∨ planStatus plan = .retained) ∧ plan.validate = .ok ()
      ∨ (planStatus plan = .unsupported ∨ planStatus plan = .unavailableHttp)
        ∧ ∃ message, plan.validate = .error (.error message) := by
  rw [planStatus]
  cases font : plan.font with
  | true =>
      have supported : plan.supported = true := by
        rw [lawful.supported, lawful.font font, Bool.true_or]
      exact Or.inl ⟨Or.inr rfl, by simp [Plan.validate, supported, font, ensure, bind, Except.bind]⟩
  | false =>
      cases supported : plan.supported with
      | false =>
          refine Or.inr ⟨Or.inl rfl,
            "unsupported preview type; use archive for HTTP containers", ?_⟩
          rw [Plan.validate, supported]
          rfl
      | true =>
          cases missing : plan.dependencies.isEmpty with
          | true =>
              refine Or.inr ⟨Or.inr rfl,
                "no HTTP resource payload; package-only content has no catalog download URL", ?_⟩
              rw [Plan.validate, supported, missing, font]
              rfl
          | false =>
              refine Or.inl ⟨Or.inl rfl, ?_⟩
              rw [Plan.validate, supported, missing]
              rfl

/-- A reported key matches an export of it: the planning succeeds for the two good statuses
only, which then report what is downloaded and written to the manifest, and fails with the
reported error for the two bad ones.
-/
structure KeyReport.Matches (report : KeyReport) (catalog : Catalog) (selector : Selector)
    (archive : Bool)
    : Prop where
  plans
    : report.status = .remote ∨ report.status = .retained
      ↔ ∃ plan, planExport catalog report.key selector archive = .ok plan
  details
    : ∀ {plan : Plan},
        planExport catalog report.key selector archive = .ok plan
        → ∃ details,
            report.plan = some details
            ∧ details.dependencies.map Prod.fst = plan.downloads.map Location.id
            ∧ details.omittedLocalDependencies
              = (manifestOptions plan selector archive).omittedLocalDependencies
            ∧ details.disposition = (manifestOptions plan selector archive).disposition
  fails
    : report.status = .unsupported ∨ report.status = .unavailableHttp
      → ∃ message,
          report.error = some message
          ∧ planExport catalog report.key selector archive = .error (.error message)

/-- The report of a key is about it and matches its export, by the steps of the ladder. -/
theorem reportKey_matches {catalog : Catalog} {request : ExportRequest} {key : String}
    {report : KeyReport} (reported : reportKey catalog request key = .ok report)
    : report.key = key ∧ report.Matches catalog request.selector request.archive := by
  rw [reportKey] at reported
  split at reported
  case h_1 => cases reported
  case h_2 message failed =>
    obtain rfl := Except.ok.inj reported
    have unplanned : planExport catalog key request.selector request.archive
        = .error (.error message) := by
      rw [planExport, failed]
      rfl
    refine ⟨rfl, ?_, ?_, ?_⟩
    · simp only [unplanned, reduceCtorEq, exists_false, iff_false, not_or]
      split <;> exact ⟨nofun, nofun⟩
    · intro plan planned
      cases planned.symm.trans unplanned
    · simp only
      split <;> rintro (⟨⟨⟩⟩ | ⟨⟨⟩⟩)
  case h_3 plan built =>
    obtain rfl := Except.ok.inj reported
    have planned : planExport catalog key request.selector request.archive
        = plan.validate >>= fun _ => .ok plan := by
      rw [planExport, built]
      rfl
    refine ⟨rfl, ?_, ?_, ?_⟩
    case refine_2 =>
      intro other same
      obtain ⟨_, -, returned⟩ := bind_ok.mp (planned.symm.trans same)
      obtain rfl := Except.ok.inj returned
      refine ⟨_, rfl, ?_, rfl, rfl⟩
      rw [List.map_map]
      rfl
    all_goals
      rcases validate_ladder ((Plan.build_yields _ _ _ _).holds built) with
        ⟨good, valid⟩ | ⟨bad, message, invalid⟩
    case refine_1.inl => exact ⟨fun _ => ⟨plan, by rw [planned, valid]; rfl⟩, fun _ => good⟩
    case refine_1.inr =>
      refine ⟨fun good => ?_, fun ⟨other, same⟩ => ?_⟩
      · rcases bad with bad | bad <;> rcases good with good | good <;> cases bad.symm.trans good
      · rw [planned, invalid] at same
        cases same
    case refine_3.inl =>
      intro bad
      rcases bad with bad | bad <;> rcases good with good | good <;> cases bad.symm.trans good
    case refine_3.inr =>
      exact fun _ => ⟨message, by rw [invalid]; rfl, by rw [planned, invalid]; rfl⟩

/-- A report about a key does not fail. -/
theorem reportKey_total (catalog : Catalog) (request : ExportRequest) (key : String)
    : ∃ report, reportKey catalog request key = .ok report := by
  have calm := (Plan.build_yields catalog key request.selector request.archive).calm
  rw [reportKey]
  cases built : Plan.build catalog key request.selector request.archive with
  | ok plan => exact ⟨_, rfl⟩
  | error failure =>
      cases failure with
      | error message => exact ⟨_, rfl⟩
      | panic message => exact absurd built (calm message)

-----------------------------------------------------------------------------------------
-- Reports match exports
-----------------------------------------------------------------------------------------

/-- The two selections are the same, but for the length of the keys. -/
theorem selectKeys_ok {config : Config} {request : ExportRequest}
    {lookup : Except String (String × Catalog)} {snapshot : String} {keys : List String}
    : selectKeys config request lookup = .ok (snapshot, keys)
      ↔ ∃ catalog,
          preflightKeys config request lookup = .ok (snapshot, catalog, keys)
          ∧ lookup = .ok (snapshot, catalog)
          ∧ ∀ key ∈ keys, key.utf8ByteSize ≤ 4096 := by
  simp only [selectKeys, preflightKeys, bind_ok, pure_ok, ensure_ok, Prod.mk.injEq, Prod.exists]
  constructor
  · rintro ⟨_, given, snapshot', catalog, found, _, counted, _, short, _, single, rfl, rfl⟩
    simp only [List.all_eq_true, decide_eq_true_eq] at short
    exact ⟨catalog, ⟨(), given, _, _, found, (), counted, (), single, rfl, rfl, rfl⟩, found, short⟩
  · rintro ⟨catalog, ⟨_, given, _, _, found, _, counted, _, single, rfl, rfl, rfl⟩, -, short⟩
    refine ⟨(), given, _, _, found, (), counted, (), ?_, (), single, rfl, rfl⟩
    simpa only [List.all_eq_true, decide_eq_true_eq] using short

/-- A report lists its keys in order. -/
theorem reportKeys_keys {catalog : Catalog} {request : ExportRequest} {keys : List String}
    {results : List KeyReport} (reported : keys.mapM (reportKey catalog request) = .ok results)
    : results.map KeyReport.key = keys
      ∧ ∀ result ∈ results, result.Matches catalog request.selector request.archive := by
  have each := mapM_ok.mp reported
  clear reported
  induction each with
  | nil => exact ⟨rfl, by simp⟩
  | cons here _ ih =>
      obtain ⟨named, matches'⟩ := reportKey_matches here
      obtain ⟨names, all⟩ := ih
      exact ⟨by rw [List.map_cons, named, names], List.forall_mem_cons.mpr ⟨matches', all⟩⟩

/-- A report is about the keys that were selected. -/
theorem ensurePreflight_ok {config : Config} {request : ExportRequest}
    {lookup : Except String (String × Catalog)} {report : Report}
    : ensurePreflight config request lookup = .ok report
      ↔ ∃ catalog keys,
          preflightKeys config request lookup = .ok (report.snapshot, catalog, keys)
          ∧ keys.mapM (reportKey catalog request) = .ok report.results := by
  obtain ⟨snapshot, results⟩ := report
  simp only [ensurePreflight, bind_ok, mapError_ok, pure_ok, Prod.exists, Report.mk.injEq]
  constructor
  · rintro ⟨_, catalog, keys, selected, _, reported, rfl, rfl⟩
    exact ⟨catalog, keys, selected, reported⟩
  · rintro ⟨catalog, keys, selected, reported⟩
    exact ⟨snapshot, catalog, keys, selected, results, reported, rfl, rfl⟩

/-- An accepted export is about the keys that were selected. -/
theorem submitExport_ok {config : Config} {intake : Intake} {request : ExportRequest}
    {lookup : Except String (String × Catalog)} {submission : Submission}
    (submitted : submitExport config intake request lookup = .ok submission)
    : preflightKeys config request lookup
        = .ok (submission.snapshot, submission.catalog, submission.keys)
      ∧ submission.selector = request.selector
      ∧ submission.archive = request.archive := by
  simp only [submitExport, bind_ok, pure_ok, Prod.exists] at submitted
  obtain ⟨snapshot, keys, selected, _, catalog, found, task, -, rfl⟩ := submitted
  obtain ⟨_, checked, found', -⟩ := selectKeys_ok.mp selected
  obtain ⟨-, rfl⟩ := Prod.mk.inj (Except.ok.inj (found.symm.trans found'))
  exact ⟨checked, rfl, rfl⟩

/-- A selection that both entry points accept is reported as it is exported: on the same
snapshot and keys, each with a status that tells whether and how it is planned.
-/
theorem preflight_matches_export {config : Config} {intake : Intake} {request : ExportRequest}
    {lookup : Except String (String × Catalog)} {report : Report} {submission : Submission}
    (reported : ensurePreflight config request lookup = .ok report)
    (submitted : submitExport config intake request lookup = .ok submission)
    : report.snapshot = submission.snapshot
      ∧ report.results.map KeyReport.key = submission.keys
      ∧ ∀ result ∈ report.results,
          result.Matches submission.catalog submission.selector submission.archive := by
  obtain ⟨catalog, keys, selected, results⟩ := ensurePreflight_ok.mp reported
  obtain ⟨selected', selector, archive⟩ := submitExport_ok submitted
  obtain ⟨snapshot, rest⟩ := Prod.mk.inj (Except.ok.inj (selected.symm.trans selected'))
  obtain ⟨rfl, rfl⟩ := Prod.mk.inj rest
  obtain ⟨names, all⟩ := reportKeys_keys results
  rw [selector, archive]
  exact ⟨snapshot, names, all⟩

/-- A location that names no payload of its own and depends on the location 2. -/
def dependent (provider resourceType : String) : Location :=
  {
    id := 1
    key := "asset"
    internal := "Assets/asset"
    provider
    resourceType
    dependencies := [2]
    options := none
  }

/-- A payload at the location 2. -/
def payload (provider : String) : Location :=
  {
    id := 2
    key := "payload"
    internal := "https://cdn.invalid/payload"
    provider
    resourceType := "payload"
    dependencies := []
    options := some { hash := "h", bundleName := "b", crc := 0, size := 1 }
  }

/-- A catalog of one asset with one payload. -/
def smallCatalog (asset payload : Location) : Catalog :=
  {
    keys := .ofList [("asset", [(1 : UInt32)])]
    locations := .ofList [((1 : UInt32), asset), (2, payload)]
  }

/-- `catalog::PLAIN` -/
def plainProvider : String :=
  "UnityEngine.ResourceManagement.ResourceProviders.AssetBundleProvider"

/-- A texture with one bundle. -/
def imageCatalog : Catalog :=
  smallCatalog (dependent "bundled" "UnityEngine.Texture2D") (payload plainProvider)

/-- A service that was just opened for one key, and that saves every task. -/
def freshIntake : Intake :=
  {
    service := Service.State.open { downloads := 1, maxKeys := 1, queueLimit := 1 } {}
    save := fun _ => .ok ()
    id := "t"
    now := 0
  }

/-- A request for one key. -/
def requestFor (key : String) : ExportRequest :=
  { snapshot := none, keys := [key], keyPrefix := none, selector := ⟨none, none⟩, archive := false }

/-- The texture is reported as remote, and so it is exported. -/
theorem preflight_matches_image
    : ∃ (report : Report) (submission : Submission),
        report.results.map KeyReport.status = [.remote]
        ∧ submission.keys = ["asset"]
        ∧ report.snapshot = submission.snapshot
        ∧ report.results.map KeyReport.key = submission.keys
        ∧ ∀ result ∈ report.results,
            result.Matches submission.catalog submission.selector submission.archive := by
  let config : Config := { downloads := 1, maxKeys := 1, queueLimit := 1 }
  have computed :
      (ensurePreflight config (requestFor "asset") (.ok ("s", imageCatalog))).toOption.map
        (fun report => report.results.map KeyReport.status) = some [.remote] := by
    decide +kernel
  obtain ⟨report, found, status⟩ := Option.map_eq_some_iff.mp computed
  have reported := toOption_eq_some.mp found
  obtain ⟨submission, submitted, keys⟩ : ∃ submission,
      submitExport config freshIntake (requestFor "asset") (.ok ("s", imageCatalog))
        = .ok submission
      ∧ submission.keys = ["asset"] :=
    ⟨_, rfl, rfl⟩
  exact ⟨report, submission, status, keys, preflight_matches_export reported submitted⟩

-----------------------------------------------------------------------------------------
-- Admission
-----------------------------------------------------------------------------------------

/-- A running service with a free queue slot and a task table that takes every save. -/
structure Intake.Open (intake : Intake) : Prop where
  running : intake.service.shutdown = false
  persistent : intake.service.unpersisted.isEmpty = true
  free : 0 < intake.service.permits
  saves : ∀ (task : Task), intake.save task = .ok ()

/-- An open service takes every draft. -/
theorem Intake.Open.newTask {intake : Intake} (ready : intake.Open) (draft : Draft)
    : intake.newTask draft = .ok (Service.newTask draft intake.id intake.now intake.now) := by
  obtain ⟨running, persistent, free, saves⟩ := ready
  simp [Intake.newTask, running, persistent, free, saves, ensure, bind, Except.bind, pure,
    Except.pure]

/-- The checks of a selection that both entry points make. -/
structure Selectable (config : Config) (request : ExportRequest) (catalog : Catalog) : Prop where
  source : (request.keyPrefix.isSome != !request.keys.isEmpty) = true
  counted
    : sortedDistinct (requestedKeys config catalog request) ≠ []
      ∧ (sortedDistinct (requestedKeys config catalog request)).length ≤ config.maxKeys
  single
    : request.selector.locationId = none
      ∨ (sortedDistinct (requestedKeys config catalog request)).length = 1

/-- A preflight selects what is selectable. -/
theorem preflightKeys_ok {config : Config} {request : ExportRequest}
    {lookup : Except String (String × Catalog)} {snapshot : String} {catalog : Catalog}
    {keys : List String}
    : preflightKeys config request lookup = .ok (snapshot, catalog, keys)
      ↔ lookup = .ok (snapshot, catalog)
        ∧ Selectable config request catalog
        ∧ keys = sortedDistinct (requestedKeys config catalog request) := by
  simp only [preflightKeys, bind_ok, pure_ok, ensure_ok, Prod.mk.injEq, Prod.exists,
    Bool.and_eq_true, Bool.or_eq_true, Bool.not_eq_true', decide_eq_true_eq, beq_iff_eq,
    Option.isNone_iff_eq_none, List.isEmpty_eq_false_iff]
  constructor
  · rintro ⟨_, source, _, _, found, _, counted, _, single, rfl, rfl, rfl⟩
    exact ⟨found, ⟨source, counted, single⟩, rfl⟩
  · rintro ⟨found, ⟨source, counted, single⟩, rfl⟩
    exact ⟨(), source, _, _, found, (), counted, (), single, rfl, rfl, rfl⟩

/-- A preflight reports on every selection that passes the checks. -/
theorem preflight_admits {config : Config} {request : ExportRequest}
    {lookup : Except String (String × Catalog)}
    : (∃ report, ensurePreflight config request lookup = .ok report)
      ↔ ∃ snapshot catalog,
          lookup = .ok (snapshot, catalog) ∧ Selectable config request catalog := by
  constructor
  · rintro ⟨report, reported⟩
    obtain ⟨catalog, keys, selected, -⟩ := ensurePreflight_ok.mp reported
    obtain ⟨found, selectable, -⟩ := preflightKeys_ok.mp selected
    exact ⟨_, catalog, found, selectable⟩
  · rintro ⟨snapshot, catalog, found, selectable⟩
    have selected := preflightKeys_ok.mpr ⟨found, selectable, rfl⟩
    have each : ∀ key ∈ sortedDistinct (requestedKeys config catalog request),
        ∃ report, reportKey catalog request key = .ok report :=
      fun key _ => reportKey_total catalog request key
    obtain ⟨results, reported⟩ := mapM_total each
    exact ⟨{ snapshot, results }, ensurePreflight_ok.mpr ⟨catalog, _, selected, reported⟩⟩

/-- An open service accepts every selection that passes the checks and has short keys. -/
theorem submit_admits {config : Config} {intake : Intake} {request : ExportRequest}
    {lookup : Except String (String × Catalog)} (ready : intake.Open)
    : (∃ submission, submitExport config intake request lookup = .ok submission)
      ↔ ∃ snapshot catalog,
          lookup = .ok (snapshot, catalog)
          ∧ Selectable config request catalog
          ∧ ∀ key ∈ sortedDistinct (requestedKeys config catalog request),
              key.utf8ByteSize ≤ 4096 := by
  simp only [submitExport, bind_ok, pure_ok, Prod.exists, ready.newTask, Except.ok.injEq,
    exists_eq_left', selectKeys_ok, preflightKeys_ok]
  constructor
  · rintro ⟨_, snapshot, keys, ⟨catalog, ⟨found, selectable, rfl⟩, -, short⟩, -⟩
    exact ⟨snapshot, catalog, found, selectable, short⟩
  · rintro ⟨snapshot, catalog, found, selectable, short⟩
    exact ⟨_, snapshot, _, ⟨catalog, ⟨found, selectable, rfl⟩, found, short⟩, snapshot, catalog,
      found, rfl⟩

/-- Preflight and an open service admit the same requests. -/
def AdmitsAlike (config : Config) (intake : Intake) (request : ExportRequest)
    (lookup : Except String (String × Catalog))
    : Prop :=
  (∃ report, ensurePreflight config request lookup = .ok report)
  ↔ ∃ submission, submitExport config intake request lookup = .ok submission

/-- A fresh service is open. -/
theorem freshIntake_open : freshIntake.Open :=
  ⟨rfl, rfl, Nat.zero_lt_one, fun _ => rfl⟩

/-- A request for one key passes the shared checks. -/
theorem requestFor_selectable (key : String) (catalog : Catalog)
    : Selectable { downloads := 1, maxKeys := 1, queueLimit := 1 } (requestFor key) catalog :=
  ⟨rfl, ⟨List.cons_ne_nil _ _, Nat.le_refl 1⟩, Or.inl rfl⟩

/-- A request for one key selects it. -/
theorem requestFor_selects (config : Config) (catalog : Catalog) (key : String)
    : sortedDistinct (requestedKeys config catalog (requestFor key)) = [key] := rfl

/-- Ascii letters have one byte each, by induction on their number. -/
theorem letters_utf8ByteSize (count : Nat)
    : (String.ofList (List.replicate count 'a')).utf8ByteSize = count := by
  induction count with
  | zero => rfl
  | succ count ih =>
      rw [List.replicate_succ, String.ofList_cons, String.utf8ByteSize_append,
        String.utf8ByteSize_singleton, ih, Nat.add_comm]
      rfl

/-- A key of 4097 bytes passes the preflight of a service that refuses it. -/
theorem long_key_is_not_admitted_alike
    : ¬∀ (config : Config) (intake : Intake) (request : ExportRequest)
        (lookup : Except String (String × Catalog)),
        intake.Open → AdmitsAlike config intake request lookup := by
  intro alike
  have bounded : ∀ (key : String), key.utf8ByteSize ≤ 4096 := by
    intro key
    have passes := preflight_admits.mpr
      ⟨"s", { keys := ∅, locations := ∅ }, rfl, requestFor_selectable key _⟩
    have admitted := (alike _ _ (requestFor key) _ freshIntake_open).mp passes
    obtain ⟨_, catalog, -, -, short⟩ := (submit_admits freshIntake_open).mp admitted
    rw [requestFor_selects, List.forall_mem_singleton] at short
    exact short
  have long := bounded (String.ofList (List.replicate 4097 'a'))
  rw [letters_utf8ByteSize] at long
  exact absurd long (by decide)

/-- Preflight and an open service admit the same requests just when a selection that passes
the shared checks has no key above 4096 bytes.
-/
theorem admits_alike_iff {config : Config} {intake : Intake} {request : ExportRequest}
    {lookup : Except String (String × Catalog)} (ready : intake.Open)
    : AdmitsAlike config intake request lookup
      ↔ ∀ (snapshot : String) (catalog : Catalog),
          lookup = .ok (snapshot, catalog)
          → Selectable config request catalog
          → ∀ key ∈ sortedDistinct (requestedKeys config catalog request),
              key.utf8ByteSize ≤ 4096 := by
  rw [AdmitsAlike, preflight_admits, submit_admits ready]
  constructor
  · intro alike snapshot catalog found selectable
    obtain ⟨_, _, found', -, short⟩ := alike.mp ⟨snapshot, catalog, found, selectable⟩
    obtain ⟨-, rfl⟩ := Prod.mk.inj (Except.ok.inj (found.symm.trans found'))
    exact short
  · intro short
    constructor
    · rintro ⟨snapshot, catalog, found, selectable⟩
      exact ⟨snapshot, catalog, found, selectable, short _ _ found selectable⟩
    · rintro ⟨snapshot, catalog, found, selectable, -⟩
      exact ⟨snapshot, catalog, found, selectable⟩

/-- Preflight and a fresh service admit a key of one byte alike. -/
theorem admits_alike_short_key
    : AdmitsAlike { downloads := 1, maxKeys := 1, queueLimit := 1 } freshIntake (requestFor "a")
        (.ok ("s", { keys := ∅, locations := ∅ })) := by
  refine (admits_alike_iff freshIntake_open).mpr fun _ _ _ _ key member => ?_
  rw [requestFor_selects] at member
  rw [List.mem_singleton.mp member]
  decide

end MoenotesAssets.Planning
