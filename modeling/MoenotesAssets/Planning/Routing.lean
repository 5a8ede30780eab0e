import MoenotesAssets.Foundation.Machine
import MoenotesAssets.Foundation.Sorting
import MoenotesAssets.Planning.Preflight

/-! How `worker::run` routes the job that `export_one` builds from a valid plan. -/

namespace MoenotesAssets.Planning

open Foundation Foundation.Machine MoenotesAssets.Catalogs MoenotesAssets.Service

-----------------------------------------------------------------------------------------
-- Jobs
-----------------------------------------------------------------------------------------

/-- The reference that is retained for a font. -/
structure FontReference where
  key : String
  resourceType : String
  selectedLocation : UInt32
  disposition : String
  policy : String
  httpDependencies : List Location
  packageDependencies : List Location
deriving DecidableEq

/-- `worker::Job`; of an input the location. -/
structure Job where
  target : Location
  inputs : List Location
  archive : Bool
  fontReference : Option FontReference
deriving DecidableEq

/-- The job that `App::export_one` builds from a plan and the downloads in the order in which
they arrived.
-/
def Job.of (key : String) (plan : Plan) (arrived : List Location) : Job :=
  {
    target := plan.target
    inputs := sortById arrived
    archive := plan.archive
    fontReference :=
      if plan.font then
        some
          {
            key
            resourceType := plan.target.resourceType
            selectedLocation := plan.target.id
            disposition := plan.disposition
            policy
            httpDependencies := plan.dependencies
            packageDependencies := plan.omittedLocal
          }
      else none
  }

-----------------------------------------------------------------------------------------
-- Routing
-----------------------------------------------------------------------------------------

/-- The branches of `worker::run` with the inputs that they go through. -/
inductive Route where
  | archive (inputs : List Location)
  | raw (input : Location)
  | unity (inputs : List Location)
deriving DecidableEq

/-- The condition of the raw branch. -/
def media (job : Job) : Bool :=
  providedByCri job.target
  || (startsWith job.target.resourceType "CriWare." && job.inputs.any providedByCri)

/-- Neighbours in a list have different ids. -/
def distinctNeighbours (locations : List Location) : Bool :=
  (locations.zip locations.tail).all fun (left, right) => left.id != right.id

/-- The branch of `worker::run` for inputs that it does not refuse as empty. -/
def branch (job : Job) : Except Failure Route :=
  if job.archive then do
    ensure (job.inputs.all remote) (.error "archive accepts only HTTP resources")
    return .archive job.inputs
  else if media job then do
    let raw := job.inputs.filter providedByCri
    ensure (raw.length == 1) (.error "unsupported or ambiguous CRI dependencies")
    return .raw (← index raw 0)
  else do
    let inputs := sortById job.inputs
    ensure (distinctNeighbours inputs) (.error "duplicate dependency ID")
    ensure (inputs.all fun location => !providedByCri location)
      (.error "unsupported mixed provider target")
    return .unity inputs

/-- The checks of `worker::run` that look at locations only, up to the branch that it takes. -/
def route (job : Job) : Except Failure Route := do
  ensure (!job.inputs.isEmpty || (job.archive && job.fontReference.isSome))
    (.error "empty worker inputs")
  branch job

-----------------------------------------------------------------------------------------
-- Valid plans
-----------------------------------------------------------------------------------------

/-- Sorting keeps the locations. -/
theorem sortById_perm (locations : List Location) : (sortById locations).Perm locations :=
  sortByKey_perm Location.id locations

/-- Sorted locations are in order. -/
theorem sortById_sorted (locations : List Location)
    : (sortById locations).Pairwise fun left right => left.id ≤ right.id :=
  sortByKey_sorted Location.id locations

/-- Sorting sorted locations changes nothing. -/
theorem sortById_sortById (locations : List Location)
    : sortById (sortById locations) = sortById locations :=
  (sortById_sorted locations).insertionSort_eq

/-- Sorted neighbours have different ids just when all locations have, by induction on the
locations.
-/
theorem distinctNeighbours_iff {locations : List Location}
    (sorted : locations.Pairwise fun left right => left.id ≤ right.id)
    : distinctNeighbours locations = true ↔ (locations.map Location.id).Nodup := by
  induction sorted with
  | nil => exact ⟨fun _ => .nil, fun _ => rfl⟩
  | @cons first rest below sorted ih =>
      rw [List.map_cons, List.nodup_cons, ← ih]
      cases rest with
      | nil => simp [distinctNeighbours]
      | cons second rest =>
          have split : distinctNeighbours (first :: second :: rest)
              = (first.id != second.id && distinctNeighbours (second :: rest)) := rfl
          rw [split, Bool.and_eq_true, bne_iff_ne]
          refine and_congr_left fun _ => ⟨fun apart member => ?_, fun absent same => ?_⟩
          · obtain ⟨other, inside, same⟩ := List.mem_map.mp member
            have least : second.id ≤ other.id := by
              rcases List.mem_cons.mp inside with rfl | later
              · exact UInt32.le_refl _
              · exact List.rel_of_pairwise_cons sorted later
            have above := below second List.mem_cons_self
            exact apart (UInt32.le_antisymm above (same ▸ least))
          · exact absent (List.mem_map.mpr ⟨second, List.mem_cons_self, same.symm⟩)

/-- Inputs are the planned dependencies. -/
theorem Job.of_inputs {key : String} {plan : Plan} {arrived : List Location}
    (all : arrived.Perm plan.dependencies)
    : (Job.of key plan arrived).inputs.Perm plan.dependencies :=
  (sortById_perm arrived).trans all

/-- The job of a valid plan is not refused as empty. -/
theorem Job.of_nonempty {key : String} {plan : Plan} {arrived : List Location}
    (lawful : plan.Lawful) (valid : plan.validate = .ok ())
    (all : arrived.Perm plan.dependencies)
    : (!(Job.of key plan arrived).inputs.isEmpty
        || ((Job.of key plan arrived).archive && (Job.of key plan arrived).fontReference.isSome))
      = true := by
  obtain ⟨_, -, present⟩ := bind_ok.mp valid
  rw [ensure_ok, Bool.or_eq_true, Bool.not_eq_true', List.isEmpty_eq_false_iff] at present
  rw [Bool.or_eq_true, Bool.not_eq_true', List.isEmpty_eq_false_iff]
  rcases present with some' | font
  · refine Or.inl fun empty => some' ?_
    have inputs : (Job.of key plan arrived).inputs.Perm plan.dependencies := Job.of_inputs all
    rw [empty] at inputs
    exact List.nil_perm.mp inputs
  · refine Or.inr ?_
    simp only [Job.of, font, lawful.font font, if_true, Option.isSome_some, Bool.and_self]

/-- A job that was built from a valid plan. -/
structure Job.Built (job : Job) (plan : Plan) : Prop where
  lawful : plan.Lawful
  archive : job.archive = plan.archive
  target : job.target = plan.target
  inputs : job.inputs.Perm plan.dependencies
  sorted : sortById job.inputs = job.inputs
  nonempty : (!job.inputs.isEmpty || (job.archive && job.fontReference.isSome)) = true

/-- The job of a valid plan. -/
theorem Job.of_built {key : String} {plan : Plan} {arrived : List Location}
    (lawful : plan.Lawful) (valid : plan.validate = .ok ())
    (all : arrived.Perm plan.dependencies)
    : (Job.of key plan arrived).Built plan :=
  ⟨lawful, rfl, rfl, Job.of_inputs all, sortById_sortById arrived,
    Job.of_nonempty lawful valid all⟩

section Built

variable {job : Job} {plan : Plan} (built : job.Built plan)

include built

/-- The job is not refused as empty. -/
theorem Job.Built.route : route job = branch job := by
  rw [Planning.route, ensure_passes built.nonempty]
  rfl

/-- An archive is accepted: all of its inputs are remote. -/
theorem Job.Built.archived (archive : plan.archive = true)
    : Planning.route job = .ok (.archive job.inputs) := by
  have http : job.inputs.all remote = true :=
    List.all_eq_true.mpr fun input member =>
      built.lawful.remote input (built.inputs.mem_iff.mp member)
  rw [built.route, branch, if_pos (built.archive.trans archive), ensure_passes http]
  rfl

/-- A job that is no archive takes one of the two other branches. -/
theorem Job.Built.preview (preview : plan.archive = false) : ¬job.archive = true := by
  rw [built.archive, preview]
  exact Bool.false_ne_true

/-- The one input of a target with a raw payload. -/
theorem Job.Built.single (preview : plan.archive = false) (cri : isCri plan.target = true)
    (plain : plan.embeddedCri = false)
    : ∃ input, job.inputs = [input] ∧ providedByCri input = true := by
  obtain ⟨input, only, provided⟩ := built.lawful.raw preview cri plain
  exact ⟨input, List.perm_singleton.mp (only ▸ built.inputs), provided⟩

/-- A plan with an embedded payload has no CRI input. -/
theorem Job.Built.absent (embedded : plan.embeddedCri = true)
    : ∀ input ∈ job.inputs, providedByCri input = false :=
  fun input member =>
    (built.lawful.embedded embedded).2.2 input (built.inputs.mem_iff.mp member)

/-- The raw branch is taken for a CRI target with its payload, and for one that the CRI
provider loads.
-/
theorem Job.Built.media_iff (preview : plan.archive = false)
    : media job = true
      ↔ isCri plan.target = true
        ∧ (plan.embeddedCri = false ∨ providedByCri plan.target = true) := by
  rw [media, built.target]
  cases provided : providedByCri plan.target with
  | true => simp [isCri, provided]
  | false =>
      cases wrapper : startsWith plan.target.resourceType "CriWare." with
      | false => simp [isCri, provided, wrapper]
      | true =>
          have cri : isCri plan.target = true := by rw [isCri, wrapper, Bool.or_true]
          simp only [cri, Bool.false_or, Bool.true_and, Bool.false_eq_true, or_false, true_and]
          cases embedded : plan.embeddedCri with
          | true => simpa using built.absent embedded
          | false =>
              obtain ⟨input, single, given⟩ := built.single preview cri embedded
              simp [single, given]

/-- A target with a raw payload is accepted with it. -/
theorem Job.Built.raw (preview : plan.archive = false) (cri : isCri plan.target = true)
    (plain : plan.embeddedCri = false)
    : ∃ input,
        job.inputs = [input]
        ∧ providedByCri input = true
        ∧ Planning.route job = .ok (.raw input) := by
  obtain ⟨input, single, provided⟩ := built.single preview cri plain
  refine ⟨input, single, provided, ?_⟩
  have taken : media job = true := (built.media_iff preview).mpr ⟨cri, Or.inl plain⟩
  have raw : job.inputs.filter providedByCri = [input] := by
    rw [single, List.filter_cons_of_pos provided, List.filter_nil]
  rw [built.route, branch, if_neg (built.preview preview), if_pos taken, raw]
  rfl

/-- A target that the CRI provider loads is refused without a payload. -/
theorem Job.Built.missing (embedded : plan.embeddedCri = true)
    (provided : providedByCri plan.target = true)
    : Planning.route job = .error (.error "unsupported or ambiguous CRI dependencies") := by
  obtain ⟨preview, cri, -⟩ := built.lawful.embedded embedded
  have taken : media job = true := (built.media_iff preview).mpr ⟨cri, Or.inr provided⟩
  have raw : job.inputs.filter providedByCri = [] := by
    refine List.filter_eq_nil_iff.mpr fun input member => ?_
    rw [built.absent embedded input member]
    exact Bool.false_ne_true
  rw [built.route, branch, if_neg (built.preview preview), if_pos taken, raw]
  rfl

/-- What the Unity branch checks. -/
theorem Job.Built.unity (preview : plan.archive = false) (unity : media job = false)
    : Planning.route job
      = do
          ensure (distinctNeighbours job.inputs) (.error "duplicate dependency ID")
          ensure (job.inputs.all fun location => !providedByCri location)
            (.error "unsupported mixed provider target")
          return .unity job.inputs := by
  rw [built.route, branch, if_neg (built.preview preview),
    if_neg (by rw [unity]; exact Bool.false_ne_true)]
  simp only [built.sorted]

/-- Sorted inputs have distinct neighbours just when their ids are distinct. -/
theorem Job.Built.distinct
    : distinctNeighbours job.inputs = true ↔ (job.inputs.map Location.id).Nodup := by
  have sorted := sortById_sorted job.inputs
  rw [built.sorted] at sorted
  exact distinctNeighbours_iff sorted

/-- The worker refuses a valid plan for one of three reasons. -/
theorem Job.Built.refused {failure : Failure} (failed : Planning.route job = .error failure)
    : (plan.embeddedCri = true
        ∧ providedByCri plan.target = true
        ∧ failure = .error "unsupported or ambiguous CRI dependencies")
      ∨ (plan.archive = false
        ∧ isCri plan.target = false
        ∧ (∃ input ∈ job.inputs, providedByCri input = true)
        ∧ failure = .error "unsupported mixed provider target")
      ∨ (¬(job.inputs.map Location.id).Nodup
        ∧ failure = .error "duplicate dependency ID") := by
  cases preview : plan.archive with
  | true => cases failed.symm.trans (built.archived preview)
  | false =>
      cases taken : media job with
      | true =>
          obtain ⟨cri, reason⟩ := (built.media_iff preview).mp taken
          cases embedded : plan.embeddedCri with
          | false =>
              obtain ⟨input, -, -, accepted⟩ := built.raw preview cri embedded
              cases failed.symm.trans accepted
          | true =>
              have provided := reason.resolve_left (by rw [embedded]; exact Bool.noConfusion)
              have same := failed.symm.trans (built.missing embedded provided)
              exact Or.inl ⟨rfl, provided, Except.error.inj same⟩
      | false =>
          rw [built.unity preview taken] at failed
          simp only [bind_error, ensure_error, pure_error, and_false, exists_false,
            or_false] at failed
          rcases failed with ⟨repeated, rfl⟩ | ⟨_, -, mixed, rfl⟩
          · refine Or.inr (Or.inr ⟨fun distinct => ?_, rfl⟩)
            rw [built.distinct.mpr distinct] at repeated
            cases repeated
          · obtain ⟨input, member, provided⟩ := List.all_eq_false.mp mixed
            rw [Bool.not_eq_true', Bool.not_eq_false] at provided
            refine Or.inr (Or.inl ⟨rfl, ?_, ⟨input, member, provided⟩, rfl⟩)
            cases cri : isCri plan.target with
            | false => rfl
            | true =>
                -- a CRI target takes the raw branch, or its payload is embedded
                cases embedded : plan.embeddedCri with
                | false =>
                    rw [(built.media_iff preview).mpr ⟨cri, Or.inl embedded⟩] at taken
                    cases taken
                | true => rw [built.absent embedded input member] at provided; cases provided

end Built

-----------------------------------------------------------------------------------------
-- Routing of valid plans
-----------------------------------------------------------------------------------------

/-- How the worker routes the job of a plan: an archive is accepted with its remote inputs, and
only one that retains a font may be empty; a CRI target without an embedded payload takes the
raw branch with its one payload; the Unity branch sees no CRI input of an embedded payload.
What is refused is refused for one of three reasons.
-/
structure Job.Routed (job : Job) (plan : Plan) : Prop where
  archive : plan.archive = true → route job = .ok (.archive job.inputs)
  empty : job.inputs = [] → job.archive = true ∧ job.fontReference.isSome = true
  media
    : plan.archive = false
      → (media job = true
          ↔ isCri plan.target = true
            ∧ (plan.embeddedCri = false ∨ providedByCri plan.target = true))
  raw
    : plan.archive = false
      → isCri plan.target = true
      → plan.embeddedCri = false
      → ∃ input,
          job.inputs = [input] ∧ providedByCri input = true ∧ route job = .ok (.raw input)
  embedded
    : plan.embeddedCri = true
      → plan.archive = false ∧ ∀ input ∈ job.inputs, providedByCri input = false
  unity
    : plan.archive = false
      → Planning.media job = false
      → ∀ {taken : Route}, route job = .ok taken → taken = .unity job.inputs
  refused
    : ∀ {failure : Failure},
        route job = .error failure
        → (plan.embeddedCri = true
            ∧ providedByCri plan.target = true
            ∧ failure = .error "unsupported or ambiguous CRI dependencies")
          ∨ (plan.archive = false
            ∧ isCri plan.target = false
            ∧ (∃ input ∈ job.inputs, providedByCri input = true)
            ∧ failure = .error "unsupported mixed provider target")
          ∨ (¬(job.inputs.map Location.id).Nodup
            ∧ failure = .error "duplicate dependency ID")

/-- The outcome of a plan and of the routing of its job, with the downloads in order. -/
def routePlanned (catalog : Catalog) (key : String) : Except Failure (Except Failure Route) := do
  let plan ← planExport catalog key ⟨none, none⟩ false
  return route (Job.of key plan plan.dependencies)

/-- A texture with a CRI payload. -/
def mixedCatalog : Catalog :=
  smallCatalog (dependent "bundled" "UnityEngine.Texture2D") (payload criProvider)

/-- A sound that the CRI provider loads from a bundle. -/
def bareCatalog : Catalog :=
  smallCatalog (dependent criProvider "CriWare.Assets.CriAtomAcbAsset") (payload plainProvider)

/-- Two valid plans whose jobs the worker refuses: one has a CRI payload next to a target of
another kind, one has a target of the CRI provider without a CRI payload.
-/
theorem worker_refuses_plans
    : (∃ plan,
        planExport mixedCatalog "asset" ⟨none, none⟩ false = .ok plan
        ∧ route (Job.of "asset" plan plan.dependencies)
          = .error (.error "unsupported mixed provider target"))
      ∧ ∃ plan,
          planExport bareCatalog "asset" ⟨none, none⟩ false = .ok plan
          ∧ route (Job.of "asset" plan plan.dependencies)
            = .error (.error "unsupported or ambiguous CRI dependencies") := by
  have refused : ∀ {catalog : Catalog} {failure : Failure},
      routePlanned catalog "asset" = .ok (.error failure) →
        ∃ plan,
          planExport catalog "asset" ⟨none, none⟩ false = .ok plan
          ∧ route (Job.of "asset" plan plan.dependencies) = .error failure := by
    intro catalog failure routed
    obtain ⟨plan, planned, same⟩ := bind_ok.mp routed
    exact ⟨plan, planned, pure_ok.mp same⟩
  exact ⟨refused (by decide +kernel), refused (by decide +kernel)⟩

/-- The worker routes the job of every valid plan by its target and its CRI payload, whatever
the order in which the downloads arrived.
-/
theorem worker_routes_plans {catalog : Catalog} {key : String} {selector : Selector}
    {archive : Bool} {plan : Plan} (planned : planExport catalog key selector archive = .ok plan)
    {arrived : List Location} (all : arrived.Perm plan.dependencies)
    : (Job.of key plan arrived).inputs.Perm plan.dependencies
      ∧ (Job.of key plan arrived).Routed plan := by
  obtain ⟨_, build, rest⟩ := bind_ok.mp planned
  obtain ⟨_, valid, returned⟩ := bind_ok.mp rest
  obtain rfl := pure_ok.mp returned
  have lawful := (Plan.build_yields catalog key selector archive).holds build
  have built : (Job.of key _ arrived).Built _ := Job.of_built lawful valid all
  refine ⟨built.inputs, ?_⟩
  constructor
  case archive => exact built.archived
  case empty =>
    intro empty
    have nonempty := built.nonempty
    rwa [empty, List.isEmpty_nil, Bool.not_true, Bool.false_or, Bool.and_eq_true] at nonempty
  case media => exact built.media_iff
  case raw => exact built.raw
  case embedded =>
    exact fun embedded => ⟨(lawful.embedded embedded).1, built.absent embedded⟩
  case unity =>
    intro preview unity taken accepted
    rw [built.unity preview unity] at accepted
    simp only [bind_ok, pure_ok] at accepted
    obtain ⟨_, -, _, -, rfl⟩ := accepted
    rfl
  case refused => exact built.refused

/-- A texture is routed to the Unity branch. -/
theorem worker_routes_image
    : ∃ plan,
        planExport imageCatalog "asset" ⟨none, none⟩ false = .ok plan
        ∧ (Job.of "asset" plan plan.dependencies).Routed plan := by
  have valid : (planExport imageCatalog "asset" ⟨none, none⟩ false).isOk = true := by
    decide +kernel
  obtain ⟨plan, planned⟩ := ok_of_isOk valid
  exact ⟨plan, planned, (worker_routes_plans planned (.refl _)).2⟩

end MoenotesAssets.Planning
