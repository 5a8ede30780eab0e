import MoenotesAssets.Planning.Conservation
import MoenotesAssets.Worker.Outputs

/-! The order in which downloads complete, and that of the inputs of a preview, do not show in
what becomes of them.
-/

namespace MoenotesAssets.Worker

open Foundation Foundation.Machine MoenotesAssets.Catalogs
open Planning (Plan distinctNeighbours distinctNeighbours_iff providedByCri)

-----------------------------------------------------------------------------------------
-- Downloads
-----------------------------------------------------------------------------------------

/-- `service::Download` -/
structure Download where
  input : Input
  rawSha256 : String

/-- A download among the `sources` of a manifest. -/
structure SourceEntry where
  internalId : String
  provider : String
  options : Option Options
  downloadSha256 : String
deriving DecidableEq

/-- How a manifest lists a download. -/
def Download.source (i : Download) : SourceEntry :=
  {
    internalId := i.input.location.internal
    provider := i.input.location.provider
    options := i.input.location.options
    downloadSha256 := i.rawSha256
  }

/-- What `App::export_one` makes of the downloads of a plan: the job of the worker, and the
`sources` of the manifest.
-/
structure Handover where
  job : Job
  sources : List SourceEntry

/-- `App::export_one`, from the downloads in the order in which they arrived. -/
def Handover.of (limits : Limits) (key : String) (plan : Plan) (arrived : List Download)
    : Handover :=
  let inputs := sortByKey (fun v => v.input.location.id) arrived
  let plain := Planning.Job.of key plan (arrived.map fun v => v.input.location)
  {
    job :=
      {
        limits
        target := plain.target
        inputs := inputs.map Download.input
        archive := plain.archive
        fontReference := plain.fontReference
      }
    sources := inputs.map Download.source
  }

/-- Without the files of its inputs, the job is that of the locations that arrived. -/
theorem Handover.plain (limits : Limits) (key : String) (plan : Plan) (arrived : List Download)
    : (Handover.of limits key plan arrived).job.plain
      = Planning.Job.of key plan (arrived.map fun v => v.input.location) := by
  have sorted := sortByKey_map Location.id (fun v : Download => v.input.location) arrived
  have inputs : (Handover.of limits key plan arrived).job.plain.inputs
      = (Planning.Job.of key plan (arrived.map fun v => v.input.location)).inputs := by
    rw [Job.plain, Handover.of, List.map_map]
    exact sorted
  rw [Planning.Job.mk.injEq]
  exact ⟨rfl, inputs, rfl, rfl⟩

/-- The dependencies of a plan have different ids. -/
theorem dependencies_distinct {catalog : Catalog} {key : String} {selector : Catalogs.Selector}
    {archive : Bool} {plan : Plan} (named : catalog.Named)
    (built : Plan.build catalog key selector archive = .ok plan)
    : (plan.dependencies.map Location.id).Nodup := by
  obtain ⟨⟨closure, -, conserves⟩, -⟩ := Planning.Plan.build_conserves named built
  exact List.pairwise_map.mpr (conserves.increasing.imp UInt32.ne_of_lt)

/-- Downloads of locations with different ids are handed over alike in whatever order they
arrived.
-/
theorem Handover.of_perm {limits : Limits} {key : String} {plan : Plan}
    {arrived other : List Download}
    (all : (arrived.map fun v => v.input.location).Perm plan.dependencies)
    (distinct : (plan.dependencies.map Location.id).Nodup) (same : arrived.Perm other)
    : Handover.of limits key plan arrived = Handover.of limits key plan other := by
  have apart : (arrived.map fun v => v.input.location.id).Nodup := by
    have ids := (all.map Location.id).nodup_iff.mpr distinct
    rwa [List.map_map] at ids
  rw [Handover.of, Handover.of, sortByKey_eq same apart]
  rfl

-----------------------------------------------------------------------------------------
-- The inputs of a preview
-----------------------------------------------------------------------------------------

section Inputs

variable {inputs other : List Input}

/-- Sorted inputs are accepted when their ids are different. -/
theorem distinct_sorted (inputs : List Input)
    : distinctNeighbours ((sortByKey (fun i => i.location.id) inputs).map Input.location) = true
      ↔ (inputs.map fun i => i.location.id).Nodup := by
  have sorted := sortByKey_sorted (fun i : Input => i.location.id) inputs
  rw [distinctNeighbours_iff (List.pairwise_map.mpr sorted), List.map_map]
  exact ((sortByKey_perm _ inputs).map _).nodup_iff

/-- Bundles are opened alike in whatever order they are given: with a common id they are refused
before one is opened, and without they are sorted.
-/
theorem openInputs_perm (store : Store) (limits : Limits) (same : inputs.Perm other)
    : openInputs store limits inputs = openInputs store limits other := by
  rw [openInputs, openInputs]
  by_cases distinct : (inputs.map fun i => i.location.id).Nodup
  · rw [sortByKey_eq same distinct]
  · have distinct' : ¬(other.map fun i => i.location.id).Nodup :=
      fun apart => distinct ((same.map _).nodup_iff.mpr apart)
    rw [Bool.eq_false_iff.mpr (mt (distinct_sorted inputs).mp distinct),
      Bool.eq_false_iff.mpr (mt (distinct_sorted other).mp distinct')]
    rfl

variable {job : Job}

/-- The order of the inputs does not decide which branch is taken. -/
theorem media_perm (same : job.inputs.Perm inputs)
    : Planning.media { job with inputs }.plain = Planning.media job.plain := by
  have provided : (inputs.map Input.location).any providedByCri
      = (job.inputs.map Input.location).any providedByCri :=
    ((same.map Input.location).any_eq).symm
  rw [Planning.media, Planning.media, Job.plain, provided]
  rfl

/-- A preview goes on alike in whatever order its inputs are given, by the branches of
`opening`: the one CRI payload is the same, and so are the bundles.
-/
theorem opening_perm (store : Store) (same : job.inputs.Perm inputs)
    : opening store { job with inputs } = opening store job := by
  rw [opening, opening, media_perm same]
  split
  case isTrue media =>
    have payloads := same.filter fun i => providedByCri i.location
    by_cases single : (job.inputs.filter fun i => providedByCri i.location).length = 1
    · obtain ⟨payload, only⟩ := List.length_eq_one_iff.mp single
      rw [only] at payloads
      simp only [only, List.singleton_perm.mp payloads]
    · simp only [← payloads.length_eq, beq_eq_false_iff_ne.mpr single]
      rfl
  case isFalse unity => rw [openInputs_perm store job.limits same]

/-- What follows the opening looks at the target and the limits of a job only. -/
theorem previewObjects_perm (sha256 : List UInt8 → List UInt8) (tools : Run.Tools)
    (same : job.inputs.Perm inputs)
    : Run.previewObjects sha256 tools { job with inputs }
      = Run.previewObjects sha256 tools job := by
  rw [Run.previewObjects, opening_perm tools.toStore same]
  rfl

/-- A whole preview runs alike in whatever order its inputs are given. -/
theorem run_perm (sha256 : List UInt8 → List UInt8) (tools : Run.Tools)
    (preview : job.archive = false) (same : job.inputs.Perm inputs)
    : Run.run sha256 tools { job with inputs } = Run.run sha256 tools job := by
  have plain : ¬job.archive = true := Bool.not_eq_true _ ▸ preview
  rw [Run.run, Run.run, if_neg plain, if_neg plain, Run.preview,
    previewObjects_perm sha256 tools same, ← same.isEmpty_eq]
  rfl

end Inputs

-----------------------------------------------------------------------------------------
-- Both orders
-----------------------------------------------------------------------------------------

/-- The downloads of a plan for a parsed catalog are handed over alike in whatever order they
complete; and a preview opens the same payload or the same regions, or is refused alike, in
whatever order its inputs are given, and so runs alike.
-/
theorem orders_agree
    : (∀ {data : List UInt8} {catalog : Catalog} {key : String} {selector : Catalogs.Selector}
          {archive : Bool} {plan : Plan} {limits : Limits} {arrived other : List Download},
        parse data = .ok catalog
        → Plan.build catalog key selector archive = .ok plan
        → (arrived.map fun v => v.input.location).Perm plan.dependencies
        → arrived.Perm other
        → Handover.of limits key plan arrived = Handover.of limits key plan other)
      ∧ ∀ {sha256 : List UInt8 → List UInt8} {tools : Run.Tools} {job : Job} {inputs : List Input},
          job.archive = false
          → job.inputs.Perm inputs
          → opening tools.toStore { job with inputs } = opening tools.toStore job
            ∧ Run.run sha256 tools { job with inputs } = Run.run sha256 tools job := by
  constructor
  · intro data catalog key selector archive plan limits arrived other parsed built all same
    have named : catalog.Named := fun _ _ held => (represents_of_parse parsed).named held
    exact Handover.of_perm all (dependencies_distinct named built) same
  · intro sha256 tools job inputs preview same
    exact ⟨opening_perm tools.toStore same, run_perm sha256 tools preview same⟩

/-- A file with one key, whose bundle depends on another one. -/
def pairFile : List UInt8 :=
  [66, 137, 227, 13, 2, 0, 0, 0, 86, 1, 0, 0, 0, 0, 0, 0, 0, 0, 0, 0, 0, 0, 0, 0, 0, 0, 0, 0,
    0, 0, 0, 0, 13, 0, 0, 0, 83, 121, 115, 116, 101, 109, 46, 83, 116, 114, 105, 110, 103, 74,
    0, 0, 0, 85, 110, 105, 116, 121, 69, 110, 103, 105, 110, 101, 46, 82, 101, 115, 111, 117,
    114, 99, 101, 77, 97, 110, 97, 103, 101, 109, 101, 110, 116, 46, 82, 101, 115, 111, 117,
    114, 99, 101, 80, 114, 111, 118, 105, 100, 101, 114, 115, 46, 65, 115, 115, 101, 116, 66,
    117, 110, 100, 108, 101, 82, 101, 113, 117, 101, 115, 116, 79, 112, 116, 105, 111, 110,
    115, 34, 0, 0, 0, 70, 119, 107, 46, 67, 114, 121, 112, 116, 46, 65, 115, 115, 101, 116,
    66, 117, 110, 100, 108, 101, 67, 114, 121, 112, 116, 80, 114, 111, 118, 105, 100, 101,
    114, 1, 0, 0, 0, 97, 10, 0, 0, 0, 104, 116, 116, 112, 58, 47, 47, 104, 47, 97, 0, 0, 0, 0,
    36, 0, 0, 0, 0, 0, 0, 0, 53, 0, 0, 0, 0, 0, 0, 0, 169, 0, 0, 0, 169, 0, 0, 0, 47, 0, 184,
    0, 0, 0, 208, 0, 0, 0, 0, 0, 0, 0, 0, 0, 0, 0, 0, 0, 0, 0, 0, 0, 0, 0, 222, 0, 0, 0, 169,
    0, 0, 0, 0, 0, 0, 0, 9, 0, 0, 0, 0, 0, 0, 0, 192, 0, 0, 0, 238, 0, 0, 0, 169, 0, 0, 0,
    174, 0, 0, 0, 131, 0, 0, 0, 255, 255, 255, 255, 0, 0, 0, 0, 2, 1, 0, 0, 200, 0, 0, 0, 4,
    0, 0, 0, 10, 1, 0, 0, 169, 0, 0, 0, 174, 0, 0, 0, 131, 0, 0, 0, 42, 1, 0, 0, 0, 0, 0, 0,
    2, 1, 0, 0, 200, 0, 0, 0, 4, 0, 0, 0, 46, 1, 0, 0, 8, 0, 0, 0, 214, 0, 0, 0, 78, 1, 0, 0]

/-- A download for each dependency of a plan. -/
def completed (plan : Plan) : List Download :=
  plan.dependencies.map fun location =>
    { input := { location, path := shown location.id.toNat }, rawSha256 := "00" }

/-- Limits under which two bytes are kept in memory. -/
def pairLimits : Limits :=
  { expandedBytes := 2 ^ 20, outputBytes := 2 ^ 20, memoryThreshold := 2 }

/-- A worker for bundles of two bytes. -/
def pairTools : Run.Tools :=
  { Run.idleTools with read := fun _ => .ok [1, 2], bundleCrc := fun _ _ => .ok 0 }

/-- The regions of the two bundles, the first in memory. -/
def pairRegions : List (String × Region) :=
  [("dependency-266.bundle", .bytes [1, 2]), ("dependency-302.bundle", .file "302")]

/-- Two bundles that complete in either order are opened as the same two regions. -/
theorem orders_agree_pair
    : ∃ (catalog : Catalog) (plan : Plan),
        parse pairFile = .ok catalog
        ∧ Plan.build catalog "a" ⟨none, none⟩ false = .ok plan
        ∧ Handover.of pairLimits "a" plan (completed plan).reverse
          = Handover.of pairLimits "a" plan (completed plan)
        ∧ let job := (Handover.of pairLimits "a" plan (completed plan)).job
          opening pairTools.toStore { job with inputs := job.inputs.reverse }
            = .ok (.regions pairRegions) := by
  let handedOver (plan : Plan) := (Handover.of pairLimits "a" plan (completed plan)).job
  have computed : ((parse pairFile).toOption.bind fun catalog =>
      (Plan.build catalog "a" ⟨none, none⟩ false).toOption.bind fun plan =>
        (opening pairTools.toStore (handedOver plan)).toOption.map fun found =>
          (plan.archive, found))
      = some (false, .regions pairRegions) := by
    decide +kernel
  simp only [Option.bind_eq_some_iff, Option.map_eq_some_iff, toOption_eq_some] at computed
  obtain ⟨catalog, parsed, plan, built, found, same, both⟩ := computed
  obtain ⟨preview, rfl⟩ := Prod.mk.inj both
  have all : ((completed plan).reverse.map fun v => v.input.location).Perm plan.dependencies := by
    rw [List.map_reverse, completed, List.map_map]
    exact (List.reverse_perm _).trans (List.Perm.of_eq (List.map_id _))
  have agree := @orders_agree
  refine ⟨catalog, plan, parsed, built, ?_, ?_⟩
  · exact agree.1 parsed built all (List.reverse_perm _)
  · have reversed := @agree.2 List.reverse pairTools (handedOver plan) _ preview
      (List.reverse_perm _).symm
    exact reversed.1.trans same

end MoenotesAssets.Worker
