import MoenotesAssets.Planning.Routing
import MoenotesAssets.Worker.Waveforms

/-! The inputs of a preview in `worker::run`: the payload of a sound or video, or the bundles that
are opened together with their names, and which of them are read at once.
-/

namespace MoenotesAssets.Worker

open Foundation Foundation.Machine MoenotesAssets.Catalogs
open Planning (providedByCri distinctNeighbours)

-----------------------------------------------------------------------------------------
-- Jobs
-----------------------------------------------------------------------------------------

/-- `worker::Input` -/
structure Input where
  location : Location
  path : String
deriving DecidableEq

/-- The limits of a configuration with the threshold above which bundles stay on disk. -/
structure Limits extends Config where
  memoryThreshold : Nat

/-- `worker::Job`; of the configuration the limits. -/
structure Job where
  limits : Limits
  target : Location
  inputs : List Input
  archive : Bool
  fontReference : Option Planning.FontReference

/-- The job without the files of its inputs. -/
def Job.plain (job : Job) : Planning.Job :=
  {
    target := job.target
    inputs := job.inputs.map Input.location
    archive := job.archive
    fontReference := job.fontReference
  }

/-- The files of the inputs: what is read of one, and its `crypto::bundle_crc` under a limit. -/
structure Store where
  read : String → Except Failure (List UInt8)
  bundleCrc : String → Nat → Except Failure UInt32

-----------------------------------------------------------------------------------------
-- Regions
-----------------------------------------------------------------------------------------

/-- `unity_rs_core::source::Region`: bytes in memory, or a file. -/
inductive Region where
  | bytes (content : List UInt8)
  | file (path : String)
deriving DecidableEq

/-- The checksum of a bundle is the one that its options declare; zero declares none. -/
def crcAccepted (location : Location) (crc : UInt32) : Bool :=
  location.options.all fun o => o.crc == 0 || crc == o.crc

/-- An integer as `format!` writes it. -/
def shown (value : Int) : String := String.ofList (decimal value)

/-- `format!("dependency-{}.bundle", id)` -/
def regionName (id : UInt32) : String := "dependency-" ++ shown id.toNat ++ ".bundle"

/-- The regions that are opened so far, and the sum of their sizes. -/
structure Opened where
  regions : List (String × Region)
  sum : Nat
deriving DecidableEq

/-- One round of the loop over the sorted inputs. -/
def openInput (store : Store) (limits : Limits) (opened : Opened) (i : Input)
    : Except Failure Opened := do
  ensure (!providedByCri i.location) (.error "unsupported mixed provider target")
  let content ← store.read i.path
  let size := content.length
  let sum ← addSize opened.sum size
  ensure (sum ≤ limits.expandedBytes) (.error "input set budget")
  let crc ← store.bundleCrc i.path limits.expandedBytes
  ensure (crcAccepted i.location crc) (.error "bundle CRC mismatch")
  let region :=
    if size ≤ limits.memoryThreshold && sum ≤ limits.memoryThreshold then Region.bytes content
    else Region.file i.path
  return { regions := opened.regions ++ [(regionName i.location.id, region)], sum }

/-- The regions of the Unity branch. -/
def openInputs (store : Store) (limits : Limits) (inputs : List Input)
    : Except Failure (List (String × Region)) := do
  let inputs := sortByKey (fun i => i.location.id) inputs
  ensure (distinctNeighbours (inputs.map Input.location)) (.error "duplicate dependency ID")
  let opened ← inputs.foldlM (openInput store limits) { regions := [], sum := 0 }
  return opened.regions

/-- What a preview goes on with: the file of its one CRI payload, or the regions of its bundles. -/
inductive Opening where
  | raw (path : String)
  | regions (regions : List (String × Region))
deriving DecidableEq

/-- `worker::run` for a preview, from the routing to the inputs that are opened. -/
def opening (store : Store) (job : Job) : Except Failure Opening :=
  if Planning.media job.plain then do
    let raw := job.inputs.filter fun i => providedByCri i.location
    ensure (raw.length == 1) (.error "unsupported or ambiguous CRI dependencies")
    let input ← index raw 0
    return .raw input.path
  else do
    return .regions (← openInputs store job.limits job.inputs)

-----------------------------------------------------------------------------------------
-- What is opened
-----------------------------------------------------------------------------------------

section Opened

variable {store : Store} {limits : Limits} {job : Job}

/-- Opening an input adds the region with its name, if it is no CRI payload. -/
theorem openInput_ok {opened after : Opened} {i : Input}
    (opens : openInput store limits opened i = .ok after)
    : providedByCri i.location = false
      ∧ after.regions.map Prod.fst = opened.regions.map Prod.fst ++ [regionName i.location.id] := by
  simp only [openInput, bind_ok, ensure_ok, pure_ok, Bool.not_eq_true'] at opens
  obtain ⟨_, plain, _, -, _, -, _, -, _, -, _, -, rfl⟩ := opens
  exact ⟨plain, by rw [List.map_append, List.map_singleton]⟩

/-- The regions have the names of the sorted inputs, whose ids are different and none of which is a
CRI payload, by induction on the inputs.
-/
theorem openInputs_ok {inputs : List Input} {regions : List (String × Region)}
    (opens : openInputs store limits inputs = .ok regions)
    : distinctNeighbours ((sortByKey (fun i => i.location.id) inputs).map Input.location) = true
      ∧ (∀ i ∈ sortByKey (fun i => i.location.id) inputs, providedByCri i.location = false)
      ∧ regions.map Prod.fst
        = (sortByKey (fun i => i.location.id) inputs).map fun i => regionName i.location.id := by
  simp only [openInputs, bind_ok, ensure_ok, pure_ok] at opens
  obtain ⟨_, distinct, opened, folded, rfl⟩ := opens
  obtain ⟨plain, names⟩ := foldlM_invariant
    (P := fun done opened =>
      (∀ i ∈ done, providedByCri i.location = false)
      ∧ opened.regions.map Prod.fst = done.map fun i => regionName i.location.id)
    folded ⟨List.forall_mem_nil _, rfl⟩ (by
      rintro done state after i ⟨plain, names⟩ step
      obtain ⟨here, grown⟩ := openInput_ok step
      refine ⟨List.forall_mem_append.mpr ⟨plain, List.forall_mem_singleton.mpr here⟩, ?_⟩
      rw [grown, names, List.map_append, List.map_singleton])
  exact ⟨distinct, plain, names⟩

/-- What is opened for a preview is what it was routed to: the file of the one CRI payload, or a
region for each of the sorted bundles.
-/
theorem opening_routed {opened : Opening} (preview : job.archive = false)
    (opens : opening store job = .ok opened)
    : (∃ input ∈ job.inputs,
        opened = .raw input.path ∧ Planning.branch job.plain = .ok (.raw input.location))
      ∨ ∃ regions inputs,
          opened = .regions regions
          ∧ Planning.branch job.plain = .ok (.unity inputs)
          ∧ regions.map Prod.fst = inputs.map fun location => regionName location.id := by
  have plain : ¬job.plain.archive = true := Bool.not_eq_true _ ▸ preview
  rw [Planning.branch, if_neg plain]
  rw [opening] at opens
  split at opens
  case isTrue media =>
    obtain ⟨_, single, opens⟩ := bind_ok.mp opens
    rw [ensure_ok, beq_iff_eq] at single
    obtain ⟨input, only⟩ := List.length_eq_one_iff.mp single
    have raw : job.plain.inputs.filter providedByCri = [input.location] := by
      rw [Job.plain, List.filter_map, ← List.map_singleton]
      exact congrArg (List.map Input.location) only
    rw [only] at opens
    obtain rfl := Except.ok.inj opens
    refine Or.inl ⟨input, ?_, rfl, ?_⟩
    · exact (List.mem_filter.mp (only ▸ List.mem_singleton_self input)).1
    · rw [if_pos media, raw]
      rfl
  case isFalse unity =>
    obtain ⟨regions, opened, returned⟩ := bind_ok.mp opens
    obtain rfl := pure_ok.mp returned
    obtain ⟨distinct, bundles, names⟩ := openInputs_ok opened
    have sorted : Planning.sortById job.plain.inputs
        = (sortByKey (fun i => i.location.id) job.inputs).map Input.location :=
      (sortByKey_map Location.id Input.location job.inputs).symm
    have unmixed : (Planning.sortById job.plain.inputs).all (fun location =>
        !providedByCri location) = true := by
      rw [sorted, List.all_map, List.all_eq_true]
      exact fun i member => by rw [Function.comp_apply, bundles i member, Bool.not_false]
    refine Or.inr ⟨regions, Planning.sortById job.plain.inputs, rfl, ?_, ?_⟩
    · rw [if_neg unity]
      dsimp only
      rw [ensure_passes (sorted ▸ distinct), ok_bind, ensure_passes unmixed]
      rfl
    · rw [names, sorted, List.map_map]
      rfl

end Opened

end MoenotesAssets.Worker
