import MoenotesAssets.Catalog.Lookup
import Mathlib.Data.List.Sort

/-! `plan::Plan`: what an export of a key downloads, and what becomes of it. -/

namespace MoenotesAssets.Planning

open Foundation MoenotesAssets.Catalogs

-----------------------------------------------------------------------------------------
-- Locations
-----------------------------------------------------------------------------------------

/-- `plan::POLICY` -/
def policy : String := "http-resources-v1"

/-- `catalog::CRI` -/
def criProvider : String := "CriWare.Assets.CriResourceProvider"

/-- `split_acb::TYPE` -/
def splitAcbType : String := "Fwk.Sound.SplitAcbData"

/-- `str::starts_with` -/
def startsWith (text start : String) : Bool := start.toList.isPrefixOf text.toList

/-- `plan::remote` -/
def remote (location : Location) : Bool :=
  startsWith location.internal "https://" || startsWith location.internal "http://"

/-- A location of a font type. -/
def isFont (location : Location) : Bool :=
  location.resourceType == "TMPro.TMP_FontAsset" || location.resourceType == "UnityEngine.Font"

/-- The location is loaded by the CRI provider. -/
def providedByCri (location : Location) : Bool := location.provider == criProvider

/-- The location is a CRI resource or a wrapper of one. -/
def isCri (location : Location) : Bool :=
  providedByCri location || startsWith location.resourceType "CriWare."

/-- The location has a type that is converted. -/
def convertible (location : Location) : Bool :=
  location.resourceType == splitAcbType
  || isCri location
  || [
      "UnityEngine.TextAsset",
      "UnityEngine.Texture2D",
      "UnityEngine.Sprite",
      "UnityEngine.U2D.SpriteAtlas"
    ].contains location.resourceType

/-- Locations in the order of their ids. -/
def sortById (locations : List Location) : List Location :=
  locations.insertionSort fun left right => left.id ≤ right.id

-----------------------------------------------------------------------------------------
-- Plans
-----------------------------------------------------------------------------------------

structure Plan where
  target : Location
  dependencies : List Location
  omittedLocal : List Location
  archive : Bool
  font : Bool
  embeddedCri : Bool
  supported : Bool
deriving DecidableEq

/-- What is downloaded of the HTTP dependencies, and whether a CRI payload is expected within
them.
-/
def selectCri (target : Location) (archive : Bool) (dependencies : List Location)
    : Except Failure (List Location × Bool) :=
  if isCri target && !archive then do
    let raw := dependencies.filter providedByCri
    ensure (raw.length ≤ 1) (.error "ambiguous CRI media dependencies")
    return if raw.isEmpty then (dependencies, true) else (raw, false)
  else .ok (dependencies, false)

/-- `Plan::build` for the location that the key resolved to. -/
def Plan.of (catalog : Catalog) (target : Location) (archive font : Bool)
    : Except Failure Plan := do
  let closure ← catalog.closureFrom target.id
  let (dependencies, embeddedCri) ←
    selectCri target archive (sortById (closure.filter remote))
  ensure (dependencies.length ≤ 512) (.error "dependency count limit")
  return {
    target
    dependencies
    omittedLocal := closure.filter (fun location => !remote location)
    archive
    font
    embeddedCri
    supported := archive || convertible target
  }

/-- Some location of the ids has a font type. -/
def hasFont (catalog : Catalog) (ids : List UInt32) : Bool :=
  ids.any fun id => catalog.locations[id]?.any isFont

/-- `Plan::build` -/
def Plan.build (catalog : Catalog) (key : String) (selector : Selector) (archive : Bool)
    : Except Failure Plan := do
  let target ← catalog.resolve key selector
  let ids ← context catalog.keys[key]? (.panic "no entry found for key")
  let font := hasFont catalog ids
  Plan.of catalog { target with key } (archive || font) font

/-- `Plan::validate` -/
def Plan.validate (plan : Plan) : Except Failure Unit := do
  ensure plan.supported (.error "unsupported preview type; use archive for HTTP containers")
  ensure (!plan.dependencies.isEmpty || plan.font)
    (.error "no HTTP resource payload; package-only content has no catalog download URL")

/-- `Plan::disposition` -/
def Plan.disposition (plan : Plan) : String :=
  if plan.font then
    if plan.dependencies.isEmpty then "font-reference" else "font-archive"
  else if plan.archive then "http-container-archive"
  else "preview"

-----------------------------------------------------------------------------------------
-- Lookups without a panic
-----------------------------------------------------------------------------------------

/-- Resolving does not panic, and what resolves is a key of the catalog. -/
theorem resolve_yields (catalog : Catalog) (key : String) (selector : Selector)
    : Yields (fun _ => catalog.keys[key]?.isSome = true) (catalog.resolve key selector) := by
  refine .bind (P := fun _ => catalog.keys[key]?.isSome = true) ?_ fun {found} known => ?_
  · refine .bind (.context _ _) fun {ids} held => ?_
    refine (Yields.mapM (P := fun _ => True) fun id _ => ?_).imp fun _ => ?_
    · exact (Yields.context _ _).imp fun _ => trivial
    · rw [held]
      rfl
  · exact .bind (.context _ _) fun _ => .bind (.ensure _ _) fun _ => .value known

/-- Collecting a closure does not panic. -/
theorem closureFrom_yields (catalog : Catalog) (id : UInt32)
    : Yields (fun _ => True) (catalog.closureFrom id) := by
  refine .bind (.loop (P := fun _ => True) (fun {closure} _ => ?_) trivial) fun _ =>
    .bind (.ensure _ _) fun _ => .value trivial
  rw [visitLast]
  split
  · exact .value fun _ _ => trivial
  · simp only
    split
    · exact .value fun _ _ => trivial
    · refine .bind (.context _ _) fun _ => ?_
      split
      · exact .bind (.ensure _ _) fun _ => .value fun _ _ => trivial
      · exact .value fun _ _ => trivial

-----------------------------------------------------------------------------------------
-- Laws of plans
-----------------------------------------------------------------------------------------

/-- What every built plan satisfies: fonts are archived, what is archived is supported, and a
CRI target that is not archived has its one payload or an embedded one.
-/
structure Plan.Lawful (plan : Plan) : Prop where
  font : plan.font = true → plan.archive = true
  supported : plan.supported = (plan.archive || convertible plan.target)
  remote : ∀ location ∈ plan.dependencies, remote location = true
  embedded
    : plan.embeddedCri = true
      → plan.archive = false
        ∧ isCri plan.target = true
        ∧ ∀ location ∈ plan.dependencies, providedByCri location = false
  raw
    : plan.archive = false
      → isCri plan.target = true
      → plan.embeddedCri = false
      → ∃ location, plan.dependencies = [location] ∧ providedByCri location = true

/-- What is selected of remote dependencies. -/
structure Selects (target : Location) (archive : Bool) (selected : List Location × Bool)
    : Prop where
  remote : ∀ location ∈ selected.1, remote location = true
  embedded
    : selected.2 = true
      → archive = false
        ∧ isCri target = true
        ∧ ∀ location ∈ selected.1, providedByCri location = false
  raw
    : archive = false
      → isCri target = true
      → selected.2 = false
      → ∃ location, selected.1 = [location] ∧ providedByCri location = true

/-- Selecting the CRI payload of a target, by the number of CRI dependencies. -/
theorem selectCri_yields (target : Location) (archive : Bool) {dependencies : List Location}
    (http : ∀ location ∈ dependencies, remote location = true)
    : Yields (Selects target archive) (selectCri target archive dependencies) := by
  rw [selectCri]
  cases kind : isCri target && !archive with
  | false =>
      refine .value ⟨http, nofun, fun preview cri => ?_⟩
      rw [cri, preview] at kind
      cases kind
  | true =>
      obtain ⟨cri, preview⟩ := Bool.and_eq_true_iff.mp kind
      rw [Bool.not_eq_true'] at preview
      refine .bind (.ensure _ _) fun few => ?_
      rw [decide_eq_true_eq] at few
      cases raw : dependencies.filter providedByCri with
      | nil =>
          refine .value ⟨http, fun _ => ⟨preview, cri, fun location member => ?_⟩, nofun⟩
          have missing := List.filter_eq_nil_iff.mp raw location member
          rwa [Bool.not_eq_true] at missing
      | cons location rest =>
          rw [raw, List.length_cons] at few
          obtain rfl := List.length_eq_zero_iff.mp (Nat.le_zero.mp (Nat.le_of_succ_le_succ few))
          have member : location ∈ dependencies.filter providedByCri :=
            raw ▸ List.mem_singleton_self location
          obtain ⟨inside, provided⟩ := List.mem_filter.mp member
          refine .value ⟨?_, nofun, fun _ _ _ => ⟨location, rfl, provided⟩⟩
          exact List.forall_mem_singleton.mpr (http location inside)

/-- Planning for a location does not panic. -/
theorem Plan.of_yields (catalog : Catalog) (target : Location) {archive font : Bool}
    (archived : font = true → archive = true)
    : Yields Plan.Lawful (Plan.of catalog target archive font) := by
  refine .bind (P := fun _ => True) (closureFrom_yields catalog _) fun {closure} _ => ?_
  refine .bind (selectCri_yields target archive fun location member => ?_) fun {selected} law => ?_
  · exact (List.mem_filter.mp ((List.mem_insertionSort _).mp member)).2
  · exact .bind (.ensure _ _) fun _ =>
      .value ⟨archived, rfl, law.remote, law.embedded, law.raw⟩

/-- Building a plan does not panic: a key that resolves is in the catalog. -/
theorem Plan.build_yields (catalog : Catalog) (key : String) (selector : Selector)
    (archive : Bool)
    : Yields Plan.Lawful (Plan.build catalog key selector archive) := by
  refine .bind (resolve_yields catalog key selector) fun {target} known => ?_
  obtain ⟨ids, held⟩ := Option.isSome_iff_exists.mp known
  rw [held]
  exact Plan.of_yields catalog _ fun font => by rw [font, Bool.or_true]

end MoenotesAssets.Planning
