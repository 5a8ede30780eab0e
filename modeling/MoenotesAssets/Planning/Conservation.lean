import MoenotesAssets.Planning.Routing
import MoenotesAssets.Catalog.Closure

/-! A plan loses nothing of the closure of its target: what is not downloaded is omitted by
name, except what a CRI preview replaces by its one payload.
-/

namespace MoenotesAssets.Planning

open Foundation MoenotesAssets.Catalogs

variable {catalog : Catalog} {key : String} {selector : Selector} {archive font : Bool}
  {target : Location} {plan : Plan} {closure : List Location}

/-- The plan replaces its HTTP locations by one CRI payload. -/
def Plan.replaces (plan : Plan) : Bool :=
  isCri plan.target && !plan.archive && !plan.embeddedCri

/-- What a plan keeps of the closure of its target. -/
structure Plan.Conserves (plan : Plan) (closure : List Location) : Prop where
  apart : plan.dependencies.Disjoint plan.omittedLocal
  once : plan.dependencies.Nodup
  omittedOnce : plan.omittedLocal.Nodup
  http : ∀ location ∈ plan.dependencies, remote location = true
  bare : ∀ location ∈ plan.omittedLocal, remote location = false
  increasing : plan.dependencies.Pairwise fun left right => left.id < right.id
  bounded : plan.dependencies.length ≤ 512
  omitted
    : ∀ location, location ∈ plan.omittedLocal ↔ location ∈ closure ∧ remote location = false
  complete
    : plan.replaces = false
      → ∀ location,
          location ∈ closure ↔ location ∈ plan.dependencies ∨ location ∈ plan.omittedLocal
  replaced
    : plan.replaces = true
      → ∃ payload,
          plan.dependencies = [payload]
          ∧ ∀ location,
              location = payload
              ↔ location ∈ closure ∧ remote location = true ∧ providedByCri location = true

/-- Sorted locations with different ids are strictly sorted. -/
theorem sortById_increasing {locations : List Location}
    (once : (locations.map Location.id).Nodup)
    : (sortById locations).Pairwise fun left right => left.id < right.id := by
  have distinct : ((sortById locations).map Location.id).Nodup :=
    ((sortById_perm locations).map Location.id).nodup_iff.mpr once
  refine ((sortById_sorted locations).and (List.pairwise_map.mp distinct)).imp ?_
  rintro left right ⟨below, apart⟩
  exact UInt32.lt_of_le_of_ne below apart

/-- What is selected of the dependencies: all of them, or the one CRI payload among them. -/
theorem selectCri_keeps {dependencies selected : List Location} {embedded : Bool}
    (selects : selectCri target archive dependencies = .ok (selected, embedded))
    : (isCri target && !archive && !embedded) = false ∧ selected = dependencies
      ∨ (isCri target && !archive && !embedded) = true
        ∧ selected = dependencies.filter providedByCri
        ∧ ∃ payload, selected = [payload] := by
  rw [selectCri] at selects
  split at selects
  case isTrue cri =>
    obtain ⟨_, few, returned⟩ := bind_ok.mp selects
    rw [ensure_ok, decide_eq_true_eq] at few
    rw [cri, Bool.true_and]
    cases raw : dependencies.filter providedByCri with
    | nil =>
        rw [raw] at returned
        cases returned
        exact Or.inl ⟨rfl, rfl⟩
    | cons payload rest =>
        rw [raw, List.length_cons] at few
        obtain rfl := List.length_eq_zero_iff.mp (Nat.le_zero.mp (Nat.le_of_succ_le_succ few))
        rw [raw] at returned
        cases returned
        exact Or.inr ⟨rfl, rfl, payload, rfl⟩
  case isFalse plain =>
    rw [Bool.not_eq_true] at plain
    cases selects
    exact Or.inl ⟨by rw [plain, Bool.false_and], rfl⟩

/-- A plan keeps what the closure of its target has. -/
theorem Plan.of_conserves (named : catalog.Named)
    (built : Plan.of catalog target archive font = .ok plan)
    : plan.target = target
      ∧ plan.archive = archive
      ∧ plan.supported = (archive || convertible target)
      ∧ plan.font = font
      ∧ ∃ closure, catalog.closureFrom target.id = .ok closure ∧ plan.Conserves closure := by
  simp only [Plan.of, bind_ok, ensure_ok, pure_ok] at built
  obtain ⟨closure, closed, ⟨selected, embedded⟩, selects, _, few, rfl⟩ := built
  refine ⟨rfl, rfl, rfl, rfl, closure, closed, ?_⟩
  have once := (closureFrom_ok closed).2.once named
  have httpOnce : ((closure.filter remote).map Location.id).Nodup :=
    once.sublist (List.filter_sublist.map Location.id)
  have increasing := sortById_increasing httpOnce
  have listed : ∀ location, location ∈ sortById (closure.filter remote)
      ↔ location ∈ closure ∧ remote location = true := by
    intro location
    rw [(sortById_perm _).mem_iff, List.mem_filter]
  have omitted : ∀ location, location ∈ closure.filter (fun location => !remote location)
      ↔ location ∈ closure ∧ remote location = false := by
    intro location
    rw [List.mem_filter, Bool.not_eq_true']
  have part : selected.Sublist (sortById (closure.filter remote)) := by
    rcases selectCri_keeps selects with ⟨-, rfl⟩ | ⟨-, rfl, -⟩
    · exact List.Sublist.refl _
    · exact List.filter_sublist
  have http : ∀ location ∈ selected, remote location = true :=
    fun location member => ((listed location).mp (part.subset member)).2
  refine
    {
      apart := fun location member absent => ?apart
      once := (increasing.sublist part).imp fun below same => ?once
      omittedOnce := once.of_map.filter _
      http
      bare := fun location member => ((omitted location).mp member).2
      increasing := increasing.sublist part
      bounded := of_decide_eq_true few
      omitted
      complete := fun kept location => ?complete
      replaced := fun replaced => ?replaced
    }
  case apart =>
    have local' := ((omitted location).mp absent).2
    rw [http location member] at local'
    cases local'
  case once => exact UInt32.ne_of_lt below (congrArg Location.id same)
  case complete =>
    rcases selectCri_keeps selects with ⟨-, rfl⟩ | ⟨replaced, -⟩
    · rw [listed, omitted, ← and_or_left]
      exact ⟨fun member => ⟨member, (Bool.eq_false_or_eq_true _)⟩, And.left⟩
    · cases kept.symm.trans replaced
  case replaced =>
    rcases selectCri_keeps selects with ⟨kept, -⟩ | ⟨-, rfl, payload, only⟩
    · cases kept.symm.trans replaced
    · refine ⟨payload, only, fun location => ?_⟩
      rw [← List.mem_singleton, ← only, List.mem_filter, listed, and_assoc]

/-- A built plan keeps what the closure of its target has, and a key with a font is archived, so
that no job for it comes to a conversion.
-/
theorem Plan.build_conserves (named : catalog.Named)
    (built : Plan.build catalog key selector archive = .ok plan)
    : (∃ closure,
        catalog.closureFrom plan.target.id = .ok closure ∧ plan.Conserves closure)
      ∧ ((∃ ids,
            catalog.keys[key]? = some ids
            ∧ ∃ id ∈ ids,
                ∃ location, catalog.locations[id]? = some location ∧ isFont location = true)
        → plan.font = true
          ∧ plan.archive = true
          ∧ plan.supported = true
          ∧ plan.disposition ≠ "preview"
          ∧ ∀ (arrived : List Location) (taken : Route),
              route (Job.of key plan arrived) = .ok taken
              → ∃ inputs, taken = .archive inputs) := by
  simp only [Plan.build, bind_ok, context_ok] at built
  obtain ⟨target, -, ids, held, built⟩ := built
  obtain ⟨same, archived, supported, fonts, closure, closed, conserves⟩ :=
    Plan.of_conserves named built
  refine ⟨⟨closure, same ▸ closed, conserves⟩, ?_⟩
  rintro ⟨_, held', id, among, location, present, font⟩
  cases held.symm.trans held'
  have found : hasFont catalog ids = true := by
    rw [hasFont, List.any_eq_true]
    exact ⟨id, among, by rw [present, Option.any_some, font]⟩
  rw [found, Bool.or_true] at archived supported
  rw [found] at fonts
  refine ⟨fonts, archived, supported, ?_, fun arrived taken routed => ?_⟩
  · rw [Plan.disposition, if_pos fonts]
    split <;> decide
  · obtain ⟨_, -, routed⟩ := bind_ok.mp routed
    rw [branch, if_pos (show (Job.of key plan arrived).archive = true from archived)] at routed
    obtain ⟨_, -, routed⟩ := bind_ok.mp routed
    exact ⟨_, (Except.ok.inj routed).symm⟩

/-- A catalog of an asset and its payload under their ids. -/
theorem smallCatalog_named {asset payload : Location} (first : asset.id = 1)
    (second : payload.id = 2)
    : (smallCatalog asset payload).Named := by
  intro id location found
  simp only [smallCatalog, Std.TreeMap.ofList_cons, Std.TreeMap.insertMany_cons,
    Std.TreeMap.insertMany_nil, Std.TreeMap.getElem?_insert, Std.TreeMap.getElem?_emptyc,
    Std.LawfulEqOrd.compare_eq_iff_eq] at found
  split at found
  case isTrue same => exact Option.some.inj found ▸ second.trans same
  split at found
  case isTrue same => exact Option.some.inj found ▸ first.trans same
  cases found

/-- A font with one bundle. -/
def fontCatalog : Catalog :=
  smallCatalog (dependent "bundled" "TMPro.TMP_FontAsset") (payload plainProvider)

/-- A preview of a font is an archive of its bundle. -/
theorem fontCatalog_conserves
    : ∃ plan,
        Plan.build fontCatalog "asset" ⟨none, none⟩ false = .ok plan
        ∧ (∃ closure,
            fontCatalog.closureFrom plan.target.id = .ok closure ∧ plan.Conserves closure)
        ∧ plan.archive = true
        ∧ plan.disposition ≠ "preview" := by
  obtain ⟨plan, built⟩ : ∃ plan,
      Plan.build fontCatalog "asset" ⟨none, none⟩ false = .ok plan := ⟨_, by rfl⟩
  obtain ⟨conserves, fonts⟩ := Plan.build_conserves (smallCatalog_named rfl rfl) built
  have held : fontCatalog.keys["asset"]? = some [1] := by decide
  obtain ⟨-, archived, -, kind, -⟩ := fonts
    ⟨[1], held, 1, by decide, dependent "bundled" "TMPro.TMP_FontAsset", by decide, by decide⟩
  exact ⟨plan, built, conserves, archived, kind⟩

end MoenotesAssets.Planning
