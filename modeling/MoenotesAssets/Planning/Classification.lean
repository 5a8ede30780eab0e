import MoenotesAssets.Planning.Preflight

/-! What `ensure_preflight` calls ambiguous and missing when a key is not planned, and what
`Catalog::resolve` says of the key.
-/

namespace MoenotesAssets.Planning

open Foundation MoenotesAssets.Catalogs MoenotesAssets.Service

-----------------------------------------------------------------------------------------
-- Why a key does not resolve
-----------------------------------------------------------------------------------------

variable {catalog : Catalog} {key : String} {selector : Selector}

/-- The locations of a key that the catalog has. -/
def located (catalog : Catalog) (key : String) : List Location :=
  (catalog.keys[key]?.getD []).filterMap fun id => catalog.locations[id]?

/-- The locations of a key that a selector accepts. -/
def matching (catalog : Catalog) (key : String) (selector : Selector) : List Location :=
  (located catalog key).filter selector.accepts

/-- The selected locations of a key name different sources. -/
def Ambiguous (catalog : Catalog) (key : String) (selector : Selector) : Prop :=
  ∃ first ∈ matching catalog key selector, ∃ other ∈ matching catalog key selector,
    first.sameSource other = false

/-- The key is not in the catalog, or no location of it is selected. -/
def Missing (catalog : Catalog) (key : String) (selector : Selector) : Prop :=
  catalog.keys[key]? = none ∨ matching catalog key selector = []

/-- Every id of a key has a location, as in every catalog that is parsed. -/
def Complete (catalog : Catalog) (key : String) : Prop :=
  ∀ ids,
    catalog.keys[key]? = some ids
    → ∀ id ∈ ids, ∃ location, catalog.locations[id]? = some location

/-- The candidates of a key are its locations when none is missing, by induction on its ids. -/
theorem candidates_located (complete : Complete catalog key) {ids : List UInt32}
    (held : catalog.keys[key]? = some ids)
    : catalog.candidates key = .ok (located catalog key) := by
  have each := complete ids held
  rw [Catalog.candidates, held, located, held]
  change ids.mapM _ = _
  clear held complete
  rw [Option.getD_some]
  induction ids with
  | nil => rfl
  | cons id rest ih =>
      obtain ⟨here, later⟩ := List.forall_mem_cons.mp each
      obtain ⟨location, found⟩ := here
      rw [List.mapM_cons, ih later, List.filterMap_cons, found]
      rfl

/-- Naming the same source as the first of some locations is naming one source. -/
theorem all_sameSource {first : Location} {rest : List Location}
    : (first :: rest).all first.sameSource = true
      ↔ ∀ left ∈ first :: rest, ∀ right ∈ first :: rest, left.sameSource right = true := by
  rw [List.all_eq_true]
  constructor
  · intro all left member right member'
    have one := sameSource_iff.mp (all left member)
    have two := sameSource_iff.mp (all right member')
    refine sameSource_iff.mpr ⟨two.1.trans one.1.symm, two.2.1.trans one.2.1.symm, ?_⟩
    exact two.2.2.trans one.2.2.symm
  · exact fun all right member => all first List.mem_cons_self right member

/-- What resolving a key does, by the selected locations. -/
theorem resolve_cases (complete : Complete catalog key) (selector : Selector)
    : catalog.resolve key selector
      = match catalog.keys[key]?, matching catalog key selector with
        | none, _ => .error (.error "asset key not found")
        | some _, [] => .error (.error "selector did not match a location")
        | some _, first :: rest => do
            ensure ((first :: rest).all first.sameSource)
              (.error "ambiguous asset key; select expected_type or location_id")
            return first := by
  rw [Catalog.resolve]
  cases held : catalog.keys[key]? with
  | none =>
      rw [Catalog.candidates, held]
      rfl
  | some ids =>
      rw [candidates_located complete held, ok_bind]
      change (do
        let first ← context (matching catalog key selector).head? _
        ensure ((matching catalog key selector).all first.sameSource) _
        return first) = _
      cases matching catalog key selector with
      | nil => rfl
      | cons first rest => rfl

/-- A key is refused as ambiguous just when its selected locations name different sources. -/
theorem ambiguous_iff (complete : Complete catalog key)
    : Ambiguous catalog key selector
      ↔ catalog.resolve key selector
        = .error (.error "ambiguous asset key; select expected_type or location_id") := by
  rw [resolve_cases complete, Ambiguous]
  cases held : catalog.keys[key]? with
  | none =>
      have empty : matching catalog key selector = [] := by
        rw [matching, located, held]
        rfl
      simp [empty]
  | some ids =>
      cases matching catalog key selector with
      | nil => simp
      | cons first rest =>
          simp only [bind_error, ensure_error, and_true, pure_error, and_false, exists_false,
            or_false, ← Bool.not_eq_true, all_sameSource, not_forall, exists_prop]

/-- A key is missing just when resolving it finds no location. -/
theorem missing_iff (complete : Complete catalog key)
    : Missing catalog key selector
      ↔ catalog.resolve key selector = .error (.error "asset key not found")
        ∨ catalog.resolve key selector
          = .error (.error "selector did not match a location") := by
  rw [resolve_cases complete, Missing]
  cases held : catalog.keys[key]? with
  | none => simp
  | some ids =>
      cases matching catalog key selector with
      | nil => simp
      | cons first rest => simp [bind_error, -bind_pure_comp]

-----------------------------------------------------------------------------------------
-- What a report says
-----------------------------------------------------------------------------------------

/-- A report names the reason why a key does not resolve, and no other key. -/
structure KeyReport.Classifies (report : KeyReport) (catalog : Catalog) (selector : Selector)
    : Prop where
  ambiguous : report.status = .ambiguous ↔ Ambiguous catalog report.key selector
  missing : report.status = .missing ↔ Missing catalog report.key selector

/-- The candidates of a report are the locations of the key. -/
theorem reportCandidates_length (catalog : Catalog) (key : String)
    : (reportCandidates catalog key).length = (located catalog key).length :=
  List.length_map _

/-- A key that is not planned is reported by the number of its locations. -/
theorem reportKey_unplanned {request : ExportRequest} {failure : Failure}
    (unplanned : Plan.build catalog key request.selector request.archive = .error failure)
    : ∃ report,
        reportKey catalog request key = .ok report
        ∧ report.key = key
        ∧ report.status = if 1 < (located catalog key).length then .ambiguous else .missing := by
  have calm := (Plan.build_yields catalog key request.selector request.archive).calm
  cases failure with
  | panic message => exact absurd unplanned (calm message)
  | error message =>
      rw [reportKey, unplanned, ← reportCandidates_length]
      exact ⟨_, rfl, rfl, rfl⟩

/-- Locations that name different sources are more than one. -/
theorem Ambiguous.several (ambiguous : Ambiguous catalog key selector)
    : 1 < (located catalog key).length := by
  obtain ⟨first, member, other, member', apart⟩ := ambiguous
  have few : (matching catalog key selector).length ≤ (located catalog key).length :=
    List.length_filter_le _ _
  refine Nat.lt_of_lt_of_le ?_ few
  -- one selected location would name its own source
  by_contra single
  obtain ⟨only, alone⟩ : ∃ only, ∀ location ∈ matching catalog key selector, location = only := by
    match same : matching catalog key selector, single with
    | [], _ => rw [same] at member; cases member
    | [only], _ => exact ⟨only, fun location inside => List.mem_singleton.mp inside⟩
    | _ :: _ :: _, single => simp at single
  rw [alone first member, alone other member'] at apart
  exact Bool.false_ne_true (apart.symm.trans (sameSource_iff.mpr ⟨rfl, rfl, rfl⟩))

/-- An ambiguous key is not missing. -/
theorem Ambiguous.not_missing (ambiguous : Ambiguous catalog key selector)
    : ¬Missing catalog key selector := by
  obtain ⟨first, member, -⟩ := ambiguous
  rintro (absent | none)
  · rw [matching, located, absent] at member
    cases member
  · rw [none] at member
    cases member

/-- A key that is not planned is reported by the reason why it does not resolve just when it is
ambiguous, or missing with at most one location.
-/
theorem reportKey_classifies_iff {request : ExportRequest} {failure : Failure}
    (unplanned : Plan.build catalog key request.selector request.archive = .error failure)
    : ∃ report,
        reportKey catalog request key = .ok report
        ∧ report.key = key
        ∧ (report.Classifies catalog request.selector
          ↔ Ambiguous catalog key request.selector
            ∨ Missing catalog key request.selector ∧ (located catalog key).length ≤ 1) := by
  obtain ⟨report, reported, rfl, status⟩ := reportKey_unplanned unplanned
  refine ⟨report, reported, rfl, ?_⟩
  constructor
  · intro classifies
    by_cases several : 1 < (located catalog report.key).length
    · rw [if_pos several] at status
      exact Or.inl (classifies.ambiguous.mp status)
    · rw [if_neg several] at status
      exact Or.inr ⟨classifies.missing.mp status, Nat.le_of_not_lt several⟩
  · rintro (ambiguous | ⟨missing, few⟩)
    · rw [if_pos ambiguous.several] at status
      refine ⟨iff_of_true status ambiguous, iff_of_false ?_ ambiguous.not_missing⟩
      rw [status]
      exact nofun
    · rw [if_neg (Nat.not_lt.mpr few)] at status
      refine ⟨iff_of_false ?_ fun ambiguous => ambiguous.not_missing missing,
        iff_of_true status missing⟩
      rw [status]
      exact nofun

/-- A location that names no payload, under an id. -/
def bare (id : UInt32) : Location :=
  { dependent "bundled" "UnityEngine.Mesh" with id, dependencies := [] }

/-- A catalog of one asset with two locations in different places. -/
def clashCatalog : Catalog :=
  {
    keys := .ofList [("asset", [(1 : UInt32), 2])]
    locations := .ofList [((1 : UInt32), bare 1), (2, { bare 2 with internal := "Assets/other" })]
  }

/-- A key with locations of different sources is classified. -/
theorem reportKey_classifies_clash
    : Ambiguous clashCatalog "asset" ⟨none, none⟩
      ∧ ∃ report,
          reportKey clashCatalog (requestFor "asset") "asset" = .ok report
          ∧ report.Classifies clashCatalog ⟨none, none⟩ := by
  have stops : (Plan.build clashCatalog "asset" ⟨none, none⟩ false).isOk = false := by
    decide +kernel
  obtain ⟨failure, failed⟩ := error_of_isOk stops
  have ambiguous : Ambiguous clashCatalog "asset" ⟨none, none⟩ := by
    have held : matching clashCatalog "asset" ⟨none, none⟩
        = [bare 1, { bare 2 with internal := "Assets/other" }] := by
      decide +kernel
    exact ⟨bare 1, held ▸ List.mem_cons_self, _, held ▸ List.mem_cons_of_mem _ List.mem_cons_self,
      by decide⟩
  obtain ⟨report, reported, -, classified⟩ :=
    @reportKey_classifies_iff _ _ (requestFor "asset") failure failed
  exact ⟨ambiguous, report, reported, classified.mpr (.inl ambiguous)⟩

/-- A catalog of one asset with two such locations. -/
def bareAssetCatalog : Catalog :=
  {
    keys := .ofList [("asset", [(1 : UInt32), 2])]
    locations := .ofList [((1 : UInt32), bare 1), (2, bare 2)]
  }

/-- A key with two locations of one source resolves, and is reported as ambiguous when nothing can
be downloaded for it.
-/
theorem bare_asset_reported_ambiguous
    : (∃ failure, Plan.build bareAssetCatalog "asset" ⟨none, none⟩ false = .error failure)
      ∧ (∃ location, bareAssetCatalog.resolve "asset" ⟨none, none⟩ = .ok location)
      ∧ ∃ report,
          reportKey bareAssetCatalog (requestFor "asset") "asset" = .ok report
          ∧ report.status = .ambiguous
          ∧ ¬Ambiguous bareAssetCatalog "asset" ⟨none, none⟩ := by
  have stops : (Plan.build bareAssetCatalog "asset" ⟨none, none⟩ false).isOk = false := by
    decide +kernel
  obtain ⟨failure, failed⟩ := error_of_isOk stops
  have resolves : (bareAssetCatalog.resolve "asset" ⟨none, none⟩).isOk = true := by
    decide +kernel
  obtain ⟨location, found⟩ := ok_of_isOk resolves
  have several : 1 < (located bareAssetCatalog "asset").length := by decide +kernel
  have alike : ∀ left ∈ matching bareAssetCatalog "asset" ⟨none, none⟩,
      ∀ right ∈ matching bareAssetCatalog "asset" ⟨none, none⟩, left.sameSource right = true := by
    decide +kernel
  obtain ⟨report, reported, -, status⟩ :=
    @reportKey_unplanned _ _ (requestFor "asset") _ failed
  rw [if_pos several] at status
  refine ⟨⟨failure, failed⟩, ⟨location, found⟩, report, reported, status, ?_⟩
  rintro ⟨left, member, right, member', apart⟩
  rw [alike left member right member'] at apart
  cases apart

end MoenotesAssets.Planning
