import MoenotesAssets.Planning.Plan
import MoenotesAssets.Catalog.Closure
import Mathlib.Data.Set.Card

/-! Plans for two aliases of a key: aliases name the same source and the same dependencies,
but a plan also depends on the type and on the options of the one it is built for.
-/

namespace MoenotesAssets.Planning

open Foundation MoenotesAssets.Catalogs

-----------------------------------------------------------------------------------------
-- What is compared
-----------------------------------------------------------------------------------------

/-- What an export makes of its plan: the flags, the result of `validate`, and which locations
are downloaded and omitted, with their options.
-/
structure Outcome where
  archive : Bool
  font : Bool
  embeddedCri : Bool
  supported : Bool
  validated : Except Failure Unit
  downloaded : Finset Location
  omitted : Finset Location

/-- The outcome of a plan. -/
def Plan.outcome (plan : Plan) : Outcome where
  archive := plan.archive
  font := plan.font
  embeddedCri := plan.embeddedCri
  supported := plan.supported
  validated := plan.validate
  downloaded := plan.dependencies.toFinset
  omitted := plan.omittedLocal.toFinset

/-- The outcome for an alias under its key, if there is a plan. -/
def outcomeOf (catalog : Catalog) (key : String) (archive font : Bool) (candidate : Location)
    : Option Outcome :=
  (Plan.of catalog { candidate with key } archive font).toOption.map Plan.outcome

/-- Plans have one outcome when their flags, their downloads and their omissions agree:
`validate` sees nothing else.
-/
theorem Plan.outcome_eq {first second : Plan}
    : first.outcome = second.outcome
      ↔ first.archive = second.archive
        ∧ first.font = second.font
        ∧ first.embeddedCri = second.embeddedCri
        ∧ first.supported = second.supported
        ∧ (∀ location, location ∈ first.dependencies ↔ location ∈ second.dependencies)
        ∧ ∀ location, location ∈ first.omittedLocal ↔ location ∈ second.omittedLocal := by
  constructor
  · intro same
    simp only [Plan.outcome, Outcome.mk.injEq] at same
    obtain ⟨archive, font, embedded, supported, -, downloaded, omitted⟩ := same
    refine ⟨archive, font, embedded, supported, fun location => ?_, fun location => ?_⟩
    · rw [← List.mem_toFinset, downloaded, List.mem_toFinset]
    · rw [← List.mem_toFinset, omitted, List.mem_toFinset]
  · rintro ⟨archive, font, embedded, supported, downloaded, omitted⟩
    have empty : first.dependencies.isEmpty = second.dependencies.isEmpty := by
      rw [Bool.eq_iff_iff, List.isEmpty_iff, List.isEmpty_iff, List.eq_nil_iff_forall_not_mem,
        List.eq_nil_iff_forall_not_mem]
      exact forall_congr' fun location => not_congr (downloaded location)
    have validated : first.validate = second.validate := by
      rw [Plan.validate, Plan.validate, supported, empty, font]
    simp only [Plan.outcome, Outcome.mk.injEq]
    refine ⟨archive, font, embedded, supported, validated, ?_, ?_⟩
    · ext location
      rw [List.mem_toFinset, List.mem_toFinset, downloaded]
    · ext location
      rw [List.mem_toFinset, List.mem_toFinset, omitted]

-----------------------------------------------------------------------------------------
-- What an alias is planned from
-----------------------------------------------------------------------------------------

section Aliases

variable (catalog : Catalog) (archive : Bool)

/-- The HTTP locations that a location depends on. -/
def remoteOf (root : UInt32) : Set Location :=
  {location | catalog.Offers root location ∧ remote location = true}

/-- The CRI payloads among them. -/
def rawOf (root : UInt32) : Set Location :=
  {location | location ∈ remoteOf catalog root ∧ providedByCri location = true}

/-- The HTTP locations below a list of dependencies. -/
def sharedRemote (dependencies : List UInt32) : Set Location :=
  {location | ∃ id ∈ dependencies, location ∈ remoteOf catalog id}

/-- The CRI payloads among them. -/
def sharedRaw (dependencies : List UInt32) : Set Location :=
  {location | location ∈ sharedRemote catalog dependencies ∧ providedByCri location = true}

/-- No plan is built for an alias: something is in the way of its closure, its CRI payload is
ambiguous, or there is too much to download.
-/
def Blocked (candidate : Location) : Prop :=
  catalog.Stuck candidate.id
  ∨ (archive = false ∧ isCri candidate = true ∧ 1 < (rawOf catalog candidate.id).ncard)
  ∨ (¬ (archive = false ∧ isCri candidate = true ∧ (rawOf catalog candidate.id).ncard = 1)
    ∧ 512 < (remoteOf catalog candidate.id).ncard)

/-- An alias that can be downloaded itself, and to which its dependencies do not lead back. -/
def Own (candidate : Location) : Prop :=
  candidate.options.isSome = true ∧ ∀ id ∈ candidate.dependencies, ¬ catalog.Reached id candidate.id

/-- A preview of a CRI wrapper takes the one CRI payload below it in place of the wrapper. -/
def Hidden (candidate : Location) : Prop :=
  archive = false
  ∧ isCri candidate = true
  ∧ providedByCri candidate = false
  ∧ remote candidate = true
  ∧ (sharedRaw catalog candidate.dependencies).ncard = 1

/-- Two aliases are planned alike. Either no plan is built for either, or one is for both and
neither adds a download of its own; and if they are not archived, both types are converted or
neither is, and both are CRI types or neither is, unless one CRI payload is all there is below
them.
-/
def Interchangeable (first second : Location) : Prop :=
  first.id = second.id
  ∨ (Blocked catalog archive first ∧ Blocked catalog archive second)
  ∨ (¬ Blocked catalog archive first
    ∧ ¬ Blocked catalog archive second
    ∧ (Own catalog first → Hidden catalog archive first)
    ∧ (Own catalog second → Hidden catalog archive second)
    ∧ (archive = false →
        convertible first = convertible second
        ∧ (isCri first = isCri second
          ∨ (sharedRemote catalog first.dependencies).ncard = 1
            ∧ (sharedRaw catalog first.dependencies).ncard = 1)))

end Aliases

-----------------------------------------------------------------------------------------
-- The plan for an alias
-----------------------------------------------------------------------------------------

section Plans

variable {catalog : Catalog} {key : String} {archive font : Bool}
  {candidate first second : Location}

/-- The number of elements of a set that a list enumerates. -/
theorem ncard_of_list {set : Set Location} {list : List Location} (once : list.Nodup)
    (lists : ∀ location, location ∈ list ↔ location ∈ set)
    : set.ncard = list.length := by
  have same : set = (list.toFinset : Set Location) := by
    ext location
    rw [Finset.mem_coe, List.mem_toFinset, lists]
  rw [same, Set.ncard_coe_finset, List.toFinset_card_of_nodup once]

/-- The HTTP locations that the plan for an alias takes. -/
def taken (catalog : Catalog) (archive : Bool) (candidate : Location) : Set Location :=
  {location |
    location ∈ remoteOf catalog candidate.id
    ∧ (archive = false → isCri candidate = true → (rawOf catalog candidate.id).Nonempty →
        providedByCri location = true)}

/-- What `Plan::build` makes of an alias. -/
structure PlannedFor (catalog : Catalog) (archive font : Bool) (candidate : Location)
    (plan : Plan)
    : Prop where
  archived : plan.archive = archive
  fonts : plan.font = font
  supported : plan.supported = (archive || convertible candidate)
  embedded
    : plan.embeddedCri = true
      ↔ archive = false ∧ isCri candidate = true ∧ ¬ (rawOf catalog candidate.id).Nonempty
  downloaded
    : ∀ location, location ∈ plan.dependencies ↔ location ∈ taken catalog archive candidate
  omitted
    : ∀ location,
        location ∈ plan.omittedLocal
        ↔ catalog.Offers candidate.id location ∧ remote location = false

/-- The HTTP locations of a closure, sorted, and the CRI payloads among them. -/
structure Lists (catalog : Catalog) (root : UInt32) (closure remotes : List Location) : Prop where
  all : ∀ location, location ∈ closure ↔ catalog.Offers root location
  remote : ∀ location, location ∈ remotes ↔ location ∈ remoteOf catalog root
  raw : ∀ location, location ∈ remotes.filter providedByCri ↔ location ∈ rawOf catalog root
  count : (remoteOf catalog root).ncard = remotes.length
  rawCount : (rawOf catalog root).ncard = (remotes.filter providedByCri).length

/-- A closure has the lists that a plan is made of. -/
theorem closure_lists {root : UInt32} {closure : List Location}
    (offers : ∀ location, location ∈ closure ↔ catalog.Offers root location)
    (once : (closure.map Location.id).Nodup)
    : Lists catalog root closure (sortById (closure.filter remote)) := by
  have remotes : ∀ location,
      location ∈ sortById (closure.filter remote) ↔ location ∈ remoteOf catalog root := by
    intro location
    rw [sortById, List.mem_insertionSort, List.mem_filter, offers]
    rfl
  have raws : ∀ location, location ∈ (sortById (closure.filter remote)).filter providedByCri
      ↔ location ∈ rawOf catalog root := by
    intro location
    rw [List.mem_filter, remotes]
    rfl
  have sorted : (sortById (closure.filter remote)).Nodup :=
    (List.perm_insertionSort _ _).nodup_iff.mpr (once.of_map.filter remote)
  exact ⟨offers, remotes, raws, ncard_of_list sorted remotes,
    ncard_of_list (sorted.filter providedByCri) raws⟩

/-- What is selected, and whether that is refused, from the lists of a closure. -/
theorem selectCri_cases {closure remotes : List Location}
    (lists : Lists catalog candidate.id closure remotes)
    : (∃ failure, selectCri { candidate with key } archive remotes = .error failure)
        ∧ archive = false ∧ isCri candidate = true ∧ 1 < (rawOf catalog candidate.id).ncard
      ∨ ∃ selected embedded,
          selectCri { candidate with key } archive remotes = .ok (selected, embedded)
          ∧ ¬ (archive = false ∧ isCri candidate = true ∧ 1 < (rawOf catalog candidate.id).ncard)
          ∧ (512 < selected.length
            ↔ ¬ (archive = false ∧ isCri candidate = true
                ∧ (rawOf catalog candidate.id).ncard = 1)
              ∧ 512 < (remoteOf catalog candidate.id).ncard)
          ∧ (embedded = true
            ↔ archive = false ∧ isCri candidate = true
              ∧ ¬ (rawOf catalog candidate.id).Nonempty)
          ∧ ∀ location, location ∈ selected ↔ location ∈ taken catalog archive candidate := by
  have same : isCri { candidate with key } = isCri candidate := rfl
  simp only [selectCri, same]
  cases kind : isCri candidate && !archive with
  | false =>
      have apart : ¬ (archive = false ∧ isCri candidate = true) := by
        rintro ⟨rfl, cri⟩
        rw [cri] at kind
        cases kind
      refine Or.inr ⟨remotes, false, rfl, fun all => apart ⟨all.1, all.2.1⟩, ?_, ?_, ?_⟩
      · rw [lists.count]
        exact ⟨fun many => ⟨fun all => apart ⟨all.1, all.2.1⟩, many⟩, fun all => all.2⟩
      · exact ⟨fun wrong => absurd wrong Bool.false_ne_true,
          fun all => absurd ⟨all.1, all.2.1⟩ apart⟩
      · intro location
        rw [lists.remote]
        exact ⟨fun inside => ⟨inside, fun preview cri => absurd ⟨preview, cri⟩ apart⟩, And.left⟩
  | true =>
      obtain ⟨cri, preview⟩ := Bool.and_eq_true_iff.mp kind
      rw [Bool.not_eq_true'] at preview
      have nonempty : (rawOf catalog candidate.id).Nonempty
          ↔ remotes.filter providedByCri ≠ [] := by
        rw [ne_eq, List.eq_nil_iff_forall_not_mem, not_forall]
        refine exists_congr fun location => ?_
        rw [not_not, lists.raw]
      by_cases few : (remotes.filter providedByCri).length ≤ 1
      · rw [if_pos rfl, ensure_passes (by simpa using few)]
        cases raw : remotes.filter providedByCri with
        | nil =>
            have none : ¬ (rawOf catalog candidate.id).Nonempty := fun some => nonempty.mp some raw
            have zero : (rawOf catalog candidate.id).ncard = 0 := by rw [lists.rawCount, raw]; rfl
            refine Or.inr ⟨remotes, true, rfl, fun all => by omega, ?_, ?_, ?_⟩
            · rw [lists.count]
              exact ⟨fun many => ⟨fun all => by omega, many⟩, fun all => all.2⟩
            · exact ⟨fun _ => ⟨preview, cri, none⟩, fun _ => rfl⟩
            · intro location
              rw [lists.remote]
              exact ⟨fun inside => ⟨inside, fun _ _ some => absurd some none⟩, And.left⟩
        | cons payload rest =>
            rw [raw, List.length_cons] at few
            obtain rfl := List.length_eq_zero_iff.mp (Nat.le_zero.mp (Nat.le_of_succ_le_succ few))
            have some : (rawOf catalog candidate.id).Nonempty := nonempty.mpr (by simp [raw])
            have one : (rawOf catalog candidate.id).ncard = 1 := by rw [lists.rawCount, raw]; rfl
            refine Or.inr ⟨[payload], false, rfl, fun all => by omega, ?_, ?_, ?_⟩
            · exact ⟨fun many => absurd many (by simp),
                fun all => absurd ⟨preview, cri, one⟩ all.1⟩
            · exact ⟨fun wrong => absurd wrong Bool.false_ne_true, fun all => absurd some all.2.2⟩
            · intro location
              rw [← raw, lists.raw]
              exact ⟨fun inside => ⟨inside.1, fun _ _ _ => inside.2⟩,
                fun inside => ⟨inside.1, inside.2 preview cri some⟩⟩
      · refine Or.inl ⟨?_, preview, cri, by rw [lists.rawCount]; omega⟩
        refine ⟨.error "ambiguous CRI media dependencies", ?_⟩
        rw [if_pos rfl, bind_error]
        exact Or.inl (ensure_error.mpr ⟨by simpa using few, rfl⟩)

/-- A plan is built for an alias exactly when it is not blocked. -/
theorem plan_of_cases (named : catalog.Named) (key : String) (archive font : Bool)
    (candidate : Location)
    : (∃ failure, Plan.of catalog { candidate with key } archive font = .error failure)
        ∧ Blocked catalog archive candidate
      ∨ ∃ plan,
          Plan.of catalog { candidate with key } archive font = .ok plan
          ∧ ¬ Blocked catalog archive candidate
          ∧ PlannedFor catalog archive font candidate plan := by
  simp only [Plan.of]
  cases closed : catalog.closureFrom candidate.id with
  | error failure => exact Or.inl ⟨⟨failure, rfl⟩, Or.inl (closureFrom_failed closed)⟩
  | ok closure =>
      obtain ⟨free, collects⟩ := closureFrom_ok closed
      have lists := closure_lists (fun _ => collects.mem) (collects.once named)
      rcases @selectCri_cases _ key archive candidate _ _ lists with
        ⟨⟨failure, refused⟩, ambiguous⟩
        | ⟨selected, embedded, selects, plain, many, embeds, takes⟩
      · refine Or.inl ⟨⟨failure, ?_⟩, Or.inr (Or.inl ambiguous)⟩
        exact bind_error.mpr (Or.inr ⟨closure, rfl, bind_error.mpr (Or.inl refused)⟩)
      · by_cases fits : selected.length ≤ 512
        · refine Or.inr ⟨_, bind_ok.mpr ⟨closure, rfl, bind_ok.mpr ⟨_, selects,
            bind_ok.mpr ⟨(), ensure_ok.mpr (by simpa using fits), rfl⟩⟩⟩, ?_, ?_⟩
          · rintro (stuck | ambiguous | crowded)
            · exact free stuck
            · exact plain ambiguous
            · exact absurd (many.mpr crowded) (by omega)
          · refine ⟨rfl, rfl, rfl, embeds, takes, fun location => ?_⟩
            rw [List.mem_filter, lists.all, Bool.not_eq_true']
        · refine Or.inl ⟨⟨.error "dependency count limit", ?_⟩,
            Or.inr (Or.inr (many.mp (by omega)))⟩
          exact bind_error.mpr (Or.inr ⟨closure, rfl, bind_error.mpr (Or.inr ⟨_, selects,
            bind_error.mpr (Or.inl (ensure_error.mpr ⟨by simpa using fits, rfl⟩))⟩)⟩)

end Plans

-----------------------------------------------------------------------------------------
-- Two aliases
-----------------------------------------------------------------------------------------

section Pairs

variable {catalog : Catalog} {archive : Bool} {location candidate first second : Location}

/-- A location offers what its dependencies offer, and itself. -/
theorem offers_iff (held : catalog.locations[candidate.id]? = some candidate)
    : catalog.Offers candidate.id location
      ↔ (∃ id ∈ candidate.dependencies, catalog.Offers id location)
        ∨ (Own catalog candidate ∧ location = candidate) := by
  constructor
  · rintro ⟨offered, id, reached, found⟩
    rcases Relation.ReflTransGen.cases_head reached with rfl | ⟨next, ⟨same, present, member⟩, rest⟩
    · obtain rfl := Option.some.inj (held.symm.trans found)
      by_cases back : ∃ id ∈ candidate.dependencies, catalog.Reached id candidate.id
      · obtain ⟨id, member, reached⟩ := back
        exact Or.inl ⟨id, member, offered, candidate.id, reached, held⟩
      · exact Or.inr ⟨⟨offered, fun id member reached => back ⟨id, member, reached⟩⟩, rfl⟩
    · obtain rfl := Option.some.inj (held.symm.trans present)
      exact Or.inl ⟨next, member, offered, id, rest, found⟩
  · rintro (⟨next, member, offered, id, reached, found⟩ | ⟨own, rfl⟩)
    · exact ⟨offered, id, reached.head ⟨candidate, held, member⟩, found⟩
    · exact ⟨own.1, location.id, .refl, held⟩

/-- Only the alias itself offers what it adds: another one with the same dependencies does not.
-/
theorem Own.apart (own : Own catalog first) (named : catalog.Named)
    (held : catalog.locations[second.id]? = some second)
    (dependencies : second.dependencies = first.dependencies) (apart : first.id ≠ second.id)
    : ¬ catalog.Offers second.id first := by
  rw [offers_iff held]
  rintro (⟨next, member, -, id, reached, found⟩ | ⟨-, rfl⟩)
  · obtain rfl := named id first found
    exact own.2 next (dependencies ▸ member) reached
  · exact apart rfl

/-- There are finitely many HTTP locations below one that has a closure. -/
theorem remoteOf_finite {root : UInt32} (free : ¬ catalog.Stuck root)
    : (remoteOf catalog root).Finite := by
  obtain ⟨out, closed⟩ := closureFrom_succeeds.mpr free
  refine (List.finite_toSet out).subset fun location member => ?_
  exact (closureFrom_ok closed).2.mem.mpr member.1

/-- A CRI alias that is not blocked has at most one payload. -/
theorem raw_single (free : ¬ Blocked catalog archive candidate) (preview : archive = false)
    (cri : isCri candidate = true) (some : (rawOf catalog candidate.id).Nonempty)
    : (rawOf catalog candidate.id).ncard = 1 := by
  have finite : (rawOf catalog candidate.id).Finite :=
    (remoteOf_finite fun stuck => free (Or.inl stuck)).subset fun _ member => member.1
  have several : ¬ 1 < (rawOf catalog candidate.id).ncard :=
    fun many => free (Or.inr (Or.inl ⟨preview, cri, many⟩))
  have positive := some.ncard_pos finite
  omega

/-- An alias that no CRI provider loads has the payloads of its dependencies. -/
theorem rawOf_wrapper (held : catalog.locations[candidate.id]? = some candidate)
    (wrapper : Own catalog candidate → providedByCri candidate = false)
    : rawOf catalog candidate.id = sharedRaw catalog candidate.dependencies := by
  ext location
  constructor
  · rintro ⟨⟨offered, http⟩, provided⟩
    rcases (offers_iff held).mp offered with ⟨id, member, below⟩ | ⟨own, rfl⟩
    · exact ⟨⟨id, member, below, http⟩, provided⟩
    · rw [wrapper own] at provided
      cases provided
  · rintro ⟨⟨id, member, below, http⟩, provided⟩
    exact ⟨⟨(offers_iff held).mpr (Or.inl ⟨id, member, below⟩), http⟩, provided⟩

/-- An alias adds nothing to the plan for it only when it is hidden, as the other alias does
not offer it.
-/
theorem hidden_of_same {font : Bool} {plan other : Plan} (named : catalog.Named)
    (held : catalog.locations[first.id]? = some first)
    (present : catalog.locations[second.id]? = some second)
    (dependencies : second.dependencies = first.dependencies) (apart : first.id ≠ second.id)
    (free : ¬ Blocked catalog archive first)
    (planned : PlannedFor catalog archive font first plan)
    (planned' : PlannedFor catalog archive font second other)
    (same : plan.outcome = other.outcome) (own : Own catalog first)
    : Hidden catalog archive first := by
  obtain ⟨-, -, -, -, downloads, omits⟩ := Plan.outcome_eq.mp same
  have missing := own.apart named present dependencies apart
  have offered : catalog.Offers first.id first := (offers_iff held).mpr (Or.inr ⟨own, rfl⟩)
  have http : remote first = true := by
    by_contra local'
    rw [Bool.not_eq_true] at local'
    have omitted := (omits first).mp ((planned.omitted first).mpr ⟨offered, local'⟩)
    exact missing ((planned'.omitted first).mp omitted).1
  have shown : first ∉ taken catalog archive first := by
    intro member
    have downloaded := (downloads first).mp ((planned.downloaded first).mpr member)
    exact missing ((planned'.downloaded first).mp downloaded).1.1
  have passed : archive = false ∧ isCri first = true ∧ (rawOf catalog first.id).Nonempty
      ∧ providedByCri first = false := by
    by_contra kept
    refine shown ⟨⟨offered, http⟩, fun preview cri some => ?_⟩
    by_contra other
    exact kept ⟨preview, cri, some, Bool.not_eq_true _ ▸ other⟩
  obtain ⟨preview, cri, some, wrapper⟩ := passed
  refine ⟨preview, cri, wrapper, http, ?_⟩
  rw [← rawOf_wrapper held fun _ => wrapper]
  exact raw_single free preview cri some

/-- The payload of a CRI alias is all there is below it when another alias, of no CRI type, is
planned alike.
-/
theorem single_of_same {font : Bool} {plan other : Plan}
    (held : catalog.locations[first.id]? = some first)
    (present : catalog.locations[second.id]? = some second)
    (same : first.sameSource second = true) (free : ¬ Blocked catalog archive first)
    (planned : PlannedFor catalog archive font first plan)
    (planned' : PlannedFor catalog archive font second other)
    (agree : plan.outcome = other.outcome) (preview : archive = false)
    (cri : isCri first = true) (plain : isCri second = false)
    : (sharedRemote catalog first.dependencies).ncard = 1
      ∧ (sharedRaw catalog first.dependencies).ncard = 1 := by
  obtain ⟨-, -, embeds, -, downloads, -⟩ := Plan.outcome_eq.mp agree
  obtain ⟨-, provider, dependencies⟩ := sameSource_iff.mp same
  have wrapper : providedByCri first = false := by
    rw [isCri, Bool.or_eq_false_iff] at plain
    rw [providedByCri, ← provider]
    exact plain.1
  have raw := rawOf_wrapper held fun _ => wrapper
  have some : (rawOf catalog first.id).Nonempty := by
    by_contra none
    have embedded := planned'.embedded.mp (embeds ▸ planned.embedded.mpr ⟨preview, cri, none⟩)
    rw [plain] at embedded
    cases embedded.2.1
  have one := raw_single free preview cri some
  rw [raw] at one
  have all : sharedRemote catalog first.dependencies = sharedRaw catalog first.dependencies := by
    refine Set.Subset.antisymm (fun location inside => ?_) fun _ member => member.1
    obtain ⟨id, member, offered, http⟩ := inside
    have downloaded : location ∈ taken catalog archive second :=
      ⟨⟨(offers_iff present).mpr (Or.inl ⟨id, dependencies ▸ member, offered⟩), http⟩,
        fun _ cri => absurd (plain.symm.trans cri) Bool.false_ne_true⟩
    have here := (planned.downloaded location).mp
      ((downloads location).mpr ((planned'.downloaded location).mpr downloaded))
    exact ⟨⟨id, member, offered, http⟩, here.2 preview cri some⟩
  exact ⟨all ▸ one, one⟩

/-- What is planned for an alias that adds nothing comes from its dependencies. -/
structure Shared (catalog : Catalog) (archive : Bool) (candidate : Location) : Prop where
  raw : rawOf catalog candidate.id = sharedRaw catalog candidate.dependencies
  taken
    : ∀ location,
        location ∈ taken catalog archive candidate
        ↔ location ∈ sharedRemote catalog candidate.dependencies
          ∧ (archive = false → isCri candidate = true →
              (sharedRaw catalog candidate.dependencies).Nonempty →
              providedByCri location = true)
  omitted
    : ∀ location,
        catalog.Offers candidate.id location ∧ remote location = false
        ↔ (∃ id ∈ candidate.dependencies, catalog.Offers id location) ∧ remote location = false

/-- An alias adds nothing when it is hidden or not its own. -/
theorem Shared.of_hidden (held : catalog.locations[candidate.id]? = some candidate)
    (hidden : Own catalog candidate → Hidden catalog archive candidate)
    : Shared catalog archive candidate := by
  have raw := rawOf_wrapper held fun own => (hidden own).2.2.1
  refine ⟨raw, fun location => ?_, fun location => ?_⟩
  · constructor
    · rintro ⟨⟨offered, http⟩, provided⟩
      rw [raw] at provided
      rcases (offers_iff held).mp offered with ⟨id, member, below⟩ | ⟨own, rfl⟩
      · exact ⟨⟨id, member, below, http⟩, provided⟩
      · obtain ⟨preview, cri, wrapper, -, one⟩ := hidden own
        have some : (sharedRaw catalog location.dependencies).Nonempty :=
          Set.nonempty_of_ncard_ne_zero (by omega)
        rw [provided preview cri some] at wrapper
        cases wrapper
    · rintro ⟨⟨id, member, below, http⟩, provided⟩
      refine ⟨⟨(offers_iff held).mpr (Or.inl ⟨id, member, below⟩), http⟩, ?_⟩
      rwa [raw]
  · refine and_congr_left fun local' => ?_
    rw [offers_iff held, or_iff_left_iff_imp]
    rintro ⟨own, rfl⟩
    rw [(hidden own).2.2.2.1] at local'
    cases local'

/-- One payload is all that is taken, by a CRI alias and by any other. -/
theorem taken_single (shared : Shared catalog archive candidate)
    (one : (sharedRemote catalog candidate.dependencies).ncard = 1)
    (payload : (sharedRaw catalog candidate.dependencies).ncard = 1)
    : location ∈ taken catalog archive candidate
      ↔ location ∈ sharedRaw catalog candidate.dependencies := by
  have finite : (sharedRemote catalog candidate.dependencies).Finite :=
    Set.finite_of_ncard_ne_zero (by omega)
  have same : sharedRaw catalog candidate.dependencies
      = sharedRemote catalog candidate.dependencies :=
    Set.eq_of_subset_of_ncard_le (fun _ member => member.1) (by omega) finite
  rw [shared.taken]
  constructor
  · rintro ⟨inside, -⟩
    rwa [same]
  · exact fun member => ⟨member.1, fun _ _ _ => member.2⟩

/-- Two aliases that are not blocked have one outcome exactly when neither adds anything and
their types are treated alike.
-/
theorem outcome_same_iff {font : Bool} {plan other : Plan} (named : catalog.Named)
    (held : catalog.locations[first.id]? = some first)
    (present : catalog.locations[second.id]? = some second)
    (same : first.sameSource second = true) (apart : first.id ≠ second.id)
    (free : ¬ Blocked catalog archive first) (free' : ¬ Blocked catalog archive second)
    (planned : PlannedFor catalog archive font first plan)
    (planned' : PlannedFor catalog archive font second other)
    : plan.outcome = other.outcome
      ↔ (Own catalog first → Hidden catalog archive first)
        ∧ (Own catalog second → Hidden catalog archive second)
        ∧ (archive = false →
            convertible first = convertible second
            ∧ (isCri first = isCri second
              ∨ (sharedRemote catalog first.dependencies).ncard = 1
                ∧ (sharedRaw catalog first.dependencies).ncard = 1)) := by
  obtain ⟨internal, provider, dependencies⟩ := sameSource_iff.mp same
  have reversed : second.sameSource first = true :=
    sameSource_iff.mpr ⟨internal.symm, provider.symm, dependencies.symm⟩
  constructor
  · intro agree
    refine ⟨hidden_of_same named held present dependencies apart free planned planned' agree,
      hidden_of_same named present held dependencies.symm apart.symm free' planned' planned
        agree.symm, fun preview => ⟨?_, ?_⟩⟩
    · have supported := (Plan.outcome_eq.mp agree).2.2.2.1
      rwa [planned.supported, planned'.supported, preview, Bool.false_or, Bool.false_or]
        at supported
    · cases cri : isCri first <;> cases other : isCri second
      case false.false | true.true => exact Or.inl rfl
      case true.false =>
        exact Or.inr
          (single_of_same held present same free planned planned' agree preview cri other)
      case false.true =>
        have single :=
          single_of_same present held reversed free' planned' planned agree.symm preview other cri
        rw [dependencies] at single
        exact Or.inr single
  · rintro ⟨hidden, hidden', alike⟩
    have shared := Shared.of_hidden held hidden
    have shared' := Shared.of_hidden present hidden'
    have kinds : archive = false → isCri first = isCri second
        ∨ (sharedRemote catalog first.dependencies).ncard = 1
          ∧ (sharedRaw catalog first.dependencies).ncard = 1 :=
      fun preview => (alike preview).2
    refine Plan.outcome_eq.mpr
      ⟨planned.archived.trans planned'.archived.symm, planned.fonts.trans planned'.fonts.symm,
        ?embedded, ?supported, fun location => ?downloaded, fun location => ?omitted⟩
    case embedded =>
      rw [Bool.eq_iff_iff, planned.embedded, planned'.embedded, shared.raw, shared'.raw,
        dependencies]
      refine and_congr_right fun preview => ?_
      rcases kinds preview with kind | ⟨-, payload⟩
      · rw [kind]
      · have some : (sharedRaw catalog first.dependencies).Nonempty :=
          Set.nonempty_of_ncard_ne_zero (by omega)
        exact ⟨fun all => absurd some all.2, fun all => absurd some all.2⟩
    case supported =>
      rw [planned.supported, planned'.supported]
      cases preview : archive with
      | true => rfl
      | false => rw [Bool.false_or, Bool.false_or, (alike preview).1]
    case downloaded =>
      rw [planned.downloaded, planned'.downloaded]
      by_cases kind : archive = false → isCri first = isCri second
      · rw [shared.taken, shared'.taken, dependencies]
        refine and_congr_right fun _ => forall_congr' fun preview => ?_
        rw [kind preview]
      · obtain ⟨preview, differ⟩ := Classical.not_imp.mp kind
        obtain ⟨one, payload⟩ := (kinds preview).resolve_left differ
        rw [taken_single shared one payload,
          taken_single shared' (dependencies ▸ one) (dependencies ▸ payload), dependencies]
    case omitted =>
      rw [planned.omitted, planned'.omitted, shared.omitted, shared'.omitted, dependencies]

/-- Aliases of one source are planned alike exactly when they are interchangeable. -/
theorem outcomeOf_same_iff {key : String} {font : Bool} (named : catalog.Named)
    (held : catalog.locations[first.id]? = some first)
    (present : catalog.locations[second.id]? = some second)
    (same : first.sameSource second = true)
    : outcomeOf catalog key archive font first = outcomeOf catalog key archive font second
      ↔ Interchangeable catalog archive first second := by
  by_cases apart : first.id = second.id
  · rw [apart] at held
    cases held.symm.trans present
    exact ⟨fun _ => Or.inl rfl, fun _ => rfl⟩
  · unfold outcomeOf Interchangeable
    rcases plan_of_cases named key archive font first with
      ⟨⟨failure, failed⟩, blocked⟩ | ⟨plan, built, free, planned⟩
    <;> rcases plan_of_cases named key archive font second with
      ⟨⟨failure', failed'⟩, blocked'⟩ | ⟨other, built', free', planned'⟩
    · rw [failed, failed']
      exact ⟨fun _ => Or.inr (Or.inl ⟨blocked, blocked'⟩), fun _ => rfl⟩
    · rw [failed, built']
      refine ⟨fun differ => (nomatch differ), ?_⟩
      rintro (here | ⟨-, blocked'⟩ | ⟨free, -⟩)
      · exact absurd here apart
      · exact absurd blocked' free'
      · exact absurd blocked free
    · rw [built, failed']
      refine ⟨fun differ => (nomatch differ), ?_⟩
      rintro (here | ⟨blocked, -⟩ | ⟨-, free', -⟩)
      · exact absurd here apart
      · exact absurd blocked free
      · exact absurd blocked' free'
    · rw [built, built']
      have agree := outcome_same_iff named held present same apart free free' planned planned'
      refine ⟨fun differ => Or.inr (Or.inr ⟨free, free', agree.mp (Option.some.inj differ)⟩), ?_⟩
      rintro (here | ⟨blocked, -⟩ | ⟨-, -, alike⟩)
      · exact absurd here apart
      · exact absurd blocked free
      · exact congrArg some (agree.mpr alike)

end Pairs

end MoenotesAssets.Planning
