import MoenotesAssets.Planning.Conservation
import MoenotesAssets.Planning.Ordering

/-! `App::archive_resources`: one key for each HTTP resource of a snapshot, or no task at all. -/

namespace MoenotesAssets.Planning

open Foundation MoenotesAssets.Catalogs MoenotesAssets.Service

-----------------------------------------------------------------------------------------
-- The keys of an archive
-----------------------------------------------------------------------------------------

/-- The locations that `App::archive_resources` goes through, in the order of their ids. -/
def resources (catalog : Catalog) : List Location :=
  (catalog.locations.toList.map Prod.snd).filter
    fun location => location.options.isSome && remote location

/-- One round of its loop. -/
def addKey (catalog : Catalog) (keys : List String) (location : Location)
    : Except String (List String) := do
  ensure (catalog.keys[location.key]? == some [location.id])
    "HTTP resource primary key is missing or ambiguous"
  return keys ++ [location.key]

/-- `App::archive_resources` over the lookups of `App::snapshot`: the requested snapshot, and then
the found one by its id.
-/
def archiveResources (config : Config) (intake : Intake) (requested : Option String)
    (lookup : Option String → Except String (String × Catalog))
    : Except String Submission := do
  let (snapshot, catalog) ← lookup requested
  let keys ← (resources catalog).foldlM (addKey catalog) []
  let request : ExportRequest :=
    {
      snapshot := some snapshot
      keys
      keyPrefix := none
      selector := Selector.default
      archive := true
    }
  submitExport config intake request (lookup (some snapshot))

-----------------------------------------------------------------------------------------
-- Resources and their keys
-----------------------------------------------------------------------------------------

/-- A location of a catalog that has options and an HTTP id. -/
structure Resource (catalog : Catalog) (location : Location) : Prop where
  held : ∃ id : UInt32, catalog.locations[id]? = some location
  offered : location.options.isSome = true
  http : remote location = true

/-- The primary key of a location leads to it alone. -/
def Keyed (catalog : Catalog) (location : Location) : Prop :=
  catalog.keys[location.key]? = some [location.id]

section Resources

variable {catalog : Catalog} {location other : Location}

/-- The loop goes through the resources. -/
theorem mem_resources : location ∈ resources catalog ↔ Resource catalog location := by
  simp only [resources, List.mem_filter, List.mem_map, Bool.and_eq_true, Prod.exists,
    exists_eq_right, Std.TreeMap.mem_toList_iff_getElem?_eq_some]
  exact ⟨fun ⟨held, offered, http⟩ => ⟨held, offered, http⟩,
    fun ⟨held, offered, http⟩ => ⟨held, offered, http⟩⟩

/-- A resource stands under its own id. -/
theorem Resource.own (resource : Resource catalog location) (named : catalog.Named)
    : catalog.locations[location.id]? = some location := by
  obtain ⟨id, held⟩ := resource.held
  rw [named id location held]
  exact held

/-- Every location is gone through once. -/
theorem resources_nodup (named : catalog.Named)
    : ((resources catalog).map Location.id).Nodup := by
  have ids : (catalog.locations.toList.map Prod.snd).map Location.id
      = catalog.locations.keys := by
    rw [List.map_map, ← Std.TreeMap.map_fst_toList_eq_keys]
    refine List.map_congr_left fun ⟨id, found⟩ member => ?_
    exact named id found (Std.TreeMap.mem_toList_iff_getElem?_eq_some.mp member)
  have once : ((catalog.locations.toList.map Prod.snd).map Location.id).Nodup :=
    ids ▸ Std.TreeMap.nodup_keys
  exact once.sublist (List.filter_sublist.map _)

/-- The loop succeeds when the primary keys lead to their locations alone, and adds them in order,
by induction on the locations.
-/
theorem addKeys_ok {locations : List Location} {first keys : List String}
    : locations.foldlM (addKey catalog) first = .ok keys
      ↔ (∀ location ∈ locations, Keyed catalog location)
        ∧ keys = first ++ locations.map Location.key := by
  induction locations generalizing first with
  | nil =>
      rw [List.foldlM_nil, pure_ok, List.map_nil, List.append_nil]
      exact ⟨fun same => ⟨by simp, same.symm⟩, fun both => both.2.symm⟩
  | cons location rest ih =>
      have step : ∀ {keys : List String}, addKey catalog first location = .ok keys
          ↔ Keyed catalog location ∧ keys = first ++ [location.key] := by
        intro keys
        rw [addKey]
        simp only [bind_ok, ensure_ok, pure_ok, exists_const, beq_iff_eq, Keyed]
        exact and_congr_right fun _ => eq_comm
      rw [List.foldlM_cons, bind_ok, List.forall_mem_cons, List.map_cons]
      simp only [step, ih]
      constructor
      · rintro ⟨_, ⟨here, rfl⟩, later, rfl⟩
        exact ⟨⟨here, later⟩, by rw [List.append_assoc, List.singleton_append]⟩
      · rintro ⟨⟨here, later⟩, rfl⟩
        exact ⟨_, ⟨here, rfl⟩, later, by rw [List.append_assoc, List.singleton_append]⟩

/-- Different resources have different keys when each key leads to one alone. -/
theorem keys_nodup (named : catalog.Named)
    (keyed : ∀ location ∈ resources catalog, Keyed catalog location)
    : ((resources catalog).map Location.key).Nodup := by
  have once := List.Nodup.of_map Location.id (resources_nodup named)
  refine once.map_on fun location member other member' same => ?_
  have alone := keyed location member
  have alone' := keyed other member'
  rw [Keyed, same, alone', Option.some.injEq, List.cons.injEq] at alone
  exact List.inj_on_of_nodup_map (resources_nodup named) member member' alone.1.symm

/-- A resource is what its key resolves to. -/
theorem Keyed.resolve (keyed : Keyed catalog location)
    (held : catalog.locations[location.id]? = some location)
    : catalog.resolve location.key Selector.default = .ok location := by
  have aliases : Aliases catalog [location.id] := by
    constructor
    case located => exact List.forall_mem_singleton.mpr ⟨location, held⟩
    case inhabited => exact List.cons_ne_nil _ _
    case sources =>
      intro id other first second member member' found found'
      rw [List.mem_singleton.mp member, held] at found
      rw [List.mem_singleton.mp member', held] at found'
      obtain rfl := Option.some.inj found
      obtain rfl := Option.some.inj found'
      exact sameSource_iff.mpr ⟨rfl, rfl, rfl⟩
  exact aliases.resolve keyed held

/-- The plan that archives a resource downloads it. -/
theorem Keyed.planned {plan : Plan} (keyed : Keyed catalog location)
    (resource : Resource catalog location)
    (held : catalog.locations[location.id]? = some location)
    (built : Plan.build catalog location.key Selector.default true = .ok plan)
    : location ∈ plan.dependencies := by
  simp only [Plan.build, keyed.resolve held, Plan.of, selectCri, bind_ok, context_ok, ensure_ok,
    pure_ok, Except.ok.injEq, Bool.true_or, Bool.not_true, Bool.and_false, Bool.false_eq_true,
    if_false, exists_eq_left'] at built
  obtain ⟨ids, -, closure, closed, -, -, rfl⟩ := built
  obtain ⟨-, collects⟩ := closureFrom_ok closed
  have inside : location ∈ closure :=
    collects.mem.mpr ⟨resource.offered, location.id, .refl, held⟩
  exact (List.mem_insertionSort _).mpr (List.mem_filter.mpr ⟨inside, resource.http⟩)

end Resources

-----------------------------------------------------------------------------------------
-- Archives of snapshots
-----------------------------------------------------------------------------------------

/-- Distinct keys are sorted, and none is dropped. -/
theorem sortedDistinct_perm {keys : List String} (distinct : keys.Nodup)
    : (sortedDistinct keys).Perm keys := by
  have perm : (keys.insertionSort (· ≤ ·)).Perm keys := List.perm_insertionSort _ _
  have chain : (keys.insertionSort (· ≤ ·)).IsChain (· ≠ ·) :=
    (perm.nodup_iff.mpr distinct).isChain
  rw [sortedDistinct, List.destutter_of_isChain _ _ chain]
  exact perm

/-- The keys of a task cover the resources of a catalog: there is one key for each of them, which
leads to it alone, and its plan downloads it.
-/
structure Covers (catalog : Catalog) (keys : List String) : Prop where
  distinct : keys.Nodup
  single : ∀ key ∈ keys, ∃! location, Resource catalog location ∧ location.key = key
  listed : ∀ {location : Location}, Resource catalog location → location.key ∈ keys
  resolves
    : ∀ {location : Location},
        Resource catalog location → catalog.resolve location.key Selector.default = .ok location
  planned
    : ∀ {location : Location} {plan : Plan},
        Resource catalog location
        → Plan.build catalog location.key Selector.default true = .ok plan
        → location ∈ plan.dependencies

/-- The keys of all resources cover them. -/
theorem covers_of_keyed {catalog : Catalog} {keys : List String} (named : catalog.Named)
    (keyed : ∀ location ∈ resources catalog, Keyed catalog location)
    (perm : keys.Perm ((resources catalog).map Location.key))
    : Covers catalog keys := by
  have distinct := keys_nodup named keyed
  have keyed' : ∀ {location : Location}, Resource catalog location → Keyed catalog location :=
    fun resource => keyed _ (mem_resources.mpr resource)
  constructor
  case distinct => exact perm.nodup_iff.mpr distinct
  case single =>
    intro key member
    obtain ⟨location, among, rfl⟩ := List.mem_map.mp (perm.mem_iff.mp member)
    refine ⟨location, ⟨mem_resources.mp among, rfl⟩, fun other ⟨resource, same⟩ => ?_⟩
    exact List.inj_on_of_nodup_map distinct (mem_resources.mpr resource) among same
  case listed =>
    exact fun resource =>
      perm.mem_iff.mpr (List.mem_map_of_mem (mem_resources.mpr resource))
  case resolves => exact fun resource => (keyed' resource).resolve (resource.own named)
  case planned =>
    exact fun resource built => (keyed' resource).planned resource (resource.own named) built

/-- A task that archives a snapshot covers its HTTP resources, in archive mode and without a
selector; and there is no task when the primary key of one is missing or ambiguous.
-/
theorem archive_covers {data : List UInt8} {catalog : Catalog} {config : Config}
    {intake : Intake} {requested : Option String} {snapshot : String}
    {lookup : Option String → Except String (String × Catalog)}
    (parsed : parse data = .ok catalog) (found : lookup requested = .ok (snapshot, catalog))
    : (∀ {submission : Submission},
        archiveResources config intake requested lookup = .ok submission
        → Covers catalog submission.keys
          ∧ submission.archive = true
          ∧ submission.selector = Selector.default
          ∧ lookup (some snapshot) = .ok (submission.snapshot, submission.catalog))
      ∧ ∀ {location : Location},
          Resource catalog location
          → ¬Keyed catalog location
          → ∃ error, archiveResources config intake requested lookup = .error error := by
  have named : catalog.Named := fun _ _ held => (represents_of_parse parsed).named held
  have accepted : ∀ {submission : Submission},
      archiveResources config intake requested lookup = .ok submission →
        ∃ keys,
          (resources catalog).foldlM (addKey catalog) [] = .ok keys
          ∧ submitExport config intake
              {
                snapshot := some snapshot
                keys
                keyPrefix := none
                selector := Selector.default
                archive := true
              } (lookup (some snapshot))
            = .ok submission := by
    intro submission submitted
    rw [archiveResources, found, ok_bind] at submitted
    exact bind_ok.mp submitted
  constructor
  · intro submission submitted
    obtain ⟨keys, added, submitted⟩ := accepted submitted
    obtain ⟨keyed, rfl⟩ := addKeys_ok.mp added
    obtain ⟨selected, selector, archive⟩ := submitExport_ok submitted
    obtain ⟨again, -, keys⟩ := preflightKeys_ok.mp selected
    have distinct := keys_nodup named keyed
    have perm : submission.keys.Perm ((resources catalog).map Location.key) := by
      rw [keys]
      exact sortedDistinct_perm distinct
    exact ⟨covers_of_keyed named keyed perm, archive, selector, again⟩
  · intro location resource unkeyed
    cases outcome : archiveResources config intake requested lookup with
    | error error => exact ⟨error, rfl⟩
    | ok submission =>
        obtain ⟨keys, added, -⟩ := accepted outcome
        exact absurd ((addKeys_ok.mp added).1 location (mem_resources.mpr resource)) unkeyed

/-- A file with three keys and a location for each; two of them have options and all have an HTTP
id.
-/
def resourceFile : List UInt8 :=
  [66, 137, 227, 13, 2, 0, 0, 0, 122, 1, 0, 0, 0, 0, 0, 0, 0, 0, 0, 0, 0, 0, 0, 0, 0, 0, 0, 0,
    0, 0, 0, 0, 13, 0, 0, 0, 83, 121, 115, 116, 101, 109, 46, 83, 116, 114, 105, 110, 103, 74,
    0, 0, 0, 85, 110, 105, 116, 121, 69, 110, 103, 105, 110, 101, 46, 82, 101, 115, 111, 117,
    114, 99, 101, 77, 97, 110, 97, 103, 101, 109, 101, 110, 116, 46, 82, 101, 115, 111, 117,
    114, 99, 101, 80, 114, 111, 118, 105, 100, 101, 114, 115, 46, 65, 115, 115, 101, 116, 66,
    117, 110, 100, 108, 101, 82, 101, 113, 117, 101, 115, 116, 79, 112, 116, 105, 111, 110,
    115, 1, 0, 0, 0, 97, 1, 0, 0, 0, 98, 1, 0, 0, 0, 99, 10, 0, 0, 0, 104, 116, 116, 112, 58,
    47, 47, 104, 47, 97, 0, 0, 0, 0, 36, 0, 0, 0, 0, 0, 0, 0, 53, 0, 0, 0, 0, 0, 0, 0, 131, 0,
    0, 0, 131, 0, 0, 0, 47, 0, 136, 0, 0, 0, 47, 0, 141, 0, 0, 0, 47, 0, 156, 0, 0, 0, 180, 0,
    0, 0, 156, 0, 0, 0, 186, 0, 0, 0, 156, 0, 0, 0, 192, 0, 0, 0, 0, 0, 0, 0, 0, 0, 0, 0, 0, 0,
    0, 0, 0, 0, 0, 0, 222, 0, 0, 0, 131, 0, 0, 0, 0, 0, 0, 0, 9, 0, 0, 0, 0, 0, 0, 0, 164, 0,
    0, 0, 238, 0, 0, 0, 131, 0, 0, 0, 146, 0, 0, 0, 131, 0, 0, 0, 255, 255, 255, 255, 0, 0, 0,
    0, 2, 1, 0, 0, 172, 0, 0, 0, 136, 0, 0, 0, 146, 0, 0, 0, 131, 0, 0, 0, 255, 255, 255, 255,
    0, 0, 0, 0, 2, 1, 0, 0, 172, 0, 0, 0, 141, 0, 0, 0, 146, 0, 0, 0, 131, 0, 0, 0, 255, 255,
    255, 255, 0, 0, 0, 0, 255, 255, 255, 255, 172, 0, 0, 0, 4, 0, 0, 0, 10, 1, 0, 0, 4, 0, 0,
    0, 38, 1, 0, 0, 4, 0, 0, 0, 66, 1, 0, 0, 24, 0, 0, 0, 198, 0, 0, 0, 98, 1, 0, 0, 206, 0, 0,
    0, 106, 1, 0, 0, 214, 0, 0, 0, 114, 1, 0, 0]

/-- The snapshot of this file is archived with its two resources. -/
theorem archive_covers_resource
    : ∃ (catalog : Catalog) (submission : Submission),
        parse resourceFile = .ok catalog
        ∧ submission.keys = ["a", "b"]
        ∧ (resources catalog).map Location.key = ["a", "b"]
        ∧ catalog.locations.size = 3
        ∧ Covers catalog submission.keys
        ∧ submission.archive = true := by
  let config : Config := { downloads := 1, maxKeys := 2, queueLimit := 2 }
  let archived (catalog : Catalog) :=
    archiveResources config freshIntake none fun _ => .ok ("s", catalog)
  have computed : ((parse resourceFile).toOption.bind fun catalog =>
      (archived catalog).toOption.map fun submission =>
        (submission.keys, (resources catalog).map Location.key, catalog.locations.size))
      = some (["a", "b"], ["a", "b"], 3) := by
    decide +kernel
  simp only [Option.bind_eq_some_iff, Option.map_eq_some_iff, toOption_eq_some] at computed
  obtain ⟨catalog, parsed, submission, submitted, all⟩ := computed
  obtain ⟨keys, rest⟩ := Prod.mk.inj all
  obtain ⟨listed, three⟩ := Prod.mk.inj rest
  have covers := @archive_covers _ catalog config freshIntake none "s"
    (fun _ => .ok ("s", catalog)) parsed rfl
  obtain ⟨covered, archive, -⟩ := covers.1 submitted
  exact ⟨catalog, submission, parsed, keys, listed, three, covered, archive⟩

end MoenotesAssets.Planning
