import MoenotesAssets.Planning.Aliases

/-! The plan for a key without a selector is the one for its first alias. The order of the
aliases does not matter exactly when every two of them are planned alike.
-/

namespace MoenotesAssets.Planning

open Foundation MoenotesAssets.Catalogs

/-- `Selector::default` -/
def Selector.default : Selector := { expectedType := none, locationId := none }

/-- The catalog with other ids for a key. -/
def reorder (catalog : Catalog) (key : String) (ids : List UInt32) : Catalog :=
  { catalog with keys := catalog.keys.insert key ids }

/-- What an export of a key without a selector makes of its plan, if there is one. -/
def planned (catalog : Catalog) (key : String) (archive : Bool) : Option Outcome :=
  (Plan.build catalog key Selector.default archive).toOption.map Plan.outcome

/-- No order of the ids of a key makes a difference for its plan. -/
def OrderFree (catalog : Catalog) (key : String) (archive : Bool) : Prop :=
  ∀ ids other : List UInt32,
    catalog.keys[key]? = some ids
    → other.Perm ids
    → planned (reorder catalog key other) key archive = planned catalog key archive

variable {catalog : Catalog} {key : String} {archive : Bool} {ids : List UInt32}

/-- The aliases under the ids: they are all located, there is one, and they name one source. -/
structure Aliases (catalog : Catalog) (ids : List UInt32) : Prop where
  located : ∀ id ∈ ids, ∃ location, catalog.locations[id]? = some location
  inhabited : ids ≠ []
  sources
    : ∀ (id other : UInt32) (first second : Location),
        id ∈ ids
        → other ∈ ids
        → catalog.locations[id]? = some first
        → catalog.locations[other]? = some second
        → first.sameSource second = true

/-- Without a selector, every location is accepted. -/
theorem accepts_default (location : Location) : Selector.default.accepts location = true := rfl

/-- A key that resolves without a selector has aliases of one source. -/
theorem aliases_of_resolve {target : Location} (held : catalog.keys[key]? = some ids)
    (accepted : catalog.resolve key Selector.default = .ok target)
    : Aliases catalog ids := by
  simp only [Catalog.resolve, Catalog.candidates, bind_ok, context_ok, ensure_ok, pure_ok,
    held, Option.some.injEq] at accepted
  obtain ⟨found, ⟨_, rfl, mapped⟩, first, head, _, same, rfl⟩ := accepted
  rw [List.filter_eq_self.mpr fun location _ => accepts_default location] at head same
  have member : ∀ {id location}, id ∈ ids → catalog.locations[id]? = some location →
      location ∈ found := by
    intro id location inside present
    obtain ⟨value, among, reached⟩ := mapM_reaches mapped inside
    rw [present] at reached
    cases reached
    exact among
  refine ⟨fun id inside => ?_, ?_, ?_⟩
  · obtain ⟨location, -, reached⟩ := mapM_reaches mapped inside
    exact ⟨location, context_ok.mp reached⟩
  · rintro rfl
    cases mapped
    cases head
  · intro id other first' second inside among present present'
    obtain ⟨internal, provider, dependencies⟩ :=
      sameSource_iff.mp (List.all_eq_true.mp same first' (member inside present))
    obtain ⟨internal', provider', dependencies'⟩ :=
      sameSource_iff.mp (List.all_eq_true.mp same second (member among present'))
    exact sameSource_iff.mpr
      ⟨internal'.trans internal.symm, provider'.trans provider.symm,
        dependencies'.trans dependencies.symm⟩

/-- The first alias is what a key resolves to without a selector. -/
theorem Aliases.resolve {id : UInt32} {rest : List UInt32} {first : Location}
    (aliases : Aliases catalog (id :: rest)) (held : catalog.keys[key]? = some (id :: rest))
    (present : catalog.locations[id]? = some first)
    : catalog.resolve key Selector.default = .ok first := by
  obtain ⟨found, mapped⟩ : ∃ found, (id :: rest).mapM
      (fun id => context catalog.locations[id]? (Failure.error "location missing"))
      = .ok found := by
    refine mapM_total fun other inside => ?_
    obtain ⟨location, held⟩ := aliases.located other inside
    exact ⟨location, context_ok.mpr held⟩
  simp only [Catalog.resolve, Catalog.candidates, bind_ok, context_ok, ensure_ok, pure_ok]
  refine ⟨found, ⟨_, held, mapped⟩, first, ?_, (), ?_, rfl⟩
  · rw [List.filter_eq_self.mpr fun location _ => accepts_default location]
    cases mapM_ok.mp mapped with
    | cons here _ =>
        rw [present] at here
        cases here
        rfl
  · rw [List.filter_eq_self.mpr fun location _ => accepts_default location, List.all_eq_true]
    intro location member
    obtain ⟨other, among, reached⟩ := mapM_comes mapped member
    exact aliases.sources id other first location List.mem_cons_self among present
      (context_ok.mp reached)

/-- Aliases stay what they are in another order, in the catalog that has it. -/
theorem Aliases.perm {other : List UInt32} (aliases : Aliases catalog ids)
    (perm : other.Perm ids)
    : Aliases (reorder catalog key other) other where
  located := fun id inside => aliases.located id (perm.subset inside)
  inhabited := fun empty => aliases.inhabited (List.perm_nil.mp (empty ▸ perm).symm)
  sources := fun id second first' second' inside among =>
    aliases.sources id second first' second' (perm.subset inside) (perm.subset among)

/-- Whether there is a font does not depend on the order. -/
theorem hasFont_perm {other : List UInt32} (perm : other.Perm ids)
    : hasFont catalog other = hasFont catalog ids := by
  rw [Bool.eq_iff_iff, hasFont, hasFont, List.any_eq_true, List.any_eq_true]
  exact exists_congr fun id => and_congr_left fun _ => perm.mem_iff

/-- The plan for a key is the outcome for its first alias. -/
theorem Aliases.planned {id : UInt32} {rest : List UInt32} {first : Location}
    (aliases : Aliases catalog (id :: rest)) (held : catalog.keys[key]? = some (id :: rest))
    (present : catalog.locations[id]? = some first)
    : planned catalog key archive
      = outcomeOf catalog key (archive || hasFont catalog (id :: rest))
          (hasFont catalog (id :: rest)) first := by
  have built : Plan.build catalog key Selector.default archive
      = Plan.of catalog { first with key } (archive || hasFont catalog (id :: rest))
          (hasFont catalog (id :: rest)) := by
    rw [Plan.build, aliases.resolve held present, held]
    rfl
  rw [Planning.planned, built, outcomeOf]

/-- In another order, the plan is the outcome for the alias that comes first. -/
theorem Aliases.reordered {id : UInt32} {rest : List UInt32} {first : Location}
    (aliases : Aliases catalog ids) (perm : (id :: rest).Perm ids)
    (present : catalog.locations[id]? = some first)
    : Planning.planned (reorder catalog key (id :: rest)) key archive
      = outcomeOf catalog key (archive || hasFont catalog ids) (hasFont catalog ids) first := by
  have held : (reorder catalog key (id :: rest)).keys[key]? = some (id :: rest) :=
    Std.TreeMap.getElem?_insert_self
  rw [(aliases.perm perm).planned held present, ← hasFont_perm perm]
  rfl

/-- The order of the aliases of a key that resolves without a selector does not decide how it is
exported exactly when every two of them are interchangeable.
-/
theorem orderFree_iff {target : Location} (named : catalog.Named)
    (held : catalog.keys[key]? = some ids)
    (accepted : catalog.resolve key Selector.default = .ok target)
    : OrderFree catalog key archive
      ↔ ∀ first second : Location,
          first.id ∈ ids
          → second.id ∈ ids
          → catalog.locations[first.id]? = some first
          → catalog.locations[second.id]? = some second
          → Interchangeable catalog (archive || hasFont catalog ids) first second := by
  have aliases := aliases_of_resolve held accepted
  obtain ⟨id, rest, rfl⟩ := List.exists_cons_of_ne_nil aliases.inhabited
  obtain ⟨opening, present⟩ := aliases.located id List.mem_cons_self
  constructor
  · intro free first second inside among held₁ held₂
    have agree : ∀ {location : Location}, location.id ∈ id :: rest →
        catalog.locations[location.id]? = some location →
        outcomeOf catalog key (archive || hasFont catalog (id :: rest))
          (hasFont catalog (id :: rest)) location = planned catalog key archive := by
      intro location member here
      have perm := (List.perm_cons_erase member).symm
      rw [← free _ _ held perm, aliases.reordered perm here]
    refine (outcomeOf_same_iff named held₁ held₂ ?_).mp ((agree inside held₁).trans
      (agree among held₂).symm)
    exact aliases.sources _ _ first second inside among held₁ held₂
  · intro alike _ other same perm
    cases held.symm.trans same
    cases other with
    | nil => exact absurd (List.nil_perm.mp perm) (List.cons_ne_nil _ _)
    | cons first later =>
        have inside : first ∈ id :: rest := perm.subset List.mem_cons_self
        obtain ⟨location, here⟩ := aliases.located first inside
        obtain rfl := named first location here
        obtain rfl := named id opening present
        rw [aliases.reordered perm here, aliases.planned held present]
        refine (outcomeOf_same_iff named here present ?_).mpr
          (alike location opening inside List.mem_cons_self here present)
        exact aliases.sources _ _ _ _ inside List.mem_cons_self here present

/-- One bundle with a texture and a mesh in it, both under the key `art`. -/
def artCatalog : Catalog :=
  let bundle : Location :=
    {
      id := 3, key := "bundle", internal := "https://host/art.bundle"
      provider := "Fwk.Crypt.AssetBundleCryptProvider", resourceType := "IAssetBundleResource"
      dependencies := [], options := some { hash := "", bundleName := "art", crc := 0, size := 9 }
    }
  let asset (id : UInt32) (resourceType : String) : Location :=
    {
      id, key := "art", internal := "Assets/art.asset", provider := "BundledAssetProvider"
      resourceType, dependencies := [3], options := none
    }
  {
    keys := ({} : Std.TreeMap String (List UInt32)).insert "art" [1, 2]
    locations :=
      ((({} : Std.TreeMap UInt32 Location).insert 1 (asset 1 "UnityEngine.Texture2D")).insert 2
        (asset 2 "UnityEngine.Mesh")).insert 3 bundle
  }

/-- Its locations stand under their own ids. -/
theorem artCatalog_named : artCatalog.Named := by
  intro id location found
  simp only [artCatalog, Std.TreeMap.getElem?_insert, Std.TreeMap.getElem?_emptyc,
    Std.LawfulEqOrd.compare_eq_iff_eq] at found
  split at found
  case isTrue same => exact Option.some.inj found ▸ same
  split at found
  case isTrue same => exact Option.some.inj found ▸ same
  split at found
  case isTrue same => exact Option.some.inj found ▸ same
  cases found

/-- The order of the texture and the mesh matters unless they are interchangeable. -/
theorem artCatalog_orderFree_iff
    : OrderFree artCatalog "art" false
      ↔ ∀ first second : Location,
          first.id ∈ [1, 2]
          → second.id ∈ [1, 2]
          → artCatalog.locations[first.id]? = some first
          → artCatalog.locations[second.id]? = some second
          → Interchangeable artCatalog (false || hasFont artCatalog [1, 2]) first second := by
  have held : artCatalog.keys["art"]? = some [1, 2] := by decide
  obtain ⟨target, accepted⟩ : ∃ target,
      artCatalog.resolve "art" Selector.default = .ok target :=
    ⟨_, by rfl⟩
  exact orderFree_iff artCatalog_named held accepted

/-- A texture is converted when it comes first; when a mesh of the same source does, the key is
refused.
-/
theorem artCatalog_ordered
    : artCatalog.Named
      ∧ (artCatalog.resolve "art" Selector.default).toOption.isSome = true
      ∧ ((planned artCatalog "art" false).map fun outcome =>
          (outcome.supported, outcome.validated)) = some (true, .ok ())
      ∧ ((planned (reorder artCatalog "art" [2, 1]) "art" false).map fun outcome =>
          (outcome.supported, outcome.validated))
        = some (false,
            .error (.error "unsupported preview type; use archive for HTTP containers"))
      ∧ ¬ OrderFree artCatalog "art" false := by
  have texture : ((planned artCatalog "art" false).map fun outcome =>
      (outcome.supported, outcome.validated)) = some (true, .ok ()) := by
    decide
  have mesh : ((planned (reorder artCatalog "art" [2, 1]) "art" false).map fun outcome =>
      (outcome.supported, outcome.validated))
        = some (false,
            .error (.error "unsupported preview type; use archive for HTTP containers")) := by
    decide
  refine ⟨artCatalog_named, by decide, texture, mesh, fun free => ?_⟩
  have same := free [1, 2] [2, 1] (by decide) (.swap 1 2 [])
  rw [same, texture] at mesh
  cases mesh

end MoenotesAssets.Planning
