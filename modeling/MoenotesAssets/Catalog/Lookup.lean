import MoenotesAssets.Catalog.Data
import MoenotesAssets.Foundation.Loop
import MoenotesAssets.Foundation.Fallible
import MoenotesAssets.Foundation.Table
import Std.Data.TreeSet

/-! What is asked of a parsed catalog: `Catalog::resolve` for a key and
`Catalog::closure_from` for the resources a location needs.
-/

namespace MoenotesAssets.Catalogs

open Foundation

-----------------------------------------------------------------------------------------
-- Resolving a key
-----------------------------------------------------------------------------------------

/-- A selector accepts a location. -/
def Selector.accepts (selector : Selector) (location : Location) : Bool :=
  selector.locationId.all (fun id => id == location.id)
  && selector.expectedType.all (fun kind => kind == location.resourceType)

/-- The locations of a key, in the order of its ids. -/
def Catalog.candidates (catalog : Catalog) (key : String) : Except Failure (List Location) := do
  let ids ← context catalog.keys[key]? (.error "asset key not found")
  ids.mapM (fun id => context catalog.locations[id]? (.error "location missing"))

/-- Two locations name the same source. -/
def Location.sameSource (first other : Location) : Bool :=
  other.internal == first.internal && other.provider == first.provider
  && other.dependencies == first.dependencies

/-- Naming the same source is a matter of three fields. -/
theorem sameSource_iff {first second : Location}
    : first.sameSource second = true
      ↔ second.internal = first.internal
        ∧ second.provider = first.provider
        ∧ second.dependencies = first.dependencies := by
  simp only [Location.sameSource, Bool.and_eq_true, beq_iff_eq, and_assoc]

/-- `Catalog::resolve` -/
def Catalog.resolve (catalog : Catalog) (key : String) (selector : Selector)
    : Except Failure Location := do
  let selected := (← catalog.candidates key).filter selector.accepts
  let first ← context selected.head? (.error "selector did not match a location")
  ensure (selected.all first.sameSource)
    (.error "ambiguous asset key; select expected_type or location_id")
  return first

-----------------------------------------------------------------------------------------
-- The closure of a location
-----------------------------------------------------------------------------------------

/-- The providers whose resources can be downloaded: `CRYPT`, `PLAIN` and `CRI`. -/
def supportedProviders : List String :=
  ["Fwk.Crypt.AssetBundleCryptProvider",
    "UnityEngine.ResourceManagement.ResourceProviders.AssetBundleProvider",
    "CriWare.Assets.CriResourceProvider"]

/-- The locals of the loop of `closure_from`; the last element of the vector `todo` is the
head of the list.
-/
structure Closure where
  todo : List UInt32
  seen : Std.TreeSet UInt32
  out : List Location

variable (catalog : Catalog)

/-- One round of the loop of `closure_from`. -/
def visitLast (closure : Closure) : Except Failure (Option Closure) :=
  match closure.todo with
  | [] => .ok none
  | id :: todo =>
      if closure.seen.contains id then .ok (some { closure with todo })
      else do
        let seen := closure.seen.insert id
        let found ← context catalog.locations[id]? (.error "dependency missing")
        let todo := found.dependencies.reverse ++ todo
        if found.options.isSome then do
          ensure (supportedProviders.contains found.provider) (.error "unsupported provider")
          return some { todo, seen, out := closure.out ++ [found] }
        else
          return some { closure with todo, seen }

/-- What a location may still push. -/
def Closure.weight (closure : Closure) (id : UInt32) (location : Location) : Nat :=
  if id ∈ closure.seen then 0 else location.dependencies.length

/-- The dependencies of the locations not seen yet. -/
def Closure.unseen (closure : Closure) : Nat :=
  Table.total closure.weight catalog.locations

/-- The ids to visit and those that may still be added. -/
def Closure.measure (closure : Closure) : Nat :=
  closure.todo.length + closure.unseen catalog

/-- A location is collected when it can be downloaded. -/
def collect (out : List Location) (found : Location) : List Location :=
  if found.options.isSome then out ++ [found] else out

/-- What a round that continues has done: it dropped an id seen before, or it saw the id,
collected its location and pushed its dependencies.
-/
theorem visitLast_cases {closure after : Closure}
    (round : visitLast catalog closure = .ok (some after))
    : ∃ id todo,
        closure.todo = id :: todo
        ∧ (id ∈ closure.seen ∧ after = { closure with todo }
          ∨ ∃ found,
              id ∉ closure.seen
              ∧ catalog.locations[id]? = some found
              ∧ (found.options.isSome = true → supportedProviders.contains found.provider = true)
              ∧ after
                = {
                    todo := found.dependencies.reverse ++ todo
                    seen := closure.seen.insert id
                    out := collect closure.out found
                  }) := by
  rw [visitLast] at round
  split at round
  · cases round
  · rename_i id todo next
    refine ⟨id, todo, next, ?_⟩
    dsimp only at round
    split at round
    · rename_i known
      obtain rfl := Option.some.inj (Except.ok.inj round)
      exact Or.inl ⟨known, rfl⟩
    · rename_i unknown
      obtain ⟨found, present, rest⟩ := bind_ok.mp round
      refine Or.inr ⟨found, unknown, context_ok.mp present, ?_⟩
      split at rest
      case isTrue offered =>
        obtain ⟨_, supported, returned⟩ := bind_ok.mp rest
        obtain rfl := Option.some.inj (pure_ok.mp returned)
        exact ⟨fun _ => ensure_ok.mp supported, by rw [collect, if_pos offered]⟩
      case isFalse bare =>
        obtain rfl := Option.some.inj (pure_ok.mp rest)
        exact ⟨fun offered => absurd offered bare, by rw [collect, if_neg bare]⟩

/-- What a round that fails has met: an id that is not located, or a location that no supported
provider offers.
-/
theorem visitLast_failed {closure : Closure} {failure : Failure}
    (round : visitLast catalog closure = .error failure)
    : ∃ id todo,
        closure.todo = id :: todo
        ∧ id ∉ closure.seen
        ∧ (catalog.locations[id]? = none ∧ failure = .error "dependency missing"
          ∨ ∃ found,
              catalog.locations[id]? = some found
              ∧ found.options.isSome = true
              ∧ supportedProviders.contains found.provider = false
              ∧ failure = .error "unsupported provider") := by
  rw [visitLast] at round
  split at round
  · cases round
  · rename_i id todo next
    dsimp only at round
    split at round
    · cases round
    · rename_i unknown
      refine ⟨id, todo, next, unknown, ?_⟩
      rcases bind_error.mp round with absent | ⟨found, present, rest⟩
      · obtain ⟨missing, same⟩ := context_error.mp absent
        exact Or.inl ⟨missing, same.symm⟩
      · refine Or.inr ⟨found, context_ok.mp present, ?_⟩
        split at rest
        case isTrue offered =>
          rcases bind_error.mp rest with refused | ⟨_, -, returned⟩
          · obtain ⟨unsupported, same⟩ := ensure_error.mp refused
            exact ⟨offered, unsupported, same.symm⟩
          · cases returned
        case isFalse => cases rest

/-- Seeing an id takes its dependencies from the unseen ones. -/
theorem Closure.unseen_insert {closure after : Closure} {id : UInt32} {found : Location}
    (present : catalog.locations[id]? = some found) (unknown : id ∉ closure.seen)
    (grown : after.seen = closure.seen.insert id)
    : closure.unseen catalog = after.unseen catalog + found.dependencies.length := by
  have others : ∀ {other : UInt32} {location : Location}, other ≠ id →
      closure.weight other location = after.weight other location := by
    intro other location apart
    simp only [Closure.weight, grown, Std.TreeSet.mem_insert,
      Std.LawfulEqOrd.compare_eq_iff_eq, Ne.symm apart, false_or]
  have changed : closure.unseen catalog + after.weight id found
      = after.unseen catalog + closure.weight id found :=
    Table.total_change present others
  have paid : after.weight id found = 0 := by
    rw [Closure.weight, if_pos (grown ▸ Std.TreeSet.mem_insert_self)]
  have open' : closure.weight id found = found.dependencies.length := by
    rw [Closure.weight, if_neg unknown]
  omega

/-- A round that continues lowers the measure: what it pushes was unseen before. -/
theorem visitLast_lowers : Lowers (visitLast catalog) (Closure.measure catalog) := by
  intro closure after round
  obtain ⟨id, todo, next, step⟩ := visitLast_cases catalog round
  rcases step with ⟨-, rfl⟩ | ⟨found, unknown, present, -, rfl⟩
  · have same : Closure.unseen catalog { closure with todo } = closure.unseen catalog := rfl
    simp only [Closure.measure, next, List.length_cons, same]
    omega
  · have paid := Closure.unseen_insert catalog present unknown
      (@rfl _ (Closure.mk (found.dependencies.reverse ++ todo) (closure.seen.insert id)
        (collect closure.out found)).seen)
    simp only [Closure.measure, next, List.length_cons, List.length_append, List.length_reverse]
    omega

/-- `Catalog::closure_from` -/
def Catalog.closureFrom (id : UInt32) : Except Failure (List Location) := do
  let closure ←
    loop (visitLast catalog) (visitLast_lowers catalog) { todo := [id], seen := ∅, out := [] }
  ensure (!closure.out.isEmpty) (.error "no downloadable dependencies")
  return closure.out

end MoenotesAssets.Catalogs
