import MoenotesAssets.Catalog.Data
import MoenotesAssets.Foundation.Fallible
import Mathlib.Data.List.Destutter
import Mathlib.Data.List.Sort
import Mathlib.Data.String.Basic

/-! What `App::submit_export` does before it creates a task: the keys a request selects. -/

namespace MoenotesAssets.Service

open Foundation MoenotesAssets.Catalogs

/-- The settings of `config.rs` that the task service reads. -/
structure Config where
  downloads : Nat
  maxKeys : Nat
  queueLimit : Nat
deriving DecidableEq

/-- `service::ExportRequest`; `keyPrefix` is its `prefix`. -/
structure ExportRequest where
  snapshot : Option String
  keys : List String
  keyPrefix : Option String
  selector : Selector
  archive : Bool

/-- The keys a request names, or those of the catalog under its prefix, at most one more
than allowed.
-/
def requestedKeys (config : Config) (catalog : Catalog) (request : ExportRequest)
    : List String :=
  match request.keyPrefix with
  | some start =>
      (catalog.keys.keys.filter (fun key => start.toList.isPrefixOf key.toList)).take
        (config.maxKeys + 1)
  | none => request.keys

/-- `keys.sort(); keys.dedup();` -/
def sortedDistinct (keys : List String) : List String :=
  (keys.insertionSort (· ≤ ·)).destutter (· ≠ ·)

/-- The checks of `submit_export` and its selection, for the snapshot it looks up. -/
def selectKeys (config : Config) (request : ExportRequest)
    (lookup : Except String (String × Catalog))
    : Except String (String × List String) := do
  ensure (request.keyPrefix.isSome != !request.keys.isEmpty)
    "provide either keys or prefix"
  let (snapshot, catalog) ← lookup
  let keys := sortedDistinct (requestedKeys config catalog request)
  ensure (!keys.isEmpty && keys.length ≤ config.maxKeys) "empty or excessive selection"
  ensure (keys.all (fun key => key.utf8ByteSize ≤ 4096)) "key limit"
  ensure (request.selector.locationId.isNone || keys.length == 1)
    "location_id requires exactly one key"
  return (snapshot, keys)

/-- Sorting and removing repetitions leaves each key once: neighbours of a sorted list
that differ are strictly ordered.
-/
theorem sortedDistinct_nodup (keys : List String) : (sortedDistinct keys).Nodup := by
  have sorted : (sortedDistinct keys).Pairwise (· ≤ ·) :=
    (List.pairwise_insertionSort (· ≤ ·) keys).sublist (List.destutter_sublist _ _)
  have chain : (sortedDistinct keys).IsChain (· ≠ ·) := List.isChain_destutter _ _
  have strict : (sortedDistinct keys).IsChain (· < ·) := by
    refine List.isChain_iff_getElem.mpr fun index bound => ?_
    have below := List.isChain_iff_getElem.mp sorted.isChain index bound
    have apart := List.isChain_iff_getElem.mp chain index bound
    exact lt_of_le_of_ne below apart
  exact strict.pairwise.imp ne_of_lt

/-- A selection names every key once. -/
theorem selectKeys_nodup {config : Config} {request : ExportRequest}
    {lookup : Except String (String × Catalog)} {snapshot : String} {keys : List String}
    (selected : selectKeys config request lookup = .ok (snapshot, keys))
    : keys.Nodup := by
  simp only [selectKeys, bind_ok, pure_ok, ensure_ok] at selected
  obtain ⟨_, _, ⟨found, catalog⟩, _, _, _, _, _, _, _, rest⟩ := selected
  obtain ⟨rfl, rfl⟩ := Prod.mk.inj rest
  exact sortedDistinct_nodup _

end MoenotesAssets.Service
