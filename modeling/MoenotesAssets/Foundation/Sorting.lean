import Mathlib.Data.List.Sort

/-! Stable sorting by a key. The order in which elements were given does not show behind it when
no two of them share a key.
-/

namespace Foundation

section Sorting

variable {α β κ : Type} [LE κ] [DecidableLE κ]

/-- `sort_by_key` -/
def sortByKey (key : α → κ) (list : List α) : List α :=
  list.insertionSort fun left right => key left ≤ key right

/-- Sorting keeps the elements. -/
theorem sortByKey_perm (key : α → κ) (list : List α) : (sortByKey key list).Perm list :=
  List.perm_insertionSort _ _

/-- A key that a map leaves alone sorts before and behind it alike. -/
theorem sortByKey_map (key : β → κ) (f : α → β) (list : List α)
    : (sortByKey (fun item => key (f item)) list).map f = sortByKey key (list.map f) :=
  List.map_insertionSort _ _ f list fun _ _ _ _ => Iff.rfl

variable [Std.IsLinearOrder κ]

/-- Sorted elements are in order. -/
theorem sortByKey_sorted (key : α → κ) (list : List α)
    : (sortByKey key list).Pairwise fun left right => key left ≤ key right := by
  have total : Std.Total fun left right : α => key left ≤ key right :=
    ⟨fun _ _ => Std.le_total⟩
  have transitive : IsTrans α fun left right => key left ≤ key right :=
    ⟨fun _ _ _ => Std.le_trans⟩
  exact List.pairwise_insertionSort _ list

/-- The same elements without a common key are sorted into the same list. -/
theorem sortByKey_eq {key : α → κ} {list other : List α} (same : list.Perm other)
    (distinct : (list.map key).Nodup)
    : sortByKey key list = sortByKey key other := by
  have perm : (sortByKey key list).Perm (sortByKey key other) :=
    (sortByKey_perm key list).trans (same.trans (sortByKey_perm key other).symm)
  have apart := List.inj_on_of_nodup_map
    (((sortByKey_perm key list).map key).nodup_iff.mpr distinct)
  refine perm.eq_of_pairwise ?_ (sortByKey_sorted key list) (sortByKey_sorted key other)
  intro left right member member' below above
  exact apart member (perm.mem_iff.mpr member') (Std.le_antisymm below above)

end Sorting

end Foundation
