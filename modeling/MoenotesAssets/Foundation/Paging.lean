import Mathlib.Data.List.Basic

/-! Pages of a list that a client turns: each begins where the items of those before it end. -/

namespace Foundation

universe u

variable {α : Type u} {list : List α}

/-- `skip(offset).take(limit)` -/
def page (list : List α) (offset limit : Nat) : List α := (list.drop offset).take limit

/-- A page and what comes behind its items. -/
theorem page_rest (list : List α) (offset limit : Nat)
    : page list offset limit ++ list.drop (offset + (page list offset limit).length)
      = list.drop offset := by
  rw [← List.drop_drop, page, List.length_take]
  rcases Nat.le_total limit (list.drop offset).length with enough | short
  · rw [Nat.min_eq_left enough, List.take_append_drop]
  · rw [Nat.min_eq_right short, List.take_of_length_le short, List.drop_length, List.append_nil]

/-- A page with room is empty behind the end only. -/
theorem page_eq_nil {offset limit : Nat} (room : 0 < limit)
    : page list offset limit = [] ↔ list.length ≤ offset := by
  rw [page, List.take_eq_nil_iff, List.drop_eq_nil_iff]
  omega

/-- Pages with room, from an offset on. -/
inductive Turned (list : List α) : Nat → List (List α) → Prop where
  | nil (offset : Nat) : Turned list offset []
  | cons {offset limit : Nat} {pages : List (List α)} (room : 0 < limit)
      (rest : Turned list (offset + (page list offset limit).length) pages)
    : Turned list offset (page list offset limit :: pages)

/-- The items of pages are next to each other, by induction on the pages. -/
theorem Turned.items {offset : Nat} {pages : List (List α)} (turned : Turned list offset pages)
    : pages.flatten ++ list.drop (offset + pages.flatten.length) = list.drop offset := by
  induction turned with
  | nil => simp
  | @cons offset limit pages room rest ih =>
      rw [List.flatten_cons, List.length_append, List.append_assoc, ← Nat.add_assoc, ih,
        page_rest]

/-- Pages up to an empty one have all items, by induction on the pages. -/
theorem Turned.complete {offset : Nat} {pages : List (List α)}
    (turned : Turned list offset pages) (ended : [] ∈ pages)
    : pages.flatten = list.drop offset := by
  induction turned with
  | nil => cases ended
  | @cons offset limit pages room rest ih =>
      rcases List.mem_cons.mp ended with empty | later
      · have behind := (page_eq_nil room).mp empty.symm
        rw [← empty, List.length_nil, Nat.add_zero] at rest
        have whole := rest.items
        rw [List.drop_eq_nil_of_le behind] at whole ⊢
        rw [List.flatten_cons, ← empty, List.nil_append]
        exact (List.append_eq_nil_iff.mp whole).1
      · rw [List.flatten_cons, ih later, page_rest]

end Foundation
