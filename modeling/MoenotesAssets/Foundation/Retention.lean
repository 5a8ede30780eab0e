import Mathlib.Data.List.DropRight

/-! Lists of which the first or the last elements are kept: what is kept of an append depends on
what is kept of its parts only.
-/

namespace Foundation

variable {α : Type}

/-- The last `limit` elements of a list, or the first. -/
def kept (limit : Nat) (tail : Bool) (list : List α) : List α :=
  if tail then list.rtake limit else list.take limit

/-- As many elements are kept as there are, up to the limit. -/
theorem length_kept (limit : Nat) (tail : Bool) (list : List α)
    : (kept limit tail list).length = min limit list.length := by
  cases tail with
  | false => exact List.length_take
  | true =>
      rw [kept, if_pos rfl, List.rtake, List.length_drop]
      omega

/-- What fits is kept as it is. -/
theorem kept_whole {limit : Nat} (tail : Bool) {list : List α} (fits : list.length ≤ limit)
    : kept limit tail list = list := by
  cases tail with
  | false => exact List.take_of_length_le fits
  | true => rw [kept, if_pos rfl, List.rtake, Nat.sub_eq_zero_of_le fits, List.drop_zero]

/-- The first elements of an append: those of its first part, and of its second as many as there
is room for.
-/
theorem take_append_kept (limit : Nat) (list more : List α)
    : list.take limit ++ more.take (limit - (list.take limit).length)
      = (list ++ more).take limit := by
  rw [List.take_append, List.length_take]
  congr 2
  omega

/-- The last elements of an append: those of its second part, and of the last ones of its first
part as many as there is room for.
-/
theorem rtake_append_kept (limit : Nat) (list more : List α)
    : (list.rtake limit).drop ((list.rtake limit).length + (more.rtake limit).length - limit)
        ++ more.rtake limit
      = (list ++ more).rtake limit := by
  simp only [List.rtake, List.drop_drop, List.length_drop, List.length_append, List.drop_append]
  congr 1
  · refine List.drop_eq_drop_iff.mpr ?_
    omega
  · congr 1
    omega

end Foundation
