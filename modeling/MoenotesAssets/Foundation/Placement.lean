import MoenotesAssets.Foundation.Bytes

/-! Pieces at positions of a list, and lists that agree up to a position. -/

namespace Foundation

universe u

variable {α : Type u} {list head tail piece one other : List α} {start stop i : Nat}

-----------------------------------------------------------------------------------------
-- Pieces
-----------------------------------------------------------------------------------------

/-- A piece of a list stands at a position. -/
def Placed (list : List α) (start : Nat) (piece : List α) : Prop :=
  ∃ front back, list = front ++ piece ++ back ∧ front.length = start

/-- A list stands at its own start. -/
theorem Placed.whole (list : List α) : Placed list 0 list :=
  ⟨[], [], by rw [List.nil_append, List.append_nil], rfl⟩

/-- The first of two pieces stands where both do. -/
theorem Placed.left (placed : Placed list start (head ++ tail)) : Placed list start head := by
  obtain ⟨front, back, shape, size⟩ := placed
  exact ⟨front, tail ++ back, by rw [shape]; simp only [List.append_assoc], size⟩

/-- The second of two pieces stands behind the first one. -/
theorem Placed.right (placed : Placed list start (head ++ tail))
    : Placed list (start + head.length) tail := by
  obtain ⟨front, back, shape, size⟩ := placed
  refine ⟨front ++ head, back, ?_, ?_⟩
  · rw [shape]
    simp only [List.append_assoc]
  · rw [List.length_append, size]

/-- A piece ends within its list. -/
theorem Placed.bounded (placed : Placed list start piece) : start + piece.length ≤ list.length := by
  obtain ⟨front, back, rfl, rfl⟩ := placed
  simp only [List.length_append]
  omega

/-- An element of a piece in its list. -/
theorem Placed.getElem? (placed : Placed list start piece) (inside : i < piece.length)
    : list[start + i]? = piece[i]? := by
  obtain ⟨front, back, rfl, rfl⟩ := placed
  rw [List.append_assoc, List.getElem?_append_right (Nat.le_add_right _ _),
    Nat.add_sub_cancel_left, List.getElem?_append_left inside]

/-- What a list has from the position of a piece on starts with the piece. -/
theorem Placed.drop (placed : Placed list start piece)
    : ∃ back, list.drop start = piece ++ back := by
  obtain ⟨front, back, rfl, rfl⟩ := placed
  exact ⟨back, by rw [List.append_assoc, List.drop_left]⟩

/-- A piece is what is sliced from its position on. -/
theorem Placed.slice {bytes piece : List UInt8} (placed : Placed bytes start piece)
    : Bytes.slice bytes start (start + piece.length) = some piece := by
  have bounded := placed.bounded
  obtain ⟨back, rest⟩ := placed.drop
  rw [Bytes.slice, if_pos ⟨Nat.le_add_right _ _, bounded⟩, rest, Nat.add_sub_cancel_left,
    List.take_left]

/-- A number is read where it stands. -/
theorem Placed.number {bytes : List UInt8} {width value : Nat}
    (placed : Placed bytes start (Bytes.bigEndianBytes width value)) (fits : value < 256 ^ width)
    : ∃ piece,
        Bytes.slice bytes start (start + width) = some piece ∧ Bytes.bigEndian piece = value := by
  have sliced := placed.slice
  rw [Bytes.bigEndianBytes_length] at sliced
  refine ⟨_, sliced, ?_⟩
  rw [Bytes.bigEndian_bytes, Nat.mod_eq_of_lt fits]

-----------------------------------------------------------------------------------------
-- Agreement
-----------------------------------------------------------------------------------------

/-- Two lists both reach a position and agree up to it. -/
structure Agree (stop : Nat) (one other : List α) : Prop where
  long : stop ≤ one.length
  long' : stop ≤ other.length
  same : one.take stop = other.take stop

/-- Agreement is mutual. -/
theorem Agree.symm (agree : Agree stop one other) : Agree stop other one :=
  ⟨agree.long', agree.long, agree.same.symm⟩

/-- Lists agree up to every earlier position. -/
theorem Agree.earlier {before : Nat} (agree : Agree stop one other) (below : before ≤ stop)
    : Agree before one other := by
  refine ⟨Nat.le_trans below agree.long, Nat.le_trans below agree.long', ?_⟩
  rw [← Nat.min_eq_left below, ← List.take_take, agree.same, List.take_take]

/-- Elements before the position agree. -/
theorem Agree.getElem? (agree : Agree stop one other) (inside : i < stop)
    : one[i]? = other[i]? := by
  rw [← List.getElem?_take_of_lt inside, agree.same, List.getElem?_take_of_lt inside]

/-- Slices that end before the position agree. -/
theorem Agree.slice {one other : List UInt8} {finish : Nat} (agree : Agree stop one other)
    (inside : finish ≤ stop) (start : Nat)
    : Bytes.slice one start finish = Bytes.slice other start finish := by
  have earlier := agree.earlier inside
  rw [Bytes.slice, Bytes.slice]
  by_cases range : start ≤ finish
  · rw [if_pos ⟨range, earlier.long⟩, if_pos ⟨range, earlier.long'⟩, ← List.drop_take,
      ← List.drop_take, earlier.same]
  · rw [if_neg fun within => range within.1, if_neg fun within => range within.1]

end Foundation
