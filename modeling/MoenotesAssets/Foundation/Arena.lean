import Mathlib.Algebra.GroupWithZero.Nat
import Mathlib.Data.List.Basic

/-! Lists used as arenas: a cell keeps its index for life, cells are appended and
replaced but never removed. A weight summed over the cells counts what they hold.
-/

namespace Foundation.Arena

universe u

variable {α : Type u}

/-- The sum of a weight over the cells. -/
def total (weight : α → Nat) (cells : List α) : Nat :=
  (cells.map weight).sum

/-- No cell weighs nothing. -/
@[simp] theorem total_nil (weight : α → Nat) : total weight [] = 0 := rfl

/-- A first cell adds its weight. -/
@[simp] theorem total_cons (weight : α → Nat) (cell : α) (cells : List α)
    : total weight (cell :: cells) = weight cell + total weight cells := by
  simp [total]

/-- Appending adds the weights of both parts. -/
@[simp] theorem total_append (weight : α → Nat) (left right : List α)
    : total weight (left ++ right) = total weight left + total weight right := by
  simp [total]

/-- Replacing a cell exchanges its weight, by induction on the list and the index. -/
theorem total_set (weight : α → Nat) {cells : List α} {index : Nat} {old : α} (cell : α)
    (found : cells[index]? = some old)
    : total weight (cells.set index cell) + weight old
      = total weight cells + weight cell := by
  induction cells generalizing index with
  | nil => simp at found
  | cons head rest ih =>
      cases index with
      | zero =>
          obtain rfl : head = old := by simpa using found
          simp only [List.set_cons_zero, total_cons]
          omega
      | succ index =>
          have tail := ih (by simpa using found)
          simp only [List.set_cons_succ, total_cons]
          omega

/-- A cell weighs at most the total. -/
theorem le_total (weight : α → Nat) {cells : List α} {index : Nat} {cell : α}
    (found : cells[index]? = some cell)
    : weight cell ≤ total weight cells := by
  induction cells generalizing index with
  | nil => simp at found
  | cons head rest ih =>
      cases index with
      | zero =>
          obtain rfl : head = cell := by simpa using found
          simp only [total_cons]
          omega
      | succ index =>
          have tail := ih (by simpa using found)
          simp only [total_cons]
          omega

/-- A total is zero exactly when every cell weighs nothing. -/
theorem total_eq_zero (weight : α → Nat) (cells : List α)
    : total weight cells = 0 ↔ ∀ cell ∈ cells, weight cell = 0 := by
  induction cells with
  | nil => simp
  | cons head rest ih => simp [ih]

/-- Where the total is not zero, a cell has a weight. -/
theorem exists_weight {weight : α → Nat} {cells : List α} (some : 0 < total weight cells)
    : ∃ (index : Nat) (cell : α), cells[index]? = Option.some cell ∧ 0 < weight cell := by
  by_contra none
  refine Nat.ne_of_gt some ((total_eq_zero weight cells).mpr fun cell member => ?_)
  obtain ⟨index, found⟩ := List.mem_iff_getElem?.mp member
  exact Nat.eq_zero_of_not_pos fun positive => none ⟨index, cell, found, positive⟩

/-- A smaller weight has a smaller total. -/
theorem total_mono {left right : α → Nat} {cells : List α}
    (bounded : ∀ cell ∈ cells, left cell ≤ right cell)
    : total left cells ≤ total right cells := by
  induction cells with
  | nil => simp
  | cons head rest ih =>
      have first := bounded head (by simp)
      have tail := ih (fun cell member => bounded cell (by simp [member]))
      simp only [total_cons]
      omega

/-- The cells of a kind, counted. -/
theorem total_countP {weight : α → Nat} {holds : α → Bool}
    (counts : ∀ cell, weight cell = if holds cell then 1 else 0) (cells : List α)
    : total weight cells = cells.countP holds := by
  induction cells with
  | nil => rfl
  | cons head rest ih => rw [total_cons, counts, ih, List.countP_cons, Nat.add_comm]

/-- Rewriting every cell to one of the same weight changes no total. -/
theorem total_mapIdx (weight : α → Nat) {rewrite : Nat → α → α} {cells : List α}
    (same : ∀ index cell, weight (rewrite index cell) = weight cell)
    : total weight (cells.mapIdx rewrite) = total weight cells := by
  have weights : (cells.mapIdx rewrite).map weight = cells.map weight := by
    refine List.ext_getElem? fun index => ?_
    simp only [List.getElem?_map, List.getElem?_mapIdx, Option.map_map]
    cases cells[index]? with
    | none => rfl
    | some cell => exact congrArg some (same index cell)
  rw [total, weights, total]

/-- Reading an arena after a cell was appended: either an old cell or the new one. -/
theorem getElem?_push {cells : List α} {cell found : α} {index : Nat}
    (held : (cells ++ [cell])[index]? = some found)
    : cells[index]? = some found ∨ index = cells.length ∧ found = cell := by
  rw [List.getElem?_append] at held
  split at held
  · exact Or.inl held
  · have bound : index - cells.length < [cell].length := (List.getElem?_eq_some_iff.mp held).1
    have zero : index - cells.length = 0 := by simpa using bound
    rw [zero] at held
    exact Or.inr ⟨by omega, by simpa using held.symm⟩

/-- Reading an arena after a cell was replaced: the new cell or an untouched one. -/
theorem getElem?_set_cases {cells : List α} {cell found : α} {changed index : Nat}
    (held : (cells.set changed cell)[index]? = some found)
    : index = changed ∧ found = cell ∨ index ≠ changed ∧ cells[index]? = some found := by
  rw [List.getElem?_set] at held
  split at held
  · split at held
    · exact Or.inl ⟨by omega, by simpa using held.symm⟩
    · simp at held
  · exact Or.inr ⟨by omega, held⟩

/-- A cell keeps its place when another one is appended. -/
theorem getElem?_push_of {cells : List α} {cell found : α} {index : Nat}
    (held : cells[index]? = some found)
    : (cells ++ [cell])[index]? = some found := by
  rw [List.getElem?_append_left (List.getElem?_eq_some_iff.mp held).1]
  exact held

/-- The appended cell is found at the old length. -/
theorem getElem?_push_self (cells : List α) (cell : α)
    : (cells ++ [cell])[cells.length]? = some cell := by
  simp

/-- A replaced cell is found at its index. -/
theorem getElem?_set_of {cells : List α} {cell old : α} {index : Nat}
    (held : cells[index]? = some old)
    : (cells.set index cell)[index]? = some cell := by
  rw [List.getElem?_set_self (List.getElem?_eq_some_iff.mp held).1]

/-- An index in use lies below the length. -/
theorem lt_length {cells : List α} {found : α} {index : Nat}
    (held : cells[index]? = some found)
    : index < cells.length :=
  (List.getElem?_eq_some_iff.mp held).1

end Foundation.Arena
