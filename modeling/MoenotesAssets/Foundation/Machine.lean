import MoenotesAssets.Foundation.Bytes
import MoenotesAssets.Foundation.Fallible
import Mathlib.Data.List.GetD

/-! Fixed-width unsigned counters as the 64-bit target machine computes them. -/

namespace Foundation.Machine

/-- The largest value of an unsigned 64-bit counter (`u64`, and `usize` on the target). -/
def max64 : Nat := 2 ^ 64 - 1

/-- `isize::MAX` on the target, the reference count beyond which an `Arc` aborts. -/
def maxRefcount : Nat := 2 ^ 63 - 1

/-- `checked_add`: no value on overflow. -/
def checkedAdd (left right : Nat) : Option Nat :=
  if left + right ≤ max64 then some (left + right) else none

/-- `+` on `usize`, which panics on overflow. -/
def addSize (left right : Nat) : Except Failure Nat :=
  if left + right ≤ max64 then .ok (left + right)
  else .error (.panic "attempt to add with overflow")

/-- `-` on `usize`, which panics below zero. -/
def subSize (left right : Nat) : Except Failure Nat :=
  if right ≤ left then .ok (left - right)
  else .error (.panic "attempt to subtract with overflow")

/-- `*` on `usize`, which panics on overflow. -/
def mulSize (left right : Nat) : Except Failure Nat :=
  if left * right ≤ max64 then .ok (left * right)
  else .error (.panic "attempt to multiply with overflow")

/-- `[]` on a slice, which panics beyond its end. -/
def index {α : Type} (values : List α) (i : Nat) : Except Failure α :=
  context values[i]? (.panic "index out of bounds")

/-- `[start..stop]` on a slice, which panics beyond its end. -/
def range (bytes : List UInt8) (start stop : Nat) : Except Failure (List UInt8) :=
  context (Bytes.slice bytes start stop) (.panic "range out of bounds")

/-- `+` on `u32`, which panics on overflow. -/
def addWord (left right : UInt32) : Except Failure UInt32 :=
  if left.toNat + right.toNat < 2 ^ 32 then .ok (left + right)
  else .error (.panic "attempt to add with overflow")

/-- `<<` on `u32`, which panics beyond its width and drops what leaves it. -/
def shiftWord (value : UInt32) (places : Nat) : Except Failure UInt32 :=
  if places < 32 then .ok (value <<< UInt32.ofNat places)
  else .error (.panic "attempt to shift left with overflow")

/-- `div_ceil` by a number that is not zero. -/
def divCeil (value divisor : Nat) : Nat := (value + divisor - 1) / divisor

/-- `div_ceil`, which panics for a divisor of zero. -/
def divCeilSize (value divisor : Nat) : Except Failure Nat :=
  if 0 < divisor then .ok (divCeil value divisor)
  else .error (.panic "attempt to divide by zero")

/-- `fetch_sub`: the counter after an atomic subtraction, which wraps around below zero. -/
def wrappingSub (left right : Nat) : Nat :=
  if right ≤ left then left - right else left + (max64 + 1) - right

/-- A checked sum is the sum. -/
theorem checkedAdd_eq_some {left right sum : Nat} (added : checkedAdd left right = some sum)
    : sum = left + right ∧ left + right ≤ max64 := by
  simp only [checkedAdd] at added
  split at added
  · exact ⟨(Option.some.inj added).symm, by assumption⟩
  · exact absurd added (by simp)

/-- A checked sum fails only beyond the largest value. -/
theorem checkedAdd_eq_none {left right : Nat}
    : checkedAdd left right = none ↔ max64 < left + right := by
  simp [checkedAdd]

/-- A subtraction that stays above zero does not wrap. -/
theorem wrappingSub_eq {left right : Nat} (enough : right ≤ left)
    : wrappingSub left right = left - right := by
  rw [wrappingSub, if_pos enough]

/-- A sum that did not overflow. -/
@[simp] theorem addSize_ok {left right sum : Nat}
    : addSize left right = .ok sum ↔ left + right = sum ∧ left + right ≤ max64 :=
  guarded_ok

/-- A difference that did not overflow. -/
@[simp] theorem subSize_ok {left right difference : Nat}
    : subSize left right = .ok difference ↔ left - right = difference ∧ right ≤ left :=
  guarded_ok

/-- A product that did not overflow. -/
@[simp] theorem mulSize_ok {left right product : Nat}
    : mulSize left right = .ok product ↔ left * right = product ∧ left * right ≤ max64 :=
  guarded_ok

/-- A sum that fits into a counter, as a value. -/
theorem addSize_eq {left right : Nat} (fits : left + right ≤ max64)
    : addSize left right = .ok (left + right) :=
  addSize_ok.mpr ⟨rfl, fits⟩

/-- A difference that is not below zero, as a value. -/
theorem subSize_eq {left right : Nat} (enough : right ≤ left)
    : subSize left right = .ok (left - right) :=
  subSize_ok.mpr ⟨rfl, enough⟩

/-- A product that fits into a counter, as a value. -/
theorem mulSize_eq {left right : Nat} (fits : left * right ≤ max64)
    : mulSize left right = .ok (left * right) :=
  mulSize_ok.mpr ⟨rfl, fits⟩

/-- A sum that fits into a counter. -/
theorem addSize_yields {left right : Nat} (fits : left + right ≤ max64)
    : Yields (fun sum => sum = left + right) (addSize left right) := by
  rw [addSize, if_pos fits]
  exact .value rfl

/-- A subtraction that stays above zero does not panic. -/
theorem noPanic_subSize {left right : Nat} (enough : right ≤ left)
    : NoPanic (subSize left right) := by
  rw [subSize, if_pos enough]
  exact .value _

/-- A sum that fits into a word. -/
theorem addWord_yields {left right : UInt32} (fits : left.toNat + right.toNat < 2 ^ 32)
    : Yields (fun sum => sum.toNat = left.toNat + right.toNat) (addWord left right) := by
  rw [addWord, if_pos fits]
  exact .value (by rw [UInt32.toNat_add, Nat.mod_eq_of_lt fits])

/-- A sum that fits into a word, as a value. -/
theorem addWord_eq {left right : UInt32} (fits : left.toNat + right.toNat < 2 ^ 32)
    : addWord left right = .ok (left + right) := by
  rw [addWord, if_pos fits]

/-- A byte that is shifted to its place in a word. -/
theorem shiftWord_byte (byte : UInt8) {place : Nat} (inside : place < 4)
    : ∃ shifted, shiftWord byte.toUInt32 (place * 8) = .ok shifted
      ∧ shifted.toNat = 256 ^ place * byte.toNat := by
  refine ⟨_, if_pos (by omega), ?_⟩
  have small := byte.toNat_lt
  have power : 256 ^ place = 2 ^ (place * 8) := by rw [Nat.mul_comm, Nat.pow_mul]
  have bound : 2 ^ (place * 8) ≤ 2 ^ 24 := Nat.pow_le_pow_right (by omega) (by omega)
  rw [UInt32.toNat_shiftLeft, UInt8.toNat_toUInt32, UInt32.toNat_ofNat', Nat.shiftLeft_eq,
    Nat.mod_eq_of_lt (show place * 8 < 2 ^ 32 by omega),
    Nat.mod_eq_of_lt (show place * 8 < 32 by omega), power, Nat.mul_comm]
  exact Nat.mod_eq_of_lt (Nat.lt_of_le_of_lt (Nat.mul_le_mul_right _ bound) (by omega))

/-- An index in bounds is read. -/
theorem index_ok {α : Type} {values : List α} {i : Nat} (inside : i < values.length)
    (fallback : α)
    : index values i = .ok (values.getD i fallback) := by
  rw [index, List.getElem?_eq_getElem inside, List.getD_eq_getElem _ _ inside]
  rfl

/-- A range in bounds is read. -/
theorem range_ok {bytes : List UInt8} {start stop : Nat} (ordered : start ≤ stop)
    (inside : stop ≤ bytes.length)
    : range bytes start stop = .ok ((bytes.drop start).take (stop - start)) :=
  context_ok.mpr (Bytes.slice_eq_some.mpr ⟨ordered, inside, rfl⟩)

end Foundation.Machine
