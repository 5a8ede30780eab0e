import Mathlib.Algebra.Order.Field.Basic
import Mathlib.Algebra.Order.Field.Rat
import Mathlib.Tactic.FieldSimp
import Mathlib.Tactic.Linarith
import Mathlib.Tactic.Ring

/-! Arithmetic with numbers of 64 bits in floating point, which is exact up to a last rounding: to
the nearest number, and of two that are equally near to the even one. A finite number is counted
in the smallest of them, `2 ^ -1074`.
-/

namespace Foundation

-----------------------------------------------------------------------------------------
-- Quotients
-----------------------------------------------------------------------------------------

/-- The natural number nearest to a quotient; of two that are equally near, the even one. -/
def nearestQuotient (p q : Nat) : Nat :=
  if 2 * (p % q) < q ∨ 2 * (p % q) = q ∧ p / q % 2 = 0 then p / q else p / q + 1

section Quotients

variable {p q n : Nat}

/-- A quotient that is at most a number is rounded to at most that number. -/
theorem nearestQuotient_le (positive : 0 < q) (below : p ≤ n * q) : nearestQuotient p q ≤ n := by
  have split := Nat.div_add_mod p q
  have least : p / q ≤ n := by
    rw [Nat.div_le_iff_le_mul_add_pred positive]
    rw [Nat.mul_comm] at below
    omega
  rcases Nat.lt_or_eq_of_le least with smaller | rfl
  · rw [nearestQuotient]
    split <;> omega
  · rw [Nat.mul_comm] at below
    have exact : p % q = 0 := by omega
    rw [nearestQuotient, if_pos (.inl (by omega))]

/-- A quotient that is at least a number is rounded to at least that number. -/
theorem le_nearestQuotient (positive : 0 < q) (above : n * q ≤ p) : n ≤ nearestQuotient p q := by
  have least : n ≤ p / q := (Nat.le_div_iff_mul_le positive).mpr above
  rw [nearestQuotient]
  split <;> omega

/-- A quotient is rounded by at most a half. -/
theorem nearestQuotient_near (positive : 0 < q)
    : 2 * (nearestQuotient p q * q) ≤ 2 * p + q ∧ 2 * p ≤ 2 * (nearestQuotient p q * q) + q := by
  have split := Nat.div_add_mod p q
  have small := Nat.mod_lt p positive
  rw [Nat.mul_comm] at split
  rw [nearestQuotient]
  split
  · constructor <;> omega
  · have next : (p / q + 1) * q = p / q * q + q := Nat.succ_mul _ _
    constructor <;> omega

/-- A quotient between a number and its successor is rounded down when it lies in the lower half,
or in the middle behind an even number.
-/
theorem nearestQuotient_le_iff (positive : 0 < q) (least : n * q ≤ p) (most : p < (n + 1) * q)
    : nearestQuotient p q ≤ n ↔ 2 * p < (2 * n + 1) * q ∨ 2 * p = (2 * n + 1) * q ∧ n % 2 = 0 := by
  have floor : p / q = n := (Nat.div_eq_iff positive).mpr (by
    rw [Nat.succ_mul] at most
    omega)
  have split := Nat.div_add_mod p q
  rw [floor, Nat.mul_comm] at split
  have doubled : (2 * n + 1) * q = 2 * (n * q) + q := by ring
  rw [nearestQuotient, floor, doubled]
  split
  · rename_i lower
    simp only [Nat.le_refl, true_iff]
    omega
  · rename_i upper
    constructor
    · intro absurd'
      omega
    · intro lower
      exact absurd (by omega) upper

end Quotients

-----------------------------------------------------------------------------------------
-- Rounding
-----------------------------------------------------------------------------------------

namespace Binary64

/-- A count that has no more than 53 binary digits before its zeros. -/
def Fits (count : Nat) : Prop := ∃ digits place, digits < 2 ^ 53 ∧ count = digits * 2 ^ place

/-- The last place of the numbers around a quotient of counts. -/
def lastPlace (p q : Nat) : Nat := 2 ^ (Nat.log2 (p / q) - 52)

/-- The count nearest to a quotient of counts. -/
def nearest (p q : Nat) : Nat := nearestQuotient p (q * lastPlace p q) * lastPlace p q

section Rounding

variable {p q count : Nat}

/-- A count of 53 binary digits, or the first one that has more. -/
theorem fits_mul {digits : Nat} (few : digits ≤ 2 ^ 53) (place : Nat)
    : Fits (digits * 2 ^ place) := by
  rcases Nat.lt_or_eq_of_le few with fewer | rfl
  · exact ⟨digits, place, fewer, rfl⟩
  · refine ⟨2 ^ 52, place + 1, by decide, ?_⟩
    rw [← Nat.pow_add, ← Nat.pow_add]
    congr 1
    omega

/-- The last place is a unit. -/
theorem lastPlace_pos (p q : Nat) : 0 < lastPlace p q := Nat.two_pow_pos _

/-- A quotient has at most 53 binary digits before its last place. -/
theorem lt_lastPlace (positive : 0 < q) : p < 2 ^ 53 * (q * lastPlace p q) := by
  have small : p / q < 2 ^ 53 * lastPlace p q := by
    refine Nat.lt_of_lt_of_le Nat.lt_log2_self ?_
    rw [lastPlace, ← Nat.pow_add]
    exact Nat.pow_le_pow_right (by decide) (by omega)
  have whole := (Nat.div_lt_iff_lt_mul positive).mp small
  calc p < 2 ^ 53 * lastPlace p q * q := whole
    _ = 2 ^ 53 * (q * lastPlace p q) := by ring

/-- A quotient has all 53 digits when its last place is not the smallest. -/
theorem lastPlace_le (positive : 0 < q) {place : Nat} (behind : 2 ^ place < lastPlace p q)
    : 2 ^ (place + 53) * q ≤ p := by
  rw [lastPlace, Nat.pow_lt_pow_iff_right (by decide)] at behind
  have some : p / q ≠ 0 := by
    rintro none
    rw [none] at behind
    exact absurd behind (by simp)
  have least := Nat.log2_self_le some
  refine (Nat.le_div_iff_mul_le positive).mp (Nat.le_trans ?_ least)
  exact Nat.pow_le_pow_right (by decide) (by omega)

/-- A quotient of 53 digits or more has all of them before its last place. -/
theorem mul_lastPlace_le (positive : 0 < q) (whole : 2 ^ 52 * q ≤ p)
    : 2 ^ 52 * (q * lastPlace p q) ≤ p := by
  have least : 2 ^ 52 ≤ p / q := (Nat.le_div_iff_mul_le positive).mpr whole
  have some : p / q ≠ 0 := Nat.ne_zero_of_lt least
  have long : 52 ≤ Nat.log2 (p / q) := (Nat.le_log2 some).mpr least
  calc 2 ^ 52 * (q * lastPlace p q) = 2 ^ (52 + (Nat.log2 (p / q) - 52)) * q := by
        rw [lastPlace, Nat.pow_add]
        ring
    _ = 2 ^ Nat.log2 (p / q) * q := by rw [Nat.add_sub_cancel' long]
    _ ≤ p := (Nat.le_div_iff_mul_le positive).mp (Nat.log2_self_le some)

/-- What is rounded fits. -/
theorem nearest_fits (positive : 0 < q) : Fits (nearest p q) := by
  refine fits_mul (nearestQuotient_le (Nat.mul_pos positive (lastPlace_pos p q)) ?_) _
  exact (lt_lastPlace positive).le

/-- A count that fits and is not below a quotient is not below its rounding: it is a multiple of the
last place, as it would be too small otherwise.
-/
theorem nearest_le (positive : 0 < q) (fits : Fits count) (below : p ≤ count * q)
    : nearest p q ≤ count := by
  obtain ⟨digits, place, few, rfl⟩ := fits
  by_cases behind : 2 ^ place < lastPlace p q
  · have all := lastPlace_le positive behind
    have less : digits * 2 ^ place < 2 ^ (place + 53) := by
      rw [Nat.pow_add, Nat.mul_comm]
      exact Nat.mul_lt_mul_of_pos_left few (Nat.two_pow_pos _)
    have := Nat.mul_lt_mul_of_pos_right less positive
    omega
  · obtain ⟨more, same⟩ : lastPlace p q ∣ digits * 2 ^ place := by
      rw [lastPlace, Nat.pow_lt_pow_iff_right (by decide)] at behind
      exact (Nat.pow_dvd_pow 2 (by omega)).trans (Nat.dvd_mul_left _ _)
    rw [same, nearest, Nat.mul_comm (lastPlace p q)]
    refine Nat.mul_le_mul_right _ (nearestQuotient_le (Nat.mul_pos positive (lastPlace_pos p q)) ?_)
    calc p ≤ digits * 2 ^ place * q := below
      _ = more * (q * lastPlace p q) := by rw [same]; ring

/-- A count that fits and is not above a quotient is not above its rounding. -/
theorem le_nearest (positive : 0 < q) (fits : Fits count) (above : count * q ≤ p)
    : count ≤ nearest p q := by
  obtain ⟨digits, place, few, rfl⟩ := fits
  have unit := Nat.mul_pos positive (lastPlace_pos p q)
  by_cases behind : 2 ^ place < lastPlace p q
  · obtain ⟨next, same⟩ : 2 ^ (place + 1) ∣ lastPlace p q := by
      rw [lastPlace, Nat.pow_lt_pow_iff_right (by decide)] at behind
      exact Nat.pow_dvd_pow 2 (by omega)
    have least : 2 ^ 52 * (q * lastPlace p q) ≤ p := by
      refine mul_lastPlace_le positive (Nat.le_trans ?_ (lastPlace_le positive behind))
      exact Nat.mul_le_mul_right _ (Nat.pow_le_pow_right (by decide) (by omega))
    calc digits * 2 ^ place ≤ 2 ^ 53 * 2 ^ place := Nat.mul_le_mul_right _ few.le
      _ = 2 ^ 52 * 2 ^ (place + 1) := by rw [← Nat.pow_add, ← Nat.pow_add]; congr 1; omega
      _ ≤ 2 ^ 52 * lastPlace p q :=
          Nat.mul_le_mul_left _ (Nat.le_of_dvd (lastPlace_pos p q) ⟨next, same⟩)
      _ ≤ nearest p q := Nat.mul_le_mul_right _ (le_nearestQuotient unit least)
  · obtain ⟨more, same⟩ : lastPlace p q ∣ digits * 2 ^ place := by
      rw [lastPlace, Nat.pow_lt_pow_iff_right (by decide)] at behind
      exact (Nat.pow_dvd_pow 2 (by omega)).trans (Nat.dvd_mul_left _ _)
    rw [same, nearest, Nat.mul_comm (lastPlace p q)]
    refine Nat.mul_le_mul_right _ (le_nearestQuotient unit ?_)
    calc more * (q * lastPlace p q) = digits * 2 ^ place * q := by rw [same]; ring
      _ ≤ p := above

/-- A count that fits is not rounded. -/
theorem nearest_exact (positive : 0 < q) (fits : Fits count) : nearest (count * q) q = count :=
  Nat.le_antisymm (nearest_le positive fits (Nat.le_refl _))
    (le_nearest positive fits (Nat.le_refl _))

/-- A quotient is rounded by at most half of its last place. -/
theorem nearest_near (positive : 0 < q)
    : 2 * (nearest p q * q) ≤ 2 * p + q * lastPlace p q
      ∧ 2 * p ≤ 2 * (nearest p q * q) + q * lastPlace p q := by
  have near := nearestQuotient_near (p := p) (Nat.mul_pos positive (lastPlace_pos p q))
  have same : nearest p q * q = nearestQuotient p (q * lastPlace p q) * (q * lastPlace p q) := by
    rw [nearest]
    ring
  rwa [same]

/-- What is rounded to at most a count of all 53 digits lies below the middle between it and the
next one, or in the middle when the count is even.
-/
theorem nearest_le_iff (positive : 0 < q) {digits place : Nat} (all : 2 ^ 52 ≤ digits)
    (few : digits < 2 ^ 53)
    : nearest p q ≤ digits * 2 ^ place
      ↔ 2 * p < (2 * digits + 1) * (q * 2 ^ place)
        ∨ 2 * p = (2 * digits + 1) * (q * 2 ^ place) ∧ digits % 2 = 0 := by
  have unit : 0 < q * 2 ^ place := Nat.mul_pos positive (Nat.two_pow_pos _)
  have lower : digits * 2 ^ place * q = digits * (q * 2 ^ place) := by ring
  have upper : (digits + 1) * 2 ^ place * q = (digits + 1) * (q * 2 ^ place) := by ring
  have middle : (2 * digits + 1) * (q * 2 ^ place)
      = 2 * (digits * (q * 2 ^ place)) + q * 2 ^ place := by ring
  have next : (digits + 1) * (q * 2 ^ place) = digits * (q * 2 ^ place) + q * 2 ^ place := by ring
  rcases Nat.lt_or_ge p (digits * 2 ^ place * q) with before | least
  · have below := nearest_le positive (fits_mul few.le place) before.le
    simp only [below, true_iff]
    left
    omega
  rcases Nat.lt_or_ge p ((digits + 1) * 2 ^ place * q) with most | behind
  · -- between the two counts their place is the last one
    have floor : digits * 2 ^ place ≤ p / q := (Nat.le_div_iff_mul_le positive).mpr least
    have ceiling : p / q < (digits + 1) * 2 ^ place := (Nat.div_lt_iff_lt_mul positive).mpr most
    have log : Nat.log2 (p / q) = 52 + place := by
      refine (Nat.log2_eq_iff ?_).mpr ⟨?_, ?_⟩
      · have := Nat.mul_pos (Nat.lt_of_lt_of_le (by decide) all) (Nat.two_pow_pos place)
        omega
      · rw [Nat.pow_add]
        exact (Nat.mul_le_mul_right _ all).trans floor
      · have most : (digits + 1) * 2 ^ place ≤ 2 ^ 53 * 2 ^ place := Nat.mul_le_mul_right _ few
        rw [show 52 + place + 1 = 53 + place by omega, Nat.pow_add]
        exact Nat.lt_of_lt_of_le ceiling most
    have own : lastPlace p q = 2 ^ place := by
      rw [lastPlace, log]
      congr 1
      omega
    rw [nearest, own, Nat.mul_le_mul_right_iff (Nat.two_pow_pos _)]
    exact nearestQuotient_le_iff unit (lower ▸ least) (upper ▸ most)
  · have above := le_nearest positive (fits_mul few place) behind
    have unit' := Nat.two_pow_pos place
    rw [Nat.succ_mul] at above
    constructor
    · intro absurd'
      omega
    · intro absurd'
      omega

end Rounding

/-- The binary places behind the point of the smallest number; proofs do not compute with them. -/
@[irreducible]
def depth : Nat := 1074

/-- The binary places before the point of the largest number. -/
@[irreducible]
def height : Nat := 1024

/-- The number one, counted in the smallest number. -/
def one : Nat := 2 ^ depth

/-- The first count that is too large. -/
def limit : Nat := 2 ^ height * one

/-- The number one is a count. -/
theorem one_pos : 0 < one := Nat.two_pow_pos depth

/-- Numbers of 64 binary places are not too large. -/
theorem mul_one_lt_limit : 2 ^ 64 * one < limit := by
  have high : 64 < height := by
    rw [height]
    decide
  exact Nat.mul_lt_mul_of_pos_right (Nat.pow_lt_pow_right (by decide) high) one_pos

/-- The size of a finite number, counted in the smallest one. -/
structure Magnitude where
  units : Nat
  fits : Fits units
  small : units < limit
deriving DecidableEq

end Binary64

-----------------------------------------------------------------------------------------
-- Numbers
-----------------------------------------------------------------------------------------

/-- A number of 64 bits. There are two zeros and two infinities, and one stands for those that are
no numbers.
-/
inductive Binary64 where
  | finite (negative : Bool) (magnitude : Binary64.Magnitude)
  | infinite (negative : Bool)
  | nan
deriving DecidableEq

namespace Binary64

/-- A sign before a quotient of counts, which is rounded; it is infinite when it is too large. -/
def round (negative : Bool) (p : Nat) {q : Nat} (positive : 0 < q) : Binary64 :=
  if small : nearest p q < limit then
    .finite negative ⟨nearest p q, nearest_fits positive, small⟩
  else .infinite negative

/-- The count of a number that is not negative, or its opposite. -/
def signed (negative : Bool) (magnitude : Magnitude) : Int :=
  if negative then -magnitude.units else magnitude.units

/-- A natural number. -/
def ofNat (n : Nat) : Binary64 := round false (n * one) Nat.one_pos

/-- The distance of a number from zero. -/
def abs : Binary64 → Binary64
  | finite _ magnitude => finite false magnitude
  | infinite _ => infinite false
  | nan => nan

/-- The difference; equal numbers have the zero without a sign, unless it is taken from the one with
a sign.
-/
def sub : Binary64 → Binary64 → Binary64
  | finite s x, finite t y =>
      let difference := signed s x - signed t y
      round (difference < 0 || difference = 0 && s && !t) difference.natAbs Nat.one_pos
  | infinite s, infinite t => if s = t then nan else infinite s
  | infinite s, finite _ _ => infinite s
  | finite _ _, infinite t => infinite !t
  | nan, _ | _, nan => nan

/-- The product. -/
def mul : Binary64 → Binary64 → Binary64
  | finite s x, finite t y => round (s != t) (x.units * y.units) one_pos
  | infinite s, infinite t => infinite (s != t)
  | infinite s, finite t x | finite t x, infinite s =>
      if x.units = 0 then nan else infinite (s != t)
  | nan, _ | _, nan => nan

/-- The quotient. -/
def div : Binary64 → Binary64 → Binary64
  | finite s x, finite t y =>
      if positive : 0 < y.units then round (s != t) (x.units * one) positive
      else if x.units = 0 then nan
      else infinite (s != t)
  | infinite _, infinite _ => nan
  | infinite s, finite t _ => infinite (s != t)
  | finite s _, infinite t => round (s != t) 0 Nat.one_pos
  | nan, _ | _, nan => nan

/-- A number is at most another one; what is no number cannot be compared. -/
def le : Binary64 → Binary64 → Bool
  | nan, _ | _, nan => false
  | infinite true, _ | _, infinite false => true
  | infinite false, _ | _, infinite true => false
  | finite s x, finite t y => signed s x ≤ signed t y

/-- A number that is not infinite. -/
def isFinite : Binary64 → Bool
  | finite _ _ => true
  | _ => false

/-- What a finite number stands for. -/
def value : Binary64 → Option ℚ
  | finite negative magnitude => some (signed negative magnitude / one)
  | _ => none

section Values

variable {x y : Binary64} {a b : ℚ}

/-- A number is finite when it stands for something. -/
theorem isFinite_iff : x.isFinite = true ↔ ∃ a, x.value = some a := by
  cases x <;> simp [isFinite, value]

/-- A quotient is rounded to the number that has its nearest count. -/
theorem round_eq {negative : Bool} {p q : Nat} (positive : 0 < q) {magnitude : Magnitude}
    (same : nearest p q = magnitude.units)
    : round negative p positive = finite negative magnitude := by
  obtain ⟨units, fits, small⟩ := magnitude
  subst same
  rw [round, dif_pos small]

/-- What is no further from zero than a finite number is a rounded count. -/
theorem round_abs_le {negative : Bool} {p q : Nat} (positive : 0 < q) {bound : Magnitude}
    : (round negative p positive).abs.le (finite false bound) = true
      ↔ nearest p q ≤ bound.units := by
  rw [round]
  split
  case isTrue small => simp [abs, le, signed]
  case isFalse large =>
    have := bound.small
    simp only [abs, le, Bool.false_eq_true, false_iff]
    omega

/-- Two numbers are found no further apart than a bound of 53 digits exactly if both are finite and
their distance lies below the middle between the bound and the next number, or in the middle when
the last digit of the bound is even.
-/
theorem sub_abs_le {bound : Magnitude} {digits place behind : Nat} (all : 2 ^ 52 ≤ digits)
    (few : digits < 2 ^ 53) (is : bound.units = digits * 2 ^ place) (point : place + behind = depth)
    : (x.sub y).abs.le (finite false bound) = true
      ↔ ∃ a b,
          x.value = some a
          ∧ y.value = some b
          ∧ (|a - b| < (2 * digits + 1) / 2 ^ (behind + 1)
            ∨ |a - b| = (2 * digits + 1) / 2 ^ (behind + 1) ∧ digits % 2 = 0) := by
  cases x with
  | finite s left =>
      cases y with
      | finite t right =>
          have unit : (0 : ℚ) < 2 * one := mul_pos two_pos (Nat.cast_pos.mpr one_pos)
          have split : one = 2 ^ place * 2 ^ behind := by rw [one, ← point, Nat.pow_add]
          have apart : |(signed s left / one - signed t right / one : ℚ)|
              = (2 * (signed s left - signed t right).natAbs : Nat) / (2 * one) := by
            rw [← sub_div, abs_div, Nat.abs_cast, ← Int.cast_sub, ← Int.cast_abs,
              Nat.cast_mul, Nat.cast_natAbs, Nat.cast_ofNat, mul_div_mul_left _ _ two_ne_zero]
          have middle : ((2 * digits + 1) / 2 ^ (behind + 1) : ℚ)
              = ((2 * digits + 1) * (1 * 2 ^ place) : Nat) / (2 * one) := by
            have some : (2 ^ place : ℚ) ≠ 0 := by positivity
            rw [split, pow_succ']
            push_cast
            field_simp
          rw [sub, round_abs_le, is, nearest_le_iff Nat.one_pos all few]
          simp only [value, Option.some.injEq, exists_and_left, exists_eq_left', apart, middle]
          rw [div_lt_div_iff_of_pos_right unit, div_left_inj' unit.ne', Nat.cast_lt, Nat.cast_inj]
      | infinite t => simp [sub, abs, le, value]
      | nan => simp [sub, abs, le, value]
  | infinite s =>
      cases y with
      | finite t right => simp [sub, abs, le, value]
      | infinite t =>
          simp only [sub, value, reduceCtorEq, false_and, exists_false, iff_false]
          split <;> simp [abs, le]
      | nan => simp [sub, abs, le, value]
  | nan => cases y <;> simp [sub, abs, le, value]

/-- A number without a sign. -/
def Unsigned : Binary64 → Prop
  | finite negative _ | infinite negative => negative = false
  | nan => True

/-- What is rounded has the sign that it is given. -/
theorem round_unsigned {p q : Nat} (positive : 0 < q) : (round false p positive).Unsigned := by
  rw [round]
  split <;> rfl

/-- Natural numbers have no sign. -/
theorem ofNat_unsigned (n : Nat) : (ofNat n).Unsigned := round_unsigned _

/-- Products of numbers without signs have none. -/
theorem Unsigned.mul (left : x.Unsigned) (right : y.Unsigned) : (x.mul y).Unsigned := by
  cases x <;> cases y <;> simp only [Unsigned] at left right <;> subst_vars
    <;> simp only [Binary64.mul, bne_self_eq_false]
  case finite.finite => exact round_unsigned _
  case infinite.infinite => rfl
  all_goals first | split <;> trivial | trivial

/-- So have quotients. -/
theorem Unsigned.div (left : x.Unsigned) (right : y.Unsigned) : (x.div y).Unsigned := by
  cases x <;> cases y <;> simp only [Unsigned] at left right <;> subst_vars
    <;> simp only [Binary64.div, bne_self_eq_false]
  case finite.finite =>
    split
    · exact round_unsigned _
    · split <;> trivial
  case finite.infinite => exact round_unsigned _
  all_goals trivial

/-- A finite number without a sign is at least zero. -/
theorem Unsigned.zero_le (unsigned : x.Unsigned) (is_finite : x.isFinite = true)
    : (ofNat 0).le x = true := by
  cases x with
  | finite negative magnitude =>
      obtain rfl : negative = false := unsigned
      have none : nearest 0 1 = 0 :=
        Nat.le_zero.mp (nearest_le Nat.one_pos ⟨0, 0, by decide, rfl⟩ (Nat.zero_le _))
      have small : nearest 0 1 < limit := by
        rw [none]
        exact Nat.zero_lt_of_lt mul_one_lt_limit
      rw [ofNat, Nat.zero_mul, round, dif_pos small]
      simp [le, signed, none]
  | infinite negative => cases is_finite
  | nan => cases is_finite

/-- A natural number of 53 digits is not rounded. -/
theorem ofNat_exact {n : Nat} (few : n < 2 ^ 53)
    : ∃ magnitude, ofNat n = finite false magnitude ∧ magnitude.units = n * one := by
  have same : nearest (n * one) 1 = n * one := by
    have exact := nearest_exact Nat.one_pos ⟨n, depth, few, rfl⟩
    rwa [Nat.mul_one] at exact
  have below : n * one < limit :=
    (Nat.mul_le_mul_right one (few.le.trans (by decide))).trans_lt mul_one_lt_limit
  have fits : Fits (n * one) := ⟨n, depth, few, rfl⟩
  exact ⟨⟨n * one, fits, below⟩, round_eq Nat.one_pos same, rfl⟩

/-- A quotient that is neither very small nor very large is rounded by at most a part of it. -/
theorem round_near {p q : Nat} (positive : 0 < q) (large : 2 ^ 52 * q ≤ p)
    (small : p ≤ 2 ^ 64 * one * q)
    : ∃ magnitude,
        round false p positive = finite false magnitude
        ∧ |(magnitude.units / one - p / (q * one) : ℚ)| ≤ p / (q * one) / 2 ^ 53 := by
  have top : Fits (2 ^ 64 * one) :=
    ⟨1, 64 + depth, by decide, by rw [one, Nat.pow_add, Nat.one_mul]⟩
  have below := Nat.lt_of_le_of_lt (nearest_le positive top small) mul_one_lt_limit
  refine ⟨⟨nearest p q, nearest_fits positive, below⟩, round_eq positive rfl, ?_⟩
  obtain ⟨most, least⟩ := nearest_near (p := p) positive
  have place := mul_lastPlace_le positive large
  generalize q * lastPlace p q = last at most least place
  have apart : |((nearest p q * q : Nat) - p : ℚ)| ≤ p / 2 ^ 53 := by
    have most : (2 * (nearest p q * q : Nat) : ℚ) ≤ 2 * p + last := by exact_mod_cast most
    have least : (2 * p : ℚ) ≤ 2 * (nearest p q * q : Nat) + last := by exact_mod_cast least
    have place : (2 ^ 52 * last : ℚ) ≤ p := by exact_mod_cast place
    rw [abs_le]
    constructor <;> linarith
  have unit : (0 : ℚ) < q * one := mul_pos (Nat.cast_pos.mpr positive) (Nat.cast_pos.mpr one_pos)
  have some : (q : ℚ) ≠ 0 := Nat.cast_ne_zero.mpr positive.ne'
  have whole : (nearest p q / one - p / (q * one) : ℚ)
      = ((nearest p q * q : Nat) - p) / (q * one) := by
    push_cast
    field_simp
  rw [whole, abs_div, abs_of_pos unit, div_right_comm]
  exact div_le_div_of_nonneg_right apart unit.le

/-- The product of natural numbers is rounded once. -/
theorem mul_near {a b : Nat} (left : 0 < a) (left' : a < 2 ^ 32) (right : 0 < b)
    (right' : b < 2 ^ 32)
    : ∃ magnitude,
        (ofNat a).mul (ofNat b) = finite false magnitude
        ∧ |(magnitude.units / one - a * b : ℚ)| ≤ a * b / 2 ^ 53 := by
  have wide : 2 ^ 32 < 2 ^ 53 := by decide
  obtain ⟨f, first, fUnits⟩ := ofNat_exact (left'.trans wide)
  obtain ⟨g, second, gUnits⟩ := ofNat_exact (right'.trans wide)
  have long : 2 ^ 52 ≤ one := by
    have deep : 52 ≤ depth := by
      rw [depth]
      decide
    exact Nat.pow_le_pow_right (by decide) deep
  have some : 1 ≤ a * b := Nat.mul_pos left right
  have few : a * b ≤ 2 ^ 32 * 2 ^ 32 := Nat.mul_le_mul left'.le right'.le
  have unit : (0 : ℚ) < one := Nat.cast_pos.mpr one_pos
  -- the product, in units of the number one
  have counts : f.units * g.units = a * b * one * one := by
    rw [fUnits, gUnits]
    ring
  have least : 2 ^ 52 * one ≤ f.units * g.units := by
    rw [counts]
    exact Nat.mul_le_mul_right _ (long.trans (Nat.le_mul_of_pos_left one some))
  have most : f.units * g.units ≤ 2 ^ 64 * one * one := by
    rw [counts]
    exact Nat.mul_le_mul_right _ (Nat.mul_le_mul_right _ (few.trans (by decide)))
  obtain ⟨m, product, near⟩ := round_near one_pos least most
  have whole : ((f.units * g.units : Nat) / (one * one) : ℚ) = a * b := by
    rw [counts]
    push_cast
    field_simp
  rw [whole] at near
  exact ⟨m, by rw [first, second, mul, bne_self_eq_false, product], near⟩

/-- The quotient of a number by a natural number is rounded once. -/
theorem div_near {m : Magnitude} {c : Nat} (least : one ≤ 2 * m.units)
    (most : m.units ≤ 2 ^ 64 * one) (below : 0 < c) (below' : c < 2 ^ 32)
    : ∃ magnitude,
        (finite false m).div (ofNat c) = finite false magnitude
        ∧ |(magnitude.units / one - m.units / one / c : ℚ)| ≤ m.units / one / c / 2 ^ 53 := by
  obtain ⟨h, third, hUnits⟩ := ofNat_exact (below'.trans (by decide : 2 ^ 32 < 2 ^ 53))
  have long : 2 ^ 85 ≤ one := by
    have deep : 85 ≤ depth := by
      rw [depth]
      decide
    exact Nat.pow_le_pow_right (by decide) deep
  have unit : (0 : ℚ) < one := Nat.cast_pos.mpr one_pos
  have large : 2 ^ 52 * h.units ≤ m.units * one := by
    rw [hUnits, ← Nat.mul_assoc]
    exact Nat.mul_le_mul_right _ (by omega)
  have small : m.units * one ≤ 2 ^ 64 * one * h.units := by
    rw [hUnits]
    exact Nat.mul_le_mul most (Nat.le_mul_of_pos_left one below)
  have positive : 0 < h.units := hUnits ▸ Nat.mul_pos below one_pos
  obtain ⟨x, quotient, near⟩ := round_near positive large small
  have value : ((m.units * one : Nat) / (h.units * one) : ℚ) = m.units / one / c := by
    rw [hUnits]
    push_cast
    field_simp
  rw [value] at near
  exact ⟨x, by rw [third, div, dif_pos positive, bne_self_eq_false, quotient], near⟩

/-- A product of natural numbers over another one is rounded twice. -/
theorem mul_div_near {a b c : Nat} (left : 0 < a) (left' : a < 2 ^ 32) (right : 0 < b)
    (right' : b < 2 ^ 32) (below : 0 < c) (below' : c < 2 ^ 32)
    : ∃ x,
        (((ofNat a).mul (ofNat b)).div (ofNat c)).value = some x
        ∧ |x - a * b / c| ≤ a * b / c / 2 ^ 51 := by
  obtain ⟨m, product, near⟩ := mul_near left left' right right'
  have unit : (0 : ℚ) < one := Nat.cast_pos.mpr one_pos
  have divisor : (0 : ℚ) < c := Nat.cast_pos.mpr below
  have some : (1 : ℚ) ≤ a * b := by exact_mod_cast Nat.mul_pos left right
  have few : (a * b + 2 ^ 32 : ℚ) ≤ 2 ^ 64 := by
    have few : a * b + 2 ^ 32 ≤ 2 ^ 64 := by
      calc a * b + 2 ^ 32 ≤ (2 ^ 32 - 1) * 2 ^ 32 + 2 ^ 32 :=
            Nat.add_le_add_right (Nat.mul_le_mul (Nat.le_pred_of_lt left') right'.le) _
        _ = 2 ^ 64 := by norm_num
    exact_mod_cast few
  rw [abs_le] at near
  -- the product is between a half and `2 ^ 64`
  have least : one ≤ 2 * m.units := by
    have half : (1 / 2 : ℚ) ≤ m.units / one := by linarith
    rw [le_div_iff₀ unit] at half
    have half : (one : ℚ) ≤ 2 * m.units := by linarith
    exact_mod_cast half
  have most : m.units ≤ 2 ^ 64 * one := by
    have most : (m.units / one : ℚ) ≤ 2 ^ 64 := by linarith
    rw [div_le_iff₀ unit] at most
    exact_mod_cast most
  obtain ⟨x, quotient, near'⟩ := div_near least most below below'
  refine ⟨x.units / one, by rw [product, quotient]; rfl, ?_⟩
  have scaled : m.units / one / c ≤ a * b / c + a * b / c / (2 ^ 53 : ℚ)
      ∧ a * b / c - a * b / c / (2 ^ 53 : ℚ) ≤ m.units / one / c := by
    rw [div_right_comm (a * b : ℚ), ← add_div, ← sub_div]
    constructor <;> exact div_le_div_of_nonneg_right (by linarith) divisor.le
  have positive : (0 : ℚ) ≤ a * b / c := by positivity
  rw [abs_le] at near' ⊢
  generalize (m.units / one / c : ℚ) = y at near' scaled
  generalize (a * b / c : ℚ) = r at scaled positive ⊢
  constructor <;> linarith

end Values

end Binary64

end Foundation
