import Mathlib.Data.Nat.Bitwise
import Mathlib.Tactic.Ring

/-! Cyclic redundancy checks of any width and polynomial, least significant bit first: a register is
linear in what is shifted in, loses nothing, and tells apart any two words of its own width.
-/

namespace Foundation.Crc

variable {w : Nat}

/-- One bit leaves the register. -/
def shift (polynomial register : BitVec w) : BitVec w :=
  if register.getLsbD 0 then register >>> 1 ^^^ polynomial else register >>> 1

/-- A number of bits leave the register. -/
def shifts (polynomial : BitVec w) : Nat → BitVec w → BitVec w
  | 0, register => register
  | count + 1, register => shifts polynomial count (shift polynomial register)

/-- A byte enters the register. -/
def update (polynomial register : BitVec w) (byte : UInt8) : BitVec w :=
  shifts polynomial 8 (register ^^^ byte.toBitVec.setWidth w)

/-- Bytes enter the register, the first one first. -/
def fold (polynomial register : BitVec w) (bytes : List UInt8) : BitVec w :=
  bytes.foldl (update polynomial) register

variable {polynomial : BitVec w}

/-- Bytes in two parts enter one part after the other. -/
theorem fold_append (register : BitVec w) (first second : List UInt8)
    : fold polynomial register (first ++ second)
      = fold polynomial (fold polynomial register first) second := by
  rw [fold, fold, fold, List.foldl_append]

-----------------------------------------------------------------------------------------
-- Linearity
-----------------------------------------------------------------------------------------

/-- A shift is linear. -/
theorem shift_xor (left right : BitVec w)
    : shift polynomial (left ^^^ right) = shift polynomial left ^^^ shift polynomial right := by
  simp only [shift, BitVec.getLsbD_xor, BitVec.ushiftRight_xor_distrib]
  cases left.getLsbD 0 <;> cases right.getLsbD 0
  · rfl
  · exact BitVec.xor_assoc _ _ _
  · simp only [Bool.xor_false, if_true, Bool.false_eq_true, if_false]
    rw [BitVec.xor_assoc, BitVec.xor_assoc, BitVec.xor_comm polynomial]
  · simp only [Bool.xor_self, Bool.false_eq_true, if_false, if_true]
    rw [BitVec.xor_assoc, BitVec.xor_comm polynomial, BitVec.xor_assoc, BitVec.xor_self,
      BitVec.xor_zero]

/-- Shifts are linear, by induction on their number. -/
theorem shifts_xor (count : Nat) (left right : BitVec w)
    : shifts polynomial count (left ^^^ right)
      = shifts polynomial count left ^^^ shifts polynomial count right := by
  induction count generalizing left right with
  | zero => rfl
  | succ count ih => rw [shifts, shift_xor, ih, shifts, shifts]

-----------------------------------------------------------------------------------------
-- What a register tells apart
-----------------------------------------------------------------------------------------

/-- With the highest bit in the polynomial, a shift that leaves a small register has only halved it.
-/
theorem shift_small (top : polynomial.getLsbD (w - 1) = true) {register : BitVec w}
    (small : (shift polynomial register).toNat < 2 ^ (w - 1))
    : register.toNat = 2 * (shift polynomial register).toNat := by
  have clear : (shift polynomial register).getLsbD (w - 1) = false :=
    Nat.testBit_lt_two_pow small
  rw [shift] at clear ⊢
  cases low : register.getLsbD 0 with
  | true =>
      -- the polynomial has set the highest bit
      rw [low, if_pos rfl, BitVec.getLsbD_xor, top, BitVec.getLsbD_ushiftRight,
        BitVec.getLsbD_of_ge register (1 + (w - 1)) (by omega)] at clear
      cases clear
  | false =>
      have even : register.toNat % 2 = 0 := by
        rw [BitVec.getLsbD, Nat.testBit_zero, decide_eq_false_iff_not] at low
        omega
      rw [if_neg Bool.false_ne_true, BitVec.toNat_ushiftRight, Nat.shiftRight_eq_div_pow]
      omega

/-- Shifts that leave a small register have only divided it, by induction on their number. -/
theorem shifts_small (top : polynomial.getLsbD (w - 1) = true) {count : Nat} {register : BitVec w}
    (fits : count ≤ w) (small : (shifts polynomial count register).toNat < 2 ^ (w - count))
    : register.toNat = 2 ^ count * (shifts polynomial count register).toNat := by
  induction count generalizing register with
  | zero => rw [Nat.pow_zero, Nat.one_mul, shifts]
  | succ count ih =>
      rw [shifts] at small ⊢
      have wider : 2 ^ (w - (count + 1)) ≤ 2 ^ (w - count) :=
        Nat.pow_le_pow_right (by decide) (by omega)
      have rest := ih (by omega) (Nat.lt_of_lt_of_le small wider)
      have half : (shift polynomial register).toNat < 2 ^ (w - 1) := by
        have split : 2 ^ (w - 1) = 2 ^ count * 2 ^ (w - (count + 1)) := by
          rw [← Nat.pow_add]
          congr 1
          omega
        rw [rest, split]
        exact Nat.mul_lt_mul_of_pos_left small (Nat.two_pow_pos count)
      rw [shift_small top half, Nat.pow_succ, rest]
      ring

/-- A shift loses nothing. -/
theorem shift_injective (top : polynomial.getLsbD (w - 1) = true)
    : Function.Injective (shift polynomial) := by
  intro left right same
  have zero : shift polynomial (left ^^^ right) = 0#w := by rw [shift_xor, same, BitVec.xor_self]
  have none : (left ^^^ right).toNat = 0 := by
    rw [shift_small top, zero, BitVec.toNat_zero]
    rw [zero, BitVec.toNat_zero]
    exact Nat.two_pow_pos _
  exact BitVec.xor_eq_zero_iff.mp (BitVec.eq_of_toNat_eq (none.trans BitVec.toNat_zero.symm))

/-- Shifts lose nothing, by induction on their number. -/
theorem shifts_injective (top : polynomial.getLsbD (w - 1) = true) (count : Nat)
    : Function.Injective (shifts polynomial count) := by
  induction count with
  | zero => exact fun _ _ same => same
  | succ count ih => exact fun _ _ same => shift_injective top (ih same)

/-- What enters a register hides nothing of what it held, by induction on the bytes. -/
theorem fold_injective (top : polynomial.getLsbD (w - 1) = true) (bytes : List UInt8)
    : Function.Injective (fold polynomial · bytes) := by
  induction bytes with
  | nil => exact fun _ _ same => same
  | cons byte rest ih =>
      intro left right same
      have updated : update polynomial left byte = update polynomial right byte := ih same
      exact (BitVec.xor_left_inj _).mp (shifts_injective top 8 updated)

/-- The difference that a byte makes. -/
theorem update_xor (left right : BitVec w) (byte byte' : UInt8)
    : update polynomial left byte ^^^ update polynomial right byte'
      = shifts polynomial 8
          (left ^^^ right ^^^ (byte.toBitVec.setWidth w ^^^ byte'.toBitVec.setWidth w)) := by
  rw [update, update, ← shifts_xor]
  congr 1
  rw [BitVec.xor_assoc, BitVec.xor_assoc, ← BitVec.xor_assoc _ right,
    BitVec.xor_comm _ right, BitVec.xor_assoc right]

/-- Bytes differ in eight bits at most. -/
theorem byte_xor_lt (byte byte' : UInt8)
    : (byte.toBitVec.setWidth w ^^^ byte'.toBitVec.setWidth w).toNat < 2 ^ 8 := by
  have small : ∀ byte : UInt8, (byte.toBitVec.setWidth w).toNat < 2 ^ 8 := by
    intro byte
    rw [BitVec.toNat_setWidth]
    exact Nat.lt_of_le_of_lt (Nat.mod_le _ _) byte.toNat_lt
  rw [BitVec.toNat_xor]
  exact Nat.xor_lt_two_pow (small byte) (small byte')

/-- Registers from which words of one length lead to the same one differ in their low bits only, by
induction on the words.
-/
theorem fold_close (top : polynomial.getLsbD (w - 1) = true) {word word' : List UInt8}
    {left right : BitVec w} (length : word.length = word'.length) (fits : 8 * word.length ≤ w)
    (same : fold polynomial left word = fold polynomial right word')
    : (left ^^^ right).toNat < 2 ^ (8 * word.length) := by
  induction word generalizing left right word' with
  | nil =>
      obtain rfl := List.length_eq_zero_iff.mp length.symm
      obtain rfl : left = right := same
      simp
  | cons byte rest ih =>
      obtain ⟨byte', rest', rfl⟩ := List.exists_cons_of_length_eq_add_one length.symm
      rw [List.length_cons, List.length_cons, Nat.add_right_cancel_iff] at length
      rw [List.length_cons] at fits ⊢
      have close := ih length (by omega) same
      rw [update_xor] at close
      have limit : 2 ^ (8 * rest.length) ≤ 2 ^ (w - 8) :=
        Nat.pow_le_pow_right (by decide) (by omega)
      have divided := shifts_small top (by omega) (Nat.lt_of_lt_of_le close limit)
      rw [Nat.mul_add, Nat.pow_add, Nat.mul_comm (2 ^ _)]
      have whole :
          (left ^^^ right ^^^ (byte.toBitVec.setWidth w ^^^ byte'.toBitVec.setWidth w)).toNat
            < 2 ^ (8 * rest.length + 8) := by
        rw [divided, Nat.pow_add, Nat.mul_comm]
        exact Nat.mul_lt_mul_of_pos_right close (by decide)
      have bytes : (byte.toBitVec.setWidth w ^^^ byte'.toBitVec.setWidth w).toNat
          < 2 ^ (8 * rest.length + 8) :=
        Nat.lt_of_lt_of_le (byte_xor_lt byte byte')
          (Nat.pow_le_pow_right (by decide) (Nat.le_add_left _ _))
      have both := Nat.xor_lt_two_pow whole bytes
      rw [← BitVec.toNat_xor, BitVec.xor_assoc, BitVec.xor_self, BitVec.xor_zero] at both
      rwa [Nat.mul_comm, ← Nat.pow_add]

/-- A word no longer than the register is determined by what it leads to, by induction on it. -/
theorem fold_inj (top : polynomial.getLsbD (w - 1) = true) {word word' : List UInt8}
    {register : BitVec w} (length : word.length = word'.length) (fits : 8 * word.length ≤ w)
    (same : fold polynomial register word = fold polynomial register word')
    : word = word' := by
  induction word generalizing register word' with
  | nil => exact (List.length_eq_zero_iff.mp length.symm).symm
  | cons byte rest ih =>
      obtain ⟨byte', rest', rfl⟩ := List.exists_cons_of_length_eq_add_one length.symm
      rw [List.length_cons, List.length_cons, Nat.add_right_cancel_iff] at length
      rw [List.length_cons] at fits
      have close := fold_close top length (by omega) same
      rw [update_xor, BitVec.xor_self, BitVec.zero_xor] at close
      have limit : 2 ^ (8 * rest.length) ≤ 2 ^ (w - 8) :=
        Nat.pow_le_pow_right (by decide) (by omega)
      have divided := shifts_small top (by omega) (Nat.lt_of_lt_of_le close limit)
      have bytes := @byte_xor_lt w byte byte'
      -- the bytes differ in their low bits only, and in none of these
      have none : (byte.toBitVec.setWidth w ^^^ byte'.toBitVec.setWidth w) = 0#w := by
        refine BitVec.eq_of_toNat_eq ?_
        rw [BitVec.toNat_zero]
        omega
      have equal := BitVec.xor_eq_zero_iff.mp none
      obtain rfl : byte = byte' := by
        have numbers := congrArg BitVec.toNat equal
        have room : 2 ^ 8 ≤ 2 ^ w := Nat.pow_le_pow_right (by decide) (by omega)
        rw [BitVec.toNat_setWidth, BitVec.toNat_setWidth, UInt8.toNat_toBitVec,
          UInt8.toNat_toBitVec, Nat.mod_eq_of_lt (Nat.lt_of_lt_of_le byte.toNat_lt room),
          Nat.mod_eq_of_lt (Nat.lt_of_lt_of_le byte'.toNat_lt room)] at numbers
        exact UInt8.toNat_inj.mp numbers
      rw [ih length (by omega) same]

/-- Bytes that lead to the same register, and differ in a window that is no longer than it, are the
same.
-/
theorem window_inj (top : polynomial.getLsbD (w - 1) = true) {register : BitVec w}
    {before word word' behind : List UInt8} (length : word.length = word'.length)
    (fits : 8 * word.length ≤ w)
    (same : fold polynomial register (before ++ word ++ behind)
      = fold polynomial register (before ++ word' ++ behind))
    : word = word' := by
  rw [fold_append, fold_append, fold_append, fold_append] at same
  exact fold_inj top length fits (fold_injective top behind same)

-----------------------------------------------------------------------------------------
-- CRC-32
-----------------------------------------------------------------------------------------

/-- CRC-32: the register starts with ones and is inverted at the end. -/
def crc32 (bytes : List UInt8) : UInt32 :=
  .ofBitVec (~~~(fold 0xEDB88320#32 (BitVec.allOnes 32) bytes))

-- Its check value, of the digits from 1 to 9.
example : crc32 (List.range' 0x31 9 |>.map UInt8.ofNat) = 0xCBF43926 := by decide +kernel

/-- Bytes of one checksum that differ in a window of four bytes are the same. -/
theorem crc32_window {before word word' behind : List UInt8} (length : word.length = word'.length)
    (few : word.length ≤ 4)
    (same : crc32 (before ++ word ++ behind) = crc32 (before ++ word' ++ behind))
    : word = word' := by
  have registers := BitVec.not_inj.mp (congrArg UInt32.toBitVec same)
  exact window_inj (by decide) length (by omega) registers

end Foundation.Crc
