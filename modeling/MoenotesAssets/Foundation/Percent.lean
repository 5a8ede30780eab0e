import MoenotesAssets.Foundation.Bytes

/-! Percent-encoding of bytes, for any bytes that stand for themselves and any digits. -/

namespace Foundation.Percent

/-- A byte stands for itself, or is written with two digits. -/
def escapeByte (digit : Nat → Char) (plain : UInt8 → Bool) (byte : UInt8) : List Char :=
  if plain byte then [Char.ofNat byte.toNat]
  else ['%', digit (byte.toNat / 16), digit (byte.toNat % 16)]

/-- The text of bytes. -/
def encode (digit : Nat → Char) (plain : UInt8 → Bool) (bytes : List UInt8) : List Char :=
  bytes.flatMap (escapeByte digit plain)

/-- Digits that tell bytes apart, and bytes that stand for themselves but are no escapes. -/
structure Readable (digit : Nat → Char) (plain : UInt8 → Bool) : Prop where
  digits : ∀ left < 16, ∀ right < 16, digit left = digit right → left = right
  escapes : plain 0x25 = false

/-- The character of a byte has its code. -/
theorem toNat_ofByte (byte : UInt8) : (Char.ofNat byte.toNat).toNat = byte.toNat := by
  have each : ∀ value : Fin 256, (Char.ofNat value).toNat = value := by decide +kernel
  exact each ⟨byte.toNat, byte.toNat_lt⟩

variable {digit : Nat → Char} {plain : UInt8 → Bool}

/-- A byte that stands for itself does not read as an escape. -/
theorem Readable.ofByte_ne (readable : Readable digit plain) {byte : UInt8}
    (itself : plain byte = true)
    : Char.ofNat byte.toNat ≠ '%' := by
  intro same
  have code := congrArg Char.toNat same
  rw [toNat_ofByte] at code
  have percent : byte = 0x25 := UInt8.toNat_inj.mp code
  rw [percent, readable.escapes] at itself
  cases itself

/-- The text of a byte is told apart from any other, whatever comes behind. -/
theorem Readable.escapeByte (readable : Readable digit plain) {byte other : UInt8}
    {r s : List Char}
    (same : Percent.escapeByte digit plain byte ++ r = Percent.escapeByte digit plain other ++ s)
    : byte = other ∧ r = s := by
  rw [Percent.escapeByte, Percent.escapeByte] at same
  by_cases itself : plain byte = true <;> by_cases itself' : plain other = true
  · rw [if_pos itself, if_pos itself'] at same
    obtain ⟨letter, rest⟩ := List.cons.inj same
    have code := congrArg Char.toNat letter
    rw [toNat_ofByte, toNat_ofByte] at code
    exact ⟨UInt8.toNat_inj.mp code, rest⟩
  · rw [if_pos itself, if_neg itself'] at same
    exact absurd (List.cons.inj same).1 (readable.ofByte_ne itself)
  · rw [if_neg itself, if_pos itself'] at same
    exact absurd (List.cons.inj same).1.symm (readable.ofByte_ne itself')
  · rw [if_neg itself, if_neg itself'] at same
    simp only [List.cons_append, List.nil_append, List.cons.injEq, true_and] at same
    obtain ⟨high, low, rest⟩ := same
    have bound := byte.toNat_lt
    have bound' := other.toNat_lt
    have upper := readable.digits _ (by omega) _ (by omega) high
    have lower := readable.digits _ (by omega) _ (by omega) low
    exact ⟨UInt8.toNat_inj.mp (by omega), rest⟩

/-- A byte is written with something. -/
theorem escapeByte_ne_nil (byte : UInt8) (rest : List Char)
    : escapeByte digit plain byte ++ rest ≠ [] := by
  rw [escapeByte]
  split <;> exact List.cons_ne_nil _ _

/-- Bytes are determined by their text, by induction on the bytes. -/
theorem Readable.injective (readable : Readable digit plain)
    : Function.Injective (encode digit plain) := by
  intro left right same
  induction left generalizing right with
  | nil =>
      cases right with
      | nil => rfl
      | cons other others => exact absurd same.symm (escapeByte_ne_nil other _)
  | cons byte rest ih =>
      cases right with
      | nil => exact absurd same (escapeByte_ne_nil byte _)
      | cons other others =>
          rw [encode, encode, List.flatMap_cons, List.flatMap_cons] at same
          obtain ⟨rfl, later⟩ := readable.escapeByte same
          rw [ih later]

/-- A letter that is no digit, no percent sign and no byte that stands for itself is not written. -/
theorem encode_lacks {mark : Char} (foreign : ∀ value < 16, digit value ≠ mark)
    (percent : mark ≠ '%') (escaped : ∀ byte, plain byte = true → Char.ofNat byte.toNat ≠ mark)
    (bytes : List UInt8)
    : mark ∉ encode digit plain bytes := by
  rw [encode, List.mem_flatMap]
  rintro ⟨byte, -, member⟩
  have bound := byte.toNat_lt
  rw [escapeByte] at member
  split at member
  · rename_i itself
    exact escaped byte itself (List.mem_singleton.mp member).symm
  · simp only [List.mem_cons, List.not_mem_nil, or_false] at member
    rcases member with here | high | low
    · exact percent here
    · exact foreign (byte.toNat / 16) (by omega) high.symm
    · exact foreign (byte.toNat % 16) (by omega) low.symm

end Foundation.Percent
