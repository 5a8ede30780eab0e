import MoenotesAssets.Embedded.Layout

/-! `embedded::extract` accepts exactly the encodings of wrappers, which have one reading each,
and does not panic.
-/

namespace MoenotesAssets.Embedded

open Foundation Foundation.Bytes Foundation.Machine

-----------------------------------------------------------------------------------------
-- Sizes
-----------------------------------------------------------------------------------------

/-- Padding adds three bytes at most. -/
theorem padded_length_le (bytes : List UInt8) : (padded bytes).length ≤ bytes.length + 3 := by
  rw [padded, List.length_append, padding_length]
  omega

/-- Delimiting adds seven bytes at most. -/
theorem delimited_length_le (bytes : List UInt8)
    : (delimited bytes).length ≤ bytes.length + 7 := by
  have size := padded_length_le (littleEndianBytes 4 bytes.length ++ bytes)
  rw [List.length_append, littleEndianBytes_length] at size
  rw [delimited]
  omega

/-- A 64-bit number has eight bytes. -/
@[simp] theorem long_length (value : Int64) : (long value).length = 8 :=
  littleEndianBytes_length _ _

/-- The bytes of a name of the layout. -/
theorem name_length_le
    : ∀ name ∈ [className, namespaceName, assemblyName],
        (delimited (textBytes name)).length ≤ 40 := by
  decide

/-- An encoding fits into memory. -/
theorem Wrapper.encode_length_le (wrapper : Wrapper) : wrapper.encode.length ≤ 2 ^ 33 := by
  have flag := padded_length_le [if wrapper.enabled then 1 else 0]
  have name := delimited_length_le (textBytes wrapper.name)
  have names := name_length_le
  have last := delimited_length_le wrapper.payload
  have short := wrapper.name_short
  have fits := wrapper.payload_fits
  simp only [List.forall_mem_cons, List.not_mem_nil, false_imp_iff, implies_true, and_true]
    at names
  simp only [Wrapper.encode, List.length_flatten, List.map_cons, List.map_nil, List.sum_cons,
    List.sum_nil, long_length, littleEndianBytes_length, List.length_replicate,
    wrapper.gameObject_length, wrapper.script_length]
  rw [textBytes_length] at name
  rw [List.length_singleton] at flag
  -- the parts are opaque from here on: comparing them would compute their bytes
  generalize (delimited (textBytes className)).length = first at names ⊢
  generalize (delimited (textBytes namespaceName)).length = second at names ⊢
  generalize (delimited (textBytes assemblyName)).length = third at names ⊢
  generalize (delimited (textBytes wrapper.name)).length = fourth at name ⊢
  generalize (delimited wrapper.payload).length = fifth at last ⊢
  omega

-----------------------------------------------------------------------------------------
-- Acceptance
-----------------------------------------------------------------------------------------

/-- An encoding is what comes before the registry, the registry and the payload. -/
theorem Wrapper.encode_parts (wrapper : Wrapper)
    : wrapper.encode
      = preamble wrapper.gameObject wrapper.script wrapper.enabled wrapper.name wrapper.rid
        ++ ([
              littleEndianBytes 4 2,
              littleEndianBytes 4 1,
              long wrapper.rid,
              delimited (textBytes className),
              delimited (textBytes namespaceName),
              delimited (textBytes assemblyName)
            ].flatten
            ++ delimited wrapper.payload) := by
  simp [Wrapper.encode, preamble]

/-- A cursor that passes all bytes is at their end. -/
theorem passes_all {raw piece : List UInt8} {after : Cursor}
    : Cursor.Passes { bytes := raw, pos := 0 } piece after ∧ after.pos = raw.length
      ↔ piece = raw ∧ after = { bytes := raw, pos := raw.length } ∧ raw.length ≤ max64 := by
  constructor
  · rintro ⟨passes, ends⟩
    obtain ⟨bytes, pos⟩ := after
    obtain ⟨rfl, -, rest, counted⟩ := passes
    simp only at rest ends counted
    subst ends
    rw [List.drop_zero, List.drop_length, List.append_nil] at rest
    exact ⟨rest.symm, rfl, counted⟩
  · rintro ⟨rfl, rfl, counted⟩
    exact ⟨⟨rfl, (Nat.zero_add _).symm, by simp, counted⟩, rfl⟩

/-- Extraction accepts the encodings of wrappers with an allowed payload. -/
theorem extract_ok {raw payload : List UInt8} {limit : UInt64}
    : extract raw limit = .ok payload
      ↔ ∃ wrapper : Wrapper,
          raw = wrapper.encode
          ∧ wrapper.payload = payload
          ∧ 0 < payload.length
          ∧ payload.length ≤ limit.toNat
          ∧ signature payload = true := by
  have reads : ReadsBlocks 4 _ (do registry (← behaviour); Embedded.payload limit) :=
    behaviour_blocks.bind fun rid => (registry_blocks rid).andThen (payload_blocks limit)
  have within : Cursor.Within { bytes := raw, pos := 0 } := ⟨Nat.zero_le _, Nat.zero_le _⟩
  simp only [extract, bind_ok, pure_ok, ensure_ok, beq_iff_eq]
  constructor
  · rintro ⟨⟨found, after⟩, read, -, ends, -, signed, rfl⟩
    obtain ⟨piece, ⟨rid, first, second, written, ⟨last, ⟨positive, fits, small, rfl⟩, rfl⟩, rfl⟩,
      passes⟩ := (reads.inverts within (Nat.dvd_zero _)).mp read
    obtain ⟨gameObject, script, enabled, name, length, length', short, rfl⟩ := written
    obtain ⟨whole, -⟩ := passes_all.mp ⟨passes, ends⟩
    let wrapper : Wrapper :=
      ⟨gameObject, enabled, script, name, rid, found, length, length', short, fits⟩
    exact ⟨wrapper, whole.symm.trans wrapper.encode_parts.symm, rfl, positive, small, signed⟩
  · rintro ⟨wrapper, rfl, rfl, positive, small, signed⟩
    have counted : wrapper.encode.length ≤ max64 := by
      have size := wrapper.encode_length_le
      rw [max64]
      omega
    obtain ⟨passes, -⟩ := passes_all.mpr ⟨rfl, rfl, counted⟩
    refine ⟨(wrapper.payload, _), (reads.inverts within (Nat.dvd_zero _)).mpr ⟨_, ?_, passes⟩,
      (), rfl, (), signed, rfl⟩
    exact ⟨wrapper.rid, _, _, ⟨wrapper.gameObject, wrapper.script, wrapper.enabled, wrapper.name,
      wrapper.gameObject_length, wrapper.script_length, wrapper.name_short, rfl⟩,
      ⟨_, ⟨positive, wrapper.payload_fits, small, rfl⟩, rfl⟩, wrapper.encode_parts⟩

-----------------------------------------------------------------------------------------
-- Uniqueness
-----------------------------------------------------------------------------------------

/-- A 64-bit number is determined by its bytes. -/
theorem long_injective {left right : Int64} (same : long left = long right) : left = right := by
  have values := littleEndianBytes_injective left.toUInt64.toNat_lt right.toUInt64.toNat_lt same
  rw [← left.toInt64_toUInt64, UInt64.toNat_inj.mp values, right.toInt64_toUInt64]

/-- Delimited bytes are determined by what they begin. -/
theorem delimited_append_inj {left right rest rest' : List UInt8}
    (fits : left.length < 2 ^ 32) (fits' : right.length < 2 ^ 32)
    (same : delimited left ++ rest = delimited right ++ rest')
    : left = right ∧ rest = rest' := by
  simp only [delimited, padded, List.append_assoc] at same
  obtain ⟨sizes, bodies⟩ := List.append_inj same (by simp)
  have length := littleEndianBytes_injective fits fits' sizes
  obtain ⟨rfl, later⟩ := List.append_inj bodies length
  exact ⟨rfl, List.append_cancel_left later⟩

/-- A wrapper is determined by its encoding. -/
theorem Wrapper.encode_injective {left right : Wrapper} (same : left.encode = right.encode)
    : left = right := by
  obtain ⟨gameObject, enabled, script, name, rid, payload, length, length', short, fits⟩ := left
  obtain ⟨gameObject', enabled', script', name', rid', payload', length₂, length₂', short',
    fits'⟩ := right
  simp only [Wrapper.encode, List.flatten_cons, List.flatten_nil] at same
  obtain ⟨rfl, tail⟩ := List.append_inj same (length.trans length₂.symm)
  obtain ⟨flags, tail₂⟩ := List.append_inj tail (by simp [padded])
  obtain ⟨rfl, tail₃⟩ := List.append_inj tail₂ (length'.trans length₂'.symm)
  obtain ⟨names, tail₄⟩ := delimited_append_inj (by rw [textBytes_length]; omega)
    (by rw [textBytes_length]; omega) tail₃
  obtain ⟨rids, tail₅⟩ := List.append_inj tail₄ (by rw [long_length, long_length])
  obtain rfl := textBytes_injective names
  obtain rfl := long_injective rids
  simp only [List.append_cancel_left_eq] at tail₅
  obtain ⟨rfl, -⟩ := delimited_append_inj fits fits' tail₅
  cases enabled <;> cases enabled' <;> first | rfl | cases flags

-----------------------------------------------------------------------------------------
-- No panic
-----------------------------------------------------------------------------------------

/-- Taking bytes does not panic. -/
theorem take_advances (n : Nat) : Advances n (fun value => value.length = n) (take n) := by
  refine ⟨fun {cursor} room => ?_⟩
  refine .bind (.context _ _) fun added => .bind (.context _ _) fun found => .value ?_
  obtain ⟨rfl, -⟩ := checkedAdd_eq_some added
  obtain ⟨length, -⟩ := slice_length found
  exact ⟨by simp only; omega, Nat.le_refl _⟩

/-- Reading a number does not panic. -/
theorem number_advances {α : Type} (width : Nat) (ofNat : Nat → α)
    : Advances width (fun _ => True) (do return ofNat (littleEndian (← take width))) :=
  (take_advances width).bind fun _ => .pure trivial

/-- Moving to a group of four does not panic. -/
theorem align_advances : Advances 3 (fun _ => True) align := by
  refine ⟨fun {cursor} room => ?_⟩
  rw [maxBytes] at room
  have distance : toAlign cursor.pos = .ok ((4 - cursor.pos % 4) % 4) :=
    toAlign_ok.mpr ⟨rfl, by rw [max64]; omega⟩
  have small : (4 - cursor.pos % 4) % 4 ≤ 3 := by omega
  generalize (4 - cursor.pos % 4) % 4 = n at distance small
  have moves : Advances (n + 0) (fun _ => True)
      (take n >>= fun zeros =>
        Reading.ensure (zeros.all (· == 0)) "nonzero embedded alignment") :=
    (take_advances n).bind fun {zeros} _ =>
      Advances.ensure (zeros.all (· == 0)) _ |>.weaken (Nat.le_refl 0) fun _ => trivial
  have unfolded : align cursor = (StateT.lift (toAlign cursor.pos) >>= fun n => take n >>=
      fun zeros => Reading.ensure (zeros.all (· == 0)) "nonzero embedded alignment") cursor := rfl
  rw [unfolded, distance]
  exact (moves.weaken small fun _ => trivial).moves room

/-- Reading a text does not panic. -/
theorem string_advances
    : Advances (4 + (0 + (4096 + (0 + (3 + 0))))) (fun _ => True) string := by
  refine (number_advances 4 UInt32.ofNat).bind fun {n} _ => ?_
  refine (Advances.ensure _ _).bind fun {_} limit => ?_
  refine ((take_advances n.toNat).weaken (of_decide_eq_true limit) id).bind fun {bytes} _ => ?_
  refine (Advances.context _ _).bind fun {value} _ => ?_
  exact align_advances.bind fun _ => .pure trivial

/-- A read that must return a value does not panic. -/
theorem expect_advances {α : Type} [BEq α] {size : Nat} {reading : Reading α}
    (advances : Advances size (fun _ => True) reading) (expected : α) (message : String)
    : Advances (size + 0) (fun _ => True) (Reading.expect reading expected message) :=
  advances.bind fun _ => (Advances.ensure _ _).weaken (Nat.le_refl 0) fun _ => trivial

/-- The flag does not panic: one byte was taken. -/
theorem enabled_advances : Advances (1 + (0 + (0 + 3))) (fun _ => True) enabled := by
  refine (take_advances 1).bind fun {bytes} single => ?_
  have byte : Yields (fun _ => True) (index bytes 0) := by
    obtain ⟨first, rfl⟩ := List.length_eq_one_iff.mp single
    exact .value trivial
  refine (Advances.lift byte).bind fun {flag} _ => ?_
  exact (Advances.ensure (flag ≤ 1) _).bind fun _ => align_advances

/-- Extraction does not panic. -/
theorem extract_noPanic (raw : List UInt8) (limit : UInt64) : NoPanic (extract raw limit) := by
  have word := number_advances 4 UInt32.ofNat
  have number := number_advances 8 fun n => (UInt64.ofNat n).toInt64
  have awb : Advances (12 + 0) (fun _ => True) awb :=
    (take_advances 12).bind fun {bytes} _ =>
      (Advances.ensure (bytes.all (· == 0)) _).weaken (Nat.le_refl 0) fun _ => trivial
  have behaviour : Advances _ (fun _ => True) behaviour :=
    (take_advances 12).bind fun _ => enabled_advances.bind fun _ => (take_advances 12).bind fun _ =>
    string_advances.bind fun _ => number.bind fun _ => awb.bind fun _ =>
    (expect_advances word 0 _).bind fun _ => .pure trivial
  have registry : ∀ (rid : Int64), Advances _ (fun _ => True) (registry rid) := fun rid =>
    (expect_advances word 2 _).bind fun _ => (expect_advances word 1 _).bind fun _ =>
    (expect_advances number rid _).bind fun _ => (expect_advances string_advances className _).bind
    fun _ => (expect_advances string_advances namespaceName _).bind fun _ =>
    expect_advances string_advances assemblyName _
  have payload : Advances (4 + (0 + (2 ^ 32 + (3 + 0)))) (fun _ => True) (payload limit) := by
    refine word.bind fun {n} _ => (Advances.ensure _ _).bind fun _ => ?_
    refine ((take_advances n.toNat).weaken (Nat.le_of_lt n.toNat_lt) id).bind fun {bytes} _ => ?_
    exact align_advances.bind fun _ => .pure trivial
  have whole := behaviour.bind fun {rid} _ => (registry rid).bind fun _ => payload
  refine Yields.calm (P := fun _ => True) ?_
  refine .bind (whole.moves (by simp [maxBytes])) fun _ => .bind (.ensure _ _) fun _ => ?_
  exact .bind (.ensure _ _) fun _ => .value trivial

-----------------------------------------------------------------------------------------
-- Extraction
-----------------------------------------------------------------------------------------

/-- For any bytes and limit, extraction does not panic, it accepts exactly the encodings of
wrappers whose payload is allowed, as that payload, and the bytes encode one wrapper at most.
-/
theorem extract_accepts_wrappers (raw : List UInt8) (limit : UInt64)
    : NoPanic (extract raw limit)
      ∧ (∀ payload,
          extract raw limit = .ok payload
          ↔ ∃ wrapper : Wrapper,
              raw = wrapper.encode
              ∧ wrapper.payload = payload
              ∧ 0 < payload.length
              ∧ payload.length ≤ limit.toNat
              ∧ signature payload = true)
      ∧ ∀ left right : Wrapper, raw = left.encode → raw = right.encode → left = right := by
  refine ⟨extract_noPanic raw limit, fun payload => extract_ok, fun left right first second => ?_⟩
  exact Wrapper.encode_injective (first.symm.trans second)

end MoenotesAssets.Embedded
