import MoenotesAssets.Foundation.Machine
import MoenotesAssets.Worker.Waveforms

/-! `worker::check_awb_references` with the bounds, sums and products that its machine checks, and
what an accepted bank satisfies.
-/

namespace MoenotesAssets.Worker

open Foundation Foundation.Bytes Foundation.Machine

-----------------------------------------------------------------------------------------
-- The check with its bounds
-----------------------------------------------------------------------------------------

/-- The closure `number` of `check_awb_references`. -/
def number (b : List UInt8) : Except Failure UInt32 :=
  b.zipIdx.foldlM (fun sum (b, i) => do addWord sum (← shiftWord b.toUInt32 (i * 8))) 0

/-- One round of the loop over the ids, with its bounds. -/
def checkIdSized (data : List UInt8) (idSize : Nat) (ids : List Nat) (i : Nat)
    : Except Failure (List Nat) := do
  let start ← addSize 16 (← mulSize i idSize)
  let stop ← addSize 16 (← mulSize (← addSize i 1) idSize)
  let id ← number (← range data start stop)
  ensure (!ids.contains id.toNat) (.error "duplicate AWB wave ID")
  return id.toNat :: ids

/-- One round of the loop over the offsets, with its bounds. -/
def checkOffsetSized (data offsets : List UInt8) (offsetSize alignment count previous i : Nat)
    : Except Failure Nat := do
  let first ← mulSize i offsetSize
  let last ← mulSize (← addSize i 1) offsetSize
  let n ← number (← range offsets first last)
  ensure (previous ≤ n.toNat && n.toNat ≤ data.length) (.error "invalid AWB offset")
  let start ←
    if i < count then do mulSize (← divCeilSize n.toNat alignment) alignment
    else pure n.toNat
  ensure (start ≤ data.length) (.error "invalid AWB alignment")
  return start

/-- `check_awb_references` with its bounds. -/
def checkAwbReferencesSized (data : List UInt8) (tracks : List Track) : Except Failure Unit := do
  ensure (16 ≤ data.length && awbMark.isPrefixOf data) (.error "invalid embedded AWB")
  let count := littleEndian (← range data 8 12)
  let offsetSize := (← index data 5).toNat
  let idSize := (← index data 6).toNat
  let alignment := littleEndian (← range data 12 14)
  ensure
    (count ≤ 10000 && (offsetSize == 2 || offsetSize == 4) && (idSize == 2 || idSize == 4)
      && 0 < alignment)
    (.error "unsupported AWB header")
  let idsEnd ← addSize 16 (← mulSize count idSize)
  let tableEnd ← addSize idsEnd (← mulSize (← addSize count 1) offsetSize)
  ensure (tableEnd ≤ data.length) (.error "truncated AWB table")
  let ids ← (List.range count).foldlM (checkIdSized data idSize) []
  let offsets ← range data (← addSize 16 (← mulSize count idSize)) tableEnd
  let _ ← (List.range (count + 1)).foldlM
    (checkOffsetSized data offsets offsetSize alignment count) tableEnd
  tracks.forM fun t =>
    ensure (0 ≤ t.wavId && ids.contains t.wavId.toNat)
      (.error "ACB references a missing AWB waveform")

-----------------------------------------------------------------------------------------
-- No bound fails
-----------------------------------------------------------------------------------------

/-- A number of at most four bytes is their little-endian value, by induction on them from the
last one.
-/
theorem number_ok {b : List UInt8} (short : b.length ≤ 4)
    : ∃ value, number b = .ok value ∧ value.toNat = littleEndian b := by
  induction b using List.reverseRec with
  | nil => exact ⟨0, rfl, rfl⟩
  | append_singleton bytes byte ih =>
      rw [List.length_append, List.length_singleton] at short
      obtain ⟨sum, found, same⟩ := ih (by omega)
      obtain ⟨shifted, moved, place⟩ := shiftWord_byte byte (show bytes.length < 4 by omega)
      have total := littleEndian_concat bytes byte
      have bound : littleEndian (bytes ++ [byte]) < 2 ^ 32 := by
        refine Nat.lt_of_lt_of_le (littleEndian_lt _) ?_
        rw [List.length_append, List.length_singleton]
        exact Nat.le_trans (Nat.pow_le_pow_right (by omega) short) (by omega)
      have fits : sum.toNat + shifted.toNat < 2 ^ 32 := by
        rwa [same, place, ← total]
      refine ⟨sum + shifted, ?_, ?_⟩
      · rw [number, List.zipIdx_append, List.foldlM_append]
        refine bind_ok.mpr ⟨_, found, ?_⟩
        rw [List.zipIdx_singleton, Nat.zero_add]
        simp only [List.foldlM_cons, List.foldlM_nil, moved, ok_bind, addWord_eq fits]
        rfl
      · rw [UInt32.toNat_add, Nat.mod_eq_of_lt fits, same, place, total]

/-- A range of a table in its bounds. -/
theorem range_bytesAt {data : List UInt8} {start stop : Nat} (ordered : start ≤ stop)
    (inside : stop ≤ data.length)
    : range data start stop = .ok (bytesAt data start stop) :=
  range_ok ordered inside

/-- A number of a table. -/
theorem number_bytesAt (data : List UInt8) {start stop : Nat} (short : stop ≤ start + 4)
    : ∃ value,
        number (bytesAt data start stop) = .ok value
        ∧ value.toNat = littleEndian (bytesAt data start stop) := by
  apply number_ok
  rw [bytesAt, List.length_take]
  omega

/-- A number of a table is bounded by its width. -/
theorem littleEndian_bytesAt_lt (data : List UInt8) (start stop : Nat)
    : littleEndian (bytesAt data start stop) < 256 ^ (stop - start) :=
  Nat.lt_of_lt_of_le (littleEndian_lt _)
    (Nat.pow_le_pow_right (by decide) (List.length_take_le _ _))

section Rounds

variable {data offsets : List UInt8} {ids : List Nat}
  {idSize offsetSize alignment count previous i : Nat}

/-- A round of the loop over the ids stays within its bounds. -/
theorem checkIdSized_eq (narrow : idSize ≤ 4) (few : i ≤ 10000)
    (inside : 16 + (i + 1) * idSize ≤ data.length)
    : checkIdSized data idSize ids i = (checkId data idSize ids i).mapError .error := by
  have next : (i + 1) * idSize = i * idSize + idSize := Nat.succ_mul i idSize
  have small : i * idSize ≤ 10000 * 4 := Nat.mul_le_mul few narrow
  obtain ⟨value, found, same⟩ :=
    number_bytesAt data (show 16 + (i + 1) * idSize ≤ 16 + i * idSize + 4 by omega)
  rw [checkIdSized, checkId, mulSize_eq (by rw [max64]; omega), ok_bind,
    addSize_eq (by rw [max64]; omega), ok_bind, addSize_eq (by rw [max64]; omega), ok_bind,
    mulSize_eq (by rw [max64]; omega), ok_bind, addSize_eq (by rw [max64]; omega), ok_bind,
    range_bytesAt (by omega) inside, ok_bind, found, ok_bind, same,
    mapError_bind, mapError_ensure]
  rfl

/-- A round of the loop over the offsets stays within its bounds. -/
theorem checkOffsetSized_eq (narrow : offsetSize ≤ 4) (few : i ≤ 10000) (positive : 0 < alignment)
    (short : alignment < 2 ^ 16) (inside : (i + 1) * offsetSize ≤ offsets.length)
    : checkOffsetSized data offsets offsetSize alignment count previous i
      = (checkOffset data offsets offsetSize alignment count previous i).mapError .error := by
  have next : (i + 1) * offsetSize = i * offsetSize + offsetSize := Nat.succ_mul i offsetSize
  have small : i * offsetSize ≤ 10000 * 4 := Nat.mul_le_mul few narrow
  obtain ⟨value, found, same⟩ :=
    number_bytesAt offsets (show (i + 1) * offsetSize ≤ i * offsetSize + 4 by omega)
  have rounded : divCeil value.toNat alignment * alignment ≤ value.toNat + alignment - 1 :=
    Nat.div_mul_le_self _ _
  have word := value.toNat_lt
  rw [checkOffsetSized, checkOffset, mulSize_eq (by rw [max64]; omega), ok_bind,
    addSize_eq (by rw [max64]; omega), ok_bind, mulSize_eq (by rw [max64]; omega), ok_bind,
    range_bytesAt (by omega) inside, ok_bind, found, ok_bind]
  dsimp only
  rw [mapError_bind, mapError_ensure, same]
  refine bind_congr_ok fun _ _ => ?_
  rw [same] at rounded word
  rw [mapError_bind, mapError_ensure]
  by_cases more : i < count
  · rw [if_pos more, if_pos more, divCeilSize, if_pos positive, ok_bind,
      mulSize_eq (by rw [max64]; omega)]
    rfl
  · rw [if_neg more, if_neg more]
    rfl

end Rounds

/-- The check stays within its bounds: it decides as the check without them. -/
theorem checkAwbReferencesSized_eq (data : List UInt8) (tracks : List Track)
    : checkAwbReferencesSized data tracks
      = (checkAwbReferences data tracks).mapError .error := by
  rw [checkAwbReferencesSized, checkAwbReferences, mapError_bind, mapError_ensure]
  refine bind_congr_ok fun _ marked => ?_
  have long : 16 ≤ data.length := by
    have both := ensure_ok.mp marked
    rw [Bool.and_eq_true, decide_eq_true_eq] at both
    exact both.1
  rw [range_bytesAt (by omega) (by omega), ok_bind, index_ok (by omega) 0, ok_bind,
    index_ok (by omega) 0, ok_bind, range_bytesAt (by omega) (by omega), ok_bind]
  dsimp only
  rw [mapError_bind, mapError_ensure]
  refine bind_congr_ok fun _ supported => ?_
  have aligned : littleEndian (bytesAt data 12 14) < 2 ^ 16 := littleEndian_bytesAt_lt data 12 14
  generalize littleEndian (bytesAt data 8 12) = count at *
  generalize (data.getD 5 0).toNat = offsetSize at *
  generalize (data.getD 6 0).toNat = idSize at *
  generalize littleEndian (bytesAt data 12 14) = alignment at *
  have header := ensure_ok.mp supported
  simp only [Bool.and_eq_true, Bool.or_eq_true, decide_eq_true_eq, beq_iff_eq] at header
  obtain ⟨⟨⟨few, offsetWidth⟩, idWidth⟩, positive⟩ := header
  have narrow : idSize ≤ 4 := by omega
  have narrow' : offsetSize ≤ 4 := by omega
  have idBytes : count * idSize ≤ 10000 * 4 := Nat.mul_le_mul few narrow
  have offsetBytes : (count + 1) * offsetSize ≤ 10001 * 4 :=
    Nat.mul_le_mul (Nat.succ_le_succ few) narrow'
  rw [mulSize_eq (by rw [max64]; omega), ok_bind, addSize_eq (by rw [max64]; omega), ok_bind,
    addSize_eq (by rw [max64]; omega), ok_bind, mulSize_eq (by rw [max64]; omega), ok_bind,
    addSize_eq (by rw [max64]; omega), ok_bind, mapError_bind, mapError_ensure]
  refine bind_congr_ok fun _ whole => ?_
  have inside := of_decide_eq_true (ensure_ok.mp whole)
  have each : ∀ i ∈ List.range count, ∀ ids,
      checkIdSized data idSize ids i = (checkId data idSize ids i).mapError .error := by
    intro i member ids
    have below := List.mem_range.mp member
    have within : (i + 1) * idSize ≤ count * idSize := Nat.mul_le_mul_right _ below
    exact checkIdSized_eq narrow (by omega) (by omega)
  rw [foldlM_congr_mem each, mapError_bind, mapError_foldlM]
  refine bind_congr_ok fun ids _ => ?_
  rw [ok_bind, addSize_eq (by rw [max64]; omega), ok_bind, range_bytesAt (by omega) inside,
    ok_bind, mapError_bind, mapError_foldlM]
  have table : (bytesAt data (16 + count * idSize)
      (16 + count * idSize + (count + 1) * offsetSize)).length = (count + 1) * offsetSize := by
    rw [bytesAt, List.length_take, List.length_drop]
    omega
  generalize bytesAt data (16 + count * idSize) _ = offsets at table ⊢
  have each' : ∀ i ∈ List.range (count + 1), ∀ previous,
      checkOffsetSized data offsets offsetSize alignment count previous i
        = (checkOffset data offsets offsetSize alignment count previous i).mapError .error := by
    intro i member previous
    have below := List.mem_range.mp member
    have within : (i + 1) * offsetSize ≤ (count + 1) * offsetSize :=
      Nat.mul_le_mul_right _ below
    exact checkOffsetSized_eq narrow' (by omega) positive aligned (table ▸ within)
  rw [foldlM_congr_mem each']
  refine bind_congr_ok fun _ _ => ?_
  rw [mapError_forM]
  exact congrArg tracks.forM (funext fun t => (mapError_ensure _ _ _).symm)

-----------------------------------------------------------------------------------------
-- What an accepted bank satisfies
-----------------------------------------------------------------------------------------

section Waves

variable (data : List UInt8)

/-- The number of waveforms of a bank. -/
def waveCount : Nat := littleEndian (bytesAt data 8 12)

/-- The bytes of an offset. -/
def offsetWidth : Nat := (data.getD 5 0).toNat

/-- The bytes of an id. -/
def idWidth : Nat := (data.getD 6 0).toNat

/-- The alignment of the waveforms. -/
def waveAlignment : Nat := littleEndian (bytesAt data 12 14)

/-- The end of the ids of a bank. -/
def idsEnd : Nat := 16 + waveCount data * idWidth data

/-- The end of the ids and offsets of a bank. -/
def tableEnd : Nat := idsEnd data + (waveCount data + 1) * offsetWidth data

/-- The id at an index. -/
def waveId (i : Nat) : Nat :=
  littleEndian (bytesAt data (16 + i * idWidth data) (16 + (i + 1) * idWidth data))

/-- The offset at an index. -/
def waveOffset (i : Nat) : Nat :=
  littleEndian
    (bytesAt data (idsEnd data + i * offsetWidth data) (idsEnd data + (i + 1) * offsetWidth data))

/-- Where a waveform starts: its offset, rounded up to the alignment. -/
def waveStart (i : Nat) : Nat :=
  divCeil (waveOffset data i) (waveAlignment data) * waveAlignment data

/-- Where a waveform ends: the next offset. -/
def waveEnd (i : Nat) : Nat := waveOffset data (i + 1)

end Waves

/-- What is known of a bank and the tracks that refer to it: the ids are distinct, every track has
one of them, and the waveforms lie behind the tables, one after the other.
-/
structure Referenced (data : List UInt8) (tracks : List Track) : Prop where
  distinct : ((List.range (waveCount data)).map (waveId data)).Nodup
  referenced : ∀ t ∈ tracks, 0 ≤ t.wavId ∧ ∃ i < waveCount data, waveId data i = t.wavId.toNat
  behind : ∀ i < waveCount data, tableEnd data ≤ waveStart data i
  ordered : ∀ i < waveCount data, waveStart data i ≤ waveEnd data i
  inside : ∀ i < waveCount data, waveEnd data i ≤ data.length
  apart : ∀ i, i + 1 < waveCount data → waveEnd data i ≤ waveStart data (i + 1)

section Accepted

variable {data : List UInt8}

/-- The loop over the ids collects them, all different. -/
theorem checkIds_ok {ids : List Nat}
    (checked
      : (List.range (waveCount data)).foldlM (checkId data (idWidth data)) [] = .ok ids)
    : ids = ((List.range (waveCount data)).map (waveId data)).reverse ∧ ids.Nodup := by
  refine foldlM_invariant
    (P := fun done ids => ids = (done.map (waveId data)).reverse ∧ ids.Nodup) checked
    ⟨rfl, List.nodup_nil⟩ fun {done ids after i} ⟨same, distinct⟩ step => ?_
  simp only [checkId, bind_ok, ensure_ok, pure_ok, exists_const, Bool.not_eq_true',
    List.contains_eq_mem, decide_eq_false_iff_not] at step
  obtain ⟨fresh, rfl⟩ := step
  refine ⟨?_, List.nodup_cons.mpr ⟨fresh, distinct⟩⟩
  rw [List.map_append, List.reverse_append, ← same]
  rfl

/-- Rounding up does not lower a number. -/
theorem le_divCeil_mul {n alignment : Nat} (positive : 0 < alignment)
    : n ≤ divCeil n alignment * alignment := by
  have split := Nat.div_add_mod (n + alignment - 1) alignment
  have rest := Nat.mod_lt (n + alignment - 1) positive
  rw [Nat.mul_comm] at split
  rw [divCeil]
  omega

/-- Where the loop over the offsets stands behind `k` rounds: the offsets so far are in order, and
`previous` is where the last waveform starts.
-/
structure Laid (data : List UInt8) (k previous : Nat) : Prop where
  behind : tableEnd data ≤ previous
  inside : ∀ i < k, waveOffset data i ≤ data.length
  start : ∀ i < k, i < waveCount data → tableEnd data ≤ waveStart data i
  ordered : ∀ i, i + 1 < k → i < waveCount data → waveStart data i ≤ waveOffset data (i + 1)
  last : ∀ i, i + 1 = k → i < waveCount data → waveStart data i = previous

/-- An offset is read from its table. -/
theorem waveOffset_eq {i : Nat} (few : i ≤ waveCount data)
    : littleEndian
        (bytesAt (bytesAt data (idsEnd data) (tableEnd data)) (i * offsetWidth data)
          ((i + 1) * offsetWidth data))
      = waveOffset data i := by
  have next : (i + 1) * offsetWidth data = i * offsetWidth data + offsetWidth data :=
    Nat.succ_mul i _
  have within : (i + 1) * offsetWidth data ≤ (waveCount data + 1) * offsetWidth data :=
    Nat.mul_le_mul_right _ (Nat.succ_le_succ few)
  rw [waveOffset, bytesAt, bytesAt, bytesAt, part_part _ (by rw [tableEnd]; omega)]
  congr 2
  omega

/-- A round of the loop over the offsets keeps their order. -/
theorem Laid.step {k previous next : Nat} (positive : 0 < waveAlignment data)
    (few : k ≤ waveCount data) (laid : Laid data k previous)
    (checked
      : checkOffset data (bytesAt data (idsEnd data) (tableEnd data)) (offsetWidth data)
          (waveAlignment data) (waveCount data) previous k = .ok next)
    : Laid data (k + 1) next := by
  simp only [checkOffset, waveOffset_eq few, bind_ok, ensure_ok, pure_ok, exists_const,
    Bool.and_eq_true, decide_eq_true_eq] at checked
  obtain ⟨⟨above, inside⟩, -, rfl⟩ := checked
  have rounded : waveOffset data k ≤ waveStart data k := le_divCeil_mul positive
  have behind := laid.behind
  constructor
  case behind =>
    split
    case isTrue => exact Nat.le_trans behind (Nat.le_trans above rounded)
    case isFalse => exact Nat.le_trans behind above
  case inside =>
    intro i below
    rcases Nat.lt_succ_iff_lt_or_eq.mp below with before | rfl
    · exact laid.inside i before
    · exact inside
  case start =>
    intro i below wave
    rcases Nat.lt_succ_iff_lt_or_eq.mp below with before | rfl
    · exact laid.start i before wave
    · exact Nat.le_trans behind (Nat.le_trans above rounded)
  case ordered =>
    intro i below wave
    rcases Nat.lt_succ_iff_lt_or_eq.mp below with before | rfl
    · exact laid.ordered i before wave
    · exact Nat.le_trans (Nat.le_of_eq (laid.last i rfl wave)) above
  case last =>
    intro i same wave
    obtain rfl := Nat.succ.inj same
    rw [if_pos wave, waveStart]

/-- The loop over the offsets checks their order, by induction on its rounds. -/
theorem checkOffsets_ok {k last : Nat} (positive : 0 < waveAlignment data)
    (few : k ≤ waveCount data + 1)
    (checked
      : (List.range k).foldlM
          (checkOffset data (bytesAt data (idsEnd data) (tableEnd data)) (offsetWidth data)
            (waveAlignment data) (waveCount data)) (tableEnd data) = .ok last)
    : Laid data k last := by
  induction k generalizing last with
  | zero =>
      obtain rfl := pure_ok.mp checked
      constructor <;> simp
  | succ k ih =>
      rw [List.range_succ, List.foldlM_append] at checked
      obtain ⟨previous, before, round⟩ := bind_ok.mp checked
      simp only [List.foldlM_cons, List.foldlM_nil, bind_pure] at round
      exact (ih (by omega) before).step positive (by omega) round

/-- An accepted bank has distinct ids, its tracks refer to them, and its waveforms are apart. -/
theorem checkAwbReferences_ok {tracks : List Track}
    (accepted : checkAwbReferences data tracks = .ok ())
    : Referenced data tracks := by
  simp only [checkAwbReferences, bind_ok, ensure_ok, exists_const, Bool.and_eq_true,
    decide_eq_true_eq] at accepted
  obtain ⟨-, ⟨-, positive⟩, -, ids, unique, last, laid, referenced⟩ := accepted
  obtain ⟨same, distinct⟩ := checkIds_ok unique
  have laid := checkOffsets_ok positive (Nat.le_refl _) laid
  have rounded : ∀ i, waveOffset data i ≤ waveStart data i := fun i => le_divCeil_mul positive
  constructor
  case distinct => rwa [same, List.nodup_reverse] at distinct
  case referenced =>
    intro t member
    have known := ensure_ok.mp (forM_ok.mp referenced t member)
    rw [Bool.and_eq_true, decide_eq_true_eq, List.contains_eq_mem, decide_eq_true_eq, same,
      List.mem_reverse, List.mem_map] at known
    obtain ⟨positive, i, below, found⟩ := known
    exact ⟨positive, i, List.mem_range.mp below, found⟩
  case behind => exact fun i below => laid.start i (by omega) below
  case ordered => exact fun i below => laid.ordered i (by omega) below
  case inside => exact fun i below => laid.inside (i + 1) (by omega)
  case apart => exact fun i below => rounded (i + 1)

end Accepted

/-- The check of a bank stays within its bounds whatever its bytes are; an accepted bank has
distinct ids, its tracks refer to them, and its waveforms lie behind its tables and apart.
-/
theorem checkAwbReferencesSized_ok (data : List UInt8) (tracks : List Track)
    : NoPanic (checkAwbReferencesSized data tracks)
      ∧ (checkAwbReferencesSized data tracks = .ok () → Referenced data tracks) := by
  rw [checkAwbReferencesSized_eq]
  cases checked : checkAwbReferences data tracks with
  | error message => exact ⟨.error message, fun accepted => nomatch accepted⟩
  | ok done => exact ⟨.value done, fun _ => checkAwbReferences_ok checked⟩

end MoenotesAssets.Worker
