import MoenotesAssets.Usm.Lanes

/-! The mask routines with the bounds that their slices and arrays check: none of the checks
fails.
-/

namespace MoenotesAssets.Usm

open Foundation Foundation.Machine Foundation.Bytes Foundation.Keystream

-----------------------------------------------------------------------------------------
-- The routines with their checks
-----------------------------------------------------------------------------------------

/-- `values[i] = byte` -/
def store (values : List UInt8) (i : Nat) (byte : UInt8) : Except Failure (List UInt8) := do
  ensure (i < values.length) (.panic "index out of bounds")
  return values.set i byte

/-- One byte of a row of `mask_video`: `row[j] ^= mask[j]; mask[j] = row[j] ^ vm1[j]`. -/
def indexedByte (second : List UInt8) (state : List UInt8 × List UInt8) (j : Nat)
    : Except Failure (List UInt8 × List UInt8) := do
  let (row, mask) := state
  let byte := (← index row j) ^^^ (← index mask j)
  let row ← store row j byte
  return (row, ← store mask j (byte ^^^ (← index second j)))

/-- The first `count` bytes of a row. -/
def indexedRow (second : List UInt8) (count : Nat) (row mask : List UInt8)
    : Except Failure (List UInt8 × List UInt8) :=
  (List.range count).foldlM (indexedByte second) (row, mask)

/-- The full rows of `mask_video` and its remainder. -/
def indexedRows (second : List UInt8) : Nat → List UInt8 → List UInt8 → Except Failure (List UInt8)
  | 0, mask, rest => do return (← indexedRow second rest.length rest mask).1
  | count + 1, mask, rest => do
      let (row, mask) ← indexedRow second 32 (rest.take 32) mask
      return row ++ (← indexedRows second count mask (rest.drop 32))

/-- One byte of the first pass of `mask_video`. -/
def indexedHead (state : List UInt8 × List UInt8) (i : Nat)
    : Except Failure (List UInt8 × List UInt8) := do
  let (mask, buf) := state
  let v ← index buf (0x140 + i)
  let lane := i &&& 0x1F
  let next := (← index mask lane) ^^^ v
  let mask ← store mask lane next
  return (mask, ← store buf (0x40 + i) ((← index buf (0x40 + i)) ^^^ next))

/-- `mask_video` with its checks. -/
def indexedVideo (buf : List UInt8) (vmask : VideoMask) : Except Failure (List UInt8) := do
  if buf.length - 0x40 < 0x200 then return buf
  let tail ← context (slice buf 0x140 buf.length) (.panic "range out of bounds")
  let decoded ← indexedRows vmask.second (tail.length / 32) vmask.second tail
  return (← (List.range 0x100).foldlM indexedHead (vmask.first, buf.take 0x140 ++ decoded)).2

/-- One byte of a row of `mask_audio`: `row[j] ^= amask[j]`. -/
def indexedSample (amask row : List UInt8) (j : Nat) : Except Failure (List UInt8) := do
  store row j ((← index row j) ^^^ (← index amask j))

/-- The full rows of `mask_audio` and its remainder. -/
def indexedSamples (amask : List UInt8) : Nat → List UInt8 → Except Failure (List UInt8)
  | 0, rest => (List.range rest.length).foldlM (indexedSample amask) rest
  | count + 1, rest => do
      let row ← (List.range 32).foldlM (indexedSample amask) (rest.take 32)
      return row ++ (← indexedSamples amask count (rest.drop 32))

/-- `mask_audio` with its checks. -/
def indexedAudio (buf amask : List UInt8) : Except Failure (List UInt8) :=
  match slice buf 0x140 buf.length with
  | none => .ok buf
  | some region => do
      return buf.take 0x140 ++ (← indexedSamples amask (region.length / 32) region)

-----------------------------------------------------------------------------------------
-- No check fails
-----------------------------------------------------------------------------------------

/-- An index in bounds is written. -/
theorem store_ok {values : List UInt8} {i : Nat} (inside : i < values.length) (byte : UInt8)
    : store values i byte = .ok (values.set i byte) := by
  rw [store, ensure_passes (decide_eq_true inside)]
  rfl

/-- One byte of a row within its bounds. -/
theorem indexedByte_ok {second row mask : List UInt8} {j : Nat} (within : j < row.length)
    (lane : j < mask.length) (width : j < second.length)
    : indexedByte second (row, mask) j
      = .ok
          (row.set j (row.getD j 0 ^^^ mask.getD j 0),
            mask.set j (row.getD j 0 ^^^ mask.getD j 0 ^^^ second.getD j 0)) :=
  bind_ok.mpr ⟨_, index_ok within 0, bind_ok.mpr ⟨_, index_ok lane 0, bind_ok.mpr ⟨_,
    store_ok within _, bind_ok.mpr ⟨_, index_ok width 0, bind_ok.mpr ⟨_, store_ok lane _, rfl⟩⟩⟩⟩⟩

/-- So many bytes of a row, by induction on their number. -/
theorem indexedRow_front {second row mask : List UInt8} {count : Nat}
    (within : count ≤ row.length) (lanes : count ≤ mask.length) (width : count ≤ second.length)
    : indexedRow second count row mask
      = .ok
          (row.mapIdx fun j byte => if j < count then byte ^^^ mask.getD j 0 else byte,
            mask.mapIdx fun j lane =>
              if j < count then row.getD j 0 ^^^ lane ^^^ second.getD j 0 else lane) := by
  induction count with
  | zero =>
      rw [mapIdx_none, mapIdx_none]
      rfl
  | succ count ih =>
      rw [indexedRow, List.range_succ, List.foldlM_append]
      refine bind_ok.mpr ⟨_, ih (by omega) (by omega) (by omega), ?_⟩
      refine bind_ok.mpr ⟨_, indexedByte_ok (by rw [List.length_mapIdx]; omega)
        (by rw [List.length_mapIdx]; omega) (by omega), ?_⟩
      rw [mapIdx_succ (by omega) 0, mapIdx_succ (by omega) 0, getD_mapIdx, getD_mapIdx]
      rfl

/-- Combining every byte of a row that fits into the masks. -/
theorem mapIdx_zipWith {row mask : List UInt8} (lanes : row.length ≤ mask.length)
    : (row.mapIdx fun j byte => if j < row.length then byte ^^^ mask.getD j 0 else byte)
      = List.zipWith (· ^^^ ·) row mask := by
  rw [mapIdx_all (Nat.le_refl _)]
  refine List.ext_getElem? fun i => ?_
  rw [List.getElem?_mapIdx]
  by_cases inside : i < mask.length
  · rw [zipWith_getElem? inside]
  · rw [List.getElem?_eq_none (by omega), List.getElem?_eq_none (by
      rw [zipWith_length lanes]; omega), Option.map_none]

/-- A row that fits into the masks is combined with them. -/
theorem indexedRow_ok {second row mask : List UInt8} (lanes : row.length ≤ mask.length)
    (width : row.length ≤ second.length)
    : ∃ next,
        indexedRow second row.length row mask = .ok (List.zipWith (· ^^^ ·) row mask, next)
        ∧ (row.length = mask.length
          → row.length = second.length
          → next = List.zipWith (· ^^^ ·) (List.zipWith (· ^^^ ·) row mask) second) := by
  rw [indexedRow_front (Nat.le_refl _) lanes width, mapIdx_zipWith lanes]
  refine ⟨_, rfl, fun full whole => ?_⟩
  rw [mapIdx_all (by omega)]
  refine List.ext_getElem? fun i => ?_
  rw [List.getElem?_mapIdx]
  by_cases inside : i < mask.length
  · rw [zipWith_getElem? (by omega), zipWith_getElem? inside, List.getElem?_eq_getElem inside,
      List.getElem?_eq_getElem (full ▸ inside), List.getD_eq_getElem _ _ inside,
      List.getD_eq_getElem _ _ (full ▸ inside)]
    rfl
  · rw [List.getElem?_eq_none (by omega), List.getElem?_eq_none (by
      rw [List.length_zipWith, zipWith_length lanes]; omega), Option.map_none]

/-- The rows stay in bounds, by induction on the number of full rows. -/
theorem indexedRows_ok {second mask rest : List UInt8} {count : Nat}
    (width : second.length = 32) (lanes : mask.length = 32)
    (few : rest.length ≤ 32 * count + 32) (many : 32 * count ≤ rest.length)
    : indexedRows second count mask rest = .ok (maskRows second count mask rest) := by
  induction count generalizing mask rest with
  | zero =>
      obtain ⟨next, done, -⟩ := @indexedRow_ok second rest mask (by omega) (by omega)
      exact bind_ok.mpr ⟨_, done, rfl⟩
  | succ count ih =>
      have full : (rest.take 32).length = 32 := by
        rw [List.length_take]
        omega
      obtain ⟨next, done, follows⟩ :=
        @indexedRow_ok second (rest.take 32) mask (by omega) (by omega)
      rw [full] at done
      rw [follows (by omega) (by omega)] at done
      refine bind_ok.mpr ⟨_, done, bind_ok.mpr ⟨_, ih ?_ ?_ ?_, rfl⟩⟩
      · rw [zipWith_length (by rw [zipWith_length] <;> omega), zipWith_length (by omega), full]
      · rw [List.length_drop]
        omega
      · rw [List.length_drop]
        omega

/-- One byte of the first pass within its bounds. -/
theorem indexedHead_ok {mask buf : List UInt8} {i : Nat} (lanes : mask.length = 32)
    (inside : i < 0x100) (long : 0x240 ≤ buf.length)
    : indexedHead (mask, buf) i = .ok (maskHead (mask, buf) i) := by
  have lane : i &&& 0x1F = i % 32 := Nat.and_two_pow_sub_one_eq_mod i 5
  have small : i % 32 < mask.length := by omega
  have stored : buf.set (0x40 + i)
      (buf.getD (0x40 + i) 0 ^^^ (mask.getD (i % 32) 0 ^^^ buf.getD (0x140 + i) 0))
        = buf.modify (0x40 + i) (· ^^^ (mask.getD (i % 32) 0 ^^^ buf.getD (0x140 + i) 0)) := by
    rw [List.modify_eq_set_getElem?, List.getElem?_eq_getElem (by omega),
      List.getD_eq_getElem _ _ (by omega)]
    rfl
  rw [indexedHead, maskHead]
  dsimp only
  rw [lane, ← stored]
  exact bind_ok.mpr ⟨_, index_ok (by omega) 0, bind_ok.mpr ⟨_, index_ok small 0, bind_ok.mpr ⟨_,
    store_ok small _, bind_ok.mpr ⟨_, index_ok (by omega) 0, bind_ok.mpr ⟨_,
      store_ok (by omega) _, rfl⟩⟩⟩⟩⟩

/-- The first pass keeps the numbers of lanes and of bytes. -/
theorem maskHead_lengths (state : List UInt8 × List UInt8) (i : Nat)
    : (maskHead state i).1.length = state.1.length
      ∧ (maskHead state i).2.length = state.2.length :=
  ⟨List.length_set, List.length_modify _ _ _⟩

/-- The first pass stays in bounds, by induction on the bytes that are left. -/
theorem indexedHeads_ok {rounds : List Nat} {state : List UInt8 × List UInt8}
    (below : ∀ i ∈ rounds, i < 0x100) (lanes : state.1.length = 32)
    (long : 0x240 ≤ state.2.length)
    : rounds.foldlM indexedHead state = .ok (rounds.foldl maskHead state) := by
  induction rounds generalizing state with
  | nil => rfl
  | cons i rest ih =>
      obtain ⟨same, size⟩ := maskHead_lengths state i
      refine bind_ok.mpr ⟨_, indexedHead_ok lanes (below i List.mem_cons_self) long, ?_⟩
      exact ih (fun j later => below j (List.mem_cons_of_mem i later)) (same.trans lanes)
        (size ▸ long)

/-- The rows of the second pass keep the number of bytes. -/
theorem maskRows_length {second mask rest : List UInt8} {count : Nat}
    (width : second.length = 32) (lanes : mask.length = 32)
    (few : rest.length ≤ 32 * count + 32) (many : 32 * count ≤ rest.length)
    : (maskRows second count mask rest).length = rest.length := by
  have decoded := maskRows_deciphers width lanes few many
  rw [decoded, Keystream.crypt_length]

/-- `mask_video` stays in bounds. -/
theorem indexedVideo_ok {buf : List UInt8} {vmask : VideoMask} (lanes : vmask.first.length = 32)
    (width : vmask.second.length = 32)
    : indexedVideo buf vmask = .ok (maskVideo buf vmask) := by
  rw [indexedVideo, maskVideo]
  by_cases short : buf.length < 0x240
  · rw [if_pos (by omega), if_pos (by omega)]
    rfl
  · have cut := slice_rest (show 0x140 ≤ buf.length by omega)
    have rows := @maskRows_length vmask.second vmask.second (buf.drop 0x140)
      ((buf.drop 0x140).length / 32) width width (by omega) (by omega)
    rw [if_neg (by omega), if_neg (by omega)]
    refine bind_ok.mpr ⟨_, context_ok.mpr cut, bind_ok.mpr ⟨_,
      indexedRows_ok width width (by omega) (by omega), bind_ok.mpr ⟨_, indexedHeads_ok ?_ lanes ?_,
        rfl⟩⟩⟩
    · exact fun i member => List.mem_range.mp member
    · rw [List.length_append, rows, ← List.length_append, List.take_append_drop]
      omega

/-- So many bytes of a row of audio, by induction on their number. -/
theorem indexedSample_front {amask row : List UInt8} {count : Nat}
    (within : count ≤ row.length) (lanes : count ≤ amask.length)
    : (List.range count).foldlM (indexedSample amask) row
      = .ok (row.mapIdx fun j byte => if j < count then byte ^^^ amask.getD j 0 else byte) := by
  induction count with
  | zero =>
      rw [mapIdx_none]
      rfl
  | succ count ih =>
      rw [List.range_succ, List.foldlM_append]
      refine bind_ok.mpr ⟨_, ih (by omega) (by omega), bind_ok.mpr ⟨_, bind_ok.mpr ⟨_, index_ok (by
        rw [List.length_mapIdx]; omega) 0, bind_ok.mpr ⟨_, index_ok (by omega) 0, store_ok (by
          rw [List.length_mapIdx]; omega) _⟩⟩, ?_⟩⟩
      rw [mapIdx_succ (by omega) 0, getD_mapIdx]
      rfl

/-- The rows of audio stay in bounds, by induction on the number of full rows. -/
theorem indexedSamples_ok {amask rest : List UInt8} {count : Nat} (width : amask.length = 32)
    (few : rest.length ≤ 32 * count + 32) (many : 32 * count ≤ rest.length)
    : indexedSamples amask count rest = .ok (audioRows amask count rest) := by
  induction count generalizing rest with
  | zero =>
      have fits : rest.length ≤ amask.length := by omega
      rw [indexedSamples, indexedSample_front (Nat.le_refl _) fits, mapIdx_zipWith fits]
      rfl
  | succ count ih =>
      have full : (rest.take 32).length = 32 := by
        rw [List.length_take]
        omega
      have fits : (rest.take 32).length ≤ amask.length := by omega
      have row := indexedSample_front (Nat.le_refl _) fits
      rw [mapIdx_zipWith fits, full] at row
      refine bind_ok.mpr ⟨_, row, bind_ok.mpr ⟨_, ih ?_ ?_, rfl⟩⟩
      · rw [List.length_drop]
        omega
      · rw [List.length_drop]
        omega

/-- `mask_audio` stays in bounds. -/
theorem indexedAudio_ok {buf amask : List UInt8} (width : amask.length = 32)
    : indexedAudio buf amask = .ok (maskAudio buf amask) := by
  rw [indexedAudio, maskAudio]
  by_cases short : buf.length < 0x140
  · rw [slice, if_neg (by omega), if_pos short]
  · have cut := slice_rest (show 0x140 ≤ buf.length by omega)
    rw [cut, if_neg short]
    exact bind_ok.mpr ⟨_, indexedSamples_ok width (by omega) (by omega), rfl⟩

/-- For buffers of every length, `mask_video` and `mask_audio` do byte by byte what they do row by
row, and all that they read and write is in bounds.
-/
theorem masks_scalar (buf : List UInt8) (vmask : VideoMask) (amask : List UInt8)
    (first : vmask.first.length = 32) (second : vmask.second.length = 32)
    (audio : amask.length = 32)
    : maskVideo buf vmask = scalarVideo buf vmask
      ∧ indexedVideo buf vmask = .ok (scalarVideo buf vmask)
      ∧ maskAudio buf amask = scalarAudio buf amask
      ∧ indexedAudio buf amask = .ok (scalarAudio buf amask) := by
  have video := @maskVideo_scalar buf vmask second
  have sound := @maskAudio_scalar buf amask audio
  exact ⟨video, video ▸ indexedVideo_ok first second, sound, sound ▸ indexedAudio_ok audio⟩

/-- The masks of a video and one of its packets. -/
theorem masks_scalar_packet
    : maskVideo (List.replicate 600 7) (getMask 1).video
        = scalarVideo (List.replicate 600 7) (getMask 1).video
      ∧ maskAudio (List.replicate 600 7) (getMask 1).audio
        = scalarAudio (List.replicate 600 7) (getMask 1).audio := by
  obtain ⟨first, second, audio⟩ := getMask_lengths 1
  obtain ⟨video, -, sound, -⟩ := masks_scalar (List.replicate 600 7) _ _ first second audio
  exact ⟨video, sound⟩

end MoenotesAssets.Usm
