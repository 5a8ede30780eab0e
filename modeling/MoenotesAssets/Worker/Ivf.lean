import MoenotesAssets.Foundation.Loop
import MoenotesAssets.Usm.Table
import Mathlib.Algebra.Order.Field.Rat
import Mathlib.Data.Nat.Cast.Order.Ring

/-! `worker::validate_ivf`: the header of a demultiplexed video file and the walk over its
packets.
-/

namespace MoenotesAssets.Worker

open Foundation Foundation.Bytes Foundation.Machine
open Usm (VideoInfo)

-----------------------------------------------------------------------------------------
-- The header
-----------------------------------------------------------------------------------------

/-- A file that is open; its length is that of its `metadata`. -/
structure File where
  bytes : List UInt8
  fits : bytes.length ≤ max64

/-- `metadata().len()` -/
def File.size (f : File) : Nat := f.bytes.length

/-- `read_exact` of so many bytes at an offset. -/
def File.readExact (f : File) (offset count : Nat) : Except Failure (List UInt8) :=
  context (slice f.bytes offset (offset + count)) (.error "failed to fill whole buffer")

/-- `b"DKIF"` -/
def ivfMark : List UInt8 := [0x44, 0x4B, 0x49, 0x46]

/-- `b"VP90"` -/
def vp9Mark : List UInt8 := [0x56, 0x50, 0x39, 0x30]

/-- The closure `word` of `validate_ivf`. -/
def word (h : List UInt8) (p : Nat) : Nat := littleEndian ((h.drop p).take 4)

/-- `u16::from_le_bytes` at a place of the header. -/
def half (h : List UInt8) (p : Nat) : Nat := littleEndian ((h.drop p).take 2)

/-- The first check of the header. -/
def marked (h : List UInt8) : Bool :=
  h.take 4 == ivfMark && (h.drop 4).take 4 == [0, 0, 32, 0] && (h.drop 8).take 4 == vp9Mark

/-- The last check of the header. -/
def sized (h : List UInt8) (info : VideoInfo) : Bool :=
  half h 12 == info.width && half h 14 == info.height

/-- The checks of the header. -/
def checkHeader (h : List UInt8) (info : VideoInfo) : Except Failure Unit := do
  ensure (marked h) (.error "invalid IVF header")
  let left ← mulSize (word h 16) info.fpsD
  let right ← mulSize (word h 20) info.fpsN
  ensure (left == right && word h 24 == info.frames)
    (.error "IVF/USM timebase or frame count mismatch")
  ensure (sized h info) (.error "IVF/USM dimensions mismatch")

-----------------------------------------------------------------------------------------
-- The packets
-----------------------------------------------------------------------------------------

/-- The locals of the walk. -/
structure Walk where
  offset : Nat
  count : Nat

/-- The check of a packet, which stops at the first part that fails. -/
def packetFits (size len pts : Nat) (walk : Walk) : Except Failure Bool := do
  let left ← subSize size walk.offset
  if 12 ≤ left && pts == walk.count && 0 < len then
    return len ≤ (← subSize (← subSize size walk.offset) 12)
  else return false

/-- Where the walk goes on behind a packet. -/
def Walk.advance (walk : Walk) (len : Nat) : Except Failure Walk := do
  let offset ← addSize walk.offset (← addSize 12 len)
  let count ← addSize walk.count 1
  return { offset, count }

/-- One round of the walk. -/
def readPacket (f : File) (walk : Walk) : Except Failure (Option Walk) := do
  if walk.offset < f.size then
    let frame ← f.readExact walk.offset 12
    let len := littleEndian (frame.take 4)
    let pts := littleEndian (frame.drop 4)
    ensure (← packetFits f.size len pts walk) (.error "invalid IVF packet/PTS")
    return some (← walk.advance len)
  else return none

/-- Every round moves on. -/
theorem readPacket_lowers (f : File) : Lowers (readPacket f) fun walk => f.size - walk.offset := by
  intro walk after read
  rw [readPacket] at read
  split at read
  case isFalse => cases read
  case isTrue inside =>
    simp only [Walk.advance, bind_ok, addSize_ok, pure_ok, Option.some.injEq] at read
    obtain ⟨frame, -, fits, -, -, -, next, ⟨_, ⟨rfl, -⟩, _, ⟨rfl, -⟩, _, -, rfl⟩, rfl⟩ := read
    dsimp only
    omega

/-- The walk over the packets behind the header. -/
def walkPackets (f : File) : Except Failure Walk :=
  loop (readPacket f) (readPacket_lowers f) { offset := 32, count := 0 }

/-- `validate_ivf` -/
def validateIvf (f : File) (info : VideoInfo) : Except Failure Unit := do
  let h ← f.readExact 0 32
  checkHeader h info
  let walk ← walkPackets f
  ensure (walk.count == info.frames) (.error "IVF actual packet count mismatch")

-----------------------------------------------------------------------------------------
-- Tilings
-----------------------------------------------------------------------------------------

/-- The packet with a timestamp. -/
def packet (timestamp : Nat) (payload : List UInt8) : List UInt8 :=
  littleEndianBytes 4 payload.length ++ littleEndianBytes 8 timestamp ++ payload

/-- The packets with the timestamps from `first` on. -/
def packets : Nat → List (List UInt8) → List UInt8
  | _, [] => []
  | first, payload :: rest => packet first payload ++ packets (first + 1) rest

/-- A payload that is not empty and whose length has a place in the header of its packet. -/
structure Payload (bytes : List UInt8) : Prop where
  nonempty : 0 < bytes.length
  short : bytes.length < 2 ^ 32

/-- (Tiled body frames) holds when the bytes are so many packets and nothing else, the packet
with number `k` having the timestamp `k`.
-/
def Tiled (body : List UInt8) (frames : Nat) : Prop :=
  ∃ payloads : List (List UInt8),
    payloads.length = frames
    ∧ (∀ payload ∈ payloads, Payload payload)
    ∧ body = packets 0 payloads

/-- The length of a packet. -/
@[simp] theorem packet_length (timestamp : Nat) (payload : List UInt8)
    : (packet timestamp payload).length = 12 + payload.length := by
  simp only [packet, List.length_append, littleEndianBytes_length]

/-- The head of a packet at a place of bytes. -/
theorem packet_frame (timestamp : Nat) (payload rest : List UInt8)
    : (packet timestamp payload ++ rest).take 12
      = littleEndianBytes 4 payload.length ++ littleEndianBytes 8 timestamp := by
  rw [packet, List.append_assoc, List.take_append_of_le_length (by simp),
    List.take_of_length_le (by simp)]

-----------------------------------------------------------------------------------------
-- One round
-----------------------------------------------------------------------------------------

variable {f : File} {walk after : Walk}

/-- Where the walk stands: it counted no more packets than it passed bytes. -/
structure Walk.Within (f : File) (walk : Walk) : Prop where
  inside : walk.offset ≤ f.size
  counted : walk.count ≤ walk.offset

/-- What the check of a packet accepts. -/
def Fits (f : File) (walk : Walk) (len pts : Nat) : Prop :=
  pts = walk.count ∧ 0 < len ∧ walk.offset + (12 + len) ≤ f.size

instance (len pts : Nat) : Decidable (Fits f walk len pts) :=
  inferInstanceAs (Decidable (_ ∧ _ ∧ _))

/-- Where a walk stands behind a packet. -/
def Walk.behind (walk : Walk) (len : Nat) : Walk :=
  { offset := walk.offset + (12 + len), count := walk.count + 1 }

/-- The check of a packet computes its parts without an underflow. -/
theorem packetFits_eq (within : walk.Within f) (len pts : Nat)
    : packetFits f.size len pts walk = .ok (decide (Fits f walk len pts)) := by
  have inside := within.inside
  rw [packetFits, subSize_eq inside, ok_bind]
  split
  case isTrue head =>
    simp only [Bool.and_eq_true, decide_eq_true_eq, beq_iff_eq] at head
    obtain ⟨⟨room, stamp⟩, nonempty⟩ := head
    rw [ok_bind, subSize_eq room, ok_bind]
    refine congrArg Except.ok (decide_eq_decide.mpr ?_)
    rw [Fits]
    omega
  case isFalse head =>
    simp only [Bool.and_eq_true, decide_eq_true_eq, beq_iff_eq] at head
    refine congrArg Except.ok (decide_eq_false ?_).symm
    rw [Fits]
    omega

/-- The walk moves on within the file. -/
theorem Walk.Within.behind {len pts : Nat} (within : walk.Within f)
    (fits : Fits f walk len pts)
    : (walk.behind len).Within f := by
  have counted := within.counted
  refine ⟨fits.2.2, ?_⟩
  dsimp only [Walk.behind]
  omega

/-- The walk moves on without an overflow. -/
theorem advance_eq {len pts : Nat} (within : walk.Within f) (fits : Fits f walk len pts)
    : walk.advance len = .ok (walk.behind len) := by
  obtain ⟨-, nonempty, room⟩ := fits
  have counted := within.counted
  have bound := f.fits
  rw [← File.size] at bound
  rw [Walk.advance, addSize_eq (by omega), ok_bind, addSize_eq (by omega), ok_bind,
    addSize_eq (by omega)]
  rfl

/-- A round before the end of the file. -/
theorem readPacket_eq {frame : List UInt8} (within : walk.Within f)
    (found : slice f.bytes walk.offset (walk.offset + 12) = some frame)
    : readPacket f walk
      = if Fits f walk (littleEndian (frame.take 4)) (littleEndian (frame.drop 4)) then
          .ok (some (walk.behind (littleEndian (frame.take 4))))
        else .error (.error "invalid IVF packet/PTS") := by
  obtain ⟨-, room, -⟩ := slice_eq_some.mp found
  have more : walk.offset < f.size := Nat.lt_of_lt_of_le (by omega) room
  have read : f.readExact walk.offset 12 = .ok frame := context_ok.mpr found
  rw [readPacket, if_pos more, read, ok_bind]
  dsimp only
  rw [packetFits_eq within, ok_bind]
  split
  case isTrue fits =>
    rw [ensure_passes (decide_eq_true fits), ok_bind, advance_eq within fits]
    rfl
  case isFalse misfit =>
    rw [ensure_error.mpr ⟨decide_eq_false misfit, rfl⟩]
    rfl

/-- What a round does: the walk stops at the end of the file, or passes a packet that fits. -/
theorem readPacket_yields (within : walk.Within f)
    : Yields
        (fun next =>
          match next with
          | none => walk.offset = f.size
          | some after =>
              ∃ frame,
                slice f.bytes walk.offset (walk.offset + 12) = some frame
                ∧ Fits f walk (littleEndian (frame.take 4)) (littleEndian (frame.drop 4))
                ∧ after = walk.behind (littleEndian (frame.take 4)))
        (readPacket f walk) := by
  by_cases more : walk.offset < f.size
  · cases found : slice f.bytes walk.offset (walk.offset + 12) with
    | none =>
        have short : f.readExact walk.offset 12 = .error (.error "failed to fill whole buffer") :=
          context_error.mpr ⟨found, rfl⟩
        rw [readPacket, if_pos more, short]
        exact .error _
    | some frame =>
        rw [readPacket_eq within found]
        split
        case isTrue fits => exact .value ⟨frame, rfl, fits, rfl⟩
        case isFalse => exact .error _
  · rw [readPacket, if_neg more]
    exact .value (Nat.le_antisymm within.inside (Nat.le_of_not_lt more))

/-- The packet that a round passes. -/
theorem packet_of_frame {frame : List UInt8}
    (found : slice f.bytes walk.offset (walk.offset + 12) = some frame)
    (fits : Fits f walk (littleEndian (frame.take 4)) (littleEndian (frame.drop 4)))
    : ∃ payload,
        Payload payload
        ∧ payload.length = littleEndian (frame.take 4)
        ∧ f.bytes.drop walk.offset
          = packet walk.count payload ++ f.bytes.drop (walk.offset + (12 + payload.length)) := by
  obtain ⟨stamp, nonempty, room⟩ := fits
  obtain ⟨-, -, cut⟩ := slice_eq_some.mp found
  have length := (slice_length found).1
  rw [Nat.add_sub_cancel_left] at cut length
  have first : (frame.take 4).length = 4 := by simp [length]
  have second : (frame.drop 4).length = 8 := by simp [length]
  have size : littleEndianBytes 4 (littleEndian (frame.take 4)) = frame.take 4 := by
    have bytes := littleEndianBytes_littleEndian (frame.take 4)
    rwa [first] at bytes
  have timestamp : littleEndianBytes 8 walk.count = frame.drop 4 := by
    have bytes := littleEndianBytes_littleEndian (frame.drop 4)
    rwa [second, stamp] at bytes
  have taken : ((f.bytes.drop (walk.offset + 12)).take (littleEndian (frame.take 4))).length
      = littleEndian (frame.take 4) := by
    rw [List.length_take, List.length_drop, ← File.size]
    omega
  refine ⟨_, ?_, taken, ?_⟩
  · constructor
    case nonempty => rwa [taken]
    case short =>
      have bound := littleEndian_lt (frame.take 4)
      rwa [first, ← taken] at bound
  · rw [packet, taken, size, timestamp, List.take_append_drop, ← cut, List.append_assoc,
      ← Nat.add_assoc, ← List.drop_drop, ← List.drop_drop, ← List.drop_drop,
      List.take_append_drop, List.take_append_drop]

/-- A packet with the next timestamp is passed. -/
theorem readPacket_passes {payload rest : List UInt8} (within : walk.Within f)
    (fits : Payload payload)
    (here : f.bytes.drop walk.offset = packet walk.count payload ++ rest)
    : ∃ after,
        readPacket f walk = .ok (some after)
        ∧ after.Within f
        ∧ f.bytes.drop after.offset = rest
        ∧ after.count = walk.count + 1 := by
  have bound := f.fits
  have counted := within.counted
  have long := congrArg List.length here
  rw [← File.size, max64] at bound
  rw [List.length_drop, List.length_append, packet_length, ← File.size] at long
  have nonempty := fits.nonempty
  have found : slice f.bytes walk.offset (walk.offset + 12)
      = some (littleEndianBytes 4 payload.length ++ littleEndianBytes 8 walk.count) := by
    rw [slice_eq_some, Nat.add_sub_cancel_left, here, packet_frame, ← File.size]
    exact ⟨by omega, by omega, rfl⟩
  have length
      : littleEndian ((littleEndianBytes 4 payload.length
          ++ littleEndianBytes 8 walk.count).take 4) = payload.length := by
    rw [List.take_left' (littleEndianBytes_length _ _), littleEndian_bytes]
    exact Nat.mod_eq_of_lt fits.short
  have stamp
      : littleEndian ((littleEndianBytes 4 payload.length
          ++ littleEndianBytes 8 walk.count).drop 4) = walk.count := by
    rw [List.drop_left' (littleEndianBytes_length _ _), littleEndian_bytes]
    exact Nat.mod_eq_of_lt (by omega)
  have parts : Fits f walk payload.length walk.count := ⟨rfl, nonempty, by omega⟩
  refine ⟨walk.behind payload.length, ?_, within.behind parts, ?_, rfl⟩
  · rw [readPacket_eq within found, length, stamp, if_pos parts]
  · rw [Walk.behind, ← List.drop_drop, here, List.drop_left' (packet_length _ _)]

-----------------------------------------------------------------------------------------
-- The walk
-----------------------------------------------------------------------------------------

/-- The walk does not panic. -/
theorem walkPackets_calm (f : File) : NoPanic (walkPackets f) := by
  by_cases long : 32 ≤ f.size
  · have within : Walk.Within f { offset := 32, count := 0 } := ⟨long, Nat.zero_le _⟩
    refine (Yields.loop (P := fun last => last.Within f) (fun within => ?_) within).calm
    refine (readPacket_yields within).imp fun {next} does after same => ?_
    obtain rfl := Option.mem_def.mp same
    obtain ⟨frame, -, fits, rfl⟩ := does
    exact within.behind fits
  · have stops : readPacket f { offset := 32, count := 0 } = .ok none := by
      rw [readPacket, if_neg (fun more => long (Nat.le_of_lt more))]
      rfl
    obtain ⟨count, -, own⟩ := loop_rounds (readPacket_lowers f) { offset := 32, count := 0 }
    have ended := (own.unique (.stopped stops)).2
    rw [walkPackets, ended]
    exact .value _

/-- A walk that stops passed the packets of the rest of the file, by induction on its rounds. -/
theorem packets_of_rounds {count : Nat} {outcome : Except Failure Walk} {last : Walk}
    (rounds : Rounds (readPacket f) walk count outcome) (stopped : outcome = .ok last)
    (within : walk.Within f)
    : ∃ payloads : List (List UInt8),
        last.count = walk.count + payloads.length
        ∧ (∀ payload ∈ payloads, Payload payload)
        ∧ f.bytes.drop walk.offset = packets walk.count payloads := by
  induction rounds with
  | failed => cases stopped
  | stopped round =>
      obtain rfl := Except.ok.inj stopped
      have ended := (readPacket_yields within).holds round
      exact ⟨[], rfl, by simp, List.drop_eq_nil_of_le (Nat.le_of_eq ended.symm)⟩
  | continued round _ ih =>
      obtain ⟨frame, found, fits, rfl⟩ := (readPacket_yields within).holds round
      obtain ⟨payload, proper, length, here⟩ := packet_of_frame found fits
      obtain ⟨payloads, counted, all, rest⟩ := ih stopped (within.behind fits)
      refine ⟨payload :: payloads, ?_, List.forall_mem_cons.mpr ⟨proper, all⟩, ?_⟩
      · rw [counted, List.length_cons]
        exact Nat.succ_add_eq_add_succ _ _
      · rw [here, length, packets]
        exact congrArg (packet _ _ ++ ·) rest

/-- A walk over packets passes them all, by induction on them. -/
theorem rounds_of_packets {payloads : List (List UInt8)} (within : walk.Within f)
    (all : ∀ payload ∈ payloads, Payload payload)
    (here : f.bytes.drop walk.offset = packets walk.count payloads)
    : ∃ last : Walk,
        Rounds (readPacket f) walk payloads.length (.ok last)
        ∧ last.count = walk.count + payloads.length := by
  induction payloads generalizing walk with
  | nil =>
      have beyond : f.size ≤ walk.offset := List.drop_eq_nil_iff.mp here
      have stops : readPacket f walk = .ok none := by
        rw [readPacket, if_neg (Nat.not_lt.mpr beyond)]
        rfl
      exact ⟨walk, .stopped stops, rfl⟩
  | cons payload rest ih =>
      obtain ⟨proper, others⟩ := List.forall_mem_cons.mp all
      obtain ⟨after, passes, inside, behind, next⟩ := readPacket_passes within proper here
      obtain ⟨last, rounds, counted⟩ := ih inside others (next ▸ behind)
      refine ⟨last, .continued passes rounds, ?_⟩
      rw [counted, next, List.length_cons]
      omega

/-- The walk stops just behind packets that tile the file, and counts them. -/
theorem walkPackets_ok_iff {frames : Nat} (long : 32 ≤ f.size)
    : (∃ last, walkPackets f = .ok last ∧ last.count = frames)
      ↔ Tiled (f.bytes.drop 32) frames := by
  have within : Walk.Within f { offset := 32, count := 0 } := ⟨long, Nat.zero_le _⟩
  obtain ⟨count, -, own⟩ := loop_rounds (readPacket_lowers f) { offset := 32, count := 0 }
  constructor
  · rintro ⟨last, walked, rfl⟩
    obtain ⟨payloads, counted, all, here⟩ := packets_of_rounds own walked within
    rw [Nat.zero_add] at counted
    exact ⟨payloads, counted.symm, all, here⟩
  · rintro ⟨payloads, rfl, all, here⟩
    obtain ⟨last, rounds, counted⟩ := rounds_of_packets within all here
    rw [Nat.zero_add] at counted
    exact ⟨last, (own.unique rounds).2, counted⟩

/-- The header of a file and its checks. -/
def HeaderPasses (f : File) (info : VideoInfo) : Prop :=
  32 ≤ f.size ∧ checkHeader (f.bytes.take 32) info = .ok ()

/-- The walk over the packets of a file ends after at most as many rounds as the file has bytes,
without a panic; and a file is accepted just when its header passes its checks and the rest of
it is tiled by as many packets as the stream has frames.
-/
theorem validateIvf_tiled (f : File) (info : VideoInfo)
    : (∃ rounds ≤ f.size - 32,
        Rounds (readPacket f) { offset := 32, count := 0 } rounds (walkPackets f))
      ∧ NoPanic (walkPackets f)
      ∧ (validateIvf f info = .ok ()
        ↔ HeaderPasses f info ∧ Tiled (f.bytes.drop 32) info.frames) := by
  refine ⟨loop_rounds (readPacket_lowers f) { offset := 32, count := 0 }, walkPackets_calm f, ?_⟩
  simp only [validateIvf, File.readExact, bind_ok, context_ok, ensure_ok, beq_iff_eq, slice_eq_some,
    Nat.zero_add, Nat.sub_zero, List.drop_zero]
  constructor
  · rintro ⟨h, ⟨-, long, rfl⟩, _, checked, walked⟩
    exact ⟨⟨long, checked⟩, (walkPackets_ok_iff long).mp walked⟩
  · rintro ⟨⟨long, checked⟩, tiled⟩
    exact ⟨_, ⟨Nat.zero_le _, long, rfl⟩, (), checked, (walkPackets_ok_iff long).mpr tiled⟩

-----------------------------------------------------------------------------------------
-- The timebase
-----------------------------------------------------------------------------------------

section Timebase

variable {info : VideoInfo} {h : List UInt8}

/-- The rate of a header over its scale is the frame rate of the stream, as rational numbers. -/
structure SameRate (h : List UInt8) (info : VideoInfo) : Prop where
  rate : word h 16 ≠ 0
  scale : word h 20 ≠ 0
  same : (word h 16 : ℚ) / word h 20 = (info.fpsN : ℚ) / info.fpsD

/-- The timebase of a stream: both of its numbers are positive and have 32 bits. -/
structure Timebase (info : VideoInfo) : Prop where
  rate : 0 < info.fpsN
  scale : 0 < info.fpsD
  rateFits : info.fpsN < 2 ^ 32
  scaleFits : info.fpsD < 2 ^ 32

/-- A field of a header has 32 bits. -/
theorem getField_lt {t : Usm.Fields} {key : String} {value : Nat}
    (found : Usm.getField t key = .ok value)
    : value < 2 ^ 32 := by
  simp only [Usm.getField, bind_ok, ensure_ok, pure_ok, exists_const, decide_eq_true_eq] at found
  obtain ⟨given, -, bound, rfl⟩ := found
  exact bound

/-- A header that is read has a timebase. -/
theorem fromTable_timebase {t : Usm.Fields} (read : VideoInfo.fromTable t = .ok info)
    : Timebase info := by
  simp only [VideoInfo.fromTable, bind_ok, ensure_ok, pure_ok, exists_const, Bool.and_eq_true,
    decide_eq_true_eq] at read
  obtain ⟨width, -, height, -, displayWidth, -, displayHeight, -, frames, -, fpsN, rate, fpsD,
    scale, codec, -, ⟨⟨⟨-, positive⟩, positive'⟩, -⟩, -, -, rfl⟩ := read
  exact ⟨positive, positive', getField_lt rate, getField_lt scale⟩

/-- A word of a header has 32 bits. -/
theorem word_lt (h : List UInt8) (p : Nat) : word h p < 2 ^ 32 := by
  have bound := littleEndian_lt ((h.drop p).take 4)
  have short : ((h.drop p).take 4).length ≤ 4 := List.length_take_le _ _
  exact Nat.lt_of_lt_of_le bound (Nat.pow_le_pow_right (by omega) short)

/-- The product of two words fits into a counter. -/
theorem mulSize_words {left right : Nat} (small : left < 2 ^ 32) (small' : right < 2 ^ 32)
    : mulSize left right = .ok (left * right) := by
  have bound : left * right ≤ (2 ^ 32 - 1) * (2 ^ 32 - 1) :=
    Nat.mul_le_mul (Nat.le_sub_one_of_lt small) (Nat.le_sub_one_of_lt small')
  rw [mulSize, if_pos (Nat.le_trans bound (by decide))]

/-- The checks of a header without the products that they compute. -/
theorem checkHeader_eq (timebase : Timebase info) (h : List UInt8)
    : checkHeader h info
      = (do
          ensure (marked h) (.error "invalid IVF header")
          ensure
            (word h 16 * info.fpsD == word h 20 * info.fpsN && word h 24 == info.frames)
            (.error "IVF/USM timebase or frame count mismatch")
          ensure (sized h info) (.error "IVF/USM dimensions mismatch")) := by
  rw [checkHeader, mulSize_words (word_lt h 16) timebase.scaleFits,
    mulSize_words (word_lt h 20) timebase.rateFits]
  rfl

/-- The products agree just when the frame rates do, unless both words are zero. -/
theorem products_eq_iff (timebase : Timebase info)
    : word h 16 * info.fpsD = word h 20 * info.fpsN
      ↔ SameRate h info ∨ word h 16 = 0 ∧ word h 20 = 0 := by
  have positive := timebase.rate
  have positive' := timebase.scale
  have divisor : (info.fpsD : ℚ) ≠ 0 := Nat.cast_ne_zero.mpr (Nat.pos_iff_ne_zero.mp positive')
  constructor
  · intro same
    by_cases scale : word h 20 = 0
    · rw [scale, Nat.zero_mul] at same
      have rate := (Nat.mul_eq_zero.mp same).resolve_right (Nat.pos_iff_ne_zero.mp positive')
      exact Or.inr ⟨rate, scale⟩
    · have rate : word h 16 ≠ 0 := by
        intro zero
        rw [zero, Nat.zero_mul] at same
        exact absurd same.symm (Nat.mul_ne_zero scale (Nat.pos_iff_ne_zero.mp positive))
      refine Or.inl ⟨rate, scale, ?_⟩
      rw [div_eq_div_iff (Nat.cast_ne_zero.mpr scale) divisor]
      rw [mul_comm (word h 20)] at same
      exact_mod_cast same
  · rintro (⟨-, scale, same⟩ | ⟨rate, scale⟩)
    · rw [div_eq_div_iff (Nat.cast_ne_zero.mpr scale) divisor] at same
      rw [mul_comm (word h 20)]
      exact_mod_cast same
    · rw [rate, scale, Nat.zero_mul, Nat.zero_mul]

/-- What is promised of the timebase of a file: an accepted file has the frame rate of the stream,
a header with that rate and the frame count passes the check, and no product overflows.
-/
structure TimebaseChecked (f : File) (info : VideoInfo) : Prop where
  sound : validateIvf f info = .ok () → SameRate (f.bytes.take 32) info
  complete
    : SameRate (f.bytes.take 32) info
      → word (f.bytes.take 32) 24 = info.frames
      → checkHeader (f.bytes.take 32) info
        ≠ .error (.error "IVF/USM timebase or frame count mismatch")
  calm : NoPanic (checkHeader (f.bytes.take 32) info)

/-- A file whose header has a rate and a scale of zero and that matches the stream otherwise. -/
structure Untimed (f : File) (info : VideoInfo) : Prop where
  long : 32 ≤ f.size
  marks : marked (f.bytes.take 32) = true
  rate : word (f.bytes.take 32) 16 = 0
  scale : word (f.bytes.take 32) 20 = 0
  frames : word (f.bytes.take 32) 24 = info.frames
  size : sized (f.bytes.take 32) info = true
  tiled : Tiled (f.bytes.drop 32) info.frames

/-- A header passes its checks when its parts do. -/
theorem checkHeader_ok (timebase : Timebase info)
    : checkHeader h info = .ok ()
      ↔ marked h = true
        ∧ (SameRate h info ∨ word h 16 = 0 ∧ word h 20 = 0)
        ∧ word h 24 = info.frames
        ∧ sized h info = true := by
  simp only [checkHeader_eq timebase, bind_ok, ensure_ok, exists_const, Bool.and_eq_true,
    beq_iff_eq, products_eq_iff timebase, and_assoc]

/-- A header with the frame rate and frame count of the stream passes the check of its timebase. -/
theorem checkHeader_rate (timebase : Timebase info) (rate : SameRate h info)
    (frames : word h 24 = info.frames)
    : checkHeader h info ≠ .error (.error "IVF/USM timebase or frame count mismatch") := by
  have products := (products_eq_iff timebase).mpr (Or.inl rate)
  rw [checkHeader_eq timebase, products, frames, beq_self_eq_true, beq_self_eq_true]
  refine Avoids.bind (.ensure _ (by simp)) fun _ => ?_
  exact Avoids.bind (.value ()) fun _ => .ensure _ (by simp)

/-- The checks of a header do not panic. -/
theorem checkHeader_calm (timebase : Timebase info) (h : List UInt8)
    : NoPanic (checkHeader h info) := by
  rw [checkHeader_eq timebase]
  exact .bind (.ensure _ _) fun _ => .bind (.ensure _ _) fun _ => .ensure _ _

/-- An untimed file is accepted. -/
theorem Untimed.accepted {f : File} (timebase : Timebase info) (untimed : Untimed f info)
    : validateIvf f info = .ok () := by
  obtain ⟨-, -, accepts⟩ := validateIvf_tiled f info
  refine accepts.mpr ⟨⟨untimed.long, (checkHeader_ok timebase).mpr ?_⟩, untimed.tiled⟩
  exact ⟨untimed.marks, Or.inr ⟨untimed.rate, untimed.scale⟩, untimed.frames, untimed.size⟩

/-- The frame rate of every file is checked, but for those that are untimed: the products of their
header agree whatever the frame rate of the stream is.
-/
theorem timebaseChecked_iff {t : Usm.Fields} (read : VideoInfo.fromTable t = .ok info) (f : File)
    : TimebaseChecked f info ↔ ¬Untimed f info := by
  have timebase := fromTable_timebase read
  constructor
  · intro checked untimed
    exact (checked.sound (untimed.accepted timebase)).rate untimed.rate
  · intro timed
    constructor
    case sound =>
      intro accepted
      obtain ⟨-, -, accepts⟩ := validateIvf_tiled f info
      obtain ⟨⟨long, passed⟩, tiled⟩ := accepts.mp accepted
      obtain ⟨marks, rate | ⟨rate, scale⟩, frames, size⟩ := (checkHeader_ok timebase).mp passed
      · exact rate
      · exact absurd ⟨long, marks, rate, scale, frames, size, tiled⟩ timed
    case complete => exact checkHeader_rate timebase
    case calm => exact checkHeader_calm timebase _

/-- The fields of a stream with one frame of 8 × 8 points, 30 in a second. -/
def smallFields : Usm.Fields :=
  .ofList
    [("width", 8), ("height", 8), ("disp_width", 8), ("disp_height", 8), ("total_frames", 1),
      ("framerate_n", 30), ("framerate_d", 1), ("mpeg_codec", 9)]

/-- The stream with these fields. -/
def smallInfo : VideoInfo :=
  {
    width := 8
    height := 8
    displayWidth := 8
    displayHeight := 8
    frames := 1
    fpsN := 30
    fpsD := 1
    codec := 9
  }

/-- A file of one packet for a stream of that size, with a rate and a scale. -/
def smallFile (rate scale : UInt8) : File :=
  {
    bytes :=
      ivfMark ++ [0, 0, 32, 0] ++ vp9Mark ++ [8, 0, 8, 0] ++ [rate, 0, 0, 0] ++ [scale, 0, 0, 0]
        ++ [1, 0, 0, 0] ++ [0, 0, 0, 0] ++ packet 0 [0xFF]
    fits := by simp [ivfMark, vp9Mark, max64]
  }

/-- The header of that stream is read. -/
theorem smallInfo_read : VideoInfo.fromTable smallFields = .ok smallInfo := rfl

/-- A header with a rate of 30 and a scale of 1 is checked. -/
theorem timebaseChecked_small : TimebaseChecked (smallFile 30 1) smallInfo := by
  refine (timebaseChecked_iff smallInfo_read (smallFile 30 1)).mpr fun untimed => ?_
  exact absurd untimed.rate (by decide)

/-- A header with a rate and a scale of zero is accepted for a stream of 30 frames in a second. -/
theorem smallFile_untimed
    : VideoInfo.fromTable smallFields = .ok smallInfo
      ∧ validateIvf (smallFile 0 0) smallInfo = .ok ()
      ∧ ¬SameRate ((smallFile 0 0).bytes.take 32) smallInfo := by
  have untimed : Untimed (smallFile 0 0) smallInfo := by
    constructor
    case long => decide
    case marks => decide
    case rate => decide
    case scale => decide
    case frames => decide
    case size => decide
    case tiled => exact ⟨[[0xFF]], rfl, by simpa using ⟨by decide, by decide⟩, rfl⟩
  refine ⟨smallInfo_read, untimed.accepted (fromTable_timebase smallInfo_read), fun rate => ?_⟩
  exact rate.rate untimed.rate

end Timebase

end MoenotesAssets.Worker
