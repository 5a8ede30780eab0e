import MoenotesAssets.Foundation.Machine
import MoenotesAssets.Worker.Waveforms

/-! `adx::normalize`: the checks of an ADX input and its padding to whole packets of 128 blocks. -/

namespace MoenotesAssets.Worker.Adx

open Foundation Foundation.Bytes Foundation.Machine

-----------------------------------------------------------------------------------------
-- Normalization
-----------------------------------------------------------------------------------------

/-- `adx::Info` -/
structure Info where
  channels : Nat
  rate : Nat
  samples : Nat
  paddedBlocks : Nat
deriving DecidableEq

/-- `b"(c)CRI"` -/
def criMark : List UInt8 := [0x28, 0x63, 0x29, 0x43, 0x52, 0x49]

/-- `Vec::resize` with zeros. -/
def resize (data : List UInt8) (size : Nat) : List UInt8 :=
  data.take size ++ List.replicate (size - data.length) 0

/-- The first check of the header, which stops at the first part that fails. -/
def checkMark (raw : List UInt8) : Except Failure Bool := do
  if 20 ≤ raw.length then
    if (← range raw 0 2) == [0x80, 0] then return (← range raw 4 7) == [3, 18, 4]
    else return false
  else return false

/-- The second check of the header, which stops at the first part that fails. -/
def checkFields (raw : List UInt8) (header channels rate samples : Nat)
    : Except Failure Bool := do
  if 20 ≤ header && header ≤ raw.length then
    let mark ← range raw (← subSize header 6) header
    if mark == criMark && (1 ≤ channels && channels ≤ 2) && (8000 ≤ rate && rate ≤ 192000)
        && 0 < samples then
      let version ← index raw 18
      if version == 3 || version == 4 then return (← index raw 19) == 0 else return false
    else return false
  else return false

/-- The check of the footer, which stops at the first part that fails. -/
def checkTail (tail : List UInt8) : Except Failure Bool := do
  if 4 ≤ tail.length then
    if (← range tail 0 2) == [0x80, 1] then
      let size ← addSize (bigEndian (← range tail 2 4)) 4
      if size == tail.length then
        return (← range tail 4 tail.length).all (· == 0)
      else return false
    else return false
  else return false

/-- What `normalize` does behind the checks of the header. -/
def pad (raw : List UInt8) (limit header channels rate samples : Nat)
    : Except Failure (List UInt8 × Info) := do
  let budget ← mulSize (← mulSize samples channels) 2
  ensure (budget ≤ limit) (.error "ADX PCM budget")
  let blocks := divCeil samples 32
  let stop ← addSize header (← mulSize (← mulSize blocks 18) channels)
  ensure (stop ≤ raw.length) (.error "ADX sample count exceeds payload")
  let tail ← range raw stop raw.length
  ensure (← checkTail tail) (.error "invalid ADX footer or sample count")
  let paddedBlocks := (← subSize 128 (blocks % 128)) % 128
  let data ← range raw 0 stop
  let size ← addSize stop (← mulSize (← mulSize paddedBlocks 18) channels)
  return (resize data size, { channels, rate, samples, paddedBlocks })

/-- `normalize` -/
def normalize (raw : List UInt8) (limit : Nat) : Except Failure (List UInt8 × Info) := do
  ensure (← checkMark raw) (.error "unsupported ADX header")
  let header ← addSize (bigEndian (← range raw 2 4)) 4
  let channels := (← index raw 7).toNat
  let rate := bigEndian (← range raw 8 12)
  let samples := bigEndian (← range raw 12 16)
  ensure (← checkFields raw header channels rate samples)
    (.error "invalid/encrypted ADX header")
  pad raw limit header channels rate samples

-----------------------------------------------------------------------------------------
-- The parts of an input
-----------------------------------------------------------------------------------------

/-- The bytes of a header that are checked at first. -/
def Marked (raw : List UInt8) : Prop :=
  20 ≤ raw.length ∧ raw.take 2 = [0x80, 0] ∧ (raw.drop 4).take 3 = [3, 18, 4]

/-- The declared size of a header. -/
def headerSize (raw : List UInt8) : Nat := bigEndian ((raw.drop 2).take 2) + 4

/-- The number of channels of a header. -/
def channelCount (raw : List UInt8) : Nat := (raw.getD 7 0).toNat

/-- The rate of a header. -/
def sampleRate (raw : List UInt8) : Nat := bigEndian ((raw.drop 8).take 4)

/-- The number of samples of a header. -/
def sampleCount (raw : List UInt8) : Nat := bigEndian ((raw.drop 12).take 4)

/-- The number of blocks of each channel. -/
def blockCount (raw : List UInt8) : Nat := divCeil (sampleCount raw) 32

/-- The bytes of so many blocks of all channels. -/
def blockBytes (raw : List UInt8) (blocks : Nat) : Nat := blocks * 18 * channelCount raw

/-- The number of blocks up to the next whole packet. -/
def padding (blocks : Nat) : Nat := (128 - blocks % 128) % 128

/-- The fields of a header that are checked afterwards. -/
structure Valid (raw : List UInt8) : Prop where
  least : 20 ≤ headerSize raw
  inside : headerSize raw ≤ raw.length
  sign : (raw.drop (headerSize raw - 6)).take 6 = criMark
  mono : 1 ≤ channelCount raw
  stereo : channelCount raw ≤ 2
  slow : 8000 ≤ sampleRate raw
  fast : sampleRate raw ≤ 192000
  samples : 0 < sampleCount raw
  version : raw.getD 18 0 = 3 ∨ raw.getD 18 0 = 4
  plain : raw.getD 19 0 = 0

/-- A footer: its mark, the number of the bytes that follow, and so many zeros. -/
structure Footer (tail : List UInt8) : Prop where
  head : 4 ≤ tail.length
  mark : tail.take 2 = [0x80, 1]
  size : bigEndian ((tail.drop 2).take 2) + 4 = tail.length
  zeros : ∀ byte ∈ tail.drop 4, byte = 0

/-- The end of the blocks that a header declares. -/
def blocksEnd (raw : List UInt8) : Nat := headerSize raw + blockBytes raw (blockCount raw)

/-- What is written for an input. -/
def paddedInput (raw : List UInt8) : List UInt8 :=
  raw.take (blocksEnd raw)
    ++ List.replicate (blockBytes raw (padding (blockCount raw))) 0

/-- What is told of an input. -/
def infoOf (raw : List UInt8) : Info :=
  {
    channels := channelCount raw
    rate := sampleRate raw
    samples := sampleCount raw
    paddedBlocks := padding (blockCount raw)
  }

-----------------------------------------------------------------------------------------
-- The checks
-----------------------------------------------------------------------------------------

variable {raw : List UInt8}

/-- A big-endian number is bounded by the width of its field. -/
theorem bigEndian_part_lt (bytes : List UInt8) (start width : Nat)
    : bigEndian ((bytes.drop start).take width) < 256 ^ width :=
  Nat.lt_of_lt_of_le (bigEndian_lt _)
    (Nat.pow_le_pow_right (by decide) (List.length_take_le _ _))

/-- The first check reads within the input. -/
theorem checkMark_answers (raw : List UInt8) : Answers (Marked raw) (checkMark raw) := by
  refine Answers.and Iff.rfl fun long => ?_
  refine Answers.bind (range_ok (by omega) (by omega)) ?_
  refine Answers.and beq_iff_eq fun mark => ?_
  exact Answers.bind (range_ok (by omega) (by omega)) (.value beq_iff_eq)

/-- The fields of a header in the order of their check. -/
theorem valid_iff
    : Valid raw
      ↔ (20 ≤ headerSize raw ∧ headerSize raw ≤ raw.length)
        ∧ ((raw.drop (headerSize raw - 6)).take 6 = criMark
          ∧ (1 ≤ channelCount raw ∧ channelCount raw ≤ 2)
          ∧ (8000 ≤ sampleRate raw ∧ sampleRate raw ≤ 192000)
          ∧ 0 < sampleCount raw)
        ∧ (raw.getD 18 0 = 3 ∨ raw.getD 18 0 = 4)
        ∧ raw.getD 19 0 = 0 := by
  constructor
  · intro valid
    exact ⟨⟨valid.least, valid.inside⟩,
      ⟨valid.sign, ⟨valid.mono, valid.stereo⟩, ⟨valid.slow, valid.fast⟩, valid.samples⟩,
      valid.version, valid.plain⟩
  · rintro ⟨⟨least, inside⟩, ⟨sign, ⟨mono, stereo⟩, ⟨slow, fast⟩, samples⟩, version, plain⟩
    exact ⟨least, inside, sign, mono, stereo, slow, fast, samples, version, plain⟩

/-- The second check reads within the input. -/
theorem checkFields_answers (long : 20 ≤ raw.length)
    : Answers (Valid raw)
        (checkFields raw (headerSize raw) (channelCount raw) (sampleRate raw)
          (sampleCount raw)) := by
  refine Answers.iff ?_ valid_iff.symm
  refine Answers.and (by simp) fun ⟨least, inside⟩ => ?_
  refine Answers.bind (subSize_eq (by omega)) ?_
  refine Answers.bind (range_ok (by omega) inside) ?_
  rw [Nat.sub_sub_self (by omega)]
  refine Answers.and (by simp [and_assoc]) fun _ => ?_
  refine Answers.bind (index_ok (by omega) 0) ?_
  refine Answers.and (by simp) fun _ => ?_
  exact Answers.bind (index_ok (by omega) 0) (.value beq_iff_eq)

/-- The check of the footer reads within it. -/
theorem checkTail_answers (tail : List UInt8) : Answers (Footer tail) (checkTail tail) := by
  have inner
      : Answers
          (4 ≤ tail.length
            ∧ tail.take 2 = [0x80, 1]
            ∧ bigEndian ((tail.drop 2).take 2) + 4 = tail.length
            ∧ ∀ byte ∈ tail.drop 4, byte = 0)
          (checkTail tail) := by
    refine Answers.and Iff.rfl fun head => ?_
    refine Answers.bind (range_ok (by omega) (by omega)) ?_
    refine Answers.and beq_iff_eq fun mark => ?_
    refine Answers.bind (range_ok (by omega) (by omega)) ?_
    have small : bigEndian ((tail.drop 2).take (4 - 2)) < 2 ^ 16 :=
      bigEndian_part_lt tail 2 2
    refine Answers.bind (addSize_eq (by rw [max64]; omega)) ?_
    refine Answers.and beq_iff_eq fun size => ?_
    refine Answers.bind (range_ok head (Nat.le_refl _)) ?_
    rw [List.take_of_length_le (by rw [List.length_drop])]
    exact .value (by simp)
  refine inner.iff ⟨?_, fun footer => ⟨footer.head, footer.mark, footer.size, footer.zeros⟩⟩
  rintro ⟨head, mark, size, zeros⟩
  exact ⟨head, mark, size, zeros⟩

-----------------------------------------------------------------------------------------
-- What is accepted
-----------------------------------------------------------------------------------------

/-- The number of blocks is that of the samples, 32 in each. -/
theorem blockCount_lt (raw : List UInt8) : blockCount raw ≤ 2 ^ 27 := by
  have small : sampleCount raw < 2 ^ 32 := bigEndian_part_lt raw 12 4
  rw [blockCount, divCeil]
  omega

/-- The bytes of blocks of at most two channels. -/
theorem blockBytes_le (blocks : Nat) (stereo : channelCount raw ≤ 2)
    : blockBytes raw blocks ≤ blocks * 36 := by
  have bound := Nat.mul_le_mul_left (blocks * 18) stereo
  rw [blockBytes]
  omega

/-- Fewer blocks than a packet has are added. -/
theorem padding_lt (blocks : Nat) : padding blocks < 128 := Nat.mod_lt _ (by decide)

/-- What an accepted input satisfies. -/
structure Accepted (raw : List UInt8) (limit : Nat) : Prop where
  marked : Marked raw
  valid : Valid raw
  budget : sampleCount raw * channelCount raw * 2 ≤ limit
  inside : blocksEnd raw ≤ raw.length
  footer : Footer (raw.drop (blocksEnd raw))

/-- The products and sums behind the checks of the header do not overflow. -/
theorem pad_eq (valid : Valid raw) (limit : Nat)
    : pad raw limit (headerSize raw) (channelCount raw) (sampleRate raw) (sampleCount raw)
      = (do
          ensure (sampleCount raw * channelCount raw * 2 ≤ limit) (.error "ADX PCM budget")
          ensure (blocksEnd raw ≤ raw.length) (.error "ADX sample count exceeds payload")
          ensure (← checkTail (raw.drop (blocksEnd raw)))
            (.error "invalid ADX footer or sample count")
          return (paddedInput raw, infoOf raw)) := by
  have stereo := valid.stereo
  have samples : sampleCount raw < 2 ^ 32 := bigEndian_part_lt raw 12 4
  have header : bigEndian ((raw.drop 2).take 2) < 2 ^ 16 := bigEndian_part_lt raw 2 2
  have blocks := blockCount_lt raw
  have budget : sampleCount raw * channelCount raw ≤ 2 ^ 32 * 2 :=
    Nat.mul_le_mul (Nat.le_of_lt samples) stereo
  have area := blockBytes_le (blockCount raw) stereo
  have added := blockBytes_le (padding (blockCount raw)) stereo
  have few := padding_lt (blockCount raw)
  have start : blocksEnd raw = headerSize raw + blockBytes raw (blockCount raw) := rfl
  have size : headerSize raw = bigEndian ((raw.drop 2).take 2) + 4 := rfl
  rw [pad, mulSize_eq (by rw [max64]; omega), ok_bind, mulSize_eq (by rw [max64]; omega), ok_bind]
  refine bind_congr_ok fun _ _ => ?_
  dsimp only
  rw [← blockCount, mulSize_eq (by rw [max64]; omega), ok_bind]
  rw [mulSize_eq (by rw [← blockBytes, max64]; omega), ok_bind, ← blockBytes]
  rw [addSize_eq (by rw [max64]; omega), ok_bind, ← blocksEnd]
  refine bind_congr_ok fun _ inside => ?_
  have within : blocksEnd raw ≤ raw.length := of_decide_eq_true (ensure_ok.mp inside)
  rw [range_ok within (Nat.le_refl _), ok_bind, List.take_of_length_le (by rw [List.length_drop])]
  refine bind_congr_ok fun _ _ => bind_congr_ok fun _ _ => ?_
  rw [subSize_eq (by omega), ok_bind, ← padding, range_ok (Nat.zero_le _) within, ok_bind]
  rw [mulSize_eq (by rw [max64]; omega), ok_bind]
  rw [mulSize_eq (by rw [← blockBytes, max64]; omega), ok_bind, ← blockBytes]
  rw [addSize_eq (by rw [max64]; omega), ok_bind, Nat.sub_zero, List.drop_zero]
  rw [paddedInput, infoOf, resize, List.length_take, Nat.min_eq_left within]
  rw [List.take_of_length_le (by rw [List.length_take]; omega), Nat.add_sub_cancel_left]

/-- The fields of a header are read behind its first check. -/
theorem normalize_eq (marked : Marked raw) (limit : Nat)
    : normalize raw limit
      = (do
          ensure
            (← checkFields raw (headerSize raw) (channelCount raw) (sampleRate raw)
              (sampleCount raw))
            (.error "invalid/encrypted ADX header")
          pad raw limit (headerSize raw) (channelCount raw) (sampleRate raw)
            (sampleCount raw)) := by
  have long := marked.1
  have header : bigEndian ((raw.drop 2).take (4 - 2)) < 2 ^ 16 := bigEndian_part_lt raw 2 2
  rw [normalize, (checkMark_answers raw).passes marked, range_ok (by omega) (by omega), ok_bind,
    addSize_eq (by rw [max64]; omega), ok_bind, index_ok (by omega) 0, ok_bind,
    range_ok (by omega) (by omega), ok_bind, range_ok (by omega) (by omega), ok_bind]
  rfl

/-- An input is normalized without a panic, and only when it satisfies what is checked. -/
theorem normalize_yields (raw : List UInt8) (limit : Nat)
    : Yields (fun out => Accepted raw limit ∧ out = (paddedInput raw, infoOf raw))
        (normalize raw limit) := by
  by_cases marked : Marked raw
  · rw [normalize_eq marked]
    refine .check (checkFields_answers marked.1) fun valid => ?_
    rw [pad_eq valid]
    refine .bind (.ensure _ _) fun budget => .bind (.ensure _ _) fun inside => ?_
    refine .check (checkTail_answers _) fun footer => .value ⟨?_, rfl⟩
    exact ⟨marked, valid, of_decide_eq_true budget, of_decide_eq_true inside, footer⟩
  · obtain ⟨accepted, found, same⟩ := checkMark_answers raw
    have refused := eq_false_of_ne_true fun passed => marked (same.mp passed)
    rw [normalize, found, ok_bind, refused]
    exact .error _

/-- An input that satisfies what is checked is normalized. -/
theorem normalize_accepts {limit : Nat} (accepted : Accepted raw limit)
    : normalize raw limit = .ok (paddedInput raw, infoOf raw) := by
  have long := accepted.marked.1
  rw [normalize_eq accepted.marked, (checkFields_answers long).passes accepted.valid,
    pad_eq accepted.valid, ensure_passes (decide_eq_true accepted.budget), ok_bind,
    ensure_passes (decide_eq_true accepted.inside), ok_bind,
    (checkTail_answers _).passes accepted.footer]
  rfl

-----------------------------------------------------------------------------------------
-- The parts of an accepted input
-----------------------------------------------------------------------------------------

/-- (Form limit header area footer raw) holds when an input is a header with the fields that are
checked, the blocks of its samples for each channel, and a footer.
-/
structure Form (limit : Nat) (header area footer raw : List UInt8) : Prop where
  whole : raw = header ++ area ++ footer
  marked : Marked header
  size : header.length = headerSize header
  valid : Valid header
  area : area.length = blockBytes header (blockCount header)
  footer : Footer footer
  budget : sampleCount header * channelCount header * 2 ≤ limit

/-- (Padded header area data) holds when data is a header with blocks that zeros follow, up to the
first whole packet of 128 blocks.
-/
structure Padded (header area data : List UInt8) : Prop where
  zeros : ∃ count, data = header ++ area ++ List.replicate count 0
  packets
    : ∃ packets,
        data.length = header.length + blockBytes header (128 * packets)
        ∧ ∀ enough, area.length ≤ blockBytes header (128 * enough) → packets ≤ enough

section Fields

variable {n : Nat}

/-- The size in a header is read from its first bytes. -/
theorem headerSize_take (raw : List UInt8) (long : 20 ≤ n)
    : headerSize (raw.take n) = headerSize raw := by
  rw [headerSize, part_take raw (by omega), headerSize]

/-- The channels of a header are read from its first bytes. -/
theorem channelCount_take (raw : List UInt8) (long : 20 ≤ n)
    : channelCount (raw.take n) = channelCount raw := by
  rw [channelCount, byte_take raw (by omega), channelCount]

/-- The rate of a header is read from its first bytes. -/
theorem sampleRate_take (raw : List UInt8) (long : 20 ≤ n)
    : sampleRate (raw.take n) = sampleRate raw := by
  rw [sampleRate, part_take raw (by omega), sampleRate]

/-- The samples of a header are read from its first bytes. -/
theorem sampleCount_take (raw : List UInt8) (long : 20 ≤ n)
    : sampleCount (raw.take n) = sampleCount raw := by
  rw [sampleCount, part_take raw (by omega), sampleCount]

/-- The blocks of a header are those of its samples. -/
theorem blockCount_take (raw : List UInt8) (long : 20 ≤ n)
    : blockCount (raw.take n) = blockCount raw := by
  rw [blockCount, sampleCount_take raw long, blockCount]

/-- The bytes of blocks depend on the channels of a header only. -/
theorem blockBytes_take (raw : List UInt8) (blocks : Nat) (long : 20 ≤ n)
    : blockBytes (raw.take n) blocks = blockBytes raw blocks := by
  rw [blockBytes, channelCount_take raw long, blockBytes]

/-- What is told of an input is told of its header. -/
theorem infoOf_take (raw : List UInt8) (long : 20 ≤ n) : infoOf (raw.take n) = infoOf raw := by
  rw [infoOf, channelCount_take raw long, sampleRate_take raw long, sampleCount_take raw long,
    blockCount_take raw long, infoOf]

/-- The marks of a header are its first bytes. -/
theorem marked_take (long : 20 ≤ n) (inside : n ≤ raw.length)
    : Marked (raw.take n) ↔ Marked raw := by
  rw [Marked, Marked, part_take raw (by omega), List.take_take, Nat.min_eq_left (by omega),
    List.length_take, Nat.min_eq_left inside]
  exact and_congr_left fun _ => iff_of_true long (Nat.le_trans long inside)

/-- The fields of a header are within it. -/
theorem valid_take (long : 20 ≤ n) (inside : n ≤ raw.length) (size : headerSize raw = n)
    : Valid (raw.take n) ↔ Valid raw := by
  have sign := part_take raw (Nat.le_of_eq (Nat.sub_add_cancel (show 6 ≤ n by omega)))
  rw [valid_iff, valid_iff, headerSize_take raw long, channelCount_take raw long,
    sampleRate_take raw long, sampleCount_take raw long, byte_take raw (by omega),
    byte_take raw (by omega), size, sign, List.length_take, Nat.min_eq_left inside]
  exact and_congr_left fun _ =>
    and_congr_right fun _ => iff_of_true (Nat.le_refl _) inside

end Fields

/-- An accepted input is a header, its blocks and a footer. -/
theorem Accepted.form {limit : Nat} (accepted : Accepted raw limit)
    : Form limit (raw.take (headerSize raw))
        ((raw.drop (headerSize raw)).take (blockBytes raw (blockCount raw)))
        (raw.drop (blocksEnd raw)) raw := by
  obtain ⟨marked, valid, budget, inside, footer⟩ := accepted
  have long := valid.least
  have within := valid.inside
  constructor
  case whole => rw [← List.take_add, ← blocksEnd, List.take_append_drop]
  case marked => exact (marked_take long within).mpr marked
  case size => rw [headerSize_take raw long, List.length_take, Nat.min_eq_left within]
  case valid => exact (valid_take long within rfl).mpr valid
  case area =>
    rw [blocksEnd] at inside
    rw [blockBytes_take raw _ long, blockCount_take raw long, List.length_take, List.length_drop]
    omega
  case footer => exact footer
  case budget => rwa [sampleCount_take raw long, channelCount_take raw long]

/-- A header with its blocks and a footer are accepted. -/
theorem Form.accepted {limit : Nat} {header area footer : List UInt8}
    (form : Form limit header area footer raw)
    : Accepted raw limit := by
  obtain ⟨whole, marked, size, valid, filled, tail, budget⟩ := form
  have long := valid.least
  rw [← size] at long
  have first : raw.take header.length = header := by
    rw [whole, List.append_assoc, List.take_left]
  have inside : header.length ≤ raw.length := by
    rw [whole, List.length_append, List.length_append]
    omega
  have place : headerSize raw = header.length := by
    rw [size, ← first, headerSize_take raw long]
  have blocks : area.length = blockBytes raw (blockCount raw) := by
    rw [filled, ← first, blockBytes_take raw _ long, blockCount_take raw long]
  have stop : blocksEnd raw = (header ++ area).length := by
    rw [blocksEnd, place, ← blocks, List.length_append]
  constructor
  case marked => exact (marked_take long inside).mp (first.symm ▸ marked)
  case valid => exact (valid_take long inside place).mp (first.symm ▸ valid)
  case budget => rwa [← first, sampleCount_take raw long, channelCount_take raw long] at budget
  case inside =>
    rw [stop, whole, @List.length_append _ (header ++ area)]
    exact Nat.le_add_right _ _
  case footer =>
    rw [stop, whole, List.drop_left]
    exact tail

-----------------------------------------------------------------------------------------
-- Whole packets
-----------------------------------------------------------------------------------------

/-- Blocks are padded up to the first multiple of 128. -/
theorem blocks_padded (blocks : Nat)
    : ∃ packets,
        blocks + padding blocks = 128 * packets
        ∧ ∀ enough, blocks ≤ 128 * enough → packets ≤ enough := by
  refine ⟨divCeil blocks 128, ?_, fun enough covers => ?_⟩
  · rw [padding, divCeil]
    omega
  · rw [divCeil]
    omega

/-- What is written for an accepted input is padded to whole packets. -/
theorem Accepted.padded {limit : Nat} (accepted : Accepted raw limit)
    : Padded (raw.take (headerSize raw))
        ((raw.drop (headerSize raw)).take (blockBytes raw (blockCount raw)))
        (paddedInput raw) := by
  have long := accepted.valid.least
  have inside := accepted.valid.inside
  have mono := accepted.valid.mono
  have form := accepted.form
  obtain ⟨packets, whole, least⟩ := blocks_padded (blockCount raw)
  constructor
  case zeros =>
    refine ⟨blockBytes raw (padding (blockCount raw)), ?_⟩
    rw [paddedInput, blocksEnd, List.take_add]
  case packets =>
    refine ⟨packets, ?_, fun enough covers => least enough ?_⟩
    · rw [paddedInput, List.length_append, List.length_replicate, List.length_take,
        Nat.min_eq_left accepted.inside, List.length_take, Nat.min_eq_left inside,
        blockBytes_take raw _ long, ← whole, blocksEnd, Nat.add_assoc]
      simp only [blockBytes, Nat.add_mul]
    · rw [form.area, blockBytes_take raw _ long, blockBytes_take raw _ long,
        blockCount_take raw long] at covers
      simp only [blockBytes] at covers
      have scaled := Nat.le_of_mul_le_mul_right covers mono
      omega

/-- An input is normalized without a panic. What is accepted is a header, the blocks of its samples
and a footer; the header and the blocks are kept and padded with zeros up to the first whole
packet, and every such input is accepted.
-/
theorem normalize_exact (raw : List UInt8) (limit : Nat)
    : NoPanic (normalize raw limit)
      ∧ (∀ data info,
          normalize raw limit = .ok (data, info)
          → ∃ header area footer,
              Form limit header area footer raw ∧ Padded header area data
              ∧ info = infoOf header)
      ∧ ∀ header area footer,
          Form limit header area footer raw
          → ∃ data info, normalize raw limit = .ok (data, info) := by
  refine ⟨(normalize_yields raw limit).calm, fun data info done => ?_, fun _ _ _ form => ?_⟩
  · obtain ⟨accepted, same⟩ := (normalize_yields raw limit).holds done
    obtain ⟨rfl, rfl⟩ := Prod.mk.inj same
    exact ⟨_, _, _, accepted.form, accepted.padded, (infoOf_take raw accepted.valid.least).symm⟩
  · exact ⟨_, _, normalize_accepts form.accepted⟩

end MoenotesAssets.Worker.Adx
