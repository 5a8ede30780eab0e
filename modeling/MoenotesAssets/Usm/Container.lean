import MoenotesAssets.Foundation.Loop
import MoenotesAssets.Foundation.Table
import MoenotesAssets.Usm.Mask
import MoenotesAssets.Usm.Table
import Std.Data.String.ToNat

/-! `usm::extract`: the chunks of a file, what each of them does to the streams, and the
checks after the last one. Reading and writing do not fail.
-/

namespace MoenotesAssets.Usm

open Foundation Foundation.Bytes Foundation.Machine

-----------------------------------------------------------------------------------------
-- Chunks
-----------------------------------------------------------------------------------------

/-- The signatures of streams, in the order of their bytes. -/
inductive Signature where
  | alp
  | sfa
  | sfv
deriving DecidableEq

/-- `b"@ALP"`, `b"@SFA"` and `b"@SFV"` -/
def Signature.bytes : Signature → List UInt8
  | .alp => [0x40, 0x41, 0x4C, 0x50]
  | .sfa => [0x40, 0x53, 0x46, 0x41]
  | .sfv => [0x40, 0x53, 0x46, 0x56]

/-- The signature that is spelled by four bytes. -/
def Signature.ofBytes (bytes : List UInt8) : Option Signature :=
  [Signature.alp, .sfa, .sfv].find? fun signature => signature.bytes == bytes

/-- What a chunk starts with: `b"CRID"` or the signature of its stream. -/
inductive Tag where
  | crid
  | stream (signature : Signature)
deriving DecidableEq

/-- The bytes of a tag. -/
def Tag.bytes : Tag → List UInt8
  | .crid => [0x43, 0x52, 0x49, 0x44]
  | .stream signature => signature.bytes

/-- The tag that is spelled by four bytes. -/
def Tag.ofBytes (bytes : List UInt8) : Option Tag :=
  if bytes = Tag.crid.bytes then some .crid else (Signature.ofBytes bytes).map .stream

/-- What `extract` takes from a chunk. -/
@[ext]
structure Chunk where
  tag : Tag
  channel : UInt8
  kind : Nat
  payload : List UInt8
deriving DecidableEq

/-- The chunk at `pos` and the bytes it takes up. -/
def readChunk (limit : UInt64) (file : List UInt8) (pos : Nat)
    : Except Failure (Chunk × Nat) := do
  let h ← context (slice file pos (pos + 32)) (.error "truncated USM chunk header")
  let n := bigEndian ((h.drop 4).take 4) + 8
  let header := bigEndian ((h.drop 8).take 2)
  let padding := bigEndian ((h.drop 10).take 2)
  ensure (32 ≤ n) (.error "invalid USM chunk bounds")
  ensure (n ≤ (← subSize file.length pos) && 24 ≤ header) (.error "invalid USM chunk bounds")
  let body ← subSize n 8
  ensure (header + padding ≤ body) (.error "invalid USM chunk bounds")
  let tag ← context (Tag.ofBytes (h.take 4)) (.error "unsupported USM stream type")
  ensure (pos != 0 || tag == .crid) (.error "missing USM CRID")
  let kind := (h.getD 15 0 &&& 3).toNat
  let len ← subSize (← subSize body header) padding
  ensure (len ≤ limit.toNat && (kind == 0 || len ≤ 16 * 2 ^ 20)) (.error "USM chunk budget")
  let start := pos + 8 + header
  let payload ←
    context (slice file start (start + len)) (.error "failed to fill whole buffer")
  return ({ tag, channel := h.getD 12 0, kind, payload }, n)

-----------------------------------------------------------------------------------------
-- Streams
-----------------------------------------------------------------------------------------

/-- The key of a stream, ordered by signature and channel. -/
structure StreamId where
  signature : Signature
  channel : UInt8
deriving DecidableEq

/-- The place of a signature in the order of their bytes. -/
def Signature.rank : Signature → Nat
  | .alp => 0
  | .sfa => 1
  | .sfv => 2

/-- The place of a stream in the order of their keys. -/
def StreamId.rank (id : StreamId) : Nat := 256 * id.signature.rank + id.channel.toNat

instance : Ord StreamId := ⟨compareOn StreamId.rank⟩

instance : Std.TransOrd StreamId :=
  inferInstanceAs (Std.TransCmp (compareOn StreamId.rank))

/-- Streams of one rank are the same. -/
theorem StreamId.rank_injective {id other : StreamId} (same : id.rank = other.rank)
    : id = other := by
  obtain ⟨signature, channel⟩ := id
  obtain ⟨signature', channel'⟩ := other
  have small := channel.toNat_lt
  have small' := channel'.toNat_lt
  simp only [StreamId.rank] at same
  have channels : channel = channel' := UInt8.toNat_inj.mp (by omega)
  have ranks : signature.rank = signature'.rank := by omega
  have signatures : signature = signature' := by
    cases signature <;> cases signature' <;> first | rfl | cases ranks
  rw [signatures, channels]

/-- A stream comes before those of a higher rank. -/
theorem StreamId.compare_eq_lt {id other : StreamId}
    : compare id other = .lt ↔ id.rank < other.rank :=
  Nat.compare_eq_lt

instance : Std.LawfulEqOrd StreamId where
  eq_of_compare equal := StreamId.rank_injective (Nat.compare_eq_eq.mp equal)

/-- `format!("usm-{}-{}.stream")`, the name of the file of a stream. -/
def StreamId.path (id : StreamId) : String :=
  "usm-" ++ asciiText (id.signature.bytes.drop 1) ++ "-" ++ toString id.channel.toNat ++ ".stream"

/-- Different streams have different files: the channel is read behind a text of one length. -/
theorem StreamId.path_injective : Function.Injective StreamId.path := by
  rintro ⟨signature, channel⟩ ⟨signature', channel'⟩ same
  have text : ∀ signature : Signature,
      (asciiText (signature.bytes.drop 1)).toList
        = (signature.bytes.drop 1).map fun byte => Char.ofNat byte.toNat :=
    fun _ => String.toList_ofList
  have length : ∀ signature : Signature,
      (asciiText (signature.bytes.drop 1)).toList.length = 3 := by
    intro signature
    rw [text]
    cases signature <;> rfl
  have letters := congrArg String.toList same
  simp only [StreamId.path, String.toList_append, List.append_assoc,
    List.append_cancel_left_eq] at letters
  obtain ⟨texts, rest⟩ := List.append_inj letters ((length _).trans (length _).symm)
  have channels := List.append_cancel_right (List.append_cancel_left rest)
  have numbers := Nat.repr_injective (String.toList_inj.mp channels)
  have signatures : signature = signature' := by
    rw [text, text] at texts
    cases signature <;> cases signature' <;> first | rfl | exact absurd texts (by decide)
  rw [signatures, UInt8.toNat_inj.mp numbers]

/-- `usm::Stream`; of `path` the name in the directory `stage`. -/
structure Stream where
  signature : Signature
  channel : UInt8
  path : String
  video : Option VideoInfo
  audioCodec : Option Nat
  chunks : Nat
deriving DecidableEq

/-- `usm::Pending`, with the bytes that were written to the file. -/
structure Pending where
  stream : Stream
  file : List UInt8
  ended : Bool
  header : Bool
deriving DecidableEq

/-- A stream of which nothing was read. -/
def Pending.create (id : StreamId) : Pending :=
  {
    stream :=
      {
        signature := id.signature
        channel := id.channel
        path := id.path
        video := none
        audioCodec := none
        chunks := 0
      }
    file := []
    ended := false
    header := false
  }

/-- The payload as it is written: with a key, masked video and masked audio of codec 2 are
demasked.
-/
def demask (masks : Option Masks) (signature : Signature) (audioCodec : Option Nat)
    (payload : List UInt8)
    : List UInt8 :=
  match masks with
  | none => payload
  | some masks =>
      if signature = .sfa then
        if audioCodec = some 2 then maskAudio payload masks.audio else payload
      else maskVideo payload masks.video

/-- The header chunk of a stream: `AUDIO_HDRINFO` for `@SFA` and `VIDEO_HDRINFO` for others. -/
def readHeader (signature : Signature) (payload : List UInt8) (stream : Stream)
    : Except Failure Stream := do
  let (name, t) ← table payload
  if signature = .sfa then do
    ensure (name == "AUDIO_HDRINFO") (.error "USM audio header table")
    let codec := t["audio_codec"]?.getD 2
    ensure (codec == 2 || codec == 4) (.error "unsupported USM audio codec")
    return { stream with audioCodec := some codec }
  else do
    ensure (name == "VIDEO_HDRINFO") (.error "USM video header table")
    return { stream with video := some (← VideoInfo.fromTable t) }

/-- `b"#CONTENTS END"` -/
def contentsEnd : List UInt8 := "#CONTENTS END".toUTF8.toList

/-- `b"#HEADER END"` -/
def headerEnd : List UInt8 := "#HEADER END".toUTF8.toList

/-- `b"#METADATA END"` -/
def metadataEnd : List UInt8 := "#METADATA END".toUTF8.toList

/-- What a chunk does to `total` and to its stream `s`. -/
def absorbStream (limit : UInt64) (masks : Option Masks) (signature : Signature) (kind : Nat)
    (payload : List UInt8) (total : Nat) (s : Pending)
    : Except Failure (Nat × Pending) := do
  ensure (!s.ended) (.error "USM data after stream end")
  match kind with
  | 0 => do
      ensure s.header (.error "USM payload before header")
      let total ← context (checkedAdd total payload.length) (.error "USM size overflow")
      ensure (total ≤ limit.toNat) (.error "USM expansion limit")
      let file := s.file ++ demask masks signature s.stream.audioCodec payload
      return (total, { s with file, stream := { s.stream with chunks := s.stream.chunks + 1 } })
  | 1 => do
      ensure (!s.header) (.error "duplicate USM stream header")
      let stream ← readHeader signature payload s.stream
      return (total, { s with stream, header := true })
  | 2 =>
      if contentsEnd.isPrefixOf payload then do
        ensure (0 < s.stream.chunks) (.error "empty USM stream")
        return (total, { s with ended := true })
      else do
        ensure (headerEnd.isPrefixOf payload || metadataEnd.isPrefixOf payload)
          (.error "unknown USM marker")
        return (total, s)
  | 3 => do
      let _ ← table payload
      return (total, s)
  | _ => .error (.panic "internal error: entered unreachable code")

-----------------------------------------------------------------------------------------
-- The file
-----------------------------------------------------------------------------------------

/-- The locals of `extract` between two chunks, without `pos`. -/
structure Demuxer where
  total : Nat
  streams : Std.TreeMap StreamId Pending
  crid : Bool
  declared : Std.TreeSet StreamId

/-- The locals before the first chunk. -/
def Demuxer.start : Demuxer := { total := 0, streams := ∅, crid := false, declared := ∅ }

/-- The stream that a row of the directory names, if its `stmid` is not zero. -/
def rowStream (payload : List UInt8) (index : Nat) : Except Failure (Option StreamId) := do
  let (_, row) ← tableRow payload index
  match row["stmid"]?.filter (fun n => n != 0) with
  | none => return none
  | some id => do
      ensure (id < 2 ^ 32) (.error "out of range integral type conversion attempted")
      let channel ← context row["chno"]? (.error "USM directory channel")
      ensure (channel < 2 ^ 8) (.error "out of range integral type conversion attempted")
      let signature ←
        context (Signature.ofBytes (bigEndianBytes 4 id))
          (.error "unsupported/duplicate USM directory stream")
      return some { signature, channel := UInt8.ofNat channel }

/-- One round of the loop over the rows of the directory. -/
def declareRow (payload : List UInt8) (declared : Std.TreeSet StreamId) (index : Nat)
    : Except Failure (Std.TreeSet StreamId) := do
  match ← rowStream payload index with
  | none => return declared
  | some id => do
      ensure (!declared.contains id) (.error "unsupported/duplicate USM directory stream")
      return declared.insert id

/-- The streams that the directory declares. -/
def readDirectory (payload : List UInt8) (declared : Std.TreeSet StreamId)
    : Except Failure (Std.TreeSet StreamId) := do
  let (name, _) ← table payload
  ensure (name == "CRIUSF_DIR_STREAM") (.error "unexpected CRID directory table")
  let count ← be32 payload 28
  ensure (count ≤ 4) (.error "USM directory stream count")
  (List.range count).foldlM (declareRow payload) declared

/-- The streams with the one of `id`, whose file is created if there is none. -/
def openStream (streams : Std.TreeMap StreamId Pending) (id : StreamId)
    : Except Failure (Std.TreeMap StreamId Pending) :=
  if streams.contains id then .ok streams
  else do
    ensure (streams.size < 3) (.error "unsupported USM track count")
    return streams.insert id (.create id)

/-- The opened streams, and the one that a chunk finds among them. -/
theorem openStream_ok {streams opened : Std.TreeMap StreamId Pending} {id : StreamId}
    : openStream streams id = .ok opened
      ↔ (id ∈ streams ∨ streams.size < 3)
        ∧ opened = if id ∈ streams then streams else streams.insert id (.create id) := by
  rw [openStream]
  split
  · rename_i member
    have member := Std.TreeMap.contains_iff_mem.mp member
    simp [member, eq_comm]
  · rename_i absent
    have absent : id ∉ streams := fun member => absent (Std.TreeMap.contains_iff_mem.mpr member)
    simp only [bind_ok, ensure_ok, pure_ok, decide_eq_true_eq, exists_const, absent, false_or,
      if_false]
    exact and_congr_right fun _ => eq_comm

/-- The streams after their chunk found its own one. -/
theorem openStream_view {streams opened : Std.TreeMap StreamId Pending} {id : StreamId}
    (found : openStream streams id = .ok opened)
    : opened[id]? = some (streams[id]?.getD (.create id))
      ∧ (∀ {other : StreamId}, other ≠ id → opened[other]? = streams[other]?)
      ∧ ∀ {other : StreamId}, other ∈ opened ↔ other ∈ streams ∨ id = other := by
  obtain ⟨-, rfl⟩ := openStream_ok.mp found
  split
  · rename_i member
    obtain ⟨s, held⟩ := Option.isSome_iff_exists.mp (Std.TreeMap.isSome_getElem?_iff_mem.mpr member)
    refine ⟨by rw [held, Option.getD_some], fun _ => rfl, fun {other} => ?_⟩
    exact ⟨Or.inl, fun place => place.elim (fun inside => inside) fun same => same ▸ member⟩
  · rename_i absent
    refine ⟨?_, fun apart => Table.insert_other _ _ apart, fun {other} => ?_⟩
    · rw [Table.insert_self, Std.TreeMap.getElem?_eq_none absent, Option.getD_none]
    · rw [Std.TreeMap.mem_insert, Std.LawfulEqOrd.compare_eq_iff_eq, or_comm]

/-- What a chunk does to the locals. -/
def absorb (limit : UInt64) (masks : Option Masks) (demuxer : Demuxer) (chunk : Chunk)
    : Except Failure Demuxer :=
  match chunk.tag with
  | .crid => do
      ensure (!demuxer.crid && chunk.kind == 1) (.error "duplicate/invalid CRID")
      let declared ← readDirectory chunk.payload demuxer.declared
      return { demuxer with declared, crid := true }
  | .stream signature => do
      let id : StreamId := { signature, channel := chunk.channel }
      let streams ← openStream demuxer.streams id
      let s ←
        context streams[id]? (.panic "called `Option::unwrap()` on a `None` value")
      let (total, s) ←
        absorbStream limit masks signature chunk.kind chunk.payload demuxer.total s
      return { demuxer with total, streams := streams.insert id s }

/-- The locals of `extract` with `pos`. -/
structure Position where
  pos : Nat
  demuxer : Demuxer

/-- One round of the loop over the chunks. -/
def nextChunk (limit : UInt64) (masks : Option Masks) (file : List UInt8) (position : Position)
    : Except Failure (Option Position) :=
  if file.length ≤ position.pos then .ok none
  else do
    let (chunk, n) ← readChunk limit file position.pos
    let demuxer ← absorb limit masks position.demuxer chunk
    return some { pos := position.pos + n, demuxer }

/-- A round that continues reads the chunk at `pos` and takes it in. -/
theorem nextChunk_continues {limit : UInt64} {masks : Option Masks} {file : List UInt8}
    {position after : Position}
    : nextChunk limit masks file position = .ok (some after)
      ↔ position.pos < file.length
        ∧ ∃ chunk n demuxer,
            readChunk limit file position.pos = .ok (chunk, n)
            ∧ absorb limit masks position.demuxer chunk = .ok demuxer
            ∧ after = { pos := position.pos + n, demuxer } := by
  rw [nextChunk]
  split
  · rename_i behind
    constructor
    · intro absurd'
      cases absurd'
    · exact fun continues => absurd continues.1 (Nat.not_lt.mpr behind)
  · rename_i inside
    simp only [bind_ok, pure_ok, Option.some.injEq, Prod.exists]
    constructor
    · rintro ⟨chunk, n, read, demuxer, absorbed, rfl⟩
      exact ⟨Nat.lt_of_not_le inside, chunk, n, demuxer, read, absorbed, rfl⟩
    · rintro ⟨-, chunk, n, demuxer, read, absorbed, rfl⟩
      exact ⟨chunk, n, read, demuxer, absorbed, rfl⟩

/-- A chunk takes up 32 bytes at least. -/
theorem readChunk_size {limit : UInt64} {file : List UInt8} {pos n : Nat} {chunk : Chunk}
    (read : readChunk limit file pos = .ok (chunk, n))
    : 32 ≤ n := by
  simp only [readChunk, bind_ok, ensure_ok, decide_eq_true_eq, pure_ok, Prod.mk.injEq] at read
  obtain ⟨h, -, _, big, rest⟩ := read
  obtain ⟨_, -, _, -, _, -, _, -, _, -, _, -, _, -, _, -, _, -, _, -, -, rfl⟩ := rest
  exact big

/-- Every chunk takes up bytes of the file. -/
theorem nextChunk_lowers (limit : UInt64) (masks : Option Masks) (file : List UInt8)
    : Lowers (nextChunk limit masks file) (fun position => file.length - position.pos) := by
  intro position after round
  obtain ⟨inside, chunk, n, demuxer, read, -, rfl⟩ := nextChunk_continues.mp round
  have size := readChunk_size read
  dsimp only
  omega

/-- The number of streams of a signature. -/
def tracksOf (streams : Std.TreeMap StreamId Pending) (signature : Signature) : Nat :=
  (streams.toList.filter fun entry => entry.1.signature == signature).length

/-- The checks after the last chunk, and the streams with the bytes of their files. -/
def finish (last : Demuxer) : Except Failure (List (Stream × List UInt8)) := do
  ensure (last.declared.isEmpty || last.declared.toList == last.streams.toList.map Prod.fst)
    (.error "USM directory stream missing or unexpected")
  ensure (last.crid && last.streams.toList.all fun entry => entry.2.header && entry.2.ended)
    (.error "incomplete USM streams")
  ensure
    (tracksOf last.streams .sfv == 1 && tracksOf last.streams .sfa ≤ 1
      && tracksOf last.streams .alp ≤ 1)
    (.error "unsupported USM tracks")
  return last.streams.toList.map fun entry => (entry.2.stream, entry.2.file)

/-- `usm::extract` -/
def extract (file : List UInt8) (key : Option UInt64) (limit : UInt64)
    : Except Failure (List (Stream × List UInt8)) := do
  let last ←
    loop (nextChunk limit (key.map getMask) file) (nextChunk_lowers limit _ file)
      { pos := 0, demuxer := .start }
  finish last.demuxer

end MoenotesAssets.Usm
