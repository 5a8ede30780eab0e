import MoenotesAssets.Usm.Extraction
import Mathlib.Data.List.Count

/-! What `extract` returns does not depend on how the chunks of different streams are
interleaved.
-/

namespace MoenotesAssets.Usm

open Foundation Foundation.Bytes Foundation.Demultiplex

-----------------------------------------------------------------------------------------
-- Pieces of a file
-----------------------------------------------------------------------------------------

/-- A piece whose size field says where it ends, whatever else it holds. -/
def Delimited (piece : List UInt8) : Prop :=
  8 ≤ piece.length ∧ bigEndian ((piece.drop 4).take 4) + 8 = piece.length

instance (piece : List UInt8) : Decidable (Delimited piece) :=
  inferInstanceAs (Decidable (_ ∧ _))

/-- The signature and the channel of a piece. -/
def streamKey (piece : List UInt8) : List UInt8 × Option UInt8 := (piece.take 4, piece[12]?)

/-- The pieces of one signature and channel, in their order. -/
def piecesOf (key : List UInt8 × Option UInt8) (pieces : List (List UInt8)) : List (List UInt8) :=
  pieces.filter fun piece => streamKey piece == key

/-- Two delimited pieces at the beginning of the same bytes are the same. -/
theorem Delimited.unique {piece other rest rest' : List UInt8} (ends : Delimited piece)
    (ends' : Delimited other) (same : piece ++ rest = other ++ rest')
    : piece = other ∧ rest = rest' := by
  have field : ∀ {piece : List UInt8} (rest : List UInt8), Delimited piece →
      (((piece ++ rest).drop 4).take 4) = (piece.drop 4).take 4 := by
    rintro piece rest ⟨long, -⟩
    rw [List.drop_append_of_le_length (by omega), List.take_append_of_le_length]
    rw [List.length_drop]
    omega
  refine List.append_inj same ?_
  rw [← ends.2, ← ends'.2, ← field rest ends, same, field rest' ends']

/-- Delimited pieces are determined by the bytes of the file, by induction on them. -/
theorem delimited_unique {pieces others : List (List UInt8)}
    (ends : ∀ piece ∈ pieces, Delimited piece) (ends' : ∀ piece ∈ others, Delimited piece)
    (same : pieces.flatten = others.flatten)
    : pieces = others := by
  have nonempty : ∀ {piece : List UInt8} {rest : List (List UInt8)},
      Delimited piece → (piece :: rest).flatten ≠ [] := by
    intro piece rest ends none
    obtain rfl := (List.append_eq_nil_iff.mp none).1
    exact absurd ends.1 (by decide)
  induction pieces generalizing others with
  | nil =>
      cases others with
      | nil => rfl
      | cons other rest => exact absurd same.symm (nonempty (ends' other List.mem_cons_self))
  | cons piece pieces ih =>
      obtain ⟨here, tail⟩ := List.forall_mem_cons.mp ends
      cases others with
      | nil => exact absurd same (nonempty here)
      | cons other rest =>
          obtain ⟨there, tail'⟩ := List.forall_mem_cons.mp ends'
          obtain ⟨rfl, later⟩ := here.unique there same
          rw [ih tail tail' later]

/-- The fields of a frame in its own bytes. -/
theorem Frame.fields (frame : Frame) : frame.Fields frame.bytes :=
  (Frame.take_eq (Nat.le_refl _)).mp List.take_length

/-- The bytes of a frame are delimited. -/
theorem Frame.delimited (frame : Frame) : Delimited frame.bytes := by
  have length := frame.bytes_length
  refine ⟨by omega, ?_⟩
  rw [frame.fields.size, frame.size_eq, length]
  omega

/-- A tag is determined by its bytes. -/
theorem Tag.bytes_injective : Function.Injective Tag.bytes := by
  intro tag other same
  exact Option.some.inj
    ((Tag.ofBytes_eq_some.mpr same).symm.trans (Tag.ofBytes_eq_some.mpr rfl))

/-- The chunk of a frame is determined by its bytes. -/
theorem Frame.chunk_factors : Function.FactorsThrough Frame.chunk Frame.bytes := by
  intro frame other same
  have fields := frame.fields
  have fields' := other.fields
  rw [same] at fields
  have tag := Tag.bytes_injective (fields.tag.symm.trans fields'.tag)
  have channel := List.singleton_inj.mp (fields.channel.symm.trans fields'.channel)
  have flags := List.singleton_inj.mp (fields.flags.symm.trans fields'.flags)
  have kind : frame.chunk.kind = other.chunk.kind := by
    rw [frame.kind_eq, other.kind_eq, flags]
  have size := frame.size_eq.symm.trans
    ((congrArg bigEndian (fields.size.symm.trans fields'.size)).trans other.size_eq)
  have header := frame.header_eq.symm.trans
    ((congrArg bigEndian (fields.header.symm.trans fields'.header)).trans other.header_eq)
  have padding := frame.padding_eq.symm.trans
    ((congrArg bigEndian (fields.padding.symm.trans fields'.padding)).trans other.padding_eq)
  have tails : frame.tail.length = other.tail.length := by omega
  have lengths : frame.chunk.payload.length = other.chunk.payload.length := by omega
  have payload : frame.chunk.payload = other.chunk.payload := by
    rw [← fields.payload, tails, lengths, fields'.payload]
  exact Chunk.ext tag channel kind payload

/-- The key of a frame names its stream. -/
theorem Frame.streamKey_eq (frame : Frame) (id : StreamId)
    : (streamKey frame.bytes == (id.signature.bytes, some id.channel))
      = (frame.chunk.id == some id) := by
  have length := frame.bytes_length
  have fields := frame.fields
  have channel : frame.bytes[12]? = some frame.chunk.channel := by
    have inside : 12 < frame.bytes.length := by omega
    have byte := (part_byte inside).symm.trans fields.channel
    rw [List.singleton_inj, List.getD_eq_getElem?_getD, List.getElem?_eq_getElem inside,
      Option.getD_some] at byte
    rw [List.getElem?_eq_getElem inside, byte]
  have tag : frame.chunk.tag.bytes = id.signature.bytes
      ↔ frame.chunk.tag = .stream id.signature :=
    Tag.bytes_injective.eq_iff (b := .stream id.signature)
  rw [Bool.eq_iff_iff, beq_iff_eq, beq_iff_eq, Chunk.id_eq_some, streamKey, fields.tag, channel,
    Prod.mk.injEq, Option.some.injEq, tag]

-----------------------------------------------------------------------------------------
-- Interleavings
-----------------------------------------------------------------------------------------

/-- Pieces that are frames, one by one. -/
theorem frames_of_pieces {pieces : List (List UInt8)}
    (framed : ∀ piece ∈ pieces, ∃ frame : Frame, frame.bytes = piece)
    : ∃ frames : List Frame, pieces = frames.map Frame.bytes := by
  induction pieces with
  | nil => exact ⟨[], rfl⟩
  | cons piece pieces ih =>
      obtain ⟨⟨frame, rfl⟩, rest⟩ := List.forall_mem_cons.mp framed
      obtain ⟨frames, rfl⟩ := ih rest
      exact ⟨frame :: frames, rfl⟩

/-- Pieces in equal groups are the same pieces. -/
theorem perm_of_groups {pieces others : List (List UInt8)}
    (same : ∀ key, piecesOf key pieces = piecesOf key others)
    : pieces.Perm others := by
  refine List.perm_iff_count.mpr fun piece => ?_
  have counted : ∀ pieces : List (List UInt8),
      pieces.count piece = (piecesOf (streamKey piece) pieces).count piece := by
    intro pieces
    rw [piecesOf, List.count_filter (by simp)]
  rw [counted pieces, counted others, same]

/-- A container stays one when its chunks after the directory are interleaved in another
way.
-/
theorem Container.reorder {limit : UInt64} {first : Chunk} {rest rest' : List Chunk}
    {tracks : Tracks} (container : Container limit (first :: rest) tracks)
    (permuted : rest.Perm rest')
    (same : ∀ id, itemsOf Chunk.id id rest = itemsOf Chunk.id id rest')
    : Container limit (first :: rest') tracks := by
  have members : ∀ {chunk : Chunk}, chunk ∈ first :: rest ↔ chunk ∈ first :: rest' :=
    (permuted.cons first).mem_iff
  obtain ⟨_, _, declared, split, tag, kind, others, declares, listed⟩ := container.directory
  obtain ⟨rfl, rfl⟩ := List.cons.inj split
  constructor
  case directory =>
    exact ⟨first, rest', declared, rfl, tag, kind,
      fun chunk member => others chunk (permuted.mem_iff.mpr member), declares, listed⟩
  case fits => exact fun chunk member => container.fits chunk (members.mpr member)
  case total =>
    have total := container.total
    rw [mediaSize_directory _ kind] at total ⊢
    have sizes := ((permuted.filter fun chunk => chunk.kind == 0).map Chunk.payload).map List.length
    rw [mediaSize, payloads, ← sizes.sum_nat]
    exact total
  case sorted => exact container.sorted
  case covered =>
    intro id
    rw [container.covered]
    exact exists_congr fun chunk => and_congr_left fun _ => members
  case spelled =>
    intro track member
    have spelled := container.spelled track member
    rw [itemsOf_directory _ tag] at spelled ⊢
    rwa [← same]
  case video => exact container.video
  case audio => exact container.audio
  case alpha => exact container.alpha

/-- What is extracted from one order of the pieces is extracted from another one. -/
theorem extract_of_reordered {first : List UInt8} {pieces pieces' : List (List UInt8)}
    {key : Option UInt64} {limit : UInt64} {result : List (Stream × List UInt8)}
    (ends : ∀ piece ∈ first :: pieces, Delimited piece)
    (same : ∀ key, piecesOf key pieces = piecesOf key pieces')
    (extracted : extract (first ++ pieces.flatten) key limit = .ok result)
    : extract (first ++ pieces'.flatten) key limit = .ok result := by
  obtain ⟨frames, tracks, tiles, container, rfl⟩ := extract_ok.mp extracted
  obtain ⟨decode, decodes⟩ : ∃ decode : List UInt8 → Chunk,
      ∀ frame : Frame, decode frame.bytes = frame.chunk :=
    ⟨Function.extend Frame.bytes Frame.chunk fun _ => ⟨.crid, 0, 0, []⟩,
      Frame.chunk_factors.extend_apply _⟩
  have chunks : ∀ frames : List Frame,
      frames.map Frame.chunk = (frames.map Frame.bytes).map decode := by
    intro frames
    rw [List.map_map]
    exact List.map_congr_left fun frame _ => (decodes frame).symm
  have framed : first :: pieces = frames.map Frame.bytes := by
    refine delimited_unique ends ?_ ?_
    · intro piece member
      obtain ⟨frame, -, rfl⟩ := List.mem_map.mp member
      exact frame.delimited
    · rw [← List.flatMap_def]
      exact tiles
  have permuted := perm_of_groups same
  have keyed : ∀ piece ∈ pieces, ∀ id,
      (streamKey piece == (id.signature.bytes, some id.channel))
        = ((decode piece).id == some id) := by
    intro piece member id
    obtain ⟨frame, -, rfl⟩ := List.mem_map.mp (framed ▸ List.mem_cons_of_mem first member)
    rw [decodes, frame.streamKey_eq]
  have grouped : ∀ {pieces : List (List UInt8)},
      (∀ piece ∈ pieces, ∀ id,
        (streamKey piece == (id.signature.bytes, some id.channel))
          = ((decode piece).id == some id)) →
      ∀ id, itemsOf Chunk.id id (pieces.map decode)
        = (piecesOf (id.signature.bytes, some id.channel) pieces).map decode := by
    intro pieces keyed id
    rw [itemsOf, List.filter_map, piecesOf]
    refine congrArg (List.map decode) (List.filter_congr fun piece member => ?_)
    exact (keyed piece member id).symm
  have items : ∀ id, itemsOf Chunk.id id (pieces.map decode)
      = itemsOf Chunk.id id (pieces'.map decode) := by
    intro id
    rw [grouped keyed, same,
      grouped fun piece member => keyed piece (permuted.mem_iff.mpr member)]
  have pieceFrames : ∀ piece ∈ first :: pieces', ∃ frame : Frame, frame.bytes = piece := by
    intro piece member
    have place := framed ▸ (permuted.cons first).mem_iff.mpr member
    obtain ⟨frame, -, bytes⟩ := List.mem_map.mp place
    exact ⟨frame, bytes⟩
  obtain ⟨frames', framed'⟩ := frames_of_pieces pieceFrames
  rw [chunks, ← framed, List.map_cons] at container ⊢
  have container' := container.reorder (permuted.map decode) items
  obtain ⟨_, _, _, split, tag, -⟩ := container.directory
  obtain ⟨rfl, -⟩ := List.cons.inj split
  refine extract_ok.mpr ⟨frames', tracks, ?_, ?_, ?_⟩
  · rw [Tiles, List.flatMap_def, ← framed', List.flatten_cons]
  · rw [chunks, ← framed', List.map_cons]
    exact container'
  · rw [chunks frames', ← framed', List.map_cons]
    refine List.map_congr_left fun track _ => ?_
    rw [trackOutput, trackOutput, itemsOf_directory _ tag, itemsOf_directory _ tag, items]

/-- Two files that start with the same piece and hold the same pieces of every signature and
channel in the same order are both refused, or have the same streams extracted.
-/
theorem extract_reordered {first : List UInt8} {pieces pieces' : List (List UInt8)}
    (ends : ∀ piece ∈ first :: pieces, Delimited piece)
    (same : ∀ key, piecesOf key pieces = piecesOf key pieces') (key : Option UInt64)
    (limit : UInt64)
    (result : List (Stream × List UInt8))
    : extract (first ++ pieces.flatten) key limit = .ok result
      ↔ extract (first ++ pieces'.flatten) key limit = .ok result := by
  constructor
  · exact extract_of_reordered ends same
  · refine extract_of_reordered ?_ fun key => (same key).symm
    intro piece member
    exact ends piece (((perm_of_groups same).cons first).mem_iff.mpr member)

/-- Both orders of the two streams are extracted alike. -/
theorem extract_reordered_two_streams
    : ∃ result,
        extract (directoryPiece ++ (videoPieces ++ audioPieces).flatten) none 1000 = .ok result
        ∧ extract (directoryPiece ++ (audioPieces ++ videoPieces).flatten) none 1000
          = .ok result := by
  have accepted : (extract (directoryPiece ++ (videoPieces ++ audioPieces).flatten) none
      1000).isOk = true := by decide +kernel
  obtain ⟨result, extracted⟩ := ok_of_isOk accepted
  have ends : ∀ piece ∈ directoryPiece :: (videoPieces ++ audioPieces), Delimited piece := by
    decide +kernel
  have apart : ∀ key, piecesOf key videoPieces = [] ∨ piecesOf key audioPieces = [] := by
    intro key
    by_cases video : key = (Signature.sfv.bytes, some 0)
    · subst video
      exact Or.inr (by decide +kernel)
    · refine Or.inl (List.filter_eq_nil_iff.mpr fun piece member own => video ?_)
      have named : ∀ piece ∈ videoPieces, streamKey piece = (Signature.sfv.bytes, some 0) := by
        decide +kernel
      rw [← beq_iff_eq.mp own, named piece member]
  have same : ∀ key, piecesOf key (videoPieces ++ audioPieces)
      = piecesOf key (audioPieces ++ videoPieces) := by
    intro key
    have split : ∀ pieces others : List (List UInt8),
        piecesOf key (pieces ++ others) = piecesOf key pieces ++ piecesOf key others :=
      fun _ _ => List.filter_append _ _
    rw [split, split]
    rcases apart key with none | none <;> simp [none]
  exact ⟨result, extracted, (extract_reordered ends same none 1000 result).mp extracted⟩

end MoenotesAssets.Usm
