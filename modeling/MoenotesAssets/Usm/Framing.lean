import MoenotesAssets.Usm.Grammar

/-! Reading chunks: the loop of `extract` reads the frames that tile the file, and takes in
their chunks one by one.
-/

namespace MoenotesAssets.Usm

open Foundation Foundation.Bytes Foundation.Machine

-----------------------------------------------------------------------------------------
-- Frames
-----------------------------------------------------------------------------------------

/-- The signature of four bytes is the one that they spell. -/
theorem Signature.ofBytes_eq_some {bytes : List UInt8} {signature : Signature}
    : Signature.ofBytes bytes = some signature ↔ signature.bytes = bytes := by
  constructor
  · intro found
    simpa using List.find?_some found
  · rintro rfl
    cases signature <;> decide

/-- The tag of four bytes is the one that they spell. -/
theorem Tag.ofBytes_eq_some {bytes : List UInt8} {tag : Tag}
    : Tag.ofBytes bytes = some tag ↔ tag.bytes = bytes := by
  rw [Tag.ofBytes]
  split
  · rename_i crid
    subst crid
    cases tag with
    | crid => simp
    | stream signature =>
        simp only [Option.some.injEq, reduceCtorEq, false_iff]
        cases signature <;> decide
  · rename_i other
    rw [Option.map_eq_some_iff]
    cases tag with
    | crid => simpa using Ne.symm other
    | stream signature => simp [Signature.ofBytes_eq_some, Tag.bytes]

/-- A tag has four bytes. -/
theorem Tag.bytes_length (tag : Tag) : tag.bytes.length = 4 := by
  cases tag with
  | crid => rfl
  | stream signature => cases signature <;> rfl

/-- The first sixteen bytes of a frame, and what follows them. -/
theorem Frame.bytes_length (frame : Frame)
    : frame.bytes.length
      = 16 + frame.tail.length + frame.chunk.payload.length + frame.trailer.length := by
  simp only [Frame.bytes, List.length_append, Tag.bytes_length, frame.size_length,
    frame.header_length, frame.padding_length, frame.spare_length, List.length_singleton]
  omega

/-- A frame at the beginning of `bytes`, field by field. -/
structure Frame.Fields (frame : Frame) (bytes : List UInt8) : Prop where
  tag : bytes.take 4 = frame.chunk.tag.bytes
  size : (bytes.drop 4).take 4 = frame.size
  header : (bytes.drop 8).take 2 = frame.header
  padding : (bytes.drop 10).take 2 = frame.padding
  channel : (bytes.drop 12).take 1 = [frame.chunk.channel]
  spare : (bytes.drop 13).take 2 = frame.spare
  flags : (bytes.drop 15).take 1 = [frame.flags]
  tail : (bytes.drop 16).take frame.tail.length = frame.tail
  payload
    : (bytes.drop (16 + frame.tail.length)).take frame.chunk.payload.length
      = frame.chunk.payload
  trailer
    : (bytes.drop (16 + frame.tail.length + frame.chunk.payload.length)).take
        frame.trailer.length
      = frame.trailer

/-- The first bytes, cut where the fields of a frame are. -/
theorem take_cut (bytes : List UInt8) (tail payload trailer : Nat)
    : bytes.take (16 + tail + payload + trailer)
      = bytes.take 4
        ++ ((bytes.drop 4).take 4
        ++ ((bytes.drop 8).take 2
        ++ ((bytes.drop 10).take 2
        ++ ((bytes.drop 12).take 1
        ++ ((bytes.drop 13).take 2
        ++ ((bytes.drop 15).take 1
        ++ ((bytes.drop 16).take tail
        ++ ((bytes.drop (16 + tail)).take payload
        ++ (bytes.drop (16 + tail + payload)).take trailer)))))))) := by
  have sum : 16 + tail + payload + trailer
      = 4 + (4 + (2 + (2 + (1 + (2 + (1 + (tail + (payload + trailer)))))))) := by omega
  rw [sum, List.take_add]
  simp only [part_cut]

/-- The first bytes are a frame when its fields are there. -/
theorem Frame.take_eq {frame : Frame} {bytes : List UInt8}
    (room : frame.bytes.length ≤ bytes.length)
    : bytes.take frame.bytes.length = frame.bytes ↔ frame.Fields bytes := by
  have length := frame.bytes_length
  have part : ∀ {start size : Nat}, start + size ≤ frame.bytes.length →
      ((bytes.drop start).take size).length = size := by
    intro start size inside
    rw [List.length_take, List.length_drop]
    omega
  have tails := frame.tail_length
  rw [length, take_cut]
  constructor
  · intro same
    rw [Frame.bytes] at same
    obtain ⟨tag, same⟩ := List.append_inj same (by
      rw [Tag.bytes_length, List.length_take]
      omega)
    obtain ⟨size, same⟩ := List.append_inj same (by rw [part (by omega), frame.size_length])
    obtain ⟨header, same⟩ :=
      List.append_inj same (by rw [part (by omega), frame.header_length])
    obtain ⟨padding, same⟩ :=
      List.append_inj same (by rw [part (by omega), frame.padding_length])
    obtain ⟨channel, same⟩ := List.append_inj same (by rw [part (by omega)]; rfl)
    obtain ⟨spare, same⟩ :=
      List.append_inj same (by rw [part (by omega), frame.spare_length])
    obtain ⟨flags, same⟩ := List.append_inj same (by rw [part (by omega)]; rfl)
    obtain ⟨tail, same⟩ := List.append_inj same (by rw [part (by omega)])
    obtain ⟨payload, trailer⟩ := List.append_inj same (by rw [part (by omega)])
    exact ⟨tag, size, header, padding, channel, spare, flags, tail, payload, trailer⟩
  · intro fields
    rw [fields.tag, fields.size, fields.header, fields.padding, fields.channel, fields.spare,
      fields.flags, fields.tail, fields.payload, fields.trailer, Frame.bytes]

/-- What `readChunk` finds at `pos` is a frame. -/
theorem readChunk_frame {limit : UInt64} {file : List UInt8} {pos n : Nat} {chunk : Chunk}
    (read : readChunk limit file pos = .ok (chunk, n))
    : ∃ frame : Frame,
        frame.chunk = chunk
        ∧ frame.bytes.length = n
        ∧ pos + n ≤ file.length
        ∧ (file.drop pos).take n = frame.bytes
        ∧ (pos ≠ 0 ∨ chunk.tag = .crid)
        ∧ chunk.Fits limit := by
  simp only [readChunk, bind_ok, ensure_ok, context_ok, subSize_ok, slice_eq_some, pure_ok,
    Prod.mk.injEq, Bool.and_eq_true, Bool.or_eq_true, decide_eq_true_eq, bne_iff_ne,
    beq_iff_eq] at read
  obtain ⟨h, ⟨-, inside, start⟩, _, big, space, ⟨rfl, before⟩, _, ⟨below, long⟩, body, ⟨rfl, -⟩,
    _, within, tag, tagged, _, first, rest, ⟨rfl, -⟩, len, ⟨rfl, -⟩, _, budget, payload,
    ⟨-, ends, bytes⟩, rfl, rfl⟩ := read
  rw [Nat.add_sub_cancel_left] at start
  obtain ⟨L, named⟩ : ∃ L, L = file.drop pos := ⟨_, rfl⟩
  have room : L.length = file.length - pos := by rw [named, List.length_drop]
  rw [← named] at start
  subst start
  simp only [part_take, byte_take, Nat.reduceAdd, Nat.reduceLeDiff, Nat.reduceLT,
    Nat.add_sub_cancel, Nat.add_sub_cancel_left] at *
  obtain ⟨S, sized⟩ : ∃ S, bigEndian ((L.drop 4).take 4) = S := ⟨_, rfl⟩
  obtain ⟨H, headed⟩ : ∃ H, bigEndian ((L.drop 8).take 2) = H := ⟨_, rfl⟩
  obtain ⟨P, padded⟩ : ∃ P, bigEndian ((L.drop 10).take 2) = P := ⟨_, rfl⟩
  rw [sized] at big below ⊢
  rw [headed] at long
  rw [sized, headed, padded] at within budget ends bytes
  have spelled : tag.bytes = L.take 4 := by
    simpa [List.take_take] using Tag.ofBytes_eq_some.mp tagged
  have part : ∀ {start size : Nat}, start + size ≤ L.length →
      ((L.drop start).take size).length = size := by
    intro start size inside
    rw [List.length_take, List.length_drop]
    omega
  have moved : payload = (L.drop (8 + H)).take (S - H - P) := by
    rw [← bytes, named, List.drop_drop]
    congr 2
    omega
  have held : payload.length = S - H - P := by rw [moved, part (by omega)]
  have tails : ((L.drop 16).take (H - 8)).length = H - 8 := part (by omega)
  have trailers : ((L.drop (8 + (S - P))).take P).length = P := part (by omega)
  let frame : Frame :=
    {
      chunk := { tag, channel := L.getD 12 0, kind := (L.getD 15 0 &&& 3).toNat, payload }
      size := (L.drop 4).take 4
      header := (L.drop 8).take 2
      padding := (L.drop 10).take 2
      spare := (L.drop 13).take 2
      flags := L.getD 15 0
      tail := (L.drop 16).take (H - 8)
      trailer := (L.drop (8 + (S - P))).take P
      size_length := part (by omega)
      header_length := part (by omega)
      padding_length := part (by omega)
      spare_length := part (by omega)
      kind_eq := rfl
      tail_length := by omega
      size_eq := by dsimp only; omega
      header_eq := by omega
      padding_eq := by rw [padded, trailers]
    }
  have length : frame.bytes.length = S + 8 := by
    rw [frame.bytes_length]
    dsimp only [frame]
    omega
  refine ⟨frame, rfl, length, by omega, ?_, first, ?_⟩
  · rw [← named, ← length]
    refine (Frame.take_eq (by omega)).mpr ?_
    constructor
    case tag => exact spelled.symm
    case channel => exact part_byte (by omega)
    case flags => exact part_byte (by omega)
    case tail => rw [tails]
    case payload =>
      dsimp only [frame]
      rw [tails, held, moved]
      congr 2
      omega
    case trailer =>
      dsimp only [frame]
      rw [tails, held, trailers]
      congr 2
      omega
    all_goals rfl
  · rw [← held] at budget
    exact budget

/-- A frame at `pos` is what `readChunk` finds. -/
theorem readChunk_of_frame {limit : UInt64} {file : List UInt8} {pos : Nat} {frame : Frame}
    (room : pos + frame.bytes.length ≤ file.length)
    (place : (file.drop pos).take frame.bytes.length = frame.bytes)
    (first : pos ≠ 0 ∨ frame.chunk.tag = .crid) (fits : frame.chunk.Fits limit)
    : readChunk limit file pos = .ok (frame.chunk, frame.bytes.length) := by
  obtain ⟨L, named⟩ : ∃ L, L = file.drop pos := ⟨_, rfl⟩
  have long : L.length = file.length - pos := by rw [named, List.length_drop]
  have length := frame.bytes_length
  have tails := frame.tail_length
  have fields := (Frame.take_eq (by omega)).mp (named ▸ place)
  have opened : slice file pos (pos + 32) = some (L.take 32) :=
    slice_eq_some.mpr ⟨by omega, by omega, by rw [Nat.add_sub_cancel_left, named]⟩
  have spelled : (L.take 32).take 4 = frame.chunk.tag.bytes := by
    rw [List.take_take]
    exact fields.tag
  have sized : bigEndian (((L.take 32).drop 4).take 4)
      = 8 + frame.tail.length + frame.chunk.payload.length + frame.trailer.length := by
    rw [part_take L (by omega), fields.size, frame.size_eq]
  have headed : bigEndian (((L.take 32).drop 8).take 2) = 8 + frame.tail.length := by
    rw [part_take L (by omega), fields.header, frame.header_eq]
  have padded : bigEndian (((L.take 32).drop 10).take 2) = frame.trailer.length := by
    rw [part_take L (by omega), fields.padding, frame.padding_eq]
  have channel : (L.take 32).getD 12 0 = frame.chunk.channel := by
    rw [byte_take L (by omega)]
    exact List.singleton_inj.mp ((part_byte (by omega)).symm.trans fields.channel)
  have kind : ((L.take 32).getD 15 0 &&& 3).toNat = frame.chunk.kind := by
    rw [byte_take L (by omega), frame.kind_eq]
    have flags := List.singleton_inj.mp ((part_byte (by omega)).symm.trans fields.flags)
    rw [flags]
  have rest : 8 + frame.tail.length + frame.chunk.payload.length + frame.trailer.length + 8 - 8
      - (8 + frame.tail.length) - frame.trailer.length = frame.chunk.payload.length := by
    omega
  have payload : slice file (pos + 8 + (8 + frame.tail.length))
      (pos + 8 + (8 + frame.tail.length) + frame.chunk.payload.length)
      = some frame.chunk.payload := by
    refine slice_eq_some.mpr ⟨by omega, by omega, ?_⟩
    have start : pos + 8 + (8 + frame.tail.length) = pos + (16 + frame.tail.length) := by omega
    rw [Nat.add_sub_cancel_left, start, ← List.drop_drop, ← named, fields.payload]
  simp only [readChunk, bind_ok, ensure_ok, context_ok, subSize_ok, pure_ok, Prod.mk.injEq,
    Bool.and_eq_true, Bool.or_eq_true, decide_eq_true_eq, bne_iff_ne, beq_iff_eq]
  refine ⟨_, opened, (), ?_, _, ⟨rfl, ?_⟩, (), ⟨?_, ?_⟩, _, ⟨rfl, ?_⟩, (), ?_, frame.chunk.tag,
    Tag.ofBytes_eq_some.mpr spelled.symm, (), first, _, ⟨rfl, ?_⟩, _, ⟨rfl, ?_⟩, (), ?_,
    frame.chunk.payload, ?_, ?_, ?_⟩
  all_goals try simp only [sized, headed, padded, channel, kind, rest]
  case refine_9 => exact fits
  case refine_10 => exact payload
  all_goals omega

-----------------------------------------------------------------------------------------
-- The loop
-----------------------------------------------------------------------------------------

/-- What `readChunk` checks of all chunks: they are within budget, and the first one is the
directory.
-/
structure Framed (limit : UInt64) (chunks : List Chunk) : Prop where
  fits : ∀ chunk ∈ chunks, chunk.Fits limit
  first : ∀ chunk ∈ chunks.head?, chunk.tag = .crid

/-- Another chunk within budget. -/
theorem Framed.push {limit : UInt64} {chunks : List Chunk} {chunk : Chunk}
    (framed : Framed limit chunks) (fits : chunk.Fits limit)
    (first : chunks = [] → chunk.tag = .crid)
    : Framed limit (chunks ++ [chunk]) := by
  constructor
  case fits =>
    intro other member
    rcases List.mem_append.mp member with before | last
    · exact framed.fits other before
    · exact List.mem_singleton.mp last ▸ fits
  case first =>
    intro other head
    cases chunks with
    | nil => exact Option.mem_some_iff.mp head ▸ first rfl
    | cons initial rest => exact framed.first other head

/-- What holds after the frames that were read. -/
def Position.Reads (limit : UInt64) (masks : Option Masks) (file : List UInt8)
    (position : Position)
    : Prop :=
  ∃ frames,
    Tiles frames (file.take position.pos)
    ∧ position.pos ≤ file.length
    ∧ Framed limit (frames.map Frame.chunk)
    ∧ (frames.map Frame.chunk).foldlM (absorb limit masks) .start = .ok position.demuxer

/-- A round reads another frame. -/
theorem Position.Reads.round {limit : UInt64} {masks : Option Masks} {file : List UInt8}
    {position after : Position} (reads : position.Reads limit masks file)
    (round : nextChunk limit masks file position = .ok (some after))
    : after.Reads limit masks file := by
  obtain ⟨frames, tiles, inside, framed, folded⟩ := reads
  obtain ⟨-, chunk, n, demuxer, read, absorbed, rfl⟩ := nextChunk_continues.mp round
  obtain ⟨frame, rfl, -, room, bytes, first, fits⟩ := readChunk_frame read
  refine ⟨frames ++ [frame], ?_, room, ?_, ?_⟩
  · rw [Tiles] at tiles ⊢
    rw [List.take_add, tiles, bytes, List.flatMap_append, List.flatMap_singleton]
  · rw [List.map_append, List.map_singleton]
    refine framed.push fits fun empty => first.resolve_left ?_
    obtain rfl := List.map_eq_nil_iff.mp empty
    rw [Tiles, List.flatMap_nil, List.take_eq_nil_iff] at tiles
    rcases tiles with zero | nothing
    · exact not_not.mpr zero
    · rw [nothing, List.length_nil] at inside
      exact not_not.mpr (Nat.le_zero.mp inside)
  · rw [List.map_append, List.map_singleton, List.foldlM_append]
    simp only [folded, List.foldlM_cons, List.foldlM_nil, bind_ok, pure_ok]
    exact ⟨_, rfl, _, absorbed, rfl⟩

/-- The rounds that read the rest of the frames, by induction on the rest. -/
theorem rounds_of_frames {limit : UInt64} {masks : Option Masks} {file : List UInt8}
    {done rest : List Frame} {demuxer last : Demuxer} (tiles : Tiles (done ++ rest) file)
    (framed : Framed limit ((done ++ rest).map Frame.chunk))
    (folded : (rest.map Frame.chunk).foldlM (absorb limit masks) demuxer = .ok last)
    : Rounds (nextChunk limit masks file)
        { pos := (done.flatMap Frame.bytes).length, demuxer }
        rest.length
        (.ok { pos := file.length, demuxer := last }) := by
  induction rest generalizing done demuxer with
  | nil =>
      obtain rfl := pure_ok.mp folded
      rw [Tiles, List.append_nil] at tiles
      rw [← tiles]
      exact .stopped (if_pos (Nat.le_refl _))
  | cons frame rest ih =>
      rw [List.map_cons, List.foldlM_cons] at folded
      obtain ⟨middle, absorbed, folded⟩ := bind_ok.mp folded
      have split : file
          = done.flatMap Frame.bytes ++ (frame.bytes ++ rest.flatMap Frame.bytes) := by
        rw [tiles, List.flatMap_append, List.flatMap_cons]
      have sum := congrArg List.length split
      rw [List.length_append, List.length_append] at sum
      have size := frame.bytes_length
      have moved : done ++ frame :: rest = done ++ [frame] ++ rest := by simp
      have next := ih (moved ▸ tiles) (moved ▸ framed) folded
      rw [List.flatMap_append, List.flatMap_singleton, List.length_append] at next
      refine .continued (nextChunk_continues.mpr ⟨?_, frame.chunk, frame.bytes.length, middle,
        readChunk_of_frame ?_ ?_ ?_ ?_, absorbed, rfl⟩) next
      · dsimp only
        omega
      · dsimp only
        omega
      · rw [split, List.drop_left, List.take_left]
      · cases done with
        | nil => exact Or.inr (framed.first _ (by simp))
        | cons initial others =>
            refine Or.inl ?_
            have initially := initial.bytes_length
            dsimp only
            rw [List.flatMap_cons, List.length_append]
            omega
      · exact framed.fits _ (by simp)

/-- The loop of `extract` succeeds when frames tile the file and their chunks are taken in. -/
theorem loop_ok {limit : UInt64} {masks : Option Masks} {file : List UInt8} {last : Position}
    : loop (nextChunk limit masks file) (nextChunk_lowers limit masks file)
          { pos := 0, demuxer := .start }
        = .ok last
      ↔ ∃ frames,
          Tiles frames file
          ∧ Framed limit (frames.map Frame.chunk)
          ∧ (frames.map Frame.chunk).foldlM (absorb limit masks) .start = .ok last.demuxer
          ∧ last.pos = file.length := by
  constructor
  · intro looped
    have start : Position.Reads limit masks file { pos := 0, demuxer := .start } :=
      ⟨[], rfl, Nat.zero_le _, ⟨by simp, by simp⟩, rfl⟩
    obtain ⟨⟨frames, tiles, inside, framed, folded⟩, stopped⟩ :=
      loop_invariant looped (fun reads round => reads.round round) start
    rw [nextChunk] at stopped
    split at stopped
    · rename_i behind
      rw [List.take_of_length_le behind] at tiles
      exact ⟨frames, tiles, framed, folded, Nat.le_antisymm inside behind⟩
    · simp only [bind_ok, pure_ok, reduceCtorEq, and_false, exists_false] at stopped
  · rintro ⟨frames, tiles, framed, folded, ended⟩
    obtain ⟨pos, demuxer⟩ := last
    obtain rfl : pos = file.length := ended
    have rounds := @rounds_of_frames limit masks file [] frames .start demuxer tiles framed folded
    obtain ⟨_, -, own⟩ := loop_rounds (nextChunk_lowers limit masks file)
      { pos := 0, demuxer := .start }
    exact (own.unique rounds).2

end MoenotesAssets.Usm
