import MoenotesAssets.Foundation.Demultiplex
import MoenotesAssets.Usm.Container

/-! The container grammar, apart from the code that enforces it: frames of chunks that tile
a file, the directory, and the tracks whose chunks are interleaved.
-/

namespace MoenotesAssets.Usm

open Foundation Foundation.Bytes Foundation.Demultiplex

-----------------------------------------------------------------------------------------
-- Frames
-----------------------------------------------------------------------------------------

/-- The bytes that hold a chunk. The header field counts the bytes from offset 8 to the
payload, and the size field those from offset 8 to the end.
-/
structure Frame where
  chunk : Chunk
  size : List UInt8
  header : List UInt8
  padding : List UInt8
  spare : List UInt8
  flags : UInt8
  tail : List UInt8
  trailer : List UInt8
  size_length : size.length = 4
  header_length : header.length = 2
  padding_length : padding.length = 2
  spare_length : spare.length = 2
  kind_eq : chunk.kind = (flags &&& 3).toNat
  tail_length : 16 ≤ tail.length
  size_eq : bigEndian size = 8 + tail.length + chunk.payload.length + trailer.length
  header_eq : bigEndian header = 8 + tail.length
  padding_eq : bigEndian padding = trailer.length

/-- The bytes of a frame, in the order of the file. -/
def Frame.bytes (frame : Frame) : List UInt8 :=
  frame.chunk.tag.bytes
  ++ (frame.size
  ++ (frame.header
  ++ (frame.padding
  ++ ([frame.chunk.channel]
  ++ (frame.spare
  ++ ([frame.flags] ++ (frame.tail ++ (frame.chunk.payload ++ frame.trailer))))))))

/-- The frames tile the file. -/
def Tiles (frames : List Frame) (file : List UInt8) : Prop := file = frames.flatMap Frame.bytes

/-- The payload is within the budget of its kind. -/
def Chunk.Fits (limit : UInt64) (chunk : Chunk) : Prop :=
  chunk.payload.length ≤ limit.toNat ∧ (chunk.kind = 0 ∨ chunk.payload.length ≤ 16 * 2 ^ 20)

-----------------------------------------------------------------------------------------
-- Tracks
-----------------------------------------------------------------------------------------

/-- The stream that a chunk belongs to. -/
def Chunk.id (chunk : Chunk) : Option StreamId :=
  match chunk.tag with
  | .crid => none
  | .stream signature => some { signature, channel := chunk.channel }

/-- A chunk that ends its stream. -/
def Chunk.IsEnd (chunk : Chunk) : Prop := chunk.kind = 2 ∧ contentsEnd <+: chunk.payload

/-- A chunk that is only checked: another marker or a table. -/
def Chunk.IsNote (chunk : Chunk) : Prop :=
  chunk.kind = 2
    ∧ ¬contentsEnd <+: chunk.payload
    ∧ (headerEnd <+: chunk.payload ∨ metadataEnd <+: chunk.payload)
  ∨ chunk.kind = 3 ∧ ∃ content, table chunk.payload = .ok content

/-- The payloads of the chunks of kind 0, in the order of the file. -/
def payloads (chunks : List Chunk) : List (List UInt8) :=
  (chunks.filter fun chunk => chunk.kind == 0).map Chunk.payload

/-- The bytes of the payloads of kind 0. -/
def mediaSize (chunks : List Chunk) : Nat := ((payloads chunks).map List.length).sum

/-- (IsHeader id payload stream) holds when the payload is a header table for the signature of
the stream, which leaves `stream`: the codec of a sound, 2 unless the table has another one,
or the shape of a video.
-/
inductive IsHeader (id : StreamId) (payload : List UInt8) : Stream → Prop where
  | audio {fields : Std.TreeMap String Nat} {codec : Nat}
    (own : id.signature = .sfa)
    (content : table payload = .ok ("AUDIO_HDRINFO", fields))
    (named : fields["audio_codec"]?.getD 2 = codec)
    (known : codec = 2 ∨ codec = 4)
    : IsHeader id payload { (Pending.create id).stream with audioCodec := some codec }
  | video {fields : Std.TreeMap String Nat} {info : VideoInfo}
    (own : id.signature = .sfv ∨ id.signature = .alp)
    (content : table payload = .ok ("VIDEO_HDRINFO", fields))
    (shown : VideoInfo.fromTable fields = .ok info)
    : IsHeader id payload { (Pending.create id).stream with video := some info }

/-- (IsTrack id chunks stream) holds when the chunks of a stream are notes, its one header,
which yields `stream`, payloads among notes, and the end.
-/
def IsTrack (id : StreamId) (chunks : List Chunk) (stream : Stream) : Prop :=
  ∃ lead header body last,
    chunks = lead ++ header :: body ++ [last]
    ∧ (∀ chunk ∈ lead, chunk.IsNote)
    ∧ header.kind = 1
    ∧ IsHeader id header.payload stream
    ∧ (∀ chunk ∈ body, chunk.kind = 0 ∨ chunk.IsNote)
    ∧ (∃ chunk ∈ body, chunk.kind = 0)
    ∧ last.IsEnd

/-- (Declares payload declared) holds when the rows of the directory name the streams
`declared`, each once.
-/
def Declares (payload : List UInt8) (declared : List StreamId) : Prop :=
  ∃ fields count rows,
    table payload = .ok ("CRIUSF_DIR_STREAM", fields)
    ∧ be32 payload 28 = .ok count
    ∧ count ≤ 4
    ∧ List.Forall₂ (fun index row => rowStream payload index = .ok row) (List.range count) rows
    ∧ declared = rows.filterMap id
    ∧ declared.Nodup

-----------------------------------------------------------------------------------------
-- Containers
-----------------------------------------------------------------------------------------

/-- The streams of a container after their headers, by key. -/
abbrev Tracks := List (StreamId × Stream)

/-- The number of tracks of a signature. -/
def Tracks.count (tracks : Tracks) (signature : Signature) : Nat :=
  (tracks.filter fun track => track.1.signature == signature).length

/-- The chunks of a container and its tracks in ascending order. -/
structure Container (limit : UInt64) (chunks : List Chunk) (tracks : Tracks) : Prop where
  directory
    : ∃ first rest declared,
        chunks = first :: rest
        ∧ first.tag = .crid
        ∧ first.kind = 1
        ∧ (∀ chunk ∈ rest, chunk.tag ≠ .crid)
        ∧ Declares first.payload declared
        ∧ (declared = [] ∨ ∀ {id : StreamId}, id ∈ declared ↔ id ∈ tracks.map Prod.fst)
  fits : ∀ chunk ∈ chunks, chunk.Fits limit
  total : mediaSize chunks ≤ limit.toNat
  sorted : tracks.Pairwise fun track other => track.1.rank < other.1.rank
  covered
    : ∀ {id : StreamId}, id ∈ tracks.map Prod.fst ↔ ∃ chunk ∈ chunks, chunk.id = some id
  spelled : ∀ track ∈ tracks, IsTrack track.1 (itemsOf Chunk.id track.1 chunks) track.2
  video : tracks.count .sfv = 1
  audio : tracks.count .sfa ≤ 1
  alpha : tracks.count .alp ≤ 1

/-- What a payload holds under the masks: without a key what stands there, with one a video
and its alpha under the video mask, and a sound under the audio mask if its codec is 2.
-/
def unmasked : Option Masks → Signature → Option Nat → List UInt8 → List UInt8
  | none, _, _, payload => payload
  | some masks, .sfv, _, payload => maskVideo payload masks.video
  | some masks, .alp, _, payload => maskVideo payload masks.video
  | some masks, .sfa, some 2, payload => maskAudio payload masks.audio
  | some _, .sfa, _, payload => payload

/-- The stream of a track and the bytes of its file: what the payloads of its own chunks hold
under the masks.
-/
def trackOutput (masks : Option Masks) (chunks : List Chunk) (track : StreamId × Stream)
    : Stream × List UInt8 :=
  let own := payloads (itemsOf Chunk.id track.1 chunks)
  (
    { track.2 with chunks := own.length },
    own.flatMap (unmasked masks track.1.signature track.2.audioCodec)
  )

end MoenotesAssets.Usm
