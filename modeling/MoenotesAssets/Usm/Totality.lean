import MoenotesAssets.Usm.Framing

/-! No step of `extract` panics: every subtraction is guarded by a check, every stream is
there when it is looked up, and no chunk has a fifth kind.
-/

namespace MoenotesAssets.Usm

open Foundation Foundation.Bytes Foundation.Machine

-----------------------------------------------------------------------------------------
-- Tables
-----------------------------------------------------------------------------------------

/-- Reading two bytes does not panic. -/
theorem noPanic_be16 (b : List UInt8) (p : Nat) : NoPanic (be16 b p) :=
  .bind (.context _ _) fun _ => .value _

/-- Reading four bytes does not panic. -/
theorem noPanic_be32 (b : List UInt8) (p : Nat) : NoPanic (be32 b p) :=
  .bind (.context _ _) fun _ => .value _

/-- Reading a text does not panic. -/
theorem noPanic_string (b : List UInt8) (p stop : Nat) : NoPanic (string b p stop) := by
  refine .bind (.context _ _) fun _ => ?_
  refine .bind (.context _ _) fun _ => ?_
  refine .bind (.ensure _ _) fun _ => ?_
  exact .context _ _

/-- A column type without a size is an error. -/
theorem noPanic_columnSize (kind : Nat) : NoPanic (columnSize kind) := by
  unfold columnSize
  repeat' split
  all_goals first | exact .value _ | exact .error _

/-- A column without a place is an error. -/
theorem noPanic_columnPlace (layout : Layout) (storage : UInt8) (size schema row : Nat)
    : NoPanic (columnPlace layout storage size schema row) := by
  unfold columnPlace
  split
  · exact .value _
  · split
    · exact .bind (.ensure _ _) fun _ => .value _
    · split
      · exact .bind (.ensure _ _) fun _ => .value _
      · exact .error _

/-- Reading a value does not panic when the offsets of the table are in order. -/
theorem noPanic_columnValue {layout : Layout} (ordered : layout.data ≤ layout.stop)
    (b : List UInt8) (kind size : Nat) (name : String) (place : Option Nat) (out : Fields)
    : NoPanic (columnValue b layout kind size name place out) := by
  unfold columnValue
  split
  · exact .value _
  · refine .bind (.context _ _) fun _ => ?_
    split
    · exact .value _
    · split
      · refine .bind (noPanic_be32 _ _) fun _ => ?_
        exact .bind (.ensure _ _) fun _ => .value _
      · split
        · refine .bind (noPanic_be32 _ _) fun _ => ?_
          refine .bind (noPanic_be32 _ _) fun _ => ?_
          refine .bind (noPanic_subSize ordered) fun _ => ?_
          refine .bind (.ensure _ _) fun checked => ?_
          rw [ensure_ok, decide_eq_true_eq] at checked
          refine .bind (noPanic_subSize checked) fun _ => ?_
          exact .bind (.ensure _ _) fun _ => .value _
        · exact .value _

/-- Reading a column does not panic when the offsets of the table are in order. -/
theorem noPanic_readColumn {layout : Layout} (ordered : layout.data ≤ layout.stop)
    (b : List UInt8) (columns : Columns)
    : NoPanic (readColumn b layout columns) := by
  refine .bind (.context _ _) fun _ => ?_
  refine .bind (noPanic_be32 _ _) fun _ => ?_
  refine .bind (noPanic_string _ _ _) fun _ => ?_
  refine .bind (noPanic_columnSize _) fun _ => ?_
  refine .bind (noPanic_columnPlace _ _ _ _ _) fun _ => ?_
  refine .bind (noPanic_columnValue ordered _ _ _ _ _ _) fun _ => ?_
  exact .bind (.ensure _ _) fun _ => .value _

/-- Reading a row does not panic: the offsets of the table are in order. -/
theorem noPanic_tableRow (b : List UInt8) (rowIndex : Nat) : NoPanic (tableRow b rowIndex) := by
  refine .bind (.ensure _ _) fun _ => ?_
  refine .bind (noPanic_be32 _ _) fun _ => ?_
  refine .bind (.ensure _ _) fun _ => ?_
  refine .bind (noPanic_be32 _ _) fun _ => ?_
  refine .bind (noPanic_be32 _ _) fun _ => ?_
  refine .bind (noPanic_be32 _ _) fun _ => ?_
  refine .bind (.ensure _ _) fun ordered => ?_
  simp only [ensure_ok, Bool.and_eq_true, decide_eq_true_eq] at ordered
  refine .bind (noPanic_be32 _ _) fun _ => ?_
  refine .bind (noPanic_string _ _ _) fun _ => ?_
  refine .bind (noPanic_be16 _ _) fun _ => ?_
  refine .bind (noPanic_be16 _ _) fun _ => ?_
  refine .bind (noPanic_be32 _ _) fun _ => ?_
  refine .bind (.ensure _ _) fun _ => ?_
  refine .bind (noPanic_subSize ordered.1.1.2) fun _ => ?_
  refine .bind (.ensure _ _) fun _ => ?_
  refine .bind (.ensure _ _) fun _ => ?_
  refine .bind ?_ fun _ => .value _
  exact .foldlM (fun columns _ => noPanic_readColumn ordered.2 b columns) _ _

/-- Reading a table does not panic. -/
theorem noPanic_table (b : List UInt8) : NoPanic (table b) := noPanic_tableRow b 0

/-- A missing or wide field is an error. -/
theorem noPanic_getField (t : Fields) (key : String) : NoPanic (getField t key) := by
  refine .bind (.context _ _) fun _ => ?_
  exact .bind (.ensure _ _) fun _ => .value _

/-- Checking the video header does not panic. -/
theorem noPanic_fromTable (t : Fields) : NoPanic (VideoInfo.fromTable t) := by
  unfold VideoInfo.fromTable
  iterate 8 refine .bind (noPanic_getField _ _) fun _ => ?_
  iterate 3 refine .bind (.ensure _ _) fun _ => ?_
  exact .value _

-----------------------------------------------------------------------------------------
-- Chunks
-----------------------------------------------------------------------------------------

/-- Reading a chunk does not panic: its sizes are checked before they are subtracted. -/
theorem noPanic_readChunk (limit : UInt64) {file : List UInt8} {pos : Nat}
    (inside : pos ≤ file.length)
    : NoPanic (readChunk limit file pos) := by
  refine .bind (.context _ _) fun _ => ?_
  refine .bind (.ensure _ _) fun big => ?_
  rw [ensure_ok, decide_eq_true_eq] at big
  refine .bind (noPanic_subSize inside) fun _ => ?_
  refine .bind (.ensure _ _) fun _ => ?_
  refine .bind (noPanic_subSize (by omega)) fun {body} found => ?_
  refine .bind (.ensure _ _) fun within => ?_
  rw [ensure_ok, decide_eq_true_eq] at within
  refine .bind (.context _ _) fun _ => ?_
  refine .bind (.ensure _ _) fun _ => ?_
  refine .bind (noPanic_subSize (by omega)) fun {rest} found => ?_
  obtain ⟨rfl, -⟩ := subSize_ok.mp found
  refine .bind (noPanic_subSize (by omega)) fun _ => ?_
  refine .bind (.ensure _ _) fun _ => ?_
  exact .bind (.context _ _) fun _ => .value _

/-- A chunk has one of four kinds. -/
theorem readChunk_kind {limit : UInt64} {file : List UInt8} {pos n : Nat} {chunk : Chunk}
    (read : readChunk limit file pos = .ok (chunk, n))
    : chunk.kind ≤ 3 := by
  obtain ⟨frame, rfl, -⟩ := readChunk_frame read
  rw [frame.kind_eq, UInt8.toNat_and]
  exact Nat.and_le_right

-----------------------------------------------------------------------------------------
-- Streams
-----------------------------------------------------------------------------------------

/-- Reading the header of a stream does not panic. -/
theorem noPanic_readHeader (signature : Signature) (payload : List UInt8) (stream : Stream)
    : NoPanic (readHeader signature payload stream) := by
  refine .bind (noPanic_table _) fun _ => ?_
  dsimp only
  split
  · refine .bind (.ensure _ _) fun _ => ?_
    exact .bind (.ensure _ _) fun _ => .value _
  · refine .bind (.ensure _ _) fun _ => ?_
    exact .bind (noPanic_fromTable _) fun _ => .value _

/-- Taking in a chunk of one of the four kinds does not panic. -/
theorem noPanic_absorbStream (limit : UInt64) (masks : Option Masks) (signature : Signature)
    {kind : Nat} (known : kind ≤ 3) (payload : List UInt8) (total : Nat) (s : Pending)
    : NoPanic (absorbStream limit masks signature kind payload total s) := by
  refine .bind (.ensure _ _) fun _ => ?_
  split
  · refine .bind (.ensure _ _) fun _ => ?_
    refine .bind (.context _ _) fun _ => ?_
    exact .bind (.ensure _ _) fun _ => .value _
  · refine .bind (.ensure _ _) fun _ => ?_
    exact .bind (noPanic_readHeader _ _ _) fun _ => .value _
  · split
    · exact .bind (.ensure _ _) fun _ => .value _
    · exact .bind (.ensure _ _) fun _ => .value _
  · exact .bind (noPanic_table _) fun _ => .value _
  · rename_i zero one two three
    exact absurd known (by simp only [imp_false] at zero one two three; omega)

/-- Reading a row of the directory does not panic. -/
theorem noPanic_rowStream (payload : List UInt8) (index : Nat)
    : NoPanic (rowStream payload index) := by
  refine .bind (noPanic_tableRow _ _) fun _ => ?_
  dsimp only
  split
  · exact .value _
  · refine .bind (.ensure _ _) fun _ => ?_
    refine .bind (.context _ _) fun _ => ?_
    refine .bind (.ensure _ _) fun _ => ?_
    exact .bind (.context _ _) fun _ => .value _

/-- Reading the directory does not panic. -/
theorem noPanic_readDirectory (payload : List UInt8) (declared : Std.TreeSet StreamId)
    : NoPanic (readDirectory payload declared) := by
  refine .bind (noPanic_table _) fun _ => ?_
  refine .bind (.ensure _ _) fun _ => ?_
  refine .bind (noPanic_be32 _ _) fun _ => ?_
  refine .bind (.ensure _ _) fun _ => ?_
  refine .foldlM (fun declared index => ?_) _ _
  refine .bind (noPanic_rowStream _ _) fun {row} _ => ?_
  cases row with
  | none => exact .value _
  | some id => exact .bind (.ensure _ _) fun _ => .value _

/-- Taking in a chunk does not panic: its stream is there once it was opened. -/
theorem noPanic_absorb (limit : UInt64) (masks : Option Masks) (demuxer : Demuxer) {chunk : Chunk}
    (known : chunk.kind ≤ 3)
    : NoPanic (absorb limit masks demuxer chunk) := by
  unfold absorb
  split
  · refine .bind (.ensure _ _) fun _ => ?_
    exact .bind (noPanic_readDirectory _ _) fun _ => .value _
  · refine .bind ?_ fun {opened} found => ?_
    · unfold openStream
      split
      · exact .value _
      · exact .bind (.ensure _ _) fun _ => .value _
    · obtain ⟨own, -⟩ := openStream_view found
      rw [own]
      refine .bind (.value _) fun _ => ?_
      exact .bind (noPanic_absorbStream _ _ _ known _ _ _) fun _ => .value _

/-- A round does not panic. -/
theorem noPanic_nextChunk (limit : UInt64) (masks : Option Masks) (file : List UInt8)
    (position : Position)
    : NoPanic (nextChunk limit masks file position) := by
  unfold nextChunk
  split
  · exact .value _
  · refine .bind (noPanic_readChunk limit (by omega)) fun {read} found => ?_
    obtain ⟨chunk, n⟩ := read
    exact .bind (noPanic_absorb _ _ _ (readChunk_kind found)) fun _ => .value _

/-- Extracting does not panic. -/
theorem noPanic_extract (file : List UInt8) (key : Option UInt64) (limit : UInt64)
    : NoPanic (extract file key limit) := by
  refine .bind ?_ fun _ => ?_
  · intro message failed
    obtain ⟨position, -, round⟩ := loop_failed (P := fun _ => True) failed
      (fun _ _ => trivial) trivial
    exact noPanic_nextChunk limit _ file position message round
  · refine .bind (.ensure _ _) fun _ => ?_
    refine .bind (.ensure _ _) fun _ => ?_
    exact .bind (.ensure _ _) fun _ => .value _

end MoenotesAssets.Usm
