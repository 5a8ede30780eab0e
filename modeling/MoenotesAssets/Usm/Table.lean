import MoenotesAssets.Foundation.Bytes
import MoenotesAssets.Foundation.Machine
import Std.Data.TreeMap

/-! The metadata tables of `usm.rs` and the video header they carry. -/

namespace MoenotesAssets.Usm

open Foundation Foundation.Bytes Foundation.Machine

-----------------------------------------------------------------------------------------
-- Fields
-----------------------------------------------------------------------------------------

/-- `be16` -/
def be16 (b : List UInt8) (p : Nat) : Except Failure Nat := do
  return bigEndian (← context (slice b p (p + 2)) (.error "truncated UTF"))

/-- `be32` -/
def be32 (b : List UInt8) (p : Nat) : Except Failure Nat := do
  return bigEndian (← context (slice b p (p + 4)) (.error "truncated UTF"))

/-- `str::from_utf8` -/
def utf8 (bytes : List UInt8) : Except Failure String :=
  context (String.fromUTF8? (ByteArray.mk bytes.toArray)) (.error "invalid utf-8 sequence")

/-- `string`: the text before the first zero byte from `p` on. -/
def string (b : List UInt8) (p stop : Nat) : Except Failure String := do
  let v ← context (slice b p stop) (.error "UTF string bounds")
  let n ← context (v.findIdx? (fun byte => byte == 0)) (.error "unterminated UTF string")
  ensure (n ≤ 4096) (.error "UTF string limit")
  utf8 (v.take n)

-----------------------------------------------------------------------------------------
-- Rows
-----------------------------------------------------------------------------------------

/-- The integer fields of a row, by column name. -/
abbrev Fields := Std.TreeMap String Nat

/-- The places of a table: `end`, `rows`, `strings` and `data`, the end of the row that is
read, and the number of rows.
-/
structure Layout where
  stop : Nat
  rows : Nat
  strings : Nat
  data : Nat
  rowEnd : Nat
  count : Nat

/-- The locals of the loop over the columns. -/
structure Columns where
  schema : Nat
  row : Nat
  out : Fields

/-- The bytes of a value of a column type. -/
def columnSize (kind : Nat) : Except Failure Nat :=
  if kind ≤ 1 then .ok 1
  else if kind ≤ 3 then .ok 2
  else if kind ≤ 5 ∨ kind = 8 ∨ kind = 10 then .ok 4
  else if kind ≤ 7 ∨ kind = 9 ∨ kind = 11 then .ok 8
  else .error (.error "UTF column type")

/-- Where a column keeps its value, and the places behind the column and in the row. -/
def columnPlace (layout : Layout) (storage : UInt8) (size schema row : Nat)
    : Except Failure (Option Nat × Nat × Nat) :=
  if storage = 0x10 then .ok (none, schema, row)
  else if storage = 0x30 ∨ storage = 0x70 then do
    ensure (schema + size ≤ layout.rows) (.error "UTF constant bounds")
    return (some schema, schema + size, row)
  else if storage = 0x50 then do
    ensure (row + size ≤ layout.rowEnd && 0 < layout.count) (.error "UTF row width")
    return (some row, schema, row + size)
  else .error (.error "UTF storage")

/-- What a column adds to the fields; of other values only the bounds are checked. -/
def columnValue (b : List UInt8) (layout : Layout) (kind size : Nat) (name : String)
    (place : Option Nat) (out : Fields)
    : Except Failure Fields :=
  match place with
  | none => .ok (if kind ≤ 7 then out.insert name 0 else out)
  | some at' => do
      let value ← context (slice b at' (at' + size)) (.error "UTF value bounds")
      if kind ≤ 7 then return out.insert name (bigEndian value)
      else if kind = 10 then do
        let start := layout.strings + (← be32 b at')
        ensure
          ((slice b start layout.data).any fun v => (v.take 4097).any fun byte => byte == 0)
          (.error "UTF string bounds")
        return out
      else if kind = 11 then do
        let off ← be32 b at'
        let len ← be32 b (at' + 4)
        let space ← subSize layout.stop layout.data
        ensure (off ≤ space) (.error "UTF data bounds")
        ensure (len ≤ (← subSize space off)) (.error "UTF data bounds")
        return out
      else return out

/-- One round of the loop over the columns. -/
def readColumn (b : List UInt8) (layout : Layout) (columns : Columns)
    : Except Failure Columns := do
  let flags ← context b[columns.schema]? (.error "UTF column")
  let name ← string b (layout.strings + (← be32 b (columns.schema + 1))) layout.data
  let kind := (flags &&& 15).toNat
  let size ← columnSize kind
  let (place, schema, row) ←
    columnPlace layout (flags &&& 0xF0) size (columns.schema + 5) columns.row
  let out ← columnValue b layout kind size name place columns.out
  ensure (schema ≤ layout.rows) (.error "UTF schema bounds")
  return { schema, row, out }

/-- `b"@UTF"` -/
def utfMark : List UInt8 := [0x40, 0x55, 0x54, 0x46]

/-- `table_row` -/
def tableRow (b : List UInt8) (rowIndex : Nat) : Except Failure (String × Fields) := do
  ensure (utfMark.isPrefixOf b && 32 ≤ b.length && b.length ≤ 16 * 2 ^ 20)
    (.error "invalid UTF table")
  let stop := 8 + (← be32 b 4)
  ensure (stop ≤ b.length && 32 ≤ stop) (.error "UTF length")
  let rows := 8 + (← be32 b 8)
  let strings := 8 + (← be32 b 12)
  let data := 8 + (← be32 b 16)
  ensure (32 ≤ rows && rows ≤ strings && strings ≤ data && data ≤ stop) (.error "UTF offsets")
  let name ← string b (strings + (← be32 b 20)) data
  let columns ← be16 b 24
  let stride ← be16 b 26
  let count ← be32 b 28
  ensure (columns ≤ 256 && count ≤ 1000000) (.error "UTF row bounds")
  ensure (count * stride ≤ (← subSize strings rows)) (.error "UTF row bounds")
  ensure (rowIndex < count) (.error "UTF row index")
  let row := rows + rowIndex * stride
  let layout : Layout := { stop, rows, strings, data, rowEnd := row + stride, count }
  let read ←
    (List.range columns).foldlM (fun columns _ => readColumn b layout columns)
      { schema := 32, row, out := ∅ }
  return (name, read.out)

/-- `table` -/
def table (b : List UInt8) : Except Failure (String × Fields) := tableRow b 0

-----------------------------------------------------------------------------------------
-- The video header
-----------------------------------------------------------------------------------------

/-- `usm::VideoInfo` -/
structure VideoInfo where
  width : Nat
  height : Nat
  displayWidth : Nat
  displayHeight : Nat
  frames : Nat
  fpsN : Nat
  fpsD : Nat
  codec : Nat
deriving DecidableEq

/-- The closure `get` of `VideoInfo::from_table`. -/
def getField (t : Fields) (key : String) : Except Failure Nat := do
  let value ← context t[key]? (.error ("missing USM " ++ key))
  ensure (value < 2 ^ 32) (.error "USM integer overflow")
  return value

/-- `VideoInfo::from_table` -/
def VideoInfo.fromTable (t : Fields) : Except Failure VideoInfo := do
  let v : VideoInfo :=
    {
      width := ← getField t "width"
      height := ← getField t "height"
      displayWidth := ← getField t "disp_width"
      displayHeight := ← getField t "disp_height"
      frames := ← getField t "total_frames"
      fpsN := ← getField t "framerate_n"
      fpsD := ← getField t "framerate_d"
      codec := ← getField t "mpeg_codec"
    }
  ensure
    (0 < v.frames && v.frames ≤ 10000000 && 0 < v.fpsN && 0 < v.fpsD && v.fpsN ≤ 240 * v.fpsD)
    (.error "invalid USM timebase")
  ensure
    (0 < v.displayWidth && 0 < v.displayHeight && v.displayWidth ≤ v.width
      && v.displayHeight ≤ v.height && v.width ≤ 16384 && v.height ≤ 16384)
    (.error "invalid USM dimensions")
  ensure (v.codec == 1 || v.codec == 9) (.error "unsupported USM video codec")
  return v

end MoenotesAssets.Usm
