import MoenotesAssets.Foundation.Reading

/-! `embedded::extract`: the payload of a serialized CRI wrapper, and the layout of wrappers. -/

namespace MoenotesAssets.Embedded

open Foundation Foundation.Bytes Foundation.Machine

-----------------------------------------------------------------------------------------
-- The reader
-----------------------------------------------------------------------------------------

/-- `CLASS` -/
def className : String := "CriSerializedBytesAssetImpl"

/-- `NAMESPACE` -/
def namespaceName : String := "CriWare.Assets"

/-- `ASSEMBLY` -/
def assemblyName : String := "CriMw.CriWare.Assets.Runtime"

/-- `Reader::take` -/
def take (n : Nat) : Reading (List UInt8) := fun reader => do
  let stop ← context (checkedAdd reader.pos n) (.error "embedded offset overflow")
  let value ← context (slice reader.bytes reader.pos stop) (.error "truncated embedded CRI")
  return (value, { reader with pos := stop })

/-- `Reader::u32` -/
def u32 : Reading UInt32 := do
  return UInt32.ofNat (littleEndian (← take 4))

/-- `Reader::i64` -/
def i64 : Reading Int64 := do
  return (UInt64.ofNat (littleEndian (← take 8))).toInt64

/-- The bytes from the position to the next multiple of four. -/
def toAlign (pos : Nat) : Except Failure Nat := do
  subSize (← mulSize (divCeil pos 4) 4) pos

/-- `Reader::align` -/
def align : Reading Unit := do
  let padding ← take (← StateT.lift (toAlign (← get).pos))
  Reading.ensure (padding.all (· == 0)) "nonzero embedded alignment"

/-- `Reader::string` -/
def string : Reading String := do
  let n ← u32
  Reading.ensure (n.toNat ≤ 4096) "embedded string budget"
  let bytes ← take n.toNat
  let value ← Reading.context (fromUtf8 bytes) "invalid utf-8 sequence"
  align
  return value

-----------------------------------------------------------------------------------------
-- Extraction
-----------------------------------------------------------------------------------------

/-- The flag of the behaviour. -/
def enabled : Reading Unit := do
  let enabled ← StateT.lift (index (← take 1) 0)
  Reading.ensure (enabled ≤ 1) "invalid behaviour enabled"
  align

/-- The reference to an AWB, which must be null. -/
def awb : Reading Unit := do
  Reading.ensure ((← take 12).all (· == 0)) "external AWB reference unsupported"

/-- The reads of `extract` up to the reference registry. -/
def behaviour : Reading Int64 := do
  let _ ← take 12
  enabled
  let _ ← take 12
  let _ ← string
  let rid ← i64
  awb
  Reading.expect u32 0 "additional AWB references unsupported"
  return rid

/-- The reads of `extract` of the registry with one reference, to `rid`. -/
def registry (rid : Int64) : Reading Unit := do
  Reading.expect u32 2 "unsupported embedded reference registry"
  Reading.expect u32 1 "unsupported embedded reference registry"
  Reading.expect i64 rid "unsupported embedded reference registry"
  Reading.expect string className "unsupported embedded implementation"
  Reading.expect string namespaceName "unsupported embedded implementation"
  Reading.expect string assemblyName "unsupported embedded implementation"

/-- `@UTF` or `CRID` -/
def signature (payload : List UInt8) : Bool :=
  List.isPrefixOf [0x40, 0x55, 0x54, 0x46] payload
  || List.isPrefixOf [0x43, 0x52, 0x49, 0x44] payload

/-- The reads of `extract` behind the registry. -/
def payload (limit : UInt64) : Reading (List UInt8) := do
  let n ← u32
  Reading.ensure (0 < n.toNat && n.toUInt64 ≤ limit) "embedded payload budget"
  let payload ← take n.toNat
  align
  return payload

/-- `embedded::extract` -/
def extract (raw : List UInt8) (limit : UInt64) : Except Failure (List UInt8) := do
  let reading : Reading (List UInt8) := do
    registry (← behaviour)
    payload limit
  let (payload, reader) ← reading { bytes := raw, pos := 0 }
  ensure (reader.pos == raw.length) (.error "unexpected embedded wrapper trailing bytes")
  ensure (signature payload) (.error "embedded CRI payload signature")
  return payload

-----------------------------------------------------------------------------------------
-- The layout
-----------------------------------------------------------------------------------------

/-- What a wrapper holds: the references to its object and script, its flag, name and
reference id, and the payload.
-/
structure Wrapper where
  gameObject : List UInt8
  enabled : Bool
  script : List UInt8
  name : String
  rid : Int64
  payload : List UInt8
  gameObject_length : gameObject.length = 12
  script_length : script.length = 12
  name_short : name.utf8ByteSize ≤ 4096
  payload_fits : payload.length < 2 ^ 32

/-- The zero bytes that follow `pos` bytes. -/
def padding (pos : Nat) : List UInt8 :=
  List.replicate ((4 - pos % 4) % 4) 0

/-- Bytes and the zeros up to the next multiple of four. -/
def padded (bytes : List UInt8) : List UInt8 :=
  bytes ++ padding bytes.length

/-- Bytes behind their length. -/
def delimited (bytes : List UInt8) : List UInt8 :=
  padded (littleEndianBytes 4 bytes.length ++ bytes)

/-- A 64-bit number. -/
def long (value : Int64) : List UInt8 :=
  littleEndianBytes 8 value.toUInt64.toNat

/-- The bytes of a wrapper. -/
def Wrapper.encode (wrapper : Wrapper) : List UInt8 :=
  [
    wrapper.gameObject,
    padded [if wrapper.enabled then 1 else 0],
    wrapper.script,
    delimited (textBytes wrapper.name),
    long wrapper.rid,
    List.replicate 12 0,
    littleEndianBytes 4 0,
    littleEndianBytes 4 2,
    littleEndianBytes 4 1,
    long wrapper.rid,
    delimited (textBytes className),
    delimited (textBytes namespaceName),
    delimited (textBytes assemblyName),
    delimited wrapper.payload
  ].flatten

end MoenotesAssets.Embedded
