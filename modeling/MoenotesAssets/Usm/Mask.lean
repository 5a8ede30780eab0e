import Mathlib.Data.List.Basic

/-! The mask routines of `usm.rs`, on the bytes of one payload. -/

namespace MoenotesAssets.Usm

/-- `VideoMask`: two masks of 32 bytes. -/
structure VideoMask where
  first : List UInt8
  second : List UInt8
deriving DecidableEq

/-- What `get_mask` returns: the video masks and the audio mask. -/
structure Masks where
  video : VideoMask
  audio : List UInt8
deriving DecidableEq

/-- The table `t` of `get_mask`, computed from the low four bytes of `key1` and `key2`. -/
def maskTable (key : UInt64) : List UInt8 :=
  let t00 := key.toUInt8
  let t01 := (key >>> 8).toUInt8
  let t02 := (key >>> 16).toUInt8
  let t03 := (key >>> 24).toUInt8 - 0x34
  let t04 := ((key >>> 32) &&& 0xF).toUInt8 + 0xF9
  let t05 := (key >>> 40).toUInt8 ^^^ 0x13
  let t06 := (key >>> 48).toUInt8 + 0x61
  let t07 := t00 ^^^ 0xFF
  let t08 := t02 + t01
  let t09 := t01 - t07
  let t0A := t02 ^^^ 0xFF
  let t0B := t01 ^^^ 0xFF
  let t0C := t0B + t09
  let t0D := t08 - t03
  let t0E := t0D ^^^ 0xFF
  let t0F := t0A - t0B
  let t10 := t08 - t0F
  let t11 := t10 ^^^ t07
  let t12 := t0F ^^^ 0xFF
  let t13 := t03 ^^^ 0x10
  let t14 := t04 - 0x32
  let t15 := t05 + 0xED
  let t16 := t06 ^^^ 0xF3
  let t17 := t13 - t0F
  let t18 := t15 + t07
  let t19 := 0x21 - t13
  let t1A := t14 ^^^ t17
  let t1B := t16 + t16
  let t1C := t17 + 0x44
  let t1D := t03 + t04
  let t1E := t05 - t16
  let t1F := t1D ^^^ t13
  [t00, t01, t02, t03, t04, t05, t06, t07, t08, t09, t0A, t0B, t0C, t0D, t0E, t0F,
    t10, t11, t12, t13, t14, t15, t16, t17, t18, t19, t1A, t1B, t1C, t1D, t1E, t1F]

/-- `b"URUC"` -/
def audioMark : List UInt8 := [0x55, 0x52, 0x55, 0x43]

/-- `get_mask` -/
def getMask (key : UInt64) : Masks :=
  let t := maskTable key
  {
    video := { first := t, second := t.map (· ^^^ 0xFF) }
    audio :=
      t.mapIdx fun i ti =>
        if i % 2 = 1 then audioMark.getD (i / 2 % 4) 0 else ti ^^^ 0xFF
  }

/-- The rows of the second pass of `mask_video`, the last one of which may be short: each
row is decoded with the masks, which then follow the decoded row.
-/
def maskRows (second : List UInt8) : Nat → List UInt8 → List UInt8 → List UInt8
  | 0, mask, rest => List.zipWith (· ^^^ ·) rest mask
  | count + 1, mask, rest =>
      let row := List.zipWith (· ^^^ ·) (rest.take 32) mask
      row ++ maskRows second count (List.zipWith (· ^^^ ·) row second) (rest.drop 32)

/-- One round of the first pass of `mask_video`, on the lane masks and the buffer. -/
def maskHead (state : List UInt8 × List UInt8) (i : Nat) : List UInt8 × List UInt8 :=
  let (mask, buf) := state
  let lane := i % 32
  let next := mask.getD lane 0 ^^^ buf.getD (0x140 + i) 0
  (mask.set lane next, buf.modify (0x40 + i) (· ^^^ next))

/-- `mask_video` -/
def maskVideo (buf : List UInt8) (vmask : VideoMask) : List UInt8 :=
  if buf.length - 0x40 < 0x200 then buf
  else
    let tail := buf.drop 0x140
    let decoded :=
      buf.take 0x140 ++ maskRows vmask.second (tail.length / 32) vmask.second tail
    ((List.range 0x100).foldl maskHead (vmask.first, decoded)).2

/-- The rows of `mask_audio`, the last one of which may be short. -/
def audioRows (amask : List UInt8) : Nat → List UInt8 → List UInt8
  | 0, rest => List.zipWith (· ^^^ ·) rest amask
  | count + 1, rest =>
      List.zipWith (· ^^^ ·) (rest.take 32) amask ++ audioRows amask count (rest.drop 32)

/-- `mask_audio` -/
def maskAudio (buf : List UInt8) (amask : List UInt8) : List UInt8 :=
  if buf.length < 0x140 then buf
  else
    let region := buf.drop 0x140
    buf.take 0x140 ++ audioRows amask (region.length / 32) region

end MoenotesAssets.Usm
