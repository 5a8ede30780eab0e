import MoenotesAssets.Usm.Confinement

/-! `table_row` with the sums and products that its machine computes: none of them overflows. -/

namespace MoenotesAssets.Usm

open Foundation Foundation.Bytes Foundation.Machine

-----------------------------------------------------------------------------------------
-- The reader with its sums
-----------------------------------------------------------------------------------------

/-- `be16` with its sum. -/
def be16Sized (b : List UInt8) (p : Nat) : Except Failure Nat := do
  return bigEndian (← context (slice b p (← addSize p 2)) (.error "truncated UTF"))

/-- `be32` with its sum. -/
def be32Sized (b : List UInt8) (p : Nat) : Except Failure Nat := do
  return bigEndian (← context (slice b p (← addSize p 4)) (.error "truncated UTF"))

/-- The place of a column with the sums that move on. -/
def columnPlaceSized (layout : Layout) (storage : UInt8) (size schema row : Nat)
    : Except Failure (Option Nat × Nat × Nat) :=
  if storage = 0x10 then .ok (none, schema, row)
  else if storage = 0x30 ∨ storage = 0x70 then do
    let next ← addSize schema size
    ensure (next ≤ layout.rows) (.error "UTF constant bounds")
    return (some schema, next, row)
  else if storage = 0x50 then do
    let next ← addSize row size
    ensure (next ≤ layout.rowEnd && 0 < layout.count) (.error "UTF row width")
    return (some row, schema, next)
  else .error (.error "UTF storage")

/-- The value of a column with the sums of its places. -/
def columnValueSized (b : List UInt8) (layout : Layout) (kind size : Nat) (name : String)
    (place : Option Nat) (out : Fields)
    : Except Failure Fields :=
  match place with
  | none => .ok (if kind ≤ 7 then out.insert name 0 else out)
  | some at' => do
      let value ← context (slice b at' (← addSize at' size)) (.error "UTF value bounds")
      if kind ≤ 7 then return out.insert name (bigEndian value)
      else if kind = 10 then do
        let start ← addSize layout.strings (← be32Sized b at')
        ensure
          ((slice b start layout.data).any fun v => (v.take 4097).any fun byte => byte == 0)
          (.error "UTF string bounds")
        return out
      else if kind = 11 then do
        let off ← be32Sized b at'
        let len ← be32Sized b (← addSize at' 4)
        let space ← subSize layout.stop layout.data
        ensure (off ≤ space) (.error "UTF data bounds")
        ensure (len ≤ (← subSize space off)) (.error "UTF data bounds")
        return out
      else return out

/-- A column with the sums of its places. -/
def readColumnSized (b : List UInt8) (layout : Layout) (columns : Columns)
    : Except Failure Columns := do
  let flags ← context b[columns.schema]? (.error "UTF column")
  let offset ← be32Sized b (← addSize columns.schema 1)
  let name ← string b (← addSize layout.strings offset) layout.data
  let behind ← addSize columns.schema 5
  let kind := (flags &&& 15).toNat
  let size ← columnSize kind
  let (place, schema, row) ← columnPlaceSized layout (flags &&& 0xF0) size behind columns.row
  let out ← columnValueSized b layout kind size name place columns.out
  ensure (schema ≤ layout.rows) (.error "UTF schema bounds")
  return { schema, row, out }

/-- `table_row` with its sums and products; `checked_mul` has no value on overflow. -/
def tableRowSized (b : List UInt8) (rowIndex : Nat) : Except Failure (String × Fields) := do
  ensure (utfMark.isPrefixOf b && 32 ≤ b.length && b.length ≤ 16 * 2 ^ 20)
    (.error "invalid UTF table")
  let stop ← addSize 8 (← be32Sized b 4)
  ensure (stop ≤ b.length && 32 ≤ stop) (.error "UTF length")
  let rows ← addSize 8 (← be32Sized b 8)
  let strings ← addSize 8 (← be32Sized b 12)
  let data ← addSize 8 (← be32Sized b 16)
  ensure (32 ≤ rows && rows ≤ strings && strings ≤ data && data ≤ stop) (.error "UTF offsets")
  let name ← string b (← addSize strings (← be32Sized b 20)) data
  let columns ← be16Sized b 24
  let stride ← be16Sized b 26
  let count ← be32Sized b 28
  ensure (columns ≤ 256 && count ≤ 1000000) (.error "UTF row bounds")
  let space ← subSize strings rows
  ensure (count * stride ≤ max64 && count * stride ≤ space) (.error "UTF row bounds")
  ensure (rowIndex < count) (.error "UTF row index")
  let row ← addSize rows (← mulSize rowIndex stride)
  let rowEnd ← addSize row stride
  let layout : Layout := { stop, rows, strings, data, rowEnd, count }
  let read ←
    (List.range columns).foldlM (fun columns _ => readColumnSized b layout columns)
      { schema := 32, row, out := ∅ }
  return (name, read.out)

-----------------------------------------------------------------------------------------
-- No overflow
-----------------------------------------------------------------------------------------

/-- A bound far below the largest counter, which all places of a table obey. -/
def placeBound : Nat := 2 ^ 40

/-- A sum of places does not overflow. -/
theorem addSize_fits {left right : Nat} (bounded : left ≤ placeBound)
    (bounded' : right ≤ placeBound)
    : addSize left right = .ok (left + right) := by
  rw [addSize, if_pos]
  exact Nat.le_trans (Nat.add_le_add bounded bounded') (by decide)

section Sums

variable {b : List UInt8} {layout : Layout}

/-- Two bytes are read without an overflow. -/
theorem be16Sized_eq {p : Nat} (bounded : p ≤ placeBound) : be16Sized b p = be16 b p := by
  rw [be16Sized, addSize_fits bounded (by decide)]
  rfl

/-- Four bytes are read without an overflow. -/
theorem be32Sized_eq {p : Nat} (bounded : p ≤ placeBound) : be32Sized b p = be32 b p := by
  rw [be32Sized, addSize_fits bounded (by decide)]
  rfl

/-- Two bytes make a number below 2^16. -/
theorem be16_lt {p value : Nat} (read : be16 b p = .ok value) : value < 2 ^ 16 := by
  obtain ⟨bytes, held, returned⟩ := bind_ok.mp read
  obtain rfl := pure_ok.mp returned
  exact bigEndian_slice_lt (context_ok.mp held)

/-- Four bytes make a number below 2^32. -/
theorem be32_lt {p value : Nat} (read : be32 b p = .ok value) : value < 2 ^ 32 := by
  obtain ⟨bytes, held, returned⟩ := bind_ok.mp read
  obtain rfl := pure_ok.mp returned
  exact bigEndian_slice_lt (context_ok.mp held)

/-- The values of columns have eight bytes at most. -/
theorem columnSize_le {kind size : Nat} (sized : columnSize kind = .ok size) : size ≤ 8 := by
  rw [columnSize] at sized
  split at sized
  · cases sized
    decide
  split at sized
  · cases sized
    decide
  split at sized
  · cases sized
    decide
  split at sized
  · cases sized
    decide
  · cases sized

/-- The place of a column is found without an overflow. -/
theorem columnPlaceSized_eq {storage : UInt8} {size schema row : Nat} (small : size ≤ 8)
    (schemaBound : schema ≤ placeBound) (rowBound : row ≤ placeBound)
    : columnPlaceSized layout storage size schema row
      = columnPlace layout storage size schema row := by
  have sized : size ≤ placeBound := Nat.le_trans small (by decide)
  rw [columnPlaceSized, columnPlace, addSize_fits schemaBound sized, addSize_fits rowBound sized]
  rfl

/-- The value of a column is read without an overflow. -/
theorem columnValueSized_eq {kind size : Nat} {name : String} {place : Option Nat} {out : Fields}
    (small : size ≤ 8) (stringsBound : layout.strings ≤ placeBound)
    (places : ∀ at' ∈ place, at' + 8 ≤ placeBound)
    : columnValueSized b layout kind size name place out
      = columnValue b layout kind size name place out := by
  cases place with
  | none => rfl
  | some at' =>
      have bounded := places at' rfl
      have here : at' ≤ placeBound := Nat.le_of_add_right_le bounded
      have next : at' + 4 ≤ placeBound := by omega
      have width : size ≤ placeBound := Nat.le_trans small (by decide)
      simp only [columnValueSized, columnValue, addSize_fits here width,
        addSize_fits here (by decide : 4 ≤ placeBound), ok_bind, be32Sized_eq here,
        be32Sized_eq next]
      refine bind_congr_ok fun value _ => ?_
      split
      · rfl
      split
      · refine bind_congr_ok fun offset read => ?_
        rw [addSize_fits stringsBound (Nat.le_trans (Nat.le_of_lt (be32_lt read)) (by decide))]
        rfl
      · rfl

/-- What bounds the places of the columns. -/
structure Columns.Bounded (layout : Layout) (columns : Columns) : Prop where
  schema : columns.schema ≤ layout.rows
  row : columns.row ≤ layout.rowEnd

/-- A column is read without an overflow. -/
theorem readColumnSized_eq {columns : Columns} (bounded : columns.Bounded layout)
    (rows : layout.rows ≤ 2 ^ 33) (rowEnd : layout.rowEnd ≤ 2 ^ 38)
    (strings : layout.strings ≤ 2 ^ 33)
    : readColumnSized b layout columns = readColumn b layout columns := by
  have schema := Nat.le_trans bounded.schema rows
  have row := Nat.le_trans bounded.row rowEnd
  have here : columns.schema ≤ placeBound := Nat.le_trans schema (by decide)
  have next : columns.schema + 1 ≤ placeBound :=
    Nat.le_trans (Nat.add_le_add_right schema 1) (by decide)
  have behind : columns.schema + 5 ≤ placeBound :=
    Nat.le_trans (Nat.add_le_add_right schema 5) (by decide)
  have texts : layout.strings ≤ placeBound := Nat.le_trans strings (by decide)
  simp only [readColumnSized, readColumn, addSize_fits here (by decide : 1 ≤ placeBound),
    addSize_fits here (by decide : 5 ≤ placeBound), ok_bind, be32Sized_eq next]
  refine bind_congr_ok fun flags _ => bind_congr_ok fun offset read => ?_
  rw [addSize_fits texts (Nat.le_trans (Nat.le_of_lt (be32_lt read)) (by decide)), ok_bind]
  refine bind_congr_ok fun name _ => bind_congr_ok fun size sized => ?_
  have small := columnSize_le sized
  rw [columnPlaceSized_eq small behind (Nat.le_trans row (by decide))]
  refine bind_congr_ok fun found placed => ?_
  obtain ⟨place, schema', row'⟩ := found
  have places : ∀ at' ∈ place, at' + 8 ≤ placeBound := by
    intro at' member
    have far : 2 ^ 38 + 5 + 8 ≤ placeBound := by decide
    rcases columnPlace_cases placed with ⟨-, rfl, -, -⟩ | ⟨-, rfl, -, -, -⟩ | ⟨-, rfl, -, -, -⟩
    · cases member
    · obtain rfl := Option.some.inj member
      omega
    · obtain rfl := Option.some.inj member
      omega
  simp only [columnValueSized_eq small texts places]

/-- Reading a column keeps the bounds. -/
theorem Columns.Bounded.read {columns after : Columns} (bounded : columns.Bounded layout)
    (read : readColumn b layout columns = .ok after)
    : after.Bounded layout := by
  obtain ⟨flags, offset, name, size, place, reads⟩ := readColumn_ok.mp read
  obtain ⟨-, -, -, row, -⟩ := reads.bounds
  exact ⟨reads.within, row bounded.row⟩

/-- A row is read without an overflow. -/
theorem tableRowSized_eq (b : List UInt8) (rowIndex : Nat)
    : tableRowSized b rowIndex = tableRow b rowIndex := by
  have word : ∀ {p value}, be32 b p = .ok value → value ≤ placeBound :=
    fun read => Nat.le_trans (Nat.le_of_lt (be32_lt read)) (by decide)
  have offset : ∀ {p value}, be32 b p = .ok value → 8 + value ≤ 2 ^ 33 :=
    fun read => Nat.le_trans (Nat.add_le_add_left (Nat.le_of_lt (be32_lt read)) 8) (by decide)
  have head : ∀ {p}, p ≤ 32 → be32Sized b p = be32 b p :=
    fun small => be32Sized_eq (Nat.le_trans small (by decide))
  have half : ∀ {p}, p ≤ 32 → be16Sized b p = be16 b p :=
    fun small => be16Sized_eq (Nat.le_trans small (by decide))
  simp only [tableRowSized, tableRow, head (by decide : 4 ≤ 32), head (by decide : 8 ≤ 32),
    head (by decide : 12 ≤ 32), head (by decide : 16 ≤ 32), head (by decide : 20 ≤ 32),
    head (by decide : 28 ≤ 32), half (by decide : 24 ≤ 32), half (by decide : 26 ≤ 32)]
  refine bind_congr_ok fun _ _ => bind_congr_ok fun size sized => ?_
  rw [addSize_fits (by decide) (word sized), ok_bind]
  refine bind_congr_ok fun _ _ => bind_congr_ok fun rowsAt rows => ?_
  rw [addSize_fits (by decide) (word rows), ok_bind]
  refine bind_congr_ok fun stringsAt strings => ?_
  rw [addSize_fits (by decide) (word strings), ok_bind]
  refine bind_congr_ok fun dataAt data => ?_
  rw [addSize_fits (by decide) (word data), ok_bind]
  refine bind_congr_ok fun _ ordered => bind_congr_ok fun nameAt named => ?_
  rw [addSize_fits (Nat.le_trans (offset strings) (by decide)) (word named), ok_bind]
  refine bind_congr_ok fun name _ => bind_congr_ok fun columns _ =>
    bind_congr_ok fun stride strided => bind_congr_ok fun count _ => bind_congr_ok fun _ narrow =>
    bind_congr_ok fun space spaced => ?_
  rw [ensure_ok, Bool.and_eq_true, decide_eq_true_eq, decide_eq_true_eq] at narrow
  have product : ∀ {rows}, rows ≤ 1000000 → rows * stride ≤ 2 ^ 36 := fun few =>
    Nat.le_trans (Nat.mul_le_mul few (Nat.le_of_lt (be16_lt strided))) (by decide)
  have small : decide (count * stride ≤ max64) = true :=
    decide_eq_true (Nat.le_trans (product narrow.2) (by decide))
  rw [small, Bool.true_and]
  refine bind_congr_ok fun _ fits => bind_congr_ok fun _ present => ?_
  rw [ensure_ok, decide_eq_true_eq] at fits present
  have index := product (Nat.le_trans (Nat.le_of_lt present) narrow.2)
  have multiplied : mulSize rowIndex stride = .ok (rowIndex * stride) := by
    rw [mulSize, if_pos (Nat.le_trans index (by decide))]
  have width := be16_lt strided
  have rows' := offset rows
  have start := Nat.add_le_add rows' index
  have finish := Nat.add_le_add start (Nat.le_of_lt width)
  rw [multiplied, ok_bind, addSize_fits (Nat.le_trans rows' (by decide))
    (Nat.le_trans index (by decide)), ok_bind, addSize_fits (Nat.le_trans start (by decide))
    (Nat.le_trans (Nat.le_of_lt width) (by decide)), ok_bind]
  refine congrArg (· >>= _) (foldlM_congr_along (P := Columns.Bounded _) (fun bounded => ?_)
    (fun bounded read => bounded.read read) ⟨?_, Nat.le_add_right _ _⟩)
  · exact readColumnSized_eq bounded rows' (Nat.le_trans finish (by decide)) (offset strings)
  · simp only [ensure_ok, Bool.and_eq_true, decide_eq_true_eq] at ordered
    exact ordered.1.1.1

end Sums

/-- Tables that agree as far as they declare give the same rows. -/
theorem tableRow_same {b other : List UInt8} {size : Nat} (sized : be32 b 4 = .ok size)
    (agree : Agree (8 + size) b other) (limited : b.length ≤ 16 * 2 ^ 20)
    (limited' : other.length ≤ 16 * 2 ^ 20) (rowIndex : Nat)
    : (tableRow b rowIndex).toOption = (tableRow other rowIndex).toOption := by
  have sized' : be32 other 4 = .ok size :=
    (be32_agree agree (by omega)).symm.trans sized
  cases read : tableRow b rowIndex with
  | ok result => rw [tableRow_agree sized agree limited' read]
  | error failure =>
      cases read' : tableRow other rowIndex with
      | error failure' => rfl
      | ok result =>
          cases read.symm.trans (tableRow_agree sized' agree.symm limited read')

/-- Reading a row never panics, with or without the sums and products of the machine; what follows
the declared table makes no difference; and what is returned comes from the row, the schema area
and the string area.
-/
theorem tableRow_safe (b : List UInt8) (rowIndex : Nat)
    : tableRowSized b rowIndex = tableRow b rowIndex
      ∧ NoPanic (tableRowSized b rowIndex)
      ∧ (∀ (other : List UInt8) (size : Nat),
          be32 b 4 = .ok size
          → Agree (8 + size) b other
          → b.length ≤ 16 * 2 ^ 20
          → other.length ≤ 16 * 2 ^ 20
          → (tableRow b rowIndex).toOption = (tableRow other rowIndex).toOption)
      ∧ ∀ (name : String) (out : Fields),
          tableRow b rowIndex = .ok (name, out)
          → ∃ (layout : Layout) (stride : Nat),
              layout.Declared b rowIndex stride
              ∧ layout.HasText b name
              ∧ ∀ (key : String) (value : Nat),
                  out[key]? = some value
                  → layout.HasText b key
                    ∧ layout.HasValue b (layout.rows + rowIndex * stride) value := by
  have same := tableRowSized_eq b rowIndex
  exact ⟨same, same ▸ noPanic_tableRow b rowIndex,
    fun other size sized agree limited limited' => tableRow_same sized agree limited limited' _,
    fun name out read => tableRow_inside read⟩

end MoenotesAssets.Usm
