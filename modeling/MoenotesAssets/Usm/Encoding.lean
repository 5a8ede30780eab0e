import MoenotesAssets.Usm.Confinement

/-! Tables as they are written: a header, an entry for each column, the rows and a pool of texts.
Reading a row inverts writing the table.
-/

namespace MoenotesAssets.Usm

open Foundation Foundation.Bytes

-----------------------------------------------------------------------------------------
-- The encoder of the tests
-----------------------------------------------------------------------------------------

/-- One round of the loop of `utf`: the name of a field goes to the texts, and its entry with its
value to the schema.
-/
def utfField (state : List UInt8 × List UInt8) (field : String × UInt32)
    : List UInt8 × List UInt8 :=
  let (strings, schema) := state
  (strings ++ textBytes field.1 ++ [0],
    schema ++ [0x34] ++ bigEndianBytes 4 strings.length ++ bigEndianBytes 4 field.2.toNat)

/-- `tests::utf` -/
def utf (name : String) (fields : List (String × UInt32)) : List UInt8 :=
  let (strings, schema) := fields.foldl utfField ([0] ++ textBytes name ++ [0], [])
  let rows := 32 + schema.length
  let data := rows + strings.length
  utfMark ++ bigEndianBytes 4 (data - 8) ++ bigEndianBytes 4 (rows - 8)
    ++ bigEndianBytes 4 (rows - 8) ++ bigEndianBytes 4 (data - 8) ++ bigEndianBytes 4 1
    ++ bigEndianBytes 2 fields.length ++ [0, 0] ++ bigEndianBytes 4 1 ++ schema ++ strings

-----------------------------------------------------------------------------------------
-- Tables with rows
-----------------------------------------------------------------------------------------

/-- A text that can be written, with a zero byte behind it. -/
def Nameable (text : String) : Prop :=
  (0 : UInt8) ∉ textBytes text ∧ (textBytes text).length ≤ 4096

instance (text : String) : Decidable (Nameable text) := inferInstanceAs (Decidable (_ ∧ _))

/-- How a column keeps its values: one for all rows, or one in each row, of an integer type. -/
inductive Storage where
  | constant (value : UInt32)
  | perRow (kind : Nat) (values : Nat → Nat)

/-- A column of a table. -/
structure Column where
  name : String
  storage : Storage

/-- The bytes of an integer type. -/
def kindWidth (kind : Nat) : Nat :=
  if kind ≤ 1 then 1 else if kind ≤ 3 then 2 else if kind ≤ 5 then 4 else 8

namespace Column

/-- The storage and the type of a column. -/
def flags (column : Column) : UInt8 :=
  match column.storage with
  | .constant _ => 0x34
  | .perRow kind _ => 0x50 + UInt8.ofNat kind

/-- The entry of a column whose name stands at an offset. -/
def entry (column : Column) (offset : Nat) : List UInt8 :=
  [column.flags] ++ bigEndianBytes 4 offset
    ++ match column.storage with
      | .constant value => bigEndianBytes 4 value.toNat
      | .perRow _ _ => []

/-- What a column adds to a row. -/
def cell (column : Column) (row : Nat) : List UInt8 :=
  match column.storage with
  | .constant _ => []
  | .perRow kind values => bigEndianBytes (kindWidth kind) (values row)

/-- The value of a column in a row. -/
def value (column : Column) (row : Nat) : Nat :=
  match column.storage with
  | .constant value => value.toNat
  | .perRow _ values => values row

/-- The name of a column with its zero byte. -/
def text (column : Column) : List UInt8 := textBytes column.name ++ [0]

/-- A column can be written for so many rows: its type is an integer type, and its values fit. -/
def Fits (column : Column) (count : Nat) : Prop :=
  match column.storage with
  | .constant _ => True
  | .perRow kind values => kind ≤ 7 ∧ ∀ row < count, values row < 256 ^ kindWidth kind

end Column

/-- The entries of columns whose names stand one after the other from an offset on. -/
def schemaOf : Nat → List Column → List UInt8
  | _, [] => []
  | offset, column :: rest => column.entry offset ++ schemaOf (offset + column.text.length) rest

/-- The names of columns. -/
def textsOf (columns : List Column) : List UInt8 := columns.flatMap Column.text

/-- One row. -/
def rowOf (columns : List Column) (row : Nat) : List UInt8 := columns.flatMap (Column.cell · row)

/-- The rows of a table. -/
def rowsOf (columns : List Column) (count : Nat) : List UInt8 :=
  (List.range count).flatMap (rowOf columns)

/-- The texts of a table: an empty one, its name and those of its columns. -/
def poolOf (name : String) (columns : List Column) : List UInt8 :=
  [0] ++ (textBytes name ++ [0]) ++ textsOf columns

/-- The bytes of a row. -/
def strideOf (columns : List Column) : Nat := (rowOf columns 0).length

/-- The places of a table. -/
structure Places where
  rows : Nat
  strings : Nat
  data : Nat

/-- The places that a table has. -/
def placesOf (name : String) (columns : List Column) (count : Nat) : Places :=
  let rows := 32 + (schemaOf (2 + (textBytes name).length) columns).length
  let strings := rows + (rowsOf columns count).length
  { rows, strings, data := strings + (poolOf name columns).length }

/-- The header of a table. -/
def headerOf (name : String) (columns : List Column) (count : Nat) : List UInt8 :=
  let places := placesOf name columns count
  utfMark ++ bigEndianBytes 4 (places.data - 8) ++ bigEndianBytes 4 (places.rows - 8)
    ++ bigEndianBytes 4 (places.strings - 8) ++ bigEndianBytes 4 (places.data - 8)
    ++ bigEndianBytes 4 1 ++ bigEndianBytes 2 columns.length
    ++ bigEndianBytes 2 (strideOf columns) ++ bigEndianBytes 4 count

/-- A table of columns and rows, as the encoder of the tests writes those of constants. -/
def encode (name : String) (columns : List Column) (count : Nat) : List UInt8 :=
  headerOf name columns count ++ schemaOf (2 + (textBytes name).length) columns
    ++ rowsOf columns count ++ poolOf name columns

/-- The constant columns of fields. -/
def constants (fields : List (String × UInt32)) : List Column :=
  fields.map fun field => { name := field.1, storage := .constant field.2 }

-----------------------------------------------------------------------------------------
-- Reading a column that was written
-----------------------------------------------------------------------------------------

section Written

variable {b : List UInt8} {layout : Layout} {column : Column} {columns : List Column}
  {offset row count : Nat} {state : Columns}

/-- A number of four bytes is read where it stands. -/
theorem be32_placed {p value : Nat} (placed : Placed b p (bigEndianBytes 4 value))
    (fits : value < 2 ^ 32)
    : be32 b p = .ok value := by
  obtain ⟨bytes, sliced, read⟩ := placed.number fits
  exact bind_ok.mpr ⟨bytes, context_ok.mpr sliced, congrArg Except.ok read⟩

/-- A number of two bytes is read where it stands. -/
theorem be16_placed {p value : Nat} (placed : Placed b p (bigEndianBytes 2 value))
    (fits : value < 2 ^ 16)
    : be16 b p = .ok value := by
  obtain ⟨bytes, sliced, read⟩ := placed.number fits
  exact bind_ok.mpr ⟨bytes, context_ok.mpr sliced, congrArg Except.ok read⟩

/-- The size of an integer type. -/
theorem columnSize_kind {kind : Nat} (integer : kind ≤ 7)
    : columnSize kind = .ok (kindWidth kind) := by
  rw [columnSize, kindWidth]
  by_cases one : kind ≤ 1
  · rw [if_pos one, if_pos one]
  by_cases two : kind ≤ 3
  · rw [if_neg one, if_neg one, if_pos two, if_pos two]
  by_cases four : kind ≤ 5
  · rw [if_neg one, if_neg one, if_neg two, if_neg two, if_pos (Or.inl four), if_pos four]
  · rw [if_neg one, if_neg one, if_neg two, if_neg two, if_neg (by omega), if_pos (by omega),
      if_neg four]

/-- The flags of a column in a row are its storage and its type. -/
theorem flags_parts {kind : Nat} (integer : kind ≤ 7)
    : ((0x50 + UInt8.ofNat kind) &&& 15).toNat = kind
      ∧ (0x50 + UInt8.ofNat kind) &&& 0xF0 = 0x50 := by
  have each : ∀ kind < 8, ((0x50 + UInt8.ofNat kind) &&& 15).toNat = kind
      ∧ (0x50 + UInt8.ofNat kind) &&& 0xF0 = 0x50 := by
    decide
  exact each kind (by omega)

/-- Columns stand where a reader is: their entries in the schema, their names in the texts and
their cells in the row.
-/
structure Columns.Before (state : Columns) (b : List UInt8) (layout : Layout) (offset : Nat)
    (columns : List Column) (row : Nat)
    : Prop where
  entries : Placed b state.schema (schemaOf offset columns)
  schemaFits : state.schema + (schemaOf offset columns).length ≤ layout.rows
  names : Placed b (layout.strings + offset) (textsOf columns)
  textsFit : layout.strings + offset + (textsOf columns).length ≤ layout.data
  cells : Placed b state.row (rowOf columns row)
  rowFits : state.row + (rowOf columns row).length ≤ layout.rowEnd

/-- The state of a reader behind a column. -/
def Columns.past (state : Columns) (offset row : Nat) (column : Column) : Columns :=
  {
    schema := state.schema + (column.entry offset).length
    row := state.row + (column.cell row).length
    out := state.out.insert column.name (column.value row)
  }

@[simp] theorem Columns.past_schema
    : (state.past offset row column).schema = state.schema + (column.entry offset).length := rfl

@[simp] theorem Columns.past_row
    : (state.past offset row column).row = state.row + (column.cell row).length := rfl

/-- Behind a column, the other ones stand where the reader is. -/
theorem Columns.Before.tail {rest : List Column}
    (before : state.Before b layout offset (column :: rest) row)
    : (state.past offset row column).Before b layout (offset + column.text.length) rest row := by
  obtain ⟨entries, schemaFits, names, textsFit, cells, rowFits⟩ := before
  simp only [schemaOf, textsOf, rowOf, List.flatMap_cons, List.length_append]
    at entries schemaFits names textsFit cells rowFits
  refine ⟨entries.right, ?_, ?_, ?_, cells.right, ?_⟩
  · rw [Columns.past_schema]
    omega
  · rw [← Nat.add_assoc]
    exact names.right
  · rw [textsOf]
    omega
  · rw [Columns.past_row, rowOf]
    omega

/-- A column that was written is read: its name is found, and its value is that of the row. -/
theorem readColumn_written {rest : List Column} (named : Nameable column.name)
    (fits : column.Fits count)
    (present : row < count) (counted : layout.count = count) (ordered : layout.data ≤ b.length)
    (small : layout.data < 2 ^ 32) (before : state.Before b layout offset (column :: rest) row)
    : readColumn b layout state = .ok (state.past offset row column) := by
  obtain ⟨entries, schemaFits, names, textsFit, cells, rowFits⟩ := before
  simp only [schemaOf, textsOf, rowOf, List.flatMap_cons, List.length_append]
    at entries schemaFits names textsFit cells rowFits
  obtain ⟨name, storage⟩ := column
  have entry := entries.left
  have held : b[state.schema]? = some (Column.flags ⟨name, storage⟩) := by
    have first := entry.left.left.getElem? (i := 0) Nat.one_pos
    rwa [Nat.add_zero] at first
  have start : be32 b (state.schema + 1) = .ok offset :=
    be32_placed entry.left.right (by omega)
  have text : string b (layout.strings + offset) layout.data = .ok name := by
    have size : (Column.text ⟨name, storage⟩).length = (textBytes name).length + 1 := by
      rw [Column.text, List.length_append, List.length_singleton]
    exact string_ok.mpr ⟨named.1, named.2, by omega, ordered, names.left⟩
  cases storage with
  | constant value =>
      have size : (Column.entry ⟨name, .constant value⟩ offset).length = 9 := by
        simp only [Column.entry, List.length_append, List.length_singleton, bigEndianBytes_length]
      have behind : ([Column.flags ⟨name, .constant value⟩] ++ bigEndianBytes 4 offset).length
          = 5 := by
        rw [List.length_append, List.length_singleton, bigEndianBytes_length]
      have valued := behind ▸ entry.right
      have sliced := valued.slice
      rw [bigEndianBytes_length] at sliced
      have read : bigEndian (bigEndianBytes 4 value.toNat) = value.toNat := by
        rw [bigEndian_bytes]
        exact Nat.mod_eq_of_lt value.toNat_lt
      have flags : (Column.flags ⟨name, .constant value⟩ &&& 15).toNat = 4
          ∧ Column.flags ⟨name, .constant value⟩ &&& 0xF0 = 0x30 := by
        have parts : ((0x34 : UInt8) &&& 15).toNat = 4 ∧ (0x34 : UInt8) &&& 0xF0 = 0x30 := by
          decide
        exact parts
      refine readColumn_ok.mpr ⟨_, offset, name, 4, some (state.schema + 5), held, start, text,
        ?_, ?_, ?_, by rw [Columns.past_schema]; omega⟩
      · rw [flags.1]
        rfl
      · rw [flags.2, Columns.past, size]
        exact bind_ok.mpr ⟨(), ensure_ok.mpr (decide_eq_true (by omega)), rfl⟩
      · rw [flags.1]
        refine bind_ok.mpr ⟨_, context_ok.mpr sliced, ?_⟩
        rw [read]
        rfl
  | perRow kind values =>
      obtain ⟨integer, within⟩ := fits
      obtain ⟨type, stored⟩ := flags_parts integer
      have size : (Column.entry ⟨name, .perRow kind values⟩ offset).length = 5 := by
        simp only [Column.entry, List.length_append, List.length_singleton, bigEndianBytes_length,
          List.length_nil]
      have width : (Column.cell ⟨name, .perRow kind values⟩ row).length = kindWidth kind :=
        bigEndianBytes_length _ _
      have sliced := cells.left.slice
      rw [width] at sliced rowFits
      have read : bigEndian (Column.cell ⟨name, .perRow kind values⟩ row) = values row := by
        rw [Column.cell, bigEndian_bytes]
        exact Nat.mod_eq_of_lt (within row present)
      refine readColumn_ok.mpr ⟨_, offset, name, kindWidth kind, some state.row, held, start, text,
        ?_, ?_, ?_, by rw [Columns.past_schema]; omega⟩
      · rw [Column.flags, type, columnSize_kind integer]
      · rw [Columns.past, size, width, Column.flags, stored]
        refine bind_ok.mpr ⟨(), ensure_ok.mpr ?_, rfl⟩
        rw [Bool.and_eq_true, decide_eq_true_eq, decide_eq_true_eq]
        omega
      · rw [Column.flags, type]
        refine bind_ok.mpr ⟨_, context_ok.mpr sliced, ?_⟩
        rw [if_pos integer, read]
        rfl

/-- The fields of a row of columns. -/
def fieldsOf (columns : List Column) (row : Nat) (out : Fields) : Fields :=
  columns.foldl (fun out column => out.insert column.name (column.value row)) out

/-- Columns that were written are read, by induction on them. -/
theorem readColumns_written (named : ∀ column ∈ columns, Nameable column.name)
    (fits : ∀ column ∈ columns, column.Fits count) (present : row < count)
    (counted : layout.count = count) (ordered : layout.data ≤ b.length)
    (small : layout.data < 2 ^ 32) (before : state.Before b layout offset columns row)
    : ∃ last,
        (List.range columns.length).foldlM (fun columns _ => readColumn b layout columns) state
          = .ok last
        ∧ last.out = fieldsOf columns row state.out := by
  induction columns generalizing offset state with
  | nil => exact ⟨state, rfl, rfl⟩
  | cons column rest ih =>
      have first := readColumn_written (named column List.mem_cons_self)
        (fits column List.mem_cons_self) present counted ordered small before
      obtain ⟨last, read, out⟩ := ih (fun c member => named c (List.mem_cons_of_mem _ member))
        (fun c member => fits c (List.mem_cons_of_mem _ member)) before.tail
      refine ⟨last, ?_, out⟩
      rw [List.length_cons, List.range_succ_eq_map, List.foldlM_cons]
      refine bind_ok.mpr ⟨_, first, ?_⟩
      rw [List.foldlM_map]
      exact read

end Written

-----------------------------------------------------------------------------------------
-- Lengths
-----------------------------------------------------------------------------------------

section Lengths

variable {name : String} {column : Column} {columns : List Column} {count i : Nat}

/-- The cells of a column are of one length. -/
theorem cell_length (column : Column) (row row' : Nat)
    : (column.cell row).length = (column.cell row').length := by
  obtain ⟨name, storage⟩ := column
  cases storage with
  | constant value => rfl
  | perRow kind values =>
      exact (bigEndianBytes_length _ _).trans (bigEndianBytes_length _ _).symm

/-- A cell has at most eight bytes. -/
theorem cell_small (column : Column) (row : Nat) : (column.cell row).length ≤ 8 := by
  obtain ⟨name, storage⟩ := column
  cases storage with
  | constant value => exact Nat.zero_le 8
  | perRow kind values =>
      have width : (Column.cell ⟨name, .perRow kind values⟩ row).length = kindWidth kind :=
        bigEndianBytes_length _ _
      rw [width, kindWidth]
      split_ifs <;> omega

/-- The rows are of one length. -/
theorem rowOf_length (columns : List Column) (row : Nat)
    : (rowOf columns row).length = strideOf columns := by
  rw [strideOf, rowOf, rowOf, List.length_flatMap, List.length_flatMap]
  exact congrArg List.sum (List.map_congr_left fun column _ => cell_length column row 0)

/-- A row has at most eight bytes for each column, by induction on the columns. -/
theorem strideOf_le (columns : List Column) : strideOf columns ≤ 8 * columns.length := by
  induction columns with
  | nil => exact Nat.zero_le _
  | cons column rest ih =>
      have cell := cell_small column 0
      rw [strideOf, rowOf] at ih ⊢
      rw [List.flatMap_cons, List.length_append, List.length_cons]
      omega

/-- The rows of one more row. -/
theorem rowsOf_succ (columns : List Column) (count : Nat)
    : rowsOf columns (count + 1) = rowsOf columns count ++ rowOf columns count := by
  rw [rowsOf, rowsOf, List.range_succ, List.flatMap_append, List.flatMap_singleton]

/-- The bytes of the rows, by induction on their number. -/
theorem rowsOf_length (columns : List Column) (count : Nat)
    : (rowsOf columns count).length = count * strideOf columns := by
  induction count with
  | zero => rw [rowsOf, List.range_zero, List.flatMap_nil, List.length_nil, Nat.zero_mul]
  | succ count ih => rw [rowsOf_succ, List.length_append, ih, rowOf_length, Nat.succ_mul]

/-- A row stands behind the rows before it, by induction on the number of rows. -/
theorem rowOf_placed {b : List UInt8} {p : Nat} (placed : Placed b p (rowsOf columns count))
    (present : i < count)
    : Placed b (p + i * strideOf columns) (rowOf columns i) := by
  induction count with
  | zero => exact absurd present (Nat.not_lt_zero i)
  | succ count ih =>
      rw [rowsOf_succ] at placed
      by_cases last : i = count
      · rw [last, ← rowsOf_length]
        exact placed.right
      · exact ih placed.left (by omega)

/-- A header has 32 bytes. -/
theorem headerOf_length : (headerOf name columns count).length = 32 := by
  simp only [headerOf, utfMark, List.length_append, bigEndianBytes_length, List.length_cons,
    List.length_nil]

/-- A table ends with its texts. -/
theorem encode_length
    : (encode name columns count).length = (placesOf name columns count).data := by
  simp only [encode, placesOf, List.length_append, headerOf_length]

end Lengths

-----------------------------------------------------------------------------------------
-- Reading a table that was written
-----------------------------------------------------------------------------------------

section Tables

variable {name : String} {columns : List Column} {count i : Nat}

/-- The layout in which a row of a table is read. -/
def layoutOf (name : String) (columns : List Column) (count i : Nat) : Layout :=
  let places := placesOf name columns count
  {
    stop := places.data
    rows := places.rows
    strings := places.strings
    data := places.data
    rowEnd := places.rows + i * strideOf columns + strideOf columns
    count
  }

/-- The parts of a table stand at its places. -/
theorem encode_parts (name : String) (columns : List Column) (count : Nat)
    : let b := encode name columns count
      let places := placesOf name columns count
      Placed b 0 (headerOf name columns count)
      ∧ Placed b 32 (schemaOf (2 + (textBytes name).length) columns)
      ∧ Placed b places.rows (rowsOf columns count)
      ∧ Placed b places.strings (poolOf name columns) := by
  have whole := Placed.whole (encode name columns count)
  rw [encode] at whole
  have schema := whole.left.left.right
  have rows := whole.left.right
  have pool := whole.right
  simp only [List.length_append, headerOf_length, Nat.zero_add] at schema rows pool
  exact ⟨whole.left.left.left, schema, rows, pool⟩

/-- The fields of a header are read. -/
theorem encode_header (small : (placesOf name columns count).data < 2 ^ 32)
    (narrow : columns.length ≤ 256) (few : count ≤ 1000000)
    : let b := encode name columns count
      let places := placesOf name columns count
      utfMark.isPrefixOf b = true
      ∧ be32 b 4 = .ok (places.data - 8)
      ∧ be32 b 8 = .ok (places.rows - 8)
      ∧ be32 b 12 = .ok (places.strings - 8)
      ∧ be32 b 16 = .ok (places.data - 8)
      ∧ be32 b 20 = .ok 1
      ∧ be16 b 24 = .ok columns.length
      ∧ be16 b 26 = .ok (strideOf columns)
      ∧ be32 b 28 = .ok count := by
  have rows : (placesOf name columns count).rows ≤ (placesOf name columns count).strings :=
    Nat.le_add_right _ _
  have strings : (placesOf name columns count).strings ≤ (placesOf name columns count).data :=
    Nat.le_add_right _ _
  have stride := strideOf_le columns
  have h8 := (encode_parts name columns count).1
  rw [headerOf] at h8
  have h7 := h8.left
  have h6 := h7.left
  have h5 := h6.left
  have h4 := h5.left
  have h3 := h4.left
  have h2 := h3.left
  have h1 := h2.left
  have mark := h1.left.drop
  have f1 := h1.right
  have f2 := h2.right
  have f3 := h3.right
  have f4 := h4.right
  have f5 := h5.right
  have f6 := h6.right
  have f7 := h7.right
  have f8 := h8.right
  have four : utfMark.length = 4 := rfl
  simp only [List.length_append, bigEndianBytes_length, four, Nat.zero_add, Nat.reduceAdd]
    at f1 f2 f3 f4 f5 f6 f7 f8
  refine ⟨?_, be32_placed f1 (by omega), be32_placed f2 (by omega), be32_placed f3 (by omega),
    be32_placed f4 (by omega), be32_placed f5 (by omega), be16_placed f6 (by omega),
    be16_placed f7 (by omega), be32_placed f8 (by omega)⟩
  obtain ⟨back, shape⟩ := mark
  rw [List.drop_zero] at shape
  exact List.isPrefixOf_iff_prefix.mpr ⟨back, shape.symm⟩

/-- A table that is not too long declares its layout. -/
theorem encode_declared (limited : (encode name columns count).length ≤ 16 * 2 ^ 20)
    (narrow : columns.length ≤ 256) (few : count ≤ 1000000) (present : i < count)
    : (layoutOf name columns count i).Declared (encode name columns count) i
        (strideOf columns) := by
  have whole := @encode_length name columns count
  have head : 32 ≤ (placesOf name columns count).rows := Nat.le_add_right _ _
  have rows : (placesOf name columns count).strings
      = (placesOf name columns count).rows + count * strideOf columns := by
    rw [← rowsOf_length]
    rfl
  have strings : (placesOf name columns count).strings ≤ (placesOf name columns count).data :=
    Nat.le_add_right _ _
  have middle : 32 ≤ (placesOf name columns count).strings := by omega
  have ended : 32 ≤ (placesOf name columns count).data := by omega
  obtain ⟨mark, stop, first, texts, data, -, -, stride, counted⟩ :=
    @encode_header name columns count (by omega) narrow few
  have behind : ∀ {p : Nat}, 32 ≤ p → p = 8 + (p - 8) := fun {p} long => by omega
  exact
    {
      mark, limited, few, present
      long := by omega
      stop := ⟨_, stop, behind ended⟩
      rows := ⟨_, first, behind head⟩
      strings := ⟨_, texts, behind middle⟩
      data := ⟨_, data, behind ended⟩
      row := stride
      count := counted
      rowEnd := rfl
      head
      rowsFirst := Nat.le_add_right _ _
      stringsNext := strings
      dataLast := Nat.le_refl _
      whole := Nat.le_of_eq whole.symm
      fits := Nat.le_of_eq (by rw [layoutOf]; dsimp only; omega)
    }

/-- The columns of a table stand where its reader starts. -/
theorem encode_before (present : i < count)
    : ({
          schema := 32
          row := (placesOf name columns count).rows + i * strideOf columns
          out := ∅
        } : Columns).Before (encode name columns count) (layoutOf name columns count i)
        (2 + (textBytes name).length) columns i := by
  obtain ⟨-, schema, rows, pool⟩ := encode_parts name columns count
  have texts := pool.right
  have front : ([0] ++ (textBytes name ++ [0])).length = 2 + (textBytes name).length := by
    simp only [List.length_append, List.length_singleton]
    omega
  have size := pool.bounded
  rw [front] at texts
  refine ⟨schema, Nat.le_refl _, texts, ?_, rowOf_placed rows present, ?_⟩
  · change (placesOf name columns count).strings + _ + _
      ≤ (placesOf name columns count).strings + (poolOf name columns).length
    rw [poolOf, List.length_append, front]
    omega
  · exact Nat.le_of_eq (congrArg _ (rowOf_length columns i))

/-- A row of a table is read: the name and the fields of the row. -/
theorem tableRow_written (named : Nameable name)
    (columnsNamed : ∀ column ∈ columns, Nameable column.name)
    (fits : ∀ column ∈ columns, column.Fits count) (narrow : columns.length ≤ 256)
    (few : count ≤ 1000000) (limited : (encode name columns count).length ≤ 16 * 2 ^ 20)
    (present : i < count)
    : tableRow (encode name columns count) i = .ok (name, fieldsOf columns i ∅) := by
  have whole := @encode_length name columns count
  have declared := encode_declared limited narrow few present
  obtain ⟨-, -, -, -, -, start, width, -, -⟩ :=
    @encode_header name columns count (by omega) narrow few
  have counted : (layoutOf name columns count i).count = count := rfl
  have small : (layoutOf name columns count i).data < 2 ^ 32 := by
    change (placesOf name columns count).data < 2 ^ 32
    omega
  obtain ⟨last, read, out⟩ := readColumns_written columnsNamed fits present counted
    (Nat.le_of_eq whole.symm) small (encode_before present)
  have text : string (encode name columns count) ((placesOf name columns count).strings + 1)
      (placesOf name columns count).data = .ok name := by
    have pool := (encode_parts name columns count).2.2.2
    have ending := pool.left.bounded
    have size : (placesOf name columns count).data
        = (placesOf name columns count).strings + (poolOf name columns).length := rfl
    refine string_ok.mpr ⟨named.1, named.2, ?_, Nat.le_of_eq whole.symm, pool.left.right⟩
    rw [size, poolOf]
    simp only [List.length_append, List.length_singleton]
    omega
  exact tableRow_ok.mpr ⟨_, _, _, 1, last, declared, start, text, width, narrow, read, out⟩

end Tables

-----------------------------------------------------------------------------------------
-- The fields of a row
-----------------------------------------------------------------------------------------

section Rows

variable {columns : List Column} {out : Fields} {row value : Nat} {key : String}

/-- Columns of other names make no difference to a field, by induction on them. -/
theorem fieldsOf_other (absent : ∀ column ∈ columns, column.name ≠ key)
    : (fieldsOf columns row out)[key]? = out[key]? := by
  induction columns generalizing out with
  | nil => rfl
  | cons column rest ih =>
      have other : column.name ≠ key := absent column List.mem_cons_self
      have rest' := @ih (out.insert column.name (column.value row))
        fun c member => absent c (List.mem_cons_of_mem _ member)
      rw [Std.TreeMap.getElem?_insert,
        if_neg (other ∘ Std.LawfulEqOrd.compare_eq_iff_eq.mp)] at rest'
      exact rest'

/-- A column is among the fields with its value, by induction on the columns. -/
theorem fieldsOf_mem {column : Column} (distinct : (columns.map Column.name).Nodup)
    (member : column ∈ columns)
    : (fieldsOf columns row out)[column.name]? = some (column.value row) := by
  induction columns generalizing out with
  | nil => exact absurd member List.not_mem_nil
  | cons head rest ih =>
      rw [List.map_cons, List.nodup_cons] at distinct
      obtain rfl | later := List.mem_cons.mp member
      · have others : ∀ c ∈ rest, c.name ≠ column.name := fun c held same =>
          distinct.1 (List.mem_map.mpr ⟨c, held, same⟩)
        refine (fieldsOf_other others).trans ?_
        rw [Std.TreeMap.getElem?_insert_self]
      · exact ih distinct.2 later

/-- The fields of a row are those of its columns. -/
theorem fieldsOf_iff (distinct : (columns.map Column.name).Nodup)
    : (fieldsOf columns row ∅)[key]? = some value
      ↔ ∃ column ∈ columns, column.name = key ∧ column.value row = value := by
  constructor
  · intro found
    by_cases named : ∃ column ∈ columns, column.name = key
    · obtain ⟨column, member, rfl⟩ := named
      rw [fieldsOf_mem distinct member] at found
      exact ⟨column, member, rfl, Option.some.inj found⟩
    · rw [fieldsOf_other fun column member same => named ⟨column, member, same⟩,
        Std.TreeMap.getElem?_emptyc] at found
      cases found
  · rintro ⟨column, member, rfl, rfl⟩
    exact fieldsOf_mem distinct member

end Rows

-----------------------------------------------------------------------------------------
-- Tables of constants
-----------------------------------------------------------------------------------------

section Constants

variable {name : String} {fields : List (String × UInt32)}

/-- The loop of `utf` writes the names and the entries of constant columns, by induction on the
fields.
-/
theorem utfFields_eq (fields : List (String × UInt32)) (strings schema : List UInt8)
    : fields.foldl utfField (strings, schema)
      = (strings ++ textsOf (constants fields),
        schema ++ schemaOf strings.length (constants fields)) := by
  induction fields generalizing strings schema with
  | nil =>
      rw [constants, List.map_nil, textsOf, List.flatMap_nil, schemaOf, List.append_nil,
        List.append_nil, List.foldl_nil]
  | cons field rest ih =>
      have first : constants (field :: rest)
          = { name := field.1, storage := .constant field.2 } :: constants rest := rfl
      rw [List.foldl_cons, utfField, ih, first, textsOf, textsOf, schemaOf, List.flatMap_cons,
        Column.text, Column.entry, Column.flags]
      simp only [List.append_assoc, List.length_append]

/-- The columns of constants have no cells. -/
theorem rowOf_constants (fields : List (String × UInt32)) (row : Nat)
    : rowOf (constants fields) row = [] := by
  rw [rowOf, List.flatMap_eq_nil_iff]
  intro column member
  obtain ⟨field, -, rfl⟩ := List.mem_map.mp member
  rfl

/-- The encoder of the tests writes the table of constant columns with one row. -/
theorem utf_eq (name : String) (fields : List (String × UInt32))
    : utf name fields = encode name (constants fields) 1 := by
  have rows : rowsOf (constants fields) 1 = [] := by
    rw [rowsOf, List.range_one, List.flatMap_singleton, rowOf_constants]
  have stride : strideOf (constants fields) = 0 := congrArg _ (rowOf_constants fields 0)
  have size : (constants fields).length = fields.length := List.length_map _
  have front : ([0] ++ textBytes name ++ [0] : List UInt8).length
      = 2 + (textBytes name).length := by
    simp only [List.length_append, List.length_singleton]
    omega
  have flat : bigEndianBytes 2 0 = [0, 0] := rfl
  rw [utf, utfFields_eq, encode, headerOf, placesOf, rows, stride, size, flat, poolOf, front]
  simp only [List.nil_append, List.append_nil, List.length_nil, Nat.add_zero, List.append_assoc]

/-- The entries of columns have at most nine bytes each, by induction on the columns. -/
theorem schemaOf_le (offset : Nat) (columns : List Column)
    : (schemaOf offset columns).length ≤ 9 * columns.length := by
  induction columns generalizing offset with
  | nil => exact Nat.zero_le _
  | cons column rest ih =>
      have first : (column.entry offset).length ≤ 9 := by
        obtain ⟨name, storage⟩ := column
        cases storage <;>
          simp only [Column.entry, List.length_append, List.length_singleton,
            bigEndianBytes_length, List.length_nil] <;>
          omega
      have others := ih (offset + column.text.length)
      rw [schemaOf, List.length_append, List.length_cons]
      omega

/-- The names of columns are short, by induction on the columns. -/
theorem textsOf_le {columns : List Column} (named : ∀ column ∈ columns, Nameable column.name)
    : (textsOf columns).length ≤ 4097 * columns.length := by
  induction columns with
  | nil => exact Nat.zero_le _
  | cons column rest ih =>
      have first := (named column List.mem_cons_self).2
      have others := ih fun c member => named c (List.mem_cons_of_mem _ member)
      rw [textsOf] at others ⊢
      rw [List.flatMap_cons, List.length_append, Column.text, List.length_append,
        List.length_singleton, List.length_cons]
      omega

/-- Tables of constants are not too long. -/
theorem constants_limited (named : Nameable name)
    (columnsNamed : ∀ column ∈ constants fields, Nameable column.name)
    (narrow : (constants fields).length ≤ 256)
    : (encode name (constants fields) 1).length ≤ 16 * 2 ^ 20 := by
  have schema := schemaOf_le (2 + (textBytes name).length) (constants fields)
  have texts := textsOf_le columnsNamed
  have rows := rowsOf_length (constants fields) 1
  have stride : strideOf (constants fields) = 0 := congrArg _ (rowOf_constants fields 0)
  have short := named.2
  rw [encode_length, placesOf]
  dsimp only
  rw [rows, stride, poolOf]
  simp only [List.length_append, List.length_singleton]
  omega

end Constants

-----------------------------------------------------------------------------------------
-- The reader inverts the encoders
-----------------------------------------------------------------------------------------

/-- Reading inverts writing: for tables of constants, and for every row of tables with values in
rows that do not exceed the limit of the reader.
-/
theorem tables_read {name : String} (named : Nameable name)
    : (∀ fields : List (String × UInt32),
        fields.length ≤ 256
        → (fields.map Prod.fst).Nodup
        → (∀ field ∈ fields, Nameable field.1)
        → ∃ out,
            table (utf name fields) = .ok (name, out)
            ∧ ∀ key value,
                out[key]? = some value
                ↔ ∃ field ∈ fields, field.1 = key ∧ field.2.toNat = value)
      ∧ ∀ (columns : List Column) (count : Nat),
          columns.length ≤ 256
          → (columns.map Column.name).Nodup
          → (∀ column ∈ columns, Nameable column.name ∧ column.Fits count)
          → count ≤ 1000000
          → (encode name columns count).length ≤ 16 * 2 ^ 20
          → ∀ i < count,
              ∃ out,
                tableRow (encode name columns count) i = .ok (name, out)
                ∧ ∀ key value,
                    out[key]? = some value
                    ↔ ∃ column ∈ columns, column.name = key ∧ column.value i = value := by
  constructor
  · intro fields narrow distinct fieldsNamed
    have columnsNamed : ∀ column ∈ constants fields, Nameable column.name := by
      intro column member
      obtain ⟨field, held, rfl⟩ := List.mem_map.mp member
      exact fieldsNamed field held
    have fits : ∀ column ∈ constants fields, column.Fits 1 := by
      intro column member
      obtain ⟨field, -, rfl⟩ := List.mem_map.mp member
      exact trivial
    have narrow' : (constants fields).length ≤ 256 := by
      rw [constants, List.length_map]
      exact narrow
    have names : (constants fields).map Column.name = fields.map Prod.fst := List.map_map
    have read := tableRow_written named columnsNamed fits narrow' (by omega)
      (constants_limited named columnsNamed narrow') Nat.one_pos
    rw [← utf_eq] at read
    refine ⟨_, read, fun key value => ?_⟩
    rw [fieldsOf_iff (names.symm ▸ distinct)]
    constructor
    · rintro ⟨column, member, rfl, rfl⟩
      obtain ⟨field, held, rfl⟩ := List.mem_map.mp member
      exact ⟨field, held, rfl, rfl⟩
    · rintro ⟨field, held, rfl, rfl⟩
      exact ⟨_, List.mem_map.mpr ⟨field, held, rfl⟩, rfl, rfl⟩
  · intro columns count narrow distinct suited few limited i present
    exact ⟨_, tableRow_written named (fun column member => (suited column member).1)
      (fun column member => (suited column member).2) narrow few limited present,
      fun key value => fieldsOf_iff distinct⟩

/-- The columns of a seek table. -/
def seekColumns : List Column :=
  [⟨"ofs_frmid", .constant 7⟩, ⟨"ofs_byte", .perRow 6 fun row => 1000 * row⟩,
    ⟨"num_skip", .perRow 2 fun row => row⟩]

/-- The second row of a seek table. -/
theorem tables_read_seek
    : ∃ out,
        tableRow (encode "VIDEO_SEEKINFO" seekColumns 3) 1 = .ok ("VIDEO_SEEKINFO", out)
        ∧ ∀ key value,
            out[key]? = some value
            ↔ ∃ column ∈ seekColumns, column.name = key ∧ column.value 1 = value := by
  have suited : ∀ column ∈ seekColumns, Nameable column.name ∧ column.Fits 3 := by
    intro column member
    simp only [seekColumns, List.mem_cons, List.not_mem_nil, or_false] at member
    obtain rfl | rfl | rfl := member
    · exact ⟨by decide +kernel, trivial⟩
    · exact ⟨by decide +kernel, by decide, by decide⟩
    · exact ⟨by decide +kernel, by decide, by decide⟩
  exact (tables_read (by decide +kernel)).2 seekColumns 3 (by decide) (by decide) suited (by decide)
    (by decide +kernel) 1 (by decide)

/-- A table with too many bytes in its rows is too long. -/
theorem encode_long {name : String} {columns : List Column} {count : Nat}
    (long : 16 * 2 ^ 20 < count * strideOf columns)
    : ¬ (encode name columns count).length ≤ 16 * 2 ^ 20 := by
  have rows := rowsOf_length columns count
  rw [encode_length, placesOf]
  dsimp only
  omega

/-- Bytes above the limit are no table. -/
theorem tableRow_long {b : List UInt8} (i : Nat) (long : ¬ b.length ≤ 16 * 2 ^ 20)
    : tableRow b i = .error (.error "invalid UTF table") := by
  rw [tableRow, decide_eq_false long, Bool.and_false]
  rfl

/-- Three columns of eight bytes in a million rows. -/
def largeColumns : List Column :=
  ["first", "second", "third"].map fun name => { name, storage := .perRow 6 fun _ => 0 }

/-- A table whose columns and rows are all allowed can be longer than the reader accepts. -/
theorem largeTable_refused
    : Nameable "LARGE"
      ∧ largeColumns.length ≤ 256
      ∧ (largeColumns.map Column.name).Nodup
      ∧ (∀ column ∈ largeColumns, Nameable column.name ∧ column.Fits 1000000)
      ∧ tableRow (encode "LARGE" largeColumns 1000000) 0
        = .error (.error "invalid UTF table") := by
  refine ⟨by decide +kernel, by decide, by decide, ?_, ?_⟩
  · intro column member
    simp only [largeColumns, List.map_cons, List.map_nil, List.mem_cons, List.not_mem_nil,
      or_false] at member
    obtain rfl | rfl | rfl := member
    all_goals exact ⟨by decide +kernel, by decide, fun _ _ => Nat.pow_pos (by decide)⟩
  · have stride : strideOf largeColumns = 24 := rfl
    refine tableRow_long 0 (encode_long ?_)
    rw [stride]
    decide

end MoenotesAssets.Usm
