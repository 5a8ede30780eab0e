import MoenotesAssets.Foundation.Placement
import MoenotesAssets.Usm.Totality

/-! What `table_row` reads lies within the table that the header declares: what follows the table
makes no difference, values come from their row, and texts from the string area.
-/

namespace MoenotesAssets.Usm

open Foundation Foundation.Bytes Foundation.Machine

-----------------------------------------------------------------------------------------
-- Headers
-----------------------------------------------------------------------------------------

/-- What the header of a table declares, and the checks that it passes. -/
structure Layout.Declared (layout : Layout) (b : List UInt8) (rowIndex stride : Nat) : Prop where
  mark : utfMark.isPrefixOf b = true
  long : 32 ≤ b.length
  limited : b.length ≤ 16 * 2 ^ 20
  stop : ∃ size, be32 b 4 = .ok size ∧ layout.stop = 8 + size
  rows : ∃ offset, be32 b 8 = .ok offset ∧ layout.rows = 8 + offset
  strings : ∃ offset, be32 b 12 = .ok offset ∧ layout.strings = 8 + offset
  data : ∃ offset, be32 b 16 = .ok offset ∧ layout.data = 8 + offset
  row : be16 b 26 = .ok stride
  count : be32 b 28 = .ok layout.count
  rowEnd : layout.rowEnd = layout.rows + rowIndex * stride + stride
  head : 32 ≤ layout.rows
  rowsFirst : layout.rows ≤ layout.strings
  stringsNext : layout.strings ≤ layout.data
  dataLast : layout.data ≤ layout.stop
  whole : layout.stop ≤ b.length
  few : layout.count ≤ 1000000
  fits : layout.count * stride ≤ layout.strings - layout.rows
  present : rowIndex < layout.count

/-- The row that is read ends before the string area. -/
theorem Layout.Declared.inside {b : List UInt8} {rowIndex stride : Nat} {layout : Layout}
    (declared : layout.Declared b rowIndex stride)
    : layout.rowEnd ≤ layout.strings := by
  have rows : (rowIndex + 1) * stride ≤ layout.count * stride :=
    Nat.mul_le_mul_right stride declared.present
  have fits := declared.fits
  have first := declared.rowsFirst
  rw [Nat.succ_mul] at rows
  rw [declared.rowEnd]
  omega

/-- A row is read when the header passes its checks and the name and the columns are read. -/
theorem tableRow_ok {b : List UInt8} {rowIndex : Nat} {name : String} {out : Fields}
    : tableRow b rowIndex = .ok (name, out)
      ↔ ∃ layout stride columns offset last,
          layout.Declared b rowIndex stride
          ∧ be32 b 20 = .ok offset
          ∧ string b (layout.strings + offset) layout.data = .ok name
          ∧ be16 b 24 = .ok columns
          ∧ columns ≤ 256
          ∧ (List.range columns).foldlM (fun columns _ => readColumn b layout columns)
              { schema := 32, row := layout.rows + rowIndex * stride, out := ∅ }
            = .ok last
          ∧ last.out = out := by
  simp only [tableRow, bind_ok, pure_ok, ensure_ok, subSize_ok, Bool.and_eq_true,
    decide_eq_true_eq, Prod.mk.injEq]
  constructor
  · rintro ⟨_, ⟨⟨mark, long⟩, limited⟩, size, stop, _, ⟨whole, -⟩, rowsAt, rows, stringsAt, strings,
      dataAt, data, _, ⟨⟨⟨head, rowsFirst⟩, stringsNext⟩, dataLast⟩, offset, named, _, texted,
      columns, schema, stride, row, count, counted, _, ⟨narrow, few⟩, _, ⟨rfl, -⟩, _, fits, _,
      present, last, read, rfl, rfl⟩
    refine ⟨⟨8 + size, 8 + rowsAt, 8 + stringsAt, 8 + dataAt,
      8 + rowsAt + rowIndex * stride + stride, count⟩, stride, columns, offset, last, ?_, named,
      texted, schema, narrow, read, rfl⟩
    exact
      {
        mark, long, limited, row, whole, head, rowsFirst, stringsNext, dataLast, few, fits, present
        stop := ⟨size, stop, rfl⟩
        rows := ⟨rowsAt, rows, rfl⟩
        strings := ⟨stringsAt, strings, rfl⟩
        data := ⟨dataAt, data, rfl⟩
        count := counted
        rowEnd := rfl
      }
  · rintro ⟨⟨stop, rows, strings, data, rowEnd, count⟩, stride, columns, offset, last, declared,
      named, texted, schema, narrow, read, rfl⟩
    obtain ⟨mark, long, limited, ⟨size, sized, rfl⟩, ⟨rowsAt, rowed, rfl⟩,
      ⟨stringsAt, stringed, rfl⟩, ⟨dataAt, dated, rfl⟩, row, counted, finish, head, rowsFirst,
      stringsNext, dataLast, whole, few, fits, present⟩ := declared
    dsimp only at finish
    subst finish
    have ending : 32 ≤ 8 + size :=
      Nat.le_trans head (Nat.le_trans rowsFirst (Nat.le_trans stringsNext dataLast))
    exact ⟨(), ⟨⟨mark, long⟩, limited⟩, size, sized, (), ⟨whole, ending⟩, rowsAt, rowed, stringsAt,
      stringed, dataAt, dated, (), ⟨⟨⟨head, rowsFirst⟩, stringsNext⟩, dataLast⟩, offset, named,
      _, texted, columns, schema, stride, row, count, counted, (), ⟨narrow, few⟩, _,
      ⟨rfl, rowsFirst⟩, (), fits, (), present, last, read, rfl, rfl⟩

-----------------------------------------------------------------------------------------
-- Reads
-----------------------------------------------------------------------------------------

section Reads

variable {b b' : List UInt8} {stop : Nat}

/-- Two bytes before the position are read alike. -/
theorem be16_agree (agree : Agree stop b b') {p : Nat} (inside : p + 2 ≤ stop)
    : be16 b p = be16 b' p := by
  rw [be16, be16, agree.slice inside]

/-- Four bytes before the position are read alike. -/
theorem be32_agree (agree : Agree stop b b') {p : Nat} (inside : p + 4 ≤ stop)
    : be32 b p = be32 b' p := by
  rw [be32, be32, agree.slice inside]

/-- Texts that end before the position are read alike. -/
theorem string_agree (agree : Agree stop b b') {finish : Nat} (inside : finish ≤ stop) (p : Nat)
    : string b p finish = string b' p finish := by
  rw [string, string, agree.slice inside]

/-- The mark is the first four bytes. -/
theorem utfMark_agree (agree : Agree stop b b') (inside : 4 ≤ stop)
    (mark : utfMark.isPrefixOf b = true)
    : utfMark.isPrefixOf b' = true := by
  rw [List.isPrefixOf_iff_prefix, List.prefix_iff_eq_take] at mark ⊢
  exact mark.trans (agree.earlier inside).same

/-- The first zero byte of bytes that start with a text. -/
theorem findIdx?_zero {bytes text : List UInt8} {n : Nat} (size : text.length = n)
    : bytes.findIdx? (fun byte => byte == 0) = some n ∧ bytes.take n = text
      ↔ (0 : UInt8) ∉ text ∧ ∃ rest, bytes = text ++ [0] ++ rest := by
  subst size
  constructor
  · rintro ⟨found, front⟩
    obtain ⟨inside, zero, before⟩ := List.findIdx?_eq_some_iff_getElem.mp found
    refine ⟨fun member => ?_, bytes.drop (text.length + 1), ?_⟩
    · obtain ⟨i, within, same⟩ := List.mem_iff_getElem.mp member
      refine before i within ?_
      have here : bytes[i]? = text[i]? := by rw [← List.getElem?_take_of_lt within, front]
      rw [List.getElem?_eq_getElem (by omega), List.getElem?_eq_getElem within, same] at here
      rw [Option.some.inj here]
      rfl
    · have byte : bytes[text.length] = 0 := beq_iff_eq.mp zero
      rw [List.append_assoc, List.singleton_append, ← byte, List.getElem_cons_drop]
      conv => lhs; rw [← List.take_append_drop text.length bytes, front]
  · rintro ⟨absent, rest, rfl⟩
    refine ⟨List.findIdx?_eq_some_iff_getElem.mpr ⟨?_, ?_, fun i below => ?_⟩, ?_⟩
    · simp only [List.length_append, List.length_singleton]
      omega
    · simp
    · simp only [List.append_assoc, List.getElem_append_left below]
      exact fun zero => absent (beq_iff_eq.mp zero ▸ List.getElem_mem below)
    · rw [List.append_assoc, List.take_left]

/-- A text is read just when it stands at its position, with a zero byte behind it and none in
it.
-/
theorem string_ok {p finish : Nat} {text : String}
    : string b p finish = .ok text
      ↔ (0 : UInt8) ∉ textBytes text
        ∧ (textBytes text).length ≤ 4096
        ∧ p + (textBytes text).length + 1 ≤ finish
        ∧ finish ≤ b.length
        ∧ Placed b p (textBytes text ++ [0]) := by
  have utf : ∀ bytes, utf8 bytes = .ok text ↔ textBytes text = bytes := by
    intro bytes
    rw [utf8, context_ok]
    exact fromUtf8_eq_some
  simp only [string, bind_ok, context_ok, ensure_ok, decide_eq_true_eq, utf]
  constructor
  · rintro ⟨v, sliced, n, found, _, small, front⟩
    obtain ⟨ordered, bounded, rfl⟩ := slice_eq_some.mp sliced
    have inside := (List.findIdx?_eq_some_iff_getElem.mp found).1
    have size : (textBytes text).length = n := by
      rw [front, List.length_take]
      omega
    obtain ⟨absent, rest, shape⟩ := (findIdx?_zero size).mp ⟨found, front.symm⟩
    have total := congrArg List.length shape
    rw [List.length_take, List.length_drop, List.length_append, List.length_append,
      List.length_singleton] at total
    refine ⟨absent, by omega, by omega, bounded, b.take p, rest ++ b.drop finish, ?_, ?_⟩
    · calc b = b.take p ++ ((b.drop p).take (finish - p) ++ (b.drop p).drop (finish - p)) := by
            rw [List.take_append_drop, List.take_append_drop]
        _ = _ := by
            rw [shape, List.drop_drop, Nat.add_sub_cancel' ordered]
            simp only [List.append_assoc]
    · rw [List.length_take]
      omega
  · rintro ⟨absent, small, fits, bounded, placed⟩
    obtain ⟨back, rest⟩ := placed.drop
    have long : (textBytes text ++ [0]).length = (textBytes text).length + 1 := by
      rw [List.length_append, List.length_singleton]
    have sliced : (b.drop p).take (finish - p)
        = textBytes text ++ [0] ++ back.take (finish - p - (textBytes text ++ [0]).length) := by
      rw [rest, List.take_append, List.take_of_length_le (by omega)]
    obtain ⟨found, front⟩ := (findIdx?_zero rfl).mpr ⟨absent, _, sliced⟩
    exact ⟨_, slice_eq_some.mpr ⟨by omega, bounded, rfl⟩, _, found, (), small, front.symm⟩

/-- A text lies in the string area, with the zero byte behind it. -/
def Layout.HasText (layout : Layout) (b : List UInt8) (text : String) : Prop :=
  ∃ p,
    layout.strings ≤ p
    ∧ p + (textBytes text).length + 1 ≤ layout.data
    ∧ Placed b p (textBytes text ++ [0])

end Reads

-----------------------------------------------------------------------------------------
-- Columns
-----------------------------------------------------------------------------------------

/-- What reading a column has done. -/
structure ReadsColumn (b : List UInt8) (layout : Layout) (columns after : Columns) (flags : UInt8)
    (offset : Nat) (name : String) (size : Nat) (place : Option Nat)
    : Prop where
  held : b[columns.schema]? = some flags
  start : be32 b (columns.schema + 1) = .ok offset
  text : string b (layout.strings + offset) layout.data = .ok name
  sized : columnSize (flags &&& 15).toNat = .ok size
  placed
    : columnPlace layout (flags &&& 0xF0) size (columns.schema + 5) columns.row
      = .ok (place, after.schema, after.row)
  value
    : columnValue b layout (flags &&& 15).toNat size name place columns.out = .ok after.out
  within : after.schema ≤ layout.rows

/-- A column is read when its parts are. -/
theorem readColumn_ok {b : List UInt8} {layout : Layout} {columns after : Columns}
    : readColumn b layout columns = .ok after
      ↔ ∃ flags offset name size place,
          ReadsColumn b layout columns after flags offset name size place := by
  simp only [readColumn, bind_ok, context_ok, ensure_ok, pure_ok, decide_eq_true_eq]
  constructor
  · rintro ⟨flags, held, offset, start, name, text, size, sized, ⟨place, schema, row⟩, placed, out,
      value, _, within, rfl⟩
    exact ⟨flags, offset, name, size, place, held, start, text, sized, placed, value, within⟩
  · rintro ⟨flags, offset, name, size, place, held, start, text, sized, placed, value, within⟩
    exact ⟨flags, held, offset, start, name, text, size, sized, ⟨place, after.schema, after.row⟩,
      placed, after.out, value, (), within, rfl⟩

/-- Where a column can keep its value, and how far the schema and the row are then read. -/
theorem columnPlace_cases {layout : Layout} {storage : UInt8} {size schema row schema' row' : Nat}
    {place : Option Nat}
    (placed : columnPlace layout storage size schema row = .ok (place, schema', row'))
    : (storage = 0x10 ∧ place = none ∧ schema' = schema ∧ row' = row)
      ∨ ((storage = 0x30 ∨ storage = 0x70)
        ∧ place = some schema
        ∧ schema' = schema + size
        ∧ row' = row
        ∧ schema + size ≤ layout.rows)
      ∨ (storage = 0x50
        ∧ place = some row
        ∧ schema' = schema
        ∧ row' = row + size
        ∧ row + size ≤ layout.rowEnd) := by
  rw [columnPlace] at placed
  split at placed
  case isTrue empty =>
    cases placed
    exact Or.inl ⟨empty, rfl, rfl, rfl⟩
  split at placed
  case isTrue constant =>
    simp only [bind_ok, ensure_ok, pure_ok, decide_eq_true_eq, Prod.mk.injEq] at placed
    obtain ⟨_, within, rfl, rfl, rfl⟩ := placed
    exact Or.inr (Or.inl ⟨constant, rfl, rfl, rfl, within⟩)
  split at placed
  case isTrue stored =>
    simp only [bind_ok, ensure_ok, pure_ok, Bool.and_eq_true, decide_eq_true_eq,
      Prod.mk.injEq] at placed
    obtain ⟨_, ⟨within, -⟩, rfl, rfl, rfl⟩ := placed
    exact Or.inr (Or.inr ⟨stored, rfl, rfl, rfl, within⟩)
  · cases placed

/-- The widths of the values that hold references. -/
theorem columnSize_references {kind size : Nat} (sized : columnSize kind = .ok size)
    : (kind = 10 → size = 4) ∧ (kind = 11 → size = 8) := by
  constructor
  · rintro rfl
    exact (Except.ok.inj sized).symm
  · rintro rfl
    exact (Except.ok.inj sized).symm

/-- Values before the position are read alike. -/
theorem columnValue_agree {b b' : List UInt8} {stop kind size : Nat} {layout : Layout}
    (agree : Agree stop b b') (sized : columnSize kind = .ok size) (data : layout.data ≤ stop)
    (name : String) {place : Option Nat} (inside : ∀ at' ∈ place, at' + size ≤ stop) (out : Fields)
    : columnValue b layout kind size name place out
      = columnValue b' layout kind size name place out := by
  cases place with
  | none => rfl
  | some at' =>
      obtain ⟨four, eight⟩ := columnSize_references sized
      have within := inside at' rfl
      simp only [columnValue, agree.slice within]
      by_cases ten : kind = 10
      · have fits : at' + 4 ≤ stop := by
          rw [four ten] at within
          exact within
        simp [ten, be32_agree agree fits, agree.slice data]
      · by_cases eleven : kind = 11
        · have fits : at' + 4 + 4 ≤ stop := by
            rw [eight eleven] at within
            omega
          simp only [be32_agree agree fits, be32_agree agree (Nat.le_of_add_right_le fits),
            agree.slice data]
        · simp only [if_neg ten, if_neg eleven]

/-- Reading a column moves on within the schema area and within the row, and reads no value beyond
them.
-/
theorem ReadsColumn.bounds {b : List UInt8} {layout : Layout} {columns after : Columns}
    {flags : UInt8} {offset size : Nat} {name : String} {place : Option Nat}
    (reads : ReadsColumn b layout columns after flags offset name size place)
    : columns.schema + 5 ≤ layout.rows
      ∧ columns.schema ≤ after.schema
      ∧ columns.row ≤ after.row
      ∧ (columns.row ≤ layout.rowEnd → after.row ≤ layout.rowEnd)
      ∧ ∀ at' ∈ place,
          columns.schema ≤ at' ∧ at' + size ≤ layout.rows
          ∨ columns.row ≤ at' ∧ at' + size ≤ layout.rowEnd := by
  have within := reads.within
  rcases columnPlace_cases reads.placed with ⟨-, rfl, schema, row⟩ | ⟨-, rfl, schema, row, fits⟩
    | ⟨-, rfl, schema, row, fits⟩
  · exact ⟨by omega, by omega, by omega, by omega, fun at' member => (nomatch member)⟩
  · refine ⟨by omega, by omega, by omega, by omega, fun at' member => Or.inl ?_⟩
    obtain rfl := Option.some.inj member
    exact ⟨by omega, fits⟩
  · refine ⟨by omega, by omega, by omega, by omega, fun at' member => Or.inr ?_⟩
    obtain rfl := Option.some.inj member
    exact ⟨Nat.le_refl _, fits⟩

-----------------------------------------------------------------------------------------
-- What follows the table
-----------------------------------------------------------------------------------------

section Confined

variable {b b' : List UInt8} {layout : Layout} {rowIndex stride : Nat}

/-- A column that is read is read alike whatever follows the table. -/
theorem readColumn_agree (declared : layout.Declared b rowIndex stride)
    (agree : Agree layout.stop b b') {columns after : Columns}
    (read : readColumn b layout columns = .ok after)
    : readColumn b' layout columns = .ok after := by
  obtain ⟨flags, offset, name, size, place, reads⟩ := readColumn_ok.mp read
  obtain ⟨schema, -, -, -, places⟩ := reads.bounds
  have rows := declared.rowsFirst
  have strings := declared.stringsNext
  have data := declared.dataLast
  have row := declared.inside
  refine readColumn_ok.mpr ⟨flags, offset, name, size, place, ?_⟩
  refine
    {
      held := (agree.getElem? (by omega)).symm.trans reads.held
      start := (be32_agree agree (by omega)).symm.trans reads.start
      text := (string_agree agree data _).symm.trans reads.text
      sized := reads.sized
      placed := reads.placed
      value := ?_
      within := reads.within
    }
  rw [← columnValue_agree agree reads.sized data name ?_ columns.out]
  · exact reads.value
  · intro at' member
    rcases places at' member with ⟨-, inside⟩ | ⟨-, inside⟩
    · omega
    · omega

/-- The header is the same whatever follows the table. -/
theorem Layout.Declared.agree (declared : layout.Declared b rowIndex stride)
    (agree : Agree layout.stop b b') (limited : b'.length ≤ 16 * 2 ^ 20)
    : layout.Declared b' rowIndex stride := by
  have rows := declared.rowsFirst
  have strings := declared.stringsNext
  have data := declared.dataLast
  have head := declared.head
  have long := agree.long'
  obtain ⟨size, sized, stop⟩ := declared.stop
  obtain ⟨rowsAt, rowed, rows'⟩ := declared.rows
  obtain ⟨stringsAt, stringed, strings'⟩ := declared.strings
  obtain ⟨dataAt, dated, data'⟩ := declared.data
  exact
    { declared with
      mark := utfMark_agree agree (by omega) declared.mark
      long := by omega
      limited
      stop := ⟨size, (be32_agree agree (by omega)).symm.trans sized, stop⟩
      rows := ⟨rowsAt, (be32_agree agree (by omega)).symm.trans rowed, rows'⟩
      strings := ⟨stringsAt, (be32_agree agree (by omega)).symm.trans stringed, strings'⟩
      data := ⟨dataAt, (be32_agree agree (by omega)).symm.trans dated, data'⟩
      row := (be16_agree agree (by omega)).symm.trans declared.row
      count := (be32_agree agree (by omega)).symm.trans declared.count
      whole := long
    }

/-- A row that is read is read alike whatever follows the table. -/
theorem tableRow_agree {size : Nat} (sized : be32 b 4 = .ok size) (agree : Agree (8 + size) b b')
    (limited : b'.length ≤ 16 * 2 ^ 20) {result : String × Fields}
    (read : tableRow b rowIndex = .ok result)
    : tableRow b' rowIndex = .ok result := by
  obtain ⟨layout, stride, columns, offset, last, declared, named, text, schema, narrow, folded,
    out⟩ := tableRow_ok.mp read
  obtain ⟨_, sized', stop⟩ := declared.stop
  cases sized.symm.trans sized'
  rw [← stop] at agree
  have rows := declared.rowsFirst
  have strings := declared.stringsNext
  have data := declared.dataLast
  have head := declared.head
  refine tableRow_ok.mpr ⟨layout, stride, columns, offset, last, declared.agree agree limited,
    (be32_agree agree (by omega)).symm.trans named, (string_agree agree data _).symm.trans text,
    (be16_agree agree (by omega)).symm.trans schema, narrow, ?_, out⟩
  exact foldlM_repeats (readColumn_agree declared agree) folded

end Confined

-----------------------------------------------------------------------------------------
-- What is read
-----------------------------------------------------------------------------------------

/-- A column of numbers of a size, in the schema area, with the way that it stores them. -/
structure Layout.HasColumn (layout : Layout) (b : List UInt8) (column size : Nat) (storage : UInt8)
    : Prop where
  behind : 32 ≤ column
  within : column + 5 ≤ layout.rows
  head
    : ∃ flags,
        b[column]? = some flags
        ∧ flags &&& 0xF0 = storage
        ∧ (flags &&& 15).toNat ≤ 7
        ∧ columnSize (flags &&& 15).toNat = .ok size

/-- Where a value of a row comes from: its column has none, keeps a constant behind itself in the
schema area, or has it in the row.
-/
inductive Layout.HasValue (layout : Layout) (b : List UInt8) (start : Nat) : Nat → Prop where
  | absent {column size : Nat} (head : layout.HasColumn b column size 0x10)
    : layout.HasValue b start 0
  | constant {column size : Nat} {storage : UInt8} {bytes : List UInt8}
    (head : layout.HasColumn b column size storage) (kept : storage = 0x30 ∨ storage = 0x70)
    (within : column + 5 + size ≤ layout.rows)
    (held : slice b (column + 5) (column + 5 + size) = some bytes)
    : layout.HasValue b start (bigEndian bytes)
  | stored {column size at' : Nat} {bytes : List UInt8}
    (head : layout.HasColumn b column size 0x50) (behind : start ≤ at')
    (within : at' + size ≤ layout.rowEnd) (held : slice b at' (at' + size) = some bytes)
    : layout.HasValue b start (bigEndian bytes)

/-- What holds of the columns read so far. -/
structure Columns.Lawful (b : List UInt8) (layout : Layout) (start : Nat) (columns : Columns)
    : Prop where
  schema : 32 ≤ columns.schema
  row : start ≤ columns.row
  names : ∀ (name : String) (value : Nat), columns.out[name]? = some value → layout.HasText b name
  values
    : ∀ (name : String) (value : Nat),
        columns.out[name]? = some value → layout.HasValue b start value

/-- A text that is read from the string area lies in it. -/
theorem Layout.hasText {b : List UInt8} {layout : Layout} {offset : Nat} {text : String}
    (read : string b (layout.strings + offset) layout.data = .ok text)
    : layout.HasText b text := by
  obtain ⟨-, -, fits, -, placed⟩ := string_ok.mp read
  exact ⟨_, Nat.le_add_right _ _, fits, placed⟩

/-- A value that a column adds comes from its place. -/
theorem columnValue_cases {b : List UInt8} {layout : Layout} {kind size : Nat} {name : String}
    {place : Option Nat} {out after : Fields}
    (valued : columnValue b layout kind size name place out = .ok after)
    : after = out
      ∨ kind ≤ 7 ∧ place = none ∧ after = out.insert name 0
      ∨ kind ≤ 7
        ∧ ∃ at' bytes,
            place = some at'
            ∧ slice b at' (at' + size) = some bytes
            ∧ after = out.insert name (bigEndian bytes) := by
  cases place with
  | none =>
      rw [columnValue] at valued
      split at valued
      case isTrue number =>
        cases valued
        exact Or.inr (Or.inl ⟨number, rfl, rfl⟩)
      case isFalse =>
        cases valued
        exact Or.inl rfl
  | some at' =>
      obtain ⟨bytes, held, valued⟩ := bind_ok.mp valued
      split at valued
      case isTrue number =>
        cases valued
        exact Or.inr (Or.inr ⟨number, at', bytes, rfl, context_ok.mp held, rfl⟩)
      split at valued
      · simp only [bind_ok, pure_ok] at valued
        obtain ⟨_, -, _, -, rfl⟩ := valued
        exact Or.inl rfl
      split at valued
      · simp only [bind_ok, pure_ok] at valued
        obtain ⟨_, -, _, -, _, -, _, -, _, -, _, -, rfl⟩ := valued
        exact Or.inl rfl
      · cases valued
        exact Or.inl rfl

/-- A column that is read adds a name of the string area and a value of its place. -/
theorem Columns.Lawful.read {b : List UInt8} {layout : Layout} {start : Nat}
    {columns after : Columns} (lawful : columns.Lawful b layout start)
    (read : readColumn b layout columns = .ok after)
    : after.Lawful b layout start := by
  obtain ⟨flags, offset, name, size, place, reads⟩ := readColumn_ok.mp read
  obtain ⟨inside, schema, row, -, -⟩ := reads.bounds
  have head : (flags &&& 15).toNat ≤ 7
      → layout.HasColumn b columns.schema size (flags &&& 0xF0) := fun number =>
    ⟨lawful.schema, inside, flags, reads.held, rfl, number, reads.sized⟩
  have added : ∀ {value : Nat}, layout.HasValue b start value
      → ∀ (key : String) (found : Nat), (columns.out.insert name value)[key]? = some found
      → layout.HasText b key ∧ layout.HasValue b start found := by
    intro value valued key found held
    rw [Std.TreeMap.getElem?_insert] at held
    split at held
    case isTrue same =>
      obtain rfl := Std.LawfulEqOrd.eq_of_compare same
      cases held
      exact ⟨Layout.hasText reads.text, valued⟩
    case isFalse => exact ⟨lawful.names key found held, lawful.values key found held⟩
  have both : ∀ (key : String) (found : Nat), after.out[key]? = some found
      → layout.HasText b key ∧ layout.HasValue b start found := by
    rcases columnValue_cases reads.value with same | ⟨number, none', same⟩
      | ⟨number, at', bytes, some', held, same⟩
    · rw [same]
      exact fun key found held => ⟨lawful.names key found held, lawful.values key found held⟩
    · rw [same]
      refine added ?_
      rcases columnPlace_cases reads.placed with ⟨empty, -⟩ | ⟨-, place, -⟩ | ⟨-, place, -⟩
      · exact .absent (empty ▸ head number)
      · cases place.symm.trans none'
      · cases place.symm.trans none'
    · rw [same]
      refine added ?_
      rcases columnPlace_cases reads.placed with ⟨-, place, -⟩ | ⟨kept, place, -, -, within⟩
        | ⟨kept, place, -, -, within⟩
      · cases place.symm.trans some'
      · obtain rfl := Option.some.inj (place.symm.trans some')
        exact .constant (head number) kept within held
      · obtain rfl := Option.some.inj (place.symm.trans some')
        exact .stored (kept ▸ head number) lawful.row within held
  exact ⟨Nat.le_trans lawful.schema schema, Nat.le_trans lawful.row row,
    fun key found held => (both key found held).1, fun key found held => (both key found held).2⟩

/-- The name of a row that is read and those of its values lie in the string area, and its values
come from the schema area or from the row.
-/
theorem tableRow_inside {b : List UInt8} {rowIndex : Nat} {name : String} {out : Fields}
    (read : tableRow b rowIndex = .ok (name, out))
    : ∃ (layout : Layout) (stride : Nat),
        layout.Declared b rowIndex stride
        ∧ layout.HasText b name
        ∧ ∀ (key : String) (value : Nat),
            out[key]? = some value
            → layout.HasText b key
              ∧ layout.HasValue b (layout.rows + rowIndex * stride) value := by
  obtain ⟨layout, stride, columns, offset, last, declared, -, text, -, -, folded, rfl⟩ :=
    tableRow_ok.mp read
  have lawful := foldlM_invariant
    (P := fun _ : List Nat => Columns.Lawful b layout (layout.rows + rowIndex * stride)) folded
    ⟨Nat.le_refl _, Nat.le_refl _, fun _ _ held => by simp at held, fun _ _ held => by simp at held⟩
    fun lawful step => lawful.read step
  exact ⟨layout, stride, declared, Layout.hasText text,
    fun key value held => ⟨lawful.names key value held, lawful.values key value held⟩⟩

end MoenotesAssets.Usm
