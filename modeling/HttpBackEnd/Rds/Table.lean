import HttpBackEnd.Rds.JsonProcess

/-! # Tables, their streams and their JSON

A table is what a query gives. A place in its stream says what is still to come; the parts
of the stream that may lie in a buffer lead from place to place. What of the JSON is to come
depends on the place alone.
-/

namespace HttpBackEnd.Rds

open Json LittleEndian Packing

/-- A row: a value for each column, `none` for a null. -/
abbrev Row := List (Option Bytes)

/-- The result of a query. -/
structure Table where
  columns : List DrizzleColumn
  rows : List Row
  present : columns ≠ []
  width : ∀ row ∈ rows, row.length = columns.length

/-- What a value has to be for its column. -/
def Value.Sound (col : DrizzleColumn) (value : Bytes) : Prop :=
  value.length < 4294967295 ∧
    (roughType (stdColType col.type).code = .int → integral value = true)

/-- A table that the stream can carry: the lengths and counts fit their fields, every column
has a name, and the integers are integers. -/
structure Table.Sound (table : Table) : Prop where
  count : table.columns.length < 65536
  named : ∀ col ∈ table.columns, col.name ≠ [] ∧ col.name.length < 65536
  values : ∀ row ∈ table.rows, ∀ cell ∈ table.columns.zip row, ∀ value,
    cell.2 = some value → Value.Sound cell.1 value

/-! ## The JSON of a table -/

/-- A value. -/
def cellJson (col : DrizzleColumn) : Option Bytes → Bytes
  | none => ascii "null"
  | some [] => ascii "\"\""
  | some value =>
      match roughType (stdColType col.type).code with
      | .int => value
      | .float => value
      | _ => ascii "\"" ++ (escapeJsonStr value ++ ascii "\"")

/-- A value with its name. -/
def memberJson (cell : DrizzleColumn × Option Bytes) : Bytes :=
  quoteName cell.1.column ++ (ascii ":" ++ cellJson cell.1 cell.2)

/-- A row: an object, or an array in the compact format. -/
def rowJson (format : JsonFormat) (cells : List (DrizzleColumn × Option Bytes)) : Bytes :=
  match format with
  | .normal => ascii "\x7b" ++ ((ascii ",").intercalate (cells.map memberJson) ++ ascii "\x7d")
  | .compact =>
      ascii "[" ++ ((ascii ",").intercalate (cells.map fun cell => cellJson cell.1 cell.2) ++
        ascii "]")

namespace Table

variable (table : Table)

/-- The rows; in the compact format the names of the columns are one of them. -/
def rowsJson (format : JsonFormat) : List Bytes :=
  let rows := table.rows.map fun row => rowJson format (table.columns.zip row)
  match format with
  | .normal => rows
  | .compact => colsText (table.columns.map DrizzleColumn.column) :: rows

/-- The end of the JSON. -/
def closing (conf : JsonConf) : Bytes := if conf.root ≠ [] then ascii "]\x7d" else ascii "]"

/-- The JSON of a table. -/
def json (conf : JsonConf) : Bytes :=
  (if conf.root ≠ [] then propsText conf else []) ++ (ascii "[" ++
    ((ascii ",").intercalate (table.rowsJson conf.format) ++ closing conf))

end Table

/-! ## Places in the stream -/

/-- What of a stream is to come. In a row, `gone` counts the row too. -/
inductive Place where
  | start
  | columns (left : List DrizzleColumn)
  | rows (gone : Nat) (left : List Row)
  | cells (gone : Nat) (left : List (DrizzleColumn × Option Bytes)) (rows : List Row)
  | data (gone : Nat) (col : DrizzleColumn) (value : Bytes)
      (left : List (DrizzleColumn × Option Bytes)) (rows : List Row)
  | done

/-- Behind a column. -/
def Place.afterCol (table : Table) : List DrizzleColumn → Place
  | [] => .rows 0 table.rows
  | col :: left => .columns (col :: left)

/-- Behind a value. -/
def Place.afterCell (gone : Nat) : List (DrizzleColumn × Option Bytes) → List Row → Place
  | [], later => .rows gone later
  | cell :: left, later => .cells gone (cell :: left) later

/-- What the query says of its result. -/
structure Table.Result (table : Table) where
  res : DrizzleResult
  columns : res.columnCount.toNat = table.columns.length

/-- The parts of the stream that may lie in a buffer: whole headers, columns and flags, and
fields of which there is at least one byte with the length. -/
inductive Reads (table : Table) (result : table.Result) : Place → Bytes → Place → Prop
  | nil (place : Place) : Reads table result place [] place
  | header {data : Bytes} {place : Place}
      (more : Reads table result (.columns table.columns) data place) :
      Reads table result .start (outputResultHeader result.res ++ data) place
  | col {col : DrizzleColumn} {left : List DrizzleColumn} {data : Bytes} {place : Place}
      (more : Reads table result (.afterCol table left) data place) :
      Reads table result (.columns (col :: left)) (outputCol col ++ data) place
  | row {gone : Nat} {row : Row} {left : List Row} {data : Bytes} {place : Place}
      (more : Reads table result (.cells (gone + 1) (table.columns.zip row) left) data place) :
      Reads table result (.rows gone (row :: left)) (1 :: data) place
  | last (gone : Nat) : Reads table result (.rows gone []) [0] .done
  | null {gone : Nat} {col : DrizzleColumn} {left : List (DrizzleColumn × Option Bytes)}
      {rows : List Row} {data : Bytes} {place : Place}
      (more : Reads table result (.afterCell gone left rows) data place) :
      Reads table result (.cells gone ((col, none) :: left) rows)
        (bytes 4 4294967295 ++ data) place
  | whole {gone : Nat} {col : DrizzleColumn} {value : Bytes}
      {left : List (DrizzleColumn × Option Bytes)} {rows : List Row} {data : Bytes} {place : Place}
      (more : Reads table result (.afterCell gone left rows) data place) :
      Reads table result (.cells gone ((col, some value) :: left) rows)
        (bytes 4 value.length ++ (value ++ data)) place
  | part (gone : Nat) (col : DrizzleColumn) {front value : Bytes}
      (left : List (DrizzleColumn × Option Bytes)) (rows : List Row)
      (present : front ≠ []) (more : value ≠ []) :
      Reads table result (.cells gone ((col, some (front ++ value)) :: left) rows)
        (bytes 4 (front ++ value).length ++ front) (.data gone col value left rows)
  | rest {gone : Nat} {col : DrizzleColumn} {value : Bytes}
      {left : List (DrizzleColumn × Option Bytes)} {rows : List Row} {data : Bytes} {place : Place}
      (more : Reads table result (.afterCell gone left rows) data place) :
      Reads table result (.data gone col value left rows) (value ++ data) place
  | restPart (gone : Nat) (col : DrizzleColumn) (front : Bytes) {value : Bytes}
      (left : List (DrizzleColumn × Option Bytes)) (rows : List Row) (more : value ≠ []) :
      Reads table result (.data gone col (front ++ value) left rows) front
        (.data gone col value left rows)

variable {table : Table} {result : table.Result} {first middle final : Place} {front back : Bytes}

/-- Nothing is behind the end. -/
theorem Reads.of_done {place : Place} (reads : Reads table result .done back place) :
    back = [] ∧ place = .done := by
  cases reads
  exact ⟨rfl, rfl⟩

/-- **Parts that may lie in a buffer may lie in it together.** -/
theorem Reads.append (before : Reads table result first front middle)
    (after : Reads table result middle back final) :
    Reads table result first (front ++ back) final := by
  induction before with
  | nil place => exact after
  | header more ih =>
      rw [List.append_assoc]
      exact .header (ih after)
  | col more ih =>
      rw [List.append_assoc]
      exact .col (ih after)
  | row more ih => exact .row (ih after)
  | last gone =>
      obtain ⟨rfl, rfl⟩ := after.of_done
      exact .last gone
  | null more ih =>
      rw [List.append_assoc]
      exact .null (ih after)
  | whole more ih =>
      rw [List.append_assoc, List.append_assoc]
      exact .whole (ih after)
  | @part gone col front value left rows present more =>
      rw [List.append_assoc]
      cases after with
      | nil place =>
          rw [List.append_nil]
          exact .part gone col left rows present more
      | @rest _ _ _ _ _ data _ later =>
          rw [← List.append_assoc front value data]
          exact .whole later
      | restPart _ _ _ _ _ more' =>
          rw [← List.append_assoc]
          exact .part gone col left rows (List.append_ne_nil_of_left_ne_nil present _) more'
  | rest more ih =>
      rw [List.append_assoc]
      exact .rest (ih after)
  | restPart gone col front left rows more =>
      cases after with
      | nil place =>
          rw [List.append_nil]
          exact .restPart gone col front left rows more
      | rest later =>
          rw [← List.append_assoc]
          exact .rest later
      | restPart _ _ _ _ _ more' =>
          rw [← List.append_assoc]
          exact .restPart gone col _ left rows more'

/-- The cuts a reader of the stream can bear. -/
def streamCuts (table : Table) (result : table.Result) : Cuts Place UInt8 where
  Within := Reads table result
  nil := .nil
  append := Reads.append

/-- No buffers are behind the end. -/
theorem chained_done {buffers : List Bytes} {place : Place}
    (chained : (streamCuts table result).Chained .done buffers place) :
    buffers = [] ∧ place = .done := by
  cases chained with
  | nil => exact ⟨rfl, rfl⟩
  | cons present within rest => exact absurd within.of_done.1 present

end HttpBackEnd.Rds
