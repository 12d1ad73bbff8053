import HttpBackEnd.Rds.Table

/-! # What the filter makes of a table

In a chain whose buffers end where they may, every function of the filter finds what it
asks for. What it writes is the part of the JSON between the place where it starts to read
and the place where it stops.
-/

namespace HttpBackEnd.Rds

open Json LittleEndian Packing

/-! ## The JSON from a place on -/

section From

variable (table : Table) (conf : JsonConf)

/-- The rest of a row. -/
def cellsFrom (gone : Nat) : List (DrizzleColumn × Option Bytes) → Bytes
  | [] => []
  | cell :: left =>
      leadText conf.format gone (table.columns.length - (left.length + 1)) cell.1.column ++
        (cellJson cell.1 cell.2 ++
          ((if left = [] then endText conf.format else []) ++ cellsFrom gone left))

/-- The rest of the rows, and the end. -/
def rowsFrom (gone : Nat) : List Row → Bytes
  | [] => Table.closing conf
  | row :: rows =>
      cellsFrom table conf (gone + 1) (table.columns.zip row) ++ rowsFrom (gone + 1) rows

/-- The JSON in front of the rows. -/
def openJson : Bytes :=
  (if conf.root ≠ [] then propsText conf else []) ++ (ascii "[" ++
    match conf.format with
    | .normal => []
    | .compact => colsText (table.columns.map DrizzleColumn.column))

/-- The rest of a value of which something has been written. -/
def restJson (col : DrizzleColumn) (value : Bytes) : Bytes :=
  match roughType (stdColType col.type).code with
  | .int => value
  | .float => value
  | _ => escapeJsonStr value ++ ascii "\""

/-- The JSON that is to come at a place. -/
def jsonFrom : Place → Bytes
  | .start => openJson table conf ++ rowsFrom table conf 0 table.rows
  | .columns _ => openJson table conf ++ rowsFrom table conf 0 table.rows
  | .rows gone left => rowsFrom table conf gone left
  | .cells gone left rows => cellsFrom table conf gone left ++ rowsFrom table conf gone rows
  | .data gone col value left rows =>
      restJson col value ++ ((if left = [] then endText conf.format else []) ++
        (cellsFrom table conf gone left ++ rowsFrom table conf gone rows))
  | .done => []

end From

/-! ## A filter that is at a place -/

variable (table : Table)

/-- The columns are known, and so many rows have begun. -/
structure Ctx.Knows (ctx : Ctx) (gone : Nat) : Prop where
  cols : ctx.cols = table.columns.map DrizzleColumn.column
  colCount : ctx.colCount = table.columns.length
  row : ctx.row = gone
  headerSent : ctx.headerSent = true

/-- The current column is the first of those left in the row. -/
def Ctx.SitsAt (ctx : Ctx) (left : List (DrizzleColumn × Option Bytes)) : Prop :=
  ∃ seen, table.columns = seen ++ left.map Prod.fst ∧ ctx.curCol = seen.length

/-- The values that are left fit their columns. -/
def SoundCells (left : List (DrizzleColumn × Option Bytes)) : Prop :=
  ∀ cell ∈ left, ∀ value, cell.2 = some value → Value.Sound cell.1 value

/-- A filter that is at a place of the stream. -/
def Ctx.Awaits (ctx : Ctx) : Place → Prop
  | .start => ctx.state = .expectHeader
  | .columns left => ctx.state = .expectCol ∧ ctx.headerSent = true ∧ left ≠ [] ∧
      ctx.colCount = table.columns.length ∧ ∃ seen, table.columns = seen ++ left ∧
        ctx.cols = seen.map DrizzleColumn.column ∧ ctx.curCol = seen.length
  | .rows gone left => ctx.state = .expectRow ∧ ctx.Knows table gone ∧
      ∀ row ∈ left, row ∈ table.rows
  | .cells gone left rows => ctx.state = .expectField ∧ ctx.Knows table gone ∧ left ≠ [] ∧
      ctx.SitsAt table left ∧ SoundCells left ∧ ∀ row ∈ rows, row ∈ table.rows
  | .data gone col value left rows => ctx.state = .expectMoreFieldData ∧ ctx.Knows table gone ∧
      ctx.SitsAt table ((col, some value) :: left) ∧ SoundCells left ∧
      (∀ row ∈ rows, row ∈ table.rows) ∧ value ≠ [] ∧ ctx.fieldDataRest = value.length ∧
      (roughType (stdColType col.type).code = .int → digits value = true)
  | .done => ctx.state = .done ∧ ctx.headerSent = true

variable {table} {conf : JsonConf} {ctx after : Ctx} {place next : Place}

/-- From one place to another, with the JSON between them in the buffers. -/
structure Moves (table : Table) (conf : JsonConf) (ctx : Ctx) (place : Place) (after : Ctx)
    (next : Place) : Prop where
  awaits : after.Awaits table next
  goesOn : next = .done → place = .done
  even : OutBufs.Even conf.bufSize ctx.bufs → OutBufs.Even conf.bufSize after.bufs
  text : ∃ written, after.bufs.text = ctx.bufs.text ++ written ∧
    jsonFrom table conf place = written ++ jsonFrom table conf next

/-- The same to the end of the stream, where the end of the JSON is submitted. -/
structure Ends (table : Table) (conf : JsonConf) (ctx : Ctx) (place : Place) (after : Ctx) :
    Prop where
  awaits : after.Awaits table .done
  bufs : ∃ before : OutBufs,
    after.bufs = (before.submit conf.bufSize true (Table.closing conf)).endStream ∧
    (OutBufs.Even conf.bufSize ctx.bufs → OutBufs.Even conf.bufSize before) ∧
    ∃ written, before.text = ctx.bufs.text ++ written ∧
      jsonFrom table conf place = written ++ Table.closing conf

/-- From one place to another, or to the end. -/
def Arrives (table : Table) (conf : JsonConf) (ctx : Ctx) (place : Place) (after : Ctx)
    (next : Place) : Prop :=
  Moves table conf ctx place after next ∨ (next = .done ∧ Ends table conf ctx place after)

theorem Moves.trans {middle : Ctx} {between : Place}
    (first : Moves table conf ctx place middle between)
    (second : Arrives table conf middle between after next) :
    Arrives table conf ctx place after next := by
  obtain ⟨front, there, split⟩ := first.text
  rcases second with moves | ⟨rfl, ends⟩
  · obtain ⟨back, text, rest⟩ := moves.text
    refine .inl ⟨moves.awaits, fun ended => first.goesOn (moves.goesOn ended),
      fun even => moves.even (first.even even), front ++ back, ?_, ?_⟩
    · rw [text, there, List.append_assoc]
    · rw [split, rest, List.append_assoc]
  · obtain ⟨before, bufs, even, back, text, rest⟩ := ends.bufs
    refine .inr ⟨rfl, ends.awaits, before, bufs, fun holds => even (first.even holds),
      front ++ back, ?_, ?_⟩
    · rw [text, there, List.append_assoc]
    · rw [split, rest, List.append_assoc]

/-- Nothing has happened. -/
theorem Moves.refl (awaits : ctx.Awaits table place) : Moves table conf ctx place ctx place :=
  ⟨awaits, id, id, [], (List.append_nil _).symm, rfl⟩

/-- Bytes have been submitted, and the filter is at another place. -/
theorem moves_submit {written : Bytes} (awaits : after.Awaits table next)
    (goesOn : next ≠ .done)
    (bufs : after.bufs = ctx.bufs.submit conf.bufSize false written)
    (split : jsonFrom table conf place = written ++ jsonFrom table conf next) :
    Moves table conf ctx place after next := by
  refine ⟨awaits, fun ended => absurd ended goesOn, fun even => ?_, written, ?_, split⟩
  · rw [bufs]
    exact even.submit written
  · rw [bufs, OutBufs.text_submit]

theorem process_call {chain later : List Link} (called : turn conf ctx chain = .call after later) :
    process conf ctx chain = process conf after later := by
  rw [process]
  split <;> simp_all

theorem process_ok {chain : List Link} (ended : turn conf ctx chain = .ok after) :
    process conf ctx chain = .ok after := by
  rw [process]
  split <;> simp_all

/-! ## Headers, columns and rows -/

variable {result : table.Result} {data : Bytes} {following : List Link}

/-- A chain that begins with a buffer. -/
theorem front_memory (data : Bytes) (following : List Link) :
    front (.memory data :: following) = .buf data following := rfl

/-- The header of the result. -/
theorem process_header (awaits : ctx.Awaits table .start) :
    ∃ after, process conf ctx (.memory (outputResultHeader result.res ++ data) :: following) =
        process conf after (behind data following) ∧
      Moves table conf ctx .start after (.columns table.columns) := by
  have state : ctx.state = .expectHeader := awaits
  have columns : result.res.header.colCount ≠ 0 := by
    intro nothing
    have count := result.columns
    rw [show result.res.columnCount = 0 from nothing] at count
    exact table.present (List.length_eq_zero_iff.mp count.symm)
  have called : turn conf ctx (.memory (outputResultHeader result.res ++ data) :: following) =
      .call { ctx with
        state := .expectCol, cols := [], curCol := 0
        colCount := result.res.columnCount.toNat, headerSent := true } (behind data following) := by
    rw [turn, state]
    simp only [processHeader, front_memory, parseHeader_outputResultHeader, if_neg columns]
    rfl
  refine ⟨_, process_call called, ⟨?_, nofun, id, [], (List.append_nil _).symm, rfl⟩⟩
  exact ⟨rfl, rfl, table.present, result.columns, [], rfl, rfl, rfl⟩

/-- What is written behind the last column. -/
theorem openRows_eq (conf : JsonConf) (cols : ctx.cols = table.columns.map DrizzleColumn.column) :
    ∃ bufs, ctx.openRows conf = some { ctx with bufs } ∧
      (OutBufs.Even conf.bufSize ctx.bufs → OutBufs.Even conf.bufSize bufs) ∧
      bufs.text = ctx.bufs.text ++ openJson table conf := by
  -- the properties go first, if there is a root
  obtain ⟨first, written, even, text⟩ : ∃ first,
      (if conf.root ≠ [] then ctx.outputProps conf else some ctx) =
        some { ctx with bufs := first } ∧
      (OutBufs.Even conf.bufSize ctx.bufs → OutBufs.Even conf.bufSize first) ∧
      first.text = ctx.bufs.text ++ if conf.root ≠ [] then propsText conf else [] := by
    split
    · exact ⟨_, outputProps_eq, fun holds => holds.submit _, OutBufs.text_submit false _⟩
    · exact ⟨ctx.bufs, rfl, id, (List.append_nil _).symm⟩
  rw [Ctx.openRows, written, Option.map_some, openJson]
  cases conf.format with
  | normal =>
      refine ⟨_, rfl, fun holds => (even holds).submit _, ?_⟩
      simp only [Bool.false_eq_true, ↓reduceIte]
      rw [OutBufs.text_submit, text, List.append_assoc, List.append_nil]
  | compact =>
      refine ⟨_, rfl, fun holds => ((even holds).submit _).submit _, ?_⟩
      simp only [Ctx.outputLiteral, Bool.false_eq_true, ↓reduceIte]
      rw [OutBufs.text_submit, OutBufs.text_submit, text, cols, List.append_assoc,
        List.append_assoc]

/-- A column. -/
theorem process_col {col : DrizzleColumn} {left : List DrizzleColumn} (sound : table.Sound)
    (awaits : ctx.Awaits table (.columns (col :: left))) :
    ∃ after, process conf ctx (.memory (outputCol col ++ data) :: following) =
        process conf after (behind data following) ∧
      Moves table conf ctx (.columns (col :: left)) after (.afterCol table left) := by
  obtain ⟨state, sent, _, count, seen, columns, cols, current⟩ := awaits
  have member : col ∈ table.columns := by
    rw [columns]
    exact List.mem_append_right _ List.mem_cons_self
  obtain ⟨named, short⟩ := sound.named col member
  have length : col.name.length % 65536 ≠ 0 := by
    rw [Nat.mod_eq_of_lt short, Ne, List.length_eq_zero_iff]
    exact named
  have total := congrArg List.length columns
  rw [List.length_append, List.length_cons] at total
  cases left with
  | nil =>
      have last : ¬ctx.curCol + 1 < ctx.colCount := by
        rw [count, current, total, List.length_nil]
        omega
      have all : ctx.cols ++ [col.column] = table.columns.map DrizzleColumn.column := by
        rw [columns, cols, List.map_append]
        rfl
      obtain ⟨bufs, opened, even, text⟩ := openRows_eq conf (show ({ ctx with
        cols := ctx.cols ++ [col.column], curCol := ctx.curCol + 1
        state := .expectRow, row := 0 } : Ctx).cols = _ from all)
      have called : turn conf ctx (.memory (outputCol col ++ data) :: following) =
          .call { ctx with
            cols := ctx.cols ++ [col.column], curCol := ctx.curCol + 1
            state := .expectRow, row := 0, bufs } (behind data following) := by
        rw [turn, state]
        simp only [processCol, front_memory, parseCol_outputCol length, if_neg last]
        rw [opened]
      exact ⟨_, process_call called, ⟨rfl, ⟨all, count, rfl, sent⟩, fun _ member => member⟩, nofun,
        even, _, text, rfl⟩
  | cons other left =>
      have more : ctx.curCol + 1 < ctx.colCount := by
        rw [count, current, total, List.length_cons]
        omega
      have called : turn conf ctx (.memory (outputCol col ++ data) :: following) =
          .call { ctx with cols := ctx.cols ++ [col.column], curCol := ctx.curCol + 1 }
            (behind data following) := by
        rw [turn, state]
        simp only [processCol, front_memory, parseCol_outputCol length, if_pos more]
        rw [state]
      refine ⟨_, process_call called, ⟨?_, nofun, id, [], (List.append_nil _).symm, rfl⟩⟩
      refine ⟨state, sent, List.cons_ne_nil _ _, count, seen ++ [col], ?_, ?_, ?_⟩
      · rw [columns, List.append_assoc]
        rfl
      · rw [cols, List.map_append]
        rfl
      · rw [current, List.length_append]
        rfl

/-- The flag in front of a row. -/
theorem process_row {gone : Nat} {row : Row} {left : List Row} (sound : table.Sound)
    (awaits : ctx.Awaits table (.rows gone (row :: left))) :
    ∃ after, process conf ctx (.memory (1 :: data) :: following) =
        process conf after (behind data following) ∧
      Moves table conf ctx (.rows gone (row :: left)) after
        (.cells (gone + 1) (table.columns.zip row) left) := by
  obtain ⟨state, knows, rows⟩ := awaits
  have here := rows row List.mem_cons_self
  have width := table.width row here
  have called : turn conf ctx (.memory (1 :: data) :: following) =
      .call { ctx with row := ctx.row + 1, curCol := 0, state := .expectField }
        (behind data following) := by
    rw [turn, state]
    rfl
  refine ⟨_, process_call called, ⟨?_, nofun, id, [], (List.append_nil _).symm, rfl⟩⟩
  refine ⟨rfl, ⟨knows.cols, knows.colCount, congrArg (· + 1) knows.row, knows.headerSent⟩, ?_,
    ⟨[], ?_, rfl⟩, sound.values row here,
    fun other member => rows other (List.mem_cons_of_mem _ member)⟩
  · intro nothing
    have length := congrArg List.length nothing
    rw [List.length_zip, width, Nat.min_self] at length
    exact table.present (List.length_eq_zero_iff.mp length)
  · rw [List.map_fst_zip (Nat.le_of_eq width.symm)]
    rfl

/-- The flag behind the last row. -/
theorem process_last {gone : Nat} (awaits : ctx.Awaits table (.rows gone [])) :
    ∃ after, process conf ctx (.memory [0] :: following) = process conf after following ∧
      Ends table conf ctx (.rows gone []) after := by
  obtain ⟨state, knows, _⟩ := awaits
  have ended : turn conf ctx (.memory [0] :: following) = .ok
      (({ ctx with state := .done } : Ctx).outputLiteral conf (Table.closing conf) true) := by
    rw [turn, state]
    rfl
  refine ⟨({ ctx with state := .done } : Ctx).outputLiteral conf (Table.closing conf) true,
    (process_ok ended).trans (process_ok rfl).symm, ⟨rfl, knows.headerSent⟩,
    ctx.bufs, rfl, id, [], (List.append_nil _).symm, rfl⟩

/-! ## Values -/

theorem escapeJsonStr_append (front back : Bytes) :
    escapeJsonStr (front ++ back) = escapeJsonStr front ++ escapeJsonStr back :=
  List.flatMap_append

theorem digits_append {front back : Bytes} (all : digits (front ++ back) = true) :
    digits front = true ∧ digits back = true := by
  rwa [digits, List.all_append, Bool.and_eq_true] at all

/-- The sign of an integer is at its front. -/
theorem integral_append {front back : Bytes} (present : front ≠ [])
    (all : integral (front ++ back) = true) : integral front = true ∧ digits back = true := by
  obtain ⟨char, front, rfl⟩ := List.exists_cons_of_ne_nil present
  rw [List.cons_append, integral, Bool.and_eq_true] at all
  obtain ⟨sign, rest⟩ := all
  obtain ⟨before, after⟩ := digits_append rest
  exact ⟨by rw [integral, sign, before]; rfl, after⟩

variable {col : DrizzleColumn} {value : Bytes}

/-- A value that is there whole is written whole. -/
theorem value_whole (sound : Value.Sound col value) :
    ∃ size, valueSize (roughType (stdColType col.type).code) 0 false value = some size ∧
      valueText (roughType (stdColType col.type).code) 0 false value =
        cellJson col (some value) := by
  have noBool := roughType_stdColType col.type
  cases value with
  | nil => exact ⟨2, rfl, rfl⟩
  | cons char value =>
      cases rough : roughType (stdColType col.type).code with
      | int =>
          refine ⟨_, if_pos (sound.2 rough), ?_⟩
          simp [valueText, cellJson, rough]
      | float => exact ⟨_, rfl, by simp [valueText, cellJson, rough]⟩
      | str => exact ⟨_, rfl, by simp [valueText, cellJson, rough]⟩
      | bool => exact absurd rough noBool

/-- The first part of a value and what is behind it. -/
theorem value_part {front : Bytes} (sound : Value.Sound col (front ++ value)) (present : front ≠ [])
    (more : value ≠ []) :
    ∃ size, valueSize (roughType (stdColType col.type).code) value.length false front = some size ∧
      cellJson col (some (front ++ value)) =
        valueText (roughType (stdColType col.type).code) value.length false front ++
          restJson col value := by
  have noBool := roughType_stdColType col.type
  have rest : value.length ≠ 0 := fun none => more (List.length_eq_zero_iff.mp none)
  obtain ⟨char, front, rfl⟩ := List.exists_cons_of_ne_nil present
  cases rough : roughType (stdColType col.type).code with
  | int =>
      obtain ⟨whole, _⟩ := integral_append present (sound.2 rough)
      refine ⟨_, if_pos whole, ?_⟩
      simp [valueText, cellJson, restJson, rough]
  | float => exact ⟨_, rfl, by simp [valueText, cellJson, restJson, rough]⟩
  | str =>
      refine ⟨_, rfl, ?_⟩
      have split := escapeJsonStr_append (char :: front) value
      rw [List.cons_append] at split
      simp [valueText, cellJson, restJson, rough, split, more]
  | bool => exact absurd rough noBool

/-- The last part of a value. -/
theorem more_whole
    (digit : roughType (stdColType col.type).code = .int → digits value = true) :
    ∃ size, moreSize (roughType (stdColType col.type).code) 0 value = some size ∧
      moreText (roughType (stdColType col.type).code) 0 value = restJson col value := by
  have noBool := roughType_stdColType col.type
  cases rough : roughType (stdColType col.type).code with
  | int => exact ⟨_, if_pos (digit rough), by simp [moreText, restJson, rough]⟩
  | float => exact ⟨_, rfl, by simp [moreText, restJson, rough]⟩
  | str => exact ⟨_, rfl, by simp [moreText, restJson, rough]⟩
  | bool => exact absurd rough noBool

/-- A part of a value that is neither its first nor its last. -/
theorem more_part {front : Bytes} (more : value ≠ [])
    (digit : roughType (stdColType col.type).code = .int → digits (front ++ value) = true) :
    ∃ size, moreSize (roughType (stdColType col.type).code) value.length front = some size ∧
      restJson col (front ++ value) =
        moreText (roughType (stdColType col.type).code) value.length front ++
          restJson col value := by
  have noBool := roughType_stdColType col.type
  cases rough : roughType (stdColType col.type).code with
  | int =>
      refine ⟨_, if_pos (digits_append (digit rough)).1, ?_⟩
      simp [moreText, restJson, rough]
  | float => exact ⟨_, rfl, by simp [moreText, restJson, rough]⟩
  | str =>
      refine ⟨_, rfl, ?_⟩
      simp [moreText, restJson, rough, escapeJsonStr_append, more]
  | bool => exact absurd rough noBool

/-! ## Fields -/

variable {gone : Nat} {cell : DrizzleColumn × Option Bytes}
  {left : List (DrizzleColumn × Option Bytes)} {rows : List Row}

/-- The place of the current column. -/
theorem sitsAt_count (sits : ctx.SitsAt table (cell :: left)) :
    ctx.curCol + (left.length + 1) = table.columns.length := by
  obtain ⟨seen, columns, current⟩ := sits
  rw [columns, current, List.length_append, List.length_map, List.length_cons]

/-- The current column. -/
theorem sitsAt_column (knows : ctx.Knows table gone) (sits : ctx.SitsAt table (cell :: left)) :
    ctx.cols[ctx.curCol]? = some cell.1.column := by
  obtain ⟨seen, columns, current⟩ := sits
  rw [knows.cols, columns, current, List.map_append, List.getElem?_append_right (by simp)]
  simp

/-- Behind a field there is the next one, or the next row. -/
theorem awaits_nextField (knows : ctx.Knows table gone) (sits : ctx.SitsAt table (cell :: left))
    (sound : SoundCells left) (fine : ∀ row ∈ rows, row ∈ table.rows) :
    ctx.nextField.Awaits table (.afterCell gone left rows) := by
  have count := sitsAt_count sits
  have knows' : ctx.nextField.Knows table gone :=
    ⟨knows.cols, knows.colCount, knows.row, knows.headerSent⟩
  cases left with
  | nil =>
      refine ⟨if_neg ?_, knows', fine⟩
      rw [knows.colCount, ← count]
      simp
  | cons other left =>
      refine ⟨if_pos ?_, knows', List.cons_ne_nil _ _, ?_, sound, fine⟩
      · rw [knows.colCount, ← count, List.length_cons]
        omega
      · obtain ⟨seen, columns, current⟩ := sits
        refine ⟨seen ++ [cell.1], ?_, ?_⟩
        · rw [columns, List.append_assoc]
          rfl
        · rw [List.length_append, ← current]
          rfl

/-- A row ends with the last byte of its last value. -/
theorem endsRow_iff (knows : ctx.Knows table gone) (sits : ctx.SitsAt table (cell :: left)) :
    ctx.endsRow ↔ ctx.fieldDataRest = 0 ∧ left = [] := by
  have count := sitsAt_count sits
  rw [Ctx.endsRow, knows.colCount, ← List.length_eq_zero_iff]
  omega

/-- What is to come behind a value. -/
theorem jsonFrom_afterCell (gone : Nat) (left : List (DrizzleColumn × Option Bytes))
    (rows : List Row) :
    jsonFrom table conf (.afterCell gone left rows) =
      cellsFrom table conf gone left ++ rowsFrom table conf gone rows := by
  cases left <;> rfl

theorem afterCell_ne_done (gone : Nat) (left : List (DrizzleColumn × Option Bytes))
    (rows : List Row) : Place.afterCell gone left rows ≠ .done := by
  cases left <;> nofun

theorem knows_waitFor (knows : ctx.Knows table gone) (rest : Nat) :
    (ctx.waitFor rest).Knows table gone :=
  ⟨knows.cols, knows.colCount, knows.row, knows.headerSent⟩

/-- What it takes to wait for more is no output. -/
theorem moves_waitFor {rest : Nat} (moves : Moves table conf (ctx.waitFor rest) place after next) :
    Moves table conf ctx place after next :=
  ⟨moves.awaits, moves.goesOn, moves.even, moves.text⟩

/-- A field that is there whole. -/
theorem outputField_whole (conf : JsonConf) {data : Bytes} {isNull : Bool} {size : Nat}
    (knows : ctx.Knows table gone)
    (sits : ctx.SitsAt table (cell :: left)) (sound : SoundCells left)
    (fine : ∀ row ∈ rows, row ∈ table.rows) (rest : ctx.fieldDataRest = 0)
    (sized : valueSize (roughType cell.1.column.stdType) 0 isNull data = some size)
    (text : valueText (roughType cell.1.column.stdType) 0 isNull data = cellJson cell.1 cell.2) :
    ∃ after, ctx.outputField conf data isNull = some after ∧
      Moves table conf ctx (.cells gone (cell :: left) rows) after.nextField
        (.afterCell gone left rows) := by
  have count := sitsAt_count sits
  have current : ctx.curCol = table.columns.length - (left.length + 1) := by omega
  have ends : ctx.endsRow ↔ left = [] := by
    rw [endsRow_iff knows sits, rest]
    simp
  have written := outputField_eq conf (sitsAt_column knows sits)
    (fun waits => Nat.ne_of_gt waits.2 rest) (rest.symm ▸ sized)
  refine ⟨_, written, moves_submit (awaits_nextField
    ⟨knows.cols, knows.colCount, knows.row, knows.headerSent⟩ sits sound fine)
    (afterCell_ne_done _ _ _) rfl ?_⟩
  rw [jsonFrom_afterCell, rest, text]
  simp only [jsonFrom, cellsFrom, knows.row, current, ends, List.append_assoc]

/-- A length and what is behind it. -/
theorem turn_field {length : Nat} (state : ctx.state = .expectField) (fits : length < 256 ^ 4) :
    turn conf ctx (.memory (bytes 4 length ++ data) :: following) =
      processFieldData conf ctx length data following := by
  have enough : ¬(bytes 4 length ++ data).length < 4 := by
    rw [List.length_append, length_bytes]
    omega
  rw [turn, state]
  simp only [processField, front_memory, if_neg enough, take_bytes fits]

/-- A null. -/
theorem process_null {col : DrizzleColumn}
    (awaits : ctx.Awaits table (.cells gone ((col, none) :: left) rows)) :
    ∃ after, process conf ctx (.memory (bytes 4 4294967295 ++ data) :: following) =
        process conf after (behind data following) ∧
      Moves table conf ctx (.cells gone ((col, none) :: left) rows) after
        (.afterCell gone left rows) := by
  obtain ⟨state, knows, _, sits, sound, fine⟩ := awaits
  have text : valueText (roughType col.column.stdType) 0 true [] = cellJson col none := rfl
  obtain ⟨now, written, moves⟩ := outputField_whole conf (knows_waitFor knows 0) sits
    (fun other member => sound other (List.mem_cons_of_mem _ member)) fine rfl rfl text
  refine ⟨now.nextField, process_call ?_, moves_waitFor moves⟩
  rw [turn_field state (by decide), processFieldData, if_pos rfl, written]

/-- A value that lies in one buffer. -/
theorem process_whole {col : DrizzleColumn} {value : Bytes}
    (awaits : ctx.Awaits table (.cells gone ((col, some value) :: left) rows)) :
    ∃ after, process conf ctx (.memory (bytes 4 value.length ++ (value ++ data)) :: following) =
        process conf after (behind data following) ∧
      Moves table conf ctx (.cells gone ((col, some value) :: left) rows) after
        (.afterCell gone left rows) := by
  obtain ⟨state, knows, _, sits, sound, fine⟩ := awaits
  have here := sound _ List.mem_cons_self value rfl
  obtain ⟨size, sized, text⟩ := value_whole here
  obtain ⟨now, written, moves⟩ := outputField_whole conf (knows_waitFor knows 0) sits
    (fun other member => sound other (List.mem_cons_of_mem _ member)) fine rfl sized text
  have notNull : value.length ≠ 4294967295 := Nat.ne_of_lt here.1
  have nothing : value.length - min (value ++ data).length value.length = 0 := by
    rw [List.length_append]
    omega
  have whole : ¬(value ++ data).length < value.length := by
    rw [List.length_append]
    omega
  refine ⟨now.nextField, process_call ?_, moves_waitFor moves⟩
  rw [turn_field state (by have := here.1; omega), processFieldData, if_neg notNull, nothing,
    List.take_left, List.drop_left, written]
  exact if_neg whole

/-- The front of a field. -/
theorem outputField_part (conf : JsonConf) {col : DrizzleColumn} {front value : Bytes}
    (knows : ctx.Knows table gone) (sits : ctx.SitsAt table ((col, some (front ++ value)) :: left))
    (sound : SoundCells ((col, some (front ++ value)) :: left))
    (fine : ∀ row ∈ rows, row ∈ table.rows) (present : front ≠ []) (more : value ≠ [])
    (rest : ctx.fieldDataRest = value.length) :
    ∃ after, ctx.outputField conf front false = some after ∧
      Moves table conf ctx (.cells gone ((col, some (front ++ value)) :: left) rows)
        { after with state := .expectMoreFieldData } (.data gone col value left rows) := by
  have here := sound _ List.mem_cons_self (front ++ value) rfl
  obtain ⟨size, sized, split⟩ := value_part here present more
  have positive := List.length_pos_iff.mpr more
  have count := sitsAt_count sits
  have current : ctx.curCol = table.columns.length - (left.length + 1) := by omega
  have goesOn : ¬ctx.endsRow := fun ends => Nat.ne_of_gt positive (rest.symm.trans ends.1)
  have written := outputField_eq conf (sitsAt_column knows sits) (fun waits => present waits.1)
    (rest.symm ▸ sized)
  rw [if_neg goesOn, List.append_nil] at written
  refine ⟨_, written, moves_submit ⟨rfl, ⟨knows.cols, knows.colCount, knows.row, knows.headerSent⟩,
    sits, fun other member => sound other (List.mem_cons_of_mem _ member), fine, more, rest,
    fun int => (integral_append present (here.2 int)).2⟩ nofun rfl ?_⟩
  simp only [jsonFrom, cellsFrom, split, rest, knows.row, current, List.append_assoc,
    DrizzleColumn.column]

/-- The last part of a field. -/
theorem outputMore_whole (conf : JsonConf) {col : DrizzleColumn} {value : Bytes}
    (knows : ctx.Knows table gone) (sits : ctx.SitsAt table ((col, some value) :: left))
    (sound : SoundCells left) (fine : ∀ row ∈ rows, row ∈ table.rows)
    (digit : roughType (stdColType col.type).code = .int → digits value = true)
    (rest : ctx.fieldDataRest = 0) :
    ∃ after, ctx.outputMoreFieldData conf value = some after ∧
      Moves table conf ctx (.data gone col value left rows) after.nextField
        (.afterCell gone left rows) := by
  obtain ⟨size, sized, text⟩ := more_whole digit
  have ends : ctx.endsRow ↔ left = [] := by
    rw [endsRow_iff knows sits, rest]
    simp
  have written := outputMoreFieldData_eq conf (sitsAt_column knows sits) (rest.symm ▸ sized)
  refine ⟨_, written, moves_submit (awaits_nextField
    ⟨knows.cols, knows.colCount, knows.row, knows.headerSent⟩ sits sound fine)
    (afterCell_ne_done _ _ _) rfl ?_⟩
  rw [jsonFrom_afterCell, rest]
  simp only [jsonFrom, ← text, ends, List.append_assoc, DrizzleColumn.column]

/-- A part of a field that is neither its first nor its last. -/
theorem outputMore_part (conf : JsonConf) {col : DrizzleColumn} {front value : Bytes}
    (state : ctx.state = .expectMoreFieldData) (knows : ctx.Knows table gone)
    (sits : ctx.SitsAt table ((col, some (front ++ value)) :: left))
    (sound : SoundCells left) (fine : ∀ row ∈ rows, row ∈ table.rows) (more : value ≠ [])
    (digit : roughType (stdColType col.type).code = .int → digits (front ++ value) = true)
    (rest : ctx.fieldDataRest = value.length) :
    ∃ after, ctx.outputMoreFieldData conf front = some after ∧
      Moves table conf ctx (.data gone col (front ++ value) left rows) after
        (.data gone col value left rows) := by
  obtain ⟨size, sized, split⟩ := more_part more digit
  have positive := List.length_pos_iff.mpr more
  have goesOn : ¬ctx.endsRow := fun ends => Nat.ne_of_gt positive (rest.symm.trans ends.1)
  have written := outputMoreFieldData_eq conf (sitsAt_column knows sits) (rest.symm ▸ sized)
  rw [if_neg goesOn, List.append_nil] at written
  refine ⟨_, written, moves_submit
    ⟨state, ⟨knows.cols, knows.colCount, knows.row, knows.headerSent⟩, sits, sound, fine, more,
      rest, fun int => (digits_append (digit int)).2⟩ nofun rfl ?_⟩
  simp only [jsonFrom, split, rest, List.append_assoc, DrizzleColumn.column]

/-- The front of a value, at the end of a buffer. -/
theorem process_part {col : DrizzleColumn} {front value : Bytes} (present : front ≠ [])
    (more : value ≠ [])
    (awaits : ctx.Awaits table (.cells gone ((col, some (front ++ value)) :: left) rows)) :
    ∃ after, process conf ctx (.memory (bytes 4 (front ++ value).length ++ front) :: following) =
        process conf after following ∧
      Moves table conf ctx (.cells gone ((col, some (front ++ value)) :: left) rows) after
        (.data gone col value left rows) := by
  obtain ⟨state, knows, _, sits, sound, fine⟩ := awaits
  have here := (sound _ List.mem_cons_self (front ++ value) rfl).1
  have positive := List.length_pos_iff.mpr more
  have total : (front ++ value).length = front.length + value.length := List.length_append
  obtain ⟨now, written, moves⟩ := outputField_part conf (knows_waitFor knows value.length) sits
    sound fine present more rfl
  refine ⟨{ now with state := .expectMoreFieldData }, process_call ?_, moves_waitFor moves⟩
  have rest : (front ++ value).length - min front.length (front ++ value).length =
      value.length := by omega
  have short : front.length < (front ++ value).length := by omega
  rw [turn_field state (by omega), processFieldData, if_neg (Nat.ne_of_lt here), rest,
    List.take_of_length_le (Nat.le_of_lt short), written,
    List.drop_of_length_le (Nat.le_of_lt short)]
  exact if_pos short

/-- The rest of a value. -/
theorem process_rest {col : DrizzleColumn} {value : Bytes}
    (awaits : ctx.Awaits table (.data gone col value left rows)) :
    ∃ after, process conf ctx (.memory (value ++ data) :: following) =
        process conf after (behind data following) ∧
      Moves table conf ctx (.data gone col value left rows) after (.afterCell gone left rows) := by
  obtain ⟨state, knows, sits, sound, fine, present, waits, digit⟩ := awaits
  obtain ⟨now, written, moves⟩ := outputMore_whole conf (knows_waitFor knows 0) sits sound fine
    digit rfl
  refine ⟨now.nextField, process_call ?_, moves_waitFor moves⟩
  have nothing : value.length - min (value ++ data).length value.length = 0 := by
    rw [List.length_append]
    omega
  have ended : now.fieldDataRest = 0 := outputMoreFieldData_rest written
  rw [turn, state]
  simp only [processMoreFieldData, frontMore, processMoreData, waits, nothing, List.take_left,
    List.drop_left, written, ended]
  rfl

/-- A part of a value that ends a buffer. -/
theorem process_restPart {col : DrizzleColumn} {front value : Bytes} (more : value ≠ [])
    (awaits : ctx.Awaits table (.data gone col (front ++ value) left rows)) :
    ∃ after, process conf ctx (.memory front :: following) = process conf after following ∧
      Moves table conf ctx (.data gone col (front ++ value) left rows) after
        (.data gone col value left rows) := by
  obtain ⟨state, knows, sits, sound, fine, present, waits, digit⟩ := awaits
  have positive := List.length_pos_iff.mpr more
  have total : (front ++ value).length = front.length + value.length := List.length_append
  obtain ⟨now, written, moves⟩ := outputMore_part conf
    (show (ctx.waitFor value.length).state = _ from state) (knows_waitFor knows value.length)
    sits sound fine more digit rfl
  refine ⟨now, process_call ?_, moves_waitFor moves⟩
  have rest : (front ++ value).length - min front.length (front ++ value).length =
      value.length := by omega
  have short : front.length ≤ (front ++ value).length := by omega
  have waiting : now.fieldDataRest = value.length := outputMoreFieldData_rest written
  rw [turn, state]
  simp only [processMoreFieldData, frontMore, processMoreData, waits, rest,
    List.take_of_length_le short, List.drop_of_length_le short, written, waiting]
  exact if_pos (Nat.ne_of_gt positive)

/-- A step, and then what is left of the buffer. -/
theorem process_then {middle : Ctx} {between : Place} {buffer : Bytes} (present : buffer ≠ [])
    (stepped : process conf ctx (.memory buffer :: following) =
      process conf middle (behind data following))
    (moves : Moves table conf ctx place middle between)
    (later : middle.Awaits table between → ∃ after,
      process conf middle (behind data following) = process conf after following ∧
        Arrives table conf middle between after next) :
    ∃ after, process conf ctx (behind buffer following) = process conf after following ∧
      Arrives table conf ctx place after next := by
  obtain ⟨after, ran, arrives⟩ := later moves.awaits
  refine ⟨after, ?_, moves.trans arrives⟩
  rw [behind, if_neg present, stepped, ran]

/-- **What a buffer is read to.** A buffer that ends where it may takes the filter from its
place to the end of the buffer, and what is submitted is the JSON between them. -/
theorem process_reads (sound : table.Sound) (reads : Reads table result place data next)
    (awaits : ctx.Awaits table place) :
    ∃ after, process conf ctx (behind data following) = process conf after following ∧
      Arrives table conf ctx place after next := by
  induction reads generalizing ctx with
  | nil place => exact ⟨ctx, rfl, .inl (.refl awaits)⟩
  | header more ih =>
      obtain ⟨middle, stepped, moves⟩ := process_header awaits
      refine process_then ?_ stepped moves ih
      simp [outputResultHeader, bytes]
  | col more ih =>
      obtain ⟨middle, stepped, moves⟩ := process_col sound awaits
      refine process_then ?_ stepped moves ih
      simp [outputCol, bytes]
  | row more ih =>
      obtain ⟨middle, stepped, moves⟩ := process_row sound awaits
      exact process_then (List.cons_ne_nil _ _) stepped moves ih
  | last gone =>
      obtain ⟨after, stepped, ends⟩ := process_last awaits
      exact ⟨after, stepped, .inr ⟨rfl, ends⟩⟩
  | null more ih =>
      obtain ⟨middle, stepped, moves⟩ := process_null awaits
      refine process_then ?_ stepped moves ih
      simp [bytes]
  | whole more ih =>
      obtain ⟨middle, stepped, moves⟩ := process_whole awaits
      refine process_then ?_ stepped moves ih
      simp [bytes]
  | part gone col left rows present more =>
      obtain ⟨after, stepped, moves⟩ := process_part present more awaits
      refine ⟨after, ?_, .inl moves⟩
      rw [behind, if_neg (by simp [bytes]), stepped]
  | rest more ih =>
      obtain ⟨middle, stepped, moves⟩ := process_rest awaits
      refine process_then ?_ stepped moves ih
      exact List.append_ne_nil_of_left_ne_nil awaits.2.2.2.2.2.1 _
  | restPart gone col front left rows more =>
      by_cases empty : front = []
      · subst empty
        exact ⟨ctx, rfl, .inl (.refl awaits)⟩
      · obtain ⟨after, stepped, moves⟩ := process_restPart more awaits
        refine ⟨after, ?_, .inl moves⟩
        rw [behind, if_neg empty, stepped]

/-- Behind the last row there is nothing to do. -/
theorem turn_done {chain : List Link} (awaits : ctx.Awaits table .done) :
    turn conf ctx chain = .ok ctx := by
  rw [turn, awaits.1]

/-- Buffers that end where they may are read to the end. -/
theorem process_chain (sound : table.Sound) {buffers : List Bytes}
    (chained : (streamCuts table result).Chained place buffers next)
    (awaits : ctx.Awaits table place) :
    ∃ after, process conf ctx (buffers.map Link.memory) = .ok after ∧
      Arrives table conf ctx place after next := by
  induction chained generalizing ctx with
  | nil place =>
      refine ⟨ctx, process_ok ?_, .inl (.refl awaits)⟩
      unfold turn
      split <;> rfl
  | @cons first middle last buffer buffers present within rest ih =>
      obtain ⟨between, ran, arrives⟩ := show ∃ between,
          process conf ctx (behind buffer (buffers.map Link.memory)) =
              process conf between (buffers.map Link.memory) ∧
            Arrives table conf ctx first between middle from
        process_reads sound within awaits
      rw [behind, if_neg present] at ran
      rcases arrives with moves | ⟨rfl, ends⟩
      · obtain ⟨after, ended, later⟩ := ih moves.awaits
        exact ⟨after, by rw [List.map_cons, ran, ended], moves.trans later⟩
      · obtain ⟨rfl, rfl⟩ := chained_done rest
        refine ⟨between, ?_, .inr ⟨rfl, ends⟩⟩
        rw [List.map_cons, ran]
        exact process_ok (turn_done ends.awaits)

/-! ## The whole JSON -/

/-- A value, with its name where it has one. -/
def cellText (format : JsonFormat) (cell : DrizzleColumn × Option Bytes) : Bytes :=
  match format with
  | .normal => memberJson cell
  | .compact => cellJson cell.1 cell.2

/-- What begins a row. -/
def openText (format : JsonFormat) : Bytes :=
  match format with
  | .normal => ascii "\x7b"
  | .compact => ascii "["

/-- Texts with a comma in front of each. -/
def behindCommas (texts : List Bytes) : Bytes := texts.flatMap (ascii "," ++ ·)

theorem behindCommas_cons (text : Bytes) (texts : List Bytes) :
    behindCommas (text :: texts) = ascii "," ++ (text ++ behindCommas texts) := by
  rw [behindCommas, List.flatMap_cons, List.append_assoc]
  rfl

theorem intercalate_comma (text : Bytes) (texts : List Bytes) :
    (ascii ",").intercalate (text :: texts) = text ++ behindCommas texts := by
  induction texts generalizing text with
  | nil => simp [List.intercalate, behindCommas]
  | cons other texts ih =>
      have rest := ih other
      rw [List.intercalate_cons_cons, rest, behindCommas_cons, List.append_assoc]

theorem rowJson_cons (format : JsonFormat) (cell : DrizzleColumn × Option Bytes)
    (left : List (DrizzleColumn × Option Bytes)) :
    rowJson format (cell :: left) = openText format ++ (cellText format cell ++
      (behindCommas (left.map (cellText format)) ++ endText format)) := by
  cases format with
  | normal =>
      rw [rowJson, List.map_cons, intercalate_comma, List.append_assoc]
      rfl
  | compact =>
      rw [rowJson, List.map_cons, intercalate_comma, List.append_assoc]
      rfl

/-- The first value of a row and the others. -/
theorem leadText_cell (format : JsonFormat) (gone current : Nat)
    (cell : DrizzleColumn × Option Bytes) :
    leadText format (gone + 1) current cell.1.column ++ cellJson cell.1 cell.2 =
      (if current = 0 then
          (if gone = 0 ∧ format = .normal then [] else ascii ",") ++ openText format
        else ascii ",") ++ cellText format cell := by
  cases format <;> by_cases first : current = 0 <;> by_cases none : gone = 0 <;>
    simp [leadText, cellText, memberJson, openText, first, none, ascii]

/-- The rest of a row. -/
theorem cellsFrom_rest {table : Table} (conf : JsonConf) (gone : Nat)
    {left : List (DrizzleColumn × Option Bytes)} (short : left.length < table.columns.length) :
    cellsFrom table conf (gone + 1) left = behindCommas (left.map (cellText conf.format)) ++
      if left = [] then [] else endText conf.format := by
  induction left with
  | nil => rfl
  | cons cell left ih =>
      have later : left.length < table.columns.length := Nat.lt_of_succ_lt short
      have inside : table.columns.length - (left.length + 1) ≠ 0 :=
        Nat.sub_ne_zero_of_lt short
      rw [cellsFrom, ← List.append_assoc, leadText_cell, if_neg inside, ih later, List.map_cons,
        behindCommas_cons, if_neg (List.cons_ne_nil _ _)]
      by_cases last : left = []
      · subst last
        simp [behindCommas]
      · simp [last]

/-- A row. -/
theorem cellsFrom_row {table : Table} (conf : JsonConf) (gone : Nat)
    {cells : List (DrizzleColumn × Option Bytes)} (whole : cells.length = table.columns.length) :
    cellsFrom table conf (gone + 1) cells =
      (if gone = 0 ∧ conf.format = .normal then [] else ascii ",") ++
        rowJson conf.format cells := by
  cases cells with
  | nil => exact absurd (List.length_eq_zero_iff.mp whole.symm) table.present
  | cons cell left =>
      have short : left.length < table.columns.length := by
        rw [← whole, List.length_cons]
        exact Nat.lt_succ_self _
      have start : table.columns.length - (left.length + 1) = 0 := by
        rw [← whole, List.length_cons, Nat.sub_self]
      rw [cellsFrom, ← List.append_assoc, leadText_cell, if_pos start,
        cellsFrom_rest conf gone short, rowJson_cons]
      by_cases last : left = []
      · subst last
        simp [behindCommas]
      · simp [last]

/-- The rows behind the first text. -/
theorem rowsFrom_behind {table : Table} (conf : JsonConf) {gone : Nat} {rows : List Row}
    (fine : ∀ row ∈ rows, row ∈ table.rows) (behind : ¬(gone = 0 ∧ conf.format = .normal)) :
    rowsFrom table conf gone rows = behindCommas
      (rows.map fun row => rowJson conf.format (table.columns.zip row)) ++ Table.closing conf := by
  induction rows generalizing gone with
  | nil => rfl
  | cons row rows ih =>
      have whole : (table.columns.zip row).length = table.columns.length := by
        rw [List.length_zip, table.width row (fine row List.mem_cons_self), Nat.min_self]
      rw [rowsFrom, cellsFrom_row conf gone whole, if_neg behind,
        ih (fun other member => fine other (List.mem_cons_of_mem _ member)) (by simp),
        List.map_cons, behindCommas_cons]
      simp only [List.append_assoc]

/-- **From the start on it is the JSON of the table.** -/
theorem jsonFrom_start (table : Table) (conf : JsonConf) :
    jsonFrom table conf .start = table.json conf := by
  have all : ∀ row ∈ table.rows, row ∈ table.rows := fun _ member => member
  rw [jsonFrom, openJson, Table.json, List.append_assoc, List.append_assoc]
  congr 2
  cases format : conf.format with
  | compact =>
      simp only [Table.rowsJson]
      rw [rowsFrom_behind conf all (by simp [format]), intercalate_comma, List.append_assoc, format]
  | normal =>
      simp only [Table.rowsJson]
      cases rows : table.rows with
      | nil => simp [rowsFrom, List.intercalate]
      | cons row later =>
          have whole : (table.columns.zip row).length = table.columns.length := by
            rw [List.length_zip, table.width row (by simp [rows]), Nat.min_self]
          rw [rowsFrom, cellsFrom_row conf 0 whole, if_pos ⟨rfl, format⟩,
            rowsFrom_behind conf (fun other member => by simp [rows, member]) (by simp),
            List.map_cons, intercalate_comma, format]
          simp

end HttpBackEnd.Rds
