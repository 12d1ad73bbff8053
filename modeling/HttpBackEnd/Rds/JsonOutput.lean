import HttpBackEnd.Rds.OutBufs
import HttpBackEnd.Rds.Stream

/-! # What the JSON filter writes

Every output function of the filter goes over its data twice: it adds up a size, asks for
that much memory, and writes. All but one compare the two in the end. They always agree, so
that no byte is written behind the memory that was asked for, and the comparisons never
fail.
-/

namespace HttpBackEnd.Rds

open Json

/-- `rds_json_format`. -/
inductive JsonFormat where
  | normal
  | compact
deriving DecidableEq, Repr

/-- The settings of a location. The keys are quoted, and the values of the properties are
those of the request. -/
structure JsonConf where
  format : JsonFormat := .normal
  root : Bytes := []
  success : Bytes := []
  userProps : List (Bytes × Bytes) := []
  errcodeKey : Bytes := ascii "\"errcode\""
  errstrKey : Bytes := ascii "\"errstr\""
  bufSize : BufSize

/-- `ngx_http_rds_json_state_t`. -/
inductive JsonState where
  | expectHeader | expectCol | expectRow | expectField | expectMoreFieldData | done
deriving DecidableEq, Repr

/-- `ngx_http_rds_json_ctx_t`. -/
structure Ctx where
  state : JsonState := .expectHeader
  cols : List RdsColumn := []
  colCount : Nat := 0
  curCol : Nat := 0
  row : Nat := 0
  fieldDataRest : Nat := 0
  headerSent : Bool := false
  bufs : OutBufs := {}

/-! ## Escapes -/

/-- The digits of `hex`. -/
def hexDigit (value : UInt8) : UInt8 := if value < 10 then 48 + value else 87 + value

/-- The second pass of `ngx_http_rds_json_escape_json_str`, on a character. -/
def escapeChar (char : UInt8) : Bytes :=
  if char = 13 then [92, 114]
  else if char = 10 then [92, 110]
  else if char = 92 then [92, 92]
  else if char = 34 then [92, 34]
  else if char = 12 then [92, 102]
  else if char = 8 then [92, 98]
  else if char = 9 then [92, 116]
  else if char < 32 then [92, 117, 48, 48, hexDigit (char >>> 4), hexDigit (char &&& 15)]
  else [char]

/-- The first pass: how many more characters there will be. -/
def escapeExtra (char : UInt8) : Nat :=
  if char = 13 ∨ char = 10 ∨ char = 92 ∨ char = 34 ∨ char = 12 ∨ char = 8 ∨ char = 9 then 1
  else if char < 32 then 5
  else 0

def escapeJsonStr (text : Bytes) : Bytes := text.flatMap escapeChar

def escapeCount (text : Bytes) : Nat := (text.map escapeExtra).sum

/-- The two passes agree. -/
theorem length_escapeJsonStr (text : Bytes) :
    (escapeJsonStr text).length = text.length + escapeCount text := by
  induction text with
  | nil => rfl
  | cons char text ih =>
      have one : (escapeChar char).length = 1 + escapeExtra char := by
        unfold escapeChar escapeExtra
        repeat' split
        all_goals simp_all
      rw [escapeJsonStr, List.flatMap_cons, List.length_append, one]
      change 1 + escapeExtra char + (escapeJsonStr text).length = _
      rw [ih, escapeCount, escapeCount, List.map_cons, List.sum_cons, List.length_cons]
      omega

/-! ## Output -/

variable (conf : JsonConf) (ctx : Ctx)

/-- Memory of a size, the text, and `ngx_http_rds_json_submit_mem`. -/
def Ctx.emit (size : Nat) (lastBuf : Bool) (text : Bytes) : Option Ctx :=
  if text.length ≠ size then none
  else some { ctx with bufs := ctx.bufs.submit conf.bufSize lastBuf text }

/-- `ngx_http_rds_json_output_literal`, in a main request. -/
def Ctx.outputLiteral (text : Bytes) (lastBuf : Bool) : Ctx :=
  let bufs := ctx.bufs.submit conf.bufSize lastBuf text
  { ctx with bufs := if lastBuf then bufs.endStream else bufs }

/-- `ngx_get_num_size`. -/
def numSize (number : Nat) : Nat :=
  if number / 10 = 0 then 1 else numSize (number / 10) + 1

/-- The decimal digits, as `ngx_sprintf_num` writes them. -/
def numText (number : Nat) : Bytes :=
  if number / 10 = 0 then [(48 + number % 10).toUInt8]
  else numText (number / 10) ++ [(48 + number % 10).toUInt8]

/-- The property that tells success, with its comma. -/
def successText (ok : Bool) : Bytes :=
  if conf.success ≠ [] then conf.success ++ (if ok then ascii ":true," else ascii ":false,")
  else []

def successSize (ok : Bool) : Nat :=
  if conf.success ≠ [] then conf.success.length + 2 + (if ok then 4 else 5) else 0

/-- The properties of the user, each with its comma. -/
def userPropsText : Bytes :=
  conf.userProps.flatMap fun prop =>
    prop.1 ++ (ascii ":\"" ++ (escapeJsonStr prop.2 ++ ascii "\","))

def userPropsSize : Nat :=
  (conf.userProps.map fun prop => 4 + prop.1.length + prop.2.length + escapeCount prop.2).sum

/-- The text of `ngx_http_rds_json_output_header`. -/
def headerText (header : RdsHeader) : Bytes :=
  ascii "\x7b" ++ (successText conf (header.stdErrcode = 0) ++ (userPropsText conf ++
    (conf.errcodeKey ++ (ascii ":" ++ (numText header.stdErrcode.toNat ++
      ((if header.errstr ≠ [] then
          ascii "," ++ (conf.errstrKey ++ (ascii ":\"" ++
            (escapeJsonStr header.errstr ++ ascii "\"")))
        else []) ++
      ((if header.insertId ≠ 0 then ascii ",\"insert_id\":" ++ numText header.insertId.toNat
        else []) ++
      ((if header.affectedRows ≠ 0 then
          ascii ",\"affected_rows\":" ++ numText header.affectedRows.toNat
        else []) ++ ascii "\x7d"))))))))

def headerSize (header : RdsHeader) : Nat :=
  1 + conf.errcodeKey.length + 1 + numSize header.stdErrcode.toNat + 1 +
    successSize conf (header.stdErrcode = 0) + userPropsSize conf +
    (if header.errstr ≠ [] then
      1 + conf.errstrKey.length + 1 + 1 + header.errstr.length + escapeCount header.errstr + 1
    else 0) +
    (if header.insertId ≠ 0 then 13 + numSize header.insertId.toNat else 0) +
    (if header.affectedRows ≠ 0 then 17 + numSize header.affectedRows.toNat else 0)

/-- `ngx_http_rds_json_output_header`. -/
def Ctx.outputHeader (header : RdsHeader) : Option Ctx :=
  (ctx.emit conf (headerSize conf header) true (headerText conf header)).map fun ctx =>
    { ctx with bufs := ctx.bufs.endStream }

/-- The text of `ngx_http_rds_json_output_props`. -/
def propsText : Bytes :=
  ascii "\x7b" ++ (successText conf true ++ (userPropsText conf ++ (conf.root ++ ascii ":")))

def propsSize : Nat :=
  2 + conf.root.length + (if conf.success ≠ [] then 6 + conf.success.length else 0) +
    userPropsSize conf

/-- `ngx_http_rds_json_output_props`. -/
def Ctx.outputProps : Option Ctx := ctx.emit conf (propsSize conf) false (propsText conf)

/-- A name in quotes. -/
def quoteName (col : RdsColumn) : Bytes := ascii "\"" ++ (escapeJsonStr col.name ++ ascii "\"")

/-- The text of `ngx_http_rds_json_output_cols`. -/
def colsText (cols : List RdsColumn) : Bytes :=
  ascii "[" ++ ((ascii ",").intercalate (cols.map quoteName) ++ ascii "]")

def colsSize (cols : List RdsColumn) : Nat :=
  2 + (cols.map fun col => col.name.length + escapeCount col.name + 2).sum + (cols.length - 1)

/-- `ngx_http_rds_json_output_cols`, which makes no comparison. -/
def Ctx.outputCols : Ctx :=
  { ctx with bufs := ctx.bufs.submit conf.bufSize false (colsText ctx.cols) }

/-- What goes in front of a value. -/
def leadText (format : JsonFormat) (row curCol : Nat) (col : RdsColumn) : Bytes :=
  match format with
  | .normal =>
      (if curCol = 0 then if row = 1 then ascii "\x7b" else ascii ",\x7b" else ascii ",") ++
        (quoteName col ++ ascii ":")
  | .compact => if curCol = 0 then ascii ",[" else ascii ","

def leadSize (format : JsonFormat) (row curCol : Nat) (col : RdsColumn) : Nat :=
  match format with
  | .normal =>
      (if curCol = 0 then if row = 1 then 2 else 3 else 2) +
        (col.name.length + escapeCount col.name + 2)
  | .compact => if curCol = 0 then 2 else 1

/-- What is written behind the last byte of the last value of a row. -/
def Ctx.endsRow : Prop := ctx.fieldDataRest = 0 ∧ ctx.curCol = ctx.colCount - 1

instance : Decidable ctx.endsRow := inferInstanceAs (Decidable (_ ∧ _))

/-- What ends a row. -/
def endText (format : JsonFormat) : Bytes :=
  match format with
  | .normal => ascii "\x7d"
  | .compact => ascii "]"

/-- The digits of an integer, behind its sign. -/
def digits (data : Bytes) : Bool := data.all fun char => 48 ≤ char && char ≤ 57

/-- The digits of an integer, with a sign or without. -/
def integral : Bytes → Bool
  | [] => true
  | char :: data => (char = 45 || 48 ≤ char && char ≤ 57) && digits data

/-- The text of a value, as far as it is there. -/
def valueText (rough : RoughType) (rest : Nat) (isNull : Bool) (data : Bytes) : Bytes :=
  if isNull then ascii "null"
  else if data = [] then ascii "\"\""
  else
    match rough with
    | .int => data
    | .float => data
    | .bool => if data.head? = some 48 ∨ data.head? = some 102 ∨ data.head? = some 70 then
        ascii "false" else ascii "true"
    | .str => ascii "\"" ++ (escapeJsonStr data ++ if rest = 0 then ascii "\"" else [])

/-- The size of a value; no number and no boolean has one that is not well formed. -/
def valueSize (rough : RoughType) (rest : Nat) (isNull : Bool) (data : Bytes) : Option Nat :=
  if isNull then some 4
  else if data = [] then some 2
  else
    match rough with
    | .int => if integral data then some data.length else none
    | .float => some data.length
    | .bool =>
        if data.length ≠ 1 ∨ rest ≠ 0 then none
        else if data.head? = some 48 ∨ data.head? = some 102 ∨ data.head? = some 70 then some 5
        else if data.head? = some 49 ∨ data.head? = some 116 ∨ data.head? = some 84 then some 4
        else none
    | .str => some (1 + data.length + escapeCount data + if rest = 0 then 1 else 0)

/-- `ngx_http_rds_json_output_field`. -/
def Ctx.outputField (data : Bytes) (isNull : Bool) : Option Ctx :=
  match ctx.cols[ctx.curCol]? with
  | none => none
  | some col =>
      if data = [] ∧ 0 < ctx.fieldDataRest then none
      else
        match valueSize (roughType col.stdType) ctx.fieldDataRest isNull data with
        | none => none
        | some size =>
            ctx.emit conf
              (leadSize conf.format ctx.row ctx.curCol col + size +
                if ctx.endsRow then 1 else 0) false
              (leadText conf.format ctx.row ctx.curCol col ++
                (valueText (roughType col.stdType) ctx.fieldDataRest isNull data ++
                  if ctx.endsRow then endText conf.format else []))

/-- The text of a part of a value that is not its first one. -/
def moreText (rough : RoughType) (rest : Nat) (data : Bytes) : Bytes :=
  match rough with
  | .int => data
  | .float => data
  | .bool => []
  | .str => escapeJsonStr data ++ if rest = 0 then ascii "\"" else []

def moreSize (rough : RoughType) (rest : Nat) (data : Bytes) : Option Nat :=
  match rough with
  | .int => if digits data then some data.length else none
  | .float => some data.length
  | .bool => some 0
  | .str => some (data.length + escapeCount data + if rest = 0 then 1 else 0)

/-- `ngx_http_rds_json_output_more_field_data`. -/
def Ctx.outputMoreFieldData (data : Bytes) : Option Ctx :=
  match ctx.cols[ctx.curCol]? with
  | none => none
  | some col =>
      match moreSize (roughType col.stdType) ctx.fieldDataRest data with
      | none => none
      | some size =>
          ctx.emit conf (size + if ctx.endsRow then 1 else 0) false
            (moreText (roughType col.stdType) ctx.fieldDataRest data ++
              if ctx.endsRow then endText conf.format else [])

/-! ## The sizes are the lengths -/

variable {conf ctx}

/-- The digits of a number, as counted by `numSize`. -/
theorem length_numText (number : Nat) : (numText number).length = numSize number := by
  fun_induction numText number with
  | case1 number last =>
      rw [numSize, if_pos last]
      rfl
  | case2 number more ih =>
      rw [numSize, if_neg more, List.length_append, ih]
      rfl

/-- The size of the member that says whether the query was successful. -/
theorem length_successText (ok : Bool) :
    (successText conf ok).length = successSize conf ok := by
  unfold successText successSize
  split
  · rw [List.length_append, Nat.add_assoc]
    cases ok <;> rfl
  · rfl

/-- The size of the properties of the configuration. -/
theorem length_userPropsText : (userPropsText conf).length = userPropsSize conf := by
  unfold userPropsText userPropsSize
  rw [List.length_flatMap]
  congr 1
  refine List.map_congr_left fun prop _ => ?_
  simp only [List.length_append, length_escapeJsonStr]
  change _ + (2 + (_ + 2)) = _
  omega

/-- **The header has the size computed for it**, property by property. -/
theorem length_headerText (header : RdsHeader) :
    (headerText conf header).length = headerSize conf header := by
  have errstr : (if header.errstr ≠ [] then
        ascii "," ++ (conf.errstrKey ++ (ascii ":\"" ++
          (escapeJsonStr header.errstr ++ ascii "\"")))
      else []).length =
      if header.errstr ≠ [] then
        1 + conf.errstrKey.length + 1 + 1 + header.errstr.length + escapeCount header.errstr + 1
      else 0 := by
    split
    · simp only [List.length_append, length_escapeJsonStr]
      change 1 + (_ + (2 + (_ + 1))) = _
      omega
    · rfl
  have insertId : (if header.insertId ≠ 0 then
        ascii ",\"insert_id\":" ++ numText header.insertId.toNat else []).length =
      if header.insertId ≠ 0 then 13 + numSize header.insertId.toNat else 0 := by
    split
    · rw [List.length_append, length_numText]
      rfl
    · rfl
  have affectedRows : (if header.affectedRows ≠ 0 then
        ascii ",\"affected_rows\":" ++ numText header.affectedRows.toNat else []).length =
      if header.affectedRows ≠ 0 then 17 + numSize header.affectedRows.toNat else 0 := by
    split
    · rw [List.length_append, length_numText]
      rfl
    · rfl
  simp only [headerText, headerSize, List.length_append, length_successText,
    length_userPropsText, length_numText, errstr, insertId, affectedRows]
  change 1 + (_ + (_ + (_ + (1 + (_ + (_ + (_ + (_ + 1)))))))) = _
  omega

/-- The size of what stands in front of the rows. -/
theorem length_propsText : (propsText conf).length = propsSize conf := by
  have success : (successText conf true).length =
      if conf.success ≠ [] then 6 + conf.success.length else 0 := by
    rw [length_successText, successSize]
    split
    · exact Nat.add_comm _ 6
    · rfl
  simp only [propsText, propsSize, List.length_append, length_userPropsText, success]
  change 1 + (_ + (_ + (_ + 1))) = _
  omega

/-- A name with its quotes and escapes. -/
theorem length_quoteName (col : RdsColumn) :
    (quoteName col).length = col.name.length + escapeCount col.name + 2 := by
  simp only [quoteName, List.length_append, length_escapeJsonStr]
  change 1 + (_ + 1) = _
  omega

/-- The names of the columns with the commas between them. -/
theorem length_intercalate_comma (col : RdsColumn) (cols : List RdsColumn) :
    ((ascii ",").intercalate ((col :: cols).map quoteName)).length =
      ((col :: cols).map fun col => col.name.length + escapeCount col.name + 2).sum +
        cols.length := by
  induction cols generalizing col with
  | nil => simp [List.intercalate, length_quoteName]
  | cons next cols ih =>
      have later := ih next
      simp only [List.map_cons, List.intercalate_cons_cons, List.length_append, length_quoteName,
        List.sum_cons, List.length_cons] at later ⊢
      rw [later]
      change _ + 1 + _ = _
      omega

/-- The size computed for the row of names is the length of its text. -/
theorem length_colsText (cols : List RdsColumn) : (colsText cols).length = colsSize cols := by
  have brackets : ∀ text : Bytes, (ascii "[" ++ (text ++ ascii "]")).length = 2 + text.length := by
    intro text
    simp only [List.length_append]
    change 1 + (_ + 1) = _
    omega
  rw [colsText, brackets, colsSize]
  cases cols with
  | nil => rfl
  | cons col cols =>
      rw [length_intercalate_comma, Nat.add_assoc]
      rfl

/-- What stands before a field: a bracket, a comma, the name of its column. -/
theorem length_leadText (format : JsonFormat) (row curCol : Nat) (col : RdsColumn) :
    (leadText format row curCol col).length = leadSize format row curCol col := by
  cases format with
  | normal =>
      have key : (quoteName col ++ ascii ":").length =
          col.name.length + escapeCount col.name + 2 + 1 := by
        rw [List.length_append, length_quoteName]
        rfl
      simp only [leadText, leadSize, List.length_append] at key ⊢
      rw [key]
      by_cases first : curCol = 0
      · by_cases top : row = 1
        · rw [if_pos first, if_pos first, if_pos top, if_pos top]
          change 1 + _ = _
          omega
        · rw [if_pos first, if_pos first, if_neg top, if_neg top]
          change 2 + _ = _
          omega
      · rw [if_neg first, if_neg first]
        change 1 + _ = _
        omega
  | compact =>
      simp only [leadText, leadSize]
      split <;> rfl

/-- What stands behind the last field of a row. -/
theorem length_endText (format : JsonFormat) :
    (if ctx.endsRow then endText format else []).length = if ctx.endsRow then 1 else 0 := by
  split
  · cases format <;> rfl
  · rfl

/-- The closing quote comes with the last part of a text. -/
theorem length_closeQuote (rest : Nat) :
    (if rest = 0 then ascii "\"" else []).length = if rest = 0 then 1 else 0 := by
  split <;> rfl

/-- A value with its quotes and escapes, where its size is computed at all. -/
theorem length_valueText {rough : RoughType} {rest : Nat} {isNull : Bool} {data : Bytes}
    {size : Nat} (sized : valueSize rough rest isNull data = some size) :
    (valueText rough rest isNull data).length = size := by
  unfold valueSize at sized
  unfold valueText
  by_cases null : isNull = true
  · rw [if_pos null] at sized ⊢
    exact Option.some.inj sized
  · rw [if_neg null] at sized ⊢
    by_cases empty : data = []
    · rw [if_pos empty] at sized ⊢
      exact Option.some.inj sized
    · rw [if_neg empty] at sized ⊢
      cases rough with
      | int =>
          simp only at sized ⊢
          split at sized
          · exact Option.some.inj sized
          · cases sized
      | float => exact Option.some.inj sized
      | bool =>
          simp only at sized ⊢
          split at sized
          · cases sized
          · by_cases no : data.head? = some 48 ∨ data.head? = some 102 ∨ data.head? = some 70
            · rw [if_pos no] at sized ⊢
              exact Option.some.inj sized
            · rw [if_neg no] at sized ⊢
              split at sized
              · exact Option.some.inj sized
              · cases sized
      | str =>
          simp only [Option.some.injEq] at sized
          simp only [List.length_append, length_escapeJsonStr, length_closeQuote]
          change 1 + _ = _
          omega

/-- A later part of a value. -/
theorem length_moreText {rough : RoughType} {rest : Nat} {data : Bytes} {size : Nat}
    (sized : moreSize rough rest data = some size) : (moreText rough rest data).length = size := by
  unfold moreSize at sized
  unfold moreText
  cases rough with
  | int =>
      simp only at sized ⊢
      split at sized
      · exact Option.some.inj sized
      · cases sized
  | float => exact Option.some.inj sized
  | bool => exact Option.some.inj sized
  | str =>
      simp only [Option.some.injEq] at sized
      simp only [List.length_append, length_escapeJsonStr, length_closeQuote]
      exact sized

/-! ## The output functions -/

/-- A text of the announced size is submitted. -/
theorem emit_eq {size : Nat} {text : Bytes} (same : text.length = size) (lastBuf : Bool) :
    ctx.emit conf size lastBuf text =
      some { ctx with bufs := ctx.bufs.submit conf.bufSize lastBuf text } := by
  exact if_neg (not_not.mpr same)

/-- Output changes the buffers and nothing else. -/
theorem emit_rest {size : Nat} {lastBuf : Bool} {text : Bytes} {after : Ctx}
    (written : ctx.emit conf size lastBuf text = some after) :
    after.fieldDataRest = ctx.fieldDataRest := by
  unfold Ctx.emit at written
  split at written
  · cases written
  · cases written
    rfl

/-- The number of bytes that are still to come of a field is not the output's business. -/
theorem outputMoreFieldData_rest {data : Bytes} {after : Ctx}
    (written : ctx.outputMoreFieldData conf data = some after) :
    after.fieldDataRest = ctx.fieldDataRest := by
  unfold Ctx.outputMoreFieldData at written
  split at written
  · cases written
  · split at written
    · cases written
    · exact emit_rest written

/-- The header of a result without columns is never refused. -/
theorem outputHeader_eq (header : RdsHeader) :
    ctx.outputHeader conf header =
      some { ctx with
        bufs := (ctx.bufs.submit conf.bufSize true (headerText conf header)).endStream } := by
  rw [Ctx.outputHeader, emit_eq (length_headerText header)]
  rfl

/-- The opening of a result is never refused. -/
theorem outputProps_eq :
    ctx.outputProps conf =
      some { ctx with bufs := ctx.bufs.submit conf.bufSize false (propsText conf) } :=
  emit_eq length_propsText false

/-- The names of the columns fill the memory that is asked for them, though nothing compares
the two. -/
theorem outputCols_eq :
    ctx.emit conf (colsSize ctx.cols) false (colsText ctx.cols) = some (ctx.outputCols conf) :=
  emit_eq (length_colsText ctx.cols) false

/-- A field is refused for what it is, and never for its size. -/
theorem outputField_eq (conf : JsonConf) {col : RdsColumn} {data : Bytes} {isNull : Bool}
    {size : Nat}
    (here : ctx.cols[ctx.curCol]? = some col) (ready : ¬(data = [] ∧ 0 < ctx.fieldDataRest))
    (sized : valueSize (roughType col.stdType) ctx.fieldDataRest isNull data = some size) :
    ctx.outputField conf data isNull = some { ctx with
      bufs := ctx.bufs.submit conf.bufSize false
        (leadText conf.format ctx.row ctx.curCol col ++
          (valueText (roughType col.stdType) ctx.fieldDataRest isNull data ++
            if ctx.endsRow then endText conf.format else [])) } := by
  have same : (leadText conf.format ctx.row ctx.curCol col ++
      (valueText (roughType col.stdType) ctx.fieldDataRest isNull data ++
        if ctx.endsRow then endText conf.format else [])).length =
      leadSize conf.format ctx.row ctx.curCol col + size + if ctx.endsRow then 1 else 0 := by
    rw [List.length_append, List.length_append, length_leadText, length_valueText sized,
      length_endText, Nat.add_assoc]
  rw [Ctx.outputField, here]
  simp only [if_neg ready, sized]
  exact emit_eq same false

/-- So it is for a further part of a field. -/
theorem outputMoreFieldData_eq (conf : JsonConf) {col : RdsColumn} {data : Bytes} {size : Nat}
    (here : ctx.cols[ctx.curCol]? = some col)
    (sized : moreSize (roughType col.stdType) ctx.fieldDataRest data = some size) :
    ctx.outputMoreFieldData conf data = some { ctx with
      bufs := ctx.bufs.submit conf.bufSize false
        (moreText (roughType col.stdType) ctx.fieldDataRest data ++
          if ctx.endsRow then endText conf.format else []) } := by
  have same : (moreText (roughType col.stdType) ctx.fieldDataRest data ++
      if ctx.endsRow then endText conf.format else []).length =
      size + if ctx.endsRow then 1 else 0 := by
    rw [List.length_append, length_moreText sized, length_endText]
  rw [Ctx.outputMoreFieldData, here]
  simp only [sized]
  exact emit_eq same false

end HttpBackEnd.Rds
