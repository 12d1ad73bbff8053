import HttpBackEnd.Rds.JsonOutput

/-! # The JSON filter

`ngx_http_rds_json_body_filter` takes a chain of buffers. The functions it goes through call
each other at their ends, each one the function of the state it has just set; a turn is one
of these calls. A turn that reads on has less of the chain in front of it.
-/

namespace HttpBackEnd.Rds

open Json LittleEndian

/-- A link of a chain: a buffer in memory, a special one (a flush, the last buffer), or a
part of a file. -/
inductive Link where
  | memory (data : Bytes)
  | special
  | file
deriving DecidableEq, Repr

/-- What is between `pos` and `last`. -/
def Link.data : Link → Bytes
  | .memory data => data
  | .special => []
  | .file => []

/-- What a function finds at the front of the chain. -/
inductive Front where
  | nothing
  | notInMemory
  | buf (data : Bytes) (next : List Link)

/-- The start of `ngx_http_rds_json_process_header`, `_col`, `_row` and `_field`: one special
buffer is skipped. -/
def front : List Link → Front
  | [] => .nothing
  | .memory data :: next => .buf data next
  | .file :: _ => .notInMemory
  | .special :: [] => .nothing
  | .special :: link :: next => .buf link.data next

/-- The start of `ngx_http_rds_json_process_more_field_data`. -/
def frontMore : List Link → Front
  | [] => .nothing
  | .memory data :: next => .buf data next
  | .special :: _ => .notInMemory
  | .file :: _ => .notInMemory

/-- The chain from what is left of a buffer on. -/
def behind (left : Bytes) (next : List Link) : List Link :=
  if left = [] then next else .memory left :: next

/-- What a turn comes to: the call of another function, `NGX_OK`, or `NGX_ERROR`, of which
the context keeps whether the response header is out. -/
inductive Turn where
  | call (ctx : Ctx) (chain : List Link)
  | ok (ctx : Ctx)
  | error (headerSent : Bool)

variable (conf : JsonConf) (ctx : Ctx)

/-- `ngx_http_rds_json_process_header`. -/
def processHeader (chain : List Link) : Turn :=
  match front chain with
  | .nothing => .ok ctx
  | .notInMemory => .error ctx.headerSent
  | .buf data next =>
      match parseHeader data with
      | none => .error ctx.headerSent
      | some (header, left) =>
          if header.colCount = 0 then
            if left ≠ [] then .error ctx.headerSent
            else
              match ({ ctx with
                state := .done, headerSent := true } : Ctx).outputHeader conf header with
              | none => .error true
              | some ctx => .ok ctx
          else
            .call { ctx with
              state := .expectCol, cols := [], curCol := 0
              colCount := header.colCount.toNat, headerSent := true } (behind left next)

/-- What `ngx_http_rds_json_process_col` writes behind the last column. -/
def Ctx.openRows : Option Ctx :=
  (if conf.root ≠ [] then ctx.outputProps conf else some ctx).map fun ctx =>
    match conf.format with
    | .normal => ctx.outputLiteral conf (ascii "[") false
    | .compact => (ctx.outputLiteral conf (ascii "[") false).outputCols conf

/-- `ngx_http_rds_json_process_col`. -/
def processCol (chain : List Link) : Turn :=
  match front chain with
  | .nothing => .ok ctx
  | .notInMemory => .error ctx.headerSent
  | .buf data next =>
      match parseCol data with
      | none => .error ctx.headerSent
      | some (col, left) =>
          if ctx.curCol + 1 < ctx.colCount then
            .call { ctx with cols := ctx.cols ++ [col], curCol := ctx.curCol + 1 }
              (behind left next)
          else
            match ({ ctx with
              cols := ctx.cols ++ [col], curCol := ctx.curCol + 1
              state := .expectRow, row := 0 } : Ctx).openRows conf with
            | none => .error ctx.headerSent
            | some ctx => .call ctx (behind left next)

/-- `ngx_http_rds_json_process_row`. -/
def processRow (chain : List Link) : Turn :=
  match front chain with
  | .nothing => .ok ctx
  | .notInMemory => .error ctx.headerSent
  | .buf [] _ => .error ctx.headerSent
  | .buf (flag :: left) next =>
      if flag = 0 then
        if left ≠ [] then .error ctx.headerSent
        else
          .ok (({ ctx with state := .done } : Ctx).outputLiteral conf
            (if conf.root ≠ [] then ascii "]\x7d" else ascii "]") true)
      else
        .call { ctx with row := ctx.row + 1, curCol := 0, state := .expectField }
          (behind left next)

/-- A field is complete: the next one, or the next row. -/
def Ctx.nextField : Ctx :=
  { ctx with
    curCol := ctx.curCol + 1
    state := if ctx.curCol + 1 < ctx.colCount then .expectField else .expectRow }

/-- So much of the field is still to come. -/
def Ctx.waitFor (rest : Nat) : Ctx := { ctx with fieldDataRest := rest }

/-- A field whose length has been read, with as much of it as the buffer has. -/
def processFieldData (total : Nat) (data : Bytes) (next : List Link) : Turn :=
  if total = 4294967295 then
    match (ctx.waitFor 0).outputField conf [] true with
    | none => .error ctx.headerSent
    | some ctx => .call ctx.nextField (behind data next)
  else
    match (ctx.waitFor (total - min data.length total)).outputField conf (data.take total)
      false with
    | none => .error ctx.headerSent
    | some ctx =>
        if data.length < total then
          .call { ctx with state := .expectMoreFieldData } (behind (data.drop total) next)
        else .call ctx.nextField (behind (data.drop total) next)

/-- `ngx_http_rds_json_process_field`, one round of its loop. -/
def processField (chain : List Link) : Turn :=
  match front chain with
  | .nothing => .ok ctx
  | .notInMemory => .error ctx.headerSent
  | .buf data next =>
      if data.length < 4 then .error ctx.headerSent
      else processFieldData conf ctx (take 4 data).1 (take 4 data).2 next

/-- A part of a field that is not its first one. -/
def processMoreData (data : Bytes) (next : List Link) : Turn :=
  match (ctx.waitFor (ctx.fieldDataRest - min data.length ctx.fieldDataRest)).outputMoreFieldData
    conf (data.take ctx.fieldDataRest) with
  | none => .error ctx.headerSent
  | some now =>
      if now.fieldDataRest ≠ 0 then .call now (behind (data.drop ctx.fieldDataRest) next)
      else .call now.nextField (behind (data.drop ctx.fieldDataRest) next)

/-- `ngx_http_rds_json_process_more_field_data`, one round of its loop. -/
def processMoreFieldData (chain : List Link) : Turn :=
  match frontMore chain with
  | .nothing => .ok ctx
  | .notInMemory => .error ctx.headerSent
  | .buf data next => processMoreData conf ctx data next

/-- The function of a state. -/
def turn (chain : List Link) : Turn :=
  match ctx.state with
  | .expectHeader => processHeader conf ctx chain
  | .expectCol => processCol conf ctx chain
  | .expectRow => processRow conf ctx chain
  | .expectField => processField conf ctx chain
  | .expectMoreFieldData => processMoreFieldData conf ctx chain
  | .done => .ok ctx

/-! ## A turn reads -/

/-- What is in front of a function: the bytes of the buffers, and the buffers. -/
def weight (chain : List Link) : Nat := (chain.map fun link => link.data.length + 1).sum

/-- What is behind a part weighs no more than the part and its links. -/
theorem weight_behind {left : Bytes} {next : List Link} :
    weight (behind left next) ≤ left.length + 1 + weight next := by
  unfold behind
  split
  · omega
  · simp [weight, Link.data]

/-- The first buffer with data weighs at most what the chain weighs. -/
theorem weight_front {chain next : List Link} {data : Bytes}
    (found : front chain = .buf data next) : data.length + 1 + weight next ≤ weight chain := by
  match chain, found with
  | .memory data :: next, rfl => simp [weight, Link.data]
  | .special :: link :: next, rfl =>
      simp only [weight, List.map_cons, List.sum_cons]
      omega

theorem weight_frontMore {chain next : List Link} {data : Bytes}
    (found : frontMore chain = .buf data next) : data.length + 1 + weight next ≤ weight chain := by
  match chain, found with
  | .memory data :: next, rfl => simp [weight, Link.data]

/-- What is left of a buffer that has been read from. -/
theorem weight_behind_lt {data left : Bytes} {chain next : List Link}
    (held : data.length + 1 + weight next ≤ weight chain) (less : left.length < data.length) :
    weight (behind left next) < weight chain :=
  Nat.lt_of_le_of_lt weight_behind (by omega)

variable {conf ctx} {after : Ctx} {chain later : List Link}

/-- A header takes bytes. -/
theorem parseHeader_length {buf left : Bytes} {header : RdsHeader}
    (read : parseHeader buf = some (header, left)) : left.length < buf.length := by
  unfold parseHeader at read
  obtain ⟨_, long, read⟩ := Option.bind_eq_some_iff.mp read
  have enough : 30 ≤ buf.length := by
    by_contra short
    simp [guard, short] at long
  simp only [take] at read
  obtain ⟨_, _, read⟩ := Option.bind_eq_some_iff.mp read
  obtain ⟨_, _, read⟩ := Option.bind_eq_some_iff.mp read
  obtain ⟨_, _, read⟩ := Option.bind_eq_some_iff.mp read
  obtain ⟨_, _, read⟩ := Option.bind_eq_some_iff.mp read
  cases read
  simp only [List.length_drop]
  omega

/-- A column takes bytes. -/
theorem parseCol_length {buf left : Bytes} {col : RdsColumn}
    (read : parseCol buf = some (col, left)) : left.length < buf.length := by
  unfold parseCol at read
  obtain ⟨_, long, read⟩ := Option.bind_eq_some_iff.mp read
  have enough : 6 ≤ buf.length := by
    by_contra short
    simp [guard, short] at long
  simp only [take] at read
  obtain ⟨_, _, read⟩ := Option.bind_eq_some_iff.mp read
  obtain ⟨_, _, read⟩ := Option.bind_eq_some_iff.mp read
  cases read
  simp only [List.length_drop]
  omega

/-- The header leaves a lighter chain. -/
theorem processHeader_call (called : processHeader conf ctx chain = .call after later) :
    weight later < weight chain := by
  unfold processHeader at called
  split at called
  · cases called
  · cases called
  · rename_i data next found
    split at called
    · cases called
    · rename_i header left read
      split at called
      · split at called
        · cases called
        · split at called <;> cases called
      · cases called
        exact weight_behind_lt (weight_front found) (parseHeader_length read)

theorem processCol_call (called : processCol conf ctx chain = .call after later) :
    weight later < weight chain := by
  unfold processCol at called
  split at called
  · cases called
  · cases called
  · rename_i data next found
    split at called
    · cases called
    · rename_i col left read
      have less := weight_behind_lt (weight_front found) (parseCol_length read)
      split at called
      · cases called
        exact less
      · split at called
        · cases called
        · cases called
          exact less

theorem processRow_call (called : processRow conf ctx chain = .call after later) :
    weight later < weight chain := by
  unfold processRow at called
  split at called
  · cases called
  · cases called
  · cases called
  · rename_i flag left next found
    split at called
    · split at called <;> cases called
    · cases called
      exact weight_behind_lt (weight_front found) (Nat.lt_succ_self _)

/-- A field leaves the rest of its buffer. -/
theorem processFieldData_call {total : Nat} {data : Bytes} {next : List Link}
    (called : processFieldData conf ctx total data next = .call after later) :
    ∃ count, later = behind (data.drop count) next := by
  unfold processFieldData at called
  by_cases null : total = 4294967295
  · rw [if_pos null] at called
    cases written : (ctx.waitFor 0).outputField conf [] true with
    | none =>
        rw [written] at called
        cases called
    | some now =>
        rw [written] at called
        cases called
        exact ⟨0, rfl⟩
  · rw [if_neg null] at called
    cases written : (ctx.waitFor (total - min data.length total)).outputField conf
        (data.take total) false with
    | none =>
        rw [written] at called
        cases called
    | some now =>
        rw [written] at called
        simp only at called
        split at called
        · cases called
          exact ⟨total, rfl⟩
        · cases called
          exact ⟨total, rfl⟩

/-- A field leaves a lighter chain. -/
theorem processField_call (called : processField conf ctx chain = .call after later) :
    weight later < weight chain := by
  unfold processField at called
  split at called
  · cases called
  · cases called
  · rename_i data next found
    split at called
    · cases called
    · rename_i sized
      obtain ⟨count, rfl⟩ := processFieldData_call called
      refine weight_behind_lt (weight_front found) ?_
      simp only [take, List.length_drop]
      omega

/-- Behind a field no more of it is waited for. -/
theorem nextField_state : ctx.nextField.state ≠ .expectMoreFieldData := by
  simp only [Ctx.nextField]
  split <;> simp

/-- With nothing to wait for, the next function is called with the same chain. -/
theorem processMoreData_call {data : Bytes} {next : List Link}
    (called : processMoreData conf ctx data next = .call after later) :
    later = behind (data.drop ctx.fieldDataRest) next ∧
      (ctx.fieldDataRest = 0 → after.state ≠ .expectMoreFieldData) := by
  unfold processMoreData at called
  split at called
  · cases called
  · rename_i now written
    split at called
    · rename_i more
      cases called
      refine ⟨rfl, fun waits => absurd ?_ more⟩
      rw [outputMoreFieldData_rest written, Ctx.waitFor, waits, Nat.zero_sub]
    · cases called
      exact ⟨rfl, fun _ => nextField_state⟩

/-- More of a field leaves a lighter chain, or no more is waited for. -/
theorem processMoreFieldData_call
    (called : processMoreFieldData conf ctx chain = .call after later) :
    weight later < weight chain ∨
      (weight later ≤ weight chain ∧ after.state ≠ .expectMoreFieldData) := by
  unfold processMoreFieldData at called
  split at called
  · cases called
  · cases called
  · rename_i data next found
    obtain ⟨rfl, done⟩ := processMoreData_call called
    have held := weight_frontMore found
    by_cases waits : ctx.fieldDataRest = 0
    · rw [waits, List.drop_zero]
      exact .inr ⟨Nat.le_trans weight_behind held, done waits⟩
    · cases data with
      | nil =>
          rw [List.drop_nil]
          exact .inl (by simp only [behind, ↓reduceIte, List.length_nil] at held ⊢; omega)
      | cons char data =>
          refine .inl (weight_behind_lt held ?_)
          simp only [List.length_drop, List.length_cons]
          omega

/-- What the calls go down by: the chain, and then a wait for more of a field. -/
def ahead (ctx : Ctx) (chain : List Link) : Nat :=
  2 * weight chain + if ctx.state = .expectMoreFieldData then 1 else 0

/-- Every call has less ahead. -/
theorem turn_call (called : turn conf ctx chain = .call after later) :
    ahead after later < ahead ctx chain := by
  have shorter : weight later < weight chain → ahead after later < ahead ctx chain := by
    intro less
    unfold ahead
    split <;> split <;> omega
  unfold turn at called
  split at called
  · exact shorter (processHeader_call called)
  · exact shorter (processCol_call called)
  · exact shorter (processRow_call called)
  · exact shorter (processField_call called)
  · rename_i waits
    rcases processMoreFieldData_call called with less | ⟨same, done⟩
    · exact shorter less
    · rw [ahead, ahead, if_neg done, if_pos waits]
      omega
  · cases called

/-- The calls from the state of the context on. -/
def process (conf : JsonConf) (ctx : Ctx) (chain : List Link) : Except Bool Ctx :=
  match _turned : turn conf ctx chain with
  | .ok ctx => .ok ctx
  | .error headerSent => .error headerSent
  | .call ctx chain => process conf ctx chain
termination_by ahead ctx chain
decreasing_by exact turn_call _turned

variable (conf ctx)

/-- `ngx_http_rds_json_body_filter`, with what it hands to the next filter. Behind the end
of the rows everything is discarded. An error ends the request, with 500 if no response
header is out. -/
def bodyFilter (chain : List Link) : Except Bool (Ctx × List OutBuf) :=
  if chain = [] ∨ ctx.state = .done then .ok (ctx, [])
  else
    match process conf ctx chain with
    | .ok ctx => .ok ({ ctx with bufs := ctx.bufs.close.passed }, ctx.bufs.close.out)
    | .error headerSent => .error headerSent

end HttpBackEnd.Rds
