import HttpBackEnd.Rds.Pipeline
import HttpBackEnd.Rds.TableJson

/-! # A table is delivered

libdrizzle returns a table in any number of parts and waits as often as it likes. Between
two returns the JSON of the table is what has been sent, what the filter holds, and what is
to come from the place where the filter reads; the buffers in between lead from that place
to the one where libdrizzle is.
-/

namespace HttpBackEnd.Rds

open Json LittleEndian Packing Transition

/-! ## What libdrizzle returns -/

/-- The returns at a place of a result, and the place behind them. A value comes in any
number of parts; an empty part may come before its first byte. -/
inductive Yields (table : Table) (result : table.Result) : Place → Return → Place → Prop
  | wait {place : Place} (more : place ≠ .done) : Yields table result place .ioWait place
  | result : Yields table result .start (.result result.res) (.columns table.columns)
  | column (col : DrizzleColumn) (left : List DrizzleColumn) :
      Yields table result (.columns (col :: left)) (.column (some col)) (.columns left)
  | columnsEnd : Yields table result (.columns []) (.column none) (.rows 0 table.rows)
  | row (gone : Nat) {row : Row} (left : List Row) {number : UInt64} (member : row ∈ table.rows)
      (counted : number ≠ 0) :
      Yields table result (.rows gone (row :: left)) (.row number)
        (.cells (gone + 1) (table.columns.zip row) left)
  | rowsEnd (gone : Nat) : Yields table result (.rows gone []) (.row 0) .done
  | null (gone : Nat) (col : DrizzleColumn) (left : List (DrizzleColumn × Option Bytes))
      (rows : List Row) :
      Yields table result (.cells gone ((col, none) :: left) rows) (.field 0 0 none)
        (.cells gone left rows)
  | whole (gone : Nat) (col : DrizzleColumn) (value : Bytes)
      (left : List (DrizzleColumn × Option Bytes)) (rows : List Row) :
      Yields table result (.cells gone ((col, some value) :: left) rows)
        (.field 0 value.length (some value)) (.cells gone left rows)
  | empty (gone : Nat) (col : DrizzleColumn) {value : Bytes}
      (left : List (DrizzleColumn × Option Bytes)) (rows : List Row) (present : value ≠ []) :
      Yields table result (.cells gone ((col, some value) :: left) rows)
        (.field 0 value.length (some [])) (.cells gone ((col, some value) :: left) rows)
  | part (gone : Nat) (col : DrizzleColumn) {front value : Bytes}
      (left : List (DrizzleColumn × Option Bytes)) (rows : List Row) (present : front ≠ [])
      (more : value ≠ []) :
      Yields table result (.cells gone ((col, some (front ++ value)) :: left) rows)
        (.field 0 (front ++ value).length (some front)) (.data gone col value left rows)
  | restPart (gone : Nat) (col : DrizzleColumn) (front : Bytes) {value : Bytes}
      (left : List (DrizzleColumn × Option Bytes)) (rows : List Row) {offset : Nat} (total : Nat)
      (begun : offset ≠ 0) (more : value ≠ []) :
      Yields table result (.data gone col (front ++ value) left rows)
        (.field offset total (some front)) (.data gone col value left rows)
  | rest (gone : Nat) (col : DrizzleColumn) (value : Bytes)
      (left : List (DrizzleColumn × Option Bytes)) (rows : List Row) {offset : Nat} (total : Nat)
      (begun : offset ≠ 0) :
      Yields table result (.data gone col value left rows) (.field offset total (some value))
        (.cells gone left rows)
  | rowEnd (gone : Nat) (rows : List Row) :
      Yields table result (.cells gone [] rows) .rowEnd (.rows gone rows)

/-- Returns one after the other. -/
inductive Delivers (table : Table) (result : table.Result) : Place → List Return → Place → Prop
  | nil (place : Place) : Delivers table result place [] place
  | cons {first middle last : Place} {ret : Return} {returns : List Return}
      (here : Yields table result first ret middle)
      (later : Delivers table result middle returns last) :
      Delivers table result first (ret :: returns) last

/-- Where the filter is when it has read all that was written: the ends of the columns and
of a row are not written. -/
def Place.settle (table : Table) : Place → Place
  | .columns [] => .rows 0 table.rows
  | .cells gone [] later => .rows gone later
  | place => place

/-- The state of the upstream at a place. -/
def UpstreamState.At : UpstreamState → Place → Prop
  | state, .start => state = .sendQuery
  | state, .columns _ => state = .recvCols
  | state, .rows _ _ => state = .recvRows 0
  | state, .cells _ _ _ => ∃ row, row ≠ 0 ∧ state = .recvRows row
  | state, .data _ _ _ _ _ => ∃ row, row ≠ 0 ∧ state = .recvRows row
  | state, .done => state = .idle

/-! ## The upstream -/

/-- An upstream that waits for libdrizzle at a place, and whose buffers lead there. -/
structure Upstream.Waits (table : Table) (result : table.Result) (first : Place) (up : Upstream)
    (place : Place) : Prop where
  state : up.state.At place
  packed : OutBufs.Packed (streamCuts table result) first up.bufs (place.settle table)
  goesOn : up.bufs.seenStreamEnd = false

variable {table : Table} {result : table.Result} {drizzle : BufSize} {up : Upstream}
  {first place next : Place} {ret : Return}

theorem settle_columns (left : List DrizzleColumn) :
    (Place.columns left).settle table = .afterCol table left := by
  cases left <;> rfl

theorem settle_cells (gone : Nat) (left : List (DrizzleColumn × Option Bytes)) (rows : List Row) :
    (Place.cells gone left rows).settle table = .afterCell gone left rows := by
  cases left <;> rfl

theorem settle_cells_of_ne {gone : Nat} {left : List (DrizzleColumn × Option Bytes)}
    {rows : List Row} (present : left ≠ []) :
    (Place.cells gone left rows).settle table = .cells gone left rows := by
  cases left with
  | nil => exact absurd rfl present
  | cons cell left => rfl

theorem settle_of_ne {left : List DrizzleColumn} (present : left ≠ []) :
    (Place.columns left).settle table = .columns left := by
  cases left with
  | nil => exact absurd rfl present
  | cons col left => rfl

theorem settle_ne_done (more : place ≠ .done) : place.settle table ≠ .done := by
  cases place with
  | columns left => cases left <;> nofun
  | cells gone left rows => cases left <;> nofun
  | done => exact absurd rfl more
  | _ => nofun

/-- Buffers that lead on do not begin behind the end. -/
theorem Upstream.Waits.first_ne_done (waits : up.Waits table result first place)
    (more : place ≠ .done) : first ≠ .done := by
  rintro rfl
  obtain ⟨middle, chained, within⟩ := waits.packed
  obtain ⟨_, rfl⟩ := chained_done chained
  exact settle_ne_done more within.of_done.2

/-- Bytes that lead to the next place are written. -/
theorem Upstream.Waits.write {state : UpstreamState} {data : Bytes}
    (waits : up.Waits table result first place)
    (reads : Reads table result (place.settle table) data (next.settle table))
    (there : state.At next) : (up.write drizzle state data).Waits table result first next :=
  ⟨there, waits.packed.submitWhole reads,
    (OutBufs.seenStreamEnd_submitWhole up.bufs data).trans waits.goesOn⟩

theorem take_ioWait (drizzle : BufSize) (up : Upstream) : up.take drizzle .ioWait = up := by
  unfold Upstream.take
  split
  · rfl
  · rfl
  · split <;> rfl
  · rfl
  · rfl

/-- The fields are read in a row. -/
theorem take_field {row : UInt64} (counted : row ≠ 0) (state : up.state = .recvRows row)
    (offset total : Nat) (field : Option Bytes) {data : Bytes}
    (written : outputField offset total field = some data) :
    up.take drizzle (.field offset total field) = up.write drizzle (.recvRows row) data := by
  rw [Upstream.take, state]
  simp only [counted, ↓reduceIte, Upstream.recvFields, written]

/-- The first part of a field, with its length. -/
theorem outputField_first {total : Nat} {front : Bytes} (present : front ≠ [] ∨ total = 0) :
    outputField 0 total (some front) = some (bytes 4 total ++ front) := by
  have length : ¬(front.length = 0 ∧ total ≠ 0) := by
    rintro ⟨nothing, more⟩
    exact present.elim (fun here => here (List.length_eq_zero_iff.mp nothing)) more
  rw [outputField, if_pos rfl, Option.getD_some, if_neg length]
  exact congrArg (fun size => some (size ++ front)) (bytes_mod 4 total)

/-- **A return that is not the last takes the upstream to the next place.** -/
theorem take_yields (yields : Yields table result place ret next)
    (waits : up.Waits table result first place) (more : next ≠ .done) :
    (up.take drizzle ret).Waits table result first next := by
  cases yields with
  | wait _ =>
      rw [take_ioWait]
      exact waits
  | result =>
      have state : up.state = .sendQuery := waits.state
      have columns : result.res.columnCount ≠ 0 := by
        intro nothing
        have count := result.columns
        rw [nothing] at count
        exact table.present (List.length_eq_zero_iff.mp count.symm)
      rw [Upstream.take, state]
      simp only [Upstream.sendQuery, columns, ↓reduceIte]
      refine waits.write ?_ rfl
      rw [settle_of_ne table.present, ← List.append_nil (outputResultHeader result.res)]
      exact .header (.nil _)
  | column col left =>
      have state : up.state = .recvCols := waits.state
      rw [Upstream.take, state]
      refine waits.write ?_ rfl
      rw [settle_columns left, ← List.append_nil (outputCol col)]
      exact .col (.nil _)
  | columnsEnd =>
      have state : up.state = .recvCols := waits.state
      rw [Upstream.take, state]
      exact ⟨rfl, waits.packed, waits.goesOn⟩
  | @row gone row left number member counted =>
      have state : up.state = .recvRows 0 := waits.state
      rw [Upstream.take, state]
      simp only [↓reduceIte, Upstream.recvRow, counted, outputRow, ne_eq, not_false_eq_true]
      refine waits.write ?_ ⟨number, counted, rfl⟩
      have width := table.width row member
      have cells : table.columns.zip row ≠ [] := by
        rw [Ne, List.zip_eq_nil_iff, ← List.length_eq_zero_iff (l := row), width,
          List.length_eq_zero_iff, or_self]
        exact table.present
      rw [settle_cells_of_ne cells]
      exact .row (.nil _)
  | rowsEnd gone => exact absurd rfl more
  | null gone col left rows =>
      obtain ⟨row, counted, state⟩ := waits.state
      rw [take_field counted state 0 0 none rfl]
      refine waits.write ?_ ⟨row, counted, rfl⟩
      rw [settle_cells gone left rows, ← List.append_nil (bytes 4 4294967295)]
      exact .null (.nil _)
  | whole gone col value left rows =>
      obtain ⟨row, counted, state⟩ := waits.state
      have present : value ≠ [] ∨ value.length = 0 := by
        rw [List.length_eq_zero_iff]
        exact (em (value = [])).symm
      rw [take_field counted state 0 _ _ (outputField_first present)]
      have reads : Reads table result (.cells gone ((col, some value) :: left) rows) _ _ :=
        .whole (.nil (.afterCell gone left rows))
      rw [List.append_nil, ← settle_cells gone left rows] at reads
      exact waits.write reads ⟨row, counted, rfl⟩
  | @empty gone col value left rows present =>
      obtain ⟨row, counted, state⟩ := waits.state
      have nothing : outputField 0 value.length (some []) = none :=
        if_pos ⟨rfl, fun none => present (List.length_eq_zero_iff.mp none)⟩
      rw [Upstream.take, state]
      simp only [counted, ↓reduceIte, Upstream.recvFields, nothing]
      exact waits
  | part gone col left rows present behind =>
      obtain ⟨row, counted, state⟩ := waits.state
      rw [take_field counted state 0 _ _ (outputField_first (.inl present))]
      exact waits.write (.part gone col left rows present behind) ⟨row, counted, rfl⟩
  | restPart gone col front left rows total begun behind =>
      obtain ⟨row, counted, state⟩ := waits.state
      rw [take_field counted state _ total (some front) (if_neg begun)]
      exact waits.write (.restPart gone col front left rows behind) ⟨row, counted, rfl⟩
  | rest gone col value left rows total begun =>
      obtain ⟨row, counted, state⟩ := waits.state
      rw [take_field counted state _ total (some value) (if_neg begun)]
      have reads : Reads table result (.data gone col value left rows) _ _ :=
        .rest (.nil (.afterCell gone left rows))
      rw [List.append_nil, ← settle_cells gone left rows] at reads
      exact waits.write reads ⟨row, counted, rfl⟩
  | rowEnd gone rows =>
      obtain ⟨row, counted, state⟩ := waits.state
      rw [Upstream.take, state]
      simp only [counted, ↓reduceIte, Upstream.recvFields]
      exact ⟨rfl, waits.packed, waits.goesOn⟩

/-- With the last return the buffers lead to the end. -/
theorem take_rowsEnd {gone : Nat} (waits : up.Waits table result first (.rows gone [])) :
    (up.take drizzle (.row 0)).state = .idle ∧
      (streamCuts table result).Chained first
        ((up.take drizzle (.row 0)).bufs.close.out.map OutBuf.data) .done := by
  have state : up.state = .recvRows 0 := waits.state
  rw [Upstream.take, state]
  exact ⟨rfl, waits.packed.submitLast (Reads.last gone) (List.cons_ne_nil _ _)⟩

/-- With `NGX_AGAIN` the buffers that are full go, and the place is the same. -/
theorem Upstream.Waits.pass (waits : up.Waits table result first place) :
    ∃ middle, (streamCuts table result).Chained first (up.bufs.close.out.map OutBuf.data) middle ∧
      Upstream.Waits table result middle { up with bufs := up.bufs.close.passed } place := by
  obtain ⟨middle, chained, within⟩ := waits.packed
  have same : up.bufs.close = up.bufs := if_neg (by simp [waits.goesOn])
  rw [same]
  exact ⟨middle, chained, waits.state, ⟨middle, .nil middle, within⟩, waits.goesOn⟩

/-! ## The filter -/

variable {conf : JsonConf} {ctx : Ctx} {buffers : List Bytes}

/-- Only behind the last row is a filter done. -/
theorem awaits_done (awaits : ctx.Awaits table place) (done : ctx.state = .done) :
    place = .done := by
  cases place with
  | done => rfl
  | start => exact absurd (done.symm.trans awaits) (by decide)
  | _ => exact absurd (done.symm.trans awaits.1) (by decide)

/-- The place does not depend on the buffers. -/
theorem awaits_bufs (bufs : OutBufs) (awaits : ctx.Awaits table place) :
    ({ ctx with bufs } : Ctx).Awaits table place := by
  cases place with
  | start => exact awaits
  | columns left => exact awaits
  | rows gone left =>
      obtain ⟨state, knows, fine⟩ := awaits
      exact ⟨state, ⟨knows.cols, knows.colCount, knows.row, knows.headerSent⟩, fine⟩
  | cells gone left rows =>
      obtain ⟨state, knows, rest⟩ := awaits
      exact ⟨state, ⟨knows.cols, knows.colCount, knows.row, knows.headerSent⟩, rest⟩
  | data gone col value left rows =>
      obtain ⟨state, knows, rest⟩ := awaits
      exact ⟨state, ⟨knows.cols, knows.colCount, knows.row, knows.headerSent⟩, rest⟩
  | done => exact awaits

/-- A filter that gets buffers is not done. -/
theorem state_ne_done (chained : (streamCuts table result).Chained first buffers next)
    (present : buffers ≠ []) (awaits : ctx.Awaits table first) : ctx.state ≠ .done := by
  intro done
  obtain rfl := awaits_done awaits done
  exact present (chained_done chained).1

/-- What a filter has passed on, holds, and is to write. -/
structure FilterPasses (table : Table) (conf : JsonConf) (ctx : Ctx) (first : Place)
    (after : Ctx) (out : List OutBuf) (next : Place) : Prop where
  awaits : after.Awaits table next
  even : OutBufs.Even conf.bufSize after.bufs
  passed : after.bufs.out = []
  full : ∀ buf ∈ out, OutBufs.IsFull conf.bufSize buf
  text : ctx.bufs.text ++ jsonFrom table conf first =
    out.flatMap OutBuf.data ++ (after.bufs.text ++ jsonFrom table conf next)

/-- **Buffers that are not the last go through the filter.** -/
theorem bodyFilter_chain (sound : table.Sound)
    (chained : (streamCuts table result).Chained first buffers next)
    (awaits : ctx.Awaits table first) (even : OutBufs.Even conf.bufSize ctx.bufs)
    (passed : ctx.bufs.out = []) (more : next ≠ .done) :
    ∃ after out, bodyFilter conf ctx (buffers.map Link.memory) = .ok (after, out) ∧
      FilterPasses table conf ctx first after out next := by
  by_cases present : buffers = []
  · subst present
    cases chained
    exact ⟨ctx, [], rfl, awaits, even, passed, fun _ member => (List.not_mem_nil member).elim, rfl⟩
  · obtain ⟨after, ran, moves | ⟨ended, _⟩⟩ := show ∃ after,
        process conf ctx (buffers.map Link.memory) = .ok after ∧
          Arrives table conf ctx first after next from
      process_chain sound chained awaits
    · have runs : ¬(buffers.map Link.memory = [] ∨ ctx.state = .done) := by
        rw [List.map_eq_nil_iff]
        exact not_or.mpr ⟨present, state_ne_done chained present awaits⟩
      have still := moves.even even
      have same : after.bufs.close = after.bufs := if_neg (by simp [still.goesOn])
      obtain ⟨written, text, split⟩ := moves.text
      refine ⟨{ after with bufs := after.bufs.passed }, after.bufs.out, ?_,
        awaits_bufs _ moves.awaits, ?_, rfl, still.chain, ?_⟩
      · rw [bodyFilter, if_neg runs, ran]
        simp only [same]
      · exact ⟨still.goesOn, fun _ member => (List.not_mem_nil member).elim, still.room⟩
      · rw [split, ← List.append_assoc, ← text, OutBufs.text, List.append_assoc]
        rfl
    · exact absurd ended more

/-- The end of an output that fits the buffers in one way or another. -/
theorem marked_iff {size length : Nat} (positive : 0 < size) :
    (2 ≤ size - length % size ∨ (length + 2) % size = 0) ↔ size = 1 ∨ (length + 2) % size ≠ 1 := by
  have small : length % size < size := Nat.mod_lt _ positive
  rw [← Nat.mod_add_mod length size 2]
  generalize length % size = rest at small ⊢
  rcases Nat.lt_trichotomy (rest + 2) size with less | equal | greater
  · rw [Nat.mod_eq_of_lt less]
    omega
  · rw [equal, Nat.mod_self]
    omega
  · by_cases one : size = 1
    · subst one
      simp [Nat.mod_one]
    · rw [Nat.mod_eq_sub_mod (Nat.le_of_lt greater), Nat.mod_eq_of_lt (by omega)]
      omega

theorem closing_ne_nil (conf : JsonConf) : Table.closing conf ≠ [] := by
  unfold Table.closing
  split <;> exact List.cons_ne_nil _ _

/-- **The last buffers go through the filter.** Everything is passed on then, in full buffers
and a last one. -/
theorem bodyFilter_last (sound : table.Sound)
    (chained : (streamCuts table result).Chained first buffers .done) (present : buffers ≠ [])
    (awaits : ctx.Awaits table first) (even : OutBufs.Even conf.bufSize ctx.bufs) :
    ∃ after front last, bodyFilter conf ctx (buffers.map Link.memory) =
        .ok (after, front ++ [last]) ∧ after.state = .done ∧
      (front ++ [last]).flatMap OutBuf.data = ctx.bufs.text ++ jsonFrom table conf first ∧
      (∀ buf ∈ front, OutBufs.IsFull conf.bufSize buf) ∧
      (last.lastBuf = true ↔ conf.root = [] ∨ conf.bufSize.size = 1 ∨
        (ctx.bufs.text ++ jsonFrom table conf first).length % conf.bufSize.size ≠ 1) := by
  have runs : ¬(buffers.map Link.memory = [] ∨ ctx.state = .done) := by
    rw [List.map_eq_nil_iff]
    exact not_or.mpr ⟨present, state_ne_done chained present awaits⟩
  obtain ⟨after, ran, moves | ⟨_, ends⟩⟩ := show ∃ after,
      process conf ctx (buffers.map Link.memory) = .ok after ∧
        Arrives table conf ctx first after .done from
    process_chain sound chained awaits
  · obtain rfl := moves.goesOn rfl
    exact absurd awaits.1 (not_or.mp runs).2
  · obtain ⟨before, bufs, still, written, text, split⟩ := ends.bufs
    obtain ⟨front, last, out, full, marked⟩ := (still even).finish (closing_ne_nil conf)
    have total : ctx.bufs.text ++ jsonFrom table conf first =
        before.text ++ Table.closing conf := by
      rw [split, text, List.append_assoc]
    have whole : (front ++ [last]).flatMap OutBuf.data = before.text ++ Table.closing conf := by
      rw [← out, OutBufs.flatMap_close]
    refine ⟨{ after with bufs := after.bufs.close.passed }, front, last, ?_, ends.awaits.1,
      whole.trans total.symm, full, ?_⟩
    · rw [bodyFilter, if_neg runs, ran, ← out, ← bufs]
    · rw [marked, total, List.length_append]
      by_cases root : conf.root = []
      · rw [Table.closing, if_neg (not_not.mpr root)]
        refine iff_of_true (.inl ?_) (.inl root)
        exact Nat.sub_pos_of_lt (Nat.mod_lt _ conf.bufSize.positive)
      · rw [Table.closing, if_pos root]
        exact (marked_iff conf.bufSize.positive).trans (or_iff_right root).symm

/-! ## Whole requests -/

/-- A request between two returns. -/
structure Response.Serves (table : Table) (result : table.Result) (conf : JsonConf)
    (res : Response) (place : Place) : Prop where
  between : ∃ first, res.filter.Awaits table first ∧
    res.upstream.Waits table result first place ∧
    res.sent.flatMap OutBuf.data ++ (res.filter.bufs.text ++ jsonFrom table conf first) =
      jsonFrom table conf .start
  even : OutBufs.Even conf.bufSize res.filter.bufs
  passed : res.filter.bufs.out = []
  full : ∀ buf ∈ res.sent, OutBufs.IsFull conf.bufSize buf

/-- A request that has been answered. -/
structure Response.Served (table : Table) (conf : JsonConf) (res : Response) : Prop where
  state : res.upstream.state = .idle
  sent : ∃ front last, res.sent = front ++ [last] ∧
    (∀ buf ∈ front, OutBufs.IsFull conf.bufSize buf) ∧
    (last.lastBuf = true ↔ conf.root = [] ∨ conf.bufSize.size = 1 ∨
      (jsonFrom table conf .start).length % conf.bufSize.size ≠ 1)
  text : res.sent.flatMap OutBuf.data = jsonFrom table conf .start

variable {res : Response} {returns : List Return}

/-- Nothing has been returned. -/
theorem serves_initial (table : Table) (result : table.Result) (conf : JsonConf) :
    Response.Serves table result conf {} .start :=
  ⟨⟨.start, rfl, ⟨rfl, ⟨.start, Cuts.Chained.nil _, Reads.nil _⟩, rfl⟩, rfl⟩,
    OutBufs.even_initial _, rfl, fun _ member => (List.not_mem_nil member).elim⟩

/-- At a place a call is made. -/
theorem calls_of_at (there : up.state.At place) (more : place ≠ .done) : up.calls = true := by
  cases place with
  | start => rw [Upstream.calls, show up.state = _ from there]
  | columns left => rw [Upstream.calls, show up.state = _ from there]
  | rows gone left => rw [Upstream.calls, show up.state = _ from there]
  | cells gone left rows =>
      obtain ⟨row, _, state⟩ := there
      rw [Upstream.calls, state]
  | data gone col value left rows =>
      obtain ⟨row, _, state⟩ := there
      rw [Upstream.calls, state]
  | done => exact absurd rfl more

theorem state_ne_idle (there : up.state.At place) (more : place ≠ .done) : up.state ≠ .idle := by
  intro idle
  have calls := calls_of_at there more
  rw [Upstream.calls, idle] at calls
  cases calls

/-- What the filter makes of the buffers of the upstream is sent. -/
theorem outputBufs_ok {after : Ctx} {out : List OutBuf}
    (ran : bodyFilter conf res.filter
      ((res.upstream.bufs.close.out.map OutBuf.data).map Link.memory) = .ok (after, out)) :
    res.outputBufs conf =
      { upstream := { res.upstream with bufs := res.upstream.bufs.close.passed }
        filter := after, sent := res.sent ++ out } := by
  rw [List.map_map] at ran
  unfold Response.outputBufs Response.pass
  simp only
  rw [show OutBuf.link = Link.memory ∘ OutBuf.data from rfl, ran]

/-- The buffers of the upstream go through the filter. -/
theorem serves_outputBufs (sound : table.Sound) (more : place ≠ .done)
    (serves : res.Serves table result conf place) :
    (res.outputBufs conf).Serves table result conf place := by
  obtain ⟨⟨first, awaits, waits, text⟩, even, passed, full⟩ := serves
  obtain ⟨middle, chained, waits'⟩ := waits.pass
  obtain ⟨after, out, ran, passes⟩ := show ∃ after out,
      bodyFilter conf res.filter ((res.upstream.bufs.close.out.map OutBuf.data).map Link.memory) =
          .ok (after, out) ∧ FilterPasses table conf res.filter first after out middle from
    bodyFilter_chain sound chained awaits even passed (waits'.first_ne_done more)
  rw [outputBufs_ok ran]
  refine ⟨⟨middle, passes.awaits, waits', ?_⟩, passes.even, passes.passed, fun buf member => ?_⟩
  · rw [List.flatMap_append, List.append_assoc, ← passes.text, text]
  · rcases List.mem_append.mp member with member | member
    · exact full buf member
    · exact passes.full buf member

/-- **A return that is not the last leaves the JSON of the table whole.** -/
theorem serves_step (sound : table.Sound) (yields : Yields table result place ret next)
    (more : next ≠ .done) (serves : res.Serves table result conf place) :
    (res.step drizzle conf ret).Serves table result conf next := by
  obtain ⟨⟨first, awaits, waits, text⟩, even, passed, full⟩ := serves
  have waits' : (res.upstream.take drizzle ret).Waits table result first next :=
    take_yields yields waits more
  have now : Response.Serves table result conf
      { res with upstream := res.upstream.take drizzle ret } next :=
    ⟨⟨first, awaits, waits', text⟩, even, passed, full⟩
  have going := state_ne_idle waits'.state more
  by_cases waiting : ret = .ioWait
  · subst waiting
    exact serves_outputBufs sound more now
  · have goesOn : res.step drizzle conf ret =
        { res with upstream := res.upstream.take drizzle ret } := by
      unfold Response.step
      split
      · exact absurd rfl waiting
      · exact if_neg going
    rw [goesOn]
    exact now

/-- A filter that is done discards what comes. -/
theorem pass_done (chain : List Link) (done : res.filter.state = .done) :
    res.pass conf chain = res := by
  rw [Response.pass, bodyFilter, if_pos (.inr done)]
  simp

/-- **With the last return everything is sent.** -/
theorem served_last (sound : table.Sound) {gone : Nat}
    (serves : res.Serves table result conf (.rows gone [])) :
    (res.step drizzle conf (.row 0)).Served table conf := by
  obtain ⟨⟨first, awaits, waits, text⟩, even, passed, full⟩ := serves
  obtain ⟨idle, chained⟩ := show (res.upstream.take drizzle (.row 0)).state = .idle ∧ _ from
    take_rowsEnd waits
  have present : (res.upstream.take drizzle (.row 0)).bufs.close.out.map OutBuf.data ≠ [] := by
    intro nothing
    rw [nothing] at chained
    cases chained
    exact waits.first_ne_done nofun rfl
  obtain ⟨after, front, last, ran, done, whole, before, marked⟩ :=
    bodyFilter_last sound chained present awaits even
  have ended : res.step drizzle conf (.row 0) =
      { upstream := { res.upstream.take drizzle (.row 0) with
          bufs := (res.upstream.take drizzle (.row 0)).bufs.close.passed }
        filter := after, sent := res.sent ++ (front ++ [last]) } := by
    have outcome : Response.outputBufs conf
        { res with upstream := res.upstream.take drizzle (.row 0) } = _ := outputBufs_ok ran
    unfold Response.step
    simp only [idle, ↓reduceIte, outcome]
    exact pass_done _ done
  rw [ended]
  refine ⟨idle, ⟨res.sent ++ front, last, (List.append_assoc _ _ _).symm, ?_, ?_⟩, ?_⟩
  · intro buf member
    rcases List.mem_append.mp member with member | member
    · exact full buf member
    · exact before buf member
  · have sent : (jsonFrom table conf .start).length % conf.bufSize.size =
        (res.filter.bufs.text ++ jsonFrom table conf first).length % conf.bufSize.size := by
      rw [← text, List.length_append, OutBufs.Even.length_chain full, Nat.mul_add_mod]
    rw [marked, sent]
  · rw [List.flatMap_append, whole, text]

/-- Behind the last row nothing is returned. -/
theorem delivers_done (delivers : Delivers table result .done returns next) :
    returns = [] ∧ next = .done := by
  cases delivers with
  | nil => exact ⟨rfl, rfl⟩
  | cons here later =>
      cases here with
      | wait more => exact absurd rfl more

theorem run_cons {ret : Return} (calls : res.upstream.calls = true) :
    (serving drizzle conf).run res (ret :: returns) =
      (serving drizzle conf).run (res.step drizzle conf ret) returns := by
  rw [System.run, serving]
  simp only [calls, ↓reduceIte, Option.bind_some]

theorem Response.Serves.calls (serves : res.Serves table result conf place)
    (more : place ≠ .done) : res.upstream.calls = true := by
  obtain ⟨⟨_, _, waits, _⟩, _⟩ := serves
  exact calls_of_at waits.state more

/-- The returns up to a place, one after the other. -/
theorem serves_run (sound : table.Sound) (delivers : Delivers table result place returns next)
    (more : next ≠ .done) (serves : res.Serves table result conf place) :
    ∃ after, (serving drizzle conf).run res returns = some after ∧
      after.Serves table result conf next := by
  induction delivers generalizing res with
  | nil place => exact ⟨res, rfl, serves⟩
  | @cons first middle last ret returns here later ih =>
      have goesOn : middle ≠ .done := fun ended => more (delivers_done (ended ▸ later)).2
      have start : first ≠ .done := by
        rintro rfl
        cases here with
        | wait still => exact absurd rfl still
      rw [run_cons (serves.calls start)]
      exact ih more (serves_step sound here goesOn serves)

/-- The returns up to the end. -/
theorem served_run (sound : table.Sound) (delivers : Delivers table result place returns .done)
    (more : place ≠ .done) (serves : res.Serves table result conf place) :
    ∃ after, (serving drizzle conf).run res returns = some after ∧ after.Served table conf := by
  generalize ended : Place.done = last at delivers
  induction delivers generalizing res with
  | nil place => exact absurd ended.symm more
  | @cons first middle last ret returns here later ih =>
      subst ended
      rw [run_cons (serves.calls more)]
      by_cases final : middle = .done
      · subst final
        obtain ⟨rfl, _⟩ := delivers_done later
        cases here with
        | wait more => exact absurd rfl more
        | rowsEnd gone => exact ⟨_, rfl, served_last sound serves⟩
      · exact ih final (serves_step sound here final serves) rfl

/-- A failure ends the calls. -/
theorem take_failure (calls : up.calls = true) : up.take drizzle .failure = up.fail := by
  unfold Upstream.take
  split
  · rfl
  · rfl
  · split <;> rfl
  · rename_i idle
    rw [Upstream.calls, idle] at calls
    cases calls
  · rename_i failed
    rw [Upstream.calls, failed] at calls
    cases calls

/-- **A table is delivered.** However libdrizzle cuts the values, however often it waits and
whatever the sizes of the buffers are, no step fails, and what is sent is the JSON of the
table, in full buffers and a last one. The last one is marked, unless there is a root and the
JSON ends one byte behind a full buffer. -/
theorem table_delivered (table : Table) (sound : table.Sound) (result : table.Result)
    (drizzle : BufSize) (conf : JsonConf) (returns : List Return)
    (delivers : Delivers table result .start returns .done) :
    ∃ final front last, (serving drizzle conf).run {} returns = some final ∧
      final.upstream.state = .idle ∧ final.sent = front ++ [last] ∧
      final.sent.flatMap OutBuf.data = table.json conf ∧
      (∀ buf ∈ front, buf.data.length = conf.bufSize.size ∧ buf.lastBuf = false) ∧
      (last.lastBuf = true ↔ conf.root = [] ∨ conf.bufSize.size = 1 ∨
        (table.json conf).length % conf.bufSize.size ≠ 1) := by
  obtain ⟨final, ran, served⟩ := show ∃ final, (serving drizzle conf).run {} returns = some final ∧
      final.Served table conf from
    served_run sound delivers nofun (serves_initial table result conf)
  obtain ⟨front, last, sent, full, marked⟩ := served.sent
  rw [jsonFrom_start] at marked
  exact ⟨final, front, last, ran, served.state, sent, served.text.trans (jsonFrom_start table conf),
    full, marked⟩

/-- A number in a column. -/
def sampleTable : Table where
  columns := [{ type := .long, name := ascii "id" }]
  rows := [[some [49, 50]]]
  present := List.cons_ne_nil _ _
  width := by decide

/-- What the query says of it. -/
def sampleResult : sampleTable.Result where
  res := { columnCount := 1 }
  columns := rfl

theorem sampleTable_sound : sampleTable.Sound where
  count := by decide
  named := by
    intro col member
    obtain rfl := List.mem_singleton.mp member
    decide
  values := by
    intro row member cell within value here
    obtain rfl := List.mem_singleton.mp member
    obtain rfl := List.mem_singleton.mp within
    cases here
    exact ⟨by decide, fun _ => by decide⟩

/-- The number in two parts, with waits. -/
def sampleReturns : List Return :=
  [.ioWait, .result sampleResult.res, .column (some { type := .long, name := ascii "id" }), .ioWait,
    .column none, .row 1, .field 0 2 (some [49]), .ioWait, .field 1 2 (some [50]), .rowEnd, .row 0]

theorem sampleTable_delivers :
    Delivers sampleTable sampleResult .start sampleReturns .done :=
  .cons (.wait nofun) (.cons .result (.cons (.column _ _) (.cons (.wait nofun) (.cons .columnsEnd
    (.cons (.row 0 [] List.mem_cons_self (by decide))
      (.cons (@Yields.part sampleTable sampleResult 1 _ [49] [50] [] [] (List.cons_ne_nil _ _)
        (List.cons_ne_nil _ _))
      (.cons (.wait nofun) (.cons (.rest 1 _ [50] [] [] 2 Nat.one_ne_zero)
        (.cons (.rowEnd 1 []) (.cons (.rowsEnd 1) (.nil .done)))))))))))

theorem table_delivered_sample :
    ∃ final, (serving ⟨4, by decide⟩ { bufSize := ⟨3, by decide⟩ }).run {} sampleReturns =
        some final ∧
      final.sent.flatMap OutBuf.data = ascii "[\x7b\"id\":12\x7d]" := by
  obtain ⟨final, _, _, ran, _, _, text, _⟩ := table_delivered sampleTable sampleTable_sound
    sampleResult ⟨4, by decide⟩ { format := .normal, bufSize := ⟨3, by decide⟩ } sampleReturns
    sampleTable_delivers
  exact ⟨final, ran, text.trans (by decide)⟩

/-- **What has been sent is right, however far a request has come.** Before the end it is the
front of the JSON of the table, in full buffers of which none is marked. -/
theorem sent_before_end (table : Table) (sound : table.Sound) (result : table.Result)
    (drizzle : BufSize) (conf : JsonConf) (returns : List Return) (place : Place)
    (more : place ≠ .done) (delivers : Delivers table result .start returns place) :
    ∃ res rest, (serving drizzle conf).run {} returns = some res ∧
      res.upstream.calls = true ∧
      table.json conf = res.sent.flatMap OutBuf.data ++ rest ∧
      (∀ buf ∈ res.sent, buf.data.length = conf.bufSize.size ∧ buf.lastBuf = false) ∧
      (serving drizzle conf).run {} (returns ++ [.failure]) =
        some { res with upstream := res.upstream.fail } := by
  obtain ⟨res, ran, serves⟩ := show ∃ res, (serving drizzle conf).run {} returns = some res ∧
      res.Serves table result conf place from
    serves_run sound delivers more (serves_initial table result conf)
  obtain ⟨⟨first, _, waits, text⟩, _, _, full⟩ := id serves
  have calls := serves.calls more
  rw [jsonFrom_start] at text
  refine ⟨res, res.filter.bufs.text ++ jsonFrom table conf first, ran, calls, text.symm, full, ?_⟩
  have failed : res.step drizzle conf .failure = { res with upstream := res.upstream.fail } := by
    unfold Response.step
    simp only [take_failure calls]
    exact if_neg nofun
  refine (serving drizzle conf).run_append_eq_some.mpr ⟨res, ran, ?_⟩
  rw [run_cons calls, failed]
  rfl

theorem sent_before_end_sample :
    ∃ res, (serving ⟨4, by decide⟩ { bufSize := ⟨3, by decide⟩ }).run {}
        (sampleReturns.take 8 ++ [.failure]) = some res ∧ res.upstream.calls = false := by
  obtain ⟨res, _, _, _, _, _, failed⟩ := sent_before_end sampleTable sampleTable_sound sampleResult
    ⟨4, by decide⟩ { format := .normal, bufSize := ⟨3, by decide⟩ } (sampleReturns.take 8)
    (.data 1 { type := .long, name := ascii "id" } [50] [] []) nofun
    (.cons (.wait nofun) (.cons .result (.cons (.column _ _) (.cons (.wait nofun) (.cons .columnsEnd
      (.cons (.row 0 [] List.mem_cons_self (by decide))
        (.cons (@Yields.part sampleTable sampleResult 1 _ [49] [50] [] [] (List.cons_ne_nil _ _)
          (List.cons_ne_nil _ _)) (.cons (.wait nofun) (.nil _)))))))))
  exact ⟨_, failed, rfl⟩

/-! ## A result without columns -/

/-- The filter writes the whole answer for a header without columns. -/
theorem process_status {result : DrizzleResult} (nothing : result.columnCount = 0) :
    process conf {} [.memory (outputResultHeader result)] = .ok
      { state := .done, headerSent := true
        bufs := (OutBufs.submit {} conf.bufSize true
          (headerText conf result.header)).endStream } := by
  apply process_ok
  have parsed := parseHeader_outputResultHeader result []
  rw [List.append_nil] at parsed
  have columns : result.header.colCount = 0 := nothing
  simp only [turn, processHeader, front_memory, parsed, columns, ↓reduceIte, ne_eq,
    not_true_eq_false, outputHeader_eq]

/-- A wait before there is anything to send. -/
theorem run_waits (drizzle : BufSize) (conf : JsonConf) (waits : Nat) (returns : List Return) :
    (serving drizzle conf).run {} (List.replicate waits .ioWait ++ returns) =
      (serving drizzle conf).run {} returns := by
  induction waits with
  | zero => rfl
  | succ waits ih =>
      have still : Response.step drizzle conf {} .ioWait = {} := rfl
      rw [List.replicate_succ, List.cons_append, run_cons rfl, still, ih]

/-- **The answer to a statement is delivered.** A result without columns is answered with its
code, its message and its counts, whatever the sizes of the buffers are. The last buffer is
marked exactly if the answer fits one buffer or fills its buffers. -/
theorem status_delivered (result : DrizzleResult) (nothing : result.columnCount = 0)
    (drizzle : BufSize) (conf : JsonConf) (waits : Nat) :
    ∃ final front last,
      (serving drizzle conf).run {} (List.replicate waits .ioWait ++ [.result result]) =
        some final ∧
      final.upstream.state = .idle ∧ final.sent = front ++ [last] ∧
      final.sent.flatMap OutBuf.data = headerText conf result.header ∧
      (∀ buf ∈ front, buf.data.length = conf.bufSize.size ∧ buf.lastBuf = false) ∧
      (last.lastBuf = true ↔ (headerText conf result.header).length ≤ conf.bufSize.size ∨
        (headerText conf result.header).length % conf.bufSize.size = 0) := by
  let up : Upstream :=
    { state := .idle
      bufs := (OutBufs.submitWhole {} drizzle (outputResultHeader result)).endStream }
  have taken : Upstream.take drizzle {} (.result result) = up := if_pos nothing
  have chain : up.bufs.close.out.map OutBuf.data = [outputResultHeader result] :=
    OutBufs.out_close_submitWhole drizzle _
  have present : headerText conf result.header ≠ [] := List.cons_ne_nil _ _
  obtain ⟨front, last, out, full, marked⟩ := (OutBufs.even_initial conf.bufSize).finish present
  let bufs := (OutBufs.submit {} conf.bufSize true (headerText conf result.header)).endStream
  let after : Ctx := { state := .done, headerSent := true, bufs := bufs.close.passed }
  have ran : bodyFilter conf {} ((up.bufs.close.out.map OutBuf.data).map Link.memory) =
      .ok (after, front ++ [last]) := by
    rw [chain, bodyFilter, if_neg (by simp), List.map_cons, List.map_nil, process_status nothing]
    simp only [← out]
    rfl
  have outcome : Response.outputBufs conf { upstream := up } = _ := outputBufs_ok ran
  let final : Response :=
    { upstream := { up with bufs := up.bufs.close.passed }
      filter := after, sent := front ++ [last] }
  have ended : Response.step drizzle conf {} (.result result) = final := by
    unfold Response.step
    simp only [taken, outcome]
    exact show final.pass conf [.special] = final from pass_done _ rfl
  have whole : (front ++ [last]).flatMap OutBuf.data = headerText conf result.header := by
    rw [← out, OutBufs.flatMap_close]
    rfl
  refine ⟨final, front, last, ?_, rfl, rfl, whole, full, ?_⟩
  · rw [run_waits, run_cons rfl, ended]
    rfl
  · rw [marked]
    simp [OutBufs.text, OutBufs.held]

theorem status_delivered_sample :
    ∃ final, (serving ⟨16, by decide⟩ { bufSize := ⟨5, by decide⟩ }).run {}
        [.ioWait, .result { affectedRows := 2, columnCount := 0 }] = some final ∧
      final.sent.flatMap OutBuf.data = ascii "\x7b\"errcode\":0,\"affected_rows\":2\x7d" := by
  obtain ⟨final, _, _, ran, _, _, text, _⟩ := status_delivered
    { affectedRows := 2, columnCount := 0 } rfl ⟨16, by decide⟩
    { format := .normal, bufSize := ⟨5, by decide⟩ } 1
  exact ⟨final, ran, text.trans (by decide +kernel)⟩

end HttpBackEnd.Rds
