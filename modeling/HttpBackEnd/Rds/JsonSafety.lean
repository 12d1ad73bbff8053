import Mathlib
import HttpBackEnd.Library.Transition
import HttpBackEnd.Rds.TableJson

/-! # The JSON filter on any stream

The filter trusts the counts of the stream: it asks for memory for as many columns as the
header announces, and goes by `cur_col` without a comparison. Whatever the stream is, and
however it is cut, it stays within that memory and within its buffers.
-/

namespace HttpBackEnd.Rds

open Transition

namespace OutBufs

/-- No buffer holds more than it has room for. -/
structure Bounded (conf : BufSize) (bufs : OutBufs) : Prop where
  chain : ∀ buf ∈ bufs.out, buf.data.length ≤ conf.size
  room : bufs.outBuf.data.length + bufs.availOut ≤ conf.size

variable {bufs : OutBufs} {conf : BufSize}

/-- Nothing has been written yet. -/
theorem bounded_initial : Bounded conf {} :=
  ⟨fun _ member => (List.not_mem_nil member).elim, Nat.zero_le conf.size⟩

/-- A new buffer is taken only when the last one is full, and the full one is passed on. -/
theorem Bounded.getBuf (bounded : Bounded conf bufs) : Bounded conf (bufs.getBuf conf) := by
  unfold OutBufs.getBuf
  split
  · exact bounded
  · exact ⟨bounded.chain, Nat.le_of_eq (Nat.zero_add conf.size)⟩

/-- What is written fits the room that is left. -/
theorem Bounded.put (bounded : Bounded conf bufs) {data : Bytes}
    (fits : data.length ≤ bufs.availOut) : Bounded conf (bufs.put data) := by
  have room := bounded.room
  refine ⟨bounded.chain, ?_⟩
  simp only [OutBufs.put, List.length_append]
  omega

theorem Bounded.mark (bounded : Bounded conf bufs) (lastBuf : Bool) :
    Bounded conf (bufs.mark lastBuf) := ⟨bounded.chain, bounded.room⟩

/-- A full buffer goes to the chain. -/
theorem Bounded.save (bounded : Bounded conf bufs) : Bounded conf bufs.save := by
  refine ⟨fun buf member => ?_, bounded.room⟩
  rcases List.mem_append.mp member with member | member
  · exact bounded.chain buf member
  · rw [List.mem_singleton.mp member]
    exact Nat.le_trans (Nat.le_add_right _ _) bounded.room

/-- The rest of a text fills buffer after buffer. -/
theorem Bounded.fill (bounded : Bounded conf bufs) (lastBuf : Bool) (postponed : Bytes) :
    Bounded conf (bufs.fill conf lastBuf postponed) := by
  fun_induction OutBufs.fill conf lastBuf bufs postponed with
  | case1 bufs postponed more =>
      exact bounded.put (List.length_take_le bufs.availOut postponed)
  | case2 bufs postponed full last =>
      exact ((bounded.put (List.length_take_le bufs.availOut postponed)).mark lastBuf).save
  | case3 bufs postponed full more ih =>
      exact ih (bounded.put (List.length_take_le bufs.availOut postponed)).save.getBuf

/-- A text of any length keeps the buffers in their bounds. -/
theorem Bounded.submit (bounded : Bounded conf bufs) (lastBuf : Bool) (data : Bytes) :
    Bounded conf (bufs.submit conf lastBuf data) := by
  unfold OutBufs.submit
  split
  · exact bounded.getBuf.fill lastBuf data
  · rename_i fits
    have written := (bounded.getBuf.put (Nat.le_of_not_lt fits)).mark lastBuf
    unfold OutBufs.saveFull
    split
    · exact written.save
    · exact written

/-- The buffer that ends the stream is empty. -/
theorem Bounded.endStream (bounded : Bounded conf bufs) : Bounded conf bufs.endStream :=
  ⟨bounded.chain, bounded.room⟩

/-- What is left over when the response ends is within its bounds, too. -/
theorem Bounded.close (bounded : Bounded conf bufs) : Bounded conf bufs.close := by
  unfold OutBufs.close
  split
  · split
    · exact ⟨bounded.save.chain, Nat.le_trans (Nat.le_add_right _ _) bounded.room⟩
    · exact ⟨bounded.chain, bounded.room⟩
  · exact bounded

/-- Before the end nothing is closed. -/
theorem Even.close (even : Even conf bufs) : bufs.close = bufs :=
  if_neg (by rw [even.goesOn]; exact Bool.false_ne_true)

end OutBufs

open OutBufs

/-- How far the columns are, in each state. -/
def Ctx.Placed (ctx : Ctx) : Prop :=
  match ctx.state with
  | .expectHeader => True
  | .expectCol => ctx.cols.length = ctx.curCol ∧ ctx.curCol < ctx.colCount
  | .expectRow => ctx.cols.length = ctx.colCount ∧ 0 < ctx.colCount
  | .expectField => ctx.cols.length = ctx.colCount ∧ ctx.curCol < ctx.colCount
  | .expectMoreFieldData => ctx.cols.length = ctx.colCount ∧ ctx.curCol < ctx.colCount
  | .done => True

/-- The columns are within their memory, and the output is within its buffers; all buffers
are full until the end is written. -/
structure Ctx.Safe (conf : JsonConf) (ctx : Ctx) : Prop where
  fits : ctx.cols.length ≤ ctx.colCount
  placed : ctx.Placed
  even : ctx.state ≠ .done → Even conf.bufSize ctx.bufs
  bounded : Bounded conf.bufSize ctx.bufs

/-- Where a turn leads to is safe. -/
def Turn.Safe (conf : JsonConf) : Turn → Prop
  | .call ctx _ => ctx.Safe conf
  | .ok ctx => ctx.Safe conf
  | .error _ => True

/-- An output that is not the last one: it changes the buffers and nothing else. -/
structure Writes (conf : JsonConf) (ctx after : Ctx) : Prop where
  others : after = { ctx with bufs := after.bufs }
  even : Even conf.bufSize ctx.bufs → Even conf.bufSize after.bufs
  bounded : Bounded conf.bufSize ctx.bufs → Bounded conf.bufSize after.bufs

variable {conf : JsonConf} {ctx middle after : Ctx} {chain : List Link}

/-! ## The output functions -/

theorem writes_submit (text : Bytes) :
    Writes conf ctx { ctx with bufs := ctx.bufs.submit conf.bufSize false text } :=
  ⟨rfl, fun even => even.submit text, fun bounded => bounded.submit false text⟩

theorem Writes.refl : Writes conf ctx ctx := ⟨rfl, id, id⟩

theorem Writes.trans (first : Writes conf ctx middle) (second : Writes conf middle after) :
    Writes conf ctx after := by
  refine ⟨?_, second.even ∘ first.even, second.bounded ∘ first.bounded⟩
  calc after = { middle with bufs := after.bufs } := second.others
    _ = { ctx with bufs := after.bufs } := by rw [first.others]

/-- Writing leaves the state of the processor. -/
theorem Writes.state (writes : Writes conf ctx after) : after.state = ctx.state := by
  rw [writes.others]

/-- A text of the computed size is written or nothing is. -/
theorem writes_emit {size : Nat} {text : Bytes}
    (written : ctx.emit conf size false text = some after) : Writes conf ctx after := by
  unfold Ctx.emit at written
  split at written
  · cases written
  · cases written
    exact writes_submit text

/-- A field is written with what comes before and behind it. -/
theorem writes_field {data : Bytes} {isNull : Bool}
    (written : ctx.outputField conf data isNull = some after) : Writes conf ctx after := by
  unfold Ctx.outputField at written
  split at written
  · cases written
  · split at written
    · cases written
    · split at written
      · cases written
      · exact writes_emit written

/-- So is what comes of a field later. -/
theorem writes_more {data : Bytes} (written : ctx.outputMoreFieldData conf data = some after) :
    Writes conf ctx after := by
  unfold Ctx.outputMoreFieldData at written
  split at written
  · cases written
  · split at written
    · cases written
    · exact writes_emit written

/-- And what stands before the first row. -/
theorem writes_openRows (opened : ctx.openRows conf = some after) : Writes conf ctx after := by
  obtain ⟨now, props, rfl⟩ := Option.map_eq_some_iff.mp opened
  have first : Writes conf ctx now := by
    split at props
    · exact writes_emit props
    · cases props
      exact .refl
  cases conf.format with
  | normal => exact first.trans (writes_submit _)
  | compact => exact (first.trans (writes_submit _)).trans (writes_submit _)

/-- Writing keeps the filter safe. -/
theorem Ctx.Safe.writes (safe : ctx.Safe conf) (writes : Writes conf ctx after) :
    after.Safe conf := by
  rw [writes.others]
  exact ⟨safe.fits, safe.placed, fun goesOn => writes.even (safe.even goesOn),
    writes.bounded safe.bounded⟩

/-! ## A turn -/

/-- The header sets the number of columns before any of them is stored. -/
theorem safe_processHeader (safe : ctx.Safe conf) (state : ctx.state = .expectHeader) :
    (processHeader conf ctx chain).Safe conf := by
  have even := safe.even (by rw [state]; nofun)
  unfold processHeader
  split
  · exact safe
  · trivial
  · split
    · trivial
    · split
      · split
        · trivial
        · simp only [outputHeader_eq]
          exact ⟨safe.fits, trivial, fun goesOn => absurd rfl goesOn,
            (safe.bounded.submit true _).endStream⟩
      · rename_i header _ _ some
        have present : 0 < header.colCount.toNat :=
          Nat.pos_of_ne_zero fun none => some (UInt16.toNat_inj.mp none)
        exact ⟨Nat.zero_le _, ⟨rfl, present⟩, fun _ => even, safe.bounded⟩

/-- Each column is stored behind the others, and the last one ends this state. -/
theorem safe_processCol (safe : ctx.Safe conf) (state : ctx.state = .expectCol) :
    (processCol conf ctx chain).Safe conf := by
  have even := safe.even (by rw [state]; nofun)
  obtain ⟨here, below⟩ : ctx.cols.length = ctx.curCol ∧ ctx.curCol < ctx.colCount := by
    have placed := safe.placed
    rwa [Ctx.Placed, state] at placed
  unfold processCol
  split
  · exact safe
  · trivial
  · split
    · trivial
    · rename_i col left _
      have length : (ctx.cols ++ [col]).length = ctx.curCol + 1 := by
        rw [List.length_append, here, List.length_singleton]
      split
      · rename_i more
        refine ⟨?_, ?_, fun _ => even, safe.bounded⟩
        · rw [length]
          exact below
        · rw [Ctx.Placed, state]
          exact ⟨length, more⟩
      · rename_i last
        have all : (ctx.cols ++ [col]).length = ctx.colCount := by omega
        split
        · trivial
        · rename_i opened
          refine Ctx.Safe.writes ?_ (writes_openRows opened)
          exact ⟨Nat.le_of_eq all, ⟨all, Nat.zero_lt_of_lt below⟩, fun _ => even, safe.bounded⟩

/-- A row begins at its first column, which has been read. -/
theorem safe_processRow (safe : ctx.Safe conf) (state : ctx.state = .expectRow) :
    (processRow conf ctx chain).Safe conf := by
  have even := safe.even (by rw [state]; nofun)
  have placed : ctx.cols.length = ctx.colCount ∧ 0 < ctx.colCount := by
    have placed := safe.placed
    rwa [Ctx.Placed, state] at placed
  unfold processRow
  split
  · exact safe
  · trivial
  · trivial
  · split
    · split
      · trivial
      · exact ⟨safe.fits, trivial, fun goesOn => absurd rfl goesOn,
          (safe.bounded.submit true _).endStream⟩
    · exact ⟨safe.fits, placed, fun _ => even, safe.bounded⟩

/-- The functions that read a field are called in these states. -/
def JsonState.AtField (state : JsonState) : Prop :=
  state = .expectField ∨ state = .expectMoreFieldData

/-- Where a field is processed all columns have been read, and its own is one of them. -/
theorem Ctx.Safe.column (safe : ctx.Safe conf) (field : ctx.state.AtField) :
    ctx.cols.length = ctx.colCount ∧ ctx.curCol < ctx.colCount := by
  have placed := safe.placed
  rcases field with state | state <;> rwa [Ctx.Placed, state] at placed

/-- No buffer that is not full has been passed on while fields are processed. -/
theorem Ctx.Safe.fieldEven (safe : ctx.Safe conf) (field : ctx.state.AtField) :
    Even conf.bufSize ctx.bufs := by
  refine safe.even fun ended => ?_
  rw [ended] at field
  rcases field with same | same <;> cases same

/-- Waiting for the rest of a field changes neither column. -/
theorem Ctx.Safe.waitFor (safe : ctx.Safe conf) (rest : Nat) : (ctx.waitFor rest).Safe conf :=
  ⟨safe.fits, safe.placed, safe.even, safe.bounded⟩

/-- The next field belongs to the next column, or the row has ended. -/
theorem safe_nextField (safe : ctx.Safe conf) (field : ctx.state.AtField) :
    ctx.nextField.Safe conf := by
  obtain ⟨all, below⟩ := safe.column field
  refine ⟨safe.fits, ?_, fun _ => safe.fieldEven field, safe.bounded⟩
  by_cases more : ctx.curCol + 1 < ctx.colCount
  · simp only [Ctx.Placed, Ctx.nextField, if_pos more]
    exact ⟨all, more⟩
  · simp only [Ctx.Placed, Ctx.nextField, if_neg more]
    exact ⟨all, Nat.zero_lt_of_lt below⟩

/-- A field is written whole, or as far as it has come. -/
theorem safe_processFieldData (safe : ctx.Safe conf) (field : ctx.state.AtField) (total : Nat)
    (data : Bytes) (next : List Link) :
    (processFieldData conf ctx total data next).Safe conf := by
  have later : ∀ rest isNull text now,
      (ctx.waitFor rest).outputField conf text isNull = some now →
        now.Safe conf ∧ now.state.AtField := by
    intro rest isNull text now written
    have writes := writes_field written
    exact ⟨(safe.waitFor rest).writes writes, writes.state ▸ field⟩
  unfold processFieldData
  split
  · split
    · trivial
    · rename_i written
      obtain ⟨safe, field⟩ := later _ _ _ _ written
      exact safe_nextField safe field
  · split
    · trivial
    · rename_i written
      obtain ⟨safe, field⟩ := later _ _ _ _ written
      split
      · exact ⟨safe.fits, safe.column field, fun _ => safe.fieldEven field, safe.bounded⟩
      · exact safe_nextField safe field

/-- More of a field stays in its column. -/
theorem safe_processMoreData (safe : ctx.Safe conf) (field : ctx.state.AtField) (data : Bytes)
    (next : List Link) : (processMoreData conf ctx data next).Safe conf := by
  unfold processMoreData
  split
  · trivial
  · rename_i now written
    have writes := writes_more written
    have later : now.Safe conf := (safe.waitFor _).writes writes
    split
    · exact later
    · exact safe_nextField later (writes.state ▸ field)

/-- One turn, whatever is in front of it. -/
theorem safe_turn (safe : ctx.Safe conf) (chain : List Link) :
    (turn conf ctx chain).Safe conf := by
  unfold turn
  split
  · rename_i state
    exact safe_processHeader safe state
  · rename_i state
    exact safe_processCol safe state
  · rename_i state
    exact safe_processRow safe state
  · rename_i state
    unfold processField
    split
    · exact safe
    · trivial
    · split
      · trivial
      · exact safe_processFieldData safe (.inl state) _ _ _
  · rename_i state
    unfold processMoreFieldData
    split
    · exact safe
    · trivial
    · exact safe_processMoreData safe (.inr state) _ _
  · exact safe

/-! ## Whole streams -/

/-- The contexts in which a function is called for a chain. -/
inductive Calls (conf : JsonConf) : Ctx → List Link → Ctx → Prop where
  | first (ctx : Ctx) (chain : List Link) : Calls conf ctx chain ctx
  | later {ctx next now : Ctx} {chain rest : List Link}
      (called : turn conf ctx chain = .call next rest) (calls : Calls conf next rest now) :
      Calls conf ctx chain now

/-- Every call of a function of the filter finds it safe. -/
theorem Calls.safe {now : Ctx} (calls : Calls conf ctx chain now) (safe : ctx.Safe conf) :
    now.Safe conf := by
  induction calls with
  | first ctx chain => exact safe
  | @later ctx next now chain rest called calls ih =>
      have turned := safe_turn safe chain
      rw [called] at turned
      exact ih turned

/-- A whole round of the filter keeps it safe. -/
theorem safe_process (safe : ctx.Safe conf) (processed : process conf ctx chain = .ok after) :
    after.Safe conf := by
  fun_induction process conf ctx chain with
  | case1 ctx chain now turned =>
      cases processed
      have there := safe_turn safe chain
      rwa [turned] at there
  | case2 ctx chain headerSent turned => cases processed
  | case3 ctx chain now rest turned ih =>
      have there := safe_turn safe chain
      rw [turned] at there
      exact ih there processed

/-- A chain: the context stays safe, and what is passed on is within the buffers. -/
theorem safe_bodyFilter (safe : ctx.Safe conf) {out : List OutBuf}
    (filtered : bodyFilter conf ctx chain = .ok (after, out)) :
    after.Safe conf ∧ (∀ buf ∈ out, buf.data.length ≤ conf.bufSize.size) ∧
      (after.state ≠ .done → ∀ buf ∈ out, IsFull conf.bufSize buf) := by
  unfold bodyFilter at filtered
  split at filtered
  · cases filtered
    exact ⟨safe, nofun, nofun⟩
  · split at filtered
    · rename_i now processed
      cases filtered
      have there := safe_process safe processed
      refine ⟨⟨there.fits, there.placed, fun goesOn => ?_, nofun, there.bounded.close.room⟩,
        there.bounded.close.chain, fun goesOn => ?_⟩
      · have even := there.even goesOn
        rw [even.close]
        exact ⟨even.goesOn, nofun, even.room⟩
      · have even := there.even goesOn
        rw [even.close]
        exact even.chain
    · cases filtered

/-- The filter over the chains of a response. -/
def filtering (conf : JsonConf) : System Ctx (List Link) where
  step ctx chain :=
    match bodyFilter conf ctx chain with
    | .ok (after, _) => some after
    | .error _ => none

/-- The filter begins before the header. -/
theorem safe_initial : Ctx.Safe conf {} :=
  ⟨Nat.le_refl 0, trivial, fun _ => even_initial conf.bufSize, bounded_initial⟩

/-- Whatever chain it is given, the filter stays safe. -/
theorem safe_step : (filtering conf).Keeps (fun _ => True) (Ctx.Safe conf) := by
  intro ctx chain next _ safe stepped
  unfold filtering at stepped
  simp only at stepped
  split at stepped
  · rename_i filtered
    cases stepped
    exact (safe_bodyFilter safe filtered).1
  · cases stepped

/-- **Any stream.** However a stream is made and cut, whenever a function of the filter is
called, the columns are within the memory that was asked for, the next one is stored behind
the others, and the column of a field has been read. Every buffer that is passed on is within
its size, and it is full and unmarked until the end is written. -/
theorem filter_in_bounds (conf : JsonConf) (chains : List (List Link)) (ctx : Ctx)
    (ran : (filtering conf).run {} chains = some ctx) (chain : List Link) :
    (∀ now, Calls conf ctx chain now →
      now.cols.length ≤ now.colCount ∧
      (now.state = .expectCol → now.cols.length = now.curCol ∧ now.curCol < now.colCount) ∧
      (now.state.AtField → now.curCol < now.cols.length)) ∧
    ∀ after out, bodyFilter conf ctx chain = .ok (after, out) →
      (∀ buf ∈ out, buf.data.length ≤ conf.bufSize.size) ∧
      (after.state ≠ .done → ∀ buf ∈ out, IsFull conf.bufSize buf) := by
  have safe : ctx.Safe conf := safe_step.run (fun _ _ => trivial) safe_initial ran
  refine ⟨fun now calls => ?_, fun after out filtered => (safe_bodyFilter safe filtered).2⟩
  have there := calls.safe safe
  refine ⟨there.fits, fun state => ?_, fun field => ?_⟩
  · have placed := there.placed
    rwa [Ctx.Placed, state] at placed
  · obtain ⟨all, below⟩ := there.column field
    rwa [all]

/-- A header that announces two columns, and a chain of one column and a buffer of a byte. -/
theorem filter_in_bounds_sample :
    let conf : JsonConf := { bufSize := ⟨4096, by decide⟩ }
    let ctx : Ctx := { state := .expectCol, colCount := 2, headerSent := true }
    (filtering conf).run {} [[.memory (outputResultHeader { columnCount := 2 })]] = some ctx ∧
      Calls conf ctx [.memory [3, 0, 8, 0, 1, 0, 97], .memory [0]]
        { ctx with cols := [{ stdType := 3, drvType := 8, name := [97] }], curCol := 1 } ∧
      [({ stdType := 3, drvType := 8, name := [97] } : RdsColumn)].length ≤ 2 := by
  intro conf ctx
  have called : turn conf {} [.memory (outputResultHeader { columnCount := 2 })] =
      .call ctx [] := rfl
  have processed : process conf {} [.memory (outputResultHeader { columnCount := 2 })] =
      .ok ctx := (process_call called).trans (process_ok rfl)
  have ran : (filtering conf).run {} [[.memory (outputResultHeader { columnCount := 2 })]] =
      some ctx := by
    refine (filtering conf).run_cons_eq_some.mpr ⟨ctx, ?_, rfl⟩
    simp only [filtering, bodyFilter, processed]
    rfl
  have calls : Calls conf ctx [.memory [3, 0, 8, 0, 1, 0, 97], .memory [0]]
      { ctx with cols := [{ stdType := 3, drvType := 8, name := [97] }], curCol := 1 } :=
    .later rfl (.first _ _)
  exact ⟨ran, calls, ((filter_in_bounds conf _ ctx ran _).1 _ calls).1⟩

end HttpBackEnd.Rds
