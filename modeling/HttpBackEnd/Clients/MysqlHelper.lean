import HttpBackEnd.Library.Ledger
import HttpBackEnd.Library.Transition
import HttpBackEnd.Clients.Conversions
import Mathlib.Data.List.Nodup

/-! # The MySQL helper functions

`mysql_helper.cpp` over the C client library: one static `connection`, the functions that
set and clear it, and `exec_sql`. The handles `mysql_init` has given out are kept in a
ledger, and the library calls are recorded with what they receive, up to the one in which
the process ends.

Three slips decide both results. `exec_sql` counts rows against the number of columns, and
prints column 1 of each without looking whether there is anything in it.
`connect_mysql_server` assigns the result of `mysql_real_connect` to the only variable that
holds the handle.
-/

namespace HttpBackEnd.Clients

/-! ## The functions -/

/-- A row of a result; an entry may be SQL's `NULL`, which is a null pointer. -/
abbrev Row := List (Option Bytes)

/-- The rows of a result set have as many entries as it has columns. -/
structure ResultSet where
  columns : Nat
  rows : List Row
  shape : ∀ row ∈ rows, row.length = columns

/-- What a statement comes to: `mysql_query` fails, there is no result set, there is one,
or there should be one and `mysql_use_result` fails. -/
inductive Statement where
  | failed
  | noResult
  | result (set : ResultSet)
  | lost (columns : Nat)

/-- `mysql_use_result`. -/
def Statement.useResult : Statement → Option (List Row)
  | .result set => some set.rows
  | _ => none

/-- `mysql_field_count`. -/
def Statement.fieldCount : Statement → Nat
  | .result set => set.columns
  | .lost columns => columns
  | _ => 0

/-- The library calls on a connection, with the `MYSQL` handle they receive, and those on
a result, with whether they receive one. `mysql_init` is asked for a new handle. -/
inductive LibraryCall where
  | realConnect (handle : Option Nat)
  | errno (handle : Option Nat)
  | close (handle : Option Nat)
  | query (handle : Option Nat)
  | useResult (handle : Option Nat)
  | fieldCount (handle : Option Nat)
  | fetchRow (result : Bool)
  | freeResult (result : Bool)
deriving DecidableEq, Repr

/-- The `MYSQL` handle a call receives, if it takes one. -/
def LibraryCall.handle : LibraryCall → Option (Option Nat)
  | .realConnect handle => some handle
  | .errno handle => some handle
  | .close handle => some handle
  | .query handle => some handle
  | .useResult handle => some handle
  | .fieldCount handle => some handle
  | .fetchRow _ => none
  | .freeResult _ => none

/-- The static `connection`, the handles of the library, the calls made, and whether the
process has ended in one of the functions. -/
structure Helper where
  connection : Option Nat := none
  handles : Ledger := {}
  calls : List LibraryCall := []
  ended : Bool := false
deriving DecidableEq, Repr

/-- The column `exec_sql` prints of a row. -/
def printedColumn : Nat := 1

/-- The pointer that `exec_sql` hands to `printf` is null. -/
def NullPrinted (row : Row) : Prop := row[printedColumn]? = some none

instance (row : Row) : Decidable (NullPrinted row) := inferInstanceAs (Decidable (_ = _))

/-- What the loop of `exec_sql` comes to: its calls, the rows it has printed, and its
count, unless the process has ended in it. -/
structure Fetched where
  calls : List LibraryCall
  printed : List Row
  count : Option Nat
deriving DecidableEq, Repr

/-- The loop of `exec_sql` over the rows of a result, from count `i` on. A null pointer
cannot be printed; what is behind the last entry of a row is printed as it is. -/
def fetchRows (handle fieldCount i : Nat) : List Row → Fetched
  | [] =>
      if i < fieldCount then ⟨[.fieldCount (some handle), .fetchRow true], [], some i⟩
      else ⟨[.fieldCount (some handle)], [], some i⟩
  | row :: rows =>
      if i < fieldCount then
        if NullPrinted row then ⟨[.fieldCount (some handle), .fetchRow true], [], none⟩
        else
          let later := fetchRows handle fieldCount (i + 1) rows
          ⟨.fieldCount (some handle) :: .fetchRow true :: later.calls, row :: later.printed,
            later.count⟩
      else ⟨[.fieldCount (some handle)], [], some i⟩

/-- The loop of `exec_sql`. No row can be fetched from a null result. -/
def Statement.fetched (handle : Nat) (statement : Statement) : Fetched :=
  match statement.useResult with
  | none =>
      if 0 < statement.fieldCount then
        ⟨[.fieldCount (some handle), .fetchRow false], [], none⟩
      else ⟨[.fieldCount (some handle)], [], some 0⟩
  | some rows => fetchRows handle statement.fieldCount 0 rows

/-- What a call of `exec_sql` comes to: what it returns, unless the process has ended, the
rows it has printed, and the state it leaves. -/
structure Executed where
  returned : Option Int
  printed : List Row
  helper : Helper

namespace Helper

/-- `connect_mysql_server`; `initialised` and `connected` are what `mysql_init` and
`mysql_real_connect` do. Neither the port nor the database is looked at. -/
def connectMysqlServer (host userName pwd : Option CString) (initialised connected : Bool)
    (helper : Helper) : Int × Helper :=
  if host.isNone || userName.isNone || pwd.isNone then (-1, helper)
  else if helper.connection.isSome then (-2, helper)
  else if initialised then
    let handle := helper.handles.issued
    let calls := helper.calls ++ [.realConnect (some handle)]
    if connected then
      (0, { helper with connection := some handle, handles := helper.handles.issue, calls })
    else
      -- the error number is asked of `connection`, which is null by now
      (-4, { helper with
        connection := none, handles := helper.handles.issue, calls := calls ++ [.errno none] })
  else (-3, { helper with connection := none })

/-- `disconnect_mysql_server`. -/
def disconnectMysqlServer (helper : Helper) : Int × Helper :=
  match helper.connection with
  | none => (-1, helper)
  | some handle =>
      (0, { helper with
        connection := none, handles := helper.handles.release handle
        calls := helper.calls ++ [.close (some handle)] })

/-- `exec_sql`. The result is freed after the loop, whether there is one or not. -/
def execSql (statement : Statement) (helper : Helper) : Executed :=
  match helper.connection with
  | none => ⟨some (-1), [], helper⟩
  | some handle =>
      match statement with
      | .failed =>
          ⟨some (-2), [], { helper with calls := helper.calls ++ [.query (some handle)] }⟩
      | statement =>
          let fetched := statement.fetched handle
          let calls := helper.calls ++ [.query (some handle), .useResult (some handle)] ++
            fetched.calls
          match fetched.count with
          | none => ⟨none, fetched.printed, { helper with calls, ended := true }⟩
          | some count =>
              ⟨some count, fetched.printed, { helper with
                calls := calls ++ [.freeResult statement.useResult.isSome] }⟩

end Helper

/-! ## Rows and columns -/

/-- A statement that succeeds, by the result set it yields. -/
def Statement.yields : Option ResultSet → Statement
  | none => .noResult
  | some set => .result set

/-- The rows a statement yields. -/
def rowsOf (set : Option ResultSet) : List Row := set.elim [] ResultSet.rows

/-- The columns of what a statement yields. -/
def columnsOf (set : Option ResultSet) : Nat := set.elim 0 ResultSet.columns

/-- `exec_sql` visits the whole result: it returns the number of rows, has printed each
once and in order, and has indexed them only at columns they have. -/
def VisitsAll (set : Option ResultSet) (executed : Executed) : Prop :=
  executed.returned = some ((rowsOf set).length : Int) ∧ executed.printed = rowsOf set ∧
    ∀ row ∈ executed.printed, printedColumn < columnsOf set

variable {helper : Helper} {handle : Nat}

/-- Without null pointers the loop stops at the number of columns, or when the rows end. -/
theorem fetchRows_eq {fieldCount i : Nat} (bound : i ≤ fieldCount) {rows : List Row}
    (printable : ∀ row ∈ rows.take (fieldCount - i), ¬ NullPrinted row) :
    (fetchRows handle fieldCount i rows).printed = rows.take (fieldCount - i) ∧
      (fetchRows handle fieldCount i rows).count = some (min fieldCount (i + rows.length)) := by
  induction rows generalizing i with
  | nil =>
      unfold fetchRows
      split <;> simp [Nat.min_eq_right bound]
  | cons row rows ih =>
      unfold fetchRows
      by_cases more : i < fieldCount
      · have left : fieldCount - i = fieldCount - (i + 1) + 1 := by omega
        rw [left, List.take_succ_cons] at printable
        obtain ⟨here, later⟩ := List.forall_mem_cons.mp printable
        obtain ⟨printed, counted⟩ := ih more later
        rw [if_pos more, if_neg here]
        refine ⟨?_, ?_⟩
        · simp only [printed, left, List.take_succ_cons]
        · simp only [counted, List.length_cons]
          rw [show i + 1 + rows.length = i + (rows.length + 1) by omega]
      · have full : fieldCount - i = 0 := by omega
        have least : min fieldCount (i + (rows.length + 1)) = i := by omega
        simp only [if_neg more, full, List.take_zero, List.length_cons, least, and_self]

/-- A null pointer among the rows that are fetched ends the process. -/
theorem fetchRows_null {fieldCount i : Nat} {rows : List Row} {row : Row}
    (member : row ∈ rows.take (fieldCount - i)) (null : NullPrinted row) :
    (fetchRows handle fieldCount i rows).count = none := by
  induction rows generalizing i with
  | nil => simp at member
  | cons first rows ih =>
      have more : i < fieldCount := by
        by_contra full
        rw [show fieldCount - i = 0 by omega] at member
        simp at member
      have left : fieldCount - i = fieldCount - (i + 1) + 1 := by omega
      rw [left, List.take_succ_cons] at member
      unfold fetchRows
      rw [if_pos more]
      by_cases here : NullPrinted first
      · rw [if_pos here]
      · rw [if_neg here]
        rcases List.mem_cons.mp member with rfl | later
        · exact absurd null here
        · exact ih later

/-- What `exec_sql` does with a statement that `mysql_query` accepts. -/
theorem execSql_accepted (connected : helper.connection = some handle) {statement : Statement}
    (accepted : statement ≠ .failed) :
    helper.execSql statement =
      let fetched := statement.fetched handle
      let calls := helper.calls ++ [.query (some handle), .useResult (some handle)] ++
        fetched.calls
      match fetched.count with
      | none => ⟨none, fetched.printed, { helper with calls, ended := true }⟩
      | some count => ⟨some count, fetched.printed, { helper with
          calls := calls ++ [.freeResult statement.useResult.isSome] }⟩ := by
  unfold Helper.execSql
  rw [connected]
  cases statement with
  | failed => exact absurd rfl accepted
  | noResult => rfl
  | result set => rfl
  | lost columns => rfl

/-- What `exec_sql` does with a statement that succeeds. -/
theorem execSql_yields (connected : helper.connection = some handle) (set : Option ResultSet) :
    (helper.execSql (.yields set)).printed =
        (fetchRows handle (columnsOf set) 0 (rowsOf set)).printed ∧
      (helper.execSql (.yields set)).returned =
        (fetchRows handle (columnsOf set) 0 (rowsOf set)).count.map Nat.cast := by
  have same : (Statement.yields set).fetched handle =
      fetchRows handle (columnsOf set) 0 (rowsOf set) := by
    cases set <;> rfl
  have accepted : Statement.yields set ≠ .failed := by
    cases set <;> nofun
  rw [execSql_accepted connected accepted, same]
  cases counted : (fetchRows handle (columnsOf set) 0 (rowsOf set)).count with
  | none => simp only [counted, Option.map_none, and_self]
  | some count => simp only [counted, Option.map_some, and_self]

/-- **When `exec_sql` visits the whole result.** For every statement that succeeds and
every result set: exactly when there are no more rows than columns, two columns where
there are rows, and no `NULL` in the second one. -/
theorem exec_sql_visits_all_iff (connected : helper.connection = some handle)
    (set : Option ResultSet) :
    VisitsAll set (helper.execSql (.yields set)) ↔
      (rowsOf set).length ≤ columnsOf set ∧ (rowsOf set = [] ∨ 2 ≤ columnsOf set) ∧
        ∀ row ∈ rowsOf set, ¬ NullPrinted row := by
  obtain ⟨printed, returned⟩ := execSql_yields connected set
  unfold VisitsAll
  rw [printed, returned]
  constructor
  · rintro ⟨counted, whole, indexed⟩
    -- the loop has come to its end, so that it has met no null pointer
    have printable : ∀ row ∈ (rowsOf set).take (columnsOf set - 0), ¬ NullPrinted row := by
      intro row member null
      rw [fetchRows_null member null] at counted
      cases counted
    obtain ⟨taken, count⟩ := fetchRows_eq (Nat.zero_le _) printable
    rw [count, Option.map_some, Option.some.injEq, Int.natCast_inj] at counted
    have enough : (rowsOf set).length ≤ columnsOf set := by omega
    refine ⟨enough, ?_, ?_⟩
    · cases rows : rowsOf set with
      | nil => exact .inl rfl
      | cons row rest =>
          rw [whole, rows] at indexed
          exact .inr (indexed row List.mem_cons_self)
    · rwa [Nat.sub_zero, List.take_of_length_le enough] at printable
  · rintro ⟨enough, columns, printable⟩
    have all : (rowsOf set).take (columnsOf set - 0) = rowsOf set :=
      List.take_of_length_le enough
    obtain ⟨taken, count⟩ := fetchRows_eq (Nat.zero_le (columnsOf set)) (all.symm ▸ printable)
    rw [taken, count, all]
    refine ⟨?_, rfl, ?_⟩
    · rw [Nat.zero_add, Nat.min_eq_right enough]
      rfl
    · intro row member
      rcases columns with none_ | two
      · rw [none_] at member
        cases member
      · exact two

/-- Two rows of two columns. -/
def twoRows : ResultSet where
  columns := 2
  rows := [[some (ascii "1"), some (ascii "a")], [none, some (ascii "b")]]
  shape := by decide

theorem exec_sql_visits_two_rows :
    VisitsAll (some twoRows)
      (({ connection := some 0 } : Helper).execSql (.yields (some twoRows))) := by
  refine (exec_sql_visits_all_iff rfl (some twoRows)).mpr ⟨?_, .inr ?_, ?_⟩
  · exact Nat.le_refl 2
  · exact Nat.le_refl 2
  · decide

/-- Three rows of one column. -/
def threeRows : ResultSet where
  columns := 1
  rows := [[some (ascii "a")], [some (ascii "b")], [some (ascii "c")]]
  shape := by decide

/-- One row is fetched, and a column is printed that it does not have. -/
theorem exec_sql_misses_rows :
    ¬ ∀ (helper : Helper) (handle : Nat) (set : Option ResultSet),
      helper.connection = some handle → VisitsAll set (helper.execSql (.yields set)) := by
  intro visits
  have counted := (visits { connection := some 0 } 0 (some threeRows) rfl).1
  exact absurd counted (by decide)

/-! ## The static handle -/

/-- A call of the helper functions, with what the library does in it. -/
inductive HelperCall where
  | connect (host userName pwd : Option CString) (initialised connected : Bool)
  | exec (statement : Statement)
  | disconnect

/-- One call, while the process lives. -/
def helperStep (helper : Helper) (call : HelperCall) : Option Helper :=
  if helper.ended then none
  else
    match call with
    | .connect host userName pwd initialised connected =>
        some (helper.connectMysqlServer host userName pwd initialised connected).2
    | .exec statement => some (helper.execSql statement).helper
    | .disconnect => some helper.disconnectMysqlServer.2

/-- The helper functions as a system. -/
def mysqlHelper : Transition.System Helper HelperCall := ⟨helperStep⟩

/-- Every handle obtained is the current `connection` or has been closed, once, and no
call into the library has received a null handle. -/
structure HandleSafe (helper : Helper) : Prop where
  accounted : ∀ handle, handle < helper.handles.issued →
    (helper.connection = some handle ∧ handle ∉ helper.handles.released) ∨
      (helper.connection ≠ some handle ∧ helper.handles.released.count handle = 1)
  nonNull : ∀ call ∈ helper.calls, call.handle ≠ some none

/-- What the helper functions promise of one call: it leaves the handles safe; a connect
that returns non-zero leaves `connection` as it was, and unless that is set, a connect
after it can succeed. -/
def KeepsHandles (helper : Helper) (call : HelperCall) : Prop :=
  ∀ next, mysqlHelper.step helper call = some next → HandleSafe next ∧
    match call with
    | .connect host userName pwd initialised connected =>
        (helper.connectMysqlServer host userName pwd initialised connected).1 ≠ 0 →
          next.connection = helper.connection ∧
            (next.connection = none → ∀ host userName pwd : CString,
              (next.connectMysqlServer (some host) (some userName) (some pwd) true true).1 = 0)
    | _ => True

/-- The library does not fail between `mysql_init` and the end of `mysql_real_connect`. -/
def NotLost (helper : Helper) : HelperCall → Prop
  | .connect host userName pwd initialised connected =>
      host.isSome → userName.isSome → pwd.isSome → helper.connection = none →
        initialised = true → connected = true
  | _ => True

/-- The invariant of these calls; the process can only end in `exec_sql`, over a
connection. -/
structure HandleOwned (helper : Helper) : Prop where
  handles : helper.handles.Owns helper.connection.toList
  nonNull : ∀ call ∈ helper.calls, call.handle ≠ some none
  connected : helper.ended = true → helper.connection ≠ none

theorem HandleOwned.safe (owned : HandleOwned helper) : HandleSafe helper := by
  refine ⟨fun handle issued => ?_, owned.nonNull⟩
  by_cases current : helper.connection = some handle
  · refine .inl ⟨current, (owned.handles.live ?_).2⟩
    rw [current]
    exact List.mem_singleton_self handle
  · refine .inr ⟨current, ?_⟩
    have member := owned.handles.symm.subset (List.mem_range.mpr issued)
    rcases List.mem_append.mp member with held | released
    · rw [Option.mem_toList] at held
      exact absurd held current
    · exact List.count_eq_one_of_mem owned.handles.noDoubleRelease released

theorem handleOwned_initial : HandleOwned {} := by
  refine ⟨Ledger.owns_empty, fun call member => ?_, nofun⟩
  cases member

/-- Calls that pass the handle keep what is known of the calls. -/
theorem nonNull_append {calls more : List LibraryCall}
    (before : ∀ call ∈ calls, call.handle ≠ some none)
    (added : ∀ call ∈ more, call.handle ≠ some none) :
    ∀ call ∈ calls ++ more, call.handle ≠ some none := by
  intro call member
  rcases List.mem_append.mp member with old | new
  · exact before call old
  · exact added call new

/-- A connect with all its arguments, where no handle is held. -/
theorem connectMysqlServer_free (free : helper.connection = none)
    {host userName pwd : Option CString} (hosted : host.isSome) (named : userName.isSome)
    (secret : pwd.isSome) (initialised connected : Bool) :
    helper.connectMysqlServer host userName pwd initialised connected =
      if initialised then
        if connected then
          (0, { helper with
            connection := some helper.handles.issued, handles := helper.handles.issue
            calls := helper.calls ++ [.realConnect (some helper.handles.issued)] })
        else (-4, { helper with
          connection := none, handles := helper.handles.issue
          calls := helper.calls ++ [.realConnect (some helper.handles.issued)] ++
            [.errno none] })
      else (-3, { helper with connection := none }) := by
  have present : (host.isNone || userName.isNone || pwd.isNone) = false := by
    rw [Option.isNone_eq_false_iff.mpr hosted, Option.isNone_eq_false_iff.mpr named,
      Option.isNone_eq_false_iff.mpr secret]
    rfl
  unfold Helper.connectMysqlServer
  simp only [present, free, Option.isSome_none, Bool.false_eq_true, if_false]

/-- A connect that is not let through changes nothing. -/
theorem connectMysqlServer_refused {host userName pwd : Option CString}
    (refused : ¬ (host.isSome ∧ userName.isSome ∧ pwd.isSome ∧ helper.connection = none))
    (initialised connected : Bool) :
    (helper.connectMysqlServer host userName pwd initialised connected).2 = helper := by
  unfold Helper.connectMysqlServer
  split
  · rfl
  · rename_i present
    simp only [Bool.or_eq_true, Option.isNone_iff_eq_none, not_or] at present
    split
    · rfl
    · rename_i idle
      refine absurd ⟨?_, ?_, ?_, by simpa using idle⟩ refused
      · exact Option.isSome_iff_ne_none.mpr present.1.1
      · exact Option.isSome_iff_ne_none.mpr present.1.2
      · exact Option.isSome_iff_ne_none.mpr present.2

theorem connect_succeeds (free : helper.connection = none) (host userName pwd : CString) :
    (helper.connectMysqlServer (some host) (some userName) (some pwd) true true).1 = 0 := by
  rw [connectMysqlServer_free free rfl rfl rfl]
  rfl

/-- The loop passes its handle. -/
theorem fetchRows_calls (handle fieldCount i : Nat) (rows : List Row) :
    ∀ call ∈ (fetchRows handle fieldCount i rows).calls, call.handle ≠ some none := by
  induction rows generalizing i with
  | nil =>
      unfold fetchRows
      split <;> simp [LibraryCall.handle]
  | cons row rows ih =>
      unfold fetchRows
      split
      · split
        · simp [LibraryCall.handle]
        · simpa [LibraryCall.handle] using ih (i + 1)
      · simp [LibraryCall.handle]

theorem fetched_calls (handle : Nat) (statement : Statement) :
    ∀ call ∈ (statement.fetched handle).calls, call.handle ≠ some none := by
  unfold Statement.fetched
  split
  · split <;> simp [LibraryCall.handle]
  · exact fetchRows_calls handle _ 0 _

/-- `exec_sql` adds calls that pass the handle, whether it returns or not. -/
theorem execSql_calls (helper : Helper) (statement : Statement) :
    ∃ more ended, (helper.execSql statement).helper =
        { helper with calls := helper.calls ++ more, ended } ∧
      (∀ call ∈ more, call.handle ≠ some none) ∧
      (ended = true → helper.ended = true ∨ helper.connection ≠ none) := by
  cases connected : helper.connection with
  | none =>
      refine ⟨[], helper.ended, ?_, nofun, .inl⟩
      simp only [Helper.execSql, connected, List.append_nil]
      rw [← connected]
  | some handle =>
      by_cases refused : statement = .failed
      · refine ⟨[.query (some handle)], helper.ended, ?_, ?_, .inl⟩
        · simp only [refused, Helper.execSql, connected]
        · simp [LibraryCall.handle]
      · have passed : ∀ last : List LibraryCall, (∀ call ∈ last, call.handle ≠ some none) →
            ∀ call ∈ [.query (some handle), .useResult (some handle)] ++
              (statement.fetched handle).calls ++ last, call.handle ≠ some none := by
          intro last freed
          refine nonNull_append (nonNull_append ?_ (fetched_calls handle statement)) freed
          simp [LibraryCall.handle]
        rw [execSql_accepted connected refused]
        cases counted : (statement.fetched handle).count with
        | none =>
            refine ⟨_, true, ?_, passed [] nofun, fun _ => .inr (Option.some_ne_none handle)⟩
            simp only [counted, connected, List.append_assoc, List.append_nil]
        | some count =>
            refine ⟨_, helper.ended, ?_,
              passed [.freeResult statement.useResult.isSome] ?_, .inl⟩
            · simp only [counted, connected, List.append_assoc]
            · simp [LibraryCall.handle]

/-- Where the library does not fail in a connect, a call keeps the invariant. -/
theorem notLost_step (owned : HandleOwned helper) {call : HelperCall} (safe : NotLost helper call)
    {next : Helper} (stepped : mysqlHelper.step helper call = some next) : HandleOwned next := by
  obtain ⟨handles, nonNull, live⟩ := owned
  change helperStep helper call = some next at stepped
  unfold helperStep at stepped
  split at stepped
  · cases stepped
  · rename_i alive
    cases call with
    | connect host userName pwd initialised connected =>
        rw [← Option.some.inj stepped]
        by_cases accepted :
            host.isSome ∧ userName.isSome ∧ pwd.isSome ∧ helper.connection = none
        · obtain ⟨hosted, named, secret, free⟩ := accepted
          rw [connectMysqlServer_free free hosted named secret]
          rw [free] at handles
          cases initialised with
          | false => exact ⟨handles, nonNull, fun ended => absurd ended alive⟩
          | true =>
              rw [safe hosted named secret free rfl]
              refine ⟨handles.issue, nonNull_append nonNull ?_, fun _ => Option.some_ne_none _⟩
              simp [LibraryCall.handle]
        · rw [connectMysqlServer_refused accepted]
          exact ⟨handles, nonNull, live⟩
    | exec statement =>
        obtain ⟨more, ended, executed, passed, crashed⟩ := execSql_calls helper statement
        rw [← Option.some.inj stepped]
        simp only [executed]
        exact ⟨handles, nonNull_append nonNull passed, fun now => (crashed now).elim live id⟩
    | disconnect =>
        rw [← Option.some.inj stepped]
        unfold Helper.disconnectMysqlServer
        cases connected : helper.connection with
        | none =>
            simp only
            rw [connected] at handles
            exact ⟨by rw [connected]; exact handles, nonNull, live⟩
        | some handle =>
            rw [connected] at handles
            refine ⟨handles.release, nonNull_append nonNull ?_, fun ended => absurd ended alive⟩
            simp [LibraryCall.handle]

/-- A connect that returns non-zero leaves `connection` as it was. -/
theorem connect_failed_same {host userName pwd : Option CString} {initialised connected : Bool}
    (failed : (helper.connectMysqlServer host userName pwd initialised connected).1 ≠ 0) :
    (helper.connectMysqlServer host userName pwd initialised connected).2.connection =
      helper.connection := by
  by_cases accepted : host.isSome ∧ userName.isSome ∧ pwd.isSome ∧ helper.connection = none
  · obtain ⟨hosted, named, secret, free⟩ := accepted
    rw [connectMysqlServer_free free hosted named secret] at failed ⊢
    cases initialised with
    | false => exact free.symm
    | true =>
        cases connected with
        | false => exact free.symm
        | true => exact absurd rfl failed
  · rw [connectMysqlServer_refused accepted]

theorem keepsHandles_iff (owned : HandleOwned helper) (call : HelperCall) :
    KeepsHandles helper call ↔ NotLost helper call := by
  refine ⟨fun kept => ?_, fun safe next stepped => ?_⟩
  · cases call with
    | connect host userName pwd initialised connected =>
        intro hosted named secret free initialised
        by_contra failed
        -- the calls now end with one that asks a null handle for its error
        rw [Bool.not_eq_true] at failed
        subst initialised failed
        have alive : helper.ended = false :=
          Bool.eq_false_iff.mpr fun ended => owned.connected ended free
        have stepped : mysqlHelper.step helper (.connect host userName pwd true false) =
            some (helper.connectMysqlServer host userName pwd true false).2 :=
          if_neg (Bool.eq_false_iff.mp alive)
        refine (kept _ stepped).1.nonNull (.errno none) ?_ rfl
        rw [connectMysqlServer_free free hosted named secret]
        exact List.mem_append_right _ (List.mem_singleton_self _)
    | exec statement => trivial
    | disconnect => trivial
  · refine ⟨(notLost_step owned safe stepped).safe, ?_⟩
    cases call with
    | connect host userName pwd initialised connected =>
        intro failed
        simp only [mysqlHelper, helperStep] at stepped
        split at stepped
        · cases stepped
        · rw [← Option.some.inj stepped]
          exact ⟨connect_failed_same failed, connect_succeeds⟩
    | exec statement => trivial
    | disconnect => trivial

/-- **When the static handle is neither lost nor misused.** Along every sequence of calls
from the start, with every outcome of the library, up to the end of the process if it ends
in `exec_sql`: the handles are safe throughout and every call keeps its promise exactly
when no handle is lost in a failing connect. -/
theorem mysql_handle_safe_iff (calls : List HelperCall) :
    (HandleSafe {} ∧ mysqlHelper.Along KeepsHandles {} calls) ↔
      mysqlHelper.Along NotLost {} calls := by
  have same : ∀ helper call, HandleOwned helper →
      (KeepsHandles helper call ↔ NotLost helper call) :=
    fun _ call owned => keepsHandles_iff owned call
  have keeps : ∀ helper call next, HandleOwned helper → KeepsHandles helper call →
      mysqlHelper.step helper call = some next → HandleOwned next :=
    fun helper call _ owned kept stepped =>
      notLost_step owned ((same helper call owned).mp kept) stepped
  rw [mysqlHelper.along_congr same keeps handleOwned_initial calls]
  exact and_iff_right handleOwned_initial.safe

/-- The server refuses the connection. -/
theorem mysql_handle_lost :
    ¬ ∀ calls, HandleSafe {} ∧ mysqlHelper.Along KeepsHandles {} calls := by
  intro always
  have kept := (always [.connect (some (cstring (ascii "localhost"))) (some (cstring (ascii "root")))
    (some (cstring (ascii "123456"))) true false]).2.1
  have connected := (keepsHandles_iff handleOwned_initial _).mp kept rfl rfl rfl rfl rfl
  cases connected

end HttpBackEnd.Clients
