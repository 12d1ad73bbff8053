import HttpBackEnd.Library.Transition
import HttpBackEnd.Clients.Conversions

/-! # CMySqlDBInstance

The MySQL client class over mysql++. `mConn` is both the connection and the sign that
there is one, and `connect` assigns it before mysql++ has been asked: an attempt that
fails leaves a connection object behind that was never connected. The class keeps its
promises exactly as long as no attempt fails.
-/

namespace HttpBackEnd.Clients

/-- The arguments of `mysqlpp::Connection::connect`; the port is widened to
`unsigned`. -/
structure MysqlppArgs where
  db : CString
  server : CString
  user : CString
  password : CString
  port : UInt32
deriving DecidableEq

/-- A `CMySqlDBInstance`: `mConn` points to a connection object, of which mysql++ knows
whether it is connected. -/
structure MySqlDBInstance where
  mConn : Option Bool := none
deriving DecidableEq, Repr

namespace MySqlDBInstance

/-- The arguments `connect` passes to mysql++, where it gets that far. -/
def connectArgs (host : Bytes) (port : Int16) (userName pwd dbName : Bytes)
    (client : MySqlDBInstance) : Int ⊕ MysqlppArgs :=
  if client.mConn.isSome then .inl (-1)
  else if host.isEmpty || userName.isEmpty || pwd.isEmpty || dbName.isEmpty then .inl (-2)
  else .inr
    { db := cstring dbName, server := cstring host, user := cstring userName
      password := cstring pwd, port := toUnsigned port }

/-- A call refused before mysql++ is asked reports it. -/
theorem connectArgs_ne_zero {host : Bytes} {port : Int16} {userName pwd dbName : Bytes}
    {client : MySqlDBInstance} {code : Int}
    (refused : client.connectArgs host port userName pwd dbName = .inl code) : code ≠ 0 := by
  simp only [connectArgs] at refused
  split at refused
  · cases refused
    decide
  split at refused
  · cases refused
    decide
  · cases refused

/-- `CMySqlDBInstance::connect`. Whether the character set could be chosen is only
printed. -/
def connect (mysqlpp : MysqlppArgs → Bool) (host : Bytes) (port : Int16)
    (userName pwd dbName : Bytes) (client : MySqlDBInstance) : Int × MySqlDBInstance :=
  match client.connectArgs host port userName pwd dbName with
  | .inl code => (code, client)
  | .inr args => if mysqlpp args then (0, { mConn := some true }) else (-3, { mConn := some false })

/-- A connect succeeds when mysql++ is asked and accepts. -/
theorem connect_eq_zero_iff (mysqlpp : MysqlppArgs → Bool) (host : Bytes) (port : Int16)
    (userName pwd dbName : Bytes) (client : MySqlDBInstance) :
    (client.connect mysqlpp host port userName pwd dbName).1 = 0 ↔
      ∃ args, client.connectArgs host port userName pwd dbName = .inr args ∧ mysqlpp args := by
  unfold connect
  cases found : client.connectArgs host port userName pwd dbName with
  | inl code => simp [connectArgs_ne_zero found]
  | inr args => cases accepted : mysqlpp args <;> simp [accepted]

/-- `CMySqlDBInstance::disconnect`. -/
def disconnect (_ : MySqlDBInstance) : MySqlDBInstance := { mConn := none }

/-- `CMySqlDBInstance::update`, with the result of `Query::exec`. -/
def update (sql : Bytes) (executed : Bool) (client : MySqlDBInstance) : Int :=
  if client.mConn.isNone then -1
  else if sql.isEmpty then -2
  else if executed then 0
  else -3

/-- `CMySqlDBInstance::query`. -/
def query (sql : Bytes) (client : MySqlDBInstance) : Int :=
  if client.mConn.isNone then -1
  else if sql.isEmpty then -2
  else 0

end MySqlDBInstance

/-! ## Call sequences -/

/-- A call on an instance, with what mysql++ does in it. -/
inductive DbCall where
  | connect (host : Bytes) (port : Int16) (userName pwd dbName : Bytes) (accepted : Bool)
  | update (sql : Bytes) (executed : Bool)
  | query (sql : Bytes)
  | disconnect
deriving DecidableEq

/-- What has become of the connection, as an observer outside the class sees it. -/
inductive Attempt where
  | established
  | failed
  | disconnected
deriving DecidableEq, Repr

/-- An instance with its history: every time mysql++ was asked to connect, and every
disconnect, the latest first. -/
structure DbState where
  client : MySqlDBInstance := {}
  attempts : List Attempt := []
deriving DecidableEq

/-- The latest connect since the last disconnect established a connection. A connect that
was refused before mysql++ was asked is none. -/
def Established (state : DbState) : Prop := state.attempts.head? = some .established

/-- The attempt a call makes. -/
def attempt (client : MySqlDBInstance) : DbCall → List Attempt
  | .connect host port userName pwd dbName accepted =>
      match client.connectArgs host port userName pwd dbName with
      | .inl _ => []
      | .inr _ => if accepted then [.established] else [.failed]
  | .disconnect => [.disconnected]
  | _ => []

/-- What a call returns and leaves; `disconnect` returns nothing. -/
def MySqlDBInstance.call (client : MySqlDBInstance) : DbCall → Int × MySqlDBInstance
  | .connect host port userName pwd dbName accepted =>
      client.connect (fun _ => accepted) host port userName pwd dbName
  | .update sql executed => (client.update sql executed, client)
  | .query sql => (client.query sql, client)
  | .disconnect => (0, client.disconnect)

/-- One call. -/
def dbStep (state : DbState) (call : DbCall) : DbState where
  client := (state.client.call call).2
  attempts := attempt state.client call ++ state.attempts

/-- An instance and the calls made on it. -/
def mySqlDBInstance : Transition.System DbState DbCall := ⟨fun state call => some (dbStep state call)⟩

/-! ## A failed connect changes nothing -/

/-- `mConn` is set exactly when there is an established connection. -/
def Faithful (state : DbState) : Prop := state.client.mConn ≠ none ↔ Established state

/-- What the class promises of one call: `mConn` is right afterwards; a connect that
returns non-zero leaves the instance as it was, and unless it is connected, a later
connect with good arguments can still succeed; the other calls return -1 exactly without
an established connection. -/
def KeepsPromise (state : DbState) (call : DbCall) : Prop :=
  Faithful (dbStep state call) ∧
    match call with
    | .connect .. => (state.client.call call).1 ≠ 0 →
        (dbStep state call).client = state.client ∧
          (¬ Established (dbStep state call) → ∀ host port userName pwd dbName,
            host ≠ [] → userName ≠ [] → pwd ≠ [] → dbName ≠ [] →
              ((dbStep state call).client.connect (fun _ => true) host port userName pwd
                dbName).1 = 0)
    | .disconnect => True
    | _ => (state.client.call call).1 = -1 ↔ ¬ Established state

/-- mysql++ does not fail to connect where it is asked to. -/
def NotFailed (state : DbState) : DbCall → Prop
  | .connect host port userName pwd dbName accepted =>
      (state.client.connectArgs host port userName pwd dbName).isRight → accepted = true
  | _ => True

variable {state : DbState}

/-- Asked with good arguments, an instance without `mConn` passes them on. -/
theorem connectArgs_free {client : MySqlDBInstance} (free : client.mConn = none)
    {host userName pwd dbName : Bytes} (port : Int16) (present : host ≠ []) (named : userName ≠ [])
    (secret : pwd ≠ []) (chosen : dbName ≠ []) :
    client.connectArgs host port userName pwd dbName = .inr
      { db := cstring dbName, server := cstring host, user := cstring userName
        password := cstring pwd, port := toUnsigned port } := by
  unfold MySqlDBInstance.connectArgs
  simp [free, present, named, secret, chosen]

theorem update_eq_neg_one_iff (client : MySqlDBInstance) (sql : Bytes) (executed : Bool) :
    client.update sql executed = -1 ↔ client.mConn = none := by
  unfold MySqlDBInstance.update
  cases client.mConn with
  | none => simp
  | some connected =>
      simp only [Option.isNone_some, Bool.false_eq_true, if_false, reduceCtorEq, iff_false]
      split
      · decide
      · split <;> decide

theorem query_eq_neg_one_iff (client : MySqlDBInstance) (sql : Bytes) :
    client.query sql = -1 ↔ client.mConn = none := by
  unfold MySqlDBInstance.query
  cases client.mConn with
  | none => simp
  | some connected =>
      simp only [Option.isNone_some, Bool.false_eq_true, if_false, reduceCtorEq, iff_false]
      split <;> decide

/-- In a faithful state a call keeps its promise, and so leaves a faithful state, exactly
when mysql++ does not fail in it. -/
theorem keepsPromise_iff (faithful : Faithful state) (call : DbCall) :
    KeepsPromise state call ↔ NotFailed state call := by
  have idle : ¬ Established state ↔ state.client.mConn = none :=
    (not_congr faithful.symm).trans not_not
  cases call with
  | connect host port userName pwd dbName accepted =>
      cases passed : state.client.connectArgs host port userName pwd dbName with
      | inl code =>
          refine iff_of_true ?_ ?_
          · have same : dbStep state (.connect host port userName pwd dbName accepted) = state := by
              simp [dbStep, MySqlDBInstance.call, MySqlDBInstance.connect, attempt, passed]
            refine ⟨?_, fun _ => ?_⟩
            · rw [same]
              exact faithful
            · rw [same]
              refine ⟨rfl, fun free host port userName pwd dbName present named secret chosen => ?_⟩
              simp only [MySqlDBInstance.connect,
                connectArgs_free (idle.mp free) port present named secret chosen, if_true]
          · intro right
            rw [passed] at right
            cases right
      | inr args =>
          cases accepted with
          | true =>
              refine iff_of_true ⟨?_, fun failed => ?_⟩ fun _ => rfl
              · simp [Faithful, Established, dbStep, MySqlDBInstance.call,
                  MySqlDBInstance.connect, attempt, passed]
              · simp [MySqlDBInstance.call, MySqlDBInstance.connect, passed] at failed
          | false =>
              refine iff_of_false ?_ ?_
              · rintro ⟨faithful, _⟩
                simp [Faithful, Established, dbStep, MySqlDBInstance.call,
                  MySqlDBInstance.connect, attempt, passed] at faithful
              · intro notFailed
                have accepted := notFailed (by rw [passed]; rfl)
                cases accepted
  | update sql executed =>
      refine iff_of_true ⟨faithful, ?_⟩ trivial
      exact (update_eq_neg_one_iff state.client sql executed).trans idle.symm
  | query sql =>
      refine iff_of_true ⟨faithful, ?_⟩ trivial
      exact (query_eq_neg_one_iff state.client sql).trans idle.symm
  | disconnect =>
      refine iff_of_true ⟨?_, trivial⟩ trivial
      simp [Faithful, Established, dbStep, MySqlDBInstance.call, MySqlDBInstance.disconnect, attempt]

/-- **When a failed connect changes nothing.** Along every sequence of calls on a new
instance, with every outcome of mysql++: the state is faithful throughout and every call
keeps its promise exactly when mysql++ never fails to connect where it is asked to. -/
theorem mysql_connect_promise_iff (calls : List DbCall) :
    (Faithful {} ∧ mySqlDBInstance.Along KeepsPromise {} calls) ↔
      mySqlDBInstance.Along NotFailed {} calls := by
  have initial : Faithful {} := by simp [Faithful, Established]
  have keeps : ∀ state call next, Faithful state → KeepsPromise state call →
      mySqlDBInstance.step state call = some next → Faithful next := by
    intro state call next _ kept stepped
    rw [← Option.some.inj stepped]
    exact kept.1
  have same : ∀ state call, Faithful state → (KeepsPromise state call ↔ NotFailed state call) :=
    fun _ call faithful => keepsPromise_iff faithful call
  rw [mySqlDBInstance.along_congr same keeps initial calls]
  exact and_iff_right initial

/-- The server is not up yet: the first connect fails. -/
theorem mysql_failed_connect_sticks :
    ¬ ∀ calls, Faithful {} ∧ mySqlDBInstance.Along KeepsPromise {} calls := by
  intro always
  have first := (always [.connect (ascii "localhost") 3306 (ascii "root") (ascii "123456")
    (ascii "customer") false]).2.1
  have notFailed := (keepsPromise_iff (by simp [Faithful, Established]) _).mp first
  have accepted := notFailed rfl
  cases accepted

end HttpBackEnd.Clients
