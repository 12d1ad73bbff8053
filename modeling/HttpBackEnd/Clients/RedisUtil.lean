import HttpBackEnd.Clients.RedisInstance

/-! # The Redis wrapper against a map

`redis_set_string` and `redis_get_string` on a connected instance, against a server that
is a partial map and may answer a command, refuse it with an error reply, or drop the
connection before or after it has executed the command. The wrapper tells the caller what
the server did only as long as the server answers: an error reply to a `SET` counts as
success, an error text is handed out as a value, and a missing key or a lost connection
ends the process.
-/

namespace HttpBackEnd.Clients

section Wrapper

variable {State : Type} (redisCommand : Command → State → Option Reply × State)

/-- `redis_set_string`. -/
def redisSetString (key value : CString) (client : RedisInstance) (state : State) :
    Int × RedisInstance × State :=
  client.setString redisCommand key.bytes value.bytes state

/-- How `redis_get_string` hands out a value: what it returns and what it copies.
`strncpy` takes its count as a `size_t`, so a negative count runs off every buffer. -/
def copyValue (valueStr : Bytes) (maxLen : Int32) : Option (Int × Bytes) :=
  if valueStr.isEmpty then some (toInt valueStr.length, [])
  else
    let cpLen :=
      if maxLen.toInt < toInt valueStr.length then maxLen.toInt else toInt valueStr.length
    if cpLen < 0 then none else some (toInt valueStr.length, valueStr.take cpLen.toNat)

/-- `redis_get_string`. -/
def redisGetString (key : CString) (maxLen : Int32) (client : RedisInstance) (state : State) :
    Option ((Int × Bytes) × RedisInstance × State) :=
  match client.getString redisCommand key.bytes state with
  | none => none
  | some (valueStr, client, state) =>
      (copyValue valueStr maxLen).map fun result => (result, client, state)

end Wrapper

/-! ## The server -/

/-- The text of an error reply. -/
structure ErrorText where
  text : CString
  present : text.bytes ≠ []
  short : text.bytes.length < 2 ^ 31

/-- The server: a partial map, the `SET` commands it has executed, and whether the
connection to it still stands. -/
structure Server where
  store : CString → Option CString
  sets : List (CString × CString) := []
  alive : Bool := true

/-- What the server does with one command. -/
inductive Decision where
  | answer
  | refuse (text : ErrorText)
  | drop (executed : Bool)

/-- Execute a command. -/
def Server.execute (server : Server) : Command → Reply × Server
  | .auth _ => (.status (ascii "OK"), server)
  | .set key value => (.status (ascii "OK"),
      { server with
        store := Function.update server.store key (some value)
        sets := server.sets ++ [(key, value)] })
  | .get key =>
      match server.store key with
      | some value => (.string value.bytes, server)
      | none => (.nil, server)

/-- `redisCommand` on a context of this server. A context whose connection is lost has
no more answers. -/
def Server.command (decision : Decision) (command : Command) (server : Server) :
    Option Reply × Server :=
  if server.alive then
    match decision with
    | .answer => (some (server.execute command).1, (server.execute command).2)
    | .refuse text => (some (.error text.text.bytes), server)
    | .drop true => (none, { (server.execute command).2 with alive := false })
    | .drop false => (none, { server with alive := false })
  else (none, server)

/-- A call of the wrapper, with what the server does. -/
inductive UtilCall where
  | set (key value : CString) (decision : Decision)
  | get (key : CString) (maxLen : Int32) (decision : Decision)

/-- One call. -/
def utilStep (state : RedisInstance × Server) : UtilCall → Option (RedisInstance × Server)
  | .set key value decision =>
      some (redisSetString (Server.command decision) key value state.1 state.2).2
  | .get key maxLen decision =>
      (redisGetString (Server.command decision) key maxLen state.1 state.2).map Prod.snd

/-- A connected instance and its server. -/
def redisUtil : Transition.System (RedisInstance × Server) UtilCall := ⟨utilStep⟩

/-! ## Refinement of the map -/

/-- What a `get` on the map gives: the length of the value and as much of it as there is
room for. An absent key and an error reply give nothing. -/
def expected (server : Server) (key : CString) (maxLen : Int32) : Decision → Int × Bytes
  | .refuse _ => (0, [])
  | _ =>
      match server.store key with
      | some value =>
          (value.bytes.length, value.bytes.take (min maxLen.toInt value.bytes.length).toNat)
      | none => (0, [])

/-- The call does what it would do on the map: a `set` returns 0 exactly when the server
has stored the value, and a `get` gives what is expected and leaves the instance
usable. -/
def Refines (state : RedisInstance × Server) : UtilCall → Prop
  | .set key value decision =>
      let result := redisSetString (Server.command decision) key value state.1 state.2
      result.1 = 0 ↔ result.2.2.sets = state.2.sets ++ [(key, value)]
  | .get key maxLen decision =>
      ∃ client server,
        redisGetString (Server.command decision) key maxLen state.1 state.2 =
          some (expected state.2 key maxLen decision, client, server) ∧
        client.mConnect = state.1.mConnect

/-- The calls that go well: no `SET` is refused, or executed by a server that then drops
the connection, and every `GET` is answered, with a value, into a buffer of sensible
size. -/
def GoesWell (state : RedisInstance × Server) : UtilCall → Prop
  | .set key _ decision =>
      key.bytes = [] ∨ state.2.alive = false ∨ decision = .answer ∨ decision = .drop false
  | .get key maxLen decision =>
      state.2.alive = true ∧ decision = .answer ∧ ∃ value, state.2.store key = some value ∧
        (value.bytes = [] ∨ 0 ≤ maxLen.toInt ∧ value.bytes.length < 2 ^ 31)

variable {client : RedisInstance} {server : Server} {context : Nat}

/-- What a value is handed out as starts with its length, as an `int`. -/
theorem copyValue_fst {value : Bytes} {maxLen : Int32} {result : Int × Bytes}
    (copied : copyValue value maxLen = some result) : result.1 = toInt value.length := by
  unfold copyValue at copied
  split at copied
  · rw [← Option.some.inj copied]
  · simp only [Option.ite_none_left_eq_some] at copied
    rw [← Option.some.inj copied.2]

/-- A value is handed out as it is exactly when it is empty, or its length fits an `int`
and the room is not negative. -/
theorem copyValue_eq_iff (value : Bytes) (maxLen : Int32) :
    copyValue value maxLen =
        some ((value.length : Int), value.take (min maxLen.toInt value.length).toNat) ↔
      value = [] ∨ 0 ≤ maxLen.toInt ∧ value.length < 2 ^ 31 := by
  by_cases empty : value = []
  · subst empty
    refine iff_of_true ?_ (.inl rfl)
    have zero : toInt 0 = 0 := toInt_of_lt (by omega)
    simp [copyValue, zero]
  · have present : value.isEmpty = false := by simpa using empty
    by_cases short : value.length < 2 ^ 31
    · by_cases room : 0 ≤ maxLen.toInt
      · refine iff_of_true ?_ (.inr ⟨room, short⟩)
        simp only [copyValue, present, toInt_of_lt short]
        by_cases less : maxLen.toInt < value.length
        · simp [less, Int.not_lt.mpr room, Int.min_eq_left (Int.le_of_lt less)]
        · simp [less, Int.min_eq_right (Int.not_lt.mp less)]
      · refine iff_of_false ?_ ?_
        · have less : maxLen.toInt < value.length := by omega
          simp [copyValue, present, toInt_of_lt short, less, Int.not_le.mp room]
        · simp [empty, room]
    · refine iff_of_false ?_ ?_
      · intro copied
        have returned := copyValue_fst copied
        have bound := toInt_lt value.length
        simp only at returned
        omega
      · simp only [empty, short, and_false, or_self, not_false_eq_true]

/-! ## One call -/

/-- A `set` with a key on a connected instance is its command. -/
theorem redisSetString_connected {State : Type} (held : client.mConnect = some context)
    {key : CString} (present : key.bytes ≠ []) (value : CString)
    (redisCommand : Command → State → Option Reply × State) (state : State) :
    redisSetString redisCommand key value client state =
      match redisCommand (.set key value) state with
      | (none, state) => (-3, client, state)
      | (some _, state) => (0, { client with replies := client.replies.issue }, state) := by
  unfold redisSetString RedisInstance.setString
  rcases answered : redisCommand (.set key value) state with ⟨_ | reply, state⟩
  · simp [held, cstring_bytes, present, answered]
  · simp [held, cstring_bytes, present, answered]

/-- A `get` on a connected instance hands out the text of its reply. -/
theorem redisGetString_connected {State : Type} (held : client.mConnect = some context)
    (key : CString) (maxLen : Int32) (redisCommand : Command → State → Option Reply × State)
    (state : State) :
    redisGetString redisCommand key maxLen client state =
      match redisCommand (.get key) state with
      | (none, _) => none
      | (some reply, state) => reply.str.bind fun str =>
          (copyValue (cstring str).bytes maxLen).map fun result =>
            (result, client.keepReply.freeReply, state) := by
  unfold redisGetString RedisInstance.getString
  rcases answered : redisCommand (.get key) state with ⟨_ | reply, state⟩
  · simp [held, cstring_bytes, answered]
  · cases text : reply.str with
    | none => simp [held, cstring_bytes, answered, text]
    | some str => simp [held, cstring_bytes, answered, text]

/-- No call touches `mConnect`. -/
theorem utilStep_mConnect (held : client.mConnect = some context) {call : UtilCall}
    {next : RedisInstance × Server} (stepped : utilStep (client, server) call = some next) :
    next.1.mConnect = some context := by
  cases call with
  | set key value decision =>
      rw [← Option.some.inj stepped]
      by_cases empty : key.bytes = []
      · simp [redisSetString, RedisInstance.setString, held, empty]
      · rw [redisSetString_connected held empty]
        split <;> exact held
  | get key maxLen decision =>
      obtain ⟨result, got, rfl⟩ := Option.map_eq_some_iff.mp stepped
      rw [redisGetString_connected held] at got
      split at got
      · cases got
      · obtain ⟨str, _, copied⟩ := Option.bind_eq_some_iff.mp got
        obtain ⟨_, _, rfl⟩ := Option.map_eq_some_iff.mp copied
        exact held

theorem refines_set_iff (held : client.mConnect = some context) (key value : CString)
    (decision : Decision) :
    Refines (client, server) (.set key value decision) ↔
      GoesWell (client, server) (.set key value decision) := by
  have different : server.sets ≠ server.sets ++ [(key, value)] := by simp
  by_cases empty : key.bytes = []
  · refine iff_of_true ?_ (.inl empty)
    simp [Refines, redisSetString, RedisInstance.setString, held, empty]
  · simp only [Refines, GoesWell, redisSetString_connected held empty, Server.command]
    cases server.alive with
    | false => simp
    | true =>
        rcases decision with _ | text | executed
        · simp [Server.execute]
        · simp [empty]
        · cases executed with
          | false => simp
          | true => simp [empty, Server.execute]

/-- A `get` that gives a result was answered over a live connection. -/
theorem refines_get_iff (held : client.mConnect = some context) (key : CString) (maxLen : Int32)
    (decision : Decision) :
    Refines (client, server) (.get key maxLen decision) ↔
      GoesWell (client, server) (.get key maxLen decision) := by
  simp only [Refines, GoesWell, redisGetString_connected held, Server.command]
  cases server.alive with
  | false => simp
  | true =>
      rcases decision with _ | text | executed
      · simp only [Server.execute, expected]
        cases found : server.store key with
        | none => simp [Reply.str]
        | some value =>
            have handed := copyValue_eq_iff value.bytes maxLen
            simp only [if_true, Reply.str, Option.bind_some, cstring_bytes, true_and,
              Option.some.injEq, exists_eq_left']
            rw [← handed]
            refine ⟨?_, fun copied => ⟨client.keepReply.freeReply, server, ?_, rfl⟩⟩
            · rintro ⟨_, _, copied, _⟩
              obtain ⟨result, copied, same⟩ := Option.map_eq_some_iff.mp copied
              rw [copied]
              exact congrArg (fun out => some out.1) same
            · rw [copied]
              rfl
      · refine iff_of_false ?_ (by simp)
        rintro ⟨_, _, got, _⟩
        obtain ⟨result, copied, same⟩ := Option.map_eq_some_iff.mp got
        have returned := copyValue_fst copied
        rw [cstring_bytes, toInt_of_lt text.short, congrArg (fun out => out.1.1) same] at returned
        have positive := List.length_pos_iff.mpr text.present
        simp only [expected] at returned
        omega
      · cases executed <;> simp

/-- **When the Redis wrapper refines a map.** Along every sequence of calls on a
connected instance, against every server: all calls do what they would do on the map
exactly when all of them go well. -/
theorem redis_refines_map_iff (held : client.mConnect = some context) (server : Server)
    (calls : List UtilCall) :
    redisUtil.Along Refines (client, server) calls ↔
      redisUtil.Along GoesWell (client, server) calls := by
  have same : ∀ state call, state.1.mConnect = some context →
      (Refines state call ↔ GoesWell state call) := by
    intro state call held
    cases call with
    | set key value decision => exact refines_set_iff held key value decision
    | get key maxLen decision => exact refines_get_iff held key maxLen decision
  exact redisUtil.along_congr same
    (fun _ _ _ held _ stepped => utilStep_mConnect held stepped) held calls

/-- A value is stored and read back. -/
theorem redis_refines_sample :
    redisUtil.Along Refines ({ mConnect := some 0, contexts := { issued := 1 } },
        { store := fun _ => none })
      [.set (cstring (ascii "o1")) (cstring (ascii "k1")) .answer,
        .get (cstring (ascii "o1")) 64 .answer] := by
  refine (redis_refines_map_iff rfl { store := fun _ => none } _).mpr ?_
  refine ⟨.inr (.inr (.inl rfl)), fun next stepped => ?_⟩
  have stored : next.2.alive = true ∧
      next.2.store (cstring (ascii "o1")) = some (cstring (ascii "k1")) := by
    rw [← Option.some.inj stepped, redisSetString_connected rfl (by decide)]
    simp [Server.command, Server.execute]
  refine ⟨⟨stored.1, rfl, _, stored.2, .inr ⟨by decide, by decide⟩⟩, fun _ _ => trivial⟩

/-- Redis is out of memory and says so. -/
def outOfMemory : ErrorText where
  text := cstring (ascii "OOM command not allowed")
  present := by decide
  short := by decide

/-- A refused `SET` is reported as done. -/
theorem redis_set_refused_returns_zero :
    ¬ ∀ (client : RedisInstance) (context : Nat) (server : Server) (calls : List UtilCall),
      client.mConnect = some context → redisUtil.Along Refines (client, server) calls := by
  intro refines
  have first := (refines { mConnect := some 0 } 0 { store := fun _ => none }
    [.set (cstring (ascii "o1")) (cstring (ascii "k1")) (.refuse outOfMemory)] rfl).1
  have well := (refines_set_iff rfl _ _ _).mp first
  simp only [GoesWell, reduceCtorEq, or_self, or_false, Bool.true_eq_false] at well
  exact absurd well (by decide)

end HttpBackEnd.Clients
