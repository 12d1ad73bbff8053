import HttpBackEnd.Library.Ledger
import HttpBackEnd.Library.Transition
import HttpBackEnd.Clients.Conversions

/-! # CRedisInstance

The Redis client class over hiredis. The class holds at most one context and one reply;
the contexts and replies hiredis has given out are kept in ledgers, so that a handle
released twice, lost or used after its release can be told. hiredis itself is a
parameter: what a connection attempt and a command come to is given, and a command may
change a state of its own, which the wrapper never sees.

A call that dereferences a null pointer returns nothing: the process is gone.
-/

namespace HttpBackEnd.Clients

/-- The commands of the wrapper: the formats `"auth %s"`, `"SET %s %s"` and
`"GET %s"`. -/
inductive Command where
  | auth (password : CString)
  | set (key value : CString)
  | get (key : CString)
deriving DecidableEq

/-- `redisReply` as the wrapper reads it. -/
inductive Reply where
  | status (text : Bytes)
  | error (text : Bytes)
  | string (value : Bytes)
  | nil
deriving DecidableEq, Repr

/-- `redisReply::str`, which is null in a nil reply. -/
def Reply.str : Reply → Option Bytes
  | .status text => some text
  | .error text => some text
  | .string value => some value
  | .nil => none

/-- A `CRedisInstance` with the contexts and replies of hiredis. -/
structure RedisInstance where
  mConnect : Option Nat := none
  mReply : Option Nat := none
  contexts : Ledger := {}
  replies : Ledger := {}
deriving DecidableEq, Repr

namespace RedisInstance

variable {State : Type}

/-- hiredis gives out a context, and the instance keeps it in `mConnect`. -/
def keepContext (client : RedisInstance) : RedisInstance :=
  { client with
    mConnect := some client.contexts.issued
    contexts := client.contexts.issue }

/-- hiredis gives out a reply, and the instance keeps it in `mReply`. -/
def keepReply (client : RedisInstance) : RedisInstance :=
  { client with
    mReply := some client.replies.issued
    replies := client.replies.issue }

/-- `freeReplyObject(mReply)`; the pointer keeps its value. -/
def freeReply (client : RedisInstance) : RedisInstance :=
  match client.mReply with
  | some reply => { client with replies := client.replies.release reply }
  | none => client

/-- `CRedisInstance::disconnect`. -/
def disconnect (client : RedisInstance) : RedisInstance where
  mConnect := none
  mReply := none
  contexts := match client.mConnect with
    | some context => client.contexts.release context
    | none => client.contexts
  replies := match client.mReply with
    | some reply => client.replies.release reply
    | none => client.replies

/-- The arguments `CRedisInstance::connect` passes to `redisConnectWithTimeout`, where
it gets that far; the port is widened to `int`. -/
def connectCall (host : Bytes) (port : Int16) (userPwd : Bytes) : Option (CString × Int) :=
  if host.isEmpty || port == 0 || userPwd.isEmpty then none
  else some (cstring host, port.toInt)

/-- `CRedisInstance::connect`. A context is given with its `err`. -/
def connect (redisConnectWithTimeout : CString → Int → Option Bool)
    (redisCommand : Command → State → Option Reply × State) (host : Bytes) (port : Int16)
    (userPwd : Bytes) (client : RedisInstance) (state : State) :
    Option (Int × RedisInstance × State) :=
  match connectCall host port userPwd with
  | none => some (-1, client, state)
  | some (host, port) =>
      match redisConnectWithTimeout host port with
      | none => some (-2, { client with mConnect := none }, state)
      | some err =>
          let client := client.keepContext
          if err then some (-3, client, state)
          else
            match redisCommand (.auth (cstring userPwd)) state with
            | (none, _) => none
            | (some (.error _), state) => some (-4, client.keepReply.disconnect, state)
            | (some _, state) =>
                some (0, { client.keepReply.freeReply with mReply := none }, state)

/-- `CRedisInstance::setString`. The reply is compared with null and dropped. -/
def setString (redisCommand : Command → State → Option Reply × State) (key value : Bytes)
    (client : RedisInstance) (state : State) : Int × RedisInstance × State :=
  match client.mConnect with
  | none => (-1, client, state)
  | some _ =>
      if key.isEmpty then (-2, client, state)
      else
        match redisCommand (.set (cstring key) (cstring value)) state with
        | (none, state) => (-3, client, state)
        | (some _, state) =>
            (0, { client with replies := client.replies.issue }, state)

/-- `CRedisInstance::getString`. Neither the context nor the reply is looked at before
it is used, and the reply is freed without clearing `mReply`. -/
def getString (redisCommand : Command → State → Option Reply × State) (key : Bytes)
    (client : RedisInstance) (state : State) : Option (Bytes × RedisInstance × State) :=
  match client.mConnect with
  | none => none
  | some _ =>
      match redisCommand (.get (cstring key)) state with
      | (none, _) => none
      | (some reply, state) =>
          match reply.str with
          | none => none
          | some str => some ((cstring str).bytes, client.keepReply.freeReply, state)

end RedisInstance

/-! ## Call sequences -/

/-- A call on an instance, with what hiredis does in it. -/
inductive RedisCall where
  | connect (host : Bytes) (port : Int16) (userPwd : Bytes) (opened : Option Bool)
      (auth : Option Reply)
  | setString (key value : Bytes) (reply : Option Reply)
  | getString (key : Bytes) (reply : Option Reply)
  | disconnect
deriving DecidableEq

/-- One call; hiredis keeps no state here, so that its answers are arbitrary. -/
def redisStep (client : RedisInstance) : RedisCall → Option RedisInstance
  | .connect host port userPwd opened auth =>
      (client.connect (fun _ _ => opened) (fun _ _ => (auth, ())) host port userPwd ()).map
        fun result => result.2.1
  | .setString key value reply =>
      some (client.setString (fun _ _ => (reply, ())) key value ()).2.1
  | .getString key reply =>
      (client.getString (fun _ _ => (reply, ())) key ()).map fun result => result.2.1
  | .disconnect => some client.disconnect

/-- An instance and the calls made on it. -/
def redisInstance : Transition.System RedisInstance RedisCall := ⟨redisStep⟩

end HttpBackEnd.Clients
