import HttpBackEnd.Library.Transition
import HttpBackEnd.Login.Handlers

/-! # One connection, event by event

The login request as nginx runs it: the content phase calls
`ngx_http_customer_manager_login`, wake-ups of the client go to the request in
`c->data`, events of an upstream go to its subrequest, and posted requests run one
after the other. Every event handler of nginx ends with
`ngx_http_run_posted_requests`, so an event from outside comes only when no request
is posted. A connection that is closed, or whose worker has crashed, takes no event;
one that is derailed is not followed any further.
-/

namespace HttpBackEnd.Login

open Nginx

/-- What an event of a subrequest comes to: it goes on, or it is finalized, with
`c->error` and the outcome of posting the parent. -/
inductive SubOutcome where
  | pending
  | complete (completion : Completion) (error : Bool) (posted : Bool)
deriving DecidableEq, Repr

/-- The events of a connection with nginx's decisions in them. -/
inductive Event where
  | start (post : Bool) (body : BodyOutcome) (choices : Choices)
  | clientRead (body : BodyOutcome) (sub : SubOutcome) (choices : Choices)
  | clientWrite (sub : SubOutcome) (choices : Choices)
  | upstream (index : Nat) (sub : SubOutcome)
  | posted (sub : SubOutcome) (choices : Choices)
  | close
deriving DecidableEq, Repr

/-- Enter an invocation of a module function into the history. -/
def record (function : Function) (result : Conn × List Act) : Conn :=
  { result.1 with log := result.1.log ++ [.ran function result.2] }

/-- Nginx itself finalizes the request before the module has seen the body. -/
def refuse (choices : Choices) (rc : Int) (conn : Conn) : Conn :=
  Conn.finalizeRequest choices rc { conn with log := conn.log ++ [.finalized rc] }

/-- The body is complete: the login handler runs. -/
def handOver (conf : Conf) (choices : Choices) (bufs : List Buf) (conn : Conn) : Conn :=
  record .loginHandler
    (customerManagerLoginHandler conf choices bufs { conn with readHandler := .blockReading })

/-- The content phase: `ngx_http_customer_manager_login`, with
`ngx_http_read_client_request_body` in it, and the finalization with its result. -/
def contentPhase (conf : Conf) (post : Bool) (body : BodyOutcome) (choices : Choices)
    (conn : Conn) : Conn :=
  let conn := { conn with started := true, writeHandler := .empty }
  if post then
    match body with
    | .pending =>
        Conn.finalizeRequest choices ngxDone
          { conn with count := conn.count + 1, readHandler := .readClientRequestBody }
    | .failed rc =>
        if 300 ≤ rc then refuse choices rc conn
        else Conn.finalizeRequest choices ngxDone { conn with count := conn.count + 1 }
    | .complete bufs =>
        let conn := handOver conf choices bufs { conn with count := conn.count + 1 }
        if conn.crashed then conn else conn.finalizeRequest choices ngxDone
  else refuse choices 405 conn

/-- The read handler of the main request. -/
def readMain (conf : Conf) (body : BodyOutcome) (choices : Choices) (conn : Conn) : Conn :=
  match conn.readHandler, body with
  | .readClientRequestBody, .failed rc => if 300 ≤ rc then refuse choices rc conn else conn
  | .readClientRequestBody, .complete bufs => handOver conf choices bufs conn
  | _, _ => conn

/-- The write handler of the main request. -/
def writeMain (conf : Conf) (choices : Choices) (conn : Conn) : Conn :=
  match conn.writeHandler with
  | .empty => conn
  | .father => record .father (wxLoginSubrequestPostFatherHandler conf choices conn)
  | .loginDone => record .loginDone (loginDone choices conn)
  | .terminate => conn.terminateHandler
  | .nginx => conn.answer choices.ending

/-- An event of a subrequest. -/
def runSub (index : Nat) (outcome : SubOutcome) (conn : Conn) : Conn :=
  match conn.subs[index]?, outcome with
  | some sub, .complete completion error posted =>
      if sub.outstanding then
        Conn.finalizeSub (postSubrequest sub.location) index completion error posted
          { conn with log := conn.log ++ [.completed index sub.location completion] }
      else conn
  | _, _ => conn

/-- An event from outside, when no request is posted. -/
def external (conf : Conf) (conn : Conn) : Event → Option Conn
  | .start post body choices =>
      if conn.started then none else some (contentPhase conf post body choices conn)
  | .clientRead body sub choices =>
      if conn.started then
        match conn.data with
        | none => some (readMain conf body choices conn)
        | some index => some (runSub index sub conn)
      else none
  | .clientWrite sub choices =>
      if conn.started then
        match conn.data with
        | none => some (writeMain conf choices conn)
        | some index => some (runSub index sub conn)
      else none
  | .upstream index sub =>
      match conn.subs[index]? with
      | some running => if running.outstanding then some (runSub index sub conn) else none
      | none => none
  | .close =>
      if conn.started then some (Conn.terminate { conn with count := conn.count + 1 }) else none
  | .posted _ _ => none

/-- One event of the connection. -/
def step (conf : Conf) (conn : Conn) (event : Event) : Option Conn :=
  if conn.closed || conn.crashed || conn.derailed then none
  else
    match conn.posted, event with
    | [], event => external conf conn event
    | none :: rest, .posted _ choices => some (writeMain conf choices { conn with posted := rest })
    | some index :: rest, .posted sub _ => some (runSub index sub { conn with posted := rest })
    | _ :: _, _ => none

/-- A connection as a transition system. -/
def connection (conf : Conf) : Transition.System Conn Event := ⟨step conf⟩

/-- A worker: any number of connections, whose events come in any order. -/
def worker (conf : Conf) (Index : Type) [DecidableEq Index] :
    Transition.System (Index → Conn) (Index × Event) :=
  Transition.interleave (connection conf)

end HttpBackEnd.Login
