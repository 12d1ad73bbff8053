import HttpBackEnd.Json.Reader

/-! # Requests, subrequests and their finalization

The state nginx keeps for one client connection that carries a login request, and
the operations of `ngx_http_request.c` and `ngx_http_core_module.c` the login
module calls on it. The main request is `none` and a subrequest is its index in the
order of creation; the request in `c->data`, the postponed list and the posted list
are made of these.

What nginx decides by data the model does not carry (allocations, socket state,
results of the filter chain) is a field of `Choices`, so that a statement about all
runs covers every decision. After the main request has been finalized nginx's own
handlers answer; they are one handler here, `WriteHandler.nginx`, that may finish,
go on or fail. A subrequest in memory never has buffered output of its own.

`ngx_http_subrequest` can run out of memory after it has put the new subrequest into
`c->data`. The caller is told that it failed and finalizes the request, while the
subrequest stands in `c->data` and takes the events of the client. Such a connection
is `derailed`: what it goes through after the step that failed is not followed here.
-/

namespace HttpBackEnd.Nginx

/-- `NGX_ERROR`. -/
def ngxError : Int := -1

/-- `NGX_DONE`. -/
def ngxDone : Int := -4

/-- `NGX_DECLINED`. -/
def ngxDeclined : Int := -5

/-- The two locations the module sends subrequests to. -/
inductive Location where
  | wx
  | redis
deriving DecidableEq, Repr

/-- The URI of a subrequest. -/
def Location.uri : Location → Bytes
  | .wx => ascii "/wxMiniBuyPhone/login"
  | .redis => ascii "/redis_set"

/-- `read_event_handler` of the main request: `ngx_http_block_reading` or
`ngx_http_read_client_request_body_handler`. -/
inductive ReadHandler where
  | blockReading
  | readClientRequestBody
deriving DecidableEq, Repr

/-- `write_event_handler` of the main request: `ngx_http_request_empty_handler`,
`wx_login_subrequest_post_father_handler`, `login_done`,
`ngx_http_terminate_handler`, or the handler with which nginx sends an answer. -/
inductive WriteHandler where
  | empty
  | father
  | loginDone
  | terminate
  | nginx
deriving DecidableEq, Repr

/-- One `response` slot of the login context. `ngx_palloc` does not zero it, so
before it is written it holds whatever the memory held. -/
inductive Slot where
  | uninitialised (bytes : Bytes)
  | written (bytes : Bytes)
deriving DecidableEq, Repr

/-- The bytes a reader of the slot finds. -/
def Slot.bytes : Slot → Bytes
  | .uninitialised bytes => bytes
  | .written bytes => bytes

/-- `ngx_http_login_ctx_t`: `response[WX_RESPONSE]` and `response[REDIS_RESPONSE]`. -/
structure LoginCtx where
  wx : Slot := .uninitialised []
  redis : Slot := .uninitialised []
deriving DecidableEq, Repr

/-- A subrequest; it is outstanding until it has been finalized or cleaned up. -/
structure Sub where
  location : Location
  args : Bytes
  outstanding : Bool
deriving DecidableEq, Repr

/-- How a subrequest ends: the `rc` its finalization was given, the status left in
its `headers_out`, and the window `upstream->buffer.pos..last`. -/
structure Completion where
  rc : Int
  status : Nat
  window : Bytes
deriving DecidableEq, Repr

/-- What one invocation of a module function does, in order: the texts it decodes
and its calls into nginx. `crash` is an access through a null pointer. -/
inductive Act where
  | decodeBody (text : Bytes)
  | decodeReply (slot : Slot)
  | subrequest (location : Location) (args : Bytes)
  | sendHeader (status contentLength : Nat) (contentType : Bytes) (rc : Int)
  | output (body : Bytes)
  | finalize (rc : Int)
  | crash
deriving DecidableEq, Repr

/-- The functions of the module that run on the main request. -/
inductive Function where
  | loginHandler
  | father
  | loginDone
deriving DecidableEq, Repr

/-- The history of a request: invocations of the module's functions, completions of
its subrequests, and finalizations by nginx before the body was handed over. -/
inductive Entry where
  | ran (function : Function) (acts : List Act)
  | completed (index : Nat) (location : Location) (completion : Completion)
  | finalized (rc : Int)
deriving DecidableEq, Repr

/-- How far the allocations of `ngx_http_subrequest` get: they all succeed, or there is
no memory for the subrequest itself, for its entry in the postponed list, or for
posting it. -/
inductive SubMemory where
  | enough
  | noRequest
  | noPostponed
  | noPosted
deriving DecidableEq, Repr

/-- How nginx's own answering goes on. -/
inductive Ending where
  | finished
  | writing
  | failed
deriving DecidableEq, Repr

/-- The decisions nginx takes in one step. -/
structure Choices where
  /-- The allocation of `ngx_http_post_subrequest_t` succeeds. -/
  psr : Bool := true
  /-- The memory the login context is allocated from. -/
  ctx : Option LoginCtx := some {}
  /-- The allocation of the argument string succeeds. -/
  args : Bool := true
  /-- The allocations of `ngx_http_subrequest`. -/
  sub : SubMemory := .enough
  /-- The result of `ngx_http_send_header`. -/
  header : Int := 0
  /-- `r->header_only`. -/
  headerOnly : Bool := false
  /-- The allocation of `ngx_create_temp_buf` succeeds. -/
  tempBuf : Bool := true
  /-- The result of `ngx_http_output_filter`. -/
  output : Int := 0
  /-- `c->error`. -/
  error : Bool := false
  /-- `r->buffered` or `c->buffered`. -/
  buffered : Bool := false
  /-- How the special response, or the handler that is writing, goes on. -/
  ending : Ending := .finished
  /-- The special response is an internal redirect, which zeroes `r->ctx`. -/
  redirected : Bool := false
deriving DecidableEq, Repr

/-- A client connection with its login request. -/
structure Conn where
  started : Bool := false
  closed : Bool := false
  crashed : Bool := false
  /-- `ngx_http_subrequest` has failed after it made the new subrequest the active one. -/
  derailed : Bool := false
  /-- `c->data`. -/
  data : Option Nat := none
  /-- `headers_out.status` of the main request. -/
  status : Nat := 0
  readHandler : ReadHandler := .blockReading
  writeHandler : WriteHandler := .empty
  ctx : Option LoginCtx := none
  /-- `r->postponed` of the main request. -/
  postponed : List Nat := []
  /-- `r->main->posted_requests`. -/
  posted : List (Option Nat) := []
  /-- `r->main->count`. -/
  count : Nat := 1
  subs : List Sub := []
  log : List Entry := []
deriving DecidableEq, Repr

namespace Conn

/-- A worker that accesses a null pointer is gone. -/
def crash (conn : Conn) : Conn := { conn with crashed := true }

/-- `ngx_http_finalize_connection`, with `ngx_http_close_request`. -/
def finalizeConnection (conn : Conn) : Conn :=
  if conn.count = 1 then { conn with count := 0, closed := true }
  else { conn with count := conn.count - 1 }

/-- `ngx_http_terminate_request`; the cleanup handlers release the upstreams. -/
def terminate (conn : Conn) : Conn :=
  { conn with
    subs := conn.subs.map fun sub => { sub with outstanding := false }
    posted := [none]
    writeHandler := .terminate }

/-- `ngx_http_terminate_handler`. -/
def terminateHandler (conn : Conn) : Conn := finalizeConnection { conn with count := 1 }

/-- Nginx's own handlers take the answer as far as they get. -/
def answer (ending : Ending) (conn : Conn) : Conn :=
  match ending with
  | .finished =>
      finalizeConnection { conn with readHandler := .blockReading, writeHandler := .empty }
  | .writing => { conn with readHandler := .blockReading, writeHandler := .nginx }
  | .failed => conn.terminate

/-- `ngx_http_special_response_handler` and the finalization with its result. The page
is held back, and the request goes on writing, while a subrequest is active. -/
def specialResponse (choices : Choices) (conn : Conn) : Conn :=
  answer (if conn.data ≠ none ∧ choices.ending = .finished then .writing else choices.ending)
    { conn with ctx := if choices.redirected then none else conn.ctx }

/-- Codes on which `ngx_http_finalize_request` makes a response itself. -/
def isSpecial (rc : Int) : Bool := 300 ≤ rc || rc == 201 || rc == 204

/-- Codes on which `ngx_http_finalize_request` drops the connection. -/
def isFatal (rc : Int) : Bool := rc == ngxError || rc == 408 || rc == 499

/-- `ngx_http_finalize_request` of the main request. -/
def finalizeRequest (choices : Choices) (rc : Int) (conn : Conn) : Conn :=
  if rc = ngxDone then conn.finalizeConnection
  else if rc = ngxDeclined then { conn with writeHandler := .nginx }
  else if isFatal rc || choices.error then conn.terminate
  else if isSpecial rc then
    if rc = 444 then conn.terminate else conn.specialResponse choices
  else if choices.buffered || !conn.postponed.isEmpty then { conn with writeHandler := .nginx }
  else if conn.data ≠ none then conn
  else finalizeConnection { conn with readHandler := .blockReading, writeHandler := .empty }

/-- `c->data == r && r->postponed == NULL`: a new subrequest becomes the active one. -/
def unoccupied (conn : Conn) : Bool := conn.data.isNone && conn.postponed.isEmpty

/-- `ngx_http_subrequest` from the main request with
`NGX_HTTP_SUBREQUEST_IN_MEMORY`: what it leaves, and whether it returns `NGX_OK`. -/
def subrequest (choices : Choices) (location : Location) (args : Bytes) (conn : Conn) :
    Conn × Bool :=
  if 65535 - 1000 ≤ conn.count then (conn, false)
  else
    let created : Conn := { conn with
      subs := conn.subs ++ [{ location, args, outstanding := true }]
      data := if conn.unoccupied then some conn.subs.length else conn.data }
    let counted : Conn := { created with
      postponed := conn.postponed ++ [conn.subs.length]
      count := conn.count + 1 }
    match choices.sub with
    | .enough => ({ counted with posted := conn.posted ++ [some conn.subs.length] }, true)
    | .noRequest => (conn, false)
    -- A subrequest that is in no list and not active is out of reach.
    | .noPostponed => (if conn.unoccupied then { created with derailed := true } else conn, false)
    | .noPosted => ({ counted with derailed := true }, false)

/-- `ngx_http_post_request` of the main request; when its allocation fails the
request is terminated. -/
def wakeParent (posted : Bool) (conn : Conn) : Conn :=
  if posted then { conn with posted := conn.posted ++ [none] }
  else terminate { conn with count := conn.count + 1 }

/-- `ngx_http_finalize_request` of a subrequest. The module's completion handler
runs first, and its `NGX_OK` replaces the code. -/
def finalizeSub (handler : Completion → Conn → Conn) (index : Nat) (completion : Completion)
    (error posted : Bool) (conn : Conn) : Conn :=
  let conn := handler completion conn
  if error then conn.terminate
  else
    let conn := { conn with
      subs := conn.subs.modify index fun sub => { sub with outstanding := false } }
    if conn.data = some index then
      wakeParent posted { conn with
        count := conn.count - 1
        postponed := if conn.postponed.head? = some index then conn.postponed.tail
          else conn.postponed
        data := none }
    else wakeParent posted conn

/-! ## What the operations leave alone -/

variable (conn : Conn) (choices : Choices)

/-- Finalizing a request leaves its history as it was, and its subrequests but for their
being released. -/
structure Finalizes (before after : Conn) : Prop where
  log : after.log = before.log
  derailed : after.derailed = before.derailed
  subs : after.subs = before.subs ∨
    after.subs = before.subs.map fun sub => { sub with outstanding := false }

/-- Closing the connection leaves the subrequests. -/
theorem finalizes_finalizeConnection : Finalizes conn conn.finalizeConnection := by
  unfold finalizeConnection
  split
  · exact ⟨rfl, rfl, .inl rfl⟩
  · exact ⟨rfl, rfl, .inl rfl⟩

/-- Terminating the request releases all of them. -/
theorem finalizes_terminate : Finalizes conn conn.terminate := ⟨rfl, rfl, .inr rfl⟩

/-- Answering ends, goes on, or terminates the request. -/
theorem finalizes_answer (ending : Ending) : Finalizes conn (conn.answer ending) := by
  cases ending with
  | finished =>
      obtain ⟨log, derailed, subs⟩ := finalizes_finalizeConnection
        { conn with readHandler := .blockReading, writeHandler := .empty }
      exact ⟨log, derailed, subs⟩
  | writing => exact ⟨rfl, rfl, .inl rfl⟩
  | failed => exact finalizes_terminate conn

/-- **Every way of finalizing** is one of these. -/
theorem finalizes_finalizeRequest (rc : Int) :
    Finalizes conn (conn.finalizeRequest choices rc) := by
  unfold finalizeRequest
  split
  · exact finalizes_finalizeConnection conn
  · split
    · exact ⟨rfl, rfl, .inl rfl⟩
    · split
      · exact finalizes_terminate conn
      · split
        · split
          · exact finalizes_terminate conn
          · obtain ⟨log, derailed, subs⟩ := finalizes_answer
              { conn with ctx := if choices.redirected then none else conn.ctx }
              (if conn.data ≠ none ∧ choices.ending = .finished then .writing
                else choices.ending)
            exact ⟨log, derailed, subs⟩
        · split
          · exact ⟨rfl, rfl, .inl rfl⟩
          · split
            · exact ⟨rfl, rfl, .inl rfl⟩
            · exact finalizes_answer conn .finished

/-- Finalizing makes no subrequest outstanding. -/
theorem Finalizes.outstanding_le {before after : Conn} (finalizes : Finalizes before after) :
    after.subs.countP Sub.outstanding ≤ before.subs.countP Sub.outstanding := by
  rcases finalizes.subs with same | released
  · exact Nat.le_of_eq (congrArg (List.countP Sub.outstanding) same)
  · rw [released, List.countP_map]
    apply List.countP_mono_left
    intro sub _ outstanding
    cases outstanding

@[simp] theorem finalizeConnection_log : conn.finalizeConnection.log = conn.log :=
  (finalizes_finalizeConnection conn).log

@[simp] theorem terminate_log : conn.terminate.log = conn.log := rfl

@[simp] theorem terminateHandler_log : conn.terminateHandler.log = conn.log :=
  finalizeConnection_log _

@[simp] theorem answer_log (ending : Ending) : (conn.answer ending).log = conn.log :=
  (finalizes_answer conn ending).log

@[simp] theorem finalizeRequest_log (rc : Int) :
    (conn.finalizeRequest choices rc).log = conn.log :=
  (finalizes_finalizeRequest conn choices rc).log

variable (location : Location) (args : Bytes)

/-- A subrequest is not in the history before something has become of it. -/
@[simp] theorem subrequest_log : (conn.subrequest choices location args).1.log = conn.log := by
  unfold subrequest
  split
  · rfl
  · dsimp only
    split
    · rfl
    · rfl
    · split
      · rfl
      · rfl
    · rfl

/-- A call of `ngx_http_subrequest` that fails has changed nothing, or it has derailed the
connection with its subrequest. -/
theorem subrequest_failed (failed : (conn.subrequest choices location args).2 = false) :
    (conn.subrequest choices location args).1 = conn ∨
      ((conn.subrequest choices location args).1.derailed = true ∧
        (conn.subrequest choices location args).1.subs =
          conn.subs ++ [⟨location, args, true⟩]) := by
  unfold subrequest at failed ⊢
  split
  · exact .inl rfl
  · rename_i room
    simp only [if_neg room] at failed ⊢
    split
    · rename_i enough
      rw [enough] at failed
      cases failed
    · exact .inl rfl
    · split
      · exact .inr ⟨rfl, rfl⟩
      · exact .inl rfl
    · exact .inr ⟨rfl, rfl⟩

/-- A subrequest that is started is outstanding and, in a request that waits for nothing,
active. -/
theorem subrequest_started (started : (conn.subrequest choices location args).2 = true) :
    (conn.subrequest choices location args).1 = { conn with
      subs := conn.subs ++ [{ location, args, outstanding := true }]
      data := if conn.unoccupied then some conn.subs.length else conn.data
      postponed := conn.postponed ++ [conn.subs.length]
      count := conn.count + 1
      posted := conn.posted ++ [some conn.subs.length] } := by
  unfold subrequest at started ⊢
  split
  · rename_i full
    rw [if_pos full] at started
    cases started
  · rename_i room
    simp only [if_neg room] at started
    cases memory : choices.sub with
    | enough => rfl
    | noRequest | noPostponed | noPosted =>
        rw [memory] at started
        cases started

end Conn

end HttpBackEnd.Nginx
