import HttpBackEnd.Login.Connection

/-! # The login flow, and that every connection follows it

`Trail` is what the login flow is meant to be, told by the history of one request:
the login handler, the WX exchange, the father handler, the redis exchange and
`login_done`, each at most once and in this order, with the data that passes from
one to the next. A `Promise` says what may be assumed of the environment: the
promise that excludes nothing describes every run.

`Agrees` ties the state of a connection to the stage its trail has reached, and
`follows_run` says that every run of a connection follows a trail. It is the only
result about the event handling that the modules on the flow use.
-/

namespace HttpBackEnd.Login

open Nginx Json

/-- What is assumed of the environment of a run. -/
structure Promise where
  /-- A null pointer may be hit: a body without a buffer, or no memory for arguments. -/
  fault : Prop := True
  /-- The connection may be dropped: `c->close`, `c->error`, or no memory to wake the
  main request. -/
  drop : Prop := True
  /-- The ways a subrequest may complete. -/
  completes : Completion → Prop := fun _ => True
  /-- The results `ngx_http_send_header` may have. -/
  header : Int → Prop := fun _ => True

/-- The outcome of an event of a subrequest keeps the promise. -/
def SubOutcome.Meets (promise : Promise) : SubOutcome → Prop
  | .pending => True
  | .complete completion error posted =>
      promise.completes completion ∧ (promise.drop ∨ error = false ∧ posted = true)

/-- A hand-over of the body keeps the promise. -/
def bodyMeets (promise : Promise) : BodyOutcome → Prop
  | .complete bufs => promise.fault ∨ bufs ≠ []
  | _ => True

/-- The decisions of nginx keep the promise. -/
def choicesMeet (promise : Promise) (choices : Choices) : Prop :=
  (promise.fault ∨ choices.args = true) ∧ promise.header choices.header

/-- An event keeps the promise. -/
def Event.Meets (promise : Promise) : Event → Prop
  | .start _ body choices => bodyMeets promise body ∧ choicesMeet promise choices
  | .clientRead body sub choices =>
      bodyMeets promise body ∧ sub.Meets promise ∧ choicesMeet promise choices
  | .clientWrite sub choices => sub.Meets promise ∧ choicesMeet promise choices
  | .upstream _ sub => sub.Meets promise
  | .posted sub choices => sub.Meets promise ∧ choicesMeet promise choices
  | .close => promise.drop

/-- An invocation that only reads and then finalizes the request with a code, or
faults where that may happen. -/
inductive Quits (fault : Prop) (rc : Int) : List Act → Prop where
  | finalizes : Quits fault rc [.finalize rc]
  | bodyRead (text : Bytes) : Quits fault rc [.decodeBody text, .finalize rc]
  | replyRead (slot : Slot) : Quits fault rc [.decodeReply slot, .finalize rc]
  | faults (possible : fault) : Quits fault rc [.crash]
  | bodyFaults (possible : fault) (text : Bytes) : Quits fault rc [.decodeBody text, .crash]
  | replyFaults (possible : fault) (slot : Slot) : Quits fault rc [.decodeReply slot, .crash]

/-- The father handler gets as far as the arguments of the redis subrequest. -/
def ReachesRedis (completion : Completion) : Prop :=
  completion.status = 200 ∧ (WXSessionInfo.decode completion.window).isSome

/-- The header `login_done` sends for an answer. -/
def answerHeader (info : WXSessionInfo) (rc : Int) : Act :=
  .sendHeader 200 (backParam info).encode.length (ascii "text/json") rc

/-- `login_done` answers with the openid of the WX reply: the header may be all that
is sent, or there may be no memory for the body. -/
inductive Answers (promise : Promise) (window : Bytes) (info : WXSessionInfo) :
    List Act → Prop where
  | headerOnly (rc : Int) (accepted : promise.header rc) : Answers promise window info
      [.decodeReply (.written window), answerHeader info rc, .finalize rc]
  | noBuffer (rc : Int) (accepted : promise.header rc) (sent : ¬ 0 < rc ∧ rc ≠ ngxError) :
      Answers promise window info
        [.decodeReply (.written window), answerHeader info rc, .finalize 500]
  | body (rc result : Int) (accepted : promise.header rc) (sent : ¬ 0 < rc ∧ rc ≠ ngxError) :
      Answers promise window info [.decodeReply (.written window), answerHeader info rc,
        .output (backParam info).encode, .finalize result]

/-- The stages of a login. -/
inductive Stage where
  | start
  | wx
  | wxDone (completion : Completion)
  | redis (window : Bytes) (info : WXSessionInfo)
  | redisDone (window : Bytes) (info : WXSessionInfo) (completion : Completion)
  | ended

/-- The histories of a login request and the stages they lead to. -/
inductive Trail (promise : Promise) (conf : Conf) : List Entry → Stage → Prop where
  | start : Trail promise conf [] .start
  | refused (rc : Int) (special : 300 ≤ rc) : Trail promise conf [.finalized rc] .ended
  | loginQuits {acts : List Act} (quits : Quits promise.fault 500 acts) :
      Trail promise conf [.ran .loginHandler acts] .ended
  | login {text : Bytes} {param : LoginParam} (decoded : LoginParam.decode text = some param)
      (present : param.code ≠ []) :
      Trail promise conf [.ran .loginHandler
        [.decodeBody text, .subrequest .wx (wxArgs conf param.code)]] .wx
  | wxCompletes {log : List Entry} (trail : Trail promise conf log .wx) (completion : Completion)
      (allowed : promise.completes completion) :
      Trail promise conf (log ++ [.completed 0 .wx completion]) (.wxDone completion)
  | fatherQuits {log : List Entry} {completion : Completion} {acts : List Act}
      (trail : Trail promise conf log (.wxDone completion))
      (quits : Quits (promise.fault ∧ ReachesRedis completion)
        (if completion.status = 200 then 500 else completion.status) acts) :
      Trail promise conf (log ++ [.ran .father acts]) .ended
  | father {log : List Entry} {completion : Completion} {info : WXSessionInfo}
      (trail : Trail promise conf log (.wxDone completion)) (status : completion.status = 200)
      (decoded : WXSessionInfo.decode completion.window = some info) :
      Trail promise conf (log ++ [.ran .father [.decodeReply (.written completion.window),
        .subrequest .redis (redisArgs conf info)]]) (.redis completion.window info)
  | redisCompletes {log : List Entry} {window : Bytes} {info : WXSessionInfo}
      (trail : Trail promise conf log (.redis window info)) (completion : Completion)
      (allowed : promise.completes completion) :
      Trail promise conf (log ++ [.completed 1 .redis completion])
        (.redisDone window info completion)
  | doneQuits {log : List Entry} {window : Bytes} {info : WXSessionInfo} {completion : Completion}
      (trail : Trail promise conf log (.redisDone window info completion))
      (status : redisStatus completion ≠ 200) :
      Trail promise conf (log ++ [.ran .loginDone [.finalize (redisStatus completion)]]) .ended
  | done {log : List Entry} {window : Bytes} {info : WXSessionInfo} {completion : Completion}
      {acts : List Act} (trail : Trail promise conf log (.redisDone window info completion))
      (status : redisStatus completion = 200) (answers : Answers promise window info acts) :
      Trail promise conf (log ++ [.ran .loginDone acts]) .ended

/-- The module has no further part in the request: nothing is outstanding, and the
request is closed, being terminated, or in the hands of nginx's own handlers. -/
structure Quiet (conn : Conn) : Prop where
  released : ∀ sub ∈ conn.subs, sub.outstanding = false
  quiet : conn.closed = true ∨ conn.crashed = true ∨
    (conn.posted = [none] ∧ conn.writeHandler = .terminate) ∨
    (conn.started = true ∧ conn.posted = [] ∧ conn.data = none ∧
      conn.readHandler = .blockReading ∧
      (conn.writeHandler = .empty ∨ conn.writeHandler = .nginx))

/-- The flow has ended, or is not followed any further. -/
def Over (conn : Conn) : Prop :=
  Quiet conn ∨ conn.derailed = true ∧ conn.subs.countP Sub.outstanding ≤ 1

/-- The subrequest has run, or is the one posted request. -/
def postedOnly (index : Nat) (posted : List (Option Nat)) : Prop :=
  posted = [] ∨ posted = [some index]

/-- The state of a connection at each stage. -/
def Agrees (conn : Conn) : Stage → Prop
  | .start => ∃ started readHandler, (started = false → readHandler = .blockReading) ∧
      conn = { started, readHandler }
  | .wx => ∃ ctx args posted, postedOnly 0 posted ∧ conn =
      { started := true, data := some 0, ctx := some ctx, postponed := [0], posted, count := 2
        subs := [⟨.wx, args, true⟩], log := conn.log }
  | .wxDone completion => ∃ ctx args,
      (completion.status = 200 → ctx.wx = .written completion.window) ∧ conn =
      { started := true, status := completion.status, writeHandler := .father, ctx := some ctx
        posted := [none], subs := [⟨.wx, args, false⟩], log := conn.log }
  | .redis window info => ∃ ctx args args' posted, ctx.wx = .written window ∧
      WXSessionInfo.decode window = some info ∧ postedOnly 1 posted ∧ conn =
      { started := true, status := 200, data := some 1, writeHandler := .father, ctx := some ctx
        postponed := [1], posted, count := 2
        subs := [⟨.wx, args, false⟩, ⟨.redis, args', true⟩], log := conn.log }
  | .redisDone window info completion => ∃ ctx args args', ctx.wx = .written window ∧
      WXSessionInfo.decode window = some info ∧ conn =
      { started := true, status := redisStatus completion, writeHandler := .loginDone
        ctx := some ctx, posted := [none]
        subs := [⟨.wx, args, false⟩, ⟨.redis, args', false⟩], log := conn.log }
  | .ended => Over conn

/-- A connection follows the flow: its history is a trail, and its state agrees with
the stage reached unless the connection has been dropped. -/
def Follows (promise : Promise) (conf : Conf) (conn : Conn) : Prop :=
  ∃ stage, Trail promise conf conn.log stage ∧
    (Agrees conn stage ∨ promise.drop ∧ Over conn)

/-! ## What a trail has recorded -/

variable {promise : Promise} {conf : Conf} {log : List Entry}

theorem Trail.wx_log (trail : Trail promise conf log .wx) :
    ∃ text param, LoginParam.decode text = some param ∧ param.code ≠ [] ∧
      log = [.ran .loginHandler
        [.decodeBody text, .subrequest .wx (wxArgs conf param.code)]] := by
  cases trail with
  | login decoded present => exact ⟨_, _, decoded, present, rfl⟩

theorem Trail.wxDone_log {completion : Completion}
    (trail : Trail promise conf log (.wxDone completion)) :
    promise.completes completion ∧ ∃ before, Trail promise conf before .wx ∧
      log = before ++ [.completed 0 .wx completion] := by
  cases trail with
  | wxCompletes trail _ allowed => exact ⟨allowed, _, trail, rfl⟩

theorem Trail.redis_log {window : Bytes} {info : WXSessionInfo}
    (trail : Trail promise conf log (.redis window info)) :
    WXSessionInfo.decode window = some info ∧ ∃ before rc,
      Trail promise conf before (.wxDone ⟨rc, 200, window⟩) ∧
      log = before ++ [.ran .father [.decodeReply (.written window),
        .subrequest .redis (redisArgs conf info)]] := by
  cases trail with
  | @father before completion _ trail status decoded =>
      obtain ⟨rc, _, _⟩ := completion
      cases status
      exact ⟨decoded, before, rc, trail, rfl⟩

theorem Trail.redisDone_log {window : Bytes} {info : WXSessionInfo} {completion : Completion}
    (trail : Trail promise conf log (.redisDone window info completion)) :
    promise.completes completion ∧ ∃ before, Trail promise conf before (.redis window info) ∧
      log = before ++ [.completed 1 .redis completion] := by
  cases trail with
  | redisCompletes trail _ allowed => exact ⟨allowed, _, trail, rfl⟩

/-- What the invocations in a history can be, each taken by itself. -/
inductive Invocation (promise : Promise) (conf : Conf) : Function → List Act → Prop where
  | loginQuits {acts : List Act} (quits : Quits promise.fault 500 acts) :
      Invocation promise conf .loginHandler acts
  | login {text : Bytes} {param : LoginParam} (decoded : LoginParam.decode text = some param)
      (present : param.code ≠ []) : Invocation promise conf .loginHandler
        [.decodeBody text, .subrequest .wx (wxArgs conf param.code)]
  | fatherQuits {completion : Completion} {acts : List Act}
      (allowed : promise.completes completion)
      (quits : Quits (promise.fault ∧ ReachesRedis completion)
        (if completion.status = 200 then 500 else completion.status) acts) :
      Invocation promise conf .father acts
  | father {window : Bytes} {info : WXSessionInfo}
      (decoded : WXSessionInfo.decode window = some info) : Invocation promise conf .father
        [.decodeReply (.written window), .subrequest .redis (redisArgs conf info)]
  | doneQuits {completion : Completion} (allowed : promise.completes completion)
      (status : redisStatus completion ≠ 200) :
      Invocation promise conf .loginDone [.finalize (redisStatus completion)]
  | done {window : Bytes} {info : WXSessionInfo} {acts : List Act}
      (decoded : WXSessionInfo.decode window = some info)
      (answers : Answers promise window info acts) : Invocation promise conf .loginDone acts

theorem Trail.invocation {stage : Stage} (trail : Trail promise conf log stage)
    {function : Function} {acts : List Act} (invoked : .ran function acts ∈ log) :
    Invocation promise conf function acts := by
  induction trail with
  | start => simp at invoked
  | refused rc special => simp at invoked
  | loginQuits quits =>
      simp only [List.mem_singleton, Entry.ran.injEq] at invoked
      obtain ⟨rfl, rfl⟩ := invoked
      exact .loginQuits quits
  | login decoded present =>
      simp only [List.mem_singleton, Entry.ran.injEq] at invoked
      obtain ⟨rfl, rfl⟩ := invoked
      exact .login decoded present
  | wxCompletes trail completion allowed ih =>
      simp only [List.mem_append, List.mem_singleton, reduceCtorEq, or_false] at invoked
      exact ih invoked
  | fatherQuits trail quits ih =>
      simp only [List.mem_append, List.mem_singleton, Entry.ran.injEq] at invoked
      rcases invoked with earlier | ⟨rfl, rfl⟩
      · exact ih earlier
      · exact .fatherQuits trail.wxDone_log.1 quits
  | father trail status decoded ih =>
      simp only [List.mem_append, List.mem_singleton, Entry.ran.injEq] at invoked
      rcases invoked with earlier | ⟨rfl, rfl⟩
      · exact ih earlier
      · exact .father decoded
  | redisCompletes trail completion allowed ih =>
      simp only [List.mem_append, List.mem_singleton, reduceCtorEq, or_false] at invoked
      exact ih invoked
  | doneQuits trail status ih =>
      simp only [List.mem_append, List.mem_singleton, Entry.ran.injEq] at invoked
      rcases invoked with earlier | ⟨rfl, rfl⟩
      · exact ih earlier
      · exact .doneQuits trail.redisDone_log.1 status
  | done trail status answers ih =>
      simp only [List.mem_append, List.mem_singleton, Entry.ran.injEq] at invoked
      rcases invoked with earlier | ⟨rfl, rfl⟩
      · exact ih earlier
      · obtain ⟨_, _, earlier, _⟩ := trail.redisDone_log
        exact .done earlier.redis_log.1 answers

theorem Quits.mono {first second : Prop} {rc : Int} {acts : List Act}
    (implies : first → second) (quits : Quits first rc acts) : Quits second rc acts := by
  cases quits with
  | finalizes => exact .finalizes
  | bodyRead text => exact .bodyRead text
  | replyRead slot => exact .replyRead slot
  | faults possible => exact .faults (implies possible)
  | bodyFaults possible text => exact .bodyFaults (implies possible) text
  | replyFaults possible slot => exact .replyFaults (implies possible) slot

/-- An invocation that quits and cannot fault finalizes the request with its code and
does nothing else. -/
theorem Quits.harmless {rc : Int} {acts : List Act} (quits : Quits False rc acts) :
    (∀ location args, .subrequest location args ∉ acts) ∧
    (∀ status length kind result, .sendHeader status length kind result ∉ acts) ∧
    (∀ code, .finalize code ∈ acts → code = rc) ∧ .finalize rc ∈ acts := by
  cases quits with
  | finalizes => simp
  | bodyRead text => simp
  | replyRead slot => simp
  | faults possible => exact possible.elim
  | bodyFaults possible text => exact possible.elim
  | replyFaults possible slot => exact possible.elim

end HttpBackEnd.Login
