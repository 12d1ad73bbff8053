import HttpBackEnd.Login.Flow

/-! # Every connection follows the flow

One lemma says what each handler can do, one what finalizing does to a connection
with nothing outstanding, and one for each stage what an event makes of it.
-/

namespace HttpBackEnd.Login

open Nginx Json

variable {promise : Promise} {conf : Conf} {choices : Choices} {conn next : Conn}

/-! ## Finalizing -/

/-- A derailed connection stays derailed when it is finalized, with no more subrequests. -/
theorem Over.of_finalizes (gone : conn.derailed = true ∧ conn.subs.countP Sub.outstanding ≤ 1)
    (finalizes : conn.Finalizes next) : Over next :=
  .inr ⟨finalizes.derailed.trans gone.1, Nat.le_trans finalizes.outstanding_le gone.2⟩

/-- Closing a connection that is quiet leaves it quiet. -/
theorem Quiet.finalizeConnection (gone : Quiet conn) : Quiet conn.finalizeConnection := by
  unfold Conn.finalizeConnection
  split
  · exact ⟨gone.released, .inl rfl⟩
  · exact ⟨gone.released, gone.quiet⟩

/-- Closing a connection that is over leaves it over. -/
theorem Over.finalizeConnection (gone : Over conn) : Over conn.finalizeConnection := by
  rcases gone with gone | gone
  · exact .inl gone.finalizeConnection
  · exact .of_finalizes gone (Conn.finalizes_finalizeConnection conn)

/-- A terminated request waits for its handler only. -/
theorem quiet_terminate (conn : Conn) : Quiet conn.terminate := by
  constructor
  · intro sub member
    obtain ⟨original, _, rfl⟩ := List.mem_map.mp member
    rfl
  · exact .inr (.inr (.inl ⟨rfl, rfl⟩))

theorem over_terminate (conn : Conn) : Over conn.terminate := .inl (quiet_terminate conn)

/-- The handler of a terminated request closes the connection. -/
theorem quiet_terminateHandler (released : ∀ sub ∈ conn.subs, sub.outstanding = false) :
    Quiet conn.terminateHandler :=
  ⟨released, .inl rfl⟩

/-- Nothing of the request is outstanding or waiting to run. -/
structure Settled (conn : Conn) : Prop where
  released : ∀ sub ∈ conn.subs, sub.outstanding = false
  started : conn.started = true
  posted : conn.posted = []
  data : conn.data = none

/-- Without subrequests the answering of nginx is quiet. -/
theorem Settled.answer (settled : Settled conn) (ending : Ending) :
    Quiet (conn.answer ending) := by
  obtain ⟨released, started, posted, data⟩ := settled
  cases ending with
  | finished =>
      apply Quiet.finalizeConnection
      exact ⟨released, .inr (.inr (.inr ⟨started, posted, data, rfl, .inl rfl⟩))⟩
  | writing => exact ⟨released, .inr (.inr (.inr ⟨started, posted, data, rfl, .inr rfl⟩))⟩
  | failed => exact quiet_terminate conn

/-- Finalizing a settled request ends the module's part in it. With `NGX_DONE` only
the last reference does. -/
theorem Settled.finalizeRequest (settled : Settled conn) {rc : Int}
    (reading : conn.readHandler = .blockReading ∨ 300 ≤ rc)
    (counted : rc = ngxDone → conn.count = 1) : Quiet (conn.finalizeRequest choices rc) := by
  have gone : ∀ writeHandler, writeHandler = WriteHandler.empty ∨ writeHandler = .nginx →
      conn.readHandler = .blockReading → Quiet { conn with writeHandler } := by
    intro writeHandler own block
    exact ⟨settled.released,
      .inr (.inr (.inr ⟨settled.started, settled.posted, settled.data, block, own⟩))⟩
  have block : ¬ 300 ≤ rc → conn.readHandler = .blockReading := by
    intro small
    rcases reading with block | special
    · exact block
    · exact absurd special small
  unfold Conn.finalizeRequest
  split
  · rename_i done
    rw [Conn.finalizeConnection, if_pos (counted done)]
    exact ⟨settled.released, .inl rfl⟩
  · split
    · rename_i declined
      exact gone .nginx (.inr rfl) (block (by rw [declined]; decide))
    · split
      · exact quiet_terminate conn
      · split
        · split
          · exact quiet_terminate conn
          · refine Settled.answer ?_ _
            exact ⟨settled.released, settled.started, settled.posted, settled.data⟩
        · rename_i plain
          have small : ¬ 300 ≤ rc := by
            intro special
            exact plain (by simp [Conn.isSpecial, special])
          split
          · exact gone .nginx (.inr rfl) (block small)
          · split
            · rename_i active
              exact absurd settled.data active
            · exact Settled.answer settled .finished

/-- What a handler finalizes: the connection it was given, with the context it may have
allocated, or one that a failure of `ngx_http_subrequest` has derailed. -/
def LeftBy (conn left : Conn) : Prop :=
  left.log = conn.log ∧ ((∃ ctx, left = { conn with ctx }) ∨
    left.derailed = true ∧ ∃ sub, left.subs = conn.subs ++ [sub])

/-- A handler has made its context before it asks for a subrequest. -/
theorem leftBy_ctx (conn : Conn) (ctx : Option LoginCtx) : LeftBy conn { conn with ctx } :=
  ⟨rfl, .inl ⟨ctx, rfl⟩⟩

/-- Finalizing what a handler leaves of a settled request ends the flow. -/
theorem Settled.finalizeLeft (settled : Settled conn) {left : Conn} (leaves : LeftBy conn left)
    {rc : Int} (reading : conn.readHandler = .blockReading ∨ 300 ≤ rc)
    (counted : rc = ngxDone → conn.count = 1) : Over (left.finalizeRequest choices rc) := by
  obtain ⟨_, ⟨ctx, rfl⟩ | ⟨derailed, sub, subs⟩⟩ := leaves
  · left
    apply Settled.finalizeRequest
    · exact ⟨settled.released, settled.started, settled.posted, settled.data⟩
    · exact reading
    · exact counted
  · refine .of_finalizes ⟨derailed, ?_⟩ (Conn.finalizes_finalizeRequest left choices rc)
    have before : conn.subs.countP Sub.outstanding = 0 :=
      List.countP_eq_zero.mpr fun other member => by simp [settled.released other member]
    rw [subs, List.countP_append, before, Nat.zero_add]
    exact List.countP_le_length

/-! ## What the handlers can do -/

theorem request_cases (choices : Choices) (location : Location) (args : Bytes)
    (reads : List Act) (conn : Conn) :
    (∃ left, LeftBy conn left ∧ request choices location args reads conn =
      (left.finalizeRequest choices 500, reads ++ [.finalize 500])) ∨
    (choices.args = false ∧
      request choices location args reads conn = (conn.crash, reads ++ [.crash])) ∨
    (∃ next, conn.subrequest choices location args = (next, true) ∧
      request choices location args reads conn =
        (next, reads ++ [.subrequest location args])) := by
  unfold request
  cases allocated : choices.args with
  | false => exact .inr (.inl ⟨rfl, rfl⟩)
  | true =>
      cases created : conn.subrequest choices location args with
      | mk left ok =>
          cases ok with
          | true => exact .inr (.inr ⟨left, rfl, rfl⟩)
          | false =>
              refine .inl ⟨left, ?_, rfl⟩
              have log := conn.subrequest_log choices location args
              have failed := conn.subrequest_failed choices location args (by rw [created])
              rw [created] at log failed
              rcases failed with same | ⟨derailed, subs⟩
              · exact ⟨log, .inl ⟨conn.ctx, same⟩⟩
              · exact ⟨log, .inr ⟨derailed, _, subs⟩⟩

/-- The login handler finalizes with 500, faults, or starts the WX subrequest. -/
theorem customerManagerLoginHandler_cases (conf : Conf) {choices : Choices} {bufs : List Buf}
    (conn : Conn) (buffered : promise.fault ∨ bufs ≠ []) (meets : choicesMeet promise choices) :
    (∃ acts left, LeftBy conn left ∧ customerManagerLoginHandler conf choices bufs conn =
        (left.finalizeRequest choices 500, acts) ∧ Quits promise.fault 500 acts) ∨
    (∃ acts ctx, customerManagerLoginHandler conf choices bufs conn =
        (Conn.crash { conn with ctx }, acts) ∧ Quits promise.fault 500 acts) ∨
    (∃ text param ctx next, LoginParam.decode text = some param ∧ param.code ≠ [] ∧
      Conn.subrequest choices .wx (wxArgs conf param.code) { conn with ctx := some ctx } =
        (next, true) ∧
      customerManagerLoginHandler conf choices bufs conn =
        (next, [.decodeBody text, .subrequest .wx (wxArgs conf param.code)])) := by
  have quits : ∀ reads, (reads = [] ∨ ∃ text, reads = [Act.decodeBody text]) →
      Quits promise.fault 500 (reads ++ [.finalize 500]) := by
    rintro reads (rfl | ⟨text, rfl⟩)
    · exact .finalizes
    · exact .bodyRead text
  have same : LeftBy conn conn := leftBy_ctx conn conn.ctx
  unfold customerManagerLoginHandler
  cases bufs with
  | nil =>
      have fault : promise.fault := buffered.resolve_right fun present => present rfl
      exact .inr (.inl ⟨_, conn.ctx, rfl, .faults fault⟩)
  | cons buf bufs =>
      simp only
      split
      · exact .inl ⟨_, conn, same, rfl, quits [] (.inl rfl)⟩
      · split
        · exact .inl ⟨_, conn, same, rfl, quits _ (.inr ⟨_, rfl⟩)⟩
        · rename_i param decoded
          split
          · exact .inl ⟨_, conn, same, rfl, quits _ (.inr ⟨_, rfl⟩)⟩
          · rename_i present
            split
            · split
              · exact .inl ⟨_, conn, same, rfl, quits _ (.inr ⟨_, rfl⟩)⟩
              · rename_i ctx _
                rcases request_cases choices .wx (wxArgs conf param.code)
                  [.decodeBody buf.memory] { conn with ctx := some ctx } with
                  ⟨left, ⟨log, leaves⟩, failed⟩ | ⟨missing, crashed⟩ | ⟨next, created, started⟩
                · exact .inl ⟨_, left, ⟨log, leaves⟩, failed, quits _ (.inr ⟨_, rfl⟩)⟩
                · have fault : promise.fault :=
                    meets.1.resolve_right fun args => by rw [missing] at args; cases args
                  exact .inr (.inl ⟨_, some ctx, crashed, .bodyFaults fault _⟩)
                · refine .inr (.inr ⟨_, param, ctx, next, decoded, ?_, created, started⟩)
                  simpa using present
            · exact .inl ⟨_, conn, same, rfl, quits _ (.inr ⟨_, rfl⟩)⟩

/-- The father handler passes a status other than 200 on, finalizes with 500, faults,
or starts the redis subrequest with what the WX reply decodes to. -/
theorem wxLoginSubrequestPostFatherHandler_cases (conf : Conf) {choices : Choices} (conn : Conn)
    {ctx : LoginCtx} (allocated : conn.ctx = some ctx) (meets : choicesMeet promise choices) :
    (∃ acts left, LeftBy conn left ∧ wxLoginSubrequestPostFatherHandler conf choices conn =
        (left.finalizeRequest choices (if conn.status = 200 then 500 else conn.status), acts) ∧
      ∀ fault, Quits fault (if conn.status = 200 then 500 else conn.status) acts) ∨
    (conn.status = 200 ∧ ∃ info, WXSessionInfo.decode ctx.wx.bytes = some info ∧
      ((promise.fault ∧ wxLoginSubrequestPostFatherHandler conf choices conn =
          (conn.crash, [.decodeReply ctx.wx, .crash])) ∨
        ∃ next, conn.subrequest choices .redis (redisArgs conf info) = (next, true) ∧
          wxLoginSubrequestPostFatherHandler conf choices conn =
            (next, [.decodeReply ctx.wx, .subrequest .redis (redisArgs conf info)]))) := by
  have same : LeftBy conn conn := leftBy_ctx conn conn.ctx
  unfold wxLoginSubrequestPostFatherHandler
  by_cases status : conn.status = 200
  · simp only [status, ne_eq, not_true_eq_false, ↓reduceIte, allocated, true_and]
    split
    · split
      · exact .inl ⟨_, conn, same, rfl, fun _ => .replyRead ctx.wx⟩
      · rename_i info decoded
        rcases request_cases choices .redis (redisArgs conf info) [.decodeReply ctx.wx] conn with
          ⟨left, leaves, failed⟩ | ⟨missing, crashed⟩ | ⟨next, created, started⟩
        · exact .inl ⟨_, left, leaves, failed, fun _ => .replyRead ctx.wx⟩
        · have fault : promise.fault :=
            meets.1.resolve_right fun args => by rw [missing] at args; cases args
          exact .inr ⟨info, decoded, .inl ⟨fault, crashed⟩⟩
        · exact .inr ⟨info, decoded, .inr ⟨next, created, started⟩⟩
    · exact .inl ⟨_, conn, same, rfl, fun _ => .finalizes⟩
  · simp only [status, ne_eq, not_false_eq_true, ↓reduceIte]
    exact .inl ⟨_, conn, same, rfl, fun _ => .finalizes⟩

/-- `login_done` passes a status other than 200 on, or answers with the openid of the
WX reply, which has been decoded before. -/
theorem loginDone_cases {choices : Choices} (conn : Conn) {ctx : LoginCtx} {window : Bytes}
    {info : WXSessionInfo} (allocated : conn.ctx = some ctx) (recorded : ctx.wx = .written window)
    (decoded : WXSessionInfo.decode window = some info) (meets : choicesMeet promise choices) :
    (conn.status ≠ 200 ∧ loginDone choices conn =
      (conn.finalizeRequest choices conn.status, [.finalize conn.status])) ∨
    (conn.status = 200 ∧ ∃ rc acts,
      loginDone choices conn = (conn.finalizeRequest choices rc, acts) ∧
      Answers promise window info acts) := by
  unfold loginDone
  by_cases status : conn.status = 200
  · have same : { conn with status := 200, ctx := some ctx } = conn := by
      rw [← status, ← allocated]
    refine .inr ⟨status, ?_⟩
    simp only [status, ne_eq, not_true_eq_false, ↓reduceIte, allocated, recorded, Slot.bytes,
      decoded]
    split
    · exact ⟨choices.header, _, by rw [finalize, same]; rfl, .headerOnly choices.header meets.2⟩
    · rename_i accepted
      have sent : ¬ 0 < choices.header ∧ choices.header ≠ ngxError :=
        ⟨fun positive => accepted (.inr (.inl positive)), fun error => accepted (.inl error)⟩
      split
      · exact ⟨choices.output, _, by rw [finalize, same]; rfl, .body _ _ meets.2 sent⟩
      · exact ⟨500, _, by rw [finalize, same]; rfl, .noBuffer _ meets.2 sent⟩
  · refine .inl ⟨status, ?_⟩
    simp only [status, ne_eq, not_false_eq_true, ↓reduceIte]
    rfl

/-! ## The stages -/

/-- The history says nothing about whether a connection is over. -/
theorem Over.withLog (gone : Over conn) (log : List Entry) : Over { conn with log } := by
  rcases gone with gone | gone
  · exact .inl ⟨gone.released, gone.quiet⟩
  · exact .inr gone

/-- The first subrequest of a settled request becomes active and is posted. -/
theorem subrequest_eq {location : Location} {args : Bytes}
    (created : conn.subrequest choices location args = (next, true)) (data : conn.data = none)
    (postponed : conn.postponed = []) :
    next = { conn with
      subs := conn.subs ++ [{ location, args, outstanding := true }]
      data := some conn.subs.length
      postponed := [conn.subs.length]
      count := conn.count + 1
      posted := conn.posted ++ [some conn.subs.length] } := by
  have started := conn.subrequest_started choices location args (by rw [created])
  rw [created] at started
  simpa [Conn.unoccupied, data, postponed] using started

/-- Handing the body over ends the request or starts the WX exchange. -/
theorem handOver_cases (conf : Conf) (readHandler : ReadHandler) (count : Nat) {bufs : List Buf}
    (buffered : promise.fault ∨ bufs ≠ []) (meets : choicesMeet promise choices)
    (handed : handOver conf choices bufs { started := true, readHandler, count } = next) :
    (Trail promise conf next.log .ended ∧ Over next) ∨
    (Trail promise conf next.log .wx ∧ ∃ ctx args, next =
      { started := true, data := some 0, ctx := some ctx, postponed := [0], posted := [some 0]
        count := count + 1, subs := [⟨.wx, args, true⟩], log := next.log }) := by
  unfold handOver record at handed
  rcases customerManagerLoginHandler_cases conf { started := true, count } buffered meets with
    ⟨acts, left, leaves, result, quits⟩ | ⟨acts, ctx, result, quits⟩ |
    ⟨text, param, ctx, created, decoded, present, started, result⟩
  · rw [result] at handed
    subst handed
    left
    constructor
    · simp only [Conn.finalizeRequest_log, leaves.1, List.nil_append]
      exact .loginQuits quits
    · apply Over.withLog
      simp only
      refine Settled.finalizeLeft ?_ leaves ?_ ?_
      · exact ⟨by simp, rfl, rfl, rfl⟩
      · exact .inr (by decide)
      · intro done
        cases done
  · rw [result] at handed
    subst handed
    left
    exact ⟨.loginQuits quits, .inl ⟨by simp [Conn.crash], .inr (.inl rfl)⟩⟩
  · rw [result, subrequest_eq started rfl rfl] at handed
    subst handed
    right
    exact ⟨.login decoded present, ctx, _, rfl⟩

/-- A request that nginx refuses itself is over. -/
theorem refuse_follows {rc : Int} (special : 300 ≤ rc) (readHandler : ReadHandler) :
    Follows promise conf (refuse choices rc { started := true, readHandler }) := by
  refine ⟨.ended, ?_, .inl ?_⟩
  · unfold refuse
    rw [Conn.finalizeRequest_log]
    exact .refused rc special
  · left
    apply Settled.finalizeRequest
    · exact ⟨by simp, rfl, rfl, rfl⟩
    · exact .inr special
    · intro _
      rfl

/-- The content phase refuses the request, waits for its body, or hands it over; the
reference it drops at the end is never the last one while a subrequest runs. -/
theorem contentPhase_follows {post : Bool} {body : BodyOutcome} (readable : bodyMeets promise body)
    (meets : choicesMeet promise choices) :
    Follows promise conf (contentPhase conf post body choices {}) := by
  unfold contentPhase
  cases post with
  | false => exact refuse_follows (by decide) .blockReading
  | true =>
      cases body with
      | pending => exact ⟨.start, .start, .inl ⟨true, .readClientRequestBody, by simp, rfl⟩⟩
      | failed rc =>
          simp only [↓reduceIte]
          split
          · rename_i special
            exact refuse_follows special .blockReading
          · exact ⟨.start, .start, .inl ⟨true, .blockReading, by simp, rfl⟩⟩
      | complete bufs =>
          have cases := handOver_cases conf .blockReading 2 readable meets rfl
          simp only [↓reduceIte, Nat.reduceAdd]
          generalize handOver conf choices bufs { started := true, count := 2 } = handed at cases ⊢
          rcases cases with ⟨trail, gone⟩ | ⟨trail, ctx, args, same⟩
          · refine ⟨.ended, ?_, .inl ?_⟩
            · split
              · exact trail
              · rwa [Conn.finalizeRequest_log]
            · split
              · exact gone
              · exact gone.finalizeConnection
          · refine ⟨.wx, ?_, .inl ⟨ctx, args, [some 0], .inr rfl, ?_⟩⟩
            · split
              · exact trail
              · rwa [Conn.finalizeRequest_log]
            · rw [same]
              rfl

/-- A wake-up for reading hands the body over, or refuses the request. -/
theorem readMain_follows {body : BodyOutcome} (readable : bodyMeets promise body)
    (meets : choicesMeet promise choices) (readHandler : ReadHandler) :
    Follows promise conf (readMain conf body choices { started := true, readHandler }) := by
  have unchanged : Follows promise conf { started := true, readHandler } :=
    ⟨.start, .start, .inl ⟨true, readHandler, by simp, rfl⟩⟩
  unfold readMain
  split
  · split
    · rename_i special
      exact refuse_follows special readHandler
    · exact unchanged
  · rename_i bufs reading
    rcases handOver_cases conf readHandler 1 readable meets rfl with
      ⟨trail, gone⟩ | ⟨trail, ctx, args, same⟩
    · exact ⟨.ended, trail, .inl gone⟩
    · exact ⟨.wx, trail, .inl ⟨ctx, args, [some 0], .inr rfl, same⟩⟩
  · exact unchanged

/-- Before the body is handed over. -/
theorem start_step {event : Event} (meets : event.Meets promise) (agrees : Agrees conn .start)
    (stepped : step conf conn event = some next) : Follows promise conf next := by
  obtain ⟨started, readHandler, block, rfl⟩ := agrees
  simp only [step, Bool.or_self, Bool.false_eq_true, ↓reduceIte] at stepped
  cases event with
  | start post body choices =>
      cases started with
      | true => simp [external] at stepped
      | false =>
          obtain rfl := block rfl
          cases stepped
          exact contentPhase_follows meets.1 meets.2
  | clientRead body sub choices =>
      cases started with
      | false => cases stepped
      | true =>
          cases stepped
          exact readMain_follows meets.1 meets.2.2 readHandler
  | clientWrite sub choices =>
      cases started with
      | false => cases stepped
      | true =>
          cases stepped
          exact ⟨.start, .start, .inl ⟨true, readHandler, block, rfl⟩⟩
  | upstream index sub => simp [external] at stepped
  | posted sub choices => cases stepped
  | close =>
      cases started with
      | false => cases stepped
      | true =>
          cases stepped
          exact ⟨.start, .start, .inr ⟨meets, over_terminate _⟩⟩

/-- After the module's part has ended. -/
theorem quiet_step {event : Event} (gone : Quiet conn)
    (stepped : step conf conn event = some next) : Quiet next ∧ next.log = conn.log := by
  unfold step at stepped
  split at stepped
  · cases stepped
  · rename_i alive
    obtain ⟨released, quiet⟩ := gone
    rcases quiet with closed | crashed | ⟨posted, handler⟩ |
      ⟨started, posted, data, block, handler⟩
    · exact absurd (by rw [closed]; simp) alive
    · exact absurd (by rw [crashed]; simp) alive
    · rw [posted] at stepped
      cases event with
      | posted sub choices =>
          simp only [writeMain, handler, Option.some.injEq] at stepped
          subst stepped
          exact ⟨quiet_terminateHandler released, by simp⟩
      | _ => cases stepped
    · have settled : Settled conn := ⟨released, started, posted, data⟩
      rw [posted] at stepped
      cases event with
      | start post body choices => simp [external, started] at stepped
      | clientRead body sub choices =>
          simp only [external, started, ↓reduceIte, data, readMain, block, Option.some.injEq]
            at stepped
          subst stepped
          exact ⟨⟨released, .inr (.inr (.inr ⟨started, posted, data, block, handler⟩))⟩, rfl⟩
      | clientWrite sub choices =>
          simp only [external, started, ↓reduceIte, data, writeMain, Option.some.injEq] at stepped
          rcases handler with handler | handler
          · rw [handler] at stepped
            subst stepped
            exact ⟨⟨released, .inr (.inr (.inr ⟨started, posted, data, block, .inl handler⟩))⟩, rfl⟩
          · rw [handler] at stepped
            subst stepped
            exact ⟨settled.answer choices.ending, by simp⟩
      | upstream index sub =>
          simp only [external] at stepped
          split at stepped
          · rename_i sub found
            have member := List.mem_of_getElem? found
            rw [released sub member] at stepped
            cases stepped
          · cases stepped
      | posted sub choices => cases stepped
      | close =>
          simp only [external, started, ↓reduceIte, Option.some.injEq] at stepped
          subst stepped
          exact ⟨quiet_terminate _, rfl⟩

/-- **What is over stays over**, and no function of the module runs again. -/
theorem over_step {event : Event} (gone : Over conn) (stepped : step conf conn event = some next) :
    Over next ∧ next.log = conn.log := by
  rcases gone with gone | ⟨derailed, _⟩
  · obtain ⟨gone, same⟩ := quiet_step gone stepped
    exact ⟨.inl gone, same⟩
  · simp [step, derailed] at stepped

/-- While a subrequest is outstanding every wake-up is one of its own events, or the
connection is dropped. -/
theorem outstanding_step {event : Event} (meets : event.Meets promise) {index : Nat}
    (started : conn.started = true) (data : conn.data = some index)
    (posted : postedOnly index conn.posted)
    (only : ∀ other sub, conn.subs[other]? = some sub → sub.outstanding = true → other = index)
    (stepped : step conf conn event = some next) :
    (∃ outcome : SubOutcome, outcome.Meets promise ∧
      next = runSub index outcome { conn with posted := [] }) ∨
    (promise.drop ∧ Over next ∧ next.log = conn.log) := by
  unfold step at stepped
  split at stepped
  · cases stepped
  · rcases posted with none | one
    · have same : { conn with posted := [] } = conn := by rw [← none]
      rw [none] at stepped
      cases event with
      | start post body choices => simp [external, started] at stepped
      | clientRead body sub choices =>
          simp only [external, started, ↓reduceIte, data, Option.some.injEq] at stepped
          exact .inl ⟨sub, meets.2.1, by rw [same, stepped]⟩
      | clientWrite sub choices =>
          simp only [external, started, ↓reduceIte, data, Option.some.injEq] at stepped
          exact .inl ⟨sub, meets.1, by rw [same, stepped]⟩
      | upstream other sub =>
          simp only [external] at stepped
          split at stepped
          · rename_i running found
            split at stepped
            · rename_i outstanding
              cases stepped
              obtain rfl := only other running found outstanding
              exact .inl ⟨sub, meets, by rw [same]⟩
            · cases stepped
          · cases stepped
      | posted sub choices => cases stepped
      | close =>
          simp only [external, started, ↓reduceIte, Option.some.injEq] at stepped
          subst stepped
          exact .inr ⟨meets, over_terminate _, rfl⟩
    · rw [one] at stepped
      cases event with
      | posted sub choices =>
          cases stepped
          exact .inl ⟨sub, meets.1, rfl⟩
      | _ => cases stepped

/-- A completion that keeps a promise of no drops wakes the main request. -/
theorem SubOutcome.Meets.drop {completion : Completion} {error posted : Bool}
    (meets : (SubOutcome.complete completion error posted).Meets promise)
    (lost : error = true ∨ posted = false) : promise.drop := by
  rcases meets.2 with drop | ⟨rfl, rfl⟩
  · exact drop
  · rcases lost with error | unposted
    · cases error
    · cases unposted

/-- The WX exchange. -/
theorem wx_step {event : Event} (meets : event.Meets promise)
    (trail : Trail promise conf conn.log .wx) (agrees : Agrees conn .wx)
    (stepped : step conf conn event = some next) : Follows promise conf next := by
  obtain ⟨ctx, args, posted, one, same⟩ := agrees
  generalize conn.log = log at trail same
  subst same
  rcases outstanding_step meets rfl rfl one (by
      intro other sub found outstanding
      simpa [List.getElem?_singleton] using List.getElem?_eq_some_iff.mp found |>.1)
    stepped with ⟨outcome, allowed, rfl⟩ | ⟨drop, gone, same⟩
  · cases outcome with
    | pending => exact ⟨.wx, trail, .inl ⟨ctx, args, [], .inl rfl, rfl⟩⟩
    | complete completion error posted =>
        have completed := trail.wxCompletes completion allowed.1
        cases error with
        | true => exact ⟨_, completed, .inr ⟨allowed.drop (.inl rfl), over_terminate _⟩⟩
        | false =>
            cases posted with
            | false => exact ⟨_, completed, .inr ⟨allowed.drop (.inr rfl), over_terminate _⟩⟩
            | true =>
                refine ⟨_, completed, .inl ?_⟩
                by_cases status : completion.status = 200
                · refine ⟨{ ctx with wx := .written completion.window }, args, fun _ => rfl, ?_⟩
                  simp [runSub, Conn.finalizeSub, postSubrequest, wxLoginSubrequestPostHandler,
                    Conn.wakeParent, status]
                · refine ⟨ctx, args, fun ok => absurd ok status, ?_⟩
                  simp [runSub, Conn.finalizeSub, postSubrequest, wxLoginSubrequestPostHandler,
                    Conn.wakeParent, status]
  · exact ⟨.wx, by rw [same]; exact trail, .inr ⟨drop, gone⟩⟩

/-- The redis exchange. -/
theorem redis_step {event : Event} {window : Bytes} {info : WXSessionInfo}
    (meets : event.Meets promise) (trail : Trail promise conf conn.log (.redis window info))
    (agrees : Agrees conn (.redis window info)) (stepped : step conf conn event = some next) :
    Follows promise conf next := by
  obtain ⟨ctx, args, args', posted, recorded, decoded, one, same⟩ := agrees
  generalize conn.log = log at trail same
  subst same
  rcases outstanding_step meets rfl rfl one (by
      intro other sub found outstanding
      match other with
      | 0 =>
          cases found
          cases outstanding
      | 1 => rfl
      | other + 2 => simp at found)
    stepped with ⟨outcome, allowed, rfl⟩ | ⟨drop, gone, same⟩
  · cases outcome with
    | pending =>
        exact ⟨_, trail, .inl ⟨ctx, args, args', [], recorded, decoded, .inl rfl, rfl⟩⟩
    | complete completion error posted =>
        have completed := trail.redisCompletes completion allowed.1
        cases error with
        | true => exact ⟨_, completed, .inr ⟨allowed.drop (.inl rfl), over_terminate _⟩⟩
        | false =>
            cases posted with
            | false => exact ⟨_, completed, .inr ⟨allowed.drop (.inr rfl), over_terminate _⟩⟩
            | true =>
                refine ⟨_, completed, .inl ?_⟩
                by_cases status : completion.status = 200
                · refine ⟨{ ctx with redis := .written completion.window }, args, args', recorded,
                    decoded, ?_⟩
                  simp [runSub, Conn.finalizeSub, postSubrequest, wxLoginSetRedisSubrequestDone,
                    Conn.wakeParent, status]
                · refine ⟨ctx, args, args', recorded, decoded, ?_⟩
                  simp [runSub, Conn.finalizeSub, postSubrequest, wxLoginSetRedisSubrequestDone,
                    Conn.wakeParent, status]
  · exact ⟨_, by rw [same]; exact trail, .inr ⟨drop, gone⟩⟩

/-- A woken main request runs its write handler and nothing else. -/
theorem woken_step {event : Event} (meets : event.Meets promise) (posted : conn.posted = [none])
    (stepped : step conf conn event = some next) :
    ∃ choices, choicesMeet promise choices ∧
      next = writeMain conf choices { conn with posted := [] } := by
  unfold step at stepped
  split at stepped
  · cases stepped
  · rw [posted] at stepped
    cases event with
    | posted sub choices =>
        cases stepped
        exact ⟨choices, meets.2, rfl⟩
    | _ => cases stepped

/-- The WX exchange is over: the father handler runs. -/
theorem wxDone_step {event : Event} {completion : Completion} (meets : event.Meets promise)
    (trail : Trail promise conf conn.log (.wxDone completion))
    (agrees : Agrees conn (.wxDone completion)) (stepped : step conf conn event = some next) :
    Follows promise conf next := by
  obtain ⟨ctx, args, recorded, same⟩ := agrees
  generalize conn.log = log at trail same
  subst same
  obtain ⟨choices, decided, rfl⟩ := woken_step meets rfl stepped
  simp only [writeMain, record]
  rcases wxLoginSubrequestPostFatherHandler_cases conf
      { started := true, status := completion.status, writeHandler := .father, ctx := some ctx
        subs := [⟨.wx, args, false⟩], log } rfl decided with
    ⟨acts, left, leaves, result, quits⟩ |
    ⟨status, info, decoded, ⟨fault, result⟩ | ⟨after, created, result⟩⟩
  · rw [result]
    refine ⟨.ended, ?_, .inl ?_⟩
    · simp only [Conn.finalizeRequest_log, leaves.1]
      exact trail.fatherQuits (quits _)
    · apply Over.withLog
      simp only
      refine Settled.finalizeLeft ?_ leaves ?_ ?_
      · exact ⟨by simp, rfl, rfl, rfl⟩
      · exact .inl rfl
      · intro _
        rfl
  · rw [result]
    simp only at status
    rw [recorded status] at decoded
    refine ⟨.ended, ?_, .inl (.inl ⟨by simp [Conn.crash], .inr (.inl rfl)⟩)⟩
    exact trail.fatherQuits
      (.replyFaults ⟨fault, status, Option.isSome_iff_exists.mpr ⟨info, decoded⟩⟩ _)
  · rw [result, subrequest_eq created rfl rfl]
    simp only at status
    have written := recorded status
    rw [written] at decoded ⊢
    exact ⟨_, trail.father status decoded,
      .inl ⟨ctx, args, _, [some 1], written, decoded, .inr rfl, by rw [status]; rfl⟩⟩

/-- The redis exchange is over: `login_done` runs. -/
theorem redisDone_step {event : Event} {window : Bytes} {info : WXSessionInfo}
    {completion : Completion} (meets : event.Meets promise)
    (trail : Trail promise conf conn.log (.redisDone window info completion))
    (agrees : Agrees conn (.redisDone window info completion))
    (stepped : step conf conn event = some next) : Follows promise conf next := by
  obtain ⟨ctx, args, args', recorded, decoded, same⟩ := agrees
  generalize conn.log = log at trail same
  subst same
  obtain ⟨choices, decided, rfl⟩ := woken_step meets rfl stepped
  have settled : Settled
      { started := true, status := redisStatus completion, writeHandler := .loginDone
        ctx := some ctx, subs := [⟨.wx, args, false⟩, ⟨.redis, args', false⟩], log } :=
    ⟨by simp, rfl, rfl, rfl⟩
  simp only [writeMain, record]
  rcases loginDone_cases
      { started := true, status := redisStatus completion, writeHandler := .loginDone
        ctx := some ctx, subs := [⟨.wx, args, false⟩, ⟨.redis, args', false⟩], log }
      rfl recorded decoded decided with
    ⟨status, result⟩ | ⟨status, rc, acts, result, answers⟩
  · rw [result]
    refine ⟨.ended, ?_, .inl ?_⟩
    · simp only [Conn.finalizeRequest_log]
      exact trail.doneQuits status
    · exact Over.withLog (.inl (settled.finalizeRequest (.inl rfl) fun _ => rfl)) _
  · rw [result]
    refine ⟨.ended, ?_, .inl ?_⟩
    · simp only [Conn.finalizeRequest_log]
      exact trail.done status answers
    · exact Over.withLog (.inl (settled.finalizeRequest (.inl rfl) fun _ => rfl)) _

/-- Following the flow is kept by every event that keeps the promise. -/
theorem follows_keeps (promise : Promise) (conf : Conf) :
    (connection conf).Keeps (Event.Meets promise) (Follows promise conf) := by
  intro conn event next meets follows stepped
  obtain ⟨stage, trail, agrees | ⟨drop, gone⟩⟩ := follows
  · cases stage with
    | start => exact start_step meets agrees stepped
    | wx => exact wx_step meets trail agrees stepped
    | wxDone completion => exact wxDone_step meets trail agrees stepped
    | redis window info => exact redis_step meets trail agrees stepped
    | redisDone window info completion => exact redisDone_step meets trail agrees stepped
    | ended =>
        obtain ⟨gone, same⟩ := over_step agrees stepped
        exact ⟨.ended, by rw [same]; exact trail, .inl gone⟩
  · obtain ⟨gone, same⟩ := over_step gone stepped
    exact ⟨stage, by rw [same]; exact trail, .inr ⟨drop, gone⟩⟩

/-- Every run of a fresh connection whose events keep the promise follows the flow. -/
theorem follows_run {events : List Event} (meets : ∀ event ∈ events, event.Meets promise)
    (ran : (connection conf).run {} events = some conn) : Follows promise conf conn :=
  (follows_keeps promise conf).run meets
    ⟨.start, .start, .inl ⟨false, .blockReading, fun _ => rfl, rfl⟩⟩ ran

end HttpBackEnd.Login
