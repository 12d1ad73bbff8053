import HttpBackEnd.Login.Success

/-! # Secrets do not reach the client

Two runs under any two configurations, over the same events except that WX replies may
differ where both decode with the same openid, send the client the same headers, bodies
and codes. `hideState` forgets what the two runs may differ in; the operations of nginx
commute with it, and the handlers of the module take states that agree under it to
states that agree under it.
-/

namespace HttpBackEnd.Login

open Nginx Json Transition

/-- The acts that reach the client. -/
def visible : Act → Bool
  | .sendHeader _ _ _ _ => true
  | .output _ => true
  | .finalize _ => true
  | _ => false

/-- What of a history reaches the client. -/
def sentBy : Entry → List Act
  | .ran _ acts => acts.filter visible
  | .completed _ _ _ => []
  | .finalized rc => [.finalize rc]

/-- Everything sent to the client. -/
def sent (log : List Entry) : List Act := log.flatMap sentBy

/-- What of a WX reply may reach the client: whether it decodes, and its openid. -/
def publicPart (reply : Bytes) : Bytes :=
  match WXSessionInfo.decode reply with
  | none => []
  | some info => 0 :: info.openid

/-- A slot with only the public part of its bytes. -/
def hideSlot : Slot → Slot
  | .uninitialised bytes => .uninitialised (publicPart bytes)
  | .written bytes => .written (publicPart bytes)

/-- What is hidden in a slot is hidden in its bytes. -/
theorem hideSlot_bytes (slot : Slot) : (hideSlot slot).bytes = publicPart slot.bytes := by
  cases slot <;> rfl

/-- A context with only the public part of the WX reply; nothing reads the other slot. -/
def hideCtx (ctx : LoginCtx) : LoginCtx := { wx := hideSlot ctx.wx }

/-- The state of a connection without the arguments of its subrequests, the secret part
of its context, and its history. -/
def hideState (conn : Conn) : Conn :=
  { conn with
    subs := conn.subs.map fun sub => { sub with args := [] }
    ctx := conn.ctx.map hideCtx
    log := [] }

/-- Two WX replies are the same, or both decode with the same openid. -/
def SameReply (first second : Bytes) : Prop :=
  first = second ∨ ∃ info other, WXSessionInfo.decode first = some info ∧
    WXSessionInfo.decode second = some other ∧ info.openid = other.openid

/-- Two outcomes of a subrequest event differ at most in the reply. -/
def SubOutcome.Similar : SubOutcome → SubOutcome → Prop
  | .pending, .pending => True
  | .complete first error posted, .complete second error' posted' =>
      first.rc = second.rc ∧ first.status = second.status ∧
        SameReply first.window second.window ∧ error = error' ∧ posted = posted'
  | _, _ => False

/-- Two events differ at most in the reply of a subrequest. -/
def Event.Similar : Event → Event → Prop
  | .start post body choices, .start post' body' choices' =>
      post = post' ∧ body = body' ∧ choices = choices'
  | .clientRead body sub choices, .clientRead body' sub' choices' =>
      body = body' ∧ sub.Similar sub' ∧ choices = choices'
  | .clientWrite sub choices, .clientWrite sub' choices' => sub.Similar sub' ∧ choices = choices'
  | .upstream index sub, .upstream index' sub' => index = index' ∧ sub.Similar sub'
  | .posted sub choices, .posted sub' choices' => sub.Similar sub' ∧ choices = choices'
  | .close, .close => True
  | _, _ => False

/-- Replies that are the same to the client have the same public part. -/
theorem SameReply.publicPart {first second : Bytes} (same : SameReply first second) :
    publicPart first = publicPart second := by
  rcases same with rfl | ⟨info, other, decoded, otherDecoded, openid⟩
  · rfl
  · simp only [Login.publicPart, decoded, otherDecoded, openid]

/-- A reply that decodes is not one Redis gives. -/
theorem redisOk_of_decoded {reply : Bytes} {info : WXSessionInfo}
    (decoded : WXSessionInfo.decode reply = some info) : redisOk reply = false := by
  by_contra stored
  simp only [redisOk, Bool.not_eq_false, Bool.or_eq_true, decide_eq_true_eq] at stored
  have short : WXSessionInfo.decode (ascii "+OK\n+OK\n") = none := by
    decide +kernel
  have long : WXSessionInfo.decode (ascii "+OK\r\n+OK\r\n") = none := by
    decide +kernel
  rcases stored with rfl | rfl
  · rw [short] at decoded
    cases decoded
  · rw [long] at decoded
    cases decoded

/-- Replies that are the same to the client confirm the `SET` both or not at all. -/
theorem SameReply.redisOk {first second : Bytes} (same : SameReply first second) :
    redisOk first = redisOk second := by
  rcases same with rfl | ⟨info, other, decoded, otherDecoded, _⟩
  · rfl
  · rw [redisOk_of_decoded decoded, redisOk_of_decoded otherDecoded]

/-! ## The operations of nginx do not look at what is hidden -/

section Hiding

variable (conn : Conn) (choices : Choices)

/-- Closing the connection looks at nothing hidden. -/
theorem hideState_finalizeConnection :
    hideState conn.finalizeConnection = (hideState conn).finalizeConnection := by
  unfold Conn.finalizeConnection
  change hideState (if conn.count = 1 then _ else _) = if conn.count = 1 then _ else _
  split <;> rfl

theorem hideState_terminate : hideState conn.terminate = (hideState conn).terminate := by
  simp [hideState, Conn.terminate]

theorem hideState_answer (ending : Ending) :
    hideState (conn.answer ending) = (hideState conn).answer ending := by
  cases ending with
  | finished => exact hideState_finalizeConnection _
  | writing => rfl
  | failed => exact hideState_terminate conn

theorem hideState_specialResponse :
    hideState (conn.specialResponse choices) = (hideState conn).specialResponse choices := by
  unfold Conn.specialResponse
  rw [hideState_answer]
  congr 1
  cases choices.redirected <;> rfl

/-- Finalizing looks at nothing hidden. -/
theorem hideState_finalizeRequest (rc : Int) :
    hideState (conn.finalizeRequest choices rc) = (hideState conn).finalizeRequest choices rc := by
  unfold Conn.finalizeRequest
  change _ = if rc = ngxDone then _ else if rc = ngxDeclined then _
    else if Conn.isFatal rc || choices.error then _ else if Conn.isSpecial rc then _
    else if choices.buffered || !conn.postponed.isEmpty then _
    else if conn.data ≠ none then _ else _
  repeat' split
  · exact hideState_finalizeConnection conn
  · rfl
  · exact hideState_terminate conn
  · exact hideState_terminate conn
  · exact hideState_specialResponse conn choices
  · rfl
  · rfl
  · exact hideState_finalizeConnection _

/-- A subrequest succeeds or fails whatever its arguments are, and they are hidden. -/
theorem hideState_subrequest (location : Location) (args : Bytes) :
    (conn.subrequest choices location args).map hideState id =
      (hideState conn).subrequest choices location [] := by
  unfold Conn.subrequest
  have same : (hideState conn).unoccupied = conn.unoccupied := rfl
  rw [same]
  change Prod.map hideState id (if 65535 - 1000 ≤ conn.count then _ else _) =
    if 65535 - 1000 ≤ conn.count then _ else _
  split
  · rfl
  · cases choices.sub with
    | enough => simp [hideState]
    | noRequest => rfl
    | noPostponed =>
        cases conn.unoccupied with
        | true => simp [hideState]
        | false => rfl
    | noPosted => simp [hideState]

end Hiding

/-! ## The handlers -/

variable {conf conf' : Conf} {choices : Choices} {conn conn' : Conn}

/-- Two connections agree on everything but what is hidden, and have sent the same. -/
structure Alike (conn conn' : Conn) : Prop where
  state : hideState conn = hideState conn'
  sent : sent conn.log = sent conn'.log

/-- Two results are alike, and their acts show the client the same. -/
def SameResult (first second : Conn × List Act) : Prop :=
  Alike first.1 second.1 ∧ first.2.filter visible = second.2.filter visible

/-- Finalizing with the same code shows the same. -/
theorem finalize_same (rc : Int) {reads reads' : List Act} (same : Alike conn conn')
    (shown : reads.filter visible = reads'.filter visible) :
    SameResult (finalize choices rc reads conn) (finalize choices rc reads' conn') := by
  refine ⟨⟨?_, ?_⟩, ?_⟩
  · simp only [finalize, hideState_finalizeRequest, same.state]
  · simp only [finalize, Conn.finalizeRequest_log, same.sent]
  · simp only [finalize, List.filter_append, shown]

/-- A crash shows nothing. -/
theorem fault_same {reads reads' : List Act} (same : Alike conn conn')
    (shown : reads.filter visible = reads'.filter visible) :
    SameResult (fault reads conn) (fault reads' conn') := by
  refine ⟨⟨?_, same.sent⟩, ?_⟩
  · change { hideState conn with crashed := true } = { hideState conn' with crashed := true }
    rw [same.state]
  · simp only [fault, List.filter_append, shown]

/-- Asking for a subrequest shows the same, whatever its arguments. -/
theorem request_same (location : Location) {args args' : Bytes} {reads reads' : List Act}
    (same : Alike conn conn') (shown : reads.filter visible = reads'.filter visible) :
    SameResult (request choices location args reads conn)
      (request choices location args' reads' conn') := by
  have created : (conn.subrequest choices location args).map hideState id =
      (conn'.subrequest choices location args').map hideState id := by
    rw [hideState_subrequest, hideState_subrequest, same.state]
  have log := conn.subrequest_log choices location args
  have log' := conn'.subrequest_log choices location args'
  unfold request
  cases choices.args with
  | false => exact fault_same same shown
  | true =>
      simp only [↓reduceIte]
      generalize conn.subrequest choices location args = first at created log ⊢
      generalize conn'.subrequest choices location args' = second at created log' ⊢
      obtain ⟨left, ok⟩ := first
      obtain ⟨left', ok'⟩ := second
      obtain ⟨agree, rfl⟩ : hideState left = hideState left' ∧ ok = ok' := by
        simpa using created
      have alike : Alike left left' := ⟨agree, by rw [log, log', same.sent]⟩
      cases ok with
      | false => exact finalize_same 500 alike shown
      | true =>
          refine ⟨alike, ?_⟩
          simp only [List.filter_append, shown]
          rfl

/-- The contexts of states that agree are both there, with the same public part. -/
theorem ctx_same (same : Alike conn conn') :
    (conn.ctx = none ∧ conn'.ctx = none) ∨ ∃ ctx ctx', conn.ctx = some ctx ∧ conn'.ctx = some ctx' ∧
      publicPart ctx.wx.bytes = publicPart ctx'.wx.bytes := by
  have hidden : conn.ctx.map hideCtx = conn'.ctx.map hideCtx := congrArg Conn.ctx same.state
  cases first : conn.ctx with
  | none =>
      rw [first, Option.map_none, eq_comm, Option.map_eq_none_iff] at hidden
      exact .inl ⟨rfl, hidden⟩
  | some ctx =>
      rw [first, Option.map_some, eq_comm, Option.map_eq_some_iff] at hidden
      obtain ⟨ctx', second, agree⟩ := hidden
      refine .inr ⟨ctx, ctx', rfl, second, ?_⟩
      rw [← hideSlot_bytes, ← hideSlot_bytes]
      exact congrArg (fun ctx => ctx.wx.bytes) agree.symm

/-- Replies with the same public part both fail to decode, or decode with the same
openid. -/
theorem decode_same {first second : Bytes} (same : publicPart first = publicPart second) :
    (WXSessionInfo.decode first = none ∧ WXSessionInfo.decode second = none) ∨
    ∃ info other, WXSessionInfo.decode first = some info ∧
      WXSessionInfo.decode second = some other ∧ info.openid = other.openid := by
  unfold publicPart at same
  cases left : WXSessionInfo.decode first with
  | none =>
      cases right : WXSessionInfo.decode second with
      | none => exact .inl ⟨rfl, rfl⟩
      | some other => simp [left, right] at same
  | some info =>
      cases right : WXSessionInfo.decode second with
      | none => simp [left, right] at same
      | some other => exact .inr ⟨info, other, rfl, rfl, by simpa [left, right] using same⟩

/-- What is sent back is made of the openid alone. -/
theorem backParam_same {info other : WXSessionInfo} (openid : info.openid = other.openid) :
    backParam info = backParam other := by
  simp only [backParam, openid]

/-- The login handler shows the same under any two configurations. -/
theorem customerManagerLoginHandler_same (bufs : List Buf) (same : Alike conn conn') :
    SameResult (customerManagerLoginHandler conf choices bufs conn)
      (customerManagerLoginHandler conf' choices bufs conn') := by
  unfold customerManagerLoginHandler
  cases bufs with
  | nil => exact fault_same same rfl
  | cons buf bufs =>
      simp only
      split
      · exact finalize_same 500 same rfl
      · cases LoginParam.decode buf.memory with
        | none => exact finalize_same 500 same rfl
        | some codeObj =>
            simp only
            split
            · exact finalize_same 500 same rfl
            · split
              · have given : (conn.ctx.or choices.ctx).map hideCtx =
                    (conn'.ctx.or choices.ctx).map hideCtx := by
                  have hidden : conn.ctx.map hideCtx = conn'.ctx.map hideCtx :=
                    congrArg Conn.ctx same.state
                  rw [Option.map_or, Option.map_or, hidden]
                cases first : conn.ctx.or choices.ctx with
                | none =>
                    rw [first, Option.map_none, eq_comm, Option.map_eq_none_iff] at given
                    rw [given]
                    exact finalize_same 500 same rfl
                | some ctx =>
                    rw [first, Option.map_some, eq_comm, Option.map_eq_some_iff] at given
                    obtain ⟨ctx', second, agree⟩ := given
                    rw [second]
                    refine request_same .wx ⟨?_, same.sent⟩ rfl
                    change { hideState conn with ctx := some (hideCtx ctx) } =
                      { hideState conn' with ctx := some (hideCtx ctx') }
                    rw [same.state, agree]
              · exact finalize_same 500 same rfl

/-- So does the father handler over replies with the same public part. -/
theorem wxLoginSubrequestPostFatherHandler_same (same : Alike conn conn') :
    SameResult (wxLoginSubrequestPostFatherHandler conf choices conn)
      (wxLoginSubrequestPostFatherHandler conf' choices conn') := by
  have status : conn.status = conn'.status := by
    change (hideState conn).status = (hideState conn').status
    rw [same.state]
  unfold wxLoginSubrequestPostFatherHandler
  rw [status]
  split
  · exact finalize_same _ same rfl
  · split
    · rcases ctx_same same with ⟨missing, missing'⟩ | ⟨ctx, ctx', present, present', agree⟩
      · rw [missing, missing']
        exact fault_same same rfl
      · rw [present, present']
        simp only
        rcases decode_same agree with ⟨first, second⟩ | ⟨info, other, first, second, _⟩
        · rw [first, second]
          exact finalize_same 500 same rfl
        · rw [first, second]
          exact request_same .redis same rfl
    · exact finalize_same 500 same rfl

/-- And so does the end of the login. -/
theorem loginDone_same (same : Alike conn conn') :
    SameResult (loginDone choices conn) (loginDone choices conn') := by
  have status : conn.status = conn'.status := by
    change (hideState conn).status = (hideState conn').status
    rw [same.state]
  unfold loginDone
  rw [status]
  split
  · exact finalize_same _ same rfl
  · rcases ctx_same same with ⟨missing, missing'⟩ | ⟨ctx, ctx', present, present', agree⟩
    · rw [missing, missing']
      exact fault_same same rfl
    · rw [present, present']
      simp only
      rcases decode_same agree with ⟨first, second⟩ | ⟨info, other, first, second, openid⟩
      · rw [first, second]
        exact finalize_same 500 same rfl
      · rw [first, second]
        simp only [backParam_same openid]
        have answered : Alike { conn with status := 200, ctx := some ctx }
            { conn' with status := 200, ctx := some ctx' } := by
          refine ⟨?_, same.sent⟩
          rw [← present, ← present']
          change { hideState conn with status := 200 } = { hideState conn' with status := 200 }
          rw [same.state]
        split
        · exact finalize_same _ answered rfl
        · split
          · exact finalize_same _ answered rfl
          · exact finalize_same 500 answered rfl

/-! ## The events -/

/-- What is sent, event by event. -/
theorem sent_append (first second : List Entry) :
    sent (first ++ second) = sent first ++ sent second := by
  simp only [sent, List.flatMap_append]

/-- Invocations that show the same leave connections that are alike. -/
theorem SameResult.record {function : Function} {first second : Conn × List Act}
    (same : SameResult first second) : Alike (record function first) (record function second) := by
  obtain ⟨⟨state, before⟩, shown⟩ := same
  constructor
  · exact state
  · simp only [Login.record, sent_append, before]
    simp only [sent, List.flatMap_cons, List.flatMap_nil, sentBy, shown]

/-- Alike connections are finalized alike. -/
theorem Alike.finalizeRequest (same : Alike conn conn') (choices : Choices) (rc : Int) :
    Alike (conn.finalizeRequest choices rc) (conn'.finalizeRequest choices rc) := by
  constructor
  · rw [hideState_finalizeRequest, hideState_finalizeRequest, same.state]
  · rw [Conn.finalizeRequest_log, Conn.finalizeRequest_log, same.sent]

theorem Alike.terminate (same : Alike conn conn') : Alike conn.terminate conn'.terminate := by
  constructor
  · rw [hideState_terminate, hideState_terminate, same.state]
  · exact same.sent

/-- Fields that are not hidden change alike. -/
theorem Alike.update (same : Alike conn conn') (change : Conn → Conn)
    (commutes : ∀ conn, hideState (change conn) = change (hideState conn))
    (frame : ∀ conn, (change conn).log = conn.log) : Alike (change conn) (change conn') := by
  constructor
  · rw [commutes, commutes, same.state]
  · rw [frame, frame, same.sent]

/-- A request that is refused before its handler is refused alike. -/
theorem refuse_alike (same : Alike conn conn') (choices : Choices) (rc : Int) :
    Alike (refuse choices rc conn) (refuse choices rc conn') := by
  unfold refuse
  apply Alike.finalizeRequest
  constructor
  · exact same.state
  · rw [sent_append, sent_append, same.sent]

/-- A body is handed over alike. -/
theorem handOver_alike (same : Alike conn conn') (bufs : List Buf) :
    Alike (handOver conf choices bufs conn) (handOver conf' choices bufs conn') := by
  refine (customerManagerLoginHandler_same bufs ?_).record
  exact same.update (fun conn => { conn with readHandler := .blockReading }) (fun _ => rfl)
    fun _ => rfl

/-- What follows the handler is done alike. -/
theorem handed_alike (same : Alike conn conn') :
    Alike (if conn.crashed then conn else conn.finalizeRequest choices ngxDone)
      (if conn'.crashed then conn' else conn'.finalizeRequest choices ngxDone) := by
  have crashed : conn.crashed = conn'.crashed := by
    change (hideState conn).crashed = (hideState conn').crashed
    rw [same.state]
  rw [crashed]
  split
  · exact same
  · exact same.finalizeRequest choices ngxDone

/-- **The content phase** looks at the configuration only in its handler. -/
theorem contentPhase_alike (same : Alike conn conn') (post : Bool) (body : BodyOutcome) :
    Alike (contentPhase conf post body choices conn)
      (contentPhase conf' post body choices conn') := by
  have begun := same.update (fun conn => { conn with started := true, writeHandler := .empty })
    (fun _ => rfl) fun _ => rfl
  have counted := begun.update (fun conn => { conn with count := conn.count + 1 })
    (fun _ => rfl) fun _ => rfl
  unfold contentPhase
  cases post with
  | false => exact refuse_alike begun choices 405
  | true =>
      cases body with
      | pending =>
          refine Alike.finalizeRequest ?_ choices ngxDone
          exact counted.update (fun conn => { conn with readHandler := .readClientRequestBody })
            (fun _ => rfl) fun _ => rfl
      | failed rc =>
          simp only [↓reduceIte]
          split
          · exact refuse_alike begun choices rc
          · exact counted.finalizeRequest choices ngxDone
      | complete bufs =>
          simp only [↓reduceIte]
          exact handed_alike (handOver_alike counted bufs)

/-- A wake-up for reading the main request. -/
theorem readMain_alike (same : Alike conn conn') (body : BodyOutcome) :
    Alike (readMain conf body choices conn) (readMain conf' body choices conn') := by
  have handler : conn.readHandler = conn'.readHandler := by
    change (hideState conn).readHandler = (hideState conn').readHandler
    rw [same.state]
  unfold readMain
  rw [handler]
  split
  · split
    · exact refuse_alike same choices _
    · exact same
  · exact handOver_alike same _
  · exact same

/-- A wake-up for writing it: whichever function is its handler. -/
theorem writeMain_alike (same : Alike conn conn') :
    Alike (writeMain conf choices conn) (writeMain conf' choices conn') := by
  have handler : conn.writeHandler = conn'.writeHandler := by
    change (hideState conn).writeHandler = (hideState conn').writeHandler
    rw [same.state]
  unfold writeMain
  rw [handler]
  split
  · exact same
  · exact (wxLoginSubrequestPostFatherHandler_same same).record
  · exact (loginDone_same same).record
  · refine same.update Conn.terminateHandler ?_ Conn.terminateHandler_log
    intro conn
    exact hideState_finalizeConnection _
  · exact same.update (Conn.answer choices.ending) (fun conn => hideState_answer conn _)
      fun conn => Conn.answer_log conn _

/-- The completion of the WX subrequest leaves its status, and a reply with its public part. -/
theorem hideState_wxPost (completion : Completion) (conn : Conn) :
    hideState (wxLoginSubrequestPostHandler completion conn) =
      { hideState conn with
        status := completion.status
        ctx := if completion.status = 200 then
            (hideState conn).ctx.map fun ctx =>
              { ctx with wx := .written (publicPart completion.window) }
          else (hideState conn).ctx
        writeHandler := .father } := by
  unfold wxLoginSubrequestPostHandler
  split
  · simp only [hideState, Option.map_map]
    rfl
  · rfl

/-- The completion of the Redis subrequest leaves the status its reply stands for. -/
theorem hideState_redisDone (completion : Completion) (conn : Conn) :
    hideState (wxLoginSetRedisSubrequestDone completion conn) =
      { hideState conn with status := redisStatus completion, writeHandler := .loginDone } := by
  unfold wxLoginSetRedisSubrequestDone
  split
  · simp only [hideState, Option.map_map]
    rfl
  · rfl

/-- The completion handlers record the reply, of which the public part is the same. -/
theorem postSubrequest_alike (same : Alike conn conn') (location : Location)
    {completion completion' : Completion} (status : completion.status = completion'.status)
    (reply : SameReply completion.window completion'.window) :
    Alike (postSubrequest location completion conn)
      (postSubrequest location completion' conn') := by
  cases location with
  | wx =>
      refine ⟨?_, same.sent⟩
      change hideState (wxLoginSubrequestPostHandler _ _) = hideState _
      rw [hideState_wxPost, postSubrequest, hideState_wxPost, same.state, status,
        reply.publicPart]
  | redis =>
      refine ⟨?_, same.sent⟩
      change hideState (wxLoginSetRedisSubrequestDone _ _) = hideState _
      rw [hideState_redisDone, postSubrequest, hideState_redisDone, same.state, redisStatus,
        redisStatus, status, reply.redisOk]

/-- The parent is woken alike. -/
theorem wakeParent_alike (same : Alike conn conn') (posted : Bool) :
    Alike (conn.wakeParent posted) (conn'.wakeParent posted) := by
  cases posted with
  | true =>
      exact same.update (fun conn => { conn with posted := conn.posted ++ [none] })
        (fun _ => rfl) fun _ => rfl
  | false =>
      exact (same.update (fun conn => { conn with count := conn.count + 1 })
        (fun _ => rfl) fun _ => rfl).terminate

/-- A subrequest is released whether its arguments are hidden or not. -/
theorem map_release (subs : List Sub) (index : Nat) :
    (subs.modify index fun sub => { sub with outstanding := false }).map
        (fun sub => { sub with args := [] }) =
      (subs.map fun sub => { sub with args := [] }).modify index
        fun sub => { sub with outstanding := false } := by
  apply List.ext_getElem?
  intro other
  simp only [List.getElem?_map, List.getElem?_modify]
  cases subs[other]? with
  | none => rfl
  | some sub =>
      simp only [Option.map_some]
      split <;> rfl

/-- A subrequest is finalized alike when its status and its reply are alike. -/
theorem finalizeSub_alike (same : Alike conn conn') (location : Location) (index : Nat)
    {completion completion' : Completion} (status : completion.status = completion'.status)
    (reply : SameReply completion.window completion'.window) (error posted : Bool) :
    Alike (conn.finalizeSub (postSubrequest location) index completion error posted)
      (conn'.finalizeSub (postSubrequest location) index completion' error posted) := by
  have handled := postSubrequest_alike same location status reply
  unfold Conn.finalizeSub
  generalize postSubrequest location completion conn = first at handled ⊢
  generalize postSubrequest location completion' conn' = second at handled ⊢
  cases error with
  | true => exact handled.terminate
  | false =>
      have data : first.data = second.data := by
        change (hideState first).data = (hideState second).data
        rw [handled.state]
      have released := handled.update
        (fun conn => { conn with
          subs := conn.subs.modify index fun sub => { sub with outstanding := false } })
        (fun conn => by simp only [hideState, map_release]) fun _ => rfl
      simp only [Bool.false_eq_true, ↓reduceIte]
      by_cases active : first.data = some index
      · have active' : second.data = some index := by
          rw [← data]
          exact active
        rw [if_pos active, if_pos active']
        refine wakeParent_alike ?_ posted
        exact released.update
          (fun conn => { conn with
            count := conn.count - 1
            postponed := if conn.postponed.head? = some index then conn.postponed.tail
              else conn.postponed
            data := none })
          (fun _ => rfl) fun _ => rfl
      · have inactive : second.data ≠ some index := by
          rw [← data]
          exact active
        rw [if_neg active, if_neg inactive]
        exact wakeParent_alike released posted

/-- The subrequests of states that agree differ at most in their arguments. -/
theorem subs_same (same : Alike conn conn') (index : Nat) :
    (conn.subs[index]? = none ∧ conn'.subs[index]? = none) ∨ ∃ sub sub',
      conn.subs[index]? = some sub ∧ conn'.subs[index]? = some sub' ∧
      sub'.location = sub.location ∧ sub'.outstanding = sub.outstanding := by
  have subs : conn.subs.map (fun sub => { sub with args := [] }) =
      conn'.subs.map fun sub => { sub with args := [] } := congrArg Conn.subs same.state
  have found : (conn.subs[index]?).map (fun sub => { sub with args := [] }) =
      (conn'.subs[index]?).map fun sub => { sub with args := [] } := by
    rw [← List.getElem?_map, ← List.getElem?_map, subs]
  cases first : conn.subs[index]? with
  | none =>
      rw [first, Option.map_none, eq_comm, Option.map_eq_none_iff] at found
      exact .inl ⟨rfl, found⟩
  | some sub =>
      rw [first, Option.map_some, eq_comm, Option.map_eq_some_iff] at found
      obtain ⟨sub', second, agree⟩ := found
      simp only [Sub.mk.injEq, true_and] at agree
      exact .inr ⟨sub, sub', rfl, second, agree.1, agree.2⟩

/-- A subrequest runs alike, whatever it was asked. -/
theorem runSub_alike (same : Alike conn conn') (index : Nat) {sub sub' : SubOutcome}
    (similar : sub.Similar sub') : Alike (runSub index sub conn) (runSub index sub' conn') := by
  unfold runSub
  rcases subs_same same index with ⟨first, second⟩ |
    ⟨running, running', first, second, location, outstanding⟩
  · rw [first, second]
    exact same
  · rw [first, second]
    cases sub with
    | pending =>
        cases sub' with
        | pending => exact same
        | complete completion error posted => exact similar.elim
    | complete completion error posted =>
        cases sub' with
        | pending => exact similar.elim
        | complete completion' error' posted' =>
            obtain ⟨_, status, reply, rfl, rfl⟩ := similar
            simp only [location, outstanding]
            split
            · apply finalizeSub_alike
              · refine ⟨same.state, ?_⟩
                rw [sent_append, sent_append, same.sent]
                rfl
              · exact status
              · exact reply
            · exact same

theorem alike_started (same : Alike conn conn') : conn.started = conn'.started := by
  change (hideState conn).started = (hideState conn').started
  rw [same.state]

/-- **An event** is taken by both connections or by none, and leaves them alike. -/
theorem external_alike (same : Alike conn conn') {event event' : Event}
    (similar : event.Similar event') :
    Option.Rel Alike (external conf conn event) (external conf' conn' event') := by
  have started : conn.started = conn'.started := alike_started same
  have data : conn.data = conn'.data := by
    change (hideState conn).data = (hideState conn').data
    rw [same.state]
  cases event with
  | start post body choices =>
      cases event' with
      | start post' body' choices' =>
          obtain ⟨rfl, rfl, rfl⟩ := similar
          simp only [external, started]
          split
          · exact .none
          · exact .some (contentPhase_alike same post body)
      | _ => exact similar.elim
  | clientRead body sub choices =>
      cases event' with
      | clientRead body' sub' choices' =>
          obtain ⟨rfl, similar, rfl⟩ := similar
          simp only [external, started, data]
          split
          · split
            · exact .some (readMain_alike same body)
            · exact .some (runSub_alike same _ similar)
          · exact .none
      | _ => exact similar.elim
  | clientWrite sub choices =>
      cases event' with
      | clientWrite sub' choices' =>
          obtain ⟨similar, rfl⟩ := similar
          simp only [external, started, data]
          split
          · split
            · exact .some (writeMain_alike same)
            · exact .some (runSub_alike same _ similar)
          · exact .none
      | _ => exact similar.elim
  | upstream index sub =>
      cases event' with
      | upstream index' sub' =>
          obtain ⟨rfl, similar⟩ := similar
          simp only [external]
          rcases subs_same same index with ⟨first, second⟩ |
            ⟨running, running', first, second, _, outstanding⟩
          · rw [first, second]
            exact .none
          · rw [first, second]
            simp only [outstanding]
            split
            · exact .some (runSub_alike same index similar)
            · exact .none
      | _ => exact similar.elim
  | posted sub choices =>
      cases event' with
      | posted sub' choices' => exact .none
      | _ => exact similar.elim
  | close =>
      cases event' with
      | close =>
          unfold external
          by_cases begun : conn.started = true
          · rw [if_pos begun, if_pos (started.symm.trans begun)]
            refine .some (Alike.terminate ?_)
            exact same.update (fun conn => { conn with count := conn.count + 1 })
              (fun _ => rfl) fun _ => rfl
          · rw [if_neg begun, if_neg fun begun' => begun (started.trans begun')]
            exact .none
      | _ => exact similar.elim

/-- Under any two configurations, connections that are alike stay alike over events
that are similar. -/
theorem connection_lockstep (conf conf' : Conf) :
    Lockstep (connection conf) (connection conf') Event.Similar Alike := by
  intro conn conn' event event' same similar
  have gone : (conn.closed || conn.crashed || conn.derailed) =
      (conn'.closed || conn'.crashed || conn'.derailed) := by
    change ((hideState conn).closed || (hideState conn).crashed || (hideState conn).derailed) =
      ((hideState conn').closed || (hideState conn').crashed || (hideState conn').derailed)
    rw [same.state]
  have posted : conn.posted = conn'.posted := by
    change (hideState conn).posted = (hideState conn').posted
    rw [same.state]
  have popped : ∀ rest, Alike { conn with posted := rest } { conn' with posted := rest } := by
    intro rest
    exact same.update (fun conn => { conn with posted := rest }) (fun _ => rfl) fun _ => rfl
  change Option.Rel Alike (step conf conn event) (step conf' conn' event')
  unfold step
  rw [gone, posted]
  split
  · exact .none
  · cases conn'.posted with
    | nil => exact external_alike same similar
    | cons target rest =>
        cases event with
        | posted sub choices =>
            cases event' with
            | posted sub' choices' =>
                obtain ⟨similar, rfl⟩ := similar
                cases target with
                | none => exact .some (writeMain_alike (popped rest))
                | some index => exact .some (runSub_alike (popped rest) index similar)
            | _ => exact similar.elim
        | _ =>
            cases event' with
            | posted sub' choices' => exact similar.elim
            | _ => cases target <;> exact .none

/-- **Secrets do not reach the client.** Two runs of a login under any two
configurations, in particular with different WX secrets and passwords, whose events
differ at most in WX replies that both decode with the same openid, are refused
together or send the client the same. -/
theorem secrets_do_not_reach_client (conf conf' : Conf) {events events' : List Event}
    (similar : List.Forall₂ Event.Similar events events') :
    ((connection conf).run {} events).map (fun conn => sent conn.log) =
      ((connection conf').run {} events').map fun conn => sent conn.log := by
  have fresh : Alike {} {} := ⟨rfl, rfl⟩
  have alike := (connection_lockstep conf conf').run fresh similar
  generalize (connection conf).run {} events = final at alike ⊢
  generalize (connection conf').run {} events' = final' at alike ⊢
  cases alike with
  | none => rfl
  | some same => exact congrArg some same.sent

/-- A login of one user under two configurations, with two session keys. -/
theorem secrets_do_not_reach_sample_client :
    ((connection sampleConf).run {}
        (smoothLogin sampleBody (sampleReply "o1" "k1") okReply)).map (fun conn => sent conn.log) =
      ((connection { sampleConf with secret := ascii "s2", redisPwd := ascii "p2" }).run {}
        (smoothLogin sampleBody (sampleReply "o1" "k2") okReply)).map
          fun conn => sent conn.log := by
  apply secrets_do_not_reach_client
  obtain ⟨first, second⟩ := decode_sampleReply
  refine .cons ⟨rfl, rfl, rfl⟩ (.cons ⟨trivial, rfl⟩ (.cons ⟨rfl, rfl, rfl, ?_, rfl, rfl⟩
    (.cons ⟨trivial, rfl⟩ (.cons ⟨trivial, rfl⟩ (.cons ⟨rfl, rfl, rfl, .inl rfl, rfl, rfl⟩
      (.cons ⟨trivial, rfl⟩ .nil))))))
  exact .inr ⟨_, _, first, second, rfl⟩

end HttpBackEnd.Login
