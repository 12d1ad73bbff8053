import HttpBackEnd.Login.Follow
import HttpBackEnd.Login.Success

/-! # The argument strings of the two subrequests

Both handlers add up a length by hand, take that much memory from the pool without
clearing it, and let `ngx_snprintf` fill it from a format that is kept apart from the
sum. The sums are right: whatever the memory held, the format covers all of it with the
literal parts and the values. What is missing is the check of this one allocation, which
every allocation before it has. A failure of `ngx_http_subrequest` is met with status 500,
which is clean unless it failed so late that its subrequest is left in the connection.
-/

namespace HttpBackEnd.Login

open Nginx Json

variable {conf : Conf} {choices : Choices} {conn : Conn}

/-! ## Formatting into memory from the pool -/

/-- The parts cover the memory: nothing is cut off, and no byte keeps its old value. -/
def Fills (len : Nat) (parts : List Bytes) : Prop :=
  ∀ memory : Bytes, memory.length = len → vslprintf [] memory parts = (parts.flatten, [])

theorem fills_of_length {len : Nat} {parts : List Bytes} (sum : parts.flatten.length = len) :
    Fills len parts := by
  intro memory allocated
  have room : parts.flatten.length ≤ memory.length := by omega
  rw [vslprintf_of_room [] room, List.drop_of_length_le (by omega)]
  rfl

/-! ## Exact, or refused cleanly -/

/-- Acts that start nothing and touch nothing: the texts a handler decodes first. -/
def OnlyReads (acts : List Act) : Prop :=
  ∀ act ∈ acts, (∃ text, act = .decodeBody text) ∨ ∃ slot, act = .decodeReply slot

/-- The handler starts its subrequest with the parts put together, filling all the memory
it asked for, or it finalizes with 500 and starts nothing: no more subrequests than
before can run. -/
def ExactOrRefused (location : Location) (len : Nat) (parts : List Bytes) (conn : Conn)
    (result : Conn × List Act) : Prop :=
  ∃ reads, OnlyReads reads ∧
    ((result.2 = reads ++ [.subrequest location parts.flatten] ∧ Fills len parts ∧
        result.1.subs = conn.subs ++ [⟨location, parts.flatten, true⟩]) ∨
      (result.2 = reads ++ [.finalize 500] ∧
        result.1.subs.countP Sub.outstanding ≤ conn.subs.countP Sub.outstanding))

/-- `ngx_http_subrequest` fails when the new subrequest is active or postponed already,
and the request is not terminated for another reason. -/
def FailsLate (choices : Choices) (conn : Conn) : Prop :=
  conn.count < 65535 - 1000 ∧
    (choices.sub = .noPosted ∨ choices.sub = .noPostponed ∧ conn.unoccupied = true) ∧
    choices.error = false ∧ choices.ending ≠ .failed

theorem finalize_refused {location : Location} {len : Nat} {parts : List Bytes}
    {reads : List Act} (read : OnlyReads reads) :
    ExactOrRefused location len parts conn (finalize choices 500 reads conn) :=
  ⟨reads, read, .inr ⟨rfl, (Conn.finalizes_finalizeRequest conn choices 500).outstanding_le⟩⟩

/-- A worker that has crashed has neither started its subrequest nor answered. -/
theorem fault_not_exact {location : Location} {len : Nat} {parts : List Bytes}
    (reads : List Act) (before : Conn) :
    ¬ ExactOrRefused location len parts before (fault reads conn) := by
  rintro ⟨others, _, ⟨acts, _⟩ | ⟨acts, _⟩⟩
  · have last := congrArg List.getLast? acts
    simp [fault] at last
  · have last := congrArg List.getLast? acts
    simp [fault] at last

/-- Finalizing with 500 answers with the page for it, or terminates the request. -/
theorem finalizeRequest_internalError : conn.finalizeRequest choices 500 =
    if choices.error = true then conn.terminate else conn.specialResponse choices := by
  simp [Conn.finalizeRequest, ngxDone, ngxDeclined, Conn.isFatal, Conn.isSpecial, ngxError]

theorem finalizeConnection_subs (conn : Conn) : conn.finalizeConnection.subs = conn.subs := by
  unfold Conn.finalizeConnection
  split
  · rfl
  · rfl

theorem answer_subs {ending : Ending} (written : ending ≠ .failed) :
    (conn.answer ending).subs = conn.subs := by
  cases ending with
  | finished => exact finalizeConnection_subs _
  | writing => rfl
  | failed => exact absurd rfl written

/-- Finalizing with 500 leaves the subrequests as they are unless it terminates the
request, which releases them all. -/
theorem finalizeRequest_subs :
    (conn.finalizeRequest choices 500).subs =
      if choices.error = false ∧ choices.ending ≠ .failed then conn.subs
      else conn.terminate.subs := by
  rw [finalizeRequest_internalError]
  cases choices.error with
  | true => rfl
  | false =>
      cases ending : choices.ending with
      | failed => simp [Conn.specialResponse, ending, Conn.answer, Conn.terminate]
      | writing => simp [Conn.specialResponse, ending, Conn.answer]
      | finished =>
          simp only [Conn.specialResponse, ending, Bool.false_eq_true, ↓reduceIte]
          refine answer_subs ?_
          split
          · exact fun same => by cases same
          · exact fun same => by cases same

theorem terminate_outstanding (conn : Conn) : conn.terminate.subs.countP Sub.outstanding = 0 := by
  rw [List.countP_eq_zero]
  intro sub member
  obtain ⟨original, _, rfl⟩ := List.mem_map.mp member
  exact Bool.false_ne_true

/-- A subrequest that was added before the request is finalized with 500 can run unless
the request is terminated. -/
theorem added_outstanding_iff {left : Conn} {location : Location} {args : Bytes}
    (added : left.subs = conn.subs ++ [⟨location, args, true⟩]) :
    (left.finalizeRequest choices 500).subs.countP Sub.outstanding ≤
        conn.subs.countP Sub.outstanding ↔
      ¬ (choices.error = false ∧ choices.ending ≠ .failed) := by
  rw [finalizeRequest_subs]
  split
  · rename_i healthy
    refine iff_of_false ?_ (fun terminated => terminated healthy)
    rw [added, List.countP_append]
    simp
  · rename_i terminated
    refine iff_of_true ?_ terminated
    rw [terminate_outstanding]
    exact Nat.zero_le _

/-- What is finalized after `ngx_http_subrequest` has failed holds a subrequest that can
run exactly when it has failed late. -/
theorem subrequest_left_iff {location : Location} {args : Bytes}
    (failed : (conn.subrequest choices location args).2 = false) :
    ((conn.subrequest choices location args).1.finalizeRequest choices 500).subs.countP
        Sub.outstanding ≤ conn.subs.countP Sub.outstanding ↔ ¬ FailsLate choices conn := by
  have unchanged := (Conn.finalizes_finalizeRequest conn choices 500).outstanding_le
  unfold Conn.subrequest at failed ⊢
  unfold FailsLate
  split
  · rename_i full
    exact iff_of_true unchanged fun late => absurd late.1 (Nat.not_lt.mpr full)
  · rename_i room
    have counted : conn.count < 65535 - 1000 := Nat.lt_of_not_le room
    simp only [if_neg room] at failed ⊢
    cases memory : choices.sub with
    | enough => simp [memory] at failed
    | noRequest => exact iff_of_true unchanged (by simp)
    | noPostponed =>
        cases unoccupied : conn.unoccupied with
        | false => exact iff_of_true unchanged (by simp)
        | true =>
            refine (added_outstanding_iff rfl).trans ?_
            simp [counted]
    | noPosted =>
        refine (added_outstanding_iff rfl).trans ?_
        simp [counted]

theorem started_not_late {location : Location} {args : Bytes} {next : Conn}
    (created : conn.subrequest choices location args = (next, true)) :
    ¬ FailsLate choices conn := by
  rintro ⟨counted, memory | ⟨memory, _⟩, _⟩
  · simp [Conn.subrequest, memory, Nat.not_le.mpr counted] at created
  · simp [Conn.subrequest, memory, Nat.not_le.mpr counted] at created

/-- Asking for the subrequest is exact or clean exactly when the memory for its arguments
was there and it has not failed late. -/
theorem request_exact_iff {location : Location} {len : Nat} {parts : List Bytes}
    {reads : List Act} (sum : parts.flatten.length = len) (read : OnlyReads reads)
    {before : Conn} (same : before.subs = conn.subs) :
    ExactOrRefused location len parts before
        (request choices location parts.flatten reads conn) ↔
      choices.args = true ∧ ¬ FailsLate choices conn := by
  unfold request
  cases choices.args with
  | false => simpa using fault_not_exact reads before
  | true =>
      simp only [if_true, true_and]
      cases created : conn.subrequest choices location parts.flatten with
      | mk left ok =>
          cases ok with
          | true =>
              have started := conn.subrequest_started choices location parts.flatten
                (by rw [created])
              rw [created] at started
              refine iff_of_true ⟨reads, read, .inl ⟨rfl, fills_of_length sum, ?_⟩⟩ ?_
              · rw [started, same]
              · exact started_not_late created
          | false =>
              have failed : (conn.subrequest choices location parts.flatten).2 = false := by
                rw [created]
              have left_iff := subrequest_left_iff failed
              rw [created, ← same] at left_iff
              rw [← left_iff]
              constructor
              · rintro ⟨others, _, ⟨acts, _⟩ | ⟨_, outstanding⟩⟩
                · have last := congrArg List.getLast? acts
                  simp [finalize] at last
                · exact outstanding
              · intro outstanding
                exact ⟨reads, read, .inr ⟨rfl, outstanding⟩⟩

/-- What the login handler does with a body that decodes, allocation by allocation. -/
theorem login_handler_exact_iff {buf : Buf} {rest : List Buf} {param : LoginParam}
    (decoded : LoginParam.decode buf.memory = some param) :
    ExactOrRefused .wx (wxArgsLen conf param.code) (wxParts conf param.code) conn
        (customerManagerLoginHandler conf choices (buf :: rest) conn) ↔
      (param.code ≠ [] → choices.psr = true → (conn.ctx.or choices.ctx).isSome →
        choices.args = true ∧ ¬ FailsLate choices conn) := by
  have read : OnlyReads [.decodeBody buf.memory] := by
    intro act member
    exact .inl ⟨buf.memory, List.mem_singleton.mp member⟩
  have present : buf.memory.length ≠ 0 := by
    intro empty
    rw [List.length_eq_zero_iff.mp empty] at decoded
    cases decoded
  simp only [customerManagerLoginHandler, decoded, if_neg present]
  by_cases empty : param.code = []
  · rw [if_pos (by rw [empty]; rfl)]
    exact iff_of_true (finalize_refused read) fun nonempty => absurd empty nonempty
  · rw [if_neg (by simpa using empty)]
    cases choices.psr with
    | false => exact iff_of_true (finalize_refused read) fun _ missing => absurd missing (by simp)
    | true =>
        simp only [if_true]
        cases found : conn.ctx.or choices.ctx with
        | none =>
            exact iff_of_true (finalize_refused read) fun _ _ missing => absurd missing (by simp)
        | some ctx =>
            rw [wxArgs_flatten]
            have late : FailsLate choices { conn with ctx := some ctx } ↔ FailsLate choices conn :=
              Iff.rfl
            refine (request_exact_iff (wxParts_length conf param.code) read rfl).trans ?_
            rw [late]
            simp [empty]

/-- What the father handler does after a WX reply with status 200 that decodes. -/
theorem father_handler_exact_iff {ctx : LoginCtx} {info : WXSessionInfo}
    (status : conn.status = 200) (kept : conn.ctx = some ctx)
    (decoded : WXSessionInfo.decode ctx.wx.bytes = some info) :
    ExactOrRefused .redis (redisArgsLen conf info) (redisParts conf info) conn
        (wxLoginSubrequestPostFatherHandler conf choices conn) ↔
      (choices.psr = true → choices.args = true ∧ ¬ FailsLate choices conn) := by
  have nothing : OnlyReads [] := by
    intro act member
    cases member
  have read : OnlyReads [.decodeReply ctx.wx] := by
    intro act member
    exact .inr ⟨ctx.wx, List.mem_singleton.mp member⟩
  unfold wxLoginSubrequestPostFatherHandler
  rw [if_neg (by simpa using status)]
  cases choices.psr with
  | false => exact iff_of_true (finalize_refused nothing) fun missing => absurd missing (by simp)
  | true =>
      simp only [if_true, kept, decoded]
      rw [redisArgs_flatten]
      exact (request_exact_iff (redisParts_length conf info) read rfl).trans (by simp)

/-- **When the argument builders are exact or fail cleanly.** For every configuration,
code, session and pattern of failing allocations: exactly when the argument string, where
the handler gets as far as allocating it, is allocated, and `ngx_http_subrequest` does not
fail late. -/
theorem arguments_exact_iff {buf : Buf} {rest : List Buf} {param : LoginParam}
    (sent : LoginParam.decode buf.memory = some param) {waiting : Conn} {ctx : LoginCtx}
    {info : WXSessionInfo} (status : waiting.status = 200) (kept : waiting.ctx = some ctx)
    (replied : WXSessionInfo.decode ctx.wx.bytes = some info) :
    (ExactOrRefused .wx (wxArgsLen conf param.code) (wxParts conf param.code) conn
        (customerManagerLoginHandler conf choices (buf :: rest) conn) ↔
      (param.code ≠ [] → choices.psr = true → (conn.ctx.or choices.ctx).isSome →
        choices.args = true ∧ ¬ FailsLate choices conn)) ∧
    (ExactOrRefused .redis (redisArgsLen conf info) (redisParts conf info) waiting
        (wxLoginSubrequestPostFatherHandler conf choices waiting) ↔
      (choices.psr = true → choices.args = true ∧ ¬ FailsLate choices waiting)) :=
  ⟨login_handler_exact_iff sent, father_handler_exact_iff status kept replied⟩

/-- The session of the sample reply. -/
def sampleSession : WXSessionInfo := ⟨ascii "k1", ascii "o1", [], 0⟩

/-- The context in which the sample reply has been recorded. -/
def repliedCtx : LoginCtx := { wx := .written (sampleReply "o1" "k1") }

/-- A connection in the father handler. -/
def repliedConn : Conn := { status := 200, ctx := some repliedCtx }

theorem arguments_exact_sample :
    ExactOrRefused .wx (wxArgsLen sampleConf (ascii "c1")) (wxParts sampleConf (ascii "c1")) {}
        (customerManagerLoginHandler sampleConf {} [{ memory := sampleBody }] {}) ∧
      ExactOrRefused .redis (redisArgsLen sampleConf sampleSession)
        (redisParts sampleConf sampleSession) repliedConn
        (wxLoginSubrequestPostFatherHandler sampleConf {} repliedConn) := by
  have sent : LoginParam.decode ({ memory := sampleBody } : Buf).memory = some ⟨ascii "c1"⟩ :=
    decode_sampleBody
  have replied : WXSessionInfo.decode repliedCtx.wx.bytes = some sampleSession :=
    decode_sampleReply.1
  have status : repliedConn.status = 200 := rfl
  have kept : repliedConn.ctx = some repliedCtx := rfl
  have exact_iff := @arguments_exact_iff sampleConf {} {} { memory := sampleBody } []
    ⟨ascii "c1"⟩ sent repliedConn repliedCtx sampleSession status kept replied
  have prompt : ∀ conn, ¬ FailsLate {} conn := by
    rintro conn ⟨_, memory | ⟨memory, _⟩, _⟩
    · cases memory
    · cases memory
  exact ⟨exact_iff.1.mpr fun _ _ _ => ⟨rfl, prompt {}⟩,
    exact_iff.2.mpr fun _ => ⟨rfl, prompt repliedConn⟩⟩

/-- The pool has no memory left for the argument string. -/
theorem arguments_unchecked :
    ¬ ∀ conf choices conn (buf : Buf) rest param, LoginParam.decode buf.memory = some param →
      ExactOrRefused .wx (wxArgsLen conf param.code) (wxParts conf param.code) conn
        (customerManagerLoginHandler conf choices (buf :: rest) conn) := by
  intro exact
  have sent : LoginParam.decode ({ memory := sampleBody } : Buf).memory = some ⟨ascii "c1"⟩ :=
    decode_sampleBody
  have allocated := (login_handler_exact_iff sent).mp
    (exact sampleConf { args := false } {} { memory := sampleBody } [] ⟨ascii "c1"⟩ sent)
  have present : (⟨ascii "c1"⟩ : LoginParam).code ≠ [] := List.cons_ne_nil _ _
  exact absurd (allocated present rfl rfl).1 Bool.false_ne_true

end HttpBackEnd.Login
