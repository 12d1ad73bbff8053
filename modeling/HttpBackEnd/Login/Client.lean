import HttpBackEnd.Json.Codec
import HttpBackEnd.Login.Safety

/-! # What the client reads

The body of a successful answer is read by a client that decodes it with the class the
server encoded it with.
-/

namespace HttpBackEnd.Login

open Nginx Json Transition

/-- The strings of a decoded reply hold no zero bytes. -/
theorem decodeField_plain {json : Value} {fieldName text : Bytes}
    (decoded : decodeField decodeString [] json fieldName = some text) : (0 : UInt8) ∉ text := by
  unfold decodeField at decoded
  split at decoded
  · split at decoded
    · rename_i value _
      cases value with
      | string text =>
          obtain rfl := Option.some.inj decoded
          exact zero_not_mem_cstr text
      | _ => cases decoded
    · obtain rfl := Option.some.inj decoded
      exact List.not_mem_nil
  · cases decoded

theorem openid_plain {text : Bytes} {info : WXSessionInfo}
    (decoded : WXSessionInfo.decode text = some info) : (0 : UInt8) ∉ info.openid := by
  simp only [WXSessionInfo.decode, WXSessionInfo.decodeValue, Option.bind_eq_bind,
    Option.bind_eq_some_iff] at decoded
  obtain ⟨_, _, openid, identified, _, _, _, _, same⟩ := decoded
  obtain rfl := Option.some.inj same
  exact decodeField_plain identified

/-- The class decodes the answer to the parameter it was encoded from. -/
theorem decode_backParam {text : Bytes} {info : WXSessionInfo}
    (decoded : WXSessionInfo.decode text = some info) :
    loginBackParam.decode (backParam info).encode = some (backParam info) := by
  have fits : loginBackParam.Fits (backParam info) := by
    simp [Class.Fits, loginBackParam, int32Codec, stringCodec, backParam]
  have sent := cstr_of_zero_not_mem (openid_plain decoded)
  rw [Class.decode_of_encode fits (loginBackParam_encode fits)]
  simp [Class.received, Class.receive, loginBackParam, int32Codec, stringCodec, backParam, sent]

/-- Only a whole answer has a body, and its header comes first. -/
theorem Invocation.header_of_output {promise : Promise} {conf : Conf} {function : Function}
    {acts : List Act} (invocation : Invocation promise conf function acts) {body : Bytes}
    (output : .output body ∈ acts) :
    ∃ rc, .sendHeader 200 body.length (ascii "text/json") rc ∈ acts := by
  have quiet : ∀ {fault : Prop} {rc : Int}, Quits fault rc acts → Act.output body ∉ acts := by
    intro fault rc quits
    cases quits <;> simp
  cases invocation with
  | loginQuits quits => exact absurd output (quiet quits)
  | login decoded present => simp at output
  | fatherQuits allowed quits => exact absurd output (quiet quits)
  | father decoded => simp at output
  | doneQuits allowed status => simp at output
  | done decoded answers =>
      cases answers with
      | headerOnly rc accepted => simp [answerHeader] at output
      | noBuffer rc accepted sent => simp [answerHeader] at output
      | body rc result accepted sent =>
          obtain rfl : body = _ := by simpa [answerHeader] using output
          exact ⟨rc, List.mem_cons_of_mem _ List.mem_cons_self⟩

/-- **What the client reads.** In any interleaving of any number of logins, the body sent
for a request is announced with its length, and the client decodes it to the openid that
the request's own WX reply carries. -/
theorem client_reads_own_openid {Index : Type} [DecidableEq Index] {conf : Conf}
    {events : List (Index × Event)} {states : Index → Conn}
    (ran : (worker conf Index).run (fun _ => {}) events = some states) (request : Index)
    {function : Function} {acts : List Act} {body : Bytes}
    (invoked : .ran function acts ∈ (states request).log) (output : .output body ∈ acts) :
    ∃ wx info rc, .completed 0 .wx wx ∈ (states request).log ∧ wx.status = 200 ∧
      WXSessionInfo.decode wx.window = some info ∧
      .sendHeader 200 body.length (ascii "text/json") rc ∈ acts ∧
      loginBackParam.decode body =
        some { expire := 0, sessionId := info.openid, openid := info.openid } := by
  have own := interleave_run_project ran request
  obtain ⟨stage, trail, _⟩ := follows_borneOut own
  obtain ⟨rc, sent⟩ := (trail.invocation invoked).header_of_output output
  obtain ⟨_, before, window, info, redis, earlier, _, answers, same⟩ :=
    trail.of_header invoked sent
  obtain ⟨_, third, redisTrail, rfl⟩ := earlier.redisDone_log
  obtain ⟨decoded, second, code, wxTrail, rfl⟩ := redisTrail.redis_log
  obtain ⟨_, first, _, rfl⟩ := wxTrail.wxDone_log
  refine ⟨⟨code, 200, window⟩, info, rc, ?_, rfl, decoded, sent, ?_⟩
  · rw [same]
    simp
  · cases answers with
    | headerOnly rc accepted => simp [answerHeader] at output
    | noBuffer rc accepted sent => simp [answerHeader] at output
    | body rc result accepted sent =>
        obtain rfl : body = _ := by simpa [answerHeader] using output
        exact decode_backParam decoded

theorem client_reads_own_openid_sample :
    ∃ states : Fin 2 → Conn, (worker sampleConf (Fin 2)).run (fun _ => {}) twoLogins = some states ∧
      ∃ acts body info, .ran .loginDone acts ∈ (states 1).log ∧ .output body ∈ acts ∧
        loginBackParam.decode body =
          some { expire := 0, sessionId := info, openid := info } := by
  have done : .ran .loginDone
      [.decodeReply (.written (sampleReply "o2" "k2")),
        answerHeader ⟨ascii "k2", ascii "o2", [], 0⟩ 0,
        .output (backParam ⟨ascii "k2", ascii "o2", [], 0⟩).encode, .finalize 0] ∈
      (((worker sampleConf (Fin 2)).run (fun _ => {}) twoLogins).get twoLogins_run 1).log := by
    decide +kernel
  have output : .output (backParam ⟨ascii "k2", ascii "o2", [], 0⟩).encode ∈
      [.decodeReply (.written (sampleReply "o2" "k2")),
        answerHeader ⟨ascii "k2", ascii "o2", [], 0⟩ 0,
        .output (backParam ⟨ascii "k2", ascii "o2", [], 0⟩).encode, .finalize 0] := by
    simp
  obtain ⟨_, info, _, _, _, _, _, read⟩ :=
    client_reads_own_openid (Option.some_get twoLogins_run).symm 1 done output
  exact ⟨_, (Option.some_get twoLogins_run).symm, _, _, info.openid, done, output, read⟩

end HttpBackEnd.Login
