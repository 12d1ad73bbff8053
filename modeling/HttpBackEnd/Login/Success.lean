import HttpBackEnd.Login.Flow

/-! # A login without obstacles

The run in which everything goes well, with any body, any WX reply that decodes and a
redis reply the module takes for success. It shows what the flow is for, and it is the
run that statements of the form "some run answers 200" rest on.
-/

namespace HttpBackEnd.Login

open Nginx Json

/-- The events of a login without obstacles: the body is there at once, and both
upstreams complete with status 200. -/
def smoothLogin (body wxReply redisReply : Bytes) : List Event :=
  [.start true (.complete [{ memory := body }]) {}, .posted .pending {},
    .upstream 0 (.complete ⟨0, 200, wxReply⟩ false true), .posted .pending {},
    .posted .pending {}, .upstream 1 (.complete ⟨0, 200, redisReply⟩ false true),
    .posted .pending {}]

theorem smoothLogin_start (conf : Conf) {body : Bytes} {param : LoginParam}
    (sent : LoginParam.decode body = some param) (present : param.code ≠ []) :
    step conf {} (.start true (.complete [{ memory := body }]) {}) = some
      { started := true, data := some 0, ctx := some {}, postponed := [0], posted := [some 0]
        count := 2, subs := [⟨.wx, wxArgs conf param.code, true⟩]
        log := [.ran .loginHandler
          [.decodeBody body, .subrequest .wx (wxArgs conf param.code)]] } := by
  have nonempty : body.length ≠ 0 := by
    intro empty
    rw [List.length_eq_zero_iff.mp empty] at sent
    cases sent
  have code : param.code.isEmpty = false := by simpa using present
  change some (contentPhase conf true (.complete [{ memory := body }]) {} {}) = _
  simp only [contentPhase, handOver, customerManagerLoginHandler, sent, nonempty, code]
  rfl

theorem smoothLogin_father (conf : Conf) {wxReply : Bytes} {info : WXSessionInfo}
    (decoded : WXSessionInfo.decode wxReply = some info) (args : Bytes) (log : List Entry) :
    step conf
      { started := true, status := 200, writeHandler := .father
        ctx := some { wx := .written wxReply }, posted := [none], subs := [⟨.wx, args, false⟩]
        log } (.posted .pending {}) = some
      { started := true, status := 200, data := some 1, writeHandler := .father
        ctx := some { wx := .written wxReply }, postponed := [1], posted := [some 1], count := 2
        subs := [⟨.wx, args, false⟩, ⟨.redis, redisArgs conf info, true⟩]
        log := log ++ [.ran .father
          [.decodeReply (.written wxReply), .subrequest .redis (redisArgs conf info)]] } := by
  change some (record .father (wxLoginSubrequestPostFatherHandler conf {} _)) = _
  simp only [wxLoginSubrequestPostFatherHandler, Slot.bytes, decoded]
  rfl

theorem smoothLogin_done (conf : Conf) {wxReply : Bytes} {info : WXSessionInfo}
    (decoded : WXSessionInfo.decode wxReply = some info) {completion : Completion}
    (stored : redisStatus completion = 200) (subs : List Sub) (redis : Slot) (log : List Entry) :
    step conf
      { started := true, status := redisStatus completion, writeHandler := .loginDone
        ctx := some { wx := .written wxReply, redis }, posted := [none], subs, log }
      (.posted .pending {}) = some
      { started := true, closed := true, status := 200, count := 0
        ctx := some { wx := .written wxReply, redis }, subs
        log := log ++ [.ran .loginDone [.decodeReply (.written wxReply), answerHeader info 0,
          .output (backParam info).encode, .finalize 0]] } := by
  rw [stored]
  change some (record .loginDone (loginDone {} _)) = _
  simp only [loginDone, Slot.bytes, decoded]
  rfl

/-- A login without obstacles goes through. -/
theorem smoothLogin_run (conf : Conf) {body wxReply redisReply : Bytes} {param : LoginParam}
    {info : WXSessionInfo} (sent : LoginParam.decode body = some param)
    (present : param.code ≠ []) (decoded : WXSessionInfo.decode wxReply = some info)
    (stored : redisOk redisReply = true) :
    (connection conf).run {} (smoothLogin body wxReply redisReply) = some
      { started := true, closed := true, status := 200, count := 0
        ctx := some { wx := .written wxReply, redis := .written redisReply }
        subs := [⟨.wx, wxArgs conf param.code, false⟩, ⟨.redis, redisArgs conf info, false⟩]
        log :=
          [.ran .loginHandler [.decodeBody body, .subrequest .wx (wxArgs conf param.code)],
            .completed 0 .wx ⟨0, 200, wxReply⟩,
            .ran .father
              [.decodeReply (.written wxReply), .subrequest .redis (redisArgs conf info)],
            .completed 1 .redis ⟨0, 200, redisReply⟩,
            .ran .loginDone [.decodeReply (.written wxReply), answerHeader info 0,
              .output (backParam info).encode, .finalize 0]] } := by
  have status : redisStatus ⟨0, 200, redisReply⟩ = 200 := by
    simp [redisStatus, stored]
  unfold smoothLogin
  refine ((connection conf).run_cons_eq_some).mpr ⟨_, smoothLogin_start conf sent present, ?_⟩
  refine ((connection conf).run_cons_eq_some).mpr ⟨_, rfl, ?_⟩
  refine ((connection conf).run_cons_eq_some).mpr ⟨_, rfl, ?_⟩
  refine ((connection conf).run_cons_eq_some).mpr ⟨_, smoothLogin_father conf decoded _ _, ?_⟩
  refine ((connection conf).run_cons_eq_some).mpr ⟨_, rfl, ?_⟩
  refine ((connection conf).run_cons_eq_some).mpr ⟨_, rfl, ?_⟩
  exact ((connection conf).run_cons_eq_some).mpr
    ⟨_, smoothLogin_done conf decoded status _ _ _, rfl⟩

/-! ## A sample -/

/-- The body of a login request. -/
def sampleBody : Bytes := ascii "\x7b\"code\":\"c1\"\x7d"

/-- A reply of WeChat for a user. -/
def sampleReply (openid sessionKey : String) : Bytes :=
  ascii "\x7b\"session_key\":\"" ++ ascii sessionKey ++ ascii "\",\"openid\":\"" ++ ascii openid ++
    ascii "\"\x7d"

/-- The reply of Redis to a successful pair of commands. -/
def okReply : Bytes := ascii "+OK\r\n+OK\r\n"

theorem decode_sampleBody : LoginParam.decode sampleBody = some ⟨ascii "c1"⟩ := by
  decide +kernel

theorem decode_sampleReply :
    WXSessionInfo.decode (sampleReply "o1" "k1") = some ⟨ascii "k1", ascii "o1", [], 0⟩ ∧
      WXSessionInfo.decode (sampleReply "o1" "k2") = some ⟨ascii "k2", ascii "o1", [], 0⟩ := by
  decide +kernel

theorem redisOk_okReply : redisOk okReply = true := by
  decide +kernel

/-- The login with the sample body, for a reply of WeChat that decodes. -/
theorem sampleLogin_run (conf : Conf) {wxReply : Bytes} {info : WXSessionInfo}
    (decoded : WXSessionInfo.decode wxReply = some info) :
    (connection conf).run {} (smoothLogin sampleBody wxReply okReply) = some
      { started := true, closed := true, status := 200, count := 0
        ctx := some { wx := .written wxReply, redis := .written okReply }
        subs := [⟨.wx, wxArgs conf (ascii "c1"), false⟩, ⟨.redis, redisArgs conf info, false⟩]
        log :=
          [.ran .loginHandler
              [.decodeBody sampleBody, .subrequest .wx (wxArgs conf (ascii "c1"))],
            .completed 0 .wx ⟨0, 200, wxReply⟩,
            .ran .father
              [.decodeReply (.written wxReply), .subrequest .redis (redisArgs conf info)],
            .completed 1 .redis ⟨0, 200, okReply⟩,
            .ran .loginDone [.decodeReply (.written wxReply), answerHeader info 0,
              .output (backParam info).encode, .finalize 0]] } :=
  smoothLogin_run conf decode_sampleBody (List.cons_ne_nil _ _) decoded redisOk_okReply

end HttpBackEnd.Login
