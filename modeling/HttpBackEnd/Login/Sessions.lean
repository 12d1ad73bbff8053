import HttpBackEnd.Login.RedisSet
import HttpBackEnd.Login.Safety

/-! # Concurrent logins of one user

Any number of logins of one WeChat user, with WeChat and Redis: WeChat issues the
session keys one after the other, and Redis applies the commands in the order in which
they reach it. The logins themselves are the connections of `connection`; what the
network adds is where the replies come from. The commands of a login may reach Redis more
than once: nginx sends a request again when a cached connection turns out to be dead. The
order in which keys are issued and the order in which they are stored have nothing to do
with each other, and the key that reached Redis last is the one that stays.
-/

namespace HttpBackEnd.Login

open Nginx Json Transition

/-- The logins with the two servers. -/
structure Network (Run : Type) where
  conns : Run → Conn := fun _ => {}
  /-- The reply WeChat has issued for a login. -/
  replies : Run → Option Bytes := fun _ => none
  /-- The logins in the order in which WeChat issued their session keys. -/
  issued : List Run := []
  /-- The logins in the order in which their commands reached Redis. -/
  arrived : List Run := []
  store : Store

/-- An event of a login, WeChat issuing a session key, or commands that reach Redis. -/
inductive NetworkEvent (Run : Type) where
  | login (run : Run) (event : Event)
  | issue (run : Run) (reply : Bytes)
  | arrive (run : Run) (args : Bytes)

namespace Network

variable {Run : Type} [DecidableEq Run]

/-- Where a completion comes from: a WX exchange with status 200 has the reply WeChat
issued for the login, and Redis confirms commands only after they have reached it. -/
def heard (network : Network Run) (run : Run) : Entry → Bool
  | .completed _ .wx completion =>
      completion.status ≠ 200 || network.replies run = some completion.window
  | .completed _ .redis completion => redisStatus completion ≠ 200 || run ∈ network.arrived
  | _ => true

/-- One event of the network. A reply is issued for a login that has asked for it, once,
since WeChat takes a code only once, and carries the openid of the user. The commands of
a login may reach Redis at any time after it has sent them, and again. -/
def step (conf : Conf) (openid : Bytes) (network : Network Run) :
    NetworkEvent Run → Option (Network Run)
  | .login run event =>
      (Login.step conf (network.conns run) event).bind fun conn =>
        if conn.log.all (network.heard run) then
          some { network with conns := Function.update network.conns run conn }
        else none
  | .issue run reply =>
      if run ∉ network.issued ∧
          ((network.conns run).log.flatMap actsOf).any (startsAt .wx) = true ∧
          (WXSessionInfo.decode reply).map WXSessionInfo.openid = some openid then
        some { network with
          replies := Function.update network.replies run (some reply)
          issued := network.issued ++ [run] }
      else none
  | .arrive run args =>
      if .subrequest .redis args ∈ (network.conns run).log.flatMap actsOf then
        (Resp.parse (redis2BuildQuery (redisSetQueries args))).map fun commands =>
          { network with
            arrived := network.arrived ++ [run]
            store := commands.foldl Store.apply network.store }
      else none

/-- The session key of the reply WeChat issued for a login. -/
def sessionKey (network : Network Run) (run : Run) : Option Bytes :=
  ((network.replies run).bind WXSessionInfo.decode).map WXSessionInfo.sessionKey

end Network

/-- The logins of one user as a transition system. -/
def sessions (conf : Conf) (openid : Bytes) (Run : Type) [DecidableEq Run] :
    System (Network Run) (NetworkEvent Run) :=
  ⟨Network.step conf openid⟩

/-- The act sends a header with status 200. -/
def isOkHeader : Act → Bool
  | .sendHeader status _ _ _ => status = 200
  | _ => false

/-- The login has been answered with status 200. -/
def answeredOk (conn : Conn) : Bool := (conn.log.flatMap actsOf).any isOkHeader

/-! ## What one login has done -/

section Trails

variable {promise : Promise} {conf : Conf} {log : List Entry} {stage : Stage}

/-- The arguments are built from the reply of a WX exchange in the history. -/
def BuiltFrom (conf : Conf) (log : List Entry) (args : Bytes) : Prop :=
  ∃ completion info, .completed 0 .wx completion ∈ log ∧ completion.status = 200 ∧
    WXSessionInfo.decode completion.window = some info ∧ args = redisArgs conf info

theorem BuiltFrom.append {args : Bytes} (built : BuiltFrom conf log args) (later : List Entry) :
    BuiltFrom conf (log ++ later) args := by
  obtain ⟨completion, info, member, rest⟩ := built
  exact ⟨completion, info, List.mem_append_left _ member, rest⟩

/-- Whatever a login sends to Redis is built so. -/
theorem Trail.redis_request (trail : Trail promise conf log stage) {args : Bytes}
    (sent : .subrequest .redis args ∈ log.flatMap actsOf) : BuiltFrom conf log args := by
  induction trail with
  | start => simp at sent
  | refused rc special => simp [actsOf] at sent
  | loginQuits quits =>
      simp only [List.flatMap_cons, actsOf, List.flatMap_nil, List.append_nil] at sent
      cases quits <;> simp at sent
  | login decoded present => simp [actsOf] at sent
  | wxCompletes trail completion allowed ih =>
      simp only [List.flatMap_append, List.mem_append, List.flatMap_singleton, actsOf,
        List.not_mem_nil, or_false] at sent
      exact (ih sent).append _
  | fatherQuits trail quits ih =>
      simp only [List.flatMap_append, List.mem_append, List.flatMap_singleton, actsOf] at sent
      rcases sent with earlier | now
      · exact (ih earlier).append _
      · cases quits <;> simp at now
  | @father before completion info trail status decoded ih =>
      simp only [List.flatMap_append, List.mem_append, List.flatMap_singleton, actsOf] at sent
      rcases sent with earlier | now
      · exact (ih earlier).append _
      · obtain ⟨_, first, _, rfl⟩ := trail.wxDone_log
        simp only [List.mem_cons, reduceCtorEq, Act.subrequest.injEq, true_and, List.not_mem_nil,
          or_false, false_or] at now
        exact ⟨completion, info, by simp, status, decoded, now⟩
  | redisCompletes trail completion allowed ih =>
      simp only [List.flatMap_append, List.mem_append, List.flatMap_singleton, actsOf,
        List.not_mem_nil, or_false] at sent
      exact (ih sent).append _
  | doneQuits trail status ih =>
      simp only [List.flatMap_append, List.mem_append, List.flatMap_singleton, actsOf] at sent
      rcases sent with earlier | now
      · exact (ih earlier).append _
      · simp at now
  | done trail status answers ih =>
      simp only [List.flatMap_append, List.mem_append, List.flatMap_singleton, actsOf] at sent
      rcases sent with earlier | now
      · exact (ih earlier).append _
      · cases answers <;> simp [answerHeader] at now

/-- An answered login has a redis exchange with a good verdict. -/
theorem Trail.of_answeredOk {conn : Conn} (trail : Trail promise conf conn.log stage)
    (answered : answeredOk conn = true) :
    ∃ completion, .completed 1 .redis completion ∈ conn.log ∧ redisStatus completion = 200 := by
  obtain ⟨act, member, ok⟩ := List.any_eq_true.mp answered
  obtain ⟨entry, recorded, acted⟩ := List.mem_flatMap.mp member
  cases act with
  | sendHeader status length kind rc =>
      cases entry with
      | ran function acts =>
          obtain ⟨_, before, window, info, completion, earlier, good, _, same⟩ :=
            trail.of_header recorded acted
          obtain ⟨_, first, _, rfl⟩ := earlier.redisDone_log
          exact ⟨completion, by rw [same]; simp, good⟩
      | completed index location completion => cases acted
      | finalized rc => cases acted
  | decodeBody text => cases ok
  | decodeReply slot => cases ok
  | subrequest location args => cases ok
  | output body => cases ok
  | finalize rc => cases ok
  | crash => cases ok

end Trails

/-- Every event keeps the promise that excludes nothing. -/
theorem Event.meets_anything (event : Event) : event.Meets {} := by
  cases event with
  | start post body choices =>
      exact ⟨by cases body <;> simp [bodyMeets], .inl trivial, trivial⟩
  | clientRead body sub choices =>
      exact ⟨by cases body <;> simp [bodyMeets], by cases sub <;> simp [SubOutcome.Meets],
        .inl trivial, trivial⟩
  | clientWrite sub choices =>
      exact ⟨by cases sub <;> simp [SubOutcome.Meets], .inl trivial, trivial⟩
  | upstream index sub =>
      change sub.Meets _
      cases sub <;> simp [SubOutcome.Meets]
  | posted sub choices =>
      exact ⟨by cases sub <;> simp [SubOutcome.Meets], .inl trivial, trivial⟩
  | close => trivial

/-! ## What the network keeps -/

/-- WeChat issues a session key that passes through the arguments unchanged. -/
def NetworkEvent.Plain {Run : Type} : NetworkEvent Run → Prop
  | .issue _ reply => ∀ info, WXSessionInfo.decode reply = some info → survives info.sessionKey
  | _ => True

namespace Network

variable {Run : Type} [DecidableEq Run] {conf : Conf} {openid : Bytes} {network next : Network Run}

theorem step_login {run : Run} {event : Event}
    (stepped : network.step conf openid (.login run event) = some next) :
    ∃ conn, Login.step conf (network.conns run) event = some conn ∧
      conn.log.all (network.heard run) = true ∧
      next = { network with conns := Function.update network.conns run conn } := by
  obtain ⟨conn, moved, guarded⟩ := Option.bind_eq_some_iff.mp stepped
  split at guarded
  · rename_i heard
    cases guarded
    exact ⟨conn, moved, heard, rfl⟩
  · cases guarded

theorem step_issue {run : Run} {reply : Bytes}
    (stepped : network.step conf openid (.issue run reply) = some next) :
    run ∉ network.issued ∧
      (∃ info, WXSessionInfo.decode reply = some info ∧ info.openid = openid) ∧
      next = { network with
        replies := Function.update network.replies run (some reply)
        issued := network.issued ++ [run] } := by
  simp only [step] at stepped
  split at stepped
  · rename_i guarded
    obtain ⟨fresh, _, user⟩ := guarded
    cases stepped
    exact ⟨fresh, Option.map_eq_some_iff.mp user, rfl⟩
  · cases stepped

theorem step_arrive {run : Run} {args : Bytes}
    (stepped : network.step conf openid (.arrive run args) = some next) :
    .subrequest .redis args ∈ (network.conns run).log.flatMap actsOf ∧
      next = { network with
        arrived := network.arrived ++ [run]
        store := (redisSetQueries args).foldl Store.apply network.store } := by
  simp only [step, redis2BuildQuery, Resp.parse_encode, Option.map_some] at stepped
  split at stepped
  · rename_i sent
    cases stepped
    exact ⟨sent, rfl⟩
  · cases stepped

/-- What holds between the logins and the servers. -/
structure Consistent (conf : Conf) (openid : Bytes) (network : Network Run) : Prop where
  follows : ∀ run, Follows {} conf (network.conns run)
  recorded : ∀ run, (network.conns run).log.all (network.heard run) = true
  asked : ∀ run, run ∉ network.issued → network.replies run = none
  replied : ∀ run reply, network.replies run = some reply →
    ∃ info, WXSessionInfo.decode reply = some info ∧ info.openid = openid ∧
      survives info.sessionKey
  holds : ∀ run, network.arrived.getLast? = some run →
    ∃ key, network.sessionKey run = some key ∧ network.store openid = some key

/-- The reply of a WX exchange with status 200 was issued for the login. -/
theorem Consistent.wx_reply (consistent : Consistent conf openid network) {run : Run}
    {index : Nat} {completion : Completion}
    (completed : .completed index .wx completion ∈ (network.conns run).log)
    (status : completion.status = 200) : network.replies run = some completion.window := by
  have source := List.all_eq_true.mp (consistent.recorded run) _ completed
  simpa [heard, status] using source

/-- The commands of an answered login have reached Redis. -/
theorem Consistent.answered (consistent : Consistent conf openid network) {run : Run}
    (answered : answeredOk (network.conns run) = true) : run ∈ network.arrived := by
  obtain ⟨stage, trail, _⟩ := consistent.follows run
  obtain ⟨completion, completed, good⟩ := trail.of_answeredOk answered
  have source := List.all_eq_true.mp (consistent.recorded run) _ completed
  simpa [heard, good] using source

/-- What has been issued and what has arrived stays so. -/
theorem heard_mono {first second : Network Run} {run : Run} {log : List Entry}
    (source : log.all (first.heard run) = true)
    (issued : ∀ reply, first.replies run = some reply → second.replies run = some reply)
    (arrived : run ∈ first.arrived → run ∈ second.arrived) :
    log.all (second.heard run) = true := by
  rw [List.all_eq_true] at source ⊢
  intro entry member
  have found := source entry member
  cases entry with
  | ran function acts => rfl
  | finalized rc => rfl
  | completed index location completion =>
      cases location with
      | wx =>
          simp only [heard, ne_eq, decide_not, Bool.or_eq_true, decide_eq_true_eq] at found ⊢
          exact found.imp_right (issued _)
      | redis =>
          simp only [heard, ne_eq, decide_not, Bool.or_eq_true, decide_eq_true_eq] at found ⊢
          exact found.imp_right arrived

/-- A login takes a step. -/
theorem Consistent.login (consistent : Consistent conf openid network) {run : Run} {conn : Conn}
    {event : Event} (moved : Login.step conf (network.conns run) event = some conn)
    (source : conn.log.all (network.heard run) = true) :
    Consistent conf openid { network with conns := Function.update network.conns run conn } where
  follows other := by
    dsimp only
    by_cases same : other = run
    · subst same
      rw [Function.update_self]
      exact follows_keeps {} conf _ event conn event.meets_anything (consistent.follows other) moved
    · rw [Function.update_of_ne same]
      exact consistent.follows other
  recorded other := by
    dsimp only
    by_cases same : other = run
    · subst same
      rw [Function.update_self]
      exact source
    · rw [Function.update_of_ne same]
      exact consistent.recorded other
  asked := consistent.asked
  replied := consistent.replied
  holds := consistent.holds

/-- WeChat issues a session key. -/
theorem Consistent.issue (consistent : Consistent conf openid network) {run : Run} {reply : Bytes}
    {info : WXSessionInfo} (fresh : run ∉ network.issued)
    (decoded : WXSessionInfo.decode reply = some info) (user : info.openid = openid)
    (plain : survives info.sessionKey) :
    Consistent conf openid { network with
      replies := Function.update network.replies run (some reply)
      issued := network.issued ++ [run] } where
  follows := consistent.follows
  recorded other := by
    refine heard_mono (consistent.recorded other) ?_ id
    intro text issued
    have different : other ≠ run := by
      rintro rfl
      rw [consistent.asked other fresh] at issued
      cases issued
    dsimp only
    rw [Function.update_of_ne different]
    exact issued
  asked other absent := by
    simp only [List.mem_append, List.mem_singleton, not_or] at absent
    dsimp only
    rw [Function.update_of_ne absent.2]
    exact consistent.asked other absent.1
  replied other text issued := by
    dsimp only at issued
    by_cases same : other = run
    · subst same
      rw [Function.update_self] at issued
      cases issued
      exact ⟨info, decoded, user, plain⟩
    · rw [Function.update_of_ne same] at issued
      exact consistent.replied other text issued
  holds other last := by
    obtain ⟨key, stored, held⟩ := consistent.holds other last
    refine ⟨key, ?_, held⟩
    have different : other ≠ run := by
      rintro rfl
      rw [sessionKey, consistent.asked other fresh] at stored
      cases stored
    simp only [sessionKey, Function.update_of_ne different]
    exact stored

/-- The commands of a login reach Redis. -/
theorem Consistent.arrive (plainOpenid : survives openid)
    (consistent : Consistent conf openid network) {run : Run} {args : Bytes}
    (sent : .subrequest .redis args ∈ (network.conns run).log.flatMap actsOf) :
    Consistent conf openid { network with
      arrived := network.arrived ++ [run]
      store := (redisSetQueries args).foldl Store.apply network.store } where
  follows := consistent.follows
  recorded other :=
    heard_mono (consistent.recorded other) (fun _ issued => issued) (List.mem_append_left _)
  asked := consistent.asked
  replied := consistent.replied
  holds other last := by
    dsimp only at last ⊢
    rw [List.getLast?_concat] at last
    cases last
    obtain ⟨stage, trail, _⟩ := consistent.follows run
    obtain ⟨completion, info, completed, status, decoded, rfl⟩ := trail.redis_request sent
    have reply := consistent.wx_reply completed status
    obtain ⟨issued, read, user, plain⟩ := consistent.replied run _ reply
    rw [decoded] at read
    cases read
    refine ⟨info.sessionKey, ?_, ?_⟩
    · simp only [sessionKey, reply, Option.bind_some, decoded, Option.map_some]
    · obtain ⟨pwd, commands⟩ : ∃ pwd, redisSetQueries (redisArgs conf info) =
          [[ascii "auth", pwd], [ascii "set", info.openid, info.sessionKey]] :=
        redisSetQueries_set (user ▸ plainOpenid) plain
      simp [commands, Store.apply, user]

/-- Consistency is kept by every event with plain keys. -/
theorem consistent_keeps (plainOpenid : survives openid) :
    (sessions conf openid Run).Keeps NetworkEvent.Plain (Consistent conf openid) := by
  intro network event next plain consistent stepped
  change network.step conf openid event = some next at stepped
  cases event with
  | login run event =>
      obtain ⟨conn, moved, source, rfl⟩ := step_login stepped
      exact consistent.login moved source
  | issue run reply =>
      obtain ⟨fresh, ⟨info, decoded, user⟩, rfl⟩ := step_issue stepped
      exact consistent.issue fresh decoded user (plain info decoded)
  | arrive run args =>
      obtain ⟨sent, rfl⟩ := step_arrive stepped
      exact consistent.arrive plainOpenid sent

/-- Before the first event there is nothing to hold. -/
theorem consistent_initial (store : Store) : Consistent conf openid ({ store } : Network Run) where
  follows _ := ⟨.start, .start, .inl ⟨false, .blockReading, fun _ => rfl, rfl⟩⟩
  recorded _ := rfl
  asked _ _ := rfl
  replied _ _ issued := by cases issued
  holds _ last := by cases last

end Network

/-- **The key that reached Redis last stays.** Once all logins of a user have been
answered with status 200, what Redis holds under the openid is the session key of the
login whose commands reached it last, however often those of each have reached it.
It is the key that was issued last if that login was also the last to be issued one. -/
theorem last_arrived_session_stays {Run : Type} [DecidableEq Run] [Nonempty Run] {conf : Conf}
    {openid : Bytes} (plainOpenid : survives openid) {store : Store}
    {events : List (NetworkEvent Run)} {network : Network Run}
    (plain : ∀ event ∈ events, event.Plain)
    (ran : (sessions conf openid Run).run { store } events = some network)
    (answered : ∀ run, answeredOk (network.conns run) = true) :
    (∃ run key, network.arrived.getLast? = some run ∧ network.sessionKey run = some key ∧
      network.store openid = some key) ∧
    (network.arrived.getLast? = network.issued.getLast? →
      network.store openid = network.issued.getLast?.bind network.sessionKey) := by
  have consistent := (Network.consistent_keeps plainOpenid).run plain
    (Network.consistent_initial store) ran
  have reached : ∀ run, run ∈ network.arrived := fun run => consistent.answered (answered run)
  obtain ⟨someone⟩ := ‹Nonempty Run›
  obtain ⟨run, last⟩ : ∃ run, network.arrived.getLast? = some run :=
    Option.isSome_iff_exists.mp (List.getLast?_isSome.mpr (List.ne_nil_of_mem (reached someone)))
  obtain ⟨key, issued, held⟩ := consistent.holds run last
  refine ⟨⟨run, key, last, issued, held⟩, ?_⟩
  intro same
  rw [← same, last, held]
  exact issued.symm

/-! ## A stale key -/

/-- A login up to its WX request. -/
def asks {Run : Type} (run : Run) : List (NetworkEvent Run) :=
  [.login run (.start true (.complete [{ memory := sampleBody }]) {}),
    .login run (.posted .pending {})]

/-- The WX exchange of a login, up to its redis request. -/
def receives {Run : Type} (run : Run) (reply : Bytes) : List (NetworkEvent Run) :=
  [.login run (.upstream 0 (.complete ⟨0, 200, reply⟩ false true)),
    .login run (.posted .pending {}), .login run (.posted .pending {})]

/-- The redis exchange of a login, and the answer. -/
def stores {Run : Type} (run : Run) : List (NetworkEvent Run) :=
  [.login run (.upstream 1 (.complete ⟨0, 200, okReply⟩ false true)),
    .login run (.posted .pending {})]

/-- The arguments of the redis request of a login with a session key. -/
def staleArgs (key : String) : Bytes := redisArgs sampleConf ⟨ascii key, ascii "o1", [], 0⟩

/-- Two logins of one user. The second is issued its key last and stores it first. -/
def staleLogins : List (NetworkEvent Bool) :=
  asks false ++ asks true ++
    [.issue false (sampleReply "o1" "k1"), .issue true (sampleReply "o1" "k2")] ++
    receives true (sampleReply "o1" "k2") ++ [.arrive true (staleArgs "k2")] ++
    receives false (sampleReply "o1" "k1") ++ [.arrive false (staleArgs "k1")] ++
    stores true ++ stores false

/-- The state in which the two logins end. -/
def staleNetwork : Option (Network Bool) :=
  (sessions sampleConf (ascii "o1") Bool).run { store := fun _ => none } staleLogins

theorem staleNetwork_ends : staleNetwork.isSome := by
  decide +kernel

theorem staleNetwork_answered :
    ∀ run, answeredOk ((staleNetwork.get staleNetwork_ends).conns run) = true := by
  decide +kernel

/-- What the session store is not: with both logins answered, it holds the key that was
issued first. -/
theorem stale_session_overwrites :
    ¬ ∀ (Run : Type) [DecidableEq Run] (conf : Conf) (openid : Bytes) (store : Store)
      (events : List (NetworkEvent Run)) (network : Network Run),
      (sessions conf openid Run).run { store } events = some network →
      (∀ run, answeredOk (network.conns run) = true) →
      network.store openid = network.issued.getLast?.bind network.sessionKey := by
  intro fresh
  have held := fresh Bool sampleConf (ascii "o1") (fun _ => none) staleLogins _
    (Option.some_get staleNetwork_ends).symm staleNetwork_answered
  revert held
  decide +kernel

theorem last_arrived_session_sample :
    ∃ network, staleNetwork = some network ∧
      ∃ run key, network.arrived.getLast? = some run ∧ network.sessionKey run = some key ∧
        network.store (ascii "o1") = some key := by
  obtain ⟨first, second⟩ := decode_sampleReply
  have plain : ∀ event ∈ staleLogins, event.Plain := by
    intro event member
    cases event with
    | login run event => trivial
    | arrive run args => trivial
    | issue run reply =>
        simp only [staleLogins, asks, receives, stores, List.cons_append, List.nil_append,
          List.mem_cons, reduceCtorEq, NetworkEvent.issue.injEq, List.not_mem_nil, or_false,
          false_or] at member
        intro info decoded
        rcases member with ⟨_, rfl⟩ | ⟨_, rfl⟩
        · rw [first] at decoded
          cases decoded
          decide
        · rw [second] at decoded
          cases decoded
          decide
  obtain ⟨stays, _⟩ := last_arrived_session_stays (by decide) plain
    (Option.some_get staleNetwork_ends).symm staleNetwork_answered
  exact ⟨_, (Option.some_get staleNetwork_ends).symm, stays⟩

end HttpBackEnd.Login
