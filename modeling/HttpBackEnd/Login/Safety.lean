import HttpBackEnd.Login.Follow
import HttpBackEnd.Login.Success

/-! # Order and provenance

What holds of every run of a login request, whatever the environment does: the
exchanges happen in order and at most once, and an answer with status 200 comes from
the request's own two exchanges.
-/

namespace HttpBackEnd.Login

open Nginx Json Transition

/-- The completion an event delivers. -/
def Event.completion : Event → Option Completion
  | .clientRead _ (.complete completion _ _) _ => some completion
  | .clientWrite (.complete completion _ _) _ => some completion
  | .upstream _ (.complete completion _ _) => some completion
  | .posted (.complete completion _ _) _ => some completion
  | _ => none

/-- The event hands over a body without a buffer, or leaves no memory for the
arguments of a subrequest. -/
def Event.faulty : Event → Bool
  | .start _ body choices => body = .complete [] || !choices.args
  | .clientRead body _ choices => body = .complete [] || !choices.args
  | .clientWrite _ choices => !choices.args
  | .posted _ choices => !choices.args
  | .upstream _ _ => false
  | .close => false

/-- The outcome ends the request without waking the main request. -/
def SubOutcome.drops : SubOutcome → Bool
  | .pending => false
  | .complete _ error posted => error || !posted

/-- The event drops the connection: `c->close`, `c->error`, or no memory to wake the
main request. -/
def Event.drops : Event → Bool
  | .start _ _ _ => false
  | .clientRead _ sub _ => sub.drops
  | .clientWrite sub _ => sub.drops
  | .upstream _ sub => sub.drops
  | .posted sub _ => sub.drops
  | .close => true

/-- What the events of a run themselves bear out. -/
def borneOut (events : List Event) : Promise where
  fault := ∃ event ∈ events, event.faulty = true
  drop := ∃ event ∈ events, event.drops = true
  completes completion := ∃ event ∈ events, event.completion = some completion

/-- Every event of a run is borne out by the run. -/
theorem meets_borneOut {events : List Event} {event : Event} (member : event ∈ events) :
    event.Meets (borneOut events) := by
  have decided : ∀ choices : Choices, (choices.args = false → event.faulty = true) →
      choicesMeet (borneOut events) choices := by
    intro choices shown
    refine ⟨?_, trivial⟩
    cases allocated : choices.args with
    | true => exact .inr rfl
    | false => exact .inl ⟨event, member, shown allocated⟩
  have handed : ∀ body, (body = .complete [] → event.faulty = true) →
      bodyMeets (borneOut events) body := by
    intro body shown
    cases body with
    | pending => trivial
    | failed rc => trivial
    | complete bufs =>
        by_cases empty : bufs = []
        · exact .inl ⟨event, member, shown (by rw [empty])⟩
        · exact .inr empty
  have completed : ∀ sub : SubOutcome, (∀ completion error posted,
      sub = .complete completion error posted → event.completion = some completion) →
      (sub.drops = true → event.drops = true) → sub.Meets (borneOut events) := by
    intro sub shown dropped
    cases sub with
    | pending => trivial
    | complete completion error posted =>
        refine ⟨⟨event, member, shown completion error posted rfl⟩, ?_⟩
        by_cases drops : (SubOutcome.complete completion error posted).drops = true
        · exact .inl ⟨event, member, dropped drops⟩
        · exact .inr (by simpa [SubOutcome.drops] using drops)
  cases event with
  | start post body choices =>
      exact ⟨handed body fun same => by simp [Event.faulty, same],
        decided choices fun same => by simp [Event.faulty, same]⟩
  | clientRead body sub choices =>
      exact ⟨handed body fun same => by simp [Event.faulty, same],
        completed sub (fun _ _ _ same => by rw [same]; rfl) id,
        decided choices fun same => by simp [Event.faulty, same]⟩
  | clientWrite sub choices =>
      exact ⟨completed sub (fun _ _ _ same => by rw [same]; rfl) id,
        decided choices fun same => by simp [Event.faulty, same]⟩
  | upstream index sub => exact completed sub (fun _ _ _ same => by rw [same]; rfl) id
  | posted sub choices =>
      exact ⟨completed sub (fun _ _ _ same => by rw [same]; rfl) id,
        decided choices fun same => by simp [Event.faulty, same]⟩
  | close => exact ⟨.close, member, rfl⟩

/-- Every run follows the flow with the faults and completions its own events show. -/
theorem follows_borneOut {conf : Conf} {events : List Event} {conn : Conn}
    (ran : (connection conf).run {} events = some conn) :
    Follows (borneOut events) conf conn :=
  follows_run (fun _ member => meets_borneOut member) ran

/-! ## An answer comes from the request's own exchanges -/

variable {promise : Promise} {conf : Conf} {log : List Entry}

/-- A function that quits sends no header. -/
theorem Quits.no_header {fault : Prop} {rc : Int} {acts : List Act} (quits : Quits fault rc acts)
    {status length : Nat} {kind : Bytes} {result : Int} :
    Act.sendHeader status length kind result ∉ acts := by
  cases quits <;> simp

/-- A trail in which a header was sent is a whole login. -/
theorem Trail.of_header {stage : Stage} (trail : Trail promise conf log stage) {acts : List Act}
    {function : Function} {status length : Nat} {kind : Bytes} {rc : Int}
    (invoked : .ran function acts ∈ log) (sent : .sendHeader status length kind rc ∈ acts) :
    stage = .ended ∧ ∃ before window info completion,
      Trail promise conf before (.redisDone window info completion) ∧
      redisStatus completion = 200 ∧ Answers promise window info acts ∧
      log = before ++ [.ran .loginDone acts] := by
  induction trail with
  | start => simp at invoked
  | refused rc special => simp at invoked
  | loginQuits quits =>
      simp only [List.mem_singleton, Entry.ran.injEq] at invoked
      obtain ⟨_, rfl⟩ := invoked
      exact absurd sent quits.no_header
  | login decoded present =>
      simp only [List.mem_singleton, Entry.ran.injEq] at invoked
      obtain ⟨_, rfl⟩ := invoked
      simp at sent
  | wxCompletes trail completion allowed ih =>
      simp only [List.mem_append, List.mem_singleton, reduceCtorEq, or_false] at invoked
      cases (ih invoked).1
  | fatherQuits trail quits ih =>
      simp only [List.mem_append, List.mem_singleton, Entry.ran.injEq] at invoked
      rcases invoked with earlier | ⟨_, rfl⟩
      · cases (ih earlier).1
      · exact absurd sent quits.no_header
  | father trail status decoded ih =>
      simp only [List.mem_append, List.mem_singleton, Entry.ran.injEq] at invoked
      rcases invoked with earlier | ⟨_, rfl⟩
      · cases (ih earlier).1
      · simp at sent
  | redisCompletes trail completion allowed ih =>
      simp only [List.mem_append, List.mem_singleton, reduceCtorEq, or_false] at invoked
      cases (ih invoked).1
  | doneQuits trail status ih =>
      simp only [List.mem_append, List.mem_singleton, Entry.ran.injEq] at invoked
      rcases invoked with earlier | ⟨_, rfl⟩
      · cases (ih earlier).1
      · simp at sent
  | done trail status answers ih =>
      simp only [List.mem_append, List.mem_singleton, Entry.ran.injEq] at invoked
      rcases invoked with earlier | ⟨_, rfl⟩
      · cases (ih earlier).1
      · exact ⟨rfl, _, _, _, _, trail, status, answers, rfl⟩

/-- The status is 200 only for the two replies that confirm both commands. -/
theorem redisStatus_ok {completion : Completion} (ok : redisStatus completion = 200) :
    completion.status = 200 ∧
      (completion.window = ascii "+OK\n+OK\n" ∨ completion.window = ascii "+OK\r\n+OK\r\n") := by
  unfold redisStatus at ok
  split at ok
  · rename_i status
    refine ⟨status, ?_⟩
    split at ok
    · rename_i reply
      simpa [redisOk] using reply
    · cases ok
  · rename_i status
    exact absurd ok status

/-- **An answer with status 200.** In any interleaving of any number of requests,
when `login_done` sends a header for a request, the history of that request is its
own WX exchange with status 200 and a reply that decodes, then its own redis exchange
with status 200 and one of the two expected replies, both delivered by events of that
request. The slot that is decoded again was written in this run, and the body carries
the openid from which the redis key was built. -/
theorem login_done_answers_own_exchange {Index : Type} [DecidableEq Index] {conf : Conf}
    {events : List (Index × Event)} {states : Index → Conn}
    (ran : (worker conf Index).run (fun _ => {}) events = some states) (request : Index)
    {acts : List Act} {status length : Nat} {kind : Bytes} {rc : Int}
    (invoked : .ran .loginDone acts ∈ (states request).log)
    (sent : .sendHeader status length kind rc ∈ acts) :
    ∃ text code wx info redis,
      (states request).log =
        [.ran .loginHandler [.decodeBody text, .subrequest .wx (wxArgs conf code)],
          .completed 0 .wx wx,
          .ran .father [.decodeReply (.written wx.window),
            .subrequest .redis (ascii "key=" ++ info.openid ++ ascii "&value=" ++
              info.sessionKey ++ ascii "&pwd=" ++ conf.redisPwd)],
          .completed 1 .redis redis,
          .ran .loginDone acts] ∧
      (∃ event ∈ eventsOf request events, event.completion = some wx) ∧
      (∃ event ∈ eventsOf request events, event.completion = some redis) ∧
      wx.status = 200 ∧ WXSessionInfo.decode wx.window = some info ∧
      redis.status = 200 ∧
      (redis.window = ascii "+OK\n+OK\n" ∨ redis.window = ascii "+OK\r\n+OK\r\n") ∧
      (∀ slot, .decodeReply slot ∈ acts → slot = .written wx.window) ∧
      (∀ body, .output body ∈ acts → body =
        LoginBackParam.encode { expire := 0, sessionId := info.openid, openid := info.openid }) ∧
      status = 200 := by
  have own := interleave_run_project ran request
  obtain ⟨stage, trail, _⟩ := follows_borneOut own
  obtain ⟨_, before, window, info, redis, earlier, ok, answers, same⟩ :=
    trail.of_header invoked sent
  obtain ⟨redisOwn, third, redisTrail, rfl⟩ := earlier.redisDone_log
  obtain ⟨decoded, second, code, wxTrail, rfl⟩ := redisTrail.redis_log
  obtain ⟨wxOwn, first, loginTrail, rfl⟩ := wxTrail.wxDone_log
  obtain ⟨text, param, _, _, rfl⟩ := loginTrail.wx_log
  obtain ⟨redisStatus, reply⟩ := redisStatus_ok ok
  refine ⟨text, param.code, ⟨code, 200, window⟩, info, redis, ?_, wxOwn, redisOwn, rfl, decoded,
    redisStatus, reply, ?_, ?_, ?_⟩
  · rw [same, redisArgs_eq]
    rfl
  · cases answers <;> simp [answerHeader]
  · cases answers <;> simp [answerHeader, backParam]
  · cases answers <;> (simp [answerHeader] at sent; exact sent.1)

/-- Two logins, event by event in turn. -/
def twoLogins : List (Fin 2 × Event) :=
  List.flatten (List.zipWith (fun first second => [(0, first), (1, second)])
    (smoothLogin sampleBody (sampleReply "o1" "k1") okReply)
    (smoothLogin sampleBody (sampleReply "o2" "k2") okReply))

theorem twoLogins_run : ((worker sampleConf (Fin 2)).run (fun _ => {}) twoLogins).isSome := by
  decide +kernel

theorem login_done_answers_two_logins :
    ∃ states : Fin 2 → Conn, ∃ acts,
      (worker sampleConf (Fin 2)).run (fun _ => {}) twoLogins = some states ∧
      .ran .loginDone acts ∈ (states 0).log ∧
      ∃ wx info, WXSessionInfo.decode wx = some info ∧
        ∀ body, .output body ∈ acts → body =
          LoginBackParam.encode { expire := 0, sessionId := info.openid, openid := info.openid } := by
  have done : .ran .loginDone
      [.decodeReply (.written (sampleReply "o1" "k1")),
        answerHeader ⟨ascii "k1", ascii "o1", [], 0⟩ 0,
        .output (backParam ⟨ascii "k1", ascii "o1", [], 0⟩).encode, .finalize 0] ∈
      (((worker sampleConf (Fin 2)).run (fun _ => {}) twoLogins).get twoLogins_run 0).log := by
    decide +kernel
  obtain ⟨_, _, wx, info, _, _, _, _, _, decoded, _, _, _, body, _⟩ :=
    login_done_answers_own_exchange (Option.some_get twoLogins_run).symm 0 done
      (List.mem_cons_of_mem _ List.mem_cons_self)
  exact ⟨_, _, (Option.some_get twoLogins_run).symm, done, wx.window, info, decoded, body⟩

/-! ## In order, and at most once -/

/-- The acts of an entry. -/
def actsOf : Entry → List Act
  | .ran _ acts => acts
  | _ => []

/-- The act starts a subrequest to the location. -/
def startsAt (location : Location) : Act → Bool
  | .subrequest other _ => other = location
  | _ => false

/-- The act starts a subrequest. -/
def isStart : Act → Bool
  | .subrequest _ _ => true
  | _ => false

/-- The act finalizes the main request. -/
def isFinalize : Act → Bool
  | .finalize _ => true
  | _ => false

/-- The entry is an invocation of `login_done`. -/
def isLoginDone : Entry → Bool
  | .ran .loginDone _ => true
  | _ => false

/-- The subrequests to a location that a history has started. -/
def startCount (location : Location) (log : List Entry) : Nat :=
  (log.flatMap actsOf).countP (startsAt location)

@[simp] theorem startCount_append (location : Location) (first second : List Entry) :
    startCount location (first ++ second) =
      startCount location first + startCount location second := by
  simp [startCount]

/-- A function that quits starts nothing. -/
theorem Quits.startCount {fault : Prop} {rc : Int} {acts : List Act} (quits : Quits fault rc acts)
    (location : Location) : acts.countP (startsAt location) = 0 := by
  cases quits <;> simp [startsAt]

theorem Answers.startCount {window : Bytes} {info : WXSessionInfo} {acts : List Act}
    (answers : Answers promise window info acts) (location : Location) :
    acts.countP (startsAt location) = 0 := by
  cases answers <;> simp [startsAt, answerHeader]

/-- **At most one WX subrequest** is started. -/
theorem Trail.wx_starts {stage : Stage} (trail : Trail promise conf log stage) :
    startCount .wx log ≤ 1 := by
  induction trail with
  | start => exact Nat.zero_le 1
  | refused rc special => exact Nat.zero_le 1
  | loginQuits quits => simp [startCount, actsOf, quits.startCount]
  | login decoded present => simp [startCount, actsOf, startsAt]
  | wxCompletes trail completion allowed ih => simpa [startCount, actsOf] using ih
  | fatherQuits trail quits ih => simpa [startCount, actsOf, quits.startCount] using ih
  | father trail status decoded ih => simpa [startCount, actsOf, startsAt] using ih
  | redisCompletes trail completion allowed ih => simpa [startCount, actsOf] using ih
  | doneQuits trail status ih => simpa [startCount, actsOf, startsAt] using ih
  | done trail status answers ih => simpa [startCount, actsOf, answers.startCount] using ih

/-- Before the father handler no history has a redis subrequest. -/
theorem Trail.wxDone_redis {completion : Completion}
    (trail : Trail promise conf log (.wxDone completion)) : startCount .redis log = 0 := by
  obtain ⟨_, before, earlier, rfl⟩ := trail.wxDone_log
  obtain ⟨text, param, _, _, rfl⟩ := earlier.wx_log
  simp [startCount, actsOf, startsAt]

/-- **At most one Redis subrequest** is started. -/
theorem Trail.redis_starts {stage : Stage} (trail : Trail promise conf log stage) :
    startCount .redis log ≤ 1 := by
  induction trail with
  | start => exact Nat.zero_le 1
  | refused rc special => exact Nat.zero_le 1
  | loginQuits quits => simp [startCount, actsOf, quits.startCount]
  | login decoded present => simp [startCount, actsOf, startsAt]
  | wxCompletes trail completion allowed ih => simpa [startCount, actsOf] using ih
  | fatherQuits trail quits ih => simpa [startCount, actsOf, quits.startCount] using ih
  | father trail status decoded ih =>
      rw [startCount_append, trail.wxDone_redis]
      simp [startCount, actsOf, startsAt]
  | redisCompletes trail completion allowed ih => simpa [startCount, actsOf] using ih
  | doneQuits trail status ih => simpa [startCount, actsOf, startsAt] using ih
  | done trail status answers ih => simpa [startCount, actsOf, answers.startCount] using ih

/-- Before the redis exchange is over no history has an invocation of `login_done`. -/
theorem Trail.redisDone_loginDone {window : Bytes} {info : WXSessionInfo} {completion : Completion}
    (trail : Trail promise conf log (.redisDone window info completion)) :
    log.countP isLoginDone = 0 := by
  obtain ⟨_, third, redisTrail, rfl⟩ := trail.redisDone_log
  obtain ⟨_, second, _, wxTrail, rfl⟩ := redisTrail.redis_log
  obtain ⟨_, first, loginTrail, rfl⟩ := wxTrail.wxDone_log
  obtain ⟨_, _, _, _, rfl⟩ := loginTrail.wx_log
  simp [isLoginDone]

/-- **The login ends at most once.** -/
theorem Trail.loginDone_count {stage : Stage} (trail : Trail promise conf log stage) :
    log.countP isLoginDone ≤ 1 := by
  induction trail with
  | start => exact Nat.zero_le 1
  | refused rc special => exact Nat.zero_le 1
  | loginQuits quits => simp [isLoginDone]
  | login decoded present => simp [isLoginDone]
  | wxCompletes trail completion allowed ih => simpa [isLoginDone] using ih
  | fatherQuits trail quits ih => simpa [isLoginDone] using ih
  | father trail status decoded ih => simpa [isLoginDone] using ih
  | redisCompletes trail completion allowed ih => simpa [isLoginDone] using ih
  | doneQuits trail status ih =>
      rw [List.countP_append, trail.redisDone_loginDone]
      simp [isLoginDone]
  | done trail status answers ih =>
      rw [List.countP_append, trail.redisDone_loginDone]
      simp [isLoginDone]

/-- Where an entry stands in a history with one more entry. -/
theorem split_concat {before after : List Entry} {entry last : Entry}
    (same : log ++ [last] = before ++ entry :: after) :
    (before = log ∧ entry = last) ∨ ∃ rest, log = before ++ entry :: rest := by
  rcases List.append_eq_append_iff.mp same with ⟨middle, rfl, tail⟩ | ⟨middle, rfl, tail⟩
  · cases middle with
    | nil =>
        cases tail
        exact .inl ⟨List.append_nil _, rfl⟩
    | cons head middle => simp at tail
  · cases middle with
    | nil =>
        cases tail
        exact .inl ⟨(List.append_nil _).symm, rfl⟩
    | cons head middle =>
        cases tail
        exact .inr ⟨middle, rfl⟩

/-- What the history before an invocation must hold: a redis subrequest needs a WX
exchange with status 200 whose reply decodes, `login_done` a redis exchange. -/
def Prepared (before : List Entry) (function : Function) (acts : List Act) : Prop :=
  (∀ args, .subrequest .redis args ∈ acts → ∃ completion, .completed 0 .wx completion ∈ before ∧
    completion.status = 200 ∧ (WXSessionInfo.decode completion.window).isSome) ∧
  (function = .loginDone → ∃ completion, .completed 1 .redis completion ∈ before)

/-- A function that quits before the end needs no preparation. -/
theorem Quits.prepared {fault : Prop} {rc : Int} {acts : List Act} (quits : Quits fault rc acts)
    {function : Function} (early : function ≠ .loginDone) (before : List Entry) :
    Prepared before function acts := by
  refine ⟨?_, fun last => absurd last early⟩
  intro args started
  cases quits <;> simp at started

/-- Whatever has run has run after what it needs. -/
theorem Trail.prepared {stage : Stage} (trail : Trail promise conf log stage)
    {before after : List Entry} {function : Function} {acts : List Act}
    (split : log = before ++ .ran function acts :: after) : Prepared before function acts := by
  induction trail generalizing before after with
  | start => simp at split
  | refused rc special =>
      rcases split_concat ((List.nil_append _).trans split) with ⟨_, same⟩ | ⟨rest, same⟩
      · cases same
      · simp at same
  | loginQuits quits =>
      rcases split_concat ((List.nil_append _).trans split) with ⟨rfl, same⟩ | ⟨rest, same⟩
      · cases same
        exact quits.prepared (by decide) _
      · simp at same
  | login decoded present =>
      rcases split_concat ((List.nil_append _).trans split) with ⟨rfl, same⟩ | ⟨rest, same⟩
      · cases same
        exact ⟨by simp, by simp⟩
      · simp at same
  | wxCompletes trail completion allowed ih =>
      rcases split_concat split with ⟨_, same⟩ | ⟨rest, same⟩
      · cases same
      · exact ih same
  | fatherQuits trail quits ih =>
      rcases split_concat split with ⟨_, same⟩ | ⟨rest, same⟩
      · cases same
        exact quits.prepared (by decide) _
      · exact ih same
  | @father earlier completion info trail status decoded ih =>
      rcases split_concat split with ⟨rfl, same⟩ | ⟨rest, same⟩
      · cases same
        obtain ⟨_, first, _, rfl⟩ := trail.wxDone_log
        refine ⟨fun args started => ⟨completion, by simp, status, by simp [decoded]⟩, by simp⟩
      · exact ih same
  | redisCompletes trail completion allowed ih =>
      rcases split_concat split with ⟨_, same⟩ | ⟨rest, same⟩
      · cases same
      · exact ih same
  | @doneQuits earlier window info completion trail status ih =>
      rcases split_concat split with ⟨rfl, same⟩ | ⟨rest, same⟩
      · cases same
        obtain ⟨_, third, _, rfl⟩ := trail.redisDone_log
        exact ⟨by simp, fun _ => ⟨completion, by simp⟩⟩
      · exact ih same
  | @done earlier window info completion acts trail status answers ih =>
      rcases split_concat split with ⟨rfl, same⟩ | ⟨rest, same⟩
      · cases same
        obtain ⟨_, third, _, rfl⟩ := trail.redisDone_log
        refine ⟨?_, fun _ => ⟨completion, by simp⟩⟩
        intro args started
        cases answers <;> simp [answerHeader] at started
      · exact ih same

/-- A function that quits finalizes the request once, if it does not crash. -/
theorem Quits.once {fault : Prop} {rc : Int} {acts : List Act} (quits : Quits fault rc acts) :
    (acts.countP isStart = 0 ∧ acts.countP isFinalize = 1) ∨ (.crash ∈ acts ∧ fault) := by
  cases quits with
  | finalizes => exact .inl ⟨rfl, rfl⟩
  | bodyRead text => exact .inl ⟨rfl, rfl⟩
  | replyRead slot => exact .inl ⟨rfl, rfl⟩
  | faults possible => exact .inr ⟨by simp, possible⟩
  | bodyFaults possible text => exact .inr ⟨by simp, possible⟩
  | replyFaults possible slot => exact .inr ⟨by simp, possible⟩

/-- An invocation starts one subrequest or finalizes the request once, unless it
faults. -/
theorem Trail.once {stage : Stage} (trail : Trail promise conf log stage) {function : Function}
    {acts : List Act} (invoked : .ran function acts ∈ log) :
    (acts.countP isStart = 1 ∧ acts.countP isFinalize = 0) ∨
    (acts.countP isStart = 0 ∧ acts.countP isFinalize = 1) ∨ (.crash ∈ acts ∧ promise.fault) := by
  cases trail.invocation invoked with
  | loginQuits quits => exact .inr quits.once
  | login decoded present => exact .inl ⟨rfl, rfl⟩
  | fatherQuits allowed quits => exact .inr (quits.mono And.left).once
  | father decoded => exact .inl ⟨rfl, rfl⟩
  | doneQuits allowed status => exact .inr (.inl ⟨rfl, rfl⟩)
  | done decoded answers =>
      refine .inr (.inl ?_)
      cases answers <;> exact ⟨rfl, rfl⟩

/-- At no stage are two subrequests outstanding. -/
theorem Agrees.outstanding {conn : Conn} {stage : Stage} (agrees : Agrees conn stage) :
    conn.subs.countP Sub.outstanding ≤ 1 := by
  cases stage with
  | start =>
      obtain ⟨_, _, _, same⟩ := agrees
      rw [same]
      exact Nat.zero_le 1
  | wx =>
      obtain ⟨_, _, _, _, same⟩ := agrees
      rw [same]
      exact Nat.le_refl 1
  | wxDone completion =>
      obtain ⟨_, _, _, same⟩ := agrees
      rw [same]
      exact Nat.zero_le 1
  | redis window info =>
      obtain ⟨_, _, _, _, _, _, _, same⟩ := agrees
      rw [same]
      exact Nat.le_refl 1
  | redisDone window info completion =>
      obtain ⟨_, _, _, _, _, same⟩ := agrees
      rw [same]
      exact Nat.zero_le 1
  | ended =>
      rcases agrees with gone | ⟨_, one⟩
      · rw [List.countP_eq_zero.mpr (by simpa using gone.released)]
        exact Nat.zero_le 1
      · exact one

/-- **In order and at most once.** In every run of a login request at most one
subrequest goes to each location, the redis subrequest only after the WX exchange has
completed with status 200 and its reply has been decoded; `login_done` runs at most
once and only after the redis exchange; two subrequests are never outstanding; and
every invocation starts exactly one subrequest and does not finalize, or finalizes
exactly once and starts none. An invocation that does neither has hit a null pointer,
which needs a body without a buffer or no memory for the arguments. -/
theorem login_in_order_at_most_once {conf : Conf} {events : List Event} {conn : Conn}
    (ran : (connection conf).run {} events = some conn) :
    (∀ location, (conn.log.flatMap actsOf).countP (startsAt location) ≤ 1) ∧
    conn.log.countP isLoginDone ≤ 1 ∧
    (∀ before function acts after, conn.log = before ++ .ran function acts :: after →
      (∀ args, .subrequest .redis args ∈ acts → ∃ completion,
        .completed 0 .wx completion ∈ before ∧ completion.status = 200 ∧
          (WXSessionInfo.decode completion.window).isSome) ∧
      (function = .loginDone → ∃ completion, .completed 1 .redis completion ∈ before)) ∧
    conn.subs.countP Sub.outstanding ≤ 1 ∧
    (∀ function acts, .ran function acts ∈ conn.log →
      (acts.countP isStart = 1 ∧ acts.countP isFinalize = 0) ∨
      (acts.countP isStart = 0 ∧ acts.countP isFinalize = 1) ∨
      (.crash ∈ acts ∧ ∃ event ∈ events, event.faulty = true)) := by
  obtain ⟨stage, trail, state⟩ := follows_borneOut ran
  refine ⟨?_, trail.loginDone_count, fun _ _ _ _ split => trail.prepared split, ?_,
    fun _ _ invoked => trail.once invoked⟩
  · intro location
    cases location with
    | wx => exact trail.wx_starts
    | redis => exact trail.redis_starts
  · rcases state with agrees | ⟨_, gone⟩
    · exact agrees.outstanding
    · have ended : Agrees conn .ended := gone
      exact ended.outstanding

theorem login_in_order_sample :
    ∃ conn, (connection sampleConf).run {}
        (smoothLogin sampleBody (sampleReply "o1" "k1") okReply ) = some conn ∧
      conn.log.countP isLoginDone ≤ 1 ∧ conn.subs.countP Sub.outstanding ≤ 1 := by
  have ran := sampleLogin_run sampleConf decode_sampleReply.1
  obtain ⟨_, done, _, outstanding, _⟩ := login_in_order_at_most_once ran
  exact ⟨_, ran, done, outstanding⟩

end HttpBackEnd.Login
