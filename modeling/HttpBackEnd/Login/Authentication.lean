import HttpBackEnd.Login.Safety

/-! # Which WX replies lead to a login

A WX reply with status 200 is taken for a session when `decode<WXSessionInfo>` accepts
it, and that asks for the types of the members that are there, not for the members. An
error document of WeChat has none of them and is accepted: the flow then stores the
empty session key under the empty openid and answers 200.
-/

namespace HttpBackEnd.Login

open Nginx Json

/-- A member of that name is a string that is not empty. -/
def carries (members : List (Bytes × Value)) (name : Bytes) : Bool :=
  members.any fun member =>
    match member with
    | (other, .string text) => other = name && !text.isEmpty
    | _ => false

/-- The document carries an openid and a session key. -/
def authenticated (document : Bytes) : Bool :=
  match parse document with
  | some (.object members) =>
      carries members (ascii "openid") && carries members (ascii "session_key")
  | _ => false

/-- No run over the document issues the redis `SET` or answers 200. The father handler
finalizes the request with 500, nothing else finalizes it with another code, and only a
dropped connection ends without it. -/
def NeverSucceeds (conf : Conf) (document : Bytes) : Prop :=
  ∀ events conn rc, (connection conf).run {} events = some conn →
    .completed 0 .wx ⟨rc, 200, document⟩ ∈ conn.log →
    (∀ function acts, .ran function acts ∈ conn.log →
      (∀ args, .subrequest .redis args ∉ acts) ∧
      (∀ status length kind result, .sendHeader status length kind result ∉ acts) ∧
      (∀ code, .finalize code ∈ acts → code = 500) ∧
      (function = .father → .finalize 500 ∈ acts)) ∧
    (conn.posted = [] → (∃ acts, .ran .father acts ∈ conn.log) ∨
      ∃ event ∈ events, event.drops = true)

variable {promise : Promise} {conf : Conf} {log : List Entry} {stage : Stage}

/-- The completion that a history at the stage after the WX exchange records is the one
of the stage. -/
theorem Trail.wxDone_unique {completion other : Completion}
    (trail : Trail promise conf log (.wxDone completion))
    (member : .completed 0 .wx other ∈ log) : other = completion := by
  obtain ⟨_, first, earlier, rfl⟩ := trail.wxDone_log
  obtain ⟨_, _, _, _, rfl⟩ := earlier.wx_log
  simpa using member

theorem Trail.redis_decoded {window : Bytes} {info : WXSessionInfo} {completion : Completion}
    (trail : Trail promise conf log (.redis window info))
    (member : .completed 0 .wx completion ∈ log) :
    WXSessionInfo.decode completion.window = some info := by
  obtain ⟨decoded, second, _, earlier, rfl⟩ := trail.redis_log
  simp only [List.mem_append, List.mem_singleton, reduceCtorEq, or_false] at member
  rw [earlier.wxDone_unique member]
  exact decoded

theorem Trail.redisDone_decoded {window : Bytes} {info : WXSessionInfo}
    {completion redis : Completion} (trail : Trail promise conf log (.redisDone window info redis))
    (member : .completed 0 .wx completion ∈ log) :
    WXSessionInfo.decode completion.window = some info := by
  obtain ⟨_, third, earlier, rfl⟩ := trail.redisDone_log
  simp only [List.mem_append, List.mem_singleton, Entry.completed.injEq, reduceCtorEq,
    false_and, and_false, or_false] at member
  exact earlier.redis_decoded member

/-- A history with a WX reply that does not decode goes no further than the father
handler, which quits. -/
theorem Trail.undecoded (trail : Trail promise conf log stage) {completion : Completion}
    (member : .completed 0 .wx completion ∈ log)
    (refused : WXSessionInfo.decode completion.window = none) :
    (stage = .wxDone completion ∧ Trail promise conf log (.wxDone completion)) ∨
    ∃ before acts, Trail promise conf before (.wxDone completion) ∧
      log = before ++ [.ran .father acts] ∧
      Quits False (if completion.status = 200 then 500 else completion.status) acts := by
  cases trail with
  | start => simp at member
  | refused rc special => simp at member
  | loginQuits quits => simp at member
  | login decoded present => simp at member
  | wxCompletes trail other allowed =>
      have whole := trail.wxCompletes other allowed
      obtain rfl := whole.wxDone_unique member
      exact .inl ⟨rfl, whole⟩
  | @fatherQuits before other acts trail quits =>
      simp only [List.mem_append, List.mem_singleton, reduceCtorEq, or_false] at member
      obtain rfl := trail.wxDone_unique member
      refine .inr ⟨before, acts, trail, rfl, quits.mono ?_⟩
      rintro ⟨_, _, accepted⟩
      rw [refused] at accepted
      cases accepted
  | father trail status decoded =>
      have whole := trail.father status decoded
      have accepted := whole.redis_decoded member
      rw [refused] at accepted
      cases accepted
  | redisCompletes trail other allowed =>
      have accepted := (trail.redisCompletes other allowed).redisDone_decoded member
      rw [refused] at accepted
      cases accepted
  | doneQuits trail status =>
      simp only [List.mem_append, List.mem_singleton, reduceCtorEq, or_false] at member
      have accepted := trail.redisDone_decoded member
      rw [refused] at accepted
      cases accepted
  | done trail status answers =>
      simp only [List.mem_append, List.mem_singleton, reduceCtorEq, or_false] at member
      have accepted := trail.redisDone_decoded member
      rw [refused] at accepted
      cases accepted

/-- Up to the father handler only the login handler has run, and it started the WX
subrequest. -/
theorem Trail.wxDone_harmless {completion : Completion}
    (trail : Trail promise conf log (.wxDone completion)) {function : Function} {acts : List Act}
    (invoked : .ran function acts ∈ log) :
    function = .loginHandler ∧ (∀ args, .subrequest .redis args ∉ acts) ∧
    (∀ status length kind result, .sendHeader status length kind result ∉ acts) ∧
    (∀ code, .finalize code ∉ acts) := by
  obtain ⟨_, first, earlier, rfl⟩ := trail.wxDone_log
  obtain ⟨_, _, _, _, rfl⟩ := earlier.wx_log
  simp only [List.mem_append, List.mem_singleton, Entry.ran.injEq, reduceCtorEq, or_false]
    at invoked
  obtain ⟨rfl, rfl⟩ := invoked
  simp

theorem Agrees.wxDone_posted {conn : Conn} {completion : Completion}
    (agrees : Agrees conn (.wxDone completion)) : conn.posted = [none] := by
  obtain ⟨_, _, _, same⟩ := agrees
  rw [same]

theorem neverSucceeds_of_undecoded {document : Bytes}
    (refused : WXSessionInfo.decode document = none) : NeverSucceeds conf document := by
  intro events conn rc ran member
  obtain ⟨stage, trail, state⟩ := follows_borneOut ran
  rcases trail.undecoded member refused with ⟨rfl, whole⟩ | ⟨before, acts, earlier, same, quits⟩
  · constructor
    · intro function acts invoked
      obtain ⟨rfl, redis, header, final⟩ := whole.wxDone_harmless invoked
      exact ⟨redis, header, fun code finalized => absurd finalized (final code), by simp⟩
    · intro idle
      rcases state with agrees | ⟨drop, _⟩
      · rw [agrees.wxDone_posted] at idle
        cases idle
      · exact .inr drop
  · rw [if_pos rfl] at quits
    obtain ⟨subrequest, header, final, finalized⟩ := quits.harmless
    constructor
    · intro function others invoked
      rw [same] at invoked
      simp only [List.mem_append, List.mem_singleton, Entry.ran.injEq] at invoked
      rcases invoked with before | ⟨rfl, rfl⟩
      · obtain ⟨rfl, redis, header, final⟩ := earlier.wxDone_harmless before
        exact ⟨redis, header, fun code finalized => absurd finalized (final code), by simp⟩
      · exact ⟨subrequest .redis, header, final, fun _ => finalized⟩
    · intro _
      exact .inl ⟨acts, by rw [same]; simp⟩

/-- A document that decodes leads to a login: the run without obstacles stores its
session key and answers 200. -/
theorem not_neverSucceeds_of_decoded {document : Bytes} {info : WXSessionInfo}
    (decoded : WXSessionInfo.decode document = some info) : ¬ NeverSucceeds conf document := by
  intro never
  have ran := sampleLogin_run conf decoded
  have father := (never _ _ 0 ran (by simp)).1 .father
    [.decodeReply (.written document), .subrequest .redis (redisArgs conf info)] (by simp)
  exact father.1 (redisArgs conf info) (by simp)

/-- **When a login WeChat did not authenticate is refused.** For a document without a
non-empty openid and a non-empty session key, no run succeeds exactly when the decoder
refuses the document: it is not an object, or one of the members the decoder reads is
there with another type. -/
theorem unauthenticated_never_succeeds_iff (conf : Conf) (document : Bytes) :
    (authenticated document = false → NeverSucceeds conf document) ↔
      authenticated document = true ∨
        ¬ ∃ members, parse document = some (.object members) ∧
          WXSessionInfo.WellTyped members := by
  constructor
  · intro property
    cases known : authenticated document with
    | true => exact .inl rfl
    | false =>
        refine .inr fun accepted => ?_
        obtain ⟨info, decoded⟩ := Option.isSome_iff_exists.mp
          ((WXSessionInfo.decode_isSome_iff document).mpr accepted)
        exact not_neverSucceeds_of_decoded decoded (property known)
  · rintro (known | refused) unknown
    · rw [known] at unknown
      cases unknown
    · apply neverSucceeds_of_undecoded
      by_contra decoded
      exact refused ((WXSessionInfo.decode_isSome_iff document).mp
        (Option.isSome_iff_ne_none.mpr decoded))

/-- The document WeChat answers an invalid code with. -/
def errorDocument : Bytes :=
  ascii "\x7b\"errcode\":40029,\"errmsg\":\"invalid code\"\x7d"

/-- The error document is not authenticated, and some run over it answers 200. -/
theorem errorDocument_succeeds :
    ¬ (authenticated errorDocument = false → NeverSucceeds sampleConf errorDocument) := by
  intro property
  have decoded : WXSessionInfo.decode errorDocument = some ⟨[], [], [], 0⟩ := by
    decide +kernel
  exact not_neverSucceeds_of_decoded decoded (property (by decide +kernel))

end HttpBackEnd.Login
