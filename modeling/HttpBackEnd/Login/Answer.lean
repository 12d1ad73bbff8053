import HttpBackEnd.Login.Safety

/-! # When a login request is answered

`ngx_http_finalize_request` makes a response itself only for some codes. The two
handlers of the main request pass the status of a subrequest on as such a code,
whatever it is; an upstream that fails before a response header leaves the status 0,
and finalizing with 0 sends nothing.
-/

namespace HttpBackEnd.Login

open Nginx Json

/-- Codes on which `ngx_http_finalize_request` sends a response: 201, 204, or from 300
on other than 408, 444 and 499. -/
def answerable (rc : Int) : Bool :=
  (rc == 201 || rc == 204 || 300 ≤ rc) && rc != 408 && rc != 444 && rc != 499

/-- The code is answerable exactly when the finalization of the main request takes the
branch of the special response. -/
theorem finalizeRequest_answerable {choices : Choices} {rc : Int} {conn : Conn}
    (healthy : choices.error = false) (answered : answerable rc = true) :
    conn.finalizeRequest choices rc = conn.specialResponse choices := by
  simp only [answerable, Bool.and_eq_true, Bool.or_eq_true, beq_iff_eq, decide_eq_true_eq,
    bne_iff_ne, ne_eq] at answered
  obtain ⟨⟨⟨range, timeout⟩, close⟩, aborted⟩ := answered
  have done : rc ≠ ngxDone := by
    unfold ngxDone
    omega
  have declined : rc ≠ ngxDeclined := by
    unfold ngxDeclined
    omega
  have fatal : Conn.isFatal rc = false := by
    simp only [Conn.isFatal, ngxError, Bool.or_eq_false_iff, beq_eq_false_iff_ne, ne_eq]
    omega
  have special : Conn.isSpecial rc = true := by
    simp only [Conn.isSpecial, Bool.or_eq_true, decide_eq_true_eq, beq_iff_eq]
    omega
  rw [Conn.finalizeRequest, if_neg done, if_neg declined, fatal, healthy, special]
  simp only [Bool.or_self, Bool.false_eq_true, ↓reduceIte, if_neg close]

/-- `ngx_http_send_header` has sent the header. -/
def headerSent (rc : Int) : Prop := ¬ 0 < rc ∧ rc ≠ ngxError

/-- The main request is only ever finalized with a code on which nginx answers, or in an
invocation of `login_done` that has sent a header with status 200. When nothing is
posted or outstanding and the body has been handed over, it has been finalized. -/
def Answered (conn : Conn) : Prop :=
  (∀ function acts rc, .ran function acts ∈ conn.log → .finalize rc ∈ acts →
    answerable rc = true ∨ ∃ length kind result, function = .loginDone ∧
      .sendHeader 200 length kind result ∈ acts ∧ headerSent result) ∧
  (conn.posted = [] → (∀ sub ∈ conn.subs, sub.outstanding = false) →
    (∃ acts, .ran .loginHandler acts ∈ conn.log) →
    ∃ function acts rc, .ran function acts ∈ conn.log ∧ .finalize rc ∈ acts)

/-- Every subrequest leaves the status 200 or one nginx answers on, the header of
`login_done` is sent or refused with such a code, the body has a buffer, there is
memory for the arguments, and the connection is not dropped. -/
def answersPromise : Promise where
  fault := False
  drop := False
  completes completion := completion.status = 200 ∨ answerable completion.status = true
  header rc := headerSent rc ∨ answerable rc = true

variable {conf : Conf} {log : List Entry} {stage : Stage}

/-- Each invocation finalizes the request only so that it is answered. -/
theorem Invocation.answers {function : Function} {acts : List Act}
    (invocation : Invocation answersPromise conf function acts) {rc : Int}
    (finalized : .finalize rc ∈ acts) :
    answerable rc = true ∨ ∃ length kind result, function = .loginDone ∧
      .sendHeader 200 length kind result ∈ acts ∧ headerSent result := by
  cases invocation with
  | loginQuits quits =>
      obtain ⟨_, _, only, _⟩ := quits.harmless
      rw [only rc finalized]
      exact .inl rfl
  | login decoded present => simp at finalized
  | fatherQuits allowed quits =>
      obtain ⟨_, _, only, _⟩ := (quits.mono And.left).harmless
      rw [only rc finalized]
      split
      · exact .inl rfl
      · rename_i status
        exact .inl (allowed.resolve_left status)
  | father decoded => simp at finalized
  | @doneQuits completion allowed status =>
      obtain rfl := by simpa using finalized
      left
      unfold redisStatus at status ⊢
      split
      · split
        · simp_all
        · rfl
      · rename_i other
        exact allowed.resolve_left other
  | done decoded answers =>
      cases answers with
      | headerOnly result accepted =>
          obtain rfl := by simpa [answerHeader] using finalized
          rcases accepted with sent | answered
          · exact .inr ⟨_, _, rc, rfl, List.mem_cons_of_mem _ List.mem_cons_self, sent⟩
          · exact .inl answered
      | noBuffer result accepted sent =>
          exact .inr ⟨_, _, result, rfl, List.mem_cons_of_mem _ List.mem_cons_self, sent⟩
      | body result output accepted sent =>
          exact .inr ⟨_, _, result, rfl, List.mem_cons_of_mem _ List.mem_cons_self, sent⟩

/-- A history that has ended after the body was handed over holds a finalization. -/
theorem Trail.finalized (trail : Trail answersPromise conf log .ended) {acts : List Act}
    (handed : .ran .loginHandler acts ∈ log) :
    ∃ function acts rc, .ran function acts ∈ log ∧ .finalize rc ∈ acts := by
  cases trail with
  | refused rc special => simp at handed
  | loginQuits quits => exact ⟨_, _, 500, List.mem_singleton_self _, quits.harmless.2.2.2⟩
  | fatherQuits trail quits =>
      exact ⟨_, _, _, List.mem_concat_self, (quits.mono And.left).harmless.2.2.2⟩
  | doneQuits trail status => exact ⟨_, _, _, List.mem_concat_self, List.mem_singleton_self _⟩
  | done trail status answers =>
      cases answers with
      | headerOnly result accepted => exact ⟨_, _, result, List.mem_concat_self, by simp⟩
      | noBuffer result accepted sent => exact ⟨_, _, 500, List.mem_concat_self, by simp⟩
      | body result output accepted sent => exact ⟨_, _, output, List.mem_concat_self, by simp⟩

/-- Until a login has ended it waits for its body, a subrequest or a posted request. -/
theorem Agrees.ended {conn : Conn} (agrees : Agrees conn stage) (idle : conn.posted = [])
    (released : ∀ sub ∈ conn.subs, sub.outstanding = false) {acts : List Act}
    (handed : .ran .loginHandler acts ∈ conn.log) : stage = .ended := by
  cases stage with
  | start =>
      obtain ⟨_, _, _, same⟩ := agrees
      rw [same] at handed
      simp at handed
  | wx =>
      obtain ⟨_, _, _, _, same⟩ := agrees
      rw [same] at released
      simp at released
  | wxDone completion =>
      obtain ⟨_, _, _, same⟩ := agrees
      rw [same] at idle
      cases idle
  | redis window info =>
      obtain ⟨_, _, _, _, _, _, _, same⟩ := agrees
      rw [same] at released
      simp at released
  | redisDone window info completion =>
      obtain ⟨_, _, _, _, _, same⟩ := agrees
      rw [same] at idle
      cases idle
  | ended => rfl

/-- **When every login is answered.** In every run whose subrequests all leave a status
that is 200 or that nginx answers on, and in which nothing else goes wrong, the main
request is finalized so that a response is sent. -/
theorem login_answered_of_statuses {events : List Event} {conn : Conn}
    (meets : ∀ event ∈ events, event.Meets answersPromise)
    (ran : (connection conf).run {} events = some conn) : Answered conn := by
  obtain ⟨stage, trail, agrees | ⟨drop, _⟩⟩ := follows_run meets ran
  · refine ⟨fun _ _ _ invoked finalized => (trail.invocation invoked).answers finalized, ?_⟩
    rintro idle released ⟨acts, handed⟩
    obtain rfl := agrees.ended idle released handed
    exact trail.finalized handed
  · exact drop.elim

theorem login_answered_sample :
    ∃ conn, (connection sampleConf).run {}
        (smoothLogin sampleBody (sampleReply "o1" "k1") okReply) = some conn ∧ Answered conn := by
  have ran := sampleLogin_run sampleConf decode_sampleReply.1
  refine ⟨_, ran, login_answered_of_statuses ?_ ran⟩
  intro event member
  simp only [smoothLogin, List.mem_cons, List.not_mem_nil, or_false] at member
  have meets : choicesMeet answersPromise {} := ⟨.inr rfl, .inl (by simp [headerSent, ngxError])⟩
  rcases member with rfl | rfl | rfl | rfl | rfl | rfl | rfl
  · exact ⟨.inr (by simp), meets⟩
  · exact ⟨trivial, meets⟩
  · exact ⟨.inl rfl, .inr ⟨rfl, rfl⟩⟩
  · exact ⟨trivial, meets⟩
  · exact ⟨trivial, meets⟩
  · exact ⟨.inl rfl, .inr ⟨rfl, rfl⟩⟩
  · exact ⟨trivial, meets⟩

/-- The WX upstream cannot be connected to: the subrequest is finalized with 502 before
any response header, and its status stays 0. -/
def unreachableWx : List Event :=
  [.start true (.complete [{ memory := sampleBody }]) {},
    .posted (.complete ⟨502, 0, []⟩ false true) {}, .posted .pending {}]

/-- Without any drop or fault, the login whose WX upstream is unreachable is finalized
with code 0, for which no response is sent. -/
theorem unreachableWx_unanswered :
    ¬ ∀ events conn, (∀ event ∈ events, event.drops = false ∧ event.faulty = false) →
      (connection sampleConf).run {} events = some conn → Answered conn := by
  intro property
  have runs : ((connection sampleConf).run {} unreachableWx).map Conn.log =
      some [.ran .loginHandler
          [.decodeBody sampleBody, .subrequest .wx (wxArgs sampleConf (ascii "c1"))],
        .completed 0 .wx ⟨502, 0, []⟩, .ran .father [.finalize 0]] := by
    decide +kernel
  obtain ⟨conn, ran, log⟩ := Option.map_eq_some_iff.mp runs
  obtain ⟨answers, _⟩ := property unreachableWx conn (by decide +kernel) ran
  rcases answers .father [.finalize 0] 0 (by rw [log]; simp) (by simp) with
    answered | ⟨_, _, _, function, _⟩
  · exact absurd answered (by decide)
  · cases function

end HttpBackEnd.Login
