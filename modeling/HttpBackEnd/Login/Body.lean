import HttpBackEnd.Login.Follow
import HttpBackEnd.Login.Success

/-! # The login handler and the buffers of the body

`ngx_http_customer_manager_login_handler` reads `body->bufs->buf` and nothing else. It
sees the body exactly when the body is in memory and in the first buffer: without a
buffer it dereferences a null pointer, of a longer chain it decodes the first part, and
a body in a temporary file looks empty to it.
-/

namespace HttpBackEnd.Login

open Nginx Json

variable {conf : Conf} {choices : Choices} {conn : Conn} {body : Bytes} {bufs : List Buf}

/-- The handler behaves on a chain as it does on the whole body in one buffer. -/
def SeesBody (body : Bytes) (bufs : List Buf) : Prop :=
  ∀ conf choices conn, customerManagerLoginHandler conf choices bufs conn =
    customerManagerLoginHandler conf choices [{ memory := body }] conn

/-- Only the memory of the first buffer is read. -/
theorem customerManagerLoginHandler_cons (conf : Conf) (choices : Choices) (buf : Buf)
    (rest : List Buf) (conn : Conn) :
    customerManagerLoginHandler conf choices (buf :: rest) conn =
      customerManagerLoginHandler conf choices [{ memory := buf.memory }] conn :=
  rfl

theorem request_reads {location : Location} {args : Bytes} {read : Act} :
    (request choices location args [read] conn).2.head? = some read := by
  rcases request_cases choices location args [read] conn with
    ⟨left, _, failed⟩ | ⟨_, crashed⟩ | ⟨next, _, started⟩
  · rw [failed]
    rfl
  · rw [crashed]
    rfl
  · rw [started]
    rfl

/-- An empty body in one buffer is answered with 500; any other body is decoded first,
and as it is. -/
theorem customerManagerLoginHandler_first (conf : Conf) (choices : Choices) (body : Bytes)
    (conn : Conn) :
    (customerManagerLoginHandler conf choices [{ memory := body }] conn).2.head? =
      if body = [] then some (.finalize 500) else some (.decodeBody body) := by
  by_cases empty : body = []
  · rw [if_pos empty, empty]
    rfl
  · have long : body.length ≠ 0 := by
      intro short
      exact empty (List.length_eq_zero_iff.mp short)
    rw [if_neg empty]
    simp only [customerManagerLoginHandler, if_neg long]
    split
    · rfl
    · split
      · rfl
      · split
        · split
          · rfl
          · exact request_reads
        · rfl

/-- The handler tells two bodies apart. -/
theorem customerManagerLoginHandler_injective {first second : Bytes}
    (same : customerManagerLoginHandler conf choices [{ memory := first }] conn =
      customerManagerLoginHandler conf choices [{ memory := second }] conn) : first = second := by
  have heads := congrArg (fun result => result.2.head?) same
  simp only [customerManagerLoginHandler_first] at heads
  by_cases empty : first = []
  · by_cases empty' : second = []
    · rw [empty, empty']
    · rw [if_pos empty, if_neg empty'] at heads
      cases heads
  · by_cases empty' : second = []
    · rw [if_neg empty, if_pos empty'] at heads
      cases heads
    · rw [if_neg empty, if_neg empty'] at heads
      simpa using heads

/-- The body is seen exactly when it is what the first buffer holds in memory. -/
theorem seesBody_iff (body : Bytes) (bufs : List Buf) :
    SeesBody body bufs ↔ ∃ buf rest, bufs = buf :: rest ∧ buf.memory = body := by
  constructor
  · intro sees
    cases bufs with
    | nil =>
        have heads := customerManagerLoginHandler_first sampleConf {} body {}
        rw [← sees sampleConf {} {}] at heads
        by_cases empty : body = []
        · rw [if_pos empty] at heads
          cases heads
        · rw [if_neg empty] at heads
          cases heads
    | cons buf rest =>
        refine ⟨buf, rest, rfl, ?_⟩
        have same := sees sampleConf {} {}
        rw [customerManagerLoginHandler_cons] at same
        exact customerManagerLoginHandler_injective same
  · rintro ⟨buf, rest, rfl, rfl⟩ conf choices conn
    exact customerManagerLoginHandler_cons conf choices buf rest conn

theorem bodyOf_eq_nil : bodyOf bufs = [] ↔ ∀ buf ∈ bufs, buf.memory = [] ∧ buf.file = [] := by
  simp only [bodyOf, List.flatMap_eq_nil_iff, List.append_eq_nil_iff]

/-- **When the login handler sees the body.** Of the ways nginx may hand a body over,
the handler behaves as on one buffer exactly for those in memory, with at least one
buffer, in which every buffer after the first is empty. -/
theorem login_handler_sees_body_iff (handed : HandsOver body bufs) :
    SeesBody body bufs ↔ bufs ≠ [] ∧ (∀ buf ∈ bufs, buf.file = []) ∧
      ∀ buf ∈ bufs.tail, buf.memory = [] := by
  rw [seesBody_iff]
  cases handed with
  | none empty => simp
  | memory _ present inMemory whole =>
      cases bufs with
      | nil => exact absurd rfl present
      | cons buf rest =>
          have alone : buf.file = [] := inMemory buf List.mem_cons_self
          have split : buf.memory ++ bodyOf rest = body := by
            rw [← whole]
            simp [bodyOf, alone]
          constructor
          · rintro ⟨_, _, same, whole⟩
            cases same
            refine ⟨present, inMemory, ?_⟩
            have empty : bodyOf rest = [] := by
              rw [whole] at split
              simpa using split
            intro other member
            exact (bodyOf_eq_nil.mp empty other member).1
          · rintro ⟨_, _, empty⟩
            refine ⟨buf, rest, rfl, ?_⟩
            have nothing : bodyOf rest = [] := bodyOf_eq_nil.mpr fun other member =>
              ⟨empty other member, inMemory other (List.mem_cons_of_mem _ member)⟩
            rw [← split, nothing, List.append_nil]
  | file present =>
      constructor
      · rintro ⟨buf, rest, same, whole⟩
        cases same
        exact absurd whole.symm present
      · rintro ⟨_, memory, _⟩
        exact absurd (memory _ List.mem_cons_self) present

theorem login_handler_sees_sample_body :
    HandsOver sampleBody [{ memory := sampleBody }] ∧
      SeesBody sampleBody [{ memory := sampleBody }] := by
  have handed : HandsOver sampleBody [{ memory := sampleBody }] :=
    .memory _ (by simp) (by simp) (by simp [bodyOf])
  refine ⟨handed, (login_handler_sees_body_iff handed).mpr ?_⟩
  simp

/-- The body was read in two parts. -/
theorem login_handler_misses_second_buffer :
    ¬ ∀ body bufs, HandsOver body bufs → SeesBody body bufs := by
  intro sees
  have handed : HandsOver sampleBody
      [{ memory := sampleBody.take 5 }, { memory := sampleBody.drop 5 }] := by
    refine .memory _ (by simp) (by simp) ?_
    simp only [bodyOf, List.flatMap_cons, List.flatMap_nil, List.append_nil]
    exact List.take_append_drop 5 sampleBody
  obtain ⟨buf, rest, same, whole⟩ := (seesBody_iff _ _).mp (sees _ _ handed)
  cases same
  revert whole
  decide

end HttpBackEnd.Login
