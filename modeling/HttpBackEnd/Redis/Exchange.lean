import HttpBackEnd.Nginx.Request
import HttpBackEnd.Redis.Reply

/-! # The exchange with Redis

How nginx reads the reply of Redis for a subrequest in memory:
`ngx_http_upstream_process_header` with `ngx_http_redis2_process_header`, the first
call of the filter in `ngx_http_upstream_send_response`, and the loop of
`ngx_http_upstream_process_non_buffered_request`. After each read the output goes to
`ngx_http_postpone_filter_in_memory`, and if replies are missing `u->buffer` starts
over. Memory is always there, and the connection is the one that was used last.
-/

namespace HttpBackEnd.Redis

open Nginx

/-- `redis2_buffer_size`, by default a page. -/
def bufferSize : Nat := 4096

/-- `subrequest_output_buffer_size`, by default a page. -/
def subrequestOutputBufferSize : Nat := 4096

/-- What one `recv` brings: some bytes, and no more than the buffer holds. -/
structure Read where
  bytes : Bytes
  nonempty : bytes ≠ []
  fits : bytes.length ≤ bufferSize

/-- How the reads end when the replies do not: Redis closes the connection, or the
upstream request is finalized with a code for a failure, which becomes the status. -/
inductive StreamEnd where
  | eof
  | failed (rc : Int) (status : Nat) (special : 300 ≤ status)

/-- The bytes Redis sent. -/
def stream (reads : List Read) : Bytes := reads.flatMap Read.bytes

/-- `ngx_http_redis2_process_header`: the first character is the header. -/
def processHeader (bytes : Bytes) : Bool :=
  match bytes with
  | [] => false
  | char :: _ => char = 43 || char = 45 || char = 58 || char = 36 || char = 42

/-- `ngx_http_upstream_process_non_buffered_request`, after the bytes in the buffer of
the subrequest have been collected. -/
def processNonBufferedRequest (ending : StreamEnd) : Ctx → Nat → List Read → Completion
  | _, _, [] =>
      match ending with
      | .eof => ⟨0, 200, []⟩
      | .failed rc status _ => ⟨rc, status, []⟩
  | ctx, collected, read :: reads =>
      let filtered := processReply ctx.queryCount ctx.machine read.bytes
      let collected := collected + filtered.output.length
      if subrequestOutputBufferSize < collected then ⟨ngxError, 200, filtered.accepted⟩
      else
        match filtered.waiting with
        | none => ⟨0, 200, filtered.accepted⟩
        | some ctx => processNonBufferedRequest ending ctx collected reads

/-- The context of `ngx_http_redis2_create_request`: two queries have been sent. -/
def firstCtx : Ctx := ⟨2, {}⟩

/-- The redis subrequest from its first read on. -/
def exchange (reads : List Read) (ending : StreamEnd) : Completion :=
  match reads with
  | [] =>
      match ending with
      | .eof => ⟨502, 502, []⟩
      | .failed rc status _ => ⟨rc, status, []⟩
  | first :: _ =>
      if processHeader first.bytes then processNonBufferedRequest ending firstCtx 0 reads
      else ⟨502, 502, first.bytes⟩

/-! ## What a read does -/

/-- A context between two reads. -/
def Ctx.Open (ctx : Ctx) : Prop := ctx.queryCount ≠ 0 ∧ ctx.machine.done = false

/-- The read ends the exchange: the replies are complete or invalid, or the output no
longer fits into the buffer of the subrequest. -/
def Ctx.Stops (ctx : Ctx) (collected : Nat) (bytes : Bytes) : Prop :=
  ctx.resume bytes = none ∨ subrequestOutputBufferSize < collected + bytes.length

/-- The bytes of a read that stay in the window `u->buffer.pos..last`. -/
def Ctx.accepted (ctx : Ctx) (bytes : Bytes) : Bytes :=
  (processReply ctx.queryCount ctx.machine bytes).accepted

theorem firstCtx_open : firstCtx.Open := ⟨Nat.succ_ne_zero 1, rfl⟩

theorem Ctx.accepted_prefix (ctx : Ctx) (bytes : Bytes) : ctx.accepted bytes <+: bytes :=
  processReply_accepted ctx.queryCount ctx.machine bytes

theorem Ctx.resume_open {ctx next : Ctx} {bytes : Bytes} (ready : ctx.Open)
    (resumed : ctx.resume bytes = some next) : next.Open :=
  (processReply_waiting ready.1 resumed).2.2

variable {ending : StreamEnd} {ctx next : Ctx} {collected : Nat} {read : Read} {reads : List Read}

/-- The output of a read after which replies are missing is the whole read. -/
theorem Ctx.resume_output {bytes : Bytes} (ready : ctx.Open)
    (resumed : ctx.resume bytes = some next) :
    (processReply ctx.queryCount ctx.machine bytes).output = bytes := by
  obtain ⟨accepted, valid, _⟩ := processReply_waiting ready.1 resumed
  rw [Filtered.output, valid, accepted]
  rfl

/-- When a read ends the exchange, the window holds what was accepted of that read. -/
theorem processNonBufferedRequest_stops (ending : StreamEnd) (reads : List Read)
    (ready : ctx.Open) (stops : ctx.Stops collected read.bytes) :
    (processNonBufferedRequest ending ctx collected (read :: reads)).status = 200 ∧
      (processNonBufferedRequest ending ctx collected (read :: reads)).window =
        ctx.accepted read.bytes := by
  unfold processNonBufferedRequest
  dsimp only
  split
  · exact ⟨rfl, rfl⟩
  · rename_i room
    split
    · exact ⟨rfl, rfl⟩
    · rename_i next resumed
      rw [Ctx.resume_output ready resumed] at room
      rcases stops with ended | full
      · rw [Ctx.resume, resumed] at ended
        cases ended
      · exact absurd full room

/-- A read that does not end the exchange is followed by the next one. -/
theorem processNonBufferedRequest_goes_on (ready : ctx.Open)
    (resumed : ctx.resume read.bytes = some next)
    (room : collected + read.bytes.length ≤ subrequestOutputBufferSize) :
    processNonBufferedRequest ending ctx collected (read :: reads) =
      processNonBufferedRequest ending next (collected + read.bytes.length) reads := by
  have output := Ctx.resume_output ready resumed
  unfold Ctx.resume at resumed
  conv_lhs => unfold processNonBufferedRequest
  simp only [output, resumed]
  rw [if_neg (Nat.not_lt.mpr room)]

/-- A first read with a header starts the loop. -/
theorem exchange_of_header (header : processHeader read.bytes = true) :
    exchange (read :: reads) ending =
      processNonBufferedRequest ending firstCtx 0 (read :: reads) := by
  rw [exchange, if_pos header]

theorem exchange_of_noHeader (refused : processHeader read.bytes = false) :
    exchange (read :: reads) ending = ⟨502, 502, read.bytes⟩ := by
  rw [exchange, refused]
  rfl

/-- Reads after which replies are missing, taken together. -/
theorem processNonBufferedRequest_append {before : List Read} (ready : ctx.Open)
    (resumed : ctx.resume (stream before) = some next)
    (room : collected + (stream before).length ≤ subrequestOutputBufferSize) :
    processNonBufferedRequest ending ctx collected (before ++ reads) =
      processNonBufferedRequest ending next (collected + (stream before).length) reads := by
  induction before generalizing ctx collected with
  | nil =>
      have same : some ctx = some next := (Ctx.resume_nil ready.2).symm.trans resumed
      cases same
      rfl
  | cons read before ih =>
      have split : stream (read :: before) = read.bytes ++ stream before := List.flatMap_cons
      rw [split, Ctx.resume_append] at resumed
      rw [split, List.length_append] at room ⊢
      obtain ⟨middle, first, second⟩ := Option.bind_eq_some_iff.mp resumed
      rw [List.cons_append, processNonBufferedRequest_goes_on ready first (by omega),
        ih (Ctx.resume_open ready first) second (by omega), Nat.add_assoc]

end HttpBackEnd.Redis
