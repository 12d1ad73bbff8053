import HttpBackEnd.Login.Handlers
import HttpBackEnd.Nginx.PipeBuffer

/-! # The reply of WX that is recorded

The completion handler records the window `u->buffer.pos..last`. The body of an in-memory
subrequest is collected in `r->out`, and the first raw buffer is left with it only if the
event pipe had no reason to parse it or to use it again.
-/

namespace HttpBackEnd.Login

open Nginx

/-- How the subrequest ends whose response, with status 200, the pipe has completed. -/
def wxCompletion (pipe : Pipe) : Completion := ⟨0, 200, pipe.main⟩

/-- The handler records what the subrequest has collected. -/
def RecordsBody (pipe : Pipe) (conn : Conn) : Prop :=
  (wxLoginSubrequestPostHandler (wxCompletion pipe) conn).ctx.map LoginCtx.wx =
    conn.ctx.map fun _ => .written pipe.collected

theorem recordsBody_iff {pipe : Pipe} {conn : Conn} {ctx : LoginCtx} (kept : conn.ctx = some ctx) :
    RecordsBody pipe conn ↔ pipe.main = pipe.collected := by
  simp [RecordsBody, wxLoginSubrequestPostHandler, wxCompletion, kept]

/-- **The reply that is decoded is the body of the response** exactly if `u->buffer` has kept
it: for every framing, every way the response arrives and is passed on. -/
theorem wx_reply_is_body_iff {conf : PipeConf} {events : List PipeEvent} {final : Pipe}
    {body : Bytes} {conn : Conn} {ctx : LoginCtx}
    (ran : (eventPipe conf).run (Pipe.start conf) events = some final)
    (completed : final.control = .completed)
    (framed : conf.framing.body (Pipe.arrived events) = some body)
    (kept : conn.ctx = some ctx) :
    final.collected = body ∧ (RecordsBody final conn ↔ KeepsBody conf events body) := by
  rw [recordsBody_iff kept]
  exact buffer_eq_collected_iff ran completed framed

/-- A response behind a header of 200 bytes, in the buffers nginx uses by default. -/
def samplePipe (framing : Framing) : PipeConf where
  framing := framing
  bufferSize := 4096
  headerSize := 200
  bufsNum := 8
  bufsSize := 4096
  subrequestOutputBufferSize := 4096

/-- A body of two bytes in two reads. -/
def sampleReads : List PipeEvent :=
  [.preread (ascii "\x7b"), .recvAgain, .endWrite, .recv (ascii "\x7d"), .recvAgain, .flush]

/-- The pipe behind these reads. -/
def sampleEnd : Pipe where
  length := 0
  main := ascii "\x7b\x7d"
  collected := ascii "\x7b\x7d"
  preread := false
  upstreamDone := true
  read := true
  control := .completed
  received := ascii "\x7b\x7d"
  passed := ascii "\x7b\x7d"

theorem wx_reply_is_body_sample :
    sampleEnd.collected = ascii "\x7b\x7d" ∧
      (RecordsBody sampleEnd { ctx := some {} } ↔
        KeepsBody (samplePipe (.contentLength 2)) sampleReads (ascii "\x7b\x7d")) := by
  have ran : (eventPipe (samplePipe (.contentLength 2))).run
      (Pipe.start (samplePipe (.contentLength 2))) sampleReads = some sampleEnd := by
    decide +kernel
  exact wx_reply_is_body_iff ran rfl (by decide) rfl

/-! ## A reply in one chunk -/

/-- A chunk that is in the buffer as a whole. -/
theorem chunkedPieces_of_ok {ctx found : ChunkCtx} {data rest : Bytes}
    (ok : parseChunked ctx data = .ok found rest) (whole : found.size ≤ rest.length) :
    chunkedPieces ctx data =
      (chunkedPieces { found with size := 0 } (rest.drop found.size)).map fun later =>
        (rest.take found.size :: later.1, later.2) := by
  rw [chunkedPieces]
  split
  · next parsed =>
      rw [ok] at parsed
      cases parsed
      rw [if_pos whole]
  · next parsed =>
      rw [ok] at parsed
      cases parsed
  · next parsed =>
      rw [ok] at parsed
      cases parsed
  · next parsed =>
      rw [ok] at parsed
      cases parsed

theorem chunkedPieces_of_done {ctx : ChunkCtx} {data rest : Bytes}
    (done : parseChunked ctx data = .done rest) :
    chunkedPieces ctx data = some ([], .done rest) := by
  rw [chunkedPieces]
  split
  · next parsed =>
      rw [done] at parsed
      cases parsed
  · next parsed =>
      rw [done] at parsed
      cases parsed
  · next parsed =>
      rw [done] at parsed
      cases parsed
      rfl
  · next parsed =>
      rw [done] at parsed
      cases parsed

/-- An empty object in one chunk. -/
def chunkedReply : Bytes := ascii "2\r\n\x7b\x7d\r\n0\r\n\r\n"

theorem chunkedPieces_chunkedReply :
    chunkedPieces {} chunkedReply = some ([ascii "\x7b\x7d"], .done []) := by
  have found : parseChunked {} chunkedReply =
      .ok ⟨.chunkData, 2⟩ (ascii "\x7b\x7d\r\n0\r\n\r\n") := by
    decide
  rw [chunkedPieces_of_ok found (by decide),
    @chunkedPieces_of_done ⟨.chunkData, 0⟩ _ [] (by decide)]
  decide

/-- The pipe when the reply has been read behind the header. -/
def chunkedRead : Pipe :=
  { Pipe.start (samplePipe .chunked) with
    preread := false
    read := true
    received := chunkedReply
    main := chunkedReply
    free := [⟨0, chunkedReply, 3884⟩] }

/-- The pipe when it has been parsed. -/
def chunkedParsed : Pipe :=
  { chunkedRead with
    main := []
    free := []
    pieces := [⟨ascii "\x7b\x7d", some 0⟩]
    upstreamDone := true
    passed := chunkedReply }

/-- The pipe when it has been written. -/
def chunkedFlushed : Pipe :=
  { chunkedParsed with control := .completed, pieces := [], collected := ascii "\x7b\x7d" }

theorem chunkedRead_afterLoop :
    chunkedRead.afterLoop (samplePipe .chunked) = some chunkedParsed := by
  have wanted : chunkedRead.passWanted (samplePipe .chunked) = some chunkedParsed := by
    change Pipe.chunkedFilter _ ⟨0, chunkedReply, 3884⟩ { chunkedRead with free := [] } = _
    unfold Pipe.chunkedFilter
    rw [if_neg (by decide)]
    change Option.map _ (chunkedPieces {} chunkedReply) = _
    rw [chunkedPieces_chunkedReply]
    rfl
  rw [Pipe.afterLoop, wanted]
  rfl

/-- The reply arrives as a whole. -/
def chunkedReads : List PipeEvent := [.preread chunkedReply, .recvAgain, .flush]

theorem wx_reply_lost_in_chunk :
    ∃ final, (eventPipe (samplePipe .chunked)).run (Pipe.start (samplePipe .chunked))
        chunkedReads = some final ∧ final.control = .completed ∧
      Framing.chunked.body (Pipe.arrived chunkedReads) = some final.collected ∧
      ¬RecordsBody final { ctx := some {} } := by
  have read : (eventPipe (samplePipe .chunked)).step (Pipe.start (samplePipe .chunked))
      (.preread chunkedReply) = some chunkedRead := by
    decide +kernel
  have parsed : (eventPipe (samplePipe .chunked)).step chunkedRead .recvAgain =
      some { chunkedParsed with control := .writing } := by
    change some (chunkedRead.leaveLoop (samplePipe .chunked)) = _
    rw [Pipe.leaveLoop, chunkedRead_afterLoop]
    rfl
  have flushed : (eventPipe (samplePipe .chunked)).step { chunkedParsed with control := .writing }
      .flush = some chunkedFlushed := by
    decide +kernel
  refine ⟨chunkedFlushed, ?_, rfl, by decide, ?_⟩
  · refine ((eventPipe _).run_cons_eq_some).mpr ⟨_, read, ?_⟩
    refine ((eventPipe _).run_cons_eq_some).mpr ⟨_, parsed, ?_⟩
    exact ((eventPipe _).run_cons_eq_some).mpr ⟨_, flushed, rfl⟩
  · rw [recordsBody_iff rfl]
    decide

end HttpBackEnd.Login
