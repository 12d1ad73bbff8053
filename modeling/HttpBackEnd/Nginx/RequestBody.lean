import HttpBackEnd.Json.Reader

/-! # The request body

`ngx_http_read_client_request_body` leaves the body in `r->request_body->bufs`, a
chain of buffers. A buffer has a window in memory, `pos..last`, and a part of a
temporary file; a buffer for the file is allocated zeroed, so that its memory window
is empty.
-/

namespace HttpBackEnd.Nginx

/-- One buffer of the chain. -/
structure Buf where
  memory : Bytes := []
  file : Bytes := []
deriving DecidableEq, Repr

/-- The bytes the chain stands for. -/
def bodyOf (bufs : List Buf) : Bytes := bufs.flatMap fun buf => buf.memory ++ buf.file

/-- What reading the body has come to: more is to come, it failed with a code, or
the chain is complete. -/
inductive BodyOutcome where
  | pending
  | failed (rc : Int)
  | complete (bufs : List Buf)
deriving DecidableEq, Repr

/-- The ways nginx hands a body over: no buffer when it is absent or empty, a chain
of buffers in memory, or one buffer for the temporary file. -/
inductive HandsOver (body : Bytes) : List Buf → Prop where
  | none (empty : body = []) : HandsOver body []
  | memory (bufs : List Buf) (present : bufs ≠ []) (inMemory : ∀ buf ∈ bufs, buf.file = [])
      (whole : bodyOf bufs = body) : HandsOver body bufs
  | file (present : body ≠ []) : HandsOver body [{ file := body }]

end HttpBackEnd.Nginx
