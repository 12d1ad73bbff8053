import Mathlib
import HttpBackEnd.Nginx.Chunked
import HttpBackEnd.Library.Transition

/-! # The event pipe

`ngx_event_pipe` for a proxied response that goes to a subrequest in memory: what is read
from the upstream goes through raw buffers and an input filter into a chain of pieces, and
from there to `ngx_http_postpone_filter_in_memory`, which collects the body in `r->out`.
A raw buffer is used again when its pieces have been written or spilled to the temporary
file. Buffer 0 is `u->buffer`, where the body starts behind the header of the response.

How much is read at a time, whether the client can be written to and when the pipe is
woken up are events. Neither a cache nor a store nor threads are in use. A response that the
in-memory filter refuses has failed here, also where nginx drains the pipe and finalizes it
with 0; a body that fits is never refused (`run_accepts`). `received` and
`passed` are the bytes read so far and those given to the input filter; the pipe does not
look at them.
-/

namespace HttpBackEnd.Nginx

/-! ## The state -/

/-- The response and the settings of its location. -/
structure PipeConf where
  framing : Framing
  bufferSize : Nat
  headerSize : Nat
  bufsNum : Nat
  bufsSize : Nat
  subrequestOutputBufferSize : Nat
deriving DecidableEq, Repr

/-- The room in `u->buffer` behind the header. -/
def PipeConf.room (conf : PipeConf) : Nat := conf.bufferSize - conf.headerSize

/-- The size of a raw buffer. -/
def PipeConf.size (conf : PipeConf) (id : Nat) : Nat :=
  if id = 0 then conf.bufferSize else conf.bufsSize

/-- A raw buffer in `p->free_raw_bufs`: the bytes from `pos` to `last`, and the room
behind them. -/
structure Raw where
  id : Nat
  data : Bytes
  room : Nat
deriving DecidableEq, Repr

/-- A buffer in `p->in`; the last one of a raw buffer is its last shadow. -/
structure Piece where
  bytes : Bytes
  shadow : Option Nat
deriving DecidableEq, Repr

/-- Waiting, writing to the client, reading from the upstream, or finalized: with 0 and its
output accepted, or in another way. -/
inductive PipeControl where
  | idle
  | writing
  | reading
  | completed
  | failed
deriving DecidableEq, Repr

/-- The pipe. `main` are the bytes from `pos` to `last` of `u->buffer`, wherever that
buffer is; `spilled` is what `p->out` has in the temporary file; `collected` is what
`r->out` holds. -/
structure Pipe where
  length : Int
  main : Bytes := []
  free : List Raw := []
  pieces : List Piece := []
  spilled : Bytes := []
  collected : Bytes := []
  chunked : ChunkCtx := {}
  allocated : Nat := 0
  preread : Bool := true
  upstreamEof : Bool := false
  upstreamError : Bool := false
  upstreamDone : Bool := false
  read : Bool := false
  upstreamBlocked : Bool := false
  control : PipeControl := .reading
  received : Bytes := []
  passed : Bytes := []
deriving DecidableEq, Repr

/-- `p->length` as `ngx_http_proxy_input_filter_init` sets it. -/
def Framing.pipeLength : Framing → Int
  | .contentLength n => n
  | .connectionClose => -1
  | .chunked => 3

/-- The pipe as `ngx_http_upstream_send_response` starts it. -/
def Pipe.start (conf : PipeConf) : Pipe where
  length := conf.framing.pipeLength

namespace Pipe

/-- The upstream is through with. -/
def ended (pipe : Pipe) : Bool := pipe.upstreamEof || pipe.upstreamError || pipe.upstreamDone

/-! ## Raw buffers and the input filters -/

/-- Bytes appended to `u->buffer`, if it is the buffer. -/
def appendMain (id : Nat) (bytes : Bytes) (pipe : Pipe) : Pipe :=
  { pipe with main := if id = 0 then pipe.main ++ bytes else pipe.main }

/-- `u->buffer` from a new `pos` on, if it is the buffer. -/
def setMain (id : Nat) (bytes : Bytes) (pipe : Pipe) : Pipe :=
  { pipe with main := if id = 0 then bytes else pipe.main }

/-- `ngx_event_pipe_add_free_buf`. -/
def addFreeBuf (conf : PipeConf) (pipe : Pipe) (id : Nat) : Pipe :=
  let raw : Raw := ⟨id, [], conf.size id⟩
  { pipe.setMain id [] with
    free := match pipe.free with
      | [] => [raw]
      | head :: tail => if head.data.length = 0 then raw :: head :: tail else head :: raw :: tail }

/-- `ngx_http_proxy_copy_filter`. -/
def copyFilter (raw : Raw) (pipe : Pipe) : Pipe :=
  if raw.data.length = 0 then pipe
  else
    let pipe := { pipe with
      pieces := pipe.pieces ++ [⟨raw.data, some raw.id⟩], passed := pipe.passed ++ raw.data }
    if pipe.length = -1 then pipe
    else
      { pipe with
        length := pipe.length - raw.data.length
        upstreamDone := pipe.upstreamDone || pipe.length ≤ raw.data.length }

/-- The pieces of one raw buffer; the last one shadows it. -/
def shadows (id : Nat) : List Bytes → List Piece
  | [] => []
  | [bytes] => [⟨bytes, some id⟩]
  | bytes :: rest => ⟨bytes, none⟩ :: shadows id rest

/-- `ngx_http_proxy_chunked_filter`; `none` is an invalid response. -/
def chunkedFilter (conf : PipeConf) (raw : Raw) (pipe : Pipe) : Option Pipe :=
  if raw.data.length = 0 then some pipe
  else
    (chunkedPieces pipe.chunked raw.data).map fun (pieces, ended) =>
      let pipe := match ended with
        | .again ctx => { pipe.setMain raw.id [] with chunked := ctx, length := ctx.length }
        | .done rest => { pipe.setMain raw.id rest with chunked := {}, upstreamDone := true }
      let pipe := { pipe with passed := pipe.passed ++ raw.data }
      if pieces.length = 0 then pipe.addFreeBuf conf raw.id
      else { pipe with pieces := pipe.pieces ++ shadows raw.id pieces }

/-- `p->input_filter`. -/
def inputFilter (conf : PipeConf) (raw : Raw) (pipe : Pipe) : Option Pipe :=
  match conf.framing with
  | .chunked => pipe.chunkedFilter conf raw
  | _ => some (pipe.copyFilter raw)

/-! ## Reading -/

/-- The loop over the buffers of a chain into which bytes have been read. -/
def fill (conf : PipeConf) : List Raw → Bytes → Pipe → Option Pipe
  | [], _, pipe => some pipe
  | raw :: chain, bytes, pipe =>
      if bytes.length = 0 then some { pipe with free := raw :: chain ++ pipe.free }
      else
        let taken := bytes.take raw.room
        let filled : Raw := ⟨raw.id, raw.data ++ taken, raw.room - taken.length⟩
        let pipe := pipe.appendMain raw.id taken
        if raw.room ≤ bytes.length then
          (pipe.inputFilter conf filled).bind (fill conf chain (bytes.drop raw.room))
        else some { pipe with free := filled :: chain ++ pipe.free }

/-- The chain to read into: the free buffers, or a new one. -/
def readChain (conf : PipeConf) (pipe : Pipe) : Option (List Raw × Nat) :=
  if pipe.free.length ≠ 0 then some (pipe.free, pipe.allocated)
  else if pipe.allocated < conf.bufsNum then
    some ([⟨pipe.allocated + 1, [], conf.bufsSize⟩], pipe.allocated + 1)
  else none

/-- The first test behind the loop: the first free buffer has all that is wanted. -/
def passWanted (conf : PipeConf) (pipe : Pipe) : Option Pipe :=
  match pipe.free with
  | [] => some pipe
  | raw :: free =>
      if pipe.length ≠ -1 ∧ pipe.length ≤ raw.data.length then
        { pipe with free := free }.inputFilter conf raw
      else some pipe

/-- The second test: nothing more is wanted. -/
def finishWanted (pipe : Pipe) : Pipe :=
  if pipe.length = 0 then { pipe with upstreamDone := true, read := true } else pipe

/-- The third test: at the end of the upstream the first free buffer is passed on. -/
def passRest (conf : PipeConf) (pipe : Pipe) : Option Pipe :=
  if pipe.upstreamEof || pipe.upstreamError then
    match pipe.free with
    | [] => some pipe
    | raw :: free => { pipe with free := free }.inputFilter conf raw
  else some pipe

/-- What follows the loop of `ngx_event_pipe_read_upstream`. -/
def afterLoop (conf : PipeConf) (pipe : Pipe) : Option Pipe :=
  (pipe.passWanted conf).bind fun pipe => pipe.finishWanted.passRest conf

/-- `ngx_http_upstream_process_request`. -/
def processRequest (pipe : Pipe) : Pipe :=
  if pipe.upstreamDone || (pipe.upstreamEof && pipe.length = -1) then
    { pipe with control := .completed }
  else if pipe.upstreamEof || pipe.upstreamError then { pipe with control := .failed }
  else { pipe with control := .idle }

/-- The loop of `ngx_event_pipe_read_upstream` has been left. -/
def leaveLoop (conf : PipeConf) (pipe : Pipe) : Pipe :=
  match pipe.afterLoop conf with
  | none => { pipe with control := .failed }
  | some pipe =>
      if pipe.read || pipe.upstreamBlocked then { pipe with control := .writing }
      else pipe.processRequest

/-! ## Writing -/

/-- The size of `r->out`; a longer announced body is refused. -/
def outSize (conf : PipeConf) : Option Nat :=
  match conf.framing with
  | .contentLength n => if n ≤ conf.subrequestOutputBufferSize then some n else none
  | _ => some conf.subrequestOutputBufferSize

/-- `ngx_http_postpone_filter_in_memory`; `none` is its error. -/
def inMemory (conf : PipeConf) (collected : Bytes) (chain : List Bytes) : Option Bytes :=
  (outSize conf).bind fun size =>
    chain.foldlM
      (fun collected bytes =>
        if bytes.length ≤ size - collected.length then some (collected ++ bytes) else none)
      collected

/-- The raw buffers that become free with some pieces. -/
def freed (pieces : List Piece) : List Nat := pieces.filterMap Piece.shadow

/-- `p->out` and the first pieces of `p->in` go to the output filter, and their raw buffers
become free. -/
def send (conf : PipeConf) (count : Nat) (pipe : Pipe) : Pipe :=
  match inMemory conf pipe.collected
      (pipe.spilled :: (pipe.pieces.take count).map Piece.bytes) with
  | none => { pipe with control := .failed }
  | some collected =>
      (freed (pipe.pieces.take count)).reverse.foldl (addFreeBuf conf)
        { pipe with
          collected := collected, spilled := [], pieces := pipe.pieces.drop count }

/-- At the end of the upstream everything goes to the output filter; the raw buffers are
left alone. -/
def flush (conf : PipeConf) (pipe : Pipe) : Pipe :=
  match inMemory conf pipe.collected (pipe.spilled :: pipe.pieces.map Piece.bytes) with
  | none => { pipe with control := .failed }
  | some collected =>
      { pipe with collected := collected, spilled := [], pieces := [] }.processRequest

/-- `ngx_event_pipe_write_chain_to_temp_file` of the first pieces. -/
def spill (conf : PipeConf) (count : Nat) (pipe : Pipe) : Pipe :=
  let ids := freed (pipe.pieces.take count)
  { pipe with
    spilled := pipe.spilled ++ ((pipe.pieces.take count).map Piece.bytes).flatten
    pieces := pipe.pieces.drop count
    free := pipe.free ++ ids.map fun id => ⟨id, [], conf.size id⟩
    main := if 0 ∈ ids then [] else pipe.main }

end Pipe

/-! ## Events -/

/-- What happens next. A pass of `ngx_event_pipe_write_to_downstream` is any number of
`send` events, none if the client cannot be written to, and the end of the pass; the
iterations of the reading loop are events of their own. -/
inductive PipeEvent where
  | wake (doWrite : Bool)
  | timeout
  | preread (bytes : Bytes)
  | recv (bytes : Bytes)
  | recvAgain
  | recvEof
  | recvError
  | stop
  | block
  | spill (count : Nat)
  | send (count : Nat)
  | flush
  | endWrite
deriving DecidableEq, Repr

namespace Pipe

/-- Bytes have been read into a chain. -/
def take (conf : PipeConf) (chain : List Raw) (bytes : Bytes) (pipe : Pipe) : Pipe :=
  match fill conf chain bytes { pipe with free := [], received := pipe.received ++ bytes } with
  | none => { pipe with control := .failed }
  | some next => next

/-- An iteration of the reading loop. -/
def readStep (conf : PipeConf) (pipe : Pipe) : PipeEvent → Option Pipe
  | .preread bytes =>
      if pipe.preread ∧ pipe.ended = false ∧ bytes.length ≤ conf.room then
        some ({ pipe with
          preread := false, read := pipe.read || bytes.length ≠ 0 : Pipe }.take conf
            [⟨0, [], conf.room⟩] bytes)
      else none
  | .recv bytes =>
      if pipe.preread = false ∧ pipe.ended = false ∧ bytes.length ≠ 0 then
        (pipe.readChain conf).bind fun (chain, allocated) =>
          if bytes.length ≤ (chain.map Raw.room).sum then
            some ({ pipe with allocated := allocated, read := true }.take conf chain bytes)
          else none
      else none
  | .recvAgain =>
      if pipe.preread = false ∧ pipe.ended = false then
        (pipe.readChain conf).map fun (chain, allocated) =>
          { pipe with free := chain, allocated := allocated }.leaveLoop conf
      else none
  | .recvEof =>
      if pipe.preread = false ∧ pipe.ended = false then
        (pipe.readChain conf).map fun (chain, allocated) =>
          { pipe with
            free := chain, allocated := allocated, upstreamEof := true, read := true }.leaveLoop
              conf
      else none
  | .recvError =>
      if pipe.preread = false ∧ pipe.ended = false then
        (pipe.readChain conf).map fun (chain, allocated) =>
          { pipe with
            free := chain, allocated := allocated, upstreamError := true }.leaveLoop conf
      else none
  | .stop => if pipe.preread = false ∨ pipe.ended then some (pipe.leaveLoop conf) else none
  | .block =>
      if pipe.preread = false ∧ pipe.ended = false ∧ pipe.readChain conf = none then
        some ({ pipe with upstreamBlocked := true }.leaveLoop conf)
      else none
  | .spill count =>
      if pipe.preread = false ∧ pipe.ended = false ∧ pipe.readChain conf = none ∧
          1 ≤ count ∧ count ≤ pipe.pieces.length then
        some (pipe.spill conf count)
      else none
  | _ => none

/-- A part of a writing pass. -/
def writeStep (conf : PipeConf) (pipe : Pipe) : PipeEvent → Option Pipe
  | .send count =>
      if pipe.ended = false ∧ count ≤ pipe.pieces.length ∧
          (pipe.spilled.length ≠ 0 ∨ 1 ≤ count) then
        some (pipe.send conf count)
      else none
  | .endWrite =>
      if pipe.ended = false then
        some { pipe with control := .reading, read := false, upstreamBlocked := false }
      else none
  | .flush => if pipe.ended then some (pipe.flush conf) else none
  | _ => none

end Pipe

/-- The pipe of one response. -/
def eventPipe (conf : PipeConf) : Transition.System Pipe PipeEvent where
  step pipe event :=
    match pipe.control with
    | .idle =>
        match event with
        | .wake doWrite =>
            some { pipe with
              control := if doWrite then .writing else .reading
              read := false, upstreamBlocked := false }
        | .timeout => some { pipe with control := .failed }
        | _ => none
    | .reading => pipe.readStep conf event
    | .writing => pipe.writeStep conf event
    | .completed => none
    | .failed => none

end HttpBackEnd.Nginx
