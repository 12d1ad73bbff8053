import HttpBackEnd.Library.Transition
import HttpBackEnd.Rds.JsonProcess

/-! # From the database to the client

`ngx_http_drizzle_process_events` reads a result from libdrizzle and writes its stream into
buffers. When libdrizzle has to wait, and at the end, the buffers that are full go through
the JSON filter, and what the filter writes is sent.
-/

namespace HttpBackEnd.Rds

open Json Transition

/-- What a call of libdrizzle returns: `DRIZZLE_RETURN_IO_WAIT`, a failure, or what is read
by `drizzle_query`, `drizzle_column_read`, `drizzle_row_read` and `drizzle_field_read`. -/
inductive Return where
  | ioWait
  | failure
  | result (res : DrizzleResult)
  | column (col : Option DrizzleColumn)
  | row (row : UInt64)
  | field (offset total : Nat) (field : Option Bytes)
  | rowEnd

/-- `dp->state`, with `dp->drizzle_row`: the call that is made next, or none. -/
inductive UpstreamState where
  | sendQuery
  | recvCols
  | recvRows (drizzleRow : UInt64)
  | idle
  | failed
deriving DecidableEq

/-- `ngx_http_upstream_drizzle_peer_data_t`. -/
structure Upstream where
  state : UpstreamState := .sendQuery
  bufs : OutBufs := {}

namespace Upstream

variable (conf : BufSize) (up : Upstream)

/-- Bytes of the stream, and the next state. -/
def write (state : UpstreamState) (data : Bytes) : Upstream where
  state := state
  bufs := up.bufs.submitWhole conf data

/-- The last bytes of the stream. -/
def finish (data : Bytes) : Upstream where
  state := .idle
  bufs := (up.bufs.submitWhole conf data).endStream

def fail : Upstream := { up with state := .failed }

/-- `ngx_http_upstream_drizzle_send_query`. Without columns the header is the whole stream. -/
def sendQuery : Return → Upstream
  | .ioWait => up
  | .result res =>
      if res.columnCount = 0 then up.finish conf (outputResultHeader res)
      else up.write conf .recvCols (outputResultHeader res)
  | _ => up.fail

/-- `ngx_http_upstream_drizzle_recv_cols`, one round of its loop. -/
def recvCols : Return → Upstream
  | .ioWait => up
  | .column (some col) => up.write conf .recvCols (outputCol col)
  | .column none => { up with state := .recvRows 0 }
  | _ => up.fail

/-- `ngx_http_upstream_drizzle_recv_rows` before a row. -/
def recvRow : Return → Upstream
  | .ioWait => up
  | .row row =>
      if row = 0 then up.finish conf (outputRow row)
      else up.write conf (.recvRows row) (outputRow row)
  | _ => up.fail

/-- `ngx_http_upstream_drizzle_recv_rows` in a row. -/
def recvFields (drizzleRow : UInt64) : Return → Upstream
  | .ioWait => up
  | .rowEnd => { up with state := .recvRows 0 }
  | .field offset total field =>
      match outputField offset total field with
      | none => up
      | some data => up.write conf (.recvRows drizzleRow) data
  | _ => up.fail

/-- What the state makes of a return. -/
def take (ret : Return) : Upstream :=
  match up.state with
  | .sendQuery => up.sendQuery conf ret
  | .recvCols => up.recvCols conf ret
  | .recvRows drizzleRow =>
      if drizzleRow = 0 then up.recvRow conf ret else up.recvFields conf drizzleRow ret
  | .idle => up
  | .failed => up

/-- Whether a call is to be made. -/
def calls : Bool :=
  match up.state with
  | .idle => false
  | .failed => false
  | _ => true

end Upstream

/-- A request on its way: the upstream, the filter, and what has been sent. -/
structure Response where
  upstream : Upstream := {}
  filter : Ctx := {}
  sent : List OutBuf := []

/-- A buffer as the filter finds it. -/
def OutBuf.link (buf : OutBuf) : Link := .memory buf.data

namespace Response

variable (drizzle : BufSize) (conf : JsonConf) (res : Response)

/-- A chain for the filter. Behind an error it discards what comes. -/
def pass (chain : List Link) : Response :=
  match bodyFilter conf res.filter chain with
  | .ok (filter, out) => { res with filter, sent := res.sent ++ out }
  | .error headerSent =>
      { res with
        upstream := res.upstream.fail
        filter := { res.filter with state := .done, headerSent } }

/-- `ngx_http_drizzle_output_bufs`. -/
def outputBufs : Response :=
  let bufs := res.upstream.bufs.close
  pass conf { res with upstream := { res.upstream with bufs := bufs.passed } }
    (bufs.out.map OutBuf.link)

/-- A return of libdrizzle. The buffers go on with `NGX_AGAIN`, and in
`ngx_http_upstream_drizzle_done`, where `ngx_http_send_special` follows. -/
def step (ret : Return) : Response :=
  let now := { res with upstream := res.upstream.take drizzle ret }
  match ret with
  | .ioWait => now.outputBufs conf
  | _ => if now.upstream.state = .idle then (now.outputBufs conf).pass conf [.special] else now

end Response

/-- A request over the returns of libdrizzle. -/
def serving (drizzle : BufSize) (conf : JsonConf) : System Response Return where
  step res ret := if res.upstream.calls then some (res.step drizzle conf ret) else none

end HttpBackEnd.Rds
