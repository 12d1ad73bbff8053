import HttpBackEnd.Json.Reader
import HttpBackEnd.Library.Deframer

/-! # Framing of a response

`ngx_http_parse_chunked` and what the proxy module makes of it: the pieces of data in a
buffer. Beside it stands a deframer for the three framings of a response, which says what
the body is; the parser, stopped and continued at any place, agrees with it.
-/

namespace HttpBackEnd.Nginx

open Deframe

/-! ## Chunks -/

/-- The states of `ngx_http_parse_chunked`. -/
inductive ChunkState where
  | chunkStart
  | chunkSize
  | chunkExtension
  | chunkExtensionAlmostDone
  | chunkData
  | afterData
  | afterDataAlmostDone
  | lastChunkExtension
  | lastChunkExtensionAlmostDone
  | trailer
  | trailerAlmostDone
  | trailerHeader
  | trailerHeaderAlmostDone
deriving DecidableEq, Repr

/-- `ngx_http_chunked_t`; its `length` is a function of the rest. -/
structure ChunkCtx where
  state : ChunkState := .chunkStart
  size : Nat := 0
deriving DecidableEq, Repr

/-- `NGX_MAX_OFF_T_VALUE`. -/
def ngxMaxOffTValue : Nat := 9223372036854775807

/-- A hexadecimal digit, as the parser recognises it. -/
def chunkDigit (ch : UInt8) : Option Nat :=
  if 48 ≤ ch ∧ ch ≤ 57 then some (ch.toNat - 48)
  else if 97 ≤ (ch ||| 0x20) ∧ (ch ||| 0x20) ≤ 102 then some ((ch ||| 0x20).toNat - 97 + 10)
  else none

/-- What a character does to the parser: go on, end of the response, or invalid. -/
inductive ChunkMove where
  | next (ctx : ChunkCtx)
  | done
  | invalid
deriving DecidableEq, Repr

namespace ChunkCtx

/-- The same context in another state. -/
def goTo (ctx : ChunkCtx) (state : ChunkState) : ChunkMove := .next { ctx with state := state }

/-- The `switch` of `ngx_http_parse_chunked`, in the states outside of chunk data. -/
def move (ctx : ChunkCtx) (ch : UInt8) : ChunkMove :=
  match ctx.state with
  | .chunkStart =>
      match chunkDigit ch with
      | some digit => .next ⟨.chunkSize, digit⟩
      | none => .invalid
  | .chunkSize =>
      if ctx.size > ngxMaxOffTValue / 16 then .invalid
      else
        match chunkDigit ch with
        | some digit => .next ⟨.chunkSize, ctx.size * 16 + digit⟩
        | none =>
            if ctx.size = 0 then
              if ch = 13 then ctx.goTo .lastChunkExtensionAlmostDone
              else if ch = 10 then ctx.goTo .trailer
              else if ch = 59 ∨ ch = 32 ∨ ch = 9 then ctx.goTo .lastChunkExtension
              else .invalid
            else if ch = 13 then ctx.goTo .chunkExtensionAlmostDone
            else if ch = 10 then ctx.goTo .chunkData
            else if ch = 59 ∨ ch = 32 ∨ ch = 9 then ctx.goTo .chunkExtension
            else .invalid
  | .chunkExtension =>
      if ch = 13 then ctx.goTo .chunkExtensionAlmostDone
      else if ch = 10 then ctx.goTo .chunkData
      else .next ctx
  | .chunkExtensionAlmostDone => if ch = 10 then ctx.goTo .chunkData else .invalid
  | .chunkData => .next ctx
  | .afterData =>
      if ch = 13 then ctx.goTo .afterDataAlmostDone
      else if ch = 10 then ctx.goTo .chunkStart
      else .next ctx
  | .afterDataAlmostDone => if ch = 10 then ctx.goTo .chunkStart else .invalid
  | .lastChunkExtension =>
      if ch = 13 then ctx.goTo .lastChunkExtensionAlmostDone
      else if ch = 10 then ctx.goTo .trailer
      else .next ctx
  | .lastChunkExtensionAlmostDone => if ch = 10 then ctx.goTo .trailer else .invalid
  | .trailer =>
      if ch = 13 then ctx.goTo .trailerAlmostDone
      else if ch = 10 then .done
      else ctx.goTo .trailerHeader
  | .trailerAlmostDone => if ch = 10 then .done else .invalid
  | .trailerHeader =>
      if ch = 13 then ctx.goTo .trailerHeaderAlmostDone
      else if ch = 10 then ctx.goTo .trailer
      else .next ctx
  | .trailerHeaderAlmostDone => if ch = 10 then ctx.goTo .trailer else .invalid

/-- At the end of a chunk's data the parser goes on behind it. -/
def normalize (ctx : ChunkCtx) : ChunkCtx :=
  if ctx.state = .chunkData ∧ ctx.size = 0 then { ctx with state := .afterData } else ctx

/-- `ctx->length`, the least number of bytes still to come. -/
def length (ctx : ChunkCtx) : Nat :=
  match ctx.state with
  | .chunkStart => 3
  | .chunkSize => 1 + (if ctx.size ≠ 0 then ctx.size + 4 else 1)
  | .chunkExtension => 1 + ctx.size + 4
  | .chunkExtensionAlmostDone => 1 + ctx.size + 4
  | .chunkData => ctx.size + 4
  | .afterData => 4
  | .afterDataAlmostDone => 4
  | .lastChunkExtension => 2
  | .lastChunkExtensionAlmostDone => 2
  | .trailer => 1
  | .trailerAlmostDone => 1
  | .trailerHeader => 2
  | .trailerHeaderAlmostDone => 2

end ChunkCtx

/-- What `ngx_http_parse_chunked` returns, with the context and what is left of the
buffer. -/
inductive ChunkParse where
  | ok (ctx : ChunkCtx) (rest : Bytes)
  | again (ctx : ChunkCtx)
  | done (rest : Bytes)
  | error
deriving DecidableEq, Repr

/-- The loop of `ngx_http_parse_chunked`. -/
def parseChunkedFrom (ctx : ChunkCtx) : Bytes → ChunkParse
  | [] => .again ctx
  | ch :: rest =>
      if ctx.state = .chunkData then .ok ctx (ch :: rest)
      else
        match ctx.move ch with
        | .next ctx => parseChunkedFrom ctx rest
        | .done => .done rest
        | .invalid => .error

/-- A size close to the largest one is refused behind the loop. -/
def ChunkParse.checked : ChunkParse → ChunkParse
  | .ok ctx rest => if ctx.size > ngxMaxOffTValue - 5 then .error else .ok ctx rest
  | .again ctx => if ctx.size > ngxMaxOffTValue - 5 then .error else .again ctx
  | .done rest => .done rest
  | .error => .error

/-- `ngx_http_parse_chunked`. -/
def parseChunked (ctx : ChunkCtx) (data : Bytes) : ChunkParse :=
  (parseChunkedFrom ctx.normalize data).checked

theorem parseChunkedFrom_ok {ctx found : ChunkCtx} {data rest : Bytes}
    (parsed : parseChunkedFrom ctx data = .ok found rest) :
    found.state = .chunkData ∧ rest ≠ [] ∧
      (rest.length < data.length ∨ (rest = data ∧ found = ctx)) := by
  induction data generalizing ctx with
  | nil => cases parsed
  | cons ch data ih =>
      rw [parseChunkedFrom] at parsed
      split at parsed
      · next inData =>
          cases parsed
          exact ⟨inData, by simp, .inr ⟨rfl, rfl⟩⟩
      · split at parsed
        · obtain ⟨state, nonempty, shorter⟩ := ih parsed
          refine ⟨state, nonempty, .inl ?_⟩
          rcases shorter with shorter | ⟨rfl, -⟩
          · exact Nat.lt_succ_of_lt shorter
          · exact Nat.lt_succ_self _
        · cases parsed
        · cases parsed

/-- A parse that found data has moved on, or stands in data of some size. -/
theorem parseChunked_ok {ctx found : ChunkCtx} {data rest : Bytes}
    (parsed : parseChunked ctx data = .ok found rest) :
    parseChunkedFrom ctx.normalize data = .ok found rest ∧ found.state = .chunkData ∧ rest ≠ [] ∧
      (rest.length < data.length ∨ (rest.length = data.length ∧ 0 < found.size)) := by
  unfold parseChunked at parsed
  cases loop : parseChunkedFrom ctx.normalize data with
  | ok state left =>
      rw [loop, ChunkParse.checked] at parsed
      split at parsed
      · cases parsed
      cases parsed
      obtain ⟨inData, nonempty, shorter⟩ := parseChunkedFrom_ok loop
      refine ⟨rfl, inData, nonempty, shorter.imp_right fun ⟨same, kept⟩ => ?_⟩
      refine ⟨by rw [same], Nat.pos_of_ne_zero fun zero => ?_⟩
      -- data of size zero would have been left behind at once
      rw [kept] at inData zero
      unfold ChunkCtx.normalize at inData zero
      split at inData
      · cases inData
      · next other => exact other ⟨inData, by simpa [other] using zero⟩
  | again state => rw [loop, ChunkParse.checked] at parsed; split at parsed <;> cases parsed
  | done left => rw [loop] at parsed; cases parsed
  | error => rw [loop] at parsed; cases parsed

/-- How the loop of `ngx_http_proxy_chunked_filter` ends. -/
inductive ChunkEnd where
  | again (ctx : ChunkCtx)
  | done (rest : Bytes)
deriving DecidableEq, Repr

/-- The loop of `ngx_http_proxy_chunked_filter`: the pieces of data in a buffer; `none` is
an invalid response. -/
def chunkedPieces (ctx : ChunkCtx) (data : Bytes) : Option (List Bytes × ChunkEnd) :=
  match _parsed : parseChunked ctx data with
  | .ok ctx rest =>
      if ctx.size ≤ rest.length then
        (chunkedPieces { ctx with size := 0 } (rest.drop ctx.size)).map fun later =>
          (rest.take ctx.size :: later.1, later.2)
      else
        (chunkedPieces { ctx with size := ctx.size - rest.length } []).map fun later =>
          (rest :: later.1, later.2)
  | .again ctx => some ([], .again ctx)
  | .done rest => some ([], .done rest)
  | .error => none
termination_by data.length
decreasing_by
  all_goals
    obtain ⟨-, -, nonempty, shorter⟩ := parseChunked_ok _parsed
    have := List.length_pos_iff.mpr nonempty
    simp only [List.length_drop, List.length_nil]
    omega

/-! ## The body of a response -/

/-- How the end of a response is known. -/
inductive Framing where
  | contentLength (n : Nat)
  | connectionClose
  | chunked
deriving DecidableEq, Repr

/-- Where in a response a deframer stands. -/
inductive FramePosition where
  | remaining (n : Nat)
  | untilClose
  | inChunks (ctx : ChunkCtx)
  | ended
deriving DecidableEq, Repr

/-- The start of a response. -/
def Framing.start : Framing → FramePosition
  | .contentLength n => .remaining n
  | .connectionClose => .untilClose
  | .chunked => .inChunks {}

/-- One character of a chunked response. -/
def ChunkCtx.feed (ctx : ChunkCtx) (ch : UInt8) : Option (FramePosition × Bytes) :=
  if ctx.state = .chunkData then
    some (.inChunks { ctx with size := ctx.size - 1 : ChunkCtx }.normalize, [ch])
  else
    match ctx.move ch with
    | .next ctx => some (.inChunks ctx.normalize, [])
    | .done => some (.ended, [])
    | .invalid => none

/-- What the bytes of a response amount to. -/
def deframer : Deframer FramePosition UInt8 where
  final position := position = .remaining 0 ∨ position = .ended
  step position ch :=
    match position with
    | .remaining n => some (.remaining (n - 1), [ch])
    | .untilClose => some (.untilClose, [ch])
    | .inChunks ctx => ctx.feed ch
    | .ended => none

@[simp] theorem final_inChunks (ctx : ChunkCtx) : deframer.final (.inChunks ctx) = false := rfl

/-- The body of a whole response: of a response that ends with its connection, whatever
has been received. -/
def Framing.body (framing : Framing) (received : Bytes) : Option Bytes :=
  match framing, deframer.status framing.start received with
  | .connectionClose, .opened _ body => some body
  | .contentLength _, .complete body => some body
  | .chunked, .complete body => some body
  | _, _ => none

/-! ## The parser and the deframer -/

theorem normalize_of_ne {ctx : ChunkCtx} (outside : ctx.state ≠ .chunkData) :
    ctx.normalize = ctx :=
  if_neg fun inData => outside inData.1

theorem normalize_of_size {ctx : ChunkCtx} (some_data : ctx.size ≠ 0) : ctx.normalize = ctx :=
  if_neg fun inData => some_data inData.2

/-- One character outside of data, for the deframer. -/
theorem status_cons_outside {ctx : ChunkCtx} (outside : ctx.state ≠ .chunkData) (ch : UInt8)
    (rest : Bytes) :
    deframer.status (.inChunks ctx.normalize) (ch :: rest) =
      match ctx.move ch with
      | .next next => deframer.status (.inChunks next.normalize) rest
      | .done => deframer.status .ended rest
      | .invalid => .invalid := by
  rw [normalize_of_ne outside]
  cases moved : ctx.move ch with
  | next next =>
      have stepped : deframer.step (.inChunks ctx) ch = some (.inChunks next.normalize, []) := by
        simp [deframer, ChunkCtx.feed, outside, moved]
      rw [status_cons_of_step rfl stepped, Status.prepend_nil]
  | done =>
      have stepped : deframer.step (.inChunks ctx) ch = some (.ended, []) := by
        simp [deframer, ChunkCtx.feed, outside, moved]
      rw [status_cons_of_step rfl stepped, Status.prepend_nil]
  | invalid =>
      have stepped : deframer.step (.inChunks ctx) ch = none := by
        simp [deframer, ChunkCtx.feed, outside, moved]
      exact status_cons_of_none rfl stepped rest

/-- Where the parser stands and what it has left, for the deframer. -/
def ChunkParse.status : ChunkParse → Status FramePosition UInt8
  | .ok ctx rest => deframer.status (.inChunks ctx.normalize) rest
  | .again ctx => .opened (.inChunks ctx.normalize) []
  | .done rest => deframer.status .ended rest
  | .error => .invalid

/-- The loop of the parser takes the steps of the deframer. -/
theorem status_parseChunkedFrom (ctx : ChunkCtx) (data : Bytes) :
    deframer.status (.inChunks ctx.normalize) data = (parseChunkedFrom ctx data).status := by
  induction data generalizing ctx with
  | nil => rfl
  | cons ch data ih =>
      by_cases inData : ctx.state = .chunkData
      · simp only [parseChunkedFrom, inData, if_true]
        rfl
      · rw [status_cons_outside inData, parseChunkedFrom, if_neg inData]
        cases ctx.move ch with
        | next next => exact ih next
        | done => rfl
        | invalid => rfl

theorem normalize_normalize (ctx : ChunkCtx) : ctx.normalize.normalize = ctx.normalize := by
  by_cases ends : ctx.state = .chunkData ∧ ctx.size = 0
  · rw [ChunkCtx.normalize, ChunkCtx.normalize, if_pos ends]
    rfl
  · rw [ChunkCtx.normalize, ChunkCtx.normalize, if_neg ends, if_neg ends]

theorem checked_eq {parse : ChunkParse} (valid : parse.checked ≠ .error) :
    parse.checked = parse := by
  cases parse with
  | ok ctx rest =>
      simp only [ChunkParse.checked] at valid ⊢
      split at valid
      · exact absurd rfl valid
      · next small => rw [if_neg small]
  | again ctx =>
      simp only [ChunkParse.checked] at valid ⊢
      split at valid
      · exact absurd rfl valid
      · next small => rw [if_neg small]
  | done rest => rfl
  | error => rfl

/-- A parse that is not refused takes the steps of the deframer. -/
theorem status_parseChunked {ctx : ChunkCtx} {data : Bytes} {parse : ChunkParse}
    (parsed : parseChunked ctx data = parse) (valid : parse ≠ .error) :
    deframer.status (.inChunks ctx.normalize) data = parse.status := by
  have loop : parseChunkedFrom ctx.normalize data = parse := by
    rw [← parsed] at valid ⊢
    exact (checked_eq valid).symm
  rw [← normalize_normalize, status_parseChunkedFrom, loop]

/-- The data of a chunk is emitted as it is. -/
theorem status_run {ctx : ChunkCtx} (inData : ctx.state = .chunkData) {run : Bytes}
    (fits : run.length ≤ ctx.size) (more : Bytes) :
    deframer.status (.inChunks ctx.normalize) (run ++ more) =
      (deframer.status (.inChunks { ctx with size := ctx.size - run.length : ChunkCtx }.normalize)
        more).prepend run := by
  induction run generalizing ctx with
  | nil => rw [List.nil_append, List.length_nil, Nat.sub_zero, Status.prepend_nil]
  | cons ch run ih =>
      rw [List.length_cons] at fits
      have stepped : deframer.step (.inChunks ctx) ch =
          some (.inChunks { ctx with size := ctx.size - 1 : ChunkCtx }.normalize, [ch]) := by
        simp [deframer, ChunkCtx.feed, inData]
      have next := @ih { ctx with size := ctx.size - 1 } inData (by simp only; omega)
      rw [normalize_of_size (by omega), List.cons_append, status_cons_of_step rfl stepped, next,
        Status.prepend_prepend, List.length_cons, Nat.sub_sub, Nat.add_comm 1]
      rfl

/-- Where the filter stands after a buffer, for the deframer. -/
def ChunkEnd.status : ChunkEnd → Status FramePosition UInt8
  | .again ctx => .opened (.inChunks ctx.normalize) []
  | .done rest => deframer.status .ended rest

/-- **The pieces of a buffer are its part of the body**, wherever the buffer starts and
ends. -/
theorem status_chunkedPieces {ctx : ChunkCtx} {data : Bytes} {pieces : List Bytes}
    {ended : ChunkEnd} (parsed : chunkedPieces ctx data = some (pieces, ended)) :
    deframer.status (.inChunks ctx.normalize) data = ended.status.prepend pieces.flatten := by
  fun_induction chunkedPieces ctx data generalizing pieces ended with
  | case1 ctx data found rest ok whole ih =>
      obtain ⟨later, laterParsed, result⟩ := Option.map_eq_some_iff.mp parsed
      cases result
      have inData := (parseChunked_ok ok).2.1
      have read := status_run inData (List.length_take_le found.size rest) (rest.drop found.size)
      rw [List.take_append_drop, List.length_take, Nat.min_eq_left whole, Nat.sub_self] at read
      rw [status_parseChunked ok (by simp), ChunkParse.status, read, ih laterParsed,
        Status.prepend_prepend, List.flatten_cons]
  | case2 ctx data found rest ok partly ih =>
      obtain ⟨later, laterParsed, result⟩ := Option.map_eq_some_iff.mp parsed
      cases result
      have inData := (parseChunked_ok ok).2.1
      have read := status_run inData (Nat.le_of_not_le partly) []
      rw [List.append_nil] at read
      rw [status_parseChunked ok (by simp), ChunkParse.status, read, ih laterParsed,
        Status.prepend_prepend, List.flatten_cons]
  | case3 ctx data found again =>
      cases parsed
      rw [status_parseChunked again (by simp), List.flatten_nil, Status.prepend_nil]
      rfl
  | case4 ctx data rest done =>
      cases parsed
      rw [status_parseChunked done (by simp), List.flatten_nil, Status.prepend_nil]
      rfl
  | case5 ctx data error => cases parsed

/-! ## Lengths -/

/-- A message with an announced length. -/
theorem status_remaining (n : Nat) (data : Bytes) :
    deframer.status (.remaining n) data =
      if data.length < n then .opened (.remaining (n - data.length)) data
      else if data.length = n then .complete data
      else .beyond := by
  induction data generalizing n with
  | nil =>
      cases n with
      | zero => rfl
      | succ n => rfl
  | cons ch data ih =>
      cases n with
      | zero => rfl
      | succ n =>
          have stepped : deframer.step (.remaining (n + 1)) ch = some (.remaining n, [ch]) := rfl
          have running : deframer.final (.remaining (n + 1)) = false := by simp [deframer]
          rw [status_cons_of_step running stepped, ih, List.length_cons, Nat.add_sub_add_right]
          rcases Nat.lt_trichotomy data.length n with short | same | long
          · simp [short, Status.prepend]
          · simp [same, Status.prepend]
          · simp [Nat.not_lt_of_gt long, Nat.ne_of_gt long, Status.prepend]

/-- A character brings the end of a chunked message nearer by one at most. -/
theorem length_le_of_move {ctx next : ChunkCtx} {ch : UInt8}
    (moved : ctx.move ch = .next next) : ctx.length ≤ next.length + 1 := by
  obtain ⟨state, size⟩ := ctx
  cases state
  all_goals
    simp only [ChunkCtx.move, ChunkCtx.goTo] at moved
    repeat' split at moved
    all_goals cases moved
    all_goals
      simp only [ChunkCtx.length]
      repeat' split
      all_goals omega

theorem length_le_of_done {ctx : ChunkCtx} {ch : UInt8} (moved : ctx.move ch = .done) :
    ctx.length ≤ 1 := by
  obtain ⟨state, size⟩ := ctx
  cases state
  all_goals
    simp only [ChunkCtx.move, ChunkCtx.goTo] at moved
    repeat' split at moved
    all_goals cases moved
    all_goals exact Nat.le_refl 1

theorem length_normalize (ctx : ChunkCtx) : ctx.normalize.length = ctx.length := by
  unfold ChunkCtx.normalize
  split
  · next ends => simp [ChunkCtx.length, ends.1, ends.2]
  · rfl

/-- The least number of bytes that complete a message. -/
def FramePosition.need : FramePosition → Nat
  | .remaining n => n
  | .untilClose => 0
  | .inChunks ctx => ctx.length
  | .ended => 0

/-- One byte brings the end of a message nearer by one at most. -/
theorem need_falls (position : FramePosition) (ch : UInt8) (next : FramePosition) (emitted : Bytes)
    (stepped : deframer.step position ch = some (next, emitted)) :
    position.need ≤ next.need + 1 := by
  cases position with
  | remaining n =>
      cases stepped
      simp only [FramePosition.need]
      omega
  | untilClose => exact Nat.zero_le _
  | inChunks ctx =>
      simp only [deframer, ChunkCtx.feed] at stepped
      split at stepped
      · rename_i inData
        cases stepped
        obtain ⟨state, size⟩ := ctx
        obtain rfl : state = .chunkData := inData
        rw [FramePosition.need, FramePosition.need, length_normalize]
        simp only [ChunkCtx.length]
        omega
      · split at stepped
        · rename_i moved
          cases stepped
          simp only [FramePosition.need, length_normalize]
          exact length_le_of_move moved
        · rename_i moved
          cases stepped
          exact length_le_of_done moved
        · cases stepped
  | ended => cases stepped

/-- No message is complete before it has the bytes it needs. -/
theorem need_le_of_complete {position : FramePosition} {data body : Bytes}
    (read : deframer.status position data = .complete body) : position.need ≤ data.length := by
  refine le_length_of_complete ?_ need_falls read
  intro position ended
  rcases of_decide_eq_true ended with rfl | rfl <;> rfl

/-- No chunked message is complete before the parser says it may be. -/
theorem length_le_of_complete {ctx : ChunkCtx} {data body : Bytes}
    (read : deframer.status (.inChunks ctx) data = .complete body) :
    ctx.length ≤ data.length := by
  exact need_le_of_complete read

end HttpBackEnd.Nginx
