import HttpBackEnd.Library.Transition
import HttpBackEnd.Nginx.BodyFilter
import HttpBackEnd.Nginx.Uri

/-! # Reading a request body

`ngx_http_read_client_request_body` takes what came with the header, allocates `rb->buf`
and reads into it; each time the buffer is full, what has been found of the body goes to a
temporary file and the buffer is used again. The parts of the body in `rb->bufs` are
windows into that same memory, so that a window that is still in the chain when its memory
is used again would change.

The environment decides what each `recv` returns, whether a write to the file succeeds,
whether `100 Continue` can be sent where the client expects it, and whether there is memory
and the read event is taken. Requests with `request_body_no_buffering` or
`request_body_in_file_only` are left out, as nothing in the program sets them.
-/

namespace HttpBackEnd.Nginx

open Deframe Transition

/-- A buffer of `rb->bufs`: a part of `header_in`, a window into `rb->buf`, or the empty
buffer that ends a chunked body. -/
inductive Span where
  | preread (bytes : Bytes)
  | window (pos last : Nat)
  | marker
deriving DecidableEq, Repr

namespace Span

/-- What a buffer holds, with the memory of `rb->buf` as it is. -/
def bytes (memory : Bytes) : Span → Bytes
  | preread bytes => bytes
  | window pos last => (memory.take last).drop pos
  | marker => []

/-- `ngx_buf_size`. -/
def size : Span → Nat
  | preread bytes => bytes.length
  | window pos last => last - pos
  | marker => 0

end Span

/-- A part of a buffer that starts at a place of `rb->buf`. -/
def BodyPiece.span (pos : Nat) : BodyPiece → Span
  | some (first, last) => .window (pos + first) (pos + last)
  | none => .marker

/-- The settings of a location. -/
structure BodyConf where
  clientBodyBufferSize : Nat
  clientMaxBodySize : Nat
deriving DecidableEq, Repr

/-- `ngx_http_request_body_t` with its buffer: `memory` is `rb->buf` from `start` to `end`,
and `file` what is in the temporary file. -/
structure Reading where
  progress : BodyProgress
  memory : Bytes
  pos : Nat := 0
  last : Nat := 0
  bufs : List Span := []
  busy : List Span := []
  file : Option Bytes := none
deriving DecidableEq, Repr

namespace Reading

variable (conf : BodyConf) (disk : Bool) (state : Reading)

/-- What has been read into the buffer and not been passed on. -/
def window : Bytes := (state.memory.take state.last).drop state.pos

/-- The part of the body that has been found. -/
def stored : Bytes := state.file.getD [] ++ state.bufs.flatMap (Span.bytes state.memory)

/-- `ngx_http_write_request_body`: the buffers are marked as written, those in `rb->busy`
with them, for they are the same. -/
def writeRequestBody : Except Int Reading :=
  if state.file.isSome ∧ state.bufs = [] then .ok state
  else if disk then .ok { state with file := some state.stored, bufs := [], busy := [] }
  else .error 500

/-- `ngx_http_request_body_save_filter`; `full` tells that `rb->buf` is there and full. -/
def saveFilter (full : Bool) : Except Int Reading :=
  if 0 < state.progress.rest then
    if full then state.writeRequestBody disk else .ok state
  else if state.file.isSome then state.writeRequestBody disk
  else .ok state

/-- New buffers go through the save filter, and `ngx_chain_update_chains` keeps those that
are not empty in `rb->busy`. -/
def save (full : Bool) (out : List Span) : Except Int Reading :=
  (saveFilter disk { state with bufs := state.bufs ++ out, busy := state.busy ++ out } full).map
    fun state => { state with busy := state.busy.dropWhile (·.size = 0) }

/-- `ngx_http_request_body_filter` on `rb->buf`. -/
def passBuffer : Except Int Reading := do
  let filtered ← requestBodyFilter conf.clientMaxBodySize state.progress state.window
  save disk
    { state with progress := filtered.progress, pos := state.pos + filtered.used }
    (state.last = state.memory.length) (filtered.pieces.map (BodyPiece.span state.pos))

/-- The buffer is used again from its start, if none of its windows is in use. -/
def reuse : Except Int Reading :=
  if state.busy ≠ [] then .error 500 else .ok { state with pos := 0, last := 0 }

/-- The start of a round of `ngx_http_do_read_client_request_body`: a full buffer is passed
on and used again. -/
def flush : Except Int Reading :=
  if state.last = state.memory.length then
    if state.pos ≠ state.last then (passBuffer conf disk state).bind reuse
    else (save disk state true []).bind reuse
  else .ok state

/-- The size `recv` is called with: no more than the filter wants. -/
def room : Nat := min (state.memory.length - state.last) (state.progress.rest - state.window.length)

/-- `rb->bufs` of a whole body. -/
def chain : List Buf :=
  match state.file with
  | some bytes => if bytes = [] then [] else [{ file := bytes }]
  | none => state.bufs.map fun span => { memory := span.bytes state.memory }

end Reading

/-- How far the reading has come. -/
inductive BodyReading where
  | reading (state : Reading)
  | failed (rc : Int)
  | complete (bufs : List Buf)
deriving DecidableEq, Repr

/-- What can happen: `recv` finds nothing, the connection is gone, or bytes have come; the
read timer expires; or an allocation or `ngx_handle_read_event` fails. -/
inductive ReadEvent where
  | again (disk : Bool)
  | closed (disk : Bool)
  | recv (disk : Bool) (data : Bytes)
  | timedout
  | internal
deriving DecidableEq, Repr

namespace Reading

variable (conf : BodyConf) (disk : Bool)

/-- Bytes in the memory behind `last`. -/
def write (state : Reading) (data : Bytes) : Reading :=
  { state with
    memory := state.memory.take state.last ++ data ++ state.memory.drop (state.last + data.length)
    last := state.last + data.length }

/-- The whole body has been read, or there is more of it. -/
def outcome (state : Reading) : BodyReading :=
  if state.progress.rest = 0 then .complete state.chain else .reading state

/-- `recv` has read bytes into a buffer with room for them. -/
def received (state : Reading) (data : Bytes) : Except Int BodyReading :=
  (if data.length = state.progress.rest - state.window.length then
    passBuffer conf disk (state.write data)
  else .ok (state.write data)).map outcome

end Reading

/-- One event of a request whose body is being read. -/
def readBody (conf : BodyConf) : System BodyReading ReadEvent where
  step reading event :=
    match reading with
    | .reading state =>
        match event with
        | .again disk =>
            match state.flush conf disk with
            | .ok state => some (.reading state)
            | .error rc => some (.failed rc)
        | .closed disk =>
            match state.flush conf disk with
            | .ok _ => some (.failed 400)
            | .error rc => some (.failed rc)
        | .recv disk data =>
            match state.flush conf disk with
            | .ok state =>
                if data = [] ∨ state.room < data.length then none
                else
                  match state.received conf disk data with
                  | .ok next => some next
                  | .error rc => some (.failed rc)
            | .error rc => some (.failed rc)
        | .timedout => some (.failed 408)
        | .internal => some (.failed 500)
    | _ => none

/-- Memory as it is handed out, with anything in it. -/
structure Heap where
  bytes : Nat → Bytes
  length_bytes : ∀ size, (bytes size).length = size

/-- A part of what was read behind the header. -/
def BodyPiece.preread (preread : Bytes) (piece : BodyPiece) : Span :=
  match piece with
  | some _ => .preread (piece.bytes preread)
  | none => .marker

/-- `rb` after the filter has seen what was read behind the header; there is no `rb->buf`
yet, so that nothing is written. -/
def Reading.afterHeader (filtered : Filtered) (preread : Bytes) : Reading where
  progress := filtered.progress
  memory := []
  bufs := filtered.pieces.map (BodyPiece.preread preread)
  busy := (filtered.pieces.map (BodyPiece.preread preread)).dropWhile (·.size = 0)

/-- The memory of `rb->buf`: what is behind the part that was read with the header, if the
rest of the body fits there, or a new buffer. -/
def bodyBuffer (conf : BodyConf) (framing : RequestFraming) (preread behind : Bytes) (heap : Heap)
    (rest : Nat) : Bytes :=
  if framing ≠ .chunked ∧ preread ≠ [] ∧ rest ≤ behind.length then behind
  else if framing ≠ .chunked ∧
      rest < conf.clientBodyBufferSize + conf.clientBodyBufferSize / 4 then heap.bytes rest
  else heap.bytes conf.clientBodyBufferSize

/-- The part of `ngx_http_read_client_request_body` behind the first call of the filter. -/
def beginReading (conf : BodyConf) (framing : RequestFraming) (preread behind : Bytes)
    (heap : Heap) (filtered : Filtered) : BodyReading :=
  if filtered.progress.rest = 0 then .complete (Reading.afterHeader filtered preread).chain
  else .reading { Reading.afterHeader filtered preread with
    memory := bodyBuffer conf framing preread behind heap filtered.progress.rest }

/-- `ngx_http_read_client_request_body` behind its first allocation, up to the first `recv`,
with what was read behind the header and the memory behind that in `header_in`. -/
def beginBody (conf : BodyConf) (framing : RequestFraming) (preread behind : Bytes)
    (heap : Heap) : BodyReading :=
  if framing = .absent then .complete []
  else if preread = [] then
    beginReading conf framing preread behind heap ⟨[], 0, framing.start⟩
  else
    match requestBodyFilter conf.clientMaxBodySize framing.start preread with
    | .error rc => .failed rc
    | .ok filtered => beginReading conf framing preread behind heap filtered

/-- The version of the request is 1.1 or later, its `Expect` header, whether the interim
response is sent, and whether all of the allocations succeed. -/
structure Prelude where
  http11 : Bool := true
  expect : Option Bytes := none
  sent : Bool := true
  memory : Bool := true
deriving DecidableEq, Repr

/-- `ngx_http_test_expect`. -/
def Prelude.testExpect (start : Prelude) : Bool :=
  match start.expect with
  | none => true
  | some value => !start.http11 || value.map toLower != ascii "100-continue" || start.sent

/-- `ngx_http_read_client_request_body`. -/
def readClientRequestBody (conf : BodyConf) (framing : RequestFraming) (preread behind : Bytes)
    (heap : Heap) (start : Prelude) : BodyReading :=
  if start.testExpect && start.memory then beginBody conf framing preread behind heap
  else .failed 500

/-! ## Where the bytes are -/

namespace Reading

variable {conf : BodyConf} {disk full : Bool} {state next : Reading}

/-- The save filter writes the chain: the buffer is full and there is more of the body, or
the body is whole and there is a file. -/
def Writes (state : Reading) (full : Bool) : Prop :=
  (full = true ∧ 0 < state.progress.rest) ∨ (state.progress.rest = 0 ∧ state.file.isSome)

/-- The chain is written if it must be, and stays as it is otherwise. -/
theorem saveFilter_cases (saved : state.saveFilter disk full = .ok next) :
    (¬state.Writes full ∧ next = state) ∨ (state.Writes full ∧
      ((next = state ∧ state.file.isSome ∧ state.bufs = []) ∨
        next = { state with file := some state.stored, bufs := [], busy := [] })) := by
  have written : state.writeRequestBody disk = .ok next →
      (next = state ∧ state.file.isSome ∧ state.bufs = []) ∨
        next = { state with file := some state.stored, bufs := [], busy := [] } := by
    intro saved
    unfold writeRequestBody at saved
    split at saved
    · rename_i nothing
      exact .inl ⟨(Except.ok.inj saved).symm, nothing⟩
    · split at saved
      · exact .inr (Except.ok.inj saved).symm
      · cases saved
  unfold saveFilter at saved
  split at saved
  · rename_i more
    split at saved
    · rename_i isFull
      exact .inr ⟨.inl ⟨isFull, more⟩, written saved⟩
    · rename_i partly
      refine .inl ⟨?_, (Except.ok.inj saved).symm⟩
      rintro (⟨isFull, _⟩ | ⟨ended, _⟩)
      · exact partly isFull
      · exact absurd ended (Nat.ne_of_gt more)
  · rename_i ended
    split at saved
    · rename_i file
      exact .inr ⟨.inr ⟨by omega, file⟩, written saved⟩
    · rename_i absent
      refine .inl ⟨?_, (Except.ok.inj saved).symm⟩
      rintro (⟨_, more⟩ | ⟨_, file⟩)
      · exact ended more
      · exact absent file

/-- What saving new buffers does: nothing is lost, and a chain that is written is empty. -/
structure Saved (state next : Reading) (full : Bool) (out : List Span) : Prop where
  progress : next.progress = state.progress
  memory : next.memory = state.memory
  pos : next.pos = state.pos
  last : next.last = state.last
  stored : next.stored = state.stored ++ out.flatMap (Span.bytes state.memory)
  kept : ¬state.Writes full → next.bufs = state.bufs ++ out ∧ next.file = state.file
  written : state.Writes full → next.bufs = [] ∧ next.file.isSome
  busy : (state.bufs = [] → state.busy = []) → next.bufs = [] → next.busy = []

/-- What the save filter does, without the file if there is none. -/
theorem save_saved {out : List Span} (saved : state.save disk full out = .ok next) :
    Saved state next full out := by
  unfold save at saved
  obtain ⟨middle, filtered, rfl⟩ : ∃ middle, saveFilter disk
      { state with bufs := state.bufs ++ out, busy := state.busy ++ out } full = .ok middle ∧
        { middle with busy := middle.busy.dropWhile (·.size = 0) } = next := by
    cases result : saveFilter disk
        { state with bufs := state.bufs ++ out, busy := state.busy ++ out } full with
    | error rc =>
        rw [result] at saved
        cases saved
    | ok middle =>
        rw [result] at saved
        exact ⟨middle, rfl, Except.ok.inj saved⟩
  have appended : ({ state with bufs := state.bufs ++ out, busy := state.busy ++ out } :
      Reading).stored = state.stored ++ out.flatMap (Span.bytes state.memory) := by
    simp only [Reading.stored, List.flatMap_append, List.append_assoc]
  have quiet : (state.bufs = [] → state.busy = []) → state.bufs ++ out = [] →
      (state.busy ++ out).dropWhile (·.size = 0) = [] := by
    intro quiet nothing
    obtain ⟨none, noOut⟩ := List.append_eq_nil_iff.mp nothing
    rw [quiet none, noOut]
    rfl
  rcases saveFilter_cases filtered with ⟨stays, rfl⟩ | ⟨writes, ⟨rfl, file, none⟩ | rfl⟩
  · exact ⟨rfl, rfl, rfl, rfl, appended, fun _ => ⟨rfl, rfl⟩, fun writes => absurd writes stays,
      quiet⟩
  · exact ⟨rfl, rfl, rfl, rfl, appended, fun _ => ⟨rfl, rfl⟩, fun _ => ⟨none, file⟩, quiet⟩
  · refine ⟨rfl, rfl, rfl, rfl, ?_, fun stays => absurd writes stays, fun _ => ⟨rfl, rfl⟩,
      fun _ _ => rfl⟩
    rw [← appended]
    simp [Reading.stored]

/-- The chain keeps its buffers and gets the new ones, or it is empty. -/
theorem Saved.bufs {out : List Span} (saved : Saved state next full out) :
    next.bufs = state.bufs ++ out ∨ next.bufs = [] := by
  by_cases writes : state.Writes full
  · exact .inr (saved.written writes).1
  · exact .inl (saved.kept writes).1

/-- A whole body that has a file has no buffers besides it. -/
theorem Saved.inFile {out : List Span} (saved : Saved state next full out)
    (ended : state.progress.rest = 0) (file : next.file.isSome) : next.bufs = [] := by
  by_cases writes : state.Writes full
  · exact (saved.written writes).1
  · rw [(saved.kept writes).2] at file
    exact absurd (.inr ⟨ended, file⟩) writes

/-- A file is never given up. -/
theorem Saved.file {out : List Span} (saved : Saved state next full out)
    (file : state.file.isSome) : next.file.isSome := by
  by_cases writes : state.Writes full
  · exact (saved.written writes).2
  · rw [(saved.kept writes).2]
    exact file

/-- Saving fails only if the file is not written. -/
theorem save_error {out : List Span} {rc : Int} (failed : state.save disk full out = .error rc) :
    rc = 500 ∧ disk = false := by
  have write_error : ∀ {state : Reading}, state.writeRequestBody disk = .error rc →
      rc = 500 ∧ disk = false := by
    intro state failed
    unfold writeRequestBody at failed
    split at failed
    · cases failed
    · split at failed
      · cases failed
      · rename_i unwritten
        exact ⟨(Except.error.inj failed).symm, by simpa using unwritten⟩
  unfold save at failed
  cases result : saveFilter disk
      { state with bufs := state.bufs ++ out, busy := state.busy ++ out } full with
  | ok middle =>
      rw [result] at failed
      cases failed
  | error other =>
      rw [result] at failed
      cases failed
      unfold saveFilter at result
      split at result
      · split at result
        · exact write_error result
        · cases result
      · split at result
        · exact write_error result
        · cases result

/-- The buffer is in order: `pos` and `last` are, no buffer of the chain reaches beyond `pos`,
and `rb->busy` holds buffers of the chain. -/
structure Tidy (state : Reading) : Prop where
  pos_le : state.pos ≤ state.last
  last_le : state.last ≤ state.memory.length
  behind : ∀ pos last, .window pos last ∈ state.bufs → last ≤ state.pos
  busy : state.bufs = [] → state.busy = []

/-- The window is what is between the two positions. -/
theorem Tidy.length_window (tidy : state.Tidy) : state.window.length = state.last - state.pos := by
  rw [window, List.length_drop, List.length_take, Nat.min_eq_left tidy.last_le]

/-- A part of what was read is the window to it. -/
theorem Tidy.span_bytes (tidy : state.Tidy) {piece : BodyPiece}
    (within : ∀ first last, piece = some (first, last) → last ≤ state.window.length) :
    (piece.span state.pos).bytes state.memory = piece.bytes state.window := by
  cases piece with
  | none => rfl
  | some ends =>
      obtain ⟨first, last⟩ := ends
      have inside := within first last rfl
      rw [tidy.length_window] at inside
      have ordered := tidy.pos_le
      change (state.memory.take (state.pos + last)).drop (state.pos + first) =
        (((state.memory.take state.last).drop state.pos).take last).drop first
      rw [List.take_drop, List.take_take, List.drop_drop, Nat.min_eq_left (by omega)]

/-- The pieces of the window are found in the memory of the buffer. -/
theorem Tidy.pieces_bytes (tidy : state.Tidy) {pieces : List BodyPiece}
    (within : ∀ first last, some (first, last) ∈ pieces → last ≤ state.window.length) :
    (pieces.map (BodyPiece.span state.pos)).flatMap (Span.bytes state.memory) =
      bytesOf state.window pieces := by
  rw [List.flatMap_map, bytesOf]
  refine List.flatMap_congr fun piece member => ?_
  refine tidy.span_bytes fun first last same => ?_
  exact within first last (same ▸ member)

/-- **The window of the buffer** is filtered and saved. -/
theorem passBuffer_saved (done : state.passBuffer conf disk = .ok next) :
    ∃ filtered,
      requestBodyFilter conf.clientMaxBodySize state.progress state.window = .ok filtered ∧
      Saved { state with progress := filtered.progress, pos := state.pos + filtered.used } next
        (state.last = state.memory.length) (filtered.pieces.map (BodyPiece.span state.pos)) := by
  unfold passBuffer at done
  cases found : requestBodyFilter conf.clientMaxBodySize state.progress state.window with
  | error rc =>
      rw [found] at done
      cases done
  | ok filtered =>
      rw [found] at done
      exact ⟨filtered, rfl, save_saved done⟩

/-- What passing the buffer on does to the part of the body that has been found. -/
theorem passBuffer_passed (tidy : state.Tidy) {start : FramePosition} {passed : Bytes}
    (read : deframer.status start passed = .opened state.progress.position state.stored)
    (wanted : 0 < state.progress.rest) (done : state.passBuffer conf disk = .ok next) :
    next.Tidy ∧ next.memory = state.memory ∧ next.last = state.last ∧
      ((0 < next.progress.rest ∧ next.pos = state.last ∧
        deframer.status start (passed ++ state.window) =
          .opened next.progress.position next.stored ∧
        (state.last = state.memory.length → next.bufs = [])) ∨
      (next.progress.rest = 0 ∧
        (∃ used, deframer.status start (passed ++ state.window.take used) = .complete next.stored ∧
          state.progress.rest ≤ (state.window.take used).length) ∧
        (next.file.isSome → next.bufs = []))) := by
  obtain ⟨filtered, found, saved⟩ := passBuffer_saved done
  have finds := requestBodyFilter_finds wanted found
  have used : filtered.used ≤ state.window.length := by
    rcases finds with ⟨_, all, _⟩ | ⟨_, part, _⟩
    · exact Nat.le_of_eq all
    · exact part
  have within : ∀ first last, some (first, last) ∈ filtered.pieces → last ≤ filtered.used :=
    fun first last member => requestBodyFilter_pieces found member
  have bytes := tidy.pieces_bytes fun first last member =>
    Nat.le_trans (within first last member) used
  have ordered := tidy.pos_le
  have counted := tidy.length_window
  have stored : next.stored = state.stored ++ bytesOf state.window filtered.pieces := by
    rw [← bytes]
    exact saved.stored
  have place : next.pos = state.pos + filtered.used := saved.pos
  refine ⟨⟨?_, ?_, ?_, ?_⟩, saved.memory, saved.last, ?_⟩
  · rw [place, saved.last]
    simp only
    omega
  · rw [saved.last, saved.memory]
    exact tidy.last_le
  · intro pos last member
    rw [place]
    rcases saved.bufs with all | none
    · rw [all] at member
      rcases List.mem_append.mp member with earlier | new
      · exact Nat.le_trans (tidy.behind pos last earlier) (Nat.le_add_right _ _)
      · obtain ⟨piece, found, same⟩ := List.mem_map.mp new
        cases piece with
        | none => cases same
        | some ends =>
            cases same
            exact Nat.add_le_add_left (within _ _ found) _
    · rw [none] at member
      cases member
  · exact saved.busy tidy.busy
  · rcases finds with ⟨more, all, opened⟩ | ⟨ended, part, complete⟩
    · refine .inl ⟨saved.progress ▸ more, by omega, ?_, fun full => ?_⟩
      · rw [status_append_of_opened read, opened, stored, saved.progress]
        rfl
      · exact (saved.written (.inl ⟨decide_eq_true full, more⟩)).1
    · refine .inr ⟨saved.progress ▸ ended, ⟨filtered.used, ?_, ?_⟩, saved.inFile ended⟩
      · rw [status_append_of_opened read, complete, stored]
        rfl
      · exact rest_le_length complete

/-- The reading has come so far: what was received is what has been passed on and what the
buffer holds, the deframer has emitted what is stored, and it wants more than the buffer
holds. -/
structure Holds (framing : RequestFraming) (received : Bytes) (state : Reading) : Prop where
  tidy : state.Tidy
  found : ∃ passed, received = passed ++ state.window ∧
    deframer.status framing.start.position passed = .opened state.progress.position state.stored
  wanted : state.window.length < state.progress.rest

variable {framing : RequestFraming} {received : Bytes}

/-- A buffer is used again only when it holds nothing that is still needed, and then the
check succeeds. -/
theorem Holds.reuse {passed : Bytes} (tidy : state.Tidy)
    (read : deframer.status framing.start.position passed =
      .opened state.progress.position state.stored) (none : state.bufs = [])
    (more : 0 < state.progress.rest) :
    ∃ next, state.reuse = .ok next ∧ Holds framing passed next := by
  refine ⟨_, if_neg (not_not_intro (tidy.busy none)), ?_⟩
  refine ⟨⟨Nat.le_refl 0, Nat.zero_le _, ?_, tidy.busy⟩, ⟨passed, ?_, read⟩, more⟩
  · intro pos last member
    rw [none] at member
    cases member
  · simp [window]

/-- The filters fail with their own codes, and with 500 only over the file. -/
theorem passBuffer_error {rc : Int} (failed : state.passBuffer conf disk = .error rc) :
    rc = 400 ∨ rc = 413 ∨ (rc = 500 ∧ disk = false) := by
  unfold passBuffer at failed
  cases found : requestBodyFilter conf.clientMaxBodySize state.progress state.window with
  | error other =>
      rw [found] at failed
      cases failed
      rcases requestBodyFilter_error found with invalid | large
      · exact .inl invalid
      · exact .inr (.inl large)
  | ok filtered =>
      rw [found] at failed
      exact .inr (.inr (save_error failed))

/-- Using a full buffer again loses nothing, and it can fail only if a chunk is refused or
the file is not written. -/
theorem Holds.flush (holds : Holds framing received state) (conf : BodyConf) (disk : Bool) :
    (∃ next, state.flush conf disk = .ok next ∧ Holds framing received next) ∨
      ∃ rc, state.flush conf disk = .error rc ∧
        (rc = 400 ∨ rc = 413 ∨ (rc = 500 ∧ disk = false)) := by
  unfold Reading.flush
  split
  · rename_i full
    obtain ⟨passed, rfl, read⟩ := holds.found
    have wanted := Nat.lt_of_le_of_lt (Nat.zero_le _) holds.wanted
    split
    · cases done : state.passBuffer conf disk with
      | error rc => exact .inr ⟨rc, rfl, passBuffer_error done⟩
      | ok middle =>
          obtain ⟨tidy, _, _, ⟨more, _, opened, emptied⟩ | ⟨_, ⟨used, _, enough⟩, _⟩⟩ :=
            passBuffer_passed holds.tidy read wanted done
          · exact .inl (Holds.reuse tidy opened (emptied full) more)
          · -- the body would be complete with fewer bytes than were wanted
            have short := holds.wanted
            rw [List.length_take] at enough
            omega
    · rename_i passedOn
      cases done : state.save disk true [] with
      | error rc => exact .inr ⟨rc, rfl, .inr (.inr (save_error done))⟩
      | ok middle =>
          have saved := save_saved done
          have none := (saved.written (.inl ⟨rfl, wanted⟩)).1
          have empty : state.window = [] := by
            rw [← List.length_eq_zero_iff, holds.tidy.length_window]
            omega
          have tidy : middle.Tidy := by
            refine ⟨?_, ?_, ?_, fun _ => saved.busy holds.tidy.busy none⟩
            · rw [saved.pos, saved.last]
              exact holds.tidy.pos_le
            · rw [saved.last, saved.memory]
              exact holds.tidy.last_le
            · rw [none]
              intro pos last member
              cases member
          have stored : middle.stored = state.stored := by
            simpa using saved.stored
          rw [empty, List.append_nil]
          refine .inl (Holds.reuse tidy ?_ none ?_)
          · rw [stored, saved.progress]
            exact read
          · rw [saved.progress]
            exact wanted
  · exact .inl ⟨state, rfl, holds⟩

/-- New bytes behind `last` change no buffer of the chain. -/
theorem Tidy.stored_write (tidy : state.Tidy) (data : Bytes) :
    (state.write data).stored = state.stored := by
  have kept : ∀ count, count ≤ state.last →
      (state.write data).memory.take count = state.memory.take count := by
    intro count within
    have whole : (state.memory.take state.last).length = state.last :=
      List.length_take_of_le tidy.last_le
    rw [write, List.append_assoc, List.take_append_of_le_length (by omega), List.take_take,
      Nat.min_eq_left within]
  unfold stored
  congr 1
  refine List.flatMap_congr fun span member => ?_
  cases span with
  | preread bytes => rfl
  | window pos last =>
      have before := tidy.behind pos last member
      have ordered := tidy.pos_le
      rw [Span.bytes, Span.bytes, kept last (by omega)]
  | marker => rfl

/-- Received bytes go behind the window. -/
theorem Tidy.write (tidy : state.Tidy) (data : Bytes) : (state.write data).Tidy := by
  have within := tidy.last_le
  refine ⟨Nat.le_trans tidy.pos_le (Nat.le_add_right _ _), ?_, tidy.behind, tidy.busy⟩
  simp only [Reading.write, List.length_append, List.length_take, List.length_drop]
  omega

theorem Tidy.window_write (tidy : state.Tidy) (data : Bytes) :
    (state.write data).window = state.window ++ data := by
  have whole : (state.memory.take state.last).length = state.last :=
    List.length_take_of_le tidy.last_le
  have front : (state.memory.take state.last ++ data).length = state.last + data.length := by
    rw [List.length_append, whole]
  simp only [window, Reading.write]
  rw [List.take_append_of_le_length (by omega), List.take_of_length_le (by omega),
    List.drop_append_of_le_length (by rw [whole]; exact tidy.pos_le)]

/-- What is stored of a whole body is what the chain hands over. -/
theorem handsOver_chain (inFile : state.file.isSome → state.bufs = []) :
    HandsOver state.stored state.chain := by
  unfold chain stored
  cases file : state.file with
  | some bytes =>
      rw [file] at inFile
      rw [inFile rfl]
      by_cases empty : bytes = []
      · simp only [if_pos empty]
        refine .none ?_
        simp [empty]
      · simp only [if_neg empty]
        simpa using HandsOver.file empty
  | none =>
      simp only [Option.getD_none, List.nil_append]
      by_cases empty : state.bufs = []
      · rw [empty]
        exact .none rfl
      · refine .memory _ ?_ ?_ ?_
        · simpa using empty
        · intro buf member
          obtain ⟨span, _, rfl⟩ := List.mem_map.mp member
          rfl
        · simp [bodyOf, List.flatMap_map]

end Reading

/-- A code a reading fails with: the body is no chunked one or the connection is gone, the
timer has expired, the body is too large, or something of the system's own has failed. -/
def FailsWith (lost : Prop) (rc : Int) : Prop :=
  rc = 400 ∨ rc = 408 ∨ rc = 413 ∨ (rc = 500 ∧ lost)

/-- A failure of the filters is among the failures of the reader. -/
theorem FailsWith.of_pass {disk : Bool} {lost : Prop} (written : disk = false → lost) {rc : Int}
    (failed : rc = 400 ∨ rc = 413 ∨ (rc = 500 ∧ disk = false)) : FailsWith lost rc := by
  rcases failed with invalid | large | ⟨internal, unwritten⟩
  · exact .inl invalid
  · exact .inr (.inr (.inl large))
  · exact .inr (.inr (.inr ⟨internal, written unwritten⟩))

/-- What is promised of a reading after so many bytes: a whole body is handed over, and no
byte behind it has been taken. -/
def BodyReading.Keeps (framing : RequestFraming) (lost : Prop) (received : Bytes) :
    BodyReading → Prop
  | .reading state => state.Holds framing received
  | .complete bufs => ∃ body,
      deframer.status framing.start.position received = .complete body ∧ HandsOver body bufs
  | .failed rc => FailsWith lost rc

namespace Reading

variable {disk : Bool} {state : Reading} {framing : RequestFraming} {bytes : Bytes}

/-- Bytes that were asked for bring the reading on. -/
theorem Holds.received (holds : Holds framing bytes state) (conf : BodyConf) {data : Bytes}
    (asked : data.length ≤ state.room) {lost : Prop} (written : disk = false → lost) :
    (∃ next, state.received conf disk data = .ok next ∧ next.Keeps framing lost (bytes ++ data)) ∨
      ∃ rc, state.received conf disk data = .error rc ∧ FailsWith lost rc := by
  obtain ⟨passed, rfl, read⟩ := holds.found
  have within : data.length ≤ state.progress.rest - state.window.length :=
    Nat.le_trans asked (Nat.min_le_right _ _)
  have wanted := holds.wanted
  have tidy := holds.tidy.write data
  have window := holds.tidy.window_write data
  have counted : (state.write data).window.length = state.window.length + data.length := by
    rw [window, List.length_append]
  have opened : deframer.status framing.start.position passed =
      .opened (state.write data).progress.position (state.write data).stored := by
    rw [holds.tidy.stored_write data]
    exact read
  have all : passed ++ state.window ++ data = passed ++ (state.write data).window := by
    rw [window, List.append_assoc]
  unfold Reading.received
  by_cases enough : data.length = state.progress.rest - state.window.length
  · rw [if_pos enough]
    have more : 0 < (state.write data).progress.rest := Nat.lt_of_le_of_lt (Nat.zero_le _) wanted
    cases done : (state.write data).passBuffer conf disk with
    | error rc => exact .inr ⟨rc, rfl, .of_pass written (passBuffer_error done)⟩
    | ok after =>
        refine .inl ⟨_, rfl, ?_⟩
        obtain ⟨tidyAfter, memory, last,
            ⟨more, pos, later, _⟩ | ⟨ended, ⟨used, whole, least⟩, inFile⟩⟩ :=
          passBuffer_passed tidy opened more done
        · have empty : after.window = [] := by
            rw [← List.length_eq_zero_iff, tidyAfter.length_window]
            omega
          rw [outcome, if_neg (Nat.ne_of_gt more)]
          refine ⟨tidyAfter, ⟨_, ?_, later⟩, ?_⟩
          · rw [empty, List.append_nil, all]
          · rw [empty]
            exact more
        · -- as much was wanted as there is, so that all of it was used
          have exactly : (state.write data).window.take used = (state.write data).window := by
            apply List.take_of_length_le
            change state.progress.rest ≤ _ at least
            rw [List.length_take] at least
            omega
          rw [outcome, if_pos ended]
          refine ⟨after.stored, ?_, handsOver_chain inFile⟩
          rw [all, ← exactly]
          exact whole
  · rw [if_neg enough]
    refine .inl ⟨_, rfl, ?_⟩
    have short : (state.write data).window.length < (state.write data).progress.rest := by
      change _ < state.progress.rest
      omega
    rw [outcome, if_neg (by omega)]
    exact ⟨tidy, ⟨passed, all, opened⟩, short⟩

end Reading

/-- What the events of a reading have brought. -/
def ReadEvent.data : ReadEvent → Bytes
  | .recv _ data => data
  | _ => []

/-- A write to the file fails, if there is one, or an allocation or the event does. -/
def ReadEvent.fails : ReadEvent → Bool
  | .again disk => !disk
  | .closed disk => !disk
  | .recv disk _ => !disk
  | .timedout => false
  | .internal => true

/-- The reading does not begin: the interim response is not sent, or an allocation fails. -/
def Prelude.fails (start : Prelude) : Bool := !(start.testExpect && start.memory)

def receivedOf (events : List ReadEvent) : Bytes := events.flatMap ReadEvent.data

variable {conf : BodyConf} {framing : RequestFraming} {lost : Prop} {bytes : Bytes}

/-- One event keeps the promise. -/
theorem keeps_step {reading next : BodyReading} {event : ReadEvent}
    (keeps : reading.Keeps framing lost bytes) (written : event.fails = true → lost)
    (stepped : (readBody conf).step reading event = some next) :
    next.Keeps framing lost (bytes ++ event.data) := by
  cases reading with
  | failed rc => cases stepped
  | complete bufs => cases stepped
  | reading state =>
      cases event with
      | again disk =>
          rcases (show state.Holds framing bytes from keeps).flush conf disk with
            ⟨flushed, done, holds⟩ | ⟨rc, failed, code⟩
          · simp only [readBody, done] at stepped
            cases stepped
            change flushed.Holds framing (bytes ++ [])
            rw [List.append_nil]
            exact holds
          · simp only [readBody, failed] at stepped
            cases stepped
            exact .of_pass (fun off => written (by simp [ReadEvent.fails, off])) code
      | closed disk =>
          rcases (show state.Holds framing bytes from keeps).flush conf disk with
            ⟨flushed, done, holds⟩ | ⟨rc, failed, code⟩
          · simp only [readBody, done] at stepped
            cases stepped
            exact .inl rfl
          · simp only [readBody, failed] at stepped
            cases stepped
            exact .of_pass (fun off => written (by simp [ReadEvent.fails, off])) code
      | recv disk data =>
          have lostWrite : disk = false → lost :=
            fun off => written (by simp [ReadEvent.fails, off])
          rcases (show state.Holds framing bytes from keeps).flush conf disk with
            ⟨flushed, done, holds⟩ | ⟨rc, failed, code⟩
          · simp only [readBody, done] at stepped
            split at stepped
            · cases stepped
            · rename_i admitted
              have asked : data.length ≤ flushed.room :=
                Nat.le_of_not_lt fun more => admitted (.inr more)
              rcases holds.received conf asked lostWrite with ⟨after, ok, kept⟩ | ⟨rc, failed, code⟩
              · rw [ok] at stepped
                cases stepped
                exact kept
              · rw [failed] at stepped
                cases stepped
                exact code
          · simp only [readBody, failed] at stepped
            cases stepped
            exact .of_pass lostWrite code
      | timedout =>
          cases stepped
          exact .inr (.inl rfl)
      | internal =>
          cases stepped
          exact .inr (.inr (.inr ⟨rfl, written rfl⟩))

/-- Every run keeps the promise. -/
theorem keeps_run {reading final : BodyReading} {events : List ReadEvent}
    (keeps : reading.Keeps framing lost bytes)
    (written : ∀ event ∈ events, event.fails = true → lost)
    (ran : (readBody conf).run reading events = some final) :
    final.Keeps framing lost (bytes ++ receivedOf events) := by
  induction events generalizing reading bytes with
  | nil =>
      cases ran
      rw [receivedOf, List.flatMap_nil, List.append_nil]
      exact keeps
  | cons event events ih =>
      obtain ⟨next, stepped, rest⟩ := (System.run_cons_eq_some _).mp ran
      have kept := keeps_step keeps (written event List.mem_cons_self) stepped
      have later := ih kept (fun other member => written other (List.mem_cons_of_mem _ member)) rest
      rw [List.append_assoc] at later
      exact later

/-- Nothing is left to be read exactly at the end of the message. -/
theorem final_of_rest {progress : BodyProgress} (ended : progress.rest = 0) :
    deframer.final progress.position = true := by
  cases progress with
  | length rest =>
      obtain rfl : rest = 0 := ended
      rfl
  | chunked ctx contentLength => exact absurd ended (Nat.ne_of_gt (length_pos ctx))
  | done => rfl

/-- While something is left, the message has not ended. -/
theorem not_final_of_rest {progress : BodyProgress} (more : 0 < progress.rest) :
    deframer.final progress.position = false := by
  cases progress with
  | length rest =>
      have positive : rest ≠ 0 := Nat.ne_of_gt more
      simp [BodyProgress.position, deframer, positive]
  | chunked ctx contentLength => rfl
  | done => cases more

/-- The pieces of what came with the header. -/
theorem preread_bytes (pieces : List BodyPiece) (preread memory : Bytes) :
    (pieces.map (BodyPiece.preread preread)).flatMap (Span.bytes memory) =
      bytesOf preread pieces := by
  rw [List.flatMap_map, bytesOf]
  refine List.flatMap_congr fun piece _ => ?_
  cases piece <;> rfl

/-- What was read behind the header, when there is more of the body. -/
theorem holds_afterHeader {filtered : Filtered} {preread : Bytes} (memory : Bytes)
    (more : 0 < filtered.progress.rest)
    (opened : deframer.status framing.start.position preread =
      .opened filtered.progress.position (bytesOf preread filtered.pieces)) :
    Reading.Holds framing preread { Reading.afterHeader filtered preread with memory } := by
  refine ⟨⟨Nat.le_refl 0, Nat.zero_le _, ?_, ?_⟩, ⟨preread, ?_, ?_⟩, more⟩
  · intro pos last member
    obtain ⟨piece, _, same⟩ := List.mem_map.mp member
    cases piece <;> cases same
  · intro none
    simp only [Reading.afterHeader] at none ⊢
    rw [none]
    rfl
  · simp [Reading.window, Reading.afterHeader]
  · rw [opened]
    simp only [Reading.stored, Reading.afterHeader, Option.getD_none, List.nil_append,
      preread_bytes]

/-- What was read behind the header, when it holds the whole body. -/
theorem handsOver_afterHeader (filtered : Filtered) (preread : Bytes) :
    HandsOver (bytesOf preread filtered.pieces) (Reading.afterHeader filtered preread).chain := by
  have handed : HandsOver (Reading.afterHeader filtered preread).stored
      (Reading.afterHeader filtered preread).chain :=
    Reading.handsOver_chain fun file => nomatch file
  rwa [Reading.stored, Reading.afterHeader, Option.getD_none, List.nil_append, preread_bytes]
    at handed

theorem keeps_begin (conf : BodyConf) {framing : RequestFraming} {preread : Bytes} (behind : Bytes)
    (heap : Heap) (lost : Prop) {filtered : Filtered}
    (whole : filtered.progress.rest = 0 → ∃ taken left, preread = taken ++ left ∧
      deframer.status framing.start.position taken = .complete (bytesOf preread filtered.pieces))
    (part : 0 < filtered.progress.rest → deframer.status framing.start.position preread =
      .opened filtered.progress.position (bytesOf preread filtered.pieces)) :
    ∃ taken left, preread = taken ++ left ∧
      (beginReading conf framing preread behind heap filtered).Keeps framing lost taken ∧
      ∀ state, beginReading conf framing preread behind heap filtered = .reading state →
        left = [] := by
  unfold beginReading
  by_cases ended : filtered.progress.rest = 0
  · obtain ⟨taken, left, split, complete⟩ := whole ended
    simp only [if_pos ended]
    exact ⟨taken, left, split, ⟨_, complete, handsOver_afterHeader filtered preread⟩,
      fun _ same => nomatch same⟩
  · have more := Nat.pos_of_ne_zero ended
    simp only [if_neg ended]
    exact ⟨preread, [], (List.append_nil preread).symm, holds_afterHeader _ more (part more),
      fun _ _ => rfl⟩

/-- The start keeps the promise for what was read behind the header, or for the part of it
that is the whole body. -/
theorem keeps_beginBody (conf : BodyConf) (framing : RequestFraming) (preread behind : Bytes)
    (heap : Heap) (lost : Prop) :
    ∃ taken left, preread = taken ++ left ∧
      (beginBody conf framing preread behind heap).Keeps framing lost taken ∧
      ∀ state, beginBody conf framing preread behind heap = .reading state → left = [] := by
  unfold beginBody
  by_cases absent : framing = .absent
  · subst absent
    rw [if_pos rfl]
    exact ⟨[], preread, rfl, ⟨[], status_nil_of_final rfl, .none rfl⟩, fun _ same => nomatch same⟩
  · by_cases empty : preread = []
    · simp only [if_neg absent, if_pos empty]
      refine keeps_begin conf behind heap lost (fun ended => ⟨[], preread, rfl, ?_⟩) fun more => ?_
      · exact status_nil_of_final (final_of_rest ended)
      · rw [empty]
        exact status_nil_of_not_final (not_final_of_rest more)
    · simp only [if_neg absent, if_neg empty]
      cases found : requestBodyFilter conf.clientMaxBodySize framing.start preread with
      | error rc =>
          refine ⟨preread, [], (List.append_nil preread).symm, ?_, fun _ same => nomatch same⟩
          rcases requestBodyFilter_error found with invalid | large
          · exact .inl invalid
          · exact .inr (.inr (.inl large))
      | ok filtered =>
          by_cases wanted : 0 < framing.start.rest
          · rcases requestBodyFilter_finds wanted found with
              ⟨more, _, opened⟩ | ⟨ended, _, complete⟩
            · exact keeps_begin conf behind heap lost
                (fun ended => absurd ended (Nat.ne_of_gt more)) fun _ => opened
            · exact keeps_begin conf behind heap lost
                (fun _ => ⟨_, _, (List.take_append_drop filtered.used preread).symm, complete⟩)
                fun more => absurd ended (Nat.ne_of_gt more)
          · -- a body of length zero, behind which the next request may have come
            have nothing : framing.start.rest = 0 := Nat.eq_zero_of_not_pos wanted
            cases framing with
            | absent => exact absurd rfl absent
            | length contentLength =>
                obtain rfl : contentLength = 0 := nothing
                cases found
                exact keeps_begin conf behind heap lost
                  (fun _ => ⟨[], preread, rfl, status_nil_of_final rfl⟩) fun more => nomatch more
            | chunked => cases nothing

/-- The start keeps the promise, or it fails on its own. -/
theorem keeps_start (conf : BodyConf) (framing : RequestFraming) (preread behind : Bytes)
    (heap : Heap) (start : Prelude) {lost : Prop} (refused : start.fails = true → lost) :
    ∃ taken left, preread = taken ++ left ∧
      (readClientRequestBody conf framing preread behind heap start).Keeps framing lost taken ∧
      ∀ state, readClientRequestBody conf framing preread behind heap start = .reading state →
        left = [] := by
  unfold readClientRequestBody
  split
  · exact keeps_beginBody conf framing preread behind heap lost
  · rename_i fails
    refine ⟨preread, [], (List.append_nil preread).symm, ?_, fun _ same => nomatch same⟩
    have fail : start.fails = true := by
      rw [Prelude.fails, Bool.eq_false_iff.mpr fails]
      rfl
    exact .inr (.inr (.inr ⟨rfl, refused fail⟩))

/-- Something of the system's own has failed in a run of the reader. -/
def Internal (start : Prelude) (events : List ReadEvent) : Prop :=
  start.fails = true ∨ ∃ event ∈ events, event.fails = true

/-- Where a run of the reader comes to, and what it has taken. -/
theorem keeps_reader {conf : BodyConf} {framing : RequestFraming} {preread behind : Bytes}
    {heap : Heap} {start : Prelude} {events : List ReadEvent} {final : BodyReading}
    (ran : (readBody conf).run (readClientRequestBody conf framing preread behind heap start)
      events = some final) :
    ∃ message left, preread ++ receivedOf events = message ++ left ∧ (events ≠ [] → left = []) ∧
      final.Keeps framing (Internal start events) message := by
  obtain ⟨taken, left, split, keeps, consumed⟩ := keeps_start conf framing preread behind heap
    start (show start.fails = true → Internal start events from .inl)
  have kept := keeps_run keeps (fun event member off => .inr ⟨event, member, off⟩) ran
  have nothing : events ≠ [] → left = [] := by
    intro read
    obtain ⟨event, later, rfl⟩ := List.exists_cons_of_ne_nil read
    obtain ⟨next, stepped, _⟩ := (System.run_cons_eq_some _).mp ran
    cases begun : readClientRequestBody conf framing preread behind heap start with
    | reading state => exact consumed state begun
    | failed rc =>
        rw [begun] at stepped
        cases stepped
    | complete bufs =>
        rw [begun] at stepped
        cases stepped
  refine ⟨_, left, ?_, nothing, kept⟩
  by_cases unread : events = []
  · subst unread
    simp [split, receivedOf]
  · rw [split, nothing unread, List.append_nil, List.append_nil]

/-- **A body that has been read is handed over whole.** In every run of the reader, however
the body comes in and wherever its buffer is used again, a chain it completes hands over
exactly the body of the message that was received; no byte behind the message has been
taken from the connection. It fails only with the codes for a bad or too large body, a
lost connection and a timeout, or with 500 when something of the system's own has failed. -/
theorem request_body_handed_over (conf : BodyConf) (framing : RequestFraming)
    (preread behind : Bytes) (heap : Heap) (start : Prelude) {events : List ReadEvent}
    {final : BodyReading}
    (ran : (readBody conf).run (readClientRequestBody conf framing preread behind heap start)
      events = some final) :
    (∀ bufs, final = .complete bufs → ∃ message left body,
      preread ++ receivedOf events = message ++ left ∧ (events ≠ [] → left = []) ∧
      deframer.status framing.start.position message = .complete body ∧ HandsOver body bufs) ∧
    ∀ rc, final = .failed rc → rc = 400 ∨ rc = 408 ∨ rc = 413 ∨
      (rc = 500 ∧ Internal start events) := by
  obtain ⟨message, left, split, nothing, kept⟩ := keeps_reader ran
  constructor
  · rintro bufs rfl
    obtain ⟨body, complete, handed⟩ := kept
    exact ⟨message, left, body, split, nothing, complete, handed⟩
  · rintro rc rfl
    exact kept

/-- Memory that is handed out zeroed. -/
def zeroed : Heap := ⟨fun size => List.replicate size 0, fun _ => List.length_replicate⟩

/-- A body that is too long for its buffer of four bytes. -/
theorem request_body_handed_over_sample :
    ∃ message left body,
      ascii "ab" ++ receivedOf [.recv true (ascii "cd"), .again true, .recv true (ascii "ef"),
        .recv true (ascii "gh")] = message ++ left ∧
      deframer.status (.remaining 8) message = .complete body ∧
      HandsOver body [{ file := ascii "abcdefgh" }] := by
  have ran : (readBody ⟨4, 0⟩).run
      (readClientRequestBody ⟨4, 0⟩ (.length 8) (ascii "ab") [] zeroed {})
      [.recv true (ascii "cd"), .again true, .recv true (ascii "ef"), .recv true (ascii "gh")] =
      some (.complete [{ file := ascii "abcdefgh" }]) := by
    decide +kernel
  obtain ⟨message, left, body, split, _, complete, handed⟩ :=
    (request_body_handed_over ⟨4, 0⟩ (.length 8) (ascii "ab") [] zeroed {} ran).1 _ rfl
  exact ⟨message, left, body, split, complete, handed⟩

end HttpBackEnd.Nginx
