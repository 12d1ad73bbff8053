import HttpBackEnd.Nginx.Chunked
import HttpBackEnd.Nginx.RequestBody

/-! # The filters of a request body

`ngx_http_request_body_length_filter` and `ngx_http_request_body_chunked_filter` find the
parts of a buffer that belong to the body, and say how many bytes they want to see next
(`rb->rest`). What they find is what the deframer emits, and what they want is never more
than what the body still has: a reader that asks for no more never takes a byte of the
next request.
-/

namespace HttpBackEnd.Nginx

open Deframe

/-- How the end of a request body is known: from `Content-Length`, from its chunks, or
there is none. -/
inductive RequestFraming where
  | absent
  | length (contentLength : Nat)
  | chunked
deriving DecidableEq, Repr

/-- Where a filter stands in the body: `rb->rest` of the length filter, or `rb->chunked`
with the part of the body that has come so far. -/
inductive BodyProgress where
  | length (rest : Nat)
  | chunked (ctx : ChunkCtx) (contentLength : Nat)
  | done
deriving DecidableEq, Repr

/-- The start of a body. -/
def RequestFraming.start : RequestFraming → BodyProgress
  | .absent => .length 0
  | .length contentLength => .length contentLength
  | .chunked => .chunked {} 0

namespace BodyProgress

/-- `rb->rest`: the bytes the filter wants to see next time. -/
def rest : BodyProgress → Nat
  | .length rest => rest
  | .chunked ctx _ => ctx.length
  | .done => 0

/-- The same place, for the deframer. -/
def position : BodyProgress → FramePosition
  | .length rest => .remaining rest
  | .chunked ctx _ => .inChunks ctx.normalize
  | .done => .ended

end BodyProgress

/-- A part of a buffer from one offset to another; `none` is the empty buffer that ends a
chunked body. -/
abbrev BodyPiece := Option (Nat × Nat)

/-- The bytes of a part. -/
def BodyPiece.bytes (data : Bytes) : BodyPiece → Bytes
  | some (first, last) => (data.take last).drop first
  | none => []

/-- What a filter makes of a buffer: the parts of the body, how much of the buffer is
used, and where it stands. -/
structure Filtered where
  pieces : List BodyPiece
  used : Nat
  progress : BodyProgress

/-- `ngx_http_request_body_length_filter` on a buffer. -/
def lengthFilter (rest : Nat) (data : Bytes) : Filtered :=
  if rest = 0 then ⟨[], 0, .length 0⟩
  else if data.length < rest then
    ⟨[some (0, data.length)], data.length, .length (rest - data.length)⟩
  else ⟨[some (0, rest)], rest, .length 0⟩

/-- The loop of `ngx_http_request_body_chunked_filter` on what is left of a buffer of a
length. An error is the code of the response. -/
def chunkedFilter (clientMaxBodySize size : Nat) (ctx : ChunkCtx) (contentLength : Nat)
    (data : Bytes) : Except Int Filtered :=
  match _parsed : parseChunked ctx data with
  | .ok ctx rest =>
      if clientMaxBodySize ≠ 0 ∧ (clientMaxBodySize : Int) - contentLength < ctx.size then
        .error 413
      else if ctx.size < rest.length then
        (chunkedFilter clientMaxBodySize size { ctx with size := 0 } (contentLength + ctx.size)
          (rest.drop ctx.size)).map fun later =>
            { later with
              pieces := some (size - rest.length, size - rest.length + ctx.size) :: later.pieces }
      else
        (chunkedFilter clientMaxBodySize size { ctx with size := ctx.size - rest.length }
          (contentLength + rest.length) []).map fun later =>
            { later with pieces := some (size - rest.length, size) :: later.pieces }
  | .done rest => .ok ⟨[none], size - rest.length, .done⟩
  | .again ctx => .ok ⟨[], size, .chunked ctx contentLength⟩
  | .error => .error 400
termination_by data.length
decreasing_by
  all_goals
    obtain ⟨-, -, nonempty, shorter⟩ := parseChunked_ok _parsed
    have := List.length_pos_iff.mpr nonempty
    simp only [List.length_drop, List.length_nil]
    omega

/-- `ngx_http_request_body_filter` on a buffer. -/
def requestBodyFilter (clientMaxBodySize : Nat) (progress : BodyProgress) (data : Bytes) :
    Except Int Filtered :=
  match progress with
  | .length rest => .ok (lengthFilter rest data)
  | .chunked ctx contentLength =>
      chunkedFilter clientMaxBodySize data.length ctx contentLength data
  | .done => .ok ⟨[], 0, .done⟩

/-! ## What a body still has -/

theorem length_pos (ctx : ChunkCtx) : 0 < ctx.length := by
  obtain ⟨state, size⟩ := ctx
  cases state <;> simp only [ChunkCtx.length] <;> omega

theorem need_position (progress : BodyProgress) : progress.position.need = progress.rest := by
  cases progress with
  | length rest => rfl
  | chunked ctx contentLength => exact length_normalize ctx
  | done => rfl

/-- **What the filters want is never more than the body still has.** -/
theorem rest_le_length {progress : BodyProgress} {data body : Bytes}
    (read : deframer.status progress.position data = .complete body) :
    progress.rest ≤ data.length := by
  rw [← need_position]
  exact need_le_of_complete read

/-! ## What the filters find -/

/-- The part of a buffer in front of the data of a chunk, and what it leads to. -/
theorem parseChunkedFrom_ok_front {ctx found : ChunkCtx} {data rest : Bytes}
    (parsed : parseChunkedFrom ctx data = .ok found rest) :
    ∃ front, data = front ++ rest ∧ ∀ more,
      deframer.status (.inChunks ctx.normalize) (front ++ more) =
        deframer.status (.inChunks found.normalize) more := by
  induction data generalizing ctx with
  | nil => cases parsed
  | cons ch data ih =>
      rw [parseChunkedFrom] at parsed
      split at parsed
      · cases parsed
        exact ⟨[], rfl, fun more => rfl⟩
      · rename_i outside
        split at parsed
        · rename_i next moved
          obtain ⟨front, rfl, leads⟩ := ih parsed
          refine ⟨ch :: front, rfl, fun more => ?_⟩
          rw [List.cons_append, status_cons_outside outside, moved]
          exact leads more
        · cases parsed
        · cases parsed

/-- The part of a buffer up to the end of the message. -/
theorem parseChunkedFrom_done_front {ctx : ChunkCtx} {data rest : Bytes}
    (parsed : parseChunkedFrom ctx data = .done rest) :
    ∃ front, data = front ++ rest ∧
      deframer.status (.inChunks ctx.normalize) front = .complete [] := by
  induction data generalizing ctx with
  | nil => cases parsed
  | cons ch data ih =>
      rw [parseChunkedFrom] at parsed
      split at parsed
      · cases parsed
      · rename_i outside
        split at parsed
        · rename_i next moved
          obtain ⟨front, rfl, ends⟩ := ih parsed
          refine ⟨ch :: front, rfl, ?_⟩
          rw [status_cons_outside outside, moved]
          exact ends
        · rename_i moved
          cases parsed
          refine ⟨[ch], rfl, ?_⟩
          rw [status_cons_outside outside, moved]
          exact status_nil_of_final rfl
        · cases parsed

theorem parseChunked_loop {ctx : ChunkCtx} {data : Bytes} {parse : ChunkParse}
    (parsed : parseChunked ctx data = parse) (valid : parse ≠ .error) :
    parseChunkedFrom ctx.normalize data = parse := by
  rw [← parsed] at valid ⊢
  exact (checked_eq valid).symm

/-- A part of a buffer, seen from the buffer's end. -/
theorem drop_take_of_append (front rest : Bytes) (count : Nat) :
    ((front ++ rest).take ((front ++ rest).length - rest.length + count)).drop
      ((front ++ rest).length - rest.length) = rest.take count := by
  have offset : (front ++ rest).length - rest.length = front.length := by
    rw [List.length_append, Nat.add_sub_cancel]
  rw [offset, List.take_length_add_append, List.drop_left]

/-- The bytes of the parts a filter found. -/
def bytesOf (data : Bytes) (pieces : List BodyPiece) : Bytes := pieces.flatMap (BodyPiece.bytes data)

theorem bytesOf_cons (data : Bytes) (piece : BodyPiece) (pieces : List BodyPiece) :
    bytesOf data (piece :: pieces) = piece.bytes data ++ bytesOf data pieces := rfl

/-- Data behind the head of its chunk is a part of the body, and leaves the rest of the
chunk. -/
theorem status_piece {ctx now : ChunkCtx} {data rest : Bytes}
    (parsed : parseChunked ctx data = .ok now rest) :
    ∃ head, data = head ++ rest ∧ ∀ run more, run.length ≤ now.size →
      deframer.status (.inChunks ctx.normalize) (head ++ (run ++ more)) =
        (deframer.status (.inChunks { now with size := now.size - run.length : ChunkCtx }.normalize)
          more).prepend run := by
  obtain ⟨loop, inData, _⟩ := parseChunked_ok parsed
  obtain ⟨head, split, leads⟩ := parseChunkedFrom_ok_front loop
  refine ⟨head, split, fun run more fits => ?_⟩
  rw [← normalize_normalize, leads (run ++ more), status_run inData fits more]

/-- What the filter has found in a buffer from a place on: the message is complete with the
part that was used, or open after all of it. -/
def Finds (whole front data : Bytes) (ctx : ChunkCtx) (filtered : Filtered) : Prop :=
  (filtered.progress = .done ∧ ∃ used more, data = used ++ more ∧
    filtered.used = (front ++ used).length ∧
    deframer.status (.inChunks ctx.normalize) used = .complete (bytesOf whole filtered.pieces)) ∨
  (∃ later length, filtered.progress = .chunked later length ∧ filtered.used = whole.length ∧
    deframer.status (.inChunks ctx.normalize) data =
      .opened (.inChunks later.normalize) (bytesOf whole filtered.pieces))

/-- A piece in front of what is found behind it. -/
theorem Finds.cons {whole front head run data : Bytes} {next : ChunkCtx} {filtered : Filtered}
    (finds : Finds whole (front ++ (head ++ run)) data next filtered) (ctx : ChunkCtx)
    (leads : ∀ more, deframer.status (.inChunks ctx.normalize) (head ++ (run ++ more)) =
      (deframer.status (.inChunks next.normalize) more).prepend run)
    (piece : BodyPiece) (bytes : piece.bytes whole = run) :
    Finds whole front (head ++ (run ++ data)) ctx
      { filtered with pieces := piece :: filtered.pieces } := by
  rcases finds with ⟨done, used, more, rfl, count, complete⟩ | ⟨later, length, more, all, opened⟩
  · refine .inl ⟨done, head ++ (run ++ used), more, ?_, ?_, ?_⟩
    · simp only [List.append_assoc]
    · rw [count]
      simp only [List.append_assoc]
    · rw [leads, complete, bytesOf_cons, bytes]
      rfl
  · refine .inr ⟨later, length, more, all, ?_⟩
    rw [leads, opened, bytesOf_cons, bytes]
    rfl

theorem map_eq_ok {filtered : Filtered} {found : Except Int Filtered} {change : Filtered → Filtered}
    (mapped : found.map change = .ok filtered) :
    ∃ later, found = .ok later ∧ change later = filtered := by
  cases found with
  | error rc => cases mapped
  | ok later => exact ⟨later, rfl, Except.ok.inj mapped⟩

/-- The chunks of a buffer, from any place in it on. -/
theorem chunkedFilter_finds {clientMaxBodySize : Nat} {ctx : ChunkCtx} {contentLength : Nat}
    {whole front data : Bytes} {filtered : Filtered}
    (found : chunkedFilter clientMaxBodySize whole.length ctx contentLength data = .ok filtered)
    (place : whole = front ++ data) : Finds whole front data ctx filtered := by
  generalize sized : whole.length = size at found
  fun_induction chunkedFilter clientMaxBodySize size ctx contentLength data
    generalizing front filtered with
  | case1 ctx contentLength data now rest parsed tooLarge => cases found
  | case2 ctx contentLength data now rest parsed allowed inside ih =>
      obtain ⟨head, rfl, leads⟩ := status_piece parsed
      obtain ⟨later, behind, rfl⟩ := map_eq_ok found
      have count : (rest.take now.size).length = now.size :=
        List.length_take_of_le (Nat.le_of_lt inside)
      have finds := ih (show whole = front ++ (head ++ rest.take now.size) ++ rest.drop now.size by
        rw [place]
        simp only [List.append_assoc, List.take_append_drop]) behind
      have cons := finds.cons ctx (fun more => by
        rw [leads _ more (Nat.le_of_eq count), count, Nat.sub_self])
        (some (size - rest.length, size - rest.length + now.size)) (by
          rw [← sized, place, ← List.append_assoc]
          exact drop_take_of_append (front ++ head) rest now.size)
      rwa [List.take_append_drop] at cons
  | case3 ctx contentLength data now rest parsed allowed toEnd ih =>
      obtain ⟨head, rfl, leads⟩ := status_piece parsed
      obtain ⟨later, behind, rfl⟩ := map_eq_ok found
      have finds := ih (show whole = front ++ (head ++ rest) ++ [] by
        rw [place, List.append_nil]) behind
      have cons := finds.cons ctx (fun more => leads rest more (Nat.le_of_not_lt toEnd))
        (some (size - rest.length, size)) (by
          have shorter : rest.length ≤ size := by
            rw [← sized, place]
            simp only [List.length_append]
            omega
          have bytes := drop_take_of_append (front ++ head) rest rest.length
          rw [List.append_assoc, ← place, sized, Nat.sub_add_cancel shorter, List.take_length]
            at bytes
          exact bytes)
      rwa [List.append_nil] at cons
  | case4 ctx contentLength data rest parsed =>
      obtain ⟨used, rfl, ends⟩ := parseChunkedFrom_done_front (parseChunked_loop parsed (by simp))
      cases found
      refine .inl ⟨rfl, used, rest, rfl, ?_, ?_⟩
      · rw [← sized, place, ← List.append_assoc, List.length_append, Nat.add_sub_cancel]
      · rw [← normalize_normalize, ends]
        rfl
  | case5 ctx contentLength data again parsed =>
      cases found
      refine .inr ⟨again, contentLength, rfl, sized.symm, ?_⟩
      rw [status_parseChunked parsed (by simp)]
      rfl
  | case6 ctx contentLength data parsed => cases found

/-- **What a filter finds.** It uses all of a buffer and leaves the body open, or uses the
buffer up to the end of the body; the parts it finds are what the deframer emits. -/
theorem requestBodyFilter_finds {clientMaxBodySize : Nat} {progress : BodyProgress} {data : Bytes}
    {filtered : Filtered} (wanted : 0 < progress.rest)
    (found : requestBodyFilter clientMaxBodySize progress data = .ok filtered) :
    (0 < filtered.progress.rest ∧ filtered.used = data.length ∧
      deframer.status progress.position data =
        .opened filtered.progress.position (bytesOf data filtered.pieces)) ∨
    (filtered.progress.rest = 0 ∧ filtered.used ≤ data.length ∧
      deframer.status progress.position (data.take filtered.used) =
        .complete (bytesOf data filtered.pieces)) := by
  cases progress with
  | length rest =>
      obtain rfl := Except.ok.inj found
      change 0 < rest at wanted
      unfold lengthFilter
      rw [if_neg (Nat.ne_of_gt wanted)]
      by_cases short : data.length < rest
      · rw [if_pos short]
        refine .inl ⟨Nat.sub_pos_of_lt short, rfl, ?_⟩
        rw [BodyProgress.position, status_remaining, if_pos short]
        simp [BodyProgress.position, bytesOf, BodyPiece.bytes]
      · rw [if_neg short]
        have enough : rest ≤ data.length := Nat.le_of_not_lt short
        have count : (data.take rest).length = rest := List.length_take_of_le enough
        refine .inr ⟨rfl, enough, ?_⟩
        rw [BodyProgress.position, status_remaining, if_neg (Nat.not_lt_of_ge (Nat.le_of_eq count.symm)),
          if_pos count]
        simp [bytesOf, BodyPiece.bytes]
  | chunked ctx contentLength =>
      rcases chunkedFilter_finds found (List.nil_append data).symm with
        ⟨done, used, more, split, count, complete⟩ | ⟨later, length, open', all, opened⟩
      · refine .inr ⟨?_, ?_, ?_⟩
        · rw [done]
          rfl
        · rw [count, split]
          simp
        · rw [count, List.nil_append, split, List.take_left, ← split]
          exact complete
      · refine .inl ⟨?_, all, ?_⟩
        · rw [open']
          exact length_pos later
        · rw [open']
          exact opened
  | done => cases wanted

/-- A buffer that is shorter than what is wanted leaves the body open. -/
theorem rest_pos_of_short {clientMaxBodySize : Nat} {progress : BodyProgress} {data : Bytes}
    {filtered : Filtered} (found : requestBodyFilter clientMaxBodySize progress data = .ok filtered)
    (short : data.length < progress.rest) : 0 < filtered.progress.rest := by
  rcases requestBodyFilter_finds (by omega) found with ⟨more, _⟩ | ⟨_, used, complete⟩
  · exact more
  · have enough := rest_le_length complete
    rw [List.length_take] at enough
    omega

theorem chunkedFilter_pieces {clientMaxBodySize size : Nat} {ctx : ChunkCtx} {contentLength : Nat}
    {data : Bytes} {filtered : Filtered}
    (found : chunkedFilter clientMaxBodySize size ctx contentLength data = .ok filtered)
    (within : data.length ≤ size) :
    size - data.length ≤ filtered.used ∧
      ∀ first last, some (first, last) ∈ filtered.pieces → last ≤ filtered.used := by
  fun_induction chunkedFilter clientMaxBodySize size ctx contentLength data
    generalizing filtered with
  | case1 ctx contentLength data now rest parsed tooLarge => cases found
  | case2 ctx contentLength data now rest parsed allowed inside ih =>
      obtain ⟨later, behind, rfl⟩ := map_eq_ok found
      obtain ⟨_, _, _, shorter⟩ := parseChunked_ok parsed
      have left : (rest.drop now.size).length = rest.length - now.size := List.length_drop
      obtain ⟨least, others⟩ := ih behind (by omega)
      refine ⟨by simp only; omega, fun first last member => ?_⟩
      rcases List.mem_cons.mp member with same | member
      · cases same
        simp only
        omega
      · exact others first last member
  | case3 ctx contentLength data now rest parsed allowed toEnd ih =>
      obtain ⟨later, behind, rfl⟩ := map_eq_ok found
      obtain ⟨least, others⟩ := ih behind (Nat.zero_le _)
      rw [List.length_nil, Nat.sub_zero] at least
      refine ⟨by simp only; omega, fun first last member => ?_⟩
      rcases List.mem_cons.mp member with same | member
      · cases same
        exact least
      · exact others first last member
  | case4 ctx contentLength data rest parsed =>
      obtain ⟨used, rfl, _⟩ := parseChunkedFrom_done_front (parseChunked_loop parsed (by simp))
      cases found
      refine ⟨?_, by simp⟩
      simp only [List.length_append]
      omega
  | case5 ctx contentLength data again parsed =>
      cases found
      exact ⟨Nat.sub_le _ _, by simp⟩
  | case6 ctx contentLength data parsed => cases found

/-- The parts a filter finds lie in what it uses. -/
theorem requestBodyFilter_pieces {clientMaxBodySize : Nat} {progress : BodyProgress} {data : Bytes}
    {filtered : Filtered} (found : requestBodyFilter clientMaxBodySize progress data = .ok filtered)
    {first last : Nat} (member : some (first, last) ∈ filtered.pieces) : last ≤ filtered.used := by
  cases progress with
  | length rest =>
      obtain rfl := Except.ok.inj found
      by_cases zero : rest = 0
      · rw [lengthFilter, if_pos zero] at member
        cases member
      · by_cases short : data.length < rest
        · rw [lengthFilter, if_neg zero, if_pos short] at member ⊢
          cases List.mem_singleton.mp member
          exact Nat.le_refl _
        · rw [lengthFilter, if_neg zero, if_neg short] at member ⊢
          cases List.mem_singleton.mp member
          exact Nat.le_refl _
  | chunked ctx contentLength =>
      exact (chunkedFilter_pieces found (Nat.le_refl _)).2 first last member
  | done =>
      obtain rfl := Except.ok.inj found
      cases member

/-- A filter refuses a body that is no chunked one or is too large. -/
theorem requestBodyFilter_error {clientMaxBodySize : Nat} {progress : BodyProgress} {data : Bytes}
    {rc : Int} (failed : requestBodyFilter clientMaxBodySize progress data = .error rc) :
    rc = 400 ∨ rc = 413 := by
  cases progress with
  | length rest => cases failed
  | chunked ctx contentLength =>
      unfold requestBodyFilter at failed
      simp only at failed
      generalize data.length = size at failed
      have of_map : ∀ {found : Except Int Filtered} {change : Filtered → Filtered},
          found.map change = .error rc → found = .error rc := by
        intro found change mapped
        cases found with
        | error other => exact mapped
        | ok later => cases mapped
      fun_induction chunkedFilter clientMaxBodySize size ctx contentLength data with
      | case1 ctx contentLength data now rest parsed tooLarge =>
          exact .inr (Except.error.inj failed).symm
      | case2 ctx contentLength data now rest parsed allowed inside ih => exact ih (of_map failed)
      | case3 ctx contentLength data now rest parsed allowed toEnd ih => exact ih (of_map failed)
      | case4 ctx contentLength data rest parsed => cases failed
      | case5 ctx contentLength data again parsed => cases failed
      | case6 ctx contentLength data parsed => exact .inl (Except.error.inj failed).symm
  | done => cases failed

end HttpBackEnd.Nginx
