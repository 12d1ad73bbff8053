import HttpBackEnd.Login.Body
import HttpBackEnd.Nginx.BodyRead

/-! # When the login handler sees the body, by how it arrives

A body with a `Content-Length` ends up in one of four chains, and which one does not depend
on how the reads cut it: it depends on how much of the body came with the header and on
whether the rest fits the memory there is for it. So does what the login handler sees.
-/

namespace HttpBackEnd.Login

open Nginx Json Deframe Transition

/-- The rest of the body fits the memory behind what was read with the header, or a buffer
that is allocated for it. -/
def RestFits (conf : BodyConf) (preread behind : Bytes) (rest : Nat) : Prop :=
  (preread ≠ [] ∧ rest ≤ behind.length) ∨
    rest < conf.clientBodyBufferSize + conf.clientBodyBufferSize / 4 ∨
    rest ≤ conf.clientBodyBufferSize

theorem length_bodyBuffer (conf : BodyConf) (contentLength : Nat) (preread behind : Bytes)
    (heap : Heap) (rest : Nat) :
    rest ≤ (bodyBuffer conf (.length contentLength) preread behind heap rest).length ↔
      RestFits conf preread behind rest := by
  have length : RequestFraming.length contentLength ≠ .chunked := by simp
  unfold bodyBuffer RestFits
  by_cases near : preread ≠ [] ∧ rest ≤ behind.length
  · simp [near]
  · by_cases own : rest < conf.clientBodyBufferSize + conf.clientBodyBufferSize / 4
    · simp [near, own, heap.length_bytes]
    · simp [near, own, heap.length_bytes]

/-- A part of the body that is read into memory in one piece, behind what is in the chain
already. -/
structure InOnePiece (head : List Span) (rest : Nat) (state : Reading) : Prop where
  progress : state.progress = .length rest
  pos : state.pos = 0
  bufs : state.bufs = head
  file : state.file = none
  short : state.last < rest
  fits : rest ≤ state.memory.length

/-- A part of the body that does not fit the buffer, and that is in the file once the
buffer has been full. -/
structure InFile (rest : Nat) (state : Reading) : Prop where
  tooLong : state.memory.length < rest
  filling : state.file = none → state.progress = .length rest ∧ state.pos = 0

/-- What a reading or its chain looks like on the way. -/
def OnePiece (head : List Span) (rest : Nat) : BodyReading → Prop
  | .reading state => InOnePiece head rest state
  | .complete bufs => ∃ piece memory : Bytes,
      bufs = (head.map fun span => { memory := span.bytes memory }) ++ [{ memory := piece }]
  | .failed _ => True

def Spilled (rest : Nat) : BodyReading → Prop
  | .reading state => InFile rest state
  | .complete bufs => ∀ buf ∈ bufs, buf.memory = []
  | .failed _ => True

variable {conf : BodyConf} {disk : Bool} {state next : Reading} {head : List Span} {rest : Nat}

theorem length_window_zero (start : state.pos = 0) :
    state.window.length = min state.last state.memory.length := by
  rw [Reading.window, start, List.drop_zero, List.length_take]

theorem length_write {data : Bytes} (present : data ≠ []) (asked : data.length ≤ state.room) :
    (state.write data).memory.length = state.memory.length := by
  have fits := Nat.le_trans asked (Nat.min_le_left _ _)
  have positive := List.length_pos_iff.mpr present
  simp only [Reading.write, List.length_append, List.length_take, List.length_drop]
  omega

/-- The length filter on a buffer with exactly the rest of the body. -/
theorem lengthFilter_whole {data : Bytes} (positive : 0 < rest) (whole : data.length = rest) :
    lengthFilter rest data = ⟨[some (0, rest)], rest, .length 0⟩ := by
  rw [lengthFilter, if_neg (Nat.ne_of_gt positive), if_neg (by omega)]

/-- Bytes for a body in one piece: with the last of them the piece joins the chain. -/
theorem InOnePiece.received (one : InOnePiece head rest state) {data : Bytes} (present : data ≠ [])
    (asked : data.length ≤ state.room) {reading : BodyReading}
    (read : state.received conf disk data = .ok reading) : OnePiece head rest reading := by
  have same := length_write present asked
  have counted := length_window_zero one.pos
  have fits := one.fits
  have short := one.short
  have progress : (state.write data).progress = .length rest := one.progress
  have pos : (state.write data).pos = 0 := one.pos
  have last : (state.write data).last = state.last + data.length := rfl
  have wanted : state.progress.rest = rest := congrArg BodyProgress.rest one.progress
  have within := Nat.le_trans asked (Nat.min_le_right _ _)
  unfold Reading.received at read
  split at read
  · rename_i enough
    cases done : (state.write data).passBuffer conf disk with
    | error rc =>
        rw [done] at read
        cases read
    | ok after =>
        rw [done] at read
        obtain rfl := Except.ok.inj read
        obtain ⟨filtered, found, saved⟩ := Reading.passBuffer_saved done
        have whole : (state.write data).window.length = rest := by
          rw [length_window_zero pos, same, last]
          omega
        rw [progress] at found
        obtain rfl := (Except.ok.inj found).symm.trans
          (lengthFilter_whole (Nat.zero_lt_of_lt short) whole)
        have keeps : ¬Reading.Writes { state.write data with
            progress := .length 0, pos := (state.write data).pos + rest }
            (decide ((state.write data).last = (state.write data).memory.length)) := by
          rintro (⟨_, more⟩ | ⟨_, file⟩)
          · cases more
          · exact absurd file (by simp [Reading.write, one.file])
        obtain ⟨bufs, file⟩ := saved.kept keeps
        have ended : after.progress.rest = 0 := congrArg BodyProgress.rest saved.progress
        rw [Reading.outcome, if_pos ended]
        have noFile : after.file = none := file.trans one.file
        have chain : after.bufs = head ++ [.window 0 (0 + rest)] := by
          rw [bufs]
          simp [Reading.write, one.bufs, one.pos, BodyPiece.span]
        refine ⟨(Span.window 0 (0 + rest)).bytes after.memory, after.memory, ?_⟩
        rw [Reading.chain, noFile, chain]
        simp only [List.map_append, List.map_cons, List.map_nil]
  · rename_i partly
    obtain rfl := Except.ok.inj read
    have more : (state.write data).progress.rest ≠ 0 := by
      rw [progress]
      exact Nat.ne_of_gt (Nat.zero_lt_of_lt short)
    rw [Reading.outcome, if_neg more]
    refine ⟨progress, pos, one.bufs, one.file, ?_, ?_⟩
    · rw [last]
      omega
    · rw [same]
      exact fits

/-- A buffer that has room for all of the rest is never full before it has come. -/
theorem InOnePiece.flush (one : InOnePiece head rest state) :
    state.flush conf disk = .ok state := by
  have fits := one.fits
  have short := one.short
  exact if_neg (by omega)

/-- What one event can do to a reading that goes on. -/
theorem readBody_cases {event : ReadEvent} {after : BodyReading}
    (stepped : (readBody conf).step (.reading state) event = some after) :
    (∃ rc, after = .failed rc) ∨ ∃ disk flushed, state.flush conf disk = .ok flushed ∧
      (after = .reading flushed ∨ ∃ data, data ≠ [] ∧ data.length ≤ flushed.room ∧
        flushed.received conf disk data = .ok after) := by
  cases event with
  | again disk =>
      cases flushed : state.flush conf disk with
      | error rc =>
          simp only [readBody, flushed] at stepped
          exact .inl ⟨rc, (Option.some.inj stepped).symm⟩
      | ok middle =>
          simp only [readBody, flushed] at stepped
          exact .inr ⟨disk, middle, flushed, .inl (Option.some.inj stepped).symm⟩
  | closed disk =>
      cases flushed : state.flush conf disk with
      | error rc =>
          simp only [readBody, flushed] at stepped
          exact .inl ⟨rc, (Option.some.inj stepped).symm⟩
      | ok middle =>
          simp only [readBody, flushed] at stepped
          exact .inl ⟨400, (Option.some.inj stepped).symm⟩
  | recv disk data =>
      cases flushed : state.flush conf disk with
      | error rc =>
          simp only [readBody, flushed] at stepped
          exact .inl ⟨rc, (Option.some.inj stepped).symm⟩
      | ok middle =>
          simp only [readBody, flushed] at stepped
          split at stepped
          · cases stepped
          · rename_i admitted
            cases read : middle.received conf disk data with
            | error rc =>
                rw [read] at stepped
                exact .inl ⟨rc, (Option.some.inj stepped).symm⟩
            | ok next =>
                rw [read] at stepped
                obtain rfl := Option.some.inj stepped
                exact .inr ⟨disk, middle, flushed, .inr ⟨data, fun empty => admitted (.inl empty),
                  Nat.le_of_not_lt fun more => admitted (.inr more), read⟩⟩
  | timedout => exact .inl ⟨408, (Option.some.inj stepped).symm⟩
  | internal => exact .inl ⟨500, (Option.some.inj stepped).symm⟩

theorem onePiece_step {reading after : BodyReading} {event : ReadEvent}
    (one : OnePiece head rest reading)
    (stepped : (readBody conf).step reading event = some after) : OnePiece head rest after := by
  cases reading with
  | failed rc => cases stepped
  | complete bufs => cases stepped
  | reading state =>
      have piece : InOnePiece head rest state := one
      obtain ⟨rc, rfl⟩ | ⟨disk, flushed, flush, rest⟩ := readBody_cases stepped
      · trivial
      · obtain rfl := Except.ok.inj (piece.flush.symm.trans flush)
        obtain rfl | ⟨data, present, asked, read⟩ := rest
        · exact piece
        · exact piece.received present asked read

/-! ## A body in a file -/

/-- A file that is there stays, and the memory keeps its size. -/
theorem passBuffer_file (done : state.passBuffer conf disk = .ok next) :
    next.memory = state.memory ∧ (state.file.isSome → next.file.isSome) := by
  obtain ⟨filtered, _, saved⟩ := Reading.passBuffer_saved done
  exact ⟨saved.memory, saved.file⟩

/-- A full buffer goes to the file. -/
theorem InFile.flush (spills : InFile rest state) (flushed : state.flush conf disk = .ok next) :
    InFile rest next := by
  have reused : ∀ {middle : Reading}, middle.reuse = .ok next → middle.memory = state.memory →
      middle.file.isSome → InFile rest next := by
    intro middle reused memory file
    unfold Reading.reuse at reused
    split at reused
    · cases reused
    · obtain rfl := Except.ok.inj reused
      refine ⟨?_, fun noFile => ?_⟩
      · simp only [memory]
        exact spills.tooLong
      · simp only at noFile
        rw [noFile] at file
        cases file
  have tooLong := spills.tooLong
  unfold Reading.flush at flushed
  split at flushed
  · rename_i full
    split at flushed
    · cases done : state.passBuffer conf disk with
      | error rc =>
          rw [done] at flushed
          cases flushed
      | ok middle =>
          rw [done] at flushed
          obtain ⟨filtered, found, saved⟩ := Reading.passBuffer_saved done
          refine reused flushed saved.memory ?_
          cases file : state.file with
          | some bytes => exact saved.file (by simp [file])
          | none =>
              obtain ⟨progress, pos⟩ := spills.filling file
              have counted := length_window_zero pos
              rw [progress] at found
              have short : state.window.length < (BodyProgress.length rest).rest := by
                change _ < rest
                omega
              have more := rest_pos_of_short found short
              exact (saved.written (.inl ⟨decide_eq_true full, more⟩)).2
    · cases done : state.save disk true [] with
      | error rc =>
          rw [done] at flushed
          cases flushed
      | ok middle =>
          rw [done] at flushed
          have saved := Reading.save_saved done
          refine reused flushed saved.memory ?_
          cases file : state.file with
          | some bytes => exact saved.file (by simp [file])
          | none =>
              obtain ⟨progress, _⟩ := spills.filling file
              refine (saved.written (.inl ⟨rfl, ?_⟩)).2
              rw [progress]
              exact Nat.zero_lt_of_lt tooLong
  · obtain rfl := Except.ok.inj flushed
    exact spills

/-- Bytes for a body in a file: the last of them can only come once there is a file. -/
theorem InFile.received (spills : InFile rest state) {data : Bytes} (present : data ≠ [])
    (asked : data.length ≤ state.room) {reading : BodyReading}
    (read : state.received conf disk data = .ok reading) : Spilled rest reading := by
  have same := length_write present asked
  have tooLong := spills.tooLong
  have positive := List.length_pos_iff.mpr present
  have fits := Nat.le_trans asked (Nat.min_le_left _ _)
  have ended : ∀ {after : Reading}, after.memory.length = state.memory.length →
      (after.file = none → after.progress = .length rest ∧ after.pos = 0) →
      Spilled rest after.outcome := by
    intro after memory filling
    unfold Reading.outcome
    split
    · rename_i ended
      cases file : after.file with
      | none =>
          rw [(filling file).1] at ended
          change rest = 0 at ended
          omega
      | some bytes =>
          intro buf member
          rw [Reading.chain, file] at member
          simp only at member
          split at member
          · cases member
          · rw [List.mem_singleton.mp member]
    · exact ⟨by omega, filling⟩
  unfold Reading.received at read
  split at read
  · rename_i enough
    cases done : (state.write data).passBuffer conf disk with
    | error rc =>
        rw [done] at read
        cases read
    | ok after =>
        rw [done] at read
        obtain rfl := Except.ok.inj read
        obtain ⟨memory, kept⟩ := passBuffer_file done
        refine ended (by rw [memory, same]) fun noFile => ?_
        cases file : state.file with
        | some bytes =>
            have stays := kept (by simp [Reading.write, file])
            rw [noFile] at stays
            cases stays
        | none =>
            obtain ⟨progress, pos⟩ := spills.filling file
            have counted := length_window_zero pos
            have wanted : state.progress.rest = rest := congrArg BodyProgress.rest progress
            omega
  · obtain rfl := Except.ok.inj read
    exact ended same spills.filling

theorem spilled_step {reading after : BodyReading} {event : ReadEvent}
    (spills : Spilled rest reading)
    (stepped : (readBody conf).step reading event = some after) : Spilled rest after := by
  cases reading with
  | failed rc => cases stepped
  | complete bufs => cases stepped
  | reading state =>
      obtain ⟨rc, rfl⟩ | ⟨disk, flushed, flush, rest⟩ := readBody_cases stepped
      · trivial
      · have inFile := InFile.flush spills flush
        obtain rfl | ⟨data, present, asked, read⟩ := rest
        · exact inFile
        · exact inFile.received present asked read

/-! ## How the body arrived -/

/-- A message of known length is its own body. -/
theorem complete_remaining {length : Nat} {message body : Bytes}
    (complete : deframer.status (.remaining length) message = .complete body) :
    body = message ∧ message.length = length := by
  rw [status_remaining] at complete
  split at complete
  · cases complete
  · split at complete
    · rename_i whole
      cases complete
      exact ⟨rfl, whole⟩
    · cases complete

/-- What was read with the header, in front of a rest that fits memory. -/
def headOf (preread : Bytes) : List Span := if preread = [] then [] else [.preread preread]

/-- How a reading begins when there is more of the body than came with the header. -/
theorem begins (conf : BodyConf) {contentLength : Nat} {preread : Bytes} (behind : Bytes)
    (heap : Heap) (more : preread.length < contentLength) :
    beginBody conf (.length contentLength) preread behind heap = .reading
      { progress := .length (contentLength - preread.length)
        memory := bodyBuffer conf (.length contentLength) preread behind heap
          (contentLength - preread.length)
        bufs := headOf preread, busy := headOf preread } := by
  have ended : contentLength - preread.length ≠ 0 := by omega
  have framed : RequestFraming.length contentLength ≠ .absent := by simp
  unfold beginBody headOf
  rw [if_neg framed]
  by_cases empty : preread = []
  · subst empty
    have wanted : contentLength ≠ 0 := by simpa using ended
    simp only [↓reduceIte, beginReading, RequestFraming.start, BodyProgress.rest, wanted,
      List.length_nil, Nat.sub_zero]
    rfl
  · have positive := List.length_pos_iff.mpr empty
    have wanted : contentLength ≠ 0 := by omega
    have size : ¬preread.length = 0 := by omega
    simp only [if_neg empty, requestBodyFilter, RequestFraming.start, lengthFilter, if_neg wanted,
      if_pos more, beginReading, BodyProgress.rest]
    refine (if_neg ended).trans ?_
    simp [Reading.afterHeader, BodyPiece.preread, BodyPiece.bytes, Span.size, size]

/-- How it begins when all of the body came with the header. -/
theorem begins_whole (conf : BodyConf) {contentLength : Nat} {preread : Bytes} (behind : Bytes)
    (heap : Heap) (enough : contentLength ≤ preread.length) :
    beginBody conf (.length contentLength) preread behind heap = .complete
      (if contentLength = 0 then [] else [{ memory := preread.take contentLength }]) := by
  have framed : RequestFraming.length contentLength ≠ .absent := by simp
  unfold beginBody
  rw [if_neg framed]
  by_cases empty : preread = []
  · subst empty
    obtain rfl := Nat.eq_zero_of_le_zero enough
    rfl
  · have short : ¬preread.length < contentLength := Nat.not_lt_of_le enough
    by_cases zero : contentLength = 0
    · subst zero
      simp only [if_neg empty, requestBodyFilter, RequestFraming.start, lengthFilter, ↓reduceIte]
      rfl
    · simp only [if_neg empty, requestBodyFilter, RequestFraming.start, lengthFilter, if_neg zero,
        if_neg short]
      refine (if_pos rfl).trans ?_
      simp [Reading.chain, Reading.afterHeader, BodyPiece.preread, BodyPiece.bytes, Span.bytes]

/-- A reading that goes on ends in one piece or in a file. -/
theorem ends_shaped {contentLength : Nat} {preread behind : Bytes} {heap : Heap}
    {events : List ReadEvent} {bufs : List Buf} (more : preread.length < contentLength)
    (ran : (readBody conf).run
      (beginBody conf (.length contentLength) preread behind heap) events =
        some (.complete bufs)) :
    (RestFits conf preread behind (contentLength - preread.length) ∧ ∃ piece memory : Bytes,
      bufs = ((headOf preread).map fun span => { memory := span.bytes memory }) ++
        [{ memory := piece }]) ∨
    (¬RestFits conf preread behind (contentLength - preread.length) ∧
      ∀ buf ∈ bufs, buf.memory = []) := by
  rw [begins conf behind heap more] at ran
  have fits := length_bodyBuffer conf contentLength preread behind heap
    (contentLength - preread.length)
  by_cases room : RestFits conf preread behind (contentLength - preread.length)
  · have keeps : (readBody conf).Keeps (fun _ => True)
        (OnePiece (headOf preread) (contentLength - preread.length)) :=
      fun _ _ _ _ one stepped => onePiece_step one stepped
    have start : OnePiece (headOf preread) (contentLength - preread.length) (.reading
        { progress := .length (contentLength - preread.length)
          memory := bodyBuffer conf (.length contentLength) preread behind heap
            (contentLength - preread.length)
          bufs := headOf preread, busy := headOf preread }) := by
      exact ⟨rfl, rfl, rfl, rfl, Nat.sub_pos_of_lt more, fits.mpr room⟩
    exact .inl ⟨room, keeps.run (fun _ _ => trivial) start ran⟩
  · have keeps : (readBody conf).Keeps (fun _ => True)
        (Spilled (contentLength - preread.length)) :=
      fun _ _ _ _ spills stepped => spilled_step spills stepped
    have start : Spilled (contentLength - preread.length) (.reading
        { progress := .length (contentLength - preread.length)
          memory := bodyBuffer conf (.length contentLength) preread behind heap
            (contentLength - preread.length)
          bufs := headOf preread, busy := headOf preread }) := by
      exact ⟨Nat.lt_of_not_le fun enough => room (fits.mp enough), fun _ => ⟨rfl, rfl⟩⟩
    exact .inr ⟨room, keeps.run (fun _ _ => trivial) start ran⟩

/-- A body that was read has begun to be. -/
theorem begun_of_complete {conf : BodyConf} {framing : RequestFraming} {preread behind : Bytes}
    {heap : Heap} {start : Prelude} {events : List ReadEvent} {bufs : List Buf}
    (ran : (readBody conf).run (readClientRequestBody conf framing preread behind heap start)
      events = some (.complete bufs)) :
    readClientRequestBody conf framing preread behind heap start =
      beginBody conf framing preread behind heap := by
  unfold readClientRequestBody at ran ⊢
  split
  · rfl
  · rename_i refused
    rw [if_neg refused] at ran
    cases events with
    | nil => cases ran
    | cons event events =>
        obtain ⟨next, stepped, _⟩ := (System.run_cons_eq_some _).mp ran
        cases stepped

/-- The memory of the first buffer of a chain holds a beginning of the body. -/
theorem first_isPrefix {body : Bytes} {buf : Buf} {later : List Buf}
    (handed : HandsOver body (buf :: later)) : buf.memory <+: body := by
  cases handed with
  | memory _ _ inMemory whole =>
      refine ⟨bodyOf later, ?_⟩
      rw [← whole]
      simp [bodyOf, inMemory buf List.mem_cons_self]
  | file present => exact List.nil_prefix

/-- A single buffer that hands a body over in memory holds it. -/
theorem handsOver_piece {body piece : Bytes} (own : body ≠ [])
    (handed : HandsOver body [{ memory := piece }]) : piece = body := by
  generalize chain : [({ memory := piece } : Buf)] = bufs at handed
  cases handed with
  | none nothing => exact absurd nothing own
  | memory _ present inMemory whole =>
      rw [← whole, ← chain]
      simp [bodyOf]
  | file present =>
      have buf : ({ memory := piece } : Buf) = { file := body } := List.head_eq_of_cons_eq chain
      exact absurd (congrArg Buf.file buf).symm present

/-- A body with a Content-Length that was read is handed over, and it has this length. -/
theorem handed_of_complete {conf : BodyConf} {contentLength : Nat} {preread behind : Bytes}
    {heap : Heap} {start : Prelude} {events : List ReadEvent} {bufs : List Buf}
    (ran : (readBody conf).run
      (readClientRequestBody conf (.length contentLength) preread behind heap start) events =
        some (.complete bufs)) :
    HandsOver ((preread ++ receivedOf events).take contentLength) bufs ∧
      ((preread ++ receivedOf events).take contentLength).length = contentLength := by
  obtain ⟨message, left, split, _, body, complete, handed⟩ := keeps_reader ran
  obtain ⟨rfl, count⟩ := complete_remaining complete
  rw [split, ← count, List.take_left]
  exact ⟨handed, rfl⟩

/-- **When the login handler sees the body, by how it arrives.** However the reads cut a
body, the handler sees it exactly when all of it came with the header, or none of it did
and it fits the buffer of the location. In every case what it sees is a beginning of the
body. -/
theorem login_sees_arrived_body_iff (conf : BodyConf) (contentLength : Nat)
    (preread behind : Bytes) (heap : Heap) (start : Prelude) {events : List ReadEvent}
    {bufs : List Buf}
    (ran : (readBody conf).run
      (readClientRequestBody conf (.length contentLength) preread behind heap start) events =
        some (.complete bufs)) :
    (SeesBody ((preread ++ receivedOf events).take contentLength) bufs ↔
      0 < contentLength ∧ (contentLength ≤ preread.length ∨ (preread = [] ∧
        (contentLength < conf.clientBodyBufferSize + conf.clientBodyBufferSize / 4 ∨
          contentLength ≤ conf.clientBodyBufferSize)))) ∧
    ∀ buf later, bufs = buf :: later →
      buf.memory <+: (preread ++ receivedOf events).take contentLength := by
  obtain ⟨handed, count⟩ := handed_of_complete ran
  refine ⟨?_, fun buf later same => first_isPrefix (same ▸ handed)⟩
  rw [seesBody_iff]
  have begun := begun_of_complete ran
  by_cases enough : contentLength ≤ preread.length
  · rw [begun, begins_whole conf behind heap enough] at ran
    cases events with
    | cons event events =>
        obtain ⟨next, stepped, _⟩ := (System.run_cons_eq_some _).mp ran
        cases stepped
    | nil =>
        obtain rfl := BodyReading.complete.inj (Option.some.inj ran)
        by_cases zero : contentLength = 0
        · simp [zero]
        · have positive := Nat.pos_of_ne_zero zero
          simp [zero, enough, positive, receivedOf]
  · have more := Nat.lt_of_not_le enough
    generalize (preread ++ receivedOf events).take contentLength = body at handed count
    have own : body ≠ [] := by
      rintro rfl
      rw [List.length_nil] at count
      omega
    rcases ends_shaped more (begun ▸ ran) with ⟨room, piece, memory, rfl⟩ | ⟨room, hidden⟩
    · by_cases empty : preread = []
      · subst empty
        -- one buffer, and it holds what is handed over
        have alone : piece = body := handsOver_piece own (by simpa [headOf] using handed)
        have fits := room.resolve_left fun near => near.1 rfl
        rw [List.length_nil, Nat.sub_zero] at fits
        simp [headOf, alone, fits]
        omega
      · -- the first buffer is the part that came with the header
        have first : preread ≠ body := by
          rintro rfl
          omega
        simp [headOf, empty, Span.bytes, first, enough]
    · constructor
      · rintro ⟨buf, rest, rfl, seen⟩
        have empty := hidden buf List.mem_cons_self
        exact absurd (seen.symm.trans empty) own
      · rintro ⟨_, early | ⟨rfl, fits⟩⟩
        · exact absurd early enough
        · exact absurd (.inr (by simpa using fits)) room

/-- A body whose first bytes come with the header. The handler takes these for all of it. -/
theorem login_sees_arrived_body_sample :
    ¬SeesBody (ascii "abcd") [{ memory := ascii "ab" }, { memory := ascii "cd" }] := by
  have ran : (readBody ⟨4, 0⟩).run
      (readClientRequestBody ⟨4, 0⟩ (.length 4) (ascii "ab") [] zeroed {})
      [.recv true (ascii "c"), .again true, .recv true (ascii "d")] =
      some (.complete [{ memory := ascii "ab" }, { memory := ascii "cd" }]) := by
    decide +kernel
  have seen := login_sees_arrived_body_iff ⟨4, 0⟩ 4 (ascii "ab") [] zeroed {} ran
  exact fun sees => absurd (seen.1.mp sees) (by decide +kernel)

end HttpBackEnd.Login
