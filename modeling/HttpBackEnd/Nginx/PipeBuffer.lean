import HttpBackEnd.Nginx.PipeRun

/-! # What `u->buffer` is left with

Without chunks the buffer keeps what it has been filled with first, until its piece is
written or spilled; from then on it lacks what it has had. With chunks it is parsed away.
-/

namespace HttpBackEnd.Nginx

open Deframe

/-- The raw buffers of some pieces become free with the event. -/
def PipeEvent.reuses : PipeEvent → Bool
  | .spill _ => true
  | .send _ => true
  | _ => false

namespace Pipe

variable {conf : PipeConf} {raw : Raw} {pipe next : Pipe}

/-! ## The operations without chunks -/

theorem copyFilter_main : (pipe.copyFilter raw).main = pipe.main := by
  unfold copyFilter
  split
  · rfl
  · dsimp only
    split <;> rfl

theorem copyFilter_pieces (pipe : Pipe) (raw : Raw) :
    (pipe.copyFilter raw).pieces =
      pipe.pieces ++ if raw.data = [] then [] else [⟨raw.data, some raw.id⟩] := by
  by_cases empty : raw.data = []
  · simp [copyFilter, empty]
  · unfold copyFilter
    rw [if_neg (by simpa using empty), if_neg empty]
    dsimp only
    split <;> rfl

theorem processRequest_eq (pipe : Pipe) :
    pipe.processRequest = { pipe with control := pipe.processRequest.control } := by
  unfold processRequest
  split
  · rfl
  · split <;> rfl

/-- The first two tests behind the loop end the response or do nothing. -/
theorem passWanted_copied (copied : conf.framing ≠ .chunked) (loaded : pipe.Loaded conf) :
    ∃ first, pipe.passWanted conf = some first ∧ first.main = pipe.main ∧
      first.received = pipe.received ∧
      (first.finishWanted = pipe ∨ first.finishWanted.upstreamDone = true) := by
  have finish (other : Pipe) (through : other.upstreamDone = true ∨ other.length = 0) :
      other.finishWanted.upstreamDone = true := by
    unfold finishWanted
    split
    · rfl
    · next some_length => exact through.resolve_right some_length
  unfold passWanted
  split
  · refine ⟨pipe, rfl, rfl, rfl, ?_⟩
    by_cases zero : pipe.length = 0
    · exact .inr (finish _ (.inr zero))
    · exact .inl (finishWanted_of_ne zero)
  · next raw free buffers =>
      split
      · next enough =>
          rw [inputFilter_of_copied copied]
          refine ⟨_, rfl, copyFilter_main, copyFilter_keeps.received, .inr (finish _ ?_)⟩
          by_cases empty : raw.data = []
          · rw [empty, List.length_nil] at enough
            simp only [copyFilter, empty, List.length_nil, ↓reduceIte]
            cases loaded.follows with
            | opened read running measures =>
                have wants := measures.wants
                omega
            | complete read through => exact through.imp_right And.left
          · refine .inl ?_
            rw [(copyFilter_of_data _ empty).2.2.2]
            simp [enough.1, enough.2]
      · refine ⟨pipe, rfl, rfl, rfl, ?_⟩
        by_cases zero : pipe.length = 0
        · exact .inr (finish _ (.inr zero))
        · exact .inl (finishWanted_of_ne zero)

/-- At the end of the upstream the third test leaves `u->buffer` alone. -/
theorem passRest_copied (copied : conf.framing ≠ .chunked) (pipe : Pipe) :
    ∃ last, pipe.passRest conf = some last ∧ last.main = pipe.main ∧
      last.received = pipe.received ∧ (last.ended = true ∨ last = pipe) := by
  unfold passRest
  split
  · next atEnd =>
      have ended : pipe.ended = true := by rw [Pipe.ended, atEnd, Bool.true_or]
      split
      · exact ⟨pipe, rfl, rfl, rfl, .inl ended⟩
      · next raw free buffers =>
          rw [inputFilter_of_copied copied]
          refine ⟨_, rfl, copyFilter_main, copyFilter_keeps.received, .inl ?_⟩
          rw [Pipe.ended, copyFilter_keeps.upstreamEof, copyFilter_keeps.upstreamError]
          change (pipe.upstreamEof || pipe.upstreamError || _) = true
          rw [atEnd, Bool.true_or]
  · exact ⟨pipe, rfl, rfl, rfl, .inr rfl⟩

theorem finishWanted_main (pipe : Pipe) : pipe.finishWanted.main = pipe.main := by
  unfold finishWanted
  split <;> rfl

theorem ended_of_done (done : pipe.upstreamDone = true) : pipe.ended = true := by
  rw [ended, done, Bool.or_true]

/-- The tests behind the loop end the response or do nothing. -/
theorem afterLoop_copied (copied : conf.framing ≠ .chunked) (loaded : pipe.Loaded conf) :
    ∃ last, pipe.afterLoop conf = some last ∧ last.main = pipe.main ∧
      last.received = pipe.received ∧ (last.ended = true ∨ last = pipe) := by
  obtain ⟨first, wanted, main, received, finished⟩ := passWanted_copied copied loaded
  obtain ⟨last, rest, lastMain, lastReceived, same⟩ := passRest_copied copied first.finishWanted
  refine ⟨last, ?_, ?_, ?_, ?_⟩
  · rw [afterLoop, wanted]
    exact rest
  · rw [lastMain, finishWanted_main, main]
  · rw [lastReceived, (finishWanted_keeps first).1, received]
  · rcases same with ended | rfl
    · exact .inl ended
    · exact finished.symm.imp_left ended_of_done

/-- Leaving the loop ends the response or changes nothing but the control. -/
theorem leaveLoop_copied (copied : conf.framing ≠ .chunked) (loaded : pipe.Loaded conf) :
    (pipe.leaveLoop conf).main = pipe.main ∧
      (pipe.leaveLoop conf).received = pipe.received ∧
      ((pipe.leaveLoop conf).ended = true ∨
        pipe.leaveLoop conf = { pipe with control := (pipe.leaveLoop conf).control }) := by
  obtain ⟨last, left, main, received, finished⟩ := afterLoop_copied copied loaded
  have only : pipe.leaveLoop conf = { last with control := (pipe.leaveLoop conf).control } := by
    rw [leaveLoop, left]
    dsimp only
    split
    · rfl
    · exact processRequest_eq last
  refine ⟨?_, ?_, ?_⟩
  · rw [only]
    exact main
  · rw [only]
    exact received
  · rcases finished with ended | rfl
    · refine .inl ?_
      rw [only]
      exact ended
    · exact .inr only

theorem appendMain_length (id : Nat) (bytes : Bytes) (pipe : Pipe) :
    (pipe.appendMain id bytes).main.length ≤ pipe.main.length + bytes.length := by
  unfold appendMain
  dsimp only
  split
  · exact Nat.le_of_eq List.length_append
  · exact Nat.le_add_right _ _

theorem appendMain_other {id : Nat} (other : id ≠ 0) (bytes : Bytes) (pipe : Pipe) :
    (pipe.appendMain id bytes).main = pipe.main :=
  if_neg other

/-- Bytes read into a chain lengthen `u->buffer` by no more than they are, and not at all if
it is not among them. -/
theorem fill_copied (copied : conf.framing ≠ .chunked) {chain : List Raw} {bytes : Bytes}
    (read : fill conf chain bytes pipe = some next) :
    next.main.length ≤ pipe.main.length + bytes.length ∧ pipe.Keeps next ∧
      (∃ more, next.pieces = pipe.pieces ++ more) ∧
      ((∀ raw ∈ chain, raw.id ≠ 0) → (∀ raw ∈ pipe.free, raw.id ≠ 0) →
        next.main = pipe.main ∧ ∀ raw ∈ next.free, raw.id ≠ 0) := by
  induction chain generalizing bytes pipe with
  | nil =>
      cases read
      exact ⟨Nat.le_add_right _ _, .refl _, ⟨[], (List.append_nil _).symm⟩,
        fun _ others => ⟨rfl, others⟩⟩
  | cons raw chain ih =>
      obtain ⟨rfl, rfl⟩ | ⟨-, -, rfl⟩ | ⟨-, full, mid, passedOn, later⟩ := fill_cons_cases read
      · refine ⟨Nat.le_add_right _ _, by constructor <;> rfl, ⟨[], (List.append_nil _).symm⟩,
          fun chosen others => ⟨rfl, fun other member => ?_⟩⟩
        rcases List.mem_append.mp member with member | member
        · exact chosen other member
        · exact others other member
      · refine ⟨appendMain_length raw.id bytes pipe, by constructor <;> rfl,
          ⟨[], (List.append_nil _).symm⟩, fun chosen others =>
            ⟨appendMain_other (chosen raw List.mem_cons_self) _ _, fun other member => ?_⟩⟩
        rcases List.mem_append.mp member with member | member
        · rcases List.mem_cons.mp member with rfl | member
          · exact chosen raw List.mem_cons_self
          · exact chosen other (List.mem_cons_of_mem _ member)
        · exact others other member
      · rw [inputFilter_of_copied copied] at passedOn
        cases passedOn
        obtain ⟨longer, keeps, ⟨more, pieces⟩, apart⟩ := ih later
        refine ⟨?_, Keeps.trans (by constructor <;> rfl) (copyFilter_keeps.trans keeps), ?_,
          fun chosen others => ?_⟩
        · have longest := appendMain_length raw.id (bytes.take raw.room) pipe
          rw [copyFilter_main, List.length_drop] at longer
          rw [List.length_take] at longest
          omega
        · rw [copyFilter_pieces, List.append_assoc] at pieces
          exact ⟨_, pieces⟩
        · have apart := apart
            (fun other member => chosen other (List.mem_cons_of_mem _ member))
            (by rw [copyFilter_free]; exact others)
          rw [copyFilter_main, appendMain_other (chosen raw List.mem_cons_self)] at apart
          exact apart

theorem foldl_addFreeBuf_main (conf : PipeConf) (ids : List Nat) (pipe : Pipe) :
    (ids.foldl (addFreeBuf conf) pipe).main = if 0 ∈ ids then [] else pipe.main := by
  induction ids generalizing pipe with
  | nil => rfl
  | cons id ids ih =>
      rw [List.foldl_cons, ih]
      by_cases first : id = 0
      · simp [addFreeBuf, setMain, first]
      · simp [addFreeBuf, setMain, first, Ne.symm first]

/-! ## The buffer as it was, and the buffer used again -/

/-- Nothing has been written to `u->buffer` but the first bytes of the body. -/
inductive Held (conf : PipeConf) (pipe : Pipe) : Prop
  | ended (atEnd : pipe.ended = true)
  | first (here : pipe = start conf)
  | filling (free : pipe.free = [⟨0, pipe.received, conf.room - pipe.received.length⟩])
      (pieces : pipe.pieces = []) (spilled : pipe.spilled = [])
      (fits : pipe.received.length ≤ conf.room)
  | passed (some_room : 0 < conf.room) (full : conf.room ≤ pipe.received.length)
      (spilled : pipe.spilled = []) (piece : ∃ bytes more, pipe.pieces = ⟨bytes, some 0⟩ :: more)
      (others : ∀ raw ∈ pipe.free, raw.id ≠ 0)

/-- The buffer as it was. -/
structure Fresh (conf : PipeConf) (pipe : Pipe) : Prop where
  main : pipe.main = pipe.received.take conf.room
  held : pipe.Held conf

/-- The buffer used again, with more to come than fitted into it. -/
structure Used (conf : PipeConf) (pipe : Pipe) : Prop where
  some_room : 0 < conf.room
  shorter : pipe.main.length + conf.room ≤ pipe.received.length
  announced : ∀ n, conf.framing = .contentLength n → conf.room < n

/-- What `u->buffer` holds, by whether a raw buffer has become free. -/
def Recorded (conf : PipeConf) (used : Bool) (pipe : Pipe) : Prop :=
  if used then pipe.Used conf else pipe.Fresh conf

/-- While the response is open, less of it has been read than was announced. -/
theorem Loaded.received_lt {n : Nat} (loaded : pipe.Loaded conf)
    (sound : (deframer.status conf.framing.start pipe.received).Sound)
    (running : pipe.upstreamDone = false) (quiet : pipe.Quiet) (some_data : pipe.received ≠ [])
    (framing : conf.framing = .contentLength n) : pipe.received.length < n := by
  cases loaded.follows with
  | complete read through =>
      obtain ⟨-, none⟩ := through.resolve_left (by simp [running])
      have rest := eq_nil_of_complete read (loaded.received.symm ▸ sound)
      rw [← loaded.received, none, rest] at some_data
      exact absurd rfl some_data
  | opened read _ measures =>
      rw [framing] at measures
      simp only [Measures] at measures
      rw [framing, Framing.start, status_remaining] at read
      have little : (pipe.waiting.length : Int) < pipe.length := by
        cases buffers : pipe.free with
        | nil =>
            rw [waiting, buffers]
            exact measures
        | cons raw free =>
            rw [loaded.waiting_eq buffers]
            refine quiet.resolve_left (by omega) raw ?_
            rw [buffers]
            exact List.mem_cons_self
      split at read
      · next short =>
          simp only [position, Status.opened.injEq, FramePosition.remaining.injEq] at read
          rw [← loaded.received, List.length_append]
          omega
      · split at read <;> cases read

/-- Behind the first read, holding is about some of the fields only. -/
theorem Held.of_eq (held : pipe.Held conf) (later : pipe.preread = false)
    (ended : next.ended = pipe.ended) (received : next.received = pipe.received)
    (free : next.free = pipe.free) (pieces : next.pieces = pipe.pieces)
    (spilled : next.spilled = pipe.spilled) : next.Held conf := by
  cases held with
  | ended atEnd => exact .ended (ended.trans atEnd)
  | first here =>
      rw [here] at later
      cases later
  | filling buffers none unspilled fits =>
      refine .filling ?_ (pieces.trans none) (spilled.trans unspilled) (received ▸ fits)
      rw [free, received, buffers]
  | passed some_room full unspilled piece others =>
      exact .passed some_room (received ▸ full) (spilled.trans unspilled) (pieces ▸ piece)
        (free ▸ others)

theorem Fresh.leaveLoop (fresh : pipe.Fresh conf) (copied : conf.framing ≠ .chunked)
    (loaded : pipe.Loaded conf) (later : pipe.preread = false) :
    (pipe.leaveLoop conf).Fresh conf := by
  obtain ⟨main, received, finished⟩ := leaveLoop_copied copied loaded
  refine ⟨?_, ?_⟩
  · rw [main, received]
    exact fresh.main
  · rcases finished with atEnd | same
    · exact .ended atEnd
    · rw [same]
      exact fresh.held.of_eq later rfl rfl rfl rfl rfl

theorem Used.leaveLoop (used : pipe.Used conf) (copied : conf.framing ≠ .chunked)
    (loaded : pipe.Loaded conf) : (pipe.leaveLoop conf).Used conf := by
  obtain ⟨main, received, -⟩ := leaveLoop_copied copied loaded
  refine ⟨used.some_room, ?_, used.announced⟩
  rw [main, received]
  exact used.shorter

theorem Recorded.leaveLoop {used : Bool} (recorded : pipe.Recorded conf used)
    (copied : conf.framing ≠ .chunked) (loaded : pipe.Loaded conf)
    (later : pipe.preread = false) : (pipe.leaveLoop conf).Recorded conf used := by
  cases used with
  | true => exact Used.leaveLoop recorded copied loaded
  | false => exact Fresh.leaveLoop recorded copied loaded later

/-- A chain to read into is the free buffers or a new one. -/
theorem readChain_cases {chain : List Raw} {allocated : Nat}
    (found : pipe.readChain conf = some (chain, allocated)) :
    chain = pipe.free ∨ (pipe.free = [] ∧ ∀ raw ∈ chain, raw.id ≠ 0) := by
  unfold readChain at found
  split at found
  · cases found
    exact .inl rfl
  · next none =>
      split at found
      · cases found
        refine .inr ⟨List.eq_nil_of_length_eq_zero (not_not.mp none), fun raw member => ?_⟩
        rw [List.mem_singleton.mp member]
        exact Nat.succ_ne_zero _
      · cases found

theorem Held.readChain {chain : List Raw} {allocated : Nat} (held : pipe.Held conf)
    (later : pipe.preread = false) (found : pipe.readChain conf = some (chain, allocated)) :
    { pipe with free := chain, allocated := allocated : Pipe }.Held conf := by
  rcases readChain_cases found with rfl | ⟨none, others⟩
  · exact held.of_eq later rfl rfl rfl rfl rfl
  · cases held with
    | ended atEnd => exact .ended atEnd
    | first here =>
        rw [here] at later
        cases later
    | filling buffers _ _ _ =>
        rw [none] at buffers
        cases buffers
    | passed some_room full unspilled piece _ => exact .passed some_room full unspilled piece others

/-- `u->buffer` has become full and is passed on. -/
theorem fresh_of_full {data : Bytes} {room : Nat} (some_data : data ≠ [])
    (full : data.length = conf.room) (main : pipe.main = data) (received : pipe.received = data)
    (free : pipe.free = []) (pieces : pipe.pieces = []) (spilled : pipe.spilled = []) :
    (pipe.copyFilter ⟨0, data, room⟩).Fresh conf := by
  have some_room : 0 < conf.room := full ▸ List.length_pos_iff.mpr some_data
  refine ⟨?_, .passed some_room ?_ (copyFilter_keeps.spilled.trans spilled) ⟨data, [], ?_⟩ ?_⟩
  · rw [copyFilter_main, copyFilter_keeps.received, main, received]
    exact (List.take_of_length_le (Nat.le_of_eq full)).symm
  · rw [copyFilter_keeps.received, received, full]
  · rw [copyFilter_pieces, if_neg some_data, pieces, List.nil_append]
  · rw [copyFilter_free, free]
    exact fun _ member => absurd member List.not_mem_nil

/-- The first reads fill `u->buffer`, up to its end. -/
theorem fill_filling (copied : conf.framing ≠ .chunked) {data bytes : Bytes}
    (read : fill conf [⟨0, data, conf.room - data.length⟩] bytes pipe = some next)
    (fits : data.length + bytes.length ≤ conf.room) (main : pipe.main = data)
    (received : pipe.received = data ++ bytes) (free : pipe.free = []) (pieces : pipe.pieces = [])
    (spilled : pipe.spilled = []) : next.Fresh conf := by
  have short : (data ++ bytes).length ≤ conf.room := by
    rw [List.length_append]
    exact fits
  have now : (pipe.appendMain 0 bytes).main = data ++ bytes := by simp [appendMain, main]
  obtain ⟨rfl, rfl⟩ | ⟨-, -, rfl⟩ | ⟨some_bytes, full, mid, passedOn, later⟩ :=
    fill_cons_cases read
  · rw [List.append_nil] at received short
    refine ⟨?_, .filling ?_ pieces spilled (received ▸ short)⟩
    · rw [main, received]
      exact (List.take_of_length_le short).symm
    · simp [free, received]
  · refine ⟨?_, .filling ?_ pieces spilled (received ▸ short)⟩
    · change (pipe.appendMain 0 bytes).main = pipe.received.take conf.room
      rw [now, received]
      exact (List.take_of_length_le short).symm
    · change _ :: [] ++ pipe.free = [⟨0, pipe.received, conf.room - pipe.received.length⟩]
      rw [free, received, List.length_append, Nat.sub_sub]
      rfl
  · dsimp only at full passedOn
    rw [List.take_of_length_le (by omega), inputFilter_of_copied copied] at passedOn
    cases passedOn
    cases later
    refine fresh_of_full (List.append_ne_nil_of_right_ne_nil _ some_bytes) ?_ now received free
      pieces spilled
    rw [List.length_append]
    omega

theorem take_eq {chain : List Raw} {bytes : Bytes}
    (succeeded : (pipe.take conf chain bytes).control ≠ .failed) :
    fill conf chain bytes { pipe with free := [], received := pipe.received ++ bytes } =
      some (pipe.take conf chain bytes) := by
  unfold take at succeeded ⊢
  split
  · next failed =>
      rw [failed] at succeeded
      exact absurd rfl succeeded
  · next read => exact read

theorem Fresh.take {chain : List Raw} {bytes : Bytes}
    (succeeded : (pipe.take conf chain bytes).control ≠ .failed)
    (fresh : { pipe with free := chain : Pipe }.Fresh conf) (copied : conf.framing ≠ .chunked)
    (later : pipe.preread = false) (running : pipe.ended = false)
    (fits : bytes.length ≤ (chain.map Raw.room).sum) : (pipe.take conf chain bytes).Fresh conf := by
  have read := take_eq succeeded
  have main : pipe.main = pipe.received.take conf.room := fresh.main
  cases fresh.held with
  | ended atEnd => exact absurd (atEnd.symm.trans running) (by simp)
  | first here =>
      have first := congrArg Pipe.preread here
      exact absurd (first.symm.trans later) (by simp [start])
  | filling buffers pieces spilled short =>
      have buffers : chain = [⟨0, pipe.received, conf.room - pipe.received.length⟩] := buffers
      have short : pipe.received.length ≤ conf.room := short
      have fits : bytes.length ≤ conf.room - pipe.received.length := by simpa [buffers] using fits
      rw [List.take_of_length_le short] at main
      have filled := read
      rw [buffers] at filled
      rw [buffers]
      exact fill_filling copied filled (by omega) main rfl rfl pieces spilled
  | passed some_room full spilled piece others =>
      have full : conf.room ≤ pipe.received.length := full
      obtain ⟨bytes', more, piece⟩ := piece
      obtain ⟨-, keeps, ⟨added, pieces⟩, apart⟩ := fill_copied copied read
      obtain ⟨same, othersLater⟩ := apart others fun _ member => absurd member List.not_mem_nil
      refine ⟨?_, .passed some_room ?_ (keeps.spilled.trans spilled) ⟨bytes', more ++ added, ?_⟩
        othersLater⟩
      · rw [same, keeps.received]
        change pipe.main = (pipe.received ++ bytes).take conf.room
        rw [List.take_append_of_le_length full]
        exact main
      · rw [keeps.received]
        change conf.room ≤ (pipe.received ++ bytes).length
        rw [List.length_append]
        omega
      · rw [pieces]
        exact congrArg (· ++ added) piece

theorem Used.take {chain : List Raw} {bytes : Bytes}
    (succeeded : (pipe.take conf chain bytes).control ≠ .failed) (used : pipe.Used conf)
    (copied : conf.framing ≠ .chunked) : (pipe.take conf chain bytes).Used conf := by
  obtain ⟨longer, keeps, -⟩ := fill_copied copied (take_eq succeeded)
  refine ⟨used.some_room, ?_, used.announced⟩
  have longer : (pipe.take conf chain bytes).main.length ≤ pipe.main.length + bytes.length := longer
  have shorter := used.shorter
  rw [keeps.received]
  change _ ≤ (pipe.received ++ bytes).length
  rw [List.length_append]
  omega

/-- The piece of `u->buffer` is the first one to go: then more of the response is to come. -/
theorem Fresh.used_of_piece (fresh : pipe.Fresh conf) (loaded : pipe.Loaded conf)
    (sound : (deframer.status conf.framing.start pipe.received).Sound)
    (running : pipe.ended = false) (quiet : pipe.Quiet) {count : Nat}
    (enough : count ≤ pipe.pieces.length) (some_piece : pipe.spilled.length ≠ 0 ∨ 1 ≤ count)
    (received : next.received = pipe.received)
    (main : 0 ∈ freed (pipe.pieces.take count) → next.main = []) : next.Used conf := by
  cases fresh.held with
  | ended atEnd => exact absurd (atEnd.symm.trans running) (by simp)
  | first here =>
      rw [here] at enough some_piece
      have one := some_piece.resolve_left (by simp [start])
      exact absurd (Nat.le_trans one enough) (by simp [start])
  | filling _ pieces spilled _ =>
      rw [spilled] at some_piece
      rw [pieces] at enough
      have one := some_piece.resolve_left (by simp)
      exact absurd (Nat.le_trans one enough) (by simp)
  | passed some_room full spilled piece _ =>
      rw [spilled] at some_piece
      have one := some_piece.resolve_left (by simp)
      obtain ⟨bytes, more, piece⟩ := piece
      have first : 0 ∈ freed (pipe.pieces.take count) := by
        obtain ⟨count, rfl⟩ := Nat.exists_eq_succ_of_ne_zero (Nat.one_le_iff_ne_zero.mp one)
        rw [piece, List.take_succ_cons]
        exact List.mem_filterMap.mpr ⟨_, List.mem_cons_self, rfl⟩
      refine ⟨some_room, ?_, fun n framing => ?_⟩
      · rw [main first, received, List.length_nil, Nat.zero_add]
        exact full
      · have some_data : pipe.received ≠ [] := by
          intro empty
          rw [empty, List.length_nil] at full
          omega
        have notDone := (ended_eq_false.mp running).2.2
        have short := loaded.received_lt sound notDone quiet some_data framing
        omega

theorem send_main (pipe : Pipe) (count : Nat) :
    (pipe.send conf count).main =
        (if 0 ∈ freed (pipe.pieces.take count) then [] else pipe.main) ∨
      (pipe.send conf count).control = .failed := by
  unfold send
  split
  · exact .inr rfl
  · refine .inl ?_
    rw [foldl_addFreeBuf_main]
    simp only [List.mem_reverse]

/-- Once used again, `u->buffer` is not longer for becoming free another time. -/
theorem Used.of_main (used : pipe.Used conf) {ids : List Nat}
    (received : next.received = pipe.received)
    (main : next.main = if 0 ∈ ids then [] else pipe.main) : next.Used conf := by
  refine ⟨used.some_room, ?_, used.announced⟩
  have shorter := used.shorter
  rw [main, received]
  split
  · rw [List.length_nil]
    omega
  · exact shorter

/-! ## Steps and runs -/

section

variable {used : Bool}

/-- Nothing but fields that do not matter has changed. -/
theorem Recorded.of_eq (recorded : pipe.Recorded conf used) (main : next.main = pipe.main)
    (received : next.received = pipe.received) (held : pipe.Held conf → next.Held conf) :
    next.Recorded conf used := by
  cases used with
  | true =>
      have used : pipe.Used conf := recorded
      exact ⟨used.some_room, by rw [main, received]; exact used.shorter, used.announced⟩
  | false =>
      have fresh : pipe.Fresh conf := recorded
      exact ⟨by rw [main, received]; exact fresh.main, held fresh.held⟩

theorem preread_recorded {bytes : Bytes} (recorded : (start conf).Recorded conf used)
    (copied : conf.framing ≠ .chunked) (fits : bytes.length ≤ conf.room)
    (taken : { start conf with
      preread := false, read := (start conf).read || bytes.length ≠ 0 : Pipe }.take conf
        [⟨0, [], conf.room⟩] bytes = next)
    (succeeded : next.control ≠ .failed) : next.Recorded conf used := by
  subst taken
  cases used with
  | true =>
      have shorter := Used.shorter recorded
      have some_room := Used.some_room recorded
      simp only [start, List.length_nil] at shorter
      omega
  | false => exact fill_filling copied (take_eq succeeded) (by simpa using fits) rfl rfl rfl rfl rfl

theorem recv_recorded {bytes : Bytes} {chain : List Raw} {allocated : Nat}
    (recorded : pipe.Recorded conf used) (copied : conf.framing ≠ .chunked)
    (later : pipe.preread = false) (running : pipe.ended = false)
    (found : pipe.readChain conf = some (chain, allocated))
    (fits : bytes.length ≤ (chain.map Raw.room).sum)
    (taken : { pipe with allocated := allocated, read := true : Pipe }.take conf chain bytes = next)
    (succeeded : next.control ≠ .failed) : next.Recorded conf used := by
  subst taken
  cases used with
  | true =>
      have used : pipe.Used conf := recorded
      exact Used.take succeeded ⟨used.some_room, used.shorter, used.announced⟩ copied
  | false =>
      have fresh : pipe.Fresh conf := recorded
      have held := fresh.held.readChain later found
      exact Fresh.take succeeded ⟨fresh.main, held.of_eq later rfl rfl rfl rfl rfl⟩ copied later
        running fits

/-- However the loop is left, the buffer stays where it is. -/
theorem Leaves.held {event : PipeEvent} {before : Pipe} (leaves : Leaves conf pipe event before)
    (held : pipe.Held conf) : before.Held conf := by
  cases leaves with
  | again later found => exact held.readChain later found
  | eof later found => exact .ended (by simp [ended])
  | error later found => exact .ended (by simp [ended])
  | stop given => exact held
  | block later => exact held.of_eq later rfl rfl rfl rfl rfl

theorem Leaves.reuses {event : PipeEvent} {before : Pipe}
    (leaves : Leaves conf pipe event before) : event.reuses = false := by
  cases leaves <;> rfl

theorem spill_recorded {count : Nat} (recorded : pipe.Recorded conf used) (sane : pipe.Sane conf)
    (sound : (deframer.status conf.framing.start pipe.received).Sound)
    (running : pipe.ended = false) (blocked : pipe.readChain conf = none) (one : 1 ≤ count)
    (enough : count ≤ pipe.pieces.length) : (pipe.spill conf count).Used conf := by
  cases used with
  | true => exact Used.of_main recorded rfl rfl
  | false =>
      have none := readChain_eq_none blocked
      have quiet : pipe.Quiet := quiet_of_allEmpty (by
        rw [none]
        exact fun _ member => absurd member List.not_mem_nil)
      exact Fresh.used_of_piece recorded sane.loaded sound running quiet enough (.inr one) rfl
        fun first => if_pos first

theorem send_recorded {count : Nat} (recorded : pipe.Recorded conf used) (sane : pipe.Sane conf)
    (writing : pipe.control = .writing)
    (sound : (deframer.status conf.framing.start pipe.received).Sound)
    (running : pipe.ended = false) (enough : count ≤ pipe.pieces.length)
    (some_piece : pipe.spilled.length ≠ 0 ∨ 1 ≤ count)
    (succeeded : (pipe.send conf count).control ≠ .failed) : (pipe.send conf count).Used conf := by
  have received := (send_sane sane count writing running succeeded).2
  have main := (send_main pipe count).resolve_right succeeded
  have quiet := ((ready_writing writing).mp sane.ready).2 running
  cases used with
  | true => exact Used.of_main recorded received main
  | false =>
      exact Fresh.used_of_piece recorded sane.loaded sound running quiet enough some_piece received
        fun first => main.trans (if_pos first)

/-- What the last pass of writing changes. -/
theorem flush_eq (succeeded : (pipe.flush conf).control ≠ .failed) :
    ∃ collected control, pipe.flush conf =
      { pipe with collected := collected, spilled := [], pieces := [], control := control } := by
  unfold flush at succeeded ⊢
  split
  · next failed =>
      rw [failed] at succeeded
      exact absurd rfl succeeded
  · next collected _ => exact ⟨collected, _, processRequest_eq _⟩

/-- **Every step keeps what `u->buffer` holds**, as long as its piece is not taken. -/
theorem step_recorded {event : PipeEvent} (recorded : pipe.Recorded conf used)
    (copied : conf.framing ≠ .chunked) (sane : pipe.Sane conf)
    (sound : (deframer.status conf.framing.start pipe.received).Sound)
    (stepped : (eventPipe conf).step pipe event = some next) (succeeded : next.control ≠ .failed) :
    next.Recorded conf (used || event.reuses) := by
  have silent (here : next.Recorded conf used) : next.Recorded conf (used || false) := by
    rw [Bool.or_false]
    exact here
  have reused (here : next.Used conf) : next.Recorded conf (used || true) := by
    rw [Bool.or_true]
    exact here
  cases step_cases stepped with
  | wake idle doWrite =>
      have later := sane.later (by simp [idle])
      exact silent (recorded.of_eq rfl rfl fun held => held.of_eq later rfl rfl rfl rfl rfl)
  | timeout idle => exact absurd rfl succeeded
  | preread first fits =>
      obtain rfl := sane.preread first
      exact silent (preread_recorded recorded copied fits rfl succeeded)
  | recv reading later running found fits =>
      exact silent (recv_recorded recorded copied later running found fits rfl succeeded)
  | leave reading leaves =>
      have left := leaves.left sane reading
      have before := recorded.of_eq left.main left.received leaves.held
      rw [leaves.reuses, Bool.or_false]
      exact before.leaveLoop copied left.loaded left.later
  | spill reading later running blocked one enough =>
      exact reused (spill_recorded recorded sane sound running blocked one enough)
  | send writing running enough some_piece =>
      exact reused (send_recorded recorded sane writing sound running enough some_piece succeeded)
  | endWrite writing running =>
      have later := sane.later (by simp [writing])
      exact silent (recorded.of_eq rfl rfl fun held => held.of_eq later rfl rfl rfl rfl rfl)
  | flush writing atEnd =>
      obtain ⟨collected, control, flushed⟩ := flush_eq succeeded
      refine silent ?_
      rw [flushed]
      exact recorded.of_eq rfl rfl fun _ => .ended atEnd

theorem run_recorded {events : List PipeEvent} {final : Pipe} (recorded : pipe.Recorded conf used)
    (copied : conf.framing ≠ .chunked) (sane : pipe.Sane conf)
    (sound : (deframer.status conf.framing.start (pipe.received ++ arrived events)).Sound)
    (ran : (eventPipe conf).run pipe events = some final) (succeeded : final.control ≠ .failed) :
    final.Recorded conf (used || events.any PipeEvent.reuses) := by
  induction events generalizing pipe used with
  | nil =>
      cases ran
      exact (Bool.or_false used).symm ▸ recorded
  | cons event events ih =>
      obtain ⟨next, stepped, rest⟩ := ((eventPipe conf).run_cons_eq_some).mp ran
      have notFailed := not_failed_of_run rest succeeded
      rw [arrived, List.flatMap_cons, ← List.append_assoc] at sound
      have soundHere := sound_of_append sound
      obtain ⟨there, received⟩ := step_sane sane soundHere stepped notFailed
      have here := step_recorded recorded copied sane (sound_of_append soundHere) stepped notFailed
      rw [← received] at sound
      rw [List.any_cons, ← Bool.or_assoc]
      exact ih here there sound rest

end

theorem start_fresh (conf : PipeConf) : (start conf).Fresh conf :=
  ⟨List.take_nil.symm, .first rfl⟩

end Pipe

/-! ## The end -/

/-- When `u->buffer` is left with the body. -/
def KeepsBody (conf : PipeConf) (events : List PipeEvent) (body : Bytes) : Prop :=
  match conf.framing with
  | .contentLength n => n ≤ conf.room
  | .connectionClose => body.length ≤ conf.room ∧ events.any PipeEvent.reuses = false
  | .chunked => body = []

/-- With chunks, everything has been parsed away. -/
theorem Pipe.Loaded.main_eq_nil {conf : PipeConf} {pipe : Pipe} (loaded : pipe.Loaded conf)
    (chunks : conf.framing = .chunked) (none : pipe.waiting = []) : pipe.main = [] := by
  rcases loaded.main chunks with empty | ⟨raw, rest, buffers, -, some_data⟩
  · exact empty
  · rw [loaded.waiting_eq buffers] at none
    exact absurd none some_data

/-- Without chunks, the buffer is left with what it has been filled with first, or with
less than the body. -/
theorem Pipe.Recorded.main_eq_iff {conf : PipeConf} {pipe : Pipe} {used : Bool}
    (recorded : pipe.Recorded conf used) :
    pipe.main = pipe.received ↔ pipe.received.length ≤ conf.room ∧ used = false := by
  cases used with
  | true =>
      have used : pipe.Used conf := recorded
      have some_room := used.some_room
      have shorter := used.shorter
      refine ⟨fun same => ?_, fun impossible => nomatch impossible.2⟩
      rw [same] at shorter
      omega
  | false =>
      have fresh : pipe.Fresh conf := recorded
      rw [fresh.main]
      constructor
      · intro same
        have := congrArg List.length same
        rw [List.length_take] at this
        exact ⟨by omega, rfl⟩
      · exact fun fits => List.take_of_length_le fits.1

/-- **What `u->buffer` is left with.** A response that is finalized with 0 has been collected
in `r->out`; it is in `u->buffer` as well exactly if that has kept it. -/
theorem buffer_eq_collected_iff {conf : PipeConf} {events : List PipeEvent} {final : Pipe}
    {body : Bytes} (ran : (eventPipe conf).run (Pipe.start conf) events = some final)
    (completed : final.control = .completed)
    (framed : conf.framing.body (Pipe.arrived events) = some body) :
    final.collected = body ∧ (final.main = final.collected ↔ KeepsBody conf events body) := by
  have succeeded : final.control ≠ .failed := by simp [completed]
  have sound := Framing.sound_of_body framed
  obtain ⟨sane, received⟩ := Pipe.run_sane (Pipe.start_sane conf) sound ran succeeded
  have received : final.received = Pipe.arrived events := received
  rw [← received] at framed
  obtain ⟨rfl, none⟩ := sane.completed completed framed
  refine ⟨rfl, ?_⟩
  unfold KeepsBody
  by_cases chunks : conf.framing = .chunked
  · rw [chunks, sane.loaded.main_eq_nil chunks none]
    exact eq_comm
  · have fresh : (Pipe.start conf).Recorded conf false := Pipe.start_fresh conf
    have recorded : final.Recorded conf (events.any PipeEvent.reuses) :=
      Pipe.run_recorded fresh chunks (Pipe.start_sane conf) sound ran succeeded
    obtain ⟨whole, announced⟩ := Framing.body_of_copied chunks framed
    rw [whole, recorded.main_eq_iff]
    cases framing : conf.framing with
    | chunked => exact absurd framing chunks
    | connectionClose => exact Iff.rfl
    | contentLength n =>
        rw [announced n framing]
        refine ⟨And.left, fun fits => ⟨fits, ?_⟩⟩
        -- a buffer used again is too small for the announced body
        cases used : events.any PipeEvent.reuses with
        | false => rfl
        | true =>
            rw [used] at recorded
            have := Pipe.Used.announced recorded n framing
            omega

end HttpBackEnd.Nginx
