import HttpBackEnd.Nginx.PipeLoop

/-! # Whole runs of the pipe

What every state of a run has: the response is followed, nothing is left waiting that the
input filter could use, and the pipe is finalized with 0 only when everything has been
collected. A body that fits in `r->out` is accepted whenever it is written.
-/

namespace HttpBackEnd.Nginx

open Deframe

/-- The bytes an event brings. -/
def PipeEvent.bytes : PipeEvent → Bytes
  | .preread bytes => bytes
  | .recv bytes => bytes
  | _ => []

namespace Pipe

variable {conf : PipeConf} {raw : Raw} {pipe next : Pipe}

/-! ## The operations -/

/-- The pipe has followed the response at its start. -/
theorem start_loaded (conf : PipeConf) : (start conf).Loaded conf := by
  refine ⟨?_, rfl, fun _ member => absurd member List.not_mem_nil, fun _ => .inl rfl⟩
  cases framing : conf.framing with
  | contentLength n =>
      cases n with
      | zero =>
          refine .complete ?_ (.inr ⟨?_, rfl⟩)
          · rw [framing]
            rfl
          · rw [start, framing]
            rfl
      | succ n =>
          refine .opened ?_ rfl ?_
          · simp [start, framing, Framing.start, status_remaining, position, delivered,
              Framing.pipeLength]
          · rw [start, framing]
            exact Int.natCast_pos.mpr (Nat.succ_pos n)
  | connectionClose =>
      refine .opened ?_ rfl ?_
      · rw [framing]
        rfl
      · rw [start, framing]
        rfl
  | chunked =>
      refine .opened ?_ rfl ?_
      · rw [framing]
        rfl
      · rw [start, framing]
        rfl

/-- The chain read into takes the place of the free buffers. -/
theorem readChain_loaded {chain : List Raw} {allocated : Nat}
    (found : pipe.readChain conf = some (chain, allocated)) (loaded : pipe.Loaded conf) :
    { pipe with free := chain : Pipe }.Loaded conf ∧
      (pipe.Quiet → { pipe with free := chain : Pipe }.Quiet) := by
  unfold readChain at found
  split at found
  · cases found
    exact ⟨loaded, id⟩
  · next none =>
      have none : pipe.free = [] := List.eq_nil_of_length_eq_zero (not_not.mp none)
      split at found
      · cases found
        refine ⟨⟨loaded.follows.of_eq rfl rfl, ?_, ?_, ?_⟩, fun _ => ?_⟩
        · rw [← loaded.received, waiting, waiting, none]
          rfl
        · exact fun _ member => absurd member List.not_mem_nil
        · intro chunks
          have held := loaded.main chunks
          rw [none] at held
          rcases held with empty | ⟨_, _, impossible, -⟩
          · exact .inl empty
          · cases impossible
        · refine quiet_of_allEmpty fun raw member => ?_
          rw [List.mem_singleton.mp member]
      · cases found

/-- Bytes have been read into a chain. -/
theorem take_loaded {chain : List Raw} {bytes : Bytes}
    (succeeded : (pipe.take conf chain bytes).control ≠ .failed)
    (loaded : { pipe with free := chain : Pipe }.Loaded conf)
    (fits : bytes.length ≤ (chain.map Raw.room).sum)
    (sound : (deframer.status conf.framing.start (pipe.received ++ bytes)).Sound) :
    (pipe.take conf chain bytes).Loaded conf ∧
      Keeps { pipe with free := [], received := pipe.received ++ bytes }
        (pipe.take conf chain bytes) := by
  unfold take at succeeded ⊢
  cases read : fill conf chain bytes
      { pipe with free := [], received := pipe.received ++ bytes } with
  | none =>
      rw [read] at succeeded
      exact absurd rfl succeeded
  | some last =>
      have total : pipe.passed ++ (chain.flatMap Raw.data ++ bytes) = pipe.received ++ bytes := by
        rw [← List.append_assoc]
        exact congrArg (· ++ bytes) loaded.received
      have done := fill_filled read (loaded.follows.of_eq rfl rfl)
        (fun _ member => absurd member List.not_mem_nil) loaded.allEmpty fits loaded.main
        (total.symm ▸ sound)
      refine ⟨⟨done.follows, ?_, done.allEmpty, done.main⟩, done.keeps⟩
      rw [done.passed, done.keeps.received]
      exact total

theorem inMemory_eq {collected result : Bytes} {chain : List Bytes}
    (copied : inMemory conf collected chain = some result) :
    result = collected ++ chain.flatten := by
  obtain ⟨size, -, folded⟩ := Option.bind_eq_some_iff.mp copied
  clear copied
  induction chain generalizing collected with
  | nil =>
      cases folded
      rw [List.flatten_nil, List.append_nil]
  | cons bytes chain ih =>
      rw [List.foldlM_cons] at folded
      split at folded
      · rw [ih folded, List.flatten_cons, List.append_assoc]
      · cases folded

theorem waiting_addFreeBuf (conf : PipeConf) (pipe : Pipe) (id : Nat) :
    (pipe.addFreeBuf conf id).waiting = pipe.waiting := by
  unfold waiting addFreeBuf
  dsimp only
  split
  · next none => rw [none]; rfl
  · next head tail buffers =>
      rw [buffers]
      split
      · rfl
      · simp

/-- Where a raw buffer that becomes free goes to. -/
theorem free_addFreeBuf (conf : PipeConf) (pipe : Pipe) (id : Nat) :
    (∃ raw, raw.data = [] ∧ (pipe.addFreeBuf conf id).free = raw :: pipe.free ∧
        ∀ head tail, pipe.free = head :: tail → head.data = []) ∨
      ∃ raw head tail, raw.data = [] ∧ head.data ≠ [] ∧ pipe.free = head :: tail ∧
        (pipe.addFreeBuf conf id).free = head :: raw :: tail := by
  unfold addFreeBuf
  dsimp only
  cases buffers : pipe.free with
  | nil => exact .inl ⟨_, rfl, rfl, fun _ _ impossible => nomatch impossible⟩
  | cons head tail =>
      dsimp only
      split
      · next empty =>
          refine .inl ⟨_, rfl, rfl, fun _ _ same => ?_⟩
          cases same
          exact List.eq_nil_of_length_eq_zero empty
      · next nonempty =>
          exact .inr ⟨_, head, tail, rfl, fun empty => nonempty (by rw [empty]; rfl), rfl, rfl⟩

/-- With an empty first buffer, all are. -/
theorem Loaded.allEmpty_of_head (loaded : pipe.Loaded conf)
    (before : ∀ head tail, pipe.free = head :: tail → head.data = []) : AllEmpty pipe.free := by
  cases buffers : pipe.free with
  | nil => exact fun _ member => absurd member List.not_mem_nil
  | cons head tail =>
      intro other member
      rcases List.mem_cons.mp member with rfl | member
      · exact before _ _ buffers
      · exact loaded.rest buffers other member

/-- An empty buffer behind the first one changes nothing. -/
theorem Quiet.insert {head : Raw} {tail : List Raw} (quiet : pipe.Quiet) (empty : raw.data = [])
    (before : pipe.free = head :: tail) (free : next.free = head :: raw :: tail)
    (length : next.length = pipe.length) : next.Quiet := by
  rcases quiet with nothing | little
  · exact .inl (length ▸ nothing)
  · have small := little head (by rw [before]; exact List.mem_cons_self)
    refine .inr fun other member => ?_
    rw [free] at member
    rw [length]
    rcases List.mem_cons.mp member with rfl | member
    · exact small
    rcases List.mem_cons.mp member with rfl | member
    · rw [empty, List.length_nil]
      omega
    · exact little other (by rw [before]; exact List.mem_cons_of_mem _ member)

/-- A raw buffer that becomes free changes nothing else. -/
theorem addFreeBuf_loaded (loaded : pipe.Loaded conf) (id : Nat) :
    (pipe.addFreeBuf conf id).Loaded conf ∧
      (pipe.Quiet → (pipe.addFreeBuf conf id).Quiet) := by
  have main : (pipe.addFreeBuf conf id).main = [] ∨ (pipe.addFreeBuf conf id).main = pipe.main := by
    by_cases first : id = 0
    · exact .inl (by simp [addFreeBuf, setMain, first])
    · exact .inr (by simp [addFreeBuf, setMain, first])
  have received : (pipe.addFreeBuf conf id).passed ++ (pipe.addFreeBuf conf id).waiting =
      (pipe.addFreeBuf conf id).received := by
    rw [waiting_addFreeBuf]
    exact loaded.received
  obtain ⟨raw, empty, free, before⟩ | ⟨raw, head, tail, empty, data, before, free⟩ :=
    free_addFreeBuf conf pipe id
  · have allEmpty := allEmpty_addFreeBuf conf (loaded.allEmpty_of_head before) id
    refine ⟨⟨loaded.follows.of_eq rfl rfl, received,
      fun other member => allEmpty other (List.mem_of_mem_tail member), fun chunks => .inl ?_⟩,
      fun _ => quiet_of_allEmpty allEmpty⟩
    rcases main with none | same
    · exact none
    · rw [same]
      rcases loaded.main chunks with none | ⟨other, _, buffers, -, data⟩
      · exact none
      · exact absurd (before _ _ buffers) data
  · refine ⟨⟨loaded.follows.of_eq rfl rfl, received, ?_, fun chunks => ?_⟩,
      fun quiet => quiet.insert empty before free rfl⟩
    · rw [free]
      intro other member
      rcases List.mem_cons.mp member with rfl | member
      · exact empty
      · exact loaded.rest before other member
    · rcases main with none | same
      · exact .inl none
      · rw [same, free]
        rcases loaded.main chunks with none | ⟨_, _, buffers, first, some_data⟩
        · exact .inl none
        · rw [before] at buffers
          cases buffers
          exact .inr ⟨head, _, rfl, first, some_data⟩

theorem foldl_addFreeBuf_loaded (loaded : pipe.Loaded conf) (ids : List Nat) :
    (ids.foldl (addFreeBuf conf) pipe).Loaded conf ∧
      (pipe.Quiet → (ids.foldl (addFreeBuf conf) pipe).Quiet) ∧
      pipe.Keeps (ids.foldl (addFreeBuf conf) pipe) ∧
      (ids.foldl (addFreeBuf conf) pipe).upstreamDone = pipe.upstreamDone := by
  induction ids generalizing pipe with
  | nil => exact ⟨loaded, id, .refl _, rfl⟩
  | cons id ids ih =>
      obtain ⟨there, calm⟩ := addFreeBuf_loaded loaded id
      obtain ⟨last, quiet, keeps, done⟩ := ih there
      exact ⟨last, fun here => quiet (calm here), (keeps_addFreeBuf conf pipe id).trans keeps, done⟩

/-- What has been copied to `r->out` is no longer on its way. -/
theorem delivered_copied (pipe : Pipe) (count : Nat) {collected : Bytes}
    (copied : inMemory conf pipe.collected
      (pipe.spilled :: (pipe.pieces.take count).map Piece.bytes) = some collected) :
    { pipe with
      collected := collected, spilled := [], pieces := pipe.pieces.drop count : Pipe }.delivered =
      pipe.delivered := by
  simp only [delivered, inMemory_eq copied, List.flatten_cons, List.append_nil]
  rw [List.append_assoc, List.append_assoc, ← List.flatten_append, ← List.map_append,
    List.take_append_drop, ← List.append_assoc]

theorem send_sane (sane : pipe.Sane conf) (count : Nat) (writing : pipe.control = .writing)
    (running : pipe.ended = false) (succeeded : (pipe.send conf count).control ≠ .failed) :
    (pipe.send conf count).Sane conf ∧ (pipe.send conf count).received = pipe.received := by
  unfold send at succeeded ⊢
  cases copied : inMemory conf pipe.collected
      (pipe.spilled :: (pipe.pieces.take count).map Piece.bytes) with
  | none =>
      rw [copied] at succeeded
      exact absurd rfl succeeded
  | some collected =>
      dsimp only
      have loaded : Loaded conf { pipe with
          collected := collected, spilled := [], pieces := pipe.pieces.drop count } :=
        sane.loaded.of_view rfl (delivered_copied pipe count copied)
      obtain ⟨last, quiet, keeps, done⟩ :=
        foldl_addFreeBuf_loaded loaded (freed (pipe.pieces.take count)).reverse
      have ready := (ready_writing writing).mp sane.ready
      have here := keeps.control.trans writing
      refine ⟨⟨last, (ready_writing here).mpr ⟨fun ended => ?_, fun _ => ?_⟩, fun first => ?_⟩,
        keeps.received⟩
      · rw [keeps.upstreamEof] at ended
        exact absurd ended (by simp [(ended_eq_false.mp running).1])
      · exact quiet (ready.2 running)
      · rw [keeps.preread] at first
        exact absurd first (by simp [sane.later (by simp [writing])])

theorem flush_sane (sane : pipe.Sane conf) (writing : pipe.control = .writing)
    (atEnd : pipe.ended = true) (succeeded : (pipe.flush conf).control ≠ .failed) :
    (pipe.flush conf).Sane conf ∧ (pipe.flush conf).received = pipe.received := by
  unfold flush at succeeded ⊢
  cases copied : inMemory conf pipe.collected
      (pipe.spilled :: pipe.pieces.map Piece.bytes) with
  | none =>
      rw [copied] at succeeded
      exact absurd rfl succeeded
  | some collected =>
      rw [copied] at succeeded
      dsimp only at succeeded ⊢
      have whole : { pipe with
          collected := collected, spilled := [], pieces := [] : Pipe }.delivered =
          pipe.delivered := by
        have copied := delivered_copied pipe pipe.pieces.length
          (by rw [List.take_length]; exact copied)
        rwa [List.drop_length] at copied
      unfold processRequest at succeeded ⊢
      dsimp only at succeeded ⊢
      split
      · next finished =>
          refine ⟨⟨sane.loaded.of_view rfl whole, ⟨rfl, rfl, ?_⟩, fun first => ?_⟩, rfl⟩
          · rw [Bool.or_eq_true, Bool.and_eq_true, decide_eq_true_eq] at finished
            refine finished.imp_right fun ⟨eof, toClose⟩ => ⟨eof, toClose, ?_⟩
            exact ((ready_writing writing).mp sane.ready).1 eof
          · exact absurd first (by simp [sane.later (by simp [writing])])
      · next unfinished =>
          rw [if_neg unfinished] at succeeded
          split at succeeded
          · exact absurd rfl succeeded
          · next notEnded =>
              rw [ended, Bool.or_eq_true] at atEnd
              rw [Bool.or_eq_true, not_or] at unfinished
              exact absurd atEnd (not_or.mpr ⟨notEnded, unfinished.1⟩)

theorem readChain_eq_none (blocked : pipe.readChain conf = none) : pipe.free = [] := by
  unfold readChain at blocked
  split at blocked
  · cases blocked
  · next none => exact List.eq_nil_of_length_eq_zero (not_not.mp none)

theorem spill_sane (sane : pipe.Sane conf) (count : Nat) (reading : pipe.control = .reading)
    (running : pipe.ended = false) (blocked : pipe.readChain conf = none)
    (later : pipe.preread = false) : (pipe.spill conf count).Sane conf := by
  have none := readChain_eq_none blocked
  have allEmpty : AllEmpty (pipe.spill conf count).free := by
    intro raw member
    simp only [spill, none, List.nil_append, List.mem_map] at member
    obtain ⟨id, -, rfl⟩ := member
    rfl
  have received := sane.loaded.received
  rw [waiting, none] at received
  refine ⟨⟨sane.loaded.follows.of_eq rfl ?_, ?_, ?_, fun chunks => .inl ?_⟩, ?_,
    fun first => ?_⟩
  · simp only [delivered, spill]
    rw [List.append_assoc, List.append_assoc, List.append_assoc, ← List.flatten_append,
      ← List.map_append, List.take_append_drop]
  · rw [waiting, allEmpty.flatMap]
    exact received
  · exact fun raw member => allEmpty raw (List.mem_of_mem_tail member)
  · have main : pipe.main = [] := by
      rcases sane.loaded.main chunks with empty | ⟨_, _, impossible, -⟩
      · exact empty
      · rw [none] at impossible
        cases impossible
    simp [spill, main]
  · obtain ⟨eof, error, done⟩ := ended_eq_false.mp running
    have here : (pipe.spill conf count).control = .reading := reading
    exact (ready_reading here).mpr ⟨eof, error, fun _ => ⟨done, quiet_of_allEmpty allEmpty⟩⟩
  · exact absurd (first.symm.trans later) (by simp)

/-! ## Steps -/

/-- How the reading loop is left, with the state the tests behind it begin in. -/
inductive Leaves (conf : PipeConf) (pipe : Pipe) : PipeEvent → Pipe → Prop
  | again {chain : List Raw} {allocated : Nat} (later : pipe.preread = false)
      (found : pipe.readChain conf = some (chain, allocated)) :
      Leaves conf pipe .recvAgain { pipe with free := chain, allocated := allocated }
  | eof {chain : List Raw} {allocated : Nat} (later : pipe.preread = false)
      (found : pipe.readChain conf = some (chain, allocated)) :
      Leaves conf pipe .recvEof
        { pipe with free := chain, allocated := allocated, upstreamEof := true, read := true }
  | error {chain : List Raw} {allocated : Nat} (later : pipe.preread = false)
      (found : pipe.readChain conf = some (chain, allocated)) :
      Leaves conf pipe .recvError
        { pipe with free := chain, allocated := allocated, upstreamError := true }
  | stop (given : pipe.preread = false ∨ pipe.ended = true) : Leaves conf pipe .stop pipe
  | block (later : pipe.preread = false) :
      Leaves conf pipe .block { pipe with upstreamBlocked := true }

/-- Everything a step can do. -/
inductive Step (conf : PipeConf) (pipe : Pipe) : PipeEvent → Pipe → Prop
  | wake (idle : pipe.control = .idle) (doWrite : Bool) :
      Step conf pipe (.wake doWrite) { pipe with
        control := if doWrite then .writing else .reading
        read := false
        upstreamBlocked := false }
  | timeout (idle : pipe.control = .idle) :
      Step conf pipe .timeout { pipe with control := .failed }
  | preread {bytes : Bytes} (first : pipe.preread = true) (fits : bytes.length ≤ conf.room) :
      Step conf pipe (.preread bytes)
        ({ pipe with preread := false, read := pipe.read || bytes.length ≠ 0 : Pipe }.take conf
          [⟨0, [], conf.room⟩] bytes)
  | recv {bytes : Bytes} {chain : List Raw} {allocated : Nat} (reading : pipe.control = .reading)
      (later : pipe.preread = false) (running : pipe.ended = false)
      (found : pipe.readChain conf = some (chain, allocated))
      (fits : bytes.length ≤ (chain.map Raw.room).sum) :
      Step conf pipe (.recv bytes)
        ({ pipe with allocated := allocated, read := true : Pipe }.take conf chain bytes)
  | leave {event : PipeEvent} {before : Pipe} (reading : pipe.control = .reading)
      (leaves : Leaves conf pipe event before) : Step conf pipe event (before.leaveLoop conf)
  | spill {count : Nat} (reading : pipe.control = .reading) (later : pipe.preread = false)
      (running : pipe.ended = false) (blocked : pipe.readChain conf = none) (one : 1 ≤ count)
      (enough : count ≤ pipe.pieces.length) :
      Step conf pipe (.spill count) (pipe.spill conf count)
  | send {count : Nat} (writing : pipe.control = .writing) (running : pipe.ended = false)
      (enough : count ≤ pipe.pieces.length) (some_piece : pipe.spilled.length ≠ 0 ∨ 1 ≤ count) :
      Step conf pipe (.send count) (pipe.send conf count)
  | endWrite (writing : pipe.control = .writing) (running : pipe.ended = false) :
      Step conf pipe .endWrite
        { pipe with control := .reading, read := false, upstreamBlocked := false }
  | flush (writing : pipe.control = .writing) (atEnd : pipe.ended = true) :
      Step conf pipe .flush (pipe.flush conf)

theorem readStep_cases {event : PipeEvent} (reading : pipe.control = .reading)
    (stepped : pipe.readStep conf event = some next) : Step conf pipe event next := by
  cases event with
  | preread bytes =>
      obtain ⟨given, taken⟩ := Option.ite_none_right_eq_some.mp stepped
      cases taken
      exact .preread given.1 given.2.2
  | recv bytes =>
      obtain ⟨given, stepped⟩ := Option.ite_none_right_eq_some.mp stepped
      obtain ⟨⟨chain, allocated⟩, found, stepped⟩ := Option.bind_eq_some_iff.mp stepped
      obtain ⟨fits, taken⟩ := Option.ite_none_right_eq_some.mp stepped
      cases taken
      exact .recv reading given.1 given.2.1 found fits
  | recvAgain =>
      obtain ⟨given, stepped⟩ := Option.ite_none_right_eq_some.mp stepped
      obtain ⟨⟨chain, allocated⟩, found, rfl⟩ := Option.map_eq_some_iff.mp stepped
      exact .leave reading (.again given.1 found)
  | recvEof =>
      obtain ⟨given, stepped⟩ := Option.ite_none_right_eq_some.mp stepped
      obtain ⟨⟨chain, allocated⟩, found, rfl⟩ := Option.map_eq_some_iff.mp stepped
      exact .leave reading (.eof given.1 found)
  | recvError =>
      obtain ⟨given, stepped⟩ := Option.ite_none_right_eq_some.mp stepped
      obtain ⟨⟨chain, allocated⟩, found, rfl⟩ := Option.map_eq_some_iff.mp stepped
      exact .leave reading (.error given.1 found)
  | stop =>
      obtain ⟨given, left⟩ := Option.ite_none_right_eq_some.mp stepped
      cases left
      exact .leave reading (.stop given)
  | block =>
      obtain ⟨given, left⟩ := Option.ite_none_right_eq_some.mp stepped
      cases left
      exact .leave reading (.block given.1)
  | spill count =>
      obtain ⟨⟨later, running, blocked, one, enough⟩, spilled⟩ :=
        Option.ite_none_right_eq_some.mp stepped
      cases spilled
      exact .spill reading later running blocked one enough
  | _ => cases stepped

theorem writeStep_cases {event : PipeEvent} (writing : pipe.control = .writing)
    (stepped : pipe.writeStep conf event = some next) : Step conf pipe event next := by
  cases event with
  | send count =>
      obtain ⟨⟨running, enough, some_piece⟩, sent⟩ := Option.ite_none_right_eq_some.mp stepped
      cases sent
      exact .send writing running enough some_piece
  | endWrite =>
      obtain ⟨running, ended⟩ := Option.ite_none_right_eq_some.mp stepped
      cases ended
      exact .endWrite writing running
  | flush =>
      obtain ⟨atEnd, flushed⟩ := Option.ite_none_right_eq_some.mp stepped
      cases flushed
      exact .flush writing atEnd
  | _ => cases stepped

theorem step_cases {event : PipeEvent}
    (stepped : (eventPipe conf).step pipe event = some next) : Step conf pipe event next := by
  simp only [eventPipe] at stepped
  cases control : pipe.control with
  | idle =>
      rw [control] at stepped
      cases event with
      | wake doWrite =>
          cases stepped
          exact .wake control doWrite
      | timeout =>
          cases stepped
          exact .timeout control
      | _ => cases stepped
  | reading =>
      rw [control] at stepped
      exact readStep_cases control stepped
  | writing =>
      rw [control] at stepped
      exact writeStep_cases control stepped
  | completed =>
      rw [control] at stepped
      cases stepped
  | failed =>
      rw [control] at stepped
      cases stepped

/-- What the tests behind the loop may rely on. -/
structure Left (conf : PipeConf) (pipe before : Pipe) : Prop where
  loaded : before.Loaded conf
  received : before.received = pipe.received
  main : before.main = pipe.main
  later : before.preread = false
  eof : before.upstreamEof = true → before.read = true
  quiet : before.read = false → before.upstreamDone = false ∧ before.Quiet

theorem Leaves.left {event : PipeEvent} {before : Pipe} (leaves : Leaves conf pipe event before)
    (sane : pipe.Sane conf) (reading : pipe.control = .reading) : Left conf pipe before := by
  obtain ⟨eof, -, ready⟩ := (ready_reading reading).mp sane.ready
  have notEof : ¬pipe.upstreamEof = true := by simp [eof]
  cases leaves with
  | again later found =>
      obtain ⟨chosen, calm⟩ := readChain_loaded found sane.loaded
      exact ⟨chosen.of_view rfl rfl, rfl, rfl, later, fun ended => absurd ended notEof,
        fun nothing => (ready nothing).imp_right calm⟩
  | eof later found =>
      obtain ⟨chosen, -⟩ := readChain_loaded found sane.loaded
      exact ⟨chosen.of_view rfl rfl, rfl, rfl, later, fun _ => rfl, fun nothing => nomatch nothing⟩
  | error later found =>
      obtain ⟨chosen, calm⟩ := readChain_loaded found sane.loaded
      exact ⟨chosen.of_view rfl rfl, rfl, rfl, later, fun ended => absurd ended notEof,
        fun nothing => (ready nothing).imp_right calm⟩
  | stop given =>
      have later := sane.later_of_over given
      exact ⟨sane.loaded, rfl, rfl, later, fun ended => absurd ended notEof, ready⟩
  | block later =>
      exact ⟨sane.loaded.of_view rfl rfl, rfl, rfl, later, fun ended => absurd ended notEof, ready⟩

theorem Leaves.bytes {event : PipeEvent} {before : Pipe} (leaves : Leaves conf pipe event before) :
    event.bytes = [] := by
  cases leaves <;> rfl

/-- The bytes behind the header are the first ones read. -/
theorem preread_sane {bytes : Bytes} (fits : bytes.length ≤ conf.room)
    (sound : (deframer.status conf.framing.start bytes).Sound)
    (taken : { start conf with
      preread := false, read := (start conf).read || bytes.length ≠ 0 : Pipe }.take conf
        [⟨0, [], conf.room⟩] bytes = next)
    (succeeded : next.control ≠ .failed) : next.Sane conf ∧ next.received = bytes := by
  subst taken
  have first := start_loaded conf
  obtain ⟨loaded, keeps⟩ := take_loaded succeeded
    ⟨first.follows.of_eq rfl rfl, rfl, fun _ member => absurd member List.not_mem_nil,
      fun _ => .inl rfl⟩ (by simpa using fits) sound
  refine ⟨⟨loaded, ?_, fun first => ?_⟩, keeps.received⟩
  · refine (ready_reading keeps.control).mpr
      ⟨keeps.upstreamEof, keeps.upstreamError, fun nothing => ?_⟩
    rw [keeps.read] at nothing
    have empty : bytes = [] := by simpa [start] using nothing
    subst empty
    refine ⟨rfl, quiet_of_allEmpty fun raw member => ?_⟩
    rw [List.mem_singleton.mp member]
  · rw [keeps.preread] at first
    cases first

theorem recv_sane {bytes : Bytes} {chain : List Raw} {allocated : Nat} (sane : pipe.Sane conf)
    (reading : pipe.control = .reading) (later : pipe.preread = false)
    (found : pipe.readChain conf = some (chain, allocated))
    (fits : bytes.length ≤ (chain.map Raw.room).sum)
    (sound : (deframer.status conf.framing.start (pipe.received ++ bytes)).Sound)
    (taken : { pipe with allocated := allocated, read := true : Pipe }.take conf chain bytes = next)
    (succeeded : next.control ≠ .failed) :
    next.Sane conf ∧ next.received = pipe.received ++ bytes := by
  subst taken
  obtain ⟨eof, error, -⟩ := (ready_reading reading).mp sane.ready
  have chosen := (readChain_loaded found sane.loaded).1
  obtain ⟨loaded, keeps⟩ := take_loaded succeeded (chosen.of_view rfl rfl) fits sound
  refine ⟨⟨loaded, ?_, fun first => ?_⟩, keeps.received⟩
  · refine (ready_reading (keeps.control.trans reading)).mpr
      ⟨keeps.upstreamEof.trans eof, keeps.upstreamError.trans error, fun nothing => ?_⟩
    rw [keeps.read] at nothing
    cases nothing
  · rw [keeps.preread] at first
    exact absurd (first.symm.trans later) (by simp)

theorem wake_sane (sane : pipe.Sane conf) (idle : pipe.control = .idle) (doWrite : Bool) :
    Sane conf { pipe with
      control := if doWrite then .writing else .reading
      read := false
      upstreamBlocked := false } := by
  obtain ⟨running, quiet⟩ := (ready_idle idle).mp sane.ready
  obtain ⟨eof, error, done⟩ := ended_eq_false.mp running
  have later := sane.later (by simp [idle])
  refine ⟨sane.loaded.of_view rfl rfl, ?_, fun first => absurd first (by simp [later])⟩
  cases doWrite with
  | true => exact ⟨fun ended => absurd ended (by simp [eof]), fun _ => quiet⟩
  | false => exact ⟨eof, error, fun _ => ⟨done, quiet⟩⟩

theorem endWrite_sane (sane : pipe.Sane conf) (writing : pipe.control = .writing)
    (running : pipe.ended = false) :
    Sane conf { pipe with control := .reading, read := false, upstreamBlocked := false } := by
  obtain ⟨eof, error, done⟩ := ended_eq_false.mp running
  have quiet := ((ready_writing writing).mp sane.ready).2 running
  have later := sane.later (by simp [writing])
  exact ⟨sane.loaded.of_view rfl rfl, ⟨eof, error, fun _ => ⟨done, quiet⟩⟩,
    fun first => absurd first (by simp [later])⟩

/-- **Every step keeps the response followed**, unless it fails. -/
theorem step_sane {event : PipeEvent} (sane : pipe.Sane conf)
    (sound : (deframer.status conf.framing.start (pipe.received ++ event.bytes)).Sound)
    (stepped : (eventPipe conf).step pipe event = some next) (succeeded : next.control ≠ .failed) :
    next.Sane conf ∧ next.received = pipe.received ++ event.bytes := by
  have silent (kept : next.received = pipe.received) : next.received = pipe.received ++ [] := by
    rw [kept, List.append_nil]
  cases step_cases stepped with
  | wake idle doWrite => exact ⟨wake_sane sane idle doWrite, silent rfl⟩
  | timeout idle => exact absurd rfl succeeded
  | preread first fits =>
      obtain rfl := sane.preread first
      exact preread_sane fits sound rfl succeeded
  | recv reading later running found fits =>
      exact recv_sane sane reading later found fits sound rfl succeeded
  | leave reading leaves =>
      have left := leaves.left sane reading
      rw [leaves.bytes, List.append_nil] at sound ⊢
      rw [← left.received] at sound ⊢
      exact leaveLoop_sane left.loaded sound left.later left.eof left.quiet succeeded
  | spill reading later running blocked one enough =>
      exact ⟨spill_sane sane _ reading running blocked later, silent rfl⟩
  | send writing running enough some_piece =>
      exact .imp_right silent (send_sane sane _ writing running succeeded)
  | endWrite writing running => exact ⟨endWrite_sane sane writing running, silent rfl⟩
  | flush writing atEnd =>
      exact .imp_right silent (flush_sane sane writing atEnd succeeded)

theorem start_sane (conf : PipeConf) : (start conf).Sane conf := by
  refine ⟨start_loaded conf, ⟨rfl, rfl, fun _ => ⟨rfl, quiet_of_allEmpty ?_⟩⟩, fun _ => rfl⟩
  exact fun _ member => absurd member List.not_mem_nil

/-- Nothing follows a failure. -/
theorem not_failed_of_step {event : PipeEvent}
    (stepped : (eventPipe conf).step pipe event = some next) : pipe.control ≠ .failed := by
  intro failed
  simp only [eventPipe, failed] at stepped
  cases stepped

theorem not_failed_of_run {events : List PipeEvent} {final : Pipe}
    (ran : (eventPipe conf).run pipe events = some final) (succeeded : final.control ≠ .failed) :
    pipe.control ≠ .failed := by
  cases events with
  | nil =>
      cases ran
      exact succeeded
  | cons event events =>
      obtain ⟨_, stepped, -⟩ := ((eventPipe conf).run_cons_eq_some).mp ran
      exact not_failed_of_step stepped

/-- All bytes that events bring. -/
def arrived (events : List PipeEvent) : Bytes := events.flatMap PipeEvent.bytes

/-- **Every run follows the response**, however it arrives. -/
theorem run_sane {events : List PipeEvent} {final : Pipe} (sane : pipe.Sane conf)
    (sound : (deframer.status conf.framing.start (pipe.received ++ arrived events)).Sound)
    (ran : (eventPipe conf).run pipe events = some final) (succeeded : final.control ≠ .failed) :
    final.Sane conf ∧ final.received = pipe.received ++ arrived events := by
  induction events generalizing pipe with
  | nil =>
      cases ran
      exact ⟨sane, (List.append_nil _).symm⟩
  | cons event events ih =>
      obtain ⟨next, stepped, rest⟩ := ((eventPipe conf).run_cons_eq_some).mp ran
      rw [arrived, List.flatMap_cons, ← List.append_assoc] at sound ⊢
      obtain ⟨there, received⟩ := step_sane sane (sound_of_append sound) stepped
        (not_failed_of_run rest succeeded)
      rw [← received] at sound ⊢
      exact ih there sound rest

end Pipe

/-! ## The end -/

theorem Framing.sound_of_body {framing : Framing} {received body : Bytes}
    (framed : framing.body received = some body) :
    (deframer.status framing.start received).Sound := by
  unfold Framing.body at framed
  split at framed
  · next read => exact .inl ⟨_, _, read⟩
  · next read => exact .inr ⟨_, read⟩
  · next read => exact .inr ⟨_, read⟩
  · cases framed

/-- Without chunks the body is what has been received, as long as it has been announced. -/
theorem Framing.body_of_copied {framing : Framing} {received body : Bytes}
    (copied : framing ≠ .chunked) (framed : framing.body received = some body) :
    body = received ∧ ∀ n, framing = .contentLength n → received.length = n := by
  cases framing with
  | chunked => exact absurd rfl copied
  | connectionClose =>
      simp only [Framing.body, Framing.start, status_untilClose] at framed
      cases framed
      exact ⟨rfl, fun _ impossible => nomatch impossible⟩
  | contentLength n =>
      simp only [Framing.body, Framing.start, status_remaining] at framed
      rcases Nat.lt_trichotomy received.length n with short | same | long
      · rw [if_pos short] at framed
        cases framed
      · rw [if_neg (by omega), if_pos same] at framed
        cases framed
        refine ⟨rfl, fun m announced => ?_⟩
        cases announced
        exact same
      · rw [if_neg (by omega), if_neg (by omega)] at framed
        cases framed

/-- **A response that is finalized with 0 has been collected**, and nothing of it waits. -/
theorem Pipe.Sane.completed {conf : PipeConf} {pipe : Pipe} {body : Bytes} (sane : pipe.Sane conf)
    (completed : pipe.control = .completed)
    (framed : conf.framing.body pipe.received = some body) :
    pipe.collected = body ∧ pipe.waiting = [] := by
  obtain ⟨pieces, spilled, finished⟩ := (Pipe.ready_completed completed).mp sane.ready
  have delivered : pipe.delivered = pipe.collected := by simp [Pipe.delivered, pieces, spilled]
  have received := sane.loaded.received
  have none : pipe.waiting = [] := by
    rcases finished with done | ⟨-, -, none⟩
    · cases sane.loaded.follows with
      | opened _ running _ => exact absurd (done.symm.trans running) (by simp)
      | complete read _ =>
          exact eq_nil_of_complete read (received.symm ▸ Framing.sound_of_body framed)
    · exact none
  refine ⟨?_, none⟩
  rw [none, List.append_nil] at received
  unfold Framing.body at framed
  cases sane.loaded.follows with
  | opened read running measures =>
      rw [received, delivered] at read
      rw [read] at framed
      cases framing : conf.framing with
      | connectionClose =>
          rw [framing] at framed
          cases framed
          rfl
      | contentLength n =>
          rw [framing] at framed
          cases framed
      | chunked =>
          rw [framing] at framed
          cases framed
  | complete read through =>
      rw [received, delivered] at read
      rw [read] at framed
      cases framing : conf.framing with
      | connectionClose =>
          rw [framing] at framed
          cases framed
      | contentLength n =>
          rw [framing] at framed
          cases framed
          rfl
      | chunked =>
          rw [framing] at framed
          cases framed
          rfl

/-! ## Responses that fit -/

theorem Pipe.inMemory_of_fits {conf : PipeConf} {size : Nat} {collected : Bytes}
    {chain : List Bytes} (sized : Pipe.outSize conf = some size)
    (fits : (collected ++ chain.flatten).length ≤ size) :
    Pipe.inMemory conf collected chain = some (collected ++ chain.flatten) := by
  rw [Pipe.inMemory, sized, Option.bind_some]
  induction chain generalizing collected with
  | nil => rw [List.flatten_nil, List.append_nil]; rfl
  | cons bytes chain ih =>
      rw [List.flatten_cons, ← List.append_assoc] at fits ⊢
      have room : bytes.length ≤ size - collected.length := by
        simp only [List.length_append] at fits
        omega
      rw [List.foldlM_cons, if_pos room]
      exact ih fits

/-- `r->out` is as long as the body if that is announced, and as long as it may be if not. -/
theorem Framing.le_outSize {conf : PipeConf} {received body : Bytes}
    (framed : conf.framing.body received = some body)
    (fits : body.length ≤ conf.subrequestOutputBufferSize) :
    ∃ size, Pipe.outSize conf = some size ∧ body.length ≤ size := by
  unfold Pipe.outSize
  cases framing : conf.framing with
  | connectionClose => exact ⟨_, rfl, fits⟩
  | chunked => exact ⟨_, rfl, fits⟩
  | contentLength n =>
      obtain ⟨rfl, announced⟩ := body_of_copied (by simp [framing]) framed
      have same := announced n framing
      exact ⟨n, if_pos (same ▸ fits), same.le⟩

/-- What is on its way is the beginning of the body. -/
theorem Pipe.Follows.body_eq {conf : PipeConf} {pipe : Pipe} {more body : Bytes}
    (follows : pipe.Follows conf)
    (framed : conf.framing.body (pipe.passed ++ more) = some body) :
    ∃ rest, body = pipe.delivered ++ rest := by
  have started (status : Status FramePosition UInt8)
      (read : deframer.status conf.framing.start (pipe.passed ++ more) =
        status.prepend pipe.delivered) : ∃ rest, body = pipe.delivered ++ rest := by
    unfold Framing.body at framed
    rw [read] at framed
    cases status with
    | opened position rest =>
        cases framing : conf.framing <;> simp [framing, Status.prepend] at framed
        exact ⟨rest, framed.symm⟩
    | complete rest =>
        cases framing : conf.framing <;> simp [framing, Status.prepend] at framed
        all_goals exact ⟨rest, framed.symm⟩
    | beyond => cases framing : conf.framing <;> simp [framing, Status.prepend] at framed
    | invalid => cases framing : conf.framing <;> simp [framing, Status.prepend] at framed
  cases follows with
  | opened read running measures => exact started _ (status_append_of_opened read more)
  | complete read through =>
      have none := eq_nil_of_complete read (Framing.sound_of_body framed)
      refine started (.complete []) ?_
      rw [none, List.append_nil, read, Status.prepend, List.append_nil]

/-- **No part of a response that fits is refused**, whatever has been written before: the
pipe of such a response does not fail in `send` or `flush` for want of room in `r->out`. -/
theorem run_accepts {conf : PipeConf} {events : List PipeEvent} {pipe : Pipe}
    {more body : Bytes} (ran : (eventPipe conf).run (Pipe.start conf) events = some pipe)
    (succeeded : pipe.control ≠ .failed)
    (framed : conf.framing.body (Pipe.arrived events ++ more) = some body)
    (fits : body.length ≤ conf.subrequestOutputBufferSize) (count : Nat) :
    (Pipe.inMemory conf pipe.collected
      (pipe.spilled :: (pipe.pieces.take count).map Piece.bytes)).isSome := by
  have sound := sound_of_append (Framing.sound_of_body framed)
  obtain ⟨sane, received⟩ := Pipe.run_sane (Pipe.start_sane conf) sound ran succeeded
  have arrived : Pipe.arrived events = pipe.passed ++ pipe.waiting :=
    received.symm.trans sane.loaded.received.symm
  rw [arrived, List.append_assoc] at framed
  obtain ⟨rest, whole⟩ := sane.loaded.follows.body_eq framed
  obtain ⟨size, sized, enough⟩ := Framing.le_outSize framed fits
  have written : (pipe.collected ++
      (pipe.spilled :: (pipe.pieces.take count).map Piece.bytes).flatten).length ≤
      pipe.delivered.length := by
    have split := congrArg (fun pieces => (pieces.map Piece.bytes).flatten.length)
      (List.take_append_drop count pipe.pieces)
    simp only [List.map_append, List.flatten_append, List.length_append] at split
    simp only [Pipe.delivered, List.flatten_cons, List.length_append]
    omega
  have short : pipe.delivered.length ≤ body.length := by
    rw [whole, List.length_append]
    exact Nat.le_add_right _ _
  rw [Pipe.inMemory_of_fits sized (written.trans (short.trans enough))]
  rfl

end HttpBackEnd.Nginx
