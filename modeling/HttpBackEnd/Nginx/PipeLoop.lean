import HttpBackEnd.Nginx.PipeBody

/-! # Behind the reading loop

The tests that follow the reading loop, and what a state of the pipe has by what the pipe is
at: after the tests nothing is left waiting that the input filter could use, and if nothing
has been read in the loop they find nothing to do.
-/

namespace HttpBackEnd.Nginx

open Deframe

namespace Pipe

variable {conf : PipeConf} {raw : Raw} {pipe next : Pipe}

/-! ## The tests -/

theorem inputFilter_nil (conf : PipeConf) (pipe : Pipe) (empty : raw.data = []) :
    pipe.inputFilter conf raw = some pipe := by
  cases framing : conf.framing with
  | chunked => simp [inputFilter, framing, chunkedFilter, empty]
  | contentLength n => simp [inputFilter, framing, copyFilter, empty]
  | connectionClose => simp [inputFilter, framing, copyFilter, empty]

/-- A buffer with less than is wanted does not end the response. -/
theorem Loaded.pass_short {free : List Raw} (loaded : pipe.Loaded conf)
    (sound : (deframer.status conf.framing.start pipe.received).Sound)
    (buffers : pipe.free = raw :: free) (running : pipe.upstreamDone = false)
    (little : pipe.length = -1 ∨ (raw.data.length : Int) < pipe.length)
    (filtered : { pipe with free := free : Pipe }.inputFilter conf raw = some next) :
    next.upstreamDone = false := by
  by_cases empty : raw.data = []
  · rw [inputFilter_nil conf _ empty] at filtered
    cases filtered
    exact running
  · obtain ⟨-, -, here⟩ := loaded.pass sound buffers filtered
    have data : pipe.passed ++ raw.data = pipe.received := by
      rw [← loaded.received, loaded.waiting_eq buffers]
    have open_yet := loaded.follows.short empty (data.symm ▸ sound) little
    cases here.follows with
    | opened read running measures => exact running
    | complete read through =>
        rw [here.passed] at read
        exact absurd read (open_yet _)

/-- The first test behind the loop. -/
theorem passWanted_loaded (loaded : pipe.Loaded conf)
    (sound : (deframer.status conf.framing.start pipe.received).Sound)
    (passed : pipe.passWanted conf = some next) :
    next.Loaded conf ∧ next.Quiet ∧ pipe.Keeps next := by
  unfold passWanted at passed
  split at passed
  · next none =>
      cases passed
      refine ⟨loaded, quiet_of_allEmpty ?_, .refl _⟩
      rw [none]
      exact fun _ member => absurd member List.not_mem_nil
  · next raw free buffers =>
      split at passed
      · obtain ⟨there, empty, here⟩ := loaded.pass sound buffers passed
        exact ⟨there, quiet_of_allEmpty empty,
          Keeps.trans (by constructor <;> rfl) here.keeps⟩
      · next little =>
          cases passed
          refine ⟨loaded, ?_, .refl _⟩
          by_cases positive : pipe.length ≤ 0
          · exact .inl positive
          · refine .inr fun other member => ?_
            rw [buffers] at member
            rcases List.mem_cons.mp member with rfl | member
            · omega
            · rw [loaded.rest buffers other member, List.length_nil]
              omega

/-- Nothing happens at the first test if nothing has been read since the last one. -/
theorem passWanted_quiet (loaded : pipe.Loaded conf)
    (sound : (deframer.status conf.framing.start pipe.received).Sound)
    (running : pipe.upstreamDone = false) (quiet : pipe.Quiet)
    (passed : pipe.passWanted conf = some next) :
    next.length = pipe.length ∧ (pipe.length ≠ 0 → next = pipe) := by
  unfold passWanted at passed
  split at passed
  · cases passed
    exact ⟨rfl, fun _ => rfl⟩
  · next raw free buffers =>
      split at passed
      · next enough =>
          cases loaded.follows with
          | opened read _ measures =>
              have wants := measures.wants
              rcases quiet with nothing | little
              · omega
              · have := little raw (by rw [buffers]; exact List.mem_cons_self)
                omega
          | complete read through =>
              obtain ⟨zero, -⟩ := through.resolve_left (by rw [running]; simp)
              -- nothing is left behind the end of the response
              have none : pipe.waiting = [] :=
                eq_nil_of_complete read (loaded.received.symm ▸ sound)
              have empty : raw.data = [] := by
                rw [waiting, buffers, List.flatMap_cons] at none
                exact (List.append_eq_nil_iff.mp none).1
              rw [inputFilter_nil conf _ empty] at passed
              cases passed
              exact ⟨rfl, fun some_length => absurd zero some_length⟩
      · cases passed
        exact ⟨rfl, fun _ => rfl⟩

/-- The second test. -/
theorem finishWanted_loaded (loaded : pipe.Loaded conf) : pipe.finishWanted.Loaded conf := by
  unfold finishWanted
  split
  · next zero =>
      refine ⟨?_, loaded.received, loaded.allEmpty, loaded.main⟩
      cases loaded.follows with
      | opened read running measures =>
          have wants := measures.wants
          omega
      | complete read through => exact .complete read (.inl rfl)
  · exact loaded

/-- The third test. -/
theorem passRest_loaded (loaded : pipe.Loaded conf)
    (sound : (deframer.status conf.framing.start pipe.received).Sound)
    (passed : pipe.passRest conf = some next) :
    next.Loaded conf ∧ pipe.Keeps next ∧
      ((pipe.upstreamEof || pipe.upstreamError) = true → next.waiting = []) ∧
      ((pipe.upstreamEof || pipe.upstreamError) = false → next = pipe) := by
  unfold passRest at passed
  split at passed
  · next ended =>
      split at passed
      · next none =>
          cases passed
          refine ⟨loaded, .refl _, fun _ => ?_, fun _ => rfl⟩
          rw [waiting, none, List.flatMap_nil]
      · next raw free buffers =>
          obtain ⟨there, empty, here⟩ := loaded.pass sound buffers passed
          refine ⟨there, Keeps.trans (by constructor <;> rfl) here.keeps, fun _ => ?_,
            fun running => ?_⟩
          · rw [waiting, empty.flatMap]
          · rw [ended] at running
            cases running
  · next running =>
      cases passed
      exact ⟨loaded, .refl _, fun ended => absurd ended running, fun _ => rfl⟩

/-! ## The invariant -/

/-- What a state has besides, by what the pipe is at. -/
def Ready (pipe : Pipe) : Prop :=
  match pipe.control with
  | .idle => pipe.ended = false ∧ pipe.Quiet
  | .reading =>
      pipe.upstreamEof = false ∧ pipe.upstreamError = false ∧
        (pipe.read = false → pipe.upstreamDone = false ∧ pipe.Quiet)
  | .writing =>
      (pipe.upstreamEof = true → pipe.waiting = []) ∧ (pipe.ended = false → pipe.Quiet)
  | .completed =>
      pipe.pieces = [] ∧ pipe.spilled = [] ∧
        (pipe.upstreamDone = true ∨
          (pipe.upstreamEof = true ∧ pipe.length = -1 ∧ pipe.waiting = []))
  | .failed => True

theorem ready_idle (here : pipe.control = .idle) :
    pipe.Ready ↔ pipe.ended = false ∧ pipe.Quiet := by
  rw [Ready, here]

theorem ready_reading (here : pipe.control = .reading) :
    pipe.Ready ↔ pipe.upstreamEof = false ∧ pipe.upstreamError = false ∧
      (pipe.read = false → pipe.upstreamDone = false ∧ pipe.Quiet) := by
  rw [Ready, here]

theorem ready_writing (here : pipe.control = .writing) :
    pipe.Ready ↔ (pipe.upstreamEof = true → pipe.waiting = []) ∧
      (pipe.ended = false → pipe.Quiet) := by
  rw [Ready, here]

theorem ready_completed (here : pipe.control = .completed) :
    pipe.Ready ↔ pipe.pieces = [] ∧ pipe.spilled = [] ∧
      (pipe.upstreamDone = true ∨
        (pipe.upstreamEof = true ∧ pipe.length = -1 ∧ pipe.waiting = [])) := by
  rw [Ready, here]

/-- What every state of a run has that is not a failure. -/
structure Sane (conf : PipeConf) (pipe : Pipe) : Prop where
  loaded : pipe.Loaded conf
  ready : pipe.Ready
  preread : pipe.preread = true → pipe = start conf

/-- Only the reading loop starts with the bytes behind the header. -/
theorem Sane.later (sane : pipe.Sane conf) (elsewhere : pipe.control ≠ .reading) :
    pipe.preread = false := by
  cases first : pipe.preread with
  | false => rfl
  | true => exact absurd (congrArg Pipe.control (sane.preread first)) elsewhere

/-- Nor does the response end before them. -/
theorem Sane.later_of_over (sane : pipe.Sane conf)
    (atEnd : pipe.preread = false ∨ pipe.ended = true) : pipe.preread = false := by
  rcases atEnd with later | atEnd
  · exact later
  · cases first : pipe.preread with
    | false => rfl
    | true =>
        rw [sane.preread first] at atEnd
        cases atEnd

theorem finishWanted_of_ne (some_length : pipe.length ≠ 0) : pipe.finishWanted = pipe :=
  if_neg some_length

/-- What the three tests behind the loop keep and make sure of. -/
structure AfterLoop (conf : PipeConf) (pipe next : Pipe) : Prop where
  loaded : next.Loaded conf
  received : next.received = pipe.received
  preread : next.preread = pipe.preread
  upstreamEof : next.upstreamEof = pipe.upstreamEof
  upstreamError : next.upstreamError = pipe.upstreamError
  upstreamBlocked : next.upstreamBlocked = pipe.upstreamBlocked
  read : next.read = false → pipe.read = false
  waiting : next.upstreamEof = true → next.waiting = []
  quiet : next.ended = false → next.Quiet

theorem ended_eq_false : pipe.ended = false ↔
    pipe.upstreamEof = false ∧ pipe.upstreamError = false ∧ pipe.upstreamDone = false := by
  simp [ended, and_assoc]

theorem processRequest_of_running (running : pipe.ended = false) :
    pipe.processRequest = { pipe with control := .idle } := by
  obtain ⟨eof, error, done⟩ := ended_eq_false.mp running
  simp [processRequest, eof, error, done]

/-- The second test keeps everything but the end. -/
theorem finishWanted_keeps (pipe : Pipe) :
    pipe.finishWanted.received = pipe.received ∧ pipe.finishWanted.preread = pipe.preread ∧
      pipe.finishWanted.upstreamEof = pipe.upstreamEof ∧
      pipe.finishWanted.upstreamError = pipe.upstreamError ∧
      pipe.finishWanted.upstreamBlocked = pipe.upstreamBlocked ∧
      (pipe.finishWanted.read = false → pipe.read = false) ∧
      (pipe.finishWanted.Quiet ↔ pipe.Quiet) := by
  unfold finishWanted
  split
  · exact ⟨rfl, rfl, rfl, rfl, rfl, fun never => (by cases never), Iff.rfl⟩
  · exact ⟨rfl, rfl, rfl, rfl, rfl, id, Iff.rfl⟩

theorem afterLoop_afterLoop (loaded : pipe.Loaded conf)
    (sound : (deframer.status conf.framing.start pipe.received).Sound)
    (left : pipe.afterLoop conf = some next) : AfterLoop conf pipe next := by
  obtain ⟨first, wanted, rest⟩ := Option.bind_eq_some_iff.mp left
  obtain ⟨there, calm, keeps⟩ := passWanted_loaded loaded sound wanted
  obtain ⟨received, preread, eof, error, blocked, read, quiet⟩ := finishWanted_keeps first
  have soundThen : (deframer.status conf.framing.start first.finishWanted.received).Sound := by
    rw [received, keeps.received]
    exact sound
  obtain ⟨last, kept, none, same⟩ := passRest_loaded (finishWanted_loaded there) soundThen rest
  refine ⟨last, ?_, ?_, ?_, ?_, ?_, ?_, ?_, ?_⟩
  · rw [kept.received, received, keeps.received]
  · rw [kept.preread, preread, keeps.preread]
  · rw [kept.upstreamEof, eof, keeps.upstreamEof]
  · rw [kept.upstreamError, error, keeps.upstreamError]
  · rw [kept.upstreamBlocked, blocked, keeps.upstreamBlocked]
  · intro nothing
    rw [kept.read] at nothing
    rw [← keeps.read]
    exact read nothing
  · intro ended
    rw [kept.upstreamEof] at ended
    exact none (by rw [ended, Bool.true_or])
  · intro running
    obtain ⟨notEof, notError, -⟩ := ended_eq_false.mp running
    rw [kept.upstreamEof] at notEof
    rw [kept.upstreamError] at notError
    rw [same (by rw [notEof, notError]; rfl)]
    exact quiet.mpr calm

/-- If nothing has been read in the loop, the tests behind it do nothing, but for an error of
the upstream, or for a response without a body. -/
theorem afterLoop_quiet (loaded : pipe.Loaded conf)
    (sound : (deframer.status conf.framing.start pipe.received).Sound)
    (running : pipe.upstreamDone = false) (quiet : pipe.Quiet) (eof : pipe.upstreamEof = false)
    (left : pipe.afterLoop conf = some next) (nothing : next.read = false) :
    next.upstreamDone = false ∧ next.upstreamEof = false ∧
      (pipe.upstreamError = false → next = pipe) := by
  obtain ⟨first, wanted, rest⟩ := Option.bind_eq_some_iff.mp left
  obtain ⟨length, same⟩ := passWanted_quiet loaded sound running quiet wanted
  have some_length : pipe.length ≠ 0 := by
    intro zero
    obtain ⟨there, -, keeps⟩ := passWanted_loaded loaded sound wanted
    have finished : first.finishWanted.read = true := by
      simp [finishWanted, length.trans zero]
    have kept : first.finishWanted.received = pipe.received := by
      rw [(finishWanted_keeps first).1, keeps.received]
    obtain ⟨-, restKeeps, -⟩ := passRest_loaded (finishWanted_loaded there) (kept ▸ sound) rest
    rw [restKeeps.read, finished] at nothing
    cases nothing
  obtain rfl := same some_length
  rw [finishWanted_of_ne some_length] at rest
  unfold passRest at rest
  split at rest
  · next ended =>
      rw [eof, Bool.false_or] at ended
      split at rest
      · cases rest
        exact ⟨running, eof, fun _ => rfl⟩
      · next raw free buffers =>
          obtain ⟨-, -, here⟩ := loaded.pass sound buffers rest
          refine ⟨loaded.pass_short sound buffers running ?_ rest,
            here.keeps.upstreamEof.trans eof, fun other => ?_⟩
          · cases loaded.follows with
            | opened _ _ measures =>
                rcases measures.wants with positive | toClose
                · have little := quiet.resolve_left (by omega) raw
                  exact .inr (little (by rw [buffers]; exact List.mem_cons_self))
                · exact .inl toClose
            | complete _ through =>
                rw [running] at through
                exact absurd (through.resolve_left (by simp)).1 some_length
          · rw [ended] at other
            cases other
  · cases rest
    exact ⟨running, eof, fun _ => rfl⟩

/-- The loop has been left; if nothing has been read, nothing can be finished. -/
theorem leaveLoop_sane (loaded : pipe.Loaded conf)
    (sound : (deframer.status conf.framing.start pipe.received).Sound)
    (later : pipe.preread = false) (eof : pipe.upstreamEof = true → pipe.read = true)
    (quiet : pipe.read = false → pipe.upstreamDone = false ∧ pipe.Quiet)
    (succeeded : (pipe.leaveLoop conf).control ≠ .failed) :
    (pipe.leaveLoop conf).Sane conf ∧ (pipe.leaveLoop conf).received = pipe.received := by
  unfold leaveLoop at succeeded ⊢
  cases left : pipe.afterLoop conf with
  | none =>
      rw [left] at succeeded
      exact absurd rfl succeeded
  | some last =>
      rw [left] at succeeded
      dsimp only at succeeded ⊢
      have after := afterLoop_afterLoop loaded sound left
      split
      · refine ⟨⟨after.loaded.of_view rfl rfl, ⟨after.waiting, after.quiet⟩, fun first => ?_⟩,
          after.received⟩
        rw [← after.preread] at later
        exact absurd (first.symm.trans later) (by simp)
      · next nothing =>
          rw [if_neg nothing] at succeeded
          rw [Bool.or_eq_true, not_or, Bool.not_eq_true, Bool.not_eq_true] at nothing
          have unread := after.read nothing.1
          obtain ⟨running, calm⟩ := quiet unread
          have notEof : pipe.upstreamEof = false := by
            cases ended : pipe.upstreamEof with
            | false => rfl
            | true => rw [eof ended] at unread; cases unread
          obtain ⟨notDone, lastNotEof, same⟩ :=
            afterLoop_quiet loaded sound running calm notEof left nothing.1
          cases error : last.upstreamError with
          | true =>
              refine absurd ?_ succeeded
              simp [processRequest, notDone, lastNotEof, error]
          | false =>
              obtain rfl := same (after.upstreamError.symm.trans error)
              have notEnded := ended_eq_false.mpr ⟨lastNotEof, error, notDone⟩
              rw [processRequest_of_running notEnded]
              refine ⟨⟨loaded.of_view rfl rfl, ⟨notEnded, calm⟩, fun first => ?_⟩, rfl⟩
              exact absurd (first.symm.trans later) (by simp)

end Pipe

end HttpBackEnd.Nginx
