import HttpBackEnd.Nginx.EventPipe

/-! # What the pipe delivers

Whatever the reads and the passes, the pieces on their way to `r->out` are the body of what
has been given to the input filter, and a response that is finalized with 0 has been
delivered as a whole. All of this is about responses with nothing behind their end.
-/

namespace HttpBackEnd.Nginx

open Deframe

/-! ## Lengths -/

theorem status_untilClose (data : Bytes) :
    deframer.status .untilClose data = .opened .untilClose data := by
  induction data with
  | nil => rfl
  | cons ch data ih =>
      have stepped : deframer.step .untilClose ch = some (.untilClose, [ch]) := rfl
      rw [status_cons_of_step rfl stepped, ih]
      rfl

theorem status_ended_sound {data : Bytes} (sound : (deframer.status .ended data).Sound) :
    data = [] := by
  cases data with
  | nil => rfl
  | cons ch data =>
      rw [status_cons_of_final rfl] at sound
      exact absurd sound Status.not_sound_beyond

namespace Pipe

/-! ## Following the response -/

/-- The pieces on their way to `r->out`, with what it holds. -/
def delivered (pipe : Pipe) : Bytes :=
  pipe.collected ++ pipe.spilled ++ (pipe.pieces.map Piece.bytes).flatten

/-- The bytes read that the input filter has not been given. -/
def waiting (pipe : Pipe) : Bytes := pipe.free.flatMap Raw.data

/-- Where the pipe stands in a response that has not ended. -/
def position (pipe : Pipe) : Framing → FramePosition
  | .contentLength _ => .remaining pipe.length.toNat
  | .connectionClose => .untilClose
  | .chunked => .inChunks pipe.chunked.normalize

/-- `p->length` is what the framing makes of it. -/
def Measures (pipe : Pipe) : Framing → Prop
  | .contentLength _ => 0 < pipe.length
  | .connectionClose => pipe.length = -1
  | .chunked => pipe.length = pipe.chunked.length

/-- What has been given to the input filter is on its way as the body it stands for. -/
inductive Follows (conf : PipeConf) (pipe : Pipe) : Prop
  | opened
      (read : deframer.status conf.framing.start pipe.passed =
        .opened (pipe.position conf.framing) pipe.delivered)
      (running : pipe.upstreamDone = false) (measures : pipe.Measures conf.framing)
  | complete
      (read : deframer.status conf.framing.start pipe.passed = .complete pipe.delivered)
      (through : pipe.upstreamDone = true ∨ (pipe.length = 0 ∧ pipe.passed = []))

/-- Where the pipe stands in the response. -/
def standing (pipe : Pipe) : Bytes × Int × ChunkCtx × Bool :=
  (pipe.passed, pipe.length, pipe.chunked, pipe.upstreamDone)

/-- Following is about where the pipe stands and what is on its way. -/
theorem Follows.of_eq {conf : PipeConf} {pipe next : Pipe} (follows : pipe.Follows conf)
    (same : next.standing = pipe.standing) (delivered : next.delivered = pipe.delivered) :
    next.Follows conf := by
  simp only [standing, Prod.mk.injEq] at same
  obtain ⟨passed, length, chunked, done⟩ := same
  have position : next.position = pipe.position := by
    funext framing
    cases framing <;> simp [Pipe.position, length, chunked]
  have measures : next.Measures = pipe.Measures := by
    funext framing
    cases framing <;> simp [Measures, length, chunked]
  cases follows with
  | opened read running here =>
      rw [← passed, ← delivered, ← position] at read
      exact .opened read (done.trans running) (measures ▸ here)
  | complete read through =>
      rw [← passed, ← delivered] at read
      rw [← done, ← length, ← passed] at through
      exact .complete read through

/-- What the input filter leaves alone. -/
structure Keeps (pipe next : Pipe) : Prop where
  received : next.received = pipe.received
  collected : next.collected = pipe.collected
  spilled : next.spilled = pipe.spilled
  preread : next.preread = pipe.preread
  upstreamEof : next.upstreamEof = pipe.upstreamEof
  upstreamError : next.upstreamError = pipe.upstreamError
  read : next.read = pipe.read
  upstreamBlocked : next.upstreamBlocked = pipe.upstreamBlocked
  control : next.control = pipe.control

theorem Keeps.refl (pipe : Pipe) : pipe.Keeps pipe := by constructor <;> rfl

theorem Keeps.trans {first second third : Pipe} (here : first.Keeps second)
    (later : second.Keeps third) : first.Keeps third where
  received := later.received.trans here.received
  collected := later.collected.trans here.collected
  spilled := later.spilled.trans here.spilled
  preread := later.preread.trans here.preread
  upstreamEof := later.upstreamEof.trans here.upstreamEof
  upstreamError := later.upstreamError.trans here.upstreamError
  read := later.read.trans here.read
  upstreamBlocked := later.upstreamBlocked.trans here.upstreamBlocked
  control := later.control.trans here.control

/-- No free buffer holds anything. -/
def AllEmpty (free : List Raw) : Prop := ∀ raw ∈ free, raw.data = []

theorem allEmpty_addFreeBuf (conf : PipeConf) {pipe : Pipe} (empty : AllEmpty pipe.free)
    (id : Nat) : AllEmpty (pipe.addFreeBuf conf id).free := by
  intro raw member
  unfold addFreeBuf at member
  simp only at member
  split at member
  · simp_all
  · next head tail free =>
      rw [free] at empty
      split at member
      · rcases List.mem_cons.mp member with rfl | member
        · rfl
        · exact empty raw member
      · next other => exact absurd (by rw [empty head List.mem_cons_self]; rfl) other

theorem keeps_addFreeBuf (conf : PipeConf) (pipe : Pipe) (id : Nat) :
    pipe.Keeps (pipe.addFreeBuf conf id) := by
  constructor <;> rfl

theorem map_shadows (id : Nat) (pieces : List Bytes) :
    (shadows id pieces).map Piece.bytes = pieces := by
  fun_induction shadows id pieces with
  | case1 => rfl
  | case2 bytes => rfl
  | case3 bytes rest _ ih => rw [List.map_cons, ih]

variable {conf : PipeConf} {raw : Raw} {pipe next : Pipe}

theorem copyFilter_keeps : pipe.Keeps (pipe.copyFilter raw) := by
  unfold copyFilter
  split
  · exact .refl pipe
  · dsimp only
    split <;> constructor <;> rfl

theorem copyFilter_free : (pipe.copyFilter raw).free = pipe.free := by
  unfold copyFilter
  split
  · rfl
  · dsimp only
    split <;> rfl

/-- Data is left for the input filter only while the response is open. -/
theorem Follows.opened_of_data (follows : pipe.Follows conf) {data : Bytes} (some_data : data ≠ [])
    (sound : (deframer.status conf.framing.start (pipe.passed ++ data)).Sound) :
    deframer.status conf.framing.start pipe.passed =
        .opened (pipe.position conf.framing) pipe.delivered ∧
      pipe.upstreamDone = false ∧ pipe.Measures conf.framing ∧
      deframer.status conf.framing.start (pipe.passed ++ data) =
        (deframer.status (pipe.position conf.framing) data).prepend pipe.delivered := by
  cases follows with
  | opened read running measures =>
      exact ⟨read, running, measures, status_append_of_opened read data⟩
  | complete read through => exact absurd (eq_nil_of_complete read sound) some_data

/-- What the copy filter does to a buffer with data. -/
theorem copyFilter_of_data (pipe : Pipe) (some_data : raw.data ≠ []) :
    (pipe.copyFilter raw).passed = pipe.passed ++ raw.data ∧
      (pipe.copyFilter raw).delivered = pipe.delivered ++ raw.data ∧
      (pipe.copyFilter raw).length =
        (if pipe.length = -1 then -1 else pipe.length - raw.data.length) ∧
      (pipe.copyFilter raw).upstreamDone =
        (pipe.upstreamDone || (pipe.length ≠ -1 && pipe.length ≤ raw.data.length)) := by
  unfold copyFilter
  rw [if_neg (by simpa using some_data)]
  dsimp only
  by_cases toClose : pipe.length = -1
  · simp [toClose, delivered]
  · simp [toClose, delivered]

theorem copyFilter_follows (follows : pipe.Follows conf) (copied : conf.framing ≠ .chunked)
    (sound : (deframer.status conf.framing.start (pipe.passed ++ raw.data)).Sound) :
    (pipe.copyFilter raw).Follows conf ∧
      (pipe.copyFilter raw).passed = pipe.passed ++ raw.data := by
  by_cases empty : raw.data = []
  · have same : pipe.copyFilter raw = pipe := by simp [copyFilter, empty]
    rw [same, empty, List.append_nil]
    exact ⟨follows, rfl⟩
  obtain ⟨read, running, measures, later⟩ := follows.opened_of_data empty sound
  obtain ⟨passed, onTheWay, length, done⟩ := copyFilter_of_data pipe empty
  refine ⟨?_, passed⟩
  rw [later] at sound
  rw [← passed] at later
  cases framing : conf.framing with
  | chunked => exact absurd framing copied
  | connectionClose =>
      rw [framing] at measures later read
      simp only [Measures] at measures
      simp only [position, status_untilClose, Status.prepend, ← onTheWay] at later
      refine .opened ?_ ?_ ?_
      · rw [framing]
        exact later
      · simp [done, running, measures]
      · rw [framing]
        simp [Measures, length, measures]
  | contentLength n =>
      rw [framing] at measures later read sound
      simp only [Measures] at measures
      have notClose : pipe.length ≠ -1 := by omega
      simp only [position, status_remaining] at later sound
      simp only [notClose, ↓reduceIte] at length
      rcases Nat.lt_trichotomy raw.data.length pipe.length.toNat with short | same | long
      · rw [if_pos short] at later
        have left : (pipe.copyFilter raw).length.toNat =
            pipe.length.toNat - raw.data.length := by omega
        refine .opened ?_ ?_ ?_
        · rw [framing, later, position, left, onTheWay]
          rfl
        · rw [done, running]
          have open_yet : ¬pipe.length ≤ raw.data.length := by omega
          simp [open_yet]
        · rw [framing, Measures, length]
          omega
      · rw [if_neg (by omega), if_pos same] at later
        refine .complete ?_ (.inl ?_)
        · rw [framing, later, onTheWay]
          rfl
        · rw [done]
          have reached : pipe.length ≤ raw.data.length := by omega
          simp [notClose, reached]
      · rw [if_neg (by omega), if_neg (by omega)] at sound
        exact absurd sound Status.not_sound_beyond

/-- The state the chunked filter goes to, but for the raw buffer. -/
def chunkedEnd (pipe : Pipe) (raw : Raw) : ChunkEnd → Pipe
  | .again ctx =>
      { pipe.setMain raw.id [] with
        chunked := ctx, length := ctx.length, passed := pipe.passed ++ raw.data }
  | .done rest =>
      { pipe.setMain raw.id rest with
        chunked := {}, upstreamDone := true, passed := pipe.passed ++ raw.data }

/-- What the chunked filter does to a buffer with data. -/
theorem chunkedFilter_of_data (some_data : raw.data ≠ [])
    (filtered : pipe.chunkedFilter conf raw = some next) :
    ∃ pieces ended, chunkedPieces pipe.chunked raw.data = some (pieces, ended) ∧
      ((pieces = [] ∧ next = (pipe.chunkedEnd raw ended).addFreeBuf conf raw.id) ∨
        (pieces ≠ [] ∧ next = { pipe.chunkedEnd raw ended with
          pieces := pipe.pieces ++ shadows raw.id pieces })) := by
  unfold chunkedFilter at filtered
  rw [if_neg (by simpa using some_data)] at filtered
  obtain ⟨⟨pieces, ended⟩, parsed, result⟩ := Option.map_eq_some_iff.mp filtered
  refine ⟨pieces, ended, parsed, ?_⟩
  rw [← result]
  cases ended with
  | again ctx =>
      dsimp only
      split
      · next empty => exact .inl ⟨List.eq_nil_of_length_eq_zero empty, rfl⟩
      · next nonempty => exact .inr ⟨fun empty => nonempty (by rw [empty]; rfl), rfl⟩
  | done rest =>
      dsimp only
      split
      · next empty => exact .inl ⟨List.eq_nil_of_length_eq_zero empty, rfl⟩
      · next nonempty => exact .inr ⟨fun empty => nonempty (by rw [empty]; rfl), rfl⟩

/-- The chunked filter, as a change of the pieces and of where the pipe stands. -/
theorem chunkedFilter_fields (some_data : raw.data ≠ [])
    (filtered : pipe.chunkedFilter conf raw = some next) :
    ∃ pieces ended, chunkedPieces pipe.chunked raw.data = some (pieces, ended) ∧
      pipe.Keeps next ∧ next.passed = pipe.passed ++ raw.data ∧
      next.delivered = pipe.delivered ++ pieces.flatten ∧
      next.chunked = (pipe.chunkedEnd raw ended).chunked ∧
      next.length = (pipe.chunkedEnd raw ended).length ∧
      next.upstreamDone = (pipe.chunkedEnd raw ended).upstreamDone ∧
      (AllEmpty pipe.free → AllEmpty next.free) ∧
      (next.main = (pipe.chunkedEnd raw ended).main ∨ (raw.id = 0 ∧ next.main = [])) := by
  obtain ⟨pieces, ended, parsed, ⟨rfl, rfl⟩ | ⟨-, rfl⟩⟩ := chunkedFilter_of_data some_data filtered
  · refine ⟨[], ended, parsed, ?_, ?_, ?_, rfl, rfl, rfl, ?_, ?_⟩
    · cases ended <;> constructor <;> rfl
    · cases ended <;> rfl
    · cases ended <;> simp [delivered, addFreeBuf, setMain, chunkedEnd]
    · intro empty
      cases ended <;> exact allEmpty_addFreeBuf conf empty raw.id
    · by_cases mainly : raw.id = 0
      · exact .inr ⟨mainly, by simp [addFreeBuf, setMain, mainly]⟩
      · exact .inl (by simp [addFreeBuf, setMain, mainly])
  · refine ⟨pieces, ended, parsed, ?_, ?_, ?_, rfl, rfl, rfl, ?_, .inl rfl⟩
    · cases ended <;> constructor <;> rfl
    · cases ended <;> rfl
    · cases ended <;> simp [delivered, setMain, chunkedEnd, map_shadows]
    · intro empty
      cases ended <;> exact empty

theorem chunkedFilter_follows (follows : pipe.Follows conf) (chunks : conf.framing = .chunked)
    (sound : (deframer.status conf.framing.start (pipe.passed ++ raw.data)).Sound)
    (some_data : raw.data ≠ []) (filtered : pipe.chunkedFilter conf raw = some next) :
    next.Follows conf ∧ (next.main = [] ∨ (next.main = pipe.main ∧ raw.id ≠ 0)) := by
  obtain ⟨pieces, ended, parsed, -, passed, onTheWay, chunked, length, done, -, main⟩ :=
    chunkedFilter_fields some_data filtered
  obtain ⟨read, running, -, later⟩ := follows.opened_of_data some_data sound
  rw [later] at sound
  rw [← passed, chunks, position, status_chunkedPieces parsed, Status.prepend_prepend,
    ← onTheWay] at later
  cases ended with
  | again ctx =>
      refine ⟨.opened ?_ ?_ ?_, ?_⟩
      · rw [chunks, later, position, chunked]
        simp [ChunkEnd.status, Status.prepend, chunkedEnd]
      · exact done.trans running
      · rw [chunks, Measures, length, chunked]
        rfl
      · rcases main with main | ⟨-, main⟩
        · by_cases mainly : raw.id = 0
          · exact .inl (by rw [main]; simp [chunkedEnd, setMain, mainly])
          · exact .inr ⟨by rw [main]; simp [chunkedEnd, setMain, mainly], mainly⟩
        · exact .inl main
  | done rest =>
      have nothing : rest = [] := by
        rw [chunks, position, status_chunkedPieces parsed, Status.prepend_prepend] at sound
        exact status_ended_sound (Status.sound_of_prepend sound)
      subst nothing
      refine ⟨.complete ?_ (.inl done), ?_⟩
      · rw [chunks, later, ChunkEnd.status, status_nil_of_final rfl]
        simp [Status.prepend]
      · rcases main with main | ⟨-, main⟩
        · by_cases mainly : raw.id = 0
          · exact .inl (by rw [main]; simp [chunkedEnd, setMain, mainly])
          · exact .inr ⟨by rw [main]; simp [chunkedEnd, setMain, mainly], mainly⟩
        · exact .inl main

theorem inputFilter_of_copied (copied : conf.framing ≠ .chunked) (pipe : Pipe) (raw : Raw) :
    pipe.inputFilter conf raw = some (pipe.copyFilter raw) := by
  cases framing : conf.framing with
  | chunked => exact absurd framing copied
  | contentLength n => simp [inputFilter, framing]
  | connectionClose => simp [inputFilter, framing]

/-- What the input filter makes of a raw buffer. -/
structure Filtered (conf : PipeConf) (raw : Raw) (pipe next : Pipe) : Prop where
  follows : next.Follows conf
  passed : next.passed = pipe.passed ++ raw.data
  keeps : pipe.Keeps next
  allEmpty : AllEmpty pipe.free → AllEmpty next.free
  main : conf.framing = .chunked →
    next.main = [] ∨ (next.main = pipe.main ∧ (raw.id ≠ 0 ∨ raw.data = []))

/-- **The input filter follows the response.** -/
theorem inputFilter_filtered (filtered : pipe.inputFilter conf raw = some next)
    (follows : pipe.Follows conf)
    (sound : (deframer.status conf.framing.start (pipe.passed ++ raw.data)).Sound) :
    Filtered conf raw pipe next := by
  by_cases chunks : conf.framing = .chunked
  · simp only [inputFilter, chunks] at filtered
    by_cases empty : raw.data = []
    · have same : next = pipe := by simpa [chunkedFilter, empty] using filtered.symm
      subst same
      exact ⟨follows, by rw [empty, List.append_nil], .refl _, id, fun _ => .inr ⟨rfl, .inr empty⟩⟩
    · obtain ⟨_, _, -, keeps, passed, -, -, -, -, allEmpty, -⟩ :=
        chunkedFilter_fields empty filtered
      obtain ⟨here, main⟩ := chunkedFilter_follows follows chunks sound empty filtered
      exact ⟨here, passed, keeps, allEmpty, fun _ => main.imp_right fun ⟨same, other⟩ =>
        ⟨same, .inl other⟩⟩
  · rw [inputFilter_of_copied chunks] at filtered
    cases filtered
    obtain ⟨here, passed⟩ := copyFilter_follows follows chunks sound
    refine ⟨here, passed, copyFilter_keeps, fun empty => ?_, fun other => absurd other chunks⟩
    rw [copyFilter_free]
    exact empty

/-! ## Reading -/

theorem AllEmpty.flatMap {free : List Raw} (empty : AllEmpty free) : free.flatMap Raw.data = [] :=
  List.flatMap_eq_nil_iff.mpr empty

/-- The first buffer is the only one with data. -/
theorem flatMap_of_tail {raw : Raw} {chain : List Raw} (empty : AllEmpty chain) :
    (raw :: chain).flatMap Raw.data = raw.data := by
  rw [List.flatMap_cons, empty.flatMap, List.append_nil]

/-- `u->buffer` is empty, or it is the first buffer and has data to be parsed. -/
def HeldMain (main : Bytes) (chain : List Raw) : Prop :=
  main = [] ∨ ∃ raw rest, chain = raw :: rest ∧ raw.id = 0 ∧ raw.data ≠ []

theorem HeldMain.append {main : Bytes} {chain : List Raw} (held : HeldMain main chain)
    (more : List Raw) : HeldMain main (chain ++ more) := by
  rcases held with none | ⟨raw, rest, rfl, first, data⟩
  · exact .inl none
  · exact .inr ⟨raw, rest ++ more, rfl, first, data⟩

/-- Another buffer, or one without data, leaves `u->buffer` empty. -/
theorem HeldMain.appendMain {raw : Raw} {chain : List Raw} {pipe : Pipe} {taken : Bytes}
    (held : HeldMain pipe.main (raw :: chain)) (other : raw.id ≠ 0 ∨ raw.data ++ taken = []) :
    (pipe.appendMain raw.id taken).main = [] := by
  have none : pipe.main = [] := by
    rcases held with none | ⟨_, _, same, first, data⟩
    · exact none
    · cases same
      rcases other with other | empty
      · exact absurd first other
      · exact absurd (List.append_eq_nil_iff.mp empty).1 data
  by_cases first : raw.id = 0
  · have empty := (List.append_eq_nil_iff.mp (other.resolve_left (not_not.mpr first))).2
    simp [Pipe.appendMain, first, none, empty]
  · simp [Pipe.appendMain, first, none]

/-- The reading loop has been through its bytes. -/
structure Filled (conf : PipeConf) (total : Bytes) (pipe next : Pipe) : Prop where
  follows : next.Follows conf
  passed : next.passed ++ next.waiting = total
  keeps : pipe.Keeps next
  allEmpty : AllEmpty next.free.tail
  main : conf.framing = .chunked → HeldMain next.main next.free

theorem AllEmpty.append {first second : List Raw} (here : AllEmpty first)
    (there : AllEmpty second) : AllEmpty (first ++ second) := by
  intro raw member
  rcases List.mem_append.mp member with member | member
  · exact here raw member
  · exact there raw member

/-- What a round of the loop over the chain can do: nothing is left to be shared out, the
rest goes to the first buffer, or the first buffer becomes full and is passed on. -/
theorem fill_cons_cases {chain : List Raw} {bytes : Bytes}
    (read : fill conf (raw :: chain) bytes pipe = some next) :
    (bytes = [] ∧ next = { pipe with free := raw :: chain ++ pipe.free }) ∨
      (bytes ≠ [] ∧ bytes.length < raw.room ∧
        next = { pipe.appendMain raw.id bytes with
          free := ⟨raw.id, raw.data ++ bytes, raw.room - bytes.length⟩ :: chain ++ pipe.free }) ∨
      (bytes ≠ [] ∧ raw.room ≤ bytes.length ∧
        ∃ mid, (pipe.appendMain raw.id (bytes.take raw.room)).inputFilter conf
            ⟨raw.id, raw.data ++ bytes.take raw.room,
              raw.room - (bytes.take raw.room).length⟩ = some mid ∧
          fill conf chain (bytes.drop raw.room) mid = some next) := by
  rw [fill] at read
  split at read
  · next empty =>
      cases read
      exact .inl ⟨List.eq_nil_of_length_eq_zero empty, rfl⟩
  · next nonempty =>
      have some_bytes : bytes ≠ [] := fun empty => nonempty (by rw [empty]; rfl)
      dsimp only at read
      split at read
      · next full =>
          obtain ⟨mid, passedOn, later⟩ := Option.bind_eq_some_iff.mp read
          exact .inr (.inr ⟨some_bytes, full, mid, passedOn, later⟩)
      · next partly =>
          rw [List.take_of_length_le (Nat.le_of_not_le partly)] at read
          cases read
          exact .inr (.inl ⟨some_bytes, Nat.lt_of_not_le partly, rfl⟩)

/-- A buffer that has become full is passed on; the rest of the chain is empty. -/
theorem fill_passed_on {chain : List Raw} {bytes : Bytes} {room : Nat} {mid : Pipe}
    (passedOn : (pipe.appendMain raw.id (bytes.take raw.room)).inputFilter conf
      ⟨raw.id, raw.data ++ bytes.take raw.room, room⟩ = some mid)
    (follows : pipe.Follows conf)
    (main : conf.framing = .chunked → HeldMain pipe.main (raw :: chain))
    (sound : (deframer.status conf.framing.start (pipe.passed ++ (raw.data ++ bytes))).Sound) :
    mid.Follows conf ∧
      mid.passed ++ bytes.drop raw.room = pipe.passed ++ (raw.data ++ bytes) ∧
      pipe.Keeps mid ∧ (AllEmpty pipe.free → AllEmpty mid.free) ∧
      (conf.framing = .chunked → mid.main = []) := by
  have split : pipe.passed ++ (raw.data ++ bytes) =
      (pipe.passed ++ (raw.data ++ bytes.take raw.room)) ++ bytes.drop raw.room := by
    simp only [List.append_assoc, List.take_append_drop]
  rw [split] at sound
  have here := inputFilter_filtered passedOn (follows.of_eq rfl rfl) (sound_of_append sound)
  refine ⟨here.follows, ?_, Keeps.trans (by constructor <;> rfl) here.keeps, here.allEmpty, ?_⟩
  · rw [here.passed, split]
    rfl
  · intro chunks
    rcases here.main chunks with none | ⟨same, other⟩
    · exact none
    · rw [same]
      exact (main chunks).appendMain other

/-- Bytes read into a chain are given to the input filter or wait in the first free
buffer. -/
theorem fill_filled {chain : List Raw} {bytes : Bytes} {pipe next : Pipe}
    (read : fill conf chain bytes pipe = some next) (follows : pipe.Follows conf)
    (free : AllEmpty pipe.free) (rest : AllEmpty chain.tail)
    (fits : bytes.length ≤ (chain.map Raw.room).sum)
    (main : conf.framing = .chunked → HeldMain pipe.main chain)
    (sound : (deframer.status conf.framing.start
      (pipe.passed ++ (chain.flatMap Raw.data ++ bytes))).Sound) :
    Filled conf (pipe.passed ++ (chain.flatMap Raw.data ++ bytes)) pipe next := by
  induction chain generalizing bytes pipe with
  | nil =>
      cases read
      have nothing : bytes = [] := List.eq_nil_of_length_eq_zero (Nat.le_zero.mp fits)
      subst nothing
      refine ⟨follows, ?_, .refl _, fun raw member => free raw (List.mem_of_mem_tail member), ?_⟩
      · rw [waiting, free.flatMap]
        rfl
      · exact fun chunks => (main chunks).append _
  | cons raw chain ih =>
      rw [List.tail_cons] at rest
      rw [flatMap_of_tail rest] at sound ⊢
      obtain ⟨rfl, rfl⟩ | ⟨some_bytes, -, rfl⟩ | ⟨-, full, mid, passedOn, later⟩ :=
        fill_cons_cases read
      · refine ⟨follows.of_eq rfl rfl, ?_, by constructor <;> rfl, rest.append free, ?_⟩
        · simp [waiting, rest.flatMap, free.flatMap]
        · exact fun chunks => (main chunks).append _
      · refine ⟨follows.of_eq rfl rfl, ?_, by constructor <;> rfl, rest.append free, ?_⟩
        · simp [waiting, appendMain, rest.flatMap, free.flatMap]
        · intro chunks
          by_cases first : raw.id = 0
          · exact .inr ⟨_, _, rfl, first, List.append_ne_nil_of_right_ne_nil _ some_bytes⟩
          · exact .inl ((main chunks).appendMain (.inl first))
      · obtain ⟨there, passed, keeps, allEmpty, none⟩ :=
          fill_passed_on passedOn follows main sound
        have room : (bytes.drop raw.room).length ≤ (chain.map Raw.room).sum := by
          rw [List.map_cons, List.sum_cons] at fits
          rw [List.length_drop]
          omega
        have total : mid.passed ++ (chain.flatMap Raw.data ++ bytes.drop raw.room) =
            pipe.passed ++ (raw.data ++ bytes) := by
          rw [rest.flatMap, List.nil_append, passed]
        have done := ih later there (allEmpty free)
          (fun other member => rest other (List.mem_of_mem_tail member)) room
          (fun chunks => .inl (none chunks)) (total.symm ▸ sound)
        rw [total] at done
        exact ⟨done.follows, done.passed, keeps.trans done.keeps, done.allEmpty, done.main⟩

/-! ## What every state has -/

/-- What has been read is on its way or waits in the first free buffer. -/
structure Loaded (conf : PipeConf) (pipe : Pipe) : Prop where
  follows : pipe.Follows conf
  received : pipe.passed ++ pipe.waiting = pipe.received
  allEmpty : AllEmpty pipe.free.tail
  main : conf.framing = .chunked → HeldMain pipe.main pipe.free

/-- Being loaded is about these fields and what is on its way. -/
theorem Loaded.of_view (loaded : pipe.Loaded conf)
    (same : (next.standing, next.received, next.free, next.main) =
      (pipe.standing, pipe.received, pipe.free, pipe.main))
    (delivered : next.delivered = pipe.delivered) : next.Loaded conf := by
  simp only [Prod.mk.injEq] at same
  obtain ⟨standing, received, free, main⟩ := same
  have passed : next.passed = pipe.passed := congrArg Prod.fst standing
  refine ⟨loaded.follows.of_eq standing delivered, ?_, ?_, ?_⟩
  · rw [passed, waiting, free, received]
    exact loaded.received
  · rw [free]
    exact loaded.allEmpty
  · rw [main, free]
    exact loaded.main

/-- No free buffer holds enough for the input filter. -/
def Quiet (pipe : Pipe) : Prop :=
  pipe.length ≤ 0 ∨ ∀ raw ∈ pipe.free, (raw.data.length : Int) < pipe.length

theorem quiet_of_allEmpty (empty : AllEmpty pipe.free) : pipe.Quiet := by
  by_cases positive : pipe.length ≤ 0
  · exact .inl positive
  · refine .inr fun raw member => ?_
    rw [empty raw member, List.length_nil]
    omega

theorem Loaded.rest {free : List Raw} (loaded : pipe.Loaded conf)
    (buffers : pipe.free = raw :: free) : AllEmpty free := by
  have rest := loaded.allEmpty
  rwa [buffers] at rest

theorem Loaded.waiting_eq {free : List Raw} (loaded : pipe.Loaded conf)
    (buffers : pipe.free = raw :: free) : pipe.waiting = raw.data := by
  rw [waiting, buffers, flatMap_of_tail (loaded.rest buffers)]

/-- The first free buffer goes to the input filter. -/
theorem Loaded.pass {free : List Raw} (loaded : pipe.Loaded conf)
    (sound : (deframer.status conf.framing.start pipe.received).Sound)
    (buffers : pipe.free = raw :: free)
    (filtered : { pipe with free := free : Pipe }.inputFilter conf raw = some next) :
    next.Loaded conf ∧ AllEmpty next.free ∧ Filtered conf raw { pipe with free := free } next := by
  have rest := loaded.rest buffers
  have received : pipe.passed ++ raw.data = pipe.received := by
    rw [← loaded.received, loaded.waiting_eq buffers]
  have here := inputFilter_filtered filtered (loaded.follows.of_eq rfl rfl)
    (received.symm ▸ sound)
  have empty := here.allEmpty rest
  refine ⟨⟨here.follows, ?_, fun other member => empty other (List.mem_of_mem_tail member), ?_⟩,
    empty, here⟩
  · rw [waiting, empty.flatMap, List.append_nil, here.passed, here.keeps.received]
    exact received
  · intro chunks
    refine .inl ?_
    rcases here.main chunks with none | ⟨same, other⟩
    · exact none
    · rw [same]
      rcases loaded.main chunks with none | ⟨_, _, first, mainly, some_data⟩
      · exact none
      · rw [buffers] at first
        cases first
        rcases other with other | other
        · exact absurd mainly other
        · exact absurd other some_data

theorem chunk_length_pos (ctx : ChunkCtx) : 0 < ctx.length := by
  unfold ChunkCtx.length
  split <;> omega

/-- Where the response is open, something is wanted, or whatever comes. -/
theorem Measures.wants {framing : Framing} (measures : pipe.Measures framing) :
    0 < pipe.length ∨ pipe.length = -1 := by
  cases framing with
  | contentLength n => exact .inl measures
  | connectionClose => exact .inr measures
  | chunked =>
      simp only [Measures] at measures
      have := chunk_length_pos pipe.chunked
      omega

/-- Less than is wanted does not end the response. -/
theorem Follows.short (follows : pipe.Follows conf) (some_data : raw.data ≠ [])
    (sound : (deframer.status conf.framing.start (pipe.passed ++ raw.data)).Sound)
    (little : pipe.length = -1 ∨ (raw.data.length : Int) < pipe.length) :
    ∀ body, deframer.status conf.framing.start (pipe.passed ++ raw.data) ≠ .complete body := by
  intro body complete
  obtain ⟨-, -, measures, later⟩ := follows.opened_of_data some_data sound
  rw [later] at complete
  obtain ⟨tail, complete, -⟩ := Status.prepend_eq_complete complete
  cases framing : conf.framing with
  | connectionClose =>
      rw [framing, position, status_untilClose] at complete
      cases complete
  | contentLength n =>
      rw [framing] at measures complete
      simp only [Measures] at measures
      rw [position, status_remaining, if_pos (by omega)] at complete
      cases complete
  | chunked =>
      rw [framing] at measures complete
      simp only [Measures] at measures
      have enough := length_le_of_complete complete
      rw [length_normalize] at enough
      omega

end Pipe

end HttpBackEnd.Nginx
