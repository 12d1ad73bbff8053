import HttpBackEnd.Login.Success
import HttpBackEnd.Redis.Exchange

/-! # The verdict on the reply of Redis

The completion handler looks at the window `u->buffer.pos..last`, and after the first
read that window is no longer the reply: it is what was accepted of the last read. So
the verdict depends on the cuts. `Together` and `Mimicked` say exactly how.
-/

namespace HttpBackEnd.Login

open Nginx Redis

/-- The status of the parent is 200 exactly when that of the subrequest is and the
first two replies are both `+OK`. -/
def VerdictMatches (reads : List Read) (ending : StreamEnd) : Prop :=
  redisStatus (exchange reads ending) = 200 ↔
    (exchange reads ending).status = 200 ∧ okReply <+: stream reads

/-- The first read brings both replies. -/
def Together (reads : List Read) : Prop :=
  ∃ first ∈ reads.head?, okReply.length ≤ first.bytes.length

/-- A later read ends the exchange, and what the parser accepts of it, by itself, reads
like two good replies. -/
def Mimicked (reads : List Read) : Prop :=
  ∃ before read after ctx, reads = before ++ read :: after ∧ before ≠ [] ∧
    firstCtx.resume (stream before) = some ctx ∧
    (stream before).length ≤ subrequestOutputBufferSize ∧
    ctx.Stops (stream before).length read.bytes ∧ redisOk (ctx.accepted read.bytes) = true

theorem redisStatus_eq_ok (completion : Completion) :
    redisStatus completion = 200 ↔ completion.status = 200 ∧ redisOk completion.window = true := by
  unfold redisStatus
  by_cases status : completion.status = 200
  · cases ok : redisOk completion.window with
    | true => simp [status]
    | false => simp [status]
  · simp [status]

/-! ## The read that decides -/

/-- The verdict is good exactly when the read that ends the exchange looks like it. -/
theorem redisStatus_processNonBufferedRequest (ending : StreamEnd) {ctx : Ctx} (ready : ctx.Open)
    (reads : List Read) (collected : Nat) (fits : collected ≤ subrequestOutputBufferSize) :
    redisStatus (processNonBufferedRequest ending ctx collected reads) = 200 ↔
      ∃ before read after next, reads = before ++ read :: after ∧
        ctx.resume (stream before) = some next ∧
        collected + (stream before).length ≤ subrequestOutputBufferSize ∧
        next.Stops (collected + (stream before).length) read.bytes ∧
        redisOk (next.accepted read.bytes) = true := by
  rw [redisStatus_eq_ok]
  constructor
  · induction reads generalizing ctx collected with
    | nil =>
        rintro ⟨_, ok⟩
        cases ending with
        | eof => cases ok
        | failed rc status special => cases ok
    | cons read reads ih =>
        rintro ⟨status, ok⟩
        by_cases stops : ctx.Stops collected read.bytes
        · rw [(processNonBufferedRequest_stops ending reads ready stops).2] at ok
          exact ⟨[], read, reads, ctx, rfl, Ctx.resume_nil ready.2, fits, stops, ok⟩
        · unfold Ctx.Stops at stops
          rw [not_or, Nat.not_lt] at stops
          obtain ⟨resumes, room⟩ := stops
          obtain ⟨next, resumed⟩ := Option.ne_none_iff_exists'.mp resumes
          rw [processNonBufferedRequest_goes_on ready resumed room] at status ok
          obtain ⟨before, last, after, final, rfl, later, size, ends, good⟩ :=
            ih (Ctx.resume_open ready resumed) _ room ⟨status, ok⟩
          have split : stream (read :: before) = read.bytes ++ stream before := List.flatMap_cons
          rw [Nat.add_assoc, ← List.length_append, ← split] at size ends
          refine ⟨read :: before, last, after, final, rfl, ?_, size, ends, good⟩
          rw [split, Ctx.resume_append, resumed]
          exact later
  · rintro ⟨before, read, after, next, rfl, resumed, room, stops, ok⟩
    rw [processNonBufferedRequest_append ready resumed room]
    obtain ⟨status, window⟩ :=
      processNonBufferedRequest_stops ending after (Ctx.resume_open ready resumed) stops
    rw [window]
    exact ⟨status, ok⟩

/-! ## Two good replies -/

/-- One good reply. -/
def okLine : Bytes := ascii "+OK\r\n"

theorem okReply_lines : okReply = okLine ++ okLine := by decide

/-- The machine reads a good reply and nothing of what follows. -/
theorem scan_okLine (machine : Machine) (start : machine.cs = .start) (more : Bytes) :
    Scanner.scan Machine.step { machine with done := false } (okLine ++ more) =
      ({ machine with cs := .final, done := true }, more) := by
  obtain ⟨cs, done, size, read, chunks, count⟩ := machine
  subst start
  exact scan_append_of_done rfl rfl more

theorem readOf_okLine (more : Bytes) : readOf (okLine ++ more) more = okLine := by
  simp [readOf]

/-- Two good replies in one read are accepted, and the exchange is over. -/
theorem firstCtx_okReply (more : Bytes) :
    firstCtx.resume (okReply ++ more) = none ∧ firstCtx.accepted (okReply ++ more) = okReply := by
  have first := scan_okLine {} rfl (okLine ++ more)
  have second := scan_okLine { cs := .start, done := true } rfl more
  have both : processReply 2 {} (okReply ++ more) = { accepted := okReply } := by
    rw [okReply_lines, List.append_assoc, processReply_more first rfl Nat.one_ne_zero,
      processReply_last second rfl, readOf_okLine, readOf_okLine]
  unfold Ctx.resume Ctx.accepted firstCtx
  rw [both]
  exact ⟨rfl, rfl⟩

/-- The second reply in a read of its own. -/
theorem secondCtx_okLine (more : Bytes) : (⟨1, {}⟩ : Ctx).accepted (okLine ++ more) = okLine := by
  rw [Ctx.accepted, processReply_last (scan_okLine {} rfl more) rfl, readOf_okLine]

/-- Short of two good replies the parser waits. -/
theorem firstCtx_short (length : Nat) (short : length < okReply.length) :
    ∃ ctx, firstCtx.resume (okReply.take length) = some ctx := by
  have waits : ∀ length < okReply.length, (firstCtx.resume (okReply.take length)).isSome := by
    decide
  exact Option.isSome_iff_exists.mp (waits length short)

/-- A text the module takes for success starts with `+`. -/
theorem redisOk_head {text bytes : Bytes} (ok : redisOk text = true) (front : text <+: bytes) :
    bytes.head? = some 43 := by
  obtain ⟨more, rfl⟩ := front
  simp only [redisOk, Bool.or_eq_true, decide_eq_true_eq] at ok
  rcases ok with rfl | rfl
  · rfl
  · rfl

/-- After the first read, no read of two good replies is accepted as two good replies. -/
theorem accepted_rest {length : Nat} (positive : 0 < length) (short : length < okReply.length)
    {ctx : Ctx} (resumed : firstCtx.resume (okReply.take length) = some ctx) {bytes : Bytes}
    (rest : okReply.drop length <+: bytes) : redisOk (ctx.accepted bytes) = false := by
  by_cases middle : length = okLine.length
  · have second : firstCtx.resume (okReply.take okLine.length) = some ⟨1, {}⟩ := by decide
    have last : okReply.drop okLine.length = okLine := by decide
    rw [middle, second] at resumed
    rw [middle, last] at rest
    cases resumed
    obtain ⟨more, rfl⟩ := rest
    rw [secondCtx_okLine]
    decide
  · have other : ∀ length < okReply.length, 0 < length → length ≠ okLine.length →
        ∃ char ∈ (okReply.drop length).head?, char ≠ 43 := by
      decide
    obtain ⟨char, ahead, different⟩ := other length short positive middle
    obtain ⟨more, rfl⟩ := rest
    rw [← Bool.not_eq_true]
    intro ok
    have plus := redisOk_head ok (ctx.accepted_prefix _)
    rw [List.head?_append, Option.mem_def.mp ahead] at plus
    exact different (Option.some.inj plus)

/-- Two good replies of which the first read brings only a part get a bad verdict. -/
theorem processNonBufferedRequest_apart (ending : StreamEnd) {before : Bytes} {ctx : Ctx}
    (started : before ≠ []) (short : before.length < okReply.length)
    (resumed : firstCtx.resume before = some ctx) (reads : List Read)
    (good : okReply <+: before ++ stream reads) :
    (processNonBufferedRequest ending ctx before.length reads).status = 200 ∧
      redisOk (processNonBufferedRequest ending ctx before.length reads).window = false := by
  have ready := Ctx.resume_open firstCtx_open resumed
  induction reads generalizing before ctx with
  | nil =>
      have longer := good.length_le
      rw [stream, List.flatMap_nil, List.append_nil] at longer
      omega
  | cons read reads ih =>
      have split : stream (read :: reads) = read.bytes ++ stream reads := List.flatMap_cons
      rw [split, ← List.append_assoc] at good
      by_cases again : (before ++ read.bytes).length < okReply.length
      · have part : before ++ read.bytes = okReply.take (before ++ read.bytes).length :=
          List.prefix_iff_eq_take.mp
            (List.prefix_of_prefix_length_le (List.prefix_append _ _) good (Nat.le_of_lt again))
        obtain ⟨next, waits⟩ := firstCtx_short _ again
        rw [← part] at waits
        have later : ctx.resume read.bytes = some next := by
          rw [Ctx.resume_append, resumed] at waits
          exact waits
        have room : before.length + read.bytes.length ≤ subrequestOutputBufferSize := by
          rw [← List.length_append]
          exact Nat.le_trans (Nat.le_of_lt again) (by decide)
        rw [processNonBufferedRequest_goes_on ready later room, ← List.length_append]
        exact ih (by simp [started]) again waits good (Ctx.resume_open ready later)
      · have whole : okReply <+: before ++ read.bytes :=
          List.prefix_of_prefix_length_le good (List.prefix_append _ _) (Nat.not_lt.mp again)
        have part : before = okReply.take before.length :=
          List.prefix_iff_eq_take.mp
            (List.prefix_of_prefix_length_le (List.prefix_append _ _) whole (Nat.le_of_lt short))
        have rest : okReply.drop before.length <+: read.bytes := by
          have joined : before ++ okReply.drop before.length = okReply := by
            conv_lhs =>
              arg 1
              rw [part]
            exact List.take_append_drop _ _
          rw [← List.prefix_append_right_inj before, joined]
          exact whole
        have finished : ctx.resume read.bytes = none := by
          obtain ⟨more, same⟩ := whole
          have ended := (firstCtx_okReply more).1
          rw [same, Ctx.resume_append, resumed] at ended
          exact ended
        obtain ⟨status, window⟩ :=
          processNonBufferedRequest_stops ending reads ready (.inl finished)
        rw [part] at resumed
        refine ⟨status, ?_⟩
        rw [window]
        exact accepted_rest (List.length_pos_iff.mpr started) short resumed rest

/-! ## Replies that are not two good ones -/

/-- The replies with bare line feeds. -/
def bareLines : Bytes := ascii "+OK\n+OK\n"

/-- For the parser the text with bare line feeds is the beginning of one line. -/
theorem scan_bareLines (more : Bytes) :
    Scanner.scan Machine.step {} (bareLines ++ more) =
      Scanner.scan Machine.step { cs := .line false } more := by
  have read : Scanner.scan Machine.step {} bareLines = ({ cs := .line false }, []) := by decide
  rw [Scanner.scan_append_of_read (by rw [read]), read]

/-- So it is not what is accepted of a first read that ends the exchange. -/
theorem firstCtx_bareLines {bytes : Bytes} (stops : firstCtx.Stops 0 bytes) :
    firstCtx.accepted bytes ≠ bareLines := by
  intro accepted
  have front := firstCtx.accepted_prefix bytes
  rw [accepted] at front
  obtain ⟨more, rfl⟩ := front
  unfold Ctx.accepted firstCtx at accepted
  obtain ⟨next, rest, scanned, ⟨_, last⟩ | ⟨done, two⟩ | ⟨running, read⟩ | ⟨running, refused⟩⟩ :=
    scan_cases 1 {} (bareLines ++ more)
  · exact absurd last Nat.one_ne_zero
  · -- The flag went up after the text, so more than the text has been accepted.
    rw [processReply_more scanned done two] at accepted
    have ahead := scanned.symm.trans (scan_bareLines more)
    have whole := congrArg List.length (readOf_append scanned)
    have part := congrArg List.length accepted
    have left : rest <:+ more := by
      have suffix := Scanner.scan_suffix Machine.step { cs := .line false } more
      rw [← ahead] at suffix
      exact suffix
    simp only [List.length_append] at whole part
    have unread : rest = more := left.eq_of_length_le (by omega)
    have unmoved := Scanner.scan_unmoved (by rw [← ahead]; exact unread)
    rw [← ahead] at unmoved
    dsimp only at unmoved
    rw [unmoved] at done
    cases done
  · rw [processReply_open scanned running read] at accepted
    rcases stops with ended | full
    · rw [Ctx.resume, firstCtx, processReply_open scanned running read] at ended
      cases ended
    · dsimp only at accepted
      rw [accepted] at full
      revert full
      decide
  · rw [processReply_invalid scanned running refused] at accepted
    cases accepted

/-- A first read that ends the exchange with a good verdict brings two good replies. -/
theorem firstCtx_ok {bytes : Bytes} (stops : firstCtx.Stops 0 bytes)
    (ok : redisOk (firstCtx.accepted bytes) = true) : okReply <+: bytes := by
  simp only [redisOk, Bool.or_eq_true, decide_eq_true_eq] at ok
  rcases ok with bare | same
  · exact absurd bare (firstCtx_bareLines stops)
  · have front := firstCtx.accepted_prefix bytes
    rw [same] at front
    exact front

/-- Bytes that are no header are no reply. -/
theorem firstCtx_noHeader {bytes : Bytes} (present : bytes ≠ [])
    (refused : processHeader bytes = false) : firstCtx.resume bytes = none := by
  cases bytes with
  | nil => exact absurd rfl present
  | cons char rest =>
      simp only [processHeader, Bool.or_eq_false_iff, decide_eq_false_iff_not] at refused
      obtain ⟨⟨⟨⟨plus, minus⟩, colon⟩, dollar⟩, star⟩ := refused
      have scanned : Scanner.scan Machine.step {} (char :: rest) = ({}, char :: rest) := by
        apply Scanner.scan_cons_none
        simp [Machine.step, Machine.head, plus, minus, colon, dollar, star]
      rw [Ctx.resume, firstCtx, processReply_invalid scanned rfl (List.cons_ne_nil _ _)]

/-- Without two good replies the verdict is good exactly when a later read mimics
them. -/
theorem redisStatus_exchange_of_other {reads : List Read} (ending : StreamEnd)
    (other : ¬ okReply <+: stream reads) :
    redisStatus (exchange reads ending) = 200 ↔ Mimicked reads := by
  cases reads with
  | nil =>
      constructor
      · intro ok
        cases ending with
        | eof => cases ok
        | failed rc status special =>
            have same := ((redisStatus_eq_ok _).mp ok).1
            change status = 200 at same
            omega
      · rintro ⟨before, read, after, _, same, _⟩
        simp at same
  | cons first reads =>
      cases header : processHeader first.bytes with
      | true =>
          rw [exchange_of_header header,
            redisStatus_processNonBufferedRequest ending firstCtx_open _ 0 (Nat.zero_le _)]
          constructor
          · rintro ⟨before, read, after, ctx, split, resumed, room, stops, ok⟩
            rw [Nat.zero_add] at room stops
            refine ⟨before, read, after, ctx, split, ?_, resumed, room, stops, ok⟩
            rintro rfl
            cases (Ctx.resume_nil firstCtx_open.2).symm.trans resumed
            cases split
            exact other ((firstCtx_ok stops ok).trans (List.prefix_append _ _))
          · rintro ⟨before, read, after, ctx, split, _, resumed, room, stops, ok⟩
            rw [← Nat.zero_add (stream before).length] at room stops
            exact ⟨before, read, after, ctx, split, resumed, room, stops, ok⟩
      | false =>
          rw [exchange_of_noHeader header]
          constructor
          · intro ok
            cases ok
          · rintro ⟨before, read, after, ctx, split, started, resumed, _⟩
            obtain ⟨head, tail, rfl⟩ := List.exists_cons_of_ne_nil started
            cases split
            have start : stream (first :: tail) = first.bytes ++ stream tail := List.flatMap_cons
            rw [start, Ctx.resume_append, firstCtx_noHeader first.nonempty header] at resumed
            cases resumed

/-- With two good replies the verdict is good exactly when the first read brings both. -/
theorem exchange_of_good {reads : List Read} (ending : StreamEnd)
    (good : okReply <+: stream reads) :
    (exchange reads ending).status = 200 ∧
      (redisStatus (exchange reads ending) = 200 ↔ Together reads) := by
  cases reads with
  | nil => exact absurd (List.prefix_nil.mp good) (by decide)
  | cons first reads =>
      have split : stream (first :: reads) = first.bytes ++ stream reads := List.flatMap_cons
      rw [split] at good
      by_cases long : okReply.length ≤ first.bytes.length
      · have whole : okReply <+: first.bytes :=
          List.prefix_of_prefix_length_le good (List.prefix_append _ _) long
        obtain ⟨more, same⟩ := whole
        have header : processHeader first.bytes = true := by
          rw [← same]
          rfl
        have ended := firstCtx_okReply more
        rw [same] at ended
        have stops : firstCtx.Stops 0 first.bytes := .inl ended.1
        obtain ⟨status, window⟩ := processNonBufferedRequest_stops ending reads firstCtx_open stops
        rw [exchange_of_header header, redisStatus_eq_ok]
        refine ⟨status, fun _ => ⟨first, rfl, long⟩, fun _ => ⟨status, ?_⟩⟩
        rw [window, ended.2]
        decide
      · have short := Nat.not_le.mp long
        have part : first.bytes = okReply.take first.bytes.length :=
          List.prefix_iff_eq_take.mp (List.prefix_of_prefix_length_le (List.prefix_append _ _) good
            (Nat.le_of_lt short))
        have header : processHeader first.bytes = true := by
          obtain ⟨length, same⟩ := Nat.exists_eq_succ_of_ne_zero
            (Nat.ne_of_gt (List.length_pos_iff.mpr first.nonempty))
          rw [part, same]
          rfl
        obtain ⟨ctx, resumed⟩ := firstCtx_short _ short
        rw [← part] at resumed
        have room : 0 + first.bytes.length ≤ subrequestOutputBufferSize := by
          rw [Nat.zero_add]
          exact first.fits
        obtain ⟨status, verdict⟩ :=
          processNonBufferedRequest_apart ending first.nonempty short resumed reads good
        rw [exchange_of_header header, processNonBufferedRequest_goes_on firstCtx_open resumed room,
          Nat.zero_add, redisStatus_eq_ok, verdict]
        refine ⟨status, fun ok => absurd ok.2 Bool.false_ne_true, ?_⟩
        rintro ⟨read, same, brings⟩
        cases same
        exact absurd brings long

/-- **The verdict on the reply of Redis.** It is the right one exactly when two good
replies come in one read, or no later read mimics two good replies. -/
theorem redis_verdict_iff (reads : List Read) (ending : StreamEnd) :
    VerdictMatches reads ending ↔
      if okReply <+: stream reads then Together reads else ¬ Mimicked reads := by
  unfold VerdictMatches
  by_cases good : okReply <+: stream reads
  · obtain ⟨status, verdict⟩ := exchange_of_good ending good
    rw [if_pos good, verdict]
    exact ⟨fun same => same.mpr ⟨status, good⟩, fun together => ⟨fun _ => ⟨status, good⟩,
      fun _ => together⟩⟩
  · rw [if_neg good, redisStatus_exchange_of_other ending good]
    exact ⟨fun same mimicked => good (same.mp mimicked).2, fun different =>
      ⟨fun mimicked => absurd mimicked different, fun found => absurd found.2 good⟩⟩

/-- A good reply by itself. -/
def okRead : Read := ⟨okLine, by decide, by decide⟩

/-- When each of two good replies comes in a read of its own, the verdict is 500. -/
theorem redis_verdict_two_reads : ¬ ∀ reads ending, VerdictMatches reads ending := by
  intro right
  have verdict : redisStatus (exchange [okRead, okRead] .eof) = 500 := by decide
  have status : (exchange [okRead, okRead] .eof).status = 200 := by decide
  have good : okReply <+: stream [okRead, okRead] := by decide
  have answered := (right [okRead, okRead] .eof).mpr ⟨status, good⟩
  rw [verdict] at answered
  cases answered

end HttpBackEnd.Login
