import HttpBackEnd.Library.Scanner
import HttpBackEnd.Json.Reader

/-! # The reply parser of the redis2 module

The state machine of `common.rl` and `multi_bulk_reply.rl`, and
`ngx_http_redis2_process_reply`, which runs it over the bytes of one read for each
query that still waits for its reply. The counters are those of
`ngx_http_redis2_ctx_t`; they outlive the reply they were read in.

Beyond the code, `processReply_append` says that the parser does not care where a
stream is cut: what it makes of the bytes to come depends only on the bytes so far.
-/

namespace HttpBackEnd.Redis

/-- The states of the machine; the flag tells an element of a multi-bulk reply from a
reply of its own. -/
inductive State where
  | start
  /-- `single_line_reply`, and its `\r`. -/
  | line (nested : Bool)
  | lineCr (nested : Bool)
  /-- After the `$` of a `chunk`. -/
  | bulk (nested : Bool)
  /-- `"$-" digit+`. -/
  | null (nested : Bool)
  | nullDigits (nested : Bool)
  /-- `"$" "0"+ CRLF`. -/
  | zero (nested : Bool)
  | zeroCr (nested : Bool)
  | zeroLf (nested : Bool)
  /-- `"$" chunk_size CRLF chunk_data`. -/
  | size (nested : Bool)
  | sizeCr (nested : Bool)
  | dataStart (nested : Bool)
  | data (nested : Bool)
  /-- The `\r` of `trailer`. -/
  | trailerCr (nested : Bool)
  /-- After the `*` of a `multi_bulk_reply`. -/
  | multi
  | multiMinus
  | multiNull
  | multiZero
  | multiCr
  | count
  | countCr
  /-- In front of a `protected_chunk`. -/
  | element
  | final
deriving DecidableEq, Repr

/-- The machine with the counters of the context; `done` is the local flag of
`ngx_http_redis2_process_reply`. -/
structure Machine where
  cs : State := .start
  done : Bool := false
  chunkSize : UInt64 := 0
  chunkBytesRead : UInt64 := 0
  chunksRead : UInt64 := 0
  chunkCount : UInt64 := 0
deriving DecidableEq, Repr

namespace Machine

variable (machine : Machine)

/-- Go on in another state. -/
def goto (cs : State) : Option Machine := some { machine with cs }

/-- The end of a line or a chunk: an element is counted, and the last one completes
the multi-bulk reply. A chunk of its own is counted too. -/
def finish (nested chunk : Bool) : Machine :=
  let chunksRead := if nested || chunk then machine.chunksRead + 1 else machine.chunksRead
  if nested then
    { machine with cs := .element, chunksRead, done := chunksRead == machine.chunkCount }
  else { machine with cs := .final, chunksRead, done := true }

/-- The first character of a line or a chunk. -/
def head (nested : Bool) (char : UInt8) : Option Machine :=
  if char = 36 then machine.goto (.bulk nested)
  else if char = 43 ∨ char = 45 ∨ char = 58 then machine.goto (.line nested)
  else none

/-- Decimal digits. -/
def isDigit (char : UInt8) : Bool := 48 ≤ char && char ≤ 57

/-- The decimal digits without zero. -/
def isLeadingDigit (char : UInt8) : Bool := 49 ≤ char && char ≤ 57

/-- `read_size` and `read_count`. -/
def readDigit (number : UInt64) (char : UInt8) : UInt64 := number * 10 + (char.toUInt64 - 48)

/-- Go on when the character is the expected one. -/
def expect (expected char : UInt8) (cs : State) : Option Machine :=
  if char = expected then machine.goto cs else none

/-- One character; `none` is the error state. -/
def step (char : UInt8) : Option Machine :=
  match machine.cs with
  | .start => if char = 42 then machine.goto .multi else machine.head false char
  | .line nested => machine.goto (if char = 13 then .lineCr nested else .line nested)
  | .lineCr nested =>
      if char = 10 then some (machine.finish nested false)
      else machine.goto (if char = 13 then .lineCr nested else .line nested)
  | .bulk nested =>
      if char = 45 then machine.goto (.null nested)
      else if char = 48 then machine.goto (.zero nested)
      else if isLeadingDigit char then
        some { machine with
          cs := .size nested, chunkBytesRead := 0, chunkSize := readDigit 0 char }
      else none
  | .null nested => if isDigit char then machine.goto (.nullDigits nested) else none
  | .nullDigits nested =>
      if isDigit char then machine.goto (.nullDigits nested)
      else machine.expect 13 char (.trailerCr nested)
  | .zero nested =>
      if char = 48 then machine.goto (.zero nested) else machine.expect 13 char (.zeroCr nested)
  | .zeroCr nested => machine.expect 10 char (.zeroLf nested)
  | .zeroLf nested => machine.expect 13 char (.trailerCr nested)
  | .size nested =>
      if isDigit char then
        some { machine with chunkSize := readDigit machine.chunkSize char }
      else machine.expect 13 char (.sizeCr nested)
  | .sizeCr nested => machine.expect 10 char (.dataStart nested)
  | .dataStart nested =>
      if machine.chunkBytesRead < machine.chunkSize then
        some { machine with cs := .data nested, chunkBytesRead := machine.chunkBytesRead + 1 }
      else none
  | .data nested =>
      let chunkBytesRead := machine.chunkBytesRead + 1
      if machine.chunkBytesRead < machine.chunkSize then some { machine with chunkBytesRead }
      else if char = 13 ∧ chunkBytesRead = machine.chunkSize + 1 then
        some { machine with cs := .trailerCr nested, chunkBytesRead }
      else none
  | .trailerCr nested => if char = 10 then some (machine.finish nested true) else none
  | .multi =>
      if char = 45 then machine.goto .multiMinus
      else if char = 48 then machine.goto .multiZero
      else if isLeadingDigit char then
        some { machine with cs := .count, chunkCount := readDigit 0 char }
      else none
  | .multiMinus => machine.expect 49 char .multiNull
  | .multiNull => machine.expect 13 char .multiCr
  | .multiZero =>
      if char = 48 then machine.goto .multiZero else machine.expect 13 char .multiCr
  | .multiCr =>
      if char = 10 then
        some { machine with cs := .final, done := machine.chunksRead == machine.chunkCount }
      else none
  | .count =>
      if isDigit char then
        some { machine with chunkCount := readDigit machine.chunkCount char }
      else machine.expect 13 char .countCr
  | .countCr =>
      if char = 10 then some { machine with cs := .element, chunksRead := 0 } else none
  | .element => if machine.chunksRead < machine.chunkCount then machine.head true char else none
  | .final => none

end Machine

/-- What `ngx_http_redis2_ctx_t` keeps between two reads. -/
structure Ctx where
  queryCount : Nat
  machine : Machine := {}
deriving DecidableEq, Repr

/-- What one call of the filter does: the bytes by which `u->buffer.last` moved on,
whether the response was invalid, and the context, unless `u->length` became zero. -/
structure Filtered where
  accepted : Bytes
  invalid : Bool := false
  waiting : Option Ctx := none
deriving DecidableEq, Repr

/-- What the call leaves in `u->out_bufs`: an invalid response takes the whole buffer
back, also what was accepted of earlier replies. -/
def Filtered.output (filtered : Filtered) : Bytes :=
  if filtered.invalid then [] else filtered.accepted

/-- `ngx_http_redis2_process_reply`. -/
def processReply : Nat → Machine → Bytes → Filtered
  | 0, machine, _ => { accepted := [], waiting := some ⟨0, machine⟩ }
  | queryCount + 1, machine, bytes =>
      match Scanner.scan Machine.step { machine with done := false } bytes with
      | (machine, rest) =>
          let accepted := bytes.take (bytes.length - rest.length)
          if machine.done then
            if queryCount = 0 then { accepted }
            else
              let later := processReply queryCount { machine with cs := .start } rest
              { later with accepted := accepted ++ later.accepted }
          else if rest = [] then
            { accepted, waiting := some ⟨queryCount + 1, machine⟩ }
          else { accepted := [], invalid := true }

/-! ## The parser and the cuts -/

namespace Machine

/-- A machine that has set the flag reads no further character. -/
def Settled (machine : Machine) : Prop :=
  machine.done = true → ∀ char, machine.step char = none

theorem finish_settled (machine : Machine) (nested chunk : Bool) :
    (machine.finish nested chunk).Settled := by
  intro done char
  cases nested with
  | true =>
      simp only [finish, Bool.true_or, ↓reduceIte, beq_iff_eq] at done ⊢
      simp [step, done]
  | false => rfl

/-- A step sets the flag only where a reply may end. -/
theorem step_done {machine next : Machine} {char : UInt8}
    (stepped : machine.step char = some next) :
    next.done = machine.done ∨ next.cs = .final ∨
      ∃ nested chunk, next = machine.finish nested chunk := by
  simp only [step, head, expect, goto] at stepped
  split at stepped
  all_goals grind

/-- A machine that starts with the flag down stops reading when it is up. -/
theorem scan_settled (machine : Machine) (running : machine.done = false) (bytes : Bytes) :
    (Scanner.scan step machine bytes).1.Settled := by
  have settled : machine.Settled := by
    intro done
    rw [running] at done
    cases done
  refine Scanner.scan_keeps Settled ?_ settled bytes
  intro state char next settled stepped done other
  rcases step_done stepped with same | final | ⟨nested, chunk, rfl⟩
  · rw [same] at done
    rw [settled done char] at stepped
    cases stepped
  · unfold step
    rw [final]
  · exact finish_settled state nested chunk done other

end Machine

variable {queryCount : Nat} {machine next : Machine} {bytes rest : Bytes}

/-- The bytes of a read up to where the machine stopped. -/
def readOf (bytes rest : Bytes) : Bytes := bytes.take (bytes.length - rest.length)

theorem readOf_append (scanned : Scanner.scan Machine.step machine bytes = (next, rest)) :
    readOf bytes rest ++ rest = bytes := by
  have whole := Scanner.scan_read_append Machine.step machine bytes
  rw [scanned] at whole
  exact whole

section Cases

variable (scanned : Scanner.scan Machine.step { machine with done := false } bytes = (next, rest))
include scanned

/-- The reply to the last query ends in the read. -/
theorem processReply_last (done : next.done = true) :
    processReply 1 machine bytes = { accepted := readOf bytes rest } := by
  simp only [processReply, scanned, done, ↓reduceIte]
  rfl

/-- The reply to another query ends in the read. -/
theorem processReply_more (done : next.done = true) (more : queryCount ≠ 0) :
    processReply (queryCount + 1) machine bytes =
      { processReply queryCount { next with cs := .start } rest with
        accepted := readOf bytes rest ++
          (processReply queryCount { next with cs := .start } rest).accepted } := by
  simp only [processReply, scanned, done, ↓reduceIte, more]
  rfl

/-- The reply goes on after the read. -/
theorem processReply_open (running : next.done = false) (read : rest = []) :
    processReply (queryCount + 1) machine bytes =
      { accepted := bytes, waiting := some ⟨queryCount + 1, next⟩ } := by
  simp [processReply, scanned, running, read]

/-- The reply is invalid. -/
theorem processReply_invalid (running : next.done = false) (refused : rest ≠ []) :
    processReply (queryCount + 1) machine bytes = { accepted := [], invalid := true } := by
  simp [processReply, scanned, running, refused]

end Cases

/-- The ways the machine may stop: the reply has ended, for the last query or for another
one, or it goes on after the read, or it is invalid. -/
theorem scan_cases (queryCount : Nat) (machine : Machine) (bytes : Bytes) :
    ∃ next rest, Scanner.scan Machine.step { machine with done := false } bytes = (next, rest) ∧
      (next.done = true ∧ queryCount = 0 ∨ next.done = true ∧ queryCount ≠ 0 ∨
        next.done = false ∧ rest = [] ∨ next.done = false ∧ rest ≠ []) := by
  obtain ⟨⟨next, rest⟩, scanned⟩ :
      ∃ result, Scanner.scan Machine.step { machine with done := false } bytes = result := ⟨_, rfl⟩
  refine ⟨next, rest, scanned, ?_⟩
  cases done : next.done with
  | true =>
      by_cases last : queryCount = 0
      · exact .inl ⟨rfl, last⟩
      · exact .inr (.inl ⟨rfl, last⟩)
  | false =>
      by_cases read : rest = []
      · exact .inr (.inr (.inl ⟨rfl, read⟩))
      · exact .inr (.inr (.inr ⟨rfl, read⟩))

/-- Whether replies are missing depends on where the machine stopped and on nothing
else. -/
theorem processReply_waiting_congr {other : Machine} {others : Bytes}
    (same : Scanner.scan Machine.step { machine with done := false } bytes =
      Scanner.scan Machine.step { other with done := false } others) :
    (processReply (queryCount + 1) machine bytes).waiting =
      (processReply (queryCount + 1) other others).waiting := by
  obtain ⟨next, rest, scanned,
    ⟨done, rfl⟩ | ⟨done, more⟩ | ⟨running, read⟩ | ⟨running, refused⟩⟩ :=
    scan_cases queryCount machine bytes
  all_goals have scanned' := same.symm.trans scanned
  · rw [processReply_last scanned done, processReply_last scanned' done]
  · rw [processReply_more scanned done more, processReply_more scanned' done more]
  · rw [processReply_open scanned running read, processReply_open scanned' running read]
  · rw [processReply_invalid scanned running refused,
      processReply_invalid scanned' running refused]

/-- The bytes a call moves on are the front of the bytes it was given. -/
theorem processReply_accepted (queryCount : Nat) (machine : Machine) (bytes : Bytes) :
    (processReply queryCount machine bytes).accepted <+: bytes := by
  induction queryCount generalizing machine bytes with
  | zero => exact List.nil_prefix
  | succ queryCount ih =>
      obtain ⟨next, rest, scanned,
        ⟨done, rfl⟩ | ⟨done, more⟩ | ⟨running, read⟩ | ⟨running, refused⟩⟩ :=
        scan_cases queryCount machine bytes
      · rw [processReply_last scanned done]
        exact List.take_prefix _ _
      · rw [processReply_more scanned done more]
        conv_rhs => rw [← readOf_append scanned]
        exact (List.prefix_append_right_inj _).mpr (ih _ rest)
      · rw [processReply_open scanned running read]
      · rw [processReply_invalid scanned running refused]
        exact List.nil_prefix

/-- A call after which replies are missing has moved over all bytes, and the machine
is ready for more. -/
theorem processReply_waiting {ctx : Ctx} (pending : queryCount ≠ 0)
    (waits : (processReply queryCount machine bytes).waiting = some ctx) :
    (processReply queryCount machine bytes).accepted = bytes ∧
      (processReply queryCount machine bytes).invalid = false ∧ ctx.queryCount ≠ 0 ∧
      ctx.machine.done = false := by
  induction queryCount generalizing machine bytes with
  | zero => exact absurd rfl pending
  | succ queryCount ih =>
      obtain ⟨next, rest, scanned,
        ⟨done, rfl⟩ | ⟨done, more⟩ | ⟨running, read⟩ | ⟨running, refused⟩⟩ :=
        scan_cases queryCount machine bytes
      · rw [processReply_last scanned done] at waits
        cases waits
      · rw [processReply_more scanned done more] at waits ⊢
        obtain ⟨accepted, valid, left⟩ := ih more waits
        refine ⟨?_, valid, left⟩
        rw [accepted, readOf_append scanned]
      · rw [processReply_open scanned running read] at waits ⊢
        cases waits
        exact ⟨rfl, rfl, Nat.succ_ne_zero queryCount, running⟩
      · rw [processReply_invalid scanned running refused] at waits
        cases waits

/-- Bytes after the end of a reply stay unread. -/
theorem scan_append_of_done
    (scanned : Scanner.scan Machine.step { machine with done := false } bytes = (next, rest))
    (done : next.done = true) (more : Bytes) :
    Scanner.scan Machine.step { machine with done := false } (bytes ++ more) =
      (next, rest ++ more) := by
  have settled := Machine.scan_settled { machine with done := false } rfl bytes
  rw [scanned] at settled
  by_cases read : rest = []
  · rw [Scanner.scan_append_of_read (by rw [scanned]; exact read), scanned,
      Scanner.scan_stuck (settled done), read, List.nil_append]
  · rw [Scanner.scan_append_of_refused (by rw [scanned]; exact read), scanned]

/-- The context the filter is left with when replies are missing after the bytes. -/
def Ctx.resume (ctx : Ctx) (bytes : Bytes) : Option Ctx :=
  (processReply ctx.queryCount ctx.machine bytes).waiting

/-- **The parser does not see the cuts.** Feeding it bytes and then more bytes comes
to the same as feeding it everything at once. -/
theorem processReply_append (queryCount : Nat) (machine : Machine) (first second : Bytes) :
    (processReply queryCount machine (first ++ second)).waiting =
      (processReply queryCount machine first).waiting.bind (·.resume second) := by
  induction queryCount generalizing machine first with
  | zero => rfl
  | succ queryCount ih =>
      obtain ⟨next, rest, scanned,
        ⟨done, rfl⟩ | ⟨done, more⟩ | ⟨running, read⟩ | ⟨running, refused⟩⟩ :=
        scan_cases queryCount machine first
      · have longer := scan_append_of_done scanned done second
        rw [processReply_last scanned done, processReply_last longer done]
        rfl
      · have longer := scan_append_of_done scanned done second
        rw [processReply_more scanned done more, processReply_more longer done more]
        exact ih _ rest
      · have longer : Scanner.scan Machine.step { machine with done := false } (first ++ second) =
            Scanner.scan Machine.step { next with done := false } second := by
          rw [Scanner.scan_append_of_read (by rw [scanned]; exact read), scanned, ← running]
        rw [processReply_open scanned running read]
        exact processReply_waiting_congr longer
      · have longer : Scanner.scan Machine.step { machine with done := false } (first ++ second) =
            (next, rest ++ second) := by
          rw [Scanner.scan_append_of_refused (by rw [scanned]; exact refused), scanned]
        have more : rest ++ second ≠ [] := List.append_ne_nil_of_left_ne_nil refused second
        rw [processReply_invalid scanned running refused, processReply_invalid longer running more]
        rfl

/-- The parser resumes where it was left. -/
theorem Ctx.resume_append (ctx : Ctx) (first second : Bytes) :
    ctx.resume (first ++ second) = (ctx.resume first).bind (·.resume second) :=
  processReply_append ctx.queryCount ctx.machine first second

/-- Without bytes nothing changes. -/
theorem Ctx.resume_nil {ctx : Ctx} (running : ctx.machine.done = false) :
    ctx.resume [] = some ctx := by
  obtain ⟨queryCount, machine⟩ := ctx
  have same : ({ machine with done := false } : Machine) = machine := by rw [← running]
  cases queryCount with
  | zero => rfl
  | succ queryCount =>
      have scanned : Scanner.scan Machine.step { machine with done := false } [] =
          (machine, []) := by
        rw [same]
        rfl
      rw [resume, processReply_open scanned running rfl]

end HttpBackEnd.Redis
