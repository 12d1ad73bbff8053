import HttpBackEnd.Library.Resp
import HttpBackEnd.Redis.Reply

/-! # The reply parser and the replies of a server

Whether the parser finds the end of a sequence of replies. Every reply is read
character by character to its end (`reads_reply`), and every reply but one sets the
flag there: the counters are not reset between the replies of a pipeline, and an empty
array is only taken for complete when they are equal. They are, unless a bulk string
was counted before it. `replies_end_with_last_read_iff` is the exact condition, for
every way of cutting the stream.
-/

namespace HttpBackEnd.Redis

open Resp Scanner

namespace Machine

variable {machine : Machine} {nested : Bool}

/-- The machine is in front of a line or a chunk. -/
inductive Ready (nested : Bool) (machine : Machine) : Prop where
  | alone (single : nested = false) (start : machine.cs = .start)
  | element (inside : nested = true) (front : machine.cs = .element)
      (more : machine.chunksRead < machine.chunkCount)

/-- The first character of a line or a chunk is read by `head`. -/
theorem Ready.step (ready : machine.Ready nested) {char : UInt8} (noArray : char ≠ 42) :
    machine.step char = machine.head nested char := by
  cases ready with
  | alone single start =>
      subst single
      simp only [Machine.step, start, if_neg noArray]
  | element inside front more =>
      subst inside
      simp only [Machine.step, front, if_pos more]

theorem readDigit_ofNat (number digit : Nat) (small : digit < 10) :
    readDigit (UInt64.ofNat number) (48 + digit).toUInt8 = UInt64.ofNat (number * 10 + digit) := by
  have shifted : (48 + digit).toUInt8.toUInt64 - 48 = UInt64.ofNat digit := by
    interval_cases digit <;> decide
  rw [readDigit, shifted, UInt64.ofNat_add, UInt64.ofNat_mul]
  rfl

/-- The digits of a numeral come to the number itself, up to the width of the counter. -/
theorem foldl_readDigit (number : Nat) :
    (decimal number).foldl readDigit 0 = UInt64.ofNat number :=
  foldl_decimal UInt64.ofNat readDigit readDigit_ofNat number

theorem isDigit_decimal {number : Nat} {char : UInt8} (member : char ∈ decimal number) :
    isDigit char = true := by
  obtain ⟨low, high⟩ := decimal_digits number char member
  simp [isDigit, low, high]

theorem ofNat_lt_ofNat {first second : Nat} (small : first < 2 ^ 64) (small' : second < 2 ^ 64) :
    UInt64.ofNat first < UInt64.ofNat second ↔ first < second := by
  rw [UInt64.lt_iff_toNat_lt, UInt64.toNat_ofNat_of_lt' small, UInt64.toNat_ofNat_of_lt' small']

/-! ## Lines and chunks -/

/-- The digits of a size. -/
theorem reads_size {digits : Bytes} (admitted : ∀ char ∈ digits, isDigit char = true)
    (loop : machine.cs = .size nested) :
    Reads step machine digits
      { machine with chunkSize := digits.foldl readDigit machine.chunkSize } := by
  induction digits generalizing machine with
  | nil => exact Reads.nil machine
  | cons char digits ih =>
      have stepped : machine.step char =
          some { machine with chunkSize := readDigit machine.chunkSize char } := by
        simp only [step, loop, admitted char List.mem_cons_self, ↓reduceIte]
      exact Reads.cons stepped
        (ih (fun other member => admitted other (List.mem_cons_of_mem _ member)) loop)

/-- The digits of a count. -/
theorem reads_count {digits : Bytes} (admitted : ∀ char ∈ digits, isDigit char = true)
    (loop : machine.cs = .count) :
    Reads step machine digits
      { machine with chunkCount := digits.foldl readDigit machine.chunkCount } := by
  induction digits generalizing machine with
  | nil => exact Reads.nil machine
  | cons char digits ih =>
      have stepped : machine.step char =
          some { machine with chunkCount := readDigit machine.chunkCount char } := by
        simp only [step, loop, admitted char List.mem_cons_self, ↓reduceIte]
      exact Reads.cons stepped
        (ih (fun other member => admitted other (List.mem_cons_of_mem _ member)) loop)

/-- The bytes of a chunk after the first one. -/
theorem reads_data {text : Bytes} {read size : Nat} (loop : machine.cs = .data nested)
    (far : machine.chunkBytesRead = UInt64.ofNat read)
    (long : machine.chunkSize = UInt64.ofNat size)
    (room : read + text.length ≤ size) (small : size < 2 ^ 64) :
    Reads step machine text
      { machine with chunkBytesRead := UInt64.ofNat (read + text.length) } := by
  induction text generalizing machine read with
  | nil =>
      rw [List.length_nil, Nat.add_zero, ← far]
      exact Reads.nil machine
  | cons char text ih =>
      rw [List.length_cons] at room ⊢
      have below : machine.chunkBytesRead < machine.chunkSize := by
        rw [far, long, ofNat_lt_ofNat (by omega) small]
        omega
      have stepped : machine.step char =
          some { machine with chunkBytesRead := machine.chunkBytesRead + 1 } := by
        simp only [step, loop, below, ↓reduceIte]
      have next : machine.chunkBytesRead + 1 = UInt64.ofNat (read + 1) := by
        rw [far, UInt64.ofNat_add]
        rfl
      have rest : Reads step { machine with chunkBytesRead := machine.chunkBytesRead + 1 } text
          { machine with chunkBytesRead := UInt64.ofNat (read + 1 + text.length) } :=
        ih loop next long (by omega)
      refine Reads.cons stepped ?_
      rw [show read + (text.length + 1) = read + 1 + text.length by omega]
      exact rest

/-- The text of a line. -/
theorem reads_line {text : Bytes} (plain : ∀ char ∈ text, char ≠ 13 ∧ char ≠ 10)
    (loop : machine.cs = .line nested) : Reads step machine text machine := by
  induction text with
  | nil => exact Reads.nil machine
  | cons char text ih =>
      have stepped : machine.step char = some machine := by
        simp only [step, loop, goto, if_neg (plain char List.mem_cons_self).1]
        rw [← loop]
      exact Reads.cons stepped (ih fun other member => plain other (List.mem_cons_of_mem _ member))

end Machine

/-- The lengths and counts of a reply fit into the counters. -/
def ItemFits : Item → Prop
  | .bulk text => text.length < 2 ^ 64
  | _ => True

@[inherit_doc ItemFits]
def ReplyFits : Reply → Prop
  | .item item => ItemFits item
  | .array items => items.length < 2 ^ 64 ∧ ∀ item ∈ items, ItemFits item
  | .nullArray => True

/-- A chunk is counted also outside an array. -/
def IsChunk : Item → Bool
  | .line _ _ => false
  | _ => true

/-- What the machine keeps of the counters of an array. -/
def SameCounts (before after : Machine) : Prop :=
  after.chunksRead = before.chunksRead ∧ after.chunkCount = before.chunkCount

namespace Machine

variable {machine : Machine} {nested : Bool}

/-- A bulk string with at least one byte. -/
theorem reads_bulk {text : Bytes} (loop : machine.cs = .bulk nested) (some' : text ≠ [])
    (small : text.length < 2 ^ 64) :
    ∃ last, Reads step machine (decimal text.length ++ 13 :: 10 :: (text ++ [13, 10]))
      (last.finish nested true) ∧ SameCounts machine last := by
  have positive : text.length ≠ 0 := fun none => some' (List.length_eq_zero_iff.mp none)
  obtain ⟨lead, digits, numeral, low, high⟩ := decimal_head positive
  obtain ⟨char, text, rfl⟩ := List.exists_cons_of_ne_nil some'
  rw [List.length_cons] at *
  have value := foldl_readDigit (text.length + 1)
  rw [numeral, List.foldl_cons] at value
  have leading : isLeadingDigit lead = true := by simp [isLeadingDigit, low, high]
  have noMinus : lead ≠ 45 := by rintro rfl; exact absurd low (by decide)
  have noZero : lead ≠ 48 := by rintro rfl; exact absurd low (by decide)
  let sized : Machine :=
    { machine with cs := .size nested, chunkBytesRead := 0, chunkSize := readDigit 0 lead }
  let full : Machine := { sized with chunkSize := UInt64.ofNat (text.length + 1) }
  have first : machine.step lead = some sized := by
    simp only [step, loop, if_neg noMinus, if_neg noZero, leading, ↓reduceIte]
    rfl
  have size : Reads step sized digits full := by
    have admitted : ∀ other ∈ digits, isDigit other = true := fun other member =>
      isDigit_decimal (numeral ▸ List.mem_cons_of_mem lead member)
    have read : Reads step sized digits
        { sized with chunkSize := digits.foldl readDigit sized.chunkSize } :=
      reads_size admitted rfl
    rw [show digits.foldl readDigit sized.chunkSize = UInt64.ofNat (text.length + 1) from value]
      at read
    exact read
  have return' : full.step 13 = some { full with cs := .sizeCr nested } := by
    simp only [step, full, sized, expect, goto]
    rfl
  have feed : ({ full with cs := .sizeCr nested } : Machine).step 10 =
      some { full with cs := .dataStart nested } := rfl
  let opened : Machine := { full with cs := .data nested, chunkBytesRead := UInt64.ofNat 1 }
  have below : full.chunkBytesRead < full.chunkSize := by
    change UInt64.ofNat 0 < UInt64.ofNat (text.length + 1)
    rw [ofNat_lt_ofNat (by omega) small]
    omega
  have start : ({ full with cs := .dataStart nested } : Machine).step char = some opened := by
    simp only [step, below, ↓reduceIte]
    rfl
  let closed : Machine := { opened with chunkBytesRead := UInt64.ofNat (1 + text.length) }
  have data : Reads step opened text closed :=
    reads_data rfl (show opened.chunkBytesRead = UInt64.ofNat 1 from rfl)
      (show opened.chunkSize = UInt64.ofNat (text.length + 1) from rfl) (by omega) small
  have ended : ¬closed.chunkBytesRead < closed.chunkSize := by
    change ¬UInt64.ofNat (1 + text.length) < UInt64.ofNat (text.length + 1)
    rw [Nat.add_comm]
    exact UInt64.lt_irrefl _
  have exact' : closed.chunkBytesRead + 1 = closed.chunkSize + 1 := by
    change UInt64.ofNat (1 + text.length) + 1 = UInt64.ofNat (text.length + 1) + 1
    rw [Nat.add_comm]
  let last : Machine :=
    { closed with cs := .trailerCr nested, chunkBytesRead := closed.chunkBytesRead + 1 }
  have carriage : closed.step 13 = some last := by
    have cs : closed.cs = .data nested := rfl
    simp only [step, cs, ended, exact', and_self, ↓reduceIte]
    rw [← exact']
  have line : last.step 10 = some (last.finish nested true) := rfl
  refine ⟨last, ?_, rfl, rfl⟩
  rw [numeral]
  exact Reads.cons first (size.append (Reads.cons return' (Reads.cons feed (Reads.cons start
    (data.append (Reads.cons carriage (Reads.cons line (Reads.nil _))))))))

/-- **A line or a chunk is read to its end.** -/
theorem reads_item (ready : machine.Ready nested) {item : Item} (fits : ItemFits item) :
    ∃ last, Reads step machine item.encode (last.finish nested (IsChunk item)) ∧
      SameCounts machine last := by
  cases item with
  | line kind single =>
      have head : machine.step kind.char = machine.goto (.line nested) := by
        cases kind <;> exact ready.step (by decide)
      refine ⟨{ machine with cs := .lineCr nested }, ?_, rfl, rfl⟩
      refine Reads.cons head ((reads_line single.plain rfl).append ?_)
      exact Reads.cons rfl (Reads.cons rfl (Reads.nil _))
  | bulk text =>
      have head : machine.step 36 = machine.goto (.bulk nested) := ready.step (by decide)
      by_cases empty : text = []
      · subst empty
        refine ⟨{ machine with cs := .trailerCr nested }, ?_, rfl, rfl⟩
        exact Reads.cons head (Reads.cons rfl (Reads.cons rfl (Reads.cons rfl (Reads.cons rfl
          (Reads.cons rfl (Reads.nil _))))))
      · obtain ⟨last, read, same⟩ :=
          reads_bulk (show ({ machine with cs := .bulk nested } : Machine).cs = _ from rfl)
            empty fits
        exact ⟨last, Reads.cons head read, same⟩
  | null =>
      have head : machine.step 36 = machine.goto (.bulk nested) := ready.step (by decide)
      refine ⟨{ machine with cs := .trailerCr nested }, ?_, rfl, rfl⟩
      exact Reads.cons head (Reads.cons rfl (Reads.cons rfl (Reads.cons rfl (Reads.cons rfl
        (Reads.nil _)))))

/-! ## Arrays -/

/-- The elements of an array, from a machine that has counted the ones before. -/
theorem reads_items {items : List Item} {read count : Nat} (some' : items ≠ [])
    (fits : ∀ item ∈ items, ItemFits item) (front : machine.cs = .element)
    (far : machine.chunksRead = UInt64.ofNat read) (long : machine.chunkCount = UInt64.ofNat count)
    (all : read + items.length = count) (small : count < 2 ^ 64) :
    ∃ last, Reads step machine (items.flatMap Item.encode) last ∧ last.done = true ∧
      last.chunksRead = last.chunkCount := by
  induction items generalizing machine read with
  | nil => exact absurd rfl some'
  | cons item items ih =>
      rw [List.length_cons] at all
      have below : machine.chunksRead < machine.chunkCount := by
        rw [far, long, ofNat_lt_ofNat (by omega) small]
        omega
      obtain ⟨last, first, same, same'⟩ :=
        reads_item (.element rfl front below) (fits item List.mem_cons_self)
      have counted : (last.finish true (IsChunk item)).chunksRead = UInt64.ofNat (read + 1) := by
        change last.chunksRead + 1 = _
        rw [same, far, UInt64.ofNat_add]
        rfl
      have kept : (last.finish true (IsChunk item)).chunkCount = UInt64.ofNat count :=
        same'.trans long
      rw [List.flatMap_cons]
      by_cases more : items = []
      · subst more
        have full : read + 1 = count := by simpa using all
        refine ⟨_, by rw [List.flatMap_nil, List.append_nil]; exact first, ?_, ?_⟩
        · change (last.chunksRead + 1 == last.chunkCount) = true
          rw [beq_iff_eq]
          exact counted.trans (by rw [full]; exact kept.symm)
        · rw [counted, kept, full]
      · obtain ⟨final, rest, ended⟩ := ih more
          (fun other member => fits other (List.mem_cons_of_mem _ member)) rfl counted kept
          (by omega)
        exact ⟨final, first.append rest, ended⟩

/-- An array with elements. -/
theorem reads_array {items : List Item} (start : machine.cs = .start) (some' : items ≠ [])
    (fits : ReplyFits (.array items)) :
    ∃ last, Reads step machine (Reply.array items).encode last ∧ last.done = true ∧
      last.chunksRead = last.chunkCount := by
  have positive : items.length ≠ 0 := fun none => some' (List.length_eq_zero_iff.mp none)
  obtain ⟨lead, digits, numeral, low, high⟩ := decimal_head positive
  have value := foldl_readDigit items.length
  rw [numeral, List.foldl_cons] at value
  have leading : isLeadingDigit lead = true := by simp [isLeadingDigit, low, high]
  have noMinus : lead ≠ 45 := by rintro rfl; exact absurd low (by decide)
  have noZero : lead ≠ 48 := by rintro rfl; exact absurd low (by decide)
  have star : machine.step 42 = some { machine with cs := .multi } := by
    simp only [step, start, goto, ↓reduceIte]
  let counting : Machine := { machine with cs := .count, chunkCount := readDigit 0 lead }
  let counted : Machine := { counting with chunkCount := UInt64.ofNat items.length }
  have first : ({ machine with cs := .multi } : Machine).step lead = some counting := by
    simp only [step, if_neg noMinus, if_neg noZero, leading, ↓reduceIte]
    rfl
  have count : Reads step counting digits counted := by
    have admitted : ∀ other ∈ digits, isDigit other = true := fun other member =>
      isDigit_decimal (numeral ▸ List.mem_cons_of_mem lead member)
    have read : Reads step counting digits
        { counting with chunkCount := digits.foldl readDigit counting.chunkCount } :=
      reads_count admitted rfl
    rw [show digits.foldl readDigit counting.chunkCount = UInt64.ofNat items.length from value]
      at read
    exact read
  have return' : counted.step 13 = some { counted with cs := .countCr } := by
    simp only [step, counted, counting, expect, goto]
    rfl
  let elements : Machine := { counted with cs := .element, chunksRead := 0 }
  have feed : ({ counted with cs := .countCr } : Machine).step 10 = some elements := rfl
  obtain ⟨last, read, ended⟩ := reads_items some' fits.2 (show elements.cs = .element from rfl)
    (show elements.chunksRead = UInt64.ofNat 0 from rfl) rfl (Nat.zero_add _) fits.1
  refine ⟨last, ?_, ended⟩
  have encoded : (Reply.array items).encode =
      42 :: (lead :: digits ++ 13 :: 10 :: items.flatMap Item.encode) := by
    rw [← numeral]
    rfl
  rw [encoded]
  exact Reads.cons star (Reads.cons first
    (count.append (Reads.cons return' (Reads.cons feed read))))

/-! ## Replies -/

/-- `chunks_read` is ahead of `chunk_count`. -/
def Ahead (machine : Machine) (ahead : Nat) : Prop :=
  machine.chunksRead = machine.chunkCount + UInt64.ofNat ahead

/-- Equal counters are not ahead. -/
theorem Ahead.counts_iff {ahead : Nat} (counters : machine.Ahead ahead) (small : ahead < 2 ^ 64) :
    machine.chunksRead = machine.chunkCount ↔ ahead = 0 := by
  rw [counters]
  constructor
  · intro same
    have zero : UInt64.ofNat ahead = 0 := by
      have difference := congrArg (· - machine.chunkCount) same
      rw [UInt64.sub_self, UInt64.add_comm] at difference
      rw [← difference]
      exact (UInt64.add_sub_cancel _ _).symm
    have value := congrArg UInt64.toNat zero
    rw [UInt64.toNat_ofNat_of_lt' small] at value
    exact value
  · rintro rfl
    exact UInt64.add_zero _

end Machine

/-- An array without elements. -/
def isEmptyArray : Reply → Bool
  | .array items => items.isEmpty
  | .nullArray => true
  | .item _ => false

/-- How far the counters are apart after a reply. -/
def nextAhead (ahead : Nat) : Reply → Nat
  | .item item => if IsChunk item then ahead + 1 else ahead
  | .array items => if items.isEmpty then ahead else 0
  | .nullArray => ahead

/-- No empty array comes while the counters are apart: after a bulk string of its own, with
no array with elements between them. -/
def clear : Nat → List Reply → Bool
  | _, [] => true
  | ahead, reply :: replies =>
      (!isEmptyArray reply || ahead == 0) && clear (nextAhead ahead reply) replies

theorem nextAhead_le (ahead : Nat) (reply : Reply) : nextAhead ahead reply ≤ ahead + 1 := by
  cases reply with
  | item item =>
      change (if IsChunk item then ahead + 1 else ahead) ≤ ahead + 1
      split <;> omega
  | array items =>
      change (if items.isEmpty then ahead else 0) ≤ ahead + 1
      split <;> omega
  | nullArray => exact Nat.le_succ ahead

namespace Machine

variable {machine : Machine} {ahead : Nat}

/-- **A reply is read to its end**, and the flag is set there, unless it is an empty array
and the counters are apart. -/
theorem reads_reply (start : machine.cs = .start) (counters : machine.Ahead ahead)
    (small : ahead < 2 ^ 64) {reply : Reply} (fits : ReplyFits reply) :
    ∃ last, Reads step machine reply.encode last ∧ last.Ahead (nextAhead ahead reply) ∧
      (last.done = true ↔ isEmptyArray reply = false ∨ ahead = 0) ∧
      (last.done = false → last.cs = .final) := by
  have empty : ∀ {middle : Machine}, middle.chunksRead = machine.chunksRead →
      middle.chunkCount = machine.chunkCount →
      ((middle.chunksRead == middle.chunkCount) = true ↔ true = false ∨ ahead = 0) := by
    intro middle read count
    rw [beq_iff_eq, read, count, counters.counts_iff small]
    simp
  have star : machine.step 42 = some { machine with cs := .multi } := by
    simp only [step, start, goto, ↓reduceIte]
  cases reply with
  | item item =>
      obtain ⟨last, read, same, same'⟩ :=
        reads_item (.alone rfl start) (show ItemFits item from fits)
      refine ⟨_, read, ?_, by simp [finish, isEmptyArray], by simp [finish]⟩
      unfold Ahead
      cases chunk : IsChunk item with
      | false =>
          simp only [finish, nextAhead, chunk, Bool.or_self, Bool.false_eq_true, ↓reduceIte]
          rw [same, same', counters]
      | true =>
          simp only [finish, nextAhead, chunk, Bool.or_true, Bool.false_eq_true, ↓reduceIte]
          rw [same, same', counters, UInt64.ofNat_add, UInt64.add_assoc]
          rfl
  | array items =>
      by_cases none : items = []
      · subst none
        refine ⟨{ machine with cs := .final, done := machine.chunksRead == machine.chunkCount },
          ?_, counters, empty rfl rfl, fun _ => rfl⟩
        exact Reads.cons star (Reads.cons rfl (Reads.cons rfl (Reads.cons rfl (Reads.nil _))))
      · obtain ⟨last, read, done, same⟩ := reads_array start none fits
        have some' : items.isEmpty = false := by simpa using none
        refine ⟨last, read, ?_, by simp [done, isEmptyArray, some'], by simp [done]⟩
        simp only [Ahead, nextAhead, some', Bool.false_eq_true, ↓reduceIte]
        rw [same]
        exact (UInt64.add_zero _).symm
  | nullArray =>
      refine ⟨{ machine with cs := .final, done := machine.chunksRead == machine.chunkCount },
        ?_, counters, empty rfl rfl, fun _ => rfl⟩
      exact Reads.cons star (Reads.cons rfl (Reads.cons rfl (Reads.cons rfl (Reads.cons rfl
        (Reads.nil _)))))

end Machine

/-! ## The parser at a prefix of the replies -/

/-- A call that ends the response: nothing is missing and nothing was invalid. -/
def Filtered.Complete (filtered : Filtered) : Prop :=
  filtered.waiting = none ∧ filtered.invalid = false

variable {queryCount ahead : Nat} {machine : Machine} {bytes more : Bytes} {replies : List Reply}

/-- A machine that has not set the flag at the end of a prefix it can go on from. -/
theorem running_of_reads {middle final : Machine} {char : UInt8}
    (read : Reads Machine.step { machine with done := false } bytes middle)
    (rest : Reads Machine.step middle (char :: more) final) : middle.done = false := by
  have settled := Machine.scan_settled { machine with done := false } rfl bytes
  rw [show scan Machine.step { machine with done := false } bytes = (middle, []) from read]
    at settled
  cases done : middle.done with
  | false => rfl
  | true =>
      have stuck : scan Machine.step middle (char :: more) = (middle, char :: more) :=
        scan_cons_none (settled done char)
      unfold Reads at rest
      rw [stuck] at rest
      cases rest

/-- In the middle of a reply the parser waits for more. -/
theorem processReply_within {final : Machine} {char : UInt8}
    (read : Reads Machine.step { machine with done := false } (bytes ++ char :: more) final) :
    ∃ ctx, (processReply (queryCount + 1) machine bytes).waiting = some ctx := by
  obtain ⟨middle, before, after⟩ := read.split
  rw [processReply_open before (running_of_reads before after) rfl]
  exact ⟨_, rfl⟩

/-- A beginning of two texts put together lies within the first one or goes beyond it. -/
theorem prefix_append_cases {first second : Bytes} (front : bytes <+: first ++ second) :
    (∃ char within, first = bytes ++ char :: within) ∨
      ∃ rest, bytes = first ++ rest ∧ rest <+: second := by
  rcases List.prefix_or_prefix_of_prefix front (List.prefix_append first second) with
    ⟨within, short⟩ | ⟨rest, long⟩
  · cases within with
    | nil => exact .inr ⟨[], by rw [← short, List.append_nil, List.append_nil], List.nil_prefix⟩
    | cons char within => exact .inl ⟨char, within, short.symm⟩
  · refine .inr ⟨rest, long.symm, ?_⟩
    rw [← long] at front
    exact (List.prefix_append_right_inj first).mp front

/-- What the machine makes of one reply and the bytes after it. -/
theorem scan_reply {reply : Reply} (start : machine.cs = .start) (counters : machine.Ahead ahead)
    (small : ahead < 2 ^ 64) (fits : ReplyFits reply) (rest : Bytes) :
    ∃ last, scan Machine.step { machine with done := false } (reply.encode ++ rest) =
        (last, rest) ∧ last.Ahead (nextAhead ahead reply) ∧
      last.done = (!isEmptyArray reply || ahead == 0) := by
  obtain ⟨last, read, ahead', done_iff, stuck⟩ :=
    Machine.reads_reply (show ({ machine with done := false } : Machine).cs = .start from start)
      counters small fits
  have halted : ∀ char, last.step char = none := by
    cases done : last.done with
    | true =>
        have settled := Machine.scan_settled { machine with done := false } rfl reply.encode
        rw [show scan Machine.step { machine with done := false } reply.encode = (last, [])
          from read] at settled
        exact settled done
    | false =>
        intro char
        simp only [Machine.step, stuck done]
  refine ⟨last, (read.scan_append rest).trans (scan_stuck halted rest), ahead', ?_⟩
  rw [Bool.eq_iff_iff, done_iff]
  simp

section Parser

variable (some' : replies ≠ []) (fits : ∀ reply ∈ replies, ReplyFits reply)
  (start : machine.cs = .start) (counters : machine.Ahead ahead)
  (small : ahead + replies.length < 2 ^ 64)
include some' fits start counters small

/-- Replies that leave the counters in order are complete at their end. -/
theorem processReply_stream (inOrder : clear ahead replies = true) :
    processReply replies.length machine (replyStream replies) =
      { accepted := replyStream replies } := by
  induction replies generalizing machine ahead with
  | nil => exact absurd rfl some'
  | cons reply replies ih =>
      rw [List.length_cons] at small ⊢
      rw [clear, Bool.and_eq_true] at inOrder
      have bound := nextAhead_le ahead reply
      obtain ⟨last, scanned, ahead', done⟩ := scan_reply start counters (by omega)
        (fits reply List.mem_cons_self) (replyStream replies)
      rw [← replyStream_cons] at scanned
      have read := readOf_append scanned
      rw [inOrder.1] at done
      by_cases single : replies = []
      · subst single
        rw [List.length_nil, processReply_last scanned done]
        exact congrArg (Filtered.mk · false none) ((List.append_nil _).symm.trans read)
      · have others : replies.length ≠ 0 := fun none => single (List.length_eq_zero_iff.mp none)
        have tail := ih single (fun other member => fits other (List.mem_cons_of_mem _ member))
          (show ({ last with cs := .start } : Machine).cs = .start from rfl) ahead' (by omega)
          inOrder.2
        rw [processReply_more scanned done others, tail, read]

/-- On a beginning of the replies the response is complete at their end only, and only if
they leave the counters in order. -/
theorem processReply_complete (front : bytes <+: replyStream replies)
    (complete : (processReply replies.length machine bytes).Complete) :
    bytes = replyStream replies ∧ clear ahead replies = true := by
  induction replies generalizing machine ahead bytes with
  | nil => exact absurd rfl some'
  | cons reply replies ih =>
      rw [List.length_cons] at small complete
      have bound := nextAhead_le ahead reply
      have fits' : ∀ other ∈ replies, ReplyFits other :=
        fun other member => fits other (List.mem_cons_of_mem _ member)
      rw [replyStream_cons] at front ⊢
      rcases prefix_append_cases front with ⟨char, within, encoded⟩ | ⟨rest, rfl, front'⟩
      · obtain ⟨last, read, -⟩ := Machine.reads_reply
          (show ({ machine with done := false } : Machine).cs = .start from start) counters
          (by omega) (fits reply List.mem_cons_self)
        obtain ⟨ctx, missing⟩ := processReply_within (encoded ▸ read)
        rw [complete.1] at missing
        cases missing
      obtain ⟨last, scanned, ahead', allowed⟩ := scan_reply start counters (by omega)
        (fits reply List.mem_cons_self) rest
      rw [List.append_cancel_left_eq, clear, Bool.and_eq_true, ← allowed]
      cases done : last.done with
      | true =>
          by_cases single : replies = []
          · subst single
            exact ⟨List.prefix_nil.mp front', rfl, rfl⟩
          · have others : replies.length ≠ 0 := fun none => single (List.length_eq_zero_iff.mp none)
            rw [processReply_more scanned done others] at complete
            obtain ⟨same, inOrder⟩ := ih single fits'
              (show ({ last with cs := .start } : Machine).cs = .start from rfl) ahead' (by omega)
              front' complete
            exact ⟨same, rfl, inOrder⟩
      | false =>
          by_cases ended : rest = []
          · rw [processReply_open scanned done ended] at complete
            cases complete.1
          · rw [processReply_invalid scanned done ended] at complete
            cases complete.2

end Parser

/-! ## The parser over several reads -/

theorem readOf_append_left {first second rest : Bytes} (left : rest <:+ second) :
    readOf (first ++ second) rest = first ++ readOf second rest := by
  have short := left.length_le
  unfold readOf
  rw [List.length_append, Nat.add_sub_assoc short, List.take_length_add_append]

theorem readOf_append_right {first rest : Bytes} (left : rest <:+ first) (second : Bytes) :
    readOf (first ++ second) (rest ++ second) = readOf first rest := by
  have short := left.length_le
  unfold readOf
  rw [List.length_append, List.length_append, Nat.add_sub_add_right,
    List.take_append_of_le_length (Nat.sub_le _ _)]

/-- A later call sees what is left of the response: it is invalid when the whole is, and
what it accepts comes after what was read before. -/
theorem processReply_continue {ctx : Ctx} {first : Bytes} (pending : queryCount ≠ 0)
    (waits : (processReply queryCount machine first).waiting = some ctx) (second : Bytes) :
    (processReply queryCount machine (first ++ second)).invalid =
        (processReply ctx.queryCount ctx.machine second).invalid ∧
      ((processReply ctx.queryCount ctx.machine second).invalid = false →
        (processReply queryCount machine (first ++ second)).accepted =
          first ++ (processReply ctx.queryCount ctx.machine second).accepted) := by
  induction queryCount generalizing machine first with
  | zero => exact absurd rfl pending
  | succ queryCount ih =>
      obtain ⟨next, rest, scanned,
        ⟨done, rfl⟩ | ⟨done, more⟩ | ⟨running, read⟩ | ⟨running, refused⟩⟩ :=
        scan_cases queryCount machine first
      · rw [processReply_last scanned done] at waits
        cases waits
      · have longer := scan_append_of_done scanned done second
        have left : rest <:+ first := ⟨readOf first rest, readOf_append scanned⟩
        rw [processReply_more scanned done more] at waits
        obtain ⟨valid, accepted⟩ := ih more waits
        rw [processReply_more longer done more]
        refine ⟨valid, fun fine => ?_⟩
        simp only [accepted fine, readOf_append_right left]
        rw [← List.append_assoc, readOf_append scanned]
      · rw [processReply_open scanned running read] at waits
        cases waits
        subst read
        have resumed : scan Machine.step { machine with done := false } (first ++ second) =
            scan Machine.step { next with done := false } second := by
          rw [Reads.scan_append scanned, ← running]
        obtain ⟨last, rest, scanned',
          ⟨done, rfl⟩ | ⟨done, more⟩ | ⟨running', read⟩ | ⟨running', refused⟩⟩ :=
          scan_cases queryCount next second
        all_goals have left : rest <:+ second := ⟨readOf second rest, readOf_append scanned'⟩
        all_goals have whole := resumed.trans scanned'
        · rw [processReply_last whole done, processReply_last scanned' done]
          exact ⟨rfl, fun _ => readOf_append_left left⟩
        · rw [processReply_more whole done more, processReply_more scanned' done more]
          refine ⟨rfl, fun _ => ?_⟩
          simp only [readOf_append_left left, List.append_assoc]
        · rw [processReply_open whole running' read, processReply_open scanned' running' read]
          exact ⟨rfl, fun _ => rfl⟩
        · rw [processReply_invalid whole running' refused,
            processReply_invalid scanned' running' refused]
          exact ⟨rfl, fun valid => absurd valid Bool.true_eq_false.mp⟩
      · rw [processReply_invalid scanned running refused] at waits
        cases waits

/-- The response is complete with a later read when it is with all bytes at once. -/
theorem complete_continue {ctx : Ctx} {first : Bytes} (pending : queryCount ≠ 0)
    (waits : (processReply queryCount machine first).waiting = some ctx) (second : Bytes) :
    (processReply queryCount machine (first ++ second)).Complete ↔
      (processReply ctx.queryCount ctx.machine second).Complete := by
  have valid := (processReply_continue pending waits second).1
  have missing := processReply_append queryCount machine first second
  rw [waits, Option.bind_some] at missing
  unfold Filtered.Complete
  rw [valid, missing]
  rfl

/-- An invalid response stays invalid with more bytes. -/
theorem processReply_invalid_append {first : Bytes}
    (invalid : (processReply queryCount machine first).invalid = true) (second : Bytes) :
    (processReply queryCount machine (first ++ second)).invalid = true := by
  induction queryCount generalizing machine first with
  | zero => cases invalid
  | succ queryCount ih =>
      obtain ⟨next, rest, scanned,
        ⟨done, rfl⟩ | ⟨done, more⟩ | ⟨running, read⟩ | ⟨running, refused⟩⟩ :=
        scan_cases queryCount machine first
      · rw [processReply_last scanned done] at invalid
        cases invalid
      · rw [processReply_more scanned done more] at invalid
        rw [processReply_more (scan_append_of_done scanned done second) done more]
        exact ih invalid
      · rw [processReply_open scanned running read] at invalid
        cases invalid
      · have stuck : (scan Machine.step { machine with done := false } first).2 ≠ [] := by
          rw [scanned]
          exact refused
        have longer := scan_append_of_refused stuck second
        rw [scanned] at longer
        rw [processReply_invalid longer running
          (List.append_ne_nil_of_left_ne_nil refused second)]

/-- The filter called for one read after the other, as long as replies are missing. -/
def Ctx.feed (ctx : Ctx) : List Bytes → Option Ctx
  | [] => some ctx
  | read :: reads => (ctx.resume read).bind (·.feed reads)

theorem Ctx.feed_eq {ctx : Ctx} (ready : ctx.machine.done = false) (pending : ctx.queryCount ≠ 0)
    (reads : List Bytes) : ctx.feed reads = ctx.resume reads.flatten := by
  induction reads generalizing ctx with
  | nil => exact (Ctx.resume_nil ready).symm
  | cons read reads ih =>
      rw [Ctx.feed, List.flatten_cons, Ctx.resume_append]
      cases resumed : ctx.resume read with
      | none => rfl
      | some next =>
          obtain ⟨-, -, more, running⟩ := processReply_waiting pending resumed
          exact ih running more

/-- The context of a request that has sent a number of queries. -/
def freshCtx (queryCount : Nat) : Ctx := ⟨queryCount, {}⟩

/-- **A response that is complete** before the replies to all queries were sent cannot be:
when a read completes it, the replies are all there, and the read ends with the last one. -/
theorem resume_complete {ctx : Ctx} {first second : Bytes} (pending : queryCount ≠ 0)
    (small : queryCount < 2 ^ 64) (resumed : (freshCtx queryCount).resume first = some ctx)
    (fits : ∀ reply ∈ replies, ReplyFits reply) (sent : replies.length ≤ queryCount)
    (front : first ++ second <+: replyStream replies)
    (complete : (processReply ctx.queryCount ctx.machine second).Complete) :
    first ++ second = replyStream replies ∧ replies.length = queryCount ∧
      (processReply ctx.queryCount ctx.machine second).accepted = second := by
  -- the replies still to come, whatever they are
  let later : List Reply := List.replicate (queryCount - replies.length) .nullArray
  have long : (replies ++ later).length = queryCount := by
    rw [List.length_append, List.length_replicate]
    omega
  have some' : replies ++ later ≠ [] := List.ne_nil_of_length_pos (by omega)
  have fits' : ∀ reply ∈ replies ++ later, ReplyFits reply := by
    intro reply member
    rcases List.mem_append.mp member with sent | missing
    · exact fits reply sent
    · rw [List.eq_of_mem_replicate missing]
      trivial
  have whole := (complete_continue pending resumed second).mpr complete
  have counters : ({} : Machine).Ahead 0 := rfl
  obtain ⟨all, inOrder⟩ := processReply_complete some' fits' rfl counters (by omega)
    (front.trans (replyStream_append replies later ▸ List.prefix_append _ _)) (long.symm ▸ whole)
  have none : later = [] := by
    have short := front.length_le
    rw [all, replyStream_append, List.length_append] at short
    have empty : replyStream later = [] := List.length_eq_zero_iff.mp (by omega)
    cases missing : later with
    | nil => rfl
    | cons reply others =>
        rw [missing, replyStream_cons] at empty
        exact absurd (List.append_eq_nil_iff.mp empty).1 reply.encode_ne_nil
  have same : replies ++ later = replies := by rw [none, List.append_nil]
  rw [same] at all long some' fits' inOrder
  refine ⟨all, long, ?_⟩
  have stream := processReply_stream some' fits' rfl counters (by omega) inOrder
  have accepted := (processReply_continue pending resumed second).2 complete.2
  have every : (processReply queryCount (freshCtx queryCount).machine (first ++ second)).accepted =
      first ++ second := by
    rw [all, ← long]
    exact congrArg Filtered.accepted stream
  exact List.append_cancel_left (accepted.symm.trans every)

/-- The replies end with the last of the reads: until then some are missing, and with it
all are there and no byte is left over. -/
def EndsWithLast (queryCount : Nat) (reads : List Bytes) : Prop :=
  ∃ before last ctx, reads = before ++ [last] ∧ (freshCtx queryCount).feed before = some ctx ∧
    processReply ctx.queryCount ctx.machine last = { accepted := last }

/-- **The end of the replies.** However the replies of a server to the queries of a request
are cut into reads, the parser finds their end with the last read, exactly when no empty
array comes after a bulk string with no array with elements between them. -/
theorem replies_end_with_last_read_iff (some' : replies ≠ [])
    (fits : ∀ reply ∈ replies, ReplyFits reply) (small : replies.length < 2 ^ 64)
    {reads : List Bytes} (nonempty : ∀ read ∈ reads, read ≠ [])
    (whole : reads.flatten = replyStream replies) :
    EndsWithLast replies.length reads ↔ clear 0 replies = true := by
  have pending : (freshCtx replies.length).queryCount ≠ 0 := fun none =>
    some' (List.length_eq_zero_iff.mp none)
  have counters : ({} : Machine).Ahead 0 := rfl
  have bound : 0 + replies.length < 2 ^ 64 := by omega
  have ends := fun {bytes : Bytes} (front : bytes <+: replyStream replies) =>
    processReply_complete some' fits rfl counters bound front
  constructor
  · rintro ⟨before, last, ctx, rfl, fed, filtered⟩
    rw [Ctx.feed_eq rfl pending] at fed
    rw [List.flatten_append, List.flatten_singleton] at whole
    have complete := (complete_continue pending fed last).mpr (by rw [filtered]; exact ⟨rfl, rfl⟩)
    exact (ends (whole ▸ List.prefix_rfl) complete).2
  · intro inOrder
    have stream := processReply_stream some' fits rfl counters bound inOrder
    have notEmpty : reads ≠ [] := by
      rintro rfl
      obtain ⟨reply, others, rfl⟩ := List.exists_cons_of_ne_nil some'
      rw [replyStream_cons] at whole
      exact reply.encode_ne_nil (List.append_eq_nil_iff.mp whole.symm).1
    obtain ⟨before, last, rfl⟩ := (List.eq_nil_or_concat reads).resolve_left notEmpty
    rw [List.concat_eq_append] at *
    rw [List.flatten_append, List.flatten_singleton] at whole
    have more : last ≠ [] := nonempty last (by simp)
    cases waits : (processReply replies.length {} before.flatten).waiting with
    | some ctx =>
        have complete : (processReply ctx.queryCount ctx.machine last).Complete := by
          rw [← complete_continue pending waits last, whole]
          exact stream ▸ ⟨rfl, rfl⟩
        have accepted := (processReply_continue pending waits last).2 complete.2
        rw [whole] at accepted
        have all : replyStream replies = before.flatten ++
            (processReply ctx.queryCount ctx.machine last).accepted :=
          (congrArg Filtered.accepted stream).symm.trans accepted
        rw [← whole, List.append_cancel_left_eq] at all
        refine ⟨before, last, ctx, rfl, (Ctx.feed_eq rfl pending before).trans waits, ?_⟩
        obtain ⟨missing, valid⟩ := complete
        revert all missing valid
        cases processReply ctx.queryCount ctx.machine last
        rintro rfl rfl rfl
        rfl
    | none =>
        cases invalid : (processReply replies.length {} before.flatten).invalid with
        | true =>
            have still := processReply_invalid_append invalid last
            rw [whole, stream] at still
            cases still
        | false =>
            have same := (ends ⟨last, whole⟩ ⟨waits, invalid⟩).1
            rw [← whole] at same
            exact absurd (List.self_eq_append_right.mp same) more

/-- The text `OK`. -/
def okText : Line := ⟨[79, 75], by simp⟩

/-- A bulk string and a line in three reads. -/
theorem replies_end_with_last_read_sample :
    EndsWithLast 2 [[36, 49, 13], [10, 97, 13, 10, 43, 79, 75], [13, 10]] := by
  let replies : List Reply := [.item (.bulk [97]), .item (.line .status okText)]
  have some' : replies ≠ [] := List.cons_ne_nil _ _
  have fits : ∀ reply ∈ replies, ReplyFits reply := by simp [replies, ReplyFits, ItemFits]
  exact (replies_end_with_last_read_iff some' fits (by decide) (by decide) (by rfl)).mpr rfl

end HttpBackEnd.Redis
