import Mathlib.Data.Nat.Digits.Lemmas
import Mathlib.Tactic.IntervalCases

/-! # Redis commands and replies on the wire

A command is sent as an array of bulk strings: a count, then each argument with its
length before it. The lengths make the encoding safe for arguments with any bytes:
reading a sequence of encoded commands gives the commands back. A reply is a line, a
bulk string, or an array of these.
-/

namespace Resp

/-- A decimal numeral, as `%uz` prints it. -/
def decimal (number : Nat) : List UInt8 :=
  if number = 0 then [48]
  else (Nat.digits 10 number).reverse.map fun digit => (48 + digit).toUInt8

/-- One argument. -/
def bulk (argument : List UInt8) : List UInt8 :=
  36 :: (decimal argument.length ++ 13 :: 10 :: (argument ++ [13, 10]))

/-- One command. -/
def command (arguments : List (List UInt8)) : List UInt8 :=
  42 :: (decimal arguments.length ++ 13 :: 10 :: arguments.flatMap bulk)

/-- Commands one after the other. -/
def encode (commands : List (List (List UInt8))) : List UInt8 := commands.flatMap command

/-- Read a number up to the end of the line. -/
def readNumber : Nat → List UInt8 → Option (Nat × List UInt8)
  | _, [] => none
  | value, char :: rest =>
      if char = 13 then
        match rest with
        | [] => none
        | next :: rest => if next = 10 then some (value, rest) else none
      else if 48 ≤ char ∧ char ≤ 57 then readNumber (value * 10 + (char.toNat - 48)) rest
      else none

/-- Read one argument. -/
def readBulk : List UInt8 → Option (List UInt8 × List UInt8)
  | [] => none
  | char :: rest => do
      guard (char = 36)
      let (length, rest) ← readNumber 0 rest
      guard (length ≤ rest.length ∧ (rest.drop length).take 2 = [13, 10])
      return (rest.take length, rest.drop (length + 2))

/-- Read a number of arguments. -/
def readBulks : Nat → List UInt8 → Option (List (List UInt8) × List UInt8)
  | 0, rest => some ([], rest)
  | count + 1, rest => do
      let (argument, rest) ← readBulk rest
      let (arguments, rest) ← readBulks count rest
      return (argument :: arguments, rest)

/-- Read one command. -/
def readCommand : List UInt8 → Option (List (List UInt8) × List UInt8)
  | [] => none
  | char :: rest => do
      guard (char = 42)
      let (count, rest) ← readNumber 0 rest
      readBulks count rest

/-- Read commands until nothing is left; the fuel bounds their number. -/
def readCommands : Nat → List UInt8 → Option (List (List (List UInt8)))
  | _, [] => some []
  | 0, _ :: _ => none
  | fuel + 1, char :: rest => do
      let (arguments, rest) ← readCommand (char :: rest)
      let commands ← readCommands fuel rest
      return arguments :: commands

/-- The commands a server reads from a stream. -/
def parse (stream : List UInt8) : Option (List (List (List UInt8))) :=
  readCommands stream.length stream

/-- Digits are read back one by one, up to the end of the line. -/
theorem readNumber_digits {digits : List Nat} (small : ∀ digit ∈ digits, digit < 10) (value : Nat)
    (rest : List UInt8) :
    readNumber value ((digits.map fun digit => (48 + digit).toUInt8) ++ 13 :: 10 :: rest) =
      some (digits.foldl (fun value digit => value * 10 + digit) value, rest) := by
  induction digits generalizing value with
  | nil => rfl
  | cons digit digits ih =>
      have bound : digit < 10 := small digit List.mem_cons_self
      have char : ((48 + digit).toUInt8).toNat = 48 + digit := by
        simp only [Nat.toUInt8, UInt8.toNat_ofNat']
        omega
      have other : (48 + digit).toUInt8 ≠ 13 := by
        intro same
        rw [same] at char
        simp at char
        omega
      have range : (48 : UInt8) ≤ (48 + digit).toUInt8 ∧ (48 + digit).toUInt8 ≤ 57 := by
        rw [UInt8.le_iff_toNat_le, UInt8.le_iff_toNat_le, char]
        simp
        omega
      have shifted : 48 + digit - 48 = digit := by omega
      have tail := ih (fun other member => small other (List.mem_cons_of_mem _ member))
        (value * 10 + digit)
      simp only [List.map_cons, List.cons_append, readNumber, if_neg other, if_pos range, char,
        shifted]
      exact tail

/-- A number is read back from its digits. -/
theorem readNumber_decimal (number : Nat) (rest : List UInt8) :
    readNumber 0 (decimal number ++ 13 :: 10 :: rest) = some (number, rest) := by
  unfold decimal
  split
  · rename_i zero
    rw [zero]
    rfl
  · rw [readNumber_digits]
    · have value : (Nat.digits 10 number).foldr (fun digit value => value * 10 + digit) 0 =
          number := by
        conv_rhs => rw [← Nat.ofDigits_digits 10 number, Nat.ofDigits_eq_foldr]
        congr 1
        funext digit value
        simp only [Nat.cast_id]
        omega
      rw [List.foldl_reverse, value]
    · intro digit member
      exact Nat.digits_lt_base (by decide) (List.mem_reverse.mp member)

/-- A bulk string is read back. -/
theorem readBulk_bulk (argument rest : List UInt8) :
    readBulk (bulk argument ++ rest) = some (argument, rest) := by
  have line : readNumber 0 (decimal argument.length ++ 13 :: 10 :: (argument ++ 13 :: 10 :: rest)) =
      some (argument.length, argument ++ 13 :: 10 :: rest) := readNumber_decimal _ _
  have text : (decimal argument.length ++ 13 :: 10 :: (argument ++ [13, 10])) ++ rest =
      decimal argument.length ++ 13 :: 10 :: (argument ++ 13 :: 10 :: rest) := by
    simp
  have after : (argument ++ 13 :: 10 :: rest).drop (argument.length + 2) = rest := by
    simp [List.drop_append]
  simp only [bulk, List.cons_append, readBulk, text, line]
  simp [after]

theorem readBulks_bulks (arguments : List (List UInt8)) (rest : List UInt8) :
    readBulks arguments.length (arguments.flatMap bulk ++ rest) = some (arguments, rest) := by
  induction arguments with
  | nil => rfl
  | cons argument arguments ih =>
      rw [List.flatMap_cons, List.append_assoc, List.length_cons, readBulks, readBulk_bulk]
      simp [ih]

/-- **A command is read back** from its encoding, whatever follows it. -/
theorem readCommand_command (arguments : List (List UInt8)) (rest : List UInt8) :
    readCommand (command arguments ++ rest) = some (arguments, rest) := by
  have text : (decimal arguments.length ++ 13 :: 10 :: arguments.flatMap bulk) ++ rest =
      decimal arguments.length ++ 13 :: 10 :: (arguments.flatMap bulk ++ rest) := by
    simp
  simp only [command, List.cons_append, readCommand, text, readNumber_decimal]
  simp [readBulks_bulks]

/-- Commands are read back, given enough steps. -/
theorem readCommands_encode {commands : List (List (List UInt8))} {fuel : Nat}
    (enough : commands.length ≤ fuel) : readCommands fuel (encode commands) = some commands := by
  induction commands generalizing fuel with
  | nil => cases fuel <;> rfl
  | cons arguments commands ih =>
      cases fuel with
      | zero => simp at enough
      | succ fuel =>
          have rest := ih (Nat.le_of_succ_le_succ enough)
          have head : readCommand (encode (arguments :: commands)) =
              some (arguments, encode commands) := readCommand_command arguments _
          cases text : encode (arguments :: commands) with
          | nil => simp [encode, command] at text
          | cons char stream =>
              rw [text] at head
              simp [readCommands, head, rest]

/-- A command has at least one byte. -/
theorem length_le_encode (commands : List (List (List UInt8))) :
    commands.length ≤ (encode commands).length := by
  induction commands with
  | nil => exact Nat.le_refl 0
  | cons arguments commands ih =>
      have longer : (encode (arguments :: commands)).length =
          (command arguments).length + (encode commands).length := by
        simp [encode]
      have present : 0 < (command arguments).length := by
        simp [command]
      rw [longer, List.length_cons]
      omega

/-- **Round trip.** A server reads the commands that were encoded. -/
theorem parse_encode (commands : List (List (List UInt8))) :
    parse (encode commands) = some commands :=
  readCommands_encode (length_le_encode commands)

/-! ## Commands that have arrived -/

section Arrived

variable {stream rest : List UInt8} (more : List UInt8)

/-- A number that has been read does not depend on what comes later. -/
theorem readNumber_append {value number : Nat}
    (read : readNumber value stream = some (number, rest)) :
    readNumber value (stream ++ more) = some (number, rest ++ more) := by
  induction stream generalizing value with
  | nil => cases read
  | cons char stream ih =>
      rw [List.cons_append]
      unfold readNumber at read ⊢
      split_ifs at read ⊢
      · cases stream with
        | nil => cases read
        | cons next stream =>
            dsimp only [List.cons_append] at read ⊢
            split_ifs at read ⊢
            cases read
            rfl
      · exact ih read

theorem readBulk_append {argument : List UInt8} (read : readBulk stream = some (argument, rest)) :
    readBulk (stream ++ more) = some (argument, rest ++ more) := by
  cases stream with
  | nil => cases read
  | cons char stream =>
      simp only [readBulk, Option.bind_eq_bind, Option.bind_eq_some_iff, Option.guard_eq_some',
        exists_const] at read
      obtain ⟨dollar, ⟨length, rest'⟩, line, ⟨long, ended⟩, same⟩ := read
      cases same
      dsimp only at long ended ⊢
      have room : length + 2 ≤ rest'.length := by
        have two := congrArg List.length ended
        simp only [List.length_take, List.length_drop, List.length_cons, List.length_nil] at two
        omega
      have within : 2 ≤ (rest'.drop length).length := by
        rw [List.length_drop]
        omega
      have fits : length ≤ (rest' ++ more).length := by
        rw [List.length_append]
        omega
      have crlf : ((rest' ++ more).drop length).take 2 = [13, 10] := by
        rw [List.drop_append_of_le_length long, List.take_append_of_le_length within, ended]
      simp only [List.cons_append, readBulk, readNumber_append more line, dollar]
      simp only [guard, fits, crlf, and_self, ↓reduceIte, Option.bind_eq_bind, Option.pure_def,
        Option.bind_some]
      rw [List.take_append_of_le_length long, List.drop_append_of_le_length room]

theorem readBulks_append {count : Nat} {arguments : List (List UInt8)}
    (read : readBulks count stream = some (arguments, rest)) :
    readBulks count (stream ++ more) = some (arguments, rest ++ more) := by
  induction count generalizing stream arguments with
  | zero =>
      cases read
      rfl
  | succ count ih =>
      simp only [readBulks, Option.bind_eq_bind, Option.bind_eq_some_iff] at read
      obtain ⟨⟨argument, rest'⟩, first, ⟨others, rest''⟩, later, same⟩ := read
      cases same
      simp only [readBulks, readBulk_append more first, Option.bind_eq_bind, Option.bind_some,
        ih later]
      rfl

/-- **A command that has arrived** is read whatever comes after it. -/
theorem readCommand_append {arguments : List (List UInt8)}
    (read : readCommand stream = some (arguments, rest)) :
    readCommand (stream ++ more) = some (arguments, rest ++ more) := by
  cases stream with
  | nil => cases read
  | cons char stream =>
      simp only [readCommand, Option.bind_eq_bind, Option.bind_eq_some_iff, Option.guard_eq_some',
        exists_const] at read
      obtain ⟨star, ⟨count, rest'⟩, line, bulks⟩ := read
      simp [readCommand, readNumber_append more line, star, readBulks_append more bulks]

end Arrived

/-- What has arrived of a sequence of commands, when a command can be read from it: that
command is the first one. -/
theorem readCommand_encode {commands : List (List (List UInt8))} {arrived missing rest : List UInt8}
    {arguments : List (List UInt8)} (whole : arrived ++ missing = encode commands)
    (read : readCommand arrived = some (arguments, rest)) :
    ∃ others, commands = arguments :: others ∧ rest ++ missing = encode others := by
  have longer := readCommand_append missing read
  rw [whole] at longer
  cases commands with
  | nil => cases longer
  | cons first others =>
      rw [show encode (first :: others) = command first ++ encode others from List.flatMap_cons,
        readCommand_command] at longer
      obtain ⟨rfl, left⟩ := Prod.mk.inj (Option.some.inj longer)
      exact ⟨others, rfl, left.symm⟩

/-! ## Numerals -/

/-- The characters of a numeral are decimal digits. -/
theorem decimal_digits (number : Nat) : ∀ char ∈ decimal number, 48 ≤ char ∧ char ≤ 57 := by
  intro char member
  unfold decimal at member
  split at member
  · rw [List.mem_singleton] at member
    subst member
    decide
  · obtain ⟨digit, found, rfl⟩ := List.mem_map.mp member
    have small : digit < 10 := Nat.digits_lt_base (by decide) (List.mem_reverse.mp found)
    interval_cases digit <;> decide

/-- A positive numeral starts with a digit other than zero. -/
theorem decimal_head {number : Nat} (positive : number ≠ 0) :
    ∃ lead rest, decimal number = lead :: rest ∧ 49 ≤ lead ∧ lead ≤ 57 := by
  have digits : Nat.digits 10 number ≠ [] := Nat.digits_ne_nil_iff_ne_zero.mpr positive
  have reversed : (Nat.digits 10 number).reverse =
      (Nat.digits 10 number).getLast digits :: (Nat.digits 10 number).dropLast.reverse := by
    conv_lhs => rw [← List.dropLast_concat_getLast digits]
    rw [List.reverse_append, List.reverse_singleton, List.singleton_append]
  have small : (Nat.digits 10 number).getLast digits < 10 :=
    Nat.digits_lt_base (by decide) (List.getLast_mem digits)
  have lead : (Nat.digits 10 number).getLast digits ≠ 0 :=
    Nat.getLast_digit_ne_zero 10 positive
  refine ⟨_, _, by rw [decimal, if_neg positive, reversed, List.map_cons], ?_⟩
  generalize (Nat.digits 10 number).getLast digits = digit at small lead
  interval_cases digit
  · exact absurd rfl lead
  all_goals decide

/-- Reading a numeral digit by digit in a type of numbers gives its value there. -/
theorem foldl_decimal {α : Type*} (value : Nat → α) (read : α → UInt8 → α)
    (reads : ∀ number digit, digit < 10 →
      read (value number) (48 + digit).toUInt8 = value (number * 10 + digit)) (number : Nat) :
    (decimal number).foldl read (value 0) = value number := by
  have folds : ∀ (digits : List Nat) (start : Nat), (∀ digit ∈ digits, digit < 10) →
      (digits.map fun digit => (48 + digit).toUInt8).foldl read (value start) =
        value (digits.foldl (fun value digit => value * 10 + digit) start) := by
    intro digits
    induction digits with
    | nil => intro start _; rfl
    | cons digit digits ih =>
        intro start small
        rw [List.map_cons, List.foldl_cons, reads start digit (small digit List.mem_cons_self),
          ih _ fun other member => small other (List.mem_cons_of_mem _ member)]
        rfl
  unfold decimal
  split
  · rename_i zero
    have single := folds [0] 0 (by decide)
    rw [zero]
    exact single
  · have digit : ∀ digit ∈ (Nat.digits 10 number).reverse, digit < 10 := fun digit member =>
      Nat.digits_lt_base (by decide) (List.mem_reverse.mp member)
    rw [folds _ 0 digit, List.foldl_reverse]
    congr 1
    conv_rhs => rw [← Nat.ofDigits_digits 10 number, Nat.ofDigits_eq_foldr]
    congr 1
    funext digit value
    simp only [Nat.cast_id]
    omega

/-! ## Replies -/

/-- The text of a line: it has no carriage return and no line feed. -/
structure Line where
  text : List UInt8
  plain : ∀ char ∈ text, char ≠ 13 ∧ char ≠ 10

/-- What a line is. -/
inductive Kind where
  | status
  | error
  | integer
deriving DecidableEq, Repr

/-- The character in front of a line. -/
def Kind.char : Kind → UInt8
  | .status => 43
  | .error => 45
  | .integer => 58

/-- A reply that is no array. -/
inductive Item where
  | line (kind : Kind) (line : Line)
  | bulk (text : List UInt8)
  | null

/-- A reply. -/
inductive Reply where
  | item (item : Item)
  | array (items : List Item)
  | nullArray

def Item.encode : Item → List UInt8
  | .line kind single => kind.char :: (single.text ++ [13, 10])
  | .bulk text => Resp.bulk text
  | .null => [36, 45, 49, 13, 10]

def Reply.encode : Reply → List UInt8
  | .item single => single.encode
  | .array items => 42 :: (decimal items.length ++ 13 :: 10 :: items.flatMap Item.encode)
  | .nullArray => [42, 45, 49, 13, 10]

/-- Replies one after the other. -/
def replyStream (replies : List Reply) : List UInt8 := replies.flatMap Reply.encode

theorem replyStream_cons (reply : Reply) (replies : List Reply) :
    replyStream (reply :: replies) = reply.encode ++ replyStream replies := List.flatMap_cons

theorem replyStream_append (first second : List Reply) :
    replyStream (first ++ second) = replyStream first ++ replyStream second := List.flatMap_append

/-- A reply has at least one byte. -/
theorem Reply.encode_ne_nil (reply : Reply) : reply.encode ≠ [] := by
  rcases reply with ⟨_ | _ | _⟩ | _ | _ <;> simp [Reply.encode, Item.encode, Resp.bulk]

end Resp
