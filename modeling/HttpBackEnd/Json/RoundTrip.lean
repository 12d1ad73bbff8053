import Mathlib.Data.List.TakeWhile
import HttpBackEnd.Json.Writer

/-! # What the writers write, the reader reads

The two halves of the bundled rapidjson: a value without doubles is read back from its
text as it was, whether the text is pretty or not.
-/

namespace HttpBackEnd.Json

/-! ## Strings -/

/-- A hexadecimal digit is read back. -/
theorem hexDigit_hexDigits :
    ∀ {value : Nat}, value < 16 → hexDigit (hexDigits value) = some value := by
  decide

/-- A control character is read back from its escape. -/
theorem parseHex4_control {char : UInt8} (control : char < 32) :
    parseHex4 48 48 (hexDigits (char.toNat / 16)) (hexDigits (char.toNat % 16)) =
      some char.toNat := by
  have small : char.toNat < 32 := UInt8.lt_iff_toNat_lt.mp control
  have high := hexDigit_hexDigits (show char.toNat / 16 < 16 by omega)
  have low := hexDigit_hexDigits (show char.toNat % 16 < 16 by omega)
  have zero : hexDigit 48 = some 0 := rfl
  simp only [parseHex4, zero, high, low, Option.bind_eq_bind, Option.bind_some, Option.pure_def]
  congr 1
  omega

/-- Every byte is read back from what is written for it. -/
theorem parseStringToStream_writeChar (char : UInt8) (stream : Bytes) :
    parseStringToStream (writeChar char ++ stream) = put [char] (parseStringToStream stream) := by
  unfold writeChar
  split_ifs with quote backslash backspace tab newline formfeed return' control
  · subst quote
    rfl
  · subst backslash
    rfl
  · subst backspace
    rfl
  · subst tab
    rfl
  · subst newline
    rfl
  · subst formfeed
    rfl
  · subst return'
    rfl
  · have small : char.toNat < 32 := UInt8.lt_iff_toNat_lt.mp control
    have hex := parseHex4_control control
    have text :
        ascii "\\u00" ++ [hexDigits (char.toNat / 16), hexDigits (char.toNat % 16)] ++ stream =
        92 :: 117 :: 48 :: 48 :: hexDigits (char.toNat / 16) :: hexDigits (char.toNat % 16) ::
          stream := rfl
    have letter : escape 117 = none := rfl
    have plain : ¬(0xD800 ≤ char.toNat ∧ char.toNat ≤ 0xDBFF) := by omega
    have ascii : char.toNat ≤ 0x7F := by omega
    rw [text, parseStringToStream]
    simp only [↓reduceIte, letter, hex, if_neg plain, encodeUtf8, if_pos ascii]
    rw [show char.toNat.toUInt8 = char from UInt8.ofNat_toNat]
  · rw [List.singleton_append, parseStringToStream.eq_def]
    simp only [if_neg backslash, if_neg quote, if_neg control]

/-- **Strings come back.** -/
theorem parseStringToStream_quote (text rest : Bytes) :
    parseStringToStream (text.flatMap writeChar ++ 34 :: rest) = some (text, rest) := by
  induction text with
  | nil =>
      rw [List.flatMap_nil, List.nil_append, parseStringToStream.eq_def]
      rfl
  | cons char text ih =>
      rw [List.flatMap_cons, List.append_assoc, parseStringToStream_writeChar, ih]
      rfl

/-! ## Numbers -/

/-- The bytes of digits, as they are read. -/
def AllDigits (digits : Bytes) : Prop := ∀ char ∈ digits, isDigit char = true

/-- The number a sequence of digits continues to. -/
def continued (value : Nat) (digits : Bytes) : Nat :=
  digits.foldl (fun value char => value * 10 + (char.toNat - 48)) value

theorem le_continued (value : Nat) (digits : Bytes) : value ≤ continued value digits := by
  induction digits generalizing value with
  | nil => exact Nat.le_refl value
  | cons char digits ih =>
      have later : value * 10 + (char.toNat - 48) ≤ continued value (char :: digits) := ih _
      omega

/-- The loops read digits up to their limit and leave the others, and nothing is lost. -/
theorem readInteger_digits (limit value count : Nat) {digits rest : Bytes}
    (all : AllDigits digits) (ends : digitAhead rest = false) :
    ∃ reached read left, readInteger limit value count (digits ++ rest) =
        (reached, read, left ++ rest) ∧ AllDigits left ∧
      continued reached left = continued value digits ∧
      (continued value digits ≤ limit → left = []) := by
  induction digits generalizing value count with
  | nil =>
      refine ⟨value, count, [], ?_, all, rfl, fun _ => rfl⟩
      cases rest with
      | nil => rfl
      | cons char rest =>
          have other : isDigit char = false := ends
          rw [List.nil_append, readInteger, if_neg (by simp [other])]
  | cons char digits ih =>
      have digit : isDigit char = true := all char List.mem_cons_self
      rw [List.cons_append, readInteger]
      by_cases room : value * 10 + (char.toNat - 48) ≤ limit
      · rw [if_pos ⟨digit, room⟩]
        exact ih _ _ fun other member => all other (List.mem_cons_of_mem _ member)
      · rw [if_neg fun both => room both.2]
        refine ⟨value, count, char :: digits, rfl, all, rfl, fun within => ?_⟩
        have later : value * 10 + (char.toNat - 48) ≤ continued value (char :: digits) :=
          le_continued _ digits
        omega

/-- What ends a number. -/
def EndsNumber (rest : Bytes) : Prop :=
  ∀ char ∈ rest.head?, isDigit char = false ∧ char ≠ 46 ∧ char ≠ 101 ∧ char ≠ 69

/-- Where a number ends there is no digit. -/
theorem EndsNumber.digitAhead {rest : Bytes} (ends : EndsNumber rest) :
    digitAhead rest = false := by
  cases rest with
  | nil => rfl
  | cons char rest => exact (ends char rfl).1

theorem EndsNumber.consume {rest : Bytes} (ends : EndsNumber rest) {expect : UInt8}
    (one : expect = 46 ∨ expect = 101 ∨ expect = 69) : Json.consume expect rest = none := by
  cases rest with
  | nil => rfl
  | cons char rest =>
      obtain ⟨_, dot, small, capital⟩ := ends char rfl
      have other : char ≠ expect := by
        rcases one with rfl | rfl | rfl <;> assumption
      exact if_neg other

/-- The digits of a number that fits are all read, in one stage or in two. -/
theorem parseInteger_digits (minus : Bool) {char : UInt8} {digits rest : Bytes}
    (digit : isDigit char = true) (leading : char ≠ 48) (all : AllDigits digits)
    (ends : EndsNumber rest)
    (within : continued (char.toNat - 48) digits ≤
      if minus then 9223372036854775808 else 18446744073709551615) :
    ∃ count, parseInteger minus (char :: digits ++ rest) =
      some (continued (char.toNat - 48) digits, count, false, rest) := by
  obtain ⟨reached, read, left, first, others, value, _⟩ :=
    readInteger_digits (if minus then 2147483648 else 4294967295) (char.toNat - 48) 0 all
      ends.digitAhead
  rw [List.cons_append, parseInteger.eq_def]
  simp only [if_neg leading, digit, ↓reduceIte, first]
  cases left with
  | nil =>
      refine ⟨read, ?_⟩
      rw [List.nil_append, ends.digitAhead, ← value]
      rfl
  | cons next left =>
      have more : digitAhead (next :: left ++ rest) = true := others next List.mem_cons_self
      obtain ⟨total, counted, rest', second, _, same, whole⟩ :=
        readInteger_digits (if minus then 9223372036854775808 else 18446744073709551615) reached
          read others ends.digitAhead
      have none : rest' = [] := whole (by rw [value]; exact within)
      rw [none, List.nil_append] at second
      refine ⟨counted, ?_⟩
      rw [none] at same
      simp only [more, ↓reduceIte, second, ends.digitAhead, Bool.false_eq_true]
      rw [← value, ← same]
      rfl

/-- The character of a digit. -/
theorem digitChar_byte {digit : Nat} (small : digit < 10) :
    isDigit digit.digitChar.toNat.toUInt8 = true ∧
      digit.digitChar.toNat.toUInt8.toNat - 48 = digit := by
  rw [Nat.toNat_digitChar_of_lt_ten small]
  have byte : (48 + digit).toUInt8.toNat = 48 + digit := by
    rw [Nat.toUInt8, UInt8.toNat_ofNat']
    omega
  refine ⟨?_, by omega⟩
  simp only [isDigit, Bool.and_eq_true, decide_eq_true_eq, UInt8.le_iff_toNat_le, byte]
  exact ⟨Nat.le_add_right _ _, show 48 + digit ≤ 57 by omega⟩

/-- The text of a positive number is its digits, and the first is not a zero. -/
theorem digits_text {number : Nat} (positive : 0 < number) :
    ∃ char digits, (Nat.toDigits 10 number).map (fun char => char.toNat.toUInt8) = char :: digits ∧
      isDigit char = true ∧ char ≠ 48 ∧ AllDigits digits ∧
      continued (char.toNat - 48) digits = number := by
  induction number using Nat.strongRecOn with
  | ind number ih =>
      by_cases small : number < 10
      · obtain ⟨digit, value⟩ := digitChar_byte small
        refine ⟨number.digitChar.toNat.toUInt8, [], ?_, digit, ?_, ?_, value⟩
        · rw [Nat.toDigits_of_lt_base small]
          rfl
        · intro zero
          rw [zero] at value
          exact absurd value (Nat.ne_of_lt positive)
        · simp [AllDigits]
      · obtain ⟨char, digits, text, digit, leading, all, value⟩ :=
          ih (number / 10) (by omega) (by omega)
        have last : number % 10 < 10 := Nat.mod_lt _ (by omega)
        obtain ⟨lastDigit, lastValue⟩ := digitChar_byte last
        refine ⟨char, digits ++ [(number % 10).digitChar.toNat.toUInt8], ?_, digit, leading, ?_, ?_⟩
        · rw [Nat.toDigits_of_base_le (by omega) (by omega), List.map_append, text]
          rfl
        · intro other member
          rcases List.mem_append.mp member with earlier | final
          · exact all other earlier
          · rw [List.mem_singleton.mp final]
            exact lastDigit
        · unfold continued at value ⊢
          rw [List.foldl_append, value, List.foldl_cons, List.foldl_nil, lastValue]
          omega

/-- A number that is not negative is written by its digits. -/
theorem writeInt_natCast (number : Nat) :
    writeInt number = (Nat.toDigits 10 number).map fun char => char.toNat.toUInt8 := by
  rw [writeInt, ascii, ← Nat.toList_repr]
  rfl

/-- A negative one has a sign in front. -/
theorem writeInt_neg {number : Nat} (positive : 0 < number) :
    writeInt (-number) = 45 :: (Nat.toDigits 10 number).map fun char => char.toNat.toUInt8 := by
  have negative : ¬0 ≤ (-(number : Int)) := by omega
  rw [writeInt, ascii, ← Nat.toList_repr, Int.toString_eq_repr, Int.repr_eq_if, if_neg negative]
  simp

/-- A number of digits only is an integer. -/
theorem parseNumber_integer {minus : Bool} {stream body rest : Bytes} {whole count : Nat}
    (sign : (consume 45 stream).isSome = minus) (behind : (consume 45 stream).getD stream = body)
    (parsed : parseInteger minus body = some (whole, count, false, rest)) (ends : EndsNumber rest) :
    parseNumber stream = some (.int (if minus then -whole else whole), rest) := by
  have fraction : parseFraction whole count false rest = some (0, false, rest) := by
    rw [parseFraction, ends.consume (.inl rfl)]
  have exponent : (consume 101 rest).or (consume 69 rest) = none := by
    rw [ends.consume (.inr (.inl rfl)), ends.consume (.inr (.inr rfl))]
    rfl
  rw [parseNumber, sign, behind, parsed]
  simp only [Option.bind_eq_bind, Option.bind_some, fraction, exponent]
  rfl

/-- **Numbers come back**, when what follows cannot be part of them. -/
theorem parseNumber_writeInt {value : Int} {rest : Bytes} (low : -9223372036854775808 ≤ value)
    (high : value < 18446744073709551616) (ends : EndsNumber rest) :
    parseNumber (writeInt value ++ rest) = some (.int value, rest) := by
  rcases Int.lt_trichotomy value 0 with negative | zero | positive
  · obtain ⟨number, rfl⟩ : ∃ number : Nat, value = -number := ⟨value.natAbs, by omega⟩
    obtain ⟨char, digits, text, digit, leading, all, total⟩ :=
      digits_text (show 0 < number by omega)
    have within : continued (char.toNat - 48) digits ≤
        if true then 9223372036854775808 else 18446744073709551615 := by
      rw [total, if_pos rfl]
      omega
    obtain ⟨count, parsed⟩ := parseInteger_digits true digit leading all ends within
    have signed : consume 45 (45 :: char :: digits ++ rest) = some (char :: digits ++ rest) := rfl
    rw [writeInt_neg (by omega), text, parseNumber_integer _ _ parsed ends, total]
    · rfl
    · rw [signed]
      rfl
    · rw [signed]
      rfl
  · subst zero
    have parsed : parseInteger false (48 :: rest) = some (0, 0, false, rest) := rfl
    exact parseNumber_integer rfl rfl parsed ends
  · obtain ⟨number, rfl⟩ : ∃ number : Nat, value = number := ⟨value.natAbs, by omega⟩
    obtain ⟨char, digits, text, digit, leading, all, total⟩ :=
      digits_text (show 0 < number by omega)
    have within : continued (char.toNat - 48) digits ≤
        if false then 9223372036854775808 else 18446744073709551615 := by
      rw [total, if_neg Bool.false_ne_true]
      omega
    obtain ⟨count, parsed⟩ := parseInteger_digits false digit leading all ends within
    have unsigned : consume 45 (char :: digits ++ rest) = none := by
      refine if_neg ?_
      rintro rfl
      cases digit
    rw [writeInt_natCast, text, parseNumber_integer _ _ parsed ends, total]
    · rfl
    · rw [unsigned]
      rfl
    · rw [unsigned]
      rfl

/-! ## Values -/

/-- What a value or a name can start with: no whitespace, and nothing that closes. -/
def Opens (char : UInt8) : Prop :=
  char ≠ 32 ∧ char ≠ 10 ∧ char ≠ 13 ∧ char ≠ 9 ∧ char ≠ 93 ∧ char ≠ 125

theorem skipWhitespace_opens {char : UInt8} (opens : Opens char) (stream : Bytes) :
    skipWhitespace (char :: stream) = char :: stream := by
  obtain ⟨blank, line, return', tab, _⟩ := opens
  simp [skipWhitespace, blank, line, return', tab]

/-- The indentation is skipped. -/
theorem skipWhitespace_writeIndent (depth : Nat) (stream : Bytes) :
    skipWhitespace (writeIndent depth ++ stream) = skipWhitespace stream := by
  unfold writeIndent
  generalize depth * 4 = count
  induction count with
  | zero => rfl
  | succ count ih => exact ih

theorem skipWhitespace_newLine (pretty : Bool) (depth : Nat) (stream : Bytes) :
    skipWhitespace (newLine pretty depth ++ stream) = skipWhitespace stream := by
  cases pretty with
  | false => rfl
  | true => exact skipWhitespace_writeIndent depth stream

theorem isDigit_opens {char : UInt8} (digit : isDigit char = true) : Opens char := by
  refine ⟨?_, ?_, ?_, ?_, ?_, ?_⟩ <;>
    · rintro rfl
      cases digit

/-- The text of a number: digits, perhaps behind a sign. -/
theorem writeInt_chars (value : Int) :
    ∃ char text, writeInt value = char :: text ∧ (isDigit char = true ∨ char = 45) ∧
      AllDigits text := by
  rcases Int.lt_trichotomy value 0 with negative | zero | positive
  · obtain ⟨number, rfl⟩ : ∃ number : Nat, value = -number := ⟨value.natAbs, by omega⟩
    obtain ⟨char, digits, text, digit, _, all, _⟩ := digits_text (show 0 < number by omega)
    refine ⟨45, char :: digits, ?_, .inr rfl, ?_⟩
    · rw [writeInt_neg (by omega), text]
    · intro other member
      rcases List.mem_cons.mp member with rfl | later
      · exact digit
      · exact all other later
  · subst zero
    exact ⟨48, [], rfl, .inl rfl, by simp [AllDigits]⟩
  · obtain ⟨number, rfl⟩ : ∃ number : Nat, value = number := ⟨value.natAbs, by omega⟩
    obtain ⟨char, digits, text, digit, _, all, _⟩ := digits_text (show 0 < number by omega)
    exact ⟨char, digits, (writeInt_natCast number).trans text, .inl digit, all⟩

/-- The text of a value starts with one of its own characters. -/
theorem Value.Integral.opens {value : Value} (integral : value.Integral) (pretty : Bool)
    (depth : Nat) : ∃ char text, render pretty depth value = char :: text ∧ Opens char := by
  have literal : ∀ char ∈ [110, 116, 102, 34, 91, 123, 45], Opens char := by simp [Opens]
  cases integral with
  | null => exact ⟨110, _, rfl, literal _ (by simp)⟩
  | bool value =>
      cases value with
      | false => exact ⟨102, _, rfl, literal _ (by simp)⟩
      | true => exact ⟨116, _, rfl, literal _ (by simp)⟩
  | int low high =>
      obtain ⟨char, text, written, digit | minus, _⟩ := writeInt_chars _
      · exact ⟨char, text, written, isDigit_opens digit⟩
      · exact ⟨char, text, written, literal _ (by simp [minus])⟩
  | string text => exact ⟨34, _, rfl, literal _ (by simp)⟩
  | array each => exact ⟨91, _, by rw [render], literal _ (by simp)⟩
  | object each => exact ⟨123, _, by rw [render], literal _ (by simp)⟩

/-- Whitespace in front of a value is skipped. -/
theorem Value.Integral.skipWhitespace {value : Value} (integral : value.Integral) (pretty : Bool)
    (depth : Nat) (rest : Bytes) :
    skipWhitespace (render pretty depth value ++ rest) = render pretty depth value ++ rest := by
  obtain ⟨char, text, written, opens⟩ := integral.opens pretty depth
  rw [written, List.cons_append, skipWhitespace_opens opens]

/-- A value is read back from its text, in front of anything that ends a number. -/
def ReadsBack (value : Value) : Prop :=
  ∀ (pretty : Bool) (depth fuel : Nat) (rest : Bytes), EndsNumber rest →
    2 * (render pretty depth value ++ rest).length + 1 ≤ fuel →
      parseValue fuel (render pretty depth value ++ rest) = some (value, rest)

theorem endsNumber_comma (rest : Bytes) : EndsNumber (44 :: rest) := by
  intro char first
  obtain rfl : 44 = char := Option.some.inj first
  simp [isDigit]

theorem consume_comma (rest : Bytes) : consume 44 (skipWhitespace (44 :: rest)) = some rest := rfl

/-- The end of a list of parts. -/
def closing (pretty : Bool) (depth : Nat) (close : UInt8) (rest : Bytes) : Bytes :=
  newLine pretty depth ++ close :: rest

section Closing

variable (pretty : Bool) (depth : Nat) {close : UInt8} (rest : Bytes)
  (closes : close = 93 ∨ close = 125)

include closes

/-- A number ends at the closing bracket, also over a new line. -/
theorem endsNumber_closing : EndsNumber (closing pretty depth close rest) := by
  cases pretty with
  | false =>
      intro char first
      obtain rfl : close = char := by simpa [closing, newLine] using first
      rcases closes with rfl | rfl <;> simp [isDigit]
  | true =>
      intro char first
      obtain rfl : 10 = char := by simpa [closing, newLine] using first
      simp [isDigit]

/-- The closing bracket is found. -/
theorem skipWhitespace_closing :
    skipWhitespace (closing pretty depth close rest) = close :: rest := by
  rw [closing, skipWhitespace_newLine]
  rcases closes with rfl | rfl <;> simp [skipWhitespace]

theorem consume_closing :
    consume 44 (skipWhitespace (closing pretty depth close rest)) = none ∧
      consume close (skipWhitespace (closing pretty depth close rest)) = some rest := by
  rw [skipWhitespace_closing pretty depth rest closes]
  rcases closes with rfl | rfl <;> simp [consume]

end Closing

/-- The elements of an array are read back, the first without what stands in front of it. -/
theorem parseElements_render {element : Value} {elements : List Value}
    (each : ∀ other ∈ element :: elements, Value.Integral other ∧ ReadsBack other) (pretty : Bool)
    (depth lower fuel : Nat) (rest : Bytes)
    (room : 2 * (render pretty depth element ++ (renderElements pretty depth false elements ++
      closing pretty lower 93 rest)).length + 2 ≤ fuel) :
    parseElements fuel (render pretty depth element ++
      (renderElements pretty depth false elements ++ closing pretty lower 93 rest)) =
      some (element :: elements, rest) := by
  have reads := (each element List.mem_cons_self).2 pretty depth
  induction elements generalizing element fuel with
  | nil =>
      obtain ⟨fuel, rfl⟩ : ∃ less, fuel = less + 1 := ⟨fuel - 1, by omega⟩
      obtain ⟨stays, closes⟩ := consume_closing pretty lower rest (.inl rfl)
      rw [renderElements, List.nil_append] at room ⊢
      have first := reads fuel _ (endsNumber_closing pretty lower rest (.inl rfl)) (by omega)
      rw [parseElements, first]
      simp only [Option.bind_eq_bind, Option.bind_some, stays, closes]
      rfl
  | cons next elements ih =>
      obtain ⟨fuel, rfl⟩ : ∃ less, fuel = less + 1 := ⟨fuel - 1, by omega⟩
      have following := each next (List.mem_cons_of_mem _ List.mem_cons_self)
      rw [renderElements] at room ⊢
      simp only [Bool.false_eq_true, ↓reduceIte, List.append_assoc, List.cons_append,
        List.nil_append] at room ⊢
      have first := fun stream => reads fuel (44 :: stream) (endsNumber_comma stream)
      have later := ih (fun other member => each other (List.mem_cons_of_mem _ member)) fuel (by
        simp only [List.length_append, List.length_cons] at room ⊢
        omega) (following.2 pretty depth)
      rw [parseElements, first _ (by omega)]
      simp only [Option.bind_eq_bind, Option.bind_some, consume_comma]
      rw [skipWhitespace_newLine, following.1.skipWhitespace, later]
      rfl

/-- A name and its colon in front of a member's value. -/
def label (pretty : Bool) (name : Bytes) : Bytes :=
  quote name ++ if pretty then [58, 32] else [58]

/-- The label of a member is read back, and the member's value comes next. -/
theorem parseMembers_label {value : Value} (integral : value.Integral) (pretty : Bool)
    (depth fuel : Nat) (name stream : Bytes) :
    parseMembers (fuel + 1) (label pretty name ++ (render pretty depth value ++ stream)) =
      (parseValue fuel (render pretty depth value ++ stream)).bind fun parsed =>
        match consume 44 (skipWhitespace parsed.2) with
        | some stream => (parseMembers fuel (skipWhitespace stream)).bind fun others =>
            some ((name, parsed.1) :: others.1, others.2)
        | none => (consume 125 (skipWhitespace parsed.2)).bind fun stream =>
            some ([(name, parsed.1)], stream) := by
  have colon : ∀ stream, (skipWhitespace stream = stream) →
      (consume 58 (skipWhitespace ((if pretty then [58, 32] else [58]) ++ stream))).map
        skipWhitespace = some stream := by
    intro stream solid
    cases pretty with
    | false => exact congrArg some solid
    | true => exact congrArg some solid
  obtain ⟨behind, spaced, skipped⟩ := Option.map_eq_some_iff.mp
    (colon _ (integral.skipWhitespace pretty depth stream))
  have opening : ∀ stream : Bytes, consume 34 (34 :: stream) = some stream := fun _ => rfl
  have text : label pretty name ++ (render pretty depth value ++ stream) =
      34 :: (name.flatMap writeChar ++ 34 :: ((if pretty then [58, 32] else [58]) ++
        (render pretty depth value ++ stream))) := by
    simp only [label, quote, List.cons_append, List.append_assoc, List.nil_append]
  rw [text, parseMembers]
  simp only [opening, Option.bind_eq_bind, Option.bind_some, parseStringToStream_quote, spaced,
    skipped]
  rfl

theorem renderMembers_next (pretty : Bool) (depth : Nat) (name : Bytes) (value : Value)
    (members : List (Bytes × Value)) (rest : Bytes) :
    renderMembers pretty depth false ((name, value) :: members) ++ rest =
      44 :: (newLine pretty depth ++ (label pretty name ++ (render pretty depth value ++
        (renderMembers pretty depth false members ++ rest)))) := by
  rw [renderMembers]
  simp only [Bool.false_eq_true, ↓reduceIte, label, List.append_assoc, List.cons_append,
    List.nil_append]

theorem skipWhitespace_label (pretty : Bool) (name stream : Bytes) :
    skipWhitespace (label pretty name ++ stream) = label pretty name ++ stream := by
  rfl

/-- The members of an object are read back. -/
theorem parseMembers_render {name : Bytes} {value : Value} {members : List (Bytes × Value)}
    (each : ∀ other ∈ (name, value) :: members, Value.Integral other.2 ∧ ReadsBack other.2)
    (pretty : Bool) (depth lower fuel : Nat) (rest : Bytes)
    (room : 2 * (label pretty name ++ (render pretty depth value ++
      (renderMembers pretty depth false members ++ closing pretty lower 125 rest))).length + 2 ≤
        fuel) :
    parseMembers fuel (label pretty name ++ (render pretty depth value ++
      (renderMembers pretty depth false members ++ closing pretty lower 125 rest))) =
        some ((name, value) :: members, rest) := by
  obtain ⟨integral, reads⟩ := each (name, value) List.mem_cons_self
  induction members generalizing name value fuel with
  | nil =>
      obtain ⟨fuel, rfl⟩ : ∃ less, fuel = less + 1 := ⟨fuel - 1, by omega⟩
      obtain ⟨stays, closes⟩ := consume_closing pretty lower rest (.inr rfl)
      rw [renderMembers, List.nil_append] at room ⊢
      have first := reads pretty depth fuel _ (endsNumber_closing pretty lower rest (.inr rfl)) (by
        simp only [List.length_append] at room ⊢
        omega)
      rw [parseMembers_label integral, first]
      simp only [Option.bind_some, stays, closes]
  | cons next members ih =>
      obtain ⟨nextName, nextValue⟩ := next
      obtain ⟨fuel, rfl⟩ : ∃ less, fuel = less + 1 := ⟨fuel - 1, by omega⟩
      obtain ⟨nextIntegral, nextReads⟩ := each (nextName, nextValue)
        (List.mem_cons_of_mem _ List.mem_cons_self)
      rw [renderMembers_next] at room ⊢
      have first := fun stream => reads pretty depth fuel (44 :: stream) (endsNumber_comma stream)
      have later := ih (fun other member => each other (List.mem_cons_of_mem _ member)) fuel (by
        simp only [List.length_append, List.length_cons] at room ⊢
        omega) nextIntegral nextReads
      rw [parseMembers_label integral, first _ (by
        simp only [List.length_append] at room ⊢
        omega)]
      simp only [Option.bind_some, consume_comma]
      rw [skipWhitespace_newLine, skipWhitespace_label, later]
      rfl

theorem parseValue_string (fuel : Nat) (rest : Bytes) :
    parseValue (fuel + 1) (34 :: rest) =
      (parseStringToStream rest).map fun result => (.string result.1, result.2) := rfl

/-- An array that is not empty is read by its elements. -/
theorem parseValue_array (fuel : Nat) {rest : Bytes}
    (opens : consume 93 (skipWhitespace rest) = none) :
    parseValue (fuel + 1) (91 :: rest) =
      (parseElements fuel (skipWhitespace rest)).map fun result => (.array result.1, result.2) := by
  rw [parseValue.eq_def]
  simp [opens]

/-- An object that is not empty is read by its members. -/
theorem parseValue_object (fuel : Nat) {rest : Bytes}
    (opens : consume 125 (skipWhitespace rest) = none) :
    parseValue (fuel + 1) (123 :: rest) =
      (parseMembers fuel (skipWhitespace rest)).map fun result => (.object result.1, result.2) := by
  rw [parseValue.eq_def]
  simp [opens]

/-- **An array is read back** if its elements are. -/
theorem ReadsBack.array {elements : List Value}
    (each : ∀ element ∈ elements, element.Integral)
    (reads : ∀ element ∈ elements, ReadsBack element) : ReadsBack (.array elements) := by
  intro pretty depth fuel rest ends room
  obtain ⟨fuel, rfl⟩ : ∃ less, fuel = less + 1 := ⟨fuel - 1, by omega⟩
  rw [render] at room ⊢
  cases elements with
  | nil => rfl
  | cons element elements =>
      have integral := each element List.mem_cons_self
      have text : 91 :: (renderElements pretty (depth + 1) true (element :: elements) ++
          lastLine pretty depth (element :: elements).isEmpty ++ [93]) ++ rest =
          91 :: (newLine pretty (depth + 1) ++ (render pretty (depth + 1) element ++
            (renderElements pretty (depth + 1) false elements ++
              closing pretty depth 93 rest))) := by
        rw [renderElements]
        simp [lastLine, closing, List.append_assoc]
      have read := parseElements_render
        (fun other member => ⟨each other member, reads other member⟩) pretty (depth + 1) depth fuel
          rest (by
            rw [text] at room
            simp only [List.length_append, List.length_cons] at room ⊢
            omega)
      obtain ⟨char, more, written, opens⟩ := integral.opens pretty (depth + 1)
      have follows : ∀ stream, consume 93 (skipWhitespace (newLine pretty (depth + 1) ++
          (render pretty (depth + 1) element ++ stream))) = none := by
        intro stream
        rw [skipWhitespace_newLine, integral.skipWhitespace, written]
        exact if_neg opens.2.2.2.2.1
      rw [text, parseValue_array fuel (follows _), skipWhitespace_newLine,
        integral.skipWhitespace, read]
      rfl

/-- **An object is read back** if its members are. -/
theorem ReadsBack.object {members : List (Bytes × Value)}
    (each : ∀ member ∈ members, member.2.Integral)
    (reads : ∀ member ∈ members, ReadsBack member.2) : ReadsBack (.object members) := by
  intro pretty depth fuel rest ends room
  obtain ⟨fuel, rfl⟩ : ∃ less, fuel = less + 1 := ⟨fuel - 1, by omega⟩
  rw [render] at room ⊢
  cases members with
  | nil => rfl
  | cons member members =>
      obtain ⟨name, value⟩ := member
      have text : 123 :: (renderMembers pretty (depth + 1) true ((name, value) :: members) ++
          lastLine pretty depth ((name, value) :: members).isEmpty ++ [125]) ++ rest =
          123 :: (newLine pretty (depth + 1) ++ (label pretty name ++
            (render pretty (depth + 1) value ++ (renderMembers pretty (depth + 1) false members ++
              closing pretty depth 125 rest)))) := by
        rw [renderMembers]
        simp [lastLine, closing, label, List.append_assoc]
      have read := parseMembers_render (fun other member => ⟨each other member, reads other member⟩)
        pretty (depth + 1) depth fuel rest (by
          rw [text] at room
          simp only [List.length_append, List.length_cons] at room ⊢
          omega)
      have follows : ∀ stream, consume 125 (skipWhitespace (newLine pretty (depth + 1) ++
          (label pretty name ++ stream))) = none := by
        intro stream
        rw [skipWhitespace_newLine, skipWhitespace_label]
        rfl
      rw [text, parseValue_object fuel (follows _), skipWhitespace_newLine, skipWhitespace_label,
        read]
      rfl

/-- **Values come back** from their text, wherever it stands. -/
theorem Value.Integral.readsBack {value : Value} (integral : value.Integral) : ReadsBack value := by
  induction integral with
  | null =>
      intro pretty depth fuel rest ends room
      obtain ⟨fuel, rfl⟩ : ∃ less, fuel = less + 1 := ⟨fuel - 1, by omega⟩
      rfl
  | bool value =>
      intro pretty depth fuel rest ends room
      obtain ⟨fuel, rfl⟩ : ∃ less, fuel = less + 1 := ⟨fuel - 1, by omega⟩
      cases value <;> rfl
  | @int value low high =>
      intro pretty depth fuel rest ends room
      obtain ⟨fuel, rfl⟩ : ∃ less, fuel = less + 1 := ⟨fuel - 1, by omega⟩
      obtain ⟨char, text, written, first, _⟩ := writeInt_chars value
      have other : char ≠ 110 ∧ char ≠ 116 ∧ char ≠ 102 ∧ char ≠ 34 ∧ char ≠ 123 ∧ char ≠ 91 := by
        refine ⟨?_, ?_, ?_, ?_, ?_, ?_⟩ <;>
          · rintro rfl
            rcases first with digit | minus
            · cases digit
            · cases minus
      obtain ⟨null, yes, no, string, object, array⟩ := other
      have number := parseNumber_writeInt low high ends
      rw [render, written, List.cons_append] at *
      rw [parseValue.eq_def]
      simp only [null, yes, no, string, object, array, ↓reduceIte, number]
  | string text =>
      intro pretty depth fuel rest ends room
      obtain ⟨fuel, rfl⟩ : ∃ less, fuel = less + 1 := ⟨fuel - 1, by omega⟩
      have read := parseStringToStream_quote text rest
      rw [render, quote, List.cons_append, List.append_assoc, List.singleton_append,
        parseValue_string, read]
      rfl
  | array each reads => exact .array each reads
  | object each reads => exact .object each reads

/-! ## Texts -/

/-- A zero byte is written as an escape. -/
theorem zero_not_mem_writeChar (char : UInt8) : (0 : UInt8) ∉ writeChar char := by
  have hex : ∀ value < 16, (0 : UInt8) ≠ hexDigits value := by decide
  have byte := char.toNat_lt
  unfold writeChar
  split_ifs with quote backslash backspace tab newline formfeed return' control
  all_goals try simp [ascii]
  · have small : char.toNat < 32 := UInt8.lt_iff_toNat_lt.mp control
    exact ⟨hex _ (by omega), hex _ (by omega)⟩
  · rintro rfl
    exact control (by decide)

theorem zero_not_mem_quote (text : Bytes) : (0 : UInt8) ∉ quote text := by
  simp [quote, zero_not_mem_writeChar]

theorem zero_not_mem_newLine (pretty : Bool) (depth : Nat) :
    (0 : UInt8) ∉ newLine pretty depth := by
  cases pretty <;> simp [newLine, writeIndent]

theorem zero_not_mem_renderElements {elements : List Value} {pretty : Bool} {depth : Nat}
    (each : ∀ element ∈ elements, (0 : UInt8) ∉ render pretty depth element) (first : Bool) :
    (0 : UInt8) ∉ renderElements pretty depth first elements := by
  induction elements generalizing first with
  | nil => simp [renderElements]
  | cons element elements ih =>
      have later := ih (fun other member => each other (List.mem_cons_of_mem _ member)) false
      rw [renderElements]
      cases first <;>
        simp [zero_not_mem_newLine, each element List.mem_cons_self, later]

theorem zero_not_mem_renderMembers {members : List (Bytes × Value)} {pretty : Bool} {depth : Nat}
    (each : ∀ member ∈ members, (0 : UInt8) ∉ render pretty depth member.2) (first : Bool) :
    (0 : UInt8) ∉ renderMembers pretty depth first members := by
  induction members generalizing first with
  | nil => simp [renderMembers]
  | cons member members ih =>
      obtain ⟨name, value⟩ := member
      have later := ih (fun other member => each other (List.mem_cons_of_mem _ member)) false
      have own := each (name, value) List.mem_cons_self
      rw [renderMembers]
      cases first <;> cases pretty <;>
        simp_all [zero_not_mem_newLine, zero_not_mem_quote]

theorem zero_not_mem_writeInt (value : Int) : (0 : UInt8) ∉ writeInt value := by
  obtain ⟨char, text, written, first, all⟩ := writeInt_chars value
  rw [written, List.mem_cons]
  rintro (rfl | later)
  · rcases first with digit | minus
    · cases digit
    · cases minus
  · cases all 0 later

/-- The writers write no zero bytes, whatever the strings hold. -/
theorem Value.Integral.zero_not_mem {value : Value} (integral : value.Integral) (pretty : Bool)
    (depth : Nat) : (0 : UInt8) ∉ render pretty depth value := by
  induction integral generalizing depth with
  | null => simp [render, ascii]
  | bool value => cases value <;> simp [render, ascii]
  | int low high => exact zero_not_mem_writeInt _
  | string text => exact zero_not_mem_quote text
  | @array elements _ ih =>
      have parts :=
        zero_not_mem_renderElements (fun element member => ih element member (depth + 1)) true
      rw [render]
      cases elements <;> simp [parts, lastLine, zero_not_mem_newLine]
  | @object members _ ih =>
      have parts :=
        zero_not_mem_renderMembers (fun member present => ih member present (depth + 1)) true
      rw [render]
      cases members <;> simp [parts, lastLine, zero_not_mem_newLine]

/-- A text without zero bytes is a C string as it is. -/
theorem cstr_of_zero_not_mem {text : Bytes} (plain : (0 : UInt8) ∉ text) : cstr text = text := by
  rw [cstr, List.takeWhile_eq_self_iff]
  intro char member
  simpa using fun zero : char = 0 => plain (zero ▸ member)

/-- The reader reads a document back from its text. -/
theorem parse_render {document : Value} (integral : document.Integral) (pretty : Bool) :
    parse (render pretty 0 document) = some document := by
  have read := integral.readsBack pretty 0 _ [] (fun _ none => nomatch none) (Nat.le_refl _)
  have skipped := integral.skipWhitespace pretty 0 []
  obtain ⟨char, text, starts, _⟩ := integral.opens pretty 0
  rw [List.append_nil] at read skipped
  rw [parse, cstr_of_zero_not_mem (integral.zero_not_mem pretty 0), skipped]
  simp only [read]
  rw [starts]
  rfl

/-- **Round trip**: neither writer fails on a document, and the reader reads the document
back from the text. -/
theorem parse_encodeText {document : Value} (integral : document.Integral) (pretty : Bool) :
    ∃ text, encodeText pretty document = some text ∧ parse text = some document := by
  refine ⟨_, encodeText_eq integral pretty, ?_⟩
  rw [cstr_of_zero_not_mem (integral.zero_not_mem pretty 0)]
  exact parse_render integral pretty

theorem parse_encodeText_sample :
    ∃ text, encodeText true
        (.object [(ascii "a\n", .array
          [.int (-9223372036854775808), .null, .string [0, 34, 255]])]) = some text ∧
      parse text =
        some (.object [(ascii "a\n", .array
          [.int (-9223372036854775808), .null, .string [0, 34, 255]])]) := by
  refine parse_encodeText (.object fun member present => ?_) true
  obtain rfl := List.mem_singleton.mp present
  refine .array fun element listed => ?_
  simp only [List.mem_cons, List.not_mem_nil, or_false] at listed
  rcases listed with rfl | rfl | rfl
  · exact .int (by omega) (by omega)
  · exact .null
  · exact .string _

end HttpBackEnd.Json
