import Mathlib.Algebra.Group.Nat.Defs
import Mathlib.Data.List.Basic

/-! # The bundled rapidjson reader

`rapidjson::Document::Parse` with the default flags, over the zero-terminated
text `std::string::c_str` hands it: the stream is the list of bytes before the
first zero byte, and the end of the list reads as that zero byte. Parse errors
are `none`; the document then stays null (`Json.Schema`).

Numbers keep their value while the reader keeps them integral. A number the
reader turns into a double keeps none: nothing reads it. Doubles occur only in
the reader's overflow test, where the accumulated value is an integer rounded to
53 significant bits.
-/

namespace HttpBackEnd

/-- Byte strings, the contents of `ngx_str_t`, `std::string` and buffers. -/
abbrev Bytes := List UInt8

/-- The bytes of an ASCII literal of the source. -/
def ascii (text : String) : Bytes := text.toList.map fun char => char.toNat.toUInt8

/-- The part of a byte string a C string function sees. -/
def cstr (bytes : Bytes) : Bytes := bytes.takeWhile (· ≠ 0)

namespace Json

/-- The values of a parsed document. Object members keep their order and their
repetitions. -/
inductive Value where
  | null
  | bool (value : Bool)
  | int (value : Int)
  | double
  | string (text : Bytes)
  | array (elements : List Value)
  | object (members : List (Bytes × Value))

/-- `SkipWhitespace`. -/
def skipWhitespace (stream : Bytes) : Bytes :=
  stream.dropWhile fun char => char = 32 || char = 10 || char = 13 || char = 9

/-- `Consume`: take the expected byte off the stream. -/
def consume (expect : UInt8) : Bytes → Option Bytes
  | [] => none
  | char :: rest => if char = expect then some rest else none

/-- The tail of a literal after its first letter: `ull`, `rue`, `alse`. -/
def consumeAll : Bytes → Bytes → Option Bytes
  | [], stream => some stream
  | expect :: more, stream => (consume expect stream).bind (consumeAll more)

/-- One hexadecimal digit of `ParseHex4`. -/
def hexDigit (char : UInt8) : Option Nat :=
  if 48 ≤ char ∧ char ≤ 57 then some (char.toNat - 48)
  else if 65 ≤ char ∧ char ≤ 70 then some (char.toNat - 65 + 10)
  else if 97 ≤ char ∧ char ≤ 102 then some (char.toNat - 97 + 10)
  else none

/-- `ParseHex4` over its four digits. -/
def parseHex4 (a b c d : UInt8) : Option Nat := do
  let a ← hexDigit a
  let b ← hexDigit b
  let c ← hexDigit c
  let d ← hexDigit d
  return ((a * 16 + b) * 16 + c) * 16 + d

/-- `UTF8::Encode`. -/
def encodeUtf8 (codepoint : Nat) : Bytes :=
  if codepoint ≤ 0x7F then [codepoint.toUInt8]
  else if codepoint ≤ 0x7FF then
    [(0xC0 + codepoint / 64).toUInt8, (0x80 + codepoint % 64).toUInt8]
  else if codepoint ≤ 0xFFFF then
    [(0xE0 + codepoint / 4096).toUInt8, (0x80 + codepoint / 64 % 64).toUInt8,
      (0x80 + codepoint % 64).toUInt8]
  else
    [(0xF0 + codepoint / 262144).toUInt8, (0x80 + codepoint / 4096 % 64).toUInt8,
      (0x80 + codepoint / 64 % 64).toUInt8, (0x80 + codepoint % 64).toUInt8]

/-- The code point of a UTF-16 surrogate pair. -/
def surrogatePair (high low : Nat) : Nat := (high - 0xD800) * 1024 + (low - 0xDC00) + 0x10000

/-- The `escape` table of `ParseStringToStream`: `" / \ b f n r t`. -/
def escape (char : UInt8) : Option UInt8 :=
  if char = 34 then some 34
  else if char = 47 then some 47
  else if char = 92 then some 92
  else if char = 98 then some 8
  else if char = 102 then some 12
  else if char = 110 then some 10
  else if char = 114 then some 13
  else if char = 116 then some 9
  else none

/-- Put decoded bytes in front of what the rest of the string decodes to. -/
def put (decoded : Bytes) (rest : Option (Bytes × Bytes)) : Option (Bytes × Bytes) :=
  rest.map fun result => (decoded ++ result.1, result.2)

/-- `ParseStringToStream` after the opening quote: the decoded text and the
stream after the closing quote. Bytes from 0x80 on are copied unchecked. -/
def parseStringToStream : Bytes → Option (Bytes × Bytes)
  | [] => none
  | char :: stream =>
      if char = 92 then
        match stream with
        | [] => none
        | letter :: stream =>
            match escape letter with
            | some decoded => put [decoded] (parseStringToStream stream)
            | none =>
                if letter = 117 then
                  match stream with
                  | a :: b :: c :: d :: stream =>
                      match parseHex4 a b c d with
                      | none => none
                      | some codepoint =>
                          if 0xD800 ≤ codepoint ∧ codepoint ≤ 0xDBFF then
                            match stream with
                            | slash :: letter :: a :: b :: c :: d :: stream =>
                                if slash = 92 ∧ letter = 117 then
                                  match parseHex4 a b c d with
                                  | none => none
                                  | some low =>
                                      if low < 0xDC00 ∨ 0xDFFF < low then none
                                      else put (encodeUtf8 (surrogatePair codepoint low))
                                        (parseStringToStream stream)
                                else none
                            | _ => none
                          else put (encodeUtf8 codepoint) (parseStringToStream stream)
                  | _ => none
                else none
      else if char = 34 then some ([], stream)
      else if char < 32 then none
      else put [char] (parseStringToStream stream)

/-- `0 <= Peek() - '0' <= 9`. -/
def isDigit (char : UInt8) : Bool := 48 ≤ char && char ≤ 57

/-- Whether the stream continues with a digit. -/
def digitAhead (stream : Bytes) : Bool := (stream.head?.map isDigit).getD false

/-- The 32-bit and 64-bit integer loops of `ParseNumber`: read digits while the
value stays at or below the limit, counting them in `significandDigit`. -/
def readInteger (limit : Nat) : Nat → Nat → Bytes → Nat × Nat × Bytes
  | value, count, [] => (value, count, [])
  | value, count, char :: stream =>
      if isDigit char ∧ value * 10 + (char.toNat - 48) ≤ limit then
        readInteger limit (value * 10 + (char.toNat - 48)) (count + 1) stream
      else (value, count, char :: stream)

/-- An integer rounded to the nearest double, ties to even. -/
def roundDouble (value : Nat) : Nat :=
  if value < 2 ^ 53 then value
  else
    let unit := 2 ^ (value.log2 - 52)
    let low := value / unit * unit
    let rest := value % unit
    if 2 * rest < unit then low
    else if unit < 2 * rest then low + unit
    else if value / unit % 2 = 0 then low
    else low + unit

/-- The forced-double loop: read all further digits, or fail with
`kParseErrorNumberTooBig` once the value has reached `DBL_MAX / 10`. -/
def readDouble : Nat → Bytes → Option Bytes
  | _, [] => some []
  | value, char :: stream =>
      if isDigit char then
        if roundDouble (17976931348623157 * 10 ^ 291) ≤ value then none
        else readDouble (roundDouble (roundDouble (value * 10) + (char.toNat - 48))) stream
      else some (char :: stream)

/-- The fast fraction loop on the 64-bit significand. -/
def readFraction : Nat → Nat → Nat → Bytes → Nat × Nat × Bytes
  | _, count, places, [] => (count, places, [])
  | value, count, places, char :: stream =>
      if isDigit char ∧ value ≤ 2 ^ 53 - 1 then
        let value := value * 10 + (char.toNat - 48)
        readFraction value (if value = 0 then count else count + 1) (places + 1) stream
      else (count, places, char :: stream)

/-- The slow fraction loop: at most seventeen significant digits count. -/
def skipFraction : Nat → Nat → Bytes → Nat × Bytes
  | _, places, [] => (places, [])
  | count, places, char :: stream =>
      if isDigit char then
        if count < 17 then skipFraction (count + 1) (places + 1) stream
        else skipFraction count places stream
      else (places, char :: stream)

/-- The digits of a positive exponent after the first: `none` is
`kParseErrorNumberTooBig`. -/
def readExponent (maxExp : Nat) : Nat → Bytes → Option Bytes
  | _, [] => some []
  | value, char :: stream =>
      if isDigit char then
        if maxExp < value * 10 + (char.toNat - 48) then none
        else readExponent maxExp (value * 10 + (char.toNat - 48)) stream
      else some (char :: stream)

/-- The exponent part after `e` or `E`; a negative exponent is never too big. -/
def parseExponent (places : Nat) (stream : Bytes) : Option Bytes :=
  let plus := consume 43 stream
  let minus := consume 45 stream
  match plus.getD (minus.getD stream) with
  | [] => none
  | char :: stream =>
      if isDigit char then
        if plus.isNone && minus.isSome then some (stream.dropWhile isDigit)
        else readExponent (308 + places) (char.toNat - 48) stream
      else none

/-- The integer part of `ParseNumber`: its value, `significandDigit`, whether it
became a double, and the stream after it. -/
def parseInteger (minus : Bool) (stream : Bytes) : Option (Nat × Nat × Bool × Bytes) :=
  match stream with
  | [] => none
  | char :: stream =>
      if char = 48 then some (0, 0, false, stream)
      else if isDigit char then
        let (value, count, stream) :=
          readInteger (if minus then 2147483648 else 4294967295) (char.toNat - 48) 0 stream
        if digitAhead stream then
          let (value, count, stream) :=
            readInteger (if minus then 9223372036854775808 else 18446744073709551615)
              value count stream
          if digitAhead stream then
            (readDouble (roundDouble value) stream).map fun stream => (value, count, true, stream)
          else some (value, count, false, stream)
        else some (value, count, false, stream)
      else none

/-- The fraction part: the digits counted in `-expFrac`, whether there was a
fraction, and the stream after it. -/
def parseFraction (value count : Nat) (useDouble : Bool) (stream : Bytes) :
    Option (Nat × Bool × Bytes) :=
  match consume 46 stream with
  | none => some (0, false, stream)
  | some stream =>
      if digitAhead stream then
        let (count, places, stream) :=
          if useDouble then (count, 0, stream) else readFraction value count 0 stream
        let (places, stream) := skipFraction count places stream
        some (places, true, stream)
      else none

/-- `ParseNumber`. -/
def parseNumber (stream : Bytes) : Option (Value × Bytes) := do
  let minus := (consume 45 stream).isSome
  let (value, count, useDouble, stream) ← parseInteger minus ((consume 45 stream).getD stream)
  let (places, fraction, stream) ← parseFraction value count useDouble stream
  match (consume 101 stream).or (consume 69 stream) with
  | some stream =>
      let stream ← parseExponent places stream
      return (.double, stream)
  | none =>
      if useDouble || fraction then return (.double, stream)
      else return (.int (if minus then -value else value), stream)

mutual

/-- `ParseValue`; the fuel bounds the nesting and is never short
(`parse_fuel`). -/
def parseValue : Nat → Bytes → Option (Value × Bytes)
  | 0, _ => none
  | fuel + 1, stream =>
      match stream with
      | [] => parseNumber []
      | char :: rest =>
          if char = 110 then (consumeAll (ascii "ull") rest).map fun rest => (.null, rest)
          else if char = 116 then (consumeAll (ascii "rue") rest).map fun rest => (.bool true, rest)
          else if char = 102 then
            (consumeAll (ascii "alse") rest).map fun rest => (.bool false, rest)
          else if char = 34 then
            (parseStringToStream rest).map fun result => (.string result.1, result.2)
          else if char = 123 then
            match consume 125 (skipWhitespace rest) with
            | some rest => some (.object [], rest)
            | none => (parseMembers fuel (skipWhitespace rest)).map fun result =>
                (.object result.1, result.2)
          else if char = 91 then
            match consume 93 (skipWhitespace rest) with
            | some rest => some (.array [], rest)
            | none => (parseElements fuel (skipWhitespace rest)).map fun result =>
                (.array result.1, result.2)
          else parseNumber (char :: rest)

/-- The member loop of `ParseObject`. -/
def parseMembers : Nat → Bytes → Option (List (Bytes × Value) × Bytes)
  | 0, _ => none
  | fuel + 1, stream => do
      let stream ← consume 34 stream
      let (name, stream) ← parseStringToStream stream
      let stream ← consume 58 (skipWhitespace stream)
      let (value, stream) ← parseValue fuel (skipWhitespace stream)
      match consume 44 (skipWhitespace stream) with
      | some stream =>
          let (members, stream) ← parseMembers fuel (skipWhitespace stream)
          return ((name, value) :: members, stream)
      | none =>
          let stream ← consume 125 (skipWhitespace stream)
          return ([(name, value)], stream)

/-- The element loop of `ParseArray`. -/
def parseElements : Nat → Bytes → Option (List Value × Bytes)
  | 0, _ => none
  | fuel + 1, stream => do
      let (value, stream) ← parseValue fuel stream
      match consume 44 (skipWhitespace stream) with
      | some stream =>
          let (elements, stream) ← parseElements fuel (skipWhitespace stream)
          return (value :: elements, stream)
      | none =>
          let stream ← consume 93 (skipWhitespace stream)
          return ([value], stream)

end

/-- `GenericReader::Parse` over a C string: one value between whitespace. -/
def parse (text : Bytes) : Option Value :=
  let stream := skipWhitespace (cstr text)
  match stream with
  | [] => none
  | _ :: _ =>
      match parseValue (2 * stream.length + 1) stream with
      | none => none
      | some (value, rest) => if skipWhitespace rest = [] then some value else none

/-! ## The reader only moves forward -/

/-- One byte is taken. -/
theorem consume_length {expect : UInt8} {stream rest : Bytes}
    (taken : consume expect stream = some rest) : rest.length + 1 = stream.length := by
  cases stream with
  | nil => cases taken
  | cons char stream =>
      simp only [consume] at taken
      split at taken
      · cases taken
        rfl
      · cases taken

theorem consume_getD_length (expect : UInt8) (stream : Bytes) :
    ((consume expect stream).getD stream).length ≤ stream.length := by
  cases taken : consume expect stream with
  | none => exact Nat.le_refl _
  | some rest =>
      have shorter := consume_length taken
      simp only [Option.getD_some]
      omega

theorem skipWhitespace_length (stream : Bytes) :
    (skipWhitespace stream).length ≤ stream.length :=
  (List.dropWhile_sublist _).length_le

theorem consumeAll_length {expect stream rest : Bytes}
    (taken : consumeAll expect stream = some rest) : rest.length ≤ stream.length := by
  induction expect generalizing stream with
  | nil =>
      cases taken
      exact Nat.le_refl _
  | cons char expect ih =>
      obtain ⟨middle, first, others⟩ := Option.bind_eq_some_iff.mp taken
      have shorter := consume_length first
      have further := ih others
      omega

/-- A decoded piece stands in front of what follows it. -/
theorem put_eq_some {decoded text rest : Bytes} {parsed : Option (Bytes × Bytes)}
    (result : put decoded parsed = some (text, rest)) :
    ∃ tail, parsed = some (tail, rest) ∧ text = decoded ++ tail := by
  obtain ⟨⟨tail, stream⟩, same, pair⟩ := Option.map_eq_some_iff.mp result
  cases pair
  exact ⟨tail, same, rfl⟩

/-- **A string takes its closing quote**, at the least. -/
theorem parseStringToStream_length {stream text rest : Bytes}
    (parsed : parseStringToStream stream = some (text, rest)) :
    rest.length < stream.length := by
  -- The four recursive cases put decoded bytes before the rest of the string.
  fun_induction parseStringToStream stream generalizing text with
  | case3 letter stream decoded known ih =>
      obtain ⟨tail, recurred, _⟩ := put_eq_some parsed
      have shorter := ih recurred
      simp only [List.length_cons]
      omega
  | case7 =>
      rename_i ih
      obtain ⟨tail, recurred, _⟩ := put_eq_some parsed
      have shorter := ih recurred
      simp only [List.length_cons]
      omega
  | case10 =>
      rename_i ih
      obtain ⟨tail, recurred, _⟩ := put_eq_some parsed
      have shorter := ih recurred
      simp only [List.length_cons]
      omega
  | case13 =>
      cases parsed
      exact Nat.lt_succ_self _
  | case15 char stream _ _ _ ih =>
      obtain ⟨tail, recurred, _⟩ := put_eq_some parsed
      have shorter := ih recurred
      simp only [List.length_cons]
      omega
  | _ => cases parsed

/-- Digits are taken from the front of the stream. -/
theorem readInteger_length (limit value count : Nat) (stream : Bytes) :
    (readInteger limit value count stream).2.2.length ≤ stream.length := by
  fun_induction readInteger limit value count stream with
  | case1 => exact Nat.le_refl _
  | case2 value count char stream digit ih =>
      simp only [List.length_cons]
      omega
  | case3 => exact Nat.le_refl _

theorem readDouble_length {value : Nat} {stream rest : Bytes}
    (parsed : readDouble value stream = some rest) : rest.length ≤ stream.length := by
  fun_induction readDouble value stream with
  | case1 =>
      cases parsed
      exact Nat.le_refl _
  | case2 => cases parsed
  | case3 value char stream digit small ih =>
      have shorter := ih parsed
      simp only [List.length_cons]
      omega
  | case4 =>
      cases parsed
      exact Nat.le_refl _

theorem readFraction_length (value count places : Nat) (stream : Bytes) :
    (readFraction value count places stream).2.2.length ≤ stream.length := by
  fun_induction readFraction value count places stream with
  | case1 => exact Nat.le_refl _
  | case2 value count places char stream digit next ih =>
      simp only [List.length_cons]
      omega
  | case3 => exact Nat.le_refl _

theorem skipFraction_length (count places : Nat) (stream : Bytes) :
    (skipFraction count places stream).2.length ≤ stream.length := by
  fun_induction skipFraction count places stream with
  | case1 => exact Nat.le_refl _
  | case2 count places char stream digit few ih =>
      simp only [List.length_cons]
      omega
  | case3 count places char stream digit many ih =>
      simp only [List.length_cons]
      omega
  | case4 => exact Nat.le_refl _

theorem readExponent_length {maxExp value : Nat} {stream rest : Bytes}
    (parsed : readExponent maxExp value stream = some rest) : rest.length ≤ stream.length := by
  fun_induction readExponent maxExp value stream with
  | case1 =>
      cases parsed
      exact Nat.le_refl _
  | case2 => cases parsed
  | case3 value char stream digit small ih =>
      have shorter := ih parsed
      simp only [List.length_cons]
      omega
  | case4 =>
      cases parsed
      exact Nat.le_refl _

theorem parseExponent_length {places : Nat} {stream rest : Bytes}
    (parsed : parseExponent places stream = some rest) : rest.length ≤ stream.length := by
  have signed : ((consume 43 stream).getD ((consume 45 stream).getD stream)).length ≤
      stream.length := by
    cases taken : consume 43 stream with
    | none => exact consume_getD_length 45 stream
    | some after =>
        have shorter := consume_length taken
        simp only [Option.getD_some]
        omega
  simp only [parseExponent] at parsed
  split at parsed
  · cases parsed
  · rename_i char tail same
    rw [same] at signed
    simp only [List.length_cons] at signed
    split at parsed
    · split at parsed
      · cases parsed
        have shorter := (List.dropWhile_sublist (l := tail) isDigit).length_le
        omega
      · have shorter := readExponent_length parsed
        omega
    · cases parsed

/-- The integer part of a number takes no more than there is. -/
theorem parseInteger_length {minus useDouble : Bool} {value count : Nat} {stream rest : Bytes}
    (parsed : parseInteger minus stream = some (value, count, useDouble, rest)) :
    rest.length ≤ stream.length := by
  cases stream with
  | nil => cases parsed
  | cons char stream =>
      simp only [parseInteger] at parsed
      have first := readInteger_length (if minus then 2147483648 else 4294967295)
        (char.toNat - 48) 0 stream
      generalize readInteger (if minus then 2147483648 else 4294967295)
        (char.toNat - 48) 0 stream = short at first parsed
      obtain ⟨shortValue, shortCount, shortRest⟩ := short
      have second := readInteger_length
        (if minus then 9223372036854775808 else 18446744073709551615) shortValue shortCount
        shortRest
      simp only at first parsed
      generalize readInteger (if minus then 9223372036854775808 else 18446744073709551615)
        shortValue shortCount shortRest = long at second parsed
      obtain ⟨longValue, longCount, longRest⟩ := long
      simp only at second parsed
      simp only [List.length_cons]
      split at parsed
      · cases parsed
        omega
      · split at parsed
        · split at parsed
          · split at parsed
            · obtain ⟨after, read, same⟩ := Option.map_eq_some_iff.mp parsed
              have third := readDouble_length read
              cases same
              omega
            · cases parsed
              omega
          · cases parsed
            omega
        · cases parsed

theorem parseFraction_length {value count places : Nat} {useDouble fraction : Bool}
    {stream rest : Bytes}
    (parsed : parseFraction value count useDouble stream = some (places, fraction, rest)) :
    rest.length ≤ stream.length := by
  simp only [parseFraction] at parsed
  split at parsed
  · cases parsed
    exact Nat.le_refl _
  · rename_i after taken
    have shorter := consume_length taken
    split at parsed
    · have fast : (if useDouble = true then (count, 0, after) else
          readFraction value count 0 after).2.2.length ≤ after.length := by
        split
        · exact Nat.le_refl _
        · exact readFraction_length value count 0 after
      generalize (if useDouble = true then (count, 0, after) else
          readFraction value count 0 after) = read at fast parsed
      obtain ⟨readCount, readPlaces, readRest⟩ := read
      have slow := skipFraction_length readCount readPlaces readRest
      cases parsed
      simp only at fast ⊢
      omega
    · cases parsed

/-- Nor does the number as a whole. -/
theorem parseNumber_length {stream rest : Bytes} {value : Value}
    (parsed : parseNumber stream = some (value, rest)) : rest.length ≤ stream.length := by
  have signed := consume_getD_length 45 stream
  simp only [parseNumber, Option.bind_eq_bind, Option.bind_eq_some_iff] at parsed
  obtain ⟨⟨integer, count, useDouble, after⟩, first, ⟨places, fraction, tail⟩, second, final⟩ :=
    parsed
  have firstLength := parseInteger_length first
  simp only at second final
  have secondLength := parseFraction_length second
  split at final
  · rename_i exponent taken
    obtain ⟨after, third, same⟩ := Option.bind_eq_some_iff.mp final
    cases same
    have thirdLength := parseExponent_length third
    have marker : exponent.length + 1 = tail.length := by
      cases lower : consume 101 tail with
      | some _ =>
          rw [lower] at taken
          cases taken
          exact consume_length lower
      | none =>
          rw [lower] at taken
          exact consume_length taken
    omega
  · split at final
    · cases final
      omega
    · cases final
      omega

/-- None of the three mutual functions gives back more than it was given. -/
theorem parse_length (fuel : Nat) :
    (∀ {stream rest : Bytes} {value : Value},
      parseValue fuel stream = some (value, rest) → rest.length ≤ stream.length) ∧
    (∀ {stream rest : Bytes} {members : List (Bytes × Value)},
      parseMembers fuel stream = some (members, rest) → rest.length ≤ stream.length) ∧
    (∀ {stream rest : Bytes} {elements : List Value},
      parseElements fuel stream = some (elements, rest) → rest.length ≤ stream.length) := by
  induction fuel with
  | zero =>
      refine ⟨?_, ?_, ?_⟩
      all_goals
        intro _ _ _ parsed
        simp [parseValue, parseMembers, parseElements] at parsed
  | succ fuel ih =>
      obtain ⟨ihValue, ihMembers, ihElements⟩ := ih
      refine ⟨?_, ?_, ?_⟩
      · intro stream rest value parsed
        cases stream with
        | nil => exact parseNumber_length parsed
        | cons char stream =>
            have blanks := skipWhitespace_length stream
            simp only [parseValue] at parsed
            simp only [List.length_cons]
            repeat' split at parsed
            all_goals first
              | (obtain ⟨_, taken, same⟩ := Option.map_eq_some_iff.mp parsed
                 cases same
                 first
                   | have := consumeAll_length taken
                     omega
                   | have := parseStringToStream_length taken
                     omega
                   | have := ihMembers taken
                     omega
                   | have := ihElements taken
                     omega)
              | (cases parsed
                 rename_i taken
                 have := consume_length taken
                 omega)
              | exact parseNumber_length parsed
      · intro stream rest members parsed
        simp only [parseMembers, Option.bind_eq_bind, Option.bind_eq_some_iff] at parsed
        obtain ⟨opened, quote, ⟨name, named⟩, text, colon, taken, ⟨value, after⟩, inner, final⟩ :=
          parsed
        have quoteLength := consume_length quote
        have textLength := parseStringToStream_length text
        have colonLength := consume_length taken
        have namedBlanks := skipWhitespace_length named
        have colonBlanks := skipWhitespace_length colon
        have valueLength := ihValue inner
        have afterBlanks := skipWhitespace_length after
        simp only at final colonLength
        split at final
        · rename_i next comma
          have commaLength := consume_length comma
          have nextBlanks := skipWhitespace_length next
          obtain ⟨⟨others, closed⟩, more, same⟩ := Option.bind_eq_some_iff.mp final
          have moreLength := ihMembers more
          cases same
          simp only
          omega
        · obtain ⟨closed, brace, same⟩ := Option.bind_eq_some_iff.mp final
          have braceLength := consume_length brace
          cases same
          omega
      · intro stream rest elements parsed
        simp only [parseElements, Option.bind_eq_bind, Option.bind_eq_some_iff] at parsed
        obtain ⟨⟨value, after⟩, inner, final⟩ := parsed
        have valueLength := ihValue inner
        have afterBlanks := skipWhitespace_length after
        simp only at final
        split at final
        · rename_i next comma
          have commaLength := consume_length comma
          have nextBlanks := skipWhitespace_length next
          obtain ⟨⟨others, closed⟩, more, same⟩ := Option.bind_eq_some_iff.mp final
          have moreLength := ihElements more
          cases same
          simp only
          omega
        · obtain ⟨closed, bracket, same⟩ := Option.bind_eq_some_iff.mp final
          have bracketLength := consume_length bracket
          cases same
          omega

/-- Fuel beyond twice the stream's length changes nothing: every level of nesting
consumes a byte, and so does every further member or element. -/
theorem parse_fuel (fuel : Nat) :
    (∀ stream : Bytes, 2 * stream.length + 1 ≤ fuel →
      parseValue (fuel + 1) stream = parseValue fuel stream) ∧
    (∀ stream : Bytes, 2 * stream.length + 2 ≤ fuel →
      parseMembers (fuel + 1) stream = parseMembers fuel stream) ∧
    (∀ stream : Bytes, 2 * stream.length + 2 ≤ fuel →
      parseElements (fuel + 1) stream = parseElements fuel stream) := by
  induction fuel with
  | zero =>
      refine ⟨?_, ?_, ?_⟩
      all_goals
        intro stream enough
        omega
  | succ fuel ih =>
      obtain ⟨ihValue, ihMembers, ihElements⟩ := ih
      refine ⟨?_, ?_, ?_⟩
      · intro stream enough
        cases stream with
        | nil => rfl
        | cons char stream =>
            have blanks := skipWhitespace_length stream
            simp only [List.length_cons] at enough
            simp only [parseValue, ihMembers (skipWhitespace stream) (by omega),
              ihElements (skipWhitespace stream) (by omega)]
      · intro stream enough
        rw [parseMembers, parseMembers]
        refine Option.bind_congr ?_
        intro opened quote
        have quoteLength := consume_length quote
        refine Option.bind_congr ?_
        rintro ⟨name, named⟩ text
        have textLength := parseStringToStream_length text
        have namedBlanks := skipWhitespace_length named
        refine Option.bind_congr ?_
        intro colon taken
        have colonLength := consume_length taken
        have colonBlanks := skipWhitespace_length colon
        rw [ihValue (skipWhitespace colon) (by omega)]
        refine Option.bind_congr ?_
        rintro ⟨value, after⟩ inner
        have valueLength := (parse_length fuel).1 inner
        have afterBlanks := skipWhitespace_length after
        cases comma : consume 44 (skipWhitespace after) with
        | none => simp only [comma]
        | some next =>
            have commaLength := consume_length comma
            have nextBlanks := skipWhitespace_length next
            simp only [comma, ihMembers (skipWhitespace next) (by omega)]
      · intro stream enough
        rw [parseElements, parseElements, ihValue stream (by omega)]
        refine Option.bind_congr ?_
        rintro ⟨value, after⟩ inner
        have valueLength := (parse_length fuel).1 inner
        have afterBlanks := skipWhitespace_length after
        cases comma : consume 44 (skipWhitespace after) with
        | none => simp only [comma]
        | some next =>
            have commaLength := consume_length comma
            have nextBlanks := skipWhitespace_length next
            simp only [comma, ihElements (skipWhitespace next) (by omega)]

end Json
end HttpBackEnd
