import HttpBackEnd.OpenSsl.BioB64

/-! # Encoding and decoding in `sys_util.c`

`base64_encode` writes through the line mode of the BIO and replaces the last end of line
by the terminator; `base64_decode` reads in the mode without lines. The two agree on what
fits in one line, and on nothing else: without input there is no end of line to replace,
and from 49 bytes on there is one left in the text.
-/

namespace HttpBackEnd.OpenSsl

/-- `base64_encode`: what it returns and the memory at `dst` then; `none` is a write
outside of `dst`. -/
def base64Encode (src : Bytes) (len : Nat) (dst : Bytes) : Option (Int × Bytes) :=
  let (encData, written) := b64Write [] [] (src.take len)
  let data := b64Flush encData written
  -- with nothing written the index `length - 1` lies before `dst`
  if 0 < data.length ∧ data.length ≤ dst.length then
    some (data.length, data.set (data.length - 1) 0 ++ dst.drop data.length)
  else none

/-- `base64_decode`: what it returns and the memory at `dst` then. -/
def base64Decode (src : Bytes) (len : Nat) (dst : Bytes) : Option (Int × Bytes) :=
  let data := b64Read len 1 [] (src.take len)
  if data.length < dst.length then
    some (data.length, data ++ 0 :: dst.drop (data.length + 1))
  else none

/-- `base64_encode` of a string stays inside of a large enough destination and leaves a
terminated text there, and `base64_decode` of that text gives the string back. -/
def RoundTrip (input : Bytes) : Prop :=
  ∃ enough, ∀ dst : Bytes, enough ≤ dst.length →
    ∃ size memory, base64Encode input input.length dst = some (size, memory) ∧
      0 ∈ memory ∧
      ∃ room, ∀ target : Bytes, room ≤ target.length →
        ∃ rest, base64Decode memory (cstr memory).length target =
          some ((input.length : Int), input ++ 0 :: rest)

/-! ## Decoding a block -/

/-- A block of characters with a value is decoded whole. -/
theorem evpDecodeblockInt_of_value {block : Bytes}
    (valid : ∀ char ∈ block, (alphabet.value char).isSome) (whole : block.length % 4 = 0) :
    evpDecodeblockInt block = alphabet.decode block := by
  have start : block.dropWhile (fun char => convAscii2bin char = 0xE0) = block := by
    cases block with
    | nil => rfl
    | cons char block =>
        apply List.dropWhile_cons_of_neg
        simpa using (kept_of_value char (valid char List.mem_cons_self)).1
  have stop : stripReversed block.reverse = block.reverse := by
    cases reversed : block.reverse with
    | nil => rfl
    | cons char rest =>
        have member : char ∈ block := by
          rw [← List.mem_reverse, reversed]
          exact List.mem_cons_self
        simp [stripReversed, (kept_of_value char (valid char member)).2.1]
  simp only [evpDecodeblockInt, start, stop, List.reverse_reverse, whole, ne_eq,
    not_true_eq_false, if_false, decodeGroups_eq]

/-- Stripping stops at a character with a value. -/
theorem stripReversed_append {good : UInt8} (valid : (alphabet.value good).isSome)
    (back front : Bytes) :
    ∃ kept, stripReversed (back ++ good :: front) = kept ++ good :: front := by
  induction back with
  | nil =>
      refine ⟨[], ?_⟩
      simp [stripReversed, (kept_of_value good valid).2.1]
  | cons char back ih =>
      obtain ⟨kept, stripped⟩ := ih
      rw [List.cons_append, stripReversed]
      split
      · exact ⟨kept, stripped⟩
      · exact ⟨char :: back, rfl⟩

/-- A character without a value inside of a block makes the decoding fail. -/
theorem evpDecodeblockInt_eq_none {first bad good : UInt8}
    (starts : (alphabet.value first).isSome) (invalid : alphabet.value bad = none)
    (valid : (alphabet.value good).isSome) (front back : Bytes) :
    evpDecodeblockInt (first :: front ++ bad :: good :: back) = none := by
  have start : (first :: front ++ bad :: good :: back).dropWhile
      (fun char => convAscii2bin char = 0xE0) = first :: front ++ bad :: good :: back := by
    apply List.dropWhile_cons_of_neg
    simpa using (kept_of_value first starts).1
  obtain ⟨kept, stripped⟩ := stripReversed_append valid back.reverse (bad :: (first :: front).reverse)
  have stop : stripReversed (first :: front ++ bad :: good :: back).reverse =
      kept ++ good :: bad :: (first :: front).reverse := by
    rw [← stripped]
    simp
  simp only [evpDecodeblockInt, start, stop]
  split
  · rfl
  · next whole =>
      rw [decodeGroups_eq]
      refine Option.eq_none_iff_forall_ne_some.mpr fun output decoded => ?_
      have value : (alphabet.value bad).isSome :=
        Base64.Alphabet.value_of_mem_of_decode decoded (by simpa using whole) (by simp)
      rw [invalid] at value
      cases value

/-- The characters taken for padding are those of the encoding. -/
theorem paddingChars_encode {input : Bytes} (nonempty : input ≠ []) :
    paddingChars (alphabet.encode input) = Base64.Alphabet.padding input := by
  obtain ⟨symbols, last, lastSymbol, encoded⟩ :=
    @Base64.Alphabet.encode_eq_append _ alphabet input nonempty
  have atMost : Base64.Alphabet.padding input < 3 := Nat.mod_lt _ (by omega)
  have unpadded : last ≠ 61 := lastSymbol
  rw [encoded, show alphabet.pad = 61 from rfl]
  generalize Base64.Alphabet.padding input = count at atMost
  match count, atMost with
  | 0, _ => simp [paddingChars, unpadded]
  | 1, _ => simp [paddingChars, unpadded]
  | 2, _ => simp [paddingChars]

/-- A whole encoding is decoded in one block. -/
theorem b64ReadBlock_encode {input : Bytes} (nonempty : input ≠ []) :
    b64ReadBlock (alphabet.encode input) = ((input.length : Int), input, []) := by
  have lengthEq := @Base64.Alphabet.encode_length _ alphabet input
  have positive : 0 < input.length := List.length_pos_iff.mpr nonempty
  have groups : (alphabet.encode input).length / 4 * 4 = (alphabet.encode input).length := by
    omega
  have long : 2 < (alphabet.encode input).length := by
    rw [lengthEq, Base64.Alphabet.padding]
    omega
  have decoded : evpDecodeblockInt (alphabet.encode input) =
      some (input ++ List.replicate (Base64.Alphabet.padding input) 0) := by
    rw [evpDecodeblockInt_of_value (fun char => Base64.Alphabet.value_of_mem_encode input)
      (by omega)]
    exact Base64.Alphabet.decode_encode input
  simp only [b64ReadBlock, groups, List.take_length, List.drop_length, decoded, if_pos long,
    paddingChars_encode nonempty, List.length_append, List.length_replicate, Option.getD_some]
  simp

/-- Reading a text of one line gives the string back. -/
theorem b64Read_encode {input : Bytes} (nonempty : input ≠ [])
    (oneLine : input.length ≤ binPerLine) :
    b64Read (alphabet.encode input).length 1 [] (alphabet.encode input) = input := by
  have lengthEq := @Base64.Alphabet.encode_length _ alphabet input
  have positive : 0 < input.length := List.length_pos_iff.mpr nonempty
  have fits : (alphabet.encode input).length ≤ b64BlockSize := by
    rw [lengthEq, Base64.Alphabet.padding, b64BlockSize]
    unfold binPerLine at oneLine
    omega
  have longer : input.length < (alphabet.encode input).length := by
    rw [lengthEq, Base64.Alphabet.padding]
    omega
  have block : b64ReadBlock ((alphabet.encode input).take b64BlockSize) =
      ((input.length : Int), input, []) := by
    rw [List.take_of_length_le fits]
    exact b64ReadBlock_encode nonempty
  rw [b64Read_first (by omega) (by omega) block, if_neg (by omega),
    List.take_of_length_le longer.le, List.drop_eq_nil_of_le fits, b64Read_nil, List.append_nil]

/-- An end of line inside of the first block makes its count negative. -/
theorem b64ReadBlock_newline {line back : Bytes} {good : UInt8} (full : line.length = 64)
    (starts : ∀ char ∈ line, (alphabet.value char).isSome)
    (valid : (alphabet.value good).isSome) (longer : 2 ≤ back.length) :
    (b64ReadBlock (line ++ 10 :: good :: back)).1 < 0 := by
  obtain ⟨first, front, rfl⟩ : ∃ first front, line = first :: front := by
    cases line with
    | nil => cases full
    | cons first front => exact ⟨first, front, rfl⟩
  have lengthEq : (first :: front ++ 10 :: good :: back).length = back.length + 66 := by
    rw [List.length_append, full, List.length_cons, List.length_cons]
    omega
  -- the block is cut behind the character that follows the end of line
  have cut : (first :: front ++ 10 :: good :: back).take ((back.length + 66) / 4 * 4) =
      first :: front ++ 10 :: good :: back.take ((back.length + 66) / 4 * 4 - 66) := by
    obtain ⟨more, split⟩ : ∃ more, (back.length + 66) / 4 * 4 = 64 + (more + 2) :=
      ⟨(back.length + 66) / 4 * 4 - 66, by omega⟩
    rw [split, show 64 + (more + 2) - 66 = more from by omega]
    nth_rewrite 1 [← full]
    rw [List.take_length_add_append]
    rfl
  have failed := evpDecodeblockInt_eq_none (starts first List.mem_cons_self)
    (show alphabet.value 10 = none by decide) valid front
    (back.take ((back.length + 66) / 4 * 4 - 66))
  have atLeast (block : Bytes) : 0 ≤ paddingChars block := by
    unfold paddingChars
    split
    · split <;> omega
    · omega
  simp only [b64ReadBlock, lengthEq, cut, failed]
  split
  · have := atLeast (first :: front ++ 10 :: good :: back.take ((back.length + 66) / 4 * 4 - 66))
    omega
  · omega

/-- A text with an end of line behind its first 64 characters is read as nothing. -/
theorem b64Read_newline {line back : Bytes} {good : UInt8} (full : line.length = 64)
    (starts : ∀ char ∈ line, (alphabet.value char).isSome)
    (valid : (alphabet.value good).isSome) (longer : 2 ≤ back.length) {outl : Nat}
    (wanted : outl ≠ 0) : b64Read outl 1 [] (line ++ 10 :: good :: back) = [] := by
  have read : (line ++ 10 :: good :: back).take b64BlockSize =
      line ++ 10 :: good :: back.take 958 := by
    rw [show b64BlockSize = line.length + 960 from by rw [full]; rfl,
      List.take_length_add_append]
    rfl
  have negative : (b64ReadBlock ((line ++ 10 :: good :: back).take b64BlockSize)).1 < 0 := by
    rw [read]
    apply b64ReadBlock_newline full starts valid
    rw [List.length_take]
    omega
  have available : (line ++ 10 :: good :: back).length ≠ 0 := by
    rw [List.length_append]
    omega
  obtain ⟨z, buf, rest, block⟩ : ∃ z buf rest,
      b64ReadBlock ((line ++ 10 :: good :: back).take b64BlockSize) = (z, buf, rest) :=
    ⟨_, _, _, rfl⟩
  rw [block] at negative
  rw [b64Read_first wanted available block, if_pos negative]

/-! ## The text -/

theorem zero_not_mem_encodedText (input : Bytes) : (0 : UInt8) ∉ encodedText input := by
  fun_induction encodedText input with
  | case1 => exact List.not_mem_nil
  | case2 input nonempty ih =>
      intro member
      rcases List.mem_append.mp member with member | member
      · exact (kept_of_value 0 (Base64.Alphabet.value_of_mem_encode _ member)).2.2 rfl
      · rcases List.mem_cons.mp member with impossible | member
        · cases impossible
        · exact ih member

/-- The text of a string ends with an end of line. -/
theorem encodedText_concat {input : Bytes} (nonempty : input.length ≠ 0) :
    ∃ text, encodedText input = text ++ [10] := by
  fun_induction encodedText input with
  | case1 input empty => exact absurd empty nonempty
  | case2 input _ ih =>
      by_cases more : (input.drop binPerLine).length = 0
      · rw [List.length_eq_zero_iff.mp more, encodedText_nil]
        exact ⟨_, rfl⟩
      · obtain ⟨text, found⟩ := ih more
        exact ⟨alphabet.encode (input.take binPerLine) ++ 10 :: text, by simp [found]⟩

/-- The text of a string starts with a character that has a value, and at least two more
stand before its last end of line. -/
theorem encodedText_head {input : Bytes} (nonempty : input.length ≠ 0) :
    ∃ good back, (alphabet.value good).isSome ∧ 2 ≤ back.length ∧
      encodedText input = good :: back ++ [10] := by
  obtain ⟨text, ends⟩ := encodedText_concat nonempty
  have line := encodedText_cons nonempty
  have lengthEq := @Base64.Alphabet.encode_length _ alphabet (input.take binPerLine)
  have long : 4 ≤ (alphabet.encode (input.take binPerLine)).length := by
    rw [lengthEq, Base64.Alphabet.padding, List.length_take, binPerLine]
    omega
  have total := congrArg List.length (ends.symm.trans line)
  simp only [List.length_append, List.length_cons, List.length_nil] at total
  cases text with
  | nil =>
      simp only [List.length_nil] at total
      omega
  | cons good back =>
      simp only [List.length_cons] at total
      refine ⟨good, back, ?_, by omega, ends⟩
      apply Base64.Alphabet.value_of_mem_encode (input.take binPerLine)
      cases symbols : alphabet.encode (input.take binPerLine) with
      | nil =>
          rw [symbols] at long
          cases long
      | cons first rest =>
          rw [symbols, ends] at line
          rw [(List.cons.inj line).1]
          exact List.mem_cons_self

/-- `base64_encode` leaves the text in `dst`, its last end of line replaced. -/
theorem base64Encode_eq {input text : Bytes} (encoded : encodedText input = text ++ [10])
    (dst : Bytes) (fits : text.length < dst.length) :
    base64Encode input input.length dst =
      some (((text.length + 1 : Nat) : Int), text ++ 0 :: dst.drop (text.length + 1)) := by
  have data : b64Flush (b64Write [] [] input).1 (b64Write [] [] input).2 = text ++ [10] :=
    (b64Flush_text input).trans encoded
  simp only [base64Encode, List.take_length, data, List.length_append, List.length_singleton]
  rw [if_pos (by omega), Nat.add_sub_cancel, List.set_append_right _ _ le_rfl, Nat.sub_self,
    List.set_cons_zero, List.append_assoc, List.singleton_append]

theorem cstr_terminated {text : Bytes} (plain : (0 : UInt8) ∉ text) (rest : Bytes) :
    cstr (text ++ 0 :: rest) = text := by
  have nonzero : ∀ char ∈ text, decide (char ≠ 0) = true := by
    intro char member
    exact decide_eq_true fun zero => plain (zero ▸ member)
  rw [cstr, List.takeWhile_append_of_pos nonzero, List.takeWhile_cons_of_neg (by decide),
    List.append_nil]

/-- The memory `base64_decode` leaves when it reads a terminated text. -/
theorem base64Decode_eq (text rest : Bytes) (target : Bytes)
    (fits : (b64Read text.length 1 [] text).length < target.length) :
    base64Decode (text ++ 0 :: rest) text.length target =
      some (((b64Read text.length 1 [] text).length : Int), b64Read text.length 1 [] text ++
        0 :: target.drop ((b64Read text.length 1 [] text).length + 1)) := by
  simp only [base64Decode, List.take_left, if_pos fits]

/-- The text a string is encoded to, as `base64_decode` gets to see it. -/
theorem roundTrip_iff {input text : Bytes} (encoded : encodedText input = text ++ [10]) :
    RoundTrip input ↔ b64Read text.length 1 [] text = input := by
  have plain : (0 : UInt8) ∉ text := by
    have whole := zero_not_mem_encodedText input
    rw [encoded] at whole
    exact fun member => whole (List.mem_append_left _ member)
  refine ⟨fun ⟨enough, trip⟩ => ?_, fun decoded => ?_⟩
  · -- any destination and target that are large enough will do
    obtain ⟨size, memory, stored, -, room, back⟩ :=
      trip (List.replicate (enough + text.length + 1) 0) (by rw [List.length_replicate]; omega)
    rw [base64Encode_eq encoded _ (by rw [List.length_replicate]; omega)] at stored
    obtain rfl := (Prod.mk.inj (Option.some.inj stored)).2
    rw [cstr_terminated plain] at back
    obtain ⟨rest, result⟩ := back
      (List.replicate (room + (b64Read text.length 1 [] text).length + 1) 0)
      (by rw [List.length_replicate]; omega)
    rw [base64Decode_eq text _ _ (by rw [List.length_replicate]; omega)] at result
    obtain ⟨count, bytes⟩ := Prod.mk.inj (Option.some.inj result)
    exact List.append_inj_left bytes (by exact_mod_cast count)
  · refine ⟨text.length + 1, fun dst large => ?_⟩
    refine ⟨_, _, base64Encode_eq encoded dst large, by simp, input.length + 1, ?_⟩
    intro target room
    rw [cstr_terminated plain, base64Decode_eq text _ target (by rw [decoded]; exact room), decoded]
    exact ⟨_, rfl⟩

/-- Without input nothing is written to the memory BIO, so the terminator goes before the
destination. -/
theorem not_roundTrip_nil : ¬ RoundTrip [] := by
  intro ⟨enough, trip⟩
  obtain ⟨size, memory, stored, -⟩ := trip (List.replicate enough 0) (by simp)
  have data := b64Flush_text []
  rw [encodedText_nil] at data
  simp [base64Encode, data] at stored

/-- A string of one line comes back. -/
theorem roundTrip_of_line {input : Bytes} (nonempty : input.length ≠ 0)
    (oneLine : input.length ≤ binPerLine) : RoundTrip input := by
  have line := encodedText_cons nonempty
  rw [List.take_of_length_le oneLine, List.drop_eq_nil_of_le oneLine, encodedText_nil] at line
  rw [roundTrip_iff line]
  exact b64Read_encode (fun none => nonempty (by rw [none]; rfl)) oneLine

/-- A longer string is read as nothing, its text having an end of line at 64. -/
theorem not_roundTrip_of_long {input : Bytes} (long : binPerLine < input.length) :
    ¬ RoundTrip input := by
  have nonempty : input.length ≠ 0 := by omega
  have more : (input.drop binPerLine).length ≠ 0 := by
    rw [List.length_drop]
    omega
  obtain ⟨good, back, valid, longer, later⟩ := encodedText_head more
  have full : (alphabet.encode (input.take binPerLine)).length = 64 := by
    rw [Base64.Alphabet.encode_length, Base64.Alphabet.padding, List.length_take,
      min_eq_left long.le]
    rfl
  have line := encodedText_cons nonempty
  rw [later, ← List.cons_append, ← List.append_assoc] at line
  rw [roundTrip_iff line]
  have wanted : (alphabet.encode (input.take binPerLine) ++ 10 :: good :: back).length ≠ 0 := by
    rw [List.length_append]
    omega
  have nothing := b64Read_newline full
    (fun char => Base64.Alphabet.value_of_mem_encode _) valid longer wanted
  intro decoded
  rw [nothing] at decoded
  exact nonempty (congrArg List.length decoded.symm)

/-- **Decoding undoes encoding on one line.** `base64_decode` gives back what
`base64_encode` was given exactly when that is at least one byte and at most 48. -/
theorem base64_round_trip_iff (input : Bytes) :
    RoundTrip input ↔ 1 ≤ input.length ∧ input.length ≤ 48 := by
  by_cases empty : input.length = 0
  · obtain rfl := List.length_eq_zero_iff.mp empty
    exact ⟨fun trip => absurd trip not_roundTrip_nil, fun bounds => absurd bounds.1 (by decide)⟩
  by_cases oneLine : input.length ≤ 48
  · exact ⟨fun _ => ⟨by omega, oneLine⟩, fun _ => roundTrip_of_line empty oneLine⟩
  · have long : binPerLine < input.length := Nat.lt_of_not_le oneLine
    exact ⟨fun trip => absurd trip (not_roundTrip_of_long long), fun bounds => absurd bounds.2 oneLine⟩

/-- A string of 49 bytes does not come back. -/
theorem base64_long_string_lost : ¬ RoundTrip (List.replicate 49 65) := by
  apply not_roundTrip_of_long
  decide

end HttpBackEnd.OpenSsl
