import HttpBackEnd.OpenSsl.Encode

/-! # The base64 BIO

`crypto/evp/bio_b64.c` over a memory BIO. Writing goes through the line encoder, a block
of 1024 bytes at a time, and flushing writes the last line. Reading is the
`BIO_FLAGS_BASE64_NO_NL` branch: it decodes blocks, so an end of line inside one is an
error.
-/

namespace HttpBackEnd.OpenSsl

/-- `B64_BLOCK_SIZE`. -/
def b64BlockSize : Nat := 1024

/-! ## Writing -/

/-- `b64_write` in line mode, from what the encoder holds and what the memory BIO holds. -/
def b64Write (encData memory input : Bytes) : Bytes × Bytes :=
  if input.length = 0 then (encData, memory)
  else
    match evpEncodeUpdate encData (input.take b64BlockSize) with
    | none => (encData, memory)
    | some (buf, encData) => b64Write encData (memory ++ buf) (input.drop b64BlockSize)
termination_by input.length
decreasing_by
  simp only [b64BlockSize, List.length_drop]
  omega

/-- `BIO_CTRL_FLUSH` of `b64_ctrl` in line mode. -/
def b64Flush (encData memory : Bytes) : Bytes := memory ++ evpEncodeFinal encData

/-! ## Reading -/

/-- How many of the last two characters of a block are taken for padding. -/
def paddingChars (block : Bytes) : Int :=
  if block.getD (block.length - 1) 0 = 61 then
    if block.getD (block.length - 2) 0 = 61 then 2 else 1
  else 0

/-- One block of `b64_read`: the count `z`, the decoded bytes and the characters kept for
the next block. -/
def b64ReadBlock (tmp : Bytes) : Int × Bytes × Bytes :=
  let jj := tmp.length / 4 * 4
  let block := tmp.take jj
  let decoded := evpDecodeblockInt block
  let z : Int := match decoded with
    | none => -1
    | some buf => buf.length
  let z := if 2 < jj then z - paddingChars block else z
  (z, (decoded.getD []).take z.toNat, tmp.drop jj)

theorem b64ReadBlock_short {tmp : Bytes} (short : tmp.length < 4) :
    b64ReadBlock tmp = (0, [], tmp) := by
  have none_whole : tmp.length / 4 * 4 = 0 := by omega
  simp only [b64ReadBlock, none_whole]
  rfl

theorem b64ReadBlock_rest_length (tmp : Bytes) :
    (b64ReadBlock tmp).2.2.length = tmp.length % 4 := by
  simp only [b64ReadBlock, List.length_drop]
  omega

/-- The loop of `b64_read`: the bytes it delivers. The memory BIO returns 0 at its end,
so that is also the return value when nothing was decoded. -/
def b64Read (outl : Nat) (cont : Int) (tmp source : Bytes) : Bytes :=
  if outl = 0 ∨ cont ≤ 0 then []
  else
    let read := source.take (b64BlockSize - tmp.length)
    if read.length = 0 ∧ tmp.length = 0 then []
    else
      match _found : b64ReadBlock (tmp ++ read) with
      | (z, buf, rest) =>
      if z < 0 then []
      else
        buf.take outl ++
          b64Read (outl - buf.length) z rest (source.drop (b64BlockSize - tmp.length))
termination_by 2 * source.length + tmp.length + if 0 < cont then 1 else 0
decreasing_by
  -- a block that consumes nothing ends the loop by its count of zero
  have kept := b64ReadBlock_rest_length (tmp ++ read)
  rw [_found] at kept
  have consumed : (tmp ++ read).length < 4 → z = 0 := fun short => by
    rw [b64ReadBlock_short short] at _found
    exact congrArg Prod.fst _found.symm
  simp only [read, List.length_append, List.length_take, List.length_drop] at *
  split <;> split <;> omega

/-- The first round of the loop of `b64_read`. -/
theorem b64Read_first {outl : Nat} {source buf rest : Bytes} {z : Int}
    (wanted : outl ≠ 0) (available : source.length ≠ 0)
    (block : b64ReadBlock (source.take b64BlockSize) = (z, buf, rest)) :
    b64Read outl 1 [] source =
      if z < 0 then []
      else buf.take outl ++ b64Read (outl - buf.length) z rest (source.drop b64BlockSize) := by
  have read : (source.take b64BlockSize).length ≠ 0 := by
    simp only [List.length_take, b64BlockSize]
    omega
  rw [b64Read, if_neg (by omega)]
  simp only [List.length_nil, Nat.sub_zero, List.nil_append]
  rw [if_neg (fun none => read none.1), block]

/-- Without anything to read the loop of `b64_read` ends. -/
theorem b64Read_nil (outl : Nat) (cont : Int) : b64Read outl cont [] [] = [] := by
  rw [b64Read]
  split
  · rfl
  · simp

/-! ## The text written -/

/-- The base64 text of a string: lines of 48 bytes, each ended. -/
def encodedText (input : Bytes) : Bytes :=
  if input.length = 0 then []
  else alphabet.encode (input.take binPerLine) ++ 10 :: encodedText (input.drop binPerLine)
termination_by input.length
decreasing_by
  simp only [binPerLine, List.length_drop]
  omega

theorem encodedText_nil : encodedText [] = [] := by
  rw [encodedText]
  rfl

theorem encodedText_cons {input : Bytes} (nonempty : input.length ≠ 0) :
    encodedText input =
      alphabet.encode (input.take binPerLine) ++ 10 :: encodedText (input.drop binPerLine) := by
  rw [encodedText, if_neg nonempty]

/-- A full line is split off the text of what it stands before. -/
theorem encodedText_append {line : Bytes} (full : line.length = binPerLine) (rest : Bytes) :
    encodedText (line ++ rest) = alphabet.encode line ++ 10 :: encodedText rest := by
  have nonempty : (line ++ rest).length ≠ 0 := by
    simp only [List.length_append, full, binPerLine]
    omega
  rw [encodedText_cons nonempty, ← full, List.take_left, List.drop_left]

/-- The encoder's loop writes the text up to what it leaves. -/
theorem encodeFullLines_text (input rest : Bytes) :
    (encodeFullLines input).1 ++ encodedText ((encodeFullLines input).2 ++ rest) =
      encodedText (input ++ rest) := by
  fun_induction encodeFullLines input with
  | case1 input full later ih =>
      have line : (input.take binPerLine).length = binPerLine := by
        rw [List.length_take]
        exact min_eq_left full
      have whole := encodedText_append line (input.drop binPerLine ++ rest)
      rw [← List.append_assoc, List.take_append_drop] at whole
      rw [whole, ← ih, evpEncodeblockInt_eq]
      simp [later]
  | case2 input short => rfl

theorem encodeFullLines_short (input : Bytes) :
    (encodeFullLines input).2.length < binPerLine := by
  fun_induction encodeFullLines input with
  | case1 input full later ih => exact ih
  | case2 input short => exact Nat.lt_of_not_le short

/-- `EVP_EncodeUpdate` writes the text up to what it keeps pending, less than a line. -/
theorem evpEncodeUpdate_text {encData input buf pending : Bytes}
    (short : encData.length < binPerLine)
    (updated : evpEncodeUpdate encData input = some (buf, pending)) :
    pending.length < binPerLine ∧
      ∀ rest, buf ++ encodedText (pending ++ rest) = encodedText (encData ++ (input ++ rest)) := by
  simp only [evpEncodeUpdate] at updated
  split at updated
  · cases updated
  split at updated
  · next held =>
      cases updated
      refine ⟨?_, fun rest => ?_⟩
      · rw [List.length_append]
        omega
      · rw [List.nil_append, List.append_assoc]
  next long =>
  split at updated
  · obtain ⟨rfl, rfl⟩ := Prod.mk.inj (Option.some.inj updated)
    refine ⟨encodeFullLines_short _, fun rest => ?_⟩
    -- what was pending and the head of the input fill a line
    have line : (encData ++ input.take (binPerLine - encData.length)).length = binPerLine := by
      rw [List.length_append, List.length_take]
      omega
    have whole := encodedText_append line (input.drop (binPerLine - encData.length) ++ rest)
    rw [List.append_assoc, ← List.append_assoc (input.take _), List.take_append_drop] at whole
    have later := encodeFullLines_text (input.drop (binPerLine - encData.length)) rest
    rw [whole, ← later, evpEncodeblockInt_eq]
    simp
  · next empty =>
      obtain rfl : encData = [] := by simpa using empty
      have remaining := encodeFullLines_short input
      have lines := encodeFullLines_text input
      rw [Option.some.inj updated] at remaining lines
      exact ⟨remaining, lines⟩

theorem evpEncodeUpdate_isSome {input : Bytes} (nonempty : input.length ≠ 0) (encData : Bytes) :
    ∃ buf pending, evpEncodeUpdate encData input = some (buf, pending) := by
  simp only [evpEncodeUpdate, if_neg nonempty]
  split
  · exact ⟨_, _, rfl⟩
  · split
    · exact ⟨_, _, rfl⟩
    · exact ⟨_, _, rfl⟩

/-- Flushing after writing leaves the text of everything given to the encoder. -/
theorem b64Flush_b64Write (encData memory input : Bytes) (short : encData.length < binPerLine) :
    b64Flush (b64Write encData memory input).1 (b64Write encData memory input).2 =
      memory ++ encodedText (encData ++ input) := by
  fun_induction b64Write encData memory input with
  | case1 encData memory input empty =>
      obtain rfl : input = [] := List.length_eq_zero_iff.mp empty
      rw [b64Flush, evpEncodeFinal, List.append_nil]
      split
      · next pending =>
          rw [encodedText_cons pending, List.take_of_length_le short.le,
            List.drop_eq_nil_of_le short.le, encodedText_nil, evpEncodeblockInt_eq]
      · next none_pending =>
          obtain rfl : encData = [] := by simpa using none_pending
          rw [encodedText_nil]
  | case2 encData memory input nonempty refused =>
      have some_input : (input.take b64BlockSize).length ≠ 0 := by
        simp only [List.length_take, b64BlockSize]
        omega
      obtain ⟨buf, pending, updated⟩ := evpEncodeUpdate_isSome some_input encData
      rw [updated] at refused
      cases refused
  | case3 encData memory input nonempty buf pending updated ih =>
      obtain ⟨stillShort, text⟩ := evpEncodeUpdate_text short updated
      rw [ih stillShort, List.append_assoc, text, List.take_append_drop]

/-- What `base64_encode` finds in the memory BIO is the text. -/
theorem b64Flush_text (input : Bytes) :
    b64Flush (b64Write [] [] input).1 (b64Write [] [] input).2 = encodedText input := by
  have written := b64Flush_b64Write [] [] input (by decide)
  simpa using written

end HttpBackEnd.OpenSsl
