import HttpBackEnd.Json.Reader
import HttpBackEnd.Library.Base64
import Mathlib.Data.Nat.Bitwise

/-! # The base64 blocks of OpenSSL

`crypto/evp/encode.c`: the tables, the encoding of a block, the encoder that cuts its
input into lines of 64 characters, and the decoding of a block. The block functions are
the codec of `Base64` over the alphabet of the tables.
-/

namespace HttpBackEnd.OpenSsl

/-! ## The tables -/

/-- `data_bin2ascii`. -/
def dataBin2ascii : Bytes :=
  ascii "ABCDEFGHIJKLMNOPQRSTUVWXYZabcdefghijklmnopqrstuvwxyz0123456789+/"

/-- `data_ascii2bin`. -/
def dataAscii2bin : Bytes := [
  0xFF, 0xFF, 0xFF, 0xFF, 0xFF, 0xFF, 0xFF, 0xFF,
  0xFF, 0xE0, 0xF0, 0xFF, 0xFF, 0xF1, 0xFF, 0xFF,
  0xFF, 0xFF, 0xFF, 0xFF, 0xFF, 0xFF, 0xFF, 0xFF,
  0xFF, 0xFF, 0xFF, 0xFF, 0xFF, 0xFF, 0xFF, 0xFF,
  0xE0, 0xFF, 0xFF, 0xFF, 0xFF, 0xFF, 0xFF, 0xFF,
  0xFF, 0xFF, 0xFF, 0x3E, 0xFF, 0xF2, 0xFF, 0x3F,
  0x34, 0x35, 0x36, 0x37, 0x38, 0x39, 0x3A, 0x3B,
  0x3C, 0x3D, 0xFF, 0xFF, 0xFF, 0x00, 0xFF, 0xFF,
  0xFF, 0x00, 0x01, 0x02, 0x03, 0x04, 0x05, 0x06,
  0x07, 0x08, 0x09, 0x0A, 0x0B, 0x0C, 0x0D, 0x0E,
  0x0F, 0x10, 0x11, 0x12, 0x13, 0x14, 0x15, 0x16,
  0x17, 0x18, 0x19, 0xFF, 0xFF, 0xFF, 0xFF, 0xFF,
  0xFF, 0x1A, 0x1B, 0x1C, 0x1D, 0x1E, 0x1F, 0x20,
  0x21, 0x22, 0x23, 0x24, 0x25, 0x26, 0x27, 0x28,
  0x29, 0x2A, 0x2B, 0x2C, 0x2D, 0x2E, 0x2F, 0x30,
  0x31, 0x32, 0x33, 0xFF, 0xFF, 0xFF, 0xFF, 0xFF]

/-- `conv_bin2ascii`. -/
def convBin2ascii (a : Nat) : UInt8 := dataBin2ascii.getD (a &&& 0x3F) 0

/-- `conv_ascii2bin`. -/
def convAscii2bin (a : UInt8) : UInt8 :=
  if a &&& 0x80 ≠ 0 then 0xFF else dataAscii2bin.getD a.toNat 0xFF

/-- `B64_NOT_BASE64`: white space, an end of line or the end of file. -/
def notBase64 (a : UInt8) : Bool := a ||| 0x13 = 0xF3

/-! ## Blocks -/

/-- `evp_encodeblock_int`. -/
def evpEncodeblockInt : Bytes → Bytes
  | [] => []
  | [a] =>
      let l := a.toNat <<< 16
      [convBin2ascii (l >>> 18), convBin2ascii (l >>> 12), 61, 61]
  | [a, b] =>
      let l := a.toNat <<< 16 ||| b.toNat <<< 8
      [convBin2ascii (l >>> 18), convBin2ascii (l >>> 12), convBin2ascii (l >>> 6), 61]
  | a :: b :: c :: rest =>
      let l := a.toNat <<< 16 ||| b.toNat <<< 8 ||| c.toNat
      convBin2ascii (l >>> 18) :: convBin2ascii (l >>> 12) :: convBin2ascii (l >>> 6) ::
        convBin2ascii l :: evpEncodeblockInt rest

/-- The loop of `evp_decodeblock_int` over groups of four characters. -/
def decodeGroups : Bytes → Option Bytes
  | f₀ :: f₁ :: f₂ :: f₃ :: rest =>
      let a := convAscii2bin f₀
      let b := convAscii2bin f₁
      let c := convAscii2bin f₂
      let d := convAscii2bin f₃
      if a &&& 0x80 ≠ 0 ∨ b &&& 0x80 ≠ 0 ∨ c &&& 0x80 ≠ 0 ∨ d &&& 0x80 ≠ 0 then none
      else
        let l := a.toNat <<< 18 ||| b.toNat <<< 12 ||| c.toNat <<< 6 ||| d.toNat
        (decodeGroups rest).map ([(l >>> 16).toUInt8, (l >>> 8).toUInt8, l.toUInt8] ++ ·)
  | _ => some []

/-- The second loop of `evp_decodeblock_int`, over the line read backwards. -/
def stripReversed : Bytes → Bytes
  | [] => []
  | char :: rest =>
      if 3 < (char :: rest).length ∧ notBase64 (convAscii2bin char) then stripReversed rest
      else char :: rest

/-- `evp_decodeblock_int`; `none` is its error. -/
def evpDecodeblockInt (f : Bytes) : Option Bytes :=
  let line := f.dropWhile fun char => convAscii2bin char = 0xE0
  let line := (stripReversed line.reverse).reverse
  if line.length % 4 ≠ 0 then none else decodeGroups line

/-! ## Lines -/

/-- `BIN_PER_LINE`, the length `EVP_EncodeInit` sets. -/
def binPerLine : Nat := 48

/-- The loop of `EVP_EncodeUpdate`: the lines of the input and what is left of it. -/
def encodeFullLines (input : Bytes) : Bytes × Bytes :=
  if binPerLine ≤ input.length then
    let later := encodeFullLines (input.drop binPerLine)
    (evpEncodeblockInt (input.take binPerLine) ++ 10 :: later.1, later.2)
  else ([], input)
termination_by input.length
decreasing_by
  simp only [binPerLine, List.length_drop] at *
  omega

/-- `EVP_EncodeUpdate` with `encData` pending: the output and what is pending then. The
test of the output's size is left out, inputs being at most a block long. -/
def evpEncodeUpdate (encData input : Bytes) : Option (Bytes × Bytes) :=
  if input.length = 0 then none
  else if input.length < binPerLine - encData.length then some ([], encData ++ input)
  else if encData.length ≠ 0 then
    let i := binPerLine - encData.length
    let later := encodeFullLines (input.drop i)
    some (evpEncodeblockInt (encData ++ input.take i) ++ 10 :: later.1, later.2)
  else some (encodeFullLines input)

/-- `EVP_EncodeFinal`. -/
def evpEncodeFinal (encData : Bytes) : Bytes :=
  if encData.length ≠ 0 then evpEncodeblockInt encData ++ [10] else []

/-! ## The blocks are the codec of the alphabet -/

theorem forall_char {holds : UInt8 → Prop} (checked : ∀ n, n < 256 → holds n.toUInt8)
    (char : UInt8) : holds char := by
  have found := checked char.toNat char.toNat_lt
  rwa [show char.toNat.toUInt8 = char from UInt8.ofNat_toNat] at found

theorem convAscii2bin_lt (char : UInt8) :
    convAscii2bin char &&& 0x80 = 0 → (convAscii2bin char).toNat < 64 := by
  revert char
  refine forall_char ?_
  decide +kernel

/-- The alphabet of the tables. -/
def alphabet : Base64.Alphabet UInt8 where
  symbol := convBin2ascii
  pad := 61
  value char :=
    if convAscii2bin char &&& 0x80 ≠ 0 then none else some (convAscii2bin char).toNat
  value_symbol := by decide +kernel
  value_pad := by decide +kernel
  symbol_ne_pad := by decide +kernel

/-- A character with a value is not stripped at either end of a line, and is not NUL. -/
theorem kept_of_value (char : UInt8) :
    (alphabet.value char).isSome →
      convAscii2bin char ≠ 0xE0 ∧ notBase64 (convAscii2bin char) = false ∧ char ≠ 0 := by
  revert char
  refine forall_char ?_
  decide +kernel

theorem convBin2ascii_eq (a : Nat) : convBin2ascii a = alphabet.symbol (a % 64) := by
  change convBin2ascii a = convBin2ascii (a % 64)
  simp only [convBin2ascii, show (0x3F : Nat) = 2 ^ 6 - 1 from rfl, Nat.and_two_pow_sub_one_eq_mod]
  rw [show a % 64 % 2 ^ 6 = a % 2 ^ 6 from Nat.mod_mod a 64]

/-- The shifts of `evp_encodeblock_int` put the word of three bytes together. -/
theorem shifted_word (a b c : UInt8) :
    a.toNat <<< 16 ||| b.toNat <<< 8 ||| c.toNat = Base64.Alphabet.word a b c := by
  have b_lt := b.toNat_lt
  have c_lt := c.toNat_lt
  have high : a.toNat <<< 16 ||| b.toNat <<< 8 = (a.toNat * 256 + b.toNat) <<< 8 := by
    rw [← Nat.shiftLeft_add_eq_or_of_lt]
    · simp only [Nat.shiftLeft_eq]
      omega
    · rw [Nat.shiftLeft_eq]
      omega
  rw [high, ← Nat.shiftLeft_add_eq_or_of_lt c_lt, Nat.shiftLeft_eq]
  unfold Base64.Alphabet.word
  omega

/-- `evp_encodeblock_int` is the encoder of the alphabet. -/
theorem evpEncodeblockInt_eq (block : Bytes) : evpEncodeblockInt block = alphabet.encode block := by
  fun_induction evpEncodeblockInt block with
  | case1 => rfl
  | case2 a l =>
      have word : l = Base64.Alphabet.word a 0 0 := by
        have whole := shifted_word a 0 0
        simpa using whole
      simp only [word, convBin2ascii_eq, Nat.shiftRight_eq_div_pow]
      rfl
  | case3 a b l =>
      have word : l = Base64.Alphabet.word a b 0 := by
        have whole := shifted_word a b 0
        simpa using whole
      simp only [word, convBin2ascii_eq, Nat.shiftRight_eq_div_pow]
      rfl
  | case4 a b c rest l ih =>
      have word : l = Base64.Alphabet.word a b c := shifted_word a b c
      simp only [word, ih, convBin2ascii_eq, Nat.shiftRight_eq_div_pow]
      rfl

/-- The shifts of `evp_decodeblock_int` put four values below 64 together. -/
theorem shifted_values {a b c d : Nat} (b_lt : b < 64) (c_lt : c < 64) (d_lt : d < 64) :
    a <<< 18 ||| b <<< 12 ||| c <<< 6 ||| d = a * 262144 + b * 4096 + c * 64 + d := by
  have first : a <<< 18 ||| b <<< 12 = (a * 64 + b) <<< 12 := by
    rw [← Nat.shiftLeft_add_eq_or_of_lt]
    · simp only [Nat.shiftLeft_eq]
      omega
    · rw [Nat.shiftLeft_eq]
      omega
  have second : (a * 64 + b) <<< 12 ||| c <<< 6 = (a * 4096 + b * 64 + c) <<< 6 := by
    rw [← Nat.shiftLeft_add_eq_or_of_lt]
    · simp only [Nat.shiftLeft_eq]
      omega
    · rw [Nat.shiftLeft_eq]
      omega
  rw [first, second, ← Nat.shiftLeft_add_eq_or_of_lt d_lt, Nat.shiftLeft_eq]
  omega

theorem value_of_valid {char : UInt8} (valid : convAscii2bin char &&& 0x80 = 0) :
    alphabet.value char = some (convAscii2bin char).toNat := by
  simp [alphabet, valid]

theorem value_of_invalid {char : UInt8} (invalid : convAscii2bin char &&& 0x80 ≠ 0) :
    alphabet.value char = none := by
  simp [alphabet, invalid]

/-- The loop of `evp_decodeblock_int` is the decoder of the alphabet. -/
theorem decodeGroups_eq (block : Bytes) : decodeGroups block = alphabet.decode block := by
  fun_induction decodeGroups block with
  | case1 f₀ f₁ f₂ f₃ rest a b c d invalid =>
      unfold Base64.Alphabet.decode
      rcases invalid with invalid | invalid | invalid | invalid
      · rw [value_of_invalid invalid]
      all_goals
        rw [value_of_invalid invalid]
        split <;> simp_all
  | case2 f₀ f₁ f₂ f₃ rest a b c d valid l ih =>
      simp only [not_or, not_not] at valid
      obtain ⟨valid₀, valid₁, valid₂, valid₃⟩ := valid
      have word : l = a.toNat * 262144 + b.toNat * 4096 + c.toNat * 64 + d.toNat :=
        shifted_values (convAscii2bin_lt _ valid₁) (convAscii2bin_lt _ valid₂)
          (convAscii2bin_lt _ valid₃)
      simp only [Base64.Alphabet.decode, value_of_valid valid₀, value_of_valid valid₁,
        value_of_valid valid₂, value_of_valid valid₃, ih, word, Nat.shiftRight_eq_div_pow]
      rfl
  | case3 block short =>
      unfold Base64.Alphabet.decode
      split
      · exact absurd rfl (short _ _ _ _ _)
      · rfl

end HttpBackEnd.OpenSsl
