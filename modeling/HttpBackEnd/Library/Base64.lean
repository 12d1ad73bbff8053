import Mathlib.Data.List.Basic

/-! # Base64 groups

Three bytes are four symbols of six bits. A codec is given by its alphabet: a symbol for
each value below 64 and a padding symbol, which reads as zero. Decoding what was encoded
gives the bytes back, followed by a zero for each padding symbol; whoever decodes has to
take these off.
-/

namespace Base64

/-- An alphabet of 64 symbols and a padding symbol. -/
structure Alphabet (Symbol : Type*) where
  symbol : Nat → Symbol
  pad : Symbol
  value : Symbol → Option Nat
  value_symbol : ∀ index, index < 64 → value (symbol index) = some index
  value_pad : value pad = some 0
  symbol_ne_pad : ∀ index, index < 64 → symbol index ≠ pad

namespace Alphabet

variable {Symbol : Type*} (alphabet : Alphabet Symbol)

/-- The four symbols of a word of 24 bits, from the highest bits down. -/
def first (word : Nat) : Symbol := alphabet.symbol (word / 262144 % 64)

@[inherit_doc first]
def second (word : Nat) : Symbol := alphabet.symbol (word / 4096 % 64)

@[inherit_doc first]
def third (word : Nat) : Symbol := alphabet.symbol (word / 64 % 64)

@[inherit_doc first]
def fourth (word : Nat) : Symbol := alphabet.symbol (word % 64)

/-- The word of up to three bytes. -/
def word (a b c : UInt8) : Nat := a.toNat * 65536 + b.toNat * 256 + c.toNat

/-- Encode group by group; the last one is padded. -/
def encode : List UInt8 → List Symbol
  | [] => []
  | [a] => [alphabet.first (word a 0 0), alphabet.second (word a 0 0), alphabet.pad, alphabet.pad]
  | [a, b] => [alphabet.first (word a b 0), alphabet.second (word a b 0),
      alphabet.third (word a b 0), alphabet.pad]
  | a :: b :: c :: rest => alphabet.first (word a b c) :: alphabet.second (word a b c) ::
      alphabet.third (word a b c) :: alphabet.fourth (word a b c) :: encode rest

/-- The three bytes of a word. -/
def bytes (word : Nat) : List UInt8 :=
  [(word / 65536).toUInt8, (word / 256).toUInt8, word.toUInt8]

/-- Decode whole groups. -/
def decode : List Symbol → Option (List UInt8)
  | a :: b :: c :: d :: rest =>
      match alphabet.value a, alphabet.value b, alphabet.value c, alphabet.value d with
      | some a, some b, some c, some d =>
          (decode rest).map (bytes (a * 262144 + b * 4096 + c * 64 + d) ++ ·)
      | _, _, _, _ => none
  | _ => some []

/-- How many padding symbols the encoding ends with. -/
def padding (input : List UInt8) : Nat := (3 - input.length % 3) % 3

variable {alphabet}

theorem word_lt (a b c : UInt8) : word a b c < 16777216 := by
  have := a.toNat_lt
  have := b.toNat_lt
  have := c.toNat_lt
  unfold word
  omega

theorem toUInt8_toNat_mod (byte : UInt8) (rest : Nat) :
    (rest * 256 + byte.toNat).toUInt8 = byte := by
  apply UInt8.toNat_inj.mp
  have := byte.toNat_lt
  simp only [Nat.toUInt8, UInt8.toNat_ofNat']
  omega

/-- The bytes of a word are the bytes it was made of. -/
theorem bytes_word (a b c : UInt8) : bytes (word a b c) = [a, b, c] := by
  have := b.toNat_lt
  have := c.toNat_lt
  have high : word a b c / 65536 = 0 * 256 + a.toNat := by
    unfold word
    omega
  have middle : word a b c / 256 = a.toNat * 256 + b.toNat := by
    unfold word
    omega
  have low : word a b c = (a.toNat * 256 + b.toNat) * 256 + c.toNat := by
    unfold word
    omega
  simp only [bytes, high, middle, toUInt8_toNat_mod]
  rw [low, toUInt8_toNat_mod]

/-- A word is put together from its four values. -/
theorem word_values (a b c : UInt8) :
    word a b c / 262144 % 64 * 262144 + word a b c / 4096 % 64 * 4096 +
      word a b c / 64 % 64 * 64 + word a b c % 64 = word a b c := by
  have := word_lt a b c
  omega

theorem encode_length (input : List UInt8) :
    (alphabet.encode input).length = (input.length + padding input) / 3 * 4 := by
  fun_induction encode alphabet input with
  | case1 => rfl
  | case2 a => simp [padding]
  | case3 a b => simp [padding]
  | case4 a b c rest ih =>
      simp only [List.length_cons, ih, padding]
      omega

/-- Every symbol of an encoding has a value. -/
theorem value_of_mem_encode (input : List UInt8) {symbol : Symbol}
    (member : symbol ∈ alphabet.encode input) : (alphabet.value symbol).isSome := by
  have value_some (index : Nat) : (alphabet.value (alphabet.symbol (index % 64))).isSome := by
    rw [alphabet.value_symbol _ (Nat.mod_lt _ (by omega))]
    rfl
  have pad_some : (alphabet.value alphabet.pad).isSome := by
    rw [alphabet.value_pad]
    rfl
  fun_induction encode alphabet input with
  | case1 => simp at member
  | case2 a =>
      simp only [List.mem_cons, List.not_mem_nil, or_false] at member
      rcases member with rfl | rfl | rfl | rfl
      exacts [value_some _, value_some _, pad_some, pad_some]
  | case3 a b =>
      simp only [List.mem_cons, List.not_mem_nil, or_false] at member
      rcases member with rfl | rfl | rfl | rfl
      exacts [value_some _, value_some _, value_some _, pad_some]
  | case4 a b c rest ih =>
      simp only [List.mem_cons] at member
      rcases member with rfl | rfl | rfl | rfl | member
      exacts [value_some _, value_some _, value_some _, value_some _, ih member]

/-- Whole groups that decode hold symbols with a value only. -/
theorem value_of_mem_of_decode {symbols : List Symbol} {output : List UInt8}
    (decoded : alphabet.decode symbols = some output) (whole : symbols.length % 4 = 0)
    {symbol : Symbol} (member : symbol ∈ symbols) : (alphabet.value symbol).isSome := by
  fun_induction decode alphabet symbols generalizing output with
  | case1 a b c d rest a' b' c' d' valueD valueC valueB valueA ih =>
      obtain ⟨tail, decodedTail, -⟩ := Option.map_eq_some_iff.mp decoded
      simp only [List.mem_cons] at member
      rcases member with rfl | rfl | rfl | rfl | member
      · rw [valueA]; rfl
      · rw [valueB]; rfl
      · rw [valueC]; rfl
      · rw [valueD]; rfl
      · refine ih decodedTail ?_ member
        simp only [List.length_cons] at whole
        omega
  | case2 => cases decoded
  | case3 symbols short =>
      match symbols, short with
      | [], _ => cases member
      | [_], _ => simp at whole
      | [_, _], _ => simp at whole
      | [_, _, _], _ => simp at whole
      | a :: b :: c :: d :: rest, short => exact absurd rfl (short a b c d rest)

/-- An encoding ends with a symbol of the alphabet and then its padding. -/
theorem encode_eq_append (input : List UInt8) (nonempty : input ≠ []) :
    ∃ symbols last, last ≠ alphabet.pad ∧
      alphabet.encode input = symbols ++ last :: List.replicate (padding input) alphabet.pad := by
  have distinct (index : Nat) : alphabet.symbol (index % 64) ≠ alphabet.pad :=
    alphabet.symbol_ne_pad _ (Nat.mod_lt _ (by omega))
  fun_induction encode alphabet input with
  | case1 => exact absurd rfl nonempty
  | case2 a => exact ⟨[alphabet.first (word a 0 0)], alphabet.second (word a 0 0), distinct _, rfl⟩
  | case3 a b =>
      exact ⟨[alphabet.first (word a b 0), alphabet.second (word a b 0)],
        alphabet.third (word a b 0), distinct _, rfl⟩
  | case4 a b c rest ih =>
      have samePadding : padding (a :: b :: c :: rest) = padding rest := by
        simp only [padding, List.length_cons]
        omega
      by_cases more : rest = []
      · subst more
        refine ⟨[alphabet.first (word a b c), alphabet.second (word a b c),
          alphabet.third (word a b c)], alphabet.fourth (word a b c), distinct _, ?_⟩
        rw [samePadding]
        rfl
      · obtain ⟨symbols, last, lastSymbol, encoded⟩ := ih more
        refine ⟨alphabet.first (word a b c) :: alphabet.second (word a b c) ::
          alphabet.third (word a b c) :: alphabet.fourth (word a b c) :: symbols, last,
          lastSymbol, ?_⟩
        rw [encoded, samePadding]
        rfl

/-- Decoding undoes encoding, up to a zero for each padding symbol. -/
theorem decode_encode (input : List UInt8) :
    alphabet.decode (alphabet.encode input) =
      some (input ++ List.replicate (padding input) 0) := by
  have value (index : Nat) : alphabet.value (alphabet.symbol (index % 64)) = some (index % 64) :=
    alphabet.value_symbol _ (Nat.mod_lt _ (by omega))
  fun_induction encode alphabet input with
  | case1 => rfl
  | case2 a =>
      have low : word a 0 0 / 64 % 64 = 0 ∧ word a 0 0 % 64 = 0 := by
        simp only [word, UInt8.toNat_zero]
        omega
      have whole := word_values a 0 0
      rw [low.1, low.2] at whole
      simp only [decode, first, second, value, alphabet.value_pad]
      rw [whole, bytes_word]
      rfl
  | case3 a b =>
      have low : word a b 0 % 64 = 0 := by
        simp only [word, UInt8.toNat_zero]
        omega
      have whole := word_values a b 0
      rw [low] at whole
      simp only [decode, first, second, third, value, alphabet.value_pad]
      rw [whole, bytes_word]
      rfl
  | case4 a b c rest ih =>
      have samePadding : padding (a :: b :: c :: rest) = padding rest := by
        simp only [padding, List.length_cons]
        omega
      simp only [decode, first, second, third, fourth, value, ih, word_values, bytes_word,
        samePadding]
      rfl

end Alphabet

end Base64
