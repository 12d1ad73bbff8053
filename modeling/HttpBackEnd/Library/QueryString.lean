import Mathlib.Data.List.Basic

/-! # Query strings

An ordinary query string is split at `&`, each part at its first `=`, and names and
values are percent-decoded. A percent sign that no two hexadecimal digits follow stands
for itself. Percent-decoding changes a text exactly when it holds an escape.
-/

namespace QueryString

/-- The value of a hexadecimal digit. -/
def hexValue (char : UInt8) : Option UInt8 :=
  if 48 ≤ char ∧ char ≤ 57 then some (char - 48)
  else if 65 ≤ char ∧ char ≤ 70 then some (char - 55)
  else if 97 ≤ char ∧ char ≤ 102 then some (char - 87)
  else none

/-- A percent sign with two hexadecimal digits, as the byte it stands for. -/
def escape (char first second : UInt8) : Option UInt8 :=
  if char = 37 then
    (hexValue first).bind fun high => (hexValue second).map fun low => 16 * high + low
  else none

/-- Replace every escape by its byte. -/
def percentDecode : List UInt8 → List UInt8
  | char :: first :: second :: rest =>
      match escape char first second with
      | some byte => byte :: percentDecode rest
      | none => char :: percentDecode (first :: second :: rest)
  | short => short

/-- The text holds an escape. -/
def hasEscape : List UInt8 → Bool
  | char :: first :: second :: rest =>
      (escape char first second).isSome || hasEscape (first :: second :: rest)
  | _ => false

/-- One part of a query string, split at its first `=`. -/
def pairOf (part : List UInt8) : List UInt8 × List UInt8 :=
  (percentDecode (part.takeWhile (· ≠ 61)), percentDecode ((part.dropWhile (· ≠ 61)).drop 1))

/-- The pairs of a query string. -/
def parse (query : List UInt8) : List (List UInt8 × List UInt8) := (query.splitOn 38).map pairOf

/-- Unreserved URI characters: letters, digits, `-`, `.`, `_` and `~`. -/
def unreserved (char : UInt8) : Bool :=
  (65 ≤ char && char ≤ 90) || (97 ≤ char && char ≤ 122) || (48 ≤ char && char ≤ 57) ||
    char = 45 || char = 46 || char = 95 || char = 126

theorem percentDecode_length (text : List UInt8) :
    (percentDecode text).length ≤ text.length := by
  fun_induction percentDecode text with
  | case1 char first second rest byte escaped ih =>
      simp only [List.length_cons]
      omega
  | case2 char first second rest plain ih =>
      simp only [List.length_cons] at ih ⊢
      omega
  | case3 short => exact Nat.le_refl _

theorem percentDecode_of_plain {text : List UInt8} (plain : hasEscape text = false) :
    percentDecode text = text := by
  fun_induction percentDecode text with
  | case1 char first second rest byte escaped ih =>
      simp [hasEscape, escaped] at plain
  | case2 char first second rest none ih =>
      rw [hasEscape, none] at plain
      rw [ih (by simpa using plain)]
  | case3 short => rfl

theorem percentDecode_shorter {text : List UInt8} (escaped : hasEscape text = true) :
    (percentDecode text).length < text.length := by
  fun_induction percentDecode text with
  | case1 char first second rest byte found ih =>
      have shorter := percentDecode_length rest
      simp only [List.length_cons]
      omega
  | case2 char first second rest none ih =>
      rw [hasEscape, none] at escaped
      have shorter := ih (by simpa using escaped)
      simp only [List.length_cons] at shorter ⊢
      omega
  | case3 short long =>
      unfold hasEscape at escaped
      split at escaped
      · exact absurd rfl (long _ _ _ _)
      · cases escaped

/-- Percent-decoding leaves exactly the texts without an escape alone. -/
theorem percentDecode_eq_self_iff (text : List UInt8) :
    percentDecode text = text ↔ hasEscape text = false := by
  constructor
  · intro same
    cases known : hasEscape text with
    | false => rfl
    | true =>
        have shorter := percentDecode_shorter known
        rw [same] at shorter
        exact absurd shorter (Nat.lt_irrefl _)
  · exact percentDecode_of_plain

/-- A text without a percent sign has no escape. -/
theorem hasEscape_of_no_percent {text : List UInt8} (plain : 37 ∉ text) :
    hasEscape text = false := by
  fun_induction hasEscape text with
  | case1 char first second rest ih =>
      simp only [List.mem_cons, not_or] at plain ih
      have none : escape char first second = none := by
        rw [escape, if_neg (Ne.symm plain.1)]
      rw [none, ih plain.2]
      rfl
  | case2 text short => rfl

/-- A part with a plain name gives that name and the decoded value. -/
theorem pairOf_append {name value : List UInt8} (separated : 61 ∉ name) (plain : 37 ∉ name) :
    pairOf (name ++ 61 :: value) = (name, percentDecode value) := by
  have inside : ∀ char ∈ name, (decide (char ≠ 61)) = true := by
    intro char member
    simp only [ne_eq, decide_not, Bool.not_eq_true', decide_eq_false_iff_not]
    intro same
    exact separated (same ▸ member)
  have before : (name ++ 61 :: value).takeWhile (· ≠ 61) = name := by
    rw [List.takeWhile_append_of_pos inside]
    simp
  have after : (name ++ 61 :: value).dropWhile (· ≠ 61) = 61 :: value := by
    rw [List.dropWhile_append_of_pos inside]
    simp
  rw [pairOf, before, after, percentDecode_of_plain (hasEscape_of_no_percent plain)]
  rfl

/-- Splitting at a character that occurs gives at least two parts. -/
theorem two_le_length_splitOn {char : UInt8} {text : List UInt8} (member : char ∈ text) :
    2 ≤ (text.splitOn char).length := by
  obtain ⟨before, after, rfl⟩ := List.append_of_mem member
  rw [List.splitOn_append_cons_self, List.length_append]
  have first := List.length_pos_iff.mpr (List.splitOn_ne_nil char before)
  have second := List.length_pos_iff.mpr (List.splitOn_ne_nil char after)
  omega

theorem not_unreserved {char : UInt8} (other : char ∈ ([32, 10, 13, 37, 38, 61] : List UInt8)) :
    unreserved char = false := by
  simp only [List.mem_cons, List.not_mem_nil, or_false] at other
  rcases other with rfl | rfl | rfl | rfl | rfl | rfl <;> rfl

end QueryString
