import Mathlib.Data.List.TakeWhile
import HttpBackEnd.Json.Schema

/-! # URIs and arguments

What nginx makes of the argument string of a subrequest: the request line the proxy
module sends (`ngx_http_proxy_create_request`), the lookup of one argument
(`ngx_http_arg`), and the decoding of its value (`set_unescape_uri`). The argument
string is copied into the request line as it is.
-/

namespace HttpBackEnd.Nginx

/-- The characters `ngx_escape_uri` escapes with `NGX_ESCAPE_URI`: space, `#`, `%`, `?`,
control characters and everything from 0x7F on. -/
def escapedInUri (char : UInt8) : Bool :=
  char < 32 || char = 32 || char = 35 || char = 37 || char = 63 || 127 ≤ char

/-- `ngx_escape_uri` with `NGX_ESCAPE_URI`. -/
def escapeUri (text : Bytes) : Bytes :=
  text.flatMap fun char =>
    if escapedInUri char then
      [37, Json.hexDigits (char.toNat / 16), Json.hexDigits (char.toNat % 16)]
    else [char]

/-- The URI in the request line of `ngx_http_proxy_create_request` for a subrequest:
the URI of `proxy_pass`, the part of the subrequest's URI after the location, and the
arguments. -/
def proxyUri (passUri location uri args : Bytes) : Bytes :=
  passUri ++ escapeUri (uri.drop location.length) ++
    (if 0 < args.length then ascii "?" ++ args else [])

/-- The request line of `ngx_http_proxy_create_request`. -/
def proxyRequestLine (passUri location uri args : Bytes) : Bytes :=
  ascii "GET " ++ proxyUri passUri location uri args ++ ascii " HTTP/1.0\r\n"

/-- `ngx_tolower` of one byte, as the case-insensitive comparisons do it. -/
def toLower (char : UInt8) : UInt8 := if 65 ≤ char ∧ char ≤ 90 then char ||| 32 else char

/-- The name followed by `=` stands at the head of the text. -/
def argAhead (name text : Bytes) : Bool :=
  (text.take name.length).map toLower = name.map toLower && text[name.length]? = some 61

/-- The loop of `ngx_http_arg`; the flag tells whether the text starts the arguments or
follows an `&`. -/
def argFrom (name : Bytes) : Bool → Bytes → Option Bytes
  | _, [] => none
  | boundary, char :: rest =>
      if boundary && argAhead name (char :: rest) then
        some (((char :: rest).drop (name.length + 1)).takeWhile (· ≠ 38))
      else argFrom name (char = 38) rest

/-- `ngx_http_arg`. -/
def httpArg (name args : Bytes) : Option Bytes := argFrom name true args

/-- The states of `ngx_unescape_uri_patched`. -/
inductive UnescapeState where
  | usual
  | quoted
  | quotedSecond (decoded : UInt8)

/-- A hexadecimal digit as `ngx_unescape_uri_patched` reads it. -/
def unescapeDigit (char : UInt8) : Option UInt8 :=
  if 48 ≤ char ∧ char ≤ 57 then some (char - 48)
  else if 97 ≤ char ||| 32 ∧ char ||| 32 ≤ 102 then some ((char ||| 32) - 97 + 10)
  else none

/-- `ngx_unescape_uri_patched` with `NGX_UNESCAPE_URI_COMPONENT`: `+` becomes a space,
the character after a `%` that is not a digit stays, and a second one that is not a
digit is dropped with the escape. -/
def unescapeFrom : UnescapeState → Bytes → Bytes
  | _, [] => []
  | .usual, char :: rest =>
      if char = 37 then unescapeFrom .quoted rest
      else if char = 43 then 32 :: unescapeFrom .usual rest
      else char :: unescapeFrom .usual rest
  | .quoted, char :: rest =>
      match unescapeDigit char with
      | some decoded => unescapeFrom (.quotedSecond decoded) rest
      | none => char :: unescapeFrom .usual rest
  | .quotedSecond decoded, char :: rest =>
      match unescapeDigit char with
      | some digit => ((decoded <<< 4) + digit) :: unescapeFrom .usual rest
      | none => unescapeFrom .usual rest

/-- `ngx_http_set_misc_unescape_uri`. -/
def setUnescapeUri (text : Bytes) : Bytes := unescapeFrom .usual text

/-! ## Decoding a value -/

theorem unescapeFrom_length (state : UnescapeState) (text : Bytes) :
    (unescapeFrom state text).length ≤ text.length := by
  induction text generalizing state with
  | nil =>
      cases state <;> exact Nat.le_refl _
  | cons char rest ih =>
      have usual := ih .usual
      cases state with
      | usual =>
          have quoted := ih .quoted
          simp only [unescapeFrom]
          split
          · simp only [List.length_cons]
            omega
          · split
            · simp only [List.length_cons]
              omega
            · simp only [List.length_cons]
              omega
      | quoted =>
          simp only [unescapeFrom]
          split
          · rename_i decoded digit
            have second := ih (.quotedSecond decoded)
            simp only [List.length_cons]
            omega
          · simp only [List.length_cons]
            omega
      | quotedSecond decoded =>
          simp only [unescapeFrom]
          split
          · simp only [List.length_cons]
            omega
          · simp only [List.length_cons]
            omega

/-- A percent sign makes the decoded value shorter, whatever follows it. -/
theorem setUnescapeUri_shorter {text : Bytes} (percent : 37 ∈ text) :
    (setUnescapeUri text).length < text.length := by
  unfold setUnescapeUri
  induction text with
  | nil => simp at percent
  | cons char rest ih =>
      by_cases here : char = 37
      · have quoted := unescapeFrom_length .quoted rest
        simp only [unescapeFrom, if_pos here, List.length_cons]
        omega
      · have later : 37 ∈ rest := by
          rcases List.mem_cons.mp percent with same | later
          · exact absurd same.symm here
          · exact later
        have shorter := ih later
        simp only [unescapeFrom, if_neg here]
        split
        · simp only [List.length_cons]
          omega
        · simp only [List.length_cons]
          omega

/-- The decoding leaves exactly the texts without `%` and `+` alone. -/
theorem setUnescapeUri_eq_self_iff (text : Bytes) :
    setUnescapeUri text = text ↔ 37 ∉ text ∧ 43 ∉ text := by
  constructor
  · intro same
    have plain : 37 ∉ text := by
      intro percent
      have shorter := setUnescapeUri_shorter percent
      rw [same] at shorter
      exact Nat.lt_irrefl _ shorter
    refine ⟨plain, ?_⟩
    induction text with
    | nil => exact List.not_mem_nil
    | cons char rest ih =>
        simp only [List.mem_cons, not_or] at plain ⊢
        simp only [setUnescapeUri, unescapeFrom, if_neg (Ne.symm plain.1)] at same
        split at same
        · rename_i plus
          rw [plus] at same
          cases same
        · rename_i other
          exact ⟨Ne.symm other, ih (List.cons.inj same).2 plain.2⟩
  · rintro ⟨percent, plus⟩
    induction text with
    | nil => rfl
    | cons char rest ih =>
        simp only [List.mem_cons, not_or] at percent plus
        have tail := ih percent.2 plus.2
        unfold setUnescapeUri at tail ⊢
        rw [unescapeFrom, if_neg (Ne.symm percent.1), if_neg (Ne.symm plus.1), tail]

/-! ## Looking an argument up -/

/-- Inside a value without `&` no argument starts. -/
theorem argFrom_skip {name value rest : Bytes} (plain : 38 ∉ value) :
    argFrom name false (value ++ 38 :: rest) = argFrom name true rest := by
  induction value with
  | nil => rfl
  | cons char value ih =>
      simp only [List.mem_cons, not_or] at plain
      have other : decide (char = 38) = false := by
        simpa using Ne.symm plain.1
      simp only [List.cons_append, argFrom, Bool.false_and, Bool.false_eq_true, ↓reduceIte, other]
      exact ih plain.2

/-- A part of the arguments with another name and without `&` is passed over. -/
theorem argFrom_other {name part rest : Bytes} (other : argAhead name (part ++ 38 :: rest) = false)
    (plain : 38 ∉ part) (present : part ≠ []) :
    argFrom name true (part ++ 38 :: rest) = argFrom name true rest := by
  cases part with
  | nil => exact absurd rfl present
  | cons char part =>
      simp only [List.mem_cons, not_or] at plain
      have inside : decide (char = 38) = false := by
        simpa using Ne.symm plain.1
      simp only [List.cons_append] at other ⊢
      simp only [argFrom, other, Bool.and_false, Bool.false_eq_true, ↓reduceIte, inside]
      exact argFrom_skip plain.2

/-- An argument with the name at the head is found, with its value up to the next `&`. -/
theorem argFrom_found {name value : Bytes} :
    argFrom name true (name ++ 61 :: value) = some (value.takeWhile (· ≠ 38)) := by
  have ahead : argAhead name (name ++ 61 :: value) = true := by
    simp [argAhead]
  have dropped : (name ++ 61 :: value).drop (name.length + 1) = value := by
    simp [List.drop_append]
  cases text : name ++ 61 :: value with
  | nil => simp at text
  | cons char rest =>
      rw [text] at ahead dropped
      simp only [argFrom, ahead, Bool.and_self, ↓reduceIte, dropped]

/-- A part of the arguments has an `&` only if its name or its value has one. -/
theorem argPart_plain {name value : Bytes} (plainName : 38 ∉ name) (plainValue : 38 ∉ value) :
    38 ∉ name ++ 61 :: value := by
  simp [plainName, plainValue]

theorem argAhead_other {letter char : UInt8} (different : toLower char ≠ toLower letter)
    (name text : Bytes) : argAhead (letter :: name) (char :: text) = false := by
  simp [argAhead, different]

/-- A value ends at the next `&`. -/
theorem takeWhile_value (value rest : Bytes) :
    (value ++ 38 :: rest).takeWhile (· ≠ 38) = value.takeWhile (· ≠ 38) := by
  induction value with
  | nil => rfl
  | cons char value ih =>
      rw [List.cons_append, List.takeWhile_cons, List.takeWhile_cons, ih]

/-- A value is found and decoded as it was written exactly when it has no `&`, no `%`
and no `+`. -/
theorem decoded_value_iff (value : Bytes) :
    setUnescapeUri (value.takeWhile (· ≠ 38)) = value ↔ 38 ∉ value ∧ 37 ∉ value ∧ 43 ∉ value := by
  have whole : 38 ∉ value → value.takeWhile (· ≠ 38) = value := by
    intro plain
    rw [List.takeWhile_eq_self_iff]
    intro char member
    simp only [ne_eq, decide_not, Bool.not_eq_true', decide_eq_false_iff_not]
    rintro rfl
    exact plain member
  constructor
  · intro same
    have shorter : value.length ≤ (value.takeWhile (· ≠ 38)).length := by
      conv_lhs => rw [← same]
      exact unescapeFrom_length .usual _
    have kept : value.takeWhile (· ≠ 38) = value :=
      (List.takeWhile_prefix _).eq_of_length_le shorter
    have plain : 38 ∉ value := by
      intro member
      have accepted := List.takeWhile_eq_self_iff.mp kept 38 member
      simp at accepted
    rw [kept] at same
    exact ⟨plain, (setUnescapeUri_eq_self_iff value).mp same⟩
  · rintro ⟨plain, others⟩
    rw [whole plain]
    exact (setUnescapeUri_eq_self_iff value).mpr others

end HttpBackEnd.Nginx
