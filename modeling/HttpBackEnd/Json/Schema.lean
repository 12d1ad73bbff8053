import HttpBackEnd.Json.Reader

/-! # The generated schema classes over slothjson

`LoginParam`, `WXSessionInfo` and `LoginBackParam` with the decoders and the
encoder that slothjson generates for them. A decoder looks up each of its members
by name. An absent member keeps the value the constructor gave the field, a
member of the wrong type fails the whole decoding, and every other member is
ignored. The `__json_has_*` flags are left out because nothing reads them.
-/

namespace HttpBackEnd.Json

/-- `decode_document` over a parsed document. The top-level member names are
copied as C strings; a document that failed to parse stays null. -/
def decodeDocument : Option Value → Value
  | none => .null
  | some (.object members) => .object (members.map fun member => (cstr member.1, member.2))
  | some value => value

/-- `slothjson::decode(const rapidjson::Value&, std::string&)`. -/
def decodeString : Value → Option Bytes
  | .string text => some (cstr text)
  | _ => none

/-- `slothjson::decode(const rapidjson::Value&, int32_t&)`. -/
def decodeInt32 : Value → Option Int
  | .int value => if -2147483648 ≤ value ∧ value ≤ 2147483647 then some value else none
  | _ => none

/-- `decode_field`: `initial` is the value the field was constructed with, and
`HasMember` and `operator[]` both find the first member of that name. -/
def decodeField {Field : Type} (decode : Value → Option Field) (initial : Field) (json : Value)
    (fieldName : Bytes) : Option Field :=
  match json with
  | .object members =>
      match members.lookup fieldName with
      | some value => decode value
      | none => some initial
  | _ => none

/-- The body of a login request. -/
structure LoginParam where
  code : Bytes
deriving DecidableEq, Repr

/-- `LoginParam::decode`. -/
def LoginParam.decodeValue (json : Value) : Option LoginParam := do
  let code ← decodeField decodeString [] json (ascii "code")
  return { code }

/-- The answer of the WeChat endpoint. -/
structure WXSessionInfo where
  sessionKey : Bytes
  openid : Bytes
  unionid : Bytes
  expiresIn : Int
deriving DecidableEq, Repr

/-- `WXSessionInfo::decode`. -/
def WXSessionInfo.decodeValue (json : Value) : Option WXSessionInfo := do
  let sessionKey ← decodeField decodeString [] json (ascii "session_key")
  let openid ← decodeField decodeString [] json (ascii "openid")
  let unionid ← decodeField decodeString [] json (ascii "unionid")
  let expiresIn ← decodeField decodeInt32 0 json (ascii "expires_in")
  return { sessionKey, openid, unionid, expiresIn }

/-- The answer to a successful login. -/
structure LoginBackParam where
  expire : Int
  sessionId : Bytes
  openid : Bytes
deriving DecidableEq, Repr

/-- `decode<LoginParam>` of a text. -/
def LoginParam.decode (text : Bytes) : Option LoginParam :=
  LoginParam.decodeValue (decodeDocument (parse text))

/-- `decode<WXSessionInfo>` of a text. -/
def WXSessionInfo.decode (text : Bytes) : Option WXSessionInfo :=
  WXSessionInfo.decodeValue (decodeDocument (parse text))

/-! ## The writer -/

/-- The upper-case hexadecimal digits of `Writer::WriteString`. -/
def hexDigits (value : Nat) : UInt8 :=
  if value < 10 then (48 + value).toUInt8 else (55 + value).toUInt8

/-- One byte of `Writer::WriteString`: quotes, backslashes and control characters
are escaped, and bytes from 0x80 on are copied. -/
def writeChar (char : UInt8) : Bytes :=
  if char = 34 then [92, 34]
  else if char = 92 then [92, 92]
  else if char = 8 then ascii "\\b"
  else if char = 9 then ascii "\\t"
  else if char = 10 then ascii "\\n"
  else if char = 12 then ascii "\\f"
  else if char = 13 then ascii "\\r"
  else if char < 32 then
    ascii "\\u00" ++ [hexDigits (char.toNat / 16), hexDigits (char.toNat % 16)]
  else [char]

/-- `Writer::WriteString` over the C string of a `std::string`. -/
def writeString (text : Bytes) : Bytes := [34] ++ (cstr text).flatMap writeChar ++ [34]

/-- The members of an object as `PrettyWriter` puts them, one a line. -/
def writeMembers (members : List (Bytes × Bytes)) : Bytes :=
  ascii "\x7b" ++
    List.intercalate (ascii ",")
      (members.map fun member => ascii "\n    " ++ writeString member.1 ++ ascii ": " ++ member.2) ++
    ascii "\n\x7d"

/-- `encode<true, LoginBackParam>`, which cannot fail. -/
def LoginBackParam.encode (param : LoginBackParam) : Bytes :=
  writeMembers [(ascii "expire", ascii (toString param.expire)),
    (ascii "session_id", writeString param.sessionId), (ascii "openid", writeString param.openid)]

/-! ## What the decoders accept -/

/-- The first member of a document with a given name, names read as C strings. -/
def member? (members : List (Bytes × Value)) (name : Bytes) : Option Value :=
  (members.map fun member => (cstr member.1, member.2)).lookup name

theorem decodeField_object {Field : Type} (decode : Value → Option Field) (initial : Field)
    (members : List (Bytes × Value)) (fieldName : Bytes) :
    decodeField decode initial (decodeDocument (some (.object members))) fieldName =
      ((member? members fieldName).elim (some initial) decode) := by
  simp only [decodeField, decodeDocument, member?]
  split
  · rename_i value found
    rw [found]
    rfl
  · rename_i missing
    rw [missing]
    rfl

/-- The fields a `WXSessionInfo` is read from have the types its decoder asks for:
a member that is there is a string, or an `int32_t` for `expires_in`. -/
structure WXSessionInfo.WellTyped (members : List (Bytes × Value)) : Prop where
  strings : ∀ name ∈ [ascii "session_key", ascii "openid", ascii "unionid"],
    ∀ value, member? members name = some value → ∃ text, value = .string text
  expiresIn : ∀ value, member? members (ascii "expires_in") = some value →
    ∃ number : Int, value = .int number ∧ -2147483648 ≤ number ∧ number ≤ 2147483647

/-- The text a string member carries; an absent member reads as the empty string. -/
def stringMember (members : List (Bytes × Value)) (name : Bytes) : Option Bytes :=
  (member? members name).elim (some []) decodeString

theorem stringMember_isSome {members : List (Bytes × Value)} {name : Bytes} :
    (stringMember members name).isSome ↔
      ∀ value, member? members name = some value → ∃ text, value = .string text := by
  unfold stringMember
  cases found : member? members name with
  | none => simp
  | some value => cases value <;> simp [decodeString]

theorem int32Member_isSome {members : List (Bytes × Value)} {name : Bytes} :
    ((member? members name).elim (some 0) decodeInt32).isSome ↔
      ∀ value, member? members name = some value →
        ∃ number : Int, value = .int number ∧ -2147483648 ≤ number ∧ number ≤ 2147483647 := by
  cases found : member? members name with
  | none => simp
  | some value =>
      cases value with
      | int number =>
          simp only [Option.elim_some, decodeInt32, Option.some.injEq, forall_eq', Value.int.injEq]
          constructor
          · intro accepted
            split at accepted
            · rename_i range
              exact ⟨number, rfl, range⟩
            · cases accepted
          · rintro ⟨_, rfl, range⟩
            rw [if_pos range]
            rfl
      | _ => simp [decodeInt32]

/-- The decoder of a document that is an object, by its members. -/
theorem WXSessionInfo.decodeValue_object (members : List (Bytes × Value)) :
    WXSessionInfo.decodeValue (decodeDocument (some (.object members))) = (do
      let sessionKey ← stringMember members (ascii "session_key")
      let openid ← stringMember members (ascii "openid")
      let unionid ← stringMember members (ascii "unionid")
      let expiresIn ← (member? members (ascii "expires_in")).elim (some 0) decodeInt32
      return { sessionKey, openid, unionid, expiresIn }) := by
  simp only [WXSessionInfo.decodeValue, decodeField_object, stringMember]

/-- Everything but an object is refused. -/
theorem decodeField_not_object {Field : Type} {decode : Value → Option Field} {initial : Field}
    {parsed : Option Value} {fieldName : Bytes} {field : Field}
    (decoded : decodeField decode initial (decodeDocument parsed) fieldName = some field) :
    ∃ members, parsed = some (.object members) := by
  cases parsed with
  | none => cases decoded
  | some value =>
      cases value with
      | object members => exact ⟨members, rfl⟩
      | _ => cases decoded

/-- `decode<WXSessionInfo>` accepts exactly the objects whose own members have the
right types, whether or not they are there. -/
theorem WXSessionInfo.decode_isSome_iff (text : Bytes) :
    (WXSessionInfo.decode text).isSome ↔
      ∃ members, parse text = some (.object members) ∧ WXSessionInfo.WellTyped members := by
  unfold WXSessionInfo.decode
  constructor
  · intro accepted
    obtain ⟨info, decoded⟩ := Option.isSome_iff_exists.mp accepted
    obtain ⟨sessionKey, first, _⟩ := Option.bind_eq_some_iff.mp decoded
    obtain ⟨members, parsed⟩ := decodeField_not_object first
    refine ⟨members, parsed, ?_⟩
    rw [parsed, WXSessionInfo.decodeValue_object] at decoded
    simp only [Option.bind_eq_bind, Option.bind_eq_some_iff] at decoded
    obtain ⟨_, key, openid, identified, unionid, united, expiresIn, expires, _⟩ := decoded
    constructor
    · intro name listed
      simp only [List.mem_cons, List.not_mem_nil, or_false] at listed
      rcases listed with rfl | rfl | rfl
      · exact stringMember_isSome.mp (by rw [key]; rfl)
      · exact stringMember_isSome.mp (by rw [identified]; rfl)
      · exact stringMember_isSome.mp (by rw [united]; rfl)
    · exact int32Member_isSome.mp (by rw [expires]; rfl)
  · rintro ⟨members, parsed, typed⟩
    obtain ⟨sessionKey, key⟩ := Option.isSome_iff_exists.mp
      (stringMember_isSome.mpr (typed.strings (ascii "session_key") (by simp)))
    obtain ⟨openid, identified⟩ := Option.isSome_iff_exists.mp
      (stringMember_isSome.mpr (typed.strings (ascii "openid") (by simp)))
    obtain ⟨unionid, united⟩ := Option.isSome_iff_exists.mp
      (stringMember_isSome.mpr (typed.strings (ascii "unionid") (by simp)))
    obtain ⟨expiresIn, expires⟩ := Option.isSome_iff_exists.mp
      (int32Member_isSome.mpr typed.expiresIn)
    rw [parsed, WXSessionInfo.decodeValue_object, key, identified, united, expires]
    rfl

end HttpBackEnd.Json
