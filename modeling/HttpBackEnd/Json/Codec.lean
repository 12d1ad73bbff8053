import HttpBackEnd.Json.RoundTrip

/-! # What slothjson sends and receives

Every class slothjson generates encodes and decodes its members one after the other, so
they are one definition here, given by the members. A member knows how its field becomes a
value and what arrives of it: a string travels as a C string.

`Class.receiver_gets_sent` says what a receiver with the same class gets: the sender's
fields as they arrive, and what its own constructor gave the fields that were skipped.
-/

namespace HttpBackEnd.Json

/-- A field type with its `encode` and `decode`: `Fits` tells the values of the C type, and
`sent` what arrives of one. -/
structure Codec (Field : Type) where
  encode : Field → Value
  decode : Value → Option Field
  Fits : Field → Prop
  sent : Field → Field
  decode_encode : ∀ field, Fits field → decode (encode field) = some (sent field)
  integral : ∀ field, Fits field → (encode field).Integral

theorem zero_not_mem_cstr (text : Bytes) : (0 : UInt8) ∉ cstr text := by
  intro member
  have nonzero := List.mem_takeWhile_imp member
  simp at nonzero

theorem cstr_cstr (text : Bytes) : cstr (cstr text) = cstr text :=
  cstr_of_zero_not_mem (zero_not_mem_cstr text)

/-- `std::string`. -/
def stringCodec : Codec Bytes where
  encode text := .string (cstr text)
  decode := decodeString
  Fits _ := True
  sent := cstr
  decode_encode text _ := by rw [decodeString, cstr_cstr]
  integral text _ := .string _

/-- `int32_t`. -/
def int32Codec : Codec Int where
  encode := .int
  decode := decodeInt32
  Fits value := -2147483648 ≤ value ∧ value ≤ 2147483647
  sent value := value
  decode_encode value fits := if_pos fits
  integral value fits := .int (by omega) (by omega)

/-- `slothjson::decode(const rapidjson::Value&, int64_t&)`. -/
def decodeInt64 : Value → Option Int
  | .int value =>
      if -9223372036854775808 ≤ value ∧ value < 9223372036854775808 then some value else none
  | _ => none

/-- `int64_t`. -/
def int64Codec : Codec Int where
  encode := .int
  decode := decodeInt64
  Fits value := -9223372036854775808 ≤ value ∧ value < 9223372036854775808
  sent value := value
  decode_encode value fits := if_pos fits
  integral value fits := .int (by omega) (by omega)

/-- A member of a generated class. -/
structure Member (Object : Type) where
  Field : Type
  name : Bytes
  codec : Codec Field
  get : Object → Field
  set : Field → Object → Object
  set_get : ∀ object, set (get object) object = object

/-- What `encode_field` adds to the object, if the member is not skipped. -/
def Member.entry {Object : Type} (skip : Bytes → Bool) (object : Object)
    (member : Member Object) : Option (Bytes × Value) :=
  if skip member.name then none else some (member.name, member.codec.encode (member.get object))

/-- A generated class: its constructor and its members. -/
structure Class (Object : Type) where
  fresh : Object
  members : List (Member Object)
  nodup : (members.map Member.name).Nodup
  plain : ∀ member ∈ members, (0 : UInt8) ∉ member.name

/-- `encode_document`: the top-level member names are copied as C strings. -/
def encodeDocument : Value → Value
  | .object members => .object (members.map fun member => (cstr member.1, member.2))
  | value => value

namespace Class

variable {Object : Type} (cls : Class Object) (skip : Bytes → Bool)

/-- `encode` of a class; `skip` are the `__skip_*` flags of the object. -/
def encodeValue (object : Object) : Value :=
  .object (cls.members.filterMap (Member.entry skip object))

/-- One `decode_field` of a class. -/
def decodeMember (json : Value) (object : Object) (member : Member Object) : Option Object :=
  (decodeField member.codec.decode (member.get object) json member.name).map
    fun field => member.set field object

/-- `decode` of a class. -/
def decodeValue (object : Object) (json : Value) : Option Object :=
  cls.members.foldlM (decodeMember json) object

/-- `slothjson::encode<pretty, T>`. -/
def encode (pretty : Bool) (object : Object) : Option Bytes :=
  encodeText pretty (encodeDocument (cls.encodeValue skip object))

/-- `slothjson::decode<T>` into an object that was just constructed. -/
def decode (text : Bytes) : Option Object :=
  cls.decodeValue cls.fresh (decodeDocument (parse text))

/-- One member of what arrives of an object. -/
def receive (object copy : Object) (member : Member Object) : Object :=
  if skip member.name then copy else member.set (member.codec.sent (member.get object)) copy

/-- What arrives of an object. -/
def received (object : Object) : Object := cls.members.foldl (receive skip object) cls.fresh

/-- Every field holds a value of its type. -/
def Fits (object : Object) : Prop :=
  ∀ member ∈ cls.members, member.codec.Fits (member.get object)

variable {cls skip}

/-- A C string keeps the names of the members. -/
theorem map_cstr_filterMap {members : List (Member Object)}
    (plain : ∀ member ∈ members, (0 : UInt8) ∉ member.name) (object : Object) :
    (members.filterMap (Member.entry skip object)).map (fun member => (cstr member.1, member.2)) =
      members.filterMap (Member.entry skip object) := by
  rw [List.map_filterMap]
  refine List.filterMap_congr fun member present => ?_
  unfold Member.entry
  split
  · rfl
  · rw [Option.map_some, cstr_of_zero_not_mem (plain member present)]

theorem lookup_filterMap_absent {members : List (Member Object)} (object : Object) {name : Bytes}
    (absent : name ∉ members.map Member.name) :
    (members.filterMap (Member.entry skip object)).lookup name = none := by
  induction members with
  | nil => rfl
  | cons head members ih =>
      simp only [List.map_cons, List.mem_cons, not_or] at absent
      have later := ih absent.2
      by_cases skipped : skip head.name
      · simpa only [List.filterMap_cons, Member.entry, skipped, ↓reduceIte] using later
      · have other : (name == head.name) = false := by simpa using absent.1
        simpa only [List.filterMap_cons, Member.entry, skipped, Bool.false_eq_true, ↓reduceIte,
          List.lookup_cons, other] using later

/-- Each member is found under its name, unless it was skipped. -/
theorem lookup_filterMap {members : List (Member Object)}
    (nodup : (members.map Member.name).Nodup) (object : Object) {member : Member Object}
    (present : member ∈ members) :
    (members.filterMap (Member.entry skip object)).lookup member.name =
      if skip member.name then none else some (member.codec.encode (member.get object)) := by
  induction members with
  | nil => cases present
  | cons head members ih =>
      obtain ⟨fresh, others⟩ := List.nodup_cons.mp nodup
      rcases List.mem_cons.mp present with rfl | later
      · by_cases skipped : skip member.name
        · have absent : (members.filterMap (Member.entry skip object)).lookup member.name = none :=
            lookup_filterMap_absent object fresh
          simpa only [List.filterMap_cons, Member.entry, skipped, ↓reduceIte] using absent
        · simp only [List.filterMap_cons, Member.entry, skipped, Bool.false_eq_true, ↓reduceIte,
            List.lookup_cons, BEq.rfl]
      · have found := ih others later
        have other : member.name ≠ head.name := by
          intro same
          exact fresh (same ▸ List.mem_map_of_mem later)
        by_cases skipped : skip head.name
        · simpa only [List.filterMap_cons, Member.entry, skipped, ↓reduceIte] using found
        · have distinct : (member.name == head.name) = false := by simpa using other
          simpa only [List.filterMap_cons, Member.entry, skipped, Bool.false_eq_true, ↓reduceIte,
            List.lookup_cons, distinct] using found

/-- One member is decoded to what was sent, or keeps the value it has. -/
theorem decodeMember_encodeValue {object : Object} (fits : cls.Fits object) (copy : Object)
    {member : Member Object} (present : member ∈ cls.members) :
    decodeMember (cls.encodeValue skip object) copy member =
      some (receive skip object copy member) := by
  simp only [decodeMember, encodeValue, decodeField, lookup_filterMap cls.nodup object present,
    receive]
  by_cases skipped : skip member.name
  · simp only [skipped, ↓reduceIte, Option.map_some, member.set_get]
  · simp only [skipped, Bool.false_eq_true, ↓reduceIte,
      member.codec.decode_encode _ (fits member present), Option.map_some]

theorem decodeValue_encodeValue {object : Object} (fits : cls.Fits object) (copy : Object) :
    cls.decodeValue copy (cls.encodeValue skip object) =
      some (cls.members.foldl (receive skip object) copy) := by
  have some_of_all : ∀ members : List (Member Object), (∀ member ∈ members, member ∈ cls.members) →
      ∀ copy, members.foldlM (decodeMember (cls.encodeValue skip object)) copy =
        some (members.foldl (receive skip object) copy) := by
    intro members all
    induction members with
    | nil => exact fun copy => rfl
    | cons member members ih =>
        intro copy
        rw [List.foldlM_cons, decodeMember_encodeValue fits copy (all member List.mem_cons_self)]
        exact ih (fun other present => all other (List.mem_cons_of_mem _ present)) _
  exact some_of_all cls.members (fun _ present => present) copy

theorem integral_encodeValue {object : Object} (fits : cls.Fits object) :
    (cls.encodeValue skip object).Integral := by
  refine .object fun entry present => ?_
  obtain ⟨member, listed, written⟩ := List.mem_filterMap.mp present
  unfold Member.entry at written
  split at written
  · cases written
  · cases written
    exact member.codec.integral _ (fits member listed)

/-- The text of an object. -/
theorem encode_eq {object : Object} (fits : cls.Fits object) (pretty : Bool) :
    cls.encode skip pretty object = some (render pretty 0 (cls.encodeValue skip object)) := by
  have same : encodeDocument (cls.encodeValue skip object) = cls.encodeValue skip object := by
    rw [encodeValue, encodeDocument, map_cstr_filterMap cls.plain]
  have integral : (cls.encodeValue skip object).Integral := integral_encodeValue fits
  rw [encode, same, encodeText_eq integral, cstr_of_zero_not_mem (integral.zero_not_mem pretty 0)]

/-- The text of an object is decoded to what arrives of it. -/
theorem decode_of_encode {object : Object} (fits : cls.Fits object) {pretty : Bool} {text : Bytes}
    (encoded : cls.encode skip pretty object = some text) :
    cls.decode text = some (cls.received skip object) := by
  have integral : (cls.encodeValue skip object).Integral := integral_encodeValue fits
  have same :
      decodeDocument (some (cls.encodeValue skip object)) = cls.encodeValue skip object := by
    rw [encodeValue, decodeDocument, map_cstr_filterMap cls.plain]
  obtain rfl := Option.some.inj ((encode_eq fits pretty).symm.trans encoded)
  rw [decode, parse_render integral, same]
  exact decodeValue_encodeValue fits cls.fresh

/-- **What a receiver gets.** Encoding never fails, and a receiver with the same class
decodes the text to the fields as they arrive; a skipped field keeps what the constructor
gave it. -/
theorem receiver_gets_sent {object : Object} (fits : cls.Fits object) (pretty : Bool) :
    ∃ text, cls.encode skip pretty object = some text ∧
      cls.decode text = some (cls.received skip object) :=
  ⟨_, encode_eq fits pretty, decode_of_encode fits (encode_eq fits pretty)⟩

end Class

/-! ## The classes of the program -/

/-- `LoginParam`. -/
def loginParam : Class LoginParam where
  fresh := { code := [] }
  members := [{
    Field := Bytes, name := ascii "code", codec := stringCodec
    get := LoginParam.code, set := fun code object => { object with code }
    set_get := fun _ => rfl }]
  nodup := by simp
  plain := by simp [ascii]

/-- `WXSessionInfo`. -/
def wxSessionInfo : Class WXSessionInfo where
  fresh := { sessionKey := [], openid := [], unionid := [], expiresIn := 0 }
  members := [{
      Field := Bytes, name := ascii "session_key", codec := stringCodec
      get := WXSessionInfo.sessionKey
      set := fun sessionKey object => { object with sessionKey }, set_get := fun _ => rfl }, {
      Field := Bytes, name := ascii "openid", codec := stringCodec
      get := WXSessionInfo.openid
      set := fun openid object => { object with openid }, set_get := fun _ => rfl }, {
      Field := Bytes, name := ascii "unionid", codec := stringCodec
      get := WXSessionInfo.unionid
      set := fun unionid object => { object with unionid }, set_get := fun _ => rfl }, {
      Field := Int, name := ascii "expires_in", codec := int32Codec
      get := WXSessionInfo.expiresIn
      set := fun expiresIn object => { object with expiresIn }, set_get := fun _ => rfl }]
  nodup := by decide
  plain := by simp [ascii]

/-- `LoginBackParam`. -/
def loginBackParam : Class LoginBackParam where
  fresh := { expire := 0, sessionId := [], openid := [] }
  members := [{
      Field := Int, name := ascii "expire", codec := int32Codec
      get := LoginBackParam.expire
      set := fun expire object => { object with expire }, set_get := fun _ => rfl }, {
      Field := Bytes, name := ascii "session_id", codec := stringCodec
      get := LoginBackParam.sessionId
      set := fun sessionId object => { object with sessionId }, set_get := fun _ => rfl }, {
      Field := Bytes, name := ascii "openid", codec := stringCodec
      get := LoginBackParam.openid
      set := fun openid object => { object with openid }, set_get := fun _ => rfl }]
  nodup := by decide
  plain := by simp [ascii]

/-- The object of `UserInfo`. -/
structure UserInfo where
  id : Int
  name : Bytes
  nickName : Bytes
  phone : Bytes
deriving DecidableEq, Repr

/-- `UserInfo`. -/
def userInfo : Class UserInfo where
  fresh := { id := -1, name := [], nickName := [], phone := [] }
  members := [{
      Field := Int, name := ascii "id", codec := int64Codec
      get := UserInfo.id, set := fun id object => { object with id }, set_get := fun _ => rfl }, {
      Field := Bytes, name := ascii "name", codec := stringCodec
      get := UserInfo.name
      set := fun name object => { object with name }, set_get := fun _ => rfl }, {
      Field := Bytes, name := ascii "nick_name", codec := stringCodec
      get := UserInfo.nickName
      set := fun nickName object => { object with nickName }, set_get := fun _ => rfl }, {
      Field := Bytes, name := ascii "phone", codec := stringCodec
      get := UserInfo.phone
      set := fun phone object => { object with phone }, set_get := fun _ => rfl }]
  nodup := by decide
  plain := by simp [ascii]

/-- A user arrives with the number as it is and the strings up to their first zero byte. -/
theorem userInfo_decode_of_encode {user : UserInfo}
    (inRange : -9223372036854775808 ≤ user.id ∧ user.id < 9223372036854775808) {pretty : Bool}
    {text : Bytes} (encoded : userInfo.encode (fun _ => false) pretty user = some text) :
    userInfo.decode text =
      some ⟨user.id, cstr user.name, cstr user.nickName, cstr user.phone⟩ := by
  refine Class.decode_of_encode ?_ encoded
  intro member present
  simp only [userInfo, List.mem_cons, List.not_mem_nil, or_false] at present
  rcases present with rfl | rfl | rfl | rfl
  · exact inRange
  · trivial
  · trivial
  · trivial

/-- A session key with a zero byte arrives cut, and a skipped member does not arrive. -/
theorem receiver_gets_sent_sample :
    ∃ text, wxSessionInfo.encode (fun name => name = ascii "unionid") false
        ⟨ascii "k\x001", ascii "o1", ascii "u1", 7200⟩ = some text ∧
      wxSessionInfo.decode text = some ⟨ascii "k", ascii "o1", [], 7200⟩ := by
  refine Class.receiver_gets_sent ?_ false
  intro member present
  simp only [wxSessionInfo, List.mem_cons, List.not_mem_nil, or_false] at present
  rcases present with rfl | rfl | rfl | rfl
  · trivial
  · trivial
  · trivial
  · exact ⟨by decide, by decide⟩

/-- What the class of the login body decodes is what the model of `LoginParam` decodes. -/
theorem loginParam_decode (text : Bytes) : loginParam.decode text = LoginParam.decode text := by
  simp only [Class.decode, Class.decodeValue, loginParam, Class.decodeMember, stringCodec,
    List.foldlM_cons, List.foldlM_nil, Option.bind_eq_bind, Option.pure_def, Option.bind_fun_some]
  exact Option.map_eq_bind

/-- So it is for the class of the WX reply. -/
theorem wxSessionInfo_decode (text : Bytes) :
    wxSessionInfo.decode text = WXSessionInfo.decode text := by
  simp only [Class.decode, Class.decodeValue, wxSessionInfo, Class.decodeMember, stringCodec,
    int32Codec, List.foldlM_cons, List.foldlM_nil, Option.bind_eq_bind, Option.pure_def,
    Option.bind_fun_some, Option.map_eq_bind, Option.bind_assoc]
  rfl

/-- A member on a line of its own. -/
def line (member : Bytes × Bytes) : Bytes :=
  ascii "\n    " ++ writeString member.1 ++ ascii ": " ++ member.2

theorem renderMembers_line (first : Bool) {name : Bytes} (plain : (0 : UInt8) ∉ name)
    (value : Value) (members : List (Bytes × Value)) :
    renderMembers true 1 first ((name, value) :: members) =
      (if first then [] else [44]) ++ line (name, render true 1 value) ++
        renderMembers true 1 false members := by
  have quoted : quote name = writeString name := by
    rw [writeString, cstr_of_zero_not_mem plain]
    rfl
  rw [renderMembers, quoted, line]
  simp [newLine, writeIndent, ascii, List.append_assoc]

/-- The members of a document that is an object, in the terms of `writeMembers`. -/
theorem renderMembers_lines {member : Bytes × Value} {members : List (Bytes × Value)}
    (plain : ∀ other ∈ member :: members, (0 : UInt8) ∉ other.1) :
    renderMembers true 1 true (member :: members) =
      List.intercalate (ascii ",") ((member :: members).map fun member =>
        line (member.1, render true 1 member.2)) := by
  induction members generalizing member with
  | nil =>
      rw [renderMembers_line true (plain member List.mem_cons_self), renderMembers]
      simp
  | cons next members ih =>
      have later := ih fun other present => plain other (List.mem_cons_of_mem _ present)
      have nextPlain := plain next (List.mem_cons_of_mem _ List.mem_cons_self)
      rw [renderMembers_line true nextPlain] at later
      rw [renderMembers_line true (plain member List.mem_cons_self),
        renderMembers_line false nextPlain, List.map_cons,
        List.intercalate_cons_of_ne_nil (by simp), ← later]
      simp [ascii, List.append_assoc]

theorem render_object {members : List (Bytes × Value)} (some : members ≠ [])
    (plain : ∀ member ∈ members, (0 : UInt8) ∉ member.1) :
    render true 0 (.object members) =
      writeMembers (members.map fun member => (member.1, render true 1 member.2)) := by
  cases members with
  | nil => exact absurd rfl some
  | cons member members =>
      rw [render, Nat.zero_add, renderMembers_lines plain, writeMembers, List.map_map]
      simp [lastLine, newLine, line, writeIndent, ascii, Function.comp_def]

/-- The text of the answer is that of the class. -/
theorem loginBackParam_encode {param : LoginBackParam} (fits : loginBackParam.Fits param) :
    loginBackParam.encode (fun _ => false) true param = some param.encode := by
  rw [Class.encode_eq fits, Class.encodeValue, render_object]
  · rfl
  · exact List.cons_ne_nil _ _
  · simp [loginBackParam, Member.entry, ascii]

end HttpBackEnd.Json
