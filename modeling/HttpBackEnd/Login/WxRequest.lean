import HttpBackEnd.Library.QueryString
import HttpBackEnd.Login.Handlers
import HttpBackEnd.Nginx.Uri

/-! # The request sent to WeChat

The login handler puts the code of the client between the literal parts of a query
string, and nginx copies that string into the request line. The client's code is the
value of `js_code` and nothing more exactly when it has no character the query string or
the request line is taken apart at.
-/

namespace HttpBackEnd.Login

open Nginx

/-- The URI of the request line nginx sends to WeChat, by
`location = /wxMiniBuyPhone/login` of the configuration. -/
def wxUri (args : Bytes) : Bytes :=
  proxyUri (ascii "/sns/jscode2session") Location.wx.uri Location.wx.uri args

/-- The request line of the request. -/
def wxRequestLine (args : Bytes) : Bytes :=
  proxyRequestLine (ascii "/sns/jscode2session") Location.wx.uri Location.wx.uri args

/-- The request to WeChat says what the module means by it: four pairs, of which only
`js_code` comes from the client, and a request line without a space or a line end inside
the URI. -/
def OnlyJsCode (conf : Conf) (code : Bytes) : Prop :=
  QueryString.parse (wxArgs conf code) =
    [(ascii "appid", conf.appId), (ascii "secret", conf.secret), (ascii "js_code", code),
      (ascii "grant_type", ascii "authorization_code")] ∧
  ∃ uri, wxRequestLine (wxArgs conf code) = ascii "GET " ++ uri ++ ascii " HTTP/1.0\r\n" ∧
    ∀ char ∈ uri, char ≠ 32 ∧ char ≠ 13 ∧ char ≠ 10

variable {conf : Conf}

/-- The URI is what stands in the request line between the method and the version. -/
theorem wxRequestLine_uri (args uri : Bytes) :
    wxRequestLine args = ascii "GET " ++ uri ++ ascii " HTTP/1.0\r\n" ↔ uri = wxUri args := by
  change ascii "GET " ++ wxUri args ++ ascii " HTTP/1.0\r\n" = _ ↔ _
  rw [List.append_cancel_right_eq, List.append_cancel_left_eq]
  exact eq_comm

theorem unreserved_avoids {text : Bytes} (plain : ∀ char ∈ text, QueryString.unreserved char = true)
    {char : UInt8} (special : char ∈ ([32, 10, 13, 37, 38, 61] : List UInt8)) : char ∉ text := by
  intro member
  have accepted := plain char member
  rw [QueryString.not_unreserved special] at accepted
  cases accepted

/-- The arguments, part by part. -/
theorem wxArgs_parts (conf : Conf) (code : Bytes) :
    wxArgs conf code = (ascii "appid" ++ 61 :: conf.appId) ++ 38 ::
      ((ascii "secret" ++ 61 :: conf.secret) ++ 38 ::
        ((ascii "js_code" ++ 61 :: code) ++ 38 ::
          (ascii "grant_type" ++ 61 :: ascii "authorization_code"))) := by
  have appid : ascii "appid=" = ascii "appid" ++ [61] := by decide
  have secret : ascii "&secret=" = 38 :: (ascii "secret" ++ [61]) := by decide
  have jsCode : ascii "&js_code=" = 38 :: (ascii "js_code" ++ [61]) := by decide
  have grantType : ascii "&grant_type=authorization_code" =
      38 :: (ascii "grant_type" ++ 61 :: ascii "authorization_code") := by decide
  rw [wxArgs_eq, appid, secret, jsCode, grantType]
  simp only [List.append_assoc, List.cons_append, List.nil_append]

/-- The query string splits into its parts, the one of the code at every `&` in it. -/
theorem wxArgs_split (appId : 38 ∉ conf.appId) (secret : 38 ∉ conf.secret) (code : Bytes) :
    (wxArgs conf code).splitOn 38 = [ascii "appid" ++ 61 :: conf.appId] ++
      ([ascii "secret" ++ 61 :: conf.secret] ++ ((ascii "js_code" ++ 61 :: code).splitOn 38 ++
        [ascii "grant_type" ++ 61 :: ascii "authorization_code"])) := by
  have first : 38 ∉ ascii "appid" ++ 61 :: conf.appId := argPart_plain (by decide) appId
  have second : 38 ∉ ascii "secret" ++ 61 :: conf.secret := argPart_plain (by decide) secret
  have last : 38 ∉ ascii "grant_type" ++ 61 :: ascii "authorization_code" := by decide
  rw [wxArgs_parts, List.splitOn_append_cons_self, List.splitOn_append_cons_self,
    List.splitOn_append_cons_self, List.splitOn_eq_singleton first,
    List.splitOn_eq_singleton second, List.splitOn_eq_singleton last]

theorem wxUri_eq {args : Bytes} (present : args ≠ []) :
    wxUri args = ascii "/sns/jscode2session?" ++ args := by
  have long : 0 < args.length := List.length_pos_iff.mpr present
  have question : ascii "/sns/jscode2session?" = ascii "/sns/jscode2session" ++ ascii "?" := by
    decide
  rw [wxUri, proxyUri, if_pos long, List.drop_length, question]
  simp [escapeUri]

/-- The URI has a space or a line end exactly where the code has one. -/
theorem wxUri_clean_iff (appId : ∀ char ∈ conf.appId, QueryString.unreserved char = true)
    (secret : ∀ char ∈ conf.secret, QueryString.unreserved char = true) (code : Bytes) :
    (∀ char ∈ wxUri (wxArgs conf code), char ≠ 32 ∧ char ≠ 13 ∧ char ≠ 10) ↔
      ∀ char ∈ code, char ≠ 32 ∧ char ≠ 13 ∧ char ≠ 10 := by
  have present : wxArgs conf code ≠ [] := by
    rw [wxArgs_parts]
    simp
  have clear : ∀ {text : Bytes}, 32 ∉ text ∧ 13 ∉ text ∧ 10 ∉ text →
      ∀ {char}, char ∈ text → char ≠ 32 ∧ char ≠ 13 ∧ char ≠ 10 := by
    rintro text ⟨space, cr, lf⟩ char member
    refine ⟨?_, ?_, ?_⟩
    · rintro rfl
      exact space member
    · rintro rfl
      exact cr member
    · rintro rfl
      exact lf member
  have value : ∀ {text : Bytes}, (∀ char ∈ text, QueryString.unreserved char = true) →
      ∀ {char}, char ∈ text → char ≠ 32 ∧ char ≠ 13 ∧ char ≠ 10 := by
    intro text plain
    apply clear
    exact ⟨unreserved_avoids plain (by simp), unreserved_avoids plain (by simp),
      unreserved_avoids plain (by simp)⟩
  rw [wxUri_eq present, wxArgs_eq]
  constructor
  · intro clean char member
    exact clean char (by simp [member])
  · intro clean char member
    simp only [List.mem_append] at member
    rcases member with path | (((((name | member) | name) | member) | name) | member) | name
    · exact clear (by decide) path
    · exact clear (by decide) name
    · exact value appId member
    · exact clear (by decide) name
    · exact value secret member
    · exact clear (by decide) name
    · exact clean char member
    · exact clear (by decide) name

/-- The pairs of the query string, with those the part of the code gives. -/
theorem wxArgs_parse (appId : ∀ char ∈ conf.appId, QueryString.unreserved char = true)
    (secret : ∀ char ∈ conf.secret, QueryString.unreserved char = true) (code : Bytes) :
    QueryString.parse (wxArgs conf code) =
      [(ascii "appid", conf.appId), (ascii "secret", conf.secret)] ++
        (((ascii "js_code" ++ 61 :: code).splitOn 38).map QueryString.pairOf ++
          [(ascii "grant_type", ascii "authorization_code")]) := by
  have pair : ∀ {name value : Bytes}, 61 ∉ name → 37 ∉ name → 37 ∉ value →
      QueryString.pairOf (name ++ 61 :: value) = (name, value) := by
    intro name value separated plain unescaped
    rw [QueryString.pairOf_append separated plain, QueryString.percentDecode_of_plain
      (QueryString.hasEscape_of_no_percent unescaped)]
  rw [QueryString.parse, wxArgs_split (unreserved_avoids appId (by decide))
    (unreserved_avoids secret (by decide))]
  simp only [List.map_append, List.map_cons, List.map_nil]
  rw [pair (by decide) (by decide) (unreserved_avoids appId (by decide)),
    pair (by decide) (by decide) (unreserved_avoids secret (by decide)),
    pair (by decide) (by decide) (by decide)]
  rfl

/-- The part of the code is one pair with the code as its value exactly when the code
has no `&` and no escape. -/
theorem jsCode_parse_iff (code : Bytes) :
    ((ascii "js_code" ++ 61 :: code).splitOn 38).map QueryString.pairOf =
        [(ascii "js_code", code)] ↔
      38 ∉ code ∧ QueryString.hasEscape code = false := by
  have single : 38 ∉ code → (ascii "js_code" ++ 61 :: code).splitOn 38 =
      [ascii "js_code" ++ 61 :: code] := by
    intro plain
    apply List.splitOn_eq_singleton
    exact argPart_plain (by decide) plain
  have pair : QueryString.pairOf (ascii "js_code" ++ 61 :: code) =
      (ascii "js_code", QueryString.percentDecode code) :=
    QueryString.pairOf_append (by decide) (by decide)
  constructor
  · intro same
    have plain : 38 ∉ code := by
      intro member
      have parts := QueryString.two_le_length_splitOn
        (List.mem_append_right (ascii "js_code") (List.mem_cons_of_mem 61 member))
      have length := congrArg List.length same
      simp only [List.length_map, List.length_cons, List.length_nil] at length
      omega
    rw [single plain, List.map_singleton, pair] at same
    refine ⟨plain, (QueryString.percentDecode_eq_self_iff code).mp ?_⟩
    simpa using same
  · rintro ⟨plain, unescaped⟩
    rw [single plain, List.map_singleton, pair, QueryString.percentDecode_of_plain unescaped]

/-- **What the client's code can change.** For an application id and a secret of
unreserved characters, the request to WeChat carries the code as the value of `js_code`
and nothing else exactly when the code has no `&`, no space, no line end, and no percent
sign that two hexadecimal digits follow. -/
theorem wx_request_only_js_code_iff
    (appId : ∀ char ∈ conf.appId, QueryString.unreserved char = true)
    (secret : ∀ char ∈ conf.secret, QueryString.unreserved char = true) (code : Bytes) :
    OnlyJsCode conf code ↔
      (∀ char ∈ code, char ≠ 38 ∧ char ≠ 32 ∧ char ≠ 13 ∧ char ≠ 10) ∧
        QueryString.hasEscape code = false := by
  have pairs : QueryString.parse (wxArgs conf code) =
      [(ascii "appid", conf.appId), (ascii "secret", conf.secret), (ascii "js_code", code),
        (ascii "grant_type", ascii "authorization_code")] ↔
      38 ∉ code ∧ QueryString.hasEscape code = false := by
    rw [← jsCode_parse_iff, wxArgs_parse appId secret]
    change _ = [(ascii "appid", conf.appId), (ascii "secret", conf.secret)] ++
      ([(ascii "js_code", code)] ++ [(ascii "grant_type", ascii "authorization_code")]) ↔ _
    rw [List.append_cancel_left_eq, List.append_cancel_right_eq]
  unfold OnlyJsCode
  simp only [wxRequestLine_uri, exists_eq_left]
  rw [wxUri_clean_iff appId secret, pairs]
  constructor
  · rintro ⟨⟨plain, unescaped⟩, clean⟩
    refine ⟨?_, unescaped⟩
    intro char member
    refine ⟨?_, clean char member⟩
    rintro rfl
    exact plain member
  · rintro ⟨clean, unescaped⟩
    exact ⟨⟨fun member => (clean 38 member).1 rfl, unescaped⟩,
      fun char member => (clean char member).2⟩

theorem sampleConf_unreserved :
    (∀ char ∈ sampleConf.appId, QueryString.unreserved char = true) ∧
      ∀ char ∈ sampleConf.secret, QueryString.unreserved char = true :=
  ⟨List.all_eq_true.mp (by decide), List.all_eq_true.mp (by decide)⟩

theorem wx_request_only_js_code_sample : OnlyJsCode sampleConf (ascii "c1=x#y") := by
  have plain : (ascii "c1=x#y").all fun char =>
      char ≠ 38 ∧ char ≠ 32 ∧ char ≠ 13 ∧ char ≠ 10 := by
    decide
  refine (wx_request_only_js_code_iff sampleConf_unreserved.1 sampleConf_unreserved.2
    (ascii "c1=x#y")).mpr ⟨?_, by decide⟩
  intro char member
  exact of_decide_eq_true (List.all_eq_true.mp plain char member)

/-- A code that names another application id. -/
theorem wx_request_second_appid :
    ¬ ∀ conf code, (∀ char ∈ conf.appId, QueryString.unreserved char = true) →
      (∀ char ∈ conf.secret, QueryString.unreserved char = true) → code ≠ [] → 0 ∉ code →
      OnlyJsCode conf code := by
  intro property
  have parsed := (property sampleConf (ascii "c1&appid=other") sampleConf_unreserved.1
    sampleConf_unreserved.2 (by decide) (by decide)).1
  have length := congrArg List.length parsed
  revert length
  decide +kernel

end HttpBackEnd.Login
