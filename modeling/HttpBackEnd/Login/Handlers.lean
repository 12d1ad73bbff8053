import HttpBackEnd.Json.Schema
import HttpBackEnd.Nginx.Request
import HttpBackEnd.Nginx.RequestBody

/-! # The handlers of the login module

`Login.cpp` function by function. A function that runs on the main request returns
the connection it leaves and the acts of the invocation; the two completion handlers
run inside the finalization of a subrequest.
-/

namespace HttpBackEnd.Login

open Nginx Json

/-- What the login flow uses of `ngx_http_cutomer_module_conf_t`, and the MySQL
password beside it. -/
structure Conf where
  appId : Bytes
  secret : Bytes
  redisPwd : Bytes
  mysqlPwd : Bytes := []
deriving DecidableEq, Repr

/-- The application and password of the configuration file in the repository. -/
def sampleConf : Conf where
  appId := ascii "wxaa407a0bd72f899b"
  secret := ascii "31f6efd9f89df7741145f03c8720caf5"
  redisPwd := ascii "123456"
  mysqlPwd := ascii "123456"

/-- `ngx_vslprintf` with one `%V` for each part. `out` is what stands before `buf`, and
`memory` is the memory from `buf` to `last`, with the bytes it had when it was
allocated. -/
def vslprintf (out memory : Bytes) : List Bytes → Bytes × Bytes
  | [] => (out, memory)
  | part :: parts =>
      let len := min memory.length part.length
      vslprintf (out ++ part.take len) (memory.drop len) parts

theorem vslprintf_of_room (out : Bytes) {memory : Bytes} {parts : List Bytes}
    (room : parts.flatten.length ≤ memory.length) :
    vslprintf out memory parts = (out ++ parts.flatten, memory.drop parts.flatten.length) := by
  induction parts generalizing out memory with
  | nil => simp [vslprintf]
  | cons part parts ih =>
      simp only [List.flatten_cons, List.length_append] at room
      have whole : min memory.length part.length = part.length := by omega
      have rest : parts.flatten.length ≤ (memory.drop part.length).length := by
        rw [List.length_drop]
        omega
      simp only [vslprintf, whole, List.take_length]
      rw [ih _ rest]
      simp

/-- `sub_args` of length `len`, formatted by `ngx_snprintf`. The pool does not clear the
memory; what it held is taken for zeros here, and none of it is left. -/
def subArgs (len : Nat) (parts : List Bytes) : Bytes :=
  let (written, left) := vslprintf [] (List.replicate len 0) parts
  written ++ left

theorem subArgs_of_length {len : Nat} {parts : List Bytes} (sum : parts.flatten.length = len) :
    subArgs len parts = parts.flatten := by
  have room : parts.flatten.length ≤ (List.replicate len (0 : UInt8)).length := by
    rw [List.length_replicate]
    exact Nat.le_of_eq sum
  rw [subArgs, vslprintf_of_room [] room]
  simp [sum]

/-- The arguments of the format `"%V%V%V%V%V%V%V"` of the login handler. -/
def wxParts (conf : Conf) (code : Bytes) : List Bytes :=
  [ascii "appid=", conf.appId, ascii "&secret=", conf.secret, ascii "&js_code=", code,
    ascii "&grant_type=authorization_code"]

/-- `sub_args.len` of the login handler. -/
def wxArgsLen (conf : Conf) (code : Bytes) : Nat :=
  (ascii "appid=").length + (ascii "&secret=").length + (ascii "&js_code=").length +
    (ascii "&grant_type=authorization_code").length + conf.appId.length + conf.secret.length +
    code.length

/-- The arguments of the format `"%V%V%V%V%V%V"` of the father handler. -/
def redisParts (conf : Conf) (info : WXSessionInfo) : List Bytes :=
  [ascii "key=", info.openid, ascii "&value=", info.sessionKey, ascii "&pwd=", conf.redisPwd]

/-- `sub_args.len` of the father handler. -/
def redisArgsLen (conf : Conf) (info : WXSessionInfo) : Nat :=
  (ascii "key=").length + (ascii "&value=").length + (ascii "&pwd=").length +
    info.openid.length + info.sessionKey.length + conf.redisPwd.length

/-- `sub_args` of the WX subrequest. -/
def wxArgs (conf : Conf) (code : Bytes) : Bytes := subArgs (wxArgsLen conf code) (wxParts conf code)

/-- `sub_args` of the redis subrequest. -/
def redisArgs (conf : Conf) (info : WXSessionInfo) : Bytes :=
  subArgs (redisArgsLen conf info) (redisParts conf info)

/-- The length the login handler adds up is that of what it formats. -/
theorem wxParts_length (conf : Conf) (code : Bytes) :
    (wxParts conf code).flatten.length = wxArgsLen conf code := by
  simp only [wxParts, wxArgsLen, List.flatten_cons, List.flatten_nil, List.length_append,
    List.length_nil]
  omega

/-- The length the father handler adds up is that of what it formats. -/
theorem redisParts_length (conf : Conf) (info : WXSessionInfo) :
    (redisParts conf info).flatten.length = redisArgsLen conf info := by
  simp only [redisParts, redisArgsLen, List.flatten_cons, List.flatten_nil, List.length_append,
    List.length_nil]
  omega

theorem wxArgs_flatten (conf : Conf) (code : Bytes) :
    wxArgs conf code = (wxParts conf code).flatten :=
  subArgs_of_length (wxParts_length conf code)

theorem redisArgs_flatten (conf : Conf) (info : WXSessionInfo) :
    redisArgs conf info = (redisParts conf info).flatten :=
  subArgs_of_length (redisParts_length conf info)

theorem wxArgs_eq (conf : Conf) (code : Bytes) :
    wxArgs conf code = ascii "appid=" ++ conf.appId ++ ascii "&secret=" ++ conf.secret ++
      ascii "&js_code=" ++ code ++ ascii "&grant_type=authorization_code" := by
  rw [wxArgs_flatten]
  simp [wxParts]

theorem redisArgs_eq (conf : Conf) (info : WXSessionInfo) :
    redisArgs conf info = ascii "key=" ++ info.openid ++ ascii "&value=" ++ info.sessionKey ++
      ascii "&pwd=" ++ conf.redisPwd := by
  rw [redisArgs_flatten]
  simp [redisParts]

/-- Call `ngx_http_finalize_request` and return. -/
def finalize (choices : Choices) (rc : Int) (reads : List Act) (conn : Conn) :
    Conn × List Act :=
  (conn.finalizeRequest choices rc, reads ++ [.finalize rc])

/-- Dereference a null pointer. -/
def fault (reads : List Act) (conn : Conn) : Conn × List Act :=
  (conn.crash, reads ++ [.crash])

/-- Allocate and format the arguments, then call `ngx_http_subrequest`, with status
500 when it fails. The allocation of the arguments is not checked. -/
def request (choices : Choices) (location : Location) (args : Bytes) (reads : List Act)
    (conn : Conn) : Conn × List Act :=
  if choices.args then
    match conn.subrequest choices location args with
    | (conn, true) => (conn, reads ++ [.subrequest location args])
    | (conn, false) => finalize choices 500 reads conn
  else fault reads conn

/-- `ngx_http_customer_manager_login_handler`. Only the memory window of the first
buffer is read. -/
def customerManagerLoginHandler (conf : Conf) (choices : Choices) (bufs : List Buf)
    (conn : Conn) : Conn × List Act :=
  match bufs with
  | [] => fault [] conn
  | buf :: _ =>
      if buf.memory.length = 0 then finalize choices 500 [] conn
      else
        let reads := [.decodeBody buf.memory]
        match LoginParam.decode buf.memory with
        | none => finalize choices 500 reads conn
        | some codeObj =>
            if codeObj.code.isEmpty then finalize choices 500 reads conn
            else if choices.psr then
              match conn.ctx.or choices.ctx with
              | none => finalize choices 500 reads conn
              | some ctx =>
                  request choices .wx (wxArgs conf codeObj.code) reads
                    { conn with ctx := some ctx }
            else finalize choices 500 reads conn

/-- `wx_login_subrequest_post_handler`: the status is handed to the parent, and the
window is recorded when it is 200. -/
def wxLoginSubrequestPostHandler (completion : Completion) (conn : Conn) : Conn :=
  { conn with
    status := completion.status
    ctx := if completion.status = 200 then
        conn.ctx.map fun ctx => { ctx with wx := .written completion.window }
      else conn.ctx
    writeHandler := .father }

/-- The two replies the module takes for success. -/
def redisOk (reply : Bytes) : Bool :=
  reply = ascii "+OK\n+OK\n" || reply = ascii "+OK\r\n+OK\r\n"

/-- The status `wx_login_set_redis_subrequest_done` hands to the parent. -/
def redisStatus (completion : Completion) : Nat :=
  if completion.status = 200 then if redisOk completion.window then 200 else 500
  else completion.status

/-- `wx_login_set_redis_subrequest_done`. -/
def wxLoginSetRedisSubrequestDone (completion : Completion) (conn : Conn) : Conn :=
  { conn with
    status := redisStatus completion
    ctx := if completion.status = 200 then
        conn.ctx.map fun ctx => { ctx with redis := .written completion.window }
      else conn.ctx
    writeHandler := .loginDone }

/-- `wx_login_subrequest_post_father_handler`. -/
def wxLoginSubrequestPostFatherHandler (conf : Conf) (choices : Choices) (conn : Conn) :
    Conn × List Act :=
  if conn.status ≠ 200 then finalize choices conn.status [] conn
  else if choices.psr then
    match conn.ctx with
    | none => fault [] conn
    | some ctx =>
        let reads := [.decodeReply ctx.wx]
        match WXSessionInfo.decode ctx.wx.bytes with
        | none => finalize choices 500 reads conn
        | some info => request choices .redis (redisArgs conf info) reads conn
  else finalize choices 500 [] conn

/-- The answer `login_done` encodes: the session id is the openid. -/
def backParam (info : WXSessionInfo) : LoginBackParam :=
  { expire := 0, sessionId := info.openid, openid := info.openid }

/-- `login_done`. -/
def loginDone (choices : Choices) (conn : Conn) : Conn × List Act :=
  if conn.status ≠ 200 then finalize choices conn.status [] conn
  else
    match conn.ctx with
    | none => fault [] conn
    | some ctx =>
        let reads := [.decodeReply ctx.wx]
        match WXSessionInfo.decode ctx.wx.bytes with
        | none => finalize choices 500 reads conn
        | some info =>
            let backJson := (backParam info).encode
            let reads := reads ++
              [.sendHeader 200 backJson.length (ascii "text/json") choices.header]
            let conn := { conn with status := 200 }
            if choices.header = ngxError ∨ 0 < choices.header ∨ choices.headerOnly then
              finalize choices choices.header reads conn
            else if choices.tempBuf then
              finalize choices choices.output (reads ++ [.output backJson]) conn
            else finalize choices 500 reads conn

/-- The completion handler the module gave the subrequest. -/
def postSubrequest : Location → Completion → Conn → Conn
  | .wx => wxLoginSubrequestPostHandler
  | .redis => wxLoginSetRedisSubrequestDone

end HttpBackEnd.Login
