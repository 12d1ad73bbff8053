import HttpBackEnd.Clients.MySqlDBInstance
import HttpBackEnd.Clients.RedisInstance

/-! # The settings of the module

The main configuration of `ngx_http_back_end_module`, the ten setters that fill it in, and
`http_postconfiguration`, which looks at it and connects to MySQL. Each setter reads
`value[1]` of the argument array, whatever stands there.
-/

namespace HttpBackEnd.Conf

open Clients

/-! ## Numbers -/

/-- `NGX_MAX_INT_T_VALUE` of a 64-bit platform. -/
def ngxMaxIntTValue : Nat := 9223372036854775807

/-- The loop of `ngx_atoi`. -/
def ngxAtoiFrom (value : Nat) : Bytes → Int
  | [] => value
  | char :: line =>
      if char < 48 ∨ 57 < char then -1
      else if ngxMaxIntTValue / 10 ≤ value ∧
          (ngxMaxIntTValue / 10 < value ∨ ngxMaxIntTValue % 10 < char.toNat - 48) then -1
      else ngxAtoiFrom (value * 10 + (char.toNat - 48)) line

/-- `ngx_atoi`. -/
def ngxAtoi (line : Bytes) : Int := if line.length = 0 then -1 else ngxAtoiFrom 0 line

/-! ## The main configuration -/

/-- `mysql_connect_conf_t`; a string may be null. -/
structure MysqlConnectConf where
  host : Option Bytes := none
  userName : Option Bytes := none
  userPwd : Option Bytes := none
  dbName : Option Bytes := none
  port : Int16 := 3306
deriving DecidableEq

/-- `redis_connect_conf_t`. -/
structure RedisConnectConf where
  host : Option Bytes := none
  port : Int16 := 6379
  pwd : Option Bytes := none
deriving DecidableEq

/-- `wx_backend_info_t`. -/
structure WxBackendInfo where
  appId : Option Bytes := none
  secret : Option Bytes := none
deriving DecidableEq

/-- `ngx_http_cutomer_module_conf_t`, as `http_create_main_conf` makes it. -/
structure MainConf where
  mysqlInfo : MysqlConnectConf := {}
  redisInfo : RedisConnectConf := {}
  wxBackendInfo : WxBackendInfo := {}
deriving DecidableEq

/-! ## The setters -/

/-- The elements of an argument array; an element may be null. -/
abbrev Elements := Nat → Option Bytes

/-- A setter that stores the string `value[1]`. -/
def setString (store : Option Bytes → MainConf → MainConf) (value : Elements) :
    MainConf → MainConf :=
  store (value 1)

/-- A setter that stores `ngx_atoi` of `value[1]` in an `int16_t`. -/
def setPort (store : Int16 → MainConf → MainConf) (value : Elements) : MainConf → MainConf :=
  store (Int16.ofInt (ngxAtoi ((value 1).getD [])))

/-- `ngx_http_get_mysql_host`. -/
def getMysqlHost : Elements → MainConf → MainConf :=
  setString fun text conf => { conf with mysqlInfo.host := text }

/-- `ngx_http_get_mysql_port`. -/
def getMysqlPort : Elements → MainConf → MainConf :=
  setPort fun port conf => { conf with mysqlInfo.port := port }

/-- `ngx_http_get_mysql_user_name`. -/
def getMysqlUserName : Elements → MainConf → MainConf :=
  setString fun text conf => { conf with mysqlInfo.userName := text }

/-- `ngx_http_get_mysql_user_pwd`. -/
def getMysqlUserPwd : Elements → MainConf → MainConf :=
  setString fun text conf => { conf with mysqlInfo.userPwd := text }

/-- `ngx_http_get_mysql_db_name`. -/
def getMysqlDbName : Elements → MainConf → MainConf :=
  setString fun text conf => { conf with mysqlInfo.dbName := text }

/-- `ngx_http_get_redis_host`. -/
def getRedisHost : Elements → MainConf → MainConf :=
  setString fun text conf => { conf with redisInfo.host := text }

/-- `ngx_http_get_redis_port`. -/
def getRedisPort : Elements → MainConf → MainConf :=
  setPort fun port conf => { conf with redisInfo.port := port }

/-- `ngx_http_get_redis_pwd`. -/
def getRedisPwd : Elements → MainConf → MainConf :=
  setString fun text conf => { conf with redisInfo.pwd := text }

/-- `ngx_http_get_wx_ma_app_id`. -/
def getWxMaAppId : Elements → MainConf → MainConf :=
  setString fun text conf => { conf with wxBackendInfo.appId := text }

/-- `ngx_http_get_wx_ma_secret`. -/
def getWxMaSecret : Elements → MainConf → MainConf :=
  setString fun text conf => { conf with wxBackendInfo.secret := text }

/-- The ten directives, the entries of `ngx_http_commands` that store a setting. -/
inductive Setting where
  | mysqlHost
  | mysqlPort
  | mysqlUserName
  | mysqlUserPwd
  | mysqlDbName
  | redisHost
  | redisPort
  | redisPwd
  | wxMaAppid
  | wxMaSecret
deriving DecidableEq, Repr

namespace Setting

/-- The name of a directive. -/
def name : Setting → Bytes
  | mysqlHost => ascii "mysql_host"
  | mysqlPort => ascii "mysql_port"
  | mysqlUserName => ascii "mysql_user_name"
  | mysqlUserPwd => ascii "mysql_user_pwd"
  | mysqlDbName => ascii "mysql_db_name"
  | redisHost => ascii "redis_host"
  | redisPort => ascii "redis_port"
  | redisPwd => ascii "redis_pwd"
  | wxMaAppid => ascii "wx_ma_appid"
  | wxMaSecret => ascii "wx_ma_secret"

/-- The `set` function of a directive. -/
def set : Setting → Elements → MainConf → MainConf
  | mysqlHost => getMysqlHost
  | mysqlPort => getMysqlPort
  | mysqlUserName => getMysqlUserName
  | mysqlUserPwd => getMysqlUserPwd
  | mysqlDbName => getMysqlDbName
  | redisHost => getRedisHost
  | redisPort => getRedisPort
  | redisPwd => getRedisPwd
  | wxMaAppid => getWxMaAppId
  | wxMaSecret => getWxMaSecret

/-- A setter uses `value[1]` and nothing else of the array. -/
theorem set_congr (setting : Setting) {value value' : Elements} (same : value 1 = value' 1) :
    setting.set value = setting.set value' := by
  funext conf
  cases setting <;>
    simp only [set, getMysqlHost, getMysqlPort, getMysqlUserName, getMysqlUserPwd, getMysqlDbName,
      getRedisHost, getRedisPort, getRedisPwd, getWxMaAppId, getWxMaSecret, setString, setPort, same]

end Setting

/-- The settings that a sequence of directives leaves, each with the array its setter was
given. -/
def configured (directives : List (Setting × Elements)) : MainConf :=
  directives.foldl (fun conf directive => directive.1.set directive.2 conf) {}

/-! ## The end of the configuration -/

/-- `connect_mysql_db`, which returns an instance or null. -/
def connectMysqlDb (mysqlpp : MysqlppArgs → Bool) (host : Bytes) (port : Int16)
    (userName pwd db : Bytes) : Option MySqlDBInstance :=
  let (code, client) :=
    MySqlDBInstance.connect mysqlpp (cstr host) port (cstr userName) (cstr pwd) (cstr db) {}
  if code ≠ 0 then none else some client

/-- `http_postconfiguration`: whether it lets the configuration pass. The connection to
Redis is commented out in the source. -/
def httpPostconfiguration (mysqlpp : MysqlppArgs → Bool) (conf : MainConf) : Bool :=
  match conf.mysqlInfo.host, conf.mysqlInfo.userName, conf.mysqlInfo.userPwd,
      conf.mysqlInfo.dbName with
  | some host, some userName, some userPwd, some dbName =>
      if conf.redisInfo.host.isNone || conf.redisInfo.pwd.isNone then false
      else if conf.wxBackendInfo.appId.isNone || conf.wxBackendInfo.secret.isNone then false
      else (connectMysqlDb mysqlpp host conf.mysqlInfo.port userName userPwd dbName).isSome
  | _, _, _, _ => false

/-- The arguments mysql++ gets from `http_postconfiguration`, where it gets that far. -/
def mysqlConnect (conf : MysqlConnectConf) : Option MysqlppArgs :=
  match conf.host, conf.userName, conf.userPwd, conf.dbName with
  | some host, some userName, some userPwd, some dbName =>
      (MySqlDBInstance.connectArgs (cstr host) conf.port (cstr userName) (cstr userPwd)
        (cstr dbName) {}).getRight?
  | _, _, _, _ => none

theorem connectMysqlDb_isSome_iff (mysqlpp : MysqlppArgs → Bool) (host : Bytes) (port : Int16)
    (userName pwd db : Bytes) :
    (connectMysqlDb mysqlpp host port userName pwd db).isSome ↔
      ∃ args, MySqlDBInstance.connectArgs (cstr host) port (cstr userName) (cstr pwd) (cstr db) {} =
        .inr args ∧ mysqlpp args := by
  rw [← MySqlDBInstance.connect_eq_zero_iff]
  simp only [connectMysqlDb, ne_eq, ite_not]
  split <;> simp_all

/-- A configuration that passes has been taken to mysql++, and accepted there. -/
theorem mysqlConnect_of_passes {mysqlpp : MysqlppArgs → Bool} {conf : MainConf}
    (passes : httpPostconfiguration mysqlpp conf) :
    ∃ args, mysqlConnect conf.mysqlInfo = some args ∧ mysqlpp args := by
  simp only [httpPostconfiguration] at passes
  split at passes
  · next foundHost foundName foundPwd foundDb =>
      split at passes
      · cases passes
      split at passes
      · cases passes
      obtain ⟨args, asked, accepted⟩ := (connectMysqlDb_isSome_iff _ _ _ _ _ _).mp passes
      refine ⟨args, ?_, accepted⟩
      simp only [mysqlConnect, foundHost, foundName, foundPwd, foundDb, asked]
      rfl
  · cases passes

/-- `redis_connect`, given the settings: the arguments `redisConnectWithTimeout` gets,
where it is called. -/
def redisConnect (conf : RedisConnectConf) : Option (CString × Int) :=
  match conf.host, conf.pwd with
  | some host, some pwd =>
      if conf.port = 0 then none
      else RedisInstance.connectCall (cstr host) conf.port (cstr pwd)
  | _, _ => none

/-! ## What `ngx_atoi` computes -/

/-- The text is a decimal numeral. -/
def IsNumeral (text : Bytes) : Prop := text ≠ [] ∧ ∀ char ∈ text, 48 ≤ char ∧ char ≤ 57

/-- The number a numeral is read as, after `value`. -/
def numeralFrom (value : Nat) (text : Bytes) : Nat :=
  text.foldl (fun value char => value * 10 + (char.toNat - 48)) value

/-- The number of a numeral. -/
def numeral (text : Bytes) : Nat := numeralFrom 0 text

theorem numeralFrom_le (value : Nat) (text : Bytes) : value ≤ numeralFrom value text := by
  induction text generalizing value with
  | nil => exact le_rfl
  | cons char text ih =>
      calc
        value ≤ value * 10 + (char.toNat - 48) := by omega
        _ ≤ numeralFrom (value * 10 + (char.toNat - 48)) text := ih _

theorem ngxAtoiFrom_digits {text : Bytes} (digits : ∀ char ∈ text, 48 ≤ char ∧ char ≤ 57)
    {value : Nat} (small : numeralFrom value text ≤ ngxMaxIntTValue) :
    ngxAtoiFrom value text = numeralFrom value text := by
  induction text generalizing value with
  | nil => rfl
  | cons char text ih =>
      obtain ⟨low, high⟩ := digits char List.mem_cons_self
      have next := numeralFrom_le (value * 10 + (char.toNat - 48)) text
      have fits : value * 10 + (char.toNat - 48) ≤ ngxMaxIntTValue := next.trans small
      have inRange : ¬ (char < 48 ∨ 57 < char) := by
        rw [not_or, UInt8.not_lt, UInt8.not_lt]
        exact ⟨low, high⟩
      have below : ¬ (ngxMaxIntTValue / 10 ≤ value ∧
          (ngxMaxIntTValue / 10 < value ∨ ngxMaxIntTValue % 10 < char.toNat - 48)) := by
        unfold ngxMaxIntTValue at *
        omega
      rw [ngxAtoiFrom, if_neg inRange, if_neg below]
      exact ih (fun char member => digits char (List.mem_cons_of_mem _ member)) small

theorem ngxAtoi_numeral {text : Bytes} (isNumeral : IsNumeral text)
    (small : numeral text ≤ ngxMaxIntTValue) : ngxAtoi text = numeral text := by
  have nonempty : text.length ≠ 0 := fun empty => isNumeral.1 (List.length_eq_zero_iff.mp empty)
  rw [ngxAtoi, if_neg nonempty]
  exact ngxAtoiFrom_digits isNumeral.2 small

end HttpBackEnd.Conf
