import HttpBackEnd.Conf.Settings

/-! # Ports

A port goes from the text of its directive through `ngx_atoi`, an `int16_t` and the
argument of a connect function. Nothing on that way refuses a text: what is not a number,
is out of range or does not fit in 15 bits becomes some other port.
-/

namespace HttpBackEnd.Conf

open Clients

/-- The two servers the module has a port of. -/
inductive Server where
  | mysql
  | redis
deriving DecidableEq, Repr

namespace Server

/-- The directive of a server's port. -/
def portSetting : Server → Setting
  | mysql => .mysqlPort
  | redis => .redisPort

/-- The port kept in the main configuration. -/
def port : Server → MainConf → Int16
  | mysql, conf => conf.mysqlInfo.port
  | redis, conf => conf.redisInfo.port

/-- The port number passed on at connection time: mysql++'s `unsigned` port or the `int`
port of `redisConnectWithTimeout`. -/
def portPassed : Server → MainConf → Option Int
  | mysql, conf => (mysqlConnect conf.mysqlInfo).map fun args => (args.port.toNat : Int)
  | redis, conf => (redisConnect conf.redisInfo).map fun args => args.2

/-- The other settings let a connection be made. A configuration without those of MySQL
does not pass; Redis needs a host and a password. -/
def Reachable : Server → MainConf → Prop
  | mysql, _ => True
  | redis, conf => (∃ host, conf.redisInfo.host = some host ∧ cstr host ≠ []) ∧
      ∃ pwd, conf.redisInfo.pwd = some pwd ∧ cstr pwd ≠ []

end Server

/-- Whatever the rest of the configuration and whatever mysql++ accepts, a configuration
that passes with this text as the last port has a number from 1 to 65535 there, and
that number is passed on. -/
def PortSurvives (server : Server) (text : Bytes) : Prop :=
  ∀ (mysqlpp : MysqlppArgs → Bool) (before after : List (Setting × Elements)) (value : Elements),
    value 1 = some text → server.portSetting ∉ after.map Prod.fst →
    httpPostconfiguration mysqlpp (configured (before ++ (server.portSetting, value) :: after)) →
    IsNumeral text ∧ 1 ≤ numeral text ∧ numeral text ≤ 65535 ∧
      (server.Reachable (configured (before ++ (server.portSetting, value) :: after)) →
        server.portPassed (configured (before ++ (server.portSetting, value) :: after)) =
          some (numeral text : Int))

/-! ## The port kept -/

theorem port_set (server : Server) (value : Elements) (conf : MainConf) :
    server.port (server.portSetting.set value conf) =
      Int16.ofInt (ngxAtoi ((value 1).getD [])) := by
  cases server <;> rfl

theorem port_set_other {server : Server} {setting : Setting} (other : setting ≠ server.portSetting)
    (value : Elements) (conf : MainConf) :
    server.port (setting.set value conf) = server.port conf := by
  cases server <;> cases setting
  all_goals first
    | rfl
    | exact absurd rfl other

theorem port_foldl {server : Server} {directives : List (Setting × Elements)}
    (others : server.portSetting ∉ directives.map Prod.fst) (conf : MainConf) :
    server.port (directives.foldl (fun conf directive => directive.1.set directive.2 conf) conf) =
      server.port conf := by
  induction directives generalizing conf with
  | nil => rfl
  | cons directive directives ih =>
      rw [List.map_cons, List.mem_cons, not_or] at others
      rw [List.foldl_cons, ih others.2, port_set_other (Ne.symm others.1)]

/-- The port kept is that of the last directive. -/
theorem port_configured {server : Server} {before after : List (Setting × Elements)}
    {value : Elements} {text : Bytes} (written : value 1 = some text)
    (last : server.portSetting ∉ after.map Prod.fst) :
    server.port (configured (before ++ (server.portSetting, value) :: after)) =
      Int16.ofInt (ngxAtoi text) := by
  rw [configured, List.foldl_append, List.foldl_cons, port_foldl last, port_set]
  simp only [written, Option.getD_some]

/-! ## The port passed on -/

/-- What the two clients make of a port. -/
def Server.widen : Server → Int16 → Int
  | .mysql, port => (toUnsigned port).toNat
  | .redis, port => port.toInt

theorem mysqlConnect_port {conf : MysqlConnectConf} {args : MysqlppArgs}
    (asked : mysqlConnect conf = some args) : args.port = toUnsigned conf.port := by
  simp only [mysqlConnect] at asked
  split at asked
  · simp only [MySqlDBInstance.connectArgs] at asked
    split at asked
    · cases asked
    split at asked
    · cases asked
    · cases asked
      rfl
  · cases asked

/-- A port other than zero is passed on widened. -/
theorem portPassed_eq {server : Server} {conf : MainConf} {mysqlpp : MysqlppArgs → Bool}
    (passes : httpPostconfiguration mysqlpp conf) (reachable : server.Reachable conf)
    (nonzero : server.port conf ≠ 0) :
    server.portPassed conf = some (server.widen (server.port conf)) := by
  cases server with
  | mysql =>
      obtain ⟨args, asked, -⟩ := mysqlConnect_of_passes passes
      simp only [Server.portPassed, asked, Option.map_some, Server.widen, Server.port,
        mysqlConnect_port asked]
  | redis =>
      obtain ⟨⟨host, hostSet, hostText⟩, pwd, pwdSet, pwdText⟩ := reachable
      simp only [Server.port] at nonzero
      simp [Server.portPassed, redisConnect, hostSet, pwdSet, nonzero, RedisInstance.connectCall,
        hostText, pwdText, Server.widen, Server.port]

theorem toInt_ofInt {n : Nat} (small : n ≤ 65535) :
    (Int16.ofInt n).toInt = if n ≤ 32767 then (n : Int) else n - 65536 := by
  rw [Int16.toInt_ofInt, Int.bmod_def]
  simp only [Int16.size]
  split <;> split <;> omega

/-- Widening gives the number back up to 32767, and another one above. -/
theorem widen_ofInt_iff (server : Server) {n : Nat} (small : n ≤ 65535) :
    server.widen (Int16.ofInt n) = n ↔ n ≤ 32767 := by
  have kept := toInt_ofInt small
  cases server with
  | mysql =>
      rw [Server.widen, toUnsigned_toNat, kept]
      split <;> split <;> omega
  | redis =>
      rw [Server.widen, kept]
      split <;> omega

/-! ## Which texts survive -/

/-- The settings besides the ports, and both servers reachable. -/
def otherSettings : List (Setting × Elements) :=
  [(.mysqlHost, fun _ => some (ascii "localhost")), (.mysqlUserName, fun _ => some (ascii "root")),
    (.mysqlUserPwd, fun _ => some (ascii "pwd")), (.mysqlDbName, fun _ => some (ascii "db")),
    (.redisHost, fun _ => some (ascii "localhost")), (.redisPwd, fun _ => some (ascii "pwd")),
    (.wxMaAppid, fun _ => some (ascii "id")), (.wxMaSecret, fun _ => some (ascii "key"))]

/-- No text of a port makes a configuration fail: with the other settings in place and a
MySQL server that is reached whatever the port, as one on a local socket, it passes. -/
theorem any_port_passes (server : Server) (value : Elements) :
    httpPostconfiguration (fun _ => true)
        (configured ([] ++ (server.portSetting, value) :: otherSettings)) ∧
      server.Reachable (configured ([] ++ (server.portSetting, value) :: otherSettings)) := by
  cases server with
  | mysql => exact ⟨rfl, trivial⟩
  | redis =>
      refine ⟨rfl, ⟨ascii "localhost", rfl, ?_⟩, ascii "pwd", rfl, ?_⟩
      · decide
      · decide

/-- The port passed on for a number from 1 to 65535. -/
theorem portPassed_configured {server : Server} {mysqlpp : MysqlppArgs → Bool}
    {before after : List (Setting × Elements)} {value : Elements} {text : Bytes}
    (written : value 1 = some text) (last : server.portSetting ∉ after.map Prod.fst)
    (passes : httpPostconfiguration mysqlpp
      (configured (before ++ (server.portSetting, value) :: after)))
    (reachable : server.Reachable (configured (before ++ (server.portSetting, value) :: after)))
    (isNumeral : IsNumeral text) (positive : 1 ≤ numeral text) (small : numeral text ≤ 65535) :
    server.portPassed (configured (before ++ (server.portSetting, value) :: after)) =
      some (server.widen (Int16.ofInt (numeral text))) := by
  have fits : numeral text ≤ ngxMaxIntTValue := small.trans (by decide)
  have kept : server.port (configured (before ++ (server.portSetting, value) :: after)) =
      Int16.ofInt (ngxAtoi text) := port_configured written last
  rw [ngxAtoi_numeral isNumeral fits] at kept
  have nonzero : Int16.ofInt (numeral text) ≠ 0 := by
    intro zero
    have signed := toInt_ofInt small
    rw [zero, show (0 : Int16).toInt = 0 from rfl] at signed
    split at signed <;> omega
  rw [← kept] at nonzero ⊢
  exact portPassed_eq passes reachable nonzero

/-- **Ports up to 32767 survive.** The texts that come through the configuration as the
number they write are the numerals of 1 to 32767, for both directives. -/
theorem port_survives_iff (server : Server) (text : Bytes) :
    PortSurvives server text ↔
      IsNumeral text ∧ 1 ≤ numeral text ∧ numeral text ≤ 32767 := by
  refine ⟨fun survives => ?_, fun ⟨isNumeral, positive, small⟩ => ?_⟩
  · -- a configuration with this text passes, so the text has to be a port that survives
    obtain ⟨passes, reachable⟩ := any_port_passes server (fun _ => some text)
    have last : server.portSetting ∉ otherSettings.map Prod.fst := by
      cases server <;> decide
    obtain ⟨isNumeral, positive, small, passed⟩ := survives _ [] _ _ rfl last passes
    refine ⟨isNumeral, positive, ?_⟩
    have widened := portPassed_configured rfl last passes reachable isNumeral positive small
    rw [passed reachable] at widened
    exact (widen_ofInt_iff server small).mp (Option.some.inj widened).symm
  · intro mysqlpp before after value written last passes
    refine ⟨isNumeral, positive, by omega, fun reachable => ?_⟩
    rw [portPassed_configured written last passes reachable isNumeral positive (by omega)]
    exact congrArg some ((widen_ofInt_iff server (by omega)).mpr small)

/-- The MySQL port 33060 is not passed on as 33060. -/
theorem port_33060_lost : ¬ PortSurvives .mysql (ascii "33060") := by
  intro survives
  obtain ⟨passes, reachable⟩ := any_port_passes .mysql (fun _ => some (ascii "33060"))
  obtain ⟨-, -, -, passed⟩ := survives _ [] _ _ rfl (by decide) passes
  have wrong := passed reachable
  revert wrong
  decide

end HttpBackEnd.Conf
