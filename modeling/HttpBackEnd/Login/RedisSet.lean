import HttpBackEnd.Library.Resp
import HttpBackEnd.Login.Handlers
import HttpBackEnd.Nginx.Uri

/-! # The commands sent to Redis

The father handler puts the openid, the session key and the password between the
literal parts of an argument string; `location /redis_set` looks the three arguments up
again, decodes them and sends two commands. The handler does not escape what the
location unescapes.
-/

namespace HttpBackEnd.Login

open Nginx Json

/-- The value of `$arg_name`; an argument that is not there is empty. -/
def argVariable (name args : Bytes) : Bytes := (httpArg name args).getD []

/-- The two `redis2_query` lines of `location /redis_set`, over the variables its
`set_unescape_uri` lines set. -/
def redisSetQueries (args : Bytes) : List (List Bytes) :=
  let key := setUnescapeUri (argVariable (ascii "key") args)
  let val := setUnescapeUri (argVariable (ascii "value") args)
  let pwd := setUnescapeUri (argVariable (ascii "pwd") args)
  [[ascii "auth", pwd], [ascii "set", key, val]]

/-- `ngx_http_redis2_build_query`. -/
def redis2BuildQuery (queries : List (List Bytes)) : Bytes := Resp.encode queries

/-- What Redis keeps. -/
abbrev Store := Bytes → Option Bytes

/-- A command as Redis applies it; `auth` changes nothing. -/
def Store.apply (store : Store) : List Bytes → Store
  | [name, key, value] =>
      if name = ascii "set" then Function.update store key (some value) else store
  | _ => store

/-- Redis reads the commands the login means: to authenticate with the password and to
set the session key under the openid; after them it holds the session key. -/
def StoresSession (conf : Conf) (info : WXSessionInfo) : Prop :=
  ∃ commands, Resp.parse (redis2BuildQuery (redisSetQueries (redisArgs conf info))) =
      some commands ∧
    commands = [[ascii "auth", conf.redisPwd], [ascii "set", info.openid, info.sessionKey]] ∧
    ∀ store : Store, commands.foldl Store.apply store info.openid = some info.sessionKey

variable (conf : Conf) (info : WXSessionInfo)

/-- The arguments, part by part. -/
theorem redisArgs_parts :
    redisArgs conf info = (ascii "key" ++ 61 :: info.openid) ++ 38 ::
      ((ascii "value" ++ 61 :: info.sessionKey) ++ 38 :: (ascii "pwd" ++ 61 :: conf.redisPwd)) := by
  have key : ascii "key=" = ascii "key" ++ [61] := by decide
  have value : ascii "&value=" = 38 :: (ascii "value" ++ [61]) := by decide
  have pwd : ascii "&pwd=" = 38 :: (ascii "pwd" ++ [61]) := by decide
  rw [redisArgs_eq, key, value, pwd]
  simp only [List.append_assoc, List.cons_append, List.nil_append]

theorem argVariable_key :
    argVariable (ascii "key") (redisArgs conf info) = info.openid.takeWhile (· ≠ 38) := by
  rw [redisArgs_parts, List.append_assoc, List.cons_append, argVariable, httpArg, argFrom_found,
    takeWhile_value]
  rfl

variable {conf info}

theorem argVariable_value (plain : 38 ∉ info.openid) :
    argVariable (ascii "value") (redisArgs conf info) = info.sessionKey.takeWhile (· ≠ 38) := by
  have other : argAhead (ascii "value") ((ascii "key" ++ 61 :: info.openid) ++ 38 ::
      ((ascii "value" ++ 61 :: info.sessionKey) ++ 38 :: (ascii "pwd" ++ 61 :: conf.redisPwd))) =
      false :=
    argAhead_other (by decide) _ _
  rw [redisArgs_parts, argVariable, httpArg,
    argFrom_other other (argPart_plain (by decide) plain) (by simp), List.append_assoc, List.cons_append,
    argFrom_found, takeWhile_value]
  rfl

theorem argVariable_pwd (plain : 38 ∉ info.openid) (plainKey : 38 ∉ info.sessionKey) :
    argVariable (ascii "pwd") (redisArgs conf info) = conf.redisPwd.takeWhile (· ≠ 38) := by
  have first : argAhead (ascii "pwd") ((ascii "key" ++ 61 :: info.openid) ++ 38 ::
      ((ascii "value" ++ 61 :: info.sessionKey) ++ 38 :: (ascii "pwd" ++ 61 :: conf.redisPwd))) =
      false :=
    argAhead_other (by decide) _ _
  have second : argAhead (ascii "pwd") ((ascii "value" ++ 61 :: info.sessionKey) ++ 38 ::
      (ascii "pwd" ++ 61 :: conf.redisPwd)) = false :=
    argAhead_other (by decide) _ _
  rw [redisArgs_parts, argVariable, httpArg,
    argFrom_other first (argPart_plain (by decide) plain) (by simp),
    argFrom_other second (argPart_plain (by decide) plainKey) (by simp), argFrom_found]
  rfl

/-- The texts that pass through the arguments unchanged. -/
def survives (text : Bytes) : Prop := 38 ∉ text ∧ 37 ∉ text ∧ 43 ∉ text

instance (text : Bytes) : Decidable (survives text) :=
  inferInstanceAs (Decidable (38 ∉ text ∧ 37 ∉ text ∧ 43 ∉ text))

/-- The location sends the commands the handler means exactly when all three texts
survive. -/
theorem redisSetQueries_iff :
    redisSetQueries (redisArgs conf info) =
        [[ascii "auth", conf.redisPwd], [ascii "set", info.openid, info.sessionKey]] ↔
      survives info.openid ∧ survives info.sessionKey ∧ survives conf.redisPwd := by
  unfold redisSetQueries
  rw [argVariable_key]
  constructor
  · intro same
    simp only [List.cons.injEq, and_true, true_and] at same
    obtain ⟨pwd, key, val⟩ := same
    have openid := (decoded_value_iff info.openid).mp key
    rw [argVariable_value openid.1] at val
    have sessionKey := (decoded_value_iff info.sessionKey).mp val
    rw [argVariable_pwd openid.1 sessionKey.1] at pwd
    exact ⟨openid, sessionKey, (decoded_value_iff conf.redisPwd).mp pwd⟩
  · rintro ⟨openid, sessionKey, pwd⟩
    rw [argVariable_value openid.1, argVariable_pwd openid.1 sessionKey.1]
    simp only [(decoded_value_iff _).mpr openid, (decoded_value_iff _).mpr sessionKey,
      (decoded_value_iff _).mpr pwd]

/-- The second command does not depend on the password. -/
theorem redisSetQueries_set (openid : survives info.openid)
    (sessionKey : survives info.sessionKey) :
    ∃ pwd, redisSetQueries (redisArgs conf info) =
      [[ascii "auth", pwd], [ascii "set", info.openid, info.sessionKey]] := by
  unfold redisSetQueries
  rw [argVariable_key, argVariable_value openid.1]
  simp only [(decoded_value_iff _).mpr openid, (decoded_value_iff _).mpr sessionKey]
  exact ⟨_, rfl⟩

theorem storesSession_iff :
    StoresSession conf info ↔
      survives info.openid ∧ survives info.sessionKey ∧ survives conf.redisPwd := by
  rw [← redisSetQueries_iff]
  unfold StoresSession redis2BuildQuery
  rw [Resp.parse_encode]
  constructor
  · rintro ⟨commands, read, same, _⟩
    cases read
    exact same
  · intro same
    refine ⟨_, rfl, same, ?_⟩
    intro store
    rw [same]
    simp [Store.apply]

theorem survives_iff (text : Bytes) :
    survives text ↔ ∀ char ∈ text, char ≠ 38 ∧ char ≠ 37 ∧ char ≠ 43 := by
  constructor
  · rintro ⟨amp, percent, plus⟩ char member
    refine ⟨?_, ?_, ?_⟩
    · rintro rfl
      exact amp member
    · rintro rfl
      exact percent member
    · rintro rfl
      exact plus member
  · intro plain
    exact ⟨fun member => (plain 38 member).1 rfl, fun member => (plain 37 member).2.1 rfl,
      fun member => (plain 43 member).2.2 rfl⟩

/-- **When Redis stores the session.** The commands that reach Redis are the ones the
login means exactly when the openid, the session key and the password have no `&`, no
`%` and no `+`. -/
theorem redis_set_commands_iff (conf : Conf) (info : WXSessionInfo) :
    StoresSession conf info ↔
      ∀ text ∈ [info.openid, info.sessionKey, conf.redisPwd], ∀ char ∈ text,
        char ≠ 38 ∧ char ≠ 37 ∧ char ≠ 43 := by
  simp only [storesSession_iff, survives_iff, List.forall_mem_cons, List.not_mem_nil,
    false_imp_iff, implies_true, and_true]

/-- A session key in base64 with a `+` is stored with a space in its place. -/
theorem redis_set_base64_key : ¬ ∀ conf info, StoresSession conf info := by
  intro stores
  have plain := storesSession_iff.mp
    (stores sampleConf ⟨ascii "tiihtNczf5v6AKRyjwEUh+==", ascii "o1", [], 0⟩)
  have plus : 43 ∈ ascii "tiihtNczf5v6AKRyjwEUh+==" := by decide
  exact plain.2.1.2.2 plus

end HttpBackEnd.Login
