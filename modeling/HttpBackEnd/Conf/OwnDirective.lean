import HttpBackEnd.Conf.Parse

/-! # A setting and its own directive

The setters read `value[1]` and `NGX_CONF_ANY` lets a directive through without an
argument. A setting comes from its own directive exactly when every directive of the
module in the file has an argument; otherwise a left-over of an earlier directive is
stored.
-/

namespace HttpBackEnd.Conf

/-- The settings of an accepted configuration come from their own directives: each
directive has an argument and its setter has stored the first one, and every accepted
configuration with the same directives of this module has the same settings, whatever
else is in it. -/
structure FromOwnDirectives (final : Parser) : Prop where
  stores : ∀ occurrence ∈ final.log, ∃ first rest, occurrence.arguments = first :: rest ∧
    occurrence.setting.set occurrence.value = occurrence.setting.set fun _ => some first
  independent : ∀ content elts events mysqlpp other,
    parsing.run (Parser.start content elts) events = some other → other.Accepted mysqlpp →
    other.occurrences = final.occurrences → other.conf = final.conf

/-- Every directive of the module has an argument. -/
def Parser.AllWithArgument (parser : Parser) : Prop :=
  ∀ occurrence ∈ parser.occurrences, occurrence.2 ≠ []

/-- The settings a list of directives asks for. -/
def intended (occurrences : List (Setting × List Bytes)) : MainConf :=
  configured (occurrences.map fun occurrence => (occurrence.1, fun _ => occurrence.2.head?))

theorem foldl_set_congr {Entry : Type} (setting : Entry → Setting) {left right : Entry → Elements}
    {entries : List Entry} (same : ∀ entry ∈ entries, left entry 1 = right entry 1)
    (conf : MainConf) :
    entries.foldl (fun conf entry => (setting entry).set (left entry) conf) conf =
      entries.foldl (fun conf entry => (setting entry).set (right entry) conf) conf := by
  induction entries generalizing conf with
  | nil => rfl
  | cons entry entries ih =>
      rw [List.foldl_cons, List.foldl_cons,
        (setting entry).set_congr (same entry List.mem_cons_self)]
      exact ih (fun other member => same other (List.mem_cons_of_mem _ member)) _

/-- With an argument in every directive the settings are those asked for. -/
theorem conf_eq_intended {parser : Parser} (logged : parser.Logged)
    (written : parser.AllWithArgument) : parser.conf = intended parser.occurrences := by
  rw [logged.conf, intended, configured, configured, Parser.occurrences, List.foldl_map,
    List.foldl_map, List.foldl_map]
  apply foldl_set_congr
  intro occurrence member
  exact logged.own occurrence member
    (written (occurrence.setting, occurrence.arguments) (List.mem_map_of_mem member))

/-- **A setting comes from its own directive exactly when that has an argument.** For every
configuration that nginx accepts, whatever the other modules do. -/
theorem settings_from_own_directives_iff {mysqlpp : Clients.MysqlppArgs → Bool} {content : Bytes}
    {elts : Elements} {events : List ParseEvent} {final : Parser}
    (ran : parsing.run (Parser.start content elts) events = some final)
    (_accepted : final.Accepted mysqlpp) :
    FromOwnDirectives final ↔ final.AllWithArgument := by
  have logged := logged_run ran
  refine ⟨fun own occurrence member => ?_, fun written => ⟨?_, ?_⟩⟩
  · obtain ⟨entry, found, rfl⟩ := List.mem_map.mp member
    obtain ⟨first, rest, arguments, -⟩ := own.stores entry found
    simp [arguments]
  · intro occurrence member
    have some_argument : occurrence.arguments ≠ [] :=
      written (occurrence.setting, occurrence.arguments) (List.mem_map_of_mem member)
    obtain ⟨first, rest, arguments⟩ := List.exists_cons_of_ne_nil some_argument
    refine ⟨first, rest, arguments, occurrence.setting.set_congr ?_⟩
    rw [logged.own occurrence member some_argument, arguments, List.head?_cons]
  · intro content elts events mysqlpp other otherRan _ same
    have otherWritten : other.AllWithArgument := by
      rw [Parser.AllWithArgument, same]
      exact written
    rw [conf_eq_intended (logged_run otherRan) otherWritten, conf_eq_intended logged written, same]

/-! ## Two configurations -/

/-- A configuration file whose `redis_host` directive is the given text. -/
def sampleFile (redisHost : String) : Bytes :=
  ascii "events \x7b\x7d http \x7b mysql_host localhost; mysql_user_name root; " ++
    ascii "mysql_user_pwd pwd; mysql_db_name shop; " ++ ascii redisHost ++
    ascii " redis_pwd pwd; wx_ma_appid id; wx_ma_secret key; \x7d"

/-- The blocks `events` and `http` of the file are parsed and their setters succeed. -/
def sampleEvents : List ParseEvent :=
  [.read, .parseBlock .elsewhere false, .read, .succeed, .read, .parseBlock .httpMain false,
    .read, .read, .read, .read, .read, .read, .read, .read, .read, .succeed, .read]

/-- What is compared of a parse. -/
structure Outcome where
  control : Control
  conf : MainConf
  occurrences : List (Setting × List Bytes)
deriving DecidableEq

/-- The outcome of a parse. -/
def Parser.outcome (parser : Parser) : Outcome :=
  ⟨parser.control, parser.conf, parser.occurrences⟩

/-- The settings of the sample, with the host of Redis. -/
def sampleConf (redisHost : Bytes) : MainConf where
  mysqlInfo :=
    { host := some (ascii "localhost"), userName := some (ascii "root")
      userPwd := some (ascii "pwd"), dbName := some (ascii "shop") }
  redisInfo := { host := some redisHost, pwd := some (ascii "pwd") }
  wxBackendInfo := { appId := some (ascii "id"), secret := some (ascii "key") }

/-- The directives of the sample, with the arguments of `redis_host`. -/
def sampleOccurrences (redisHost : List Bytes) : List (Setting × List Bytes) :=
  [(.mysqlHost, [ascii "localhost"]), (.mysqlUserName, [ascii "root"]),
    (.mysqlUserPwd, [ascii "pwd"]), (.mysqlDbName, [ascii "shop"]), (.redisHost, redisHost),
    (.redisPwd, [ascii "pwd"]), (.wxMaAppid, [ascii "id"]), (.wxMaSecret, [ascii "key"])]

theorem sample_run {redisHost : String} {stored : Bytes} {arguments : List Bytes}
    (parsed : (parsing.run (Parser.start (sampleFile redisHost) fun _ => none) sampleEvents).map
      Parser.outcome = some ⟨.accepted, sampleConf stored, sampleOccurrences arguments⟩) :
    ∃ final, parsing.run (Parser.start (sampleFile redisHost) fun _ => none) sampleEvents =
        some final ∧ final.Accepted (fun _ => true) ∧ final.conf = sampleConf stored ∧
      final.occurrences = sampleOccurrences arguments := by
  obtain ⟨final, ran, outcome⟩ := Option.map_eq_some_iff.mp parsed
  obtain ⟨control, conf, occurrences⟩ := Outcome.mk.inj outcome
  refine ⟨final, ran, ⟨control, ?_⟩, conf, occurrences⟩
  rw [conf]
  rfl

theorem sample_parsed :
    (parsing.run (Parser.start (sampleFile "redis_host cache;") fun _ => none) sampleEvents).map
      Parser.outcome =
        some ⟨.accepted, sampleConf (ascii "cache"), sampleOccurrences [ascii "cache"]⟩ := by
  decide +kernel

theorem sample_parsed_without_argument :
    (parsing.run (Parser.start (sampleFile "redis_host;") fun _ => none) sampleEvents).map
      Parser.outcome = some ⟨.accepted, sampleConf (ascii "shop"), sampleOccurrences []⟩ := by
  decide +kernel

/-- The sample with a host for Redis, which is accepted. -/
theorem settings_from_own_directives_sample :
    ∃ final, parsing.run (Parser.start (sampleFile "redis_host cache;") fun _ => none)
        sampleEvents = some final ∧ final.Accepted (fun _ => true) ∧ FromOwnDirectives final := by
  obtain ⟨final, ran, accepted, -, occurrences⟩ := sample_run sample_parsed
  refine ⟨final, ran, accepted, (settings_from_own_directives_iff ran accepted).mpr ?_⟩
  rw [Parser.AllWithArgument, occurrences]
  decide

/-- The sample without a host for Redis is accepted too, and stores the name of the
database, the argument of the directive before. -/
theorem redis_host_left_over :
    ∃ final, parsing.run (Parser.start (sampleFile "redis_host;") fun _ => none)
        sampleEvents = some final ∧ final.Accepted (fun _ => true) ∧
      final.conf.redisInfo.host = some (ascii "shop") ∧ ¬ FromOwnDirectives final := by
  obtain ⟨final, ran, accepted, conf, occurrences⟩ := sample_run sample_parsed_without_argument
  refine ⟨final, ran, accepted, by rw [conf]; rfl, fun own => ?_⟩
  have member : (Setting.redisHost, ([] : List Bytes)) ∈ final.occurrences := by
    rw [occurrences]
    decide
  obtain ⟨entry, found, pair⟩ := List.mem_map.mp member
  obtain ⟨first, rest, arguments, -⟩ := own.stores entry found
  rw [(Prod.mk.inj pair).2] at arguments
  cases arguments

end HttpBackEnd.Conf
