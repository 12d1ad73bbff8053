import HttpBackEnd.Conf.Token
import HttpBackEnd.Library.Transition

/-! # Parsing a configuration

`ngx_conf_parse` and `ngx_conf_handler` around the directives of this module. The
directives of other modules are events: their setters may do what they like with the
argument array, parse a block or another file, and succeed or fail. A directive of this
module runs its setter at once, with the array as `ngx_conf_read_token` has left it; the
parser keeps a log of these.
-/

namespace HttpBackEnd.Conf

/-! ## The directives of the module -/

/-- The `module_type` and `cmd_type` of a context, as far as this module can tell them
apart. -/
inductive Context where
  | httpMain
  | httpSrv
  | httpLoc
  | httpLmt
  | elsewhere
deriving DecidableEq, Repr

/-- The contexts in the `type` of a directive. -/
def Setting.allowedIn (setting : Setting) (context : Context) : Bool :=
  match setting with
  | mysqlHost => context = .httpMain
  | _ => context ≠ .elsewhere

/-- The directives in the order of `ngx_http_commands`. -/
def Setting.all : List Setting :=
  [mysqlHost, mysqlPort, mysqlUserName, mysqlUserPwd, mysqlDbName, redisHost, redisPort,
    redisPwd, wxMaAppid, wxMaSecret]

/-- The directive of a name. -/
def Setting.ofName (name : Option Bytes) : Option Setting :=
  Setting.all.find? fun setting => some setting.name = name

/-! ## The parser -/

/-- A call of `ngx_conf_parse`: for a file or for a block, in a context, and whether
`cf->handler` is set. -/
structure Frame where
  ofFile : Bool
  context : Context
  handler : Bool
deriving DecidableEq, Repr

/-- Reading the next directive, in the setter of another module, or done. -/
inductive Control where
  | reading
  | setting
  | accepted
  | rejected
deriving DecidableEq, Repr

/-- A directive of this module that was carried out: the arguments written in the file,
and the array its setter was given. -/
structure Occurrence where
  setting : Setting
  arguments : List Bytes
  value : Elements

/-- The state of the parse. -/
structure Parser where
  files : List File
  frames : List Frame
  control : Control := .reading
  args : Args
  conf : MainConf := {}
  log : List Occurrence := []

namespace Parser

/-- Before the configuration file has been read. Nothing is known of the array, which may
have held a parameter of the command line. -/
def start (content : Bytes) (elts : Elements) : Parser where
  files := [⟨content, 0⟩]
  frames := [⟨true, .elsewhere, false⟩]
  args := ⟨elts, 0⟩

/-- `ngx_conf_handler`, or `cf->handler`, on the words of a directive. The directives of
this module take any number of arguments and no block. -/
def handle (frame : Frame) (words : List Bytes) (block : Bool) (parser : Parser) : Parser :=
  let args := parser.args.fill words
  if frame.handler then
    { parser with args := args, control := if block then .rejected else .setting }
  else
    match Setting.ofName (args.elts 0) with
    | none => { parser with args := args, control := .setting }
    | some setting =>
        if setting.allowedIn frame.context = false then { parser with control := .rejected }
        else if block then { parser with control := .rejected }
        else
          { parser with
            args := args
            conf := setting.set args.elts parser.conf
            log := parser.log ++ [⟨setting, words.drop 1, args.elts⟩] }

/-- One round of the loop of `ngx_conf_parse`. -/
def read (parser : Parser) : Parser :=
  match parser.files, parser.frames with
  | file :: files, frame :: frames =>
      match ngxConfReadToken file with
      | (.error, _) => { parser with control := .rejected }
      | (.blockDone, file) =>
          if frame.ofFile then { parser with control := .rejected }
          else
            { parser with
              files := file :: files, frames := frames, control := .setting
              args := parser.args.reset }
      | (.fileDone, _) =>
          if frame.ofFile = false then { parser with control := .rejected }
          else
            { parser with
              files := files, frames := frames, args := parser.args.reset
              control := if frames.length = 0 then .accepted else .setting }
      | (.ok words, file) => handle frame words false { parser with files := file :: files }
      | (.blockStart words, file) => handle frame words true { parser with files := file :: files }
  | _, _ => { parser with control := .rejected }

end Parser

/-- What happens next: a round of the loop, or something a setter of another module does. -/
inductive ParseEvent where
  | read
  | touch (elts : Elements)
  | parseBlock (context : Context) (handler : Bool)
  | parseFile (content : Bytes)
  | succeed
  | fail

/-- The parse of a configuration. -/
def parsing : Transition.System Parser ParseEvent where
  step parser event :=
    match parser.control, event with
    | .reading, .read => some parser.read
    | .setting, .touch elts => some { parser with args.elts := elts }
    | .setting, .parseBlock context handler =>
        some { parser with
          frames := ⟨false, context, handler⟩ :: parser.frames, control := .reading }
    | .setting, .parseFile content =>
        match parser.frames with
        | [] => none
        | frame :: frames =>
            some { parser with
              files := ⟨content, 0⟩ :: parser.files
              frames := { frame with ofFile := true } :: frame :: frames, control := .reading }
    | .setting, .succeed => some { parser with control := .reading }
    | .setting, .fail => some { parser with control := .rejected }
    | _, _ => none

/-- nginx accepts the configuration: the file has been parsed, and
`http_postconfiguration` has let the settings pass. -/
def Parser.Accepted (mysqlpp : Clients.MysqlppArgs → Bool) (parser : Parser) : Prop :=
  parser.control = .accepted ∧ httpPostconfiguration mysqlpp parser.conf

/-- The directives of this module in the file, with their arguments. -/
def Parser.occurrences (parser : Parser) : List (Setting × List Bytes) :=
  parser.log.map fun occurrence => (occurrence.setting, occurrence.arguments)

/-! ## What a step does to the settings -/

/-- The step leaves settings and log alone, or it carries out one directive with the array
its words were read into. -/
def Parser.CarriesOut (parser next : Parser) : Prop :=
  (next.conf = parser.conf ∧ next.log = parser.log) ∨
    ∃ setting words, next.conf = setting.set (parser.args.fill words).elts parser.conf ∧
      next.log = parser.log ++ [⟨setting, words.drop 1, (parser.args.fill words).elts⟩]

theorem handle_carriesOut (frame : Frame) (words : List Bytes) (block : Bool) (parser : Parser) :
    parser.CarriesOut (parser.handle frame words block) := by
  unfold Parser.handle
  dsimp only
  split
  · exact .inl ⟨rfl, rfl⟩
  split
  · exact .inl ⟨rfl, rfl⟩
  split
  · exact .inl ⟨rfl, rfl⟩
  split
  · exact .inl ⟨rfl, rfl⟩
  · exact .inr ⟨_, words, rfl, rfl⟩

theorem read_carriesOut (parser : Parser) : parser.CarriesOut parser.read := by
  unfold Parser.read
  split
  · split
    · exact .inl ⟨rfl, rfl⟩
    · split <;> exact .inl ⟨rfl, rfl⟩
    · split <;> exact .inl ⟨rfl, rfl⟩
    · exact handle_carriesOut _ _ _ { parser with files := _ }
    · exact handle_carriesOut _ _ _ { parser with files := _ }
  · exact .inl ⟨rfl, rfl⟩

theorem step_carriesOut {parser next : Parser} {event : ParseEvent}
    (stepped : parsing.step parser event = some next) : parser.CarriesOut next := by
  simp only [parsing] at stepped
  split at stepped
  · cases stepped
    exact read_carriesOut parser
  · cases stepped
    exact .inl ⟨rfl, rfl⟩
  · cases stepped
    exact .inl ⟨rfl, rfl⟩
  · split at stepped
    · cases stepped
    · cases stepped
      exact .inl ⟨rfl, rfl⟩
  · cases stepped
    exact .inl ⟨rfl, rfl⟩
  · cases stepped
    exact .inl ⟨rfl, rfl⟩
  · cases stepped

/-! ## Settings and their directives -/

/-- The settings are those of the directives carried out, and a directive with an argument
had it in `value[1]`. -/
structure Parser.Logged (parser : Parser) : Prop where
  conf : parser.conf =
    configured (parser.log.map fun occurrence => (occurrence.setting, occurrence.value))
  own : ∀ occurrence ∈ parser.log, occurrence.arguments ≠ [] →
    occurrence.value 1 = occurrence.arguments.head?

theorem logged_start (content : Bytes) (elts : Elements) : (Parser.start content elts).Logged where
  conf := rfl
  own := by
    intro occurrence member
    cases member

theorem logged_step {parser next : Parser} {event : ParseEvent} (logged : parser.Logged)
    (stepped : parsing.step parser event = some next) : next.Logged := by
  rcases step_carriesOut stepped with ⟨sameConf, sameLog⟩ | ⟨setting, words, newConf, newLog⟩
  · exact ⟨by rw [sameConf, sameLog]; exact logged.conf, by rw [sameLog]; exact logged.own⟩
  · refine ⟨?_, fun occurrence member written => ?_⟩
    · rw [newConf, newLog, logged.conf, List.map_append, configured, configured,
        List.foldl_append]
      rfl
    · rw [newLog] at member
      rcases List.mem_append.mp member with earlier | last
      · exact logged.own occurrence earlier written
      · obtain rfl := List.mem_singleton.mp last
        match words, written with
        | name :: first :: rest, _ => exact Args.fill_one parser.args name first rest

theorem logged_run {content : Bytes} {elts : Elements} {events : List ParseEvent} {final : Parser}
    (ran : parsing.run (Parser.start content elts) events = some final) : final.Logged := by
  have keeps : parsing.Keeps (fun _ => True) Parser.Logged :=
    fun _ _ _ _ logged stepped => logged_step logged stepped
  exact keeps.run (fun _ _ => trivial) (logged_start content elts) ran

end HttpBackEnd.Conf
