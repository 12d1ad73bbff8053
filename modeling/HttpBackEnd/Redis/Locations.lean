import HttpBackEnd.Conf.Settings
import HttpBackEnd.Login.RedisSet
import HttpBackEnd.Redis.Pool

/-! # The Redis locations of the configuration

`ngx_http_redis2_create_request` for the three locations of the configuration. In
`/redis_set` and `/redis_get` the commands are built and counted by the module; in
`/redis_cmds` the client says both what is sent and how many replies there will be.

`locations_own_replies` is what the shared connections are worth then, as long as each
command has one reply, and `raw_queries_cross_talk` what they are worth otherwise: a client
that announces fewer queries than it will get replies leaves these to whoever is next.
-/

namespace HttpBackEnd.Redis

open Conf Login Nginx Resp

/-- What `ngx_http_redis2_loc_conf_t` says about the query, with the values of its
variables. -/
structure QueryConf where
  queries : Option (List (List Bytes)) := none
  literalQuery : Bytes := []
  complexQuery : Option Bytes := none
  complexQueryCount : Option Bytes := none
deriving DecidableEq, Repr

/-- The locations with `redis2_pass`. -/
inductive Location where
  | redisSet
  | redisGet
  | redisCmds
deriving DecidableEq, Repr

/-- What the lines of a location set for the arguments of a request. -/
def Location.conf (args : Bytes) : Location → QueryConf
  | .redisSet => { queries := some (redisSetQueries args) }
  | .redisGet =>
      let key := setUnescapeUri (argVariable (ascii "key") args)
      let pwd := setUnescapeUri (argVariable (ascii "pwd") args)
      { queries := some [[ascii "auth", pwd], [ascii "get", key]] }
  | .redisCmds =>
      let n := setUnescapeUri (argVariable (ascii "n") args)
      let cmds := setUnescapeUri (argVariable (ascii "cmds") args)
      { complexQuery := some cmds, complexQueryCount := some n }

/-- The commands of a request: those of the location, or those Redis will read. -/
def Location.commands (args : Bytes) (location : Location) : List (List Bytes) :=
  match (location.conf args).queries, (location.conf args).complexQuery with
  | some queries, _ => queries
  | none, some query => (parse query).getD []
  | none, none => []

variable {ι Addr Store Session : Type} [DecidableEq ι] [DecidableEq Addr]

/-- A server that says yes to everything. -/
def okServer : Server Unit Unit where
  session := ()
  exec _ _ _ := ([.item (.line .status okText)], (), ())

namespace Server

variable (server : Server Store Session)

/-- Commands of an attempt that are executed on one connection, and what the server is left
with. -/
def executes (attempt : ι) :
    Store → Session → List (List Bytes) → List (Executed ι) × Store × Session
  | store, session, [] => ([], store, session)
  | store, session, command :: commands =>
      let answer := server.exec store session command
      let later := executes attempt answer.2.1 answer.2.2 commands
      (⟨attempt, command, answer.1⟩ :: later.1, later.2)

omit [DecidableEq ι] in
theorem executes_commands (attempt : ι) (store : Store) (session : Session)
    (commands : List (List Bytes)) :
    (server.executes attempt store session commands).1.map (·.command) = commands := by
  induction commands generalizing store session with
  | nil => rfl
  | cons command commands ih => exact congrArg (List.cons command) (ih _ _)

omit [DecidableEq ι] in
theorem executes_attempt (attempt : ι) (store : Store) (session : Session)
    (commands : List (List Bytes)) :
    ∀ executed ∈ (server.executes attempt store session commands).1,
      executed.attempt = attempt := by
  induction commands generalizing store session with
  | nil => exact fun _ member => absurd member List.not_mem_nil
  | cons command commands ih => exact List.forall_mem_cons.mpr ⟨rfl, ih _ _⟩

end Server

variable {server : Server Store Session} {query : ι → Query} {world : World ι Addr Store Session}
  {attempt : ι}

omit [DecidableEq ι] [DecidableEq Addr] in
/-- The server reads the first of the commands that have arrived. -/
theorem serve_arrived {connection : Nat} {command : List Bytes} {later : List (List Bytes)}
    (arrived : (world.links connection).inbound = (encode (command :: later)).map (attempt, ·)) :
    let link := world.links connection
    let answer := server.exec world.store link.session command
    world.serve server connection =
      some { world with
        store := answer.2.1
        links := Function.update world.links connection
          { inbound := (encode later).map (attempt, ·)
            outbound := link.outbound ++ replyStream answer.1
            session := answer.2.2 }
        log := world.log ++ [⟨attempt, command, answer.1⟩] } := by
  have split : encode (command :: later) = Resp.command command ++ encode later :=
    List.flatMap_cons
  have read : readCommand ((world.links connection).inbound.map Prod.snd) =
      some (command, encode later) := by
    rw [arrived, List.map_map]
    change readCommand ((encode (command :: later)).map id) = _
    rw [List.map_id, split, readCommand_command]
  have left : (world.links connection).inbound.drop
      ((world.links connection).inbound.length - (encode later).length) =
        (encode later).map (attempt, ·) := by
    rw [arrived, List.length_map, split, List.length_append, Nat.add_sub_cancel, List.map_append,
      List.drop_left' (by rw [List.length_map])]
  obtain ⟨rest, head⟩ : ∃ rest, (world.links connection).inbound = (attempt, 42) :: rest :=
    ⟨_, arrived⟩
  simp only [World.serve, read]
  rw [head] at left ⊢
  dsimp only
  rw [left]

/-- The server works through commands that have arrived. -/
theorem run_serves (server : Server Store Session) (query : ι → Query) {connection : Nat}
    {first second : List (List Bytes)}
    (arrived : (world.links connection).inbound = (encode (first ++ second)).map (attempt, ·)) :
    let link := world.links connection
    let done := server.executes attempt world.store link.session first
    ∃ next : World ι Addr Store Session,
      (pool server query).run world (List.replicate first.length (.serve connection)) = some next ∧
      next.connections = world.connections ∧ next.progress = world.progress ∧
      next.store = done.2.1 ∧ next.log = world.log ++ done.1 ∧
      next.links connection = ⟨(encode second).map (attempt, ·),
        link.outbound ++ replyStream (repliesTo done.1), done.2.2⟩ := by
  induction first generalizing world with
  | nil =>
      refine ⟨world, rfl, rfl, rfl, rfl, (List.append_nil _).symm, ?_⟩
      rw [show replyStream (repliesTo (Prod.fst (server.executes attempt _ _ []))) = [] from rfl,
        List.append_nil, ← List.nil_append second, ← arrived]
      rfl
  | cons command first ih =>
      intro link done
      let answer := server.exec world.store link.session command
      let served : World ι Addr Store Session := { world with
        store := answer.2.1
        links := Function.update world.links connection
          { inbound := (encode (first ++ second)).map (attempt, ·)
            outbound := link.outbound ++ replyStream answer.1
            session := answer.2.2 }
        log := world.log ++ [⟨attempt, command, answer.1⟩] }
      have here : served.links connection = ⟨(encode (first ++ second)).map (attempt, ·),
          link.outbound ++ replyStream answer.1, answer.2.2⟩ := Function.update_self _ _ _
      obtain ⟨next, ran, conns, progress, stored, logged, last⟩ :=
        ih (show (served.links connection).inbound = _ by rw [here])
      have replies : replyStream (repliesTo done.1) = replyStream answer.1 ++
          replyStream (repliesTo (server.executes attempt answer.2.1 answer.2.2 first).1) :=
        replyStream_append answer.1 _
      refine ⟨next, (Transition.System.run_cons_eq_some _).mpr ⟨served, serve_arrived arrived, ran⟩,
        conns, progress, ?_, ?_, ?_⟩
      · rw [stored, here]
        rfl
      · rw [logged, here, List.append_assoc]
        rfl
      · rw [last, here, replies, List.append_assoc]
        rfl

/-- An attempt takes a connection and sends everything. -/
theorem run_sends {sockaddr : Addr} {connection : Nat} {connections : Connections Addr}
    (ready : world.progress attempt = .ready)
    (got : world.connections.get sockaddr true = (some connection, connections)) :
    let link := world.links connection
    (pool server query).run world
        [.connect attempt sockaddr true, .send attempt (query attempt).bytes.length] =
      some ({ world with
        connections
        links := Function.update world.links connection
          { link with inbound := link.inbound ++ (query attempt).bytes.map (attempt, ·) } }.move
        attempt (.active ⟨connection, [], freshCtx (query attempt).queryCount, []⟩)) := by
  refine (Transition.System.run_cons_eq_some _).mpr ⟨{ world with connections }.move attempt
    (.active ⟨connection, (query attempt).bytes, freshCtx (query attempt).queryCount, []⟩), ?_, ?_⟩
  · simp only [pool, World.step, World.connect, ready, got]
  · refine (Transition.System.run_cons_eq_some _).mpr ⟨_, ?_, rfl⟩
    simp only [pool, World.step, World.send, World.move, Function.update_self, Function.update_idem,
      List.take_length, List.drop_length]

theorem processHeader_encode (reply : Reply) (rest : Bytes) :
    processHeader (reply.encode ++ rest) = true := by
  rcases reply with ⟨⟨_ | _ | _⟩ | _ | _⟩ | _ | _ <;> rfl

/-- Replies that make a response whose end the parser finds. -/
structure Response (replies : List Reply) : Prop where
  some' : replies ≠ []
  small : replies.length < 2 ^ 64
  fits : ∀ reply ∈ replies, ReplyFits reply
  inOrder : clear 0 replies = true

/-- An attempt that reads as many replies as it awaits is complete, and the connection goes
back, whoever the replies were for. -/
theorem recv_replies {passing : Passing} {connections : Connections Addr} {replies : List Reply}
    (active : world.progress attempt = .active passing) (fresh : passing.output = [])
    (awaits : passing.ctx = freshCtx replies.length) (response : Response replies)
    (outbound : (world.links passing.connection).outbound = replyStream replies)
    (gave : world.connections.step (.free passing.connection
      { keepalive := true, requestBodySent := passing.unsent.isEmpty } none) = some connections) :
    world.recv attempt (replyStream replies).length { keepalive := true } none =
      some ({ world with
        connections
        links := Function.update world.links passing.connection
          { world.links passing.connection with outbound := [] } }.move attempt
        (.complete (replyStream replies))) := by
  obtain ⟨some', small, fits, inOrder⟩ := response
  have filtered : processReply replies.length {} (replyStream replies) =
      { accepted := replyStream replies } :=
    processReply_stream some' fits rfl (show ({} : Machine).Ahead 0 from rfl) (by omega) inOrder
  obtain ⟨reply, later, rfl⟩ := List.exists_cons_of_ne_nil some'
  have header : processHeader (replyStream (reply :: later)) = true :=
    processHeader_encode reply (replyStream later)
  have bytes : replyStream (reply :: later) ≠ [] := fun none => by
    rw [none] at header
    cases header
  simp only [World.recv, active, outbound, List.take_length, List.drop_length, if_neg bytes, fresh,
    header, Bool.true_eq_false, and_false, ↓reduceIte, awaits, freshCtx, filtered, Filtered.output,
    Bool.false_eq_true, List.nil_append, World.finalize, decide_true, gave, Option.map_some]

omit [DecidableEq Addr] in
/-- Where all that was logged is of one attempt, it is what was executed for it, and nothing
was executed for another. -/
theorem executedOf_logged (owner : ∀ executed ∈ world.log, executed.attempt = attempt) :
    world.executedOf attempt = world.log ∧
      ∀ other, other ≠ attempt → world.executedOf other = [] := by
  constructor
  · exact List.filter_eq_self.mpr fun executed member => by simpa using owner executed member
  · intro other apart
    refine List.filter_eq_nil_iff.mpr fun executed member => ?_
    rw [owner executed member]
    simpa using Ne.symm apart

/-- One connection, in the cache, with commands of an attempt that is done on the way. -/
structure LeftOver (world : World ι Addr Store Session) (sockaddr : Addr) (liar : ι)
    (others : List (List Bytes)) (room : Nat) (session : Session) : Prop where
  connections : world.connections =
    { conf := ⟨[⟨0, sockaddr⟩], room⟩, ledger := ⟨1, []⟩, opened := [sockaddr] }
  link : world.links 0 = ⟨(encode others).map (liar, ·), [], session⟩

/-- A request that announces fewer queries than it gets replies: it sends `own` and `others`,
and announces as many as the replies to `own`. Another request awaits as many as there are
replies to `others`. -/
structure Surplus (server : Server Store Session) (query : ι → Query) (liar victim : ι)
    (own others : List (List Bytes)) (store : Store) : Prop where
  apart : victim ≠ liar
  sent : (query liar).bytes = encode (own ++ others)
  announced : (query liar).queryCount =
    (repliesTo (server.executes liar store server.session own).1).length
  awaits : (query victim).queryCount =
    (repliesTo (server.executes liar (server.executes liar store server.session own).2.1
      (server.executes liar store server.session own).2.2 others).1).length
  first : Response (repliesTo (server.executes liar store server.session own).1)
  second : Response (repliesTo (server.executes liar
    (server.executes liar store server.session own).2.1
    (server.executes liar store server.session own).2.2 others).1)

/-- A request that announces fewer queries than it gets replies is complete before the other
commands are executed, and its connection is kept. -/
theorem run_leaves {liar victim : ι} {own others : List (List Bytes)} {store : Store}
    (surplus : Surplus server query liar victim own others store)
    {maxCached : Nat} (positive : 0 < maxCached) (sockaddr : Addr) :
    let done := server.executes liar store server.session own
    ∃ (events : List (PoolEvent ι Addr)) (world : World ι Addr Store Session),
      (pool server query).run (World.initial server maxCached store) events = some world ∧
      LeftOver world sockaddr liar others (maxCached - 1) done.2.2 ∧
      world.store = done.2.1 ∧ world.log = done.1 ∧
      world.progress liar = .complete (replyStream (repliesTo done.1)) ∧
      ∀ other, other ≠ liar → world.progress other = .ready := by
  intro done
  let held : Connections Addr :=
    { conf := KeepaliveConf.init maxCached, held := [⟨0, sockaddr⟩], ledger := ⟨1, []⟩,
      opened := [sockaddr] }
  obtain ⟨sending, ran, conns, link, stored, logged, active, waits⟩ :
      ∃ world : World ι Addr Store Session,
        (pool server query).run (World.initial server maxCached store)
          [.connect liar sockaddr true, .send liar (query liar).bytes.length] = some world ∧
        world.connections = held ∧
        world.links 0 = ⟨(encode (own ++ others)).map (liar, ·), [], server.session⟩ ∧
        world.store = store ∧ world.log = [] ∧
        world.progress liar = .active ⟨0, [], freshCtx (repliesTo done.1).length, []⟩ ∧
        ∀ other, other ≠ liar → world.progress other = .ready := by
    have got : (World.initial server maxCached store :
        World ι Addr Store Session).connections.get sockaddr true = (some 0, held) := rfl
    refine ⟨_, run_sends rfl got, rfl, ?_, rfl, rfl, ?_,
      fun other apart => World.move_of_ne _ apart _⟩
    · simp [World.move, World.initial, surplus.sent]
    · rw [World.move_self, surplus.announced]
  obtain ⟨answering, serves, conns', progress, stored', logged', link'⟩ :=
    run_serves server query (congrArg Link.inbound link)
  rw [stored, link] at stored' logged' link'
  have saves : held.step (.free 0 { keepalive := true, requestBodySent := true } none) =
      some { held with conf := ⟨[⟨0, sockaddr⟩], maxCached - 1⟩, held := [] } := by
    have room : maxCached ≠ 0 := Nat.pos_iff_ne_zero.mp positive
    simp [held, Connections.step, Connections.free, Freed.valid, KeepaliveConf.freeKeepalivePeer,
      KeepaliveConf.init, room]
  have reads : (pool server query).step answering
      (.recv liar (replyStream (repliesTo done.1)).length { keepalive := true } none) = _ :=
    recv_replies (by rw [progress, active]) rfl rfl surplus.first (by rw [link']; rfl)
      (by rw [conns', conns]; exact saves)
  refine ⟨_, _, (Transition.System.run_append_eq_some _).mpr ⟨sending, ran,
      (Transition.System.run_append_eq_some _).mpr ⟨answering, serves,
        (Transition.System.run_cons_eq_some _).mpr ⟨_, reads, Transition.System.run_nil _ _⟩⟩⟩,
    ⟨?_, ?_⟩, ?_, ?_, ?_, fun other apart => ?_⟩
  · rfl
  · change Function.update answering.links 0 _ 0 = _
    rw [Function.update_self]
    simp only [link']
    rfl
  · exact stored'
  · exact logged'.trans (by rw [logged, List.nil_append])
  · exact World.move_self _ _ _
  · rw [World.move_of_ne _ apart, progress]
    exact waits other apart

/-- The next request to take the connection is given the replies to what was left. -/
theorem run_takes {liar victim : ι} {others : List (List Bytes)} {sockaddr : Addr} {room : Nat}
    {session : Session} (left : LeftOver world sockaddr liar others room session)
    (ready : world.progress victim = .ready)
    (awaits : (query victim).queryCount =
      (repliesTo (server.executes liar world.store session others).1).length)
    (response : Response (repliesTo (server.executes liar world.store session others).1)) :
    let leaked := server.executes liar world.store session others
    ∃ (events : List (PoolEvent ι Addr)) (final : World ι Addr Store Session),
      (pool server query).run world events = some final ∧ final.log = world.log ++ leaked.1 ∧
      final.progress victim = .complete (replyStream (repliesTo leaked.1)) := by
  intro leaked
  have arrived : (world.links 0).inbound = (encode (others ++ [])).map (liar, ·) := by
    rw [left.link, List.append_nil]
  obtain ⟨answering, serves, conns, progress, stored, logged, link⟩ :=
    run_serves server query arrived
  rw [left.link] at stored logged link
  let taken : Connections Addr :=
    { conf := ⟨[], room + 1⟩, held := [⟨0, sockaddr⟩], ledger := ⟨1, []⟩, opened := [sockaddr] }
  have takes : answering.connections.get sockaddr true = (some 0, taken) := by
    rw [conns, left.connections]
    simp [taken, Connections.get, KeepaliveConf.getKeepalivePeer]
  let again := { answering with connections := taken }.move victim
    (.active ⟨0, (query victim).bytes, freshCtx (query victim).queryCount, []⟩)
  have connects : (pool server query).step answering (.connect victim sockaddr true) =
      some again := by
    simp only [pool, World.step, World.connect, progress, ready, takes, again]
  obtain ⟨connections, closes⟩ : ∃ connections, taken.step (.free 0
      { keepalive := true, requestBodySent := (query victim).bytes.isEmpty } none) =
        some connections := ⟨_, rfl⟩
  have reads : (pool server query).step again
      (.recv victim (replyStream (repliesTo leaked.1)).length { keepalive := true } none) = _ :=
    recv_replies (World.move_self _ _ _) rfl (by rw [awaits]) response
      (congrArg Link.outbound link) closes
  refine ⟨_, _, (Transition.System.run_append_eq_some _).mpr ⟨answering, serves,
    (Transition.System.run_cons_eq_some _).mpr ⟨again, connects,
      (Transition.System.run_cons_eq_some _).mpr ⟨_, reads, Transition.System.run_nil _ _⟩⟩⟩,
    ?_, ?_⟩
  · exact logged
  · exact World.move_self _ _ _

/-- **Cross-talk.** A request that announces fewer queries than it gets replies is completed,
and its connection goes into the cache with the other commands on the way; the next request
that takes it, and awaits as many replies as there are to these, is given these replies,
before the server has seen any command of its own. -/
theorem raw_queries_cross_talk {server : Server Store Session} {query : ι → Query}
    {liar victim : ι} {own others : List (List Bytes)} {store : Store}
    (surplus : Surplus server query liar victim own others store) {maxCached : Nat}
    (positive : 0 < maxCached) (sockaddr : Addr) :
    ∃ (before after : List (PoolEvent ι Addr)) (middle final : World ι Addr Store Session),
      (pool server query).run (World.initial server maxCached store) before = some middle ∧
      (pool server query).run middle after = some final ∧
      (∃ output, middle.progress liar = .complete output) ∧
      (∃ session, LeftOver middle sockaddr liar others (maxCached - 1) session) ∧
      (final.executedOf liar).map (·.command) = own ++ others ∧ final.executedOf victim = [] ∧
      final.progress victim =
        .complete (replyStream (repliesTo ((final.executedOf liar).drop own.length))) := by
  obtain ⟨before, middle, ran, left, stored, logged, complete, ready⟩ :=
    run_leaves surplus positive sockaddr
  obtain ⟨after, final, ran', logged', done⟩ :=
    run_takes left (ready victim surplus.apart) (by rw [stored]; exact surplus.awaits)
      (by rw [stored]; exact surplus.second)
  rw [stored] at logged' done
  rw [logged] at logged'
  have owner : ∀ executed ∈ final.log, executed.attempt = liar := by
    intro executed member
    rw [logged'] at member
    rcases List.mem_append.mp member with first | second
    · exact server.executes_attempt _ _ _ _ executed first
    · exact server.executes_attempt _ _ _ _ executed second
  obtain ⟨all, nothing⟩ := executedOf_logged owner
  have long := congrArg List.length
    (server.executes_commands liar store server.session own)
  rw [List.length_map] at long
  refine ⟨before, after, middle, final, ran, ran', ⟨_, complete⟩, ⟨_, left⟩, ?_,
    nothing victim surplus.apart, ?_⟩
  · rw [all, logged', List.map_append, Server.executes_commands, Server.executes_commands]
  · rw [done, all, logged', ← long, List.drop_left]

/-- The client of `/redis_cmds` announces one query and sends three commands; whoever asks
`/redis_get` next is told `OK` twice. -/
theorem raw_queries_cross_talk_sample :
    let query : Bool → Query
      | true => ⟨encode [[ascii "get", ascii "a"], [ascii "get", ascii "b"],
          [ascii "get", ascii "c"]], 1⟩
      | false => ⟨encode [[ascii "auth", ascii "p"], [ascii "get", ascii "k"]], 2⟩
    ∃ (before after : List (PoolEvent Bool Unit)) (middle final : World Bool Unit Unit Unit),
      (pool okServer query).run (World.initial okServer 1024 ()) before = some middle ∧
      (pool okServer query).run middle after = some final ∧
      (∃ output, middle.progress true = .complete output) ∧
      (∃ session, LeftOver middle () true [[ascii "get", ascii "b"], [ascii "get", ascii "c"]]
        1023 session) ∧
      (final.executedOf true).map (·.command) =
        [[ascii "get", ascii "a"], [ascii "get", ascii "b"], [ascii "get", ascii "c"]] ∧
      final.executedOf false = [] ∧
      final.progress false =
        .complete (replyStream (repliesTo ((final.executedOf true).drop 1))) := by
  intro query
  have yes : ∀ count, count ≠ 0 → count < 2 ^ 64 →
      clear 0 (List.replicate count (.item (.line .status okText))) = true →
      Response (List.replicate count (.item (.line .status okText))) := by
    intro count some' small inOrder
    refine ⟨by simpa using some', by simpa using small, ?_, inOrder⟩
    intro reply member
    rw [List.eq_of_mem_replicate member]
    trivial
  have surplus : Surplus okServer query true false [[ascii "get", ascii "a"]]
      [[ascii "get", ascii "b"], [ascii "get", ascii "c"]] () :=
    ⟨Bool.false_ne_true, rfl, rfl, rfl, yes 1 (by decide) (by decide) rfl,
      yes 2 (by decide) (by decide) rfl⟩
  exact raw_queries_cross_talk surplus (by decide) ()

end HttpBackEnd.Redis
