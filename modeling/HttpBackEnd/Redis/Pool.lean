import HttpBackEnd.Nginx.Keepalive
import HttpBackEnd.Redis.Exchange
import HttpBackEnd.Redis.Framing

/-! # Requests that share the connections to Redis

All requests to Redis take their connections from one cache and put them back, and a
connection is put back when the reply parser has counted as many replies as the request
has announced queries. The protocol has no request numbers: the only tie between a command
and its reply is their order on the connection.

The system below has any number of attempts to pass a request to Redis, the connections
and the server, with every step in any order. A request that is passed to the next server
before its first read is one more attempt; the context is still a fresh one then. Bytes on
the way to the server carry the attempt that sent them, which nobody reads, so that the
log says on whose behalf a command was executed.

The server speaks when it is spoken to, and answers a command with any number of replies:
most commands of Redis have one, those that subscribe several, and those that switch the
replies off none.

`own_replies`: when every request announces as many queries as it sends commands, and each
of these is answered with one reply, each attempt is given the replies to its own commands,
in order, and nothing else.
-/

namespace HttpBackEnd.Redis

open Resp Nginx

/-- What a request passes to Redis: the bytes of `u->request_bufs` and
`ctx->query_count`. -/
structure Query where
  bytes : Bytes
  queryCount : Nat
deriving DecidableEq, Repr

/-- The commands are encoded one after the other, and as many replies are awaited. -/
structure Query.Synchronous (query : Query) (commands : List (List Bytes)) : Prop where
  bytes : query.bytes = encode commands
  count : query.queryCount = commands.length
  some' : commands ≠ []
  small : commands.length < 2 ^ 64

/-- A server: what it keeps for a new connection, and what it does with a command. -/
structure Server (Store Session : Type) where
  session : Session
  exec : Store → Session → List Bytes → List Reply × Store × Session

/-- The commands that are asked are answered with one reply each, in every session that
comes of such commands. -/
structure Server.AnswersEach {Store Session : Type} (server : Server Store Session)
    (asked : List Bytes → Prop) (regular : Session → Prop) : Prop where
  start : regular server.session
  one : ∀ store {session command}, regular session → asked command →
    ∃ reply, ReplyFits reply ∧ (server.exec store session command).1 = [reply]
  stays : ∀ store {session command}, regular session → asked command →
    regular (server.exec store session command).2.2

/-- The bytes on their way over a connection in both directions. -/
structure Link (ι Session : Type) where
  inbound : List (ι × UInt8) := []
  outbound : Bytes := []
  session : Session

/-- An attempt that has a connection: what of the request is not sent yet, the context of
the parser, and what was passed on of the response. -/
structure Passing where
  connection : Nat
  unsent : Bytes
  ctx : Ctx
  output : Bytes := []

/-- How far an attempt is: `stopped` is a failure, the end of the stream or an invalid
response, and `complete` is the end of the last reply. -/
inductive Progress where
  | ready
  | active (passing : Passing)
  | stopped (passing : Passing)
  | refused
  | complete (output : Bytes)

/-- The connection of an attempt that has or had one to itself. -/
def Progress.connection? : Progress → Option Nat
  | .active passing | .stopped passing => some passing.connection
  | _ => none

/-- A command that was executed, for whom, and the replies. -/
structure Executed (ι : Type) where
  attempt : ι
  command : List Bytes
  replies : List Reply

/-- The replies to commands that were executed one after the other. -/
def repliesTo {ι : Type} (executed : List (Executed ι)) : List Reply :=
  executed.flatMap Executed.replies

/-- The cache, the connections, the attempts and the server. -/
structure World (ι Addr Store Session : Type) where
  connections : Connections Addr
  links : Nat → Link ι Session
  progress : ι → Progress
  store : Store
  log : List (Executed ι) := []

/-- What happens. The sizes say how much the socket takes or brings. -/
inductive PoolEvent (ι Addr : Type) where
  | connect (attempt : ι) (sockaddr : Addr) (connects : Bool)
  | send (attempt : ι) (size : Nat)
  | serve (connection : Nat)
  | recv (attempt : ι) (size : Nat) (freed : Freed) (ready : Option Peeked)
  | stop (attempt : ι) (freed : Freed) (ready : Option Peeked)
  | idle (connection : Nat) (peeked : Peeked)

variable {ι Addr Store Session : Type} [DecidableEq ι]

namespace World

variable (world : World ι Addr Store Session)

/-- The attempt is somewhere else. -/
def move (attempt : ι) (progress : Progress) : World ι Addr Store Session :=
  { world with progress := Function.update world.progress attempt progress }

@[simp] theorem move_self (attempt : ι) (progress : Progress) :
    (world.move attempt progress).progress attempt = progress := by
  simp only [move, Function.update_self]

theorem move_of_ne {attempt other : ι} (apart : other ≠ attempt) (progress : Progress) :
    (world.move attempt progress).progress other = world.progress other := by
  simp only [move, Function.update_of_ne apart]

/-- A connection on which no attempt is after the move. -/
theorem unused_of_move {attempt : ι} {progress : Progress} {connection : Nat}
    (before : (world.progress attempt).connection? ≠ some connection)
    (unused : ∀ other,
      ((world.move attempt progress).progress other).connection? ≠ some connection) (other : ι) :
    (world.progress other).connection? ≠ some connection := by
  by_cases mine : other = attempt
  · rw [mine]
    exact before
  · rw [← world.move_of_ne mine progress]
    exact unused other

variable [DecidableEq Addr]

/-- `ngx_http_upstream_connect`. -/
def connect (query : Query) (attempt : ι) (sockaddr : Addr) (connects : Bool) :
    Option (World ι Addr Store Session) :=
  match world.progress attempt with
  | .ready =>
      match world.connections.get sockaddr connects with
      | (some connection, connections) =>
          some ({ world with connections }.move attempt
            (.active ⟨connection, query.bytes, freshCtx query.queryCount, []⟩))
      | (none, connections) => some ({ world with connections }.move attempt .refused)
  | _ => none

/-- `ngx_http_upstream_send_request`. -/
def send (attempt : ι) (size : Nat) : Option (World ι Addr Store Session) :=
  match world.progress attempt with
  | .active passing =>
      let link := world.links passing.connection
      let sent := (passing.unsent.take size).map (attempt, ·)
      some ({ world with
        links := Function.update world.links passing.connection
          { link with inbound := link.inbound ++ sent } }.move attempt
        (.active { passing with unsent := passing.unsent.drop size }))
  | _ => none

/-- The server reads a command, executes it and answers. -/
def serve (server : Server Store Session) (connection : Nat) :
    Option (World ι Addr Store Session) :=
  let link := world.links connection
  match link.inbound, readCommand (link.inbound.map Prod.snd) with
  | (attempt, _) :: _, some (command, rest) =>
      let answer := server.exec world.store link.session command
      some { world with
        store := answer.2.1
        links := Function.update world.links connection
          { inbound := link.inbound.drop (link.inbound.length - rest.length)
            outbound := link.outbound ++ replyStream answer.1
            session := answer.2.2 }
        log := world.log ++ [⟨attempt, command, answer.1⟩] }
  | _, _ => none

/-- `ngx_http_upstream_finalize_request`: the connection is given back. -/
def finalize (attempt : ι) (connection : Nat) (progress : Progress) (freed : Freed)
    (ready : Option Peeked) : Option (World ι Addr Store Session) :=
  (world.connections.step (.free connection freed ready)).map fun connections =>
    { world with connections }.move attempt progress

/-- `ngx_http_upstream_process_header` before the first byte was passed on, and
`ngx_http_upstream_process_non_buffered_request` with the filter. The connection may only
be kept when the replies end with the read. -/
def recv (attempt : ι) (size : Nat) (freed : Freed) (ready : Option Peeked) :
    Option (World ι Addr Store Session) :=
  match world.progress attempt with
  | .active passing =>
      let link := world.links passing.connection
      let bytes := link.outbound.take size
      let world := { world with
        links := Function.update world.links passing.connection
          { link with outbound := link.outbound.drop size } }
      let freed := { freed with requestBodySent := passing.unsent.isEmpty }
      if bytes = [] then none
      else if passing.output = [] ∧ processHeader bytes = false then
        world.finalize attempt passing.connection (.stopped passing)
          { freed with keepalive := false } ready
      else
        let filtered := processReply passing.ctx.queryCount passing.ctx.machine bytes
        let output := passing.output ++ filtered.output
        match filtered.waiting with
        | some ctx => some (world.move attempt (.active { passing with ctx, output }))
        | none =>
            if filtered.invalid then
              world.finalize attempt passing.connection (.stopped { passing with output })
                { freed with keepalive := false } ready
            else
              world.finalize attempt passing.connection (.complete output)
                { freed with keepalive := filtered.accepted = bytes } ready
  | _ => none

/-- The upstream request ends before the replies do. -/
def stop (attempt : ι) (freed : Freed) (ready : Option Peeked) :
    Option (World ι Addr Store Session) :=
  match world.progress attempt with
  | .active passing =>
      world.finalize attempt passing.connection (.stopped passing)
        { freed with keepalive := false, requestBodySent := passing.unsent.isEmpty } ready
  | _ => none

/-- One event. -/
def step (server : Server Store Session) (query : ι → Query) :
    PoolEvent ι Addr → Option (World ι Addr Store Session)
  | .connect attempt sockaddr connects => world.connect (query attempt) attempt sockaddr connects
  | .send attempt size => world.send attempt size
  | .serve connection => world.serve server connection
  | .recv attempt size freed ready => world.recv attempt size freed ready
  | .stop attempt freed ready => world.stop attempt freed ready
  | .idle connection peeked =>
      (world.connections.step (.idle connection peeked)).map fun connections =>
        { world with connections }

/-- Before the first request. -/
def initial (server : Server Store Session) (maxCached : Nat) (store : Store) :
    World ι Addr Store Session where
  connections := Connections.initial maxCached
  links _ := { session := server.session }
  progress _ := .ready
  store := store

/-- The commands of an attempt that were executed, with their replies. -/
def executedOf (attempt : ι) : List (Executed ι) :=
  world.log.filter (·.attempt = attempt)

end World

/-- The attempts, the cache and the server as a system. -/
def pool [DecidableEq Addr] (server : Server Store Session) (query : ι → Query) :
    Transition.System (World ι Addr Store Session) (PoolEvent ι Addr) where
  step world event := world.step server query event

/-! ## What is on the connections -/

/-- The bytes on the way to the server are the attempt's own, and with what is not sent yet
they are the commands that were not executed. -/
def Sending (commands : List (List Bytes)) (attempt : ι) (passing : Passing)
    (link : Link ι Session) (executed : List (Executed ι)) : Prop :=
  ∃ pending arrived, executed.map (·.command) ++ pending = commands ∧
    link.inbound = arrived.map (attempt, ·) ∧ arrived ++ passing.unsent = encode pending

/-- What was passed on and what is on the way back are the replies so far. -/
structure Reading (commands : List (List Bytes)) (passing : Passing) (link : Link ι Session)
    (executed : List (Executed ι)) : Prop where
  resumed : (freshCtx commands.length).resume passing.output = some passing.ctx
  stream : passing.output ++ link.outbound = replyStream (repliesTo executed)

/-- Nothing is on the way. -/
def Quiet (link : Link ι Session) : Prop := link.inbound = [] ∧ link.outbound = []

/-- How an attempt stands with the connections, with its connection and with the commands
that were executed for it. -/
def Standing (commands : List (List Bytes)) (attempt : ι) (connections : Connections Addr)
    (links : Nat → Link ι Session) (executed : List (Executed ι)) : Progress → Prop
  | .ready | .refused => executed = []
  | .active passing => passing.connection ∈ connections.inUse ∧
      Sending commands attempt passing (links passing.connection) executed ∧
      Reading commands passing (links passing.connection) executed
  | .stopped passing => passing.connection ∈ connections.ledger.released ∧
      Sending commands attempt passing (links passing.connection) executed ∧
      passing.output <+: replyStream (repliesTo executed)
  | .complete output => executed.map (·.command) = commands ∧
      output = replyStream (repliesTo executed)

/-- The command was answered with one reply. -/
def Executed.Single (executed : Executed ι) : Prop :=
  ∃ reply, ReplyFits reply ∧ executed.replies = [reply]

/-- The invariant: connections are accounted for, no two attempts are on one connection,
nothing is on the way where no attempt is, and commands have one reply each. -/
structure Sound (commands : ι → List (List Bytes)) (regular : Session → Prop) (maxCached : Nat)
    (world : World ι Addr Store Session) : Prop where
  accounted : Accounted maxCached world.connections
  single : ∀ executed ∈ world.log, executed.Single
  regular : ∀ connection, regular (world.links connection).session
  alone : ∀ {first second connection}, (world.progress first).connection? = some connection →
    (world.progress second).connection? = some connection → first = second
  quiet : ∀ connection, (∀ attempt, (world.progress attempt).connection? ≠ some connection) →
    Quiet (world.links connection)
  standing : ∀ attempt, Standing (commands attempt) attempt world.connections world.links
    (world.executedOf attempt) (world.progress attempt)

variable {commands : ι → List (List Bytes)} {regular : Session → Prop} {maxCached : Nat}
  {world next : World ι Addr Store Session} {attempt : ι}

theorem Sound.of_executed (sound : Sound commands regular maxCached world) {executed : Executed ι}
    (member : executed ∈ world.executedOf attempt) : executed.Single :=
  sound.single executed (List.mem_of_mem_filter member)

/-- There are as many replies as commands that were executed. -/
theorem Sound.length_repliesTo (sound : Sound commands regular maxCached world) :
    (repliesTo (world.executedOf attempt)).length = (world.executedOf attempt).length := by
  have each : ∀ executed ∈ world.executedOf attempt, executed.replies.length = 1 := by
    intro executed member
    obtain ⟨reply, _, one⟩ := sound.of_executed member
    rw [one]
    rfl
  rw [repliesTo, List.length_flatMap, List.map_congr_left each]
  simp

theorem Sound.repliesTo_fit (sound : Sound commands regular maxCached world) :
    ∀ reply ∈ repliesTo (world.executedOf attempt), ReplyFits reply := by
  intro reply member
  obtain ⟨executed, logged, among⟩ := List.mem_flatMap.mp member
  obtain ⟨single, fits, one⟩ := sound.of_executed logged
  rw [one, List.mem_singleton] at among
  exact among ▸ fits

omit [DecidableEq ι] in
/-- An attempt stands as before when its connection is as before. -/
theorem Standing.frame {commands : List (List Bytes)} {connections connections' : Connections Addr}
    {links links' : Nat → Link ι Session} {executed : List (Executed ι)} {progress : Progress}
    (standing : Standing commands attempt connections links executed progress)
    (used : ∀ connection, progress.connection? = some connection →
      connection ∈ connections.inUse → connection ∈ connections'.inUse)
    (closed : connections.ledger.released ⊆ connections'.ledger.released)
    (same : ∀ connection, progress.connection? = some connection →
      links' connection = links connection) :
    Standing commands attempt connections' links' executed progress := by
  cases progress with
  | ready => exact standing
  | refused => exact standing
  | complete output => exact standing
  | active passing =>
      obtain ⟨held, sending, reading⟩ := standing
      refine ⟨used _ rfl held, ?_, ?_⟩
      all_goals rw [same _ rfl]
      · exact sending
      · exact reading
  | stopped passing =>
      obtain ⟨released, sending, given⟩ := standing
      refine ⟨closed released, ?_, given⟩
      rw [same _ rfl]
      exact sending

/-- The connection of an attempt is in use or closed. -/
theorem Sound.has (sound : Sound commands regular maxCached world) {connection : Nat}
    (has : (world.progress attempt).connection? = some connection) :
    connection ∈ world.connections.inUse ∨ connection ∈ world.connections.ledger.released := by
  have standing := sound.standing attempt
  cases progress : world.progress attempt
  all_goals
    rw [progress] at has standing
    cases has
  · exact .inl standing.1
  · exact .inr standing.1

/-- A step of one attempt keeps the invariant when it leaves the connections of the others
alone and nothing is on the way where it has been. -/
theorem Sound.act (sound : Sound commands regular maxCached world) (attempt : ι)
    (accounted : Accounted maxCached next.connections)
    (single : ∀ executed ∈ next.log, executed.Single)
    (sessions : ∀ connection, regular (next.links connection).session)
    (closed : world.connections.ledger.released ⊆ next.connections.ledger.released)
    (others : ∀ other, other ≠ attempt → next.progress other = world.progress other ∧
      next.executedOf other = world.executedOf other)
    (elsewhere : ∀ other, other ≠ attempt → ∀ connection,
      (world.progress other).connection? = some connection →
        next.links connection = world.links connection ∧
        (connection ∈ world.connections.inUse → connection ∈ next.connections.inUse) ∧
        (next.progress attempt).connection? ≠ some connection)
    (quiet : ∀ connection, (∀ other, (next.progress other).connection? ≠ some connection) →
      Quiet (next.links connection))
    (standing : Standing (commands attempt) attempt next.connections next.links
      (next.executedOf attempt) (next.progress attempt)) :
    Sound commands regular maxCached next where
  accounted := accounted
  single := single
  regular := sessions
  quiet := quiet
  alone {first second connection} has has' := by
    by_cases mine : first = attempt
    · by_cases mine' : second = attempt
      · rw [mine, mine']
      · subst mine
        rw [(others second mine').1] at has'
        exact absurd has (elsewhere second mine' connection has').2.2
    · rw [(others first mine).1] at has
      by_cases mine' : second = attempt
      · subst mine'
        exact absurd has' (elsewhere first mine connection has).2.2
      · rw [(others second mine').1] at has'
        exact sound.alone has has'
  standing other := by
    by_cases mine : other = attempt
    · subst mine
      exact standing
    · rw [(others other mine).1, (others other mine).2]
      exact (sound.standing other).frame
        (fun connection has => (elsewhere other mine connection has).2.1) closed
        (fun connection has => (elsewhere other mine connection has).1)

/-- A connection that is neither in use nor closed is quiet. -/
theorem Sound.quiet_of_free (sound : Sound commands regular maxCached world) {connection : Nat}
    (unused : connection ∉ world.connections.inUse)
    (kept : connection ∉ world.connections.ledger.released) : Quiet (world.links connection) :=
  sound.quiet connection fun _ has => (sound.has has).elim unused kept

variable [DecidableEq Addr]

/-- **Connecting**: the connection is one that no attempt is on, so nothing is on the way. -/
theorem Sound.connect (sound : Sound commands regular maxCached world) {query : Query}
    (synchronous : query.Synchronous (commands attempt)) {sockaddr : Addr} {connects : Bool}
    (stepped : world.connect query attempt sockaddr connects = some next) :
    Sound commands regular maxCached next := by
  unfold World.connect at stepped
  cases ready : world.progress attempt
  all_goals simp only [ready, reduceCtorEq] at stepped
  have fresh := sound.standing attempt
  rw [ready] at fresh
  have accounted := sound.accounted.get sockaddr connects
  cases got : world.connections.get sockaddr connects with
  | mk connection connections =>
      rw [got] at stepped accounted
      have free : ∀ connection, (world.progress attempt).connection? ≠ some connection := by
        rw [ready]
        exact fun _ => nofun
      cases connection with
      | none =>
          obtain rfl := get_none got
          cases stepped
          refine sound.act attempt accounted sound.single sound.regular (List.Subset.refl _)
            (fun other apart => ⟨World.move_of_ne _ apart _, rfl⟩) ?_ ?_ ?_
          · intro other apart used has
            rw [World.move_self]
            exact ⟨rfl, id, nofun⟩
          · intro connection unused
            exact sound.quiet connection (World.unused_of_move _ (free connection) unused)
          · rw [World.move_self]
            exact fresh
      | some connection =>
          obtain ⟨more, released, unused, kept⟩ := sound.accounted.get_some got
          obtain ⟨noneIn, noneOut⟩ := sound.quiet_of_free unused kept
          cases stepped
          refine sound.act attempt accounted sound.single sound.regular
            (released ▸ List.Subset.refl _)
            (fun other apart => ⟨World.move_of_ne _ apart _, rfl⟩) ?_ ?_ ?_
          · intro other apart used has
            rw [World.move_self]
            refine ⟨rfl, fun held => more ▸ List.mem_cons_of_mem _ held, ?_⟩
            rintro ⟨⟩
            exact (sound.has has).elim unused kept
          · intro connection unused
            exact sound.quiet connection (World.unused_of_move _ (free connection) unused)
          · have none : World.executedOf _ attempt = [] := fresh
            rw [World.move_self]
            refine ⟨more ▸ List.mem_cons_self, ⟨commands attempt, [], ?_, noneIn, ?_⟩, ?_, ?_⟩
            · exact congrArg (fun executed => List.map _ executed ++ commands attempt) fresh
            · exact synchronous.bytes
            · rw [synchronous.count]
              exact Ctx.resume_nil rfl
            · exact noneOut.trans
                (congrArg (fun executed => replyStream (repliesTo executed)) none.symm)

omit [DecidableEq Addr] in
/-- A step of an attempt that stays on its connection, or leaves it with nothing on the
way, and changes nothing but the connection's link. -/
theorem Sound.act_on (sound : Sound commands regular maxCached world) {connection : Nat}
    (mine : (world.progress attempt).connection? = some connection)
    {connections : Connections Addr} (accounted : Accounted maxCached connections)
    (closed : world.connections.ledger.released ⊆ connections.ledger.released)
    (used : ∀ other ∈ world.connections.inUse, other ≠ connection → other ∈ connections.inUse)
    {link : Link ι Session} (session : link.session = (world.links connection).session)
    {progress : Progress}
    (leaves : progress.connection? = some connection ∨ progress.connection? = none ∧ Quiet link)
    (standing : Standing (commands attempt) attempt connections
      (Function.update world.links connection link) (world.executedOf attempt) progress) :
    Sound commands regular maxCached ({ world with
      connections
      links := Function.update world.links connection link }.move attempt progress) := by
  have elsewhere : ∀ other, other ≠ attempt → ∀ there,
      (world.progress other).connection? = some there → there ≠ connection := by
    rintro other apart there has rfl
    exact apart (sound.alone has mine)
  refine sound.act attempt accounted sound.single ?_ closed
    (fun other apart => ⟨World.move_of_ne _ apart _, rfl⟩) ?_ ?_ ?_
  · intro there
    change regular (Function.update world.links connection link there).session
    by_cases here : there = connection
    · subst here
      rw [Function.update_self, session]
      exact sound.regular there
    · rw [Function.update_of_ne here]
      exact sound.regular there
  · intro other apart there has
    have away := elsewhere other apart there has
    refine ⟨Function.update_of_ne away _ _, fun held => used there held away, ?_⟩
    rw [World.move_self]
    rcases leaves with stays | ⟨left, -⟩
    · rw [stays]
      exact fun same => away (Option.some.inj same).symm
    · rw [left]
      exact nofun
  · intro there unused
    change Quiet (Function.update world.links connection link there)
    by_cases here : there = connection
    · subst here
      rw [Function.update_self]
      rcases leaves with stays | ⟨-, quiet⟩
      · have own := unused attempt
        rw [World.move_self] at own
        exact absurd stays own
      · exact quiet
    · rw [Function.update_of_ne here]
      refine sound.quiet there (World.unused_of_move _ ?_ unused)
      rw [mine]
      exact fun same => here (Option.some.inj same).symm
  · rw [World.move_self]
    exact standing

omit [DecidableEq Addr] in
/-- **Sending**: the bytes come behind the attempt's own. -/
theorem Sound.send (sound : Sound commands regular maxCached world) {size : Nat}
    (stepped : world.send attempt size = some next) : Sound commands regular maxCached next := by
  unfold World.send at stepped
  cases progress : world.progress attempt
  all_goals simp only [progress, reduceCtorEq] at stepped
  rename_i passing
  obtain ⟨held, ⟨pending, arrived, done, inbound, unsent⟩, resumed, stream⟩ :=
    progress ▸ sound.standing attempt
  cases stepped
  refine sound.act_on (by rw [progress]; rfl) sound.accounted (List.Subset.refl _)
    (fun _ there _ => there) (by rfl) (.inl rfl) ?_
  refine ⟨held, ?_, ?_⟩
  all_goals rw [Function.update_self]
  · refine ⟨pending, arrived ++ passing.unsent.take size, done, ?_, ?_⟩
    · rw [inbound, List.map_append]
    · rw [List.append_assoc, List.take_append_drop, unsent]
  · exact ⟨resumed, stream⟩

omit [DecidableEq ι] in
/-- A command that can be read is the attempt's own, and the next one. -/
theorem Sending.serve {commands : List (List Bytes)} {passing : Passing} {link : Link ι Session}
    {executed : List (Executed ι)} (sending : Sending commands attempt passing link executed)
    {sender : ι} {char : UInt8} {others : List (ι × UInt8)} {command : List Bytes} {rest : Bytes}
    (some' : link.inbound = (sender, char) :: others)
    (read : readCommand (link.inbound.map Prod.snd) = some (command, rest)) (replies : List Reply)
    (outbound : Bytes) (session : Session) :
    sender = attempt ∧
      Sending commands attempt passing
        { inbound := link.inbound.drop (link.inbound.length - rest.length), outbound, session }
        (executed ++ [⟨attempt, command, replies⟩]) := by
  obtain ⟨pending, arrived, done, inbound, unsent⟩ := sending
  have bytes : link.inbound.map Prod.snd = arrived := by
    rw [inbound, List.map_map]
    exact List.map_id arrived
  rw [bytes] at read
  obtain ⟨later, rfl, left⟩ := readCommand_encode unsent read
  have front : arrived = Resp.command command ++ rest := by
    rw [show encode (command :: later) = Resp.command command ++ encode later from
      List.flatMap_cons, ← left, ← List.append_assoc] at unsent
    exact List.append_cancel_right unsent
  constructor
  · rw [inbound] at some'
    cases arrived with
    | nil => cases some'
    | cons first arrived => exact congrArg Prod.fst (List.cons.inj some').1.symm
  · refine ⟨later, rest, ?_, ?_, left⟩
    · rw [List.map_append, List.append_assoc]
      exact done
    · rw [inbound, List.length_map, front, List.length_append, Nat.add_sub_cancel, List.map_append,
        List.drop_left' (by rw [List.length_map])]

omit [DecidableEq ι] in
theorem Sending.mem_commands {commands : List (List Bytes)} {passing : Passing}
    {link : Link ι Session} {executed : List (Executed ι)} {last : Executed ι}
    (sending : Sending commands attempt passing link (executed ++ [last])) :
    last.command ∈ commands := by
  obtain ⟨pending, _, done, _⟩ := sending
  rw [← done, List.map_append]
  simp

omit [DecidableEq ι] [DecidableEq Addr] in
/-- The attempt on a connection sent the command that is read there, and goes on with it
executed, whatever is sent back. -/
theorem Standing.serve {commands : List (List Bytes)} {connections : Connections Addr}
    {links : Nat → Link ι Session} {executed : List (Executed ι)} {progress : Progress}
    {connection : Nat} (standing : Standing commands attempt connections links executed progress)
    (mine : progress.connection? = some connection) {sender : ι} {char : UInt8}
    {others : List (ι × UInt8)} {command : List Bytes} {rest : Bytes}
    (some' : (links connection).inbound = (sender, char) :: others)
    (read : readCommand ((links connection).inbound.map Prod.snd) = some (command, rest))
    (replies : List Reply) (session : Session) :
    sender = attempt ∧ command ∈ commands ∧
      Standing commands attempt connections
        (Function.update links connection
          { inbound := (links connection).inbound.drop
              ((links connection).inbound.length - rest.length)
            outbound := (links connection).outbound ++ replyStream replies
            session })
        (executed ++ [⟨attempt, command, replies⟩]) progress := by
  have answered : replyStream (repliesTo (executed ++ [⟨attempt, command, replies⟩])) =
      replyStream (repliesTo executed) ++ replyStream replies := by
    rw [repliesTo, List.flatMap_append, replyStream_append]
    exact congrArg (fun later => _ ++ replyStream later) (List.flatMap_singleton _ _)
  cases progress
  all_goals cases mine
  · obtain ⟨held, sending, resumed, stream⟩ := standing
    obtain ⟨same, sends⟩ := sending.serve some' read replies
      ((links _).outbound ++ replyStream replies) session
    refine ⟨same, sends.mem_commands, held, ?_, ?_⟩
    all_goals rw [Function.update_self]
    · exact sends
    · refine ⟨resumed, ?_⟩
      rw [answered, ← stream, List.append_assoc]
  · obtain ⟨released, sending, given⟩ := standing
    obtain ⟨same, sends⟩ := sending.serve some' read replies
      ((links _).outbound ++ replyStream replies) session
    refine ⟨same, sends.mem_commands, released, ?_, ?_⟩
    · rw [Function.update_self]
      exact sends
    · rw [answered]
      exact given.trans (List.prefix_append _ _)

omit [DecidableEq Addr] in
/-- **Serving**: the command is the first one that was not executed of the attempt the
connection belongs to, whether it still waits or not. -/
theorem Sound.serve (sound : Sound commands regular maxCached world)
    {server : Server Store Session}
    (answers : server.AnswersEach (fun command => ∃ attempt, command ∈ commands attempt) regular)
    {connection : Nat} (stepped : world.serve server connection = some next) :
    Sound commands regular maxCached next := by
  simp only [World.serve] at stepped
  split at stepped
  case h_2 => cases stepped
  case h_1 sender char others command rest some' read =>
  -- somebody is on the connection, and it is whoever sent the first byte
  obtain ⟨attempt, mine⟩ :
      ∃ attempt, (world.progress attempt).connection? = some connection := by
    by_contra nobody
    have quiet := (sound.quiet connection fun attempt has => nobody ⟨attempt, has⟩).1
    rw [quiet] at some'
    cases some'
  -- whatever is sent back and stored, the attempt goes on with the command executed
  have own := (sound.standing attempt).serve mine some' read
  obtain ⟨rfl, asked, -⟩ := own [] (world.links connection).session
  have usual := sound.regular connection
  obtain ⟨reply, fits, one⟩ := answers.one world.store usual ⟨_, asked⟩
  have stays := answers.stays world.store usual ⟨_, asked⟩
  generalize server.exec world.store (world.links connection).session command = answer
    at stepped one stays
  obtain ⟨replies, store, session⟩ := answer
  obtain ⟨-, -, stands⟩ := own replies session
  cases stepped
  refine sound.act sender sound.accounted ?_ ?_ (List.Subset.refl _) ?_ ?_ ?_ ?_
  · intro executed member
    rcases List.mem_append.mp member with before | new
    · exact sound.single executed before
    · rw [List.mem_singleton] at new
      rw [new]
      exact ⟨reply, fits, one⟩
  · intro there
    change regular (Function.update world.links connection _ there).session
    by_cases here : there = connection
    · subst here
      rw [Function.update_self]
      exact stays
    · rw [Function.update_of_ne here]
      exact sound.regular there
  · intro other apart
    refine ⟨rfl, ?_⟩
    unfold World.executedOf
    rw [List.filter_append, List.filter_cons_of_neg (by simpa using Ne.symm apart)]
    exact List.append_nil _
  · intro other apart there has
    refine ⟨Function.update_of_ne ?_ _ _, id, ?_⟩
    · rintro rfl
      exact apart (sound.alone has mine)
    · intro here
      exact apart (sound.alone has here)
  · intro there unused
    have away : there ≠ connection := by
      rintro rfl
      exact unused sender mine
    change Quiet (Function.update world.links connection _ there)
    rw [Function.update_of_ne away]
    exact sound.quiet there unused
  · have grown : (World.executedOf { world with
        log := world.log ++ [⟨sender, command, replies⟩] } sender) =
          world.executedOf sender ++ [⟨sender, command, replies⟩] := by
      unfold World.executedOf
      rw [List.filter_append, List.filter_cons_of_pos (by simp)]
      rfl
    exact grown ▸ stands

/-- **Giving the connection back**: either it is not worth saving, or the attempt leaves it
with nothing on the way. -/
theorem Sound.finalize (sound : Sound commands regular maxCached world) (positive : 0 < maxCached)
    {passing : Passing} (active : world.progress attempt = .active passing)
    {link : Link ι Session}
    (session : link.session = (world.links passing.connection).session)
    {progress : Progress} {freed : Freed} {ready : Option Peeked}
    (stepped : { world with
      links := Function.update world.links passing.connection link }.finalize attempt
        passing.connection progress freed ready = some next)
    (outcome :
      (∃ last, progress = .stopped last ∧ last.connection = passing.connection ∧
        freed.keepalive = false ∧
        Sending (commands attempt) attempt last link (world.executedOf attempt) ∧
        last.output <+: replyStream (repliesTo (world.executedOf attempt))) ∨
      ∃ output, progress = .complete output ∧ Quiet link ∧
        (world.executedOf attempt).map (·.command) = commands attempt ∧
        output = replyStream (repliesTo (world.executedOf attempt))) :
    Sound commands regular maxCached next := by
  obtain ⟨connections, gave, rfl⟩ := Option.map_eq_some_iff.mp stepped
  have accounted := sound.accounted.step positive gave
  obtain ⟨item, found, rfl⟩ := Option.map_eq_some_iff.mp gave
  have named : item.connection = passing.connection := by simpa using List.find?_some found
  obtain ⟨used, closed, dropped⟩ := free_keeps world.connections item freed ready
  rw [named] at used dropped
  refine sound.act_on (by rw [active]; rfl) accounted closed used session ?_ ?_
  · rcases outcome with ⟨last, rfl, same, -⟩ | ⟨output, rfl, quiet, -⟩
    · exact .inl (congrArg some same)
    · exact .inr ⟨rfl, quiet⟩
  · rcases outcome with ⟨last, rfl, same, invalid, sending, given⟩ | ⟨output, rfl, -, done⟩
    · refine ⟨?_, ?_, given⟩
      · rw [same]
        exact dropped (by simp [Freed.valid, invalid])
      · rw [same, Function.update_self]
        exact sending
    · exact done

/-- **Receiving**: what the filter lets through are the attempt's own replies, and when it
finds their end nothing is left on the way. -/
theorem Sound.recv (sound : Sound commands regular maxCached world) (positive : 0 < maxCached)
    {query : Query} (synchronous : query.Synchronous (commands attempt)) {size : Nat}
    {freed : Freed} {ready : Option Peeked}
    (stepped : world.recv attempt size freed ready = some next) :
    Sound commands regular maxCached next := by
  unfold World.recv at stepped
  cases progress : world.progress attempt
  all_goals simp only [progress, reduceCtorEq] at stepped
  rename_i passing
  obtain ⟨held, sending, resumed, stream⟩ := progress ▸ sound.standing attempt
  generalize split : (world.links passing.connection).outbound.take size = bytes at stepped
  have whole : passing.output ++ bytes ++ (world.links passing.connection).outbound.drop size =
      replyStream (repliesTo (world.executedOf attempt)) := by
    rw [← split, List.append_assoc, List.take_append_drop, stream]
  have front : passing.output ++ bytes <+:
      replyStream (repliesTo (world.executedOf attempt)) := ⟨_, whole⟩
  have given : passing.output <+: replyStream (repliesTo (world.executedOf attempt)) :=
    (List.prefix_append _ _).trans front
  have pending : (commands attempt).length ≠ 0 := fun none =>
    synchronous.some' (List.length_eq_zero_iff.mp none)
  have opened : passing.ctx.Open := (processReply_waiting pending resumed).2.2
  split at stepped
  · cases stepped
  split at stepped
  · exact sound.finalize positive progress (by rfl) stepped
      (.inl ⟨passing, rfl, rfl, rfl, sending, given⟩)
  cases waiting : (processReply passing.ctx.queryCount passing.ctx.machine bytes).waiting with
  | some ctx =>
      simp only [waiting] at stepped
      cases stepped
      rw [Ctx.resume_output opened waiting]
      refine sound.act_on (by rw [progress]; rfl) sound.accounted (List.Subset.refl _)
        (fun _ there _ => there) (by rfl) (.inl rfl) ⟨held, ?_, ?_⟩
      all_goals rw [Function.update_self]
      · exact sending
      · refine ⟨?_, whole⟩
        rw [Ctx.resume_append, resumed]
        exact waiting
  | none =>
      simp only [waiting] at stepped
      cases invalid : (processReply passing.ctx.queryCount passing.ctx.machine bytes).invalid with
      | true =>
          simp only [invalid, ↓reduceIte] at stepped
          refine sound.finalize positive progress (by rfl) stepped
            (.inl ⟨_, rfl, rfl, rfl, sending, ?_⟩)
          simpa [Filtered.output, invalid] using given
      | false =>
          simp only [invalid, Bool.false_eq_true, ↓reduceIte] at stepped
          obtain ⟨later, arrived, done, inbound, unsent⟩ := sending
          have counted := congrArg List.length done
          rw [List.length_append, List.length_map, ← sound.length_repliesTo] at counted
          obtain ⟨all, every, accepted⟩ := resume_complete pending synchronous.small resumed
            sound.repliesTo_fit (by omega) front ⟨waiting, invalid⟩
          have none : later = [] := by
            exact List.length_eq_zero_iff.mp (by omega)
          subst none
          rw [List.append_nil] at done
          refine sound.finalize positive progress (by rfl) stepped
            (.inr ⟨_, rfl, ⟨?_, ?_⟩, done, ?_⟩)
          · rw [inbound, (List.append_eq_nil_iff.mp unsent).1]
            rfl
          · rw [← all] at whole
            exact List.append_right_eq_self.mp whole
          · rw [← all, Filtered.output, invalid, accepted]
            rfl

/-- **Stopping**: the connection is closed. -/
theorem Sound.stop (sound : Sound commands regular maxCached world) (positive : 0 < maxCached)
    {freed : Freed} {ready : Option Peeked}
    (stepped : world.stop attempt freed ready = some next) :
    Sound commands regular maxCached next := by
  unfold World.stop at stepped
  cases progress : world.progress attempt
  all_goals simp only [progress, reduceCtorEq] at stepped
  rename_i passing
  obtain ⟨held, sending, resumed, stream⟩ := progress ▸ sound.standing attempt
  have same : world = { world with
      links := Function.update world.links passing.connection
        (world.links passing.connection) } := by
    rw [Function.update_eq_self]
  rw [same] at stepped
  exact sound.finalize positive progress (by rfl) stepped
    (.inl ⟨passing, rfl, rfl, rfl, sending, ⟨_, stream⟩⟩)

/-- **A cached connection that becomes readable** is no attempt's. -/
theorem Sound.idle (sound : Sound commands regular maxCached world) (positive : 0 < maxCached)
    {connection : Nat} {peeked : Peeked} {connections : Connections Addr}
    (stepped : world.connections.step (.idle connection peeked) = some connections) :
    Sound commands regular maxCached { world with connections } := by
  have accounted := sound.accounted.step positive stepped
  change (if _ then _ else _) = _ at stepped
  split at stepped
  · cases stepped
    obtain ⟨used, closed⟩ := peek_keeps world.connections connection peeked
    exact ⟨accounted, sound.single, sound.regular, sound.alone, sound.quiet, fun attempt =>
      (sound.standing attempt).frame (fun _ _ held => used held) closed (fun _ _ => rfl)⟩
  · cases stepped

/-! ## Whole runs -/

/-- What an attempt has passed on. -/
def Progress.output : Progress → Bytes
  | .active passing | .stopped passing => passing.output
  | .complete output => output
  | _ => []

end HttpBackEnd.Redis
