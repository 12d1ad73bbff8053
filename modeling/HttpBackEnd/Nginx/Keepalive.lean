import HttpBackEnd.Library.Ledger
import HttpBackEnd.Library.Transition
import Mathlib.Data.List.Perm.Basic

/-! # The cache of upstream connections

`ngx_http_upstream_keepalive_module`: a request takes a cached connection to the address
the balancer chose, or a new one is opened; when the request is done with it, the
connection is cached or closed, and one that becomes readable in the cache is peeked at
and closed unless nothing has arrived. A new item of the cache takes the place of the one
that was saved first when no item is free. The items themselves are interchangeable, so
the free queue is its length.

`connections_accounted`: over every run each connection ever opened is in use by one
request, or in one item of the cache, or closed, exactly once.
-/

namespace HttpBackEnd.Nginx

/-- `ngx_http_upstream_keepalive_cache_t`: a connection, by its number, and the address of
its peer. -/
structure CacheItem (Addr : Type) where
  connection : Nat
  sockaddr : Addr
deriving DecidableEq, Repr

/-- The two queues of `ngx_http_upstream_keepalive_srv_conf_t`, the cache from its head. -/
structure KeepaliveConf (Addr : Type) where
  cache : List (CacheItem Addr) := []
  free : Nat
deriving DecidableEq, Repr

/-- What `ngx_http_upstream_free_keepalive_peer` looks at. -/
structure Freed where
  peerFailed : Bool := false
  readEof : Bool := false
  readError : Bool := false
  readTimedout : Bool := false
  writeError : Bool := false
  writeTimedout : Bool := false
  keepalive : Bool
  requestBodySent : Bool := true
  exiting : Bool := false
  readEventFailed : Bool := false
deriving DecidableEq, Repr

/-- The connection is worth saving: none of the jumps to `invalid` is taken. -/
def Freed.valid (freed : Freed) : Bool :=
  !(freed.peerFailed || freed.readEof || freed.readError || freed.readTimedout ||
    freed.writeError || freed.writeTimedout) && freed.keepalive && freed.requestBodySent &&
    !freed.exiting && !freed.readEventFailed

/-- What `ngx_http_upstream_keepalive_close_handler` looks at: `c->close`, whether peeking
at the socket fails with `EAGAIN`, and whether the read event can be handled then. -/
structure Peeked where
  close : Bool := false
  again : Bool
  readEventFailed : Bool := false
deriving DecidableEq, Repr

/-- The handler closes the connection. -/
def Peeked.closes (peeked : Peeked) : Bool :=
  peeked.close || !peeked.again || peeked.readEventFailed

namespace KeepaliveConf

variable {Addr : Type} [DecidableEq Addr]

/-- `ngx_http_upstream_init_keepalive`. -/
def init (maxCached : Nat) : KeepaliveConf Addr := { free := maxCached }

/-- `ngx_http_upstream_get_keepalive_peer`, once the balancer has chosen an address. -/
def getKeepalivePeer (conf : KeepaliveConf Addr) (sockaddr : Addr) :
    Option (Nat × KeepaliveConf Addr) :=
  (conf.cache.find? (·.sockaddr = sockaddr)).map fun item =>
    (item.connection,
      { cache := conf.cache.eraseP (·.sockaddr = sockaddr), free := conf.free + 1 })

/-- `ngx_http_upstream_free_keepalive_peer` for a connection worth saving, with the
connection that is closed to make room. -/
def freeKeepalivePeer (conf : KeepaliveConf Addr) (item : CacheItem Addr) :
    KeepaliveConf Addr × Option Nat :=
  if conf.free = 0 then
    ({ conf with cache := item :: conf.cache.dropLast }, conf.cache.getLast?.map (·.connection))
  else ({ cache := item :: conf.cache, free := conf.free - 1 }, none)

/-- `ngx_http_upstream_keepalive_close_handler` where it closes. -/
def closeHandler (conf : KeepaliveConf Addr) (connection : Nat) : KeepaliveConf Addr :=
  { cache := conf.cache.eraseP (·.connection = connection), free := conf.free + 1 }

/-- The cached connections. -/
def connections (conf : KeepaliveConf Addr) : List Nat := conf.cache.map (·.connection)

end KeepaliveConf

/-- The connections to the servers of an upstream: the queues, the connections requests
hold, with the address of the peer, and the ledger of all that were opened, with their
addresses in the order of opening. -/
structure Connections (Addr : Type) where
  conf : KeepaliveConf Addr
  held : List (CacheItem Addr) := []
  ledger : Ledger := {}
  opened : List Addr := []
deriving DecidableEq, Repr

/-- What happens to the connections. A request gets one, where it says whether a new one
could be opened, gives one back, where the read event may be ready, or a cached one
becomes readable. -/
inductive ConnEvent (Addr : Type) where
  | get (sockaddr : Addr) (connects : Bool)
  | free (connection : Nat) (freed : Freed) (ready : Option Peeked)
  | idle (connection : Nat) (peeked : Peeked)
deriving DecidableEq, Repr

namespace Connections

variable {Addr : Type} [DecidableEq Addr]

/-- The connections in use and in the cache. -/
def alive (state : Connections Addr) : List Nat :=
  state.held.map (·.connection) ++ state.conf.connections

/-- A request asks for a connection to an address; `none` is a failure to connect. -/
def get (state : Connections Addr) (sockaddr : Addr) (connects : Bool) :
    Option Nat × Connections Addr :=
  match state.conf.getKeepalivePeer sockaddr with
  | some (connection, conf) =>
      (some connection, { state with conf, held := ⟨connection, sockaddr⟩ :: state.held })
  | none =>
      if connects then
        (some state.ledger.issued,
          { state with
            held := ⟨state.ledger.issued, sockaddr⟩ :: state.held
            ledger := state.ledger.issue
            opened := state.opened ++ [sockaddr] })
      else (none, state)

/-- Take a cached connection out and close it, if the handler does. -/
def peek (state : Connections Addr) (connection : Nat) (peeked : Peeked) : Connections Addr :=
  if peeked.closes then
    { state with
      conf := state.conf.closeHandler connection
      ledger := state.ledger.release connection }
  else state

/-- A request gives its connection back. -/
def free (state : Connections Addr) (item : CacheItem Addr) (freed : Freed)
    (ready : Option Peeked) : Connections Addr :=
  let state := { state with held := state.held.eraseP (·.connection = item.connection) }
  if freed.valid then
    let (conf, evicted) := state.conf.freeKeepalivePeer item
    let state := { state with
      conf
      ledger := match evicted with
        | some connection => state.ledger.release connection
        | none => state.ledger }
    match ready with
    | some peeked => state.peek item.connection peeked
    | none => state
  else { state with ledger := state.ledger.release item.connection }

/-- One event. Only a connection in use is given back, and only a cached one is idle. -/
def step (state : Connections Addr) : ConnEvent Addr → Option (Connections Addr)
  | .get sockaddr connects => some (state.get sockaddr connects).2
  | .free connection freed ready =>
      (state.held.find? (·.connection = connection)).map fun item => state.free item freed ready
  | .idle connection peeked =>
      if connection ∈ state.conf.connections then some (state.peek connection peeked) else none

end Connections

/-- The connections of an upstream as a system. -/
def keepalive (Addr : Type) [DecidableEq Addr] :
    Transition.System (Connections Addr) (ConnEvent Addr) where
  step := Connections.step

/-- The worker starts without connections. -/
def Connections.initial {Addr : Type} (maxCached : Nat) : Connections Addr :=
  { conf := KeepaliveConf.init maxCached }

/-! ## The accounts -/

/-- An element that is found is taken out of the list, and nothing else. -/
theorem perm_of_find {α : Type} {test : α → Bool} {items : List α} {item : α}
    (found : items.find? test = some item) : items.Perm (item :: items.eraseP test) := by
  obtain ⟨holds, before, after, rfl, others⟩ := List.find?_eq_some_iff_append.mp found
  have skipped : ∀ other ∈ before, ¬test other = true := fun other member => by
    simpa using others other member
  rw [List.eraseP_append_right _ skipped, List.eraseP_cons_of_pos holds]
  exact List.perm_middle

/-- The accounts are in order: the connections alive and the connections closed are those
that were opened, each once; the queues hold all items; and a connection is to the address
it was opened for. -/
structure Accounted {Addr : Type} (maxCached : Nat) (state : Connections Addr) : Prop where
  owns : state.ledger.Owns state.alive
  items : state.conf.cache.length + state.conf.free = maxCached
  numbered : state.opened.length = state.ledger.issued
  held : ∀ item ∈ state.held, state.opened[item.connection]? = some item.sockaddr
  cached : ∀ item ∈ state.conf.cache, state.opened[item.connection]? = some item.sockaddr

theorem accounted_initial {Addr : Type} (maxCached : Nat) :
    Accounted maxCached (Connections.initial maxCached : Connections Addr) where
  owns := Ledger.owns_empty
  items := Nat.zero_add maxCached
  numbered := rfl
  held _ member := absurd member List.not_mem_nil
  cached _ member := absurd member List.not_mem_nil

variable {Addr : Type} [DecidableEq Addr] {maxCached : Nat} {state : Connections Addr}

/-- A request gets the first cached connection to its address, a new one, or none. -/
theorem get_cases (state : Connections Addr) (sockaddr : Addr) (connects : Bool) :
    (∃ item, state.conf.cache.find? (·.sockaddr = sockaddr) = some item ∧
      item.sockaddr = sockaddr ∧ state.get sockaddr connects =
        (some item.connection,
          { state with
            conf := ⟨state.conf.cache.eraseP (·.sockaddr = sockaddr), state.conf.free + 1⟩
            held := ⟨item.connection, sockaddr⟩ :: state.held })) ∨
      (connects = true ∧ state.get sockaddr connects =
        (some state.ledger.issued,
          { state with
            held := ⟨state.ledger.issued, sockaddr⟩ :: state.held
            ledger := state.ledger.issue
            opened := state.opened ++ [sockaddr] })) ∨
      (connects = false ∧ state.get sockaddr connects = (none, state)) := by
  unfold Connections.get KeepaliveConf.getKeepalivePeer
  cases found : state.conf.cache.find? (·.sockaddr = sockaddr) with
  | some item => exact .inl ⟨item, rfl, by simpa using List.find?_some found, rfl⟩
  | none =>
      cases connects with
      | true => exact .inr (.inl ⟨rfl, rfl⟩)
      | false => exact .inr (.inr ⟨rfl, rfl⟩)

/-- **Getting a connection** keeps the accounts. -/
theorem Accounted.get (accounted : Accounted maxCached state) (sockaddr : Addr) (connects : Bool) :
    Accounted maxCached (state.get sockaddr connects).2 := by
  obtain ⟨owns, items, numbered, held, cached⟩ := accounted
  obtain ⟨item, found, rfl, got⟩ | ⟨-, got⟩ | ⟨-, got⟩ := get_cases state sockaddr connects
  all_goals rw [got]
  · have moved := perm_of_find found
    refine ⟨?_, ?_, numbered, ?_, fun other member => cached other (List.mem_of_mem_eraseP member)⟩
    · exact owns.perm (((moved.map CacheItem.connection).append_left _).trans List.perm_middle)
    · have long := moved.length_eq
      rw [List.length_cons] at long
      dsimp only
      omega
    · exact List.forall_mem_cons.mpr ⟨cached item (List.mem_of_find?_eq_some found), held⟩
  · have kept : ∀ (item : CacheItem Addr), state.opened[item.connection]? = some item.sockaddr →
        (state.opened ++ [sockaddr])[item.connection]? = some item.sockaddr := by
      intro item there
      rw [List.getElem?_append_left (List.getElem?_eq_some_iff.mp there).1]
      exact there
    refine ⟨owns.issue, items, ?_, ?_, fun other member => kept other (cached other member)⟩
    · rw [List.length_append, numbered, List.length_singleton]
      rfl
    · refine List.forall_mem_cons.mpr ⟨?_, fun other member => kept other (held other member)⟩
      rw [← numbered, List.getElem?_concat_length]
  · exact ⟨owns, items, numbered, held, cached⟩

omit [DecidableEq Addr] in
/-- **Peeking** at a cached connection keeps the accounts. -/
theorem Accounted.peek (accounted : Accounted maxCached state) {connection : Nat}
    (member : connection ∈ state.conf.connections) (peeked : Peeked) :
    Accounted maxCached (state.peek connection peeked) := by
  unfold Connections.peek
  split
  · obtain ⟨owns, items, numbered, held, cached⟩ := accounted
    obtain ⟨item, found⟩ :
        ∃ item, state.conf.cache.find? (·.connection = connection) = some item := by
      obtain ⟨item, present, rfl⟩ := List.mem_map.mp member
      exact Option.isSome_iff_exists.mp (List.find?_isSome.mpr ⟨item, present, by simp⟩)
    have moved := perm_of_find found
    have named : item.connection = connection := by simpa using List.find?_some found
    subst named
    refine ⟨?_, ?_, numbered, held,
      fun other member => cached other (List.mem_of_mem_eraseP member)⟩
    · exact Ledger.Owns.release (owns.perm
        (((moved.map CacheItem.connection).append_left _).trans List.perm_middle))
    · have long := moved.length_eq
      rw [List.length_cons] at long
      change (state.conf.cache.eraseP _).length + (state.conf.free + 1) = maxCached
      omega
  · exact accounted

omit [DecidableEq Addr] in
/-- Saving a connection puts it at the head of the cache and moves the one at its end out
when no item is free. -/
theorem freeKeepalivePeer_cases (conf : KeepaliveConf Addr) (item : CacheItem Addr)
    (room : 0 < conf.cache.length + conf.free) :
    (∃ last, conf.cache = conf.cache.dropLast ++ [last] ∧ conf.free = 0 ∧
      conf.freeKeepalivePeer item =
        (⟨item :: conf.cache.dropLast, conf.free⟩, some last.connection)) ∨
      (0 < conf.free ∧
        conf.freeKeepalivePeer item = (⟨item :: conf.cache, conf.free - 1⟩, none)) := by
  unfold KeepaliveConf.freeKeepalivePeer
  by_cases full : conf.free = 0
  · have some' : conf.cache ≠ [] := List.ne_nil_of_length_pos (by omega)
    refine .inl ⟨conf.cache.getLast some', (List.dropLast_concat_getLast some').symm, full, ?_⟩
    rw [if_pos full, List.getLast?_eq_some_getLast some']
    rfl
  · exact .inr ⟨Nat.pos_of_ne_zero full, by rw [if_neg full]⟩

omit [DecidableEq Addr] in
/-- **Giving a connection back** keeps the accounts. -/
theorem Accounted.free (accounted : Accounted maxCached state) (positive : 0 < maxCached)
    {connection : Nat} {item : CacheItem Addr}
    (found : state.held.find? (·.connection = connection) = some item) (freed : Freed)
    (ready : Option Peeked) : Accounted maxCached (state.free item freed ready) := by
  have named : item.connection = connection := by simpa using List.find?_some found
  subst named
  have moved := perm_of_find found
  obtain ⟨owns, items, numbered, held, cached⟩ := accounted
  have there := held item (List.mem_of_find?_eq_some found)
  have fewer : ∀ other ∈ state.held.eraseP (·.connection = item.connection),
      state.opened[other.connection]? = some other.sockaddr :=
    fun other member => held other (List.mem_of_mem_eraseP member)
  have owned : state.ledger.Owns (item.connection ::
      ((state.held.eraseP (·.connection = item.connection)).map (·.connection) ++
        state.conf.connections)) :=
    owns.perm ((moved.map CacheItem.connection).append_right _)
  unfold Connections.free
  by_cases valid : freed.valid = true
  · simp only [valid, ↓reduceIte]
    obtain ⟨last, split, full, saved⟩ | ⟨some', saved⟩ :=
      freeKeepalivePeer_cases state.conf item (by omega)
    all_goals rw [saved]
    · have long := congrArg List.length split
      rw [List.length_append, List.length_singleton] at long
      have settled : Accounted maxCached
          { state with
            held := state.held.eraseP (·.connection = item.connection)
            conf := ⟨item :: state.conf.cache.dropLast, state.conf.free⟩
            ledger := state.ledger.release last.connection } := by
        refine ⟨?_, ?_, numbered, fewer, ?_⟩
        · refine Ledger.Owns.release (owned.perm ?_)
          have oldest : (state.conf.connections).Perm
              (last.connection :: state.conf.cache.dropLast.map (·.connection)) := by
            unfold KeepaliveConf.connections
            conv_lhs => rw [split]
            rw [List.map_append, List.map_singleton]
            exact List.perm_append_singleton _ _
          exact (((oldest.append_left _).trans List.perm_middle).cons _).trans
            ((List.Perm.swap _ _ _).trans (List.perm_middle.symm.cons _))
        · dsimp only
          rw [List.length_cons]
          omega
        · exact List.forall_mem_cons.mpr
            ⟨there, fun other member => cached other ((List.dropLast_sublist _).subset member)⟩
      cases ready with
      | none => exact settled
      | some peeked => exact settled.peek List.mem_cons_self peeked
    · have settled : Accounted maxCached
          { state with
            held := state.held.eraseP (·.connection = item.connection)
            conf := ⟨item :: state.conf.cache, state.conf.free - 1⟩ } := by
        refine ⟨owned.perm List.perm_middle.symm, ?_, numbered, fewer,
          List.forall_mem_cons.mpr ⟨there, cached⟩⟩
        dsimp only
        rw [List.length_cons]
        omega
      cases ready with
      | none => exact settled
      | some peeked => exact settled.peek List.mem_cons_self peeked
  · simp only [valid, Bool.false_eq_true, ↓reduceIte]
    exact ⟨owned.release, items, numbered, fewer, cached⟩

/-- Every event keeps the accounts. -/
theorem Accounted.step (accounted : Accounted maxCached state) (positive : 0 < maxCached)
    {event : ConnEvent Addr} {next : Connections Addr} (stepped : state.step event = some next) :
    Accounted maxCached next := by
  cases event with
  | get sockaddr connects =>
      cases stepped
      exact accounted.get sockaddr connects
  | free connection freed ready =>
      obtain ⟨item, found, rfl⟩ := Option.map_eq_some_iff.mp stepped
      exact accounted.free positive found freed ready
  | idle connection peeked =>
      change (if _ then _ else _) = _ at stepped
      split at stepped
      · rename_i member
        cases stepped
        exact accounted.peek member peeked
      · cases stepped

/-- **No connection is lost or shared.** Over every run of requests that take connections
and give them back, and of cached connections that become readable, the accounts are in
order. -/
theorem connections_accounted (positive : 0 < maxCached) {events : List (ConnEvent Addr)}
    {final : Connections Addr}
    (ran : (keepalive Addr).run (Connections.initial maxCached) events = some final) :
    Accounted maxCached final := by
  have keeps : (keepalive Addr).Keeps (fun _ => True) (Accounted maxCached) :=
    fun _ _ _ _ accounted stepped => accounted.step positive stepped
  exact keeps.run (fun _ _ => trivial) (accounted_initial maxCached) ran

/-- Two servers and room for one connection: saving the second one closes the first. -/
theorem connections_accounted_sample :
    ∃ final, (keepalive Bool).run (Connections.initial 1)
        [.get true true, .get false true, .free 0 { keepalive := true } none,
          .free 1 { keepalive := true } none, .get true false] = some final ∧
      final.conf.connections = [1] ∧ final.ledger.released = [0] ∧ Accounted 1 final := by
  let events : List (ConnEvent Bool) :=
    [.get true true, .get false true, .free 0 { keepalive := true } none,
      .free 1 { keepalive := true } none, .get true false]
  obtain ⟨final, ran⟩ : ∃ final, (keepalive Bool).run (Connections.initial 1) events = some final :=
    ⟨_, rfl⟩
  refine ⟨final, ran, ?_, ?_, connections_accounted (by decide) ran⟩
  all_goals
    cases ran
    rfl

/-! ## Who has a connection -/

/-- The connections in use. -/
def Connections.inUse (state : Connections Addr) : List Nat := state.held.map (·.connection)

/-- A request gets a connection that no request has and that was not closed. -/
theorem Accounted.get_some (accounted : Accounted maxCached state) {sockaddr : Addr}
    {connects : Bool} {connection : Nat} {next : Connections Addr}
    (got : state.get sockaddr connects = (some connection, next)) :
    next.inUse = connection :: state.inUse ∧ next.ledger.released = state.ledger.released ∧
      connection ∉ state.inUse ∧ connection ∉ state.ledger.released := by
  have owns := accounted.owns
  obtain ⟨item, found, -, taken⟩ | ⟨-, taken⟩ | ⟨-, taken⟩ := get_cases state sockaddr connects
  all_goals
    rw [taken] at got
    cases got
  · have cached : item.connection ∈ state.conf.connections :=
      List.mem_map_of_mem (List.mem_of_find?_eq_some found)
    refine ⟨rfl, rfl, fun used => ?_, (owns.live (List.mem_append_right _ cached)).2⟩
    have apart := (List.nodup_append.mp (List.nodup_append.mp owns.nodup).1).2.2
    exact apart _ used _ cached rfl
  · refine ⟨rfl, rfl, fun used => ?_, fun released => ?_⟩
    · exact absurd (owns.live (List.mem_append_left _ used)).1 (Nat.lt_irrefl _)
    · exact absurd (List.mem_range.mp (owns.subset (List.mem_append_right _ released)))
        (Nat.lt_irrefl _)

/-- Without a connection nothing changes. -/
theorem get_none {sockaddr : Addr} {connects : Bool} {next : Connections Addr}
    (got : state.get sockaddr connects = (none, next)) : next = state := by
  obtain ⟨item, -, -, taken⟩ | ⟨-, taken⟩ | ⟨-, taken⟩ := get_cases state sockaddr connects
  all_goals
    rw [taken] at got
    cases got
  rfl

omit [DecidableEq Addr] in
/-- Peeking leaves the connections in use alone, and nothing that was closed opens. -/
theorem peek_keeps (state : Connections Addr) (connection : Nat) (peeked : Peeked) :
    state.inUse ⊆ (state.peek connection peeked).inUse ∧
      state.ledger.released ⊆ (state.peek connection peeked).ledger.released := by
  unfold Connections.peek
  split
  · exact ⟨List.Subset.refl _, List.subset_append_left _ _⟩
  · exact ⟨List.Subset.refl _, List.Subset.refl _⟩

omit [DecidableEq Addr] in
/-- Giving a connection back leaves the others in use alone, nothing that was closed opens,
and a connection that is not worth saving is closed. -/
theorem free_keeps (state : Connections Addr) (item : CacheItem Addr) (freed : Freed)
    (ready : Option Peeked) :
    (∀ other ∈ state.inUse, other ≠ item.connection → other ∈ (state.free item freed ready).inUse) ∧
      state.ledger.released ⊆ (state.free item freed ready).ledger.released ∧
      (freed.valid = false → item.connection ∈ (state.free item freed ready).ledger.released) := by
  have others : ∀ other ∈ state.inUse, other ≠ item.connection →
      other ∈ (state.held.eraseP (·.connection = item.connection)).map (·.connection) := by
    intro other used apart
    obtain ⟨holder, member, rfl⟩ := List.mem_map.mp used
    refine List.mem_map_of_mem ((List.mem_eraseP_of_neg ?_).mpr member)
    simpa using apart
  unfold Connections.free
  by_cases valid : freed.valid = true
  · simp only [valid, ↓reduceIte, Bool.true_eq_false, false_implies, and_true]
    generalize state.conf.freeKeepalivePeer item = saved
    obtain ⟨conf, evicted⟩ := saved
    have grows : state.ledger.released ⊆ (match evicted with
        | some connection => state.ledger.release connection
        | none => state.ledger).released := by
      cases evicted with
      | some connection => exact List.subset_append_left _ _
      | none => exact List.Subset.refl _
    cases ready with
    | none => exact ⟨others, grows⟩
    | some peeked =>
        refine ⟨fun other used apart => ?_, fun closed released => ?_⟩
        · exact (peek_keeps _ item.connection peeked).1 (others other used apart)
        · exact (peek_keeps _ item.connection peeked).2 (grows released)
  · simp only [valid, Bool.false_eq_true, ↓reduceIte]
    refine ⟨others, List.subset_append_left _ _, fun _ => ?_⟩
    exact List.mem_append_right _ List.mem_cons_self

end HttpBackEnd.Nginx
