import Mathlib
import HttpBackEnd.Library.Transition

/-! # The connections to the database

The drizzle module keeps the connections of finished requests for later ones, and counts the
connections that are open. With `overflow=reject` it makes no connection when the count has
reached the size of the pool.
-/

namespace HttpBackEnd.Rds

open Transition

/-- `ngx_http_drizzle_keepalive_overflow_t`. -/
inductive Overflow where
  | ignore
  | reject
deriving DecidableEq, Repr

/-- The settings of `ngx_http_upstream_drizzle_srv_conf_t`, with the addresses of its peers. -/
structure DrizzleConf (Addr : Type) where
  maxCached : Nat := 0
  single : Bool := false
  overflow : Overflow := .ignore
  peers : List Addr
  present : peers ≠ []

/-- What `ngx_http_drizzle_keepalive_cache_t` and `ngx_http_upstream_drizzle_peer_data_t` say of
a connection. -/
structure DrizzleCon (Addr : Type) where
  connection : Nat
  sockaddr : Addr
  used : Nat := 0

/-- The queues and the counts of `ngx_http_upstream_drizzle_srv_conf_t`, and the connections
of the requests. The next connection is the one with the number `opened`. -/
structure DrizzlePool (Addr : Type) where
  cache : List (DrizzleCon Addr) := []
  free : Nat
  activeConns : Nat := 0
  current : Nat := 0
  held : List (DrizzleCon Addr) := []
  opened : Nat := 0

/-- The first item of a queue that is wanted, and the others. -/
def takeFirst {Item : Type} (wanted : Item → Bool) : List Item → Option (Item × List Item)
  | [] => none
  | item :: rest =>
      if wanted item then some (item, rest)
      else (takeFirst wanted rest).map fun found => (found.1, item :: found.2)

/-- How a new connection comes out: `drizzle_con_connect` fails, there is no descriptor or no
`ngx_connection_t` for it, or it is made and the event loop takes it. -/
inductive Connecting where
  | failed
  | lost
  | made
deriving DecidableEq

/-- What `ngx_http_drizzle_keepalive_free_peer` looks at. -/
structure FinishedPeer where
  failed : Bool
  status : Nat
  headerSent : Bool
  length : Nat

/-- Whether the connection is saved. -/
def FinishedPeer.reusable (finished : FinishedPeer) : Bool :=
  !finished.failed && (finished.status = 404 || finished.status = 410 ||
    (finished.status = 200 && finished.headerSent && finished.length = 0))

namespace DrizzlePool

variable {Addr : Type} [DecidableEq Addr] (conf : DrizzleConf Addr) (pool : DrizzlePool Addr)

/-- `ngx_http_drizzle_keepalive_get_peer_single` and `_multi`: a connection from the cache,
whose item is free. -/
def getCached (wanted : DrizzleCon Addr → Bool) : Option (DrizzlePool Addr) :=
  (takeFirst wanted pool.cache).map fun found =>
    { pool with cache := found.2, free := pool.free + 1, held := found.1 :: pool.held }

/-- The round robin of `ngx_http_upstream_drizzle_get_peer`. -/
def nextPeer : Addr × DrizzlePool Addr :=
  let current := if pool.current > conf.peers.length - 1 then 0 else pool.current
  ((conf.peers[current]?).getD (conf.peers.head conf.present), { pool with current := current + 1 })

/-- Whether a new connection is refused. -/
def full : Bool := conf.overflow = .reject && conf.maxCached ≤ pool.activeConns

/-- A new connection. One that is lost has been counted and is freed at once. -/
def connect (sockaddr : Addr) : Connecting → DrizzlePool Addr
  | .failed => pool
  | .lost => pool
  | .made =>
      { pool with
        activeConns := pool.activeConns + 1, opened := pool.opened + 1
        held := { connection := pool.opened, sockaddr } :: pool.held }

/-- `ngx_http_upstream_drizzle_get_peer` behind the single mode: a request that is rejected
gets nothing. -/
def getNext (connecting : Connecting) : DrizzlePool Addr :=
  let (sockaddr, pool) := pool.nextPeer conf
  let cached := if conf.maxCached ≠ 0 ∧ conf.single = false then
    pool.getCached fun item => item.sockaddr = sockaddr else none
  cached.getD (if pool.full conf then pool else pool.connect sockaddr connecting)

/-- `ngx_http_upstream_drizzle_get_peer`. -/
def getPeer (connecting : Connecting) : DrizzlePool Addr :=
  let cached := if conf.maxCached ≠ 0 ∧ conf.single = true then
    pool.getCached fun _ => true else none
  cached.getD (pool.getNext conf connecting)

/-- Where a connection is saved: an item that is free, or the last one of the cache, whose
connection is freed. -/
def makeRoom : DrizzlePool Addr :=
  if pool.free = 0 then
    { pool with cache := pool.cache.dropLast, activeConns := pool.activeConns - 1 }
  else { pool with free := pool.free - 1 }

/-- `ngx_http_drizzle_keepalive_free_peer` where it saves the connection. -/
def saved (item : DrizzleCon Addr) : DrizzlePool Addr :=
  { pool.makeRoom with cache := { item with used := item.used + 1 } :: pool.makeRoom.cache }

/-- `ngx_http_upstream_drizzle_free_peer`. -/
def freePeer (connection : Nat) (finished : FinishedPeer) : Option (DrizzlePool Addr) :=
  (takeFirst (fun item => item.connection = connection) pool.held).map fun found =>
    if conf.maxCached ≠ 0 ∧ finished.reusable = true then
      saved { pool with held := found.2 } found.1
    else { pool with held := found.2, activeConns := pool.activeConns - 1 }

/-- `ngx_http_drizzle_keepalive_close_handler`, for an event that is not stale. -/
def closeCached (connection : Nat) : Option (DrizzlePool Addr) :=
  (takeFirst (fun item => item.connection = connection) pool.cache).map fun found =>
    { pool with
      cache := found.2, free := pool.free + 1, activeConns := pool.activeConns - 1 }

end DrizzlePool

/-- What happens to the connections. -/
inductive DrizzleEvent where
  | get (connecting : Connecting)
  | free (connection : Nat) (finished : FinishedPeer)
  | close (connection : Nat)

section

variable {Addr : Type} [DecidableEq Addr] (conf : DrizzleConf Addr)

/-- The pool of an upstream. -/
def drizzlePool : System (DrizzlePool Addr) DrizzleEvent where
  step pool
    | .get connecting => some (pool.getPeer conf connecting)
    | .free connection finished => pool.freePeer conf connection finished
    | .close connection => pool.closeCached connection

/-- `ngx_http_drizzle_keepalive_init`. -/
def DrizzlePool.initial : DrizzlePool Addr := { free := conf.maxCached }

end

/-! ## The counts -/

theorem takeFirst_perm {Item : Type} {wanted : Item → Bool} {items : List Item}
    {found : Item × List Item} (took : takeFirst wanted items = some found) :
    (found.1 :: found.2).Perm items := by
  induction items generalizing found with
  | nil => cases took
  | cons item rest ih =>
      rw [takeFirst] at took
      split at took
      · cases took
        exact .refl _
      · obtain ⟨later, inside, rfl⟩ := Option.map_eq_some_iff.mp took
        exact (List.Perm.swap item later.1 later.2).trans ((ih inside).cons item)

theorem takeFirst_wanted {Item : Type} {wanted : Item → Bool} {items : List Item}
    {found : Item × List Item} (took : takeFirst wanted items = some found) :
    wanted found.1 = true := by
  induction items generalizing found with
  | nil => cases took
  | cons item rest ih =>
      rw [takeFirst] at took
      split at took
      · rename_i here
        cases took
        exact here
      · obtain ⟨later, inside, rfl⟩ := Option.map_eq_some_iff.mp took
        have first : wanted later.1 = true := ih inside
        exact first

variable {Addr : Type}

/-- A connection and the server it goes to. -/
def DrizzleCon.link (item : DrizzleCon Addr) : Nat × Addr := (item.connection, item.sockaddr)

/-- The connections that are open. -/
def DrizzlePool.open (pool : DrizzlePool Addr) : List (Nat × Addr) :=
  (pool.held ++ pool.cache).map DrizzleCon.link

/-- Every connection is counted, is in one place and goes to a server of the upstream. -/
structure DrizzlePool.Counted (conf : DrizzleConf Addr) (pool : DrizzlePool Addr) : Prop where
  active : pool.activeConns = pool.held.length + pool.cache.length
  slots : pool.cache.length + pool.free = conf.maxCached
  fresh : ∀ link ∈ pool.open, link.1 < pool.opened
  known : ∀ link ∈ pool.open, link.2 ∈ conf.peers
  apart : (pool.open.map Prod.fst).Nodup
  limit : conf.overflow = .reject → pool.activeConns ≤ conf.maxCached

namespace DrizzlePool

variable {conf : DrizzleConf Addr} {pool next : DrizzlePool Addr}

/-- Connections that are closed or change places stay counted. -/
theorem Counted.of_subperm (counted : pool.Counted conf)
    (active : next.activeConns = next.held.length + next.cache.length)
    (slots : next.cache.length + next.free = conf.maxCached)
    (fewer : next.activeConns ≤ pool.activeConns) (opened : next.opened = pool.opened)
    (stays : next.open.Subperm pool.open) : next.Counted conf := by
  refine ⟨active, slots, fun link member => ?_, fun link member =>
    counted.known link (stays.subset member), ?_, fun rejects =>
    Nat.le_trans fewer (counted.limit rejects)⟩
  · rw [opened]
    exact counted.fresh link (stays.subset member)
  · obtain ⟨links, perm, sublist⟩ := stays
    have apart : (links.map Prod.fst).Nodup := counted.apart.sublist (sublist.map Prod.fst)
    exact (perm.map Prod.fst).nodup_iff.mp apart

/-- A connection of a request goes in front of those of the cache that stay. -/
theorem subperm_saved {item : DrizzleCon Addr} {others kept : List (DrizzleCon Addr)}
    (perm : (item :: others).Perm pool.held) (stays : kept.Sublist pool.cache) :
    ((others ++ { item with used := item.used + 1 } :: kept).map
      DrizzleCon.link).Subperm pool.open := by
  have front : ((others ++ { item with used := item.used + 1 } :: kept).map
      DrizzleCon.link).Perm ((item :: others ++ kept).map DrizzleCon.link) :=
    List.perm_middle.map DrizzleCon.link
  have back : ((item :: others ++ kept).map DrizzleCon.link).Perm
      ((pool.held ++ kept).map DrizzleCon.link) :=
    (perm.append_right kept).map DrizzleCon.link
  exact (front.trans back).subperm.trans
    (((List.Sublist.refl pool.held).append stays).map DrizzleCon.link).subperm

/-- A connection from the cache. -/
theorem Counted.getCached (counted : pool.Counted conf) {wanted : DrizzleCon Addr → Bool}
    (got : pool.getCached wanted = some next) : next.Counted conf := by
  obtain ⟨⟨item, others⟩, took, rfl⟩ := Option.map_eq_some_iff.mp got
  have perm : (item :: others).Perm pool.cache := takeFirst_perm took
  have length : others.length + 1 = pool.cache.length := perm.length_eq
  have active := counted.active
  have slots := counted.slots
  refine counted.of_subperm ?_ ?_ (Nat.le_refl _) rfl ?_
  · simp only [List.length_cons]
    omega
  · simp only
    omega
  · have moved : (item :: pool.held ++ others).Perm (pool.held ++ pool.cache) :=
      List.perm_middle.symm.trans (perm.append_left pool.held)
    exact (moved.map DrizzleCon.link).subperm

theorem Counted.nextPeer (counted : pool.Counted conf) : (pool.nextPeer conf).2.Counted conf :=
  ⟨counted.active, counted.slots, counted.fresh, counted.known, counted.apart, counted.limit⟩

theorem nextPeer_mem : (pool.nextPeer conf).1 ∈ conf.peers := by
  rw [DrizzlePool.nextPeer]
  generalize (if pool.current > conf.peers.length - 1 then 0 else pool.current) = current
  by_cases inside : current < conf.peers.length
  · rw [List.getElem?_eq_getElem inside]
    exact List.getElem_mem inside
  · rw [List.getElem?_eq_none (Nat.le_of_not_lt inside)]
    exact List.head_mem conf.present

/-- A new connection, where the pool is not full. -/
theorem Counted.connect (counted : pool.Counted conf) (room : pool.full conf = false)
    {sockaddr : Addr} (peer : sockaddr ∈ conf.peers) (connecting : Connecting) :
    (pool.connect sockaddr connecting).Counted conf := by
  cases connecting with
  | failed => exact counted
  | lost => exact counted
  | made =>
      have active := counted.active
      have new : pool.opened ∉ pool.open.map Prod.fst := fun member => by
        obtain ⟨link, inside, same⟩ := List.mem_map.mp member
        exact absurd (counted.fresh link inside) (by rw [same]; exact Nat.lt_irrefl _)
      refine ⟨?_, counted.slots, fun link member => ?_, fun link member => ?_,
        counted.apart.cons new, fun rejects => ?_⟩
      · simp only [DrizzlePool.connect, List.length_cons]
        omega
      · rcases List.mem_cons.mp member with rfl | member
        · exact Nat.lt_succ_self _
        · exact Nat.lt_succ_of_lt (counted.fresh link member)
      · rcases List.mem_cons.mp member with rfl | member
        · exact peer
        · exact counted.known link member
      · have below : pool.activeConns < conf.maxCached := by simpa [full, rejects] using room
        exact below

/-- What may have been found, and what is there otherwise. -/
theorem counted_getD {cached : Option (DrizzlePool Addr)} {other : DrizzlePool Addr}
    (found : ∀ next, cached = some next → next.Counted conf) (counted : other.Counted conf) :
    (cached.getD other).Counted conf := by
  cases cached with
  | none => exact counted
  | some next => exact found next rfl

theorem Counted.getNext [DecidableEq Addr] (counted : pool.Counted conf)
    (connecting : Connecting) : (pool.getNext conf connecting).Counted conf := by
  have turned : (pool.nextPeer conf).2.Counted conf := counted.nextPeer
  have known : (pool.nextPeer conf).1 ∈ conf.peers := nextPeer_mem
  rw [DrizzlePool.getNext]
  generalize pool.nextPeer conf = peer at turned known
  refine counted_getD (fun next found => ?_) ?_
  · split at found
    · exact turned.getCached found
    · cases found
  · split
    · exact turned
    · rename_i room
      exact turned.connect (Bool.eq_false_iff.mpr room) known connecting

theorem Counted.getPeer [DecidableEq Addr] (counted : pool.Counted conf)
    (connecting : Connecting) : (pool.getPeer conf connecting).Counted conf := by
  refine counted_getD (fun next found => ?_) (counted.getNext connecting)
  split at found
  · exact counted.getCached found
  · cases found

theorem makeRoom_held (pool : DrizzlePool Addr) : pool.makeRoom.held = pool.held := by
  unfold makeRoom
  split <;> rfl

theorem makeRoom_opened (pool : DrizzlePool Addr) : pool.makeRoom.opened = pool.opened := by
  unfold makeRoom
  split <;> rfl

/-- There is room for one more, and what was closed for it is not counted any more. -/
theorem makeRoom_spec (pool : DrizzlePool Addr)
    (slots : pool.cache.length + pool.free = conf.maxCached) (caches : conf.maxCached ≠ 0) :
    pool.makeRoom.cache.Sublist pool.cache ∧
      pool.makeRoom.cache.length + 1 + pool.makeRoom.free = conf.maxCached ∧
      pool.makeRoom.activeConns =
        pool.activeConns - (pool.cache.length - pool.makeRoom.cache.length) := by
  unfold makeRoom
  by_cases full : pool.free = 0
  · rw [if_pos full]
    refine ⟨List.dropLast_sublist pool.cache, ?_, ?_⟩
    · simp only [List.length_dropLast]
      omega
    · simp only [List.length_dropLast]
      omega
  · rw [if_neg full]
    refine ⟨.refl pool.cache, ?_, ?_⟩
    · simp only
      omega
    · rw [Nat.sub_self, Nat.sub_zero]

theorem Counted.freePeer (counted : pool.Counted conf) {connection : Nat}
    {finished : FinishedPeer} (freed : pool.freePeer conf connection finished = some next) :
    next.Counted conf := by
  obtain ⟨⟨item, others⟩, took, rfl⟩ := Option.map_eq_some_iff.mp freed
  have perm : (item :: others).Perm pool.held := takeFirst_perm took
  have length : others.length + 1 = pool.held.length := perm.length_eq
  have active := counted.active
  simp only
  split
  · rename_i reused
    obtain ⟨stays, slots, closed⟩ :=
      makeRoom_spec { pool with held := others } counted.slots reused.1
    have shorter := stays.length_le
    simp only at shorter closed
    refine counted.of_subperm ?_ slots ?_ (makeRoom_opened _) ?_
    · simp only [saved, makeRoom_held, List.length_cons]
      omega
    · simp only [saved]
      omega
    · simpa only [DrizzlePool.open, saved, makeRoom_held] using subperm_saved perm stays
  · have fewer : (others ++ pool.cache).Sublist (item :: others ++ pool.cache) :=
      List.sublist_cons_self item _
    refine counted.of_subperm ?_ counted.slots (Nat.sub_le _ _) rfl ?_
    · simp only
      omega
    · exact (fewer.map _).subperm.trans ((perm.append_right pool.cache).map _).subperm

theorem Counted.closeCached (counted : pool.Counted conf) {connection : Nat}
    (closed : pool.closeCached connection = some next) : next.Counted conf := by
  obtain ⟨⟨item, others⟩, took, rfl⟩ := Option.map_eq_some_iff.mp closed
  have perm : (item :: others).Perm pool.cache := takeFirst_perm took
  have length : others.length + 1 = pool.cache.length := perm.length_eq
  have active := counted.active
  have slots := counted.slots
  refine counted.of_subperm ?_ ?_ (Nat.sub_le _ _) rfl ?_
  · simp only
    omega
  · simp only
    omega
  · have kept : (pool.held ++ others).Sublist (pool.held ++ item :: others) :=
      (List.Sublist.refl pool.held).append (List.sublist_cons_self item others)
    exact (kept.map _).subperm.trans ((perm.append_left pool.held).map _).subperm

/-- Nothing is open at first. -/
theorem counted_initial : (initial conf).Counted conf where
  active := rfl
  slots := Nat.zero_add conf.maxCached
  fresh := fun _ member => absurd member List.not_mem_nil
  known := fun _ member => absurd member List.not_mem_nil
  apart := List.nodup_nil
  limit := fun _ => Nat.zero_le _

variable [DecidableEq Addr]

/-- One event. -/
theorem counted_step : (drizzlePool conf).Keeps (fun _ => True) (Counted conf) := by
  intro pool event next _ counted stepped
  cases event with
  | get connecting =>
      cases stepped
      exact counted.getPeer connecting
  | free connection finished => exact counted.freePeer stepped
  | close connection => exact counted.closeCached stepped

/-- In the single mode the pool refuses a request where the requests have all its
connections. -/
theorem Counted.refused_iff (counted : pool.Counted conf) (single : conf.single = true)
    (rejects : conf.overflow = .reject) :
    (pool.getPeer conf .made).held = pool.held ↔ pool.held.length = conf.maxCached := by
  have active := counted.active
  have limit := counted.limit rejects
  have next : pool.cache = [] ∨ conf.maxCached = 0 →
      ((pool.getNext conf .made).held = pool.held ↔ pool.held.length = conf.maxCached) := by
    intro empty
    have none : pool.cache.length = 0 := by
      rcases empty with empty | empty
      · rw [empty, List.length_nil]
      · omega
    by_cases full : conf.maxCached ≤ pool.activeConns
    · have all : pool.held.length = conf.maxCached := by omega
      simp [DrizzlePool.getNext, DrizzlePool.nextPeer, DrizzlePool.full, single, rejects, full, all]
    · have some : pool.held.length ≠ conf.maxCached := by omega
      simp [DrizzlePool.getNext, DrizzlePool.nextPeer, DrizzlePool.full, DrizzlePool.connect,
        single, rejects, full, some]
  by_cases zero : conf.maxCached = 0
  · simpa [DrizzlePool.getPeer, zero] using next (.inr zero)
  · rcases cached : pool.cache with _ | ⟨item, others⟩
    · simpa [DrizzlePool.getPeer, DrizzlePool.getCached, takeFirst, cached] using
        next (.inl cached)
    · -- the connection at the front of the cache is taken
      have some : pool.cache.length ≠ 0 := by
        rw [cached]
        exact Nat.succ_ne_zero _
      have less : pool.held.length ≠ conf.maxCached := by omega
      simp [DrizzlePool.getPeer, DrizzlePool.getCached, takeFirst, cached, single, zero, less]

/-- In the multi mode a request gets a connection to the server whose turn it is. -/
theorem getPeer_turn (multi : conf.single = false) {connecting : Connecting}
    {item : DrizzleCon Addr} (got : (pool.getPeer conf connecting).held = item :: pool.held) :
    item.sockaddr = (pool.nextPeer conf).1 := by
  have same : (pool.nextPeer conf).2.held = pool.held := rfl
  have next : pool.getPeer conf connecting = pool.getNext conf connecting := by
    simp [DrizzlePool.getPeer, multi]
  have stays : pool.held ≠ item :: pool.held := (List.cons_ne_self item pool.held).symm
  rw [next, DrizzlePool.getNext] at got
  generalize pool.nextPeer conf = peer at got same ⊢
  obtain ⟨sockaddr, turned⟩ := peer
  by_cases cached : conf.maxCached = 0 ∨
      turned.getCached (fun item => item.sockaddr = sockaddr) = none
  · have made : (if turned.full conf then turned else turned.connect sockaddr connecting).held =
        item :: pool.held := by
      rcases cached with zero | none
      · simpa [zero] using got
      · simpa [none] using got
    split at made
    · exact absurd (same.symm.trans made) stays
    · cases connecting with
      | failed => exact absurd (same.symm.trans made) stays
      | lost => exact absurd (same.symm.trans made) stays
      | made => rw [← (List.cons.inj made).1]
  · obtain ⟨caches, some⟩ := not_or.mp cached
    obtain ⟨next, found⟩ := Option.ne_none_iff_exists'.mp some
    obtain ⟨⟨taken, others⟩, took, rfl⟩ := Option.map_eq_some_iff.mp found
    have wanted : decide (taken.sockaddr = sockaddr) = true := takeFirst_wanted took
    simp only [caches, multi, ne_eq, not_false_eq_true, and_self, ↓reduceIte, found,
      Option.getD_some] at got
    rw [← (List.cons.inj got).1]
    exact of_decide_eq_true wanted

end DrizzlePool

variable [DecidableEq Addr]

/-- However requests come and go and cached connections are closed: the count is that of the
open connections, each of which is with one request or in one place of the cache and goes to a
server of the upstream, the cache is not longer than its size, and with `overflow=reject` no
more connections are open than that. In the single mode a request is then refused exactly where
the others have them all; in the multi mode a request gets the server whose turn it is. -/
theorem connections_counted (conf : DrizzleConf Addr) (events : List DrizzleEvent)
    (final : DrizzlePool Addr)
    (ran : (drizzlePool conf).run (DrizzlePool.initial conf) events = some final) :
    final.activeConns = final.held.length + final.cache.length ∧
      (final.open.map Prod.fst).Nodup ∧ (∀ link ∈ final.open, link.2 ∈ conf.peers) ∧
      final.cache.length ≤ conf.maxCached ∧
      (conf.overflow = .reject → final.activeConns ≤ conf.maxCached) ∧
      (conf.single = true → conf.overflow = .reject →
        ((final.getPeer conf .made).held = final.held ↔
          final.held.length = conf.maxCached)) ∧
      (conf.single = false → ∀ connecting item,
        (final.getPeer conf connecting).held = item :: final.held →
          item.sockaddr = (final.nextPeer conf).1) := by
  have counted : final.Counted conf :=
    DrizzlePool.counted_step.run (fun _ _ => trivial) DrizzlePool.counted_initial ran
  have slots := counted.slots
  refine ⟨counted.active, counted.apart, counted.known, ?_, counted.limit, counted.refused_iff,
    fun multi connecting item got => DrizzlePool.getPeer_turn multi got⟩
  omega

/-- A pool of one connection: a second request is refused, and the connection of the first one
is cached. -/
theorem connections_counted_sample :
    let conf : DrizzleConf Nat := ⟨1, true, .reject, [7], by decide⟩
    ∃ final, (drizzlePool conf).run (DrizzlePool.initial conf)
        [.get .made, .get .made, .free 0 ⟨false, 200, true, 0⟩] = some final ∧
      final.cache.length = 1 ∧
      final.activeConns = final.held.length + final.cache.length := by
  intro conf
  have ran : (drizzlePool conf).run (DrizzlePool.initial conf)
      [.get .made, .get .made, .free 0 ⟨false, 200, true, 0⟩] =
      some ⟨[⟨0, 7, 1⟩], 0, 1, 1, [], 1⟩ := rfl
  exact ⟨_, ran, rfl, (connections_counted conf _ _ ran).1⟩

end HttpBackEnd.Rds
