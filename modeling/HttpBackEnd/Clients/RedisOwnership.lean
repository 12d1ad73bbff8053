import HttpBackEnd.Clients.RedisInstance

/-! # Ownership of contexts and replies

`CRedisInstance` owns its handles linearly only along calls it was never meant for alone.
`connect` overwrites a context that is still held, and `AUTH` without an answer is
dereferenced; the reply of a `SET` is dropped; `getString` frees its reply and keeps the
pointer, which the destructor then frees again. What is left is the discipline below, and
it is exact: the first call outside it loses a handle, leaves a dead one in a member, or
ends the process.
-/

namespace HttpBackEnd.Clients

variable {client : RedisInstance}

/-- The handles of an instance are owned linearly: none has been released twice, the two
members are null or live, and after the destructor everything obtained has been released,
once. -/
structure Linear (client : RedisInstance) : Prop where
  contextsOnce : client.contexts.NoDoubleRelease
  repliesOnce : client.replies.NoDoubleRelease
  mConnectLive : ∀ context, client.mConnect = some context → client.contexts.Live context
  mReplyLive : ∀ reply, client.mReply = some reply → client.replies.Live reply
  contextsEnd : client.disconnect.contexts.NoDoubleRelease ∧
    client.disconnect.contexts.AllReleased
  repliesEnd : client.disconnect.replies.NoDoubleRelease ∧ client.disconnect.replies.AllReleased

/-- The call returns, and leaves the handles owned linearly. -/
def StaysLinear (client : RedisInstance) (call : RedisCall) : Prop :=
  ∃ next, redisInstance.step client call = some next ∧ Linear next

/-- The calls that keep the handles owned: a connection is opened only when none is held
and is not left without an answer to `auth`, no `SET` is answered, and no value is
read. -/
def Admitted (client : RedisInstance) : RedisCall → Prop
  | .connect host port userPwd opened auth =>
      (host = [] ∨ port = 0 ∨ userPwd = []) ∨
        client.mConnect = none ∧ (opened = some false → auth ≠ none)
  | .setString key _ reply => client.mConnect = none ∨ key = [] ∨ reply = none
  | .getString _ _ => False
  | .disconnect => True

/-- The invariant of admitted calls: the context held is the one in `mConnect`, and no
reply is held. -/
structure Owned (client : RedisInstance) : Prop where
  contexts : client.contexts.Owns client.mConnect.toList
  mReply : client.mReply = none
  replies : client.replies.Owns []

theorem owned_initial : Owned {} := ⟨Ledger.owns_empty, rfl, Ledger.owns_empty⟩

/-! ## Admitted calls keep the invariant -/

theorem Owned.disconnect (owned : Owned client) : Owned client.disconnect := by
  obtain ⟨contexts, mReply, replies⟩ := owned
  refine ⟨?_, rfl, ?_⟩
  · change (client.disconnect).contexts.Owns []
    unfold RedisInstance.disconnect
    cases held : client.mConnect with
    | none =>
        rw [held] at contexts
        exact contexts
    | some context =>
        rw [held] at contexts
        exact contexts.release
  · unfold RedisInstance.disconnect
    rw [mReply]
    exact replies

theorem Owned.linear (owned : Owned client) : Linear client where
  contextsOnce := owned.contexts.noDoubleRelease
  repliesOnce := owned.replies.noDoubleRelease
  mConnectLive context held := owned.contexts.live (by rw [held]; exact List.mem_singleton_self _)
  mReplyLive reply held := by
    rw [owned.mReply] at held
    cases held
  contextsEnd := ⟨owned.disconnect.contexts.noDoubleRelease, owned.disconnect.contexts.allReleased⟩
  repliesEnd := ⟨owned.disconnect.replies.noDoubleRelease, owned.disconnect.replies.allReleased⟩

theorem Owned.keepContext (owned : Owned client) (free : client.mConnect = none) :
    Owned client.keepContext := by
  have contexts := owned.contexts
  rw [free] at contexts
  exact ⟨contexts.issue, owned.mReply, owned.replies⟩

/-- A reply that is kept, freed and forgotten leaves nothing behind. -/
theorem Owned.answered (owned : Owned client) :
    Owned { client.keepReply.freeReply with mReply := none } :=
  ⟨owned.contexts, rfl, owned.replies.issue.release⟩

/-- A reply that is kept until the instance disconnects is freed there. -/
theorem Owned.refused (owned : Owned client) : Owned client.keepReply.disconnect := by
  have contexts := owned.disconnect.contexts
  exact ⟨contexts, rfl, owned.replies.issue.release⟩

/-- What `connect` comes to with arguments it does not refuse. -/
theorem redisStep_connect {host userPwd : Bytes} {port : Int16} (opened : Option Bool)
    (auth : Option Reply) (accepted : ¬ (host = [] ∨ port = 0 ∨ userPwd = [])) :
    redisInstance.step client (.connect host port userPwd opened auth) =
      match opened, auth with
      | none, _ => some { client with mConnect := none }
      | some true, _ => some client.keepContext
      | some false, none => none
      | some false, some (.error _) => some client.keepContext.keepReply.disconnect
      | some false, some _ =>
          some { client.keepContext.keepReply.freeReply with mReply := none } := by
  have call : RedisInstance.connectCall host port userPwd = some (cstring host, port.toInt) := by
    unfold RedisInstance.connectCall
    simp only [not_or] at accepted
    simp [accepted.1, accepted.2.1, accepted.2.2]
  change Option.map _ (client.connect _ _ host port userPwd ()) = _
  unfold RedisInstance.connect
  rw [call]
  rcases opened with _ | _ | _
  · rfl
  · rcases auth with _ | _ | _ | _ | _ <;> rfl
  · rfl

theorem redisStep_connect_refused {host userPwd : Bytes} {port : Int16} (opened : Option Bool)
    (auth : Option Reply) (refused : host = [] ∨ port = 0 ∨ userPwd = []) :
    redisInstance.step client (.connect host port userPwd opened auth) = some client := by
  have call : RedisInstance.connectCall host port userPwd = none := by
    unfold RedisInstance.connectCall
    rcases refused with rfl | rfl | rfl <;> simp
  change Option.map _ (client.connect _ _ host port userPwd ()) = _
  unfold RedisInstance.connect
  rw [call]
  rfl

theorem admitted_step (owned : Owned client) {call : RedisCall} (admitted : Admitted client call) :
    ∃ next, redisInstance.step client call = some next ∧ Owned next := by
  cases call with
  | connect host port userPwd opened auth =>
      by_cases refused : host = [] ∨ port = 0 ∨ userPwd = []
      · exact ⟨client, redisStep_connect_refused opened auth refused, owned⟩
      · obtain ⟨free, answered⟩ := admitted.resolve_left refused
        have kept := owned.keepContext free
        rw [redisStep_connect opened auth refused]
        rcases opened with _ | _ | _
        · have contexts := owned.contexts
          rw [free] at contexts
          exact ⟨_, rfl, contexts, owned.mReply, owned.replies⟩
        · rcases auth with _ | _ | _ | _ | _
          · exact absurd rfl (answered rfl)
          · exact ⟨_, rfl, kept.answered⟩
          · exact ⟨_, rfl, kept.refused⟩
          · exact ⟨_, rfl, kept.answered⟩
          · exact ⟨_, rfl, kept.answered⟩
        · exact ⟨_, rfl, kept⟩
  | setString key value reply =>
      refine ⟨client, ?_, owned⟩
      change some _ = _
      unfold RedisInstance.setString
      cases held : client.mConnect with
      | none => rfl
      | some context =>
          rcases admitted with free | rfl | rfl
          · rw [held] at free
            cases free
          · rfl
          · simp only
            split <;> rfl
  | getString key reply => exact absurd admitted id
  | disconnect => exact ⟨_, rfl, owned.disconnect⟩

/-! ## Every other call breaks it -/

theorem disconnect_contexts_issued (client : RedisInstance) :
    client.disconnect.contexts.issued = client.contexts.issued := by
  unfold RedisInstance.disconnect
  cases client.mConnect <;> rfl

/-- A context that was held and has been overwritten is not released any more. -/
theorem not_linear_of_overwritten {next : RedisInstance} {context : Nat} (owned : Owned client)
    (held : client.mConnect = some context) (later : client.contexts.issued ≤ next.contexts.issued)
    (released : next.disconnect.contexts.released ⊆
      client.contexts.released ++ [client.contexts.issued]) : ¬ Linear next := by
  intro linear
  obtain ⟨issued, kept⟩ := owned.linear.mConnectLive context held
  have member := linear.contextsEnd.2 context
    (by rw [disconnect_contexts_issued]; omega)
  rcases List.mem_append.mp (released member) with before | fresh
  · exact kept before
  · have same := List.mem_singleton.mp fresh
    omega

/-- `connect` on an instance that holds a context loses it, whatever hiredis does. -/
theorem connect_overwrites {host userPwd : Bytes} {port : Int16} {opened : Option Bool}
    {auth : Option Reply} {context : Nat} {next : RedisInstance} (owned : Owned client)
    (held : client.mConnect = some context)
    (accepted : ¬ (host = [] ∨ port = 0 ∨ userPwd = []))
    (stepped : redisInstance.step client (.connect host port userPwd opened auth) = some next) :
    ¬ Linear next := by
  rw [redisStep_connect opened auth accepted] at stepped
  rcases opened with _ | _ | _
  · cases stepped
    exact not_linear_of_overwritten owned held (Nat.le_refl _) (List.subset_append_left _ _)
  · rcases auth with _ | _ | _ | _ | _
    · cases stepped
    all_goals
      cases stepped
      exact not_linear_of_overwritten owned held (Nat.le_succ _) (List.Subset.refl _)
  · cases stepped
    exact not_linear_of_overwritten owned held (Nat.le_succ _) (List.Subset.refl _)

/-- The reply of a `SET` is not released any more. -/
theorem setString_drops {key value : Bytes} {reply : Reply} {context : Nat} {next : RedisInstance}
    (owned : Owned client) (held : client.mConnect = some context) (present : key ≠ [])
    (stepped : redisInstance.step client (.setString key value (some reply)) = some next) :
    ¬ Linear next := by
  have dropped : next = { client with replies := client.replies.issue } := by
    change some _ = _ at stepped
    unfold RedisInstance.setString at stepped
    rw [held] at stepped
    simpa [present, held] using stepped.symm
  intro linear
  have ended : next.disconnect.replies = client.replies.issue := by
    rw [dropped]
    simp only [RedisInstance.disconnect, owned.mReply]
  have released := linear.repliesEnd.2 client.replies.issued
  rw [ended] at released
  have member : client.replies.issued ∈ client.replies.released :=
    released (Nat.lt_succ_self _)
  have range := owned.replies.subset (List.mem_append_right [] member)
  exact absurd (List.mem_range.mp range) (Nat.lt_irrefl _)

/-- `getString` ends the process, or it leaves a reply in `mReply` that it has freed. -/
theorem getString_dangles {key : Bytes} {reply : Option Reply} {next : RedisInstance}
    (stepped : redisInstance.step client (.getString key reply) = some next) : ¬ Linear next := by
  change Option.map _ (client.getString _ key ()) = _ at stepped
  unfold RedisInstance.getString at stepped
  cases held : client.mConnect with
  | none =>
      rw [held] at stepped
      cases stepped
  | some context =>
      rw [held] at stepped
      cases reply with
      | none => cases stepped
      | some reply =>
          cases read : reply.str with
          | none =>
              simp only [read] at stepped
              cases stepped
          | some str =>
              simp only [read] at stepped
              cases stepped
              intro linear
              have live := linear.mReplyLive client.replies.issued rfl
              exact live.2 (List.mem_append_right _ (List.mem_singleton_self _))

theorem staysLinear_iff (owned : Owned client) (call : RedisCall) :
    StaysLinear client call ↔ Admitted client call := by
  constructor
  · rintro ⟨next, stepped, linear⟩
    cases call with
    | connect host port userPwd opened auth =>
        by_cases refused : host = [] ∨ port = 0 ∨ userPwd = []
        · exact .inl refused
        · refine .inr ⟨?_, ?_⟩
          · cases held : client.mConnect with
            | none => rfl
            | some context =>
                exact absurd linear (connect_overwrites owned held refused stepped)
          · rintro rfl rfl
            rw [redisStep_connect _ _ refused] at stepped
            cases stepped
    | setString key value reply =>
        cases held : client.mConnect with
        | none => exact .inl held
        | some context =>
            refine .inr ?_
            by_cases empty : key = []
            · exact .inl empty
            · cases reply with
              | none => exact .inr rfl
              | some reply => exact absurd linear (setString_drops owned held empty stepped)
    | getString key reply => exact absurd linear (getString_dangles stepped)
    | disconnect => trivial
  · intro admitted
    obtain ⟨next, stepped, owned⟩ := admitted_step owned admitted
    exact ⟨next, stepped, owned.linear⟩

/-- **When the handles are owned linearly.** Along every sequence of calls on a new
instance, with every outcome of hiredis: every call returns and leaves the handles owned
linearly, at each point where the destructor may follow, exactly when every call is
admitted. -/
theorem redis_handles_linear_iff (calls : List RedisCall) :
    (Linear {} ∧ redisInstance.Along StaysLinear {} calls) ↔
      redisInstance.Along Admitted {} calls := by
  have same : ∀ client call, Owned client →
      (StaysLinear client call ↔ Admitted client call) :=
    fun _ call owned => staysLinear_iff owned call
  have steps : ∀ client call, Owned client → Admitted client call →
      ∃ next, redisInstance.step client call = some next ∧ Owned next :=
    fun _ _ owned admitted => admitted_step owned admitted
  rw [redisInstance.along_congr_of_step same steps owned_initial calls]
  exact and_iff_right owned_initial.linear

/-- A value is read once over a good connection. -/
theorem redis_handle_dangles :
    ¬ ∀ calls, Linear {} ∧ redisInstance.Along StaysLinear {} calls := by
  intro always
  have stays := (always [.connect (ascii "localhost") 6379 (ascii "123456") (some false)
    (some (.status (ascii "OK"))), .getString (ascii "k") (some (.string (ascii "v")))]).2.2 _ rfl
  obtain ⟨next, stepped, linear⟩ := stays.1
  exact getString_dangles stepped linear

end HttpBackEnd.Clients
