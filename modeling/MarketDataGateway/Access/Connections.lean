import MarketDataGateway.Domain
import MarketDataGateway.Lib.SortedSet
import MarketDataGateway.Lib.Transition

/-!
# The connections of a client

`ConnectionRegistry` of `connections.py`, called by any number of gateways. The connections of a
client are a sorted set, the score being the time at which a connection expires, and the key of a
connection names its client. The cap is checked by a script. A heartbeat reads the key of the
connection and then adds the connection to the set without the script, and a release reads the key
and then removes.

`Safe` is the cap, with that a connection which has been released is no member. A heartbeat breaks
it when its connection has expired or been released since it read the key, and a release when it
finds no key for a connection that is a member: `safe_step_iff` says so of every step.
-/

namespace MarketDataGateway.Access.Connections

open Lib

/-- A client's id. -/
abbrev ClientId := String

/-- A connection's id. -/
abbrev ConnId := String

/-! ## Keys -/

/-- The keys of the registry. -/
structure Redis where
  /-- `smdg:connections:client:<client>`: connections, scored by the time at which they expire. -/
  sets : ClientId → SortedSet ConnId
  /-- When the key `smdg:connections:client:<client>` expires, if it has a time to live. -/
  setExpiry : ClientId → Option Timestamp
  /-- `smdg:connections:owner:<connection>`: the client, and when the key expires. -/
  owner : ConnId → Option (ClientId × Timestamp)

/-- No key. -/
def Redis.empty : Redis := ⟨fun _ => .empty, fun _ => none, fun _ => none⟩

namespace Redis

variable (r : Redis)

/-- Stores a client's set. The key of an empty set goes, with its time to live. -/
def putSet (client : ClientId) (set : SortedSet ConnId) : Redis :=
  { r with
    sets := Function.update r.sets client set
    setExpiry := Function.update r.setExpiry client
      (if set.zcard = 0 then none else r.setExpiry client) }

/-- `EXPIRE smdg:connections:client:<client> ttl`, at the time `clock`. -/
def expireSet (client : ClientId) (clock : Timestamp) (ttl : ℤ) : Redis :=
  if ttl ≤ 0 then r.putSet client .empty
  else if (r.sets client).zcard = 0 then r
  else { r with setExpiry := Function.update r.setExpiry client (some (clock + ttl * second)) }

/-- `ZADD smdg:connections:client:<client> score connection`. -/
def zadd (client : ClientId) (conn : ConnId) (score : Timestamp) : Redis :=
  r.putSet client ((r.sets client).zadd conn score)

/-- `ZREM smdg:connections:client:<client> connection`. -/
def zrem (client : ClientId) (conn : ConnId) : Redis := r.putSet client ((r.sets client).zrem conn)

/-- `ZREMRANGEBYSCORE smdg:connections:client:<client> -inf now`. -/
def purge (client : ClientId) (now : Timestamp) : Redis :=
  r.putSet client ((r.sets client).zremrangebyscore now)

/-- `SET smdg:connections:owner:<connection> client EX ttl`, at the time `clock`. -/
def setOwner (conn : ConnId) (client : ClientId) (clock : Timestamp) (ttl : ℤ) : Redis :=
  { r with owner := Function.update r.owner conn (some (client, clock + ttl * second)) }

/-- `DEL smdg:connections:owner:<connection>`. -/
def delOwner (conn : ConnId) : Redis := { r with owner := Function.update r.owner conn none }

/-- `EXPIRE smdg:connections:owner:<connection> ttl`, at the time `clock`. -/
def expireOwner (conn : ConnId) (clock : Timestamp) (ttl : ℤ) : Redis :=
  match r.owner conn with
  | none => r
  | some (client, _) => if ttl ≤ 0 then r.delOwner conn else r.setOwner conn client clock ttl

/-- Without the keys whose time to live is over at the time `clock`. -/
def expireKeys (clock : Timestamp) : Redis where
  sets client := if (r.setExpiry client).any (· < clock) then .empty else r.sets client
  setExpiry client := (r.setExpiry client).filter (clock ≤ ·)
  owner conn := (r.owner conn).filter fun o => clock ≤ o.2

/-- `_ACQUIRE_SCRIPT`, run at the time `clock`: the keys after it, and its reply. `SET` fails for a
time to live that is not positive. -/
def acquireScript (clock : Timestamp) (client : ClientId) (conn : ConnId)
    (now expiresAt : Timestamp) (maxConnections : ℕ) (ttl : ℤ) : Redis × Option (Bool × ℕ) :=
  let r := (r.purge client now).zadd client conn expiresAt
  let count := (r.sets client).zcard
  if maxConnections < count then (r.zrem client conn, some (false, count - 1))
  else if ttl ≤ 0 then (r, none)
  else ((r.setOwner conn client clock ttl).expireSet client clock (ttl * 2), some (true, count))

end Redis

/-! ## Calls -/

/-- The settings. -/
structure Config where
  /-- `max_connections`. -/
  maxConnections : ℕ
  /-- `subscription_ttl_seconds`. -/
  subscriptionTtlSeconds : ℤ

/-- Where a heartbeat is. -/
inductive Stage
  /-- It has read the key of the connection. -/
  | got
  /-- It has computed `expires_at`. -/
  | stamped (expiresAt : Timestamp)
  /-- It has run `ZADD`. -/
  | added
  /-- It has run `EXPIRE` on the client's key. -/
  | touched

/-- A heartbeat that has found the key of its connection. -/
structure Heartbeat where
  /-- `connection_id`. -/
  conn : ConnId
  /-- `client_id`. -/
  client : ClientId
  /-- What it has done. -/
  stage : Stage

/-- The keys, the time, and the calls under way. -/
structure State where
  /-- The keys. -/
  redis : Redis
  /-- The time. -/
  clock : Timestamp
  /-- The heartbeats under way. -/
  heartbeats : List Heartbeat
  /-- The releases under way, each with its connection and the client it has read. -/
  releases : List (ConnId × ClientId)
  /-- The connections of which a release has returned since they were last acquired. -/
  released : ConnId → Bool

/-- No key and no call. -/
def State.init : State := ⟨.empty, 0, [], [], fun _ => false⟩

/-- A step. -/
inductive Action
  /-- Time passes. -/
  | tick (d : ℕ)
  /-- `acquire`. -/
  | acquire (client : ClientId) (conn : ConnId)
  /-- `heartbeat`, up to the reply of `GET`. -/
  | heartbeat (conn : ConnId)
  /-- The next step of a heartbeat. -/
  | advance (i : ℕ)
  /-- `release`, up to the reply of `GET`. -/
  | release (conn : ConnId)
  /-- The rest of a release. -/
  | remove (i : ℕ)

/-- The script with the arguments of `acquire`. -/
def acquire (cfg : Config) (st : State) (client : ClientId) (conn : ConnId) :
    Redis × Option (Bool × ℕ) :=
  st.redis.acquireScript st.clock client conn st.clock
    (st.clock + cfg.subscriptionTtlSeconds * second) cfg.maxConnections cfg.subscriptionTtlSeconds

/-- One step. -/
def step (cfg : Config) (st : State) : Action → Option State
  | .tick d => some { st with
      clock := st.clock + d
      redis := st.redis.expireKeys (st.clock + d) }
  | .acquire client conn =>
    let result := acquire cfg st client conn
    some { st with
      redis := result.1
      released :=
        if result.2.any Prod.fst then Function.update st.released conn false else st.released }
  | .heartbeat conn =>
    match st.redis.owner conn with
    | none => some st
    | some (client, _) => some { st with heartbeats := st.heartbeats ++ [⟨conn, client, .got⟩] }
  | .advance i =>
    match st.heartbeats[i]? with
    | none => none
    | some h =>
      match h.stage with
      | .got => some { st with
          heartbeats := st.heartbeats.set i
            { h with stage := .stamped (st.clock + cfg.subscriptionTtlSeconds * second) } }
      | .stamped expiresAt => some { st with
          redis := st.redis.zadd h.client h.conn expiresAt
          heartbeats := st.heartbeats.set i { h with stage := .added } }
      | .added => some { st with
          redis := st.redis.expireSet h.client st.clock (cfg.subscriptionTtlSeconds * 2)
          heartbeats := st.heartbeats.set i { h with stage := .touched } }
      | .touched => some { st with
          redis := st.redis.expireOwner h.conn st.clock cfg.subscriptionTtlSeconds
          heartbeats := st.heartbeats.eraseIdx i }
  | .release conn =>
    match st.redis.owner conn with
    | none => some { st with released := Function.update st.released conn true }
    | some (client, _) => some { st with releases := st.releases ++ [(conn, client)] }
  | .remove i =>
    match st.releases[i]? with
    | none => none
    | some (conn, client) => some { st with
        redis := (st.redis.zrem client conn).delOwner conn
        releases := st.releases.eraseIdx i
        released := Function.update st.released conn true }

/-- The connection is a member of the client's set, and has not expired. -/
def State.Member (st : State) (client : ClientId) (conn : ConnId) : Prop :=
  (st.redis.sets client).Unexpired st.clock conn

instance (st : State) (client : ClientId) (conn : ConnId) : Decidable (st.Member client conn) :=
  inferInstanceAs (Decidable (SortedSet.Unexpired _ _ _))

/-- The number of the client's members that have not expired. -/
def State.live (st : State) (client : ClientId) : ℕ := (st.redis.sets client).live st.clock

/-- The cap holds, and a connection that has been released is no member. -/
structure Safe (cfg : Config) (st : State) : Prop where
  cap : ∀ client, st.live client ≤ cfg.maxConnections
  released : ∀ conn, st.released conn = true → ∀ client, ¬st.Member client conn

/-- A heartbeat adds a member that has not expired, or one that has not been released and for which
there is room, or adds none. A release finds no key of a connection that is no member, and otherwise
the one client of which the connection is a member. -/
def Keeps (cfg : Config) (st : State) : Action → Prop
  | .advance i => ∀ h ∈ st.heartbeats[i]?, ∀ expiresAt, h.stage = .stamped expiresAt →
      expiresAt ≤ st.clock ∨ st.Member h.client h.conn ∨
        st.live h.client < cfg.maxConnections ∧ st.released h.conn = false
  | .release conn => st.redis.owner conn = none → ∀ client, ¬st.Member client conn
  | .remove i => ∀ r ∈ st.releases[i]?, ∀ client, client ≠ r.2 → ¬st.Member client r.1
  | _ => True

/-! ## The script -/

section Script

variable {r : Redis} {cfg : Config} {st st' : State} {client k : ClientId} {conn c : ConnId}
  {clock expiresAt : Timestamp} {ttl : ℤ} {set : SortedSet ConnId}

/-- The set that is put is the client's. -/
@[simp] theorem sets_putSet_self : (r.putSet client set).sets client = set :=
  Function.update_self ..

/-- A set that is put leaves those of the other clients. -/
theorem sets_putSet_ne (h : k ≠ client) : (r.putSet client set).sets k = r.sets k :=
  Function.update_of_ne h ..

/-- `EXPIRE` leaves each set as it is, or deletes it. -/
theorem sets_expireSet (r : Redis) (client : ClientId) (clock : Timestamp)
    (ttl : ℤ) (k : ClientId) :
    (r.expireSet client clock ttl).sets k = r.sets k ∨
      (r.expireSet client clock ttl).sets k = .empty := by
  unfold Redis.expireSet
  split_ifs
  · by_cases hk : k = client
    · exact Or.inr (hk ▸ sets_putSet_self)
    · exact Or.inl (sets_putSet_ne hk)
  · exact Or.inl rfl
  · exact Or.inl rfl

/-- A deadline on a client's set leaves those of the other clients. -/
theorem sets_expireSet_ne (hk : k ≠ client) :
    (r.expireSet client clock ttl).sets k = r.sets k := by
  unfold Redis.expireSet
  split_ifs
  · exact sets_putSet_ne hk
  · rfl
  · rfl

/-- A deadline on an owner leaves the sets of the clients. -/
theorem sets_expireOwner (r : Redis) (conn : ConnId) (clock : Timestamp) (ttl : ℤ) (k : ClientId) :
    (r.expireOwner conn clock ttl).sets k = r.sets k := by
  unfold Redis.expireOwner
  split
  · rfl
  · split_ifs
    · rfl
    · rfl

/-- The set of the client when the script counts it. -/
def counted (r : Redis) (clock : Timestamp) (client : ClientId) (conn : ConnId)
    (expiresAt : Timestamp) : SortedSet ConnId :=
  ((r.sets client).zremrangebyscore clock).zadd conn expiresAt

/-- What has been purged and added to is the set that is counted. -/
theorem sets_zadd_purge (r : Redis) (clock : Timestamp) (client : ClientId) (conn : ConnId)
    (expiresAt : Timestamp) :
    ((r.purge client clock).zadd client conn expiresAt).sets client =
      counted r clock client conn expiresAt := by
  unfold Redis.zadd Redis.purge counted
  rw [sets_putSet_self, sets_putSet_self]

/-- A client's purge and its `ZADD` leave the sets of the other clients. -/
theorem sets_zadd_purge_ne (r : Redis) (clock : Timestamp) (conn : ConnId)
    (expiresAt : Timestamp) (hk : k ≠ client) :
    ((r.purge client clock).zadd client conn expiresAt).sets k = r.sets k := by
  unfold Redis.zadd Redis.purge
  rw [sets_putSet_ne hk, sets_putSet_ne hk]

/-- How `acquire` ends, and the sets after it. -/
theorem acquire_cases (cfg : Config) (st : State) (client : ClientId) (conn : ConnId) :
    let set := counted st.redis st.clock client conn
      (st.clock + cfg.subscriptionTtlSeconds * second)
    let result := acquire cfg st client conn
    (∀ k, k ≠ client → result.1.sets k = st.redis.sets k) ∧
      ((cfg.maxConnections < set.zcard ∧ result.2 = some (false, set.zcard - 1) ∧
          result.1.sets client = set.zrem conn) ∨
        (set.zcard ≤ cfg.maxConnections ∧ cfg.subscriptionTtlSeconds ≤ 0 ∧ result.2 = none ∧
          result.1.sets client = set) ∨
        (set.zcard ≤ cfg.maxConnections ∧ result.2 = some (true, set.zcard) ∧
          (result.1.sets client = set ∨ result.1.sets client = .empty))) := by
  intro set result
  have hset := sets_zadd_purge st.redis st.clock client conn
    (st.clock + cfg.subscriptionTtlSeconds * second)
  have hothers (k : ClientId) (hk : k ≠ client) := sets_zadd_purge_ne st.redis st.clock conn
    (st.clock + cfg.subscriptionTtlSeconds * second) hk
  have hresult : result = acquire cfg st client conn := rfl
  unfold acquire Redis.acquireScript at hresult
  dsimp only at hresult
  rw [hset] at hresult
  -- The script ends full, with a refused `EXPIRE`, or with the connection in the set.
  split_ifs at hresult with hfull httl
  · rw [hresult]
    refine ⟨fun k hk => (sets_putSet_ne hk).trans (hothers k hk), Or.inl ⟨hfull, rfl, ?_⟩⟩
    unfold Redis.zrem
    rw [sets_putSet_self, hset]
  · rw [hresult]
    exact ⟨hothers, Or.inr (Or.inl ⟨not_lt.1 hfull, httl, rfl, hset⟩)⟩
  · rw [hresult]
    refine ⟨fun k hk => (sets_expireSet_ne hk).trans (hothers k hk),
      Or.inr (Or.inr ⟨not_lt.1 hfull, rfl, ?_⟩)⟩
    exact (sets_expireSet _ client st.clock _ client).imp_left fun heq => heq.trans hset

/-- What has not expired of the counted set is the new connection, or one of the others. -/
theorem unexpired_counted :
    (counted r clock client conn expiresAt).Unexpired clock c ↔
      (c = conn ∧ clock < expiresAt) ∨ (c ≠ conn ∧ (r.sets client).Unexpired clock c) := by
  unfold counted
  rw [SortedSet.unexpired_zadd, SortedSet.unexpired_zremrangebyscore]

/-- What has not expired without the new connection is one of the others. -/
theorem unexpired_counted_zrem :
    ((counted r clock client conn expiresAt).zrem conn).Unexpired clock c ↔
      c ≠ conn ∧ (r.sets client).Unexpired clock c := by
  unfold counted
  rw [SortedSet.zrem_zadd, SortedSet.unexpired_zrem, SortedSet.unexpired_zremrangebyscore]

/-- No more are live without the new connection than before. -/
theorem live_counted_zrem (r : Redis) (clock : Timestamp) (client : ClientId) (conn : ConnId)
    (expiresAt : Timestamp) :
    ((counted r clock client conn expiresAt).zrem conn).live clock ≤
    (r.sets client).live clock := by
  unfold counted
  rw [SortedSet.zrem_zadd]
  exact (SortedSet.live_keep_le _ _ clock).trans (SortedSet.live_keep_le _ _ clock)

/-- A connection that the script counts as one more was no member. -/
theorem not_unexpired_of_lt
    (hlt : (r.sets client).live clock < (counted r clock client conn expiresAt).zcard) :
    ¬(r.sets client).Unexpired clock conn := by
  intro hmember
  let purged := (r.sets client).zremrangebyscore clock
  have hcounted : (counted r clock client conn expiresAt).zcard =
    (purged.zrem conn).zcard + 1 := rfl
  have hlive : (purged.zrem conn).live clock = (purged.zrem conn).zcard := by
    refine SortedSet.live_eq_zcard fun e he => ?_
    exact of_decide_eq_true (List.mem_filter.1 (List.mem_filter.1 he).1).2
  have hpurged : purged.live clock = (r.sets client).live clock := SortedSet.live_zremrangebyscore
  have hsplit := SortedSet.live_zrem purged conn clock
  rw [if_pos (SortedSet.unexpired_zremrangebyscore.2 hmember)] at hsplit
  omega

end Script

/-! ## Steps -/

section Steps

variable {cfg : Config} {st st' : State} {client k : ClientId} {conn c : ConnId} {a : Action}

/-- The members become fewer. -/
structure Shrinks (st st' : State) : Prop where
  live : ∀ client, st'.live client ≤ st.live client
  member : ∀ client conn, st'.Member client conn → st.Member client conn

/-- A state shrinks if each set stays as it is or is gone. -/
theorem Shrinks.of_sets (hclock : st'.clock = st.clock)
    (h : ∀ client, st'.redis.sets client = st.redis.sets client ∨
      st'.redis.sets client = .empty) : Shrinks st st' := by
  refine ⟨fun client => ?_, fun client conn hmember => ?_⟩
  · unfold State.live
    rcases h client with heq | heq
    · rw [heq, hclock]
    · rw [heq]
      exact Nat.zero_le _
  · unfold State.Member at hmember ⊢
    rcases h client with heq | heq
    · rw [heq, hclock] at hmember
      exact hmember
    · rw [heq] at hmember
      exact absurd hmember SortedSet.not_unexpired_empty

/-- A state that shrinks stays safe, if no released connection comes back. -/
theorem Safe.shrink (h : Safe cfg st) (hshrinks : Shrinks st st')
    (hreleased : ∀ conn, st'.released conn = true → st.released conn = true) : Safe cfg st' where
  cap client := (hshrinks.live client).trans (h.cap client)
  released conn hr client hmember :=
    h.released conn (hreleased conn hr) client (hshrinks.member client conn hmember)

/-- The members after an acquire, which are those before it and its connection. -/
theorem member_acquire (hmember : ((acquire cfg st client conn).1.sets k).Unexpired st.clock c) :
    st.Member k c ∨ c = conn ∧ (acquire cfg st client conn).2.any Prod.fst = true := by
  obtain ⟨hothers, hends⟩ := acquire_cases cfg st client conn
  by_cases hk : k = client
  · subst hk
    rcases hends with ⟨-, -, hset⟩ | ⟨-, httl, -, hset⟩ | ⟨-, hreply, hset | hset⟩
    · rw [hset, unexpired_counted_zrem] at hmember
      exact Or.inl hmember.2
    · rw [hset, unexpired_counted] at hmember
      rcases hmember with ⟨-, hlt⟩ | ⟨-, hmember⟩
      · -- The connection has expired by the time it is added.
        unfold second at hlt
        lia
      · exact Or.inl hmember
    · rw [hset, unexpired_counted] at hmember
      rcases hmember with ⟨hc, -⟩ | ⟨-, hmember⟩
      · exact Or.inr ⟨hc, by rw [hreply]; rfl⟩
      · exact Or.inl hmember
    · rw [hset] at hmember
      exact absurd hmember SortedSet.not_unexpired_empty
  · rw [hothers k hk] at hmember
    exact Or.inl hmember

/-- An acquire keeps the cap. -/
theorem live_acquire (h : Safe cfg st) (client : ClientId) (conn : ConnId) (k : ClientId) :
    ((acquire cfg st client conn).1.sets k).live st.clock ≤ cfg.maxConnections := by
  obtain ⟨hothers, hends⟩ := acquire_cases cfg st client conn
  by_cases hk : k = client
  · subst hk
    rcases hends with ⟨-, -, hset⟩ | ⟨hroom, -, -, hset⟩ | ⟨hroom, -, hset | hset⟩
    · rw [hset]
      exact (live_counted_zrem st.redis st.clock k conn _).trans (h.cap k)
    · rw [hset]
      exact (SortedSet.live_le_zcard _ _).trans hroom
    · rw [hset]
      exact (SortedSet.live_le_zcard _ _).trans hroom
    · rw [hset]
      exact Nat.zero_le _
  · rw [hothers k hk]
    exact h.cap k

/-- To acquire keeps the cap, for a connection that is counted is below it. -/
theorem Safe.step_acquire (h : Safe cfg st)
    (hs : step cfg st (.acquire client conn) = some st') : Safe cfg st' := by
  rw [← Option.some.inj hs]
  refine ⟨fun k => live_acquire h client conn k, fun c hc k hmember => ?_⟩
  dsimp only at hc
  rcases member_acquire hmember with hbefore | ⟨rfl, hreply⟩
  · refine h.released c ?_ k hbefore
    split_ifs at hc
    · by_cases heq : c = conn
      · subst heq
        rw [Function.update_self] at hc
        exact absurd hc nofun
      · rwa [Function.update_of_ne heq] at hc
    · exact hc
  · rw [if_pos hreply, Function.update_self] at hc
    exact absurd hc nofun

/-- A rejected acquire leaves the members as they are. -/
theorem Safe.rejected (h : Safe cfg st) {n : ℕ}
    (hreject : (acquire cfg st client conn).2 = some (false, n)) (k : ClientId) (c : ConnId) :
    ((acquire cfg st client conn).1.sets k).Unexpired st.clock c ↔ st.Member k c := by
  obtain ⟨hothers, hends⟩ := acquire_cases cfg st client conn
  rw [hreject] at hends
  rcases hends with ⟨hfull, -, hset⟩ | ⟨-, -, hnone, -⟩ | ⟨-, hreply, -⟩
  · by_cases hk : k = client
    · subst hk
      have hnew : ¬st.Member k conn := not_unexpired_of_lt ((h.cap k).trans_lt hfull)
      rw [hset, unexpired_counted_zrem]
      exact ⟨And.right, fun hmember => ⟨fun heq => hnew (heq ▸ hmember), hmember⟩⟩
    · rw [hothers k hk]
      rfl
  · exact absurd hnone nofun
  · exact absurd hreply (by simp)

/-- A step of a heartbeat that adds its connection. -/
theorem safe_zadd_iff (h : Safe cfg st) {expiresAt : Timestamp}
    (hredis : st'.redis = st.redis.zadd client conn expiresAt) (hclock : st'.clock = st.clock)
    (hreleased : st'.released = st.released) :
    Safe cfg st' ↔ expiresAt ≤ st.clock ∨ st.Member client conn ∨
      st.live client < cfg.maxConnections ∧ st.released conn = false := by
  have hset : st'.redis.sets client = (st.redis.sets client).zadd conn expiresAt := by
    rw [hredis]
    exact sets_putSet_self
  have hothers (k : ClientId) (hk : k ≠ client) : st'.redis.sets k = st.redis.sets k := by
    rw [hredis]
    exact sets_putSet_ne hk
  have hmember (c : ConnId) : st'.Member client c ↔
      (c = conn ∧ st.clock < expiresAt) ∨ (c ≠ conn ∧ st.Member client c) := by
    unfold State.Member
    rw [hset, hclock]
    exact SortedSet.unexpired_zadd
  have hmember_ne (k : ClientId) (hk : k ≠ client) (c : ConnId) :
      st'.Member k c ↔ st.Member k c := by
    unfold State.Member
    rw [hothers k hk, hclock]
  have hlive_ne (k : ClientId) (hk : k ≠ client) : st'.live k = st.live k := by
    unfold State.live
    rw [hothers k hk, hclock]
  rcases le_or_gt expiresAt st.clock with hpast | hfuture
  · -- It has expired by now.
    refine iff_of_true ⟨fun k => ?_, fun c hc k hm => ?_⟩ (Or.inl hpast)
    · by_cases hk : k = client
      · subst hk
        unfold State.live
        rw [hset, hclock]
        exact (SortedSet.live_zadd_le hpast).trans (h.cap k)
      · exact (hlive_ne k hk).trans_le (h.cap k)
    · rw [hreleased] at hc
      by_cases hk : k = client
      · subst hk
        rcases (hmember c).1 hm with ⟨-, hlt⟩ | ⟨-, hm⟩
        · exact absurd hlt (not_lt.2 hpast)
        · exact h.released c hc k hm
      · exact h.released c hc k ((hmember_ne k hk c).1 hm)
  · -- It is still to come, so the client has one more unless the connection was a member.
    have hlive : st'.live client = st.live client + if st.Member client conn then 0 else 1 := by
      unfold State.live
      rw [hset, hclock]
      exact SortedSet.live_zadd hfuture
    have hnew : st'.Member client conn := (hmember conn).2 (Or.inl ⟨rfl, hfuture⟩)
    have hafter (c : ConnId) (k : ClientId) (hm : st'.Member k c) : st.Member k c ∨ c = conn := by
      by_cases hk : k = client
      · subst hk
        rcases (hmember c).1 hm with ⟨hc, -⟩ | ⟨-, hm⟩
        · exact Or.inr hc
        · exact Or.inl hm
      · exact Or.inl ((hmember_ne k hk c).1 hm)
    constructor
    · -- What the cap says of the new set is the condition.
      intro hsafe
      by_cases hm : st.Member client conn
      · exact Or.inr (Or.inl hm)
      · have hroom := hsafe.cap client
        rw [hlive, if_neg hm] at hroom
        have hfree : st.released conn = false := by
          rw [← hreleased, Bool.eq_false_iff]
          exact fun hgone => hsafe.released conn hgone client hnew
        exact Or.inr (Or.inr ⟨hroom, hfree⟩)
    · -- A member that comes back is not one that has been released.
      intro hkeeps
      have hfree : st.released conn = false := by
        rcases hkeeps with hpast | hm | ⟨-, hfree⟩
        · exact absurd hpast (not_le.2 hfuture)
        · exact Bool.eq_false_iff.2 fun hgone => h.released conn hgone client hm
        · exact hfree
      refine ⟨fun k => ?_, fun c hc k hm => ?_⟩
      · by_cases hk : k = client
        · subst hk
          have hcap := h.cap k
          rw [hlive]
          split
          · exact hcap
          · next hm =>
            rcases hkeeps with hpast | hm' | ⟨hroom, -⟩
            · exact absurd hpast (not_le.2 hfuture)
            · exact absurd hm' hm
            · exact hroom
        · exact (hlive_ne k hk).trans_le (h.cap k)
      · rw [hreleased] at hc
        rcases hafter c k hm with hm | rfl
        · exact h.released c hc k hm
        · exact absurd (hfree.symm.trans hc) nofun

/-- Keys that expire shrink a state. -/
theorem shrinks_expireKeys (st : State) (d : ℕ) :
    Shrinks st { st with clock := st.clock + d, redis := st.redis.expireKeys (st.clock + d) } := by
  have hle : st.clock ≤ st.clock + d := Int.le_add_of_nonneg_right (Int.natCast_nonneg d)
  refine ⟨fun k => ?_, fun k c hm => ?_⟩
  · show (if _ then SortedSet.empty else st.redis.sets k).live (st.clock + d) ≤ _
    split
    · exact Nat.zero_le _
    · exact SortedSet.live_le_of_le _ hle
  · have hm' : (if _ then SortedSet.empty else st.redis.sets k).Unexpired (st.clock + d) c := hm
    split at hm'
    · exact absurd hm' SortedSet.not_unexpired_empty
    · exact hm'.of_le hle

/-- A release that returns. -/
theorem safe_released_iff (h : Safe cfg st) (hshrinks : Shrinks st st')
    (hreleased : st'.released = Function.update st.released conn true) :
    Safe cfg st' ↔ ∀ client, ¬st'.Member client conn := by
  constructor
  · intro hsafe
    exact hsafe.released conn (by rw [hreleased, Function.update_self])
  · intro hgone
    refine ⟨fun k => (hshrinks.live k).trans (h.cap k), fun c hc k hm => ?_⟩
    by_cases heq : c = conn
    · exact hgone k (heq ▸ hm)
    · rw [hreleased, Function.update_of_ne heq] at hc
      exact h.released c hc k (hshrinks.member k c hm)

/-- When a heartbeat's step keeps what is needed. -/
theorem keeps_advance {i : ℕ} {hb : Heartbeat} (hi : st.heartbeats[i]? = some hb) :
    Keeps cfg st (.advance i) ↔ ∀ expiresAt, hb.stage = .stamped expiresAt →
      expiresAt ≤ st.clock ∨ st.Member hb.client hb.conn ∨
        st.live hb.client < cfg.maxConnections ∧ st.released hb.conn = false := by
  unfold Keeps
  dsimp only
  rw [hi]
  simp

/-- A step keeps the bounds exactly if it meets the condition. -/
theorem safe_step_iff (h : Safe cfg st) (hs : step cfg st a = some st') :
    Safe cfg st' ↔ Keeps cfg st a := by
  -- Only a heartbeat's `ZADD` and the steps of a release can break what is safe.
  cases a with
  | tick d =>
    obtain rfl := Option.some.inj hs
    exact iff_of_true (h.shrink (shrinks_expireKeys st d) fun _ hc => hc) trivial
  | acquire client conn => exact iff_of_true (h.step_acquire hs) trivial
  | heartbeat conn =>
    unfold step at hs
    dsimp only at hs
    refine iff_of_true ?_ trivial
    split at hs
    · exact Option.some.inj hs ▸ h
    · rw [← Option.some.inj hs]
      exact ⟨h.cap, h.released⟩
  | advance i =>
    unfold step at hs
    dsimp only at hs
    split at hs
    · exact absurd hs nofun
    · next hb hi =>
      rw [keeps_advance hi]
      split at hs
      · next hstage =>
        rw [← Option.some.inj hs]
        exact iff_of_true ⟨h.cap, h.released⟩ fun e he => absurd (hstage.symm.trans he) nofun
      · next expiresAt hstage =>
        obtain rfl := Option.some.inj hs
        have hadd : Safe cfg { st with
              redis := st.redis.zadd hb.client hb.conn expiresAt
              heartbeats := st.heartbeats.set i { hb with stage := .added } } ↔
            expiresAt ≤ st.clock ∨ st.Member hb.client hb.conn ∨
              st.live hb.client < cfg.maxConnections ∧ st.released hb.conn = false :=
          safe_zadd_iff h rfl rfl rfl
        rw [hadd, hstage]
        exact ⟨fun hkeeps e he => Stage.stamped.inj he ▸ hkeeps, fun hkeeps => hkeeps expiresAt rfl⟩
      · next hstage =>
        obtain rfl := Option.some.inj hs
        have hshrinks : Shrinks st { st with
            redis := st.redis.expireSet hb.client st.clock (cfg.subscriptionTtlSeconds * 2)
            heartbeats := st.heartbeats.set i { hb with stage := .touched } } :=
          Shrinks.of_sets rfl fun k => sets_expireSet st.redis hb.client st.clock _ k
        exact iff_of_true (h.shrink hshrinks fun _ hc => hc)
          fun e he => absurd (hstage.symm.trans he) nofun
      · next hstage =>
        obtain rfl := Option.some.inj hs
        have hshrinks : Shrinks st { st with
            redis := st.redis.expireOwner hb.conn st.clock cfg.subscriptionTtlSeconds
            heartbeats := st.heartbeats.eraseIdx i } :=
          Shrinks.of_sets rfl fun k => Or.inl (sets_expireOwner st.redis hb.conn st.clock _ k)
        exact iff_of_true (h.shrink hshrinks fun _ hc => hc)
          fun e he => absurd (hstage.symm.trans he) nofun
  | release conn =>
    -- A connection without an owner is released at once, while it may still be a member.
    unfold step at hs
    dsimp only at hs
    split at hs
    · next hnone =>
      obtain rfl := Option.some.inj hs
      have hshrinks : Shrinks st { st with released := Function.update st.released conn true } :=
        Shrinks.of_sets rfl fun k => Or.inl rfl
      rw [safe_released_iff h hshrinks rfl]
      exact ⟨fun hgone _ => hgone, fun hgone => hgone hnone⟩
    · next howner =>
      rw [← Option.some.inj hs]
      refine iff_of_true ⟨h.cap, h.released⟩ fun hnone => ?_
      rw [howner] at hnone
      exact absurd hnone nofun
  | remove i =>
    -- The release removes the connection of the client that it knows, and it is a member of no
    -- other set if the condition holds.
    unfold step at hs
    dsimp only at hs
    split at hs
    · exact absurd hs nofun
    · next conn client hi =>
      obtain rfl := Option.some.inj hs
      have hself : ((st.redis.zrem client conn).delOwner conn).sets client =
          (st.redis.sets client).zrem conn := sets_putSet_self
      have hothers (k : ClientId) (hk : k ≠ client) :
          ((st.redis.zrem client conn).delOwner conn).sets k = st.redis.sets k := sets_putSet_ne hk
      have hshrinks : Shrinks st { st with
          redis := (st.redis.zrem client conn).delOwner conn
          releases := st.releases.eraseIdx i
          released := Function.update st.released conn true } := by
        refine ⟨fun k => ?_, fun k c hm => ?_⟩
        · unfold State.live
          by_cases hk : k = client
          · subst hk
            rw [hself]
            exact SortedSet.live_keep_le _ _ _
          · rw [hothers k hk]
        · unfold State.Member at hm ⊢
          by_cases hk : k = client
          · subst hk
            rw [hself] at hm
            exact hm.of_keep
          · rw [hothers k hk] at hm
            exact hm
      rw [safe_released_iff h hshrinks rfl]
      unfold Keeps State.Member
      dsimp only
      rw [hi]
      constructor
      · intro hgone r hr k hk
        obtain rfl := Option.some.inj hr
        rw [← hothers k hk]
        exact hgone k
      · intro hkeeps k hm
        by_cases hk : k = client
        · subst hk
          rw [hself, SortedSet.unexpired_zrem] at hm
          exact hm.1 rfl
        · rw [hothers k hk] at hm
          exact hkeeps (conn, client) rfl k hk hm

end Steps

/-! ## The law, and how it fails -/

/-- The cap holds at the start. -/
theorem safe_init (cfg : Config) : Safe cfg .init where
  cap _ := Nat.zero_le _
  released _ hc := absurd hc nofun

/-- In every run whose steps meet the condition, the cap holds and a released connection is no
member, a rejected acquire leaves the members as they are, and another step keeps the bounds exactly
if it meets the condition. -/
theorem safe_of_keeps (cfg : Config) (st : State) (h : Path (step cfg) (Keeps cfg) .init st) :
    Safe cfg st ∧
      (∀ client conn n, (acquire cfg st client conn).2 = some (false, n) → ∀ k c,
        ((acquire cfg st client conn).1.sets k).Unexpired st.clock c ↔ st.Member k c) ∧
      ∀ a st', step cfg st a = some st' → (Safe cfg st' ↔ Keeps cfg st a) := by
  have hsafe : Safe cfg st := h.invariant (Safe cfg) (safe_init cfg) fun _ _ _ hinv hok hs =>
    (safe_step_iff hinv hs).2 hok
  exact ⟨hsafe, fun _ _ _ hreject k c => hsafe.rejected hreject k c,
    fun _ _ hs => safe_step_iff hsafe hs⟩

/-- A heartbeat of a member, after which the client has no room. -/
theorem safe_of_keeps_heartbeat : ∃ st,
    (Path (step ⟨1, 60⟩) (Keeps ⟨1, 60⟩) .init st ∧ st.Member "a" "1" ∧
        (acquire ⟨1, 60⟩ st "a" "2").2 = some (false, 1)) ∧
      Safe ⟨1, 60⟩ st ∧
      (∀ client conn n, (acquire ⟨1, 60⟩ st client conn).2 = some (false, n) → ∀ k c,
        ((acquire ⟨1, 60⟩ st client conn).1.sets k).Unexpired st.clock c ↔ st.Member k c) ∧
      ∀ a st', step ⟨1, 60⟩ st a = some st' → (Safe ⟨1, 60⟩ st' ↔ Keeps ⟨1, 60⟩ st a) := by
  have hacquired : Path (step ⟨1, 60⟩) (Keeps ⟨1, 60⟩) .init _ :=
    Lib.Path.refl.tail (Action.acquire "a" "1") trivial rfl
  have hread : Path (step ⟨1, 60⟩) (Keeps ⟨1, 60⟩) .init _ :=
    hacquired.tail (Action.heartbeat "1") trivial rfl
  have hgot : ∀ e, (⟨"1", "a", .got⟩ : Heartbeat).stage = .stamped e → False := nofun
  have hstamped : Path (step ⟨1, 60⟩) (Keeps ⟨1, 60⟩) .init _ :=
    hread.tail (Action.advance 0) ((keeps_advance rfl).2 fun e he => (hgot e he).elim) rfl
  have hadded : Path (step ⟨1, 60⟩) (Keeps ⟨1, 60⟩) .init _ := hstamped.tail (Action.advance 0)
    ((keeps_advance rfl).2 fun _ _ => Or.inr (Or.inl (by decide))) rfl
  exact ⟨_, ⟨hadded, by decide, by decide⟩, safe_of_keeps ⟨1, 60⟩ _ hadded⟩

/-- A heartbeat adds a connection that has expired since it read the key, beyond the cap, and one
that has been released since. -/
theorem exists_not_safe :
    (∃ st, Path (step ⟨1, 60⟩) anyStep .init st ∧ st.live "a" = 2) ∧
      ∃ st, Path (step ⟨1, 60⟩) anyStep .init st ∧ st.released "1" = true ∧ st.Member "a" "1" := by
  constructor
  · exact Path.exists_of_exec (step ⟨1, 60⟩) anyStep .init
      [.acquire "a" "1", .heartbeat "1", .tick 60000000, .acquire "a" "2", .advance 0, .advance 0]
      (fun st => st.live "a" = 2) (by decide)
  · exact Path.exists_of_exec (step ⟨1, 60⟩) anyStep .init
      [.acquire "a" "1", .heartbeat "1", .release "1", .remove 0, .advance 0, .advance 0]
      (fun st => st.released "1" = true ∧ st.Member "a" "1") (by decide)

end MarketDataGateway.Access.Connections
