import MarketDataGateway.Registry.Step

/-!
# An unsubscribed connection is gone, but for stale heartbeats

The unsubscribe script removes the connection from the symbol's set, and the symbol from the
connection's, so that a heartbeat that lists the connection's symbols afterwards does not add the
connection again. A heartbeat that has listed them before, and has not yet added the connection to
the symbol's set, does.

`Gone` is the invariant: after an unsubscribe script, and until a subscribe script, the connection
is not in the symbol's set, the symbol is not in the connection's, and no heartbeat is about to add
the one to the other. Every step keeps it but an unsubscribe script that overtakes a heartbeat.
-/

namespace MarketDataGateway.Registry

open Lib

/-- A heartbeat of the connection has listed the symbol, and has not yet added the connection. -/
def adding (conn : ConnId) (s : Symbol) : Pc → Prop
  | .hbReply c symbols => c = conn ∧ s ∈ symbols
  | .hbZadd c _ symbol rest => c = conn ∧ (s = symbol ∨ s ∈ rest)
  | .hbExpire c _ _ rest => c = conn ∧ s ∈ rest
  | _ => False

instance (conn : ConnId) (s : Symbol) (pc : Pc) : Decidable (adding conn s pc) := by
  unfold adding
  rcases pc with _ | _ <;> infer_instance

/-- What an unsubscribe script has removed stays away. -/
def Gone (r : Redis) (calls : List Call) (unsubscribed : ConnId → Symbol → Bool) : Prop :=
  ∀ conn s, unsubscribed conn s = true →
    conn ∉ r.sets s ∧ s ∉ r.conns conn ∧ ∀ call ∈ calls, ¬ adding conn s call.pc

/-- No unsubscribe script overtakes a heartbeat that is about to add the connection. -/
def NoStaleHeartbeat (st : State) : Label → Prop
  | .run i _ _ =>
    match st.calls[i]? with
    | some ⟨_, .unsubEval c symbol⟩ => ∀ call ∈ st.calls, ¬ adding c.conn symbol call.pc
    | _ => True
  | _ => True

instance (st : State) : (a : Label) → Decidable (NoStaleHeartbeat st a)
  | .tick _ => inferInstanceAs (Decidable True)
  | .start _ _ => inferInstanceAs (Decidable True)
  | .orphan _ => inferInstanceAs (Decidable True)
  | .run i _ _ => by
    dsimp only [NoStaleHeartbeat]
    rcases st.calls[i]? with _ | ⟨_, _ | _⟩ <;> infer_instance

/-- No connection is in the set of a symbol after its unsubscribe script for the symbol, and until
its next subscribe script. -/
def NoResurrection (st : State) : Prop :=
  ∀ conn s, st.unsubscribed conn s = true → conn ∉ st.redis.sets s

section Step

variable {r r' : Redis} {calls : List Call} {flags flags' : ConnId → Symbol → Bool} {i gw : ℕ}
  {call : Call} {pc : Pc} {cfg : Settings} {st st' : State}

/-- The invariant is kept by a step of the call at `i` that adds to the sets only what the call was
about to add, and after which the call is about to add only what it was about to add before, or
what it has listed, unless a subscribe script is what adds. -/
theorem Gone.set (h : Gone r calls flags) (hi : calls[i]? = some call)
    (hflags : ∀ c s, flags' c s = true → flags c s = true)
    (hset : ∀ c s, c ∈ r'.sets s → c ∈ r.sets s ∨ adding c s call.pc ∨ flags' c s = false)
    (hconn : ∀ c s, s ∈ r'.conns c → s ∈ r.conns c ∨ flags' c s = false)
    (hpc : ∀ c s, adding c s pc → adding c s call.pc ∨ s ∈ r.conns c) :
    Gone r' (calls.set i ⟨gw, pc⟩) flags' := by
  intro c s hflag
  obtain ⟨hset', hconn', hcalls⟩ := h c s (hflags c s hflag)
  have hcall : ¬ adding c s call.pc := hcalls call (List.mem_of_getElem? hi)
  refine ⟨fun hmem => ?_, fun hmem => ?_, forall_mem_set hcalls fun hadd => ?_⟩
  · rcases hset c s hmem with hmem | hadd | hfalse
    · exact hset' hmem
    · exact hcall hadd
    · rw [hflag] at hfalse
      cases hfalse
  · rcases hconn c s hmem with hmem | hfalse
    · exact hconn' hmem
    · rw [hflag] at hfalse
      cases hfalse
  · rcases hpc c s hadd with hadd | hmem
    · exact hcall hadd
    · exact hconn' hmem

/-- The invariant is kept by a step of the call at `i` that adds nothing. -/
theorem Gone.set_of_subset (h : Gone r calls flags) (hi : calls[i]? = some call)
    (hset : ∀ c s, c ∈ r'.sets s → c ∈ r.sets s) (hconn : ∀ c s, s ∈ r'.conns c → s ∈ r.conns c)
    (hpc : ∀ c s, adding c s pc → adding c s call.pc ∨ s ∈ r.conns c) :
    Gone r' (calls.set i ⟨gw, pc⟩) flags :=
  h.set hi (fun _ _ h => h) (fun c s hmem => Or.inl (hset c s hmem))
    (fun c s hmem => Or.inl (hconn c s hmem)) hpc

/-- The invariant is kept by what adds nothing, and by calls that are not about to add. -/
theorem Gone.mono {calls' : List Call} (h : Gone r calls flags)
    (hset : ∀ c s, c ∈ r'.sets s → c ∈ r.sets s) (hconn : ∀ c s, s ∈ r'.conns c → s ∈ r.conns c)
    (hcalls : ∀ call ∈ calls', call ∈ calls ∨ ∀ c s, ¬ adding c s call.pc) :
    Gone r' calls' flags := by
  intro c s hflag
  obtain ⟨hset', hconn', hcalls'⟩ := h c s hflag
  refine ⟨fun hmem => hset' (hset c s hmem), fun hmem => hconn' (hconn c s hmem),
    fun call hcall => ?_⟩
  rcases hcalls call hcall with hcall | hno
  · exact hcalls' call hcall
  · exact hno c s

/-- The invariant is kept by `_schedule_release`. -/
theorem Gone.scheduleRelease (h : Gone st.redis st.calls st.unsubscribed) (gw : ℕ)
    (symbol : Symbol) :
    Gone st.redis (st.scheduleRelease gw symbol).calls st.unsubscribed := by
  refine h.mono (fun _ _ h => h) (fun _ _ h => h) fun call hcall => ?_
  rw [scheduleRelease_calls] at hcall
  split_ifs at hcall
  · exact Or.inl hcall
  · rcases List.mem_append.1 hcall with hcall | hcall
    · exact Or.inl hcall
    · rw [List.mem_singleton.1 hcall]
      exact Or.inr fun _ _ hadd => hadd

/-- The invariant is kept by a cancellation. -/
theorem Gone.cancelRelease (h : Gone st.redis st.calls st.unsubscribed) (gw : ℕ)
    (symbol : Symbol) (sent : Bool) :
    Gone st.redis (st.cancelRelease gw symbol sent).calls st.unsubscribed := by
  rcases cancelRelease_calls st gw symbol sent with heq | ⟨j, call, -, hj, heq⟩
  · rw [heq]
    exact h
  · rw [heq]
    refine h.set_of_subset hj (fun _ _ h => h) (fun _ _ h => h) fun c s hadd => Or.inl ?_
    revert hadd
    cases call.pc <;> simp [Pc.cancel, adding]

/-- A client call's next program counter is not about to add. -/
theorem not_adding_subNext (clock : Timestamp) (c : ClientCall) (conn : ConnId) (s : Symbol) :
    ¬ adding conn s (subNext clock c) := by
  unfold subNext metricsStart
  split <;> exact id

/-- After an unsubscribe script no member is added. -/
theorem not_adding_unsubNext (clock : Timestamp) (c : ClientCall) (conn : ConnId) (s : Symbol) :
    ¬ adding conn s (unsubNext clock c) := by
  unfold unsubNext metricsStart
  split <;> exact id

/-- After the metrics no member is added. -/
theorem not_adding_metricsNext (m : MetricsCall) (conn : ConnId) (s : Symbol) :
    ¬ adding conn s (metricsNext m) := by
  unfold metricsNext
  split
  · exact id
  · split_ifs
    · split <;> exact id
    · exact id

/-- After a cleanup script no member is added. -/
theorem not_adding_cleanNext (clock : Timestamp) (c : CleanupCall) (conn : ConnId) (s : Symbol) :
    ¬ adding conn s (cleanNext clock c) := by
  unfold cleanNext metricsStart
  split
  · exact id
  · split_ifs <;> exact id

/-- The pipeline is about to add what is left of it. -/
theorem mem_of_adding_hbNext {conn c : ConnId} {s : Symbol} {expiresAt : Timestamp}
    {symbols : List Symbol} (h : adding c s (hbNext conn expiresAt symbols)) :
    conn = c ∧ s ∈ symbols := by
  unfold hbNext at h
  split at h
  · exact ⟨h.1, List.mem_cons.2 h.2⟩
  · exact h.elim

/-- A step of a call in which no script overtakes a heartbeat keeps the invariant. -/
theorem gone_runCall {listing : List Symbol} {flag : Bool}
    (h : Gone st.redis st.calls st.unsubscribed) (hi : st.calls[i]? = some ⟨gw, pc⟩)
    (hstale : NoStaleHeartbeat st (.run i listing flag))
    (hrun : runCall cfg st i gw listing flag pc = some st') :
    Gone st'.redis st'.calls st'.unsubscribed := by
  cases pc
  case subEval c symbol =>
    obtain rfl := Option.some.inj hrun
    change Gone (st.redis.subscribeScript _ c.conn symbol _ _ _).1 (st.calls.set i ⟨gw, _⟩)
      (setFlag st.unsubscribed c.conn symbol false)
    refine h.set hi (fun c' s hflag => ?_) (fun c' s hmem => ?_) (fun c' s hmem => ?_)
      fun _ _ hadd => hadd.elim
    · unfold setFlag at hflag
      split_ifs at hflag
      exact hflag
    -- The connection and the symbol that the script adds are no longer flagged.
    · rcases Redis.mem_of_mem_subscribeScript hmem with hmem | hself
      · exact Or.inl hmem
      · exact Or.inr (Or.inr (if_pos hself))
    · rcases Redis.mem_conns_of_mem_subscribeScript hmem with hmem | hself
      · exact Or.inl hmem
      · exact Or.inr (if_pos hself)
  case subReply c symbol after =>
    obtain rfl := Option.some.inj hrun
    have hcalls := h.cancelRelease gw symbol flag
    change Gone (st.cancelRelease gw symbol flag).redis
      ((st.cancelRelease gw symbol flag).calls.set i ⟨gw, _⟩)
      (st.cancelRelease gw symbol flag).unsubscribed
    rw [cancelRelease_redis, cancelRelease_unsubscribed]
    refine hcalls.set_of_subset (cancelRelease_getElem? hi rfl) (fun _ _ h => h) (fun _ _ h => h)
      fun c' s hadd => ?_
    split_ifs at hadd
    · exact hadd.elim
    · exact absurd hadd (not_adding_subNext _ _ _ _)
  case subSetNx c symbol =>
    obtain rfl := Option.some.inj hrun
    change Gone (st.redis.setActiveNx symbol).1 (st.calls.set i ⟨gw, _⟩) st.unsubscribed
    refine h.set_of_subset hi (fun c' s hmem => ?_) (fun c' s hmem => ?_) fun c' s hadd => ?_
    · rwa [Redis.setActiveNx_sets] at hmem
    · rwa [Redis.setActiveNx_conns] at hmem
    · split_ifs at hadd
      · exact hadd.elim
      · exact absurd hadd (not_adding_subNext _ _ _ _)
  case subPublish c symbol =>
    obtain rfl := Option.some.inj hrun
    exact h.set_of_subset hi (fun _ _ h => h) (fun _ _ h => h)
      fun _ _ hadd => absurd hadd (not_adding_subNext _ _ _ _)
  case unsubEval c symbol =>
    obtain rfl := Option.some.inj hrun
    -- By the condition, no heartbeat is about to add the connection.
    have hstale : ∀ call ∈ st.calls, ¬ adding c.conn symbol call.pc := by
      simpa only [NoStaleHeartbeat, hi] using hstale
    change Gone (st.redis.unsubscribeScript c.conn symbol _).1 (st.calls.set i ⟨gw, _⟩)
      (setFlag st.unsubscribed c.conn symbol true)
    intro c' s hflag
    by_cases hself : c' = c.conn ∧ s = symbol
    · obtain ⟨rfl, rfl⟩ := hself
      exact ⟨fun hmem => (Redis.mem_of_mem_unsubscribeScript hmem).2 ⟨rfl, rfl⟩,
        fun hmem => (Redis.mem_conns_of_mem_unsubscribeScript hmem).2 ⟨rfl, rfl⟩,
        forall_mem_set hstale fun hadd => hadd⟩
    · obtain ⟨hset, hconn, hcalls⟩ := h c' s (by
        unfold setFlag at hflag
        rwa [if_neg hself] at hflag)
      exact ⟨fun hmem => hset (Redis.mem_of_mem_unsubscribeScript hmem).1,
        fun hmem => hconn (Redis.mem_conns_of_mem_unsubscribeScript hmem).1,
        forall_mem_set hcalls fun hadd => hadd⟩
  case unsubReply c symbol after =>
    rw [runCall] at hrun
    split_ifs at hrun
    · obtain rfl := Option.some.inj hrun
      change Gone (st.scheduleRelease gw symbol).redis
        ((st.scheduleRelease gw symbol).calls.set i ⟨gw, _⟩)
        (st.scheduleRelease gw symbol).unsubscribed
      rw [scheduleRelease_redis, scheduleRelease_unsubscribed]
      exact (h.scheduleRelease gw symbol).set_of_subset (scheduleRelease_getElem? hi)
        (fun _ _ h => h) (fun _ _ h => h)
        fun _ _ hadd => absurd hadd (not_adding_unsubNext _ _ _ _)
    · obtain rfl := Option.some.inj hrun
      exact h.set_of_subset hi (fun _ _ h => h) (fun _ _ h => h)
        fun _ _ hadd => absurd hadd (not_adding_unsubNext _ _ _ _)
  case hbMembers conn =>
    rw [runCall] at hrun
    split_ifs at hrun with hperm
    obtain rfl := Option.some.inj hrun
    -- What the heartbeat is about to add are the connection's symbols.
    refine h.set_of_subset hi (fun _ _ h => h) (fun _ _ h => h) fun c s hadd => Or.inr ?_
    obtain ⟨rfl, hmem⟩ := hadd
    exact hperm.mem_iff.1 hmem
  case hbReply conn symbols =>
    rw [runCall] at hrun
    split_ifs at hrun
    · obtain rfl := Option.some.inj hrun
      exact h.set_of_subset hi (fun _ _ h => h) (fun _ _ h => h) fun _ _ hadd => hadd.elim
    · obtain rfl := Option.some.inj hrun
      exact h.set_of_subset hi (fun _ _ h => h) (fun _ _ h => h)
        fun _ _ hadd => Or.inl (mem_of_adding_hbNext hadd)
  case hbZadd conn expiresAt symbol rest =>
    obtain rfl := Option.some.inj hrun
    refine h.set hi (fun _ _ h => h) (fun c s hmem => ?_) (fun _ _ h => Or.inl h)
      fun c s hadd => Or.inl ⟨hadd.1, Or.inr hadd.2⟩
    -- What the pipeline adds, the call was about to add.
    by_cases hsym : s = symbol
    · subst hsym
      have hmem : c ∈ (st.redis.zadd s conn expiresAt).sets s := hmem
      rw [Redis.zadd_sets_self, SortedSet.mem_zadd] at hmem
      rcases hmem with rfl | hmem
      · exact Or.inr (Or.inl ⟨rfl, Or.inl rfl⟩)
      · exact Or.inl hmem
    · have hmem : c ∈ (st.redis.zadd symbol conn expiresAt).sets s := hmem
      rw [Redis.zadd_sets_of_ne hsym] at hmem
      exact Or.inl hmem
  case hbExpire conn expiresAt symbol rest =>
    obtain rfl := Option.some.inj hrun
    refine h.set_of_subset hi (fun _ _ hmem => Redis.mem_of_mem_expireSet hmem)
      (fun c s hmem => ?_) fun _ _ hadd => Or.inl (mem_of_adding_hbNext hadd)
    have hmem : s ∈ (st.redis.expireSet symbol _ _).conns c := hmem
    rwa [Redis.expireSet_conns] at hmem
  case hbExpireConn conn =>
    obtain rfl := Option.some.inj hrun
    refine h.set_of_subset hi (fun c s hmem => ?_)
      (fun _ _ hmem => Redis.mem_of_mem_expireConn hmem) fun _ _ hadd => hadd.elim
    have hmem : c ∈ (st.redis.expireConn conn _ _).sets s := hmem
    rwa [Redis.expireConn_sets] at hmem
  case discReply conn symbols =>
    rw [runCall] at hrun
    split_ifs at hrun
    · obtain rfl := Option.some.inj hrun
      exact h.set_of_subset hi (fun _ _ h => h) (fun _ _ h => h) fun _ _ hadd => hadd.elim
    · obtain rfl := Option.some.inj hrun
      exact h.set_of_subset hi (fun _ _ h => h) (fun _ _ h => h)
        fun _ _ hadd => absurd hadd (not_adding_unsubNext _ _ _ _)
  case discDelete conn changed =>
    obtain rfl := Option.some.inj hrun
    refine h.set_of_subset hi (fun _ _ h => h) (fun c s hmem => ?_) fun _ _ hadd => hadd.elim
    have hmem : s ∈ (st.redis.putConn conn []).conns c := hmem
    by_cases hc : c = conn
    · subst hc
      rw [Redis.putConn_conns_self] at hmem
      exact absurd hmem List.not_mem_nil
    · rwa [Redis.putConn_conns_of_ne hc] at hmem
  case relEval symbol now =>
    obtain rfl := Option.some.inj hrun
    refine h.set_of_subset hi (fun c s hmem => ?_) (fun c s hmem => ?_) fun _ _ hadd => hadd.elim
    · have hmem : c ∈ (st.redis.releaseScript symbol now).1.sets s := hmem
      rw [Redis.releaseScript_sets] at hmem
      exact Redis.mem_of_mem_purge hmem
    · have hmem : s ∈ (st.redis.releaseScript symbol now).1.conns c := hmem
      rwa [Redis.releaseScript_conns] at hmem
  case relReply symbol released =>
    rw [runCall] at hrun
    split_ifs at hrun <;> obtain rfl := Option.some.inj hrun
    · exact h.set_of_subset hi (fun _ _ h => h) (fun _ _ h => h) fun _ _ hadd => hadd.elim
    · exact h.set_of_subset hi (fun _ _ h => h) (fun _ _ h => h) fun _ _ hadd => hadd.elim
  case cleanScan c =>
    obtain rfl := Option.some.inj hrun
    exact h.set_of_subset hi (fun _ _ h => h) (fun _ _ h => h)
      fun _ _ hadd => absurd hadd (not_adding_cleanNext _ _ _ _)
  case cleanPurge c key before =>
    obtain rfl := Option.some.inj hrun
    exact h.set_of_subset hi (fun _ _ hmem => Redis.mem_of_mem_purge hmem) (fun _ _ h => h)
      fun _ _ hadd => hadd.elim
  case cleanReply c key before after =>
    rw [runCall] at hrun
    split_ifs at hrun
    · obtain rfl := Option.some.inj hrun
      change Gone (st.scheduleRelease gw _).redis
        ((st.scheduleRelease gw _).calls.set i ⟨gw, _⟩) (st.scheduleRelease gw _).unsubscribed
      rw [scheduleRelease_redis, scheduleRelease_unsubscribed]
      exact (h.scheduleRelease gw _).set_of_subset (scheduleRelease_getElem? hi)
        (fun _ _ h => h) (fun _ _ h => h)
        fun _ _ hadd => absurd hadd (not_adding_cleanNext _ _ _ _)
    · obtain rfl := Option.some.inj hrun
      exact h.set_of_subset hi (fun _ _ h => h) (fun _ _ h => h)
        fun _ _ hadd => absurd hadd (not_adding_cleanNext _ _ _ _)
  case metricsScan m =>
    obtain rfl := Option.some.inj hrun
    exact h.set_of_subset hi (fun _ _ h => h) (fun _ _ h => h)
      fun _ _ hadd => absurd hadd (not_adding_metricsNext _ _ _)
  case metricsPurge m key =>
    obtain rfl := Option.some.inj hrun
    exact h.set_of_subset hi (fun _ _ hmem => Redis.mem_of_mem_purge hmem) (fun _ _ h => h)
      fun _ _ hadd => hadd.elim
  case metricsCard m key =>
    obtain rfl := Option.some.inj hrun
    exact h.set_of_subset hi (fun _ _ h => h) (fun _ _ h => h)
      fun _ _ hadd => absurd hadd (not_adding_metricsNext _ _ _)
  case discMembers conn =>
    rw [runCall] at hrun
    split_ifs at hrun
    obtain rfl := Option.some.inj hrun
    exact h.set_of_subset hi (fun _ _ h => h) (fun _ _ h => h) fun _ _ hadd => hadd.elim
  case relSleep symbol wakeAt =>
    rw [runCall] at hrun
    split_ifs at hrun
    obtain rfl := Option.some.inj hrun
    exact h.set_of_subset hi (fun _ _ h => h) (fun _ _ h => h) fun _ _ hadd => hadd.elim
  case done changed => cases hrun
  -- The other steps have nothing to do with the sets, nor with heartbeats.
  all_goals
    obtain rfl := Option.some.inj hrun
    exact h.set_of_subset hi (fun _ _ h => h) (fun _ _ h => h) fun _ _ hadd => hadd.elim

/-- A step in which no script overtakes a heartbeat keeps the invariant. -/
theorem gone_step {a : Label} (h : Gone st.redis st.calls st.unsubscribed)
    (hstale : NoStaleHeartbeat st a) (hstep : step cfg st a = some st') :
    Gone st'.redis st'.calls st'.unsubscribed := by
  cases a with
  | start gw op =>
    obtain rfl := Option.some.inj hstep
    refine h.mono (fun _ _ h => h) (fun _ _ h => h) fun call hcall => ?_
    rcases List.mem_append.1 hcall with hcall | hcall
    · exact Or.inl hcall
    · rw [List.mem_singleton.1 hcall]
      -- A call that has just begun adds nothing yet.
      refine Or.inr fun c s => ?_
      cases op with
      | subscribe conn symbols => exact not_adding_subNext _ _ _ _
      | unsubscribe conn symbols => exact not_adding_unsubNext _ _ _ _
      | disconnect conn => exact id
      | heartbeat conn => exact id
      | cleanupExpired => exact id
      | refreshMetrics => exact id
  | run i listing flag =>
    obtain ⟨gw, pc, hi, hrun⟩ := step_run hstep
    exact gone_runCall h hi hstale hrun
  | orphan k =>
    obtain ⟨p, -, rfl⟩ := Option.map_eq_some_iff.1 hstep
    refine h.mono (fun c s hmem => ?_) (fun c s hmem => ?_) fun _ hcall => Or.inl hcall
    · have hmem : c ∈ (st.redis.releaseScript p.1 p.2).1.sets s := hmem
      -- A release only takes members out of the sets.
      rw [Redis.releaseScript_sets] at hmem
      exact Redis.mem_of_mem_purge hmem
    · have hmem : s ∈ (st.redis.releaseScript p.1 p.2).1.conns c := hmem
      rwa [Redis.releaseScript_conns] at hmem
  | tick d =>
    obtain rfl := Option.some.inj hstep
    exact h.mono (fun _ _ hmem => Redis.mem_of_mem_expireKeys hmem)
      (fun _ _ hmem => Redis.mem_conns_of_mem_expireKeys hmem) fun _ hcall => Or.inl hcall

end Step

/-- In every run in which no unsubscribe script overtakes a heartbeat of its connection, an
unsubscribed connection is not in the symbol's set. -/
theorem noResurrection_of_noStaleHeartbeat (cfg : Settings) {st : State}
    (h : Path (step cfg) NoStaleHeartbeat .init st) : NoResurrection st := by
  have hinv : Gone st.redis st.calls st.unsubscribed :=
    h.invariant (fun st => Gone st.redis st.calls st.unsubscribed)
      (fun _ _ hflag => absurd hflag Bool.false_ne_true)
      fun _ _ _ hinv hok hstep => gone_step hinv hok hstep
  exact fun conn s hflag => (hinv conn s hflag).1

/-- A connection that unsubscribes, and sends a heartbeat afterwards. -/
def unsubscribedRun : List Label :=
  [.start 0 (.subscribe "c1" ["AAPL", "MSFT"]), .next 0, .next 0, .next 0, .next 0, .next 0,
    .next 0, .next 0, .next 0, .run 0 [] true,
    .start 0 (.unsubscribe "c1" ["AAPL"]), .next 1, .next 1, .run 1 [] true,
    .start 0 (.heartbeat "c1"), .run 3 ["MSFT"] false, .next 3, .next 3]

/-- A connection that has unsubscribed from a symbol stays in the set of another. -/
theorem noResurrection_unsubscribedRun :
    ∃ st, (st.unsubscribed "c1" "AAPL" = true ∧ "c1" ∈ st.redis.sets "MSFT") ∧
      NoResurrection st := by
  obtain ⟨st, hpath, hst⟩ := Path.exists_of_exec (step {}) NoStaleHeartbeat .init unsubscribedRun
    (fun st => st.unsubscribed "c1" "AAPL" = true ∧ "c1" ∈ st.redis.sets "MSFT") (by decide)
  exact ⟨st, hst, noResurrection_of_noStaleHeartbeat {} hpath⟩

/-- A heartbeat of `"c1"` lists its symbols, `"c1"` unsubscribes, and the heartbeat goes on. The
release task then finds a member. -/
def staleHeartbeatRun : List Label :=
  [.start 0 (.subscribe "c1" ["AAPL"]), .next 0, .next 0, .next 0, .next 0, .run 0 [] true,
    .start 0 (.heartbeat "c1"), .run 1 ["AAPL"] false,
    .start 0 (.unsubscribe "c1" ["AAPL"]), .next 2, .next 2, .run 2 [] true,
    .next 1, .next 1, .next 1, .next 1,
    .next 3, .tick 3000000, .next 3, .next 3, .next 3, .run 3 [] true]

/-- Even when every call has returned, an unsubscribed connection may be in the symbol's set. -/
theorem not_noResurrection :
    ¬ ∀ st, Path (step {}) anyStep .init st → (∀ call ∈ st.calls, call.pc.isDone = true) →
      NoResurrection st := by
  obtain ⟨st, hpath, hdone, hflag, hmem⟩ := Path.exists_of_exec (step {}) anyStep .init
    staleHeartbeatRun (fun st => (∀ call ∈ st.calls, call.pc.isDone = true) ∧
      st.unsubscribed "c1" "AAPL" = true ∧ "c1" ∈ st.redis.sets "AAPL") (by decide)
  exact fun hall => hall st hpath hdone "c1" "AAPL" hflag hmem

end MarketDataGateway.Registry
