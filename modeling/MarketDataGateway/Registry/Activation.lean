import MarketDataGateway.Registry.Step

/-!
# Every live subscriber has an active upstream, but for ghosts

The first subscriber of a symbol activates its upstream: `subscribe` sends `SET NX` when its script
replies that it has left one member. That is enough as long as the set of a symbol with no upstream
is empty, which `heartbeat` breaks: it adds to the sets of the symbols that an earlier `SMEMBERS`
has listed, and by then an `unsubscribe` may have emptied a set and a release script may have
deleted the upstream state. The member that it adds is a ghost, and the next subscriber is not the
first.

`Activated` is the invariant: a symbol with a member is active, or some `subscribe` is about to make
it so. Every step keeps it but the `ZADD` of a heartbeat that makes a ghost.
-/

namespace MarketDataGateway.Registry

open Lib

/-- `subscribe` is about to send `SET NX` for the symbol. -/
def activating (s : Symbol) : Pc → Prop
  | .subReply _ symbol after => symbol = s ∧ after = 1
  | .subSetNx _ symbol => symbol = s
  | _ => False

/-- A symbol with a member is active, or about to become so. -/
def Activated (r : Redis) (calls : List Call) : Prop :=
  ∀ s, (r.sets s).zcard ≠ 0 → r.active s = true ∨ ∃ call ∈ calls, activating s call.pc

/-- No heartbeat adds a member to the empty set of a symbol that is not active, nor about to become
so. -/
def NoGhost (st : State) : Label → Prop
  | .run i _ _ =>
    match st.calls[i]? with
    | some ⟨_, .hbZadd _ _ symbol _⟩ =>
      (st.redis.sets symbol).zcard = 0 → st.redis.active symbol = true ∨
        ∃ call ∈ st.calls, activating symbol call.pc
    | _ => True
  | _ => True

instance (s : Symbol) (pc : Pc) : Decidable (activating s pc) := by
  unfold activating
  rcases pc with _ | _ <;> infer_instance

instance (st : State) : (a : Label) → Decidable (NoGhost st a)
  | .tick _ => inferInstanceAs (Decidable True)
  | .start _ _ => inferInstanceAs (Decidable True)
  | .orphan _ => inferInstanceAs (Decidable True)
  | .run i _ _ => by
    dsimp only [NoGhost]
    rcases st.calls[i]? with _ | ⟨_, _ | _⟩ <;> infer_instance

/-- The call is a `subscribe`, before its metrics, or a release task after its grace period. -/
def Pc.activates : Pc → Bool
  | .subEval _ _ => true
  | .subReply _ _ _ => true
  | .subSetNx _ _ => true
  | .subPublish _ _ => true
  | .relEval _ _ => true
  | .relReply _ _ => true
  | .relPublish _ => true
  | .relFinally _ => true
  | _ => false

/-- Every live subscriber has an active upstream: when no `subscribe` and no release call is in
flight, a symbol is active if a connection that wants it has an unexpired entry in its set. -/
def LiveSubscribersActive (st : State) : Prop :=
  (∀ call ∈ st.calls, call.pc.activates = false) →
    ∀ conn s, st.wanted conn s = true → (st.redis.sets s).Unexpired st.now conn →
      st.redis.active s = true

section Step

variable {r r' : Redis} {calls : List Call} {i gw : ℕ} {call : Call} {pc : Pc}

/-- The invariant is kept by a step of the call at `i` if what the step leaves nonempty was so
before, or is taken care of, and if the step does not drop what takes care of it. -/
theorem Activated.set (h : Activated r calls) (hi : calls[i]? = some call)
    (hset : ∀ s, (r'.sets s).zcard ≠ 0 → (r.sets s).zcard ≠ 0 ∨ r'.active s = true ∨
      activating s pc)
    (hactive : ∀ s, (r'.sets s).zcard ≠ 0 → r.active s = true → r'.active s = true)
    (hpc : ∀ s, activating s call.pc → r'.active s = true ∨ activating s pc) :
    Activated r' (calls.set i ⟨gw, pc⟩) := by
  intro s hs
  rcases hset s hs with hs' | hact | hpend
  · rcases h s hs' with hact | hpend
    · exact Or.inl (hactive s hs hact)
    · by_cases hact : r'.active s = true
      · exact Or.inl hact
      · exact Or.inr (exists_mem_set hi hpend fun hcall =>
          (hpc s hcall).resolve_left hact)
  · exact Or.inl hact
  · exact Or.inr (exists_mem_set_self hi hpend)

/-- The invariant is kept by what removes members and keeps the calls and the active symbols. -/
theorem Activated.mono (h : Activated r calls) (hset : ∀ s c, c ∈ r'.sets s → c ∈ r.sets s)
    (hactive : ∀ s, (r'.sets s).zcard ≠ 0 → r.active s = true → r'.active s = true) :
    Activated r' calls := by
  intro s hs
  obtain ⟨c, hc⟩ := SortedSet.exists_mem_of_zcard_ne_zero hs
  rcases h s (SortedSet.zcard_ne_zero_of_mem (hset s c hc)) with hact | hpend
  · exact Or.inl (hactive s hs hact)
  · exact Or.inr hpend

/-- The invariant is kept by calls that begin. -/
theorem Activated.append (h : Activated r calls) (calls' : List Call) :
    Activated r (calls ++ calls') :=
  fun s hs => (h s hs).imp_right fun hpend => exists_mem_append hpend calls'

/-- The invariant is kept by `_schedule_release`. -/
theorem Activated.scheduleRelease {st : State} (h : Activated st.redis st.calls) (gw : ℕ)
    (symbol : Symbol) :
    Activated st.redis (st.scheduleRelease gw symbol).calls := by
  rw [scheduleRelease_calls]
  split_ifs
  · exact h
  · exact h.append _

/-- A cancelled task was not about to activate a symbol. -/
theorem activating_cancel {s : Symbol} (h : activating s pc) : pc.cancel = pc := by
  cases pc <;> first | rfl | exact h.elim

/-- The invariant is kept by a cancellation. -/
theorem Activated.cancelRelease {st : State} (h : Activated st.redis st.calls) (gw : ℕ)
    (symbol : Symbol) (sent : Bool) :
    Activated st.redis (st.cancelRelease gw symbol sent).calls := by
  rcases cancelRelease_calls st gw symbol sent with heq | ⟨j, call, -, hj, heq⟩
  · rw [heq]
    exact h
  · rw [heq]
    refine fun s hs => (h s hs).imp_right fun hpend => exists_mem_set hj hpend fun hcall => ?_
    rw [activating_cancel hcall]
    exact hcall

/-- The invariant is kept by a release script: it deactivates a symbol only when it has emptied its
set. -/
theorem Activated.releaseScript (h : Activated r calls) (symbol : Symbol) (now : Timestamp) :
    Activated (r.releaseScript symbol now).1 calls := by
  refine h.mono (fun s c hc => ?_) fun s hs hact => ?_
  · rw [Redis.releaseScript_sets] at hc
    exact Redis.mem_of_mem_purge hc
  · rw [Redis.releaseScript_active]
    split_ifs with hrel
    · -- The script has counted no member, so the set is empty.
      obtain ⟨rfl, hrel⟩ := hrel
      rw [Redis.releaseScript_sets] at hs
      exact absurd (Redis.releaseScript_snd.1 hrel).1 hs
    · exact hact

/-- A set that has a member after a step which adds none had one before. -/
theorem zcard_ne_zero_of_subset {s : Symbol} (hset : ∀ c, c ∈ r'.sets s → c ∈ r.sets s)
    (h : (r'.sets s).zcard ≠ 0) : (r.sets s).zcard ≠ 0 := by
  obtain ⟨c, hc⟩ := SortedSet.exists_mem_of_zcard_ne_zero h
  exact SortedSet.zcard_ne_zero_of_mem (hset c hc)

variable {cfg : Settings} {st st' : State}

/-- A step of a call that makes no ghost keeps the invariant. -/
theorem activated_runCall {listing : List Symbol} {flag : Bool}
    (h : Activated st.redis st.calls) (hi : st.calls[i]? = some ⟨gw, pc⟩)
    (hghost : NoGhost st (.run i listing flag))
    (hrun : runCall cfg st i gw listing flag pc = some st') :
    Activated st'.redis st'.calls := by
  cases pc
  case subEval c symbol =>
    obtain rfl := Option.some.inj hrun
    change Activated (st.redis.subscribeScript _ c.conn symbol _ _ _).1 (st.calls.set i ⟨gw, _⟩)
    refine h.set hi (fun s hs => ?_) (fun s _ hact => ?_) fun s hcall => hcall.elim
    · by_cases hsym : s = symbol
      · -- The script has added the connection: to other members, or as the only one.
        subst hsym
        by_cases hcard : (st.redis.sets s).zcard = 0
        · exact Or.inr (Or.inr ⟨rfl, Redis.subscribeScript_after_of_zcard_eq_zero hcard hs⟩)
        · exact Or.inl hcard
      · rw [Redis.subscribeScript_sets_of_ne hsym] at hs
        exact Or.inl hs
    · rw [Redis.subscribeScript_active]
      exact hact
  case subReply c symbol after =>
    obtain rfl := Option.some.inj hrun
    have hcalls := h.cancelRelease gw symbol flag
    refine (cancelRelease_redis st gw symbol flag).symm ▸ ?_
    refine hcalls.set (cancelRelease_getElem? hi rfl) (fun s hs => Or.inl hs) (fun _ _ h => h)
      fun s hcall => ?_
    -- The call that counted itself as the only member goes on to `SET NX`.
    obtain ⟨rfl, hafter⟩ := hcall
    rw [if_pos hafter]
    exact Or.inr rfl
  case subSetNx c symbol =>
    obtain rfl := Option.some.inj hrun
    change Activated (st.redis.setActiveNx symbol).1 (st.calls.set i ⟨gw, _⟩)
    refine h.set hi (fun s hs => Or.inl ?_) (fun s _ hact => ?_) fun s hcall => Or.inl ?_
    · rwa [Redis.setActiveNx_sets] at hs
    · rw [Redis.setActiveNx_active]
      split_ifs
      · rfl
      · exact hact
    · rw [Redis.setActiveNx_active, if_pos (show s = symbol from Eq.symm hcall)]
  case subPublish c symbol =>
    obtain rfl := Option.some.inj hrun
    exact h.set hi (fun s hs => Or.inl hs) (fun _ _ h => h) fun s hcall => hcall.elim
  case unsubEval c symbol =>
    obtain rfl := Option.some.inj hrun
    change Activated (st.redis.unsubscribeScript c.conn symbol _).1 (st.calls.set i ⟨gw, _⟩)
    refine h.set hi (fun s hs => Or.inl ?_) (fun _ _ h => h) fun s hcall => hcall.elim
    exact zcard_ne_zero_of_subset (fun c hc => (Redis.mem_of_mem_unsubscribeScript hc).1) hs
  case unsubReply c symbol after =>
    rw [runCall] at hrun
    split_ifs at hrun
    · obtain rfl := Option.some.inj hrun
      refine (scheduleRelease_redis st gw symbol).symm ▸ ?_
      exact (h.scheduleRelease gw symbol).set (scheduleRelease_getElem? hi)
        (fun s hs => Or.inl hs) (fun _ _ h => h) fun s hcall => hcall.elim
    · obtain rfl := Option.some.inj hrun
      exact h.set hi (fun s hs => Or.inl hs) (fun _ _ h => h) fun s hcall => hcall.elim
  case hbZadd conn expiresAt symbol rest =>
    obtain rfl := Option.some.inj hrun
    change Activated (st.redis.zadd symbol conn expiresAt) (st.calls.set i ⟨gw, _⟩)
    -- By the condition, the heartbeat makes no ghost.
    have hghost : (st.redis.sets symbol).zcard = 0 → st.redis.active symbol = true ∨
        ∃ call ∈ st.calls, activating symbol call.pc := by
      simpa only [NoGhost, hi] using hghost
    intro s hs
    have hs' : st.redis.active s = true ∨ ∃ call ∈ st.calls, activating s call.pc := by
      by_cases hsym : s = symbol
      · subst hsym
        by_cases hcard : (st.redis.sets s).zcard = 0
        · exact hghost hcard
        · exact h s hcard
      · exact h s (by rwa [← Redis.zadd_sets_of_ne hsym])
    exact hs'.imp_right fun hpend => exists_mem_set hi hpend fun hcall => hcall.elim
  case hbExpire conn expiresAt symbol rest =>
    obtain rfl := Option.some.inj hrun
    change Activated (st.redis.expireSet symbol _ _) (st.calls.set i ⟨gw, _⟩)
    refine h.set hi (fun s hs => Or.inl ?_) (fun s _ hact => ?_) fun s hcall => hcall.elim
    · exact zcard_ne_zero_of_subset (fun c hc => Redis.mem_of_mem_expireSet hc) hs
    · rw [Redis.expireSet_active]
      exact hact
  case hbExpireConn conn =>
    obtain rfl := Option.some.inj hrun
    change Activated (st.redis.expireConn conn _ _) (st.calls.set i ⟨gw, _⟩)
    refine h.set hi (fun s hs => Or.inl ?_) (fun s _ hact => ?_) fun s hcall => hcall.elim
    · rwa [Redis.expireConn_sets] at hs
    · rw [Redis.expireConn_active]
      exact hact
  case discDelete conn changed =>
    obtain rfl := Option.some.inj hrun
    exact h.set hi (fun s hs => Or.inl hs) (fun _ _ h => h) fun s hcall => hcall.elim
  case relEval symbol now =>
    obtain rfl := Option.some.inj hrun
    exact (h.releaseScript symbol now).set hi (fun s hs => Or.inl hs) (fun _ _ h => h)
      fun s hcall => hcall.elim
  case relReply symbol released =>
    rw [runCall] at hrun
    split_ifs at hrun <;> obtain rfl := Option.some.inj hrun
    · exact h.set hi (fun s hs => Or.inl hs) (fun _ _ h => h) fun s hcall => hcall.elim
    · exact h.set hi (fun s hs => Or.inl hs) (fun _ _ h => h) fun s hcall => hcall.elim
  case relPublish symbol =>
    obtain rfl := Option.some.inj hrun
    exact h.set hi (fun s hs => Or.inl hs) (fun _ _ h => h) fun s hcall => hcall.elim
  case relFinally symbol =>
    obtain rfl := Option.some.inj hrun
    exact h.set hi (fun s hs => Or.inl hs) (fun _ _ h => h) fun s hcall => hcall.elim
  case cleanPurge c key before =>
    obtain rfl := Option.some.inj hrun
    exact h.set hi (fun s hs => Or.inl (Redis.zcard_ne_zero_of_purge hs)) (fun _ _ h => h)
      fun s hcall => hcall.elim
  case cleanReply c key before after =>
    rw [runCall] at hrun
    split_ifs at hrun
    · obtain rfl := Option.some.inj hrun
      refine (scheduleRelease_redis st gw _).symm ▸ ?_
      exact (h.scheduleRelease gw _).set (scheduleRelease_getElem? hi)
        (fun s hs => Or.inl hs) (fun _ _ h => h) fun s hcall => hcall.elim
    · obtain rfl := Option.some.inj hrun
      exact h.set hi (fun s hs => Or.inl hs) (fun _ _ h => h) fun s hcall => hcall.elim
  case metricsPurge m key =>
    obtain rfl := Option.some.inj hrun
    exact h.set hi (fun s hs => Or.inl (Redis.zcard_ne_zero_of_purge hs)) (fun _ _ h => h)
      fun s hcall => hcall.elim
  case done changed => cases hrun
  -- The other steps change nothing but their own program counter.
  all_goals
    obtain ⟨pc', rfl⟩ := runCall_local rfl hrun
    exact h.set hi (fun s hs => Or.inl hs) (fun _ _ h => h) fun s hcall => hcall.elim

/-- A step that makes no ghost keeps the invariant. -/
theorem activated_step {a : Label} (h : Activated st.redis st.calls) (hghost : NoGhost st a)
    (hstep : step cfg st a = some st') : Activated st'.redis st'.calls := by
  cases a with
  | start gw op =>
    obtain rfl := Option.some.inj hstep
    exact h.append _
  | run i listing flag =>
    obtain ⟨gw, pc, hi, hrun⟩ := step_run hstep
    exact activated_runCall h hi hghost hrun
  | orphan k =>
    obtain ⟨p, -, rfl⟩ := Option.map_eq_some_iff.1 hstep
    exact h.releaseScript p.1 p.2
  | tick d =>
    obtain rfl := Option.some.inj hstep
    exact h.mono (fun s c hc => Redis.mem_of_mem_expireKeys hc) fun _ _ h => h

end Step

/-- In every run in which no heartbeat makes a ghost, every live subscriber has an active
upstream. -/
theorem liveSubscribersActive_of_noGhost (cfg : Settings) {st : State}
    (h : Path (step cfg) NoGhost .init st) : LiveSubscribersActive st := by
  have hinv : Activated st.redis st.calls :=
    h.invariant (fun st => Activated st.redis st.calls)
      (fun s hs => absurd SortedSet.zcard_empty hs)
      fun _ _ _ hinv hok hstep => activated_step hinv hok hstep
  intro hquiet conn s _ hmem
  rcases hinv s (SortedSet.zcard_ne_zero_of_mem hmem.mem) with hact | ⟨call, hcall, hpend⟩
  · exact hact
  · -- A call that is about to activate the symbol is in flight.
    have hidle := hquiet call hcall
    revert hpend hidle
    cases call.pc <;> simp [activating, Pc.activates]

/-- A first subscriber, whose heartbeat then adds to a set with a member. -/
def firstSubscriberRun : List Label :=
  [.start 0 (.subscribe "c1" ["AAPL"]), .next 0, .next 0, .next 0, .next 0,
    .start 0 (.heartbeat "c1"), .run 1 ["AAPL"] false, .next 1, .next 1]

/-- The first subscriber of a symbol makes it active. -/
theorem liveSubscribersActive_firstSubscriberRun :
    ∃ st, (st.wanted "c1" "AAPL" = true ∧ (st.redis.sets "AAPL").Unexpired st.now "c1" ∧
      ∀ call ∈ st.calls, call.pc.activates = false) ∧ LiveSubscribersActive st := by
  obtain ⟨st, hpath, hst⟩ := Path.exists_of_exec (step {}) NoGhost .init firstSubscriberRun
    (fun st => st.wanted "c1" "AAPL" = true ∧ (st.redis.sets "AAPL").Unexpired st.now "c1" ∧
      ∀ call ∈ st.calls, call.pc.activates = false) (by decide)
  exact ⟨st, hst, liveSubscribersActive_of_noGhost {} hpath⟩

/-- A heartbeat of `"c1"` lists its symbols; before it adds to their sets, `"c1"` unsubscribes and
the symbol is released. So `"c1"` is a ghost when `"c2"` subscribes. -/
def ghostRun : List Label :=
  [.start 0 (.subscribe "c1" ["AAPL"]), .next 0, .next 0, .next 0, .next 0,
    .run 0 ["AAPL"] true, .next 0, .next 0,
    .start 0 (.heartbeat "c1"), .run 1 ["AAPL"] false,
    .start 0 (.unsubscribe "c1" ["AAPL"]), .next 2, .next 2, .run 2 [] true,
    .next 3, .tick 3000000, .next 3, .next 3, .next 3, .next 3, .next 3, .run 3 [] true,
    .next 1, .next 1, .next 1, .next 1,
    .start 0 (.subscribe "c2" ["AAPL"]), .next 4, .next 4,
    .run 4 ["AAPL"] true, .next 4, .next 4]

/-- A symbol with a live subscriber is not active in some run. -/
theorem not_liveSubscribersActive :
    ¬ ∀ st, Path (step {}) anyStep .init st → LiveSubscribersActive st := by
  obtain ⟨st, hpath, hquiet, hwanted, hmem, hact⟩ := Path.exists_of_exec (step {}) anyStep .init
    ghostRun (fun st => (∀ call ∈ st.calls, call.pc.activates = false) ∧
      st.wanted "c2" "AAPL" = true ∧ (st.redis.sets "AAPL").Unexpired st.now "c2" ∧
      st.redis.active "AAPL" = false) (by decide)
  intro hall
  have hlive := hall st hpath hquiet "c2" "AAPL" hwanted hmem
  rw [hlive] at hact
  cases hact

end MarketDataGateway.Registry
