import MarketDataGateway.Registry.Step

/-!
# No release is forgotten, but for purges that look away

When the last member of an active symbol's set goes, somebody has to schedule its release: the
`unsubscribe` whose script replies that no member is left, or the `cleanup_expired` that has counted
members before its purge and none after it. Until then the members in the set, even expired ones,
are the evidence on which a later cleanup acts.

`Evidence` is the invariant: an active symbol has a member, or a release that is pending or about to
be scheduled. Several steps may break it: most plainly the purge of `refresh_metrics`, which removes
expired members as that of `cleanup_expired` does, and schedules nothing.
-/

namespace MarketDataGateway.Registry

open Lib

/-- The symbol whose release a task has pending: its script has not run. -/
def Pc.releasing : Pc → Option Symbol
  | .relStart symbol => some symbol
  | .relSleep symbol _ => some symbol
  | .relEval symbol _ => some symbol
  | _ => none

/-- A release of the symbol is pending, or the call will schedule one if the set stays empty. -/
def covering (s : Symbol) : Pc → Prop
  | .relStart symbol => symbol = s
  | .relSleep symbol _ => symbol = s
  | .relEval symbol _ => symbol = s
  | .unsubReply _ symbol after => symbol = s ∧ after = 0
  | .cleanPurge _ key before => key = s ∧ before ≠ 0 ∧ afterLastColon (symbolKey key) = s
  | .cleanAfter _ key before => key = s ∧ before ≠ 0 ∧ afterLastColon (symbolKey key) = s
  | .cleanReply _ key before after =>
    key = s ∧ before ≠ 0 ∧ after = 0 ∧ afterLastColon (symbolKey key) = s
  | _ => False

instance (s : Symbol) (pc : Pc) : Decidable (covering s pc) := by
  unfold covering
  rcases pc with _ | _ <;> infer_instance

/-- An active symbol has a member, or a release that is pending or about to be scheduled. -/
def Evidence (r : Redis) (calls : List Call) : Prop :=
  ∀ s, r.active s = true → (r.sets s).zcard ≠ 0 ∨ ∃ call ∈ calls, covering s call.pc

/-- The symbol's set may lose its last member: it is not active, or its release is pending or about
to be scheduled. -/
def Safe (st : State) (s : Symbol) : Prop :=
  st.redis.active s = false ∨ ∃ call ∈ st.calls, covering s call.pc

/-- The call at `i` may go without releasing the symbol. -/
def SafeWithout (st : State) (i : ℕ) (s : Symbol) : Prop :=
  st.redis.active s = false ∨ (st.redis.sets s).zcard ≠ 0 ∨
    Others st.calls i fun call => covering s call.pc

instance (st : State) (s : Symbol) : Decidable (Safe st s) :=
  inferInstanceAs (Decidable (_ ∨ _))

instance (st : State) (i : ℕ) (s : Symbol) : Decidable (SafeWithout st i s) :=
  inferInstanceAs (Decidable (_ ∨ _ ∨ _))

/-- The purge of `key` at `now` does not remove the last member of a set that may not lose it. -/
def PurgeSafe (st : State) (key : Symbol) (now : Timestamp) : Prop :=
  (st.redis.sets key).zcard = 0 ∨ ((st.redis.purge key now).sets key).zcard ≠ 0 ∨ Safe st key

instance (st : State) (key : Symbol) (now : Timestamp) : Decidable (PurgeSafe st key now) :=
  inferInstanceAs (Decidable (_ ∨ _ ∨ _))

/-- The step does not leave an active symbol without members and without a release: no purge, and no
end of a time to live, removes the last member of a set that may not lose it; `SET NX` does not
activate a symbol with no member; no release is left unscheduled for a task whose script has run;
and no needed task is cancelled. -/
def KeepsEvidence (cfg : Settings) (st : State) : Label → Prop
  | .run i _ _ =>
    match st.calls[i]? with
    | some ⟨_, .metricsPurge m key⟩ => PurgeSafe st key m.now
    | some ⟨_, .cleanPurge c key _⟩ => PurgeSafe st key c.now
    | some ⟨_, .subEval _ symbol⟩ => 0 < cfg.subscriptionTtlSeconds ∨ Safe st symbol
    | some ⟨_, .hbExpire _ _ symbol _⟩ => 0 < cfg.subscriptionTtlSeconds ∨ Safe st symbol
    | some ⟨_, .subSetNx _ symbol⟩ => st.redis.active symbol = true ∨
        (st.redis.sets symbol).zcard ≠ 0 ∨ ∃ call ∈ st.calls, covering symbol call.pc
    | some ⟨gw, .subReply _ symbol _⟩ =>
      ∀ j ∈ st.releaseTasks gw symbol, ∀ call ∈ st.calls[j]?, ∀ s ∈ call.pc.releasing,
        SafeWithout st j s
    | some ⟨gw, .unsubReply _ symbol after⟩ =>
      after = 0 → st.hasReleaseTask gw symbol = true → SafeWithout st i symbol
    | some ⟨gw, .cleanReply _ key before after⟩ =>
      before ≠ 0 → after = 0 → st.hasReleaseTask gw (afterLastColon (symbolKey key)) = true →
        SafeWithout st i key
    | _ => True
  | .tick d => ∀ s, ((st.redis.expireKeys (st.now + d)).sets s).zcard = 0 →
      (st.redis.sets s).zcard = 0 ∨ Safe st s
  | _ => True

open Classical in
/-- Only the clock's steps, which concern every symbol, are not decided by evaluation. -/
noncomputable instance (cfg : Settings) (st : State) : (a : Label) →
    Decidable (KeepsEvidence cfg st a)
  | .tick _ => propDecidable _
  | .start _ _ => inferInstanceAs (Decidable True)
  | .orphan _ => inferInstanceAs (Decidable True)
  | .run i _ _ => by
    dsimp only [KeepsEvidence]
    rcases st.calls[i]? with _ | ⟨_, _ | _⟩ <;> infer_instance

/-- The call may yet schedule a release: it has the reply of an unsubscribe script, or is between
the two counts of a cleanup. -/
def Pc.schedules : Pc → Bool
  | .unsubReply _ _ _ => true
  | .cleanPurge _ _ _ => true
  | .cleanAfter _ _ _ => true
  | .cleanReply _ _ _ _ => true
  | _ => false

/-- No release is forgotten: when no call may yet schedule one, an active symbol without an
unexpired member has a pending release, or an expired member. -/
def NoForgottenRelease (st : State) : Prop :=
  (∀ call ∈ st.calls, call.pc.schedules = false) →
    ∀ s, st.redis.active s = true → (∀ conn, ¬ (st.redis.sets s).Unexpired st.now conn) →
      (∃ call ∈ st.calls, call.pc.releasing = some s) ∨ ∃ conn, conn ∈ st.redis.sets s

section Step

variable {r r' : Redis} {calls : List Call} {i gw : ℕ} {call : Call} {pc : Pc} {cfg : Settings}
  {st st' : State}

/-- Why a symbol `s` that is active after a step of the call at `i`, from `before` to `pc`, does not
lose its evidence. -/
inductive StillEvident (r r' : Redis) (calls : List Call) (i : ℕ) (before pc : Pc) (s : Symbol) :
    Prop
  /-- It has a member. -/
  | member (hcard : (r'.sets s).zcard ≠ 0)
  /-- The call covers it afterwards. -/
  | self (hpc : covering s pc)
  /-- Another call covers it. -/
  | others (hothers : Others calls i fun call => covering s call.pc)
  /-- A call covers it, and the call at `i` goes on to do so if it did. -/
  | covered (hcover : ∃ call ∈ calls, covering s call.pc) (hpc : covering s before → covering s pc)
  /-- It was active before, and the step takes neither its last member nor its cover. -/
  | kept (hactive : r.active s = true) (hcard : (r.sets s).zcard ≠ 0 → (r'.sets s).zcard ≠ 0)
    (hpc : covering s before → covering s pc)

/-- The invariant is kept by a step of the call at `i` if no symbol that is active afterwards loses
its evidence. -/
theorem Evidence.set (h : Evidence r calls) (hi : calls[i]? = some call)
    (hs : ∀ s, r'.active s = true → StillEvident r r' calls i call.pc pc s) :
    Evidence r' (calls.set i ⟨gw, pc⟩) := by
  intro s hactive
  cases hs s hactive with
  | member hcard => exact Or.inl hcard
  | self hpc => exact Or.inr (exists_mem_set_self hi hpc)
  | others hothers => exact Or.inr (hothers.exists_mem_set _)
  | covered hcover hpc => exact Or.inr (exists_mem_set hi hcover hpc)
  | kept hactive' hcard hpc =>
    exact (h s hactive').imp hcard fun hcover => exists_mem_set hi hcover hpc

/-- The invariant is kept by a step of the call at `i` that keeps the states and the sets, and after
which the call covers what it covered. -/
theorem Evidence.set_of_eq (h : Evidence r calls) (hi : calls[i]? = some call)
    (hactive : r'.active = r.active) (hsets : r'.sets = r.sets)
    (hpc : ∀ s, covering s call.pc → covering s pc) :
    Evidence r' (calls.set i ⟨gw, pc⟩) := by
  refine h.set hi fun s hact => ?_
  rw [hactive] at hact
  exact .kept hact (fun hcard => by rwa [hsets]) (hpc s)

/-- The invariant is kept by calls that begin. -/
theorem Evidence.append (h : Evidence r calls) (calls' : List Call) :
    Evidence r (calls ++ calls') :=
  fun s hactive => (h s hactive).imp_right fun hcover => exists_mem_append hcover calls'

/-- A step of a call at a purge keeps the invariant, if the purge is safe. -/
theorem Evidence.purge {key : Symbol} {now : Timestamp} (h : Evidence st.redis st.calls)
    (hi : st.calls[i]? = some call) (hsafe : PurgeSafe st key now)
    (hpc : ∀ s, covering s call.pc → covering s pc) :
    Evidence (st.redis.purge key now) (st.calls.set i ⟨gw, pc⟩) := by
  refine h.set hi fun s hactive => ?_
  rw [Redis.purge_active] at hactive
  by_cases hs : s = key
  · subst hs
    rcases hsafe with hempty | hcard | hinactive | hcover
    · exact .kept hactive (fun hne => absurd hempty hne) (hpc s)
    · exact .member hcard
    · rw [hactive] at hinactive
      cases hinactive
    · exact .covered hcover (hpc s)
  · exact .kept hactive (fun hcard => by rwa [Redis.purge_sets_of_ne hs]) (hpc s)

/-- A release task that is cancelled covered its symbol, and nothing else did. -/
theorem covering_cancel {s : Symbol} (h : covering s pc) :
    covering s pc.cancel ∨ pc.releasing = some s := by
  cases pc
  case relStart symbol => exact Or.inr (congrArg some h)
  case relSleep symbol wakeAt => exact Or.inr (congrArg some h)
  case relEval symbol now => exact Or.inr (congrArg some h)
  case unsubReply c symbol after => exact Or.inl h
  case cleanPurge c key before => exact Or.inl h
  case cleanAfter c key before => exact Or.inl h
  case cleanReply c key before after => exact Or.inl h
  all_goals exact h.elim

/-- The invariant is kept by the cancellation of a task that may go. -/
theorem Evidence.cancelRelease (h : Evidence st.redis st.calls) (symbol : Symbol) (sent : Bool)
    (hsafe : ∀ j ∈ st.releaseTasks gw symbol, ∀ call ∈ st.calls[j]?, ∀ s ∈ call.pc.releasing,
      SafeWithout st j s) :
    Evidence st.redis (st.cancelRelease gw symbol sent).calls := by
  rcases cancelRelease_calls st gw symbol sent with heq | ⟨j, call, htask, hj, heq⟩
  · rw [heq]
    exact h
  · have hsafe := hsafe j htask call hj
    rw [heq]
    intro s hactive
    rcases h s hactive with hcard | hcover
    · exact Or.inl hcard
    · by_cases hcall : covering s call.pc
      · rcases covering_cancel hcall with hkeep | hrel
        · exact Or.inr (exists_mem_set_self hj hkeep)
        · rcases hsafe s hrel with hinactive | hcard | hothers
          · rw [hactive] at hinactive
            cases hinactive
          · exact Or.inl hcard
          · exact Or.inr (hothers.exists_mem_set _)
      · exact Or.inr (exists_mem_set hj hcover fun hcall' => absurd hcall' hcall)

/-- The invariant is kept by a call that goes on after it has scheduled a release, or may leave it
to the task that there is. -/
theorem Evidence.scheduleRelease {symbol : Symbol} (h : Evidence st.redis st.calls)
    (hi : st.calls[i]? = some call) (hcover : ∀ s, covering s call.pc → s = symbol)
    (hsafe : st.hasReleaseTask gw symbol = true → ∀ s, covering s call.pc → SafeWithout st i s) :
    Evidence st.redis ((st.scheduleRelease gw symbol).calls.set i ⟨gw, pc⟩) := by
  rw [scheduleRelease_calls]
  split_ifs with htask
  · refine h.set hi fun s hactive => ?_
    by_cases hcall : covering s call.pc
    · rcases hsafe htask s hcall with hinactive | hcard | hothers
      · rw [hactive] at hinactive
        cases hinactive
      · exact .member hcard
      · exact .others hothers
    · exact .kept hactive id fun hcall' => absurd hcall' hcall
  · -- The new task covers the symbol.
    have hlt : i < st.calls.length := (List.getElem?_eq_some_iff.1 hi).1
    rw [List.set_append_left _ _ hlt]
    intro s hactive
    by_cases hcall : covering s call.pc
    · obtain rfl := hcover s hcall
      exact Or.inr ⟨_, List.mem_append_right _ (List.mem_singleton_self _), rfl⟩
    · rcases h s hactive with hcard | hcov
      · exact Or.inl hcard
      · exact Or.inr (exists_mem_append
          (exists_mem_set hi hcov fun hcall' => absurd hcall' hcall) _)

/-- The invariant is kept by a release script, whatever becomes of the call that has sent it: the
symbol has members, or it is no longer active. -/
theorem Evidence.releaseScript {symbol : Symbol} {now : Timestamp} (h : Evidence r calls)
    (hi : calls[i]? = some call) (hpc : ∀ s, s ≠ symbol → covering s call.pc → covering s pc) :
    Evidence (r.releaseScript symbol now).1 (calls.set i ⟨gw, pc⟩) := by
  refine h.set hi fun s hactive => ?_
  rw [Redis.releaseScript_active] at hactive
  have hsets : (r.releaseScript symbol now).1.sets = (r.purge symbol now).sets :=
    Redis.releaseScript_sets
  by_cases hs : s = symbol
  · subst hs
    -- A script that leaves the symbol active has found a member.
    refine .member fun hcard => ?_
    rw [hsets] at hcard
    have hrel : (r.releaseScript s now).2 = true := by
      rw [Redis.releaseScript_snd]
      refine ⟨hcard, ?_⟩
      split_ifs at hactive
      exact hactive
    rw [if_pos ⟨rfl, hrel⟩] at hactive
    cases hactive
  · rw [if_neg fun hrel => hs hrel.1] at hactive
    exact .kept hactive (fun hcard => by rwa [hsets, Redis.purge_sets_of_ne hs]) (hpc s hs)

/-- A step of a call that keeps the evidence keeps the invariant. -/
theorem evidence_runCall {listing : List Symbol} {flag : Bool}
    (h : Evidence st.redis st.calls) (hi : st.calls[i]? = some ⟨gw, pc⟩)
    (hkeeps : KeepsEvidence cfg st (.run i listing flag))
    (hrun : runCall cfg st i gw listing flag pc = some st') :
    Evidence st'.redis st'.calls := by
  simp only [KeepsEvidence, hi] at hkeeps
  cases pc
  case subEval c symbol =>
    obtain rfl := Option.some.inj hrun
    change Evidence (st.redis.subscribeScript _ c.conn symbol _ _ _).1 (st.calls.set i ⟨gw, _⟩)
    refine h.set hi fun s hactive => ?_
    rw [Redis.subscribeScript_active] at hactive
    by_cases hs : s = symbol
    · subst hs
      rcases hkeeps with hpos | hinactive | hcover
      · refine .member ?_
        rw [Redis.subscribeScript_sets_self hpos]
        exact SortedSet.zcard_zadd_ne_zero _ _ _
      · rw [hactive] at hinactive
        cases hinactive
      · exact .covered hcover fun hcall => hcall.elim
    · exact .kept hactive (fun hcard => by rwa [Redis.subscribeScript_sets_of_ne hs])
        fun hcall => hcall.elim
  case subReply c symbol after =>
    obtain rfl := Option.some.inj hrun
    refine (cancelRelease_redis st gw symbol flag).symm ▸ ?_
    exact (h.cancelRelease symbol flag hkeeps).set_of_eq (cancelRelease_getElem? hi rfl) rfl rfl
      fun _ hcall => hcall.elim
  case subSetNx c symbol =>
    obtain rfl := Option.some.inj hrun
    change Evidence (st.redis.setActiveNx symbol).1 (st.calls.set i ⟨gw, _⟩)
    refine h.set hi fun s hactive => ?_
    rw [Redis.setActiveNx_active] at hactive
    have hsets : (st.redis.setActiveNx symbol).1.sets = st.redis.sets := Redis.setActiveNx_sets
    by_cases hs : s = symbol
    · subst hs
      rcases hkeeps with hwas | hcard | hcover
      · exact .kept hwas (fun hcard => by rwa [hsets]) fun hcall => hcall.elim
      · exact .member (by rwa [hsets])
      · exact .covered hcover fun hcall => hcall.elim
    · rw [if_neg hs] at hactive
      exact .kept hactive (fun hcard => by rwa [hsets]) fun hcall => hcall.elim
  case subPublish c symbol =>
    obtain rfl := Option.some.inj hrun
    exact h.set_of_eq hi rfl rfl fun _ hcall => hcall.elim
  case unsubEval c symbol =>
    obtain rfl := Option.some.inj hrun
    change Evidence (st.redis.unsubscribeScript c.conn symbol _).1 (st.calls.set i ⟨gw, _⟩)
    refine h.set hi fun s hactive => ?_
    by_cases hs : s = symbol
    · -- The reply says whether a member is left.
      subst hs
      by_cases hcard :
          ((st.redis.unsubscribeScript c.conn s c.now).1.sets s).zcard = 0
      · exact .self ⟨rfl, hcard⟩
      · exact .member hcard
    · exact .kept hactive (fun hcard => by rwa [Redis.unsubscribeScript_sets_of_ne hs])
        fun hcall => hcall.elim
  case unsubReply c symbol after =>
    rw [runCall] at hrun
    split_ifs at hrun with hafter
    · obtain rfl := Option.some.inj hrun
      refine (scheduleRelease_redis st gw _).symm ▸ ?_
      refine h.scheduleRelease hi (fun s hcall => hcall.1.symm) fun htask s hcall => ?_
      rw [← show symbol = s from hcall.1]
      exact hkeeps hcall.2 htask
    · obtain rfl := Option.some.inj hrun
      exact h.set_of_eq hi rfl rfl fun s hcall => absurd hcall.2 hafter
  case hbZadd conn expiresAt symbol rest =>
    obtain rfl := Option.some.inj hrun
    change Evidence (st.redis.zadd symbol conn expiresAt) (st.calls.set i ⟨gw, _⟩)
    refine h.set hi fun s hactive => ?_
    by_cases hs : s = symbol
    · subst hs
      refine .member ?_
      rw [Redis.zadd_sets_self]
      exact SortedSet.zcard_zadd_ne_zero _ _ _
    · exact .kept hactive (fun hcard => by rwa [Redis.zadd_sets_of_ne hs])
        fun hcall => hcall.elim
  case hbExpire conn expiresAt symbol rest =>
    obtain rfl := Option.some.inj hrun
    change Evidence (st.redis.expireSet symbol _ _) (st.calls.set i ⟨gw, _⟩)
    refine h.set hi fun s hactive => ?_
    rw [Redis.expireSet_active] at hactive
    by_cases hs : s = symbol
    · subst hs
      rcases hkeeps with hpos | hinactive | hcover
      · refine .kept hactive (fun hcard => ?_) fun hcall => hcall.elim
        rwa [Redis.expireSet_sets_of_pos (by omega)]
      · rw [hactive] at hinactive
        cases hinactive
      · exact .covered hcover fun hcall => hcall.elim
    · exact .kept hactive (fun hcard => by rwa [Redis.expireSet_sets_of_ne hs])
        fun hcall => hcall.elim
  case hbExpireConn conn =>
    obtain rfl := Option.some.inj hrun
    exact h.set_of_eq hi Redis.expireConn_active Redis.expireConn_sets fun _ hcall => hcall.elim
  case discDelete conn changed =>
    obtain rfl := Option.some.inj hrun
    exact h.set_of_eq hi rfl rfl fun _ hcall => hcall.elim
  case relStart symbol =>
    obtain rfl := Option.some.inj hrun
    exact h.set_of_eq hi rfl rfl fun _ hcall => hcall
  case relSleep symbol wakeAt =>
    rw [runCall] at hrun
    split_ifs at hrun
    obtain rfl := Option.some.inj hrun
    exact h.set_of_eq hi rfl rfl fun _ hcall => hcall
  case relEval symbol now =>
    obtain rfl := Option.some.inj hrun
    exact h.releaseScript hi fun s hs hcall => absurd (Eq.symm hcall) hs
  case relReply symbol released =>
    rw [runCall] at hrun
    split_ifs at hrun <;> obtain rfl := Option.some.inj hrun
    · exact h.set_of_eq hi rfl rfl fun _ hcall => hcall.elim
    · exact h.set_of_eq hi rfl rfl fun _ hcall => hcall.elim
  case relPublish symbol =>
    obtain rfl := Option.some.inj hrun
    exact h.set_of_eq hi rfl rfl fun _ hcall => hcall.elim
  case relFinally symbol =>
    obtain rfl := Option.some.inj hrun
    exact h.set_of_eq hi rfl rfl fun _ hcall => hcall.elim
  case cleanPurge c key before =>
    obtain rfl := Option.some.inj hrun
    exact h.purge hi hkeeps fun _ hcall => hcall
  case cleanAfter c key before =>
    obtain rfl := Option.some.inj hrun
    refine h.set hi fun s hactive => ?_
    by_cases hcard : (st.redis.sets s).zcard = 0
    · -- The second count is zero, so the cleanup goes on to schedule what it covers.
      refine .kept hactive id fun hcall => ?_
      obtain ⟨rfl, hbefore, hcolon⟩ := hcall
      exact ⟨rfl, hbefore, hcard, hcolon⟩
    · exact .member hcard
  case cleanReply c key before after =>
    rw [runCall] at hrun
    split_ifs at hrun with hcounts
    · obtain rfl := Option.some.inj hrun
      refine (scheduleRelease_redis st gw _).symm ▸ ?_
      refine h.scheduleRelease hi (fun s hcall => hcall.2.2.2.symm) fun htask s hcall => ?_
      rw [← show key = s from hcall.1]
      exact hkeeps hcall.2.1 hcall.2.2.1 htask
    · obtain rfl := Option.some.inj hrun
      exact h.set_of_eq hi rfl rfl fun s hcall => absurd ⟨hcall.2.1, hcall.2.2.1⟩ hcounts
  case metricsPurge m key =>
    obtain rfl := Option.some.inj hrun
    exact h.purge hi hkeeps fun _ hcall => hcall.elim
  case done changed => cases hrun
  -- The other steps change nothing but their own program counter.
  all_goals
    obtain ⟨pc', rfl⟩ := runCall_local rfl hrun
    exact h.set_of_eq hi rfl rfl fun _ hcall => hcall.elim

/-- A step that keeps the evidence keeps the invariant. -/
theorem evidence_step {a : Label} (h : Evidence st.redis st.calls) (hkeeps : KeepsEvidence cfg st a)
    (hstep : step cfg st a = some st') : Evidence st'.redis st'.calls := by
  cases a with
  | start gw op =>
    obtain rfl := Option.some.inj hstep
    exact h.append _
  | run i listing flag =>
    obtain ⟨gw, pc, hi, hrun⟩ := step_run hstep
    exact evidence_runCall h hi hkeeps hrun
  | orphan k =>
    -- The script of a cancelled task covers nobody: it decides by the set, as that of a task does.
    obtain ⟨p, -, rfl⟩ := Option.map_eq_some_iff.1 hstep
    intro s hactive
    have hactive : (st.redis.releaseScript p.1 p.2).1.active s = true := hactive
    rw [Redis.releaseScript_active] at hactive
    split_ifs at hactive with hrel
    change ((st.redis.releaseScript p.1 p.2).1.sets s).zcard ≠ 0 ∨ _
    rw [Redis.releaseScript_sets]
    by_cases hs : s = p.1
    · subst hs
      refine Or.inl fun hcard => hrel ⟨rfl, ?_⟩
      exact Redis.releaseScript_snd.2 ⟨hcard, hactive⟩
    · rw [Redis.purge_sets_of_ne hs]
      exact h s hactive
  | tick d =>
    obtain rfl := Option.some.inj hstep
    intro s hactive
    have hactive : st.redis.active s = true := hactive
    by_cases hcard : ((st.redis.expireKeys (st.now + d)).sets s).zcard = 0
    · rcases hkeeps s hcard with hempty | hinactive | hcover
      · exact Or.inr ((h s hactive).resolve_left (not_not.2 hempty))
      · rw [hactive] at hinactive
        cases hinactive
      · exact Or.inr hcover
    · exact Or.inl hcard

end Step

/-- In every run whose steps keep the evidence, no release is forgotten. -/
theorem noForgottenRelease_of_keepsEvidence (cfg : Settings) {st : State}
    (h : Path (step cfg) (KeepsEvidence cfg) .init st) : NoForgottenRelease st := by
  have hinv : Evidence st.redis st.calls :=
    h.invariant (fun st => Evidence st.redis st.calls)
      (fun s hactive => absurd hactive Bool.false_ne_true)
      fun _ _ _ hinv hok hstep => evidence_step hinv hok hstep
  intro hquiet s hactive _
  rcases hinv s hactive with hcard | ⟨call, hcall, hcover⟩
  · exact Or.inr (SortedSet.exists_mem_of_zcard_ne_zero hcard)
  · -- The call that covers the symbol is a release task, since none may yet schedule one.
    refine Or.inl ⟨call, hcall, ?_⟩
    have hidle := hquiet call hcall
    revert hcover hidle
    cases call.pc <;> simp [covering, Pc.schedules, Pc.releasing]

/-- The last subscriber leaves, and the release is scheduled. -/
def scheduledRun : List Label :=
  [.start 0 (.subscribe "c1" ["AAPL"]), .next 0, .next 0, .next 0, .next 0, .run 0 ["AAPL"] true,
    .next 0, .next 0, .start 0 (.unsubscribe "c1" ["AAPL"]), .next 1, .next 1, .run 1 [] true]

/-- A symbol without subscribers is released once it is scheduled. -/
theorem noForgottenRelease_scheduledRun :
    ∃ st, (st.redis.active "AAPL" = true ∧ (st.redis.sets "AAPL").zcard = 0 ∧
      ∀ call ∈ st.calls, call.pc.schedules = false) ∧ NoForgottenRelease st := by
  obtain ⟨st, hpath, hst⟩ := Path.exists_of_exec (step {}) (KeepsEvidence {}) .init scheduledRun
    (fun st => st.redis.active "AAPL" = true ∧ (st.redis.sets "AAPL").zcard = 0 ∧
      ∀ call ∈ st.calls, call.pc.schedules = false) (by decide)
  exact ⟨st, hst, noForgottenRelease_of_keepsEvidence {} hpath⟩

/-- The only subscriber's entry expires, and `refresh_metrics` purges it. -/
def metricsPurgeRun : List Label :=
  [.start 0 (.subscribe "c1" ["AAPL"]), .next 0, .next 0, .next 0, .next 0, .run 0 ["AAPL"] true,
    .next 0, .next 0, .tick 61000000,
    .start 0 .refreshMetrics, .run 1 ["AAPL"] true, .next 1, .next 1]

/-- Even when every call has returned, an active symbol may have neither a member nor a release. -/
theorem not_noForgottenRelease :
    ¬ ∀ st, Path (step {}) anyStep .init st → (∀ call ∈ st.calls, call.pc.isDone = true) →
      NoForgottenRelease st := by
  obtain ⟨st, hpath, hdone, hactive, hcard, hquiet, hnone⟩ := Path.exists_of_exec (step {}) anyStep
    .init metricsPurgeRun (fun st => (∀ call ∈ st.calls, call.pc.isDone = true) ∧
      st.redis.active "AAPL" = true ∧ (st.redis.sets "AAPL").zcard = 0 ∧
      (∀ call ∈ st.calls, call.pc.schedules = false) ∧
      ∀ call ∈ st.calls, call.pc.releasing ≠ some "AAPL") (by decide)
  intro hall
  have hempty : ∀ conn, conn ∉ st.redis.sets "AAPL" := SortedSet.zcard_eq_zero.1 hcard
  rcases hall st hpath hdone hquiet "AAPL" hactive (fun conn hmem => hempty conn hmem.mem) with
    ⟨call, hcall, hrel⟩ | ⟨conn, hmem⟩
  · exact hnone call hcall hrel
  · exact hempty conn hmem

end MarketDataGateway.Registry
