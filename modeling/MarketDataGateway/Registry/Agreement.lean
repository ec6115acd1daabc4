import MarketDataGateway.Registry.Step

/-!
# The control stream agrees with the upstream states, but for late publications

A collector folds the control stream, so that a symbol is subscribed upstream when its last action
there is `subscribe`. The registry changes a symbol's upstream state in one step and publishes the
action in a later one, and another gateway may change the state in between: a publication may come
late, when the state has changed again and the newer action has been published.

`Accounted` is the invariant: a symbol's last action agrees with its upstream state, or a call is
about to publish the action that agrees. A late publication breaks it, unless the action that agrees
is still to come; so does the cancellation of a release task that has deleted the state and not
published that.
-/

namespace MarketDataGateway.Registry

open Lib

/-- The call is about to publish that the symbol is active, or that it is not. -/
def announcing (active : Bool) (s : Symbol) : Pc → Prop
  | .subPublish _ symbol => active = true ∧ symbol = s
  | .relReply symbol released => active = false ∧ released = true ∧ symbol = s
  | .relPublish symbol => active = false ∧ symbol = s
  | _ => False

instance (active : Bool) (s : Symbol) (pc : Pc) : Decidable (announcing active s pc) := by
  unfold announcing
  rcases pc with _ | _ <;> infer_instance

/-- The symbol's last action is `subscribe` exactly when the symbol is active. -/
def Agrees (r : Redis) (s : Symbol) : Prop :=
  r.lastAction s = some .subscribe ↔ r.active s = true

instance (r : Redis) (s : Symbol) : Decidable (Agrees r s) := by
  unfold Agrees
  infer_instance

/-- Each symbol's last action agrees with its upstream state, or the one that does is about to be
published. -/
def Accounted (r : Redis) (calls : List Call) : Prop :=
  ∀ s, Agrees r s ∨ ∃ call ∈ calls, announcing (r.active s) s call.pc

/-- The symbol that a release task has deactivated and not yet announced. -/
def Pc.released : Pc → Option Symbol
  | .relReply symbol true => some symbol
  | .relPublish symbol => some symbol
  | _ => none

/-- The loss of a release task at `j` does not lose an action that the control stream needs. -/
def MayLose (st : State) (j : ℕ) (pc : Pc) : Prop :=
  match pc.released with
  | some s => st.redis.active s = true ∨ st.redis.lastAction s ≠ some .subscribe ∨
      Others st.calls j fun call => announcing false s call.pc
  | none => True

instance (st : State) (j : ℕ) (pc : Pc) : Decidable (MayLose st j pc) := by
  unfold MayLose
  split <;> infer_instance

/-- No call publishes an action with which the upstream state no longer agrees, unless the action
that agrees is still to come; and no script deletes an upstream state without its caller being about
to publish that, unless that is not needed. -/
def InOrder (st : State) : Label → Prop
  | .run i _ _ =>
    match st.calls[i]? with
    | some ⟨_, .subPublish _ s⟩ =>
      st.redis.active s = true ∨ Others st.calls i fun call => announcing false s call.pc
    | some ⟨_, .relPublish s⟩ =>
      st.redis.active s = false ∨ Others st.calls i fun call => announcing true s call.pc
    | some ⟨gw, .subReply _ s _⟩ =>
      ∀ j ∈ st.releaseTasks gw s, ∀ call ∈ st.calls[j]?, MayLose st j call.pc
    | _ => True
  | .orphan k =>
    ∀ p ∈ st.orphans[k]?, (st.redis.releaseScript p.1 p.2).2 = true →
      st.redis.lastAction p.1 ≠ some .subscribe ∨
        ∃ call ∈ st.calls, announcing false p.1 call.pc
  | _ => True

instance (st : State) : (a : Label) → Decidable (InOrder st a)
  | .tick _ => inferInstanceAs (Decidable True)
  | .start _ _ => inferInstanceAs (Decidable True)
  | .orphan k => by
    dsimp only [InOrder]
    infer_instance
  | .run i _ _ => by
    dsimp only [InOrder]
    rcases st.calls[i]? with _ | ⟨_, _ | _⟩ <;> infer_instance

/-- The call is a `subscribe` or an `unsubscribe`, before its metrics, or a release task after its
grace period. -/
def Pc.controls : Pc → Bool
  | .subEval _ _ => true
  | .subReply _ _ _ => true
  | .subSetNx _ _ => true
  | .subPublish _ _ => true
  | .unsubEval _ _ => true
  | .unsubReply _ _ _ => true
  | .relEval _ _ => true
  | .relReply _ _ => true
  | .relPublish _ => true
  | .relFinally _ => true
  | _ => false

/-- The control stream agrees with the upstream states: when no `subscribe`, `unsubscribe` or
release call is in flight, the last action of a symbol that has one is `subscribe` exactly when the
symbol is active. -/
def ControlAgreement (st : State) : Prop :=
  (∀ call ∈ st.calls, call.pc.controls = false) →
    ∀ s, st.redis.lastAction s ≠ none → Agrees st.redis s

section Step

variable {r r' : Redis} {calls : List Call} {i gw : ℕ} {call : Call} {pc : Pc} {cfg : Settings}
  {st st' : State}

/-- What keeps a symbol's state and its last action keeps their agreement. -/
theorem Agrees.congr {s : Symbol} (h : Agrees r s) (hactive : r'.active s = r.active s)
    (hlast : r'.lastAction s = r.lastAction s) : Agrees r' s := by
  unfold Agrees at h ⊢
  rw [hactive, hlast]
  exact h

/-- Why a symbol `s` is accounted for after a step of the call at `i`, from `before` to `pc`. -/
inductive StillAccounted (r r' : Redis) (calls : List Call) (i : ℕ) (before pc : Pc) (s : Symbol) :
    Prop
  /-- It keeps its state and its last action, and the call keeps its announcement. -/
  | kept (hactive : r'.active s = r.active s) (hlast : r'.lastAction s = r.lastAction s)
    (hpc : announcing (r.active s) s before → announcing (r.active s) s pc)
  /-- Its state and its last action agree. -/
  | agrees (hagree : Agrees r' s)
  /-- The call announces its state. -/
  | self (hpc : announcing (r'.active s) s pc)
  /-- Another call announces its state. -/
  | others (hothers : Others calls i fun call => announcing (r'.active s) s call.pc)

/-- The invariant is kept by a step of the call at `i` after which each symbol is accounted for. -/
theorem Accounted.set (h : Accounted r calls) (hi : calls[i]? = some call)
    (hs : ∀ s, StillAccounted r r' calls i call.pc pc s) : Accounted r' (calls.set i ⟨gw, pc⟩) := by
  intro s
  cases hs s with
  | kept hactive hlast hpc =>
    rcases h s with hagree | hpend
    · exact Or.inl (hagree.congr hactive hlast)
    · rw [hactive]
      exact Or.inr (exists_mem_set hi hpend hpc)
  | agrees hagree => exact Or.inl hagree
  | self hpc => exact Or.inr (exists_mem_set_self hi hpc)
  | others hothers => exact Or.inr (hothers.exists_mem_set _)

/-- The invariant is kept by a step of the call at `i` that keeps the states and the control stream
and was to announce nothing. -/
theorem Accounted.set_of_eq (h : Accounted r calls) (hi : calls[i]? = some call)
    (hactive : r'.active = r.active) (hcontrol : r'.control = r.control)
    (hpc : ∀ b s, announcing b s call.pc → announcing b s pc) :
    Accounted r' (calls.set i ⟨gw, pc⟩) :=
  h.set hi fun s => .kept (congrFun hactive s) (Redis.lastAction_congr hcontrol) (hpc _ s)

/-- The invariant is kept by calls that begin. -/
theorem Accounted.append (h : Accounted r calls) (calls' : List Call) :
    Accounted r (calls ++ calls') :=
  fun s => (h s).imp_right fun hpend => exists_mem_append hpend calls'

/-- The invariant is kept by `_schedule_release`. -/
theorem Accounted.scheduleRelease (h : Accounted st.redis st.calls) (gw : ℕ) (symbol : Symbol) :
    Accounted st.redis (st.scheduleRelease gw symbol).calls := by
  rw [scheduleRelease_calls]
  split_ifs
  · exact h
  · exact h.append _

/-- A cancellation drops no announcement but that of a release. -/
theorem announcing_cancel {b : Bool} {s : Symbol} (h : announcing b s pc) :
    announcing b s pc.cancel ∨ b = false ∧ pc.released = some s := by
  cases pc
  case subPublish c symbol => exact Or.inl h
  case relReply symbol released =>
    obtain ⟨rfl, rfl, rfl⟩ := h
    exact Or.inr ⟨rfl, rfl⟩
  case relPublish symbol =>
    obtain ⟨rfl, rfl⟩ := h
    exact Or.inr ⟨rfl, rfl⟩
  all_goals exact h.elim

/-- The invariant is kept by a cancellation that may lose its task. -/
theorem Accounted.cancelRelease (h : Accounted st.redis st.calls) (symbol : Symbol) (sent : Bool)
    (hlose : ∀ j ∈ st.releaseTasks gw symbol, ∀ call ∈ st.calls[j]?, MayLose st j call.pc) :
    Accounted st.redis (st.cancelRelease gw symbol sent).calls := by
  rcases cancelRelease_calls st gw symbol sent with heq | ⟨j, call, htask, hj, heq⟩
  · rw [heq]
    exact h
  · have hlose := hlose j htask call hj
    rw [heq]
    intro s
    rcases h s with hagree | hpend
    · exact Or.inl hagree
    · by_cases hcall : announcing (st.redis.active s) s call.pc
      · rcases announcing_cancel hcall with hkeep | ⟨hinactive, hrel⟩
        · exact Or.inr (exists_mem_set_self hj hkeep)
        · -- The task has deactivated `s`, and will not publish that.
          unfold MayLose at hlose
          rw [hrel] at hlose
          rcases hlose with hactive | hlast | hothers
          · rw [hactive] at hinactive
            cases hinactive
          · refine Or.inl ⟨fun hsub => absurd hsub hlast, fun hactive => ?_⟩
            rw [hactive] at hinactive
            cases hinactive
          · rw [hinactive]
            exact Or.inr (hothers.exists_mem_set _)
      · exact Or.inr (exists_mem_set hj hpend fun hcall' => absurd hcall' hcall)

/-- A step of a call that publishes in order keeps the invariant. -/
theorem accounted_runCall {listing : List Symbol} {flag : Bool}
    (h : Accounted st.redis st.calls) (hi : st.calls[i]? = some ⟨gw, pc⟩)
    (horder : InOrder st (.run i listing flag))
    (hrun : runCall cfg st i gw listing flag pc = some st') :
    Accounted st'.redis st'.calls := by
  cases pc
  case subEval c symbol =>
    obtain rfl := Option.some.inj hrun
    exact h.set_of_eq hi Redis.subscribeScript_active Redis.subscribeScript_control
      fun _ _ hann => hann.elim
  case subReply c symbol after =>
    obtain rfl := Option.some.inj hrun
    -- By the order, the task that is cancelled may lose its publication.
    have hlose : ∀ j ∈ st.releaseTasks gw symbol, ∀ call ∈ st.calls[j]?, MayLose st j call.pc := by
      simpa only [InOrder, hi] using horder
    refine (cancelRelease_redis st gw symbol flag).symm ▸ ?_
    exact (h.cancelRelease symbol flag hlose).set_of_eq (cancelRelease_getElem? hi rfl) rfl rfl
      fun _ _ hann => hann.elim
  case subSetNx c symbol =>
    obtain rfl := Option.some.inj hrun
    change Accounted (st.redis.setActiveNx symbol).1 (st.calls.set i ⟨gw, _⟩)
    refine h.set hi fun s => ?_
    by_cases hnew : s = symbol ∧ st.redis.active symbol = false
    · -- The symbol has become active, and the call goes on to publish that.
      obtain ⟨rfl, hinactive⟩ := hnew
      refine .self ?_
      rw [Redis.setActiveNx_snd, hinactive]
      exact ⟨by rw [Redis.setActiveNx_active, if_pos rfl], rfl⟩
    · refine .kept ?_ (Redis.lastAction_congr Redis.setActiveNx_control) fun hann => hann.elim
      rw [Redis.setActiveNx_active]
      split_ifs with hs
      · subst hs
        cases hact : st.redis.active s with
        | true => rfl
        | false => exact absurd ⟨rfl, hact⟩ hnew
      · rfl
  case subPublish c symbol =>
    obtain rfl := Option.some.inj hrun
    have horder : st.redis.active symbol = true ∨
        Others st.calls i fun call => announcing false symbol call.pc := by
      simpa only [InOrder, hi] using horder
    change Accounted (st.redis.publishControl .subscribe symbol) (st.calls.set i ⟨gw, _⟩)
    refine h.set hi fun s => ?_
    by_cases hs : s = symbol
    · subst hs
      cases hact : st.redis.active s with
      | true =>
        refine .agrees ?_
        unfold Agrees
        rw [Redis.lastAction_publishControl_self, Redis.publishControl_active, hact]
        simp
      | false =>
        -- By the order, a call is still to publish that the symbol is inactive.
        refine .others ?_
        rw [Redis.publishControl_active, hact]
        rw [hact] at horder
        exact horder.resolve_left Bool.false_ne_true
    · exact .kept rfl (Redis.lastAction_publishControl_of_ne hs) fun hann => absurd hann.2.symm hs
  case unsubEval c symbol =>
    obtain rfl := Option.some.inj hrun
    exact h.set_of_eq hi Redis.unsubscribeScript_active Redis.unsubscribeScript_control
      fun _ _ hann => hann.elim
  case unsubReply c symbol after =>
    rw [runCall] at hrun
    split_ifs at hrun
    · obtain rfl := Option.some.inj hrun
      refine (scheduleRelease_redis st gw symbol).symm ▸ ?_
      exact (h.scheduleRelease gw symbol).set_of_eq (scheduleRelease_getElem? hi) rfl rfl
        fun _ _ hann => hann.elim
    · obtain rfl := Option.some.inj hrun
      exact h.set_of_eq hi rfl rfl fun _ _ hann => hann.elim
  case hbZadd conn expiresAt symbol rest =>
    obtain rfl := Option.some.inj hrun
    exact h.set_of_eq hi rfl rfl fun _ _ hann => hann.elim
  case hbExpire conn expiresAt symbol rest =>
    obtain rfl := Option.some.inj hrun
    exact h.set_of_eq hi Redis.expireSet_active Redis.expireSet_control fun _ _ hann => hann.elim
  case hbExpireConn conn =>
    obtain rfl := Option.some.inj hrun
    exact h.set_of_eq hi Redis.expireConn_active Redis.expireConn_control
      fun _ _ hann => hann.elim
  case discDelete conn changed =>
    obtain rfl := Option.some.inj hrun
    exact h.set_of_eq hi rfl rfl fun _ _ hann => hann.elim
  case relEval symbol now =>
    obtain rfl := Option.some.inj hrun
    change Accounted (st.redis.releaseScript symbol now).1 (st.calls.set i ⟨gw, _⟩)
    refine h.set hi fun s => ?_
    by_cases hrel : s = symbol ∧ (st.redis.releaseScript symbol now).2 = true
    · -- The symbol has been deactivated, and the task goes on to publish that.
      refine .self ?_
      rw [Redis.releaseScript_active, if_pos hrel]
      exact ⟨rfl, hrel.2, hrel.1.symm⟩
    · refine .kept ?_ (Redis.lastAction_congr Redis.releaseScript_control) fun hann => hann.elim
      rw [Redis.releaseScript_active, if_neg hrel]
  case relReply symbol released =>
    rw [runCall] at hrun
    split_ifs at hrun with hrel <;> obtain rfl := Option.some.inj hrun
    · exact h.set_of_eq hi rfl rfl fun _ _ hann => ⟨hann.1, hann.2.2⟩
    · exact h.set_of_eq hi rfl rfl fun _ _ hann => absurd hann.2.1 hrel
  case relPublish symbol =>
    obtain rfl := Option.some.inj hrun
    have horder : st.redis.active symbol = false ∨
        Others st.calls i fun call => announcing true symbol call.pc := by
      simpa only [InOrder, hi] using horder
    change Accounted (st.redis.publishControl .unsubscribe symbol) (st.calls.set i ⟨gw, _⟩)
    refine h.set hi fun s => ?_
    by_cases hs : s = symbol
    · subst hs
      cases hact : st.redis.active s with
      | false =>
        refine .agrees ?_
        unfold Agrees
        rw [Redis.lastAction_publishControl_self, Redis.publishControl_active, hact]
        simp
      | true =>
        -- By the order, a call is still to publish that the symbol is active again.
        refine .others ?_
        rw [Redis.publishControl_active, hact]
        rw [hact] at horder
        exact horder.resolve_left Bool.true_eq_false.mp
    · exact .kept rfl (Redis.lastAction_publishControl_of_ne hs) fun hann => absurd hann.2.symm hs
  case relFinally symbol =>
    obtain rfl := Option.some.inj hrun
    exact h.set_of_eq hi rfl rfl fun _ _ hann => hann.elim
  case cleanPurge c key before =>
    obtain rfl := Option.some.inj hrun
    exact h.set_of_eq hi rfl rfl fun _ _ hann => hann.elim
  case cleanReply c key before after =>
    rw [runCall] at hrun
    split_ifs at hrun
    · obtain rfl := Option.some.inj hrun
      refine (scheduleRelease_redis st gw _).symm ▸ ?_
      exact (h.scheduleRelease gw _).set_of_eq (scheduleRelease_getElem? hi) rfl rfl
        fun _ _ hann => hann.elim
    · obtain rfl := Option.some.inj hrun
      exact h.set_of_eq hi rfl rfl fun _ _ hann => hann.elim
  case metricsPurge m key =>
    obtain rfl := Option.some.inj hrun
    exact h.set_of_eq hi rfl rfl fun _ _ hann => hann.elim
  case done changed => cases hrun
  -- The other steps change nothing but their own program counter.
  all_goals
    obtain ⟨pc', rfl⟩ := runCall_local rfl hrun
    exact h.set_of_eq hi rfl rfl fun _ _ hann => hann.elim

/-- A step that publishes in order keeps the invariant. -/
theorem accounted_step {a : Label} (h : Accounted st.redis st.calls) (horder : InOrder st a)
    (hstep : step cfg st a = some st') : Accounted st'.redis st'.calls := by
  cases a with
  | start gw op =>
    obtain rfl := Option.some.inj hstep
    exact h.append _
  | run i listing flag =>
    obtain ⟨gw, pc, hi, hrun⟩ := step_run hstep
    exact accounted_runCall h hi horder hrun
  | orphan k =>
    obtain ⟨p, hp, rfl⟩ := Option.map_eq_some_iff.1 hstep
    intro s
    have hlast : (st.redis.releaseScript p.1 p.2).1.lastAction s = st.redis.lastAction s :=
      Redis.lastAction_congr Redis.releaseScript_control
    change Agrees (st.redis.releaseScript p.1 p.2).1 s ∨ ∃ call ∈ st.calls,
      announcing ((st.redis.releaseScript p.1 p.2).1.active s) s call.pc
    by_cases hrel : s = p.1 ∧ (st.redis.releaseScript p.1 p.2).2 = true
    · -- The script has deactivated the symbol, and nobody publishes that on its account.
      have hinactive : (st.redis.releaseScript p.1 p.2).1.active s = false := by
        rw [Redis.releaseScript_active, if_pos hrel]
      rw [hinactive]
      obtain ⟨rfl, hrel⟩ := hrel
      refine (horder p hp hrel).imp_left fun hne => ?_
      unfold Agrees
      rw [hlast, hinactive]
      exact ⟨fun hsub => absurd hsub hne, fun hact => absurd hact Bool.false_ne_true⟩
    · have hactive : (st.redis.releaseScript p.1 p.2).1.active s = st.redis.active s := by
        rw [Redis.releaseScript_active, if_neg hrel]
      rw [hactive]
      exact (h s).imp_left fun hagree => hagree.congr hactive hlast
  | tick d =>
    obtain rfl := Option.some.inj hstep
    exact fun s => (h s).imp_left fun hagree => hagree.congr rfl rfl

end Step

/-- In every run that publishes in order, the control stream agrees with the upstream states. -/
theorem controlAgreement_of_inOrder (cfg : Settings) {st : State}
    (h : Path (step cfg) InOrder .init st) : ControlAgreement st := by
  have hinv : Accounted st.redis st.calls :=
    h.invariant (fun st => Accounted st.redis st.calls)
      (fun _ => Or.inl (by simp [Agrees, State.init, Redis.empty, Redis.lastAction]))
      fun _ _ _ hinv hok hstep => accounted_step hinv hok hstep
  intro hquiet s _
  rcases hinv s with hagree | ⟨call, hcall, hann⟩
  · exact hagree
  · -- A call that is about to publish is in flight.
    have hidle := hquiet call hcall
    revert hann hidle
    cases call.pc <;> simp [announcing, Pc.controls]

/-- A symbol is activated on one gateway, released there, and activated on another. -/
def inOrderRun : List Label :=
  [.start 0 (.subscribe "c1" ["AAPL"]), .next 0, .next 0, .next 0, .next 0, .run 0 [] true,
    .start 0 (.unsubscribe "c1" ["AAPL"]), .next 1, .next 1, .run 1 [] true,
    .next 2, .tick 3000000, .next 2, .next 2, .next 2, .next 2, .next 2, .run 2 [] true,
    .start 1 (.subscribe "c2" ["AAPL"]), .next 3, .next 3, .next 3, .next 3, .run 3 [] true]

/-- Actions that are published in order agree with the upstream state. -/
theorem controlAgreement_inOrderRun :
    ∃ st, (st.redis.control = [(.subscribe, "AAPL"), (.unsubscribe, "AAPL"),
      (.subscribe, "AAPL")] ∧ ∀ call ∈ st.calls, call.pc.controls = false) ∧
      ControlAgreement st := by
  obtain ⟨st, hpath, hst⟩ := Path.exists_of_exec (step {}) InOrder .init inOrderRun
    (fun st => st.redis.control = [(.subscribe, "AAPL"), (.unsubscribe, "AAPL"),
      (.subscribe, "AAPL")] ∧ ∀ call ∈ st.calls, call.pc.controls = false) (by decide)
  exact ⟨st, hst, controlAgreement_of_inOrder {} hpath⟩

/-- The other gateway activates the symbol between the release script and its publication. -/
def latePublicationRun : List Label :=
  [.start 0 (.subscribe "c1" ["AAPL"]), .next 0, .next 0, .next 0, .next 0, .run 0 [] true,
    .start 0 (.unsubscribe "c1" ["AAPL"]), .next 1, .next 1, .run 1 [] true,
    .next 2, .tick 3000000, .next 2, .next 2, .next 2,
    .start 1 (.subscribe "c2" ["AAPL"]), .next 3, .next 3, .next 3, .next 3, .run 3 [] true,
    .next 2, .next 2, .run 2 [] true]

/-- The last action does not agree with the upstream state in some run. -/
theorem not_controlAgreement :
    ¬ ∀ st, Path (step {}) anyStep .init st → ControlAgreement st := by
  obtain ⟨st, hpath, hquiet, hlast, hdisagree⟩ := Path.exists_of_exec (step {}) anyStep .init
    latePublicationRun (fun st => (∀ call ∈ st.calls, call.pc.controls = false) ∧
      st.redis.lastAction "AAPL" ≠ none ∧ ¬ Agrees st.redis "AAPL") (by decide)
  exact fun hall => hdisagree (hall st hpath hquiet "AAPL" hlast)

end MarketDataGateway.Registry
