import MarketDataGateway.Collector.Control
import MarketDataGateway.Registry.Agreement

/-!
# Collector restarts

The registry of any number of gateways, and one collector that reads what they publish, stops or
crashes at any time and is started again. A collector that starts has no active symbol, and the
group has delivered the entries before that (`ensure_groups` leaves a group as it is): it never sees
them.

`Known` is the invariant: a symbol that is active is in the set that the collector comes to with
what it has not applied yet (`State.eventual`), or a `subscribe` call is about to publish it. It is
kept as long as no step drops an active symbol from that set. As in `Collector/Control.lean`, the
control stream is never trimmed: the collector is never as far behind as the 10 000 entries that
`publish_control` keeps.
-/

namespace MarketDataGateway.Collector.Restart

open Lib Streams
open Pipeline (Outcome)
open Registry (Action Call Redis announcing)

/-- The text of an action. -/
def actionText : Action → String
  | .subscribe => "subscribe"
  | .unsubscribe => "unsubscribe"

/-- The fields of the entry that `publish_control` adds. -/
def fieldsOf (control : Control) : Fields := ⟨some (actionText control.1), some control.2⟩

/-- The message of a published entry. The registry's symbols are in upper case, where `str.upper`
changes nothing. -/
def received (fields : Fields) : Option Control := fields.control id

/-- The entries join the control stream. -/
def publishAll (stream : GroupStream Fields String) (published : List Control) :
    GroupStream Fields String :=
  published.foldl (fun stream control => stream.xadd (fieldsOf control)) stream

/-- The state of the gateways, of the control stream and of the collector. -/
structure State where
  /-- The gateways and the registry's keys. -/
  registry : Registry.State
  /-- What the control loop reads and changes. -/
  data : Data
  /-- The program counter of the control loop, if the collector runs. -/
  pc : Option Pc

/-- No call, no entry and no collector. -/
def State.init : State := ⟨.init, ⟨.empty, ∅⟩, none⟩

/-- A step of the system. -/
inductive Label
  /-- A step of the gateways. -/
  | registry (a : Registry.Label)
  /-- The control loop takes a step. -/
  | run (outcome : Outcome) (connected : Bool)
  /-- The collector stops or crashes. -/
  | stop
  /-- The collector is started: `CollectorService.__init__` and `run`. -/
  | start

/-- The steps of the system. -/
def step (cfg : Settings) (st : State) : Label → Option State
  | .registry a => (Registry.step cfg st.registry a).map fun registry =>
      let published := registry.redis.control.drop st.registry.redis.control.length
      { st with
        registry := registry
        data := { st.data with stream := publishAll st.data.stream published } }
  | .run outcome connected => st.pc.map fun pc =>
      let result := controlStep id st.registry.now st.data outcome connected pc
      { st with data := result.1, pc := some result.2 }
  | .stop => some { st with pc := none }
  | .start =>
    if st.pc = none then
      some { st with data := { st.data with activeSymbols := ∅ }, pc := some .reading }
    else none

/-! ## Active symbols that are not forgotten -/

/-- When no `subscribe`, `unsubscribe` or release call is in flight and the collector has consumed
the control stream, its set has every symbol that is active and has a live subscriber. -/
def Restored (st : State) : Prop :=
  (∀ call ∈ st.registry.calls, call.pc.controls = false) →
    st.pc = some .reading → st.data.stream.group.delivered = st.registry.redis.control.length →
      ∀ conn s, s ≠ "" → st.registry.redis.active s = true →
        (st.registry.redis.sets s).Unexpired st.registry.now conn → s ∈ st.data.activeSymbols

/-- The set to which a collector comes from `activeSymbols` by the messages that remain and the
entries that are not delivered. -/
def comesTo (activeSymbols : Finset Symbol) (remaining : List Control) (undelivered : List Fields) :
    Finset Symbol :=
  foldControl activeSymbols (remaining ++ undelivered.filterMap received)

/-- The set to which the collector comes, or to which the next one comes if none runs. -/
def State.eventual (st : State) : Finset Symbol :=
  match st.pc with
  | some pc =>
    comesTo st.data.activeSymbols (pc.remaining id) st.data.stream.group.undelivered
  | none => comesTo ∅ [] st.data.stream.group.undelivered

/-- No active symbol is dropped when the collector comes to `after` instead, unless a `subscribe`
call is about to publish it. -/
def Remembers (st : State) (after : Finset Symbol) : Prop :=
  ∀ s ∈ st.eventual, st.registry.redis.active s = true →
    s ∈ after ∨ ∃ call ∈ st.registry.calls, announcing true s call.pc

instance (st : State) (after : Finset Symbol) : Decidable (Remembers st after) :=
  inferInstanceAs (Decidable (∀ s ∈ st.eventual, _))

/-- A release task publishes in order. -/
def ReleaseInOrder (st : Registry.State) : Registry.Label → Prop
  | .run i _ _ =>
    match st.calls[i]? with
    | some ⟨_, .relPublish s⟩ =>
      st.redis.active s = false ∨ Others st.calls i fun call => announcing true s call.pc
    | _ => True
  | _ => True

instance (st : Registry.State) : (a : Registry.Label) → Decidable (ReleaseInOrder st a)
  | .tick _ => inferInstanceAs (Decidable True)
  | .start _ _ => inferInstanceAs (Decidable True)
  | .orphan _ => inferInstanceAs (Decidable True)
  | .run i _ _ => by
    dsimp only [ReleaseInOrder]
    rcases st.calls[i]? with _ | ⟨_, _ | _⟩ <;> infer_instance

/-- No step drops an active symbol: no release is published that another gateway has overtaken, and
neither an exception of the control loop nor the end of a collector drops one. -/
def KeepsActive (st : State) : Label → Prop
  | .registry a => ReleaseInOrder st.registry a
  | .run outcome _ => outcome = .ok ∨ ∀ pc ∈ st.pc, Remembers st <|
      comesTo st.data.activeSymbols []
        (st.data.stream.group.undelivered.drop (pc.taken st.data outcome).length)
  | .stop => Remembers st (comesTo ∅ [] st.data.stream.group.undelivered)
  | .start => True

instance (st : State) (a : Label) : Decidable (KeepsActive st a) :=
  match a with
  | .registry a => inferInstanceAs (Decidable (ReleaseInOrder st.registry a))
  | .run _ _ => inferInstanceAs (Decidable (_ ∨ ∀ pc ∈ st.pc, _))
  | .stop => inferInstanceAs (Decidable (Remembers st _))
  | .start => isTrue trivial

/-- Each active symbol is in the set, or a `subscribe` call is about to publish it. -/
def Known (set : Finset Symbol) (r : Redis) (calls : List Call) : Prop :=
  ∀ s ≠ "", r.active s = true → s ∈ set ∨ ∃ call ∈ calls, announcing true s call.pc

section Registry

variable {cfg : Settings} {set set' : Finset Symbol} {r r' : Redis} {calls : List Call} {i gw : ℕ}
  {call : Call} {pc : Registry.Pc} {st st' : Registry.State} {listing : List Symbol} {flag : Bool}

/-- What is known stays so when the call at `i` takes a step, if it is known of each symbol that it
activates or that leaves the set. -/
theorem Known.replace (h : Known set r calls) (hi : calls[i]? = some call)
    (hs : ∀ s ≠ "", r'.active s = true → s ∈ set' ∨ announcing true s pc ∨
      (Others calls i fun call => announcing true s call.pc) ∨
      r.active s = true ∧ (s ∈ set → s ∈ set') ∧
        (announcing true s call.pc → announcing true s pc)) :
    Known set' r' (calls.set i ⟨gw, pc⟩) := by
  intro s hne hactive
  rcases hs s hne hactive with hin | hself | hothers | ⟨hbefore, hset, hpc⟩
  · exact Or.inl hin
  · exact Or.inr (exists_mem_set_self hi hself)
  · exact Or.inr (hothers.exists_mem_set _)
  · exact (h s hne hbefore).imp hset fun hpend => exists_mem_set hi hpend hpc

/-- A step that activates nothing and was not to publish a `subscribe` keeps what is known. -/
theorem Known.of_active (h : Known set r calls) (hi : calls[i]? = some call)
    (hactive : ∀ s, r'.active s = true → r.active s = true)
    (hpc : ∀ s, ¬ announcing true s call.pc) : Known set r' (calls.set i ⟨gw, pc⟩) :=
  h.replace hi fun s _ hact =>
    Or.inr (Or.inr (Or.inr ⟨hactive s hact, id, fun hann => absurd hann (hpc s)⟩))

/-- What is known stays known with more calls. -/
theorem Known.append (h : Known set r calls) (calls' : List Call) : Known set r (calls ++ calls') :=
  fun s hne hactive => (h s hne hactive).imp_right fun hpend => exists_mem_append hpend calls'

/-- What is known stays known when a release is scheduled. -/
theorem Known.scheduleRelease (h : Known set st.redis st.calls) (gw : ℕ) (symbol : Symbol) :
    Known set st.redis (st.scheduleRelease gw symbol).calls := by
  rw [Registry.scheduleRelease_calls]
  split_ifs
  · exact h
  · exact h.append _

/-- A cancelled task was not to publish a `subscribe`. -/
theorem Known.cancelRelease (h : Known set st.redis st.calls) (gw : ℕ) (symbol : Symbol)
    (sent : Bool) : Known set st.redis (st.cancelRelease gw symbol sent).calls := by
  rcases Registry.cancelRelease_calls st gw symbol sent with heq | ⟨j, call, -, hj, heq⟩
  · rw [heq]
    exact h
  · rw [heq]
    refine h.replace hj fun s _ hactive => Or.inr (Or.inr (Or.inr ⟨hactive, id, fun hann => ?_⟩))
    exact (Registry.announcing_cancel hann).resolve_right fun hrel => by cases hrel.1

/-- The messages of published entries, as the collector receives them. -/
def receivedOf (published : List Control) : List Control :=
  published.filterMap fun control => received (fieldsOf control)

/-- A control message is received as it was sent. -/
theorem received_fieldsOf {control : Control} (h : control.2 ≠ "") :
    received (fieldsOf control) = some control := by
  obtain ⟨action, symbol⟩ := control
  unfold received Fields.control
  change (if symbol = "" then none else _) = _
  rw [if_neg h]
  cases action <;> rfl

/-- The message of a single entry. -/
theorem receivedOf_singleton (control : Control) :
    receivedOf [control] = if control.2 = "" then [] else [control] := by
  rw [receivedOf, List.filterMap_cons, List.filterMap_nil]
  split_ifs with h
  · have hnone : received (fieldsOf control) = none := if_pos h
    rw [hnone]
  · rw [received_fieldsOf h]

/-- What a step of the gateways publishes, and what is known after it. -/
def Publishes (set : Finset Symbol) (st st' : Registry.State) : Prop :=
  ∃ published, st'.redis.control = st.redis.control ++ published ∧
    Known (foldControl set (receivedOf published)) st'.redis st'.calls

/-- A step that publishes nothing. -/
theorem publishes_nil (hcontrol : st'.redis.control = st.redis.control)
    (h : Known set st'.redis st'.calls) : Publishes set st st' :=
  ⟨[], by rw [hcontrol, List.append_nil], h⟩

/-- The publication of another symbol leaves a symbol in the set. -/
theorem mem_of_published {control : Control} {s : Symbol} (hne : s ≠ control.2) (h : s ∈ set) :
    s ∈ foldControl set (receivedOf [control]) := by
  rw [receivedOf_singleton]
  split_ifs
  · exact h
  · obtain ⟨action, symbol⟩ := control
    cases action with
    | subscribe => exact Finset.mem_insert_of_mem h
    | unsubscribe => exact Finset.mem_erase.2 ⟨hne, h⟩

/-- The publication of a `subscribe` puts the symbol into the set. -/
theorem mem_of_subscribed {s : Symbol} (hs : s ≠ "") :
    s ∈ foldControl set (receivedOf [(.subscribe, s)]) := by
  rw [receivedOf_singleton, if_neg hs]
  exact Finset.mem_insert_self s set

/-- A release script activates nothing. -/
theorem active_of_releaseScript {symbol s : Symbol} {now : Timestamp}
    (h : (r.releaseScript symbol now).1.active s = true) : r.active s = true := by
  rw [Redis.releaseScript_active] at h
  split_ifs at h
  exact h

/-- A step of a call whose releases are published in order. -/
theorem publishes_runCall (h : Known set st.redis st.calls) (hi : st.calls[i]? = some ⟨gw, pc⟩)
    (horder : ReleaseInOrder st (.run i listing flag))
    (hrun : Registry.runCall cfg st i gw listing flag pc = some st') : Publishes set st st' := by
  -- A step publishes at most one message; the others keep what is known of the active symbols.
  cases pc
  case subEval c symbol =>
    obtain rfl := Option.some.inj hrun
    refine publishes_nil Redis.subscribeScript_control
      (h.of_active hi (fun s hact => ?_) fun _ => id)
    exact Redis.subscribeScript_active ▸ hact
  case subReply c symbol after =>
    obtain rfl := Option.some.inj hrun
    have hredis := Registry.cancelRelease_redis st gw symbol flag
    refine publishes_nil (congrArg Redis.control hredis) ?_
    refine (h.cancelRelease gw symbol flag).of_active (Registry.cancelRelease_getElem? hi rfl)
      (fun s hact => ?_) fun _ => id
    change (st.cancelRelease gw symbol flag).redis.active s = true at hact
    rwa [hredis] at hact
  case subSetNx c symbol =>
    obtain rfl := Option.some.inj hrun
    refine publishes_nil Redis.setActiveNx_control (h.replace hi fun s _ hact => ?_)
    change (st.redis.setActiveNx symbol).1.active s = true at hact
    rw [Redis.setActiveNx_active] at hact
    by_cases hnew : s = symbol ∧ st.redis.active symbol = false
    · -- The symbol has become active, and the call goes on to publish that.
      obtain ⟨rfl, hinactive⟩ := hnew
      refine Or.inr (Or.inl ?_)
      rw [Redis.setActiveNx_snd, hinactive]
      exact ⟨rfl, rfl⟩
    · refine Or.inr (Or.inr (Or.inr ⟨?_, id, fun hann => hann.elim⟩))
      split_ifs at hact with hs
      · subst hs
        cases hbefore : st.redis.active s with
        | true => rfl
        | false => exact absurd ⟨rfl, hbefore⟩ hnew
      · exact hact
  case subPublish c symbol =>
    obtain rfl := Option.some.inj hrun
    refine ⟨[(.subscribe, symbol)], rfl, h.replace hi fun s hne hact => ?_⟩
    -- The message makes the symbol one of the collector's, and leaves the others.
    by_cases hs : s = symbol
    · subst hs
      exact Or.inl (mem_of_subscribed hne)
    · refine Or.inr (Or.inr (Or.inr ⟨hact, fun hin => ?_, fun hann => absurd hann.2.symm hs⟩))
      exact mem_of_published hs hin
  case unsubEval c symbol =>
    obtain rfl := Option.some.inj hrun
    refine publishes_nil Redis.unsubscribeScript_control
      (h.of_active hi (fun s hact => ?_) fun _ => id)
    exact Redis.unsubscribeScript_active ▸ hact
  case unsubReply c symbol after =>
    rw [Registry.runCall] at hrun
    split_ifs at hrun
    · obtain rfl := Option.some.inj hrun
      have hredis := Registry.scheduleRelease_redis st gw symbol
      refine publishes_nil (congrArg Redis.control hredis) ?_
      refine (h.scheduleRelease gw symbol).of_active (Registry.scheduleRelease_getElem? hi)
        (fun s hact => ?_) fun _ => id
      change (st.scheduleRelease gw symbol).redis.active s = true at hact
      rwa [hredis] at hact
    · obtain rfl := Option.some.inj hrun
      exact publishes_nil rfl (h.of_active hi (fun _ => id) fun _ => id)
  case hbZadd conn expiresAt symbol rest =>
    obtain rfl := Option.some.inj hrun
    exact publishes_nil rfl (h.of_active hi (fun _ => id) fun _ => id)
  case hbExpire conn expiresAt symbol rest =>
    obtain rfl := Option.some.inj hrun
    refine publishes_nil Redis.expireSet_control (h.of_active hi (fun s hact => ?_) fun _ => id)
    exact Redis.expireSet_active ▸ hact
  case hbExpireConn conn =>
    obtain rfl := Option.some.inj hrun
    refine publishes_nil Redis.expireConn_control (h.of_active hi (fun s hact => ?_) fun _ => id)
    exact Redis.expireConn_active ▸ hact
  case discDelete conn changed =>
    obtain rfl := Option.some.inj hrun
    exact publishes_nil rfl (h.of_active hi (fun _ => id) fun _ => id)
  case relEval symbol now =>
    obtain rfl := Option.some.inj hrun
    refine publishes_nil Redis.releaseScript_control (h.of_active hi (fun s hact => ?_) fun _ => id)
    exact active_of_releaseScript hact
  case relReply symbol released =>
    rw [Registry.runCall] at hrun
    split_ifs at hrun <;> obtain rfl := Option.some.inj hrun
    · exact publishes_nil rfl (h.of_active hi (fun _ => id) fun _ hann => by cases hann.1)
    · exact publishes_nil rfl (h.of_active hi (fun _ => id) fun _ hann => by cases hann.1)
  case relPublish symbol =>
    obtain rfl := Option.some.inj hrun
    have horder : st.redis.active symbol = false ∨
        Others st.calls i fun call => announcing true symbol call.pc := by
      simpa only [ReleaseInOrder, hi] using horder
    refine ⟨[(.unsubscribe, symbol)], rfl, h.replace hi fun s hne hact => ?_⟩
    by_cases hs : s = symbol
    · -- By the order, a call is still to publish that the symbol is active again.
      subst hs
      refine Or.inr (Or.inr (Or.inl (horder.resolve_left fun hinactive => ?_)))
      change st.redis.active s = true at hact
      rw [hinactive] at hact
      cases hact
    · refine Or.inr (Or.inr (Or.inr ⟨hact, fun hin => ?_, fun hann => by cases hann.1⟩))
      exact mem_of_published hs hin
  case relFinally symbol =>
    obtain rfl := Option.some.inj hrun
    exact publishes_nil rfl (h.of_active hi (fun _ => id) fun _ => id)
  case cleanPurge c key before =>
    obtain rfl := Option.some.inj hrun
    exact publishes_nil rfl (h.of_active hi (fun _ => id) fun _ => id)
  case cleanReply c key before after =>
    rw [Registry.runCall] at hrun
    split_ifs at hrun
    · obtain rfl := Option.some.inj hrun
      have hredis := Registry.scheduleRelease_redis st gw
        (Registry.afterLastColon (Registry.symbolKey key))
      refine publishes_nil (congrArg Redis.control hredis) ?_
      refine (h.scheduleRelease gw _).of_active (Registry.scheduleRelease_getElem? hi)
        (fun s hact => ?_) fun _ => id
      change (st.scheduleRelease gw _).redis.active s = true at hact
      rwa [hredis] at hact
    · obtain rfl := Option.some.inj hrun
      exact publishes_nil rfl (h.of_active hi (fun _ => id) fun _ => id)
  case metricsPurge m key =>
    obtain rfl := Option.some.inj hrun
    exact publishes_nil rfl (h.of_active hi (fun _ => id) fun _ => id)
  case done changed => cases hrun
  -- The other steps change nothing but their own program counter.
  all_goals
    obtain ⟨pc', rfl⟩ := Registry.runCall_local rfl hrun
    exact publishes_nil rfl (h.of_active hi (fun _ => id) fun _ => id)

/-- A step of the gateways whose releases are published in order. -/
theorem publishes_step {a : Registry.Label} (h : Known set st.redis st.calls)
    (horder : ReleaseInOrder st a) (hstep : Registry.step cfg st a = some st') :
    Publishes set st st' := by
  cases a with
  | start gw op =>
    obtain rfl := Option.some.inj hstep
    exact publishes_nil rfl (h.append _)
  | run i listing flag =>
    obtain ⟨gw, pc, hi, hrun⟩ := Registry.step_run hstep
    exact publishes_runCall h hi horder hrun
  | orphan k =>
    obtain ⟨p, hp, rfl⟩ := Option.map_eq_some_iff.1 hstep
    exact publishes_nil Redis.releaseScript_control fun s hne hact =>
      h s hne (active_of_releaseScript hact)
  | tick d =>
    obtain rfl := Option.some.inj hstep
    exact publishes_nil rfl h

end Registry

/-! ## Runs -/

section Runs

variable {cfg : Settings} {st st' : State} {a : Label} {set after : Finset Symbol}

/-- The published entries are not delivered yet. -/
theorem undelivered_publishAll (stream : GroupStream Fields String) (published : List Control) :
    (publishAll stream published).group.undelivered =
      stream.group.undelivered ++ published.map fieldsOf := by
  induction published generalizing stream with
  | nil => exact (List.append_nil _).symm
  | cons control published ih =>
    calc (publishAll (stream.xadd (fieldsOf control)) published).group.undelivered
        = (stream.xadd (fieldsOf control)).group.undelivered ++ published.map fieldsOf := ih _
      _ = stream.group.undelivered ++ [fieldsOf control] ++ published.map fieldsOf :=
        congrArg (· ++ published.map fieldsOf) (ConsumerGroup.undelivered_xadd _ _)
      _ = stream.group.undelivered ++ (control :: published).map fieldsOf := by
        rw [List.append_assoc, List.map_cons]
        rfl

/-- They leave alone what has been delivered. -/
theorem deliveredEntries_publishAll (stream : GroupStream Fields String)
    (published : List Control) :
    (publishAll stream published).group.deliveredEntries = stream.group.deliveredEntries := by
  induction published generalizing stream with
  | nil => rfl
  | cons control published ih =>
    exact (ih (stream.xadd (fieldsOf control))).trans (ConsumerGroup.deliveredEntries_xadd _ _)

/-- The set after more entries. -/
theorem comesTo_append (activeSymbols : Finset Symbol) (remaining : List Control)
    (undelivered : List Fields) (published : List Control) :
    comesTo activeSymbols remaining (undelivered ++ published.map fieldsOf) =
      foldControl (comesTo activeSymbols remaining undelivered) (receivedOf published) := by
  unfold comesTo
  rw [List.filterMap_append, List.filterMap_map, ← List.append_assoc, foldControl_append]
  rfl

/-- What is known stays so if no active symbol is dropped. -/
theorem Known.of_remembers (h : Known st.eventual st.registry.redis st.registry.calls)
    (hr : Remembers st after) : Known after st.registry.redis st.registry.calls := by
  intro s hne hactive
  rcases h s hne hactive with hin | hpend
  · exact hr s hin hactive
  · exact Or.inr hpend

/-- A command of the control loop that goes through leaves the set to which the loop comes. -/
theorem comesTo_of_goesOn {d d' : Data} {pc pc' : Pc} {outcome : Outcome}
    (hs : Steps id d pc outcome d' pc') (hout : outcome = .ok) :
    comesTo d'.activeSymbols (pc'.remaining id) d'.stream.group.undelivered =
      comesTo d.activeSymbols (pc.remaining id) d.stream.group.undelivered := by
  have hmessages : messages id (pc.taken d outcome) =
      ((pc.taken d outcome).map Prod.snd).filterMap received := by
    rw [List.filterMap_map]
    rfl
  unfold comesTo
  rw [foldControl_append, hs.goesOn hout, ← foldControl_append, hs.undelivered,
    List.filterMap_append, hmessages, List.append_assoc]

/-- What holds of the state while no active symbol is dropped. -/
structure Inv (st : State) : Prop where
  known : Known st.eventual st.registry.redis st.registry.calls
  /-- The stream is the registry's. -/
  entries : st.data.stream.group.entries = st.registry.redis.control.map fieldsOf

/-- The invariant holds at the start. -/
theorem inv_init : Inv .init where
  known _ _ hactive := absurd hactive Bool.false_ne_true
  entries := rfl

/-- A step of the gateways. -/
theorem Inv.registry (h : Inv st) {a : Registry.Label} (hok : ReleaseInOrder st.registry a)
    (hstep : step cfg st (.registry a) = some st') : Inv st' := by
  obtain ⟨registry, hreg, rfl⟩ := Option.map_eq_some_iff.1 hstep
  obtain ⟨published, hcontrol, hknown⟩ := publishes_step h.known hok hreg
  have hdrop : registry.redis.control.drop st.registry.redis.control.length = published := by
    rw [hcontrol]
    exact List.drop_left
  have hundelivered := undelivered_publishAll st.data.stream published
  have hdelivered := deliveredEntries_publishAll st.data.stream published
  refine ⟨?_, ?_⟩
  · convert hknown using 1
    rw [hdrop]
    unfold State.eventual
    cases st.pc with
    | none =>
      dsimp only
      rw [hundelivered, comesTo_append]
    | some pc =>
      dsimp only
      rw [hundelivered, comesTo_append]
  · dsimp only
    rw [hdrop, ← ConsumerGroup.deliveredEntries_append_undelivered, hdelivered, hundelivered,
      ← List.append_assoc, ConsumerGroup.deliveredEntries_append_undelivered, h.entries, hcontrol,
      List.map_append]

/-- A step of the control loop. -/
theorem Inv.run (h : Inv st) {outcome : Outcome} {connected : Bool}
    (hok : KeepsActive st (.run outcome connected))
    (hstep : step cfg st (.run outcome connected) = some st') : Inv st' := by
  obtain ⟨pc, hpc, rfl⟩ := Option.map_eq_some_iff.1 hstep
  obtain ⟨d', pc', hrun⟩ : ∃ d' pc',
      controlStep id st.registry.now st.data outcome connected pc = (d', pc') := ⟨_, _, rfl⟩
  have hs := steps_controlStep hrun
  rw [hrun]
  refine ⟨?_, ?_⟩
  · -- A loop that goes on comes to what it would have come to.
    by_cases hout : outcome = .ok
    · have hsame := comesTo_of_goesOn hs hout
      have hknown := h.known
      unfold State.eventual at hknown ⊢
      rw [hpc] at hknown
      dsimp only at hknown ⊢
      rw [hsame]
      exact hknown
    · -- A loop that raises leaves the entries that it has taken pending.
      obtain ⟨rfl, hactive⟩ := hs.raises hout
      have hknown := h.known.of_remembers (hok.resolve_left hout pc hpc)
      have hdrop : st.data.stream.group.undelivered.drop (pc.taken st.data outcome).length =
          d'.stream.group.undelivered := by
        rw [hs.undelivered, List.drop_left' (List.length_map _)]
      rw [hdrop, ← hactive] at hknown
      exact hknown
  · have hentries : d'.stream.group.entries = st.data.stream.group.entries := by
      rw [← ConsumerGroup.deliveredEntries_append_undelivered, hs.delivered, List.append_assoc,
        ← hs.undelivered, ConsumerGroup.deliveredEntries_append_undelivered]
    exact hentries.trans h.entries

/-- Every step that drops no active symbol keeps the invariant. -/
theorem inv_step (h : Inv st) (hok : KeepsActive st a) (hstep : step cfg st a = some st') :
    Inv st' := by
  cases a with
  | registry a => exact h.registry hok hstep
  | run outcome connected => exact h.run hok hstep
  | stop =>
    obtain rfl := Option.some.inj hstep
    exact ⟨h.known.of_remembers hok, h.entries⟩
  | start =>
    rw [step] at hstep
    split_ifs at hstep with hpc
    obtain rfl := Option.some.inj hstep
    refine ⟨?_, h.entries⟩
    have hknown := h.known
    unfold State.eventual at hknown ⊢
    rw [hpc] at hknown
    exact hknown

/-- In every run that drops no active symbol, the collector has those with a live subscriber. -/
theorem restored_of_keepsActive (cfg : Settings) {st : State}
    (h : Path (step cfg) KeepsActive .init st) : Restored st := by
  have hinv : Inv st := h.invariant Inv inv_init fun _ _ _ => inv_step
  intro hquiet hpc hconsumed _ s hs hactive _
  have hnone : st.data.stream.group.undelivered = [] := by
    rw [ConsumerGroup.undelivered, hconsumed, hinv.entries]
    exact List.drop_eq_nil_of_le (List.length_map _).le
  rcases hinv.known s hs hactive with hin | ⟨call, hcall, hann⟩
  · unfold State.eventual at hin
    rw [hpc, hnone] at hin
    exact hin
  · -- A call that is about to publish is in flight.
    have hidle := hquiet call hcall
    revert hann hidle
    cases call.pc <;> simp [announcing, Registry.Pc.controls]

/-- A client subscribes to a symbol, which is published. -/
def subscribed : List Label :=
  ([.start 0 (.subscribe "c1" ["AAPL"]), .next 0, .next 0, .next 0, .next 0, .run 0 [] true] :
    List Registry.Label).map .registry

/-- The collector reads a message about a symbol that is new to it, and applies it. -/
def consumed : List Label := [.run .ok true, .run .ok true, .run .ok true, .run .ok true]

/-- The collector is started again before it has read the message. -/
theorem restored_unreadRun : ∃ st : State,
    ((∀ call ∈ st.registry.calls, call.pc.controls = false) ∧ st.pc = some .reading ∧
      st.data.stream.group.delivered = st.registry.redis.control.length ∧
      st.data.activeSymbols = {"AAPL"}) ∧ Restored st := by
  obtain ⟨st, hst, hread⟩ := Path.exists_of_exec (step {}) KeepsActive .init
    (subscribed ++ [.start, .stop, .start] ++ consumed)
    (fun st => (∀ call ∈ st.registry.calls, call.pc.controls = false) ∧ st.pc = some .reading ∧
      st.data.stream.group.delivered = st.registry.redis.control.length ∧
      st.data.activeSymbols = {"AAPL"}) (by decide)
  exact ⟨st, hread, restored_of_keepsActive {} hst⟩

/-- The collector is started again after it has applied the message. -/
theorem not_restored : ¬ ∀ st, Path (step {}) anyStep .init st → Restored st := by
  obtain ⟨st, hst, hquiet, hpc, hconsumed, hactive, hlive, hnone⟩ :=
    Path.exists_of_exec (step {}) anyStep .init (subscribed ++ [.start] ++
      consumed ++ [.stop, .start])
      (fun st => (∀ call ∈ st.registry.calls, call.pc.controls = false) ∧ st.pc = some .reading ∧
        st.data.stream.group.delivered = st.registry.redis.control.length ∧
        st.registry.redis.active "AAPL" = true ∧
        (st.registry.redis.sets "AAPL").Unexpired st.registry.now "c1" ∧
        "AAPL" ∉ st.data.activeSymbols) (by decide)
  exact fun hall => hnone (hall st hst hquiet hpc hconsumed "c1" "AAPL" (by decide) hactive hlive)

end Runs

end MarketDataGateway.Collector.Restart
