import MarketDataGateway.Pipeline.Step

/-!
# No event is applied twice

An execution of `_process_one` that gets past `accept_event_once` has the right to one update of the
hot keys and to one publication, and nobody else has. `Effect` says what a step can do to the dedupe
keys, the hot keys and the channel. From it follow that each step pays for what it applies with such
a right (`effect_pays`), that no right is given out while the dedupe key is there
(`Accepting.effect`), and that what `cache_quote` relies on is kept (`HotOk`).
-/

namespace MarketDataGateway.Pipeline

open Lib Hot

/-! ## What a step can do -/

/-- The dedupe keys, the hot keys, the channel, and what is recorded of them are the same. -/
structure Keeps (r r' : Redis) : Prop where
  dedupe : r'.dedupe = r.dedupe
  lapsed : r'.lapsed = r.lapsed
  accepts : r'.accepts = r.accepts
  hot : r'.hot = r.hot
  cached : r'.cached = r.cached
  fanout : r'.fanout = r.fanout

/-- Nothing happens to Redis. -/
theorem Keeps.refl (r : Redis) : Keeps r r := ⟨rfl, rfl, rfl, rfl, rfl, rfl⟩

/-- The event that an execution has the right to apply and has not begun to. -/
def Pc.observing : Pc → Option QuoteEvent
  | .sequenceGet _ event _ => some event
  | .sequenceSet _ event _ _ => some event
  | .health _ event _ => some event
  | .cache _ event .start => some event
  | _ => none

/-- The processor has no right to apply an event. -/
def Pc.idle : Pc → Prop
  | .sequenceGet _ _ _ => False
  | .sequenceSet _ _ _ _ => False
  | .health _ _ _ => False
  | .cache _ _ _ => False
  | .publish _ _ _ => False
  | _ => True

/-- What a step can do to the dedupe keys, the hot keys and the channel. -/
inductive Effect (cfg : Settings) (clock : Timestamp) (r : Redis) : Pc → Redis → Pc → Prop
  /-- Nothing, and the processor has no right afterwards. -/
  | keeps {pc pc' : Pc} {r' : Redis} (h : Keeps r r') (hpc : pc'.idle) :
      Effect cfg clock r pc r' pc'
  /-- Nothing, and the execution goes on. -/
  | observes {pc pc' : Pc} {r' : Redis} (event : QuoteEvent) (h : Keeps r r')
      (hpc : pc.observing = some event) (hpc' : pc'.observing = some event) :
      Effect cfg clock r pc r' pc'
  /-- `SET NX` has found the dedupe key, or its reply is lost. -/
  | marks {pc' : Pc} (w : Work) (event : QuoteEvent) (hpc : pc'.idle) :
      Effect cfg clock r (.accept w event) (r.setDedupe cfg clock event.eventId) pc'
  /-- `SET NX` has set the dedupe key. -/
  | accepts {pc' : Pc} (w : Work) (event : QuoteEvent) (hnew : r.dedupe event.eventId = none)
      (hpc : pc'.observing = some event) :
      Effect cfg clock r (.accept w event)
        ((r.setDedupe cfg clock event.eventId).recordAccept event.eventId) pc'
  /-- `cache_quote` has taken a step. -/
  | caches {pc' : Pc} (w : Work) (event : QuoteEvent) (cpc cpc' : CachePc) (keys' : HotKeys)
      (h : cacheStep cfg clock (r.hot event.symbol) event cpc = some (keys', cpc'))
      (hpc : pc' = afterCache w event cpc' ∨ pc'.idle) :
      Effect cfg clock r (.cache w event cpc) (r.putHot event keys' cpc'.isReturned) pc'
  /-- `publish_fanout` has published the event. -/
  | publishes {pc' : Pc} {r' : Redis} (w : Work) (event : QuoteEvent) (late : Bool)
      (h : Keeps (r.publishFanout event) r') (hpc : pc'.idle) :
      Effect cfg clock r (.publish w event late) r' pc'

section Effect

variable {cfg : Settings} {clock : Timestamp} {r r' : Redis} {pc pc' : Pc} {outcome : Outcome}
  {claimed : List ℕ} {w : Work} {event : QuoteEvent}

/-- A processor that comes to the next entry has no right. -/
theorem nextEntry_idle (entries : List (ℕ × Fields)) : (nextEntry entries).idle := by
  unfold nextEntry
  split
  · trivial
  · split <;> trivial

/-- An execution that is past `accept_event_once` has the right to apply its event. -/
theorem observe_observing (w : Work) (event : QuoteEvent) :
    (observe w event).observing = some event := by
  unfold observe
  split <;> rfl

/-- An event that has been observed is still at work. -/
theorem observed_observing (w : Work) (event : QuoteEvent) (o : Option GapObservation) :
    (observed w event o).observing = some event := by
  cases o <;> rfl

/-- A command without effect on the keys in question, after which there is no right whether it
fails or not. -/
theorem effect_send_of_keeps {reply : Redis × Pc} {failed : Pc} {effect : Redis}
    (h : send outcome r effect reply failed = (r', pc')) (heffect : Keeps r effect)
    (hreply : Keeps r reply.1 ∧ reply.2.idle) (hfailed : failed.idle) :
    Effect cfg clock r pc r' pc' := by
  exact send_elim (Effect cfg clock r pc) h (.keeps hreply.1 hreply.2) (.keeps (.refl r) hfailed)
    (.keeps heffect hfailed)

/-- A command without effect on the keys in question, after which the execution goes on unless it
fails. -/
theorem effect_send_of_observing {reply : Redis × Pc} {failed : Pc} {effect : Redis}
    (h : send outcome r effect reply failed = (r', pc')) (heffect : Keeps r effect)
    (hpc : pc.observing = some event) (hreply : Keeps r reply.1 ∧ reply.2.observing = some event)
    (hfailed : failed.idle) : Effect cfg clock r pc r' pc' := by
  exact send_elim (Effect cfg clock r pc) h (.observes event hreply.1 hpc hreply.2)
    (.keeps (.refl r) hfailed) (.keeps heffect hfailed)

/-- What a step of a processor can do. -/
theorem procStep_effect
    (h : procStep cfg clock r outcome claimed pc = some (r', pc')) :
    Effect cfg clock r pc r' pc' := by
  cases pc with
  | reading =>
    have hkeeps : Keeps r r.deliver := ⟨rfl, rfl, rfl, rfl, rfl, rfl⟩
    refine effect_send_of_keeps (Option.some.inj h) hkeeps ⟨hkeeps, ?_⟩ trivial
    split_ifs
    · trivial
    · exact nextEntry_idle _
  | claiming =>
    rw [procStep] at h
    split_ifs at h
    exact effect_send_of_keeps (Option.some.inj h) (.refl r) ⟨.refl r, trivial⟩ trivial
  | counting entries =>
    exact effect_send_of_keeps (Option.some.inj h) (.refl r) ⟨.refl r, nextEntry_idle _⟩ trivial
  | accept w event =>
    rw [procStep] at h
    split_ifs at h with httl hnew
    · obtain ⟨rfl, rfl⟩ := Prod.mk.inj (Option.some.inj h)
      exact .keeps (.refl r) trivial
    · -- The dedupe key is set, and the execution gets past, unless the reply is lost.
      cases outcome <;> obtain ⟨rfl, rfl⟩ := Prod.mk.inj (Option.some.inj h)
      · exact .accepts w event (Option.isNone_iff_eq_none.1 hnew) (observe_observing w event)
      · exact .keeps (.refl r) trivial
      · exact .marks w event trivial
    · -- The dedupe key was there, and the entry is taken for a duplicate.
      cases outcome <;> obtain ⟨rfl, rfl⟩ := Prod.mk.inj (Option.some.inj h)
      · exact .marks w event trivial
      · exact .keeps (.refl r) trivial
      · exact .marks w event trivial
  | duplicateAck w event =>
    have hkeeps : Keeps r (r.ack w.id) := ⟨rfl, rfl, rfl, rfl, rfl, rfl⟩
    exact effect_send_of_keeps (Option.some.inj h) hkeeps ⟨hkeeps, nextEntry_idle _⟩ trivial
  | sequenceGet w event sequence =>
    refine effect_send_of_observing (Option.some.inj h) (.refl r) rfl ⟨.refl r, ?_⟩ trivial
    split_ifs
    · rfl
    · exact observed_observing w event _
  | sequenceSet w event sequence previous =>
    have hkeeps : Keeps r (r.setSequence clock event sequence) := ⟨rfl, rfl, rfl, rfl, rfl, rfl⟩
    exact effect_send_of_observing (Option.some.inj h) hkeeps rfl
      ⟨hkeeps, observed_observing w event _⟩ trivial
  | health w event o =>
    have hkeeps : Keeps r (r.setHealth clock event o) := ⟨rfl, rfl, rfl, rfl, rfl, rfl⟩
    exact effect_send_of_observing (Option.some.inj h) hkeeps rfl ⟨hkeeps, rfl⟩ trivial
  | cache w event cpc =>
    obtain ⟨⟨keys', cpc'⟩, hcache, hsend⟩ := Option.map_eq_some_iff.1 h
    dsimp only at hsend
    -- What happens to the command of `cache_quote` does not depend on which one it is.
    generalize (if isCommand cpc then outcome else .ok) = outcome' at hsend
    cases outcome' <;> obtain ⟨rfl, rfl⟩ := Prod.mk.inj hsend
    · exact .caches w event cpc cpc' keys' hcache (Or.inl rfl)
    · exact .keeps (.refl r) trivial
    · exact .caches w event cpc cpc' keys' hcache (Or.inr trivial)
  | publish w event late =>
    cases outcome <;> obtain ⟨rfl, rfl⟩ := Prod.mk.inj (Option.some.inj h)
    · exact .publishes w event late ⟨rfl, rfl, rfl, rfl, rfl, rfl⟩ trivial
    · exact .keeps (.refl r) trivial
    · -- The message is out although the call has raised.
      exact .publishes w event late (.refl _) trivial
  | ack w event =>
    have hkeeps : Keeps r (r.ack w.id) := ⟨rfl, rfl, rfl, rfl, rfl, rfl⟩
    exact effect_send_of_keeps (Option.some.inj h) hkeeps ⟨hkeeps, nextEntry_idle _⟩ trivial
  | retry w err =>
    have hkeeps : Keeps r (r.incrementRetry clock w.id) := ⟨rfl, rfl, rfl, rfl, rfl, rfl⟩
    refine effect_send_of_keeps (Option.some.inj h) hkeeps ⟨hkeeps, ?_⟩ trivial
    split_ifs
    · trivial
    · exact nextEntry_idle _
  | deadLetter w err retryCount =>
    have hkeeps : Keeps r (r.moveToDeadLetter ⟨w.id, w.fields, err, retryCount, clock⟩) :=
      ⟨rfl, rfl, rfl, rfl, rfl, rfl⟩
    exact effect_send_of_keeps (Option.some.inj h) hkeeps ⟨hkeeps, trivial⟩ trivial
  | deadAck w =>
    have hkeeps : Keeps r (r.ack w.id) := ⟨rfl, rfl, rfl, rfl, rfl, rfl⟩
    exact effect_send_of_keeps (Option.some.inj h) hkeeps ⟨hkeeps, nextEntry_idle _⟩ trivial
  | crashed => cases h

end Effect

/-! ## Rights are paid for -/

/-- The execution has the right to update the hot keys with the event `x`. -/
def Pc.mayCache (x : EventId) : Pc → Bool
  | .sequenceGet _ event _ => event.eventId = x
  | .sequenceSet _ event _ _ => event.eventId = x
  | .health _ event _ => event.eventId = x
  | .cache _ event _ => event.eventId = x
  | _ => false

/-- The execution has the right to publish the event `x`. -/
def Pc.mayPublish (x : EventId) : Pc → Bool
  | .sequenceGet _ event _ => event.eventId = x
  | .sequenceSet _ event _ _ => event.eventId = x
  | .health _ event _ => event.eventId = x
  | .cache _ event _ => event.eventId = x
  | .publish _ event _ => event.eventId = x
  | _ => false

/-- How often the event `x` has been published. -/
def Redis.published (r : Redis) (x : EventId) : ℕ := (r.fanout.map QuoteEvent.eventId).count x

/-- A step pays for what it applies with a right, and gets a right only by getting past
`accept_event_once`. -/
structure Pays (x : EventId) (r : Redis) (pc : Pc) (r' : Redis) (pc' : Pc) : Prop where
  cached : r'.cached.count x + (pc'.mayCache x).toNat + r.accepts.count x ≤
    r.cached.count x + (pc.mayCache x).toNat + r'.accepts.count x
  published : r'.published x + (pc'.mayPublish x).toNat + r.accepts.count x ≤
    r.published x + (pc.mayPublish x).toNat + r'.accepts.count x

section Pays

variable {cfg : Settings} {clock : Timestamp} {r r' : Redis} {pc pc' : Pc} {event : QuoteEvent}
  {x : EventId}

/-- An idle processor has no right. -/
theorem Pc.idle.mayCache_eq (h : pc.idle) : pc.mayCache x = false := by
  cases pc <;> first | rfl | exact h.elim

/-- An idle processor publishes nothing. -/
theorem Pc.idle.mayPublish_eq (h : pc.idle) : pc.mayPublish x = false := by
  cases pc <;> first | rfl | exact h.elim

/-- An execution that is past `accept_event_once` has both rights for its event. -/
theorem mayCache_of_observing (h : pc.observing = some event) :
    pc.mayCache x = decide (event.eventId = x) := by
  unfold Pc.observing at h
  split at h <;> first | cases h; rfl | cases h

/-- A processor that observes an event may publish that one only. -/
theorem mayPublish_of_observing (h : pc.observing = some event) :
    pc.mayPublish x = decide (event.eventId = x) := by
  unfold Pc.observing at h
  split at h <;> first | cases h; rfl | cases h

/-- `SET NX` applies nothing. -/
theorem setDedupe_keeps (r : Redis) (cfg : Settings) (clock : Timestamp) (id : EventId) :
    (r.setDedupe cfg clock id).lapsed = r.lapsed ∧ (r.setDedupe cfg clock id).accepts = r.accepts ∧
      (r.setDedupe cfg clock id).hot = r.hot ∧ (r.setDedupe cfg clock id).cached = r.cached ∧
      (r.setDedupe cfg clock id).fanout = r.fanout := by
  unfold Redis.setDedupe
  split_ifs <;> exact ⟨rfl, rfl, rfl, rfl, rfl⟩

/-- After a step of `cache_quote`, the right to update the keys is used if they were updated. -/
theorem afterCache_mayCache (w : Work) (event : QuoteEvent) (cpc : CachePc) (x : EventId) :
    ((afterCache w event cpc).mayCache x).toNat + (if cpc.isReturned ∧ event.eventId = x then 1
      else 0) ≤ (decide (event.eventId = x)).toNat := by
  cases cpc <;> simp [afterCache, Pc.mayCache, CachePc.isReturned]
  split_ifs <;> simp [*]

/-- The right to publish is still there, unless `cache_quote` has raised. -/
theorem afterCache_mayPublish (w : Work) (event : QuoteEvent) (cpc : CachePc) (x : EventId) :
    ((afterCache w event cpc).mayPublish x).toNat ≤ (decide (event.eventId = x)).toNat := by
  cases cpc <;> simp [afterCache, Pc.mayPublish]

/-- Every step pays. -/
theorem effect_pays (h : Effect cfg clock r pc r' pc') (x : EventId) : Pays x r pc r' pc' := by
  cases h with
  | keeps hkeeps hpc =>
    constructor
    · rw [hkeeps.cached, hkeeps.accepts, hpc.mayCache_eq]
      simp
    · rw [Redis.published, hkeeps.fanout, hkeeps.accepts, hpc.mayPublish_eq, ← Redis.published]
      simp
  | observes event hkeeps hpc hpc' =>
    constructor
    · rw [hkeeps.cached, hkeeps.accepts, mayCache_of_observing hpc, mayCache_of_observing hpc']
    · rw [Redis.published, hkeeps.fanout, hkeeps.accepts, mayPublish_of_observing hpc,
        mayPublish_of_observing hpc', ← Redis.published]
  | marks w event hpc =>
    -- Whether the key was there or not, nobody has got past.
    obtain ⟨-, haccepts, -, hcached, hfanout⟩ := setDedupe_keeps r cfg clock event.eventId
    constructor
    · rw [hcached, haccepts, hpc.mayCache_eq]
      simp
    · rw [Redis.published, hfanout, haccepts, hpc.mayPublish_eq, ← Redis.published]
      simp
  | accepts w event hnew hpc =>
    -- The right is given out, and recorded.
    obtain ⟨-, haccepts, -, hcached, hfanout⟩ := setDedupe_keeps r cfg clock event.eventId
    have hrecord : (event.eventId :: (r.setDedupe cfg clock event.eventId).accepts).count x =
        r.accepts.count x + (decide (event.eventId = x)).toNat := by
      rw [haccepts, List.count_cons]
      by_cases hx : event.eventId = x <;> simp [hx]
    constructor
    · change (r.setDedupe cfg clock event.eventId).cached.count x + _ + _ ≤ _ + _ +
        (event.eventId :: (r.setDedupe cfg clock event.eventId).accepts).count x
      rw [hcached, hrecord, mayCache_of_observing hpc]
      simp only [Pc.mayCache, Bool.toNat_false]
      omega
    · change ((r.setDedupe cfg clock event.eventId).fanout.map _).count x + _ + _ ≤ _ + _ +
        (event.eventId :: (r.setDedupe cfg clock event.eventId).accepts).count x
      rw [hfanout, hrecord, mayPublish_of_observing hpc, ← Redis.published]
      simp only [Pc.mayPublish, Bool.toNat_false]
      omega
  | caches w event cpc cpc' keys' hcache hpc =>
    -- The step that returns uses up the right to update, which the execution had before.
    have hcached : (r.putHot event keys' cpc'.isReturned).cached.count x = r.cached.count x +
        if cpc'.isReturned ∧ event.eventId = x then 1 else 0 := by
      unfold Redis.putHot
      by_cases hret : cpc'.isReturned = true <;> by_cases hx : event.eventId = x <;>
        simp [hret, hx]
    have hmayCache : (pc'.mayCache x).toNat +
        (if cpc'.isReturned ∧ event.eventId = x then 1 else 0) ≤
          (decide (event.eventId = x)).toNat := by
      rcases hpc with rfl | hidle
      · exact afterCache_mayCache w event cpc' x
      · rw [hidle.mayCache_eq]
        split_ifs with hx
        · simp [hx.2]
        · simp
    have hmayPublish : (pc'.mayPublish x).toNat ≤ (decide (event.eventId = x)).toNat := by
      rcases hpc with rfl | hidle
      · exact afterCache_mayPublish w event cpc' x
      · rw [hidle.mayPublish_eq]
        exact Nat.zero_le _
    constructor
    · rw [hcached]
      change _ + _ + r.accepts.count x ≤ _ + (decide (event.eventId = x)).toNat +
        r.accepts.count x
      omega
    · change r.published x + _ + r.accepts.count x ≤ _ + (decide (event.eventId = x)).toNat +
        r.accepts.count x
      omega
  | publishes w event late hkeeps hpc =>
    -- The publication uses up the right to publish.
    have hpublished : r'.published x =
        r.published x + (decide (event.eventId = x)).toNat := by
      rw [Redis.published, hkeeps.fanout]
      change (event.eventId :: r.fanout.map QuoteEvent.eventId).count x = _
      rw [List.count_cons, ← Redis.published]
      by_cases hx : event.eventId = x <;> simp [hx]
    constructor
    · rw [hkeeps.cached, hkeeps.accepts, hpc.mayCache_eq]
      exact le_refl _
    · rw [hpublished, hkeeps.accepts, hpc.mayPublish_eq]
      exact le_refl _

end Pays

/-! ## Rights are given out once -/

/-- Of an event whose dedupe key has never expired, at most one execution has got past
`accept_event_once`, and if one has, the key is there. -/
def Accepting (r : Redis) : Prop :=
  ∀ x, r.lapsed x = false → r.accepts.count x ≤ 1 ∧ (x ∈ r.accepts → (r.dedupe x).isSome)

section Accepting

variable {cfg : Settings} {clock : Timestamp} {r r' : Redis} {pc pc' : Pc} {x : EventId}

/-- What is the same in the fields in question gives out rights the same. -/
theorem Accepting.of_keeps (h : Accepting r) (hkeeps : Keeps r r') : Accepting r' := by
  intro x hx
  rw [hkeeps.lapsed] at hx
  rw [hkeeps.accepts, hkeeps.dedupe]
  exact h x hx

/-- `SET NX` sets the key if it is not there. -/
theorem setDedupe_dedupe (r : Redis) (cfg : Settings) (clock : Timestamp) (id : EventId) :
    ((r.setDedupe cfg clock id).dedupe id).isSome ∧
      ∀ x, (r.dedupe x).isSome → ((r.setDedupe cfg clock id).dedupe x).isSome := by
  unfold Redis.setDedupe
  split_ifs with hnew
  · refine ⟨by simp, fun x hx => ?_⟩
    by_cases hid : x = id
    · subst hid
      simp
    · simpa [hid] using hx
  · exact ⟨by simpa [Option.isSome_iff_ne_none] using hnew, fun _ hx => hx⟩

/-- A step that gives out a right finds no dedupe key, so none was given out before. -/
theorem Accepting.effect (h : Accepting r) (heffect : Effect cfg clock r pc r' pc') :
    Accepting r' := by
  cases heffect with
  | keeps hkeeps hpc => exact h.of_keeps hkeeps
  | observes event hkeeps hpc hpc' => exact h.of_keeps hkeeps
  | marks w event hpc =>
    obtain ⟨hlapsed, haccepts, -⟩ := setDedupe_keeps r cfg clock event.eventId
    intro x hx
    rw [hlapsed] at hx
    rw [haccepts]
    obtain ⟨hcount, hmem⟩ := h x hx
    exact ⟨hcount, fun hin => (setDedupe_dedupe r cfg clock _).2 x (hmem hin)⟩
  | accepts w event hnew hpc =>
    obtain ⟨hlapsed, haccepts, -⟩ := setDedupe_keeps r cfg clock event.eventId
    obtain ⟨hset, hkept⟩ := setDedupe_dedupe r cfg clock event.eventId
    intro x hx
    change (r.setDedupe cfg clock event.eventId).lapsed x = false at hx
    rw [hlapsed] at hx
    obtain ⟨hcount, hmem⟩ := h x hx
    change List.count x (event.eventId :: (r.setDedupe cfg clock event.eventId).accepts) ≤ 1 ∧
      (x ∈ event.eventId :: (r.setDedupe cfg clock event.eventId).accepts →
        ((r.setDedupe cfg clock event.eventId).dedupe x).isSome)
    rw [haccepts]
    by_cases hid : event.eventId = x
    · -- There was no key, so by the invariant nobody had got past.
      subst hid
      have hnone : event.eventId ∉ r.accepts := fun hin => by simpa [hnew] using hmem hin
      rw [List.count_cons_self, List.count_eq_zero_of_not_mem hnone]
      exact ⟨le_refl _, fun _ => hset⟩
    · rw [List.count_cons_of_ne hid]
      refine ⟨hcount, fun hin => hkept x (hmem ?_)⟩
      exact (List.mem_cons.1 hin).resolve_left (Ne.symm hid)
  | caches w event cpc cpc' keys' hcache hpc => exact h
  | publishes w event late hkeeps hpc =>
    exact Accepting.of_keeps (r := r.publishFanout event) h hkeeps

/-- A dedupe key that expires is one of those that have. -/
theorem Accepting.expire (h : Accepting r) (clock : Timestamp) : Accepting (r.expire clock) := by
  intro x hx
  obtain ⟨hlapsed, hkept⟩ := Bool.or_eq_false_iff.1 hx
  obtain ⟨hcount, hmem⟩ := h x hlapsed
  refine ⟨hcount, fun hin => ?_⟩
  obtain ⟨expiresAt, hexp⟩ := Option.isSome_iff_exists.1 (hmem hin)
  have hlt : clock < expiresAt := by simpa [hexp] using hkept
  change ((r.dedupe x).filter _).isSome
  rw [hexp]
  simp [hlt]

end Accepting

/-! ## The hot keys -/

/-- What a processor relies on that is in `cache_quote`. -/
def Pc.HotOk (cfg : Settings) (clock : Timestamp) (r : Redis) : Pc → Prop
  | .cache _ event cpc => CacheOk cfg clock (r.hot event.symbol) event cpc
  | _ => True

/-- What holds of the hot keys, and of what is recorded of them. -/
structure HotInv (cfg : Settings) (clock : Timestamp) (r : Redis) (procs : List Pc) : Prop where
  keys : ∀ s, KeysInv cfg s clock (r.hot s)
  calls : ∀ pc ∈ procs, pc.HotOk cfg clock r
  /-- The quotes that transactions have taken in are recorded. -/
  committed : ∀ s, ((r.hot s).committed.map QuoteEvent.eventId).Sublist r.cached

section HotInv

variable {cfg : Settings} {clock clock' : Timestamp} {r r' : Redis} {pc pc' : Pc} {i : ℕ}
  {procs : List Pc}

/-- An idle processor has no hot update. -/
theorem Pc.idle.hotOk (h : pc.idle) : pc.HotOk cfg clock r := by
  cases pc <;> first | exact h.elim | trivial

/-- A processor that observes an event has no hot update. -/
theorem hotOk_of_observing {event : QuoteEvent} (h : pc.observing = some event) :
    pc.HotOk cfg clock r := by
  unfold Pc.observing at h
  split at h <;> first | cases h; done | trivial

/-- `_process_one` relies on what its call of `cache_quote` relies on, if that goes on. -/
theorem hotOk_afterCache (w : Work) {event : QuoteEvent} {cpc : CachePc}
    (h : CacheOk cfg clock (r.hot event.symbol) event cpc) :
    (afterCache w event cpc).HotOk cfg clock r := by
  cases cpc <;> first | exact h | trivial

/-- What a processor relies on is kept by the steps of others, and by time. -/
theorem Pc.HotOk.mono (h : pc.HotOk cfg clock r) (hhot : ∀ s, Evolves (r.hot s) (r'.hot s))
    (hclock : clock ≤ clock') : pc.HotOk cfg clock' r' := by
  cases pc <;> first | trivial | exact CacheOk.mono h (hhot _) hclock

/-- A step that leaves the hot keys, and after which the processor relies on nothing. -/
theorem HotInv.of_hot_eq (h : HotInv cfg clock r procs) (hhot : r'.hot = r.hot)
    (hcached : r'.cached = r.cached) (hpc : pc'.HotOk cfg clock r') :
    HotInv cfg clock r' (procs.set i pc') where
  keys s := by
    rw [hhot]
    exact h.keys s
  calls := by
    refine forall_mem_set (fun pc hpc => (h.calls pc hpc).mono (fun s => ?_) (le_refl _)) hpc
    rw [hhot]
    exact .refl _
  committed s := by
    rw [hhot, hcached]
    exact h.committed s

/-- A step of `cache_quote`. -/
theorem HotInv.caches (h : HotInv cfg clock r procs) {w : Work} {event : QuoteEvent}
    {cpc cpc' : CachePc} {keys' : HotKeys} (hi : procs[i]? = some (.cache w event cpc))
    (hcache : cacheStep cfg clock (r.hot event.symbol) event cpc = some (keys', cpc'))
    (hpc : pc' = afterCache w event cpc' ∨ pc'.idle) :
    HotInv cfg clock (r.putHot event keys' cpc'.isReturned) (procs.set i pc') := by
  have hok : CacheOk cfg clock (r.hot event.symbol) event cpc := h.calls _ (List.mem_of_getElem? hi)
  obtain ⟨hkeys, hok', hevolves⟩ := cacheStep_inv (h.keys event.symbol) rfl hok hcache
  have hself : (r.putHot event keys' cpc'.isReturned).hot event.symbol = keys' :=
    Function.update_self _ _ _
  have hother : ∀ s, s ≠ event.symbol →
      (r.putHot event keys' cpc'.isReturned).hot s = r.hot s :=
    fun s hs => Function.update_of_ne hs _ _
  constructor
  case keys =>
    intro s
    by_cases hs : s = event.symbol
    · rw [hs, hself]
      exact hkeys
    · rw [hother s hs]
      exact h.keys s
  case calls =>
    refine forall_mem_set (fun pc hpc => (h.calls pc hpc).mono (fun s => ?_) (le_refl _)) ?_
    · by_cases hs : s = event.symbol
      · rw [hs, hself]
        exact hevolves
      · rw [hother s hs]
        exact .refl _
    · rcases hpc with rfl | hidle
      · refine hotOk_afterCache w ?_
        rwa [hself]
      · exact hidle.hotOk
  case committed =>
    intro s
    by_cases hs : s = event.symbol
    · rw [hs, hself]
      have hbefore := h.committed event.symbol
      -- The step returns, or refuses, or commits the quote to its minute.
      rcases cacheStep_effect hcache with ⟨rfl, hret⟩ | ⟨-, rfl, rfl⟩ |
        ⟨now, left, value, -, rfl, rfl⟩
      · rw [hret]
        exact hbefore
      · exact hbefore.cons _
      · exact hbefore.cons_cons _
    · rw [hother s hs]
      refine (h.committed s).trans ?_
      unfold Redis.putHot
      cases cpc'.isReturned
      · exact List.Sublist.refl _
      · exact List.sublist_cons_self _ _

/-- Every step keeps what holds of the hot keys. -/
theorem HotInv.effect (h : HotInv cfg clock r procs) (hi : procs[i]? = some pc)
    (heffect : Effect cfg clock r pc r' pc') : HotInv cfg clock r' (procs.set i pc') := by
  cases heffect with
  | keeps hkeeps hpc => exact h.of_hot_eq hkeeps.hot hkeeps.cached hpc.hotOk
  | observes event hkeeps hpc hpc' =>
    exact h.of_hot_eq hkeeps.hot hkeeps.cached (hotOk_of_observing hpc')
  | marks w event hpc =>
    obtain ⟨-, -, hhot, hcached, -⟩ := setDedupe_keeps r cfg clock event.eventId
    exact h.of_hot_eq hhot hcached hpc.hotOk
  | accepts w event hnew hpc =>
    obtain ⟨-, -, hhot, hcached, -⟩ := setDedupe_keeps r cfg clock event.eventId
    exact h.of_hot_eq hhot hcached (hotOk_of_observing hpc)
  | caches w event cpc cpc' keys' hcache hpc => exact h.caches hi hcache hpc
  | publishes w event late hkeeps hpc =>
    exact h.of_hot_eq hkeeps.hot hkeeps.cached hpc.hotOk

/-- Time may pass. -/
theorem HotInv.expire (h : HotInv cfg clock r procs) (hclock : clock ≤ clock') :
    HotInv cfg clock' (r.expire clock') procs where
  keys s := (h.keys s).expire hclock
  calls pc hpc := (h.calls pc hpc).mono (fun _ => evolves_expire _ _) hclock
  committed s := h.committed s

end HotInv

/-! ## Runs -/

/-- The invariant of all runs. -/
structure Inv (cfg : Settings) (st : State) : Prop where
  accepting : Accepting st.redis
  hot : HotInv cfg st.now st.redis st.procs
  /-- The updates of the hot keys, and the rights to more of them. -/
  cached : ∀ x, st.redis.cached.count x + st.procs.countP (Pc.mayCache x) ≤
    st.redis.accepts.count x
  /-- The publications, and the rights to more of them. -/
  published : ∀ x, st.redis.published x + st.procs.countP (Pc.mayPublish x) ≤
    st.redis.accepts.count x

/-- The event `x` has been applied at most once. -/
structure AppliedOnce (st : State) (x : EventId) : Prop where
  /-- At most one execution has got past `accept_event_once`. -/
  accepted : st.redis.accepts.count x ≤ 1
  /-- `cache_quote` has taken effect at most once. -/
  cached : st.redis.cached.count x ≤ 1
  /-- `publish_fanout` has been executed at most once. -/
  published : st.redis.published x ≤ 1
  /-- A stored candle has the event at most once among the quotes that it counts. -/
  counted : ∀ s m, (((st.redis.hot s).quotesAt m).map QuoteEvent.eventId).count x ≤ 1

section Runs

variable {cfg : Settings} {st st' : State}

/-- The invariant holds at the start. -/
theorem inv_init (cfg : Settings) (t₀ : Timestamp) : Inv cfg (.init t₀) where
  accepting _ _ := ⟨Nat.zero_le _, fun hin => absurd hin List.not_mem_nil⟩
  hot := ⟨fun s => keysInv_empty cfg s t₀, fun _ hpc => absurd hpc List.not_mem_nil,
    fun _ => List.Sublist.refl _⟩
  cached _ := le_refl _
  published _ := le_refl _

/-- Every step keeps the invariant. -/
theorem inv_step {a : Label} (h : Inv cfg st) (hstep : step cfg st a = some st') : Inv cfg st' := by
  cases a with
  | publishQuote fields =>
    obtain rfl := Option.some.inj hstep
    exact ⟨h.accepting, ⟨h.hot.keys, fun pc hpc => (h.hot.calls pc hpc).mono
      (fun _ => .refl _) (le_refl _), h.hot.committed⟩, h.cached, h.published⟩
  | startProcessor =>
    obtain rfl := Option.some.inj hstep
    refine ⟨h.accepting, ⟨h.hot.keys, fun pc hpc => ?_, h.hot.committed⟩, fun x => ?_,
      fun x => ?_⟩
    · rcases List.mem_append.1 hpc with hpc | hpc
      · exact h.hot.calls pc hpc
      · rw [List.mem_singleton.1 hpc]
        trivial
    · rw [List.countP_append]
      exact h.cached x
    · rw [List.countP_append]
      exact h.published x
  | run i outcome claimed =>
    obtain ⟨pc, r', pc', hi, hproc, rfl⟩ := step_run hstep
    have heffect := procStep_effect hproc
    refine ⟨h.accepting.effect heffect, h.hot.effect hi heffect, fun x => ?_, fun x => ?_⟩
    -- What the step pays, added to what the other processors have.
    · have hpays := (effect_pays heffect x).cached
      have hcount := countP_set_add (Pc.mayCache x) hi pc'
      have hbefore := h.cached x
      dsimp only
      omega
    · have hpays := (effect_pays heffect x).published
      have hcount := countP_set_add (Pc.mayPublish x) hi pc'
      have hbefore := h.published x
      dsimp only
      omega
  | crash i =>
    obtain rfl := Option.some.inj hstep
    cases hi : st.procs[i]? with
    | none =>
      have hset : st.procs.set i .crashed = st.procs :=
        List.set_eq_of_length_le (List.getElem?_eq_none_iff.1 hi)
      rw [hset]
      exact h
    | some pc =>
      -- The rights of a processor are lost with it.
      refine ⟨h.accepting, ⟨h.hot.keys, forall_mem_set h.hot.calls trivial, h.hot.committed⟩,
        fun x => ?_, fun x => ?_⟩
      · have hcount := countP_set_add (Pc.mayCache x) hi .crashed
        have hbefore := h.cached x
        simp only [Pc.mayCache, Bool.toNat_false] at hcount
        dsimp only
        omega
      · have hcount := countP_set_add (Pc.mayPublish x) hi .crashed
        have hbefore := h.published x
        simp only [Pc.mayPublish, Bool.toNat_false] at hcount
        dsimp only
        omega
  | tick d =>
    obtain rfl := Option.some.inj hstep
    have hnow : st.now ≤ st.now + d := by lia
    exact ⟨h.accepting.expire _, h.hot.expire hnow, h.cached, h.published⟩

/-- In every run, an event whose dedupe key has not expired is applied at most once. -/
theorem appliedOnce_of_path (cfg : Settings) (t₀ : Timestamp) {st : State}
    (h : Path (step cfg) anyStep (.init t₀) st) (x : EventId) (hx : st.redis.lapsed x = false) :
    AppliedOnce st x := by
  have hinv : Inv cfg st :=
    h.invariant (Inv cfg) (inv_init cfg t₀) fun _ _ _ hinv _ hstep => inv_step hinv hstep
  have haccepted : st.redis.accepts.count x ≤ 1 := (hinv.accepting x hx).1
  have hcached : st.redis.cached.count x ≤ 1 := by
    have := hinv.cached x
    omega
  constructor
  case accepted => exact haccepted
  case cached => exact hcached
  case published =>
    have := hinv.published x
    omega
  case counted =>
    intro s m
    have hsub : (((st.redis.hot s).quotesAt m).map QuoteEvent.eventId).Sublist st.redis.cached :=
      ((((hinv.hot.keys s).stored m).trans List.filter_sublist).map _).trans (hinv.hot.committed s)
    exact (hsub.count_le x).trans hcached

/-- A processor has accepted an event; another one claims the entry and finds the dedupe key; the
first one goes on. -/
def stolenEntryRun : List Label :=
  [.publishQuote (.quote (.sample 7 0 100)), .startProcessor, .startProcessor, .next 0, .next 0,
    .tick 60000000, .next 1, .run 1 .ok [0], .next 1, .next 1, .next 1,
    .next 0, .next 0, .next 0, .next 0, .next 0, .next 0]

/-- An entry that is stolen is applied once. -/
theorem appliedOnce_stolenEntryRun :
    ∃ st, (st.redis.cached = [7] ∧ st.redis.published 7 = 1 ∧ st.redis.acked = [0, 0]) ∧
      AppliedOnce st 7 := by
  obtain ⟨st, hpath, hlapsed, hst⟩ := Path.exists_of_exec (step {}) anyStep (.init 0) stolenEntryRun
    (fun st => st.redis.lapsed 7 = false ∧ st.redis.cached = [7] ∧ st.redis.published 7 = 1 ∧
      st.redis.acked = [0, 0]) (by decide)
  exact ⟨st, hst, appliedOnce_of_path {} 0 hpath 7 hlapsed⟩

end Runs

end MarketDataGateway.Pipeline
