import MarketDataGateway.Session.Delivery

/-!
# Snapshots before quotes

A symbol can be published to a session from `hub.subscribe` on, and so before its snapshot has been
read and sent: the client may get a quote before the snapshot, or after it an older one that was on
its way when the snapshot was read (`exists_not_snapshotFirst`). Neither happens in the runs of
`snapshotFirst_of_settled`.
-/

namespace MarketDataGateway.Session

open Lib

/-- `event.sequence`, by which quotes of a symbol are ordered. -/
def number (q : Quote) : ℤ := (q.sequence.map Subtype.val).getD 0

/-! ## What the client sees -/

/-- The symbol has been added while a quote of it was cached, and no snapshot of it has been sent
since. -/
def awaiting : List Entry → Symbol → Bool
  | [], _ => false
  | .added symbols :: log, s => s ∈ symbols || awaiting log s
  | .snapshot q :: log, s => symbolOf q ≠ s && awaiting log s
  | _ :: log, s => awaiting log s

/-- The snapshots that have been sent. -/
def snapshots : List Entry → List Quote
  | [] => []
  | .snapshot q :: log => q :: snapshots log
  | _ :: log => snapshots log

/-- The quote is not older than any of the quotes of its symbol. -/
def NotOlder (q : Quote) (qs : List Quote) : Prop :=
  ∀ q' ∈ qs, symbolOf q' = symbolOf q → number q' ≤ number q

instance (q : Quote) (qs : List Quote) : Decidable (NotOlder q qs) :=
  inferInstanceAs (Decidable (∀ q' ∈ qs, _ → _))

/-- A `quote` is sent of a symbol whose snapshot has been sent, and is not older than its
snapshots. -/
def SnapshotFirst : List Entry → Prop
  | [] => True
  | .quote q :: log =>
    (awaiting log (symbolOf q) = false ∧ NotOlder q (snapshots log)) ∧ SnapshotFirst log
  | _ :: log => SnapshotFirst log

instance decidableSnapshotFirst : (log : List Entry) → Decidable (SnapshotFirst log)
  | [] => .isTrue trivial
  | .quote _ :: log => @instDecidableAnd _ _ inferInstance (decidableSnapshotFirst log)
  | .received _ :: log => decidableSnapshotFirst log
  | .added _ :: log => decidableSnapshotFirst log
  | .snapshot _ :: log => decidableSnapshotFirst log
  | .unsubscribed _ :: log => decidableSnapshotFirst log

namespace Delivery

/-- The quotes that have been processed and not been sent. -/
def onWay (st : Delivery) : List Quote := st.held ++ st.inflight ++ st.fanout

/-- The quotes of a symbol are cached and published in the order of their sequences. -/
def Ordered (st : Delivery) : Action → Prop
  | .feed (.cache q) => q.sequence.isSome ∧ ∀ q' ∈ st.store (symbolOf q), number q' < number q
  | _ => True

/-- No quote of a symbol that is being added comes in between: there is none in the buffer or at
`send_loop` when `hub.subscribe` adds the symbol, `publish` puts none until its snapshot has been
sent, and an older one is not on its way when the snapshot is read. What is read is valid. -/
def Settled (st : Delivery) : Action → Prop
  | .feed (.put index) => ∀ q ∈ st.inflight[index]?, symbolOf q ∉ st.receiver.pending
  | .receiver .subscribe =>
    ∀ q ∈ st.held, symbolOf q ∈ st.receiver.wanted → symbolOf q ∈ st.subscriptions
  | .receiver .fetch =>
    ∀ symbol ∈ st.receiver.pending.head?, ∀ q' ∈ st.store symbol, ∀ q ∈ st.onWay, NotOlder q [q']
  | .receiver .fetchInvalid => False
  | _ => True

/-! ## The invariant -/

/-- A symbol whose snapshot is awaited is cached, its snapshot is still to come and no quote of it
is held; and no quote on its way is older than a snapshot. -/
structure Prompt (st : Delivery) : Prop where
  first : SnapshotFirst st.log
  keyed : ∀ s, ∀ q ∈ st.store s, symbolOf q = s
  cached : ∀ s, awaiting st.log s = true → (st.store s).isSome = true
  pending : ∀ s, awaiting st.log s = true → s ∈ st.receiver.pending ∨ st.receiver = .closed
  held : st.receiver ≠ .closed → ∀ q ∈ st.held, awaiting st.log (symbolOf q) = false
  newest : ∀ q' ∈ st.receiver.shown ++ snapshots st.log, (∀ q ∈ st.onWay, NotOlder q [q']) ∧
    ∃ q ∈ st.store (symbolOf q'), number q' ≤ number q

/-- The start is prompt. -/
theorem prompt_init (maxItems : ℕ) (h : 0 < maxItems) : Prompt (init maxItems h) where
  first := trivial
  keyed _ _ hq := nomatch hq
  cached _ hs := absurd hs Bool.false_ne_true
  pending _ hs := absurd hs Bool.false_ne_true
  held _ _ _ := rfl
  newest _ hq := absurd hq List.not_mem_nil

variable {interval : ℤ} {st st' : Delivery}

/-- A quote is not older than another if it is not of a smaller number where they have one symbol.
-/
theorem notOlder_singleton {q q' : Quote} :
    NotOlder q [q'] ↔ (symbolOf q' = symbolOf q → number q' ≤ number q) :=
  List.forall_mem_singleton

/-- Nothing is awaited by a loop that has no snapshot to send. -/
theorem Prompt.not_awaiting (h : Prompt st) (hpending : st.receiver.pending = [])
    (hrunning : st.receiver ≠ .closed) (s : Symbol) : awaiting st.log s = false := by
  rw [← Bool.not_eq_true]
  intro hs
  rcases h.pending s hs with hmem | hclosed
  · rw [hpending] at hmem
    exact List.not_mem_nil hmem
  · exact hrunning hclosed

/-- What is on its way has been, or has just been cached. -/
theorem Fed.onWay {a : Feed} {q : Quote} (h : Fed st a st') (hq : q ∈ st'.onWay) :
    q ∈ st.onWay ∨ a = .cache q := by
  have hmem : ∀ e, e ∈ st.onWay ↔ (e ∈ st.held ∨ e ∈ st.inflight) ∨ e ∈ st.fanout := fun e => by
    unfold Delivery.onWay
    rw [List.mem_append, List.mem_append]
  rw [hmem]
  unfold Delivery.onWay at hq
  rw [List.mem_append, List.mem_append] at hq
  rcases hq with (hq | hq) | hq
  · exact Or.inl (Or.inl ((h.held q hq).imp_right And.left))
  · exact Or.inl ((h.inflight q hq).imp Or.inr And.left)
  · exact (h.fanout q hq).imp_left Or.inr

/-- What the publisher does keeps it prompt, if it is ordered and settled. -/
theorem Prompt.feed {a : Feed} (h : Prompt st) (hordered : st.Ordered (.feed a))
    (hsettled : st.Settled (.feed a)) (hfed : Fed st a st') : Prompt st' := by
  -- A quote that is cached is the newest one of its symbol.
  have hstore (s : Symbol) : st'.store s = st.store s ∨
      ∃ q, a = .cache q ∧ symbolOf q = s ∧ st'.store s = some q := by
    by_cases hcache : ∃ q, a = .cache q
    · obtain ⟨q, rfl⟩ := hcache
      rw [hfed.cached q rfl]
      by_cases hs : s = symbolOf q
      · exact Or.inr ⟨q, rfl, hs.symm, by rw [hs, Function.update_self]⟩
      · exact Or.inl (Function.update_of_ne hs _ _)
    · rw [hfed.store fun q heq => hcache ⟨q, heq⟩]
      exact Or.inl rfl
  refine ⟨?_, fun s q hq => ?_, fun s hs => ?_, fun s hs => ?_, fun hrunning q hq => ?_,
    fun q' hq' => ⟨fun q hq => ?_, ?_⟩⟩
  · rw [hfed.log]
    exact h.first
  · rcases hstore s with heq | ⟨e, -, he, heq⟩
    · rw [heq] at hq
      exact h.keyed s q hq
    · rw [heq] at hq
      rw [← Option.some.inj hq]
      exact he
  · rw [hfed.log] at hs
    rcases hstore s with heq | ⟨e, -, -, heq⟩
    · rw [heq]
      exact h.cached s hs
    · rw [heq]
      rfl
  · rw [hfed.log] at hs
    rw [hfed.receiver]
    exact h.pending s hs
  · rw [hfed.receiver] at hrunning
    rw [hfed.log]
    rcases hfed.held q hq with hq | ⟨-, index, rfl, hindex⟩
    · exact h.held hrunning q hq
    · rw [← Bool.not_eq_true]
      intro hs
      rcases h.pending _ hs with hmem | hclosed
      · exact hsettled q hindex hmem
      · exact hrunning hclosed
  · rw [hfed.receiver, hfed.log] at hq'
    obtain ⟨hway, e, he, hle⟩ := h.newest q' hq'
    rcases hfed.onWay hq with hq | rfl
    · exact hway q hq
    · rw [notOlder_singleton]
      intro hsymbol
      rw [hsymbol] at he
      exact hle.trans (hordered.2 e he).le
  · rw [hfed.receiver, hfed.log] at hq'
    obtain ⟨-, e, he, hle⟩ := h.newest q' hq'
    rcases hstore (symbolOf q') with heq | ⟨q, rfl, hq, heq⟩
    · rw [heq]
      exact ⟨e, he, hle⟩
    · rw [heq]
      rw [← hq] at he
      exact ⟨q, rfl, hle.trans (hordered.2 e he).le⟩

/-- What the sender does keeps it prompt. -/
theorem Prompt.send (h : Prompt st) (hsent : Sent st st') : Prompt st' := by
  -- What is on its way afterwards was so before.
  have hway (q : Quote) (hq : q ∈ st'.onWay) : q ∈ st.onWay := by
    unfold Delivery.onWay at hq ⊢
    rw [hsent.inflight, hsent.fanout] at hq
    rw [List.append_assoc] at hq ⊢
    rcases List.mem_append.1 hq with hq | hq
    · exact List.mem_append_left _ (hsent.held q hq)
    · exact List.mem_append_right _ hq
  -- A quote that is sent is not older than the snapshot of its symbol.
  have hlog : SnapshotFirst st'.log ∧ (∀ s, awaiting st'.log s = awaiting st.log s) ∧
      snapshots st'.log = snapshots st.log := by
    rcases hsent.log with hlog | ⟨q, hq, hlog⟩
    · rw [hlog]
      exact ⟨h.first, fun _ => rfl, rfl⟩
    · rw [hlog]
      refine ⟨⟨⟨h.held hsent.running q hq, fun q' hq' hsymbol => ?_⟩, h.first⟩, fun _ => rfl, rfl⟩
      have hq : q ∈ st.onWay := List.mem_append_left _ (List.mem_append_left _ hq)
      exact notOlder_singleton.1 ((h.newest q' (List.mem_append_right _ hq')).1 q hq) hsymbol
  obtain ⟨hfirst, hawaiting, hsnapshots⟩ := hlog
  refine ⟨hfirst, ?_, fun s hs => ?_, fun s hs => ?_, fun hrunning q hq => ?_, fun q' hq' => ?_⟩
  · rw [hsent.store]
    exact h.keyed
  · rw [hawaiting] at hs
    rw [hsent.store]
    exact h.cached s hs
  · rw [hawaiting] at hs
    rw [hsent.receiver]
    exact h.pending s hs
  · rw [hawaiting]
    exact h.held hsent.running q (hsent.held q hq)
  · rw [hsent.receiver, hsnapshots] at hq'
    rw [hsent.store]
    exact (h.newest q' hq').imp_left fun hnewest q hq => hnewest q (hway q hq)

/-- A step that leaves the log and the snapshots alone keeps the invariant, if what is awaited is
still to come. -/
theorem Prompt.keep (h : Prompt st) (hlog : st'.log = st.log) (hstore : st'.store = st.store)
    (hshown : st'.receiver.shown = []) (hway : ∀ q ∈ st'.onWay, q ∈ st.onWay)
    (hpending : ∀ s, awaiting st.log s = true → s ∈ st'.receiver.pending ∨ st'.receiver = .closed)
    (hheld : st'.receiver ≠ .closed → ∀ q ∈ st'.held, awaiting st.log (symbolOf q) = false) :
    Prompt st' where
  first := hlog ▸ h.first
  keyed := hstore ▸ h.keyed
  cached s hs := hstore ▸ h.cached s (hlog ▸ hs)
  pending s hs := hpending s (hlog ▸ hs)
  held hrunning q hq := hlog ▸ hheld hrunning q hq
  newest q' hq' := by
    rw [hshown, List.nil_append, hlog] at hq'
    rw [hstore]
    exact (h.newest q' (List.mem_append_right _ hq')).imp_left fun hnewest q hq =>
      hnewest q (hway q hq)

/-- What the receiver does keeps it prompt, if it is settled. -/
theorem Prompt.receive {a : Receiver} (h : Prompt st) (hsettled : st.Settled (.receiver a))
    (hreceived : Received st a st') : Prompt st' := by
  obtain ⟨hheld, hinflight, hfanout, hstore⟩ := hreceived.frame
  have hway (q : Quote) (hq : q ∈ st'.onWay) : q ∈ st.onWay := by
    unfold Delivery.onWay at hq ⊢
    rw [hinflight, hfanout] at hq
    rw [List.append_assoc] at hq ⊢
    rcases List.mem_append.1 hq with hq | hq
    · exact List.mem_append_left _ (hheld q hq)
    · exact List.mem_append_right _ hq
  cases hreceived with
  | stay => exact h
  | @wait a r hwaits hpending' hpending hrunning =>
    have hnone := h.not_awaiting hpending hrunning
    refine h.keep rfl rfl ?_ hway (fun s hs => ?_) fun _ q _ => hnone _
    · cases r with
      | idle | fetching _ | unsubscribing _ => rfl
      | subscribing _ | showing _ _ | removing _ | closed => exact hwaits.elim
    · exact absurd ((hnone s).symm.trans hs) Bool.false_ne_true
  | @receive command hr =>
    have hnone := h.not_awaiting (by rw [hr]; rfl) (by rw [hr]; exact nofun)
    refine ⟨h.first, h.keyed, h.cached, fun s hs => ?_, fun _ q _ => hnone _, fun q' hq' => ?_⟩
    · exact absurd ((hnone s).symm.trans hs) Bool.false_ne_true
    · exact h.newest q' (List.mem_append_right _ hq')
  | @subscribe symbols hr =>
    -- What is awaited now is what has been added and has a cached quote.
    have hnone := h.not_awaiting (by rw [hr]; rfl) (by rw [hr]; exact nofun)
    let new := symbols.filter fun symbol => symbol ∉ st.subscriptions
    let known := new.filter fun symbol => (st.store symbol).isSome
    have hadded (s : Symbol) (hs : awaiting (.added known :: st.log) s = true) : s ∈ known := by
      rcases Bool.or_eq_true_iff.1 hs with hs | hs
      · exact of_decide_eq_true hs
      · exact absurd ((hnone s).symm.trans hs) Bool.false_ne_true
    refine ⟨h.first, h.keyed, fun s hs => ?_, fun s hs => ?_, fun _ q hq => ?_, fun q' hq' => ?_⟩
    · exact (List.mem_filter.1 (hadded s hs)).2
    · exact Or.inl (List.mem_filter.1 (hadded s hs)).1
    · rw [← Bool.not_eq_true]
      intro hs
      obtain ⟨hmem, hnew⟩ := List.mem_filter.1 (List.mem_filter.1 (hadded _ hs)).1
      refine of_decide_eq_true hnew (hsettled q hq ?_)
      rw [hr]
      exact hmem
    · exact h.newest q' (List.mem_append_right _ hq')
  | @fetch symbol symbols q hr hq =>
    -- The quote fetched is what the session has of the symbol.
    have hsymbol : symbolOf q = symbol := h.keyed symbol q hq
    have hrunning : st.receiver ≠ .closed := by
      rw [hr]
      exact nofun
    refine ⟨h.first, h.keyed, h.cached, fun s hs => ?_, fun _ => h.held hrunning, fun q' hq' => ?_⟩
    · have hpending := (h.pending s hs).resolve_right hrunning
      rw [hr] at hpending
      rw [← hsymbol] at hpending
      exact Or.inl hpending
    · rcases List.mem_cons.1 hq' with rfl | hq'
      · refine ⟨fun e he => hsettled symbol (by rw [hr]; rfl) q' hq e he, q', ?_, le_rfl⟩
        rw [hsymbol]
        exact hq
      · exact h.newest q' (List.mem_append_right _ hq')
  | @skip symbol symbols hr hnone =>
    have hrunning : st.receiver ≠ .closed := by
      rw [hr]
      exact nofun
    refine h.keep rfl rfl rfl hway (fun s hs => Or.inl ?_) fun _ => h.held hrunning
    -- What is awaited has a cached quote, and so is not what is skipped.
    have hpending := (h.pending s hs).resolve_right hrunning
    rw [hr] at hpending
    refine (List.mem_cons.1 hpending).resolve_left fun heq => ?_
    have hcached := h.cached s hs
    rw [heq, hnone] at hcached
    exact Bool.false_ne_true hcached
  | fetchInvalid => exact hsettled.elim
  | @sendSnapshot q symbols hr =>
    -- The snapshot ends the waiting for its symbol, and for no other.
    have hrunning : st.receiver ≠ .closed := by
      rw [hr]
      exact nofun
    have hlog (s : Symbol) (hs : awaiting (.snapshot q :: st.log) s = true) :
        symbolOf q ≠ s ∧ awaiting st.log s = true :=
      (Bool.and_eq_true_iff.1 hs).imp_left of_decide_eq_true
    refine ⟨h.first, h.keyed, fun s hs => h.cached s (hlog s hs).2, fun s hs => Or.inl ?_,
      fun _ e he => ?_, fun q' hq' => ?_⟩
    · obtain ⟨hne, hs⟩ := hlog s hs
      have hpending := (h.pending s hs).resolve_right hrunning
      rw [hr] at hpending
      exact (List.mem_cons.1 hpending).resolve_left hne.symm
    · show (decide (symbolOf q ≠ symbolOf e) && awaiting st.log (symbolOf e)) = false
      rw [h.held hrunning e he, Bool.and_false]
    · refine h.newest q' ?_
      rw [hr]
      exact hq'
  | @unsubscribe symbols hr =>
    -- Behind the snapshots nothing is awaited.
    have hnone := h.not_awaiting (by rw [hr]; rfl) (by rw [hr]; exact nofun)
    refine h.keep rfl rfl rfl hway (fun s hs => ?_) fun _ q _ => hnone _
    exact absurd ((hnone s).symm.trans hs) Bool.false_ne_true
  | @ackUnsubscribe symbols hr =>
    have hnone := h.not_awaiting (by rw [hr]; rfl) (by rw [hr]; exact nofun)
    refine ⟨h.first, h.keyed, h.cached, fun s hs => ?_, fun _ q _ => hnone _, fun q' hq' => ?_⟩
    · exact absurd ((hnone s).symm.trans hs) Bool.false_ne_true
    · exact h.newest q' (List.mem_append_right _ hq')
  | stop =>
    exact h.keep rfl rfl rfl hway (fun _ _ => Or.inr rfl) fun hrunning => absurd rfl hrunning
  | remove hr =>
    refine h.keep rfl rfl ?_ hway (fun _ _ => Or.inr hr) fun hrunning => absurd hr hrunning
    show st.receiver.shown = []
    rw [hr]
    rfl

/-- A step keeps it prompt, if it is ordered and settled. -/
theorem Prompt.step {a : Action} (h : Prompt st) (hordered : st.Ordered a) (hsettled : st.Settled a)
    (hstep : st.step interval a = some st') : Prompt st' := by
  cases a with
  | tick duration =>
    rw [← Option.some.inj hstep]
    exact ⟨h.first, h.keyed, h.cached, h.pending, h.held, h.newest⟩
  | feed a => exact h.feed hordered hsettled (fed hstep)
  | sender a => exact h.send (sent hstep)
  | receiver a => exact h.receive hsettled (received hstep)

/-- In a run in which no quote of a symbol comes between its addition and its snapshot, the client
gets the snapshot first, and no older quote after it. -/
theorem snapshotFirst_of_settled (interval : ℤ) (maxItems : ℕ) (hmax : 0 < maxItems) (st : Delivery)
    (h : Path (Delivery.step interval) (fun st a => st.Ordered a ∧ st.Settled a)
      (init maxItems hmax) st) : SnapshotFirst st.log := by
  have hprompt : Prompt st := h.invariant Prompt (prompt_init maxItems hmax)
    fun _ _ _ hprompt hok hstep => hprompt.step hok.1 hok.2 hstep
  exact hprompt.first

instance (st : Delivery) (a : Action) : Decidable (st.Ordered a) := by
  unfold Ordered
  split
  · infer_instance
  · infer_instance

instance (st : Delivery) (a : Action) : Decidable (st.Settled a) := by
  unfold Settled
  split
  all_goals infer_instance

/-- A quote is cached, and the symbol is added. -/
def addSteps : List Action :=
  [.feed (.cache (quoteAt 1)), .feed .publish, .receiver (.receive (sampleCommand .subscribe)),
    .receiver .subscribe]

/-- The snapshot and the `ack` are sent. -/
def showSteps : List Action := [.receiver .fetch, .receiver .sendSnapshot, .receiver .ackSubscribe]

/-- A snapshot is sent, and then a quote. -/
theorem snapshotFirst_of_settled_run : ∃ st :
    Delivery, st.log.length = 4 ∧ SnapshotFirst st.log := by
  obtain ⟨st, hrun, hlength⟩ := Path.exists_of_exec (Delivery.step second)
    (fun st a => st.Ordered a ∧ st.Settled a) (init 1 one_pos)
    (addSteps ++ showSteps ++ bufferSteps (quoteAt 2) ++ sendSteps)
    (fun st => st.log.length = 4) (by decide +kernel)
  exact ⟨st, hlength, snapshotFirst_of_settled second 1 one_pos st hrun⟩

/-- A quote is sent before any snapshot. And a quote that was on its way when a newer one was read
is sent after the snapshot. -/
theorem exists_not_snapshotFirst :
    (∃ st, Path (Delivery.step second) Ordered (init 1 one_pos) st ∧
      (snapshots st.log).length = 0 ∧ ¬SnapshotFirst st.log) ∧
    ∃ st, Path (Delivery.step second) Ordered (init 1 one_pos) st ∧
      (snapshots st.log).length = 1 ∧ ¬SnapshotFirst st.log := by
  constructor
  · exact Path.exists_of_exec _ _ _ (addSteps ++ bufferSteps (quoteAt 2) ++ sendSteps) _
      (by decide +kernel)
  · exact Path.exists_of_exec _ _ _ (addSteps ++
      [.feed (.cache (quoteAt 2)), .feed (.cache (quoteAt 3))] ++ showSteps ++
      [.feed .publish, .feed (.put 0)] ++ sendSteps) _ (by decide +kernel)

end Delivery

end MarketDataGateway.Session
