import MarketDataGateway.Session.Delivery

/-!
# Silence after an unsubscribe

A client that has been told that it is unsubscribed still gets the quotes that the session has when
the `ack` is sent, or that `publish` has found the session for (`exists_not_silent`). It gets none
if there are none of these (`silent_of_drained`).
-/

namespace MarketDataGateway.Session

open Lib

/-! ## What the client sees -/

/-- The last `ack` of an `unsubscribe` of the symbol is later than any `subscribe` received for
it. -/
def silenced : List Entry → Symbol → Bool
  | [], _ => false
  | .unsubscribed symbols :: log, s => s ∈ symbols || silenced log s
  | .received symbols :: log, s => s ∉ symbols && silenced log s
  | _ :: log, s => silenced log s

/-- No `quote` is sent of a symbol that is silenced. -/
def Silent : List Entry → Prop
  | [] => True
  | .quote q :: log => silenced log (symbolOf q) = false ∧ Silent log
  | _ :: log => Silent log

instance decidableSilent : (log : List Entry) → Decidable (Silent log)
  | [] => .isTrue trivial
  | .quote _ :: log => @instDecidableAnd _ _ inferInstance (decidableSilent log)
  | .received _ :: log => decidableSilent log
  | .added _ :: log => decidableSilent log
  | .snapshot _ :: log => decidableSilent log
  | .unsubscribed _ :: log => decidableSilent log

namespace Delivery

/-- When the `ack` of an `unsubscribe` is sent, there is no quote of its symbols in the buffer, at
`send_loop`, or in a `publish` that has found the session. -/
def Drained (st : Delivery) : Action → Prop
  | .receiver .ackUnsubscribe => ∀ q ∈ st.held ++ st.inflight, symbolOf q ∉ st.receiver.removed
  | _ => True

instance (st : Delivery) (a : Action) : Decidable (st.Drained a) := by
  unfold Drained
  split
  · infer_instance
  · infer_instance

/-! ## The invariant -/

/-- A symbol that is silenced is not subscribed to, and there is no quote of it. -/
structure Quiet (st : Delivery) : Prop where
  silent : Silent st.log
  subscriptions : ∀ s, silenced st.log s = true → s ∉ st.subscriptions
  held : ∀ s, silenced st.log s = true → ∀ q ∈ st.held ++ st.inflight, symbolOf q ≠ s
  subscribing : ∀ symbols, st.receiver = .subscribing symbols →
    ∀ s ∈ symbols, silenced st.log s = false
  removing : ∀ symbols, st.receiver = .removing symbols → ∀ s ∈ symbols, s ∉ st.subscriptions

/-- The start is quiet. -/
theorem quiet_init (maxItems : ℕ) (h : 0 < maxItems) : Quiet (init maxItems h) where
  silent := trivial
  subscriptions _ hs := absurd hs Bool.false_ne_true
  held _ hs := absurd hs Bool.false_ne_true
  subscribing _ hr := nomatch hr
  removing _ hr := nomatch hr

variable {interval : ℤ} {st st' : Delivery}

/-- What the publisher does keeps it quiet. -/
theorem Quiet.feed {a : Feed} (h : Quiet st) (hfed : Fed st a st') : Quiet st' := by
  refine ⟨?_, ?_, ?_, ?_, ?_⟩
  · rw [hfed.log]
    exact h.silent
  · rw [hfed.log, hfed.subscriptions]
    exact h.subscriptions
  · rw [hfed.log]
    intro s hs q hq
    have hold (hq : q ∈ st.held ∨ q ∈ st.inflight) : symbolOf q ≠ s :=
      h.held s hs q (List.mem_append.2 hq)
    rcases List.mem_append.1 hq with hq | hq
    · rcases hfed.held q hq with hq | ⟨hq, -⟩
      · exact hold (Or.inl hq)
      · exact hold (Or.inr hq)
    · rcases hfed.inflight q hq with hq | ⟨-, hmem⟩
      · exact hold (Or.inr hq)
      · -- `publish` has found the session, which has subscribed to the symbol.
        intro heq
        exact h.subscriptions s hs (heq ▸ hmem)
  · rw [hfed.log, hfed.receiver]
    exact h.subscribing
  · rw [hfed.receiver, hfed.subscriptions]
    exact h.removing

/-- What the sender does keeps it quiet. -/
theorem Quiet.send (h : Quiet st) (hsent : Sent st st') : Quiet st' := by
  have hlog : Silent st'.log ∧ ∀ s, silenced st'.log s = silenced st.log s := by
    rcases hsent.log with hlog | ⟨q, hq, hlog⟩
    · rw [hlog]
      exact ⟨h.silent, fun _ => rfl⟩
    · rw [hlog]
      refine ⟨⟨?_, h.silent⟩, fun _ => rfl⟩
      rw [← Bool.not_eq_true]
      exact fun hs => h.held _ hs q (List.mem_append_left _ hq) rfl
  refine ⟨hlog.1, fun s hs => ?_, fun s hs q hq => ?_, fun symbols hr s hs => ?_, ?_⟩
  · rw [hlog.2] at hs
    rw [hsent.subscriptions]
    exact h.subscriptions s hs
  · rw [hlog.2] at hs
    rw [hsent.inflight] at hq
    refine h.held s hs q ?_
    rcases List.mem_append.1 hq with hq | hq
    · exact List.mem_append_left _ (hsent.held q hq)
    · exact List.mem_append_right _ hq
  · rw [hlog.2]
    rw [hsent.receiver] at hr
    exact h.subscribing symbols hr s hs
  · rw [hsent.receiver, hsent.subscriptions]
    exact h.removing

/-- A step that leaves the log alone keeps the session quiet if it adds no symbol. -/
theorem Quiet.shrink (h : Quiet st) (hlog : st'.log = st.log)
    (hsubs : st'.subscriptions ⊆ st.subscriptions) (hheld : ∀ q ∈ st'.held, q ∈ st.held)
    (hinflight : st'.inflight = st.inflight)
    (hsubscribing : ∀ symbols, st'.receiver ≠ .subscribing symbols)
    (hremoving : ∀ symbols, st'.receiver = .removing symbols →
    ∀ s ∈ symbols, s ∉ st'.subscriptions) :
    Quiet st' where
  silent := hlog ▸ h.silent
  subscriptions s hs hmem := h.subscriptions s (hlog ▸ hs) (hsubs hmem)
  held s hs q hq := by
    refine h.held s (hlog ▸ hs) q ?_
    rw [hinflight] at hq
    rcases List.mem_append.1 hq with hq | hq
    · exact List.mem_append_left _ (hheld q hq)
    · exact List.mem_append_right _ hq
  subscribing symbols hr := absurd hr (hsubscribing symbols)
  removing := hremoving

/-- What the receiver does keeps it quiet, if the buffer has been drained. -/
theorem Quiet.receive {a : Receiver} (h : Quiet st) (hok : st.Drained (.receiver a))
    (hreceived : Received st a st') : Quiet st' := by
  obtain ⟨hheld, hinflight, -, -⟩ := hreceived.frame
  cases hreceived with
  | stay => exact h
  | @wait a r hwaits _ _ _ =>
    refine h.shrink rfl (Finset.Subset.refl _) hheld rfl (fun symbols hr => ?_) fun symbols hr => ?_
    · rw [show r = .subscribing symbols from hr] at hwaits
      exact hwaits.elim
    · rw [show r = .removing symbols from hr] at hwaits
      exact hwaits.elim
  | @receive command _ =>
    have hlog (s : Symbol) (hs : silenced (.received command.symbolSet :: st.log) s = true) :
        silenced st.log s = true := (Bool.and_eq_true_iff.1 hs).2
    refine ⟨h.silent, fun s hs => h.subscriptions s (hlog s hs),
      fun s hs => h.held s (hlog s hs), fun symbols hr s hs => ?_, (fun _ hr => nomatch hr)⟩
    obtain rfl := Stage.subscribing.inj hr
    show (decide (s ∉ command.symbolSet) && silenced st.log s) = false
    rw [decide_eq_false (not_not.2 hs), Bool.false_and]
  | @subscribe symbols hr =>
    refine ⟨h.silent, fun s hs hmem => ?_, h.held, (fun _ hr => nomatch hr),
      (fun _ hr => nomatch hr)⟩
    rcases Finset.mem_union.1 hmem with hmem | hmem
    · exact h.subscriptions s hs hmem
    · have hin : s ∈ symbols := (List.mem_filter.1 (List.mem_toFinset.1 hmem)).1
      exact Bool.false_ne_true ((h.subscribing symbols hr s hin).symm.trans hs)
  | fetch _ _ | skip _ _ | fetchInvalid | stop =>
    exact h.shrink rfl (Finset.Subset.refl _) hheld rfl (fun _ hr => nomatch hr)
      fun _ hr => nomatch hr
  | sendSnapshot _ =>
    exact ⟨h.silent, h.subscriptions, h.held, (fun _ hr => nomatch hr), (fun _ hr => nomatch hr)⟩
  | @unsubscribe symbols _ =>
    -- The symbols are out of the set before they are acknowledged.
    refine h.shrink rfl Finset.sdiff_subset hheld rfl (fun _ hr => nomatch hr) ?_
    intro symbols' hr s hs hmem
    obtain rfl := Stage.removing.inj hr
    exact (Finset.mem_sdiff.1 hmem).2 (List.mem_toFinset.2 hs)
  | @ackUnsubscribe symbols hr =>
    -- From here on they are to be silent, and none is held any more.
    have hlog (s : Symbol) (hs : silenced (.unsubscribed symbols :: st.log) s = true) :
        s ∈ symbols ∨ silenced st.log s = true :=
      (Bool.or_eq_true_iff.1 hs).imp_left of_decide_eq_true
    refine ⟨h.silent, fun s hs => ?_, fun s hs q hq => ?_, (fun _ hr => nomatch hr),
      (fun _ hr => nomatch hr)⟩
    · rcases hlog s hs with hs | hs
      · exact h.removing symbols hr s hs
      · exact h.subscriptions s hs
    · rcases hlog s hs with hs | hs
      · intro heq
        refine hok q hq ?_
        rw [heq, hr]
        exact hs
      · exact h.held s hs q hq
  | remove hr =>
    have hclosed {r : Stage} (hr' : st.receiver = r) : r = .closed := hr'.symm.trans hr
    refine h.shrink rfl (Finset.empty_subset _) hheld rfl (fun symbols hr' =>
      ?_) fun symbols hr' => ?_
    · exact nomatch hclosed hr'
    · exact nomatch hclosed hr'

/-- A step keeps it quiet, if the buffer has been drained. -/
theorem Quiet.step {a : Action} (h : Quiet st) (hok : st.Drained a)
    (hstep : st.step interval a = some st') : Quiet st' := by
  cases a with
  | tick duration =>
    rw [← Option.some.inj hstep]
    exact ⟨h.silent, h.subscriptions, h.held, h.subscribing, h.removing⟩
  | feed a => exact h.feed (fed hstep)
  | sender a => exact h.send (sent hstep)
  | receiver a => exact h.receive hok (received hstep)

/-- In a run in which every `ack` of an `unsubscribe` finds none of its quotes on their way to the
client, the client gets no quote of a symbol after it until it subscribes again. -/
theorem silent_of_drained (interval : ℤ) (maxItems : ℕ) (hmax : 0 < maxItems) (st : Delivery)
    (h : Path (Delivery.step interval) Drained (init maxItems hmax) st) : Silent st.log := by
  have hquiet : Quiet st := h.invariant Quiet (quiet_init maxItems hmax)
    fun _ _ _ hquiet hok hstep => hquiet.step hok hstep
  exact hquiet.silent

/-- A quote is sent, and none comes after the `ack`. -/
theorem silent_of_drained_run : ∃ st : Delivery, st.log.length = 4 ∧ Silent st.log := by
  obtain ⟨st, hrun, hlength⟩ := Path.exists_of_exec (Delivery.step second) Drained
    (init 1 one_pos)
    (subscribeSteps ++ bufferSteps (quoteAt 1) ++ sendSteps ++ unsubscribeSteps)
    (fun st => st.log.length = 4) (by decide +kernel)
  exact ⟨st, hlength, silent_of_drained second 1 one_pos st hrun⟩

/-- The quote that is in the buffer when the `ack` is sent comes after it. -/
theorem exists_not_silent : ∃ st, Path (Delivery.step second) anyStep (init 1 one_pos) st ∧
    ¬Silent st.log :=
  Path.exists_of_exec _ _ _ (subscribeSteps ++ bufferSteps (quoteAt 1) ++
    unsubscribeSteps ++ sendSteps)
    _ (by decide +kernel)

end Delivery

end MarketDataGateway.Session
