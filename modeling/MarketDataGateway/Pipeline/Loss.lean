import MarketDataGateway.Pipeline.Once

/-!
# When quotes are lost

An entry is acknowledged in three places: after `publish_fanout`, after `move_to_dead_letter`, and
when `accept_event_once` finds the dedupe key. The first two leave nothing behind. The third takes
the dedupe key for a sign that the event has been applied, but the key is set before anything is
applied: when the execution that has set it fails or crashes, the redelivered entry is acknowledged
as a duplicate of itself (`not_noSilentLoss`).

`PcOk` is what holds of each processor in every run: it works on entries of the stream, and before
it acknowledges one in either of the first two places it has done its work. So a quote is lost in a
step exactly if that step acknowledges a duplicate of an event that no execution has completed
(`noSilentLoss_iff`).
-/

namespace MarketDataGateway.Pipeline

open Lib Hot

/-- Some execution for the event id has completed `cache_quote` and `publish_fanout`: the event has
been published, and it has been taken in unless its minute was beyond retention. -/
def Processed (r : Redis) (x : EventId) : Prop :=
  ∃ c ∈ r.completed, c.event.eventId = x ∧ c.event ∈ r.fanout ∧
    (c.late = false → c.event ∈ (r.hot c.event.symbol).committed)

/-- The entry is in the dead-letter stream. -/
def DeadLettered (r : Redis) (id : ℕ) : Prop := ∃ letter ∈ r.deadLetters, letter.sourceId = id

/-- Each acknowledged entry with a valid event has been processed, itself or by another entry with
its event id, or moved to the dead-letter stream. -/
def NoSilentLoss (st : State) : Prop :=
  ∀ id ∈ st.redis.acked, ∀ event, st.redis.stream[id]? = some (.quote event) →
    Processed st.redis event.eventId ∨ DeadLettered st.redis id

/-- A command that acknowledges a duplicate is refused, or an execution has completed the event, or
the entry is in the dead-letter stream. -/
def DuplicatesCompleted (st : State) : Label → Prop
  | .run i outcome _ =>
    match st.procs[i]? with
    | some (.duplicateAck w event) =>
      outcome = .refused ∨ (∃ c ∈ st.redis.completed, c.event.eventId = event.eventId) ∨
        DeadLettered st.redis w.id
    | _ => True
  | _ => True

instance (r : Redis) (id : ℕ) : Decidable (DeadLettered r id) :=
  inferInstanceAs (Decidable (∃ letter ∈ r.deadLetters, letter.sourceId = id))

instance (st : State) (a : Label) : Decidable (DuplicatesCompleted st a) := by
  unfold DuplicatesCompleted
  split
  · split <;> infer_instance
  · infer_instance

/-! ## What holds of a processor -/

/-- The entries are in the stream. -/
def Has (r : Redis) (entries : List (ℕ × Fields)) : Prop :=
  ∀ p ∈ entries, r.stream[p.1]? = some p.2

/-- The entry that a processor works on and those that come after it. -/
def Work.entries (w : Work) : List (ℕ × Fields) := (w.id, w.fields) :: w.rest

/-- What a processor works on, and what it has done before it acknowledges. -/
def PcOk (r : Redis) : Pc → Prop
  | .reading => True
  | .claiming => True
  | .crashed => True
  | .counting entries => Has r entries
  | .accept w event => Has r w.entries ∧ w.fields = .quote event
  | .duplicateAck w event => Has r w.entries ∧ w.fields = .quote event
  | .sequenceGet w event _ => Has r w.entries ∧ w.fields = .quote event
  | .sequenceSet w event _ _ => Has r w.entries ∧ w.fields = .quote event
  | .health w event _ => Has r w.entries ∧ w.fields = .quote event
  | .cache w event _ => Has r w.entries ∧ w.fields = .quote event
  | .publish w event late => (Has r w.entries ∧ w.fields = .quote event) ∧
      (late = false → event ∈ (r.hot event.symbol).committed)
  | .ack w event => (Has r w.entries ∧ w.fields = .quote event) ∧ Processed r event.eventId
  | .retry w _ => Has r w.entries
  | .deadLetter w _ _ => Has r w.entries
  | .deadAck w => Has r w.entries ∧ DeadLettered r w.id

/-- Nothing that has been done is undone. -/
structure Grows (r r' : Redis) : Prop where
  stream : ∀ (id : ℕ) (fields : Fields), r.stream[id]? = some fields →
    r'.stream[id]? = some fields
  completed : r.completed ⊆ r'.completed
  fanout : r.fanout ⊆ r'.fanout
  committed : ∀ s, (r.hot s).committed ⊆ (r'.hot s).committed
  deadLetters : r.deadLetters ⊆ r'.deadLetters

section Grows

variable {cfg : Settings} {clock : Timestamp} {r r' : Redis} {pc pc' : Pc} {w : Work}
  {event : QuoteEvent} {entries : List (ℕ × Fields)} {outcome : Outcome} {claimed : List ℕ}
  {x : EventId} {id : ℕ}

/-- Redis grows if what counts of it is the same. -/
theorem Grows.of_eq (hstream : r'.stream = r.stream) (hcompleted : r'.completed = r.completed)
    (hfanout : r'.fanout = r.fanout) (hhot : r'.hot = r.hot)
    (hdead : r'.deadLetters = r.deadLetters) : Grows r r' := by
  constructor
  · intro id fields h
    rwa [hstream]
  · rw [hcompleted]
    exact List.Subset.refl _
  · rw [hfanout]
    exact List.Subset.refl _
  · intro s
    rw [hhot]
    exact List.Subset.refl _
  · rw [hdead]
    exact List.Subset.refl _

/-- Nothing happens to Redis. -/
theorem Grows.refl (r : Redis) : Grows r r := .of_eq rfl rfl rfl rfl rfl

/-- Entries that Redis has are still there when it has grown. -/
theorem Has.mono (h : Has r entries) (hr : Grows r r') : Has r' entries :=
  fun p hp => hr.stream _ _ (h p hp)

/-- What has been processed stays processed. -/
theorem Processed.mono (h : Processed r x) (hr : Grows r r') : Processed r' x := by
  obtain ⟨c, hc, hid, hfanout, hcommitted⟩ := h
  exact ⟨c, hr.completed hc, hid, hr.fanout hfanout, fun hlate => hr.committed _ (hcommitted hlate)⟩

/-- What is in the dead letters stays there. -/
theorem DeadLettered.mono (h : DeadLettered r id) (hr : Grows r r') : DeadLettered r' id := by
  obtain ⟨letter, hletter, hid⟩ := h
  exact ⟨letter, hr.deadLetters hletter, hid⟩

/-- What holds of a processor is kept by the steps of others. -/
theorem PcOk.mono (h : PcOk r pc) (hr : Grows r r') : PcOk r' pc := by
  cases pc with
  | reading => trivial
  | claiming => trivial
  | crashed => trivial
  | counting entries => exact Has.mono h hr
  | accept w event => exact ⟨h.1.mono hr, h.2⟩
  | duplicateAck w event => exact ⟨h.1.mono hr, h.2⟩
  | sequenceGet w event sequence => exact ⟨h.1.mono hr, h.2⟩
  | sequenceSet w event sequence previous => exact ⟨h.1.mono hr, h.2⟩
  | health w event o => exact ⟨h.1.mono hr, h.2⟩
  | cache w event cpc => exact ⟨h.1.mono hr, h.2⟩
  | publish w event late =>
    exact ⟨⟨h.1.1.mono hr, h.1.2⟩, fun hlate => hr.committed _ (h.2 hlate)⟩
  | ack w event => exact ⟨⟨h.1.1.mono hr, h.1.2⟩, h.2.mono hr⟩
  | retry w err => exact Has.mono h hr
  | deadLetter w err retryCount => exact Has.mono h hr
  | deadAck w => exact ⟨h.1.mono hr, h.2.mono hr⟩

/-- A processor that comes to the next entry of a batch from the stream. -/
theorem pcOk_nextEntry (h : Has r entries) : PcOk r (nextEntry entries) := by
  unfold nextEntry
  split
  · trivial
  · next id fields rest =>
    split
    · exact h
    · next event hparse =>
      refine ⟨h, ?_⟩
      cases fields with
      | missing => cases hparse
      | malformed field => cases hparse
      | quote event' => rw [Except.ok.inj hparse]

/-- The entries that a processor is given are in the stream. -/
theorem has_entries (r : Redis) (ids : List ℕ) : Has r (r.entries ids) := by
  intro p hp
  obtain ⟨id, -, hmap⟩ := List.mem_filterMap.1 hp
  obtain ⟨fields, hfields, rfl⟩ := Option.map_eq_some_iff.1 hmap
  exact hfields

/-- The rest of the entries are there. -/
theorem Has.rest (h : Has r w.entries) : Has r w.rest := fun p hp => h p (List.mem_cons_of_mem _ hp)

/-- The entry at work is there. -/
theorem Has.self (h : Has r w.entries) : r.stream[w.id]? = some w.fields :=
  h (w.id, w.fields) List.mem_cons_self

/-- A processor that begins to observe an event has it. -/
theorem pcOk_observe (h : Has r w.entries ∧ w.fields = .quote event) :
    PcOk r (observe w event) := by
  unfold observe
  split <;> exact h

/-- A processor that has observed an event has it. -/
theorem pcOk_observed (h : Has r w.entries ∧ w.fields = .quote event)
    (o : Option GapObservation) : PcOk r (observed w event o) := by
  cases o <;> exact h

/-- `SET NX` undoes nothing. -/
theorem grows_setDedupe (r : Redis) (cfg : Settings) (clock : Timestamp) (id : EventId) :
    Grows r (r.setDedupe cfg clock id) := by
  unfold Redis.setDedupe
  split_ifs
  · exact .of_eq rfl rfl rfl rfl rfl
  · exact .refl r

/-- A step of `cache_quote` undoes nothing. If it returns, it has taken in the quote, or found its
minute beyond retention. -/
theorem grows_putHot {cpc cpc' : CachePc} {keys' : HotKeys}
    (h : cacheStep cfg clock (r.hot event.symbol) event cpc = some (keys', cpc')) :
    Grows r (r.putHot event keys' cpc'.isReturned) ∧ (cpc' = .returned false →
      event ∈ ((r.putHot event keys' cpc'.isReturned).hot event.symbol).committed) := by
  have hself : (r.putHot event keys' cpc'.isReturned).hot event.symbol = keys' :=
    Function.update_self _ _ _
  have hkeys : (r.hot event.symbol).committed ⊆ keys'.committed ∧
      (cpc' = .returned false → event ∈ keys'.committed) := by
    rcases cacheStep_effect h with ⟨rfl, hret⟩ | ⟨-, rfl, rfl⟩ | ⟨now, left, value, -, rfl, rfl⟩
    · refine ⟨List.Subset.refl _, fun heq => ?_⟩
      rw [heq] at hret
      cases hret
    · exact ⟨List.Subset.refl _, fun heq => by cases heq⟩
    · exact ⟨List.subset_cons_self _ _, fun _ => List.mem_cons_self⟩
  refine ⟨⟨fun _ _ h => h, List.Subset.refl _, List.Subset.refl _, fun s => ?_,
    List.Subset.refl _⟩, ?_⟩
  · by_cases hs : s = event.symbol
    · rw [hs, hself]
      exact hkeys.1
    · have hother : (r.putHot event keys' cpc'.isReturned).hot s = r.hot s :=
        Function.update_of_ne hs _ _
      rw [hother]
      exact List.Subset.refl _
  · rw [hself]
    exact hkeys.2

/-- A command whose failure leads to `_handle_failure`, or ends the batch. -/
theorem grows_send {reply : Redis × Pc} {failed : Pc} {effect : Redis}
    (h : send outcome r effect reply failed = (r', pc')) (heffect : Grows r effect)
    (hreply : Grows r reply.1 ∧ PcOk reply.1 reply.2) (hfailed : PcOk r failed) :
    Grows r r' ∧ PcOk r' pc' :=
  send_elim (fun r' pc' => Grows r r' ∧ PcOk r' pc') h hreply ⟨.refl r, hfailed⟩
    ⟨heffect, hfailed.mono heffect⟩

/-- A step of a processor undoes nothing, and keeps what holds of the processor. -/
theorem procStep_grows (hok : PcOk r pc)
    (h : procStep cfg clock r outcome claimed pc = some (r', pc')) :
    Grows r r' ∧ PcOk r' pc' := by
  cases pc with
  | reading =>
    have hgrows : Grows r r.deliver := .of_eq rfl rfl rfl rfl rfl
    refine grows_send (Option.some.inj h) hgrows ⟨hgrows, ?_⟩ trivial
    split_ifs
    · trivial
    · exact (pcOk_nextEntry (has_entries r _)).mono hgrows
  | claiming =>
    rw [procStep] at h
    split_ifs at h
    exact grows_send (Option.some.inj h) (.refl r) ⟨.refl r, has_entries r _⟩ trivial
  | counting entries =>
    exact grows_send (Option.some.inj h) (.refl r) ⟨.refl r, pcOk_nextEntry hok⟩ trivial
  | accept w event =>
    have hgrows := grows_setDedupe r cfg clock event.eventId
    have hok' : Has (r.setDedupe cfg clock event.eventId) w.entries ∧ w.fields = .quote event :=
      ⟨hok.1.mono hgrows, hok.2⟩
    rw [procStep] at h
    split_ifs at h
    · obtain ⟨rfl, rfl⟩ := Prod.mk.inj (Option.some.inj h)
      exact ⟨.refl r, hok.1⟩
    · -- The event is new: the acceptance is recorded with the reply.
      refine grows_send (Option.some.inj h) hgrows ⟨?_, ?_⟩ hok.1
      · exact ⟨hgrows.stream, hgrows.completed, hgrows.fanout, hgrows.committed,
          hgrows.deadLetters⟩
      · exact (pcOk_observe hok').mono (.of_eq rfl rfl rfl rfl rfl)
    · -- The key is there: all that is known is that the entry holds the event.
      exact grows_send (Option.some.inj h) hgrows ⟨hgrows, hok'⟩ hok.1
  | duplicateAck w event =>
    have hgrows : Grows r (r.ack w.id) := .of_eq rfl rfl rfl rfl rfl
    exact grows_send (Option.some.inj h) hgrows
      ⟨hgrows, (pcOk_nextEntry hok.1.rest).mono hgrows⟩ hok.1
  | sequenceGet w event sequence =>
    refine grows_send (Option.some.inj h) (.refl r) ⟨.refl r, ?_⟩ hok.1
    split_ifs
    · exact hok
    · exact pcOk_observed hok _
  | sequenceSet w event sequence previous =>
    have hgrows : Grows r (r.setSequence clock event sequence) := .of_eq rfl rfl rfl rfl rfl
    exact grows_send (Option.some.inj h) hgrows ⟨hgrows, (pcOk_observed hok _).mono hgrows⟩ hok.1
  | health w event o =>
    have hgrows : Grows r (r.setHealth clock event o) := .of_eq rfl rfl rfl rfl rfl
    exact grows_send (Option.some.inj h) hgrows
      ⟨hgrows, (show PcOk r (.health w event o) from hok).mono hgrows⟩ hok.1
  | cache w event cpc =>
    obtain ⟨⟨keys', cpc'⟩, hcache, hsend⟩ := Option.map_eq_some_iff.1 h
    obtain ⟨hgrows, htaken⟩ := grows_putHot hcache
    refine grows_send hsend hgrows ⟨hgrows, ?_⟩ hok.1
    have hok' : Has (r.putHot event keys' cpc'.isReturned) w.entries ∧ w.fields = .quote event :=
      ⟨hok.1.mono hgrows, hok.2⟩
    cases cpc' with
    -- A call that has not found the minute beyond retention has taken the quote in.
    | returned late => exact ⟨hok', fun hlate => htaken (by rw [hlate])⟩
    | raised err => exact hok'.1
    | _ => exact hok'
  | publish w event late =>
    have hgrows : Grows r (r.publishFanout event) :=
      ⟨fun _ _ h => h, List.Subset.refl _, List.subset_cons_self _ _,
        fun _ => List.Subset.refl _, List.Subset.refl _⟩
    have hreply : Grows r ((r.publishFanout event).recordCompletion event late) :=
      ⟨fun _ _ h => h, List.subset_cons_self _ _, List.subset_cons_self _ _,
        fun _ => List.Subset.refl _, List.Subset.refl _⟩
    refine grows_send (Option.some.inj h) hgrows ⟨hreply, ⟨hok.1.1.mono hreply, hok.1.2⟩, ?_⟩
      hok.1.1
    exact ⟨⟨event, late⟩, List.mem_cons_self, rfl, List.mem_cons_self, hok.2⟩
  | ack w event =>
    have hgrows : Grows r (r.ack w.id) := .of_eq rfl rfl rfl rfl rfl
    exact grows_send (Option.some.inj h) hgrows
      ⟨hgrows, (pcOk_nextEntry hok.1.1.rest).mono hgrows⟩ hok.1.1
  | retry w err =>
    -- Nothing is claimed of an entry that stays pending.
    have hgrows : Grows r (r.incrementRetry clock w.id) := .of_eq rfl rfl rfl rfl rfl
    refine grows_send (Option.some.inj h) hgrows ⟨hgrows, ?_⟩ trivial
    split_ifs
    · exact Has.mono hok hgrows
    · exact (pcOk_nextEntry (Has.rest hok)).mono hgrows
  | deadLetter w err retryCount =>
    have hgrows : Grows r (r.moveToDeadLetter ⟨w.id, w.fields, err, retryCount, clock⟩) :=
      ⟨fun _ _ h => h, List.Subset.refl _, List.Subset.refl _, fun _ => List.Subset.refl _,
        List.subset_cons_self _ _⟩
    refine grows_send (Option.some.inj h) hgrows ⟨hgrows, Has.mono hok hgrows, ?_⟩ trivial
    exact ⟨_, List.mem_cons_self, rfl⟩
  | deadAck w =>
    have hgrows : Grows r (r.ack w.id) := .of_eq rfl rfl rfl rfl rfl
    exact grows_send (Option.some.inj h) hgrows
      ⟨hgrows, (pcOk_nextEntry hok.1.rest).mono hgrows⟩ trivial
  | crashed => cases h

end Grows

/-! ## What is acknowledged -/

/-- The entry that the next command acknowledges. -/
def Pc.acks : Pc → Option ℕ
  | .duplicateAck w _ => some w.id
  | .ack w _ => some w.id
  | .deadAck w => some w.id
  | _ => none

/-- The entry is in the stream, and if its event is valid, it has been processed or moved to the
dead-letter stream. -/
def Accounted (r : Redis) (id : ℕ) : Prop :=
  ∃ fields, r.stream[id]? = some fields ∧ ∀ event, fields = .quote event →
    Processed r event.eventId ∨ DeadLettered r id

/-- Each completed event has been published, and has been taken in unless its minute was beyond
retention. -/
def CompletedOk (r : Redis) : Prop :=
  ∀ c ∈ r.completed, c.event ∈ r.fanout ∧
    (c.late = false → c.event ∈ (r.hot c.event.symbol).committed)

section Acked

variable {cfg : Settings} {clock : Timestamp} {r r' : Redis} {pc pc' : Pc} {outcome : Outcome}
  {claimed : List ℕ} {id : ℕ}

/-- The change of `acked` in a step of a processor at `pc`. -/
def AcksOne (r : Redis) (outcome : Outcome) (pc : Pc) (r' : Redis) : Prop :=
  r'.acked = r.acked ∨ ∃ id, pc.acks = some id ∧ r' = r.ack id ∧ outcome ≠ .refused

/-- The command of a processor that acknowledges. -/
theorem acksOne_send {pc₁ failed : Pc} (hpc : pc.acks = some id)
    (h : send outcome r (r.ack id) (r.ack id, pc₁) failed = (r', pc')) :
    AcksOne r outcome pc r' := by
  cases outcome with
  | refused =>
    obtain ⟨rfl, rfl⟩ := Prod.mk.inj h
    exact Or.inl rfl
  | _ =>
    obtain ⟨rfl, rfl⟩ := Prod.mk.inj h
    exact Or.inr ⟨id, hpc, rfl, by decide⟩

/-- Any other command. -/
theorem acksOne_of_eq {reply : Redis × Pc} {failed : Pc} {effect : Redis}
    (h : send outcome r effect reply failed = (r', pc')) (heffect : effect.acked = r.acked)
    (hreply : reply.1.acked = r.acked) : AcksOne r outcome pc r' :=
  send_elim (fun r' _ => AcksOne r outcome pc r') h (Or.inl hreply) (Or.inl rfl) (Or.inl heffect)

/-- A step acknowledges one entry, or none. -/
theorem procStep_acksOne (h : procStep cfg clock r outcome claimed pc = some (r', pc')) :
    AcksOne r outcome pc r' := by
  cases pc with
  | claiming =>
    rw [procStep] at h
    split_ifs at h
    exact acksOne_of_eq (Option.some.inj h) rfl rfl
  | accept w event =>
    have hacked : (r.setDedupe cfg clock event.eventId).acked = r.acked := by
      unfold Redis.setDedupe
      split_ifs <;> rfl
    rw [procStep] at h
    split_ifs at h
    · obtain ⟨rfl, rfl⟩ := Prod.mk.inj (Option.some.inj h)
      exact Or.inl rfl
    · exact acksOne_of_eq (Option.some.inj h) hacked hacked
    · exact acksOne_of_eq (Option.some.inj h) hacked hacked
  | duplicateAck w event => exact acksOne_send rfl (Option.some.inj h)
  | cache w event cpc =>
    obtain ⟨⟨keys', cpc'⟩, -, hsend⟩ := Option.map_eq_some_iff.1 h
    exact send_elim (fun r' _ => AcksOne r outcome (.cache w event cpc) r') hsend (Or.inl rfl)
      (Or.inl rfl) (Or.inl rfl)
  | ack w event => exact acksOne_send rfl (Option.some.inj h)
  | deadAck w => exact acksOne_send rfl (Option.some.inj h)
  | crashed => cases h
  | _ => exact acksOne_of_eq (Option.some.inj h) rfl rfl

/-- What is recorded as completed is so. -/
theorem procStep_completedOk (hcompleted : CompletedOk r) (hok : PcOk r pc)
    (h : procStep cfg clock r outcome claimed pc = some (r', pc')) : CompletedOk r' := by
  have hgrows := (procStep_grows hok h).1
  have hold : ∀ c ∈ r.completed, c.event ∈ r'.fanout ∧
      (c.late = false → c.event ∈ (r'.hot c.event.symbol).committed) := fun c hc =>
    ⟨hgrows.fanout (hcompleted c hc).1, fun hlate =>
      hgrows.committed _ ((hcompleted c hc).2 hlate)⟩
  have hsame : r'.completed = r.completed → CompletedOk r' := fun heq c hc => hold c (heq ▸ hc)
  cases pc with
  | claiming =>
    rw [procStep] at h
    split_ifs at h
    exact hsame (send_elim (fun r' _ => r'.completed = r.completed) (Option.some.inj h) rfl rfl rfl)
  | accept w event =>
    have hcomp : (r.setDedupe cfg clock event.eventId).completed = r.completed := by
      unfold Redis.setDedupe
      split_ifs <;> rfl
    rw [procStep] at h
    split_ifs at h
    · obtain ⟨rfl, rfl⟩ := Prod.mk.inj (Option.some.inj h)
      exact hcompleted
    · exact hsame (send_elim (fun r' _ => r'.completed = r.completed) (Option.some.inj h) hcomp rfl
        hcomp)
    · exact hsame (send_elim (fun r' _ => r'.completed = r.completed) (Option.some.inj h) hcomp rfl
        hcomp)
  | cache w event cpc =>
    obtain ⟨⟨keys', cpc'⟩, -, hsend⟩ := Option.map_eq_some_iff.1 h
    exact hsame (send_elim (fun r' _ => r'.completed = r.completed) hsend rfl rfl rfl)
  | publish w event late =>
    cases outcome <;> obtain ⟨rfl, rfl⟩ := Prod.mk.inj (Option.some.inj h)
    · -- The completion is recorded.
      intro c hc
      rcases List.mem_cons.1 hc with rfl | hc
      · exact ⟨List.mem_cons_self, hok.2⟩
      · exact hold c hc
    · exact hcompleted
    · exact hsame rfl
  | crashed => cases h
  | _ =>
    exact hsame (send_elim (fun r' _ => r'.completed = r.completed) (Option.some.inj h) rfl rfl rfl)

/-- What is accounted for stays accounted for. -/
theorem Accounted.mono (h : Accounted r id) (hr : Grows r r') : Accounted r' id := by
  obtain ⟨fields, hfields, hall⟩ := h
  refine ⟨fields, hr.stream _ _ hfields, fun event hevent => ?_⟩
  exact (hall event hevent).imp (fun h => h.mono hr) fun h => h.mono hr

/-- What a step acknowledges is accounted for, if it acknowledges no duplicate of an event that has
not been completed. -/
theorem procStep_accounted (hacked : ∀ id ∈ r.acked, Accounted r id) (hcompleted : CompletedOk r)
    (hok : PcOk r pc)
    (hduplicate : ∀ w event, pc = .duplicateAck w event → outcome = .refused ∨
      (∃ c ∈ r.completed, c.event.eventId = event.eventId) ∨ DeadLettered r w.id)
    (h : procStep cfg clock r outcome claimed pc = some (r', pc')) :
    ∀ id ∈ r'.acked, Accounted r' id := by
  have hgrows := (procStep_grows hok h).1
  have hold : ∀ id ∈ r.acked, Accounted r' id := fun id hid => (hacked id hid).mono hgrows
  rcases procStep_acksOne h with heq | ⟨id, hpc, rfl, hsent⟩
  · rw [heq]
    exact hold
  · have hnew : Accounted r id := by
      cases pc with
      | duplicateAck w event =>
        -- By the condition, the event has been completed, or its entry is a dead letter.
        obtain rfl : w.id = id := Option.some.inj hpc
        refine ⟨_, hok.1.self, fun event' hevent => ?_⟩
        rw [hok.2] at hevent
        obtain rfl : event = event' := Fields.quote.inj hevent
        rcases hduplicate w event rfl with hrefused | ⟨c, hc, hid⟩ | hdead
        · exact absurd hrefused hsent
        · exact Or.inl ⟨c, hc, hid, hcompleted c hc⟩
        · exact Or.inr hdead
      | ack w event =>
        obtain rfl : w.id = id := Option.some.inj hpc
        refine ⟨_, hok.1.1.self, fun event' hevent => ?_⟩
        rw [hok.1.2] at hevent
        obtain rfl : event = event' := Fields.quote.inj hevent
        exact Or.inl hok.2
      | deadAck w =>
        obtain rfl : w.id = id := Option.some.inj hpc
        exact ⟨_, hok.1.self, fun event' _ => Or.inr hok.2⟩
      | _ => cases hpc
    intro id' hid'
    rcases List.mem_cons.1 hid' with rfl | hid'
    · exact hnew.mono hgrows
    · exact hold id' hid'

end Acked

/-! ## Runs -/

/-- What holds of the processors, and of what is recorded as completed, in every run. -/
structure ProcsOk (st : State) : Prop where
  procs : ∀ pc ∈ st.procs, PcOk st.redis pc
  completed : CompletedOk st.redis

section Runs

variable {cfg : Settings} {st st' : State} {a : Label}

/-- Entries that join the stream undo nothing. -/
theorem grows_publishQuote (r : Redis) (fields : Fields) : Grows r (r.publishQuote fields) := by
  refine ⟨fun id f h => ?_, List.Subset.refl _, List.Subset.refl _, fun _ => List.Subset.refl _,
    List.Subset.refl _⟩
  obtain ⟨hlt, -⟩ := List.getElem?_eq_some_iff.1 h
  change (r.stream ++ [fields])[id]? = some f
  rw [List.getElem?_append_left hlt]
  exact h

/-- Neither does time. -/
theorem grows_expire (r : Redis) (clock : Timestamp) : Grows r (r.expire clock) :=
  ⟨fun _ _ h => h, List.Subset.refl _, List.Subset.refl _, fun _ => List.Subset.refl _,
    List.Subset.refl _⟩

/-- Every step keeps what holds of the processors, and what the state accounts for. -/
theorem procsOk_step (h : ProcsOk st) (hstep : step cfg st a = some st') :
    ProcsOk st' ∧ Grows st.redis st'.redis := by
  cases a with
  | publishQuote fields =>
    obtain rfl := Option.some.inj hstep
    have hgrows := grows_publishQuote st.redis fields
    exact ⟨⟨fun pc hpc => (h.procs pc hpc).mono hgrows, h.completed⟩, hgrows⟩
  | startProcessor =>
    obtain rfl := Option.some.inj hstep
    refine ⟨⟨fun pc hpc => ?_, h.completed⟩, .refl _⟩
    rcases List.mem_append.1 hpc with hpc | hpc
    · exact h.procs pc hpc
    · rw [List.mem_singleton.1 hpc]
      trivial
  -- Only a processor that runs can come to another place in the program.
  | run i outcome claimed =>
    obtain ⟨pc, r', pc', hi, hproc, rfl⟩ := step_run hstep
    have hok := h.procs pc (List.mem_of_getElem? hi)
    obtain ⟨hgrows, hok'⟩ := procStep_grows hok hproc
    exact ⟨⟨forall_mem_set (fun pc hpc => (h.procs pc hpc).mono hgrows) hok',
      procStep_completedOk h.completed hok hproc⟩, hgrows⟩
  | crash i =>
    obtain rfl := Option.some.inj hstep
    exact ⟨⟨forall_mem_set h.procs trivial, h.completed⟩, .refl _⟩
  | tick d =>
    obtain rfl := Option.some.inj hstep
    have hgrows := grows_expire st.redis (st.now + d)
    exact ⟨⟨fun pc hpc => (h.procs pc hpc).mono hgrows, h.completed⟩, hgrows⟩

/-- The processors are in order at the start. -/
theorem procsOk_init (t₀ : Timestamp) : ProcsOk (.init t₀) :=
  ⟨fun _ hpc => absurd hpc List.not_mem_nil, fun _ hc => absurd hc List.not_mem_nil⟩

/-- A step that acknowledges no uncompleted duplicate leaves every acknowledged entry accounted
for. -/
theorem accounted_step (h : ProcsOk st) (hacked : ∀ id ∈ st.redis.acked, Accounted st.redis id)
    (hok : DuplicatesCompleted st a) (hstep : step cfg st a = some st') :
    ∀ id ∈ st'.redis.acked, Accounted st'.redis id := by
  have hgrows := (procsOk_step h hstep).2
  have hold : ∀ id ∈ st.redis.acked, Accounted st'.redis id :=
    fun id hid => (hacked id hid).mono hgrows
  cases a with
  | run i outcome claimed =>
    obtain ⟨pc, r', pc', hi, hproc, rfl⟩ := step_run hstep
    refine procStep_accounted hacked h.completed (h.procs pc (List.mem_of_getElem? hi)) ?_ hproc
    rintro w event rfl
    simpa only [DuplicatesCompleted, hi] using hok
  | publishQuote fields =>
    obtain rfl := Option.some.inj hstep
    exact hold
  | startProcessor =>
    obtain rfl := Option.some.inj hstep
    exact hold
  | crash i =>
    obtain rfl := Option.some.inj hstep
    exact hold
  | tick d =>
    obtain rfl := Option.some.inj hstep
    exact hold

/-- A step that acknowledges an uncompleted duplicate loses its quote. -/
theorem not_noSilentLoss_step (h : ProcsOk st) (hstep : step cfg st a = some st')
    (hbad : ¬ DuplicatesCompleted st a) : ¬ NoSilentLoss st' := by
  cases a with
  | run i outcome claimed =>
    obtain ⟨pc, r', pc', hi, hproc, rfl⟩ := step_run hstep
    simp only [DuplicatesCompleted, hi] at hbad
    cases pc with
    | duplicateAck w event =>
      push Not at hbad
      obtain ⟨hsent, hnone, hdead⟩ := hbad
      have hok := h.procs _ (List.mem_of_getElem? hi)
      -- The acknowledgement takes effect, and it is all that the step does.
      have hacked : r' = st.redis.ack w.id := by
        cases outcome with
        | refused => exact absurd rfl hsent
        | _ => exact (Prod.mk.inj (Option.some.inj hproc)).1.symm
      intro hall
      subst hacked
      have hstream : st.redis.stream[w.id]? = some (.quote event) := by
        rw [hok.1.self, hok.2]
      rcases hall w.id List.mem_cons_self event hstream with ⟨c, hc, hid, -⟩ | hletter
      · exact hnone c hc hid
      · exact hdead hletter
    | _ => exact absurd trivial hbad
  | _ => exact absurd trivial hbad

/-- No quote is lost in a run whose steps acknowledge no uncompleted duplicate, and each step that
does loses one. -/
theorem noSilentLoss_iff (cfg : Settings) (t₀ : Timestamp) :
    (∀ st, Path (step cfg) DuplicatesCompleted (.init t₀) st → NoSilentLoss st) ∧
    ∀ st a st', Path (step cfg) anyStep (.init t₀) st → step cfg st a = some st' →
      ¬ DuplicatesCompleted st a → ¬ NoSilentLoss st' := by
  constructor
  · intro st h
    have hinv : ProcsOk st ∧ ∀ id ∈ st.redis.acked, Accounted st.redis id := by
      refine h.invariant (fun st => ProcsOk st ∧ ∀ id ∈ st.redis.acked, Accounted st.redis id)
        ⟨procsOk_init t₀, fun _ hid => absurd hid List.not_mem_nil⟩ ?_
      rintro st a st' ⟨hprocs, hacked⟩ hok hstep
      exact ⟨(procsOk_step hprocs hstep).1, accounted_step hprocs hacked hok hstep⟩
    intro id hid event hevent
    obtain ⟨fields, hfields, hall⟩ := hinv.2 id hid
    rw [hevent] at hfields
    exact hall event (Option.some.inj hfields).symm
  · intro st a st' h hstep hbad
    have hprocs : ProcsOk st :=
      h.invariant ProcsOk (procsOk_init t₀) fun _ _ _ hinv _ hs => (procsOk_step hinv hs).1
    exact not_noSilentLoss_step hprocs hstep hbad

/-- An event is completed, and then joins the stream once more. -/
def completedDuplicateRun : List Label :=
  [.publishQuote (.quote (.sample 7 0 100)), .startProcessor, .next 0, .next 0, .next 0, .next 0,
    .next 0, .next 0, .next 0, .next 0, .publishQuote (.quote (.sample 7 0 100)), .next 0, .next 0,
    .next 0]

/-- A duplicate of a completed event is acknowledged without a loss. -/
theorem noSilentLoss_completedDuplicateRun :
    ∃ st, st.redis.acked = [1, 0] ∧ NoSilentLoss st := by
  obtain ⟨st, hpath, hacked⟩ := Path.exists_of_exec (step {}) DuplicatesCompleted (.init 0)
    completedDuplicateRun (fun st => st.redis.acked = [1, 0]) (by decide)
  exact ⟨st, hacked, (noSilentLoss_iff {} 0).1 st hpath⟩

/-- A quote. -/
def lostQuote : QuoteEvent := .sample 7 0 100

/-- A processor has set the dedupe key when `cache_quote` raises. A minute later it claims the entry
again, finds the key, and acknowledges the entry. -/
def failedCacheRun : List Label :=
  [.publishQuote (.quote lostQuote), .startProcessor, .next 0, .next 0, .next 0,
    .run 0 .refused [], .next 0, .tick 60000000, .next 0, .run 0 .ok [0], .next 0, .next 0, .next 0]

/-- Entries are lost silently in some run. -/
theorem not_noSilentLoss :
    ¬ ∀ st, Path (step {}) anyStep (.init 0) st → NoSilentLoss st := by
  obtain ⟨st, hpath, hstream, hacked, hcompleted, hletters⟩ := Path.exists_of_exec (step {}) anyStep
    (.init 0) failedCacheRun
    (fun st => st.redis.stream[0]? = some (.quote lostQuote) ∧ 0 ∈ st.redis.acked ∧
      (∀ c ∈ st.redis.completed, c.event.eventId ≠ lostQuote.eventId) ∧
      ¬ DeadLettered st.redis 0) (by decide)
  intro hall
  rcases hall st hpath 0 hacked _ hstream with ⟨c, hc, hid, -⟩ | hletter
  · exact hcompleted c hc hid
  · exact hletters hletter

end Runs

end MarketDataGateway.Pipeline
