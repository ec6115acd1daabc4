import MarketDataGateway.Pipeline.Once

/-!
# The latest quote

`cache_quote` sets the latest quote of a symbol in both of its branches, and compares it with
nothing: neither with the quote that is there nor with what `observe_sequence` has returned for the
event. So the latest quote is the one whose `SET` or `EXEC` came last, and it goes back whenever an
older quote is written after a newer one (`latest_regresses`).

`Redis.writes` is the quote that a processor is about to write. Nothing else changes the key. An
execution that gets past `accept_event_once` will write its event unless it fails. So the key goes
back in two ways: the event was older than what had been written when its execution got past, or a
newer event is written while the execution is under way. In the runs of which neither is so
(`InOrder`) no event in hand is older than the key (`NoneOlder`), and the key never goes back
(`latestLE_of_inOrder`).
-/

namespace MarketDataGateway.Pipeline

open Lib Hot

/-- The quote of `get_latest`. -/
def Redis.getLatest (r : Redis) (symbol : Symbol) : Option QuoteEvent := (r.hot symbol).latest

/-- The second quote carries a sequence no lower than that of the first, if that carries one. -/
def SequenceLE (q q' : QuoteEvent) : Prop := ∀ m ∈ q.sequence, ∃ n ∈ q'.sequence, m ≤ n

instance (q q' : QuoteEvent) : Decidable (SequenceLE q q') :=
  decidable_of_iff (q.sequence.all fun m => q'.sequence.any fun n => m ≤ n) <| by
    simp only [SequenceLE, Option.all_eq_true, Option.any_eq_true, decide_eq_true_eq,
      Option.mem_def]

/-- The sequence of the latest quote has not decreased. -/
def LatestLE (symbol : Symbol) (r r' : Redis) : Prop :=
  ∀ q ∈ r.getLatest symbol, ∃ q' ∈ r'.getLatest symbol, SequenceLE q q'

/-- The quote that the next command of a processor sets as the latest one of its symbol: `SET` for a
minute beyond retention, and `EXEC` if the candle's key has not been modified. -/
def Redis.writes (r : Redis) : Pc → Option QuoteEvent
  | .cache _ event .setLatest => some event
  | .cache _ event (.exec _ _ version _) =>
    if (r.hot event.symbol).candles.version (minuteOf event) = version then some event else none
  | _ => none

/-- A command that takes effect sets no quote as the latest one of the symbol that is older than the
one that is there. -/
def NoOlderWrite (symbol : Symbol) (st : State) : Label → Prop
  | .run i outcome _ => outcome ≠ .refused →
      ∀ pc ∈ st.procs[i]?, ∀ event ∈ st.redis.writes pc, event.symbol = symbol →
        ∀ q ∈ st.redis.getLatest symbol, SequenceLE q event
  | _ => True

/-- The event that an execution has in hand: it is past `accept_event_once`, and has not written
it. -/
def Pc.inHand : Pc → Option QuoteEvent
  | .sequenceGet _ event _ => some event
  | .sequenceSet _ event _ _ => some event
  | .health _ event _ => some event
  | .cache _ event _ => some event
  | _ => none

/-- The event with which the next command of a processor gets past `accept_event_once`. -/
def Redis.accepting (r : Redis) : Pc → Option QuoteEvent
  | .accept _ event => if (r.dedupe event.eventId).isNone then some event else none
  | _ => none

/-- A processor gets past `accept_event_once` only with an event that is not older than the one that
has been written last for the symbol, and writes an event only while no other processor has an older
one of the symbol in hand. -/
def InOrder (symbol : Symbol) (st : State) : Label → Prop
  | .run i outcome _ => ∀ pc ∈ st.procs[i]?,
      (outcome = .ok → ∀ event ∈ st.redis.accepting pc, event.symbol = symbol →
        ∀ q ∈ st.redis.getLatest symbol, SequenceLE q event) ∧
      (outcome ≠ .refused → ∀ event ∈ st.redis.writes pc, event.symbol = symbol →
        ∀ other ∈ st.procs.eraseIdx i, ∀ late ∈ other.inHand, late.symbol = symbol →
          SequenceLE event late)
  | _ => True

instance (symbol : Symbol) (st : State) : (a : Label) → Decidable (InOrder symbol st a)
  | .run _ _ _ => inferInstanceAs (Decidable (∀ _ ∈ _, _))
  | .publishQuote _ | .startProcessor | .crash _ | .tick _ => inferInstanceAs (Decidable True)

/-- The events of the symbol that join the stream are of the provider, and carry a sequence. -/
def Sequenced (provider : String) (symbol : Symbol) (_ : State) : Label → Prop
  | .publishQuote (.quote event) => event.symbol = symbol →
      event.provider = provider ∧ event.sequence.isSome
  | _ => True

instance (provider : String) (symbol : Symbol) (st : State) (a : Label) :
    Decidable (Sequenced provider symbol st a) :=
  match a with
  | .publishQuote (.quote _) => inferInstanceAs (Decidable (_ → _))
  | .publishQuote .missing | .publishQuote (.malformed _) => inferInstanceAs (Decidable True)
  | .startProcessor | .run _ _ _ | .crash _ | .tick _ => inferInstanceAs (Decidable True)

section Latest

variable {cfg : Settings} {clock : Timestamp} {r r' r'' : Redis} {pc pc' : Pc} {outcome : Outcome}
  {claimed : List ℕ} {symbol : Symbol} {event q q' q'' : QuoteEvent}

/-- A quote is not newer than itself. -/
theorem SequenceLE.refl (q : QuoteEvent) : SequenceLE q q := fun m hm => ⟨m, hm, le_refl m⟩

/-- A quote is not newer than one that is not newer than a third. -/
theorem SequenceLE.trans (h : SequenceLE q q') (h' : SequenceLE q' q'') : SequenceLE q q'' := by
  intro l hl
  obtain ⟨m, hm, hlm⟩ := h l hl
  obtain ⟨n, hn, hmn⟩ := h' m hm
  exact ⟨n, hn, hlm.trans hmn⟩

/-- The latest quote stays if it is the same. -/
theorem LatestLE.of_eq (h : r'.getLatest symbol = r.getLatest symbol) : LatestLE symbol r r' :=
  fun q hq => ⟨q, h ▸ hq, .refl q⟩

/-- The latest quote is no older after two steps than before them. -/
theorem LatestLE.trans (h : LatestLE symbol r r') (h' : LatestLE symbol r' r'') :
    LatestLE symbol r r'' := by
  intro q hq
  obtain ⟨q', hq', hle⟩ := h q hq
  obtain ⟨q'', hq'', hle'⟩ := h' q' hq'
  exact ⟨q'', hq'', hle.trans hle'⟩

/-- The latest quote of a symbol after a command of `cache_quote`. -/
theorem getLatest_putHot (r : Redis) (event : QuoteEvent) (keys : HotKeys) (effective : Bool)
    (symbol : Symbol) : (r.putHot event keys effective).getLatest symbol =
      if symbol = event.symbol then keys.latest else r.getLatest symbol := by
  change (Function.update r.hot event.symbol keys symbol).latest = _
  rw [Function.update_apply]
  split_ifs <;> rfl

/-- A call of `cache_quote` that sets its event as the latest quote is at its `SET` or its
`EXEC`. -/
theorem exists_of_writes (cfg : Settings) (clock : Timestamp) (h : r.writes pc = some event) :
    ∃ w cpc, pc = .cache w event cpc ∧ isCommand cpc = true ∧
      ∀ keys' cpc', cacheStep cfg clock (r.hot event.symbol) event cpc = some (keys', cpc') →
        keys'.latest = some event := by
  unfold Redis.writes at h
  split at h
  · next w event' =>
    obtain rfl := Option.some.inj h
    refine ⟨w, .setLatest, rfl, rfl, fun keys' cpc' hstep => ?_⟩
    obtain ⟨rfl, -⟩ := Prod.mk.inj (Option.some.inj hstep)
    rfl
  · next w event' now left version value =>
    split_ifs at h with hver
    obtain rfl := Option.some.inj h
    refine ⟨w, .exec now left version value, rfl, rfl, fun keys' cpc' hstep => ?_⟩
    rw [cacheStep, if_pos hver] at hstep
    obtain ⟨rfl, -⟩ := Prod.mk.inj (Option.some.inj hstep)
    rfl
  · cases h

/-- A step of a call of `cache_quote` that sets nothing leaves the latest quote. -/
theorem cacheStep_latest_eq {w : Work} {cpc cpc' : CachePc} {keys' : HotKeys}
    (hw : r.writes (.cache w event cpc) = none)
    (h : cacheStep cfg clock (r.hot event.symbol) event cpc = some (keys', cpc')) :
    keys'.latest = r.getLatest event.symbol := by
  rcases cacheStep_effect h with ⟨rfl, -⟩ | ⟨rfl, -, -⟩ | ⟨now, left, value, rfl, -, -⟩
  · rfl
  · cases hw
  · exact absurd (if_pos rfl) (hw ▸ Option.some_ne_none event).symm

/-- A step whose command sets nothing leaves the latest quotes. -/
theorem getLatest_eq_of_not_writes (hw : r.writes pc = none)
    (h : procStep cfg clock r outcome claimed pc = some (r', pc')) :
    r'.getLatest symbol = r.getLatest symbol := by
  have hkeeps : ∀ {r₀ r₁ : Redis}, r₁.hot = r₀.hot → r₁.getLatest symbol = r₀.getLatest symbol :=
    fun hhot => by rw [Redis.getLatest, hhot, Redis.getLatest]
  cases procStep_effect h with
  | keeps hk _ => exact hkeeps hk.hot
  | observes _ hk _ _ => exact hkeeps hk.hot
  | marks _ _ _ => exact hkeeps (setDedupe_keeps r cfg clock _).2.2.1
  | accepts _ _ _ _ => exact hkeeps (setDedupe_keeps r cfg clock _).2.2.1
  | publishes _ _ _ hk _ => exact hkeeps hk.hot
  | caches w event cpc cpc' keys' hcache _ =>
    rw [getLatest_putHot, cacheStep_latest_eq hw hcache]
    split_ifs with hsym
    · rw [hsym]
    · rfl

/-- A step whose command sets a quote sets it as the latest one, unless the command is refused. -/
theorem getLatest_of_writes (hw : r.writes pc = some event)
    (h : procStep cfg clock r outcome claimed pc = some (r', pc')) :
    if outcome = .refused then r' = r
    else ∀ symbol, r'.getLatest symbol =
      if symbol = event.symbol then some event else r.getLatest symbol := by
  obtain ⟨w, cpc, rfl, hcommand, hlatest⟩ := exists_of_writes cfg clock hw
  obtain ⟨⟨keys', cpc'⟩, hcache, hsend⟩ := Option.map_eq_some_iff.1 h
  dsimp only at hsend
  rw [if_pos hcommand] at hsend
  have hput : ∀ symbol, (r.putHot event keys' cpc'.isReturned).getLatest symbol =
      if symbol = event.symbol then some event else r.getLatest symbol := by
    intro symbol
    rw [getLatest_putHot, hlatest keys' cpc' hcache]
  cases outcome with
  | ok =>
    obtain ⟨rfl, -⟩ := Prod.mk.inj hsend
    exact hput
  | refused => exact (Prod.mk.inj hsend).1.symm
  | lost =>
    obtain ⟨rfl, -⟩ := Prod.mk.inj hsend
    exact hput

end Latest

/-! ## Runs -/

section Runs

variable {cfg : Settings} {st st' : State} {a : Label} {symbol : Symbol}

/-- A step that sets no older quote does not let the latest quote go back. -/
theorem latestLE_step (hok : NoOlderWrite symbol st a) (hstep : step cfg st a = some st') :
    LatestLE symbol st.redis st'.redis := by
  cases a with
  | run i outcome claimed =>
    obtain ⟨pc, r', pc', hi, hproc, rfl⟩ := step_run hstep
    cases hw : st.redis.writes pc with
    | none => exact .of_eq (getLatest_eq_of_not_writes hw hproc)
    | some event =>
      have hset := getLatest_of_writes hw hproc
      split_ifs at hset with hout
      · subst hset
        exact .of_eq rfl
      · by_cases hsym : symbol = event.symbol
        · intro q hq
          refine ⟨event, ?_, hok hout pc hi event hw hsym.symm q hq⟩
          exact (hset symbol).trans (if_pos hsym)
        · exact .of_eq ((hset symbol).trans (if_neg hsym))
  | publishQuote fields =>
    obtain rfl := Option.some.inj hstep
    exact .of_eq rfl
  | startProcessor =>
    obtain rfl := Option.some.inj hstep
    exact .of_eq rfl
  | crash i =>
    obtain rfl := Option.some.inj hstep
    exact .of_eq rfl
  | tick d =>
    -- The key of the latest quote has no time to live.
    obtain rfl := Option.some.inj hstep
    exact .of_eq rfl

/-- No event of the symbol that a processor has in hand is older than the latest quote. -/
def NoneOlder (symbol : Symbol) (st : State) : Prop :=
  ∀ pc ∈ st.procs, ∀ event ∈ pc.inHand, event.symbol = symbol →
    ∀ q ∈ st.redis.getLatest symbol, SequenceLE q event

/-- What a processor writes it has in hand. -/
theorem inHand_of_writes {r : Redis} {pc : Pc} {event : QuoteEvent} (h : r.writes pc = some event) :
    pc.inHand = some event := by
  obtain ⟨w, cpc, rfl, -, -⟩ := exists_of_writes {} 0 h
  rfl

/-- Where no event in hand is older than the latest quote, no older quote is written. -/
theorem NoneOlder.noOlderWrite (h : NoneOlder symbol st) : NoOlderWrite symbol st a := by
  cases a with
  | run i outcome claimed =>
    intro _ pc hi event hw hsymbol
    exact h pc (List.mem_of_getElem? hi) event (inHand_of_writes hw) hsymbol
  | publishQuote _ | startProcessor | crash _ | tick _ => trivial

/-- A step of `cache_quote` after which its event is still in hand has not written it. -/
theorem writes_of_inHand {clock : Timestamp} {r : Redis} {w : Work} {event event' : QuoteEvent}
    {cpc cpc' : CachePc} {keys' : HotKeys}
    (h : cacheStep cfg clock (r.hot event.symbol) event cpc = some (keys', cpc'))
    (hpc : (afterCache w event cpc').inHand = some event') :
    r.writes (.cache w event cpc) = none := by
  cases cpc with
  | setLatest =>
    obtain ⟨-, rfl⟩ := Prod.mk.inj (Option.some.inj h)
    cases hpc
  | exec now left version value =>
    refine if_neg fun hversion => ?_
    rw [cacheStep, if_pos hversion] at h
    obtain ⟨-, rfl⟩ := Prod.mk.inj (Option.some.inj h)
    cases hpc
  | start | watch _ _ | get _ _ _ | returned _ | raised _ => rfl

/-- Without a right no event is in hand. -/
theorem inHand_of_idle {pc : Pc} (h : pc.idle) : pc.inHand = none := by
  cases pc with
  | sequenceGet | sequenceSet | health | cache => exact h.elim
  | _ => rfl

/-- What an execution has the right to apply and has not begun to is in hand. -/
theorem inHand_of_observing {pc : Pc} {event : QuoteEvent} (h : pc.observing = some event) :
    pc.inHand = some event := by
  unfold Pc.observing at h
  split at h
  · exact h
  · exact h
  · exact h
  · exact h
  · exact nomatch h

/-- What a processor has in hand after a step it has just been accepted with, or it had it before
and has not written it. -/
theorem inHand_of_procStep {clock : Timestamp} {r r' : Redis} {outcome : Outcome} {claimed : List ℕ}
    {pc pc' : Pc} {event : QuoteEvent}
    (h : procStep cfg clock r outcome claimed pc = some (r', pc')) (hpc : pc'.inHand = some event) :
    r.writes pc = none ∧
      (outcome = .ok ∧ r.accepting pc = some event ∨ pc.inHand = some event) := by
  cases procStep_effect h with
  | keeps _ hidle => exact nomatch (inHand_of_idle hidle).symm.trans hpc
  | marks _ _ hidle => exact nomatch (inHand_of_idle hidle).symm.trans hpc
  | publishes _ _ _ _ hidle => exact nomatch (inHand_of_idle hidle).symm.trans hpc
  | observes event' _ hobserving hobserving' =>
    obtain rfl := Option.some.inj ((inHand_of_observing hobserving').symm.trans hpc)
    refine ⟨?_, Or.inr (inHand_of_observing hobserving)⟩
    unfold Pc.observing at hobserving
    split at hobserving
    · rfl
    · rfl
    · rfl
    · rfl
    · exact nomatch hobserving
  | accepts w event' hnew hobserving =>
    obtain rfl := Option.some.inj ((inHand_of_observing hobserving).symm.trans hpc)
    refine ⟨rfl, Or.inl ⟨?_, if_pos (Option.isNone_iff_eq_none.2 hnew)⟩⟩
    -- A reply that does not arrive leads to `_handle_failure`.
    by_contra hfailed
    unfold procStep at h
    dsimp only at h
    split_ifs at h
    · obtain ⟨-, rfl⟩ := Prod.mk.inj (Option.some.inj h)
      exact nomatch hobserving
    · cases outcome with
      | ok => exact hfailed rfl
      | refused =>
        obtain ⟨-, rfl⟩ := Prod.mk.inj (Option.some.inj h)
        exact nomatch hobserving
      | lost =>
        obtain ⟨-, rfl⟩ := Prod.mk.inj (Option.some.inj h)
        exact nomatch hobserving
    · next hsome => exact hsome (Option.isNone_iff_eq_none.2 hnew)
  | caches w event' cpc cpc' keys' hcache hafter =>
    rcases hafter with rfl | hidle
    · refine ⟨writes_of_inHand hcache hpc, Or.inr ?_⟩
      cases cpc' with
      | returned _ | raised _ => exact nomatch hpc
      | start | setLatest | watch _ _ | get _ _ _ | exec _ _ _ _ => exact hpc
    · exact nomatch (inHand_of_idle hidle).symm.trans hpc

/-- Steps in order leave no older event in hand. -/
theorem NoneOlder.step (h : NoneOlder symbol st) (hok : InOrder symbol st a)
    (hstep : step cfg st a = some st') : NoneOlder symbol st' := by
  cases a with
  | run i outcome claimed =>
    obtain ⟨pc, r', pc', hi, hproc, rfl⟩ := step_run hstep
    obtain ⟨haccepted, hwritten⟩ := hok pc hi
    intro other hother event hevent hsymbol q hq
    obtain ⟨j, hj⟩ := List.mem_iff_getElem?.1 hother
    by_cases hij : i = j
    · subst hij
      obtain rfl : pc' = other := by
        rw [List.getElem?_set_self (List.getElem?_eq_some_iff.1 hi).1] at hj
        exact Option.some.inj hj
      -- The processor itself has not written, so that the latest quote is the same.
      obtain ⟨hwrites, hcase⟩ := inHand_of_procStep hproc hevent
      rw [getLatest_eq_of_not_writes hwrites hproc] at hq
      rcases hcase with ⟨hout, haccepting⟩ | hinHand
      · exact haccepted hout event haccepting hsymbol q hq
      · exact h pc (List.mem_of_getElem? hi) event hinHand hsymbol q hq
    · rw [List.getElem?_set_ne hij] at hj
      have hkept (hlatest : r'.getLatest symbol = st.redis.getLatest symbol) : SequenceLE q event :=
        h other (List.mem_of_getElem? hj) event hevent hsymbol q (hlatest ▸ hq)
      cases hw : st.redis.writes pc with
      | none => exact hkept (getLatest_eq_of_not_writes hw hproc)
      | some written =>
        have hset := getLatest_of_writes hw hproc
        split_ifs at hset with hout
        · exact hkept (by rw [hset])
        · by_cases hsym : symbol = written.symbol
          · -- What is written is not newer than what the other processor has in hand.
            rw [show r'.getLatest symbol =
              some written from (hset symbol).trans (if_pos hsym)] at hq
            obtain rfl := Option.some.inj hq
            exact hwritten hout written hw hsym.symm other
              (List.mem_eraseIdx_iff_getElem?.2 ⟨j, Ne.symm hij, hj⟩) event hevent hsymbol
          · exact hkept ((hset symbol).trans (if_neg hsym))
  | publishQuote fields =>
    obtain rfl := Option.some.inj hstep
    exact h
  | startProcessor =>
    obtain rfl := Option.some.inj hstep
    intro pc hpc event hevent
    rcases List.mem_append.1 hpc with hpc | hpc
    · exact h pc hpc event hevent
    · rw [List.mem_singleton.1 hpc] at hevent
      exact nomatch hevent
  | crash i =>
    obtain rfl := Option.some.inj hstep
    intro pc hpc event hevent
    rcases List.mem_or_eq_of_mem_set hpc with hpc | rfl
    · exact h pc hpc event hevent
    · exact nomatch hevent
  | tick d =>
    obtain rfl := Option.some.inj hstep
    exact h

/-- In the runs in which no older quote is written, the latest quote does not go back. -/
theorem latestLE_of_noOlderWrite (h : Path (step cfg) (NoOlderWrite symbol) st st') :
    LatestLE symbol st.redis st'.redis := by
  refine h.invariant (fun st' => LatestLE symbol st.redis st'.redis) (.of_eq rfl) ?_
  intro st₁ a st₂ hle hok hstep
  exact hle.trans (latestLE_step hok hstep)

/-- In the runs in which the events of a symbol are accepted and written in order, its latest quote
does not go back. -/
theorem latestLE_of_inOrder (t₀ : Timestamp) (hst : Path (step cfg) (InOrder symbol) (.init t₀) st)
    (hst' : Path (step cfg) (InOrder symbol) st st') : LatestLE symbol st.redis st'.redis := by
  have hnone : NoneOlder symbol (.init t₀) := fun _ hpc => absurd hpc List.not_mem_nil
  have hinvariant : NoneOlder symbol st :=
    hst.invariant (NoneOlder symbol) hnone fun _ _ _ hinv hok hstep => hinv.step hok hstep
  obtain ⟨hwrites, -⟩ := hst'.of_invariant (NoneOlder symbol) hinvariant
    (fun _ _ _ hinv hok hstep => hinv.step hok hstep) fun _ _ hinv _ => hinv.noOlderWrite
  exact latestLE_of_noOlderWrite hwrites

/-- Two quotes of the same provider and symbol, the second one of which is older. -/
def newerQuote : QuoteEvent := { QuoteEvent.sample 1 1000000 100 with sequence := some 2 }

/-- The quote that comes late. -/
def olderQuote : QuoteEvent := { QuoteEvent.sample 2 0 99 with sequence := some 1 }

/-- A processor applies the first one of two entries. -/
def firstRun (first second : QuoteEvent) : List Label :=
  [.publishQuote (.quote first), .publishQuote (.quote second), .startProcessor, .next 0, .next 0,
    .next 0, .next 0, .next 0, .next 0, .next 0, .next 0]

/-- It goes on with the second one. -/
def secondRun : List Label :=
  [.next 0, .next 0, .next 0, .next 0, .next 0, .next 0, .next 0, .next 0, .next 0]

/-- A processor applies the older quote and then the newer one. -/
theorem latestLE_of_inOrder_sample : ∃ st st' : State,
    st.redis.getLatest "AAPL" = some olderQuote ∧ st'.redis.getLatest "AAPL" = some newerQuote ∧
      LatestLE "AAPL" st.redis st'.redis := by
  obtain ⟨st, hst, holder, hnewer⟩ := Path.exists_of_exec (step {}) (InOrder "AAPL") (.init 0)
    (firstRun olderQuote newerQuote)
    (fun st => st.redis.getLatest "AAPL" = some olderQuote ∧
      (exec (step {}) (InOrder "AAPL") st secondRun).any
        (fun st' => st'.redis.getLatest "AAPL" = some newerQuote) = true) (by decide)
  obtain ⟨st', hst', hlatest⟩ := Path.exists_of_exec (step {}) (InOrder "AAPL") st secondRun
    (fun st' => st'.redis.getLatest "AAPL" = some newerQuote) hnewer
  exact ⟨st, st', holder, hlatest, latestLE_of_inOrder 0 hst hst'⟩

/-- A processor has applied the newer quote. It goes on with the older one, which `observe_sequence`
reports as out of order. -/
theorem latest_regresses :
    ¬ ∀ st st', Path (step {}) (Sequenced "sample" "AAPL") (.init 0) st →
      Path (step {}) (Sequenced "sample" "AAPL") st st' → LatestLE "AAPL" st.redis st'.redis := by
  intro hall
  obtain ⟨st, hst, hnewer, holder⟩ := Path.exists_of_exec (step {}) (Sequenced "sample" "AAPL")
    (.init 0) (firstRun newerQuote olderQuote)
    (fun st => st.redis.getLatest "AAPL" = some newerQuote ∧
      (exec (step {}) (Sequenced "sample" "AAPL") st secondRun).any
        (fun st' => st'.redis.getLatest "AAPL" = some olderQuote) = true) (by decide)
  obtain ⟨st', hst', hlatest⟩ := Path.exists_of_exec (step {}) (Sequenced "sample" "AAPL") st
    secondRun (fun st' => st'.redis.getLatest "AAPL" = some olderQuote) holder
  obtain ⟨q, hq, hle⟩ := hall st st' hst hst' newerQuote hnewer
  obtain rfl := Option.some.inj (hq.symm.trans hlatest)
  exact absurd hle (by decide)

end Runs

end MarketDataGateway.Pipeline
