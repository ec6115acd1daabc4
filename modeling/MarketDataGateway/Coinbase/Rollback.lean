import MarketDataGateway.Coinbase.Batches
import MarketDataGateway.Coinbase.Tickers

/-!
# What a rejected message leaves

`apply` changes the maps of the projector while it goes through a message, and does not take the
changes back when it raises. So a call leaves the projector as it was exactly if the tickers before
the fault are those that it has, and no batch of trades was summed (`apply_untouched_iff`): the
sequence of the least symbol goes up before its event is validated, and before any batch after it is
looked at.
-/

namespace MarketDataGateway.Coinbase

open Lib Models

/-- The trades of the least symbol of a message are read, and their sums do not overflow. -/
def FirstBatchSums (py : Python) (payload : Mapping) : Prop :=
  ∃ messageTimestamp rows group rest trades totals,
    timestamp py (get payload "timestamp") "timestamp" = .ok messageTimestamp ∧
    messageTrades py payload = .ok rows ∧ tradesBySymbol rows = group :: rest ∧
    List.Forall₂ (IsTrade py) (group.2.map Prod.snd) trades ∧ Sums messageTimestamp trades totals

/-- Nothing of the message is new to the projector before its first fault. -/
def Untouched (py : Python) (p : Projector) (payload : Mapping) : Prop :=
  (py.str (getOrEmpty payload "channel") = .ok (text "ticker") →
    ∀ symbol ticker, IsLastOf (tickersBeforeFault py payload) symbol ticker →
      p.tickerBySymbol symbol = some ticker) ∧
  (py.str (getOrEmpty payload "channel") = .ok (text "market_trades") → ¬ FirstBatchSums py payload)

section Rollback

variable {py : Python} {messageTimestamp : AwareDatetime} {receivedAt : Datetime} {p : Projector}
  {payload : Mapping} {symbol : PyStr} {objects : List Mapping}

/-- Building an event counts its symbol exactly if the trades are summed. -/
theorem buildQuoteEvent_snd (hne : objects ≠ []) :
    (p.buildQuoteEvent py messageTimestamp receivedAt symbol objects).2 =
      if (sumTrades py messageTimestamp objects).isOk then p.count symbol else p := by
  unfold Projector.buildQuoteEvent
  cases hsum : sumTrades py messageTimestamp objects with
  | error f => rfl
  | ok totals =>
    obtain ⟨trades, hread, hsums⟩ := sumTrades_eq_ok.1 hsum
    cases hprice : totals.latestPrice with
    | some price =>
      dsimp only
      rw [hprice]
      rfl
    | none =>
      -- There is a last trade.
      rw [hsums.latestPrice, Option.map_eq_none_iff, List.getLast?_eq_none_iff] at hprice
      rw [hprice, List.forall₂_nil_right_iff] at hread
      exact absurd hread hne

/-- No step of the loop over the symbols takes a sequence back. -/
theorem le_runAll_sequence {groups : List (PyStr × List (PyStr × Mapping))}
    (hne : ∀ group ∈ groups, group.2.map Prod.snd ≠ []) {n : ℕ}
    (h : n ≤ p.sequenceBySymbol symbol) :
    n ≤ (runAll (fun p group => p.buildQuoteEvent py messageTimestamp receivedAt group.1
      (group.2.map Prod.snd)) p groups).2.sequenceBySymbol symbol := by
  refine runAll_invariant (p := fun q : Projector => n ≤ q.sequenceBySymbol symbol)
    (fun q hq group hgroup => ?_) h
  rw [buildQuoteEvent_snd (hne group hgroup)]
  split_ifs
  · rw [count_sequenceBySymbol]
    omega
  · exact hq

/-- Projecting trades leaves the projector as it was exactly if the first batch is not summed. -/
theorem projectTrades_snd : (p.projectTrades py receivedAt payload).2 = p ↔
    ¬ FirstBatchSums py payload := by
  unfold Projector.projectTrades FirstBatchSums
  cases htimestamp : timestamp py (get payload "timestamp") "timestamp" with
  -- The first batch is the first to touch the projector, and it has no sums.
  | error f => simp
  | ok messageTimestamp =>
    cases hrows : messageTrades py payload with
    | error f => simp
    | ok rows =>
      have hnonempty : ∀ group ∈ tradesBySymbol rows, group.2.map Prod.snd ≠ [] := by
        intro group hgroup
        exact mt List.map_eq_nil_iff.1 (mem_tradesBySymbol.1 hgroup).2
      dsimp only
      cases hgroups : tradesBySymbol rows with
      | nil => simp [hgroups]
      | cons group rest =>
        rw [hgroups] at hnonempty
        have hobjects := hnonempty group List.mem_cons_self
        cases hsum : sumTrades py messageTimestamp (group.2.map Prod.snd) with
        | error f =>
          have hstep : p.buildQuoteEvent py messageTimestamp receivedAt group.1
            (group.2.map Prod.snd) =
              (.error f, p) := by rw [Projector.buildQuoteEvent, hsum]
          rw [runAll_cons_error hstep]
          refine iff_of_true rfl ?_
          rintro ⟨_, _, _, _, trades, totals, ht, hr, hg, hread, hsums⟩
          obtain rfl := Except.ok.inj ht
          obtain rfl := Except.ok.inj hr
          obtain ⟨rfl, -⟩ := List.cons.inj (hgroups.symm.trans hg)
          cases hsum.symm.trans (sumTrades_eq_ok.2 ⟨trades, hread, hsums⟩)
        | ok totals =>
          obtain ⟨trades, hread, hsums⟩ := sumTrades_eq_ok.1 hsum
          refine iff_of_false (fun heq => ?_) (not_not.2
            ⟨_, _, _, _, trades, totals, rfl, rfl, hgroups, hread, hsums⟩)
          -- The sequence of the first symbol has gone up.
          have hcount : (p.buildQuoteEvent py messageTimestamp receivedAt group.1
              (group.2.map Prod.snd)).2 = p.count group.1 := by
            rw [buildQuoteEvent_snd hobjects, hsum]
            rfl
          have hsequence : p.sequenceBySymbol group.1 + 1 ≤
              (p.count group.1).sequenceBySymbol group.1 := by
            rw [count_sequenceBySymbol, if_pos rfl]
          -- No later batch takes that back.
          have hle : p.sequenceBySymbol group.1 + 1 ≤ (runAll (fun p group =>
              p.buildQuoteEvent py messageTimestamp receivedAt group.1 (group.2.map Prod.snd)) p
                (group :: rest)).2.sequenceBySymbol group.1 := by
            cases hstep : p.buildQuoteEvent py messageTimestamp receivedAt group.1
                (group.2.map Prod.snd) with
            | mk result q =>
              rw [hstep] at hcount
              obtain rfl : q = p.count group.1 := hcount
              cases result with
              | error f =>
                rw [runAll_cons_error hstep]
                exact hsequence
              | ok e =>
                rw [runAll_cons_ok hstep]
                exact le_runAll_sequence (fun g hg =>
                  hnonempty g (List.mem_cons_of_mem _ hg)) hsequence
          rw [heq] at hle
          omega

/-- A call leaves the projector as it was exactly if nothing of the message is new to it before the
first fault. -/
theorem apply_snd (p : Projector) (receivedAt : Datetime) (payload : Mapping) :
    (p.apply py receivedAt payload).2 = p ↔ Untouched py p payload := by
  have hne : text "ticker" ≠ text "market_trades" := by decide
  unfold Untouched
  cases hchannel : py.str (getOrEmpty payload "channel") with
  | error f =>
    rw [Projector.apply, hchannel]
    simp
  | ok channel =>
    by_cases hticker : channel = text "ticker"
    · rw [hticker] at hchannel
      rw [apply_ticker hchannel, setTickers_eq_self_iff, hticker]
      simp [hne]
    · by_cases htrades : channel = text "market_trades"
      · rw [htrades] at hchannel
        rw [apply_market_trades hchannel, projectTrades_snd, htrades]
        simp [hne.symm]
      · rw [Projector.apply, hchannel]
        simp [hticker, htrades]

/-- A message that is rejected leaves the projector as it was exactly if nothing of it is new before
its first fault. -/
theorem apply_untouched_iff {f : Fault} {p' : Projector}
    (h : p.apply py receivedAt payload = (.error f, p')) : p' = p ↔ Untouched py p payload := by
  have hstate : (p.apply py receivedAt payload).2 = p' := congrArg Prod.snd h
  rw [← hstate]
  exact apply_snd p receivedAt payload

end Rollback

/-- A ticker message whose second price is no number. -/
def halfTicker : Mapping :=
  sampleMessage "ticker" "tickers" [sampleTicker "BTC-USD" "100" "99" "101" "1" "2",
    sampleTicker "ETH-USD" "abc" "" "" "" ""]

/-- A message with a trade at an infinite price. -/
def infinitePrice : Mapping :=
  sampleMessage "market_trades" "trades"
    [sampleTrade "1" "SELL" "1.5" "Infinity" "2024-01-01T00:00:00Z"]

/-- A message whose second price is no number is refused. -/
theorem apply_untouched_halfTicker : ∃ f p',
    Projector.new.apply samplePython ⟨0, some 0⟩ halfTicker = (.error f, p') ∧
      (p' = .new ↔ Untouched samplePython .new halfTicker) := by
  obtain ⟨f, h⟩ := exists_of_not_isOk
    (show (Projector.new.apply samplePython ⟨0, some 0⟩ halfTicker).1.isOk =
    false by decide +kernel)
  exact ⟨f, _, h, apply_untouched_iff h⟩

/-- The first ticker stays when the second one is refused, and a sequence when its event is. -/
theorem not_untouched :
    (∃ f p', Projector.new.apply samplePython ⟨0, some 0⟩ halfTicker = (.error f, p') ∧
      p'.tickerBySymbol ≠ Projector.new.tickerBySymbol) ∧
    ∃ f p', Projector.new.apply samplePython ⟨0, some 0⟩ infinitePrice = (.error f, p') ∧
      p'.sequenceBySymbol ≠ Projector.new.sequenceBySymbol := by
  obtain ⟨f, h⟩ := exists_of_not_isOk
    (show (Projector.new.apply samplePython ⟨0, some 0⟩ halfTicker).1.isOk =
    false by decide +kernel)
  obtain ⟨g, h'⟩ := exists_of_not_isOk
    (show (Projector.new.apply samplePython ⟨0, some 0⟩ infinitePrice).1.isOk =
    false by decide +kernel)
  refine ⟨⟨f, _, h, fun heq => ?_⟩, g, _, h', fun heq => ?_⟩
  · have hticker : ((Projector.new.apply samplePython ⟨0, some 0⟩ halfTicker).2.tickerBySymbol
        (text "BTC-USD")).isSome = true := by decide +kernel
    rw [heq] at hticker
    cases hticker
  · have hsequence : (Projector.new.apply samplePython ⟨0, some 0⟩ infinitePrice).2.sequenceBySymbol
        (text "BTC-USD") = 1 := by decide +kernel
    rw [heq] at hsequence
    cases hsequence

end MarketDataGateway.Coinbase
