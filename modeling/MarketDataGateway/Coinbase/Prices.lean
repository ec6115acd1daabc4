import MarketDataGateway.Coinbase.Batches

/-!
# The price of an event

The loop over the trades of a symbol keeps the latest time, but the last price. So the price of an
event is that of the latest trade exactly if the last trade of the symbol has the price of the
latest one (`price_of_latest_iff`); it has if the trades are listed in the order of their times
(`endsAtLatest_of_sorted`).
-/

namespace MarketDataGateway.Coinbase

open Lib Models

/-- The trade has the latest time of all, and is the last one in the list that has. -/
def IsLatest (trades : List Trade) (t : Trade) : Prop :=
  ∃ before after time, trades = before ++ t :: after ∧ t.time = some time ∧
    (∀ x ∈ before, ∀ y ∈ x.time, y.1.instant ≤ time.1.instant) ∧
    ∀ x ∈ after, ∀ y ∈ x.time, y.1.instant < time.1.instant

/-- The prices are equal. -/
def SamePrice : Extended PositiveDecimal → Extended PositiveDecimal → Prop
  | .finite a, .finite b => a.1.value = b.1.value
  | .infinite, .infinite => True
  | _, _ => False

/-- The price of the event is that of the latest trade. -/
def PricedByLatest (trades : List Trade) (e : Models.QuoteEvent) : Prop :=
  ∀ t, IsLatest trades t → SamePrice (.finite e.price) t.price

/-- The last trade has the price of the latest one. -/
def EndsAtLatest (trades : List Trade) : Prop :=
  ∀ last t, trades.getLast? = some last → IsLatest trades t → SamePrice last.price t.price

section Prices

variable {py : Python} {receivedAt : Datetime} {p p' : Projector} {payload : Mapping}
  {trades : List (PyStr × Trade)} {ts : List Trade} {t t' : Trade} {events : List Models.QuoteEvent}
  {e : Models.QuoteEvent}

/-- A price is the same as itself. -/
theorem samePrice_refl (price : Extended PositiveDecimal) : SamePrice price price := by
  cases price with
  | finite a => exact rfl
  | infinite => exact trivial

/-- Trades that all have a time have a latest one. -/
theorem exists_isLatest (hne : ts ≠ []) (h : ∀ t ∈ ts, t.time.isSome) : ∃ t, IsLatest ts t := by
  induction ts using List.reverseRecOn with
  | nil => exact absurd rfl hne
  | append_singleton ts t ih =>
    obtain ⟨time, htime⟩ := Option.isSome_iff_exists.1 (h t (by simp))
    rcases eq_or_ne ts [] with rfl | hts
    · exact ⟨t, [], [], time, rfl, htime, by simp, by simp⟩
    · obtain ⟨t', before, after, time', rfl, htime', hbefore, hafter⟩ :=
        ih hts fun t ht => h t (List.mem_append_left _ ht)
      rcases le_or_gt time'.1.instant time.1.instant with hle | hlt
      · -- The new trade is as late as the latest one before it.
        refine ⟨t, _, [], time, rfl, htime, fun x hx y hy => ?_, by simp⟩
        rcases List.mem_append.1 hx with hx | hx
        · exact (hbefore x hx y hy).trans hle
        · rcases List.mem_cons.1 hx with rfl | hx
          · rw [htime', Option.mem_def, Option.some.injEq] at hy
            exact hy ▸ hle
          · exact (hafter x hx y hy).le.trans hle
      · refine ⟨t', before, after ++ [t], time', by simp, htime', hbefore, fun x hx y hy => ?_⟩
        rcases List.mem_append.1 hx with hx | hx
        · exact hafter x hx y hy
        · rw [List.mem_singleton.1 hx, htime, Option.mem_def, Option.some.injEq] at hy
          exact hy ▸ hlt

/-- Trades in the order of their times end at the latest one. -/
theorem endsAtLatest_of_sorted (h : ts.Pairwise fun a b =>
    ∀ x ∈ a.time, ∀ y ∈ b.time, x.1.instant ≤ y.1.instant) (htimes : ∀ t ∈ ts, t.time.isSome) :
    EndsAtLatest ts := by
  rintro last t hlast ⟨before, after, time, rfl, htime, -, hafter⟩
  rcases List.eq_nil_or_concat after with rfl | ⟨after, x, rfl⟩
  · rw [List.getLast?_append_of_ne_nil _ (List.cons_ne_nil _ _)] at hlast
    rw [← Option.some.inj hlast]
    exact samePrice_refl _
  · -- No trade after the latest one is as late, but in the order of their times all are.
    obtain ⟨time', htime'⟩ := Option.isSome_iff_exists.1 (htimes x (by simp))
    have hlt := hafter x (by simp) time' htime'
    have hsorted := (List.pairwise_append.1 h).2.1
    have hle := (List.pairwise_cons.1 hsorted).1 x (by simp) time htime time' htime'
    exact absurd hlt hle.not_gt

/-- The price of an event is that of the last trade. -/
theorem MadeOf.price_eq {messageTimestamp : AwareDatetime} {sequence : ℕ}
    (h : MadeOf py messageTimestamp sequence ts e) :
    ∃ last, ts.getLast? = some last ∧ last.price = .finite e.price := by
  obtain ⟨totals, price, hsums, hprice, hprojected⟩ := h
  rw [hsums.latestPrice] at hprice
  obtain ⟨last, hlast, heq⟩ := Option.map_eq_some_iff.1 hprice
  exact ⟨last, hlast, heq.trans hprojected.price⟩

/-- For a symbol of an accepted message whose trades all have a time, the price of the event is that
of the latest trade exactly if the last trade has this price. -/
theorem price_of_latest_iff
    (hchannel : py.str (getOrEmpty payload "channel") = .ok (text "market_trades"))
    (h : p.apply py receivedAt payload = (.ok events, p')) :
    ∃ trades, IsMessage py payload trades ∧ ∀ symbol ∈ trades.map Prod.fst,
      (∀ t ∈ tradesOf symbol trades, t.time.isSome) →
        (∃ t, IsLatest (tradesOf symbol trades) t) ∧ ∃ e ∈ events, e.symbol.1 = symbol ∧
          (PricedByLatest (tradesOf symbol trades) e ↔ EndsAtLatest (tradesOf symbol trades)) := by
  rw [apply_market_trades hchannel] at h
  obtain ⟨messageTimestamp, trades, -, hmessage, hbatched⟩ := projectTrades_eq_ok h
  refine ⟨trades, hmessage, fun symbol hsymbol htimes => ?_⟩
  obtain ⟨e, he, rfl⟩ := List.mem_map.1 ((hbatched.mem symbol).2 hsymbol)
  obtain ⟨last, hlast, hprice⟩ := (hbatched.made e he).price_eq
  have hne : tradesOf e.symbol.1 trades ≠ [] := fun hnil => by
    rw [hnil] at hlast
    cases hlast
  refine ⟨exists_isLatest hne htimes, e, he, rfl, fun hpriced last' t hlast' ht => ?_,
    fun hends t ht => ?_⟩
  · rw [Option.some.inj (hlast'.symm.trans hlast), hprice]
    exact hpriced t ht
  · rw [← hprice]
    exact hends last t hlast ht

/-- Two trades in the order of their times. -/
theorem price_of_latest_twoTrades : ∃ events p' trades,
    Projector.new.apply samplePython ⟨0, some 0⟩ twoTrades = (.ok events, p') ∧
      IsMessage samplePython twoTrades trades ∧ ∀ symbol ∈ trades.map Prod.fst,
      (∀ t ∈ tradesOf symbol trades, t.time.isSome) →
        (∃ t, IsLatest (tradesOf symbol trades) t) ∧ ∃ e ∈ events, e.symbol.1 = symbol ∧
          (PricedByLatest (tradesOf symbol trades) e ↔ EndsAtLatest (tradesOf symbol trades)) := by
  obtain ⟨events, p', h⟩ := exists_of_isOk
    (show (Projector.new.apply samplePython ⟨0, some 0⟩ twoTrades).1.isOk = true by decide +kernel)
  obtain ⟨trades, hmessage, hprice⟩ := price_of_latest_iff rfl h
  exact ⟨events, p', trades, h, hmessage, hprice⟩

/-- A message whose latest trade comes first. -/
def newestFirst : Mapping :=
  sampleMessage "market_trades" "trades" [sampleTrade "2" "BUY" "0.5" "99" "2024-01-01T00:00:01Z",
    sampleTrade "1" "SELL" "1.5" "100" "2024-01-01T00:00:00Z"]

/-- The event of such a message has the later time with the price of the earlier trade. -/
theorem not_pricedByLatest_newestFirst : ∃ events p' trades,
    Projector.new.apply samplePython ⟨0, some 0⟩ newestFirst = (.ok events, p') ∧
      IsMessage samplePython newestFirst trades ∧ ∃ e ∈ events,
        (∀ t ∈ tradesOf e.symbol.1 trades, t.time.isSome) ∧
        ¬ PricedByLatest (tradesOf e.symbol.1 trades) e := by
  obtain ⟨events, p', h⟩ := exists_of_isOk
    (show (Projector.new.apply samplePython ⟨0, some 0⟩ newestFirst).1.isOk =
    true by decide +kernel)
  have hmessage : IsMessage samplePython newestFirst twoTradesRead.reverse := by
    refine ⟨_, [[_, _]], rfl, .cons rfl .nil, .cons ⟨?_, ⟨?_, ?_, ?_, ?_, ?_⟩⟩
      (.cons ⟨?_, ⟨?_, ?_, ?_, ?_, ?_⟩⟩ .nil)⟩
    all_goals decide +kernel
  have hproject := h
  rw [apply_market_trades rfl] at hproject
  obtain ⟨messageTimestamp, trades, -, hread, hbatched⟩ := projectTrades_eq_ok hproject
  obtain rfl := hmessage.unique hread
  obtain ⟨e, he, hsymbol⟩ := List.mem_map.1 ((hbatched.mem (text "BTC-USD")).2 (by decide))
  obtain ⟨last, hlast, hprice⟩ := (hbatched.made e he).price_eq
  refine ⟨events, p', _, h, hmessage, e, he, ?_, fun hpriced => ?_⟩
  · rw [hsymbol]
    decide
  · rw [hsymbol] at hlast hpriced
    have htrades : tradesOf (text "BTC-USD") twoTradesRead.reverse =
        (twoTradesRead.map Prod.snd).reverse := rfl
    rw [htrades] at hlast hpriced
    have hlatest := hpriced _ ⟨[], _, _, rfl, rfl, by simp, by
      intro x hx y hy
      rw [List.mem_singleton.1 hx] at hy
      rw [← Option.some.inj hy]
      decide⟩
    -- The price is 100, that of the last trade, and not 99.
    rw [← hprice, ← Option.some.inj hlast] at hlatest
    norm_num [SamePrice, twoTradesRead, value_samplePrice] at hlatest

end Prices

end MarketDataGateway.Coinbase
