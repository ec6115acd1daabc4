import MarketDataGateway.Coinbase.Batches
import MarketDataGateway.Coinbase.Tickers
import MarketDataGateway.Lib.Transition

/-!
# Tickers that events are made with

A ticker is taken in under weaker checks than those of the event that is later made with it. In a
projector of which every ticker is usable, a message of trades that is well formed is projected
exactly if the sums of each batch fit the context and its identity can be encoded
(`projectable_iff`). Usable tickers stay so in every run whose messages bring usable ones only
(`allUsable_of_path`).
-/

namespace MarketDataGateway.Coinbase

open Lib Models

/-- A message of trades that is well formed on its own, and says the trades. -/
structure WellFormed (py : Python) (payload : Mapping) (trades : List (PyStr × Trade)) : Prop where
  channel : py.str (getOrEmpty payload "channel") = .ok (text "market_trades")
  timestamp : ∃ t, timestamp py (get payload "timestamp") "timestamp" = .ok t
  message : IsMessage py payload trades
  length : ∀ t ∈ trades, t.1.length ≤ 32
  size : ∀ t ∈ trades, t.2.size ≠ .infinite
  price : ∀ t ∈ trades, t.2.price ≠ .infinite

/-- The identity of a batch can be encoded, no sum of it overflows, and that of its sides does not
exceed the volume, to which it is equal but for rounding. -/
structure Fits (symbol : PyStr) (trades : List Trade) : Prop where
  encodes : ∃ octets, encodeUtf8 (eventIdentity symbol (trades.map Trade.id)) = some octets
  sums : ∃ volume buy sell sum, sumSizes (trades.map Trade.size) = .ok (.finite volume) ∧
    sumSizes (sizesOf .sell trades) = .ok (.finite buy) ∧
    sumSizes (sizesOf .buy trades) = .ok (.finite sell) ∧
    PyDecimal.add buy.1 sell.1 = some sum ∧ sum.value ≤ volume.1.value

/-- All tickers of the projector are usable. -/
def AllUsable (p : Projector) : Prop := ∀ symbol, ∀ t ∈ p.tickerBySymbol symbol, t.Usable

section Projectable

variable {py : Python} {messageTimestamp : AwareDatetime}
  {receivedAt : AwareDatetime} {p : Projector}
  {payload : Mapping} {trades : List (PyStr × Trade)} {symbol : PyStr} {objects : List Mapping}
  {ts : List Trade}

/-- A message that says trades is read. -/
theorem IsMessage.exists_rows (h : IsMessage py payload trades) :
    ∃ rows, messageTrades py payload = .ok rows ∧ Says py rows trades := by
  obtain ⟨events, items, hevents, hitems, htrades⟩ := h
  have hrows {objects : List Mapping} {trades : List (PyStr × Trade)}
    (h : List.Forall₂ (fun row t =>
      symbolOf py (get row "product_id") = .ok t.1 ∧ IsTrade py row t.2) objects trades) :
      ∃ rows, List.Forall₂ (fun row r => symbolOf py (get row "product_id") = .ok r.1 ∧ r.2 = row)
        objects rows ∧ Says py rows trades := by
    induction h with
    | nil => exact ⟨[], .nil, .nil⟩
    | cons hrow _ ih =>
      obtain ⟨rows, hread, hsays⟩ := ih
      exact ⟨(_, _) :: rows, .cons ⟨hrow.1, rfl⟩ hread, .cons ⟨rfl, hrow.2⟩ hsays⟩
  obtain ⟨rows, hread, hsays⟩ := hrows htrades
  exact ⟨rows, messageTrades_eq_ok.2 ⟨events, items, hevents, hitems, hread⟩, hsays⟩

/-- An event is built of the objects of a symbol exactly if their trades are summed and the event is
made, for which the sequence does not matter. -/
theorem exists_buildQuoteEvent_iff :
    (∃ e, (p.buildQuoteEvent py messageTimestamp receivedAt symbol objects).1 = .ok e) ↔
      ∃ totals price, sumTrades py messageTimestamp objects = .ok totals ∧
        totals.latestPrice = some price ∧ Presentable py symbol totals price receivedAt ∧
        (∀ t ∈ p.tickerBySymbol symbol, t.Usable) ∧ totals.FlowFits := by
  unfold Projector.buildQuoteEvent
  cases hsum : sumTrades py messageTimestamp objects with
  | error f => simp
  | ok totals =>
    dsimp only
    cases hprice : totals.latestPrice with
    | none =>
      refine iff_of_false (by simp) ?_
      rintro ⟨totals', price, htotals, hsome, -⟩
      rw [← Except.ok.inj htotals, hprice] at hsome
      cases hsome
    | some price =>
      dsimp only
      rw [exists_quoteEvent_iff]
      constructor
      · exact fun h => ⟨totals, price, rfl, hprice, h⟩
      · rintro ⟨totals', price', htotals, hprice', h⟩
        obtain rfl := Except.ok.inj htotals
        obtain rfl := Option.some.inj (hprice.symm.trans hprice')
        exact h

/-- The totals of trades that are finite make an event exactly if the batch fits. -/
theorem fits_iff (hread : List.Forall₂ (IsTrade py) objects ts) (hne : ts ≠ [])
    (hprice : ∀ t ∈ ts, t.price ≠ .infinite)
    (hsymbol : Matches 1 32 isSymbolChar (upper py.special (strip symbol))) :
    (∃ totals price, sumTrades py messageTimestamp objects = .ok totals ∧
      totals.latestPrice = some price ∧ Presentable py symbol totals price receivedAt ∧
      totals.FlowFits) ↔ Fits symbol ts := by
  constructor
  · rintro ⟨totals, price, hsum, -, hpresentable, hflow⟩
    obtain ⟨ts', hread', hsums⟩ := sumTrades_eq_ok.1 hsum
    obtain rfl := forall₂_isTrade_unique hread hread'
    -- An event is made of finite totals only.
    obtain ⟨volume, hvolume⟩ := Extended.exists_finite hpresentable.volume
    obtain ⟨buy, hbuy⟩ := Extended.exists_finite hpresentable.buyVolume
    obtain ⟨sell, hsell⟩ := Extended.exists_finite hpresentable.sellVolume
    obtain ⟨sum, hadd, hle⟩ := hflow volume buy sell hvolume hbuy hsell
    refine ⟨hsums.tradeIds ▸ hpresentable.encodes, volume, buy, sell, sum, ?_, ?_, ?_, hadd, hle⟩
    · rw [hsums.volume, hvolume]
    · rw [hsums.buyVolume, hbuy]
    · rw [hsums.sellVolume, hsell]
  · rintro ⟨hencodes, volume, buy, sell, sum, hvolume, hbuy, hsell, hadd, hle⟩
    -- The price is that of the last trade.
    have hlast := List.getLast?_eq_some_getLast hne
    set last := ts.getLast hne
    refine ⟨⟨.finite volume, .finite buy, .finite sell, ts.map Trade.id, some last.price, _⟩,
      last.price, sumTrades_eq_ok.2 ⟨ts, hread, hvolume, hbuy, hsell, rfl, ?_, rfl⟩, rfl,
      ⟨hencodes, hsymbol, receivedAt.2, hprice last (List.getLast_mem hne),
      nofun, nofun, nofun⟩, ?_⟩
    · rw [hlast]
      rfl
    · intro volume' buy' sell' hvolume' hbuy' hsell'
      obtain rfl := Extended.finite.inj hvolume'
      obtain rfl := Extended.finite.inj hbuy'
      obtain rfl := Extended.finite.inj hsell'
      exact ⟨sum, hadd, hle⟩

/-- A well-formed message of trades is projected exactly if for each of its symbols the ticker, if
any, is usable, and the batch fits. -/
theorem exists_apply_iff (h : WellFormed py payload trades) :
    (∃ events, (p.apply py receivedAt payload).1 = .ok events) ↔ ∀ symbol ∈ trades.map Prod.fst,
      (∀ t ∈ p.tickerBySymbol symbol, t.Usable) ∧ Fits symbol (tradesOf symbol trades) := by
  obtain ⟨messageTimestamp, htimestamp⟩ := h.timestamp
  obtain ⟨rows, hrows, hsays⟩ := h.message.exists_rows
  have hsymbols : rows.map Prod.fst = trades.map Prod.fst :=
    map_eq_of_forall₂ hsays fun _ _ _ h => h.1
  have hchars : ∀ t ∈ trades, Matches 1 32 isSymbolChar (upper py.special (strip t.1)) := by
    intro t ht
    obtain ⟨events, items, -, -, htrades⟩ := h.message
    obtain ⟨row, -, hrow, -⟩ := exists_left_of_forall₂ htrades ht
    obtain ⟨hne, hchars⟩ := symbolOf_eq_ok hrow
    rw [upper_strip_symbol _ hchars]
    exact ⟨List.length_pos_iff.2 hne, h.length t ht, hchars⟩
  rw [apply_market_trades h.channel, Projector.projectTrades, htimestamp, hrows]
  -- The loop leaves the tickers alone, so each step succeeds or not by the tickers of the first
  -- state.
  refine (runAll_isOk (fun q => q.tickerBySymbol = p.tickerBySymbol)
    (fun group => (∀ t ∈ p.tickerBySymbol group.1, t.Usable) ∧
      Fits group.1 (tradesOf group.1 trades)) rfl ?_ ?_).trans ?_
  · intro q hq group _
    rw [buildQuoteEvent_ticker, hq]
  · intro q hq group hgroup
    obtain ⟨hfilter, hne⟩ := mem_tradesBySymbol.1 hgroup
    have hread : List.Forall₂ (IsTrade py) (group.2.map Prod.snd) (tradesOf group.1 trades) := by
      rw [hfilter]
      exact Says.group hsays group.1
    have hnonempty : tradesOf group.1 trades ≠ [] := by
      intro hnil
      rw [hnil, List.forall₂_nil_right_iff, List.map_eq_nil_iff] at hread
      exact hne hread
    have hprice : ∀ t ∈ tradesOf group.1 trades, t.price ≠ .infinite := by
      intro t ht
      obtain ⟨r, hr, rfl⟩ := List.mem_map.1 ht
      exact h.price r (List.mem_of_mem_filter hr)
    have hsymbol : group.1 ∈ trades.map Prod.fst := by
      rw [← hsymbols, ← mem_symbols]
      exact List.mem_map_of_mem hgroup
    obtain ⟨t, ht, hkey⟩ := List.mem_map.1 hsymbol
    rw [exists_buildQuoteEvent_iff, hq, ← fits_iff hread hnonempty hprice (hkey ▸ hchars t ht)]
    constructor
    · rintro ⟨totals, price, hsum, hlatest, hpresentable, husable, hflow⟩
      exact ⟨husable, totals, price, hsum, hlatest, hpresentable, hflow⟩
    · rintro ⟨husable, totals, price, hsum, hlatest, hpresentable, hflow⟩
      exact ⟨totals, price, hsum, hlatest, hpresentable, husable, hflow⟩
  · rw [← hsymbols]
    constructor
    · intro hall symbol hsymbol
      obtain ⟨group, hgroup, rfl⟩ := List.mem_map.1 (mem_symbols.2 hsymbol)
      exact hall group hgroup
    · exact fun hall group hgroup => hall group.1 (mem_symbols.1 (List.mem_map_of_mem hgroup))

/-- A batch of sizes within the precision of the context fits, if its identity can be encoded. -/
theorem fits_of_precision
    (hencodes : ∃ octets, encodeUtf8 (eventIdentity symbol (ts.map Trade.id)) = some octets)
    (h : FitsPrecision (ts.map Trade.size)) : Fits symbol ts := by
  obtain ⟨e, hetiny, he, hsizes, hsum⟩ := h
  have hsplit : ((ts.map Trade.size).map sizeValue).sum =
      ((sizesOf .sell ts).map sizeValue).sum + ((sizesOf .buy ts).map sizeValue).sum := by
    rw [List.map_map]
    exact sum_sizes ts
  have hsides (side : MakerSide) : ∀ size ∈ sizesOf side ts,
      ∃ d : NonNegativeDecimal, size = .finite d ∧ e ≤ d.1.exponent := by
    intro size hsize
    obtain ⟨t, ht, rfl⟩ := List.mem_map.1 hsize
    exact hsizes _ (List.mem_map_of_mem (List.mem_of_mem_filter ht))
  have hbought := sum_sizeValue_nonneg (sizesOf .sell ts)
  have hsold := sum_sizeValue_nonneg (sizesOf .buy ts)
  obtain ⟨volume, hvolume, hvalue, -⟩ := sumSizes_of_fits hetiny he hsizes hsum
  rw [hsplit] at hsum hvalue
  obtain ⟨buy, hbuy, hbuyValue, hbuyExponent⟩ :=
    sumSizes_of_fits hetiny he (hsides .sell) (by linarith)
  obtain ⟨sell, hsell, hsellValue, hsellExponent⟩ :=
    sumSizes_of_fits hetiny he (hsides .buy) (by linarith)
  rw [← hbuyValue, ← hsellValue] at hsum hvalue
  obtain ⟨sum, hadd, hexact, -⟩ :=
    PyDecimal.add_of_fits hetiny he hbuyExponent hsellExponent buy.2 sell.2 hsum
  exact ⟨hencodes, volume, buy, sell, sum, hvolume, hbuy, hsell, hadd, by rw [hexact, hvalue]⟩

end Projectable

/-! ## Runs -/

/-- A call on the projector. -/
inductive Call
  /-- `apply`. -/
  | apply (payload : Mapping) (receivedAt : Datetime)
  /-- `clear_connection_state`. -/
  | clear

/-- The projector after a call. -/
def step (py : Python) (p : Projector) : Call → Option Projector
  | .apply payload receivedAt => some (p.apply py receivedAt payload).2
  | .clear => some p.clearConnectionState

/-- Of each symbol, the last ticker that the call takes in is usable. -/
def BringsUsable (py : Python) : Projector → Call → Prop
  | _, .apply payload _ => py.str (getOrEmpty payload "channel") = .ok (text "ticker") →
      ∀ symbol ticker, IsLastOf (tickersBeforeFault py payload) symbol ticker → ticker.Usable
  | _, .clear => True

section Runs

variable {py : Python} {receivedAt : AwareDatetime} {p p' : Projector} {payload : Mapping}
  {trades : List (PyStr × Trade)} {call : Call}

/-- Only tickers change the tickers. -/
theorem apply_ticker_of_ne {time : Datetime}
    (h : py.str (getOrEmpty payload "channel") ≠ .ok (text "ticker")) :
    (p.apply py time payload).2.tickerBySymbol = p.tickerBySymbol := by
  cases hchannel : py.str (getOrEmpty payload "channel") with
  | error f => rw [Projector.apply, hchannel]
  | ok channel =>
    have hne : channel ≠ text "ticker" := fun heq => h (by rw [hchannel, heq])
    by_cases htrades : channel = text "market_trades"
    · rw [htrades] at hchannel
      rw [apply_market_trades hchannel, Projector.projectTrades]
      split
      · rfl
      · split
        · rfl
        · exact runAll_invariant (p := fun q : Projector => q.tickerBySymbol = p.tickerBySymbol)
            (fun q hq group _ => by rw [buildQuoteEvent_ticker, hq]) rfl
    · rw [Projector.apply, hchannel]
      simp [hne, htrades]

/-- A call that brings usable tickers leaves usable ones. -/
theorem AllUsable.step (h : AllUsable p) (hok : BringsUsable py p call)
    (hstep : step py p call = some p') :
    AllUsable p' := by
  cases call with
  | clear =>
    obtain rfl := Option.some.inj hstep
    exact fun symbol t ht => absurd ht (by simp [Projector.clearConnectionState])
  | apply payload time =>
    obtain rfl := Option.some.inj hstep
    intro symbol t ht
    by_cases hchannel : py.str (getOrEmpty payload "channel") = .ok (text "ticker")
    · rw [apply_ticker hchannel] at ht
      rcases setTickers_ticker p (tickersBeforeFault py payload) symbol with
        ⟨ticker, hlast, hticker⟩ | ⟨-, hticker⟩
      · rw [Option.mem_def, hticker, Option.some.injEq] at ht
        exact ht ▸ hok hchannel symbol ticker hlast
      · rw [Option.mem_def, hticker] at ht
        exact h symbol t ht
    · rw [Option.mem_def, apply_ticker_of_ne hchannel] at ht
      exact h symbol t ht

/-- In a run whose messages bring usable tickers, all tickers are usable. -/
theorem allUsable_of_path (h : Path (step py) (BringsUsable py) .new p) : AllUsable p :=
  h.invariant AllUsable (fun _ t ht => absurd ht (by simp [Projector.new]))
    fun _ _ _ hp hok hstep => hp.step hok hstep

/-- In such a run, a well-formed message of trades is projected exactly if each of its batches
fits. -/
theorem projectable_iff (h : Path (step py) (BringsUsable py) .new p)
    (hwf : WellFormed py payload trades) (receivedAt : AwareDatetime) :
    (∃ events, (p.apply py receivedAt payload).1 = .ok events) ↔
      ∀ symbol ∈ trades.map Prod.fst, Fits symbol (tradesOf symbol trades) := by
  have husable := allUsable_of_path h
  rw [exists_apply_iff hwf]
  constructor
  · exact fun hall symbol hsymbol => (hall symbol hsymbol).2
  · exact fun hall symbol hsymbol => ⟨husable symbol, hall symbol hsymbol⟩

/-- A good ticker of BTC-USD. -/
def goodTicker : Mapping :=
  sampleMessage "ticker" "tickers" [sampleTicker "BTC-USD" "100" "99" "101" "1" "2"]

/-- The state of `goodTicker`. -/
def goodState : TickerState where
  price := .finite (samplePrice 100)
  bid := some (.finite (samplePrice 99))
  ask := some (.finite (samplePrice 101))
  bidQuantity := some (.finite ⟨⟨false, 1, 0⟩, PyDecimal.value_nonneg.2 (by decide)⟩)
  askQuantity := some (.finite ⟨⟨false, 2, 0⟩, PyDecimal.value_nonneg.2 (by decide)⟩)
  providerTimestamp := ⟨⟨1704067200 * second, some 0⟩, isSome_utcoffset_newYear⟩

/-- The good state is usable. -/
theorem usable_goodState : goodState.Usable where
  bid := nofun
  ask := nofun
  bidQuantity := nofun
  askQuantity := nofun
  quantities := rfl
  le b a hb ha := by
    rw [← Extended.finite.inj (Option.some.inj hb), ← Extended.finite.inj (Option.some.inj ha)]
    rw [value_samplePrice (by decide), value_samplePrice (by decide)]
    norm_num

/-- The message of two trades is well formed. -/
theorem wellFormed_twoTrades : WellFormed samplePython twoTrades twoTradesRead where
  channel := rfl
  timestamp := ⟨⟨⟨1704067200 * second, some 0⟩, isSome_utcoffset_newYear⟩, rfl⟩
  message := isMessage_twoTrades
  length := by decide
  size := by decide
  price := by decide

/-- The good ticker brings a usable one. -/
theorem bringsUsable_goodTicker (p : Projector) (time : Datetime) :
    BringsUsable samplePython p (.apply goodTicker time) := by
  rintro - symbol ticker ⟨before, after, htickers, -⟩
  have hread : tickersBeforeFault samplePython goodTicker = [(text "BTC-USD", goodState)] := by
    decide +kernel
  have hmem : (symbol, ticker) ∈ [(text "BTC-USD", goodState)] := by
    rw [← hread, htickers]
    simp
  rw [(Prod.mk.inj (List.mem_singleton.1 hmem)).2]
  exact usable_goodState

/-- After a good ticker. -/
theorem projectable_twoTrades : ∃ p, Path (step samplePython) (BringsUsable samplePython) .new p ∧
    WellFormed samplePython twoTrades twoTradesRead ∧
    ((∃ events, (p.apply samplePython ⟨0, some 0⟩ twoTrades).1 = .ok events) ↔
      ∀ symbol ∈ twoTradesRead.map Prod.fst, Fits symbol (tradesOf symbol twoTradesRead)) := by
  have hpath : Path (step samplePython) (BringsUsable samplePython) .new
      (Projector.new.apply samplePython ⟨0, some 0⟩ goodTicker).2 :=
    Lib.Path.refl.tail (.apply goodTicker ⟨0, some 0⟩) (bringsUsable_goodTicker _ _) rfl
  exact ⟨_, hpath, wellFormed_twoTrades,
    projectable_iff hpath wellFormed_twoTrades ⟨⟨0, some 0⟩, rfl⟩⟩

/-- A ticker whose bid exceeds its ask. -/
def crossedTicker : Mapping :=
  sampleMessage "ticker" "tickers" [sampleTicker "BTC-USD" "100" "101" "99" "1" "2"]

/-- After a crossed ticker, trades that are projected without it are not. -/
theorem not_projectable_crossedTicker : WellFormed samplePython twoTrades twoTradesRead ∧
    (Projector.new.apply samplePython ⟨0, some 0⟩ twoTrades).1.isOk = true ∧
    (Projector.new.apply samplePython ⟨0, some 0⟩ crossedTicker).1.isOk = true ∧
    ∃ p, Path (step samplePython) anyStep .new p ∧
      ∀ events, (p.apply samplePython ⟨0, some 0⟩ twoTrades).1 ≠ .ok events := by
  have hpath : Path (step samplePython) anyStep .new
      (Projector.new.apply samplePython ⟨0, some 0⟩ crossedTicker).2 :=
    Lib.Path.refl.tail (.apply crossedTicker ⟨0, some 0⟩) trivial rfl
  have hrejected : ((Projector.new.apply samplePython ⟨0,
    some 0⟩ crossedTicker).2.apply samplePython
      ⟨0, some 0⟩ twoTrades).1.isOk = false := by decide +kernel
  refine ⟨wellFormed_twoTrades, by decide +kernel, by decide +kernel, _, hpath, fun events h => ?_⟩
  rw [h] at hrejected
  cases hrejected

end Runs

end MarketDataGateway.Coinbase
