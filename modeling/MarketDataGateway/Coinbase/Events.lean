import MarketDataGateway.Coinbase.Projector

/-!
# What an event is made of

`quoteEvent` makes an event of the totals of a batch and the ticker of its symbol. `EventValues` are
the values of its fields if all of them are finite, and `validateMarket_eventFields` is what the
validators demand of these. From it come when an event is made (`exists_quoteEvent_iff`), what it
has in its fields (`quoteEvent_eq_ok`), and when the check of the flow overflows
(`escapes_quoteEvent`).
-/

namespace MarketDataGateway.Coinbase

open Lib Models

/-! ## The validators -/

section Validators

variable {symbol : Models.Symbol} {price : PositiveDecimal} {bid ask : Option PositiveDecimal}
  {volume buy sell : NonNegativeDecimal} {bidDepth askDepth : Option NonNegativeDecimal}
  {depthKnown : Bool} {providerTimestamp receivedAt : AwareDatetime} {tradeCount sequence : ℕ}
  {eventId : EventId} {f : QuoteFields}

/-- The capabilities are all of them, the depth where it is known. -/
theorem mem_capabilities {c : MarketEvidenceCapability} :
    c ∈ capabilities depthKnown ↔ c = .topOfBookDepth → depthKnown = true := by
  cases depthKnown <;> cases c <;> decide

/-- The sum of the sides fits the context and does not exceed the volume. -/
theorem validateFlow_eventFields (hf : f = eventFields symbol price bid ask volume buy sell bidDepth
      askDepth depthKnown providerTimestamp receivedAt tradeCount sequence eventId) :
    f.validateFlow = match PyDecimal.add buy.1 sell.1 with
      | none => .error .overflow
      | some sum =>
        if volume.1.value < sum.value then
          .error (.valueError "classified buy and sell volume must not exceed total volume")
        else .ok () := by
  have hcapable : .aggressorFlow ∈ f.capabilities := by
    rw [hf]
    exact mem_capabilities.2 nofun
  unfold QuoteFields.validateFlow
  simp only [hcapable, not_true_eq_false, if_false]
  rw [hf]
  rfl

/-- The depths of an event are given together or not at all. -/
theorem validateDepth_eventFields (hf : f =
    eventFields symbol price bid ask volume buy sell bidDepth
      askDepth (bidDepth.isSome && askDepth.isSome) providerTimestamp receivedAt tradeCount sequence
      eventId) :
    f.validateDepth = if bidDepth.isSome = askDepth.isSome then .ok ()
      else .error (.valueError "bid_depth and ask_depth must be provided together") := by
  have hcapable : .topOfBookDepth ∈ f.capabilities ↔
      (bidDepth.isSome && askDepth.isSome) = true := by
    rw [hf]
    exact mem_capabilities.trans ⟨fun h => h rfl, fun h _ => h⟩
  unfold QuoteFields.validateDepth
  rw [hf] at *
  cases bidDepth <;> cases askDepth <;> simp_all [eventFields] <;> rfl

/-- The validators come to these of the bid and the ask, the flow, and the depth, in this order. -/
theorem validateMarket_eventFields (hf : f =
    eventFields symbol price bid ask volume buy sell bidDepth
      askDepth depthKnown providerTimestamp receivedAt tradeCount sequence eventId) :
    f.validateMarket = if ∃ b ∈ bid, ∃ a ∈ ask, a.1.value < b.1.value then
        .error (.valueError "bid must be less than or equal to ask")
      else f.validateFlow >>= fun _ => f.validateDepth := by
  have hcapable (c : MarketEvidenceCapability) (hc : c ≠ .topOfBookDepth) : c ∈ f.capabilities := by
    rw [hf]
    exact mem_capabilities.2 fun h => absurd h hc
  have hlevel : .level1Quote ∈ f.capabilities := hcapable _ (by decide)
  have hvolume : .volume ∈ f.capabilities := hcapable _ (by decide)
  have hcount : .tradeCount ∈ f.capabilities := hcapable _ (by decide)
  have hminor : f.schemaMinor = .ok 1 := by rw [hf]; rfl
  have hbid : f.bid = bid := by rw [hf]; rfl
  have hask : f.ask = ask := by rw [hf]; rfl
  have hsemantics : f.volumeSemantics.isNone = false := by rw [hf]; rfl
  unfold QuoteFields.validateMarket
  rw [hbid, hask, hminor]
  simp only [hlevel, hvolume, hcount, hsemantics, not_true_eq_false, and_false, if_false,
    Bool.false_eq_true]
  by_cases hcrossed : ∃ b ∈ bid, ∃ a ∈ ask, a.1.value < b.1.value
  · rw [if_pos hcrossed, if_pos hcrossed]
    rfl
  · rw [if_neg hcrossed, if_neg hcrossed]
    -- The minor version is 1, so values of the later schema are taken.
    change (if f.richValuesPresent = true ∧ (1 : ℕ) < 1 then _ else _) = _
    rw [if_neg (by omega)]

/-- The validators accept the fields of an event exactly if the bid is at most the ask, the sum of
the sides is at most the volume, and there are both depths or none. -/
theorem validateMarket_eq_ok (hf : f = eventFields symbol price bid ask volume buy sell bidDepth
      askDepth (bidDepth.isSome && askDepth.isSome) providerTimestamp receivedAt tradeCount sequence
      eventId) :
    f.validateMarket = .ok () ↔ (¬ ∃ b ∈ bid, ∃ a ∈ ask, a.1.value < b.1.value) ∧
      (∃ sum, PyDecimal.add buy.1 sell.1 = some sum ∧ sum.value ≤ volume.1.value) ∧
      bidDepth.isSome = askDepth.isSome := by
  rw [validateMarket_eventFields hf, validateDepth_eventFields hf, validateFlow_eventFields hf]
  by_cases hcrossed : ∃ b ∈ bid, ∃ a ∈ ask, a.1.value < b.1.value
  · rw [if_pos hcrossed]
    exact iff_of_false nofun fun h => h.1 hcrossed
  · rw [if_neg hcrossed]
    simp only [hcrossed, not_false_eq_true, true_and, bind_eq_ok]
    cases PyDecimal.add buy.1 sell.1 with
    | none => simp
    | some sum =>
      simp only [Option.some.injEq, exists_eq_left', ← not_lt]
      split_ifs with hflow hdepth hdepth <;> simp [hflow, hdepth]

/-- They fail with an overflow exactly if the sum of the sides overflows, unless the bid exceeds the
ask, which is found before. -/
theorem validateMarket_eq_overflow (hf : f =
    eventFields symbol price bid ask volume buy sell bidDepth
      askDepth (bidDepth.isSome && askDepth.isSome) providerTimestamp receivedAt tradeCount sequence
      eventId) :
    f.validateMarket = .error .overflow ↔ (¬ ∃ b ∈ bid, ∃ a ∈ ask, a.1.value < b.1.value) ∧
      PyDecimal.add buy.1 sell.1 = none := by
  rw [validateMarket_eventFields hf, validateDepth_eventFields hf, validateFlow_eventFields hf]
  by_cases hcrossed : ∃ b ∈ bid, ∃ a ∈ ask, a.1.value < b.1.value
  · rw [if_pos hcrossed]
    exact iff_of_false nofun fun h => h.1 hcrossed
  · rw [if_neg hcrossed]
    simp only [hcrossed, not_false_eq_true, true_and, bind_eq_error]
    cases PyDecimal.add buy.1 sell.1 with
    | none => simp
    | some sum =>
      dsimp only
      split_ifs with hflow hdepth <;> simp

end Validators

/-! ## Tickers and totals -/

/-- A ticker all of whose values are finite and whose bid does not exceed its ask. -/
structure TickerState.Ordered (t : TickerState) : Prop where
  bid : t.bid ≠ some .infinite
  ask : t.ask ≠ some .infinite
  bidQuantity : t.bidQuantity ≠ some .infinite
  askQuantity : t.askQuantity ≠ some .infinite
  le : ∀ b a, t.bid = some (.finite b) → t.ask = some (.finite a) → b.1.value ≤ a.1.value

/-- A ticker with which an event can be made: it also has both quantities or none. -/
structure TickerState.Usable (t : TickerState) : Prop extends t.Ordered where
  quantities : t.bidQuantity.isSome = t.askQuantity.isSome

/-- The values of an event that come from the totals and the ticker, if they are finite. -/
structure EventValues where
  /-- `price`. -/
  price : PositiveDecimal
  /-- `bid`. -/
  bid : Option PositiveDecimal
  /-- `ask`. -/
  ask : Option PositiveDecimal
  /-- `volume`. -/
  volume : NonNegativeDecimal
  /-- `buy_volume`. -/
  buyVolume : NonNegativeDecimal
  /-- `sell_volume`. -/
  sellVolume : NonNegativeDecimal
  /-- `bid_depth`. -/
  bidDepth : Option NonNegativeDecimal
  /-- `ask_depth`. -/
  askDepth : Option NonNegativeDecimal

/-- The values are those of the ticker and the totals. -/
structure EventValues.Of (v : EventValues) (ticker : Option TickerState) (totals : Totals)
    (latestPrice : Extended PositiveDecimal) : Prop where
  price : latestPrice = .finite v.price
  bid : ticker.bind TickerState.bid = v.bid.map .finite
  ask : ticker.bind TickerState.ask = v.ask.map .finite
  volume : totals.volume = .finite v.volume
  buyVolume : totals.buyVolume = .finite v.buyVolume
  sellVolume : totals.sellVolume = .finite v.sellVolume
  bidDepth : ticker.bind TickerState.bidQuantity = v.bidDepth.map .finite
  askDepth : ticker.bind TickerState.askQuantity = v.askDepth.map .finite

/-- The fields that the values give. -/
def EventValues.fields (v : EventValues) (symbol : Models.Symbol)
    (providerTimestamp receivedAt : AwareDatetime)
    (tradeCount sequence : ℕ) (eventId : EventId) : QuoteFields :=
  eventFields symbol v.price v.bid v.ask v.volume v.buyVolume v.sellVolume v.bidDepth v.askDepth
    (v.bidDepth.isSome && v.askDepth.isSome) providerTimestamp receivedAt
    tradeCount sequence eventId

section Values

variable {py : Python} {symbol : PyStr} {ticker : Option TickerState} {totals : Totals}
  {latestPrice : Extended PositiveDecimal} {tradeCount sequence : ℕ} {eventId : EventId}
  {receivedAt : Datetime} {f : QuoteFields} {e : Models.QuoteEvent}

/-- A decimal is finite if it is that of a number. -/
theorem finite?_eq_some {α : Type} {x : Extended α} {a : α} :
    x.finite? = some a ↔ x = .finite a := by
  cases x <;> simp [Extended.finite?]

/-- An optional field is that of finite numbers. -/
theorem optionalField_eq_some {α : Type} {o : Option (Extended α)} {r : Option α} :
    optionalField o = some r ↔ o = r.map .finite := by
  rcases o with _ | _ | _ <;> cases r <;> simp [optionalField, Extended.finite?]

/-- The fields are valid one by one exactly if the symbol matches, the time of receipt has a
timezone, and all values are finite. -/
theorem quoteFields_eq_some :
    quoteFields py symbol ticker totals latestPrice tradeCount sequence eventId
    receivedAt = some f ↔
      ∃ (v : EventValues) (hs : Matches 1 32 isSymbolChar (upper py.special (strip symbol)))
        (hr : receivedAt.utcoffset.isSome), v.Of ticker totals latestPrice ∧
        f = v.fields ⟨_, hs⟩ totals.latestTimestamp ⟨receivedAt,
        hr⟩ tradeCount sequence eventId := by
  unfold quoteFields
  simp only [Option.bind_eq_bind, Option.bind_eq_some_iff, finite?_eq_some, optionalField_eq_some]
  constructor
  · rintro ⟨price, hprice, bid, hbid, ask, hask, volume, hvolume, buy, hbuy, sell, hsell, bidDepth,
      hbidDepth, askDepth, haskDepth, h⟩
    split_ifs at h with hvalid
    refine ⟨⟨price, bid, ask, volume, buy, sell, bidDepth, askDepth⟩, hvalid.1, hvalid.2,
      ⟨hprice, hbid, hask, hvolume, hbuy, hsell, hbidDepth, haskDepth⟩, ?_⟩
    rw [← Option.some.inj h, hbidDepth, haskDepth, Option.isSome_map, Option.isSome_map]
    rfl
  · rintro ⟨v, hs, hr, hv, rfl⟩
    refine ⟨_, hv.price, _, hv.bid, _, hv.ask, _, hv.volume, _, hv.buyVolume, _, hv.sellVolume, _,
      hv.bidDepth, _, hv.askDepth, ?_⟩
    rw [dif_pos ⟨hs, hr⟩, hv.bidDepth, hv.askDepth, Option.isSome_map, Option.isSome_map]
    rfl

/-- With finite values, the ticker is ordered exactly if the bid is at most the ask. -/
theorem EventValues.Of.ordered_iff {v : EventValues} (hv : v.Of ticker totals latestPrice) :
    (∀ t ∈ ticker, t.Ordered) ↔ ¬ ∃ b ∈ v.bid, ∃ a ∈ v.ask, a.1.value < b.1.value := by
  have hfinite {α : Type} (o : Option α) : o.map Extended.finite ≠ some .infinite := by
    cases o <;> simp
  cases ticker with
  -- Without a ticker there is no bid.
  | none =>
    have hbid : v.bid = none := Option.map_eq_none_iff.1 hv.bid.symm
    simp [hbid]
  | some t =>
    have hbid : t.bid = v.bid.map .finite := hv.bid
    have hask : t.ask = v.ask.map .finite := hv.ask
    constructor
    · rintro h ⟨b, hb, a, ha, hlt⟩
      have hb' : t.bid = some (.finite b) := by rw [hbid, Option.mem_def.1 hb, Option.map_some]
      have ha' : t.ask = some (.finite a) := by rw [hask, Option.mem_def.1 ha, Option.map_some]
      exact absurd hlt ((h t rfl).le b a hb' ha').not_gt
    · intro h t' ht'
      obtain rfl : t = t' := Option.some.inj ht'
      have hbidQuantity : t.bidQuantity = v.bidDepth.map .finite := hv.bidDepth
      have haskQuantity : t.askQuantity = v.askDepth.map .finite := hv.askDepth
      refine ⟨hbid ▸ hfinite _, hask ▸ hfinite _, hbidQuantity ▸ hfinite _,
        haskQuantity ▸ hfinite _, ?_⟩
      intro b a hb ha
      rw [hbid] at hb
      rw [hask] at ha
      obtain ⟨b', hb', heq⟩ := Option.map_eq_some_iff.1 hb
      obtain ⟨a', ha', heq'⟩ := Option.map_eq_some_iff.1 ha
      rw [← Extended.finite.inj heq, ← Extended.finite.inj heq']
      exact not_lt.1 fun hlt => h ⟨b', hb', a', ha', hlt⟩

/-- A ticker is usable if its bid is not above its ask and its depths are given together. -/
theorem EventValues.Of.usable_iff {v : EventValues} (hv : v.Of ticker totals latestPrice) :
    (∀ t ∈ ticker, t.Usable) ↔ (¬ ∃ b ∈ v.bid, ∃ a ∈ v.ask, a.1.value < b.1.value) ∧
      v.bidDepth.isSome = v.askDepth.isSome := by
  have hquantities : (∀ t ∈ ticker, t.bidQuantity.isSome = t.askQuantity.isSome) ↔
      v.bidDepth.isSome = v.askDepth.isSome := by
    rw [← Option.isSome_map (f := Extended.finite) (x := v.bidDepth),
      ← Option.isSome_map (f := Extended.finite) (x := v.askDepth), ← hv.bidDepth, ← hv.askDepth]
    cases ticker <;> simp
  rw [← hv.ordered_iff, ← hquantities]
  constructor
  · exact fun h => ⟨fun t ht => (h t ht).toOrdered, fun t ht => (h t ht).quantities⟩
  · exact fun h t ht => ⟨h.1 t ht, h.2 t ht⟩

/-- An ordered ticker and finite totals have values. -/
theorem EventValues.exists_of (hticker : ∀ t ∈ ticker, t.Ordered) {price : PositiveDecimal}
    {volume buy sell : NonNegativeDecimal} (hprice : latestPrice = .finite price)
    (hvolume : totals.volume = .finite volume) (hbuy : totals.buyVolume = .finite buy)
    (hsell : totals.sellVolume = .finite sell) :
    ∃ v : EventValues, v.Of ticker totals latestPrice ∧ v.volume = volume ∧ v.buyVolume = buy ∧
      v.sellVolume = sell := by
  have hoption {α : Type} {o : Option (Extended α)} (h : o ≠ some .infinite) :
      ∃ r : Option α, o = r.map .finite := by
    rcases o with _ | x | _
    · exact ⟨none, rfl⟩
    · exact ⟨some x, rfl⟩
    · exact absurd rfl h
  have hbind {α : Type} {field : TickerState → Option (Extended α)}
      (h : ∀ t ∈ ticker, field t ≠ some .infinite) : ∃ r : Option α,
      ticker.bind field = r.map .finite := by
    cases ticker with
    | none => exact ⟨none, rfl⟩
    | some t => exact hoption (h t rfl)
  obtain ⟨bid, hbid⟩ := hbind fun t ht => (hticker t ht).bid
  obtain ⟨ask, hask⟩ := hbind fun t ht => (hticker t ht).ask
  obtain ⟨bidDepth, hbidDepth⟩ := hbind fun t ht => (hticker t ht).bidQuantity
  obtain ⟨askDepth, haskDepth⟩ := hbind fun t ht => (hticker t ht).askQuantity
  exact ⟨⟨price, bid, ask, volume, buy, sell, bidDepth, askDepth⟩,
    ⟨hprice, hbid, hask, hvolume, hbuy, hsell, hbidDepth, haskDepth⟩, rfl, rfl, rfl⟩

/-! ## Events -/

/-- What an event has in the fields that come from the batch. -/
structure Projected (py : Python) (symbol : PyStr) (totals : Totals)
    (latestPrice : Extended PositiveDecimal) (tradeCount sequence : ℕ)
    (e : Models.QuoteEvent) : Prop where
  eventId : ∃ octets, encodeUtf8 (eventIdentity symbol totals.tradeIds) = some octets ∧
    e.eventId = py.uuid5 octets
  symbol : e.symbol.1 = upper py.special (strip symbol)
  price : latestPrice = .finite e.price
  providerTimestamp : e.providerTimestamp = totals.latestTimestamp
  volume : ∃ volume, e.volume = some volume ∧ totals.volume = .finite volume
  buyVolume : ∃ volume, e.buyVolume = some volume ∧ totals.buyVolume = .finite volume
  sellVolume : ∃ volume, e.sellVolume = some volume ∧ totals.sellVolume = .finite volume
  tradeCount : e.tradeCount.map Subtype.val = some (tradeCount : ℤ)
  sequence : e.sequence.map Subtype.val = some (sequence : ℤ)

/-- An event that is made is projected from what it is made of. -/
theorem quoteEvent_eq_ok
    (h : quoteEvent py symbol ticker totals latestPrice tradeCount sequence receivedAt = .ok e) :
    Projected py symbol totals latestPrice tradeCount sequence e := by
  obtain ⟨octets, hoctets, h⟩ := bind_eq_ok.1 h
  obtain ⟨fields, hfields, h⟩ := bind_eq_ok.1 h
  rw [orRaise_eq_ok] at hoctets hfields
  obtain ⟨v, hs, hr, hv, rfl⟩ := quoteFields_eq_some.1 hfields
  split at h
  · cases h
  · rw [← Except.ok.inj h]
    exact ⟨⟨octets, hoctets, rfl⟩, rfl, hv.price, rfl, ⟨_, rfl, hv.volume⟩, ⟨_, rfl, hv.buyVolume⟩,
      ⟨_, rfl, hv.sellVolume⟩, rfl, rfl⟩

/-- What the arguments of an event need besides a usable ticker: the identity can be encoded, the
symbol and the time of receipt are valid, and the totals are finite. -/
structure Presentable (py : Python) (symbol : PyStr) (totals : Totals)
    (latestPrice : Extended PositiveDecimal) (receivedAt : Datetime) : Prop where
  encodes : ∃ octets, encodeUtf8 (eventIdentity symbol totals.tradeIds) = some octets
  symbol : Matches 1 32 isSymbolChar (upper py.special (strip symbol))
  receivedAt : receivedAt.utcoffset.isSome
  price : latestPrice ≠ .infinite
  volume : totals.volume ≠ .infinite
  buyVolume : totals.buyVolume ≠ .infinite
  sellVolume : totals.sellVolume ≠ .infinite

/-- What is not infinite is finite. -/
theorem Extended.exists_finite {α : Type} {x : Extended α} (h : x ≠ .infinite) :
    ∃ a, x = .finite a := by
  cases x with
  | finite a => exact ⟨a, rfl⟩
  | infinite => exact absurd rfl h

/-- Values of a symbol that can be encoded and matches are presentable. -/
theorem EventValues.Of.presentable {v : EventValues} (hv : v.Of ticker totals latestPrice)
    {octets : List Byte} (hoctets : encodeUtf8 (eventIdentity symbol totals.tradeIds) = some octets)
    (hs : Matches 1 32 isSymbolChar (upper py.special (strip symbol)))
    (hr : receivedAt.utcoffset.isSome) : Presentable py symbol totals latestPrice receivedAt where
  encodes := ⟨octets, hoctets⟩
  symbol := hs
  receivedAt := hr
  price := by rw [hv.price]; exact nofun
  volume := by rw [hv.volume]; exact nofun
  buyVolume := by rw [hv.buyVolume]; exact nofun
  sellVolume := by rw [hv.sellVolume]; exact nofun

/-- The outcome is that of the validators. -/
structure Validated (py : Python) (symbol : PyStr) (ticker : Option TickerState) (totals : Totals)
    (latestPrice : Extended PositiveDecimal) (tradeCount sequence : ℕ) (receivedAt : Datetime)
    (v : EventValues) (fields : QuoteFields) : Prop where
  values : v.Of ticker totals latestPrice
  of_values : ∃ s r id, fields = v.fields s totals.latestTimestamp r tradeCount sequence id
  outcome : quoteEvent py symbol ticker totals latestPrice tradeCount sequence receivedAt =
    match h : fields.validateMarket with
    | .error e => .error (ofValidator e)
    | .ok () => .ok { fields with valid := h }

/-- An event is made of its fields, validated. -/
theorem quoteEvent_eq {octets : List Byte} {fields : QuoteFields}
    (hoctets : encodeUtf8 (eventIdentity symbol totals.tradeIds) = some octets)
    (hfields : quoteFields py symbol ticker totals latestPrice tradeCount sequence (py.uuid5 octets)
      receivedAt = some fields) :
    quoteEvent py symbol ticker totals latestPrice tradeCount sequence receivedAt =
      match h : fields.validateMarket with
      | .error e => .error (ofValidator e)
      | .ok () => .ok { fields with valid := h } := by
  rw [quoteEvent, hoctets]
  show (orRaise _ (quoteFields _ _ _ _ _ _ _ _ _) >>= _) = _
  rw [hfields]
  rfl

/-- Presentable arguments and an ordered ticker come to the validators. -/
theorem Presentable.validated (h : Presentable py symbol totals latestPrice receivedAt)
    (hticker : ∀ t ∈ ticker, t.Ordered) : ∃ v fields,
      Validated py symbol ticker totals latestPrice tradeCount sequence receivedAt v fields := by
  obtain ⟨octets, hoctets⟩ := h.encodes
  obtain ⟨price, hprice⟩ := Extended.exists_finite h.price
  obtain ⟨volume, hvolume⟩ := Extended.exists_finite h.volume
  obtain ⟨buy, hbuy⟩ := Extended.exists_finite h.buyVolume
  obtain ⟨sell, hsell⟩ := Extended.exists_finite h.sellVolume
  obtain ⟨v, hv, -⟩ := EventValues.exists_of hticker hprice hvolume hbuy hsell
  have hfields : quoteFields py symbol ticker totals latestPrice tradeCount
    sequence (py.uuid5 octets)
      receivedAt = some (v.fields ⟨_, h.symbol⟩ totals.latestTimestamp ⟨receivedAt, h.receivedAt⟩
        tradeCount sequence (py.uuid5 octets)) :=
    quoteFields_eq_some.2 ⟨v, h.symbol, h.receivedAt, hv, rfl⟩
  exact ⟨v, _, hv, ⟨_, _, _, rfl⟩, quoteEvent_eq hoctets hfields⟩

/-- Arguments that do not come to the validators are refused by pydantic, or by the encoder. -/
theorem quoteEvent_cases :
    quoteEvent py symbol ticker totals latestPrice tradeCount sequence receivedAt =
    .error .valueError ∨
      Presentable py symbol totals latestPrice receivedAt ∧ ∃ v fields,
        Validated py symbol ticker totals latestPrice tradeCount sequence receivedAt v fields := by
  cases hoctets : encodeUtf8 (eventIdentity symbol totals.tradeIds) with
  | none =>
    left
    rw [quoteEvent, hoctets]
    rfl
  | some octets =>
    cases hfields : quoteFields py symbol ticker totals latestPrice tradeCount
      sequence (py.uuid5 octets)
        receivedAt with
    | none =>
      left
      rw [quoteEvent, hoctets]
      show (orRaise _ (quoteFields _ _ _ _ _ _ _ _ _) >>= _) = _
      rw [hfields]
      rfl
    | some fields =>
      right
      obtain ⟨v, hs, hr, hv, rfl⟩ := quoteFields_eq_some.1 hfields
      exact ⟨hv.presentable hoctets hs hr, v, _, hv, ⟨_, _, _, rfl⟩, quoteEvent_eq hoctets hfields⟩

/-- The sum of the sides does not exceed the volume. -/
def Totals.FlowFits (totals : Totals) : Prop :=
  ∀ volume buy sell, totals.volume = .finite volume → totals.buyVolume = .finite buy →
    totals.sellVolume = .finite sell →
    ∃ sum, PyDecimal.add buy.1 sell.1 = some sum ∧ sum.value ≤ volume.1.value

/-- The sum of the sides overflows. -/
def Totals.FlowOverflows (totals : Totals) : Prop :=
  ∃ buy sell, totals.buyVolume = .finite buy ∧ totals.sellVolume = .finite sell ∧
    PyDecimal.add buy.1 sell.1 = none

/-- An event is made if the ticker is usable and the flows fit. -/
theorem Validated.isOk_iff {v : EventValues}
    (h : Validated py symbol ticker totals latestPrice tradeCount sequence receivedAt v f) :
    (∃ e, quoteEvent py symbol ticker totals latestPrice tradeCount sequence receivedAt = .ok e) ↔
      (∀ t ∈ ticker, t.Usable) ∧ totals.FlowFits := by
  obtain ⟨hv, ⟨s, r, id, hf⟩, houtcome⟩ := h
  have hflow : totals.FlowFits ↔ ∃ sum, PyDecimal.add v.buyVolume.1 v.sellVolume.1 = some sum ∧
      sum.value ≤ v.volume.1.value := by
    constructor
    · exact fun h => h _ _ _ hv.volume hv.buyVolume hv.sellVolume
    · intro h volume buy sell hvolume hbuy hsell
      rw [← Extended.finite.inj (hv.volume.symm.trans hvolume),
        ← Extended.finite.inj (hv.buyVolume.symm.trans hbuy),
        ← Extended.finite.inj (hv.sellVolume.symm.trans hsell)]
      exact h
  have hvalid : (∃ e, quoteEvent py symbol ticker totals latestPrice tradeCount sequence
    receivedAt = .ok e) ↔
      f.validateMarket = .ok () := by
    rw [houtcome]
    split
    · rename_i hvalid
      simp [hvalid]
    · rename_i hvalid
      exact iff_of_true ⟨_, rfl⟩ hvalid
  rw [hvalid, validateMarket_eq_ok hf, hv.usable_iff, hflow]
  tauto

/-- To make an event escapes if the flows of an ordered ticker overflow. -/
theorem Validated.escapes_iff {v : EventValues}
    (h : Validated py symbol ticker totals latestPrice tradeCount sequence receivedAt v f) :
    Escapes (quoteEvent py symbol ticker totals latestPrice tradeCount sequence receivedAt) ↔
      (∀ t ∈ ticker, t.Ordered) ∧ totals.FlowOverflows := by
  obtain ⟨hv, ⟨s, r, id, hf⟩, houtcome⟩ := h
  have hflow : totals.FlowOverflows ↔ PyDecimal.add v.buyVolume.1 v.sellVolume.1 = none := by
    constructor
    · rintro ⟨buy, sell, hbuy, hsell, hnone⟩
      rwa [← Extended.finite.inj (hv.buyVolume.symm.trans hbuy),
        ← Extended.finite.inj (hv.sellVolume.symm.trans hsell)] at hnone
    · exact fun h => ⟨_, _, hv.buyVolume, hv.sellVolume, h⟩
  have hoverflow : Escapes
    (quoteEvent py symbol ticker totals latestPrice tradeCount sequence receivedAt) ↔
      f.validateMarket = .error .overflow := by
    rw [houtcome]
    split
    · rename_i e hvalid
      rw [escapes_error, hvalid]
      cases e <;> simp [ofValidator, Fault.isCaught]
    · rename_i hvalid
      simp [hvalid]
  rw [hoverflow, validateMarket_eq_overflow hf, hv.ordered_iff, hflow]

/-- An event is made exactly if its arguments are presentable, the ticker, if any, is usable, and
the sum of the sides does not exceed the volume. -/
theorem exists_quoteEvent_iff :
    (∃ e, quoteEvent py symbol ticker totals latestPrice tradeCount sequence receivedAt = .ok e) ↔
      Presentable py symbol totals latestPrice receivedAt ∧ (∀ t ∈ ticker, t.Usable) ∧
        totals.FlowFits := by
  constructor
  · rintro ⟨e, he⟩
    rcases quoteEvent_cases with herror | ⟨hpresentable, v, fields, hvalidated⟩
    · cases herror.symm.trans he
    · exact ⟨hpresentable, hvalidated.isOk_iff.1 ⟨e, he⟩⟩
  · rintro ⟨hpresentable, hticker, hflow⟩
    obtain ⟨v, fields, hvalidated⟩ := hpresentable.validated fun t ht => (hticker t ht).toOrdered
    exact hvalidated.isOk_iff.2 ⟨hticker, hflow⟩

/-- What escapes is an overflow of the sum of the sides, with presentable arguments and an ordered
ticker. -/
theorem escapes_quoteEvent :
    Escapes (quoteEvent py symbol ticker totals latestPrice tradeCount sequence receivedAt) ↔
      Presentable py symbol totals latestPrice receivedAt ∧ (∀ t ∈ ticker, t.Ordered) ∧
        totals.FlowOverflows := by
  constructor
  · intro h
    rcases quoteEvent_cases with herror | ⟨hpresentable, v, fields, hvalidated⟩
    · rw [herror, escapes_error] at h
      cases h
    · exact ⟨hpresentable, hvalidated.escapes_iff.1 h⟩
  · rintro ⟨hpresentable, hticker, hflow⟩
    obtain ⟨v, fields, hvalidated⟩ := hpresentable.validated hticker
    exact hvalidated.escapes_iff.2 ⟨hticker, hflow⟩

end Values

end MarketDataGateway.Coinbase
