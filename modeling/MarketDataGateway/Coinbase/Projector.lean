import Mathlib.Data.List.Lex
import Mathlib.Logic.Function.Basic
import MarketDataGateway.Coinbase.Values
import MarketDataGateway.Lib.Grouping

/-!
# The projector of Coinbase messages

`CoinbaseMessageProjector` of `providers/coinbase.py`: the tickers that it keeps, the local sequence
of each symbol, and `apply`, which returns the events of a message or raises a fault. What a call
has done to the maps before it raises stays.
-/

namespace MarketDataGateway.Coinbase

open Lib Models

/-- `_TickerState`. -/
structure TickerState where
  /-- `price`. -/
  price : Extended PositiveDecimal
  /-- `bid`. -/
  bid : Option (Extended PositiveDecimal)
  /-- `ask`. -/
  ask : Option (Extended PositiveDecimal)
  /-- `bid_quantity`. -/
  bidQuantity : Option (Extended NonNegativeDecimal)
  /-- `ask_quantity`. -/
  askQuantity : Option (Extended NonNegativeDecimal)
  /-- `provider_timestamp`. -/
  providerTimestamp : AwareDatetime
  deriving DecidableEq

/-- `CoinbaseMessageProjector`. -/
@[ext]
structure Projector where
  /-- `_ticker_by_symbol`. -/
  tickerBySymbol : PyStr → Option TickerState
  /-- `_sequence_by_symbol`, whose default is zero. -/
  sequenceBySymbol : PyStr → ℕ

/-- A new projector. -/
def Projector.new : Projector := ⟨fun _ => none, fun _ => 0⟩

/-- `clear_connection_state`. -/
def Projector.clearConnectionState (p : Projector) : Projector :=
  { p with tickerBySymbol := fun _ => none }

/-- `self._ticker_by_symbol[symbol] = ticker`. -/
def Projector.setTicker (p : Projector) (symbol : PyStr) (ticker : TickerState) : Projector :=
  { p with tickerBySymbol := Function.update p.tickerBySymbol symbol (some ticker) }

/-- `self._sequence_by_symbol[symbol] += 1`. -/
def Projector.count (p : Projector) (symbol : PyStr) : Projector :=
  { p with
    sequenceBySymbol := Function.update p.sequenceBySymbol symbol (p.sequenceBySymbol symbol + 1) }

/-! ## Tickers -/

/-- The symbol of a ticker and its `_TickerState`. -/
def readTicker (py : Python) (messageTimestamp : AwareDatetime) (ticker : Mapping) :
    Except Fault (PyStr × TickerState) := do
  let symbol ← symbolOf py (get ticker "product_id")
  let price ← positiveDecimal py (get ticker "price") "price"
  let bid ← optionalPositiveDecimal py (get ticker "best_bid") "best_bid"
  let ask ← optionalPositiveDecimal py (get ticker "best_ask") "best_ask"
  let bidQuantity ←
    optionalNonNegativeDecimal py (get ticker "best_bid_quantity") "best_bid_quantity"
  let askQuantity ←
    optionalNonNegativeDecimal py (get ticker "best_ask_quantity") "best_ask_quantity"
  .ok (symbol, ⟨price, bid, ask, bidQuantity, askQuantity, messageTimestamp⟩)

/-- The body of the loop over the tickers of an event. -/
def Projector.applyOne (py : Python) (messageTimestamp : AwareDatetime) (p : Projector)
    (ticker : Mapping) : Except Fault Unit × Projector :=
  match readTicker py messageTimestamp ticker with
  | .error f => (.error f, p)
  | .ok (symbol, state) => (.ok (), p.setTicker symbol state)

/-- The body of the loop over the events of a ticker message. -/
def Projector.applyTickerEvent (py : Python) (messageTimestamp : AwareDatetime) (p : Projector)
    (event : Mapping) : Except Fault Unit × Projector :=
  match mappingSequence (get event "tickers") "tickers" with
  | .error f => (.error f, p)
  | .ok tickers => forEach (applyOne py messageTimestamp) p tickers

/-- `_apply_ticker`. -/
def Projector.applyTicker (py : Python) (p : Projector) (payload : Mapping) :
    Except Fault Unit × Projector :=
  match timestamp py (get payload "timestamp") "timestamp" with
  | .error f => (.error f, p)
  | .ok messageTimestamp =>
    match mappingSequence (get payload "events") "events" with
    | .error f => (.error f, p)
    | .ok events => forEach (applyTickerEvent py messageTimestamp) p events

/-! ## Sums of trades -/

/-- What the loop over the trades of a symbol accumulates. -/
structure Totals where
  /-- `total_volume`. -/
  volume : Extended NonNegativeDecimal
  /-- `aggressive_buy_volume`. -/
  buyVolume : Extended NonNegativeDecimal
  /-- `aggressive_sell_volume`. -/
  sellVolume : Extended NonNegativeDecimal
  /-- `trade_ids`. -/
  tradeIds : List PyStr
  /-- `latest_price`. -/
  latestPrice : Option (Extended PositiveDecimal)
  /-- `latest_timestamp`. -/
  latestTimestamp : AwareDatetime

/-- `Decimal("0")`. -/
def zero : NonNegativeDecimal :=
  ⟨⟨false, 0, 0⟩, le_of_eq (by simp [PyDecimal.value, PyDecimal.signed])⟩

/-- The totals before the first trade. -/
def Totals.initial (messageTimestamp : AwareDatetime) : Totals :=
  ⟨.finite zero, .finite zero, .finite zero, [], none, messageTimestamp⟩

/-- `total += size`. -/
def addSize : Extended NonNegativeDecimal → Extended NonNegativeDecimal →
    Except Fault (Extended NonNegativeDecimal)
  | .finite total, .finite size =>
    match h : PyDecimal.add total.1 size.1 with
    | none => .error .overflow
    | some sum => .ok (.finite ⟨sum, PyDecimal.add_nonneg h total.2 size.2⟩)
  | _, _ => .ok .infinite

/-- The side of the maker. -/
inductive MakerSide
  /-- `BUY`. -/
  | buy
  /-- `SELL`. -/
  | sell
  deriving DecidableEq

/-- `maker_side`. -/
def makerSide (py : Python) (trade : Mapping) : Except Fault MakerSide := do
  let side := upper py.special (strip (← py.str (getOrEmpty trade "side")))
  if side = text "SELL" then .ok .sell
  else if side = text "BUY" then .ok .buy
  else .error (.protocolError "trade side must be BUY or SELL")

/-- Adds the size of a trade to the flow that its maker's side faces. -/
def Totals.addFlow (totals : Totals) (side : MakerSide) (size : Extended NonNegativeDecimal) :
    Except Fault Totals := do
  match side with
  | .sell =>
    let buyVolume ← addSize totals.buyVolume size
    .ok { totals with buyVolume }
  | .buy =>
    let sellVolume ← addSize totals.sellVolume size
    .ok { totals with sellVolume }

/-- `trade_id`. -/
def tradeId (py : Python) (trade : Mapping) : Except Fault PyStr := do
  let id := strip (← py.str (getOrEmpty trade "trade_id"))
  if id = [] then .error (.protocolError "trade_id must not be empty") else .ok id

/-- `parsed_trade_time`, if the trade has a time. -/
def tradeTime (py : Python) (trade : Mapping) : Except Fault (Option AwareDatetime) :=
  match get trade "time" with
  | .null => .ok none
  | time => (timestamp py time "trade.time").map some

/-- The later one of the latest time so far and the time of a trade. -/
def later (latest : AwareDatetime) : Option AwareDatetime → AwareDatetime
  | none => latest
  | some time => if latest.1.instant < time.1.instant then time else latest

/-- The body of the loop over the trades of a symbol. -/
def addTrade (py : Python) (totals : Totals) (trade : Mapping) : Except Fault Totals := do
  let size ← nonNegativeDecimal py (get trade "size") "size"
  let price ← positiveDecimal py (get trade "price") "price"
  let side ← makerSide py trade
  let totals ← totals.addFlow side size
  let id ← tradeId py trade
  let volume ← addSize totals.volume size
  let time ← tradeTime py trade
  .ok { totals with
    volume
    tradeIds := totals.tradeIds ++ [id]
    latestPrice := some price
    latestTimestamp := later totals.latestTimestamp time }

/-- The loop over the trades of a symbol. -/
def sumTrades (py : Python) (messageTimestamp : AwareDatetime) (trades : List Mapping) :
    Except Fault Totals :=
  trades.foldlM (addTrade py) (.initial messageTimestamp)

/-! ## Events -/

/-- `COINBASE_PROVIDER_NAME`. -/
def providerName : PyStr := text "coinbase-advanced-trade"

/-- `event_identity`. -/
def eventIdentity (symbol : PyStr) (tradeIds : List PyStr) : PyStr :=
  (text ":").intercalate [providerName, symbol, (text ",").intercalate tradeIds]

/-- `volume_semantics`. -/
def volumeSemantics : VolumeSemantics where
  kind := .interval
  unit := .baseAsset
  -- `COINBASE_TRADE_BATCH_WINDOW_MS`
  aggregationWindowMs := some ⟨250, by decide⟩
  currency := none
  origin := .gatewayDerived
  valid := rfl

/-- The semantics of the depth of a ticker with both quantities. -/
def topOfBook : DepthSemantics where
  unit := .baseAsset
  levels := ⟨1, Models.topOfBook_levels⟩
  currency := none
  origin := .native
  valid := rfl

/-- `capabilities`. -/
def capabilities (depthKnown : Bool) : Finset MarketEvidenceCapability :=
  if depthKnown then {.level1Quote, .volume, .aggressorFlow, .tradeCount, .topOfBookDepth}
  else {.level1Quote, .volume, .aggressorFlow, .tradeCount}

/-- A `Decimal` field of pydantic takes no infinity. -/
def Extended.finite? {α : Type} : Extended α → Option α
  | .finite x => some x
  | .infinite => none

/-- The same for an optional field. -/
def optionalField {α : Type} : Option (Extended α) → Option (Option α)
  | none => some none
  | some x => x.finite?.map some

/-- The arguments of `QuoteEvent`, as its fields. -/
def eventFields (symbol : Models.Symbol) (price : PositiveDecimal)
    (bid ask : Option PositiveDecimal)
    (volume buyVolume sellVolume : NonNegativeDecimal)
    (bidDepth askDepth : Option NonNegativeDecimal)
    (depthKnown : Bool) (providerTimestamp receivedAt : AwareDatetime) (tradeCount sequence : ℕ)
    (eventId : EventId) : QuoteFields where
  schemaVersion := ⟨text "1.1", Models.isSchemaVersion_current⟩
  eventId
  symbol
  price
  bid
  ask
  providerTimestamp
  receivedAt
  sequence := some ⟨sequence, Int.natCast_nonneg sequence⟩
  provider := ⟨providerName, by decide⟩
  capabilities := capabilities depthKnown
  volume := some volume
  buyVolume := some buyVolume
  sellVolume := some sellVolume
  tradeCount := some ⟨tradeCount, Int.natCast_nonneg tradeCount⟩
  bidDepth
  askDepth
  volumeSemantics := some volumeSemantics
  depthSemantics := if depthKnown then some topOfBook else none

/-- The fields of the event, which pydantic validates one by one. -/
def quoteFields (py : Python) (symbol : PyStr) (ticker : Option TickerState) (totals : Totals)
    (latestPrice : Extended PositiveDecimal) (tradeCount sequence : ℕ) (eventId : EventId)
    (receivedAt : Datetime) : Option QuoteFields := do
  let bidDepth := ticker.bind TickerState.bidQuantity
  let askDepth := ticker.bind TickerState.askQuantity
  let depthKnown := bidDepth.isSome && askDepth.isSome
  let symbol := upper py.special (strip symbol)
  let price ← latestPrice.finite?
  let bid ← optionalField (ticker.bind TickerState.bid)
  let ask ← optionalField (ticker.bind TickerState.ask)
  let volume ← totals.volume.finite?
  let buyVolume ← totals.buyVolume.finite?
  let sellVolume ← totals.sellVolume.finite?
  let bidDepth ← optionalField bidDepth
  let askDepth ← optionalField askDepth
  if h : Matches 1 32 isSymbolChar symbol ∧ receivedAt.utcoffset.isSome then
    some (eventFields ⟨symbol,
      h.1⟩ price bid ask volume buyVolume sellVolume bidDepth askDepth depthKnown
      totals.latestTimestamp ⟨receivedAt, h.2⟩ tradeCount sequence eventId)
  else none

/-- What the error of a validator is to a caller of pydantic. -/
def ofValidator : ValidatorError → Fault
  | .valueError _ => .valueError
  | .overflow => .overflow

/-- `QuoteEvent(…)`, whose identifier is hashed first. -/
def quoteEvent (py : Python) (symbol : PyStr) (ticker : Option TickerState) (totals : Totals)
    (latestPrice : Extended PositiveDecimal) (tradeCount sequence : ℕ) (receivedAt : Datetime) :
    Except Fault Models.QuoteEvent := do
  let octets ← orRaise .valueError (encodeUtf8 (eventIdentity symbol totals.tradeIds))
  let fields ← orRaise .valueError
    (quoteFields py symbol ticker totals latestPrice tradeCount sequence
    (py.uuid5 octets) receivedAt)
  match h : fields.validateMarket with
  | .error e => .error (ofValidator e)
  | .ok () => .ok { fields with valid := h }

/-- `_build_quote_event`. -/
def Projector.buildQuoteEvent (py : Python) (messageTimestamp : AwareDatetime)
    (receivedAt : Datetime)
    (p : Projector) (symbol : PyStr) (trades : List Mapping) :
    Except Fault Models.QuoteEvent × Projector :=
  match sumTrades py messageTimestamp trades with
  | .error f => (.error f, p)
  | .ok totals =>
    match totals.latestPrice with
    | none => (.error (.protocolError "market_trades event contains no trades"), p)
    | some latestPrice =>
      -- The sequence is counted before the event is validated.
      (quoteEvent py symbol (p.tickerBySymbol symbol) totals latestPrice trades.length
        (p.sequenceBySymbol symbol + 1) receivedAt, p.count symbol)

/-! ## Messages -/

/-- The symbol of a trade, with the trade. -/
def readTrade (py : Python) (trade : Mapping) : Except Fault (PyStr × Mapping) := do
  .ok (← symbolOf py (get trade "product_id"), trade)

/-- The trades of an event, with their symbols. -/
def eventTrades (py : Python) (event : Mapping) : Except Fault (List (PyStr × Mapping)) := do
  (← mappingSequence (get event "trades") "trades").mapM (readTrade py)

/-- The trades of a message, with their symbols. -/
def messageTrades (py : Python) (payload : Mapping) : Except Fault (List (PyStr × Mapping)) := do
  let events ← mappingSequence (get payload "events") "events"
  let trades ← events.mapM (eventTrades py)
  .ok trades.flatten

/-- `sorted(trades_by_symbol.items())`, whose keys differ. -/
def tradesBySymbol (trades : List (PyStr × Mapping)) : List (PyStr × List (PyStr × Mapping)) :=
  (groupOn Prod.fst trades).insertionSort fun a b => a.1 ≤ b.1

/-- `_project_trades`. -/
def Projector.projectTrades (py : Python) (receivedAt : Datetime) (p : Projector)
    (payload : Mapping) :
    Except Fault (List Models.QuoteEvent) × Projector :=
  match timestamp py (get payload "timestamp") "timestamp" with
  | .error f => (.error f, p)
  | .ok messageTimestamp =>
    match messageTrades py payload with
    | .error f => (.error f, p)
    | .ok trades =>
      runAll (fun p group => buildQuoteEvent py messageTimestamp receivedAt p group.1
        (group.2.map Prod.snd)) p (tradesBySymbol trades)

/-- `apply`. -/
def Projector.apply (py : Python) (receivedAt : Datetime) (p : Projector) (payload : Mapping) :
    Except Fault (List Models.QuoteEvent) × Projector :=
  match py.str (getOrEmpty payload "channel") with
  | .error f => (.error f, p)
  | .ok channel =>
    if channel = text "ticker" then
      match p.applyTicker py payload with
      | (.error f, p) => (.error f, p)
      | (.ok (), p) => (.ok [], p)
    else if channel = text "market_trades" then p.projectTrades py receivedAt payload
    else (.ok [], p)

/-! ## Samples -/

/-- Python's functions, for the values of the samples. -/
def samplePython : Python where
  special c := [c]
  digit _ := none
  repr _ := some (text "[]")
  exceedsDepth _ := false
  fromisoformat s :=
    if s = text "2024-01-01T00:00:00+00:00" then some ⟨1704067200 * second, some 0⟩
    else if s = text "2024-01-01T00:00:01+00:00" then some ⟨1704067201 * second, some 0⟩
    else none
  uuid5 octets :=
    if some octets = encodeUtf8 (text "coinbase-advanced-trade:BTC-USD:1,2") then
      273207243659429713144632722128034608177
    else 203264423783204545940831879148158237040

/-- A message of a channel with one event, whose items are under the given name. -/
def sampleMessage (channel items : String) (rows : List Mapping) : Mapping :=
  [(text "channel", .str (text channel)), (text "timestamp", .str (text "2024-01-01T00:00:00Z")),
    (text "events", .list [.dict [(text items, .list (rows.map .dict))]])]

/-- A trade of BTC-USD. -/
def sampleTrade (id side size price time : String) : Mapping :=
  [(text "product_id", .str (text "BTC-USD")), (text "trade_id", .str (text id)),
    (text "side", .str (text side)), (text "size", .str (text size)),
    (text "price", .str (text price)),
    (text "time", .str (text time))]

/-- A ticker. -/
def sampleTicker (symbol price bid ask bidQuantity askQuantity : String) : Mapping :=
  [(text "product_id", .str (text symbol)), (text "price", .str (text price)),
    (text "best_bid", .str (text bid)), (text "best_ask", .str (text ask)),
    (text "best_bid_quantity", .str (text bidQuantity)),
    (text "best_ask_quantity", .str (text askQuantity))]

/-- A whole number as a price, at least one. -/
def samplePrice (price : ℕ) : PositiveDecimal :=
  ⟨⟨false, max 1 price, 0⟩,
    PyDecimal.value_pos.2 (Int.natCast_pos.2 (lt_max_of_lt_left one_pos))⟩

/-- A positive whole number is the value of its price. -/
theorem value_samplePrice {price : ℕ} (h : 0 < price) : (samplePrice price).1.value = price := by
  have hmax : max 1 price = price := max_eq_right h
  simp [samplePrice, PyDecimal.value, PyDecimal.signed, hmax]

/-- Fifteen tenths are not negative. -/
theorem value_nonneg_fifteenTenths : 0 ≤ (⟨false, 15, -1⟩ : PyDecimal).value :=
  PyDecimal.value_nonneg.2 (by decide)

/-- The first instant of 2024 has an offset. -/
theorem isSome_utcoffset_newYear :
    (⟨1704067200 * second, some 0⟩ : Datetime).utcoffset.isSome := rfl

/-- A message with two trades of BTC-USD. -/
def twoTrades : Mapping :=
  sampleMessage "market_trades" "trades" [sampleTrade "1" "SELL" "1.5" "100" "2024-01-01T00:00:00Z",
    sampleTrade "2" "BUY" "0.5" "99" "2024-01-01T00:00:01Z"]

end MarketDataGateway.Coinbase
