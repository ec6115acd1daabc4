import MarketDataGateway.Coinbase.Poison

/-!
# What escapes from a message

For which messages `apply` raises what is neither a `TypeError` nor a `ValueError`. A message is
read value by value, and `ValueRead` says of each whether it is accepted and whether reading it
escapes. What escapes is the first value that is not accepted, if reading it does (`StopsAt`): a
value that nests too deep for `str`, a NaN where a number is compared with zero, or a sum that
overflows. `escapes_apply` is this for messages.
-/

namespace MarketDataGateway.Coinbase

open Lib Models

/-! ## Values that are read one after another -/

/-- A value that is read. -/
structure ValueRead where
  /-- It is accepted. -/
  accepted : Prop
  /-- Reading it escapes. -/
  stops : Prop

/-- A value that a helper reads, with when that escapes. -/
def ValueRead.of {α : Type} (x : Except Fault α) (stops : Prop) : ValueRead :=
  ⟨∃ a, x = .ok a, stops⟩

/-- A sum, with when it overflows. -/
def ValueRead.sum (overflows : Prop) : ValueRead := ⟨¬overflows, overflows⟩

/-- Of the values, the first that is not accepted escapes. -/
def StopsAt : List ValueRead → Prop := FirstIs ValueRead.accepted ValueRead.stops

/-- The value nests too deep for `str`, or is a NaN. -/
def NoNumber (py : Python) (value : Json) : Prop := TooDeep py value ∨ IsNaN py value

/-- The computation reads the values one after another. -/
structure Reads {α : Type} (x : Except Fault α) (values : List ValueRead) : Prop where
  isOk : (∃ a, x = .ok a) ↔ ∀ r ∈ values, r.accepted
  escapes : Escapes x ↔ StopsAt values

section Reads

variable {α β : Type} {x : Except Fault α} {f : α → Except Fault β} {r : ValueRead}
  {values : List ValueRead}

/-- What is given reads no values. -/
theorem reads_ok {a : α} : Reads (.ok a : Except Fault α) [] where
  isOk := iff_of_true ⟨a, rfl⟩ (List.forall_mem_nil _)
  escapes := iff_of_false not_escapes_ok not_firstIs_nil

/-- A value is read before others. -/
theorem Reads.bind (hok : (∃ a, x = .ok a) ↔ r.accepted) (hstops : Escapes x ↔ r.stops)
    (h : ∀ a, x = .ok a → Reads (f a) values) : Reads (x >>= f) (r :: values) where
  isOk := by
    rw [List.forall_mem_cons, ← hok]
    simp only [bind_eq_ok]
    constructor
    · rintro ⟨b, a, ha, hb⟩
      exact ⟨⟨a, ha⟩, (h a ha).isOk.1 ⟨b, hb⟩⟩
    · rintro ⟨⟨a, ha⟩, hvalues⟩
      obtain ⟨b, hb⟩ := (h a ha).isOk.2 hvalues
      exact ⟨b, a, ha, hb⟩
  escapes := by
    rw [StopsAt, firstIs_cons, ← hok, ← hstops, escapes_bind]
    refine or_congr_right ⟨?_, ?_⟩
    · rintro ⟨a, ha, hf⟩
      exact ⟨⟨a, ha⟩, (h a ha).escapes.1 hf⟩
    · rintro ⟨⟨a, ha⟩, hvalues⟩
      exact ⟨a, ha, (h a ha).escapes.2 hvalues⟩

/-- A value and what is read after it are read one after the other. -/
theorem Reads.of {stops : Prop} (hstops : Escapes x ↔ stops)
    (h : ∀ a, x = .ok a → Reads (f a) values) :
    Reads (x >>= f) (.of x stops :: values) :=
  .bind Iff.rfl hstops h

end Reads

section Leaves

variable {py : Python} {value : Json} {field : String} {trade : Mapping}

/-- An optional positive decimal stops at what is no number only. -/
theorem escapes_optionalPositiveDecimal :
    Escapes (optionalPositiveDecimal py value field) ↔ NoNumber py value :=
  escapes_optional fun _ => escapes_positiveDecimal

/-- An optional non-negative decimal stops at what is no number only. -/
theorem escapes_optionalNonNegativeDecimal :
    Escapes (optionalNonNegativeDecimal py value field) ↔ NoNumber py value :=
  escapes_optional fun _ => escapes_nonNegativeDecimal

/-- The maker side stops at a value that nests too deep. -/
theorem escapes_makerSide : Escapes (makerSide py trade) ↔
    TooDeep py (getOrEmpty trade "side") := by
  rw [makerSide, escapes_bind, escapes_str, or_iff_left]
  rintro ⟨s, -, h⟩
  dsimp only at h
  split_ifs at h <;> simp [Fault.isCaught] at h

/-- The trade id stops at a value that nests too deep. -/
theorem escapes_tradeId : Escapes (tradeId py trade) ↔
    TooDeep py (getOrEmpty trade "trade_id") := by
  rw [tradeId, escapes_bind, escapes_str, or_iff_left]
  rintro ⟨s, -, h⟩
  dsimp only at h
  split_ifs at h <;> simp [Fault.isCaught] at h

/-- What is made of a result escapes if the result does. -/
theorem escapes_map {α β : Type} {x : Except Fault α} {f : α → β} :
    Escapes (x.map f) ↔ Escapes x := by
  cases x <;> simp [Except.map]

/-- The time of a trade stops at a value that nests too deep. -/
theorem escapes_tradeTime : Escapes (tradeTime py trade) ↔ TooDeep py (get trade "time") := by
  unfold tradeTime
  split
  · rename_i hnull
    rw [hnull]
    exact iff_of_false not_escapes_ok nofun
  · rw [escapes_map, escapes_timestamp]

/-- The sum of the two overflows. -/
def SumOverflows (total size : Extended NonNegativeDecimal) : Prop :=
  ∃ a b, total = .finite a ∧ size = .finite b ∧ PyDecimal.add a.1 b.1 = none

/-- A size that is added overflows, or has a sum. -/
theorem addSize_cases (total size : Extended NonNegativeDecimal) :
    SumOverflows total size ∧ addSize total size = .error .overflow ∨
      ¬SumOverflows total size ∧ ∃ sum, addSize total size = .ok sum := by
  unfold addSize
  split
  · rename_i a b
    split
    · rename_i hnone
      exact Or.inl ⟨⟨a, b, rfl, rfl, hnone⟩, rfl⟩
    · rename_i sum hsum
      refine Or.inr ⟨?_, _, rfl⟩
      rintro ⟨a', b', ha, hb, hnone⟩
      rw [← Extended.finite.inj ha, ← Extended.finite.inj hb, hsum] at hnone
      cases hnone
  · rename_i hinfinite
    refine Or.inr ⟨?_, _, rfl⟩
    rintro ⟨a, b, rfl, rfl, -⟩
    exact hinfinite a b rfl rfl

/-- A size that is added stops at an overflow only. -/
theorem escapes_addSize {total size : Extended NonNegativeDecimal} :
    Escapes (addSize total size) ↔ SumOverflows total size := by
  obtain ⟨h, heq⟩ | ⟨h, sum, heq⟩ := addSize_cases total size
  · rw [heq]
    exact iff_of_true (escapes_error.2 rfl) h
  · rw [heq]
    exact iff_of_false not_escapes_ok h

/-- A size has a sum where it does not overflow. -/
theorem addSize_isOk {total size : Extended NonNegativeDecimal} :
    (∃ sum, addSize total size = .ok sum) ↔ ¬SumOverflows total size := by
  obtain ⟨h, heq⟩ | ⟨h, sum, heq⟩ := addSize_cases total size
  · rw [heq]
    exact iff_of_false nofun (not_not.2 h)
  · exact iff_of_true ⟨sum, heq⟩ h

end Leaves

/-! ## Tickers -/

/-- The values of a ticker. -/
def tickerValues (py : Python) (ticker : Mapping) : List ValueRead :=
  [.of (symbolOf py (get ticker "product_id")) (TooDeep py (orEmpty (get ticker "product_id"))),
    .of (positiveDecimal py (get ticker "price") "price") (NoNumber py (get ticker "price")),
    .of (optionalPositiveDecimal py (get ticker "best_bid") "best_bid")
    (NoNumber py (get ticker "best_bid")),
    .of (optionalPositiveDecimal py (get ticker "best_ask") "best_ask")
    (NoNumber py (get ticker "best_ask")),
    .of (optionalNonNegativeDecimal py (get ticker "best_bid_quantity") "best_bid_quantity")
      (NoNumber py (get ticker "best_bid_quantity")),
    .of (optionalNonNegativeDecimal py (get ticker "best_ask_quantity") "best_ask_quantity")
      (NoNumber py (get ticker "best_ask_quantity"))]

/-- A ticker reads its values one after another. -/
theorem reads_readTicker {py : Python} {messageTimestamp : AwareDatetime} {ticker : Mapping} :
    Reads (readTicker py messageTimestamp ticker) (tickerValues py ticker) := by
  apply Reads.of escapes_symbolOf
  intro symbol _
  apply Reads.of escapes_positiveDecimal
  intro price _
  apply Reads.of escapes_optionalPositiveDecimal
  intro bid _
  apply Reads.of escapes_optionalPositiveDecimal
  intro ask _
  apply Reads.of escapes_optionalNonNegativeDecimal
  intro bidQuantity _
  apply Reads.of escapes_optionalNonNegativeDecimal
  intro askQuantity _
  exact reads_ok

/-! ## Messages -/

/-- The rows of an event are objects all of whose values are accepted. -/
def RowsAccepted (name : String) (values : Mapping → List ValueRead) (event : Mapping) : Prop :=
  ∃ rows : List Mapping, get event name = .list (rows.map .dict) ∧
    ∀ row ∈ rows, ∀ r ∈ values row, r.accepted

/-- The rows of an event are objects, and the first value of them that is not accepted escapes. -/
def RowsStop (name : String) (values : Mapping → List ValueRead) (event : Mapping) : Prop :=
  ∃ rows : List Mapping, get event name = .list (rows.map .dict) ∧
    FirstIs (fun row => ∀ r ∈ values row, r.accepted) (fun row => StopsAt (values row)) rows

/-- The events of a message are objects, and the first of them whose rows are not accepted
escapes. -/
def EventsStop (name : String) (values : Mapping → List ValueRead) (payload : Mapping) : Prop :=
  ∃ events : List Mapping, get payload "events" = .list (events.map .dict) ∧
    FirstIs (RowsAccepted name values) (RowsStop name values) events

/-- The time of a ticker message escapes, or else the first value of its tickers that is not
accepted. -/
def TickersStop (py : Python) (payload : Mapping) : Prop :=
  TooDeep py (get payload "timestamp") ∨
    (∃ t, timestamp py (get payload "timestamp") "timestamp" = .ok t) ∧
      EventsStop "tickers" (tickerValues py) payload

section Messages

variable {py : Python} {value : Json} {name field : String} {values : Mapping → List ValueRead}
  {event payload : Mapping}

/-- A list of rows stops where the rows do. -/
theorem escapes_mappingSequence_bind {α : Type} {f : List Mapping → Except Fault α} :
    Escapes (mappingSequence value field >>= f) ↔
      ∃ rows : List Mapping, value = .list (rows.map .dict) ∧ Escapes (f rows) := by
  rw [escapes_bind, or_iff_right not_escapes_mappingSequence]
  simp only [mappingSequence_eq_ok]

/-- The rows of an event stop at the first value that does. -/
theorem escapes_rows {α : Type} {f : Mapping → Except Fault α}
    (hf : ∀ row, Reads (f row) (values row)) :
    Escapes (mappingSequence (get event name) field >>= fun rows => rows.mapM f) ↔
      RowsStop name values event := by
  rw [escapes_mappingSequence_bind]
  refine exists_congr fun rows => and_congr_right fun _ => ?_
  refine failsWith_mapM.trans (firstIs_congr ?_ ?_)
  · exact fun row _ => (hf row).isOk
  · exact fun row _ => (hf row).escapes

/-- The rows of an event are all read if each of their values is. -/
theorem rows_isOk {α : Type} {f : Mapping → Except Fault α}
    (hf : ∀ row, Reads (f row) (values row)) :
    (∃ ys, (mappingSequence (get event name) field >>= fun rows => rows.mapM f) = .ok ys) ↔
      RowsAccepted name values event := by
  simp only [bind_eq_ok, mappingSequence_eq_ok]
  rw [exists_comm]
  refine exists_congr fun rows => ?_
  rw [exists_and_left, mapM_isOk]
  exact and_congr_right fun _ => forall₂_congr fun row _ => (hf row).isOk

/-- The reads of an event are its rows, or the fault of the array. -/
theorem firstIs_eventReads {messageTimestamp : AwareDatetime} :
    FirstIs (fun x => ∃ y, x = .ok y) Escapes (eventReads py messageTimestamp event) ↔
      RowsStop "tickers" (tickerValues py) event := by
  unfold eventReads RowsStop
  have hrows := @mappingSequence_eq_ok (get event "tickers") "tickers"
  cases hsequence : mappingSequence (get event "tickers") "tickers" with
  | error f =>
    have hcaught : ¬Escapes (.error f : Except Fault (PyStr × TickerState)) := by
      have hnot := @not_escapes_mappingSequence (get event "tickers") "tickers"
      rw [hsequence, escapes_error] at hnot
      rwa [escapes_error]
    rw [firstIs_cons]
    refine iff_of_false ?_ ?_
    · rintro (h | ⟨-, h⟩)
      · exact hcaught h
      · exact not_firstIs_nil h
    · rintro ⟨rows, h, -⟩
      cases hsequence.symm.trans (hrows.2 h)
  | ok tickers =>
    have hlist := hrows.1 hsequence
    dsimp only
    rw [firstIs_map, firstIs_congr (fun row _ => reads_readTicker.isOk) fun row _ =>
      reads_readTicker.escapes]
    constructor
    · exact fun h => ⟨tickers, hlist, h⟩
    · rintro ⟨rows, h, hfirst⟩
      rwa [← map_dict_inj (h.symm.trans hlist)]

/-- The tickers of an event are all read if each of their values is. -/
theorem eventReads_isOk {messageTimestamp : AwareDatetime} :
    (∀ x ∈ eventReads py messageTimestamp event, ∃ y, x = .ok y) ↔
      RowsAccepted "tickers" (tickerValues py) event := by
  unfold eventReads RowsAccepted
  have hrows := @mappingSequence_eq_ok (get event "tickers") "tickers"
  cases hsequence : mappingSequence (get event "tickers") "tickers" with
  | error f =>
    refine iff_of_false (fun h => ?_) ?_
    · obtain ⟨y, hy⟩ := h _ List.mem_cons_self
      cases hy
    · rintro ⟨rows, h, -⟩
      cases hsequence.symm.trans (hrows.2 h)
  | ok tickers =>
    have hlist := hrows.1 hsequence
    dsimp only
    rw [List.forall_mem_map]
    constructor
    · exact fun h => ⟨tickers, hlist, fun row hrow => reads_readTicker.isOk.1 (h row hrow)⟩
    · rintro ⟨rows, h, haccepted⟩ row hrow
      rw [map_dict_inj (hlist.symm.trans h)] at hrow
      exact reads_readTicker.isOk.2 (haccepted row hrow)

/-- The tickers of a message stop at the first value that does. -/
theorem escapes_tickerReads : Escapes (firstFault (tickerReads py payload)) ↔
    TickersStop py payload := by
  unfold TickersStop tickerReads
  rw [← @escapes_timestamp py _ "timestamp"]
  cases htimestamp : timestamp py (get payload "timestamp") "timestamp" with
  | error f =>
    -- The timestamp is read first. If it cannot be, nothing else is.
    rw [firstFault, escapes_error, escapes_error, or_iff_left]
    rintro ⟨⟨t, h⟩, -⟩
    cases h
  | ok t =>
    rw [or_iff_right not_escapes_ok, and_iff_right ⟨t, rfl⟩]
    have hevents := @mappingSequence_eq_ok (get payload "events") "events"
    unfold EventsStop
    cases hsequence : mappingSequence (get payload "events") "events" with
    | error f =>
      -- That the events are no sequence is an error which is caught.
      have hcaught := @not_escapes_mappingSequence (get payload "events") "events"
      rw [hsequence, escapes_error] at hcaught
      refine iff_of_false (fun h => hcaught (escapes_error.1 h)) ?_
      rintro ⟨events, h, -⟩
      cases hsequence.symm.trans (hevents.2 h)
    | ok events =>
      have hlist := hevents.1 hsequence
      -- The rows are read in their order, so that the first one that fails decides.
      have hfirst : Escapes (firstFault (events.flatMap (eventReads py t))) ↔
          FirstIs (RowsAccepted "tickers" (tickerValues py))
          (RowsStop "tickers" (tickerValues py)) events := by
        refine failsWith_firstFault.trans (firstIs_flatMap.trans ?_)
        exact firstIs_congr (fun event _ => eventReads_isOk) fun event _ => firstIs_eventReads
      rw [hfirst]
      constructor
      · exact fun h => ⟨events, hlist, h⟩
      · rintro ⟨events', h, hstop⟩
        rwa [← map_dict_inj (h.symm.trans hlist)]

/-- The value of a trade that is read before its batch. -/
def productValues (py : Python) (trade : Mapping) : List ValueRead :=
  [.of (symbolOf py (get trade "product_id")) (TooDeep py (orEmpty (get trade "product_id")))]

/-- A trade reads the values of its product one after another. -/
theorem reads_readTrade {trade : Mapping} : Reads (readTrade py trade) (productValues py trade) :=
  Reads.of escapes_symbolOf fun _ _ => reads_ok

/-- The trades of a message stop at the first value that does. -/
theorem escapes_messageTrades :
    Escapes (messageTrades py payload) ↔ EventsStop "trades" (productValues py) payload := by
  have hevents {events : List Mapping} :
      Escapes (events.mapM (eventTrades py) >>= fun trades => .ok trades.flatten) ↔
        FirstIs (RowsAccepted "trades" (productValues py))
        (RowsStop "trades" (productValues py)) events := by
    rw [escapes_bind, or_iff_left]
    · refine failsWith_mapM.trans (firstIs_congr ?_ ?_)
      · exact fun event _ => rows_isOk fun row => reads_readTrade
      · exact fun event _ => escapes_rows fun row => reads_readTrade
    · rintro ⟨trades, -, h⟩
      exact not_escapes_ok h
  rw [messageTrades, escapes_mappingSequence_bind]
  exact exists_congr fun events => and_congr_right fun _ => hevents

end Messages

/-! ## Batches -/

/-- The flow that a maker's side faces. -/
def Totals.flow (totals : Totals) : MakerSide → Extended NonNegativeDecimal
  | .sell => totals.buyVolume
  | .buy => totals.sellVolume

/-- The values of a trade that are read after the totals of those before it. -/
def tradeValues (py : Python) (totals : Totals) (trade : Mapping) : List ValueRead :=
  [.of (nonNegativeDecimal py (get trade "size") "size") (NoNumber py (get trade "size")),
    .of (positiveDecimal py (get trade "price") "price") (NoNumber py (get trade "price")),
    .of (makerSide py trade) (TooDeep py (getOrEmpty trade "side")),
    .sum (∃ size side, nonNegativeDecimal py (get trade "size") "size" = .ok size ∧
      makerSide py trade = .ok side ∧ SumOverflows (totals.flow side) size),
    .of (tradeId py trade) (TooDeep py (getOrEmpty trade "trade_id")),
    .sum (∃ size, nonNegativeDecimal py (get trade "size") "size" = .ok size ∧
      SumOverflows totals.volume size),
    .of (tradeTime py trade) (TooDeep py (get trade "time"))]

/-- The objects say trades, of which these are the totals. -/
def Summed (py : Python) (messageTimestamp : AwareDatetime)
    (objects : List Mapping) (totals : Totals) :
    Prop :=
  ∃ trades, List.Forall₂ (IsTrade py) objects trades ∧ Sums messageTimestamp trades totals

/-- The objects of a symbol make an event. -/
def BatchPasses (py : Python) (messageTimestamp : AwareDatetime)
    (receivedAt : AwareDatetime) (p : Projector)
    (symbol : PyStr) (objects : List Mapping) : Prop :=
  ∃ totals price, Summed py messageTimestamp objects totals ∧ totals.latestPrice = some price ∧
    Presentable py symbol totals price receivedAt ∧ (∀ t ∈ p.tickerBySymbol symbol, t.Usable) ∧
    totals.FlowFits

/-- A value of the objects escapes after the trades before it have been summed, or all of them are
summed and the sum of their sides overflows when the event is validated. -/
def BatchStops (py : Python) (messageTimestamp : AwareDatetime)
    (receivedAt : AwareDatetime) (p : Projector)
    (symbol : PyStr) (objects : List Mapping) : Prop :=
  (∃ before trade after totals, objects = before ++ trade :: after ∧
    Summed py messageTimestamp before totals ∧ StopsAt (tradeValues py totals trade)) ∨
  ∃ totals price, Summed py messageTimestamp objects totals ∧ totals.latestPrice = some price ∧
    Presentable py symbol totals price receivedAt ∧ (∀ t ∈ p.tickerBySymbol symbol, t.Ordered) ∧
    totals.FlowOverflows

section Batches

variable {py : Python} {messageTimestamp : AwareDatetime}
  {receivedAt : AwareDatetime} {p : Projector}
  {symbol : PyStr} {objects : List Mapping} {totals : Totals} {trade payload : Mapping}

/-- A side's volume stops at an overflow only. -/
theorem escapes_addFlow {side : MakerSide} {size : Extended NonNegativeDecimal} :
    Escapes (totals.addFlow side size) ↔ SumOverflows (totals.flow side) size := by
  have hdone {x : Except Fault (Extended NonNegativeDecimal)}
    {f : Extended NonNegativeDecimal → Totals} :
      Escapes (x >>= fun v => .ok (f v)) ↔ Escapes x := by
    rw [escapes_bind, or_iff_left]
    rintro ⟨v, -, h⟩
    exact not_escapes_ok h
  cases side with
  | sell => exact hdone.trans escapes_addSize
  | buy => exact hdone.trans escapes_addSize

/-- A side's volume has a sum where it does not overflow. -/
theorem addFlow_isOk {side : MakerSide} {size : Extended NonNegativeDecimal} :
    (∃ totals', totals.addFlow side size = .ok totals') ↔
    ¬SumOverflows (totals.flow side) size := by
  have hdone {x : Except Fault (Extended NonNegativeDecimal)}
    {f : Extended NonNegativeDecimal → Totals} :
      (∃ totals', (x >>= fun v => .ok (f v)) = .ok totals') ↔ ∃ v, x = .ok v := by
    simp only [bind_eq_ok]
    constructor
    · rintro ⟨totals', v, hv, -⟩
      exact ⟨v, hv⟩
    · rintro ⟨v, hv⟩
      exact ⟨f v, v, hv, rfl⟩
  cases side with
  | sell => exact hdone.trans addSize_isOk
  | buy => exact hdone.trans addSize_isOk

/-- The volume of one side leaves the whole volume. -/
theorem addFlow_volume {side : MakerSide} {size : Extended NonNegativeDecimal} {totals' : Totals}
    (h : totals.addFlow side size = .ok totals') : totals'.volume = totals.volume := by
  unfold Totals.addFlow at h
  cases side with
  | sell =>
    obtain ⟨v, -, hv⟩ := bind_eq_ok.1 h
    rw [← Except.ok.inj hv]
  | buy =>
    obtain ⟨v, -, hv⟩ := bind_eq_ok.1 h
    rw [← Except.ok.inj hv]

/-- A trade that is added reads its values one after another. -/
theorem reads_addTrade : Reads (addTrade py totals trade) (tradeValues py totals trade) := by
  apply Reads.of escapes_nonNegativeDecimal
  intro size hsize
  apply Reads.of escapes_positiveDecimal
  intro price _
  apply Reads.of escapes_makerSide
  intro side hside
  -- The size and the side that have been read are the only ones.
  have hflow : SumOverflows (totals.flow side) size ↔
      ∃ size' side', nonNegativeDecimal py (get trade "size") "size" = .ok size' ∧
        makerSide py trade = .ok side' ∧ SumOverflows (totals.flow side') size' := by
    constructor
    · exact fun h => ⟨size, side, hsize, hside, h⟩
    · rintro ⟨size', side', hsize', hside', h⟩
      rwa [Except.ok.inj (hsize.symm.trans hsize'), Except.ok.inj (hside.symm.trans hside')]
  apply Reads.bind (addFlow_isOk.trans (not_congr hflow)) (escapes_addFlow.trans hflow)
  intro totals' htotals'
  apply Reads.of escapes_tradeId
  intro id _
  have hvolume : SumOverflows totals'.volume size ↔
      ∃ size', nonNegativeDecimal py (get trade "size") "size" = .ok size' ∧
        SumOverflows totals.volume size' := by
    rw [addFlow_volume htotals']
    constructor
    · exact fun h => ⟨size, hsize, h⟩
    · rintro ⟨size', hsize', h⟩
      rwa [Except.ok.inj (hsize.symm.trans hsize')]
  apply Reads.bind (addSize_isOk.trans (not_congr hvolume)) (escapes_addSize.trans hvolume)
  intro volume _
  apply Reads.of escapes_tradeTime
  intro time _
  exact reads_ok

/-- The sums of a batch stop at the first trade whose values do, by what the trades before it come
to. -/
theorem escapes_sumTrades : Escapes (sumTrades py messageTimestamp objects) ↔
    ∃ before trade after totals, objects = before ++ trade :: after ∧
      Summed py messageTimestamp before totals ∧ StopsAt (tradeValues py totals trade) := by
  constructor
  · rintro ⟨f, h, hf⟩
    obtain ⟨before, trade, after, totals, hobjects, hbefore, htrade⟩ := foldlM_eq_error.1 h
    exact ⟨before, trade, after, totals, hobjects, sumTrades_eq_ok.1 hbefore,
      reads_addTrade.escapes.1 ⟨f, htrade, hf⟩⟩
  · rintro ⟨before, trade, after, totals, hobjects, hbefore, hstops⟩
    obtain ⟨f, htrade, hf⟩ := reads_addTrade.escapes.2 hstops
    exact ⟨f, foldlM_eq_error.2 ⟨before, trade, after, totals, hobjects,
      sumTrades_eq_ok.2 hbefore, htrade⟩, hf⟩

/-- The event of a batch stops where the batch does. -/
theorem escapes_buildQuoteEvent :
    Escapes (p.buildQuoteEvent py messageTimestamp receivedAt symbol objects).1 ↔
      BatchStops py messageTimestamp receivedAt p symbol objects := by
  unfold BatchStops Projector.buildQuoteEvent
  rw [← escapes_sumTrades]
  have hsummed (totals : Totals) : Summed py messageTimestamp objects totals ↔
      sumTrades py messageTimestamp objects = .ok totals := sumTrades_eq_ok.symm
  simp only [hsummed]
  cases hsum : sumTrades py messageTimestamp objects with
  -- The trades stop the batch, or what follows them does.
  | error f =>
    dsimp only
    rw [escapes_error, escapes_error, or_iff_left]
    rintro ⟨totals, price, h, -⟩
    cases h
  | ok totals =>
    rw [or_iff_right not_escapes_ok]
    cases hprice : totals.latestPrice with
    | none =>
      dsimp only
      rw [hprice]
      -- Without a price, the error is one that is caught.
      refine iff_of_false (by simp [Fault.isCaught]) ?_
      rintro ⟨totals', price, htotals, hsome, -⟩
      rw [← Except.ok.inj htotals, hprice] at hsome
      cases hsome
    | some price =>
      dsimp only
      rw [hprice]
      dsimp only
      rw [escapes_quoteEvent]
      constructor
      · exact fun h => ⟨totals, price, rfl, hprice, h⟩
      · rintro ⟨totals', price', htotals, hprice', h⟩
        obtain rfl := Except.ok.inj htotals
        obtain rfl := Option.some.inj (hprice.symm.trans hprice')
        exact h

/-- The loop over the symbols leaves the tickers alone, so it escapes with the first batch that
makes no event, if that escapes. -/
theorem escapes_runAll {groups : List (PyStr × List (PyStr × Mapping))} :
    Escapes (runAll (fun p group => p.buildQuoteEvent py messageTimestamp receivedAt group.1
      (group.2.map Prod.snd)) p groups).1 ↔
      FirstIs (fun group => BatchPasses py messageTimestamp receivedAt p group.1
      (group.2.map Prod.snd))
        (fun group => BatchStops py messageTimestamp receivedAt p group.1
        (group.2.map Prod.snd)) groups := by
  refine failsWith_runAll (fun q => q.tickerBySymbol = p.tickerBySymbol) _ _ rfl ?_ ?_ ?_
  · intro q hq group _
    rw [buildQuoteEvent_ticker, hq]
  · intro q hq group _
    rw [exists_buildQuoteEvent_iff, hq]
    simp only [sumTrades_eq_ok]
    rfl
  · intro q hq group _
    have hstops := @escapes_buildQuoteEvent py messageTimestamp receivedAt q group.1
      (group.2.map Prod.snd)
    unfold BatchStops at hstops
    rw [hq] at hstops
    exact hstops

/-- The trades of a message are read, and the first batch that makes no event escapes. -/
def BatchesStop (py : Python) (receivedAt : AwareDatetime) (p : Projector)
    (payload : Mapping) : Prop :=
  ∃ messageTimestamp rows,
    timestamp py (get payload "timestamp") "timestamp" = .ok messageTimestamp ∧
    messageTrades py payload = .ok rows ∧
    FirstIs (fun group => BatchPasses py messageTimestamp receivedAt p group.1
    (group.2.map Prod.snd))
      (fun group => BatchStops py messageTimestamp receivedAt p group.1 (group.2.map Prod.snd))
      (tradesBySymbol rows)

/-- The time of a message of trades escapes, or else the first of its products that is not accepted,
or else the first of its batches that makes no event. -/
def TradesStop (py : Python) (receivedAt : AwareDatetime) (p : Projector)
    (payload : Mapping) : Prop :=
  TooDeep py (get payload "timestamp") ∨
    (∃ t, timestamp py (get payload "timestamp") "timestamp" = .ok t) ∧
      EventsStop "trades" (productValues py) payload ∨
    BatchesStop py receivedAt p payload

/-- The trades of a message are projected up to where one of their values stops. -/
theorem escapes_projectTrades :
    Escapes (p.projectTrades py receivedAt payload).1 ↔ TradesStop py receivedAt p payload := by
  unfold TradesStop BatchesStop Projector.projectTrades
  rw [← @escapes_timestamp py _ "timestamp", ← escapes_messageTrades]
  cases htimestamp : timestamp py (get payload "timestamp") "timestamp" with
  | error f =>
    simp
  | ok messageTimestamp =>
    cases hrows : messageTrades py payload with
    | error f => simp
    | ok rows =>
      dsimp only
      rw [escapes_runAll]
      simp

end Batches

/-! ## What escapes from `apply` -/

/-- The message of the channel escapes. -/
def MessageStops (py : Python) (receivedAt : AwareDatetime) (p : Projector) (payload : Mapping)
    (channel : PyStr) : Prop :=
  channel = text "ticker" ∧ TickersStop py payload ∨
    channel = text "market_trades" ∧ TradesStop py receivedAt p payload

/-- With a channel that has a text, `apply` escapes as the message of the channel does. -/
theorem escapes_apply {py : Python} {receivedAt : AwareDatetime} {p : Projector} {payload : Mapping}
    {channel : PyStr} (hchannel : py.str (getOrEmpty payload "channel") = .ok channel) :
    Escapes (p.apply py receivedAt payload).1 ↔ MessageStops py receivedAt p payload channel := by
  have hne : text "ticker" ≠ text "market_trades" := by decide
  unfold MessageStops
  by_cases hticker : channel = text "ticker"
  · rw [hticker] at hchannel ⊢
    rw [apply_ticker hchannel, escapes_map, escapes_tickerReads, and_iff_right rfl,
      or_iff_left fun h => hne h.1]
  · by_cases htrades : channel = text "market_trades"
    · rw [htrades] at hchannel ⊢
      rw [apply_market_trades hchannel, escapes_projectTrades, and_iff_right rfl,
        or_iff_right fun h => hne h.1.symm]
    · rw [Projector.apply, hchannel]
      dsimp only
      rw [if_neg hticker, if_neg htrades]
      refine iff_of_false not_escapes_ok ?_
      rintro (⟨h, -⟩ | ⟨h, -⟩)
      · exact hticker h
      · exact htrades h

end MarketDataGateway.Coinbase
