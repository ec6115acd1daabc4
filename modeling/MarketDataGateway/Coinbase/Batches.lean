import Mathlib.Algebra.BigOperators.Group.List.Basic
import MarketDataGateway.Coinbase.Trades

/-!
# Batches of trades

The trades of a message (`IsMessage`) fall into a batch for each symbol, of which `_project_trades`
makes an event in the order of the symbols. `projectTrades_eq_ok` says what the events are made of,
and `batches_conserved` that nothing is lost, repeated or given to another symbol if no sum rounds.
-/

namespace MarketDataGateway.Coinbase

open Lib Models

/-! ## Messages and their groups -/

/-- The trades of a message, each with its symbol, in the order of the message. -/
def IsMessage (py : Python) (payload : Mapping) (trades : List (PyStr × Trade)) : Prop :=
  ∃ (events : List Mapping) (rows : List (List Mapping)),
    get payload "events" = .list (events.map .dict) ∧
    List.Forall₂ (fun event items => get event "trades" = .list (items.map .dict)) events rows ∧
    List.Forall₂ (fun row t => symbolOf py (get row "product_id") = .ok t.1 ∧ IsTrade py row t.2)
      rows.flatten trades

/-- The trades of a symbol. -/
def tradesOf (symbol : PyStr) (trades : List (PyStr × Trade)) : List Trade :=
  (trades.filter fun t => t.1 = symbol).map Prod.snd

section Groups

variable {py : Python} {payload : Mapping} {rows : List (PyStr × Mapping)}
  {trades : List (PyStr × Trade)} {symbol : PyStr}

/-- A row is read with the symbol of its product. -/
theorem readTrade_eq_ok {row : Mapping} {r : PyStr × Mapping} :
    readTrade py row = .ok r ↔ symbolOf py (get row "product_id") = .ok r.1 ∧ r.2 = row := by
  rw [readTrade, bind_eq_ok]
  constructor
  · rintro ⟨s, hs, h⟩
    rw [← Except.ok.inj h]
    exact ⟨hs, rfl⟩
  · rintro ⟨hs, rfl⟩
    exact ⟨r.1, hs, rfl⟩

/-- The trades of a message are those of its events, one after another. -/
theorem messageTrades_eq_ok : messageTrades py payload = .ok rows ↔
    ∃ (events : List Mapping) (items : List (List Mapping)),
      get payload "events" = .list (events.map .dict) ∧
      List.Forall₂ (fun event items => get event "trades" = .list (items.map .dict)) events items ∧
      List.Forall₂ (fun row r => symbolOf py (get row "product_id") = .ok r.1 ∧ r.2 = row)
        items.flatten rows := by
  have hloop (events : List Mapping) :
      (∃ rowss, events.mapM (eventTrades py) = .ok rowss ∧ rowss.flatten = rows) ↔
        ∃ items, List.Forall₂ (fun event items => get event "trades" =
        .list (items.map .dict)) events items ∧
          List.Forall₂ (fun row r => symbolOf py (get row "product_id") = .ok r.1 ∧ r.2 = row)
            items.flatten rows := by
    refine mapM_flatten_eq_ok.trans ?_
    simp only [mapM_eq_ok, mappingSequence_eq_ok, readTrade_eq_ok]
  rw [messageTrades, bind_eq_ok]
  simp only [mappingSequence_eq_ok, bind_eq_ok, Except.ok.injEq, hloop]
  constructor
  · rintro ⟨events, hevents, items, hitems, hrows⟩
    exact ⟨events, items, hevents, hitems, hrows⟩
  · rintro ⟨events, items, hevents, hitems, hrows⟩
    exact ⟨events, hevents, items, hitems, hrows⟩

/-- The groups have the symbols in order. -/
theorem tradesBySymbol_sorted (rows : List (PyStr × Mapping)) :
    (tradesBySymbol rows).Pairwise fun a b => a.1 < b.1 := by
  refine pairwise_lt_of_nodup (pairwise_sortOn Prod.fst _) ?_
  exact ((List.perm_insertionSort _ _).map Prod.fst).nodup_iff.2 (groupOn_keys_nodup _ _)

/-- The group of a symbol has its trades in order, and only symbols that occur have one. -/
theorem mem_tradesBySymbol {group : List (PyStr × Mapping)} :
    (symbol, group) ∈ tradesBySymbol rows ↔
    group = rows.filter (fun r => r.1 = symbol) ∧ group ≠ [] := by
  rw [tradesBySymbol, (List.perm_insertionSort _ _).mem_iff, mem_groupOn]

/-- The symbols of the groups are those that occur. -/
theorem mem_symbols : symbol ∈ (tradesBySymbol rows).map Prod.fst ↔ symbol ∈ rows.map Prod.fst := by
  constructor
  · intro h
    obtain ⟨⟨s, group⟩, hgroup, rfl⟩ := List.mem_map.1 h
    obtain ⟨hfilter, hne⟩ := mem_tradesBySymbol.1 hgroup
    obtain ⟨r, hr⟩ := List.exists_mem_of_ne_nil group hne
    rw [hfilter, List.mem_filter] at hr
    exact List.mem_map.2 ⟨r, hr.1, of_decide_eq_true hr.2⟩
  · intro h
    obtain ⟨r, hr, rfl⟩ := List.mem_map.1 h
    have hne : rows.filter (fun r' => r'.1 = r.1) ≠ [] :=
      List.ne_nil_of_mem (List.mem_filter.2 ⟨hr, decide_eq_true rfl⟩)
    exact List.mem_map.2 ⟨(r.1, _), mem_tradesBySymbol.2 ⟨rfl, hne⟩, rfl⟩

/-- The rows of a message say the trades. -/
abbrev Says (py : Python) : List (PyStr × Mapping) → List (PyStr × Trade) → Prop :=
  List.Forall₂ fun r t => r.1 = t.1 ∧ IsTrade py r.2 t.2

/-- A row for which there is a trade in each group has one in the message. -/
theorem exists_says (h : ∀ r ∈ rows, ∃ t, IsTrade py r.2 t) : ∃ trades, Says py rows trades := by
  induction rows with
  | nil => exact ⟨[], .nil⟩
  | cons r rows ih =>
    obtain ⟨hr, hrows⟩ := List.forall_mem_cons.1 h
    obtain ⟨t, ht⟩ := hr
    obtain ⟨trades, htrades⟩ := ih hrows
    exact ⟨(r.1, t) :: trades, .cons ⟨rfl, ht⟩ htrades⟩

/-- The group of a symbol says its trades. -/
theorem Says.group (h : Says py rows trades) (symbol : PyStr) :
    List.Forall₂ (IsTrade py) ((rows.filter fun r => r.1 = symbol).map Prod.snd)
      (tradesOf symbol trades) := by
  unfold tradesOf
  rw [List.forall₂_map_left_iff, List.forall₂_map_right_iff]
  have hfilter : List.Forall₂ (fun (r : PyStr × Mapping) (t : PyStr × Trade) => r.1 =
    t.1 ∧ IsTrade py r.2 t.2)
      (rows.filter fun r => r.1 = symbol) (trades.filter fun t => t.1 = symbol) := by
    refine List.rel_filter ?_ h
    intro r t hrt
    simp [hrt.1]
  exact hfilter.imp fun _ _ hrt => hrt.2

/-- The trades that a list of objects says are determined by it. -/
theorem forall₂_isTrade_unique {objects : List Mapping} {ts ts' : List Trade}
    (h : List.Forall₂ (IsTrade py) objects ts)
    (h' : List.Forall₂ (IsTrade py) objects ts') : ts = ts' :=
  List.right_unique_forall₂' (fun _ _ _ ht ht' => ht.unique ht') h h'

/-- Lists of the same dictionaries are the same. -/
theorem map_dict_inj {xs ys : List Mapping} (h : Json.list (xs.map .dict) = .list (ys.map .dict)) :
    xs = ys :=
  List.map_injective_iff.2 (fun _ _ hxy => Json.dict.inj hxy) (Json.list.inj h)

/-- A message says its trades only. -/
theorem IsMessage.unique {trades' : List (PyStr × Trade)} (h : IsMessage py payload trades)
    (h' : IsMessage py payload trades') : trades = trades' := by
  obtain ⟨events, items, hevents, hitems, htrades⟩ := h
  obtain ⟨events', items', hevents', hitems', htrades'⟩ := h'
  obtain rfl := map_dict_inj (hevents.symm.trans hevents')
  obtain rfl : items = items' :=
    List.right_unique_forall₂' (fun _ _ _ hx hy => map_dict_inj (hx.symm.trans hy)) hitems hitems'
  refine List.right_unique_forall₂' (fun row t t' ht ht' => ?_) htrades htrades'
  exact Prod.ext (Except.ok.inj (ht.1.symm.trans ht'.1)) (ht.2.unique ht'.2)

end Groups

/-! ## The loop over the symbols -/

section Loop

variable {py : Python} {messageTimestamp : AwareDatetime} {receivedAt : Datetime} {p p' : Projector}
  {payload : Mapping} {rows : List (PyStr × Mapping)} {symbol : PyStr} {objects : List Mapping}
  {e : Models.QuoteEvent} {events : List Models.QuoteEvent}
  {groups : List (PyStr × List (PyStr × Mapping))}

/-- What `_build_quote_event` makes of the objects of a symbol. -/
def Built (py : Python) (messageTimestamp : AwareDatetime) (sequence : ℕ) (symbol : PyStr)
    (objects : List Mapping) (e : Models.QuoteEvent) : Prop :=
  ∃ totals price, sumTrades py messageTimestamp objects = .ok totals ∧
    totals.latestPrice = some price ∧
    Projected py symbol totals price objects.length sequence e

/-- To count leaves the tickers. -/
@[simp] theorem count_tickerBySymbol : (p.count symbol).tickerBySymbol = p.tickerBySymbol := rfl

/-- To count adds one to the sequence of the symbol. -/
theorem count_sequenceBySymbol (s : PyStr) : (p.count symbol).sequenceBySymbol s =
    p.sequenceBySymbol s + if s = symbol then 1 else 0 := by
  by_cases h : s = symbol
  · rw [h, if_pos rfl]
    exact Function.update_self ..
  · rw [if_neg h]
    exact Function.update_of_ne h ..

/-- An event that is built is that of the batch, with the next sequence. -/
theorem buildQuoteEvent_eq_ok
    (h : p.buildQuoteEvent py messageTimestamp receivedAt symbol objects = (.ok e, p')) :
    Built py messageTimestamp (p.sequenceBySymbol symbol + 1) symbol objects e ∧
    p' = p.count symbol := by
  unfold Projector.buildQuoteEvent at h
  split at h
  · cases h
  · rename_i totals htotals
    split at h
    · cases h
    · rename_i price hprice
      obtain ⟨hevent, rfl⟩ := Prod.mk.inj h
      exact ⟨⟨totals, price, htotals, hprice, quoteEvent_eq_ok hevent⟩, rfl⟩

/-- Building an event leaves the tickers alone. -/
theorem buildQuoteEvent_ticker :
    (p.buildQuoteEvent py messageTimestamp receivedAt symbol objects).2.tickerBySymbol =
      p.tickerBySymbol := by
  unfold Projector.buildQuoteEvent
  split
  · rfl
  · split <;> rfl

/-- The loop makes an event of each group, and counts its symbol once. -/
theorem runAll_buildQuoteEvent (hnodup : (groups.map Prod.fst).Nodup)
    (h : runAll (fun p group => p.buildQuoteEvent py messageTimestamp receivedAt group.1
      (group.2.map Prod.snd)) p groups = (.ok events, p')) :
    List.Forall₂ (fun group e => Built py messageTimestamp (p.sequenceBySymbol group.1 + 1) group.1
      (group.2.map Prod.snd) e) groups events ∧
    (∀ s, p'.sequenceBySymbol s = p.sequenceBySymbol s + if s ∈ groups.map Prod.fst then 1 else 0) ∧
    p'.tickerBySymbol = p.tickerBySymbol := by
  induction groups generalizing p events with
  | nil =>
    obtain ⟨hevents, rfl⟩ := Prod.mk.inj h
    rw [← Except.ok.inj hevents]
    exact ⟨.nil, fun s => by simp, rfl⟩
  | cons group groups ih =>
    obtain ⟨e, next, events', hstep, hrest, rfl⟩ := runAll_cons_eq_ok.1 h
    obtain ⟨hbuilt, rfl⟩ := buildQuoteEvent_eq_ok hstep
    rw [List.map_cons, List.nodup_cons] at hnodup
    obtain ⟨hforall, hsequence, hticker⟩ := ih hnodup.2 hrest
    -- The symbol of the first group does not occur again, so it counts for no other group.
    have hother : ∀ g ∈ groups,
        (p.count group.1).sequenceBySymbol g.1 = p.sequenceBySymbol g.1 := by
      intro g hg
      have hne : g.1 ≠ group.1 := fun heq => hnodup.1 (heq ▸ List.mem_map_of_mem hg)
      rw [count_sequenceBySymbol, if_neg hne, Nat.add_zero]
    refine ⟨.cons hbuilt ?_, fun s => ?_, hticker⟩
    · refine ((List.forall₂_and_left _ _).2 ⟨hother, hforall⟩).imp fun g e ⟨hg, he⟩ => ?_
      rwa [hg] at he
    · rw [hsequence, count_sequenceBySymbol]
      have hfirst := hnodup.1
      by_cases hs : s = group.1
      · simp [hs, hfirst]
      · have hmem : s ∈ (group :: groups).map Prod.fst ↔ s ∈ groups.map Prod.fst := by
          rw [List.map_cons, List.mem_cons, or_iff_right hs]
        simp only [hmem, if_neg hs, Nat.add_zero]

/-! ## Messages that are accepted -/

/-- An event is made of the trades. -/
def MadeOf (py : Python) (messageTimestamp : AwareDatetime) (sequence : ℕ) (trades : List Trade)
    (e : Models.QuoteEvent) : Prop :=
  ∃ totals price, Sums messageTimestamp trades totals ∧ totals.latestPrice = some price ∧
    Projected py e.symbol.1 totals price trades.length sequence e

/-- What is returned for the trades of a message, and what it leaves. -/
structure Batched (py : Python) (messageTimestamp : AwareDatetime) (p : Projector)
    (trades : List (PyStr × Trade)) (events : List Models.QuoteEvent) (p' : Projector) : Prop where
  sorted : (events.map fun e => e.symbol.1).Pairwise (· < ·)
  mem : ∀ s, s ∈ events.map (fun e => e.symbol.1) ↔ s ∈ trades.map Prod.fst
  made : ∀ e ∈ events, MadeOf py messageTimestamp (p.sequenceBySymbol e.symbol.1 + 1)
    (tradesOf e.symbol.1 trades) e
  sequence : ∀ s, p'.sequenceBySymbol s =
    p.sequenceBySymbol s + if s ∈ trades.map Prod.fst then 1 else 0
  ticker : p'.tickerBySymbol = p.tickerBySymbol

/-- What a message that is accepted says, and what is returned for it. -/
theorem projectTrades_eq_ok (h : p.projectTrades py receivedAt payload = (.ok events, p')) :
    ∃ messageTimestamp trades,
      timestamp py (get payload "timestamp") "timestamp" = .ok messageTimestamp ∧
      IsMessage py payload trades ∧ Batched py messageTimestamp p trades events p' := by
  unfold Projector.projectTrades at h
  split at h
  · cases h
  · rename_i messageTimestamp htimestamp
    split at h
    · cases h
    · rename_i rows hrows
      obtain ⟨eventObjects, items, hevents, hitems, hread⟩ := messageTrades_eq_ok.1 hrows
      have hsorted := tradesBySymbol_sorted rows
      have hnodup : ((tradesBySymbol rows).map Prod.fst).Nodup :=
        List.pairwise_map.2 (hsorted.imp fun hlt => hlt.ne)
      obtain ⟨hbuilt, hsequence, hticker⟩ := runAll_buildQuoteEvent hnodup h
      have hgroup (r : PyStr × Mapping) (hr : r ∈ rows) :
          (r.1, rows.filter fun r' => r'.1 = r.1) ∈ tradesBySymbol rows :=
        mem_tradesBySymbol.2 ⟨rfl, List.ne_nil_of_mem (List.mem_filter.2 ⟨hr, decide_eq_true rfl⟩)⟩
      -- Each object is in the group of its symbol, so it has been read.
      have hsays : ∃ trades, Says py rows trades := exists_says fun r hr => by
        obtain ⟨e, -, totals, price, hsum, -⟩ := exists_right_of_forall₂ hbuilt (hgroup r hr)
        obtain ⟨ts, hts, -⟩ := sumTrades_eq_ok.1 hsum
        have hobject : r.2 ∈ (rows.filter fun r' => r'.1 = r.1).map Prod.snd :=
          List.mem_map_of_mem (List.mem_filter.2 ⟨hr, decide_eq_true rfl⟩)
        obtain ⟨t, -, ht⟩ := exists_right_of_forall₂ hts hobject
        exact ⟨t, ht⟩
      obtain ⟨trades, htrades⟩ := hsays
      have hsymbols : rows.map Prod.fst = trades.map Prod.fst :=
        map_eq_of_forall₂ htrades fun _ _ _ h => h.1
      -- The event of a group has the symbol of the group, which is in capitals already.
      have hsymbol (e : Models.QuoteEvent) (group : PyStr × List (PyStr × Mapping))
          (hin : group ∈ tradesBySymbol rows)
          (he : Built py messageTimestamp (p.sequenceBySymbol group.1 + 1) group.1
            (group.2.map Prod.snd) e) : group.1 = e.symbol.1 := by
        obtain ⟨totals, price, -, -, hprojected⟩ := he
        obtain ⟨r, hr, hkey⟩ := List.mem_map.1 (mem_symbols.1 (List.mem_map_of_mem hin))
        obtain ⟨row, -, hrow, -⟩ := exists_left_of_forall₂ hread hr
        rw [hprojected.symbol, ← hkey, upper_strip_symbol _ (symbolOf_eq_ok hrow).2]
      have hkeys : (tradesBySymbol rows).map Prod.fst = events.map fun e => e.symbol.1 :=
        map_eq_of_forall₂ hbuilt fun group hin e he => hsymbol e group hin he
      -- The rows are those of the message, and each batch is made of the trades of its symbol.
      refine ⟨messageTimestamp, trades, htimestamp, ⟨eventObjects, items, hevents, hitems, ?_⟩, ?_⟩
      · have hobjects : rows.map Prod.snd = items.flatten.map id :=
          (map_eq_of_forall₂ hread fun _ _ _ h => h.2.symm).symm
        have hproducts : ∀ r ∈ rows, symbolOf py (get r.2 "product_id") = .ok r.1 := by
          intro r hr
          obtain ⟨row, -, hrow, hrow'⟩ := exists_left_of_forall₂ hread hr
          rw [hrow', hrow]
        rw [← List.map_id items.flatten, ← hobjects, List.forall₂_map_left_iff]
        refine ((List.forall₂_and_left _ _).2 ⟨hproducts, htrades⟩).imp fun r t ⟨hr, hkey, ht⟩ => ?_
        exact ⟨hkey ▸ hr, ht⟩
      · refine ⟨?_, fun s => ?_, fun e he => ?_, fun s => ?_, hticker⟩
        · rw [← hkeys]
          exact List.pairwise_map.2 hsorted
        · rw [← hkeys, mem_symbols, hsymbols]
        · obtain ⟨group, hin, hmade⟩ := exists_left_of_forall₂ hbuilt he
          have hfst := hsymbol e group hin hmade
          obtain ⟨totals, price, hsum, hprice, hprojected⟩ := hmade
          obtain ⟨ts, hts, hsums⟩ := sumTrades_eq_ok.1 hsum
          obtain ⟨hfilter, -⟩ := mem_tradesBySymbol.1 hin
          rw [hfilter] at hts
          obtain rfl := forall₂_isTrade_unique hts (Says.group htrades group.1)
          have hlength : (group.2.map Prod.snd).length = (tradesOf group.1 trades).length := by
            rw [hfilter]
            exact hts.length_eq
          rw [hlength] at hprojected
          rw [hfst] at hsums hprojected
          exact ⟨totals, price, hsums, hprice, hprojected⟩
        · rw [hsequence]
          simp only [mem_symbols, hsymbols]

end Loop

/-! ## Conservation -/

/-- Neither the sum of the sizes of a symbol nor that of one side of them rounds. -/
def ExactSums (py : Python) (payload : Mapping) : Prop :=
  ∀ trades, IsMessage py payload trades → ∀ symbol,
    ExactSum ((tradesOf symbol trades).map Trade.size) ∧
      ∀ side, ExactSum (sizesOf side (tradesOf symbol trades))

/-- The identifier of a batch, by its symbol and its trade ids. -/
def eventIdOf (py : Python) (symbol : PyStr) (tradeIds : List PyStr) : Option EventId :=
  (encodeUtf8 (eventIdentity symbol tradeIds)).map py.uuid5

/-- The event carries all of the trades of its symbol and nothing else. -/
structure CarriesBatch (py : Python) (sequence : ℕ) (trades : List Trade) (e : Models.QuoteEvent) :
    Prop where
  finite : ∀ t ∈ trades, t.size ≠ .infinite
  volume : e.volume.map (fun v => v.1.value) = some (trades.map fun t => sizeValue t.size).sum
  buyVolume : e.buyVolume.map (fun v => v.1.value) = some ((sizesOf .sell trades).map sizeValue).sum
  sellVolume : e.sellVolume.map (fun v => v.1.value) =
    some ((sizesOf .buy trades).map sizeValue).sum
  balance : ∃ volume buy sell, e.volume = some volume ∧ e.buyVolume = some buy ∧
    e.sellVolume = some sell ∧ volume.1.value = buy.1.value + sell.1.value
  tradeCount : e.tradeCount.map Subtype.val = some (trades.length : ℤ)
  eventId : eventIdOf py e.symbol.1 (trades.map Trade.id) = some e.eventId
  sequence : e.sequence.map Subtype.val = some (sequence : ℤ)

/-- The events carry the trades of a message. -/
structure Conserved (py : Python) (p : Projector) (trades : List (PyStr × Trade))
    (events : List Models.QuoteEvent) (p' : Projector) : Prop where
  /-- The events are in strictly increasing order of their symbols. -/
  sorted : (events.map fun e => e.symbol.1).Pairwise (· < ·)
  /-- There is one for each symbol that occurs. -/
  mem : ∀ s, s ∈ events.map (fun e => e.symbol.1) ↔ s ∈ trades.map Prod.fst
  /-- All trades are counted. -/
  counted : (events.map fun e => e.tradeCount.elim 0 Subtype.val).sum = trades.length
  batch : ∀ e ∈ events, CarriesBatch py (p.sequenceBySymbol e.symbol.1 + 1)
    (tradesOf e.symbol.1 trades) e
  /-- The sequences of the symbols of the message go up by one, and those of all others stay. -/
  sequence : ∀ s, p'.sequenceBySymbol s =
    p.sequenceBySymbol s + if s ∈ trades.map Prod.fst then 1 else 0
  ticker : p'.tickerBySymbol = p.tickerBySymbol

section Conservation

variable {py : Python} {messageTimestamp : AwareDatetime} {receivedAt : Datetime} {p p' : Projector}
  {payload : Mapping} {trades : List (PyStr × Trade)} {ts : List Trade} {sequence : ℕ}
  {e : Models.QuoteEvent} {events : List Models.QuoteEvent}

/-- The event of a batch has the identifier of its trades. -/
theorem MadeOf.eventId (h : MadeOf py messageTimestamp sequence ts e) :
    eventIdOf py e.symbol.1 (ts.map Trade.id) = some e.eventId := by
  obtain ⟨totals, price, hsums, -, hprojected⟩ := h
  obtain ⟨octets, hoctets, hid⟩ := hprojected.eventId
  rw [eventIdOf, ← hsums.tradeIds, hoctets, hid]
  rfl

/-- An event made of trades carries them, if their sums do not round. -/
theorem MadeOf.carriesBatch (h : MadeOf py messageTimestamp sequence ts e)
    (hexact : ExactSum (ts.map Trade.size)) (hsides : ∀ side, ExactSum (sizesOf side ts)) :
    CarriesBatch py sequence ts e := by
  have hid := h.eventId
  obtain ⟨totals, price, hsums, -, hprojected⟩ := h
  obtain ⟨volume, hvolume, hvolume'⟩ := hprojected.volume
  obtain ⟨buy, hbuy, hbuy'⟩ := hprojected.buyVolume
  obtain ⟨sell, hsell, hsell'⟩ := hprojected.sellVolume
  obtain ⟨hfinite, htotal⟩ := sumSizes_eq_finite (hvolume' ▸ hsums.volume)
  have hbought := (sumSizes_eq_finite (hbuy' ▸ hsums.buyVolume)).2 (hsides .sell)
  have hsold := (sumSizes_eq_finite (hsell' ▸ hsums.sellVolume)).2 (hsides .buy)
  have hsum : volume.1.value = (ts.map fun t => sizeValue t.size).sum := by
    rw [htotal hexact, List.map_map]
    rfl
  refine ⟨fun t ht => hfinite _ (List.mem_map_of_mem ht), ?_, ?_, ?_,
    ⟨volume, buy, sell, hvolume, hbuy, hsell, ?_⟩, hprojected.tradeCount, hid, hprojected.sequence⟩
  · rw [hvolume, Option.map_some, hsum]
  · rw [hbuy, Option.map_some, hbought]
  · rw [hsell, Option.map_some, hsold]
  · rw [hsum, hbought, hsold, sum_sizes]

/-- The trades of a message are counted by its events. -/
theorem Batched.counted (h : Batched py messageTimestamp p trades events p') :
    (events.map fun e => e.tradeCount.elim 0 Subtype.val).sum = trades.length := by
  have hcount : events.map (fun e => e.tradeCount.elim 0 Subtype.val) =
      ((events.map fun e => e.symbol.1).map fun s => (tradesOf s trades).length).map Nat.cast := by
    rw [List.map_map, List.map_map]
    refine List.map_congr_left fun e he => ?_
    obtain ⟨totals, price, -, -, hprojected⟩ := h.made e he
    obtain ⟨n, hn, hlength⟩ := Option.map_eq_some_iff.1 hprojected.tradeCount
    rw [hn]
    exact hlength
  have hnodup : (events.map fun e => e.symbol.1).Nodup := h.sorted.imp fun hlt => hlt.ne
  have hsum : ((events.map fun e => e.symbol.1).map fun s => (tradesOf s trades).length).sum =
      trades.length := by
    simp only [tradesOf, List.length_map]
    exact sum_length_filter Prod.fst hnodup fun t ht => (h.mem t.1).2 (List.mem_map_of_mem ht)
  rw [hcount, ← hsum]
  exact (map_list_sum (Nat.castAddMonoidHom ℤ) _).symm

/-- Only `_project_trades` returns events. -/
theorem apply_market_trades (hchannel : py.str (getOrEmpty payload "channel") =
    .ok (text "market_trades")) :
    p.apply py receivedAt payload = p.projectTrades py receivedAt payload := by
  rw [Projector.apply, hchannel]
  rfl

/-- An accepted message has an event for each of its symbols, with the identifier of its batch. -/
theorem exists_event
    (hchannel : py.str (getOrEmpty payload "channel") = .ok (text "market_trades"))
    (h : p.apply py receivedAt payload = (.ok events, p')) (hmessage : IsMessage py payload trades)
    (symbol : PyStr) (hsymbol : symbol ∈ trades.map Prod.fst) : ∃ e ∈ events, e.symbol.1 = symbol ∧
      eventIdOf py symbol ((tradesOf symbol trades).map Trade.id) = some e.eventId := by
  rw [apply_market_trades hchannel] at h
  obtain ⟨messageTimestamp, trades', -, hmessage', hbatched⟩ := projectTrades_eq_ok h
  obtain rfl := hmessage.unique hmessage'
  obtain ⟨e, he, rfl⟩ := List.mem_map.1 ((hbatched.mem symbol).2 hsymbol)
  exact ⟨e, he, rfl, (hbatched.made e he).eventId⟩

/-- The trades of a message that is accepted are conserved, if none of their sums rounds. -/
theorem batches_conserved
    (hchannel : py.str (getOrEmpty payload "channel") = .ok (text "market_trades"))
    (h : p.apply py receivedAt payload = (.ok events, p')) (hexact : ExactSums py payload) :
    ∃ trades, IsMessage py payload trades ∧ Conserved py p trades events p' := by
  rw [apply_market_trades hchannel] at h
  obtain ⟨messageTimestamp, trades, -, hmessage, hbatched⟩ := projectTrades_eq_ok h
  refine ⟨trades, hmessage, hbatched.sorted, hbatched.mem, hbatched.counted, fun e he => ?_,
    hbatched.sequence, hbatched.ticker⟩
  obtain ⟨hall, hsides⟩ := hexact trades hmessage e.symbol.1
  exact (hbatched.made e he).carriesBatch hall hsides

/-- The trades of `twoTrades`. -/
def twoTradesRead : List (PyStr × Trade) :=
  [(text "BTC-USD", ⟨.finite ⟨⟨false, 15, -1⟩, value_nonneg_fifteenTenths⟩,
      .finite (samplePrice 100), .sell, text "1",
      some ⟨⟨1704067200 * second, some 0⟩, isSome_utcoffset_newYear⟩⟩),
    (text "BTC-USD", ⟨.finite ⟨⟨false, 5, -1⟩, PyDecimal.value_nonneg.2 (by decide)⟩,
      .finite (samplePrice 99), .buy, text "2",
      some ⟨⟨1704067201 * second, some 0⟩, rfl⟩⟩)]

/-- The message of two trades is one. -/
theorem isMessage_twoTrades : IsMessage samplePython twoTrades twoTradesRead := by
  refine ⟨_, [[_, _]], rfl, .cons rfl .nil, .cons ⟨?_, ⟨?_, ?_, ?_, ?_, ?_⟩⟩
    (.cons ⟨?_, ⟨?_, ?_, ?_, ?_, ?_⟩⟩ .nil)⟩
  all_goals decide +kernel

/-- The sizes are tenths of at most a hundred units. -/
theorem exactSum_of_tenths {l : List (Extended NonNegativeDecimal)} (hlength : l.length ≤ 2)
    (h : ∀ size ∈ l, ∃ d : NonNegativeDecimal, size = .finite d ∧
    d.1.exponent = -1 ∧ d.1.value ≤ 100) :
    ExactSum l := by
  refine FitsPrecision.exactSum ⟨-1, by decide, by decide, fun size hsize => ?_, ?_⟩
  · obtain ⟨d, hd, hexponent, -⟩ := h size hsize
    exact ⟨d, hd, hexponent.ge⟩
  · have hle : ∀ x ∈ l.map sizeValue, x ≤ 100 := by
      intro x hx
      obtain ⟨size, hsize, rfl⟩ := List.mem_map.1 hx
      obtain ⟨d, rfl, -, hvalue⟩ := h size hsize
      exact hvalue
    have hcount : ((l.map sizeValue).length : ℚ) ≤ 2 := by
      rw [List.length_map]
      exact_mod_cast hlength
    calc (l.map sizeValue).sum ≤ (l.map sizeValue).length • 100 := List.sum_le_card_nsmul _ _ hle
      _ ≤ 2 * 100 := by rw [nsmul_eq_mul]; linarith
      _ < 10 ^ (PyDecimal.prec + -1) := by norm_num [PyDecimal.prec]

/-- The sums of the two trades are exact. -/
theorem exactSums_twoTrades : ExactSums samplePython twoTrades := by
  intro trades h symbol
  obtain rfl := isMessage_twoTrades.unique h
  have htenths : ∀ t ∈ twoTradesRead, ∃ d : NonNegativeDecimal, t.2.size = .finite d ∧
      d.1.exponent = -1 ∧ d.1.value ≤ 100 := by
    intro t ht
    rcases List.mem_pair.1 ht with rfl | rfl
    · exact ⟨_, rfl, rfl, by norm_num [PyDecimal.value, PyDecimal.signed]⟩
    · exact ⟨_, rfl, rfl, by norm_num [PyDecimal.value, PyDecimal.signed]⟩
  have hof : ∀ t ∈ tradesOf symbol twoTradesRead, ∃ d : NonNegativeDecimal, t.size = .finite d ∧
      d.1.exponent = -1 ∧ d.1.value ≤ 100 := by
    intro t ht
    obtain ⟨r, hr, rfl⟩ := List.mem_map.1 ht
    exact htenths r (List.mem_of_mem_filter hr)
  have hlength : (tradesOf symbol twoTradesRead).length ≤ 2 := by
    rw [tradesOf, List.length_map]
    exact List.length_filter_le _ _
  refine ⟨exactSum_of_tenths (by rwa [List.length_map]) ?_, fun side => exactSum_of_tenths ?_ ?_⟩
  · exact List.forall_mem_map.2 hof
  · rw [sizesOf, List.length_map]
    exact (List.length_filter_le _ _).trans hlength
  · exact List.forall_mem_map.2 fun t ht => hof t (List.mem_of_mem_filter ht)

/-- Two trades of BTC-USD are accepted and conserved. -/
theorem batches_conserved_twoTrades : ∃ events p' trades,
    Projector.new.apply samplePython ⟨0, some 0⟩ twoTrades = (.ok events, p') ∧
      IsMessage samplePython twoTrades trades ∧ Conserved samplePython .new trades events p' := by
  obtain ⟨events, p', h⟩ := exists_of_isOk
    (show (Projector.new.apply samplePython ⟨0, some 0⟩ twoTrades).1.isOk = true by decide +kernel)
  obtain ⟨trades, hmessage, hconserved⟩ := batches_conserved rfl h exactSums_twoTrades
  exact ⟨events, p', trades, h, hmessage, hconserved⟩

end Conservation

end MarketDataGateway.Coinbase
