import MarketDataGateway.Candles.Minute
import Mathlib.Data.List.Dedup

/-!
# The archive aggregates as the hot candles do

`PostgresCandleArchive.persist_event` of `candle_archive.py`, which runs the statement
`_UPSERT_EVENT`: it inserts the event's id into `candle_archive_events` and, only if the id is new,
inserts a row into `candle_archive_1m` or updates the row of the symbol and minute column by column.

The update on conflict computes what `with_quote` does (`onConflict_valuesRow`), although it takes
the least and the greatest timestamp by themselves and the ids by comparing pairs. So after any
deliveries the table holds, for each symbol and minute, the candle of the distinct events delivered
(`Archived`), each event's repetition changes nothing, and no `CHECK` of the table ever fails.
-/

namespace MarketDataGateway.Archive

open BaseMinuteCandle

/-- A row of `candle_archive_1m`, whose columns are the fields of a minute candle. -/
abbrev CandleRow := BaseMinuteCandle

/-- The primary key `(symbol, open_time)`. -/
def rowKey (row : CandleRow) : Symbol × Timestamp := (row.symbol, row.openTime)

/-- The `CHECK` constraints of `candle_archive_1m`. -/
def Check (row : CandleRow) : Prop :=
  0 < row.open ∧ 0 < row.high ∧ 0 < row.low ∧ 0 < row.close ∧ 1 ≤ row.activityCount ∧
    row.low ≤ row.high ∧ row.firstProviderTimestamp ≤ row.lastProviderTimestamp

instance (row : CandleRow) : Decidable (Check row) := by
  unfold Check
  infer_instance

/-- The table `candle_archive_1m`, whose rows have distinct primary keys. -/
structure CandleTable where
  /-- The rows, in no particular order. -/
  rows : List CandleRow
  /-- The primary key is unique. -/
  pk : (rows.map rowKey).Nodup

namespace CandleTable

/-- The table with no row. -/
def empty : CandleTable := ⟨[], List.nodup_nil⟩

/-- The row with a primary key. -/
def find (t : CandleTable) (symbol : Symbol) (openTime : Timestamp) : Option CandleRow :=
  t.rows.find? fun r => rowKey r = (symbol, openTime)

/-- Inserts a row, in the place of the one with its primary key if there is one. -/
def put (t : CandleTable) (row : CandleRow) : CandleTable where
  rows := row :: t.rows.filter fun r => rowKey r ≠ rowKey row
  pk := by
    rw [List.map_cons, List.nodup_cons]
    refine ⟨?_, t.pk.sublist (List.filter_sublist.map _)⟩
    simp

/-- The row of a key after one has been put. -/
theorem find_put (t : CandleTable) (row : CandleRow) (symbol : Symbol) (openTime : Timestamp) :
    (t.put row).find symbol openTime =
      if rowKey row = (symbol, openTime) then some row else t.find symbol openTime := by
  unfold find put
  by_cases h : rowKey row = (symbol, openTime)
  · rw [List.find?_cons_of_pos (by simpa using h), if_pos h]
  · rw [List.find?_cons_of_neg (by simpa using h), if_neg h, List.find?_filter]
    apply congrArg (fun p => t.rows.find? p)
    funext r
    by_cases hr : rowKey r = (symbol, openTime)
    · simp [hr, Ne.symm h]
    · simp [hr]

end CandleTable

/-- The row of `SELECT $3, $4, $5, $5, $5, $5, 1, $2, $2, $1, $1`, with the arguments that
`persist_event` binds. -/
def valuesRow (event : QuoteEvent) (bucket : Timestamp) : CandleRow where
  symbol := event.symbol
  openTime := bucket
  «open» := event.price
  high := event.price
  low := event.price
  close := event.price
  activityCount := 1
  firstProviderTimestamp := event.providerTimestamp
  lastProviderTimestamp := event.providerTimestamp
  firstEventId := event.eventId
  lastEventId := event.eventId

/-- The columns that `ON CONFLICT (symbol, open_time) DO UPDATE` sets. -/
def onConflict (row excluded : CandleRow) : CandleRow where
  symbol := row.symbol
  openTime := row.openTime
  «open» := if excluded.firstKey < row.firstKey then excluded.open else row.open
  high := max row.high excluded.high
  low := min row.low excluded.low
  close := if row.lastKey < excluded.lastKey then excluded.close else row.close
  activityCount := row.activityCount + 1
  firstProviderTimestamp := min row.firstProviderTimestamp excluded.firstProviderTimestamp
  lastProviderTimestamp := max row.lastProviderTimestamp excluded.lastProviderTimestamp
  firstEventId := if excluded.firstKey < row.firstKey then excluded.firstEventId
    else row.firstEventId
  lastEventId := if row.lastKey < excluded.lastKey then excluded.lastEventId else row.lastEventId

/-- The two tables of the archive. -/
structure ArchiveDb where
  /-- `candle_archive_events`: the ids with their provider timestamps. -/
  events : List (EventId × Timestamp)
  /-- `event_id` is the primary key. -/
  events_pk : (events.map Prod.fst).Nodup
  /-- `candle_archive_1m`. -/
  candles : CandleTable

/-- The archive after `_CREATE_TABLES`. -/
def ArchiveDb.empty : ArchiveDb := ⟨[], List.nodup_nil, .empty⟩

/-- `persist_event`: the statement `_UPSERT_EVENT`, which is atomic. The result tells whether it
returned an activity count, and a row that violates a `CHECK` makes it fail with no effect. -/
def persistEvent (db : ArchiveDb) (event : QuoteEvent) : Except PyError (ArchiveDb × Bool) :=
  let bucket := floorTime event.providerTimestamp 60
  if hnew : event.eventId ∈ db.events.map Prod.fst then
    .ok (db, false)
  else
    let excluded := valuesRow event bucket
    let row := match db.candles.find event.symbol bucket with
      | none => excluded
      | some row => onConflict row excluded
    if Check row then
      .ok (⟨(event.eventId, event.providerTimestamp) :: db.events,
        List.nodup_cons.2 ⟨hnew, db.events_pk⟩, db.candles.put row⟩, true)
    else
      .error (.checkViolation "candle_archive_1m")

/-- The deliveries of a list of events, one after the other, with their results. -/
def persistAll (db : ArchiveDb) : List QuoteEvent → Except PyError (ArchiveDb × List Bool)
  | [] => .ok (db, [])
  | event :: events => do
    let (db, r) ← persistEvent db event
    let (db, rs) ← persistAll db events
    .ok (db, r :: rs)

/-! ## The upsert is the candle rule -/

/-- The least of the two first timestamps is the one that goes with the lesser pair. -/
theorem min_firstProviderTimestamp (row : CandleRow) (event : QuoteEvent) :
    min row.firstProviderTimestamp event.providerTimestamp =
      if event.key < row.firstKey then event.providerTimestamp else row.firstProviderTimestamp := by
  split_ifs with h
  · rcases Prod.Lex.toLex_lt_toLex.1 h with hlt | ⟨heq, -⟩
    · exact min_eq_right hlt.le
    · exact min_eq_right heq.le
  · rcases Prod.Lex.toLex_le_toLex.1 (not_lt.1 h) with hlt | ⟨heq, -⟩
    · exact min_eq_left hlt.le
    · exact min_eq_left heq.le

/-- The greatest of the two last timestamps is the one that goes with the greater pair. -/
theorem max_lastProviderTimestamp (row : CandleRow) (event : QuoteEvent) :
    max row.lastProviderTimestamp event.providerTimestamp =
      if row.lastKey < event.key then event.providerTimestamp else row.lastProviderTimestamp := by
  split_ifs with h
  · rcases Prod.Lex.toLex_lt_toLex.1 h with hlt | ⟨heq, -⟩
    · exact max_eq_right hlt.le
    · exact max_eq_right heq.le
  · rcases Prod.Lex.toLex_le_toLex.1 (not_lt.1 h) with hlt | ⟨heq, -⟩
    · exact max_eq_left hlt.le
    · exact max_eq_left heq.le

/-- The update on conflict computes the update of `with_quote`. -/
theorem onConflict_valuesRow (row : CandleRow) (event : QuoteEvent) (bucket : Timestamp) :
    onConflict row (valuesRow event bucket) = row.update event := by
  ext1
  · rfl
  · rfl
  · rfl
  · rfl
  · rfl
  · rfl
  · rfl
  · exact min_firstProviderTimestamp row event
  · exact max_lastProviderTimestamp row event
  · rfl
  · rfl

/-- The candle of some quotes satisfies the `CHECK`s of the table. -/
theorem check_of_aggregates {row : CandleRow} {qs : List QuoteEvent} (h : row.Aggregates qs) :
    Check row := by
  have hpos : ∀ v ∈ QuoteEvent.price '' {q | q ∈ qs}, 0 < v := by
    rintro v ⟨q, -, rfl⟩
    exact q.price_pos
  obtain ⟨qo, hqo, hko, hvo⟩ := h.summary.opening
  obtain ⟨qc, hqc, -, hvc⟩ := h.summary.closing
  have hkeys : row.firstKey ≤ row.lastKey := by
    rw [← show qo.key = row.firstKey from hko]
    exact h.summary.last.2 ⟨qo, hqo, rfl⟩
  refine ⟨?_, hpos _ h.summary.high.1, hpos _ h.summary.low.1, ?_, ?_, ?_, ?_⟩
  · exact (show qo.price = row.open from hvo) ▸ qo.price_pos
  · exact (show qc.price = row.close from hvc) ▸ qc.price_pos
  · rw [show row.activityCount = qs.length from h.summary.count]
    exact List.length_pos_of_mem hqo
  · exact h.summary.low.2 h.summary.high.1
  · rcases Prod.Lex.toLex_le_toLex.1 hkeys with hlt | ⟨heq, -⟩
    · exact hlt.le
    · exact heq.le

/-! ## Deliveries -/

/-- The archive holds the events `es`, which have distinct ids: their ids, and for each symbol and
minute the fold of those that belong to it. -/
structure Archived (db : ArchiveDb) (es : List QuoteEvent) : Prop where
  /-- The event ids are distinct. -/
  nodup : (es.map QuoteEvent.eventId).Nodup
  /-- `candle_archive_events` holds the ids of the events. -/
  ids : ∀ i, i ∈ db.events.map Prod.fst ↔ i ∈ es.map QuoteEvent.eventId
  /-- `candle_archive_1m` holds their candles. -/
  rows : ∀ symbol minute, foldQuotes (es.filter fun e =>
    e.symbol = symbol ∧ floorTime e.providerTimestamp 60 = minute) =
      .ok (db.candles.find symbol minute)

/-- The events of a list that belong to a symbol and a minute. -/
theorem sameMinute_filter (es : List QuoteEvent) (symbol : Symbol) (minute : Timestamp) :
    SameMinute symbol minute (es.filter fun e =>
      e.symbol = symbol ∧ floorTime e.providerTimestamp 60 = minute) := by
  intro q hq
  simpa using (List.mem_filter.1 hq).2

/-- The empty archive holds no event. -/
theorem archived_empty : Archived .empty [] :=
  ⟨List.nodup_nil, fun _ => Iff.rfl, fun _ _ => rfl⟩

/-- The row that `persist_event` stores for a new event is the candle of the events of its symbol
and minute, the new one included. -/
theorem Archived.row_aggregates {db : ArchiveDb} {es : List QuoteEvent} (h : Archived db es)
    (event : QuoteEvent) :
    (match db.candles.find event.symbol (floorTime event.providerTimestamp 60) with
      | none => fromQuote event
      | some row => row.update event).Aggregates
      (event :: es.filter fun e => e.symbol = event.symbol ∧
        floorTime e.providerTimestamp 60 = floorTime event.providerTimestamp 60) := by
  have hrow := h.rows event.symbol (floorTime event.providerTimestamp 60)
  have hmin := sameMinute_filter es event.symbol (floorTime event.providerTimestamp 60)
  generalize (es.filter fun e => e.symbol = event.symbol ∧
    floorTime e.providerTimestamp 60 = floorTime event.providerTimestamp 60) = qs at hrow hmin
  by_cases hne : qs = []
  · -- No row: the statement inserts.
    subst hne
    have hnone := (Except.ok.inj hrow).symm
    rw [hnone]
    exact aggregates_fromQuote event
  · -- A row: the statement updates it.
    obtain ⟨c, hfold, hagg, hs, ho⟩ := foldQuotes_spec hmin hne
    have hsome := Except.ok.inj (hrow.symm.trans hfold)
    rw [hsome]
    exact hagg.update ⟨hs.symm, ho.symm⟩

/-- An event with a known id changes nothing. -/
theorem persistEvent_known {db : ArchiveDb} {es : List QuoteEvent} (h : Archived db es)
    {event : QuoteEvent} (hknown : event.eventId ∈ es.map QuoteEvent.eventId) :
    persistEvent db event = .ok (db, false) := by
  unfold persistEvent
  rw [dif_pos ((h.ids _).2 hknown)]

/-- An event with a new id is archived. -/
theorem persistEvent_new {db : ArchiveDb} {es : List QuoteEvent} (h : Archived db es)
    {event : QuoteEvent} (hnew : event.eventId ∉ es.map QuoteEvent.eventId) :
    ∃ db', persistEvent db event = .ok (db', true) ∧ Archived db' (event :: es) := by
  have hagg := h.row_aggregates event
  set minute := floorTime event.providerTimestamp 60 with hminute
  have hid : event.eventId ∉ db.events.map Prod.fst := fun hin => hnew ((h.ids _).1 hin)
  have hrow : (match db.candles.find event.symbol minute with
      | none => valuesRow event minute
      | some row => onConflict row (valuesRow event minute)) =
      match db.candles.find event.symbol minute with
      | none => fromQuote event
      | some row => row.update event := by
    cases db.candles.find event.symbol minute with
    | none => rfl
    | some row => exact onConflict_valuesRow row event minute
  have hnodup : ((event :: es).map QuoteEvent.eventId).Nodup :=
    List.nodup_cons.2 ⟨hnew, h.nodup⟩
  unfold persistEvent
  rw [dif_neg hid]
  dsimp only
  rw [← hminute, hrow]
  generalize (match db.candles.find event.symbol minute with
    | none => fromQuote event
    | some row => row.update event) = row at hagg
  rw [if_pos (check_of_aggregates hagg)]
  refine ⟨_, rfl, hnodup, fun i => ?_, fun symbol m => ?_⟩
  · simp only [List.map_cons, List.mem_cons, h.ids]
  · obtain ⟨hs, ho⟩ := hagg.covers event List.mem_cons_self
    rw [CandleTable.find_put]
    by_cases hpk : event.symbol = symbol ∧ floorTime event.providerTimestamp 60 = m
    · -- The event's own row: the fold of its minute with the event in front.
      obtain ⟨rfl, rfl⟩ := hpk
      rw [if_pos (by rw [rowKey, ← hs, ← ho]), List.filter_cons_of_pos (by simp)]
      exact foldQuotes_eq_of_aggregates hagg
        (hnodup.sublist (((List.filter_sublist).cons_cons event).map _))
    · -- Any other row: the event does not belong to it.
      rw [if_neg, List.filter_cons_of_neg (by simpa using hpk)]
      · exact h.rows symbol m
      · rw [rowKey, ← hs, ← ho, Prod.mk.injEq]
        exact hpk

/-- Two deliveries with one event id carry the same event. -/
def ConsistentIds (es : List QuoteEvent) : Prop :=
  ∀ e ∈ es, ∀ e' ∈ es, e.eventId = e'.eventId → e = e'

/-- Deliveries to an archive that holds the events `es`: it then holds those delivered too, and
`persist_event` has told which of them were new. -/
theorem persistAll_spec {db : ArchiveDb} {es : List QuoteEvent} (h : Archived db es)
    (ds : List QuoteEvent) (hid : ConsistentIds (es ++ ds)) :
    ∃ db' rs es', persistAll db ds = .ok (db', rs) ∧ Archived db' es' ∧
      (∀ e, e ∈ es' ↔ e ∈ es ∨ e ∈ ds) ∧
      ∀ i (hi : i < ds.length), rs[i]? =
        some (decide (ds[i].eventId ∉ (es ++ ds.take i).map QuoteEvent.eventId)) := by
  -- Each delivery leaves an archive of the events so far, to which the rest is delivered.
  induction ds generalizing db es with
  | nil => exact ⟨db, [], es, rfl, h, by simp, by simp⟩
  | cons d ds ih =>
    by_cases hknown : d.eventId ∈ es.map QuoteEvent.eventId
    · -- A repetition: `d` is already in `es`, and the archive stays.
      obtain ⟨e, he, hde⟩ := List.mem_map.1 hknown
      have hd : d ∈ es := by
        rw [← hid e (by simp [he]) d (by simp) hde]
        exact he
      have hid' : ConsistentIds (es ++ ds) := fun a ha b hb =>
        hid a (by simp at ha ⊢; tauto) b (by simp at hb ⊢; tauto)
      obtain ⟨db', rs, es', hrun, harch, hmem, hres⟩ := ih h hid'
      refine ⟨db', false :: rs, es', ?_, harch, fun e' => ?_, fun i hi => ?_⟩
      · rw [persistAll, persistEvent_known h hknown]
        exact (congrArg (fun x => x >>= fun p => Except.ok (p.1, false :: p.2)) hrun)
      · rw [hmem, List.mem_cons]
        constructor
        · tauto
        · rintro (h1 | rfl | h1)
          · exact Or.inl h1
          · exact Or.inl hd
          · exact Or.inr h1
      · cases i with
        | zero => simpa using hknown
        | succ i =>
          have hi' : i < ds.length := by simpa using hi
          have hswap : ds[i].eventId ∈ (es ++ d :: ds.take i).map QuoteEvent.eventId ↔
              ds[i].eventId ∈ (es ++ ds.take i).map QuoteEvent.eventId := by
            simp only [List.map_append, List.map_cons, List.mem_append, List.mem_cons]
            constructor
            · rintro (h1 | h1 | h1)
              · exact Or.inl h1
              · exact Or.inl (h1 ▸ hknown)
              · exact Or.inr h1
            · tauto
          rw [List.getElem?_cons_succ, hres i hi', List.getElem_cons_succ, List.take_succ_cons]
          exact congrArg some (decide_eq_decide.2 (not_congr hswap.symm))
    · -- A first delivery: `d` joins the events that the archive holds.
      obtain ⟨db₁, hrun₁, harch₁⟩ := persistEvent_new h hknown
      have hid' : ConsistentIds (d :: es ++ ds) := fun a ha b hb =>
        hid a (by simp at ha ⊢; tauto) b (by simp at hb ⊢; tauto)
      obtain ⟨db', rs, es', hrun, harch, hmem, hres⟩ := ih harch₁ hid'
      refine ⟨db', true :: rs, es', ?_, harch, fun e' => ?_, fun i hi => ?_⟩
      · rw [persistAll, hrun₁]
        exact (congrArg (fun x => x >>= fun p => Except.ok (p.1, true :: p.2)) hrun)
      · rw [hmem, List.mem_cons, List.mem_cons]
        tauto
      · cases i with
        | zero => simpa using hknown
        | succ i =>
          have hi' : i < ds.length := by simpa using hi
          have hswap : ds[i].eventId ∈ (es ++ d :: ds.take i).map QuoteEvent.eventId ↔
              ds[i].eventId ∈ (d :: es ++ ds.take i).map QuoteEvent.eventId := by
            simp only [List.map_append, List.map_cons, List.mem_append, List.mem_cons]
            tauto
          rw [List.getElem?_cons_succ, hres i hi', List.getElem_cons_succ, List.take_succ_cons]
          exact congrArg some (decide_eq_decide.2 (not_congr hswap.symm))

/-- An archive's rows are the folds of any list of its events. -/
theorem Archived.rows_of_perm {db : ArchiveDb} {es es' : List QuoteEvent} (h : Archived db es)
    (hp : es.Perm es') (symbol : Symbol) (minute : Timestamp) :
    foldQuotes (es'.filter fun e =>
      e.symbol = symbol ∧ floorTime e.providerTimestamp 60 = minute) =
        .ok (db.candles.find symbol minute) := by
  rw [← h.rows symbol minute]
  exact foldQuotes_perm (sameMinute_filter es symbol minute)
    (h.nodup.sublist (List.filter_sublist.map _)) (hp.filter _)

/-- For all deliveries in which an event id always carries the same event, starting from the empty
archive: every delivery succeeds; `persist_event` returns `True` exactly on the first delivery of
an event id; for every symbol and minute, the row is the fold of `from_quote` and `with_quote` over
the distinct delivered events of that symbol and minute, listed in any order, and there is none
when there is no such event; another order of the same deliveries gives the same rows; and a
repeated delivery changes nothing. -/
theorem persistAll_eq_fold (ds : List QuoteEvent) (hid : ConsistentIds ds) :
    ∃ db rs, persistAll .empty ds = .ok (db, rs) ∧
      (∀ i (hi : i < ds.length), rs[i]? =
        some (decide (ds[i].eventId ∉ (ds.take i).map QuoteEvent.eventId))) ∧
      (∀ es : List QuoteEvent, es.Nodup → (∀ e, e ∈ es ↔ e ∈ ds) → ∀ symbol minute,
        foldQuotes (es.filter fun e =>
          e.symbol = symbol ∧ floorTime e.providerTimestamp 60 = minute) =
            .ok (db.candles.find symbol minute)) ∧
      (∀ ds' : List QuoteEvent, (∀ e, e ∈ ds' ↔ e ∈ ds) → ∃ db' rs',
        persistAll .empty ds' = .ok (db', rs') ∧ ∀ symbol minute,
          db'.candles.find symbol minute = db.candles.find symbol minute) ∧
      ∀ d ∈ ds, persistEvent db d = .ok (db, false) := by
  obtain ⟨db, rs, es₀, hrun, harch, hmem, hres⟩ := persistAll_spec archived_empty ds (by simpa)
  have hmem' : ∀ e, e ∈ es₀ ↔ e ∈ ds := by simpa using hmem
  refine ⟨db, rs, hrun, by simpa using hres, fun es hes hin => ?_, fun ds' hds' => ?_,
    fun d hd => ?_⟩
  · -- Both lists hold the delivered events, each of them once.
    have hp : es₀.Perm es := (List.perm_ext_iff_of_nodup harch.nodup.of_map hes).2
      fun e => (hmem' e).trans (hin e).symm
    exact harch.rows_of_perm hp
  · have hid' : ConsistentIds ds' := fun a ha b hb => hid a ((hds' a).1 ha) b ((hds' b).1 hb)
    obtain ⟨db', rs', es', hrun', harch', hm, -⟩ :=
      persistAll_spec archived_empty ds' (by simpa)
    have hp : es₀.Perm es' := (List.perm_ext_iff_of_nodup harch.nodup.of_map
      harch'.nodup.of_map).2 fun e => by simp [hmem', hm, hds']
    refine ⟨db', rs', hrun', fun symbol minute => ?_⟩
    have heq := (harch.rows_of_perm hp symbol minute).symm.trans (harch'.rows symbol minute)
    exact (Except.ok.inj heq).symm
  · exact persistEvent_known harch (List.mem_map_of_mem ((hmem' d).2 hd))

/-- Two quotes of a minute, the first of them delivered twice. -/
def sampleDeliveries : List QuoteEvent :=
  [.sample 2 (61 * second) 7, .sample 1 (61 * second) 9, .sample 2 (61 * second) 7]

/-- Three deliveries of two events leave the candle of both. -/
theorem persistAll_eq_fold_sampleDeliveries :
    ConsistentIds sampleDeliveries ∧ ∃ db, persistAll .empty sampleDeliveries =
      .ok (db, [true, true, false]) ∧
      foldQuotes [.sample 1 (61 * second) 9, .sample 2 (61 * second) 7] =
        .ok (db.candles.find "AAPL" (60 * second)) ∧
      ∀ d ∈ sampleDeliveries, persistEvent db d = .ok (db, false) := by
  have hid : ConsistentIds sampleDeliveries := by
    unfold ConsistentIds
    decide
  obtain ⟨db, rs, hrun, -, hrows, -, hknown⟩ := persistAll_eq_fold sampleDeliveries hid
  have hrow := hrows [.sample 1 (61 * second) 9, .sample 2 (61 * second) 7] (by decide)
    (fun e => by simp [sampleDeliveries]; tauto) "AAPL" (60 * second)
  have hrs : rs = [true, true, false] := by
    have hrun' : (persistAll .empty sampleDeliveries).map Prod.snd = .ok [true, true, false] := by
      decide
    rw [hrun] at hrun'
    exact Except.ok.inj hrun'
  subst hrs
  exact ⟨hid, db, hrun, hrow, hknown⟩

end MarketDataGateway.Archive
