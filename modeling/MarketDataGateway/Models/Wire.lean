import MarketDataGateway.Lib.Fields
import MarketDataGateway.Models.Quote
import MarketDataGateway.Recorder.Quotes

/-!
# Quote events on the wire

`model_dump(mode="json")`, `model_validate` and their JSON text for `QuoteEvent` of
`domain/models.py`. How pydantic writes and reads a decimal, a UUID and a datetime, what it takes
for an integer, and its JSON text are given from outside.

A dump leaves out what is `None`, writes the capabilities as a sorted list, and nests the semantics
with their `None`s. `modelValidate_dump` is that each of these is read back.
-/

namespace MarketDataGateway.Models

open Lib

/-! ## What pydantic does -/

/-- How pydantic writes and reads. -/
structure Pydantic where
  /-- Decimals. -/
  decimal : Codec PyDecimal
  /-- UUIDs. -/
  uuid : Codec EventId
  /-- Datetimes. -/
  datetime : Codec Datetime
  /-- What else is an integer. -/
  laxInt : Json → Option ℤ
  /-- `str.upper` of a character that is not of ASCII. -/
  special : CodePoint → PyStr
  /-- `to_json`. -/
  write : Json → PyStr
  /-- `from_json`. -/
  read : PyStr → Option Json

/-- What the default factories return. -/
structure Fresh where
  /-- `uuid4()`. -/
  eventId : EventId
  /-- `datetime.now(UTC)`. -/
  receivedAt : AwareDatetime

namespace Pydantic

variable (p : Pydantic)

/-- `PositiveDecimal`. -/
def positiveDecimal : Codec PositiveDecimal := p.decimal.constrain _

/-- `NonNegativeDecimal`. -/
def nonNegativeDecimal : Codec NonNegativeDecimal := p.decimal.constrain _

/-- `NonNegativeInteger`. -/
def nonNegativeInteger : Codec NonNegativeInteger := (Codec.int p.laxInt).constrain _

/-- `PositiveInteger`. -/
def positiveInteger : Codec PositiveInteger := (Codec.int p.laxInt).constrain _

/-- A datetime with `require_timezone`. -/
def awareDatetime : Codec AwareDatetime := p.datetime.constrain _

/-- `Symbol` with `normalize_symbol`. -/
def symbol : Codec Symbol := (Codec.str.constrain _).before (normalize p.special)

/-- `CurrencyCode` with `normalize_currency`. -/
def currency : Codec CurrencyCode := (Codec.str.constrain _).before (normalize p.special)

end Pydantic

/-- `provider`. -/
def Provider.codec : Codec Provider := Codec.str.constrain _

/-- `schema_version`. -/
def SchemaVersion.codec : Codec SchemaVersion := Codec.str.constrain _

/-- `MarketEvidenceCapability`, in the order of the values. -/
def MarketEvidenceCapability.members : List MarketEvidenceCapability :=
  [.level1Quote, .volume, .aggressorFlow, .tradeCount, .topOfBookDepth]

/-- `capabilities`. -/
def Capabilities.codec : Codec (Finset MarketEvidenceCapability) :=
  (Codec.strEnum MarketEvidenceCapability.members MarketEvidenceCapability.value).finset
    MarketEvidenceCapability.members fun c => text c.value

/-- `EvidenceOrigin`. -/
def EvidenceOrigin.codec : Codec EvidenceOrigin :=
  .strEnum [.native, .providerAggregated, .gatewayDerived] EvidenceOrigin.value

/-- `QuantityUnit`. -/
def QuantityUnit.codec : Codec QuantityUnit :=
  .strEnum [.baseAsset, .quoteNotional, .contracts] QuantityUnit.value

/-- `VolumeKind`. -/
def VolumeKind.codec : Codec VolumeKind := .strEnum [.interval, .cumulative] VolumeKind.value

/-! ## Semantics -/

/-- The fields of `VolumeSemantics`. -/
def VolumeFields.items (p : Pydantic) (s : VolumeFields) : List (String × Json) :=
  [("kind", VolumeKind.codec.dump s.kind), ("unit", QuantityUnit.codec.dump s.unit),
    ("aggregation_window_ms", p.positiveInteger.dumpOption s.aggregationWindowMs),
    ("currency", p.currency.dumpOption s.currency), ("origin", EvidenceOrigin.codec.dump s.origin)]

/-- `VolumeSemantics.model_validate`. -/
def VolumeSemantics.modelValidate (p : Pydantic) : Json → Option VolumeSemantics
  | .dict entries => do
    let field name := getKey (text name) entries
    guard (onlyFields ["kind", "unit", "aggregation_window_ms", "currency", "origin"] entries)
    let kind ← VolumeKind.codec.required (field "kind")
    let unit ← QuantityUnit.codec.required (field "unit")
    let aggregationWindowMs ← p.positiveInteger.optional (field "aggregation_window_ms")
    let currency ← p.currency.optional (field "currency")
    let origin ← EvidenceOrigin.codec.required (field "origin")
    let fields : VolumeFields := ⟨kind, unit, aggregationWindowMs, currency, origin⟩
    if valid : fields.validateSemantics = .ok () then some ⟨fields, valid⟩ else none
  | _ => none

/-- The fields of `DepthSemantics`. -/
def DepthFields.items (p : Pydantic) (s : DepthFields) : List (String × Json) :=
  [("unit", QuantityUnit.codec.dump s.unit),
    ("levels", ((Codec.int p.laxInt).constrain _).dump s.levels),
    ("currency", p.currency.dumpOption s.currency), ("origin", EvidenceOrigin.codec.dump s.origin)]

/-- `DepthSemantics.model_validate`. -/
def DepthSemantics.modelValidate (p : Pydantic) : Json → Option DepthSemantics
  | .dict entries => do
    let field name := getKey (text name) entries
    guard (onlyFields ["unit", "levels", "currency", "origin"] entries)
    let unit ← QuantityUnit.codec.required (field "unit")
    let levels ← ((Codec.int p.laxInt).constrain _).defaulted ⟨1, topOfBook_levels⟩ (field "levels")
    let currency ← p.currency.optional (field "currency")
    let origin ← EvidenceOrigin.codec.required (field "origin")
    let fields : DepthFields := ⟨unit, levels, currency, origin⟩
    if valid : fields.validateSemantics = .ok () then some ⟨fields, valid⟩ else none
  | _ => none

/-- The volume semantics are dumped with their keys in order. -/
theorem VolumeFields.sorted_items (p : Pydantic) (s : VolumeFields) :
    ∀ f ∈ s.items p, f.2.Sorted := by
  simp only [items, List.forall_mem_cons, List.not_mem_nil, false_implies, implies_true, and_true]
  exact ⟨VolumeKind.codec.sorted_dump _, QuantityUnit.codec.sorted_dump _,
    Codec.sorted_dumpOption _, Codec.sorted_dumpOption _, EvidenceOrigin.codec.sorted_dump _⟩

/-- The depth semantics are dumped with their keys in order. -/
theorem DepthFields.sorted_items (p : Pydantic) (s : DepthFields) :
    ∀ f ∈ s.items p, f.2.Sorted := by
  simp only [items, List.forall_mem_cons, List.not_mem_nil, false_implies, implies_true, and_true]
  exact ⟨QuantityUnit.codec.sorted_dump _, Codec.sorted_dump _ _, Codec.sorted_dumpOption _,
    EvidenceOrigin.codec.sorted_dump _⟩

/-- `VolumeSemantics` as a field. -/
def Pydantic.volumeSemantics (p : Pydantic) : Codec VolumeSemantics where
  dump s := .dict (object (s.items p))
  parse := VolumeSemantics.modelValidate p
  sorted_dump s := sorted_object (s.sorted_items p)
  dump_ne_null _ := nofun

/-- `DepthSemantics` as a field. -/
def Pydantic.depthSemantics (p : Pydantic) : Codec DepthSemantics where
  dump s := .dict (object (s.items p))
  parse := DepthSemantics.modelValidate p
  sorted_dump s := sorted_object (s.sorted_items p)
  dump_ne_null _ := nofun

/-! ### Reading semantics back -/

section Exact

variable {p : Pydantic}

/-- A kind of volume comes through. -/
theorem exact_kind (k : VolumeKind) : VolumeKind.codec.Exact k :=
  Codec.exact_strEnum (by cases k <;> decide) (by intro a b; cases a <;> cases b <;> decide)

/-- A unit of quantity comes through. -/
theorem exact_unit (u : QuantityUnit) : QuantityUnit.codec.Exact u :=
  Codec.exact_strEnum (by cases u <;> decide) (by intro a b; cases a <;> cases b <;> decide)

/-- An origin of evidence comes through. -/
theorem exact_origin (o : EvidenceOrigin) : EvidenceOrigin.codec.Exact o :=
  Codec.exact_strEnum (by cases o <;> decide) (by intro a b; cases a <;> cases b <;> decide)

/-- A set of capabilities comes through. -/
theorem exact_capabilities (s : Finset MarketEvidenceCapability) : Capabilities.codec.Exact s :=
  Codec.exact_finset (fun c _ => by cases c <;> decide) fun c _ =>
    Codec.exact_strEnum (by cases c <;> decide) (by intro a b; cases a <;> cases b <;> decide)

/-- A currency code comes through. -/
theorem exact_currency (c : CurrencyCode) : p.currency.Exact c := by
  refine Codec.Exact.before (Codec.Exact.constrain (Codec.exact_str _)) ?_
  exact normalize_eq p.special (all_isSymbolChar c.2.2.2)

/-- A provider comes through. -/
theorem exact_provider (s : Provider) : Provider.codec.Exact s :=
  Codec.Exact.constrain (Codec.exact_str _)

/-- A schema version comes through. -/
theorem exact_schemaVersion (s : SchemaVersion) : SchemaVersion.codec.Exact s :=
  Codec.Exact.constrain (Codec.exact_str _)

/-- A symbol comes through. -/
theorem exact_symbol (s : Symbol) : p.symbol.Exact s :=
  Codec.Exact.before (Codec.Exact.constrain (Codec.exact_str _))
    (normalize_eq p.special s.2.2.2)

/-- A positive integer comes through. -/
theorem exact_positiveInteger (n : PositiveInteger) : p.positiveInteger.Exact n :=
  Codec.Exact.constrain (Codec.exact_int p.laxInt n.1)

/-- A non-negative integer comes through. -/
theorem exact_nonNegativeInteger (n : NonNegativeInteger) : p.nonNegativeInteger.Exact n :=
  Codec.Exact.constrain (Codec.exact_int p.laxInt n.1)

/-- Volume semantics come through. -/
theorem exact_volumeSemantics (s : VolumeSemantics) : p.volumeSemantics.Exact s := by
  have hnodup : ((s.items p).map Prod.fst).Nodup := by simp [VolumeFields.items]
  have hknown : ∀ f ∈ s.items p, f.1 ∈
      ["kind", "unit", "aggregation_window_ms", "currency", "origin"] := by
    simp [VolumeFields.items]
  show VolumeSemantics.modelValidate p (.dict (object (s.items p))) = some s
  simp only [VolumeSemantics.modelValidate, onlyFields_object _ hknown, getKey_object hnodup]
  simp only [VolumeFields.items, List.lookup_cons, String.reduceBEq]
  simp only [Codec.required_dump (exact_kind s.kind), Codec.required_dump (exact_unit s.unit),
    Codec.optional_dump fun n _ => exact_positiveInteger n,
    Codec.optional_dump fun c _ => exact_currency c,
    Codec.required_dump (exact_origin s.origin)]
  exact dif_pos s.valid

/-- Depth semantics come through. -/
theorem exact_depthSemantics (s : DepthSemantics) : p.depthSemantics.Exact s := by
  have hnodup : ((s.items p).map Prod.fst).Nodup := by simp [DepthFields.items]
  have hknown : ∀ f ∈ s.items p, f.1 ∈ ["unit", "levels", "currency", "origin"] := by
    simp [DepthFields.items]
  have hlevels : ((Codec.int p.laxInt).constrain _).Exact s.levels :=
    Codec.Exact.constrain (Codec.exact_int p.laxInt s.levels.1)
  show DepthSemantics.modelValidate p (.dict (object (s.items p))) = some s
  simp only [DepthSemantics.modelValidate, onlyFields_object _ hknown, getKey_object hnodup]
  simp only [DepthFields.items, List.lookup_cons, String.reduceBEq]
  simp only [Codec.required_dump (exact_unit s.unit), Codec.defaulted_dump hlevels,
    Codec.optional_dump fun c _ => exact_currency c,
    Codec.required_dump (exact_origin s.origin)]
  exact dif_pos s.valid

end Exact

/-! ## Quotes -/

/-- The names of the fields of `QuoteEvent`. -/
def QuoteFields.names : List String :=
  ["schema_version", "event_id", "symbol", "price", "bid", "ask", "provider_timestamp",
    "received_at", "sequence", "provider", "capabilities", "volume", "buy_volume", "sell_volume",
    "trade_count", "bid_depth", "ask_depth", "volume_semantics", "depth_semantics"]

/-- What `handler(self)` returns. -/
def QuoteFields.items (p : Pydantic) (e : QuoteFields) : List (String × Json) :=
  [("schema_version", SchemaVersion.codec.dump e.schemaVersion),
    ("event_id", p.uuid.dump e.eventId),
    ("symbol", p.symbol.dump e.symbol),
    ("price", p.positiveDecimal.dump e.price),
    ("bid", p.positiveDecimal.dumpOption e.bid),
    ("ask", p.positiveDecimal.dumpOption e.ask),
    ("provider_timestamp", p.awareDatetime.dump e.providerTimestamp),
    ("received_at", p.awareDatetime.dump e.receivedAt),
    ("sequence", p.nonNegativeInteger.dumpOption e.sequence),
    ("provider", Provider.codec.dump e.provider),
    ("capabilities", Capabilities.codec.dump e.capabilities),
    ("volume", p.nonNegativeDecimal.dumpOption e.volume),
    ("buy_volume", p.nonNegativeDecimal.dumpOption e.buyVolume),
    ("sell_volume", p.nonNegativeDecimal.dumpOption e.sellVolume),
    ("trade_count", p.nonNegativeInteger.dumpOption e.tradeCount),
    ("bid_depth", p.nonNegativeDecimal.dumpOption e.bidDepth),
    ("ask_depth", p.nonNegativeDecimal.dumpOption e.askDepth),
    ("volume_semantics", p.volumeSemantics.dumpOption e.volumeSemantics),
    ("depth_semantics", p.depthSemantics.dumpOption e.depthSemantics)]

/-- `model_dump(mode="json")`, with `serialize_available_evidence`. -/
def QuoteFields.modelDump (p : Pydantic) (e : QuoteFields) : Json :=
  .dict (object (dropNull (e.items p)))

/-- `model_dump_json()`. -/
def QuoteFields.modelDumpJson (p : Pydantic) (e : QuoteFields) : PyStr := p.write (e.modelDump p)

/-- The fields of `QuoteEvent`, before its own validator. `none` stands for an exception. -/
def QuoteFields.parse (p : Pydantic) (fresh : Fresh) : Json → Option QuoteFields
  | .dict entries => do
    let field name := getKey (text name) entries
    guard (onlyFields QuoteFields.names entries)
    let schemaVersion ← SchemaVersion.codec.defaulted ⟨text "1.0", by decide⟩
      (field "schema_version")
    let eventId ← p.uuid.defaulted fresh.eventId (field "event_id")
    let symbol ← p.symbol.required (field "symbol")
    let price ← p.positiveDecimal.required (field "price")
    let bid ← p.positiveDecimal.optional (field "bid")
    let ask ← p.positiveDecimal.optional (field "ask")
    let providerTimestamp ← p.awareDatetime.required (field "provider_timestamp")
    let receivedAt ← p.awareDatetime.defaulted fresh.receivedAt (field "received_at")
    let sequence ← p.nonNegativeInteger.optional (field "sequence")
    let provider ← Provider.codec.required (field "provider")
    let capabilities ← Capabilities.codec.defaulted {.level1Quote} (field "capabilities")
    let volume ← p.nonNegativeDecimal.optional (field "volume")
    let buyVolume ← p.nonNegativeDecimal.optional (field "buy_volume")
    let sellVolume ← p.nonNegativeDecimal.optional (field "sell_volume")
    let tradeCount ← p.nonNegativeInteger.optional (field "trade_count")
    let bidDepth ← p.nonNegativeDecimal.optional (field "bid_depth")
    let askDepth ← p.nonNegativeDecimal.optional (field "ask_depth")
    let volumeSemantics ← p.volumeSemantics.optional (field "volume_semantics")
    let depthSemantics ← p.depthSemantics.optional (field "depth_semantics")
    return {
      schemaVersion, eventId, symbol, price, bid, ask, providerTimestamp, receivedAt, sequence,
      provider, capabilities, volume, buyVolume, sellVolume, tradeCount, bidDepth, askDepth,
      volumeSemantics, depthSemantics }
  | _ => none

/-- `QuoteEvent.model_validate`. `none` stands for an exception. -/
def QuoteEvent.modelValidate (p : Pydantic) (fresh : Fresh) (v : Json) : Option QuoteEvent := do
  let fields ← QuoteFields.parse p fresh v
  if valid : fields.validateMarket = .ok () then some ⟨fields, valid⟩ else none

/-- `QuoteEvent.model_validate_json`. -/
def QuoteEvent.modelValidateJson (p : Pydantic) (fresh : Fresh) (s : PyStr) : Option QuoteEvent :=
  (p.read s).bind (QuoteEvent.modelValidate p fresh)

section RoundTrip

variable {p : Pydantic} {fresh : Fresh} {e : QuoteEvent}

/-- No two fields of a quote have one name. -/
theorem QuoteFields.nodup_items (e : QuoteFields) : ((e.items p).map Prod.fst).Nodup := by
  simp [items]

/-- The fields of a quote are those that the model has. -/
theorem QuoteFields.known_items (e : QuoteFields) : ∀ f ∈ e.items p, f.1 ∈ names := by
  simp [items, names]

/-- A quote is dumped with its keys in order. -/
theorem QuoteFields.sorted_modelDump (e : QuoteFields) : (e.modelDump p).Sorted := by
  refine sorted_object fun f hf => ?_
  have hitem : f ∈ e.items p := List.mem_of_mem_filter hf
  have hall : ∀ f ∈ e.items p, f.2.Sorted := by
    simp [items, Codec.sorted_dump, Codec.sorted_dumpOption]
  exact hall f hitem

/-- The decimals of an event. -/
def QuoteFields.decimals (e : QuoteFields) : List PyDecimal :=
  e.price.1 :: ([e.bid, e.ask].flatMap fun o => (o.map Subtype.val).toList) ++
    [e.volume, e.buyVolume, e.sellVolume, e.bidDepth, e.askDepth].flatMap fun o =>
      (o.map Subtype.val).toList

/-- What pydantic promises, for the values of an event. -/
structure Pydantic.Exact (p : Pydantic) (e : QuoteFields) : Prop where
  /-- A decimal is read back. -/
  decimal : ∀ d ∈ e.decimals, p.decimal.Exact d
  /-- A UUID is read back. -/
  uuid : p.uuid.Exact e.eventId
  /-- A datetime with a timezone is read back as one of the same instant. -/
  datetime : ∀ t ∈ [e.providerTimestamp, e.receivedAt], ∃ t' : AwareDatetime,
    t'.1.instant = t.1.instant ∧ p.datetime.parse (p.datetime.dump t.1) = some t'.1
  /-- The JSON text is read back. -/
  text : p.read (p.write (e.modelDump p)) = some (e.modelDump p)

/-- The events are equal: datetimes are compared by their instants. -/
structure QuoteEvent.Same (e e' : QuoteEvent) : Prop where
  providerTimestamp : e'.providerTimestamp.1.instant = e.providerTimestamp.1.instant
  receivedAt : e'.receivedAt.1.instant = e.receivedAt.1.instant
  rest : e'.toQuoteFields =
    { e.toQuoteFields with
      providerTimestamp := e'.providerTimestamp, receivedAt := e'.receivedAt }

/-- A positive decimal of a quote comes through. -/
theorem Pydantic.Exact.positive (h : p.Exact e.toQuoteFields) {o : Option PositiveDecimal}
    (ho : o ∈ [e.bid, e.ask]) : ∀ d ∈ o, p.positiveDecimal.Exact d := by
  intro d hd
  refine Codec.Exact.constrain (h.decimal d.1 (List.mem_cons_of_mem _ ?_))
  refine List.mem_append_left _ (List.mem_flatMap.2 ⟨o, ho, ?_⟩)
  rw [Option.mem_def.1 hd]
  exact List.mem_singleton.2 rfl

/-- A non-negative decimal of a quote comes through. -/
theorem Pydantic.Exact.nonNegative (h : p.Exact e.toQuoteFields) {o : Option NonNegativeDecimal}
    (ho : o ∈ [e.volume, e.buyVolume, e.sellVolume, e.bidDepth, e.askDepth]) :
    ∀ d ∈ o, p.nonNegativeDecimal.Exact d := by
  intro d hd
  refine Codec.Exact.constrain (h.decimal d.1 (List.mem_cons_of_mem _ ?_))
  refine List.mem_append_right _ (List.mem_flatMap.2 ⟨o, ho, ?_⟩)
  rw [Option.mem_def.1 hd]
  exact List.mem_singleton.2 rfl

/-- An aware datetime is read back as one of the same instant. -/
theorem Pydantic.Exact.aware (h : p.Exact e.toQuoteFields) {t : AwareDatetime}
    (ht : t ∈ [e.providerTimestamp, e.receivedAt]) : ∃ t' : AwareDatetime,
      t'.1.instant = t.1.instant ∧ p.awareDatetime.parse (p.awareDatetime.dump t) = some t' := by
  obtain ⟨t', hinstant, hparse⟩ := h.datetime t ht
  refine ⟨t', hinstant, ?_⟩
  show (p.datetime.parse (p.datetime.dump t.1)).bind _ = some t'
  rw [hparse, Option.bind_some, dif_pos t'.2]

/-- A dump is read back. -/
theorem QuoteEvent.exists_modelValidate (fresh : Fresh) (h : p.Exact e.toQuoteFields) :
    ∃ e', e.Same e' ∧ QuoteEvent.modelValidate p fresh (e.modelDump p) = some e' := by
  obtain ⟨providerTimestamp, hprovider, hreadProvider⟩ := h.aware List.mem_cons_self
  obtain ⟨receivedAt, hreceived, hreadReceived⟩ :=
    h.aware (List.mem_cons_of_mem _ List.mem_cons_self)
  let e' : QuoteEvent := ⟨{ e.toQuoteFields with providerTimestamp, receivedAt }, e.valid⟩
  refine ⟨e', ⟨hprovider, hreceived, rfl⟩, ?_⟩
  have hknown : ∀ f ∈ dropNull (e.items p), f.1 ∈ QuoteFields.names := fun f hf =>
    e.known_items f (List.mem_of_mem_filter hf)
  suffices hparse : QuoteFields.parse p fresh (e.modelDump p) = some e'.toQuoteFields by
    unfold QuoteEvent.modelValidate
    rw [hparse]
    exact dif_pos e.valid
  show QuoteFields.parse p fresh (.dict (object (dropNull (e.items p)))) = some e'.toQuoteFields
  simp only [QuoteFields.parse, onlyFields_object _ hknown, getKey_dropNull e.nodup_items]
  simp only [QuoteFields.items, List.lookup_cons, String.reduceBEq]
  -- What is required or has a default is there, and what is optional may be left out.
  simp only [Codec.filter_dump, Codec.optional_filter]
  have hprice : p.positiveDecimal.Exact e.price :=
    Codec.Exact.constrain (h.decimal e.price.1 List.mem_cons_self)
  have hsequence : ∀ n ∈ e.sequence, p.nonNegativeInteger.Exact n := fun n _ =>
    exact_nonNegativeInteger n
  have hcount : ∀ n ∈ e.tradeCount, p.nonNegativeInteger.Exact n := fun n _ =>
    exact_nonNegativeInteger n
  simp only [Codec.defaulted_dump (exact_schemaVersion e.schemaVersion),
    Codec.defaulted_dump h.uuid, Codec.required_dump (exact_symbol e.symbol),
    Codec.required_dump hprice, Codec.optional_dump (h.positive (o := e.bid) (by simp)),
    Codec.optional_dump (h.positive (o := e.ask) (by simp)),
    Codec.optional_dump hsequence, Codec.required_dump (exact_provider e.provider),
    Codec.defaulted_dump (exact_capabilities e.capabilities),
    Codec.optional_dump (h.nonNegative (o := e.volume) (by simp)),
    Codec.optional_dump (h.nonNegative (o := e.buyVolume) (by simp)),
    Codec.optional_dump (h.nonNegative (o := e.sellVolume) (by simp)),
    Codec.optional_dump hcount,
    Codec.optional_dump (h.nonNegative (o := e.bidDepth) (by simp)),
    Codec.optional_dump (h.nonNegative (o := e.askDepth) (by simp)),
    Codec.optional_dump fun s _ => exact_volumeSemantics s,
    Codec.optional_dump fun s _ => exact_depthSemantics s]
  simp only [Codec.required_dump hreadProvider, Codec.defaulted_dump hreadReceived]
  rfl

/-! ### Where events are stored -/

/-- The symbol is in what is dumped of a quote. -/
theorem getKey_modelDump_symbol (e : QuoteFields) :
    getKey (text "symbol") (object (dropNull (e.items p))) = some (.str e.symbol.1) := by
  rw [getKey_dropNull e.nodup_items]
  simp only [QuoteFields.items, List.lookup_cons, String.reduceBEq]
  exact Codec.filter_dump p.symbol e.symbol

/-- The sequence is in what is dumped of a quote, if there is one. -/
theorem getKey_modelDump_sequence (e : QuoteFields) :
    getKey (text "sequence") (object (dropNull (e.items p))) =
      (e.sequence.map fun n => n.1.toNat).map fun n => .int n := by
  rw [getKey_dropNull e.nodup_items]
  simp only [QuoteFields.items, List.lookup_cons, String.reduceBEq]
  cases e.sequence with
  | none => rfl
  | some n =>
    have hnat : ((n.1.toNat : ℕ) : ℤ) = n.1 := Int.toNat_of_nonneg n.2
    show some (Json.int n.1) = some (Json.int n.1.toNat)
    rw [hnat]

/-- The event as the recorder sees it. -/
def QuoteEvent.recorded (p : Pydantic) (e : QuoteEvent) : Recorder.Quote where
  symbol := e.symbol.1
  sequence := e.sequence.map fun n : NonNegativeInteger => n.1.toNat
  dump := ⟨object (dropNull (e.items p)), e.sorted_modelDump⟩
  symbol_dump := getKey_modelDump_symbol e.toQuoteFields
  sequence_dump := getKey_modelDump_sequence e.toQuoteFields

/-- The validators of the recorder. -/
def validators (p : Pydantic) (fresh : Fresh)
    (streamMessage : Recorder.Record → Option Recorder.StreamMessage) : Recorder.Validators where
  streamMessage := streamMessage
  quoteEvent r := (QuoteEvent.modelValidate p fresh r.toJson).map (QuoteEvent.recorded p)

/-- The fields of the stream entry of `publish_quote`. -/
def publishQuote (p : Pydantic) (e : QuoteEvent) : List (String × PyStr) :=
  [("payload", e.modelDumpJson p)]

/-- The event of a stream entry, in `_process_one`. -/
def readEntry (p : Pydantic) (fresh : Fresh) (fields : List (String × PyStr)) : Option QuoteEvent :=
  (fields.lookup "payload").bind (QuoteEvent.modelValidateJson p fresh)

/-- The quote that a recorded message carries is the one that is validated. -/
theorem quoteFromMessage_eq {r : Recorder.Record} {data : Recorder.Record}
    {streamMessage : Recorder.Record → Option Recorder.StreamMessage} {e' : QuoteEvent}
    (hdata : data.get (text "quote") = some r.toJson)
    (h : QuoteEvent.modelValidate p fresh r.toJson = some e') :
    Recorder.quoteFromMessage (validators p fresh streamMessage) ⟨.quote, data⟩ =
      some (some (e'.recorded p, ⟨text "quote", false⟩)) := by
  have hpayload : Recorder.quotePayload data = some r := by
    unfold Recorder.quotePayload
    split
    · next hnone => rw [hnone] at hdata; exact absurd hdata nofun
    · next v hv =>
      obtain rfl : v = r.toJson := Option.some.inj (hv.symm.trans hdata)
      rfl
  have hvalidate : (validators p fresh streamMessage).quoteEvent r = some (e'.recorded p) := by
    show (QuoteEvent.modelValidate p fresh r.toJson).map _ = _
    rw [h]
    rfl
  unfold Recorder.quoteFromMessage
  dsimp only
  rw [hpayload, Option.bind_some, hvalidate]
  rfl

/-! ### Normalisation -/

/-- What a constrained string is parsed from becomes the string. -/
theorem parse_before_str {q : PyStr → Prop} [DecidablePred q] {f : Json → Json} {v : Json}
    {s : { s : PyStr // q s }} (h : ((Codec.str.constrain q).before f).parse v = some s) :
    f v = .str s.1 := by
  obtain ⟨t, ht, hs⟩ := Option.bind_eq_some_iff.1
    (show (Codec.str.parse (f v)).bind _ = some s from h)
  split_ifs at hs with hq
  rw [← Option.some.inj hs]
  cases hv : f v with
  | str u =>
    rw [hv] at ht
    exact congrArg Json.str (Option.some.inj ht)
  | _ =>
    rw [hv] at ht
    exact absurd ht nofun

/-- Normalising what has been accepted changes nothing. -/
theorem normalize_normalize {q : PyStr → Prop} [DecidablePred q] {v : Json}
    {s : { s : PyStr // q s }} (hq : ∀ s, q s → s.all isSymbolChar = true)
    (h : ((Codec.str.constrain q).before (normalize p.special)).parse v = some s) :
    normalize p.special (normalize p.special v) = normalize p.special v := by
  rw [parse_before_str h]
  exact normalize_eq p.special (hq s.1 s.2)

/-! ### The round trip -/

/-- An event is read back from each of its dumps, from the entry of the stream and by the recorder,
and normalising is idempotent. -/
theorem QuoteEvent.modelValidate_modelDump (p : Pydantic) (fresh : Fresh)
    (streamMessage : Recorder.Record → Option Recorder.StreamMessage) (e : QuoteEvent)
    (h : p.Exact e.toQuoteFields) :
    (∃ e', e.Same e' ∧
      QuoteEvent.modelValidate p fresh (e.modelDump p) = some e' ∧
      QuoteEvent.modelValidateJson p fresh (e.modelDumpJson p) = some e' ∧
      readEntry p fresh (publishQuote p e) = some e' ∧
      ∀ data : Recorder.Record, data.get (text "quote") = some (e.modelDump p) →
        Recorder.quoteFromMessage (validators p fresh streamMessage) ⟨.quote, data⟩ =
          some (some (e'.recorded p, ⟨text "quote", false⟩))) ∧
      (∀ v s, p.symbol.parse v = some s →
        normalize p.special (normalize p.special v) = normalize p.special v) ∧
      ∀ v c, p.currency.parse v = some c →
        normalize p.special (normalize p.special v) = normalize p.special v := by
  obtain ⟨e', hsame, hread⟩ := QuoteEvent.exists_modelValidate fresh h
  have hjson : QuoteEvent.modelValidateJson p fresh (e.modelDumpJson p) = some e' := by
    unfold QuoteEvent.modelValidateJson QuoteFields.modelDumpJson
    rw [h.text, Option.bind_some, hread]
  refine ⟨⟨e', hsame, hread, hjson, hjson, fun data hdata => ?_⟩,
    fun v s hs => ?_, fun v c hc => ?_⟩
  · exact quoteFromMessage_eq (r := (e.recorded p).dump) hdata hread
  · exact normalize_normalize (fun s hs => hs.2.2) hs
  · exact normalize_normalize (fun s hs => all_isSymbolChar hs.2.2) hc

end RoundTrip

/-! ### An event -/

/-- Codecs of the values of `sample`. -/
def samplePydantic : Pydantic where
  decimal := {
    dump := fun d => .str (if d = ⟨false, 15, -1⟩ then text "1.5" else text "3")
    parse := fun
      | .str s =>
        if s = text "1.5" then some ⟨false, 15, -1⟩
        else if s = text "3" then some ⟨false, 3, 0⟩
        else none
      | _ => none
    sorted_dump := fun _ => .str _
    dump_ne_null := fun _ => nofun }
  uuid := {
    dump := fun _ => .str (text "00000000-0000-0000-0000-000000000001")
    parse := fun
      | .str s => if s = text "00000000-0000-0000-0000-000000000001" then some 1 else none
      | _ => none
    sorted_dump := fun _ => .str _
    dump_ne_null := fun _ => nofun }
  datetime := {
    dump := fun _ => .str (text "1970-01-01T01:00:00+01:00")
    parse := fun
      | .str s =>
        if s = text "1970-01-01T01:00:00+01:00" then some ⟨3600 * second, some (3600 * second)⟩
        else none
      | _ => none
    sorted_dump := fun _ => .str _
    dump_ne_null := fun _ => nofun }
  laxInt _ := none
  special c := [c]
  write := Json.encode
  read s := (decodeText s).toOption

/-- An event with a volume and without a depth. -/
def sample : QuoteEvent where
  schemaVersion := ⟨text "1.1", isSchemaVersion_current⟩
  eventId := 1
  symbol := ⟨text "BTC-USD", by decide⟩
  price := ⟨⟨false, 15, -1⟩, by decide +kernel⟩
  bid := none
  ask := some ⟨⟨false, 3, 0⟩, by decide +kernel⟩
  providerTimestamp := ⟨⟨3600 * second, some (3600 * second)⟩, rfl⟩
  receivedAt := ⟨⟨3600 * second, some (3600 * second)⟩, rfl⟩
  sequence := some ⟨7, by decide⟩
  provider := ⟨text "mock", by decide⟩
  capabilities := {.level1Quote, .volume}
  volume := some ⟨⟨false, 3, 0⟩, by decide +kernel⟩
  buyVolume := none
  sellVolume := none
  tradeCount := none
  bidDepth := none
  askDepth := none
  volumeSemantics := some ⟨⟨.cumulative, .quoteNotional, none, some ⟨text "USD", by decide⟩,
    .native⟩, by decide⟩
  depthSemantics := none
  valid := by decide +kernel

/-- The sample writes what it reads. -/
theorem read_write {v : Json} (hs : v.Sorted) (hf : v.fits = true) :
    samplePydantic.read (samplePydantic.write v) = some v := by
  show (decodeText v.encode).toOption = some v
  rw [decodeText_encode hs hf]
  rfl

/-- The sample quote comes through. -/
theorem exact_sample : samplePydantic.Exact sample.toQuoteFields where
  decimal := by
    have hdecimals : sample.decimals = [⟨false, 15, -1⟩, ⟨false, 3, 0⟩, ⟨false, 3, 0⟩] := rfl
    rw [hdecimals]
    simp only [List.forall_mem_cons, List.not_mem_nil, false_implies, implies_true, and_true]
    exact ⟨rfl, rfl, rfl⟩
  uuid := rfl
  datetime := by
    simp only [List.forall_mem_cons, List.not_mem_nil, false_implies, implies_true, and_true]
    exact ⟨⟨_, rfl, rfl⟩, ⟨_, rfl, rfl⟩⟩
  text := read_write sample.sorted_modelDump (by decide +kernel)

/-- The event is read back from its dump and from its text. -/
theorem modelValidate_modelDump_sample : ∃ e', sample.Same e' ∧
    QuoteEvent.modelValidate samplePydantic ⟨0, sample.receivedAt⟩
      (sample.modelDump samplePydantic) = some e' ∧
    QuoteEvent.modelValidateJson samplePydantic ⟨0, sample.receivedAt⟩
      (sample.modelDumpJson samplePydantic) = some e' := by
  obtain ⟨⟨e', hsame, hread, hjson, -⟩, -⟩ := QuoteEvent.modelValidate_modelDump samplePydantic
    ⟨0, sample.receivedAt⟩ (fun _ => none) sample exact_sample
  exact ⟨e', hsame, hread, hjson⟩

end MarketDataGateway.Models
