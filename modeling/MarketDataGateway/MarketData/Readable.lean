import MarketDataGateway.MarketData.ReadQuotes
import MarketDataGateway.Session.Frames

/-!
# Which frames the browser can read

A frame of the gateway is read as a message of its type, with the values of its quote, if and only
if its values are within the bounds of the browser's schemas (`readable_iff`). Besides those of a
quote, a `request_id` must not be empty nor longer than 128 units of UTF-16, and counts have to be
safe integers.
-/

namespace MarketDataGateway.MarketData

open Lib Models
open Session (Frame Reply TierPolicyConfig)

/-! ## Frames -/

/-- The limits of a policy are within the bounds of the browser. -/
structure PolicyFits (policy : TierPolicyConfig) : Prop where
  /-- The limits are safe integers. -/
  limits : ∀ n ∈ [policy.maxSymbols, policy.maxConnections, policy.restRequestsPerMinute,
    policy.subscriptionOpsPerMinute], n.1 ≤ Schema.maxSafeInteger
  /-- The rate is finite. -/
  updatesPerSecond : policy.updatesPerSecond.1.value.isSome
  /-- The depth is named. -/
  marketDepth : policy.marketDepth ≠ []

/-- The values of an answer are within the bounds of the browser. -/
def ReplyFits (minutes : ℤ → ℤ) : Reply → Prop
  | .snapshot e _ ageMs =>
    QuoteFits minutes e.toQuoteFields ∧ 0 ≤ ageMs ∧ ageMs ≤ Schema.maxSafeInteger
  | _ => True

/-- The data of a frame are within the bounds of the browser. -/
def DataFits (minutes : ℤ → ℤ) : Frame → Prop
  | .connected _ _ _ policy _ activeConnections =>
    PolicyFits policy ∧ activeConnections ≤ Schema.maxSafeInteger
  | .reply _ data => ReplyFits minutes data
  | .quote e => QuoteFits minutes e.toQuoteFields
  | .slowConsumer coalescedEvents => coalescedEvents ≤ Schema.maxSafeInteger
  | .idleTimeout => True
  | .heartbeat _ => True

/-- The values of a frame are within the bounds of the browser. -/
structure FrameFits (minutes : ℤ → ℤ) (frame : Frame) : Prop where
  /-- `request_id` is neither empty nor too long. -/
  requestId : ∀ s ∈ frame.requestId, s.1 ≠ [] ∧ (utf16 s.1).length ≤ 128
  /-- The data fit. -/
  data : DataFits minutes frame

/-- The browser accepts a frame as a message of its type, with the values of its quote. -/
def Readable (p : Pydantic) (timestamp : Datetime) (frame : Frame) : Prop :=
  ∃ w, safeParseWireMessage (frame.modelDump p timestamp) = some w ∧ w.data.type = frame.type ∧
    ∀ e ∈ frame.quote?, ∃ q ∈ w.data.quote?, Carries e.toQuoteFields (normalizeWireQuote q)

section Frames

variable {p : Pydantic} {minutes : ℤ → ℤ} {timestamp : Datetime} {frame : Frame} {w : WireMessage}
  {s t : String} {α : Type}

/-- A literal is compared as a string. -/
theorem literal_text (hs : s.toList.all (fun c => c.toNat < 0x80) = true)
    (ht : t.toList.all (fun c => c.toNat < 0x80) = true) :
    Schema.literal s (.str (text t)) = if s = t then some () else none := by
  have hiff : js t = js s ↔ s = t := by
    constructor
    · intro h
      have hunits : units (js t) = units (js s) := congrArg units h
      unfold js at hunits
      rw [(isAscii_text t ht).units_utf16, (isAscii_text s hs).units_utf16] at hunits
      exact (text_injective hunits).symm
    · exact fun h => congrArg js h.symm
  show (some (js t)).bind (fun u => guard (u = js s)) = _
  rw [Option.bind_some, guard]
  simp only [hiff]
  rfl

/-- The types of messages have characters of ASCII only. -/
theorem ascii_types : ∀ t ∈ ["connected", "ack", "snapshot", "quote", "heartbeat",
    "warning", "error"],
    t.toList.all (fun c => c.toNat < 0x80) = true := by decide

/-- The types of the messages are of ASCII. -/
theorem ascii_type (frame : Frame) : frame.type.toList.all (fun c => c.toNat < 0x80) = true := by
  refine ascii_types _ ?_
  cases frame with
  | reply requestId data => cases data <;> simp [Frame.type, Reply.type]
  | _ => simp [Frame.type]

/-- The types that the schemas know are of ASCII. -/
theorem ascii_messageSchemas (m : String × Schema WireData) (hm : m ∈ messageSchemas) :
    m.1.toList.all (fun c => c.toNat < 0x80) = true := by
  have hmem : m.1 ∈ messageSchemas.map Prod.fst := List.mem_map_of_mem hm
  refine ascii_types _ ?_
  simp only [messageSchemas, List.map_cons, List.map_nil, List.mem_cons,
    List.not_mem_nil, or_false] at hmem ⊢
  rcases hmem with h | h | h | h | h | h | h | h <;> simp [h]

/-- What the schemas for a type make of data. -/
def dataSchema (type : String) : Schema WireData := fun v =>
  messageSchemas.findSome? fun m => if m.1 = type then m.2 v else none

/-- What the schema of a message makes of a frame. -/
theorem message_modelDump {m : String × Schema WireData} (hm : m ∈ messageSchemas) :
    message m.1 m.2 (frame.modelDump p timestamp) = if m.1 = frame.type then do
      let at' ← Schema.dateTime (p.datetime.dump timestamp)
      let requestId ← (Schema.within 128).nullish (some (match frame.requestId with
        | none => .null
        | some s => .str s.1))
      let data ← m.2 (.dict (object (frame.items p)))
      return ⟨at', requestId, data⟩
    else none := by
  have hget (u v x y : Json) (name : String) :
      getKey (text name) (object [("type", u), ("timestamp", v), ("request_id", x), ("data", y)]) =
        [("type", u), ("timestamp", v), ("request_id", x), ("data", y)].lookup name :=
    getKey_object (by simp)
  have hliteral := literal_text (ascii_messageSchemas m hm) (ascii_type frame)
  unfold message Frame.modelDump
  simp only [Schema.object, hget, List.lookup_cons, String.reduceBEq, Schema.required,
    Option.bind_some, hliteral]
  split_ifs
  · rfl
  · rfl

/-- The first schema that accepts a frame is the first one for its type that accepts its data. -/
theorem wireMessageSchema_modelDump :
    wireMessageSchema (frame.modelDump p timestamp) = do
      let at' ← Schema.dateTime (p.datetime.dump timestamp)
      let requestId ← (Schema.within 128).nullish (some (match frame.requestId with
        | none => .null
        | some s => .str s.1))
      let data ← dataSchema frame.type (.dict (object (frame.items p)))
      return ⟨at', requestId, data⟩ := by
  have hmessage (m : String × Schema WireData) (hm : m ∈ messageSchemas) :=
    @message_modelDump p timestamp frame m hm
  unfold wireMessageSchema dataSchema
  generalize (Schema.within 128).nullish _ = requestId at hmessage ⊢
  generalize Schema.dateTime (p.datetime.dump timestamp) = at' at hmessage ⊢
  generalize messageSchemas = schemas at hmessage ⊢
  induction schemas with
  | nil => cases at' <;> cases requestId <;> rfl
  | cons m l ih =>
    have hrest := ih fun m hm => hmessage m (List.mem_cons_of_mem _ hm)
    rw [List.findSome?_cons, List.findSome?_cons, hmessage m List.mem_cons_self, hrest]
    cases at' <;> cases requestId <;> split_ifs <;> try rfl
    cases m.2 (.dict (object (frame.items p))) <;> rfl

/-- A frame is accepted if its envelope and its data are. -/
theorem wireMessageSchema_eq_some {s : IsoString}
    (htime : Schema.dateTime (p.datetime.dump timestamp) = some s) :
    wireMessageSchema (frame.modelDump p timestamp) = some w ↔
      w.timestamp = s ∧ (Schema.within 128).nullish (some (match frame.requestId with
        | none => .null
        | some s => .str s.1)) = some w.requestId ∧
      dataSchema frame.type (.dict (object (frame.items p))) = some w.data := by
  rw [wireMessageSchema_modelDump, htime]
  simp only [Option.bind_eq_bind, Option.bind_some, Option.bind_eq_some_iff,
    Option.pure_def, Option.some_inj]
  obtain ⟨time, requestId, data⟩ := w
  simp only [WireMessage.mk.injEq]
  constructor
  · rintro ⟨_, hrequest, _, hdata, rfl, rfl, rfl⟩
    exact ⟨rfl, hrequest, hdata⟩
  · rintro ⟨rfl, hrequest, hdata⟩
    exact ⟨_, hrequest, _, hdata, rfl, rfl, rfl⟩

/-- `request_id` is accepted if it is none, or neither empty nor too long in UTF-16. -/
theorem isSome_requestId {requestId : Option Session.RequestId} :
    ((Schema.within 128).nullish (some (match requestId with
      | none => .null
      | some s => .str s.1))).isSome ↔ ∀ s ∈ requestId, s.1 ≠ [] ∧ (utf16 s.1).length ≤ 128 := by
  cases requestId with
  | none => exact iff_of_true rfl fun s hs => nomatch hs
  | some s =>
    show ((Schema.within 128 (.str s.1)).map some).isSome ↔ _
    rw [within_str]
    split_ifs with hfits
    · refine iff_of_true rfl fun t ht => ?_
      rw [← Option.some.inj ht]
      exact hfits
    · exact iff_of_false nofun fun h => hfits (h s rfl)

/-! ### What `JSON.parse` reads -/

/-- Entries parse if each value does. -/
theorem parsesEntries_eq_true {entries : List (PyStr × Json)} :
    parsesEntries entries = true ↔ ∀ f ∈ entries, parses f.2 = true := by
  induction entries with
  | nil => exact iff_of_true rfl fun f hf => nomatch hf
  | cons f entries ih =>
    obtain ⟨k, v⟩ := f
    rw [parsesEntries, Bool.and_eq_true, ih, List.forall_mem_cons]

/-- Items parse if each one does. -/
theorem parsesItems_eq_true {items : List Json} : parsesItems items = true ↔
    ∀ v ∈ items, parses v = true := by
  induction items with
  | nil => exact iff_of_true rfl fun v hv => nomatch hv
  | cons v items ih => rw [parsesItems, Bool.and_eq_true, ih, List.forall_mem_cons]

/-- An object parses if each of its fields does. -/
theorem parses_object {fields : List (String × Json)} (h : ∀ f ∈ fields, parses f.2 = true) :
    parses (.dict (object fields)) = true := by
  rw [parses, parsesEntries_eq_true]
  intro e he
  obtain ⟨f, hf, rfl⟩ := List.mem_map.1 (mem_ofPairs he)
  exact h f hf

/-- What is dumped of an option parses if what is dumped of the value does. -/
theorem parses_dumpOption {c : Codec α} {o : Option α} (h : ∀ a ∈ o, parses (c.dump a) = true) :
    parses (c.dumpOption o) = true := by
  cases o with
  | none => rfl
  | some a => exact h a rfl

/-- The volume semantics parse. -/
theorem parses_volumeSemantics (s : VolumeSemantics) :
    parses (p.volumeSemantics.dump s) = true := by
  have hwindow := @parses_dumpOption _ p.positiveInteger s.aggregationWindowMs fun _ _ => rfl
  have hcurrency := @parses_dumpOption _ p.currency s.currency fun _ _ => rfl
  refine parses_object ?_
  simp only [VolumeFields.items, List.forall_mem_cons, List.not_mem_nil, false_implies,
    implies_true, and_true]
  exact ⟨rfl, rfl, hwindow, hcurrency, rfl⟩

/-- The depth semantics parse. -/
theorem parses_depthSemantics (s : DepthSemantics) : parses (p.depthSemantics.dump s) = true := by
  have hcurrency := @parses_dumpOption _ p.currency s.currency fun _ _ => rfl
  refine parses_object ?_
  simp only [DepthFields.items, List.forall_mem_cons, List.not_mem_nil, false_implies,
    implies_true, and_true]
  exact ⟨rfl, rfl, hcurrency, rfl⟩

/-- The capabilities parse. -/
theorem parses_capabilities (s : Finset MarketEvidenceCapability) :
    parses (Capabilities.codec.dump s) = true := by
  show parsesItems (List.map _ _) = true
  rw [parsesItems_eq_true]
  intro v hv
  obtain ⟨c, -, rfl⟩ := List.mem_map.1 hv
  rfl

/-- A datetime that is spelled parses. -/
theorem parses_datetime {t : Datetime} {m : ℤ} (h : p.SpellsDatetime t m) :
    parses (p.datetime.dump t) = true := by
  obtain ⟨c, offset, -, -, -, hdump⟩ := h
  rw [hdump]
  rfl

/-- A quote has no number that is not finite. -/
theorem parses_modelDump {e : QuoteFields} (hp : p.Spells minutes e) :
    parses (e.modelDump p) = true := by
  have hdecimal (d : PyDecimal) (hd : d ∈ e.decimals) : parses (p.decimal.dump d) = true := by
    rw [hp.decimal d hd]
    rfl
  have hpositive (o : Option PositiveDecimal) (ho : o ∈ [e.bid, e.ask]) :
      parses (p.positiveDecimal.dumpOption o) = true := by
    refine parses_dumpOption fun d hd =>
      hdecimal d.1 (List.mem_cons_of_mem _ (List.mem_append_left _ ?_))
    refine List.mem_flatMap.2 ⟨o, ho, ?_⟩
    rw [Option.mem_def.1 hd]
    exact List.mem_singleton.2 rfl
  have hnonNegative (o : Option NonNegativeDecimal)
      (ho : o ∈ [e.volume, e.buyVolume, e.sellVolume, e.bidDepth, e.askDepth]) :
      parses (p.nonNegativeDecimal.dumpOption o) = true := by
    refine parses_dumpOption fun d hd => hdecimal d.1 (List.mem_append_right _ ?_)
    refine List.mem_flatMap.2 ⟨o, ho, ?_⟩
    rw [Option.mem_def.1 hd]
    exact List.mem_singleton.2 rfl
  have huuid : parses (p.uuid.dump e.eventId) = true := by
    rw [hp.uuid]
    rfl
  -- Field by field; the fields without a value are left out.
  have hall : ∀ f ∈ e.items p, parses f.2 = true := by
    simp only [QuoteFields.items, List.forall_mem_cons, List.not_mem_nil, false_implies,
      implies_true, and_true]
    refine ⟨rfl, huuid, rfl, hdecimal _ List.mem_cons_self, hpositive _ (by simp),
      hpositive _ (by simp), parses_datetime (hp.datetime _ (by simp)),
      parses_datetime (hp.datetime _ (by simp)), parses_dumpOption fun _ _ => rfl, rfl,
      parses_capabilities _, hnonNegative _ (by simp), hnonNegative _ (by simp),
      hnonNegative _ (by simp), parses_dumpOption fun _ _ => rfl, hnonNegative _ (by simp),
      hnonNegative _ (by simp), parses_dumpOption fun _ _ => parses_volumeSemantics _,
      parses_dumpOption fun _ _ => parses_depthSemantics _⟩
  exact parses_object fun f hf => hall f (List.mem_of_mem_filter hf)

/-! ### Data -/

/-- The first schema of a type that takes a value is the first of those of the type that takes it.
-/
theorem findSome?_ite {β : Type} (l : List (String × Schema β)) (type : String) (v : Json) :
    (l.findSome? fun m => if m.1 = type then m.2 v else none) =
      (l.filter fun m => m.1 = type).findSome? fun m => m.2 v := by
  induction l with
  | nil => rfl
  | cons m l ih =>
    rw [List.findSome?_cons, List.filter_cons]
    simp only [decide_eq_true_eq]
    split_ifs with htype
    · rw [List.findSome?_cons, ih]
    · exact ih

/-- The schemas for a type, each with its data. -/
theorem dataSchema_eq {type : String} {schemas : List (String × Schema WireData)}
    (h : messageSchemas.filter (fun m => m.1 = type) = schemas) (v : Json) :
    dataSchema type v = schemas.findSome? fun m => m.2 v := by
  rw [← h]
  exact findSome?_ite messageSchemas type v

/-- A type with one schema takes what the schema takes. -/
theorem dataSchema_one {type : String} {schema : Schema WireData}
    (h : messageSchemas.filter (fun m => m.1 = type) = [(type, schema)]) (v : Json) :
    dataSchema type v = schema v := by
  rw [dataSchema_eq h]
  simp only [List.findSome?_cons]
  cases schema v <;> rfl

/-- What a `connected` message carries. -/
theorem dataSchema_connected (v : Json) : dataSchema "connected" v = connectedSchema v :=
  dataSchema_one (by simp [messageSchemas]) v

/-- What an `ack` carries, of a subscription or of a ping. -/
theorem dataSchema_ack (v : Json) :
    dataSchema "ack" v = (subscribeAckSchema v).or (pongAckSchema v) := by
  have hack : messageSchemas.filter (fun m => m.1 = "ack") =
      [("ack", subscribeAckSchema), ("ack", pongAckSchema)] := by simp [messageSchemas]
  rw [dataSchema_eq hack]
  simp only [List.findSome?_cons]
  cases subscribeAckSchema v <;> cases pongAckSchema v <;> rfl

/-- What a `snapshot` carries. -/
theorem dataSchema_snapshot (v : Json) : dataSchema "snapshot" v = snapshotSchema v :=
  dataSchema_one (by simp [messageSchemas]) v

/-- What a `quote` carries. -/
theorem dataSchema_quote (v : Json) : dataSchema "quote" v = quoteSchema v :=
  dataSchema_one (by simp [messageSchemas]) v

/-- What a `heartbeat` carries. -/
theorem dataSchema_heartbeat (v : Json) : dataSchema "heartbeat" v = heartbeatSchema v :=
  dataSchema_one (by simp [messageSchemas]) v

/-- What a `warning` carries. -/
theorem dataSchema_warning (v : Json) : dataSchema "warning" v = warningSchema v :=
  dataSchema_one (by simp [messageSchemas]) v

/-- What an `error` carries. -/
theorem dataSchema_error (v : Json) : dataSchema "error" v = errorSchema v :=
  dataSchema_one (by simp [messageSchemas]) v

/-- A list of symbols is read as the symbols. -/
theorem array_symbolList (symbols : List Models.Symbol) :
    Schema.symbol.array (Session.symbolList symbols) = some (symbols.map fun s => utf16 s.1) := by
  show (symbols.map fun s => Json.str s.1).mapM Schema.symbol = _
  induction symbols with
  | nil => rfl
  | cons s symbols ih =>
    rw [List.map_cons, List.mapM_cons, symbol_str, ih]
    rfl

/-- The schemas for a type make messages of that type. -/
theorem type_of_dataSchema {type : String} {v : Json} {d : WireData}
    (h : dataSchema type v = some d) :
    d.type = type := by
  obtain ⟨m, hm, hd⟩ := List.exists_of_findSome?_eq_some h
  rw [Option.ite_none_right_eq_some] at hd
  obtain ⟨rfl, hd⟩ := hd
  simp only [messageSchemas, List.mem_cons, List.not_mem_nil, or_false] at hm
  cases v with
  | dict entries =>
    -- Each schema makes data of its own type.
    rcases hm with rfl | rfl | rfl | rfl | rfl | rfl | rfl | rfl
    all_goals
      simp only [connectedSchema, subscribeAckSchema, pongAckSchema, snapshotSchema, quoteSchema,
        heartbeatSchema, warningSchema, errorSchema, Schema.object, Option.bind_eq_bind,
        Option.bind_eq_some_iff, Option.pure_def, Option.some_inj] at hd
    · obtain ⟨_, -, _, -, _, -, _, -, _, -, _, -, rfl⟩ := hd
      rfl
    · obtain ⟨_, -, _, -, _, -, rfl⟩ := hd
      rfl
    · obtain ⟨_, -, rfl⟩ := hd
      rfl
    · obtain ⟨_, -, _, -, _, -, rfl⟩ := hd
      rfl
    · obtain ⟨_, -, rfl⟩ := hd
      rfl
    · obtain ⟨_, -, rfl⟩ := hd
      rfl
    · obtain ⟨_, -, _, -, _, -, rfl⟩ := hd
      rfl
    · obtain ⟨_, -, _, -, rfl⟩ := hd
      rfl
  | _ =>
    rcases hm with rfl | rfl | rfl | rfl | rfl | rfl | rfl | rfl <;>
      exact absurd hd.symm (Option.some_ne_none d)

/-- A positive number is not zero. -/
theorem value_pos {x : Binary64} (h : Session.isPositive x) {r : ℚ}
    (hr : x.value = some r) : 0 < r := by
  cases x with
  | finite negative bits =>
    unfold Session.isPositive at h
    rw [Bool.and_eq_true, Bool.not_eq_true', decide_eq_true_eq] at h
    obtain ⟨rfl, hbits⟩ := h
    rw [← Option.some.inj hr]
    show 0 < 1 * magnitude bits.val
    rw [one_mul]
    exact magnitude_pos hbits
  | infinite => exact nomatch hr
  | nan => exact nomatch hr

/-- A positive float is read as its value. -/
theorem number_float {x : Binary64} (h : Session.isPositive x) :
    (Schema.number.refine (0 < ·)) (.float x) = x.value := by
  have hpos := @value_pos x h
  show x.value.filter (fun r => 0 < r) = x.value
  cases hx : x.value with
  | none => rfl
  | some r => rw [Option.filter_some, if_pos (decide_eq_true (hpos hx))]

/-- An identifier is not the empty string. -/
theorem uuidText_ne_nil (u : EventId) : uuidText u ≠ [] := by
  rw [uuidText_eq]
  intro h
  have hlength := congrArg List.length h
  simp only [List.length_append, List.length_nil] at hlength
  have hhyphen : (text "-").length = 1 := rfl
  omega

/-- A field that is there is required to be of its schema. -/
theorem required_some (s : Schema α) (v : Json) : s.required (some v) = s v := by
  unfold Schema.required
  rw [Option.bind_some]

/-- A policy is accepted if its limits are. -/
theorem isSome_policy {policy : TierPolicyConfig} :
    (∃ w, policySchema (.dict (object policy.items)) = some w) ↔ PolicyFits policy := by
  have hget (name : String) : getKey (text name) (object policy.items) = policy.items.lookup name :=
    getKey_object (by simp [TierPolicyConfig.items])
  -- A text is read as it is, if it is not empty.
  have hdepth (w : JsString) : Schema.nonEmpty (.str policy.marketDepth) = some w ↔
      policy.marketDepth ≠ [] ∧ utf16 policy.marketDepth = w := by
    rw [← isSome_nonEmpty]
    constructor
    · intro h
      have hsome : (Schema.nonEmpty (.str policy.marketDepth)).isSome := by rw [h]; rfl
      refine ⟨hsome, ?_⟩
      rw [nonEmpty_str (isSome_nonEmpty.1 hsome)] at h
      exact Option.some.inj h
    · rintro ⟨h, rfl⟩
      exact nonEmpty_str (isSome_nonEmpty.1 h)
  have hboolean : Schema.boolean (.bool policy.historicalData) = some policy.historicalData := rfl
  -- The schema asks the fields one by one.
  unfold policySchema
  simp only [Schema.object, hget]
  simp only [TierPolicyConfig.items, List.lookup_cons, String.reduceBEq, required_some,
    positiveInt_int, number_float policy.updatesPerSecond.2, hboolean, Option.bind_eq_bind,
    Option.bind_eq_some_iff, Option.ite_none_right_eq_some, hdepth,
    Option.pure_def, Option.some_inj]
  constructor
  · rintro ⟨_, _, ⟨hsymbols, -⟩, _, ⟨hconnections, -⟩, x, hx, _, ⟨hrequests, -⟩, _,
      ⟨hops, -⟩, _, ⟨hne, -⟩, -⟩
    refine ⟨?_, ?_, hne⟩
    · simp only [List.forall_mem_cons, List.not_mem_nil, false_implies, implies_true, and_true]
      exact ⟨hsymbols, hconnections, hrequests, hops⟩
    · rw [hx]
      rfl
  · rintro ⟨hlimits, hrate, hne⟩
    simp only [List.forall_mem_cons, List.not_mem_nil, false_implies, implies_true,
      and_true] at hlimits
    obtain ⟨hsymbols, hconnections, hrequests, hops⟩ := hlimits
    obtain ⟨x, hx⟩ := Option.isSome_iff_exists.1 hrate
    exact ⟨_, _, ⟨hsymbols, rfl⟩, _, ⟨hconnections, rfl⟩, x, hx, _, ⟨hrequests, rfl⟩, _,
      ⟨hops, rfl⟩, _, ⟨hne, rfl⟩, _, rfl, rfl⟩

/-- A service tier is read as its value. -/
theorem enum_tier (tier : Access.Profiles.ServiceTier) :
    Schema.enum ["basic", "pro", "premium"] id (.str (text tier.value)) = some tier.value := by
  cases tier <;> decide +kernel

/-- An action of an acknowledgement is read as the action. -/
theorem enum_action (action : AckAction) :
    Schema.enum [.subscribe,
    .unsubscribe] AckAction.value (.str (text action.value)) = some action := by
  cases action <;> decide +kernel

/-- A non-negative integer is read if it is safe. -/
theorem nonNegativeInt_natCast (n : ℕ) : Schema.nonNegativeInt (.int n) =
    if n ≤ Schema.maxSafeInteger then some n else none := by
  rw [nonNegativeInt_int (Int.natCast_nonneg n), Int.toNat_natCast]
  simp only [Nat.cast_le]

/-- The first message is accepted if its policy and its count are. -/
theorem connectedSchema_items {connectionId : EventId} {clientId : Session.NonEmptyStr}
    {tier : Access.Profiles.ServiceTier} {policy : TierPolicyConfig}
    {correlationId : Session.NonEmptyStr}
    {activeConnections : ℕ} :
    (∃ d, connectedSchema (.dict (object (Frame.items p
      (.connected connectionId clientId tier policy correlationId activeConnections)))) = some d) ↔
      PolicyFits policy ∧ activeConnections ≤ Schema.maxSafeInteger := by
  have hget (name : String) : getKey (text name) (object (Frame.items p
      (.connected connectionId clientId tier policy correlationId activeConnections))) =
      (Frame.items p (.connected connectionId clientId tier policy correlationId
      activeConnections)).lookup
        name :=
    getKey_object (by simp [Frame.items])
  unfold connectedSchema
  simp only [Schema.object, hget]
  simp only [Frame.items, List.lookup_cons, String.reduceBEq, required_some,
    nonEmpty_str (uuidText_ne_nil connectionId), nonEmpty_str clientId.2,
    nonEmpty_str correlationId.2,
    enum_tier, nonNegativeInt_natCast, Option.bind_eq_bind, Option.bind_eq_some_iff,
    Option.ite_none_right_eq_some, Option.pure_def, Option.some_inj]
  rw [← isSome_policy]
  constructor
  · rintro ⟨_, _, -, _, -, _, -, w, hw, _, -, _, ⟨hactive, -⟩, -⟩
    exact ⟨⟨w, hw⟩, hactive⟩
  · rintro ⟨⟨w, hw⟩, hactive⟩
    exact ⟨_, _, rfl, _, rfl, _, rfl, w, hw, _, rfl, _, ⟨hactive, rfl⟩, rfl⟩

/-- An acknowledgement of a subscription is accepted. -/
theorem subscribeAckSchema_subscribe (symbols upstreamTransitions : List Models.Symbol) :
    ∃ d, subscribeAckSchema
    (.dict (object (Reply.items p (.subscribe symbols upstreamTransitions)))) =
      some d := by
  have hget (name : String) : getKey (text name) (object (Reply.items p
      (.subscribe symbols upstreamTransitions))) =
      (Reply.items p (.subscribe symbols upstreamTransitions)).lookup name :=
    getKey_object (by simp [Reply.items])
  have haction : Schema.enum [.subscribe, .unsubscribe] AckAction.value (.str (text "subscribe")) =
      some .subscribe := enum_action .subscribe
  have hoptional : Schema.symbol.array.optional (some (Session.symbolList upstreamTransitions)) =
      some (some (upstreamTransitions.map fun s => utf16 s.1)) :=
    congrArg (Option.map some) (array_symbolList upstreamTransitions)
  unfold subscribeAckSchema
  simp only [Schema.object, hget]
  simp only [Reply.items, List.lookup_cons, String.reduceBEq, required_some, haction,
    array_symbolList, hoptional, Option.bind_eq_bind, Option.bind_some]
  exact ⟨_, rfl⟩

/-- The acknowledgement of an unsubscribe is read. -/
theorem subscribeAckSchema_unsubscribe (symbols : List Models.Symbol) :
    ∃ d, subscribeAckSchema (.dict (object (Reply.items p (.unsubscribe symbols)))) = some d := by
  have hget (name : String) : getKey (text name) (object (Reply.items p (.unsubscribe symbols))) =
      (Reply.items p (.unsubscribe symbols)).lookup name :=
    getKey_object (by simp [Reply.items])
  have haction : Schema.enum [.subscribe,
    .unsubscribe] AckAction.value (.str (text "unsubscribe")) =
      some .unsubscribe := enum_action .unsubscribe
  have habsent : Schema.symbol.array.optional none = some none := rfl
  unfold subscribeAckSchema
  simp only [Schema.object, hget]
  simp only [Reply.items, List.lookup_cons, List.lookup_nil, String.reduceBEq, required_some,
    haction, array_symbolList, habsent, Option.bind_eq_bind, Option.bind_some]
  exact ⟨_, rfl⟩

/-- What either of the two schemas of an acknowledgement accepts is accepted. -/
theorem dataSchema_ack_of {v : Json}
    (h : (∃ d, subscribeAckSchema v = some d) ∨ ∃ d, pongAckSchema v = some d) :
    ∃ d, dataSchema "ack" v = some d := by
  rw [dataSchema_ack]
  rcases h with ⟨d, hd⟩ | ⟨d, hd⟩
  · exact ⟨d, by rw [hd, Option.some_or]⟩
  · rw [hd]
    cases subscribeAckSchema v with
    | none => exact ⟨d, rfl⟩
    | some d => exact ⟨d, rfl⟩

/-- The answer to a ping is read. -/
theorem pongAckSchema_pong :
    ∃ d, pongAckSchema (.dict (object (Reply.items p .pong))) = some d := by
  have hget (name : String) : getKey (text name) (object (Reply.items p .pong)) =
      (Reply.items p .pong).lookup name :=
    getKey_object (by simp [Reply.items])
  have haction : Schema.literal "pong" (.str (text "pong")) = some () :=
    (literal_text (by decide) (by decide)).trans (if_pos rfl)
  unfold pongAckSchema
  simp only [Schema.object, hget]
  simp only [Reply.items, List.lookup_cons, String.reduceBEq, required_some, haction,
    Option.bind_eq_bind, Option.bind_some]
  exact ⟨_, rfl⟩

/-- A snapshot is accepted, with the values of its quote, if these and the age are within the
bounds. -/
theorem snapshotSchema_items {e : Models.QuoteEvent} {stale : Bool} {ageMs : ℤ}
    (hp : p.Spells minutes e.toQuoteFields) :
    (∃ d, snapshotSchema (.dict (object (Reply.items p (.snapshot e stale ageMs)))) = some d ∧
      ∃ q ∈ d.quote?, Carries e.toQuoteFields (normalizeWireQuote q)) ↔
      ReplyFits minutes (.snapshot e stale ageMs) := by
  have hget (name : String) :
    getKey (text name) (object (Reply.items p (.snapshot e stale ageMs))) =
      (Reply.items p (.snapshot e stale ageMs)).lookup name :=
    getKey_object (by simp [Reply.items])
  have hboolean : Schema.boolean (.bool stale) = some stale := rfl
  show _ ↔ QuoteFits minutes e.toQuoteFields ∧ 0 ≤ ageMs ∧ ageMs ≤ Schema.maxSafeInteger
  unfold snapshotSchema
  rw [← wireQuote_modelDump hp, ← nonNegativeInt_isSome, Option.isSome_iff_exists]
  simp only [Schema.object, hget]
  simp only [Reply.items, List.lookup_cons, String.reduceBEq, required_some, hboolean,
    Option.bind_eq_bind, Option.bind_eq_some_iff, Option.pure_def, Option.some_inj]
  constructor
  · rintro ⟨_, ⟨q, hq, _, -, age, hage, rfl⟩, q', hq', hcarries⟩
    rw [← Option.some.inj hq'] at hcarries
    exact ⟨⟨q, hq, hcarries⟩, age, hage⟩
  · rintro ⟨⟨q, hq, hcarries⟩, age, hage⟩
    exact ⟨_, ⟨q, hq, _, rfl, age, hage, rfl⟩, q, rfl, hcarries⟩

/-- A quote is read, with what it carries, where it fits. -/
theorem quoteSchema_items {e : Models.QuoteEvent} (hp : p.Spells minutes e.toQuoteFields) :
    (∃ d, quoteSchema (.dict (object (Frame.items p (.quote e)))) = some d ∧
      ∃ q ∈ d.quote?, Carries e.toQuoteFields (normalizeWireQuote q)) ↔
      QuoteFits minutes e.toQuoteFields := by
  have hget (name : String) : getKey (text name) (object (Frame.items p (.quote e))) =
      (Frame.items p (.quote e)).lookup name :=
    getKey_object (by simp [Frame.items])
  unfold quoteSchema
  rw [← wireQuote_modelDump hp]
  simp only [Schema.object, hget]
  simp only [Frame.items, List.lookup_cons, String.reduceBEq, required_some, Option.bind_eq_bind,
    Option.bind_eq_some_iff, Option.pure_def, Option.some_inj]
  constructor
  · rintro ⟨_, ⟨q, hq, rfl⟩, q', hq', hcarries⟩
    rw [← Option.some.inj hq'] at hcarries
    exact ⟨q, hq, hcarries⟩
  · rintro ⟨q, hq, hcarries⟩
    exact ⟨_, ⟨q, hq, rfl⟩, q, rfl, hcarries⟩

/-- A heartbeat is read. -/
theorem heartbeatSchema_items (connectionId : EventId) :
    ∃ d, heartbeatSchema (.dict (object (Frame.items p (.heartbeat connectionId)))) = some d := by
  have hget (name : String) :
    getKey (text name) (object (Frame.items p (.heartbeat connectionId))) =
      (Frame.items p (.heartbeat connectionId)).lookup name :=
    getKey_object (by simp [Frame.items])
  unfold heartbeatSchema
  simp only [Schema.object, hget]
  simp only [Frame.items, List.lookup_cons, String.reduceBEq, required_some,
    nonEmpty_str (uuidText_ne_nil connectionId), Option.bind_eq_bind, Option.bind_some]
  exact ⟨_, rfl⟩

/-- A text with characters is not the empty string. -/
theorem text_ne_nil {s : String} (h : s.toList ≠ []) : text s ≠ [] := by
  intro hnil
  exact h (List.map_eq_nil_iff.1 hnil)

/-- A warning of a session is accepted if its count is. -/
theorem warningSchema_slowConsumer {coalescedEvents : ℕ} :
    (∃ d, warningSchema (.dict (object (Frame.items p (.slowConsumer coalescedEvents)))) = some d) ↔
      coalescedEvents ≤ Schema.maxSafeInteger := by
  have hget (name : String) :
    getKey (text name) (object (Frame.items p (.slowConsumer coalescedEvents))) =
      (Frame.items p (.slowConsumer coalescedEvents)).lookup name :=
    getKey_object (by simp [Frame.items])
  have hoptional : Schema.nonNegativeInt.optional (some (.int coalescedEvents)) =
      (Schema.nonNegativeInt (.int coalescedEvents)).map some := by
    unfold Schema.optional
    rfl
  unfold warningSchema
  simp only [Schema.object, hget]
  simp only [Frame.items, List.lookup_cons, String.reduceBEq, required_some,
    nonEmpty_str (text_ne_nil (by decide : "slow_consumer".toList ≠ [])),
    nonEmpty_str (text_ne_nil
      (by decide : "quote updates were coalesced to protect the connection".toList ≠ [])),
      hoptional,
    nonNegativeInt_natCast, Option.map_eq_some_iff, Option.bind_eq_bind, Option.bind_eq_some_iff,
    Option.ite_none_right_eq_some, Option.pure_def, Option.some_inj]
  constructor
  · rintro ⟨_, _, -, _, -, _, ⟨_, ⟨hle, -⟩, -⟩, -⟩
    exact hle
  · exact fun hle => ⟨_, _, rfl, _, rfl, _, ⟨_, ⟨hle, rfl⟩, rfl⟩, rfl⟩

/-- A warning of an idle session is read. -/
theorem warningSchema_idleTimeout :
    ∃ d, warningSchema (.dict (object (Frame.items p .idleTimeout))) = some d := by
  have hget (name : String) : getKey (text name) (object (Frame.items p .idleTimeout)) =
      (Frame.items p .idleTimeout).lookup name :=
    getKey_object (by simp [Frame.items])
  have habsent : Schema.nonNegativeInt.optional none = some none := rfl
  unfold warningSchema
  simp only [Schema.object, hget]
  simp only [Frame.items, List.lookup_cons, List.lookup_nil, String.reduceBEq, required_some,
    nonEmpty_str (text_ne_nil (by decide : "idle_timeout".toList ≠ [])),
    nonEmpty_str (text_ne_nil
      (by decide : "connection closed because no client heartbeat was received".toList ≠ [])),
      habsent,
    Option.bind_eq_bind, Option.bind_eq_some_iff, Option.pure_def, Option.some_inj]
  exact ⟨_, _, rfl, _, rfl, _, rfl, rfl⟩

/-- An error with a code and a message is accepted. -/
theorem errorSchema_items {code message : PyStr} (hcode : code ≠ []) (hmessage : message ≠ []) :
    ∃ d, errorSchema (.dict (object [("code", .str code), ("message", .str message)])) =
    some d := by
  have hget (name : String) :
    getKey (text name) (object [("code", .str code), ("message", .str message)]) =
      [("code", .str code), ("message", Json.str message)].lookup name :=
    getKey_object (by simp)
  unfold errorSchema
  simp only [Schema.object, hget]
  simp only [List.lookup_cons, String.reduceBEq, required_some, nonEmpty_str hcode,
    nonEmpty_str hmessage, Option.bind_eq_bind, Option.bind_eq_some_iff,
    Option.pure_def, Option.some_inj]
  exact ⟨_, _, rfl, _, rfl, rfl⟩

/-- A frame without a quote only has to be accepted. -/
theorem no_quote {r : Option WireData} {P : Prop} (h : (∃ d, r = some d) ↔ P) :
    (∃ d, r = some d ∧ ∀ e ∈ (none : Option Models.QuoteEvent), ∃ q ∈ d.quote?,
      Carries e.toQuoteFields (normalizeWireQuote q)) ↔ P :=
  (exists_congr fun _ => and_iff_left fun _ he => nomatch he).trans h

/-- A frame with a quote also has to carry it. -/
theorem one_quote {e : Models.QuoteEvent} {r : Option WireData} {P : Prop}
    (h : (∃ d, r = some d ∧ ∃ q ∈ d.quote?, Carries e.toQuoteFields (normalizeWireQuote q)) ↔ P) :
    (∃ d, r = some d ∧ ∀ e' ∈ some e, ∃ q ∈ d.quote?,
      Carries e'.toQuoteFields (normalizeWireQuote q)) ↔ P := by
  refine (exists_congr fun d => and_congr_right fun _ => ⟨fun h => h e rfl, ?_⟩).trans h
  rintro hq e' he'
  rw [← Option.some.inj he']
  exact hq

/-- The data of a frame are accepted, with the values of its quote, if they are within the
bounds. -/
theorem dataSchema_items (hp : ∀ e ∈ frame.quote?, p.Spells minutes e.toQuoteFields) :
    (∃ d, dataSchema frame.type (.dict (object (frame.items p))) = some d ∧
      ∀ e ∈ frame.quote?, ∃ q ∈ d.quote?, Carries e.toQuoteFields (normalizeWireQuote q)) ↔
      DataFits minutes frame := by
  cases frame with
  | connected connectionId clientId tier policy correlationId activeConnections =>
    refine no_quote ?_
    show (∃ d, dataSchema "connected" _ = some d) ↔ _
    rw [dataSchema_connected]
    exact connectedSchema_items
  | reply requestId data =>
    -- Of the replies only a snapshot has a quote.
    cases data with
    | pong =>
      refine no_quote (iff_of_true ?_ trivial)
      exact dataSchema_ack_of (Or.inr (pongAckSchema_pong (p := p)))
    | subscribe symbols upstreamTransitions =>
      refine no_quote (iff_of_true ?_ trivial)
      exact dataSchema_ack_of
        (Or.inl (subscribeAckSchema_subscribe (p := p) symbols upstreamTransitions))
    | unsubscribe symbols =>
      refine no_quote (iff_of_true ?_ trivial)
      exact dataSchema_ack_of (Or.inl (subscribeAckSchema_unsubscribe (p := p) symbols))
    | snapshot e stale ageMs =>
      refine one_quote ?_
      show (∃ d, dataSchema "snapshot" _ = some d ∧ _) ↔ _
      rw [dataSchema_snapshot]
      exact snapshotSchema_items (hp e rfl)
    | rateLimit =>
      refine no_quote (iff_of_true ?_ trivial)
      show ∃ d, dataSchema "error" _ = some d
      rw [dataSchema_error]
      exact errorSchema_items (text_ne_nil (by decide)) (text_ne_nil (by decide))
    | refused code message =>
      refine no_quote (iff_of_true ?_ trivial)
      show ∃ d, dataSchema "error" _ = some d
      rw [dataSchema_error]
      exact errorSchema_items (text_ne_nil (by cases code <;> decide)) message.2
  | quote e =>
    refine one_quote ?_
    show (∃ d, dataSchema "quote" _ = some d ∧ _) ↔ _
    rw [dataSchema_quote]
    exact quoteSchema_items (hp e rfl)
  | slowConsumer coalescedEvents =>
    refine no_quote ?_
    show (∃ d, dataSchema "warning" _ = some d) ↔ _
    rw [dataSchema_warning]
    exact warningSchema_slowConsumer
  | idleTimeout =>
    refine no_quote (iff_of_true ?_ trivial)
    show ∃ d, dataSchema "warning" _ = some d
    rw [dataSchema_warning]
    exact warningSchema_idleTimeout
  | heartbeat connectionId =>
    refine no_quote (iff_of_true ?_ trivial)
    show ∃ d, dataSchema "heartbeat" _ = some d
    rw [dataSchema_heartbeat]
    exact heartbeatSchema_items connectionId

/-- The text of a frame with data within the bounds has no number that is not finite. -/
theorem parses_frame {m : ℤ} (htime : p.SpellsDatetime timestamp m)
    (hp : ∀ e ∈ frame.quote?, p.Spells minutes e.toQuoteFields) (hfits : DataFits minutes frame) :
    parses (frame.modelDump p timestamp) = true := by
  -- The payload is made of strings, numbers and quotes that parse.
  have hitems : ∀ f ∈ frame.items p, parses f.2 = true := by
    have hsymbols (symbols : List Models.Symbol) : parses (Session.symbolList symbols) = true := by
      show parsesItems _ = true
      rw [parsesItems_eq_true]
      intro v hv
      obtain ⟨c, -, rfl⟩ := List.mem_map.1 hv
      rfl
    cases frame with
    | connected connectionId clientId tier policy correlationId activeConnections =>
      have hpolicy : parses (.dict (object policy.items)) = true := by
        refine parses_object ?_
        simp only [TierPolicyConfig.items, List.forall_mem_cons, List.not_mem_nil, false_implies,
          implies_true, and_true]
        exact ⟨rfl, rfl, hfits.1.updatesPerSecond, rfl, rfl, rfl, rfl⟩
      simp only [Frame.items, List.forall_mem_cons, List.not_mem_nil, false_implies,
        implies_true, and_true]
      exact ⟨rfl, rfl, rfl, hpolicy, rfl, rfl⟩
    | reply requestId data =>
      show ∀ f ∈ data.items p, parses f.2 = true
      cases data with
      | snapshot e stale ageMs =>
        simp only [Reply.items, List.forall_mem_cons, List.not_mem_nil, false_implies,
          implies_true, and_true]
        exact ⟨parses_modelDump (hp e rfl), rfl, rfl⟩
      | _ =>
        simp only [Reply.items, List.forall_mem_cons, List.not_mem_nil, false_implies, implies_true,
          and_true, hsymbols]
        simp [parses]
    | quote e =>
      simp only [Frame.items, List.forall_mem_cons, List.not_mem_nil, false_implies,
        implies_true, and_true]
      exact parses_modelDump (hp e rfl)
    | _ =>
      simp only [Frame.items, List.forall_mem_cons, List.not_mem_nil, false_implies,
        implies_true, and_true]
      simp [parses]
  have hrequestId : parses (match frame.requestId with
      | none => .null
      | some s => .str s.1) = true := by
    cases frame.requestId <;> rfl
  refine parses_object ?_
  simp only [List.forall_mem_cons, List.not_mem_nil, false_implies, implies_true, and_true]
  exact ⟨rfl, parses_datetime htime, hrequestId, parses_object hitems⟩

/-- The browser reads a frame if and only if its values are within its bounds. -/
theorem readable_iff {m : ℤ} (htime : p.SpellsDatetime timestamp m)
    (hp : ∀ e ∈ frame.quote?, p.Spells minutes e.toQuoteFields) :
    Readable p timestamp frame ↔ FrameFits minutes frame := by
  obtain ⟨s, hs, -⟩ := @dateTime_dump p timestamp (fun _ => m) htime
  have hdata := @dataSchema_items p minutes frame hp
  have hrequestId := @isSome_requestId frame.requestId
  unfold Readable safeParseWireMessage
  constructor
  · rintro ⟨w, hw, -, hquote⟩
    obtain ⟨-, hw⟩ := Option.ite_none_right_eq_some.1 hw
    obtain ⟨-, hrequest, hitems⟩ := (wireMessageSchema_eq_some hs).1 hw
    refine ⟨hrequestId.1 ?_, hdata.1 ⟨w.data, hitems, hquote⟩⟩
    rw [hrequest]
    rfl
  · intro hfits
    obtain ⟨d, hd, hquote⟩ := hdata.2 hfits.data
    obtain ⟨requestId, hrequest⟩ := Option.isSome_iff_exists.1 (hrequestId.2 hfits.requestId)
    refine ⟨⟨s, requestId, d⟩, ?_, type_of_dataSchema hd, hquote⟩
    rw [if_pos (parses_frame htime hp hfits.data)]
    exact (wireMessageSchema_eq_some hs).2 ⟨rfl, hrequest, hd⟩

end Frames

/-! ### Frames with an identifier -/

/-- The answer to a ping with a `request_id`. -/
def samplePong (requestId : Session.RequestId) : Frame := .reply (some requestId) .pong

/-- The time of the sample quote is spelled. -/
theorem spellsDatetime_sample : samplePydantic.SpellsDatetime sample.receivedAt.1 60 :=
  ⟨⟨1970, 1, 1, 1, 0, 0, 0, by decide, by decide, by decide, by decide, by decide, by decide⟩,
    text "+01:00", by decide +kernel, by decide, Or.inr (Or.inl
    ⟨by decide, by decide +kernel⟩), congrArg Json.str (by decide +kernel)⟩

/-- The sample quote is spelled. -/
theorem spells_sample : samplePydantic.Spells (fun _ => 60) sample.toQuoteFields where
  decimal := by
    have hdecimals : sample.decimals = [⟨false, 15, -1⟩, ⟨false, 3, 0⟩, ⟨false, 3, 0⟩] := rfl
    rw [hdecimals]
    simp only [List.forall_mem_cons, List.not_mem_nil, false_implies, implies_true, and_true]
    exact ⟨congrArg Json.str (by decide +kernel), congrArg Json.str (by decide +kernel),
      congrArg Json.str (by decide +kernel)⟩
  uuid := congrArg Json.str (by decide +kernel)
  datetime := by
    simp only [List.forall_mem_cons, List.not_mem_nil, false_implies, implies_true, and_true]
    exact ⟨spellsDatetime_sample, spellsDatetime_sample⟩

/-- The answer to a ping is read; a quote whose UUID has no version is not. -/
theorem readable_iff_sample :
    Readable samplePydantic sample.receivedAt.1 (samplePong ⟨text "7", by decide⟩) ∧
      ¬Readable samplePydantic sample.receivedAt.1 (.quote sample) := by
  constructor
  · refine (@readable_iff samplePydantic (fun _ => 60) sample.receivedAt.1
      (samplePong ⟨text "7", by decide⟩) 60 spellsDatetime_sample fun e he =>
      nomatch he).2 ⟨?_, trivial⟩
    intro s hs
    rw [← Option.some.inj hs]
    exact ⟨by decide, by decide +kernel⟩
  · intro h
    have hfits := (@readable_iff samplePydantic (fun _ => 60) sample.receivedAt.1 (.quote sample) 60
      spellsDatetime_sample fun e he => (Option.some.inj he) ▸ spells_sample).1 h
    have huuid : ¬IsRfc9562 sample.eventId := by decide +kernel
    exact huuid (QuoteFits.eventId hfits.data)

/-- A `request_id` of a command may be empty, and the answer to it is not read. -/
theorem not_readable_empty : ¬∀ (p : Pydantic) (minutes : ℤ → ℤ) (timestamp : Datetime) (m : ℤ)
    (frame : Frame), p.SpellsDatetime timestamp m →
      (∀ e ∈ frame.quote?, p.Spells minutes e.toQuoteFields) → Readable p timestamp frame := by
  intro h
  obtain ⟨w, hw, -⟩ := h samplePydantic id sample.receivedAt.1 60 (samplePong ⟨[], by decide⟩)
    spellsDatetime_sample fun e he => nomatch he
  have hnone : (safeParseWireMessage ((samplePong ⟨[], by decide⟩).modelDump samplePydantic
      sample.receivedAt.1)).isSome = false := by decide +kernel
  rw [hw] at hnone
  exact nomatch hnone

end MarketDataGateway.MarketData
