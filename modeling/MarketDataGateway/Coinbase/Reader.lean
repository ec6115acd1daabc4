import Mathlib.Data.Finset.SDiff
import MarketDataGateway.Coinbase.Stops

/-!
# The reader

`CoinbaseResearchMarketDataProvider` of `providers/coinbase.py` with its `_reader_loop`. A text
frame is projected into events, or rejected if that raises a `TypeError` or a `ValueError`. Any
other exception ends the reader, and nothing starts it again but a new `connect`.

`Stops` says for which frames this happens (`goesOn_iff`): those of which a value escapes, as
`MessageStops` has it for the two channels that are projected. Of the diagnostics only the counters
of messages are kept.
-/

namespace MarketDataGateway.Coinbase

open Lib Models

/-! ## Frames -/

/-- `json.loads` of a text frame. -/
def Python.loads (py : Python) (raw : PyStr) : Except Fault Json :=
  if py.exceedsDepth raw then .error .recursionError
  else match loadsStr raw with
    | .error _ => .error .valueError
    | .ok value => .ok value

/-- The payload of a frame and its channel. -/
def readPayload (py : Python) (raw : PyStr) : Except Fault (Mapping × PyStr) := do
  match ← py.loads raw with
  | .dict payload =>
    let channel := strip (← py.str (getOrEmpty payload "channel"))
    .ok (payload, if channel = [] then text "unknown" else channel)
  | _ => .error (.protocolError "WebSocket message must be a JSON object")

/-! ## Acknowledgements -/

/-- `_REQUIRED_CHANNELS`. -/
def requiredChannels : List PyStr := [text "heartbeats", text "ticker", text "market_trades"]

/-- `_record_acknowledged_channel`. -/
def recordAcknowledgedChannel (acknowledged : Finset PyStr) (name : PyStr) : Finset PyStr :=
  if name ∈ requiredChannels then insert name acknowledged else acknowledged

/-- `_record_acknowledged_channels`. -/
def recordAcknowledgedChannels (py : Python) (acknowledged : Finset PyStr)
    (value : Json) (field : String) :
    Except Fault Unit × Finset PyStr :=
  match value with
  | .list _ =>
    match mappingSequence value s!"{field}.items" with
    | .error f => (.error f, acknowledged)
    | .ok items => forEach (fun acknowledged item =>
        match py.str (getOrEmpty item "name") with
        | .error f => (.error f, acknowledged)
        -- An empty name, which the code leaves out, is not one of a required channel.
        | .ok name =>
          (.ok (), recordAcknowledgedChannel acknowledged (strip name))) acknowledged items
  | .dict entries => (.ok (), entries.foldl (fun acknowledged e =>
      recordAcknowledgedChannel acknowledged e.1) acknowledged)
  | _ => (.ok (), acknowledged)

/-- The loop over the keys `subscriptions` and `channels`, whose fields are given with what comes
before them. -/
def recordKeys (py : Python) (level : String) (acknowledged : Finset PyStr) (mapping : Mapping) :
    Except Fault Unit × Finset PyStr :=
  forEach (fun acknowledged key =>
    recordAcknowledgedChannels py acknowledged (get mapping key) s!"{level}{key}")
    acknowledged ["subscriptions", "channels"]

/-- `_record_subscription_acknowledgements`. -/
def recordSubscriptionAcknowledgements (py : Python) (acknowledged : Finset PyStr)
    (payload : Mapping) :
    Except Fault Unit × Finset PyStr :=
  match recordKeys py "" acknowledged payload with
  | (.error f, acknowledged) => (.error f, acknowledged)
  | (.ok (), acknowledged) =>
    match get payload "events" with
    | .list events =>
      match mappingSequence (.list events) "events" with
      | .error f => (.error f, acknowledged)
      | .ok events => forEach (recordKeys py "events.") acknowledged events
    | _ => (.ok (), acknowledged)

/-! ## The provider -/

/-- `reader_final_state` of the diagnostics, and what the reader is while it runs. -/
inductive ReaderState
  | neverStarted
  | running
  | stalled
  | ended
  | cancelled
  /-- `failed`, with the exception. -/
  | failed (f : Fault)
  deriving DecidableEq

/-- `CoinbaseResearchMarketDataProvider`. -/
structure MarketDataProvider where
  /-- `_projector`. -/
  projector : Projector
  /-- `_symbols`. -/
  symbols : Finset PyStr
  /-- `_acknowledged_channels`. -/
  acknowledged : Finset PyStr
  /-- `_queue`. -/
  queue : List Models.QuoteEvent
  /-- `raw_messages_received_total`. -/
  rawMessages : ℕ
  /-- `projected_quote_events_total`. -/
  projected : ℕ
  /-- `rejected_messages_total`. -/
  rejected : ℕ
  /-- What has become of the reader. -/
  reader : ReaderState

namespace MarketDataProvider

/-- A new provider. -/
def init : MarketDataProvider := ⟨.new, ∅, ∅, [], 0, 0, 0, .neverStarted⟩

/-- `except (TypeError, ValueError)`, and `except Exception` around the loop. -/
def raise (s : MarketDataProvider) (f : Fault) : MarketDataProvider :=
  if f.isCaught then { s with rejected := s.rejected + 1 } else { s with reader := .failed f }

/-- The second `try` of the loop. -/
def project (py : Python) (receivedAt : AwareDatetime) (s : MarketDataProvider) (payload : Mapping)
    (channel : PyStr) : Except Fault Unit × MarketDataProvider :=
  match if channel = text "subscriptions" then
      recordSubscriptionAcknowledgements py s.acknowledged payload
        else (.ok (), s.acknowledged) with
  | (.error f, acknowledged) => (.error f, { s with acknowledged })
  | (.ok (), acknowledged) =>
    match s.projector.apply py receivedAt payload with
    | (.error f, projector) => (.error f, { s with acknowledged, projector })
    | (.ok events, projector) =>
      let wanted := events.filter fun e => e.symbol.1 ∈ s.symbols
      (.ok (), { s with
        acknowledged, projector
        queue := s.queue ++ wanted
        projected := s.projected + wanted.length })

/-- The loop, from a frame that is received to the next call of `recv`. -/
def receive (py : Python) (raw : PyStr) (receivedAt : AwareDatetime) (s : MarketDataProvider) :
    MarketDataProvider :=
  match readPayload py raw with
  | .error f =>
    -- A frame that is rejected here is counted as one of the channel `unparsed`.
    ({ s with rawMessages := s.rawMessages + f.isCaught.toNat } : MarketDataProvider).raise f
  | .ok (payload, channel) =>
    match ({ s with rawMessages := s.rawMessages + 1 } : MarketDataProvider).project
      py receivedAt payload
      channel with
    | (.error f, s) => s.raise f
    | (.ok (), s) => s

end MarketDataProvider

/-- What happens to a provider. -/
inductive ProviderAction
  /-- `connect`, whose connection is made or not. -/
  | connect (made : Bool)
  /-- `disconnect`. -/
  | disconnect
  /-- `subscribe`. -/
  | subscribe (symbols : List PyStr)
  /-- `unsubscribe`. -/
  | unsubscribe (symbols : List PyStr)
  /-- The reader receives a text frame. -/
  | receive (raw : PyStr) (receivedAt : AwareDatetime)
  /-- The reader receives nothing for too long. -/
  | stall
  /-- The connection is closed. -/
  | close
  /-- `events` takes an event from the queue. -/
  | take

namespace MarketDataProvider

/-- `connect` of a provider whose reader does not run. -/
def connect (s : MarketDataProvider) (made : Bool) : MarketDataProvider :=
  { s with
    projector := s.projector.clearConnectionState
    acknowledged := ∅
    rawMessages := 0
    projected := 0
    rejected := 0
    reader := if made then .running else .neverStarted }

/-- `subscribe`, as far as it changes the provider. -/
def subscribe (py : Python) (symbols : List PyStr) (s : MarketDataProvider) : MarketDataProvider :=
  match symbols.mapM fun symbol => symbolOf py (.str symbol) with
  | .error _ => s
  | .ok normalized => { s with symbols := s.symbols ∪ normalized.toFinset }

/-- `unsubscribe`, as far as it changes the provider. -/
def unsubscribe (py : Python) (symbols : List PyStr) (s : MarketDataProvider) :
    MarketDataProvider :=
  match symbols.mapM fun symbol => symbolOf py (.str symbol) with
  | .error _ => s
  | .ok normalized =>
    { s with
      symbols := s.symbols \ normalized.toFinset
      acknowledged := if s.symbols ∩ normalized.toFinset = ∅ then s.acknowledged
        else s.acknowledged \ {text "ticker", text "market_trades"} }

/-- One step of a provider. -/
def step (py : Python) (s : MarketDataProvider) : ProviderAction → Option MarketDataProvider
  | .connect made => some (if s.reader = .running then s else s.connect made)
  | .disconnect => some { s with
      symbols := ∅
      acknowledged := ∅
      reader := if s.reader = .running then .cancelled else s.reader }
  | .subscribe symbols => some (s.subscribe py symbols)
  | .unsubscribe symbols => some (s.unsubscribe py symbols)
  | .receive raw receivedAt =>
    if s.reader = .running then some (s.receive py raw receivedAt) else none
  | .stall => if s.reader = .running then some { s with reader := .stalled } else none
  | .close => if s.reader = .running then some { s with reader := .ended } else none
  | .take => some { s with queue := s.queue.tail }

end MarketDataProvider

/-! ## What ends the reader -/

/-- The names of acknowledged channels that are given under a key: nothing but an array is refused,
and only the name of an object in it may escape. -/
def channelsRead (py : Python) (value : Json) : ValueRead where
  accepted := ∀ values, value = .list values → ∃ items : List Mapping, values = items.map .dict ∧
    ∀ item ∈ items, ∃ name, py.str (getOrEmpty item "name") = .ok name
  stops := ∃ items : List Mapping, value = .list (items.map .dict) ∧
    FirstIs (fun item => ∃ name, py.str (getOrEmpty item "name") = .ok name)
      (fun item => TooDeep py (getOrEmpty item "name")) items

/-- The values under the two keys. -/
def keysRead (py : Python) (mapping : Mapping) : List ValueRead :=
  ["subscriptions", "channels"].map fun key => channelsRead py (get mapping key)

/-- The first value of a message of acknowledgements that is not accepted escapes, those of its
events being read after its own. -/
def AcknowledgementsStop (py : Python) (payload : Mapping) : Prop :=
  StopsAt (keysRead py payload) ∨ (∀ r ∈ keysRead py payload, r.accepted) ∧
    ∃ events : List Mapping, get payload "events" = .list (events.map .dict) ∧
      FirstIs (fun event => ∀ r ∈ keysRead py event,
      r.accepted) (fun event => StopsAt (keysRead py event)) events

/-- The frame ends the reader: its text or its channel nests too deep, or the message that it has
escapes. -/
def Stops (py : Python) (receivedAt : AwareDatetime) (p : Projector) (raw : PyStr) : Prop :=
  py.exceedsDepth raw = true ∨ ∃ payload, loadsStr raw = .ok (.dict payload) ∧
    (TooDeep py (getOrEmpty payload "channel") ∨
      ∃ channel, py.str (getOrEmpty payload "channel") = .ok channel ∧
        (strip channel = text "subscriptions" ∧ AcknowledgementsStop py payload ∨
          MessageStops py receivedAt p payload channel))

section Stops

variable {py : Python} {acknowledged : Finset PyStr} {value : Json} {field level : String}
  {mapping payload : Mapping} {raw : PyStr} {receivedAt : AwareDatetime} {s s' : MarketDataProvider}

/-- The channels of an acknowledgement are accepted, and stop the reader, where what is read of them
does. -/
theorem recordAcknowledgedChannels_spec :
    ((∃ u, (recordAcknowledgedChannels py acknowledged value field).1 = .ok u) ↔
      (channelsRead py value).accepted) ∧
    (Escapes (recordAcknowledgedChannels py acknowledged value field).1 ↔
    (channelsRead py value).stops) := by
  unfold recordAcknowledgedChannels channelsRead
  cases value with
  | list values =>
    have hsequence := @mappingSequence_eq_ok (.list values) s!"{field}.items"
    dsimp only
    cases hitems : mappingSequence (.list values) s!"{field}.items" with
    | error f =>
      have hcaught := @not_escapes_mappingSequence (.list values) s!"{field}.items"
      rw [hitems, escapes_error] at hcaught
      have hnone (items : List Mapping) : Json.list values ≠ .list (items.map .dict) := fun h => by
        cases hitems.symm.trans (hsequence.2 h)
      constructor
      · refine iff_of_false nofun fun h => ?_
        obtain ⟨items, hmap, -⟩ := h values rfl
        exact hnone items (congrArg Json.list hmap)
      · refine iff_of_false (fun h => hcaught (escapes_error.1 h)) ?_
        rintro ⟨items, h, -⟩
        exact hnone items h
    | ok items =>
      have hlist := hsequence.1 hitems
      -- One item is taken if `str` of its name returns.
      have hone (acknowledged : Finset PyStr) (item : Mapping) :
          ((∃ u, (match py.str (getOrEmpty item "name") with
            | .error f => (.error f, acknowledged)
            | .ok name => (.ok (), recordAcknowledgedChannel acknowledged (strip name)) :
              Except Fault Unit × Finset PyStr).1 = .ok u) ↔
            ∃ name, py.str (getOrEmpty item "name") = .ok name) ∧
          (FailsWith (fun f => f.isCaught = false) (match py.str (getOrEmpty item "name") with
            | .error f => (.error f, acknowledged)
            | .ok name => (.ok (), recordAcknowledgedChannel acknowledged (strip name)) :
              Except Fault Unit × Finset PyStr).1 ↔ TooDeep py (getOrEmpty item "name")) := by
        rw [← escapes_str]
        cases hstr : py.str (getOrEmpty item "name") with
        | error f => exact ⟨iff_of_false nofun nofun, failsWith_error.trans escapes_error.symm⟩
        | ok name =>
          exact ⟨iff_of_true ⟨(), rfl⟩ ⟨name, rfl⟩, iff_of_false not_failsWith_ok not_escapes_ok⟩
      constructor
      · refine (forEach_isOk fun acknowledged item _ => (hone acknowledged item).1).trans ?_
        constructor
        · exact fun h values' hvalues => ⟨items, Json.list.inj (hvalues.symm.trans hlist), h⟩
        · intro h
          obtain ⟨items', hmap, hnames⟩ := h values rfl
          rwa [map_dict_inj (hlist.symm.trans (congrArg Json.list hmap))]
      · refine (failsWith_forEach (fun acknowledged item _ => (hone acknowledged item).1)
          fun acknowledged item _ => (hone acknowledged item).2).trans ?_
        constructor
        · exact fun h => ⟨items, hlist, h⟩
        · rintro ⟨items', h, hfirst⟩
          rwa [map_dict_inj (hlist.symm.trans h)]
  | dict entries =>
    -- Every other value is passed over.
    exact ⟨iff_of_true ⟨(), rfl⟩ nofun,
      iff_of_false not_escapes_ok (by rintro ⟨items, h, -⟩; cases h)⟩
  | _ =>
    exact ⟨iff_of_true ⟨(), rfl⟩ nofun,
      iff_of_false not_escapes_ok (by rintro ⟨items, h, -⟩; cases h)⟩

/-- The keys of an acknowledgement are accepted if all that is read of them is. -/
theorem recordKeys_isOk : (∃ u, (recordKeys py level acknowledged mapping).1 = .ok u) ↔
    ∀ r ∈ keysRead py mapping, r.accepted := by
  unfold recordKeys keysRead
  rw [List.forall_mem_map]
  exact forEach_isOk fun acknowledged key _ => recordAcknowledgedChannels_spec.1

/-- The keys of an acknowledgement stop the reader where what is read of them does. -/
theorem escapes_recordKeys :
    Escapes (recordKeys py level acknowledged mapping).1 ↔ StopsAt (keysRead py mapping) := by
  unfold recordKeys keysRead StopsAt
  rw [firstIs_map]
  exact failsWith_forEach (fun acknowledged key _ => recordAcknowledgedChannels_spec.1)
    fun acknowledged key _ => recordAcknowledgedChannels_spec.2

/-- The acknowledgements of a message stop the reader where they stop. -/
theorem escapes_recordSubscriptionAcknowledgements :
    Escapes (recordSubscriptionAcknowledgements py acknowledged payload).1 ↔
    AcknowledgementsStop py payload := by
  unfold AcknowledgementsStop recordSubscriptionAcknowledgements
  rw [← @recordKeys_isOk py acknowledged "" payload, ← @escapes_recordKeys py
    acknowledged "" payload]
  obtain ⟨result, after⟩ := recordKeys py "" acknowledged payload
  cases result with
  -- The keys of the message itself stop the reader, or do not.
  | error f =>
    dsimp only
    rw [escapes_error, or_iff_left]
    rintro ⟨⟨u, hu⟩, -⟩
    cases hu
  | ok u =>
    rw [or_iff_right not_escapes_ok, and_iff_right ⟨u, rfl⟩]
    dsimp only
    split
    · rename_i values hvalues
      rw [hvalues]
      have hsequence := @mappingSequence_eq_ok (.list values) "events"
      cases hevents : mappingSequence (.list values) "events" with
      | error f =>
        -- What is no list of events is caught.
        have hcaught := @not_escapes_mappingSequence (.list values) "events"
        rw [hevents, escapes_error] at hcaught
        refine iff_of_false (fun h => hcaught (escapes_error.1 h)) ?_
        rintro ⟨events, h, -⟩
        cases hevents.symm.trans (hsequence.2 h)
      | ok events =>
        have hlist := hsequence.1 hevents
        -- Of the events, the first one that stops the reader decides.
        have hloop : Escapes (forEach (recordKeys py "events.") after events).1 ↔
            FirstIs (fun event => ∀ r ∈ keysRead py event, r.accepted)
              (fun event => StopsAt (keysRead py event)) events :=
          failsWith_forEach (fun acknowledged event _ => recordKeys_isOk)
            fun acknowledged event _ => escapes_recordKeys
        dsimp only
        rw [hloop]
        constructor
        · exact fun h => ⟨events, hlist, h⟩
        · rintro ⟨events', h, hfirst⟩
          rwa [map_dict_inj (hlist.symm.trans h)]
    · rename_i hnone
      refine iff_of_false not_escapes_ok ?_
      rintro ⟨events, h, -⟩
      exact hnone _ h

/-- A text loads if it is not too deep and is JSON. -/
theorem loads_eq_ok : py.loads raw = .ok value ↔
    py.exceedsDepth raw = false ∧ loadsStr raw = .ok value := by
  unfold Python.loads
  cases py.exceedsDepth raw with
  | true => simp
  | false => cases loadsStr raw <;> simp

/-- A text that is too deep escapes. -/
theorem escapes_loads : Escapes (py.loads raw) ↔ py.exceedsDepth raw = true := by
  unfold Python.loads
  split_ifs with hdepth
  · exact iff_of_true (escapes_error.2 rfl) hdepth
  · refine iff_of_false ?_ hdepth
    split <;> simp [Fault.isCaught]

/-- What `readPayload` returns is the object of the frame. -/
theorem readPayload_eq_ok {channel : PyStr} (h : readPayload py raw = .ok (payload, channel)) :
    py.exceedsDepth raw = false ∧ loadsStr raw = .ok (.dict payload) ∧
      ∃ name, py.str (getOrEmpty payload "channel") = .ok name ∧
        channel = if strip name = [] then text "unknown" else strip name := by
  obtain ⟨value, hvalue, h⟩ := bind_eq_ok.1 h
  obtain ⟨hdepth, hloaded⟩ := loads_eq_ok.1 hvalue
  split at h
  · obtain ⟨name, hname, h⟩ := bind_eq_ok.1 h
    obtain ⟨rfl, rfl⟩ := Prod.mk.inj (Except.ok.inj h)
    exact ⟨hdepth, hloaded, name, hname, rfl⟩
  · cases h

/-- A payload escapes if the text is too deep, or the channel in it. -/
theorem escapes_readPayload : Escapes (readPayload py raw) ↔ py.exceedsDepth raw = true ∨
    py.exceedsDepth raw = false ∧ ∃ payload, loadsStr raw = .ok (.dict payload) ∧
      TooDeep py (getOrEmpty payload "channel") := by
  rw [readPayload, escapes_bind, escapes_loads]
  refine or_congr_right ⟨?_, ?_⟩
  · rintro ⟨value, hvalue, h⟩
    obtain ⟨hdepth, hloaded⟩ := loads_eq_ok.1 hvalue
    split at h
    · obtain hstr | ⟨name, -, hdone⟩ := escapes_bind.1 h
      · exact ⟨hdepth, _, hloaded, escapes_str.1 hstr⟩
      · exact absurd hdone not_escapes_ok
    · rw [escapes_error] at h
      cases h
  · rintro ⟨hdepth, payload, hloaded, hdeep⟩
    exact ⟨.dict payload, loads_eq_ok.2 ⟨hdepth, hloaded⟩,
      escapes_bind.2 (Or.inl (escapes_str.2 hdeep))⟩

/-- The second `try` escapes with the acknowledgements, or with the message. -/
theorem escapes_project {name channel : PyStr}
    (hname : py.str (getOrEmpty payload "channel") = .ok name)
    (hchannel : channel = if strip name = [] then text "unknown" else strip name) :
    Escapes (s.project py receivedAt payload channel).1 ↔
      strip name = text "subscriptions" ∧ AcknowledgementsStop py payload ∨
        MessageStops py receivedAt s.projector payload name := by
  have hsubscriptions : channel = text "subscriptions" ↔ strip name = text "subscriptions" := by
    rw [hchannel]
    split_ifs with hnil
    · rw [hnil]
      exact iff_of_false (by decide) (by decide)
    · exact Iff.rfl
  -- A channel whose text is that of acknowledgements is not one of the other two.
  have hother (h : strip name = text "subscriptions") :
      ¬MessageStops py receivedAt s.projector payload name := by
    rintro (⟨rfl, -⟩ | ⟨rfl, -⟩)
    · exact absurd h (by decide)
    · exact absurd h (by decide)
  unfold MarketDataProvider.project
  by_cases h : strip name = text "subscriptions"
  · rw [if_pos (hsubscriptions.2 h), or_iff_left (hother h), and_iff_right h,
      ← @escapes_recordSubscriptionAcknowledgements py s.acknowledged payload]
    have hmessage := hother h
    rw [← escapes_apply hname] at hmessage
    obtain ⟨result, acknowledged⟩ := recordSubscriptionAcknowledgements py s.acknowledged payload
    cases result with
    | error f => exact escapes_error.trans escapes_error.symm
    | ok u =>
      refine iff_of_false ?_ not_escapes_ok
      dsimp only
      rcases hresult : s.projector.apply py receivedAt payload with ⟨result, projector⟩
      rw [hresult] at hmessage
      cases result with
      | error f => exact fun h => hmessage (escapes_error.2 (escapes_error.1 h))
      | ok events => exact not_escapes_ok
  · rw [if_neg (mt hsubscriptions.1 h), or_iff_right fun h' => h h'.1, ← escapes_apply hname]
    dsimp only
    obtain ⟨result, projector⟩ := s.projector.apply py receivedAt payload
    cases result with
    | error f => exact escapes_error.trans escapes_error.symm
    | ok events => exact iff_of_false not_escapes_ok not_escapes_ok

/-- A frame stops the reader exactly if one of the two `try` blocks escapes. -/
theorem stops_iff : Stops py receivedAt s.projector raw ↔ Escapes (readPayload py raw) ∨
    ∃ payload channel, readPayload py raw = .ok (payload, channel) ∧
      Escapes (s.project py receivedAt payload channel).1 := by
  rw [escapes_readPayload]
  constructor
  · rintro (hdepth | ⟨payload, hloaded, h⟩)
    · exact Or.inl (Or.inl hdepth)
    · cases hdepth : py.exceedsDepth raw with
      | true => exact Or.inl (Or.inl rfl)
      | false =>
        obtain hdeep | ⟨name, hname, h⟩ := h
        · exact Or.inl (Or.inr ⟨rfl, payload, hloaded, hdeep⟩)
        · have hread : readPayload py raw =
              .ok (payload, if strip name = [] then text "unknown" else strip name) :=
            bind_eq_ok.2 ⟨.dict payload, loads_eq_ok.2 ⟨hdepth, hloaded⟩,
              bind_eq_ok.2 ⟨name, hname, rfl⟩⟩
          exact Or.inr ⟨payload, _, hread, (escapes_project hname rfl).2 h⟩
  · rintro ((hdepth | ⟨-, payload, hloaded, hdeep⟩) | ⟨payload, channel, hread, h⟩)
    · exact Or.inl hdepth
    · exact Or.inr ⟨payload, hloaded, Or.inl hdeep⟩
    · obtain ⟨-, hloaded, name, hname, hchannel⟩ := readPayload_eq_ok hread
      exact Or.inr ⟨payload, hloaded, Or.inr ⟨name, hname, (escapes_project hname hchannel).1 h⟩⟩

end Stops

/-! ## Frames that the reader survives -/

/-- The reader goes on after the frame: it has projected it into the queue, or counted it as
rejected. -/
def GoesOn (py : Python) (s : MarketDataProvider) (raw : PyStr)
    (receivedAt : AwareDatetime) : Prop :=
  (s.receive py raw receivedAt).reader = .running ∧
    ((s.receive py raw receivedAt).rejected = s.rejected + 1 ∧
        (s.receive py raw receivedAt).queue = s.queue ∧
        (s.receive py raw receivedAt).projected = s.projected ∨
      ∃ payload channel events, readPayload py raw = .ok (payload, channel) ∧
        (s.projector.apply py receivedAt payload).1 = .ok events ∧
        (s.receive py raw receivedAt).rejected = s.rejected ∧
        (s.receive py raw receivedAt).queue =
        s.queue ++ events.filter (fun e => e.symbol.1 ∈ s.symbols) ∧
        (s.receive py raw receivedAt).projected =
          s.projected + (events.filter fun e => e.symbol.1 ∈ s.symbols).length)

section Runs

variable {py : Python} {raw : PyStr} {receivedAt : AwareDatetime} {s s' : MarketDataProvider}
  {payload : Mapping} {channel : PyStr} {f : Fault}

/-- What the second `try` changes besides the projector and the acknowledgements. -/
theorem project_cases (s : MarketDataProvider) (payload : Mapping) (channel : PyStr) :
    (∃ f s', s.project py receivedAt payload channel = (.error f, s') ∧ s'.reader = s.reader ∧
      s'.rejected = s.rejected ∧ s'.queue = s.queue ∧ s'.projected = s.projected) ∨
    ∃ events s', s.project py receivedAt payload channel = (.ok (), s') ∧
      (s.projector.apply py receivedAt payload).1 = .ok events ∧ s'.reader = s.reader ∧
      s'.rejected = s.rejected ∧
      s'.queue = s.queue ++ events.filter (fun e => e.symbol.1 ∈ s.symbols) ∧
      s'.projected = s.projected + (events.filter fun e => e.symbol.1 ∈ s.symbols).length := by
  unfold MarketDataProvider.project
  split
  · exact Or.inl ⟨_, _, rfl, rfl, rfl, rfl, rfl⟩
  · rcases hresult : s.projector.apply py receivedAt payload with ⟨result, projector⟩
    cases result with
    | error f => exact Or.inl ⟨_, _, rfl, rfl, rfl, rfl, rfl⟩
    | ok events => exact Or.inr ⟨events, _, rfl, rfl, rfl, rfl, rfl, rfl⟩

/-- A fault that is caught rejects the message. -/
theorem raise_of_caught (h : f.isCaught = true) :
    s.raise f = { s with rejected := s.rejected + 1 } :=
  if_pos h

/-- A fault that is not caught ends the reader. -/
theorem raise_of_not_caught (h : f.isCaught = false) : s.raise f = { s with reader := .failed f } :=
  if_neg (by rw [h]; exact Bool.false_ne_true)

/-- What is projected does not depend on how many frames have been counted. -/
theorem project_counted {n : ℕ} :
    (({ s with rawMessages := n } : MarketDataProvider).project py receivedAt payload channel).1 =
      (s.project py receivedAt payload channel).1 := by
  unfold MarketDataProvider.project
  dsimp only
  split
  · rfl
  · rcases s.projector.apply py receivedAt payload with ⟨result, projector⟩
    cases result with
    | error f => rfl
    | ok events => rfl

/-- The reader goes on exactly if nothing escapes. -/
theorem goesOn_iff (hrunning : s.reader = .running) :
    GoesOn py s raw receivedAt ↔ ¬Stops py receivedAt s.projector raw := by
  rw [stops_iff]
  unfold GoesOn MarketDataProvider.receive
  cases hread : readPayload py raw with
  | error f =>
    dsimp only
    rw [escapes_error]
    cases hcaught : f.isCaught with
    | true =>
      rw [raise_of_caught hcaught]
      refine iff_of_true ⟨hrunning, Or.inl ⟨rfl, rfl, rfl⟩⟩ ?_
      rintro (h | ⟨payload, channel, h, -⟩)
      · cases h
      · cases h
    | false =>
      rw [raise_of_not_caught hcaught]
      exact iff_of_false (fun h => nomatch h.1) (not_not.2 (Or.inl rfl))
  | ok read =>
    obtain ⟨payload, channel⟩ := read
    -- A payload that has been read stops the reader only where projecting it does.
    have hescapes : (Escapes (.ok (payload, channel) : Except Fault (Mapping × PyStr)) ∨
        ∃ payload' channel', (.ok (payload, channel) : Except Fault (Mapping × PyStr)) =
          .ok (payload', channel') ∧ Escapes (s.project py receivedAt payload' channel').1) ↔
        Escapes (s.project py receivedAt payload channel).1 := by
      rw [or_iff_right not_escapes_ok]
      constructor
      · rintro ⟨payload', channel', heq, h⟩
        obtain ⟨rfl, rfl⟩ := Prod.mk.inj (Except.ok.inj heq)
        exact h
      · exact fun h => ⟨payload, channel, rfl, h⟩
    rw [hescapes, ← project_counted (n := s.rawMessages + 1)]
    dsimp only
    obtain ⟨f, s', hproject, hreader, hrejected, hqueue, hprojected⟩ |
      ⟨events, s', hproject, hevents, hreader, hrejected, hqueue, hprojected⟩ :=
      @project_cases py receivedAt { s with rawMessages := s.rawMessages + 1 } payload channel
    · rw [hproject]
      dsimp only
      rw [escapes_error]
      cases hcaught : f.isCaught with
      | true =>
        rw [raise_of_caught hcaught]
        exact iff_of_true ⟨hreader.trans hrunning,
          Or.inl ⟨congrArg (· + 1) hrejected, hqueue, hprojected⟩⟩ nofun
      | false =>
        rw [raise_of_not_caught hcaught]
        exact iff_of_false (fun h => nomatch h.1) (not_not.2 rfl)
    · rw [hproject]
      exact iff_of_true ⟨hreader.trans hrunning, Or.inr ⟨payload, channel, events, rfl, hevents,
        hrejected, hqueue, hprojected⟩⟩ not_escapes_ok

/-- The frames that the reader receives do not stop it. -/
def Spared (py : Python) (s : MarketDataProvider) : ProviderAction → Prop
  | .receive raw receivedAt => ¬Stops py receivedAt s.projector raw
  | _ => True

/-- A subscribe leaves the reader. -/
theorem subscribe_reader (symbols : List PyStr) : (s.subscribe py symbols).reader = s.reader := by
  unfold MarketDataProvider.subscribe
  split
  · rfl
  · rfl

/-- An unsubscribe leaves the reader. -/
theorem unsubscribe_reader (symbols : List PyStr) :
    (s.unsubscribe py symbols).reader = s.reader := by
  unfold MarketDataProvider.unsubscribe
  split
  · rfl
  · rfl

/-- A step makes the reader fail only by a frame that stops it. -/
theorem step_reader {action : ProviderAction} (h : ∀ f, s.reader ≠ .failed f)
    (hok : Spared py s action)
    (hstep : s.step py action = some s') : ∀ f, s'.reader ≠ .failed f := by
  unfold MarketDataProvider.step at hstep
  cases action with
  | connect made =>
    rw [← Option.some.inj hstep]
    split_ifs with hrunning
    · exact h
    · intro f
      cases made with
      | true => exact nofun
      | false => exact nofun
  | disconnect =>
    rw [← Option.some.inj hstep]
    dsimp only
    split_ifs with hrunning
    · exact nofun
    · exact h
  | subscribe symbols =>
    rw [← Option.some.inj hstep, subscribe_reader]
    exact h
  | unsubscribe symbols =>
    rw [← Option.some.inj hstep, unsubscribe_reader]
    exact h
  | receive raw receivedAt =>
    dsimp only at hstep
    split_ifs at hstep with hrunning
    -- The frame is spared, so the reader goes on with the next one.
    have hgoes : GoesOn py s raw receivedAt := (goesOn_iff hrunning).2 hok
    rw [← Option.some.inj hstep, hgoes.1]
    exact nofun
  | stall =>
    dsimp only at hstep
    split_ifs at hstep
    rw [← Option.some.inj hstep]
    exact nofun
  | close =>
    dsimp only at hstep
    split_ifs at hstep
    rw [← Option.some.inj hstep]
    exact nofun
  | take =>
    rw [← Option.some.inj hstep]
    exact h

/-- In a run whose frames do not stop the reader it never fails, and for every frame that it may
receive next it goes on exactly if the frame does not stop it. -/
theorem reader_goes_on (h : Path (MarketDataProvider.step py) (Spared py) .init s) :
    (∀ f, s.reader ≠ .failed f) ∧ (s.reader = .running → ∀ raw receivedAt,
      GoesOn py s raw receivedAt ↔ ¬Stops py receivedAt s.projector raw) := by
  constructor
  · exact h.invariant (fun s => ∀ f, s.reader ≠ .failed f) (fun f => nofun)
      fun _ _ _ hs hok hstep => step_reader hs hok hstep
  · exact fun hrunning raw receivedAt => goesOn_iff hrunning

/-- A time of receipt. -/
def sampleTime : AwareDatetime := ⟨⟨0, some 0⟩, rfl⟩

/-- After a frame that is no JSON. -/
theorem reader_goes_on_sample : ∃ s, s.rejected = 1 ∧ (∀ f, s.reader ≠ .failed f) ∧
    (s.reader = .running → ∀ raw receivedAt,
      GoesOn samplePython s raw receivedAt ↔ ¬Stops samplePython receivedAt s.projector raw) := by
  have hspared : Spared samplePython (MarketDataProvider.init.connect true)
      (.receive (text "x") sampleTime) := by
    rintro (h | ⟨payload, h, -⟩)
    · cases h
    · cases h
  have hpath : Path (MarketDataProvider.step samplePython) (Spared samplePython) .init
      ((MarketDataProvider.init.connect true).receive samplePython (text "x") sampleTime) :=
    (Lib.Path.refl.tail (.connect true) trivial rfl).tail
      (.receive (text "x") sampleTime) hspared rfl
  exact ⟨_, rfl, reader_goes_on hpath⟩

/-- A frame with a ticker whose price is a NaN. -/
def nanFrame : PyStr :=
  (Json.dict (sampleMessage "ticker" "tickers"
    [sampleTicker "BTC-USD" "NaN" "99" "101" "1" "2"])).encode

/-- A NaN for a price ends a reader that has just been started. -/
theorem not_goesOn_nanFrame : ∃ s, Path (MarketDataProvider.step samplePython) anyStep .init s ∧
    s.reader = .running ∧ (s.receive samplePython nanFrame sampleTime).reader =
    .failed .invalidOperation ∧
    ¬GoesOn samplePython s nanFrame sampleTime := by
  have hfailed : ((MarketDataProvider.init.connect true).receive samplePython nanFrame
    sampleTime).reader =
      .failed .invalidOperation := by decide +kernel
  refine ⟨MarketDataProvider.init.connect true,
    Lib.Path.refl.tail (.connect true) trivial rfl, rfl, hfailed, ?_⟩
  rintro ⟨hrunning, -⟩
  cases hfailed.symm.trans hrunning

end Runs

end MarketDataGateway.Coinbase
