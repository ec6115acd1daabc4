import MarketDataGateway.Recorder.Writer

/-!
# The recorder of quotes

`QuoteMessageRecorder` of `recorder.py`. It validates a message, compares the sequence of its quote
with the last one of the symbol, and hands a row to the writer. The validators of the models are
given from outside (`Validators`), with what a dump of a quote contains.
-/

namespace MarketDataGateway.Recorder

open Lib

/-! ## Messages -/

/-- A message of the WebSocket. -/
inductive RawMessage
  /-- A text frame. -/
  | str (s : PyStr)
  /-- A binary frame. -/
  | bytes (b : List Byte)

/-- `StreamMessage.type`. -/
inductive MessageType
  | connected
  | ack
  | snapshot
  | quote
  | heartbeat
  | warning
  | error
  deriving DecidableEq

/-- What the recorder reads of a `StreamMessage`. -/
structure StreamMessage where
  /-- `type`. -/
  type : MessageType
  /-- `data`. -/
  data : Record

/-- What the recorder reads of a `QuoteEvent`. -/
structure Quote where
  /-- `symbol`. -/
  symbol : PyStr
  /-- `sequence`. -/
  sequence : Option ℕ
  /-- `model_dump(mode="json")`. -/
  dump : Record
  symbol_dump : dump.get (text "symbol") = some (.str symbol)
  /-- A dump leaves out what is `None`. -/
  sequence_dump : dump.get (text "sequence") = sequence.map fun n => .int n

/-- `model_validate` of the two models. `none` stands for a `ValidationError`. -/
structure Validators where
  /-- `StreamMessage.model_validate`. -/
  streamMessage : Record → Option StreamMessage
  /-- `QuoteEvent.model_validate`. -/
  quoteEvent : Record → Option Quote

/-- The metadata that `_quote_from_message` returns besides the quote. -/
structure Metadata where
  /-- `source_message_type`. -/
  sourceMessageType : PyStr
  /-- `stale`. -/
  stale : Bool

/-- The value as a record, if it is a mapping. -/
def asRecord (v : Json) (h : v.Sorted) : Option Record :=
  match v, h with
  | .dict entries, h => some ⟨entries, h⟩
  | _, _ => none

/-- A value of a record has its keys in order. -/
theorem Record.get_sorted {r : Record} {k : PyStr} {v : Json} (h : r.get k = some v) : v.Sorted :=
  r.values_sorted (k, v) (mem_of_getKey h)

/-- `message.data.get("quote", message.data)`, if it is a mapping. -/
def quotePayload (data : Record) : Option Record :=
  match h : data.get (text "quote") with
  | none => some data
  | some v => asRecord v (Record.get_sorted h)

/-- `_quote_from_message`. `none` stands for an exception. -/
def quoteFromMessage (validators : Validators) (message : StreamMessage) :
    Option (Option (Quote × Metadata)) :=
  let quote := (quotePayload message.data).bind validators.quoteEvent
  match message.type with
  | .quote => quote.map fun q => some (q, ⟨text "quote", false⟩)
  | .snapshot =>
    let stale := (message.data.get (text "stale")).any Json.truthy
    quote.map fun q => some (q, ⟨text "snapshot", stale⟩)
  | _ => some none

/-- `json.loads(raw_message)`, if it is an object. -/
def loadsMessage (raw : RawMessage) : Option Record :=
  match raw with
  | .str s =>
    match h : loadsStr s with
    | .ok v => asRecord v (sorted_loadsStr h)
    | .error _ => none
  | .bytes b =>
    match h : loads b with
    | .ok v => asRecord v (sorted_loads h)
    | .error _ => none

/-- The `try` block of `handle`. `none` stands for a malformed message. -/
def readMessage (validators : Validators) (raw : RawMessage) : Option (Option (Quote × Metadata)) :=
  (loadsMessage raw).bind fun payload =>
    (validators.streamMessage payload).bind (quoteFromMessage validators)

/-! ## The recorder -/

/-- `RecorderCounters`. -/
structure Counters where
  received : ℕ := 0
  written : ℕ := 0
  malformed : ℕ := 0
  duplicates : ℕ := 0
  gaps : ℕ := 0
  reconnects : ℕ := 0
  dropped : ℕ := 0

/-- `QuoteMessageRecorder`. -/
structure QuoteRecorder where
  /-- `writer`. -/
  writer : Writer
  /-- `counters`. -/
  counters : Counters
  /-- `_last_sequence`. -/
  lastSequence : Dict PyStr ℕ

/-- `QuoteMessageRecorder.__init__`. -/
def QuoteRecorder.init (writer : Writer) : QuoteRecorder := ⟨writer, {}, ⟨[], .nil⟩⟩

/-- What `_sequence_metadata` returns. -/
structure SequenceMetadata where
  /-- `degraded_stream`. -/
  degradedStream : Bool
  /-- `sequence_gap`. -/
  sequenceGap : Bool
  /-- `gap_size`. -/
  gapSize : ℕ

/-- `_sequence_metadata`: what it returns, and the recorder after it. -/
def QuoteRecorder.sequenceMetadata (recorder : QuoteRecorder) (quote : Quote) :
    Option SequenceMetadata × QuoteRecorder :=
  match quote.sequence with
  | none => (some ⟨false, false, 0⟩, recorder)
  | some sequence =>
    let previous := recorder.lastSequence.get quote.symbol
    if previous.any (sequence ≤ ·) then
      (none, { recorder with counters.duplicates := recorder.counters.duplicates + 1 })
    else
      -- `max(0, sequence - previous - 1)`
      let gapSize := match previous with
        | none => 0
        | some previous => sequence - previous - 1
      (some ⟨0 < gapSize, 0 < gapSize, gapSize⟩, { recorder with
        counters.gaps := recorder.counters.gaps + if 0 < gapSize then 1 else 0
        lastSequence := recorder.lastSequence.insert quote.symbol sequence })

/-- `record[field] = b`. -/
def Record.insertBool (record : Record) (field : String) (b : Bool) : Record :=
  record.insert (text field) (.bool b) (.bool b)

/-- `record` of `handle`. -/
def row (quote : Quote) (metadata : Metadata) (sequence : SequenceMetadata) : Record :=
  ((((((quote.dump.insertStr "source_message_type" metadata.sourceMessageType).insertBool
    "stale" metadata.stale).insertBool
    "degraded_stream" sequence.degradedStream).insertBool
    "sequence_gap" sequence.sequenceGap).insert
    (text "gap_size") (.int sequence.gapSize) (.int _)).insertStr
    "event_type" (text "quote")).insertStr
    "channel" (text "quote")

/-- The exception is an `OSError`: what a call to the operating system raises is taken to be one. -/
def WriteError.isOSError : WriteError → Bool
  | .noProgress _ => true
  | .raised => true
  | _ => false

/-- How `handle` ends. -/
inductive Outcome
  /-- It returns `False`. -/
  | ignored
  /-- It returns `True`, and the writer has returned the row. -/
  | recorded (row : Record)
  /-- It raises what the writer has raised. -/
  | raised (e : WriteError)

/-- `handle`: how it ends, the recorder and the file. -/
def QuoteRecorder.handle (validators : Validators) (recorder : QuoteRecorder) (calls : OsCalls)
    (raw : RawMessage) (file : List Byte) : Outcome × QuoteRecorder × List Byte :=
  let recorder := { recorder with counters.received := recorder.counters.received + 1 }
  match readMessage validators raw with
  | none =>
    (.ignored, { recorder with counters.malformed := recorder.counters.malformed + 1 }, file)
  | some none => (.ignored, recorder, file)
  | some (some (quote, metadata)) =>
    match recorder.sequenceMetadata quote with
    | (none, recorder) => (.ignored, recorder, file)
    | (some sequence, recorder) =>
      match recorder.writer.write calls (row quote metadata sequence) file with
      | (.error e, writer, file) =>
        let dropped := recorder.counters.dropped + if e.isOSError then 1 else 0
        (.raised e, { recorder with writer := writer, counters.dropped := dropped }, file)
      | (.ok written, writer, file) =>
        (.recorded written,
          { recorder with writer := writer, counters.written := recorder.counters.written + 1 },
          file)

end MarketDataGateway.Recorder
