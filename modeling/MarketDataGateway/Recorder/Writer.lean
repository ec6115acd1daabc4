import MarketDataGateway.Recorder.Ledger

/-!
# The writer of the recorder

`AtomicJsonlWriter` of `recorder.py`: `__enter__` verifies the file and takes its head, `write`
appends a record that names it, in as many calls of `os.write` as it takes, and cuts the file back
when one of them fails.

What the calls to the operating system do is given from outside (`OsCalls`). `os.ftruncate`
succeeds.
-/

namespace MarketDataGateway.Recorder

open Lib

/-! ## Records of the ledger -/

/-- `RESERVED_LEDGER_FIELDS`, sorted. -/
def reservedLedgerFields : List String :=
  ["ledger_algorithm", "ledger_index", "ledger_version", "previous_record_hash",
    "provenance_component", "provenance_system", "provenance_transport", "record_hash",
    "recorder_session_id"]

/-- The reserved fields that the record has. -/
def conflictingFields (record : Record) : List String :=
  reservedLedgerFields.filter fun field => (record.get (text field)).isSome

/-- `record[field] = s`. -/
def Record.insertStr (record : Record) (field : String) (s : PyStr) : Record :=
  record.insert (text field) (.str s) (.str s)

/-- `AtomicJsonlWriter`, where `isOpen` says that there is a file descriptor. -/
structure Writer where
  /-- `fsync`. -/
  fsync : Bool
  /-- `session_id`. -/
  sessionId : PyStr
  /-- `__init__` refuses other ids. -/
  notBlank : ¬ IsBlank sessionId
  /-- `_fd is not None`. -/
  isOpen : Bool
  /-- `_next_ledger_index`. -/
  nextLedgerIndex : ℕ
  /-- `_previous_record_hash`. -/
  previousRecordHash : PyStr

/-- `AtomicJsonlWriter.__init__`, where `uuid` is a fresh id. It raises `ValueError` on a blank
id. -/
def Writer.init (fsync : Bool) (sessionId : Option PyStr) (uuid : PyStr) : Option Writer :=
  let id := match sessionId with
    | none => uuid
    | some s => if s = [] then uuid else s
  if h : ¬ IsBlank id then some ⟨fsync, id, h, false, 0, genesisHash⟩ else none

/-- `ledger_record`, without its hash. -/
def Writer.chainRecord (w : Writer) (record : Record) : Record :=
  ((((((((record.insertStr "ledger_version" ledgerVersion).insertStr
    "ledger_algorithm" ledgerAlgorithm).insert
    (text "ledger_index") (.int w.nextLedgerIndex) (.int _)).insertStr
    "previous_record_hash" w.previousRecordHash).insertStr
    "recorder_session_id" w.sessionId).insertStr
    "provenance_system" provenanceSystem).insertStr
    "provenance_component" provenanceComponent).insertStr
    "provenance_transport" provenanceTransport)

/-- `ledger_record`, and before it the hash in it, after it its line. -/
def Writer.sealRecord (w : Writer) (record : Record) :
    Except EncodeError (PyStr × Record × List Byte) :=
  let chained := w.chainRecord record
  match computeRecordHash chained with
  | .error e => .error e
  | .ok hash =>
    let ledgerRecord := chained.insertStr "record_hash" hash
    -- The first `payload` of the source is not used, but computing it can fail.
    match canonicalRecordBytes ledgerRecord, encodeRecord ledgerRecord with
    | .error e, _ => .error e
    | .ok _, .error e => .error e
    | .ok _, .ok bytes => .ok (hash, ledgerRecord, bytes ++ [0x0A])

/-! ## Calls to the operating system -/

/-- What a call of `os.write` does. -/
inductive OsWrite
  /-- It appends so many octets, or all that remain if these are fewer. -/
  | wrote (n : ℕ)
  /-- It raises. -/
  | raises

/-- What the calls to the operating system do during a call of `write`. -/
structure OsCalls where
  /-- The calls of `os.write`. One more would raise. -/
  writes : List OsWrite
  /-- `os.fsync` after the line succeeds. -/
  synced : Bool
  /-- `os.fsync` after the rollback succeeds. -/
  rollbackSynced : Bool

/-- How `write` fails. -/
inductive WriteError
  /-- `RuntimeError`: the writer is not open. -/
  | runtimeError (message : String)
  /-- `ValueError`: the record has reserved fields. -/
  | reservedFields (message : String)
  /-- What the encoding raises. -/
  | encode (e : EncodeError)
  /-- `OSError`: there was no progress. -/
  | noProgress (message : String)
  /-- What a call to the operating system raises. -/
  | raised
  deriving DecidableEq

/-- The loop that appends what remains. -/
def appendAll : List OsWrite → List Byte → List Byte → Except WriteError Unit × List Byte
  | _, [], file => (.ok (), file)
  | [], _ :: _, file => (.error .raised, file)
  | .raises :: _, _ :: _, file => (.error .raised, file)
  | .wrote n :: calls, b :: remaining, file =>
    let written := ((b :: remaining).take n).length
    if written ≤ 0 then (.error (.noProgress "JSONL append made no progress"), file)
    else appendAll calls ((b :: remaining).drop written) (file ++ (b :: remaining).take n)

/-- The `try` block. It appends the octets, or leaves the file as it was. -/
def appendOrRollBack (fsync : Bool) (calls : OsCalls) (payload file : List Byte) :
    Except WriteError Unit × List Byte :=
  let originalSize := file.length
  let appended := appendAll calls.writes payload file
  let tried : Except WriteError Unit := match appended.1 with
    | .error e => .error e
    | .ok () => if fsync && !calls.synced then .error .raised else .ok ()
  match tried with
  | .ok () => (.ok (), appended.2)
  | .error e =>
    (.error (if fsync && !calls.rollbackSynced then .raised else e), appended.2.take originalSize)

/-! ## The methods -/

/-- `AtomicJsonlWriter.__enter__`. The file is created if there is none. -/
def Writer.enter (w : Writer) (path : String) (file : Option (List Byte)) :
    Except VerifyError Writer × List Byte :=
  let bytes := file.getD []
  match verifyJsonlLedger path (some bytes) false with
  | .error e => (.error e, bytes)
  | .ok verification =>
    (.ok { w with
      isOpen := true
      nextLedgerIndex := verification.records
      previousRecordHash := verification.headHash }, bytes)

/-- `AtomicJsonlWriter.write`: what it returns, the writer and the file. -/
def Writer.write (w : Writer) (calls : OsCalls) (record : Record) (file : List Byte) :
    Except WriteError Record × Writer × List Byte :=
  if ¬ w.isOpen then (.error (.runtimeError "JSONL writer is not open"), w, file)
  else if conflictingFields record ≠ [] then
    let names := ", ".intercalate (conflictingFields record)
    (.error (.reservedFields s!"record contains reserved evidence-ledger fields: {names}"), w, file)
  else
    match w.sealRecord record with
    | .error e => (.error (.encode e), w, file)
    | .ok (hash, ledgerRecord, payload) =>
      match appendOrRollBack w.fsync calls payload file with
      | (.error e, file) => (.error e, w, file)
      | (.ok (), file) =>
        (.ok ledgerRecord, { w with
          previousRecordHash := hash
          nextLedgerIndex := w.nextLedgerIndex + 1 }, file)

/-- `AtomicJsonlWriter.close`. -/
def Writer.close (w : Writer) : Writer := { w with isOpen := false }

end MarketDataGateway.Recorder
