import Mathlib.Data.Finset.Sort
import Mathlib.Data.List.Lex
import MarketDataGateway.Lib.JsonRoundTrip
import MarketDataGateway.Lib.Sha256

/-!
# The evidence ledger of the recorder

`canonical_record_bytes`, `compute_record_hash` and `verify_jsonl_ledger` of `recorder.py`. A ledger
is a file of lines, each a JSON object that names the hash of the one before it. The verifier parses
each line and hashes what it has parsed, encoded again.

The content of a file is a list of octets, and `none` where there is no file.
-/

namespace MarketDataGateway.Recorder

open Lib

/-! ## Records -/

/-- A record: an object of JSON. -/
structure Record where
  /-- The entries. -/
  entries : List (PyStr × Json)
  /-- The keys of each object in it are in their order. -/
  sorted : (Json.dict entries).Sorted

namespace Record

variable {r r' : Record} {k k' : PyStr} {v : Json} {hv : v.Sorted}

/-- Records with the same entries are the same. -/
theorem ext (h : r.entries = r'.entries) : r = r' := by
  cases r
  cases r'
  cases h
  rfl

/-- The record as a value. -/
def toJson (r : Record) : Json := .dict r.entries

/-- The keys of a record are in order. -/
theorem keys_sorted (r : Record) : SortedKeys r.entries := by
  cases r.sorted with
  | dict hkeys _ => exact hkeys

/-- The values of a record have their keys in order. -/
theorem values_sorted (r : Record) : ∀ e ∈ r.entries, e.2.Sorted := by
  cases r.sorted with
  | dict _ h => exact h

/-- `record.get(k)`. -/
def get (r : Record) (k : PyStr) : Option Json := getKey k r.entries

/-- `record[k] = v`. -/
def insert (r : Record) (k : PyStr) (v : Json) (hv : v.Sorted) : Record :=
  ⟨insertKey k v r.entries, .dict (sortedKeys_insertKey r.keys_sorted) fun e he => by
    rcases mem_insertKey he with rfl | he
    · exact hv
    · exact r.values_sorted e he⟩

/-- `record.pop(k, None)`. -/
def erase (r : Record) (k : PyStr) : Record :=
  ⟨eraseKey k r.entries, .dict (sortedKeys_eraseKey r.keys_sorted) fun e he =>
    r.values_sorted e (List.mem_of_mem_filter he)⟩

/-- The value that is inserted is found. -/
@[simp] theorem get_insert_self : (r.insert k v hv).get k = some v := getKey_insertKey_self

/-- A value that is inserted leaves the other fields. -/
theorem get_insert_ne (h : k' ≠ k) : (r.insert k v hv).get k' = r.get k' := getKey_insertKey_ne h

/-- A field that is inserted and removed is gone. -/
theorem erase_insert (h : r.get k = none) : (r.insert k v hv).erase k = r :=
  ext (eraseKey_insertKey (ne_of_getKey_eq_none h))

/-- Records are the same if they are without a key and have the same value for it. -/
theorem eq_of_erase (h : r.erase k = r'.erase k) (hget : r.get k = some v)
    (hget' : r'.get k = some v) : r = r' := by
  have hentries : eraseKey k r.entries = eraseKey k r'.entries := congrArg entries h
  refine ext ?_
  calc r.entries = insertKey k v (eraseKey k r.entries) :=
        (insertKey_eraseKey r.keys_sorted hget).symm
    _ = insertKey k v (eraseKey k r'.entries) := by rw [hentries]
    _ = r'.entries := insertKey_eraseKey r'.keys_sorted hget'

end Record

/-! ## Hashes -/

/-- How an encoding of a record fails. -/
inductive EncodeError
  /-- `ValueError`: an integer with too many digits. -/
  | valueError
  /-- `UnicodeEncodeError`: a surrogate. -/
  | unicodeEncodeError
  deriving DecidableEq

/-- `json.dumps(record, ...).encode("utf-8")`. -/
def encodeRecord (r : Record) : Except EncodeError (List Byte) :=
  match dumps r.toJson with
  | none => .error .valueError
  | some s =>
    match encodeUtf8 s with
    | none => .error .unicodeEncodeError
    | some bytes => .ok bytes

/-- `canonical_record_bytes`. -/
def canonicalRecordBytes (r : Record) : Except EncodeError (List Byte) :=
  encodeRecord (r.erase (text "record_hash"))

/-- `compute_record_hash`. -/
def computeRecordHash (r : Record) : Except EncodeError PyStr :=
  (canonicalRecordBytes r).map Sha256.hexdigest

/-- `LEDGER_VERSION`. -/
def ledgerVersion : PyStr := text "1.0"

/-- `LEDGER_ALGORITHM`. -/
def ledgerAlgorithm : PyStr := text "sha256"

/-- `GENESIS_HASH`. -/
def genesisHash : PyStr := List.replicate 64 0x30

/-- `PROVENANCE_SYSTEM`. -/
def provenanceSystem : PyStr := text "smart-market-data-gateway"

/-- `PROVENANCE_COMPONENT`. -/
def provenanceComponent : PyStr := text "websocket-jsonl-recorder"

/-- `PROVENANCE_TRANSPORT`. -/
def provenanceTransport : PyStr := text "websocket"

/-! ## Verification -/

/-- How `verify_jsonl_ledger` fails. -/
inductive VerifyError
  /-- `LedgerIntegrityError`. -/
  | integrity (message : String)
  /-- `ValueError` of `json.loads`. -/
  | loads
  /-- What `compute_record_hash` raises. -/
  | encode (e : EncodeError)
  deriving DecidableEq

/-- `LedgerVerification`. -/
structure LedgerVerification where
  /-- The number of records. -/
  records : ℕ
  /-- The hash of the last record. -/
  headHash : PyStr
  /-- The ids of the sessions, in their order. -/
  sessionIds : List PyStr
  deriving DecidableEq

/-- `value == s`, for a string `s`. -/
def eqStr (value : Option Json) (s : PyStr) : Bool :=
  match value with
  | some (.str t) => t = s
  | _ => false

/-- `value == n`, for a natural number `n`: a `bool` is an `int`, and a `float` is compared by its
value. -/
def eqNat (value : Option Json) (n : ℕ) : Bool :=
  match value with
  | some (.int z) => z = n
  | some (.bool b) => b.toNat = n
  | some (.float (.finite negative bits)) =>
    units bits.val = n * 2 ^ subnormal ∧ (negative = true → n = 0)
  | _ => false

/-- `not value` of a string without its whitespace. -/
def IsBlank (s : PyStr) : Prop := strip s = []

instance (s : PyStr) : Decidable (IsBlank s) := inferInstanceAs (Decidable (_ = _))

/-- A lowercase SHA-256 digest. -/
def IsDigest (s : PyStr) : Prop := s.length = 64 ∧ ∀ c ∈ s, c ∈ text "0123456789abcdef"

instance (s : PyStr) : Decidable (IsDigest s) :=
  @instDecidableAnd _ _ _ (List.decidableBAll (fun c => c ∈ text "0123456789abcdef") s)

/-- `_require_hash`. -/
def requireHash (value : Option Json) (field : String) (lineNumber : ℕ) :
    Except VerifyError PyStr :=
  let refused := .error (.integrity
    s!"line {lineNumber}: {field} must be a lowercase 64-character SHA-256 digest")
  match value with
  | some (.str s) => if IsDigest s then .ok s else refused
  | _ => refused

/-- The variables of the loop over the lines. -/
structure Progress where
  /-- `expected_previous_hash`. -/
  expectedPreviousHash : PyStr
  /-- `expected_index`. -/
  expectedIndex : ℕ
  /-- `session_ids`. -/
  sessionIds : Finset PyStr

/-- The variables before the first line. -/
def Progress.init : Progress := ⟨genesisHash, 0, ∅⟩

/-- The line as a record. -/
def readLine (rawLine : List Byte) (lineNumber : ℕ) : Except VerifyError Record :=
  match loadsSorted rawLine with
  | .error .valueError => .error .loads
  | .error _ => .error (.integrity s!"line {lineNumber}: invalid UTF-8 JSON record")
  | .ok ⟨.dict entries, h⟩ => .ok ⟨entries, h⟩
  | .ok _ => .error (.integrity s!"line {lineNumber}: ledger record must be an object")

/-- The check of `previous_record_hash` and `record_hash`. -/
def verifyHashes (p : Progress) (payload : Record) (lineNumber : ℕ) : Except VerifyError PyStr :=
  match requireHash (payload.get (text "previous_record_hash")) "previous_record_hash" lineNumber
    with
  | .error e => .error e
  | .ok previousHash =>
    if previousHash ≠ p.expectedPreviousHash then .error (.integrity
      s!"line {lineNumber}: previous_record_hash does not match the prior record")
    else
      match requireHash (payload.get (text "record_hash")) "record_hash" lineNumber with
      | .error e => .error e
      | .ok storedHash =>
        match computeRecordHash payload with
        | .error e => .error (.encode e)
        | .ok computedHash =>
          if storedHash ≠ computedHash then
            .error (.integrity s!"line {lineNumber}: record_hash mismatch")
          else .ok storedHash

/-- The body of the loop, after the line has been parsed. -/
def verifyRecord (p : Progress) (payload : Record) (lineNumber : ℕ) : Except VerifyError Progress :=
  if ¬ eqStr (payload.get (text "ledger_version")) ledgerVersion then
    .error (.integrity s!"line {lineNumber}: unsupported or missing ledger_version")
  else if ¬ eqStr (payload.get (text "ledger_algorithm")) ledgerAlgorithm then
    .error (.integrity s!"line {lineNumber}: unsupported or missing ledger_algorithm")
  else if ¬ eqNat (payload.get (text "ledger_index")) p.expectedIndex then
    .error (.integrity s!"line {lineNumber}: ledger_index must equal {p.expectedIndex}")
  else if ¬ eqStr (payload.get (text "provenance_system")) provenanceSystem then
    .error (.integrity s!"line {lineNumber}: invalid provenance_system")
  else if ¬ eqStr (payload.get (text "provenance_component")) provenanceComponent then
    .error (.integrity s!"line {lineNumber}: invalid provenance_component")
  else if ¬ eqStr (payload.get (text "provenance_transport")) provenanceTransport then
    .error (.integrity s!"line {lineNumber}: invalid provenance_transport")
  else
    match payload.get (text "recorder_session_id") with
    | some (.str sessionId) =>
      if IsBlank sessionId then
        .error (.integrity s!"line {lineNumber}: recorder_session_id is required")
      else
        (verifyHashes p payload lineNumber).map fun storedHash =>
          ⟨storedHash, p.expectedIndex + 1, Insert.insert sessionId p.sessionIds⟩
    | _ => .error (.integrity s!"line {lineNumber}: recorder_session_id is required")

/-- The loop over the lines. -/
def verifyLines (p : Progress) (lineNumber : ℕ) : List (List Byte) → Except VerifyError Progress
  | [] => .ok p
  | rawLine :: lines =>
    match readLine rawLine lineNumber with
    | .error e => .error e
    | .ok payload =>
      match verifyRecord p payload lineNumber with
      | .error e => .error e
      | .ok p => verifyLines p (lineNumber + 1) lines

/-- The lines of a binary file, each with its newline. -/
def splitLines : List Byte → List (List Byte)
  | [] => []
  | b :: rest =>
    if b = 0x0A then [b] :: splitLines rest
    else match splitLines rest with
    | [] => [[b]]
    | line :: lines => (b :: line) :: lines

/-- The result for an empty ledger. -/
def LedgerVerification.empty : LedgerVerification := ⟨0, genesisHash, []⟩

instance isTransPyStr : IsTrans PyStr (· ≤ ·) := inferInstance

instance antisymmPyStr : Std.Antisymm (α := PyStr) (· ≤ ·) := inferInstance

instance totalPyStr : Std.Total (α := PyStr) (· ≤ ·) := inferInstance

/-- `verify_jsonl_ledger` of the file at `path`. -/
def verifyJsonlLedger (path : String) (file : Option (List Byte)) (allowMissing : Bool) :
    Except VerifyError LedgerVerification :=
  match file with
  | none =>
    if allowMissing then .ok .empty
    else .error (.integrity s!"ledger does not exist: {path}")
  | some bytes =>
    if bytes.length = 0 then .ok .empty
    else if bytes.getLast? ≠ some 0x0A then
      .error (.integrity "ledger must end with a complete newline-terminated record")
    else
      (verifyLines .init 1 (splitLines bytes)).map fun p =>
        ⟨p.expectedIndex, p.expectedPreviousHash, p.sessionIds.sort (· ≤ ·)⟩

end MarketDataGateway.Recorder
