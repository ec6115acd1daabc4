import Mathlib.Data.List.Infix
import MarketDataGateway.Lib.Unicode

/-!
# What a log line keeps to itself

`_redact` goes through the payload of a log line. What stands under a sensitive key becomes
`"[REDACTED]"`, and every dict and every sequence is gone through again. The key is handed down one
level only, to the value that stands under it: the items of a sequence are looked at without a key.

`redact_alike` is about two payloads: where they differ under sensitive keys only, what is logged is
the same. `leafAt_redact` is about one: what has no sensitive key above it stays where it is.
-/

namespace MarketDataGateway.Logging

open Lib (CodePoint PyStr text)

/-! ## Values -/

/-- A value that has no parts. `other` is an object of another type, such as a number. -/
inductive Scalar (O : Type*) where
  | none
  | str (s : PyStr)
  | other (object : O)
  deriving DecidableEq, Repr

/-- The types whose values `_redact` goes through item by item. -/
inductive SequenceType where
  | list
  | tuple
  | set
  deriving DecidableEq, Repr

/-- What a payload is built of. The entries of a dict stand in the order in which they were put in,
the items of a set in the order in which it is gone through. -/
inductive Value (O : Type*) where
  | scalar (s : Scalar O)
  | dict (entries : List (PyStr × Value O))
  | sequence (type : SequenceType) (items : List (Value O))

variable {O : Type*}

/-! ## The code -/

/-- `str.lower`: `special` is what becomes of a character that is not of ASCII, between what stands
before it and what stands after it. -/
def lower (special : PyStr → CodePoint → PyStr → PyStr) (before : PyStr) : PyStr → PyStr
  | [] => []
  | c :: after =>
    (if c.val < 0x80 then [if 0x41 ≤ c.val ∧
    c.val ≤ 0x5A then Fin.ofNat 0x110000 (c.val + 0x20) else c]
      else special before c after) ++ lower special (before ++ [c]) after

/-- `_SENSITIVE_FRAGMENTS`. -/
def sensitiveFragments : List PyStr :=
  [text "authorization", text "token", text "secret", text "password",
    text "credential", text "api_key"]

variable (special : PyStr → CodePoint → PyStr → PyStr)

/-- A fragment is in the key, in small letters. -/
def isSensitive (key : PyStr) : Bool :=
  sensitiveFragments.any fun fragment => decide (fragment <:+: lower special [] key)

/-- What a sensitive value is replaced by. -/
def redacted : Value O := .scalar (.str (text "[REDACTED]"))

mutual

/-- `_redact`. -/
def redact (key : PyStr) : Value O → Value O
  | .scalar s => if isSensitive special key then redacted else .scalar s
  | .dict entries => if isSensitive special key then redacted else .dict (redactEntries entries)
  | .sequence _ items =>
    if isSensitive special key then redacted else .sequence .list (redactItems items)

/-- The comprehension over the entries of a dict: each value under its own key. -/
def redactEntries : List (PyStr × Value O) → List (PyStr × Value O)
  | [] => []
  | (k, v) :: rest => (k, redact k v) :: redactEntries rest

/-- The comprehension over the items of a sequence: each item without a key. -/
def redactItems : List (Value O) → List (Value O)
  | [] => []
  | item :: rest => redact [] item :: redactItems rest

end

/-- What the formatter reads of a log record. `exception` is the traceback where there is one. -/
structure LogRecord (O : Type*) where
  levelname : PyStr
  message : PyStr
  getattr : PyStr → Option (Value O)
  exception : Option PyStr

/-- The fields that are put into the payload where a record has them. -/
def fields : List PyStr :=
  [text "symbol", text "provider", text "client_id", text "tier", text "stream_id",
    text "retry_count", text "duration_ms"]

/-- A text, or `None` for the empty one. -/
def orNone (s : PyStr) : Value O := if s = [] then .scalar .none else .scalar (.str s)

/-- The value is `None`. -/
def Value.isNone : Value O → Bool
  | .scalar .none => true
  | _ => false

/-- The field of a record as an entry of the payload, if it has a value. -/
def fieldEntry (record : LogRecord O) (field : PyStr) : Option (PyStr × Value O) :=
  ((record.getattr field).filter fun value => !value.isNone).map fun value => (field, value)

/-- The payload of `JsonFormatter.format`. -/
def payload (timestamp correlationId connectionId : PyStr) (record : LogRecord O) :
    List (PyStr × Value O) :=
  [(text "timestamp", .scalar (.str timestamp)),
    (text "severity", .scalar (.str record.levelname)),
    (text "service", (record.getattr (text "service")).getD (.scalar (.str (text "gateway")))),
    (text "event", (record.getattr (text "event")).getD (.scalar (.str record.message))),
    (text "message", .scalar (.str record.message)),
    (text "correlation_id", orNone correlationId),
    (text "connection_id", orNone connectionId)] ++
  fields.filterMap (fieldEntry record) ++
  (record.exception.map fun exception => (text "exception", .scalar (.str exception))).toList

/-- `JsonFormatter.format`: `dumps` is `json.dumps` with its default and its separators. -/
def format (dumps : Value O → PyStr) (timestamp correlationId connectionId : PyStr)
    (record : LogRecord O) :
    PyStr :=
  dumps (redact special [] (.dict (payload timestamp correlationId connectionId record)))

/-! ## What stands under a key -/

variable {special} {key k : PyStr} {v v' : Value O} {record record' : LogRecord O}

/-- A value under a sensitive key is redacted. -/
theorem redact_of_isSensitive (h : isSensitive special key = true) :
    redact special key v = redacted := by
  cases v with
  | scalar s => exact if_pos h
  | dict entries => exact if_pos h
  | sequence type items => exact if_pos h

/-- A scalar under another key stands. -/
theorem redact_scalar (h : isSensitive special key = false) (s : Scalar O) :
    redact special key (.scalar s) = .scalar s :=
  if_neg (Bool.eq_false_iff.1 h)

/-- The entries of a dictionary under another key are redacted one by one. -/
theorem redact_dict (h : isSensitive special key = false) (entries : List (PyStr × Value O)) :
    redact special key (.dict entries) = .dict (redactEntries special entries) :=
  if_neg (Bool.eq_false_iff.1 h)

/-- The items of a sequence under another key are redacted one by one. -/
theorem redact_sequence (h : isSensitive special key = false) (type : SequenceType)
    (items : List (Value O)) :
    redact special key (.sequence type items) = .sequence .list (redactItems special items) :=
  if_neg (Bool.eq_false_iff.1 h)

/-- What has no key is not sensitive. -/
theorem isSensitive_nil : isSensitive special [] = false := rfl

/-! ## Two payloads -/

variable (special)

mutual

/-- Two values of one shape that differ under sensitive keys only. -/
inductive Alike : Value O → Value O → Prop
  | scalar (s : Scalar O) : Alike (.scalar s) (.scalar s)
  | dict {entries entries' : List (PyStr × Value O)} (h : AlikeEntries entries entries') :
      Alike (.dict entries) (.dict entries')
  | sequence (type : SequenceType) {items items' : List (Value O)} (h : AlikeItems items items') :
      Alike (.sequence type items) (.sequence type items')

/-- The same of the entries of two dicts: the values under a sensitive key may be any. -/
inductive AlikeEntries : List (PyStr × Value O) → List (PyStr × Value O) → Prop
  | nil : AlikeEntries [] []
  | sensitive {k : PyStr} {v v' : Value O} {rest rest' : List (PyStr × Value O)}
      (hk : isSensitive special k = true) (h : AlikeEntries rest rest') :
      AlikeEntries ((k, v) :: rest) ((k, v') :: rest')
  | cons {k : PyStr} {v v' : Value O} {rest rest' : List (PyStr × Value O)} (hv : Alike v v')
      (h : AlikeEntries rest rest') : AlikeEntries ((k, v) :: rest) ((k, v') :: rest')

/-- The same of the items of two sequences. -/
inductive AlikeItems : List (Value O) → List (Value O) → Prop
  | nil : AlikeItems [] []
  | cons {v v' : Value O} {rest rest' : List (Value O)} (hv : Alike v v')
      (h : AlikeItems rest rest') :
      AlikeItems (v :: rest) (v' :: rest')

end

variable {special}

mutual

/-- Values that differ under sensitive keys only become the same, under whichever key they stand. -/
theorem redact_eq_of_alike (key : PyStr) {v v' : Value O} (h : Alike special v v') :
    redact special key v = redact special key v' := by
  cases h with
  | scalar s => rfl
  | dict h =>
    unfold redact
    rw [redactEntries_eq_of_alike h]
  | sequence type h =>
    unfold redact
    rw [redactItems_eq_of_alike h]

/-- Entries that differ under sensitive keys only are redacted alike. -/
theorem redactEntries_eq_of_alike {entries entries' : List (PyStr × Value O)}
    (h : AlikeEntries special entries entries') :
    redactEntries special entries = redactEntries special entries' := by
  cases h with
  | nil => rfl
  | sensitive hk h =>
    unfold redactEntries
    rw [redact_of_isSensitive hk, redact_of_isSensitive hk, redactEntries_eq_of_alike h]
  | @cons k v v' rest rest' hv h =>
    unfold redactEntries
    rw [redact_eq_of_alike k hv, redactEntries_eq_of_alike h]

/-- Items that differ under sensitive keys only are redacted alike. -/
theorem redactItems_eq_of_alike {items items' : List (Value O)}
    (h : AlikeItems special items items') :
    redactItems special items = redactItems special items' := by
  cases h with
  | nil => rfl
  | cons hv h =>
    unfold redactItems
    rw [redact_eq_of_alike [] hv, redactItems_eq_of_alike h]

end

/-- Entries after each other are alike if each list is. -/
theorem AlikeEntries.append {entries entries' more more' : List (PyStr × Value O)}
    (h : AlikeEntries special entries entries') (hmore : AlikeEntries special more more') :
    AlikeEntries special (entries ++ more) (entries' ++ more') := by
  induction entries generalizing entries' with
  | nil =>
    cases h
    exact hmore
  | cons entry rest ih =>
    cases h with
    | sensitive hk h => exact .sensitive hk (ih h)
    | cons hv h => exact .cons hv (ih h)

/-- A value is `None` if one like it is. -/
theorem Alike.isNone (h : Alike special v v') : v.isNone = v'.isNone := by
  cases h <;> rfl

/-- Two log records that differ under sensitive keys of their attributes only. -/
structure AlikeRecords (special : PyStr → CodePoint → PyStr → PyStr)
    (record record' : LogRecord O) : Prop where
  levelname : record.levelname = record'.levelname
  message : record.message = record'.message
  exception : record.exception = record'.exception
  getattr : ∀ name, Option.Rel (Alike special) (record.getattr name) (record'.getattr name)

/-- An attribute is like that of a record like it. -/
theorem AlikeRecords.getD (h : AlikeRecords special record record') (name : PyStr) (s : Scalar O) :
    Alike special ((record.getattr name).getD (.scalar s))
    ((record'.getattr name).getD (.scalar s)) := by
  have hattr := h.getattr name
  generalize record.getattr name = value at hattr
  generalize record'.getattr name = value' at hattr
  cases hattr with
  | none => exact .scalar s
  | some hv => exact hv

/-- The fields of a record are like those of a record like it. -/
theorem AlikeRecords.filterMap (h : AlikeRecords special record record') (names : List PyStr) :
    AlikeEntries special (names.filterMap (fieldEntry record))
    (names.filterMap (fieldEntry record')) := by
  induction names with
  | nil => exact .nil
  | cons name names ih =>
    have hattr := h.getattr name
    rw [List.filterMap_cons, List.filterMap_cons, fieldEntry, fieldEntry]
    generalize record.getattr name = value at hattr
    generalize record'.getattr name = value' at hattr
    cases hattr with
    | none => exact ih
    | @some v v' hv =>
      rw [Option.filter_some, Option.filter_some, hv.isNone]
      cases v'.isNone with
      | true => exact ih
      | false => exact .cons hv ih

/-- Records that differ under sensitive keys only make one line. -/
theorem format_eq_of_alike (dumps : Value O → PyStr) (timestamp correlationId connectionId : PyStr)
    (h : AlikeRecords special record record') :
    format special dumps timestamp correlationId connectionId record =
      format special dumps timestamp correlationId connectionId record' := by
  have hpayload : AlikeEntries special (payload timestamp correlationId connectionId record)
      (payload timestamp correlationId connectionId record') := by
    unfold payload
    rw [h.levelname, h.message, h.exception]
    refine .append (.append ?_ (h.filterMap fields)) ?_
    · have horNone (s : PyStr) : Alike special (orNone s : Value O) (orNone s) := by
        unfold orNone
        split_ifs <;> exact .scalar _
      have hservice := h.getD (text "service") (.str (text "gateway"))
      have hevent := h.getD (text "event") (.str record'.message)
      exact .cons (.scalar _) (.cons (.scalar _) (.cons hservice (.cons hevent (.cons (.scalar _)
        (.cons (horNone _) (.cons (horNone _) .nil))))))
    · cases record'.exception with
      | none => exact .nil
      | some exception => exact .cons (.scalar _) .nil
  unfold format
  rw [redact_eq_of_alike [] (.dict hpayload)]

/-! ## One payload -/

/-- A step from a value to a part of it. -/
inductive Step where
  | key (k : PyStr)
  | index (i : ℕ)

/-- The key that a part is looked at with. -/
def Step.handedDown : Step → PyStr
  | .key k => k
  | .index _ => []

/-- The part of a value that a step leads to. -/
def child : Value O → Step → Option (Value O)
  | .dict entries, .key k => entries.lookup k
  | .sequence _ items, .index i => items[i]?
  | _, _ => none

/-- The part of a value that a path leads to. -/
def valueAt : List Step → Value O → Option (Value O)
  | [], v => some v
  | step :: path, v => (child v step).bind (valueAt path)

/-- The redacted value of a key is the value of the key, redacted. -/
theorem lookup_redactEntries (entries : List (PyStr × Value O)) (k : PyStr) :
    (redactEntries special entries).lookup k = (entries.lookup k).map (redact special k) := by
  induction entries with
  | nil => rfl
  | cons entry rest ih =>
    obtain ⟨k', v⟩ := entry
    unfold redactEntries
    rw [List.lookup_cons, List.lookup_cons, ih]
    by_cases hk : k = k'
    · rw [hk, beq_self_eq_true, Option.map_some]
    · rw [beq_false_of_ne hk]

/-- The redacted item at a place is the item at the place, redacted. -/
theorem getElem?_redactItems (items : List (Value O)) (i : ℕ) :
    (redactItems special items)[i]? = items[i]?.map (redact special []) := by
  induction items generalizing i with
  | nil => rfl
  | cons item rest ih =>
    unfold redactItems
    cases i with
    | zero => rfl
    | succ i => exact ih i

/-- A part of what a value becomes is what the part becomes, under the key that is handed down to
it. -/
theorem child_redact (h : isSensitive special key = false) (step : Step) :
    child (redact special key v) step = (child v step).map (redact special step.handedDown) := by
  cases v with
  | scalar s =>
    rw [redact_scalar h]
    rfl
  | dict entries =>
    rw [redact_dict h]
    cases step with
    | key k => exact lookup_redactEntries entries k
    | index i => rfl
  | sequence type items =>
    rw [redact_sequence h]
    cases step with
    | key k => rfl
    | index i => exact getElem?_redactItems items i

/-- The same for a path that goes through no sensitive key. -/
theorem valueAt_redact {path : List Step} (h : isSensitive special key = false)
    (hpath : ∀ step ∈ path, isSensitive special step.handedDown = false) :
    valueAt path (redact special key v) =
      (valueAt path v).map (redact special (path.foldl (fun _ step => step.handedDown) key)) := by
  induction path generalizing key v with
  | nil => rfl
  | cons step path ih =>
    have hstep := hpath step List.mem_cons_self
    have hrest : ∀ step ∈ path, isSensitive special step.handedDown = false :=
      fun step hmem => hpath step (List.mem_cons_of_mem _ hmem)
    unfold valueAt
    rw [child_redact h, List.foldl_cons]
    cases child v step with
    | none => rfl
    | some part => exact ih hstep hrest

/-- The key that the part at a path is looked at with is not sensitive if none on the path is. -/
theorem isSensitive_foldl {path : List Step} (h : isSensitive special key = false)
    (hpath : ∀ step ∈ path, isSensitive special step.handedDown = false) :
    isSensitive special (path.foldl (fun _ step => step.handedDown) key) = false := by
  induction path generalizing key with
  | nil => exact h
  | cons step path ih =>
    exact ih (hpath step List.mem_cons_self) fun step' hmem =>
      hpath step' (List.mem_cons_of_mem step hmem)

/-- A path through no sensitive key leads to keys that are not sensitive only. -/
theorem handedDown_of_keys {path : List Step}
    (h : ∀ k, .key k ∈ path → isSensitive special k = false) (step : Step) (hstep : step ∈ path) :
    isSensitive special step.handedDown = false := by
  cases step with
  | key k => exact h k hstep
  | index i => exact isSensitive_nil

/-- Payloads that differ under sensitive keys only are logged as the same, and a scalar that stands
under none is logged where it stands. -/
theorem redact_complete (special : PyStr → CodePoint → PyStr → PyStr) :
    (∀ v v' : Value O, Alike special v v' → redact special [] v = redact special [] v') ∧
      ∀ (v : Value O) (path : List Step) (s : Scalar O), valueAt path v = some (.scalar s) →
        (∀ k, .key k ∈ path → isSensitive special k = false) →
        valueAt path (redact special [] v) = some (.scalar s) := by
  refine ⟨fun v v' h => redact_eq_of_alike [] h, fun v path s hat hkeys => ?_⟩
  have hpath := handedDown_of_keys hkeys
  rw [valueAt_redact isSensitive_nil hpath, hat, Option.map_some,
    redact_scalar (isSensitive_foldl isSensitive_nil hpath)]

/-- A password within a list within a dict, and the symbol beside it. -/
theorem redact_complete_sample :
    redact (fun _ c _ => [c]) [] (.dict [(text "items", .sequence .tuple
        [.dict [(text "DB_Password", .scalar (.other 1)),
        (text "symbol", .scalar (.str (text "BTC")))]])]) =
      redact (fun _ c _ => [c]) [] (.dict [(text "items", .sequence .tuple
        [.dict [(text "DB_Password", .sequence .list [.scalar (.other 2)]),
          (text "symbol", .scalar (.str (text "BTC")))]])]) ∧
    valueAt [.key (text "items"), .index 0, .key (text "symbol")]
        (redact (fun _ c _ => [c]) [] (.dict [(text "items", .sequence .tuple
          [.dict [(text "DB_Password", .scalar (.other 1)),
          (text "symbol", .scalar (.str (text "BTC")))]])])) =
      some (.scalar (.str (text "BTC"))) := by
  refine ⟨(redact_complete fun _ c _ => [c]).1 _ _ ?_,
    (redact_complete fun _ c _ => [c]).2 _ _ _ ?_ ?_⟩
  · have hk : isSensitive (fun _ c _ => [c]) (text "DB_Password") = true := by decide +kernel
    exact .dict (.cons (.sequence _
      (.cons (.dict (.sensitive hk (.cons (.scalar _) .nil))) .nil)) .nil)
  · rfl
  · intro k hk
    simp only [List.mem_cons, Step.key.injEq, reduceCtorEq, List.not_mem_nil,
      or_false, false_or] at hk
    obtain rfl | rfl := hk
    · decide +kernel
    · decide +kernel

end MarketDataGateway.Logging
