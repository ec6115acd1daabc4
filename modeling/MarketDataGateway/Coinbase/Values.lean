import MarketDataGateway.Lib.Loops
import MarketDataGateway.Models.Sums

/-!
# Values of Coinbase messages

The parsing helpers of `providers/coinbase.py`: `_mapping_sequence`, `_symbol`, `_timestamp`, and
the decimal helpers, over the values that `json.loads` makes. `Fault` is what they raise, and
`Number` what `Decimal` makes of a text.

The reader of the provider catches `TypeError` and `ValueError`. `Escapes` is that a computation
raises something else, and each helper has a lemma that says for which values it does: when a value
nests too deep for `str`, and when a decimal that is compared with zero is a NaN.
-/

namespace MarketDataGateway.Coinbase

open Lib Models

/-! ## Faults -/

/-- What the modelled code raises. -/
inductive Fault
  /-- `CoinbaseProtocolError`, a `ValueError`. -/
  | protocolError (message : String)
  /-- Another `ValueError`: of `json.loads`, of `str`, of an encoder, or a `ValidationError`. -/
  | valueError
  /-- `decimal.InvalidOperation`. -/
  | invalidOperation
  /-- `decimal.Overflow`. -/
  | overflow
  /-- `RecursionError`. -/
  | recursionError
  deriving DecidableEq

/-- `isinstance(exc, (TypeError, ValueError))`. -/
def Fault.isCaught : Fault → Bool
  | .protocolError _ => true
  | .valueError => true
  | _ => false

/-- `raise` for `None`. -/
def orRaise {α : Type} (f : Fault) : Option α → Except Fault α
  | some a => .ok a
  | none => .error f

/-- `except … as exc: raise CoinbaseProtocolError(message) from exc`, which catches the faults of
`p`. -/
def rejecting {α : Type} (p : Fault → Bool) (message : String) : Except Fault α → Except Fault α
  | .error f => .error (if p f then .protocolError message else f)
  | .ok a => .ok a

/-- The computation raises neither a `TypeError` nor a `ValueError`, but something else. -/
def Escapes {α : Type} (x : Except Fault α) : Prop := ∃ f, x = .error f ∧ f.isCaught = false

section Escapes

variable {α β : Type} {f : Fault} {a : α} {x : Except Fault α} {g : α → Except Fault β}

/-- What is given does not escape. -/
@[simp] theorem not_escapes_ok : ¬ Escapes (.ok a : Except Fault α) := by
  rintro ⟨f, h, -⟩
  cases h

/-- A fault escapes if it is not caught. -/
@[simp] theorem escapes_error : Escapes (.error f : Except Fault α) ↔ f.isCaught = false := by
  constructor
  · rintro ⟨f', h, hf⟩
    rwa [Except.error.inj h]
  · exact fun h => ⟨f, rfl, h⟩

/-- Steps after each other escape if the first one does, or the second one after it. -/
theorem escapes_bind : Escapes (x >>= g) ↔ Escapes x ∨ ∃ a, x = .ok a ∧ Escapes (g a) := by
  unfold Escapes
  simp only [bind_eq_error]
  constructor
  · rintro ⟨f, h | ⟨a, ha, h⟩, hf⟩
    · exact Or.inl ⟨f, h, hf⟩
    · exact Or.inr ⟨a, ha, f, h, hf⟩
  · rintro (⟨f, h, hf⟩ | ⟨a, ha, f, h, hf⟩)
    · exact ⟨f, Or.inl h, hf⟩
    · exact ⟨f, Or.inr ⟨a, ha, h⟩, hf⟩

/-- A fault that is rejected does not escape, and the others do as before. -/
theorem escapes_rejecting {p : Fault → Bool} {message : String} : Escapes (rejecting p message x) ↔
    ∃ f, x = .error f ∧ p f = false ∧ f.isCaught = false := by
  cases x with
  | ok a => simp [rejecting]
  | error f =>
    rw [rejecting, escapes_error]
    constructor
    · intro h
      split_ifs at h with hp
      · cases h
      · exact ⟨f, rfl, by simpa using hp, h⟩
    · rintro ⟨f', hf, hp, hcaught⟩
      rw [Except.error.inj hf, hp]
      exact hcaught

/-- What is given passes a rejection. -/
theorem rejecting_eq_ok {p : Fault → Bool} {message : String} :
    rejecting p message x = .ok a ↔ x = .ok a := by
  cases x <;> simp [rejecting]

/-- An option raises if there is nothing. -/
theorem orRaise_eq_ok {o : Option α} : orRaise f o = .ok a ↔ o = some a := by
  cases o <;> simp [orRaise]

end Escapes

/-! ## Text -/

/-- Python's functions, as far as they are not defined here. -/
structure Python where
  /-- `str.upper` of a character that is not of ASCII. -/
  special : CodePoint → PyStr
  /-- `unicodedata.decimal` of a character that is not of ASCII. -/
  digit : CodePoint → Option (Fin 10)
  /-- `str` of a `list` or a `dict`; `None` for a `RecursionError`. -/
  repr : Json → Option PyStr
  /-- The nesting of the text exceeds the recursion limit of `json.loads`. -/
  exceedsDepth : PyStr → Bool
  /-- `datetime.fromisoformat`; `None` for a `ValueError`. -/
  fromisoformat : PyStr → Option Datetime
  /-- `uuid5(NAMESPACE_URL, name)`, of the octets of the name. -/
  uuid5 : List Byte → EventId

/-- `str` of a `float`. -/
def floatText : Binary64 → PyStr
  | .finite negative bits => (Binary64.literal negative bits.val).toText
  | .infinite false => text "inf"
  | .infinite true => text "-inf"
  | .nan => text "nan"

/-- `str(value)`. -/
def Python.str (py : Python) : Json → Except Fault PyStr
  | .null => .ok (text "None")
  | .bool true => .ok (text "True")
  | .bool false => .ok (text "False")
  | .int n =>
    if maxStrDigits < (Nat.toDigits 10 n.natAbs).length then .error .valueError
    else .ok (intLiteral n).toText
  | .float x => .ok (floatText x)
  | .str s => .ok s
  | v =>
    match py.repr v with
    | some s => .ok s
    | none => .error .recursionError

/-- A JSON object, by its entries. -/
abbrev Mapping := List (PyStr × Json)

/-- `mapping.get(name)`. -/
def get (mapping : Mapping) (name : String) : Json := (getKey (text name) mapping).getD .null

/-- `mapping.get(name, "")`. -/
def getOrEmpty (mapping : Mapping) (name : String) : Json :=
  (getKey (text name) mapping).getD (.str [])

/-- `_mapping_sequence`. -/
def mappingSequence (value : Json) (field : String) : Except Fault (List Mapping) :=
  match value with
  | .list items => items.mapM fun
    | .dict entries => .ok entries
    | _ => .error (.protocolError s!"{field} items must be objects")
  | _ => .error (.protocolError s!"{field} must be an array")

/-- A sequence of mappings is a list of them. -/
theorem mappingSequence_eq_ok {value : Json} {field : String} {items : List Mapping} :
    mappingSequence value field = .ok items ↔ value = .list (items.map .dict) := by
  unfold mappingSequence
  split
  · rename_i values
    rw [mapM_eq_ok, Json.list.injEq]
    induction values generalizing items with
    | nil => cases items <;> simp
    | cons v values ih =>
      cases items with
      | nil => simp
      | cons entries items =>
        rw [List.forall₂_cons, List.map_cons, List.cons.injEq, ih]
        refine and_congr_left fun _ => ?_
        split <;> simp_all
  · rename_i hlist
    exact iff_of_false nofun (hlist _)

/-- `value or ""`. -/
def orEmpty (value : Json) : Json := if value.truthy then value else .str []

/-- `_symbol`. -/
def symbolOf (py : Python) (value : Json) : Except Fault PyStr := do
  let symbol := upper py.special (strip (← py.str (orEmpty value)))
  if symbol = [] then .error (.protocolError "product_id must not be empty")
  else if symbol.any fun c => !isSymbolChar c then
    .error (.protocolError "product_id contains unsupported characters")
  else .ok symbol

/-- A symbol is not empty and has the characters of a symbol only. -/
theorem symbolOf_eq_ok {py : Python} {value : Json} {symbol : PyStr}
    (h : symbolOf py value = .ok symbol) :
    symbol ≠ [] ∧ symbol.all isSymbolChar := by
  obtain ⟨s, -, h⟩ := bind_eq_ok.1 h
  dsimp only at h
  split_ifs at h with hnil hchars
  rw [← Except.ok.inj h]
  refine ⟨hnil, List.all_eq_true.2 fun c hc => ?_⟩
  by_contra hchar
  exact hchars (List.any_eq_true.2 ⟨c, hc, by simpa using hchar⟩)

/-- A symbol is its own trimmed capitals. -/
theorem upper_strip_symbol (special : CodePoint → PyStr) {symbol : PyStr}
    (h : symbol.all isSymbolChar) : upper special (strip symbol) = symbol :=
  Json.str.inj (normalize_eq special h)

/-! ## Times -/

/-- `s.replace("Z", "+00:00")`. -/
def replaceZ (s : PyStr) : PyStr := s.flatMap fun c => if c = 0x5A then text "+00:00" else [c]

/-- `_timestamp`. -/
def timestamp (py : Python) (value : Json) (field : String) : Except Fault AwareDatetime :=
  match value with
  | .null => .error (.protocolError s!"{field} is required")
  | value => do
    let parsed ← rejecting Fault.isCaught s!"{field} must be ISO-8601" do
      orRaise .valueError (py.fromisoformat (replaceZ (← py.str value)))
    if h : parsed.utcoffset.isSome then .ok ⟨parsed, h⟩
    else .error (.protocolError s!"{field} must include timezone information")

/-! ## Decimals -/

/-- A `Decimal`. -/
inductive Number
  /-- A finite decimal. -/
  | finite (d : PyDecimal)
  /-- An infinity. -/
  | infinite (negative : Bool)
  /-- A NaN, signalling or not. -/
  | nan
  deriving DecidableEq

/-- The greatest adjusted exponent of a `Decimal`. -/
def maxEmax : ℤ := 999999999999999999

/-- The least exponent of a `Decimal`. -/
def minEtiny : ℤ := -1999999999999999997

/-- The text that `Decimal` reads, without whitespace at the ends and underscores, its digits those
of ASCII. -/
def Python.ascii (py : Python) (s : PyStr) : Option PyStr :=
  ((strip s).filter (· ≠ 0x5F)).mapM fun c =>
    if c.val < 0x80 then if c = 0 then none else some c
    else if c.isSpace then some 0x20
    else (py.digit c).map fun d => codePoint (0x30 + d.val)

/-- `str.lower` of ASCII. -/
def lowerAscii (s : PyStr) : PyStr :=
  s.map fun c => if 0x41 ≤ c.val ∧ c.val ≤ 0x5A then codePoint (c.val + 0x20) else c

/-- A numeric string in ASCII. -/
def parseNumber (s : PyStr) : Option Number :=
  let name := lowerAscii (if s.head? = some 0x2B ∨ s.head? = some 0x2D then s.tail else s)
  if name = text "inf" ∨ name = text "infinity" then some (.infinite (s.head? = some 0x2D))
  else if (text "nan" <+: name ∧ (name.drop 3).all CodePoint.isDigit) ∨
      (text "snan" <+: name ∧ (name.drop 4).all CodePoint.isDigit) then some .nan
  else
    (decimalLiteral s).bind fun l =>
      if maxEmax < l.power + PyDecimal.digits l.coefficient - 1 ∨ l.power < minEtiny then none
      else some (.finite ⟨l.negative, l.coefficient, l.power⟩)

/-- `Decimal(s)`; `None` for an `InvalidOperation`. -/
def Python.number (py : Python) (s : PyStr) : Option Number := (py.ascii s).bind parseNumber

/-- `_decimal`. -/
def decimal (py : Python) (value : Json) (field : String) : Except Fault Number :=
  rejecting (fun f => f.isCaught || f = .invalidOperation) s!"{field} must be numeric" do
    orRaise .invalidOperation (py.number (← py.str value))

/-- A value, or infinity. -/
inductive Extended (α : Type)
  /-- The value. -/
  | finite (x : α)
  /-- Infinity. -/
  | infinite
  deriving DecidableEq

/-- `_positive_decimal`. -/
def positiveDecimal (py : Python) (value : Json) (field : String) :
    Except Fault (Extended PositiveDecimal) := do
  match ← decimal py value field with
  | .nan => .error .invalidOperation
  | .infinite false => .ok .infinite
  | .infinite true => .error (.protocolError s!"{field} must be greater than zero")
  | .finite d =>
    if h : 0 < d.signed then .ok (.finite ⟨d, PyDecimal.value_pos.2 h⟩)
    else .error (.protocolError s!"{field} must be greater than zero")

/-- `_non_negative_decimal`. -/
def nonNegativeDecimal (py : Python) (value : Json) (field : String) :
    Except Fault (Extended NonNegativeDecimal) := do
  match ← decimal py value field with
  | .nan => .error .invalidOperation
  | .infinite false => .ok .infinite
  | .infinite true => .error (.protocolError s!"{field} must not be negative")
  | .finite d =>
    if h : 0 ≤ d.signed then .ok (.finite ⟨d, PyDecimal.value_nonneg.2 h⟩)
    else .error (.protocolError s!"{field} must not be negative")

/-- `None` for `None` and the empty string, and else what `read` makes of the value. -/
def optional {α : Type} (read : Json → Except Fault α) : Json → Except Fault (Option α)
  | .null => .ok none
  | .str [] => .ok none
  | value => (read value).map some

/-- `_optional_positive_decimal`. -/
def optionalPositiveDecimal (py : Python) (value : Json) (field : String) :
    Except Fault (Option (Extended PositiveDecimal)) :=
  optional (fun v => positiveDecimal py v field) value

/-- `_optional_non_negative_decimal`. -/
def optionalNonNegativeDecimal (py : Python) (value : Json) (field : String) :
    Except Fault (Option (Extended NonNegativeDecimal)) :=
  optional (fun v => nonNegativeDecimal py v field) value


/-! ## What escapes -/

section Escapes

variable {py : Python} {value : Json} {field : String}

/-- The value nests too deep for `str`. -/
def TooDeep (py : Python) (value : Json) : Prop := py.str value = .error .recursionError

/-- `Decimal` makes a NaN of the value. -/
def IsNaN (py : Python) (value : Json) : Prop := ∃ s, py.str value = .ok s ∧ py.number s = some .nan

/-- A value is not spelled if it has too many digits or nests too deep. -/
theorem str_eq_error {f : Fault} (h : py.str value = .error f) :
    f = .valueError ∨ f = .recursionError := by
  unfold Python.str at h
  split at h
  any_goals cases h
  · split_ifs at h with hdigits
    exact Or.inl (Except.error.inj h).symm
  · split at h
    · cases h
    · exact Or.inr (Except.error.inj h).symm

/-- The spelling of a value escapes if it nests too deep. -/
theorem escapes_str : Escapes (py.str value) ↔ TooDeep py value := by
  constructor
  · rintro ⟨f, h, hf⟩
    rcases str_eq_error h with rfl | rfl
    · cases hf
    · exact h
  · exact fun h => ⟨.recursionError, h, rfl⟩

/-- If the faults of reading a text are caught, only a value that nests too deep escapes. -/
theorem escapes_reading {α : Type} {p : Fault → Bool} {message : String} {f : Fault}
    {read : PyStr → Option α} (hdeep : p .recursionError = false)
    (hread : p f = true) :
    Escapes (rejecting p message (py.str value >>= fun s => orRaise f (read s))) ↔
    TooDeep py value := by
  rw [escapes_rejecting]
  constructor
  · rintro ⟨f', h, hp, hcaught⟩
    rcases bind_eq_error.1 h with h | ⟨s, -, h⟩
    · exact escapes_str.1 ⟨f', h, hcaught⟩
    · cases hs : read s with
      | some a => rw [hs] at h; cases h
      | none =>
        rw [hs] at h
        rw [← Except.error.inj h, hread] at hp
        cases hp
  · exact fun h => ⟨.recursionError, bind_eq_error.2 (Or.inl h), hdeep, rfl⟩

/-- A sequence of mappings does not escape. -/
theorem not_escapes_mappingSequence : ¬ Escapes (mappingSequence value field) := by
  rintro ⟨f, h, hf⟩
  unfold mappingSequence at h
  split at h
  · -- The items raise nothing else either.
    obtain ⟨pre, item, post, entries, -, -, hitem⟩ := mapM_eq_error.1 h
    split at hitem
    · cases hitem
    · rw [← Except.error.inj hitem] at hf
      cases hf
  · rw [← Except.error.inj h] at hf
    cases hf

/-- A symbol escapes if its value nests too deep. -/
theorem escapes_symbolOf : Escapes (symbolOf py value) ↔ TooDeep py (orEmpty value) := by
  rw [symbolOf, escapes_bind, escapes_str, or_iff_left]
  rintro ⟨s, -, h⟩
  dsimp only at h
  split_ifs at h <;> simp [Fault.isCaught] at h

/-- A time escapes if its value nests too deep. -/
theorem escapes_timestamp : Escapes (timestamp py value field) ↔ TooDeep py value := by
  unfold timestamp
  split
  · rw [escapes_error]
    constructor <;> intro h <;> cases h
  · rw [escapes_bind, escapes_reading rfl rfl, or_iff_left]
    rintro ⟨parsed, -, h⟩
    split_ifs at h <;> simp [Fault.isCaught] at h

/-- A decimal escapes if its value nests too deep. -/
theorem escapes_decimal : Escapes (decimal py value field) ↔ TooDeep py value :=
  escapes_reading rfl rfl

/-- A decimal that is not a number is what Python takes for one. -/
theorem decimal_eq_nan : decimal py value field = .ok .nan ↔ IsNaN py value := by
  rw [decimal, rejecting_eq_ok, bind_eq_ok]
  simp only [orRaise_eq_ok]
  rfl

/-- A positive decimal escapes if its value nests too deep or is not a number. -/
theorem escapes_positiveDecimal :
    Escapes (positiveDecimal py value field) ↔ TooDeep py value ∨ IsNaN py value := by
  rw [positiveDecimal, escapes_bind, escapes_decimal, ← decimal_eq_nan]
  refine or_congr_right ⟨?_, fun h => ⟨.nan, h, escapes_error.2 rfl⟩⟩
  rintro ⟨n, hn, h⟩
  split at h
  · exact hn
  any_goals simp [Fault.isCaught] at h
  split_ifs at h <;> simp [Fault.isCaught] at h

/-- A non-negative decimal escapes if its value nests too deep or is not a number. -/
theorem escapes_nonNegativeDecimal :
    Escapes (nonNegativeDecimal py value field) ↔ TooDeep py value ∨ IsNaN py value := by
  rw [nonNegativeDecimal, escapes_bind, escapes_decimal, ← decimal_eq_nan]
  refine or_congr_right ⟨?_, fun h => ⟨.nan, h, escapes_error.2 rfl⟩⟩
  rintro ⟨n, hn, h⟩
  split at h
  · exact hn
  any_goals simp [Fault.isCaught] at h
  split_ifs at h <;> simp [Fault.isCaught] at h

/-- A value that stands for no number is no NaN, and does not nest. -/
theorem escapes_optional {α : Type} {read : Json → Except Fault α}
    (h : ∀ v, Escapes (read v) ↔ TooDeep py v ∨ IsNaN py v) :
    Escapes (optional read value) ↔ TooDeep py value ∨ IsNaN py value := by
  have hnone (v : Json) (s : PyStr) (hs : py.str v = .ok s) (hn : py.number s ≠ some .nan) :
      ¬ (TooDeep py v ∨ IsNaN py v) := by
    rintro (hdeep | ⟨s', hs', hnan⟩)
    · cases hs.symm.trans hdeep
    · rw [Except.ok.inj (hs.symm.trans hs')] at hn
      exact hn hnan
  have hnull : py.number (text "None") = none := rfl
  have hempty : py.number [] = none := rfl
  unfold optional
  split
  · exact iff_of_false not_escapes_ok (hnone _ _ rfl (by simp [hnull]))
  · exact iff_of_false not_escapes_ok (hnone _ _ rfl (by simp [hempty]))
  · rw [← h]
    cases read value <;> simp [Except.map]

end Escapes

end MarketDataGateway.Coinbase
