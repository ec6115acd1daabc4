import MarketDataGateway.Lib.Unicode
import Mathlib.Data.List.Sort
import Mathlib.Data.Rat.Defs
import Mathlib.Data.List.DropRight
import Mathlib.Data.List.Lex

/-!
# Quotes and sources in the browser

The data of the reference client: `NormalizedQuote` of `market-data/types.ts`, and the points, the
status, and `normalizeSymbols` of `market-data/source.ts`.

A string is the list of its UTF-16 code units. What depends on the tables of Unicode and of the
locale is a `Runtime`, with what the language promises of it. Numbers that are prices and volumes
are rationals, and the others are integers.
-/

namespace MarketDataGateway.MarketData

/-- A code unit of UTF-16. -/
abbrev CodeUnit := Fin 0x10000

instance neZeroCodeUnit : @NeZero ℕ Zero.ofOfNat0 0x10000 := ⟨by decide⟩

/-- A JavaScript string. -/
abbrev JsString := List CodeUnit

instance lawfulBEqJsString : LawfulBEq JsString := inferInstance

/-- The code units of a code point. -/
def codeUnits (c : Lib.CodePoint) : JsString :=
  if c.val < 0x10000 then [Fin.ofNat 0x10000 c.val]
  else [Fin.ofNat 0x10000 (0xD800 + (c.val - 0x10000) / 0x400),
    Fin.ofNat 0x10000 (0xDC00 + (c.val - 0x10000) % 0x400)]

/-- The string of a text. -/
def utf16 (s : Lib.PyStr) : JsString := s.flatMap codeUnits

/-- A string literal. -/
def js (s : String) : JsString := utf16 (Lib.text s)

/-- The code unit is white space or the end of a line, for `trim`. -/
def CodeUnit.isSpace (c : CodeUnit) : Bool :=
  (0x09 ≤ c.val && c.val ≤ 0x0D) || c.val == 0x20 || c.val == 0xA0 || c.val == 0x1680 ||
    (0x2000 ≤ c.val && c.val ≤ 0x200A) || c.val == 0x2028 || c.val == 0x2029 || c.val == 0x202F ||
    c.val == 0x205F || c.val == 0x3000 || c.val == 0xFEFF

/-- `trim`. -/
def trim (s : JsString) : JsString :=
  (s.dropWhile CodeUnit.isSpace).rdropWhile CodeUnit.isSpace

/-- The capital of a letter of ASCII. -/
def asciiUpper (c : CodeUnit) : CodeUnit :=
  if 0x61 ≤ c.val ∧ c.val ≤ 0x7A then Fin.ofNat 0x10000 (c.val - 0x20) else c

/-- What depends on tables: `toUpperCase`, and the order of the locale. -/
structure Runtime where
  /-- `toUpperCase`. -/
  toUpperCase : JsString → JsString
  /-- `left.localeCompare(right)`. -/
  localeCompare : JsString → JsString → ℤ
  toUpperCase_ascii : ∀ s, (∀ c ∈ s, c.val < 0x80) → toUpperCase s = s.map asciiUpper
  /-- The order is total. -/
  localeCompare_total : ∀ a b, localeCompare a b ≤ 0 ∨ localeCompare b a ≤ 0
  /-- The order is transitive. -/
  localeCompare_trans : ∀ a b c, localeCompare a b ≤ 0 → localeCompare b c ≤ 0 →
    localeCompare a c ≤ 0
  /-- Capitals are their own capitals, and no character at an end becomes white space. -/
  toUpperCase_trim : ∀ s, toUpperCase (trim (toUpperCase (trim s))) = toUpperCase (trim s)

/-- `symbol.trim().toUpperCase()`. -/
def Runtime.normalize (rt : Runtime) (symbol : JsString) : JsString := rt.toUpperCase (trim symbol)

/-- A symbol that is normal stays as it is. -/
@[simp] theorem Runtime.normalize_normalize (rt : Runtime) (s : JsString) :
    rt.normalize (rt.normalize s) = rt.normalize s := rt.toUpperCase_trim s

/-- Capitals leave the spaces. -/
theorem isSpace_asciiUpper (c : CodeUnit) : (asciiUpper c).isSpace = c.isSpace := by
  unfold asciiUpper
  split_ifs with h
  · have hval : (Fin.ofNat 0x10000 (c.val - 0x20)).val = c.val - 0x20 := Nat.mod_eq_of_lt (by omega)
    rw [Bool.eq_iff_iff]
    unfold CodeUnit.isSpace
    simp only [Bool.or_eq_true, Bool.and_eq_true, decide_eq_true_eq, beq_iff_eq, hval]
    omega
  · rfl

/-- Capitals are capitals already. -/
theorem asciiUpper_asciiUpper (c : CodeUnit) : asciiUpper (asciiUpper c) = asciiUpper c := by
  by_cases h : 0x61 ≤ c.val ∧ c.val ≤ 0x7A
  · have hupper : asciiUpper c = Fin.ofNat 0x10000 (c.val - 0x20) := if_pos h
    have hval : (Fin.ofNat 0x10000 (c.val - 0x20)).val = c.val - 0x20 := Nat.mod_eq_of_lt (by omega)
    rw [hupper]
    exact if_neg (by omega)
  · have hupper : asciiUpper c = c := if_neg h
    rw [hupper, hupper]

/-- Spaces are trimmed before or after the capitals are made. -/
theorem trim_map_asciiUpper (s : JsString) : trim (s.map asciiUpper) = (trim s).map asciiUpper := by
  have hspace : CodeUnit.isSpace ∘ asciiUpper = CodeUnit.isSpace := funext isSpace_asciiUpper
  unfold trim List.rdropWhile
  rw [List.dropWhile_map, hspace, ← List.map_reverse, List.dropWhile_map,
    hspace, ← List.map_reverse]

/-- A string is trimmed once. -/
theorem trim_trim (s : JsString) : trim (trim s) = trim s := by
  unfold trim
  have hhead := @List.dropWhile_idempotent _ CodeUnit.isSpace s
  generalize s.dropWhile CodeUnit.isSpace = t at hhead ⊢
  have hdrop : (t.rdropWhile CodeUnit.isSpace).dropWhile CodeUnit.isSpace =
      t.rdropWhile CodeUnit.isSpace := by
    rw [List.dropWhile_eq_self_iff] at hhead ⊢
    intro hpos
    have hpre : t.rdropWhile CodeUnit.isSpace <+: t := List.rdropWhile_prefix _ t
    rw [hpre.getElem hpos]
    exact hhead (hpos.trans_le hpre.length_le)
  rw [hdrop, List.rdropWhile_idempotent]

/-- The order of code units, as `localeCompare` gives an order. -/
def compareCodeUnits (a b : JsString) : ℤ := if a < b then -1 else if a = b then 0 else 1

/-- The comparison is that of the order of code units. -/
theorem compareCodeUnits_nonpos {a b : JsString} : compareCodeUnits a b ≤ 0 ↔ a ≤ b := by
  unfold compareCodeUnits
  rcases lt_trichotomy a b with h | h | h
  · rw [if_pos h]
    exact ⟨fun _ => h.le, fun _ => by omega⟩
  · rw [if_neg h.not_lt, if_pos h]
    exact ⟨fun _ => h.le, fun _ => by omega⟩
  · rw [if_neg h.not_gt, if_neg h.ne']
    exact ⟨fun hle => by omega, fun hle => absurd h hle.not_gt⟩

/-- A runtime that knows the letters of ASCII and the order of code units. -/
def Runtime.ascii : Runtime where
  toUpperCase s := s.map asciiUpper
  localeCompare := compareCodeUnits
  toUpperCase_ascii _ _ := rfl
  localeCompare_total a b := by
    rw [compareCodeUnits_nonpos, compareCodeUnits_nonpos]
    exact le_total a b
  localeCompare_trans a b c := by
    rw [compareCodeUnits_nonpos, compareCodeUnits_nonpos, compareCodeUnits_nonpos]
    exact le_trans
  toUpperCase_trim s := by
    rw [trim_map_asciiUpper, trim_trim, List.map_map]
    exact List.map_congr_left fun c _ => asciiUpper_asciiUpper c

/-! ## Symbols -/

/-- A character that `symbolSchema` allows. -/
def symbolChar (c : CodeUnit) : Bool :=
  (0x41 ≤ c.val && c.val ≤ 0x5A) || (0x30 ≤ c.val && c.val ≤ 0x39) || c.val == 0x2E ||
    c.val == 0x5F || c.val == 0x3A || c.val == 0x2D

/-- The string is one that `symbolSchema` gives. -/
def isSymbol (s : JsString) : Bool := 1 ≤ s.length && s.length ≤ 32 && s.all symbolChar

/-- Nothing is trimmed from a string without spaces. -/
theorem trim_eq {s : JsString} (h : ∀ c ∈ s, c.isSpace = false) : trim s = s := by
  have hdrop : s.dropWhile CodeUnit.isSpace = s := by
    rw [List.dropWhile_eq_self_iff]
    exact fun hpos => Bool.eq_false_iff.1 (h _ (List.getElem_mem hpos))
  unfold trim
  rw [hdrop, List.rdropWhile_eq_self_iff]
  exact fun hne => Bool.eq_false_iff.1 (h _ (List.getLast_mem hne))

/-- A character of a symbol is of ASCII, no space, and no small letter. -/
theorem symbolChar_spec {c : CodeUnit} (h : symbolChar c = true) :
    c.val < 0x80 ∧ c.isSpace = false ∧ asciiUpper c = c := by
  unfold symbolChar at h
  simp only [Bool.or_eq_true, Bool.and_eq_true, decide_eq_true_eq, beq_iff_eq] at h
  refine ⟨by omega, ?_, if_neg (by omega)⟩
  unfold CodeUnit.isSpace
  simp only [Bool.or_eq_false_iff, Bool.and_eq_false_iff, decide_eq_false_iff_not,
    beq_eq_false_iff_ne]
  omega

/-! ## Points -/

/-- `NormalizedQuote`. -/
structure NormalizedQuote where
  /-- `schemaVersion`. -/
  schemaVersion : JsString
  /-- `eventId`. -/
  eventId : JsString
  /-- `symbol`. -/
  symbol : JsString
  /-- `price`. -/
  price : ℚ
  /-- `bid`. -/
  bid : Option ℚ
  /-- `ask`. -/
  ask : Option ℚ
  /-- `providerTimestampMs`. -/
  providerTimestampMs : ℤ
  /-- `receivedAtMs`. -/
  receivedAtMs : ℤ
  /-- `sequence`. -/
  sequence : Option ℕ
  /-- `provider`. -/
  provider : JsString
  /-- `lastSize`. -/
  lastSize : Option ℚ
  /-- `cumulativeVolume`. -/
  cumulativeVolume : Option ℚ
  /-- `tradeCount`. -/
  tradeCount : Option ℕ
  deriving DecidableEq

/-- `MarketDataOrigin`. -/
inductive MarketDataOrigin
  | live
  | snapshot
  | replay
  deriving DecidableEq

/-- `MarketDataPoint`. -/
structure MarketDataPoint where
  /-- `quote`. -/
  quote : NormalizedQuote
  /-- `origin`. -/
  origin : MarketDataOrigin
  /-- `generation`. -/
  generation : ℕ
  /-- `stale`. -/
  stale : Bool
  /-- `ageMs`. -/
  ageMs : ℕ
  /-- `requestId`. -/
  requestId : Option JsString
  deriving DecidableEq

/-- `SourceConnectionState`. -/
inductive SourceConnectionState
  | idle
  | connecting
  | live
  | reconnecting
  | stopped
  deriving DecidableEq

/-- `SourceStatus`. -/
structure SourceStatus where
  /-- `state`. -/
  state : SourceConnectionState
  /-- `generation`. -/
  generation : ℕ
  /-- `reconnectAttempt`. -/
  reconnectAttempt : ℕ
  /-- `nextRetryMs`. -/
  nextRetryMs : Option ℕ
  /-- `lastError`. -/
  lastError : Option JsString
  deriving DecidableEq

end MarketDataGateway.MarketData
