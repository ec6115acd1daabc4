import Mathlib.Data.Finset.Basic
import Mathlib.Data.Rat.Defs
import Mathlib.Algebra.Order.Field.Rat
import MarketDataGateway.Domain
import MarketDataGateway.Lib.Json

/-!
# Quote events with their evidence

`QuoteEvent`, `VolumeSemantics` and `DepthSemantics` of `domain/models.py`: all their fields, with
the constraints of the fields as subtypes, and the validators. A value of one of these types has
passed its validators.
-/

namespace MarketDataGateway.Models

open Lib

/-! ## Numbers and times -/

/-- A finite `Decimal`. -/
structure PyDecimal where
  /-- The sign. -/
  negative : Bool
  /-- The digits. -/
  coefficient : ℕ
  /-- The exponent. -/
  exponent : ℤ
  deriving DecidableEq

namespace PyDecimal

/-- The digits with the sign. -/
def signed (d : PyDecimal) : ℤ := if d.negative then -d.coefficient else d.coefficient

/-- What the decimal amounts to, which is what comparisons go by. -/
def value (d : PyDecimal) : ℚ := d.signed * 10 ^ d.exponent

/-- The number of digits. -/
def digits (n : ℕ) : ℤ := (Nat.toDigits 10 n).length

/-- The number without its last digits, `ROUND_HALF_EVEN`. -/
def roundHalfEven (n dropped : ℕ) : ℕ :=
  let quotient := n / 10 ^ dropped
  let rest := n % 10 ^ dropped
  if 10 ^ dropped < 2 * rest ∨ 2 * rest = 10 ^ dropped ∧ quotient % 2 = 1 then quotient + 1
  else quotient

/-- The precision of the default context. -/
def prec : ℤ := 28

/-- `Emax` of the default context. -/
def emax : ℤ := 999999

/-- The least exponent of the default context. -/
def etiny : ℤ := -999999 - (prec - 1)

/-- `a + b` in the default context. `none` stands for `decimal.Overflow`. -/
def add (a b : PyDecimal) : Option PyDecimal :=
  let exponent := min a.exponent b.exponent
  let sum := a.signed * 10 ^ (a.exponent - exponent).toNat +
    b.signed * 10 ^ (b.exponent - exponent).toNat
  let dropped := (max (digits sum.natAbs - prec) (etiny - exponent)).toNat
  let coefficient := roundHalfEven sum.natAbs dropped
  if coefficient ≠ 0 ∧ emax < exponent + dropped + digits coefficient - 1 then none
  else some ⟨sum < 0, coefficient, exponent + dropped⟩

end PyDecimal

/-- A `datetime`. -/
structure Datetime where
  /-- Its date and time, in microseconds. -/
  naive : Timestamp
  /-- `utcoffset()`, or `None` for a datetime without a timezone. -/
  utcoffset : Option ℤ
  deriving DecidableEq

/-- The instant of a datetime, which is what comparisons go by. -/
def Datetime.instant (t : Datetime) : Timestamp := t.naive - t.utcoffset.getD 0

/-! ## Constrained values -/

/-- `PositiveDecimal`. -/
abbrev PositiveDecimal := { d : PyDecimal // 0 < d.value }

/-- `NonNegativeDecimal`. -/
abbrev NonNegativeDecimal := { d : PyDecimal // 0 ≤ d.value }

/-- `NonNegativeInteger`. -/
abbrev NonNegativeInteger := { n : ℤ // 0 ≤ n }

/-- `PositiveInteger`. -/
abbrev PositiveInteger := { n : ℤ // 0 < n }

/-- A datetime that `require_timezone` accepts. -/
abbrev AwareDatetime := { t : Datetime // t.utcoffset.isSome }

/-- `[A-Z0-9]`. -/
def isAlnum (c : CodePoint) : Bool := (0x41 ≤ c.val && c.val ≤ 0x5A) || c.isDigit

/-- `[A-Z0-9._:-]`. -/
def isSymbolChar (c : CodePoint) : Bool := isAlnum c || c = 0x2E || c = 0x5F || c = 0x3A || c = 0x2D

/-- A letter or digit may be in a symbol. -/
theorem all_isSymbolChar {s : PyStr} (h : s.all isAlnum = true) : s.all isSymbolChar = true := by
  rw [List.all_eq_true] at h ⊢
  intro c hc
  unfold isSymbolChar
  rw [h c hc]
  rfl

/-- Its length is within bounds, and all its characters are of a class. -/
def Matches (least most : ℕ) (p : CodePoint → Bool) (s : PyStr) : Prop :=
  least ≤ s.length ∧ s.length ≤ most ∧ s.all p

instance (least most : ℕ) (p : CodePoint → Bool) : DecidablePred (Matches least most p) :=
  fun _ => inferInstanceAs (Decidable (_ ∧ _ ∧ _))

/-- `Symbol`. -/
abbrev Symbol := { s : PyStr // Matches 1 32 isSymbolChar s }

/-- `CurrencyCode`. -/
abbrev CurrencyCode := { s : PyStr // Matches 2 12 isAlnum s }

/-- The string of `provider`: a Python string with surrogates is none of pydantic. -/
abbrev Provider := { s : PyStr // Matches 1 64 (fun c => !decide c.IsSurrogate) s }

/-- `^1\.[0-9]+$`. -/
def IsSchemaVersion (s : PyStr) : Prop :=
  s.take 2 = text "1." ∧ s.drop 2 ≠ [] ∧ (s.drop 2).all CodePoint.isDigit

instance : DecidablePred IsSchemaVersion := fun _ => inferInstanceAs (Decidable (_ ∧ _ ∧ _))

/-- The current schema version is one. -/
theorem isSchemaVersion_current : IsSchemaVersion (text "1.1") := by decide

/-- The string of `schema_version`. -/
abbrev SchemaVersion := { s : PyStr // IsSchemaVersion s }

/-- The validators `normalize_symbol` and `normalize_currency`. -/
def normalize (special : CodePoint → PyStr) : Json → Json
  | .str s => .str (upper special (strip s))
  | v => v

/-- A character of a symbol is a capital, a digit or one of four marks. -/
theorem isSymbolChar_cases {c : CodePoint} (h : isSymbolChar c = true) :
    (0x41 ≤ c.val ∧ c.val ≤ 0x5A) ∨ (0x30 ≤ c.val ∧ c.val ≤ 0x39) ∨ c.val = 0x2E ∨ c.val = 0x5F ∨
      c.val = 0x3A ∨ c.val = 0x2D := by
  simp only [isSymbolChar, isAlnum, CodePoint.isDigit, Bool.or_eq_true, Bool.and_eq_true,
    decide_eq_true_eq, Fin.ext_iff] at h
  rcases h with (((((h | h) | h) | h) | h) | h)
  · exact Or.inl h
  · exact Or.inr (Or.inl h)
  all_goals simp [h]

/-- Normalising does not change a string of these characters. -/
theorem normalize_eq (special : CodePoint → PyStr) {s : PyStr} (h : s.all isSymbolChar) :
    normalize special (.str s) = .str s := by
  have hchar (c : CodePoint) (hc : c ∈ s) :
      c.isSpace = false ∧ c.val < 0x80 ∧ ¬(0x61 ≤ c.val ∧ c.val ≤ 0x7A) := by
    have hval := isSymbolChar_cases (List.all_eq_true.1 h c hc)
    simp only [CodePoint.isSpace, Bool.or_eq_false_iff, Bool.and_eq_false_iff,
      decide_eq_false_iff_not, beq_eq_false_iff_ne]
    omega
  show Json.str (upper special (strip s)) = Json.str s
  rw [strip_eq fun c hc => (hchar c hc).1, upper_eq fun c hc => (hchar c hc).2]

/-! ## Enumerations -/

/-- `MarketEvidenceCapability`. -/
inductive MarketEvidenceCapability
  | level1Quote
  | volume
  | aggressorFlow
  | tradeCount
  | topOfBookDepth
  deriving DecidableEq

/-- The value of a capability. -/
def MarketEvidenceCapability.value : MarketEvidenceCapability → String
  | level1Quote => "level1_quote"
  | volume => "volume"
  | aggressorFlow => "aggressor_flow"
  | tradeCount => "trade_count"
  | topOfBookDepth => "top_of_book_depth"

/-- `EvidenceOrigin`. -/
inductive EvidenceOrigin
  | native
  | providerAggregated
  | gatewayDerived
  deriving DecidableEq

/-- The value of an origin. -/
def EvidenceOrigin.value : EvidenceOrigin → String
  | native => "native"
  | providerAggregated => "provider_aggregated"
  | gatewayDerived => "gateway_derived"

/-- `QuantityUnit`. -/
inductive QuantityUnit
  | baseAsset
  | quoteNotional
  | contracts
  deriving DecidableEq

/-- The value of a unit. -/
def QuantityUnit.value : QuantityUnit → String
  | baseAsset => "base_asset"
  | quoteNotional => "quote_notional"
  | contracts => "contracts"

/-- `VolumeKind`. -/
inductive VolumeKind
  | interval
  | cumulative
  deriving DecidableEq

/-- The value of a kind. -/
def VolumeKind.value : VolumeKind → String
  | interval => "interval"
  | cumulative => "cumulative"

/-! ## Semantics -/

/-- The fields of `VolumeSemantics`. -/
structure VolumeFields where
  /-- `kind`. -/
  kind : VolumeKind
  /-- `unit`. -/
  unit : QuantityUnit
  /-- `aggregation_window_ms`. -/
  aggregationWindowMs : Option PositiveInteger
  /-- `currency`. -/
  currency : Option CurrencyCode
  /-- `origin`. -/
  origin : EvidenceOrigin

/-- What a validator raises. -/
inductive ValidatorError
  /-- `ValueError`. -/
  | valueError (message : String)
  /-- `decimal.Overflow`. -/
  | overflow
  deriving DecidableEq

/-- `validate_semantics` of `VolumeSemantics`. -/
def VolumeFields.validateSemantics (s : VolumeFields) : Except ValidatorError Unit := do
  if s.kind = .interval ∧ s.aggregationWindowMs = none then
    throw (.valueError "interval volume requires aggregation_window_ms")
  if s.kind = .cumulative ∧ s.aggregationWindowMs ≠ none then
    throw (.valueError "cumulative volume must not declare aggregation_window_ms")
  if s.unit = .quoteNotional ∧ s.currency = none then
    throw (.valueError "quote_notional volume requires currency")
  if s.unit ≠ .quoteNotional ∧ s.currency ≠ none then
    throw (.valueError "currency is only valid for quote_notional volume")

/-- `VolumeSemantics`. -/
structure VolumeSemantics extends VolumeFields where
  valid : toVolumeFields.validateSemantics = .ok ()

/-- The fields of `DepthSemantics`. -/
structure DepthFields where
  /-- `unit`. -/
  unit : QuantityUnit
  /-- `levels`. -/
  levels : { n : ℤ // 1 ≤ n ∧ n ≤ 20 }
  /-- `currency`. -/
  currency : Option CurrencyCode
  /-- `origin`. -/
  origin : EvidenceOrigin

/-- The levels of the top of the book are within the bounds. -/
theorem topOfBook_levels : (1 : ℤ) ≤ 1 ∧ (1 : ℤ) ≤ 20 := by decide

/-- `validate_semantics` of `DepthSemantics`. -/
def DepthFields.validateSemantics (s : DepthFields) : Except ValidatorError Unit := do
  if s.unit = .quoteNotional ∧ s.currency = none then
    throw (.valueError "quote_notional depth requires currency")
  if s.unit ≠ .quoteNotional ∧ s.currency ≠ none then
    throw (.valueError "currency is only valid for quote_notional depth")

/-- `DepthSemantics`. -/
structure DepthSemantics extends DepthFields where
  valid : toDepthFields.validateSemantics = .ok ()

/-! ## Quotes -/

/-- The fields of `QuoteEvent`. -/
structure QuoteFields where
  /-- `schema_version`. -/
  schemaVersion : SchemaVersion
  /-- `event_id`. -/
  eventId : EventId
  /-- `symbol`. -/
  symbol : Symbol
  /-- `price`. -/
  price : PositiveDecimal
  /-- `bid`. -/
  bid : Option PositiveDecimal
  /-- `ask`. -/
  ask : Option PositiveDecimal
  /-- `provider_timestamp`. -/
  providerTimestamp : AwareDatetime
  /-- `received_at`. -/
  receivedAt : AwareDatetime
  /-- `sequence`. -/
  sequence : Option NonNegativeInteger
  /-- `provider`. -/
  provider : Provider
  /-- `capabilities`. -/
  capabilities : Finset MarketEvidenceCapability
  /-- `volume`. -/
  volume : Option NonNegativeDecimal
  /-- `buy_volume`. -/
  buyVolume : Option NonNegativeDecimal
  /-- `sell_volume`. -/
  sellVolume : Option NonNegativeDecimal
  /-- `trade_count`. -/
  tradeCount : Option NonNegativeInteger
  /-- `bid_depth`. -/
  bidDepth : Option NonNegativeDecimal
  /-- `ask_depth`. -/
  askDepth : Option NonNegativeDecimal
  /-- `volume_semantics`. -/
  volumeSemantics : Option VolumeSemantics
  /-- `depth_semantics`. -/
  depthSemantics : Option DepthSemantics

namespace QuoteFields

/-- `int(self.schema_version.split(".", 1)[1])`. -/
def schemaMinor (e : QuoteFields) : Except ValidatorError ℕ :=
  let minor := (e.schemaVersion.1.dropWhile (· ≠ 0x2E)).drop 1
  if maxStrDigits < minor.length then
    .error
      (.valueError s!"Exceeds the limit (4300 digits) for integer string conversion: value has {
      minor.length} digits; use sys.set_int_max_str_digits() to increase the limit")
  else .ok (minor.foldl (fun n c => 10 * n + (c.val - 0x30)) 0)

/-- `rich_values_present`. -/
def richValuesPresent (e : QuoteFields) : Bool :=
  e.volume.isSome || e.buyVolume.isSome || e.sellVolume.isSome || e.tradeCount.isSome ||
    e.bidDepth.isSome || e.askDepth.isSome || e.volumeSemantics.isSome || e.depthSemantics.isSome

/-- `volume_values_present`. -/
def volumeValuesPresent (e : QuoteFields) : Bool :=
  e.volume.isSome || e.buyVolume.isSome || e.sellVolume.isSome || e.tradeCount.isSome

/-- What `validate_market` demands of the flow. -/
def validateFlow (e : QuoteFields) : Except ValidatorError Unit := do
  if e.buyVolume.isSome || e.sellVolume.isSome then
    match e.buyVolume, e.sellVolume with
    | some buy, some sell =>
      if .aggressorFlow ∉ e.capabilities then
        throw (.valueError "aggressor flow requires aggressor_flow capability")
      match e.volume with
      | none => pure ()
      | some volume =>
        match PyDecimal.add buy.1 sell.1 with
        | none => throw .overflow
        | some sum =>
          if volume.1.value < sum.value then
            throw (.valueError "classified buy and sell volume must not exceed total volume")
    | _, _ => throw (.valueError "buy_volume and sell_volume must be provided together")

/-- What `validate_market` demands of the depth. -/
def validateDepth (e : QuoteFields) : Except ValidatorError Unit := do
  if e.bidDepth.isSome || e.askDepth.isSome then
    if e.bidDepth = none ∨ e.askDepth = none then
      throw (.valueError "bid_depth and ask_depth must be provided together")
    match e.depthSemantics with
    | none => throw (.valueError "depth evidence requires depth_semantics")
    | some semantics =>
      if semantics.levels.1 ≠ 1 then
        throw (.valueError "bid_depth and ask_depth represent exactly one top-of-book level")
      if .topOfBookDepth ∉ e.capabilities then
        throw (.valueError "depth evidence requires top_of_book_depth capability")

/-- `validate_market`. -/
def validateMarket (e : QuoteFields) : Except ValidatorError Unit := do
  if ∃ bid ∈ e.bid, ∃ ask ∈ e.ask, ask.1.value < bid.1.value then
    throw (.valueError "bid must be less than or equal to ask")
  if .level1Quote ∉ e.capabilities then
    throw (.valueError "level1_quote capability is required")
  let schemaMinor ← e.schemaMinor
  if e.richValuesPresent ∧ schemaMinor < 1 then
    throw (.valueError "rich market evidence requires schema_version 1.1 or newer")
  if e.volumeValuesPresent ∧ e.volumeSemantics.isNone then
    throw (.valueError "volume-like evidence requires volume_semantics")
  if e.volume.isSome ∧ .volume ∉ e.capabilities then
    throw (.valueError "volume evidence requires volume capability")
  e.validateFlow
  if e.tradeCount.isSome ∧ .tradeCount ∉ e.capabilities then
    throw (.valueError "trade_count evidence requires trade_count capability")
  e.validateDepth

end QuoteFields

/-- `QuoteEvent`. -/
structure QuoteEvent extends QuoteFields where
  valid : toQuoteFields.validateMarket = .ok ()

end MarketDataGateway.Models
