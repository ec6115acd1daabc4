import MarketDataGateway.Lib.Calendar
import MarketDataGateway.Lib.Digits
import MarketDataGateway.Lib.Rounding
import MarketDataGateway.Models.Wire

/-!
# What pydantic writes

The texts of decimals, UUIDs and datetimes in the JSON of a model: `str` of a `Decimal` and of a
`UUID`, and ISO 8601 for a datetime, with a `Z` or an offset in whole minutes. `Pydantic.Spells` is
that the values of a quote are written so.
-/

namespace MarketDataGateway.Models

open Lib

/-! ## Decimals -/

namespace PyDecimal

/-- The digits with the point at its place, and zeros where there is no digit. -/
def placed (negative : Bool) (digits : List Char) (dotplace : ℤ)
    (exponent : Option (Bool × List Char)) :
    NumberLiteral :=
  if dotplace ≤ 0 then ⟨negative, ['0'], List.replicate (-dotplace).toNat '0' ++ digits, exponent⟩
  else if digits.length ≤ dotplace then
    ⟨negative, digits ++ List.replicate (dotplace - digits.length).toNat '0', [], exponent⟩
  else ⟨negative, digits.take dotplace.toNat, digits.drop dotplace.toNat, exponent⟩

/-- The exponent that is written, `%+d`. -/
def signedExponent (n : ℤ) : Bool × List Char := (n < 0, Nat.toDigits 10 n.natAbs)

/-- The digits, the point and the exponent of `Decimal.__str__`. -/
def literal (d : PyDecimal) : NumberLiteral :=
  let digits := Nat.toDigits 10 d.coefficient
  let leftdigits : ℤ := d.exponent + digits.length
  let dotplace := if d.exponent ≤ 0 ∧ -6 < leftdigits then leftdigits else 1
  placed d.negative digits dotplace
    (if leftdigits = dotplace then none else some (signedExponent (leftdigits - dotplace)))

/-- `Decimal.__str__`. -/
def str (d : PyDecimal) : PyStr :=
  (if d.negative then text "-" else []) ++ d.literal.whole.map CodePoint.ofChar ++
    (if d.literal.fraction = [] then [] else text "." ++ d.literal.fraction.map CodePoint.ofChar) ++
    match d.literal.exponent with
    | none => []
    | some (negative, digits) =>
      text "E" ++ text (if negative then "-" else "+") ++ digits.map CodePoint.ofChar

example : str ⟨false, 1234, -2⟩ = text "12.34" ∧ str ⟨true, 5, -7⟩ = text "-5E-7" ∧
    str ⟨false, 1, 400⟩ = text "1E+400" ∧
    str ⟨false, 100, -6⟩ = text "0.000100" := by decide +kernel

/-- The number nearest to a decimal. -/
def toNumber (d : PyDecimal) : Binary64 := .ofDecimal d.negative d.coefficient d.exponent

section Placed

variable {negative : Bool} {digits : List Char} {dotplace : ℤ}
  {exponent : Option (Bool × List Char)}

/-- A placed number has the sign that is given. -/
theorem placed_negative : (placed negative digits dotplace exponent).negative = negative := by
  unfold placed
  split_ifs <;> rfl

/-- A placed number has the exponent that is given. -/
theorem placed_exponent : (placed negative digits dotplace exponent).exponent = exponent := by
  unfold placed
  split_ifs <;> rfl

/-- A placed number is made of digits. -/
theorem placed_digits (hne : digits ≠ []) (hdigits : ∀ c ∈ digits, c.isDigit = true) :
    ((placed negative digits dotplace exponent).whole ≠ [] ∧
      ∀ c ∈ (placed negative digits dotplace exponent).whole, c.isDigit = true) ∧
      ∀ c ∈ (placed negative digits dotplace exponent).fraction, c.isDigit = true := by
  have hlength := List.length_pos_iff.2 hne
  have hzeros (n : ℕ) : ∀ c ∈ List.replicate n '0', c.isDigit = true := fun c hc => by
    rw [List.eq_of_mem_replicate hc]
    rfl
  unfold placed
  split_ifs with hsmall hlarge
  · refine ⟨⟨List.cons_ne_nil _ _, hzeros 1⟩, fun c hc => ?_⟩
    exact (List.mem_append.1 hc).elim (hzeros _ c) (hdigits c)
  · refine ⟨⟨List.append_ne_nil_of_left_ne_nil hne _, fun c hc => ?_⟩, fun c hc => nomatch hc⟩
    exact (List.mem_append.1 hc).elim (hdigits c) (hzeros _ c)
  · have htake : 0 < (digits.take dotplace.toNat).length := by
      rw [List.length_take]
      omega
    exact ⟨⟨List.length_pos_iff.1 htake, fun c hc => hdigits c (List.mem_of_mem_take hc)⟩,
      fun c hc => hdigits c (List.mem_of_mem_drop hc)⟩

/-- No zeros come after the digits unless the point does. -/
theorem placed_spec (h : dotplace ≤ digits.length) :
    (placed negative digits dotplace exponent).coefficient = Nat.ofDigitChars 10 digits 0 ∧
      ((placed negative digits dotplace exponent).fraction.length : ℤ) =
      digits.length - dotplace := by
  unfold placed NumberLiteral.coefficient
  split_ifs with hsmall hlarge
  · refine ⟨?_, ?_⟩
    · rw [List.cons_append, List.nil_append, ofDigitChars_zero_cons, Nat.ofDigitChars_append,
        Nat.ofDigitChars_replicate_zero, Nat.mul_zero]
    · rw [List.length_append, List.length_replicate]
      omega
  · have hnone : (dotplace - digits.length).toNat = 0 := by omega
    refine ⟨?_, ?_⟩
    · rw [hnone, List.replicate_zero, List.append_nil, List.append_nil]
    · rw [List.length_nil]
      omega
  · refine ⟨?_, ?_⟩
    · rw [List.take_append_drop]
    · rw [List.length_drop]
      omega

end Placed

/-- The exponent that is written is the exponent. -/
theorem tens_signedExponent (l : NumberLiteral) (n : ℤ) (h : l.exponent = some (signedExponent n)) :
    l.tens = n := by
  unfold NumberLiteral.tens
  rw [h]
  unfold signedExponent
  dsimp only
  rw [Nat.ofDigitChars_ten_toDigits]
  by_cases hneg : n < 0
  · rw [if_pos (decide_eq_true hneg)]
    omega
  · rw [if_neg (by rw [decide_eq_true_eq]; exact hneg)]
    omega

/-- The digits of a number are digits. -/
theorem isDigit_toDigits (n : ℕ) : ∀ c ∈ Nat.toDigits 10 n, c.isDigit = true := fun _ hc =>
  Nat.isDigit_of_mem_toDigits (by decide) (by decide) hc

/-- The literal has the syntax of a number. -/
theorem literal_syntax (d : PyDecimal) :
    (d.literal.whole ≠ [] ∧ ∀ c ∈ d.literal.whole, c.isDigit = true) ∧
      (∀ c ∈ d.literal.fraction, c.isDigit = true) ∧
      ∀ e ∈ d.literal.exponent, e.2 ≠ [] ∧ ∀ c ∈ e.2, c.isDigit = true := by
  refine ⟨(placed_digits Nat.toDigits_ne_nil (isDigit_toDigits d.coefficient)).1,
    (placed_digits Nat.toDigits_ne_nil (isDigit_toDigits d.coefficient)).2, fun e he => ?_⟩
  unfold literal at he
  dsimp only at he
  rw [placed_exponent] at he
  generalize (if d.exponent ≤ 0 ∧ -6 < d.exponent + (Nat.toDigits 10 d.coefficient).length then
    d.exponent + (Nat.toDigits 10 d.coefficient).length else 1) = dotplace at he
  split_ifs at he
  · exact nomatch he
  · obtain rfl := Option.some.inj he
    exact ⟨Nat.toDigits_ne_nil, isDigit_toDigits _⟩

/-- The literal writes the digits of the decimal, with its exponent. -/
theorem literal_spec (d : PyDecimal) :
    d.literal.coefficient = d.coefficient ∧ d.literal.power = d.exponent := by
  have hlength := List.length_pos_iff.2 (Nat.toDigits_ne_nil (n := d.coefficient) (b := 10))
  have hvalue := Nat.ofDigitChars_ten_toDigits (n := d.coefficient)
  unfold NumberLiteral.power
  by_cases hplain : d.exponent ≤ 0 ∧ -6 < d.exponent + (Nat.toDigits 10 d.coefficient).length
  · -- Without an exponent, the point stands where the exponent of the decimal says.
    have hliteral : d.literal = placed d.negative (Nat.toDigits 10 d.coefficient)
        (d.exponent + (Nat.toDigits 10 d.coefficient).length) none := by
      unfold literal
      dsimp only
      rw [if_pos hplain, if_pos rfl]
    obtain ⟨hcoefficient, hfraction⟩ := @placed_spec d.negative (Nat.toDigits 10 d.coefficient)
      (d.exponent + (Nat.toDigits 10 d.coefficient).length) none (by omega)
    have htens : d.literal.tens = 0 := by
      unfold NumberLiteral.tens
      rw [hliteral, placed_exponent]
    rw [htens, hliteral]
    exact ⟨hcoefficient.trans hvalue, by omega⟩
  · -- With one, the point stands after the first digit.
    have hne : d.exponent + ((Nat.toDigits 10 d.coefficient).length : ℤ) ≠ 1 := by omega
    have hliteral : d.literal = placed d.negative (Nat.toDigits 10 d.coefficient) 1
        (some (signedExponent (d.exponent + (Nat.toDigits 10 d.coefficient).length - 1))) := by
      unfold literal
      dsimp only
      rw [if_neg hplain, if_neg hne]
    obtain ⟨hcoefficient, hfraction⟩ := @placed_spec d.negative (Nat.toDigits 10 d.coefficient) 1
      (some (signedExponent (d.exponent + (Nat.toDigits 10 d.coefficient).length - 1))) (by omega)
    have htens := tens_signedExponent d.literal _ (by rw [hliteral, placed_exponent])
    rw [htens, hliteral]
    exact ⟨hcoefficient.trans hvalue, by omega⟩

/-- The literal of a decimal has its sign. -/
theorem negative_literal (d : PyDecimal) : d.literal.negative = d.negative := placed_negative

/-- Reading the literal gives the nearest number. -/
theorem ofLiteral_literal (d : PyDecimal) : Binary64.ofLiteral d.literal = d.toNumber := by
  rw [ofLiteral_eq_ofDecimal, negative_literal, (literal_spec d).1, (literal_spec d).2]
  rfl

end PyDecimal

/-! ## UUIDs -/

/-- `UUID.__str__`. -/
def uuidText (u : EventId) : PyStr :=
  let hex := padded 16 32 u.val
  hex.take 8 ++ text "-" ++ (hex.drop 8).take 4 ++ text "-" ++ (hex.drop 12).take 4 ++ text "-" ++
    (hex.drop 16).take 4 ++ text "-" ++ hex.drop 20

/-! ## Datetimes -/

/-- A text of ISO 8601 for an offset in whole minutes. -/
def IsOffset (minutes : ℤ) (s : PyStr) : Prop :=
  minutes = 0 ∧ s = text "Z" ∨
    (0 ≤ minutes ∧ s = text "+" ++ padded 10 2 (minutes.natAbs / 60) ++ text ":" ++
      padded 10 2 (minutes.natAbs % 60)) ∨
    minutes ≤ 0 ∧ s = text "-" ++ padded 10 2 (minutes.natAbs / 60) ++ text ":" ++
      padded 10 2 (minutes.natAbs % 60)

/-- The text of a date and a time, before that of the offset. -/
def isoformat (c : Civil) : PyStr :=
  padded 10 4 c.year ++ text "-" ++ padded 10 2 c.month ++ text "-" ++
    padded 10 2 c.day ++ text "T" ++
    padded 10 2 c.hour ++ text ":" ++ padded 10 2 c.minute ++ text ":" ++ padded 10 2 c.second ++
      if c.microsecond = 0 then [] else text "." ++ padded 10 6 c.microsecond

/-- A datetime is written by its date, its time and an offset in minutes. -/
def Pydantic.SpellsDatetime (p : Pydantic) (t : Datetime) (minutes : ℤ) : Prop :=
  ∃ (c : Civil) (offset : PyStr), t.naive = c.microseconds ∧ |minutes| < 24 * 60 ∧
    IsOffset minutes offset ∧ p.datetime.dump t = .str (isoformat c ++ offset)

/-- The instant that the text of a datetime says, with the minutes that are written for its
offset. -/
def Datetime.written (t : Datetime) (minutes : ℤ → ℤ) : Timestamp :=
  t.naive - 60 * second * minutes (t.utcoffset.getD 0)

/-- What pydantic writes for the values of a quote, with the whole minutes that it writes for an
offset. -/
structure Pydantic.Spells (p : Pydantic) (minutes : ℤ → ℤ) (e : QuoteFields) : Prop where
  /-- A decimal is written as `str` does. -/
  decimal : ∀ d ∈ e.decimals, p.decimal.dump d = .str d.str
  /-- A UUID is written as `str` does. -/
  uuid : p.uuid.dump e.eventId = .str (uuidText e.eventId)
  /-- A datetime is written in ISO 8601. -/
  datetime : ∀ t ∈ [e.providerTimestamp, e.receivedAt],
    p.SpellsDatetime t.1 (minutes (t.1.utcoffset.getD 0))

end MarketDataGateway.Models
