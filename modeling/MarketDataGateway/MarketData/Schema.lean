import MarketDataGateway.Lib.Calendar
import MarketDataGateway.Lib.Digits
import MarketDataGateway.Lib.Fields
import MarketDataGateway.Lib.Rounding
import MarketDataGateway.MarketData.Source

/-!
# Checks of values

The checks of `zod` of which the schemas of `market-data/types.ts` consist, and `Number` and
`Date.parse` of the strings that they let through. What is checked is what `JSON.parse` makes of the
text of a value: the code units of its strings, and the doubles nearest to its numbers.

A regular expression goes by code units, so that it is given those as if they were code points.
-/

namespace MarketDataGateway.MarketData

open Lib

/-- The code units, each as a code point. -/
def units (s : JsString) : PyStr := s.map (Fin.castLE (by decide))

/-! ## Regular expressions -/

/-- `/^1\.\d+$/`. -/
def isVersion (s : PyStr) : Bool :=
  s.take 2 = text "1." && s.drop 2 ≠ [] && (s.drop 2).all CodePoint.isDigit

/-- `[0-9a-fA-F]`. -/
def isHex (c : CodePoint) : Bool :=
  c.isDigit || (0x61 ≤ c.val && c.val ≤ 0x66) || (0x41 ≤ c.val && c.val ≤ 0x46)

/-- `[8-9abAB]`. -/
def isVariant (c : CodePoint) : Bool := c ∈ text "89abAB"

/-- `[1-8]`. -/
def isVersionDigit (c : CodePoint) : Bool := c ∈ text "12345678"

/-- `-`. -/
def isHyphen (c : CodePoint) : Bool := c = 0x2D

/-- The classes of a UUID of RFC 9562. -/
def uuidClasses : List (CodePoint → Bool) :=
  List.replicate 8 isHex ++ [isHyphen] ++ List.replicate 4 isHex ++ [isHyphen] ++
    (isVersionDigit :: List.replicate 3 isHex) ++ [isHyphen] ++
    (isVariant :: List.replicate 3 isHex) ++ [isHyphen] ++ List.replicate 12 isHex

/-- `z.string().uuid()`: a UUID of RFC 9562, or the least or the greatest one. -/
def isUuid (s : PyStr) : Bool :=
  matchesClasses uuidClasses s || s = text "00000000-0000-0000-0000-000000000000" ||
    s = text "ffffffff-ffff-ffff-ffff-ffffffffffff"

/-- A `Z`, or an offset in hours and minutes: the minutes. -/
def zone (s : PyStr) : Option ℤ :=
  if s = text "Z" then some 0
  else do
    guard (s.head? = some 0x2B ∨ s.head? = some 0x2D)
    let (hours, rest) ← takeDigits 2 s.tail
    let rest ← takeChar 0x3A rest
    let (minutes, rest) ← takeDigits 2 rest
    guard (hours < 24 ∧ minutes < 60 ∧ rest = [])
    some (if s.head? = some 0x2D then -(60 * hours + minutes : ℤ) else 60 * hours + minutes)

/-- The seconds and milliseconds, if there are any. Of a fraction, the first three digits count. -/
def clock (s : PyStr) : Option (ℕ × ℕ × PyStr) :=
  match takeChar 0x3A s with
  | none => some (0, 0, s)
  | some s => do
    let (second, s) ← takeDigits 2 s
    match takeChar 0x2E s with
    | none => some (second, 0, s)
    | some s =>
      let digits := s.takeWhile CodePoint.isDigit
      guard (digits ≠ [])
      some (second, digitsValue ((digits ++ text "00").take 3), s.dropWhile CodePoint.isDigit)

/-- `Date.parse` of the strings that `z.string().datetime({ offset: true })` accepts, and `none` for
the others. -/
def timeValue (s : PyStr) : Option ℤ := do
  let (year, s) ← takeDigits 4 s
  let s ← takeChar 0x2D s
  let (month, s) ← takeDigits 2 s
  let s ← takeChar 0x2D s
  let (day, s) ← takeDigits 2 s
  let s ← takeChar 0x54 s
  let (hour, s) ← takeDigits 2 s
  let s ← takeChar 0x3A s
  let (minute, s) ← takeDigits 2 s
  let (second, millisecond, s) ← clock s
  let offset ← zone s
  guard (IsDate year month day ∧ hour < 24 ∧ minute < 60 ∧ second < 60)
  some ((((dayNumber year month day * 24 + hour) * 60 + minute - offset) * 60 +
    second) * 1000 + millisecond)

example : timeValue (text "1970-01-01T01:00:00.0019+01:00") = some 1 ∧
    timeValue (text "2024-02-29T00:00Z") = some 1709164800000 ∧
    timeValue (text "2023-02-29T00:00:00Z") = none := by decide +kernel

/-- A string that `z.string().datetime({ offset: true })` accepts. -/
abbrev IsoString := { s : JsString // (timeValue (units s)).isSome }

/-- `Date.parse`. -/
def dateParse (s : IsoString) : ℤ := (timeValue (units s.1)).get s.2

/-! ## Schemas -/

/-- What a schema makes of a value. `none` stands for an error. -/
abbrev Schema (α : Type) := Json → Option α

namespace Schema

variable {α : Type}

/-- What has been parsed also passes a check. -/
def refine (s : Schema α) (p : α → Bool) : Schema α := fun v => (s v).filter p

/-- `z.string()`. -/
def string : Schema JsString
  | .str s => some (utf16 s)
  | _ => none

/-- `z.string().min(1)`. -/
def nonEmpty : Schema JsString := string.refine fun s => 1 ≤ s.length

/-- `z.string().min(1).max(most)`. -/
def within (most : ℕ) : Schema JsString := string.refine fun s => 1 ≤ s.length && s.length ≤ most

/-- `z.string().datetime({ offset: true })`. -/
def dateTime : Schema IsoString := fun v =>
  (string v).bind fun s => if h : (timeValue (units s)).isSome then some ⟨s, h⟩ else none

/-- `symbolSchema`. -/
def symbol : Schema JsString := fun v => ((string v).map trim).filter isSymbol

/-- `z.boolean()`. -/
def boolean : Schema Bool
  | .bool b => some b
  | _ => none

/-- `z.number()`, which is finite. -/
def number : Schema ℚ
  | .int n => (Binary64.ofLiteral (intLiteral n)).value
  | .float x => x.value
  | _ => none

/-- `Number.MAX_SAFE_INTEGER`. -/
@[irreducible] def maxSafeInteger : ℕ := 2 ^ 53 - 1

/-- `z.number().int()`, which is a safe integer. -/
def int : Schema ℤ := fun v =>
  (number v).bind fun x => if x.den = 1 ∧ |x| ≤ maxSafeInteger then some x.num else none

/-- `z.number().int().nonnegative()`. -/
def nonNegativeInt : Schema ℕ := fun v => ((int v).filter fun n => 0 ≤ n).map Int.toNat

/-- `z.number().int().positive()`. -/
def positiveInt : Schema ℕ := fun v => ((int v).filter fun n => 0 < n).map Int.toNat

/-- `decimalStringWireSchema` and `Number` of what it lets through. -/
def decimalString : Schema ℚ := fun v =>
  (string v).bind fun s => (decimalLiteral (units s)).bind fun l => (Binary64.ofLiteral l).value

/-- A number, or a string that is one. -/
def numeric : Schema ℚ := fun v => (number v).or (decimalString v)

/-- `decimalWireSchema`. -/
def decimal : Schema ℚ := numeric.refine (0 < ·)

/-- `nonNegativeDecimalWireSchema`. -/
def nonNegativeDecimal : Schema ℚ := numeric.refine (0 ≤ ·)

/-- `z.literal(value)`. -/
def literal (value : String) : Schema Unit := fun v => (string v).bind fun s => guard (s = js value)

/-- `z.enum(values)`. -/
def enum (members : List α) (value : α → String) : Schema α := fun v =>
  (string v).bind fun s => members.find? fun a => s = js (value a)

/-- `z.array(s)`. -/
def array (s : Schema α) : Schema (List α)
  | .list items => items.mapM s
  | _ => none

/-- `z.object(..).strip()`: what is made of the properties. -/
def object (f : (String → Option Json) → Option α) : Schema α
  | .dict entries => f fun name => getKey (text name) entries
  | _ => none

/-- A property that is required. -/
def required (s : Schema α) (v : Option Json) : Option α := v.bind s

/-- A property with `.optional()`. -/
def optional (s : Schema α) : Option Json → Option (Option α)
  | none => some none
  | some v => (s v).map some

/-- A property with `.nullable().optional()`. -/
def nullish (s : Schema α) : Option Json → Option (Option α)
  | none => some none
  | some .null => some none
  | some v => (s v).map some

end Schema

end MarketDataGateway.MarketData
