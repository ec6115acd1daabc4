import Mathlib.Data.List.Lex
import MarketDataGateway.Lib.Decimal
import MarketDataGateway.Lib.Dict
import MarketDataGateway.Lib.Unicode

/-!
# JSON

The values that Python's `json.loads` makes, with the keys of each object in their order, the
encoder of `json.dumps(v, sort_keys=True, separators=(",", ":"), ensure_ascii=False)`, and the
scanner of `json.loads`. Both follow the C code of CPython: the encoder writes infinities and NaNs
by their names and integers of at most `maxStrDigits` digits only, and the scanner reads the same
names, lets a later key replace an earlier one and refuses control characters within strings.

The scanner recurses on a bound for its nesting and its items. Each of these takes a character, so
that twice the length of the text is enough. How deep the interpreter lets it go is left open.
-/

namespace MarketDataGateway.Lib

/-- A value of JSON. -/
inductive Json
  /-- `None`. -/
  | null
  /-- A `bool`. -/
  | bool (b : Bool)
  /-- An `int`. -/
  | int (n : ℤ)
  /-- A `float`. -/
  | float (x : Binary64)
  /-- A `str`. -/
  | str (s : PyStr)
  /-- A `list`. -/
  | list (items : List Json)
  /-- A `dict` with strings as keys, which are in their order. -/
  | dict (entries : List (PyStr × Json))

/-- The keys of each object are in their order. -/
inductive Json.Sorted : Json → Prop
  | null : Sorted .null
  | bool (b : Bool) : Sorted (.bool b)
  | int (n : ℤ) : Sorted (.int n)
  | float (x : Binary64) : Sorted (.float x)
  | str (s : PyStr) : Sorted (.str s)
  | list {items : List Json} (h : ∀ v ∈ items, Sorted v) : Sorted (.list items)
  | dict {entries : List (PyStr × Json)} (hkeys : SortedKeys entries)
      (h : ∀ e ∈ entries, Sorted e.2) : Sorted (.dict entries)

/-- `sys.get_int_max_str_digits()`. -/
def maxStrDigits : ℕ := 4300

/-! ## The encoder -/

/-- The digit of a hexadecimal number, in lower case. -/
def hexDigit (n : ℕ) : CodePoint := codePoint (if n < 10 then 48 + n else 87 + n)

/-- A character of a string, with what JSON wants escaped. -/
def escapeChar (c : CodePoint) : PyStr :=
  if c = 0x22 then text "\\\""
  else if c = 0x5C then text "\\\\"
  else if c = 0x08 then text "\\b"
  else if c = 0x0C then text "\\f"
  else if c = 0x0A then text "\\n"
  else if c = 0x0D then text "\\r"
  else if c = 0x09 then text "\\t"
  else if c.val < 0x20 then text "\\u00" ++ [hexDigit (c.val / 16), hexDigit (c.val % 16)]
  else [c]

/-- A string, between quotes. -/
def encodeString (s : PyStr) : PyStr := text "\"" ++ s.flatMap escapeChar ++ text "\""

/-- The text of a literal. -/
def NumberLiteral.toText (l : NumberLiteral) : PyStr :=
  (if l.negative then text "-" else []) ++ l.whole.map CodePoint.ofChar ++
    (if l.fraction = [] then [] else text "." ++ l.fraction.map CodePoint.ofChar) ++
    match l.exponent with
    | none => []
    | some (negative, digits) =>
      text "e" ++ text (if negative then "-" else "+") ++ digits.map CodePoint.ofChar

/-- `int.__repr__`, as a literal. -/
def intLiteral (n : ℤ) : NumberLiteral := ⟨n < 0, Nat.toDigits 10 n.natAbs, [], none⟩

/-- `float.__repr__`, or the name of JSON for what is not finite. -/
def encodeFloat : Binary64 → PyStr
  | .finite negative bits => (Binary64.literal negative bits.val).toText
  | .infinite false => text "Infinity"
  | .infinite true => text "-Infinity"
  | .nan => text "NaN"

mutual

/-- The text of a value. -/
def Json.encode : Json → PyStr
  | .null => text "null"
  | .bool true => text "true"
  | .bool false => text "false"
  | .int n => (intLiteral n).toText
  | .float x => encodeFloat x
  | .str s => encodeString s
  | .list [] => text "[]"
  | .list (v :: items) => text "[" ++ v.encode ++ encodeItems items
  | .dict [] => text "\x7b\x7d"
  | .dict ((k, v) :: entries) =>
    text "\x7b" ++ encodeString k ++ text ":" ++ v.encode ++ encodeEntries entries

/-- The items after one, and the bracket. -/
def encodeItems : List Json → PyStr
  | [] => text "]"
  | v :: items => text "," ++ v.encode ++ encodeItems items

/-- The entries after one, and the brace. -/
def encodeEntries : List (PyStr × Json) → PyStr
  | [] => text "\x7d"
  | (k, v) :: entries => text "," ++ encodeString k ++ text ":" ++ v.encode ++ encodeEntries entries

end

mutual

/-- Each integer has few enough digits. -/
def Json.fits : Json → Bool
  | .int n => (Nat.toDigits 10 n.natAbs).length ≤ maxStrDigits
  | .list items => fitsItems items
  | .dict entries => fitsEntries entries
  | _ => true

/-- Each integer of the items has few enough digits. -/
def fitsItems : List Json → Bool
  | [] => true
  | v :: items => v.fits && fitsItems items

/-- Each integer of the entries has few enough digits. -/
def fitsEntries : List (PyStr × Json) → Bool
  | [] => true
  | (_, v) :: entries => v.fits && fitsEntries entries

end

mutual

/-- How deep lists and objects are nested. -/
def Json.nesting : Json → ℕ
  | .list items => nestingItems items + 1
  | .dict entries => nestingEntries entries + 1
  | _ => 0

/-- How deep they are nested in the items. -/
def nestingItems : List Json → ℕ
  | [] => 0
  | v :: items => max v.nesting (nestingItems items)

/-- How deep they are nested in the entries. -/
def nestingEntries : List (PyStr × Json) → ℕ
  | [] => 0
  | (_, v) :: entries => max v.nesting (nestingEntries entries)

end

/-- `json.dumps(v, sort_keys=True, separators=(",", ":"), ensure_ascii=False)`. It raises
`ValueError` on an integer with too many digits. -/
def dumps (v : Json) : Option PyStr := if v.fits then some v.encode else none

/-! ## The scanner -/

/-- How `json.loads` fails. -/
inductive LoadsError
  /-- `UnicodeDecodeError`. -/
  | unicodeDecodeError
  /-- `JSONDecodeError`. -/
  | jsonDecodeError
  /-- `ValueError`: an integer with too many digits. -/
  | valueError
  deriving DecidableEq

/-- The text after JSON's whitespace. -/
def skipWs (s : PyStr) : PyStr := s.dropWhile fun c => c = 0x20 ∨ c = 0x09 ∨ c = 0x0A ∨ c = 0x0D

/-- The value of a hexadecimal digit. -/
def hexValue (c : CodePoint) : Option ℕ :=
  if 48 ≤ c.val ∧ c.val ≤ 57 then some (c.val - 48)
  else if 65 ≤ c.val ∧ c.val ≤ 70 then some (c.val - 55)
  else if 97 ≤ c.val ∧ c.val ≤ 102 then some (c.val - 87)
  else none

/-- The number that four hexadecimal digits write. -/
def hex4 (a b c d : CodePoint) : Option ℕ := do
  return (← hexValue a) * 4096 + (← hexValue b) * 256 + (← hexValue c) * 16 + (← hexValue d)

/-- What a character stands for after a backslash. -/
def unescape (c : CodePoint) : Option CodePoint :=
  if c = 0x22 then some 0x22
  else if c = 0x5C then some 0x5C
  else if c = 0x2F then some 0x2F
  else if c = 0x62 then some 0x08
  else if c = 0x66 then some 0x0C
  else if c = 0x6E then some 0x0A
  else if c = 0x72 then some 0x0D
  else if c = 0x74 then some 0x09
  else none

/-- A low surrogate that is escaped where the text begins, and what comes after it. -/
def lowSurrogate : PyStr → Option (ℕ × PyStr)
  | x :: u :: a :: b :: c :: d :: s =>
    if x = 0x5C ∧ u = 0x75 then
      match hex4 a b c d with
      | some n => if 0xDC00 ≤ n ∧ n < 0xE000 then some (n, s) else none
      | none => none
    else none
  | _ => none

/-- The character that a string begins with, and what comes after it. -/
def nextChar : PyStr → Option (CodePoint × PyStr)
  | [] => none
  | c :: s =>
    if c ≠ 0x5C then if c.val < 0x20 then none else some (c, s)
    else match s with
    | [] => none
    | e :: s =>
      if e ≠ 0x75 then (unescape e).map fun c => (c, s)
      else match s with
      | a :: b :: c :: d :: s =>
        match hex4 a b c d with
        | none => none
        | some n =>
          if 0xD800 ≤ n ∧ n < 0xDC00 then
            match lowSurrogate s with
            | some (low, s) => some (codePoint (0x10000 + (n - 0xD800) * 1024 + (low - 0xDC00)), s)
            | none => some (codePoint n, s)
          else some (codePoint n, s)
      | _ => none

/-- `scanstring`, after the opening quote, within so many characters. -/
def scanStringUpTo : ℕ → PyStr → Option (PyStr × PyStr)
  | 0, _ => none
  | n + 1, s =>
    if s.head? = some 0x22 then some ([], s.drop 1)
    else match nextChar s with
    | none => none
    | some (c, s) => (scanStringUpTo n s).map fun p => (c :: p.1, p.2)

/-- `scanstring`, after the opening quote. -/
def scanString (s : PyStr) : Option (PyStr × PyStr) := scanStringUpTo s.length s

/-- The code point is a digit of ASCII. -/
def CodePoint.isDigit (c : CodePoint) : Bool := 48 ≤ c.val && c.val ≤ 57

/-- The digits that the text begins with, and what comes after them. -/
def spanDigits (s : PyStr) : List Char × PyStr :=
  ((s.takeWhile CodePoint.isDigit).map fun c => Char.ofNat c.val, s.dropWhile CodePoint.isDigit)

/-- The digits of a fraction, if the text begins with one. -/
def scanFraction : PyStr → List Char × PyStr
  | [] => ([], [])
  | c :: s => if c = 0x2E ∧ (spanDigits s).1 ≠ [] then spanDigits s else ([], c :: s)

/-- The exponent, if the text begins with one. -/
def scanExponent : PyStr → Option (Bool × List Char) × PyStr
  | [] => (none, [])
  | c :: s =>
    let digits := if s.head? = some 0x2B ∨ s.head? = some 0x2D then s.drop 1 else s
    if (c = 0x65 ∨ c = 0x45) ∧ (spanDigits digits).1 ≠ [] then
      (some (s.head? = some 0x2D, (spanDigits digits).1), (spanDigits digits).2)
    else (none, c :: s)

/-- The digits before the point: a zero, or more digits of which the first is none. -/
def scanWhole (s : PyStr) : List Char × PyStr :=
  if s.head? = some 0x30 then (['0'], s.drop 1) else spanDigits s

/-- `match_number`. -/
def scanNumber (s : PyStr) : Option (NumberLiteral × PyStr) :=
  let negative : Bool := s.head? = some 0x2D
  let whole := scanWhole (if negative then s.drop 1 else s)
  if whole.1 = [] then none
  else
    let fraction := scanFraction whole.2
    let exponent := scanExponent fraction.2
    some (⟨negative, whole.1, fraction.1, exponent.1⟩, exponent.2)

/-- A decimal literal with either sign or none, whose digits before the point or after it may be
missing: `/^[+-]?(?:(?:\d+(?:\.\d*)?)|(?:\.\d+))(?:[eE][+-]?\d+)?$/`, with what it matches. -/
def decimalLiteral (s : PyStr) : Option NumberLiteral :=
  let signed : Bool := s.head? = some 0x2B ∨ s.head? = some 0x2D
  let whole := spanDigits (if signed then s.tail else s)
  let fraction := if whole.2.head? = some 0x2E then spanDigits whole.2.tail else ([], whole.2)
  let exponent := scanExponent fraction.2
  if (whole.1 = [] ∧ fraction.1 = []) ∨ exponent.2 ≠ [] then none
  else some ⟨s.head? = some 0x2D, whole.1, fraction.1, exponent.1⟩

/-- The value of a number: a `float` if there is a fraction or an exponent. -/
def NumberLiteral.value (l : NumberLiteral) : Except LoadsError Json :=
  if l.IsFloat then .ok (.float (.ofLiteral l))
  else if maxStrDigits < l.whole.length then .error .valueError
  else
    let n := Nat.ofDigitChars 10 l.whole 0
    .ok (.int (if l.negative then -n else n))

/-- The names of constants. -/
def constants : List (PyStr × Json) :=
  [(text "null", .null), (text "true", .bool true), (text "false", .bool false),
    (text "NaN", .float .nan), (text "Infinity", .float (.infinite false)),
    (text "-Infinity", .float (.infinite true))]

/-- A constant that the text begins with, and what comes after it. -/
def scanConstant (s : PyStr) : Option (Json × PyStr) :=
  constants.findSome? fun c => if c.1 <+: s then some (c.2, s.drop c.1.length) else none

mutual

/-- `scan_once`, within so many steps. -/
def scanOnce : ℕ → PyStr → Except LoadsError (Json × PyStr)
  | 0, _ => .error .jsonDecodeError
  | _ + 1, [] => .error .jsonDecodeError
  | n + 1, c :: s =>
    if c = 0x22 then
      match scanString s with
      | some (value, s) => .ok (.str value, s)
      | none => .error .jsonDecodeError
    else if c = 0x5B then
      if (skipWs s).head? = some 0x5D then .ok (.list [], (skipWs s).drop 1)
      else (scanArray n (skipWs s)).map fun p => (.list p.1, p.2)
    else if c = 0x7B then
      if (skipWs s).head? = some 0x7D then .ok (.dict [], (skipWs s).drop 1)
      else (scanObject n (skipWs s)).map fun p => (.dict (ofPairs p.1), p.2)
    else
      match scanConstant (c :: s) with
      | some p => .ok p
      | none =>
        match scanNumber (c :: s) with
        | some (l, s) => l.value.map fun v => (v, s)
        | none => .error .jsonDecodeError

/-- The items of a list from one on, and the text after the bracket. -/
def scanArray : ℕ → PyStr → Except LoadsError (List Json × PyStr)
  | 0, _ => .error .jsonDecodeError
  | n + 1, s =>
    match scanOnce n s with
    | .error e => .error e
    | .ok (v, s) =>
      match skipWs s with
      | [] => .error .jsonDecodeError
      | c :: s =>
        if c = 0x5D then .ok ([v], s)
        else if c = 0x2C then (scanArray n (skipWs s)).map fun p => (v :: p.1, p.2)
        else .error .jsonDecodeError

/-- The entries of an object from one on, and the text after the brace. -/
def scanObject : ℕ → PyStr → Except LoadsError (List (PyStr × Json) × PyStr)
  | 0, _ => .error .jsonDecodeError
  | _ + 1, [] => .error .jsonDecodeError
  | n + 1, q :: s =>
    if q ≠ 0x22 then .error .jsonDecodeError
    else match scanString s with
    | none => .error .jsonDecodeError
    | some (k, s) =>
      match skipWs s with
      | [] => .error .jsonDecodeError
      | colon :: s =>
        if colon ≠ 0x3A then .error .jsonDecodeError
        else match scanOnce n (skipWs s) with
        | .error e => .error e
        | .ok (v, s) =>
          match skipWs s with
          | [] => .error .jsonDecodeError
          | c :: s =>
            if c = 0x7D then .ok ([(k, v)], s)
            else if c = 0x2C then (scanObject n (skipWs s)).map fun p => ((k, v) :: p.1, p.2)
            else .error .jsonDecodeError

end

/-- `JSONDecoder.decode`. -/
def decodeText (s : PyStr) : Except LoadsError Json :=
  match scanOnce (2 * s.length + 1) (skipWs s) with
  | .error e => .error e
  | .ok (v, rest) => if skipWs rest = [] then .ok v else .error .jsonDecodeError

/-- `json.loads` of octets. -/
def loads (bytes : List Byte) : Except LoadsError Json :=
  match decode bytes (detectEncoding bytes) with
  | none => .error .unicodeDecodeError
  | some s => decodeText s

/-- `json.loads` of a string. A byte order mark is refused. -/
def loadsStr (s : PyStr) : Except LoadsError Json :=
  if s.head? = some 0xFEFF then .error .jsonDecodeError else decodeText s

/-- `bool(value)`. -/
def Json.truthy : Json → Bool
  | .null => false
  | .bool b => b
  | .int n => n ≠ 0
  | .float (.finite _ bits) => bits.val ≠ 0
  | .float _ => true
  | .str s => s ≠ []
  | .list items => !items.isEmpty
  | .dict entries => !entries.isEmpty

end MarketDataGateway.Lib
