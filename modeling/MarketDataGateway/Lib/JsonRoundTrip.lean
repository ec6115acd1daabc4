import MarketDataGateway.Lib.Json

/-!
# What is encoded is scanned back

`readsBack` reads the text of a value back, whatever text follows that does not go on with a number,
and `loads_line` is the round trip through the octets of a line. A text has no control characters
(`printable_encode`), so that a newline ends it.

The proofs follow the text: a character of a string (`writes_escapeChar`), the parts of a number
(`scanNumber_toText`), and then the value, by induction on it.
-/

namespace MarketDataGateway.Lib

/-! ## Strings -/

section Strings

variable {c : CodePoint} {s rest : PyStr} {n : ℕ}

/-- The text is read as the character, and not as the end of a string. -/
structure Writes (written : PyStr) (c : CodePoint) : Prop where
  next : ∀ rest, nextChar (written ++ rest) = some (c, rest)
  head : ∃ d t, written = d :: t ∧ d ≠ 0x22

/-- A backslash and one more character are read back, if that character stands for this one. -/
theorem writes_simple {written : PyStr} (e : CodePoint) (ht : written = [0x5C, e]) (he : e ≠ 0x75)
    (hc : unescape e = some c) : Writes written c := by
  subst ht
  refine ⟨fun rest => ?_, 0x5C, [e], rfl, by decide⟩
  simp only [List.cons_append, List.nil_append, nextChar]
  rw [if_neg (by decide), if_pos he, hc]
  rfl

/-- The four digits of a control character. -/
theorem hex4_control {v : ℕ} (h : v < 0x20) :
    hex4 0x30 0x30 (hexDigit (v / 16)) (hexDigit (v % 16)) = some v := by
  revert v
  decide

/-- A control character is read back from its four hexadecimal digits. -/
theorem writes_control (h : c.val < 0x20) :
    Writes (text "\\u00" ++ [hexDigit (c.val / 16), hexDigit (c.val % 16)]) c := by
  have htext : text "\\u00" = [0x5C, 0x75, 0x30, 0x30] := by decide
  rw [htext]
  refine ⟨fun rest => ?_, 0x5C, _, rfl, by decide⟩
  simp only [List.cons_append, List.nil_append, nextChar]
  rw [if_neg (by decide), if_neg (by decide), hex4_control h]
  dsimp only
  rw [if_neg (by omega), codePoint_val]

/-- What is written for a character is read back as the character. -/
theorem writes_escapeChar (c : CodePoint) : Writes (escapeChar c) c := by
  unfold escapeChar
  split_ifs with h1 h2 h3 h4 h5 h6 h7 h8
  · exact writes_simple 0x22 (by decide) (by decide) (by rw [h1]; rfl)
  · exact writes_simple 0x5C (by decide) (by decide) (by rw [h2]; rfl)
  · exact writes_simple 0x62 (by decide) (by decide) (by rw [h3]; rfl)
  · exact writes_simple 0x66 (by decide) (by decide) (by rw [h4]; rfl)
  · exact writes_simple 0x6E (by decide) (by decide) (by rw [h5]; rfl)
  · exact writes_simple 0x72 (by decide) (by decide) (by rw [h6]; rfl)
  · exact writes_simple 0x74 (by decide) (by decide) (by rw [h7]; rfl)
  · exact writes_control h8
  · refine ⟨fun rest => ?_, c, [], rfl, h1⟩
    simp only [List.cons_append, List.nil_append, nextChar]
    rw [if_pos h2, if_neg h8]

/-- A string is read back, up to its closing quote. -/
theorem scanStringUpTo_escape (hn : (s.flatMap escapeChar).length < n) :
    scanStringUpTo n (s.flatMap escapeChar ++ 0x22 :: rest) = some (s, rest) := by
  induction s generalizing n with
  | nil =>
    obtain ⟨m, rfl⟩ : ∃ m, n = m + 1 := ⟨n - 1, by omega⟩
    rfl
  | cons c s ih =>
    obtain ⟨hnext, d, t, hcons, hd⟩ := writes_escapeChar c
    rw [List.flatMap_cons, List.length_append] at hn
    obtain ⟨m, rfl⟩ : ∃ m, n = m + 1 := ⟨n - 1, by omega⟩
    have hlength : 0 < (escapeChar c).length := by
      rw [hcons]
      exact Nat.succ_pos _
    have hhead : (escapeChar c ++ (s.flatMap escapeChar ++ 0x22 :: rest)).head? ≠ some 0x22 := by
      rw [hcons]
      exact fun h => hd (Option.some.inj h)
    rw [List.flatMap_cons, List.append_assoc, scanStringUpTo, if_neg hhead, hnext]
    dsimp only
    rw [ih (by omega)]
    rfl

/-- `scanstring` reads the characters of `encodeString` back. -/
theorem scanString_escape :
    scanString (s.flatMap escapeChar ++ 0x22 :: rest) = some (s, rest) := by
  refine scanStringUpTo_escape ?_
  rw [List.length_append, List.length_cons]
  omega

end Strings

/-! ## Numbers -/

section Numbers

variable {digits : List Char} {rest s : PyStr} {l : NumberLiteral}

/-- The text does not begin with a digit. -/
def NoDigit (s : PyStr) : Prop := ∀ c ∈ s.head?, c.isDigit = false

/-- The text does not go on with a number. -/
structure Stops (s : PyStr) : Prop where
  digit : NoDigit s
  point : s.head? ≠ some 0x2E
  exponent : s.head? ≠ some 0x65 ∧ s.head? ≠ some 0x45

/-- A character of ASCII keeps its number as a code point. -/
theorem ofChar_val (c : Char) : (CodePoint.ofChar c).val = c.toNat := by
  have hlt : c.toNat < 0x110000 := by
    have hvalid : c.toNat.isValidChar := c.valid
    unfold Nat.isValidChar at hvalid
    omega
  exact Nat.mod_eq_of_lt hlt

/-- A character is a digit where its code point is one. -/
theorem isDigit_ofChar (c : Char) : (CodePoint.ofChar c).isDigit = c.isDigit := by
  unfold CodePoint.isDigit Char.isDigit
  rw [ofChar_val]
  rfl

/-- The character of a code point that comes from a character is that character. -/
theorem ofNat_ofChar (c : Char) : Char.ofNat (CodePoint.ofChar c).val = c := by
  rw [ofChar_val]
  exact Char.ofNat_toNat c

/-- Different strings are different texts. -/
theorem text_injective : Function.Injective text := by
  have hchar : Function.Injective CodePoint.ofChar := by
    intro c d h
    calc c = Char.ofNat (CodePoint.ofChar c).val := (ofNat_ofChar c).symm
      _ = Char.ofNat (CodePoint.ofChar d).val := by rw [h]
      _ = d := ofNat_ofChar d
  intro s t h
  exact String.toList_inj.1 (List.map_injective_iff.2 hchar h)

/-- Digits are read up to the text after them. -/
theorem spanDigits_append (hd : ∀ c ∈ digits, c.isDigit = true) (hrest : NoDigit rest) :
    spanDigits (digits.map CodePoint.ofChar ++ rest) = (digits, rest) := by
  have hall : ∀ c ∈ digits.map CodePoint.ofChar, c.isDigit = true := by
    intro c hc
    obtain ⟨d, hmem, rfl⟩ := List.mem_map.1 hc
    exact (isDigit_ofChar d).trans (hd d hmem)
  have hstop : rest.takeWhile CodePoint.isDigit = [] ∧ rest.dropWhile CodePoint.isDigit = rest := by
    cases rest with
    | nil => exact ⟨rfl, rfl⟩
    | cons c rest =>
      have hc : c.isDigit = false := hrest c rfl
      constructor
      · rw [List.takeWhile_cons, hc]
        rfl
      · rw [List.dropWhile_cons, hc]
        rfl
  have hback : (digits.map CodePoint.ofChar).map (fun c => Char.ofNat c.val) = digits := by
    rw [List.map_map]
    calc digits.map _ = digits.map id := List.map_congr_left fun c _ => ofNat_ofChar c
      _ = digits := List.map_id digits
  unfold spanDigits
  rw [List.takeWhile_append_of_pos hall, List.dropWhile_append_of_pos hall, hstop.1, hstop.2,
    List.append_nil, hback]

/-- The digits after the point are scanned up to what is no digit. -/
theorem scanFraction_append (hd : ∀ c ∈ digits, c.isDigit = true) (hrest : NoDigit rest)
    (hpoint : rest.head? ≠ some 0x2E) :
    scanFraction ((if digits = [] then [] else text "." ++ digits.map CodePoint.ofChar) ++ rest) =
      (digits, rest) := by
  split_ifs with hempty
  · rw [List.nil_append, hempty]
    cases rest with
    | nil => rfl
    | cons c rest =>
      have hc : c ≠ 0x2E := fun h => hpoint (congrArg some h)
      rw [scanFraction, if_neg fun h => hc h.1]
  · have hpoint : text "." = [0x2E] := by decide
    have hspan := spanDigits_append hd hrest
    rw [hpoint, List.append_assoc, List.cons_append, List.nil_append, scanFraction, hspan,
      if_pos ⟨rfl, hempty⟩]

/-- The text of an exponent. -/
def exponentText : Option (Bool × List Char) → PyStr
  | none => []
  | some (negative, digits) =>
    text "e" ++ text (if negative then "-" else "+") ++ digits.map CodePoint.ofChar

/-- An exponent with a sign is scanned with the digits that follow. -/
theorem scanExponent_sign {a b : CodePoint} (ha : a = 0x65 ∨ a = 0x45) (hb : b = 0x2B ∨ b = 0x2D)
    (hne : (spanDigits s).1 ≠ []) :
    scanExponent (a :: b :: s) =
      (some (decide (b = 0x2D), (spanDigits s).1), (spanDigits s).2) := by
  have hsign : (b :: s).head? = some 0x2B ∨ (b :: s).head? = some 0x2D :=
    hb.imp (congrArg some) (congrArg some)
  have hminus : decide ((b :: s).head? = some 0x2D) = decide (b = 0x2D) :=
    decide_eq_decide.2 ⟨Option.some.inj, congrArg some⟩
  unfold scanExponent
  dsimp only
  rw [if_pos hsign, List.drop_one, List.tail_cons, if_pos ⟨ha, hne⟩, hminus]

/-- What is written of an exponent is scanned back. -/
theorem scanExponent_append {exponent : Option (Bool × List Char)}
    (he : ∀ e ∈ exponent, e.2 ≠ [] ∧ ∀ c ∈ e.2, c.isDigit = true) (hrest : Stops rest) :
    scanExponent (exponentText exponent ++ rest) = (exponent, rest) := by
  cases exponent with
  | none =>
    rw [exponentText, List.nil_append]
    cases rest with
    | nil => rfl
    | cons c rest =>
      have hc : ¬ (c = 0x65 ∨ c = 0x45) := fun h =>
        h.elim (fun h => hrest.exponent.1 (congrArg some h)) fun h =>
          hrest.exponent.2 (congrArg some h)
      rw [scanExponent, if_neg fun h => hc h.1]
  | some e =>
    obtain ⟨negative, digits⟩ := e
    obtain ⟨hne, hd⟩ := he _ rfl
    have hspan := spanDigits_append hd hrest.digit
    have hscan (b : CodePoint) (hb : b = 0x2B ∨ b = 0x2D) :
        scanExponent (0x65 :: b :: (digits.map CodePoint.ofChar ++ rest)) =
          (some (decide (b = 0x2D), digits), rest) := by
      rw [scanExponent_sign (Or.inl rfl) hb (by rw [hspan]; exact hne), hspan]
    cases negative with
    | true => exact hscan 0x2D (Or.inr rfl)
    | false => exact hscan 0x2B (Or.inl rfl)

/-- The digits before the point are scanned up to what is no digit. -/
theorem scanWhole_append (hwhole : digits ≠ [] ∧ ∀ c ∈ digits, c.isDigit = true)
    (hleading : digits = ['0'] ∨ digits.head? ≠ some '0') (hrest : NoDigit rest) :
    scanWhole (digits.map CodePoint.ofChar ++ rest) = (digits, rest) := by
  unfold scanWhole
  rcases hleading with rfl | hleading
  · rfl
  · have hzero : (digits.map CodePoint.ofChar ++ rest).head? ≠ some 0x30 := by
      obtain ⟨d, ds, rfl⟩ := List.exists_cons_of_ne_nil hwhole.1
      intro h
      have hd : CodePoint.ofChar d = 0x30 := Option.some.inj h
      have hback := ofNat_ofChar d
      rw [hd] at hback
      exact hleading (congrArg some hback.symm)
    rw [if_neg hzero]
    exact spanDigits_append hwhole.2 hrest

/-- A number is written as its sign, its whole part, its fraction and its exponent. -/
theorem toText_eq (l : NumberLiteral) :
    l.toText = (if l.negative then text "-" else []) ++ (l.whole.map CodePoint.ofChar ++
      ((if l.fraction = [] then [] else text "." ++ l.fraction.map CodePoint.ofChar) ++
        exponentText l.exponent)) := by
  unfold NumberLiteral.toText
  rw [List.append_assoc, List.append_assoc]
  rfl

/-- No digit and no point come after the fraction of a number. -/
theorem noDigit_exponentText {exponent : Option (Bool × List Char)} (h : Stops rest) :
    NoDigit (exponentText exponent ++ rest) ∧
    (exponentText exponent ++ rest).head? ≠ some 0x2E := by
  cases exponent with
  | none => exact ⟨h.digit, h.point⟩
  | some e =>
    refine ⟨fun c hc => ?_, fun hc => ?_⟩
    · obtain rfl : 0x65 = c := Option.some.inj hc
      rfl
    · exact absurd (Option.some.inj hc) (by decide)

/-- No digit comes after the whole part of a number. -/
theorem noDigit_fractionText (hrest : NoDigit rest) :
    NoDigit ((if digits = [] then [] else text "." ++ digits.map CodePoint.ofChar) ++ rest) := by
  split_ifs
  · exact hrest
  · intro c hc
    obtain rfl : 0x2E = c := Option.some.inj hc
    rfl

/-- The digits that a number begins with, after its sign. -/
theorem head_whole (h : l.WellFormed) : ∃ d t, l.whole.map CodePoint.ofChar = d :: t ∧
    d.isDigit = true := by
  obtain ⟨hne, hd⟩ := h.whole
  obtain ⟨d, ds, heq⟩ := List.exists_cons_of_ne_nil hne
  rw [heq] at hd ⊢
  exact ⟨_, _, rfl, (isDigit_ofChar d).trans (hd d List.mem_cons_self)⟩

/-- `match_number` reads a literal back. -/
theorem scanNumber_toText (h : l.WellFormed) (hrest : Stops rest) :
    scanNumber (l.toText ++ rest) = some (l, rest) := by
  obtain ⟨hdigit, hpoint⟩ := @noDigit_exponentText rest l.exponent hrest
  -- The parts are read back from the last to the first: each stops where the next begins.
  have hexponent := scanExponent_append h.exponent hrest
  have hfraction := scanFraction_append h.fraction hdigit hpoint
  have hwhole := scanWhole_append h.whole h.leading (@noDigit_fractionText l.fraction _ hdigit)
  obtain ⟨d, t, hhead, hd⟩ := head_whole h
  have hne : d ≠ 0x2D := by
    rintro rfl
    exact absurd hd (by decide)
  have htext : l.toText ++ rest = (if l.negative then text "-" else []) ++
      (l.whole.map CodePoint.ofChar ++ ((if l.fraction = [] then [] else text "." ++
        l.fraction.map CodePoint.ofChar) ++ (exponentText l.exponent ++ rest))) := by
    rw [toText_eq]
    simp only [List.append_assoc]
  -- The text begins with a minus if it has one, for a digit is none.
  have hsign : decide ((l.toText ++ rest).head? = some 0x2D) = l.negative := by
    rw [htext, hhead]
    cases l.negative with
    | true => rfl
    | false => exact decide_eq_false fun h => hne (Option.some.inj h)
  have hafter : (if l.negative then (l.toText ++ rest).drop 1 else l.toText ++ rest) =
      l.whole.map CodePoint.ofChar ++ ((if l.fraction = [] then [] else text "." ++
        l.fraction.map CodePoint.ofChar) ++ (exponentText l.exponent ++ rest)) := by
    rw [htext]
    cases l.negative <;> rfl
  unfold scanNumber
  dsimp only
  rw [hsign, hafter, hwhole]
  dsimp only
  rw [if_neg h.whole.1, hfraction]
  dsimp only
  rw [hexponent]

end Numbers

/-! ## Values -/

section Values

variable {rest s : PyStr} {l : NumberLiteral} {n : ℕ} {v : Json}

/-- The names of the constants, character by character. -/
theorem constants_eq : constants =
    [([0x6E, 0x75, 0x6C, 0x6C], .null), ([0x74, 0x72, 0x75, 0x65], .bool true),
      ([0x66, 0x61, 0x6C, 0x73, 0x65], .bool false), ([0x4E, 0x61, 0x4E], .float .nan),
      ([0x49, 0x6E, 0x66, 0x69, 0x6E, 0x69, 0x74, 0x79], .float (.infinite false)),
      ([0x2D, 0x49, 0x6E, 0x66, 0x69, 0x6E, 0x69, 0x74, 0x79], .float (.infinite true))] := by
  rfl

/-- The text of a number is not that of a constant. -/
theorem scanConstant_number (h : l.WellFormed) : scanConstant (l.toText ++ rest) = none := by
  obtain ⟨d, t, hhead, hd⟩ := head_whole h
  have hne (c : CodePoint) (hc : c.isDigit = false) : c ≠ d := by
    rintro rfl
    exact absurd (hc.symm.trans hd) Bool.false_ne_true
  have htext : l.toText ++ rest = (if l.negative then text "-" else []) ++ (d :: (t ++
      ((if l.fraction = [] then [] else text "." ++ l.fraction.map CodePoint.ofChar) ++
        (exponentText l.exponent ++ rest)))) := by
    rw [toText_eq, hhead]
    simp only [List.append_assoc, List.cons_append]
  have hminus : text "-" = [0x2D] := by decide
  rw [htext, hminus]
  unfold scanConstant
  rw [constants_eq]
  cases l.negative <;>
    simp [List.cons_prefix_cons, hne 0x6E rfl, hne 0x74 rfl, hne 0x66 rfl, hne 0x4E rfl,
      hne 0x49 rfl, hne 0x2D rfl]

/-- The text of a number is scanned as a number. -/
theorem scanOnce_number (h : l.WellFormed) (hrest : Stops rest) :
    scanOnce (n + 1) (l.toText ++ rest) = l.value.map fun v => (v, rest) := by
  obtain ⟨d, t, hhead, hd⟩ := head_whole h
  have hconstant := @scanConstant_number rest l h
  have hnumber := scanNumber_toText h hrest
  obtain ⟨c, t', hcons, hc⟩ : ∃ c t', l.toText ++ rest = c :: t' ∧
      (c = 0x2D ∨ c.isDigit = true) := by
    rw [toText_eq, hhead]
    cases l.negative with
    | true => exact ⟨0x2D, _, rfl, Or.inl rfl⟩
    | false => exact ⟨d, _, rfl, Or.inr hd⟩
  have hne (b : CodePoint) (hb : b ≠ 0x2D ∧ b.isDigit = false) : c ≠ b := by
    rintro rfl
    rcases hc with hc | hc
    · exact hb.1 hc
    · exact absurd (hb.2.symm.trans hc) Bool.false_ne_true
  rw [hcons] at hconstant hnumber ⊢
  rw [scanOnce, if_neg (hne 0x22 (by decide)), if_neg (hne 0x5B (by decide)),
    if_neg (hne 0x7B (by decide)), hconstant]
  dsimp only
  rw [hnumber]

/-- A constant is read back. -/
theorem scanOnce_constant {c : PyStr × Json} (hc : c ∈ constants) :
    scanOnce (n + 1) (c.1 ++ rest) = .ok (c.2, rest) := by
  rw [constants_eq] at hc
  simp only [List.mem_cons, List.not_mem_nil, or_false] at hc
  rcases hc with rfl | rfl | rfl | rfl | rfl | rfl
  all_goals rfl

/-- The text of a value is read back, whatever comes after it. -/
def ReadsBack (v : Json) : Prop :=
  ∀ n rest, 2 * v.encode.length + 1 ≤ n → Stops rest →
    scanOnce n (v.encode ++ rest) = .ok (v, rest)

/-- A constant is read back. -/
theorem readsBack_constant (h : (v.encode, v) ∈ constants) : ReadsBack v := by
  intro n rest hn _
  obtain ⟨m, rfl⟩ : ∃ m, n = m + 1 := ⟨n - 1, by omega⟩
  exact scanOnce_constant h

/-- A number is read back, if its text is that of a well-formed literal of its value. -/
theorem readsBack_number (h : l.WellFormed) (htext : v.encode = l.toText) (hv : l.value = .ok v) :
    ReadsBack v := by
  intro n rest hn hrest
  obtain ⟨m, rfl⟩ : ∃ m, n = m + 1 := ⟨n - 1, by omega⟩
  rw [htext, scanOnce_number h hrest, hv]
  rfl

/-- The literal of an integer is well formed. -/
theorem wellFormed_intLiteral (z : ℤ) : (intLiteral z).WellFormed := by
  have hd : ∀ c ∈ Nat.toDigits 10 z.natAbs, c.isDigit = true := fun c hc =>
    Nat.isDigit_of_mem_toDigits (by decide) (by decide) hc
  have hleading : Nat.toDigits 10 z.natAbs = ['0'] ∨
      (Nat.toDigits 10 z.natAbs).head? ≠ some '0' := by
    rcases Nat.eq_zero_or_pos z.natAbs with hz | hz
    · rw [hz]
      exact Or.inl rfl
    · exact Or.inr (head?_toDigits hz)
  exact ⟨⟨Nat.toDigits_ne_nil, hd⟩, hleading, by simp [intLiteral], by simp [intLiteral]⟩

/-- An integer of at most 4300 digits is read back. -/
theorem readsBack_int {z : ℤ} (hfits : (Json.int z).fits = true) : ReadsBack (.int z) := by
  refine readsBack_number (wellFormed_intLiteral z) rfl ?_
  have hint : ¬ (intLiteral z).IsFloat := by simp [NumberLiteral.IsFloat, intLiteral]
  have hmax : ¬ maxStrDigits < (intLiteral z).whole.length := by
    rw [Json.fits] at hfits
    exact not_lt.2 (of_decide_eq_true hfits)
  have hnegative : (intLiteral z).negative = true ↔ z < 0 := decide_eq_true_iff
  have hwhole : Nat.ofDigitChars 10 (intLiteral z).whole 0 = z.natAbs :=
    Nat.ofDigitChars_ten_toDigits
  unfold NumberLiteral.value
  rw [if_neg hint, if_neg hmax]
  dsimp only
  rw [hwhole]
  congr 2
  split_ifs with hneg
  · have hlt := hnegative.1 hneg
    omega
  · have hle := mt hnegative.2 hneg
    omega

/-- A float is read back. -/
theorem readsBack_float (x : Binary64) : ReadsBack (.float x) := by
  cases x with
  | finite negative bits =>
    obtain ⟨hwell, hfloat⟩ := wellFormed_literal negative bits.val
    refine readsBack_number hwell rfl ?_
    unfold NumberLiteral.value
    rw [if_pos hfloat, ofLiteral_literal]
  | infinite negative =>
    cases negative
    · exact readsBack_constant (by simp [constants, Json.encode, encodeFloat])
    · exact readsBack_constant (by simp [constants, Json.encode, encodeFloat])
  | nan => exact readsBack_constant (by simp [constants, Json.encode, encodeFloat])

/-- A string is written between quotation marks. -/
theorem encodeString_eq (s : PyStr) :
    encodeString s = 0x22 :: (s.flatMap escapeChar ++ [0x22]) := by
  have hquote : text "\"" = [0x22] := by decide
  unfold encodeString
  rw [hquote]
  rfl

/-- A string is read back. -/
theorem readsBack_str (s : PyStr) : ReadsBack (.str s) := by
  intro n rest hn _
  obtain ⟨m, rfl⟩ : ∃ m, n = m + 1 := ⟨n - 1, by omega⟩
  rw [Json.encode, encodeString_eq, List.cons_append, List.append_assoc, List.cons_append,
    List.nil_append, scanOnce, if_pos rfl, scanString_escape]

/-- The text is not whitespace where it begins, and does not close a list or an object there. -/
def Opens (s : PyStr) : Prop :=
  ∃ c t, s = c :: t ∧ c ≠ 0x20 ∧ c ≠ 0x09 ∧ c ≠ 0x0A ∧ c ≠ 0x0D ∧ c ≠ 0x5D ∧ c ≠ 0x7D

/-- What opens a value still opens it if more follows. -/
theorem Opens.append (h : Opens s) (rest : PyStr) : Opens (s ++ rest) := by
  obtain ⟨c, t, rfl, hc⟩ := h
  exact ⟨c, t ++ rest, rfl, hc⟩

/-- No spaces stand before what opens a value. -/
theorem Opens.skipWs (h : Opens s) : skipWs s = s := by
  obtain ⟨c, t, rfl, h1, h2, h3, h4, -⟩ := h
  unfold Lib.skipWs
  rw [List.dropWhile_cons, if_neg (by simp [h1, h2, h3, h4])]

/-- What opens a value closes no list and no object. -/
theorem Opens.head?_ne (h : Opens s) : s.head? ≠ some 0x5D ∧ s.head? ≠ some 0x7D := by
  obtain ⟨c, t, rfl, -, -, -, -, hbracket, hbrace⟩ := h
  exact ⟨fun h => hbracket (Option.some.inj h), fun h => hbrace (Option.some.inj h)⟩

/-- The text of a number opens a value. -/
theorem opens_toText (h : l.WellFormed) : Opens l.toText := by
  obtain ⟨d, t, hhead, hd⟩ := head_whole h
  have hne (b : CodePoint) (hb : b.isDigit = false) : d ≠ b := by
    rintro rfl
    exact absurd (hb.symm.trans hd) Bool.false_ne_true
  rw [toText_eq, hhead]
  cases l.negative with
  | true => exact ⟨0x2D, _, rfl, by decide⟩
  | false => exact ⟨d, _, rfl, hne _ rfl, hne _ rfl, hne _ rfl, hne _ rfl, hne _ rfl, hne _ rfl⟩

/-- The text of a value is not empty, and it does not begin like what may come after one. -/
theorem opens_encode (v : Json) : Opens v.encode := by
  have hcons {c : CodePoint} {t : PyStr} (h : v.encode = c :: t)
      (hc : c ≠ 0x20 ∧ c ≠ 0x09 ∧ c ≠ 0x0A ∧ c ≠ 0x0D ∧ c ≠ 0x5D ∧ c ≠ 0x7D) :
      Opens v.encode := ⟨c, t, h, hc⟩
  cases v with
  | null => exact hcons rfl (by decide)
  | bool b => cases b <;> exact hcons rfl (by decide)
  | int z => exact opens_toText (wellFormed_intLiteral z)
  | float x =>
    cases x with
    | finite negative bits => exact opens_toText (wellFormed_literal negative bits.val).1
    | infinite negative => cases negative <;> exact hcons rfl (by decide)
    | nan => exact hcons rfl (by decide)
  | str s => exact hcons (encodeString_eq s) (by decide)
  | list items =>
    cases items with
    | nil => exact hcons rfl (by decide)
    | cons v items => exact hcons rfl (by decide)
  | dict entries =>
    cases entries with
    | nil => exact hcons rfl (by decide)
    | cons e entries => exact hcons rfl (by decide)

/-- The text goes on after a value with a comma, or the end of what holds it. -/
theorem stops_cons {c : CodePoint} {t : PyStr} (hd : c.isDigit = false)
    (hc : c ≠ 0x2E ∧ c ≠ 0x65 ∧ c ≠ 0x45) : Stops (c :: t) where
  digit := fun b hb => by
    obtain rfl : c = b := Option.some.inj hb
    exact hd
  point h := hc.1 (Option.some.inj h)
  exponent := ⟨fun h => hc.2.1 (Option.some.inj h), fun h => hc.2.2 (Option.some.inj h)⟩

/-- A number stops at the end of the text. -/
theorem stops_nil : Stops [] where
  digit c hc := by cases hc
  point := by decide
  exponent := by decide

/-- Nothing is skipped before a character that is no space. -/
theorem skipWs_cons {c : CodePoint} {t : PyStr}
    (hc : c ≠ 0x20 ∧ c ≠ 0x09 ∧ c ≠ 0x0A ∧ c ≠ 0x0D) : skipWs (c :: t) = c :: t := by
  obtain ⟨h1, h2, h3, h4⟩ := hc
  unfold skipWs
  rw [List.dropWhile_cons, if_neg (by simp [h1, h2, h3, h4])]

/-- The items of a list are read back. -/
theorem scanArray_encode {items : List Json} (hv : ReadsBack v) (h : ∀ w ∈ items, ReadsBack w)
    (hn : 2 * (v.encode.length + (encodeItems items).length) + 2 ≤ n) :
    scanArray n (v.encode ++ (encodeItems items ++ rest)) = .ok (v :: items, rest) := by
  obtain ⟨m, rfl⟩ : ∃ m, n = m + 1 := ⟨n - 1, by omega⟩
  -- With each item the text becomes shorter, by at least as much as the fuel does.
  induction items generalizing v m with
  | nil =>
    have hstops : Stops (0x5D :: rest) := stops_cons rfl (by decide)
    have htext : encodeItems [] ++ rest = 0x5D :: rest := rfl
    rw [htext, scanArray, hv m _ (by omega) hstops]
    dsimp only
    rw [skipWs_cons (by decide)]
    dsimp only
    rw [if_pos rfl]
  | cons w items ih =>
    have htext : encodeItems (w :: items) ++ rest =
        0x2C :: (w.encode ++ (encodeItems items ++ rest)) := by
      rw [encodeItems, List.append_assoc, List.append_assoc]
      rfl
    have hlength : (encodeItems (w :: items)).length =
        1 + w.encode.length + (encodeItems items).length := by
      rw [encodeItems, List.length_append, List.length_append]
      rfl
    have hstops : Stops (0x2C :: (w.encode ++ (encodeItems items ++ rest))) :=
      stops_cons rfl (by decide)
    rw [htext, scanArray, hv m _ (by omega) hstops]
    dsimp only
    obtain ⟨k, rfl⟩ : ∃ k, m = k + 1 := ⟨m - 1, by omega⟩
    rw [skipWs_cons (by decide)]
    dsimp only
    rw [if_neg (by decide), if_pos rfl, ((opens_encode w).append _).skipWs,
      ih (h w List.mem_cons_self) (fun w' hw' => h w' (List.mem_cons_of_mem w hw')) k (by omega)]
    rfl

/-- The key of an entry is read, and then its value. -/
theorem scanObject_key {k t : PyStr} (hv : scanOnce n (v.encode ++ t) = .ok (v, t)) :
    scanObject (n + 1) (encodeString k ++ (0x3A :: (v.encode ++ t))) =
      match skipWs t with
      | [] => .error .jsonDecodeError
      | c :: s =>
        if c = 0x7D then .ok ([(k, v)], s)
        else if c = 0x2C then (scanObject n (skipWs s)).map fun p => ((k, v) :: p.1, p.2)
        else .error .jsonDecodeError := by
  have hstring (t : PyStr) : encodeString k ++ t = 0x22 :: (k.flatMap escapeChar ++ 0x22 :: t) := by
    rw [encodeString_eq, List.cons_append, List.append_assoc]
    rfl
  rw [hstring, scanObject, if_neg (by decide), scanString_escape]
  dsimp only
  rw [skipWs_cons (by decide)]
  dsimp only
  rw [if_neg (by decide), ((opens_encode v).append t).skipWs]
  rewrite [hv]
  rfl

/-- The entries of an object are read back. -/
theorem scanObject_encode {entries : List (PyStr × Json)} {k : PyStr} (hv : ReadsBack v)
    (h : ∀ e ∈ entries, ReadsBack e.2)
    (hn : 2 * ((encodeString k).length + v.encode.length + (encodeEntries entries).length) + 2 ≤
      n) :
    scanObject n (encodeString k ++ (0x3A :: (v.encode ++ (encodeEntries entries ++ rest)))) =
      .ok ((k, v) :: entries, rest) := by
  obtain ⟨m, rfl⟩ : ∃ m, n = m + 1 := ⟨n - 1, by omega⟩
  induction entries generalizing k v m with
  | nil =>
    have hstops : Stops (0x7D :: rest) := stops_cons rfl (by decide)
    have htext : encodeEntries [] ++ rest = 0x7D :: rest := rfl
    rw [htext, scanObject_key (hv m _ (by omega) hstops), skipWs_cons (by decide)]
    dsimp only
    rw [if_pos rfl]
  -- A comma goes before the next entry, which the scanner takes as it took this one.
  | cons e entries ih =>
    obtain ⟨k', w⟩ := e
    have htext : encodeEntries ((k', w) :: entries) ++ rest =
        0x2C :: (encodeString k' ++ (0x3A :: (w.encode ++ (encodeEntries entries ++ rest)))) := by
      rw [encodeEntries]
      simp only [List.append_assoc]
      rfl
    have hlength : (encodeEntries ((k', w) :: entries)).length =
        2 + (encodeString k').length + w.encode.length + (encodeEntries entries).length := by
      have hone : (text ",").length = 1 ∧ (text ":").length = 1 := by decide
      rw [encodeEntries]
      simp only [List.length_append, hone]
      omega
    have hstops : Stops (0x2C :: (encodeString k' ++ (0x3A :: (w.encode ++
        (encodeEntries entries ++ rest))))) := stops_cons rfl (by decide)
    have hopens : Opens (encodeString k' ++ (0x3A :: (w.encode ++
        (encodeEntries entries ++ rest)))) :=
      ⟨0x22, _, by rw [encodeString_eq]; rfl, by decide⟩
    obtain ⟨j, rfl⟩ : ∃ j, m = j + 1 := ⟨m - 1, by omega⟩
    have hw : ReadsBack w := h (k', w) List.mem_cons_self
    rw [htext, scanObject_key (hv (j + 1) _ (by omega) hstops), skipWs_cons (by decide)]
    dsimp only
    rw [if_neg (by decide), if_pos rfl, hopens.skipWs,
      ih hw (fun e he => h e (List.mem_cons_of_mem _ he)) j (by omega)]
    rfl

/-- All integers of a list fit if those of each item do. -/
theorem fitsItems_iff {items : List Json} :
    fitsItems items = true ↔ ∀ v ∈ items, v.fits = true := by
  induction items with
  | nil => simp [fitsItems]
  | cons v items ih => rw [fitsItems, Bool.and_eq_true, ih, List.forall_mem_cons]

/-- All integers of an object fit if those of each value do. -/
theorem fitsEntries_iff {entries : List (PyStr × Json)} :
    fitsEntries entries = true ↔ ∀ e ∈ entries, e.2.fits = true := by
  induction entries with
  | nil => simp [fitsEntries]
  | cons e entries ih => rw [fitsEntries, Bool.and_eq_true, ih, List.forall_mem_cons]

/-- The text of a value with its keys in their order is read back. -/
theorem readsBack (hs : v.Sorted) (hf : v.fits = true) : ReadsBack v := by
  induction hs with
  | null => exact readsBack_constant (by simp [constants, Json.encode])
  | bool b => cases b <;> exact readsBack_constant (by simp [constants, Json.encode])
  | int z => exact readsBack_int hf
  | float x => exact readsBack_float x
  | str s => exact readsBack_str s
  | @list items h ih =>
    rw [Json.fits, fitsItems_iff] at hf
    have hall : ∀ w ∈ items, ReadsBack w := fun w hw => ih w hw (hf w hw)
    intro n rest hn hrest
    obtain ⟨m, rfl⟩ : ∃ m, n = m + 1 := ⟨n - 1, by omega⟩
    cases items with
    | nil => rfl
    | cons w items =>
      have htext : (Json.list (w :: items)).encode ++ rest =
          0x5B :: (w.encode ++ (encodeItems items ++ rest)) := by
        rw [Json.encode]
        simp only [List.append_assoc]
        rfl
      have hlength : (Json.list (w :: items)).encode.length =
          1 + w.encode.length + (encodeItems items).length := by
        rw [Json.encode, List.length_append, List.length_append]
        rfl
      -- An item follows the bracket, and no closing bracket.
      have hopens : Opens (w.encode ++ (encodeItems items ++ rest)) := (opens_encode w).append _
      obtain ⟨hw, hitems⟩ := List.forall_mem_cons.1 hall
      rw [htext, scanOnce, if_neg (by decide), if_pos rfl, hopens.skipWs, if_neg hopens.head?_ne.1,
        scanArray_encode hw hitems (by omega)]
      rfl
  | @dict entries hkeys h ih =>
    rw [Json.fits, fitsEntries_iff] at hf
    have hall : ∀ e ∈ entries, ReadsBack e.2 := fun e he => ih e he (hf e he)
    intro n rest hn hrest
    obtain ⟨m, rfl⟩ : ∃ m, n = m + 1 := ⟨n - 1, by omega⟩
    cases entries with
    | nil => rfl
    | cons e entries =>
      obtain ⟨k, w⟩ := e
      have htext : (Json.dict ((k, w) :: entries)).encode ++ rest =
          0x7B :: (encodeString k ++ (0x3A :: (w.encode ++ (encodeEntries entries ++ rest)))) := by
        rw [Json.encode]
        simp only [List.append_assoc]
        rfl
      have hlength : (Json.dict ((k, w) :: entries)).encode.length =
          2 + (encodeString k).length + w.encode.length + (encodeEntries entries).length := by
        have hone : (text "\x7b").length = 1 ∧ (text ":").length = 1 := by decide
        rw [Json.encode]
        simp only [List.length_append, hone]
        omega
      -- So does an entry.
      have hopens : Opens (encodeString k ++ (0x3A :: (w.encode ++
          (encodeEntries entries ++ rest)))) :=
        ⟨0x22, _, by rw [encodeString_eq]; rfl, by decide⟩
      obtain ⟨hw, hentries⟩ := List.forall_mem_cons.1 hall
      change ReadsBack w at hw
      rw [htext, scanOnce, if_neg (by decide), if_neg (by decide), if_pos rfl, hopens.skipWs,
        if_neg hopens.head?_ne.2, scanObject_encode hw hentries (by omega)]
      exact congrArg (fun d => Except.ok (Json.dict d, rest)) (ofPairs_eq hkeys)

/-- `json.loads(json.dumps(v) + rest)`, as texts, where `rest` is whitespace. -/
theorem decodeText_encode_append (hs : v.Sorted) (hf : v.fits = true) (hrest : Stops rest)
    (hws : skipWs rest = []) : decodeText (v.encode ++ rest) = .ok v := by
  have hlength : (v.encode ++ rest).length = v.encode.length + rest.length := List.length_append
  have hread := readsBack hs hf (2 * (v.encode ++ rest).length + 1) rest (by omega) hrest
  unfold decodeText
  rw [((opens_encode v).append rest).skipWs, hread]
  exact if_pos hws

/-- `json.loads(json.dumps(v))`, as texts. -/
theorem decodeText_encode (hs : v.Sorted) (hf : v.fits = true) : decodeText v.encode = .ok v := by
  have hread := decodeText_encode_append hs hf stops_nil rfl
  rwa [List.append_nil] at hread

/-- `json.loads` of a line that `json.dumps` has written, for an object that is not empty. -/
theorem loads_line {e : PyStr × Json} {entries : List (PyStr × Json)} {bytes : List Byte}
    (hs : (Json.dict (e :: entries)).Sorted) (hf : (Json.dict (e :: entries)).fits = true)
    (hbytes : encodeUtf8 (Json.dict (e :: entries)).encode = some bytes) :
    loads (bytes ++ [0x0A]) = .ok (.dict (e :: entries)) := by
  obtain ⟨k, w⟩ := e
  have htext : (Json.dict ((k, w) :: entries)).encode = 0x7B :: 0x22 :: (k.flatMap escapeChar ++
      ([0x22] ++ (text ":" ++ (w.encode ++ encodeEntries entries)))) := by
    rw [Json.encode, encodeString_eq]
    simp only [List.append_assoc, List.cons_append]
    rfl
  have hnewline : encodeUtf8 ((Json.dict ((k, w) :: entries)).encode ++ [0x0A]) =
      some (bytes ++ [0x0A]) := encodeUtf8_append hbytes rfl
  have hdecode := decodeAll_encodeUtf8 hnewline
  have hdetect : detectEncoding (bytes ++ [0x0A]) = .utf8 := by
    rw [htext] at hbytes
    obtain ⟨first, rest, hfirst, hrest, rfl⟩ := encodeUtf8_cons hbytes
    obtain ⟨second, rest, hsecond, -, rfl⟩ := encodeUtf8_cons hrest
    obtain rfl : [0x7B] = first := Option.some.inj hfirst
    obtain rfl : [0x22] = second := Option.some.inj hsecond
    exact detectEncoding_ascii (by decide) (by decide) (by decide)
  unfold loads
  rw [hdetect, decode, hdecode]
  exact decodeText_encode_append hs hf (stops_cons rfl (by decide)) rfl

/-! ## What is scanned -/

/-- A constant has no objects, and so none whose keys are out of order. -/
theorem sorted_constant {p : Json × PyStr} (h : scanConstant s = some p) : p.1.Sorted := by
  obtain ⟨c, hc, hp⟩ := List.exists_of_findSome?_eq_some h
  split_ifs at hp
  obtain rfl := Option.some.inj hp
  rw [constants_eq] at hc
  simp only [List.mem_cons, List.not_mem_nil, or_false] at hc
  rcases hc with rfl | rfl | rfl | rfl | rfl | rfl
  · exact .null
  · exact .bool _
  · exact .bool _
  · exact .float _
  · exact .float _
  · exact .float _

/-- The value of a number has no objects, and so none whose keys are out of order. -/
theorem sorted_value (h : l.value = .ok v) : v.Sorted := by
  unfold NumberLiteral.value at h
  split_ifs at h
  · obtain rfl := Except.ok.inj h
    exact .float _
  all_goals
    obtain rfl := Except.ok.inj h
    exact .int _

/-- The image of a result is `.ok` if the result is. -/
theorem map_eq_ok {α β ε : Type*} {f : α → β} {x : Except ε α} {b : β} (h : x.map f = .ok b) :
    ∃ a, x = .ok a ∧ f a = b := by
  cases x with
  | error e => cases h
  | ok a => exact ⟨a, rfl, Except.ok.inj h⟩

/-- What is scanned has the keys of its objects in their order. -/
theorem sorted_scan (n : ℕ) :
    (∀ s v t, scanOnce n s = .ok (v, t) → v.Sorted) ∧
      (∀ s vs t, scanArray n s = .ok (vs, t) → ∀ v ∈ vs, v.Sorted) ∧
      ∀ s es t, scanObject n s = .ok (es, t) → ∀ e ∈ es, e.2.Sorted := by
  -- On the fuel, for values, lists and objects together.
  induction n with
  | zero =>
    refine ⟨fun s v t h => ?_, fun s vs t h => ?_, fun s es t h => ?_⟩
    · rw [scanOnce] at h
      cases h
    · rw [scanArray] at h
      cases h
    · rw [scanObject] at h
      cases h
  | succ n ih =>
    obtain ⟨honce, harray, hobject⟩ := ih
    refine ⟨fun s v t h => ?_, fun s vs t h => ?_, fun s es t h => ?_⟩
    · cases s with
      | nil =>
        rw [scanOnce] at h
        cases h
      | cons c s =>
        rw [scanOnce] at h
        split_ifs at h
        · split at h
          · obtain ⟨rfl, -⟩ := Prod.mk.inj (Except.ok.inj h)
            exact .str _
          · cases h
        · obtain ⟨rfl, -⟩ := Prod.mk.inj (Except.ok.inj h)
          exact .list fun v hv => absurd hv List.not_mem_nil
        · obtain ⟨⟨vs, t'⟩, hscan, heq⟩ := map_eq_ok h
          obtain ⟨rfl, -⟩ := Prod.mk.inj heq
          exact .list (harray _ _ _ hscan)
        · obtain ⟨rfl, -⟩ := Prod.mk.inj (Except.ok.inj h)
          exact .dict List.Pairwise.nil fun e he => absurd he List.not_mem_nil
        · obtain ⟨⟨es, t'⟩, hscan, heq⟩ := map_eq_ok h
          obtain ⟨rfl, -⟩ := Prod.mk.inj heq
          -- An object is made of its pairs in the order of the keys.
          exact .dict (sortedKeys_ofPairs es) fun e he =>
            hobject _ _ _ hscan e (mem_ofPairs he)
        · split at h
          · next p hp =>
            obtain rfl := Except.ok.inj h
            exact sorted_constant hp
          · split at h
            · obtain ⟨v', hv, heq⟩ := map_eq_ok h
              obtain ⟨rfl, -⟩ := Prod.mk.inj heq
              exact sorted_value hv
            · cases h
    · rw [scanArray] at h
      split at h
      · cases h
      · next v s' hv =>
        have hsorted := honce _ _ _ hv
        split at h
        · cases h
        · split_ifs at h
          · obtain ⟨rfl, -⟩ := Prod.mk.inj (Except.ok.inj h)
            exact List.forall_mem_singleton.2 hsorted
          · obtain ⟨⟨ws, t'⟩, hscan, heq⟩ := map_eq_ok h
            obtain ⟨rfl, -⟩ := Prod.mk.inj heq
            exact List.forall_mem_cons.2 ⟨hsorted, harray _ _ _ hscan⟩
    · cases s with
      | nil =>
        rw [scanObject] at h
        cases h
      | cons q s =>
        rw [scanObject] at h
        split_ifs at h
        split at h
        · cases h
        · split at h
          · cases h
          · split_ifs at h
            split at h
            · cases h
            · next v s' hv =>
              have hsorted := honce _ _ _ hv
              split at h
              · cases h
              · split_ifs at h
                · obtain ⟨rfl, -⟩ := Prod.mk.inj (Except.ok.inj h)
                  exact List.forall_mem_singleton.2 hsorted
                · obtain ⟨⟨ws, t'⟩, hscan, heq⟩ := map_eq_ok h
                  obtain ⟨rfl, -⟩ := Prod.mk.inj heq
                  exact List.forall_mem_cons.2 ⟨hsorted, hobject _ _ _ hscan⟩

/-- What is decoded from a text has its keys in order. -/
theorem sorted_decodeText (h : decodeText s = .ok v) : v.Sorted := by
  unfold decodeText at h
  split at h
  · cases h
  · next w rest hscan =>
    split_ifs at h
    obtain rfl := Except.ok.inj h
    exact (sorted_scan _).1 _ _ _ hscan

/-- What `json.loads` makes has the keys of its objects in their order. -/
theorem sorted_loads {bytes : List Byte} (h : loads bytes = .ok v) : v.Sorted := by
  unfold loads at h
  split at h
  · cases h
  · exact sorted_decodeText h

/-- What is loaded from a text has its keys in order. -/
theorem sorted_loadsStr (h : loadsStr s = .ok v) : v.Sorted := by
  unfold loadsStr at h
  split_ifs at h
  exact sorted_decodeText h

/-- `json.loads`, with the invariant of what it makes. -/
def loadsSorted (bytes : List Byte) : Except LoadsError { v : Json // v.Sorted } :=
  match h : loads bytes with
  | .error e => .error e
  | .ok v => .ok ⟨v, sorted_loads h⟩

/-- What is loaded with its order is what is loaded. -/
theorem loadsSorted_eq_ok {bytes : List Byte} (hs : v.Sorted) :
    loadsSorted bytes = .ok ⟨v, hs⟩ ↔ loads bytes = .ok v := by
  unfold loadsSorted
  split
  · next e he => simp [he]
  · next w hw => simp [hw]

end Values

/-! ## No control characters -/

section Printable

variable {v : Json} {l : NumberLiteral}

/-- No character of the text is a control character. -/
def Printable (s : PyStr) : Prop := ∀ c ∈ s, 0x20 ≤ c.val

instance (s : PyStr) : Decidable (Printable s) :=
  List.decidableBAll (fun c : CodePoint => 0x20 ≤ c.val) s

/-- Printable texts after each other are printable. -/
theorem Printable.append {s t : PyStr} (hs : Printable s) (ht : Printable t) : Printable (s ++ t) :=
  fun c hc => (List.mem_append.1 hc).elim (hs c) (ht c)

/-- What is written for a character is printable. -/
theorem printable_escapeChar (c : CodePoint) : Printable (escapeChar c) := by
  unfold escapeChar
  split_ifs with h1 h2 h3 h4 h5 h6 h7 h8
  · decide
  · decide
  · decide
  · decide
  · decide
  · decide
  · decide
  · have hdigits : ∀ v < 0x20, Printable [hexDigit (v / 16), hexDigit (v % 16)] := by decide
    exact Printable.append (by decide) (hdigits c.val h8)
  · exact List.forall_mem_singleton.2 (not_lt.1 h8)

/-- What is written for a string is printable. -/
theorem printable_encodeString (s : PyStr) : Printable (encodeString s) := by
  have hchars : Printable (s.flatMap escapeChar) := by
    intro c hc
    obtain ⟨d, -, hd⟩ := List.mem_flatMap.1 hc
    exact printable_escapeChar d c hd
  exact (Printable.append (by decide) hchars).append (by decide)

/-- Digits are printable. -/
theorem printable_digits {digits : List Char} (h : ∀ c ∈ digits, c.isDigit = true) :
    Printable (digits.map CodePoint.ofChar) := by
  intro c hc
  obtain ⟨d, hd, rfl⟩ := List.mem_map.1 hc
  have hdigit := h d hd
  rw [← isDigit_ofChar] at hdigit
  unfold CodePoint.isDigit at hdigit
  rw [Bool.and_eq_true, decide_eq_true_eq] at hdigit
  omega

/-- The text of a number is printable. -/
theorem printable_toText (h : l.WellFormed) : Printable l.toText := by
  have hminus : Printable (if l.negative then text "-" else []) := by
    split_ifs
    · decide
    · decide
  have hfraction : Printable (if l.fraction = [] then [] else text "." ++
      l.fraction.map CodePoint.ofChar) := by
    split_ifs
    · decide
    · exact Printable.append (by decide) (printable_digits h.fraction)
  have hexponent : Printable (exponentText l.exponent) := by
    cases he : l.exponent with
    | none => exact fun c hc => absurd hc List.not_mem_nil
    | some e =>
      obtain ⟨negative, digits⟩ := e
      have hdigits := printable_digits (h.exponent (negative, digits) he).2
      refine Printable.append (Printable.append (by decide) ?_) hdigits
      split_ifs
      · decide
      · decide
  rw [toText_eq]
  exact hminus.append ((printable_digits h.whole.2).append (hfraction.append hexponent))

/-- What is written for the items of a list is printable, if each item is. -/
theorem printable_encodeItems {items : List Json} (h : ∀ v ∈ items, Printable v.encode) :
    Printable (encodeItems items) := by
  induction items with
  | nil => exact (by decide : Printable (text "]"))
  | cons v items ih =>
    obtain ⟨hv, hitems⟩ := List.forall_mem_cons.1 h
    rw [encodeItems]
    exact (Printable.append (by decide) hv).append (ih hitems)

/-- What is written for the entries of an object is printable, if each value is. -/
theorem printable_encodeEntries {entries : List (PyStr × Json)}
    (h : ∀ e ∈ entries, Printable e.2.encode) : Printable (encodeEntries entries) := by
  induction entries with
  | nil => exact (by decide : Printable (text "\x7d"))
  | cons e entries ih =>
    obtain ⟨k, v⟩ := e
    obtain ⟨hv, hentries⟩ := List.forall_mem_cons.1 h
    have hkey : Printable (text "," ++ encodeString k ++ text ":") :=
      (Printable.append (by decide) (printable_encodeString k)).append (by decide)
    rw [encodeEntries]
    exact (hkey.append hv).append (ih hentries)

/-- The text of a value is on one line. -/
theorem printable_encode (h : v.Sorted) : Printable v.encode := by
  induction h with
  | null => exact (by decide : Printable (text "null"))
  | bool b =>
    cases b
    · exact (by decide : Printable (text "false"))
    · exact (by decide : Printable (text "true"))
  | int n => exact printable_toText (wellFormed_intLiteral n)
  | float x =>
    cases x with
    | finite negative bits => exact printable_toText (wellFormed_literal negative bits.val).1
    | infinite negative =>
      cases negative
      · exact (by decide : Printable (text "Infinity"))
      · exact (by decide : Printable (text "-Infinity"))
    | nan => exact (by decide : Printable (text "NaN"))
  | str s => exact printable_encodeString s
  | @list items _ ih =>
    cases items with
    | nil => exact (by decide : Printable (text "[]"))
    | cons v items =>
      obtain ⟨hv, hitems⟩ := List.forall_mem_cons.1 ih
      rw [Json.encode]
      exact (Printable.append (by decide) hv).append (printable_encodeItems hitems)
  | @dict entries _ _ ih =>
    cases entries with
    | nil => exact (by decide : Printable (text "\x7b\x7d"))
    | cons e entries =>
      obtain ⟨k, v⟩ := e
      obtain ⟨hv, hentries⟩ := List.forall_mem_cons.1 ih
      -- An entry is its key, a colon and its value.
      have hkey : Printable (text "\x7b" ++ encodeString k ++ text ":") :=
        (Printable.append (by decide) (printable_encodeString k)).append (by decide)
      rw [Json.encode]
      exact (hkey.append hv).append (printable_encodeEntries hentries)

/-- There is no newline among the octets of a text. -/
theorem newline_not_mem (h : v.Sorted) {bytes : List Byte}
    (hbytes : encodeUtf8 v.encode = some bytes) : (0x0A : Byte) ∉ bytes := by
  intro hmem
  obtain ⟨c, hc, hval⟩ := mem_encodeUtf8 hbytes hmem (by decide)
  have hprintable := printable_encode h c hc
  omega

end Printable

end MarketDataGateway.Lib
