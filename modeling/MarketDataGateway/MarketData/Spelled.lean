import MarketDataGateway.MarketData.Schema
import MarketDataGateway.Models.Spelling

/-!
# How the texts of pydantic are read

What the checks of the browser make of a decimal, a UUID, a datetime and an integer that the gateway
has written. A decimal is read as the number nearest to it (`decimalLiteral_str`), a UUID is
accepted if it is one of RFC 9562 (`isUuid_uuidText`), a datetime is read as the instant that its
text says (`timeValue_isoformat`), and an integer is accepted if it is safe (`int_int`).
-/

namespace MarketDataGateway.MarketData

open Lib Models

/-! ## Code units -/

/-- A character below `0x10000` is one code unit. -/
theorem units_codeUnits {c : CodePoint} (h : c.val < 0x10000) : units (codeUnits c) = [c] := by
  have hunits : codeUnits c = [Fin.ofNat 0x10000 c.val] := if_pos h
  rw [hunits]
  refine List.singleton_inj.2 (Fin.ext ?_)
  exact Nat.mod_eq_of_lt h

/-- A text of the basic plane is its code units. -/
theorem units_utf16 {s : PyStr} (h : ∀ c ∈ s, c.val < 0x10000) : units (utf16 s) = s := by
  induction s with
  | nil => rfl
  | cons c s ih =>
    have hrest := ih fun c hc => h c (List.mem_cons_of_mem _ hc)
    have hunits : utf16 (c :: s) = codeUnits c ++ utf16 s := rfl
    have happend : units (codeUnits c ++ utf16 s) = units (codeUnits c) ++ units (utf16 s) :=
      List.map_append
    rw [hunits, happend, units_codeUnits (h c List.mem_cons_self), hrest]
    rfl

/-- The text has characters of ASCII only. -/
def IsAscii (s : PyStr) : Prop := ∀ c ∈ s, c.val < 0x80

/-- A text of characters of ASCII is of ASCII. -/
theorem isAscii_text (s : String) (h : s.toList.all (fun c => c.toNat < 0x80) = true) :
    IsAscii (text s) := by
  intro c hc
  obtain ⟨d, hd, rfl⟩ := List.mem_map.1 hc
  rw [ofChar_val]
  exact of_decide_eq_true (List.all_eq_true.1 h d hd)

/-- Texts of ASCII after each other are of ASCII. -/
theorem IsAscii.append {s t : PyStr} (hs : IsAscii s) (ht : IsAscii t) :
    IsAscii (s ++ t) := fun c hc =>
  (List.mem_append.1 hc).elim (hs c) (ht c)

/-- A text of ASCII has its characters for code units. -/
theorem IsAscii.units_utf16 {s : PyStr} (h : IsAscii s) : units (utf16 s) = s :=
  MarketData.units_utf16 fun c hc => (h c hc).trans (by decide)

/-- Padded digits are of ASCII. -/
theorem isAscii_padded {base width n : ℕ} (hpos : 0 < base) (hbase : base ≤ 16) :
    IsAscii (padded base width n) := by
  have hall : ∀ d < 16, (hexDigit d).val < 0x80 := by decide
  intro c hc
  obtain ⟨d, hd, rfl⟩ := mem_padded hpos hc
  exact hall d (by omega)

/-- Digits are of ASCII. -/
theorem isAscii_digits {digits : List Char} (h : ∀ c ∈ digits, c.isDigit = true) :
    IsAscii (digits.map CodePoint.ofChar) := by
  intro c hc
  obtain ⟨d, hd, rfl⟩ := List.mem_map.1 hc
  have hdigit := (isDigit_ofChar d).trans (h d hd)
  unfold CodePoint.isDigit at hdigit
  simp only [Bool.and_eq_true, decide_eq_true_eq] at hdigit
  omega

/-! ## Decimals -/

/-- An exponent with a capital letter is scanned back. -/
theorem scanExponent_capital {negative : Bool} {digits : List Char}
    (hd : digits ≠ [] ∧ ∀ c ∈ digits, c.isDigit = true) :
    scanExponent (text "E" ++ text (if negative then "-" else "+") ++ digits.map CodePoint.ofChar) =
      (some (negative, digits), []) := by
  have hspan : spanDigits (digits.map CodePoint.ofChar) = (digits, []) := by
    have happend := @spanDigits_append _ [] hd.2 fun c hc => by cases hc
    rwa [List.append_nil] at happend
  have hscan (b : CodePoint) (hb : b = 0x2B ∨ b = 0x2D) :
      scanExponent (0x45 :: b :: digits.map CodePoint.ofChar) =
        (some (decide (b = 0x2D), digits), []) := by
    rw [scanExponent_sign (Or.inr rfl) hb (by rw [hspan]; exact hd.1), hspan]
  cases negative with
  | true => exact hscan 0x2D (Or.inr rfl)
  | false => exact hscan 0x2B (Or.inl rfl)

/-- What comes after the digits of `Decimal.__str__`. -/
def exponentPart : Option (Bool × List Char) → PyStr
  | none => []
  | some (negative, digits) =>
    text "E" ++ text (if negative then "-" else "+") ++ digits.map CodePoint.ofChar

/-- What is written of an exponent is scanned back. -/
theorem scanExponent_exponentPart {exponent : Option (Bool × List Char)}
    (h : ∀ e ∈ exponent, e.2 ≠ [] ∧ ∀ c ∈ e.2, c.isDigit = true) :
    scanExponent (exponentPart exponent) = (exponent, []) := by
  cases exponent with
  | none => rfl
  | some e => exact scanExponent_capital (h e rfl)

/-- No digit comes first in what is written of an exponent. -/
theorem noDigit_exponentPart (exponent : Option (Bool × List Char)) :
    NoDigit (exponentPart exponent) := by
  intro c hc
  cases exponent with
  | none => exact nomatch hc
  | some e =>
    obtain rfl : 0x45 = c := Option.some.inj hc
    rfl

/-- No point comes first in what is written of an exponent. -/
theorem head?_exponentPart (exponent : Option (Bool × List Char)) :
    (exponentPart exponent).head? ≠ some 0x2E := by
  cases exponent with
  | none => exact nofun
  | some e => exact fun h => absurd (Option.some.inj h : (0x45 : CodePoint) = 0x2E) (by decide)

/-- The digits after the point, with the point. -/
def fractionPart (digits : List Char) : PyStr :=
  if digits = [] then [] else text "." ++ digits.map CodePoint.ofChar

/-- A decimal is written as its sign, its whole part, its fraction and its exponent. -/
theorem str_eq (d : PyDecimal) :
    d.str = (if d.negative then text "-" else []) ++ (d.literal.whole.map CodePoint.ofChar ++
      (fractionPart d.literal.fraction ++ exponentPart d.literal.exponent)) := by
  have happend : d.str =
    (if d.negative then text "-" else []) ++ d.literal.whole.map CodePoint.ofChar ++
      fractionPart d.literal.fraction ++ exponentPart d.literal.exponent := rfl
  rw [happend, List.append_assoc, List.append_assoc]

/-- What is written of a decimal is of ASCII. -/
theorem isAscii_str (d : PyDecimal) : IsAscii d.str := by
  obtain ⟨hwhole, hfraction, hexponent⟩ := d.literal_syntax
  have hsign : IsAscii (if d.negative then text "-" else []) := by
    split_ifs
    · exact (isAscii_text "-" rfl)
    · exact fun c hc => nomatch hc
  have hpart : IsAscii (fractionPart d.literal.fraction) := by
    unfold fractionPart
    split_ifs
    · exact fun c hc => nomatch hc
    · exact .append (isAscii_text "." rfl) (isAscii_digits hfraction)
  have hrest : IsAscii (exponentPart d.literal.exponent) := by
    generalize d.literal.exponent = exponent at *
    rcases exponent with - | ⟨negative, digits⟩
    · exact fun c hc => nomatch hc
    · refine .append (.append (isAscii_text "E" rfl) ?_)
        (isAscii_digits (hexponent _ rfl).2)
      cases negative
      · exact (isAscii_text "+" rfl)
      · exact (isAscii_text "-" rfl)
  rw [str_eq]
  exact hsign.append ((isAscii_digits hwhole.2).append (hpart.append hrest))

/-- The regular expression matches what `Decimal.__str__` writes. -/
theorem decimalLiteral_str (d : PyDecimal) : decimalLiteral d.str = some d.literal := by
  obtain ⟨⟨hne, hwhole⟩, hfraction, hexponent⟩ := d.literal_syntax
  have hnegative := d.negative_literal
  rw [str_eq, ← hnegative]
  generalize d.literal = l at *
  obtain ⟨c, digits, hcons⟩ := List.exists_cons_of_ne_nil hne
  have hhead : (CodePoint.ofChar c).isDigit = true :=
    (isDigit_ofChar c).trans (hwhole c (hcons ▸ List.mem_cons_self))
  have hrest : NoDigit (fractionPart l.fraction ++ exponentPart l.exponent) := by
    unfold fractionPart
    split_ifs
    · exact noDigit_exponentPart l.exponent
    · intro b hb
      obtain rfl : 0x2E = b := Option.some.inj hb
      rfl
  have hspan := spanDigits_append hwhole hrest
  -- The point is there if there are digits after it.
  have hpoint : (if (fractionPart l.fraction ++ exponentPart l.exponent).head? = some 0x2E then
      spanDigits (fractionPart l.fraction ++ exponentPart l.exponent).tail
      else ([], fractionPart l.fraction ++ exponentPart l.exponent)) =
        (l.fraction, exponentPart l.exponent) := by
    unfold fractionPart
    split_ifs with hempty hdot hdot
    · exact absurd hdot (head?_exponentPart l.exponent)
    · rw [hempty]
      rfl
    · exact spanDigits_append hfraction (noDigit_exponentPart l.exponent)
    · exact absurd rfl hdot
  have hscan := scanExponent_exponentPart hexponent
  have hstart : (l.whole.map CodePoint.ofChar ++
      (fractionPart l.fraction ++ exponentPart l.exponent)).head? = some (CodePoint.ofChar c) := by
    rw [hcons]
    rfl
  have hplus : CodePoint.ofChar c ≠ 0x2B := by
    rintro h
    rw [h] at hhead
    exact absurd hhead (by decide)
  have hminus : CodePoint.ofChar c ≠ 0x2D := by
    rintro h
    rw [h] at hhead
    exact absurd hhead (by decide)
  unfold decimalLiteral
  generalize l.whole.map CodePoint.ofChar ++
    (fractionPart l.fraction ++ exponentPart l.exponent) = s at *
  have hsplit : (if decide (((if l.negative then text "-" else []) ++ s).head? = some 0x2B ∨
      ((if l.negative then text "-" else []) ++ s).head? = some 0x2D) = true then
        ((if l.negative then text "-" else []) ++ s).tail
      else (if l.negative then text "-" else []) ++ s) = s ∧
      decide (((if l.negative then text "-" else []) ++ s).head? = some 0x2D) = l.negative := by
    cases l.negative with
    | true => exact ⟨rfl, rfl⟩
    | false =>
      have hno (b : CodePoint) (hb : CodePoint.ofChar c ≠ b) : s.head? ≠ some b := by
        rw [hstart]
        exact fun h => hb (Option.some.inj h)
      refine ⟨?_, decide_eq_false (hno _ hminus)⟩
      exact if_neg fun h => (of_decide_eq_true h).elim (hno _ hplus) (hno _ hminus)
  dsimp only
  rw [hsplit.1, hsplit.2, hspan]
  dsimp only
  rw [hpoint]
  dsimp only
  rw [hscan, if_neg fun h => h.elim (fun h => hne h.1) fun h => h rfl]

/-! ## UUIDs -/

/-- The digits of a UUID, by its groups. -/
theorem padded_uuid (u : ℕ) :
    padded 16 32 u = padded 16 8 (u / 16 ^ 24) ++ (padded 16 4 (u / 16 ^ 20) ++
    (padded 16 4 (u / 16 ^ 16) ++ (padded 16 4 (u / 16 ^ 12) ++ padded 16 12 u))) := by
  rw [← padded_add 16 4 12, ← padded_add 16 4 16, ← padded_add 16 4 20, ← padded_add 16 8 24]

/-- An identifier is written in five groups. -/
theorem uuidText_eq (u : EventId) : uuidText u = padded 16 8 (u.val / 16 ^ 24) ++ text "-" ++
    padded 16 4 (u.val / 16 ^ 20) ++ text "-" ++ padded 16 4 (u.val / 16 ^ 16) ++ text "-" ++
      padded 16 4 (u.val / 16 ^ 12) ++ text "-" ++ padded 16 12 u.val := by
  have hdrop (width k n : ℕ) (h : width ≤ k) : (padded 16 width n).drop k = [] :=
    List.drop_eq_nil_of_le (by rwa [length_padded])
  have htake (width n : ℕ) : (padded 16 width n).take width = padded 16 width n :=
    List.take_of_length_le (length_padded 16 width n).le
  unfold uuidText
  dsimp only
  rw [padded_uuid]
  simp (disch := decide) [List.take_append, List.drop_append, hdrop, htake]

/-- What is written of an identifier is of ASCII. -/
theorem isAscii_uuidText (u : EventId) : IsAscii (uuidText u) := by
  have hhex (width n : ℕ) : IsAscii (padded 16 width n) := isAscii_padded (by decide) le_rfl
  have hhyphen : IsAscii (text "-") := isAscii_text "-" rfl
  rw [uuidText_eq]
  exact (((((((((hhex _ _).append hhyphen).append (hhex _ _)).append
    hhyphen).append (hhex _ _)).append
    hhyphen).append (hhex _ _)).append hhyphen).append (hhex _ _))

/-- Different identifiers are written differently. -/
theorem uuidText_injective : Function.Injective uuidText := by
  -- Without the hyphens there are the digits.
  have hdigits (width n : ℕ) : (padded 16 width n).filter (· ≠ 0x2D) = padded 16 width n := by
    have hall : ∀ d < 16, hexDigit d ≠ 0x2D := by decide
    refine List.filter_eq_self.2 fun c hc => ?_
    obtain ⟨d, hd, rfl⟩ := mem_padded (by decide) hc
    exact decide_eq_true (hall d hd)
  have hfilter (u : EventId) : (uuidText u).filter (· ≠ 0x2D) = padded 16 32 u.val := by
    have hhyphen : (text "-").filter (· ≠ 0x2D) = [] := by decide
    rw [uuidText_eq, padded_uuid]
    simp only [List.filter_append, hdigits, hhyphen, List.nil_append, List.append_assoc]
  intro u v h
  have hpadded : padded 16 32 u.val = padded 16 32 v.val := by rw [← hfilter, ← hfilter, h]
  exact Fin.ext (padded_injective le_rfl (u.isLt.trans_eq (by norm_num))
    (v.isLt.trans_eq (by norm_num))
    hpadded)

/-- A UUID of RFC 9562, or the least or the greatest one. -/
def IsRfc9562 (u : EventId) : Prop :=
  (1 ≤ u.val / 2 ^ 76 % 16 ∧ u.val / 2 ^ 76 % 16 ≤ 8) ∧
      (8 ≤ u.val / 2 ^ 60 % 16 ∧ u.val / 2 ^ 60 % 16 ≤ 11) ∨
    u.val = 0 ∨ u.val = 2 ^ 128 - 1

instance : DecidablePred IsRfc9562 := fun _ => inferInstanceAs (Decidable (_ ∨ _))

/-- Padded hexadecimal digits match as many classes of them. -/
theorem matchesClasses_hex (width n : ℕ) :
    matchesClasses (List.replicate width isHex) (padded 16 width n) = true := by
  have hall : ∀ d < 16, isHex (hexDigit d) = true := by decide
  have hmatches := @matchesClasses_replicate (padded 16 width n) isHex fun c hc => by
    obtain ⟨d, hd, rfl⟩ := mem_padded (by decide) hc
    exact hall d hd
  rwa [length_padded] at hmatches

/-- A group whose first digit is of another class. -/
theorem matchesClasses_group (p : CodePoint → Bool) (n : ℕ) :
    matchesClasses (p :: List.replicate 3 isHex)
    (padded 16 4 n) = p (hexDigit (n / 16 ^ 3 % 16)) := by
  have hsplit : padded 16 4 n = hexDigit (n / 16 ^ 3 % 16) :: padded 16 3 n := padded_add 16 1 3 n
  rw [hsplit, matchesClasses, matchesClasses_hex, Bool.and_true]

/-- An identifier matches by its version and its variant. -/
theorem matchesClasses_uuidText (u : EventId) : matchesClasses uuidClasses (uuidText u) =
    (isVersionDigit (hexDigit (u.val / 2 ^ 76 % 16)) &&
    isVariant (hexDigit (u.val / 2 ^ 60 % 16))) := by
  have hhyphen : matchesClasses [isHyphen] (text "-") = true := by decide
  have hversion : u.val / 16 ^ 16 / 16 ^ 3 = u.val / 2 ^ 76 := by
    rw [Nat.div_div_eq_div_mul, ← pow_add]
    norm_num
  have hvariant : u.val / 16 ^ 12 / 16 ^ 3 = u.val / 2 ^ 60 := by
    rw [Nat.div_div_eq_div_mul, ← pow_add]
    norm_num
  have hlength : (text "-").length = 1 := by decide
  rw [uuidText_eq, uuidClasses]
  iterate 8 rw [matchesClasses_append (by simp [hlength])]
  rw [hhyphen, matchesClasses_hex, matchesClasses_hex, matchesClasses_hex, matchesClasses_group,
    matchesClasses_group, hversion, hvariant]
  simp

/-- The check of UUIDs. -/
theorem isUuid_uuidText (u : EventId) : isUuid (uuidText u) = true ↔ IsRfc9562 u := by
  have hversion : ∀ d < 16, isVersionDigit (hexDigit d) = true ↔ 1 ≤ d ∧ d ≤ 8 := by decide
  have hvariant : ∀ d < 16, isVariant (hexDigit d) = true ↔ 8 ≤ d ∧ d ≤ 11 := by decide
  have hleast : text "00000000-0000-0000-0000-000000000000" = uuidText 0 := by decide +kernel
  have hgreatest : text "ffffffff-ffff-ffff-ffff-ffffffffffff" =
      uuidText ⟨2 ^ 128 - 1, by norm_num⟩ := by
    decide +kernel
  unfold isUuid IsRfc9562
  rw [matchesClasses_uuidText, hleast, hgreatest, Bool.or_eq_true, Bool.or_eq_true,
    Bool.and_eq_true, decide_eq_true_eq, decide_eq_true_eq, uuidText_injective.eq_iff,
    uuidText_injective.eq_iff, hversion _ (Nat.mod_lt _ (by decide)),
    hvariant _ (Nat.mod_lt _ (by decide)), or_assoc, Fin.ext_iff, Fin.ext_iff]
  rfl

/-! ## Datetimes -/

/-- An offset is read as the minutes that are written. -/
theorem zone_offset {minutes : ℤ} {s : PyStr} (hlt : |minutes| < 24 * 60) (h : IsOffset minutes s) :
    zone s = some minutes := by
  have hbounds := abs_lt.1 hlt
  have hhours : minutes.natAbs / 60 < 10 ^ 2 := by omega
  have hrest : minutes.natAbs % 60 < 10 ^ 2 := by omega
  -- What comes after the sign.
  have hread (c : CodePoint) (hc : c = 0x2B ∨ c = 0x2D) :
      zone (c :: (padded 10 2 (minutes.natAbs / 60) ++
      (0x3A :: (padded 10 2 (minutes.natAbs % 60) ++ [])))) =
        some (if c = 0x2D then -(minutes.natAbs : ℤ) else minutes.natAbs) := by
    have hz : c :: (padded 10 2 (minutes.natAbs / 60) ++
        (0x3A :: (padded 10 2 (minutes.natAbs % 60) ++ []))) ≠ text "Z" := by
      intro heq
      have hhead : c = 0x5A := (List.cons.inj heq).1
      rcases hc with rfl | rfl
      · exact absurd hhead (by decide)
      · exact absurd hhead (by decide)
    have hsum : (60 * (minutes.natAbs / 60 : ℕ) + (minutes.natAbs % 60 : ℕ) : ℤ) =
        minutes.natAbs := by
      omega
    unfold zone
    rw [if_neg hz]
    simp only [List.head?_cons, List.tail_cons, Option.some.injEq, hc, takeDigits_padded hhours,
      takeChar_cons, takeDigits_padded hrest, Option.bind_eq_bind, Option.bind_some, guard, if_true,
      Option.pure_def, hsum]
    rw [if_pos ⟨by omega, by omega, trivial⟩]
    rfl
  rcases h with ⟨rfl, rfl⟩ | ⟨hsign, rfl⟩ | ⟨hsign, rfl⟩
  · rfl
  · have hplus := hread 0x2B (Or.inl rfl)
    rw [if_neg (by decide), List.append_nil] at hplus
    rw [List.append_assoc, List.append_assoc]
    refine hplus.trans (congrArg some ?_)
    omega
  · have hminus := hread 0x2D (Or.inr rfl)
    rw [if_pos rfl, List.append_nil] at hminus
    rw [List.append_assoc, List.append_assoc]
    refine hminus.trans (congrArg some ?_)
    omega

/-- The text of an offset does not go on with a time. -/
theorem stops_offset {minutes : ℤ} {s : PyStr} (h : IsOffset minutes s) :
    NoDigit s ∧ s.head? ≠ some 0x2E ∧ IsAscii s := by
  have hpadded (n : ℕ) : IsAscii (padded 10 2 n) := isAscii_padded (by decide) (by decide)
  have hcolon : IsAscii (text ":") := isAscii_text ":" rfl
  have hstart {c : CodePoint} {t : PyStr} (hdigit : c.isDigit = false) (hpoint : c ≠ 0x2E) :
      NoDigit (c :: t) ∧ (c :: t).head? ≠ some 0x2E := by
    refine ⟨fun b hb => ?_, fun heq => hpoint (Option.some.inj heq)⟩
    rw [← Option.some.inj hb]
    exact hdigit
  rcases h with ⟨-, rfl⟩ | ⟨-, rfl⟩ | ⟨-, rfl⟩
  · exact ⟨(hstart (by decide) (by decide)).1, (hstart (by decide) (by decide)).2,
      isAscii_text "Z" rfl⟩
  · exact ⟨(hstart (by decide) (by decide)).1, (hstart (by decide) (by decide)).2,
      (((isAscii_text "+" rfl).append (hpadded _)).append hcolon).append (hpadded _)⟩
  · exact ⟨(hstart (by decide) (by decide)).1, (hstart (by decide) (by decide)).2,
      (((isAscii_text "-" rfl).append (hpadded _)).append hcolon).append (hpadded _)⟩

/-- Padded digits are spanned up to what is no digit. -/
theorem spanDigits_padded {width n : ℕ} {s : PyStr} (h : NoDigit s) :
    (padded 10 width n ++ s).takeWhile CodePoint.isDigit = padded 10 width n ∧
      (padded 10 width n ++ s).dropWhile CodePoint.isDigit = s := by
  have hall := List.all_eq_true.1 (all_isDigit_padded width n)
  have hstop : s.takeWhile CodePoint.isDigit = [] ∧ s.dropWhile CodePoint.isDigit = s := by
    rcases s with - | ⟨c, s⟩
    · exact ⟨rfl, rfl⟩
    · have hc : ¬c.isDigit = true := Bool.eq_false_iff.1 (h c rfl)
      exact ⟨List.takeWhile_cons_of_neg hc, List.dropWhile_cons_of_neg hc⟩
  rw [List.takeWhile_append_of_pos hall, List.dropWhile_append_of_pos hall, hstop.1, hstop.2,
    List.append_nil]
  exact ⟨rfl, rfl⟩

/-- The seconds are read with their fraction, down to milliseconds, and what comes after them. -/
theorem clock_text {seconds micros : ℕ} {offset : PyStr} (hs : seconds < 60) (hm : micros < 1000000)
    (hdigit : NoDigit offset) (hpoint : offset.head? ≠ some 0x2E) :
    clock (0x3A :: (padded 10 2 seconds ++
      ((if micros = 0 then [] else text "." ++ padded 10 6 micros) ++ offset))) =
      some (seconds, micros / 1000, offset) := by
  have hseconds : seconds < 10 ^ 2 := by omega
  unfold clock
  rw [takeChar_cons]
  dsimp only
  rw [takeDigits_padded hseconds, Option.bind_eq_bind, Option.bind_some]
  dsimp only
  split_ifs with hzero
  · have hnone : takeChar 0x2E ([] ++ offset) = none := if_neg hpoint
    rw [hnone, hzero]
    rfl
  · obtain ⟨htake, hdrop⟩ := @spanDigits_padded 6 micros offset hdigit
    have hpart : text "." ++ padded 10 6 micros ++ offset =
      0x2E :: (padded 10 6 micros ++ offset) := rfl
    have hne : padded 10 6 micros ≠ [] :=
      List.append_ne_nil_of_right_ne_nil _ (List.cons_ne_nil _ _)
    -- Six digits are three for the milliseconds, and three that are dropped.
    have hthree : (padded 10 6 micros ++ text "00").take 3 = padded 10 3 (micros / 1000) := by
      have hsplit : padded 10 6 micros = padded 10 3 (micros / 1000) ++ padded 10 3 micros :=
        padded_add 10 3 3 micros
      rw [hsplit, List.append_assoc]
      exact List.take_left' (length_padded 10 3 _)
    rw [hpart, takeChar_cons]
    dsimp only
    rw [htake, hdrop, hthree, digitsValue_padded (by omega), guard, if_pos hne]
    rfl

/-- What is written of a time is of ASCII. -/
theorem isAscii_isoformat (c : Civil) : IsAscii (isoformat c) := by
  have hpadded (width n : ℕ) : IsAscii (padded 10 width n) := isAscii_padded (by decide) (by decide)
  have hhyphen : IsAscii (text "-") := isAscii_text "-" rfl
  have hcolon : IsAscii (text ":") := isAscii_text ":" rfl
  have hfraction : IsAscii (if c.microsecond = 0 then []
      else text "." ++ padded 10 6 c.microsecond) := by
    split_ifs
    · exact fun c hc => nomatch hc
    · exact (isAscii_text "." rfl).append (hpadded _ _)
  have hdate :=
    ((((hpadded 4 c.year).append hhyphen).append (hpadded 2 c.month)).append hhyphen).append
    (hpadded 2 c.day)
  have htime :=
    ((((hdate.append (isAscii_text "T" rfl)).append (hpadded 2 c.hour)).append hcolon).append
    (hpadded 2 c.minute)).append hcolon
  exact (htime.append (hpadded 2 c.second)).append hfraction

/-- A datetime is read as the instant that its text says. -/
theorem timeValue_isoformat (c : Civil) {minutes : ℤ} {offset : PyStr} (hlt : |minutes| < 24 * 60)
    (h : IsOffset minutes offset) :
    timeValue (isoformat c ++ offset) = some ((c.microseconds - 60 * second * minutes) / 1000) := by
  obtain ⟨hdigit, hpoint, -⟩ := stops_offset h
  have hyear : c.year < 10 ^ 4 := c.year_lt
  have hmonth : c.month < 10 ^ 2 := c.month_lt
  have hday : c.day < 10 ^ 2 := c.day_lt
  have hhour : c.hour < 10 ^ 2 := c.hour_lt.trans (by decide)
  have hminute : c.minute < 10 ^ 2 := c.minute_lt.trans (by decide)
  -- The text as the parser takes it apart, one part after the other.
  have hsplit : isoformat c ++ offset =
    padded 10 4 c.year ++ (0x2D :: (padded 10 2 c.month ++ (0x2D ::
      (padded 10 2 c.day ++ (0x54 ::
      (padded 10 2 c.hour ++ (0x3A :: (padded 10 2 c.minute ++ (0x3A ::
        (padded 10 2 c.second ++
          ((if c.microsecond = 0 then [] else text "." ++ padded 10 6 c.microsecond) ++
            offset))))))))))) := by
    unfold isoformat
    simp only [List.append_assoc]
    rfl
  rw [hsplit]
  unfold timeValue
  simp only [takeDigits_padded hyear, takeDigits_padded hmonth, takeDigits_padded hday,
    takeDigits_padded hhour, takeDigits_padded hminute, takeChar_cons,
    clock_text c.second_lt c.microsecond_lt hdigit hpoint, zone_offset hlt h, Option.bind_eq_bind,
    Option.bind_some, guard]
  -- All parts are in their ranges.
  rw [if_pos ⟨c.isDate, c.hour_lt, c.minute_lt, c.second_lt⟩]
  refine congrArg some ?_
  have hmicros := c.microsecond_lt
  unfold Civil.microseconds Civil.seconds second
  generalize dayNumber c.year c.month c.day = days
  push_cast
  omega

end MarketDataGateway.MarketData
