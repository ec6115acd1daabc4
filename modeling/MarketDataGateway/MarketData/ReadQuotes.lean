import MarketDataGateway.MarketData.Spelled
import MarketDataGateway.MarketData.Wire

/-!
# Which quotes the browser can read

A quote of the gateway is accepted, and its values are read, if and only if these are within the
bounds of the browser's schema (`wireQuote_modelDump`). They are narrower than those of the
gateway's model: a `sequence` has to be a safe integer, an `event_id` a UUID of RFC 9562, a `price`
a number that is neither rounded to zero nor to infinity, and the length of a `provider` is that in
UTF-16.
-/

namespace MarketDataGateway.MarketData

open Lib Models

/-! ## Values -/

/-- The float of an integer's literal is that of its digits. -/
theorem value_intLiteral (n : ℤ) :
    Binary64.ofLiteral (intLiteral n) = .ofDecimal (n < 0) n.natAbs 0 := by
  have hcoefficient : (intLiteral n).coefficient = n.natAbs := by
    unfold NumberLiteral.coefficient intLiteral
    rw [List.append_nil, Nat.ofDigitChars_ten_toDigits]
  rw [ofLiteral_eq_ofDecimal, hcoefficient]
  rfl

/-- An integer is accepted if it is safe. -/
theorem int_int (n : ℤ) :
    Schema.int (.int n) = if n.natAbs ≤ Schema.maxSafeInteger then some n else none := by
  have hnumber : Schema.number (.int n) = (Binary64.ofDecimal (n < 0) n.natAbs 0).value :=
    congrArg Binary64.value (value_intLiteral n)
  unfold Schema.int
  rw [hnumber]
  split_ifs with hsafe
  · -- A safe integer is a binary64 number, with the same value.
    have hlt : n.natAbs < 2 ^ 53 := by
      unfold Schema.maxSafeInteger at hsafe
      omega
    have hvalue : (if decide (n < 0) = true then -1 else 1) * (n.natAbs : ℚ) = n := by
      rw [← Int.cast_natCast, Int.natCast_natAbs]
      rcases lt_or_ge n 0 with hneg | hpos
      · rw [if_pos (decide_eq_true hneg), abs_of_neg hneg]
        push_cast
        ring
      · rw [if_neg (by rw [decide_eq_true_eq]; omega), abs_of_nonneg hpos, one_mul]
    have hbound : |(n : ℚ)| ≤ Schema.maxSafeInteger := by
      rw [← Int.cast_abs, ← Int.natCast_natAbs, Int.cast_natCast]
      exact Nat.cast_le.2 hsafe
    rw [value_ofDecimal_natCast _ hlt, hvalue, Option.bind_some, if_pos ⟨Rat.den_intCast n, hbound⟩,
      Rat.num_intCast]
  · -- What an integer that is not safe is read as is not safe either.
    have hge : 2 ^ 53 ≤ n.natAbs := by
      unfold Schema.maxSafeInteger at hsafe
      omega
    cases hx : (Binary64.ofDecimal (n < 0) n.natAbs 0).value with
    | none => rfl
    | some x =>
      have hlarge := le_abs_value_ofDecimal hge hx
      have hmax : (Schema.maxSafeInteger : ℚ) < 2 ^ 53 := by
        unfold Schema.maxSafeInteger
        norm_num
      rw [Option.bind_some, if_neg fun h => absurd (h.2.trans_lt hmax) hlarge.not_gt]

/-- A non-negative integer is read if it is safe. -/
theorem nonNegativeInt_int {n : ℤ} (h : 0 ≤ n) : Schema.nonNegativeInt (.int n) =
    if n ≤ Schema.maxSafeInteger then some n.toNat else none := by
  unfold Schema.nonNegativeInt
  rw [int_int]
  have hiff : n.natAbs ≤ Schema.maxSafeInteger ↔ n ≤ Schema.maxSafeInteger := by omega
  split_ifs with hnat hint hint
  · rw [Option.filter_some, if_pos (decide_eq_true h), Option.map_some]
  · exact absurd (hiff.1 hnat) hint
  · exact absurd (hiff.2 hint) hnat
  · rfl

/-- An integer that may be negative. -/
theorem nonNegativeInt_isSome {n : ℤ} :
    (Schema.nonNegativeInt (.int n)).isSome ↔ 0 ≤ n ∧ n ≤ Schema.maxSafeInteger := by
  rcases lt_or_ge n 0 with hneg | hpos
  · have hnone : Schema.nonNegativeInt (.int n) = none := by
      unfold Schema.nonNegativeInt
      rw [int_int]
      split_ifs
      · rw [Option.filter_some, if_neg (by rw [decide_eq_true_eq]; omega)]
        rfl
      · rfl
    rw [hnone]
    exact iff_of_false nofun fun h => by omega
  · rw [nonNegativeInt_int hpos]
    split_ifs with hle
    · exact iff_of_true rfl ⟨hpos, hle⟩
    · exact iff_of_false nofun fun h => hle h.2

/-- A positive integer is read if it is safe. -/
theorem positiveInt_int (n : PositiveInteger) : Schema.positiveInt (.int n.1) =
    if n.1 ≤ Schema.maxSafeInteger then some n.1.toNat else none := by
  have hpos := n.2
  unfold Schema.positiveInt
  rw [int_int]
  have hiff : n.1.natAbs ≤ Schema.maxSafeInteger ↔ n.1 ≤ Schema.maxSafeInteger := by omega
  split_ifs with hnat hint hint
  · rw [Option.filter_some, if_pos (decide_eq_true hpos), Option.map_some]
  · exact absurd (hiff.1 hnat) hint
  · exact absurd (hiff.2 hint) hnat
  · rfl

/-- A decimal is read as the number nearest to it. -/
theorem numeric_str (d : PyDecimal) : Schema.numeric (.str d.str) = d.toNumber.value := by
  have hnumber : Schema.number (.str d.str) = none := rfl
  have hstring : Schema.decimalString (.str d.str) =
      (decimalLiteral (units (utf16 d.str))).bind fun l => (Binary64.ofLiteral l).value := rfl
  unfold Schema.numeric
  rw [hnumber, hstring, (isAscii_str d).units_utf16, decimalLiteral_str, Option.bind_some,
    d.ofLiteral_literal, Option.none_or]

/-- The nearest number is neither zero nor infinite. -/
def RoundsPositive (d : PyDecimal) : Prop := 1 / 2 ^ 1075 < d.value ∧ d.value < Binary64.overflow

/-- A positive decimal, as what it is made of. -/
theorem value_eq {d : PyDecimal} (h : 0 < d.value) :
    d.negative = false ∧ d.value = d.coefficient * 10 ^ d.exponent := by
  have hpow : (0 : ℚ) < 10 ^ d.exponent := zpow_pos (by norm_num) _
  have hsigned : (0 : ℚ) < d.signed := by
    by_contra hle
    exact absurd h (not_lt.2 (mul_nonpos_of_nonpos_of_nonneg (not_lt.1 hle) hpow.le))
  have hneg : d.negative = false := by
    by_contra htrue
    have hvalue : d.signed = -d.coefficient := if_pos (eq_true_of_ne_false htrue)
    rw [hvalue] at hsigned
    push_cast at hsigned
    have hnonneg : (0 : ℚ) ≤ d.coefficient := Nat.cast_nonneg _
    linarith
  refine ⟨hneg, ?_⟩
  have hvalue : d.signed = d.coefficient := if_neg (by rw [hneg]; exact Bool.false_ne_true)
  unfold PyDecimal.value
  rw [hvalue, Int.cast_natCast]

/-- The number nearest to a positive decimal, if it is finite. -/
theorem toNumber_value {d : PyDecimal} (h : 0 < d.value) : d.toNumber.value =
    if d.value < Binary64.overflow then some (magnitude (decimalBits d.coefficient d.exponent))
    else none := by
  obtain ⟨hneg, hvalue⟩ := value_eq h
  unfold PyDecimal.toNumber
  rw [value_ofDecimal, hneg, if_neg Bool.false_ne_true, one_mul, hvalue]
  simp only [decimalBits_lt]

/-- A positive decimal is read if it rounds to a positive float, as that float. -/
theorem decimal_str {d : PyDecimal} (h : 0 < d.value) {x : ℚ} :
    Schema.decimal (.str d.str) = some x ↔ RoundsPositive d ∧ d.toNumber.value = some x := by
  obtain ⟨-, hvalue⟩ := value_eq h
  have hpos : 0 < magnitude (decimalBits d.coefficient d.exponent) ↔ 1 / 2 ^ 1075 < d.value := by
    have hzero := @decimalBits_eq_zero d.coefficient d.exponent
    rw [← hvalue] at hzero
    have hmagnitude : magnitude 0 = 0 := by
      unfold magnitude
      rw [units_eq_zero.2 rfl, Nat.cast_zero, zero_div]
    rw [← not_le, ← not_le, ← hzero]
    refine not_congr ⟨fun hle => ?_, fun hbits => ?_⟩
    · by_contra hne
      exact absurd hle (not_le.2 (magnitude_pos hne))
    · rw [hbits, hmagnitude]
  unfold Schema.decimal Schema.refine RoundsPositive
  rw [numeric_str, toNumber_value h]
  split_ifs with hfinite
  · rw [Option.filter_eq_some_iff, decide_eq_true_eq]
    constructor
    · rintro ⟨hx, hlt⟩
      rw [← Option.some.inj hx] at hlt
      exact ⟨⟨hpos.1 hlt, hfinite⟩, hx⟩
    · rintro ⟨⟨hlt, -⟩, hx⟩
      refine ⟨hx, ?_⟩
      rw [← Option.some.inj hx]
      exact hpos.2 hlt
  · exact iff_of_false nofun fun hx => hfinite hx.1.2

/-- A positive decimal is read as its float where zero is allowed. -/
theorem nonNegativeDecimal_str {d : PyDecimal} (h : 0 < d.value) :
    Schema.nonNegativeDecimal (.str d.str) = d.toNumber.value := by
  unfold Schema.nonNegativeDecimal Schema.refine
  rw [numeric_str, toNumber_value h]
  split_ifs
  · rw [Option.filter_some, if_pos (decide_eq_true (magnitude_nonneg _))]
  · rfl

/-- A positive decimal has a finite float below the overflow. -/
theorem isSome_toNumber_value {d : PyDecimal} (h : 0 < d.value) :
    d.toNumber.value.isSome ↔ d.value < Binary64.overflow := by
  rw [toNumber_value h]
  split_ifs with hfinite
  · exact iff_of_true rfl hfinite
  · exact iff_of_false nofun hfinite

/-! ## Strings -/

/-- A refined string is read if its code units are as required. -/
theorem refine_str (q : JsString → Bool) (s : PyStr) :
    (Schema.string.refine q) (.str s) = if q (utf16 s) then some (utf16 s) else none :=
  Option.filter_some

/-- A character has a code unit. -/
theorem length_codeUnits (c : CodePoint) : 1 ≤ (codeUnits c).length := by
  unfold codeUnits
  split_ifs
  · exact le_rfl
  · exact one_le_two

/-- A string has code units if it has characters. -/
theorem length_utf16_pos {s : PyStr} : 1 ≤ (utf16 s).length ↔ s ≠ [] := by
  rcases s with - | ⟨c, s⟩
  · exact iff_of_false nofun fun h => h rfl
  · have happend : (utf16 (c :: s)).length = (codeUnits c).length + (utf16 s).length :=
      List.length_append
    have hone := length_codeUnits c
    exact iff_of_true (by omega) (List.cons_ne_nil c s)

/-- A string with characters is read where one is required. -/
theorem nonEmpty_str {s : PyStr} (h : s ≠ []) : Schema.nonEmpty (.str s) = some (utf16 s) :=
  (refine_str _ s).trans (if_pos (decide_eq_true (length_utf16_pos.2 h)))

/-- A string is read where characters are required only if it has some. -/
theorem isSome_nonEmpty {s : PyStr} : (Schema.nonEmpty (.str s)).isSome ↔ s ≠ [] := by
  constructor
  · rintro h rfl
    exact nomatch h
  · intro h
    rw [nonEmpty_str h]
    rfl

/-- A string is read within a length if it has characters and no more code units than that. -/
theorem within_str (most : ℕ) (s : PyStr) : Schema.within most (.str s) =
    if s ≠ [] ∧ (utf16 s).length ≤ most then some (utf16 s) else none := by
  have hiff : (decide (1 ≤ (utf16 s).length) && decide ((utf16 s).length ≤ most)) = true ↔
      s ≠ [] ∧ (utf16 s).length ≤ most := by
    rw [Bool.and_eq_true, decide_eq_true_eq, decide_eq_true_eq, length_utf16_pos]
  have hrefine : Schema.within most (.str s) = _ := refine_str _ s
  rw [hrefine]
  simp only [hiff]

/-- A schema version is read. -/
theorem version_str (s : SchemaVersion) :
    (Schema.string.refine fun s => isVersion (units s)) (.str s.1) = some (utf16 s.1) := by
  obtain ⟨s, htake, hne, hdigits⟩ := s
  have hascii : IsAscii s := by
    rw [← List.take_append_drop 2 s, htake]
    refine (isAscii_text "1." rfl).append fun c hc => ?_
    have hdigit := List.all_eq_true.1 hdigits c hc
    unfold CodePoint.isDigit at hdigit
    simp only [Bool.and_eq_true, decide_eq_true_eq] at hdigit
    omega
  have hversion : isVersion (units (utf16 s)) = true := by
    rw [hascii.units_utf16]
    unfold isVersion
    rw [decide_eq_true htake, decide_eq_true hne, hdigits]
    rfl
  exact (refine_str _ s).trans (if_pos hversion)

/-- An identifier is read if it is one of RFC 9562. -/
theorem uuid_str (u : EventId) :
    (Schema.string.refine fun s => isUuid (units s)) (.str (uuidText u)) =
    if IsRfc9562 u then some (utf16 (uuidText u)) else none := by
  have hiff : isUuid (units (utf16 (uuidText u))) = true ↔ IsRfc9562 u := by
    rw [(isAscii_uuidText u).units_utf16, isUuid_uuidText]
  rw [refine_str]
  simp only [hiff]

/-- A symbol is read. -/
theorem symbol_str (s : Models.Symbol) : Schema.symbol (.str s.1) = some (utf16 s.1) := by
  obtain ⟨s, hpos, hle, hall⟩ := s
  have hval (c : CodePoint) (hc : c ∈ s) := isSymbolChar_cases (List.all_eq_true.1 hall c hc)
  have hunits : units (utf16 s) = s := by
    refine IsAscii.units_utf16 fun c hc => ?_
    have hc := hval c hc
    omega
  have hlength : (utf16 s).length = s.length := by
    have hmap := congrArg List.length hunits
    rwa [units, List.length_map] at hmap
  have hchars : ∀ c ∈ utf16 s, symbolChar c = true := by
    intro c hc
    have hmem : Fin.castLE (by decide) c ∈ s := by
      rw [← hunits]
      exact List.mem_map_of_mem hc
    have hclass := hval _ hmem
    rw [Fin.val_castLE] at hclass
    unfold symbolChar
    simp only [Bool.or_eq_true, Bool.and_eq_true, decide_eq_true_eq, beq_iff_eq]
    omega
  have htrim : trim (utf16 s) = utf16 s := trim_eq fun c hc => (symbolChar_spec (hchars c hc)).2.1
  have hsymbol : isSymbol (utf16 s) = true := by
    unfold isSymbol
    rw [hlength, decide_eq_true hpos, decide_eq_true hle, List.all_eq_true.2 hchars]
    rfl
  show ((some (utf16 s)).map trim).filter isSymbol = some (utf16 s)
  rw [Option.map_some, htrim, Option.filter_some, if_pos hsymbol]

/-- A datetime is read as the millisecond of the instant that is written. -/
theorem dateTime_dump {p : Pydantic} {t : Datetime} {minutes : ℤ → ℤ}
    (h : p.SpellsDatetime t (minutes (t.utcoffset.getD 0))) :
    ∃ s, Schema.dateTime (p.datetime.dump t) = some s ∧ dateParse s = t.written minutes / 1000 := by
  obtain ⟨c, offset, hnaive, hlt, hoffset, hdump⟩ := h
  have hascii : IsAscii (isoformat c ++ offset) :=
    (isAscii_isoformat c).append (stops_offset hoffset).2.2
  have htime := timeValue_isoformat c hlt hoffset
  rw [hdump]
  generalize isoformat c ++ offset = s at hascii htime
  rw [← hascii.units_utf16] at htime
  have hsome : (timeValue (units (utf16 s))).isSome = true := by
    rw [htime]
    rfl
  refine ⟨⟨utf16 s, hsome⟩, ?_, ?_⟩
  · have hstring : Schema.string (.str s) = some (utf16 s) := rfl
    unfold Schema.dateTime
    rw [hstring, Option.bind_some, dif_pos hsome]
  · unfold dateParse Datetime.written
    rw [hnaive]
    exact Option.get_of_eq_some _ htime

/-! ## Quotes -/

/-- The values of a quote are within the bounds of the browser. -/
structure QuoteFits (minutes : ℤ → ℤ) (e : QuoteFields) : Prop where
  /-- The UUID is one of RFC 9562. -/
  eventId : IsRfc9562 e.eventId
  /-- The price is neither rounded to zero nor to infinity. -/
  price : RoundsPositive e.price.1
  /-- The bid is not rounded to infinity. -/
  bid : ∀ d ∈ e.bid, d.1.value < Binary64.overflow
  /-- Nor is the ask. -/
  ask : ∀ d ∈ e.ask, d.1.value < Binary64.overflow
  /-- The sequence is a safe integer. -/
  sequence : ∀ n ∈ e.sequence, n.1 ≤ Schema.maxSafeInteger
  /-- So is the number of trades. -/
  tradeCount : ∀ n ∈ e.tradeCount, n.1 ≤ Schema.maxSafeInteger
  /-- The provider is short enough in UTF-16. -/
  provider : (utf16 e.provider.1).length ≤ 64
  /-- The minutes that are written for an offset make no difference of a millisecond. -/
  instant : ∀ t ∈ [e.providerTimestamp, e.receivedAt],
    t.1.written minutes / 1000 = t.1.instant / 1000

/-- A quote of the browser has the values of one of the gateway. -/
structure Carries (e : QuoteFields) (n : NormalizedQuote) : Prop where
  eventId : n.eventId = utf16 (uuidText e.eventId)
  symbol : n.symbol = utf16 e.symbol.1
  provider : n.provider = utf16 e.provider.1
  sequence : n.sequence.map Int.ofNat = e.sequence.map Subtype.val
  price : some n.price = e.price.1.toNumber.value
  bid : n.bid.map some = e.bid.map fun d => d.1.toNumber.value
  ask : n.ask.map some = e.ask.map fun d => d.1.toNumber.value
  providerTimestamp : n.providerTimestampMs = e.providerTimestamp.1.instant / 1000
  receivedAt : n.receivedAtMs = e.receivedAt.1.instant / 1000

section Quote

variable {p : Pydantic} {minutes : ℤ → ℤ} {e : QuoteFields} {α β : Type}

/-- A field that may be absent. -/
theorem nullish_dumpOption (s : Schema β) (c : Codec α) (o : Option α) :
    s.nullish ((some (c.dumpOption o)).filter fun v => !v.isNull) =
      o.elim (some none) fun a => (s (c.dump a)).map some := by
  cases o with
  | none => rfl
  | some a =>
    have hdump : c.dumpOption (some a) = c.dump a := rfl
    have hnull := c.dump_ne_null a
    rw [hdump, c.filter_dump a]
    show Schema.nullish s (some (c.dump a)) = (s (c.dump a)).map some
    generalize c.dump a = v at hnull
    cases v with
    | null => exact absurd rfl hnull
    | _ => rfl

/-- An optional decimal is read as its float. -/
theorem nullish_decimal {o : Option PositiveDecimal}
    (h : ∀ d ∈ o, p.decimal.dump d.1 = .str d.1.str)
    {r : Option ℚ} :
    Schema.nonNegativeDecimal.nullish
    ((some (p.positiveDecimal.dumpOption o)).filter fun v => !v.isNull) =
        some r ↔ r.map some = o.map fun d => d.1.toNumber.value := by
  rw [nullish_dumpOption]
  cases o with
  | none =>
    show some none = some r ↔ r.map some = none
    rw [Option.map_eq_none_iff, Option.some_inj, eq_comm]
  | some d =>
    have hdump : p.positiveDecimal.dump d = .str d.1.str := h d rfl
    show (Schema.nonNegativeDecimal (p.positiveDecimal.dump d)).map some = some r ↔
      r.map some = some d.1.toNumber.value
    rw [hdump, nonNegativeDecimal_str d.2, Option.map_eq_some_iff, Option.map_eq_some_iff]
    constructor
    · rintro ⟨x, hx, rfl⟩
      exact ⟨x, rfl, hx.symm⟩
    · rintro ⟨x, rfl, hx⟩
      exact ⟨x, hx.symm, rfl⟩

/-- An optional integer is read if it is safe. -/
theorem nullish_int {o : Option NonNegativeInteger} {r : Option ℕ} :
    Schema.nonNegativeInt.nullish
    ((some (p.nonNegativeInteger.dumpOption o)).filter fun v => !v.isNull) =
        some r ↔ (∀ n ∈ o, n.1 ≤ Schema.maxSafeInteger) ∧ r = o.map fun n => n.1.toNat := by
  rw [nullish_dumpOption]
  cases o with
  | none =>
    show some none = some r ↔ _
    rw [Option.some_inj, eq_comm]
    exact ⟨fun h => ⟨(fun n hn => nomatch hn), h⟩, fun h => h.2⟩
  | some n =>
    have hdump : p.nonNegativeInteger.dump n = .int n.1 := rfl
    rw [Option.elim_some, hdump, nonNegativeInt_int n.2, Option.map_some]
    split_ifs with hle
    · rw [Option.map_some, Option.some_inj, eq_comm]
      refine ⟨fun h => ⟨fun m hm => ?_, h⟩, fun h => h.2⟩
      rw [← Option.some.inj hm]
      exact hle
    · rw [Option.map_none]
      exact iff_of_false nofun fun h => hle (h.1 n rfl)

/-- What the schema makes of a quote, field by field. -/
theorem wireQuoteFields_modelDump (hp : p.Spells minutes e) {q : WireQuote} :
    wireQuoteFields (e.modelDump p) = some q ↔
      (q.schemaVersion = utf16 e.schemaVersion.1 ∧ q.symbol = utf16 e.symbol.1 ∧ q.lastSize = none ∧
        q.cumulativeVolume = none) ∧
      (IsRfc9562 e.eventId ∧ q.eventId = utf16 (uuidText e.eventId)) ∧
      (RoundsPositive e.price.1 ∧ e.price.1.toNumber.value = some q.price) ∧
      q.bid.map some = (e.bid.map fun d => d.1.toNumber.value) ∧
      q.ask.map some = (e.ask.map fun d => d.1.toNumber.value) ∧
      Schema.dateTime (p.awareDatetime.dump e.providerTimestamp) = some q.providerTimestamp ∧
      Schema.dateTime (p.awareDatetime.dump e.receivedAt) = some q.receivedAt ∧
      ((∀ n ∈ e.sequence, n.1 ≤ Schema.maxSafeInteger) ∧
      q.sequence = e.sequence.map fun n => n.1.toNat) ∧
      ((utf16 e.provider.1).length ≤ 64 ∧ q.provider = utf16 e.provider.1) ∧
      ((∀ n ∈ e.tradeCount, n.1 ≤ Schema.maxSafeInteger) ∧
        q.tradeCount = e.tradeCount.map fun n => n.1.toNat) := by
  -- What each field of the dump is read as.
  have hmem (o : Option PositiveDecimal) (ho : o = e.bid ∨ o = e.ask) :
      ∀ d ∈ o, p.decimal.dump d.1 = .str d.1.str := by
    intro d hd
    refine hp.decimal d.1 (List.mem_cons_of_mem _
      (List.mem_append_left _ (List.mem_flatMap.2 ⟨o, ?_, ?_⟩)))
    · rcases ho with rfl | rfl
      · exact List.mem_cons_self
      · exact List.mem_cons_of_mem _ List.mem_cons_self
    · rw [Option.mem_def.1 hd]
      exact List.mem_singleton.2 rfl
  have hversion : (Schema.string.refine fun s => isVersion (units s))
      (SchemaVersion.codec.dump e.schemaVersion) = some (utf16 e.schemaVersion.1) := version_str _
  have huuid : (Schema.string.refine fun s => isUuid (units s)) (p.uuid.dump e.eventId) =
      if IsRfc9562 e.eventId then some (utf16 (uuidText e.eventId)) else none := by
    rw [hp.uuid]
    exact uuid_str _
  have hsymbol : Schema.symbol (p.symbol.dump e.symbol) = some (utf16 e.symbol.1) := symbol_str _
  have hprice (x : ℚ) : Schema.decimal (p.positiveDecimal.dump e.price) = some x ↔
      RoundsPositive e.price.1 ∧ e.price.1.toNumber.value = some x := by
    have hdump : p.positiveDecimal.dump e.price = .str e.price.1.str :=
      hp.decimal e.price.1 List.mem_cons_self
    rw [hdump]
    exact decimal_str e.price.2
  have hprovider : Schema.within 64 (Provider.codec.dump e.provider) =
      if (utf16 e.provider.1).length ≤ 64 then some (utf16 e.provider.1) else none := by
    have hne : e.provider.1 ≠ [] := List.length_pos_iff.1 e.provider.2.1
    refine (within_str 64 e.provider.1).trans ?_
    simp only [hne, ne_eq, not_false_eq_true, true_and]
  have habsent {α : Type} (s : Schema α) :
      s.nullish (Option.filter (fun v => !v.isNull) none) = some none :=
    rfl
  -- So the schema is a conjunction, of one condition for each field.
  unfold QuoteFields.modelDump
  simp only [wireQuoteFields, Schema.object, getKey_dropNull e.nodup_items]
  simp only [QuoteFields.items, List.lookup_cons, List.lookup_nil, String.reduceBEq]
  simp only [Codec.filter_dump, Schema.required, Option.bind_some, hversion, huuid, hsymbol, hprice,
    hprovider, habsent, Option.bind_eq_bind, Option.bind_eq_some_iff, Option.pure_def,
    nullish_decimal (hmem e.bid (Or.inl rfl)),
    nullish_decimal (hmem e.ask (Or.inr rfl)), nullish_int,
    Option.some_inj, Option.ite_none_right_eq_some]
  clear huuid hsymbol hversion hprovider
  generalize utf16 (uuidText e.eventId) = eventId
  generalize utf16 e.schemaVersion.1 = schemaVersion
  generalize utf16 e.symbol.1 = symbol
  generalize utf16 e.provider.1 = provider
  obtain ⟨version, id, name, price, bid, ask, provided, received, sequence, source,
    size, volume, count⟩ := q
  simp only [WireQuote.mk.injEq]
  constructor
  · rintro ⟨_, ⟨huuid, hid⟩, _, hprice, _, hbid, _, hask, _, hprovided, _, hreceived, _, hsequence,
      _, ⟨hshort, hname⟩, _, hcount, rfl, rfl, rfl, rfl, rfl, rfl, rfl, rfl,
      rfl, rfl, rfl, rfl, rfl⟩
    exact ⟨⟨rfl, rfl, rfl, rfl⟩, ⟨huuid, hid.symm⟩, hprice, hbid, hask, hprovided, hreceived,
      hsequence, ⟨hshort, hname.symm⟩, hcount⟩
  · rintro ⟨⟨rfl, rfl, rfl, rfl⟩, ⟨huuid, rfl⟩, hprice, hbid, hask, hprovided, hreceived, hsequence,
      ⟨hshort, rfl⟩, hcount⟩
    exact ⟨_, ⟨huuid, rfl⟩, _, hprice, _, hbid, _, hask, _, hprovided, _, hreceived, _, hsequence,
      _, ⟨hshort, rfl⟩, _, hcount, rfl, rfl, rfl, rfl, rfl, rfl, rfl, rfl, rfl, rfl, rfl, rfl, rfl⟩

/-- Rounding keeps the order of positive decimals. -/
theorem toNumber_le {d d' : PyDecimal} {x x' : ℚ} (h : 0 < d.value) (h' : 0 < d'.value)
    (hle : d.value ≤ d'.value) (hx : d.toNumber.value = some x)
    (hx' : d'.toNumber.value = some x') :
    x ≤ x' := by
  obtain ⟨-, hvalue⟩ := value_eq h
  obtain ⟨-, hvalue'⟩ := value_eq h'
  rw [hvalue, hvalue'] at hle
  rw [toNumber_value h] at hx
  rw [toNumber_value h'] at hx'
  split_ifs at hx hx'
  rw [← Option.some.inj hx, ← Option.some.inj hx']
  exact magnitude_mono (decimalBits_mono hle)

/-- What `validate_market` demands of the bid and the ask. -/
theorem bid_le_ask (e : Models.QuoteEvent) :
    ∀ bid ∈ e.bid, ∀ ask ∈ e.ask, bid.1.value ≤ ask.1.value := by
  intro bid hbid ask hask
  by_contra hlt
  have hvalid := e.valid
  unfold QuoteFields.validateMarket at hvalid
  rw [if_pos ⟨bid, hbid, ask, hask, not_le.1 hlt⟩] at hvalid
  exact nomatch hvalid

/-- The spread of a quote is that of its floats. -/
theorem spreads_of {e : Models.QuoteEvent} {q : WireQuote}
    (hbid : q.bid.map some = e.bid.map fun d => d.1.toNumber.value)
    (hask : q.ask.map some = e.ask.map fun d => d.1.toNumber.value) : q.spreads = true := by
  unfold WireQuote.spreads
  split
  · next x y hx hy =>
    rw [hx, Option.map_some, eq_comm, Option.map_eq_some_iff] at hbid
    rw [hy, Option.map_some, eq_comm, Option.map_eq_some_iff] at hask
    obtain ⟨bid, hbid, hx⟩ := hbid
    obtain ⟨ask, hask, hy⟩ := hask
    exact decide_eq_true (toNumber_le bid.2 ask.2 (bid_le_ask e bid hbid ask hask) hx hy)
  · rfl

/-- A decimal that is read is below the overflow. -/
theorem finite_of_map {o : Option PositiveDecimal} {r : Option ℚ}
    (h : r.map some = o.map fun d => d.1.toNumber.value) :
    ∀ d ∈ o, d.1.value < Binary64.overflow := by
  intro d hd
  rw [Option.mem_def.1 hd, Option.map_some, Option.map_eq_some_iff] at h
  obtain ⟨x, -, hx⟩ := h
  refine (isSome_toNumber_value d.2).1 ?_
  rw [← hx]
  rfl

/-- A decimal below the overflow is read. -/
theorem exists_map_of_finite {o : Option PositiveDecimal}
    (h : ∀ d ∈ o, d.1.value < Binary64.overflow) :
    ∃ r : Option ℚ, r.map some = o.map fun d => d.1.toNumber.value := by
  cases o with
  | none => exact ⟨none, rfl⟩
  | some d =>
    obtain ⟨x, hx⟩ := Option.isSome_iff_exists.1 ((isSome_toNumber_value d.2).2 (h d rfl))
    exact ⟨some x, congrArg some hx.symm⟩

/-- A natural number is the integer that it comes from. -/
theorem map_toNat {o : Option NonNegativeInteger} :
    (o.map fun n => n.1.toNat).map Int.ofNat = o.map Subtype.val := by
  cases o with
  | none => rfl
  | some n => exact congrArg some (Int.toNat_of_nonneg n.2)

/-- The browser accepts a quote, and reads its values, if they are within its bounds. -/
theorem wireQuote_modelDump {e : Models.QuoteEvent} (hp : p.Spells minutes e.toQuoteFields) :
    (∃ q, wireQuoteSchema (e.modelDump p) = some q ∧
    Carries e.toQuoteFields (normalizeWireQuote q)) ↔
      QuoteFits minutes e.toQuoteFields := by
  obtain ⟨provided, hprovided, hprovidedMs⟩ :=
    dateTime_dump (hp.datetime e.providerTimestamp List.mem_cons_self)
  obtain ⟨received, hreceived, hreceivedMs⟩ :=
    dateTime_dump (hp.datetime e.receivedAt (List.mem_cons_of_mem _ List.mem_cons_self))
  unfold wireQuoteSchema Schema.refine
  constructor
  · rintro ⟨q, hq, hcarries⟩
    obtain ⟨hq, -⟩ := Option.filter_eq_some_iff.1 hq
    obtain ⟨-, ⟨huuid, -⟩, ⟨hprice, -⟩, hbid, hask, hprovider, hreceive, ⟨hsequence, -⟩,
      ⟨hshort, -⟩, ⟨hcount, -⟩⟩ := (wireQuoteFields_modelDump hp).1 hq
    -- The dates are read in whole milliseconds, which are those of the event.
    have hinstants : e.providerTimestamp.1.written minutes / 1000 =
      e.providerTimestamp.1.instant / 1000 ∧
        e.receivedAt.1.written minutes / 1000 = e.receivedAt.1.instant / 1000 := by
      refine ⟨?_, ?_⟩
      · rw [← hprovidedMs, ← hcarries.providerTimestamp]
        exact congrArg dateParse (Option.some.inj (hprovided.symm.trans hprovider))
      · rw [← hreceivedMs, ← hcarries.receivedAt]
        exact congrArg dateParse (Option.some.inj (hreceived.symm.trans hreceive))
    refine ⟨huuid, hprice, finite_of_map hbid, finite_of_map hask, hsequence, hcount, hshort, ?_⟩
    intro t ht
    rcases List.mem_cons.1 ht with rfl | ht
    · exact hinstants.1
    · rw [List.mem_singleton.1 ht]
      exact hinstants.2
  · intro hfits
    obtain ⟨bid, hbid⟩ := exists_map_of_finite hfits.bid
    obtain ⟨ask, hask⟩ := exists_map_of_finite hfits.ask
    obtain ⟨price, hprice⟩ :=
      Option.isSome_iff_exists.1 ((isSome_toNumber_value e.price.2).2 hfits.price.2)
    obtain ⟨eventId, hid⟩ : ∃ eventId, eventId = utf16 (uuidText e.eventId) := ⟨_, rfl⟩
    -- The quote that the schema gives.
    let q : WireQuote := ⟨utf16 e.schemaVersion.1, eventId, utf16 e.symbol.1, price, bid, ask,
      provided, received, e.sequence.map fun n => n.1.toNat, utf16 e.provider.1, none, none,
      e.tradeCount.map fun n => n.1.toNat⟩
    have hfields : wireQuoteFields (e.modelDump p) = some q :=
      (wireQuoteFields_modelDump hp).2 ⟨⟨rfl, rfl, rfl, rfl⟩, ⟨hfits.eventId, hid⟩,
        ⟨hfits.price, hprice⟩, hbid, hask, hprovided, hreceived, ⟨hfits.sequence, rfl⟩,
        ⟨hfits.provider, rfl⟩, hfits.tradeCount, rfl⟩
    refine ⟨q, ?_, ?_⟩
    · rw [hfields, Option.filter_some, if_pos (spreads_of hbid hask)]
    · refine ⟨hid, rfl, rfl, map_toNat, hprice.symm, hbid, hask, ?_, ?_⟩
      · exact hprovidedMs.trans (hfits.instant _ List.mem_cons_self)
      · exact hreceivedMs.trans (hfits.instant _ (List.mem_cons_of_mem _ List.mem_cons_self))

end Quote

end MarketDataGateway.MarketData
