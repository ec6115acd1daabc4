import MarketDataGateway.Lib.Binary64

/-!
# Decimal literals

A literal is its digits: those before the point, those after it, and those of an exponent.
`Binary64.ofLiteral` is `float` of a literal and `Binary64.literal` the literal that `repr` writes
for a finite number, which `layout` lays out with or without an exponent.

`ofLiteral_literal` is the round trip, and `wellFormed_literal` says that the literal has the syntax
of a number with a fraction or an exponent.
-/

namespace MarketDataGateway.Lib

/-- A decimal literal. -/
structure NumberLiteral where
  /-- Whether there is a minus sign. -/
  negative : Bool
  /-- The digits before the point. -/
  whole : List Char
  /-- The digits after the point, if there is one. -/
  fraction : List Char
  /-- The exponent: whether it has a minus sign, and its digits. -/
  exponent : Option (Bool × List Char)
  deriving DecidableEq

namespace NumberLiteral

/-- The literal has a fraction or an exponent. -/
def IsFloat (l : NumberLiteral) : Prop := l.fraction ≠ [] ∨ l.exponent ≠ none

instance (l : NumberLiteral) : Decidable l.IsFloat := inferInstanceAs (Decidable (_ ∨ _))

/-- The digits, without the point, as a number. -/
def coefficient (l : NumberLiteral) : ℕ := Nat.ofDigitChars 10 (l.whole ++ l.fraction) 0

/-- The power of ten that the exponent writes. -/
def tens (l : NumberLiteral) : ℤ :=
  match l.exponent with
  | none => 0
  | some (negative, digits) =>
    if negative then -(Nat.ofDigitChars 10 digits 0 : ℤ) else Nat.ofDigitChars 10 digits 0

/-- The power of ten with which the coefficient is multiplied. -/
def power (l : NumberLiteral) : ℤ := l.tens - l.fraction.length

/-- The literal has the syntax of a number. -/
structure WellFormed (l : NumberLiteral) : Prop where
  whole : l.whole ≠ [] ∧ ∀ c ∈ l.whole, c.isDigit = true
  /-- There is no leading zero. -/
  leading : l.whole = ['0'] ∨ l.whole.head? ≠ some '0'
  fraction : ∀ c ∈ l.fraction, c.isDigit = true
  exponent : ∀ e ∈ l.exponent, e.2 ≠ [] ∧ ∀ c ∈ e.2, c.isDigit = true

end NumberLiteral

/-! ## Reading a literal -/

/-- The bits of the magnitude nearest to `m * 10 ^ k`, without a bound on the exponent. -/
def decimalBits (m : ℕ) (k : ℤ) : ℕ := nearest (m * 10 ^ k.toNat) (10 ^ (-k).toNat)

/-- `float` of a literal. -/
def Binary64.ofLiteral (l : NumberLiteral) : Binary64 :=
  if h : decimalBits l.coefficient l.power < 2047 * 2 ^ 52 then .finite l.negative ⟨_, h⟩
  else .infinite l.negative

/-- A coefficient with zeros at its end is that without them. -/
theorem decimalBits_eq {m j p : ℕ} {k : ℤ} (hk : k + j = p - subnormal) :
    decimalBits (m * 10 ^ j) k = ofDecimalUnits m p := by
  refine nearest_congr (by positivity) (by positivity) ?_
  have hexponent : j + k.toNat + subnormal = p + (-k).toNat := by omega
  calc m * 10 ^ j * 10 ^ k.toNat * 10 ^ subnormal
      = m * 10 ^ (j + k.toNat + subnormal) := by ring
    _ = m * 10 ^ (p + (-k).toNat) := by rw [hexponent]
    _ = m * 10 ^ p * 10 ^ (-k).toNat := by ring

/-! ## Writing a literal -/

/-- At least two digits. -/
def twoDigits (digits : List Char) : List Char :=
  if digits.length < 2 then '0' :: digits else digits

/-- The literal of a number whose digits are to stand from the given place before the point on. -/
def layout (negative : Bool) (digits : List Char) (point : ℤ) : NumberLiteral :=
  if -4 < point ∧ point ≤ 16 then
    if point ≤ 0 then ⟨negative, ['0'], List.replicate (-point).toNat '0' ++ digits, none⟩
    else if digits.length ≤ point then
      ⟨negative, digits ++ List.replicate (point - digits.length).toNat '0', ['0'], none⟩
    else ⟨negative, digits.take point.toNat, digits.drop point.toNat, none⟩
  else
    ⟨negative, digits.take 1, digits.drop 1,
      some (point - 1 < 0, twoDigits (Nat.toDigits 10 (point - 1).natAbs))⟩

/-- The literal that `repr` writes for a finite number. -/
def Binary64.literal (negative : Bool) (bits : ℕ) : NumberLiteral :=
  if h : bits = 0 then ⟨negative, ['0'], ['0'], none⟩
  else
    layout negative (Nat.toDigits 10 (shortest bits h).1)
      ((Nat.toDigits 10 (shortest bits h).1).length + (shortest bits h).2 - subnormal)

section Layout

variable {digits : List Char} {point : ℤ} {negative : Bool}

/-- A leading zero does not count. -/
theorem ofDigitChars_zero_cons (digits : List Char) :
    Nat.ofDigitChars 10 ('0' :: digits) 0 = Nat.ofDigitChars 10 digits 0 :=
  Nat.ofDigitChars_cons

/-- Digits that are filled up to two are the same number. -/
theorem ofDigitChars_twoDigits (digits : List Char) :
    Nat.ofDigitChars 10 (twoDigits digits) 0 = Nat.ofDigitChars 10 digits 0 := by
  unfold twoDigits
  split_ifs
  · exact ofDigitChars_zero_cons digits
  · rfl

/-- A layout has the sign that is given. -/
theorem negative_layout : (layout negative digits point).negative = negative := by
  unfold layout
  split_ifs <;> rfl

/-- The literal writes the digits, up to zeros at their end. -/
theorem layout_spec (hdigits : digits ≠ []) : ∃ j : ℕ,
    (layout negative digits point).coefficient = Nat.ofDigitChars 10 digits 0 * 10 ^ j ∧
      (layout negative digits point).power + j = point - digits.length := by
  have hlength : 0 < digits.length := List.length_pos_iff.2 hdigits
  unfold layout
  split_ifs with hfixed hsmall hlarge
  · -- Below one: the zeros in front do not count.
    refine ⟨0, ?_, ?_⟩
    · unfold NumberLiteral.coefficient
      simp only [List.cons_append, List.nil_append, pow_zero, mul_one]
      rw [ofDigitChars_zero_cons, Nat.ofDigitChars_append, Nat.ofDigitChars_replicate_zero,
        Nat.mul_zero]
    · simp only [NumberLiteral.power, NumberLiteral.tens, List.length_append,
        List.length_replicate]
      omega
  · -- Whole: the zeros behind are powers of ten, and one more is behind the point.
    refine ⟨(point - digits.length).toNat + 1, ?_, ?_⟩
    · unfold NumberLiteral.coefficient
      rw [Nat.ofDigitChars_append, Nat.ofDigitChars_append, Nat.ofDigitChars_replicate_zero]
      change 10 * _ + 0 = _
      rw [pow_succ]
      ring
    · simp only [NumberLiteral.power, NumberLiteral.tens, List.length_singleton]
      omega
  · -- The digits are parted by the point.
    refine ⟨0, ?_, ?_⟩
    · unfold NumberLiteral.coefficient
      rw [List.take_append_drop, pow_zero, mul_one]
    · simp only [NumberLiteral.power, NumberLiteral.tens, List.length_drop]
      omega
  · -- With an exponent, the point is behind the first digit.
    refine ⟨0, ?_, ?_⟩
    · unfold NumberLiteral.coefficient
      rw [List.take_append_drop, pow_zero, mul_one]
    · simp only [NumberLiteral.power, NumberLiteral.tens, List.length_drop]
      rw [ofDigitChars_twoDigits, Nat.ofDigitChars_ten_toDigits]
      by_cases hneg : point - 1 < 0
      · simp only [hneg, decide_true, if_true]
        omega
      · simp only [hneg, decide_false, if_false, Bool.false_eq_true]
        omega

/-- A number other than zero has no leading zero. -/
theorem head?_toDigits {n : ℕ} (hn : 0 < n) : (Nat.toDigits 10 n).head? ≠ some '0' := by
  induction n using Nat.strong_induction_on with
  | _ n ih =>
    rw [Nat.toDigits_eq_if (by decide)]
    split_ifs with hlt
    · rw [List.head?_cons]
      intro h
      have hzero := Nat.digitChar_eq_zero.1 (Option.some.inj h)
      omega
    · have hhead := ih (n / 10) (by omega) (by omega)
      obtain ⟨d, ds, hd⟩ := List.exists_cons_of_ne_nil (Nat.toDigits_ne_nil (n := n / 10) (b := 10))
      rw [hd] at hhead ⊢
      exact hhead

/-- The literal has the syntax of a number. -/
theorem wellFormed_layout (hne : digits ≠ []) (hdigits : ∀ c ∈ digits, c.isDigit = true)
    (hhead : digits.head? ≠ some '0') :
    (layout negative digits point).WellFormed ∧ (layout negative digits point).IsFloat := by
  have hzero : ∀ c ∈ ['0'], c.isDigit = true := List.forall_mem_singleton.2 rfl
  have hzeros (n : ℕ) : ∀ c ∈ List.replicate n '0', c.isDigit = true := fun c hc => by
    rw [List.eq_of_mem_replicate hc]
    decide
  have happend {a b : List Char} (ha : ∀ c ∈ a, c.isDigit = true)
      (hb : ∀ c ∈ b, c.isDigit = true) : ∀ c ∈ a ++ b, c.isDigit = true := fun c hc =>
    (List.mem_append.1 hc).elim (ha c) (hb c)
  obtain ⟨d, ds, rfl⟩ := List.exists_cons_of_ne_nil hne
  unfold layout
  split_ifs with hfixed hsmall hlarge
  · -- A fraction below one: zeros stand before the digits.
    refine ⟨⟨⟨by simp, hzero⟩, Or.inl rfl, happend (hzeros _) hdigits, by simp⟩, Or.inl ?_⟩
    simp
  · -- A whole number: zeros stand behind the digits.
    refine ⟨⟨⟨by simp, happend hdigits (hzeros _)⟩, Or.inr hhead, hzero, by simp⟩, Or.inl ?_⟩
    simp
  · -- The point falls among the digits.
    have hsplit : ∀ c ∈ (d :: ds).take point.toNat ++ (d :: ds).drop point.toNat,
        c.isDigit = true := by
      rw [List.take_append_drop]
      exact hdigits
    obtain ⟨n, hn⟩ : ∃ n, point.toNat = n + 1 := ⟨point.toNat - 1, by omega⟩
    rw [hn] at hsplit ⊢
    refine ⟨⟨⟨by simp, fun c hc => hsplit c (List.mem_append_left _ hc)⟩, Or.inr hhead,
      fun c hc => hsplit c (List.mem_append_right _ hc), by simp⟩, Or.inl ?_⟩
    rw [← List.length_pos_iff, List.length_drop]
    omega
  · -- With an exponent, which has two digits at least.
    have htens : ∀ c ∈ twoDigits (Nat.toDigits 10 (point - 1).natAbs), c.isDigit = true := by
      have hall : ∀ c ∈ Nat.toDigits 10 (point - 1).natAbs, c.isDigit = true := fun c hc =>
        Nat.isDigit_of_mem_toDigits (by decide) (by decide) hc
      unfold twoDigits
      split_ifs
      · exact happend hzero hall
      · exact hall
    have hnonempty : twoDigits (Nat.toDigits 10 (point - 1).natAbs) ≠ [] := by
      unfold twoDigits
      split_ifs
      · exact List.cons_ne_nil _ _
      · exact Nat.toDigits_ne_nil
    refine ⟨⟨⟨by simp, fun c hc => hdigits c (List.mem_of_mem_take hc)⟩, Or.inr hhead,
      fun c hc => hdigits c (List.mem_of_mem_drop hc), ?_⟩, Or.inr (by simp)⟩
    rintro e ⟨⟩
    exact ⟨hnonempty, htens⟩

end Layout

/-- What `repr` writes has the syntax of a number with a fraction or an exponent. -/
theorem wellFormed_literal (negative : Bool) (bits : ℕ) :
    (Binary64.literal negative bits).WellFormed ∧ (Binary64.literal negative bits).IsFloat := by
  have hzero : ∀ c ∈ ['0'], c.isDigit = true := List.forall_mem_singleton.2 rfl
  unfold Binary64.literal
  split_ifs with h
  · exact ⟨⟨⟨by simp, hzero⟩, Or.inl rfl, hzero, by simp⟩, Or.inl (by simp)⟩
  · exact wellFormed_layout Nat.toDigits_ne_nil
      (fun c hc => Nat.isDigit_of_mem_toDigits (by decide) (by decide) hc)
      (head?_toDigits (shortest_pos h))

/-- Zero has no bits. -/
theorem decimalBits_zero (k : ℤ) : decimalBits 0 k = 0 := by
  unfold decimalBits nearest roundHalfEven
  simp

/-- A literal is the finite float of its bits. -/
theorem ofLiteral_eq {l : NumberLiteral} {bits : Fin (2047 * 2 ^ 52)}
    (h : decimalBits l.coefficient l.power = bits.val) :
    Binary64.ofLiteral l = .finite l.negative bits := by
  unfold Binary64.ofLiteral
  rw [dif_pos (h ▸ bits.isLt)]
  congr 1
  exact Fin.ext h

/-- The shortest literal of a float has its bits. -/
theorem decimalBits_literal (negative : Bool) (bits : ℕ) :
    decimalBits (Binary64.literal negative bits).coefficient
      (Binary64.literal negative bits).power = bits := by
  unfold Binary64.literal
  split_ifs with h
  · rw [h]
    exact decimalBits_zero _
  · have hdigits : Nat.toDigits 10 (shortest bits h).1 ≠ [] := Nat.toDigits_ne_nil
    have hvalue := Nat.ofDigitChars_ten_toDigits (n := (shortest bits h).1)
    have hread := ofDecimalUnits_shortest h
    generalize Nat.toDigits 10 (shortest bits h).1 = digits at *
    generalize shortest bits h = pair at *
    obtain ⟨j, hcoefficient, hpower⟩ :=
      @layout_spec digits (digits.length + pair.2 - subnormal) negative hdigits
    rw [hcoefficient, hvalue, decimalBits_eq (p := pair.2) (by omega)]
    exact hread

/-- The literal of a float has its sign. -/
theorem negative_literal (negative : Bool) (bits : ℕ) :
    (Binary64.literal negative bits).negative = negative := by
  unfold Binary64.literal
  split_ifs with h
  · rfl
  · rw [negative_layout]

/-- What `repr` writes for a finite number is read as that number. -/
theorem ofLiteral_literal (negative : Bool) (bits : Fin (2047 * 2 ^ 52)) :
    Binary64.ofLiteral (Binary64.literal negative bits.val) = .finite negative bits := by
  rw [ofLiteral_eq (decimalBits_literal negative bits.val), negative_literal]

end MarketDataGateway.Lib
