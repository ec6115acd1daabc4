import Mathlib.Algebra.Order.Group.Nat
import Mathlib.Algebra.Order.Ring.Int
import Mathlib.Data.Nat.Log
import Mathlib.Tactic.Linarith
import Mathlib.Tactic.Ring

/-!
# Floating-point numbers and their decimal literals

A finite number of the IEEE 754 format `binary64` is a sign and the number that its other bits make,
which grows with the magnitude. `nearest` rounds a quotient of natural numbers to the nearest
magnitude, ties to even, and `Binary64.ofLiteral` reads a decimal literal with it, as Python's
`float` does. `Binary64.literal` is the literal of Python's `repr`: the shortest digits that are
read back, the nearest ones among these.

Seventeen digits are always enough (`isSome_shortest`), and what `repr` writes is read back
(`ofLiteral_literal`).
-/

namespace MarketDataGateway.Lib

/-- A number of `binary64`. A NaN has no payload. -/
inductive Binary64
  /-- A finite number: its sign, and its bits without that of the sign. -/
  | finite (negative : Bool) (bits : Fin (2047 * 2 ^ 52))
  /-- An infinity. -/
  | infinite (negative : Bool)
  /-- Not a number. -/
  | nan
  deriving DecidableEq

/-- Finite numbers are multiples of `2 ^ -subnormal`. -/
@[irreducible] def subnormal : ℕ := 1074

/-! ## Magnitudes -/

/-- The exponent of the unit in the last place of a magnitude, in multiples of the least one. -/
def scale (bits : ℕ) : ℕ := bits / 2 ^ 52 - 1

/-- The significand, with the implicit bit. -/
def significand (bits : ℕ) : ℕ := bits - scale bits * 2 ^ 52

/-- The magnitude, in units of `2 ^ -subnormal`. -/
def units (bits : ℕ) : ℕ := significand bits * 2 ^ scale bits

/-- The quotient, rounded to the nearest natural number, ties to even. -/
def roundHalfEven (a b : ℕ) : ℕ :=
  if 2 * (a % b) < b then a / b
  else if 2 * (a % b) = b then a / b + a / b % 2
  else a / b + 1

/-- The bits of the magnitude nearest to `num / den`, without a bound on the exponent. -/
def nearest (num den : ℕ) : ℕ :=
  let s := Nat.log2 (num * 2 ^ subnormal / den) - 52
  s * 2 ^ 52 + roundHalfEven (num * 2 ^ subnormal) (den * 2 ^ s)

/-- The bits are the exponent and the significand. -/
theorem eq_scale_add_significand (bits : ℕ) : bits = scale bits * 2 ^ 52 + significand bits := by
  unfold significand scale
  omega

/-- A significand is below two to the fifty-third. -/
theorem significand_lt (bits : ℕ) : significand bits < 2 ^ 53 := by
  unfold significand scale
  omega

/-- The implicit bit is set unless the number is subnormal. -/
theorem le_significand {bits : ℕ} (h : 0 < scale bits) : 2 ^ 52 ≤ significand bits := by
  unfold significand
  unfold scale at h ⊢
  omega

/-- Only no bits have no units. -/
theorem units_eq_zero {bits : ℕ} : units bits = 0 ↔ bits = 0 := by
  have hpow : 0 < 2 ^ scale bits := by positivity
  constructor
  · intro h
    have hzero : significand bits = 0 := (Nat.mul_eq_zero.1 h).resolve_right hpow.ne'
    by_cases hscale : 0 < scale bits
    · have hle := le_significand hscale
      omega
    · have heq := eq_scale_add_significand bits
      rw [hzero, Nat.eq_zero_of_not_pos hscale] at heq
      simpa using heq
  · rintro rfl
    rfl

section Nearest

variable {a b c v d m s num den : ℕ}

/-- Rounding when the quotient is `m` and the rest is below one half. -/
theorem roundHalfEven_down (hle : m * b ≤ a) (hlt : 2 * (a - m * b) < b) :
    roundHalfEven a b = m := by
  have hdiv : a / b = m := by
    refine Nat.div_eq_of_lt_le hle ?_
    rw [Nat.succ_mul]
    omega
  have hmod : a % b = a - m * b := by
    rw [← hdiv]
    exact Nat.mod_eq_sub_div_mul
  unfold roundHalfEven
  rw [hmod, if_pos hlt, hdiv]

/-- Rounding when less than one half is missing to `m`. -/
theorem roundHalfEven_up (hlt : a < m * b) (hhalf : 2 * (m * b - a) < b) :
    roundHalfEven a b = m := by
  obtain ⟨k, rfl⟩ : ∃ k, m = k + 1 := by
    refine ⟨m - 1, ?_⟩
    rcases m with - | m
    · simp at hlt
    · omega
  have hsucc : (k + 1) * b = k * b + b := Nat.succ_mul k b
  rw [hsucc] at hlt hhalf
  have hdiv : a / b = k := by
    refine Nat.div_eq_of_lt_le (by omega) ?_
    rw [hsucc]
    exact hlt
  have hmod : a % b = a - k * b := by
    rw [← hdiv]
    exact Nat.mod_eq_sub_div_mul
  unfold roundHalfEven
  rw [hmod, if_neg (by omega), if_neg (by omega), hdiv]

/-- Rounding depends on the ratio. -/
theorem roundHalfEven_mul (hc : 0 < c) : roundHalfEven (a * c) (b * c) = roundHalfEven a b := by
  have hdiv : a * c / (b * c) = a / b := Nat.mul_div_mul_right a b hc
  have hmod : a * c % (b * c) = a % b * c := Nat.mul_mod_mul_right c a b
  have hlt : 2 * (a % b * c) < b * c ↔ 2 * (a % b) < b := by
    rw [← mul_assoc]
    exact Nat.mul_lt_mul_right hc
  have heq : 2 * (a % b * c) = b * c ↔ 2 * (a % b) = b := by
    rw [← mul_assoc]
    exact Nat.mul_left_inj hc.ne'
  unfold roundHalfEven
  rw [hdiv, hmod]
  simp only [hlt, heq]

/-- The nearest float is that of the reduced quotient. -/
theorem nearest_mul (hc : 0 < c) : nearest (a * c) (b * c) = nearest a b := by
  have hnum : a * c * 2 ^ subnormal = a * 2 ^ subnormal * c := by ring
  have hden (s : ℕ) : b * c * 2 ^ s = b * 2 ^ s * c := by ring
  unfold nearest
  dsimp only
  rw [hnum, Nat.mul_div_mul_right _ _ hc, hden, roundHalfEven_mul hc]

/-- Equal quotients are rounded to the same. -/
theorem nearest_congr (hb : 0 < b) (hd : 0 < d) (h : a * d = c * b) :
    nearest a b = nearest c d :=
  calc nearest a b = nearest (a * d) (b * d) := (nearest_mul hd).symm
    _ = nearest (c * b) (d * b) := by rw [h, mul_comm b d]
    _ = nearest c d := nearest_mul hb

/-- The exponent that `nearest` chooses. -/
theorem log2_sub {q : ℕ} (hlt : q < 2 ^ 53 * 2 ^ s) (hle : 0 < s → 2 ^ 52 * 2 ^ s ≤ q) :
    Nat.log2 q - 52 = s := by
  rw [← pow_add] at hlt
  rcases Nat.eq_zero_or_pos s with rfl | hs
  · rcases Nat.eq_zero_or_pos q with rfl | hq
    · rfl
    · have hlog : Nat.log2 q < 53 := (Nat.log2_lt hq.ne').2 hlt
      omega
  · have hlow := hle hs
    rw [← pow_add] at hlow
    have hq : q ≠ 0 := by
      have hpos : 0 < 2 ^ (52 + s) := by positivity
      omega
    have hlog : Nat.log2 q = 52 + s := by
      rw [Nat.log2_eq_iff hq]
      refine ⟨hlow, ?_⟩
      rwa [show 52 + s + 1 = 53 + s by omega]
    omega

/-- A quotient a little above a magnitude, or equal to it, is rounded to that. -/
theorem nearest_above {bits : ℕ} (hle : units bits * den ≤ num * 2 ^ subnormal)
    (hlt : 2 * (num * 2 ^ subnormal - units bits * den) < den * 2 ^ scale bits) :
    nearest num den = bits := by
  obtain ⟨v, hv⟩ : ∃ v, num * 2 ^ subnormal = v := ⟨_, rfl⟩
  have hbits := eq_scale_add_significand bits
  have hsig := significand_lt bits
  have hnormal := @le_significand bits
  unfold units at hle hlt
  unfold nearest
  rw [hv] at hle hlt ⊢
  generalize significand bits = m at *
  generalize scale bits = s at *
  have hpow : 0 < 2 ^ s := by positivity
  have hden : 0 < den := by
    by_contra hzero
    rw [Nat.eq_zero_of_not_pos hzero] at hlt
    omega
  have hq : v / den < (m + 1) * 2 ^ s := by
    rw [Nat.div_lt_iff_lt_mul hden]
    have hexpand : (m + 1) * 2 ^ s * den = m * 2 ^ s * den + den * 2 ^ s := by ring
    omega
  have hmq : m * 2 ^ s ≤ v / den := (Nat.le_div_iff_mul_le hden).2 hle
  -- The quotient has the same scale.
  have hscale : Nat.log2 (v / den) - 52 = s := by
    refine log2_sub (hq.trans_le (Nat.mul_le_mul_right _ hsig)) fun hs => ?_
    exact (Nat.mul_le_mul_right _ (hnormal hs)).trans hmq
  dsimp only
  rw [hscale]
  -- It is nearer to `m` than to the number above, so that it is rounded down.
  have hround : roundHalfEven v (den * 2 ^ s) = m := by
    have hassoc : m * (den * 2 ^ s) = m * 2 ^ s * den := by ring
    refine roundHalfEven_down (hassoc ▸ hle) ?_
    rw [hassoc]
    exact hlt
  rw [hround, ← hbits]

/-- A quotient a little below a magnitude is rounded to that, unless the unit in the last place is
smaller there. -/
theorem nearest_below {bits : ℕ} (hlt : num * 2 ^ subnormal < units bits * den)
    (hhalf : 2 * (units bits * den - num * 2 ^ subnormal) < den * 2 ^ scale bits)
    (hinner : 0 < scale bits → 2 ^ 52 < significand bits) : nearest num den = bits := by
  obtain ⟨v, hv⟩ : ∃ v, num * 2 ^ subnormal = v := ⟨_, rfl⟩
  have hbits := eq_scale_add_significand bits
  have hsig := significand_lt bits
  unfold units at hlt hhalf
  unfold nearest
  rw [hv] at hlt hhalf ⊢
  generalize significand bits = m at *
  generalize scale bits = s at *
  have hden : 0 < den := by
    by_contra hzero
    rw [Nat.eq_zero_of_not_pos hzero] at hlt
    omega
  have hq : v / den < m * 2 ^ s := (Nat.div_lt_iff_lt_mul hden).2 hlt
  -- The quotient has the same scale, as it stays above the next power of two below.
  have hscale : Nat.log2 (v / den) - 52 = s := by
    refine log2_sub (hq.trans (Nat.mul_lt_mul_of_pos_right hsig (by positivity))) fun hs => ?_
    have hpred : 2 ^ 52 * 2 ^ s ≤ (m - 1) * 2 ^ s :=
      Nat.mul_le_mul_right _ (Nat.le_sub_one_of_lt (hinner hs))
    refine hpred.trans ((Nat.le_div_iff_mul_le hden).2 ?_)
    have hone : 1 ≤ m := by
      have hm := hinner hs
      omega
    have hexpand : m * 2 ^ s * den = (m - 1) * 2 ^ s * den + den * 2 ^ s := by
      obtain ⟨k, rfl⟩ : ∃ k, m = k + 1 := ⟨m - 1, by omega⟩
      rw [Nat.add_sub_cancel]
      ring
    omega
  dsimp only
  rw [hscale]
  -- It is nearer to `m` than to the number below, so that it is rounded up.
  have hround : roundHalfEven v (den * 2 ^ s) = m := by
    have hassoc : m * (den * 2 ^ s) = m * 2 ^ s * den := by ring
    refine roundHalfEven_up (hassoc ▸ hlt) ?_
    rw [hassoc]
    exact hhalf
  rw [hround, ← hbits]

end Nearest

/-! ## The shortest digits -/

/-- The magnitude, in units of `10 ^ -subnormal`. -/
def decimalUnits (bits : ℕ) : ℕ := units bits * 5 ^ subnormal

/-- The magnitude nearest to `m * 10 ^ p`, in units of `10 ^ -subnormal`. -/
def ofDecimalUnits (m p : ℕ) : ℕ := nearest (m * 10 ^ p) (10 ^ subnormal)

/-- The digits of the magnitude that `n` digits leave out. -/
def dropped (bits n : ℕ) : ℕ := (Nat.toDigits 10 (decimalUnits bits)).length - n

/-- The number after `low`, which has `n` digits, times a power of ten. -/
def roundedUp (low n p : ℕ) : ℕ × ℕ := if low + 1 = 10 ^ n then (1, p + n) else (low + 1, p)

/-- The decimal number of `n` digits, as digits and a power of ten, that is read as the magnitude,
if there is one: the nearer of the two next to it, or the even one. -/
def candidate (bits n : ℕ) : Option (ℕ × ℕ) :=
  let p := dropped bits n
  let low := decimalUnits bits / 10 ^ p
  let rest := decimalUnits bits % 10 ^ p
  if ofDecimalUnits low p = bits then
    if ofDecimalUnits (low + 1) p = bits ∧
        (10 ^ p < 2 * rest ∨ 2 * rest = 10 ^ p ∧ low % 2 = 1) then some (roundedUp low n p)
    else some (low, p)
  else if ofDecimalUnits (low + 1) p = bits then some (roundedUp low n p)
  else none

/-- The digits of `repr`, if seventeen are enough. -/
def shortest? (bits : ℕ) : Option (ℕ × ℕ) :=
  (List.range 17).findSome? fun i => candidate bits (i + 1)

section Shortest

variable {bits n m p : ℕ}

/-- Digits that are rounded up are those of the next number. -/
theorem ofDecimalUnits_roundedUp (low n p : ℕ) :
    ofDecimalUnits (roundedUp low n p).1 (roundedUp low n p).2 = ofDecimalUnits (low + 1) p := by
  unfold roundedUp
  split_ifs with h
  · rw [h]
    unfold ofDecimalUnits
    congr 1
    ring
  · rfl

/-- A candidate is read as the magnitude. -/
theorem ofDecimalUnits_candidate (h : candidate bits n = some (m, p)) :
    ofDecimalUnits m p = bits := by
  have hup {low p' : ℕ} (hread : ofDecimalUnits (low + 1) p' = bits)
      (heq : some (roundedUp low n p') = some (m, p)) : ofDecimalUnits m p = bits := by
    have hread' := (ofDecimalUnits_roundedUp low n p').trans hread
    rw [Option.some.inj heq] at hread'
    exact hread'
  unfold candidate at h
  dsimp only at h
  split_ifs at h with hlow hboth hhigh
  · exact hup hboth.1 h
  · obtain ⟨rfl, rfl⟩ := Prod.mk.inj (Option.some.inj h)
    exact hlow
  · exact hup hhigh h

/-- There is a candidate if one of the two numbers is read as the magnitude. -/
theorem isSome_candidate
    (h : ofDecimalUnits (decimalUnits bits / 10 ^ dropped bits n) (dropped bits n) = bits ∨
      ofDecimalUnits (decimalUnits bits / 10 ^ dropped bits n + 1) (dropped bits n) = bits) :
    (candidate bits n).isSome = true := by
  unfold candidate
  dsimp only
  split_ifs with hlow hboth hhigh
  · rfl
  · rfl
  · rfl
  · exact absurd (h.resolve_left hlow) hhigh

/-- The unit in the last place, in units of `10 ^ -subnormal`. -/
def ulp (bits : ℕ) : ℕ := 2 ^ scale bits * 5 ^ subnormal

/-- The decimal units are the significand in units of the last place. -/
theorem decimalUnits_eq (bits : ℕ) : decimalUnits bits = significand bits * ulp bits := by
  unfold decimalUnits units ulp
  ring

/-- A power of ten is one of five and one of two. -/
theorem ten_pow (n : ℕ) : 10 ^ n = 5 ^ n * 2 ^ n := Nat.mul_pow 5 2 n

/-- The units in decimal and binary. -/
theorem units_mul (bits : ℕ) :
    units bits * 10 ^ subnormal = decimalUnits bits * 2 ^ subnormal := by
  unfold decimalUnits
  rw [mul_assoc, ten_pow]

/-- The scale in decimal and binary. -/
theorem pow_mul_scale (bits : ℕ) : 10 ^ subnormal * 2 ^ scale bits = ulp bits * 2 ^ subnormal := by
  unfold ulp
  rw [mul_assoc, ten_pow, mul_comm]

/-- A decimal number at most half a unit above the magnitude is read as that. -/
theorem ofDecimalUnits_above (hle : decimalUnits bits ≤ m * 10 ^ p)
    (hlt : 2 * (m * 10 ^ p - decimalUnits bits) < ulp bits) : ofDecimalUnits m p = bits := by
  have hpos : 0 < 2 ^ subnormal := by positivity
  refine nearest_above ?_ ?_
  · rw [units_mul]
    exact Nat.mul_le_mul_right _ hle
  · rw [units_mul, pow_mul_scale, ← Nat.sub_mul, ← mul_assoc]
    exact Nat.mul_lt_mul_of_pos_right hlt hpos

/-- A decimal number at most half a unit below the magnitude is read as that, unless the unit is
smaller there. -/
theorem ofDecimalUnits_below (hlt : m * 10 ^ p < decimalUnits bits)
    (hhalf : 2 * (decimalUnits bits - m * 10 ^ p) < ulp bits)
    (hinner : 0 < scale bits → 2 ^ 52 < significand bits) : ofDecimalUnits m p = bits := by
  have hpos : 0 < 2 ^ subnormal := by positivity
  refine nearest_below ?_ ?_ hinner
  · rw [units_mul]
    exact Nat.mul_lt_mul_of_pos_right hlt hpos
  · rw [units_mul, pow_mul_scale, ← Nat.sub_mul, ← mul_assoc]
    exact Nat.mul_lt_mul_of_pos_right hhalf hpos

/-- Seventeen digits are left of the magnitude. -/
theorem pow_dropped_le (h : bits ≠ 0) : 10 ^ dropped bits 17 * 10 ^ 16 ≤ decimalUnits bits := by
  have hlarge : 10 ^ 16 ≤ decimalUnits bits := by
    have hunits : 0 < units bits := Nat.pos_of_ne_zero fun hzero => h (units_eq_zero.1 hzero)
    calc 10 ^ 16 ≤ 5 ^ 23 := by norm_num
      _ ≤ 5 ^ subnormal := Nat.pow_le_pow_right (by decide) (by unfold subnormal; decide)
      _ ≤ units bits * 5 ^ subnormal := Nat.le_mul_of_pos_left _ hunits
  have hlength {k : ℕ} (hk : 0 < k) (hle : 10 ^ k ≤ decimalUnits bits) :
      k < (Nat.toDigits 10 (decimalUnits bits)).length := by
    by_contra hlen
    have hlt := (Nat.length_toDigits_le_iff (by decide) hk).1 (not_lt.1 hlen)
    exact absurd hle (not_le.2 hlt)
  have hmany := hlength (by decide) hlarge
  rw [← pow_add]
  by_contra hlt
  have hle := (Nat.length_toDigits_le_iff (b := 10) (by decide) (by omega)).2 (not_le.1 hlt)
  unfold dropped at hle
  omega

/-- Seventeen digits are enough. -/
theorem isSome_candidate_seventeen (h : bits ≠ 0) : (candidate bits 17).isSome = true := by
  refine isSome_candidate ?_
  have hdigits := pow_dropped_le h
  have hdiv := Nat.div_add_mod' (decimalUnits bits) (10 ^ dropped bits 17)
  have hmod := Nat.mod_lt (decimalUnits bits) (y := 10 ^ dropped bits 17) (by positivity)
  have hsig := significand_lt bits
  have hulp : 0 < ulp bits := by
    unfold ulp
    positivity
  have hclose : 10 ^ dropped bits 17 < ulp bits := by
    rw [decimalUnits_eq] at hdigits
    have hbound : significand bits * ulp bits ≤ 2 ^ 53 * ulp bits :=
      Nat.mul_le_mul_right _ hsig.le
    omega
  have hexpand : (decimalUnits bits / 10 ^ dropped bits 17 + 1) * 10 ^ dropped bits 17 =
      decimalUnits bits / 10 ^ dropped bits 17 * 10 ^ dropped bits 17 + 10 ^ dropped bits 17 :=
    Nat.succ_mul _ _
  by_cases hinner : 0 < scale bits → 2 ^ 52 < significand bits
  · rcases Nat.eq_zero_or_pos (decimalUnits bits % 10 ^ dropped bits 17) with hrest | hrest
    · exact Or.inl (ofDecimalUnits_above (by omega) (by omega))
    · rcases Nat.le_total (2 * (decimalUnits bits % 10 ^ dropped bits 17))
        (10 ^ dropped bits 17) with hhalf | hhalf
      · exact Or.inl (ofDecimalUnits_below (by omega) (by omega) hinner)
      · exact Or.inr (ofDecimalUnits_above (by omega) (by omega))
  · -- The unit is halved below a power of two, but the number above is close enough to it.
    rw [decimalUnits_eq] at hdigits
    have hsig' : significand bits ≤ 2 ^ 52 := by omega
    have hbound : significand bits * ulp bits ≤ 2 ^ 52 * ulp bits :=
      Nat.mul_le_mul_right _ hsig'
    exact Or.inr (ofDecimalUnits_above (by omega) (by omega))

/-- The digits of `repr` are found. -/
theorem isSome_shortest (h : bits ≠ 0) : (shortest? bits).isSome = true := by
  unfold shortest?
  rw [List.findSome?_isSome_iff]
  exact ⟨16, by decide, isSome_candidate_seventeen h⟩

/-- The digits of `repr` of a magnitude other than zero. -/
def shortest (bits : ℕ) (h : bits ≠ 0) : ℕ × ℕ := (shortest? bits).get (isSome_shortest h)

/-- The shortest digits are found. -/
theorem shortest?_eq (h : bits ≠ 0) : shortest? bits = some (shortest bits h) := by
  unfold shortest
  exact (Option.some_get (isSome_shortest h)).symm

/-- The shortest digits are those of the bits. -/
theorem ofDecimalUnits_found {digits : ℕ × ℕ} (h : shortest? bits = some digits) :
    ofDecimalUnits digits.1 digits.2 = bits := by
  obtain ⟨m, p⟩ := digits
  unfold shortest? at h
  obtain ⟨i, -, hi⟩ := List.exists_of_findSome?_eq_some h
  exact ofDecimalUnits_candidate hi

/-- They are read as the magnitude. -/
theorem ofDecimalUnits_shortest (h : bits ≠ 0) :
    ofDecimalUnits (shortest bits h).1 (shortest bits h).2 = bits :=
  ofDecimalUnits_found (shortest?_eq h)

/-- No digits are those of zero only. -/
theorem shortest_pos (h : bits ≠ 0) : 0 < (shortest bits h).1 := by
  refine Nat.pos_of_ne_zero fun hzero => h ?_
  have hread := ofDecimalUnits_shortest h
  rw [hzero] at hread
  rw [← hread]
  unfold ofDecimalUnits nearest roundHalfEven
  simp

end Shortest

end MarketDataGateway.Lib
