import Mathlib.Algebra.Order.Field.Power
import Mathlib.Tactic.Positivity
import MarketDataGateway.Models.Quote

/-!
# Sums of decimals

The sum of two decimals in the default context. A sum that fits its precision is exact
(`PyDecimal.add_of_fits`).
-/

namespace MarketDataGateway.Models

/-- A decimal is positive if its digits with the sign are. -/
theorem PyDecimal.value_pos {d : PyDecimal} : 0 < d.value ↔ 0 < d.signed := by
  have hpow : (0 : ℚ) < 10 ^ d.exponent := zpow_pos (by norm_num) d.exponent
  unfold PyDecimal.value
  rw [mul_pos_iff_of_pos_right hpow, Int.cast_pos]

/-- A decimal is not negative if its digits with the sign are not. -/
theorem PyDecimal.value_nonneg {d : PyDecimal} : 0 ≤ d.value ↔ 0 ≤ d.signed := by
  have hpow : (0 : ℚ) < 10 ^ d.exponent := zpow_pos (by norm_num) d.exponent
  unfold PyDecimal.value
  rw [mul_nonneg_iff_of_pos_right hpow, Int.cast_nonneg_iff]

/-- A sum of decimals that are not negative is not negative. -/
theorem PyDecimal.add_nonneg {a b c : PyDecimal} (h : PyDecimal.add a b = some c) (ha : 0 ≤ a.value)
    (hb : 0 ≤ b.value) : 0 ≤ c.value := by
  rw [PyDecimal.value_nonneg] at ha hb ⊢
  unfold PyDecimal.add at h
  dsimp only at h
  split_ifs at h
  rw [← Option.some.inj h]
  have hsum : 0 ≤ a.signed * 10 ^ (a.exponent - min a.exponent b.exponent).toNat +
      b.signed * 10 ^ (b.exponent - min a.exponent b.exponent).toNat := by positivity
  unfold PyDecimal.signed at hsum ⊢
  dsimp only
  rw [if_neg (by simpa using hsum)]
  exact Int.natCast_nonneg _

/-- The digits of a sum before rounding, at the lesser one of the exponents. -/
def PyDecimal.scaledSum (a b : PyDecimal) : ℤ :=
  a.signed * 10 ^ (a.exponent - min a.exponent b.exponent).toNat +
    b.signed * 10 ^ (b.exponent - min a.exponent b.exponent).toNat

/-- The scaled sum is the sum of the values. -/
theorem PyDecimal.scaledSum_value (a b : PyDecimal) :
    (PyDecimal.scaledSum a b : ℚ) * 10 ^ min a.exponent b.exponent = a.value + b.value := by
  unfold PyDecimal.scaledSum
  set e := min a.exponent b.exponent with he
  have hscale (d : PyDecimal) (hd : e ≤ d.exponent) :
      ((d.signed * 10 ^ (d.exponent - e).toNat : ℤ) : ℚ) * 10 ^ e = d.value := by
    have hexponent : ((d.exponent - e).toNat : ℤ) + e = d.exponent := by omega
    push_cast
    rw [mul_assoc, ← zpow_natCast, ← zpow_add₀ (by norm_num), hexponent]
    rfl
  rw [← hscale a (min_le_left _ _), ← hscale b (min_le_right _ _), ← add_mul]
  push_cast
  rfl

/-- A sum whose digits fit the precision is not rounded. -/
theorem PyDecimal.add_eq {a b : PyDecimal} (hetiny : PyDecimal.etiny ≤ min a.exponent b.exponent)
    (hdigits : PyDecimal.digits (PyDecimal.scaledSum a b).natAbs ≤ PyDecimal.prec) :
    PyDecimal.add a b =
      if (PyDecimal.scaledSum a b).natAbs ≠ 0 ∧ PyDecimal.emax <
          min a.exponent b.exponent +
          PyDecimal.digits (PyDecimal.scaledSum a b).natAbs - 1 then none
      else some ⟨PyDecimal.scaledSum a b < 0, (PyDecimal.scaledSum a b).natAbs,
        min a.exponent b.exponent⟩ := by
  have hdropped : (max (PyDecimal.digits (PyDecimal.scaledSum a b).natAbs - PyDecimal.prec)
      (PyDecimal.etiny - min a.exponent b.exponent)).toNat = 0 :=
    Int.toNat_eq_zero.2 (max_le (by omega) (by omega))
  have hround (n : ℕ) : PyDecimal.roundHalfEven n 0 = n := by
    simp [PyDecimal.roundHalfEven, Nat.mod_one]
  unfold PyDecimal.add
  dsimp only
  rw [← PyDecimal.scaledSum, hdropped, hround, Nat.cast_zero, add_zero]

/-- A sum of decimals that are not negative is exact if they are multiples of a power of ten, and
the sum has no more digits above it than the precision allows. -/
theorem PyDecimal.add_of_fits {a b : PyDecimal} {e : ℤ} (hetiny : PyDecimal.etiny ≤ e) (he : e ≤ 0)
    (ha : e ≤ a.exponent) (hb : e ≤ b.exponent) (ha0 : 0 ≤ a.value) (hb0 : 0 ≤ b.value)
    (hsum : a.value + b.value < 10 ^ (PyDecimal.prec + e)) :
    ∃ c, PyDecimal.add a b = some c ∧ c.value = a.value + b.value ∧ e ≤ c.exponent := by
  have hm : e ≤ min a.exponent b.exponent := le_min ha hb
  have hvalue := PyDecimal.scaledSum_value a b
  have heq := PyDecimal.add_eq (a := a) (b := b) (hetiny.trans hm)
  set m := min a.exponent b.exponent with hmdef
  set s := PyDecimal.scaledSum a b with hs
  have hpow : (0 : ℚ) < 10 ^ m := zpow_pos (by norm_num) m
  have hs0 : 0 ≤ s := by
    have hnonneg : (0 : ℚ) ≤ s * 10 ^ m := by
      rw [hvalue]
      linarith
    exact_mod_cast nonneg_of_mul_nonneg_left hnonneg hpow
  obtain ⟨n, hn⟩ := Int.eq_ofNat_of_zero_le hs0
  have hcast : (n : ℚ) * 10 ^ m = a.value + b.value := by rw [← hvalue, hn, Int.cast_natCast]
  -- No more digits than the precision.
  have hlt : (n : ℚ) * 10 ^ m < 10 ^ (PyDecimal.prec + e) := hcast ▸ hsum
  have hdigits : PyDecimal.digits n ≤ PyDecimal.prec := by
    have hbound : (n : ℚ) < 10 ^ 28 := by
      refine lt_of_mul_lt_mul_right ?_ hpow.le
      calc (n : ℚ) * 10 ^ m < 10 ^ (PyDecimal.prec + e) := hlt
        _ ≤ 10 ^ (PyDecimal.prec + m) := zpow_le_zpow_right₀ (by norm_num) (by omega)
        _ = 10 ^ PyDecimal.prec * 10 ^ m := zpow_add₀ (by norm_num) _ _
        _ = 10 ^ 28 * 10 ^ m := rfl
    have hnat : n < 10 ^ 28 := by exact_mod_cast hbound
    have hlength := (Nat.length_toDigits_le_iff (b := 10) (by norm_num) (by norm_num)).2 hnat
    unfold PyDecimal.digits PyDecimal.prec
    exact_mod_cast hlength
  have habs : s.natAbs = n := by rw [hn, Int.natAbs_natCast]
  rw [habs] at heq
  have hfits : ¬ (n ≠ 0 ∧ PyDecimal.emax < m + PyDecimal.digits n - 1) := by
    rintro ⟨hne, hover⟩
    obtain ⟨k, hk⟩ : ∃ k : ℕ, PyDecimal.digits n = k + 1 :=
      ⟨(Nat.toDigits 10 n).length - 1, by
        have hpos := Nat.length_toDigits_pos (b := 10) (n := n)
        unfold PyDecimal.digits
        omega⟩
    have hk' : 10 ^ k ≤ n := by
      rcases Nat.eq_zero_or_pos k with rfl | hpos
      · exact Nat.one_le_iff_ne_zero.2 hne
      · by_contra hlt
        have hlength := (Nat.length_toDigits_le_iff (b := 10) (by norm_num) hpos).2 (not_le.1 hlt)
        unfold PyDecimal.digits at hk
        omega
    -- The first digit would be beyond the precision.
    have hbeyond : (10 : ℚ) ^ (PyDecimal.prec + e) ≤ n * 10 ^ m := by
      calc (10 : ℚ) ^ (PyDecimal.prec + e) ≤ 10 ^ (k + m) :=
            zpow_le_zpow_right₀ (by norm_num)
              (by unfold PyDecimal.emax at hover; unfold PyDecimal.prec; omega)
        _ = 10 ^ k * 10 ^ m := by rw [zpow_add₀ (by norm_num), zpow_natCast]
        _ ≤ n * 10 ^ m := mul_le_mul_of_nonneg_right (by exact_mod_cast hk') hpow.le
    exact absurd hlt hbeyond.not_gt
  refine ⟨_, (heq hdigits).trans (if_neg hfits), ?_, hm⟩
  have hpositive : ¬ s < 0 := by omega
  rw [← hcast, PyDecimal.value, PyDecimal.signed]
  simp [hpositive]

end MarketDataGateway.Models
