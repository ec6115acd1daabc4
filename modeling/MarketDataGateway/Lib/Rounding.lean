import Mathlib.Algebra.Order.Field.Rat
import Mathlib.Algebra.Order.Ring.Abs
import Mathlib.Tactic.NormNum
import MarketDataGateway.Lib.Decimal

/-!
# Order and range of floating-point numbers

What rounding to `binary64` keeps of the rational numbers that are rounded: their order
(`nearest_mono`), and the integers below `2 ^ 53` themselves (`value_ofDecimal_natCast`). A quotient
is rounded to zero if it is at most half of the least magnitude (`decimalBits_eq_zero`), and to
infinity from `2 ^ 1024 - 2 ^ 970` on (`decimalBits_lt`).
-/

namespace MarketDataGateway.Lib

variable {a a' b c d m s num num' den bits bits' : ℕ}

/-! ## Rounding a quotient -/

/-- The rounded quotient is not below the floor. -/
theorem le_roundHalfEven (a b : ℕ) : a / b ≤ roundHalfEven a b := by
  unfold roundHalfEven
  split_ifs <;> omega

/-- The rounded quotient is at most one above the floor. -/
theorem roundHalfEven_le_succ (a b : ℕ) : roundHalfEven a b ≤ a / b + 1 := by
  unfold roundHalfEven
  split_ifs <;> omega

/-- A larger numerator is not rounded to less. -/
theorem roundHalfEven_mono (h : a ≤ a') : roundHalfEven a b ≤ roundHalfEven a' b := by
  have hdiv : a / b ≤ a' / b := Nat.div_le_div_right h
  rcases hdiv.lt_or_eq with hlt | heq
  · have hup := roundHalfEven_le_succ a b
    have hdown := le_roundHalfEven a' b
    omega
  · -- With one quotient, the order is that of the rests.
    have hmod : a % b ≤ a' % b := by
      have hsum := Nat.div_add_mod a b
      have hsum' := Nat.div_add_mod a' b
      rw [heq] at hsum
      omega
    unfold roundHalfEven
    rw [heq]
    split_ifs <;> omega

/-- A multiple is rounded to its factor. -/
theorem roundHalfEven_self (hb : 0 < b) : roundHalfEven (m * b) b = m := by
  have hlt : 2 * (m * b - m * b) < b := by omega
  exact roundHalfEven_down le_rfl hlt

/-- A quotient of at most a whole number is rounded to at most that. -/
theorem roundHalfEven_le (hb : 0 < b) (h : a ≤ m * b) : roundHalfEven a b ≤ m :=
  calc roundHalfEven a b ≤ roundHalfEven (m * b) b := roundHalfEven_mono h
    _ = m := roundHalfEven_self hb

/-- A quotient of at least a whole number is rounded to at least that. -/
theorem le_roundHalfEven_of_mul_le (hb : 0 < b) (h : m * b ≤ a) : m ≤ roundHalfEven a b :=
  ((Nat.le_div_iff_mul_le hb).2 h).trans (le_roundHalfEven a b)

/-! ## The order -/

/-- The exponent that `nearest` chooses, for a quotient in units of `2 ^ -subnormal`. -/
def chosen (v den : ℕ) : ℕ := Nat.log2 (v / den) - 52

/-- The nearest float has the exponent that is chosen, and the rounded quotient for a mantissa. -/
theorem nearest_eq (num den : ℕ) :
    nearest num den = chosen (num * 2 ^ subnormal) den * 2 ^ 52 +
      roundHalfEven (num * 2 ^ subnormal) (den * 2 ^ chosen (num * 2 ^ subnormal) den) := rfl

/-- The quotient takes at most 53 bits. -/
theorem lt_chosen (hden : 0 < den) (v : ℕ) : v < 2 ^ 53 * (den * 2 ^ chosen v den) := by
  have hlog : v / den < 2 ^ (Nat.log2 (v / den) + 1) := Nat.lt_log2_self
  have hle : 2 ^ (Nat.log2 (v / den) + 1) ≤ 2 ^ (53 + chosen v den) :=
    Nat.pow_le_pow_right (by decide) (by unfold chosen; omega)
  have hv : v < 2 ^ (53 + chosen v den) * den := (Nat.div_lt_iff_lt_mul hden).1 (hlog.trans_le hle)
  refine hv.trans_eq ?_
  rw [pow_add]
  ring

/-- The mantissa is at most two to the fifty-third. -/
theorem roundHalfEven_chosen_le (hden : 0 < den) (v : ℕ) :
    roundHalfEven v (den * 2 ^ chosen v den) ≤ 2 ^ 53 :=
  roundHalfEven_le (by positivity) (lt_chosen hden v).le

/-- It takes 53 bits if the exponent is not the least one. -/
theorem le_roundHalfEven_chosen (hden : 0 < den) {v : ℕ} (hs : 0 < chosen v den) :
    2 ^ 52 ≤ roundHalfEven v (den * 2 ^ chosen v den) := by
  have hchosen : Nat.log2 (v / den) = 52 + chosen v den := by
    unfold chosen at hs ⊢
    omega
  have hne : v / den ≠ 0 := by
    intro hzero
    rw [hzero, Nat.log2_zero] at hchosen
    omega
  have hlog : 2 ^ (52 + chosen v den) ≤ v / den := hchosen ▸ Nat.log2_self_le hne
  have hv : 2 ^ (52 + chosen v den) * den ≤ v := (Nat.le_div_iff_mul_le hden).1 hlog
  refine le_roundHalfEven_of_mul_le (by positivity) (le_of_eq_of_le ?_ hv)
  rw [pow_add]
  ring

/-- A larger value has no smaller exponent. -/
theorem chosen_mono {v v' : ℕ} (h : v ≤ v') : chosen v den ≤ chosen v' den := by
  have hdiv : v / den ≤ v' / den := Nat.div_le_div_right h
  have hlog : Nat.log2 (v / den) ≤ Nat.log2 (v' / den) := by
    rw [Nat.log2_eq_log_two, Nat.log2_eq_log_two]
    exact Nat.log_mono_right hdiv
  unfold chosen
  omega

/-- A larger numerator has no smaller nearest float. -/
theorem nearest_mono_num (hden : 0 < den) (h : num ≤ num') :
    nearest num den ≤ nearest num' den := by
  have hv : num * 2 ^ subnormal ≤ num' * 2 ^ subnormal := Nat.mul_le_mul_right _ h
  rw [nearest_eq, nearest_eq]
  generalize num * 2 ^ subnormal = v at *
  generalize num' * 2 ^ subnormal = v' at *
  rcases (@chosen_mono den _ _ hv).lt_or_eq with hlt | heq
  · have hup := roundHalfEven_chosen_le hden v
    have hdown := le_roundHalfEven_chosen hden (v := v') (by omega)
    calc chosen v den * 2 ^ 52 + roundHalfEven v (den * 2 ^ chosen v den)
        ≤ (chosen v den + 1) * 2 ^ 52 + 2 ^ 52 := by omega
      _ ≤ chosen v' den * 2 ^ 52 + roundHalfEven v' (den * 2 ^ chosen v' den) :=
        Nat.add_le_add (Nat.mul_le_mul_right _ hlt) hdown
  · rw [heq]
    exact Nat.add_le_add_left (roundHalfEven_mono hv) _

/-- Rounding keeps the order. -/
theorem nearest_mono (hb : 0 < b) (hd : 0 < d) (h : a * d ≤ c * b) : nearest a b ≤ nearest c d :=
  calc nearest a b = nearest (a * d) (b * d) := (nearest_mul hd).symm
    _ ≤ nearest (c * b) (b * d) := nearest_mono_num (by positivity) h
    _ = nearest (c * b) (d * b) := by rw [mul_comm b d]
    _ = nearest c d := nearest_mul hb

/-- More bits are no fewer units. -/
theorem units_mono (h : bits ≤ bits') : units bits ≤ units bits' := by
  have hscale : scale bits ≤ scale bits' := by
    unfold scale
    omega
  have hbits := eq_scale_add_significand bits
  have hbits' := eq_scale_add_significand bits'
  unfold units
  rcases hscale.lt_or_eq with hlt | heq
  · have hsig := (significand_lt bits).le
    have hsig' := @le_significand bits' (by omega)
    calc significand bits * 2 ^ scale bits ≤ 2 ^ 53 * 2 ^ scale bits := Nat.mul_le_mul_right _ hsig
      _ = 2 ^ 52 * 2 ^ (scale bits + 1) := by ring
      _ ≤ significand bits' * 2 ^ scale bits' :=
        Nat.mul_le_mul hsig' (Nat.pow_le_pow_right (by decide) hlt)
  · rw [heq] at hbits ⊢
    exact Nat.mul_le_mul_right _ (by omega)

/-! ## The range -/

/-- The smallest positive float is two to the minus 1074. -/
theorem subnormal_eq : subnormal = 1074 := by
  unfold subnormal
  rfl

/-- A quotient is rounded to zero up to one half. -/
theorem roundHalfEven_eq_zero (hb : 0 < b) : roundHalfEven a b = 0 ↔ 2 * a ≤ b := by
  rcases Nat.lt_or_ge a b with hlt | hge
  · have hdiv : a / b = 0 := Nat.div_eq_of_lt hlt
    have hmod : a % b = a := Nat.mod_eq_of_lt hlt
    unfold roundHalfEven
    rw [hdiv, hmod]
    split_ifs with hbelow hhalf
    · exact iff_of_true rfl hbelow.le
    · exact iff_of_true rfl hhalf.le
    · exact iff_of_false id (by omega)
  · have hone : 1 ≤ a / b := (Nat.one_le_div_iff hb).2 hge
    have hle := le_roundHalfEven a b
    omega

/-- A quotient is rounded to zero if it is at most half of the least magnitude. -/
theorem nearest_eq_zero (hden : 0 < den) :
    nearest num den = 0 ↔ num * 2 ^ (subnormal + 1) ≤ den := by
  have hdouble : num * 2 ^ (subnormal + 1) = 2 * (num * 2 ^ subnormal) := by ring
  rw [nearest_eq, hdouble]
  generalize num * 2 ^ subnormal = v
  constructor
  · intro h
    have hround : roundHalfEven v (den * 2 ^ chosen v den) = 0 := by omega
    have hchosen : chosen v den = 0 := by omega
    rw [hchosen, pow_zero, mul_one] at hround
    exact (roundHalfEven_eq_zero hden).1 hround
  · intro h
    have hdiv : v / den = 0 := Nat.div_eq_of_lt (by omega)
    have hchosen : chosen v den = 0 := by
      unfold chosen
      rw [hdiv]
      rfl
    rw [hchosen, pow_zero, mul_one, zero_mul, zero_add]
    exact (roundHalfEven_eq_zero hden).2 h

/-- An odd number is not exceeded below the tie, which goes up. -/
theorem roundHalfEven_le_odd (hb : 0 < b) (hm : m % 2 = 1) :
    roundHalfEven a b ≤ m ↔ 2 * a < (2 * m + 1) * b := by
  have hsum := Nat.div_add_mod a b
  have hmod := Nat.mod_lt a hb
  have hexpand : (2 * m + 1) * b = 2 * (b * m) + b := by ring
  rw [hexpand]
  constructor
  · intro h
    rcases ((le_roundHalfEven a b).trans h).lt_or_eq with hlt | heq
    · have hmul : b * (a / b + 1) ≤ b * m := Nat.mul_le_mul_left b hlt
      rw [mul_add] at hmul
      omega
    · unfold roundHalfEven at h
      rw [heq] at h hsum
      split_ifs at h with hbelow hhalf
      · omega
      · omega
      · omega
  · intro h
    rcases lt_trichotomy (a / b) m with hlt | heq | hgt
    · exact (roundHalfEven_le_succ a b).trans hlt
    · rw [heq] at hsum
      unfold roundHalfEven
      rw [if_pos (by omega), heq]
    · have hmul : b * (m + 1) ≤ b * (a / b) := Nat.mul_le_mul_left b hgt
      rw [mul_add] at hmul
      omega

/-- A quotient is rounded below a power of two if it is less than the greatest number below that,
and half a unit in its last place. -/
theorem nearest_lt_iff (hden : 0 < den) (e : ℕ) :
    nearest num den < (e + 2) * 2 ^ 52 ↔
      2 * (num * 2 ^ subnormal) < (2 ^ 54 - 1) * (2 ^ e * den) := by
  rw [nearest_eq]
  generalize num * 2 ^ subnormal = v
  have hup := roundHalfEven_chosen_le hden v
  have hlog : v / den < 2 ^ (Nat.log2 (v / den) + 1) := Nat.lt_log2_self
  rcases lt_trichotomy (chosen v den) e with hlt | heq | hgt
  · -- A smaller scale: the quotient is far below the power of two.
    refine iff_of_true (by omega) ?_
    have hle : 2 ^ (Nat.log2 (v / den) + 1) ≤ 2 ^ (52 + e) :=
      Nat.pow_le_pow_right (by decide) (by unfold chosen at hlt; omega)
    have hv : v < 2 ^ (52 + e) * den := (Nat.div_lt_iff_lt_mul hden).1 (hlog.trans_le hle)
    rw [pow_add, mul_assoc] at hv
    omega
  · -- The scale is the one: what counts is the last odd number below.
    rw [heq]
    have hunit : 0 < den * 2 ^ e := by positivity
    have hround := roundHalfEven_le_odd (a := v) (m := 2 ^ 53 - 1) hunit (by decide)
    rw [mul_comm (2 ^ e) den]
    omega
  · -- A greater scale: the quotient is not below the power of two.
    have hlow := @le_roundHalfEven_chosen _ hden v (by omega)
    refine iff_of_false (by omega) ?_
    have hchosen : 53 + e ≤ Nat.log2 (v / den) := by
      unfold chosen at hgt
      omega
    have hne : v / den ≠ 0 := by
      intro hzero
      rw [hzero, Nat.log2_zero] at hchosen
      omega
    have hle : 2 ^ (53 + e) ≤ v / den :=
      (Nat.pow_le_pow_right (by decide) hchosen).trans (Nat.log2_self_le hne)
    have hv : 2 ^ (53 + e) * den ≤ v := (Nat.le_div_iff_mul_le hden).1 hle
    rw [pow_add, mul_assoc] at hv
    omega

/-- The bits of the greatest finite magnitude are the ones below these. -/
theorem nearest_lt_infinity (hden : 0 < den) :
    nearest num den < 2047 * 2 ^ 52 ↔
      2 * (num * 2 ^ subnormal) < (2 ^ 54 - 1) * (2 ^ 2045 * den) :=
  nearest_lt_iff hden 2045

/-! ## Decimals -/

/-- The number nearest to `m * 10 ^ k`, with a sign. -/
def Binary64.ofDecimal (negative : Bool) (m : ℕ) (k : ℤ) : Binary64 :=
  if h : decimalBits m k < 2047 * 2 ^ 52 then .finite negative ⟨_, h⟩ else .infinite negative

/-- The float of a literal is that of its decimal. -/
theorem ofLiteral_eq_ofDecimal (l : NumberLiteral) :
    Binary64.ofLiteral l = .ofDecimal l.negative l.coefficient l.power := rfl

/-- What a magnitude amounts to. -/
def magnitude (bits : ℕ) : ℚ := units bits / 2 ^ subnormal

/-- What a finite number amounts to. -/
def Binary64.value : Binary64 → Option ℚ
  | .finite negative bits => some ((if negative then -1 else 1) * magnitude bits)
  | _ => none

/-- More bits are no smaller magnitude. -/
theorem magnitude_mono (h : bits ≤ bits') : magnitude bits ≤ magnitude bits' := by
  have hunits : (units bits : ℚ) ≤ units bits' := Nat.cast_le.2 (units_mono h)
  have hpow : (0 : ℚ) ≤ 2 ^ subnormal := by positivity
  exact div_le_div_of_nonneg_right hunits hpow

/-- A magnitude is not negative. -/
theorem magnitude_nonneg (bits : ℕ) : 0 ≤ magnitude bits :=
  div_nonneg (Nat.cast_nonneg _) (pow_nonneg zero_le_two _)

/-- Only no bits have the magnitude zero. -/
theorem magnitude_pos (h : bits ≠ 0) : 0 < magnitude bits := by
  have hunits : 0 < units bits := Nat.pos_of_ne_zero (mt units_eq_zero.1 h)
  exact div_pos (Nat.cast_pos.2 hunits) (pow_pos two_pos _)

/-- The value of the float of a decimal, below the overflow. -/
theorem value_ofDecimal (negative : Bool) (m : ℕ) (k : ℤ) :
    (Binary64.ofDecimal negative m k).value =
    if decimalBits m k < 2047 * 2 ^ 52 then
      some ((if negative then -1 else 1) * magnitude (decimalBits m k))
    else none := by
  unfold Binary64.ofDecimal
  split
  · rw [Binary64.value]
  · rw [Binary64.value]
    exact fun _ _ => nofun

/-- A decimal is the quotient of the two integers by which it is rounded. -/
theorem decimal_value (m : ℕ) (k : ℤ) :
    ((m * 10 ^ k.toNat : ℕ) : ℚ) / (10 ^ (-k).toNat : ℕ) = m * 10 ^ k := by
  push_cast
  rcases le_total 0 k with hk | hk
  · obtain ⟨n, rfl⟩ := Int.eq_ofNat_of_zero_le hk
    simp
  · obtain ⟨n, hn⟩ := Int.eq_ofNat_of_zero_le (Int.neg_nonneg.2 hk)
    obtain rfl : k = -n := by omega
    simp [div_eq_mul_inv]

/-- A bound on a decimal, as one on the quotient that is rounded. -/
theorem decimal_le_iff {m m' : ℕ} {k k' : ℤ} : (m : ℚ) * 10 ^ k ≤ m' * 10 ^ k' ↔
    m * 10 ^ k.toNat * 10 ^ (-k').toNat ≤ m' * 10 ^ k'.toNat * 10 ^ (-k).toNat := by
  have hden (j : ℤ) : (0 : ℚ) < (10 ^ j.toNat : ℕ) := by positivity
  rw [← decimal_value, ← decimal_value, div_le_div_iff₀ (hden _) (hden _)]
  norm_cast

/-- A larger decimal has no fewer bits. -/
theorem decimalBits_mono {m m' : ℕ} {k k' : ℤ} (h : (m : ℚ) * 10 ^ k ≤ m' * 10 ^ k') :
    decimalBits m k ≤ decimalBits m' k' :=
  nearest_mono (by positivity) (by positivity) (decimal_le_iff.1 h)

/-- A decimal has no bits up to half the smallest positive float. -/
theorem decimalBits_eq_zero {m : ℕ} {k : ℤ} :
    decimalBits m k = 0 ↔ (m : ℚ) * 10 ^ k ≤ 1 / 2 ^ 1075 := by
  have hcast (a b e : ℕ) : (a : ℚ) * 2 ^ e ≤ b ↔ a * 2 ^ e ≤ b := by norm_cast
  have hden : (0 : ℚ) < (10 ^ (-k).toNat : ℕ) := by positivity
  have hpow : (0 : ℚ) < 2 ^ 1075 := by positivity
  have hsucc : subnormal + 1 = 1075 := by rw [subnormal_eq]
  have hnearest := @nearest_eq_zero (m * 10 ^ k.toNat) (10 ^ (-k).toNat) (by positivity)
  rw [hsucc] at hnearest
  refine hnearest.trans ((hcast _ _ 1075).symm.trans ?_)
  rw [← decimal_value, div_le_div_iff₀ hden hpow, one_mul]

/-- The least number that is rounded to infinity, `2 ^ 1024 - 2 ^ 970`. -/
def Binary64.overflow : ℚ := (2 ^ 54 - 1) * 2 ^ 970

/-- The bits of a decimal are those of a finite float below the overflow. -/
theorem decimalBits_lt {m : ℕ} {k : ℤ} :
    decimalBits m k < 2047 * 2 ^ 52 ↔ (m : ℚ) * 10 ^ k < Binary64.overflow := by
  have hden : (0 : ℚ) < (10 ^ (-k).toNat : ℕ) := by positivity
  have hpow : (0 : ℚ) < 2 ^ 1075 := by positivity
  have hdouble : (2 : ℚ) ^ 1075 = 2 * 2 ^ subnormal := by
    rw [subnormal_eq, ← pow_succ']
  unfold decimalBits Binary64.overflow
  rw [nearest_lt_infinity (by positivity), ← decimal_value,
    div_lt_iff₀ hden, ← mul_lt_mul_iff_left₀ hpow]
  generalize 10 ^ (-k).toNat = den at *
  generalize m * 10 ^ k.toNat = num at *
  have hcast : ((2 * (num * 2 ^ subnormal) : ℕ) : ℚ) = num * 2 ^ 1075 := by
    rw [hdouble]
    push_cast
    ring
  have hcast' (e f : ℕ) :
      (((2 ^ 54 - 1) * (2 ^ (e + f) * den) : ℕ) : ℚ) = (2 ^ 54 - 1) * 2 ^ e * den * 2 ^ f := by
    push_cast
    ring
  rw [← hcast, ← hcast' 970 1075, Nat.cast_lt]

/-! ## Integers -/

/-- The units of a mantissa and an exponent. -/
theorem units_eq {e f : ℕ} (hf : f < 2 ^ 53) (he : 0 < e → 2 ^ 52 ≤ f) :
    units (e * 2 ^ 52 + f) = f * 2 ^ e := by
  have hscale : scale (e * 2 ^ 52 + f) = e := by
    unfold scale
    omega
  unfold units significand
  rw [hscale, Nat.add_sub_cancel_left]

/-- A fraction of a power of two whose numerator takes at most 53 bits is exact. -/
theorem units_nearest_pow {n k : ℕ} (h : n < 2 ^ 53) (hk : k ≤ subnormal) :
    units (nearest n (2 ^ k)) = n * 2 ^ (subnormal - k) := by
  have hden : 0 < 2 ^ k := by positivity
  have hsplit (m : ℕ) (hm : m + k ≤ subnormal) :
      n * 2 ^ subnormal = n * 2 ^ (subnormal - k - m) * (2 ^ k * 2 ^ m) := by
    rw [mul_assoc, ← pow_add, ← pow_add]
    congr 2
    omega
  have hdiv : n * 2 ^ subnormal / 2 ^ k = n * 2 ^ (subnormal - k) := by
    rw [hsplit 0 (by omega), pow_zero, mul_one, Nat.mul_div_cancel _ hden]
    rfl
  have hlog : n * 2 ^ (subnormal - k) < 2 ^ (53 + (subnormal - k)) := by
    rw [pow_add]
    exact Nat.mul_lt_mul_of_pos_right h (by positivity)
  have hchosen : chosen (n * 2 ^ subnormal) (2 ^ k) ≤ subnormal - k := by
    unfold chosen
    rw [hdiv]
    rcases Nat.eq_zero_or_pos (n * 2 ^ (subnormal - k)) with hzero | hpos
    · rw [hzero, Nat.log2_zero]
      omega
    · have hlt := (Nat.log2_lt hpos.ne').2 hlog
      omega
  have hup := lt_chosen hden (n * 2 ^ subnormal)
  have hdown := @le_roundHalfEven_chosen _ hden (n * 2 ^ subnormal)
  rw [nearest_eq]
  generalize chosen (n * 2 ^ subnormal) (2 ^ k) = s at *
  -- The unit divides the number, so that nothing is rounded.
  have hdvd := hsplit s (by omega)
  rw [hdvd] at hup hdown ⊢
  have hpow : 0 < 2 ^ k * 2 ^ s := by positivity
  rw [roundHalfEven_self hpow] at hdown ⊢
  rw [units_eq (Nat.lt_of_mul_lt_mul_right hup) hdown, mul_assoc, ← pow_add,
    Nat.sub_add_cancel hchosen]

/-- An integer that takes at most 53 bits is exact. -/
theorem units_nearest_one {n : ℕ} (h : n < 2 ^ 53) : units (nearest n 1) = n * 2 ^ subnormal := by
  have hpow := units_nearest_pow h (Nat.zero_le subnormal)
  rwa [pow_zero, Nat.sub_zero] at hpow

/-- The whole part of the magnitude nearest to `num / den`. -/
def truncNearest (num den : ℕ) : ℕ := units (nearest num den) / 2 ^ subnormal

/-- The whole part of an integer that takes at most 53 bits is the integer. -/
theorem truncNearest_mul {n den : ℕ} (h : n < 2 ^ 53) (hden : 0 < den) :
    truncNearest (n * den) den = n := by
  unfold truncNearest
  rw [@nearest_congr _ _ n 1 hden one_pos (by ring), units_nearest_one h,
    Nat.mul_div_cancel _ (by positivity)]

/-- Below `2 ^ 33` a fraction with a small denominator is not rounded up to the next integer. -/
theorem truncNearest_eq {num den : ℕ} (hden : 0 < den) (hsmall : den ≤ 2 ^ 20)
    (h : num < 2 ^ 33 * den) : truncNearest num den = num / den := by
  have hdivmod := Nat.div_add_mod' num den
  have hmod := Nat.mod_lt num hden
  have hq : num / den < 2 ^ 33 := (Nat.div_lt_iff_lt_mul hden).2 h
  unfold truncNearest
  generalize num / den = q at *
  refine Nat.div_eq_of_lt_le ?_ ?_
  · -- The integer below is exact.
    calc q * 2 ^ subnormal = units (nearest q 1) := (units_nearest_one (by omega)).symm
      _ ≤ units (nearest num den) := units_mono (nearest_mono one_pos hden (by omega))
  · -- So is the fraction that is `2 ^ -20` below the integer above.
    have hbelow : num * 2 ^ 20 ≤ ((q + 1) * 2 ^ 20 - 1) * den := by
      have hexpand : ((q + 1) * 2 ^ 20 - 1) * den = q * den * 2 ^ 20 + (2 ^ 20 * den - den) := by
        rw [Nat.sub_mul]
        ring_nf
        omega
      omega
    have hsub : 20 ≤ subnormal := by unfold subnormal; decide
    calc units (nearest num den)
        ≤ units (nearest ((q + 1) * 2 ^ 20 - 1) (2 ^ 20)) :=
          units_mono (nearest_mono hden (by positivity) hbelow)
      _ = ((q + 1) * 2 ^ 20 - 1) * 2 ^ (subnormal - 20) := units_nearest_pow (by omega) hsub
      _ < (q + 1) * 2 ^ 20 * 2 ^ (subnormal - 20) :=
          Nat.mul_lt_mul_of_pos_right (by omega) (by positivity)
      _ = (q + 1) * 2 ^ subnormal := by
          rw [mul_assoc, ← pow_add, Nat.add_sub_cancel' hsub]

/-- The bits of a natural number. -/
theorem decimalBits_natCast (n : ℕ) : decimalBits n 0 = nearest n 1 := by
  unfold decimalBits
  simp

/-- A natural number below two to the fifty-third is its own nearest float. -/
theorem magnitude_nearest_one {n : ℕ} (h : n < 2 ^ 53) : magnitude (nearest n 1) = n := by
  have hpow : (2 : ℚ) ^ subnormal ≠ 0 := by positivity
  unfold magnitude
  rw [units_nearest_one h]
  push_cast
  rw [mul_div_cancel_right₀ _ hpow]

/-- The integers below `2 ^ 53` are exact. -/
theorem value_ofDecimal_natCast {n : ℕ} (negative : Bool) (h : n < 2 ^ 53) :
    (Binary64.ofDecimal negative n 0).value = some ((if negative then -1 else 1) * (n : ℚ)) := by
  have hlt : decimalBits n 0 < 2047 * 2 ^ 52 := by
    have hlarge : (n : ℚ) < 2 ^ 53 := by exact_mod_cast h
    have hpos : (1 : ℚ) ≤ 2 ^ 970 := one_le_pow₀ (by norm_num)
    rw [decimalBits_lt, zpow_zero, mul_one]
    unfold Binary64.overflow
    generalize (2 : ℚ) ^ 970 = factor at hpos
    linarith
  rw [value_ofDecimal, if_pos hlt, decimalBits_natCast, magnitude_nearest_one h]

/-- The other integers are not rounded below `2 ^ 53`. -/
theorem le_abs_value_ofDecimal {n : ℕ} {negative : Bool} {x : ℚ} (h : 2 ^ 53 ≤ n)
    (hx : (Binary64.ofDecimal negative n 0).value = some x) : 2 ^ 53 ≤ |x| := by
  have hunits : units (nearest (2 ^ 53) 1) = 2 ^ 53 * 2 ^ subnormal := by decide +kernel
  have hleast : magnitude (nearest (2 ^ 53) 1) = 2 ^ 53 := by
    have hpow : (2 : ℚ) ^ subnormal ≠ 0 := by positivity
    unfold magnitude
    rw [hunits, Nat.cast_mul, Nat.cast_pow, Nat.cast_pow, Nat.cast_ofNat,
      mul_div_cancel_right₀ _ hpow]
  have hbits : nearest (2 ^ 53) 1 ≤ nearest n 1 := nearest_mono_num one_pos h
  have hle : 2 ^ 53 ≤ magnitude (nearest n 1) := hleast ▸ magnitude_mono hbits
  rw [value_ofDecimal, decimalBits_natCast] at hx
  split_ifs at hx with hlt hsign
  · rw [← Option.some.inj hx, abs_mul, abs_neg, abs_one, one_mul]
    exact hle.trans (le_abs_self _)
  · rw [← Option.some.inj hx, abs_mul, abs_one, one_mul]
    exact hle.trans (le_abs_self _)

end MarketDataGateway.Lib
