import MarketDataGateway.Lib.JsonRoundTrip

/-!
# Texts of a fixed shape

Numbers with a fixed number of digits, and how they are read: `padded` writes the last digits of a
number, `takeDigits` reads that many decimal ones, and `matchesClasses` is a regular expression that
is a sequence of character classes.
-/

namespace MarketDataGateway.Lib

variable {base width width' n n' : ℕ} {s t : PyStr}

/-! ## Writing -/

/-- The last digits of a number, from the highest to the lowest. -/
def padded (base : ℕ) : ℕ → ℕ → PyStr
  | 0, _ => []
  | width + 1, n => padded base width (n / base) ++ [hexDigit (n % base)]

/-- Padded digits have the width. -/
@[simp] theorem length_padded (base width n : ℕ) : (padded base width n).length = width := by
  induction width generalizing n with
  | zero => rfl
  | succ width ih => rw [padded, List.length_append, ih, List.length_singleton]

/-- Padded digits are digits of the base. -/
theorem mem_padded {c : CodePoint} (hbase : 0 < base) (h : c ∈ padded base width n) :
    ∃ d < base, c = hexDigit d := by
  induction width generalizing n with
  | zero => exact absurd h List.not_mem_nil
  | succ width ih =>
    rw [padded, List.mem_append, List.mem_singleton] at h
    rcases h with h | rfl
    · exact ih h
    · exact ⟨n % base, Nat.mod_lt n hbase, rfl⟩

/-- The higher digits come before the lower ones. -/
theorem padded_add (base width width' n : ℕ) :
    padded base (width + width') n =
    padded base width (n / base ^ width') ++ padded base width' n := by
  induction width' generalizing n with
  | zero => rw [padded, pow_zero, Nat.div_one, List.append_nil, Nat.add_zero]
  | succ width' ih =>
    rw [← Nat.add_assoc, padded, ih, padded, List.append_assoc, Nat.div_div_eq_div_mul, pow_succ']

/-- Different digits are written differently. -/
theorem hexDigit_injective (hn : n < 16) (hn' : n' < 16)
    (h : hexDigit n = hexDigit n') : n = n' := by
  have hval := congrArg Fin.val h
  unfold hexDigit codePoint at hval
  rw [Fin.val_ofNat, Fin.val_ofNat] at hval
  split_ifs at hval <;> omega

/-- The digits of numbers in their range tell them apart. -/
theorem padded_injective (hbase : base ≤ 16) (hn : n < base ^ width) (hn' : n' < base ^ width)
    (h : padded base width n = padded base width n') : n = n' := by
  induction width generalizing n n' with
  | zero =>
    rw [pow_zero] at hn hn'
    omega
  | succ width ih =>
    have hpos : 0 < base := by
      rcases Nat.eq_zero_or_pos base with rfl | hpos
      · rw [zero_pow width.succ_ne_zero] at hn
        omega
      · exact hpos
    rw [pow_succ] at hn hn'
    obtain ⟨hhigh, hlow⟩ := List.append_inj' h rfl
    have hquot : n / base = n' / base :=
      ih (Nat.div_lt_of_lt_mul (by rwa [mul_comm])) (Nat.div_lt_of_lt_mul (by rwa [mul_comm])) hhigh
    have hrest : n % base = n' % base :=
      hexDigit_injective ((Nat.mod_lt n hpos).trans_le hbase) ((Nat.mod_lt n' hpos).trans_le hbase)
        (List.singleton_inj.1 hlow)
    calc n = base * (n / base) + n % base := (Nat.div_add_mod n base).symm
      _ = base * (n' / base) + n' % base := by rw [hquot, hrest]
      _ = n' := Nat.div_add_mod n' base

/-! ## Reading -/

/-- The number that decimal digits make. -/
def digitsValue (s : PyStr) : ℕ := s.foldl (fun n c => 10 * n + (c.val - 48)) 0

/-- That many digits, as a number, and what comes after them. -/
def takeDigits (width : ℕ) (s : PyStr) : Option (ℕ × PyStr) :=
  if (s.take width).length = width ∧ (s.take width).all CodePoint.isDigit then
    some (digitsValue (s.take width), s.drop width)
  else none

/-- What comes after a character. -/
def takeChar (c : CodePoint) (s : PyStr) : Option PyStr :=
  if s.head? = some c then some s.tail else none

/-- The character that comes first is taken. -/
@[simp] theorem takeChar_cons (c : CodePoint) (s : PyStr) :
    takeChar c (c :: s) = some s := if_pos rfl

/-- A digit is written as one. -/
theorem hexDigit_spec (h : n < 10) : (hexDigit n).isDigit = true ∧ (hexDigit n).val - 48 = n := by
  have hall : ∀ n < 10, (hexDigit n).isDigit = true ∧ (hexDigit n).val - 48 = n := by decide
  exact hall n h

/-- Padded decimal digits are digits. -/
theorem all_isDigit_padded (width n : ℕ) : (padded 10 width n).all CodePoint.isDigit = true := by
  rw [List.all_eq_true]
  intro c hc
  obtain ⟨d, hd, rfl⟩ := mem_padded (by decide) hc
  exact (hexDigit_spec hd).1

/-- Padded digits of a number that fits are the number. -/
theorem digitsValue_padded (h : n < 10 ^ width) : digitsValue (padded 10 width n) = n := by
  unfold digitsValue
  induction width generalizing n with
  | zero =>
    rw [pow_zero] at h
    exact (Nat.lt_one_iff.1 h).symm
  | succ width ih =>
    have hquot : n / 10 < 10 ^ width := Nat.div_lt_of_lt_mul (by rwa [pow_succ'] at h)
    rw [padded, List.foldl_append, ih hquot, List.foldl_cons, List.foldl_nil,
      (hexDigit_spec (Nat.mod_lt n (by decide))).2]
    exact Nat.div_add_mod n 10

/-- Digits are read as the number that was written. -/
theorem takeDigits_padded (h : n < 10 ^ width) (s : PyStr) :
    takeDigits width (padded 10 width n ++ s) = some (n, s) := by
  have htake : (padded 10 width n ++ s).take width = padded 10 width n :=
    List.take_left' (length_padded 10 width n)
  have hdrop : (padded 10 width n ++ s).drop width = s := List.drop_left' (length_padded 10 width n)
  unfold takeDigits
  rw [htake, hdrop, if_pos ⟨length_padded 10 width n, all_isDigit_padded width n⟩,
    digitsValue_padded h]

/-! ## Classes of characters -/

/-- The text has a character of each class, in their order. -/
def matchesClasses : List (CodePoint → Bool) → PyStr → Bool
  | [], [] => true
  | p :: ps, c :: s => p c && matchesClasses ps s
  | _, _ => false

/-- Classes after each other are matched by texts after each other. -/
theorem matchesClasses_append {ps qs : List (CodePoint → Bool)} (h : ps.length = s.length) :
    matchesClasses (ps ++ qs) (s ++ t) = (matchesClasses ps s && matchesClasses qs t) := by
  induction ps generalizing s with
  | nil =>
    obtain rfl := List.length_eq_zero_iff.1 h.symm
    rfl
  | cons p ps ih =>
    obtain ⟨c, s, rfl⟩ := List.exists_cons_of_length_eq_add_one h.symm
    rw [List.cons_append, List.cons_append, matchesClasses, matchesClasses, ih (Nat.succ.inj h),
      Bool.and_assoc]

/-- A class is matched by as many characters of it. -/
theorem matchesClasses_replicate {p : CodePoint → Bool} (h : ∀ c ∈ s, p c = true) :
    matchesClasses (List.replicate s.length p) s = true := by
  induction s with
  | nil => rfl
  | cons c s ih =>
    rw [List.length_cons, List.replicate_succ, matchesClasses, h c List.mem_cons_self,
      ih fun c hc => h c (List.mem_cons_of_mem _ hc)]
    rfl

end MarketDataGateway.Lib
