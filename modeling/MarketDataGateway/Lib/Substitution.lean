import Mathlib.Data.List.Basic
import Mathlib.Data.List.TakeWhile

/-!
# Substitution of matches

The matches of a pattern in a text are looked for from the left, each behind the last one, and
something else is written in their place. Whether a pattern matches at a place may depend on the
element before the place and on all that follows.

A text is substituted in parts where the pattern is `Local`. Where a match can go on over the end of
the first part, `scanFrom` is what is written of that part, and how much of the rest belongs to the
match.
-/

namespace MarketDataGateway.Lib

universe u

variable {α : Type u}

/-- A pattern: the length of its match at a place. -/
abbrev Matcher (α : Type u) := Option α → List α → Option ℕ

/-- What stands before a place behind a text. -/
def following : Option α → List α → Option α
  | prev, [] => prev
  | _, c :: s => following (some c) s

/-- Substitute the matches, after so many elements that belong to a match already. -/
def subFrom (m : Matcher α) (r : List α) : Option α → ℕ → List α → List α
  | _, _, [] => []
  | _, k + 1, c :: s => subFrom m r (some c) k s
  | prev, 0, c :: s =>
    match m prev (c :: s) with
    | some (n + 1) => r ++ subFrom m r (some c) n s
    | _ => c :: subFrom m r (some c) 0 s

/-- Substitute the matches of a pattern. -/
def sub (m : Matcher α) (r s : List α) : List α := subFrom m r none 0 s

/-- What is written of a text that `y` follows, and how much of `y` belongs to the last match. -/
def scanFrom (m : Matcher α) (r y : List α) : Option α → ℕ → List α → List α × ℕ
  | _, k, [] => ([], k)
  | _, k + 1, c :: x => scanFrom m r y (some c) k x
  | prev, 0, c :: x =>
    match m prev (c :: x ++ y) with
    | some (n + 1) => (r ++ (scanFrom m r y (some c) n x).1, (scanFrom m r y (some c) n x).2)
    | _ => (c :: (scanFrom m r y (some c) 0 x).1, (scanFrom m r y (some c) 0 x).2)

/-- Matches are not empty, and within the text. -/
def Matcher.Sound (m : Matcher α) : Prop := ∀ prev s n, m prev s = some n → 0 < n ∧ n ≤ s.length

/-- What follows makes no difference to the matches in `x`. -/
def Matcher.Local (m : Matcher α) (x y : List α) : Prop :=
  ∀ a b prev, x = a ++ b → b ≠ [] → m prev (b ++ y) = m prev b

/-- What follows makes no difference but that a match up to the end of `x` goes on over `e`
elements. -/
def Matcher.Extends (m : Matcher α) (x y : List α) (e : ℕ) : Prop :=
  ∀ a b prev, x = a ++ b → b ≠ [] →
    m prev (b ++ y) = (m prev b).map fun n => if n = b.length then n + e else n

variable {m : Matcher α} {r x y z s b out : List α} {prev prev' : Option α} {k n e : ℕ} {c : α}

/-! ## Steps -/

/-- What comes before a text after another is what the two leave. -/
theorem following_append (x y : List α) (prev : Option α) :
    following prev (x ++ y) = following (following prev x) y := by
  induction x generalizing prev with
  | nil => rfl
  | cons c x ih => exact ih (some c)

/-- Nothing is made of nothing. -/
theorem subFrom_nil (prev : Option α) (k : ℕ) : subFrom m r prev k [] = [] := by
  cases k with
  | zero => rfl
  | succ k => rfl

/-- A character at which nothing matches stands. -/
theorem subFrom_cons_of_none (h : m prev (c :: s) = none) :
    subFrom m r prev 0 (c :: s) = c :: subFrom m r (some c) 0 s := by
  rw [subFrom, h]

/-- What matches is replaced, and the rest of it skipped. -/
theorem subFrom_cons_of_some (h : m prev (c :: s) = some (n + 1)) :
    subFrom m r prev 0 (c :: s) = r ++ subFrom m r (some c) n s := by
  rw [subFrom, h]

/-- A match is a match of one element and more, or there is none. -/
theorem Matcher.Sound.cases (hm : m.Sound) (prev : Option α) (s : List α) :
    m prev s = none ∨ ∃ n, m prev s = some (n + 1) ∧ n + 1 ≤ s.length := by
  cases h : m prev s with
  | none => exact .inl rfl
  | some n =>
    obtain ⟨hpos, hle⟩ := hm prev s n h
    obtain ⟨n, rfl⟩ := Nat.exists_eq_succ_of_ne_zero hpos.ne'
    exact .inr ⟨n, rfl, hle⟩

/-- What is to be skipped is skipped. -/
theorem subFrom_skip (x y : List α) (prev : Option α) (e : ℕ) :
    subFrom m r prev (x.length + e) (x ++ y) = subFrom m r (following prev x) e y := by
  induction x generalizing prev with
  | nil => rw [List.length_nil, Nat.zero_add, List.nil_append, following]
  | cons c x ih =>
    rw [List.length_cons, Nat.add_right_comm, List.cons_append, subFrom, following]
    exact ih (some c)

/-- A match is written over. -/
theorem subFrom_append_of_match (hx : x ≠ []) (h : m prev (x ++ y) = some x.length) :
    subFrom m r prev 0 (x ++ y) = r ++ subFrom m r (following prev x) 0 y := by
  obtain ⟨c, x, rfl⟩ := List.exists_cons_of_ne_nil hx
  have hskip := @subFrom_skip α m r x y (some c) 0
  have hmatch : m prev (c :: (x ++ y)) = some (x.length + 1) := h
  rw [Nat.add_zero] at hskip
  rw [List.cons_append, subFrom_cons_of_some hmatch, hskip, following]

/-- Where there is no match at the first place, it does not matter what stands before it. -/
theorem subFrom_prev (h : ∀ prev, m prev s = none) (prev prev' : Option α) :
    subFrom m r prev 0 s = subFrom m r prev' 0 s := by
  cases s with
  | nil => rw [subFrom_nil, subFrom_nil]
  | cons c s => rw [subFrom_cons_of_none (h prev), subFrom_cons_of_none (h prev')]

/-- Elements at which no match begins are kept. -/
theorem subFrom_append_of_none (h : ∀ c ∈ x, ∀ prev s, m prev (c :: s) = none)
    (y : List α) (prev : Option α) :
    subFrom m r prev 0 (x ++ y) = x ++ subFrom m r (following prev x) 0 y := by
  induction x generalizing prev with
  | nil => rfl
  | cons c x ih =>
    obtain ⟨hc, hx⟩ := List.forall_mem_cons.1 h
    rw [List.cons_append, subFrom_cons_of_none (hc _ _), ih hx, following, List.cons_append]

/-! ## Parts -/

/-- What is local to a text is local to its rest. -/
theorem Matcher.Local.tail (h : m.Local (c :: x) y) : m.Local x y :=
  fun a b prev hx => h (c :: a) b prev (by rw [hx, List.cons_append])

/-- What extends over a text extends over its rest. -/
theorem Matcher.Extends.tail (h : m.Extends (c :: x) y e) : m.Extends x y e :=
  fun a b prev hx => h (c :: a) b prev (by rw [hx, List.cons_append])

/-- A substitution that is local to a text goes on after it. -/
theorem subFrom_append (hm : m.Sound) (hlocal : m.Local x y) (prev : Option α) (hk : k ≤ x.length) :
    subFrom m r prev k (x ++ y) = subFrom m r prev k x ++ subFrom m r (following prev x) 0 y := by
  induction x generalizing prev k with
  | nil =>
    obtain rfl := Nat.le_zero.1 hk
    rfl
  | cons c x ih =>
    rw [following]
    cases k with
    | succ k => exact ih hlocal.tail (some c) (Nat.le_of_succ_le_succ hk)
    | zero =>
      have hsame : m prev (c :: (x ++ y)) = m prev (c :: x) :=
        hlocal [] (c :: x) prev rfl (List.cons_ne_nil c x)
      rcases hm.cases prev (c :: x) with hnone | ⟨n, hsome, hn⟩
      · rw [List.cons_append, subFrom_cons_of_none (hsame.trans hnone), subFrom_cons_of_none hnone,
          ih hlocal.tail (some c) (Nat.zero_le _), List.cons_append]
      · rw [List.cons_append, subFrom_cons_of_some (hsame.trans hsome), subFrom_cons_of_some hsome,
          ih hlocal.tail (some c) (Nat.le_of_succ_le_succ hn), List.append_assoc]

/-- A substitution that is local to a text from its start goes on after it. -/
theorem sub_append (hm : m.Sound) (hlocal : m.Local x y) :
    sub m r (x ++ y) = sub m r x ++ subFrom m r (following none x) 0 y :=
  subFrom_append hm hlocal none (Nat.zero_le _)

/-- The last match of `x` may go on over `e` elements of `y`. -/
theorem subFrom_append_of_extends (hm : m.Sound) (hextends : m.Extends x y e) (prev : Option α)
    (hk : k < x.length ∨ k = 0) :
    subFrom m r prev k (x ++ y) = subFrom m r prev k x ++ subFrom m r (following prev x) 0 y ∨
      (∃ u, subFrom m r prev k x = u ++ r) ∧
        subFrom m r prev k (x ++ y) =
        subFrom m r prev k x ++ subFrom m r (following prev x) e y := by
  induction x generalizing prev k with
  | nil =>
    obtain rfl : k = 0 := hk.resolve_left (Nat.not_lt_zero k)
    exact .inl rfl
  | cons c x ih =>
    rw [following]
    cases k with
    | succ k =>
      have hk : k < x.length := by
        rw [List.length_cons] at hk
        omega
      exact ih hextends.tail (some c) (.inl hk)
    | zero =>
      have hmap : m prev (c :: (x ++ y)) =
          (m prev (c :: x)).map fun n => if n = (c :: x).length then n + e else n :=
        hextends [] (c :: x) prev rfl (List.cons_ne_nil c x)
      -- A match within the text is as it was.
      rcases hm.cases prev (c :: x) with hnone | ⟨n, hsome, hn⟩
      · rw [hnone, Option.map_none] at hmap
        rw [List.cons_append, subFrom_cons_of_none hmap, subFrom_cons_of_none hnone]
        rcases ih hextends.tail (some c) (.inr rfl) with h | ⟨⟨u, hu⟩, h⟩
        · exact .inl (by rw [h, List.cons_append])
        · exact .inr ⟨⟨c :: u, by rw [hu, List.cons_append]⟩, by rw [h, List.cons_append]⟩
      · rw [hsome, Option.map_some] at hmap
        rw [List.length_cons] at hmap hn
        rw [List.cons_append, subFrom_cons_of_some hsome]
        by_cases hend : n + 1 = x.length + 1
        · -- The match reaches the end, and goes on.
          obtain rfl : n = x.length := Nat.succ.inj hend
          rw [if_pos hend, Nat.add_right_comm] at hmap
          have hrest : subFrom m r (some c) x.length x = [] := by
            have hskip := @subFrom_skip α m r x [] (some c) 0
            rwa [Nat.add_zero, List.append_nil, subFrom_nil] at hskip
          rw [subFrom_cons_of_some hmap, subFrom_skip, hrest, List.append_nil]
          exact .inr ⟨⟨[], rfl⟩, rfl⟩
        · rw [if_neg hend] at hmap
          rw [subFrom_cons_of_some hmap]
          have hlt : n < x.length := by omega
          rcases ih hextends.tail (some c) (.inl hlt) with h | ⟨⟨u, hu⟩, h⟩
          · exact .inl (by rw [h, List.append_assoc])
          · exact .inr ⟨⟨r ++ u, by rw [hu, List.append_assoc]⟩, by rw [h, List.append_assoc]⟩

/-- A text whose last element is no match of its own ends in this element or in a substitute. -/
theorem exists_subFrom_concat (hm : m.Sound) (hnone : ∀ prev, m prev [c] = none)
    (x : List α) (prev : Option α)
    (hk : k ≤ x.length) :
    ∃ u, subFrom m r prev k (x ++ [c]) = u ++ [c] ∨ subFrom m r prev k (x ++ [c]) = u ++ r := by
  induction x generalizing prev k with
  | nil =>
    obtain rfl := Nat.le_zero.1 hk
    exact ⟨[], .inl (subFrom_cons_of_none (hnone prev))⟩
  | cons d x ih =>
    cases k with
    | succ k => exact ih (some d) (Nat.le_of_succ_le_succ hk)
    | zero =>
      rcases hm.cases prev (d :: (x ++ [c])) with hnone' | ⟨n, hsome, hn⟩
      · obtain ⟨u, hu⟩ := ih (some d) (Nat.zero_le _)
        rw [List.cons_append, subFrom_cons_of_none hnone']
        exact ⟨d :: u, hu.imp (fun h => by rw [h, List.cons_append]) fun h => by rw [h,
          List.cons_append]⟩
      · rw [List.cons_append, subFrom_cons_of_some hsome]
        rw [List.length_cons, List.length_append, List.length_singleton] at hn
        -- The match ends before the last element, or takes it in.
        by_cases hend : n ≤ x.length
        · obtain ⟨u, hu⟩ := ih (some d) hend
          exact ⟨r ++ u, hu.imp (fun h => by rw [h, List.append_assoc]) fun h => by rw [h,
            List.append_assoc]⟩
        · obtain rfl : n = x.length + 1 := by omega
          have hskip := @subFrom_skip α m r (x ++ [c]) [] (some d) 0
          rw [Nat.add_zero, List.append_nil, subFrom_nil, List.length_append,
            List.length_singleton] at hskip
          exact ⟨[], .inr (by rw [hskip, List.append_nil, List.nil_append])⟩

/-! ## What is written -/

/-- What a substitution leaves has been there or is the replacement. -/
theorem mem_of_mem_subFrom (h : c ∈ subFrom m r prev k s) : c ∈ s ∨ c ∈ r := by
  induction s generalizing prev k with
  | nil =>
    rw [subFrom_nil] at h
    exact absurd h List.not_mem_nil
  | cons d s ih =>
    have htail {prev : Option α} {k : ℕ} (h : c ∈ subFrom m r prev k s) : c ∈ d :: s ∨ c ∈ r :=
      (ih h).imp_left (List.mem_cons_of_mem d)
    cases k with
    | succ k => exact htail h
    | zero =>
      unfold subFrom at h
      split at h
      · exact (List.mem_append.1 h).elim .inr htail
      · rcases List.mem_cons.1 h with rfl | h
        · exact .inl List.mem_cons_self
        · exact htail h

/-- A substitution of a text leaves no empty one. -/
theorem subFrom_ne_nil (hr : r ≠ []) (hs : s ≠ []) : subFrom m r prev 0 s ≠ [] := by
  obtain ⟨c, s, rfl⟩ := List.exists_cons_of_ne_nil hs
  unfold subFrom
  split
  · exact List.append_ne_nil_of_left_ne_nil hr _
  · exact List.cons_ne_nil _ _

/-- What is neither in a match nor in the substitute is kept. -/
theorem filter_subFrom {p : α → Bool} (hm : m.Sound)
    (hmatch : ∀ prev s n, m prev s = some n → ∀ c ∈ s.take n, p c = false)
    (hr : ∀ c ∈ r, p c = false)
    (prev : Option α) (k : ℕ) (s : List α) :
    (subFrom m r prev k s).filter p = (s.drop k).filter p := by
  have hnil {l : List α} (hl : ∀ c ∈ l, p c = false) : l.filter p = [] :=
    List.filter_eq_nil_iff.2 fun c hc => Bool.eq_false_iff.1 (hl c hc)
  induction s generalizing prev k with
  | nil => rw [subFrom_nil, List.drop_nil]
  | cons c s ih =>
    cases k with
    | succ k => exact ih (some c) k
    | zero =>
      rcases hm.cases prev (c :: s) with hnone | ⟨n, hsome, -⟩
      · rw [subFrom_cons_of_none hnone, List.drop_zero, List.filter_cons,
          List.filter_cons, ih, List.drop_zero]
      · have htake := hnil (hmatch prev (c :: s) (n + 1) hsome)
        rw [subFrom_cons_of_some hsome, List.filter_append, hnil hr, List.nil_append, ih,
          List.drop_zero, ← List.take_append_drop (n + 1) (c :: s), List.filter_append, htake,
          List.nil_append, List.drop_succ_cons]

/-- What is written before the first substitute stands in the text. -/
theorem exists_of_subFrom_eq (hr : r ≠ []) (hx : ∀ c ∈ x, r.head? ≠ some c)
    (h : subFrom m r prev 0 s = x ++ out) :
    ∃ s', s = x ++ s' := by
  induction x generalizing prev s with
  | nil => exact ⟨s, rfl⟩
  | cons d x ih =>
    obtain ⟨hd, hrest⟩ := List.forall_mem_cons.1 hx
    cases s with
    | nil =>
      rw [subFrom_nil] at h
      exact nomatch h
    | cons c s =>
      unfold subFrom at h
      split at h
      · obtain ⟨first, rest, rfl⟩ := List.exists_cons_of_ne_nil hr
        obtain ⟨rfl, -⟩ := List.cons.inj h
        exact absurd rfl hd
      · obtain ⟨rfl, hout⟩ := List.cons.inj h
        obtain ⟨s', rfl⟩ := ih hrest hout
        exact ⟨s', rfl⟩

/-! ## Scanning a part -/

/-- A scan passes a character at which nothing matches. -/
theorem scanFrom_cons_of_none (h : m prev (c :: (x ++ y)) = none) : scanFrom m r y prev 0 (c :: x) =
    (c :: (scanFrom m r y (some c) 0 x).1, (scanFrom m r y (some c) 0 x).2) := by
  rw [scanFrom, List.cons_append, h]

/-- A scan replaces what matches. -/
theorem scanFrom_cons_of_some (h : m prev (c :: (x ++ y)) = some (n + 1)) :
    scanFrom m r y prev 0 (c :: x) =
    (r ++ (scanFrom m r y (some c) n x).1, (scanFrom m r y (some c) n x).2) := by
  rw [scanFrom, List.cons_append, h]

/-- A substitution is the scan of the first part, and what it leaves to do of the second. -/
theorem subFrom_scanFrom (hm : m.Sound) (x y : List α) (prev : Option α) (k : ℕ) :
    subFrom m r prev k (x ++ y) =
    (scanFrom m r y prev k x).1 ++ subFrom m r (following prev x)
    (scanFrom m r y prev k x).2 y := by
  induction x generalizing prev k with
  | nil => cases k with
    | zero => rfl
    | succ k => rfl
  | cons c x ih =>
    cases k with
    | succ k => exact ih (some c) k
    | zero =>
      rw [List.cons_append, following]
      rcases hm.cases prev (c :: (x ++ y)) with hnone | ⟨n, hsome, -⟩
      · rw [subFrom_cons_of_none hnone, scanFrom_cons_of_none hnone, ih, List.cons_append]
      · rw [subFrom_cons_of_some hsome, scanFrom_cons_of_some hsome, ih, List.append_assoc]

/-- A scan of what is to be skipped leaves the rest of the skip. -/
theorem scanFrom_skip (x y : List α) (prev : Option α) (e : ℕ) :
    scanFrom m r y prev (x.length + e) x = ([], e) := by
  induction x generalizing prev with
  | nil =>
    rw [List.length_nil, Nat.zero_add]
    rfl
  | cons c x ih =>
    rw [List.length_cons, Nat.add_right_comm]
    exact ih (some c)

/-- Two texts that follow `x` come to the same if the matches differ only in how much of the text
behind `x` they take. -/
theorem scanFrom_eq (hm : m.Sound) {z : List α}
    (h : ∀ a b prev, x = a ++ b → b ≠ [] →
      m prev (b ++ z) = (m prev (b ++ y)).map fun n => if n ≤ b.length then n else b.length + e)
    (prev : Option α) (hk : k ≤ x.length) :
    scanFrom m r z prev k x =
      ((scanFrom m r y prev k x).1, if (scanFrom m r y prev k x).2 = 0 then 0 else e) := by
  induction x generalizing prev k with
  | nil =>
    obtain rfl := Nat.le_zero.1 hk
    rfl
  | cons c x ih =>
    have ih {k : ℕ} (hk : k ≤ x.length) :=
      ih (fun a b prev hx => h (c :: a) b prev (by rw [hx, List.cons_append]))
      (some c) hk
    cases k with
    | succ k => exact ih (Nat.le_of_succ_le_succ hk)
    | zero =>
      have hmap := h [] (c :: x) prev rfl (List.cons_ne_nil c x)
      rw [List.cons_append, List.cons_append] at hmap
      rcases hm.cases prev (c :: (x ++ y)) with hnone | ⟨n, hsome, -⟩
      · rw [hnone, Option.map_none] at hmap
        rw [scanFrom_cons_of_none hmap, scanFrom_cons_of_none hnone, ih (Nat.zero_le _)]
      · rw [hsome, Option.map_some, List.length_cons] at hmap
        by_cases hend : n + 1 ≤ x.length + 1
        · rw [if_pos hend] at hmap
          rw [scanFrom_cons_of_some hmap, scanFrom_cons_of_some hsome,
            ih (Nat.le_of_succ_le_succ hend)]
        · -- The match takes more than `x`.
          rw [if_neg hend, Nat.add_right_comm] at hmap
          obtain ⟨d, rfl⟩ : ∃ d, n = x.length + (d + 1) := ⟨n - x.length - 1, by omega⟩
          rw [scanFrom_cons_of_some hmap, scanFrom_cons_of_some hsome, scanFrom_skip, scanFrom_skip,
            if_neg (Nat.succ_ne_zero d)]

/-- Where no match takes anything of `y`, another text that follows `x` comes to the same, if the
matches that end in `x` are the same before it. -/
theorem scanFrom_congr (hm : m.Sound) {z : List α}
    (h : ∀ a b prev, x = a ++ b → b ≠ [] →
      m prev (b ++ z) = m prev (b ++ y) ∨ ∃ n, m prev (b ++ y) = some n ∧ b.length < n)
    (prev : Option α) (hk : k ≤ x.length) (hzero : (scanFrom m r y prev k x).2 = 0) :
    scanFrom m r z prev k x = scanFrom m r y prev k x := by
  induction x generalizing prev k with
  | nil => rfl
  | cons c x ih =>
    have ih {k : ℕ} (hk : k ≤ x.length) (hzero : (scanFrom m r y (some c) k x).2 = 0) :=
      ih (fun a b prev hx => h (c :: a) b prev (by rw [hx, List.cons_append])) (some c) hk hzero
    cases k with
    | succ k => exact ih (Nat.le_of_succ_le_succ hk) hzero
    | zero =>
      have hmatch := h [] (c :: x) prev rfl (List.cons_ne_nil c x)
      rw [List.cons_append, List.cons_append, List.length_cons] at hmatch
      rcases hm.cases prev (c :: (x ++ y)) with hnone | ⟨n, hsome, -⟩
      · have hsame : m prev (c :: (x ++ z)) = none := by
          rcases hmatch with hsame | ⟨n, hsome, -⟩
          · exact hsame.trans hnone
          · rw [hnone] at hsome
            cases hsome
        rw [scanFrom_cons_of_none hnone] at hzero
        rw [scanFrom_cons_of_none hsame, scanFrom_cons_of_none hnone, ih (Nat.zero_le _) hzero]
      · rw [scanFrom_cons_of_some hsome] at hzero
        by_cases hend : n ≤ x.length
        · have hsame : m prev (c :: (x ++ z)) = some (n + 1) := by
            rcases hmatch with hsame | ⟨n', hsome', hlt⟩
            · exact hsame.trans hsome
            · obtain rfl := Option.some.inj (hsome.symm.trans hsome')
              omega
          rw [scanFrom_cons_of_some hsame, scanFrom_cons_of_some hsome, ih hend hzero]
        · -- A match that takes more than `x` takes something of `y`.
          obtain ⟨d, rfl⟩ : ∃ d, n = x.length + (d + 1) := ⟨n - x.length - 1, by omega⟩
          rw [scanFrom_skip] at hzero
          cases hzero

/-- Where no match takes anything of `y`, what follows `x` is substituted by itself. -/
theorem subFrom_append_of_scanFrom (hm : m.Sound) {z : List α}
    (h : ∀ z', z' = z ∨ z' = [] → ∀ a b prev, x = a ++ b → b ≠ [] →
      m prev (b ++ z') = m prev (b ++ y) ∨ ∃ n, m prev (b ++ y) = some n ∧ b.length < n)
    (prev : Option α) (hzero : (scanFrom m r y prev 0 x).2 = 0) :
    subFrom m r prev 0 (x ++ z) =
      subFrom m r prev 0 x ++ subFrom m r (following prev x) 0 z := by
  have hscan (z' : List α) (hz' : z' = z ∨ z' = []) :
      scanFrom m r z' prev 0 x = scanFrom m r y prev 0 x :=
    scanFrom_congr hm (h z' hz') prev (Nat.zero_le _) hzero
  have hpart (z' : List α) (hz' : z' = z ∨ z' = []) : subFrom m r prev 0 (x ++ z') =
      (scanFrom m r y prev 0 x).1 ++ subFrom m r (following prev x) 0 z' := by
    rw [subFrom_scanFrom hm, hscan z' hz', hzero]
  have hwhole := hpart [] (.inr rfl)
  rw [List.append_nil, subFrom_nil, List.append_nil] at hwhole
  rw [hpart z (.inl rfl), hwhole]

/-- Where no match takes anything of what follows `x`, nothing of it belongs to a match. -/
theorem scanFrom_snd_eq_zero (hm : m.Sound)
    (h : ∀ a b prev n, x = a ++ b → b ≠ [] → m prev (b ++ y) = some n →
    n ≤ b.length) (prev : Option α)
    (hk : k ≤ x.length) : (scanFrom m r y prev k x).2 = 0 := by
  induction x generalizing prev k with
  | nil => exact Nat.le_zero.1 hk
  | cons c x ih =>
    have ih {k : ℕ} (hk : k ≤ x.length) :=
      ih (fun a b prev n hx => h (c :: a) b prev n (by rw [hx, List.cons_append]))
      (some c) hk
    cases k with
    | succ k => exact ih (Nat.le_of_succ_le_succ hk)
    | zero =>
      rcases hm.cases prev (c :: (x ++ y)) with hnone | ⟨n, hsome, -⟩
      · rw [scanFrom_cons_of_none hnone]
        exact ih (Nat.zero_le _)
      · have hn := h [] (c :: x) prev (n + 1) rfl (List.cons_ne_nil c x) hsome
        rw [scanFrom_cons_of_some hsome]
        exact ih (Nat.le_of_succ_le_succ hn)

end MarketDataGateway.Lib
