import Mathlib.Data.List.Sort
import Mathlib.Data.Int.Order.Basic

/-!
# Sorted sets

A sorted set maps members to scores, one score a member. The operations are those of a Redis
sorted set: `zadd` sets a member's score, `zrem` removes a member, `zremrangebyscore` removes
every member whose score is at most a bound, `zcard` counts the members, and `zrangebyscore` lists
the members of a score range by increasing score. That a member occurs once is a field of the
structure, so that `zcard` counts members and not entries.
-/

namespace MarketDataGateway.Lib

/-- Members with one score each. -/
structure SortedSet (α : Type*) where
  /-- The members with their scores, in no particular order. -/
  entries : List (α × ℤ)
  /-- No member occurs twice. -/
  nodup : (entries.map Prod.fst).Nodup

namespace SortedSet

variable {α : Type*}

instance : Membership α (SortedSet α) := ⟨fun s m => m ∈ s.entries.map Prod.fst⟩

instance [DecidableEq α] (m : α) (s : SortedSet α) : Decidable (m ∈ s) :=
  inferInstanceAs (Decidable (m ∈ s.entries.map Prod.fst))

/-- The members whose entries satisfy `p`. -/
def keep (s : SortedSet α) (p : α × ℤ → Bool) : SortedSet α :=
  ⟨s.entries.filter p, s.nodup.sublist (List.filter_sublist.map _)⟩

/-- The set with no member. -/
def empty : SortedSet α := ⟨[], List.nodup_nil⟩

instance : Inhabited (SortedSet α) := ⟨empty⟩

/-- `ZREMRANGEBYSCORE key -inf bound`. -/
def zremrangebyscore (s : SortedSet α) (bound : ℤ) : SortedSet α := s.keep fun e => bound < e.2

/-- `ZCARD key`. -/
def zcard (s : SortedSet α) : ℕ := s.entries.length

/-- The members with a score in `[lo, hi]`, by increasing score: `ZRANGEBYSCORE key lo hi`. -/
def zrangebyscore (s : SortedSet α) (lo hi : ℤ) : List α :=
  ((s.entries.filter fun e => lo ≤ e.2 ∧ e.2 ≤ hi).insertionSort fun a b => a.2 ≤ b.2).map Prod.fst

/-- The member `m` is in the set with a score above `now`. -/
def Unexpired (s : SortedSet α) (now : ℤ) (m : α) : Prop := ∃ e ∈ s.entries, e.1 = m ∧ now < e.2

instance [DecidableEq α] (s : SortedSet α) (now : ℤ) (m : α) : Decidable (s.Unexpired now m) :=
  inferInstanceAs (Decidable (∃ e ∈ s.entries, e.1 = m ∧ now < e.2))

section Update

variable [DecidableEq α]

/-- `ZREM key m`. -/
def zrem (s : SortedSet α) (m : α) : SortedSet α := s.keep fun e => e.1 ≠ m

/-- `ZREM key m₁ m₂ …`. -/
def zremAll (s : SortedSet α) (ms : List α) : SortedSet α := s.keep fun e => e.1 ∉ ms

/-- `ZADD key score m`. -/
def zadd (s : SortedSet α) (m : α) (score : ℤ) : SortedSet α where
  entries := (m, score) :: (s.zrem m).entries
  nodup := by
    rw [List.map_cons, List.nodup_cons]
    refine ⟨?_, (s.zrem m).nodup⟩
    simp [zrem, keep]

end Update

/-- A member is that of an entry. -/
theorem mem_def {m : α} {s : SortedSet α} : m ∈ s ↔ ∃ e ∈ s.entries, e.1 = m := List.mem_map

/-- An empty set has no members. -/
@[simp] theorem not_mem_empty (m : α) : m ∉ (empty : SortedSet α) := List.not_mem_nil

/-- An empty set has no entries. -/
@[simp] theorem zcard_empty : (empty : SortedSet α).zcard = 0 := rfl

/-- The members that are kept are those of the entries kept. -/
theorem mem_keep {m : α} {s : SortedSet α} {p : α × ℤ → Bool} :
    m ∈ s.keep p ↔ ∃ e ∈ s.entries, p e ∧ e.1 = m := by
  simp only [mem_def, keep, List.mem_filter, and_assoc]

/-- Removing members leaves members of the set. -/
theorem mem_of_mem_keep {m : α} {s : SortedSet α} {p : α × ℤ → Bool} (h : m ∈ s.keep p) :
    m ∈ s := by
  obtain ⟨e, he, -, rfl⟩ := mem_keep.1 h
  exact mem_def.2 ⟨e, he, rfl⟩

/-- A purge leaves members of the set. -/
theorem mem_of_mem_zremrangebyscore {m : α} {s : SortedSet α} {bound : ℤ}
    (h : m ∈ s.zremrangebyscore bound) : m ∈ s := mem_of_mem_keep h

/-- A member with a score above the clock is a member. -/
theorem Unexpired.mem {s : SortedSet α} {now : ℤ} {m : α} (h : s.Unexpired now m) : m ∈ s := by
  obtain ⟨e, he, hm, -⟩ := h
  exact mem_def.2 ⟨e, he, hm⟩

/-- `ZREM` removes its member and no other. -/
@[simp] theorem mem_zrem [DecidableEq α] {m x : α} {s : SortedSet α} :
    x ∈ s.zrem m ↔ x ∈ s ∧ x ≠ m := by
  rw [zrem, mem_keep, mem_def]
  constructor
  · rintro ⟨e, he, hp, rfl⟩
    exact ⟨⟨e, he, rfl⟩, by simpa using hp⟩
  · rintro ⟨⟨e, he, rfl⟩, hne⟩
    exact ⟨e, he, by simpa using hne, rfl⟩

/-- `ZADD` adds its member and no other. -/
@[simp] theorem mem_zadd [DecidableEq α] {m x : α} {s : SortedSet α} {score : ℤ} :
    x ∈ s.zadd m score ↔ x = m ∨ x ∈ s := by
  have hcons : x ∈ s.zadd m score ↔ x = m ∨ x ∈ s.zrem m := by
    simp only [Membership.mem, zadd, List.map_cons]
    exact List.mem_cons
  rw [hcons, mem_zrem]
  by_cases h : x = m <;> simp [h]

/-- A set counts zero exactly when it has no member. -/
theorem zcard_eq_zero {s : SortedSet α} : s.zcard = 0 ↔ ∀ m, m ∉ s := by
  rw [zcard, List.length_eq_zero_iff]
  constructor
  · intro h m hm
    obtain ⟨e, he, -⟩ := mem_def.1 hm
    simp [h] at he
  · intro h
    rw [List.eq_nil_iff_forall_not_mem]
    exact fun e he => h e.1 (mem_def.2 ⟨e, he, rfl⟩)

/-- A set with a member counts at least one. -/
theorem zcard_ne_zero_of_mem {m : α} {s : SortedSet α} (h : m ∈ s) : s.zcard ≠ 0 :=
  fun h0 => zcard_eq_zero.1 h0 m h

/-- A set that counts at least one has a member. -/
theorem exists_mem_of_zcard_ne_zero {s : SortedSet α} (h : s.zcard ≠ 0) : ∃ m, m ∈ s := by
  by_contra hno
  exact h (zcard_eq_zero.2 fun m hm => hno ⟨m, hm⟩)

/-- If removing members leaves one, there was one. -/
theorem zcard_ne_zero_of_keep {s : SortedSet α} {p : α × ℤ → Bool} (h : (s.keep p).zcard ≠ 0) :
    s.zcard ≠ 0 := by
  obtain ⟨m, hm⟩ := exists_mem_of_zcard_ne_zero h
  exact zcard_ne_zero_of_mem (mem_of_mem_keep hm)

/-- A set is not empty after `ZADD`. -/
@[simp] theorem zcard_zadd_ne_zero [DecidableEq α] (s : SortedSet α) (m : α) (score : ℤ) :
    (s.zadd m score).zcard ≠ 0 := by
  simp [zcard, zadd]

/-- The first member added to a set makes it count one. -/
theorem zcard_zadd_of_zcard_eq_zero [DecidableEq α] {s : SortedSet α} (h : s.zcard = 0) (m : α)
    (score : ℤ) : (s.zadd m score).zcard = 1 := by
  have hnil : s.entries = [] := List.length_eq_zero_iff.1 h
  simp [zcard, zadd, zrem, keep, hnil]

/-! ### Members with a score above the clock -/

section Live

variable {s : SortedSet α} {now now' score : ℤ} {m x : α}

/-- The number of members with a score above `now`. -/
def live (s : SortedSet α) (now : ℤ) : ℕ := (s.zremrangebyscore now).zcard

/-- The live entries are those that come later than now. -/
theorem live_eq (s : SortedSet α) (now : ℤ) :
    s.live now = (s.entries.filter fun e => now < e.2).length := rfl

/-- No more entries are live than there are. -/
theorem live_le_zcard (s : SortedSet α) (now : ℤ) : s.live now ≤ s.zcard :=
  List.length_filter_le _ _

/-- All entries are live if none is due. -/
theorem live_eq_zcard (h : ∀ e ∈ s.entries, now < e.2) : s.live now = s.zcard := by
  rw [live_eq, List.filter_eq_self.2 fun e he => decide_eq_true (h e he)]
  rfl

/-- No more entries are live when some are dropped. -/
theorem live_keep_le (s : SortedSet α) (p : α × ℤ → Bool) (now : ℤ) :
    (s.keep p).live now ≤ s.live now :=
  (List.filter_sublist.filter _).length_le

/-- No more entries are live later on. -/
theorem live_le_of_le (s : SortedSet α) (hle : now ≤ now') : s.live now' ≤ s.live now := by
  rw [live_eq, live_eq, ← List.countP_eq_length_filter, ← List.countP_eq_length_filter]
  refine List.countP_mono_left fun e _ he => ?_
  rw [decide_eq_true_eq] at he ⊢
  exact hle.trans_lt he

/-- What has not expired later has not expired now. -/
theorem Unexpired.of_le (h : s.Unexpired now' m) (hle : now ≤ now') : s.Unexpired now m := by
  obtain ⟨e, he, hm, hlt⟩ := h
  exact ⟨e, he, hm, hle.trans_lt hlt⟩

/-- Nothing is unexpired in an empty set. -/
theorem not_unexpired_empty : ¬(empty : SortedSet α).Unexpired now m :=
  fun ⟨_, he, _⟩ => absurd he List.not_mem_nil

/-- What has not expired among some entries has not expired among all. -/
theorem Unexpired.of_keep {p : α × ℤ → Bool} (h : (s.keep p).Unexpired now m) :
    s.Unexpired now m := by
  obtain ⟨e, he, hm, hlt⟩ := h
  exact ⟨e, (List.mem_filter.1 he).1, hm, hlt⟩

/-- A purge leaves the unexpired members. -/
theorem unexpired_zremrangebyscore :
    (s.zremrangebyscore now).Unexpired now m ↔ s.Unexpired now m := by
  refine ⟨Unexpired.of_keep, fun ⟨e, he, hm, hlt⟩ => ⟨e, ?_, hm, hlt⟩⟩
  exact List.mem_filter.2 ⟨he, decide_eq_true hlt⟩

/-- What is due is not live, so that its removal leaves the live entries. -/
theorem live_zremrangebyscore : (s.zremrangebyscore now).live now = s.live now := by
  unfold live zremrangebyscore keep zcard
  dsimp only
  rw [List.filter_filter]
  simp only [Bool.and_self]

variable [DecidableEq α]

/-- What has not expired after `ZREM` is another member. -/
theorem unexpired_zrem : (s.zrem m).Unexpired now x ↔ x ≠ m ∧ s.Unexpired now x := by
  constructor
  · rintro ⟨e, he, rfl, hlt⟩
    obtain ⟨hmem, hne⟩ := List.mem_filter.1 he
    exact ⟨of_decide_eq_true hne, e, hmem, rfl, hlt⟩
  · rintro ⟨hne, e, he, rfl, hlt⟩
    exact ⟨e, List.mem_filter.2 ⟨he, decide_eq_true hne⟩, rfl, hlt⟩

/-- What has not expired after `ZADD` is the member with its new score, or another one. -/
theorem unexpired_zadd :
    (s.zadd m score).Unexpired now x ↔ (x = m ∧ now < score) ∨ (x ≠ m ∧ s.Unexpired now x) := by
  rw [← unexpired_zrem]
  constructor
  · rintro ⟨e, he, rfl, hlt⟩
    rcases List.mem_cons.1 he with rfl | he
    · exact Or.inl ⟨rfl, hlt⟩
    · exact Or.inr ⟨e, he, rfl, hlt⟩
  · rintro (⟨rfl, hlt⟩ | ⟨e, he, rfl, hlt⟩)
    · exact ⟨(x, score), List.mem_cons_self, rfl, hlt⟩
    · exact ⟨e, List.mem_cons_of_mem _ he, rfl, hlt⟩

/-- A member that is added and removed is removed. -/
theorem zrem_zadd (s : SortedSet α) (m : α) (score : ℤ) :
    (s.zadd m score).zrem m = s.zrem m := by
  unfold zadd zrem keep
  simp [List.filter_filter]

/-- Of entries with different members, those of one member are one at most. -/
theorem length_filter_ne (entries : List (α × ℤ)) (hnodup : (entries.map Prod.fst).Nodup) (m : α)
    (now : ℤ) :
    (entries.filter fun e => now < e.2).length =
      ((entries.filter fun e => e.1 ≠ m).filter fun e => now < e.2).length +
        if ∃ e ∈ entries, e.1 = m ∧ now < e.2 then 1 else 0 := by
  induction entries with
  | nil => simp
  | cons e entries ih =>
    rw [List.map_cons, List.nodup_cons] at hnodup
    by_cases hm : e.1 = m
    · -- No other entry is one of the member.
      have hothers : ∀ e' ∈ entries, e'.1 ≠ m := fun e' he' heq =>
        hnodup.1 (List.mem_map.2 ⟨e', he', heq.trans hm.symm⟩)
      have hself : (e :: entries).filter (fun e => decide (e.1 ≠ m)) = entries := by
        rw [List.filter_cons, if_neg (by simpa using hm)]
        exact List.filter_eq_self.2 fun e' he' => decide_eq_true (hothers e' he')
      have hexists : (∃ e' ∈ e :: entries, e'.1 = m ∧ now < e'.2) ↔ now < e.2 := by
        constructor
        · rintro ⟨e', he', hm', hlt⟩
          rcases List.mem_cons.1 he' with rfl | he'
          · exact hlt
          · exact absurd hm' (hothers e' he')
        · exact fun hlt => ⟨e, List.mem_cons_self, hm, hlt⟩
      rw [hself, List.filter_cons]
      simp only [hexists, decide_eq_true_eq]
      split
      · rfl
      · rfl
    · have hexists : (∃ e' ∈ e :: entries, e'.1 = m ∧ now < e'.2) ↔
          ∃ e' ∈ entries, e'.1 = m ∧ now < e'.2 := by
        simp [hm]
      have hrest := ih hnodup.2
      have hkept : (e :: entries).filter (fun e => decide (e.1 ≠ m)) =
          e :: entries.filter fun e => e.1 ≠ m := by
        rw [List.filter_cons, if_pos (by simpa using hm)]
      rw [hkept, List.filter_cons, List.filter_cons]
      simp only [hexists, decide_eq_true_eq]
      split
      · rw [List.length_cons, List.length_cons, hrest]
        omega
      · exact hrest

/-- Removing a member removes it from the unexpired ones. -/
theorem live_zrem (s : SortedSet α) (m : α) (now : ℤ) :
    s.live now = (s.zrem m).live now + if s.Unexpired now m then 1 else 0 :=
  length_filter_ne s.entries s.nodup m now

/-- Adding a member with a score above the clock counts it if it was not counted. -/
theorem live_zadd (hlt : now < score) :
    (s.zadd m score).live now = s.live now + if s.Unexpired now m then 0 else 1 := by
  have hcons : (s.zadd m score).live now = (s.zrem m).live now + 1 := by
    rw [live_eq, live_eq, zadd]
    dsimp only
    rw [List.filter_cons_of_pos (by simpa using hlt), List.length_cons]
  rw [hcons, live_zrem s m now]
  split
  · rfl
  · rfl

/-- Adding a member with a score up to the clock counts nothing. -/
theorem live_zadd_le (hle : score ≤ now) : (s.zadd m score).live now ≤ s.live now := by
  have hcons : (s.zadd m score).live now = (s.zrem m).live now := by
    rw [live_eq, live_eq, zadd]
    dsimp only
    rw [List.filter_cons_of_neg (by simpa using hle)]
  rw [hcons]
  exact live_keep_le s _ now

end Live

/-! ### Sets whose scores are computed from the members -/

/-- Each member's score is `f` of it. -/
def ScoredBy (f : α → ℤ) (s : SortedSet α) : Prop := ∀ e ∈ s.entries, e.2 = f e.1

section ScoredBy

variable {f : α → ℤ} {s : SortedSet α} {m : α}

/-- An empty set has the scores of any function. -/
theorem scoredBy_empty (f : α → ℤ) : ScoredBy f (empty : SortedSet α) :=
  fun _ he => absurd he List.not_mem_nil

/-- Entries that are kept keep their scores. -/
theorem ScoredBy.keep (h : ScoredBy f s) (p : α × ℤ → Bool) : ScoredBy f (s.keep p) :=
  fun e he => h e (List.mem_filter.1 he).1

/-- A member with the score of the function keeps the scores those of the function. -/
theorem ScoredBy.zadd [DecidableEq α] (h : ScoredBy f s) (m : α) :
    ScoredBy f (s.zadd m (f m)) := by
  intro e he
  rcases List.mem_cons.1 he with rfl | he
  · rfl
  · exact h.keep _ e he

/-- What stays of such a set is decided by the members. -/
theorem ScoredBy.mem_zremrangebyscore (h : ScoredBy f s) {bound : ℤ} :
    m ∈ s.zremrangebyscore bound ↔ m ∈ s ∧ bound < f m := by
  rw [zremrangebyscore, mem_keep, mem_def]
  constructor
  · rintro ⟨e, he, hlt, rfl⟩
    rw [← h e he]
    exact ⟨⟨e, he, rfl⟩, of_decide_eq_true hlt⟩
  · rintro ⟨⟨e, he, rfl⟩, hlt⟩
    rw [← h e he] at hlt
    exact ⟨e, he, decide_eq_true hlt, rfl⟩

/-- What a range of such a set lists is decided by the members. -/
theorem ScoredBy.mem_zrangebyscore (h : ScoredBy f s) {lo hi : ℤ} :
    m ∈ s.zrangebyscore lo hi ↔ m ∈ s ∧ lo ≤ f m ∧ f m ≤ hi := by
  rw [zrangebyscore, List.mem_map, mem_def]
  constructor
  · rintro ⟨e, he, rfl⟩
    obtain ⟨he, hrange⟩ := List.mem_filter.1 ((List.mem_insertionSort _).1 he)
    rw [← h e he]
    exact ⟨⟨e, he, rfl⟩, of_decide_eq_true hrange⟩
  · rintro ⟨⟨e, he, rfl⟩, hrange⟩
    rw [← h e he] at hrange
    refine ⟨e, (List.mem_insertionSort _).2 (List.mem_filter.2 ⟨he, ?_⟩), rfl⟩
    exact decide_eq_true hrange

end ScoredBy

/-- A range lists each member once. -/
theorem zrangebyscore_nodup (s : SortedSet α) (lo hi : ℤ) : (s.zrangebyscore lo hi).Nodup := by
  have hperm : (s.zrangebyscore lo hi).Perm
      ((s.entries.filter fun e => lo ≤ e.2 ∧ e.2 ≤ hi).map Prod.fst) :=
    (List.perm_insertionSort _ _).map _
  exact hperm.nodup_iff.2 (s.nodup.sublist (List.filter_sublist.map _))

end SortedSet

end MarketDataGateway.Lib
