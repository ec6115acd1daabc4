import Mathlib.Order.Bounds.Basic
import Mathlib.Data.Set.Function
import Mathlib.Data.List.Basic

/-!
# Summaries of keyed observations

Observations carry a key, which orders them, and a value. `Summary.Of key val S l` says that `S`
summarizes the list `l` of observations: how many there are, the least and the greatest key, the
value at each of the two, and the greatest and the least value. This does not depend on the order
of the list (`Of.perm`), and when distinct observations have distinct keys it determines the
summary (`Of.unique`).

A summary of one observation is `single`, and `add` takes in one more observation (`Of.add`).
-/

namespace MarketDataGateway.Lib

/-- How many observations there are, the least and the greatest key, the values at these two, and
the greatest and the least value. -/
@[ext]
structure Summary (κ α : Type*) where
  /-- The number of observations. -/
  count : ℕ
  /-- The least key. -/
  first : κ
  /-- The greatest key. -/
  last : κ
  /-- The value at the least key. -/
  opening : α
  /-- The value at the greatest key. -/
  closing : α
  /-- The greatest value. -/
  high : α
  /-- The least value. -/
  low : α

namespace Summary

variable {ι κ α : Type*} [LinearOrder κ] [LinearOrder α] {key : ι → κ} {val : ι → α}
  {S T : Summary κ α} {l l' : List ι} {x : ι}

/-- `S` summarizes the observations of `l`. -/
structure Of (key : ι → κ) (val : ι → α) (S : Summary κ α) (l : List ι) : Prop where
  count : S.count = l.length
  first : IsLeast (key '' {x | x ∈ l}) S.first
  last : IsGreatest (key '' {x | x ∈ l}) S.last
  opening : ∃ x ∈ l, key x = S.first ∧ val x = S.opening
  closing : ∃ x ∈ l, key x = S.last ∧ val x = S.closing
  high : IsGreatest (val '' {x | x ∈ l}) S.high
  low : IsLeast (val '' {x | x ∈ l}) S.low

/-- The summary of one observation. -/
def single (k : κ) (v : α) : Summary κ α := ⟨1, k, k, v, v, v, v⟩

/-- The summary with one more observation. On equal keys the earlier observation stays. -/
def add (S : Summary κ α) (k : κ) (v : α) : Summary κ α where
  count := S.count + 1
  first := if k < S.first then k else S.first
  last := if S.last < k then k else S.last
  opening := if k < S.first then v else S.opening
  closing := if S.last < k then v else S.closing
  high := max S.high v
  low := min S.low v

/-- A summary's list is not empty. -/
theorem Of.ne_nil (h : Of key val S l) : l ≠ [] := by
  obtain ⟨x, hx, -⟩ := h.opening
  exact List.ne_nil_of_mem hx

/-- One observation is summarized by `single`. -/
theorem of_single (key : ι → κ) (val : ι → α) (x : ι) :
    Of key val (single (key x) (val x)) [x] := by
  constructor <;> simp [single]

/-- The order of the list does not matter. -/
theorem Of.perm (h : Of key val S l) (hp : l.Perm l') : Of key val S l' := by
  have hset : {y | y ∈ l} = {y | y ∈ l'} := by ext y; exact hp.mem_iff
  obtain ⟨hc, hf, hla, ho, hcl, hh, hlo⟩ := h
  rw [hset] at hf hla hh hlo
  refine ⟨hc.trans hp.length_eq, hf, hla, ?_, ?_, hh, hlo⟩
  · obtain ⟨y, hy, hk⟩ := ho
    exact ⟨y, hp.mem_iff.1 hy, hk⟩
  · obtain ⟨y, hy, hk⟩ := hcl
    exact ⟨y, hp.mem_iff.1 hy, hk⟩

/-- Distinct observations having distinct keys, a list has one summary. -/
theorem Of.unique (h : Of key val S l) (h' : Of key val T l)
    (hinj : Set.InjOn key {x | x ∈ l}) : S = T := by
  have hfirst : S.first = T.first := h.first.unique h'.first
  have hlast : S.last = T.last := h.last.unique h'.last
  obtain ⟨x, hx, hkx, hvx⟩ := h.opening
  obtain ⟨y, hy, hky, hvy⟩ := h'.opening
  obtain ⟨z, hz, hkz, hvz⟩ := h.closing
  obtain ⟨w, hw, hkw, hvw⟩ := h'.closing
  have hxy : x = y := hinj hx hy (by rw [hkx, hky, hfirst])
  have hzw : z = w := hinj hz hw (by rw [hkz, hkw, hlast])
  ext1
  · rw [h.count, h'.count]
  · exact hfirst
  · exact hlast
  · rw [← hvx, ← hvy, hxy]
  · rw [← hvz, ← hvw, hzw]
  · exact h.high.unique h'.high
  · exact h.low.unique h'.low

/-- `add` takes in one more observation. -/
theorem Of.add (h : Of key val S l) (x : ι) : Of key val (S.add (key x) (val x)) (x :: l) := by
  have hset : {y | y ∈ x :: l} = insert x {y | y ∈ l} := by ext y; simp
  -- A key that equals the first or the last one replaces nothing.
  have hmin : (S.add (key x) (val x)).first = min (key x) S.first := by
    simp only [Summary.add, min_def]
    split_ifs with h1 h2 h2
    · rfl
    · exact absurd h1.le h2
    · exact le_antisymm (not_lt.1 h1) h2
    · rfl
  have hmax : (S.add (key x) (val x)).last = max (key x) S.last := by
    simp only [Summary.add, max_def]
    split_ifs with h1 h2 h2
    · exact absurd h1 (not_lt.2 h2)
    · rfl
    · rfl
    · exact le_antisymm (le_of_not_ge h2) (not_lt.1 h1)
  refine ⟨by simp [Summary.add, h.count], ?_, ?_, ?_, ?_, ?_, ?_⟩
  · rw [hset, Set.image_insert_eq, hmin]
    exact h.first.insert _
  · rw [hset, Set.image_insert_eq, hmax]
    exact h.last.insert _
  · obtain ⟨y, hy, hk, hv⟩ := h.opening
    by_cases hlt : key x < S.first
    · exact ⟨x, List.mem_cons_self, by simp [Summary.add, hlt]⟩
    · exact ⟨y, List.mem_cons_of_mem _ hy, by simp [Summary.add, hlt, hk, hv]⟩
  · obtain ⟨y, hy, hk, hv⟩ := h.closing
    by_cases hlt : S.last < key x
    · exact ⟨x, List.mem_cons_self, by simp [Summary.add, hlt]⟩
    · exact ⟨y, List.mem_cons_of_mem _ hy, by simp [Summary.add, hlt, hk, hv]⟩
  · rw [hset, Set.image_insert_eq, show (S.add (key x) (val x)).high = max (val x) S.high from
      max_comm _ _]
    exact h.high.insert _
  · rw [hset, Set.image_insert_eq, show (S.add (key x) (val x)).low = min (val x) S.low from
      min_comm _ _]
    exact h.low.insert _

end Summary

end MarketDataGateway.Lib
