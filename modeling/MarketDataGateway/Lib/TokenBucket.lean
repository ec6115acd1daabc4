import Mathlib.Algebra.BigOperators.Group.List.Basic
import Mathlib.Algebra.Order.Field.Basic
import Mathlib.Algebra.Order.Group.MinMax
import Mathlib.Tactic.Linarith
import Mathlib.Tactic.Ring

/-!
# Token buckets

A bucket of a capacity that is refilled at a rate. A call takes its cost out if there is enough.
What the calls that were allowed have cost is a list of charges, and `Bounded` is its potential
argument: what has been charged since a time, with what is left, is at most the capacity and what
has come in since. So no interval is charged more than the capacity and what comes in during it.
-/

namespace MarketDataGateway.Lib

variable {K : Type*} [Field K]

/-- A bucket: its tokens at a time. -/
structure Bucket (K : Type*) where
  /-- The tokens. -/
  tokens : K
  /-- The time. -/
  time : K

/-- A call that was allowed: its time and its cost. -/
abbrev Charge (K : Type*) := K × K

/-- What the charges that satisfy `p` amount to. -/
def total (p : K → Prop) [DecidablePred p] (charges : List (Charge K)) : K :=
  ((charges.filter fun a => p a.1).map Prod.snd).sum

/-- The total of charges, with one more. -/
theorem total_append (p : K → Prop) [DecidablePred p] (charges : List (Charge K)) (a : Charge K) :
    total p (charges ++ [a]) = total p charges + if p a.1 then a.2 else 0 := by
  unfold total
  rw [List.filter_append, List.map_append, List.sum_append]
  by_cases h : p a.1
  · simp [h]
  · simp [h]

namespace Bucket

variable [LinearOrder K] {capacity rate : K} {b : Bucket K} {now cost : K}
  {charges : List (Charge K)}

/-- The tokens at a later time. -/
def refilled (capacity rate : K) (b : Bucket K) (now : K) : K :=
  min capacity (b.tokens + max 0 (now - b.time) * rate)

/-- A call is allowed if there is enough for its cost. -/
def allows (capacity rate : K) (b : Bucket K) (now cost : K) : Bool :=
  cost ≤ b.refilled capacity rate now

/-- The bucket after a call. -/
def call (capacity rate : K) (b : Bucket K) (now cost : K) : Bucket K :=
  ⟨if b.allows capacity rate now cost then b.refilled capacity rate now - cost
    else b.refilled capacity rate now, now⟩

/-- The charges after a call. -/
def charge (capacity rate : K) (b : Bucket K) (now cost : K) (charges : List (Charge K)) :
    List (Charge K) :=
  if b.allows capacity rate now cost then charges ++ [(now, cost)] else charges

/-- The tokens are within bounds, and so is what has been charged. -/
structure Bounded (capacity rate : K) (b : Bucket K) (charges : List (Charge K)) : Prop where
  nonneg : 0 ≤ b.tokens
  le_capacity : b.tokens ≤ capacity
  past : ∀ a ∈ charges, a.1 ≤ b.time
  /-- What has been charged since `s`, with what is left. -/
  since : ∀ s ≤ b.time, total (s ≤ ·) charges + b.tokens ≤ capacity + rate * (b.time - s)
  /-- What has been charged from `s` to `e`. -/
  between : ∀ s e, s ≤ e → total (fun t => s ≤ t ∧ t ≤ e) charges ≤ capacity + rate * (e - s)

/-- Nothing has been charged since a time after the last charge. -/
theorem total_eq_zero {s : K} (h : ∀ a ∈ charges, a.1 < s) : total (s ≤ ·) charges = 0 := by
  have hnone : charges.filter (fun a => decide (s ≤ a.1)) = [] := by
    rw [List.filter_eq_nil_iff]
    intro a ha
    rw [decide_eq_true_eq]
    exact not_le.2 (h a ha)
  unfold total
  rw [hnone]
  rfl

/-- An interval that ends with the last charge or later is charged what has been charged since its
start. -/
theorem total_between {s e : K} (h : ∀ a ∈ charges, a.1 ≤ e) :
    total (fun t => s ≤ t ∧ t ≤ e) charges = total (s ≤ ·) charges := by
  unfold total
  congr 2
  refine List.filter_congr fun a ha => ?_
  rw [decide_eq_decide]
  exact and_iff_left (h a ha)

/-- A refilled bucket is within its capacity. -/
theorem refilled_le (capacity rate : K) (b : Bucket K) (now : K) :
    b.refilled capacity rate now ≤ capacity := min_le_left _ _

variable [IsStrictOrderedRing K]

/-- A bucket is refilled for the time that has passed. -/
theorem refilled_eq (hnow : b.time ≤ now) :
    b.refilled capacity rate now = min capacity (b.tokens + (now - b.time) * rate) := by
  unfold refilled
  rw [max_eq_right (sub_nonneg.2 hnow)]

/-- A full bucket that nothing has been charged to. -/
theorem bounded_full (hcapacity : 0 ≤ capacity) (hrate : 0 ≤ rate) (time : K) :
    Bounded capacity rate ⟨capacity, time⟩ [] where
  nonneg := hcapacity
  le_capacity := le_rfl
  past := nofun
  since s hs := by
    have hin : 0 ≤ rate * (time - s) := mul_nonneg hrate (sub_nonneg.2 hs)
    simp only [total, List.filter_nil, List.map_nil, List.sum_nil]
    linarith
  between s e hse := by
    have hin : 0 ≤ rate * (e - s) := mul_nonneg hrate (sub_nonneg.2 hse)
    simp only [total, List.filter_nil, List.map_nil, List.sum_nil]
    linarith

/-- Refilling keeps the bounds. -/
theorem Bounded.refill (h : Bounded capacity rate b charges) (hrate : 0 ≤ rate)
    (hnow : b.time ≤ now) :
    Bounded capacity rate ⟨b.refilled capacity rate now, now⟩ charges := by
  have hin : 0 ≤ (now - b.time) * rate := mul_nonneg (sub_nonneg.2 hnow) hrate
  have hmin : b.refilled capacity rate now =
      min capacity (b.tokens + (now - b.time) * rate) := refilled_eq hnow
  refine ⟨?_, refilled_le _ _ _ _, fun a ha => (h.past a ha).trans hnow, fun s hs => ?_, h.between⟩
  · show 0 ≤ b.refilled capacity rate now
    rw [hmin]
    exact le_min (h.nonneg.trans h.le_capacity) (by linarith [h.nonneg])
  · show total (s ≤ ·) charges + b.refilled capacity rate now ≤ capacity + rate * (now - s)
    rcases le_or_gt s b.time with hle | hlt
    · have hsince := h.since s hle
      have hle' : b.refilled capacity rate now ≤ b.tokens + (now - b.time) * rate := by
        rw [hmin]
        exact min_le_right _ _
      have hsplit : rate * (now - s) = rate * (b.time - s) + (now - b.time) * rate := by ring
      linarith
    · -- Nothing has been charged since `s`, and the bucket holds no more than its capacity.
      have hzero := total_eq_zero fun a ha => (h.past a ha).trans_lt hlt
      have hpos : 0 ≤ rate * (now - s) := mul_nonneg hrate (sub_nonneg.2 hs)
      have hcapacity := refilled_le capacity rate b now
      linarith

/-- Taking a cost out keeps the bounds. -/
theorem Bounded.take (h : Bounded capacity rate b charges) (hrate : 0 ≤ rate) (hcost : 0 ≤ cost)
    (hle : cost ≤ b.tokens) :
    Bounded capacity rate ⟨b.tokens - cost, b.time⟩ (charges ++ [(b.time, cost)]) := by
  have hpast : ∀ a ∈ charges ++ [(b.time, cost)], a.1 ≤ b.time := by
    intro a ha
    rcases List.mem_append.1 ha with ha | ha
    · exact h.past a ha
    · rw [List.mem_singleton.1 ha]
  have hsince : ∀ s ≤ b.time, total (s ≤ ·) (charges ++ [(b.time, cost)]) + (b.tokens - cost) ≤
      capacity + rate * (b.time - s) := by
    intro s hs
    have hbefore := h.since s hs
    rw [total_append, if_pos hs]
    linarith
  refine ⟨sub_nonneg.2 hle, (sub_le_self _ hcost).trans h.le_capacity, hpast, hsince,
    fun s e hse => ?_⟩
  by_cases hin : s ≤ b.time ∧ b.time ≤ e
  · -- The interval ends after the call, so that it is charged what has been charged since its
    -- start.
    have hlate : rate * (b.time - s) ≤ rate * (e - s) :=
      mul_le_mul_of_nonneg_left (by linarith [hin.2]) hrate
    have hbefore := hsince s hin.1
    rw [total_between fun a ha => (hpast a ha).trans hin.2]
    linarith
  · rw [total_append, if_neg hin, add_zero]
    exact h.between s e hse

/-- A call keeps the bounds. -/
theorem Bounded.call (h : Bounded capacity rate b charges) (hrate : 0 ≤ rate)
    (hnow : b.time ≤ now) (hcost : 0 ≤ cost) :
    Bounded capacity rate (b.call capacity rate now cost)
      (b.charge capacity rate now cost charges) := by
  have hrefill := h.refill hrate hnow
  unfold Bucket.call Bucket.charge
  by_cases hallowed : b.allows capacity rate now cost = true
  · rw [if_pos hallowed, if_pos hallowed]
    exact hrefill.take hrate hcost (of_decide_eq_true hallowed)
  · rw [if_neg hallowed, if_neg hallowed]
    exact hrefill

/-- A full bucket stays full. -/
theorem refilled_full (hrate : 0 ≤ rate) (hnow : b.time ≤ now) (hfull : b.tokens = capacity) :
    b.refilled capacity rate now = capacity := by
  have hin : 0 ≤ (now - b.time) * rate := mul_nonneg (sub_nonneg.2 hnow) hrate
  rw [refilled_eq hnow]
  exact min_eq_left (by linarith)

/-- A bucket that has been idle for long enough is full. -/
theorem refilled_idle (hnonneg : 0 ≤ b.tokens) (hnow : b.time ≤ now)
    (hidle : capacity ≤ (now - b.time) * rate) : b.refilled capacity rate now = capacity := by
  rw [refilled_eq hnow]
  exact min_eq_left (by linarith)

end Bucket

end MarketDataGateway.Lib
