import Mathlib.Data.List.Sort

/-!
# Folds over lists in another order

A fold over a list that is sorted is the fold over the list, if any two of its elements that the
sort takes past each other commute (`foldl_insertionSort`). A fold whose steps each touch the part
of the state under their own key is, on the part under one key, the fold over the elements of that
key (`foldl_filter_key`).
-/

namespace MarketDataGateway.Lib

variable {σ α κ τ : Type*} {f : σ → α → σ} {p : σ → Prop} {r : α → α → Prop}
  {l : List α} {a : α} {s : σ}

/-- The element goes past those that it does not precede, with which it commutes in the states
`p`. -/
theorem foldl_orderedInsert [DecidableRel r] (hp : ∀ s a, p s → p (f s a)) (hs : p s)
    (h : ∀ b ∈ l, r a b ∨ ∀ s, p s → f (f s a) b = f (f s b) a) :
    (l.orderedInsert r a).foldl f s = (a :: l).foldl f s := by
  induction l generalizing s with
  | nil => rfl
  | cons b l ih =>
    rw [List.orderedInsert_cons]
    split_ifs with hle
    · rfl
    · have hcomm := (h b List.mem_cons_self).resolve_left hle s hs
      have hrest := ih (hp s b hs) fun c hc => h c (List.mem_cons_of_mem b hc)
      calc (b :: l.orderedInsert r a).foldl f s = (a :: l).foldl f (f s b) := hrest
        _ = l.foldl f (f (f s a) b) := by rw [List.foldl_cons, hcomm]
        _ = (a :: b :: l).foldl f s := rfl

/-- Sorting plays no part in a fold if the elements that it takes past each other commute. -/
theorem foldl_insertionSort [DecidableRel r] (hp : ∀ s a, p s → p (f s a)) (hs : p s)
    (h : l.Pairwise fun a b => r a b ∨ ∀ s, p s → f (f s a) b = f (f s b) a) :
    (l.insertionSort r).foldl f s = l.foldl f s := by
  induction l generalizing s with
  | nil => rfl
  | cons a l ih =>
    obtain ⟨hhead, hrest⟩ := List.pairwise_cons.1 h
    have hinsert : ∀ b ∈ l.insertionSort r, r a b ∨ ∀ s, p s → f (f s a) b = f (f s b) a :=
      fun b hb => hhead b ((List.mem_insertionSort r).1 hb)
    rw [List.insertionSort_cons, foldl_orderedInsert hp hs hinsert, List.foldl_cons,
      List.foldl_cons, ih (hp s a hs) hrest]

/-- The part of the state under a key is what the elements of that key make of it. -/
theorem foldl_filter_key [DecidableEq κ] {key : α → κ} {get : σ → κ → τ} {g : τ → α → τ} {k : κ}
    (hp : ∀ s a, p s → p (f s a)) (hs : p s)
    (hself : ∀ s a, p s → get (f s a) (key a) = g (get s (key a)) a)
    (hother : ∀ s a, k ≠ key a → get (f s a) k = get s k) :
    get (l.foldl f s) k = (l.filter fun a => key a = k).foldl g (get s k) := by
  induction l generalizing s with
  | nil => rfl
  | cons a l ih =>
    rw [List.foldl_cons, ih (hp s a hs), List.filter_cons]
    by_cases hk : key a = k
    · have hstep : get (f s a) k = g (get s k) a := hk ▸ hself s a hs
      rw [if_pos (decide_eq_true hk), hstep, List.foldl_cons]
    · rw [if_neg (by simpa using hk), hother s a (Ne.symm hk)]

end MarketDataGateway.Lib
