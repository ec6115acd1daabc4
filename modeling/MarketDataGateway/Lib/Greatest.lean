import MarketDataGateway.Lib.Dict

/-!
# The greatest keys of a dictionary

A dictionary that is limited to its `n` greatest keys after each insertion holds the same as one
that is limited only at the end (`limit_insertKey`), because a key that has been left out never is
among the greatest again. The value that is put in may be made of the one that is there.
-/

namespace MarketDataGateway.Lib

variable {κ ν : Type*} [LinearOrder κ] {k : κ} {v : ν} {entries front back : List (κ × ν)} {n : ℕ}

/-- The last `n` items. -/
def limit {α : Type*} (n : ℕ) (l : List α) : List α := l.drop (l.length - n)

section Limit

variable {α : Type*} {l m : List α}

/-- A list within the limit is left whole. -/
theorem limit_of_le (h : l.length ≤ n) : limit n l = l := by
  unfold limit
  rw [Nat.sub_eq_zero_of_le h, List.drop_zero]

/-- The last elements are in the second list if it has enough. -/
theorem limit_append (h : n ≤ m.length) : limit n (l ++ m) = limit n m := by
  have hlength : (l ++ m).length - n = l.length + (m.length - n) := by
    rw [List.length_append]
    omega
  unfold limit
  rw [hlength, List.drop_append, List.drop_eq_nil_of_le (Nat.le_add_right _ _), List.nil_append,
    Nat.add_sub_cancel_left]

/-- The last elements are the second list if it has just enough. -/
theorem limit_append_self (h : m.length = n) : limit n (l ++ m) = m := by
  rw [limit_append h.ge, limit_of_le h.le]

end Limit

/-- A key below all others comes first. -/
theorem insertKey_first (h : ∀ e ∈ entries, k < e.1) :
    insertKey k v entries = (k, v) :: entries := by
  cases entries with
  | nil => rfl
  | cons e rest => rw [insertKey, if_pos (h e List.mem_cons_self)]

/-- An insertion makes a list no shorter. -/
theorem length_le_insertKey : entries.length ≤ (insertKey k v entries).length := by
  induction entries with
  | nil => exact Nat.zero_le _
  | cons e rest ih =>
    rw [insertKey]
    split_ifs
    · exact Nat.le_succ _
    · exact le_rfl
    · rw [List.length_cons, List.length_cons]
      omega

/-- A key that is not after all of the first entries is put in among them. -/
theorem insertKey_append_left (h : ∃ e ∈ front, k ≤ e.1) :
    insertKey k v (front ++ back) = insertKey k v front ++ back := by
  induction front with
  | nil =>
    obtain ⟨e, he, -⟩ := h
    exact absurd he List.not_mem_nil
  | cons e rest ih =>
    rw [List.cons_append, insertKey, insertKey]
    split_ifs with hlt heq
    · rfl
    · rfl
    · have hrest : ∃ e' ∈ rest, k ≤ e'.1 := by
        obtain ⟨e', he', hle⟩ := h
        rcases List.mem_cons.1 he' with rfl | hmem
        · exact absurd (hle.lt_of_ne heq) hlt
        · exact ⟨e', hmem, hle⟩
      rw [ih hrest, List.cons_append]

/-- A key above the first entries is looked up in the others. -/
theorem getKey_append_of_lt (h : ∀ e ∈ front, e.1 < k) :
    getKey k (front ++ back) = getKey k back := by
  unfold getKey
  rw [List.find?_append]
  have hnone : front.find? (fun e => e.1 = k) = none :=
    List.find?_eq_none.2 fun e he => by simpa using (h e he).ne
  simp only [hnone, Option.none_or]

/-- To limit a dictionary before an insertion makes no difference to what is there after one. -/
theorem limit_insertKey (hs : SortedKeys entries) (f : Option ν → ν) :
    limit n (insertKey k (f (getKey k (limit n entries))) (limit n entries)) =
      limit n (insertKey k (f (getKey k entries)) entries) := by
  rcases le_or_gt entries.length n with hshort | hlong
  · rw [limit_of_le hshort]
  generalize hfront : entries.take (entries.length - n) = front
  generalize hback : entries.drop (entries.length - n) = back
  have hsplit : entries = front ++ back := by rw [← hfront, ← hback, List.take_append_drop]
  have hlength : back.length = n := by
    rw [← hback, List.length_drop]
    omega
  have hlimit : limit n entries = back := hback
  rw [hlimit, hsplit]
  rw [hsplit] at hs
  rcases Decidable.em (∀ e ∈ front, e.1 < k) with hafter | hbefore
  · rw [getKey_append_of_lt hafter, insertKey_append hafter,
      limit_append (hlength.symm.le.trans length_le_insertKey)]
  · push Not at hbefore
    obtain ⟨e, he, hle⟩ := hbefore
    have hlt : ∀ e' ∈ back, k < e'.1 := fun e' he' =>
      hle.trans_lt ((List.pairwise_append.1 hs).2.2 e he e' he')
    rw [insertKey_first hlt, insertKey_append_left ⟨e, he, hle⟩, limit_append_self hlength]
    exact limit_append_self (l := [_]) hlength

end MarketDataGateway.Lib
