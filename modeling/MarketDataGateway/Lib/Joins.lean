import Mathlib.Data.List.Basic

/-!
# Joined lists

`[sep].intercalate l` joins lists with a separator between them. It does not show which separators
were in the lists: two joins are equal exactly if the lists have the same pieces between separators
(`intercalate_eq_iff`). Two pairs that are joined are equal, or one has a part of the other's second
component in its first one (`append_cons_eq_iff`).
-/

namespace MarketDataGateway.Lib

variable {α : Type*} {sep : α} {l l' : List (List α)} {s s' t t' u : List α}

/-- Two joined pairs are equal if their components are, or if the first component of one is that of
the other with a separator and a part of the other's second component. -/
theorem append_cons_eq_iff : s ++ sep :: t = s' ++ sep :: t' ↔ (s = s' ∧ t = t') ∨
    (∃ r, s = s' ++ sep :: r ∧ t' = r ++ sep :: t) ∨ ∃ r, s' = s ++ sep :: r ∧
    t = r ++ sep :: t' := by
  rw [List.append_eq_append_iff]
  constructor
  · rintro (⟨r, rfl, h⟩ | ⟨r, rfl, h⟩)
    · cases r with
      | nil => exact Or.inl ⟨by simp, (List.cons.inj h).2⟩
      | cons c r =>
        obtain ⟨rfl, rfl⟩ := List.cons.inj h
        exact Or.inr (Or.inr ⟨r, rfl, rfl⟩)
    · cases r with
      | nil => exact Or.inl ⟨by simp, (List.cons.inj h).2.symm⟩
      | cons c r =>
        obtain ⟨rfl, rfl⟩ := List.cons.inj h
        exact Or.inr (Or.inl ⟨r, rfl, rfl⟩)
  · rintro (⟨rfl, rfl⟩ | ⟨r, rfl, rfl⟩ | ⟨r, rfl, rfl⟩)
    · exact Or.inl ⟨[], by simp, rfl⟩
    · exact Or.inr ⟨sep :: r, rfl, rfl⟩
    · exact Or.inl ⟨sep :: r, rfl, rfl⟩

variable [BEq α] [LawfulBEq α]

/-- The pieces of lists between the separators in them. -/
def pieces (sep : α) (l : List (List α)) : List (List α) := l.flatMap fun s => s.splitOn sep

/-- A join is split into the pieces of the lists. -/
theorem splitOn_intercalate_pieces (h : l ≠ []) :
    ([sep].intercalate l).splitOn sep = pieces sep l := by
  induction l with
  | nil => exact absurd rfl h
  | cons s l ih =>
    rcases eq_or_ne l [] with rfl | hl
    · rw [List.intercalate_singleton, pieces, List.flatMap_singleton]
    · rw [List.intercalate_cons_of_ne_nil hl, List.append_assoc, List.singleton_append,
        List.splitOn_append_cons_self, ih hl]
      rfl

/-- Joined texts are the same if they have the same pieces. -/
theorem intercalate_eq_iff (h : l ≠ []) (h' : l' ≠ []) :
    [sep].intercalate l = [sep].intercalate l' ↔ pieces sep l = pieces sep l' := by
  rw [← splitOn_intercalate_pieces h, ← splitOn_intercalate_pieces h']
  constructor
  · exact congrArg _
  · intro heq
    have hjoin := congrArg [sep].intercalate heq
    rwa [List.intercalate_splitOn, List.intercalate_splitOn] at hjoin

/-- Lists without separators are their own pieces. -/
theorem pieces_eq_self (h : ∀ s ∈ l, sep ∉ s) : pieces sep l = l := by
  induction l with
  | nil => rfl
  | cons s l ih =>
    rw [pieces, List.flatMap_cons, List.splitOn_eq_singleton (h s List.mem_cons_self)]
    exact congrArg (s :: ·) (ih fun s hs => h s (List.mem_cons_of_mem _ hs))

/-- A text without separators before another one is before its first piece. -/
theorem splitOn_append (h : sep ∉ u) :
    (u ++ s).splitOn sep = (s.splitOn sep).modifyHead (u ++ ·) := by
  induction u with
  | nil => cases hs : s.splitOn sep <;> simp [hs]
  | cons c u ih =>
    obtain ⟨hc, hu⟩ := not_or.1 (mt List.mem_cons.2 h)
    have hne : (c == sep) = false := beq_eq_false_iff_ne.2 (Ne.symm hc)
    rw [List.cons_append, List.splitOn_cons_eq_if_modifyHead, hne, ih hu]
    cases s.splitOn sep <;> rfl

end MarketDataGateway.Lib
