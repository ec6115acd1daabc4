import Mathlib.Data.List.Basic

/-!
# Lists of processes

A system keeps its processes in a list, in which a process is its position: a step of one process
replaces the element at that position, and a new process goes to the end. The lemmas say how
"some process is ..." and "every process is ..." pass through such updates; `Others l i P` says that
some process other than the one at `i` is `P`.
-/

namespace MarketDataGateway.Lib

variable {α : Type*} {l : List α} {i j : ℕ} {x y : α} {P : α → Prop}

/-- Some element of `l` at a position other than `i` satisfies `P`. -/
def Others (l : List α) (i : ℕ) (P : α → Prop) : Prop := ∃ p ∈ l.zipIdx, p.2 ≠ i ∧ P p.1

instance [DecidablePred P] : Decidable (Others l i P) :=
  inferInstanceAs (Decidable (∃ p ∈ l.zipIdx, p.2 ≠ i ∧ P p.1))

/-- What holds of another process holds of one at another place. -/
theorem others_iff : Others l i P ↔ ∃ j z, l[j]? = some z ∧ j ≠ i ∧ P z := by
  unfold Others
  constructor
  · rintro ⟨⟨z, j⟩, hmem, hne, hz⟩
    exact ⟨j, z, List.mk_mem_zipIdx_iff_getElem?.1 hmem, hne, hz⟩
  · rintro ⟨j, z, hj, hne, hz⟩
    exact ⟨(z, j), List.mk_mem_zipIdx_iff_getElem?.2 hj, hne, hz⟩

/-- What another process satisfies, some process satisfies whatever replaces the one at `i`. -/
theorem Others.exists_mem_set (h : Others l i P) (y : α) : ∃ z ∈ l.set i y, P z := by
  obtain ⟨j, z, hj, hne, hz⟩ := others_iff.1 h
  have hz' : (l.set i y)[j]? = some z := by
    rw [List.getElem?_set_ne hne.symm, hj]
  exact ⟨z, List.mem_of_getElem? hz', hz⟩

/-- The process that replaces another is in the list. -/
theorem exists_mem_set_self (hi : l[i]? = some x) (hy : P y) : ∃ z ∈ l.set i y, P z := by
  obtain ⟨hlt, -⟩ := List.getElem?_eq_some_iff.1 hi
  exact ⟨y, List.mem_set hlt y, hy⟩

/-- "Some process is `P`" is kept when the process at `i` stays `P` if it is. -/
theorem exists_mem_set (hi : l[i]? = some x) (h : ∃ z ∈ l, P z) (hxy : P x → P y) :
    ∃ z ∈ l.set i y, P z := by
  obtain ⟨z, hz, hP⟩ := h
  obtain ⟨j, hj⟩ := List.mem_iff_getElem?.1 hz
  by_cases hij : j = i
  · subst hij
    obtain rfl : z = x := Option.some.inj (hj.symm.trans hi)
    exact exists_mem_set_self hi (hxy hP)
  · exact Others.exists_mem_set (others_iff.2 ⟨j, z, hj, hij, hP⟩) y

/-- "Every process is `P`" is kept when the new one is. -/
theorem forall_mem_set (h : ∀ z ∈ l, P z) (hy : P y) : ∀ z ∈ l.set i y, P z := by
  intro z hz
  rcases List.mem_or_eq_of_mem_set hz with hz | rfl
  · exact h z hz
  · exact hy

/-- "Some process is `P`" is kept when processes join. -/
theorem exists_mem_append (h : ∃ z ∈ l, P z) (l' : List α) : ∃ z ∈ l ++ l', P z := by
  obtain ⟨z, hz, hP⟩ := h
  exact ⟨z, List.mem_append_left _ hz, hP⟩

/-- How the number of processes with a property changes when one is replaced. -/
theorem countP_set_add (p : α → Bool) (hi : l[i]? = some x) (y : α) :
    (l.set i y).countP p + (p x).toNat = l.countP p + (p y).toNat := by
  induction l generalizing i with
  | nil => cases hi
  | cons z l ih =>
    cases i with
    | zero =>
      obtain rfl : z = x := Option.some.inj hi
      rw [List.set_cons_zero, List.countP_cons, List.countP_cons]
      cases p z <;> cases p y <;> simp
    | succ i =>
      have := ih hi
      rw [List.set_cons_succ, List.countP_cons, List.countP_cons]
      omega

section FilterMap

variable {β : Type*} {f : α → Option β} {b : β}

/-- A process that yields what it yielded before leaves what the processes yield. -/
theorem filterMap_set_eq (hi : l[i]? = some x) (hxy : f y = f x) :
    (l.set i y).filterMap f = l.filterMap f := by
  induction l generalizing i with
  | nil => cases hi
  | cons z l ih =>
    cases i with
    | zero =>
      obtain rfl : z = x := Option.some.inj hi
      simp only [List.set_cons_zero, List.filterMap_cons, hxy]
    | succ i =>
      simp only [List.set_cons_succ, List.filterMap_cons, ih hi]

/-- A process that begins to yield adds to what the processes yield. -/
theorem filterMap_set_perm (hi : l[i]? = some x) (hx : f x = none) (hy : f y = some b) :
    ((l.set i y).filterMap f).Perm (b :: l.filterMap f) := by
  induction l generalizing i with
  | nil => cases hi
  | cons z l ih =>
    cases i with
    | zero =>
      obtain rfl : z = x := Option.some.inj hi
      rw [List.set_cons_zero, List.filterMap_cons_some hy, List.filterMap_cons_none hx]
    | succ i =>
      rw [List.set_cons_succ, List.filterMap_cons, List.filterMap_cons]
      cases f z with
      | none => exact ih hi
      | some c => exact ((ih hi).cons c).trans (List.Perm.swap b c _)

end FilterMap

end MarketDataGateway.Lib
