import Mathlib.Data.List.Nodup

/-!
# Sets in the order of insertion

A set whose elements stand in the order in which they have come, as JavaScript's `Set` iterates over
its own. An element that comes again stays where it is.
-/

namespace MarketDataGateway.Lib

/-- A set that iterates in the order of insertion. -/
structure InsertionSet (α : Type*) where
  /-- The elements, in the order of insertion. -/
  elements : List α
  /-- No element comes twice. -/
  nodup : elements.Nodup
  deriving DecidableEq

namespace InsertionSet

variable {α : Type*}

instance : Membership α (InsertionSet α) := ⟨fun s a => a ∈ s.elements⟩

instance [DecidableEq α] (a : α) (s : InsertionSet α) : Decidable (a ∈ s) :=
  inferInstanceAs (Decidable (a ∈ s.elements))

/-- `new Set()`. -/
def empty : InsertionSet α := ⟨[], List.nodup_nil⟩

/-- `set.size`. -/
def size (s : InsertionSet α) : ℕ := s.elements.length

variable {s : InsertionSet α} {a b : α}

/-- Nothing is in an empty set. -/
@[simp] theorem not_mem_empty (a : α) : a ∉ (empty : InsertionSet α) := List.not_mem_nil

/-- A set has no elements if its size is zero. -/
theorem not_mem_of_size (h : s.size = 0) (a : α) : a ∉ s := by
  change a ∉ s.elements
  rw [List.length_eq_zero_iff.1 h]
  exact List.not_mem_nil

variable [DecidableEq α]

/-- `set.add(a)`. -/
def add (s : InsertionSet α) (a : α) : InsertionSet α :=
  if h : a ∈ s.elements then s
  else ⟨s.elements ++ [a], List.nodup_append'.2
    ⟨s.nodup, List.nodup_singleton a, List.disjoint_singleton.2 h⟩⟩

/-- `set.delete(a)`. -/
def delete (s : InsertionSet α) (a : α) : InsertionSet α :=
  ⟨s.elements.filter (· ≠ a), s.nodup.filter _⟩

/-- `new Set(items)`. -/
def ofList (items : List α) : InsertionSet α := items.foldl add empty

/-- The elements after one has been added. -/
@[simp] theorem mem_add : b ∈ s.add a ↔ b ∈ s ∨ b = a := by
  unfold add
  split_ifs with h
  · refine ⟨Or.inl, fun hb => hb.elim id ?_⟩
    rintro rfl
    exact h
  · change b ∈ s.elements ++ [a] ↔ _
    rw [List.mem_append, List.mem_singleton]
    rfl

/-- The elements after one has been deleted. -/
@[simp] theorem mem_delete : b ∈ s.delete a ↔ b ∈ s ∧ b ≠ a := by
  change b ∈ s.elements.filter (· ≠ a) ↔ _
  rw [List.mem_filter, decide_eq_true_eq]
  rfl

/-- An element is added once. -/
theorem add_of_mem (h : a ∈ s) : s.add a = s := dif_pos h

/-- The elements that are added one after the other. -/
theorem mem_foldl_add {items : List α} : b ∈ items.foldl add s ↔ b ∈ s ∨ b ∈ items := by
  induction items generalizing s with
  | nil => rw [List.foldl_nil, iff_self_or]; exact fun h => absurd h List.not_mem_nil
  | cons a items ih => rw [List.foldl_cons, ih, mem_add, List.mem_cons, or_assoc]

/-- The elements that are deleted one after the other. -/
theorem mem_foldl_delete {items : List α} : b ∈ items.foldl delete s ↔ b ∈ s ∧ b ∉ items := by
  induction items generalizing s with
  | nil => rw [List.foldl_nil, iff_self_and]; exact fun _ => List.not_mem_nil
  | cons a items ih => rw [List.foldl_cons, ih, mem_delete, List.mem_cons, not_or, and_assoc]

/-- The elements of a set that is made of a list. -/
@[simp] theorem mem_ofList {items : List α} : b ∈ ofList items ↔ b ∈ items := by
  unfold ofList
  rw [mem_foldl_add]
  exact or_iff_right (not_mem_empty b)

end InsertionSet

end MarketDataGateway.Lib
