import Mathlib.Data.List.Basic
import Mathlib.Data.List.Nodup

/-!
# Maps in the order of insertion

A map whose entries stand in the order in which their keys have come, as JavaScript's `Map` and
Python's `dict` iterate over theirs. A new value of a key takes the place of the old one.
-/

namespace MarketDataGateway.Lib

/-- A map that iterates in the order of insertion. -/
structure InsertionMap (κ ν : Type*) where
  /-- The entries, in the order of insertion. -/
  entries : List (κ × ν)
  /-- No key has two entries. -/
  nodup : (entries.map Prod.fst).Nodup

namespace InsertionMap

variable {κ ν : Type*} [DecidableEq κ] {k k' : κ} {v : ν} {entries : List (κ × ν)}

/-- The value of a key among the entries. -/
def lookup (k : κ) : List (κ × ν) → Option ν
  | [] => none
  | e :: rest => if e.1 = k then some e.2 else lookup k rest

/-- The entries with a value for the key. -/
def assign (k : κ) (v : ν) : List (κ × ν) → List (κ × ν)
  | [] => [(k, v)]
  | e :: rest => if e.1 = k then (k, v) :: rest else e :: assign k v rest

/-- The keys after an assignment are those before it and the new one. -/
theorem mem_keys_assign :
    k' ∈ (assign k v entries).map Prod.fst ↔ k' = k ∨ k' ∈ entries.map Prod.fst := by
  induction entries with
  | nil => exact List.mem_cons
  | cons e rest ih =>
    rw [assign]
    split_ifs with h
    · rw [List.map_cons, List.map_cons, List.mem_cons, List.mem_cons, h, ← or_assoc, or_self]
    · rw [List.map_cons, List.map_cons, List.mem_cons, List.mem_cons, ih, or_left_comm]

/-- An assignment repeats no key. -/
theorem nodup_assign (h : (entries.map Prod.fst).Nodup) :
    ((assign k v entries).map Prod.fst).Nodup := by
  induction entries with
  | nil => exact List.nodup_singleton k
  | cons e rest ih =>
    rw [List.map_cons, List.nodup_cons] at h
    obtain ⟨hfresh, hrest⟩ := h
    rw [assign]
    split_ifs with heq
    · rw [List.map_cons, List.nodup_cons, ← heq]
      exact ⟨hfresh, hrest⟩
    · rw [List.map_cons, List.nodup_cons, mem_keys_assign]
      exact ⟨fun hmem => hmem.elim heq hfresh, ih hrest⟩

/-- The value that is assigned is found. -/
theorem lookup_assign_self : lookup k (assign k v entries) = some v := by
  induction entries with
  | nil => exact if_pos rfl
  | cons e rest ih =>
    rw [assign]
    split_ifs with heq
    · exact if_pos rfl
    · rw [lookup, if_neg heq, ih]

/-- An assignment leaves the values of the other keys. -/
theorem lookup_assign_ne (h : k' ≠ k) : lookup k' (assign k v entries) = lookup k' entries := by
  induction entries with
  | nil => exact if_neg h.symm
  | cons e rest ih =>
    rw [assign]
    split_ifs with heq
    · rw [lookup, lookup, if_neg h.symm, if_neg (heq ▸ h.symm)]
    · rw [lookup, lookup, ih]

/-- A key without a value is not among the keys. -/
theorem lookup_eq_none_iff : lookup k entries = none ↔ k ∉ entries.map Prod.fst := by
  induction entries with
  | nil => exact ⟨fun _ => List.not_mem_nil, fun _ => rfl⟩
  | cons e rest ih =>
    rw [lookup, List.map_cons, List.mem_cons, not_or]
    split_ifs with heq
    · exact ⟨(fun h => nomatch h), fun h => absurd heq.symm h.1⟩
    · exact ih.trans ⟨fun h => ⟨Ne.symm heq, h⟩, And.right⟩

/-- A value that is found is that of an entry. -/
theorem mem_of_lookup (h : lookup k entries = some v) : (k, v) ∈ entries := by
  induction entries with
  | nil => exact nomatch h
  | cons e rest ih =>
    rw [lookup] at h
    split_ifs at h with heq
    · have hval : e = (k, v) := Prod.ext heq (Option.some.inj h)
      exact hval ▸ List.mem_cons_self
    · exact List.mem_cons_of_mem e (ih h)

/-- A key has the value of its entry. -/
theorem lookup_of_mem (hnodup : (entries.map Prod.fst).Nodup) (h : (k, v) ∈ entries) :
    lookup k entries = some v := by
  induction entries with
  | nil => exact absurd h List.not_mem_nil
  | cons e rest ih =>
    rw [List.map_cons, List.nodup_cons] at hnodup
    obtain ⟨hfresh, hrest⟩ := hnodup
    rcases List.mem_cons.1 h with rfl | hmem
    · exact if_pos rfl
    · have hne : e.1 ≠ k := fun heq => hfresh (heq ▸ List.mem_map_of_mem (f := Prod.fst) hmem)
      rw [lookup, if_neg hne, ih hrest hmem]

/-- `new Map()`. -/
def empty : InsertionMap κ ν := ⟨[], List.nodup_nil⟩

/-- `map.get(k)`. -/
def get (m : InsertionMap κ ν) (k : κ) : Option ν := lookup k m.entries

/-- `map.set(k, v)`. -/
def set (m : InsertionMap κ ν) (k : κ) (v : ν) : InsertionMap κ ν :=
  ⟨assign k v m.entries, nodup_assign m.nodup⟩

/-- `map.delete(k)`. -/
def delete (m : InsertionMap κ ν) (k : κ) : InsertionMap κ ν :=
  ⟨m.entries.filter fun e => e.1 ≠ k, m.nodup.sublist (List.filter_sublist.map Prod.fst)⟩

/-- `map.values()`. -/
def values (m : InsertionMap κ ν) : List ν := m.entries.map Prod.snd

variable {m : InsertionMap κ ν}

/-- An empty map has no values. -/
@[simp] theorem get_empty : (empty : InsertionMap κ ν).get k = none := rfl

/-- The value that is set is found. -/
@[simp] theorem get_set_self : (m.set k v).get k = some v := lookup_assign_self

/-- A value that is set leaves those of the other keys. -/
theorem get_set_ne (h : k' ≠ k) : (m.set k v).get k' = m.get k' := lookup_assign_ne h

/-- The values after one has been set. -/
theorem get_set : (m.set k v).get k' = if k' = k then some v else m.get k' := by
  split_ifs with h
  · rw [h, get_set_self]
  · exact get_set_ne h

/-- To set what is there already changes nothing. -/
theorem set_of_get (h : m.get k = some v) : m.set k v = m := by
  have hassign : ∀ entries : List (κ × ν), lookup k entries = some v →
      assign k v entries = entries := by
    intro entries hlookup
    induction entries with
    | nil => exact nomatch hlookup
    | cons e rest ih =>
      rw [lookup] at hlookup
      rw [assign]
      split_ifs at hlookup ⊢ with heq
      · rw [← Option.some.inj hlookup, ← heq]
      · rw [ih hlookup]
  obtain ⟨entries, hnodup⟩ := m
  unfold set
  congr 1
  exact hassign entries h

/-- The values after one has been deleted. -/
theorem get_delete : (m.delete k).get k' = if k' = k then none else m.get k' := by
  unfold get delete
  dsimp only
  induction m.entries with
  | nil => exact (ite_self none).symm
  | cons e rest ih =>
    rw [List.filter_cons, lookup]
    by_cases heq : e.1 = k
    · rw [if_neg (by simpa using heq), ih, heq]
      split_ifs with h h' <;> first | rfl | exact absurd h'.symm h
    · rw [if_pos (by simpa using heq), lookup, ih]
      split_ifs with h h'
      · exact absurd (h.trans h') heq
      all_goals rfl

/-- The entries are the keys with their values. -/
theorem mem_entries_iff : (k, v) ∈ m.entries ↔ m.get k = some v :=
  ⟨lookup_of_mem m.nodup, mem_of_lookup⟩

/-- In a map of lists whose items know the key of their list, the items of a key are its list. -/
theorem filter_flatten_values {α : Type*} {m : InsertionMap κ (List α)} {key : α → κ}
    (h : ∀ e ∈ m.entries, ∀ a ∈ e.2, key a = e.1) :
    (m.values.flatten.filter fun a => key a = k) = (m.get k).getD [] := by
  obtain ⟨entries, hnodup⟩ := m
  unfold values get
  dsimp only at h ⊢
  induction entries with
  | nil => rfl
  | cons e rest ih =>
    rw [List.map_cons, List.nodup_cons] at hnodup
    have hrest := ih hnodup.2 fun e' he' => h e' (List.mem_cons_of_mem e he')
    have hitems := h e List.mem_cons_self
    rw [List.map_cons, List.flatten_cons, List.filter_append, hrest, lookup]
    split_ifs with heq
    · have hall : (e.2.filter fun a => key a = k) = e.2 :=
        List.filter_eq_self.2 fun a ha => decide_eq_true ((hitems a ha).trans heq)
      have hnone : lookup k rest = none := lookup_eq_none_iff.2 (heq ▸ hnodup.1)
      rw [hall, hnone, Option.getD_none, List.append_nil, Option.getD_some]
    · have hnil : (e.2.filter fun a => key a = k) = [] :=
        List.filter_eq_nil_iff.2 fun a ha => by
          simpa using fun hk => heq ((hitems a ha).symm.trans hk)
      rw [hnil, List.nil_append]

end InsertionMap

end MarketDataGateway.Lib
