import Mathlib.Data.List.Basic
import Mathlib.Data.List.Sort
import Mathlib.Order.Basic

/-!
# Dictionaries

A dictionary is its list of entries, in the order of their keys, so that two dictionaries are the
same if they have the same entries: the order of insertion plays no role, as it plays none for
Python's `==` and for `sort_keys=True`.

The operations are on lists of entries first, for the types that nest them. `SortedKeys` is the
invariant, which `Dict` carries as a field.
-/

namespace MarketDataGateway.Lib

variable {κ ν : Type*} [LinearOrder κ] {k k' : κ} {v v' : ν} {entries entries' : List (κ × ν)}

/-- The entries are in the order of their keys, and no key occurs twice. -/
def SortedKeys (entries : List (κ × ν)) : Prop := entries.Pairwise fun a b => a.1 < b.1

/-- `d[k] = v`. -/
def insertKey (k : κ) (v : ν) : List (κ × ν) → List (κ × ν)
  | [] => [(k, v)]
  | e :: rest =>
    if k < e.1 then (k, v) :: e :: rest
    else if k = e.1 then (k, v) :: rest
    else e :: insertKey k v rest

/-- `d.pop(k, None)`. -/
def eraseKey (k : κ) (entries : List (κ × ν)) : List (κ × ν) := entries.filter fun e => e.1 ≠ k

/-- `d.get(k)`. -/
def getKey (k : κ) (entries : List (κ × ν)) : Option ν :=
  (entries.find? fun e => e.1 = k).map Prod.snd

/-- The dictionary of entries of which a later one replaces an earlier one with its key. -/
def ofPairs (pairs : List (κ × ν)) : List (κ × ν) :=
  pairs.foldl (fun d e => insertKey e.1 e.2 d) []

/-- An entry after an insertion is the new one, or has been there. -/
theorem mem_insertKey {e : κ × ν} (h : e ∈ insertKey k v entries) : e = (k, v) ∨ e ∈ entries := by
  induction entries with
  | nil => exact Or.inl (List.mem_singleton.1 h)
  | cons e' rest ih =>
    rw [insertKey] at h
    split_ifs at h
    · exact List.mem_cons.1 h
    · exact (List.mem_cons.1 h).imp_right (List.mem_cons_of_mem e')
    · rcases List.mem_cons.1 h with h | h
      · exact Or.inr (h ▸ List.mem_cons_self)
      · exact (ih h).imp_right (List.mem_cons_of_mem e')

/-- An insertion keeps the keys in order. -/
theorem sortedKeys_insertKey (h : SortedKeys entries) : SortedKeys (insertKey k v entries) := by
  induction entries with
  | nil => exact List.pairwise_singleton _ _
  | cons e rest ih =>
    obtain ⟨hhead, hrest⟩ := List.pairwise_cons.1 h
    rw [insertKey]
    split_ifs with hlt heq
    · refine List.pairwise_cons.2 ⟨fun e' he' => ?_, h⟩
      rcases List.mem_cons.1 he' with rfl | he'
      · exact hlt
      · exact hlt.trans (hhead e' he')
    · refine List.pairwise_cons.2 ⟨fun e' he' => ?_, hrest⟩
      rw [heq]
      exact hhead e' he'
    · refine List.pairwise_cons.2 ⟨fun e' he' => ?_, ih hrest⟩
      rcases mem_insertKey he' with rfl | he'
      · exact lt_of_le_of_ne (not_lt.1 hlt) (Ne.symm heq)
      · exact hhead e' he'

/-- A removal keeps the keys in order. -/
theorem sortedKeys_eraseKey (h : SortedKeys entries) : SortedKeys (eraseKey k entries) :=
  h.filter _

/-- A key is put in behind the smaller ones. -/
theorem insertKey_append (h : ∀ e ∈ entries, e.1 < k) :
    insertKey k v (entries ++ entries') = entries ++ insertKey k v entries' := by
  induction entries with
  | nil => rfl
  | cons e rest ih =>
    have hlt := h e List.mem_cons_self
    have hrest := ih fun e' he' => h e' (List.mem_cons_of_mem e he')
    rw [List.cons_append, insertKey, if_neg hlt.asymm, if_neg hlt.ne', hrest]
    rfl

/-- A key after all the others goes to the end. -/
theorem insertKey_last (h : ∀ e ∈ entries, e.1 < k) :
    insertKey k v entries = entries ++ [(k, v)] := by
  have happend := @insertKey_append κ ν _ k v entries [] h
  rwa [List.append_nil] at happend

/-- The entries made of pairs have their keys in order. -/
theorem sortedKeys_ofPairs (pairs : List (κ × ν)) : SortedKeys (ofPairs pairs) := by
  have hfold (d : List (κ × ν)) (hd : SortedKeys d) :
      SortedKeys (pairs.foldl (fun d e => insertKey e.1 e.2 d) d) := by
    induction pairs generalizing d with
    | nil => exact hd
    | cons e pairs ih => exact ih _ (sortedKeys_insertKey hd)
  exact hfold [] List.Pairwise.nil

/-- Entries in order are a dictionary as they stand. -/
theorem ofPairs_eq (h : SortedKeys entries) : ofPairs entries = entries := by
  have hfold (d : List (κ × ν)) (hd : SortedKeys (d ++ entries)) :
      entries.foldl (fun d e => insertKey e.1 e.2 d) d = d ++ entries := by
    induction entries generalizing d with
    | nil => rw [List.foldl_nil, List.append_nil]
    | cons e entries ih =>
      have hlast : ∀ e' ∈ d, e'.1 < e.1 := fun e' he' =>
        (List.pairwise_append.1 hd).2.2 e' he' e List.mem_cons_self
      have hassoc : d ++ e :: entries = d ++ [(e.1, e.2)] ++ entries := by
        rw [List.append_assoc]
        rfl
      rw [List.foldl_cons, insertKey_last hlast, hassoc]
      exact ih (List.pairwise_cons.1 h).2 _ (hassoc ▸ hd)
  exact hfold [] h

/-- An entry after several insertions has been there, or is one of the pairs. -/
theorem mem_foldl_insertKey {e : κ × ν} {pairs : List (κ × ν)} (d : List (κ × ν))
    (h : e ∈ pairs.foldl (fun d e => insertKey e.1 e.2 d) d) : e ∈ d ∨ e ∈ pairs := by
  induction pairs generalizing d with
  | nil => exact Or.inl h
  | cons e' pairs ih =>
    rcases ih (insertKey e'.1 e'.2 d) h with hd | hpairs
    · rcases mem_insertKey hd with rfl | hd
      · exact Or.inr List.mem_cons_self
      · exact Or.inl hd
    · exact Or.inr (List.mem_cons_of_mem e' hpairs)

/-- An entry made of pairs is one of them. -/
theorem mem_ofPairs {e : κ × ν} {pairs : List (κ × ν)} (h : e ∈ ofPairs pairs) : e ∈ pairs :=
  (mem_foldl_insertKey [] h).resolve_left List.not_mem_nil

/-- The value of a key is that of the first entry with the key. -/
@[simp] theorem getKey_cons (e : κ × ν) (entries : List (κ × ν)) :
    getKey k (e :: entries) = if e.1 = k then some e.2 else getKey k entries := by
  unfold getKey
  rw [List.find?_cons]
  split_ifs with h
  · rw [decide_eq_true h]
    rfl
  · rw [decide_eq_false h]

/-- The value that is inserted is found. -/
theorem getKey_insertKey_self : getKey k (insertKey k v entries) = some v := by
  induction entries with
  | nil => rw [insertKey, getKey_cons, if_pos rfl]
  | cons e rest ih =>
    rw [insertKey]
    split_ifs with hlt heq
    · rw [getKey_cons, if_pos rfl]
    · rw [getKey_cons, if_pos rfl]
    · rw [getKey_cons, if_neg (Ne.symm heq), ih]

/-- An insertion leaves the values of the other keys. -/
theorem getKey_insertKey_ne (h : k' ≠ k) :
    getKey k' (insertKey k v entries) = getKey k' entries := by
  induction entries with
  | nil => rw [insertKey, getKey_cons, if_neg h.symm]
  | cons e rest ih =>
    rw [insertKey]
    split_ifs with hlt heq
    · rw [getKey_cons, if_neg h.symm]
    · rw [getKey_cons, getKey_cons, if_neg h.symm, if_neg (heq ▸ h.symm)]
    · rw [getKey_cons, getKey_cons, ih]

/-- A key that is not there is found nowhere. -/
theorem ne_of_getKey_eq_none (h : getKey k entries = none) : ∀ e ∈ entries, e.1 ≠ k := by
  intro e he heq
  unfold getKey at h
  rw [Option.map_eq_none_iff, List.find?_eq_none] at h
  exact h e he (decide_eq_true heq)

/-- A value that is found is that of an entry. -/
theorem mem_of_getKey (h : getKey k entries = some v) : (k, v) ∈ entries := by
  obtain ⟨e, he, rfl⟩ := Option.map_eq_some_iff.1 h
  have hkey : e.1 = k := by simpa using List.find?_some he
  exact hkey ▸ List.mem_of_find?_eq_some he

/-- A key is there once. -/
theorem getKey_of_mem (hs : SortedKeys entries) (h : (k, v) ∈ entries) :
    getKey k entries = some v := by
  induction entries with
  | nil => exact absurd h List.not_mem_nil
  | cons e rest ih =>
    obtain ⟨hhead, hrest⟩ := List.pairwise_cons.1 hs
    rw [getKey_cons]
    rcases List.mem_cons.1 h with rfl | hmem
    · exact if_pos rfl
    · rw [if_neg (hhead (k, v) hmem).ne, ih hrest hmem]

/-- To remove a key that is not there changes nothing. -/
theorem eraseKey_eq_self (h : ∀ e ∈ entries, e.1 ≠ k) : eraseKey k entries = entries :=
  List.filter_eq_self.2 fun e he => decide_eq_true (h e he)

/-- A new key can be taken away again. -/
theorem eraseKey_insertKey (h : ∀ e ∈ entries, e.1 ≠ k) :
    eraseKey k (insertKey k v entries) = entries := by
  induction entries with
  | nil =>
    unfold eraseKey
    rw [insertKey, List.filter_cons, if_neg (by simp)]
    rfl
  | cons e rest ih =>
    have hrest : ∀ e' ∈ rest, e'.1 ≠ k := fun e' he' => h e' (List.mem_cons_of_mem e he')
    have hne : e.1 ≠ k := h e List.mem_cons_self
    rw [insertKey]
    split_ifs with hlt heq
    · have hsame := eraseKey_eq_self h
      unfold eraseKey at hsame ⊢
      rw [List.filter_cons, if_neg (by simp), hsame]
    · exact absurd heq.symm hne
    · have hih := ih hrest
      unfold eraseKey at hih ⊢
      rw [List.filter_cons, if_pos (by simpa using hne), hih]

/-- A key that is there can be put back. -/
theorem insertKey_eraseKey (hs : SortedKeys entries) (h : getKey k entries = some v) :
    insertKey k v (eraseKey k entries) = entries := by
  induction entries with
  | nil => cases h
  | cons e rest ih =>
    obtain ⟨hhead, hrest⟩ := List.pairwise_cons.1 hs
    rw [getKey_cons] at h
    by_cases heq : e.1 = k
    · rw [if_pos heq] at h
      -- The key is the first, and no other is the same.
      have hgone : eraseKey k (e :: rest) = rest := by
        have hsame : eraseKey k rest = rest :=
          eraseKey_eq_self fun e' he' => heq ▸ (hhead e' he').ne'
        unfold eraseKey at hsame ⊢
        rw [List.filter_cons, if_neg (by simpa using heq), hsame]
      obtain rfl : e = (k, v) := Prod.ext heq (Option.some.inj h)
      rw [hgone]
      cases rest with
      | nil => rfl
      | cons e' rest => rw [insertKey, if_pos (hhead e' List.mem_cons_self)]
    · rw [if_neg heq] at h
      have hkept : eraseKey k (e :: rest) = e :: eraseKey k rest := by
        unfold eraseKey
        rw [List.filter_cons, if_pos (by simpa using heq)]
      -- The key is further on, so that it is greater than the first.
      have hlt : e.1 < k := by
        obtain ⟨e', he', hval⟩ := Option.map_eq_some_iff.1 h
        have hk : e'.1 = k := by simpa using List.find?_some he'
        exact hk ▸ hhead e' (List.mem_of_find?_eq_some he')
      rw [hkept, insertKey, if_neg hlt.asymm, if_neg (Ne.symm heq), ih hrest h]

/-- The last value of a key counts. -/
theorem insertKey_insertKey_self :
    insertKey k v (insertKey k v' entries) = insertKey k v entries := by
  induction entries with
  | nil => simp only [insertKey, lt_irrefl, if_false, if_true]
  | cons e rest ih =>
    rcases lt_trichotomy k e.1 with hk | hk | hk
    · simp only [insertKey, if_pos hk, lt_irrefl, if_false, if_true]
    · simp only [insertKey, if_neg hk.not_lt, if_pos hk, lt_irrefl, if_false, if_true]
    · simp only [insertKey, if_neg hk.asymm, if_neg hk.ne', ih]

/-- Two keys are put in in either order. -/
theorem insertKey_comm (h : k ≠ k') :
    insertKey k v (insertKey k' v' entries) = insertKey k' v' (insertKey k v entries) := by
  induction entries with
  | nil =>
    rcases lt_or_gt_of_ne h with hlt | hgt
    · simp only [insertKey, if_pos hlt, if_neg hlt.asymm, if_neg hlt.ne']
    · simp only [insertKey, if_pos hgt, if_neg hgt.asymm, if_neg hgt.ne']
  | cons e rest ih =>
    -- Each of the two keys is before, at, or after the first entry.
    rcases lt_trichotomy k e.1 with hk | hk | hk <;>
      rcases lt_trichotomy k' e.1 with hk' | hk' | hk' <;> grind [insertKey]

/-- A dictionary. -/
structure Dict (κ ν : Type*) [LinearOrder κ] where
  /-- The entries. -/
  entries : List (κ × ν)
  /-- They are in the order of their keys. -/
  sorted : SortedKeys entries

namespace Dict

/-- Dictionaries with the same entries are the same. -/
@[ext] theorem ext {d d' : Dict κ ν} (h : d.entries = d'.entries) : d = d' := by
  cases d
  cases d'
  cases h
  rfl

/-- `d.get(k)`. -/
def get (d : Dict κ ν) (k : κ) : Option ν := getKey k d.entries

/-- `d[k] = v`. -/
def insert (d : Dict κ ν) (k : κ) (v : ν) : Dict κ ν :=
  ⟨insertKey k v d.entries, sortedKeys_insertKey d.sorted⟩

variable {d d' : Dict κ ν}

/-- The value that is inserted is found. -/
@[simp] theorem get_insert_self : (d.insert k v).get k = some v := getKey_insertKey_self

/-- An insertion leaves the values of the other keys. -/
theorem get_insert_ne (h : k' ≠ k) : (d.insert k v).get k' = d.get k' := getKey_insertKey_ne h

/-- A value that is inserted takes the place of the one before. -/
@[simp] theorem insert_insert_self : (d.insert k v').insert k v = d.insert k v :=
  ext insertKey_insertKey_self

/-- Values of different keys are inserted in either order. -/
theorem insert_comm (h : k ≠ k') : (d.insert k v).insert k' v' = (d.insert k' v').insert k v :=
  ext (insertKey_comm h.symm)

/-- A value for each key of a list. -/
theorem get_foldl_insert {f : κ → ν} {keys : List κ} :
    (keys.foldl (fun d k => d.insert k (f k)) d).get k =
      if k ∈ keys then some (f k) else d.get k := by
  induction keys generalizing d with
  | nil => exact (if_neg List.not_mem_nil).symm
  | cons k' keys ih =>
    rw [List.foldl_cons, ih]
    by_cases hk : k = k'
    · rw [hk, get_insert_self, if_pos List.mem_cons_self, ite_self]
    · rw [get_insert_ne hk]
      simp only [List.mem_cons, hk, false_or]

/-- The keys are those that have a value. -/
theorem mem_keys_iff : k ∈ d.entries.map Prod.fst ↔ ∃ v, d.get k = some v := by
  constructor
  · intro h
    obtain ⟨e, he, rfl⟩ := List.mem_map.1 h
    exact ⟨e.2, getKey_of_mem d.sorted he⟩
  · rintro ⟨v, hv⟩
    exact List.mem_map.2 ⟨(k, v), mem_of_getKey hv, rfl⟩

/-- A dictionary is known by the values of its keys. -/
theorem ext_get (h : ∀ k, d.get k = d'.get k) : d = d' := by
  have hmem : ∀ e : κ × ν, e ∈ d.entries ↔ e ∈ d'.entries := by
    rintro ⟨k, v⟩
    have hk := h k
    unfold get at hk
    constructor
    · intro he
      exact mem_of_getKey (hk.symm.trans (getKey_of_mem d.sorted he))
    · intro he
      exact mem_of_getKey (hk.trans (getKey_of_mem d'.sorted he))
  have hirrefl : Std.Irrefl fun a b : κ × ν => a.1 < b.1 := ⟨fun a => lt_irrefl a.1⟩
  have hanti : Std.Antisymm fun a b : κ × ν => a.1 < b.1 :=
    ⟨fun a b hab hba => absurd hba hab.asymm⟩
  exact ext (List.Pairwise.eq_of_mem_iff d.sorted d'.sorted hmem)

end Dict

end MarketDataGateway.Lib
