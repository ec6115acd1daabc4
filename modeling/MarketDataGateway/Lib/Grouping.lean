import Mathlib.Algebra.GroupWithZero.Nat
import Mathlib.Data.List.Induction
import Mathlib.Data.List.Nodup
import Mathlib.Data.List.Sort
import Mathlib.Order.Bounds.Basic

/-!
# Grouping lists, sorting them by a key, and extremes of nonempty lists

`groupOn key l` collects the elements of a list under their keys, as a loop that appends each
element to the group of its key does. A key's group is the sublist of its elements
(`mem_groupOn`), and each key has one group (`groupOn_keys_nodup`).

A list sorted by a key (`pairwise_sortOn`) whose keys are distinct is sorted strictly
(`pairwise_lt_of_nodup`), and strictly sorted lists with the same elements are equal
(`eq_of_pairwise_lt_of_mem_iff`).

`putOn` sets a value in a dict whose values have their keys, and `overlayOn` is the loop that lays
values over those of another dict: which value is left for a key is `overlayOn_spec`.

`maxOf` and `minOf` are the extremes of a function over a nonempty list, given by its head and
tail.
-/

namespace MarketDataGateway.Lib

section Group

variable {κ ν : Type*} [DecidableEq κ]

/-- Appends a value to the group of a key, which begins a group for a new key. -/
def pushGroup (groups : List (κ × List ν)) (k : κ) (v : ν) : List (κ × List ν) :=
  if k ∈ groups.map Prod.fst then
    groups.map fun g => if g.1 = k then (g.1, g.2 ++ [v]) else g
  else
    groups ++ [(k, [v])]

/-- The elements of a list under their keys, in the order in which the keys occur. -/
def groupOn (key : ν → κ) (l : List ν) : List (κ × List ν) :=
  l.foldl (fun groups v => pushGroup groups (key v) v) []

/-- Appending does not repeat a key. -/
theorem pushGroup_keys_nodup {groups : List (κ × List ν)} (h : (groups.map Prod.fst).Nodup)
    (k : κ) (v : ν) : ((pushGroup groups k v).map Prod.fst).Nodup := by
  unfold pushGroup
  split_ifs with hk
  · have hmap : (groups.map fun g => if g.1 = k then (g.1, g.2 ++ [v]) else g).map Prod.fst =
        groups.map Prod.fst := by
      rw [List.map_map]
      refine List.map_congr_left fun g _ => ?_
      dsimp only [Function.comp]
      split_ifs <;> rfl
    rw [hmap]
    exact h
  · rw [List.map_append, List.nodup_append]
    refine ⟨h, List.nodup_singleton _, ?_⟩
    intro a ha b hb hab
    obtain rfl : b = k := by simpa using hb
    exact hk (hab ▸ ha)

/-- Each key has one group. -/
theorem groupOn_keys_nodup (key : ν → κ) (l : List ν) : ((groupOn key l).map Prod.fst).Nodup := by
  have hfold : ∀ groups : List (κ × List ν), (groups.map Prod.fst).Nodup →
      ((l.foldl (fun groups v => pushGroup groups (key v) v) groups).map Prod.fst).Nodup := by
    induction l with
    | nil => exact fun _ h => h
    | cons v l ih => exact fun groups h => ih _ (pushGroup_keys_nodup h (key v) v)
  exact hfold [] List.nodup_nil

/-- The groups of a list with one more element. -/
theorem groupOn_append_singleton (key : ν → κ) (l : List ν) (v : ν) :
    groupOn key (l ++ [v]) = pushGroup (groupOn key l) (key v) v := by
  simp [groupOn, List.foldl_append]

/-- A key's group is the sublist of the elements with that key, and only keys that occur have
one. -/
theorem mem_groupOn (key : ν → κ) (l : List ν) (k : κ) (vs : List ν) :
    (k, vs) ∈ groupOn key l ↔ vs = l.filter (fun v => key v = k) ∧ vs ≠ [] := by
  induction l using List.reverseRecOn generalizing k vs with
  | nil => simp [groupOn]
  | append_singleton l v ih =>
    -- The keys of the groups are those of the values so far.
    have hkeys : key v ∈ (groupOn key l).map Prod.fst ↔
        l.filter (fun w => key w = key v) ≠ [] := by
      constructor
      · intro h
        obtain ⟨⟨k', vs'⟩, hmem, hk'⟩ := List.mem_map.1 h
        obtain ⟨rfl, hne⟩ := (ih k' vs').1 hmem
        obtain rfl : k' = key v := hk'
        exact hne
      · intro hne
        exact List.mem_map.2 ⟨(key v, _), (ih _ _).2 ⟨rfl, hne⟩, rfl⟩
    rw [groupOn_append_singleton, List.filter_append, pushGroup]
    split_ifs with hin
    · -- The key has a group already, which grows.
      constructor
      · intro h
        obtain ⟨⟨k', vs'⟩, hmem, heq⟩ := List.mem_map.1 h
        obtain ⟨rfl, hne⟩ := (ih k' vs').1 hmem
        by_cases hk : k' = key v
        · subst hk
          obtain ⟨rfl, rfl⟩ : key v = k ∧ _ = vs := by simpa using heq
          simp
        · obtain ⟨rfl, rfl⟩ : k' = k ∧ _ = vs := by simpa [hk] using heq
          simp [Ne.symm hk, hne]
      · rintro ⟨rfl, hne⟩
        by_cases hk : key v = k
        · subst hk
          refine List.mem_map.2 ⟨(key v, _), (ih _ _).2 ⟨rfl, hkeys.1 hin⟩, ?_⟩
          simp
        · refine List.mem_map.2 ⟨(k, _), (ih _ _).2 ⟨rfl, by simpa [hk] using hne⟩, ?_⟩
          simp [hk, Ne.symm hk]
    · -- The key is new, and so is its group.
      have hnil : l.filter (fun w => key w = key v) = [] := by
        by_contra hne
        exact hin (hkeys.2 hne)
      rw [List.mem_append, ih, List.mem_singleton, Prod.mk.injEq]
      by_cases hk : key v = k
      · subst hk
        simp only [hnil, decide_true, List.filter_cons_of_pos, List.filter_nil, List.nil_append,
          true_and]
        constructor
        · rintro (⟨rfl, hne⟩ | rfl)
          · exact absurd rfl hne
          · exact ⟨rfl, List.cons_ne_nil _ _⟩
        · rintro ⟨rfl, -⟩
          exact Or.inr rfl
      · simp [hk, Ne.symm hk]

/-- `d[key(v)] = v`, for a dict whose values have their keys: the value of the key is replaced, and
a new key goes to the end. -/
def putOn (key : ν → κ) (d : List ν) (v : ν) : List ν :=
  if key v ∈ d.map key then d.map fun w => if key w = key v then v else w else d ++ [v]

/-- Lays the values `top` over those of the dict `base`. A value of `top` takes the place of one of
`base` only if `p` holds of it. -/
def overlayOn (key : ν → κ) (p : ν → Bool) (base top : List ν) : List ν :=
  top.foldl (fun d v => if p v || key v ∉ d.map key then putOn key d v else d) base

/-- The values after one is set. -/
theorem mem_putOn {key : ν → κ} {d : List ν} {v w : ν} :
    w ∈ putOn key d v ↔ w = v ∨ w ∈ d ∧ key w ≠ key v := by
  unfold putOn
  split_ifs with hv
  · simp only [List.mem_map]
    constructor
    · rintro ⟨w', hw', rfl⟩
      split_ifs with hkey
      · exact Or.inl rfl
      · exact Or.inr ⟨hw', hkey⟩
    · rintro (rfl | ⟨hw, hkey⟩)
      · obtain ⟨w', hw', hkey⟩ := List.mem_map.1 hv
        exact ⟨w', hw', if_pos hkey⟩
      · exact ⟨w, hw, if_neg hkey⟩
  · rw [List.mem_append, List.mem_singleton, or_comm]
    refine or_congr_right ⟨fun hw => ⟨hw, fun hkey => hv ?_⟩, And.left⟩
    exact List.mem_map.2 ⟨w, hw, hkey⟩

/-- The keys after a value is set. -/
theorem mem_keys_putOn {key : ν → κ} {d : List ν} {v : ν} {k : κ} :
    k ∈ (putOn key d v).map key ↔ k = key v ∨ k ∈ d.map key := by
  simp only [List.mem_map, mem_putOn]
  constructor
  · rintro ⟨w, rfl | ⟨hw, -⟩, rfl⟩
    · exact Or.inl rfl
    · exact Or.inr ⟨w, hw, rfl⟩
  · rintro (rfl | ⟨w, hw, rfl⟩)
    · exact ⟨v, Or.inl rfl, rfl⟩
    · by_cases hkey : key w = key v
      · exact ⟨v, Or.inl rfl, hkey.symm⟩
      · exact ⟨w, Or.inr ⟨hw, hkey⟩, rfl⟩

/-- Setting a value does not repeat a key. -/
theorem putOn_keys_nodup {key : ν → κ} {d : List ν} (h : (d.map key).Nodup) (v : ν) :
    ((putOn key d v).map key).Nodup := by
  unfold putOn
  split_ifs with hv
  · have hmap : (d.map fun w => if key w = key v then v else w).map key = d.map key := by
      rw [List.map_map]
      refine List.map_congr_left fun w _ => ?_
      dsimp only [Function.comp]
      split_ifs with hkey
      · exact hkey.symm
      · rfl
    rw [hmap]
    exact h
  · rw [List.map_append, List.nodup_append]
    refine ⟨h, List.nodup_singleton _, ?_⟩
    intro a ha b hb hab
    obtain rfl : b = key v := by simpa using hb
    exact hv (hab ▸ ha)

/-- What is left after an overlay: values of `top` for which `p` holds or whose key `base` has not,
and values of `base` whose key has no value in `top` for which `p` holds. No key is lost or
repeated. -/
theorem overlayOn_spec {key : ν → κ} (p : ν → Bool) {base : List ν} (top : List ν)
    (hbase : (base.map key).Nodup) :
    ((overlayOn key p base top).map key).Nodup ∧
    (∀ k, k ∈ (overlayOn key p base top).map key ↔ k ∈ base.map key ∨ k ∈ top.map key) ∧
    ∀ w ∈ overlayOn key p base top,
      w ∈ top ∧ (p w = true ∨ key w ∉ base.map key) ∨
        w ∈ base ∧ ∀ v ∈ top, key v = key w → p v = false := by
  induction top using List.reverseRecOn with
  | nil => exact ⟨hbase, fun k => by simp [overlayOn], fun w hw => Or.inr ⟨hw, by simp⟩⟩
  | append_singleton top v ih =>
    obtain ⟨hnodup, hkeys, hmem⟩ := ih
    have hstep : overlayOn key p base (top ++ [v]) =
        if p v || key v ∉ (overlayOn key p base top).map key then
          putOn key (overlayOn key p base top) v else overlayOn key p base top := by
      rw [overlayOn, List.foldl_append]
      rfl
    rw [hstep]
    generalize overlayOn key p base top = d at hnodup hkeys hmem
    have htop : ∀ w, w ∈ top → w ∈ top ++ [v] := fun w hw => List.mem_append_left _ hw
    split_ifs with hput
    · -- The value takes the place of the one with its key, or is added.
      refine ⟨putOn_keys_nodup hnodup v, fun k => ?_, fun w hw => ?_⟩
      · rw [mem_keys_putOn, hkeys]
        simp only [List.map_append, List.map_cons, List.map_nil,
          List.mem_append, List.mem_singleton]
        tauto
      · rcases mem_putOn.1 hw with rfl | ⟨hw, hne⟩
        · refine Or.inl ⟨by simp, ?_⟩
          rcases Bool.or_eq_true _ _ ▸ hput with hp | hnew
          · exact Or.inl hp
          · exact Or.inr fun hin => of_decide_eq_true hnew ((hkeys _).2 (Or.inl hin))
        · refine (hmem w hw).imp (And.imp_left (htop w)) (And.imp_right fun hall v' hv' hkey => ?_)
          rcases List.mem_append.1 hv' with hv' | hv'
          · exact hall v' hv' hkey
          · rw [List.mem_singleton.1 hv'] at hkey
            exact absurd hkey.symm hne
    · -- The value is left out: its key has a value that it may not replace.
      have hp : p v = false := by
        by_contra hp
        exact hput (by simp [Bool.eq_true_of_not_eq_false hp])
      have hold : key v ∈ d.map key := by
        by_contra hnew
        exact hput (by simp only [hnew, not_false_eq_true, decide_true, Bool.or_true])
      refine ⟨hnodup, fun k => ?_, fun w hw => ?_⟩
      · rw [hkeys]
        simp only [List.map_append, List.map_cons, List.map_nil,
          List.mem_append, List.mem_singleton]
        have := (hkeys (key v)).1 hold
        constructor
        · tauto
        · rintro (hk | hk | rfl) <;> tauto
      · refine (hmem w hw).imp (And.imp_left (htop w)) (And.imp_right fun hall v' hv' hkey => ?_)
        rcases List.mem_append.1 hv' with hv' | hv'
        · exact hall v' hv' hkey
        · rw [List.mem_singleton.1 hv']
          exact hp

end Group

section SortOn

variable {ι β : Type*} [LinearOrder β]

/-- Insertion sort by the key `f` sorts by `f`. -/
theorem pairwise_sortOn (f : ι → β) (l : List ι) :
    (l.insertionSort fun a b => f a ≤ f b).Pairwise fun a b => f a ≤ f b := by
  have htotal : Std.Total fun a b => f a ≤ f b := ⟨fun a b => le_total (f a) (f b)⟩
  have htrans : IsTrans ι fun a b => f a ≤ f b := ⟨fun _ _ _ => le_trans⟩
  exact List.pairwise_insertionSort _ l

/-- A list sorted by a key whose keys are distinct is sorted strictly. -/
theorem pairwise_lt_of_nodup {f : ι → β} {l : List ι} (h : l.Pairwise fun a b => f a ≤ f b)
    (hnodup : (l.map f).Nodup) : l.Pairwise fun a b => f a < f b := by
  have hne : l.Pairwise fun a b => f a ≠ f b := List.pairwise_map.1 hnodup
  exact (h.and hne).imp fun hab => lt_of_le_of_ne hab.1 hab.2

/-- Strictly sorted lists with the same elements are equal. -/
theorem eq_of_pairwise_lt_of_mem_iff {f : ι → β} {l l' : List ι}
    (h : l.Pairwise fun a b => f a < f b) (h' : l'.Pairwise fun a b => f a < f b)
    (hmem : ∀ a, a ∈ l ↔ a ∈ l') : l = l' := by
  have hirrefl : Std.Irrefl fun a b => f a < f b := ⟨fun a => lt_irrefl (f a)⟩
  have hantisymm : Std.Antisymm fun a b => f a < f b := ⟨fun _ _ hab hba => absurd hab hba.not_gt⟩
  exact h.eq_of_mem_iff h' hmem

end SortOn

section Extremes

variable {ι β : Type*} [LinearOrder β]

/-- The greatest value of `f` over the list `x :: xs`. -/
def maxOf (f : ι → β) (x : ι) (xs : List ι) : β := xs.foldl (fun m y => max m (f y)) (f x)

/-- The least value of `f` over the list `x :: xs`. -/
def minOf (f : ι → β) (x : ι) (xs : List ι) : β := xs.foldl (fun m y => min m (f y)) (f x)

/-- `maxOf` is the greatest value. -/
theorem isGreatest_maxOf (f : ι → β) (x : ι) (xs : List ι) :
    IsGreatest (f '' {y | y ∈ x :: xs}) (maxOf f x xs) := by
  induction xs using List.reverseRecOn with
  | nil => simp [maxOf]
  | append_singleton xs y ih =>
    have hset : {z | z ∈ x :: (xs ++ [y])} = insert y {z | z ∈ x :: xs} := by
      ext z
      simp
      tauto
    rw [hset, Set.image_insert_eq, maxOf, List.foldl_append]
    have := ih.insert (f y)
    rwa [max_comm] at this

/-- `minOf` is the least value. -/
theorem isLeast_minOf (f : ι → β) (x : ι) (xs : List ι) :
    IsLeast (f '' {y | y ∈ x :: xs}) (minOf f x xs) :=
  isGreatest_maxOf (β := βᵒᵈ) f x xs

/-- The greatest of the greatest values of the parts is the greatest value of the whole. -/
theorem isGreatest_of_parts {μ : Type*} {f : μ → β} {val : ι → β} {part : μ → List ι}
    {ms : List μ} {l : List ι} {b : β}
    (hparts : ∀ m ∈ ms, IsGreatest (val '' {x | x ∈ part m}) (f m))
    (hb : IsGreatest (f '' {m | m ∈ ms}) b) (hsub : ∀ m ∈ ms, ∀ x ∈ part m, x ∈ l)
    (hcover : ∀ x ∈ l, ∃ m ∈ ms, x ∈ part m) : IsGreatest (val '' {x | x ∈ l}) b := by
  constructor
  · obtain ⟨m, hm, rfl⟩ := hb.1
    obtain ⟨x, hx, hval⟩ := (hparts m hm).1
    exact ⟨x, hsub m hm x hx, hval⟩
  · rintro _ ⟨x, hx, rfl⟩
    obtain ⟨m, hm, hxm⟩ := hcover x hx
    exact ((hparts m hm).2 ⟨x, hxm, rfl⟩).trans (hb.2 ⟨m, hm, rfl⟩)

/-- The least of the least values of the parts is the least value of the whole. -/
theorem isLeast_of_parts {μ : Type*} {f : μ → β} {val : ι → β} {part : μ → List ι}
    {ms : List μ} {l : List ι} {b : β}
    (hparts : ∀ m ∈ ms, IsLeast (val '' {x | x ∈ part m}) (f m))
    (hb : IsLeast (f '' {m | m ∈ ms}) b) (hsub : ∀ m ∈ ms, ∀ x ∈ part m, x ∈ l)
    (hcover : ∀ x ∈ l, ∃ m ∈ ms, x ∈ part m) : IsLeast (val '' {x | x ∈ l}) b :=
  isGreatest_of_parts (β := βᵒᵈ) hparts hb hsub hcover

end Extremes

section Count

variable {ι κ : Type*} [DecidableEq κ]

/-- The elements of a list are counted by their keys. -/
theorem sum_length_filter (f : ι → κ) {ks : List κ} {l : List ι} (hnodup : ks.Nodup)
    (hmem : ∀ x ∈ l, f x ∈ ks) :
    (ks.map fun k => (l.filter fun x => f x = k).length).sum = l.length := by
  induction ks generalizing l with
  | nil =>
    have hnil : l = [] := List.eq_nil_iff_forall_not_mem.2 fun x hx =>
      absurd (hmem x hx) List.not_mem_nil
    simp [hnil]
  | cons k ks ih =>
    obtain ⟨hk, hnodup⟩ := List.nodup_cons.1 hnodup
    -- The elements of the other keys.
    set rest := l.filter fun x => ¬ f x = k with hrest
    have hmem' : ∀ x ∈ rest, f x ∈ ks := fun x hx => by
      obtain ⟨hx, hne⟩ := List.mem_filter.1 hx
      exact (List.mem_cons.1 (hmem x hx)).resolve_left (of_decide_eq_true hne)
    have hkeys : ∀ k' ∈ ks, (l.filter fun x => f x = k') = rest.filter fun x => f x = k' := by
      intro k' hk'
      rw [hrest, List.filter_filter]
      refine List.filter_congr fun x _ => ?_
      by_cases hx : f x = k'
      · have hne : k' ≠ k := fun h => hk (h ▸ hk')
        simp [hx, hne]
      · simp [hx]
    have hlength : l.length = (l.filter fun x => f x = k).length + rest.length := by
      rw [hrest, List.length_eq_length_filter_add fun x => f x = k]
      simp
    rw [List.map_cons, List.sum_cons, hlength, ← ih hnodup hmem']
    congr 2
    exact List.map_congr_left fun k' hk' => by rw [hkeys k' hk']

end Count

end MarketDataGateway.Lib
