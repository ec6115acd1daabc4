import MarketDataGateway.Lib.ConsumerGroup
import Mathlib.Data.List.Perm.Subperm
import Mathlib.Data.List.Sort

/-!
# Consumer groups with their pending entries

A consumer group with the list of its pending entries: which consumer has an entry, and since when.
`XAUTOCLAIM` scans the list from a cursor on and gives the consumer that calls it what has been idle
for long enough. That the list has exactly the entries that are pending is a field of the structure.

A consumer that goes on from the cursor that the last scan returned comes past an entry unless the
end of the list recedes from it: a scan that does not return an entry which has been idle for long
enough ends before it, or closer to the end of the list, or returns to the start (`distance_lt`).
What is delivered in between is ahead of the cursor (`distance_le_of_extends`).
-/

namespace MarketDataGateway.Lib

/-- A pending entry. -/
structure PendingEntry where
  /-- The entry. -/
  id : ℕ
  /-- The consumer that has it. -/
  consumer : ℕ
  /-- When it was delivered or claimed last, in milliseconds. -/
  deliveredAt : ℤ
  deriving DecidableEq

/-- A scan of pending entries: at most `attempts` are examined, and at most `count` claimed. The
result is what is claimed, and the entry at which the next scan goes on. -/
def scan (now minIdle : ℤ) : ℕ → ℕ → List PendingEntry → List ℕ × Option ℕ
  | attempts + 1, count + 1, e :: rest =>
    if now - e.deliveredAt < minIdle then scan now minIdle attempts (count + 1) rest
    else
      let result := scan now minIdle attempts count rest
      (e.id :: result.1, result.2)
  | _, _, rest => ([], rest.head?.map PendingEntry.id)

section Scan

variable {now minIdle : ℤ} {attempts count next : ℕ} {pel : List PendingEntry} {e : PendingEntry}

/-- The next scan goes on at an entry of the list. -/
theorem mem_of_scan_next (h : (scan now minIdle attempts count pel).2 = some next) :
    next ∈ pel.map PendingEntry.id := by
  fun_induction scan now minIdle attempts count pel with
  | case1 attempts count e rest hidle ih => exact List.mem_cons_of_mem _ (ih h)
  | case2 attempts count e rest hidle result ih => exact List.mem_cons_of_mem _ (ih h)
  | case3 attempts count rest =>
    obtain ⟨e, he, rfl⟩ := Option.map_eq_some_iff.1 h
    exact List.mem_map_of_mem (List.mem_of_mem_head? he)

/-- What a scan claims is in the list. -/
theorem mem_of_mem_scan {id : ℕ} (h : id ∈ (scan now minIdle attempts count pel).1) :
    id ∈ pel.map PendingEntry.id := by
  fun_induction scan now minIdle attempts count pel with
  | case1 attempts count e rest hidle ih => exact List.mem_cons_of_mem _ (ih h)
  | case2 attempts count e rest hidle result ih =>
    rcases List.mem_cons.1 h with rfl | h
    · exact List.mem_cons_self
    · exact List.mem_cons_of_mem _ (ih h)
  | case3 attempts count rest => exact absurd h List.not_mem_nil

/-- A scan comes past the first entry. -/
theorem lt_of_scan_next (hsorted : ((e :: pel).map PendingEntry.id).Pairwise (· < ·))
    (h : (scan now minIdle (attempts + 1) (count + 1) (e :: pel)).2 = some next) : e.id < next := by
  have hrest : next ∈ pel.map PendingEntry.id := by
    rw [scan] at h
    split_ifs at h
    · exact mem_of_scan_next h
    · exact mem_of_scan_next h
  exact (List.pairwise_cons.1 hsorted).1 next hrest

/-- A scan comes no further than an entry that it could claim and does not. -/
theorem exists_scan_next (hsorted : (pel.map PendingEntry.id).Pairwise (· < ·)) (he : e ∈ pel)
    (hidle : minIdle ≤ now - e.deliveredAt)
    (hnot : e.id ∉ (scan now minIdle attempts count pel).1) :
    ∃ next ≤ e.id, (scan now minIdle attempts count pel).2 = some next := by
  fun_induction scan now minIdle attempts count pel with
  | case1 attempts count e' rest hidle' ih =>
    rcases List.mem_cons.1 he with rfl | he
    · omega
    · exact ih (List.pairwise_cons.1 hsorted).2 he hnot
  | case2 attempts count e' rest hidle' result ih =>
    rcases List.mem_cons.1 he with rfl | he
    · exact absurd List.mem_cons_self hnot
    · exact ih (List.pairwise_cons.1 hsorted).2 he fun hin => hnot (List.mem_cons_of_mem _ hin)
  | case3 attempts count rest =>
    cases rest with
    | nil => cases he
    | cons e' rest =>
      refine ⟨e'.id, ?_, rfl⟩
      rcases List.mem_cons.1 he with rfl | he
      · exact le_refl _
      · exact ((List.pairwise_cons.1 hsorted).1 e.id (List.mem_map_of_mem he)).le

/-- A scan of entries none of which has been idle for long enough claims nothing, and goes on at the
first one that it has not examined. -/
theorem scan_of_not_idle (hpel : ∀ e ∈ pel, now - e.deliveredAt < minIdle) :
    scan now minIdle attempts (count + 1) pel =
      ([], (pel.drop attempts).head?.map PendingEntry.id) := by
  induction attempts generalizing pel with
  | zero => cases pel <;> rfl
  | succ attempts ih =>
    cases pel with
    | nil => rfl
    | cons e rest =>
      rw [scan, if_pos (hpel e List.mem_cons_self)]
      exact ih fun e' he' => hpel e' (List.mem_cons_of_mem _ he')

end Scan

/-- A claim leaves each entry in its place. -/
theorem map_id_claim (claimed : List ℕ) (consumer : ℕ) (now : ℤ) (pel : List PendingEntry) :
    (pel.map fun e => if e.id ∈ claimed then ⟨e.id, consumer, now⟩ else e).map PendingEntry.id =
      pel.map PendingEntry.id := by
  rw [List.map_map]
  refine List.map_congr_left fun e _ => ?_
  change (if e.id ∈ claimed then PendingEntry.mk e.id consumer now else e).id = e.id
  split_ifs
  · rfl
  · rfl

/-- A stream, its consumer group and the group's pending entries. -/
structure PendingGroup (φ : Type*) where
  /-- The stream and the group. -/
  group : ConsumerGroup φ
  /-- The pending entries, in stream order. -/
  pel : List PendingEntry
  /-- Each entry is in the list once. -/
  sorted : (pel.map PendingEntry.id).Pairwise (· < ·)
  /-- The list has the entries that are pending. -/
  mem_pel : ∀ id, id ∈ pel.map PendingEntry.id ↔ group.Pending id

namespace PendingGroup

variable {φ : Type*} (g : PendingGroup φ)

/-- No entry. -/
def empty : PendingGroup φ where
  group := .empty
  pel := []
  sorted := List.Pairwise.nil
  mem_pel _ := ⟨fun h => absurd h List.not_mem_nil, fun h => absurd h.1 (Nat.not_lt_zero _)⟩

/-- `XADD`. -/
def xadd (fields : φ) : PendingGroup φ where
  group := g.group.xadd fields
  pel := g.pel
  sorted := g.sorted
  mem_pel := g.mem_pel

/-- The pending entries that `XREADGROUP` of `>` adds. -/
def delivered (consumer : ℕ) (now : ℤ) (count : ℕ) : List PendingEntry :=
  (g.group.fresh count).map fun p => ⟨p.1, consumer, now⟩

/-- What is delivered are the next new entries. -/
theorem map_id_delivered (consumer : ℕ) (now : ℤ) (count : ℕ) :
    (g.delivered consumer now count).map PendingEntry.id = (g.group.fresh count).map Prod.fst := by
  rw [delivered, List.map_map]
  rfl

/-- `XREADGROUP` of `>`. -/
def xreadgroup (consumer : ℕ) (now : ℤ) (count : ℕ) : PendingGroup φ where
  group := g.group.xreadgroup count
  pel := g.pel ++ g.delivered consumer now count
  sorted := by
    rw [List.map_append, map_id_delivered, List.pairwise_append]
    refine ⟨g.sorted, ConsumerGroup.pairwise_fresh, fun id hid id' hid' => ?_⟩
    obtain ⟨⟨_, fields⟩, hfresh, rfl⟩ := List.mem_map.1 hid'
    exact ((g.mem_pel id).1 hid).1.trans_le (ConsumerGroup.mem_fresh.1 hfresh).1
  mem_pel id := by
    rw [List.map_append, map_id_delivered, List.mem_append, g.mem_pel]
    exact ConsumerGroup.pending_xreadgroup.symm

/-- The pending entries from a cursor on. -/
def pelFrom (start : ℕ) : List PendingEntry := g.pel.filter fun e => start ≤ e.id

/-- What `XAUTOCLAIM` returns: the entries that it claims, and the next cursor. -/
def claimable (now minIdle : ℤ) (start count : ℕ) : List ℕ × Option ℕ :=
  scan now minIdle (count * 10) count (g.pelFrom start)

/-- `XAUTOCLAIM`. -/
def xautoclaim (consumer : ℕ) (now minIdle : ℤ) (start count : ℕ) : PendingGroup φ where
  group := g.group
  pel := g.pel.map fun e =>
    if e.id ∈ (g.claimable now minIdle start count).1 then ⟨e.id, consumer, now⟩ else e
  sorted := by
    rw [map_id_claim]
    exact g.sorted
  mem_pel id := by
    rw [map_id_claim]
    exact g.mem_pel id

/-- `XACK`. -/
def xack (id : ℕ) : PendingGroup φ where
  group := g.group.xack id
  pel := g.pel.filter fun e => e.id ≠ id
  sorted := g.sorted.sublist (List.filter_sublist.map _)
  mem_pel id' := by
    have hfilter : id' ∈ (g.pel.filter fun e => e.id ≠ id).map PendingEntry.id ↔
        id' ∈ g.pel.map PendingEntry.id ∧ id' ≠ id := by
      simp only [List.mem_map, List.mem_filter, decide_eq_true_eq]
      constructor
      · rintro ⟨e, ⟨he, hne⟩, rfl⟩
        exact ⟨⟨e, he, rfl⟩, hne⟩
      · rintro ⟨⟨e, he, rfl⟩, hne⟩
        exact ⟨e, ⟨he, hne⟩, rfl⟩
    rw [hfilter, g.mem_pel, ConsumerGroup.pending_xack]

variable {g} {now minIdle : ℤ} {start count id next : ℕ} {e : PendingEntry}

/-- The pending entries from a place on are in order. -/
theorem sorted_pelFrom (g : PendingGroup φ) (start : ℕ) :
    ((g.pelFrom start).map PendingEntry.id).Pairwise (· < ·) :=
  g.sorted.sublist (List.filter_sublist.map _)

/-- What is claimed is pending. -/
theorem pending_of_mem_claimable (h : id ∈ (g.claimable now minIdle start count).1) :
    g.group.Pending id := by
  obtain ⟨e, he, rfl⟩ := List.mem_map.1 (mem_of_mem_scan h)
  exact (g.mem_pel e.id).1 (List.mem_map_of_mem (List.mem_filter.1 he).1)

/-- A cursor that a scan returns is beyond the one it started from, unless it is back at the
start. -/
theorem lt_of_claimable_next (hcount : 0 < count)
    (h : (g.claimable now minIdle start count).2 = some next) :
    start < next ∧ next < g.group.delivered := by
  obtain ⟨e', he', rfl⟩ := List.mem_map.1 (mem_of_scan_next h)
  refine ⟨?_, ((g.mem_pel e'.id).1 (List.mem_map_of_mem (List.mem_filter.1 he').1)).1⟩
  unfold claimable at h
  have hsorted := g.sorted_pelFrom start
  have hstart : ∀ e ∈ g.pelFrom start, start ≤ e.id := fun e he => by
    simpa using (List.mem_filter.1 he).2
  obtain ⟨k, rfl⟩ := Nat.exists_eq_add_of_lt hcount
  cases hpel : g.pelFrom start with
  | nil =>
    rw [hpel] at he'
    cases he'
  | cons e rest =>
    rw [hpel] at h hsorted
    have hattempts : (0 + k + 1) * 10 = (k * 10 + 9) + 1 := by omega
    rw [hattempts] at h
    have hlt := lt_of_scan_next hsorted h
    exact lt_of_le_of_lt (hstart e (hpel ▸ List.mem_cons_self)) hlt

/-- If nothing has been acknowledged, every delivered entry from a cursor on is pending. -/
theorem map_id_pelFrom (hacked : g.group.acked = []) (start : ℕ) :
    (g.pelFrom start).map PendingEntry.id = List.range' start (g.group.delivered - start) := by
  refine (g.sorted_pelFrom start).eq_of_mem_iff List.pairwise_lt_range' fun id => ?_
  have hmem : id ∈ (g.pelFrom start).map PendingEntry.id ↔
      start ≤ id ∧ id ∈ g.pel.map PendingEntry.id := by
    simp only [pelFrom, List.mem_map, List.mem_filter, decide_eq_true_eq]
    constructor
    · rintro ⟨e, ⟨he, hle⟩, rfl⟩
      exact ⟨hle, e, he, rfl⟩
    · rintro ⟨hle, e, he, rfl⟩
      exact ⟨e, ⟨he, hle⟩, rfl⟩
  rw [hmem, g.mem_pel, ConsumerGroup.Pending, hacked, List.mem_range'_1]
  have hnil : id ∉ ([] : List ℕ) := List.not_mem_nil
  constructor
  · rintro ⟨hle, hlt, -⟩
    omega
  · rintro ⟨hle, hlt⟩
    exact ⟨hle, by omega, hnil⟩

/-- If nothing has been acknowledged or idle for long enough from the cursor on, the scan claims
nothing and goes on after the entries that it has examined. -/
theorem claimable_of_not_idle (hacked : g.group.acked = []) (hcount : 0 < count)
    (hidle : ∀ e ∈ g.pel, start ≤ e.id → now - e.deliveredAt < minIdle) :
    g.claimable now minIdle start count =
      ([], if start + count * 10 < g.group.delivered then some (start + count * 10) else none) := by
  obtain ⟨k, rfl⟩ := Nat.exists_eq_add_of_lt hcount
  have hscan : scan now minIdle ((0 + k + 1) * 10) (0 + k + 1) (g.pelFrom start) =
      ([], ((g.pelFrom start).drop ((0 + k + 1) * 10)).head?.map PendingEntry.id) :=
    scan_of_not_idle fun e he =>
      hidle e (List.mem_filter.1 he).1 (of_decide_eq_true (List.mem_filter.1 he).2)
  rw [claimable, hscan, ← List.head?_map, List.map_drop, map_id_pelFrom hacked, List.drop_range',
    List.head?_range', Nat.mul_one]
  refine congrArg (Prod.mk []) ?_
  split_ifs
  · omega
  · rfl
  · rfl
  · omega

/-- A scan that claims nothing changes nothing. -/
theorem pel_xautoclaim (consumer : ℕ) (h : (g.claimable now minIdle start count).1 = []) :
    (g.xautoclaim consumer now minIdle start count).pel = g.pel := by
  change (g.pel.map fun e => if e.id ∈ _ then _ else e) = g.pel
  refine (List.map_congr_left fun e _ => ?_).trans (List.map_id _)
  rw [h, if_neg List.not_mem_nil, id_eq]

/-- How many entries are pending from a cursor on. -/
def ahead (g : PendingGroup φ) (cursor : ℕ) : ℕ := (g.pelFrom cursor).length

/-- How many pending entries a scan examines: those from its cursor on up to the next one. -/
def examined (g : PendingGroup φ) (now minIdle : ℤ) (start count : ℕ) : ℕ :=
  g.ahead start - (g.claimable now minIdle start count).2.elim 0 g.ahead

/-- How many scans a consumer with the cursor `cursor` makes at most before it comes past the entry
`id`, if `more` entries are delivered before the next one, and then fewer than each scan
examines. -/
def distance (g : PendingGroup φ) (more id cursor : ℕ) : ℕ :=
  if cursor ≤ id then id - cursor else g.ahead cursor + more + 1 + id

/-- A later cursor has no more entries ahead of it. -/
theorem ahead_anti (g : PendingGroup φ) {cursor cursor' : ℕ} (h : cursor ≤ cursor') :
    g.ahead cursor' ≤ g.ahead cursor := by
  refine (List.monotone_filter_right g.pel fun e he => ?_).length_le
  exact decide_eq_true (h.trans (of_decide_eq_true he))

/-- Every pending entry is ahead of the start. -/
theorem ahead_le_length (g : PendingGroup φ) (cursor : ℕ) : g.ahead cursor ≤ g.pel.length :=
  List.length_filter_le _ _

/-- The distance is bounded by what is pending. -/
theorem distance_le_length (g : PendingGroup φ) (more id cursor : ℕ) :
    g.distance more id cursor ≤ g.pel.length + more + 1 + id := by
  have hle := g.ahead_le_length cursor
  unfold distance
  split_ifs
  · omega
  · omega

/-- Only what is delivered adds to the entries ahead of a cursor. -/
theorem ahead_le_of_extends {g' : PendingGroup φ} (h : g.group.Extends g'.group) (cursor : ℕ) :
    g'.ahead cursor ≤ g.ahead cursor + (g'.group.delivered - g.group.delivered) := by
  let fresh := List.range' g.group.delivered (g'.group.delivered - g.group.delivered)
  have hsubset : (g'.pelFrom cursor).map PendingEntry.id ⊆
      (g.pelFrom cursor).map PendingEntry.id ++ fresh := by
    intro id hid
    obtain ⟨e, he, rfl⟩ := List.mem_map.1 hid
    obtain ⟨hmem, hcursor⟩ := List.mem_filter.1 he
    obtain ⟨hlt, hacked⟩ := (g'.mem_pel e.id).1 (List.mem_map_of_mem hmem)
    rcases lt_or_ge e.id g.group.delivered with hold | hnew
    · -- What was delivered before was pending before.
      obtain ⟨e₀, he₀, hid₀⟩ := List.mem_map.1
        ((g.mem_pel e.id).2 ⟨hold, fun hin => hacked (h.acked _ hin)⟩)
      refine List.mem_append_left _ (List.mem_map.2 ⟨e₀, List.mem_filter.2 ⟨he₀, ?_⟩, hid₀⟩)
      rw [hid₀]
      exact hcursor
    · refine List.mem_append_right _ (List.mem_range'_1.2 ⟨hnew, ?_⟩)
      omega
  have hnodup : ((g'.pelFrom cursor).map PendingEntry.id).Nodup :=
    (g'.sorted_pelFrom cursor).imp fun hlt => hlt.ne
  have hle := (hnodup.subperm hsubset).length_le
  rw [List.length_append, List.length_map, List.length_map, List.length_range'] at hle
  exact hle

/-- What is delivered is taken from what is yet to be. -/
theorem distance_le_of_extends {g' : PendingGroup φ} (h : g.group.Extends g'.group) {more : ℕ}
    (hmore : g'.group.delivered - g.group.delivered ≤ more) (id cursor : ℕ) :
    g'.distance (more - (g'.group.delivered - g.group.delivered)) id cursor ≤
      g.distance more id cursor := by
  have hahead := ahead_le_of_extends h cursor
  unfold distance
  split_ifs
  · exact le_refl _
  · omega

/-- A scan that does not claim an entry which has been idle for long enough comes closer to it, if
it does not end beyond it or fewer entries are delivered then than it has examined. -/
theorem distance_lt {more more' : ℕ} (he : e ∈ g.pel) (hidle : minIdle ≤ now - e.deliveredAt)
    (hcount : 0 < count) (hnot : e.id ∉ (g.claimable now minIdle start count).1)
    (hmore : ∀ next, (g.claimable now minIdle start count).2 = some next → e.id < next →
      more' < g.examined now minIdle start count) :
    g.distance more' e.id ((g.claimable now minIdle start count).2.getD 0) <
      g.distance more e.id start := by
  by_cases hstart : start ≤ e.id
  · -- The scan ends before the entry.
    have hfrom : e ∈ g.pelFrom start := List.mem_filter.2 ⟨he, decide_eq_true hstart⟩
    obtain ⟨next, hle, hnext⟩ := exists_scan_next (g.sorted_pelFrom start) hfrom hidle hnot
    have hlt := (lt_of_claimable_next hcount hnext).1
    have hnext' : (g.claimable now minIdle start count).2 = some next := hnext
    rw [hnext', Option.getD_some, distance, distance, if_pos hle, if_pos hstart]
    omega
  · -- The entry is behind the cursor, which gets closer to the end of the list or back to its
    -- start.
    have hdistance : g.distance more e.id start = g.ahead start + more + 1 + e.id := if_neg hstart
    rw [hdistance]
    cases hnext : (g.claimable now minIdle start count).2 with
    | none =>
      rw [Option.getD_none, distance, if_pos (Nat.zero_le _)]
      omega
    | some next =>
      obtain ⟨hlt, hdelivered⟩ := lt_of_claimable_next hcount hnext
      have hfewer := hmore next hnext (by omega)
      have hahead := g.ahead_anti hlt.le
      unfold examined at hfewer
      rw [hnext, Option.elim_some] at hfewer
      rw [Option.getD_some, distance, if_neg (by omega)]
      omega

end PendingGroup

end MarketDataGateway.Lib
