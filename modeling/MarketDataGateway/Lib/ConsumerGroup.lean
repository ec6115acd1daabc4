import Mathlib.Data.List.Basic
import Mathlib.Data.List.Nodup
import Mathlib.Order.Basic
import Mathlib.Algebra.Order.Group.Nat

/-!
# Streams with a consumer group

An append-only stream whose entries are delivered to a group one time each, in order, and stay
pending until they are acknowledged. An entry's position is its id. Which consumer has an entry is
up to the consumers; the group knows how far it has delivered and what has been acknowledged, and
the pending entries are the difference (`Pending`). That only delivered entries are acknowledged is
a field of the structure.
-/

namespace MarketDataGateway.Lib

/-- A stream and the state of its consumer group. -/
structure ConsumerGroup (φ : Type*) where
  /-- The fields of the entries, by id. -/
  entries : List φ
  /-- How many entries have been delivered. -/
  delivered : ℕ
  /-- The ids that have been acknowledged. -/
  acked : List ℕ
  /-- Entries are delivered from the start of the stream. -/
  delivered_le : delivered ≤ entries.length
  /-- Only delivered entries are acknowledged. -/
  acked_lt : ∀ id ∈ acked, id < delivered

namespace ConsumerGroup

variable {φ : Type*} (g : ConsumerGroup φ)

/-- No entry. -/
def empty : ConsumerGroup φ := ⟨[], 0, [], le_refl _, fun _ h => absurd h List.not_mem_nil⟩

/-- The entry is delivered and not acknowledged. -/
def Pending (id : ℕ) : Prop := id < g.delivered ∧ id ∉ g.acked

instance (id : ℕ) : Decidable (g.Pending id) := inferInstanceAs (Decidable (_ ∧ _))

/-- `XADD`. -/
def xadd (fields : φ) : ConsumerGroup φ where
  entries := g.entries ++ [fields]
  delivered := g.delivered
  acked := g.acked
  delivered_le := by
    have := g.delivered_le
    rw [List.length_append]
    omega
  acked_lt := g.acked_lt

/-- The entries that the next `XREADGROUP` of `>` delivers: at most `count` new ones. -/
def fresh (count : ℕ) : List (ℕ × φ) :=
  (((g.entries.drop g.delivered).take count).zipIdx g.delivered).map Prod.swap

/-- `XREADGROUP` of `>`. -/
def xreadgroup (count : ℕ) : ConsumerGroup φ where
  entries := g.entries
  delivered := g.delivered + (g.fresh count).length
  acked := g.acked
  delivered_le := by
    have := g.delivered_le
    simp only [fresh, List.length_map, List.length_zipIdx, List.length_take, List.length_drop]
    omega
  acked_lt id hid := (g.acked_lt id hid).trans_le (Nat.le_add_right _ _)

/-- `XACK`, which changes nothing unless the entry is pending. -/
def xack (id : ℕ) : ConsumerGroup φ where
  entries := g.entries
  delivered := g.delivered
  acked := if g.Pending id then id :: g.acked else g.acked
  delivered_le := g.delivered_le
  acked_lt id' hid := by
    split_ifs at hid with hpending
    · rcases List.mem_cons.1 hid with rfl | hid
      · exact hpending.1
      · exact g.acked_lt id' hid
    · exact g.acked_lt id' hid

/-- The entries that have been delivered, in stream order. -/
def deliveredEntries : List φ := g.entries.take g.delivered

/-- The entries that have not been delivered. -/
def undelivered : List φ := g.entries.drop g.delivered

variable {g} {count id id' : ℕ} {fields : φ}

/-- A new entry is not delivered. -/
@[simp] theorem xadd_delivered (fields : φ) : (g.xadd fields).delivered = g.delivered := rfl

/-- A new entry is not acknowledged. -/
@[simp] theorem xadd_acked (fields : φ) : (g.xadd fields).acked = g.acked := rfl

/-- To read from the group leaves the entries. -/
@[simp] theorem xreadgroup_entries (count : ℕ) : (g.xreadgroup count).entries = g.entries := rfl

/-- To read from the group acknowledges nothing. -/
@[simp] theorem xreadgroup_acked (count : ℕ) : (g.xreadgroup count).acked = g.acked := rfl

/-- To acknowledge leaves the entries. -/
@[simp] theorem xack_entries (id : ℕ) : (g.xack id).entries = g.entries := rfl

/-- To acknowledge delivers nothing. -/
@[simp] theorem xack_delivered (id : ℕ) : (g.xack id).delivered = g.delivered := rfl

/-- An entry keeps its fields when others join. -/
theorem entries_xadd_of_some (h : g.entries[id]? = some fields) (fields' : φ) :
    (g.xadd fields').entries[id]? = some fields := by
  obtain ⟨hlt, -⟩ := List.getElem?_eq_some_iff.1 h
  change (g.entries ++ [fields'])[id]? = some fields
  rw [List.getElem?_append_left hlt]
  exact h

/-- The new entries are those of the stream from the first one that is not delivered. -/
theorem mem_fresh : (id, fields) ∈ g.fresh count ↔
    g.delivered ≤ id ∧ id < g.delivered + count ∧ g.entries[id]? = some fields := by
  have hswap : (id, fields) ∈ g.fresh count ↔
      (fields, id) ∈ ((g.entries.drop g.delivered).take count).zipIdx g.delivered := by
    simp [fresh]
  rw [hswap, List.mk_mem_zipIdx_iff_le_and_getElem?_sub]
  constructor
  · rintro ⟨hle, hget⟩
    rw [List.getElem?_take] at hget
    split_ifs at hget with hlt
    rw [List.getElem?_drop, Nat.add_sub_cancel' hle] at hget
    exact ⟨hle, by omega, hget⟩
  · rintro ⟨hle, hlt, hget⟩
    refine ⟨hle, ?_⟩
    rw [List.getElem?_take, if_pos (by omega), List.getElem?_drop, Nat.add_sub_cancel' hle]
    exact hget

/-- How many entries are new. -/
theorem length_fresh (g : ConsumerGroup φ) (count : ℕ) :
    (g.fresh count).length = min count (g.entries.length - g.delivered) := by
  simp [fresh]

/-- A delivered entry was delivered before, or is new. -/
theorem lt_delivered_xreadgroup : id < (g.xreadgroup count).delivered ↔
    id < g.delivered ∨ id ∈ (g.fresh count).map Prod.fst := by
  change id < g.delivered + (g.fresh count).length ↔ _
  rw [length_fresh]
  constructor
  · intro h
    rcases lt_or_ge id g.delivered with hlt | hge
    · exact Or.inl hlt
    · right
      have hin : id < g.entries.length := by omega
      refine List.mem_map.2 ⟨(id, g.entries[id]), mem_fresh.2 ⟨hge, by omega, ?_⟩, rfl⟩
      exact List.getElem?_eq_getElem hin
  · rintro (hlt | hnew)
    · omega
    · obtain ⟨⟨_, fields⟩, hfresh, rfl⟩ := List.mem_map.1 hnew
      obtain ⟨hle, hlt, hentry⟩ := mem_fresh.1 hfresh
      obtain ⟨hin, -⟩ := List.getElem?_eq_some_iff.1 hentry
      dsimp only
      omega

/-- The new entries are in stream order. -/
theorem pairwise_fresh : ((g.fresh count).map Prod.fst).Pairwise (· < ·) := by
  have hsnd : Prod.fst ∘ Prod.swap = (Prod.snd : φ × ℕ → ℕ) := rfl
  rw [fresh, List.map_map, hsnd, List.zipIdx_map_snd]
  exact List.pairwise_lt_range'

/-- What is pending after `XREADGROUP`: what was, and what is new. -/
theorem pending_xreadgroup :
    (g.xreadgroup count).Pending id ↔ g.Pending id ∨ id ∈ (g.fresh count).map Prod.fst := by
  unfold Pending
  rw [lt_delivered_xreadgroup, xreadgroup_acked]
  constructor
  · rintro ⟨hlt | hnew, hacked⟩
    · exact Or.inl ⟨hlt, hacked⟩
    · exact Or.inr hnew
  · rintro (⟨hlt, hacked⟩ | hnew)
    · exact ⟨Or.inl hlt, hacked⟩
    · refine ⟨Or.inr hnew, fun hacked => ?_⟩
      obtain ⟨⟨_, fields⟩, hfresh, rfl⟩ := List.mem_map.1 hnew
      exact absurd (g.acked_lt _ hacked) (not_lt.2 (mem_fresh.1 hfresh).1)

/-- The new entries are the first ones that have not been delivered. -/
theorem map_fresh (g : ConsumerGroup φ) (count : ℕ) :
    (g.fresh count).map Prod.snd = g.undelivered.take count := by
  have hfst : Prod.snd ∘ Prod.swap = (Prod.fst : φ × ℕ → φ) := rfl
  rw [fresh, List.map_map, hfst, List.zipIdx_map_fst, undelivered]

/-- They are a part of those. -/
theorem map_fresh_eq_take (g : ConsumerGroup φ) (count : ℕ) :
    (g.fresh count).map Prod.snd = g.undelivered.take (g.fresh count).length := by
  have hlen : (g.fresh count).length = (g.undelivered.take count).length := by
    rw [← map_fresh, List.length_map]
  rw [hlen, map_fresh]
  exact List.prefix_iff_eq_take.1 (List.take_prefix count _)

/-- The new entries come after those that have been delivered. -/
theorem deliveredEntries_xreadgroup (g : ConsumerGroup φ) (count : ℕ) :
    (g.xreadgroup count).deliveredEntries = g.deliveredEntries ++ (g.fresh count).map Prod.snd := by
  change g.entries.take (g.delivered + (g.fresh count).length) = _
  rw [map_fresh_eq_take, List.take_add]
  rfl

/-- The new entries come before those that stay undelivered. -/
theorem undelivered_xreadgroup (g : ConsumerGroup φ) (count : ℕ) :
    g.undelivered = (g.fresh count).map Prod.snd ++ (g.xreadgroup count).undelivered := by
  change _ = _ ++ g.entries.drop (g.delivered + (g.fresh count).length)
  rw [map_fresh_eq_take, ← List.drop_drop]
  exact (List.take_append_drop _ _).symm

/-- A new entry is the last one not delivered. -/
@[simp] theorem undelivered_xadd (g : ConsumerGroup φ) (fields : φ) :
    (g.xadd fields).undelivered = g.undelivered ++ [fields] :=
  List.drop_append_of_le_length g.delivered_le

/-- The entries are those delivered and those that are not. -/
theorem deliveredEntries_append_undelivered (g : ConsumerGroup φ) :
    g.deliveredEntries ++ g.undelivered = g.entries := List.take_append_drop _ _

/-- An entry that joins has not been delivered. -/
@[simp] theorem deliveredEntries_xadd (g : ConsumerGroup φ) (fields : φ) :
    (g.xadd fields).deliveredEntries = g.deliveredEntries :=
  List.take_append_of_le_length g.delivered_le

/-- What is acknowledged after `XACK`. -/
theorem mem_acked_xack : id' ∈ (g.xack id).acked ↔ id' ∈ g.acked ∨ id' = id ∧ id < g.delivered := by
  change id' ∈ (if g.Pending id then id :: g.acked else g.acked) ↔ _
  split_ifs with hpending
  · rw [List.mem_cons]
    constructor
    · rintro (rfl | hid)
      · exact Or.inr ⟨rfl, hpending.1⟩
      · exact Or.inl hid
    · rintro (hid | ⟨rfl, -⟩)
      · exact Or.inr hid
      · exact Or.inl rfl
  · refine ⟨Or.inl, ?_⟩
    rintro (hid | ⟨rfl, hlt⟩)
    · exact hid
    · by_contra hnot
      exact hpending ⟨hlt, hnot⟩

/-- What is pending after `XACK`. -/
theorem pending_xack : (g.xack id).Pending id' ↔ g.Pending id' ∧ id' ≠ id := by
  unfold Pending
  rw [xack_delivered, mem_acked_xack]
  constructor
  · rintro ⟨hlt, hacked⟩
    refine ⟨⟨hlt, fun hin => hacked (Or.inl hin)⟩, ?_⟩
    rintro rfl
    exact hacked (Or.inr ⟨rfl, hlt⟩)
  · rintro ⟨⟨hlt, hacked⟩, hne⟩
    refine ⟨hlt, ?_⟩
    rintro (hin | ⟨heq, -⟩)
    · exact hacked hin
    · exact hne heq

/-! ## What is not undone -/

/-- `g'` comes after `g`: no entry changes, and what has been delivered or acknowledged stays so. -/
structure Extends (g g' : ConsumerGroup φ) : Prop where
  entries : ∀ (id : ℕ) (fields : φ), g.entries[id]? = some fields → g'.entries[id]? = some fields
  delivered : g.delivered ≤ g'.delivered
  acked : ∀ id ∈ g.acked, id ∈ g'.acked

/-- A group extends itself. -/
theorem Extends.refl (g : ConsumerGroup φ) : g.Extends g :=
  ⟨fun _ _ h => h, le_refl _, fun _ h => h⟩

/-- A new entry extends the group. -/
theorem extends_xadd (g : ConsumerGroup φ) (fields : φ) : g.Extends (g.xadd fields) :=
  ⟨fun _ _ h => entries_xadd_of_some h fields, le_refl _, fun _ h => h⟩

/-- To read extends the group. -/
theorem extends_xreadgroup (g : ConsumerGroup φ) (count : ℕ) : g.Extends (g.xreadgroup count) :=
  ⟨fun _ _ h => h, Nat.le_add_right _ _, fun _ h => h⟩

/-- To acknowledge extends the group. -/
theorem extends_xack (g : ConsumerGroup φ) (id : ℕ) : g.Extends (g.xack id) :=
  ⟨fun _ _ h => h, le_refl _, fun _ h => mem_acked_xack.2 (Or.inl h)⟩

/-- The entries are in the stream and have been delivered. -/
def Delivered (g : ConsumerGroup φ) (batch : List (ℕ × φ)) : Prop :=
  ∀ p ∈ batch, p.1 < g.delivered ∧ g.entries[p.1]? = some p.2

variable {g' : ConsumerGroup φ} {batch : List (ℕ × φ)}

/-- What has been delivered stays delivered. -/
theorem Delivered.mono (h : g.Delivered batch) (hg : g.Extends g') : g'.Delivered batch := by
  intro p hp
  obtain ⟨hlt, hentry⟩ := h p hp
  exact ⟨hlt.trans_le hg.delivered, hg.entries _ _ hentry⟩

/-- What is new has been delivered after `XREADGROUP`. -/
theorem delivered_fresh (g : ConsumerGroup φ) (count : ℕ) :
    (g.xreadgroup count).Delivered (g.fresh count) := by
  intro p hp
  obtain ⟨-, -, hentry⟩ := mem_fresh.1 hp
  exact ⟨lt_delivered_xreadgroup.2 (Or.inr (List.mem_map_of_mem hp)), hentry⟩

end ConsumerGroup

end MarketDataGateway.Lib
