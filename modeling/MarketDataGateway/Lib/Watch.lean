import Mathlib.Logic.Function.Basic
import Mathlib.Order.Basic
import Mathlib.Data.Nat.Basic

/-!
# Optimistic transactions on watched keys

A store whose keys carry modification counters. A client that watches a key remembers the counter,
reads the value, computes, and writes back only if the counter is still the same; `Snapshot` is
what the client remembers. The invariant that makes the pattern work is `Snapshot.Valid`: while the
counter is the one remembered, the value is the one read. It is established by a read that comes
after the watch (`Snapshot.valid_of_read`) and kept by every write, of the same key or another
(`Snapshot.Valid.put`), and by the loss of keys (`Snapshot.Valid.retain`). So a write back that
passes the check applies to the current value (`Snapshot.Valid.read_eq`).
-/

namespace MarketDataGateway.Lib

/-- Keys with an optional value and a modification counter each. -/
structure WatchedStore (κ ν : Type*) where
  /-- The value of a key, if it exists. -/
  value : κ → Option ν
  /-- How often the key has been modified. -/
  version : κ → ℕ

namespace WatchedStore

variable {κ ν : Type*}

/-- The store with no key. -/
def empty : WatchedStore κ ν := ⟨fun _ => none, fun _ => 0⟩

/-- Writes `v` at the key `k`. -/
def put [DecidableEq κ] (st : WatchedStore κ ν) (k : κ) (v : ν) : WatchedStore κ ν where
  value := Function.update st.value k (some v)
  version := Function.update st.version k (st.version k + 1)

/-- Drops the keys whose value does not satisfy `p`, which modifies them. -/
def retain (st : WatchedStore κ ν) (p : ν → Bool) : WatchedStore κ ν where
  value k := (st.value k).filter p
  version k := if (st.value k).filter p = none ∧ (st.value k).isSome then st.version k + 1
    else st.version k

variable {st : WatchedStore κ ν} {k k' : κ} {v : ν} {p : ν → Bool}

/-- The value that is put is found. -/
@[simp] theorem put_value [DecidableEq κ] : (st.put k v).value k = some v := by
  simp [put]

/-- A value that is put leaves those of the other keys. -/
theorem put_value_of_ne [DecidableEq κ] (h : k' ≠ k) : (st.put k v).value k' = st.value k' := by
  simp [put, h]

/-- Versions do not decrease when a value is put. -/
theorem version_le_put [DecidableEq κ] : st.version k' ≤ (st.put k v).version k' := by
  by_cases h : k' = k
  · subst h
    simp [put]
  · simp [put, h]

/-- Versions do not decrease when keys are dropped. -/
theorem version_le_retain : st.version k ≤ (st.retain p).version k := by
  unfold retain
  dsimp only
  split_ifs <;> omega

/-- What is left after dropping keys was there before. -/
theorem value_of_retain {w : ν} (h : (st.retain p).value k = some w) :
    st.value k = some w ∧ p w := by
  simpa [retain, Option.filter_eq_some_iff] using h

/-- A key whose value satisfies `p` stays. -/
theorem retain_value_of_pos {w : ν} (h : st.value k = some w) (hp : p w) :
    (st.retain p).value k = some w := by
  simp [retain, h, hp]

end WatchedStore

/-- What a client that watches a key remembers: the counter when it began to watch, and the value
that it then read. -/
structure Snapshot (κ ν : Type*) where
  /-- The watched key. -/
  key : κ
  /-- The key's counter when the watch began. -/
  version : ℕ
  /-- The value read after the watch began. -/
  read : Option ν

namespace Snapshot

variable {κ ν : Type*} {st : WatchedStore κ ν} {sn : Snapshot κ ν}

/-- While the key's counter is the one remembered, its value is the one read. -/
def Valid (st : WatchedStore κ ν) (sn : Snapshot κ ν) : Prop :=
  sn.version ≤ st.version sn.key ∧
    (sn.version = st.version sn.key → sn.read = st.value sn.key)

/-- A value read after the watch began makes a valid snapshot. -/
theorem valid_of_read (k : κ) (ver : ℕ) (h : ver ≤ st.version k) :
    Valid st ⟨k, ver, st.value k⟩ := ⟨h, fun _ => rfl⟩

/-- When the check of the counter passes, the value read is the current one. -/
theorem Valid.read_eq (h : sn.Valid st) (hv : sn.version = st.version sn.key) :
    sn.read = st.value sn.key := h.2 hv

/-- A write keeps snapshots valid: one of the written key no longer passes the check. -/
theorem Valid.put [DecidableEq κ] (h : sn.Valid st) (k : κ) (v : ν) : sn.Valid (st.put k v) := by
  refine ⟨h.1.trans WatchedStore.version_le_put, fun hv => ?_⟩
  by_cases hk : sn.key = k
  · subst hk
    have hle := h.1
    simp only [WatchedStore.put, Function.update_self] at hv
    omega
  · rw [WatchedStore.put_value_of_ne hk]
    apply h.2
    simpa [WatchedStore.put, hk] using hv

/-- The loss of keys keeps snapshots valid: one of a lost key no longer passes the check. -/
theorem Valid.retain (h : sn.Valid st) (p : ν → Bool) : sn.Valid (st.retain p) := by
  refine ⟨h.1.trans WatchedStore.version_le_retain, fun hv => ?_⟩
  have hle := h.1
  dsimp only [WatchedStore.retain] at hv ⊢
  cases hval : st.value sn.key with
  | none =>
    have hver : sn.version = st.version sn.key := by simpa [hval] using hv
    rw [h.2 hver, hval]
    rfl
  | some w =>
    by_cases hp : p w
    · have hver : sn.version = st.version sn.key := by simpa [hval, hp] using hv
      rw [h.2 hver, hval]
      simp only [Option.filter, hp, if_true]
    · have hver : sn.version = st.version sn.key + 1 := by simpa [hval, hp] using hv
      omega

end Snapshot

end MarketDataGateway.Lib
