import Mathlib.Data.List.Induction

/-!
# Hash chains

Each record of a chain names the link of the record before it, the first one a link to start from,
and the head is the link of the last one. Chains with the same head have the same records
(`Chained.unique`), if different records have different links and none has the one to start from.
-/

namespace MarketDataGateway.Lib

variable {ρ η : Type*} {prev link : ρ → η} {start head : η} {r : ρ} {rs rs' : List ρ}

/-- The records are a chain from `start` to `head`. -/
def Chained (prev link : ρ → η) (start : η) : List ρ → η → Prop
  | [], head => head = start
  | r :: rs, head => prev r = start ∧ Chained prev link (link r) rs head

/-- A chain of two lists is a chain of each. -/
theorem chained_append : Chained prev link start (rs ++ rs') head ↔
    ∃ mid, Chained prev link start rs mid ∧ Chained prev link mid rs' head := by
  induction rs generalizing start with
  | nil => exact ⟨fun h => ⟨start, rfl, h⟩, fun ⟨mid, hmid, h⟩ => hmid ▸ h⟩
  | cons r rs ih =>
    rw [List.cons_append, Chained, ih]
    constructor
    · rintro ⟨hprev, mid, hrs, hrs'⟩
      exact ⟨mid, ⟨hprev, hrs⟩, hrs'⟩
    · rintro ⟨mid, ⟨hprev, hrs⟩, hrs'⟩
      exact ⟨hprev, mid, hrs, hrs'⟩

/-- The last record decides the head, and what the chain before it has as its head. -/
theorem chained_concat : Chained prev link start (rs ++ [r]) head ↔
    Chained prev link start rs (prev r) ∧ head = link r := by
  rw [chained_append]
  constructor
  · rintro ⟨mid, hrs, hprev, hhead⟩
    exact ⟨hprev ▸ hrs, hhead⟩
  · rintro ⟨hrs, hhead⟩
    exact ⟨prev r, hrs, rfl, hhead⟩

/-- Chains with the same head are the same. -/
theorem Chained.unique (h : Chained prev link start rs head)
    (h' : Chained prev link start rs' head)
    (hinj : ∀ r ∈ rs, ∀ r' ∈ rs', link r = link r' → r = r')
    (hstart : ∀ r ∈ rs ++ rs', link r ≠ start) : rs = rs' := by
  induction rs using List.reverseRecOn generalizing rs' head with
  | nil =>
    -- A chain without records ends where it starts, and no record links there.
    obtain rfl : head = start := h
    rcases List.eq_nil_or_concat rs' with rfl | ⟨rs', r', rfl⟩
    · rfl
    · rw [List.concat_eq_append] at h' hstart
      obtain ⟨-, hlink⟩ := chained_concat.1 h'
      exact absurd hlink.symm (hstart r' (by simp))
  | append_singleton rs r ih =>
    obtain ⟨hrs, hhead⟩ := chained_concat.1 h
    rcases List.eq_nil_or_concat rs' with rfl | ⟨rs', r', rfl⟩
    · obtain rfl : head = start := h'
      exact absurd hhead.symm (hstart r (by simp))
    · rw [List.concat_eq_append] at h' hinj hstart ⊢
      obtain ⟨hrs', hhead'⟩ := chained_concat.1 h'
      -- The last records have the same link, hence are the same and name the same head before.
      have hlast : r = r' := hinj r (by simp) r' (by simp) (hhead.symm.trans hhead')
      have hbefore : rs = rs' := by
        refine ih hrs (hlast ▸ hrs') (fun s hs s' hs' => ?_) (fun s hs => ?_)
        · exact hinj s (List.mem_append_left _ hs) s' (List.mem_append_left _ hs')
        · exact hstart s (by simp only [List.mem_append] at hs ⊢; tauto)
      rw [hbefore, hlast]

end MarketDataGateway.Lib
