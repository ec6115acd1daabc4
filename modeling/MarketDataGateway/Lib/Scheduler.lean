import Mathlib.Data.List.Basic
import Mathlib.Data.Rat.Defs
import Mathlib.Logic.Function.Basic

/-!
# Timers

`setTimeout` and `clearTimeout`. A timer that is set has a handle of its own, and is armed until it
is cleared or goes off. What a handle stands for is `callback`, by which the operations are
described. The delays are kept, and play no part in the order in which timers go off.

An object that keeps the handles of its timers in fields is `TimerFields`. The fields agree with
what is armed if no armed timer has been forgotten (`Agrees`). Then `armed`, what the timer of each
field would call, says all there is to say, and each operation changes it at one field.
-/

namespace MarketDataGateway.Lib

/-- A timer that is armed. -/
structure Armed (τ : Type*) where
  handle : ℕ
  callback : τ
  delay : ℚ

/-- The timers that are armed, and the number of those that have been set. -/
structure Scheduler (τ : Type*) where
  armed : List (Armed τ)
  count : ℕ
  /-- No handle is given out twice. -/
  fresh : ∀ a ∈ armed, a.handle < count

namespace Scheduler

variable {τ : Type*} {sch : Scheduler τ} {h h' : ℕ} {c : τ} {d : ℚ}

/-- No timer has been set. -/
def empty : Scheduler τ := ⟨[], 0, fun _ ha => nomatch ha⟩

/-- `setTimeout`. The handle is `sch.count`. -/
def setTimeout (sch : Scheduler τ) (c : τ) (d : ℚ) : Scheduler τ where
  armed := ⟨sch.count, c, d⟩ :: sch.armed
  count := sch.count + 1
  fresh := by
    intro a ha
    rcases List.mem_cons.1 ha with rfl | ha
    · exact Nat.lt_succ_self _
    · exact (sch.fresh a ha).trans (Nat.lt_succ_self _)

/-- `clearTimeout`. -/
def clearTimeout (sch : Scheduler τ) (h : ℕ) : Scheduler τ where
  armed := sch.armed.filter (·.handle ≠ h)
  count := sch.count
  fresh a ha := sch.fresh a (List.mem_of_mem_filter ha)

/-- What is called when the timer of a handle goes off. -/
def callback (sch : Scheduler τ) (h : ℕ) : Option τ :=
  (sch.armed.find? (·.handle = h)).map Armed.callback

/-- The timer that has been set last, and the ones before. -/
theorem callback_setTimeout :
    (sch.setTimeout c d).callback h = if h = sch.count then some c else sch.callback h := by
  unfold callback setTimeout
  rw [List.find?_cons]
  by_cases heq : h = sch.count
  · rw [if_pos heq, heq, decide_eq_true rfl]
    rfl
  · rw [if_neg heq, decide_eq_false fun hc => heq hc.symm]

/-- A timer that has been cleared is not armed. -/
theorem callback_clearTimeout :
    (sch.clearTimeout h).callback h' = if h' = h then none else sch.callback h' := by
  unfold callback clearTimeout
  rw [List.find?_filter]
  by_cases heq : h' = h
  · rw [if_pos heq, Option.map_eq_none_iff, List.find?_eq_none]
    intro a _
    simp only [decide_eq_true_eq, not_and]
    omega
  · rw [if_neg heq]
    congr 2
    funext a
    by_cases hah : a.handle = h'
    · simp [hah, heq]
    · simp [hah]

/-- The handle that is given out next is not armed. -/
theorem callback_count : sch.callback sch.count = none := by
  unfold callback
  have hnone : sch.armed.find? (fun a => decide (a.handle = sch.count)) = none := by
    refine List.find?_eq_none.2 fun a ha => ?_
    have hlt := sch.fresh a ha
    simp only [decide_eq_true_eq]
    omega
  rw [hnone]
  rfl

end Scheduler

/-! ## Timers in fields -/

/-- Timers whose handles are kept in fields. -/
structure TimerFields (κ τ : Type*) where
  scheduler : Scheduler τ
  field : κ → Option ℕ

namespace TimerFields

variable {κ τ : Type*} [DecidableEq κ] {f : TimerFields κ τ} {k k' : κ} {h : ℕ} {c : τ}
  {d : ℚ} {kind : τ → κ}

/-- No timer has been set. -/
def empty : TimerFields κ τ := ⟨.empty, fun _ => none⟩

/-- Clear the timer of a field, if it holds one. -/
def clear (f : TimerFields κ τ) (k : κ) : TimerFields κ τ :=
  match f.field k with
  | none => f
  | some h => ⟨f.scheduler.clearTimeout h, Function.update f.field k none⟩

/-- Set a timer, and keep its handle in a field. -/
def assign (f : TimerFields κ τ) (k : κ) (c : τ) (d : ℚ) : TimerFields κ τ :=
  ⟨f.scheduler.setTimeout c d, Function.update f.field k (some f.scheduler.count)⟩

/-- A timer goes off, and its callback empties a field. -/
def goOff (f : TimerFields κ τ) (h : ℕ) (k : κ) : TimerFields κ τ :=
  ⟨f.scheduler.clearTimeout h, Function.update f.field k none⟩

/-- What the timer of a field calls, if it is armed. -/
def armed (f : TimerFields κ τ) (k : κ) : Option τ := (f.field k).bind f.scheduler.callback

/-- Each field holds the one armed timer of its kind, or none is armed. -/
structure Agrees (kind : τ → κ) (f : TimerFields κ τ) : Prop where
  kept : ∀ h c, f.scheduler.callback h = some c → f.field (kind c) = some h
  armed : ∀ k h, f.field k = some h → ∃ c, f.scheduler.callback h = some c ∧ kind c = k

omit [DecidableEq κ] in
/-- Fields without timers agree. -/
theorem agrees_empty : (empty : TimerFields κ τ).Agrees kind :=
  ⟨(fun _ _ h => nomatch h), fun _ _ h => nomatch h⟩

omit [DecidableEq κ] in
/-- A field is empty where nothing is armed. -/
theorem Agrees.field_eq_none_iff (hf : f.Agrees kind) : f.field k = none ↔ f.armed k = none := by
  constructor
  · intro h
    unfold TimerFields.armed
    rw [h]
    rfl
  · intro h
    by_contra hne
    obtain ⟨n, hn⟩ := Option.ne_none_iff_exists'.1 hne
    obtain ⟨c, hc, -⟩ := hf.armed k n hn
    unfold TimerFields.armed at h
    rw [hn, Option.bind_some, hc] at h
    exact nomatch h

omit [DecidableEq κ] in
/-- A timer that is armed is the one of its field. -/
theorem Agrees.armed_of_callback {n : ℕ} (hf : f.Agrees kind)
    (h : f.scheduler.callback n = some c) :
    f.armed (kind c) = some c := by
  unfold TimerFields.armed
  rw [hf.kept n c h]
  exact h

omit [DecidableEq κ] in
/-- No two timers of one kind are armed. -/
theorem Agrees.unique {n n' : ℕ} {c' : τ} (hf : f.Agrees kind) (h : f.scheduler.callback n = some c)
    (h' : f.scheduler.callback n' = some c') (hkind : kind c = kind c') : n = n' := by
  have hfield := hf.kept n c h
  rw [hkind, hf.kept n' c' h'] at hfield
  exact (Option.some.inj hfield).symm

/-- When a timer goes off, its field is empty, and the others are as they were. -/
theorem Agrees.goOff {n : ℕ} (hf : f.Agrees kind) (h : f.scheduler.callback n = some c) :
    (f.goOff n (kind c)).Agrees kind ∧
      ∀ k, (f.goOff n (kind c)).armed k = if k = kind c then none else f.armed k := by
  have hfield := hf.kept n c h
  refine ⟨⟨fun n' c' hc' => ?_, fun k n' hn' => ?_⟩, fun k => ?_⟩
  · have hc' : (f.scheduler.clearTimeout n).callback n' = some c' := hc'
    rw [Scheduler.callback_clearTimeout] at hc'
    split_ifs at hc' with hne
    have hkept := hf.kept n' c' hc'
    -- A callback of the same kind would be in the same field.
    have hkind : kind c' ≠ kind c := by
      intro heq
      rw [heq, hfield] at hkept
      exact hne (Option.some.inj hkept).symm
    show Function.update f.field (kind c) none (kind c') = some n'
    rw [Function.update_of_ne hkind]
    exact hkept
  · have hn' : Function.update f.field (kind c) none k = some n' := hn'
    -- The field of the kind is empty by now.
    have hk : k ≠ kind c := by
      rintro rfl
      rw [Function.update_self] at hn'
      exact nomatch hn'
    rw [Function.update_of_ne hk] at hn'
    obtain ⟨c', hc', hkind⟩ := hf.armed k n' hn'
    refine ⟨c', ?_, hkind⟩
    show (f.scheduler.clearTimeout n).callback n' = some c'
    have hne : n' ≠ n := by
      rintro rfl
      rw [h] at hc'
      exact hk (Option.some.inj hc' ▸ hkind).symm
    rw [Scheduler.callback_clearTimeout, if_neg hne]
    exact hc'
  · show (Function.update f.field (kind c) none k).bind (f.scheduler.clearTimeout n).callback = _
    split_ifs with hk
    · rw [hk, Function.update_self]
      rfl
    · rw [Function.update_of_ne hk]
      show (f.field k).bind _ = (f.field k).bind _
      -- What the other fields hold is not the timer that has gone off.
      refine Option.bind_congr fun n' hn' => ?_
      have hne : n' ≠ n := by
        rintro rfl
        obtain ⟨c', hc', hkind⟩ := hf.armed k n' hn'
        rw [h] at hc'
        exact hk (Option.some.inj hc' ▸ hkind).symm
      rw [Scheduler.callback_clearTimeout, if_neg hne]

/-- When the timer of a field is cleared, the field is empty, and the others are as they were. -/
theorem Agrees.clear (hf : f.Agrees kind) (k : κ) :
    (f.clear k).Agrees kind ∧ ∀ k', (f.clear k).armed k' = if k' = k then none else f.armed k' := by
  unfold TimerFields.clear
  split
  · rename_i hnone
    refine ⟨hf, fun k' => ?_⟩
    split_ifs with heq
    · rw [heq]
      exact hf.field_eq_none_iff.1 hnone
    · rfl
  · rename_i n hn
    obtain ⟨c, hc, rfl⟩ := hf.armed k n hn
    exact hf.goOff hc

/-- When a timer is set and its field was empty, the field holds it, and the others are as they
were. -/
theorem Agrees.assign (hf : f.Agrees kind) (h : f.armed (kind c) = none) (d : ℚ) :
    (f.assign (kind c) c d).Agrees kind ∧
      ∀ k, (f.assign (kind c) c d).armed k = if k = kind c then some c else f.armed k := by
  have hfield := hf.field_eq_none_iff.2 h
  refine ⟨⟨fun n c' hc' => ?_, fun k n hn => ?_⟩, fun k => ?_⟩
  · -- A callback that is armed is in the field of its kind.
    have hc' : (f.scheduler.setTimeout c d).callback n = some c' := hc'
    show Function.update f.field (kind c) _ (kind c') = some n
    rw [Scheduler.callback_setTimeout] at hc'
    split_ifs at hc' with hnew
    · rw [← Option.some.inj hc', Function.update_self, hnew]
    · have hkept := hf.kept n c' hc'
      have hkind : kind c' ≠ kind c := by
        intro heq
        rw [heq, hfield] at hkept
        exact nomatch hkept
      rw [Function.update_of_ne hkind]
      exact hkept
  · -- What a field holds is armed, for a callback of its kind.
    have hn : Function.update f.field (kind c) (some f.scheduler.count) k = some n := hn
    show ∃ c', (f.scheduler.setTimeout c d).callback n = some c' ∧ _
    by_cases hk : k = kind c
    · rw [hk, Function.update_self] at hn
      refine ⟨c, ?_, hk.symm⟩
      rw [Scheduler.callback_setTimeout, if_pos (Option.some.inj hn).symm]
    · rw [Function.update_of_ne hk] at hn
      obtain ⟨c', hc', hkind⟩ := hf.armed k n hn
      refine ⟨c', ?_, hkind⟩
      have hne : n ≠ f.scheduler.count := by
        rintro rfl
        rw [Scheduler.callback_count] at hc'
        exact nomatch hc'
      rw [Scheduler.callback_setTimeout, if_neg hne]
      exact hc'
  · -- The new handle is not one of those before.
    show (Function.update f.field (kind c) (some f.scheduler.count) k).bind
      (f.scheduler.setTimeout c d).callback = _
    split_ifs with hk
    · rw [hk, Function.update_self, Option.bind_some, Scheduler.callback_setTimeout, if_pos rfl]
    · rw [Function.update_of_ne hk]
      show (f.field k).bind _ = (f.field k).bind _
      refine Option.bind_congr fun n hn => ?_
      have hne : n ≠ f.scheduler.count := by
        rintro rfl
        obtain ⟨c', hc', -⟩ := hf.armed k _ hn
        rw [Scheduler.callback_count] at hc'
        exact nomatch hc'
      rw [Scheduler.callback_setTimeout, if_neg hne]

/-- When the timers of some fields are cleared, these are empty, and the others are as they were. -/
theorem Agrees.foldl_clear (hf : f.Agrees kind) (ks : List κ) :
    (ks.foldl TimerFields.clear f).Agrees kind ∧
      ∀ k, (ks.foldl TimerFields.clear f).armed k = if k ∈ ks then none else f.armed k := by
  induction ks generalizing f with
  | nil => exact ⟨hf, fun k => (if_neg List.not_mem_nil).symm⟩
  | cons k₀ ks ih =>
    obtain ⟨hagrees, harmed⟩ := ih (hf.clear k₀).1
    refine ⟨hagrees, fun k => ?_⟩
    rw [List.foldl_cons, harmed, (hf.clear k₀).2]
    by_cases hk : k ∈ ks
    · rw [if_pos hk, if_pos (List.mem_cons_of_mem k₀ hk)]
    · rw [if_neg hk]
      simp only [List.mem_cons, hk, or_false]

/-- A timer is set when others have been cleared. -/
theorem Agrees.clear_assign (hf : f.Agrees kind) (ks : List κ) (c : τ) (d : ℚ)
    (h : kind c ∈ ks ∨ f.armed (kind c) = none) :
    ((ks.foldl TimerFields.clear f).assign (kind c) c d).Agrees kind ∧
      ∀ k, ((ks.foldl TimerFields.clear f).assign (kind c) c d).armed k =
        if k = kind c then some c else if k ∈ ks then none else f.armed k := by
  obtain ⟨hcleared, harmed⟩ := hf.foldl_clear ks
  have hnone : (ks.foldl TimerFields.clear f).armed (kind c) = none := by
    rw [harmed]
    split_ifs with hmem
    · rfl
    · exact h.resolve_left hmem
  obtain ⟨hagrees, hassigned⟩ := hcleared.assign hnone d
  refine ⟨hagrees, fun k => ?_⟩
  rw [hassigned, harmed]

end TimerFields

end MarketDataGateway.Lib
