import Mathlib.Order.Basic

/-!
# Runs of a labelled transition system

A system is a partial step function `step : σ → α → Option σ`: the label resolves every choice of
the environment (which party moves, what fails, how far the clock advances), and `none` means that
the label is not enabled. `Path step ok s t` says that `t` is reached from `s` by steps that all
satisfy the side condition `ok`, which is how a property of the runs that meet a condition is
stated. `Path.invariant` is the induction over runs, and `exec` runs a list of labels, so that a
concrete run can be evaluated.
-/

namespace MarketDataGateway.Lib

variable {σ α : Type*}

/-- The states reached from `s` by steps that satisfy `ok`. -/
inductive Path (step : σ → α → Option σ) (ok : σ → α → Prop) (s : σ) : σ → Prop
  /-- No step. -/
  | refl : Path step ok s s
  /-- One more step, by the label `a`. -/
  | tail {t u : σ} (a : α) : Path step ok s t → ok t a → step t a = some u → Path step ok s u

/-- The side condition of unrestricted runs. -/
abbrev anyStep : σ → α → Prop := fun _ _ => True

variable {step : σ → α → Option σ} {ok ok' : σ → α → Prop} {s t u : σ}

/-- A property that every admitted step preserves holds at the end of a run that starts with it. -/
theorem Path.invariant (inv : σ → Prop) (h : Path step ok s t) (h0 : inv s)
    (hstep : ∀ t a u, inv t → ok t a → step t a = some u → inv u) : inv t := by
  induction h with
  | refl => exact h0
  | tail a _ hok hs ih => exact hstep _ a _ ih hok hs

/-- Runs compose. -/
theorem Path.trans (h : Path step ok s t) (h' : Path step ok t u) : Path step ok s u := by
  induction h' with
  | refl => exact h
  | tail a _ hok hs ih => exact ih.tail a hok hs

/-- A run under a condition is a run under any weaker one. -/
theorem Path.mono (hok : ∀ s a, ok s a → ok' s a) (h : Path step ok s t) : Path step ok' s t := by
  induction h with
  | refl => exact .refl
  | tail a _ ho hs ih => exact ih.tail a (hok _ _ ho) hs

/-- A run under a condition that, where an invariant of the run holds, implies another one is a run
under the other one. -/
theorem Path.of_invariant (inv : σ → Prop) (h : Path step ok s t) (h0 : inv s)
    (hstep : ∀ t a u, inv t → ok t a → step t a = some u → inv u)
    (hok : ∀ t a, inv t → ok t a → ok' t a) : Path step ok' s t ∧ inv t := by
  induction h with
  | refl => exact ⟨.refl, h0⟩
  | tail a _ ho hs ih =>
    obtain ⟨hpath, hinv⟩ := ih
    exact ⟨hpath.tail a (hok _ _ hinv ho) hs, hstep _ a _ hinv ho hs⟩

/-- The state after a list of labels, when each of them is admitted and enabled in turn. -/
def exec (step : σ → α → Option σ) (ok : σ → α → Prop) [∀ s a, Decidable (ok s a)] (s : σ) :
    List α → Option σ
  | [] => some s
  | a :: as => if ok s a then (step s a).bind fun t => exec step ok t as else none

/-- A list of labels that executes is a run. -/
theorem Path.of_exec [∀ s a, Decidable (ok s a)] {as : List α}
    (h : exec step ok s as = some t) : Path step ok s t := by
  induction as generalizing s with
  | nil =>
    obtain rfl : s = t := by simpa [exec] using h
    exact .refl
  | cons a as ih =>
    rw [exec] at h
    split_ifs at h with hok
    obtain ⟨u, hu, hrest⟩ := Option.bind_eq_some_iff.1 h
    exact (Path.refl.tail a hok hu).trans (ih hrest)

/-- A list of labels that executes to a state with a property gives a run to such a state. -/
theorem Path.exists_of_exec (step : σ → α → Option σ) (ok : σ → α → Prop)
    [∀ s a, Decidable (ok s a)] (s : σ) (as : List α) (p : σ → Prop) [DecidablePred p]
    (h : ((exec step ok s as).any fun t => p t) = true) :
    ∃ t, Path step ok s t ∧ p t := by
  cases hexec : exec step ok s as with
  | none =>
    rw [hexec] at h
    exact absurd h Bool.false_ne_true
  | some t =>
    rw [hexec] at h
    exact ⟨t, Path.of_exec hexec, of_decide_eq_true h⟩

end MarketDataGateway.Lib
