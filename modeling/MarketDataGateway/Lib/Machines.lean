import Mathlib.Data.List.Basic

/-!
# Machines with an output

A machine is a step function `step : σ → α → σ × β`, from a state and an input to the next state and
an output. `final` and `outputs` are what it comes to and what it gives on a list of inputs, and
`outputsOf` are the outputs for the inputs of one kind. `outputs_eq` and `outputsOf_eq` are the
rules by which two machines are compared: a relation of their states that each step keeps.
-/

namespace MarketDataGateway.Lib

variable {σ τ α β γ : Type*}

/-- The state after the inputs. -/
def final (step : σ → α → σ × β) (s : σ) (inputs : List α) : σ :=
  inputs.foldl (fun s a => (step s a).1) s

/-- The outputs for the inputs. -/
def outputs (step : σ → α → σ × β) : σ → List α → List β
  | _, [] => []
  | s, a :: inputs => (step s a).2 :: outputs step (step s a).1 inputs

/-- The outputs for the inputs of one kind. -/
def outputsOf (step : σ → α → σ × β) (kind : α → Bool) : σ → List α → List β
  | _, [] => []
  | s, a :: inputs =>
    if kind a then (step s a).2 :: outputsOf step kind (step s a).1 inputs
    else outputsOf step kind (step s a).1 inputs

section Lemmas

variable {step : σ → α → σ × β} {step' : τ → α → τ × β} {kind : α → Bool} {s : σ} {t : τ} {a : α}
  {inputs inputs' : List α}

/-- No inputs leave the state. -/
@[simp] theorem final_nil : final step s [] = s := rfl

/-- The first input comes first. -/
@[simp] theorem final_cons : final step s (a :: inputs) = final step (step s a).1 inputs := rfl

/-- No inputs have no outputs. -/
@[simp] theorem outputs_nil : outputs step s [] = [] := rfl

/-- The first output comes first. -/
@[simp] theorem outputs_cons :
    outputs step s (a :: inputs) = (step s a).2 :: outputs step (step s a).1 inputs := rfl

/-- Inputs after each other are run one list after the other. -/
theorem final_append :
    final step s (inputs ++ inputs') = final step (final step s inputs) inputs' :=
  List.foldl_append

/-- The last input comes last. -/
theorem final_concat : final step s (inputs ++ [a]) = (step (final step s inputs) a).1 :=
  final_append

/-- Inputs after each other have the outputs of each. -/
theorem outputs_append :
    outputs step s (inputs ++ inputs') =
      outputs step s inputs ++ outputs step (final step s inputs) inputs' := by
  induction inputs generalizing s with
  | nil => rfl
  | cons a inputs ih =>
    rw [List.cons_append, outputs_cons, outputs_cons, final_cons, ih, List.cons_append]

/-- The last output comes last. -/
theorem outputs_concat :
    outputs step s (inputs ++ [a]) = outputs step s inputs ++ [(step (final step s inputs) a).2] :=
  outputs_append

/-- States that are related, by a relation that every step keeps, give the same outputs. -/
theorem outputs_eq (r : σ → τ → Prop)
    (hstep : ∀ s t a, r s t → (step s a).2 = (step' t a).2 ∧ r (step s a).1 (step' t a).1)
    (inputs : List α) (h : r s t) :
    outputs step s inputs = outputs step' t inputs ∧ r (final step s inputs)
    (final step' t inputs) := by
  induction inputs generalizing s t with
  | nil => exact ⟨rfl, h⟩
  | cons a inputs ih =>
    obtain ⟨houtput, hnext⟩ := hstep s t a h
    obtain ⟨houtputs, hfinal⟩ := ih hnext
    exact ⟨by rw [outputs_cons, outputs_cons, houtput, houtputs], hfinal⟩

/-- Inputs that are not of the kind play no part in the outputs for those that are, if the machine
that does not see them stays related. `ok` is what the run has to stay within: it holds of a state
if it holds of a later one. -/
theorem outputsOf_eq (r : σ → τ → Prop) (ok : σ → Prop) (hback : ∀ s a, ok (step s a).1 → ok s)
    (hkind : ∀ s t a, kind a = true → a ∈ inputs → ok (step s a).1 → r s t →
      (step s a).2 = (step' t a).2 ∧ r (step s a).1 (step' t a).1)
    (hother : ∀ s t a, kind a = false → a ∈ inputs → ok (step s a).1 → r s t → r (step s a).1 t)
    (hok : ok (final step s inputs)) (h : r s t) :
    outputsOf step kind s inputs = outputs step' t (inputs.filter kind) := by
  induction inputs generalizing s t with
  | nil => rfl
  | cons a inputs ih =>
    have hnow : ok (step s a).1 := by
      clear ih hkind hother h
      rw [final_cons] at hok
      generalize (step s a).1 = s' at hok ⊢
      induction inputs generalizing s' with
      | nil => exact hok
      | cons b inputs ih => exact hback s' b (ih (step s' b).1 hok)
    have ih' := fun (s : σ) (t : τ) => @ih s t
      (fun s t b hb hmem => hkind s t b hb (List.mem_cons_of_mem a hmem))
      (fun s t b hb hmem => hother s t b hb (List.mem_cons_of_mem a hmem))
    rw [outputsOf, List.filter_cons]
    cases hk : kind a with
    | true =>
      obtain ⟨houtput, hnext⟩ := hkind s t a hk List.mem_cons_self hnow h
      rw [if_pos rfl, if_pos rfl, outputs_cons, houtput, ih' _ _ hok hnext]
    | false =>
      have hnext := hother s t a hk List.mem_cons_self hnow h
      rw [if_neg Bool.false_ne_true, if_neg Bool.false_ne_true, ih' _ _ hok hnext]

end Lemmas

end MarketDataGateway.Lib
