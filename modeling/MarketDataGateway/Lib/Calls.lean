import MarketDataGateway.Lib.Transition

/-!
# Calls that tell listeners

A method of an object that tells its listeners something hands the control over to them. They
return, or throw, or call the object themselves, and the method goes on from the state that they
leave. `Call` is what is left of a call of a method, and `Calls` the object with the calls that are
under way, the innermost first.

Where the listeners do not call the object (`Unnested`), a property that each call keeps wherever it
tells them and where it returns (`Call.Keeps`) holds throughout (`Calls.kept_of_path`). Where they
do nothing but return (`Quiet`), the calls come to what they do in one step, which is `Call.run`
(`Calls.path_run`).
-/

namespace MarketDataGateway.Lib

variable {σ α : Type*}

/-- What is left of a call. -/
inductive Call (σ : Type*)
  /-- It has returned. -/
  | returned (s : σ)
  /-- It tells the listeners something, and goes on from the state that they leave. -/
  | telling (s : σ) (rest : σ → Call σ)

namespace Call

/-- What follows a call. -/
def bind (call : Call σ) (next : σ → Call σ) : Call σ :=
  match call with
  | returned s => next s
  | telling s rest => telling s fun t => (rest t).bind next

/-- The state in which a call returns, if the listeners leave each state as it is. -/
def run : Call σ → σ
  | returned s => s
  | telling s rest => (rest s).run

/-- The property holds wherever the listeners are told something, if they leave each state as it
is. -/
def Tells (p : σ → Prop) : Call σ → Prop
  | returned _ => True
  | telling s rest => p s ∧ (rest s).Tells p

/-- The property holds where the call returns, too. -/
def Keeps (p : σ → Prop) (call : Call σ) : Prop := call.Tells p ∧ p call.run

variable {call : Call σ} {next : σ → Call σ} {p q : σ → Prop} {s : σ}

/-- What has returned is the state that it returned. -/
@[simp] theorem run_returned (s : σ) : (returned s).run = s := rfl

/-- A call that tells goes on where the listeners leave it. -/
@[simp] theorem run_telling (s : σ) (rest : σ → Call σ) : (telling s rest).run = (rest s).run := rfl

/-- What has returned goes on with what comes next. -/
@[simp] theorem bind_returned (s : σ) (next : σ → Call σ) : (returned s).bind next = next s := rfl

/-- What has returned tells nothing more. -/
@[simp] theorem tells_returned (p : σ → Prop) (s : σ) : (returned s).Tells p := trivial

/-- A call tells its state, and what the rest of it tells. -/
@[simp] theorem tells_telling (p : σ → Prop) (s : σ) (rest : σ → Call σ) :
    (telling s rest).Tells p ↔ p s ∧ (rest s).Tells p := Iff.rfl

/-- What follows begins where the call returns. -/
@[simp] theorem run_bind (call : Call σ) (next : σ → Call σ) :
    (call.bind next).run = (next call.run).run := by
  induction call with
  | returned s => rfl
  | telling s rest ih => exact ih s

/-- What is told is told by the call, or by what follows. -/
@[simp] theorem tells_bind : (call.bind next).Tells p ↔ call.Tells p ∧ (next call.run).Tells p := by
  induction call with
  | returned s => exact ⟨fun h => ⟨trivial, h⟩, fun h => h.2⟩
  | telling s rest ih => exact (and_congr_right fun _ => ih s).trans and_assoc.symm

/-- A property that follows from another one holds where that one does. -/
theorem Tells.mono (h : call.Tells p) (hpq : ∀ s, p s → q s) : call.Tells q := by
  induction call with
  | returned s => trivial
  | telling s rest ih => exact ⟨hpq s h.1, ih s h.2⟩

/-- A property is kept by a call and what follows it, if the one keeps it and the other does
wherever the first has kept it. -/
theorem Keeps.bind (h : call.Keeps p) (hnext : p call.run → (next call.run).Keeps p) :
    (call.bind next).Keeps p := by
  obtain ⟨htells, hrun⟩ := hnext h.2
  refine ⟨tells_bind.2 ⟨h.1, htells⟩, ?_⟩
  rw [run_bind]
  exact hrun

/-- A call keeps what follows from what it keeps. -/
theorem Keeps.mono (h : call.Keeps p) (hpq : ∀ s, p s → q s) : call.Keeps q :=
  ⟨h.1.mono hpq, hpq _ h.2⟩

/-- Two properties that hold wherever the listeners are told something hold there together. -/
theorem Tells.and (hp : call.Tells p) (hq : call.Tells q) : call.Tells fun s => p s ∧ q s := by
  induction call with
  | returned s => trivial
  | telling s rest ih => exact ⟨⟨hp.1, hq.1⟩, ih s hp.2 hq.2⟩

/-- A call keeps two properties that it keeps one by one. -/
theorem Keeps.and (hp : call.Keeps p) (hq : call.Keeps q) : call.Keeps fun s => p s ∧ q s :=
  ⟨hp.1.and hq.1, hp.2, hq.2⟩

/-- A call keeps what holds of every state. -/
theorem keeps_of_forall (h : ∀ s, p s) : call.Keeps p := by
  refine ⟨?_, h _⟩
  induction call with
  | returned s => trivial
  | telling s rest ih => exact ⟨h s, ih s⟩

/-- What is left of a call that keeps a property keeps it. -/
theorem Keeps.rest {rest : σ → Call σ} (h : (telling s rest).Keeps p) : p s ∧ (rest s).Keeps p :=
  ⟨h.1.1, h.1.2, h.2⟩

end Call

/-- An object, and what is left of the calls whose listeners have the control. -/
structure Calls (σ : Type*) where
  /-- The object. -/
  state : σ
  /-- The calls under way, the innermost first. -/
  waiting : List (σ → Call σ)

/-- What happens next. -/
inductive CallLabel (α : Type*)
  /-- The object is called. -/
  | call (a : α)
  /-- The listeners return. -/
  | returns
  /-- A listener throws, and the call that told it something ends there. -/
  | throws

namespace Calls

/-- A call goes on until it returns or tells the listeners something. -/
def proceed (call : Call σ) (waiting : List (σ → Call σ)) : Calls σ :=
  match call with
  | .returned s => ⟨s, waiting⟩
  | .telling s rest => ⟨s, rest :: waiting⟩

/-- The steps of an object with its listeners. -/
def step (method : σ → α → Option (Call σ)) (c : Calls σ) : CallLabel α → Option (Calls σ)
  | .call a => (method c.state a).map fun call => proceed call c.waiting
  | .returns =>
    match c.waiting with
    | [] => none
    | rest :: waiting => some (proceed (rest c.state) waiting)
  | .throws =>
    match c.waiting with
    | [] => none
    | _ :: waiting => some ⟨c.state, waiting⟩

/-- The listeners do not call the object. -/
def Unnested (c : Calls σ) : CallLabel α → Prop
  | .call _ => c.waiting = []
  | .returns => True
  | .throws => True

/-- The listeners return, and do not call the object. -/
def Quiet (c : Calls σ) : CallLabel α → Prop
  | .call _ => c.waiting = []
  | .returns => True
  | .throws => False

instance (c : Calls σ) (a : CallLabel α) : Decidable (Unnested c a) :=
  match a with
  | .call _ => inferInstanceAs (Decidable (c.waiting = []))
  | .returns => instDecidableTrue
  | .throws => instDecidableTrue

instance (c : Calls σ) (a : CallLabel α) : Decidable (Quiet c a) :=
  match a with
  | .call _ => inferInstanceAs (Decidable (c.waiting = []))
  | .returns => instDecidableTrue
  | .throws => instDecidableFalse

/-- The property holds of the object, and is kept by what is left of the call under way, if there is
one. -/
def Kept (p : σ → Prop) (c : Calls σ) : Prop :=
  p c.state ∧ (c.waiting = [] ∨ ∃ rest, c.waiting = [rest] ∧ (rest c.state).Keeps p)

variable {method : σ → α → Option (Call σ)} {p q : σ → Prop} {c c' : Calls σ}
  {s s₀ : σ} {a : CallLabel α}
  {ok : Calls σ → CallLabel α → Prop}

/-- A call that keeps a property is under way. -/
theorem kept_proceed {call : Call σ} (h : call.Keeps p) : Kept p (proceed call []) := by
  cases call with
  | returned s => exact ⟨h.2, Or.inl rfl⟩
  | telling s rest => exact ⟨h.rest.1, Or.inr ⟨rest, rfl, h.rest.2⟩⟩

/-- Whatever the listeners do but calling the object, what the calls keep is kept. -/
theorem Kept.step (hmethod : ∀ b call, a = .call b → p c.state →
    method c.state b = some call → call.Keeps p)
    (h : Kept p c) (hunnested : Unnested c a) (hstep : c.step method a = some c') : Kept p c' := by
  obtain ⟨s, waiting⟩ := c
  obtain ⟨hp, hwaiting⟩ := h
  cases a with
  | call b =>
    obtain rfl : waiting = [] := hunnested
    obtain ⟨call, hcall, rfl⟩ := Option.map_eq_some_iff.1 hstep
    exact kept_proceed (hmethod b call rfl hp hcall)
  | returns =>
    rcases hwaiting with hnone | ⟨rest, hrest, hkeeps⟩
    · obtain rfl : waiting = [] := hnone
      cases hstep
    · obtain rfl : waiting = [rest] := hrest
      obtain rfl := Option.some.inj hstep
      exact kept_proceed hkeeps
  | throws =>
    rcases hwaiting with hnone | ⟨rest, hrest, -⟩
    · obtain rfl : waiting = [] := hnone
      cases hstep
    · obtain rfl : waiting = [rest] := hrest
      obtain rfl := Option.some.inj hstep
      exact ⟨hp, Or.inl rfl⟩

/-- What each call of some kind keeps is kept for as long as there are calls of that kind only. -/
theorem Kept.path {ok : α → Prop}
    (hmethod : ∀ s b call, ok b → p s → method s b = some call → call.Keeps p)
    (h : Kept p c) (hpath : Path (Calls.step method) (fun c a => Unnested c a ∧ ∀ b,
    a = .call b → ok b) c c') :
    Kept p c' :=
  hpath.invariant (Kept p) h fun c _ _ hkept hok hstep =>
    hkept.step (fun b call hb => hmethod c.state b call (hok.2 b hb)) hok.1 hstep

/-- What each call keeps holds in every run in which the listeners do not call the object. -/
theorem kept_of_path (hmethod : ∀ s b call, p s → method s b = some call → call.Keeps p) (h0 : p s₀)
    (h : Path (step method) Unnested ⟨s₀, []⟩ c) : Kept p c :=
  h.invariant (Kept p) ⟨h0, Or.inl rfl⟩ fun c _ _ hkept hok hstep =>
    hkept.step (fun b call _ => hmethod c.state b call) hok hstep

/-- The second property holds when no call is under way, and the first one wherever a call that
comes to the second tells something. -/
def Leads (p q : σ → Prop) (c : Calls σ) : Prop :=
  c.waiting = [] ∧ q c.state ∨
    ∃ rest, c.waiting = [rest] ∧ p c.state ∧ (rest c.state).Tells p ∧ q (rest c.state).run

/-- A call is under way that comes to the second property. -/
theorem leads_proceed {call : Call σ} (h : call.Tells p ∧ q call.run) :
    Leads p q (proceed call []) := by
  cases call with
  | returned s => exact Or.inl ⟨rfl, h.2⟩
  | telling s rest => exact Or.inr ⟨rest, rfl, h.1.1, h.1.2, h.2⟩

/-- What the calls come to from each other holds between them, if it does where a listener
throws. -/
theorem Leads.step (hmethod : ∀ b call, a = .call b → q c.state →
    method c.state b = some call → call.Tells p ∧ q call.run)
    (hthrows : a = .throws → p c.state → q c.state)
    (h : Leads p q c) (hunnested : Unnested c a) (hstep : c.step method a = some c') :
    Leads p q c' := by
  obtain ⟨s, waiting⟩ := c
  cases a with
  | call b =>
    obtain rfl : waiting = [] := hunnested
    obtain ⟨call, hcall, rfl⟩ := Option.map_eq_some_iff.1 hstep
    rcases h with ⟨-, hq⟩ | ⟨rest, hrest, -⟩
    · exact leads_proceed (hmethod b call rfl hq hcall)
    · cases hrest
  | returns =>
    rcases h with ⟨hnone, -⟩ | ⟨rest, hrest, -, hleads⟩
    · obtain rfl : waiting = [] := hnone
      cases hstep
    · obtain rfl : waiting = [rest] := hrest
      obtain rfl := Option.some.inj hstep
      exact leads_proceed hleads
  | throws =>
    rcases h with ⟨hnone, -⟩ | ⟨rest, hrest, hp, -⟩
    · obtain rfl : waiting = [] := hnone
      cases hstep
    · obtain rfl : waiting = [rest] := hrest
      obtain rfl := Option.some.inj hstep
      exact Or.inl ⟨rfl, hthrows rfl hp⟩

/-- The second property holds whenever no call is under way. -/
theorem Leads.done (h : Leads p q c) (hdone : c.waiting = []) : q c.state := by
  rcases h with ⟨-, hq⟩ | ⟨rest, hrest, -⟩
  · exact hq
  · rw [hdone] at hrest
    cases hrest

/-- Listeners that return do not call the object. -/
theorem Quiet.unnested (h : Quiet c a) : Unnested c a := by
  cases a with
  | call => exact h
  | returns => trivial
  | throws => trivial

/-- The calls of an object whose listeners do nothing but return are steps. -/
theorem path_run (h : Path (step method) Quiet ⟨s₀, []⟩ c) (hdone : c.waiting = []) :
    Path (fun s a => (method s a).map Call.run) anyStep s₀ c.state := by
  let runs := fun s a => (method s a).map Call.run
  let Led := Leads (fun _ => True) (Path runs anyStep s₀)
  have hled : Led c :=
    h.invariant Led (Or.inl ⟨rfl, .refl⟩) fun c a c' hled hquiet hstep =>
      hled.step (fun b call _ hpath hcall => ⟨(Call.keeps_of_forall fun _ => trivial).1,
        hpath.tail b trivial (congrArg (Option.map Call.run) hcall)⟩)
        (fun hthrows _ => (hthrows ▸ hquiet : Quiet c .throws).elim) hquiet.unnested hstep
  exact hled.done hdone

end Calls

end MarketDataGateway.Lib
