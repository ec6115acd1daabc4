import Mathlib.Data.List.Forall2

/-!
# Loops that stop at the first fault

`x >>= f` in `Except` succeeds, or fails, as `bind_eq_ok` and `bind_eq_error` say, and a loop of
such steps fails at the first element whose step does: `mapM_eq_error` and `foldlM_eq_error` give
that element with the ones before it.

`runAll f s l` is a loop whose steps also change a state. What the steps have done to it stays when
one of them fails.

`forEach f s l` is such a loop whose steps return nothing. If each step takes in what it reads up to
a fault, the loop takes in the values before the first fault of all that is read (`forEach_eq`).
-/

namespace MarketDataGateway.Lib

variable {ε α β σ : Type} {e : ε}

/-- The first element of a list that is not fine is bad. -/
def FirstIs (fine bad : α → Prop) (l : List α) : Prop :=
  ∃ before x after, l = before ++ x :: after ∧ (∀ y ∈ before, fine y) ∧ bad x

/-- There is no first one among none. -/
theorem not_firstIs_nil {fine bad : α → Prop} : ¬ FirstIs fine bad [] := by
  rintro ⟨before, x, after, h, -⟩
  exact absurd h (by simp)

/-- The first one is at the front, or after fine ones. -/
theorem firstIs_cons {fine bad : α → Prop} {x : α} {l : List α} :
    FirstIs fine bad (x :: l) ↔ bad x ∨ fine x ∧ FirstIs fine bad l := by
  constructor
  · rintro ⟨before, y, after, h, hfine, hbad⟩
    cases before with
    | nil =>
      obtain ⟨rfl, rfl⟩ := List.cons.inj h
      exact Or.inl hbad
    | cons z before =>
      obtain ⟨rfl, rfl⟩ := List.cons.inj h
      obtain ⟨hz, hfine⟩ := List.forall_mem_cons.1 hfine
      exact Or.inr ⟨hz, before, y, after, rfl, hfine, hbad⟩
  · rintro (hbad | ⟨hx, before, y, after, rfl, hfine, hbad⟩)
    · exact ⟨[], x, l, rfl, by simp, hbad⟩
    · exact ⟨x :: before, y, after, rfl, List.forall_mem_cons.2 ⟨hx, hfine⟩, hbad⟩

/-- The first one is in the first list, or after fine ones only in the second. -/
theorem firstIs_append {fine bad : α → Prop} {l m : List α} :
    FirstIs fine bad (l ++ m) ↔ FirstIs fine bad l ∨ (∀ x ∈ l, fine x) ∧ FirstIs fine bad m := by
  induction l with
  | nil =>
    rw [List.nil_append, or_iff_right not_firstIs_nil]
    exact ⟨fun h => ⟨fun _ hx => absurd hx List.not_mem_nil, h⟩, And.right⟩
  | cons x l ih =>
    rw [List.cons_append, firstIs_cons, firstIs_cons, List.forall_mem_cons, ih]
    tauto

/-- In the lists of a list, the first element that is not fine is in the first list that has one. -/
theorem firstIs_flatMap {fine bad : β → Prop} {g : α → List β} {l : List α} :
    FirstIs fine bad (l.flatMap g) ↔
      FirstIs (fun x => ∀ y ∈ g x, fine y) (fun x => FirstIs fine bad (g x)) l := by
  induction l with
  | nil => exact iff_of_false not_firstIs_nil not_firstIs_nil
  | cons x l ih => rw [List.flatMap_cons, firstIs_append, firstIs_cons, ih]

/-- The first of the images is the image of the first. -/
theorem firstIs_map {fine bad : β → Prop} {g : α → β} {l : List α} :
    FirstIs fine bad (l.map g) ↔ FirstIs (fun x => fine (g x)) (fun x => bad (g x)) l := by
  induction l with
  | nil => exact iff_of_false not_firstIs_nil not_firstIs_nil
  | cons x l ih => rw [List.map_cons, firstIs_cons, firstIs_cons, ih]

/-- Which one is the first depends on what is fine and what is bad only. -/
theorem firstIs_congr {fine bad fine' bad' : α → Prop} {l : List α}
    (hfine : ∀ x ∈ l, fine x ↔ fine' x)
    (hbad : ∀ x ∈ l, bad x ↔ bad' x) : FirstIs fine bad l ↔ FirstIs fine' bad' l := by
  induction l with
  | nil => exact iff_of_false not_firstIs_nil not_firstIs_nil
  | cons x l ih =>
    obtain ⟨hx, hfine⟩ := List.forall_mem_cons.1 hfine
    obtain ⟨hx', hbad⟩ := List.forall_mem_cons.1 hbad
    rw [firstIs_cons, firstIs_cons, hx, hx', ih hfine hbad]

/-- The computation fails with an error of the kind. -/
def FailsWith (p : ε → Prop) (x : Except ε α) : Prop := ∃ e, x = .error e ∧ p e

/-- A failure fails with what its fault is. -/
theorem failsWith_error {p : ε → Prop} : FailsWith p (.error e : Except ε α) ↔ p e := by
  simp only [FailsWith, Except.error.injEq, exists_eq_left']

/-- A success does not fail. -/
theorem not_failsWith_ok {p : ε → Prop} {a : α} : ¬FailsWith p (.ok a : Except ε α) := by
  rintro ⟨e, h, -⟩
  cases h

section Bind

variable {x : Except ε α} {f : α → Except ε β} {b : β}

/-- Steps after each other succeed if each one does. -/
theorem bind_eq_ok : (x >>= f) = .ok b ↔ ∃ a, x = .ok a ∧ f a = .ok b := by
  cases x with
  | error e' =>
    constructor
    · intro h
      cases h
    · rintro ⟨_, h, _⟩
      cases h
  | ok a =>
    constructor
    · exact fun h => ⟨a, rfl, h⟩
    · rintro ⟨a', h, hf⟩
      rwa [← Except.ok.inj h] at hf

/-- Steps after each other fail if the first one does, or the second one after it. -/
theorem bind_eq_error : (x >>= f) = .error e ↔ x = .error e ∨ ∃ a, x = .ok a ∧ f a = .error e := by
  cases x with
  | error e' =>
    constructor
    · intro h
      exact Or.inl (congrArg Except.error (Except.error.inj h))
    · rintro (h | ⟨_, h, _⟩)
      · exact congrArg Except.error (Except.error.inj h)
      · cases h
  | ok a =>
    constructor
    · exact fun h => Or.inr ⟨a, rfl, h⟩
    · rintro (h | ⟨a', h, hf⟩)
      · cases h
      · rwa [← Except.ok.inj h] at hf

/-- A computation with a state has succeeded if its result says so. -/
theorem exists_of_isOk {x : Except ε α × σ} (h : x.1.isOk = true) : ∃ a s, x = (.ok a, s) := by
  obtain ⟨result, s⟩ := x
  cases result with
  | ok a => exact ⟨a, s, rfl⟩
  | error e => cases h

/-- A step that does not succeed fails, with some fault. -/
theorem exists_of_not_isOk {x : Except ε α × σ} (h : x.1.isOk = false) :
    ∃ e, x = (.error e, x.2) := by
  obtain ⟨result, s⟩ := x
  cases result with
  | ok a => cases h
  | error e => exact ⟨e, rfl⟩

end Bind

section Related

variable {r : α → β → Prop} {l : List α} {ys : List β} {x : α} {y : β}

/-- An element of a list has a partner in a related list. -/
theorem exists_right_of_forall₂ (h : List.Forall₂ r l ys) (hx : x ∈ l) : ∃ y ∈ ys, r x y := by
  induction h with
  | nil => exact absurd hx List.not_mem_nil
  | cons hr _ ih =>
    rcases List.mem_cons.1 hx with rfl | hx
    · exact ⟨_, List.mem_cons_self, hr⟩
    · obtain ⟨y, hy, hxy⟩ := ih hx
      exact ⟨y, List.mem_cons_of_mem _ hy, hxy⟩

/-- What is at a place on the right has what is at this place on the left. -/
theorem exists_left_of_forall₂ (h : List.Forall₂ r l ys) (hy : y ∈ ys) : ∃ x ∈ l, r x y :=
  exists_right_of_forall₂ (r := fun y x => r x y) h.flip hy

/-- Functions that agree on partners give the same lists. -/
theorem map_eq_of_forall₂ {γ : Type} {f : α → γ} {g : β → γ} (h : List.Forall₂ r l ys)
    (hfg : ∀ x ∈ l, ∀ y, r x y → f x = g y) : l.map f = ys.map g := by
  induction h with
  | nil => rfl
  | cons hr _ ih =>
    rw [List.map_cons, List.map_cons, hfg _ List.mem_cons_self _ hr,
      ih fun x hx => hfg x (List.mem_cons_of_mem _ hx)]

end Related

section Pure

variable {f : α → Except ε β} {g : σ → α → Except ε σ} {s t : σ} {l : List α} {ys : List β}

/-- A loop that collects results returns those of its elements. -/
theorem mapM_eq_ok : l.mapM f = .ok ys ↔ List.Forall₂ (fun x y => f x = .ok y) l ys := by
  induction l generalizing ys with
  | nil =>
    rw [List.mapM_nil, List.forall₂_nil_left_iff]
    constructor
    · exact fun h => (Except.ok.inj h).symm
    · exact fun h => congrArg Except.ok h.symm
  | cons x l ih =>
    rw [List.mapM_cons, List.forall₂_cons_left_iff, bind_eq_ok]
    constructor
    · rintro ⟨y, hy, hrest⟩
      obtain ⟨ys', hys', hpure⟩ := bind_eq_ok.1 hrest
      exact ⟨y, ys', hy, ih.1 hys', (Except.ok.inj hpure).symm⟩
    · rintro ⟨y, ys', hy, hys', rfl⟩
      exact ⟨y, hy, bind_eq_ok.2 ⟨ys', ih.2 hys', rfl⟩⟩

/-- It fails at the first element that fails. -/
theorem mapM_eq_error : l.mapM f = .error e ↔
    ∃ pre x post ys, l = pre ++ x :: post ∧ pre.mapM f = .ok ys ∧ f x = .error e := by
  induction l with
  | nil =>
    constructor
    · exact fun h => nomatch h
    · rintro ⟨pre, x, post, -, h, -⟩
      exact absurd h (by simp)
  | cons x l ih =>
    rw [List.mapM_cons, bind_eq_error]
    constructor
    · -- Either the first element fails, or one of the rest does.
      rintro (h | ⟨y, hy, hrest⟩)
      · exact ⟨[], x, l, [], rfl, rfl, h⟩
      · rcases bind_eq_error.1 hrest with hrest | ⟨ys, -, hpure⟩
        · obtain ⟨pre, z, post, ys, rfl, hpre, hz⟩ := ih.1 hrest
          refine ⟨x :: pre, z, post, y :: ys, rfl, ?_, hz⟩
          rw [List.mapM_cons]
          exact bind_eq_ok.2 ⟨y, hy, bind_eq_ok.2 ⟨ys, hpre, rfl⟩⟩
        · cases hpure
    · rintro ⟨pre, z, post, ys, hl, hpre, hz⟩
      cases pre with
      | nil =>
        obtain ⟨rfl, rfl⟩ := List.cons.inj hl
        exact Or.inl hz
      | cons w pre =>
        obtain ⟨rfl, rfl⟩ := List.cons.inj hl
        rw [List.mapM_cons] at hpre
        obtain ⟨y, hy, hrest⟩ := bind_eq_ok.1 hpre
        obtain ⟨ys', hys', -⟩ := bind_eq_ok.1 hrest
        have hrest := ih.2 ⟨pre, z, post, ys', rfl, hys', hz⟩
        exact Or.inr ⟨y, hy, bind_eq_error.2 (Or.inl hrest)⟩

/-- It succeeds exactly if it does for all elements. -/
theorem mapM_isOk : (∃ ys, l.mapM f = .ok ys) ↔ ∀ x ∈ l, ∃ y, f x = .ok y := by
  induction l with
  | nil => exact iff_of_true ⟨[], rfl⟩ (by simp)
  | cons x l ih =>
    rw [List.forall_mem_cons, ← ih, List.mapM_cons]
    simp only [bind_eq_ok]
    constructor
    · rintro ⟨_, y, hy, ys, hys, -⟩
      exact ⟨⟨y, hy⟩, ys, hys⟩
    · rintro ⟨⟨y, hy⟩, ys, hys⟩
      exact ⟨y :: ys, y, hy, ys, hys, rfl⟩

/-- The kind of its error is that of the first element that fails. -/
theorem failsWith_mapM {p : ε → Prop} : FailsWith p (l.mapM f) ↔
    FirstIs (fun x => ∃ y, f x = .ok y) (fun x => FailsWith p (f x)) l := by
  constructor
  · rintro ⟨e, h, he⟩
    obtain ⟨pre, x, post, ys, rfl, hpre, hx⟩ := mapM_eq_error.1 h
    exact ⟨pre, x, post, rfl, mapM_isOk.1 ⟨ys, hpre⟩, e, hx, he⟩
  · rintro ⟨pre, x, post, rfl, hpre, e, hx, he⟩
    obtain ⟨ys, hys⟩ := mapM_isOk.2 hpre
    exact ⟨e, mapM_eq_error.2 ⟨pre, x, post, ys, rfl, hys, hx⟩, he⟩

/-- A nested loop that collects results returns those of the elements of all its lists. -/
theorem mapM_flatten_eq_ok {γ : Type} {k : α → Except ε (List β)}
    {g : β → Except ε γ} {zs : List γ} :
    (∃ zss, l.mapM (fun x => k x >>= fun ys => ys.mapM g) = .ok zss ∧ zss.flatten = zs) ↔
      ∃ yss, l.mapM k = .ok yss ∧ yss.flatten.mapM g = .ok zs := by
  induction l generalizing zs with
  | nil =>
    simp only [List.mapM_nil]
    constructor
    · rintro ⟨zss, h, rfl⟩
      rw [← Except.ok.inj h]
      exact ⟨[], rfl, rfl⟩
    · rintro ⟨yss, h, hzs⟩
      rw [← Except.ok.inj h] at hzs
      exact ⟨[], rfl, Except.ok.inj hzs⟩
  | cons x l ih =>
    -- The results of the first list are followed by those of the others.
    simp only [List.mapM_cons, bind_eq_ok]
    constructor
    · rintro ⟨zss, ⟨zs', ⟨ys, hys, hzs'⟩, zss', hzss', hpure⟩, rfl⟩
      obtain ⟨yss, hyss, hrest⟩ := ih.1 ⟨zss', hzss', rfl⟩
      refine ⟨ys :: yss, ⟨ys, hys, yss, hyss, rfl⟩, ?_⟩
      rw [← Except.ok.inj hpure, List.flatten_cons, List.mapM_append, List.flatten_cons]
      exact bind_eq_ok.2 ⟨zs', hzs', bind_eq_ok.2 ⟨_, hrest, rfl⟩⟩
    · rintro ⟨_, ⟨ys, hys, yss, hyss, hpure⟩, hzs⟩
      rw [← Except.ok.inj hpure, List.flatten_cons, List.mapM_append] at hzs
      obtain ⟨zs', hzs', hzs⟩ := bind_eq_ok.1 hzs
      obtain ⟨rest, hrest, hpure⟩ := bind_eq_ok.1 hzs
      obtain ⟨zss, hzss, hflatten⟩ := ih.2 ⟨yss, hyss, hrest⟩
      refine ⟨zs' :: zss, ⟨zs', ⟨ys, hys, hzs'⟩, zss, hzss, rfl⟩, ?_⟩
      rw [List.flatten_cons, hflatten]
      exact Except.ok.inj hpure

/-- A fold fails at the first element whose step fails. -/
theorem foldlM_eq_error : l.foldlM g s = .error e ↔
    ∃ pre x post t, l = pre ++ x :: post ∧ pre.foldlM g s = .ok t ∧ g t x = .error e := by
  induction l generalizing s with
  | nil =>
    constructor
    · exact fun h => nomatch h
    · rintro ⟨pre, x, post, -, h, -⟩
      exact absurd h (by simp)
  | cons x l ih =>
    rw [List.foldlM_cons, bind_eq_error]
    constructor
    · -- Either the first step fails, or one of the rest does.
      rintro (h | ⟨s', hs', hrest⟩)
      · exact ⟨[], x, l, s, rfl, rfl, h⟩
      · obtain ⟨pre, z, post, t, rfl, hpre, hz⟩ := ih.1 hrest
        refine ⟨x :: pre, z, post, t, rfl, ?_, hz⟩
        rw [List.foldlM_cons]
        exact bind_eq_ok.2 ⟨s', hs', hpre⟩
    · rintro ⟨pre, z, post, t, hl, hpre, hz⟩
      cases pre with
      | nil =>
        obtain ⟨rfl, rfl⟩ := List.cons.inj hl
        rw [← Except.ok.inj hpre] at hz
        exact Or.inl hz
      | cons w pre =>
        obtain ⟨rfl, rfl⟩ := List.cons.inj hl
        rw [List.foldlM_cons] at hpre
        obtain ⟨s', hs', hpre⟩ := bind_eq_ok.1 hpre
        exact Or.inr ⟨s', hs', ih.2 ⟨pre, z, post, t, rfl, hpre, hz⟩⟩

end Pure

/-! ## Loops with a state -/

/-- Runs the steps of a list one after another, up to the first one that fails. -/
def runAll (f : σ → α → Except ε β × σ) : σ → List α → Except ε (List β) × σ
  | s, [] => (.ok [], s)
  | s, x :: l =>
    match f s x with
    | (.error e, s) => (.error e, s)
    | (.ok y, s) =>
      match runAll f s l with
      | (.error e, s) => (.error e, s)
      | (.ok ys, s) => (.ok (y :: ys), s)

section Run

variable {f : σ → α → Except ε β × σ} {s t : σ} {x : α} {l : List α} {y : β} {ys : List β}

/-- A loop over no elements returns nothing. -/
@[simp] theorem runAll_nil : runAll f s [] = (.ok [], s) := rfl

/-- A loop stops at a first step that fails. -/
theorem runAll_cons_error (h : f s x = (.error e, t)) : runAll f s (x :: l) = (.error e, t) := by
  rw [runAll, h]

/-- A loop goes on after a first step that succeeds. -/
theorem runAll_cons_ok (h : f s x = (.ok y, t)) :
    runAll f s (x :: l) = ((runAll f t l).1.map (y :: ·), (runAll f t l).2) := by
  rw [runAll, h]
  dsimp only
  obtain ⟨result, u⟩ := runAll f t l
  cases result <;> rfl

/-- A loop that runs to its end has run its first step and then the rest. -/
theorem runAll_cons_eq_ok : runAll f s (x :: l) = (.ok ys, t) ↔
    ∃ y s' ys', f s x = (.ok y, s') ∧ runAll f s' l = (.ok ys', t) ∧ ys = y :: ys' := by
  cases hstep : f s x with
  | mk result s' =>
    cases result with
    | error e =>
      -- The first step fails, and the loop with it.
      rw [runAll_cons_error hstep]
      constructor
      · exact fun h => nomatch h
      · rintro ⟨y, u, ys', h, -, -⟩
        cases h
    | ok y =>
      -- The rest goes on from the state of the first step.
      rw [runAll_cons_ok hstep]
      cases hrest : runAll f s' l with
      | mk rest u =>
        cases rest with
        | error e =>
          constructor
          · exact fun h => nomatch h
          · rintro ⟨y', u', ys', h, h', -⟩
            obtain ⟨-, rfl⟩ := Prod.mk.inj h
            rw [hrest] at h'
            cases h'
        | ok ys' =>
          constructor
          · rintro h
            obtain ⟨hys, rfl⟩ := Prod.mk.inj h
            exact ⟨y, s', ys', rfl, hrest, (Except.ok.inj hys).symm⟩
          · rintro ⟨y', u', ys'', h, h', rfl⟩
            obtain ⟨hy, rfl⟩ := Prod.mk.inj h
            rw [hrest] at h'
            obtain ⟨hys, rfl⟩ := Prod.mk.inj h'
            rw [← Except.ok.inj hy, ← Except.ok.inj hys]
            rfl

/-- What each step keeps of the state, the loop keeps. -/
theorem runAll_invariant {p : σ → Prop} (h : ∀ s, p s → ∀ x ∈ l, p (f s x).2) (hs : p s) :
    p (runAll f s l).2 := by
  induction l generalizing s with
  | nil => exact hs
  | cons x l ih =>
    have hx := h s hs x List.mem_cons_self
    have hrest : ∀ s, p s → ∀ z ∈ l, p (f s z).2 :=
      fun s hs z hz => h s hs z (List.mem_cons_of_mem x hz)
    cases hstep : f s x with
    | mk result s' =>
      rw [hstep] at hx
      cases result with
      | error e =>
        rw [runAll_cons_error hstep]
        exact hx
      | ok y =>
        rw [runAll_cons_ok hstep]
        exact ih hrest hx

/-- If an invariant of the state decides for which elements a step succeeds, the loop succeeds
exactly if all elements are such. -/
theorem runAll_isOk (inv : σ → Prop) (p : α → Prop) (hs : inv s)
    (hinv : ∀ s, inv s → ∀ x ∈ l, inv (f s x).2)
    (hp : ∀ s, inv s → ∀ x ∈ l, (∃ y, (f s x).1 = .ok y) ↔ p x) :
    (∃ ys, (runAll f s l).1 = .ok ys) ↔ ∀ x ∈ l, p x := by
  induction l generalizing s with
  | nil => simp
  | cons x l ih =>
    have hx := hp s hs x List.mem_cons_self
    have hnext := hinv s hs x List.mem_cons_self
    have hrest : inv (f s x).2 → ((∃ ys, (runAll f (f s x).2 l).1 = .ok ys) ↔ ∀ z ∈ l, p z) :=
      fun hs' =>
      ih hs' (fun t ht z hz => hinv t ht z (List.mem_cons_of_mem x hz))
        fun t ht z hz => hp t ht z (List.mem_cons_of_mem x hz)
    rw [List.forall_mem_cons, ← hx]
    cases hstep : f s x with
    | mk result t =>
      rw [hstep] at hnext hrest
      cases result with
      | error e =>
        rw [runAll_cons_error hstep]
        simp
      | ok y =>
        rw [runAll_cons_ok hstep, ← hrest hnext]
        cases (runAll f t l).1 <;> simp [Except.map]

/-- If an invariant of the state decides for which elements a step succeeds, and for which it fails
with an error of a kind, the loop fails with one of the kind exactly if the first step that fails
does. -/
theorem failsWith_runAll {kind : ε → Prop} (inv : σ → Prop) (fine bad : α → Prop) (hs : inv s)
    (hinv : ∀ s, inv s → ∀ x ∈ l, inv (f s x).2)
    (hfine : ∀ s, inv s → ∀ x ∈ l, (∃ y, (f s x).1 = .ok y) ↔ fine x)
    (hbad : ∀ s, inv s → ∀ x ∈ l, FailsWith kind (f s x).1 ↔ bad x) :
    FailsWith kind (runAll f s l).1 ↔ FirstIs fine bad l := by
  induction l generalizing s with
  | nil => exact iff_of_false not_failsWith_ok not_firstIs_nil
  | cons x l ih =>
    -- The invariant holds in the next state, from which the rest of the loop runs.
    have hnext := hinv s hs x List.mem_cons_self
    have hrest : inv (f s x).2 → (FailsWith kind (runAll f (f s x).2 l).1 ↔ FirstIs fine bad l) :=
      fun hs' => ih hs' (fun t ht z hz => hinv t ht z (List.mem_cons_of_mem x hz))
        (fun t ht z hz => hfine t ht z (List.mem_cons_of_mem x hz))
        fun t ht z hz => hbad t ht z (List.mem_cons_of_mem x hz)
    rw [firstIs_cons, ← hfine s hs x List.mem_cons_self, ← hbad s hs x List.mem_cons_self]
    cases hstep : f s x with
    | mk result t =>
      rw [hstep] at hnext hrest
      cases result with
      | error e =>
        rw [runAll_cons_error hstep, or_iff_left]
        · exact failsWith_error.trans failsWith_error.symm
        · rintro ⟨⟨y, hy⟩, -⟩
          cases hy
      | ok y =>
        have hmap : FailsWith kind ((runAll f t l).1.map (y :: ·)) ↔
            FailsWith kind (runAll f t l).1 := by
          cases (runAll f t l).1 with
          | ok ys => exact iff_of_false not_failsWith_ok not_failsWith_ok
          | error e => exact failsWith_error.trans failsWith_error.symm
        rw [runAll_cons_ok hstep, or_iff_right not_failsWith_ok, ← hrest hnext, hmap]
        exact ⟨fun h => ⟨⟨y, rfl⟩, h⟩, And.right⟩

end Run

/-! ## Loops that only change a state -/

/-- Runs the steps of a list for what they do to the state, up to the first one that fails. -/
def forEach (f : σ → α → Except ε Unit × σ) : σ → List α → Except ε Unit × σ
  | s, [] => (.ok (), s)
  | s, x :: l =>
    match f s x with
    | (.error e, s) => (.error e, s)
    | (.ok (), s) => forEach f s l

/-- The values before the first fault. -/
def beforeFault : List (Except ε β) → List β
  | .ok y :: l => y :: beforeFault l
  | _ => []

/-- The first fault, if there is one. -/
def firstFault : List (Except ε β) → Except ε Unit
  | .ok _ :: l => firstFault l
  | .error e :: _ => .error e
  | [] => .ok ()

section ForEach

variable {f : σ → α → Except ε Unit × σ} {s : σ} {l : List α}
  {fine bad : α → Prop} {kind : ε → Prop}

/-- A loop whose steps succeed whatever the state is. -/
theorem forEach_isOk (hfine : ∀ s, ∀ x ∈ l, (∃ u, (f s x).1 = .ok u) ↔ fine x) :
    (∃ u, (forEach f s l).1 = .ok u) ↔ ∀ x ∈ l, fine x := by
  induction l generalizing s with
  | nil => exact iff_of_true ⟨(), rfl⟩ (List.forall_mem_nil _)
  | cons x l ih =>
    obtain ⟨hx, hl⟩ := forall_and.1 fun s => List.forall_mem_cons.1 (hfine s)
    rw [List.forall_mem_cons, ← hx s, forEach]
    cases hstep : f s x with
    | mk result t =>
      cases result with
      | error e =>
        refine iff_of_false nofun ?_
        rintro ⟨⟨u, hu⟩, -⟩
        cases hu
      | ok u =>
        rw [← ih hl]
        exact ⟨fun h => ⟨⟨u, rfl⟩, h⟩, And.right⟩

/-- A loop whose steps fail with an error of a kind whatever the state is. -/
theorem failsWith_forEach (hfine : ∀ s, ∀ x ∈ l, (∃ u, (f s x).1 = .ok u) ↔ fine x)
    (hbad : ∀ s, ∀ x ∈ l, FailsWith kind (f s x).1 ↔ bad x) :
    FailsWith kind (forEach f s l).1 ↔ FirstIs fine bad l := by
  induction l generalizing s with
  | nil => exact iff_of_false not_failsWith_ok not_firstIs_nil
  | cons x l ih =>
    obtain ⟨hx, hl⟩ := forall_and.1 fun s => List.forall_mem_cons.1 (hfine s)
    obtain ⟨hx', hl'⟩ := forall_and.1 fun s => List.forall_mem_cons.1 (hbad s)
    rw [firstIs_cons, ← hx s, ← hx' s, forEach]
    cases hstep : f s x with
    | mk result t =>
      cases result with
      | error e =>
        rw [failsWith_error, or_iff_left]
        rintro ⟨⟨u, hu⟩, -⟩
        cases hu
      | ok u =>
        rw [or_iff_right not_failsWith_ok, ← ih hl hl']
        exact ⟨fun h => ⟨⟨u, rfl⟩, h⟩, And.right⟩

end ForEach

section Reads

variable {f : σ → α → Except ε Unit × σ} {g : σ → β → σ} {reads : α → List (Except ε β)}
  {l m : List (Except ε β)} {ys : List β}

/-- What comes after a fault is not looked at. -/
theorem firstFault_append_error (h : firstFault l = .error e) :
    firstFault (l ++ m) = .error e ∧ beforeFault (l ++ m) = beforeFault l := by
  induction l with
  | nil => cases h
  | cons x l ih =>
    cases x with
    | error e' => exact ⟨h, rfl⟩
    | ok y =>
      obtain ⟨hfault, hbefore⟩ := ih h
      exact ⟨hfault, congrArg (y :: ·) hbefore⟩

/-- What comes after no fault is looked at. -/
theorem firstFault_append_ok (h : firstFault l = .ok ()) :
    firstFault (l ++ m) = firstFault m ∧ beforeFault (l ++ m) = beforeFault l ++ beforeFault m := by
  induction l with
  | nil => exact ⟨rfl, rfl⟩
  | cons x l ih =>
    cases x with
    | error e' => cases h
    | ok y =>
      obtain ⟨hfault, hbefore⟩ := ih h
      exact ⟨hfault, congrArg (y :: ·) hbefore⟩

/-- The first fault is of a kind if the first that does not succeed is. -/
theorem failsWith_firstFault {kind : ε → Prop} : FailsWith kind (firstFault l) ↔
    FirstIs (fun x => ∃ y, x = .ok y) (FailsWith kind) l := by
  induction l with
  | nil => exact iff_of_false not_failsWith_ok not_firstIs_nil
  | cons x l ih =>
    rw [firstIs_cons]
    cases x with
    | error e =>
      rw [firstFault, failsWith_error, failsWith_error, or_iff_left]
      rintro ⟨⟨y, hy⟩, -⟩
      cases hy
    | ok y =>
      rw [firstFault, or_iff_right not_failsWith_ok, ih]
      exact ⟨fun h => ⟨⟨y, rfl⟩, h⟩, And.right⟩

/-- A loop each of whose steps reads a list and takes in what comes before its first fault, reads
the lists one after another and takes in what comes before the first fault of all. -/
theorem forEach_eq (hf : ∀ s x, f s x = (firstFault (reads x), (beforeFault (reads x)).foldl g s))
    (s : σ) (xs : List α) :
    forEach f s xs = (firstFault (xs.flatMap reads),
    (beforeFault (xs.flatMap reads)).foldl g s) := by
  induction xs generalizing s with
  | nil => rfl
  | cons x xs ih =>
    rw [forEach, hf s x, List.flatMap_cons]
    cases hx : firstFault (reads x) with
    | error e =>
      obtain ⟨hfault, hbefore⟩ := firstFault_append_error (m := xs.flatMap reads) hx
      rw [hfault, hbefore]
    | ok u =>
      obtain ⟨hfault, hbefore⟩ := firstFault_append_ok (m := xs.flatMap reads) hx
      rw [hfault, hbefore, List.foldl_append]
      exact ih _

end Reads

end MarketDataGateway.Lib
