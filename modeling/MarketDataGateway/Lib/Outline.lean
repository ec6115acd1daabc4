import MarketDataGateway.Lib.Comments

/-!
# Lines under headings

A heading is a line that sets a state; the other lines are collected while the state is of a kind.
Leaving out comments and collecting commute for lines that are `Contained`: a comment within one
line makes no heading of it, and none of a heading, and the lines that a comment connects are none,
together or each.
-/

namespace MarketDataGateway.Lib

variable {α : Type*} (heading : PyStr → Option α) (p : α → Bool)

/-- The lines that are no headings, while the state is of the kind. -/
def collect : α → List PyStr → List PyStr
  | _, [] => []
  | a, l :: ls =>
    match heading l with
    | some a' => collect a' ls
    | none => if p a then l :: collect a ls else collect a ls

/-- The comments of lines neither touch nor make headings. What is given is what is left of the line
in which the comment that goes on has started. -/
def Contained : Option PyStr → List PyStr → Prop
  | _, [] => True
  | none, l :: ls =>
    if (scanText (closesIn ls) false l).2 then
      heading l = none ∧ Contained (some (scanText (closesIn ls) false l).1) ls
    else heading (scanText (closesIn ls) false l).1 = heading l ∧ Contained none ls
  | some v, l :: ls =>
    heading l = none ∧
      if (scanText (closesIn ls) true l).2
      then Contained (some (v ++ (scanText (closesIn ls) true l).1)) ls
      else heading (v ++ (scanText (closesIn ls) true l).1) = none ∧ Contained none ls

instance decidableContained [DecidableEq α] :
    ∀ (v : Option PyStr) (ls : List PyStr), Decidable (Contained heading v ls)
  | _, [] => isTrue trivial
  | none, l :: ls => by
    unfold Contained
    letI := decidableContained none ls
    letI := decidableContained (some (scanText (closesIn ls) false l).1) ls
    infer_instance
  | some v, l :: ls => by
    unfold Contained
    letI := decidableContained none ls
    letI := decidableContained (some (v ++ (scanText (closesIn ls) true l).1)) ls
    infer_instance

variable {heading p} {a a' : α} {l v w : PyStr} {ls : List PyStr} {later later' hidden : Bool}

/-- What comes under a heading is collected from there on. -/
theorem collect_cons_some (h : heading l = some a') :
    collect heading p a (l :: ls) = collect heading p a' ls := by
  rw [collect, h]

/-- A line that is no heading is collected if its section is. -/
theorem collect_cons_none (h : heading l = none) : collect heading p a (l :: ls) =
    if p a then l :: collect heading p a ls else collect heading p a ls := by
  rw [collect, h]

/-- Lines that are collected are among the lines. -/
theorem closesIn_of_collect (h : closesIn (collect heading p a ls) = true) :
    closesIn ls = true := by
  induction ls generalizing a with
  | nil => exact h
  | cons l ls ih =>
    rw [closesIn_cons]
    cases hl : heading l with
    | some a' =>
      rw [collect_cons_some hl] at h
      exact Or.inr (ih h)
    | none =>
      rw [collect_cons_none hl] at h
      split_ifs at h
      · exact (closesIn_cons.1 h).imp_right ih
      · exact Or.inr (ih h)

/-- A line that does not end inside a comment is left the same whatever comes later. -/
theorem scanText_eq_of_imp (himp : later' = true → later = true)
    (h : (scanText later hidden l).2 = false) :
    scanText later' hidden l = scanText later hidden l := by
  cases later' with
  | true => rw [himp rfl]
  | false =>
    cases later with
    | true => exact scanText_false_eq hidden l h
    | false => rfl

/-- Lines that are put in front one after the other. -/
theorem prependLine_prependLine : prependLine v (prependLine w ls) = prependLine (v ++ w) ls := by
  cases ls with
  | nil => rfl
  | cons l ls => exact congrArg (· :: ls) (List.append_assoc v w l).symm

/-- What a line that ends inside a comment says about the lines after it. -/
theorem closesIn_of_scanText (h : (scanText (closesIn ls) hidden l).2 = true)
    (hcloses : hidden = true → closesIn (l :: ls) = true) : closesIn ls = true := by
  by_contra hnot
  have hfalse := Bool.eq_false_iff.2 hnot
  rw [hfalse] at h
  have hvisible := scanText_snd hidden l fun hh => (closesIn_cons.1 (hcloses hh)).resolve_right hnot
  rw [hvisible] at h
  exact Bool.false_ne_true h

/-- Collecting lines and leaving out their comments commute. In the second part a comment goes on,
which has started in a line of which `v` is left. -/
theorem stripLines_collect_aux (ls : List PyStr) :
    (∀ a, Contained heading none ls →
      stripLines false (collect heading p a ls) = collect heading p a (stripLines false ls)) ∧
    ∀ a v, Contained heading (some v) ls → closesIn ls = true →
      (p a = true → closesIn (collect heading p a ls) = true) ∧
      collect heading p a (prependLine v (stripLines true ls)) =
        if p a then prependLine v (stripLines true (collect heading p a ls))
        else stripLines false (collect heading p a ls) := by
  -- On the lines, in the text and inside a comment together.
  induction ls with
  | nil => exact ⟨fun a _ => rfl, fun a v _ h => absurd h Bool.false_ne_true⟩
  | cons l ls ih =>
    obtain ⟨ihvisible, ihhidden⟩ := ih
    constructor
    · -- The line begins in the text, and a comment may open in it.
      intro a h
      rw [Contained] at h
      rw [stripLines]
      cases hends : (scanText (closesIn ls) false l).2 with
      | false =>
        rw [hends, if_neg Bool.false_ne_true] at h
        rw [if_neg Bool.false_ne_true]
        obtain ⟨hsame, hrest⟩ := h
        cases hl : heading l with
        | some a' =>
          rw [collect_cons_some hl, collect_cons_some (hsame.trans hl), ihvisible a' hrest]
        | none =>
          rw [collect_cons_none hl, collect_cons_none (hsame.trans hl), ← ihvisible a hrest]
          split_ifs
          · have hscan := scanText_eq_of_imp (@closesIn_of_collect _ heading p a ls) hends
            rw [stripLines, hscan, hends, if_neg Bool.false_ne_true]
          · rfl
      | true =>
        rw [hends, if_pos rfl] at h
        rw [if_pos rfl]
        obtain ⟨hl, hrest⟩ := h
        have hlater := closesIn_of_scanText hends fun hh => absurd hh Bool.false_ne_true
        obtain ⟨hcloses, hcollect⟩ := ihhidden a _ hrest hlater
        rw [hcollect, collect_cons_none hl]
        split_ifs with hp
        · have hsame := (hcloses hp).trans hlater.symm
          rw [stripLines, hsame, hends, if_pos rfl]
        · rfl
    · -- The line begins inside a comment, which may close in it.
      intro a v h hcloses
      rw [Contained] at h
      rw [stripLines]
      obtain ⟨hl, h⟩ := h
      cases hends : (scanText (closesIn ls) true l).2 with
      | false =>
        rw [hends, if_neg Bool.false_ne_true] at h
        rw [if_neg Bool.false_ne_true]
        obtain ⟨hmerged, hrest⟩ := h
        have hcloser : closer <:+: l := by
          by_contra hnot
          rw [scanText_of_not_closes hnot] at hends
          exact absurd hends (by decide)
        rw [collect_cons_none hl]
        constructor
        · intro hp
          rw [if_pos hp, closesIn_cons]
          exact Or.inl hcloser
        · have hscan := scanText_eq_of_imp (@closesIn_of_collect _ heading p a ls) hends
          show collect heading p a ((v ++ (scanText (closesIn ls) true l).1) ::
            stripLines false ls) = _
          rw [collect_cons_none hmerged, ← ihvisible a hrest]
          split_ifs
          · rw [stripLines, hscan, hends, if_neg Bool.false_ne_true]
            rfl
          · rfl
      | true =>
        rw [hends, if_pos rfl] at h
        rw [if_pos rfl, prependLine_prependLine]
        have hlater := closesIn_of_scanText hends fun _ => hcloses
        obtain ⟨hcloses', hcollect⟩ := ihhidden a _ h hlater
        rw [hcollect, collect_cons_none hl]
        constructor
        · intro hp
          rw [if_pos hp, closesIn_cons]
          exact Or.inr (hcloses' hp)
        · split_ifs with hp
          · have hsame := (hcloses' hp).trans hlater.symm
            rw [stripLines, hsame, hends, if_pos rfl, prependLine_prependLine]
          · rfl

/-- Comments are removed before or after lines are collected, if they are contained. -/
theorem stripLines_collect (h : Contained heading none ls) :
    stripLines false (collect heading p a ls) = collect heading p a (stripLines false ls) :=
  (stripLines_collect_aux ls).1 a h

/-! ## Empty lines -/

/-- Empty lines at the end close nothing. -/
theorem closesIn_dropEmpty : closesIn (dropEmpty ls) = closesIn ls := by
  rw [closesIn_of_padded (padded_cores ls),
    closesIn_of_padded (padded_cores (dropEmpty ls)), cores_dropEmpty]

/-- A line with characters stays. -/
theorem dropEmpty_cons_of_ne_nil (h : l ≠ []) : dropEmpty (l :: ls) = l :: dropEmpty ls := by
  unfold dropEmpty
  rw [List.filter_cons, decide_eq_true h]
  rfl

/-- Empty lines at the end are dropped before or after lines are collected. -/
theorem collect_dropEmpty (hnil : heading [] = none) :
    collect heading p a (dropEmpty ls) = dropEmpty (collect heading p a ls) := by
  induction ls generalizing a with
  | nil => rfl
  | cons l ls ih =>
    by_cases hl : l = []
    · rw [hl, collect_cons_none hnil]
      show collect heading p a (dropEmpty ls) = _
      rw [ih]
      split_ifs <;> rfl
    · rw [dropEmpty_cons_of_ne_nil hl]
      cases hheading : heading l with
      | some a' => rw [collect_cons_some hheading, collect_cons_some hheading, ih]
      | none =>
        rw [collect_cons_none hheading, collect_cons_none hheading, ih]
        split_ifs
        · rw [dropEmpty_cons_of_ne_nil hl]
        · rfl

/-- Lines are contained with the empty ones at the end or without them. -/
theorem contained_dropEmpty (hnil : heading [] = none) (v : Option PyStr) (ls : List PyStr) :
    Contained heading v (dropEmpty ls) ↔ Contained heading v ls := by
  induction ls generalizing v with
  | nil => exact Iff.rfl
  | cons l ls ih =>
    by_cases hl : l = []
    · rw [hl]
      show Contained heading v (dropEmpty ls) ↔ _
      rw [ih v]
      cases v with
      | none =>
        rw [Contained, scanText_nil, if_neg Bool.false_ne_true]
        exact (and_iff_right rfl).symm
      | some v =>
        rw [Contained, scanText_nil, if_pos rfl, List.append_nil]
        exact (and_iff_right hnil).symm
    · rw [dropEmpty_cons_of_ne_nil hl]
      cases v with
      | none => rw [Contained, Contained, closesIn_dropEmpty, ih, ih]
      | some v => rw [Contained, Contained, closesIn_dropEmpty, ih, ih]

/-- The lines that are collected from a text, when their comments have been left out, are those that
are collected from the text without its comments, but for blanks. -/
theorem cores_stripLines_collect {s : PyStr} (hnil : heading [] = none)
    (h : Contained heading none (splitlines s)) :
    cores (stripLines false (collect heading p a (splitlines s))) =
      cores (collect heading p a (breakLines (removeComments s))) := by
  have hsame : dropEmpty (collect heading p a (splitlines s)) =
      dropEmpty (collect heading p a (breakLines s)) := by
    rw [← collect_dropEmpty hnil, ← collect_dropEmpty hnil, dropEmpty_splitlines]
  have hcores : cores (collect heading p a (splitlines s)) =
      cores (collect heading p a (breakLines s)) := by
    rw [← cores_dropEmpty, hsame, cores_dropEmpty]
  have hcontained : Contained heading none (breakLines s) := by
    rwa [← contained_dropEmpty hnil, ← dropEmpty_splitlines, contained_dropEmpty hnil]
  calc cores (stripLines false (collect heading p a (splitlines s)))
      = cores (stripLines false (cores (collect heading p a (splitlines s)))) := cores_stripLines _
    _ = cores (stripLines false (collect heading p a (breakLines s))) := by
        rw [hcores, ← cores_stripLines]
    _ = cores (collect heading p a (breakLines (removeComments s))) := by
      rw [stripLines_collect hcontained, breakLines_removeComments]

end MarketDataGateway.Lib
