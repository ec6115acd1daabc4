import MarketDataGateway.Lib.Lines
import Mathlib.Data.List.Infix

/-!
# Comments of HTML

`scanText` leaves out the comments of a text, `<!--` up to the next `-->`, as the substitution of
the pattern `<!--.*?-->` does. Lines can be scanned one after the other, as long as each knows
whether there is a `-->` in a later one: `breakLines_removeComments` says that this comes to the
same.
-/

namespace MarketDataGateway.Lib

/-- `<!--`. -/
def opener : PyStr := text "<!--"

/-- `-->`. -/
def closer : PyStr := text "-->"

/-- A comment starts here, and ends in the text or later. -/
def OpensComment (later : Bool) (s : PyStr) : Prop :=
  opener <+: s ∧ (closer <:+: s.drop 4 ∨ later = true)

instance (later : Bool) (s : PyStr) : Decidable (OpensComment later s) :=
  inferInstanceAs (Decidable (_ ∧ _))

/-- What is left of a text, inside a comment or not at first, after the next characters have been
left out, and whether it ends inside a comment. -/
def scanTextFrom (later : Bool) : ℕ → Bool → PyStr → PyStr × Bool
  | _, hidden, [] => ([], hidden)
  | skip + 1, hidden, _ :: rest => scanTextFrom later skip hidden rest
  | 0, false, c :: rest =>
    if OpensComment later (c :: rest) then scanTextFrom later 3 true rest
    else (c :: (scanTextFrom later 0 false rest).1, (scanTextFrom later 0 false rest).2)
  | 0, true, c :: rest =>
    if closer <+: c :: rest then scanTextFrom later 2 false rest else scanTextFrom later 0 true rest

/-- What is left of a text, and whether it ends inside a comment. -/
def scanText (later hidden : Bool) (s : PyStr) : PyStr × Bool := scanTextFrom later 0 hidden s

/-- `re.sub(r"<!--.*?-->", "", value, flags=re.DOTALL)`. -/
def removeComments (s : PyStr) : PyStr := (scanText false false s).1

/-- A text in front of the first line. -/
def prependLine (v : PyStr) : List PyStr → List PyStr
  | [] => [v]
  | l :: ls => (v ++ l) :: ls

/-- A comment can end in the lines. -/
def closesIn (lines : List PyStr) : Bool := lines.any fun l => decide (closer <:+: l)

/-- What is left of lines. Those that a comment connects become one. -/
def stripLines : Bool → List PyStr → List PyStr
  | false, [] => []
  | true, [] => [[]]
  | hidden, l :: ls =>
    let left := scanText (closesIn ls) hidden l
    if left.2 then prependLine left.1 (stripLines true ls) else left.1 :: stripLines false ls

variable {s u x y m l rest : PyStr} {ls ms : List PyStr} {c : CodePoint}
  {later hidden : Bool} {n : ℕ}

/-! ## Scanning -/

/-- Characters to be skipped are skipped. -/
theorem scanTextFrom_append (h : u.length = n) :
    scanTextFrom later n hidden (u ++ rest) = scanText later hidden rest := by
  induction u generalizing n with
  | nil =>
    obtain rfl : 0 = n := h
    rfl
  | cons c u ih =>
    obtain rfl : u.length + 1 = n := h
    rw [List.cons_append]
    exact ih rfl

/-- There is nothing in no text. -/
@[simp] theorem scanText_nil : scanText later hidden [] = ([], hidden) := by
  unfold scanText
  rw [scanTextFrom]

/-- An opener hides what follows, if a closer does come. -/
theorem scanText_opener (h : closer <:+: rest ∨ later = true) :
    scanText later false (opener ++ rest) = scanText later true rest := by
  have hopens : OpensComment later (opener ++ rest) := ⟨List.prefix_append _ _, h⟩
  have htail : scanTextFrom later 3 true (opener.tail ++ rest) = scanText later true rest :=
    scanTextFrom_append rfl
  rw [← htail]
  exact if_pos hopens

/-- A character that opens no comment stands. -/
theorem scanText_text (h : ¬OpensComment later (c :: s)) :
    scanText later false (c :: s) =
    (c :: (scanText later false s).1, (scanText later false s).2) := if_neg h

/-- A closer shows what follows. -/
theorem scanText_closer : scanText later true (closer ++ rest) = scanText later false rest := by
  have htail : scanTextFrom later 2 false (closer.tail ++ rest) = scanText later false rest :=
    scanTextFrom_append rfl
  show (if closer <+: closer ++ rest then scanTextFrom later 2 false (closer.tail ++ rest)
    else scanTextFrom later 0 true (closer.tail ++ rest)) = _
  rw [if_pos (List.prefix_append closer rest), htail]

/-- A hidden character that closes nothing is dropped. -/
theorem scanText_skip (h : ¬closer <+: c :: s) :
    scanText later true (c :: s) = scanText later true s := if_neg h

/-- Induction along the scanning of a text. -/
theorem scanText_induction {motive : Bool → PyStr → Prop} (later : Bool)
    (nil : ∀ hidden, motive hidden [])
    (opened : ∀ rest, closer <:+: rest ∨ later = true → motive true rest →
    motive false (opener ++ rest))
    (visible : ∀ c s, ¬OpensComment later (c :: s) → motive false s → motive false (c :: s))
    (closed : ∀ rest, motive false rest → motive true (closer ++ rest))
    (skipped : ∀ c s, ¬closer <+: c :: s → motive true s → motive true (c :: s))
    (hidden : Bool) (s : PyStr) :
    motive hidden s := by
  induction hn : s.length using Nat.strong_induction_on generalizing s hidden with
  | _ n ih =>
    subst hn
    cases s with
    | nil => exact nil hidden
    | cons c s =>
      -- One character is passed, or a whole marker: either way the text gets shorter.
      have hs : ∀ hidden, motive hidden s :=
        fun hidden => ih s.length (Nat.lt_succ_self _) hidden s rfl
      cases hidden with
      | false =>
        by_cases hopens : OpensComment later (c :: s)
        · obtain ⟨⟨rest, hrest⟩, hends⟩ := hopens
          have hdrop : (c :: s).drop 4 = rest := by rw [← hrest]; rfl
          have hlt : rest.length < (c :: s).length := by
            rw [← hrest, List.length_append]
            exact Nat.lt_add_of_pos_left (by decide)
          rw [hdrop] at hends
          rw [← hrest]
          exact opened rest hends (ih rest.length hlt true rest rfl)
        · exact visible c s hopens (hs false)
      | true =>
        by_cases hcloses : closer <+: c :: s
        · obtain ⟨rest, hrest⟩ := hcloses
          have hlt : rest.length < (c :: s).length := by
            rw [← hrest, List.length_append]
            exact Nat.lt_add_of_pos_left (by decide)
          rw [← hrest]
          exact closed rest (ih rest.length hlt false rest rfl)
        · exact skipped c s hcloses (hs true)

/-- Inside a comment that does not end, nothing is left. -/
theorem scanText_of_not_closes (h : ¬closer <:+: s) : scanText later true s = ([], true) := by
  induction s with
  | nil => exact scanText_nil
  | cons c s ih =>
    rw [List.infix_cons_iff, not_or] at h
    rw [scanText_skip h.1, ih h.2]

/-- A text in which each comment ends does not end inside one. -/
theorem scanText_snd (hidden : Bool) (s : PyStr) (h : hidden = true → closer <:+: s) :
    (scanText false hidden s).2 = false := by
  induction hidden, s using scanText_induction false with
  | nil hidden =>
    cases hidden with
    | false => rw [scanText_nil]
    | true => exact absurd (h rfl) (by decide)
  | opened rest hends ih =>
    rw [scanText_opener hends]
    exact ih fun _ => hends.resolve_right Bool.false_ne_true
  | visible c s hopens ih =>
    rw [scanText_text hopens]
    exact ih fun h => absurd h Bool.false_ne_true
  | closed rest ih =>
    rw [scanText_closer]
    exact ih fun h => absurd h Bool.false_ne_true
  | skipped c s hcloses ih =>
    rw [scanText_skip hcloses]
    exact ih fun _ => (List.infix_cons_iff.1 (h rfl)).resolve_left hcloses

/-- Whether there is a `-->` later makes no difference to a line that does not end inside a
comment. -/
theorem scanText_false_eq (hidden : Bool) (s : PyStr) (h : (scanText true hidden s).2 = false) :
    scanText false hidden s = scanText true hidden s := by
  induction hidden, s using scanText_induction true with
  | nil hidden => rw [scanText_nil, scanText_nil]
  | opened rest hends ih =>
    rw [scanText_opener hends] at h ⊢
    have hcloses : closer <:+: rest := by
      by_contra hnot
      rw [scanText_of_not_closes hnot] at h
      exact absurd h (by decide)
    rw [scanText_opener (Or.inl hcloses)]
    exact ih h
  | visible c s hopens ih =>
    have hnot : ¬OpensComment false (c :: s) := fun hopens' => hopens ⟨hopens'.1, Or.inr rfl⟩
    rw [scanText_text hopens] at h ⊢
    rw [scanText_text hnot, ih h]
  | closed rest ih =>
    rw [scanText_closer] at h ⊢
    rw [scanText_closer, ih h]
  | skipped c s hcloses ih =>
    rw [scanText_skip hcloses] at h ⊢
    rw [scanText_skip hcloses, ih h]

/-! ## Scanning line by line -/

/-- An opener is on one line. -/
theorem not_isBreak_of_mem_opener : ∀ c ∈ opener, c.isBreak = false := by
  have hall : (opener.all fun c => !c.isBreak) = true := by decide
  exact fun c hc => Bool.not_eq_true' _ ▸ List.all_eq_true.1 hall c hc

/-- A closer is on one line. -/
theorem not_isBreak_of_mem_closer : ∀ c ∈ closer, c.isBreak = false := by
  have hall : (closer.all fun c => !c.isBreak) = true := by decide
  exact fun c hc => Bool.not_eq_true' _ ▸ List.all_eq_true.1 hall c hc

/-- What a text starts with, without a break in it, is in its first line. -/
theorem prefix_iff_of_breakLines (hu : ∀ c ∈ u, c.isBreak = false) (hs : breakLines s = l :: ls) :
    u <+: s ↔ u <+: l := by
  induction u generalizing s l ls with
  | nil => exact iff_of_true (List.nil_prefix) (List.nil_prefix)
  | cons d u ih =>
    obtain ⟨hd, hu⟩ := List.forall_mem_cons.1 hu
    cases s with
    | nil =>
      obtain rfl : [] = l := (List.cons.inj hs).1
      exact Iff.rfl
    | cons c s =>
      cases hc : c.isBreak with
      | true =>
        rw [breakLines_cons_of_isBreak hc] at hs
        obtain rfl : [] = l := (List.cons.inj hs).1
        refine iff_of_false (fun hstarts => ?_) fun hstarts =>
          absurd (List.prefix_nil.1 hstarts) (by simp)
        obtain rfl : d = c := (List.cons_prefix_cons.1 hstarts).1
        exact absurd (hc.symm.trans hd) (by decide)
      | false =>
        obtain ⟨l', ls', hlines⟩ := exists_breakLines_eq s
        rw [breakLines_cons_of_not_isBreak hc, hlines, consLine_cons] at hs
        obtain rfl : c :: l' = l := (List.cons.inj hs).1
        rw [List.cons_prefix_cons, List.cons_prefix_cons, ih hu hlines]

/-- What the first line of a text starts with, the text starts with. -/
theorem exists_of_breakLines_append (hu : ∀ c ∈ u, c.isBreak = false)
    (hs : breakLines s = (u ++ l) :: ls) : ∃ rest, s = u ++ rest ∧ breakLines rest = l :: ls := by
  induction u generalizing s with
  | nil => exact ⟨s, rfl, hs⟩
  | cons d u ih =>
    have hstarts : d :: u <+: s := (prefix_iff_of_breakLines hu hs).2 (List.prefix_append _ _)
    obtain ⟨rest, rfl⟩ := hstarts
    obtain ⟨hd, hu⟩ := List.forall_mem_cons.1 hu
    obtain ⟨l', ls', hlines⟩ := exists_breakLines_eq (u ++ rest)
    rw [List.cons_append, breakLines_cons_of_not_isBreak hd, hlines, consLine_cons,
      List.cons_append] at hs
    obtain ⟨hl, rfl⟩ := List.cons.inj hs
    rw [(List.cons.inj hl).2] at hlines
    obtain ⟨rest', hrest, hlines'⟩ := ih hu hlines
    exact ⟨rest', congrArg (d :: ·) hrest, hlines'⟩

/-- The lines of a text with something in front that has no break. -/
theorem breakLines_append (hu : ∀ c ∈ u, c.isBreak = false) (hs : breakLines s = l :: ls) :
    breakLines (u ++ s) = (u ++ l) :: ls := by
  induction u with
  | nil => exact hs
  | cons c u ih =>
    obtain ⟨hc, hu⟩ := List.forall_mem_cons.1 hu
    rw [List.cons_append, breakLines_cons_of_not_isBreak hc, ih hu, consLine_cons, List.cons_append]

/-- Nothing closes in no lines. -/
@[simp] theorem closesIn_nil : closesIn [] = false := rfl

/-- A comment closes in the first line, or in one after it. -/
theorem closesIn_cons : closesIn (l :: ls) = true ↔ closer <:+: l ∨ closesIn ls = true := by
  unfold closesIn
  rw [List.any_cons, Bool.or_eq_true, decide_eq_true_eq]

/-- A comment can end in a text if it can in one of its lines. -/
theorem closes_iff (hs : breakLines s = l :: ls) : closer <:+: s ↔
    closer <:+: l ∨ closesIn ls = true := by
  induction s generalizing l ls with
  | nil =>
    obtain ⟨rfl, rfl⟩ := List.cons.inj hs
    exact (or_iff_left Bool.false_ne_true).symm
  | cons c s ih =>
    obtain ⟨l', ls', hlines⟩ := exists_breakLines_eq s
    have hwithin := ih hlines
    have hstarts := prefix_iff_of_breakLines not_isBreak_of_mem_closer hs
    rw [List.infix_cons_iff, hstarts, hwithin]
    cases hc : c.isBreak with
    | true =>
      rw [breakLines_cons_of_isBreak hc, hlines] at hs
      obtain ⟨rfl, rfl⟩ := List.cons.inj hs
      rw [closesIn_cons]
      refine or_congr_left (iff_of_false ?_ ?_)
      · decide
      · decide
    | false =>
      rw [breakLines_cons_of_not_isBreak hc, hlines, consLine_cons] at hs
      obtain ⟨rfl, rfl⟩ := List.cons.inj hs
      rw [List.infix_cons_iff, or_assoc]

/-- There are lines left, if the first one is hidden or there are any. -/
theorem exists_stripLines_eq (hidden : Bool) (hls : hidden = true ∨ ls ≠ []) :
    ∃ v vs, stripLines hidden ls = v :: vs := by
  cases ls with
  | nil =>
    obtain rfl := hls.resolve_right fun hne => hne rfl
    exact ⟨[], [], rfl⟩
  | cons l ls =>
    rw [stripLines]
    split_ifs
    · cases stripLines true ls with
      | nil => exact ⟨_, _, rfl⟩
      | cons v vs => exact ⟨_, _, rfl⟩
    · exact ⟨_, _, rfl⟩

/-- The lines depend on the first of them by what is left of it. -/
theorem stripLines_cons_congr {hidden' : Bool}
    (h : scanText (closesIn ls) hidden l = scanText (closesIn ls) hidden' m) :
    stripLines hidden (l :: ls) = stripLines hidden' (m :: ls) := by
  rw [stripLines, stripLines, h]

/-- A character that stands joins its line. -/
theorem stripLines_consLine (h : scanText (closesIn ls) false (c :: l) =
    (c :: (scanText (closesIn ls) false l).1, (scanText (closesIn ls) false l).2)) :
    stripLines false ((c :: l) :: ls) = consLine c (stripLines false (l :: ls)) := by
  rw [stripLines, stripLines, h]
  dsimp only
  split_ifs
  · cases stripLines true ls with
    | nil => rfl
    | cons v vs => rfl
  · rfl

/-- An empty line is dropped when it is hidden, and else stands. -/
theorem stripLines_nil_cons : stripLines hidden ([] :: ls) =
    if hidden then stripLines true ls else [] :: stripLines false ls := by
  rw [stripLines, scanText_nil]
  split_ifs
  · obtain ⟨v, vs, heq⟩ := @exists_stripLines_eq ls true (Or.inl rfl)
    rw [heq]
    rfl
  · rfl

/-- The lines of what is left of a text are what is left of its lines. -/
theorem breakLines_scanText (hidden : Bool) (s : PyStr) (h : hidden = true → closer <:+: s) :
    breakLines (scanText false hidden s).1 = stripLines hidden (breakLines s) := by
  induction hidden, s using scanText_induction false with
  | nil hidden =>
    cases hidden with
    | false => rfl
    | true => exact absurd (h rfl) (by decide)
  | opened rest hends ih =>
    -- An opener lies within one line, and hides the rest of it.
    have hcloses : closer <:+: rest := hends.resolve_right Bool.false_ne_true
    obtain ⟨l, ls, hlines⟩ := exists_breakLines_eq rest
    rw [scanText_opener hends, ih fun _ => hcloses,
      breakLines_append not_isBreak_of_mem_opener hlines, hlines]
    exact stripLines_cons_congr (scanText_opener ((closes_iff hlines).1 hcloses)).symm
  | visible c s hopens ih =>
    have ih := ih fun h => absurd h Bool.false_ne_true
    rw [scanText_text hopens]
    cases hc : c.isBreak with
    | true =>
      -- A break outside a comment ends a line of what is shown.
      rw [breakLines_cons_of_isBreak hc, breakLines_cons_of_isBreak hc, stripLines_nil_cons, ih]
      rfl
    | false =>
      obtain ⟨l, ls, hlines⟩ := exists_breakLines_eq s
      have hcons : breakLines (c :: s) = (c :: l) :: ls := by
        rw [breakLines_cons_of_not_isBreak hc, hlines, consLine_cons]
      have hnot : ¬OpensComment (closesIn ls) (c :: l) := by
        rintro ⟨⟨rest, hrest⟩, hends⟩
        refine hopens ⟨(prefix_iff_of_breakLines not_isBreak_of_mem_opener hcons).2 ⟨rest, hrest⟩,
          Or.inl ?_⟩
        rw [← hrest] at hcons hends
        obtain ⟨rest', hrest', hlines'⟩ :=
          exists_of_breakLines_append not_isBreak_of_mem_opener hcons
        rw [hrest']
        exact (closes_iff hlines').2 hends
      rw [breakLines_cons_of_not_isBreak hc, ih, hcons, hlines,
        stripLines_consLine (scanText_text hnot)]
  | closed rest ih =>
    -- So does a closer, and what follows it is shown again.
    obtain ⟨l, ls, hlines⟩ := exists_breakLines_eq rest
    rw [scanText_closer, ih fun h => absurd h Bool.false_ne_true,
      breakLines_append not_isBreak_of_mem_closer hlines, hlines]
    exact stripLines_cons_congr scanText_closer.symm
  | skipped c s hcloses ih =>
    have hrest : closer <:+: s := (List.infix_cons_iff.1 (h rfl)).resolve_left hcloses
    rw [scanText_skip hcloses, ih fun _ => hrest]
    cases hc : c.isBreak with
    | true => rw [breakLines_cons_of_isBreak hc, stripLines_nil_cons, if_pos rfl]
    | false =>
      obtain ⟨l, ls, hlines⟩ := exists_breakLines_eq s
      have hcons : breakLines (c :: s) = (c :: l) :: ls := by
        rw [breakLines_cons_of_not_isBreak hc, hlines, consLine_cons]
      have hnot : ¬closer <+: c :: l := fun hstarts =>
        hcloses ((prefix_iff_of_breakLines not_isBreak_of_mem_closer hcons).2 hstarts)
      rw [hcons, hlines]
      exact stripLines_cons_congr (scanText_skip hnot).symm

/-- The lines of a text without its comments are the lines without theirs. -/
theorem breakLines_removeComments (s : PyStr) :
    breakLines (removeComments s) = stripLines false (breakLines s) :=
  breakLines_scanText false s fun h => absurd h Bool.false_ne_true

/-! ## White space at the ends of lines -/

/-- An opener has no spaces. -/
theorem not_isSpace_of_mem_opener : ∀ c ∈ opener, c.isSpace = false := by
  have hall : (opener.all fun c => !c.isSpace) = true := by decide
  exact fun c hc => Bool.not_eq_true' _ ▸ List.all_eq_true.1 hall c hc

/-- A closer has no spaces. -/
theorem not_isSpace_of_mem_closer : ∀ c ∈ closer, c.isSpace = false := by
  have hall : (closer.all fun c => !c.isSpace) = true := by decide
  exact fun c hc => Bool.not_eq_true' _ ▸ List.all_eq_true.1 hall c hc

/-- White space after a text plays no part in what it starts with. -/
theorem prefix_append_spaces (hu : ∀ c ∈ u, c.isSpace = false) (hy : IsSpaces y) :
    u <+: s ++ y ↔ u <+: s := by
  refine ⟨fun h => ?_, fun h => h.trans (List.prefix_append s y)⟩
  induction u generalizing s with
  | nil => exact List.nil_prefix
  | cons d u ih =>
    obtain ⟨hd, hu⟩ := List.forall_mem_cons.1 hu
    cases s with
    | nil =>
      have hmem : d ∈ y := h.subset List.mem_cons_self
      have hspace := hy d hmem
      rw [hd] at hspace
      exact absurd hspace Bool.false_ne_true
    | cons c s =>
      obtain ⟨rfl, hrest⟩ := List.cons_prefix_cons.1 h
      exact List.cons_prefix_cons.2 ⟨rfl, ih hu hrest⟩

/-- What begins with a space does not begin with another character. -/
theorem not_startsWith_of_isSpace {d : CodePoint} (hd : d.isSpace = false) (hc : c.isSpace = true) :
    ¬d :: u <+: c :: s := by
  intro h
  obtain rfl : d = c := (List.cons_prefix_cons.1 h).1
  rw [hd] at hc
  exact Bool.false_ne_true hc

/-- A closer does not begin with a space. -/
theorem not_startsWith_closer (hc : c.isSpace = true) : ¬closer <+: c :: s :=
  not_startsWith_of_isSpace (by decide) hc

/-- A space opens no comment. -/
theorem not_opensComment (hc : c.isSpace = true) : ¬OpensComment later (c :: s) := fun h =>
  not_startsWith_of_isSpace (by decide) hc h.1

/-- A closer comes before the spaces behind it. -/
theorem closes_append_spaces (hy : IsSpaces y) : closer <:+: s ++ y ↔ closer <:+: s := by
  induction s with
  | nil =>
    refine iff_of_false (fun h => ?_) (by decide)
    have hmem : codePoint 0x2D ∈ y := h.subset (by decide)
    exact absurd (hy _ hmem) (by decide)
  | cons c s ih =>
    rw [List.cons_append, List.infix_cons_iff, List.infix_cons_iff, ih, ← List.cons_append,
      prefix_append_spaces not_isSpace_of_mem_closer hy]

/-- A closer comes after the spaces in front of it. -/
theorem closes_spaces_append (hx : IsSpaces x) : closer <:+: x ++ s ↔ closer <:+: s := by
  induction x with
  | nil => exact Iff.rfl
  | cons c x ih =>
    obtain ⟨hc, hx⟩ := List.forall_mem_cons.1 hx
    rw [List.cons_append, List.infix_cons_iff, ih hx]
    exact or_iff_right (not_startsWith_closer hc)

/-- The same comments close in padded lines. -/
theorem closesIn_of_padded (h : Padded ls ms) : closesIn ls = closesIn ms := by
  induction h with
  | nil => rfl
  | blank hx _ ih =>
    refine Bool.eq_iff_iff.2 ?_
    rw [closesIn_cons, ih]
    refine or_iff_right fun hcloses => ?_
    have hnil := (closes_append_spaces (s := []) hx).1 hcloses
    exact absurd hnil (by decide)
  | line hx hy _ ih =>
    refine Bool.eq_iff_iff.2 ?_
    rw [closesIn_cons, closesIn_cons, ih, closes_append_spaces hy, closes_spaces_append hx]

/-- Spaces in front stand unless they are hidden. -/
theorem scanText_spaces_append (hx : IsSpaces x) : scanText later hidden (x ++ m) =
    ((if hidden then [] else x) ++ (scanText later hidden m).1, (scanText later hidden m).2) := by
  induction x with
  | nil => cases hidden with | false | true => rfl
  | cons c x ih =>
    obtain ⟨hc, hx⟩ := List.forall_mem_cons.1 hx
    rw [List.cons_append]
    cases hidden with
    | false =>
      rw [scanText_text (not_opensComment hc), ih hx]
      rfl
    | true =>
      rw [scanText_skip (not_startsWith_closer hc), ih hx]
      rfl

/-- Spaces stand unless they are hidden. -/
theorem scanText_spaces (hx : IsSpaces x) :
    scanText later hidden x = (if hidden then [] else x, hidden) := by
  have hscan := @scanText_spaces_append x [] later hidden hx
  rwa [List.append_nil, scanText_nil, List.append_nil] at hscan

/-- Spaces behind stand unless they are hidden. -/
theorem scanText_append_spaces (hy : IsSpaces y) (later hidden : Bool) (m : PyStr) :
    scanText later hidden (m ++ y) =
    ((scanText later hidden m).1 ++ (if (scanText later hidden m).2 then [] else y),
    (scanText later hidden m).2) := by
  induction hidden, m using scanText_induction later with
  | nil hidden =>
    rw [List.nil_append, scanText_spaces hy, scanText_nil]
    rfl
  | opened rest hends ih =>
    rw [List.append_assoc, scanText_opener (hends.imp_left (closes_append_spaces hy).2),
      scanText_opener hends, ih]
  | visible c m hopens ih =>
    have hnot : ¬OpensComment later (c :: (m ++ y)) := by
      rintro ⟨hstarts, hends⟩
      rw [← List.cons_append] at hstarts hends
      have hopener := (prefix_append_spaces not_isSpace_of_mem_opener hy).1 hstarts
      have hlength : 4 ≤ (c :: m).length := hopener.length_le
      rw [List.drop_append_of_le_length hlength, closes_append_spaces hy] at hends
      exact hopens ⟨hopener, hends⟩
    rw [List.cons_append, scanText_text hnot, scanText_text hopens, ih]
    rfl
  | closed rest ih => rw [List.append_assoc, scanText_closer, scanText_closer, ih]
  | skipped c m hcloses ih =>
    have hnot : ¬closer <+: c :: (m ++ y) := fun h =>
      hcloses ((prefix_append_spaces not_isSpace_of_mem_closer hy).1 h)
    rw [List.cons_append, scanText_skip hnot, scanText_skip hcloses, ih]

/-- Spaces on both sides stand unless they are hidden. -/
theorem scanText_padded (hx : IsSpaces x) (hy : IsSpaces y) : scanText later hidden (x ++ m ++ y) =
    ((if hidden then [] else x) ++ (scanText later hidden m).1 ++
      (if (scanText later hidden m).2 then [] else y), (scanText later hidden m).2) := by
  rw [scanText_append_spaces hy, scanText_spaces_append hx]

/-- Lines that differ by blanks differ by blanks when the comments have been left out. -/
theorem Padded.stripLines (h : Padded ls ms) :
    Padded (stripLines false ls) (stripLines false ms) ∧ Flush (stripLines true ls)
    (stripLines true ms) := by
  induction h with
  | nil => exact ⟨.nil, [], [], [], [], rfl, rfl, isSpaces_nil, .nil⟩
  | @blank x ls ms hx _ ih =>
    obtain ⟨hvisible, hhidden⟩ := ih
    constructor
    · rw [Lib.stripLines, scanText_spaces hx]
      exact .blank hx hvisible
    · rw [Lib.stripLines, scanText_spaces hx]
      obtain ⟨v, vs, heq⟩ := @exists_stripLines_eq ls true (Or.inl rfl)
      rw [heq] at hhidden ⊢
      exact hhidden
  | @line x m y ls ms hx hy hrest ih =>
    obtain ⟨hvisible, hhidden⟩ := ih
    have hlater := closesIn_of_padded hrest
    obtain ⟨l, y', ls', ms', hls, hms, hy', hpadded⟩ := hhidden
    constructor
    · rw [Lib.stripLines, Lib.stripLines, scanText_padded hx hy, hlater]
      cases hends : (scanText (closesIn ms) false m).2 with
      | false => exact .line hx hy hvisible
      | true =>
        -- the first line goes on where the comment ends
        rw [if_pos rfl, if_pos rfl, hls, hms]
        have hline := @Padded.line x ((scanText (closesIn ms) false m).1 ++
          l) y' ls' ms' hx hy' hpadded
        have heq : x ++ (scanText (closesIn ms) false m).1 ++ [] ++ (l ++ y') =
            x ++ ((scanText (closesIn ms) false m).1 ++ l) ++ y' := by
          simp only [List.append_nil, List.append_assoc]
        show Padded ((x ++ (scanText (closesIn ms) false m).1 ++ [] ++ (l ++ y')) :: ls') _
        rwa [heq]
    · rw [Lib.stripLines, Lib.stripLines, scanText_padded hx hy, hlater]
      cases hends : (scanText (closesIn ms) true m).2 with
      | false => exact ⟨_, y, _, _, rfl, rfl, hy, hvisible⟩
      | true =>
        rw [if_pos rfl, if_pos rfl, hls, hms]
        refine ⟨(scanText (closesIn ms) true m).1 ++ l, y', ls', ms', ?_, rfl, hy', hpadded⟩
        have heq : [] ++ (scanText (closesIn ms) true m).1 ++ [] ++ (l ++ y') =
            (scanText (closesIn ms) true m).1 ++ l ++ y' := by
          simp only [List.nil_append, List.append_nil, List.append_assoc]
        show ([] ++ (scanText (closesIn ms) true m).1 ++ [] ++ (l ++ y')) :: ls' = _
        rw [heq]

/-- The cores of what is left of lines are a matter of their cores. -/
theorem cores_stripLines (ls : List PyStr) :
    cores (stripLines false ls) = cores (stripLines false (cores ls)) :=
  (padded_cores ls).stripLines.1.cores_eq

end MarketDataGateway.Lib
