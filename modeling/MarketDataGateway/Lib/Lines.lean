import MarketDataGateway.Lib.Capitals

/-!
# Lines of text

`str.splitlines`, and the lines of a text cut at every single break, which differ from them by empty
lines only. What a reader makes of lines that are stripped, and of which empty ones are skipped,
depends on their `cores`; `Padded` relates lists of lines that differ by blanks, line by line.
-/

namespace MarketDataGateway.Lib

/-- The code point ends a line for `str.splitlines`. -/
def CodePoint.isBreak (c : CodePoint) : Bool :=
  (0x0A ≤ c.val && c.val ≤ 0x0D) || (0x1C ≤ c.val && c.val ≤ 0x1E) || c.val == 0x85 ||
    c.val == 0x2028 || c.val == 0x2029

/-- A character in front of the first line. -/
def consLine (c : CodePoint) : List PyStr → List PyStr
  | [] => [[c]]
  | l :: ls => (c :: l) :: ls

/-- `str.splitlines`. A carriage return and a newline are one break. -/
def splitlines : PyStr → List PyStr
  | [] => []
  | c :: rest =>
    if c = codePoint 0x0D ∧ rest.head? = some (codePoint 0x0A) then splitlines rest
    else if c.isBreak then [] :: splitlines rest
    else consLine c (splitlines rest)

/-- The lines between the breaks, of which each counts. -/
def breakLines : PyStr → List PyStr
  | [] => [[]]
  | c :: rest => if c.isBreak then [] :: breakLines rest else consLine c (breakLines rest)

/-- `"\n".join`. -/
def joinLines : List PyStr → PyStr
  | [] => []
  | [l] => l
  | l :: ls => l ++ codePoint 0x0A :: joinLines ls

/-- The lines that are not empty. -/
def dropEmpty (lines : List PyStr) : List PyStr := lines.filter fun l => l ≠ []

/-- Nothing but white space. -/
def IsSpaces (s : PyStr) : Prop := ∀ c ∈ s, c.isSpace = true

/-- Lines that differ from others by white space at their ends, and by lines of white space. -/
inductive Padded : List PyStr → List PyStr → Prop
  | nil : Padded [] []
  | blank {x : PyStr} {ls ms : List PyStr} : IsSpaces x → Padded ls ms → Padded (x :: ls) ms
  | line {x m y : PyStr} {ls ms : List PyStr} : IsSpaces x → IsSpaces y → Padded ls ms →
      Padded ((x ++ m ++ y) :: ls) (m :: ms)

/-- The lines without white space at their ends, and without empty lines. -/
def cores (lines : List PyStr) : List PyStr := (lines.map strip).filter fun l => l ≠ []

variable {s t x y m l : PyStr} {ls ms : List PyStr} {c : CodePoint}

/-- No characters are spaces. -/
theorem isSpaces_nil : IsSpaces [] := List.forall_mem_nil _

/-- Spaces after spaces are spaces. -/
theorem IsSpaces.append (hx : IsSpaces x) (hy : IsSpaces y) : IsSpaces (x ++ y) := by
  intro c hc
  obtain hc | hc := List.mem_append.1 hc
  · exact hx c hc
  · exact hy c hc

/-- Spaces are spaces from behind as well. -/
theorem IsSpaces.reverse (hx : IsSpaces x) : IsSpaces x.reverse :=
  fun c hc => hx c (List.mem_reverse.1 hc)

/-- A break is white space. -/
theorem CodePoint.isSpace_of_isBreak (h : c.isBreak = true) : c.isSpace = true := by
  unfold isBreak at h
  unfold isSpace
  simp only [Bool.or_eq_true, Bool.and_eq_true, decide_eq_true_eq, beq_iff_eq] at h ⊢
  omega

/-! ## White space at the ends -/

/-- Spaces in front are dropped with those that follow. -/
theorem IsSpaces.dropWhile_append (hx : IsSpaces x) :
    (x ++ s).dropWhile CodePoint.isSpace = s.dropWhile CodePoint.isSpace := by
  induction x with
  | nil => rfl
  | cons c x ih =>
    have hc := hx c List.mem_cons_self
    rw [List.cons_append, List.dropWhile_cons, if_pos hc]
    exact ih fun c hc => hx c (List.mem_cons_of_mem _ hc)

/-- Spaces behind are stripped. -/
theorem strip_append_spaces (hx : IsSpaces x) : strip (x ++ s) = strip s := by
  unfold strip
  rw [hx.dropWhile_append]

/-- Spaces are dropped to the last one. -/
theorem IsSpaces.dropWhile_eq_nil (hx : IsSpaces x) : x.dropWhile CodePoint.isSpace = [] := by
  have hdrop := @IsSpaces.dropWhile_append [] x hx
  rwa [List.append_nil] at hdrop

/-- Spaces are stripped to nothing. -/
theorem strip_eq_nil (hx : IsSpaces x) : strip x = [] := by
  unfold strip
  rw [hx.dropWhile_eq_nil]
  rfl

/-- Spaces in front are stripped. -/
theorem strip_spaces_append (hy : IsSpaces y) : strip (s ++ y) = strip s := by
  by_cases hs : IsSpaces s
  · rw [strip_eq_nil hs, strip_eq_nil (hs.append hy)]
  · have hne : s.dropWhile CodePoint.isSpace ≠ [] := by
      intro hnil
      exact hs fun c hc => List.dropWhile_eq_nil_iff.1 hnil c hc
    have hdrop : (s ++ y).dropWhile CodePoint.isSpace = s.dropWhile CodePoint.isSpace ++ y := by
      rw [List.dropWhile_append, if_neg]
      rwa [List.isEmpty_iff]
    unfold strip
    rw [hdrop, List.reverse_append, hy.reverse.dropWhile_append]

/-- Spaces on both sides are stripped. -/
theorem strip_padded (hx : IsSpaces x) (hy : IsSpaces y) : strip (x ++ m ++ y) = strip m := by
  rw [strip_spaces_append hy, strip_append_spaces hx]

/-- A text is its core between white space. -/
theorem exists_eq_strip (s : PyStr) : ∃ x y, IsSpaces x ∧ IsSpaces y ∧ s = x ++ strip s ++ y := by
  refine ⟨s.takeWhile CodePoint.isSpace,
    ((s.dropWhile CodePoint.isSpace).reverse.takeWhile CodePoint.isSpace).reverse, ?_, ?_, ?_⟩
  · exact fun c hc => List.mem_takeWhile_imp hc
  · exact fun c hc => List.mem_takeWhile_imp (List.mem_reverse.1 hc)
  · unfold strip
    rw [List.append_assoc, ← List.reverse_append, List.takeWhile_append_dropWhile,
      List.reverse_reverse, List.takeWhile_append_dropWhile]

/-- A text is stripped once. -/
theorem strip_strip (s : PyStr) : strip (strip s) = strip s := (trimmed_strip s).strip_eq

/-! ## Cores -/

/-- No lines have no cores. -/
@[simp] theorem cores_nil : cores [] = [] := rfl

/-- A line of spaces has no core. -/
theorem cores_cons_of_strip_eq_nil (h : strip l = []) : cores (l :: ls) = cores ls := by
  unfold cores
  rw [List.map_cons, List.filter_cons, h]
  rfl

/-- The core of a line that is not of spaces is the line stripped. -/
theorem cores_cons_of_strip_ne_nil (h : strip l ≠ []) : cores (l :: ls) = strip l :: cores ls := by
  unfold cores
  rw [List.map_cons, List.filter_cons, decide_eq_true h]
  rfl

/-- Lines have the same cores if they agree up to spaces in the first one and have the same ones
after it. -/
theorem cores_cons_congr (hl : strip l = strip m) (h : cores ls = cores ms) :
    cores (l :: ls) = cores (m :: ms) := by
  unfold cores at h ⊢
  rw [List.map_cons, List.map_cons, List.filter_cons, List.filter_cons, hl, h]

/-- Padded lines have the same cores. -/
theorem Padded.cores_eq (h : Padded ls ms) : cores ls = cores ms := by
  induction h with
  | nil => rfl
  | blank hx _ ih => rwa [cores_cons_of_strip_eq_nil (strip_eq_nil hx)]
  | line hx hy _ ih => exact cores_cons_congr (strip_padded hx hy) ih

/-- Lines are padded cores. -/
theorem padded_cores (ls : List PyStr) : Padded ls (cores ls) := by
  induction ls with
  | nil => exact .nil
  | cons l ls ih =>
    obtain ⟨x, y, hx, hy, heq⟩ := exists_eq_strip l
    by_cases hl : strip l = []
    · rw [cores_cons_of_strip_eq_nil hl]
      rw [hl, List.append_nil] at heq
      refine .blank ?_ ih
      rw [heq]
      exact hx.append hy
    · rw [cores_cons_of_strip_ne_nil hl]
      have hline := @Padded.line x (strip l) y ls (cores ls) hx hy ih
      rwa [← heq] at hline

/-- What holds of all lines is a matter of their cores, if it does not depend on white space at the
ends. -/
theorem all_cores {p : PyStr → Bool} (hstrip : ∀ l, p l = p (strip l)) (hnil : p [] = true) :
    ls.all p = (cores ls).all p := by
  induction ls with
  | nil => rfl
  | cons l ls ih =>
    rw [List.all_cons, hstrip l, ih]
    by_cases hl : strip l = []
    · rw [cores_cons_of_strip_eq_nil hl, hl, hnil, Bool.true_and]
    · rw [cores_cons_of_strip_ne_nil hl, List.all_cons]

/-- Empty lines at the end are dropped under a new first line. -/
theorem dropEmpty_cons_congr (h : dropEmpty ls = dropEmpty ms) :
    dropEmpty (l :: ls) = dropEmpty (l :: ms) := by
  unfold dropEmpty at h ⊢
  rw [List.filter_cons, List.filter_cons, h]

/-- Empty lines at the end have no cores. -/
theorem cores_dropEmpty : cores (dropEmpty ls) = cores ls := by
  induction ls with
  | nil => rfl
  | cons l ls ih =>
    unfold dropEmpty at ih ⊢
    rw [List.filter_cons]
    split_ifs with hl
    · exact cores_cons_congr rfl ih
    · have hnil : l = [] := by rwa [decide_eq_true_eq, not_not] at hl
      rw [ih, hnil, cores_cons_of_strip_eq_nil rfl]

/-! ## Cutting a text -/

/-- A character joins the first line. -/
@[simp] theorem consLine_cons : consLine c (l :: ls) = (c :: l) :: ls := rfl

/-- A line break begins a new line. -/
theorem breakLines_cons_of_isBreak (h : c.isBreak = true) :
    breakLines (c :: s) = [] :: breakLines s := if_pos h

/-- A character that breaks no line joins the line it is in. -/
theorem breakLines_cons_of_not_isBreak (h : c.isBreak = false) :
    breakLines (c :: s) = consLine c (breakLines s) := if_neg (by rw [h]; exact Bool.false_ne_true)

/-- A text has a first line. -/
theorem exists_breakLines_eq (s : PyStr) : ∃ l ls, breakLines s = l :: ls := by
  cases s with
  | nil => exact ⟨[], [], rfl⟩
  | cons c s =>
    cases hc : c.isBreak with
    | true => exact ⟨_, _, breakLines_cons_of_isBreak hc⟩
    | false =>
      rw [breakLines_cons_of_not_isBreak hc]
      cases breakLines s with
      | nil => exact ⟨[c], [], rfl⟩
      | cons l ls => exact ⟨c :: l, ls, rfl⟩

/-- `splitlines` and `breakLines` have the same first line, and the same lines after it but for
empty ones. -/
theorem splitlines_breakLines (s : PyStr) :
    (splitlines s).headD [] = (breakLines s).headD [] ∧
      dropEmpty (splitlines s).tail = dropEmpty (breakLines s).tail := by
  have hcons : ∀ {ls : List PyStr}, dropEmpty (ls.headD [] :: ls.tail) = dropEmpty ls := by
    intro ls
    cases ls with
    | nil => rfl
    | cons l ls => rfl
  induction s with
  | nil => exact ⟨rfl, rfl⟩
  | cons c s ih =>
    obtain ⟨hhead, htail⟩ := ih
    have hall : dropEmpty (splitlines s) = dropEmpty (breakLines s) := by
      rw [← hcons, ← @hcons (breakLines s), hhead]
      exact dropEmpty_cons_congr htail
    unfold splitlines
    split_ifs with hcrlf hbreak
    · -- the break comes with the newline
      obtain ⟨rfl, hnewline⟩ := hcrlf
      obtain ⟨rest, rfl⟩ : ∃ rest, s = codePoint 0x0A :: rest := by
        cases s with
        | nil => exact nomatch hnewline
        | cons d rest => exact ⟨rest, by rw [Option.some.inj hnewline]⟩
      rw [breakLines_cons_of_isBreak (by decide)]
      rw [breakLines_cons_of_isBreak (by decide)] at hhead htail ⊢
      exact ⟨hhead, htail⟩
    · rw [breakLines_cons_of_isBreak hbreak]
      exact ⟨rfl, hall⟩
    · rw [breakLines_cons_of_not_isBreak (Bool.eq_false_iff.2 hbreak)]
      obtain ⟨l, ls, hlines⟩ := exists_breakLines_eq s
      rw [hlines] at hhead htail ⊢
      cases hsplit : splitlines s with
      | nil =>
        rw [hsplit] at hhead htail
        exact ⟨congrArg (c :: ·) hhead, htail⟩
      | cons l' ls' =>
        rw [hsplit] at hhead htail
        exact ⟨congrArg (c :: ·) hhead, htail⟩

/-- The lines of `splitlines` are those between the breaks, but for empty ones. -/
theorem dropEmpty_splitlines (s : PyStr) : dropEmpty (splitlines s) = dropEmpty (breakLines s) := by
  obtain ⟨hhead, htail⟩ := splitlines_breakLines s
  obtain ⟨l, ls, hlines⟩ := exists_breakLines_eq s
  rw [hlines] at hhead htail ⊢
  cases hsplit : splitlines s with
  | nil =>
    rw [hsplit] at hhead htail
    obtain rfl : [] = l := hhead
    exact htail
  | cons l' ls' =>
    rw [hsplit] at hhead htail
    obtain rfl : l' = l := hhead
    exact dropEmpty_cons_congr htail

/-- The cores of the lines are those of the pieces between the breaks. -/
theorem cores_splitlines (s : PyStr) : cores (splitlines s) = cores (breakLines s) := by
  rw [← cores_dropEmpty, dropEmpty_splitlines, cores_dropEmpty]

/-- A line has no break in it. -/
theorem isBreak_of_mem_splitlines (hl : l ∈ splitlines s) : ∀ c ∈ l, c.isBreak = false := by
  induction s generalizing l with
  | nil => exact absurd hl List.not_mem_nil
  | cons c s ih =>
    unfold splitlines at hl
    split_ifs at hl with hcrlf hbreak
    · exact ih hl
    · obtain rfl | hl := List.mem_cons.1 hl
      · exact List.forall_mem_nil _
      · exact ih hl
    · have hc := Bool.eq_false_iff.2 hbreak
      cases hsplit : splitlines s with
      | nil =>
        rw [hsplit] at hl
        rw [List.mem_singleton.1 hl]
        exact List.forall_mem_cons.2 ⟨hc, List.forall_mem_nil _⟩
      | cons l' ls =>
        rw [hsplit] at hl ih
        obtain rfl | hl := List.mem_cons.1 hl
        · exact List.forall_mem_cons.2 ⟨hc, ih List.mem_cons_self⟩
        · exact ih (List.mem_cons_of_mem _ hl)

/-- What is no break is in a line. -/
theorem exists_mem_splitlines (hmem : c ∈ s) (hc : c.isBreak = false) :
    ∃ l ∈ splitlines s, c ∈ l := by
  induction s with
  | nil => exact absurd hmem List.not_mem_nil
  | cons d s ih =>
    have hrest (hd : d.isBreak = true) : ∃ l ∈ splitlines s, c ∈ l := by
      obtain rfl | hmem := List.mem_cons.1 hmem
      · rw [hc] at hd
        exact nomatch hd
      · exact ih hmem
    unfold splitlines
    -- The text begins with two characters that break, with one that does, or with none.
    split_ifs with hcrlf hbreak
    · exact hrest (by rw [hcrlf.1]; decide)
    · obtain ⟨l, hl, hcl⟩ := hrest hbreak
      exact ⟨l, List.mem_cons_of_mem _ hl, hcl⟩
    · cases hsplit : splitlines s with
      | nil =>
        obtain rfl | hmem := List.mem_cons.1 hmem
        · exact ⟨[c], List.mem_cons_self, List.mem_cons_self⟩
        · obtain ⟨l, hl, -⟩ := ih hmem
          rw [hsplit] at hl
          exact absurd hl List.not_mem_nil
      | cons l ls =>
        obtain rfl | hmem := List.mem_cons.1 hmem
        · exact ⟨c :: l, List.mem_cons_self, List.mem_cons_self⟩
        · obtain ⟨l', hl', hcl⟩ := ih hmem
          rw [hsplit] at hl'
          obtain rfl | hl' := List.mem_cons.1 hl'
          · exact ⟨d :: l', List.mem_cons_self, List.mem_cons_of_mem d hcl⟩
          · exact ⟨l', List.mem_cons_of_mem _ hl', hcl⟩

/-- A text without breaks is one line. -/
theorem breakLines_of_forall (h : ∀ c ∈ l, c.isBreak = false) : breakLines l = [l] := by
  induction l with
  | nil => rfl
  | cons c l ih =>
    obtain ⟨hc, hl⟩ := List.forall_mem_cons.1 h
    rw [breakLines_cons_of_not_isBreak hc, ih hl, consLine_cons]

/-- A text is broken at its first break. -/
theorem breakLines_append_break (h : ∀ c ∈ l, c.isBreak = false) (hc : c.isBreak = true) :
    breakLines (l ++ c :: s) = l :: breakLines s := by
  induction l with
  | nil => exact breakLines_cons_of_isBreak hc
  | cons d l ih =>
    obtain ⟨hd, hl⟩ := List.forall_mem_cons.1 h
    rw [List.cons_append, breakLines_cons_of_not_isBreak hd, ih hl, consLine_cons]

/-- Lines that are joined are cut into the same lines. -/
theorem cores_breakLines_joinLines (h : ∀ l ∈ ls, ∀ c ∈ l, c.isBreak = false) :
    cores (breakLines (joinLines ls)) = cores ls := by
  induction ls with
  | nil => rfl
  | cons l ls ih =>
    obtain ⟨hl, hls⟩ := List.forall_mem_cons.1 h
    cases ls with
    | nil =>
      show cores (breakLines l) = cores [l]
      rw [breakLines_of_forall hl]
    | cons l' ls =>
      show cores (breakLines (l ++ codePoint 0x0A :: joinLines (l' :: ls))) = _
      rw [breakLines_append_break hl (by decide)]
      exact cores_cons_congr rfl (ih hls)

/-! ## Padding -/

/-- Lines are padded by nothing. -/
theorem Padded.refl (ls : List PyStr) : Padded ls ls := by
  induction ls with
  | nil => exact .nil
  | cons l ls ih =>
    have hline := @Padded.line [] l [] ls ls isSpaces_nil isSpaces_nil ih
    rwa [List.nil_append, List.append_nil] at hline

/-- Lines of which the first differs by white space at its right end only. -/
def Flush (ls ms : List PyStr) : Prop :=
  ∃ l y ls' ms', ls = (l ++ y) :: ls' ∧ ms = l :: ms' ∧ IsSpaces y ∧ Padded ls' ms'

/-- Lines with spaces at the end of the last one are padded. -/
theorem Flush.padded (h : Flush ls ms) : Padded ls ms := by
  obtain ⟨l, y, ls', ms', rfl, rfl, hy, hrest⟩ := h
  exact @Padded.line [] l y ls' ms' isSpaces_nil hy hrest

/-- A character in front keeps lines flush. -/
theorem Flush.consLine (h : Flush ls ms) : Flush (consLine c ls) (consLine c ms) := by
  obtain ⟨l, y, ls', ms', rfl, rfl, hy, hrest⟩ := h
  exact ⟨c :: l, y, ls', ms', rfl, rfl, hy, hrest⟩

/-- A space in front is padding. -/
theorem Padded.consLine (hc : c.isSpace = true) (h : Padded ls ms) : Padded (consLine c ls) ms := by
  have hcons : ∀ {x}, IsSpaces x → IsSpaces (c :: x) := fun hx => List.forall_mem_cons.2 ⟨hc, hx⟩
  cases h with
  | nil => exact .blank (hcons isSpaces_nil) .nil
  | blank hx hrest => exact .blank (hcons hx) hrest
  | line hx hy hrest => exact .line (hcons hx) hy hrest

/-- Spaces in front of a text are padding of its lines. -/
theorem padded_breakLines_append (hx : IsSpaces x) :
    Padded (breakLines (x ++ s)) (breakLines s) := by
  induction x with
  | nil => exact Padded.refl _
  | cons c x ih =>
    obtain ⟨hc, hx⟩ := List.forall_mem_cons.1 hx
    rw [List.cons_append]
    cases hbreak : c.isBreak with
    | true =>
      rw [breakLines_cons_of_isBreak hbreak]
      exact .blank isSpaces_nil (ih hx)
    | false =>
      rw [breakLines_cons_of_not_isBreak hbreak]
      exact (ih hx).consLine hc

/-- Lines of spaces are padding. -/
theorem padded_nil (h : ∀ l ∈ ls, IsSpaces l) : Padded ls [] := by
  induction ls with
  | nil => exact .nil
  | cons l ls ih =>
    obtain ⟨hl, hls⟩ := List.forall_mem_cons.1 h
    exact .blank hl (ih hls)

/-- The lines of spaces are spaces. -/
theorem isSpaces_of_mem_breakLines (hy : IsSpaces y) : ∀ l ∈ breakLines y, IsSpaces l := by
  induction y with
  | nil => exact List.forall_mem_singleton.2 isSpaces_nil
  | cons c y ih =>
    obtain ⟨hc, hy⟩ := List.forall_mem_cons.1 hy
    have hlines := ih hy
    cases hbreak : c.isBreak with
    | true =>
      rw [breakLines_cons_of_isBreak hbreak]
      exact List.forall_mem_cons.2 ⟨isSpaces_nil, hlines⟩
    | false =>
      obtain ⟨l, ls, heq⟩ := exists_breakLines_eq y
      rw [heq] at hlines
      obtain ⟨hl, hls⟩ := List.forall_mem_cons.1 hlines
      rw [breakLines_cons_of_not_isBreak hbreak, heq, consLine_cons]
      exact List.forall_mem_cons.2 ⟨List.forall_mem_cons.2 ⟨hc, hl⟩, hls⟩

/-- Spaces behind a text change its last line, or come after it. -/
theorem flush_breakLines_append (hy : IsSpaces y) : Flush (breakLines (s ++ y)) (breakLines s) := by
  induction s with
  | nil =>
    obtain ⟨l, ls, hlines⟩ := exists_breakLines_eq y
    have hspaces := isSpaces_of_mem_breakLines hy
    rw [hlines] at hspaces
    obtain ⟨hl, hls⟩ := List.forall_mem_cons.1 hspaces
    exact ⟨[], l, ls, [], hlines, rfl, hl, padded_nil hls⟩
  | cons c s ih =>
    rw [List.cons_append]
    cases hbreak : c.isBreak with
    | true =>
      rw [breakLines_cons_of_isBreak hbreak, breakLines_cons_of_isBreak hbreak]
      exact ⟨[], [], _, _, rfl, rfl, isSpaces_nil, ih.padded⟩
    | false =>
      rw [breakLines_cons_of_not_isBreak hbreak, breakLines_cons_of_not_isBreak hbreak]
      exact ih.consLine

/-- White space at the ends of a text makes no difference to its cores. -/
theorem cores_breakLines_strip (s : PyStr) :
    cores (breakLines (strip s)) = cores (breakLines s) := by
  obtain ⟨x, y, hx, hy, heq⟩ := exists_eq_strip s
  have hcores : cores (breakLines (x ++ strip s ++ y)) = cores (breakLines (strip s)) := by
    rw [List.append_assoc, (padded_breakLines_append hx).cores_eq]
    exact (flush_breakLines_append hy).padded.cores_eq
  rw [← hcores, ← heq]

end MarketDataGateway.Lib
