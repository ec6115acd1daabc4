import MarketDataGateway.Causal.Sections

/-!
# Placeholders

`normalize_markdown_item` and `is_placeholder` of `build_causal_pr_report.py`, with
`PLACEHOLDER_RE`, and what becomes of the sections of a pull request that has comments. Headings are
looked for in lines with their comments, and the comments are left out of each section afterwards.
-/

namespace MarketDataGateway.Causal

open Lib

/-- `^(?:>\s*)+` is left out. -/
def dropQuote (line : PyStr) : PyStr :=
  if line.head? = some (char '>') then line.dropWhile fun c => c == char '>' || c.isSpace else line

/-- `^\[[ xX]\]\s*` is left out. -/
def dropCheckbox : PyStr → PyStr
  | a :: b :: c :: rest =>
    if a = char '[' ∧ (b = char ' ' ∨ b = char 'x' ∨ b = char 'X') ∧ c = char ']' then
      rest.dropWhile CodePoint.isSpace
    else a :: b :: c :: rest
  | line => line

section Tables

variable (tables : UnicodeTables)

/-- `\d`. -/
def isDecimal (c : CodePoint) : Bool :=
  if c.val < 0x80 then decide (0x30 ≤ c.val ∧ c.val ≤ 0x39) else tables.isDecimal c

/-- `^(?:[-*+]\s+|\d+[.)]\s+)` is left out. -/
def dropBullet (line : PyStr) : PyStr :=
  let rest := match line with
    | c :: rest =>
      if c = char '-' ∨ c = char '*' ∨ c = char '+' then some rest
      else if isDecimal tables c then
        match line.dropWhile (isDecimal tables) with
        | d :: rest => if d = char '.' ∨ d = char ')' then some rest else none
        | [] => none
      else none
    | [] => none
  match rest with
  | some (c :: rest) => if c.isSpace then rest.dropWhile CodePoint.isSpace else line
  | _ => line

/-- The body of the loop of `normalize_markdown_item`. -/
def normalizePass (line : PyStr) : PyStr :=
  strip (dropCheckbox (strip (dropBullet tables (strip (dropQuote line)))))

/-- The loop, with a bound on its passes. -/
def normalizeLoop : ℕ → PyStr → PyStr
  | 0, line => line
  | n + 1, line =>
    if normalizePass tables line = line then line else normalizeLoop n (normalizePass tables line)

/-- `normalize_markdown_item`. -/
def normalizeMarkdownItem (rawLine : PyStr) : PyStr :=
  normalizeLoop tables (strip rawLine).length (strip rawLine)

/-- A letter of `PLACEHOLDER_RE`, with `re.IGNORECASE`. -/
def sameLetter (letter c : CodePoint) : Bool :=
  c == letter || (decide (0x61 ≤ letter.val ∧
    letter.val ≤ 0x7A) && c == codePoint (letter.val - 0x20)) ||
    (letter == char 'i' && (c == codePoint 0x130 || c == codePoint 0x131)) ||
    (letter == char 's' && c == codePoint 0x17F)

/-- What follows a word, if the text starts with it. -/
def afterWord : PyStr → PyStr → Option PyStr
  | [], s => some s
  | _ :: _, [] => none
  | letter :: word, c :: s => if sameLetter letter c then afterWord word s else none

/-- The words of `PLACEHOLDER_RE`. -/
def placeholderWords : List PyStr :=
  ["todo", "tbd", "placeholder", "describe", "describe here", "fill this in", "n/a",
    "na", "none"].map text

/-- `[\s:;,.!\-]`. -/
def isFiller (c : CodePoint) : Bool := c.isSpace || (text ":;,.!-").contains c

/-- `PLACEHOLDER_RE.fullmatch`. -/
def matchesPlaceholder (line : PyStr) : Bool :=
  let rest := match line with
    | c :: rest => if c = char '-' ∨ c = char '*' then rest.dropWhile CodePoint.isSpace else line
    | [] => []
  placeholderWords.any fun word => (afterWord word rest).any fun tail => tail.all isFiller

/-- `is_placeholder`. -/
def isPlaceholder (value : PyStr) : Bool :=
  let normalized := strip (stripHtmlComments value)
  if normalized = [] then true
  else
    let meaningful :=
      ((splitlines normalized).map (normalizeMarkdownItem tables)).filter fun l => l ≠ []
    decide (meaningful = []) || meaningful.all matchesPlaceholder

/-- Whether a section of a body is missing, empty or a placeholder. -/
def verdict (body : PyStr) (t : SectionTitle) : Bool :=
  isPlaceholder tables (parseCausalSections tables body t)

end Tables

variable {tables : UnicodeTables} {line l : PyStr}

/-! ## Items -/

/-- A text that is stripped is part of the text. -/
theorem strip_isInfix (s : PyStr) : strip s <:+: s := by
  obtain ⟨x, y, -, -, heq⟩ := exists_eq_strip s
  exact ⟨x, y, heq.symm⟩

/-- What is left without a quotation mark is the end of the line. -/
theorem dropQuote_suffix (line : PyStr) : dropQuote line <:+ line := by
  unfold dropQuote
  split_ifs
  · exact List.dropWhile_suffix _
  · exact List.suffix_refl _

/-- What is left without a box is the end of the line. -/
theorem dropCheckbox_suffix (line : PyStr) : dropCheckbox line <:+ line := by
  unfold dropCheckbox
  split
  · rename_i a b c rest
    split_ifs
    · exact (List.dropWhile_suffix _).trans ⟨[a, b, c], rfl⟩
    · exact List.suffix_refl _
  · exact List.suffix_refl _

/-- What is left without a bullet is the end of the line. -/
theorem dropBullet_suffix (line : PyStr) : dropBullet tables line <:+ line := by
  unfold dropBullet
  dsimp only
  split
  · next c rest hmarker =>
    -- The marker is one character, or digits and the one behind them.
    have hcons : c :: rest <:+ line := by
      cases line with
      | nil => cases hmarker
      | cons d tail =>
        dsimp only at hmarker
        split_ifs at hmarker
        · rw [← Option.some.inj hmarker]
          exact List.suffix_cons d _
        · cases hdrop : (d :: tail).dropWhile (isDecimal tables) with
          | nil =>
            rw [hdrop] at hmarker
            cases hmarker
          | cons e rest' =>
            rw [hdrop] at hmarker
            dsimp only at hmarker
            split_ifs at hmarker
            have hsuffix := List.dropWhile_suffix (l := d :: tail) (isDecimal tables)
            rw [hdrop] at hsuffix
            rw [← Option.some.inj hmarker]
            exact (List.suffix_cons e _).trans hsuffix
    split_ifs
    · exact (List.dropWhile_suffix _).trans ((List.suffix_cons c rest).trans hcons)
    · exact List.suffix_refl _
  · exact List.suffix_refl _

/-- What a pass leaves is part of the line. -/
theorem normalizePass_isInfix (line : PyStr) : normalizePass tables line <:+: line := by
  unfold normalizePass
  exact (strip_isInfix _).trans ((dropCheckbox_suffix _).isInfix.trans ((strip_isInfix _).trans
    ((dropBullet_suffix _).isInfix.trans ((strip_isInfix _).trans (dropQuote_suffix _).isInfix))))

/-- Nothing is left to do after as many passes as the line has characters. -/
theorem normalizePass_normalizeLoop {n : ℕ} (h : line.length ≤ n) :
    normalizePass tables (normalizeLoop tables n line) = normalizeLoop tables n line := by
  induction n generalizing line with
  | zero =>
    obtain rfl : line = [] := List.length_eq_zero_iff.1 (Nat.le_zero.1 h)
    rfl
  | succ n ih =>
    unfold normalizeLoop
    split_ifs with hfixed
    · exact hfixed
    · have hwithin := @normalizePass_isInfix tables line
      have hne : (normalizePass tables line).length ≠ line.length := fun heq =>
        hfixed (hwithin.eq_of_length heq)
      have hle := hwithin.length_le
      exact ih (by omega)

/-- The loop ends where a pass changes nothing. -/
theorem normalizePass_normalizeMarkdownItem (rawLine : PyStr) :
    normalizePass tables (normalizeMarkdownItem tables rawLine) =
    normalizeMarkdownItem tables rawLine :=
  normalizePass_normalizeLoop (le_refl _)

/-! ## Comments -/

variable {b b' value : PyStr} {lines : List PyStr} {t : SectionTitle}

/-- A line says nothing: it is empty, or a placeholder. -/
def saysNothing (tables : UnicodeTables) (line : PyStr) : Bool :=
  decide (normalizeMarkdownItem tables line = []) ||
    matchesPlaceholder (normalizeMarkdownItem tables line)

/-- A line says nothing if it does not when it is stripped. -/
theorem saysNothing_strip (line : PyStr) :
    saysNothing tables line = saysNothing tables (strip line) := by
  unfold saysNothing normalizeMarkdownItem
  rw [strip_strip]

/-- A value is a placeholder if each of its lines says nothing. -/
theorem isPlaceholder_eq_all : isPlaceholder tables value =
    (splitlines (strip (stripHtmlComments value))).all (saysNothing tables) := by
  unfold isPlaceholder
  dsimp only
  split_ifs with hempty
  · rw [hempty]
    rfl
  · generalize splitlines (strip (stripHtmlComments value)) = lines
    induction lines with
    | nil => rfl
    | cons l lines ih =>
      rw [List.all_cons, ← ih, List.map_cons, List.filter_cons]
      unfold saysNothing
      by_cases hl : normalizeMarkdownItem tables l = []
      · simp only [hl, ne_eq, not_true_eq_false, decide_false, Bool.false_eq_true, if_false,
          decide_true, Bool.true_or, Bool.true_and]
      · simp only [hl, ne_eq, not_false_eq_true, decide_true, if_true, decide_false, Bool.false_or,
          List.all_cons, reduceCtorEq]
        cases hrest : (lines.map (normalizeMarkdownItem tables)).filter fun l => decide ¬l = [] with
        | nil => simp only [List.all_nil, decide_true, Bool.true_or, Bool.and_true]
        | cons m rest => simp only [reduceCtorEq, decide_false, Bool.false_or]

/-- The cores of the lines of a text whose comments have been left out. -/
theorem cores_breakLines_stripHtmlComments :
    cores (breakLines (stripHtmlComments value)) =
    cores (stripLines false (cores (breakLines value))) := by
  unfold stripHtmlComments
  rw [cores_breakLines_strip, breakLines_removeComments, cores_stripLines]

/-- The verdict on lines that are joined is a matter of what is left of them. -/
theorem isPlaceholder_joinLines (h : ∀ l ∈ lines, ∀ c ∈ l, c.isBreak = false) :
    isPlaceholder tables (stripHtmlComments (joinLines lines)) =
      (cores (stripLines false (cores (stripLines false lines)))).all (saysNothing tables) := by
  have hnil : saysNothing tables [] = true := rfl
  have hcores : cores (breakLines (stripHtmlComments (joinLines lines))) =
      cores (stripLines false lines) := by
    rw [cores_breakLines_stripHtmlComments, cores_breakLines_joinLines h, ← cores_stripLines]
  rw [isPlaceholder_eq_all, all_cores saysNothing_strip hnil, cores_splitlines,
    cores_breakLines_strip, cores_breakLines_stripHtmlComments, hcores]

/-- A line that is collected is one of the lines. -/
theorem mem_of_mem_collect {α : Type*} {heading : PyStr → Option α} {p : α → Bool} {a : α}
    (h : l ∈ collect heading p a lines) : l ∈ lines := by
  induction lines generalizing a with
  | nil => exact h
  | cons m lines ih =>
    cases hm : heading m with
    | some a' =>
      rw [collect_cons_some hm] at h
      exact List.mem_cons_of_mem m (ih h)
    | none =>
      rw [collect_cons_none hm] at h
      split_ifs at h
      · obtain rfl | h := List.mem_cons.1 h
        · exact List.mem_cons_self
        · exact List.mem_cons_of_mem m (ih h)
      · exact List.mem_cons_of_mem m (ih h)

/-- The verdict on a section of a body whose comments are contained depends on the body without
them. -/
theorem verdict_eq_all (hfence : ∀ l ∈ splitlines b, fenceOf l = none)
    (h : Contained (headingOf tables) none (splitlines b)) :
    verdict tables b t = (cores (stripLines false (cores (collect (headingOf tables)
      (fun active => active =
      some t) none (breakLines (removeComments b)))))).all (saysNothing tables) := by
  have hlines := @sections_foldl tables (splitlines b) hfence Parser.init rfl t
  rw [show Parser.init.sections t = [] from rfl, List.nil_append] at hlines
  unfold verdict parseCausalSections
  rw [hlines, isPlaceholder_joinLines, cores_stripLines_collect headingOf_nil h]
  · rfl
  · exact fun l hl => isBreak_of_mem_splitlines (mem_of_mem_collect hl)

/-- Two bodies without fences that are the same when their comments are left out get the same
verdicts, if their comments neither touch nor make headings. -/
theorem comments_are_hidden (hfence : ∀ l ∈ splitlines b, fenceOf l = none)
    (hfence' : ∀ l ∈ splitlines b', fenceOf l = none) (hsame : removeComments b = removeComments b')
    (h : Contained (headingOf tables) none (splitlines b))
    (h' : Contained (headingOf tables) none (splitlines b')) (t : SectionTitle) :
    verdict tables b t = verdict tables b' t := by
  rw [verdict_eq_all hfence h, verdict_eq_all hfence' h', hsame]

/-- Characters that are not of ASCII stand for themselves. -/
def sampleTables : UnicodeTables := ⟨fun c => [c], fun _ => false⟩

/-- A comment within a section, over two lines. -/
theorem comments_are_hidden_sample :
    verdict sampleTables (text "### Failure path\nA <!-- ### hint\n todo -->reader waits.")
    .failurePath =
      verdict sampleTables (text "### Failure path\nA reader waits.") .failurePath :=
  comments_are_hidden (by decide +kernel) (by decide +kernel)
    (by decide +kernel) (by decide +kernel)
    (by decide +kernel) .failurePath

/-- A comment in which there are a heading and a line under it. -/
theorem comment_opens_section : ¬∀ b b' : PyStr, (∀ l ∈ splitlines b, fenceOf l = none) →
    (∀ l ∈ splitlines b', fenceOf l = none) → removeComments b = removeComments b' →
    ∀ t, verdict sampleTables b t = verdict sampleTables b' t := by
  intro h
  have hsame := h (text "### Failure path\n<!--\n### Invariant after change\nfoo\n-->")
    (text "### Failure path\n") (by decide +kernel) (by decide +kernel) (by decide +kernel)
    .invariantAfterChange
  have hleft : verdict sampleTables
      (text "### Failure path\n<!--\n### Invariant after change\nfoo\n-->") .invariantAfterChange =
      false := by
    decide +kernel
  have hright : verdict sampleTables (text "### Failure path\n") .invariantAfterChange = true := by
    decide +kernel
  rw [hleft, hright] at hsame
  exact Bool.false_ne_true hsame

end MarketDataGateway.Causal
