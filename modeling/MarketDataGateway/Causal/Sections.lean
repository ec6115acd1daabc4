import MarketDataGateway.Lib.Outline

/-!
# The sections of a pull request

`parse_causal_sections` of `build_causal_pr_report.py`, with the patterns `FENCE_RE` and
`ATX_HEADING_RE`. What `str.casefold` and `str.isdecimal` make of characters that are not of ASCII
is given from outside.
-/

namespace MarketDataGateway.Causal

open Lib

/-- What is relied on of Unicode for characters that are not of ASCII. -/
structure UnicodeTables where
  /-- `str.casefold`. -/
  casefold : CodePoint → PyStr
  /-- `str.isdecimal`. -/
  isDecimal : CodePoint → Bool

/-- `SECTION_TITLES`. -/
inductive SectionTitle
  | failurePath
  | invariantAfterChange
  | regressionEvidence
  | residualRisk
  deriving DecidableEq

/-- The text of a title. -/
def SectionTitle.title : SectionTitle → PyStr
  | failurePath => text "Failure path"
  | invariantAfterChange => text "Invariant after change"
  | regressionEvidence => text "Regression evidence"
  | residualRisk => text "Residual risk"

/-- The titles in their order. -/
def SectionTitle.all : List SectionTitle :=
  [failurePath, invariantAfterChange, regressionEvidence, residualRisk]

/-- A character of ASCII. -/
def char (c : Char) : CodePoint := CodePoint.ofChar c

/-- `[ \t]`. -/
def isBlank (c : CodePoint) : Bool := c == char ' ' || c == char '\t'

/-- A line without `[ ]{0,3}` in front, and before anything but a space. -/
def dropIndent (line : PyStr) : Option PyStr :=
  if (line.takeWhile (· == char ' ')).length ≤ 3
    then some (line.dropWhile (· == char ' ')) else none

/-- The groups of `FENCE_RE`: the marker, as its character and its length, and the suffix. -/
def fenceOf (line : PyStr) : Option (CodePoint × ℕ × PyStr) :=
  match dropIndent line with
  | some (c :: rest) =>
    if (c == char '`' || c == char '~') && decide (3 ≤ ((c :: rest).takeWhile (· == c)).length) then
      some (c, ((c :: rest).takeWhile (· == c)).length, (c :: rest).dropWhile (· == c))
    else none
  | _ => none

/-- The groups of `ATX_HEADING_RE`: the length of the first, and the second. -/
def atxHeading (line : PyStr) : Option (ℕ × Option PyStr) :=
  match dropIndent line with
  | none => none
  | some rest =>
    let level := (rest.takeWhile (· == char '#')).length
    if 1 ≤ level ∧ level ≤ 6 then
      match rest.dropWhile (· == char '#') with
      | [] => some (level, none)
      | c :: tail =>
        if isBlank c then some (level,
          some (((c :: tail).dropWhile isBlank).rdropWhile isBlank)) else none
    else none

/-- `normalize_atx_title`. The closing characters go if blanks stand before them. -/
def normalizeAtxTitle (value : Option PyStr) : PyStr :=
  let title := value.getD []
  let closed := title.rdropWhile isBlank
  let before := closed.rdropWhile (· == char '#')
  if closed ≠ before ∧ before.getLast?.any isBlank
    then strip (before.rdropWhile isBlank) else strip title

section Tables

variable (tables : UnicodeTables)

/-- `str.casefold`. -/
def casefold (s : PyStr) : PyStr :=
  s.flatMap fun c =>
    if c.val < 0x80 then [if 0x41 ≤ c.val ∧ c.val ≤ 0x5A then codePoint (c.val + 0x20) else c]
    else tables.casefold c

/-- `headings.get(title.casefold())`. -/
def sectionOf (title : PyStr) : Option SectionTitle :=
  SectionTitle.all.find? fun t => casefold tables t.title == casefold tables title

/-- The section that a line makes active, if it is a heading. -/
def headingOf (line : PyStr) : Option (Option SectionTitle) :=
  (atxHeading line).map fun (level, rawTitle) =>
    if level = 3 then sectionOf tables (normalizeAtxTitle rawTitle) else none

/-- The variables of `parse_causal_sections`. -/
structure Parser where
  /-- `active`. -/
  active : Option SectionTitle
  /-- `fence_character` and `fence_length`. -/
  fence : Option (CodePoint × ℕ)
  /-- `sections`. -/
  sections : SectionTitle → List PyStr

/-- A line is read. -/
def Parser.step (s : Parser) (line : PyStr) : Parser :=
  match fenceOf line with
  | some (character, length, suffix) =>
    match s.fence with
    | none => { s with fence := some (character, length) }
    | some (character', length') =>
      if character = character' ∧ length' ≤ length ∧
        strip suffix = [] then { s with fence := none } else s
  | none =>
    if s.fence.isSome then s
    else
      match headingOf tables line with
      | some active => { s with active := active }
      | none =>
        match s.active with
        | some t => { s with sections := Function.update s.sections t (s.sections t ++ [line]) }
        | none => s

/-- The variables before the first line. -/
def Parser.init : Parser := ⟨none, none, fun _ => []⟩

/-- `strip_html_comments`. -/
def stripHtmlComments (value : PyStr) : PyStr := strip (removeComments value)

/-- `parse_causal_sections`. -/
def parseCausalSections (body : PyStr) (t : SectionTitle) : PyStr :=
  stripHtmlComments (joinLines
    (((splitlines body).foldl (Parser.step tables) Parser.init).sections t))

end Tables

variable {tables : UnicodeTables} {lines : List PyStr}

/-- An empty line is no heading. -/
theorem headingOf_nil : headingOf tables [] = none := rfl

/-- Without fences, the lines of a section are those under its headings. -/
theorem sections_foldl (hfence : ∀ l ∈ lines, fenceOf l = none) (s : Parser) (hs : s.fence = none)
    (t : SectionTitle) : (lines.foldl (Parser.step tables) s).sections t =
      s.sections t ++ collect (headingOf tables)
      (fun active => active = some t) s.active lines := by
  induction lines generalizing s with
  | nil => exact (List.append_nil _).symm
  | cons l lines ih =>
    obtain ⟨hl, hlines⟩ := List.forall_mem_cons.1 hfence
    -- Where no fence is open, a line is a heading or belongs to the active section.
    have hstep : s.step tables l = match headingOf tables l with
        | some active => { s with active := active }
        | none =>
          match s.active with
          | some t => { s with sections := Function.update s.sections t (s.sections t ++ [l]) }
          | none => s := by
      unfold Parser.step
      rw [hl, hs]
      rfl
    rw [List.foldl_cons, hstep]
    cases hheading : headingOf tables l with
    | some active =>
      rw [collect_cons_some hheading]
      exact ih hlines { s with active := active } hs
    | none =>
      rw [collect_cons_none hheading]
      cases hactive : s.active with
      | none =>
        have hrest := ih hlines s hs
        rw [hactive] at hrest
        exact hrest
      -- The line goes to the section that is active, which may be another one.
      | some t' =>
        have hrest := ih hlines
          { s with sections := Function.update s.sections t' (s.sections t' ++ [l]) } hs
        dsimp only at hrest ⊢
        rw [hactive] at hrest
        rw [hrest]
        by_cases heq : t' = t
        · rw [heq, Function.update_self, if_pos (decide_eq_true rfl), List.append_assoc,
            List.singleton_append]
        · have hne : ¬(decide (some t' = some t)) = true := by
            rw [decide_eq_true_eq, Option.some_inj]
            exact heq
          rw [Function.update_of_ne (Ne.symm heq), if_neg hne]

end MarketDataGateway.Causal
