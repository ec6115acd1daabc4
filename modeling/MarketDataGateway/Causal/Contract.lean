import MarketDataGateway.Causal.Sections

/-!
# The contract of a gate command

`reject_shell_failure_masking` and `require_base_bound_execution` of
`check_causal_workflow_contract.py`: the conditions on the text of a step that has to run the tool
of the base commit. They look at the stripped lines of the text that are not empty.
`requireBaseBoundExecution_lines` is what they make sure of.
-/

namespace MarketDataGateway.Causal

open Lib

/-! ## The code -/

/-- `command.replace("\r\n", "\n")`. -/
def replaceCrLf : PyStr → PyStr
  | [] => []
  | [c] => [c]
  | c :: d :: rest =>
    if c = codePoint 0x0D ∧ d = codePoint 0x0A then codePoint 0x0A :: replaceCrLf rest
    else c :: replaceCrLf (d :: rest)

/-- `forbidden`: the descriptions and the markers. -/
def forbidden : List (PyStr × PyStr) :=
  [(text "logical OR", text "||"), (text "logical AND", text "&&"), (text "pipeline", text "|"),
    (text "command substitution", text "$("), (text "legacy command substitution", text "`"),
    (text "errexit disable", text "set +e"), (text "errexit option disable", text "set +o errexit")]

/-- What follows each newline of a text. -/
def afterNewlines : PyStr → List PyStr
  | [] => []
  | c :: rest => if c = codePoint 0x0A then rest :: afterNewlines rest else afterNewlines rest

/-- `(?m)^\s*trap(?:\s|$)`. -/
def hasTrap (s : PyStr) : Bool :=
  (s :: afterNewlines s).any fun t =>
    let rest := t.dropWhile CodePoint.isSpace
    decide (text "trap" <+: rest) && (rest.drop 4).head?.all CodePoint.isSpace

/-- The stripped lines of a text that are not empty. -/
def strippedLines (s : PyStr) : List PyStr := cores (splitlines s)

/-- `reject_shell_failure_masking`. -/
def rejectShellFailureMasking (command label : PyStr) : Except PyStr Unit :=
  let normalized := replaceCrLf command
  match forbidden.find? fun f => decide (f.2 <:+: normalized) with
  | some f => .error (label ++ text " contains shell-level failure masking: " ++ f.1)
  | none =>
    if hasTrap normalized then
      .error (label ++ text " contains shell-level failure masking: error trap")
    else
      let lines := strippedLines normalized
      if lines.head? ≠ some (text "set -euo pipefail") then
        .error (label ++ text " must begin with set -euo pipefail")
      else if lines.getLast? ≠ some (text "fi") then
        .error (label ++ text " must end at the fail-closed conditional")
      else if lines.any fun line => line = text "true" || line = text ":" then
        .error (label ++ text " contains shell-level failure masking: unconditional success")
      else .ok ()

/-- `extraction`. -/
def extraction (sourcePath : PyStr) : PyStr :=
  text "git show \"$\x7bBASE_SHA\x7d:" ++ sourcePath ++ text "\" \\"

/-- `destination`. -/
def destination (extractedName : PyStr) : PyStr :=
  text "> \"$\x7bRUNNER_TEMP\x7d/" ++ extractedName ++ text "\""

/-- `base_execution`. -/
def baseExecution (extractedName : PyStr) : PyStr :=
  text "python \"$\x7bRUNNER_TEMP\x7d/" ++ extractedName ++ text "\" \\"

/-- `bootstrap_guard`. -/
def bootstrapGuard : PyStr :=
  text "elif [[ \"$\x7bBASE_SHA\x7d\" == \"$\x7bBOOTSTRAP_BASE_SHA\x7d\" ]]; then"

/-- `bootstrap_execution`. -/
def bootstrapExecution (sourcePath : PyStr) : PyStr := text "python " ++ sourcePath ++ text " \\"

/-- `required_once`: the descriptions and the lines. -/
def requiredOnce (sourcePath extractedName : PyStr) : List (PyStr × PyStr) :=
  [(text "base extraction", extraction sourcePath),
    (text "fixed extraction destination", destination extractedName),
    (text "fixed base-side execution", baseExecution extractedName),
    (text "exact bootstrap guard", bootstrapGuard),
    (text "bootstrap head-side execution", bootstrapExecution sourcePath)]

/-- `require_base_bound_execution`. -/
def requireBaseBoundExecution (command label sourcePath extractedName : PyStr) :
    Except PyStr Unit :=
  match rejectShellFailureMasking command label with
  | .error message => .error message
  | .ok () =>
    let lines := strippedLines command
    match (requiredOnce sourcePath extractedName).find? fun r => decide (lines.count r.2 ≠ 1) with
    | some r => .error (label ++ text " must contain exactly one " ++ r.1)
    | none =>
      let extractionIndex := lines.idxOf (extraction sourcePath)
      let destinationIndex := lines.idxOf (destination extractedName)
      let baseExecutionIndex := lines.idxOf (baseExecution extractedName)
      let guardIndex := lines.idxOf bootstrapGuard
      let bootstrapExecutionIndex := lines.idxOf (bootstrapExecution sourcePath)
      if destinationIndex ≠ extractionIndex + 1 ∨ baseExecutionIndex ≠ destinationIndex + 1 then
        .error (label ++
          text " must immediately execute the tool written to the fixed extraction destination")
      else if ¬(extractionIndex < destinationIndex ∧ destinationIndex < baseExecutionIndex ∧
          baseExecutionIndex < guardIndex ∧ guardIndex < bootstrapExecutionIndex) then
        .error (label ++
          text " must execute the extracted exact base-SHA tool before the bootstrap branch")
      else if ((lines.take guardIndex).drop baseExecutionIndex).any fun line =>
          line.contains (char ';') || line.head? = some (char '!') || line.getLast? =
            some (char '&') then
        .error (label ++ text " contains shell-level failure masking in the established branch")
      else if (lines.take guardIndex).contains (bootstrapExecution sourcePath) then
        .error (label ++ text " must not execute the head-side tool in the established branch")
      else if ¬(lines.drop bootstrapExecutionIndex).contains (text "exit 1") then
        .error (label ++ text " must fail closed outside the exact bootstrap base")
      else .ok ()

/-! ## What is made sure of -/

variable {command label sourcePath extractedName : PyStr}

/-- A list from the place of an element on. -/
theorem drop_idxOf {α : Type} [BEq α] [LawfulBEq α] {l : List α} {a : α} (h : a ∈ l) :
    l.drop (l.idxOf a) = a :: l.drop (l.idxOf a + 1) := by
  have hlt := List.idxOf_lt_length_of_mem h
  rw [List.drop_eq_getElem_cons hlt, List.getElem_idxOf]

/-- The three lines that run the tool of the base commit stand one after the other in an accepted
text, and the first of them not before. -/
theorem requireBaseBoundExecution_lines
    (h : requireBaseBoundExecution command label sourcePath extractedName = .ok ()) :
    ∃ before after, extraction sourcePath ∉ before ∧
    strippedLines command = before ++ extraction sourcePath ::
      destination extractedName :: baseExecution extractedName :: after := by
  unfold requireBaseBoundExecution at h
  split at h
  · exact nomatch h
  · dsimp only at h
    split at h
    · exact nomatch h
    · rename_i hcounts
      split_ifs at h with hplaces
      rw [not_or, not_not, not_not] at hplaces
      obtain ⟨hdestination, hexecution⟩ := hplaces
      -- Each of the required lines stands in the text exactly once.
      have hcount (r : PyStr × PyStr) (hr : r ∈ requiredOnce sourcePath extractedName) :
          (strippedLines command).count r.2 = 1 := by
        have hcount := List.find?_eq_none.1 hcounts r hr
        rwa [decide_eq_true_eq, not_not] at hcount
      have hmem (r : PyStr × PyStr) (hr : r ∈ requiredOnce sourcePath extractedName) :
          r.2 ∈ strippedLines command :=
        List.count_pos_iff.1 (by rw [hcount r hr]; exact Nat.one_pos)
      -- From its place on, the text goes on with the line and what follows it.
      have hfirst := drop_idxOf (hmem (text "base extraction", extraction sourcePath) (.head _))
      have hsecond := drop_idxOf (hmem (text "fixed extraction destination",
        destination extractedName)
        (.tail _ (.head _)))
      have hthird := drop_idxOf (hmem (text "fixed base-side execution",
        baseExecution extractedName)
        (.tail _ (.tail _ (.head _))))
      dsimp only at hfirst hsecond hthird
      rw [hexecution, hdestination] at hthird
      rw [hdestination, hthird] at hsecond
      rw [hsecond] at hfirst
      -- A line that stands there once does not stand before its place.
      have honce := hcount (text "base extraction", extraction sourcePath) (.head _)
      generalize (strippedLines command).idxOf (extraction sourcePath) = i at hfirst
      have hsplit := List.take_append_drop i (strippedLines command)
      rw [hfirst] at hsplit
      refine ⟨(strippedLines command).take i, (strippedLines command).drop (i + 1 + 1 + 1),
        fun hbefore => ?_, hsplit.symm⟩
      dsimp only at honce
      rw [← hsplit, List.count_append, List.count_cons_self] at honce
      have hpos := List.count_pos_iff.2 hbefore
      omega

end MarketDataGateway.Causal
