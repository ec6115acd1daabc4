import MarketDataGateway.Lib.Lines
import MarketDataGateway.Lib.Shell

/-!
# The text of a script

How the small shell reads a script: line by line, where a backslash at its end joins a line with the
next one, a line that begins with `#` is left out, and each line is cut into tokens. Whatever the
shell does not have is refused.

A reader carries what is open: a line to be continued, and the statements around the current ones.
-/

namespace MarketDataGateway.Lib.Shell

/-- The code point of a character. -/
abbrev ch (c : Char) : CodePoint := CodePoint.ofChar c

/-! ## Tokens -/

/-- A token of a line. -/
inductive Token where
  | word (w : Word)
  | redirect (operator : PyStr)
  | ampersand
  | semicolon
  | parens
  deriving DecidableEq, Repr

/-- Where the lexer stands: between quotation marks or not, behind a dollar sign, within the name of
a parameter, within a template that was replaced before the shell saw it, or behind an opening
parenthesis. -/
inductive Mode where
  | plain
  | quote
  | dollar
  | name (read : PyStr)
  | template (closing : Bool)
  | paren
  deriving DecidableEq, Repr

/-- The lexer: the tokens that are complete, and the word that is not. -/
structure Lexer where
  tokens : List Token
  word : Option Word
  mode : Mode
  deriving DecidableEq, Repr

namespace Lexer

/-- Nothing has been read. -/
def init : Lexer := ⟨[], none, .plain⟩

/-- The word is complete. -/
def endWord (l : Lexer) : Lexer :=
  { l with tokens := l.tokens ++ (l.word.map Token.word).toList, word := none }

/-- A token besides words. -/
def push (l : Lexer) (t : Token) : Lexer := { l with tokens := l.tokens ++ [t] }

/-- A part more of the word. -/
def add (l : Lexer) (p : Piece) : Lexer := { l with word := some (l.word.getD [] ++ [p]) }

end Lexer

/-- The text of a word that is all outside of quotation marks. -/
def bareText (w : Word) : Option PyStr :=
  w.mapM fun
    | .bare c => some c
    | _ => none

/-- The digits of a number. -/
def isNumber (s : PyStr) : Bool := s ≠ [] && s.all fun c => 0x30 ≤ c.val && c.val ≤ 0x39

/-- A character of a name. -/
def isNameChar (c : CodePoint) : Bool :=
  (0x41 ≤ c.val && c.val ≤ 0x5A) || (0x61 ≤ c.val && c.val ≤ 0x7A) ||
    (0x30 ≤ c.val && c.val ≤ 0x39) || c == ch '_'

/-- The characters besides those with a token of their own that mean something to the shell. -/
def isSpecial (c : CodePoint) : Bool := (text "|<)$`\\'").contains c

/-- The next character. -/
def Lexer.step (l : Lexer) (c : CodePoint) : Option Lexer :=
  match l.mode with
  | .plain =>
    if c = ch ' ' ∨ c = ch '\t' then some l.endWord
    else if c = ch '"' then some { l with word := some (l.word.getD []), mode := .quote }
    else if c = ch ';' then some (l.endWord.push .semicolon)
    else if c = ch '&' then some (l.endWord.push .ampersand)
    else if c = ch '>' then
      match l.word.bind bareText with
      | some digits =>
        if isNumber digits then some ({ l with word := none }.push (.redirect (digits ++ [c])))
        else some (l.endWord.push (.redirect [c]))
      | none => some (l.endWord.push (.redirect [c]))
    else if c = ch '(' then some { l.endWord with mode := .paren }
    else if isSpecial c || (c == ch '#' && l.word.isNone) then none
    else some (l.add (.bare c))
  | .quote =>
    if c = ch '"' then some { l with mode := .plain }
    else if c = ch '$' then some { l with mode := .dollar }
    else if c = ch '`' ∨ c = ch '\\' then none
    else some (l.add (.quoted c))
  | .dollar => if c = ch '{' then some { l with mode := .name [] } else none
  | .name read =>
    if c = ch '}' ∧ read ≠ [] then some { l.add (.parameter read) with mode := .quote }
    else if c = ch '{' ∧ read = [] then some { l with mode := .template false }
    else if isNameChar c then some { l with mode := .name (read ++ [c]) }
    else none
  | .template closing =>
    if c = ch '}' then some { l with mode := if closing then .quote else .template true }
    else some { l.add (.quoted c) with mode := .template false }
  | .paren => if c = ch ')' then some { l.push .parens with mode := .plain } else none

/-- The tokens of a line. -/
def lex (line : PyStr) : Option (List Token) :=
  match line.foldlM Lexer.step .init with
  | some l => if l.mode = .plain then some l.endWord.tokens else none
  | none => none

/-! ## Lines -/

/-- The command of tokens. -/
def commandOf : List Token → Option Command
  | [] => some ⟨[], []⟩
  | .word w :: rest => (commandOf rest).map fun c => { c with words := w :: c.words }
  | .redirect operator :: .word w :: rest =>
    (commandOf rest).map fun c => { c with redirects := (operator, w) :: c.redirects }
  | .redirect operator :: .ampersand :: .word w :: rest =>
    (commandOf rest).map fun c => { c with redirects := (operator ++ [ch '&'], w) :: c.redirects }
  | _ => none

/-- What a line is in a script. -/
inductive Line where
  | blank
  | statement (st : Statement)
  | ifThen (c : Command)
  | elifThen (c : Command)
  | otherwise
  | endIf
  | openFunction (name : PyStr)
  | closeFunction

/-- The condition of an `if`, between the keyword and `; then`. -/
def header (tokens : List Token) : Option Command :=
  match tokens.reverse with
  | .word w :: .semicolon :: condition =>
    if bareText w = some (text "then") then commandOf condition.reverse else none
  | _ => none

/-- The name and the value of an assignment. -/
def assignmentOf (w : Word) : Option (PyStr × Word) :=
  match w.dropWhile (· ≠ .bare (ch '=')) with
  | _ :: value =>
    match bareText (w.takeWhile (· ≠ .bare (ch '='))) with
    | some name => if name ≠ [] ∧ name.all isNameChar then some (name, value) else none
    | none => none
  | [] => none

/-- The status that `exit` is called with. -/
def exitStatus : List Token → Option ℕ
  | [.word w] =>
    match bareText w with
    | some digits =>
      if isNumber digits then some (digits.foldl (fun n c => (10 * n + (c.val - 0x30)) % 256) 0)
      else none
    | none => none
  | _ => none

/-- The options that the shell runs with. -/
def strictOptions : List Token :=
  [.word ((text "-euo").map .bare), .word ((text "pipefail").map .bare)]

/-- Keywords and builtins that the small shell does not have. -/
def unsupported : List PyStr :=
  ["!", "\x7b", "then", "case", "do", "done", "esac", "for", "function", "in", "select", "time",
    "until", "while", "coproc", ".", "alias", "builtin", "command", "declare", "enable", "eval",
    "exec", "export", "getopts", "let", "local", "mapfile", "read", "readarray", "readonly",
    "return", "shopt", "source", "trap", "typeset", "unalias", "unset"].map text

/-- What the tokens of a line are. -/
def classify : List Token → Option Line
  | [] => some .blank
  | .word w :: rest =>
    match assignmentOf w with
    | some (name, value) => if rest = [] then some (.statement (.assign name value)) else none
    | none =>
      let command := (commandOf (.word w :: rest)).map fun c => Line.statement (.command c)
      match bareText w with
      | none => command
      | some word =>
        if word = text "if" then (header rest).map .ifThen
        else if word = text "elif" then (header rest).map .elifThen
        else if word = text "else" then if rest = [] then some .otherwise else none
        else if word = text "fi" then if rest = [] then some .endIf else none
        else if word = text "\x7d" then if rest = [] then some .closeFunction else none
        else if rest = [.parens, .word [.bare (ch '{')]] then some (.openFunction word)
        else if word = text "exit" then (exitStatus rest).map fun status =>
          .statement (.exit status)
        else if word = text "set" then if rest = strictOptions then command else none
        else if unsupported.contains word then none
        else command
  | tokens => (commandOf tokens).map fun c => .statement (.command c)

/-! ## Scripts -/

/-- What is open around the current statements: the statements before it, and the branches that are
complete. -/
inductive Frame where
  | ifFrame (outer : List Statement) (complete : List (Command × List Statement)) (c : Command)
  | elseFrame (outer : List Statement) (complete : List (Command × List Statement))
  | functionFrame (outer : List Statement) (name : PyStr)

/-- The statements that have been read. -/
structure Parser where
  frames : List Frame
  current : List Statement

/-- The next line. -/
def Parser.step : Parser → Line → Option Parser
  | p, .blank => some p
  | ⟨frames, current⟩, .statement st => some ⟨frames, current ++ [st]⟩
  | ⟨frames, current⟩, .ifThen c => some ⟨.ifFrame current [] c :: frames, []⟩
  | ⟨.ifFrame outer complete c :: frames, current⟩, .elifThen c' =>
    some ⟨.ifFrame outer (complete ++ [(c, current)]) c' :: frames, []⟩
  | ⟨.ifFrame outer complete c :: frames, current⟩, .otherwise =>
    some ⟨.elseFrame outer (complete ++ [(c, current)]) :: frames, []⟩
  | ⟨.ifFrame outer complete c :: frames, current⟩, .endIf =>
    some ⟨frames, outer ++ [.branch (complete ++ [(c, current)]) []]⟩
  | ⟨.elseFrame outer complete :: frames, current⟩, .endIf =>
    some ⟨frames, outer ++ [.branch complete current]⟩
  | ⟨frames, current⟩, .openFunction name => some ⟨.functionFrame current name :: frames, []⟩
  | ⟨.functionFrame outer name :: frames, current⟩, .closeFunction =>
    some ⟨frames, outer ++ [.define name current]⟩
  | _, _ => none

/-- Read a line whose continuations have been joined to it. -/
def Parser.read (p : Parser) (line : PyStr) : Option Parser :=
  ((lex line).bind classify).bind p.step

/-- A reader: the line that is to be continued, and the statements. -/
structure Reader where
  pending : Option PyStr
  parser : Parser

/-- Nothing has been read. -/
def Reader.init : Reader := ⟨none, [], []⟩

/-- The line is a comment. -/
def isCommentLine (line : PyStr) : Bool :=
  (line.dropWhile fun c => c == ch ' ' || c == ch '\t').head? == some (ch '#')

/-- The line goes on in the next one. -/
def continues (line : PyStr) : Bool := line.getLast? == some (ch '\\')

/-- The next line of the text. -/
def Reader.step (r : Reader) (line : PyStr) : Option Reader :=
  match r.pending with
  | none =>
    if isCommentLine line then some r
    else if continues line then some ⟨some line.dropLast, r.parser⟩
    else (r.parser.read line).map fun p => ⟨none, p⟩
  | some begun =>
    if continues line then some ⟨some (begun ++ line.dropLast), r.parser⟩
    else (r.parser.read (begun ++ line)).map fun p => ⟨none, p⟩

/-- The lines of a text, which end in newlines only. -/
def physicalLines : PyStr → List PyStr
  | [] => [[]]
  | c :: rest =>
    if c = codePoint 0x0A then [] :: physicalLines rest else consLine c (physicalLines rest)

/-- The script, when all lines have been read. -/
def Reader.finish (r : Reader) : Option (List Statement) :=
  match (match r.pending with
    | none => some r.parser
    | some begun => r.parser.read begun) with
  | some ⟨[], current⟩ => some current
  | _ => none

/-- Read a script. -/
def parse (s : PyStr) : Option (List Statement) :=
  ((physicalLines s).foldlM Reader.step .init).bind Reader.finish

/-! ## What a line is cut into -/

variable {l l' : Lexer} {c : CodePoint} {s x y : PyStr} {ts : List Token} {w : Word}

/-- A space or a tab. -/
def IsBlank (c : CodePoint) : Prop := c = ch ' ' ∨ c = ch '\t'

/-- A character that means nothing between quotation marks. -/
def IsInert (c : CodePoint) : Prop := c ≠ ch '"' ∧ c ≠ ch '$' ∧ c ≠ ch '`' ∧ c ≠ ch '\\'

instance : DecidablePred IsInert := fun _ => inferInstanceAs (Decidable (_ ∧ _))

/-- A word that ends adds to the tokens. -/
theorem prefix_endWord (l : Lexer) : l.tokens <+: l.endWord.tokens := List.prefix_append _ _

/-- A blank ends a word. -/
theorem step_blank (hc : IsBlank c) (hl : l.mode = .plain) : l.step c = some l.endWord := by
  unfold Lexer.step
  rw [hl]
  exact if_pos hc

/-- A word ends once. -/
theorem endWord_endWord (l : Lexer) : l.endWord.endWord = l.endWord := by
  unfold Lexer.endWord
  rw [Option.map_none, Option.toList_none, List.append_nil]

/-- Blanks at the end of a line change nothing. -/
theorem foldlM_blanks (hy : ∀ c ∈ y, IsBlank c) (hl : l.mode = .plain) :
    ∃ l', y.foldlM Lexer.step l = some l' ∧ l'.mode = .plain ∧ l'.endWord = l.endWord := by
  induction y generalizing l with
  | nil => exact ⟨l, rfl, hl, rfl⟩
  | cons c y ih =>
    obtain ⟨hc, hy⟩ := List.forall_mem_cons.1 hy
    obtain ⟨l', hfold, hmode, hend⟩ := @ih l.endWord hy hl
    refine ⟨l', ?_, hmode, hend.trans (endWord_endWord l)⟩
    rw [List.foldlM_cons, step_blank hc hl]
    exact hfold

/-- Blanks between words change nothing. -/
theorem foldlM_blanks_between (hx : ∀ c ∈ x, IsBlank c) :
    x.foldlM Lexer.step ⟨ts, none, .plain⟩ = some ⟨ts, none, .plain⟩ := by
  induction x with
  | nil => rfl
  | cons c x ih =>
    obtain ⟨hc, hx⟩ := List.forall_mem_cons.1 hx
    have hend : Lexer.endWord ⟨ts, none, .plain⟩ = ⟨ts, none, .plain⟩ := by
      unfold Lexer.endWord
      rw [Option.map_none, Option.toList_none, List.append_nil]
    rw [List.foldlM_cons, step_blank hc rfl, hend]
    exact ih hx

/-- Tokens in front of the others. -/
def Lexer.prepend (ts : List Token) (l : Lexer) : Lexer := { l with tokens := ts ++ l.tokens }

/-- A word ends alike after other tokens. -/
theorem endWord_prepend : (l.prepend ts).endWord = l.endWord.prepend ts := by
  unfold Lexer.prepend Lexer.endWord
  dsimp only
  rw [List.append_assoc]

/-- A token is added alike after other tokens. -/
theorem push_prepend (t : Token) : (l.prepend ts).push t = (l.push t).prepend ts := by
  unfold Lexer.prepend Lexer.push
  dsimp only
  rw [List.append_assoc]

/-- Tokens that are complete do not matter to what follows them. -/
theorem step_prepend : (l.prepend ts).step c = (l.step c).map (Lexer.prepend ts) := by
  obtain ⟨us, w, mode⟩ := l
  cases mode with
  | plain =>
    unfold Lexer.step
    simp only [endWord_prepend, push_prepend]
    show (if _ then _ else _) = _
    dsimp only [Lexer.prepend]
    split_ifs with _ _ _ _ _ _ hspecial
    · rfl
    · rfl
    · rfl
    · rfl
    · -- Digits before a redirection are part of it.
      cases w.bind bareText with
      | none => rfl
      | some digits =>
        dsimp only
        split_ifs
        · exact congrArg some (push_prepend (l := ⟨us, none, .plain⟩) _)
        · rfl
    · rfl
    · exact if_pos hspecial
    · exact if_neg hspecial
  | quote =>
    unfold Lexer.step
    dsimp only [Lexer.prepend]
    split_ifs <;> rfl
  | dollar =>
    unfold Lexer.step
    dsimp only [Lexer.prepend]
    split_ifs <;> rfl
  | name read =>
    unfold Lexer.step
    dsimp only [Lexer.prepend]
    split_ifs <;> rfl
  | template closing =>
    unfold Lexer.step
    dsimp only [Lexer.prepend]
    split_ifs <;> rfl
  | paren =>
    unfold Lexer.step
    dsimp only [Lexer.prepend]
    split_ifs
    · exact congrArg some (congrArg (fun l : Lexer => { l with mode := .plain })
        (push_prepend (l := ⟨us, w, .paren⟩) _))
    · rfl

/-- A text is read alike after other tokens. -/
theorem foldlM_prepend : s.foldlM Lexer.step (l.prepend ts) =
    (s.foldlM Lexer.step l).map (Lexer.prepend ts) := by
  induction s generalizing l with
  | nil => rfl
  | cons c s ih =>
    rw [List.foldlM_cons, List.foldlM_cons, step_prepend]
    cases l.step c with
    | none => rfl
    | some l' => exact ih

/-- Tokens that are complete stay. -/
theorem prefix_foldlM (h : s.foldlM Lexer.step l = some l') : l.tokens <+: l'.tokens := by
  have hsplit : l = Lexer.prepend l.tokens ⟨[], l.word, l.mode⟩ := by
    unfold Lexer.prepend
    rw [List.append_nil]
  rw [hsplit, foldlM_prepend] at h
  obtain ⟨l₁, -, rfl⟩ := Option.map_eq_some_iff.1 h
  exact List.prefix_append _ _

/-- A quotation mark behind a word, and a blank behind it. -/
theorem foldlM_close : (text "\" ").foldlM Lexer.step ⟨ts, some w, .quote⟩ =
    some ⟨ts ++ [.word w], none, .plain⟩ := by
  have htext : text "\" " = [ch '"', ch ' '] := by decide +kernel
  have hclose : Lexer.step ⟨ts, some w, .quote⟩ (ch '"') = some ⟨ts, some w, .plain⟩ := by
    unfold Lexer.step
    exact if_pos rfl
  have hblank := @step_blank ⟨ts, some w, .plain⟩ (ch ' ') (.inl rfl) rfl
  rw [htext, List.foldlM_cons, hclose, Option.bind_eq_bind, Option.bind_some,
    List.foldlM_cons, hblank]
  rfl

/-- Between quotation marks a text of inert characters stands for itself. -/
theorem foldlM_quoted (hs : ∀ c ∈ s, IsInert c) :
    s.foldlM Lexer.step ⟨ts, some w, .quote⟩ =
    some ⟨ts, some (w ++ s.map Piece.quoted), .quote⟩ := by
  induction s generalizing w with
  | nil => rw [List.map_nil, List.append_nil]; rfl
  | cons c s ih =>
    obtain ⟨⟨hquote, hdollar, htick, hback⟩, hs⟩ := List.forall_mem_cons.1 hs
    have hstep : Lexer.step ⟨ts, some w, .quote⟩ c =
        some ⟨ts, some (w ++ [.quoted c]), .quote⟩ := by
      unfold Lexer.step
      dsimp only
      rw [if_neg hquote, if_neg hdollar, if_neg (not_or.2 ⟨htick, hback⟩)]
      rfl
    have hrest := @ih (w ++ [.quoted c]) hs
    rw [List.append_assoc] at hrest
    rw [List.foldlM_cons, hstep]
    exact hrest

/-- The tokens of a line with blanks at its end. -/
theorem lex_append_blanks (h : s.foldlM Lexer.step .init = some l) (hl : l.mode = .plain)
    (hy : ∀ c ∈ y, IsBlank c) : lex (s ++ y) = some l.endWord.tokens := by
  obtain ⟨l', hfold, hmode, hend⟩ := foldlM_blanks hy hl
  have hall : (s ++ y).foldlM Lexer.step .init = some l' := by
    rw [List.foldlM_append, h]
    exact hfold
  unfold lex
  rw [hall]
  dsimp only
  rw [if_pos hmode, hend]

/-- The tokens of a line begin with those of its beginning. -/
theorem prefix_lex (h : s.foldlM Lexer.step .init = some l) (hts : lex (s ++ y) = some ts) :
    l.tokens <+: ts := by
  unfold lex at hts
  rw [List.foldlM_append, h] at hts
  split at hts
  · rename_i l' hfold
    split_ifs at hts
    rw [← Option.some.inj hts]
    exact (prefix_foldlM hfold).trans (prefix_endWord l')
  · exact nomatch hts

/-! ## What a line is -/

/-- The words that a command of the small shell does not begin with, or that are looked at more
closely. -/
def keywords : List PyStr :=
  ["if", "elif", "else", "fi", "\x7d", "exit", "set"].map text ++ unsupported

/-- A line that begins with the name of a command is the command. -/
theorem classify_command {name : PyStr} {rest : List Token} (hassign : assignmentOf w = none)
    (hname : bareText w = some name) (hkeyword : keywords.contains name = false)
    (hparens : rest.head? ≠ some .parens) :
    classify (.word w :: rest) = (commandOf (.word w :: rest)).map fun c =>
    .statement (.command c) := by
  -- The name is none of the words that begin anything else.
  have hne (word : PyStr) (hword : keywords.contains word = true) : name ≠ word := by
    rintro rfl
    rw [hkeyword] at hword
    exact nomatch hword
  have hfunction : rest ≠ [.parens, .word [.bare (ch '\x7b')]] := by
    rintro rfl
    exact hparens rfl
  have hunsupported : unsupported.contains name = false := by
    unfold keywords at hkeyword
    rw [List.contains_eq_mem, decide_eq_false_iff_not, List.mem_append, not_or] at hkeyword
    rw [List.contains_eq_mem, decide_eq_false_iff_not]
    exact hkeyword.2
  unfold classify
  dsimp only
  rw [hassign]
  dsimp only
  rw [hname]
  dsimp only
  rw [if_neg (hne _ (by decide +kernel)), if_neg (hne _ (by decide +kernel)),
    if_neg (hne _ (by decide +kernel)), if_neg (hne _ (by decide +kernel)),
    if_neg (hne _ (by decide +kernel)), if_neg hfunction, if_neg (hne _ (by decide +kernel)),
    if_neg (hne _ (by decide +kernel)), hunsupported]
  rfl

end MarketDataGateway.Lib.Shell
