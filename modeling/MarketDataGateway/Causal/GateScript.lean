import MarketDataGateway.Causal.Contract
import MarketDataGateway.Lib.ShellPairs

/-!
# How the shell reads an accepted gate command

The contract looks at stripped lines, the shell at commands. `readPlainly` says where the two agree:
nothing is white space but blanks and newlines, and the line of the extraction begins a command
outside of functions and goes on in the very next line. The shell then reads the extraction with its
destination as one command, and the execution as the next one (`containsBlock_of_parse`).
-/

namespace MarketDataGateway.Causal

open Lib Lib.Shell

/-! ## Commands -/

/-- A word outside of quotation marks. -/
def plainWord (s : String) : Word := (text s).map .bare

/-- `"${BASE_SHA}:<source_path>"`. -/
def toolAtBase (sourcePath : PyStr) : Word :=
  .parameter (text "BASE_SHA") :: .quoted (ch ':') :: sourcePath.map .quoted

/-- `"${RUNNER_TEMP}/<extracted_name>"`. -/
def toolFile (extractedName : PyStr) : Word :=
  .parameter (text "RUNNER_TEMP") :: .quoted (ch '/') :: extractedName.map .quoted

/-- The extraction with its destination. -/
def showCommand (sourcePath extractedName : PyStr) : Command :=
  ⟨[plainWord "git", plainWord "show", toolAtBase sourcePath], [(text ">", toolFile extractedName)]⟩

/-- The command is the extraction to the destination. -/
def isShow (sourcePath extractedName : PyStr) (c : Command) : Bool :=
  c = showCommand sourcePath extractedName

/-- The command is an execution of the destination. -/
def isPython (extractedName : PyStr) (c : Command) : Bool :=
  c.words.take 2 = [plainWord "python", toolFile extractedName]

/-- The shell reads the three lines as the contract does. -/
def readPlainly (sourcePath command : PyStr) : Bool :=
  let lines := physicalLines command
  let i := lines.findIdx fun line => strip line = extraction sourcePath
  command.all (fun c => !c.isSpace || c == ch ' ' || c == ch '\t' || c == codePoint 0x0A) &&
    ((lines.take i).foldlM Reader.step .init).any (fun r =>
      r.pending.isNone && r.parser.frames.all fun f => !f.isFunction) &&
    (lines[i + 1]?).any fun line => strip line ≠ []

/-! ## Lines -/

variable {command label sourcePath extractedName x y s m : PyStr}
  {ls a b : List PyStr} {ts : List Token}
  {script : List Statement} {p p' : Shell.Parser} {r : Reader}

/-- The extraction, but for the backslash. -/
def showStart (sourcePath : PyStr) : PyStr :=
  text "git show \"$\x7bBASE_SHA\x7d:" ++ sourcePath ++ text "\" "

/-- The execution, but for the backslash. -/
def pythonStart (extractedName : PyStr) : PyStr :=
  text "python \"$\x7bRUNNER_TEMP\x7d/" ++ extractedName ++ text "\" "

/-- The extraction is its start and a backslash. -/
theorem extraction_eq : extraction sourcePath = showStart sourcePath ++ [ch '\\'] := by
  have hend : text "\" \\" = text "\" " ++ [ch '\\'] := by decide
  unfold extraction showStart
  rw [hend, List.append_assoc _ _ [ch '\\']]

/-- The execution of the base is its start and a backslash. -/
theorem baseExecution_eq :
    baseExecution extractedName = pythonStart extractedName ++ [ch '\\'] := by
  have hend : text "\" \\" = text "\" " ++ [ch '\\'] := by decide
  unfold baseExecution pythonStart
  rw [hend, List.append_assoc _ _ [ch '\\']]

/-- A core has a line. -/
theorem exists_of_cores_eq (h : cores ls = a ++ m :: b) :
    ∃ ls₁ l ls₂, ls = ls₁ ++ l :: ls₂ ∧ strip l = m ∧ cores ls₁ = a ∧ cores ls₂ = b := by
  induction ls generalizing a with
  | nil => exact absurd h.symm (List.append_ne_nil_of_right_ne_nil _ (List.cons_ne_nil _ _))
  | cons l ls ih =>
    by_cases hl : strip l = []
    · rw [cores_cons_of_strip_eq_nil hl] at h
      obtain ⟨ls₁, l', ls₂, rfl, hm, ha, hb⟩ := ih h
      exact ⟨l :: ls₁, l', ls₂, rfl, hm, (cores_cons_of_strip_eq_nil hl).trans ha, hb⟩
    · rw [cores_cons_of_strip_ne_nil hl] at h
      cases a with
      | nil =>
        obtain ⟨hm, hb⟩ := List.cons.inj h
        exact ⟨[], l, ls, rfl, hm, rfl, hb⟩
      | cons first a =>
        obtain ⟨hfirst, hrest⟩ := List.cons.inj h
        obtain ⟨ls₁, l', ls₂, rfl, hm, ha, hb⟩ := ih hrest
        exact ⟨l :: ls₁, l', ls₂, rfl, hm, by rw [cores_cons_of_strip_ne_nil hl, ha, hfirst], hb⟩

/-- The only white space is blanks and newlines. -/
def OnlyBlanks (s : PyStr) : Prop := ∀ c ∈ s, c.isSpace = true → IsBlank c ∨ c = codePoint 0x0A

/-- Where nothing else breaks lines the lines are those between the newlines. -/
theorem physicalLines_eq (h : OnlyBlanks s) : physicalLines s = breakLines s := by
  induction s with
  | nil => rfl
  | cons c s ih =>
    obtain ⟨hc, hs⟩ := List.forall_mem_cons.1 h
    unfold physicalLines
    split_ifs with hnewline
    · rw [breakLines_cons_of_isBreak (by rw [hnewline]; decide), ih hs]
    · have hbreak : c.isBreak = false := by
        rw [Bool.eq_false_iff]
        intro hbreak
        rcases hc (CodePoint.isSpace_of_isBreak hbreak) with hblank | hc
        · rcases hblank with rfl | rfl <;> exact nomatch hbreak
        · exact hnewline hc
      rw [breakLines_cons_of_not_isBreak hbreak, ih hs]

/-- A line is within the text, and has no newline in it. -/
theorem mem_of_mem_physicalLines {l : PyStr} (hl : l ∈ physicalLines s) :
    ∀ c ∈ l, c ∈ s ∧ c ≠ codePoint 0x0A := by
  induction s generalizing l with
  | nil =>
    obtain rfl := List.mem_singleton.1 hl
    exact List.forall_mem_nil _
  | cons d s ih =>
    have hrest {l : PyStr} (hl : l ∈ physicalLines s) : ∀ c ∈ l, c ∈ d :: s ∧ c ≠ codePoint 0x0A :=
      fun c hc => (ih hl c hc).imp_left (List.mem_cons_of_mem d)
    unfold physicalLines at hl
    split_ifs at hl with hnewline
    · obtain rfl | hl := List.mem_cons.1 hl
      · exact List.forall_mem_nil _
      · exact hrest hl
    · cases hlines : physicalLines s with
      | nil =>
        rw [hlines] at hl
        obtain rfl := List.mem_singleton.1 hl
        exact List.forall_mem_singleton.2 ⟨List.mem_cons_self, hnewline⟩
      | cons first more =>
        rw [hlines] at hl hrest
        obtain rfl | hl := List.mem_cons.1 hl
        · exact List.forall_mem_cons.2 ⟨⟨List.mem_cons_self, hnewline⟩, hrest List.mem_cons_self⟩
        · exact hrest (List.mem_cons_of_mem _ hl)

/-- A line is its core between blanks. -/
theorem exists_blanks {l : PyStr} (h : OnlyBlanks s) (hl : l ∈ physicalLines s) :
    ∃ x y, (∀ c ∈ x, IsBlank c) ∧ (∀ c ∈ y, IsBlank c) ∧ l = x ++ strip l ++ y := by
  obtain ⟨x, y, hx, hy, heq⟩ := exists_eq_strip l
  have hblank (c : CodePoint) (hc : c ∈ l) (hspace : c.isSpace = true) : IsBlank c := by
    obtain ⟨hmem, hnewline⟩ := mem_of_mem_physicalLines hl c hc
    exact (h c hmem hspace).resolve_right hnewline
  refine ⟨x, y, fun c hc => hblank c ?_ (hx c hc), fun c hc => hblank c ?_ (hy c hc), heq⟩
  · rw [heq, List.append_assoc]
    exact List.mem_append_left _ hc
  · rw [heq]
    exact List.mem_append_right _ hc

/-! ## Tokens -/

/-- The tokens of the extraction. -/
theorem foldlM_showStart (hx : ∀ c ∈ x, IsBlank c) (hsource : ∀ c ∈ sourcePath, IsInert c) :
    (x ++ showStart sourcePath).foldlM Lexer.step .init =
      some ⟨[.word (plainWord "git"), .word (plainWord "show"), .word (toolAtBase sourcePath)],
        none, .plain⟩ := by
  have hbegin : (text "git show \"$\x7bBASE_SHA\x7d:").foldlM Lexer.step ⟨[], none, .plain⟩ =
      some ⟨[.word (plainWord "git"), .word (plainWord "show")],
        some [.parameter (text "BASE_SHA"), .quoted (ch ':')], .quote⟩ := by
    decide
  have hblanks : x.foldlM Lexer.step .init = some ⟨[], none, .plain⟩ := foldlM_blanks_between hx
  unfold showStart
  rw [List.foldlM_append, hblanks, Option.bind_eq_bind, Option.bind_some, List.append_assoc,
    List.foldlM_append, hbegin, Option.bind_eq_bind, Option.bind_some, List.foldlM_append,
    foldlM_quoted hsource, Option.bind_eq_bind, Option.bind_some, foldlM_close]
  rfl

/-- The tokens of the execution. -/
theorem foldlM_pythonStart (hx : ∀ c ∈ x, IsBlank c) (hname : ∀ c ∈ extractedName, IsInert c) :
    (x ++ pythonStart extractedName).foldlM Lexer.step .init =
      some ⟨[.word (plainWord "python"), .word (toolFile extractedName)], none, .plain⟩ := by
  have hbegin : (text "python \"$\x7bRUNNER_TEMP\x7d/").foldlM Lexer.step ⟨[], none, .plain⟩ =
      some ⟨[.word (plainWord "python")],
        some [.parameter (text "RUNNER_TEMP"), .quoted (ch '/')], .quote⟩ := by
    decide
  have hblanks : x.foldlM Lexer.step .init = some ⟨[], none, .plain⟩ := foldlM_blanks_between hx
  unfold pythonStart
  rw [List.foldlM_append, hblanks, Option.bind_eq_bind, Option.bind_some, List.append_assoc,
    List.foldlM_append, hbegin, Option.bind_eq_bind, Option.bind_some, List.foldlM_append,
    foldlM_quoted hname, Option.bind_eq_bind, Option.bind_some, foldlM_close]
  rfl

/-- The tokens of the destination, behind others. -/
theorem foldlM_destination (hname : ∀ c ∈ extractedName, IsInert c) :
    ∃ l, (destination extractedName).foldlM Lexer.step ⟨ts, none, .plain⟩ =
    some l ∧ l.mode = .plain ∧
      l.endWord.tokens = ts ++ [.redirect (text ">"), .word (toolFile extractedName)] := by
  -- The redirection up to the name, the name itself, and the quote that closes it.
  have hbegin : (text "> \"$\x7bRUNNER_TEMP\x7d/").foldlM Lexer.step ⟨[], none, .plain⟩ =
      some ⟨[.redirect (text ">")],
        some [.parameter (text "RUNNER_TEMP"), .quoted (ch '/')], .quote⟩ := by
    decide
  have hclose (us : List Token) (w : Word) : (text "\"").foldlM Lexer.step ⟨us, some w, .quote⟩ =
      some ⟨us, some w, .plain⟩ := by
    have htext : text "\"" = [ch '"'] := by decide
    rw [htext, List.foldlM_cons]
    unfold Lexer.step
    dsimp only
    rw [if_pos rfl]
    rfl
  have hprepend : (⟨ts, none, .plain⟩ : Lexer) = Lexer.prepend ts ⟨[], none, .plain⟩ := by
    unfold Lexer.prepend
    rw [List.append_nil]
  refine ⟨Lexer.prepend ts ⟨[.redirect (text ">")], some (toolFile extractedName),
    .plain⟩, ?_, rfl, ?_⟩
  · unfold destination
    rw [hprepend, foldlM_prepend, List.append_assoc, List.foldlM_append, hbegin,
      Option.bind_eq_bind, Option.bind_some, List.foldlM_append, foldlM_quoted hname,
      Option.bind_eq_bind, Option.bind_some, hclose]
    rfl
  · rw [endWord_prepend]
    rfl

/-! ## Reading -/

/-- The words of the extraction are the command that shows a file. -/
theorem classify_show : classify [.word (plainWord "git"), .word (plainWord "show"),
    .word (toolAtBase sourcePath), .redirect (text ">"), .word (toolFile extractedName)] =
      some (.statement (.command (showCommand sourcePath extractedName))) := by
  have hassign : assignmentOf (plainWord "git") = none := by decide
  have hbare : bareText (plainWord "git") = some (text "git") := by decide
  have hparens (w : Word) (rest : List Token) : (Token.word w :: rest).head? ≠ some .parens :=
    fun h => nomatch Option.some.inj h
  have hcommand (w₁ w₂ w₃ w₄ : Word) (operator : PyStr) :
      commandOf [.word w₁, .word w₂, .word w₃, .redirect operator, .word w₄] =
        some ⟨[w₁, w₂, w₃], [(operator, w₄)]⟩ := rfl
  rw [classify_command hassign hbare (by decide) (hparens _ _), hcommand,
    Option.map_some, showCommand]

/-- The extraction and its destination are one command. -/
theorem read_show (hsource : ∀ c ∈ sourcePath, IsInert c) (hname : ∀ c ∈ extractedName, IsInert c)
    (hx : ∀ c ∈ x, IsBlank c) (hs : ∀ c ∈ s, IsBlank c) (hy : ∀ c ∈ y, IsBlank c) :
    p.read (x ++ showStart sourcePath ++ (s ++ destination extractedName ++ y)) =
      p.step (.statement (.command (showCommand sourcePath extractedName))) := by
  obtain ⟨l, hl, hmode, htokens⟩ := @foldlM_destination extractedName
    [.word (plainWord "git"), .word (plainWord "show"), .word (toolAtBase sourcePath)] hname
  have hfold : (x ++ showStart sourcePath ++
    (s ++ destination extractedName)).foldlM Lexer.step .init =
      some l := by
    rw [List.foldlM_append, foldlM_showStart hx hsource, Option.bind_eq_bind, Option.bind_some,
      List.foldlM_append, foldlM_blanks_between hs, Option.bind_eq_bind, Option.bind_some]
    exact hl
  have hlex := lex_append_blanks hfold hmode hy
  rw [List.cons_append, List.cons_append, List.cons_append, List.nil_append] at htokens
  unfold Shell.Parser.read
  rw [← List.append_assoc (x ++ showStart sourcePath), hlex, htokens, Option.bind_some,
    classify_show, Option.bind_some]

/-- What begins with the execution is an execution. -/
theorem exists_of_read_python (hname : ∀ c ∈ extractedName, IsInert c) (hx : ∀ c ∈ x, IsBlank c)
    (h : p.read (x ++ pythonStart extractedName ++ y) = some p') :
    ∃ c, isPython extractedName c = true ∧ p.step (.statement (.command c)) = some p' := by
  obtain ⟨line, hline, hstep⟩ := Option.bind_eq_some_iff.1 h
  obtain ⟨ts, hlex, hclassify⟩ := Option.bind_eq_some_iff.1 hline
  obtain ⟨rest, rfl⟩ := prefix_lex (foldlM_pythonStart hx hname) hlex
  have hassign : assignmentOf (plainWord "python") = none := by decide
  have hbare : bareText (plainWord "python") = some (text "python") := by decide
  have hcommand : classify (.word (plainWord "python") :: .word (toolFile extractedName) :: rest) =
      _ :=
    classify_command hassign hbare (by decide) fun h => nomatch h
  obtain ⟨c, hc, rfl⟩ := Option.map_eq_some_iff.1 (hcommand.symm.trans hclassify)
  obtain ⟨c₁, hc₁, rfl⟩ := Option.map_eq_some_iff.1 hc
  obtain ⟨c₂, -, rfl⟩ := Option.map_eq_some_iff.1 hc₁
  exact ⟨_, decide_eq_true rfl, hstep⟩

variable {first second : Command → Bool}

/-- A reader keeps what has been read. -/
theorem contains_step {r' : Reader} {line : PyStr} (h : r.parser.Contains first second)
    (hr : r.step line = some r') : r'.parser.Contains first second := by
  have hread {p' : Shell.Parser} {line : PyStr} (hp : r.parser.read line = some p') :
      p'.Contains first second := by
    obtain ⟨read, -, hstep⟩ := Option.bind_eq_some_iff.1 hp
    exact h.step hstep
  unfold Reader.step at hr
  split at hr
  · split_ifs at hr
    · exact Option.some.inj hr ▸ h
    · exact Option.some.inj hr ▸ h
    · obtain ⟨p', hp, rfl⟩ := Option.map_eq_some_iff.1 hr
      exact hread hp
  · split_ifs at hr
    · exact Option.some.inj hr ▸ h
    · obtain ⟨p', hp, rfl⟩ := Option.map_eq_some_iff.1 hr
      exact hread hp

/-- What has been read is in the script. -/
theorem containsBlock_of_finish (h : r.parser.Contains first second)
    (hfinish : ls.foldlM Reader.step r >>= Reader.finish = some script) :
    containsBlock first second script = true := by
  induction ls generalizing r with
  | nil =>
    -- Once all frames are closed, what has been read is the script.
    have hclosed {p : Shell.Parser} (hp : p.Contains first second) (hframes : p.frames = []) :
        containsBlock first second p.current = true := by
      rcases hp with ⟨hcurrent, -⟩ | ⟨above, f, below, heq, -⟩
      · exact hcurrent
      · rw [hframes] at heq
        exact absurd heq.symm (List.append_ne_nil_of_right_ne_nil _ (List.cons_ne_nil _ _))
    have hfinish : r.finish = some script := hfinish
    obtain ⟨pending, p⟩ := r
    unfold Reader.finish at hfinish
    split at hfinish
    · rename_i current hread
      obtain rfl := Option.some.inj hfinish
      cases pending with
      | none =>
        obtain rfl := Option.some.inj hread
        exact hclosed h rfl
      | some begun =>
        obtain ⟨line, -, hstep⟩ := Option.bind_eq_some_iff.1 hread
        exact hclosed (Shell.Parser.Contains.step h hstep) rfl
    · exact nomatch hfinish
  | cons line ls ih =>
    rw [List.foldlM_cons, bind_assoc] at hfinish
    obtain ⟨r', hstep, hfinish⟩ := Option.bind_eq_some_iff.1 hfinish
    exact ih (contains_step h hstep) hfinish

/-- A command and an execution that is being read behind it are in the script. -/
theorem containsBlock_of_pending {c : Command} {frames : List Frame} {current : List Statement}
    (hname : ∀ c ∈ extractedName, IsInert c) (hx : ∀ c ∈ x, IsBlank c) (hc : first c = true)
    (hframes : OutsideFunctions frames)
    (hfinish : ls.foldlM Reader.step ⟨some (x ++ pythonStart extractedName ++ y),
      ⟨frames, current ++ [.command c]⟩⟩ >>= Reader.finish = some script) :
    containsBlock first (isPython extractedName) script = true := by
  -- Once the line has been read, the two commands stand together.
  have hread {y : PyStr} {p' : Shell.Parser}
      (hp : Shell.Parser.read ⟨frames,
      current ++ [.command c]⟩ (x ++ pythonStart extractedName ++ y) = some p') :
      p'.Contains first (isPython extractedName) := by
    obtain ⟨c', hc', hstep⟩ := exists_of_read_python hname hx hp
    obtain rfl := Option.some.inj hstep
    exact .inl ⟨containsBlock_pair hc hc', hframes⟩
  induction ls generalizing y with
  -- The text ends: what is pending is read as a line.
  | nil =>
    have hfinish : Reader.finish ⟨some (x ++ pythonStart extractedName ++ y),
        ⟨frames, current ++ [.command c]⟩⟩ = some script := hfinish
    cases hp : Shell.Parser.read ⟨frames,
      current ++ [.command c]⟩ (x ++ pythonStart extractedName ++ y) with
    | none =>
      unfold Reader.finish at hfinish
      dsimp only at hfinish
      rw [hp] at hfinish
      exact nomatch hfinish
    | some p' =>
      have hdone : Reader.finish ⟨none, p'⟩ = some script := by
        unfold Reader.finish at hfinish ⊢
        dsimp only at hfinish ⊢
        rwa [hp] at hfinish
      exact @containsBlock_of_finish [] script ⟨none, p'⟩ first _ (hread hp) hdone
  | cons line ls ih =>
    rw [List.foldlM_cons, bind_assoc] at hfinish
    obtain ⟨r', hstep, hfinish⟩ := Option.bind_eq_some_iff.1 hfinish
    unfold Reader.step at hstep
    dsimp only at hstep
    rw [List.append_assoc _ y] at hstep
    -- The line goes on, or ends and is read.
    split_ifs at hstep
    · obtain rfl := Option.some.inj hstep
      exact ih hfinish
    · rw [List.append_assoc _ y, Option.map_eq_some_iff] at hstep
      obtain ⟨p', hp, rfl⟩ := hstep
      exact containsBlock_of_finish (hread hp) hfinish

/-! ## The three lines -/

/-- A line that goes on with no hash after its blanks is no comment. -/
theorem isCommentLine_append {c : CodePoint} (hx : ∀ c ∈ x, IsBlank c) (hc : ¬IsBlank c)
    (hhash : c ≠ ch '#') :
    isCommentLine (x ++ c :: s) = false := by
  have hdrop : (x ++ c :: s).dropWhile (fun c => c == ch ' ' || c == ch '\t') = c :: s := by
    rw [List.dropWhile_append_of_pos fun d hd => ?_, List.dropWhile_cons, if_neg]
    · rwa [Bool.or_eq_true, beq_iff_eq, beq_iff_eq]
    · rw [Bool.or_eq_true, beq_iff_eq, beq_iff_eq]
      exact hx d hd
  unfold isCommentLine
  rw [hdrop, List.head?_cons, beq_eq_false_iff_ne]
  exact fun heq => hhash (Option.some.inj heq)

/-- A line whose last character is blank does not go on. -/
theorem continues_append_blank {c : CodePoint} (hc : IsBlank c) : continues (s ++ [c]) = false := by
  unfold continues
  rw [List.getLast?_concat, beq_eq_false_iff_ne]
  rintro heq
  obtain rfl := Option.some.inj heq
  rcases hc with hc | hc <;> exact absurd hc (by decide)

/-- A line of the contract that ends in a backslash ends in it for the shell too, or is refused. -/
theorem step_backslash {start : PyStr} {l : Lexer} {c : CodePoint} {r' : Reader}
    (hfold : (x ++ start).foldlM Lexer.step .init = some l) (hmode : l.mode = .plain)
    (hhead : start.head? = some c) (hc : ¬IsBlank c) (hhash : c ≠ ch '#') (hx : ∀ c ∈ x, IsBlank c)
    (hy : ∀ c ∈ y, IsBlank c)
    (h : Reader.step ⟨none, p⟩ (x ++ (start ++ [ch '\\']) ++ y) = some r') :
    r' = ⟨some (x ++ start), p⟩ := by
  obtain ⟨start, rfl⟩ : ∃ rest, start = c :: rest := List.head?_eq_some_iff.1 hhead
  have hcomment : isCommentLine (x ++ (c :: start ++ [ch '\\']) ++ y) = false := by
    rw [List.append_assoc]
    exact isCommentLine_append hx hc hhash
  unfold Reader.step at h
  dsimp only at h
  rw [hcomment, if_neg Bool.false_ne_true] at h
  -- The backslash ends the line, or blanks follow it.
  rcases List.eq_nil_or_concat' y with rfl | ⟨front, last, rfl⟩
  · have hcontinues : continues (x ++ (c :: start ++ [ch '\\']) ++ []) = true := by
      unfold continues
      rw [List.append_nil, ← List.append_assoc, List.getLast?_concat]
      rfl
    rw [hcontinues, if_pos rfl, List.append_nil, ← List.append_assoc, List.dropLast_concat] at h
    exact (Option.some.inj h).symm
  · have hcontinues : continues (x ++ (c :: start ++ [ch '\\']) ++ (front ++ [last])) = false := by
      rw [← List.append_assoc]
      exact continues_append_blank (hy last (List.mem_append_right _ List.mem_cons_self))
    -- For the shell, a backslash that does not end the line is one that it refuses here.
    have hback : l.step (ch '\\') = none := by
      unfold Lexer.step
      rw [hmode]
      dsimp only
      rw [if_neg (by decide), if_neg (by decide), if_neg (by decide), if_neg (by decide),
        if_neg (by decide), if_neg (by decide)]
      exact if_pos (Bool.or_eq_true_iff.2 (.inl (by decide)))
    have hlex : lex (x ++ (c :: start ++ [ch '\\']) ++ (front ++ [last])) = none := by
      unfold lex
      rw [List.append_assoc, List.append_assoc, ← List.append_assoc x, List.foldlM_append, hfold,
        Option.bind_eq_bind, Option.bind_some, List.singleton_append, List.foldlM_cons, hback]
      rfl
    unfold Shell.Parser.read at h
    rw [hcontinues, if_neg Bool.false_ne_true, hlex] at h
    exact nomatch h

/-- A blank line is nothing. -/
theorem step_blankLine {line : PyStr} (h : ∀ c ∈ line, IsBlank c) :
    Reader.step ⟨none, p⟩ line = some ⟨none, p⟩ := by
  have hcomment : isCommentLine line = false := by
    have hdrop : line.dropWhile (fun c => c == ch ' ' || c == ch '\t') = [] := by
      refine List.dropWhile_eq_nil_iff.2 fun c hc => ?_
      rw [Bool.or_eq_true, beq_iff_eq, beq_iff_eq]
      exact h c hc
    unfold isCommentLine
    rw [hdrop]
    rfl
  have hcontinues : continues line = false := by
    rcases List.eq_nil_or_concat' line with rfl | ⟨front, last, rfl⟩
    · rfl
    · exact continues_append_blank (h last (List.mem_append_right _ List.mem_cons_self))
  have hlex : lex line = some [] := @lex_append_blanks .init [] line rfl rfl h
  unfold Reader.step Shell.Parser.read
  dsimp only
  rw [hcomment, if_neg Bool.false_ne_true, hcontinues, if_neg Bool.false_ne_true, hlex]
  rfl

/-- Blank lines leave a reader as it is. -/
theorem foldlM_blankLines (h : ∀ line ∈ ls, ∀ c ∈ line, IsBlank c) :
    ls.foldlM Reader.step ⟨none, p⟩ = some ⟨none, p⟩ := by
  induction ls with
  | nil => rfl
  | cons line ls ih =>
    obtain ⟨hline, hls⟩ := List.forall_mem_cons.1 h
    rw [List.foldlM_cons, step_blankLine hline]
    exact ih hls

/-- The first element with a property, after others without it. -/
theorem findIdx_append_cons {α : Type} {q : α → Bool} {as bs : List α} {e : α}
    (has : ∀ a ∈ as, q a = false)
    (he : q e = true) : (as ++ e :: bs).findIdx q = as.length := by
  induction as with
  | nil =>
    rw [List.nil_append, List.findIdx_cons, he]
    rfl
  | cons a as ih =>
    obtain ⟨ha, has⟩ := List.forall_mem_cons.1 has
    rw [List.cons_append, List.findIdx_cons, ha, ih has]
    rfl

/-- The shell reads the extraction and the execution of an accepted text as two commands, one after
the other. -/
theorem containsBlock_of_parse (hsource : ∀ c ∈ sourcePath, IsInert c)
    (hname : ∀ c ∈ extractedName, IsInert c)
    (haccepted : requireBaseBoundExecution command label sourcePath extractedName = .ok ())
    (hplainly : readPlainly sourcePath command = true) (hparse : parse command = some script) :
    containsBlock (isShow sourcePath extractedName) (isPython extractedName) script = true := by
  unfold readPlainly at hplainly
  simp only [Bool.and_eq_true] at hplainly
  obtain ⟨⟨hspaces, hbefore⟩, hnext⟩ := hplainly
  have honly : OnlyBlanks command := by
    intro c hc hspace
    have hc := List.all_eq_true.1 hspaces c hc
    rw [hspace] at hc
    simp only [Bool.not_true, Bool.false_or, Bool.or_eq_true, beq_iff_eq] at hc
    exact hc
  obtain ⟨before, after, hnot, hlines⟩ := requireBaseBoundExecution_lines haccepted
  unfold strippedLines at hlines
  rw [cores_splitlines, ← physicalLines_eq honly] at hlines
  obtain ⟨ls₁, e, more, hphysical, he, hls₁, hmore⟩ := exists_of_cores_eq hlines
  obtain ⟨gap, d, more', rfl, hd, hgap, hmore'⟩ := @exists_of_cores_eq _ more [] _ hmore
  obtain ⟨gap', q, rest, rfl, hq, hgap', -⟩ := @exists_of_cores_eq _ more' [] _ hmore'
  -- The line of the extraction is the one that is looked for, and the destination is the next line.
  have hindex : (physicalLines command).findIdx (fun line => strip line =
      extraction sourcePath) = ls₁.length := by
    rw [hphysical]
    refine findIdx_append_cons (fun l hl => decide_eq_false fun hsame =>
      hnot ?_) (decide_eq_true he)
    rw [← hls₁]
    refine List.mem_filter.2 ⟨List.mem_map.2 ⟨l, hl, hsame⟩, decide_eq_true ?_⟩
    rw [extraction_eq]
    exact List.append_ne_nil_of_right_ne_nil _ (List.cons_ne_nil _ _)
  have hgapnil : gap = [] := by
    cases gap with
    | nil => rfl
    | cons l gap =>
      rw [hindex, hphysical, List.getElem?_append_right (Nat.le_succ _)] at hnext
      have hl : strip l ≠ [] := by
        rw [show ls₁.length + 1 - ls₁.length = 1 by omega] at hnext
        exact of_decide_eq_true hnext
      rw [cores_cons_of_strip_ne_nil hl] at hgap
      exact nomatch hgap
  subst hgapnil
  have hmem {l : PyStr} (hl : l ∈ ls₁ ++ e :: ([] ++ d :: (gap' ++ q :: rest))) :
      l ∈ physicalLines command :=
    hphysical ▸ hl
  obtain ⟨xe, ye, hxe, hye, hline⟩ :=
    exists_blanks honly (hmem (List.mem_append_right _ List.mem_cons_self))
  obtain ⟨xd, yd, hxd, hyd, hline'⟩ := exists_blanks honly
    (hmem (List.mem_append_right _ (List.mem_cons_of_mem e List.mem_cons_self)))
  obtain ⟨xq, yq, hxq, hyq, hline''⟩ := exists_blanks honly (hmem (List.mem_append_right _
    (List.mem_cons_of_mem e (List.mem_cons_of_mem d (List.mem_append_right _ List.mem_cons_self)))))
  have hblanks : ∀ line ∈ gap', ∀ c ∈ line, IsBlank c := by
    intro line hl
    obtain ⟨x, y, hx, hy, heq⟩ := exists_blanks honly (hmem (List.mem_append_right _
      (List.mem_cons_of_mem e (List.mem_cons_of_mem d (List.mem_append_left _ hl)))))
    have hnil : strip line = [] := by
      by_contra hne
      have hcore : strip line ∈ cores gap' :=
        List.mem_filter.2 ⟨List.mem_map.2 ⟨line, hl, rfl⟩, decide_eq_true hne⟩
      rw [hgap'] at hcore
      exact absurd hcore List.not_mem_nil
    rw [heq, hnil, List.append_nil]
    intro c hc
    exact (List.mem_append.1 hc).elim (hx c) (hy c)
  -- The reader before the extraction.
  rw [hindex, hphysical, List.take_left' rfl] at hbefore
  obtain ⟨⟨pending, frames, current⟩, hr, hstate⟩ := (Option.any_eq_true _ _).1 hbefore
  rw [Bool.and_eq_true, Option.isNone_iff_eq_none, List.all_eq_true] at hstate
  obtain ⟨rfl, hframes⟩ := hstate
  have houtside : OutsideFunctions frames := fun f hf => Bool.not_eq_true' _ |>.mp (hframes f hf)
  unfold parse at hparse
  rw [hphysical, List.foldlM_append, hr, Option.bind_eq_bind, Option.bind_some, List.nil_append,
    List.foldlM_cons] at hparse
  -- The extraction goes on in the next line.
  obtain ⟨r₃, hfold, hfinish⟩ := Option.bind_eq_some_iff.1 hparse
  obtain ⟨r₁, hstep₁, hfold⟩ := Option.bind_eq_some_iff.1 hfold
  have hstart : (showStart sourcePath).head? = some (ch 'g') := by
    have htext : text "git show \"$\x7bBASE_SHA\x7d:" =
        ch 'g' :: text "it show \"$\x7bBASE_SHA\x7d:" := by
      decide
    unfold showStart
    rw [htext]
    rfl
  rw [hline, he, extraction_eq] at hstep₁
  obtain rfl := step_backslash (foldlM_showStart hxe hsource) rfl hstart
    (by unfold IsBlank; decide) (by decide)
    hxe hye hstep₁
  -- The destination ends it.
  rw [List.foldlM_cons] at hfold
  obtain ⟨r₂, hstep₂, hfold⟩ := Option.bind_eq_some_iff.1 hfold
  have hends : continues (xd ++ destination extractedName ++ yd) = false := by
    rcases List.eq_nil_or_concat' yd with rfl | ⟨front, last, rfl⟩
    · have htext : text "\"" = [ch '"'] := by decide
      unfold continues destination
      rw [List.append_nil, htext, ← List.append_assoc, List.getLast?_concat]
      decide
    · rw [← List.append_assoc]
      exact continues_append_blank (hyd last (List.mem_append_right _ List.mem_cons_self))
  rw [hline', hd] at hstep₂
  unfold Reader.step at hstep₂
  dsimp only at hstep₂
  rw [hends, if_neg Bool.false_ne_true, read_show hsource hname hxe hxd hyd] at hstep₂
  obtain rfl := Option.some.inj hstep₂
  -- The execution is the next command.
  rw [List.foldlM_append, foldlM_blankLines hblanks, Option.bind_eq_bind, Option.bind_some,
    List.foldlM_cons] at hfold
  obtain ⟨r₄, hstep₄, hfold⟩ := Option.bind_eq_some_iff.1 hfold
  have hstart' : (pythonStart extractedName).head? = some (ch 'p') := by
    have htext : text "python \"$\x7bRUNNER_TEMP\x7d/" =
        ch 'p' :: text "ython \"$\x7bRUNNER_TEMP\x7d/" := by
      decide
    unfold pythonStart
    rw [htext]
    rfl
  rw [hline'', hq, baseExecution_eq] at hstep₄
  obtain rfl := step_backslash (foldlM_pythonStart hxq hname) rfl hstart'
    (by unfold IsBlank; decide) (by decide)
    hxq hyq hstep₄
  have hscript : rest.foldlM Reader.step ⟨some (xq ++ pythonStart extractedName ++ []),
      ⟨frames, current ++ [.command (showCommand sourcePath extractedName)]⟩⟩ >>=
      Reader.finish = some script := by
    rw [List.append_nil, hfold]
    exact hfinish
  exact containsBlock_of_pending hname hxq (decide_eq_true rfl) houtside hscript

end MarketDataGateway.Causal
