import MarketDataGateway.Causal.GateScript

/-!
# Runs of an accepted gate command

What a run of an accepted text has done when it ends with status zero. The text holds the extraction
of the tool of the base commit and its execution as two commands, one after the other
(`containsBlock_of_parse`). A run gets to them unless one of its steps leads it elsewhere, and
`isClean` says which steps do not. With `errexit` a run that ends with status zero has then executed
the tool (`executed_of_cleanRun`). The contract does not look for the steps that do: an `exit 0`
before the extraction is accepted.
-/

namespace MarketDataGateway.Causal

open Lib Lib.Shell

/-! ## Runs -/

section Steps

-- What the variables hold when the step begins, and the names the contract is given.
variable (values : PyStr → PyStr) (sourcePath extractedName : PyStr)

/-- `<base_sha>:<source_path>`. -/
def baseObject : PyStr := values (text "BASE_SHA") ++ ch ':' :: sourcePath

/-- `<runner_temp>/<extracted_name>`. -/
def baseFile : PyStr := values (text "RUNNER_TEMP") ++ ch '/' :: extractedName

/-- The tool has been extracted to the destination. -/
def IsExtraction : Step → Prop
  | .ran words redirects ok => words = [text "git", text "show", baseObject values sourcePath] ∧
      redirects = [(text ">", baseFile values extractedName)] ∧ ok = true
  | _ => False

/-- The destination has been executed, with success. -/
def IsExecution : Step → Prop
  | .ran words _ ok => words.take 2 = [text "python", baseFile values extractedName] ∧ ok = true
  | _ => False

/-- The tool of the base commit has been executed: it was extracted, and later the destination
succeeded. -/
def Executed (log : List Step) : Prop :=
  ∃ x y, List.Sublist [x, y] log ∧ IsExtraction values sourcePath extractedName x ∧
    IsExecution values extractedName y

/-- The tool is at the base commit: whenever `git` is asked, it says so. -/
def ToolExists (outcome : List Step → List PyStr → List (PyStr × PyStr) → Bool) : Prop :=
  ∀ log redirects, outcome log [text "git", text "cat-file", text "-e",
    baseObject values sourcePath] redirects = true

/-- The command asks whether the tool is at the base commit. -/
def isCheck (c : Command) : Bool :=
  c.words = [plainWord "git", plainWord "cat-file", plainWord "-e", toolAtBase sourcePath]

/-- The first branch is for when the tool is at the base commit, and holds the two commands. -/
def isGuarded : List (Command × List Statement) → Bool
  | (c, body) :: _ => isCheck sourcePath c &&
      containsBlock (isShow sourcePath extractedName) (isPython extractedName) body
  | [] => false

/-- A step that does not lead a run away from the two commands: it keeps the variables and the names
of the commands they are made of, does not end the script with status zero, and of an `if` around
them takes a branch that holds them. -/
def isClean : Step → Bool
  | .ran _ _ _ => true
  | .assigned name => name != text "BASE_SHA" && name != text "RUNNER_TEMP"
  | .defined name => name != text "git" && name != text "python"
  | .exited status => status != 0
  | .chose branches otherwise chosen =>
    !containsStatement (isShow sourcePath extractedName) (isPython extractedName)
    (.branch branches otherwise) ||
      isGuarded sourcePath extractedName branches ||
      containsBlock (isShow sourcePath extractedName) (isPython extractedName) chosen

/-- Until the tool has been executed the steps are clean. -/
def CleanRun (log : List Step) : Prop :=
  ∀ before step, before ++ [step] <+: log → ¬Executed values sourcePath extractedName before →
    isClean sourcePath extractedName step = true

/-- The variables and the commands are as they were. -/
structure Untouched (s : State) : Prop where
  baseSha : s.values (text "BASE_SHA") = values (text "BASE_SHA")
  runnerTemp : s.values (text "RUNNER_TEMP") = values (text "RUNNER_TEMP")
  git : s.functions (text "git") = none
  python : s.functions (text "python") = none

end Steps

variable {values : PyStr → PyStr} {command label sourcePath extractedName : PyStr}
  {log log' : List Step}
  {outcome : List Step → List PyStr → List (PyStr × PyStr) →
    Bool} {n : ℕ} {strict last : Bool} {s s' s₁ : State}
  {c : Command} {step : Step} {r : Ending} {script : List Statement}

/-! ## Logs -/

/-- What has been executed is executed in a longer log. -/
theorem Executed.mono (h : Executed values sourcePath extractedName log) (hlog : log <+: log') :
    Executed values sourcePath extractedName log' := by
  obtain ⟨x, y, hxy, hx, hy⟩ := h
  exact ⟨x, y, hxy.trans hlog.sublist, hx, hy⟩

/-- What runs cleanly runs cleanly in a shorter log. -/
theorem CleanRun.mono (h : CleanRun values sourcePath extractedName log') (hlog : log <+: log') :
    CleanRun values sourcePath extractedName log :=
  fun before step hbefore => h before step (hbefore.trans hlog)

/-- A step is clean unless the tool has been executed before. -/
theorem CleanRun.record (h : CleanRun values sourcePath extractedName (s.record step).log) :
    Executed values sourcePath extractedName s.log ∨
    isClean sourcePath extractedName step = true := by
  by_cases hexecuted : Executed values sourcePath extractedName s.log
  · exact .inl hexecuted
  · exact .inr (h s.log step (List.prefix_refl _) hexecuted)

/-- A step that is recorded touches no values. -/
theorem Untouched.record (h : Untouched values s) : Untouched values (s.record step) :=
  ⟨h.baseSha, h.runnerTemp, h.git, h.python⟩

/-! ## Words -/

/-- A plain word stands for itself. -/
theorem expand_plainWord (w : String) : expand values (plainWord w) = text w := by
  unfold expand plainWord
  rw [List.flatMap_map]
  exact List.flatMap_singleton' _

/-- What is quoted stands for itself. -/
theorem expand_quoted (x : PyStr) : expand values (x.map .quoted) = x := by
  unfold expand
  rw [List.flatMap_map]
  exact List.flatMap_singleton' _

/-- The tool at the base is the base object while the values are untouched. -/
theorem Untouched.expand_toolAtBase (h : Untouched values s) :
    expand s.values (toolAtBase sourcePath) = baseObject values sourcePath := by
  have hquoted : expand s.values (sourcePath.map .quoted) = sourcePath := expand_quoted _
  calc expand s.values (toolAtBase sourcePath)
      = s.values (text "BASE_SHA") ++ ([ch ':'] ++ expand s.values (sourcePath.map .quoted)) := rfl
    _ = baseObject values sourcePath := by
      rw [hquoted, h.baseSha]
      rfl

/-- The file of the tool is the base file while the values are untouched. -/
theorem Untouched.expand_toolFile (h : Untouched values s) :
    expand s.values (toolFile extractedName) = baseFile values extractedName := by
  have hquoted : expand s.values (extractedName.map .quoted) = extractedName := expand_quoted _
  calc expand s.values (toolFile extractedName)
      = s.values (text "RUNNER_TEMP") ++
      ([ch '/'] ++ expand s.values (extractedName.map .quoted)) := rfl
    _ = baseFile values extractedName := by
      rw [hquoted, h.runnerTemp]
      rfl

/-! ## Commands -/

/-- A command whose name is not that of a function is run once. -/
theorem runCommand_external {words : List PyStr} {name : PyStr}
    (hwords : c.expandWords s.values = name :: words)
    (hname : s.functions name = none) (h : runCommand outcome n strict s c = some (s', r)) :
    s' = s.record (.ran (name :: words) (c.expandRedirects s.values)
        (outcome s.log (name :: words) (c.expandRedirects s.values))) ∧
      r = .done (outcome s.log (name :: words) (c.expandRedirects s.values)) := by
  cases n with
  | zero => exact nomatch h
  | succ n =>
    have hcalled : calledBy s c = none := by
      unfold calledBy
      rw [hwords]
      exact hname
    rcases runCommand_cases h with ⟨body, hbody, -⟩ | ⟨-, h⟩
    · rw [hcalled] at hbody
      exact nomatch hbody
    · unfold runExternal at h
      rw [hwords] at h
      obtain ⟨rfl, rfl⟩ := Prod.mk.inj h
      exact ⟨rfl, rfl⟩

/-- A statement that is a command runs it. -/
theorem runStatement_command (h : runStatement outcome n strict s (.command c) = some (s', r)) :
    ∃ m, runCommand outcome m strict s c = some (s', r) := by
  cases n with
  | zero => exact nomatch h
  | succ n => exact ⟨n, h⟩

/-- A run of the extraction. -/
theorem runCommand_show (hs : Untouched values s)
    (h : runCommand outcome n strict s (showCommand sourcePath extractedName) = some (s', r)) :
    ∃ x ok, s' = s.record x ∧ r = .done ok ∧
      (ok = true → IsExtraction values sourcePath extractedName x) := by
  have hwords : (showCommand sourcePath extractedName).expandWords s.values =
      [text "git", text "show", baseObject values sourcePath] := by
    unfold showCommand Command.expandWords
    rw [List.map_cons, List.map_cons, List.map_cons, List.map_nil, expand_plainWord,
      expand_plainWord, hs.expand_toolAtBase]
  have hredirects : (showCommand sourcePath extractedName).expandRedirects s.values =
      [(text ">", baseFile values extractedName)] := by
    unfold showCommand Command.expandRedirects
    rw [List.map_cons, List.map_nil, hs.expand_toolFile]
  obtain ⟨rfl, rfl⟩ := runCommand_external hwords hs.git h
  rw [hredirects]
  exact ⟨_, _, rfl, rfl, fun hok => ⟨rfl, rfl, hok⟩⟩

/-- A run of the execution. -/
theorem runCommand_python (hs : Untouched values s) (hc : isPython extractedName c = true)
    (h : runCommand outcome n strict s c = some (s', r)) :
    ∃ y ok, s' = s.record y ∧ r = .done ok ∧ (ok = true → IsExecution values extractedName y) := by
  have htake : (c.expandWords s.values).take 2 =
      [text "python", baseFile values extractedName] := by
    unfold Command.expandWords
    rw [← List.map_take, of_decide_eq_true hc, List.map_cons, List.map_cons, List.map_nil,
      expand_plainWord, hs.expand_toolFile]
  obtain ⟨words, hwords⟩ : ∃ words, c.expandWords s.values = text "python" :: words := by
    cases hexpand : c.expandWords s.values with
    | nil =>
      rw [hexpand] at htake
      exact nomatch htake
    | cons name words =>
      rw [hexpand] at htake
      exact ⟨words, by rw [(List.cons.inj htake).1]⟩
  obtain ⟨rfl, rfl⟩ := runCommand_external hwords hs.python h
  exact ⟨_, _, rfl, rfl, fun hok => ⟨hwords ▸ htake, hok⟩⟩

/-- The check succeeds where the tool is at the base commit. -/
theorem runCommand_check (htool : ToolExists values sourcePath outcome) (hs : Untouched values s)
    (hc : isCheck sourcePath c = true) (h : runCommand outcome n strict s c = some (s', r)) :
    r = .done true := by
  have hwords : c.expandWords s.values =
      [text "git", text "cat-file", text "-e", baseObject values sourcePath] := by
    unfold Command.expandWords
    rw [of_decide_eq_true hc, List.map_cons, List.map_cons, List.map_cons, List.map_cons,
      List.map_nil, expand_plainWord, expand_plainWord, expand_plainWord, hs.expand_toolAtBase]
  obtain ⟨-, rfl⟩ := runCommand_external hwords hs.git h
  rw [htool]

/-! ## What steps keep -/

/-- Until the tool has been executed, clean steps leave the variables and the commands as they were,
and do not end the script with status zero. -/
theorem untouched_of_cleanRun (n : ℕ) :
    (∀ strict s c s' r, Untouched values s → runCommand outcome n strict s c = some (s', r) →
      CleanRun values sourcePath extractedName s'.log →
      Executed values sourcePath extractedName s'.log ∨ Untouched values s' ∧ r ≠ .exited 0) ∧
    (∀ s branches otherwise s' chosen, Untouched values s →
      runBranches outcome n s branches otherwise = some (s', chosen) →
      CleanRun values sourcePath extractedName s'.log →
      Executed values sourcePath extractedName s'.log ∨ Untouched values s' ∧ chosen ≠ .inr 0) ∧
    (∀ strict s st s' r, Untouched values s → runStatement outcome n strict s st = some (s', r) →
      CleanRun values sourcePath extractedName s'.log →
      Executed values sourcePath extractedName s'.log ∨ Untouched values s' ∧ r ≠ .exited 0) ∧
    ∀ strict s last stmts s' r, Untouched values s →
    runBlock outcome n strict s last stmts = some (s', r) →
      CleanRun values sourcePath extractedName s'.log →
      Executed values sourcePath extractedName s'.log ∨ Untouched values s' ∧ r ≠ .exited 0 := by
  -- On the fuel, for commands, branches, statements and blocks together.
  induction n with
  | zero =>
    exact ⟨(fun _ _ _ _ _ _ h => nomatch h), (fun _ _ _ _ _ _ h => nomatch h),
      (fun _ _ _ _ _ _ h => nomatch h), fun _ _ _ _ _ _ _ h => nomatch h⟩
  | succ n ih =>
    obtain ⟨hcommand, hbranches, hstatement, hblock⟩ := ih
    refine ⟨fun strict s c s' r hs h hclean => ?_, fun s branches otherwise s' chosen hs h hclean =>
      ?_, fun strict s st s' r hs h hclean => ?_, fun strict s last stmts s' r hs h hclean => ?_⟩
    · -- A function that is called runs its body; an external command leaves the values.
      rcases runCommand_cases h with ⟨body, -, h⟩ | ⟨-, h⟩
      · exact hblock _ _ _ _ _ _ hs h hclean
      · obtain ⟨rfl, rfl⟩ := Prod.mk.inj h
        exact .inr ⟨hs.record, fun heq => nomatch heq⟩
    · cases branches with
      | nil =>
        obtain ⟨rfl, rfl⟩ := Prod.mk.inj (Option.some.inj h)
        exact .inr ⟨hs, fun heq => nomatch heq⟩
      | cons first more =>
        obtain ⟨c, body⟩ := first
        rcases runBranches_cons_cases h with ⟨status, hc, rfl⟩ | ⟨hc, rfl⟩ | ⟨s₁, hc, hmore⟩
        · refine (hcommand _ _ _ _ _ hs hc hclean).imp_right fun hs' => ⟨hs'.1, fun heq => hs'.2 ?_⟩
          rw [Sum.inr.inj heq]
        · exact (hcommand _ _ _ _ _ hs hc hclean).imp_right fun hs' => ⟨hs'.1,
            fun heq => nomatch heq⟩
        · -- The condition does not hold, and the other branches are tried.
          have hlog := (log_grows n).2.1 _ _ _ _ _ hmore
          rcases hcommand _ _ _ _ _ hs hc (hclean.mono hlog) with hexecuted | ⟨hs₁, -⟩
          · exact .inl (hexecuted.mono hlog)
          · exact hbranches _ _ _ _ _ hs₁ hmore hclean
    · cases st with
      | command c => exact hcommand _ _ _ _ _ hs h hclean
      | assign name value =>
        -- A clean assignment is to another name than those that the tool depends on.
        obtain ⟨rfl, rfl⟩ := Prod.mk.inj (Option.some.inj h)
        rcases hclean.record with hexecuted | hname
        · exact .inl (hexecuted.mono (prefix_record _ _))
        · simp only [isClean, Bool.and_eq_true, bne_iff_ne] at hname
          refine .inr ⟨⟨?_, ?_, hs.git, hs.python⟩, fun heq => nomatch heq⟩
          · exact (Function.update_of_ne hname.1.symm _ _).trans hs.baseSha
          · exact (Function.update_of_ne hname.2.symm _ _).trans hs.runnerTemp
      | exit status =>
        obtain ⟨rfl, rfl⟩ := Prod.mk.inj (Option.some.inj h)
        rcases hclean.record with hexecuted | hstatus
        · exact .inl (hexecuted.mono (prefix_record _ _))
        · simp only [isClean, bne_iff_ne] at hstatus
          exact .inr ⟨hs.record, fun heq => hstatus (Ending.exited.inj heq)⟩
      | define name body =>
        -- A clean definition is of another function than the two commands.
        obtain ⟨rfl, rfl⟩ := Prod.mk.inj (Option.some.inj h)
        rcases hclean.record with hexecuted | hname
        · exact .inl (hexecuted.mono (prefix_record _ _))
        · simp only [isClean, Bool.and_eq_true, bne_iff_ne] at hname
          refine .inr ⟨⟨hs.baseSha, hs.runnerTemp, ?_, ?_⟩, fun heq => nomatch heq⟩
          · exact (Function.update_of_ne hname.1.symm _ _).trans hs.git
          · exact (Function.update_of_ne hname.2.symm _ _).trans hs.python
      | branch branches otherwise =>
        rcases runStatement_branch_cases h with ⟨status, hbr, rfl⟩ | ⟨s₁, chosen, hbr, hchosen⟩
        · refine (hbranches _ _ _ _ _ hs hbr hclean).imp_right fun hs' => ⟨hs'.1,
            fun heq => hs'.2 ?_⟩
          rw [Ending.exited.inj heq]
        · have hlog := (prefix_record s₁ _).trans ((log_grows n).2.2.2 _ _ _ _ _ _ hchosen)
          rcases hbranches _ _ _ _ _ hs hbr (hclean.mono hlog) with hexecuted | ⟨hs₁, -⟩
          · exact .inl (hexecuted.mono hlog)
          · exact hblock _ _ _ _ _ _ hs₁.record hchosen hclean
    · cases stmts with
      | nil =>
        obtain ⟨rfl, rfl⟩ := Prod.mk.inj (Option.some.inj h)
        exact .inr ⟨hs, fun heq => nomatch heq⟩
      | cons st rest =>
        rcases runBlock_cons_cases h with ⟨status, hst, rfl⟩ | ⟨-, hst, rfl⟩ |
          ⟨s₁, ok, hst, -, hrest⟩
        · exact hstatement _ _ _ _ _ hs hst hclean
        · exact (hstatement _ _ _ _ _ hs hst hclean).imp_right fun hs' => ⟨hs'.1,
            fun heq => nomatch heq⟩
        · have hlog := (log_grows n).2.2.2 _ _ _ _ _ _ hrest
          rcases hstatement _ _ _ _ _ hs hst (hclean.mono hlog) with hexecuted | ⟨hs₁, -⟩
          · exact .inl (hexecuted.mono hlog)
          · exact hblock _ _ _ _ _ _ hs₁ hrest hclean

/-! ## Getting to the two commands -/

/-- A branch that the check guards is taken. -/
theorem runBranches_of_isGuarded (htool : ToolExists values sourcePath outcome)
    (hs : Untouched values s)
    {branches : List (Command × List Statement)} {otherwise : List Statement}
    {chosen : List Statement ⊕ ℕ}
    (hguarded : isGuarded sourcePath extractedName branches = true)
    (h : runBranches outcome n s branches otherwise = some (s', chosen)) :
    ∃ body, chosen = .inl body ∧
      containsBlock (isShow sourcePath extractedName) (isPython extractedName) body = true := by
  cases branches with
  | nil => exact nomatch hguarded
  | cons first more =>
    obtain ⟨c, body⟩ := first
    obtain ⟨hcheck, hbody⟩ := Bool.and_eq_true_iff.1 hguarded
    cases n with
    | zero => exact nomatch h
    | succ n =>
      rcases runBranches_cons_cases h with ⟨status, hc, -⟩ | ⟨-, rfl⟩ | ⟨s₁, hc, -⟩
      · exact nomatch runCommand_check htool hs hcheck hc
      · exact ⟨body, rfl, hbody⟩
      · exact nomatch runCommand_check htool hs hcheck hc

/-- Statements that begin with the two commands execute the tool or fail. -/
theorem executed_of_startsPair {stmts : List Statement} (hs : Untouched values s)
    (hpair : startsPair (isShow sourcePath extractedName) (isPython extractedName) stmts = true)
    (h : runBlock outcome n true s last stmts = some (s', r)) :
    Executed values sourcePath extractedName s'.log ∨ r = .exited 1 := by
  unfold startsPair at hpair
  split at hpair
  · rename_i c c' rest
    obtain ⟨hshow, hpython⟩ := Bool.and_eq_true_iff.1 hpair
    obtain rfl := of_decide_eq_true hshow
    obtain _ | _ | n := n
    · exact nomatch h
    · exact nomatch h
    · -- The shell stops at a command that fails, so the second runs only after the first.
      rcases runBlock_cons_cases h with ⟨status, hc, -⟩ | ⟨-, -, rfl⟩ | ⟨s₁, ok, hc, hok, h⟩
      · obtain ⟨x, ok, -, heq, -⟩ := runCommand_show hs (runStatement_command hc).choose_spec
        exact nomatch heq
      · exact .inr rfl
      · obtain ⟨x, ok', rfl, heq, hx⟩ := runCommand_show hs (runStatement_command hc).choose_spec
        obtain rfl := Ending.done.inj heq
        rcases runBlock_cons_cases h with ⟨status, hc', -⟩ | ⟨-, -, rfl⟩ | ⟨s₂, ok', hc', hok', h⟩
        · obtain ⟨y, ok', -, heq, -⟩ :=
            runCommand_python hs.record hpython (runStatement_command hc').choose_spec
          exact nomatch heq
        · exact .inr rfl
        · obtain ⟨y, ok'', rfl, heq, hy⟩ :=
            runCommand_python hs.record hpython (runStatement_command hc').choose_spec
          obtain rfl := Ending.done.inj heq
          -- Both have run and succeeded: the log has them in this order.
          have hexecuted : Executed values sourcePath extractedName
              ((s.record x).record y).log := by
            refine ⟨x, y, ?_, hx (hok rfl), hy (hok' rfl)⟩
            show List.Sublist [x, y] (s.log ++ [x] ++ [y])
            rw [List.append_assoc]
            exact List.sublist_append_right _ _
          exact .inl (hexecuted.mono ((log_grows _).2.2.2 _ _ _ _ _ _ h))
  · exact nomatch hpair

/-- With `errexit` clean steps get to the two commands, or to a status that is not zero. -/
theorem executed_of_contains (htool : ToolExists values sourcePath outcome) (n : ℕ) :
    (∀ s st s' r, Untouched values s → runStatement outcome n true s st = some (s', r) →
      CleanRun values sourcePath extractedName s'.log →
      containsStatement (isShow sourcePath extractedName) (isPython extractedName) st = true →
      Executed values sourcePath extractedName s'.log ∨ ∃ status, r = .exited (status + 1)) ∧
    ∀ s last stmts s' r, Untouched values s → runBlock outcome n true s last stmts = some (s', r) →
      CleanRun values sourcePath extractedName s'.log →
      containsBlock (isShow sourcePath extractedName) (isPython extractedName) stmts = true →
      Executed values sourcePath extractedName s'.log ∨ ∃ status, r = .exited (status + 1) := by
  -- On the fuel, for statements and blocks together.
  induction n with
  | zero => exact ⟨(fun _ _ _ _ _ h => nomatch h), fun _ _ _ _ _ _ h => nomatch h⟩
  | succ n ih =>
    obtain ⟨hstatement, hblock⟩ := ih
    obtain ⟨-, huntouchedBranches, huntouchedStatement, -⟩ :=
      @untouched_of_cleanRun values sourcePath extractedName outcome n
    have hsuccessor {status : ℕ} (h : status ≠ 0) : ∃ k,
        Ending.exited status = .exited (k + 1) := by
      obtain ⟨k, rfl⟩ := Nat.exists_eq_succ_of_ne_zero h
      exact ⟨k, rfl⟩
    refine ⟨fun s st s' r hs h hclean hcontains => ?_,
      fun s last stmts s' r hs h hclean hcontains => ?_⟩
    · cases st with
      | command c => exact nomatch hcontains
      | assign name value => exact nomatch hcontains
      | exit status => exact nomatch hcontains
      | define name body => exact nomatch hcontains
      | branch branches otherwise =>
        rcases runStatement_branch_cases h with ⟨status, hbr, rfl⟩ | ⟨s₁, chosen, hbr, hchosen⟩
        · refine (huntouchedBranches _ _ _ _ _ hs hbr hclean).imp_right fun hs' =>
            hsuccessor fun heq => hs'.2 ?_
          rw [heq]
        · have hlog := (log_grows n).2.2.2 _ _ _ _ _ _ hchosen
          have hlog₁ := (prefix_record s₁ _).trans hlog
          rcases huntouchedBranches _ _ _ _ _ hs hbr (hclean.mono hlog₁) with hexecuted | ⟨hs₁, -⟩
          · exact .inl (hexecuted.mono hlog₁)
          rcases (hclean.mono hlog).record with hexecuted | htaken
          · exact .inl (hexecuted.mono hlog₁)
          · -- The branch that is run holds the two commands.
            refine hblock _ _ _ _ _ hs₁.record hchosen hclean ?_
            simp only [isClean, hcontains, Bool.not_true, Bool.false_or, Bool.or_eq_true] at htaken
            rcases htaken with hguarded | hheld
            · obtain ⟨body, heq, hbody⟩ := runBranches_of_isGuarded htool hs hguarded hbr
              rw [Sum.inl.inj heq]
              exact hbody
            · exact hheld
    · cases stmts with
      | nil => exact nomatch hcontains
      | cons st rest =>
        -- The pair stands at the start, in the first statement, or after it.
        rcases containsBlock_cons.1 hcontains with hpair | hcontains | hcontains
        · exact (executed_of_startsPair hs hpair h).imp_right fun hr => ⟨0, hr⟩
        · -- With `-e` the rest is run only if the first statement succeeds.
          rcases runBlock_cons_cases h with ⟨status, hst, rfl⟩ | ⟨-, -, rfl⟩ |
            ⟨s₁, ok, hst, -, hrest⟩
          · exact hstatement _ _ _ _ hs hst hclean hcontains
          · exact .inr ⟨0, rfl⟩
          · have hlog := (log_grows n).2.2.2 _ _ _ _ _ _ hrest
            rcases hstatement _ _ _ _ hs hst (hclean.mono hlog)
              hcontains with hexecuted | ⟨status, heq⟩
            · exact .inl (hexecuted.mono hlog)
            · exact nomatch heq
        · rcases runBlock_cons_cases h with ⟨status, hst, rfl⟩ | ⟨-, -, rfl⟩ |
            ⟨s₁, ok, hst, -, hrest⟩
          · refine (huntouchedStatement _ _ _ _ _ hs hst hclean).imp_right fun hs' =>
              hsuccessor fun heq => hs'.2 ?_
            rw [heq]
          · exact .inr ⟨0, rfl⟩
          · have hlog := (log_grows n).2.2.2 _ _ _ _ _ _ hrest
            rcases huntouchedStatement _ _ _ _ _ hs hst (hclean.mono hlog) with hexecuted | ⟨hs₁, -⟩
            · exact .inl (hexecuted.mono hlog)
            · exact hblock _ _ _ _ _ hs₁ hrest hclean hcontains

/-- A run of an accepted text that ends with status zero has executed the tool of the base commit,
if the shell reads the lines as the contract does and the steps until then are clean. -/
theorem executed_of_cleanRun (hsource : ∀ c ∈ sourcePath, IsInert c)
    (hname : ∀ c ∈ extractedName, IsInert c)
    (haccepted : requireBaseBoundExecution command label sourcePath extractedName = .ok ())
    (hplainly : readPlainly sourcePath command = true) (hparse : parse command = some script)
    (htool : ToolExists values sourcePath outcome)
    (hrun : run outcome n values script = some (s, r))
    (hzero : r.isZero = true) (hclean : CleanRun values sourcePath extractedName s.log) :
    Executed values sourcePath extractedName s.log := by
  have hcontains := containsBlock_of_parse hsource hname haccepted hplainly hparse
  have huntouched : Untouched values ⟨values, fun _ => none, []⟩ := ⟨rfl, rfl, rfl, rfl⟩
  rcases (executed_of_contains htool n).2 _ _ _ _ _ huntouched hrun hclean
    hcontains with h | ⟨status, rfl⟩
  · exact h
  · exact nomatch hzero

/-- `scripts/ci/check_causal_trust_root.py`. -/
def trustSource : PyStr := text "scripts/ci/" ++ text "check_causal_" ++ text "trust_root.py"

/-- `check_causal_trust_root.base.py`. -/
def trustName : PyStr := text "check_causal_" ++ text "trust_root.base.py"

/-- The step of the workflow that runs the trust checker, with a line behind the first. -/
def trustStep (line : PyStr) : PyStr :=
  [text "set -euo pipefail",
    line,
    text "if git cat-file -e " ++ text "\"$\x7bBASE_SHA\x7d:" ++ trustSource ++
    text "\" 2>/dev/null; then",
    text "  " ++ extraction trustSource,
    text "    " ++ destination trustName,
    text "  " ++ baseExecution trustName,
    text "    --output trust.json",
    bootstrapGuard,
    text "  " ++ bootstrapExecution trustSource,
    text "    --output trust.json",
    text "else",
    text "  exit 1",
    text "fi"].flatMap fun l => l ++ [codePoint 0x0A]

/-- The variables of a sample run. -/
def sampleValues (name : PyStr) : PyStr :=
  if name = text "BASE_SHA" then text "abc123"
    else if name = text "RUNNER_TEMP" then text "/tmp" else []

/-- A run in which every command succeeds. -/
theorem exists_run {line : PyStr} {q : State × Ending → Bool}
    (h : ((parse (trustStep line)).bind (run (fun _ _ _ => true) 20 sampleValues)).any q = true) :
    ∃ script s r, parse (trustStep line) = some script ∧
      run (fun _ _ _ => true) 20 sampleValues script = some (s, r) ∧ q (s, r) = true := by
  obtain ⟨⟨s, r⟩, hrun, hq⟩ := (Option.any_eq_true _ _).1 h
  obtain ⟨script, hparse, hrun⟩ := Option.bind_eq_some_iff.1 hrun
  exact ⟨script, s, r, hparse, hrun, hq⟩

/-- The script of the sample runs the tool of the base. -/
theorem executed_of_cleanRun_sample :
    ∃ script s r, parse (trustStep (text "mkdir -p artifacts")) = some script ∧
    run (fun _ _ _ => true) 20 sampleValues script = some (s, r) ∧
    Executed sampleValues trustSource trustName s.log := by
  have hsource : trustSource.all (fun c => decide (IsInert c)) = true := by decide +kernel
  have hname : trustName.all (fun c => decide (IsInert c)) = true := by decide +kernel
  obtain ⟨script, s, r, hparse, hrun, hends⟩ := @exists_run (text "mkdir -p artifacts")
    (fun ends => ends.2.isZero &&
    ends.1.log.all (isClean trustSource trustName)) (by decide +kernel)
  obtain ⟨hzero, hclean⟩ := Bool.and_eq_true_iff.1 hends
  refine ⟨script, s, r, hparse, hrun,
    @executed_of_cleanRun _ _ (text "trust") _ _ _ 20 _ _ _ ?_ ?_ ?_ ?_ hparse
    (fun _ _ => rfl) hrun hzero fun before step hbefore _ => ?_⟩
  · exact fun c hc => of_decide_eq_true (List.all_eq_true.1 hsource c hc)
  · exact fun c hc => of_decide_eq_true (List.all_eq_true.1 hname c hc)
  · decide +kernel
  · decide +kernel
  · exact List.all_eq_true.1 hclean step
      (hbefore.subset (List.mem_append_right _ List.mem_cons_self))

/-- After `exit 0` nothing is run, and the contract accepts it. -/
theorem not_executed : ¬∀ (values : PyStr → PyStr) (command label sourcePath extractedName : PyStr)
    (outcome : List Step → List PyStr → List (PyStr × PyStr) → Bool) (n : ℕ)
    (script : List Statement) (s : State)
    (r : Ending), requireBaseBoundExecution command label sourcePath extractedName = .ok () →
      parse command = some script → ToolExists values sourcePath outcome →
      run outcome n values script = some (s, r) → r.isZero = true →
      Executed values sourcePath extractedName s.log := by
  intro h
  obtain ⟨script, s, r, hparse, hrun, hends⟩ := @exists_run (text "exit 0")
    (fun ends => ends.2.isZero && ends.1.log.all fun step => match step with
      | .ran words _ _ => words.head? != some (text "python")
      | _ => true) (by decide +kernel)
  obtain ⟨hzero, hnone⟩ := Bool.and_eq_true_iff.1 hends
  have haccepted : requireBaseBoundExecution (trustStep (text "exit 0")) (text "trust")
    trustSource trustName =
      .ok () := by
    decide +kernel
  obtain ⟨x, y, hxy, -, hy⟩ :=
    h _ _ _ _ _ _ 20 script s r haccepted hparse (fun _ _ => rfl) hrun hzero
  -- No step of the run is an execution of the destination.
  have hstep := List.all_eq_true.1 hnone y (hxy.subset (List.mem_cons_of_mem x List.mem_cons_self))
  cases y with
  | ran words redirects ok =>
    cases words with
    | nil => exact nomatch hy.1
    | cons name words =>
      have hname : name = text "python" := (List.cons.inj hy.1).1
      rw [hname] at hstep
      simp only [List.head?_cons, bne_self_eq_false, Bool.false_eq_true] at hstep
  | assigned name => exact hy
  | defined name => exact hy
  | exited status => exact hy
  | chose branches otherwise chosen => exact hy

end MarketDataGateway.Causal
