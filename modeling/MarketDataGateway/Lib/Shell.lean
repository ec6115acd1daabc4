import Mathlib.Data.List.Infix
import MarketDataGateway.Lib.Unicode

/-!
# A small shell

Scripts of simple commands, assignments, functions, `exit` and `if`, as `bash -eu` runs them. Which
commands succeed is up to the environment, which may look at all that has been done before. A
command whose name is that of a function runs its body. A command that fails ends the script, unless
it is a condition, or is run by one.

A run keeps a log of its steps. The number that the functions for running start with bounds the
depth of the calls, so that every run that ends is one with some number.
-/

namespace MarketDataGateway.Lib.Shell

/-! ## Scripts -/

/-- A part of a word: a character, outside or inside of quotation marks, or the value of a
variable. -/
inductive Piece where
  | bare (c : CodePoint)
  | quoted (c : CodePoint)
  | parameter (name : PyStr)
  deriving DecidableEq, Repr

/-- A word. -/
abbrev Word := List Piece

/-- A simple command. A redirection is its operator and where it goes to. -/
structure Command where
  words : List Word
  redirects : List (PyStr × Word)
  deriving DecidableEq, Repr

/-- A statement. The branches of an `if` are tried one after the other. -/
inductive Statement where
  | command (command : Command)
  | assign (name : PyStr) (value : Word)
  | exit (status : ℕ)
  | define (name : PyStr) (body : List Statement)
  | branch (branches : List (Command × List Statement)) (otherwise : List Statement)

/-! ## Runs -/

/-- What is logged of a run. -/
inductive Step where
  /-- A command was run that is not a function. -/
  | ran (words : List PyStr) (redirects : List (PyStr × PyStr)) (ok : Bool)
  | assigned (name : PyStr)
  | defined (name : PyStr)
  | exited (status : ℕ)
  /-- Of an `if` these statements are run. -/
  | chose (branches : List (Command × List Statement)) (otherwise chosen : List Statement)

/-- The state of a run. -/
structure State where
  values : PyStr → PyStr
  functions : PyStr → Option (List Statement)
  log : List Step

/-- How statements end: with the status of the last one, or with the end of the script. -/
inductive Ending where
  | done (ok : Bool)
  | exited (status : ℕ)
  deriving DecidableEq, Repr

/-- The status of the script is zero. -/
def Ending.isZero : Ending → Bool
  | .done ok => ok
  | .exited status => status == 0

/-- One step more in the log. -/
def State.record (s : State) (step : Step) : State := { s with log := s.log ++ [step] }

/-- The text of a word. -/
def expand (values : PyStr → PyStr) (w : Word) : PyStr :=
  w.flatMap fun
    | .bare c => [c]
    | .quoted c => [c]
    | .parameter name => values name

/-- The words of a command. -/
def Command.expandWords (c : Command) (values : PyStr → PyStr) : List PyStr :=
  c.words.map (expand values)

/-- The redirections of a command. -/
def Command.expandRedirects (c : Command) (values : PyStr → PyStr) : List (PyStr × PyStr) :=
  c.redirects.map fun r => (r.1, expand values r.2)

section Run

-- Whether a command succeeds, after what has been done before.
variable (outcome : List Step → List PyStr → List (PyStr × PyStr) → Bool)

/-- A command is run that is not a function. -/
def runExternal (s : State) (c : Command) : State × Ending :=
  let words := c.expandWords s.values
  let redirects := c.expandRedirects s.values
  let ok := outcome s.log words redirects
  (s.record (.ran words redirects ok), .done ok)

/-- The function that a command calls. -/
def calledBy (s : State) (c : Command) : Option (List Statement) :=
  (c.expandWords s.values).head?.bind s.functions

mutual

/-- Run a command. -/
def runCommand : ℕ → Bool → State → Command → Option (State × Ending)
  | 0, _, _, _ => none
  | n + 1, strict, s, c =>
    match calledBy s c with
    | some body => runBlock n strict s true body
    | none => some (runExternal outcome s c)

/-- Run the conditions of an `if` until one holds. -/
def runBranches : ℕ → State → List (Command × List Statement) → List Statement →
    Option (State × (List Statement ⊕ ℕ))
  | 0, _, _, _ => none
  | _ + 1, s, [], otherwise => some (s, .inl otherwise)
  | n + 1, s, (c, body) :: rest, otherwise =>
    match runCommand n false s c with
    | none => none
    | some (s', .exited status) => some (s', .inr status)
    | some (s', .done true) => some (s', .inl body)
    | some (s', .done false) => runBranches n s' rest otherwise

/-- Run a statement. -/
def runStatement : ℕ → Bool → State → Statement → Option (State × Ending)
  | 0, _, _, _ => none
  | n + 1, strict, s, .command c => runCommand n strict s c
  | _ + 1, _, s, .assign name value =>
    let values := Function.update s.values name (expand s.values value)
    some ({ s with values := values }.record (.assigned name), .done true)
  | _ + 1, _, s, .exit status => some (s.record (.exited status), .exited status)
  | _ + 1, _, s, .define name body =>
    some ({ s with functions := Function.update s.functions name (some body) }.record
      (.defined name), .done true)
  | n + 1, strict, s, .branch branches otherwise =>
    match runBranches n s branches otherwise with
    | none => none
    | some (s', .inr status) => some (s', .exited status)
    | some (s', .inl chosen) =>
      runBlock n strict (s'.record (.chose branches otherwise chosen)) true chosen

/-- Run statements one after the other, after one that ended with the status `last`. -/
def runBlock : ℕ → Bool → State → Bool → List Statement → Option (State × Ending)
  | 0, _, _, _, _ => none
  | _ + 1, _, s, last, [] => some (s, .done last)
  | n + 1, strict, s, _, st :: rest =>
    match runStatement n strict s st with
    | none => none
    | some (s', .exited status) => some (s', .exited status)
    | some (s', .done ok) =>
      if strict && !ok then some (s', .exited 1) else runBlock n strict s' ok rest

end

/-- Run a script. -/
def run (n : ℕ) (values : PyStr → PyStr) (script : List Statement) : Option (State × Ending) :=
  runBlock outcome n true ⟨values, fun _ => none, []⟩ true script

end Run

variable {outcome : List Step → List PyStr → List (PyStr × PyStr) → Bool} {n : ℕ}
  {strict last : Bool}
  {s s' : State} {c : Command} {st : Statement} {rest body otherwise : List Statement}
  {branches more : List (Command × List Statement)} {r : Ending} {chosen : List Statement ⊕ ℕ}

/-! ## What a step can do -/

/-- A command is a function that is called, or an external one. -/
theorem runCommand_cases (h : runCommand outcome (n + 1) strict s c = some (s', r)) :
    (∃ body, calledBy s c = some body ∧ runBlock outcome n strict s true body = some (s', r)) ∨
      (calledBy s c = none ∧ runExternal outcome s c = (s', r)) := by
  unfold runCommand at h
  split at h
  · exact .inl ⟨_, ‹_›, h⟩
  · exact .inr ⟨‹_›, Option.some.inj h⟩

/-- Branches begin with a condition that exits, holds, or does not. -/
theorem runBranches_cons_cases
    (h : runBranches outcome (n + 1) s ((c, body) :: more) otherwise = some (s', chosen)) :
    (∃ status, runCommand outcome n false s c = some (s', .exited status) ∧ chosen = .inr status) ∨
      (runCommand outcome n false s c = some (s', .done true) ∧ chosen = .inl body) ∨
      ∃ s₁, runCommand outcome n false s c = some (s₁, .done false) ∧
        runBranches outcome n s₁ more otherwise = some (s', chosen) := by
  unfold runBranches at h
  split at h
  · exact nomatch h
  · obtain ⟨rfl, rfl⟩ := Prod.mk.inj (Option.some.inj h)
    exact .inl ⟨_, ‹_›, rfl⟩
  · obtain ⟨rfl, rfl⟩ := Prod.mk.inj (Option.some.inj h)
    exact .inr (.inl ⟨‹_›, rfl⟩)
  · exact .inr (.inr ⟨_, ‹_›, h⟩)

/-- A statement that branches runs the block that it comes to. -/
theorem runStatement_branch_cases
    (h : runStatement outcome (n + 1) strict s (.branch branches otherwise) = some (s', r)) :
    (∃ status, runBranches outcome n s branches otherwise = some (s', .inr status) ∧
    r = .exited status) ∨
      ∃ s₁ chosen, runBranches outcome n s branches otherwise = some (s₁, .inl chosen) ∧
        runBlock outcome n strict (s₁.record (.chose branches otherwise chosen)) true chosen =
        some (s', r) := by
  unfold runStatement at h
  split at h
  · exact nomatch h
  · obtain ⟨rfl, rfl⟩ := Prod.mk.inj (Option.some.inj h)
    exact .inl ⟨_, ‹_›, rfl⟩
  · exact .inr ⟨_, _, ‹_›, h⟩

/-- A block begins with a statement that exits, fails, or goes on. -/
theorem runBlock_cons_cases (h : runBlock outcome (n + 1) strict s last (st :: rest) =
    some (s', r)) :
    (∃ status, runStatement outcome n strict s st = some (s', .exited status) ∧
    r = .exited status) ∨
      (strict = true ∧ runStatement outcome n strict s st =
      some (s', .done false) ∧ r = .exited 1) ∨
      ∃ s₁ ok, runStatement outcome n strict s st = some (s₁, .done ok) ∧
      (strict = true → ok = true) ∧
        runBlock outcome n strict s₁ ok rest = some (s', r) := by
  unfold runBlock at h
  split at h
  · exact nomatch h
  · obtain ⟨rfl, rfl⟩ := Prod.mk.inj (Option.some.inj h)
    exact .inl ⟨_, ‹_›, rfl⟩
  · rename_i s₁ ok hst
    split_ifs at h with hfails
    · obtain ⟨hstrict, hok⟩ := Bool.and_eq_true_iff.1 hfails
      obtain rfl := (Bool.not_eq_true' ok).mp hok
      obtain ⟨rfl, rfl⟩ := Prod.mk.inj (Option.some.inj h)
      exact .inr (.inl ⟨hstrict, hst, rfl⟩)
    · refine .inr (.inr ⟨s₁, ok, hst, fun hstrict => ?_, h⟩)
      rw [hstrict, Bool.true_and, Bool.not_eq_true, Bool.not_eq_false'] at hfails
      exact hfails

/-! ## The log -/

/-- A step that is recorded comes last in the log. -/
theorem prefix_record (s : State) (step : Step) : s.log <+: (s.record step).log :=
  List.prefix_append _ _

/-- The log only grows. -/
theorem log_grows (n : ℕ) :
    (∀ strict s c s' r, runCommand outcome n strict s c = some (s', r) → s.log <+: s'.log) ∧
    (∀ s branches otherwise s' chosen,
      runBranches outcome n s branches otherwise = some (s', chosen) → s.log <+: s'.log) ∧
    (∀ strict s st s' r, runStatement outcome n strict s st = some (s', r) → s.log <+: s'.log) ∧
    ∀ strict s last stmts s' r, runBlock outcome n strict s last stmts = some (s', r) →
    s.log <+: s'.log := by
  induction n with
  | zero =>
    exact ⟨(fun _ _ _ _ _ h => nomatch h), (fun _ _ _ _ _ h => nomatch h),
      (fun _ _ _ _ _ h => nomatch h), fun _ _ _ _ _ _ h => nomatch h⟩
  | succ n ih =>
    obtain ⟨hcommand, hbranches, hstatement, hblock⟩ := ih
    refine ⟨fun strict s c s' r h => ?_, fun s branches otherwise s' chosen h => ?_,
      fun strict s st s' r h => ?_, fun strict s last stmts s' r h => ?_⟩
    · -- A command is a call of a function, or is recorded.
      rcases runCommand_cases h with ⟨body, -, h⟩ | ⟨-, h⟩
      · exact hblock _ _ _ _ _ _ h
      · obtain ⟨rfl, -⟩ := Prod.mk.inj h
        exact prefix_record s _
    · -- The conditions run one after another.
      cases branches with
      | nil =>
        obtain ⟨rfl, -⟩ := Prod.mk.inj (Option.some.inj h)
        exact List.prefix_refl _
      | cons first more =>
        obtain ⟨c, body⟩ := first
        rcases runBranches_cons_cases h with ⟨status, h, -⟩ | ⟨h, -⟩ | ⟨s₁, hc, h⟩
        · exact hcommand _ _ _ _ _ h
        · exact hcommand _ _ _ _ _ h
        · exact (hcommand _ _ _ _ _ hc).trans (hbranches _ _ _ _ _ h)
    · cases st with
      | command c => exact hcommand _ _ _ _ _ h
      | assign name value =>
        obtain ⟨rfl, -⟩ := Prod.mk.inj (Option.some.inj h)
        exact List.prefix_append _ _
      | exit status =>
        obtain ⟨rfl, -⟩ := Prod.mk.inj (Option.some.inj h)
        exact List.prefix_append _ _
      | define name body =>
        obtain ⟨rfl, -⟩ := Prod.mk.inj (Option.some.inj h)
        exact List.prefix_append _ _
      | branch branches otherwise =>
        rcases runStatement_branch_cases h with ⟨status, h, -⟩ | ⟨s₁, chosen, hbr, h⟩
        · exact hbranches _ _ _ _ _ h
        · exact (hbranches _ _ _ _ _ hbr).trans ((prefix_record s₁ _).trans (hblock _ _ _ _ _ _ h))
    · -- So do the statements, until one fails.
      cases stmts with
      | nil =>
        obtain ⟨rfl, -⟩ := Prod.mk.inj (Option.some.inj h)
        exact List.prefix_refl _
      | cons st rest =>
        rcases runBlock_cons_cases h with ⟨status, h, -⟩ | ⟨-, h, -⟩ | ⟨s₁, ok, hst, -, h⟩
        · exact hstatement _ _ _ _ _ h
        · exact hstatement _ _ _ _ _ h
        · exact (hstatement _ _ _ _ _ hst).trans (hblock _ _ _ _ _ _ h)

end MarketDataGateway.Lib.Shell
