import MarketDataGateway.Lib.ShellText

/-!
# Two commands one after the other

Where in a script, outside of its functions, a command of one kind stands with one of another kind
behind it, and that the reader of a script keeps what it has read of this. A line that follows lines
that are read goes into the statements that are open.
-/

namespace MarketDataGateway.Lib.Shell

/-! ## Scripts -/

section Contains

variable (first second : Command → Bool)

/-- The statements begin with the two commands. -/
def startsPair : List Statement → Bool
  | .command c :: .command c' :: _ => first c && second c'
  | _ => false

mutual

/-- The two commands are in a statement. -/
def containsStatement : Statement → Bool
  | .branch branches otherwise => containsBranches branches || containsBlock otherwise
  | _ => false

/-- They are in a branch. -/
def containsBranches : List (Command × List Statement) → Bool
  | [] => false
  | (_, body) :: rest => containsBlock body || containsBranches rest

/-- They are in statements. -/
def containsBlock : List Statement → Bool
  | [] => false
  | st :: rest => startsPair first second (st :: rest) || containsStatement st || containsBlock rest

end

end Contains

variable {first second : Command → Bool} {a b : List Statement} {st : Statement} {line : Line}
  {branches more : List (Command × List Statement)} {c c' : Command} {body : List Statement}

/-- A block contains a pair at its start, in its first statement, or after that. -/
theorem containsBlock_cons : containsBlock first second (st :: b) = true ↔
    startsPair first second (st :: b) = true ∨ containsStatement first second st = true ∨
      containsBlock first second b = true := by
  rw [containsBlock, Bool.or_eq_true, Bool.or_eq_true, or_assoc]

/-- A pair at the start of a block is at the start of a longer one. -/
theorem startsPair_append (h : startsPair first second a = true) :
    startsPair first second (a ++ b) = true := by
  unfold startsPair at h
  split at h
  · exact h
  · exact nomatch h

/-- A block contains what its first part does. -/
theorem containsBlock_append_left (h : containsBlock first second a = true) :
    containsBlock first second (a ++ b) = true := by
  induction a with
  | nil => exact nomatch h
  | cons st a ih =>
    rw [List.cons_append, containsBlock_cons]
    rcases containsBlock_cons.1 h with h | h | h
    · exact .inl (startsPair_append h)
    · exact .inr (.inl h)
    · exact .inr (.inr (ih h))

/-- A block contains what its second part does. -/
theorem containsBlock_append_right (h : containsBlock first second b = true) :
    containsBlock first second (a ++ b) = true := by
  induction a with
  | nil => exact h
  | cons st a ih =>
    rw [List.cons_append, containsBlock_cons]
    exact .inr (.inr ih)

/-- A block contains what its last statement does. -/
theorem containsBlock_singleton (h : containsStatement first second st = true) :
    containsBlock first second (a ++ [st]) = true :=
  containsBlock_append_right (containsBlock_cons.2 (.inr (.inl h)))

/-- A block contains the pair of its last two commands. -/
theorem containsBlock_pair (h : first c = true) (h' : second c' = true) :
    containsBlock first second (a ++ [.command c] ++ [.command c']) = true := by
  rw [List.append_assoc]
  refine containsBlock_append_right (containsBlock_cons.2 (.inl ?_))
  show (first c && second c') = true
  rw [h, h']
  rfl

/-- Branches contain what the first of them do. -/
theorem containsBranches_append_left (h : containsBranches first second branches = true) :
    containsBranches first second (branches ++ more) = true := by
  induction branches with
  | nil => exact nomatch h
  | cons branch branches ih =>
    obtain ⟨c, body⟩ := branch
    rw [List.cons_append, containsBranches, Bool.or_eq_true]
    rw [containsBranches, Bool.or_eq_true] at h
    exact h.imp_right ih

/-- Branches contain what the last of them does. -/
theorem containsBranches_append_singleton (h : containsBlock first second body = true) :
    containsBranches first second (branches ++ [(c, body)]) = true := by
  induction branches with
  | nil =>
    show (containsBlock first second body || false) = true
    rw [h]
    rfl
  | cons branch branches ih =>
    obtain ⟨c, body⟩ := branch
    rw [List.cons_append, containsBranches, Bool.or_eq_true]
    exact .inr ih

/-- A branching statement contains what its branches do, or what it does otherwise. -/
theorem containsStatement_branch : containsStatement first second (.branch branches body) = true ↔
    containsBranches first second branches = true ∨ containsBlock first second body = true := by
  rw [containsStatement, Bool.or_eq_true]

/-! ## Parsers -/

/-- A function is being read. -/
def Frame.isFunction : Frame → Bool
  | .functionFrame _ _ => true
  | _ => false

/-- The two commands are in what is complete of a frame. -/
def Frame.contains (first second : Command → Bool) : Frame → Bool
  | .ifFrame outer complete _ =>
    containsBlock first second outer || containsBranches first second complete
  | .elseFrame outer complete =>
    containsBlock first second outer || containsBranches first second complete
  | .functionFrame outer _ => containsBlock first second outer

/-- No function is being read. -/
def OutsideFunctions (frames : List Frame) : Prop := ∀ f ∈ frames, f.isFunction = false

/-- The two commands have been read, outside of functions. -/
def Parser.Contains (first second : Command → Bool) (p : Parser) : Prop :=
  (containsBlock first second p.current = true ∧ OutsideFunctions p.frames) ∨
    ∃ above f below, p.frames = above ++ f :: below ∧ f.contains first second = true ∧
    OutsideFunctions below

/-- A new frame keeps what has been read. -/
theorem Parser.Contains.push {frames : List Frame} {current : List Statement} {f : Frame}
    (h : Parser.Contains first second ⟨frames, current⟩)
    (hf : containsBlock first second current = true → f.contains first second = true) :
    Parser.Contains first second ⟨f :: frames, []⟩ := by
  rcases h with ⟨hcurrent, houtside⟩ | ⟨above, g, below, rfl, hg, hbelow⟩
  · exact .inr ⟨[], f, frames, rfl, hf hcurrent, houtside⟩
  · exact .inr ⟨f :: above, g, below, rfl, hg, hbelow⟩

/-- A frame in place of the first one keeps what has been read. -/
theorem Parser.Contains.replace {f f' : Frame} {frames : List Frame} {current : List Statement}
    (h : Parser.Contains first second ⟨f :: frames, current⟩)
    (hf : f.contains first second = true → f'.contains first second = true)
    (hcurrent : containsBlock first second current = true → f'.contains first second = true) :
    Parser.Contains first second ⟨f' :: frames, []⟩ := by
  rcases h with ⟨hmem, houtside⟩ | ⟨above, g, below, heq, hg, hbelow⟩
  · exact .inr ⟨[], f', frames, rfl, hcurrent hmem,
      fun g hg => houtside g (List.mem_cons_of_mem _ hg)⟩
  · cases above with
    | nil =>
      obtain ⟨rfl, rfl⟩ := List.cons.inj heq
      exact .inr ⟨[], f', _, rfl, hf hg, hbelow⟩
    | cons top above =>
      obtain ⟨rfl, rfl⟩ := List.cons.inj heq
      exact .inr ⟨f' :: above, g, below, rfl, hg, hbelow⟩

/-- The end of the first frame keeps what has been read. -/
theorem Parser.Contains.pop {f : Frame} {frames : List Frame} {current closed : List Statement}
    (h : Parser.Contains first second ⟨f :: frames, current⟩)
    (hf : f.contains first second = true → containsBlock first second closed = true)
    (hcurrent : f.isFunction = false → containsBlock first second current = true →
      containsBlock first second closed = true) :
    Parser.Contains first second ⟨frames, closed⟩ := by
  rcases h with ⟨hmem, houtside⟩ | ⟨above, g, below, heq, hg, hbelow⟩
  · exact .inl ⟨hcurrent (houtside f List.mem_cons_self) hmem, fun g hg =>
      houtside g (List.mem_cons_of_mem _ hg)⟩
  · cases above with
    | nil =>
      obtain ⟨rfl, rfl⟩ := List.cons.inj heq
      exact .inl ⟨hf hg, hbelow⟩
    | cons top above =>
      obtain ⟨rfl, rfl⟩ := List.cons.inj heq
      exact .inr ⟨above, g, below, rfl, hg, hbelow⟩

/-- What has been read stays read. -/
theorem Parser.Contains.step {p p' : Parser} (h : p.Contains first second)
    (hp : p.step line = some p') :
    p'.Contains first second := by
  obtain ⟨frames, current⟩ := p
  -- What a frame contains is in the statement that its end makes of it.
  cases line with
  | blank =>
    obtain rfl := Option.some.inj hp
    exact h
  | statement st =>
    obtain rfl := Option.some.inj hp
    exact h.imp_left fun hcurrent => ⟨containsBlock_append_left hcurrent.1, hcurrent.2⟩
  | ifThen c =>
    obtain rfl := Option.some.inj hp
    exact h.push fun hcurrent => by
      show (containsBlock first second current || false) = true
      rw [hcurrent]
      rfl
  | openFunction name =>
    obtain rfl := Option.some.inj hp
    exact h.push id
  | elifThen c =>
    rcases frames with _ | ⟨_ | _ | _, frames⟩
    · exact nomatch hp
    · obtain rfl := Option.some.inj hp
      refine h.replace (fun hf => ?_) fun hcurrent => ?_
      · exact Bool.or_eq_true_iff.2
          ((Bool.or_eq_true_iff.1 hf).imp_right containsBranches_append_left)
      · exact Bool.or_eq_true_iff.2 (.inr (containsBranches_append_singleton hcurrent))
    · exact nomatch hp
    · exact nomatch hp
  | otherwise =>
    rcases frames with _ | ⟨_ | _ | _, frames⟩
    · exact nomatch hp
    · obtain rfl := Option.some.inj hp
      refine h.replace (fun hf => ?_) fun hcurrent => ?_
      · exact Bool.or_eq_true_iff.2
          ((Bool.or_eq_true_iff.1 hf).imp_right containsBranches_append_left)
      · exact Bool.or_eq_true_iff.2 (.inr (containsBranches_append_singleton hcurrent))
    · exact nomatch hp
    · exact nomatch hp
  | endIf =>
    rcases frames with _ | ⟨_ | _ | _, frames⟩
    · exact nomatch hp
    · obtain rfl := Option.some.inj hp
      refine h.pop (fun hf => ?_) fun _ hcurrent => ?_
      · rcases Bool.or_eq_true_iff.1 hf with houter | hcomplete
        · exact containsBlock_append_left houter
        · exact containsBlock_singleton (containsStatement_branch.2
            (.inl (containsBranches_append_left hcomplete)))
      · exact containsBlock_singleton (containsStatement_branch.2
          (.inl (containsBranches_append_singleton hcurrent)))
    · obtain rfl := Option.some.inj hp
      refine h.pop (fun hf => ?_) fun _ hcurrent => ?_
      · rcases Bool.or_eq_true_iff.1 hf with houter | hcomplete
        · exact containsBlock_append_left houter
        · exact containsBlock_singleton (containsStatement_branch.2 (.inl hcomplete))
      · exact containsBlock_singleton (containsStatement_branch.2 (.inr hcurrent))
    · exact nomatch hp
  | closeFunction =>
    rcases frames with _ | ⟨_ | _ | _, frames⟩
    · exact nomatch hp
    · exact nomatch hp
    · exact nomatch hp
    · obtain rfl := Option.some.inj hp
      exact h.pop (fun hf => containsBlock_append_left hf) fun hfunction => nomatch hfunction

end MarketDataGateway.Lib.Shell
