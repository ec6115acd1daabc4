import MarketDataGateway.Pipeline.Step

/-!
# The sequence watermark

Calls of `observe_sequence` for the events of one provider and symbol. A call compares its sequence
with what its `GET` has read, and sets it by a command of its own, so others may set theirs in
between: a call that has read a low watermark overwrites a higher one (`watermark_regresses`).

`observeStep` is one command of a call, which a processor takes as `procStep` says
(`procStep_sequenceGet`, `procStep_sequenceSet`). The watermark is right in the runs in which no
`SET` finds a higher one and no `GET` reads one that a call has left that may still be running, and
every other step breaks it (`watermark_iff`).
-/

namespace MarketDataGateway.Pipeline

open Lib

/-- The program counter of a call of `observe_sequence`: the next command. -/
inductive ObservePc
  /-- `GET`. -/
  | get
  /-- `SET`. `GET` has read `previous`. -/
  | set (previous : Option ℕ)
  /-- The call has returned. -/
  | returned (observation : Option GapObservation)

/-- Whether the call has returned. -/
def ObservePc.isReturned : ObservePc → Bool
  | .returned _ => true
  | _ => false

/-- One command of `observe_sequence`, when the key holds `stored`. -/
def observeStep (event : QuoteEvent) (sequence : ℕ) (stored : Option ℕ) :
    ObservePc → Option (Option ℕ × ObservePc)
  | .get =>
    if stored.all (· < sequence) then some (stored, .set stored)
    else some (stored, .returned (observation event sequence stored))
  | .set previous => some (some sequence, .returned (observation event sequence previous))
  | .returned _ => none

/-- The value of the sequence key of an event. -/
def Redis.watermark (r : Redis) (event : QuoteEvent) : Option ℕ :=
  (r.sequences (sequenceKey event)).map Expiring.value

/-- Where a processor is in its call of `observe_sequence`, or after it. -/
def ObservePc.toPc (w : Work) (event : QuoteEvent) (sequence : ℕ) : ObservePc → Pc
  | .get => .sequenceGet w event sequence
  | .set previous => .sequenceSet w event sequence previous
  | .returned o => observed w event o

/-- A processor's `GET`. -/
theorem procStep_sequenceGet (cfg : Settings) (clock : Timestamp) (r : Redis) (claimed : List ℕ)
    (w : Work) (event : QuoteEvent) (sequence : ℕ) :
    ∃ pc, observeStep event sequence (r.watermark event) .get = some (r.watermark event, pc) ∧
      procStep cfg clock r .ok claimed (.sequenceGet w event sequence) =
        some (r, pc.toPc w event sequence) := by
  unfold observeStep procStep send
  change ∃ pc, _ ∧ some (r, if (r.watermark event).all (· < sequence) then _ else _) = _
  split_ifs
  · exact ⟨_, rfl, rfl⟩
  · exact ⟨_, rfl, rfl⟩

/-- A processor's `SET`. -/
theorem procStep_sequenceSet (cfg : Settings) (clock : Timestamp) (r : Redis) (claimed : List ℕ)
    (w : Work) (event : QuoteEvent) (sequence : ℕ) (previous : Option ℕ) :
    ∃ r' pc, observeStep event sequence (r.watermark event) (.set previous) =
        some (r'.watermark event, pc) ∧
      procStep cfg clock r .ok claimed (.sequenceSet w event sequence previous) =
        some (r', pc.toPc w event sequence) := by
  refine ⟨r.setSequence clock event sequence,
    .returned (observation event sequence previous), ?_, rfl⟩
  have hstored : (r.setSequence clock event sequence).watermark event = some sequence := by
    change (Function.update r.sequences (Redis.sequenceKey event) _ _).map Expiring.value = _
    rw [Function.update_self]
    rfl
  rw [hstored]
  rfl

namespace Sequence

/-- A call of `observe_sequence`. -/
structure Call where
  /-- The event. -/
  event : QuoteEvent
  /-- Its sequence. -/
  sequence : ℕ
  /-- A call for an event without a sequence sends no command. -/
  sequence_eq : event.sequence = some sequence
  /-- The sequences of the calls that had returned when it began. Nothing reads them. -/
  before : List ℕ
  /-- The next command. -/
  pc : ObservePc

/-- The key and the calls. -/
structure State where
  /-- The value of the key. -/
  stored : Option ℕ
  /-- The calls, returned ones included. -/
  calls : List Call

/-- No key, and no call. -/
def State.init : State := ⟨none, []⟩

/-- The sequences of the calls that have returned. -/
def State.finished (st : State) : List ℕ :=
  (st.calls.filter fun c => c.pc.isReturned).map Call.sequence

/-- A step of the system. -/
inductive Label
  /-- A call begins. -/
  | begin (event : QuoteEvent)
  /-- The `i`-th call sends its next command. -/
  | run (i : ℕ)

/-- The steps of the calls for events of one provider and symbol. -/
def step (provider : String) (symbol : Symbol) (st : State) : Label → Option State
  | .begin event =>
    if event.provider = provider ∧ event.symbol = symbol then
      match h : event.sequence with
      | none => some st
      | some sequence =>
        some { st with calls := st.calls ++ [⟨event, sequence, h, st.finished, .get⟩] }
    else none
  | .run i =>
    st.calls[i]?.bind fun c =>
      (observeStep c.event c.sequence st.stored c.pc).map fun result =>
        ⟨result.1, st.calls.set i { c with pc := result.2 }⟩

/-- The watermark has not decreased. -/
def WatermarkLE (st st' : State) : Prop := ∀ m ∈ st.stored, ∃ n ∈ st'.stored, m ≤ n

/-- Once all calls have returned, the watermark is the maximum of their sequences. -/
def FinalMaximum (st : State) : Prop :=
  (∀ c ∈ st.calls, c.pc.isReturned = true) → st.stored = (st.calls.map Call.sequence).max?

/-- No event is reported as out of order if its sequence is greater than those of all calls that had
returned when its call began. -/
def NoFalseAlarm (st : State) : Prop :=
  ∀ c ∈ st.calls, (∀ m ∈ c.before, m < c.sequence) →
    ∀ o, c.pc = .returned (some o) → o.outOfOrder = false

/-- What the next command of a call may find in the key: a `SET` no higher watermark, and a `GET`
one that is not below the call's sequence only if a call with a sequence not below it had returned
before. -/
def Call.MayFind (c : Call) (m : ℕ) : Prop :=
  match c.pc with
  | .get => c.sequence ≤ m → ∃ n ∈ c.before, c.sequence ≤ n
  | .set _ => m ≤ c.sequence
  | .returned _ => True

/-- The command finds in the key what it may find. -/
def CallsInOrder (st : State) : Label → Prop
  | .begin _ => True
  | .run i => ∀ c ∈ st.calls[i]?, ∀ m ∈ st.stored, c.MayFind m

instance (c : Call) (m : ℕ) : Decidable (c.MayFind m) := by
  unfold Call.MayFind
  split <;> infer_instance

instance (st : State) (a : Label) : Decidable (CallsInOrder st a) := by
  unfold CallsInOrder
  split <;> infer_instance

/-- What holds of the key and of each call. -/
structure Inv (st : State) : Prop where
  /-- The watermark is the sequence of a call. -/
  stored_mem : ∀ n ∈ st.stored, ∃ c ∈ st.calls, c.sequence = n
  /-- A call that has returned has left it no lower than its own sequence. -/
  returned_le : ∀ c ∈ st.calls, c.pc.isReturned = true → ∃ n ∈ st.stored, c.sequence ≤ n
  /-- A call that is about to set its sequence has read a lower one. -/
  previous_lt : ∀ c ∈ st.calls, ∀ previous, c.pc = .set previous →
    ∀ m ∈ previous, m < c.sequence
  /-- No call has reported an event without reason. -/
  noFalseAlarm : NoFalseAlarm st

section Step

variable {provider : String} {symbol : Symbol} {st st' st'' : State} {a : Label} {i : ℕ}

/-- Nothing happens to the watermark. -/
theorem WatermarkLE.refl (st : State) : WatermarkLE st st := fun m hm => ⟨m, hm, le_refl m⟩

/-- A watermark is no smaller after two steps than before them. -/
theorem WatermarkLE.trans (h : WatermarkLE st st') (h' : WatermarkLE st' st'') :
    WatermarkLE st st'' := by
  intro l hl
  obtain ⟨m, hm, hlm⟩ := h l hl
  obtain ⟨n, hn, hmn⟩ := h' m hm
  exact ⟨n, hn, hlm.trans hmn⟩

/-- What a step of a call does: `GET`, which finds a lower watermark or not, or `SET`. -/
theorem step_run_cases (h : step provider symbol st (.run i) = some st') :
    ∃ c, st.calls[i]? = some c ∧
      ((c.pc = .get ∧ (∀ m ∈ st.stored, m < c.sequence) ∧
        st' = ⟨st.stored, st.calls.set i { c with pc := .set st.stored }⟩) ∨
      (c.pc = .get ∧ (∃ m ∈ st.stored, c.sequence ≤ m) ∧
        st' = ⟨st.stored, st.calls.set i
          { c with pc := .returned (observation c.event c.sequence st.stored) }⟩) ∨
      (∃ previous, c.pc = .set previous ∧
        st' = ⟨some c.sequence, st.calls.set i
          { c with pc := .returned (observation c.event c.sequence previous) }⟩)) := by
  obtain ⟨c, hi, hstep⟩ := Option.bind_eq_some_iff.1 h
  obtain ⟨result, hresult, rfl⟩ := Option.map_eq_some_iff.1 hstep
  refine ⟨c, hi, ?_⟩
  cases hpc : c.pc with
  | get =>
    rw [hpc, observeStep] at hresult
    split_ifs at hresult with hall
    · obtain rfl := Option.some.inj hresult
      -- No watermark, or a lower one: the call goes on to set its own.
      refine Or.inl ⟨rfl, fun m hm => ?_, rfl⟩
      exact of_decide_eq_true ((Option.all_eq_true _ _).1 hall m hm)
    · obtain rfl := Option.some.inj hresult
      -- A watermark that is not lower: the call is done.
      refine Or.inr (Or.inl ⟨rfl, ?_, rfl⟩)
      rw [Option.all_eq_true] at hall
      push Not at hall
      obtain ⟨m, hm, hle⟩ := hall
      exact ⟨m, hm, by simpa using hle⟩
  | set previous =>
    rw [hpc] at hresult
    obtain rfl := Option.some.inj hresult
    exact Or.inr (Or.inr ⟨previous, rfl, rfl⟩)
  | returned o =>
    rw [hpc] at hresult
    cases hresult

/-- What `observe_sequence` says of an event depends on the watermark that it has read. -/
theorem observation_outOfOrder {event : QuoteEvent} {sequence : ℕ} {previous : Option ℕ}
    {o : GapObservation} (h : observation event sequence previous = some o) :
    ∃ m ∈ previous, o.outOfOrder = decide (sequence ≤ m) := by
  cases previous with
  | none => cases h
  | some m =>
    rw [observation] at h
    split_ifs at h
    obtain rfl := Option.some.inj h
    exact ⟨m, rfl, rfl⟩

/-- An event whose sequence is not above the watermark is reported. -/
theorem exists_observation (event : QuoteEvent) {sequence m : ℕ} (h : sequence ≤ m) :
    ∃ o, observation event sequence (some m) = some o ∧ o.outOfOrder = true := by
  have hne : sequence ≠ m + 1 := by omega
  rw [observation, if_neg hne]
  exact ⟨_, rfl, decide_eq_true h⟩

/-- The calls after a step of the call at `i`: the same ones, as far as their sequences go. -/
theorem exists_sequence_set {c : Call} (hi : st.calls[i]? = some c) (pc : ObservePc) {n : ℕ}
    (h : ∃ d ∈ st.calls, d.sequence = n) :
    ∃ d ∈ st.calls.set i { c with pc := pc }, d.sequence = n :=
  exists_mem_set hi h fun hc => hc

/-- The invariant holds at the start. -/
theorem inv_init : Inv .init where
  stored_mem _ hn := by cases hn
  returned_le _ hc := absurd hc List.not_mem_nil
  previous_lt _ hc := absurd hc List.not_mem_nil
  noFalseAlarm _ hc := absurd hc List.not_mem_nil

/-- A step whose command finds what it may find does not let the watermark decrease. -/
theorem watermarkLE_step (hok : CallsInOrder st a) (h : step provider symbol st a = some st') :
    WatermarkLE st st' := by
  cases a with
  | begin event =>
    rw [step] at h
    split_ifs at h
    split at h
    all_goals
      obtain rfl := Option.some.inj h
      exact .refl st
  | run i =>
    obtain ⟨c, hi, ⟨-, -, rfl⟩ | ⟨-, -, rfl⟩ | ⟨previous, hpc, rfl⟩⟩ := step_run_cases h
    · exact fun m hm => ⟨m, hm, le_refl m⟩
    · exact fun m hm => ⟨m, hm, le_refl m⟩
    · intro m hm
      have hfind := hok c hi m hm
      rw [Call.MayFind, hpc] at hfind
      exact ⟨c.sequence, rfl, hfind⟩

/-- A step whose command finds what it may find keeps the invariant. -/
theorem inv_step (hinv : Inv st) (hok : CallsInOrder st a)
    (h : step provider symbol st a = some st') : Inv st' := by
  have hle := watermarkLE_step hok h
  cases a with
  | begin event =>
    rw [step] at h
    split_ifs at h
    split at h
    · obtain rfl := Option.some.inj h
      exact hinv
    · -- The new call has neither read nor returned anything.
      next sequence hseq =>
      obtain rfl := Option.some.inj h
      have hnew : ∀ {P : Call → Prop}, (∀ c ∈ st.calls, P c) →
          P ⟨event, sequence, hseq, st.finished, .get⟩ →
            ∀ c ∈ st.calls ++ [⟨event, sequence, hseq, st.finished, .get⟩], P c := by
        intro P hold hcall c hc
        rcases List.mem_append.1 hc with hc | hc
        · exact hold c hc
        · rw [List.mem_singleton.1 hc]
          exact hcall
      constructor
      case stored_mem => exact fun n hn => exists_mem_append (hinv.stored_mem n hn) _
      case returned_le => exact hnew hinv.returned_le fun hret => by cases hret
      case previous_lt => exact hnew hinv.previous_lt fun previous hprevious => by cases hprevious
      case noFalseAlarm => exact hnew hinv.noFalseAlarm fun _ o ho => by cases ho
  | run i =>
    obtain ⟨c, hi, hcases⟩ := step_run_cases h
    have hmem := List.mem_of_getElem? hi
    -- The other calls are as they were, and the watermark is no lower.
    have hreturned : ∀ d ∈ st.calls, d.pc.isReturned = true → ∃ n ∈ st'.stored, d.sequence ≤ n := by
      intro d hd hret
      obtain ⟨m, hm, hdm⟩ := hinv.returned_le d hd hret
      obtain ⟨n, hn, hmn⟩ := hle m hm
      exact ⟨n, hn, hdm.trans hmn⟩
    rcases hcases with ⟨hpc, hlt, rfl⟩ | ⟨hpc, ⟨m, hm, hcm⟩, rfl⟩ | ⟨previous, hpc, rfl⟩
    · constructor
      case stored_mem => exact fun n hn => exists_sequence_set hi _ (hinv.stored_mem n hn)
      case returned_le => exact forall_mem_set hreturned fun hret => by cases hret
      case previous_lt =>
        refine forall_mem_set hinv.previous_lt fun previous hprevious => ?_
        cases hprevious
        exact hlt
      case noFalseAlarm => exact forall_mem_set hinv.noFalseAlarm fun _ o ho => by cases ho
    · constructor
      case stored_mem => exact fun n hn => exists_sequence_set hi _ (hinv.stored_mem n hn)
      case returned_le => exact forall_mem_set hreturned fun _ => ⟨m, hm, hcm⟩
      case previous_lt =>
        exact forall_mem_set hinv.previous_lt fun previous hprevious => by cases hprevious
      case noFalseAlarm =>
        refine forall_mem_set hinv.noFalseAlarm fun hbefore o ho => ?_
        -- The event may be reported: a call that had returned before has a higher sequence.
        have hfind := hok c hi m hm
        rw [Call.MayFind, hpc] at hfind
        obtain ⟨n, hn, hcn⟩ := hfind hcm
        exact absurd (hbefore n hn) (not_lt.2 hcn)
    · constructor
      case stored_mem =>
        intro n hn
        cases hn
        exact exists_sequence_set hi _ ⟨c, hmem, rfl⟩
      case returned_le => exact forall_mem_set hreturned fun _ => ⟨c.sequence, rfl, le_refl _⟩
      case previous_lt =>
        exact forall_mem_set hinv.previous_lt fun previous hprevious => by cases hprevious
      case noFalseAlarm =>
        refine forall_mem_set hinv.noFalseAlarm fun _ o ho => ?_
        obtain ⟨m, hm, hout⟩ := observation_outOfOrder (ObservePc.returned.inj ho)
        have hlt := hinv.previous_lt c hmem previous hpc m hm
        rw [hout]
        exact decide_eq_false (not_le.2 hlt)

/-- When all calls have returned, the watermark is the maximum. -/
theorem Inv.finalMaximum (hinv : Inv st) : FinalMaximum st := by
  intro hall
  cases hstored : st.stored with
  | none =>
    have hnil : st.calls = [] := by
      refine List.eq_nil_iff_forall_not_mem.2 fun c hc => ?_
      obtain ⟨n, hn, -⟩ := hinv.returned_le c hc (hall c hc)
      rw [hstored] at hn
      cases hn
    rw [hnil]
    rfl
  | some n =>
    symm
    rw [List.max?_eq_some_iff]
    constructor
    · exact List.mem_map.2 (hinv.stored_mem n hstored)
    · intro k hk
      obtain ⟨c, hc, rfl⟩ := List.mem_map.1 hk
      obtain ⟨m, hm, hcm⟩ := hinv.returned_le c hc (hall c hc)
      rw [hstored] at hm
      exact hcm.trans (le_of_eq (Option.some.inj hm).symm)

/-- A step whose command finds what it may not find lets the watermark decrease, or reports an event
without reason. -/
theorem not_watermarkLE_or_noFalseAlarm_step (hbad : ¬ CallsInOrder st a)
    (h : step provider symbol st a = some st') : ¬ (WatermarkLE st st' ∧ NoFalseAlarm st') := by
  cases a with
  -- Only a command finds anything.
  | begin event => exact absurd trivial hbad
  | run i =>
    obtain ⟨c, hi, hcases⟩ := step_run_cases h
    obtain ⟨m, hm, hfind⟩ : ∃ m ∈ st.stored, ¬ c.MayFind m := by
      by_contra hnone
      push Not at hnone
      refine hbad fun d hd => ?_
      obtain rfl := Option.some.inj (hi.symm.trans hd)
      exact hnone
    rintro ⟨hle, halarm⟩
    -- The command is `GET`, or the call returns, or the command is `SET`.
    rcases hcases with ⟨hpc, hlt, -⟩ | ⟨hpc, -, rfl⟩ | ⟨previous, hpc, rfl⟩
    · rw [Call.MayFind, hpc] at hfind
      exact hfind fun hcm => absurd (hlt m hm) (not_lt.2 hcm)
    · rw [Call.MayFind, hpc] at hfind
      push Not at hfind
      obtain ⟨hcm, hbefore⟩ := hfind
      obtain ⟨o, ho, hout⟩ := exists_observation c.event hcm
      have hnew : { c with pc := .returned (observation c.event c.sequence st.stored) } ∈
          st.calls.set i { c with pc := .returned (observation c.event c.sequence st.stored) } :=
        List.mem_set (List.getElem?_eq_some_iff.1 hi).1 _
      have hfalse := halarm _ hnew hbefore o (by rw [hm, ho])
      rw [hout] at hfalse
      cases hfalse
    · rw [Call.MayFind, hpc] at hfind
      obtain ⟨n, hn, hmn⟩ := hle m hm
      cases hn
      exact hfind hmn

end Step

/-- The watermark is right in every run whose commands find in the key what they may find, and each
command that finds something else lets the watermark decrease, or reports an event without
reason. -/
theorem watermark_iff (provider : String) (symbol : Symbol) :
    (∀ st, Path (step provider symbol) CallsInOrder .init st →
      FinalMaximum st ∧ NoFalseAlarm st ∧
        ∀ st', Path (step provider symbol) CallsInOrder st st' → WatermarkLE st st') ∧
    ∀ st a st', step provider symbol st a = some st' → ¬ CallsInOrder st a →
      ¬ (WatermarkLE st st' ∧ NoFalseAlarm st') := by
  constructor
  · intro st h
    have hinv : Inv st := h.invariant Inv inv_init fun _ _ _ hinv hok hstep =>
      inv_step hinv hok hstep
    refine ⟨hinv.finalMaximum, hinv.noFalseAlarm, fun st' h' => ?_⟩
    refine h'.invariant (WatermarkLE st) (.refl st) ?_
    intro st₁ a st₂ hle hok hstep
    exact hle.trans (watermarkLE_step hok hstep)
  · intro st a st' hstep hbad
    exact not_watermarkLE_or_noFalseAlarm_step hbad hstep

/-- A quote with a sequence. -/
def sequenced (sequence : ℕ) : QuoteEvent :=
  { QuoteEvent.sample 1 0 100 with sequence := some sequence }

/-- Two calls whose commands alternate, the one with the higher sequence first. -/
def alternatingRun : List Label :=
  [.begin (sequenced 5), .begin (sequenced 3), .run 0, .run 1, .run 0]

/-- Sequences in order leave the largest one, and no alarm. -/
theorem watermark_orderedRun : ∃ st, st.stored = some 5 ∧ FinalMaximum st ∧ NoFalseAlarm st := by
  obtain ⟨st, hpath, hstored⟩ := Path.exists_of_exec (step "sample" "AAPL") CallsInOrder .init
    [.begin (sequenced 3), .begin (sequenced 5), .run 0, .run 1, .run 0, .run 1]
    (fun st => st.stored = some 5) (by decide)
  obtain ⟨hmax, halarm, -⟩ := (watermark_iff "sample" "AAPL").1 st hpath
  exact ⟨st, hstored, hmax, halarm⟩

/-- Both calls have read no watermark. The second one sets its sequence after the first one. -/
theorem watermark_regresses :
    ¬ ∀ st, Path (step "sample" "AAPL") anyStep .init st →
      FinalMaximum st ∧ NoFalseAlarm st ∧
        ∀ st', Path (step "sample" "AAPL") anyStep st st' → WatermarkLE st st' := by
  intro hall
  obtain ⟨st, hst, hstored, hnext⟩ := Path.exists_of_exec (step "sample" "AAPL") anyStep .init
    alternatingRun
    (fun st => st.stored = some 5 ∧
      (exec (step "sample" "AAPL") anyStep st [.run 1]).any (fun st' => st'.stored = some 3) = true)
    (by decide)
  obtain ⟨st', hst', hstored'⟩ := Path.exists_of_exec (step "sample" "AAPL") anyStep st [.run 1]
    (fun st' => st'.stored = some 3) hnext
  obtain ⟨n, hn, hle⟩ := (hall st hst).2.2 st' hst' 5 hstored
  obtain rfl := Option.some.inj (hn.symm.trans hstored')
  exact absurd hle (by decide)

end Sequence

end MarketDataGateway.Pipeline
