import Mathlib.Data.Finset.Basic
import MarketDataGateway.Streams.Consumer
import MarketDataGateway.Registry.Redis

/-!
# The collector's control loop

`_control_loop` and `_apply_control` of `collector.py`, in a collector that keeps running. It reads
the control stream and keeps the set of active symbols, which is in memory only. The provider and
its lock are not part of the state: nothing of them enters the set, so that a call of the provider
is a command that goes through or raises.

What is lost is said by `Pc.dropped`: an exception ends the batch, and a message that the loop has
not applied is not read again. The set is the fold of the messages delivered as long as what is
dropped would not have changed it, and no longer (`folded_iff`).

The stream is never trimmed here. `publish_control` trims it to about 10 000 entries, so that this
is a collector that is never that far behind: an entry that is trimmed before it is delivered is
lost to the set as one that is dropped.
-/

namespace MarketDataGateway.Collector

open Lib Streams
open Pipeline (Outcome)
open Registry (Action)

/-- The fields of an entry of the control stream that the collector reads. -/
structure Fields where
  /-- `action`. -/
  action : Option String
  /-- `symbol`. -/
  symbol : Option String
  deriving DecidableEq

/-- A valid control message. -/
abbrev Control := Action × Symbol

/-- The action of a field `action`. -/
def parseAction (action : Option String) : Option Action :=
  if action = some "subscribe" then some .subscribe
  else if action = some "unsubscribe" then some .unsubscribe
  else none

/-- The message of an entry, if it is valid. `upper` is `str.upper`. -/
def Fields.control (upper : String → String) (fields : Fields) : Option Control :=
  let symbol := upper (fields.symbol.getD "")
  if symbol = "" then none else (parseAction fields.action).map fun action => (action, symbol)

/-- The active symbols after a message. -/
def applyControl (activeSymbols : Finset Symbol) : Control → Finset Symbol
  | (.subscribe, symbol) => insert symbol activeSymbols
  | (.unsubscribe, symbol) => activeSymbols.erase symbol

/-- `was_new` or `was_active`. -/
def Changes (activeSymbols : Finset Symbol) : Control → Prop
  | (.subscribe, symbol) => symbol ∉ activeSymbols
  | (.unsubscribe, symbol) => symbol ∈ activeSymbols

instance (activeSymbols : Finset Symbol) (control : Control) :
    Decidable (Changes activeSymbols control) :=
  match control with
  | (.subscribe, symbol) => inferInstanceAs (Decidable (symbol ∉ activeSymbols))
  | (.unsubscribe, symbol) => inferInstanceAs (Decidable (symbol ∈ activeSymbols))

/-- The active symbols after messages. -/
def foldControl (activeSymbols : Finset Symbol) (messages : List Control) : Finset Symbol :=
  messages.foldl applyControl activeSymbols

/-- What the control loop reads and changes. -/
structure Data where
  /-- The control stream. -/
  stream : GroupStream Fields String
  /-- `active_symbols`. -/
  activeSymbols : Finset Symbol

/-- The program counter of the control loop: the next command. -/
inductive Pc
  /-- `_control_loop`: `XREADGROUP`. -/
  | reading
  /-- `_apply_control`: `provider.health()`. -/
  | health (w : Work Fields) (control : Control)
  /-- `_apply_control`: `provider.subscribe([symbol])` or `provider.unsubscribe([symbol])`. -/
  | provider (w : Work Fields) (control : Control)
  /-- `_control_loop`: `XACK`. -/
  | ack (w : Work Fields)
  /-- `_control_loop`: `move_to_dead_letter`. -/
  | deadLetter (w : Work Fields)
  /-- `_control_loop`: `XACK` of a dead letter. -/
  | deadAck (w : Work Fields)
  deriving DecidableEq

/-- The next message of the batch, or the next batch. -/
def nextMessage (upper : String → String) : List (ℕ × Fields) → Pc
  | [] => .reading
  | (id, fields) :: rest =>
    match fields.control upper with
    | some control => .health ⟨id, fields, rest⟩ control
    | none => .deadLetter ⟨id, fields, rest⟩

/-- One step of the control loop, at the time `clock`. `connected` is whether `health` says so. An
exception ends the batch. -/
def controlStep (upper : String → String) (clock : Timestamp) (d : Data) (outcome : Outcome)
    (connected : Bool) : Pc → Data × Pc
  | .reading =>
    let effect := { d with stream := d.stream.readGroup 100 }
    send outcome d effect (effect, nextMessage upper (d.stream.group.fresh 100)) .reading
  | .health w control =>
    let applied := { d with activeSymbols := applyControl d.activeSymbols control }
    send outcome d d (applied,
      if Changes d.activeSymbols control ∧ connected then .provider w control else .ack w) .reading
  | .provider w _ => send outcome d d (d, .ack w) .reading
  | .ack w =>
    let effect := { d with stream := d.stream.ack w.id }
    send outcome d effect (effect, nextMessage upper w.rest) .reading
  | .deadLetter w =>
    let letter : DeadLetter Fields String := ⟨w.id, w.fields, "invalid control message", 1, clock⟩
    let effect := { d with stream := d.stream.moveToDeadLetter letter }
    send outcome d effect (effect, .deadAck w) .reading
  | .deadAck w =>
    let effect := { d with stream := d.stream.ack w.id }
    send outcome d effect (effect, nextMessage upper w.rest) .reading

/-- The state of the collector and of what it reads. -/
structure State where
  /-- The clock. -/
  now : Timestamp
  /-- What the control loop reads and changes. -/
  data : Data
  /-- The program counter of the control loop. -/
  pc : Pc

/-- A collector that has started, and no entry. -/
def State.init (now : Timestamp) : State := ⟨now, ⟨.empty, ∅⟩, .reading⟩

/-- A step of the system. -/
inductive Label
  /-- An entry joins the control stream. -/
  | publish (fields : Fields)
  /-- The control loop takes a step. -/
  | run (outcome : Outcome) (connected : Bool)
  /-- The clock advances by `d` microseconds. -/
  | tick (d : ℕ)

/-- The steps of the system. -/
def step (upper : String → String) (st : State) : Label → Option State
  | .publish fields =>
    some { st with data := { st.data with stream := st.data.stream.xadd fields } }
  | .run outcome connected =>
    let result := controlStep upper st.now st.data outcome connected st.pc
    some { st with data := result.1, pc := result.2 }
  | .tick d => some { st with now := st.now + d }

/-! ## What an exception drops -/

/-- The valid messages of entries. -/
def messages (upper : String → String) (batch : List (ℕ × Fields)) : List Control :=
  batch.filterMap fun p => p.2.control upper

/-- The messages that the loop still has to apply. -/
def Pc.remaining (upper : String → String) : Pc → List Control
  | .reading => []
  | .health w control => control :: messages upper w.rest
  | .provider w _ => messages upper w.rest
  | .ack w => messages upper w.rest
  | .deadLetter w => messages upper w.rest
  | .deadAck w => messages upper w.rest

/-- The entries that a step takes from the stream. -/
def Pc.taken (d : Data) (outcome : Outcome) : Pc → List (ℕ × Fields)
  | .reading => if outcome = .refused then [] else d.stream.group.fresh 100
  | _ => []

/-- The messages that a step drops. -/
def Pc.dropped (upper : String → String) (d : Data) (outcome : Outcome) (pc : Pc) : List Control :=
  if outcome = .ok then [] else pc.remaining upper ++ messages upper (pc.taken d outcome)

/-- A step drops no message that would change the set. -/
def KeepsFold (upper : String → String) (st : State) : Label → Prop
  | .run outcome _ =>
    foldControl st.data.activeSymbols (st.pc.dropped upper st.data outcome) = st.data.activeSymbols
  | _ => True

instance (upper : String → String) (st : State) (a : Label) : Decidable (KeepsFold upper st a) :=
  match a with
  | .publish _ => isTrue trivial
  | .run _ _ => inferInstanceAs (Decidable (_ = _))
  | .tick _ => isTrue trivial

/-- The fold of the valid messages that have been delivered. -/
def Data.target (upper : String → String) (d : Data) : Finset Symbol :=
  foldControl ∅ (d.stream.group.deliveredEntries.filterMap (Fields.control upper))

/-- Between two batches, the set is the fold of the messages. -/
def Folded (upper : String → String) (st : State) : Prop :=
  st.pc = .reading → st.data.activeSymbols = st.data.target upper

section Fold

variable {upper : String → String} {clock : Timestamp} {d d' : Data} {pc pc' : Pc}
  {outcome : Outcome} {connected : Bool}

/-- No messages change nothing. -/
@[simp] theorem foldControl_nil (activeSymbols : Finset Symbol) :
    foldControl activeSymbols [] = activeSymbols := rfl

/-- Messages are folded one list after the other. -/
theorem foldControl_append (activeSymbols : Finset Symbol) (l l' : List Control) :
    foldControl activeSymbols (l ++ l') = foldControl (foldControl activeSymbols l) l' :=
  List.foldl_append

/-- The messages that remain when the loop comes to a batch. -/
theorem remaining_nextMessage (upper : String → String) (batch : List (ℕ × Fields)) :
    (nextMessage upper batch).remaining upper = messages upper batch := by
  cases batch with
  | nil => rfl
  | cons p rest =>
    obtain ⟨id, fields⟩ := p
    rw [nextMessage, messages, List.filterMap_cons]
    cases fields.control upper with
    | none => rfl
    | some control => rfl

/-- What a step of the control loop does. -/
structure Steps (upper : String → String) (d : Data) (pc : Pc) (outcome : Outcome) (d' : Data)
    (pc' : Pc) : Prop where
  /-- What it takes from the stream has been delivered. -/
  delivered : d'.stream.group.deliveredEntries =
    d.stream.group.deliveredEntries ++ (pc.taken d outcome).map Prod.snd
  undelivered : d.stream.group.undelivered =
    (pc.taken d outcome).map Prod.snd ++ d'.stream.group.undelivered
  /-- If the command goes through, the loop applies what remains and what it has taken. -/
  goesOn : outcome = .ok → foldControl d'.activeSymbols (pc'.remaining upper) =
    foldControl d.activeSymbols (pc.remaining upper ++ messages upper (pc.taken d outcome))
  /-- An exception ends the batch. -/
  raises : outcome ≠ .ok → pc' = .reading ∧ d'.activeSymbols = d.activeSymbols

/-- What is delivered and what is not is the same. -/
def SameEntries (d d' : Data) : Prop :=
  d'.stream.group.deliveredEntries = d.stream.group.deliveredEntries ∧
    d'.stream.group.undelivered = d.stream.group.undelivered

/-- A command that takes nothing from the stream. -/
theorem steps_of_send {effect reply : Data} {next : Pc}
    (h : send outcome d effect (reply, next) .reading = (d', pc'))
    (htaken : pc.taken d outcome = []) (heffect : SameEntries d effect)
    (hreply : SameEntries d reply) (hactive : effect.activeSymbols = d.activeSymbols)
    (hok : foldControl reply.activeSymbols (next.remaining upper) =
      foldControl d.activeSymbols (pc.remaining upper)) : Steps upper d pc outcome d' pc' := by
  have hsame : SameEntries d d' :=
    send_elim (fun d' _ => SameEntries d d') h (fun _ => hreply) (fun _ => ⟨rfl, rfl⟩)
      fun _ => heffect
  refine ⟨?_, ?_, fun hout => ?_, fun hout => ?_⟩
  · rw [htaken, hsame.1]
    exact (List.append_nil _).symm
  · rw [htaken, hsame.2]
    rfl
  · subst hout
    obtain ⟨rfl, rfl⟩ := Prod.mk.inj h
    rw [htaken, hok]
    exact congrArg (foldControl d.activeSymbols) (List.append_nil _).symm
  · exact send_elim (fun d' pc' => pc' = .reading ∧ d'.activeSymbols = d.activeSymbols) h
      (fun hout' => absurd hout' hout) (fun _ => ⟨rfl, rfl⟩) fun _ => ⟨rfl, hactive⟩

/-- `XREADGROUP`. -/
theorem steps_reading (h : controlStep upper clock d outcome connected .reading = (d', pc')) :
    Steps upper d .reading outcome d' pc' := by
  have hdelivered := ConsumerGroup.deliveredEntries_xreadgroup d.stream.group 100
  have hundelivered := ConsumerGroup.undelivered_xreadgroup d.stream.group 100
  cases outcome with
  | ok =>
    obtain ⟨rfl, rfl⟩ := Prod.mk.inj h
    refine ⟨hdelivered, hundelivered, fun _ => ?_, fun hout => absurd rfl hout⟩
    rw [remaining_nextMessage]
    rfl
  | refused =>
    obtain ⟨rfl, rfl⟩ := Prod.mk.inj h
    exact ⟨(List.append_nil _).symm, rfl, fun hout => absurd hout (by decide),
      fun _ => ⟨rfl, rfl⟩⟩
  | lost =>
    obtain ⟨rfl, rfl⟩ := Prod.mk.inj h
    exact ⟨hdelivered, hundelivered, fun hout => absurd hout (by decide),
      fun _ => ⟨rfl, rfl⟩⟩

/-- What one step of the control loop can do. -/
theorem steps_controlStep (h : controlStep upper clock d outcome connected pc = (d', pc')) :
    Steps upper d pc outcome d' pc' := by
  cases pc with
  | reading => exact steps_reading h
  | health w control =>
    refine steps_of_send h rfl ⟨rfl, rfl⟩ ⟨rfl, rfl⟩ rfl ?_
    -- The message has been applied, and the rest of the batch remains.
    split_ifs
    · rfl
    · rfl
  | provider w control => exact steps_of_send h rfl ⟨rfl, rfl⟩ ⟨rfl, rfl⟩ rfl rfl
  | ack w =>
    refine steps_of_send h rfl ⟨rfl, rfl⟩ ⟨rfl, rfl⟩ rfl ?_
    rw [remaining_nextMessage]
    rfl
  | deadLetter w => exact steps_of_send h rfl ⟨rfl, rfl⟩ ⟨rfl, rfl⟩ rfl rfl
  | deadAck w =>
    refine steps_of_send h rfl ⟨rfl, rfl⟩ ⟨rfl, rfl⟩ rfl ?_
    rw [remaining_nextMessage]
    rfl

end Fold

/-! ## Runs -/

section Runs

variable {upper : String → String} {st st' : State} {a : Label}

/-- A step of the control loop. -/
theorem step_run {outcome : Outcome} {connected : Bool}
    (h : step upper st (.run outcome connected) = some st') :
    ∃ d' pc', controlStep upper st.now st.data outcome connected st.pc = (d', pc') ∧
      st' = { st with data := d', pc := pc' } :=
  ⟨_, _, rfl, (Option.some.inj h).symm⟩

/-- With the messages that remain, the set is the fold of those that have been delivered. -/
def Data.Tracks (upper : String → String) (d : Data) (pc : Pc) : Prop :=
  foldControl d.activeSymbols (pc.remaining upper) = d.target upper

/-- The messages that a step takes join those that have been delivered. -/
theorem Steps.target {d d' : Data} {pc pc' : Pc} {outcome : Outcome}
    (hs : Steps upper d pc outcome d' pc') (h : d.Tracks upper pc) : d'.target upper =
      foldControl d.activeSymbols (pc.remaining upper ++ messages upper (pc.taken d outcome)) := by
  unfold Data.Tracks at h
  rw [foldControl_append, h]
  unfold Data.target
  rw [hs.delivered, List.filterMap_append, List.filterMap_map, foldControl_append]
  rfl

/-- What a step that raises drops has been delivered. -/
theorem Steps.target_of_raises {d d' : Data} {pc pc' : Pc} {outcome : Outcome}
    (hs : Steps upper d pc outcome d' pc') (h : d.Tracks upper pc) (hout : outcome ≠ .ok) :
    d'.target upper = foldControl d.activeSymbols (pc.dropped upper d outcome) := by
  rw [hs.target h, Pc.dropped, if_neg hout]

/-- A step that drops nothing of consequence keeps the set and the messages that remain in line with
those that have been delivered. -/
theorem tracks_step (h : st.data.Tracks upper st.pc) (hok : KeepsFold upper st a)
    (hstep : step upper st a = some st') : st'.data.Tracks upper st'.pc := by
  cases a with
  | publish fields =>
    obtain rfl := Option.some.inj hstep
    unfold Data.Tracks Data.target
    change _ = foldControl ∅ ((st.data.stream.group.xadd fields).deliveredEntries.filterMap _)
    rw [ConsumerGroup.deliveredEntries_xadd]
    exact h
  | run outcome connected =>
    obtain ⟨d', pc', hrun, rfl⟩ := step_run hstep
    have hs := steps_controlStep hrun
    by_cases hout : outcome = .ok
    · exact (hs.goesOn hout).trans (hs.target h).symm
    · obtain ⟨rfl, hactive⟩ := hs.raises hout
      change d'.activeSymbols = d'.target upper
      rw [hactive, hs.target_of_raises h hout]
      exact hok.symm
  | tick d =>
    obtain rfl := Option.some.inj hstep
    exact h

/-- A step that drops a message which would change the set leaves the set without it. -/
theorem not_folded_step (h : st.data.Tracks upper st.pc) (hbad : ¬ KeepsFold upper st a)
    (hstep : step upper st a = some st') : ¬ Folded upper st' := by
  cases a with
  | publish fields => exact absurd trivial hbad
  | tick d => exact absurd trivial hbad
  | run outcome connected =>
    obtain ⟨d', pc', hrun, rfl⟩ := step_run hstep
    have hs := steps_controlStep hrun
    intro hfolded
    by_cases hout : outcome = .ok
    · refine hbad ?_
      change foldControl _ (st.pc.dropped upper st.data outcome) = _
      rw [Pc.dropped, if_pos hout]
      rfl
    · obtain ⟨rfl, hactive⟩ := hs.raises hout
      have heq : d'.activeSymbols = d'.target upper := hfolded rfl
      rw [hactive, hs.target_of_raises h hout] at heq
      exact hbad heq.symm

/-- The control loop tracks the fold in runs that keep it. -/
theorem tracks_of_keepsFold {t₀ : Timestamp}
    (h : Path (step upper) (KeepsFold upper) (.init t₀) st) :
    st.data.Tracks upper st.pc :=
  h.invariant (fun st => st.data.Tracks upper st.pc) rfl fun _ _ _ => tracks_step

/-- The set is the fold of the messages between any two batches of a run that drops none that would
change it, and is not after the first step that drops one. -/
theorem folded_iff (upper : String → String) (t₀ : Timestamp) :
    (∀ st, Path (step upper) (KeepsFold upper) (.init t₀) st → Folded upper st) ∧
      ∀ st a st', Path (step upper) (KeepsFold upper) (.init t₀) st → step upper st a = some st' →
        ¬ KeepsFold upper st a → ¬ Folded upper st' := by
  refine ⟨fun st hpath hpc => ?_, fun st a st' hpath hstep hbad => ?_⟩
  · have htracks := tracks_of_keepsFold hpath
    unfold Data.Tracks at htracks
    rw [hpc] at htracks
    exact htracks
  · exact not_folded_step (tracks_of_keepsFold hpath) hbad hstep

/-- Two symbols are subscribed to, and the collector reads both messages. -/
def firstBatch : List Label :=
  [.publish ⟨some "subscribe", some "AAPL"⟩,
    .publish ⟨some "subscribe", some "MSFT"⟩, .run .ok false]

/-- The provider refuses the second symbol, at the end of the batch. -/
theorem folded_refusedLast : ∃ st : State,
    (st.pc = .reading ∧ st.data.activeSymbols = {"AAPL", "MSFT"}) ∧ Folded String.toUpper st := by
  obtain ⟨st, hst, hread⟩ := Path.exists_of_exec (step String.toUpper) (KeepsFold String.toUpper)
    (.init 0) (firstBatch ++ [.run .ok true, .run .ok true, .run .ok true, .run .ok true,
    .run .refused true])
    (fun st => st.pc = .reading ∧ st.data.activeSymbols = {"AAPL", "MSFT"}) (by decide +kernel)
  exact ⟨st, hread, (folded_iff String.toUpper 0).1 st hst⟩

/-- The provider raises when the collector asks for its health, for the first message of two. -/
theorem not_folded :
    ¬ ∀ st, Path (step String.toUpper) anyStep (.init 0) st → Folded String.toUpper st := by
  intro hall
  obtain ⟨st, hst, hempty⟩ := Path.exists_of_exec (step String.toUpper) anyStep (.init 0)
    (firstBatch ++ [.run .refused false])
    (fun st => st.pc = .reading ∧ st.data.activeSymbols = ∅ ∧
      st.data.target String.toUpper = {"AAPL", "MSFT"}) (by decide +kernel)
  obtain ⟨hpc, hnone, htarget⟩ := hempty
  have heq := hall st hst hpc
  rw [hnone, htarget] at heq
  exact absurd heq (by decide)

end Runs

end MarketDataGateway.Collector
