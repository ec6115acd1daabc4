import MarketDataGateway.Collector.Handshake
import MarketDataGateway.Lib.Transition

/-!
# Calls of `subscribe` that wait for ever

Only the reader sets the event that a call of `subscribe` waits for, and no exit of the reader does.
The reader itself waits for room in the queue, which only `_provider_loop` makes, after its own
`subscribe`. The waiting call can be woken as long as the reader is free to come to the next message
(`ReaderFree`). `Wedged` is what remains when the reader is gone, `Starved` when the queue is full.
-/

namespace MarketDataGateway.Collector.Handshake

open Lib

/-- Some call waits for the event. -/
def State.Waits (st : State) : Prop := st.control = .calling .waiting ∨ st.loop = .calling .waiting

instance (st : State) : Decidable st.Waits := inferInstanceAs (Decidable (_ ∨ _))

/-- A call that waits can still be woken. -/
def NoWedge (cfg : Config) (st : State) : Prop :=
  st.Waits → ∃ st', Path (step cfg) anyStep st st' ∧ ¬ st'.Waits

/-- There is room in the queue for the events, or `_provider_loop` makes some. -/
def HasRoom (cfg : Config) (loop : LoopPc) (p : Provider) (events : List Symbol) : Prop :=
  loop = .events ∨ p.queue + events.countP (· ∈ p.symbols) ≤ cfg.queueSize

/-- The reader can come to the next message. -/
def ReaderFree (cfg : Config) (loop : LoopPc) (p : Provider) : Prop :=
  match p.reader with
  | .receiving => True
  | .putting event rest => HasRoom cfg loop p (event :: rest)
  | _ => False

/-- The next step of a call makes it wait. -/
def StartsWaiting (st : State) (sent : Bool) : Call → Prop
  | .sending _ [] true =>
    sent = true ∧ st.provider.isOpen = true ∧ st.provider.allAcknowledged = false
  | _ => False

/-- No step takes the reader from a call that waits: the reader neither ends nor is cancelled, it
gets no message for whose events there is no room while nobody takes any, and no call starts to wait
unless the reader is free. -/
def KeepsReader (cfg : Config) (st : State) : Label → Prop
  | .message (.trades events) => st.Waits → HasRoom cfg st.loop st.provider events
  | .readerExit _ => ¬ st.Waits
  | .runControl sent => match st.control with
    | .calling call => StartsWaiting st sent call → ReaderFree cfg st.loop st.provider
    | _ => True
  | .runLoop ok => match st.loop with
    | .calling call => StartsWaiting st ok call → ReaderFree cfg st.loop st.provider
    -- An exception while an event is published: nobody takes events from then on.
    | .events => st.Waits → ok = false → 0 < st.provider.queue →
        ReaderFree cfg .failing { st.provider with queue := st.provider.queue - 1 }
    | .failing => ¬ st.Waits
    | _ => True
  | _ => True

instance (cfg : Config) (loop : LoopPc) (p : Provider) (events : List Symbol) :
    Decidable (HasRoom cfg loop p events) := inferInstanceAs (Decidable (_ ∨ _))

instance (cfg : Config) (loop : LoopPc) (p : Provider) : Decidable (ReaderFree cfg loop p) := by
  unfold ReaderFree
  split <;> infer_instance

instance (st : State) (sent : Bool) (call : Call) : Decidable (StartsWaiting st sent call) := by
  unfold StartsWaiting
  split <;> infer_instance

instance (cfg : Config) (st : State) (a : Label) : Decidable (KeepsReader cfg st a) := by
  unfold KeepsReader
  split
  · infer_instance
  · infer_instance
  · split <;> infer_instance
  · split <;> infer_instance
  · infer_instance

/-- What holds of the state as long as no call is left waiting without a reader. -/
structure Inv (cfg : Config) (st : State) : Prop where
  /-- At most one loop has the lock. -/
  exclusive : st.control.holdsLock = true → st.loop.holdsLock = false
  free : st.Waits → ReaderFree cfg st.loop st.provider

section Inv

variable {cfg : Config} {st st' : State} {sent : Bool} {call : Call} {next : Next} {p p' : Provider}
  {loop loop' : LoopPc}

/-- The reader, the queue and the symbols are the same. -/
def SameReader (p p' : Provider) : Prop :=
  p'.reader = p.reader ∧ p'.queue = p.queue ∧ p'.symbols = p.symbols

/-- The reader stays free if the parts it depends on are the same. -/
theorem ReaderFree.congr (h : ReaderFree cfg loop p) (hp : SameReader p p')
    (hloop : loop = .events → loop' = .events) : ReaderFree cfg loop' p' := by
  obtain ⟨hreader, hqueue, hsymbols⟩ := hp
  unfold ReaderFree at h ⊢
  rw [hreader]
  cases hr : p.reader with
  | putting event rest =>
    rw [hr] at h
    unfold HasRoom at h ⊢
    rw [hqueue, hsymbols]
    exact h.imp_left hloop
  | absent =>
    rw [hr] at h
    exact h
  | receiving => trivial
  | ended =>
    rw [hr] at h
    exact h

/-- What is done to the state keeps the reader and who has the lock, and makes no call wait. -/
structure Quiet (st st' : State) : Prop where
  reader : SameReader st.provider st'.provider
  control : st'.control = st.control ∨ st'.control = st.control.wake
  loop : st'.loop = st.loop ∨ st'.loop = st.loop.wake

/-- A control loop that has been woken does not wait for acknowledgements. -/
theorem ControlPc.wake_ne (pc : ControlPc) : pc.wake ≠ .calling .waiting := by
  unfold ControlPc.wake Call.wake
  split
  · split
    · decide
    · next call hne => exact fun h => hne (ControlPc.calling.inj h)
  · next hne => exact fun h => hne _ h

/-- An event loop that has been woken does not wait for acknowledgements. -/
theorem LoopPc.wake_ne (pc : LoopPc) : pc.wake ≠ .calling .waiting := by
  unfold LoopPc.wake Call.wake
  split
  · split
    · decide
    · next call hne => exact fun h => hne (LoopPc.calling.inj h)
  · next hne => exact fun h => hne _ h

/-- The control loop wakes with the lock it has. -/
@[simp] theorem ControlPc.holdsLock_wake (pc : ControlPc) : pc.wake.holdsLock = pc.holdsLock := by
  cases pc <;> rfl

/-- The event loop wakes with the lock it has. -/
@[simp] theorem LoopPc.holdsLock_wake (pc : LoopPc) : pc.wake.holdsLock = pc.holdsLock := by
  cases pc <;> rfl

/-- The event loop is woken once. -/
theorem LoopPc.wake_wake (pc : LoopPc) : pc.wake.wake = pc.wake := by
  cases pc with
  | calling call => cases call <;> rfl
  | _ => rfl

/-- The control loop is woken once. -/
theorem ControlPc.wake_wake (pc : ControlPc) : pc.wake.wake = pc.wake := by
  cases pc with
  | calling call => cases call <;> rfl
  | _ => rfl

/-- Nothing happens quietly. -/
theorem Quiet.refl (st : State) : Quiet st st := ⟨⟨rfl, rfl, rfl⟩, Or.inl rfl, Or.inl rfl⟩

/-- Quiet changes after each other are quiet. -/
theorem Quiet.trans {st₁ st₂ st₃ : State} (h : Quiet st₁ st₂) (h' : Quiet st₂ st₃) :
    Quiet st₁ st₃ := by
  obtain ⟨⟨hr, hq, hs⟩, hc, hl⟩ := h
  obtain ⟨⟨hr', hq', hs'⟩, hc', hl'⟩ := h'
  refine ⟨⟨hr'.trans hr, hq'.trans hq, hs'.trans hs⟩, ?_, ?_⟩
  · rcases hc with hc | hc
    · rwa [hc] at hc'
    · rw [hc, ControlPc.wake_wake] at hc'
      exact Or.inr (hc'.elim id id)
  · rcases hl with hl | hl
    · rwa [hl] at hl'
    · rw [hl, LoopPc.wake_wake] at hl'
      exact Or.inr (hl'.elim id id)

/-- To set the event of the acknowledgements is quiet. -/
theorem quiet_syncAckEvent (st : State) : Quiet st (syncAckEvent st) := by
  unfold syncAckEvent
  split_ifs
  · exact ⟨⟨rfl, rfl, rfl⟩, Or.inr rfl, Or.inr rfl⟩
  · exact ⟨⟨rfl, rfl, rfl⟩, Or.inl rfl, Or.inl rfl⟩

/-- To record acknowledgements is quiet. -/
theorem quiet_foldl (channels : List Channel) (st : State) :
    Quiet st (channels.foldl recordAcknowledged st) := by
  induction channels generalizing st with
  | nil => exact .refl st
  | cons channel channels ih =>
    have hinsert : Quiet st { st with provider := { st.provider with
        acknowledgedChannels := insert channel st.provider.acknowledgedChannels } } :=
      ⟨⟨rfl, rfl, rfl⟩, Or.inl rfl, Or.inl rfl⟩
    have hrecord : Quiet st (recordAcknowledged st channel) := hinsert.trans (quiet_syncAckEvent _)
    exact hrecord.trans (ih _)

/-- Who waits after a quiet change has waited before it. -/
theorem Quiet.waits (h : Quiet st st') (hw : st'.Waits) : st.Waits := by
  rcases hw with hw | hw
  · rcases h.control with hc | hc
    · exact Or.inl (hc ▸ hw)
    · exact absurd (hc ▸ hw) (ControlPc.wake_ne _)
  · rcases h.loop with hl | hl
    · exact Or.inr (hl ▸ hw)
    · exact absurd (hl ▸ hw) (LoopPc.wake_ne _)

/-- A quiet change passes the lock to no one. -/
theorem Quiet.holdsLock (h : Quiet st st') :
    st'.control.holdsLock = st.control.holdsLock ∧ st'.loop.holdsLock = st.loop.holdsLock := by
  constructor
  · rcases h.control with hc | hc
    · rw [hc]
    · rw [hc, ControlPc.holdsLock_wake]
  · rcases h.loop with hl | hl
    · rw [hl]
    · rw [hl, LoopPc.holdsLock_wake]

/-- A quiet change leaves the event loop with its events. -/
theorem Quiet.events (h : Quiet st st') (hl : st.loop = .events) : st'.loop = .events := by
  rcases h.loop with hl' | hl'
  · rw [hl', hl]
  · rw [hl', hl]
    rfl

/-- What is quiet keeps the invariant. -/
theorem Inv.of_quiet (h : Inv cfg st) (hq : Quiet st st') : Inv cfg st' := by
  obtain ⟨hc, hl⟩ := hq.holdsLock
  refine ⟨fun hlock => ?_, fun hw => (h.free (hq.waits hw)).congr hq.reader hq.events⟩
  rw [hl]
  exact h.exclusive (hc ▸ hlock)

/-- To send a command is quiet. -/
theorem quiet_sentFor (st : State) (channel : Channel) : Quiet st (st.sentFor channel) := by
  unfold State.sentFor
  split_ifs
  · exact ⟨⟨rfl, rfl, rfl⟩, Or.inl rfl, Or.inl rfl⟩
  · exact .refl st

/-- A subscribe waits only when all is sent and an acknowledgement is missing. -/
theorem afterSend_waiting {missing : Bool} {rest : List Channel}
    (h : afterSend p missing rest = .goesOn .waiting) :
    rest = [] ∧ missing = true ∧ p.allAcknowledged = false := by
  cases rest with
  | cons channel rest => cases h
  | nil =>
    unfold afterSend at h
    split_ifs at h with hmissing
    obtain ⟨hm, hclear⟩ := Bool.and_eq_true_iff.1 hmissing
    exact ⟨rfl, hm, by simpa using hclear⟩

/-- An unsubscribe does not wait. -/
theorem afterUnsubscribe_ne (rest : List Channel) : afterUnsubscribe rest ≠ .goesOn .waiting := by
  cases rest <;> simp [afterUnsubscribe]

/-- A step of a call is quiet. It comes to wait only by the step that says so. -/
theorem callStep_spec (h : callStep st sent call = some (st', next)) :
    Quiet st st' ∧ (next = .goesOn .waiting → StartsWaiting st sent call) := by
  cases call with
  | sending channel rest missing =>
    rw [callStep] at h
    split_ifs at h with hsent
    · -- The frame is sent, and the rest of the frames decides what comes next.
      obtain ⟨rfl, rfl⟩ := Prod.mk.inj (Option.some.inj h)
      refine ⟨quiet_sentFor st channel, fun hnext => ?_⟩
      obtain ⟨rfl, rfl, hclear⟩ := afterSend_waiting hnext
      obtain ⟨hs, ho⟩ := Bool.and_eq_true_iff.1 hsent
      exact ⟨hs, ho, hclear⟩
    · obtain ⟨rfl, rfl⟩ := Prod.mk.inj (Option.some.inj h)
      exact ⟨.refl st, fun hnext => by cases hnext⟩
  | unsubscribing channel rest =>
    have herase : Quiet st { st with provider := { st.provider with
        acknowledgedChannels := st.provider.acknowledgedChannels.erase channel } } :=
      ⟨⟨rfl, rfl, rfl⟩, Or.inl rfl, Or.inl rfl⟩
    rw [callStep] at h
    split_ifs at h
    · obtain ⟨rfl, rfl⟩ := Prod.mk.inj (Option.some.inj h)
      refine ⟨herase.trans (quiet_syncAckEvent _), fun hnext => ?_⟩
      exact absurd hnext (afterUnsubscribe_ne rest)
    · obtain ⟨rfl, rfl⟩ := Prod.mk.inj (Option.some.inj h)
      exact ⟨.refl st, fun hnext => by cases hnext⟩
  | waiting => cases h
  | woken =>
    obtain ⟨rfl, rfl⟩ := Prod.mk.inj (Option.some.inj h)
    exact ⟨.refl st, fun hnext => by cases hnext⟩

/-- Up to its first `await` a call does not wait. -/
theorem beginSubscribe_ne (symbols : Finset Symbol) :
    (beginSubscribe cfg p symbols).2 ≠ .goesOn .waiting := by
  unfold beginSubscribe
  dsimp only
  split_ifs <;> simp

/-- An unsubscribe that begins does not wait. -/
theorem beginUnsubscribe_ne (symbols : Finset Symbol) :
    (beginUnsubscribe cfg p symbols).2 ≠ .goesOn .waiting := by
  unfold beginUnsubscribe
  dsimp only
  split_ifs <;> simp

/-- The control loop waits only if the call that it makes does. -/
theorem ControlPc.next_waiting (h : ControlPc.next next = .calling .waiting) :
    next = .goesOn .waiting := by
  cases next with
  | goesOn call =>
    obtain rfl := ControlPc.calling.inj h
    rfl
  | _ => cases h

/-- The event loop waits only if the call that it makes does. -/
theorem LoopPc.next_waiting (h : LoopPc.next next = .calling .waiting) :
    next = .goesOn .waiting := by
  cases next with
  | goesOn call =>
    obtain rfl := LoopPc.calling.inj h
    rfl
  | _ => cases h

/-- A loop that does not have the lock does not wait. -/
theorem ControlPc.ne_of_holdsLock {pc : ControlPc} (h : pc.holdsLock = false) :
    pc ≠ .calling .waiting := fun hpc => by
  rw [hpc] at h
  cases h

/-- An event loop without the lock does not wait. -/
theorem LoopPc.ne_of_holdsLock {pc : LoopPc} (h : pc.holdsLock = false) :
    pc ≠ .calling .waiting := fun hpc => by
  rw [hpc] at h
  cases h

/-- If no call waits, only the lock matters. -/
theorem Inv.of_not_waits (hw : ¬ st.Waits)
    (hlock : st.control.holdsLock = true → st.loop.holdsLock = false) : Inv cfg st :=
  ⟨hlock, fun h => absurd h hw⟩

/-- The invariant holds at the start. -/
theorem inv_init : Inv cfg .init := .of_not_waits (by decide) (by decide)

/-- The reader is free when there is room for the events that it has. -/
theorem readerFree_after {events : List Symbol} (hr : p.reader = .after events)
    (h : HasRoom cfg loop p events) : ReaderFree cfg loop p := by
  unfold ReaderFree
  rw [hr]
  cases events with
  | nil => trivial
  | cons event rest => exact h

/-- The reader comes on by an event. -/
theorem putStep_spec {event : Symbol} {rest : List Symbol}
    (hput : putStep cfg st event rest = some st') :
    st'.provider.reader = .after rest ∧ st'.control = st.control ∧ st'.loop = st.loop ∧
      (HasRoom cfg st.loop st.provider (event :: rest) →
        HasRoom cfg st'.loop st'.provider rest) := by
  unfold putStep at hput
  split_ifs at hput with hsymbol hroom
  · obtain rfl := Option.some.inj hput
    refine ⟨rfl, rfl, rfl, fun h => h.imp_right fun hle => ?_⟩
    rw [List.countP_cons_of_pos (by simpa using hsymbol)] at hle
    calc st.provider.queue + 1 + rest.countP (· ∈ st.provider.symbols)
        = st.provider.queue + (rest.countP (· ∈ st.provider.symbols) + 1) := by omega
      _ ≤ cfg.queueSize := hle
  · obtain rfl := Option.some.inj hput
    refine ⟨rfl, rfl, rfl, fun h => h.imp_right fun hle => ?_⟩
    rwa [List.countP_cons_of_neg (by simpa using hsymbol)] at hle

/-- A step of the reader on a message. -/
theorem Inv.message (h : Inv cfg st) {message : Message}
    (hok : KeepsReader cfg st (.message message)) : Inv cfg (messageStep st message) := by
  cases message with
  | subscriptions channels => exact h.of_quiet (quiet_foldl channels st)
  | trades events => exact ⟨h.exclusive, fun hw => readerFree_after rfl (hok hw)⟩
  | other => exact h

/-- A step of the control loop. -/
theorem Inv.runControl (h : Inv cfg st) (hok : KeepsReader cfg st (.runControl sent))
    (hstep : controlStep cfg st sent = some st') : Inv cfg st' := by
  unfold controlStep at hstep
  cases hc : st.control with
  | idle =>
    rw [hc] at hstep
    cases hstep
  | wantLock control =>
    rw [hc] at hstep
    dsimp only at hstep
    by_cases hlock : st.locked = true
    · rw [if_pos hlock] at hstep
      cases hstep
    · rw [if_neg hlock] at hstep
      -- The control loop gets the lock only if the other loop does not hold it.
      have hloop : st.loop.holdsLock = false := by
        unfold State.locked at hlock
        simp_all
      by_cases hchanges : Changes st.activeSymbols control ∧ st.provider.connected
      · rw [if_pos hchanges] at hstep
        obtain rfl := Option.some.inj hstep
        refine .of_not_waits (fun hw => ?_) fun _ => hloop
        rcases hw with hw | hw
        · have hnext := ControlPc.next_waiting hw
          revert hnext
          cases control.1 with
          | subscribe => exact beginSubscribe_ne _
          | unsubscribe => exact beginUnsubscribe_ne _
        · exact LoopPc.ne_of_holdsLock hloop hw
      · rw [if_neg hchanges] at hstep
        obtain rfl := Option.some.inj hstep
        refine .of_not_waits (fun hw => ?_) fun _ => hloop
        rcases hw with hw | hw
        · cases hw
        · exact LoopPc.ne_of_holdsLock hloop hw
  | calling call =>
    -- It holds the lock through the call.
    have hloop : st.loop.holdsLock = false := h.exclusive (by rw [hc]; rfl)
    unfold KeepsReader at hok
    rw [hc] at hstep hok
    obtain ⟨⟨st₁, next⟩, hcall, rfl⟩ := Option.map_eq_some_iff.1 hstep
    obtain ⟨hquiet, hwaiting⟩ := callStep_spec hcall
    have hloop₁ : st₁.loop.holdsLock = false := hquiet.holdsLock.2.trans hloop
    refine ⟨fun _ => hloop₁, fun hw => ?_⟩
    rcases hw with hw | hw
    · have hstarts := hwaiting (ControlPc.next_waiting hw)
      exact (hok hstarts).congr hquiet.reader hquiet.events
    · exact absurd hw (LoopPc.ne_of_holdsLock hloop₁)

/-- After `connect` no call waits yet. -/
theorem afterConnect_spec (hc : st.control.holdsLock = false) : Inv cfg (afterConnect cfg st) := by
  unfold afterConnect
  split_ifs
  · refine .of_not_waits (fun hw => ?_) fun _ => rfl
    rcases hw with hw | hw
    · exact ControlPc.ne_of_holdsLock hc hw
    · cases hw
  · refine .of_not_waits (fun hw => ?_) fun hlock => absurd (hc.symm.trans hlock) Bool.false_ne_true
    rcases hw with hw | hw
    · exact ControlPc.ne_of_holdsLock hc hw
    · exact beginSubscribe_ne _ (LoopPc.next_waiting hw)

/-- A step of the provider loop. -/
theorem Inv.runLoop {ok : Bool} (h : Inv cfg st) (hok : KeepsReader cfg st (.runLoop ok))
    (hstep : loopStep cfg st ok = some st') : Inv cfg st' := by
  unfold loopStep at hstep
  -- Only one of the two loops holds the lock.
  have hcontrol (hl : st.loop.holdsLock = true) : st.control.holdsLock = false := by
    by_contra hc
    rw [Bool.not_eq_false] at hc
    exact absurd (hl.symm.trans (h.exclusive hc)) (by decide)
  unfold KeepsReader at hok
  cases hl : st.loop with
  | wantLock =>
    -- The lock is free, so the control loop does not wait for acknowledgements.
    rw [hl] at hstep
    dsimp only at hstep
    by_cases hlock : st.locked = true
    · rw [if_pos hlock] at hstep
      cases hstep
    · rw [if_neg hlock] at hstep
      have hc : st.control.holdsLock = false := by
        unfold State.locked at hlock
        simp_all
      split_ifs at hstep
      · obtain rfl := Option.some.inj hstep
        have hquiet := quiet_syncAckEvent { st with provider := { st.provider with
          connected := false
          acknowledgedChannels := ∅ } }
        have hc' := hquiet.holdsLock.1.trans hc
        refine .of_not_waits (fun hw => ?_) fun hlock' =>
          absurd (hc'.symm.trans hlock') Bool.false_ne_true
        rcases hw with hw | hw
        · exact ControlPc.ne_of_holdsLock hc' hw
        · cases hw
      · obtain rfl := Option.some.inj hstep
        exact afterConnect_spec hc
  | connecting =>
    have hc := hcontrol (by rw [hl]; rfl)
    rw [hl] at hstep
    dsimp only at hstep
    split_ifs at hstep
    · obtain rfl := Option.some.inj hstep
      exact afterConnect_spec hc
    · obtain rfl := Option.some.inj hstep
      refine .of_not_waits (fun hw => ?_) fun _ => rfl
      rcases hw with hw | hw
      · exact ControlPc.ne_of_holdsLock hc hw
      · cases hw
  | calling call =>
    -- The event loop holds the lock, and comes to wait only with a reader that is free.
    have hc := hcontrol (by rw [hl]; rfl)
    rw [hl] at hstep hok
    obtain ⟨⟨st₁, next⟩, hcall, rfl⟩ := Option.map_eq_some_iff.1 hstep
    obtain ⟨hquiet, hwaiting⟩ := callStep_spec hcall
    have hc₁ : st₁.control.holdsLock = false := hquiet.holdsLock.1.trans hc
    refine ⟨fun hlock => absurd (hc₁.symm.trans hlock) Bool.false_ne_true, fun hw => ?_⟩
    rcases hw with hw | hw
    · exact absurd hw (ControlPc.ne_of_holdsLock hc₁)
    · have hfree := hok (hwaiting (LoopPc.next_waiting hw))
      exact hfree.congr hquiet.reader fun hevents => by cases hevents
  | events =>
    -- Without the lock it is the control loop that waits, if any does.
    have hwaits {p : Provider} {pc : LoopPc} (hpc : pc.holdsLock = false)
        (hw : State.Waits { st with provider := p, loop := pc }) : st.Waits :=
      hw.imp_right fun hw => absurd hw (LoopPc.ne_of_holdsLock hpc)
    rw [hl] at hstep hok
    dsimp only at hstep
    split_ifs at hstep with hempty hdone hpublished
    · obtain rfl := Option.some.inj hstep
      refine ⟨fun _ => rfl, fun hw => ?_⟩
      have hfree := h.free (hwaits rfl hw)
      unfold ReaderFree at hfree
      revert hdone hfree
      cases st.provider.reader <;> simp [Reader.isDone]
    · obtain rfl := Option.some.inj hstep
      refine ⟨fun _ => rfl, fun hw => ?_⟩
      have hfree := h.free (hwaits rfl hw)
      unfold ReaderFree at hfree ⊢
      revert hfree
      cases st.provider.reader with
      | putting event rest => exact fun _ => Or.inl rfl
      | _ => exact id
    · obtain rfl := Option.some.inj hstep
      refine ⟨fun _ => rfl, fun hw => ?_⟩
      exact hok (hwaits rfl hw) (Bool.not_eq_true ok ▸ hpublished) (Nat.pos_of_ne_zero hempty)
  | failing =>
    rw [hl] at hstep hok
    obtain rfl := Option.some.inj hstep
    refine .of_not_waits (fun hw => ?_) fun _ => rfl
    rcases hw with hw | hw
    · exact hok (Or.inl hw)
    · cases hw

/-- Every step that does not take the reader from a call that waits keeps the invariant. -/
theorem inv_step {a : Label} (h : Inv cfg st) (hok : KeepsReader cfg st a)
    (hstep : step cfg st a = some st') : Inv cfg st' := by
  cases a with
  | message message =>
    rw [step] at hstep
    split_ifs at hstep
    obtain rfl := Option.some.inj hstep
    exact h.message hok
  | put =>
    rw [step] at hstep
    split at hstep
    · next event rest hreader =>
      -- The reader is free again once its event is in the queue.
      obtain ⟨hafter, hc, hl, hroom⟩ := putStep_spec hstep
      refine ⟨by rw [hc, hl]; exact h.exclusive, fun hw => readerFree_after hafter (hroom ?_)⟩
      unfold State.Waits at hw
      rw [hc, hl] at hw
      have hfree := h.free hw
      unfold ReaderFree at hfree
      rw [hreader] at hfree
      exact hfree
    · cases hstep
  | readerExit exit =>
    unfold step at hstep
    dsimp only at hstep
    split_ifs at hstep
    obtain rfl := Option.some.inj hstep
    -- The reader does not end while a call waits for it.
    exact ⟨h.exclusive, fun hw => absurd hw hok⟩
  | control control =>
    rw [step] at hstep
    split_ifs at hstep with hidle
    obtain rfl := Option.some.inj hstep
    -- A call that has just come does not wait yet.
    have hpc : ControlPc.wantLock control ≠ .calling .waiting := ControlPc.ne_of_holdsLock rfl
    exact ⟨fun hlock => absurd hlock Bool.false_ne_true,
      fun hw => h.free (hw.imp_left fun hw => absurd hw hpc)⟩
  | runControl sent => exact h.runControl hok hstep
  | runLoop ok => exact h.runLoop hok hstep

/-! ## Waking a call -/

/-- Once each required channel is acknowledged, no call waits. -/
theorem not_waits_syncAckEvent (h : st.provider.AllAcked) : ¬ (syncAckEvent st).Waits := by
  unfold syncAckEvent
  rw [if_pos h]
  exact fun hw => hw.elim (ControlPc.wake_ne _) (LoopPc.wake_ne _)

/-- A recorded acknowledgement is among those of the provider. -/
theorem acknowledged_record (st : State) (channel : Channel) :
    (recordAcknowledged st channel).provider.acknowledgedChannels =
      insert channel st.provider.acknowledgedChannels := by
  unfold recordAcknowledged syncAckEvent
  split_ifs <;> rfl

/-- An acknowledgement of all the required channels wakes a call. -/
theorem not_waits_acknowledged (st : State) :
    ¬ (messageStep st (.subscriptions requiredChannels)).Waits := by
  have hall (st : State) : ¬ (recordAcknowledged (recordAcknowledged (recordAcknowledged st
      .heartbeats) .ticker) .marketTrades).Waits := by
    refine not_waits_syncAckEvent fun c _ => ?_
    show c ∈ insert Channel.marketTrades (recordAcknowledged (recordAcknowledged st
      .heartbeats) .ticker).provider.acknowledgedChannels
    rw [acknowledged_record, acknowledged_record]
    cases c <;> simp
  exact hall st

/-- While `_provider_loop` takes events, it can empty the queue. -/
theorem exists_drained (hl : st.loop = .events) :
    Path (step cfg) anyStep st { st with provider := { st.provider with queue := 0 } } := by
  obtain ⟨n, hn⟩ : ∃ n, st.provider.queue = n := ⟨_, rfl⟩
  induction n generalizing st with
  | zero =>
    have hsame : { st with provider := { st.provider with queue := 0 } } = st := by rw [← hn]
    rw [hsame]
    exact .refl
  | succ n ih =>
    have htake : step cfg st (.runLoop true) =
        some { st with provider := { st.provider with queue := n }, loop := .events } := by
      rw [step, loopStep, hl]
      dsimp only
      rw [if_neg (by omega), hn]
      rfl
    have hrest : Path (step cfg) anyStep
        { st with provider := { st.provider with queue := n }, loop := .events }
        { st with provider := { st.provider with queue := 0 }, loop := .events } := ih rfl rfl
    rw [← hl] at htake hrest
    exact (Lib.Path.refl.tail _ trivial htake).trans hrest

/-- A reader that waits for a message gets the acknowledgement. -/
theorem exists_woken_receiving (hr : st.provider.reader = .receiving) :
    ∃ st', Path (step cfg) anyStep st st' ∧ ¬ st'.Waits :=
  ⟨_, Lib.Path.refl.tail (.message (.subscriptions requiredChannels)) trivial (if_pos hr),
    not_waits_acknowledged st⟩

/-- A reader with room for the events of its message comes to the next message. -/
theorem exists_woken_after {events : List Symbol} (hr : st.provider.reader = .after events)
    (h : HasRoom cfg st.loop st.provider events) :
    ∃ st', Path (step cfg) anyStep st st' ∧ ¬ st'.Waits := by
  induction events generalizing st with
  | nil => exact exists_woken_receiving hr
  | cons event rest ih =>
    have hput (st : State) (hr : st.provider.reader = .putting event rest)
        (h : HasRoom cfg st.loop st.provider (event :: rest))
        (hroom : event ∈ st.provider.symbols → st.provider.queue < cfg.queueSize) :
        ∃ st', Path (step cfg) anyStep st st' ∧ ¬ st'.Waits := by
      obtain ⟨st₁, hst₁⟩ : ∃ st₁, putStep cfg st event rest = some st₁ := by
        unfold putStep
        split_ifs with hsymbol hqueue
        · exact ⟨_, rfl⟩
        · exact absurd (hroom hsymbol) hqueue
        · exact ⟨_, rfl⟩
      obtain ⟨hafter, -, -, hstill⟩ := putStep_spec hst₁
      have hstep : step cfg st .put = some st₁ := by rw [step, hr]; exact hst₁
      obtain ⟨st', hpath, hwoken⟩ := ih hafter (hstill h)
      exact ⟨st', (Lib.Path.refl.tail _ trivial hstep).trans hpath, hwoken⟩
    rcases h with hl | hle
    · -- The provider loop makes room first.
      obtain ⟨st', hpath, hwoken⟩ :=
        hput { st with provider := { st.provider with queue := 0 } } hr (Or.inl hl)
          fun _ => cfg.queueSize_pos
      exact ⟨st', (exists_drained hl).trans hpath, hwoken⟩
    · refine hput st hr (Or.inr hle) fun hsymbol => ?_
      rw [List.countP_cons_of_pos (by simpa using hsymbol)] at hle
      omega

/-- A reader that is free comes to the acknowledgement. -/
theorem exists_woken (h : ReaderFree cfg st.loop st.provider) :
    ∃ st', Path (step cfg) anyStep st st' ∧ ¬ st'.Waits := by
  unfold ReaderFree at h
  cases hr : st.provider.reader with
  | receiving => exact exists_woken_receiving hr
  | putting event rest =>
    rw [hr] at h
    have hafter : st.provider.reader = .after (event :: rest) := hr
    exact exists_woken_after hafter h
  | absent =>
    rw [hr] at h
    exact h.elim
  | ended =>
    rw [hr] at h
    exact h.elim

/-- In every run that takes the reader from no call that waits, a call that waits can be woken. -/
theorem noWedge_of_keepsReader (cfg : Config) {st : State}
    (h : Path (step cfg) (KeepsReader cfg) .init st) : NoWedge cfg st := by
  have hinv : Inv cfg st := h.invariant (Inv cfg) inv_init fun _ _ _ => inv_step
  exact fun hw => exists_woken (hinv.free hw)

end Inv

/-- `connect`, and a `subscribe` message that makes `_control_loop` wait. -/
def subscribed : List Label :=
  [.runLoop true, .runLoop true, .control (.subscribe, "BTC-USD"), .runControl true,
    .runControl true, .runControl true, .runControl true]

/-- The upstream sends a trade, and one channel is acknowledged. -/
theorem noWedge_waitingRun : ∃ st : State, st.control = .calling .waiting ∧
    st.provider.queue = 1 ∧ NoWedge { stripUpper := id } st := by
  obtain ⟨st, hst, hwait, hqueue⟩ := Path.exists_of_exec (step { stripUpper := id })
    (KeepsReader { stripUpper := id }) .init
    (subscribed ++ [.message (.trades ["BTC-USD"]), .put, .message (.subscriptions [.heartbeats])])
    (fun st => st.control = .calling .waiting ∧ st.provider.queue = 1) (by decide)
  exact ⟨st, hwait, hqueue, noWedge_of_keepsReader _ hst⟩

/-- `_control_loop` waits with the lock, and there is no reader. -/
structure Wedged (st : State) : Prop where
  waits : st.control = .calling .waiting
  lock : st.loop.holdsLock = false
  reader : st.provider.reader.isDone = true

/-- No step wakes the call. -/
theorem wedged_step {cfg : Config} {st st' : State} {a : Label} (h : Wedged st)
    (hstep : step cfg st a = some st') : Wedged st' := by
  obtain ⟨hwaits, hlock, hreader⟩ := h
  have hreceiving : st.provider.reader ≠ .receiving := fun hr => by
    rw [hr] at hreader
    cases hreader
  -- The reader takes no message, the control loop waits, and the event loop gets no lock.
  cases a with
  | message message =>
    unfold step at hstep
    dsimp only at hstep
    rw [if_neg hreceiving] at hstep
    cases hstep
  | put =>
    unfold step at hstep
    dsimp only at hstep
    split at hstep
    · next hr =>
      rw [hr] at hreader
      cases hreader
    · cases hstep
  | readerExit exit =>
    unfold step at hstep
    dsimp only at hstep
    rw [if_neg hreceiving] at hstep
    cases hstep
  | control control =>
    unfold step at hstep
    dsimp only at hstep
    rw [hwaits, if_neg (by decide)] at hstep
    cases hstep
  | runControl sent =>
    unfold step controlStep at hstep
    rw [hwaits] at hstep
    cases hstep
  | runLoop ok =>
    unfold step loopStep at hstep
    dsimp only at hstep
    cases hl : st.loop with
    | wantLock =>
      have hlocked : st.locked = true := by
        unfold State.locked
        rw [hwaits]
        rfl
      rw [hl] at hstep
      dsimp only at hstep
      rw [if_pos hlocked] at hstep
      cases hstep
    | connecting =>
      rw [hl] at hlock
      cases hlock
    | calling call =>
      rw [hl] at hlock
      cases hlock
    | events =>
      -- With its events the event loop goes on, which wakes no one.
      rw [hl] at hstep
      dsimp only at hstep
      split_ifs at hstep
      all_goals
        obtain rfl := Option.some.inj hstep
        exact ⟨hwaits, rfl, hreader⟩
    | failing =>
      rw [hl] at hstep
      obtain rfl := Option.some.inj hstep
      exact ⟨hwaits, rfl, rfl⟩

/-- Who is wedged is not woken. -/
theorem Wedged.not_woken {cfg : Config} {st : State} (h : Wedged st) : ¬ NoWedge cfg st := by
  intro hwake
  obtain ⟨st', hpath, hwoken⟩ := hwake (Or.inl h.waits)
  have hwedged : Wedged st' := hpath.invariant Wedged h fun _ _ _ h _ => wedged_step h
  exact hwoken (Or.inl hwedged.waits)

/-- `_provider_loop` waits with the lock, and the reader for room that only this loop makes. -/
structure Starved (cfg : Config) (st : State) : Prop where
  waits : st.loop = .calling .waiting
  lock : st.control.holdsLock = false
  reader : ∃ event rest, st.provider.reader = .putting event rest ∧ event ∈ st.provider.symbols
  full : cfg.queueSize ≤ st.provider.queue

/-- No step wakes the call, or makes room. -/
theorem starved_step {cfg : Config} {st st' : State} {a : Label} (h : Starved cfg st)
    (hstep : step cfg st a = some st') : Starved cfg st' := by
  obtain ⟨hwaits, hlock, ⟨event, rest, hr, hsymbol⟩, hfull⟩ := h
  have hreceiving : st.provider.reader ≠ .receiving := by
    rw [hr]
    exact Reader.noConfusion
  cases a with
  | message message =>
    unfold step at hstep
    dsimp only at hstep
    rw [if_neg hreceiving] at hstep
    cases hstep
  | put =>
    -- The queue is full, so the reader waits.
    unfold step at hstep
    rw [hr] at hstep
    dsimp only at hstep
    rw [putStep, if_neg (not_not.2 hsymbol), if_neg (not_lt.2 hfull)] at hstep
    cases hstep
  | readerExit exit =>
    unfold step at hstep
    dsimp only at hstep
    rw [if_neg hreceiving] at hstep
    cases hstep
  | control control =>
    unfold step at hstep
    dsimp only at hstep
    split_ifs at hstep
    obtain rfl := Option.some.inj hstep
    exact ⟨hwaits, rfl, ⟨event, rest, hr, hsymbol⟩, hfull⟩
  | runControl sent =>
    -- The lock is held by the loop that waits for the reader.
    unfold step controlStep at hstep
    dsimp only at hstep
    cases hc : st.control with
    | idle =>
      rw [hc] at hstep
      cases hstep
    | wantLock control =>
      have hlocked : st.locked = true := by
        unfold State.locked
        rw [hwaits, hc]
        rfl
      rw [hc] at hstep
      dsimp only at hstep
      rw [if_pos hlocked] at hstep
      cases hstep
    | calling call =>
      rw [hc] at hlock
      cases hlock
  | runLoop ok =>
    unfold step loopStep at hstep
    rw [hwaits] at hstep
    cases hstep

/-- Who is starved is not woken. -/
theorem Starved.not_woken {cfg : Config} {st : State} (h : Starved cfg st) : ¬ NoWedge cfg st := by
  intro hwake
  obtain ⟨st', hpath, hwoken⟩ := hwake (Or.inr h.waits)
  have hstarved : Starved cfg st' := hpath.invariant (Starved cfg) h fun _ _ _ h _ => starved_step h
  exact hwoken (Or.inr hstarved.waits)

/-- Trades fill the queue between the messages of a `subscribe` and their acknowledgement. -/
theorem exists_starved : ∃ st : State,
    Path (step { queueSize := 1, stripUpper := id }) anyStep .init st ∧
      ¬ NoWedge { queueSize := 1, stripUpper := id } st := by
  obtain ⟨st, hst, hwaits, hlock, hreader, hsymbol, hfull⟩ := Path.exists_of_exec
    (step { queueSize := 1, stripUpper := id }) anyStep .init
    [.control (.subscribe, "BTC-USD"), .runControl true, .runLoop true, .runLoop true,
      .runLoop true, .runLoop true, .runLoop true, .message (.trades ["BTC-USD", "BTC-USD"]), .put]
    (fun st => st.loop = .calling .waiting ∧ st.control.holdsLock = false ∧
      st.provider.reader = .putting "BTC-USD" [] ∧ "BTC-USD" ∈ st.provider.symbols ∧
      1 ≤ st.provider.queue) (by decide)
  have hstarved : Starved { queueSize := 1, stripUpper := id } st :=
    ⟨hwaits, hlock, ⟨_, _, hreader, hsymbol⟩, hfull⟩
  exact ⟨st, hst, hstarved.not_woken⟩

/-- The upstream says nothing until the reader has been idle for too long. -/
theorem not_noWedge :
    ¬ ∀ cfg st, Path (step cfg) anyStep .init st → NoWedge cfg st := by
  obtain ⟨st, hst, hwaits, hlock, hreader⟩ := Path.exists_of_exec (step { stripUpper := id })
    anyStep .init (subscribed ++ [.readerExit .idle])
    (fun st => st.control = .calling .waiting ∧ st.loop.holdsLock = false ∧
      st.provider.reader.isDone = true) (by decide)
  have hwedged : Wedged st := ⟨hwaits, hlock, hreader⟩
  exact fun hall => hwedged.not_woken (hall _ st hst)

end MarketDataGateway.Collector.Handshake
