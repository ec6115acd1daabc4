import MarketDataGateway.Archive.Persist
import MarketDataGateway.Lib.PendingGroup
import MarketDataGateway.Streams.Consumer

/-!
# The archive worker

`RecoveringCandleArchiveSink` of `candle_archive_worker.py`: `run`, `_claim_stale`, `_persist` and
`_handle_invalid_message`. Any number of workers read the quote stream in a group of their own. A
worker claims what has been pending for long enough, reads what is new, and archives one entry after
the other. An exception ends the batch: its entries stay pending, and are claimed again.

A delivery may be repeated at any time, and each is archived once (`Counted`): the statement knows
the ids that it has seen. An entry is acknowledged once it is settled (`Settled`), and until then a
worker that goes on claiming comes past it, if fewer entries are delivered between its calls than
they examine (`misses_le`).
-/

namespace MarketDataGateway.Archive.Worker

open Lib Streams
open Pipeline (Outcome Fields)

/-- What the workers share. -/
structure Shared extends Failures Fields PyError where
  /-- The quote stream, and the group of the workers. -/
  pending : PendingGroup Fields
  /-- The archive. -/
  db : ArchiveDb

/-- The program counter of a worker: the next command. -/
inductive Pc
  /-- `_claim_stale`: `XAUTOCLAIM`. -/
  | claim
  /-- `run`: `XREADGROUP`, after `_claim_stale` has returned `messages`. -/
  | read (messages : List (ℕ × Fields))
  /-- `_persist`: `persist_event`. -/
  | persist (w : Work Fields) (event : QuoteEvent)
  /-- `_persist`: `XACK`. -/
  | ack (w : Work Fields)
  /-- `_handle_invalid_message`: `increment_retry`. -/
  | retry (w : Work Fields) (err : PyError)
  /-- `_handle_invalid_message`: `move_to_dead_letter`. -/
  | deadLetter (w : Work Fields) (err : PyError) (retryCount : ℕ)
  /-- `_handle_invalid_message`: `XACK`. -/
  | deadAck (w : Work Fields)
  /-- The worker has stopped. -/
  | stopped
  deriving DecidableEq

/-- A worker: the state of a `RecoveringCandleArchiveSink`. -/
structure Sink where
  /-- `_claim_cursor`. -/
  cursor : ℕ
  /-- The program counter. -/
  pc : Pc
  deriving DecidableEq

/-- The next message of the batch, or the next batch. -/
def nextMessage : List (ℕ × Fields) → Pc
  | [] => .claim
  | (id, fields) :: rest =>
    match fields.parse with
    | .error err => .retry ⟨id, fields, rest⟩ err
    | .ok event => .persist ⟨id, fields, rest⟩ event

/-- The time of Redis, in milliseconds. -/
def milliseconds (clock : Timestamp) : ℤ := clock / 1000

/-- The reply of the `XAUTOCLAIM` of a worker whose cursor is `cursor`. -/
def Shared.claimReply (s : Shared) (cfg : Settings) (clock : Timestamp) (cursor : ℕ) :
    List ℕ × Option ℕ :=
  s.pending.claimable (milliseconds clock) cfg.candleArchiveClaimIdleMs cursor 200

/-- The entries with the given ids. -/
def Shared.messages (s : Shared) (ids : List ℕ) : List (ℕ × Fields) :=
  ids.filterMap fun id => s.pending.group.entries[id]?.map fun fields => (id, fields)

/-- One step of the worker at `i`, at the time `clock`. An exception ends the batch. -/
def workerStep (cfg : Settings) (clock : Timestamp) (i : ℕ) (s : Shared) (outcome : Outcome)
    (sink : Sink) : Option (Shared × Sink) :=
  let goTo (pc : Pc) : Sink := { sink with pc := pc }
  match sink.pc with
  | .claim =>
    let reply := s.claimReply cfg clock sink.cursor
    let effect := { s with
      pending := s.pending.xautoclaim i (milliseconds clock) cfg.candleArchiveClaimIdleMs
        sink.cursor 200 }
    let messages := s.messages reply.1
    let pc := if messages.length < 200 then .read messages else nextMessage messages
    some (send outcome s effect (effect, ⟨reply.2.getD 0, pc⟩) (goTo .claim))
  | .read messages =>
    let count := 200 - messages.length
    let effect := { s with pending := s.pending.xreadgroup i (milliseconds clock) count }
    some (send outcome s effect
      (effect, goTo (nextMessage (messages ++ s.pending.group.fresh count))) (goTo .claim))
  | .persist w event =>
    match persistEvent s.db event with
    | .error _ => some (s, goTo .claim)
    | .ok (db, _) =>
      let effect := { s with db := db }
      some (send outcome s effect (effect, goTo (.ack w)) (goTo .claim))
  | .ack w =>
    let effect := { s with pending := s.pending.xack w.id }
    some (send outcome s effect (effect, goTo (nextMessage w.rest)) (goTo .claim))
  | .retry w err =>
    let effect := { s with toFailures := s.toFailures.incrementRetry clock w.id }
    let count := s.toFailures.nextRetry w.id
    let pc := if count < cfg.retryLimit then .claim else .deadLetter w err count
    some (send outcome s effect (effect, goTo pc) (goTo .claim))
  | .deadLetter w err retryCount =>
    let letter : DeadLetter Fields PyError := ⟨w.id, w.fields, err, retryCount, clock⟩
    let effect := { s with toFailures := s.toFailures.moveToDeadLetter letter }
    some (send outcome s effect (effect, goTo (.deadAck w)) (goTo .claim))
  | .deadAck w =>
    let effect := { s with pending := s.pending.xack w.id }
    some (send outcome s effect (effect, goTo (nextMessage w.rest)) (goTo .claim))
  | .stopped => none

/-- The state of the workers and of what they share. -/
structure State where
  /-- The clock. -/
  now : Timestamp
  /-- What the workers share. -/
  shared : Shared
  /-- The workers, stopped ones included. -/
  workers : List Sink

/-- No worker, no entry and an empty archive. -/
def State.init (now : Timestamp) : State := ⟨now, ⟨.empty, .empty, .empty⟩, []⟩

/-- A step of the system. -/
inductive Label
  /-- An entry joins the quote stream. -/
  | publish (fields : Fields)
  /-- A worker starts, under a new consumer name. -/
  | startWorker
  /-- The worker at `i` takes a step. -/
  | run (i : ℕ) (outcome : Outcome)
  /-- The worker at `i` stops or crashes. -/
  | stop (i : ℕ)
  /-- The clock advances by `d` microseconds, and retry counters expire. -/
  | tick (d : ℕ)
  deriving DecidableEq

/-- The steps of the system. -/
def step (cfg : Settings) (st : State) : Label → Option State
  | .publish fields =>
    some { st with shared := { st.shared with pending := st.shared.pending.xadd fields } }
  | .startWorker => some { st with workers := st.workers ++ [⟨0, .claim⟩] }
  | .run i outcome =>
    st.workers[i]?.bind fun sink =>
      (workerStep cfg st.now i st.shared outcome sink).map fun result =>
        { st with shared := result.1, workers := st.workers.set i result.2 }
  | .stop i => st.workers[i]?.map fun sink =>
      { st with workers := st.workers.set i { sink with pc := .stopped } }
  | .tick d =>
    some { st with
      now := st.now + d
      shared := { st.shared with toFailures := st.shared.toFailures.expire (st.now + d) } }

/-! ## What the archive holds -/

/-- The event is committed to the archive. -/
def Committed (s : Shared) (event : QuoteEvent) : Prop := event.eventId ∈ s.db.events.map Prod.fst

/-- An entry is settled: its event is committed, or it has no valid event and was written to the
dead-letter stream after `retry_limit` attempts. -/
def Settled (cfg : Settings) (s : Shared) (id : ℕ) (fields : Fields) : Prop :=
  match fields.parse with
  | .ok event => Committed s event
  | .error _ => ∃ letter ∈ s.deadLetters, letter.sourceId = id ∧ cfg.retryLimit ≤ letter.retryCount

/-- Every entry that is acknowledged is settled. -/
def AckedSettled (cfg : Settings) (s : Shared) : Prop :=
  ∀ id ∈ s.pending.group.acked, ∀ fields ∈ s.pending.group.entries[id]?, Settled cfg s id fields

/-- The event is that of an entry which has been delivered. -/
def FromStream (s : Shared) (event : QuoteEvent) : Prop :=
  ∃ id < s.pending.group.delivered, ∃ fields ∈ s.pending.group.entries[id]?,
    fields.parse = .ok event

/-- Each event id that is committed is that of one delivered event, and the activity counts are the
numbers of these events in each minute. -/
def Counted (s : Shared) : Prop :=
  ∃ events : List QuoteEvent, (events.map QuoteEvent.eventId).Nodup ∧
    (∀ event ∈ events, FromStream s event) ∧
    (∀ i, i ∈ s.db.events.map Prod.fst ↔ i ∈ events.map QuoteEvent.eventId) ∧
    ∀ symbol minute, (s.db.candles.find symbol minute).elim 0 BaseMinuteCandle.activityCount =
      (events.filter fun e => e.symbol = symbol ∧ floorTime e.providerTimestamp 60 = minute).length

/-- Nothing that has been done is undone. -/
structure Grows (s s' : Shared) : Prop where
  group : s.pending.group.Extends s'.pending.group
  deadLetters : s.deadLetters ⊆ s'.deadLetters
  committed : ∀ event, Committed s event → Committed s' event

/-- The archive holds events of entries that have been delivered. -/
def Holds (s : Shared) (events : List QuoteEvent) : Prop :=
  Archived s.db events ∧ ∀ event ∈ events, FromStream s event

/-- What holds of a worker. -/
def Good (cfg : Settings) (s : Shared) : Pc → Prop
  | .claim => True
  | .read messages => s.pending.group.Delivered messages
  | .persist w event => s.pending.group.Delivered w.batch ∧ w.fields.parse = .ok event
  | .ack w => s.pending.group.Delivered w.batch ∧ Settled cfg s w.id w.fields
  | .retry w err => s.pending.group.Delivered w.batch ∧ w.fields.parse = .error err
  | .deadLetter w err retryCount => s.pending.group.Delivered w.batch ∧
      w.fields.parse = .error err ∧ cfg.retryLimit ≤ retryCount
  | .deadAck w => s.pending.group.Delivered w.batch ∧ Settled cfg s w.id w.fields
  | .stopped => True

/-- What a step does. -/
structure Steps (cfg : Settings) (s s' : Shared) (sink' : Sink) : Prop where
  grows : Grows s s'
  good : Good cfg s' sink'.pc
  /-- An entry is acknowledged when it is settled. -/
  acked : ∀ id ∈ s'.pending.group.acked, id ∈ s.pending.group.acked ∨
    ∃ fields, s'.pending.group.entries[id]? = some fields ∧ Settled cfg s' id fields
  /-- What joins the archive is from the stream, and has a new id. -/
  holds : ∀ events, Holds s events → ∃ events', Holds s' events'

section Steps

variable {cfg : Settings} {clock : Timestamp} {i : ℕ} {s s' : Shared} {sink sink' : Sink} {pc : Pc}
  {outcome : Outcome} {w : Work Fields} {fields : Fields} {event : QuoteEvent}
  {events : List QuoteEvent} {batch : List (ℕ × Fields)}

/-- Nothing happens to what is shared. -/
theorem Grows.refl (s : Shared) : Grows s s := ⟨.refl _, List.Subset.refl _, fun _ h => h⟩

/-- A change to the pending entries. -/
theorem grows_pending {pending : PendingGroup Fields}
    (h : s.pending.group.Extends pending.group) : Grows s { s with pending := pending } :=
  ⟨h, List.Subset.refl _, fun _ h => h⟩

/-- What is settled stays settled. -/
theorem Settled.mono {id : ℕ} (h : Settled cfg s id fields) (hs : Grows s s') :
    Settled cfg s' id fields := by
  unfold Settled at h ⊢
  split at h
  · exact hs.committed _ h
  · obtain ⟨letter, hletter, hid⟩ := h
    exact ⟨letter, hs.deadLetters hletter, hid⟩

/-- What comes from the stream still does. -/
theorem FromStream.mono (h : FromStream s event) (hs : Grows s s') : FromStream s' event := by
  obtain ⟨id, hlt, fields, hfields, hparse⟩ := h
  exact ⟨id, hlt.trans_le hs.group.delivered, fields, hs.group.entries _ _ hfields, hparse⟩

/-- What holds of a worker is kept by the steps of others. -/
theorem Good.mono (h : Good cfg s pc) (hs : Grows s s') : Good cfg s' pc := by
  cases pc with
  | claim => trivial
  | stopped => trivial
  | read messages => exact ConsumerGroup.Delivered.mono h hs.group
  | persist w event => exact ⟨h.1.mono hs.group, h.2⟩
  | ack w => exact ⟨h.1.mono hs.group, h.2.mono hs⟩
  | retry w err => exact ⟨h.1.mono hs.group, h.2⟩
  | deadLetter w err retryCount => exact ⟨h.1.mono hs.group, h.2⟩
  | deadAck w => exact ⟨h.1.mono hs.group, h.2.mono hs⟩

/-- The next message of a batch that has been delivered. -/
theorem good_nextMessage (h : s.pending.group.Delivered batch) :
    Good cfg s (nextMessage batch) := by
  unfold nextMessage
  split
  · trivial
  · split
    · next err hparse => exact ⟨h, hparse⟩
    · next event hparse => exact ⟨h, hparse⟩

/-- What is claimed has been delivered. -/
theorem delivered_messages (s : Shared) (cfg : Settings) (clock : Timestamp) (cursor : ℕ) :
    s.pending.group.Delivered (s.messages (s.claimReply cfg clock cursor).1) := by
  intro p hp
  obtain ⟨id, hid, hentry⟩ := List.mem_filterMap.1 hp
  obtain ⟨fields, hfields, rfl⟩ := Option.map_eq_some_iff.1 hentry
  exact ⟨(PendingGroup.pending_of_mem_claimable hid).1, hfields⟩

/-- What leaves the archive alone keeps what it holds. -/
theorem Holds.mono (h : Holds s events) (hs : Grows s s') (hdb : s'.db = s.db) : Holds s' events :=
  ⟨hdb ▸ h.1, fun event hevent => (h.2 event hevent).mono hs⟩

/-- A step that acknowledges nothing and leaves the archive alone. -/
theorem steps_of_db_eq (hgrows : Grows s s') (hgood : Good cfg s' sink'.pc)
    (hacked : s'.pending.group.acked = s.pending.group.acked) (hdb : s'.db = s.db) :
    Steps cfg s s' sink' where
  grows := hgrows
  good := hgood
  acked _ hid := Or.inl (hacked ▸ hid)
  holds events hevents := ⟨events, hevents.mono hgrows hdb⟩

/-- An exception before the command has taken effect. -/
theorem steps_of_raises (hpc : sink'.pc = .claim) : Steps cfg s s sink' :=
  steps_of_db_eq (.refl s) (hpc ▸ trivial) rfl rfl

/-- The statement keeps the ids that it has seen, and adds its own. -/
theorem committed_of_persistEvent {db db' : ArchiveDb} {isNew : Bool}
    (h : persistEvent db event = .ok (db', isNew)) :
    (∀ i ∈ db.events.map Prod.fst, i ∈ db'.events.map Prod.fst) ∧
      event.eventId ∈ db'.events.map Prod.fst := by
  unfold Archive.persistEvent at h
  dsimp only at h
  split_ifs at h with hknown
  · obtain ⟨rfl, -⟩ := Prod.mk.inj (Except.ok.inj h)
    exact ⟨fun _ hi => hi, hknown⟩
  · obtain ⟨rfl, -⟩ := Prod.mk.inj (Except.ok.inj h)
    exact ⟨fun _ hi => List.mem_cons_of_mem _ hi, List.mem_cons_self⟩

/-- What the archive holds after the statement for an event of the stream. -/
theorem Holds.persistEvent {db : ArchiveDb} {isNew : Bool} (h : Holds s events)
    (hevent : FromStream s event) (hpersist : persistEvent s.db event = .ok (db, isNew)) :
    ∃ events', Holds { s with db := db } events' := by
  by_cases hknown : event.eventId ∈ events.map QuoteEvent.eventId
  · rw [persistEvent_known h.1 hknown] at hpersist
    obtain ⟨rfl, -⟩ := Prod.mk.inj (Except.ok.inj hpersist)
    exact ⟨events, h⟩
  · obtain ⟨db', hpersist', harchived⟩ := persistEvent_new h.1 hknown
    rw [hpersist'] at hpersist
    obtain ⟨rfl, -⟩ := Prod.mk.inj (Except.ok.inj hpersist)
    refine ⟨event :: events, harchived, fun event' hevent' => ?_⟩
    rcases List.mem_cons.1 hevent' with rfl | hevent'
    · exact hevent
    · exact h.2 event' hevent'

/-- `persist_event` commits an event of the stream. -/
theorem steps_persist {db : ArchiveDb} {isNew : Bool} (hbatch : s.pending.group.Delivered w.batch)
    (hparse : w.fields.parse = .ok event) (hpersist : persistEvent s.db event = .ok (db, isNew))
    (hpc : sink'.pc = .ack w ∨ sink'.pc = .claim) : Steps cfg s { s with db := db } sink' := by
  obtain ⟨hkept, hcommitted⟩ := committed_of_persistEvent hpersist
  refine ⟨⟨.refl _, List.Subset.refl _, fun _ h => hkept _ h⟩, ?_, fun id hid => Or.inl hid,
    fun events hevents => ?_⟩
  · rcases hpc with hpc | hpc
    · rw [hpc]
      refine ⟨hbatch, ?_⟩
      unfold Settled
      rw [hparse]
      exact hcommitted
    · rw [hpc]
      trivial
  · obtain ⟨hlt, hentry⟩ := hbatch _ List.mem_cons_self
    exact hevents.persistEvent ⟨w.id, hlt, w.fields, hentry, hparse⟩ hpersist

/-- `XACK` of an entry that is settled. -/
theorem steps_ack (hbatch : s.pending.group.Delivered w.batch)
    (hsettled : Settled cfg s w.id w.fields)
    (hpc : sink'.pc = nextMessage w.rest ∨ sink'.pc = .claim) :
    Steps cfg s { s with pending := s.pending.xack w.id } sink' := by
  have hgrows : Grows s { s with pending := s.pending.xack w.id } :=
    grows_pending (ConsumerGroup.extends_xack _ _)
  refine ⟨hgrows, ?_, fun id hid => ?_, fun events hevents => ⟨events, hevents.mono hgrows rfl⟩⟩
  · rcases hpc with hpc | hpc
    · rw [hpc]
      exact good_nextMessage ((delivered_rest hbatch).mono hgrows.group)
    · rw [hpc]
      trivial
  · rcases ConsumerGroup.mem_acked_xack.1 hid with hid | ⟨rfl, -⟩
    · exact Or.inl hid
    · exact Or.inr ⟨w.fields, (hbatch _ List.mem_cons_self).2, hsettled.mono hgrows⟩

/-- What one step of a worker can do. -/
theorem steps_workerStep (hgood : Good cfg s sink.pc)
    (h : workerStep cfg clock i s outcome sink = some (s', sink')) : Steps cfg s s' sink' := by
  obtain ⟨cursor, pc⟩ := sink
  -- Each command goes through, raises, or does both; what it does to the archive is settled first.
  cases pc with
  | stopped => cases h
  | claim =>
    -- What is claimed has been delivered, as the reply says.
    have hbatch := delivered_messages s cfg clock cursor
    refine send_elim (Steps cfg s) (Option.some.inj h) (fun _ => ?_) (fun _ => steps_of_raises rfl)
      fun _ => steps_of_db_eq (grows_pending (.refl _)) trivial rfl rfl
    refine steps_of_db_eq (grows_pending (.refl _)) ?_ rfl rfl
    dsimp only
    split_ifs
    · exact hbatch
    · exact good_nextMessage hbatch
  | read messages =>
    -- The rest of the batch is delivered by the read.
    have hgroup := ConsumerGroup.extends_xreadgroup s.pending.group (200 - messages.length)
    refine send_elim (Steps cfg s) (Option.some.inj h) (fun _ => ?_) (fun _ => steps_of_raises rfl)
      fun _ => steps_of_db_eq (grows_pending hgroup) trivial rfl rfl
    refine steps_of_db_eq (grows_pending hgroup) (good_nextMessage fun p hp => ?_) rfl rfl
    rcases List.mem_append.1 hp with hp | hp
    · exact ConsumerGroup.Delivered.mono hgood hgroup p hp
    · exact ConsumerGroup.delivered_fresh _ _ p hp
  | persist w event =>
    obtain ⟨hbatch, hparse⟩ := hgood
    rw [workerStep] at h
    dsimp only at h
    cases hpersist : persistEvent s.db event with
    | error err =>
      rw [hpersist] at h
      obtain ⟨rfl, rfl⟩ := Prod.mk.inj (Option.some.inj h)
      exact steps_of_raises rfl
    | ok result =>
      obtain ⟨db, isNew⟩ := result
      rw [hpersist] at h
      exact send_elim (Steps cfg s) (Option.some.inj h)
        (fun _ => steps_persist hbatch hparse hpersist (Or.inl rfl)) (fun _ => steps_of_raises rfl)
        fun _ => steps_persist hbatch hparse hpersist (Or.inr rfl)
  | ack w =>
    obtain ⟨hbatch, hsettled⟩ := hgood
    exact send_elim (Steps cfg s) (Option.some.inj h)
      (fun _ => steps_ack hbatch hsettled (Or.inl rfl)) (fun _ => steps_of_raises rfl)
      fun _ => steps_ack hbatch hsettled (Or.inr rfl)
  | retry w err =>
    -- The failure that makes the count exceed the limit goes to the dead letters.
    have hgrows : Grows s { s with toFailures := s.toFailures.incrementRetry clock w.id } :=
      ⟨.refl _, List.Subset.refl _, fun _ h => h⟩
    refine send_elim (Steps cfg s) (Option.some.inj h) (fun _ => ?_) (fun _ => steps_of_raises rfl)
      fun _ => steps_of_db_eq hgrows trivial rfl rfl
    refine steps_of_db_eq hgrows ?_ rfl rfl
    dsimp only
    split_ifs with hcount
    · trivial
    · exact ⟨hgood.1, hgood.2, not_lt.1 hcount⟩
  | deadLetter w err retryCount =>
    obtain ⟨hbatch, hparse, hcount⟩ := hgood
    have hgrows : Grows s { s with
        toFailures := s.toFailures.moveToDeadLetter ⟨w.id, w.fields, err, retryCount, clock⟩ } :=
      ⟨.refl _, List.subset_cons_self _ _, fun _ h => h⟩
    refine send_elim (Steps cfg s) (Option.some.inj h) (fun _ => ?_) (fun _ => steps_of_raises rfl)
      fun _ => steps_of_db_eq hgrows trivial rfl rfl
    refine steps_of_db_eq hgrows ⟨hbatch, ?_⟩ rfl rfl
    unfold Settled
    rw [hparse]
    exact ⟨_, List.mem_cons_self, rfl, hcount⟩
  | deadAck w =>
    obtain ⟨hbatch, hsettled⟩ := hgood
    exact send_elim (Steps cfg s) (Option.some.inj h)
      (fun _ => steps_ack hbatch hsettled (Or.inl rfl)) (fun _ => steps_of_raises rfl)
      fun _ => steps_ack hbatch hsettled (Or.inr rfl)

end Steps

/-! ## Runs -/

/-- What holds of the state. -/
structure Inv (cfg : Settings) (st : State) : Prop where
  good : ∀ sink ∈ st.workers, Good cfg st.shared sink.pc
  acked : AckedSettled cfg st.shared
  holds : ∃ events, Holds st.shared events

/-- The worker at `i` calls `_claim_stale`, and gets the reply. -/
def Claims (i : ℕ) (st : State) (a : Label) : Prop :=
  a = .run i .ok ∧ ∃ sink ∈ st.workers[i]?, sink.pc = .claim

/-- The entry is pending, and the next `XAUTOCLAIM` finds that it has been idle for long enough. -/
def Claimable (cfg : Settings) (st : State) (id : ℕ) : Prop :=
  ∃ e ∈ st.shared.pending.pel, e.id = id ∧
    cfg.candleArchiveClaimIdleMs ≤ milliseconds st.now - e.deliveredAt

/-- `_claim_cursor` of the worker at `i`, which is zero when it starts. -/
def State.cursor (st : State) (i : ℕ) : ℕ := st.workers[i]?.elim 0 Sink.cursor

/-- How many pending entries the `XAUTOCLAIM` of the worker at `i` examines. -/
def State.examined (st : State) (cfg : Settings) (i : ℕ) : ℕ :=
  st.shared.pending.examined (milliseconds st.now) cfg.candleArchiveClaimIdleMs (st.cursor i) 200

/-- In a run, the worker at `i` makes a number of calls of `_claim_stale` and gets the replies. At
each of them the entry is pending and has been idle for long enough, and none returns it. At most
`more` entries are delivered before the first of the calls. After a call that leaves the cursor
beyond the entry, fewer entries are delivered before the next one than that call has examined. The
second number is how many may still be delivered before the next call. -/
inductive Misses (cfg : Settings) (i id : ℕ) (st : State) (more : ℕ) : ℕ → ℕ → State → Prop
  /-- No step. -/
  | refl : Misses cfg i id st more 0 more st
  /-- Any other step. It delivers `d` entries. -/
  | other {k left d : ℕ} {t u : State} (a : Label) : Misses cfg i id st more k (left + d) t →
      ¬ Claims i t a → step cfg t a = some u →
      u.shared.pending.group.delivered = t.shared.pending.group.delivered + d →
      Misses cfg i id st more k left u
  /-- A call that does not return the entry. -/
  | missed {k left left' : ℕ} {t u : State} : Misses cfg i id st more k left t →
      Claims i t (.run i .ok) → Claimable cfg t id →
      id ∉ (t.shared.claimReply cfg t.now (t.cursor i)).1 →
      (∀ next, (t.shared.claimReply cfg t.now (t.cursor i)).2 = some next → id < next →
        left' < t.examined cfg i) →
      step cfg t (.run i .ok) = some u → Misses cfg i id st more (k + 1) left' u

section Runs

variable {cfg : Settings} {st st' : State} {a : Label} {i id k more left : ℕ} {outcome : Outcome}

/-- A step of a worker. -/
theorem step_run (h : step cfg st (.run i outcome) = some st') :
    ∃ sink s' sink', st.workers[i]? = some sink ∧
      workerStep cfg st.now i st.shared outcome sink = some (s', sink') ∧
      st' = { st with shared := s', workers := st.workers.set i sink' } := by
  obtain ⟨sink, hi, hstep⟩ := Option.bind_eq_some_iff.1 h
  obtain ⟨⟨s', sink'⟩, hs, rfl⟩ := Option.map_eq_some_iff.1 hstep
  exact ⟨sink, s', sink', hi, hs, rfl⟩

/-- What has been acknowledged stays settled. -/
theorem AckedSettled.mono {s s' : Shared} (h : AckedSettled cfg s) (hs : Grows s s')
    (hacked : s'.pending.group.acked = s.pending.group.acked) : AckedSettled cfg s' := by
  intro id hid fields hfields
  rw [hacked] at hid
  have hlt := s.pending.group.acked_lt id hid
  have hin : id < s.pending.group.entries.length := hlt.trans_le s.pending.group.delivered_le
  have hentry := List.getElem?_eq_getElem hin
  obtain rfl := Option.some.inj ((hs.group.entries _ _ hentry).symm.trans hfields)
  exact (h id hid _ hentry).mono hs

/-- The invariant is kept by what acknowledges nothing and leaves the archive and the workers
alone. -/
theorem Inv.of_grows (h : Inv cfg st) {s' : Shared} (hs : Grows st.shared s')
    (hacked : s'.pending.group.acked = st.shared.pending.group.acked) (hdb : s'.db = st.shared.db) :
    Inv cfg { st with shared := s' } := by
  obtain ⟨events, hevents⟩ := h.holds
  exact ⟨fun sink hsink => (h.good sink hsink).mono hs, h.acked.mono hs hacked,
    events, hevents.mono hs hdb⟩

/-- The invariant holds at the start. -/
theorem inv_init (cfg : Settings) (t₀ : Timestamp) : Inv cfg (.init t₀) :=
  ⟨fun _ hsink => absurd hsink List.not_mem_nil, fun _ hid => absurd hid List.not_mem_nil,
    [], archived_empty, fun _ hevent => absurd hevent List.not_mem_nil⟩

/-- A step keeps the invariant. -/
theorem inv_step (h : Inv cfg st) (hstep : step cfg st a = some st') : Inv cfg st' := by
  cases a with
  | publish fields =>
    obtain rfl := Option.some.inj hstep
    exact h.of_grows (grows_pending (ConsumerGroup.extends_xadd _ _)) rfl rfl
  | startWorker =>
    obtain rfl := Option.some.inj hstep
    refine ⟨fun sink hsink => ?_, h.acked, h.holds⟩
    rcases List.mem_append.1 hsink with hsink | hsink
    · exact h.good sink hsink
    · rw [List.mem_singleton.1 hsink]
      trivial
  | run i outcome =>
    obtain ⟨sink, s', sink', hi, hrun, rfl⟩ := step_run hstep
    have hs := steps_workerStep (h.good sink (List.mem_of_getElem? hi)) hrun
    obtain ⟨events, hevents⟩ := h.holds
    refine ⟨forall_mem_set (fun sink hsink => (h.good sink hsink).mono hs.grows) hs.good, ?_,
      hs.holds events hevents⟩
    -- An entry has been acknowledged before, or the step has settled it.
    intro id hid fields hfields
    rcases hs.acked id hid with hbefore | ⟨fields', hentry, hsettled⟩
    · have hin := (st.shared.pending.group.acked_lt id hbefore).trans_le
        st.shared.pending.group.delivered_le
      have hentry := List.getElem?_eq_getElem hin
      obtain rfl := Option.some.inj ((hs.grows.group.entries _ _ hentry).symm.trans hfields)
      exact (h.acked id hbefore _ hentry).mono hs.grows
    · obtain rfl := Option.some.inj (hentry.symm.trans hfields)
      exact hsettled
  | stop i =>
    obtain ⟨sink, -, rfl⟩ := Option.map_eq_some_iff.1 hstep
    exact ⟨forall_mem_set h.good trivial, h.acked, h.holds⟩
  | tick d =>
    obtain rfl := Option.some.inj hstep
    -- Time takes nothing but markers of failures.
    have hs : Grows st.shared { st.shared with
        toFailures := st.shared.toFailures.expire (st.now + d) } :=
      ⟨.refl _, List.Subset.refl _, fun _ h => h⟩
    obtain ⟨events, hevents⟩ := h.holds
    exact ⟨fun sink hsink => (h.good sink hsink).mono hs, h.acked.mono hs rfl,
      events, hevents.mono hs rfl⟩

/-- The stream and its group go on from where they were. -/
theorem extends_step (h : Inv cfg st) (hstep : step cfg st a = some st') :
    st.shared.pending.group.Extends st'.shared.pending.group := by
  cases a with
  | publish fields =>
    obtain rfl := Option.some.inj hstep
    exact ConsumerGroup.extends_xadd _ _
  | startWorker =>
    obtain rfl := Option.some.inj hstep
    exact .refl _
  | run i outcome =>
    obtain ⟨sink, s', sink', hi, hrun, rfl⟩ := step_run hstep
    exact (steps_workerStep (h.good sink (List.mem_of_getElem? hi)) hrun).grows.group
  | stop i =>
    obtain ⟨sink, -, rfl⟩ := Option.map_eq_some_iff.1 hstep
    exact .refl _
  | tick d =>
    obtain rfl := Option.some.inj hstep
    exact .refl _

/-- The cursor is what the last reply of `_claim_stale` says. -/
theorem workerStep_cursor {s s' : Shared} {sink sink' : Sink} {clock : Timestamp}
    (h : workerStep cfg clock i s outcome sink = some (s', sink')) : sink'.cursor =
      if sink.pc = .claim ∧ outcome = .ok then (s.claimReply cfg clock sink.cursor).2.getD 0
      else sink.cursor := by
  obtain ⟨cursor, pc⟩ := sink
  -- No other step touches the cursor.
  have hother : pc ≠ .claim → sink'.cursor = cursor := fun hpc => by
    let P := fun (_ : Shared) (sink' : Sink) => sink'.cursor = cursor
    cases pc with
    | claim => exact absurd rfl hpc
    | stopped => cases h
    | persist w event =>
      rw [workerStep] at h
      dsimp only at h
      cases hpersist : persistEvent s.db event with
      | error err =>
        rw [hpersist] at h
        obtain ⟨rfl, rfl⟩ := Prod.mk.inj (Option.some.inj h)
        rfl
      | ok result =>
        rw [hpersist] at h
        exact send_elim P (Option.some.inj h) (fun _ => rfl) (fun _ => rfl) fun _ => rfl
    | _ => exact send_elim P (Option.some.inj h) (fun _ => rfl) (fun _ => rfl) fun _ => rfl
  by_cases hpc : pc = .claim
  · subst hpc
    cases outcome with
    | ok =>
      obtain ⟨rfl, rfl⟩ := Prod.mk.inj (Option.some.inj h)
      rfl
    | refused =>
      obtain ⟨rfl, rfl⟩ := Prod.mk.inj (Option.some.inj h)
      rfl
    | lost =>
      obtain ⟨rfl, rfl⟩ := Prod.mk.inj (Option.some.inj h)
      rfl
  · rw [if_neg fun hclaim => hpc hclaim.1]
    exact hother hpc

/-- The cursor of a worker that is replaced. -/
theorem cursor_set {s' : Shared} {sink sink' : Sink} (hi : st.workers[i]? = some sink) (j : ℕ) :
    State.cursor { st with shared := s', workers := st.workers.set i sink' } j =
      if j = i then sink'.cursor else st.cursor j := by
  unfold State.cursor
  split_ifs with hj
  · subst hj
    rw [List.getElem?_set_self (List.getElem?_eq_some_iff.1 hi).1]
    rfl
  · rw [List.getElem?_set_ne fun h => hj h.symm]

/-- The cursor of a worker is where its next claim begins. -/
theorem cursor_eq (hi : st.workers[i]? = some sink) : st.cursor i = sink.cursor := by
  rw [State.cursor, hi]
  rfl

/-- The cursor changes only when the worker claims. -/
theorem cursor_step_of_not_claims (hnot : ¬ Claims i st a) (hstep : step cfg st a = some st') :
    st'.cursor i = st.cursor i := by
  cases a with
  | publish fields =>
    obtain rfl := Option.some.inj hstep
    rfl
  | startWorker =>
    obtain rfl := Option.some.inj hstep
    unfold State.cursor
    rcases lt_or_ge i st.workers.length with hlt | hge
    · rw [List.getElem?_append_left hlt]
    · -- A worker that is not there yet has the cursor of one that starts.
      rw [List.getElem?_append_right hge, List.getElem?_eq_none hge]
      cases i - st.workers.length <;> rfl
  | run j outcome =>
    obtain ⟨sink, s', sink', hj, hrun, rfl⟩ := step_run hstep
    rw [cursor_set hj]
    split_ifs with hij
    · subst hij
      rw [workerStep_cursor hrun, if_neg, cursor_eq hj]
      rintro ⟨hpc, rfl⟩
      exact hnot ⟨rfl, sink, hj, hpc⟩
    · rfl
  | stop j =>
    obtain ⟨sink, hj, rfl⟩ := Option.map_eq_some_iff.1 hstep
    rw [cursor_set hj]
    split_ifs with hij
    · subst hij
      exact (cursor_eq hj).symm
    · rfl
  | tick d =>
    obtain rfl := Option.some.inj hstep
    rfl

/-- A call of `_claim_stale` delivers nothing. -/
theorem delivered_step_of_claims (hclaims : Claims i st a) (hstep : step cfg st a = some st') :
    st'.shared.pending.group.delivered = st.shared.pending.group.delivered := by
  obtain ⟨rfl, sink, hi, hpc⟩ := hclaims
  obtain ⟨sink', s', sink'', hi', hrun, rfl⟩ := step_run hstep
  obtain rfl := Option.some.inj (hi'.symm.trans hi)
  obtain ⟨cursor, pc⟩ := sink'
  subst hpc
  obtain ⟨rfl, -⟩ := Prod.mk.inj (Option.some.inj hrun)
  rfl

/-- Each call that misses the entry brings the worker closer to it. -/
theorem misses_add_distance_le (h : Inv cfg st) (hmisses : Misses cfg i id st more k left st') :
    Inv cfg st' ∧ k + st'.shared.pending.distance left id (st'.cursor i) ≤
      st.shared.pending.distance more id (st.cursor i) := by
  induction hmisses with
  | refl => exact ⟨h, (Nat.zero_add _).le⟩
  | @other k left d t u a _ hnot hstep hdelivered ih =>
    obtain ⟨hinv, hdistance⟩ := ih
    refine ⟨inv_step hinv hstep, ?_⟩
    have hd : u.shared.pending.group.delivered - t.shared.pending.group.delivered = d := by omega
    have hle := PendingGroup.distance_le_of_extends (extends_step hinv hstep)
      (hd.le.trans (Nat.le_add_left d left)) id (t.cursor i)
    rw [hd, Nat.add_sub_cancel] at hle
    rw [cursor_step_of_not_claims hnot hstep]
    omega
  | @missed k left left' t u _ hclaims hidle hnot hmore hstep ih =>
    obtain ⟨hinv, hdistance⟩ := ih
    refine ⟨inv_step hinv hstep, ?_⟩
    obtain ⟨e, he, rfl, hwait⟩ := hidle
    -- The call itself brings the cursor closer, and changes which entries are pending in no way.
    have hlt : t.shared.pending.distance left' e.id
        ((t.shared.claimReply cfg t.now (t.cursor i)).2.getD 0) <
        t.shared.pending.distance left e.id (t.cursor i) :=
      PendingGroup.distance_lt he hwait (by decide) hnot hmore
    have hdelivered := delivered_step_of_claims hclaims hstep
    have hnone : u.shared.pending.group.delivered - t.shared.pending.group.delivered ≤ left' := by
      omega
    have hle := PendingGroup.distance_le_of_extends (extends_step hinv hstep)
      hnone e.id (u.cursor i)
    rw [hdelivered, Nat.sub_self, Nat.sub_zero] at hle
    have hcursor : u.cursor i = (t.shared.claimReply cfg t.now (t.cursor i)).2.getD 0 := by
      obtain ⟨-, sink, hi, hpc⟩ := hclaims
      obtain ⟨sink₁, s', sink', hi', hrun, rfl⟩ := step_run hstep
      obtain rfl : sink₁ = sink := Option.some.inj (hi'.symm.trans hi)
      rw [cursor_set hi', if_pos rfl, workerStep_cursor hrun, if_pos ⟨hpc, rfl⟩, ← cursor_eq hi']
    rw [hcursor] at hle ⊢
    exact (Nat.add_le_add_left hle _).trans ((Nat.succ_add_eq_add_succ k _).le.trans
      ((Nat.add_le_add_left hlt k).trans hdistance))

/-- A worker that comes past more entries than are delivered misses an entry only so often. -/
theorem misses_le (h : Inv cfg st) (hmisses : Misses cfg i id st more k left st') :
    k ≤ st.shared.pending.pel.length + more + 1 + id := by
  obtain ⟨-, hdistance⟩ := misses_add_distance_le h hmisses
  have hbound := st.shared.pending.distance_le_length more id (st.cursor i)
  omega

/-- The activity counts of an archive are the numbers of its events. -/
theorem Holds.counted {s : Shared} {events : List QuoteEvent} (h : Holds s events) : Counted s := by
  refine ⟨events, h.1.nodup, h.2, h.1.ids, fun symbol minute => ?_⟩
  have hrow := h.1.rows symbol minute
  have hmin := sameMinute_filter events symbol minute
  generalize (events.filter fun e => e.symbol = symbol ∧
    floorTime e.providerTimestamp 60 = minute) =
    qs at hrow hmin
  by_cases hne : qs = []
  · subst hne
    rw [← Except.ok.inj hrow]
    rfl
  · obtain ⟨c, hfold, hagg, -, -⟩ := foldQuotes_spec hmin hne
    rw [Except.ok.inj (hrow.symm.trans hfold)]
    exact hagg.summary.count

/-- An entry that is delivered and not acknowledged is pending, and a worker that calls
`_claim_stale` again and again, and comes past more entries than are delivered, gets it once it has
been idle for long enough: how many calls miss it is bounded by what is pending at the start. -/
def Reclaimed (cfg : Settings) (st : State) : Prop :=
  ∀ id < st.shared.pending.group.delivered, id ∉ st.shared.pending.group.acked →
    id ∈ st.shared.pending.pel.map PendingEntry.id ∧
      ∀ i more k left st', Misses cfg i id st more k left st' →
        k ≤ st.shared.pending.pel.length + more + 1 + id

/-- In every run, the entries that are acknowledged are settled, each event is counted once, and the
entries that are not acknowledged are claimed again by a worker that comes past more than is
delivered. -/
theorem countedOnce_of_path (cfg : Settings) (t₀ : Timestamp) {st : State}
    (h : Path (step cfg) anyStep (.init t₀) st) :
    AckedSettled cfg st.shared ∧ Counted st.shared ∧ Reclaimed cfg st := by
  have hinv : Inv cfg st :=
    h.invariant (Inv cfg) (inv_init cfg t₀) fun _ _ _ hinv _ hstep => inv_step hinv hstep
  obtain ⟨events, hevents⟩ := hinv.holds
  refine ⟨hinv.acked, hevents.counted,
    fun id hid hacked => ⟨?_, fun i more k left st' hmisses => ?_⟩⟩
  · exact (st.shared.pending.mem_pel id).2 ⟨hid, hacked⟩
  · exact misses_le hinv hmisses

/-- Two deliveries of one event and an entry without a payload. The reply of the first statement is
lost, and the batch is claimed again. -/
def repeatedRun : List Label :=
  [.publish (.quote (.sample 1 0 100)), .publish (.quote (.sample 1 0 100)),
    .publish .missing, .startWorker, .run 0 .ok, .run 0 .ok, .run 0 .lost, .tick 30000000,
    .run 0 .ok, .run 0 .ok,
    .run 0 .ok, .run 0 .ok, .run 0 .ok, .run 0 .ok, .run 0 .ok]

/-- An event that is published twice counts once. -/
theorem countedOnce_repeatedRun : ∃ st : State,
    (st.shared.pending.group.acked = [1, 0] ∧ st.shared.pending.pel.map PendingEntry.id = [2] ∧
      (st.shared.db.candles.find "AAPL" 0).map BaseMinuteCandle.activityCount = some 1) ∧
      AckedSettled {} st.shared ∧ Counted st.shared ∧ Reclaimed {} st := by
  obtain ⟨st, hst, hrun⟩ := Path.exists_of_exec (step {}) anyStep (.init 0) repeatedRun
    (fun st => st.shared.pending.group.acked = [1, 0] ∧
      st.shared.pending.pel.map PendingEntry.id = [2] ∧
      (st.shared.db.candles.find "AAPL" 0).map BaseMinuteCandle.activityCount = some 1) (by decide)
  exact ⟨st, hrun, countedOnce_of_path {} 0 hst⟩

end Runs

end MarketDataGateway.Archive.Worker
