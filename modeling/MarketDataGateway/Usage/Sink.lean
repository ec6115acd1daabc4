import MarketDataGateway.Streams.Consumer

/-!
# The usage sink

`UsageSink` of `usage_sink.py`: `run` and `_persist`. Any number of sinks read the usage stream,
each under a consumer name of its own, and insert its records into PostgreSQL. A sink reads entries
that have not been delivered to anyone (`XREADGROUP` of `>`), and nothing else: an entry that is
dropped with the rest of a batch stays pending for ever (`stranded_step`).

`Good` is what holds of a sink as long as no batch is dropped. Then it can go on until all of the
batch is inserted or in the dead-letter stream (`Good.exists_ended`).
-/

namespace MarketDataGateway.Usage

open Lib Streams
open Pipeline (Outcome)

/-- The values that `_persist` reads from the fields of an entry. -/
structure UsageEntry where
  /-- `idempotency_key`. -/
  idempotencyKey : String
  /-- `client_id`. -/
  clientId : String
  /-- `event_type`. -/
  eventType : String
  /-- `quantity`. -/
  quantity : ℤ
  /-- `metadata`, as `json.dumps` writes it. -/
  metadata : String
  /-- `created_at`, if there is one. -/
  createdAt : Option Timestamp
  deriving DecidableEq

/-- The fields of an entry of the usage stream. -/
inductive Fields
  /-- `_persist` raises while it reads them. -/
  | rejected (err : PyError)
  /-- `_persist` reads the values of a record. -/
  | record (entry : UsageEntry)
  deriving DecidableEq

/-- A row of `usage_records`. -/
structure UsageRecord where
  /-- `idempotency_key`. -/
  idempotencyKey : String
  /-- `client_id`. -/
  clientId : String
  /-- `event_type`. -/
  eventType : String
  /-- `quantity`. -/
  quantity : ℤ
  /-- `metadata`. -/
  metadata : String
  /-- `created_at`. -/
  createdAt : Timestamp
  deriving DecidableEq

/-- The row that `_persist` inserts at the time `clock`. -/
def UsageEntry.toRecord (entry : UsageEntry) (clock : Timestamp) : UsageRecord where
  idempotencyKey := entry.idempotencyKey
  clientId := entry.clientId
  eventType := entry.eventType
  quantity := entry.quantity
  metadata := entry.metadata
  createdAt := entry.createdAt.getD clock

/-- The table `usage_records`. -/
structure UsageTable where
  /-- The rows. -/
  rows : List UsageRecord
  /-- The primary key is unique. -/
  pk : (rows.map UsageRecord.idempotencyKey).Nodup

namespace UsageTable

/-- No row. -/
def empty : UsageTable := ⟨[], List.nodup_nil⟩

/-- There is a row with the key. -/
def Has (t : UsageTable) (key : String) : Prop := key ∈ t.rows.map UsageRecord.idempotencyKey

instance (t : UsageTable) (key : String) : Decidable (t.Has key) :=
  inferInstanceAs (Decidable (_ ∈ _))

/-- `ON CONFLICT (idempotency_key) DO NOTHING`. -/
def put (t : UsageTable) (row : UsageRecord) : UsageTable :=
  if h : t.Has row.idempotencyKey then t
  else ⟨row :: t.rows, List.nodup_cons.2 ⟨h, t.pk⟩⟩

end UsageTable

/-- The quantity is one of `usage_records`: a `BIGINT` that passes the `CHECK`. -/
def UsageEntry.Insertable (entry : UsageEntry) : Prop :=
  0 ≤ entry.quantity ∧ entry.quantity < 2 ^ 63

instance (entry : UsageEntry) : Decidable entry.Insertable := inferInstanceAs (Decidable (_ ∧ _))

/-- The statement `_INSERT_USAGE`. -/
def insertUsage (t : UsageTable) (row : UsageRecord) : Except PyError UsageTable :=
  if row.quantity < -2 ^ 63 ∨ 2 ^ 63 ≤ row.quantity then
    .error (.valueError ("invalid input for query argument $4: " ++ toString row.quantity ++
      " (value out of int64 range)"))
  else if row.quantity < 0 then .error (.checkViolation "usage_records")
  else .ok (t.put row)

/-- What the sinks share. -/
structure Shared where
  /-- The usage stream. -/
  stream : GroupStream Fields PyError
  /-- The table. -/
  table : UsageTable

/-- The program counter of a sink: the next command. -/
inductive Pc
  /-- `run`: `XREADGROUP`. -/
  | reading
  /-- `_persist`: `_INSERT_USAGE`. -/
  | insert (w : Work Fields) (entry : UsageEntry)
  /-- `_persist`: `XACK`. -/
  | ack (w : Work Fields)
  /-- `increment_retry`, after an exception. -/
  | retry (w : Work Fields) (err : PyError)
  /-- `move_to_dead_letter`. -/
  | deadLetter (w : Work Fields) (err : PyError) (retryCount : ℕ)
  /-- `XACK` of a dead letter. -/
  | deadAck (w : Work Fields)
  /-- The sink has stopped. -/
  | stopped

/-- The next entry of the batch, or the next batch. -/
def nextEntry : List (ℕ × Fields) → Pc
  | [] => .reading
  | (id, fields) :: rest =>
    match fields with
    | .rejected err => .retry ⟨id, fields, rest⟩ err
    | .record entry => .insert ⟨id, fields, rest⟩ entry

/-- One step of a sink, at the time `clock`. -/
def sinkStep (cfg : Settings) (clock : Timestamp) (s : Shared) (outcome : Outcome) :
    Pc → Option (Shared × Pc)
  | .reading =>
    let effect := { s with stream := s.stream.readGroup 100 }
    some (send outcome s effect (effect, nextEntry (s.stream.group.fresh 100)) .reading)
  | .insert w entry =>
    match insertUsage s.table (entry.toRecord clock) with
    | .error err => some (s, .retry w err)
    | .ok table =>
      let effect := { s with table := table }
      some (send outcome s effect (effect, .ack w) (.retry w .databaseError))
  | .ack w =>
    let effect := { s with stream := s.stream.ack w.id }
    some (send outcome s effect (effect, nextEntry w.rest) (.retry w .redisError))
  -- From here on, an exception leaves `_persist` and ends the batch.
  | .retry w err =>
    let effect := { s with stream := s.stream.incrementRetry clock w.id }
    let count := s.stream.nextRetry w.id
    some (send outcome s effect
      (effect, if cfg.retryLimit ≤ count then .deadLetter w err count else .reading) .reading)
  | .deadLetter w err retryCount =>
    let letter : DeadLetter Fields PyError := ⟨w.id, w.fields, err, retryCount, clock⟩
    let effect := { s with stream := s.stream.moveToDeadLetter letter }
    some (send outcome s effect (effect, .deadAck w) .reading)
  | .deadAck w =>
    let effect := { s with stream := s.stream.ack w.id }
    some (send outcome s effect (effect, nextEntry w.rest) .reading)
  | .stopped => none

/-- The state of the sinks and of what they share. -/
structure State where
  /-- The clock. -/
  now : Timestamp
  /-- What the sinks share. -/
  shared : Shared
  /-- The sinks, stopped ones included. -/
  sinks : List Pc

/-- No sink and no entry. -/
def State.init (now : Timestamp) : State := ⟨now, ⟨.empty, .empty⟩, []⟩

/-- A step of the system. -/
inductive Label
  /-- An entry joins the usage stream. -/
  | publish (fields : Fields)
  /-- A sink starts, under a new consumer name. -/
  | startSink
  /-- The `i`-th sink takes a step. -/
  | run (i : ℕ) (outcome : Outcome)
  /-- The `i`-th sink stops or crashes. -/
  | stop (i : ℕ)
  /-- The clock advances by `d` microseconds, and retry counters expire. -/
  | tick (d : ℕ)

/-- The steps of the system. -/
def step (cfg : Settings) (st : State) : Label → Option State
  | .publish fields =>
    some { st with shared := { st.shared with stream := st.shared.stream.xadd fields } }
  | .startSink => some { st with sinks := st.sinks ++ [.reading] }
  | .run i outcome =>
    st.sinks[i]?.bind fun pc =>
      (sinkStep cfg st.now st.shared outcome pc).map fun result =>
        { st with shared := result.1, sinks := st.sinks.set i result.2 }
  | .stop i => some { st with sinks := st.sinks.set i .stopped }
  | .tick d =>
    some { st with
      now := st.now + d
      shared := { st.shared with stream := st.shared.stream.expire (st.now + d) } }

/-! ## Entries that are not lost -/

/-- The record of the entry is in `usage_records`. -/
def Inserted (s : Shared) (id : ℕ) : Prop :=
  ∃ entry, s.stream.group.entries[id]? = some (.record entry) ∧ s.table.Has entry.idempotencyKey

/-- The entry is in the dead-letter stream, or its record is in `usage_records` and it is
acknowledged. -/
def Ended (s : Shared) (id : ℕ) : Prop :=
  s.stream.DeadLettered id ∨ Inserted s id ∧ id ∈ s.stream.group.acked

instance (s : Shared) (id : ℕ) : Decidable (Inserted s id) :=
  match h : s.stream.group.entries[id]? with
  | some (.record entry) =>
    decidable_of_iff (s.table.Has entry.idempotencyKey) <| by
      simp only [Inserted, h, Option.some.injEq, Fields.record.injEq, exists_eq_left']
  | some (.rejected _) => isFalse fun ⟨_, hentry, _⟩ => by
      rw [h] at hentry
      cases hentry
  | none => isFalse fun ⟨_, hentry, _⟩ => by
      rw [h] at hentry
      cases hentry

instance (s : Shared) (id : ℕ) : Decidable (Ended s id) := inferInstanceAs (Decidable (_ ∨ _ ∧ _))

/-- A sink takes a step, and its command goes through. -/
def NoFailure (_ : State) (a : Label) : Prop := ∃ i, a = .run i .ok

/-- Every entry that has been delivered is inserted or in the dead-letter stream, or the running
sinks can still get it there. -/
def NoneStranded (cfg : Settings) (st : State) : Prop :=
  ∀ id < st.shared.stream.group.delivered,
    ∃ st', Path (step cfg) NoFailure st st' ∧ Ended st'.shared id

/-- The entries of a sink's batch that it has not come past. -/
def Pc.unfinished : Pc → List ℕ
  | .insert w _ => w.ids
  | .ack w => w.ids
  | .retry w _ => w.ids
  | .deadLetter w _ _ => w.ids
  | .deadAck w => w.ids
  | _ => []

/-- Nothing keeps the entry from being inserted, unless a command fails. -/
def Fields.Insertable : Fields → Prop
  | .rejected _ => False
  | .record entry => entry.Insertable

instance (fields : Fields) : Decidable fields.Insertable :=
  match fields with
  | .rejected _ => isFalse id
  | .record entry => inferInstanceAs (Decidable entry.Insertable)

/-- The sink's next step drops no entry with its batch. The first failure of an entry already counts
as its last one if `retry_limit` is at most one. -/
def Pc.Keeps (cfg : Settings) (s : Shared) (outcome : Outcome) : Pc → Prop
  | .reading => (outcome = .lost → s.stream.group.fresh 100 = []) ∧
      (cfg.retryLimit ≤ 1 ∨ ∀ p ∈ s.stream.group.fresh 100, p.2.Insertable)
  | .insert _ _ => outcome = .ok ∨ cfg.retryLimit ≤ 1
  | .ack w => outcome = .ok ∨ cfg.retryLimit ≤ 1 ∨ outcome = .lost ∧ w.rest = []
  | .retry w _ => outcome = .ok ∨ w.rest = [] ∧ Ended s w.id
  | .deadLetter w _ _ => outcome = .ok ∨ w.rest = [] ∧ (outcome = .lost ∨ Ended s w.id)
  | .deadAck w => outcome = .ok ∨ w.rest = []
  | .stopped => True

instance (cfg : Settings) (s : Shared) (outcome : Outcome) (pc : Pc) :
    Decidable (pc.Keeps cfg s outcome) :=
  match pc with
  | .reading => inferInstanceAs (Decidable (_ ∧ _))
  | .insert _ _ => inferInstanceAs (Decidable (_ ∨ _))
  | .ack _ => inferInstanceAs (Decidable (_ ∨ _))
  | .retry _ _ => inferInstanceAs (Decidable (_ ∨ _))
  | .deadLetter _ _ _ => inferInstanceAs (Decidable (_ ∨ _))
  | .deadAck _ => inferInstanceAs (Decidable (_ ∨ _))
  | .stopped => isTrue trivial

/-- No step drops an entry with its batch, and no sink stops before it has come to the end of
one. -/
def KeepsBatch (cfg : Settings) (st : State) : Label → Prop
  | .run i outcome => ∀ pc ∈ st.sinks[i]?, pc.Keeps cfg st.shared outcome
  | .stop i => ∀ pc ∈ st.sinks[i]?, ∀ id ∈ pc.unfinished, Ended st.shared id
  | _ => True

instance (cfg : Settings) (st : State) (a : Label) : Decidable (KeepsBatch cfg st a) :=
  match a with
  | .run i outcome =>
    inferInstanceAs (Decidable (∀ pc ∈ st.sinks[i]?, pc.Keeps cfg st.shared outcome))
  | .stop i =>
    inferInstanceAs (Decidable (∀ pc ∈ st.sinks[i]?, ∀ id ∈ pc.unfinished, Ended st.shared id))
  | .publish _ => isTrue trivial
  | .startSink => isTrue trivial
  | .tick _ => isTrue trivial

/-! ## What is not undone -/

/-- Nothing that has been done is undone. -/
structure Grows (s s' : Shared) : Prop where
  group : s.stream.group.Extends s'.stream.group
  deadLetters : s.stream.deadLetters ⊆ s'.stream.deadLetters
  table : ∀ key, s.table.Has key → s'.table.Has key

section Grows

variable {cfg : Settings} {clock : Timestamp} {s s' : Shared} {pc pc' : Pc} {outcome : Outcome}
  {id : ℕ} {w : Work Fields} {entry : UsageEntry}

/-- The table has the key of a row that is put into it. -/
theorem UsageTable.has_put (t : UsageTable) (row : UsageRecord) :
    (t.put row).Has row.idempotencyKey := by
  unfold UsageTable.put
  split_ifs with h
  · exact h
  · exact List.mem_cons_self

/-- It loses none. -/
theorem UsageTable.Has.put {t : UsageTable} {key : String} (h : t.Has key) (row : UsageRecord) :
    (t.put row).Has key := by
  unfold UsageTable.put
  split_ifs
  · exact h
  · exact List.mem_cons_of_mem _ h

/-- The statement inserts an insertable record. -/
theorem UsageEntry.Insertable.insertUsage_eq (h : entry.Insertable) (t : UsageTable)
    (clock : Timestamp) : insertUsage t (entry.toRecord clock) =
    .ok (t.put (entry.toRecord clock)) := by
  have hlow : 0 ≤ (entry.toRecord clock).quantity := h.1
  have hhigh : (entry.toRecord clock).quantity < 2 ^ 63 := h.2
  unfold insertUsage
  rw [if_neg (by omega), if_neg (by omega)]

/-- What the statement does if it does not raise. -/
theorem insertUsage_eq_ok {t t' : UsageTable} {row : UsageRecord} (h : insertUsage t row = .ok t') :
    t' = t.put row := by
  unfold insertUsage at h
  split_ifs at h
  exact (Except.ok.inj h).symm

/-- Nothing happens to what is shared. -/
theorem Grows.refl (s : Shared) : Grows s s := ⟨.refl _, List.Subset.refl _, fun _ h => h⟩

/-- What has been inserted stays inserted. -/
theorem Inserted.mono (h : Inserted s id) (hs : Grows s s') : Inserted s' id := by
  obtain ⟨entry, hentry, hkey⟩ := h
  exact ⟨entry, hs.group.entries _ _ hentry, hs.table _ hkey⟩

/-- What has ended stays ended. -/
theorem Ended.mono (h : Ended s id) (hs : Grows s s') : Ended s' id := by
  rcases h with ⟨letter, hletter, hid⟩ | ⟨hinserted, hacked⟩
  · exact Or.inl ⟨letter, hs.deadLetters hletter, hid⟩
  · exact Or.inr ⟨hinserted.mono hs, hs.group.acked id hacked⟩

/-- What changes nothing but the retry counters undoes nothing. -/
theorem Grows.of_retries (s : Shared) (retries : ℕ → Option (Pipeline.Expiring ℕ)) :
    Grows s { s with stream := { s.stream with retries := retries } } :=
  ⟨.refl _, List.Subset.refl _, fun _ h => h⟩

/-- To read from the group grows what is shared. -/
theorem grows_readGroup (s : Shared) (count : ℕ) :
    Grows s { s with stream := s.stream.readGroup count } :=
  ⟨ConsumerGroup.extends_xreadgroup _ _, List.Subset.refl _, fun _ h => h⟩

/-- To acknowledge grows what is shared. -/
theorem grows_ack (s : Shared) (id : ℕ) : Grows s { s with stream := s.stream.ack id } :=
  ⟨ConsumerGroup.extends_xack _ _, List.Subset.refl _, fun _ h => h⟩

/-- To insert a row grows what is shared. -/
theorem grows_put (s : Shared) (row : UsageRecord) : Grows s { s with table := s.table.put row } :=
  ⟨.refl _, List.Subset.refl _, fun _ h => h.put row⟩

/-- To move an entry to the dead letters grows what is shared. -/
theorem grows_moveToDeadLetter (s : Shared) (letter : DeadLetter Fields PyError) :
    Grows s { s with stream := s.stream.moveToDeadLetter letter } :=
  ⟨.refl _, List.subset_cons_self _ _, fun _ h => h⟩

/-- To publish grows what is shared. -/
theorem grows_publish (s : Shared) (fields : Fields) :
    Grows s { s with stream := s.stream.xadd fields } :=
  ⟨ConsumerGroup.extends_xadd _ _, List.Subset.refl _, fun _ h => h⟩

end Grows

/-! ## What holds of a sink while no batch is dropped -/

/-- Nothing keeps the entries from being inserted or moved to the dead-letter stream. -/
def Processable (cfg : Settings) (batch : List (ℕ × Fields)) : Prop :=
  cfg.retryLimit ≤ 1 ∨ ∀ p ∈ batch, p.2.Insertable

/-- The exceptions that leave `_persist` from here on drop nothing. -/
def LastFailure (cfg : Settings) (s : Shared) (w : Work Fields) : Prop :=
  cfg.retryLimit ≤ 1 ∨ w.rest = [] ∧ Ended s w.id

/-- What holds of a sink. -/
def Good (cfg : Settings) (s : Shared) : Pc → Prop
  | .reading => True
  | .stopped => True
  | .insert w entry =>
    s.stream.group.Delivered w.batch ∧ Processable cfg w.batch ∧ w.fields = .record entry
  | .ack w => s.stream.group.Delivered w.batch ∧ Processable cfg w.rest ∧ Inserted s w.id
  | .retry w _ => s.stream.group.Delivered w.batch ∧ LastFailure cfg s w
  | .deadLetter w _ _ => s.stream.group.Delivered w.batch ∧ LastFailure cfg s w
  | .deadAck w =>
    s.stream.group.Delivered w.batch ∧ Processable cfg w.rest ∧ s.stream.DeadLettered w.id

section Good

variable {cfg : Settings} {clock : Timestamp} {s s' : Shared} {pc pc' : Pc} {outcome : Outcome}
  {id : ℕ} {w : Work Fields} {batch : List (ℕ × Fields)}

/-- The last failure stays what it was. -/
theorem LastFailure.mono (h : LastFailure cfg s w) (hs : Grows s s') : LastFailure cfg s' w :=
  h.imp id fun hended => ⟨hended.1, hended.2.mono hs⟩

/-- What holds of a sink is kept by the steps of others. -/
theorem Good.mono (h : Good cfg s pc) (hs : Grows s s') : Good cfg s' pc := by
  cases pc with
  | reading => trivial
  | stopped => trivial
  | insert w entry => exact ⟨h.1.mono hs.group, h.2⟩
  | ack w => exact ⟨h.1.mono hs.group, h.2.1, h.2.2.mono hs⟩
  | retry w err => exact ⟨h.1.mono hs.group, h.2.mono hs⟩
  | deadLetter w err retryCount => exact ⟨h.1.mono hs.group, h.2.mono hs⟩
  | deadAck w =>
    obtain ⟨letter, hletter, hid⟩ := h.2.2
    exact ⟨h.1.mono hs.group, h.2.1, letter, hs.deadLetters hletter, hid⟩

/-- The next entry of a batch that has been delivered and can be processed. -/
theorem good_nextEntry (hbatch : s.stream.group.Delivered batch) (hok : Processable cfg batch) :
    Good cfg s (nextEntry batch) := by
  unfold nextEntry
  split
  · trivial
  · next id fields rest =>
    split
    · next err =>
      refine ⟨hbatch, Or.inl (hok.resolve_right fun hall => ?_)⟩
      exact hall _ List.mem_cons_self
    · exact ⟨hbatch, hok, rfl⟩

/-- The entries that a sink has not come past when it comes to a batch. -/
theorem unfinished_nextEntry (batch : List (ℕ × Fields)) :
    (nextEntry batch).unfinished = batch.map Prod.fst := by
  unfold nextEntry
  split
  · rfl
  · split <;> rfl

/-- The rest of a batch can be processed if the batch can. -/
theorem Processable.rest (h : Processable cfg w.batch) : Processable cfg w.rest :=
  h.imp_right fun hall p hp => hall p (List.mem_cons_of_mem _ hp)

/-- `nextEntry` after an entry that has ended. -/
theorem ended_or_unfinished (hended : Ended s w.id) :
    ∀ id ∈ w.ids, Ended s id ∨ id ∈ (nextEntry w.rest).unfinished := by
  intro id hid
  rw [unfinished_nextEntry]
  rcases List.mem_cons.1 hid with rfl | hid
  · exact Or.inl hended
  · exact Or.inr hid

/-- What a step does that drops no entry. -/
structure Continues (cfg : Settings) (s : Shared) (pc : Pc) (s' : Shared) (pc' : Pc) : Prop where
  grows : Grows s s'
  good : Good cfg s' pc'
  /-- The sink comes past entries that have ended. -/
  unfinished : ∀ id ∈ pc.unfinished, Ended s' id ∨ id ∈ pc'.unfinished
  /-- It has the entries that are delivered. -/
  delivered : ∀ id < s'.stream.group.delivered, id < s.stream.group.delivered ∨ id ∈ pc'.unfinished

/-- An exception that leaves `_persist` drops nothing if the batch has ended. -/
theorem continues_reading (hgrows : Grows s s')
    (hdelivered : s'.stream.group.delivered = s.stream.group.delivered)
    (hended : ∀ id ∈ pc.unfinished, Ended s' id) : Continues cfg s pc s' .reading where
  grows := hgrows
  good := trivial
  unfinished id hid := Or.inl (hended id hid)
  delivered _ hid := Or.inl (hdelivered ▸ hid)

/-- An entry of a batch without a rest is the one that the sink works on. -/
theorem eq_of_mem_ids (hrest : w.rest = []) (hid : id ∈ w.ids) : id = w.id := by
  unfold Work.ids at hid
  rw [hrest] at hid
  exact List.mem_singleton.1 hid

/-- The sink goes on with the same batch. -/
theorem continues_of_unfinished_eq (hgrows : Grows s s')
    (hdelivered : s'.stream.group.delivered = s.stream.group.delivered) (hgood : Good cfg s' pc')
    (hunfinished : pc'.unfinished = pc.unfinished) : Continues cfg s pc s' pc' where
  grows := hgrows
  good := hgood
  unfinished _ hid := Or.inr (hunfinished ▸ hid)
  delivered _ hid := Or.inl (hdelivered ▸ hid)

/-- The sink goes on with the rest of the batch. -/
theorem continues_nextEntry (hgrows : Grows s s')
    (hdelivered : s'.stream.group.delivered = s.stream.group.delivered)
    (hunfinished : pc.unfinished = w.ids) (hbatch : s.stream.group.Delivered w.batch)
    (hok : Processable cfg w.rest) (hended : Ended s' w.id) :
    Continues cfg s pc s' (nextEntry w.rest) where
  grows := hgrows
  good := good_nextEntry ((delivered_rest hbatch).mono hgrows.group) hok
  unfinished id hid := ended_or_unfinished hended id (hunfinished ▸ hid)
  delivered _ hid := Or.inl (hdelivered ▸ hid)

/-- A step that drops no entry keeps what holds of the sink, and leaves no entry behind. -/
theorem sinkStep_continues (hgood : Good cfg s pc) (hkeeps : pc.Keeps cfg s outcome)
    (h : sinkStep cfg clock s outcome pc = some (s', pc')) : Continues cfg s pc s' pc' := by
  cases pc with
  | stopped => cases h
  | reading =>
    obtain ⟨hlost, hok⟩ := hkeeps
    refine send_elim (Continues cfg s .reading) (Option.some.inj h) (fun _ => ?_) (fun _ => ?_)
      fun hout => ?_
    · -- The entries read are new, and become the batch.
      have hgrows := grows_readGroup s 100
      have hnew := ConsumerGroup.delivered_fresh s.stream.group 100
      refine ⟨hgrows, good_nextEntry hnew hok, fun id hid => ?_, fun id hid => ?_⟩
      · cases hid
      · rw [unfinished_nextEntry]
        exact ConsumerGroup.lt_delivered_xreadgroup.1 hid
    · exact continues_reading (.refl s) rfl fun _ hid => by cases hid
    · have hnone := hlost hout
      refine continues_reading (grows_readGroup s 100) ?_ fun _ hid => by cases hid
      change s.stream.group.delivered + (s.stream.group.fresh 100).length = _
      rw [hnone]
      rfl
  | insert w entry =>
    obtain ⟨hbatch, hok, hfields⟩ := hgood
    have hentry := (hbatch _ List.mem_cons_self).2
    rw [hfields] at hentry
    rw [sinkStep] at h
    cases hinsert : insertUsage s.table (entry.toRecord clock) with
    | error err =>
      -- The statement raises only if the record is not insertable.
      rw [hinsert] at h
      obtain ⟨rfl, rfl⟩ := Prod.mk.inj (Option.some.inj h)
      have hlimit : cfg.retryLimit ≤ 1 := by
        refine hok.resolve_right fun hall => ?_
        have hins : entry.Insertable := by
          have := hall _ List.mem_cons_self
          rwa [hfields] at this
        rw [hins.insertUsage_eq] at hinsert
        cases hinsert
      exact continues_of_unfinished_eq (.refl s) rfl ⟨hbatch, Or.inl hlimit⟩ rfl
    | ok table =>
      rw [hinsert] at h
      obtain rfl := insertUsage_eq_ok hinsert
      have hgrows := grows_put s (entry.toRecord clock)
      refine send_elim (Continues cfg s (.insert w entry)) (Option.some.inj h) (fun _ => ?_)
        (fun hout => ?_) fun hout => ?_
      · have hinserted : Inserted { s with table := s.table.put (entry.toRecord clock) } w.id :=
          ⟨entry, hentry, UsageTable.has_put _ _⟩
        exact continues_of_unfinished_eq hgrows rfl ⟨hbatch.mono hgrows.group,
          hok.rest, hinserted⟩ rfl
      · have hlimit := hkeeps.resolve_left (by rw [hout]; decide)
        exact continues_of_unfinished_eq (.refl s) rfl ⟨hbatch, Or.inl hlimit⟩ rfl
      · have hlimit := hkeeps.resolve_left (by rw [hout]; decide)
        exact continues_of_unfinished_eq hgrows rfl ⟨hbatch.mono hgrows.group, Or.inl hlimit⟩ rfl
  | ack w =>
    obtain ⟨hbatch, hok, hinserted⟩ := hgood
    have hgrows := grows_ack s w.id
    have hended : Ended { s with stream := s.stream.ack w.id } w.id := by
      refine Or.inr ⟨hinserted.mono hgrows, ConsumerGroup.mem_acked_xack.2 (Or.inr ⟨rfl, ?_⟩)⟩
      exact (hbatch _ List.mem_cons_self).1
    -- An ack whose reply is lost has ended the entry all the same.
    refine send_elim (Continues cfg s (.ack w)) (Option.some.inj h) (fun _ => ?_) (fun hout => ?_)
      fun hout => ?_
    · exact continues_nextEntry hgrows rfl rfl hbatch hok hended
    · have hlimit : cfg.retryLimit ≤ 1 := by
        rcases hkeeps with hout' | hlimit | ⟨hout', -⟩
        · rw [hout] at hout'
          cases hout'
        · exact hlimit
        · rw [hout] at hout'
          cases hout'
      exact continues_of_unfinished_eq (.refl s) rfl ⟨hbatch, Or.inl hlimit⟩ rfl
    · have hlast : LastFailure cfg { s with stream := s.stream.ack w.id } w := by
        rcases hkeeps with hout' | hlimit | ⟨-, hrest⟩
        · rw [hout] at hout'
          cases hout'
        · exact Or.inl hlimit
        · exact Or.inr ⟨hrest, hended⟩
      exact continues_of_unfinished_eq hgrows rfl ⟨hbatch.mono hgrows.group, hlast⟩ rfl
  | retry w err =>
    obtain ⟨hbatch, hlast⟩ := hgood
    have hgrows := Grows.of_retries s (s.stream.incrementRetry clock w.id).retries
    have hdrop : outcome ≠ .ok → ∀ id ∈ w.ids, Ended s id := fun hout id hid => by
      obtain ⟨hrest, hended⟩ := hkeeps.resolve_left hout
      rwa [eq_of_mem_ids hrest hid]
    refine send_elim (Continues cfg s (.retry w err)) (Option.some.inj h) (fun _ => ?_)
      (fun hout => ?_) fun hout => ?_
    · dsimp only
      split_ifs with hcount
      · exact continues_of_unfinished_eq hgrows rfl ⟨hbatch.mono hgrows.group,
          hlast.mono hgrows⟩ rfl
      · -- Below the limit the exception is raised again.
        have hpos : (1 : ℤ) ≤ s.stream.nextRetry w.id := by
          unfold Failures.nextRetry
          push_cast
          omega
        obtain ⟨hrest, hended⟩ := hlast.resolve_left (by omega)
        refine continues_reading hgrows rfl fun id hid => ?_
        rw [eq_of_mem_ids hrest hid]
        exact hended.mono hgrows
    · exact continues_reading (.refl s) rfl (hdrop (by rw [hout]; decide))
    · exact continues_reading hgrows rfl fun id hid =>
        (hdrop (by rw [hout]; decide) id hid).mono hgrows
  | deadLetter w err retryCount =>
    obtain ⟨hbatch, hlast⟩ := hgood
    have hgrows := grows_moveToDeadLetter s ⟨w.id, w.fields, err, retryCount, clock⟩
    have hdead : (s.stream.moveToDeadLetter ⟨w.id, w.fields, err, retryCount, clock⟩).DeadLettered
        w.id := ⟨_, List.mem_cons_self, rfl⟩
    refine send_elim (Continues cfg s (.deadLetter w err retryCount)) (Option.some.inj h)
      (fun _ => ?_) (fun hout => ?_) fun hout => ?_
    · have hok : Processable cfg w.rest := hlast.imp_right fun hrest p hp => by
        rw [hrest.1] at hp
        exact absurd hp List.not_mem_nil
      exact continues_of_unfinished_eq hgrows rfl ⟨hbatch.mono hgrows.group, hok, hdead⟩ rfl
    · obtain ⟨hrest, hended⟩ := hkeeps.resolve_left (by rw [hout]; decide)
      refine continues_reading (.refl s) rfl fun id hid => ?_
      rw [eq_of_mem_ids hrest hid]
      exact hended.resolve_left (by rw [hout]; decide)
    · obtain ⟨hrest, -⟩ := hkeeps.resolve_left (by rw [hout]; decide)
      refine continues_reading hgrows rfl fun id hid => ?_
      rw [eq_of_mem_ids hrest hid]
      exact Or.inl hdead
  | deadAck w =>
    -- The entry is among the dead letters already, whatever becomes of the ack.
    obtain ⟨hbatch, hok, hdead⟩ := hgood
    have hgrows := grows_ack s w.id
    have hdrop : outcome ≠ .ok → ∀ id ∈ w.ids, Ended s id := fun hout id hid => by
      rw [eq_of_mem_ids (hkeeps.resolve_left hout) hid]
      exact Or.inl hdead
    refine send_elim (Continues cfg s (.deadAck w)) (Option.some.inj h) (fun _ => ?_)
      (fun hout => ?_) fun hout => ?_
    · exact continues_nextEntry hgrows rfl rfl hbatch hok (Or.inl hdead)
    · exact continues_reading (.refl s) rfl (hdrop (by rw [hout]; decide))
    · exact continues_reading hgrows rfl fun id hid =>
        (hdrop (by rw [hout]; decide) id hid).mono hgrows

end Good

/-! ## Runs -/

/-- How many commands a sink sends at most before it reads again, if they go through. -/
def Pc.remaining : Pc → ℕ
  | .insert w _ => 4 * w.rest.length + 4
  | .ack w => 4 * w.rest.length + 3
  | .retry w _ => 4 * w.rest.length + 3
  | .deadLetter w _ _ => 4 * w.rest.length + 2
  | .deadAck w => 4 * w.rest.length + 1
  | _ => 0

/-- What holds of the state while no batch is dropped. -/
structure Inv (cfg : Settings) (st : State) : Prop where
  good : ∀ pc ∈ st.sinks, Good cfg st.shared pc
  /-- An entry that has been delivered has ended, or a sink has it. -/
  covered : ∀ id < st.shared.stream.group.delivered,
    Ended st.shared id ∨ ∃ pc ∈ st.sinks, id ∈ pc.unfinished

section Runs

variable {cfg : Settings} {st st' : State} {a : Label} {i id : ℕ} {outcome : Outcome} {pc : Pc}

/-- A step of a sink. -/
theorem step_run (h : step cfg st (.run i outcome) = some st') :
    ∃ pc s' pc', st.sinks[i]? = some pc ∧
      sinkStep cfg st.now st.shared outcome pc = some (s', pc') ∧
      st' = { st with shared := s', sinks := st.sinks.set i pc' } := by
  obtain ⟨pc, hi, hstep⟩ := Option.bind_eq_some_iff.1 h
  obtain ⟨⟨s', pc'⟩, hs, rfl⟩ := Option.map_eq_some_iff.1 hstep
  exact ⟨pc, s', pc', hi, hs, rfl⟩

/-- A batch has at most four steps for each of its entries. -/
theorem remaining_nextEntry (batch : List (ℕ × Fields)) :
    (nextEntry batch).remaining ≤ 4 * batch.length := by
  unfold nextEntry
  split
  · exact le_refl _
  · split
    · simp only [Pc.remaining, List.length_cons]
      omega
    · simp only [Pc.remaining, List.length_cons]
      omega

/-- A sink with a batch has a next command, and is closer to the end of the batch after it. -/
theorem exists_sinkStep (cfg : Settings) (clock : Timestamp) (s : Shared)
    (hid : id ∈ pc.unfinished) :
    ∃ s' pc', sinkStep cfg clock s .ok pc = some (s', pc') ∧ pc'.remaining < pc.remaining := by
  cases pc with
  | reading => cases hid
  | stopped => cases hid
  | insert w entry =>
    rw [sinkStep]
    cases insertUsage s.table (entry.toRecord clock) with
    | error err => exact ⟨_, _, rfl, Nat.lt_succ_self _⟩
    | ok table => exact ⟨_, _, rfl, Nat.lt_succ_self _⟩
  | ack w =>
    have hle := remaining_nextEntry w.rest
    exact ⟨_, _, rfl, lt_of_le_of_lt hle (by simp only [Pc.remaining]; omega)⟩
  | retry w err =>
    refine ⟨_, _, rfl, ?_⟩
    split_ifs
    · exact Nat.lt_succ_self _
    · exact Nat.succ_pos _
  | deadLetter w err retryCount => exact ⟨_, _, rfl, Nat.lt_succ_self _⟩
  | deadAck w =>
    have hle := remaining_nextEntry w.rest
    exact ⟨_, _, rfl, lt_of_le_of_lt hle (by simp only [Pc.remaining]; omega)⟩

/-- A command that goes through drops nothing, unless it reads entries that cannot be processed. -/
theorem keeps_ok {s : Shared} (hid : id ∈ pc.unfinished) : pc.Keeps cfg s .ok := by
  cases pc with
  | reading => cases hid
  | stopped => cases hid
  | _ => exact Or.inl rfl

/-- A sink gets each entry of its batch to its end, if no command fails. -/
theorem Good.exists_ended (hi : st.sinks[i]? = some pc) (hgood : Good cfg st.shared pc)
    (hid : id ∈ pc.unfinished) :
    ∃ st', Path (step cfg) NoFailure st st' ∧ Ended st'.shared id := by
  induction hn : pc.remaining using Nat.strong_induction_on generalizing st pc with
  | _ n ih =>
    obtain ⟨s', pc', hstep, hlt⟩ := exists_sinkStep cfg st.now st.shared hid
    have hcont := sinkStep_continues hgood (keeps_ok hid) hstep
    set st₁ : State := { st with shared := s', sinks := st.sinks.set i pc' } with hst₁
    have hrun : step cfg st (.run i .ok) = some st₁ := by
      rw [step, hi, Option.bind_some, hstep]
      rfl
    have hpath : Path (step cfg) NoFailure st st₁ := Lib.Path.refl.tail _ ⟨i, rfl⟩ hrun
    rcases hcont.unfinished id hid with hended | hid'
    · exact ⟨st₁, hpath, hended⟩
    · have hi' : st₁.sinks[i]? = some pc' := by
        obtain ⟨hlen, -⟩ := List.getElem?_eq_some_iff.1 hi
        exact List.getElem?_set_self hlen
      obtain ⟨st₂, hpath', hended⟩ := ih _ (hn ▸ hlt) hi' hcont.good hid' rfl
      exact ⟨st₂, hpath.trans hpath', hended⟩

/-- An entry that ends stays so, and a sink that has an entry keeps it, when others take steps. -/
theorem covered_of_grows {s' : Shared} {sinks' : List Pc} (h : Inv cfg st)
    (hgrows : Grows st.shared s') (hkept : ∀ id, (∃ pc ∈ st.sinks, id ∈ pc.unfinished) →
      Ended s' id ∨ ∃ pc ∈ sinks', id ∈ pc.unfinished)
    (hid : id < st.shared.stream.group.delivered) :
    Ended s' id ∨ ∃ pc ∈ sinks', id ∈ pc.unfinished := by
  rcases h.covered id hid with hended | hheld
  · exact Or.inl (hended.mono hgrows)
  · exact hkept id hheld

/-- Every step that drops no entry keeps the invariant. -/
theorem inv_step (h : Inv cfg st) (hok : KeepsBatch cfg st a) (hstep : step cfg st a = some st') :
    Inv cfg st' := by
  cases a with
  | publish fields =>
    obtain rfl := Option.some.inj hstep
    have hgrows := grows_publish st.shared fields
    exact ⟨fun pc hpc => (h.good pc hpc).mono hgrows,
      fun id hid => covered_of_grows h hgrows (fun _ hheld => Or.inr hheld) hid⟩
  | startSink =>
    obtain rfl := Option.some.inj hstep
    refine ⟨fun pc hpc => ?_, fun id hid => covered_of_grows h (.refl _)
      (fun _ hheld => Or.inr (exists_mem_append hheld _)) hid⟩
    rcases List.mem_append.1 hpc with hpc | hpc
    · exact h.good pc hpc
    · rw [List.mem_singleton.1 hpc]
      trivial
  | run i outcome =>
    obtain ⟨pc, s', pc', hi, hsink, rfl⟩ := step_run hstep
    have hcont := sinkStep_continues (h.good pc (List.mem_of_getElem? hi)) (hok pc hi) hsink
    have hkept : ∀ id, (∃ pc ∈ st.sinks, id ∈ pc.unfinished) →
        Ended s' id ∨ ∃ pc ∈ st.sinks.set i pc', id ∈ pc.unfinished := by
      intro id hheld
      by_cases hended : Ended s' id
      · exact Or.inl hended
      · exact Or.inr (exists_mem_set hi hheld fun hid =>
          (hcont.unfinished id hid).resolve_left hended)
    refine ⟨forall_mem_set (fun pc hpc => (h.good pc hpc).mono hcont.grows) hcont.good,
      fun id hid => ?_⟩
    rcases hcont.delivered id hid with hid | hid
    · exact covered_of_grows h hcont.grows hkept hid
    · exact Or.inr (exists_mem_set_self hi hid)
  | stop i =>
    obtain rfl := Option.some.inj hstep
    refine ⟨forall_mem_set h.good trivial, fun id hid => ?_⟩
    refine covered_of_grows h (.refl _) (fun id hheld => ?_) hid
    cases hi : st.sinks[i]? with
    | none =>
      right
      rwa [List.set_eq_of_length_le (List.getElem?_eq_none_iff.1 hi)]
    | some pc =>
      -- What the sink leaves behind has ended.
      by_cases hended : Ended st.shared id
      · exact Or.inl hended
      · exact Or.inr (exists_mem_set hi hheld fun hid => absurd (hok pc hi id hid) hended)
  | tick d =>
    obtain rfl := Option.some.inj hstep
    have hgrows := Grows.of_retries st.shared (st.shared.stream.expire (st.now + d)).retries
    exact ⟨fun pc hpc => (h.good pc hpc).mono hgrows,
      fun id hid => covered_of_grows h hgrows (fun _ hheld => Or.inr hheld) hid⟩

/-- The invariant holds at the start. -/
theorem inv_init (cfg : Settings) (t₀ : Timestamp) : Inv cfg (.init t₀) :=
  ⟨fun _ hpc => absurd hpc List.not_mem_nil, fun _ hid => absurd hid (Nat.not_lt_zero _)⟩

/-- No entry is stranded in a run whose steps drop none. -/
theorem noneStranded_of_keepsBatch (cfg : Settings) (t₀ : Timestamp) {st : State}
    (h : Path (step cfg) (KeepsBatch cfg) (.init t₀) st) : NoneStranded cfg st := by
  have hinv : Inv cfg st :=
    h.invariant (Inv cfg) (inv_init cfg t₀) fun _ _ _ hinv hok hstep => inv_step hinv hok hstep
  intro id hid
  rcases hinv.covered id hid with hended | ⟨pc, hpc, hin⟩
  · exact ⟨st, .refl, hended⟩
  · obtain ⟨i, hi⟩ := List.mem_iff_getElem?.1 hpc
    exact Good.exists_ended hi (hinv.good pc hpc) hin

/-- A record of one quote that was delivered to a client. -/
def sampleUsage (idempotencyKey : String) : UsageEntry :=
  ⟨idempotencyKey, "client", "market_data_delivered", 1, "{}", none⟩

/-- Two records join the stream, and a sink reads both. -/
def firstRead : List Label :=
  [.publish (.record (sampleUsage "first")), .publish (.record (sampleUsage "second")), .startSink,
    .run 0 .ok]

/-- The two records are delivered, and the sink has inserted neither. -/
theorem noneStranded_firstRead :
    ∃ st : State, (st.shared.stream.group.delivered = 2 ∧ st.shared.table.rows = []) ∧
      NoneStranded {} st := by
  obtain ⟨st, hst, hread⟩ := Path.exists_of_exec (step {}) (KeepsBatch {}) (.init 0) firstRead
    (fun st => st.shared.stream.group.delivered = 2 ∧ st.shared.table.rows = []) (by decide)
  exact ⟨st, hread, noneStranded_of_keepsBatch {} 0 hst⟩

/-- The entry is pending, and it is in the batch of no sink. -/
def LeftBehind (s : Shared) (id : ℕ) : Prop :=
  s.stream.group.Pending id ∧ ¬ s.stream.DeadLettered id

instance (s : Shared) (id : ℕ) : Decidable (LeftBehind s id) := inferInstanceAs (Decidable (_ ∧ _))

/-- The entry is left behind, and no sink has it. -/
def Stranded (st : State) (id : ℕ) : Prop :=
  LeftBehind st.shared id ∧ ∀ pc ∈ st.sinks, id ∉ pc.unfinished

instance (st : State) (id : ℕ) : Decidable (Stranded st id) :=
  inferInstanceAs (Decidable (_ ∧ ∀ pc ∈ st.sinks, id ∉ pc.unfinished))

/-- What is left behind has not ended. -/
theorem LeftBehind.not_ended {s : Shared} (h : LeftBehind s id) : ¬ Ended s id := by
  rintro (hdead | ⟨-, hacked⟩)
  · exact h.2 hdead
  · exact h.1.2 hacked

/-- What is left behind is not read again. -/
theorem LeftBehind.readGroup {s : Shared} (h : LeftBehind s id) (count : ℕ) :
    LeftBehind { s with stream := s.stream.readGroup count } id :=
  ⟨⟨h.1.1.trans_le (Nat.le_add_right _ _), h.1.2⟩, h.2⟩

/-- The acknowledgement of another entry. -/
theorem LeftBehind.ack {s : Shared} (h : LeftBehind s id) {id' : ℕ} (hne : id ≠ id') :
    LeftBehind { s with stream := s.stream.ack id' } id := by
  refine ⟨⟨h.1.1, fun hacked => ?_⟩, h.2⟩
  rcases ConsumerGroup.mem_acked_xack.1 hacked with hacked | ⟨heq, -⟩
  · exact h.1.2 hacked
  · exact hne heq

/-- The dead letter of another entry. -/
theorem LeftBehind.moveToDeadLetter {s : Shared} (h : LeftBehind s id)
    (letter : DeadLetter Fields PyError)
    (hne : id ≠ letter.sourceId) :
    LeftBehind { s with stream := s.stream.moveToDeadLetter letter } id := by
  refine ⟨h.1, fun ⟨letter', hletter, hid⟩ => ?_⟩
  rcases List.mem_cons.1 hletter with rfl | hletter
  · exact hne hid.symm
  · exact h.2 ⟨letter', hletter, hid⟩

/-- A sink takes up only what is new to the group. -/
theorem LeftBehind.sinkStep {clock : Timestamp} {s s' : Shared} {pc' : Pc} (h : LeftBehind s id)
    (hid : id ∉ pc.unfinished) (hstep : sinkStep cfg clock s outcome pc = some (s', pc')) :
    LeftBehind s' id ∧ id ∉ pc'.unfinished := by
  -- The entry is not the one the sink works on, and not in the rest of the batch.
  have hother : ∀ w : Work Fields, pc.unfinished = w.ids → id ≠ w.id ∧ id ∉ w.rest.map Prod.fst :=
    fun w hw => by
      rw [hw, Work.ids, List.mem_cons, not_or] at hid
      exact hid
  have hnext : ∀ w : Work Fields, pc.unfinished = w.ids → id ∉ (nextEntry w.rest).unfinished :=
    fun w hw => by
      rw [unfinished_nextEntry]
      exact (hother w hw).2
  let P := fun s' pc' => LeftBehind s' id ∧ id ∉ Pc.unfinished pc'
  have hreading : id ∉ Pc.reading.unfinished := List.not_mem_nil
  cases pc with
  | stopped => cases hstep
  | reading =>
    refine send_elim P (Option.some.inj hstep) (fun _ => ⟨h.readGroup 100, ?_⟩)
      (fun _ => ⟨h, hreading⟩) fun _ => ⟨h.readGroup 100, hreading⟩
    rw [unfinished_nextEntry]
    intro hnew
    obtain ⟨⟨_, fields⟩, hfresh, rfl⟩ := List.mem_map.1 hnew
    exact absurd h.1.1 (not_lt.2 (ConsumerGroup.mem_fresh.1 hfresh).1)
  | insert w entry =>
    rw [Usage.sinkStep] at hstep
    cases hinsert : insertUsage s.table (entry.toRecord clock) with
    | error err =>
      rw [hinsert] at hstep
      obtain ⟨rfl, rfl⟩ := Prod.mk.inj (Option.some.inj hstep)
      exact ⟨h, hid⟩
    | ok table =>
      rw [hinsert] at hstep
      exact send_elim P (Option.some.inj hstep) (fun _ => ⟨h, hid⟩) (fun _ => ⟨h, hid⟩)
        fun _ => ⟨h, hid⟩
  | ack w =>
    have hack := h.ack (hother w rfl).1
    exact send_elim P (Option.some.inj hstep) (fun _ => ⟨hack, hnext w rfl⟩) (fun _ => ⟨h, hid⟩)
      fun _ => ⟨hack, hid⟩
  | retry w err =>
    refine send_elim P (Option.some.inj hstep) (fun _ => ⟨h, ?_⟩) (fun _ => ⟨h, hreading⟩)
      fun _ => ⟨h, hreading⟩
    dsimp only
    split_ifs
    · exact hid
    · exact hreading
  | deadLetter w err retryCount =>
    have hdead := h.moveToDeadLetter ⟨w.id, w.fields, err, retryCount, clock⟩ (hother w rfl).1
    exact send_elim P (Option.some.inj hstep) (fun _ => ⟨hdead, hid⟩) (fun _ => ⟨h, hreading⟩)
      fun _ => ⟨hdead, hreading⟩
  | deadAck w =>
    have hack := h.ack (hother w rfl).1
    exact send_elim P (Option.some.inj hstep) (fun _ => ⟨hack, hnext w rfl⟩)
      (fun _ => ⟨h, hreading⟩) fun _ => ⟨hack, hreading⟩

/-- No step of the system takes up an entry that is stranded: new sinks do not either. -/
theorem stranded_step (h : Stranded st id) (hstep : step cfg st a = some st') :
    Stranded st' id := by
  obtain ⟨hleft, hnone⟩ := h
  cases a with
  | publish fields =>
    obtain rfl := Option.some.inj hstep
    exact ⟨hleft, hnone⟩
  | startSink =>
    obtain rfl := Option.some.inj hstep
    refine ⟨hleft, fun pc hpc => ?_⟩
    rcases List.mem_append.1 hpc with hpc | hpc
    · exact hnone pc hpc
    · rw [List.mem_singleton.1 hpc]
      exact List.not_mem_nil
  | run i outcome =>
    obtain ⟨pc, s', pc', hi, hsink, rfl⟩ := step_run hstep
    obtain ⟨hleft', hpc'⟩ := hleft.sinkStep (hnone pc (List.mem_of_getElem? hi)) hsink
    exact ⟨hleft', forall_mem_set hnone hpc'⟩
  | stop i =>
    obtain rfl := Option.some.inj hstep
    exact ⟨hleft, forall_mem_set hnone List.not_mem_nil⟩
  | tick d =>
    obtain rfl := Option.some.inj hstep
    exact ⟨hleft, hnone⟩

/-- An entry that is stranded never ends, whatever the sinks do and whichever start. -/
theorem Stranded.not_ended (h : Stranded st id) {ok : State → Label → Prop}
    (hpath : Path (step cfg) ok st st') : ¬ Ended st'.shared id := by
  have hst : Stranded st' id :=
    hpath.invariant (Stranded · id) h fun _ _ _ hst _ hstep => stranded_step hst hstep
  exact hst.1.not_ended

/-- The statement for the first of two records fails once. The exception ends the batch, and neither
of them is read again. -/
theorem not_noneStranded : ¬ ∀ st, Path (step {}) anyStep (.init 0) st → NoneStranded {} st := by
  intro hall
  obtain ⟨st, hst, hstranded⟩ := Path.exists_of_exec (step {}) anyStep (.init 0)
    (firstRead ++ [.run 0 .refused, .run 0 .ok]) (fun st => Stranded st 0 ∧
    Stranded st 1) (by decide)
  obtain ⟨st', hpath, hended⟩ := hall st hst 1 hstranded.2.1.1.1
  exact hstranded.2.not_ended hpath hended

end Runs

end MarketDataGateway.Usage
