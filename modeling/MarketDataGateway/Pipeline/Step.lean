import MarketDataGateway.Pipeline.Redis
import MarketDataGateway.Lib.Transition
import MarketDataGateway.Lib.Processes

/-!
# The steps of the quote processors

`QuoteProcessor` of `pipeline.py`: `run`, `_claim_stale`, `_process_one` and `_handle_failure`. Any
number of processors share one Redis. A processor sends one command after the other; between two of
them, others take steps, entries join the stream, the clock advances and keys expire, and the
processor may crash.

Each command may fail in two ways: it is refused and changes nothing, or it takes effect and its
reply is lost. In `_process_one` a failure leads to `_handle_failure`; a failure there, or in the
commands that fetch entries, ends the batch, and `run` starts over.
-/

namespace MarketDataGateway.Pipeline

open Hot

/-- What becomes of a command. -/
inductive Outcome
  /-- It takes effect, and its reply arrives. -/
  | ok
  /-- It does not take effect, and an exception is raised. -/
  | refused
  /-- It takes effect, and an exception is raised. -/
  | lost
  deriving DecidableEq

/-- The entry that a processor works on. -/
structure Work where
  /-- `stream_id`. -/
  id : ℕ
  /-- `fields`. -/
  fields : Fields
  /-- The entries of the batch that come after it. -/
  rest : List (ℕ × Fields)

/-- The program counter of a processor: the next command. -/
inductive Pc
  /-- `run`: `XREADGROUP`. -/
  | reading
  /-- `_claim_stale`: `XAUTOCLAIM`. -/
  | claiming
  /-- `run`: `pending_count`, before the claimed entries are processed. -/
  | counting (entries : List (ℕ × Fields))
  /-- `accept_event_once`: `SET NX`. -/
  | accept (w : Work) (event : QuoteEvent)
  /-- `_process_one`: `XACK` of a duplicate. -/
  | duplicateAck (w : Work) (event : QuoteEvent)
  /-- `observe_sequence`: `GET`. -/
  | sequenceGet (w : Work) (event : QuoteEvent) (sequence : ℕ)
  /-- `observe_sequence`: `SET`. -/
  | sequenceSet (w : Work) (event : QuoteEvent) (sequence : ℕ) (previous : Option ℕ)
  /-- `_process_one`: `SET` of the stream's health. -/
  | health (w : Work) (event : QuoteEvent) (observation : GapObservation)
  /-- `cache_quote`. -/
  | cache (w : Work) (event : QuoteEvent) (pc : CachePc)
  /-- `publish_fanout`. -/
  | publish (w : Work) (event : QuoteEvent) (late : Bool)
  /-- `_process_one`: `XACK`. -/
  | ack (w : Work) (event : QuoteEvent)
  /-- `increment_retry`, after `_process_one` has raised. -/
  | retry (w : Work) (err : PyError)
  /-- `move_to_dead_letter`. -/
  | deadLetter (w : Work) (err : PyError) (retryCount : ℕ)
  /-- `_handle_failure`: `XACK`. -/
  | deadAck (w : Work)
  /-- The processor has crashed. -/
  | crashed

/-- The next entry of the batch, or the next batch. -/
def nextEntry : List (ℕ × Fields) → Pc
  | [] => .reading
  | (id, fields) :: rest =>
    match fields.parse with
    | .error err => .retry ⟨id, fields, rest⟩ err
    | .ok event => .accept ⟨id, fields, rest⟩ event

/-- `observe_sequence`, if the event has a sequence, or `cache_quote`. -/
def observe (w : Work) (event : QuoteEvent) : Pc :=
  match event.sequence with
  | none => .cache w event .start
  | some sequence => .sequenceGet w event sequence

/-- What `observe_sequence` returns. -/
def observation (event : QuoteEvent) (sequence : ℕ) : Option ℕ → Option GapObservation
  | none => none
  | some previous =>
    if sequence = previous + 1 then none
    else some {
      symbol := event.symbol
      previousSequence := previous
      currentSequence := sequence
      gap := sequence - previous - 1
      outOfOrder := sequence ≤ previous }

/-- `_process_one` after `observe_sequence`. -/
def observed (w : Work) (event : QuoteEvent) : Option GapObservation → Pc
  | none => .cache w event .start
  | some o => .health w event o

/-- `_process_one` in or after `cache_quote`. -/
def afterCache (w : Work) (event : QuoteEvent) : CachePc → Pc
  | .returned late => .publish w event late
  | .raised err => .retry w err
  | pc => .cache w event pc

/-- Whether the next step of a call of `cache_quote` is a command. -/
def isCommand : CachePc → Bool
  | .start => false
  | _ => true

/-- The result of a command: `effect` is what it does, `reply` what follows from its reply, and
`failed` where the processor goes on if an exception is raised. -/
def send (outcome : Outcome) (r effect : Redis) (reply : Redis × Pc) (failed : Pc) : Redis × Pc :=
  match outcome with
  | .ok => reply
  | .refused => (r, failed)
  | .lost => (effect, failed)

/-- The entries that `XAUTOCLAIM` may reply with: at most 100 pending ones, in order. Any pending
entry may have been idle for long enough, since the clock may have advanced by any amount. -/
def Claimable (r : Redis) (ids : List ℕ) : Prop :=
  ids.length ≤ 100 ∧ ids.Pairwise (· < ·) ∧ ∀ id ∈ ids, id ∈ r.pending

instance (r : Redis) (ids : List ℕ) : Decidable (Claimable r ids) :=
  inferInstanceAs (Decidable (_ ∧ _ ∧ _))

/-- One step of a processor, at the time `clock`. `claimed` are the ids with which `XAUTOCLAIM`
replies. -/
def procStep (cfg : Settings) (clock : Timestamp) (r : Redis) (outcome : Outcome)
    (claimed : List ℕ) : Pc → Option (Redis × Pc)
  | .reading =>
    -- `run` claims entries of others when there is no new one.
    some (send outcome r r.deliver
      (r.deliver, if r.newIds = [] then .claiming else nextEntry (r.entries r.newIds)) .reading)
  | .claiming =>
    if Claimable r claimed then some (send outcome r r (r, .counting (r.entries claimed)) .reading)
    else none
  -- A `ResponseError` here counts as a reply; any other error ends the batch.
  | .counting entries => some (send outcome r r (r, nextEntry entries) .reading)
  | .accept w event =>
    let effect := r.setDedupe cfg clock event.eventId
    let reply :=
      if (r.dedupe event.eventId).isNone then
        (effect.recordAccept event.eventId, observe w event)
      else (effect, .duplicateAck w event)
    -- Redis rejects a time to live that is not positive.
    if cfg.dedupeTtlSeconds ≤ 0 then some (r, .retry w .redisError)
    else some (send outcome r effect reply (.retry w .redisError))
  | .duplicateAck w _ =>
    some (send outcome r (r.ack w.id) (r.ack w.id, nextEntry w.rest) (.retry w .redisError))
  | .sequenceGet w event sequence =>
    let previous := (r.sequences (Redis.sequenceKey event)).map Expiring.value
    let pc :=
      if previous.all (· < sequence) then .sequenceSet w event sequence previous
      else observed w event (observation event sequence previous)
    some (send outcome r r (r, pc) (.retry w .redisError))
  | .sequenceSet w event sequence previous =>
    let effect := r.setSequence clock event sequence
    some (send outcome r effect (effect, observed w event (observation event sequence previous))
      (.retry w .redisError))
  | .health w event o =>
    let effect := r.setHealth clock event o
    some (send outcome r effect (effect, .cache w event .start) (.retry w .redisError))
  | .cache w event pc =>
    -- Reading the clock is no command, and does not fail.
    (cacheStep cfg clock (r.hot event.symbol) event pc).map fun result =>
      let effect := r.putHot event result.1 result.2.isReturned
      send (if isCommand pc then outcome else .ok) r effect (effect, afterCache w event result.2)
        (.retry w .redisError)
  | .publish w event late =>
    let effect := r.publishFanout event
    some (send outcome r effect (effect.recordCompletion event late, .ack w event)
      (.retry w .redisError))
  | .ack w _ =>
    some (send outcome r (r.ack w.id) (r.ack w.id, nextEntry w.rest) (.retry w .redisError))
  -- From here on, a failure is one of `_handle_failure`, which `run` catches.
  | .retry w err =>
    let effect := r.incrementRetry clock w.id
    let count := r.nextRetry w.id
    some (send outcome r effect
      (effect, if cfg.retryLimit ≤ count then .deadLetter w err count else nextEntry w.rest)
      .reading)
  | .deadLetter w err retryCount =>
    let effect := r.moveToDeadLetter ⟨w.id, w.fields, err, retryCount, clock⟩
    some (send outcome r effect (effect, .deadAck w) .reading)
  | .deadAck w => some (send outcome r (r.ack w.id) (r.ack w.id, nextEntry w.rest) .reading)
  | .crashed => none

/-! ## States -/

/-- The state of the processors and of Redis. -/
structure State where
  /-- The clock. -/
  now : Timestamp
  /-- What the processors share. -/
  redis : Redis
  /-- The processors, crashed ones included. -/
  procs : List Pc

/-- No processor, and nothing in Redis. -/
def State.init (now : Timestamp) : State := ⟨now, .empty, []⟩

/-- A step of the system. -/
inductive Label
  /-- An entry joins the quote stream. -/
  | publishQuote (fields : Fields)
  /-- A processor starts. -/
  | startProcessor
  /-- The `i`-th processor takes a step. -/
  | run (i : ℕ) (outcome : Outcome) (claimed : List ℕ)
  /-- The `i`-th processor crashes. -/
  | crash (i : ℕ)
  /-- The clock advances by `d` microseconds, and keys expire. -/
  | tick (d : ℕ)

/-- The steps of the system. -/
def step (cfg : Settings) (st : State) : Label → Option State
  | .publishQuote fields => some { st with redis := st.redis.publishQuote fields }
  | .startProcessor => some { st with procs := st.procs ++ [.reading] }
  | .run i outcome claimed =>
    st.procs[i]?.bind fun pc =>
      (procStep cfg st.now st.redis outcome claimed pc).map fun result =>
        { st with redis := result.1, procs := st.procs.set i result.2 }
  | .crash i => some { st with procs := st.procs.set i .crashed }
  | .tick d => some { st with now := st.now + d, redis := st.redis.expire (st.now + d) }

/-- A processor's step with its command going through. -/
abbrev Label.next (i : ℕ) : Label := .run i .ok []

section Step

variable {cfg : Settings} {st st' : State} {i : ℕ} {outcome : Outcome} {claimed : List ℕ}

/-- A step of a processor. -/
theorem step_run (h : step cfg st (.run i outcome claimed) = some st') :
    ∃ pc r' pc', st.procs[i]? = some pc ∧
      procStep cfg st.now st.redis outcome claimed pc = some (r', pc') ∧
      st' = { st with redis := r', procs := st.procs.set i pc' } := by
  obtain ⟨pc, hi, hstep⟩ := Option.bind_eq_some_iff.1 h
  obtain ⟨⟨r', pc'⟩, hr, rfl⟩ := Option.map_eq_some_iff.1 hstep
  exact ⟨pc, r', pc', hi, hr, rfl⟩

/-- What holds of what follows from a command's reply, and of a failure without the command's effect
and after it, holds of the result of the command. -/
theorem send_elim {r effect r' : Redis} {reply : Redis × Pc} {failed pc' : Pc}
    (P : Redis → Pc → Prop) (h : send outcome r effect reply failed = (r', pc'))
    (hreply : P reply.1 reply.2) (hrefused : P r failed) (hlost : P effect failed) : P r' pc' := by
  cases outcome with
  | ok =>
    obtain rfl : reply = (r', pc') := h
    exact hreply
  | refused =>
    obtain ⟨rfl, rfl⟩ := Prod.mk.inj h
    exact hrefused
  | lost =>
    obtain ⟨rfl, rfl⟩ := Prod.mk.inj h
    exact hlost

end Step

end MarketDataGateway.Pipeline
