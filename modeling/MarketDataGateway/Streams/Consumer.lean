import MarketDataGateway.Lib.ConsumerGroup
import MarketDataGateway.Pipeline.Step

/-!
# Consumers of a stream

What the consumers of a stream share besides the stream: the retry counters and the dead-letter
stream of `storage.py`. A consumer works through the entries of a batch one after the other, and
sends one command after the other, each of which may be refused or lose its reply
(`Pipeline.Outcome`).
-/

namespace MarketDataGateway.Streams

open Lib
open Pipeline (Expiring expireKeys Outcome)

/-- An entry of the dead-letter stream, as `move_to_dead_letter` writes it. -/
structure DeadLetter (φ ε : Type) where
  /-- `source_id`. -/
  sourceId : ℕ
  /-- `payload`. -/
  payload : φ
  /-- `error`. -/
  error : ε
  /-- `retry_count`. -/
  retryCount : ℕ
  /-- `failed_at`. -/
  failedAt : Timestamp

/-- What the consumers of a stream keep about its entries. -/
structure Failures (φ ε : Type) where
  /-- `smdg:retry:<prefix>:<stream_id>`. -/
  retries : ℕ → Option (Expiring ℕ)
  /-- The dead letters of the stream's entries, the last one first. -/
  deadLetters : List (DeadLetter φ ε)

/-- The entry that a consumer works on. -/
structure Work (φ : Type) where
  /-- `stream_id`. -/
  id : ℕ
  /-- `fields`. -/
  fields : φ
  /-- The entries of the batch that come after it. -/
  rest : List (ℕ × φ)
  deriving DecidableEq

/-- The ids of the entry that a consumer works on and of those that come after it. -/
def Work.ids {φ : Type} (w : Work φ) : List ℕ := w.id :: w.rest.map Prod.fst

/-- The entry that a consumer works on and those that come after it. -/
def Work.batch {φ : Type} (w : Work φ) : List (ℕ × φ) := (w.id, w.fields) :: w.rest

/-- Those that come after it have been delivered if all have. -/
theorem delivered_rest {φ : Type} {g : ConsumerGroup φ} {w : Work φ} (h : g.Delivered w.batch) :
    g.Delivered w.rest := fun p hp => h p (List.mem_cons_of_mem _ hp)

namespace Failures

variable {φ ε : Type} (f : Failures φ ε)

/-- No counter and no dead letter. -/
def empty : Failures φ ε := ⟨fun _ => none, []⟩

/-- The value of the counter of `increment_retry` after the next increment. -/
def nextRetry (id : ℕ) : ℕ := ((f.retries id).elim 0 Expiring.value) + 1

/-- `increment_retry`. -/
def incrementRetry (clock : Timestamp) (id : ℕ) : Failures φ ε :=
  { f with retries := Function.update f.retries id (some ⟨f.nextRetry id, clock + 3600 * second⟩) }

/-- `move_to_dead_letter`. -/
def moveToDeadLetter (letter : DeadLetter φ ε) : Failures φ ε :=
  { f with deadLetters := letter :: f.deadLetters }

/-- The counters that are left at the time `clock`. -/
def expire (clock : Timestamp) : Failures φ ε := { f with retries := expireKeys clock f.retries }

/-- The entry is in the dead-letter stream. -/
def DeadLettered (id : ℕ) : Prop := ∃ letter ∈ f.deadLetters, letter.sourceId = id

instance (id : ℕ) : Decidable (f.DeadLettered id) :=
  inferInstanceAs (Decidable (∃ letter ∈ f.deadLetters, letter.sourceId = id))

end Failures

/-- A stream with its consumer group, and what the consumers keep about its entries. -/
structure GroupStream (φ ε : Type) extends Failures φ ε where
  /-- The stream and its group. -/
  group : ConsumerGroup φ

namespace GroupStream

variable {φ ε : Type} (s : GroupStream φ ε)

/-- No entry. -/
def empty : GroupStream φ ε := ⟨.empty, .empty⟩

/-- `XADD`. -/
def xadd (fields : φ) : GroupStream φ ε := { s with group := s.group.xadd fields }

/-- `read_group`. -/
def readGroup (count : ℕ) : GroupStream φ ε := { s with group := s.group.xreadgroup count }

/-- `ack`. -/
def ack (id : ℕ) : GroupStream φ ε := { s with group := s.group.xack id }

/-- `increment_retry`. -/
def incrementRetry (clock : Timestamp) (id : ℕ) : GroupStream φ ε :=
  { s with toFailures := s.toFailures.incrementRetry clock id }

/-- `move_to_dead_letter`. -/
def moveToDeadLetter (letter : DeadLetter φ ε) : GroupStream φ ε :=
  { s with toFailures := s.toFailures.moveToDeadLetter letter }

/-- The counters that are left at the time `clock`. -/
def expire (clock : Timestamp) : GroupStream φ ε :=
  { s with toFailures := s.toFailures.expire clock }

end GroupStream

/-- The result of a command: `effect` is what it does, `reply` what follows from its reply, and
`failed` where the consumer goes on if an exception is raised. -/
def send {σ π : Type} (outcome : Outcome) (s effect : σ) (reply : σ × π) (failed : π) : σ × π :=
  match outcome with
  | .ok => reply
  | .refused => (s, failed)
  | .lost => (effect, failed)

/-- What holds of what follows from a command's reply, and of a failure without the command's effect
and after it, holds of the result of the command. -/
theorem send_elim {σ π : Type} {outcome : Outcome} {s effect s' : σ} {reply : σ × π}
    {failed pc' : π} (P : σ → π → Prop) (h : send outcome s effect reply failed = (s', pc'))
    (hreply : outcome = .ok → P reply.1 reply.2) (hrefused : outcome = .refused → P s failed)
    (hlost : outcome = .lost → P effect failed) : P s' pc' := by
  cases outcome with
  | ok =>
    obtain rfl : reply = (s', pc') := h
    exact hreply rfl
  | refused =>
    obtain ⟨rfl, rfl⟩ := Prod.mk.inj h
    exact hrefused rfl
  | lost =>
    obtain ⟨rfl, rfl⟩ := Prod.mk.inj h
    exact hlost rfl

end MarketDataGateway.Streams
