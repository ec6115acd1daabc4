import MarketDataGateway.Lib.Transition
import MarketDataGateway.Usage.Sink

/-!
# The usage recorder

`UsageRecorder` of `usage.py` and `record_usage` of `storage.py`. `record` may be called, and
`close`, between any two commands of `run`, and each command may be refused or lose its reply. `run`
swallows what `record_usage` raises and goes on with the next event, so an event whose record has
not been appended by then is gone. The stream is what has been appended to it.
-/

namespace MarketDataGateway.Usage

open Lib
open Pipeline (Outcome)

/-- `UsageEvent`, whose metadata are of any type. -/
structure UsageEvent (M : Type*) where
  /-- `idempotency_key`. -/
  idempotencyKey : String
  /-- `client_id`. -/
  clientId : String
  /-- `event_type`. -/
  eventType : String
  /-- `quantity`. -/
  quantity : ℤ
  /-- `metadata`. -/
  metadata : M
  deriving DecidableEq

/-- What `record_usage` uses of Redis. -/
structure UsageStore where
  /-- The keys of `smdg:usage:idempotency:<key>`. -/
  markers : List String
  /-- The usage stream. -/
  stream : List UsageEntry

namespace UsageStore

variable (store : UsageStore)

/-- The stream has an entry with the key. -/
def Has (key : String) : Prop := key ∈ store.stream.map UsageEntry.idempotencyKey

instance (key : String) : Decidable (store.Has key) := inferInstanceAs (Decidable (_ ∈ _))

/-- `SET ... NX`, which does nothing if the key is there. -/
def setNx (key : String) : UsageStore :=
  if key ∈ store.markers then store else { store with markers := key :: store.markers }

/-- `XADD`. -/
def xadd (entry : UsageEntry) : UsageStore := { store with stream := store.stream ++ [entry] }

/-- How often the key is in the stream. -/
def count (key : String) : ℕ := (store.stream.map UsageEntry.idempotencyKey).count key

end UsageStore

variable {M : Type*} (dumps : M → Option String)

/-- The fields of the entry of an event, unless `json.dumps` raises. -/
def UsageEvent.entry (event : UsageEvent M) (createdAt : Timestamp) : Option UsageEntry :=
  (dumps event.metadata).map fun metadata =>
    { idempotencyKey := event.idempotencyKey
      clientId := event.clientId
      eventType := event.eventType
      quantity := event.quantity
      metadata := metadata
      createdAt := some createdAt }

/-- `record_usage`, when Redis does not fail. -/
def UsageStore.recordUsage (store : UsageStore) (event : UsageEvent M) (createdAt : Timestamp) :
    UsageStore :=
  if event.idempotencyKey ∈ store.markers then store
  else
    match event.entry dumps createdAt with
    | none => store.setNx event.idempotencyKey
    | some entry => (store.setNx event.idempotencyKey).xadd entry

/-- Where `run` is. -/
inductive RunPc (M : Type*)
  /-- At the head of the loop, or in `queue.get`. -/
  | reading
  /-- `record_usage`: `SET NX`. -/
  | marking (event : UsageEvent M)
  /-- `record_usage`: `XADD`. -/
  | appending (event : UsageEvent M)
  /-- It has ended. -/
  | ended
  deriving DecidableEq

/-- A `UsageRecorder`, with its `run` and its store. -/
structure UsageRecorder (M : Type*) where
  /-- `maxsize` of the queue, where a number that is not positive stands for no bound. -/
  maxQueueSize : ℤ
  /-- `_queue`. -/
  queue : List (UsageEvent M)
  /-- `_closed`. -/
  closed : Bool
  /-- `dropped`. -/
  dropped : ℕ
  /-- `run`. -/
  pc : RunPc M
  /-- Redis. -/
  store : UsageStore
  /-- The events for which `record` has returned `True`. -/
  accepted : List (UsageEvent M)
  /-- How often `record` has returned `False`. -/
  refusals : ℕ
  /-- The events for which `record_usage` has raised. -/
  raised : List (UsageEvent M)

/-- A step. -/
inductive RecorderAction (M : Type*)
  /-- `record`. -/
  | record (event : UsageEvent M)
  /-- `queue.get` returns. -/
  | get
  /-- `SET NX`. -/
  | mark (outcome : Outcome)
  /-- `XADD`, at a time. -/
  | append (outcome : Outcome) (createdAt : Timestamp)
  /-- `close`. -/
  | close
  /-- The loop ends. -/
  | exit
  /-- `run` is cancelled, while the command that it waits for takes effect or not. -/
  | cancel (effect : Bool) (createdAt : Timestamp)

namespace UsageRecorder

/-- `UsageRecorder(store, max_queue_size)`, whose `run` has been started. -/
def init (maxQueueSize : ℤ) (store : UsageStore) : UsageRecorder M :=
  ⟨maxQueueSize, [], false, 0, .reading, store, [], 0, []⟩

variable (s : UsageRecorder M)

/-- `record`. -/
def record (event : UsageEvent M) : UsageRecorder M :=
  if 0 < s.maxQueueSize ∧ s.maxQueueSize ≤ s.queue.length then
    { s with dropped := s.dropped + 1, refusals := s.refusals + 1 }
  else { s with queue := s.queue ++ [event], accepted := event :: s.accepted }

/-- `record_usage` raises, and `run` goes on. -/
def fail (event : UsageEvent M) (store : UsageStore) (pc : RunPc M) : UsageRecorder M :=
  { s with store := store, pc := pc, raised := event :: s.raised }

/-- `SET NX` of an event. -/
def mark (event : UsageEvent M) : Outcome → UsageRecorder M
  | .ok =>
    if event.idempotencyKey ∈ s.store.markers then { s with pc := .reading }
    else { s with store := s.store.setNx event.idempotencyKey, pc := .appending event }
  | .refused => s.fail event s.store .reading
  | .lost => s.fail event (s.store.setNx event.idempotencyKey) .reading

/-- `XADD` of an event. It is not sent if `json.dumps` raises. -/
def append (event : UsageEvent M) (createdAt : Timestamp) : Outcome → Option (UsageRecorder M)
  | .ok => (event.entry dumps createdAt).map fun entry =>
      { s with store := s.store.xadd entry, pc := .reading }
  | .refused => some (s.fail event s.store .reading)
  | .lost =>
    (event.entry dumps createdAt).map fun entry => s.fail event (s.store.xadd entry) .reading

/-- `run` is cancelled. -/
def cancel (effect : Bool) (createdAt : Timestamp) : Option (UsageRecorder M) :=
  match s.pc, effect with
  | .reading, _ => some { s with pc := .ended }
  | .marking event, false => some (s.fail event s.store .ended)
  | .marking event, true => some (s.fail event (s.store.setNx event.idempotencyKey) .ended)
  | .appending event, false => some (s.fail event s.store .ended)
  | .appending event, true =>
    (event.entry dumps createdAt).map fun entry => s.fail event (s.store.xadd entry) .ended
  | .ended, _ => none

/-- A step of the recorder. -/
def step : RecorderAction M → Option (UsageRecorder M)
  | .record event => some (s.record event)
  | .get =>
    match s.pc, s.queue with
    | .reading, event :: queue => some { s with queue := queue, pc := .marking event }
    | _, _ => none
  | .mark outcome =>
    match s.pc with
    | .marking event => some (s.mark event outcome)
    | _ => none
  | .append outcome createdAt =>
    match s.pc with
    | .appending event => s.append dumps event createdAt outcome
    | _ => none
  | .close => some { s with closed := true }
  | .exit =>
    if s.pc matches .reading ∧ s.closed ∧ s.queue = [] then some { s with pc := .ended } else none
  | .cancel effect createdAt => s.cancel dumps effect createdAt

/-- No call of `record_usage` raises, and none is cancelled, before its `XADD` has taken effect,
unless the stream has an event with its key. -/
def Persists (s : UsageRecorder M) (a : RecorderAction M) : Prop :=
  match s.pc, a with
  | .marking event, .mark outcome => outcome = .ok ∨ s.store.Has event.idempotencyKey
  | .marking event, .cancel _ _ => s.store.Has event.idempotencyKey
  | .appending _, .append outcome _ => outcome ≠ .refused
  | .appending _, .cancel effect _ => effect = true
  | _, _ => True

instance (s : UsageRecorder M) (a : RecorderAction M) : Decidable (s.Persists a) := by
  unfold Persists
  split <;> infer_instance

end UsageRecorder

section Store

variable {store : UsageStore} {key key' : String} {event : UsageEvent M} {entry : UsageEntry}
  {createdAt : Timestamp} {dumps}

/-- A marker leaves the stream. -/
@[simp] theorem UsageStore.stream_setNx : (store.setNx key).stream = store.stream := by
  unfold setNx
  split_ifs <;> rfl

/-- A marker leaves the entries. -/
theorem UsageStore.has_setNx : (store.setNx key).Has key' ↔ store.Has key' := by
  unfold Has
  rw [stream_setNx]

/-- The markers after one has been set. -/
theorem UsageStore.mem_markers_setNx : key' ∈ (store.setNx key).markers ↔
    key' = key ∨ key' ∈ store.markers := by
  unfold setNx
  split_ifs with h
  · constructor
    · exact Or.inr
    · rintro (rfl | hmem)
      · exact h
      · exact hmem
  · exact List.mem_cons

/-- A marker that is there changes nothing. -/
theorem UsageStore.setNx_of_mem (h : key ∈ store.markers) : store.setNx key = store := if_pos h

/-- The keys of the entries, with one more entry. -/
theorem UsageStore.has_xadd : (store.xadd entry).Has key ↔
    store.Has key ∨ key = entry.idempotencyKey := by
  unfold Has xadd
  rw [List.map_append, List.mem_append, List.map_singleton, List.mem_singleton]

/-- An entry has the key of its event. -/
theorem idempotencyKey_of_entry (h : event.entry dumps createdAt = some entry) :
    entry.idempotencyKey = event.idempotencyKey := by
  obtain ⟨metadata, -, rfl⟩ := Option.map_eq_some_iff.1 h
  rfl

end Store

namespace UsageRecorder

/-- Each marker stands for one entry of the stream, or for the event that is being appended, and
each event that was accepted is in the stream, in the queue or being recorded. -/
structure Sound (s : UsageRecorder M) : Prop where
  kept : ∀ e ∈ s.accepted,
    s.store.Has e.idempotencyKey ∨ e ∈ s.queue ∨ s.pc = .marking e ∨ s.pc = .appending e
  marked : ∀ key, key ∈ s.store.markers ↔
    s.store.Has key ∨ ∃ e, s.pc = .appending e ∧ e.idempotencyKey = key
  once : (s.store.stream.map UsageEntry.idempotencyKey).Nodup
  fresh : ∀ e, s.pc = .appending e → ¬s.store.Has e.idempotencyKey
  raised : ∀ e ∈ s.raised, s.store.Has e.idempotencyKey
  dropped : s.dropped = s.refusals

variable {s t : UsageRecorder M} {event : UsageEvent M} {dumps} {pc : RunPc M}
  {raised : List (UsageEvent M)}
  {entry : UsageEntry}

/-- To record keeps the recorder sound. -/
theorem Sound.record (h : Sound s) : Sound (s.record event) := by
  unfold UsageRecorder.record
  split_ifs
  · exact ⟨h.kept, h.marked, h.once, h.fresh, h.raised, congrArg (· + 1) h.dropped⟩
  · refine ⟨List.forall_mem_cons.2 ⟨?_, fun e he => ?_⟩, h.marked, h.once, h.fresh,
      h.raised, h.dropped⟩
    · exact Or.inr (Or.inl List.mem_concat_self)
    · obtain hhas | hqueue | hpc := h.kept e he
      · exact Or.inl hhas
      · exact Or.inr (Or.inl (List.mem_append_left _ hqueue))
      · exact Or.inr (Or.inr hpc)

/-- To take an event off the queue keeps the recorder sound. -/
theorem Sound.get {queue : List (UsageEvent M)} (h : Sound s) (hpc : s.pc = .reading)
    (hqueue : s.queue = event :: queue) :
    Sound { s with queue := queue, pc := .marking event } where
  kept e he := by
    obtain hhas | hmem | hp | hp := h.kept e he
    · exact Or.inl hhas
    · rw [hqueue, List.mem_cons] at hmem
      obtain rfl | hmem := hmem
      · exact Or.inr (Or.inr (Or.inl rfl))
      · exact Or.inr (Or.inl hmem)
    · exact nomatch hpc.symm.trans hp
    · exact nomatch hpc.symm.trans hp
  marked key := by
    rw [h.marked key]
    refine or_congr_right ⟨?_, ?_⟩
    · exact fun ⟨e, hp, _⟩ => nomatch hpc.symm.trans hp
    · exact fun ⟨e, hp, _⟩ => nomatch hp
  once := h.once
  fresh e hp := nomatch hp
  raised := h.raised
  dropped := h.dropped

/-- A marker is in the stream while no event is being appended. -/
theorem Sound.mem_markers_iff (h : Sound s) (hpc : ∀ e, s.pc ≠ .appending e) (key : String) :
    key ∈ s.store.markers ↔ s.store.Has key := by
  rw [h.marked key]
  exact or_iff_left fun ⟨e, hp, _⟩ => hpc e hp

/-- `run` is done with an event whose key is in the stream. -/
theorem Sound.settle (h : Sound s) (hpc : s.pc = .marking event)
    (hhas : s.store.Has event.idempotencyKey)
    (hdone : pc = .reading ∨ pc = .ended) (hraised : ∀ e ∈ raised, e = event ∨ e ∈ s.raised) :
    Sound { s with pc := pc, raised := raised } where
  kept e he := by
    obtain hh | hmem | hp | hp := h.kept e he
    · exact Or.inl hh
    · exact Or.inr (Or.inl hmem)
    · -- The event that `run` has in hand is in the stream by now.
      obtain rfl : event = e := RunPc.marking.inj (hpc.symm.trans hp)
      exact Or.inl hhas
    · exact nomatch hpc.symm.trans hp
  marked key := by
    have hne : ∀ e, pc ≠ .appending e := by
      obtain rfl | rfl := hdone
      · exact fun e hp => nomatch hp
      · exact fun e hp => nomatch hp
    rw [h.mem_markers_iff (fun e hp => nomatch hpc.symm.trans hp)]
    exact (or_iff_left fun ⟨e, hp, _⟩ => hne e hp).symm
  once := h.once
  fresh e hp := by
    obtain rfl | rfl := hdone
    · exact nomatch hp
    · exact nomatch hp
  raised e he := by
    obtain rfl | he := hraised e he
    · exact hhas
    · exact h.raised e he
  dropped := h.dropped

/-- `run` goes on with an event whose key was not there. -/
theorem Sound.proceed (h : Sound s) (hpc : s.pc = .marking event)
    (hnot : event.idempotencyKey ∉ s.store.markers) :
    Sound { s with store := s.store.setNx event.idempotencyKey, pc := .appending event } where
  kept e he := by
    rw [UsageStore.has_setNx]
    obtain hh | hmem | hp | hp := h.kept e he
    · exact Or.inl hh
    · exact Or.inr (Or.inl hmem)
    · obtain rfl : event = e := RunPc.marking.inj (hpc.symm.trans hp)
      exact Or.inr (Or.inr (Or.inr rfl))
    · exact nomatch hpc.symm.trans hp
  marked key := by
    rw [UsageStore.mem_markers_setNx, UsageStore.has_setNx,
      h.mem_markers_iff (fun e hp => nomatch hpc.symm.trans hp), or_comm]
    refine or_congr_right ⟨fun heq => ⟨event, rfl, heq.symm⟩, fun ⟨e, hp, heq⟩ => ?_⟩
    rw [RunPc.appending.inj hp, heq]
  once := by
    rw [UsageStore.stream_setNx]
    exact h.once
  fresh e hp := by
    rw [UsageStore.has_setNx, ← RunPc.appending.inj hp]
    exact fun hhas => hnot ((h.marked _).2 (Or.inl hhas))
  raised e he := UsageStore.has_setNx.2 (h.raised e he)
  dropped := h.dropped

/-- `run` is done with an event that has been appended. -/
theorem Sound.appended (h : Sound s) (hpc : s.pc = .appending event)
    (hkey : entry.idempotencyKey = event.idempotencyKey) (hdone : pc = .reading ∨ pc = .ended)
    (hraised : ∀ e ∈ raised, e = event ∨ e ∈ s.raised) :
    Sound { s with store := s.store.xadd entry, pc := pc, raised := raised } where
  kept e he := by
    rw [UsageStore.has_xadd]
    obtain hh | hmem | hp | hp := h.kept e he
    · exact Or.inl (Or.inl hh)
    · exact Or.inr (Or.inl hmem)
    · exact nomatch hpc.symm.trans hp
    · obtain rfl : event = e := RunPc.appending.inj (hpc.symm.trans hp)
      exact Or.inl (Or.inr hkey.symm)
  marked key := by
    -- What is being appended is in the stream by now, so its marker stands for an entry.
    have hne : ∀ e, pc ≠ .appending e := by
      obtain rfl | rfl := hdone
      · exact fun e hp => nomatch hp
      · exact fun e hp => nomatch hp
    have hbefore : key ∈ s.store.markers ↔ s.store.Has key ∨ key = entry.idempotencyKey := by
      rw [h.marked key, hpc]
      refine or_congr_right ⟨fun ⟨e, hp, heq⟩ => ?_,
        fun heq => ⟨event, rfl, hkey.symm.trans heq.symm⟩⟩
      rw [← heq, ← RunPc.appending.inj hp, hkey]
    have hafter : ¬∃ e, pc = .appending e ∧ e.idempotencyKey = key := fun ⟨e, hp, _⟩ => hne e hp
    exact hbefore.trans (UsageStore.has_xadd.symm.trans (or_iff_left hafter).symm)
  once := by
    -- No entry had its key before.
    have hfresh := h.fresh event hpc
    rw [← hkey] at hfresh
    show ((s.store.stream ++ [entry]).map UsageEntry.idempotencyKey).Nodup
    rw [List.map_append, List.map_singleton]
    exact List.nodup_append_comm.1 (List.nodup_cons.2 ⟨hfresh, h.once⟩)
  fresh e hp := by
    obtain rfl | rfl := hdone
    · exact nomatch hp
    · exact nomatch hp
  raised e he := by
    rw [UsageStore.has_xadd]
    obtain rfl | he := hraised e he
    · exact Or.inr hkey.symm
    · exact Or.inl (h.raised e he)
  dropped := h.dropped

/-- `run` ends at the head of its loop. -/
theorem Sound.exit (h : Sound s) (hpc : s.pc = .reading) : Sound { s with pc := .ended } where
  kept e he := by
    obtain hh | hmem | hp | hp := h.kept e he
    · exact Or.inl hh
    · exact Or.inr (Or.inl hmem)
    · exact nomatch hpc.symm.trans hp
    · exact nomatch hpc.symm.trans hp
  marked key := by
    rw [h.mem_markers_iff (fun e hp => nomatch hpc.symm.trans hp)]
    exact (or_iff_left fun ⟨e, hp, _⟩ => nomatch hp).symm
  once := h.once
  fresh e hp := nomatch hp
  raised := h.raised
  dropped := h.dropped

/-- `SET NX` of an event. -/
theorem Sound.mark {outcome : Outcome} (h : Sound s) (hpc : s.pc = .marking event)
    (hok : outcome = .ok ∨ s.store.Has event.idempotencyKey) : Sound (s.mark event outcome) := by
  have hmarker := h.mem_markers_iff (fun e hp => nomatch hpc.symm.trans hp) event.idempotencyKey
  have hraised : ∀ e ∈ event :: s.raised, e = event ∨ e ∈ s.raised := fun e he => List.mem_cons.1 he
  cases outcome with
  | ok =>
    unfold UsageRecorder.mark
    split_ifs with hmem
    · exact h.settle hpc (hmarker.1 hmem) (Or.inl rfl) fun e he => Or.inr he
    · exact h.proceed hpc hmem
  | refused =>
    have hhas := hok.resolve_left fun heq => nomatch heq
    exact h.settle hpc hhas (Or.inl rfl) hraised
  | lost =>
    have hhas := hok.resolve_left fun heq => nomatch heq
    unfold UsageRecorder.mark
    rw [UsageStore.setNx_of_mem (hmarker.2 hhas)]
    exact h.settle hpc hhas (Or.inl rfl) hraised

/-- `XADD` of an event, which takes effect. -/
theorem Sound.append {outcome : Outcome} {createdAt : Timestamp} (h : Sound s)
    (hpc : s.pc = .appending event)
    (hok : outcome ≠ .refused)
    (hs : s.append dumps event createdAt outcome = some t) : Sound t := by
  cases outcome with
  | ok =>
    obtain ⟨entry, hentry, rfl⟩ := Option.map_eq_some_iff.1 hs
    exact h.appended hpc (idempotencyKey_of_entry hentry) (Or.inl rfl) fun e he => Or.inr he
  | refused => exact absurd rfl hok
  | lost =>
    obtain ⟨entry, hentry, rfl⟩ := Option.map_eq_some_iff.1 hs
    exact h.appended hpc (idempotencyKey_of_entry hentry) (Or.inl rfl) fun e he =>
      List.mem_cons.1 he

/-- `run` is cancelled where nothing is lost. -/
theorem Sound.cancel {effect : Bool} {createdAt : Timestamp} (h : Sound s)
    (hok : s.Persists (.cancel effect createdAt))
    (hs : s.cancel dumps effect createdAt = some t) : Sound t := by
  unfold Persists at hok
  unfold UsageRecorder.cancel at hs
  cases hpc : s.pc with
  | reading =>
    rw [hpc] at hs
    obtain rfl := Option.some.inj hs
    exact h.exit hpc
  | marking event =>
    rw [hpc] at hs hok
    -- The event has its marker already, so that setting it again changes nothing.
    have hmarker := h.mem_markers_iff (fun e hp => nomatch hpc.symm.trans hp) event.idempotencyKey
    have hstore : s.store.setNx event.idempotencyKey = s.store :=
      UsageStore.setNx_of_mem (hmarker.2 hok)
    have hsound : Sound (s.fail event s.store .ended) :=
      h.settle hpc hok (Or.inr rfl) fun e he => List.mem_cons.1 he
    cases effect with
    | false =>
      obtain rfl := Option.some.inj hs
      exact hsound
    | true =>
      obtain rfl := Option.some.inj hs
      rwa [hstore]
  | appending event =>
    rw [hpc] at hs hok
    -- The entry has gone out before the task is cancelled.
    obtain rfl : effect = true := hok
    obtain ⟨entry, hentry, rfl⟩ := Option.map_eq_some_iff.1 hs
    exact h.appended hpc (idempotencyKey_of_entry hentry) (Or.inr rfl) fun e he =>
      List.mem_cons.1 he
  | ended =>
    rw [hpc] at hs
    exact nomatch hs

/-- A step that keeps to the condition. -/
theorem Sound.step {a : RecorderAction M} (h : Sound s) (hok : s.Persists a)
    (hs : s.step dumps a = some t) : Sound t := by
  cases a with
  | record event =>
    obtain rfl := Option.some.inj hs
    exact h.record
  | get =>
    dsimp only [UsageRecorder.step] at hs
    split at hs
    · rename_i hpc hqueue
      obtain rfl := Option.some.inj hs
      exact h.get hpc hqueue
    · exact nomatch hs
  | mark outcome =>
    dsimp only [UsageRecorder.step] at hs
    split at hs
    · rename_i event hpc
      obtain rfl := Option.some.inj hs
      unfold Persists at hok
      rw [hpc] at hok
      exact h.mark hpc hok
    · exact nomatch hs
  | append outcome createdAt =>
    dsimp only [UsageRecorder.step] at hs
    split at hs
    · rename_i event hpc
      unfold Persists at hok
      rw [hpc] at hok
      exact h.append hpc hok hs
    · exact nomatch hs
  -- Closing changes nothing of what is kept.
  | close =>
    obtain rfl := Option.some.inj hs
    exact ⟨h.kept, h.marked, h.once, h.fresh, h.raised, h.dropped⟩
  | exit =>
    dsimp only [UsageRecorder.step] at hs
    split_ifs at hs with hexit
    obtain rfl := Option.some.inj hs
    refine h.exit ?_
    -- The loop ends only where it has nothing in hand.
    obtain ⟨hpc, -⟩ := hexit
    cases hp : s.pc with
    | reading => rfl
    | marking event | appending event | ended => rw [hp] at hpc; exact absurd hpc Bool.false_ne_true
  | cancel effect createdAt => exact h.cancel hok hs

end UsageRecorder

/-- Each marker has its entry, and no key has two. -/
structure UsageStore.Consistent (store : UsageStore) : Prop where
  marked : ∀ key, key ∈ store.markers ↔ store.Has key
  once : (store.stream.map UsageEntry.idempotencyKey).Nodup

namespace UsageRecorder

variable {s : UsageRecorder M} {store : UsageStore} {dumps}

/-- A new recorder is sound. -/
theorem sound_init {maxQueueSize : ℤ} (h : store.Consistent) :
    Sound (init maxQueueSize store : UsageRecorder M) where
  kept _ he := absurd he List.not_mem_nil
  marked key := (h.marked key).trans (or_iff_left fun ⟨_, hp, _⟩ => nomatch hp).symm
  once := h.once
  fresh _ hp := nomatch hp
  raised _ he := absurd he List.not_mem_nil
  dropped := rfl

/-- A retry of an event whose record has been appended leaves the one entry that is there. -/
theorem Sound.count_retry {e e' : UsageEvent M} (h : Sound s) (he : e ∈ s.raised)
    (hkey : e'.idempotencyKey = e.idempotencyKey) (createdAt : Timestamp) :
    (s.store.recordUsage dumps e' createdAt).count e.idempotencyKey = 1 := by
  have hhas := h.raised e he
  have hmarker : e'.idempotencyKey ∈ s.store.markers := by
    rw [hkey]
    exact (h.marked _).2 (Or.inl hhas)
  have hsame : s.store.recordUsage dumps e' createdAt = s.store := if_pos hmarker
  rw [hsame]
  exact List.count_eq_one_of_mem h.once hhas

/-- In every state of a run in which no call of `record_usage` raises, and none is cancelled, before
its `XADD` has taken effect, each event that was accepted is in the stream, in the queue or being
recorded, and `dropped` counts those that were refused. If the call for an event has raised, a retry
with its key leaves one entry with it. -/
theorem usage_is_kept {maxQueueSize : ℤ} (hstore : store.Consistent)
    (h : Path (step dumps) Persists (init maxQueueSize store) s) :
    (∀ e ∈ s.accepted,
      s.store.Has e.idempotencyKey ∨ e ∈ s.queue ∨ s.pc = .marking e ∨ s.pc = .appending e) ∧
    s.dropped = s.refusals ∧
    ∀ e ∈ s.raised, ∀ e' : UsageEvent M, e'.idempotencyKey = e.idempotencyKey → ∀ createdAt,
      (s.store.recordUsage dumps e' createdAt).count e.idempotencyKey = 1 := by
  have hsound : Sound s :=
    h.invariant Sound (sound_init hstore) fun _ _ _ hinv hok hs => hinv.step hok hs
  exact ⟨hsound.kept, hsound.dropped,
    fun e he e' hkey createdAt => hsound.count_retry he hkey createdAt⟩

/-- An event without metadata. -/
def sampleEvent : UsageEvent Unit := ⟨"k", "client", "quote_read", 1, ()⟩

/-- A run in which the reply of an `XADD` is lost and the event is recorded again. -/
theorem usage_is_kept_sample : ∃ s : UsageRecorder Unit,
    Path (step fun _ => some "\x7b\x7d") Persists (init 2 ⟨[], []⟩) s ∧ s.pc = .ended ∧
      sampleEvent ∈ s.raised ∧
      (s.store.recordUsage (fun _ => some "\x7b\x7d") sampleEvent 7).count
      sampleEvent.idempotencyKey = 1 := by
  obtain ⟨s, hpath, hended, hraised⟩ := Path.exists_of_exec (step fun _ => some "\x7b\x7d") Persists
    (init 2 ⟨[], []⟩)
    [.record sampleEvent, .get, .mark .ok, .append .lost 3, .record sampleEvent, .get,
      .mark .lost, .close, .exit]
    (fun s : UsageRecorder Unit => s.pc = .ended ∧ sampleEvent ∈ s.raised) (by decide +kernel)
  have hconsistent : UsageStore.Consistent ⟨[], []⟩ := ⟨fun _ => Iff.rfl, List.nodup_nil⟩
  exact ⟨s, hpath, hended, hraised, (usage_is_kept hconsistent hpath).2.2 _ hraised _ rfl 7⟩

/-- Redis refuses one `SET`, and an event is gone that was accepted. It refuses one `XADD`, and the
retry of the event appends nothing. -/
theorem usage_is_lost :
    (¬∀ s : UsageRecorder Unit, Path (step fun _ => some "\x7b\x7d") anyStep (init 2 ⟨[], []⟩) s →
      ∀ e ∈ s.accepted, s.store.Has e.idempotencyKey ∨ e ∈ s.queue ∨ s.pc = .marking e ∨
        s.pc = .appending e ∨ 0 < s.dropped) ∧
    ¬∀ s : UsageRecorder Unit, Path (step fun _ => some "\x7b\x7d") anyStep (init 2 ⟨[], []⟩) s →
      ∀ e ∈ s.raised, ∀ createdAt,
        (s.store.recordUsage (fun _ => some "\x7b\x7d") e createdAt).count
        e.idempotencyKey = 1 := by
  constructor
  · intro h
    obtain ⟨s, hpath, hlost⟩ := Path.exists_of_exec (step fun _ => some "\x7b\x7d") anyStep
      (init 2 ⟨[], []⟩) [.record sampleEvent, .get, .mark .refused]
      (fun s : UsageRecorder Unit => sampleEvent ∈ s.accepted ∧
        ¬(s.store.Has sampleEvent.idempotencyKey ∨ sampleEvent ∈ s.queue ∨
        s.pc = .marking sampleEvent ∨
          s.pc = .appending sampleEvent ∨ 0 < s.dropped)) (by decide +kernel)
    exact hlost.2 (h s hpath sampleEvent hlost.1)
  · intro h
    obtain ⟨s, hpath, hlost⟩ := Path.exists_of_exec (step fun _ => some "\x7b\x7d") anyStep
      (init 2 ⟨[], []⟩) [.record sampleEvent, .get, .mark .ok, .append .refused 3]
      (fun s : UsageRecorder Unit => sampleEvent ∈ s.raised ∧
        (s.store.recordUsage (fun _ => some "\x7b\x7d") sampleEvent 4).count
        sampleEvent.idempotencyKey = 0)
      (by decide +kernel)
    have hone := h s hpath sampleEvent hlost.1 4
    omega

end UsageRecorder

end MarketDataGateway.Usage
