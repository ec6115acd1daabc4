import MarketDataGateway.Lib.Transition
import Mathlib.Data.List.Infix
import Mathlib.Data.List.Nodup

/-!
# The loader of candle histories

`CandleHistoryLoader` of `candle-history.ts`. The promises of the transport settle in any order,
whether or not their signals have been aborted, and what `load` does then runs in one step. A
transport may also throw when it is called. `abort()` calls the listeners of its signal before it
returns, so that `load` and `cancel` have two parts, between which a listener can call the loader;
and so can a transport when it is called.

The generation of a load is compared with that of the loader. The log says what this comes to: a
load is overtaken once there has been another load or a `cancel`. `cancel` forgets the controller
after its `abort()`, whosever it is by then, and the generation of a `load` is one that it takes
after its `abort()`. So a listener that calls `load` leaves a load without a controller
(`exists_not_fenced`). `loads_are_fenced` is about the runs in which listeners do not.
-/

namespace MarketDataGateway.Chart

open Lib

/-- `CandleHistoryFailureKind`. -/
inductive CandleHistoryFailureKind
  | unauthorized
  | forbidden
  | rateLimited
  | network
  | invalidResponse
  | server
  deriving DecidableEq

/-- `CandleHistoryError`. -/
structure CandleHistoryError where
  /-- `kind`. -/
  kind : CandleHistoryFailureKind
  /-- `message`. -/
  message : String
  /-- `status`. -/
  status : Option ℕ
  deriving DecidableEq

/-- What a transport throws, or its promise is rejected with. -/
inductive Thrown
  /-- A `CandleHistoryError`. -/
  | history (error : CandleHistoryError)
  /-- A `DOMException` of the name `AbortError`. -/
  | abort
  /-- Anything else. -/
  | other
  deriving DecidableEq

/-- `isAbortError`. -/
def Thrown.isAbortError : Thrown → Bool
  | .abort => true
  | _ => false

/-- `normalized`. -/
def Thrown.normalized : Thrown → CandleHistoryError
  | .history error => error
  | _ => ⟨.network, "Unable to load candle history", none⟩

/-- How a promise of the transport settles. -/
inductive Settlement (S : Type*)
  | resolved (series : S)
  | rejected (error : Thrown)
  deriving DecidableEq

/-- `CandleHistoryLoadOutcome`. -/
inductive LoadOutcome (S : Type*)
  | success (series : S)
  | failure (error : CandleHistoryError)
  | superseded
  deriving DecidableEq

/-- A load that waits for its transport. -/
structure Flight where
  /-- Which load this is. It stands for the `AbortController` too. -/
  id : ℕ
  /-- `generation`. -/
  generation : ℕ
  /-- `controller.signal.aborted`. -/
  aborted : Bool
  deriving DecidableEq

/-- What happens at the loader. -/
inductive LoaderEvent (S : Type*)
  /-- `load` is called. -/
  | loaded (id : ℕ)
  /-- `cancel` is called. -/
  | cancelled
  /-- A load yields its outcome. -/
  | completed (id : ℕ) (settlement : Settlement S) (outcome : LoadOutcome S)
  deriving DecidableEq

/-- `CandleHistoryLoader`, with the loads that are in flight. -/
structure CandleHistoryLoader (S : Type*) where
  /-- `generation`. -/
  generation : ℕ
  /-- `controller`. -/
  controller : Option ℕ
  /-- The loads in flight. -/
  flights : List Flight
  /-- How many loads there have been. -/
  loads : ℕ
  /-- What has happened, the last first. -/
  log : List (LoaderEvent S)

/-- A call that has not returned. -/
inductive PendingCall
  /-- A `load` that is at its `abort()`. -/
  | loading (id : ℕ)
  /-- A `load` that is at its call of the transport. -/
  | calling (id : ℕ)
  /-- A `cancel` that is at its `abort()`. -/
  | cancelling
  deriving DecidableEq

/-- The call is one of the transport. -/
def PendingCall.isCalling : PendingCall → Bool
  | calling _ => true
  | loading _ | cancelling => false

/-- The call is a `load` at its `abort()`. -/
def PendingCall.isLoading : PendingCall → Bool
  | loading _ => true
  | calling _ | cancelling => false

/-- The loader, and the calls that have not returned, the last first. -/
structure LoaderCalls (S : Type*) where
  /-- The loader. -/
  loader : CandleHistoryLoader S
  /-- The calls. -/
  calls : List PendingCall

/-- A step. -/
inductive LoaderAction (S : Type*)
  /-- `load` is called. -/
  | load
  /-- `cancel` is called. -/
  | cancel
  /-- What the last call waits for returns: the listeners of its signal, or its transport with a
  promise. -/
  | resume
  /-- The transport of the last call throws. -/
  | throws (error : Thrown)
  /-- A load goes on, after its promise has settled. -/
  | settle (id : ℕ) (settlement : Settlement S)

/-- `controller.abort()`. -/
def Flight.abort (controller : Option ℕ) (flight : Flight) : Flight :=
  if controller = some flight.id then { flight with aborted := true } else flight

namespace CandleHistoryLoader

variable {S : Type*}

/-- `new CandleHistoryLoader(transport)`. -/
def init : CandleHistoryLoader S := ⟨0, none, [], 0, []⟩

variable (s : CandleHistoryLoader S)

/-- `load`, up to and with its `abort()`. -/
def load : CandleHistoryLoader S :=
  { s with
    flights := s.flights.map (Flight.abort s.controller)
    loads := s.loads + 1
    log := .loaded s.loads :: s.log }

/-- `load`, after its `abort()` and up to its `await`. -/
def proceed (id : ℕ) : CandleHistoryLoader S :=
  { s with
    generation := s.generation + 1
    controller := some id
    flights := ⟨id, s.generation + 1, false⟩ :: s.flights }

/-- `cancel`, up to and with its `abort()`. -/
def cancel : CandleHistoryLoader S :=
  { s with
    generation := s.generation + 1
    flights := s.flights.map (Flight.abort s.controller)
    log := .cancelled :: s.log }

/-- `cancel`, after its `abort()`. -/
def forget : CandleHistoryLoader S := { s with controller := none }

/-- `abort()` calls listeners: the signal of the controller has not been aborted. -/
def listened : Bool := s.flights.any fun f => s.controller = some f.id && !f.aborted

/-- The outcome of a load. -/
def outcome (flight : Flight) : Settlement S → LoadOutcome S
  | .resolved series =>
    if flight.generation ≠ s.generation ∨ flight.aborted then .superseded else .success series
  | .rejected error =>
    if flight.generation ≠ s.generation ∨ flight.aborted ∨ error.isAbortError then .superseded
    else .failure error.normalized

/-- A load goes on after its `await`: it yields its outcome, and its `finally` runs. -/
def complete (flight : Flight) (settlement : Settlement S) : CandleHistoryLoader S :=
  { s with
    controller :=
      if flight.generation = s.generation ∧
        s.controller = some flight.id then none else s.controller
    flights := s.flights.filter fun f => f.id ≠ flight.id
    log := .completed flight.id settlement (s.outcome flight settlement) :: s.log }

/-- A load is in flight, and goes on. -/
def settle (id : ℕ) (settlement : Settlement S) : Option (CandleHistoryLoader S) :=
  (s.flights.find? fun f => f.id = id).map fun flight => s.complete flight settlement

end CandleHistoryLoader

namespace LoaderCalls

variable {S : Type*}

/-- A new loader. -/
def init : LoaderCalls S := ⟨.init, []⟩

/-- A step of the loader. A promise goes on when no call is left. -/
def step (w : LoaderCalls S) : LoaderAction S → Option (LoaderCalls S)
  | .load =>
    let id := w.loader.loads
    if w.loader.listened then some ⟨w.loader.load, .loading id :: w.calls⟩
    else some ⟨w.loader.load.proceed id, .calling id :: w.calls⟩
  | .cancel =>
    if w.loader.listened then some ⟨w.loader.cancel, .cancelling :: w.calls⟩
    else some ⟨w.loader.cancel.forget, w.calls⟩
  | .resume =>
    match w.calls with
    | [] => none
    | .loading id :: calls => some ⟨w.loader.proceed id, .calling id :: calls⟩
    | .calling _ :: calls => some ⟨w.loader, calls⟩
    | .cancelling :: calls => some ⟨w.loader.forget, calls⟩
  | .throws error =>
    match w.calls with
    | .calling id :: calls => (w.loader.settle id (.rejected error)).map (⟨·, calls⟩)
    | _ => none
  | .settle id settlement =>
    if w.calls = [] then (w.loader.settle id settlement).map (⟨·, []⟩) else none

/-- No call is at its `abort()`. -/
def Calm (w : LoaderCalls S) : Prop := ∀ c ∈ w.calls, c.isCalling = true

instance (w : LoaderCalls S) : Decidable w.Calm := inferInstanceAs (Decidable (∀ _ ∈ _, _))

/-- No listener of a signal calls `load`, and none of a signal that a `load` aborts calls
`cancel`. -/
def Quiet (w : LoaderCalls S) : LoaderAction S → Prop
  | .load => w.Calm
  | .cancel => ∀ c ∈ w.calls, c.isLoading = false
  | _ => True

instance (w : LoaderCalls S) : (a : LoaderAction S) → Decidable (w.Quiet a)
  | .load => inferInstanceAs (Decidable w.Calm)
  | .cancel => inferInstanceAs (Decidable (∀ _ ∈ _, _))
  | .resume | .throws _ | .settle _ _ => inferInstanceAs (Decidable True)

end LoaderCalls

/-! ## The log -/

namespace LoaderEvent

variable {S : Type*}

/-- A load or a `cancel` is issued. -/
def isIssue : LoaderEvent S → Bool
  | .completed .. => false
  | _ => true

/-- A load is issued. -/
def isLoad (id : ℕ) : LoaderEvent S → Bool
  | .loaded id' => id' = id
  | _ => false

/-- A load has completed. -/
def isCompletion (id : ℕ) : LoaderEvent S → Bool
  | .completed id' _ _ => id' = id
  | _ => false

end LoaderEvent

/-- A load or a `cancel` has been issued since a load. -/
def Overtaken {S : Type*} (log : List (LoaderEvent S)) (id : ℕ) : Prop :=
  ∃ e ∈ log.takeWhile fun e => !e.isLoad id, e.isIssue = true

instance {S : Type*} (log : List (LoaderEvent S)) (id : ℕ) : Decidable (Overtaken log id) :=
  inferInstanceAs (Decidable (∃ e ∈ _, _))

/-- The outcome of a load that has been overtaken or not. -/
def Settlement.verdict {S : Type*} (overtaken : Prop) [Decidable overtaken] :
    Settlement S → LoadOutcome S
  | .resolved series => if overtaken then .superseded else .success series
  | .rejected error =>
    if overtaken ∨ error.isAbortError then .superseded else .failure error.normalized

section Log

variable {S : Type*} {log : List (LoaderEvent S)} {e : LoaderEvent S} {id : ℕ}

/-- A later issue overtakes a load. -/
theorem overtaken_cons_of_isIssue (hissue : e.isIssue = true) (hne : e.isLoad id = false) :
    Overtaken (e :: log) id := by
  refine ⟨e, ?_, hissue⟩
  rw [List.takeWhile_cons, hne]
  exact List.mem_cons_self

/-- What is no issue overtakes no load. -/
theorem overtaken_cons_of_not_isIssue (hissue : e.isIssue = false) (hne : e.isLoad id = false) :
    Overtaken (e :: log) id ↔ Overtaken log id := by
  unfold Overtaken
  rw [List.takeWhile_cons, hne, Bool.not_false, if_pos rfl]
  simp only [List.mem_cons, exists_eq_or_imp, hissue, Bool.false_eq_true, false_or]

/-- A load that has just been made is not overtaken. -/
theorem not_overtaken_loaded : ¬Overtaken (.loaded id :: log) id := by
  rintro ⟨e, he, -⟩
  have hload : (LoaderEvent.loaded id : LoaderEvent S).isLoad id = true := decide_eq_true rfl
  rw [List.takeWhile_cons, hload] at he
  exact absurd he List.not_mem_nil

end Log

namespace CandleHistoryLoader

variable {S : Type*} {s t : CandleHistoryLoader S} {f : Flight} {id : ℕ} {settlement : Settlement S}

/-- A load in flight is of an older generation, and its signal is aborted, if and only if it has
been overtaken. The controller is that of the load in flight that has not been. -/
structure Fenced (s : CandleHistoryLoader S) : Prop where
  id_lt : ∀ f ∈ s.flights, f.id < s.loads
  nodup : (s.flights.map Flight.id).Nodup
  generation_le : ∀ f ∈ s.flights, f.generation ≤ s.generation
  overtaken : ∀ f ∈ s.flights, f.generation ≠ s.generation ↔ Overtaken s.log f.id
  aborted : ∀ f ∈ s.flights, f.aborted = true ↔ f.generation ≠ s.generation
  controller : ∀ id, s.controller = some id ↔
    ∃ f ∈ s.flights, f.id = id ∧ f.generation = s.generation
  loaded_lt : ∀ id, .loaded id ∈ s.log → id < s.loads
  loaded : ∀ f ∈ s.flights, .loaded f.id ∈ s.log
  pending : ∀ f ∈ s.flights, ∀ e ∈ s.log, e.isCompletion f.id = false
  outcomes : ∀ id settlement outcome rest, .completed id settlement outcome :: rest <:+ s.log →
    outcome = settlement.verdict (Overtaken rest id) ∧ .loaded id ∈ rest ∧
      ∀ e ∈ rest, e.isCompletion id = false

/-- An abort leaves the number of a load. -/
@[simp] theorem id_abort {c : Option ℕ} : (f.abort c).id = f.id := by
  unfold Flight.abort
  split_ifs <;> rfl

/-- An abort leaves the generation of a load. -/
@[simp] theorem generation_abort {c : Option ℕ} : (f.abort c).generation = f.generation := by
  unfold Flight.abort
  split_ifs <;> rfl

/-- An abort leaves the numbers of the loads. -/
theorem map_id_abort {c : Option ℕ} {flights : List Flight} :
    (flights.map (Flight.abort c)).map Flight.id = flights.map Flight.id := by
  rw [List.map_map]
  exact List.map_congr_left fun f _ => id_abort

/-- The signal of every load that is in flight is aborted when a load or a `cancel` is issued. -/
theorem Fenced.aborted_abort (h : Fenced s) (hf : f ∈ s.flights) :
    (f.abort s.controller).aborted = true := by
  unfold Flight.abort
  split_ifs with hc
  · rfl
  · refine (h.aborted f hf).2 fun hgeneration => hc ?_
    exact (h.controller f.id).2 ⟨f, hf, rfl, hgeneration⟩

/-- Only loads that were issued have completed. -/
theorem Fenced.isCompletion_of_le (h : Fenced s) (hid : s.loads ≤ id) :
    ∀ e ∈ s.log, e.isCompletion id = false := by
  intro e he
  cases e with
  | completed id' settlement outcome =>
    obtain ⟨later, rest, hlog⟩ := List.append_of_mem he
    have hsuffix : .completed id' settlement outcome :: rest <:+ s.log := ⟨later, hlog.symm⟩
    obtain ⟨-, hloaded, -⟩ := h.outcomes id' settlement outcome rest hsuffix
    have hlt := h.loaded_lt id' (hsuffix.subset (List.mem_cons_of_mem _ hloaded))
    refine decide_eq_false ?_
    omega
  | loaded id' => rfl
  | cancelled => rfl

/-- What a load and a `cancel` have in common: all that is in flight is overtaken. -/
theorem Fenced.issue (h : Fenced s) {e : LoaderEvent S} {loads : ℕ} (hissue : e.isIssue = true)
    (hloads : s.loads ≤ loads) (hload : ∀ id, e.isLoad id = true → s.loads ≤ id ∧ id < loads) :
    Fenced { s with
      generation := s.generation + 1
      controller := none
      flights := s.flights.map (Flight.abort s.controller)
      loads := loads
      log := e :: s.log } where
  id_lt := by
    refine List.forall_mem_map.2 fun f hf => ?_
    rw [id_abort]
    exact (h.id_lt f hf).trans_le hloads
  nodup := by
    rw [map_id_abort]
    exact h.nodup
  generation_le := by
    refine List.forall_mem_map.2 fun f hf => ?_
    rw [generation_abort]
    exact (h.generation_le f hf).trans (Nat.le_succ _)
  -- What has been issued before is overtaken, for the generation is a new one.
  overtaken := by
    refine List.forall_mem_map.2 fun f hf => ?_
    have hlt := h.id_lt f hf
    have hle := h.generation_le f hf
    have hne : e.isLoad f.id = false := by
      refine Bool.eq_false_iff.2 fun hl => ?_
      have hge := (hload f.id hl).1
      omega
    have hnext : f.generation ≠ s.generation + 1 := by omega
    rw [generation_abort, id_abort]
    exact iff_of_true hnext (overtaken_cons_of_isIssue hissue hne)
  aborted := by
    refine List.forall_mem_map.2 fun f hf => ?_
    have hle := h.generation_le f hf
    have hnext : f.generation ≠ s.generation + 1 := by omega
    rw [generation_abort]
    exact iff_of_true (h.aborted_abort hf) hnext
  -- Nothing of the new generation is in flight.
  controller id := by
    refine iff_of_false (fun hc => nomatch hc) ?_
    rintro ⟨f', hf', -, hgeneration⟩
    obtain ⟨f, hf, rfl⟩ := List.mem_map.1 hf'
    have hle := h.generation_le f hf
    have hnext : f.generation = s.generation + 1 := generation_abort.symm.trans hgeneration
    omega
  loaded_lt id hid := by
    obtain rfl | hid := List.mem_cons.1 hid
    · exact (hload id (decide_eq_true rfl)).2
    · exact (h.loaded_lt id hid).trans_le hloads
  loaded := by
    refine List.forall_mem_map.2 fun f hf => ?_
    rw [id_abort]
    exact List.mem_cons_of_mem _ (h.loaded f hf)
  pending := by
    refine List.forall_mem_map.2 fun f hf => ?_
    rw [id_abort]
    refine List.forall_mem_cons.2 ⟨?_, h.pending f hf⟩
    cases e with
    | completed => exact absurd hissue Bool.false_ne_true
    | loaded | cancelled => rfl
  outcomes id settlement outcome rest hsuffix := by
    obtain heq | hsuffix := List.suffix_cons_iff.1 hsuffix
    · rw [← (List.cons.inj heq).1] at hissue
      exact absurd hissue Bool.false_ne_true
    · exact h.outcomes id settlement outcome rest hsuffix

/-- A `cancel` that nothing comes in between. -/
theorem Fenced.cancel (h : Fenced s) : Fenced s.cancel.forget :=
  h.issue rfl (le_refl _) fun _ hl => absurd hl Bool.false_ne_true

/-- A `load` that nothing comes in between. -/
theorem Fenced.load (h : Fenced s) : Fenced (s.load.proceed s.loads) := by
  have hload : ∀ id, (LoaderEvent.loaded s.loads : LoaderEvent S).isLoad id = true →
      s.loads ≤ id ∧ id < s.loads + 1 := by
    intro id hl
    have heq : s.loads = id := of_decide_eq_true hl
    omega
  have hissued := h.issue rfl (Nat.le_succ _) hload
  -- The loads that came before are of older generations.
  have holder : ∀ f ∈ s.flights.map (Flight.abort s.controller),
      f.generation ≠ s.generation + 1 := by
    refine List.forall_mem_map.2 fun f hf => ?_
    have hle := h.generation_le f hf
    rw [generation_abort]
    omega
  exact {
    id_lt := List.forall_mem_cons.2 ⟨Nat.lt_succ_self _, hissued.id_lt⟩
    nodup := by
      refine List.nodup_cons.2 ⟨fun hmem => ?_, hissued.nodup⟩
      have hmem : s.loads ∈ (s.flights.map (Flight.abort s.controller)).map Flight.id := hmem
      rw [map_id_abort] at hmem
      obtain ⟨f, hf, heq⟩ := List.mem_map.1 hmem
      have hlt : f.id < s.loads := h.id_lt f hf
      exact absurd heq hlt.ne
    generation_le := List.forall_mem_cons.2 ⟨le_refl _, hissued.generation_le⟩
    overtaken := by
      refine List.forall_mem_cons.2 ⟨?_, hissued.overtaken⟩
      exact iff_of_false (not_not.2 rfl) not_overtaken_loaded
    aborted := by
      refine List.forall_mem_cons.2 ⟨?_, hissued.aborted⟩
      exact iff_of_false Bool.false_ne_true (not_not.2 rfl)
    -- Only the new load has the generation that is current.
    controller := by
      intro id
      constructor
      · exact fun hc => ⟨_, List.mem_cons_self, Option.some.inj hc, rfl⟩
      · rintro ⟨f, hf, hid, hgeneration⟩
        obtain rfl | hf := List.mem_cons.1 hf
        · exact congrArg some hid
        · exact absurd hgeneration (holder f hf)
    loaded_lt := hissued.loaded_lt
    loaded := List.forall_mem_cons.2 ⟨List.mem_cons_self, hissued.loaded⟩
    pending := by
      refine List.forall_mem_cons.2 ⟨?_, hissued.pending⟩
      exact List.forall_mem_cons.2 ⟨rfl, h.isCompletion_of_le (le_refl _)⟩
    outcomes := hissued.outcomes }

/-- The outcome of a load is what having been overtaken or not makes of its settlement. -/
theorem Fenced.outcome_eq (h : Fenced s) (hf : f ∈ s.flights) :
    s.outcome f settlement = settlement.verdict (Overtaken s.log f.id) := by
  have hovertaken : f.generation ≠ s.generation ∨ f.aborted = true ↔ Overtaken s.log f.id := by
    rw [h.aborted f hf, or_self]
    exact h.overtaken f hf
  cases settlement with
  | resolved series =>
    unfold outcome Settlement.verdict
    simp only [hovertaken]
  | rejected error =>
    unfold outcome Settlement.verdict
    simp only [← or_assoc, hovertaken]

/-- What is left in flight after a load has completed. -/
theorem mem_flights_complete {f' : Flight} :
    f' ∈ (s.complete f settlement).flights ↔ f' ∈ s.flights ∧ f'.id ≠ f.id := by
  unfold complete
  rw [List.mem_filter, decide_eq_true_eq]

/-- A load that completes leaves the loader fenced. -/
theorem Fenced.complete (h : Fenced s) (hf : f ∈ s.flights) : Fenced (s.complete f settlement) where
  id_lt f' hf' := h.id_lt f' (mem_flights_complete.1 hf').1
  nodup := (List.filter_sublist.map Flight.id).nodup h.nodup
  generation_le f' hf' := h.generation_le f' (mem_flights_complete.1 hf').1
  overtaken f' hf' := by
    have hmem := (mem_flights_complete.1 hf').1
    exact (h.overtaken f' hmem).trans (overtaken_cons_of_not_isIssue rfl rfl).symm
  aborted f' hf' := h.aborted f' (mem_flights_complete.1 hf').1
  controller id := by
    -- The controller is cleared only by the load that it belongs to.
    have hcontroller : (s.complete f settlement).controller = some id ↔
        s.controller = some id ∧ id ≠ f.id := by
      show (if f.generation = s.generation ∧ s.controller = some f.id then none
        else s.controller) = some id ↔ _
      split_ifs with hself
      · refine iff_of_false (fun hc => nomatch hc) fun ⟨hc, hne⟩ => hne ?_
        exact Option.some.inj (hc.symm.trans hself.2)
      · refine (and_iff_left_of_imp fun hc heq => hself ?_).symm
        rw [heq] at hc
        obtain ⟨f', hf', hid, hgeneration⟩ := (h.controller f.id).1 hc
        rw [List.inj_on_of_nodup_map h.nodup hf' hf hid] at hgeneration
        exact ⟨hgeneration, hc⟩
    rw [hcontroller, h.controller id]
    constructor
    · rintro ⟨⟨f', hf', rfl, hgeneration⟩, hne⟩
      exact ⟨f', mem_flights_complete.2 ⟨hf', hne⟩, rfl, hgeneration⟩
    · rintro ⟨f', hf', rfl, hgeneration⟩
      obtain ⟨hmem, hne⟩ := mem_flights_complete.1 hf'
      exact ⟨⟨f', hmem, rfl, hgeneration⟩, hne⟩
  loaded_lt id hid := by
    obtain heq | hid := List.mem_cons.1 hid
    · exact nomatch heq
    · exact h.loaded_lt id hid
  loaded f' hf' := List.mem_cons_of_mem _ (h.loaded f' (mem_flights_complete.1 hf').1)
  pending f' hf' := by
    obtain ⟨hmem, hne⟩ := mem_flights_complete.1 hf'
    exact List.forall_mem_cons.2 ⟨decide_eq_false hne.symm, h.pending f' hmem⟩
  outcomes id settlement' outcome rest hsuffix := by
    obtain heq | hsuffix := List.suffix_cons_iff.1 hsuffix
    · -- The outcome that has just been told, or one from before.
      obtain ⟨hevent, rfl⟩ := List.cons.inj heq
      obtain ⟨rfl, rfl, rfl⟩ := LoaderEvent.completed.inj hevent
      exact ⟨h.outcome_eq hf, h.loaded f hf, h.pending f hf⟩
    · exact h.outcomes id settlement' outcome rest hsuffix

/-- A load that is in flight may go on. -/
theorem Fenced.settle (h : Fenced s) (hs : s.settle id settlement = some t) : Fenced t := by
  obtain ⟨flight, hfind, rfl⟩ := Option.map_eq_some_iff.1 hs
  exact h.complete (List.mem_of_find?_eq_some hfind)

/-- A new loader has no loads. -/
theorem fenced_init : Fenced (init : CandleHistoryLoader S) where
  id_lt := List.forall_mem_nil _
  nodup := List.nodup_nil
  generation_le := List.forall_mem_nil _
  overtaken := List.forall_mem_nil _
  aborted := List.forall_mem_nil _
  controller _ := iff_of_false (fun hc => nomatch hc) fun ⟨_, hf, _⟩ => absurd hf List.not_mem_nil
  loaded_lt _ hid := absurd hid List.not_mem_nil
  loaded := List.forall_mem_nil _
  pending := List.forall_mem_nil _
  outcomes _ _ _ _ hsuffix := absurd (List.suffix_nil.1 hsuffix) (List.cons_ne_nil _ _)

/-- A load that has not completed is in flight. -/
def Tracked (s : CandleHistoryLoader S) : Prop :=
  ∀ id, .loaded id ∈ s.log → (∀ e ∈ s.log, e.isCompletion id = false) → ∃ f ∈ s.flights, f.id = id

/-- An abort leaves the loads in flight. -/
theorem Tracked.issue (h : Tracked s) (hid : .loaded id ∈ s.log)
    (hnot : ∀ e ∈ s.log, e.isCompletion id = false) :
    ∃ f ∈ s.flights.map (Flight.abort s.controller), f.id = id := by
  obtain ⟨f, hf, hf'⟩ := h id hid hnot
  exact ⟨_, List.mem_map_of_mem hf, id_abort.trans hf'⟩

/-- A `load` is in flight. -/
theorem Tracked.load (h : Tracked s) : Tracked (s.load.proceed s.loads) := by
  intro id hid hnot
  obtain heq | hid := List.mem_cons.1 hid
  · exact ⟨_, List.mem_cons_self, (LoaderEvent.loaded.inj heq).symm⟩
  · obtain ⟨f, hf, hf'⟩ := h.issue hid (List.forall_mem_cons.1 hnot).2
    exact ⟨f, List.mem_cons_of_mem _ hf, hf'⟩

/-- A `cancel` leaves the loads in flight. -/
theorem Tracked.cancel (h : Tracked s) : Tracked s.cancel.forget := by
  intro id hid hnot
  obtain heq | hid := List.mem_cons.1 hid
  · exact nomatch heq
  · exact h.issue hid (List.forall_mem_cons.1 hnot).2

/-- A load that goes on has completed. -/
theorem Tracked.settle (h : Tracked s) (hs : s.settle id settlement = some t) : Tracked t := by
  obtain ⟨flight, -, rfl⟩ := Option.map_eq_some_iff.1 hs
  intro id' hid hnot
  obtain heq | hid := List.mem_cons.1 hid
  · exact nomatch heq
  · obtain ⟨hself, hnot⟩ := List.forall_mem_cons.1 hnot
    obtain ⟨f, hf, hf'⟩ := h id' hid hnot
    refine ⟨f, mem_flights_complete.2 ⟨hf, fun heq => ?_⟩, hf'⟩
    exact of_decide_eq_false hself (heq.symm.trans hf')

end CandleHistoryLoader

/-! ## Calls -/

namespace LoaderCalls

open CandleHistoryLoader

variable {S : Type*} {w w' : LoaderCalls S}

/-- Where no call is at its `abort()` the loader is fenced. A `load` at its `abort()` is one of such
a loader, and a `cancel` at its `abort()` leaves one. -/
inductive Invariant : LoaderCalls S → Prop
  | calm {loader : CandleHistoryLoader S} {calls : List PendingCall} :
      Fenced loader → Tracked loader → (∀ c ∈ calls, c.isCalling = true) → Invariant ⟨loader, calls⟩
  | loading {loader : CandleHistoryLoader S} {calls : List PendingCall} :
      Fenced loader → Tracked loader → (∀ c ∈ calls, c.isCalling = true) →
      Invariant ⟨loader.load, .loading loader.loads :: calls⟩
  | cancelling {loader : CandleHistoryLoader S} {calls : List PendingCall} :
      Fenced loader.forget → Tracked loader.forget → (∀ f ∈ loader.flights, f.aborted = true) →
      (∀ c ∈ calls, c.isCalling = true) → Invariant ⟨loader, .cancelling :: calls⟩

/-- After a `cancel` every signal has been aborted. -/
theorem aborted_cancel {loader : CandleHistoryLoader S} (h : Fenced loader) :
    ∀ f ∈ loader.cancel.flights, f.aborted = true :=
  List.forall_mem_map.2 fun _ hf => h.aborted_abort hf

/-- A signal is aborted once. -/
theorem map_abort {flights : List Flight} {controller : Option ℕ}
    (h : ∀ f ∈ flights, f.aborted = true) : flights.map (Flight.abort controller) = flights := by
  refine (List.map_congr_left fun f hf => ?_).trans (List.map_id flights)
  unfold Flight.abort
  split_ifs
  · rw [← h f hf]
    rfl
  · rfl

/-- A second `cancel` changes no signal. -/
theorem cancel_forget {loader : CandleHistoryLoader S}
    (h : ∀ f ∈ loader.flights, f.aborted = true) :
    loader.cancel.forget = loader.forget.cancel.forget := by
  unfold cancel forget
  dsimp only
  rw [map_abort h, map_abort h]

/-- Where every signal has been aborted, `abort()` calls no listener. -/
theorem listened_eq_false {loader : CandleHistoryLoader S}
    (h : ∀ f ∈ loader.flights, f.aborted = true) :
    loader.listened = false := by
  refine List.any_eq_false.2 fun f hf => ?_
  rw [h f hf, Bool.not_true, Bool.and_false]
  exact Bool.false_ne_true

/-- What a step keeps, if it is no call of a listener. -/
theorem Invariant.step {a : LoaderAction S} (h : Invariant w) (hquiet : w.Quiet a)
    (hs : w.step a = some w') : Invariant w' := by
  -- Listeners run inside `load` and inside `cancel`, where the condition keeps them from coming
  -- back.
  cases h with
  | @calm loader calls hfenced htracked hcalm =>
    cases a with
    | load =>
      unfold LoaderCalls.step at hs
      dsimp only at hs
      split_ifs at hs
      · obtain rfl := Option.some.inj hs
        exact .loading hfenced htracked hcalm
      · obtain rfl := Option.some.inj hs
        exact .calm hfenced.load htracked.load (List.forall_mem_cons.2 ⟨rfl, hcalm⟩)
    | cancel =>
      unfold LoaderCalls.step at hs
      dsimp only at hs
      split_ifs at hs
      · obtain rfl := Option.some.inj hs
        exact .cancelling hfenced.cancel htracked.cancel (aborted_cancel hfenced) hcalm
      · obtain rfl := Option.some.inj hs
        exact .calm hfenced.cancel htracked.cancel hcalm
    | resume =>
      cases calls with
      | nil => exact nomatch hs
      | cons c calls =>
        obtain ⟨hc, hcalls⟩ := List.forall_mem_cons.1 hcalm
        cases c with
        | calling id =>
          obtain rfl := Option.some.inj hs
          exact .calm hfenced htracked hcalls
        | loading _ | cancelling => exact absurd hc Bool.false_ne_true
    | throws error =>
      cases calls with
      | nil => exact nomatch hs
      | cons c calls =>
        obtain ⟨hc, hcalls⟩ := List.forall_mem_cons.1 hcalm
        cases c with
        | calling id =>
          obtain ⟨t, ht, rfl⟩ := Option.map_eq_some_iff.1 hs
          exact .calm (hfenced.settle ht) (htracked.settle ht) hcalls
        | loading _ | cancelling => exact absurd hc Bool.false_ne_true
    | settle id settlement =>
      unfold LoaderCalls.step at hs
      dsimp only at hs
      split_ifs at hs
      obtain ⟨t, ht, rfl⟩ := Option.map_eq_some_iff.1 hs
      exact .calm (hfenced.settle ht) (htracked.settle ht) (List.forall_mem_nil _)
  | @loading loader calls hfenced htracked hcalm =>
    cases a with
    | load => exact absurd (List.forall_mem_cons.1 hquiet).1 Bool.false_ne_true
    | cancel => exact absurd (List.forall_mem_cons.1 hquiet).1.symm Bool.false_ne_true
    | resume =>
      obtain rfl := Option.some.inj hs
      exact .calm hfenced.load htracked.load (List.forall_mem_cons.2 ⟨rfl, hcalm⟩)
    | throws _ => exact nomatch hs
    | settle _ _ => exact nomatch hs
  | @cancelling loader calls hfenced htracked haborted hcalm =>
    -- All signals have been aborted, so that another `cancel` tells no listener.
    cases a with
    | load => exact absurd (List.forall_mem_cons.1 hquiet).1 Bool.false_ne_true
    | cancel =>
      unfold LoaderCalls.step at hs
      dsimp only at hs
      rw [listened_eq_false haborted, if_neg Bool.false_ne_true] at hs
      obtain rfl := Option.some.inj hs
      refine .cancelling ?_ ?_ ?_ hcalm
      · show Fenced loader.cancel.forget
        rw [cancel_forget haborted]
        exact hfenced.cancel
      · show Tracked loader.cancel.forget
        rw [cancel_forget haborted]
        exact htracked.cancel
      · show ∀ f ∈ loader.flights.map (Flight.abort loader.controller), f.aborted = true
        rw [map_abort haborted]
        exact haborted
    | resume =>
      obtain rfl := Option.some.inj hs
      exact .calm hfenced htracked hcalm
    | throws _ => exact nomatch hs
    | settle _ _ => exact nomatch hs

/-- What has completed had been issued, had not completed before, and has the outcome of a load that
had been overtaken or not. -/
theorem Invariant.outcomes (h : Invariant w) {id : ℕ} {settlement : Settlement S}
    {outcome : LoadOutcome S} {rest : List (LoaderEvent S)}
    (hsuffix : .completed id settlement outcome :: rest <:+ w.loader.log) :
    outcome = settlement.verdict (Overtaken rest id) ∧ .loaded id ∈ rest ∧
      ∀ e ∈ rest, e.isCompletion id = false := by
  cases h with
  | calm hfenced => exact hfenced.outcomes id settlement outcome rest hsuffix
  | loading hfenced =>
    obtain heq | hsuffix := List.suffix_cons_iff.1 hsuffix
    · exact nomatch heq
    · exact hfenced.outcomes id settlement outcome rest hsuffix
  | cancelling hfenced => exact hfenced.outcomes id settlement outcome rest hsuffix

/-- In every state of a loader that listeners do not call: a load that has completed had been
issued, completed once, and yielded `success` or `failure` only if neither a load nor a `cancel` had
been issued in between; if one had, it yielded `superseded`. Where no call is at its `abort()`, the
controller is that of a load if and only if the load has been issued and has not completed, and
nothing has been issued since; and `cancel` leaves no signal of a load in flight that is not
aborted. -/
theorem loads_are_fenced (h : Path step Quiet init w) :
    (∀ id settlement outcome rest, .completed id settlement outcome :: rest <:+ w.loader.log →
      .loaded id ∈ rest ∧ (∀ e ∈ rest, e.isCompletion id = false) ∧
      outcome = settlement.verdict (Overtaken rest id)) ∧
    (w.Calm → (∀ id, w.loader.controller = some id ↔ .loaded id ∈ w.loader.log ∧
        (∀ e ∈ w.loader.log, e.isCompletion id = false) ∧ ¬Overtaken w.loader.log id) ∧
      (∀ f ∈ w.loader.flights, f.aborted = true ↔ Overtaken w.loader.log f.id) ∧
      ∀ f ∈ w.loader.cancel.flights, f.aborted = true) := by
  have hinvariant : Invariant w := h.invariant Invariant
    (.calm fenced_init (fun _ hid => absurd hid List.not_mem_nil) (List.forall_mem_nil _))
    fun _ _ _ hinv hquiet hs => hinv.step hquiet hs
  refine ⟨fun id settlement outcome rest hsuffix => ?_, fun hcalm => ?_⟩
  · obtain ⟨hverdict, hloaded, honce⟩ := hinvariant.outcomes hsuffix
    exact ⟨hloaded, honce, hverdict⟩
  cases hinvariant with
  | loading => exact absurd (List.forall_mem_cons.1 hcalm).1 Bool.false_ne_true
  | cancelling => exact absurd (List.forall_mem_cons.1 hcalm).1 Bool.false_ne_true
  | calm hfenced htracked =>
    refine ⟨fun id => ?_, fun f hf => (hfenced.aborted f hf).trans (hfenced.overtaken f hf),
      aborted_cancel hfenced⟩
    rw [hfenced.controller id]
    constructor
    · rintro ⟨f, hf, rfl, hgeneration⟩
      exact ⟨hfenced.loaded f hf, hfenced.pending f hf,
        fun hover => (hfenced.overtaken f hf).2 hover hgeneration⟩
    · rintro ⟨hloaded, hpending, hnot⟩
      obtain ⟨f, hf, rfl⟩ := htracked id hloaded hpending
      exact ⟨f, hf, rfl, not_not.1 fun hne => hnot ((hfenced.overtaken f hf).1 hne)⟩

/-- Four loads, the first of which completes last, and the transport of the third of which
throws. -/
theorem loads_are_fenced_sample : ∃ w : LoaderCalls ℕ, Path step Quiet init w ∧
    .completed 0 (.resolved 7) .superseded ∈ w.loader.log ∧
    .completed 1 (.resolved 9) (.success 9) ∈ w.loader.log ∧
    w.loader.controller = some 3 ∧ ∀ f ∈ w.loader.cancel.flights, f.aborted = true := by
  obtain ⟨w, hpath, hfirst, hsecond, hcontroller, hcalm⟩ := Path.exists_of_exec step Quiet
    (init : LoaderCalls ℕ)
    [.load, .resume, .load, .resume, .resume, .settle 1 (.resolved 9), .settle 0 (.resolved 7),
      .load, .throws .other, .load, .resume]
    (fun w => .completed 0 (.resolved 7) .superseded ∈ w.loader.log ∧
      .completed 1 (.resolved 9) (.success 9) ∈ w.loader.log ∧
      w.loader.controller = some 3 ∧ w.Calm)
    (by decide)
  exact ⟨w, hpath, hfirst, hsecond, hcontroller, ((loads_are_fenced hpath).2 hcalm).2.2⟩

/-- A listener that calls `load` within `cancel` leaves a load without a controller, which the next
`cancel` does not abort; and a load within which a listener calls `cancel` yields `success`. -/
theorem exists_not_fenced :
    (∃ w : LoaderCalls ℕ, Path step anyStep init w ∧ w.Calm ∧ .loaded 1 ∈ w.loader.log ∧
      (∀ e ∈ w.loader.log, e.isCompletion 1 = false) ∧ ¬Overtaken w.loader.log 1 ∧
      w.loader.controller = none ∧ ∃ f ∈ w.loader.cancel.flights, f.id = 1 ∧ f.aborted = false) ∧
    ∃ (w : LoaderCalls ℕ) (rest : List (LoaderEvent ℕ)), Path step anyStep init w ∧
      w.loader.log = .completed 1 (.resolved 7) (.success 7) :: rest ∧ Overtaken rest 1 := by
  constructor
  · exact Path.exists_of_exec step anyStep (init : LoaderCalls ℕ)
      [.load, .resume, .cancel, .load, .resume, .resume] _ (by decide)
  · obtain ⟨w, hpath, hlog, hovertaken⟩ := Path.exists_of_exec step anyStep (init : LoaderCalls ℕ)
      [.load, .resume, .load, .cancel, .resume, .resume, .settle 1 (.resolved 7)]
      (fun w => w.loader.log.head? = some (.completed 1 (.resolved 7) (.success 7)) ∧
        Overtaken w.loader.log.tail 1) (by decide)
    exact ⟨w, w.loader.log.tail, hpath, (List.cons_head?_tail hlog).symm, hovertaken⟩

end LoaderCalls

end MarketDataGateway.Chart
