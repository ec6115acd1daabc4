import MarketDataGateway.Archive.Worker

/-!
# An entry that no worker claims

An `XAUTOCLAIM` examines 2000 pending entries at most, and goes on there at the next call. Where ten
workers read 200 new entries each between their calls, and none of them is acknowledged, the end of
the pending list recedes from their cursors as fast as they come closer to it, and none of them
returns to the start. An entry there has been idle for long enough and is never returned
(`exists_unreturned`).

The workers go through rounds, one each second, in which each has its turn (`turn_backlog`): new
quotes are published, it claims nothing, reads them, and the database refuses the first of them.
-/

namespace MarketDataGateway.Archive.Worker

open Lib Streams
open Pipeline (Outcome Fields)

/-- In a run, the workers `calls` call `_claim_stale` in turn and get the replies. None of them has
the entry, and no other worker gets a reply. -/
inductive Unreturned (cfg : Settings) (id : ℕ) (st : State) : List ℕ → State → Prop
  /-- No step. -/
  | refl : Unreturned cfg id st [] st
  /-- Any other step. -/
  | other {calls : List ℕ} {t u : State} (a : Label) : Unreturned cfg id st calls t →
      (∀ i, ¬ Claims i t a) → step cfg t a = some u → Unreturned cfg id st calls u
  /-- A call that does not return the entry. -/
  | call {calls : List ℕ} {t u : State} (i : ℕ) : Unreturned cfg id st calls t →
      Claims i t (.run i .ok) → id ∉ (t.shared.claimReply cfg t.now (t.cursor i)).1 →
      step cfg t (.run i .ok) = some u → Unreturned cfg id st (calls ++ [i]) u

/-- The second in which an entry is delivered: the first 2200 in the first one, and then 2000 in
each. -/
def deliverySecond (id : ℕ) : ℕ := (id - 2200) / 2000

/-- In the second `second`, ten workers are about to claim, each from its own cursor. The first
`tail` entries have been delivered, each in its own second, and nothing has been acknowledged. -/
structure Backlog (second tail : ℕ) (cursor : ℕ → ℕ) (st : State) : Prop where
  now : milliseconds st.now = 1000 * second
  delivered : st.shared.pending.group.delivered = tail
  acked : st.shared.pending.group.acked = []
  workers : ∀ i < 10, st.workers[i]? = some ⟨cursor i, .claim⟩
  deliveredAt : ∀ e ∈ st.shared.pending.pel, e.deliveredAt = 1000 * deliverySecond e.id

section Runs

variable {cfg : Settings} {st t u : State} {id i second tail : ℕ} {calls calls' : List ℕ}
  {cursor : ℕ → ℕ}

/-- A run in which no call returns the entry is a run. -/
theorem Unreturned.path (h : Unreturned cfg id st calls t) : Path (step cfg) anyStep st t := by
  induction h with
  | refl => exact .refl
  | other a _ _ hstep ih => exact ih.tail a trivial hstep
  | call i _ _ _ hstep ih => exact ih.tail _ trivial hstep

/-- Such runs compose. -/
theorem Unreturned.trans (h : Unreturned cfg id st calls t) (h' : Unreturned cfg id t calls' u) :
    Unreturned cfg id st (calls ++ calls') u := by
  induction h' with
  | refl =>
    rw [List.append_nil]
    exact h
  | other a _ hnot hstep ih => exact ih.other a hnot hstep
  | call i _ hclaims hnot hstep ih =>
    rw [← List.append_assoc]
    exact ih.call i hclaims hnot hstep

/-- A worker that is not about to claim does not claim. -/
theorem not_claims_of_pc {sink : Sink} {outcome : Outcome} (hi : st.workers[i]? = some sink)
    (hpc : sink.pc ≠ .claim) (j : ℕ) : ¬ Claims j st (.run i outcome) := by
  rintro ⟨hrun, sink', hj, hclaim⟩
  obtain ⟨rfl, -⟩ := Label.run.inj hrun
  obtain rfl := Option.some.inj (hi.symm.trans hj)
  exact hpc hclaim

/-- The quote that is published again and again. -/
def backlogQuote : Fields := .quote (.sample 1 0 100)

/-- Publishing makes the stream longer, and nothing else. -/
theorem publish_backlog (cfg : Settings) (id : ℕ) (h : Backlog second tail cursor st) (k : ℕ) :
    ∃ t, Unreturned cfg id st [] t ∧ Backlog second tail cursor t ∧
      tail + k ≤ t.shared.pending.group.entries.length := by
  induction k with
  | zero =>
    refine ⟨st, .refl, h, ?_⟩
    rw [← h.delivered]
    exact st.shared.pending.group.delivered_le
  | succ k ih =>
    obtain ⟨t, hrun, hback, hlength⟩ := ih
    refine ⟨_, hrun.other (.publish backlogQuote) ?_ rfl,
      ⟨hback.now, hback.delivered, hback.acked, hback.workers, hback.deliveredAt⟩, ?_⟩
    · rintro i ⟨hrun, -⟩
      cases hrun
    · change _ ≤ (t.shared.pending.group.entries ++ [backlogQuote]).length
      rw [List.length_append, List.length_singleton]
      omega

/-- A claim that gets nothing is followed by a read. -/
theorem workerStep_claim {clock : Timestamp} {s : Shared} {c : ℕ}
    (hreply : (s.claimReply cfg clock c).1 = []) :
    workerStep cfg clock i s .ok ⟨c, .claim⟩ =
      some ({ s with
        pending := s.pending.xautoclaim i (milliseconds clock) cfg.candleArchiveClaimIdleMs c 200 },
        ⟨(s.claimReply cfg clock c).2.getD 0, .read []⟩) := by
  simp only [workerStep, send, hreply, Shared.messages, List.filterMap_nil, List.length_nil]
  rfl

/-- Whatever a worker is about to do, a failure takes it back to its next claim. -/
theorem workerStep_refused {clock : Timestamp} {s : Shared} {c : ℕ} {pc : Pc}
    (hpc : pc ≠ .stopped) :
    workerStep cfg clock i s .refused ⟨c, pc⟩ = some (s, ⟨c, .claim⟩) := by
  cases pc with
  | persist w event =>
    simp only [workerStep]
    cases persistEvent s.db event <;> rfl
  | stopped => exact absurd rfl hpc
  | _ => rfl

/-- The next message is one, or there is none. -/
theorem nextMessage_ne_stopped (batch : List (ℕ × Fields)) : nextMessage batch ≠ .stopped := by
  unfold nextMessage
  split
  · exact Pc.noConfusion
  · split <;> exact Pc.noConfusion

/-- What the workers share after the turn of the worker at `i`, whose claim gets nothing. -/
def Shared.turn (cfg : Settings) (clock : Timestamp) (i c : ℕ) (s : Shared) : Shared :=
  { s with
    pending := (s.pending.xautoclaim i (milliseconds clock) cfg.candleArchiveClaimIdleMs c
      200).xreadgroup i (milliseconds clock) 200 }

/-- The steps of a worker whose claim gets nothing: it claims, it reads, and what it does next is
refused. -/
theorem exists_turn (id : ℕ) {clock : Timestamp} {s : Shared} {workers : List Sink} {c : ℕ}
    (hworker : workers[i]? = some ⟨c, .claim⟩) (hnone : (s.claimReply cfg clock c).1 = []) :
    ∃ workers', Unreturned cfg id ⟨clock, s, workers⟩ [i] ⟨clock, s.turn cfg clock i c, workers'⟩ ∧
      ∀ j, workers'[j]? =
        if j = i then some ⟨(s.claimReply cfg clock c).2.getD 0, .claim⟩ else workers[j]? := by
  -- The worker claims nothing, reads what is next, and is refused what it does then.
  let next := (s.claimReply cfg clock c).2.getD 0
  let s₁ : Shared := { s with
    pending := s.pending.xautoclaim i (milliseconds clock) cfg.candleArchiveClaimIdleMs c 200 }
  let pc := nextMessage (s₁.pending.group.fresh 200)
  let workers₁ := workers.set i ⟨next, .read []⟩
  let workers₂ := workers₁.set i ⟨next, pc⟩
  have hlt := (List.getElem?_eq_some_iff.1 hworker).1
  have hreads : workers₁[i]? = some ⟨next, .read []⟩ := List.getElem?_set_self hlt
  have hgoesOn : workers₂[i]? = some ⟨next, pc⟩ := List.getElem?_set_self (by rwa [List.length_set])
  -- The three steps, one by one.
  have hclaim : step cfg ⟨clock, s, workers⟩ (.run i .ok) = some ⟨clock, s₁, workers₁⟩ := by
    simp only [step, hworker, Option.bind_some, workerStep_claim hnone, Option.map_some]
    rfl
  have hread : step cfg ⟨clock, s₁, workers₁⟩ (.run i .ok) =
      some ⟨clock, s.turn cfg clock i c, workers₂⟩ := by
    simp only [step, hreads, Option.bind_some]
    rfl
  have hrefused : step cfg ⟨clock, s.turn cfg clock i c, workers₂⟩ (.run i .refused) =
      some ⟨clock, s.turn cfg clock i c, workers₂.set i ⟨next, .claim⟩⟩ := by
    simp only [step, hgoesOn, Option.bind_some, workerStep_refused (nextMessage_ne_stopped _),
      Option.map_some, pc]
  have hcursor : State.cursor ⟨clock, s, workers⟩ i = c := by
    rw [State.cursor, hworker]
    rfl
  refine ⟨workers₂.set i ⟨next, .claim⟩, ?_, fun j => ?_⟩
  · have hrun : Unreturned cfg id ⟨clock, s, workers⟩ [i] ⟨clock, s₁, workers₁⟩ := by
      refine Unreturned.call i .refl ⟨rfl, _, hworker, rfl⟩ ?_ hclaim
      rw [hcursor, hnone]
      exact List.not_mem_nil
    refine (hrun.other _ (not_claims_of_pc hreads Pc.noConfusion) hread).other _ ?_ hrefused
    rintro j ⟨hlabel, -⟩
    cases hlabel
  · split_ifs with hj
    · subst hj
      exact List.getElem?_set_self (by rwa [List.length_set, List.length_set])
    · have hne : i ≠ j := fun h => hj h.symm
      rw [List.getElem?_set_ne hne, List.getElem?_set_ne hne, List.getElem?_set_ne hne]

/-- What the pending list has after a turn: what it had, and 200 entries that are new. -/
theorem delivered_turn (i : ℕ) {clock : Timestamp} {s : Shared} {c : ℕ}
    (hnone : (s.claimReply cfg clock c).1 = [])
    (hentries : s.pending.group.delivered + 200 ≤ s.pending.group.entries.length) :
    (s.turn cfg clock i c).pending.group.delivered = s.pending.group.delivered + 200 ∧
      ∀ e ∈ (s.turn cfg clock i c).pending.pel, e ∈ s.pending.pel ∨
        e.deliveredAt = milliseconds clock ∧ s.pending.group.delivered ≤ e.id ∧
          e.id < s.pending.group.delivered + 200 := by
  have hlength := s.pending.group.length_fresh 200
  refine ⟨?_, fun e he => ?_⟩
  · change s.pending.group.delivered + (s.pending.group.fresh 200).length = _
    omega
  · rcases List.mem_append.1 he with he | he
    · left
      rwa [PendingGroup.pel_xautoclaim i hnone] at he
    · right
      obtain ⟨⟨id, fields⟩, hfresh, rfl⟩ := List.mem_map.1 he
      obtain ⟨hle, hlt, -⟩ := ConsumerGroup.mem_fresh.1 hfresh
      exact ⟨rfl, hle, hlt⟩

/-- A claim gets nothing if no entry from its cursor on has been delivered in the last half
minute. -/
theorem claimReply_backlog (h : Backlog second tail cursor st) (c : ℕ)
    (hold : ∀ id, c ≤ id → id < tail → second < deliverySecond id + 30) :
    st.shared.claimReply {} st.now c = ([], if c + 2000 < tail then some (c + 2000) else none) := by
  rw [← h.delivered]
  refine PendingGroup.claimable_of_not_idle h.acked (by decide) fun e he hle => ?_
  have hpending := (st.shared.pending.mem_pel e.id).1 (List.mem_map_of_mem he)
  have hsecond := hold e.id hle (h.delivered ▸ hpending.1)
  rw [h.deliveredAt e he, h.now]
  change 1000 * (second : ℤ) - 1000 * (deliverySecond e.id : ℤ) < 30000
  omega

/-- The cursor of a worker after its turn. -/
def nextCursor (tail c : ℕ) : ℕ := if c + 2000 < tail then c + 2000 else 0

/-- The turn of a worker: new quotes are published, its claim gets nothing, it reads them, and the
database refuses the first. -/
theorem turn_backlog (id : ℕ) (h : Backlog second tail cursor st) (hi : i < 10)
    (hold : ∀ id, cursor i ≤ id → id < tail → second < deliverySecond id + 30)
    (hnew : ∀ id, tail ≤ id → id < tail + 200 → deliverySecond id = second) :
    ∃ t, Unreturned {} id st [i] t ∧
      Backlog second (tail + 200) (Function.update cursor i (nextCursor tail (cursor i))) t := by
  obtain ⟨⟨clock, s, workers⟩, hpublished, hback, hentries⟩ :=
    publish_backlog {} id h 200
  have hreply : s.claimReply {} clock (cursor i) = _ := claimReply_backlog hback (cursor i) hold
  have hnone : (s.claimReply {} clock (cursor i)).1 = [] := by rw [hreply]
  have htail : s.pending.group.delivered = tail := hback.delivered
  obtain ⟨workers', hturn, hworkers⟩ := exists_turn id (hback.workers i hi) hnone
  obtain ⟨hdelivered, hpel⟩ := delivered_turn i hnone (htail ▸ hentries)
  refine ⟨_, hpublished.trans hturn, hback.now, hdelivered.trans (htail ▸ rfl), hback.acked, ?_, ?_⟩
  · intro j hj
    rw [hworkers j]
    by_cases hji : j = i
    · subst hji
      rw [if_pos rfl, Function.update_self, hreply, nextCursor]
      split_ifs <;> rfl
    · rw [if_neg hji, Function.update_of_ne hji]
      exact hback.workers j hj
  · intro e he
    rcases hpel e he with he | ⟨hnow, hle, hlt⟩
    · exact hback.deliveredAt e he
    · rw [hnow, hnew e.id (htail ▸ hle) (htail ▸ hlt)]
      exact hback.now

/-- The turns of the first `k` workers in a second. -/
theorem turns_backlog (id : ℕ) {n : ℕ}
    (h : Backlog n (2000 * n + 2200) (fun _ => 2000 * n) st) (k : ℕ)
    (hk : k ≤ 10) : ∃ t, Unreturned {} id st (List.range k) t ∧
      Backlog n (2000 * n + 2200 + 200 * k)
        (fun i => if i < k then 2000 * (n + 1) else 2000 * n) t := by
  induction k with
  | zero => exact ⟨st, .refl, h⟩
  | succ k ih =>
    obtain ⟨t, hrun, hback⟩ := ih (by omega)
    -- The next worker looks at entries that are too young for it, and reads the newest.
    obtain ⟨u, hturn, hback'⟩ := turn_backlog id hback (Nat.lt_of_succ_le hk)
      (fun id hle hlt => by
        rw [if_neg (lt_irrefl k)] at hle
        unfold deliverySecond
        omega)
      fun id hle hlt => by
        unfold deliverySecond
        omega
    have hcursor : (Function.update (fun i => if i < k then 2000 * (n + 1) else 2000 * n) k
        (nextCursor (2000 * n + 2200 + 200 * k) (if k < k then 2000 * (n + 1) else 2000 * n))) =
        fun i => if i < k + 1 then 2000 * (n + 1) else 2000 * n := by
      funext i
      rw [if_neg (lt_irrefl k), nextCursor, if_pos (by omega), Function.update_apply]
      split_ifs <;> omega
    have htail : 2000 * n + 2200 + 200 * k + 200 = 2000 * n + 2200 + 200 * (k + 1) := by omega
    rw [hcursor, htail] at hback'
    refine ⟨u, ?_, hback'⟩
    rw [List.range_succ]
    exact hrun.trans hturn

/-- A second: each of the workers has its turn, and the clock advances. -/
theorem second_backlog (id n : ℕ) (h : Backlog n (2000 * n + 2200) (fun _ => 2000 * n) st) :
    ∃ t, Unreturned {} id st (List.range 10) t ∧
      Backlog (n + 1) (2000 * (n + 1) + 2200) (fun _ => 2000 * (n + 1)) t := by
  obtain ⟨t, hrun, hback⟩ := turns_backlog id h 10 le_rfl
  refine ⟨_, hrun.other (.tick 1000000) (fun i hclaims => Label.noConfusion hclaims.1) rfl,
    ⟨?_, hback.delivered.trans (by omega), hback.acked, fun i hi => ?_, hback.deliveredAt⟩⟩
  · have hnow := hback.now
    unfold milliseconds at hnow ⊢
    push_cast
    omega
  · have hworker := hback.workers i hi
    rwa [if_pos hi] at hworker

/-- Ten workers have started. -/
theorem exists_started :
    ∃ st, Path (step {}) anyStep (.init 0) st ∧ Backlog 0 0 (fun _ => 0) st := by
  have hstarted : exec (step {}) anyStep (.init 0) (List.replicate 10 .startWorker) =
      some ⟨0, ⟨.empty, .empty, .empty⟩, List.replicate 10 ⟨0, .claim⟩⟩ := rfl
  refine ⟨_, .of_exec hstarted, rfl, rfl, rfl, fun i hi => ?_,
    fun e he => absurd he List.not_mem_nil⟩
  exact List.getElem?_replicate_of_lt hi

/-- One of the workers reads the first 2200 entries. -/
theorem exists_filled : ∃ st, Path (step {}) anyStep (.init 0) st ∧
    Backlog 0 2200 (fun _ => 0) st := by
  have hfill : ∀ k ≤ 11, ∃ st, Path (step {}) anyStep (.init 0) st ∧
      Backlog 0 (200 * k) (fun _ => 0) st := by
    intro k hk
    induction k with
    | zero => exact exists_started
    | succ k ih =>
      obtain ⟨st, hpath, hback⟩ := ih (by omega)
      obtain ⟨t, hturn, hback'⟩ := turn_backlog 0 hback (Nat.succ_pos 9)
        (fun id _ _ => by omega) fun id hle hlt => by
          unfold deliverySecond
          omega
      have hcursor : Function.update (fun _ => 0) 0 (nextCursor (200 * k) 0) = fun _ : ℕ => 0 := by
        funext i
        rw [nextCursor, if_neg (by omega), Function.update_apply]
        split_ifs <;> rfl
      rw [hcursor] at hback'
      exact ⟨t, hpath.trans hturn.path, hback'⟩
  exact hfill 11 le_rfl

/-- The first second after the first half minute. -/
theorem exists_backlog (n : ℕ) : ∃ st, Path (step {}) anyStep (.init 0) st ∧
    Backlog n (2000 * n + 2200) (fun _ => 2000 * n) st := by
  induction n with
  | zero => exact exists_filled
  | succ n ih =>
    obtain ⟨st, hpath, hback⟩ := ih
    obtain ⟨t, hrun, hback'⟩ := second_backlog 0 n hback
    exact ⟨t, hpath.trans hrun.path, hback'⟩

/-- The first entry is pending, and after half a minute it has been idle for long enough. -/
theorem claimable_backlog {n : ℕ} (h : Backlog n (2000 * n + 2200) cursor st) (hn : 30 ≤ n) :
    Claimable {} st 0 := by
  have hpending : st.shared.pending.group.Pending 0 := by
    refine ⟨by rw [h.delivered]; omega, ?_⟩
    rw [h.acked]
    exact List.not_mem_nil
  obtain ⟨e, he, hid⟩ := List.mem_map.1 ((st.shared.pending.mem_pel 0).2 hpending)
  refine ⟨e, he, hid, ?_⟩
  have hzero : deliverySecond 0 = 0 := rfl
  have hidle : (({} : Settings).candleArchiveClaimIdleMs : ℤ) = 30000 := rfl
  rw [h.deliveredAt e he, h.now, hid, hzero, hidle]
  omega

/-- In a run that goes on without end, each of ten workers calls `_claim_stale` and gets the reply
in each second, and none of the replies has the entry, which is pending and has been idle for long
enough. -/
theorem exists_unreturned : ∃ run : ℕ → State, Path (step {}) anyStep (.init 0) (run 0) ∧
    ∀ n, Claimable {} (run n) 0 ∧ Unreturned {} 0 (run n) (List.range 10) (run (n + 1)) := by
  obtain ⟨first, hpath, hfirst⟩ := exists_backlog 30
  have hseconds : ∀ (n : ℕ) (st : State), Backlog n (2000 * n + 2200) (fun _ => 2000 * n) st →
      ∃ t, Unreturned {} 0 st (List.range 10) t ∧
        Backlog (n + 1) (2000 * (n + 1) + 2200) (fun _ => 2000 * (n + 1)) t :=
    fun n _ => second_backlog 0 n
  choose! next hrun hback using hseconds
  let run : ℕ → State := fun n => Nat.rec first (fun n st => next (n + 30) st) n
  have hall : ∀ n, Backlog (n + 30) (2000 * (n + 30) + 2200) (fun _ =>
      2000 * (n + 30)) (run n) := by
    intro n
    induction n with
    | zero => exact hfirst
    | succ n ih =>
      have hnext := hback (n + 30) (run n) ih
      rwa [Nat.add_right_comm n 30 1] at hnext
  exact ⟨run, hpath, fun n => ⟨claimable_backlog (hall n) (by omega), hrun _ _ (hall n)⟩⟩

end Runs

end MarketDataGateway.Archive.Worker
