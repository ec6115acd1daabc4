import Mathlib.Data.Rat.Floor
import MarketDataGateway.Lib.TokenBucket
import MarketDataGateway.Lib.Transition

/-!
# The token bucket of the rate limiter

`RedisTokenBucket.allow` of `rate_limit.py` and its Lua script, with numbers that are exact. A key
expires some time after the last call, and the script starts with a full bucket when there is none.
The time to live is long enough for the bucket to be full by then (`script_visible`), so that each
call is one of a bucket that is refilled all the time, and the bounds of that one hold.
-/

namespace MarketDataGateway.Access.RateLimit

open Lib

/-! ## The script -/

/-- The hash at the key. -/
structure Stored where
  /-- `tokens`. -/
  tokens : ℚ
  /-- `updated_at`. -/
  updatedAt : ℚ

/-- The key, and when it expires. -/
structure Key where
  /-- The hash. -/
  stored : Stored
  /-- The time at which it expires. -/
  expiresAt : ℚ

/-- `_TOKEN_BUCKET_SCRIPT`, at the time `now`: its reply and the key after it. -/
def script (capacity refillRate cost ttl now : ℚ) (state : Option Stored) : (Bool × ℚ) × Key :=
  let tokens := match state with
    | none => capacity
    | some s => min capacity (s.tokens + max 0 (now - s.updatedAt) * refillRate)
  if cost ≤ tokens then ((true, tokens - cost), ⟨⟨tokens - cost, now⟩, now + ttl⟩)
  else ((false, tokens), ⟨⟨tokens, now⟩, now + ttl⟩)

/-- The settings of a bucket. -/
structure Config where
  /-- `requests_per_minute`. -/
  requestsPerMinute : ℤ
  /-- `burst_capacity`. -/
  burstCapacity : Option ℕ

/-- `capacity`. A burst capacity of zero is none. -/
def Config.capacity (cfg : Config) : ℤ :=
  match cfg.burstCapacity with
  | none | some 0 => max 5 ⌈(cfg.requestsPerMinute : ℚ) / 6⌉
  | some c => c

/-- `refill_rate`. -/
def Config.refillRate (cfg : Config) : ℚ := cfg.requestsPerMinute / 60

/-- `ttl`. -/
def Config.ttl (cfg : Config) : ℤ := max 60 ⌈cfg.capacity / cfg.refillRate * 2⌉

/-- `allow`: its result and the key after it. -/
def allow (cfg : Config) (cost : ℕ) (now : ℚ) (key : Option Key) : (Bool × ℚ) × Option Key :=
  if cfg.requestsPerMinute ≤ 0 then ((false, 0), key)
  else
    let result := script cfg.capacity cfg.refillRate cost cfg.ttl now (key.map Key.stored)
    (result.1, some result.2)

/-! ## The calls on one key -/

/-- The key, the time, and the calls that were allowed. -/
structure State where
  /-- The key. -/
  key : Option Key
  /-- The time of the last call. -/
  clock : ℚ
  /-- The time and the cost of each call that was allowed. -/
  charges : List (Charge ℚ)

/-- A call of a process, at a time of the server. -/
structure Call where
  /-- The time. -/
  now : ℚ
  /-- `cost`. -/
  cost : ℕ
  /-- Whether the key has expired by then. -/
  expired : Bool

/-- Before the first call. -/
def State.init (clock : ℚ) : State := ⟨none, clock, []⟩

/-- A key can be gone from the time at which it expires on, and is there until then. -/
def Call.Possible (a : Call) (st : State) : Prop :=
  st.clock ≤ a.now ∧
    if a.expired then ∀ k ∈ st.key, k.expiresAt ≤ a.now else ∀ k ∈ st.key, a.now ≤ k.expiresAt

instance (a : Call) (st : State) : Decidable (a.Possible st) := by
  unfold Call.Possible
  cases st.key with
  | none => exact decidable_of_iff (st.clock ≤ a.now) (by simp)
  | some k =>
    exact decidable_of_iff (st.clock ≤ a.now ∧
      if a.expired then k.expiresAt ≤ a.now else a.now ≤ k.expiresAt) (by simp)

/-- One call. -/
def step (cfg : Config) (st : State) (a : Call) : Option State :=
  if a.Possible st then
    let result := allow cfg a.cost a.now (if a.expired then none else st.key)
    some ⟨result.2, a.now,
      if result.1.1 then st.charges ++ [(a.now, (a.cost : ℚ))] else st.charges⟩
  else none

/-! ## Expiry -/

section Expiry

variable {cfg : Config} {now cost ttl capacity refillRate : ℚ} {s : Stored} {key : Option Key}
  {st st' : State} {a : Call}

/-- The stored hash as a bucket. -/
def Stored.bucket (s : Stored) : Bucket ℚ := ⟨s.tokens, s.updatedAt⟩

/-- The script is a call of the bucket that is stored, or of a full one. -/
theorem script_eq (capacity refillRate cost ttl now : ℚ) (s : Stored) :
    (script capacity refillRate cost ttl now (some s)).1.1 =
        s.bucket.allows capacity refillRate now cost ∧
      (script capacity refillRate cost ttl now (some s)).2.stored.bucket =
        s.bucket.call capacity refillRate now cost := by
  unfold script Bucket.call Bucket.allows Bucket.refilled Stored.bucket
  dsimp only
  split_ifs with hle hallowed hallowed
  · exact ⟨(decide_eq_true hle).symm, rfl⟩
  · exact absurd (decide_eq_true hle) hallowed
  · exact absurd (of_decide_eq_true hallowed) hle
  · exact ⟨(decide_eq_false hle).symm, rfl⟩

/-- The script stores the time at which it ran, and expires a time-to-live later. -/
theorem expiresAt_script (capacity refillRate cost ttl now : ℚ) (state : Option Stored) :
    (script capacity refillRate cost ttl now state).2.expiresAt = now + ttl ∧
      (script capacity refillRate cost ttl now state).2.stored.updatedAt = now := by
  unfold script
  dsimp only
  split_ifs
  · exact ⟨rfl, rfl⟩
  · exact ⟨rfl, rfl⟩

/-- The script does the same without the key as with a bucket that is full by then. -/
theorem script_none (hfull : s.bucket.refilled capacity refillRate now = capacity) :
    script capacity refillRate cost ttl now none =
      script capacity refillRate cost ttl now (some s) := by
  unfold Bucket.refilled Stored.bucket at hfull
  unfold script
  dsimp only at hfull ⊢
  rw [hfull]

/-- The refill rate is positive if requests per minute are. -/
theorem refillRate_pos (hrpm : 0 < cfg.requestsPerMinute) : 0 < cfg.refillRate := by
  have hcast : (0 : ℚ) < cfg.requestsPerMinute := by exact_mod_cast hrpm
  exact div_pos hcast (by norm_num)

/-- A bucket holds at least one request. -/
theorem one_le_capacity (cfg : Config) : 1 ≤ cfg.capacity := by
  unfold Config.capacity
  split
  · exact le_trans (by norm_num) (le_max_left _ _)
  · exact le_trans (by norm_num) (le_max_left _ _)
  · next c hzero hsome =>
    have hpos : c ≠ 0 := hzero
    omega

/-- What comes in during the time to live fills the bucket. -/
theorem capacity_le_ttl (hrpm : 0 < cfg.requestsPerMinute) :
    (cfg.capacity : ℚ) ≤ cfg.ttl * cfg.refillRate := by
  have hrate := refillRate_pos hrpm
  have hcapacity : (1 : ℚ) ≤ cfg.capacity := by exact_mod_cast one_le_capacity cfg
  have hceil : (cfg.capacity : ℚ) / cfg.refillRate * 2 ≤ cfg.ttl :=
    calc (cfg.capacity : ℚ) / cfg.refillRate * 2
        ≤ (⌈(cfg.capacity : ℚ) / cfg.refillRate * 2⌉ : ℤ) := Int.le_ceil _
      _ ≤ cfg.ttl := by
        unfold Config.ttl
        exact_mod_cast le_max_right _ _
  calc (cfg.capacity : ℚ) ≤ cfg.capacity * 2 := by linarith
    _ = cfg.capacity / cfg.refillRate * 2 * cfg.refillRate := by
      rw [mul_right_comm, div_mul_cancel₀ _ hrate.ne']
    _ ≤ cfg.ttl * cfg.refillRate := mul_le_mul_of_nonneg_right hceil hrate.le

/-- The hash, or a full bucket before the first call. -/
def State.stored (cfg : Config) (st : State) : Stored :=
  match st.key with
  | none => ⟨cfg.capacity, st.clock⟩
  | some k => k.stored

/-- The hash is a bucket within bounds, refilled up to the last call, and its key expires the time
to live after that. -/
structure Tracks (cfg : Config) (st : State) : Prop where
  bounded : Bucket.Bounded (cfg.capacity : ℚ) cfg.refillRate (st.stored cfg).bucket st.charges
  updatedAt : (st.stored cfg).updatedAt = st.clock
  expiresAt : ∀ k ∈ st.key, k.expiresAt = st.clock + cfg.ttl

/-- The invariant holds at the start. -/
theorem tracks_init (hrpm : 0 < cfg.requestsPerMinute) (clock : ℚ) : Tracks cfg (.init clock) where
  bounded := by
    have hcapacity : (1 : ℚ) ≤ cfg.capacity := by exact_mod_cast one_le_capacity cfg
    exact Bucket.bounded_full (by linarith) (refillRate_pos hrpm).le clock
  updatedAt := rfl
  expiresAt := nofun

/-- The bucket is full from the time at which its key expires on. -/
theorem Tracks.refilled_eq (h : Tracks cfg st) (hrpm : 0 < cfg.requestsPerMinute)
    (ha : a.Possible st) (hnone : (if a.expired then none else st.key) = none) :
    (st.stored cfg).bucket.refilled (cfg.capacity : ℚ) cfg.refillRate a.now = cfg.capacity := by
  obtain ⟨hclock, hexpired⟩ := ha
  have hrate := refillRate_pos hrpm
  have hnow : (st.stored cfg).bucket.time ≤ a.now := h.updatedAt.trans_le hclock
  cases hkey : st.key with
  | none =>
    -- There has been no call.
    refine Bucket.refilled_full hrate.le hnow ?_
    unfold State.stored
    rw [hkey]
    rfl
  | some k =>
    have hgone : a.expired = true := by
      by_contra hthere
      rw [if_neg hthere, hkey] at hnone
      exact Option.some_ne_none k hnone
    rw [if_pos hgone] at hexpired
    refine Bucket.refilled_idle h.bounded.nonneg hnow ?_
    have hidle : (cfg.ttl : ℚ) ≤ a.now - (st.stored cfg).bucket.time := by
      have hlate := hexpired k hkey
      rw [h.expiresAt k hkey] at hlate
      have htime : (st.stored cfg).bucket.time = st.clock := h.updatedAt
      linarith
    exact (capacity_le_ttl hrpm).trans (mul_le_mul_of_nonneg_right hidle hrate.le)

/-- The script does on the key that a call finds what it does on the hash, expired or not. -/
theorem script_visible (h : Tracks cfg st) (hrpm : 0 < cfg.requestsPerMinute)
    (ha : a.Possible st) (cost ttl : ℚ) :
    script cfg.capacity cfg.refillRate cost ttl a.now
        ((if a.expired then none else st.key).map Key.stored) =
      script cfg.capacity cfg.refillRate cost ttl a.now (some (st.stored cfg)) := by
  cases hvisible : (if a.expired then none else st.key) with
  | none => exact script_none (h.refilled_eq hrpm ha hvisible)
  | some k =>
    have hkey : st.key = some k := by
      split_ifs at hvisible
      exact hvisible
    unfold State.stored
    rw [hkey]
    rfl

/-- A call is one of the bucket. -/
theorem Tracks.step (h : Tracks cfg st) (hrpm : 0 < cfg.requestsPerMinute)
    (hs : step cfg st a = some st') : Tracks cfg st' := by
  unfold RateLimit.step at hs
  have ha : a.Possible st := by
    by_contra hnot
    rw [if_neg hnot] at hs
    exact Option.some_ne_none st' hs.symm
  rw [if_pos ha, Option.some.injEq] at hs
  subst hs
  have hnow : (st.stored cfg).bucket.time ≤ a.now := h.updatedAt.trans_le ha.1
  have hcall := h.bounded.call (refillRate_pos hrpm).le hnow (Nat.cast_nonneg a.cost)
  obtain ⟨hallowed, hbucket⟩ :=
    script_eq cfg.capacity cfg.refillRate a.cost cfg.ttl a.now (st.stored cfg)
  obtain ⟨hexpires, hupdated⟩ :=
    expiresAt_script cfg.capacity cfg.refillRate a.cost cfg.ttl a.now (some (st.stored cfg))
  unfold allow
  rw [if_neg (not_le.2 hrpm), script_visible h hrpm ha]
  refine ⟨?_, hupdated, fun k hk => ?_⟩
  · show Bucket.Bounded _ _ (script _ _ _ _ _ _).2.stored.bucket _
    rw [hbucket, hallowed]
    exact hcall
  · rw [← Option.some.inj hk]
    exact hexpires

end Expiry

/-! ## The bounds -/

/-- The invariant holds in every run. -/
theorem tracks_of_path {cfg : Config} {clock : ℚ} {st : State} (hrpm : 0 < cfg.requestsPerMinute)
    (h : Path (step cfg) anyStep (.init clock) st) : Tracks cfg st :=
  h.invariant (Tracks cfg) (tracks_init hrpm clock) fun _ _ _ hinv _ hs => hinv.step hrpm hs

/-- The tokens are within the capacity, an interval is allowed at most the capacity and what comes
in during it, and a call on an expired key does what it would have done on the bucket. -/
theorem allowed_le (cfg : Config) (clock : ℚ) (st : State) (hrpm : 0 < cfg.requestsPerMinute)
    (h : Path (step cfg) anyStep (.init clock) st) :
    (∀ k ∈ st.key, 0 ≤ k.stored.tokens ∧ k.stored.tokens ≤ cfg.capacity) ∧
      (∀ s w, 0 ≤ w → total (fun t => s ≤ t ∧ t ≤ s + w) st.charges ≤
        cfg.capacity + cfg.requestsPerMinute / 60 * w) ∧
      ∀ a : Call, a.Possible st → a.expired = true →
        allow cfg a.cost a.now none = allow cfg a.cost a.now st.key := by
  have htracks := tracks_of_path hrpm h
  refine ⟨fun k hk => ?_, fun s w hw => ?_, fun a ha hgone => ?_⟩
  · have hstored : st.stored cfg = k.stored := by
      unfold State.stored
      rw [Option.mem_def.1 hk]
    exact hstored ▸ ⟨htracks.bounded.nonneg, htracks.bounded.le_capacity⟩
  · have hbetween := htracks.bounded.between s (s + w) (le_add_of_nonneg_right hw)
    rw [add_sub_cancel_left] at hbetween
    exact hbetween
  · cases hkey : st.key with
    | none => rfl
    | some k =>
      have hvisible := script_visible htracks hrpm ha a.cost cfg.ttl
      unfold State.stored at hvisible
      unfold allow
      rw [if_pos hgone, hkey] at hvisible
      rw [if_neg (not_le.2 hrpm), if_neg (not_le.2 hrpm)]
      exact congrArg (fun result => (result.1, some result.2)) hvisible

/-- Three calls on a bucket of two: the second one leaves it empty, the third is after the key has
expired. -/
theorem allowed_le_expired : ∃ st,
    (Path (step ⟨60, some 2⟩) anyStep (.init 0) st ∧
        st.charges = [(1, 1), (1, 1), (61, 2)] ∧ ¬st.key = none) ∧
      (∀ k ∈ st.key, 0 ≤ k.stored.tokens ∧ k.stored.tokens ≤ Config.capacity ⟨60, some 2⟩) ∧
      (∀ s w, 0 ≤ w → total (fun t => s ≤ t ∧ t ≤ s + w) st.charges ≤
        Config.capacity ⟨60, some 2⟩ + (60 : ℤ) / 60 * w) ∧
      ∀ a : Call, a.Possible st → a.expired = true →
        allow ⟨60, some 2⟩ a.cost a.now none = allow ⟨60, some 2⟩ a.cost a.now st.key := by
  obtain ⟨st, hpath, hcharges, hkey⟩ := Path.exists_of_exec (step ⟨60, some 2⟩) anyStep (.init 0)
    [⟨1, 1, false⟩, ⟨1, 1, false⟩, ⟨1, 1, false⟩, ⟨61, 2, true⟩]
    (fun st => st.charges = [(1, 1), (1, 1), (61, 2)] ∧ st.key.isSome) (by decide +kernel)
  have hsome : ¬st.key = none := Option.isSome_iff_ne_none.1 hkey
  exact ⟨st, ⟨hpath, hcharges, hsome⟩, allowed_le ⟨60, some 2⟩ 0 st (by decide) hpath⟩

end MarketDataGateway.Access.RateLimit
