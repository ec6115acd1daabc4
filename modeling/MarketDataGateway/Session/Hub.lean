import Mathlib.Data.Finset.Card
import MarketDataGateway.Access.Profiles
import MarketDataGateway.Registry.Redis

/-!
# The hub of the connections

`ConnectionHub` of `qos.py`, and `validate_symbol_count`. The hub holds the sessions of a gateway,
each with the symbols that it has subscribed to, and for each symbol the connections to which its
quotes go. The two agree in every hub that is reached (`Reachable.consistent`).
-/

namespace MarketDataGateway.Session

open Lib
open Access.Profiles (ServiceTier ClientIdentity)
open Registry (ConnId)

/-- What the code of a session raises. -/
inductive SessionError
  /-- `pydantic.ValidationError`. Its text is left out. -/
  | validationError
  /-- `ValueError`. -/
  | valueError (message : PyStr)
  /-- `AuthorizationError`. -/
  | authorizationError (message : PyStr)
  /-- `TypeError`. -/
  | typeError
  /-- `KeyError`. -/
  | keyError
  /-- `decimal.Overflow`. -/
  | overflow
  /-- `RecursionError`. -/
  | recursionError
  /-- `UnicodeEncodeError`, which is a `ValueError`. -/
  | unicodeEncodeError
  deriving DecidableEq

/-- `validate_symbol_count`, by the `max_symbols` of the tiers. -/
def validateSymbolCount (maxSymbols : ServiceTier → ℤ) (tier : ServiceTier) (count : ℕ) :
    Except SessionError Unit :=
  let limit := maxSymbols tier
  if limit < count then .error (.valueError (text s!"symbol limit exceeded: {count} > {limit}"))
  else .ok ()

/-- `ClientSession`, without what its sender reads. -/
structure ClientSession where
  /-- `identity`. -/
  identity : ClientIdentity
  /-- `subscriptions`. -/
  subscriptions : Finset Symbol

/-- `ConnectionHub`. -/
structure Hub where
  /-- `_sessions`. -/
  sessions : ConnId → Option ClientSession
  /-- `_symbol_sessions`. A symbol without connections has no key. -/
  symbolSessions : Symbol → Finset ConnId

namespace Hub

/-- A hub without sessions. -/
def empty : Hub := ⟨fun _ => none, fun _ => ∅⟩

variable (hub : Hub) (maxSymbols : ServiceTier → ℤ) (conn : ConnId) (symbols : List Symbol)

/-- The symbols of a connection. -/
def subscriptions : Finset Symbol := ((hub.sessions conn).map (·.subscriptions)).getD ∅

/-- `add`. -/
def add (session : ClientSession) : Hub :=
  { hub with sessions := Function.update hub.sessions conn (some session) }

/-- `remove`. -/
def remove : Hub :=
  match hub.sessions conn with
  | none => hub
  | some session =>
    { sessions := Function.update hub.sessions conn none
      symbolSessions := fun symbol =>
        if symbol ∈ session.subscriptions then (hub.symbolSessions symbol).erase conn
        else hub.symbolSessions symbol }

/-- `subscribe`, of a set of symbols that is given as a list. It returns those that are added. -/
def subscribe : Except SessionError (List Symbol × Hub) :=
  match hub.sessions conn with
  | none => .error .keyError
  | some session =>
    let combined := session.subscriptions ∪ symbols.toFinset
    match validateSymbolCount maxSymbols session.identity.tier combined.card with
    | .error e => .error e
    | .ok () =>
      let added := symbols.filter fun symbol => symbol ∉ session.subscriptions
      .ok (added, {
        sessions := Function.update hub.sessions conn
          (some { session with subscriptions := session.subscriptions ∪ added.toFinset })
        symbolSessions := fun symbol =>
          if symbol ∈ added then insert conn (hub.symbolSessions symbol)
          else hub.symbolSessions symbol })

/-- `unsubscribe`, of a set of symbols that is given as a list. It returns those that are
removed. -/
def unsubscribe : Except SessionError (List Symbol × Hub) :=
  match hub.sessions conn with
  | none => .error .keyError
  | some session =>
    let removed := symbols.filter fun symbol => symbol ∈ session.subscriptions
    .ok (removed, {
      sessions := Function.update hub.sessions conn
        (some { session with subscriptions := session.subscriptions \ removed.toFinset })
      symbolSessions := fun symbol =>
        if symbol ∈ removed then (hub.symbolSessions symbol).erase conn
        else hub.symbolSessions symbol })

/-- The symbols of the sessions are those for which the hub publishes to them. -/
def Consistent : Prop :=
  ∀ symbol conn, conn ∈ hub.symbolSessions symbol ↔ symbol ∈ hub.subscriptions conn

variable {hub maxSymbols conn symbols} {hub' : Hub} {session : ClientSession}
  {changed : List Symbol}
  {c : ConnId} {symbol : Symbol}

/-! ## What the operations do -/

/-- The subscriptions of a connection are those of its session. -/
theorem subscriptions_eq (h : hub.sessions conn = some session) :
    hub.subscriptions conn = session.subscriptions := by
  unfold subscriptions
  rw [h]
  rfl

/-- What changes one session only keeps the hub consistent if it does so for that session. -/
theorem Consistent.change (h : hub.Consistent)
    (hsessions : ∀ c, c ≠ conn → hub'.sessions c = hub.sessions c)
    (hothers : ∀ symbol c, c ≠ conn →
    (c ∈ hub'.symbolSessions symbol ↔ c ∈ hub.symbolSessions symbol))
    (hself : ∀ symbol, conn ∈ hub'.symbolSessions symbol ↔ symbol ∈ hub'.subscriptions conn) :
    hub'.Consistent := by
  intro symbol c
  by_cases hc : c = conn
  · rw [hc]
    exact hself symbol
  · have hsubs : hub'.subscriptions c = hub.subscriptions c := by
      unfold subscriptions
      rw [hsessions c hc]
    rw [hothers symbol c hc, hsubs]
    exact h symbol c

/-- A `subscribe` that succeeds. -/
structure Subscribed (hub : Hub) (conn : ConnId) (symbols added : List Symbol) (hub' : Hub) :
    Prop where
  added : added = symbols.filter fun symbol => symbol ∉ hub.subscriptions conn
  subscriptions : hub'.subscriptions conn = hub.subscriptions conn ∪ symbols.toFinset
  others : ∀ c, c ≠ conn → hub'.sessions c = hub.sessions c
  identity : (hub'.sessions conn).map (·.identity) = (hub.sessions conn).map (·.identity)
  consistent : hub.Consistent → hub'.Consistent

/-- `subscribe` succeeds for a session that does not come to too many symbols. -/
theorem exists_subscribe (h : hub.sessions conn = some session)
    (hcount : validateSymbolCount maxSymbols session.identity.tier
      (hub.subscriptions conn ∪ symbols.toFinset).card = .ok ()) :
    ∃ added hub', hub.subscribe maxSymbols conn symbols = .ok (added, hub') ∧
      Subscribed hub conn symbols added hub' := by
  have hsubs := subscriptions_eq h
  rw [hsubs] at hcount
  -- The hub that the call comes to, written out.
  let added := symbols.filter fun symbol => symbol ∉ session.subscriptions
  let joined : ClientSession :=
    { session with subscriptions := session.subscriptions ∪ added.toFinset }
  let hub' : Hub := {
    sessions := Function.update hub.sessions conn (some joined)
    symbolSessions := fun symbol =>
      if symbol ∈ added then insert conn (hub.symbolSessions symbol)
        else hub.symbolSessions symbol }
  have hrun : hub.subscribe maxSymbols conn symbols = .ok (added, hub') := by
    unfold subscribe
    rw [h]
    dsimp only
    rw [hcount]
  have hsession : hub'.sessions conn = some joined := Function.update_self _ _ _
  have hothers (c : ConnId) (hc : c ≠ conn) : hub'.sessions c = hub.sessions c :=
    Function.update_of_ne hc _ _
  -- The symbols that are new come to those that are there: all that are asked for.
  have hunion : hub'.subscriptions conn = hub.subscriptions conn ∪ symbols.toFinset := by
    rw [subscriptions_eq hsession, hsubs]
    ext symbol
    simp only [joined, added, Finset.mem_union, List.mem_toFinset, List.mem_filter,
      decide_eq_true_eq]
    tauto
  refine ⟨added, hub', hrun, by rw [hsubs], hunion, hothers, by rw [hsession, h]; rfl, ?_⟩
  -- The index of another connection stays, and that of this one has the new symbols.
  refine fun hconsistent => hconsistent.change hothers (fun symbol c hc => ?_) fun symbol => ?_
  · show c ∈ (if _ then _ else _) ↔ _
    split_ifs
    · rw [Finset.mem_insert, or_iff_right hc]
    · rfl
  · rw [subscriptions_eq hsession, Finset.mem_union, List.mem_toFinset, ← hsubs, ← hconsistent]
    show conn ∈ (if _ then _ else _) ↔ _
    split_ifs with hadded
    · simp only [Finset.mem_insert_self, hadded, or_true]
    · simp only [hadded, or_false]

/-- An `unsubscribe` that succeeds. -/
structure Unsubscribed (hub : Hub) (conn : ConnId) (symbols removed : List Symbol) (hub' : Hub) :
    Prop where
  removed : removed = symbols.filter fun symbol => symbol ∈ hub.subscriptions conn
  subscriptions : hub'.subscriptions conn = hub.subscriptions conn \ symbols.toFinset
  others : ∀ c, c ≠ conn → hub'.sessions c = hub.sessions c
  identity : (hub'.sessions conn).map (·.identity) = (hub.sessions conn).map (·.identity)
  consistent : hub.Consistent → hub'.Consistent

/-- `unsubscribe` succeeds for a session. -/
theorem exists_unsubscribe (h : hub.sessions conn = some session) :
    ∃ removed hub', hub.unsubscribe conn symbols = .ok (removed, hub') ∧
      Unsubscribed hub conn symbols removed hub' := by
  have hsubs := subscriptions_eq h
  -- The hub that the call comes to, written out.
  let removed := symbols.filter fun symbol => symbol ∈ session.subscriptions
  let left : ClientSession :=
    { session with subscriptions := session.subscriptions \ removed.toFinset }
  let hub' : Hub := {
    sessions := Function.update hub.sessions conn (some left)
    symbolSessions := fun symbol =>
      if symbol ∈ removed then (hub.symbolSessions symbol).erase conn
      else hub.symbolSessions symbol }
  have hrun : hub.unsubscribe conn symbols = .ok (removed, hub') := by
    unfold unsubscribe
    rw [h]
  have hsession : hub'.sessions conn = some left := Function.update_self _ _ _
  have hothers (c : ConnId) (hc : c ≠ conn) : hub'.sessions c = hub.sessions c :=
    Function.update_of_ne hc _ _
  have hsdiff : hub'.subscriptions conn = hub.subscriptions conn \ symbols.toFinset := by
    rw [subscriptions_eq hsession, hsubs]
    ext symbol
    simp only [left, removed, Finset.mem_sdiff, List.mem_toFinset, List.mem_filter,
      decide_eq_true_eq]
    tauto
  refine ⟨removed, hub', hrun, by rw [hsubs], hsdiff, hothers, by rw [hsession, h]; rfl, ?_⟩
  -- The index of another connection stays, and that of this one loses the symbols.
  refine fun hconsistent => hconsistent.change hothers (fun symbol c hc => ?_) fun symbol => ?_
  · show c ∈ (if _ then _ else _) ↔ _
    split_ifs
    · rw [Finset.mem_erase, and_iff_right hc]
    · rfl
  · rw [subscriptions_eq hsession, Finset.mem_sdiff, List.mem_toFinset, ← hsubs, ← hconsistent]
    show conn ∈ (if _ then _ else _) ↔ _
    split_ifs with hremoved
    · simp only [Finset.notMem_erase, hremoved, not_true_eq_false, and_false]
    · simp only [hremoved, not_false_eq_true, and_true]

/-- An empty hub is consistent. -/
theorem consistent_empty : empty.Consistent := by
  intro symbol conn
  exact iff_of_false (Finset.notMem_empty conn) (Finset.notMem_empty symbol)

/-- A connection that is new to the hub is added without symbols. -/
theorem Consistent.add (h : hub.Consistent) (hnew : hub.sessions conn = none)
    (hsession : session.subscriptions = ∅) : (hub.add conn session).Consistent := by
  have hnone : hub.subscriptions conn = ∅ := by
    unfold subscriptions
    rw [hnew]
    rfl
  refine h.change (fun c hc => Function.update_of_ne hc _ _) (fun _ _ _ => Iff.rfl) fun symbol => ?_
  rw [subscriptions_eq (Function.update_self _ _ _), hsession, ← hnone]
  exact h symbol conn

/-- A connection that is removed leaves the hub consistent. -/
theorem Consistent.remove (h : hub.Consistent) : (hub.remove conn).Consistent := by
  unfold Hub.remove
  cases hsession : hub.sessions conn with
  | none => exact h
  | some session =>
    have hsubs := subscriptions_eq hsession
    refine h.change (fun c hc => Function.update_of_ne hc _ _) (fun symbol c hc =>
      ?_) fun symbol => ?_
    · show c ∈ (if _ then _ else _) ↔ _
      split_ifs
      · rw [Finset.mem_erase, and_iff_right hc]
      · rfl
    · have hnone (f : Symbol → Finset ConnId) :
          (Hub.mk (Function.update hub.sessions conn none) f).subscriptions conn = ∅ := by
        show ((Function.update hub.sessions conn none conn).map _).getD ∅ = ∅
        rw [Function.update_self]
        rfl
      rw [hnone]
      refine iff_of_false ?_ (Finset.notMem_empty symbol)
      show conn ∉ (if _ then _ else _)
      split_ifs with hmem
      · exact Finset.notMem_erase _ _
      · rw [h symbol conn, hsubs]
        exact hmem

/-- A `subscribe` that returns has added the symbols. -/
theorem subscribed_of_ok (h : hub.subscribe maxSymbols conn symbols = .ok (changed, hub')) :
    Subscribed hub conn symbols changed hub' := by
  have hrun := h
  unfold subscribe at h
  split at h
  · exact absurd h nofun
  · next session hsession =>
    dsimp only at h
    split at h
    · exact absurd h nofun
    · next hcount =>
      rw [← subscriptions_eq hsession] at hcount
      obtain ⟨added, joined, hok, hsubscribed⟩ := exists_subscribe hsession hcount
      have heq := Except.ok.inj (hok.symm.trans hrun)
      rw [Prod.mk.injEq] at heq
      rwa [heq.1, heq.2] at hsubscribed

/-- An `unsubscribe` that returns has removed the symbols. -/
theorem unsubscribed_of_ok (h : hub.unsubscribe conn symbols = .ok (changed, hub')) :
    Unsubscribed hub conn symbols changed hub' := by
  have hrun := h
  unfold unsubscribe at h
  split at h
  · exact absurd h nofun
  · next session hsession =>
    obtain ⟨removed, left, hok, hunsubscribed⟩ :=
      @exists_unsubscribe hub conn symbols session hsession
    have heq := Except.ok.inj (hok.symm.trans hrun)
    rw [Prod.mk.injEq] at heq
    rwa [heq.1, heq.2] at hunsubscribed

/-! ## Runs -/

/-- The hubs that the operations lead to. A connection's id is new when it is added. -/
inductive Reachable (maxSymbols : ServiceTier → ℤ) : Hub → Prop
  | empty : Reachable maxSymbols empty
  | add {hub : Hub} {conn : ConnId} {session : ClientSession} : Reachable maxSymbols hub →
      hub.sessions conn = none → session.subscriptions = ∅ →
      Reachable maxSymbols (hub.add conn session)
  | remove {hub : Hub} {conn : ConnId} : Reachable maxSymbols hub →
      Reachable maxSymbols (hub.remove conn)
  | subscribe {hub hub' : Hub} {conn : ConnId} {symbols added : List Symbol} :
      Reachable maxSymbols hub → hub.subscribe maxSymbols conn symbols = .ok (added, hub') →
      Reachable maxSymbols hub'
  | unsubscribe {hub hub' : Hub} {conn : ConnId} {symbols removed : List Symbol} :
      Reachable maxSymbols hub → hub.unsubscribe conn symbols = .ok (removed, hub') →
      Reachable maxSymbols hub'

/-- In every hub that is reached, quotes go to those who have subscribed. -/
theorem Reachable.consistent (h : Reachable maxSymbols hub) : hub.Consistent := by
  induction h with
  | empty => exact consistent_empty
  | add _ hnew hsession ih => exact ih.add hnew hsession
  | remove _ ih => exact ih.remove
  | subscribe _ hrun ih => exact (subscribed_of_ok hrun).consistent ih
  | unsubscribe _ hrun ih => exact (unsubscribed_of_ok hrun).consistent ih

end Hub

end MarketDataGateway.Session
