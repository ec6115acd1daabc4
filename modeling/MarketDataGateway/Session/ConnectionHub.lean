import MarketDataGateway.Lib.Transition
import MarketDataGateway.Models.Wire
import MarketDataGateway.Session.Buffer
import MarketDataGateway.Session.Hub

/-!
# The indexes of the hub

`ConnectionHub` of `qos.py`, with the keys of `_symbol_sessions` and with the buffers of the
sessions. A critical section is one step, and so is each `put` of the loop that `publish` runs after
its own, so that the other calls come in between. A buffer is that of its connection for good, since
the id of a connection is new.

`Hub` is the hub without the keys: what each critical section does to it is what the one of `Hub`
does (`toHub_subscribe`, `toHub_unsubscribe`, `toHub_remove`). The gauges are left out.
-/

namespace MarketDataGateway.Session

open Lib
open Access.Profiles (ServiceTier ClientIdentity)
open Registry (ConnId)

/-- `ConnectionHub`. -/
structure ConnectionHub where
  /-- `_sessions`. -/
  sessions : ConnId → Option ClientSession
  /-- `_symbol_sessions`, with its keys. -/
  symbolSessions : Symbol → Option (Finset ConnId)

namespace ConnectionHub

/-- A hub without sessions. -/
def empty : ConnectionHub := ⟨fun _ => none, fun _ => none⟩

section Calls

variable (hub : ConnectionHub) (maxSymbols : ServiceTier → ℤ) (conn : ConnId)

/-- `connections.discard(connection_id)`, and no key for an empty set. -/
def dropped (connections : Option (Finset ConnId)) : Option (Finset ConnId) :=
  connections.bind fun connections =>
    if connections.erase conn = ∅ then none else some (connections.erase conn)

/-- What `remove` and `unsubscribe` do for a symbol in `_symbol_sessions`. -/
def discard (index : Symbol → Option (Finset ConnId)) (symbol : Symbol) :
    Symbol → Option (Finset ConnId) :=
  Function.update index symbol (dropped conn (index symbol))

/-- `add`. -/
def add (session : ClientSession) : ConnectionHub :=
  { hub with sessions := Function.update hub.sessions conn (some session) }

/-- `remove`, which goes through the subscriptions of the session in the order given. -/
def remove (order : List Symbol) : ConnectionHub :=
  match hub.sessions conn with
  | none => hub
  | some _ =>
    { sessions := Function.update hub.sessions conn none
      symbolSessions := order.foldl (discard conn) hub.symbolSessions }

/-- The loop of `subscribe`, for one symbol. -/
def link (symbol : Symbol) : ConnectionHub where
  sessions := Function.update hub.sessions conn ((hub.sessions conn).map fun session =>
    { session with subscriptions := insert symbol session.subscriptions })
  symbolSessions := Function.update hub.symbolSessions symbol
    (some (insert conn ((hub.symbolSessions symbol).getD ∅)))

/-- `subscribe`, of a set of symbols that is given as a list: the hub after it, and what it returns
or raises. -/
def subscribe (symbols : List Symbol) : ConnectionHub × Except SessionError (List Symbol) :=
  match hub.sessions conn with
  | none => (hub, .error .keyError)
  | some session =>
    let combined := session.subscriptions ∪ symbols.toFinset
    match validateSymbolCount maxSymbols session.identity.tier combined.card with
    | .error e => (hub, .error e)
    | .ok () =>
      let added := symbols.filter fun symbol => symbol ∉ session.subscriptions
      (added.foldl (fun hub symbol => hub.link conn symbol) hub, .ok added)

/-- The loop of `unsubscribe`, for one symbol. -/
def unlink (symbol : Symbol) : ConnectionHub where
  sessions := Function.update hub.sessions conn ((hub.sessions conn).map fun session =>
    { session with subscriptions := session.subscriptions.erase symbol })
  symbolSessions := discard conn hub.symbolSessions symbol

/-- `unsubscribe`, of a set of symbols that is given as a list. -/
def unsubscribe (symbols : List Symbol) : ConnectionHub × Except SessionError (List Symbol) :=
  match hub.sessions conn with
  | none => (hub, .error .keyError)
  | some session =>
    let removed := symbols.filter fun symbol => symbol ∈ session.subscriptions
    (removed.foldl (fun hub symbol => hub.unlink conn symbol) hub, .ok removed)

/-- The sessions that `publish` finds in its critical section, from the ids in the order given. -/
def targets (connectionIds : List ConnId) : List ConnId :=
  connectionIds.filter fun conn => (hub.sessions conn).isSome

/-- The hub without the keys of its index. -/
def toHub : Hub := ⟨hub.sessions, fun symbol => (hub.symbolSessions symbol).getD ∅⟩

end Calls

variable {hub : ConnectionHub} {maxSymbols : ServiceTier → ℤ} {conn : ConnId}
  {session : ClientSession}
  {symbols : List Symbol} {symbol : Symbol} {index : Symbol → Option (Finset ConnId)}
  {connections : Option (Finset ConnId)}

/-! ## What the loops do -/

/-- A connection that is dropped is gone from the set. -/
theorem getD_dropped : (dropped conn connections).getD ∅ = (connections.getD ∅).erase conn := by
  unfold dropped
  cases connections with
  | none => rfl
  | some connections =>
    rw [Option.bind_some, Option.getD_some]
    split_ifs with hempty
    · rw [hempty]
      rfl
    · rfl

/-- What is left after a drop is not empty. -/
theorem nonempty_of_dropped {left : Finset ConnId} (h : dropped conn connections = some left) :
    left.Nonempty := by
  unfold dropped at h
  obtain ⟨connections, -, hleft⟩ := Option.bind_eq_some_iff.1 h
  rw [Option.ite_none_left_eq_some] at hleft
  obtain ⟨hne, hleft⟩ := hleft
  rw [← Option.some.inj hleft]
  exact Finset.nonempty_iff_ne_empty.2 hne

/-- A connection is dropped once. -/
theorem dropped_dropped : dropped conn (dropped conn connections) = dropped conn connections := by
  cases hleft : dropped conn connections with
  | none => rfl
  | some left =>
    have herase : left = (connections.getD ∅).erase conn := by
      rw [← getD_dropped, hleft, Option.getD_some]
    have hne := nonempty_of_dropped hleft
    rw [dropped, Option.bind_some, herase, Finset.erase_idem, ← herase,
      if_neg (Finset.nonempty_iff_ne_empty.1 hne)]

/-- The loop over symbols discards the connection for each of them. -/
theorem foldl_discard : symbols.foldl (discard conn) index symbol =
    if symbol ∈ symbols then dropped conn (index symbol) else index symbol := by
  induction symbols generalizing index with
  | nil => rfl
  | cons s symbols ih =>
    rw [List.foldl_cons, ih, discard]
    simp only [List.mem_cons]
    rcases eq_or_ne symbol s with rfl | hne
    · rw [Function.update_self, dropped_dropped, if_pos (Or.inl rfl), ite_self]
    · simp only [Function.update_of_ne hne, hne, false_or]

/-- The loop of `subscribe` adds the symbols to the session, and the connection to each of their
sets. -/
theorem foldl_link (h : hub.sessions conn = some session) :
    symbols.foldl (fun hub symbol => hub.link conn symbol) hub =
      ⟨Function.update hub.sessions conn
          (some { session with subscriptions := session.subscriptions ∪ symbols.toFinset }),
        fun symbol => if symbol ∈ symbols
        then some (insert conn ((hub.symbolSessions symbol).getD ∅))
          else hub.symbolSessions symbol⟩ := by
  induction symbols generalizing hub session with
  | nil =>
    have hself : Function.update hub.sessions conn (some session) = hub.sessions := by
      rw [← h, Function.update_eq_self]
    simp only [List.foldl_nil, List.toFinset_nil, Finset.union_empty,
      List.not_mem_nil, if_false, hself]
  | cons s symbols ih =>
    -- The session after the first symbol.
    have hlinked : (hub.link conn s).sessions conn =
        some { session with subscriptions := insert s session.subscriptions } := by
      show Function.update hub.sessions conn _ conn = _
      rw [Function.update_self, h, Option.map_some]
    rw [List.foldl_cons, ih hlinked]
    unfold link
    congr 1
    · rw [Function.update_idem, List.toFinset_cons, Finset.union_insert, Finset.insert_union]
    · funext symbol
      simp only [List.mem_cons]
      rcases eq_or_ne symbol s with rfl | hne
      · rw [Function.update_self, Option.getD_some, Finset.insert_idem,
          if_pos (Or.inl rfl), ite_self]
      · simp only [Function.update_of_ne hne, hne, false_or]

/-- The loop of `unsubscribe` takes the symbols from the session, and the connection from their
sets. -/
theorem foldl_unlink (h : hub.sessions conn = some session) :
    symbols.foldl (fun hub symbol => hub.unlink conn symbol) hub =
      ⟨Function.update hub.sessions conn
          (some { session with subscriptions := session.subscriptions \ symbols.toFinset }),
        symbols.foldl (discard conn) hub.symbolSessions⟩ := by
  induction symbols generalizing hub session with
  | nil =>
    have hself : Function.update hub.sessions conn (some session) = hub.sessions := by
      rw [← h, Function.update_eq_self]
    simp only [List.foldl_nil, List.toFinset_nil, Finset.sdiff_empty, hself]
  | cons s symbols ih =>
    have hunlinked : (hub.unlink conn s).sessions conn =
        some { session with subscriptions := session.subscriptions.erase s } := by
      show Function.update hub.sessions conn _ conn = _
      rw [Function.update_self, h, Option.map_some]
    rw [List.foldl_cons, ih hunlinked]
    unfold unlink
    rw [Function.update_idem, List.toFinset_cons, List.foldl_cons]
    congr 4
    ext symbol
    simp only [Finset.mem_sdiff, Finset.mem_erase, Finset.mem_insert]
    tauto

/-! ## The hub without the keys -/

/-- `subscribe` is that of the hub without the keys. -/
theorem toHub_subscribe : hub.toHub.subscribe maxSymbols conn symbols =
    (hub.subscribe maxSymbols conn symbols).2.map fun added =>
      (added, (hub.subscribe maxSymbols conn symbols).1.toHub) := by
  unfold subscribe Hub.subscribe
  cases hsession : hub.sessions conn with
  | none =>
    simp only [toHub, hsession]
    rfl
  | some session =>
    have htoHub : hub.toHub.sessions conn = some session := hsession
    rw [htoHub]
    dsimp only
    rw [foldl_link hsession]
    cases validateSymbolCount maxSymbols session.identity.tier
        (session.subscriptions ∪ symbols.toFinset).card with
    | error e => rfl
    | ok _ =>
      refine congrArg (fun index => Except.ok (_, Hub.mk _ index)) (funext fun symbol => ?_)
      dsimp only [toHub]
      split_ifs
      · rfl
      · rfl

/-- So is `unsubscribe`. -/
theorem toHub_unsubscribe : hub.toHub.unsubscribe conn symbols =
    (hub.unsubscribe conn symbols).2.map fun removed =>
      (removed, (hub.unsubscribe conn symbols).1.toHub) := by
  unfold unsubscribe Hub.unsubscribe
  cases hsession : hub.sessions conn with
  | none =>
    simp only [toHub, hsession]
    rfl
  | some session =>
    have htoHub : hub.toHub.sessions conn = some session := hsession
    rw [htoHub]
    dsimp only
    rw [foldl_unlink hsession]
    refine congrArg (fun index => Except.ok (_, Hub.mk _ index)) (funext fun symbol => ?_)
    dsimp only [toHub]
    rw [foldl_discard]
    split_ifs
    · rw [getD_dropped]
    · rfl

/-- `remove` of a session whose subscriptions are gone through is that of the hub without the
keys. -/
theorem toHub_remove {order : List Symbol}
    (h : ∀ session ∈ hub.sessions conn, order.toFinset = session.subscriptions) :
    (hub.remove conn order).toHub = hub.toHub.remove conn := by
  unfold remove Hub.remove
  cases hsession : hub.sessions conn with
  | none =>
    simp only [toHub, hsession]
  | some session =>
    have htoHub : hub.toHub.sessions conn = some session := hsession
    have horder (symbol : Symbol) : symbol ∈ session.subscriptions ↔ symbol ∈ order := by
      rw [← h session hsession, List.mem_toFinset]
    rw [htoHub]
    unfold toHub
    simp only [horder, foldl_discard]
    congr 1
    funext symbol
    split_ifs
    · rw [getD_dropped]
    · rfl

/-! ## What the indexes say -/

/-- The indexes agree, without keys of no connections and with no more symbols than the tiers allow.
A negative limit allows none. -/
structure Indexed (maxSymbols : ServiceTier → ℤ) (hub : ConnectionHub) : Prop where
  consistent : hub.toHub.Consistent
  nonempty : ∀ symbol connections, hub.symbolSessions symbol = some connections →
    connections.Nonempty
  within : ∀ conn session, hub.sessions conn = some session →
    (session.subscriptions.card : ℤ) ≤ max 0 (maxSymbols session.identity.tier)

/-- A connection is in the set of a symbol that has one. -/
theorem mem_getD {c : ConnId} {connections : Option (Finset ConnId)} :
    c ∈ connections.getD ∅ ↔ ∃ cs, connections = some cs ∧ c ∈ cs := by
  cases connections with
  | none => exact iff_of_false (Finset.notMem_empty c) fun ⟨_, h, _⟩ => nomatch h
  | some cs => exact ⟨fun h => ⟨cs, rfl, h⟩, fun ⟨_, h, hc⟩ => Option.some.inj h ▸ hc⟩

/-- A symbol is subscribed to by a session that has it. -/
theorem mem_subscriptions {c : ConnId} : symbol ∈ hub.toHub.subscriptions c ↔
    ∃ session, hub.sessions c = some session ∧ symbol ∈ session.subscriptions := by
  have htoHub : hub.toHub.sessions c = hub.sessions c := rfl
  unfold Hub.subscriptions
  rw [htoHub]
  cases hub.sessions c with
  | none => exact iff_of_false (Finset.notMem_empty symbol) fun ⟨_, h, _⟩ => nomatch h
  | some session => exact ⟨fun h => ⟨session, rfl, h⟩, fun ⟨_, h, hmem⟩ => Option.some.inj h ▸ hmem⟩

/-- A connection is in the set of a symbol if its session has subscribed to it. -/
theorem Indexed.mem_iff (h : hub.Indexed maxSymbols) {c : ConnId} :
    (∃ connections, hub.symbolSessions symbol = some connections ∧ c ∈ connections) ↔
      ∃ session, hub.sessions c = some session ∧ symbol ∈ session.subscriptions := by
  rw [← mem_getD, ← mem_subscriptions]
  exact h.consistent symbol c

/-- A new session without symbols keeps the hub indexed. -/
theorem Indexed.add (h : hub.Indexed maxSymbols) (hnew : hub.sessions conn = none)
    (hsession : session.subscriptions = ∅) : (hub.add conn session).Indexed maxSymbols := by
  refine ⟨h.consistent.add hnew hsession, h.nonempty, fun c session' hc => ?_⟩
  have hadd : Function.update hub.sessions conn (some session) c = some session' := hc
  rcases eq_or_ne c conn with rfl | hne
  · rw [Function.update_self] at hadd
    rw [← Option.some.inj hadd, hsession, Finset.card_empty]
    exact le_max_left _ _
  · rw [Function.update_of_ne hne] at hadd
    exact h.within c session' hadd

/-- After the loops over symbols, a key is that of a set with connections. -/
theorem nonempty_foldl_discard (h : ∀ symbol connections, index symbol = some connections →
    connections.Nonempty)
    (symbol : Symbol) (cs : Finset ConnId)
    (hcs : symbols.foldl (discard conn) index symbol = some cs) :
    cs.Nonempty := by
  rw [foldl_discard] at hcs
  split_ifs at hcs
  · exact nonempty_of_dropped hcs
  · exact h symbol cs hcs

/-- A session that is removed keeps the hub indexed. -/
theorem Indexed.remove (h : hub.Indexed maxSymbols) {order : List Symbol}
    (horder : ∀ session ∈ hub.sessions conn, order.toFinset = session.subscriptions) :
    (hub.remove conn order).Indexed maxSymbols := by
  refine ⟨?_, ?_, ?_⟩
  · rw [toHub_remove horder]
    exact h.consistent.remove
  · unfold ConnectionHub.remove
    cases hub.sessions conn with
    | none => exact h.nonempty
    | some session => exact nonempty_foldl_discard h.nonempty
  · intro c session hc
    refine h.within c session ?_
    unfold ConnectionHub.remove at hc
    cases hconn : hub.sessions conn with
    | none =>
      rw [hconn] at hc
      exact hc
    | some removed =>
      rw [hconn] at hc
      have hupdate : Function.update hub.sessions conn none c = some session := hc
      rcases eq_or_ne c conn with rfl | hne
      · rw [Function.update_self] at hupdate
        exact nomatch hupdate
      · rwa [Function.update_of_ne hne] at hupdate

/-- A `subscribe` that raises changes nothing. -/
theorem subscribe_error {e : SessionError}
    (h : (hub.subscribe maxSymbols conn symbols).2 = .error e) :
    (hub.subscribe maxSymbols conn symbols).1 = hub := by
  unfold subscribe at h ⊢
  cases hsession : hub.sessions conn with
  | none => rfl
  | some session =>
    rw [hsession] at h
    dsimp only at h ⊢
    split at h
    · rfl
    · exact nomatch h

/-- The hub after a `subscribe` that returns. -/
theorem subscribe_ok {added : List Symbol}
    (h : (hub.subscribe maxSymbols conn symbols).2 = .ok added) :
    ∃ session, hub.sessions conn = some session ∧
      added = symbols.filter (fun symbol => symbol ∉ session.subscriptions) ∧
      ((session.subscriptions ∪ added.toFinset).card : ℤ) ≤ maxSymbols session.identity.tier ∧
      (hub.subscribe maxSymbols conn symbols).1 =
        ⟨Function.update hub.sessions conn
            (some { session with subscriptions := session.subscriptions ∪ added.toFinset }),
          fun symbol => if symbol ∈ added
          then some (insert conn ((hub.symbolSessions symbol).getD ∅))
            else hub.symbolSessions symbol⟩ := by
  unfold subscribe at h ⊢
  cases hsession : hub.sessions conn with
  | none =>
    rw [hsession] at h
    cases h
  | some session =>
    rw [hsession] at h
    dsimp only at h ⊢
    split at h
    · cases h
    · next hlimit =>
      have hadded := Except.ok.inj h
      -- What the limit is checked for is what the session comes to.
      have hcombined : session.subscriptions ∪ added.toFinset =
          session.subscriptions ∪ symbols.toFinset := by
        ext symbol
        rw [← hadded]
        simp only [Finset.mem_union, List.mem_toFinset, List.mem_filter, decide_eq_true_eq]
        tauto
      refine ⟨session, rfl, hadded.symm, ?_, ?_⟩
      · rw [hcombined]
        unfold validateSymbolCount at hlimit
        by_contra hlt
        rw [if_pos (not_le.1 hlt)] at hlimit
        cases hlimit
      · rw [← hadded]
        exact foldl_link hsession

/-- A subscription keeps the hub indexed. -/
theorem Indexed.subscribe (h : hub.Indexed maxSymbols) :
    (hub.subscribe maxSymbols conn symbols).1.Indexed maxSymbols := by
  cases hresult : (hub.subscribe maxSymbols conn symbols).2 with
  | error e =>
    rw [subscribe_error hresult]
    exact h
  | ok added =>
    -- The plain hub that it stands for stays consistent.
    have hhub := @toHub_subscribe hub maxSymbols conn symbols
    rw [hresult] at hhub
    have hconsistent := (Hub.subscribed_of_ok hhub).consistent h.consistent
    obtain ⟨session, hsession, -, hlimit, hafter⟩ := subscribe_ok hresult
    refine ⟨hconsistent, ?_, ?_⟩
    · rw [hafter]
      intro symbol cs hcs
      dsimp only at hcs
      split_ifs at hcs
      · rw [← Option.some.inj hcs]
        -- The set of a symbol that is subscribed to has the connection in it.
        exact Finset.insert_nonempty _ _
      · exact h.nonempty symbol cs hcs
    · rw [hafter]
      intro c session' hc
      dsimp only at hc
      rcases eq_or_ne c conn with rfl | hne
      · rw [Function.update_self] at hc
        rw [← Option.some.inj hc]
        -- The call has checked the limit.
        exact hlimit.trans (le_max_right _ _)
      · rw [Function.update_of_ne hne] at hc
        exact h.within c session' hc

/-- The hub after an `unsubscribe` that returns. -/
theorem unsubscribe_ok {removed : List Symbol}
    (h : (hub.unsubscribe conn symbols).2 = .ok removed) :
    ∃ session, hub.sessions conn = some session ∧
      removed = symbols.filter (fun symbol => symbol ∈ session.subscriptions) ∧
      (hub.unsubscribe conn symbols).1 =
        ⟨Function.update hub.sessions conn
            (some { session with subscriptions := session.subscriptions \ removed.toFinset }),
          removed.foldl (discard conn) hub.symbolSessions⟩ := by
  unfold unsubscribe at h ⊢
  cases hsession : hub.sessions conn with
  | none =>
    rw [hsession] at h
    exact nomatch h
  | some session =>
    rw [hsession] at h
    have hremoved := Except.ok.inj h
    refine ⟨session, rfl, hremoved.symm, ?_⟩
    rw [← hremoved]
    exact foldl_unlink hsession

/-- The end of a subscription keeps the hub indexed. -/
theorem Indexed.unsubscribe (h : hub.Indexed maxSymbols) :
    (hub.unsubscribe conn symbols).1.Indexed maxSymbols := by
  cases hresult : (hub.unsubscribe conn symbols).2 with
  | error e =>
    unfold ConnectionHub.unsubscribe at hresult ⊢
    cases hsession : hub.sessions conn with
    | none => exact h
    | some session =>
      rw [hsession] at hresult
      exact nomatch hresult
  | ok removed =>
    -- The plain hub that it stands for stays consistent.
    have hhub := @toHub_unsubscribe hub conn symbols
    rw [hresult] at hhub
    have hconsistent := (Hub.unsubscribed_of_ok hhub).consistent h.consistent
    obtain ⟨session, hsession, -, hafter⟩ := unsubscribe_ok hresult
    refine ⟨hconsistent, ?_, ?_⟩
    · rw [hafter]
      exact nonempty_foldl_discard h.nonempty
    · rw [hafter]
      intro c session' hc
      dsimp only at hc
      rcases eq_or_ne c conn with rfl | hne
      · rw [Function.update_self] at hc
        rw [← Option.some.inj hc]
        -- The symbols of a session become no more.
        have hcard : (session.subscriptions \ removed.toFinset).card ≤ session.subscriptions.card :=
          Finset.card_le_card Finset.sdiff_subset
        exact (Int.ofNat_le.2 hcard).trans (h.within c session hsession)
      · rw [Function.update_of_ne hne] at hc
        exact h.within c session' hc

end ConnectionHub

/-! ## Runs -/

/-- A call of `publish` after its critical section. -/
structure Publication where
  /-- The event. -/
  event : Quote
  /-- The sessions into whose buffers it has been put. -/
  offered : List ConnId
  /-- The sessions that are still to come. -/
  todo : List ConnId

/-- The hub, the buffers of its sessions, and the calls of `publish`. -/
structure HubState where
  /-- The hub. -/
  hub : ConnectionHub
  /-- The buffer of each session that there has been. -/
  buffers : ConnId → Option LatestValueBuffer
  /-- The calls of `publish`. -/
  publications : List Publication

/-- The calls of a hub, each with what it leaves open: the order in which it goes through a set. -/
inductive HubCall
  /-- `add(session)`. -/
  | add (conn : ConnId) (identity : ClientIdentity) (buffer : LatestValueBuffer)
  /-- `remove(connection_id)`. -/
  | remove (conn : ConnId) (order : List Symbol)
  /-- `session.buffer.close()` of a session that has been removed. -/
  | close (conn : ConnId)
  /-- `subscribe(connection_id, symbols)`. -/
  | subscribe (conn : ConnId) (symbols : List Symbol)
  /-- `unsubscribe(connection_id, symbols)`. -/
  | unsubscribe (conn : ConnId) (symbols : List Symbol)
  /-- The critical section of `publish(event)`. -/
  | publish (event : Quote) (connectionIds : List ConnId)
  /-- The next `session.buffer.put(event)` of a call of `publish`. -/
  | offer (index : ℕ)

namespace HubState

/-- A hub that has had no sessions. -/
def start : HubState := ⟨.empty, fun _ => none, []⟩

/-- One call. -/
def step (maxSymbols : ServiceTier → ℤ) (s : HubState) : HubCall → Option HubState
  | .add conn identity buffer =>
    match s.buffers conn with
    | some _ => none
    | none => some { s with
      hub := s.hub.add conn ⟨identity, ∅⟩
      buffers := Function.update s.buffers conn (some buffer) }
  | .remove conn order =>
    if ∀ session ∈ s.hub.sessions conn, order.toFinset = session.subscriptions then
      some { s with hub := s.hub.remove conn order }
    else none
  | .close conn =>
    match s.hub.sessions conn with
    | some _ => none
    | none => some { s with
      buffers := Function.update s.buffers conn ((s.buffers conn).map LatestValueBuffer.close) }
  | .subscribe conn symbols => some { s with hub := (s.hub.subscribe maxSymbols conn symbols).1 }
  | .unsubscribe conn symbols => some { s with hub := (s.hub.unsubscribe conn symbols).1 }
  | .publish event connectionIds =>
    if connectionIds.Nodup ∧
        connectionIds.toFinset = (s.hub.symbolSessions (symbolOf event)).getD ∅ then
      some { s with publications := s.publications ++ [⟨event, [], s.hub.targets connectionIds⟩] }
    else none
  | .offer index =>
    match s.publications[index]? with
    | some ⟨event, offered, conn :: todo⟩ => some { s with
      buffers :=
        Function.update s.buffers conn ((s.buffers conn).map fun buffer => buffer.put event)
      publications := s.publications.set index ⟨event, offered ++ [conn], todo⟩ }
    | _ => none

variable {maxSymbols : ServiceTier → ℤ} {s t : HubState}

/-- What holds in every state of a hub. -/
structure Sound (maxSymbols : ServiceTier → ℤ) (s : HubState) : Prop where
  indexed : s.hub.Indexed maxSymbols
  /-- A session has a buffer. -/
  buffered : ∀ conn session, s.hub.sessions conn = some session → (s.buffers conn).isSome

/-- A buffer stays. -/
theorem buffered_update {conn c : ConnId} {f : LatestValueBuffer → LatestValueBuffer}
    (h : (s.buffers c).isSome) :
    (Function.update s.buffers conn ((s.buffers conn).map f) c).isSome := by
  rcases eq_or_ne c conn with rfl | hne
  · rw [Function.update_self, Option.isSome_map]
    exact h
  · rw [Function.update_of_ne hne]
    exact h

/-- The sessions after a `subscribe` or an `unsubscribe` are those before it. -/
theorem isSome_subscribe {hub : ConnectionHub} {conn c : ConnId} {symbols : List Symbol} :
    ((hub.subscribe maxSymbols conn symbols).1.sessions c).isSome = (hub.sessions c).isSome := by
  cases hresult : (hub.subscribe maxSymbols conn symbols).2 with
  | error e => rw [ConnectionHub.subscribe_error hresult]
  | ok added =>
    obtain ⟨session, hsession, -, -, hafter⟩ := ConnectionHub.subscribe_ok hresult
    rw [hafter]
    dsimp only
    rcases eq_or_ne c conn with rfl | hne
    · rw [Function.update_self, hsession]
      rfl
    · rw [Function.update_of_ne hne]

/-- No session comes or goes with the end of a subscription. -/
theorem isSome_unsubscribe {hub : ConnectionHub} {conn c : ConnId} {symbols : List Symbol} :
    ((hub.unsubscribe conn symbols).1.sessions c).isSome = (hub.sessions c).isSome := by
  cases hresult : (hub.unsubscribe conn symbols).2 with
  | error e =>
    unfold ConnectionHub.unsubscribe at hresult ⊢
    cases hsession : hub.sessions conn with
    | none => rfl
    | some session =>
      rw [hsession] at hresult
      exact nomatch hresult
  | ok removed =>
    obtain ⟨session, hsession, -, hafter⟩ := ConnectionHub.unsubscribe_ok hresult
    rw [hafter]
    dsimp only
    rcases eq_or_ne c conn with rfl | hne
    · rw [Function.update_self, hsession]
      rfl
    · rw [Function.update_of_ne hne]

/-- Each call keeps the state sound. -/
theorem Sound.step (h : s.Sound maxSymbols) {call : HubCall}
    (hstep : s.step maxSymbols call = some t) :
    t.Sound maxSymbols := by
  have hkeep (hub : ConnectionHub)
    (hsome : ∀ c, (hub.sessions c).isSome = (s.hub.sessions c).isSome) :
      ∀ conn session, hub.sessions conn = some session → (s.buffers conn).isSome := by
    intro c session hc
    have hold := hsome c
    rw [hc, Option.isSome_some] at hold
    obtain ⟨session', hsession'⟩ := Option.isSome_iff_exists.1 hold.symm
    exact h.buffered c session' hsession'
  cases call with
  | add conn identity buffer =>
    -- A connection without a buffer has no session, so this is a new one.
    unfold HubState.step at hstep
    dsimp only at hstep
    split at hstep
    · exact nomatch hstep
    · next hnone =>
      rw [← Option.some.inj hstep]
      have hnew : s.hub.sessions conn = none := by
        by_contra hsome
        obtain ⟨session, hsession⟩ := Option.ne_none_iff_exists'.1 hsome
        have hbuffer := h.buffered conn session hsession
        rw [hnone] at hbuffer
        exact Bool.false_ne_true hbuffer
      refine ⟨h.indexed.add hnew rfl, fun c session hc => ?_⟩
      have hadd : Function.update s.hub.sessions conn _ c = some session := hc
      show (Function.update s.buffers conn (some buffer) c).isSome = true
      rcases eq_or_ne c conn with rfl | hne
      · rw [Function.update_self]
        rfl
      · rw [Function.update_of_ne hne] at hadd ⊢
        exact h.buffered c session hadd
  | remove conn order =>
    -- The session goes, and the buffer stays for whoever still has it.
    unfold HubState.step at hstep
    dsimp only at hstep
    split_ifs at hstep with horder
    rw [← Option.some.inj hstep]
    refine ⟨h.indexed.remove horder, fun c session hc => ?_⟩
    refine h.buffered c session ?_
    have hc : (s.hub.remove conn order).sessions c = some session := hc
    unfold ConnectionHub.remove at hc
    split at hc
    · exact hc
    · dsimp only at hc
      rcases eq_or_ne c conn with rfl | hne
      · rw [Function.update_self] at hc
        exact nomatch hc
      · rwa [Function.update_of_ne hne] at hc
  | close conn =>
    unfold HubState.step at hstep
    dsimp only at hstep
    split at hstep
    · exact nomatch hstep
    · rw [← Option.some.inj hstep]
      exact ⟨h.indexed, fun c session hc => buffered_update (h.buffered c session hc)⟩
  | subscribe conn symbols =>
    obtain rfl := Option.some.inj hstep
    exact ⟨h.indexed.subscribe, hkeep _ fun c => isSome_subscribe⟩
  | unsubscribe conn symbols =>
    obtain rfl := Option.some.inj hstep
    exact ⟨h.indexed.unsubscribe, hkeep _ fun c => isSome_unsubscribe⟩
  | publish event connectionIds =>
    unfold HubState.step at hstep
    dsimp only at hstep
    split_ifs at hstep
    rw [← Option.some.inj hstep]
    exact ⟨h.indexed, h.buffered⟩
  | offer index =>
    -- The buffer is written, and the hub stays.
    unfold HubState.step at hstep
    dsimp only at hstep
    split at hstep
    · rw [← Option.some.inj hstep]
      exact ⟨h.indexed, fun c session hc => buffered_update (h.buffered c session hc)⟩
    · exact nomatch hstep

/-- A call of `publish` of an event for these sessions, some of which it has offered the event
to. -/
def Publishes (index : ℕ) (event : Quote) (targets : List ConnId) (s : HubState) : Prop :=
  (∃ p, s.publications[index]? = some p ∧ p.event = event ∧ p.offered ++ p.todo = targets) ∧
    ∀ conn ∈ targets, (s.buffers conn).isSome

/-- What a call of `publish` has found is all that it offers its event to, whatever is called
meanwhile. -/
theorem Publishes.step {index : ℕ} {event : Quote} {targets : List ConnId}
    (h : s.Publishes index event targets) {call : HubCall}
    (hstep : s.step maxSymbols call = some t) :
    t.Publishes index event targets := by
  obtain ⟨⟨p, hp, hevent, htargets⟩, hbuffers⟩ := h
  cases call with
  | add conn identity buffer =>
    unfold HubState.step at hstep
    dsimp only at hstep
    split at hstep
    · exact nomatch hstep
    · rw [← Option.some.inj hstep]
      refine ⟨⟨p, hp, hevent, htargets⟩, fun c hc => ?_⟩
      show (Function.update s.buffers conn (some buffer) c).isSome = true
      rcases eq_or_ne c conn with rfl | hne
      · rw [Function.update_self]
        rfl
      · rw [Function.update_of_ne hne]
        exact hbuffers c hc
  | remove conn order =>
    unfold HubState.step at hstep
    dsimp only at hstep
    split_ifs at hstep
    rw [← Option.some.inj hstep]
    exact ⟨⟨p, hp, hevent, htargets⟩, hbuffers⟩
  | close conn =>
    unfold HubState.step at hstep
    dsimp only at hstep
    split at hstep
    · exact nomatch hstep
    · rw [← Option.some.inj hstep]
      exact ⟨⟨p, hp, hevent, htargets⟩, fun c hc => buffered_update (hbuffers c hc)⟩
  | subscribe conn symbols =>
    obtain rfl := Option.some.inj hstep
    exact ⟨⟨p, hp, hevent, htargets⟩, hbuffers⟩
  | unsubscribe conn symbols =>
    obtain rfl := Option.some.inj hstep
    exact ⟨⟨p, hp, hevent, htargets⟩, hbuffers⟩
  | publish event' connectionIds =>
    -- Another publication gets an index of its own.
    unfold HubState.step at hstep
    dsimp only at hstep
    split_ifs at hstep
    rw [← Option.some.inj hstep]
    refine ⟨⟨p, ?_, hevent, htargets⟩, hbuffers⟩
    have hlt : index < s.publications.length := (List.getElem?_eq_some_iff.1 hp).1
    show (s.publications ++ [_])[index]? = some p
    rw [List.getElem?_append_left hlt, hp]
  | offer index' =>
    unfold HubState.step at hstep
    dsimp only at hstep
    split at hstep
    · next event' offered conn todo hfound =>
      rw [← Option.some.inj hstep]
      refine ⟨?_, fun c hc => buffered_update (hbuffers c hc)⟩
      have hlt : index < s.publications.length := (List.getElem?_eq_some_iff.1 hp).1
      show ∃ p, (s.publications.set index' _)[index]? = some p ∧ _
      rcases eq_or_ne index' index with rfl | hne
      · -- The event goes from the sessions that are to come to those that have it.
        obtain rfl := Option.some.inj (hp.symm.trans hfound)
        refine ⟨_, List.getElem?_set_self hlt, hevent, ?_⟩
        rw [← htargets, List.append_assoc]
        rfl
      · exact ⟨p, (List.getElem?_set_ne hne).trans hp, hevent, htargets⟩
    · exact nomatch hstep

end HubState

namespace ConnectionHub

open HubState

end ConnectionHub

end MarketDataGateway.Session
