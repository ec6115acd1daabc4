import MarketDataGateway.MarketData.SourceMoves
import MarketDataGateway.MarketData.SubscriptionManager

/-!
# The references of a subscription manager

What the operations of `SmartSubscriptionManager` on its references come to, in terms of which
consumer refers to which key (`Refers`). A key is forgotten with its last consumer (`Populated`),
and with it what is known of its symbol (`Sheds`).
-/

namespace MarketDataGateway.MarketData

open Lib

/-- A key is known by its symbol. -/
theorem SubscriptionKey.ext_symbol {k k' : SubscriptionKey} (h : k.symbol = k'.symbol) :
    k = k' := by
  obtain ⟨symbol, valid⟩ := k
  obtain ⟨symbol', valid'⟩ := k'
  obtain rfl : symbol = symbol' := h
  rfl

namespace SmartSubscriptionManager

variable {m m₁ m' : SmartSubscriptionManager} {c c' : JsString} {k k' : SubscriptionKey}
  {consumers : InsertionSet JsString} {desired : InsertionSet SubscriptionKey}

/-- The key is among the references. -/
def Referenced (m : SmartSubscriptionManager) (k : SubscriptionKey) : Prop :=
  m.references.get k ≠ none

/-- No key is kept without consumers. -/
def Populated (m : SmartSubscriptionManager) : Prop :=
  ∀ k consumers, m.references.get k = some consumers → consumers.size ≠ 0

/-- A consumer refers to a key that it is among the consumers of. -/
theorem refers_of_get (hget : m.references.get k = some consumers) :
    m.Refers c k ↔ c ∈ consumers := by
  unfold Refers
  rw [hget, Option.getD_some]

/-- No consumer refers to a key that is not among the references. -/
theorem not_refers_of_get (hget : m.references.get k = none) : ¬m.Refers c k := by
  unfold Refers
  rw [hget, Option.getD_none]
  exact InsertionSet.not_mem_empty c

/-- A key that a consumer refers to is among the references. -/
theorem Refers.referenced (h : m.Refers c k) : m.Referenced k := fun hget =>
  not_refers_of_get hget h

/-- Some consumer refers to each key that is among the references. -/
theorem Populated.exists_refers (h : m.Populated) (hk : m.Referenced k) : ∃ c, m.Refers c k := by
  obtain ⟨consumers, hget⟩ := Option.ne_none_iff_exists'.1 hk
  have hsize := h k consumers hget
  obtain ⟨c, hc⟩ := List.exists_mem_of_length_pos (Nat.pos_of_ne_zero hsize)
  exact ⟨c, (refers_of_get hget).2 hc⟩

/-! ## Consumers that come -/

/-- The references after a consumer has been added. -/
theorem refers_addConsumer :
    (m.addConsumer c k).Refers c' k' ↔ m.Refers c' k' ∨ c' = c ∧ k' = k := by
  unfold addConsumer Refers
  dsimp only
  rw [InsertionMap.get_set]
  split_ifs with h
  · rw [Option.getD_some, InsertionSet.mem_add, h]
    exact or_congr_right (and_iff_left rfl).symm
  · exact (or_iff_left fun h' => h h'.2).symm

/-- A consumer that refers to the key already changes nothing. -/
theorem addConsumer_of_refers (h : m.Refers c k) : m.addConsumer c k = m := by
  obtain ⟨consumers, hget⟩ := Option.ne_none_iff_exists'.1 h.referenced
  unfold addConsumer
  rw [hget, Option.getD_some, InsertionSet.add_of_mem ((refers_of_get hget).1 h),
    InsertionMap.set_of_get hget]

/-- The keys after a consumer has been added. -/
theorem referenced_addConsumer :
    (m.addConsumer c k).Referenced k' ↔ m.Referenced k' ∨ k' = k := by
  unfold addConsumer Referenced
  dsimp only
  rw [InsertionMap.get_set]
  split_ifs with h
  · exact ⟨fun _ => Or.inr h, fun _ => Option.some_ne_none _⟩
  · exact (or_iff_left h).symm

/-- A key that a consumer is added to has one. -/
theorem Populated.addConsumer (h : m.Populated) : (m.addConsumer c k).Populated := by
  intro k' consumers hget
  have hget' : (m.references.set k (((m.references.get k).getD .empty).add c)).get k' =
      some consumers := hget
  rw [InsertionMap.get_set] at hget'
  split_ifs at hget' with heq
  · obtain rfl := Option.some.inj hget'
    have hmem : c ∈ ((m.references.get k).getD .empty).add c := InsertionSet.mem_add.2 (Or.inr rfl)
    exact fun hsize => InsertionSet.not_mem_of_size hsize c hmem
  · exact h k' consumers hget'

/-- What the second loop of a replacement comes to. -/
theorem addDesired_spec (keys : List SubscriptionKey) :
    let m' := (addDesired c m keys).1
    (∀ c' k', m'.Refers c' k' ↔ m.Refers c' k' ∨ c' = c ∧ k' ∈ keys) ∧
    (∀ k', m'.Referenced k' ↔ m.Referenced k' ∨ k' ∈ keys) ∧ (m.Populated → m'.Populated) ∧
      m' = { m with references := m'.references } := by
  induction keys generalizing m with
  | nil => exact ⟨fun _ _ => (or_iff_left fun h => List.not_mem_nil h.2).symm,
      fun _ => (or_iff_left List.not_mem_nil).symm, id, rfl⟩
  | cons key keys ih =>
    rw [addDesired]
    -- A key that the consumer refers to already is left alone.
    split_ifs with hkey
    · obtain ⟨hrefers, hreferenced, hpopulated, hrest⟩ := @ih m
      refine ⟨fun c' k' => (hrefers c' k').trans ?_, fun k' => (hreferenced k').trans ?_,
        hpopulated, hrest⟩
      · rw [List.mem_cons, and_or_left, ← or_assoc]
        refine or_congr_left (or_iff_left_of_imp ?_).symm
        rintro ⟨rfl, rfl⟩
        exact hkey
      · rw [List.mem_cons, ← or_assoc]
        refine or_congr_left (or_iff_left_of_imp ?_).symm
        rintro rfl
        exact hkey.referenced
    · obtain ⟨hrefers, hreferenced, hpopulated, hrest⟩ := @ih (m.addConsumer c key)
      refine ⟨fun c' k' => (hrefers c' k').trans ?_, fun k' => (hreferenced k').trans ?_,
        fun h => hpopulated h.addConsumer, hrest⟩
      · rw [refers_addConsumer, List.mem_cons, and_or_left, or_assoc]
      · rw [referenced_addConsumer, List.mem_cons, or_assoc]

/-- Nothing has changed if the second loop says so. -/
theorem addDesired_unchanged {keys : List SubscriptionKey} (h : (addDesired c m keys).2 = false) :
    (addDesired c m keys).1 = m := by
  induction keys with
  | nil => rfl
  | cons key keys ih =>
    rw [addDesired] at h ⊢
    split_ifs at h ⊢
    exact ih h

/-! ## Consumers that go -/

/-- The references for which the condition holds are gone, and what is known of the symbols of the
keys that are forgotten. -/
structure Sheds (p : JsString → SubscriptionKey → Prop) (m m' : SmartSubscriptionManager) :
    Prop where
  autoStart : m'.autoStart = m.autoStart
  sourceStatus : m'.sourceStatus = m.sourceStatus
  populated : m'.Populated
  refers : ∀ c k, m'.Refers c k ↔ m.Refers c k ∧ ¬p c k
  acknowledged : ∀ symbol ∈ m'.acknowledgedSymbols, symbol ∈ m.acknowledgedSymbols
  fresh : ∀ symbol ∈ m'.freshSymbols, symbol ∈ m.freshSymbols
  kept : ∀ k, (m'.Referenced k ∨ ∀ c, ¬p c k) →
    (k.symbol ∈ m.acknowledgedSymbols → k.symbol ∈ m'.acknowledgedSymbols) ∧
      (k.symbol ∈ m.freshSymbols → k.symbol ∈ m'.freshSymbols)

variable {p q : JsString → SubscriptionKey → Prop}

/-- What is kept was among the references. -/
theorem Sheds.referenced (h : Sheds p m m') (hk : m'.Referenced k) : m.Referenced k := by
  obtain ⟨c, hc⟩ := h.populated.exists_refers hk
  exact ((h.refers c k).1 hc).1.referenced

/-- No references go. -/
theorem Sheds.refl (h : m.Populated) (hp : ∀ c k, ¬p c k) : Sheds p m m where
  autoStart := rfl
  sourceStatus := rfl
  populated := h
  refers c k := (and_iff_left (hp c k)).symm
  acknowledged _ h := h
  fresh _ h := h
  kept _ _ := ⟨id, id⟩

/-- References go one after the other. -/
theorem Sheds.trans (h : Sheds p m m₁) (h' : Sheds q m₁ m') :
    Sheds (fun c k => p c k ∨ q c k) m m' where
  autoStart := h'.autoStart.trans h.autoStart
  sourceStatus := h'.sourceStatus.trans h.sourceStatus
  populated := h'.populated
  refers c k := by rw [h'.refers, h.refers, not_or, and_assoc]
  acknowledged symbol hsymbol := h.acknowledged symbol (h'.acknowledged symbol hsymbol)
  fresh symbol hsymbol := h.fresh symbol (h'.fresh symbol hsymbol)
  kept k hk := by
    have hbefore := h.kept k (hk.imp h'.referenced fun hnot c hc => hnot c (Or.inl hc))
    have hafter := h'.kept k (hk.imp id fun hnot c hc => hnot c (Or.inr hc))
    exact ⟨fun hmem => hafter.1 (hbefore.1 hmem), fun hmem => hafter.2 (hbefore.2 hmem)⟩

/-- The condition may be put otherwise. -/
theorem Sheds.congr (h : Sheds p m m') (hpq : ∀ c k, p c k ↔ q c k) : Sheds q m m' := by
  obtain rfl : p = q := funext fun c => funext fun k => propext (hpq c k)
  exact h

/-- A consumer is dropped. -/
theorem sheds_dropConsumer (h : m.Populated) (hget : m.references.get k = some consumers) :
    Sheds (fun c' k' => c' = c ∧ k' = k) m (m.dropConsumer c k consumers) := by
  unfold dropConsumer
  dsimp only
  split_ifs with hsize
  · -- The key is forgotten.
    have hforgotten (k' : SubscriptionKey) : (m.forgetSubscription k).references.get k' =
        if k' = k then none else m.references.get k' := InsertionMap.get_delete
    have hsymbol {k' : SubscriptionKey} (hk' : (m.forgetSubscription k).Referenced k' ∨
        ∀ c', ¬(c' = c ∧ k' = k)) : k'.symbol ≠ k.symbol := by
      intro heq
      obtain rfl := SubscriptionKey.ext_symbol heq
      rcases hk' with hk' | hk'
      · exact hk' ((hforgotten k').trans (if_pos rfl))
      · exact hk' c ⟨rfl, rfl⟩
    refine ⟨rfl, rfl, fun k' consumers' hget' => ?_, fun c' k' => ?_, fun _ hmem => ?_,
      fun _ hmem => ?_, fun k' hk' => ⟨fun hmem => ?_, fun hmem => ?_⟩⟩
    · rw [hforgotten] at hget'
      split_ifs at hget'
      exact h k' consumers' hget'
    · unfold Refers
      rw [hforgotten]
      split_ifs with heq
      · rw [Option.getD_none, heq, hget, Option.getD_some]
        refine iff_of_false (InsertionSet.not_mem_empty c') fun hmem => ?_
        have hne : c' ≠ c := fun heq' => hmem.2 ⟨heq', rfl⟩
        exact InsertionSet.not_mem_of_size hsize c' (InsertionSet.mem_delete.2 ⟨hmem.1, hne⟩)
      · exact (and_iff_left fun h' => heq h'.2).symm
    · exact (InsertionSet.mem_delete.1 hmem).1
    · exact (InsertionSet.mem_delete.1 hmem).1
    · exact InsertionSet.mem_delete.2 ⟨hmem, hsymbol hk'⟩
    · exact InsertionSet.mem_delete.2 ⟨hmem, hsymbol hk'⟩
  · refine ⟨rfl, rfl, fun k' consumers' hget' => ?_, fun c' k' => ?_, fun _ hmem => hmem,
      fun _ hmem => hmem, fun _ _ => ⟨id, id⟩⟩
    · rw [InsertionMap.get_set] at hget'
      split_ifs at hget' with heq
      · obtain rfl := Option.some.inj hget'
        exact hsize
      · exact h k' consumers' hget'
    · unfold Refers
      dsimp only
      rw [InsertionMap.get_set]
      split_ifs with heq
      · rw [Option.getD_some, InsertionSet.mem_delete, heq, hget, Option.getD_some]
        exact and_congr_right fun _ => not_congr (and_iff_left rfl).symm
      · exact (and_iff_left fun h' => heq h'.2).symm

/-- A key that is not the one has its consumers still. -/
theorem get_dropConsumer_ne (hne : k' ≠ k) :
    (m.dropConsumer c k consumers).references.get k' = m.references.get k' := by
  unfold dropConsumer
  dsimp only
  split_ifs
  · exact InsertionMap.get_delete.trans (if_neg hne)
  · exact InsertionMap.get_set_ne hne

/-- What the first loop of a replacement comes to. -/
theorem sheds_dropOthers {entries : List (SubscriptionKey × InsertionSet JsString)}
    (h : m.Populated) (hnodup : (entries.map Prod.fst).Nodup)
    (hget : ∀ e ∈ entries, m.references.get e.1 = some e.2) :
    Sheds (fun c' k' => c' = c ∧ k' ∉ desired ∧ k' ∈ entries.map Prod.fst) m
      (dropOthers c desired m entries).1 := by
  induction entries generalizing m with
  | nil => exact .refl h fun _ _ hp => List.not_mem_nil hp.2.2
  | cons e entries ih =>
    obtain ⟨key, consumers⟩ := e
    rw [List.map_cons, List.nodup_cons] at hnodup
    have hkey := hget _ List.mem_cons_self
    have hrest := fun e he => hget e (List.mem_cons_of_mem _ he)
    rw [dropOthers]
    split_ifs with hdrops
    · have hdropped : Sheds (fun c' k' => c' = c ∧ k' = key) m
          (m.dropConsumer c key consumers) := sheds_dropConsumer h hkey
      refine (hdropped.trans (ih hdropped.populated hnodup.2 fun e he => ?_)).congr
        fun c' k' => ?_
      · have hmem : e.1 ∈ entries.map Prod.fst := List.mem_map_of_mem he
        have hne : e.1 ≠ key := fun heq => hnodup.1 (heq ▸ hmem)
        exact (get_dropConsumer_ne hne).trans (hrest e he)
      · rw [List.map_cons, List.mem_cons]
        constructor
        · rintro (⟨hc, rfl⟩ | ⟨hc, hk, hmem⟩)
          · exact ⟨hc, hdrops.2, Or.inl rfl⟩
          · exact ⟨hc, hk, Or.inr hmem⟩
        · rintro ⟨hc, hk, hmem⟩
          exact hmem.imp (fun heq => ⟨hc, heq⟩) fun hmem => ⟨hc, hk, hmem⟩
    · have hother := @ih m h hnodup.2 hrest
      -- The consumer does not refer to this key, or goes on doing so.
      refine ⟨hother.autoStart, hother.sourceStatus, hother.populated, fun c' k' => ?_,
        hother.acknowledged, hother.fresh, fun k' hk' => hother.kept k' (hk'.imp id ?_)⟩
      · refine (hother.refers c' k').trans (and_congr_right fun hrefers => not_congr ?_)
        rw [List.map_cons, List.mem_cons]
        refine and_congr_right fun hc => and_congr_right fun hk => (or_iff_right ?_).symm
        rintro rfl
        exact hdrops ⟨(refers_of_get hkey).1 (hc ▸ hrefers), hk⟩
      · exact fun hnot c' hc' => hnot c' ⟨hc'.1, hc'.2.1, List.mem_cons_of_mem _ hc'.2.2⟩

/-- Nothing has changed if the first loop says so. -/
theorem dropOthers_unchanged {entries : List (SubscriptionKey × InsertionSet JsString)}
    (h : (dropOthers c desired m entries).2 = false) : (dropOthers c desired m entries).1 = m := by
  induction entries with
  | nil => rfl
  | cons e entries ih =>
    rw [dropOthers] at h ⊢
    split_ifs at h ⊢
    exact ih h

/-! ## Replacing them -/

/-- What a replacement comes to, but for the keys that come. -/
theorem replaceReferences_spec (h : m.Populated) (c : JsString)
    (desired : InsertionSet SubscriptionKey) : ∃ m₁,
    Sheds (fun c' k' => c' = c ∧ k' ∉ desired) m m₁ ∧
    (∀ c' k', (m.replaceReferences c desired).1.Refers c' k' ↔
      m₁.Refers c' k' ∨ c' = c ∧ k' ∈ desired) ∧
    (∀ k', (m.replaceReferences c desired).1.Referenced k' ↔ m₁.Referenced k' ∨ k' ∈ desired) ∧
    (m.replaceReferences c desired).1.Populated ∧
    (m.replaceReferences c desired).1 =
      { m₁ with references := (m.replaceReferences c desired).1.references } := by
  have hdropped : Sheds (fun c' k' => c' = c ∧ k' ∉ desired ∧
      k' ∈ m.references.entries.map Prod.fst) m (dropOthers c desired m m.references.entries).1 :=
    sheds_dropOthers h m.references.nodup fun e he => InsertionMap.mem_entries_iff.1 he
  obtain ⟨hrefers, hreferenced, hpopulated, hrest⟩ :=
    @addDesired_spec (dropOthers c desired m m.references.entries).1 c desired.elements
  have hsheds : Sheds (fun c' k' => c' = c ∧ k' ∉ desired) m
      (dropOthers c desired m m.references.entries).1 :=
    { hdropped with
      refers := fun c' k' => by
        -- A key that a consumer refers to is among the entries.
        rw [hdropped.refers]
        refine and_congr_right fun hc' => not_congr
          ⟨fun hp => ⟨hp.1, hp.2.1⟩, fun hp => ⟨hp.1, hp.2, ?_⟩⟩
        obtain ⟨consumers, hget⟩ := Option.ne_none_iff_exists'.1 hc'.referenced
        exact List.mem_map.2 ⟨_, InsertionMap.mem_entries_iff.2 hget, rfl⟩
      kept := fun k' hk' => hdropped.kept k' (hk'.imp id fun hnot c' hp =>
        hnot c' ⟨hp.1, hp.2.1⟩) }
  exact ⟨_, hsheds, hrefers, hreferenced, hpopulated hdropped.populated, hrest⟩

/-- Nothing has changed if a replacement says so. -/
theorem replaceReferences_unchanged (h : (m.replaceReferences c desired).2 = false) :
    (m.replaceReferences c desired).1 = m := by
  unfold replaceReferences at h ⊢
  rw [Bool.or_eq_false_iff] at h
  have hdropped := dropOthers_unchanged h.1
  exact (addDesired_unchanged h.2).trans hdropped

/-! ## Symbols -/

/-- The symbols of the keys that are referred to. -/
theorem mem_symbols {symbol : JsString} :
    symbol ∈ m.symbols ↔ ∃ k, m.Referenced k ∧ k.symbol = symbol := by
  unfold symbols
  rw [List.mem_insertionSort, List.mem_map]
  constructor
  · rintro ⟨e, he, rfl⟩
    exact ⟨e.1, Option.ne_none_iff_exists'.2 ⟨e.2, InsertionMap.mem_entries_iff.1 he⟩, rfl⟩
  · rintro ⟨k, hk, rfl⟩
    obtain ⟨consumers, hget⟩ := Option.ne_none_iff_exists'.1 hk
    exact ⟨_, InsertionMap.mem_entries_iff.2 hget, rfl⟩

/-- They come in order, each once. -/
theorem pairwise_symbols : m.symbols.Pairwise (· < ·) := by
  refine pairwise_lt_insertionSort ?_
  have hsymbols : (m.references.entries.map fun e => e.1.symbol) =
      (m.references.entries.map Prod.fst).map SubscriptionKey.symbol := by
    rw [List.map_map]
    rfl
  rw [hsymbols]
  exact m.references.nodup.map fun _ _ h => SubscriptionKey.ext_symbol h

/-! ## Snapshots -/

/-- The snapshot is that of the references and of what is known of them. -/
def Current (rt : Runtime) (m : SmartSubscriptionManager) : Prop := m.snapshot = m.buildSnapshot rt

/-- The entries of a current snapshot are those of the references. -/
theorem Current.mem_subscriptions {rt : Runtime} (h : m.Current rt) {entry : ManagedSubscription} :
    entry ∈ m.snapshot.subscriptions ↔ ∃ e ∈ m.references.entries, m.subscription e = entry := by
  rw [show m.snapshot = m.buildSnapshot rt from h]
  unfold buildSnapshot
  dsimp only
  rw [List.mem_insertionSort, List.mem_map]

/-- Its totals are those of the references. -/
theorem Current.totals {rt : Runtime} (h : m.Current rt) :
    m.snapshot.totalReferences = (m.references.values.map InsertionSet.size).sum ∧
    m.snapshot.uniqueSubscriptions = m.references.entries.length := by
  rw [show m.snapshot = m.buildSnapshot rt from h]
  unfold buildSnapshot
  dsimp only
  constructor
  · rw [((List.perm_insertionSort _ _).map _).sum_eq, List.map_map]
    unfold InsertionMap.values
    rw [List.map_map]
    rfl
  · rw [List.length_insertionSort, List.length_map]

/-- An entry that is live is one of a symbol that is acknowledged and fresh, while the source is
live. -/
theorem subscription_live {e : SubscriptionKey × InsertionSet JsString} :
    (m.subscription e).status = .live ↔ m.sourceStatus.state = .live ∧
      e.1.symbol ∈ m.acknowledgedSymbols ∧ e.1.symbol ∈ m.freshSymbols := by
  unfold subscription
  dsimp only
  split_ifs with h
  · exact iff_of_true rfl h
  · exact iff_of_false id h

/-- What is heard leaves a current snapshot current. -/
theorem Current.hearEvent {rt : Runtime} (h : m.Current rt) (event : SourceEvent) :
    (m.hearEvent rt event).Current rt := by
  unfold SmartSubscriptionManager.hearEvent
  split_ifs
  · exact h
  · cases event with
    | subscriptionAck action => cases action <;> rfl
    | marketData point =>
      dsimp only
      split_ifs
      · exact h
      · exact h
      · exact h
      · rfl
    | pong => exact h
    | notice => exact h

/-- A status makes the snapshot current. -/
theorem current_hearStatus (rt : Runtime) (status : SourceStatus) :
    (m.hearStatus rt status).Current rt := rfl

end SmartSubscriptionManager

end MarketDataGateway.MarketData
