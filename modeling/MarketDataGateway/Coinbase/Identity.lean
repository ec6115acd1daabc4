import MarketDataGateway.Coinbase.Batches
import MarketDataGateway.Lib.Capitals
import MarketDataGateway.Lib.Joins

/-!
# The identity of a batch

The text of which the identifier of an event is made joins the symbol and the trade ids with `:` and
`,`, which may be in these too. `eventIdentity_eq_iff` says when the texts of two batches are equal,
and `identity_injective_iff` for which batches they tell them apart: for all whose ids have neither
of these characters (`identity_injective_of_plain`).
-/

namespace MarketDataGateway.Coinbase

open Lib Models

/-- A symbol with the trade ids of a batch. -/
structure Batch where
  /-- The symbol. -/
  symbol : PyStr
  symbol_ne_nil : symbol ≠ []
  symbol_chars : symbol.all isSymbolChar
  /-- The trade ids. -/
  tradeIds : List PyStr
  tradeIds_ne_nil : tradeIds ≠ []
  stripped : ∀ id ∈ tradeIds, id ≠ [] ∧ strip id = id

/-- The comma. -/
abbrev comma : CodePoint := 0x2C

/-- The colon. -/
abbrev colon : CodePoint := 0x3A

/-- The symbol of `a` is that of `b` with a colon and a text `r`, and the ids of `b` are those of
`a` with `r` and a colon before them, up to where the commas stand. -/
def Shifted (a b : Batch) : Prop :=
  ∃ r, a.symbol = b.symbol ++ colon :: r ∧
    pieces comma b.tradeIds = (pieces comma a.tradeIds).modifyHead fun id => r ++ colon :: id

/-- Different batches with one identity: they have the same symbol, and ids that differ only in
which of their commas stand between ids, or the symbol of one has a part of the first id of the
other. -/
def Confusable (a b : Batch) : Prop :=
  (a.symbol = b.symbol ∧ a.tradeIds ≠ b.tradeIds ∧
    pieces comma a.tradeIds = pieces comma b.tradeIds) ∨
    Shifted a b ∨ Shifted b a

section Identity

variable {a b : Batch}

/-- No symbol has a comma. -/
theorem comma_not_mem {s : PyStr} (h : s.all isSymbolChar) : comma ∉ s := fun hmem =>
  absurd (List.all_eq_true.1 h _ hmem) (by decide)

/-- An identity is the provider, the symbol and the ids, between colons and commas. -/
theorem eventIdentity_eq (symbol : PyStr) (ids : List PyStr) : eventIdentity symbol ids =
    providerName ++ colon :: (symbol ++ colon :: [comma].intercalate ids) := by
  change [colon].intercalate [providerName, symbol, [comma].intercalate ids] = _
  rw [List.intercalate_cons_cons, List.intercalate_cons_cons, List.intercalate_singleton]
  simp only [List.append_assoc, List.singleton_append]

/-- A text is a join with a prefix exactly if the pieces are those of the join with the prefix
before the first one. -/
theorem intercalate_eq_append_iff {r : PyStr} (hr : comma ∉ r) {l l' : List PyStr} (h : l ≠ [])
    (h' : l' ≠ []) : [comma].intercalate l' = r ++ colon :: [comma].intercalate l ↔
      pieces comma l' = (pieces comma l).modifyHead fun id => r ++ colon :: id := by
  have hprefix : comma ∉ r ++ [colon] := by
    simpa using ⟨hr, by decide⟩
  have hsplit : (r ++ colon :: [comma].intercalate l).splitOn comma =
      (pieces comma l).modifyHead fun id => r ++ colon :: id := by
    rw [List.append_cons, splitOn_append hprefix, splitOn_intercalate_pieces h]
    simp
  rw [← hsplit, ← splitOn_intercalate_pieces h']
  constructor
  · exact congrArg _
  · intro heq
    have hjoin := congrArg [comma].intercalate heq
    rwa [List.intercalate_splitOn, List.intercalate_splitOn] at hjoin

/-- The identities of two batches are equal exactly if the symbols are the same and the ids have the
same pieces, or a part of the text is in the symbol of one and in the first id of the other. -/
theorem eventIdentity_eq_iff :
    eventIdentity a.symbol a.tradeIds = eventIdentity b.symbol b.tradeIds ↔
    (a.symbol = b.symbol ∧ pieces comma a.tradeIds = pieces comma b.tradeIds) ∨
      Shifted a b ∨ Shifted b a := by
  have hshift (a b : Batch) :
      (∃ r, a.symbol = b.symbol ++ colon :: r ∧
        [comma].intercalate b.tradeIds = r ++ colon :: [comma].intercalate a.tradeIds) ↔
        Shifted a b := by
    refine exists_congr fun r => and_congr_right fun hsymbol => ?_
    refine intercalate_eq_append_iff (fun hr => ?_) a.tradeIds_ne_nil b.tradeIds_ne_nil
    exact comma_not_mem a.symbol_chars (hsymbol ▸ by simp [hr])
  rw [eventIdentity_eq, eventIdentity_eq, List.append_cancel_left_eq, List.cons.injEq,
    append_cons_eq_iff, intercalate_eq_iff a.tradeIds_ne_nil b.tradeIds_ne_nil,
    hshift a b, hshift b a]
  simp only [true_and]

/-- A shifted batch has another symbol. -/
theorem Shifted.symbol_ne (h : Shifted a b) : a.symbol ≠ b.symbol := by
  obtain ⟨r, hr, -⟩ := h
  intro heq
  have hlength := congrArg List.length (heq.symm.trans hr)
  simp at hlength

/-- The identities of two batches are equal only if the batches are, exactly unless they are
confusable. -/
theorem identity_injective_iff (a b : Batch) :
    (eventIdentity a.symbol a.tradeIds = eventIdentity b.symbol b.tradeIds →
      a.symbol = b.symbol ∧ a.tradeIds = b.tradeIds) ↔ ¬ Confusable a b := by
  rw [eventIdentity_eq_iff]
  constructor
  · rintro h (⟨hsymbol, hids, hpieces⟩ | hshift | hshift)
    · exact hids (h (Or.inl ⟨hsymbol, hpieces⟩)).2
    · exact hshift.symbol_ne (h (Or.inr (Or.inl hshift))).1
    · exact hshift.symbol_ne (h (Or.inr (Or.inr hshift))).1.symm
  · rintro h (⟨hsymbol, hpieces⟩ | hshift)
    · refine ⟨hsymbol, by_contra fun hids => h (Or.inl ⟨hsymbol, hids, hpieces⟩)⟩
    · exact absurd (Or.inr hshift) h

/-- Batches whose ids have neither a comma nor a colon are not confusable. -/
theorem identity_injective_of_plain (ha : ∀ id ∈ a.tradeIds, comma ∉ id ∧ colon ∉ id)
    (hb : ∀ id ∈ b.tradeIds, comma ∉ id ∧ colon ∉ id) : ¬ Confusable a b := by
  have hpieces (c : Batch) (hc : ∀ id ∈ c.tradeIds, comma ∉ id ∧ colon ∉ id) :
      pieces comma c.tradeIds = c.tradeIds := pieces_eq_self fun id hid => (hc id hid).1
  have hshift (c d : Batch) (hc : ∀ id ∈ c.tradeIds, comma ∉ id ∧ colon ∉ id)
      (hd : ∀ id ∈ d.tradeIds, comma ∉ id ∧ colon ∉ id) : ¬ Shifted c d := by
    rintro ⟨r, -, h⟩
    rw [hpieces c hc, hpieces d hd] at h
    -- The first id of `d` would have the colon.
    obtain ⟨id, ids, hids⟩ := List.exists_cons_of_ne_nil c.tradeIds_ne_nil
    rw [hids, List.modifyHead_cons] at h
    have hcolon := (hd (r ++ colon :: id) (h ▸ List.mem_cons_self)).2
    exact hcolon (List.mem_append_right _ List.mem_cons_self)
  rintro (⟨-, hids, h⟩ | h | h)
  · rw [hpieces a ha, hpieces b hb] at h
    exact hids h
  · exact hshift a b ha hb h
  · exact hshift b a hb ha h

end Identity

/-! ## Batches of messages -/

section Messages

variable {py : Python} {payload : Mapping} {trades : List (PyStr × Trade)} {symbol : PyStr}

/-- A trade id has characters, and is trimmed. -/
theorem tradeId_eq_ok {row : Mapping} {id : PyStr} (h : tradeId py row = .ok id) :
    id ≠ [] ∧ strip id = id := by
  obtain ⟨s, -, h⟩ := bind_eq_ok.1 h
  dsimp only at h
  split_ifs at h with hnil
  rw [← Except.ok.inj h]
  exact ⟨hnil, (trimmed_strip s).strip_eq⟩

/-- The trades of a symbol in a message are a batch. -/
theorem IsMessage.batch (h : IsMessage py payload trades) (hsymbol : symbol ∈ trades.map Prod.fst) :
    ∃ b : Batch, b.symbol = symbol ∧ b.tradeIds = (tradesOf symbol trades).map Trade.id := by
  obtain ⟨events, items, -, -, htrades⟩ := h
  obtain ⟨t, ht, rfl⟩ := List.mem_map.1 hsymbol
  obtain ⟨row, -, hrow, -⟩ := exists_left_of_forall₂ htrades ht
  obtain ⟨hne, hchars⟩ := symbolOf_eq_ok hrow
  have hids : (tradesOf t.1 trades).map Trade.id ≠ [] :=
    List.ne_nil_of_mem (List.mem_map_of_mem (List.mem_map_of_mem
      (List.mem_filter.2 ⟨ht, decide_eq_true rfl⟩)))
  refine ⟨⟨t.1, hne, hchars, _, hids, fun id hid => ?_⟩, rfl, rfl⟩
  obtain ⟨t', ht', rfl⟩ := List.mem_map.1 hid
  obtain ⟨u, hu, rfl⟩ := List.mem_map.1 ht'
  obtain ⟨row', -, -, hrow'⟩ := exists_left_of_forall₂ htrades (List.mem_of_mem_filter hu)
  exact tradeId_eq_ok hrow'.id

/-- A message with one trade of BTC-USD whose id has a comma. -/
def commaId : Mapping :=
  sampleMessage "market_trades" "trades"
    [sampleTrade "1,2" "SELL" "1.5" "100" "2024-01-01T00:00:00Z"]

/-- The trade of `commaId`. -/
def commaIdRead : List (PyStr × Trade) :=
  [(text "BTC-USD", ⟨.finite ⟨⟨false, 15, -1⟩, value_nonneg_fifteenTenths⟩,
    .finite (samplePrice 100), .sell, text "1,2",
    some ⟨⟨1704067200 * second, some 0⟩, isSome_utcoffset_newYear⟩⟩)]

/-- The trades 1 and 2 of one message and the trade `1,2` of another are events with one
identifier. -/
theorem not_identity_injective : ∃ events p events' p' trades trades',
    Projector.new.apply samplePython ⟨0, some 0⟩ twoTrades = (.ok events, p) ∧
    Projector.new.apply samplePython ⟨0, some 0⟩ commaId = (.ok events', p') ∧
    IsMessage samplePython twoTrades trades ∧ IsMessage samplePython commaId trades' ∧
    ∃ e ∈ events, ∃ e' ∈ events', e.symbol.1 = e'.symbol.1 ∧
      (tradesOf e.symbol.1 trades).map Trade.id ≠ (tradesOf e'.symbol.1 trades').map Trade.id ∧
      eventIdentity e.symbol.1 ((tradesOf e.symbol.1 trades).map Trade.id) =
        eventIdentity e'.symbol.1 ((tradesOf e'.symbol.1 trades').map Trade.id) ∧
      e.eventId = e'.eventId := by
  obtain ⟨events, p, h⟩ := exists_of_isOk
    (show (Projector.new.apply samplePython ⟨0, some 0⟩ twoTrades).1.isOk = true by decide +kernel)
  obtain ⟨events', p', h'⟩ := exists_of_isOk
    (show (Projector.new.apply samplePython ⟨0, some 0⟩ commaId).1.isOk = true by decide +kernel)
  have hmessage : IsMessage samplePython commaId commaIdRead := by
    refine ⟨_, [[_]], rfl, .cons rfl .nil, .cons ⟨?_, ⟨?_, ?_, ?_, ?_, ?_⟩⟩ .nil⟩
    all_goals decide +kernel
  obtain ⟨e, he, hsymbol, hid⟩ := exists_event rfl h isMessage_twoTrades
    (text "BTC-USD") (by decide)
  obtain ⟨e', he', hsymbol', hid'⟩ := exists_event rfl h' hmessage (text "BTC-USD") (by decide)
  refine ⟨events, p, events', p', _, _, h, h', isMessage_twoTrades, hmessage, e, he, e', he',
    hsymbol.trans hsymbol'.symm, ?_⟩
  rw [hsymbol, hsymbol']
  have hidentity : eventIdentity (text "BTC-USD")
    ((tradesOf (text "BTC-USD") twoTradesRead).map Trade.id) =
      eventIdentity (text "BTC-USD") ((tradesOf (text "BTC-USD") commaIdRead).map Trade.id) := rfl
  refine ⟨by decide, hidentity, Option.some.inj ?_⟩
  rw [← hid, ← hid', eventIdOf, eventIdOf, hidentity]

end Messages

end MarketDataGateway.Coinbase
