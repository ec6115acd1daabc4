import MarketDataGateway.Coinbase.Projector

/-!
# The tickers of a message

`tickerReads` are the tickers of a message in its order, each read or refused, with the faults of
the arrays between them. `_apply_ticker` takes in those before the first fault (`applyTicker_eq`),
so of each symbol it leaves the last one of these (`foldl_setTicker`).
-/

namespace MarketDataGateway.Coinbase

open Lib Models

/-- What an event of a ticker message is read as. -/
def eventReads (py : Python) (messageTimestamp : AwareDatetime) (event : Mapping) :
    List (Except Fault (PyStr × TickerState)) :=
  match mappingSequence (get event "tickers") "tickers" with
  | .error f => [.error f]
  | .ok tickers => tickers.map (readTicker py messageTimestamp)

/-- What a ticker message is read as. -/
def tickerReads (py : Python) (payload : Mapping) : List (Except Fault (PyStr × TickerState)) :=
  match timestamp py (get payload "timestamp") "timestamp" with
  | .error f => [.error f]
  | .ok messageTimestamp =>
    match mappingSequence (get payload "events") "events" with
    | .error f => [.error f]
    | .ok events => events.flatMap (eventReads py messageTimestamp)

/-- The tickers of a message before its first fault. -/
abbrev tickersBeforeFault (py : Python) (payload : Mapping) : List (PyStr × TickerState) :=
  beforeFault (tickerReads py payload)

/-- Sets tickers one after another. -/
def Projector.setTickers (p : Projector) (tickers : List (PyStr × TickerState)) : Projector :=
  tickers.foldl (fun p t => p.setTicker t.1 t.2) p

/-- The ticker is the last one of its symbol. -/
def IsLastOf (tickers : List (PyStr × TickerState)) (symbol : PyStr)
    (ticker : TickerState) : Prop :=
  ∃ before after, tickers = before ++ (symbol, ticker) :: after ∧ ∀ t ∈ after, t.1 ≠ symbol

section Tickers

variable {py : Python} {messageTimestamp : AwareDatetime} {payload : Mapping} {p : Projector}
  {tickers : List (PyStr × TickerState)} {symbol : PyStr} {ticker : TickerState}

/-- The loops take in the tickers before the first fault, and raise it. -/
theorem applyTicker_eq (p : Projector) (payload : Mapping) : p.applyTicker py payload =
    (firstFault (tickerReads py payload), p.setTickers (tickersBeforeFault py payload)) := by
  -- The innermost loop body, and around it the loop over the rows of an event.
  have hone (messageTimestamp : AwareDatetime) (p : Projector) (row : Mapping) :
      Projector.applyOne py messageTimestamp p row =
        (firstFault [readTicker py messageTimestamp row],
          (beforeFault [readTicker py messageTimestamp row]).foldl (fun p t =>
          p.setTicker t.1 t.2) p) := by
    unfold Projector.applyOne
    cases readTicker py messageTimestamp row <;> rfl
  have hevent (messageTimestamp : AwareDatetime) (p : Projector) (event : Mapping) :
      Projector.applyTickerEvent py messageTimestamp p event =
        (firstFault (eventReads py messageTimestamp event),
          (beforeFault (eventReads py messageTimestamp event)).foldl (fun p t =>
          p.setTicker t.1 t.2) p) := by
    unfold Projector.applyTickerEvent eventReads
    cases mappingSequence (get event "tickers") "tickers" with
    | error f => rfl
    | ok rows =>
      dsimp only
      rw [List.map_eq_flatMap]
      exact forEach_eq (hone messageTimestamp) p rows
  unfold Projector.applyTicker tickersBeforeFault tickerReads
  cases timestamp py (get payload "timestamp") "timestamp" with
  | error f => rfl
  | ok messageTimestamp =>
    cases mappingSequence (get payload "events") "events" with
    | error f => rfl
    | ok events => exact forEach_eq (hevent messageTimestamp) p events

/-- What a ticker message returns and leaves. -/
theorem apply_ticker {receivedAt : Datetime}
    (hchannel : py.str (getOrEmpty payload "channel") = .ok (text "ticker")) :
    p.apply py receivedAt payload = ((firstFault (tickerReads py payload)).map fun _ => [],
      p.setTickers (tickersBeforeFault py payload)) := by
  unfold Projector.apply
  rw [hchannel]
  dsimp only
  rw [if_pos rfl, applyTicker_eq]
  cases firstFault (tickerReads py payload) <;> rfl

/-- Tickers are set one after another. -/
theorem setTickers_append (t : PyStr × TickerState) :
    p.setTickers (tickers ++ [t]) = (p.setTickers tickers).setTicker t.1 t.2 := by
  rw [Projector.setTickers, List.foldl_append]
  rfl

/-- Tickers leave the sequences. -/
@[simp] theorem setTickers_sequence :
    (p.setTickers tickers).sequenceBySymbol = p.sequenceBySymbol := by
  induction tickers using List.reverseRecOn with
  | nil => rfl
  | append_singleton tickers t ih => rw [setTickers_append, ← ih]; rfl

/-- The ticker that is left for a symbol is the last one of it, or else the one before. -/
theorem setTickers_ticker (p : Projector) (tickers : List (PyStr × TickerState)) (symbol : PyStr) :
    (∃ ticker, IsLastOf tickers symbol ticker ∧
      (p.setTickers tickers).tickerBySymbol symbol = some ticker) ∨
    (∀ t ∈ tickers, t.1 ≠ symbol) ∧
      (p.setTickers tickers).tickerBySymbol symbol = p.tickerBySymbol symbol := by
  induction tickers using List.reverseRecOn with
  | nil => exact Or.inr ⟨by simp, rfl⟩
  | append_singleton tickers t ih =>
    rw [setTickers_append]
    by_cases ht : t.1 = symbol
    · refine Or.inl ⟨t.2, ⟨tickers, [], by rw [← ht], by simp⟩, ?_⟩
      rw [← ht]
      exact Function.update_self ..
    · have hget : ((p.setTickers tickers).setTicker t.1 t.2).tickerBySymbol symbol =
          (p.setTickers tickers).tickerBySymbol symbol := Function.update_of_ne (Ne.symm ht) ..
      rw [hget]
      rcases ih with ⟨ticker, ⟨before, after, rfl, hafter⟩, hticker⟩ | ⟨hnone, hticker⟩
      · refine Or.inl ⟨ticker, ⟨before, after ++ [t], by simp, ?_⟩, hticker⟩
        exact List.forall_mem_append.2 ⟨hafter, by simpa using ht⟩
      · exact Or.inr ⟨List.forall_mem_append.2 ⟨hnone, by simpa using ht⟩, hticker⟩

/-- The last ticker of a symbol is determined. -/
theorem IsLastOf.unique {ticker' : TickerState} (h : IsLastOf tickers symbol ticker)
    (h' : IsLastOf tickers symbol ticker') : ticker = ticker' := by
  have hlast {x : TickerState} (hx : IsLastOf tickers symbol x) :
      (tickers.filter fun t => t.1 = symbol).getLast? = some (symbol, x) := by
    obtain ⟨before, after, rfl, hafter⟩ := hx
    have hnone : (after.filter fun t => t.1 = symbol) = [] :=
      List.filter_eq_nil_iff.2 fun t ht => by simpa using hafter t ht
    rw [List.filter_append, List.filter_cons_of_pos (by simp), hnone,
      List.getLast?_append_of_ne_nil _ (List.cons_ne_nil _ _)]
    rfl
  exact (Prod.mk.inj (Option.some.inj ((hlast h).symm.trans (hlast h')))).2

/-- Setting tickers changes nothing exactly if the last one of each symbol is the one that is
there. -/
theorem setTickers_eq_self_iff : p.setTickers tickers = p ↔
    ∀ symbol ticker, IsLastOf tickers symbol ticker → p.tickerBySymbol symbol = some ticker := by
  constructor
  · intro h symbol ticker hlast
    rcases setTickers_ticker p tickers symbol with ⟨ticker', hlast', hticker⟩ | ⟨hnone, -⟩
    · rw [hlast.unique hlast', ← hticker, h]
    · obtain ⟨before, after, rfl, -⟩ := hlast
      exact absurd rfl (hnone (symbol, ticker) (by simp))
  · intro h
    refine Projector.ext (funext fun symbol => ?_) setTickers_sequence
    rcases setTickers_ticker p tickers symbol with ⟨ticker, hlast, hticker⟩ | ⟨-, hticker⟩
    · rw [hticker, h symbol ticker hlast]
    · exact hticker

end Tickers

end MarketDataGateway.Coinbase
