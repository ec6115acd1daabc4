import Mathlib.Data.List.Chain
import MarketDataGateway.Recorder.Append
import MarketDataGateway.Recorder.Quotes

/-!
# Gap markers and failed writes

A recorder over reconnects. `handle` moves the watermark of a symbol before it calls the writer, so
after a write that has failed the watermark is that of a quote which is not in the file.
`handle_cases` says what a message can do. As long as no write of a quote with a sequence fails, the
watermark is the sequence of the last row (`Inv`), the gap markers are true and no quote is lost.
The first such write that fails leaves a quote that is counted as a duplicate when it comes again
(`not_truthful`).
-/

namespace MarketDataGateway.Recorder.Gaps

open Lib

/-! ## The system -/

/-- The recorder, the file and what has become of the quotes. -/
structure State where
  /-- The recorder. -/
  recorder : QuoteRecorder
  /-- The content of the file. -/
  file : List Byte
  /-- The rows that the writer has returned. -/
  rows : List Record
  /-- The symbols and sequences of the quotes whose write has failed, until a quote of the symbol
  with the sequence or a later one is persisted. -/
  failed : List (PyStr × ℕ)

/-- What happens next. -/
inductive Label
  /-- A message is handled. -/
  | message (calls : OsCalls) (raw : RawMessage)
  /-- The WebSocket is connected again. -/
  | reconnect

/-- A new recorder on an open writer. -/
def State.init (writer : Writer) (file : List Byte) : State := ⟨.init writer, file, [], []⟩

/-- The symbol and the sequence of the quote in the message, if it has them. -/
def sequenced (validators : Validators) (raw : RawMessage) : Option (PyStr × ℕ) :=
  match readMessage validators raw with
  | some (some (quote, _)) => quote.sequence.map fun n => (quote.symbol, n)
  | _ => none

/-- One step. -/
def step (validators : Validators) (st : State) : Label → Option State
  | .message calls raw =>
    let key := sequenced validators raw
    match st.recorder.handle validators calls raw st.file with
    | (.ignored, recorder, file) => some { st with recorder := recorder, file := file }
    | (.recorded row, recorder, file) => some {
      recorder := recorder
      file := file
      rows := st.rows ++ [row]
      failed := st.failed.filter fun k => key.all fun k' => k.1 ≠ k'.1 ∨ k'.2 < k.2 }
    | (.raised _, recorder, file) => some { st with
      recorder := recorder
      file := file
      failed := key.toList ++ st.failed }
  | .reconnect => some { st with
    recorder := { st.recorder with
      counters.reconnects := st.recorder.counters.reconnects + 1 } }

/-- The sequence of a row, if it is a row of the symbol and has one. -/
def sequenceOf (symbol : PyStr) (row : Record) : Option ℕ :=
  match row.get (text "symbol"), row.get (text "sequence") with
  | some (.str s), some (.int z) => if s = symbol then some z.toNat else none
  | _, _ => none

/-- The rows of the symbol that have sequences, with these. -/
def sequencedRows (symbol : PyStr) (rows : List Record) : List (ℕ × Record) :=
  rows.filterMap fun row => (sequenceOf symbol row).map fun n => (n, row)

/-- The gap markers of the second row tell how far it is from the first. -/
structure Follows (a b : ℕ × Record) : Prop where
  later : a.1 < b.1
  gapSize : b.2.get (text "gap_size") = some (.int (b.1 - a.1 - 1 : ℕ))
  sequenceGap : b.2.get (text "sequence_gap") = some (.bool (decide (0 < b.1 - a.1 - 1)))
  degradedStream : b.2.get (text "degraded_stream") = some (.bool (decide (0 < b.1 - a.1 - 1)))

/-- The gap markers are true, and a quote whose write has failed is handed to the writer when it
comes again. -/
structure Truthful (validators : Validators) (st : State) : Prop where
  gaps : ∀ symbol, (sequencedRows symbol st.rows).IsChain Follows
  recordable : ∀ key ∈ st.failed, ∀ calls raw, sequenced validators raw = some key →
    (st.recorder.handle validators calls raw st.file).1 ≠ .ignored

/-- The call of the writer for the message raises. -/
def writeRaises (validators : Validators) (st : State) (calls : OsCalls)
    (raw : RawMessage) : Bool :=
  match readMessage validators raw with
  | some (some (quote, metadata)) =>
    match st.recorder.sequenceMetadata quote with
    | (some sequence, _) =>
      match (st.recorder.writer.write calls (row quote metadata sequence) st.file).1 with
      | .error _ => true
      | .ok _ => false
    | (none, _) => false
  | _ => false

/-- No write of a quote with a sequence fails. -/
def Written (validators : Validators) (st : State) : Label → Prop
  | .message calls raw =>
    (sequenced validators raw).isSome = true → writeRaises validators st calls raw = false
  | .reconnect => True

instance (validators : Validators) (st : State) (a : Label) :
    Decidable (Written validators st a) := by
  unfold Written
  split <;> infer_instance

/-! ## One message -/

variable {validators : Validators} {recorder recorder' : QuoteRecorder} {st st' : State}
  {calls : OsCalls} {raw : RawMessage} {outcome : Outcome} {file file' : List Byte} {a : Label}
  {symbol : PyStr} {n : ℕ} {rows old : List Record} {r : Record}

/-- What the row says about the sequence and the gap. -/
structure Marked (row : Record) (ofSymbol : PyStr) (number : Option ℕ) (gap : ℕ) : Prop where
  symbol : row.get (text "symbol") = some (.str ofSymbol)
  sequence : row.get (text "sequence") = number.map fun n => .int n
  gapSize : row.get (text "gap_size") = some (.int gap)
  sequenceGap : row.get (text "sequence_gap") = some (.bool (decide (0 < gap)))
  degradedStream : row.get (text "degraded_stream") = some (.bool (decide (0 < gap)))

/-- The flag that is inserted is found. -/
theorem get_insertBool_self (record : Record) (field : String) (b : Bool) :
    (record.insertBool field b).get (text field) = some (.bool b) := Record.get_insert_self

/-- A flag that is inserted leaves the other fields. -/
theorem get_insertBool_ne (record : Record) {field other : String} (b : Bool)
    (h : other ≠ field) :
    (record.insertBool field b).get (text other) = record.get (text other) :=
  Record.get_insert_ne (text_injective.ne h)

/-- The row of a quote. -/
theorem marked_row (quote : Quote) (metadata : Metadata) (gapSize : ℕ) :
    Marked (row quote metadata ⟨0 < gapSize, 0 < gapSize, gapSize⟩) quote.symbol quote.sequence
      gapSize := by
  unfold row
  constructor
  all_goals
    simp only [ne_eq, String.reduceEq, not_false_eq_true, get_insertStr_ne, get_insertInt_ne,
      get_insertBool_ne, get_insertBool_self, Record.get_insert_self, quote.symbol_dump,
      quote.sequence_dump]

/-- The row is still marked when the writer has sealed it. -/
theorem Marked.sealed {w : Writer} {record : Record} {sequence : Option ℕ} {gapSize : ℕ}
    {hash : PyStr} {payload : List Byte} (h : Marked record symbol sequence gapSize)
    (hseal : w.sealRecord record = .ok (hash, r, payload)) : Marked r symbol sequence gapSize := by
  have hget {field : String} (hfield : field ∉ reservedLedgerFields) :
      r.get (text field) = record.get (text field) := get_sealRecord hseal hfield
  refine ⟨?_, ?_, ?_, ?_, ?_⟩
  · rw [hget (by simp [reservedLedgerFields]), h.symbol]
  · rw [hget (by simp [reservedLedgerFields]), h.sequence]
  · rw [hget (by simp [reservedLedgerFields]), h.gapSize]
  · rw [hget (by simp [reservedLedgerFields]), h.sequenceGap]
  · rw [hget (by simp [reservedLedgerFields]), h.degradedStream]

/-- The watermarks when a quote has been handed to the writer. -/
def advance (last : Dict PyStr ℕ) (symbol : PyStr) : Option ℕ → Dict PyStr ℕ
  | none => last
  | some n => last.insert symbol n

/-- The metadata of a quote, and what becomes of the watermark. -/
theorem sequenceMetadata_cases {quote : Quote} {metadata : Option SequenceMetadata}
    (h : recorder.sequenceMetadata quote = (metadata, recorder')) :
    recorder'.writer = recorder.writer ∧
      ((metadata = none ∧ recorder'.lastSequence = recorder.lastSequence ∧
        ∃ n w, quote.sequence = some n ∧ recorder.lastSequence.get quote.symbol = some w ∧ n ≤ w) ∨
      ∃ gapSize, metadata = some ⟨0 < gapSize, 0 < gapSize, gapSize⟩ ∧
        recorder'.lastSequence = advance recorder.lastSequence quote.symbol quote.sequence ∧
        ∀ n ∈ quote.sequence, ∀ w ∈ recorder.lastSequence.get quote.symbol,
          w < n ∧ gapSize = n - w - 1) := by
  unfold QuoteRecorder.sequenceMetadata at h
  split at h
  · next hnone =>
    -- Without a sequence there is no gap to tell of.
    obtain ⟨rfl, rfl⟩ := Prod.mk.inj h
    refine ⟨rfl, Or.inr ⟨0, rfl, ?_, ?_⟩⟩
    · rw [hnone]
      rfl
    · rw [hnone]
      nofun
  · next n hn =>
    dsimp only at h
    cases hlast : recorder.lastSequence.get quote.symbol with
    | none =>
      rw [hlast] at h
      obtain ⟨rfl, rfl⟩ := Prod.mk.inj h
      refine ⟨rfl, Or.inr ⟨0, rfl, ?_, nofun⟩⟩
      rw [hn]
      rfl
    | some w =>
      rw [hlast] at h
      by_cases hle : n ≤ w
      · -- A sequence that is not ahead of the watermark is no evidence.
        rw [if_pos (by simpa using hle)] at h
        obtain ⟨rfl, rfl⟩ := Prod.mk.inj h
        exact ⟨rfl, Or.inl ⟨rfl, rfl, n, w, hn, rfl, hle⟩⟩
      · -- A sequence ahead of it: the gap is what lies between.
        rw [if_neg (by simpa using hle)] at h
        obtain ⟨rfl, rfl⟩ := Prod.mk.inj h
        refine ⟨rfl, Or.inr ⟨n - w - 1, rfl, ?_, fun n' hn' w' hw' => ?_⟩⟩
        · rw [hn]
          rfl
        · rw [hn] at hn'
          obtain rfl := Option.some.inj hn'
          obtain rfl := Option.some.inj hw'
          exact ⟨not_le.1 hle, rfl⟩

/-- The counters play no role in the metadata. -/
theorem fst_sequenceMetadata (recorder : QuoteRecorder) (counters : Counters) (quote : Quote) :
    (({ recorder with counters := counters } : QuoteRecorder).sequenceMetadata quote).1 =
      (recorder.sequenceMetadata quote).1 := by
  unfold QuoteRecorder.sequenceMetadata
  split
  · rfl
  · next n _ =>
    dsimp only
    by_cases hduplicate : (recorder.lastSequence.get quote.symbol).any (n ≤ ·) = true
    · rw [if_pos hduplicate, if_pos hduplicate]
    · rw [if_neg hduplicate, if_neg hduplicate]

/-- The message leads to a call of the writer, for this row. -/
structure Attempt (validators : Validators) (recorder : QuoteRecorder) (raw : RawMessage)
    (symbol : PyStr) (sequence : Option ℕ) (gapSize : ℕ) (record : Record) : Prop where
  key : sequenced validators raw = sequence.map fun n => (symbol, n)
  marked : Marked record symbol sequence gapSize
  fresh : ∀ n ∈ sequence, ∀ w ∈ recorder.lastSequence.get symbol, w < n ∧ gapSize = n - w - 1

/-- What can become of a message: it is ignored, or the writer is called and raises, or it is called
and appends the row. -/
theorem handle_cases (st : State) (calls : OsCalls) (raw : RawMessage)
    (h : st.recorder.handle validators calls raw st.file = (outcome, recorder', file')) :
    (outcome = .ignored ∧ recorder'.writer = st.recorder.writer ∧ file' = st.file ∧
      recorder'.lastSequence = st.recorder.lastSequence ∧
      writeRaises validators st calls raw = false) ∨
    ∃ symbol sequence gapSize record,
      Attempt validators st.recorder raw symbol sequence gapSize record ∧
      recorder'.lastSequence = advance st.recorder.lastSequence symbol sequence ∧
      ((∃ e, outcome = .raised e ∧ recorder'.writer = st.recorder.writer ∧ file' = st.file ∧
        writeRaises validators st calls raw = true) ∨
      ∃ hash r payload, outcome = .recorded r ∧ conflictingFields record = [] ∧
        st.recorder.writer.sealRecord record = .ok (hash, r, payload) ∧
        recorder'.writer = { st.recorder.writer with
          previousRecordHash := hash
          nextLedgerIndex := st.recorder.writer.nextLedgerIndex + 1 } ∧
        file' = st.file ++ payload ∧ writeRaises validators st calls raw = false) := by
  unfold QuoteRecorder.handle at h
  unfold writeRaises
  dsimp only at h
  -- What is no message is ignored.
  cases hread : readMessage validators raw with
  | none =>
    rw [hread] at h
    simp only [Prod.mk.injEq] at h
    obtain ⟨rfl, rfl, rfl⟩ := h
    exact Or.inl ⟨rfl, rfl, rfl, rfl, rfl⟩
  | some message =>
    rw [hread] at h
    cases message with
    | none =>
      simp only [Prod.mk.injEq] at h
      obtain ⟨rfl, rfl, rfl⟩ := h
      exact Or.inl ⟨rfl, rfl, rfl, rfl, rfl⟩
    | some message =>
      obtain ⟨quote, metadata⟩ := message
      dsimp only at h ⊢
      -- A message is marked by its sequence, whatever the counters are.
      have hkey : sequenced validators raw = quote.sequence.map fun n => (quote.symbol, n) := by
        unfold sequenced
        rw [hread]
      have hsame : (({ st.recorder with
          counters.received := st.recorder.counters.received + 1 } :
          QuoteRecorder).sequenceMetadata quote).1 = (st.recorder.sequenceMetadata quote).1 :=
        fst_sequenceMetadata st.recorder _ quote
      split at h
      · next recorder₁ hmetadata =>
        rw [hmetadata] at hsame
        obtain ⟨hwriter, ⟨-, hlast, -⟩ | ⟨_, hsome, -⟩⟩ := sequenceMetadata_cases hmetadata
        · -- A sequence at or below the watermark: ignored, and the watermark stays.
          simp only [Prod.mk.injEq] at h
          obtain ⟨rfl, rfl, rfl⟩ := h
          refine Or.inl ⟨rfl, hwriter, rfl, hlast, ?_⟩
          split
          · next sequence _ hmetadata' =>
            rw [hmetadata'] at hsame
            cases hsame
          · rfl
        · cases hsome
      · next sequence recorder₁ hmetadata =>
        rw [hmetadata] at hsame
        obtain ⟨hwriter, ⟨hnone, -⟩ | ⟨gap, hgap, hlast, hfresh⟩⟩ :=
          sequenceMetadata_cases hmetadata
        · cases hnone
        obtain rfl := Option.some.inj hgap
        have hattempt : Attempt validators st.recorder raw quote.symbol quote.sequence gap
            (row quote metadata ⟨0 < gap, 0 < gap, gap⟩) :=
          ⟨hkey, marked_row quote metadata gap, hfresh⟩
        -- Else the row is written, and the watermark is moved whether this fails or not.
        refine Or.inr ⟨_, _, _, _, hattempt, ?_⟩
        have hraises : (match st.recorder.sequenceMetadata quote with
            | (some sequence, _) =>
              match (st.recorder.writer.write calls (row quote metadata sequence) st.file).1 with
              | .error _ => true
              | .ok _ => false
            | (none, _) => false) =
            match (st.recorder.writer.write calls
              (row quote metadata ⟨0 < gap, 0 < gap, gap⟩) st.file).1 with
            | .error _ => true
            | .ok _ => false := by
          split
          · next sequence _ hmetadata' =>
            rw [hmetadata'] at hsame
            obtain rfl := Option.some.inj hsame
            rfl
          · next hmetadata' =>
            rw [hmetadata'] at hsame
            cases hsame
        rw [hraises]
        rw [show recorder₁.writer = st.recorder.writer from hwriter] at h
        rcases write_eq st.recorder.writer calls (row quote metadata ⟨0 < gap,
          0 < gap, gap⟩) st.file
          with ⟨e, hwrite⟩ | ⟨hconflict, hash, r, payload, hseal, hwrite⟩
        · rw [hwrite] at h ⊢
          simp only [Prod.mk.injEq] at h
          obtain ⟨rfl, rfl, rfl⟩ := h
          exact ⟨hlast, Or.inl ⟨e, rfl, rfl, rfl, rfl⟩⟩
        · rw [hwrite] at h ⊢
          simp only [Prod.mk.injEq] at h
          obtain ⟨rfl, rfl, rfl⟩ := h
          exact ⟨hlast, Or.inr ⟨hash, r, payload, rfl, hconflict, hseal, rfl, rfl, rfl⟩⟩

/-! ## Runs -/

/-- The file is a ledger that ends with the rows, and the writer knows its head. -/
def Persisted (old : List Record) (st : State) : Prop :=
  ∃ p, Ledgered st.file (old ++ st.rows) p ∧
    st.recorder.writer.nextLedgerIndex = p.expectedIndex ∧
      st.recorder.writer.previousRecordHash = p.expectedPreviousHash

/-- A step keeps the rows those of the file. -/
theorem persisted_step (h : Persisted old st) (hstep : step validators st a = some st') :
    Persisted old st' := by
  cases a with
  | reconnect =>
    obtain rfl := Option.some.inj hstep
    exact h
  | message calls raw =>
    obtain ⟨p, hledger, hindex, hprevious⟩ := h
    rw [step] at hstep
    split at hstep
    · next recorder' file' hhandle =>
      obtain rfl := Option.some.inj hstep
      obtain ⟨-, hwriter, rfl, -⟩ | ⟨_, _, _, _, -, -, ⟨_, hout, -⟩ | ⟨_, _, _, hout, -⟩⟩ :=
        handle_cases st calls raw hhandle
      · -- A message that is not recorded leaves the file.
        exact ⟨p, hledger, hwriter ▸ hindex, hwriter ▸ hprevious⟩
      · cases hout
      · cases hout
    · next r recorder' file' hhandle =>
      obtain rfl := Option.some.inj hstep
      obtain ⟨hout, -⟩ | ⟨_, _, _, _, -, -, ⟨_, hout, -⟩ |
          ⟨hash, r', payload, hout, hconflict, hseal, hwriter, rfl, -⟩⟩ :=
        handle_cases st calls raw hhandle
      · cases hout
      · cases hout
      · obtain rfl : r = r' := Outcome.recorded.inj hout
        -- The sealed record is the next one that the verifier accepts.
        obtain ⟨haccepts, bytes, hbytes, rfl⟩ := accepts_sealRecord hseal hconflict hindex hprevious
          (hledger.accepts.isDigest (by decide))
        have happend := hledger.append haccepts hbytes
        rw [List.append_assoc] at happend
        refine ⟨_, happend, ?_, ?_⟩
        · rw [show recorder'.writer = _ from hwriter]
          exact congrArg Nat.succ hindex
        · rw [show recorder'.writer = _ from hwriter]
    · next e recorder' file' hhandle =>
      obtain rfl := Option.some.inj hstep
      obtain ⟨hout, -⟩ | ⟨_, _, _, _, -, -, ⟨_, -, hwriter, rfl, -⟩ | ⟨_, _, _, hout, -⟩⟩ :=
        handle_cases st calls raw hhandle
      · cases hout
      · exact ⟨p, hledger, hwriter ▸ hindex, hwriter ▸ hprevious⟩
      · cases hout

/-- The watermarks are the sequences of the last rows, and the gap markers are true. -/
structure Inv (st : State) : Prop where
  watermark : ∀ symbol, st.recorder.lastSequence.get symbol =
    (sequencedRows symbol st.rows).getLast?.map Prod.fst
  gaps : ∀ symbol, (sequencedRows symbol st.rows).IsChain Follows
  failed : st.failed = []

/-- The sequenced rows, with one more row. -/
theorem sequencedRows_append (symbol : PyStr) (rows : List Record) (r : Record) :
    sequencedRows symbol (rows ++ [r]) =
      sequencedRows symbol rows ++ ((sequenceOf symbol r).map fun n => (n, r)).toList := by
  unfold sequencedRows
  rw [List.filterMap_append]
  cases h : sequenceOf symbol r with
  | none => simp [h]
  | some n => simp [h]

/-- The sequence of a row that is marked is that of its quote. -/
theorem sequenceOf_marked {number : Option ℕ} {gap : ℕ} (h : Marked r symbol number gap)
    (other : PyStr) : sequenceOf other r = if symbol = other then number else none := by
  unfold sequenceOf
  rw [h.symbol, h.sequence]
  cases number with
  | none => split_ifs <;> rfl
  | some n => rfl

/-- A row that follows the last one of its symbol. -/
theorem inv_append {last : Dict PyStr ℕ} {number : Option ℕ} {gap : ℕ} (h : Inv st)
    (hmarked : Marked r symbol number gap)
    (hfresh : ∀ n ∈ number, ∀ w ∈ st.recorder.lastSequence.get symbol, w < n ∧ gap = n - w - 1)
    (hlast : last = advance st.recorder.lastSequence symbol number) (other : PyStr) :
    last.get other = (sequencedRows other (st.rows ++ [r])).getLast?.map Prod.fst ∧
      (sequencedRows other (st.rows ++ [r])).IsChain Follows := by
  rw [sequencedRows_append, sequenceOf_marked hmarked, hlast]
  have hbefore := h.watermark other
  have hgaps := h.gaps other
  cases number with
  | none =>
    rw [ite_self, Option.map_none, Option.toList_none, List.append_nil]
    exact ⟨hbefore, hgaps⟩
  | some n =>
    by_cases hsame : symbol = other
    · subst hsame
      rw [if_pos rfl, Option.map_some, Option.toList_some, List.getLast?_concat]
      refine ⟨Dict.get_insert_self, List.isChain_append.2 ⟨hgaps, .singleton _, ?_⟩⟩
      intro x hx y hy
      obtain rfl := Option.some.inj hy
      rw [hx] at hbefore
      obtain ⟨hlt, rfl⟩ := hfresh n rfl x.1 hbefore
      exact ⟨hlt, hmarked.gapSize, hmarked.sequenceGap, hmarked.degradedStream⟩
    · rw [if_neg hsame, Option.map_none, Option.toList_none, List.append_nil]
      exact ⟨(Dict.get_insert_ne (Ne.symm hsame)).trans hbefore, hgaps⟩

/-- A step keeps the invariant. -/
theorem inv_step (h : Inv st) (hok : Written validators st a)
    (hstep : step validators st a = some st') : Inv st' := by
  cases a with
  | reconnect =>
    obtain rfl := Option.some.inj hstep
    exact ⟨h.watermark, h.gaps, h.failed⟩
  | message calls raw =>
    rw [step] at hstep
    split at hstep
    · next recorder' file' hhandle =>
      obtain rfl := Option.some.inj hstep
      obtain ⟨-, -, -, hlast, -⟩ | ⟨_, _, _, _, -, -, ⟨_, hout, -⟩ | ⟨_, _, _, hout, -⟩⟩ :=
        handle_cases st calls raw hhandle
      · refine ⟨fun symbol => ?_, h.gaps, h.failed⟩
        rw [show recorder'.lastSequence = _ from hlast]
        exact h.watermark symbol
      · cases hout
      · cases hout
    · -- A recorded quote moves the watermark to its sequence.
      next r recorder' file' hhandle =>
      obtain rfl := Option.some.inj hstep
      obtain ⟨hout, -⟩ | ⟨symbol, number, gap, record, hattempt, hlast, ⟨_, hout, -⟩ |
          ⟨hash, r', payload, hout, -, hseal, -⟩⟩ := handle_cases st calls raw hhandle
      · cases hout
      · cases hout
      · obtain rfl : r = r' := Outcome.recorded.inj hout
        have happend := inv_append h (hattempt.marked.sealed hseal) hattempt.fresh hlast
        refine ⟨fun other => (happend other).1, fun other => (happend other).2, ?_⟩
        show st.failed.filter _ = []
        rw [h.failed]
        rfl
    · next e recorder' file' hhandle =>
      obtain rfl := Option.some.inj hstep
      obtain ⟨hout, -⟩ | ⟨symbol, number, gap, record, hattempt, hlast,
          ⟨_, -, -, -, hraises⟩ | ⟨_, _, _, hout, -⟩⟩ := handle_cases st calls raw hhandle
      · cases hout
      · -- The write has failed, so the quote has no sequence.
        have hkey := hattempt.key
        cases number with
        | some n =>
          have hwritten := hok (by rw [hkey]; rfl)
          rw [hwritten] at hraises
          cases hraises
        | none =>
          refine ⟨fun other => ?_, h.gaps, ?_⟩
          · rw [show recorder'.lastSequence = _ from hlast]
            exact h.watermark other
          · show (sequenced validators raw).toList ++ st.failed = []
            rw [hkey, h.failed]
            rfl
      · cases hout

/-- A write of a quote with a sequence that fails leaves a quote that is not written when it comes
again. -/
theorem not_truthful (hstep : step validators st a = some st') (ha : ¬ Written validators st a) :
    ¬ Truthful validators st' := by
  cases a with
  | reconnect => exact absurd trivial ha
  | message calls raw =>
    obtain ⟨hkey, hraises⟩ := Classical.not_imp.1 ha
    rw [Bool.not_eq_false] at hraises
    rw [step] at hstep
    split at hstep
    · next recorder' file' hhandle =>
      obtain ⟨-, -, -, -, hnot⟩ | ⟨_, _, _, _, -, -, ⟨_, hout, -⟩ | ⟨_, _, _, hout, -⟩⟩ :=
        handle_cases st calls raw hhandle
      · rw [hnot] at hraises
        cases hraises
      · cases hout
      · cases hout
    · next r recorder' file' hhandle =>
      obtain ⟨hout, -⟩ | ⟨_, _, _, _, -, -, ⟨_, hout, -⟩ | ⟨_, _, _, -, -, -, -, -, hnot⟩⟩ :=
        handle_cases st calls raw hhandle
      · cases hout
      · cases hout
      · rw [hnot] at hraises
        cases hraises
    · next e recorder' file' hhandle =>
      obtain rfl := Option.some.inj hstep
      obtain ⟨hout, -⟩ | ⟨symbol, number, gap, record, hattempt, hlast, -⟩ :=
        handle_cases st calls raw hhandle
      · cases hout
      · obtain ⟨⟨s, n⟩, hsn⟩ := Option.isSome_iff_exists.1 hkey
        have hnumber := hattempt.key
        rw [hsn] at hnumber
        obtain ⟨n', rfl, heq⟩ := Option.map_eq_some_iff.1 hnumber.symm
        obtain ⟨rfl, rfl⟩ := Prod.mk.inj heq
        -- The watermark is the sequence of the quote, which is refused from now on.
        intro htruthful
        refine htruthful.recordable (symbol, n') ?_ calls raw hsn ?_
        · show (symbol, n') ∈ (sequenced validators raw).toList ++ st.failed
          rw [hsn]
          exact List.mem_cons_self
        · rcases hagain : recorder'.handle validators calls raw file' with ⟨out, _, _⟩
          obtain ⟨rfl, -⟩ | ⟨symbol', number', gap', record', hagain', -⟩ :=
            handle_cases { st with recorder := recorder', file := file' } calls raw hagain
          · rfl
          · have hnumber' := hagain'.key
            rw [hsn] at hnumber'
            obtain ⟨m, rfl, heq'⟩ := Option.map_eq_some_iff.1 hnumber'.symm
            obtain ⟨rfl, rfl⟩ := Prod.mk.inj heq'
            have hget : recorder'.lastSequence.get symbol' = some m := by
              rw [hlast]
              exact Dict.get_insert_self
            obtain ⟨hlt, -⟩ := hagain'.fresh m rfl m hget
            exact absurd hlt (lt_irrefl m)

/-- In the runs in which no write of a quote with a sequence fails, the gap markers of the rows are
true, every quote can be recorded, and the rows are what the file has after what it had before. A
write of such a quote that fails ends that. -/
theorem truthful_iff_written {path : String} {w writer : Writer} {file : List Byte}
    (hopen : w.enter path (some file) = (.ok writer, file)) :
    (∀ st, Path (step validators) (Written validators) (.init writer file) st →
      Truthful validators st ∧ parsedRecords st.file = parsedRecords file ++ st.rows) ∧
    ∀ st a st', Path (step validators) (Written validators) (.init writer file) st →
      step validators st a = some st' →
        (Truthful validators st' ↔ Written validators st a) := by
  -- The writer has been opened on a file that is accepted.
  have hstart : Persisted (parsedRecords file) (.init writer file) := by
    unfold Writer.enter at hopen
    dsimp only [Option.getD_some] at hopen
    split at hopen
    · cases hopen
    · next v hv =>
      obtain ⟨hwriter, -⟩ := Prod.mk.inj hopen
      obtain rfl := Except.ok.inj hwriter
      obtain ⟨hframed, hreads, p, haccepts, rfl⟩ := verifyJsonlLedger_eq_ok.1 hv
      refine ⟨p, ?_, rfl, rfl⟩
      show Ledgered file (parsedRecords file ++ []) p
      rw [List.append_nil]
      exact ⟨hframed, hreads, haccepts⟩
  have hinv {st} (h : Path (step validators) (Written validators) (.init writer file) st) :
      Inv st :=
    h.invariant Inv ⟨fun _ => rfl, fun _ => .nil, rfl⟩ fun _ _ _ ht hok hs => inv_step ht hok hs
  have htruthful {st} (h : Inv st) : Truthful validators st := by
    refine ⟨h.gaps, ?_⟩
    rw [h.failed]
    nofun
  -- A write that fails leaves a row without its marker behind, and no other step does.
  refine ⟨fun st hrun => ⟨htruthful (hinv hrun), ?_⟩, fun st a st' hrun hs => ⟨?_, ?_⟩⟩
  · obtain ⟨p, hledger, -⟩ :=
      hrun.invariant (Persisted _) hstart fun _ _ _ ht _ hs => persisted_step ht hs
    exact (hledger.verifies path true).1
  · intro h
    by_contra ha
    exact not_truthful hs ha h
  · intro ha
    exact htruthful (inv_step (hinv hrun) ha hs)

/-- Models that take the fields they have, for messages that have them all. -/
def plainValidators : Validators where
  streamMessage r :=
    match h : r.get (text "data") with
    | some v => (asRecord v (Record.get_sorted h)).map fun data =>
      ⟨if eqStr (r.get (text "type")) (text "quote") then .quote else .heartbeat, data⟩
    | none => none
  quoteEvent r :=
    match h : r.get (text "symbol"), h' : r.get (text "sequence") with
    | some (.str s), some (.int (.ofNat n)) => some ⟨s, some n, r, h, h'⟩
    | some (.str s), none => some ⟨s, none, r, h, h'⟩
    | _, _ => none

/-- The message with the quote of the sequence. -/
def quoteMessage (sequence : ℕ) : RawMessage :=
  .str (Json.dict [(text "data", .dict [
    (text "capabilities", .list [.str (text "level1_quote")]),
    (text "event_id", .str (text "00000000-0000-4000-8000-000000000001")),
    (text "price", .str (text "1")),
    (text "provider", .str (text "mock")),
    (text "provider_timestamp", .str (text "2026-01-01T00:00:00Z")),
    (text "received_at", .str (text "2026-01-01T00:00:00Z")),
    (text "schema_version", .str (text "1.0")),
    (text "sequence", .int sequence),
    (text "symbol", .str (text "AAPL"))]), (text "type", .str (text "quote"))]).encode

/-- The calls for a line that is appended. -/
def appended : OsCalls := ⟨[.wrote 1000], true, true⟩

/-- The calls for a line that is not appended. -/
def interrupted : OsCalls := ⟨[.wrote 7, .raises], true, true⟩

/-- A writer that has been opened on an empty file. -/
def emptyWriter : Writer := ⟨true, text "a", by decide, true, 0, genesisHash⟩

set_option maxRecDepth 10000 in
/-- A row that is written has a truthful mark. -/
theorem truthful_iff_written_row : ∃ st : State, st.rows.length = 1 ∧
    Truthful plainValidators st ∧ parsedRecords st.file = st.rows := by
  obtain ⟨st, hrun, hrows⟩ := Path.exists_of_exec (step plainValidators)
    (Written plainValidators) (.init emptyWriter []) [.message appended (quoteMessage 1)]
    (fun st => st.rows.length = 1) (by decide +kernel)
  have hopen : emptyWriter.enter "ledger" (some []) = (.ok emptyWriter, []) := rfl
  obtain ⟨htruthful, hparsed⟩ := (truthful_iff_written hopen).1 st hrun
  exact ⟨st, hrows, htruthful, hparsed⟩

set_option maxRecDepth 10000 in
/-- The quotes of sequences 1, 2 and 3 come, and the write of the second one fails. The row of the
third one has no gap marker, though the row before it is that of the first one. -/
theorem exists_not_truthful : ∃ st, Path (step plainValidators) anyStep (.init emptyWriter []) st ∧
    ¬ Truthful plainValidators st := by
  obtain ⟨st, hrun, hrows, hgap⟩ := Path.exists_of_exec (step plainValidators) anyStep
    (.init emptyWriter []) [.message appended (quoteMessage 1),
    .message interrupted (quoteMessage 2), .message appended (quoteMessage 3)]
    (fun st => (sequencedRows (text "AAPL") st.rows).map Prod.fst = [1, 3] ∧
      ∀ row ∈ sequencedRows (text "AAPL") st.rows, eqNat (row.2.get (text "gap_size")) 0 = true)
    (by decide +kernel)
  refine ⟨st, hrun, fun htruthful => ?_⟩
  have hchain := htruthful.gaps (text "AAPL")
  generalize sequencedRows (text "AAPL") st.rows = rows at hrows hgap hchain
  obtain ⟨a, rows, rfl, ha, hrows⟩ := List.map_eq_cons_iff.1 hrows
  obtain ⟨b, rows, rfl, hb, hrows⟩ := List.map_eq_cons_iff.1 hrows
  have hfollows := (List.isChain_cons_cons.1 hchain).1
  have hsize := hgap b (List.mem_cons_of_mem _ List.mem_cons_self)
  rw [hfollows.gapSize, ha, hb] at hsize
  exact absurd hsize (by decide)

end MarketDataGateway.Recorder.Gaps
