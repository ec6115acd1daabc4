import MarketDataGateway.Lib.Transition
import MarketDataGateway.Recorder.Evidence
import MarketDataGateway.Recorder.Writer

/-!
# Appending to a verified ledger

Sessions of the writer, one after the other, on one file. Each call of `write` appends one line or
leaves the file as it was (`write_eq`), and the line passes the verification that comes to it after
the lines before (`accepts_sealRecord`). `Inv` says what the writer and the file agree on, and every
step keeps it. `append_agrees` is the result for whole runs.
-/

namespace MarketDataGateway.Recorder

open Lib

/-! ## The system -/

/-- The file, and the writer of the present or last session. -/
structure State where
  /-- The content of the file, if there is one. -/
  file : Option (List Byte)
  /-- The writer. -/
  writer : Option Writer
  /-- What the calls of `write` have returned. -/
  written : List Record

/-- What happens next. -/
inductive Label
  /-- A session begins: `AtomicJsonlWriter(path, ...)` and its `__enter__`. -/
  | enter (fsync : Bool) (sessionId : Option PyStr) (uuid : PyStr)
  /-- A record is written. -/
  | write (calls : OsCalls) (record : Record)
  /-- The session ends. -/
  | close

/-- Before the first session. -/
def State.init (file : Option (List Byte)) : State := ⟨file, none, []⟩

/-- No session is open. -/
def State.idle (st : State) : Bool := st.writer.all fun w => !w.isOpen

/-- One step. Sessions do not overlap. -/
def step (path : String) (st : State) : Label → Option State
  | .enter fsync sessionId uuid =>
    if ¬ st.idle then none
    else match Writer.init fsync sessionId uuid with
    | none => some st
    | some w =>
      match w.enter path st.file with
      | (.error _, file) => some { st with file := some file, writer := none }
      | (.ok w, file) => some { st with file := some file, writer := some w }
  | .write calls record =>
    match st.writer with
    | none => none
    | some w =>
      match w.write calls record (st.file.getD []) with
      | (.error _, w, file) => some { st with file := some file, writer := some w }
      | (.ok r, w, file) => some ⟨some file, some w, st.written ++ [r]⟩
  | .close => some { st with writer := st.writer.map Writer.close }

/-! ## One call of `write` -/

variable {w w' : Writer} {record r : Record} {p p' : Progress} {hash : PyStr}
  {payload file line bytes : List Byte} {calls : OsCalls} {fsync : Bool} {path : String}

/-- A file keeps what it had, and has what is appended, if no write fails. -/
theorem take_appendAll (os : List OsWrite) (payload file : List Byte) :
    (appendAll os payload file).2.take file.length = file ∧
      ((appendAll os payload file).1 = .ok () →
        (appendAll os payload file).2 = file ++ payload) := by
  induction os generalizing payload file with
  | nil =>
    cases payload with
    | nil => exact ⟨List.take_length, fun _ => (List.append_nil file).symm⟩
    | cons b remaining => exact ⟨List.take_length, nofun⟩
  | cons call os ih =>
    cases payload with
    | nil => exact ⟨List.take_length, fun _ => (List.append_nil file).symm⟩
    | cons b remaining =>
      cases call with
      | raises => exact ⟨List.take_length, nofun⟩
      | wrote n =>
        rw [appendAll]
        split_ifs with hprogress
        · exact ⟨List.take_length, nofun⟩
        · -- What has been written so far is part of the file that the remaining calls find.
          have hsplit : (b :: remaining).drop ((b :: remaining).take n).length =
              (b :: remaining).drop n := by
            rw [List.length_take]
            rcases le_total n (b :: remaining).length with hle | hle
            · rw [min_eq_left hle]
            · rw [min_eq_right hle, List.drop_length, List.drop_eq_nil_of_le hle]
          rw [hsplit]
          obtain ⟨hkept, hall⟩ := ih ((b :: remaining).drop n) (file ++ (b :: remaining).take n)
          constructor
          · have hlength : (file ++ (b :: remaining).take n).length =
                file.length + ((b :: remaining).take n).length := List.length_append
            have htake := congrArg (List.take file.length) hkept
            rw [List.take_take, min_eq_left (by omega), List.take_left'] at htake
            · exact htake
            · rfl
          · intro hok
            rw [hall hok, List.append_assoc, List.take_append_drop]

/-- The octets are appended, or the file is as it was. -/
theorem appendOrRollBack_eq :
    appendOrRollBack fsync calls payload file = (.ok (), file ++ payload) ∨
      ∃ e, appendOrRollBack fsync calls payload file = (.error e, file) := by
  obtain ⟨hkept, hall⟩ := take_appendAll calls.writes payload file
  unfold appendOrRollBack
  dsimp only
  split
  · next htried =>
    have hok : (appendAll calls.writes payload file).1 = .ok () := by
      split at htried
      · cases htried
      · assumption
    exact Or.inl (by rw [hall hok])
  · exact Or.inr ⟨_, by rw [hkept]⟩

/-- A call of `write` appends the line of the sealed record, or nothing is changed. -/
theorem write_eq (w : Writer) (calls : OsCalls) (record : Record) (file : List Byte) :
    (∃ e, w.write calls record file = (.error e, w, file)) ∨
      conflictingFields record = [] ∧ ∃ hash r payload,
        w.sealRecord record = .ok (hash, r, payload) ∧
          w.write calls record file = (.ok r, { w with
            previousRecordHash := hash
            nextLedgerIndex := w.nextLedgerIndex + 1 }, file ++ payload) := by
  unfold Writer.write
  split_ifs with hopen hconflict
  · exact Or.inl ⟨_, rfl⟩
  · replace hconflict := not_not.1 hconflict
    split
    · exact Or.inl ⟨_, rfl⟩
    · next hash r payload hseal =>
      rcases @appendOrRollBack_eq payload file calls w.fsync with happend | ⟨e, happend⟩
      · rw [happend]
        exact Or.inr ⟨hconflict, hash, r, payload, hseal, rfl⟩
      · rw [happend]
        exact Or.inl ⟨e, rfl⟩
  · exact Or.inl ⟨_, rfl⟩

/-! ## What is sealed is accepted -/

/-- A record without conflicting fields has no reserved one. -/
theorem get_conflict (h : conflictingFields record = []) {field : String}
    (hfield : field ∈ reservedLedgerFields) : record.get (text field) = none := by
  unfold conflictingFields at h
  have hnone := List.filter_eq_nil_iff.1 h field hfield
  rwa [Option.not_isSome_iff_eq_none] at hnone

/-- The string that is inserted is found. -/
theorem get_insertStr_self (record : Record) (field : String) (s : PyStr) :
    (record.insertStr field s).get (text field) = some (.str s) := Record.get_insert_self

/-- A string that is inserted leaves the other fields. -/
theorem get_insertStr_ne (record : Record) {field other : String} (s : PyStr)
    (h : other ≠ field) :
    (record.insertStr field s).get (text other) = record.get (text other) :=
  Record.get_insert_ne (text_injective.ne h)

/-- An integer that is inserted leaves the other fields. -/
theorem get_insertInt_ne (record : Record) {field other : String} (z : ℤ) (h : other ≠ field) :
    (record.insert (text field) (.int z) (.int z)).get (text other) = record.get (text other) :=
  Record.get_insert_ne (text_injective.ne h)

/-- What a record of the ledger has besides what it records. -/
theorem get_chainRecord (w : Writer) (record : Record) :
    let r := w.chainRecord record
    r.get (text "ledger_version") = some (.str ledgerVersion) ∧
      r.get (text "ledger_algorithm") = some (.str ledgerAlgorithm) ∧
      r.get (text "ledger_index") = some (.int w.nextLedgerIndex) ∧
      r.get (text "previous_record_hash") = some (.str w.previousRecordHash) ∧
      r.get (text "recorder_session_id") = some (.str w.sessionId) ∧
      r.get (text "provenance_system") = some (.str provenanceSystem) ∧
      r.get (text "provenance_component") = some (.str provenanceComponent) ∧
      r.get (text "provenance_transport") = some (.str provenanceTransport) ∧
      r.get (text "record_hash") = record.get (text "record_hash") := by
  unfold Writer.chainRecord
  refine ⟨?_, ?_, ?_, ?_, ?_, ?_, ?_, ?_, ?_⟩
  all_goals
    simp only [ne_eq, String.reduceEq, not_false_eq_true, get_insertStr_ne, get_insertInt_ne,
      get_insertStr_self, Record.get_insert_self]

/-- The fields of the record are those of the sealed one. -/
theorem get_sealRecord (hseal : w.sealRecord record = .ok (hash, r, payload)) {field : String}
    (hfield : field ∉ reservedLedgerFields) : r.get (text field) = record.get (text field) := by
  unfold reservedLedgerFields at hfield
  simp only [List.mem_cons, List.not_mem_nil, or_false, not_or] at hfield
  obtain ⟨h1, h2, h3, h4, h5, h6, h7, h8, h9⟩ := hfield
  have hchain : (w.chainRecord record).get (text field) = record.get (text field) := by
    unfold Writer.chainRecord
    rw [get_insertStr_ne _ _ h7, get_insertStr_ne _ _ h5, get_insertStr_ne _ _ h6,
      get_insertStr_ne _ _ h9, get_insertStr_ne _ _ h4, get_insertInt_ne _ _ h2,
      get_insertStr_ne _ _ h1, get_insertStr_ne _ _ h3]
  unfold Writer.sealRecord at hseal
  dsimp only at hseal
  split at hseal
  · cases hseal
  · split at hseal
    · cases hseal
    · cases hseal
    · obtain ⟨-, hsealed⟩ := Prod.mk.inj (Except.ok.inj hseal)
      obtain ⟨rfl, -⟩ := Prod.mk.inj hsealed
      rw [get_insertStr_ne _ _ h8, hchain]

/-- A sealed record passes the checks that come after those of the lines before. -/
theorem accepts_sealRecord (hseal : w.sealRecord record = .ok (hash, r, payload))
    (hconflict : conflictingFields record = []) (hindex : w.nextLedgerIndex = p.expectedIndex)
    (hprevious : w.previousRecordHash = p.expectedPreviousHash)
    (hdigest : IsDigest p.expectedPreviousHash) :
    Accepts p r ⟨hash, p.expectedIndex + 1, Insert.insert w.sessionId p.sessionIds⟩ ∧
      ∃ bytes, encodeRecord r = .ok bytes ∧ payload = bytes ++ [0x0A] := by
  obtain ⟨h1, h2, h3, h4, h5, h6, h7, h8, h9⟩ := get_chainRecord w record
  have hnone : (w.chainRecord record).get (text "record_hash") = none := by
    rw [h9]
    exact get_conflict hconflict (by decide)
  unfold Writer.sealRecord at hseal
  dsimp only at hseal
  split at hseal
  · cases hseal
  · next hash' hcomputed =>
    split at hseal
    · cases hseal
    · cases hseal
    · next _ bytes _ hbytes =>
      obtain ⟨rfl, hsealed⟩ := Prod.mk.inj (Except.ok.inj hseal)
      obtain ⟨rfl, rfl⟩ := Prod.mk.inj hsealed
      -- The hash is of the record without it, which is what it was put into.
      have herase : canonicalRecordBytes ((w.chainRecord record).insertStr "record_hash" hash') =
          canonicalRecordBytes (w.chainRecord record) := by
        have hput : ((w.chainRecord record).insertStr "record_hash" hash').erase
            (text "record_hash") = w.chainRecord record := Record.erase_insert hnone
        have hnot : (w.chainRecord record).erase (text "record_hash") = w.chainRecord record :=
          Record.ext (eraseKey_eq_self (ne_of_getKey_eq_none hnone))
        unfold canonicalRecordBytes
        rw [hput, hnot]
      have hhash : computeRecordHash ((w.chainRecord record).insertStr "record_hash" hash') =
          .ok hash' := by
        unfold computeRecordHash at hcomputed ⊢
        rw [herase, hcomputed]
      have hget {field : String} (hne : field ≠ "record_hash") :
          ((w.chainRecord record).insertStr "record_hash" hash').get (text field) =
            (w.chainRecord record).get (text field) := get_insertStr_ne _ _ hne
      refine ⟨⟨?_, ?_, ?_, ?_, ?_, ?_, ⟨w.sessionId, ?_, w.notBlank, rfl⟩, ?_, hdigest,
        get_insertStr_self _ _ _, hhash, rfl⟩, bytes, hbytes, rfl⟩
      · rw [hget (by simp), h1]
        exact eqStr_eq_true.2 rfl
      · rw [hget (by simp), h2]
        exact eqStr_eq_true.2 rfl
      · rw [hget (by simp), h3, hindex]
        exact decide_eq_true rfl
      · rw [hget (by simp), h6]
        exact eqStr_eq_true.2 rfl
      · rw [hget (by simp), h7]
        exact eqStr_eq_true.2 rfl
      · rw [hget (by simp), h8]
        exact eqStr_eq_true.2 rfl
      · rw [hget (by simp), h5]
      · rw [hget (by simp), h4, hprevious]

/-! ## Lines -/

/-- A line ends at its newline. -/
theorem splitLines_line (h : (0x0A : Byte) ∉ line) (rest : List Byte) :
    splitLines (line ++ 0x0A :: rest) = (line ++ [0x0A]) :: splitLines rest := by
  induction line with
  | nil =>
    rw [List.nil_append, splitLines, if_pos rfl]
    rfl
  | cons b line ih =>
    have hb : b ≠ 0x0A := fun heq => h (heq ▸ List.mem_cons_self)
    rw [List.cons_append, splitLines, if_neg hb, ih (List.not_mem_of_not_mem_cons h)]
    rfl

/-- A file of whole lines is split where another one is appended. -/
theorem splitLines_append (hframed : Framed file) (rest : List Byte) :
    splitLines (file ++ rest) = splitLines file ++ splitLines rest := by
  induction file with
  | nil => rfl
  | cons b file ih =>
    have htail : Framed file := by
      rcases List.eq_nil_or_concat file with rfl | ⟨init, last, rfl⟩
      · exact Or.inl rfl
      · rcases hframed with hnil | hlast
        · cases hnil
        · rw [List.getLast?_cons_of_ne_nil (by simp)] at hlast
          exact Or.inr hlast
    rw [List.cons_append, splitLines, splitLines, ih htail]
    split_ifs with hnewline
    · rfl
    · -- What follows is not empty, since the file ends with a newline and `b` is none.
      cases hlines : splitLines file with
      | cons line lines => rfl
      | nil =>
        cases file with
        | nil =>
          rcases hframed with hnil | hlast
          · cases hnil
          · exact absurd (Option.some.inj hlast) hnewline
        | cons b' file =>
          rw [splitLines] at hlines
          split_ifs at hlines
          split at hlines
          · cases hlines
          · cases hlines

/-- A line is read as the record that it encodes. -/
theorem reads_line (hbytes : encodeRecord r = .ok bytes) (hne : r.entries ≠ []) :
    Reads (bytes ++ [0x0A]) r ∧ (0x0A : Byte) ∉ bytes := by
  obtain ⟨hf, hutf8⟩ := encodeRecord_eq_ok.1 hbytes
  refine ⟨?_, newline_not_mem r.sorted hutf8⟩
  obtain ⟨entries, hsorted⟩ := r
  obtain ⟨e, rest, rfl⟩ := List.exists_cons_of_ne_nil hne
  exact loads_line hsorted hf hutf8

/-! ## Runs -/

variable {rs old : List Record} {st st' : State}

/-- The file consists of the lines of the records, after which the variables of the verifier are
`p`. -/
structure Ledgered (file : List Byte) (rs : List Record) (p : Progress) : Prop where
  framed : Framed file
  reads : List.Forall₂ Reads (splitLines file) rs
  accepts : AcceptsAll .init rs p

/-- Records are accepted with one more that is. -/
theorem acceptsAll_concat {q : Progress} (h : AcceptsAll q rs p) (hr : Accepts p r p') :
    AcceptsAll q (rs ++ [r]) p' := by
  induction rs generalizing q with
  | nil =>
    obtain rfl : p = q := h
    exact ⟨p', hr, rfl⟩
  | cons r' rs ih =>
    obtain ⟨q', haccepts, hrest⟩ := h
    exact ⟨q', haccepts, ih hrest⟩

/-- The hash that the next record has to name is a digest. -/
theorem AcceptsAll.isDigest {q : Progress} (h : AcceptsAll q rs p)
    (hq : IsDigest q.expectedPreviousHash) : IsDigest p.expectedPreviousHash := by
  induction rs generalizing q with
  | nil =>
    obtain rfl : p = q := h
    exact hq
  | cons r rs ih =>
    obtain ⟨q', haccepts, hrest⟩ := h
    exact ih hrest (isDigest_of_computeRecordHash haccepts.computed)

/-- A ledger with one more record that is accepted is a ledger. -/
theorem Ledgered.append (h : Ledgered file rs p) (hr : Accepts p r p')
    (hbytes : encodeRecord r = .ok bytes) :
    Ledgered (file ++ (bytes ++ [0x0A])) (rs ++ [r]) p' := by
  have hne : r.entries ≠ [] := by
    intro hnil
    have hstored := hr.stored
    unfold Record.get at hstored
    rw [hnil] at hstored
    cases hstored
  obtain ⟨hreads, hnewline⟩ := reads_line hbytes hne
  refine ⟨Or.inr ?_, ?_, acceptsAll_concat h.accepts hr⟩
  · rw [← List.append_assoc, List.getLast?_concat]
  · rw [splitLines_append h.framed, splitLines_line hnewline]
    exact List.rel_append h.reads (.cons hreads .nil)

/-- A ledger is parsed to its records, and verifies. -/
theorem Ledgered.verifies (h : Ledgered file rs p) (path : String) (allowMissing : Bool) :
    parsedRecords file = rs ∧
      verifyJsonlLedger path (some file) allowMissing = .ok p.verification := by
  have hparsed : parsedRecords file = rs := filterMap_readLine h.reads
  refine ⟨hparsed, verifyJsonlLedger_eq_ok.2 ⟨h.framed, ?_, p, ?_, rfl⟩⟩
  · rw [hparsed]
    exact h.reads
  · rw [hparsed]
    exact h.accepts

/-- The file is a ledger of the old records and the written ones, and the writer knows its head. -/
def Inv (old : List Record) (st : State) : Prop :=
  ∃ p, Ledgered (st.file.getD []) (old ++ st.written) p ∧
    ∀ w ∈ st.writer, w.nextLedgerIndex = p.expectedIndex ∧
      w.previousRecordHash = p.expectedPreviousHash

/-- A step keeps the invariant. -/
theorem inv_step (h : Inv old st) (a : Label) (hstep : step path st a = some st') :
    Inv old st' := by
  obtain ⟨p, hledger, hwriter⟩ := h
  cases a with
  | enter fsync sessionId uuid =>
    rw [step] at hstep
    split_ifs at hstep with hidle
    split at hstep
    · obtain rfl := Option.some.inj hstep
      exact ⟨p, hledger, hwriter⟩
    · next w hw =>
      -- A ledger verifies, so that the writer goes on behind its last row.
      have hverify := (hledger.verifies path false).2
      unfold Writer.enter at hstep
      dsimp only at hstep
      rw [hverify] at hstep
      obtain rfl := Option.some.inj hstep
      refine ⟨p, hledger, fun w' hw' => ?_⟩
      obtain rfl := Option.some.inj hw'
      exact ⟨rfl, rfl⟩
  | write calls record =>
    rw [step] at hstep
    split at hstep
    · cases hstep
    · next w hw =>
      obtain ⟨hindex, hprevious⟩ := hwriter w hw
      rcases write_eq w calls record (st.file.getD []) with
        ⟨e, hwrite⟩ | ⟨hconflict, hash, r, payload, hseal, hwrite⟩
      · -- A write that fails leaves the file and the writer as they are.
        rw [hwrite] at hstep
        obtain rfl := Option.some.inj hstep
        refine ⟨p, hledger, fun w' hw' => ?_⟩
        obtain rfl := Option.some.inj hw'
        exact ⟨hindex, hprevious⟩
      · rw [hwrite] at hstep
        obtain rfl := Option.some.inj hstep
        have hdigest := hledger.accepts.isDigest (by decide)
        obtain ⟨haccepts, bytes, hbytes, rfl⟩ :=
          accepts_sealRecord hseal hconflict hindex hprevious hdigest
        have happend := hledger.append haccepts hbytes
        rw [List.append_assoc] at happend
        refine ⟨_, happend, fun w' hw' => ?_⟩
        obtain rfl := Option.some.inj hw'
        exact ⟨congrArg Nat.succ hindex, rfl⟩
  | close =>
    obtain rfl := Option.some.inj hstep
    refine ⟨p, hledger, fun w hw => ?_⟩
    obtain ⟨w', hw', rfl⟩ := Option.map_eq_some_iff.1 hw
    exact hwriter w' hw'

/-- The sessions whose ids the verifier has met. -/
theorem AcceptsAll.mem_sessionIds {q : Progress} {s : PyStr} (h : AcceptsAll q rs p) :
    s ∈ p.sessionIds ↔
      s ∈ q.sessionIds ∨ ∃ r ∈ rs, r.get (text "recorder_session_id") = some (.str s) := by
  induction rs generalizing q with
  | nil =>
    obtain rfl : p = q := h
    simp
  | cons r rs ih =>
    obtain ⟨q', haccepts, hrest⟩ := h
    obtain ⟨sessionId, hget, -, hids⟩ := haccepts.session
    rw [ih hrest, hids, Finset.mem_insert, List.exists_mem_cons_iff, hget, Option.some.injEq,
      Json.str.injEq]
    tauto

/-- The file is accepted with the result that the records call for. -/
structure Verified (path : String) (file : Option (List Byte)) (rs : List Record)
    (v : LedgerVerification) : Prop where
  accepted : verifyJsonlLedger path file true = .ok v
  parsed : parsedRecords (file.getD []) = rs
  records : v.records = rs.length
  /-- The head is the stored hash of the last record. -/
  head : match rs.getLast? with
    | none => v.headHash = genesisHash
    | some r => r.get (text "record_hash") = some (.str v.headHash)
  /-- The sessions are those of the records, each once. -/
  sessions : v.sessionIds.SortedLT ∧
    ∀ s, s ∈ v.sessionIds ↔ ∃ r ∈ rs, r.get (text "recorder_session_id") = some (.str s)

/-- A ledger is verified with its records. -/
theorem Ledgered.verified {contents : Option (List Byte)} (h : Ledgered (contents.getD []) rs p)
    (path : String) : Verified path contents rs p.verification where
  accepted := by
    cases contents with
    | some file => exact (h.verifies path true).2
    | none =>
      -- A file that is not there is read as one without lines.
      have hreads : List.Forall₂ Reads [] rs := h.reads
      obtain rfl := List.forall₂_nil_left_iff.1 hreads
      obtain rfl : p = .init := h.accepts
      rw [verification_init]
      rfl
  parsed := (h.verifies path true).1
  records := by
    have hlength := h.accepts.length
    have hzero : Progress.init.expectedIndex = 0 := rfl
    show p.expectedIndex = rs.length
    omega
  head := by
    have hchain := h.accepts.chained
    rcases List.eq_nil_or_concat rs with rfl | ⟨init, r, rfl⟩
    · exact congrArg Progress.expectedPreviousHash h.accepts
    · rw [List.concat_eq_append] at hchain ⊢
      rw [List.getLast?_concat]
      exact (chained_concat.1 hchain).2.symm
  sessions := by
    refine ⟨Finset.sortedLT_sort _, fun s => ?_⟩
    have hmem := @AcceptsAll.mem_sessionIds p rs .init s h.accepts
    have hnone : s ∉ Progress.init.sessionIds := Finset.notMem_empty s
    rw [show p.verification.sessionIds = p.sessionIds.sort (· ≤ ·) from rfl, Finset.mem_sort, hmem]
    exact or_iff_right hnone

/-- After any number of sessions and writes the file is accepted, with the records that it had
before and those that the calls of `write` have returned. A call that raises changes neither the
file nor the writer. -/
theorem append_agrees {file : Option (List Byte)} {v : LedgerVerification}
    (hold : verifyJsonlLedger path file true = .ok v)
    (hrun : Path (step path) anyStep (.init file) st) :
    (∃ v', Verified path st.file (parsedRecords (file.getD []) ++ st.written) v' ∧
      v'.records = v.records + st.written.length) ∧
    ∀ w ∈ st.writer, ∀ calls record e,
      (w.write calls record (st.file.getD [])).1 = .error e →
        (w.write calls record (st.file.getD [])).2 = (w, st.file.getD []) := by
  -- A file that is not there counts as an empty one.
  have hstart : ∃ p, Ledgered (file.getD []) (parsedRecords (file.getD [])) p ∧
      v = p.verification := by
    cases file with
    | none =>
      obtain rfl := Except.ok.inj hold
      exact ⟨.init, ⟨Or.inl rfl, .nil, rfl⟩, verification_init.symm⟩
    | some bytes =>
      obtain ⟨hframed, hreads, p, haccepts, hv⟩ := verifyJsonlLedger_eq_ok.1 hold
      exact ⟨p, ⟨hframed, hreads, haccepts⟩, hv⟩
  obtain ⟨p, hledger, rfl⟩ := hstart
  constructor
  · have hinv : Inv (parsedRecords (file.getD [])) st := by
      refine hrun.invariant (Inv _) ⟨p, ?_, nofun⟩ fun t a u ht _ hs => inv_step ht a hs
      show Ledgered (file.getD []) (_ ++ []) p
      rwa [List.append_nil]
    obtain ⟨p', hledger', -⟩ := hinv
    have hverified := hledger'.verified path
    refine ⟨_, hverified, ?_⟩
    -- The verifier counts the records from before and those that have been written.
    have hcount := hverified.records
    rw [List.length_append] at hcount
    have hcount' := (hledger.verified path).records
    omega
  · intro w _ calls record e hraised
    rcases write_eq w calls record (st.file.getD []) with ⟨e', hwrite⟩ | ⟨-, _, _, _, -, hwrite⟩
    · rw [hwrite]
    · rw [hwrite] at hraised
      cases hraised

/-- A record without fields of its own. -/
def Record.empty : Record := ⟨[], .dict .nil fun _ he => absurd he List.not_mem_nil⟩

set_option maxRecDepth 10000 in
/-- A session in which one line is appended in two calls of `os.write`, and another line is begun
and cut off again. -/
theorem append_agrees_session : ∃ st v, Path (step "ledger") anyStep (.init none) st ∧
    v.records = 1 ∧ Verified "ledger" st.file st.written v := by
  obtain ⟨st, hrun, hwritten⟩ := Path.exists_of_exec (step "ledger") anyStep (.init none)
    [.enter true (some (text "a")) [], .write ⟨[.wrote 7, .wrote 1000], true, true⟩ .empty,
      .write ⟨[.wrote 7, .raises], true, true⟩ .empty, .close]
    (fun st => st.written.length = 1) (by decide +kernel)
  obtain ⟨⟨v, hverified, hcount⟩, -⟩ := append_agrees rfl hrun
  rw [hwritten] at hcount
  exact ⟨st, v, hrun, hcount, hverified⟩

end MarketDataGateway.Recorder
