import MarketDataGateway.Lib.HashChain
import MarketDataGateway.Recorder.Writer

/-!
# What a verified ledger is evidence of

`verifyJsonlLedger_eq_ok` says which files are accepted: those whose lines are read as records that
pass the checks of the loop one after the other (`AcceptsAll`). The stored hashes of these are a
hash chain from the genesis hash to the head, and each stored hash is the one of the record without
it. As different records have different canonical bytes, the head determines all the records
(`same_records_of_same_head`).
-/

namespace MarketDataGateway.Recorder

open Lib

variable {r r' : Record} {rs rs' : List Record} {p p' q : Progress} {n : ℕ} {s : PyStr}
  {value : Option Json} {line file file' : List Byte}

/-! ## What is accepted -/

/-- A value equals a string if it is there and is the string. -/
theorem eqStr_eq_true : eqStr value s = true ↔ value = some (.str s) := by
  unfold eqStr
  split
  · next t =>
    rw [decide_eq_true_eq, Option.some.injEq, Json.str.injEq]
  · next hne => exact ⟨fun h => absurd h Bool.false_ne_true, fun h => absurd h (hne s)⟩

/-- A hash is what is required if it is a string and a digest. -/
theorem requireHash_eq_ok {field : String} :
    requireHash value field n = .ok s ↔ value = some (.str s) ∧ IsDigest s := by
  unfold requireHash
  split
  · next t =>
    split_ifs with hdigest
    · constructor
      · rintro h
        obtain rfl := Except.ok.inj h
        exact ⟨rfl, hdigest⟩
      · rintro ⟨h, -⟩
        obtain rfl := Json.str.inj (Option.some.inj h)
        rfl
    · refine ⟨nofun, ?_⟩
      rintro ⟨h, hs⟩
      obtain rfl := Json.str.inj (Option.some.inj h)
      exact absurd hs hdigest
  · next hne => exact ⟨nofun, fun ⟨h, _⟩ => absurd h (hne s)⟩

/-- A hexadecimal digest is a digest. -/
theorem isDigest_hexdigest (message : List Byte) : IsDigest (Sha256.hexdigest message) :=
  ⟨Sha256.length_hexdigest message, fun _ hc => Sha256.mem_hexdigest hc⟩

/-- What `compute_record_hash` returns is a digest. -/
theorem isDigest_of_computeRecordHash (h : computeRecordHash r = .ok s) : IsDigest s := by
  obtain ⟨bytes, -, rfl⟩ := map_eq_ok h
  exact isDigest_hexdigest bytes

/-- A line is read if it loads to an object. -/
theorem readLine_eq_ok : readLine line n = .ok r ↔ loads line = .ok r.toJson := by
  have hloads : loads line = .ok r.toJson ↔ loadsSorted line = .ok ⟨r.toJson, r.sorted⟩ :=
    (loadsSorted_eq_ok r.sorted).symm
  rw [hloads]
  unfold readLine
  split
  · next h =>
    rw [h]
    exact ⟨nofun, nofun⟩
  · next h =>
    rw [h]
    exact ⟨nofun, nofun⟩
  · next entries hs h =>
    rw [h]
    constructor
    · intro heq
      obtain rfl := Except.ok.inj heq
      rfl
    · intro heq
      have hdict : Json.dict entries = .dict r.entries := congrArg Subtype.val (Except.ok.inj heq)
      exact congrArg Except.ok (Record.ext (Json.dict.inj hdict))
  · next v hne h =>
    rw [h]
    refine ⟨nofun, fun heq => ?_⟩
    exact absurd (Except.ok.inj heq) (hne r.entries r.sorted)

/-- The record of the line passes the checks, after which the variables are `p'`. -/
structure Accepts (p : Progress) (r : Record) (p' : Progress) : Prop where
  version : eqStr (r.get (text "ledger_version")) ledgerVersion = true
  algorithm : eqStr (r.get (text "ledger_algorithm")) ledgerAlgorithm = true
  index : eqNat (r.get (text "ledger_index")) p.expectedIndex = true
  system : eqStr (r.get (text "provenance_system")) provenanceSystem = true
  component : eqStr (r.get (text "provenance_component")) provenanceComponent = true
  transport : eqStr (r.get (text "provenance_transport")) provenanceTransport = true
  session : ∃ sessionId, r.get (text "recorder_session_id") = some (.str sessionId) ∧
    ¬ IsBlank sessionId ∧ p'.sessionIds = Insert.insert sessionId p.sessionIds
  previous : r.get (text "previous_record_hash") = some (.str p.expectedPreviousHash)
  digest : IsDigest p.expectedPreviousHash
  stored : r.get (text "record_hash") = some (.str p'.expectedPreviousHash)
  computed : computeRecordHash r = .ok p'.expectedPreviousHash
  next : p'.expectedIndex = p.expectedIndex + 1

/-- The hashes of a record verify if it has both, and the second one is its own. -/
theorem verifyHashes_eq_ok : verifyHashes p r n = .ok s ↔
    r.get (text "previous_record_hash") = some (.str p.expectedPreviousHash) ∧
      IsDigest p.expectedPreviousHash ∧ r.get (text "record_hash") = some (.str s) ∧
        computeRecordHash r = .ok s := by
  unfold verifyHashes
  constructor
  · intro h
    split at h
    · cases h
    · next previousHash hprevious =>
      obtain ⟨hget, hdigest⟩ := requireHash_eq_ok.1 hprevious
      split_ifs at h with hne
      obtain rfl := not_not.1 hne
      split at h
      · cases h
      · next storedHash hstored =>
        split at h
        · cases h
        · -- Both are there and the record's own hash is what is computed.
          next computedHash hcomputed =>
          split_ifs at h with heq
          obtain rfl := not_not.1 heq
          obtain rfl := Except.ok.inj h
          exact ⟨hget, hdigest, (requireHash_eq_ok.1 hstored).1, hcomputed⟩
  · rintro ⟨hget, hdigest, hstored, hcomputed⟩
    have hrequire (field : String) : requireHash (some (.str p.expectedPreviousHash)) field n =
        .ok p.expectedPreviousHash := requireHash_eq_ok.2 ⟨rfl, hdigest⟩
    have hrequire' (field : String) : requireHash (some (.str s)) field n = .ok s :=
      requireHash_eq_ok.2 ⟨rfl, isDigest_of_computeRecordHash hcomputed⟩
    rw [hget, hrequire]
    dsimp only
    rw [if_neg (not_not.2 rfl), hstored, hrequire', hcomputed]
    exact if_neg (not_not.2 rfl)

/-- A record verifies if it is accepted. -/
theorem verifyRecord_eq_ok : verifyRecord p r n = .ok p' ↔ Accepts p r p' := by
  unfold verifyRecord
  constructor
  · intro h
    split_ifs at h with h1 h2 h3 h4 h5 h6
    split at h
    · next sessionId hsession =>
      split_ifs at h with hblank
      obtain ⟨storedHash, hhashes, rfl⟩ := map_eq_ok h
      obtain ⟨hprevious, hdigest, hstored, hcomputed⟩ := verifyHashes_eq_ok.1 hhashes
      exact ⟨h1, h2, h3, h4, h5, h6, ⟨sessionId, hsession, hblank, rfl⟩, hprevious, hdigest,
        hstored, hcomputed, rfl⟩
    · cases h
  · intro h
    obtain ⟨sessionId, hsession, hblank, hids⟩ := h.session
    have hhashes : verifyHashes p r n = .ok p'.expectedPreviousHash :=
      verifyHashes_eq_ok.2 ⟨h.previous, h.digest, h.stored, h.computed⟩
    rw [if_neg (not_not.2 h.version), if_neg (not_not.2 h.algorithm), if_neg (not_not.2 h.index),
      if_neg (not_not.2 h.system), if_neg (not_not.2 h.component), if_neg (not_not.2 h.transport),
      hsession]
    dsimp only
    rw [if_neg hblank, hhashes, ← hids, ← h.next]
    rfl

/-- The records pass the checks one after the other, from the variables `p` on. -/
def AcceptsAll (p : Progress) : List Record → Progress → Prop
  | [], p' => p' = p
  | r :: rs, p' => ∃ q, Accepts p r q ∧ AcceptsAll q rs p'

/-- The line is read as the record. -/
def Reads (line : List Byte) (r : Record) : Prop := loads line = .ok r.toJson

/-- Lines verify if the records that they are read to are accepted. -/
theorem verifyLines_eq_ok {lines : List (List Byte)} : verifyLines p n lines = .ok p' ↔
    ∃ rs, List.Forall₂ Reads lines rs ∧ AcceptsAll p rs p' := by
  induction lines generalizing p n with
  | nil =>
    constructor
    · intro h
      exact ⟨[], .nil, (Except.ok.inj h).symm⟩
    · rintro ⟨rs, hreads, haccepts⟩
      obtain rfl := List.forall₂_nil_left_iff.1 hreads
      exact congrArg Except.ok (Eq.symm haccepts)
  | cons line lines ih =>
    rw [verifyLines]
    constructor
    · intro h
      split at h
      · -- The line is not read.
        cases h
      · next r hr =>
        split at h
        · -- The record is not accepted.
          cases h
        · next q hq =>
          obtain ⟨rs, hreads, haccepts⟩ := ih.1 h
          exact ⟨r :: rs, .cons (readLine_eq_ok.1 hr) hreads, q, verifyRecord_eq_ok.1 hq, haccepts⟩
    · rintro ⟨rs, hreads, haccepts⟩
      obtain ⟨r, rs, hr, hrest, rfl⟩ := List.forall₂_cons_left_iff.1 hreads
      obtain ⟨q, hq, haccepts⟩ := haccepts
      rw [readLine_eq_ok.2 hr]
      dsimp only
      rw [verifyRecord_eq_ok.2 hq]
      exact ih.2 ⟨rs, hrest, haccepts⟩

/-- The records of a file: what its lines are read as. -/
def parsedRecords (file : List Byte) : List Record :=
  (splitLines file).filterMap fun line => (readLine line 0).toOption

/-- The records of lines are those that they are read to. -/
theorem filterMap_readLine {lines : List (List Byte)} (h : List.Forall₂ Reads lines rs) :
    lines.filterMap (fun line => (readLine line 0).toOption) = rs := by
  induction h with
  | nil => rfl
  | @cons line r lines rs hline _ ih =>
    have hread : readLine line 0 = .ok r := readLine_eq_ok.2 hline
    rw [List.filterMap_cons, hread, ih]
    rfl

/-- The file has no incomplete line. -/
def Framed (file : List Byte) : Prop := file = [] ∨ file.getLast? = some 0x0A

/-- The result of a verification with these variables after the last line. -/
def Progress.verification (p : Progress) : LedgerVerification :=
  ⟨p.expectedIndex, p.expectedPreviousHash, p.sessionIds.sort (· ≤ ·)⟩

/-- Nothing has been verified at the start. -/
theorem verification_init : Progress.init.verification = .empty := by
  unfold Progress.verification Progress.init LedgerVerification.empty
  rw [Finset.sort_empty]

/-- The files that are accepted. -/
theorem verifyJsonlLedger_eq_ok {path : String} {allowMissing : Bool} {v : LedgerVerification} :
    verifyJsonlLedger path (some file) allowMissing = .ok v ↔
      Framed file ∧ List.Forall₂ Reads (splitLines file) (parsedRecords file) ∧
        ∃ p, AcceptsAll .init (parsedRecords file) p ∧ v = p.verification := by
  -- The records that the lines are read as are those of the file.
  have hlines (p : Progress) : (∃ rs, List.Forall₂ Reads (splitLines file) rs ∧
    AcceptsAll .init rs p) ↔
      List.Forall₂ Reads (splitLines file) (parsedRecords file) ∧
        AcceptsAll .init (parsedRecords file) p := by
    constructor
    · rintro ⟨rs, hreads, haccepts⟩
      obtain rfl : parsedRecords file = rs := filterMap_readLine hreads
      exact ⟨hreads, haccepts⟩
    · rintro ⟨hreads, haccepts⟩
      exact ⟨_, hreads, haccepts⟩
  unfold verifyJsonlLedger
  dsimp only
  split_ifs with hempty hframed
  · -- An empty file is accepted without records.
    obtain rfl := List.length_eq_zero_iff.1 hempty
    constructor
    · intro h
      obtain rfl := Except.ok.inj h
      exact ⟨Or.inl rfl, .nil, .init, rfl, verification_init.symm⟩
    · rintro ⟨-, -, p, hp, rfl⟩
      obtain rfl : p = .init := hp
      rw [verification_init]
  · -- A file whose last line does not end is refused.
    refine ⟨nofun, ?_⟩
    rintro ⟨hnil | hlast, -⟩
    · rw [hnil] at hempty
      exact absurd rfl hempty
    · exact absurd hlast hframed
  · have hlast : Framed file := Or.inr (not_not.1 hframed)
    constructor
    · intro h
      obtain ⟨p, hp, rfl⟩ := map_eq_ok h
      obtain ⟨hreads, haccepts⟩ := (hlines p).1 (verifyLines_eq_ok.1 hp)
      exact ⟨hlast, hreads, p, haccepts, rfl⟩
    · rintro ⟨-, hreads, p, haccepts, rfl⟩
      rw [verifyLines_eq_ok.2 ((hlines p).2 ⟨hreads, haccepts⟩)]
      rfl

/-! ## The chain of the hashes -/

/-- The stored hashes are a chain. -/
theorem AcceptsAll.chained (h : AcceptsAll p rs p') :
    Chained (fun r => r.get (text "previous_record_hash")) (fun r => r.get (text "record_hash"))
      (some (.str p.expectedPreviousHash)) rs (some (.str p'.expectedPreviousHash)) := by
  induction rs generalizing p with
  | nil =>
    obtain rfl : p' = p := h
    rfl
  | cons r rs ih =>
    obtain ⟨q, haccepts, hrest⟩ := h
    refine ⟨haccepts.previous, ?_⟩
    show Chained _ _ (r.get (text "record_hash")) rs _
    rw [haccepts.stored]
    exact ih hrest

/-- Each stored hash is the hash of the record. -/
theorem AcceptsAll.hashed (h : AcceptsAll p rs p') (hr : r ∈ rs) :
    ∃ s, r.get (text "record_hash") = some (.str s) ∧ computeRecordHash r = .ok s := by
  induction rs generalizing p with
  | nil => exact absurd hr List.not_mem_nil
  | cons r' rs ih =>
    obtain ⟨q, haccepts, hrest⟩ := h
    rcases List.mem_cons.1 hr with rfl | hr
    · exact ⟨q.expectedPreviousHash, haccepts.stored, haccepts.computed⟩
    · exact ih hrest hr

/-- The index moves on by the number of records. -/
theorem AcceptsAll.length (h : AcceptsAll p rs p') :
    p'.expectedIndex = p.expectedIndex + rs.length := by
  induction rs generalizing p with
  | nil => exact congrArg Progress.expectedIndex h
  | cons r rs ih =>
    obtain ⟨q, haccepts, hrest⟩ := h
    have hindex := ih hrest
    have hnext := haccepts.next
    rw [List.length_cons]
    omega

/-- A record is encoded if its numbers fit and its text can be. -/
theorem encodeRecord_eq_ok : encodeRecord r = .ok line ↔
    r.toJson.fits = true ∧ encodeUtf8 r.toJson.encode = some line := by
  unfold encodeRecord dumps
  by_cases hf : r.toJson.fits = true
  · rw [if_pos hf]
    dsimp only
    cases hbytes : encodeUtf8 r.toJson.encode with
    | none => exact ⟨nofun, nofun⟩
    | some bytes => simp [hf]
  · rw [if_neg hf]
    exact ⟨nofun, fun h => absurd h.1 hf⟩

/-- Different records have different encodings. -/
theorem encodeRecord_injective (h : encodeRecord r = .ok line) (h' : encodeRecord r' = .ok line) :
    r = r' := by
  obtain ⟨hf, hbytes⟩ := encodeRecord_eq_ok.1 h
  obtain ⟨hf', hbytes'⟩ := encodeRecord_eq_ok.1 h'
  have htext : r.toJson.encode = r'.toJson.encode := encodeUtf8_injective hbytes hbytes'
  have hread : decodeText r.toJson.encode = .ok r.toJson := decodeText_encode r.sorted hf
  have hread' : decodeText r'.toJson.encode = .ok r'.toJson := decodeText_encode r'.sorted hf'
  have hjson : r.toJson = r'.toJson := by
    rw [htext] at hread
    exact Except.ok.inj (hread.symm.trans hread')
  exact Record.ext (Json.dict.inj hjson)

/-- The canonical bytes of the records of a file, which are what is hashed. -/
def canonicalForms (file : List Byte) : List (List Byte) :=
  (parsedRecords file).filterMap fun r => (canonicalRecordBytes r).toOption

/-- The canonical form of a record of a file is one of those of the file. -/
theorem mem_canonicalForms (hr : r ∈ parsedRecords file) (h : canonicalRecordBytes r = .ok line) :
    line ∈ canonicalForms file := by
  refine List.mem_filterMap.2 ⟨r, hr, ?_⟩
  rw [h]
  rfl

/-- The records of accepted files with the same head are the same. Nothing is assumed of the hash
but that what is hashed for these two files has different hashes, and not the genesis hash. -/
theorem same_records_of_same_head (h : AcceptsAll .init (parsedRecords file) p)
    (h' : AcceptsAll .init (parsedRecords file') p')
    (hhead : p.expectedPreviousHash = p'.expectedPreviousHash)
    (hinj : ∀ b ∈ canonicalForms file, ∀ b' ∈ canonicalForms file',
      Sha256.hexdigest b = Sha256.hexdigest b' → b = b')
    (hgenesis : ∀ b ∈ canonicalForms file ++ canonicalForms file',
      Sha256.hexdigest b ≠ genesisHash) :
    parsedRecords file = parsedRecords file' := by
  have hforms {file p r} (h : AcceptsAll .init (parsedRecords file) p)
      (hr : r ∈ parsedRecords file) : ∃ b ∈ canonicalForms file, canonicalRecordBytes r = .ok b ∧
        r.get (text "record_hash") = some (.str (Sha256.hexdigest b)) := by
    obtain ⟨s, hget, hcomputed⟩ := h.hashed hr
    obtain ⟨b, hb, rfl⟩ := map_eq_ok hcomputed
    exact ⟨b, mem_canonicalForms hr hb, hb, hget⟩
  have hchain := h.chained
  rw [hhead] at hchain
  refine hchain.unique h'.chained (fun r hr r' hr' hlink => ?_) (fun r hr heq => ?_)
  · obtain ⟨b, hmem, hb, hget⟩ := hforms h hr
    obtain ⟨b', hmem', hb', hget'⟩ := hforms h' hr'
    have hhash : Sha256.hexdigest b = Sha256.hexdigest b' := by
      rw [hget, hget'] at hlink
      exact Json.str.inj (Option.some.inj hlink)
    have hsame : b = b' := hinj b hmem b' hmem' hhash
    have herase := encodeRecord_injective hb (hsame ▸ hb')
    exact Record.eq_of_erase herase hget (hhash ▸ hget')
  · -- A record whose stored hash is the genesis hash would have it as its hash.
    have hcases : ∃ b ∈ canonicalForms file ++ canonicalForms file',
        r.get (text "record_hash") = some (.str (Sha256.hexdigest b)) := by
      rcases List.mem_append.1 hr with hr | hr
      · obtain ⟨b, hmem, -, hget⟩ := hforms h hr
        exact ⟨b, List.mem_append_left _ hmem, hget⟩
      · obtain ⟨b, hmem, -, hget⟩ := hforms h' hr
        exact ⟨b, List.mem_append_right _ hmem, hget⟩
    obtain ⟨b, hmem, hget⟩ := hcases
    rw [hget] at heq
    exact hgenesis b hmem (Json.str.inj (Option.some.inj heq))

/-- Two accepted files with the same head have the same number of records, and their lines are
parsed to the same values, one by one. -/
theorem tamper_evident {path path' : String} {allowMissing allowMissing' : Bool}
    {v v' : LedgerVerification} (h : verifyJsonlLedger path (some file) allowMissing = .ok v)
    (h' : verifyJsonlLedger path' (some file') allowMissing' = .ok v')
    (hhead : v.headHash = v'.headHash)
    (hinj : ∀ b ∈ canonicalForms file, ∀ b' ∈ canonicalForms file',
      Sha256.hexdigest b = Sha256.hexdigest b' → b = b')
    (hgenesis : ∀ b ∈ canonicalForms file ++ canonicalForms file',
      Sha256.hexdigest b ≠ genesisHash) :
    v.records = v'.records ∧ parsedRecords file = parsedRecords file' ∧
      (splitLines file).map loads = (splitLines file').map loads := by
  obtain ⟨-, hreads, p, haccepts, rfl⟩ := verifyJsonlLedger_eq_ok.1 h
  obtain ⟨-, hreads', p', haccepts', rfl⟩ := verifyJsonlLedger_eq_ok.1 h'
  have hsame := same_records_of_same_head haccepts haccepts' hhead hinj hgenesis
  have hloads {lines rs} (h : List.Forall₂ Reads lines rs) :
      lines.map loads = rs.map fun r => .ok r.toJson := by
    induction h with
    | nil => rfl
    | cons hline _ ih => rw [List.map_cons, List.map_cons, ih, hline]
  have hlength : p.expectedIndex = p'.expectedIndex := by
    rw [haccepts.length, haccepts'.length, hsame]
  exact ⟨hlength, hsame, by rw [hloads hreads, hloads hreads', hsame]⟩

/-- The line of a ledger with one record. -/
@[irreducible] def firstLine : List Byte :=
  (encodeUtf8 (text "\x7b\"ledger_algorithm\":\"sha256\"," ++ text "\"ledger_index\":0," ++
    text "\"ledger_version\":\"1.0\"," ++ text "\"previous_record_hash\":" ++
    text "\"" ++ genesisHash ++ text "\"," ++
    text "\"provenance_component\":" ++ text "\"websocket-jsonl-recorder\"," ++
    text "\"provenance_system\":" ++ text "\"smart-market-data-gateway\"," ++
    text "\"provenance_transport\":" ++ text "\"websocket\",\"record_hash\":" ++
    text "\"16878797f7dbed34ea14c844bc9113c5" ++ text "a60f97a64b72388f47510015f2281c17\"," ++
    text "\"recorder_session_id\":\"s\"\x7d\n")).getD []

/-- The line with one more member for the index, which the parser drops for the later one. -/
@[irreducible] def hidingLine : List Byte :=
  0x7B :: ((encodeUtf8 (text "\"ledger_index\":7,")).getD [] ++ firstLine.drop 1)

set_option maxRecDepth 10000 in
/-- Both lines are accepted, with the same head. -/
theorem verify_hidingLine : ∃ v, verifyJsonlLedger "ledger" (some firstLine) false = .ok v ∧
    verifyJsonlLedger "ledger" (some hidingLine) false = .ok v := by
  have hrun : verifyJsonlLedger "ledger" (some firstLine) false =
      verifyJsonlLedger "ledger" (some hidingLine) false ∧
        (verifyJsonlLedger "ledger" (some firstLine) false).isOk = true := by decide +kernel
  obtain ⟨hsame, hok⟩ := hrun
  cases hv : verifyJsonlLedger "ledger" (some firstLine) false with
  | error e =>
    rw [hv] at hok
    cases hok
  | ok v => exact ⟨v, rfl, hsame ▸ hv⟩

set_option maxRecDepth 10000 in
/-- What is hashed for the two lines is the same, and its hash is not the genesis hash. -/
theorem forms_hidingLine :
    (∀ b ∈ canonicalForms firstLine, ∀ b' ∈ canonicalForms hidingLine,
      Sha256.hexdigest b = Sha256.hexdigest b' → b = b') ∧
      ∀ b ∈ canonicalForms firstLine ++ canonicalForms hidingLine,
        Sha256.hexdigest b ≠ genesisHash := by
  have hforms : canonicalForms firstLine = canonicalForms hidingLine ∧
      (canonicalForms hidingLine).length = 1 := by decide +kernel
  have hgenesis : ∀ b ∈ canonicalForms hidingLine, Sha256.hexdigest b ≠ genesisHash := by
    decide +kernel
  obtain ⟨hsame, hone⟩ := hforms
  rw [hsame]
  constructor
  · intro b hb b' hb' _
    obtain ⟨c, hc⟩ := List.length_eq_one_iff.1 hone
    rw [hc, List.mem_singleton] at hb hb'
    rw [hb, hb']
  · intro b hb
    exact hgenesis b ((List.mem_append.1 hb).elim id id)

/-- A line that hides another one has the same record. -/
theorem tamper_evident_hidingLine : parsedRecords firstLine = parsedRecords hidingLine := by
  obtain ⟨v, hv, hv'⟩ := verify_hidingLine
  obtain ⟨hinj, hgenesis⟩ := forms_hidingLine
  exact (tamper_evident hv hv' rfl hinj hgenesis).2.1

end MarketDataGateway.Recorder
