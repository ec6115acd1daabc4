import MarketDataGateway.Lib.JsonSpelling
import MarketDataGateway.Recorder.Append

/-!
# The lines that the verifier takes for canonical ones

The verifier hashes what it has parsed from a line, encoded again, and compares the index with
Python's `==`. So a line passes in any spelling of its record. `PlainLine` says which lines are
spelled as the writer spells them. The verified files that are canonical are those of such lines
(`canonical_iff_plain`), and it is only among these that the head of a file determines its octets.
-/

namespace MarketDataGateway.Recorder

open Lib

variable {r : Record} {rs : List Record} {p p' : Progress} {i : ℕ} {v : Json}
  {line bytes file file' : List Byte}

/-- The line is what the writer writes for the record, and its index is the place of the line. -/
structure CanonicalLine (line : List Byte) (r : Record) (i : ℕ) : Prop where
  encoded : ∃ bytes, encodeRecord r = .ok bytes ∧ line = bytes ++ [0x0A]
  index : r.get (text "ledger_index") = some (.int i)

/-- Each line of the file is canonical. -/
def Canonical (file : List Byte) : Prop :=
  ∀ i line r, (splitLines file)[i]? = some line → (parsedRecords file)[i]? = some r →
    CanonicalLine line r i

/-- The octets of the line are UTF-8, followed by a newline, for an object that is spelled as
`json.dumps` spells it: no blanks, keys that go up, no needless escapes, numbers as their `repr`.
Its index is written in digits alone. -/
def PlainLine (line : List Byte) : Prop :=
  ∃ t members index bytes, IsObject t members ∧ SortedKeys members ∧ (∀ m ∈ members, Plain m.2) ∧
    (text "ledger_index", index) ∈ members ∧ (∀ c ∈ index, c.isDigit = true) ∧
      encodeUtf8 t = some bytes ∧ line = bytes ++ [0x0A]

/-! ## One line -/

/-- An integer that is not negative is written in digits. -/
theorem digits_int (n : ℕ) : ∀ c ∈ (Json.int n).encode, c.isDigit = true := by
  intro c hc
  have htext : (Json.int n).encode = (Nat.toDigits 10 n).map CodePoint.ofChar := by
    have hnegative : decide ((n : ℤ) < 0) = false := decide_eq_false (by omega)
    rw [Json.encode, toText_eq, intLiteral, hnegative]
    simp [exponentText]
  rw [htext] at hc
  obtain ⟨d, hd, rfl⟩ := List.mem_map.1 hc
  rw [isDigit_ofChar]
  exact Nat.isDigit_of_mem_toDigits (by decide) (by decide) hd

/-- A text of digits alone is one of a natural number. -/
theorem eq_int_of_digits (h : ∀ c ∈ v.encode, c.isDigit = true) : ∃ n : ℕ, v = .int n := by
  have hno {c : CodePoint} (hc : c.isDigit = false) : c ∉ v.encode := by
    intro hmem
    rw [h c hmem] at hc
    cases hc
  cases v with
  | null => exact absurd (by decide) (@hno 0x6E rfl)
  | bool b => cases b <;> exact absurd (by decide) (@hno 0x65 rfl)
  | int z =>
    rcases le_or_gt 0 z with hz | hz
    · obtain ⟨n, rfl⟩ := Int.eq_ofNat_of_zero_le hz
      exact ⟨n, rfl⟩
    · refine absurd ?_ (@hno 0x2D rfl)
      have hnegative : decide (z < 0) = true := decide_eq_true hz
      have hminus : (0x2D : CodePoint) ∈ text "-" := by decide
      rw [Json.encode, toText_eq, intLiteral, hnegative]
      exact List.mem_append_left _ hminus
  | float x =>
    cases x with
    | finite negative bits =>
      obtain ⟨-, hfloat⟩ := wellFormed_literal negative bits.val
      have htext : (Json.float (.finite negative bits)).encode =
        (Binary64.literal negative bits.val).toText := rfl
      rw [htext] at hno
      generalize Binary64.literal negative bits.val = l at hno hfloat
      rw [toText_eq] at hno
      rcases hfloat with hfraction | hexponent
      · -- A float has a point or an exponent in it.
        refine absurd ?_ (@hno 0x2E rfl)
        have hpoint : (0x2E : CodePoint) ∈ text "." := by decide
        rw [if_neg hfraction]
        simp [hpoint]
      · refine absurd ?_ (@hno 0x65 rfl)
        obtain ⟨e, he⟩ := Option.ne_none_iff_exists'.1 hexponent
        have hletter : (0x65 : CodePoint) ∈ text "e" := by decide
        rw [he]
        simp [exponentText, hletter]
    | infinite negative => cases negative <;> exact absurd (by decide) (@hno 0x79 rfl)
    | nan => exact absurd (by decide) (@hno 0x61 rfl)
  | str s =>
    refine absurd ?_ (@hno 0x22 rfl)
    rw [Json.encode, encodeString_eq]
    exact List.mem_cons_self
  | list items =>
    refine absurd ?_ (@hno 0x5B rfl)
    rw [encode_list, List.append_assoc]
    exact List.mem_cons_self
  | dict entries =>
    refine absurd ?_ (@hno 0x7B rfl)
    rw [encode_dict, List.append_assoc]
    exact List.mem_cons_self

/-- Of the lines that the verifier takes for the record and the place, the plain ones are
canonical. -/
theorem canonicalLine_iff (hreads : Reads line r)
    (hindex : eqNat (r.get (text "ledger_index")) i = true) :
    CanonicalLine line r i ↔ PlainLine line := by
  constructor
  · rintro ⟨⟨bytes, hbytes, rfl⟩, hint⟩
    obtain ⟨hfits, hutf8⟩ := encodeRecord_eq_ok.1 hbytes
    have hmem : (text "ledger_index", Json.int i) ∈ r.entries := mem_of_getKey hint
    have hfit : ∀ e ∈ r.entries, e.2.fits = true := by
      unfold Record.toJson at hfits
      rwa [Json.fits, fitsEntries_iff] at hfits
    refine ⟨_, r.entries.map fun e => (e.1, e.2.encode), _, bytes, isObject_iff.2 rfl,
      sortedKeys_texts.2 r.keys_sorted, fun m hm => ?_, List.mem_map.2 ⟨_, hmem, rfl⟩,
      digits_int i, hutf8, rfl⟩
    obtain ⟨e, he, rfl⟩ := List.mem_map.1 hm
    exact plain_iff.2 ⟨e.2, ⟨r.values_sorted e he, hfit e he⟩, rfl⟩
  · rintro ⟨t, members, index, bytes, hobject, hkeys, hplain, hmem, hdigits, hutf8, rfl⟩
    obtain ⟨entries, hwritable, rfl⟩ :=
      exists_entries hkeys fun m hm => plain_iff.1 (hplain m hm)
    obtain rfl := isObject_iff.1 hobject
    obtain ⟨⟨k, w⟩, he, heq⟩ := List.mem_map.1 hmem
    obtain ⟨rfl, rfl⟩ := Prod.mk.inj heq
    -- The line is read as the object that it spells, which is the record.
    have hsame : r.entries = entries := by
      obtain ⟨e, rest, rfl⟩ := List.exists_cons_of_ne_nil (List.ne_nil_of_mem he)
      have hline := loads_line hwritable.sorted hwritable.fits hutf8
      exact Json.dict.inj (Except.ok.inj (hreads.symm.trans hline))
    obtain ⟨n, rfl⟩ := eq_int_of_digits hdigits
    have hget : r.get (text "ledger_index") = some (.int n) := by
      refine getKey_of_mem r.keys_sorted ?_
      rw [hsame]
      exact he
    rw [hget] at hindex
    obtain rfl : n = i := by simpa [eqNat] using hindex
    refine ⟨⟨bytes, encodeRecord_eq_ok.2 ?_, rfl⟩, hget⟩
    unfold Record.toJson
    rw [hsame]
    exact ⟨hwritable.fits, hutf8⟩

/-! ## The whole file -/

/-- A file is made of its lines. -/
theorem flatten_splitLines (file : List Byte) : (splitLines file).flatten = file := by
  induction file with
  | nil => rfl
  | cons b file ih =>
    rw [splitLines]
    split_ifs with hnewline
    · rw [List.flatten_cons, ih]
      rfl
    · split
      · next hlines =>
        rw [hlines] at ih
        rw [← ih]
        rfl
      · next line lines hlines =>
        rw [hlines, List.flatten_cons] at ih
        rw [List.flatten_cons, List.cons_append, ih]

/-- The index of each record is equal to its place, for Python's `==`. -/
theorem AcceptsAll.index (h : AcceptsAll p rs p') (hr : rs[i]? = some r) :
    eqNat (r.get (text "ledger_index")) (p.expectedIndex + i) = true := by
  induction rs generalizing p i with
  | nil => cases hr
  | cons r' rs ih =>
    obtain ⟨q, haccepts, hrest⟩ := h
    cases i with
    | zero =>
      obtain rfl := Option.some.inj hr
      exact haccepts.index
    | succ i =>
      have htail := ih hrest hr
      rw [haccepts.next] at htail
      have hplace : p.expectedIndex + (i + 1) = p.expectedIndex + 1 + i := by omega
      rwa [hplace]

/-- The lines and the records of a file go together. -/
theorem reads_getElem {lines : List (List Byte)} (h : List.Forall₂ Reads lines rs)
    (hline : lines[i]? = some line) : ∃ r, rs[i]? = some r ∧ Reads line r := by
  induction h generalizing i with
  | nil => cases hline
  | @cons line' r' lines rs hhead _ ih =>
    cases i with
    | zero =>
      obtain rfl := Option.some.inj hline
      exact ⟨r', rfl, hhead⟩
    | succ i => exact ih hline

/-- Files with the same records are the same if both are canonical. -/
theorem Canonical.unique (h : Canonical file) (h' : Canonical file')
    (hreads : List.Forall₂ Reads (splitLines file) (parsedRecords file))
    (hreads' : List.Forall₂ Reads (splitLines file') (parsedRecords file'))
    (hsame : parsedRecords file = parsedRecords file') : file = file' := by
  -- The lines agree one by one, as each is the encoding of its record.
  have hlines : splitLines file = splitLines file' := by
    refine List.ext_getElem? fun i => ?_
    cases hline : (splitLines file)[i]? with
    | none =>
      have hlength := hreads.length_eq
      have hlength' := hreads'.length_eq
      rw [List.getElem?_eq_none_iff] at hline
      rw [hsame] at hlength
      exact (List.getElem?_eq_none (by omega)).symm
    | some line =>
      obtain ⟨r, hr, -⟩ := reads_getElem hreads hline
      have hlt : i < (splitLines file').length := by
        obtain ⟨hi, -⟩ := List.getElem?_eq_some_iff.1 hr
        rw [hreads'.length_eq, ← hsame]
        exact hi
      have hline' := List.getElem?_eq_getElem hlt
      obtain ⟨⟨bytes, hbytes, rfl⟩, -⟩ := h i line r hline hr
      obtain ⟨⟨bytes', hbytes', heq⟩, -⟩ := h' i _ r hline' (hsame ▸ hr)
      rw [hline', heq]
      rw [hbytes] at hbytes'
      rw [Except.ok.inj hbytes']
  calc file = (splitLines file).flatten := (flatten_splitLines file).symm
    _ = (splitLines file').flatten := by rw [hlines]
    _ = file' := flatten_splitLines file'

/-- An accepted file is canonical if and only if its lines are plain. If they are, then another
accepted file with the same head is the same file if and only if its lines are plain as well. -/
theorem canonical_iff_plain {path path' : String} {allowMissing allowMissing' : Bool}
    {v : LedgerVerification} (h : verifyJsonlLedger path (some file) allowMissing = .ok v) :
    (Canonical file ↔ ∀ line ∈ splitLines file, PlainLine line) ∧
      ∀ file' v', verifyJsonlLedger path' (some file') allowMissing' = .ok v' →
        v.headHash = v'.headHash →
        (∀ b ∈ canonicalForms file, ∀ b' ∈ canonicalForms file',
          Sha256.hexdigest b = Sha256.hexdigest b' → b = b') →
        (∀ b ∈ canonicalForms file ++ canonicalForms file', Sha256.hexdigest b ≠ genesisHash) →
        (∀ line ∈ splitLines file, PlainLine line) →
          (file = file' ↔ ∀ line ∈ splitLines file', PlainLine line) := by
  have hiff {path file allowMissing v}
      (h : verifyJsonlLedger path (some file) allowMissing = .ok v) :
      Canonical file ↔ ∀ line ∈ splitLines file, PlainLine line := by
    obtain ⟨-, hreads, p, haccepts, -⟩ := verifyJsonlLedger_eq_ok.1 h
    -- Line by line, the record at a place has the index of the place.
    have hline {i line r} (hl : (splitLines file)[i]? = some line)
        (hr : (parsedRecords file)[i]? = some r) : CanonicalLine line r i ↔ PlainLine line := by
      obtain ⟨r', hr', hread⟩ := reads_getElem hreads hl
      obtain rfl : r' = r := Option.some.inj (hr'.symm.trans hr)
      have hindex := haccepts.index hr
      rw [show Progress.init.expectedIndex = 0 from rfl, Nat.zero_add] at hindex
      exact canonicalLine_iff hread hindex
    constructor
    · intro hcanonical line hmem
      obtain ⟨i, hi⟩ := List.mem_iff_getElem?.1 hmem
      obtain ⟨r, hr, -⟩ := reads_getElem hreads hi
      exact (hline hi hr).1 (hcanonical i line r hi hr)
    · intro hplain i line r hl hr
      exact (hline hl hr).2 (hplain line (List.mem_iff_getElem?.2 ⟨i, hl⟩))
  refine ⟨hiff h, fun file' v' h' hhead hinj hgenesis hplain => ⟨?_, fun hplain' => ?_⟩⟩
  · rintro rfl
    exact hplain
  · obtain ⟨-, hreads, p, haccepts, rfl⟩ := verifyJsonlLedger_eq_ok.1 h
    obtain ⟨-, hreads', p', haccepts', rfl⟩ := verifyJsonlLedger_eq_ok.1 h'
    -- With the same head come the same records, and canonical lines of these are the same.
    have hsame := same_records_of_same_head haccepts haccepts' hhead hinj hgenesis
    exact ((hiff h).2 hplain).unique ((hiff h').2 hplain') hreads hreads' hsame

/-- The number zero. -/
def isZero : Json → Bool
  | .int z => decide (z = 0)
  | _ => false

set_option maxRecDepth 10000 in
/-- The two lines are read as one record each, which the first one spells canonically. -/
theorem encode_hidingLine :
    splitLines firstLine = [firstLine] ∧ splitLines hidingLine = [hidingLine] ∧
      firstLine ≠ hidingLine ∧
      (∀ r ∈ parsedRecords firstLine, ∃ bytes, encodeRecord r = .ok bytes ∧
        firstLine = bytes ++ [0x0A]) ∧
      (∀ r ∈ parsedRecords firstLine, r.get (text "ledger_index") = some (.int 0)) ∧
      (parsedRecords firstLine).length = 1 := by
  -- One evaluation says all that is to be known of the two lines.
  have hrun : splitLines firstLine = [firstLine] ∧ splitLines hidingLine = [hidingLine] ∧
      firstLine ≠ hidingLine ∧
      (∀ r ∈ parsedRecords firstLine,
        (encodeRecord r).toOption.map (· ++ [0x0A]) = some firstLine ∧
          (r.get (text "ledger_index")).any isZero = true) ∧
      (parsedRecords firstLine).length = 1 := by decide +kernel
  obtain ⟨hfirst, hhiding, hne, hrecords, hone⟩ := hrun
  refine ⟨hfirst, hhiding, hne, fun r hr => ?_, fun r hr => ?_, hone⟩
  · obtain ⟨hencode, -⟩ := hrecords r hr
    cases hbytes : encodeRecord r with
    | error e =>
      rw [hbytes] at hencode
      cases hencode
    | ok bytes =>
      rw [hbytes] at hencode
      exact ⟨bytes, rfl, (Option.some.inj hencode).symm⟩
  · obtain ⟨-, hindex⟩ := hrecords r hr
    obtain ⟨v, hv, hzero⟩ := (Option.any_eq_true _ _).1 hindex
    cases v with
    | int z => rw [hv, of_decide_eq_true hzero]
    | _ => cases hzero

/-- The first line is plain, and the one with a hidden member is not. -/
theorem canonical_iff_plain_hidingLine :
    (∀ line ∈ splitLines firstLine, PlainLine line) ∧
      ¬ ∀ line ∈ splitLines hidingLine, PlainLine line := by
  obtain ⟨v, hv, hv'⟩ := verify_hidingLine
  obtain ⟨hinj, hgenesis⟩ := forms_hidingLine
  obtain ⟨hfirst, -, hne, hencoded, hindex, hone⟩ := encode_hidingLine
  obtain ⟨hiff, hother⟩ := @canonical_iff_plain firstLine "ledger" "ledger" false false v hv
  have hcanonical : Canonical firstLine := by
    intro i line r hline hr
    have hmem := List.mem_of_getElem? hr
    obtain ⟨hlt, -⟩ := List.getElem?_eq_some_iff.1 hr
    obtain rfl : i = 0 := by omega
    rw [hfirst] at hline
    obtain rfl := Option.some.inj hline
    exact ⟨hencoded r hmem, hindex r hmem⟩
  have hplain := hiff.1 hcanonical
  refine ⟨hplain, fun hhiding => hne ?_⟩
  exact (hother hidingLine v hv' rfl hinj hgenesis hplain).2 hhiding

/-- A member that is hidden by a later one is part of the file and of no hash. -/
theorem not_canonical : (¬ ∀ path file allowMissing v,
    verifyJsonlLedger path (some file) allowMissing = .ok v → Canonical file) ∧
    ¬ ∀ path file file' allowMissing v v', verifyJsonlLedger path (some file) allowMissing = .ok v →
      verifyJsonlLedger path (some file') allowMissing = .ok v' → v.headHash = v'.headHash →
        file = file' := by
  obtain ⟨v, hv, hv'⟩ := verify_hidingLine
  obtain ⟨-, hhiding, hne, hencoded, -, hone⟩ := encode_hidingLine
  constructor
  · intro hall
    -- The two lines are read as the same record, which is encoded as the first of them.
    have hsame : parsedRecords firstLine = parsedRecords hidingLine := by
      obtain ⟨-, -, p, haccepts, rfl⟩ := verifyJsonlLedger_eq_ok.1 hv
      obtain ⟨-, -, p', haccepts', hp⟩ := verifyJsonlLedger_eq_ok.1 hv'
      obtain ⟨hinj, hgenesis⟩ := forms_hidingLine
      exact same_records_of_same_head haccepts haccepts'
        (congrArg LedgerVerification.headHash hp) hinj hgenesis
    obtain ⟨r, hr⟩ := List.length_eq_one_iff.1 hone
    have hcanonical := hall _ _ _ _ hv' 0 hidingLine r (by rw [hhiding]; rfl)
      (by rw [← hsame, hr]; rfl)
    obtain ⟨bytes, hbytes, heq⟩ := hcanonical.encoded
    obtain ⟨bytes', hbytes', heq'⟩ := hencoded r (by rw [hr]; exact List.mem_singleton_self r)
    rw [hbytes] at hbytes'
    obtain rfl := Except.ok.inj hbytes'
    exact hne (heq'.trans heq.symm)
  · intro hall
    exact hne (hall _ _ _ _ _ _ hv hv' rfl)

end MarketDataGateway.Recorder
