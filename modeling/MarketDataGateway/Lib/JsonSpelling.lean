import Mathlib.Data.List.Forall2
import Mathlib.Data.List.Induction
import Mathlib.Tactic.IntervalCases
import MarketDataGateway.Lib.JsonRoundTrip

/-!
# The texts that `json.dumps` writes

A grammar for them. `Plain` texts have no blanks between their tokens, the keys of each object go
up, a character is escaped only where it has to be and in the shortest way, an integer has no minus
sign before a zero, and a float is spelled as the `repr` of the number that it is read as. These are
the texts of values (`plain_iff`), and no other text is one that `json.dumps` writes.
-/

namespace MarketDataGateway.Lib

variable {c : CodePoint} {s t : PyStr} {l : NumberLiteral} {v : Json}

/-! ## Strings -/

/-- How a character is written within a string. -/
inductive Spells : PyStr → CodePoint → Prop
  /-- A character stands for itself. -/
  | raw {c : CodePoint} (hcontrol : 0x20 ≤ c.val) (hquote : c ≠ 0x22) (hbackslash : c ≠ 0x5C) :
    Spells [c] c
  /-- A short escape, of any character that has one but the slash. -/
  | short {e c : CodePoint} (h : unescape e = some c) (hslash : e ≠ 0x2F) : Spells [0x5C, e] c
  /-- The code of a control character without a short escape, in lower case. -/
  | control {c : CodePoint} (h : c.val < 0x20) (hshort : ∀ e, unescape e ≠ some c) :
    Spells (text "\\u00" ++ [hexDigit (c.val / 16), hexDigit (c.val % 16)]) c

/-- A text spells a character if it is what is written for it. -/
theorem spells_iff : Spells t c ↔ t = escapeChar c := by
  constructor
  · -- Each spelling is that of one case of `escapeChar`.
    intro h
    cases h with
    | raw hcontrol hquote hbackslash =>
      have hne {d : CodePoint} (hd : d.val < 0x20) : c ≠ d := by
        -- Each case of `escapeChar` is a spelling.
        rintro rfl
        omega
      unfold escapeChar
      rw [if_neg hquote, if_neg hbackslash, if_neg (hne (by decide)), if_neg (hne (by decide)),
        if_neg (hne (by decide)), if_neg (hne (by decide)), if_neg (hne (by decide)),
        if_neg (not_lt.2 hcontrol)]
    | @short e _ h hslash =>
      unfold unescape at h
      split_ifs at h
      all_goals
        obtain rfl := Option.some.inj h
        subst e
        decide
    | control h hshort =>
      have hne {d : CodePoint} (e : CodePoint) (he : unescape e = some d) : c ≠ d := by
        rintro rfl
        exact hshort e he
      unfold escapeChar
      rw [if_neg (hne 0x22 rfl), if_neg (hne 0x5C rfl), if_neg (hne 0x62 rfl),
        if_neg (hne 0x66 rfl), if_neg (hne 0x6E rfl), if_neg (hne 0x72 rfl),
        if_neg (hne 0x74 rfl), if_pos h]
  · rintro rfl
    unfold escapeChar
    split_ifs with h1 h2 h3 h4 h5 h6 h7 h8
    · exact .short (by rw [h1]; rfl) (by decide)
    · exact .short (by rw [h2]; rfl) (by decide)
    · exact .short (by rw [h3]; rfl) (by decide)
    · exact .short (by rw [h4]; rfl) (by decide)
    · exact .short (by rw [h5]; rfl) (by decide)
    · exact .short (by rw [h6]; rfl) (by decide)
    · exact .short (by rw [h7]; rfl) (by decide)
    · -- A control character without a letter of its own.
      refine .control h8 fun e he => ?_
      unfold unescape at he
      split_ifs at he
      all_goals
        obtain rfl := Option.some.inj he
        contradiction
    · exact .raw (not_lt.1 h8) h1 h2

/-- The text of a string, between quotes. -/
def Quotes (t s : PyStr) : Prop :=
  ∃ chars, List.Forall₂ Spells chars s ∧ t = text "\"" ++ chars.flatten ++ text "\""

/-- A text quotes a string if it is what is written for it. -/
theorem quotes_iff : Quotes t s ↔ t = encodeString s := by
  have hflat (chars : List PyStr) (h : List.Forall₂ Spells chars s) :
      chars.flatten = s.flatMap escapeChar := by
    induction h with
    | nil => rfl
    | cons hc _ ih => rw [List.flatten_cons, List.flatMap_cons, ih, spells_iff.1 hc]
  constructor
  · rintro ⟨chars, hchars, rfl⟩
    rw [hflat chars hchars]
    rfl
  · rintro rfl
    have hchars : List.Forall₂ Spells (s.map escapeChar) s :=
      List.forall₂_map_left_iff.2 (List.forall₂_same.2 fun c _ => spells_iff.2 rfl)
    refine ⟨s.map escapeChar, hchars, ?_⟩
    rw [hflat _ hchars]
    rfl

/-! ## Numbers -/

/-- Digits without leading zeros are those of their number. -/
theorem toDigits_ofDigitChars {digits : List Char} (hne : digits ≠ [])
    (hd : ∀ c ∈ digits, c.isDigit = true) (hleading : digits = ['0'] ∨ digits.head? ≠ some '0') :
    Nat.toDigits 10 (Nat.ofDigitChars 10 digits 0) = digits := by
  have hdigit {c : Char} (hc : c.isDigit = true) :
      c.toNat - '0'.toNat < 10 ∧ (c.toNat - '0'.toNat).digitChar = c := by
    have hrange : 48 ≤ c.toNat ∧ c.toNat ≤ 57 := by
      simpa [Char.isDigit, UInt32.le_iff_toNat_le] using hc
    have hzero : '0'.toNat = 48 := rfl
    refine ⟨by omega, ?_⟩
    have hall : ∀ n, 48 ≤ n → n ≤ 57 → (n - 48).digitChar = Char.ofNat n := by
      intro n h1 h2
      interval_cases n <;> rfl
    rw [hzero, hall c.toNat hrange.1 hrange.2]
    exact Char.ofNat_toNat c
  induction digits using List.reverseRecOn with
  | nil => exact absurd rfl hne
  | append_singleton digits c ih =>
    obtain ⟨hlt, hchar⟩ := hdigit (hd c (by simp))
    have hvalue : Nat.ofDigitChars 10 (digits ++ [c]) 0 =
        10 * Nat.ofDigitChars 10 digits 0 + (c.toNat - '0'.toNat) := by
      rw [Nat.ofDigitChars_append, Nat.ofDigitChars_cons, Nat.ofDigitChars_nil]
    rw [hvalue]
    cases digits with
    | nil =>
      rw [Nat.ofDigitChars_nil, Nat.mul_zero, Nat.zero_add, Nat.toDigits_of_lt_base hlt, hchar]
      rfl
    | cons d digits =>
      have hhead : (d :: digits).head? ≠ some '0' := by
        rcases hleading with hzero | hhead
        · simp at hzero
        · simpa using hhead
      have hbefore := ih (List.cons_ne_nil _ _) (fun c hc => hd c (List.mem_append_left _ hc))
        (Or.inr hhead)
      -- There are digits before this one, and they do not write zero.
      have hpos : 0 < Nat.ofDigitChars 10 (d :: digits) 0 := by
        refine Nat.pos_of_ne_zero fun hzero => hhead ?_
        rw [hzero, Nat.toDigits_zero] at hbefore
        rw [← hbefore]
        rfl
      rw [← Nat.toDigits_append_toDigits (by decide) hpos hlt, hbefore,
        Nat.toDigits_of_lt_base hlt, hchar]

/-- The literal is one of an integer, and its only spelling. -/
structure PlainInteger (l : NumberLiteral) : Prop where
  wellFormed : l.WellFormed
  integer : ¬ l.IsFloat
  /-- There is no minus before a zero. -/
  minus : l.negative = true → l.whole ≠ ['0']
  /-- It is not too long to be read. -/
  short : l.whole.length ≤ maxStrDigits

/-- A plain integer is the literal of one. -/
theorem plainInteger_iff : PlainInteger l ↔ ∃ z :
    ℤ, (Json.int z).fits = true ∧ l = intLiteral z := by
  constructor
  · rintro ⟨⟨⟨hne, hd⟩, hleading, -, -⟩, hinteger, hminus, hshort⟩
    obtain ⟨negative, whole, fraction, exponent⟩ := l
    -- Digits without a leading zero are those of the number that they come to.
    have hdigits := toDigits_ofDigitChars hne hd hleading
    obtain ⟨rfl, rfl⟩ : fraction = [] ∧ exponent = none := by
      simpa [NumberLiteral.IsFloat] using hinteger
    dsimp only at hne hd hleading hdigits hminus hshort
    generalize Nat.ofDigitChars 10 whole 0 = n at hdigits
    subst hdigits
    -- There is no minus zero.
    have hsign : negative = true → n ≠ 0 := by
      rintro hneg rfl
      exact hminus hneg rfl
    refine ⟨if negative then -n else n, ?_, ?_⟩
    · have hnat : (if negative then -(n : ℤ) else n).natAbs = n := by split_ifs <;> omega
      rw [Json.fits, hnat]
      exact decide_eq_true hshort
    · unfold intLiteral
      have hnat : (if negative then -(n : ℤ) else n).natAbs = n := by split_ifs <;> omega
      have hneg : decide ((if negative then -(n : ℤ) else n) < 0) = negative := by
        cases negative with
        | true =>
          have hpos := hsign rfl
          rw [if_pos rfl, decide_eq_true_eq]
          omega
        | false =>
          rw [if_neg (by decide), decide_eq_false_iff_not]
          omega
      rw [hnat, hneg]
  · -- The literal of an integer has no leading zero, no fraction and no exponent.
    rintro ⟨z, hfits, rfl⟩
    rw [Json.fits, decide_eq_true_eq] at hfits
    refine ⟨wellFormed_intLiteral z, by simp [NumberLiteral.IsFloat, intLiteral], ?_, hfits⟩
    intro hneg hzero
    have hlt : z < 0 := of_decide_eq_true hneg
    have hnat : Nat.ofDigitChars 10 (Nat.toDigits 10 z.natAbs) 0 = 0 := by
      rw [show Nat.toDigits 10 z.natAbs = ['0'] from hzero]
      rfl
    rw [Nat.ofDigitChars_ten_toDigits] at hnat
    omega

/-- The literal is the `repr` of the finite number that it is read as. -/
def PlainFloat (l : NumberLiteral) : Prop :=
  ∃ negative bits, Binary64.ofLiteral l = .finite negative bits ∧
    Binary64.literal negative bits.val = l

/-- A plain float is the literal of one. -/
theorem plainFloat_iff :
    PlainFloat l ↔ ∃ negative, ∃ bits :
    Fin (2047 * 2 ^ 52), l = Binary64.literal negative bits := by
  constructor
  · rintro ⟨negative, bits, -, hl⟩
    exact ⟨negative, bits, hl.symm⟩
  · rintro ⟨negative, bits, rfl⟩
    exact ⟨negative, bits, ofLiteral_literal negative bits, rfl⟩

/-! ## Values -/

/-- The texts, with commas between them. -/
def joined (texts : List PyStr) : PyStr := (text ",").intercalate texts

/-- The text of an object with these members, each a key and the text of its value. -/
def IsObject (t : PyStr) (members : List (PyStr × PyStr)) : Prop :=
  ∃ texts, List.Forall₂ (fun m w => ∃ q, Quotes q m.1 ∧ w = q ++ text ":" ++ m.2) members texts ∧
    t = text "\x7b" ++ joined texts ++ text "\x7d"

/-- The texts of values. -/
inductive Plain : PyStr → Prop
  | word {c : PyStr × Json} (h : c ∈ constants) : Plain c.1
  | integer {l : NumberLiteral} (h : PlainInteger l) : Plain l.toText
  | float {l : NumberLiteral} (h : PlainFloat l) : Plain l.toText
  | string {t s : PyStr} (h : Quotes t s) : Plain t
  | list {items : List PyStr} (h : ∀ t ∈ items, Plain t) :
    Plain (text "[" ++ joined items ++ text "]")
  | object {t : PyStr} {members : List (PyStr × PyStr)} (ht : IsObject t members)
    (hkeys : SortedKeys members) (h : ∀ m ∈ members, Plain m.2) : Plain t

/-- The items of a list are joined by commas. -/
theorem encodeItems_eq (v : Json) (items : List Json) :
    v.encode ++ encodeItems items = joined ((v :: items).map Json.encode) ++ text "]" := by
  induction items generalizing v with
  | nil => simp [joined, encodeItems]
  | cons w items ih =>
    rw [encodeItems, List.append_assoc, ih w]
    simp [joined, List.intercalate_cons_cons]

/-- The text of an entry. -/
def entryText (e : PyStr × Json) : PyStr := encodeString e.1 ++ text ":" ++ e.2.encode

/-- The entries of an object are joined by commas. -/
theorem encodeEntries_eq (e : PyStr × Json) (entries : List (PyStr × Json)) :
    entryText e ++ encodeEntries entries =
      joined ((e :: entries).map entryText) ++ text "\x7d" := by
  induction entries generalizing e with
  | nil => simp [joined, encodeEntries]
  | cons e' entries ih =>
    have hcons : encodeEntries (e' :: entries) =
        text "," ++ (entryText e' ++ encodeEntries entries) := by
      obtain ⟨k, v⟩ := e'
      rw [encodeEntries, entryText]
      simp only [List.append_assoc]
    rw [hcons, ih e']
    simp [joined, List.intercalate_cons_cons]

/-- What is written for a list are its items between brackets. -/
theorem encode_list (items : List Json) :
    (Json.list items).encode = text "[" ++ joined (items.map Json.encode) ++ text "]" := by
  cases items with
  | nil => rfl
  | cons v items => rw [Json.encode, List.append_assoc, encodeItems_eq, List.append_assoc]

/-- What is written for an object are its entries between braces. -/
theorem encode_dict (entries : List (PyStr × Json)) : (Json.dict entries).encode =
    text "\x7b" ++ joined (entries.map entryText) ++ text "\x7d" := by
  cases entries with
  | nil => rfl
  | cons e entries =>
    have hcons : (Json.dict (e :: entries)).encode =
        text "\x7b" ++ (entryText e ++ encodeEntries entries) := by
      obtain ⟨k, v⟩ := e
      rw [Json.encode, entryText]
      simp only [List.append_assoc]
    rw [hcons, encodeEntries_eq, List.append_assoc]

/-- The text of an object is the one of a dictionary with the values of its members. -/
theorem isObject_iff {entries : List (PyStr × Json)} :
    IsObject t (entries.map fun e => (e.1, e.2.encode)) ↔ t = (Json.dict entries).encode := by
  have htexts (texts : List PyStr) : List.Forall₂
      (fun m w => ∃ q, Quotes q m.1 ∧ w = q ++ text ":" ++ m.2)
      (entries.map fun e => (e.1, e.2.encode)) texts ↔ texts = entries.map entryText := by
    induction entries generalizing texts with
    | nil =>
      rw [List.map_nil, List.forall₂_nil_left_iff]
      rfl
    | cons e entries ih =>
      rw [List.map_cons, List.forall₂_cons_left_iff]
      constructor
      · rintro ⟨w, ws, ⟨q, hq, rfl⟩, hws, rfl⟩
        rw [quotes_iff.1 hq, (ih ws).1 hws]
        rfl
      · rintro rfl
        exact ⟨entryText e, _, ⟨_, quotes_iff.2 rfl, rfl⟩, (ih _).2 rfl, rfl⟩
  rw [encode_dict]
  constructor
  · rintro ⟨texts, h, rfl⟩
    rw [(htexts texts).1 h]
  · intro h
    exact ⟨_, (htexts _).2 rfl, h⟩

/-- A value with its keys in their order, and with integers that are not too long. -/
structure Json.Writable (v : Json) : Prop where
  sorted : v.Sorted
  fits : v.fits = true

/-- Texts are in the order of the keys if the entries are. -/
theorem sortedKeys_texts {entries : List (PyStr × Json)} :
    SortedKeys (entries.map fun e => (e.1, e.2.encode)) ↔ SortedKeys entries := by
  unfold SortedKeys
  rw [List.pairwise_map]

/-- Members whose texts are those of values are the entries of a dictionary. -/
theorem exists_entries {members : List (PyStr × PyStr)} (hkeys : SortedKeys members)
    (h : ∀ m ∈ members, ∃ v : Json, v.Writable ∧ v.encode = m.2) :
    ∃ entries, (Json.dict entries).Writable ∧
      members = entries.map fun e => (e.1, e.2.encode) := by
  have hall : ∃ entries : List (PyStr × Json), (∀ e ∈ entries, e.2.Writable) ∧
      members = entries.map fun e => (e.1, e.2.encode) := by
    clear hkeys
    induction members with
    | nil => exact ⟨[], nofun, rfl⟩
    | cons m members ih =>
      obtain ⟨⟨v, hv, hm⟩, hrest⟩ := List.forall_mem_cons.1 h
      obtain ⟨entries, hentries, rfl⟩ := ih hrest
      refine ⟨(m.1, v) :: entries, List.forall_mem_cons.2 ⟨hv, hentries⟩, ?_⟩
      rw [List.map_cons, hm]
  obtain ⟨entries, hentries, rfl⟩ := hall
  have hsorted : SortedKeys entries := sortedKeys_texts.1 hkeys
  refine ⟨entries, ⟨.dict hsorted fun e he => (hentries e he).sorted, ?_⟩, rfl⟩
  rw [Json.fits, fitsEntries_iff]
  exact fun e he => (hentries e he).fits

/-- A constant is plain. -/
theorem plain_constant (h : (v.encode, v) ∈ constants) : Plain v.encode := .word h

/-- The texts of the grammar are those of the values that can be written. -/
theorem plain_iff : Plain t ↔ ∃ v : Json, v.Writable ∧ v.encode = t := by
  constructor
  · -- What is plain is the text of a value, by induction on the grammar.
    intro h
    induction h with
    | @word c h =>
      unfold constants at h
      simp only [List.mem_cons, List.not_mem_nil, or_false] at h
      rcases h with rfl | rfl | rfl | rfl | rfl | rfl
      · exact ⟨.null, ⟨.null, rfl⟩, rfl⟩
      · exact ⟨.bool true, ⟨.bool _, rfl⟩, rfl⟩
      · exact ⟨.bool false, ⟨.bool _, rfl⟩, rfl⟩
      · exact ⟨.float .nan, ⟨.float _, rfl⟩, rfl⟩
      · exact ⟨.float (.infinite false), ⟨.float _, rfl⟩, rfl⟩
      · exact ⟨.float (.infinite true), ⟨.float _, rfl⟩, rfl⟩
    | integer h =>
      obtain ⟨z, hfits, rfl⟩ := plainInteger_iff.1 h
      exact ⟨.int z, ⟨.int z, hfits⟩, rfl⟩
    | float h =>
      obtain ⟨negative, bits, rfl⟩ := plainFloat_iff.1 h
      exact ⟨.float (.finite negative bits), ⟨.float _, rfl⟩, rfl⟩
    | @string t s h => exact ⟨.str s, ⟨.str s, rfl⟩, (quotes_iff.1 h).symm⟩
    | @list items hplain ih =>
      have hall : ∃ vs : List Json, (∀ v ∈ vs, v.Writable) ∧ vs.map Json.encode = items := by
        clear hplain
        induction items with
        | nil => exact ⟨[], nofun, rfl⟩
        | cons t items ih' =>
          obtain ⟨⟨v, hv, ht⟩, hrest⟩ := List.forall_mem_cons.1 ih
          obtain ⟨vs, hvs, hmap⟩ := ih' hrest
          exact ⟨v :: vs, List.forall_mem_cons.2 ⟨hv, hvs⟩, by rw [List.map_cons, ht, hmap]⟩
      obtain ⟨vs, hvs, rfl⟩ := hall
      refine ⟨.list vs, ⟨.list fun v hv => (hvs v hv).sorted, ?_⟩, encode_list vs⟩
      rw [Json.fits, fitsItems_iff]
      exact fun v hv => (hvs v hv).fits
    | @object t members ht hkeys _ ih =>
      obtain ⟨entries, hentries, rfl⟩ := exists_entries hkeys ih
      exact ⟨.dict entries, hentries, (isObject_iff.1 ht).symm⟩
  · -- The text of a value is plain, by induction on the value.
    rintro ⟨v, ⟨hsorted, hfits⟩, rfl⟩
    induction hsorted with
    | null => exact plain_constant (by simp [constants, Json.encode])
    | bool b => cases b <;> exact plain_constant (by simp [constants, Json.encode])
    | int z => exact .integer (plainInteger_iff.2 ⟨z, hfits, rfl⟩)
    | float x =>
      cases x with
      | finite negative bits => exact .float (plainFloat_iff.2 ⟨negative, bits, rfl⟩)
      | infinite negative =>
        cases negative <;> exact plain_constant (by simp [constants, Json.encode, encodeFloat])
      | nan => exact plain_constant (by simp [constants, Json.encode, encodeFloat])
    | str s => exact .string (quotes_iff.2 rfl)
    | @list items _ ih =>
      rw [Json.fits, fitsItems_iff] at hfits
      rw [encode_list]
      refine .list fun t ht => ?_
      obtain ⟨v, hv, rfl⟩ := List.mem_map.1 ht
      exact ih v hv (hfits v hv)
    | @dict entries hkeys _ ih =>
      rw [Json.fits, fitsEntries_iff] at hfits
      refine .object (isObject_iff.2 rfl) (sortedKeys_texts.2 hkeys) fun m hm => ?_
      obtain ⟨e, he, rfl⟩ := List.mem_map.1 hm
      exact ih e he (hfits e he)

end MarketDataGateway.Lib
