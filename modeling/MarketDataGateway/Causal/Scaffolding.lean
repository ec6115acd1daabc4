import Mathlib.Data.List.Forall2
import MarketDataGateway.Causal.Gate

/-!
# Empty scaffolding

Lines that are marks of markdown around nothing, or around a placeholder word. `Scaffold` are all of
them, `Peels` those of which `normalize_markdown_item` takes one mark off after the other: a bullet
or a number comes off only if white space and something else follow it, for the line is stripped
before the bullet is looked for. `saysNothing_iff_peels` says that these are the lines that pass for
placeholders.
-/

namespace MarketDataGateway.Causal

open Lib

/-! ## Words -/

variable {tables : UnicodeTables} {line s t u m w x y rest : PyStr} {c d letter : CodePoint}

/-- The text is a placeholder word, and punctuation after it. -/
def isPlaceholderWord (s : PyStr) : Bool :=
  placeholderWords.any fun word => (afterWord word s).any fun tail => tail.all isFiller

/-- A letter of ASCII. -/
def isLetter (c : CodePoint) : Bool :=
  (0x41 ≤ c.val && c.val ≤ 0x5A) || (0x61 ≤ c.val && c.val ≤ 0x7A)

/-- A small letter of ASCII that is the same as its capital only. -/
def isPlain (letter : CodePoint) : Bool :=
  0x61 ≤ letter.val && letter.val ≤ 0x7A && letter != char 'i' && letter != char 's'

/-- What is the same as a plain letter is a letter. -/
theorem isLetter_of_sameLetter (hplain : isPlain letter = true) (h : sameLetter letter c = true) :
    isLetter c = true := by
  unfold isPlain at hplain
  unfold sameLetter at h
  unfold isLetter
  simp only [Bool.and_eq_true, Bool.or_eq_true, decide_eq_true_eq, bne_iff_ne,
    ne_eq, beq_iff_eq] at *
  obtain ⟨⟨⟨hlow, hhigh⟩, hi⟩, hs⟩ := hplain
  have hcapital : (codePoint (letter.val - 0x20)).val = letter.val - 0x20 :=
    Nat.mod_eq_of_lt (by omega)
  rcases h with ((rfl | ⟨-, rfl⟩) | ⟨rfl, -⟩) | ⟨rfl, -⟩
  · exact .inr ⟨hlow, hhigh⟩
  · omega
  · exact absurd rfl hi
  · exact absurd rfl hs

/-- What stands in front of the tail of a word is the word, letter by letter. -/
theorem afterWord_eq_some_iff : afterWord w s = some t ↔
    ∃ u, s = u ++ t ∧ List.Forall₂ (fun letter c => sameLetter letter c = true) w u := by
  induction w generalizing s with
  | nil =>
    constructor
    · intro h
      exact ⟨[], Option.some.inj h, .nil⟩
    · rintro ⟨u, rfl, hu⟩
      cases hu
      rfl
  | cons letter w ih =>
    cases s with
    | nil =>
      constructor
      · exact fun h => nomatch h
      · rintro ⟨u, heq, hu⟩
        cases hu
        exact nomatch heq
    | cons c s =>
      -- The first letters are compared, and the rest is the rest of the word.
      unfold afterWord
      constructor
      · intro h
        split_ifs at h with hc
        obtain ⟨u, rfl, hu⟩ := ih.1 h
        exact ⟨c :: u, rfl, .cons hc hu⟩
      · rintro ⟨u, heq, hu⟩
        cases hu with
        | @cons _ c' _ u hc hu =>
          obtain ⟨rfl, rfl⟩ := List.cons.inj heq
          rw [if_pos hc]
          exact ih.2 ⟨u, rfl, hu⟩

/-- A placeholder word is one of the list, in any case, with filler behind. -/
theorem isPlaceholderWord_iff : isPlaceholderWord s = true ↔
    ∃ word ∈ placeholderWords, ∃ u t, s = u ++ t ∧
    List.Forall₂ (fun letter c => sameLetter letter c = true) word u ∧ ∀ c ∈ t,
    isFiller c = true := by
  unfold isPlaceholderWord
  rw [List.any_eq_true]
  refine exists_congr fun word => and_congr_right fun _ => ?_
  rw [Option.any_eq_true]
  constructor
  · rintro ⟨t, ht, hfiller⟩
    obtain ⟨u, hs, hu⟩ := afterWord_eq_some_iff.1 ht
    exact ⟨u, t, hs, hu, List.all_eq_true.1 hfiller⟩
  · rintro ⟨u, t, hs, hu, hfiller⟩
    exact ⟨t, afterWord_eq_some_iff.2 ⟨u, hs, hu⟩, List.all_eq_true.2 hfiller⟩

/-- The words begin and end with a plain letter. -/
theorem plain_of_mem_placeholderWords : ∀ word ∈ placeholderWords,
    word.head?.any isPlain = true ∧ word.getLast?.any isPlain = true := by
  decide

/-- A placeholder word begins with a letter. -/
theorem exists_letter (h : isPlaceholderWord s = true) :
    ∃ c rest, s = c :: rest ∧ isLetter c = true := by
  obtain ⟨word, hword, u, t, rfl, hu, -⟩ := isPlaceholderWord_iff.1 h
  have hplain := (plain_of_mem_placeholderWords word hword).1
  cases hu with
  | nil => exact nomatch hplain
  | @cons letter c w u hc hu => exact ⟨c, u ++ t, rfl, isLetter_of_sameLetter hplain hc⟩

/-- A letter is no space. -/
theorem isSpace_of_isLetter (h : isLetter c = true) : c.isSpace = false := by
  rw [Bool.eq_false_iff]
  unfold isLetter at h
  unfold CodePoint.isSpace
  simp only [ne_eq, Bool.or_eq_true, Bool.and_eq_true, decide_eq_true_eq, beq_iff_eq] at *
  omega

/-- A space is filler. -/
theorem isFiller_of_isSpace (h : c.isSpace = true) : isFiller c = true := by
  unfold isFiller
  rw [h, Bool.true_or]

/-- White space after a placeholder word makes no difference. -/
theorem isPlaceholderWord_append_spaces (hy : IsSpaces y) :
    isPlaceholderWord (s ++ y) = true ↔ isPlaceholderWord s = true := by
  rw [isPlaceholderWord_iff, isPlaceholderWord_iff]
  refine exists_congr fun word => and_congr_right fun hword => ?_
  constructor
  · rintro ⟨u, t, heq, hu, hfiller⟩
    obtain ⟨a, rfl, rfl⟩ | ⟨a, rfl, rfl⟩ := List.append_eq_append_iff.1 heq
    · -- The word would end in white space.
      have hplain := (plain_of_mem_placeholderWords word hword).2
      rcases List.eq_nil_or_concat' a with rfl | ⟨front, last, rfl⟩
      · rw [List.append_nil] at hu
        exact ⟨s, [], (List.append_nil s).symm, hu, List.forall_mem_nil _⟩
      · have hlast : last.isSpace = true :=
          hy last (List.mem_append_left _ (List.mem_append_right _ List.mem_cons_self))
        have hreverse := List.forall₂_reverse_iff.2 hu
        rw [← List.append_assoc, List.reverse_append, List.reverse_singleton,
          List.singleton_append] at hreverse
        rw [← List.head?_reverse] at hplain
        generalize word.reverse = reversed at hreverse hplain
        cases hreverse with
        | cons hc _ =>
          rw [isSpace_of_isLetter (isLetter_of_sameLetter hplain hc)] at hlast
          exact nomatch hlast
    · exact ⟨u, a, rfl, hu, fun c hc => hfiller c (List.mem_append_left _ hc)⟩
  · rintro ⟨u, t, rfl, hu, hfiller⟩
    refine ⟨u, t ++ y, List.append_assoc _ _ _, hu, fun c hc => ?_⟩
    obtain hc | hc := List.mem_append.1 hc
    · exact hfiller c hc
    · exact isFiller_of_isSpace (hy c hc)

/-! ## Marks -/

variable (tables) in
/-- A bullet, or the number of an item. -/
inductive IsItem : PyStr → Prop
  | bullet {c : CodePoint} (h : c = char '-' ∨ c = char '*' ∨ c = char '+') : IsItem [c]
  | number {digits : PyStr} {d : CodePoint} (hne : digits ≠ [])
      (hdigits : ∀ c ∈ digits, isDecimal tables c = true) (hd : d = char '.' ∨ d = char ')') :
      IsItem (digits ++ [d])

/-- A box, checked or not. -/
def box (c : CodePoint) : PyStr := [char '[', c, char ']']

/-- The character that a box may have in it. -/
def IsCheck (c : CodePoint) : Prop := c = char ' ' ∨ c = char 'x' ∨ c = char 'X'

variable (tables) in
/-- A mark of markdown. -/
inductive IsMark : PyStr → Prop
  | quote : IsMark [char '>']
  | item {m : PyStr} (h : IsItem tables m) : IsMark m
  | checkbox {c : CodePoint} (h : IsCheck c) : IsMark (box c)

/-- What follows the bullet or the number that a line starts with. -/
def afterItem (tables : UnicodeTables) (line : PyStr) : Option PyStr :=
  match line with
  | c :: rest =>
    if c = char '-' ∨ c = char '*' ∨ c = char '+' then some rest
    else if isDecimal tables c then
      match line.dropWhile (isDecimal tables) with
      | d :: rest => if d = char '.' ∨ d = char ')' then some rest else none
      | [] => none
    else none
  | [] => none

/-- A bullet is dropped if an item mark and a space begin the line. -/
theorem dropBullet_eq : dropBullet tables line =
    match afterItem tables line with
    | some (c :: rest) => if c.isSpace then rest.dropWhile CodePoint.isSpace else line
    | _ => line := by
  cases line <;> rfl

/-- A digit is no mark, and a letter is no digit. -/
theorem not_isDecimal (h : c.val < 0x30 ∨ (0x39 < c.val ∧ c.val < 0x80)) :
    isDecimal tables c = false := by
  unfold isDecimal
  rw [if_pos (by omega), decide_eq_false_iff_not]
  omega

/-- What comes after an item mark is the rest of the line. -/
theorem afterItem_append (h : IsItem tables m) : afterItem tables (m ++ rest) = some rest := by
  cases h with
  | bullet h => exact if_pos h
  | @number digits d hne hdigits hd =>
    have hend : isDecimal tables d = false := by
      apply not_isDecimal
      rcases hd with rfl | rfl <;> decide
    have hdrop : (digits ++ [d] ++ rest).dropWhile (isDecimal tables) = d :: rest := by
      rw [List.append_assoc, List.dropWhile_append_of_pos hdigits, List.singleton_append,
        List.dropWhile_cons, if_neg (Bool.eq_false_iff.1 hend)]
    obtain ⟨e, digits, rfl⟩ := List.exists_cons_of_ne_nil hne
    have hdecimal : isDecimal tables e = true := hdigits e List.mem_cons_self
    have hbullet : ¬(e = char '-' ∨ e = char '*' ∨ e = char '+') := by
      intro hbullet
      rw [not_isDecimal (by rcases hbullet with rfl | rfl | rfl <;> decide)] at hdecimal
      exact nomatch hdecimal
    unfold afterItem
    rw [List.cons_append, List.cons_append] at hdrop ⊢
    dsimp only
    rw [if_neg hbullet, if_pos hdecimal, hdrop]
    exact if_pos hd

/-- What comes after an item mark has one before it. -/
theorem exists_of_afterItem (h : afterItem tables line = some rest) :
    ∃ m, IsItem tables m ∧ line = m ++ rest := by
  cases line with
  | nil => exact nomatch h
  | cons c tail =>
    unfold afterItem at h
    dsimp only at h
    split_ifs at h with hbullet hdecimal
    · obtain rfl := Option.some.inj h
      exact ⟨[c], .bullet hbullet, rfl⟩
    · cases hdrop : (c :: tail).dropWhile (isDecimal tables) with
      | nil =>
        rw [hdrop] at h
        exact nomatch h
      | cons d rest' =>
        rw [hdrop] at h
        dsimp only at h
        split_ifs at h with hd
        obtain rfl := Option.some.inj h
        have hsplit := List.takeWhile_append_dropWhile (p := isDecimal tables) (l := c :: tail)
        rw [hdrop] at hsplit
        refine ⟨(c :: tail).takeWhile (isDecimal tables) ++ [d], .number ?_ ?_ hd, ?_⟩
        · rw [List.takeWhile_cons, if_pos hdecimal]
          exact List.cons_ne_nil _ _
        · exact fun c hc => List.mem_takeWhile_imp hc
        · rw [List.append_assoc, List.singleton_append, hsplit]

/-- What is relied on of `str.isdecimal`: white space is no digit. -/
def DigitsAreVisible (tables : UnicodeTables) : Prop :=
  ∀ c, tables.isDecimal c = true → c.isSpace = false

/-- A bullet or a number begins with a character of its own kind. -/
theorem IsItem.exists_head (htables : DigitsAreVisible tables) (h : IsItem tables m) :
    ∃ c rest, m = c :: rest ∧ c.isSpace = false ∧ c ≠ char '>' ∧ c ≠ char '[' ∧
    isLetter c = false := by
  cases h with
  | @bullet c h =>
    refine ⟨c, [], rfl, ?_⟩
    rcases h with rfl | rfl | rfl <;> decide
  | @number digits d hne hdigits hd =>
    obtain ⟨c, digits, rfl⟩ := List.exists_cons_of_ne_nil hne
    have hdecimal : isDecimal tables c = true := hdigits c List.mem_cons_self
    -- A decimal is an ASCII digit or is not in ASCII.
    have hplace : ¬(c.val < 0x30 ∨ (0x39 < c.val ∧ c.val < 0x80)) := by
      intro hplace
      rw [not_isDecimal hplace] at hdecimal
      exact nomatch hdecimal
    refine ⟨c, digits ++ [d], rfl, ?_, ?_, ?_, ?_⟩
    · unfold isDecimal at hdecimal
      split_ifs at hdecimal with hascii
      · rw [decide_eq_true_eq] at hdecimal
        rw [Bool.eq_false_iff]
        unfold CodePoint.isSpace
        simp only [ne_eq, Bool.or_eq_true, Bool.and_eq_true, decide_eq_true_eq, beq_iff_eq]
        omega
      · exact htables c hdecimal
    · rintro rfl
      exact hplace (by decide)
    · rintro rfl
      exact hplace (by decide)
    · rw [Bool.eq_false_iff]
      unfold isLetter
      simp only [ne_eq, Bool.or_eq_true, Bool.and_eq_true, decide_eq_true_eq]
      omega

/-! ## Scaffolding -/

variable (tables)

/-- A line of marks, in any order and with any spacing, around nothing or around a placeholder
word. -/
inductive Scaffold : PyStr → Prop
  | nothing : Scaffold []
  | word {s : PyStr} (h : isPlaceholderWord s = true) : Scaffold s
  | space {c : CodePoint} {s : PyStr} (hc : c.isSpace = true) (h : Scaffold s) : Scaffold (c :: s)
  | mark {m s : PyStr} (hm : IsMark tables m) (h : Scaffold s) : Scaffold (m ++ s)

/-- Such a line in which white space and something else follow each bullet and each number. A dash
or an asterisk may stand before the word itself. -/
inductive Peels : PyStr → Prop
  | nothing : Peels []
  | word {s : PyStr} (h : isPlaceholderWord s = true) : Peels s
  | space {c : CodePoint} {s : PyStr} (hc : c.isSpace = true) (h : Peels s) : Peels (c :: s)
  | quote {s : PyStr} (h : Peels s) : Peels (char '>' :: s)
  | checkbox {c : CodePoint} {s : PyStr} (hc : IsCheck c) (h : Peels s) : Peels (box c ++ s)
  | item {m s : PyStr} {c : CodePoint} (hm : IsItem tables m) (hc : c.isSpace =
      true) (hs : ¬IsSpaces s)
      (h : Peels s) : Peels (m ++ c :: s)
  | dash {c : CodePoint} {s : PyStr} (hc : c = char '-' ∨
      c = char '*') (h : isPlaceholderWord s = true) :
      Peels (c :: s)

variable {tables}

/-- What peels is scaffolding. -/
theorem Peels.scaffold (h : Peels tables s) : Scaffold tables s := by
  induction h with
  | nothing => exact .nothing
  | word h => exact .word h
  | space hc _ ih => exact .space hc ih
  | quote _ ih => exact .mark .quote ih
  | checkbox hc _ ih => exact .mark (.checkbox hc) ih
  | item hm hc _ _ ih => exact .mark (.item hm) (.space hc ih)
  | @dash c s hc h =>
    have hbullet : IsItem tables [c] := .bullet (hc.imp_right Or.inl)
    exact .mark (.item hbullet) (.word h)

/-- How a line that peels goes on after its first character. -/
theorem Peels.cons_cases (h : Peels tables (c :: s)) :
    (isLetter c = true ∧ isPlaceholderWord (c :: s) = true) ∨ (c.isSpace = true ∧ Peels tables s) ∨
      (c = char '>' ∧ Peels tables s) ∨
      (∃ b t, IsCheck b ∧ c :: s = box b ++ t ∧ Peels tables t) ∨
      (∃ m b t, IsItem tables m ∧ c :: s = m ++ b :: t ∧ b.isSpace = true ∧
      ¬IsSpaces t ∧ Peels tables t) ∨
      ((c = char '-' ∨ c = char '*') ∧ isPlaceholderWord s = true) := by
  generalize hx : c :: s = x at h
  cases h with
  | nothing => exact nomatch hx
  | word h =>
    obtain ⟨c', rest, rfl, hletter⟩ := exists_letter h
    obtain ⟨rfl, rfl⟩ := List.cons.inj hx
    exact .inl ⟨hletter, h⟩
  | space hc h =>
    obtain ⟨rfl, rfl⟩ := List.cons.inj hx
    exact .inr (.inl ⟨hc, h⟩)
  | quote h =>
    obtain ⟨rfl, rfl⟩ := List.cons.inj hx
    exact .inr (.inr (.inl ⟨rfl, h⟩))
  | checkbox hc h => exact .inr (.inr (.inr (.inl ⟨_, _, hc, rfl, h⟩)))
  | item hm hc hs h => exact .inr (.inr (.inr (.inr (.inl ⟨_, _, _, hm, rfl, hc, hs, h⟩))))
  | dash hc h =>
    obtain ⟨rfl, rfl⟩ := List.cons.inj hx
    exact .inr (.inr (.inr (.inr (.inr ⟨hc, h⟩))))

/-! ## Marks in front -/

variable (htables : DigitsAreVisible tables)
include htables

/-- A space in front is peeled. -/
theorem peels_space (hc : c.isSpace = true) : Peels tables (c :: s) ↔ Peels tables s := by
  refine ⟨fun h => ?_, .space hc⟩
  rcases h.cons_cases with ⟨hletter, -⟩ | ⟨-, h⟩ | ⟨rfl, -⟩ | ⟨b, t, -, heq, -⟩ |
    ⟨m, b, t, hm, heq, -⟩ | ⟨hdash, -⟩
  · rw [isSpace_of_isLetter hletter] at hc
    exact nomatch hc
  · exact h
  · exact nomatch hc
  · obtain ⟨rfl, -⟩ := List.cons.inj heq
    exact nomatch hc
  · obtain ⟨e, r, rfl, hspace, -⟩ := hm.exists_head htables
    obtain ⟨rfl, -⟩ := List.cons.inj heq
    rw [hspace] at hc
    exact nomatch hc
  · rcases hdash with rfl | rfl <;> exact nomatch hc

/-- A quotation mark in front is peeled. -/
theorem peels_quote : Peels tables (char '>' :: s) ↔ Peels tables s := by
  refine ⟨fun h => ?_, .quote⟩
  rcases h.cons_cases with ⟨hletter, -⟩ | ⟨hspace, -⟩ | ⟨-, h⟩ | ⟨b, t, -, heq, -⟩ |
    ⟨m, b, t, hm, heq, -⟩ | ⟨hdash, -⟩
  · exact nomatch hletter
  · exact nomatch hspace
  · exact h
  · exact absurd (List.cons.inj heq).1 (by decide)
  · obtain ⟨e, r, rfl, -, hquote, -⟩ := hm.exists_head htables
    exact absurd (List.cons.inj heq).1.symm hquote
  · exact absurd hdash (by decide)

/-- A box in front is peeled. -/
theorem peels_box (hc : IsCheck c) : Peels tables (box c ++ s) ↔ Peels tables s := by
  refine ⟨fun h => ?_, .checkbox hc⟩
  rcases h.cons_cases with ⟨hletter, -⟩ | ⟨hspace, -⟩ | ⟨hquote, -⟩ | ⟨b, t, -, heq, h⟩ |
    ⟨m, b, t, hm, heq, -⟩ | ⟨hdash, -⟩
  · exact nomatch hletter
  · exact nomatch hspace
  · exact absurd hquote (by decide)
  · have hsame : box c ++ s = box b ++ t := heq
    obtain ⟨-, rfl⟩ := List.append_inj hsame rfl
    exact h
  · obtain ⟨e, r, rfl, -, -, hbox, -⟩ := hm.exists_head htables
    exact absurd (List.cons.inj heq).1.symm hbox
  · exact absurd hdash (by decide)

/-- An item mark in front is peeled, if text comes after it. -/
theorem peels_item (hm : IsItem tables m) (hc : c.isSpace = true) (hs : ¬IsSpaces s) :
    Peels tables (m ++ c :: s) ↔ Peels tables s := by
  refine ⟨fun h => ?_, .item hm hc hs⟩
  have hafter := @afterItem_append tables m (c :: s) hm
  obtain ⟨e, r, rfl, hspace, hquote, hbox, hletter⟩ := hm.exists_head htables
  rcases h.cons_cases with ⟨he, -⟩ | ⟨he, -⟩ | ⟨he, -⟩ | ⟨b, t, -, heq, -⟩ |
    ⟨m', b, t, hm', heq, -, -, h⟩ | ⟨he, hword⟩
  · rw [hletter] at he
    exact nomatch he
  · rw [hspace] at he
    exact nomatch he
  · exact absurd he hquote
  · exact absurd (List.cons.inj heq).1 hbox
  · have hafter' := @afterItem_append tables m' (b :: t) hm'
    have hsame : e :: r ++ c :: s = m' ++ b :: t := heq
    rw [← hsame, hafter] at hafter'
    obtain ⟨-, rfl⟩ := List.cons.inj (Option.some.inj hafter')
    exact h
  · -- What follows the dash begins with white space, so it is no word.
    have hdash : afterItem tables (e :: (r ++ c :: s)) = some (r ++ c :: s) :=
      if_pos (he.imp_right Or.inl)
    rw [List.cons_append, hdash] at hafter
    have hword : isPlaceholderWord (r ++ c :: s) = true := hword
    rw [Option.some.inj hafter] at hword
    obtain ⟨c', rest, heq, hfirst⟩ := exists_letter hword
    obtain ⟨rfl, -⟩ := List.cons.inj heq
    rw [isSpace_of_isLetter hfirst] at hc
    exact nomatch hc

/-- Spaces in front are peeled. -/
theorem peels_spaces_append (hx : IsSpaces x) : Peels tables (x ++ s) ↔ Peels tables s := by
  induction x with
  | nil => rfl
  | cons c x ih =>
    obtain ⟨hc, hx⟩ := List.forall_mem_cons.1 hx
    rw [List.cons_append, peels_space htables hc, ih hx]

/-- Spaces behind are peeled. -/
theorem peels_append_spaces (hy : IsSpaces y) : Peels tables (s ++ y) ↔ Peels tables s := by
  constructor
  · intro h
    generalize hx : s ++ y = x at h
    induction h generalizing s with
    | nothing =>
      rw [(List.append_eq_nil_iff.1 hx).1]
      exact .nothing
    | word h => exact .word ((isPlaceholderWord_append_spaces hy).1 (hx ▸ h))
    | @space c t hc _ ih =>
      obtain ⟨rfl, -⟩ | ⟨s, rfl, ht⟩ := List.append_eq_cons_iff.1 hx
      · exact .nothing
      · exact .space hc (ih ht.symm)
    | @quote t _ ih =>
      obtain ⟨rfl, -⟩ | ⟨s, rfl, ht⟩ := List.append_eq_cons_iff.1 hx
      · exact .nothing
      · exact .quote (ih ht.symm)
    | @checkbox c t hc _ ih =>
      obtain ⟨a, hbox, rfl⟩ | ⟨a, rfl, ht⟩ := List.append_eq_append_iff.1 hx
      · -- The box ends in a bracket, which is not white space.
        rcases List.eq_nil_or_concat' a with rfl | ⟨front, last, rfl⟩
        · rw [List.append_nil] at hbox
          rw [← hbox]
          exact @Peels.checkbox tables c [] hc .nothing
        · have hlast : last.isSpace = true :=
            hy last (List.mem_append_left _ (List.mem_append_right _ List.mem_cons_self))
          have hbracket : [char '[', c] ++ [char ']'] = (s ++ front) ++ [last] := by
            rw [List.append_assoc]
            exact hbox
          obtain ⟨-, hbracket⟩ := List.append_inj' hbracket rfl
          rw [← (List.cons.inj hbracket).1] at hlast
          exact nomatch hlast
      · exact .checkbox hc (ih ht.symm)
    | @item m t c hm hc ht _ ih =>
      -- An item has text behind its mark, so that its mark does not lie in the white space.
      obtain ⟨a, -, rfl⟩ | ⟨a, rfl, heq⟩ := List.append_eq_append_iff.1 hx
      · exact absurd (fun d hd => hy d (List.mem_append_right _ (List.mem_cons_of_mem c hd))) ht
      · obtain ⟨rfl, rfl⟩ | ⟨a, rfl, rfl⟩ := List.append_eq_cons_iff.1 heq.symm
        · exact absurd (fun d hd => hy d (List.mem_cons_of_mem c hd)) ht
        · exact .item hm hc (fun ha => ht (ha.append hy)) (ih rfl)
    | @dash c t hc h =>
      obtain ⟨rfl, -⟩ | ⟨s, rfl, rfl⟩ := List.append_eq_cons_iff.1 hx
      · exact .nothing
      · exact .dash hc ((isPlaceholderWord_append_spaces hy).1 h)
  · intro h
    induction h with
    | nothing =>
      have hspaces := (@peels_spaces_append tables [] y htables hy).2 .nothing
      rwa [List.append_nil] at hspaces
    | word h => exact .word ((isPlaceholderWord_append_spaces hy).2 h)
    | space hc _ ih => exact .space hc ih
    | quote _ ih => exact .quote ih
    | checkbox hc _ ih => exact .checkbox hc ih
    | item hm hc hs _ ih =>
      rw [List.append_assoc, List.cons_append]
      exact .item hm hc (fun hall => hs fun d hd => hall d (List.mem_append_left _ hd)) ih
    | dash hc h => exact .dash hc ((isPlaceholderWord_append_spaces hy).2 h)

/-- A text is peeled as it is stripped. -/
theorem peels_strip : Peels tables (strip s) ↔ Peels tables s := by
  obtain ⟨x, y, hx, hy, heq⟩ := exists_eq_strip s
  conv_rhs => rw [heq, peels_append_spaces htables hy, peels_spaces_append htables hx]

/-- A text is peeled as it is without the spaces in front. -/
theorem peels_dropSpaces : Peels tables (s.dropWhile CodePoint.isSpace) ↔ Peels tables s := by
  have hspaces : IsSpaces (s.takeWhile CodePoint.isSpace) := fun c hc => List.mem_takeWhile_imp hc
  conv_rhs => rw [← List.takeWhile_append_dropWhile (p := CodePoint.isSpace) (l := s)]
  exact (peels_spaces_append htables hspaces).symm

/-- A text is peeled as it is without its quotation marks. -/
theorem peels_dropQuote : Peels tables (dropQuote s) ↔ Peels tables s := by
  have hdrop (s : PyStr) :
      Peels tables (s.dropWhile fun c => c == char '>' || c.isSpace) ↔ Peels tables s := by
    induction s with
    | nil => rfl
    | cons c s ih =>
      rw [List.dropWhile_cons]
      split_ifs with hc
      · rw [ih]
        rcases Bool.or_eq_true_iff.1 hc with hquote | hspace
        · rw [beq_iff_eq] at hquote
          rw [hquote, peels_quote htables]
        · exact (peels_space htables hspace).symm
      · rfl
  unfold dropQuote
  split_ifs
  · exact hdrop s
  · rfl

/-- A text is peeled as it is without its box. -/
theorem peels_dropCheckbox : Peels tables (dropCheckbox s) ↔ Peels tables s := by
  unfold dropCheckbox
  split
  · rename_i a b c rest
    split_ifs with hbox
    · obtain ⟨rfl, hb, rfl⟩ := hbox
      rw [peels_dropSpaces htables]
      exact (peels_box htables hb).symm
    · rfl
  · rfl

/-- A bullet that is taken off a trimmed line has something after it. -/
theorem peels_dropBullet (hs : Trimmed s) : Peels tables (dropBullet tables s) ↔
    Peels tables s := by
  rw [dropBullet_eq]
  split
  · rename_i c rest hafter
    split_ifs with hc
    · obtain ⟨m, hm, rfl⟩ := exists_of_afterItem hafter
      have hrest : ¬IsSpaces rest := by
        intro hrest
        have hlast := hs.2
        rcases List.eq_nil_or_concat' (c :: rest) with hnil | ⟨front, last, heq⟩
        · exact nomatch hnil
        · have hmem : last ∈ c :: rest := heq ▸ List.mem_append_right _ List.mem_cons_self
          have hspace : last.isSpace = true :=
            (List.forall_mem_cons.2 ⟨hc, hrest⟩ : IsSpaces (c :: rest)) last hmem
          rw [heq, ← List.append_assoc, List.getLast?_concat] at hlast
          rw [hlast last rfl] at hspace
          exact nomatch hspace
      rw [peels_dropSpaces htables, peels_item htables hm hc hrest]
    · rfl
  · rfl

/-- A pass takes off what peels, and nothing else. -/
theorem peels_normalizePass : Peels tables (normalizePass tables s) ↔ Peels tables s := by
  unfold normalizePass
  rw [peels_strip htables, peels_dropCheckbox htables, peels_strip htables,
    peels_dropBullet htables (trimmed_strip _), peels_strip htables, peels_dropQuote htables]

/-- A text is peeled as it is without its marks. -/
theorem peels_normalizeMarkdownItem : Peels tables (normalizeMarkdownItem tables s) ↔
    Peels tables s := by
  have hloop (n : ℕ) (s : PyStr) : Peels tables (normalizeLoop tables n s) ↔ Peels tables s := by
    induction n generalizing s with
    | zero => rfl
    | succ n ih =>
      unfold normalizeLoop
      split_ifs
      · rfl
      · rw [ih, peels_normalizePass htables]
  unfold normalizeMarkdownItem
  rw [hloop, peels_strip htables]

omit htables in
/-- A placeholder word matches. -/
theorem matchesPlaceholder_of_word (h : isPlaceholderWord s = true) :
    matchesPlaceholder s = true := by
  obtain ⟨c, rest, rfl, hletter⟩ := exists_letter h
  have hdash : ¬(c = char '-' ∨ c = char '*') := by
    rintro (rfl | rfl) <;> exact nomatch hletter
  unfold matchesPlaceholder
  dsimp only
  rw [if_neg hdash]
  exact h

omit htables in
/-- A dash matches as the word after it does. -/
theorem matchesPlaceholder_dash (hc : c = char '-' ∨ c = char '*') :
    matchesPlaceholder (c :: s) = isPlaceholderWord (s.dropWhile CodePoint.isSpace) := by
  unfold matchesPlaceholder
  dsimp only
  rw [if_pos hc]
  rfl

/-- A line that a pass leaves as it is peels if it is empty or a placeholder. -/
theorem peels_iff_of_fixed (h : normalizePass tables s = s) :
    Peels tables s ↔ s = [] ∨ matchesPlaceholder s = true := by
  have htrimmed : Trimmed s := by
    rw [← h]
    exact trimmed_strip _
  have hquote (hhead : s.head? ≠ some (char '>')) : strip (dropQuote s) = s := by
    unfold dropQuote
    rw [if_neg hhead, htrimmed.strip_eq]
  -- What a pass leaves is within what each of its rules leaves.
  have hfirst : s.length ≤ (dropQuote s).length := by
    have hwithin : normalizePass tables s <:+: dropQuote s :=
      (strip_isInfix _).trans ((dropCheckbox_suffix _).isInfix.trans ((strip_isInfix _).trans
        ((dropBullet_suffix _).isInfix.trans (strip_isInfix _))))
    rw [h] at hwithin
    exact hwithin.length_le
  have hsecond : s.length ≤ (dropBullet tables (strip (dropQuote s))).length := by
    have hwithin : normalizePass tables s <:+: dropBullet tables (strip (dropQuote s)) :=
      (strip_isInfix _).trans ((dropCheckbox_suffix _).isInfix.trans (strip_isInfix _))
    rw [h] at hwithin
    exact hwithin.length_le
  have hthird : s.length ≤
      (dropCheckbox (strip (dropBullet tables (strip (dropQuote s))))).length := by
    have hwithin : normalizePass tables s <:+: dropCheckbox
        (strip (dropBullet tables (strip (dropQuote s)))) :=
      strip_isInfix _
    rw [h] at hwithin
    exact hwithin.length_le
  -- So no rule leaves less, and a text that is peeled by a rule is not fixed.
  constructor
  · intro hpeels
    cases hpeels with
    | nothing => exact .inl rfl
    | word hword => exact .inr (matchesPlaceholder_of_word hword)
    | @space c t hc _ =>
      rw [htrimmed.1 c rfl] at hc
      exact nomatch hc
    | @quote t _ =>
      have hdrop : (dropQuote (char '>' :: t)).length ≤ t.length := by
        unfold dropQuote
        rw [List.head?_cons, if_pos rfl, List.dropWhile_cons, beq_self_eq_true,
          Bool.true_or, if_pos rfl]
        exact (List.dropWhile_suffix _).length_le
      rw [List.length_cons] at hfirst
      omega
    | @checkbox c t hc _ =>
      have hbullet : dropBullet tables (box c ++ t) = box c ++ t := rfl
      have hdrop : (dropCheckbox (box c ++ t)).length ≤ t.length := by
        have hbox : dropCheckbox (box c ++ t) = t.dropWhile CodePoint.isSpace :=
          if_pos ⟨rfl, hc, rfl⟩
        rw [hbox]
        exact (List.dropWhile_suffix _).length_le
      have hlength : (box c ++ t).length = t.length + 3 := rfl
      have hhead : (box c ++ t).head? ≠ some (char '>') := fun hhead =>
        absurd (Option.some.inj hhead) (by decide)
      rw [hquote hhead, hbullet, htrimmed.strip_eq] at hthird
      omega
    | @item m t c hm hc _ _ =>
      have hafter := @afterItem_append tables m (c :: t) hm
      have hdrop : (dropBullet tables (m ++ c :: t)).length ≤ t.length := by
        rw [dropBullet_eq, hafter]
        dsimp only
        rw [if_pos hc]
        exact (List.dropWhile_suffix _).length_le
      obtain ⟨e, r, rfl, -, hne, -⟩ := hm.exists_head htables
      have hlength : (e :: r ++ c :: t).length = r.length + t.length + 2 := by
        simp only [List.length_append, List.length_cons]
        omega
      rw [hquote fun hhead => hne (Option.some.inj hhead)] at hsecond
      omega
    | @dash c t hc hword =>
      obtain ⟨e, rest, rfl, hletter⟩ := exists_letter hword
      refine .inr ?_
      rw [matchesPlaceholder_dash hc, List.dropWhile_cons,
        if_neg (Bool.eq_false_iff.1 (isSpace_of_isLetter hletter))]
      exact hword
  · -- A dash with a placeholder word is a rule of its own, and other words match as they are.
    rintro (rfl | hmatches)
    · exact .nothing
    · cases s with
      | nil => exact .nothing
      | cons c rest =>
        by_cases hc : c = char '-' ∨ c = char '*'
        · rw [matchesPlaceholder_dash hc] at hmatches
          cases rest with
          | nil => exact nomatch hmatches
          | cons d rest =>
            rw [List.dropWhile_cons] at hmatches
            split_ifs at hmatches with hd
            · have hbullet : IsItem tables [c] := .bullet (hc.imp_right Or.inl)
              have hrest : ¬IsSpaces rest := by
                intro hrest
                rw [hrest.dropWhile_eq_nil] at hmatches
                exact nomatch hmatches
              exact .item hbullet hd hrest ((peels_dropSpaces htables).1 (.word hmatches))
            · exact .dash hc hmatches
        · have hword : matchesPlaceholder (c :: rest) = isPlaceholderWord (c :: rest) := by
            unfold matchesPlaceholder
            dsimp only
            rw [if_neg hc]
            rfl
          exact .word (hword ▸ hmatches)

/-- The lines that say nothing are those that peel. -/
theorem saysNothing_iff_peels (line : PyStr) : saysNothing tables line = true ↔
    Peels tables line := by
  rw [← peels_normalizeMarkdownItem htables,
    peels_iff_of_fixed htables (normalizePass_normalizeMarkdownItem line)]
  unfold saysNothing
  rw [Bool.or_eq_true, decide_eq_true_eq]

/-! ## Texts -/

variable {value : PyStr}

omit htables in
/-- Without the first character of a comment there is no comment. -/
theorem removeComments_eq (h : char '<' ∉ value) : removeComments value = value := by
  have hscan (s : PyStr) (hs : char '<' ∉ s) : scanText false false s = (s, false) := by
    induction s with
    | nil => rfl
    | cons c s ih =>
      have hc : char '<' ≠ c := fun hc => hs (hc ▸ List.mem_cons_self)
      have hs : char '<' ∉ s := fun hmem => hs (List.mem_cons_of_mem c hmem)
      have hopens : ¬OpensComment false (c :: s) := fun hopens =>
        hc (List.cons_prefix_cons.1 hopens.1).1
      rw [scanText_text hopens, ih hs]
  unfold removeComments
  rw [hscan value h]

omit htables in
/-- A text is a placeholder if each of its lines, without its comments, says nothing. -/
theorem isPlaceholder_eq_lines : isPlaceholder tables value =
    (splitlines (removeComments value)).all (saysNothing tables) := by
  have hnil : saysNothing tables [] = true := rfl
  have hcores : cores (splitlines (strip (stripHtmlComments value))) =
      cores (splitlines (removeComments value)) := by
    unfold stripHtmlComments
    rw [strip_strip, cores_splitlines, cores_splitlines, cores_breakLines_strip]
  rw [isPlaceholder_eq_all, all_cores saysNothing_strip hnil, hcores]
  exact (all_cores saysNothing_strip hnil).symm

omit htables in
/-- There is no comment in scaffolding. -/
theorem Scaffold.not_mem (h : Scaffold tables s) : char '<' ∉ s := by
  induction h with
  | nothing => exact List.not_mem_nil
  | @word s h =>
    obtain ⟨word, hword, u, t, rfl, hu, hfiller⟩ := isPlaceholderWord_iff.1 h
    rw [List.mem_append]
    rintro (hmem | hmem)
    · -- No letter of the words stands for it.
      have hletters : placeholderWords.all (fun word => word.all fun letter =>
          !sameLetter letter (char '<')) = true := by decide
      have hletters := List.all_eq_true.1 (List.all_eq_true.1 hletters word hword)
      obtain ⟨letter, hletter, hsame⟩ : ∃ letter ∈ word, sameLetter letter (char '<') = true := by
        clear hfiller hword h hletters
        induction hu with
        | nil => exact absurd hmem List.not_mem_nil
        | @cons letter c word u hc _ ih =>
          obtain rfl | hmem := List.mem_cons.1 hmem
          · exact ⟨letter, List.mem_cons_self, hc⟩
          · obtain ⟨letter', hletter, hsame⟩ := ih hmem
            exact ⟨letter', List.mem_cons_of_mem _ hletter, hsame⟩
      have hother := hletters letter hletter
      rw [hsame] at hother
      exact nomatch hother
    · exact absurd (hfiller _ hmem) (by decide)
  | @space c s hc _ ih =>
    rintro hmem
    obtain rfl | hmem := List.mem_cons.1 hmem
    · exact nomatch hc
    · exact ih hmem
  | @mark m s hm _ ih =>
    rw [List.mem_append]
    rintro (hmem | hmem)
    · cases hm with
      | quote => exact absurd hmem (by decide)
      | item hm =>
        cases hm with
        | bullet hc =>
          -- Neither a bullet nor a number is the bracket.
          obtain rfl := List.mem_singleton.1 hmem
          exact absurd hc (by decide)
        | number _ hdigits hd =>
          obtain hmem | hmem := List.mem_append.1 hmem
          · exact absurd (hdigits _ hmem) (by rw [not_isDecimal (by decide)]; decide)
          · obtain rfl := List.mem_singleton.1 hmem
            exact absurd hd (by decide)
      | @checkbox c hc =>
        simp only [box, List.mem_cons, List.not_mem_nil, or_false] at hmem
        rcases hmem with hmem | rfl | hmem
        · exact absurd hmem (by decide)
        · exact absurd hc (by unfold IsCheck; decide)
        · exact absurd hmem (by decide)
    · exact ih hmem

omit htables in
/-- The loop of `normalize_markdown_item` ends: after some passes one changes nothing, and their
result is what is returned. -/
theorem exists_iterate (line : PyStr) : ∃ n,
    (normalizePass tables)^[n + 1] (strip line) = (normalizePass tables)^[n] (strip line) ∧
      normalizeMarkdownItem tables line = (normalizePass tables)^[n] (strip line) := by
  have hloop (n : ℕ) (s : PyStr) : ∃ k,
      normalizeLoop tables n s = (normalizePass tables)^[k] s := by
    induction n generalizing s with
    | zero => exact ⟨0, rfl⟩
    | succ n ih =>
      unfold normalizeLoop
      split_ifs
      · exact ⟨0, rfl⟩
      · obtain ⟨k, hk⟩ := ih (normalizePass tables s)
        exact ⟨k + 1, hk⟩
  obtain ⟨k, hk⟩ := hloop (strip line).length (strip line)
  have hfixed := @normalizePass_normalizeMarkdownItem tables line
  unfold normalizeMarkdownItem at hfixed ⊢
  rw [hk] at hfixed
  exact ⟨k, by rw [Function.iterate_succ_apply', hfixed], hk⟩

/-- What `is_placeholder` is for: scaffolding is a placeholder, and a line that says anything makes
the text none. Its loop ends. -/
structure TellsScaffolding (tables : UnicodeTables) (value : PyStr) : Prop where
  scaffold : (∀ l ∈ splitlines value, Scaffold tables l) → isPlaceholder tables value = true
  words : (∃ l ∈ splitlines (removeComments value), ¬Scaffold tables l) →
    isPlaceholder tables value = false
  ends : ∀ line, ∃ n,
    (normalizePass tables)^[n + 1] (strip line) = (normalizePass tables)^[n] (strip line) ∧
      normalizeMarkdownItem tables line = (normalizePass tables)^[n] (strip line)

/-- It does what it is for unless scaffolding does not peel. -/
theorem tellsScaffolding_iff (value : PyStr) : TellsScaffolding tables value ↔
    ((∀ l ∈ splitlines value, Scaffold tables l) → ∀ l ∈ splitlines value, Peels tables l) := by
  have hplaceholder : isPlaceholder tables value = true ↔
      ∀ l ∈ splitlines (removeComments value), Peels tables l := by
    rw [isPlaceholder_eq_lines, List.all_eq_true]
    exact forall₂_congr fun l _ => saysNothing_iff_peels htables l
  have hsame (h : ∀ l ∈ splitlines value, Scaffold tables l) : removeComments value = value := by
    apply removeComments_eq
    intro hmem
    obtain ⟨l, hl, hmem⟩ := exists_mem_splitlines hmem (by decide)
    exact (h l hl).not_mem hmem
  constructor
  · intro h hscaffold
    rw [← hsame hscaffold]
    exact hplaceholder.1 (h.scaffold hscaffold)
  · intro h
    refine ⟨fun hscaffold => hplaceholder.2 ?_, fun ⟨l, hl, hword⟩ => ?_, exists_iterate⟩
    · rw [hsame hscaffold]
      exact h hscaffold
    · rw [Bool.eq_false_iff]
      exact fun htrue => hword (hplaceholder.1 htrue l hl).scaffold

omit htables in
/-- The digits of the sample tables are visible. -/
theorem digitsAreVisible_sample : DigitsAreVisible sampleTables :=
  fun _ h => absurd h Bool.false_ne_true

omit htables in
/-- A box in a numbered item in a quotation. -/
theorem tellsScaffolding_iff_sample : TellsScaffolding sampleTables (text "> 1. [ ] TODO") ↔
    ((∀ l ∈ splitlines (text "> 1. [ ] TODO"), Scaffold sampleTables l) →
      ∀ l ∈ splitlines (text "> 1. [ ] TODO"), Peels sampleTables l) :=
  tellsScaffolding_iff digitsAreVisible_sample (text "> 1. [ ] TODO")

omit htables in
/-- A bullet by itself, which is what an empty item becomes when it is stripped. -/
theorem not_tellsScaffolding :
    ¬∀ (tables : UnicodeTables) (value : PyStr), DigitsAreVisible tables →
    TellsScaffolding tables value := by
  intro h
  have hscaffold : ∀ l ∈ splitlines (text "- "), Scaffold sampleTables l := by
    have hlines : splitlines (text "- ") = [text "- "] := by decide
    have hbullet : IsItem sampleTables [char '-'] := .bullet (.inl rfl)
    rw [hlines]
    exact List.forall_mem_singleton.2 (.mark (.item hbullet) (.space rfl .nothing))
  have htrue := (h sampleTables (text "- ") digitsAreVisible_sample).scaffold hscaffold
  have hfalse : isPlaceholder sampleTables (text "- ") = false := by decide
  rw [hfalse] at htrue
  exact nomatch htrue

end MarketDataGateway.Causal
