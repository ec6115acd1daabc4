import Mathlib.Data.List.DropRight
import MarketDataGateway.Lib.Unicode

/-!
# Trimmed capitals

`strip` and `upper` after each other, and lists without their repetitions. What `str.upper` makes of
a character that is not of ASCII is given from outside; `Capitals` is what is relied on.
-/

namespace MarketDataGateway.Lib

/-! ## Trimming -/

variable {s : PyStr} {special : CodePoint → PyStr}

/-- A trimmed text has no white space at its ends. -/
def Trimmed (s : PyStr) : Prop :=
  (∀ c ∈ s.head?, c.isSpace = false) ∧ ∀ c ∈ s.getLast?, c.isSpace = false

/-- Nothing is dropped from what begins otherwise. -/
theorem dropWhile_eq_of_head? {p : CodePoint → Bool} (h : ∀ c ∈ s.head?, p c = false) :
    s.dropWhile p = s := by
  cases s with
  | nil => rfl
  | cons c s => rw [List.dropWhile_cons, h c rfl, if_neg Bool.false_ne_true]

/-- What is left begins otherwise. -/
theorem head?_dropWhile {p : CodePoint → Bool} : ∀ c ∈ (s.dropWhile p).head?, p c = false := by
  intro c hc
  have hhead := List.head?_dropWhile_not p s
  rw [Option.mem_def.1 hc] at hhead
  exact hhead

/-- Trimming a trimmed text changes nothing. -/
theorem Trimmed.strip_eq (h : Trimmed s) : strip s = s := by
  have hlast : ∀ c ∈ s.reverse.head?, c.isSpace = false := by
    rw [List.head?_reverse]
    exact h.2
  unfold strip
  rw [dropWhile_eq_of_head? h.1, dropWhile_eq_of_head? hlast, List.reverse_reverse]

/-- A text that is stripped is trimmed. -/
theorem trimmed_strip (s : PyStr) : Trimmed (strip s) := by
  unfold strip
  have hprefix : ((s.dropWhile CodePoint.isSpace).reverse.dropWhile CodePoint.isSpace).reverse <+:
      s.dropWhile CodePoint.isSpace := List.rdropWhile_prefix _ _
  refine ⟨fun c hc => ?_, ?_⟩
  · obtain ⟨rest, hrest⟩ := hprefix
    refine @head?_dropWhile s _ c ?_
    rw [← hrest, List.head?_append, Option.mem_def.1 hc]
    rfl
  · rw [List.getLast?_reverse]
    exact head?_dropWhile

/-! ## Capitals -/

/-- What is relied on of `str.upper`: its characters are their own capitals, they are white space if
the character is, and there is one at least. -/
structure Capitals (special : CodePoint → PyStr) : Prop where
  ne_nil : ∀ c : CodePoint, 0x80 ≤ c.val → special c ≠ []
  fixed : ∀ c : CodePoint, 0x80 ≤ c.val → upper special (special c) = special c
  isSpace : ∀ c : CodePoint, 0x80 ≤ c.val → ∀ d ∈ special c, d.isSpace = c.isSpace

/-- The capitals of a text are those of its parts. -/
theorem upper_append (s t : PyStr) : upper special (s ++ t) = upper special s ++ upper special t :=
  List.flatMap_append

/-- The capitals of one character. -/
theorem upper_singleton {c : CodePoint} : upper special [c] =
    if c.val < 0x80 then [if 0x61 ≤ c.val ∧
    c.val ≤ 0x7A then Fin.ofNat 0x110000 (c.val - 0x20) else c]
    else special c := by
  unfold upper
  rw [List.flatMap_singleton]

/-- The same for each character. -/
theorem Capitals.upper_char (h : Capitals special) (c : CodePoint) : upper special [c] ≠ [] ∧
    upper special (upper special [c]) = upper special [c] ∧
    ∀ d ∈ upper special [c], d.isSpace = c.isSpace := by
  rcases lt_or_ge c.val 0x80 with hlt | hge
  · rw [upper_singleton, if_pos hlt]
    refine ⟨List.cons_ne_nil _ _, upper_eq fun d hd => ?_, fun d hd => ?_⟩
    all_goals
      rw [List.mem_singleton] at hd
      rw [hd]
    · split_ifs with hlower
      · have hval : (Fin.ofNat 0x110000 (c.val - 0x20)).val = c.val - 0x20 :=
          Nat.mod_eq_of_lt (by omega)
        rw [hval]
        omega
      · exact ⟨hlt, hlower⟩
    · split_ifs with hlower
      · have hval : (Fin.ofNat 0x110000 (c.val - 0x20)).val = c.val - 0x20 :=
          Nat.mod_eq_of_lt (by omega)
        rw [Bool.eq_iff_iff]
        simp only [CodePoint.isSpace, Bool.or_eq_true, Bool.and_eq_true,
          decide_eq_true_eq, beq_iff_eq, hval]
        omega
      · rfl
  · have hspecial : upper special [c] = special c := by
      rw [upper_singleton, if_neg (by omega)]
    rw [hspecial]
    exact ⟨h.ne_nil c hge, h.fixed c hge, h.isSpace c hge⟩

/-- Capitals are capitals already. -/
theorem Capitals.upper_upper (h : Capitals special) (s : PyStr) :
    upper special (upper special s) = upper special s := by
  induction s with
  | nil => rfl
  | cons c s ih =>
    have hcons : upper special (c :: s) = upper special [c] ++ upper special s := upper_append [c] s
    rw [hcons, upper_append, (h.upper_char c).2.1, ih]

/-- The capitals of a trimmed text are trimmed. -/
theorem Capitals.trimmed_upper (h : Capitals special) (hs : Trimmed s) :
    Trimmed (upper special s) := by
  constructor
  · cases s with
    | nil => exact fun c hc => nomatch hc
    | cons first rest =>
      intro c hc
      have hcons : upper special (first :: rest) = upper special [first] ++ upper special rest :=
        upper_append [first] rest
      rw [hcons, List.head?_append_of_ne_nil _ (h.upper_char first).1] at hc
      rw [(h.upper_char first).2.2 c (List.mem_of_mem_head? hc)]
      exact hs.1 first rfl
  · rcases List.eq_nil_or_concat s with rfl | ⟨front, last, rfl⟩
    · exact fun c hc => nomatch hc
    · intro c hc
      rw [List.concat_eq_append] at hs hc
      rw [upper_append, List.getLast?_append_of_ne_nil _ (h.upper_char last).1] at hc
      rw [(h.upper_char last).2.2 c (List.mem_of_mem_getLast? hc)]
      exact hs.2 last List.getLast?_concat

/-- The capitals of a trimmed text are trimmed. -/
theorem Capitals.strip_upper_strip (h : Capitals special) (s : PyStr) :
    strip (upper special (strip s)) = upper special (strip s) :=
  (h.trimmed_upper (trimmed_strip s)).strip_eq

/-- A text with characters has capitals. -/
theorem Capitals.upper_ne_nil (h : Capitals special) (hs : s ≠ []) : upper special s ≠ [] := by
  obtain ⟨c, t, rfl⟩ := List.exists_cons_of_ne_nil hs
  have hcons : upper special (c :: t) = upper special [c] ++ upper special t := upper_append [c] t
  rw [hcons]
  exact List.append_ne_nil_of_left_ne_nil (h.upper_char c).1 _

/-! ## Repetitions -/

section EraseDups

variable {α : Type*} [BEq α] [LawfulBEq α] {l : List α}

/-- A list without its repetitions repeats nothing. -/
theorem nodup_eraseDups (l : List α) : l.eraseDups.Nodup := by
  induction hn : l.length using Nat.strong_induction_on generalizing l with
  | _ n ih =>
    cases l with
    | nil => exact List.nodup_nil
    | cons a l =>
      have hlt : (l.filter fun b => !b == a).length < n := by
        have hle := List.length_filter_le (fun b => !b == a) l
        rw [List.length_cons] at hn
        omega
      rw [List.eraseDups_cons, List.nodup_cons]
      refine ⟨fun hmem => ?_, ih _ hlt _ rfl⟩
      have hfilter := (List.mem_filter.1 (List.mem_eraseDups.1 hmem)).2
      rw [beq_self_eq_true] at hfilter
      exact Bool.false_ne_true hfilter

/-- A list that repeats nothing is without repetitions. -/
theorem eraseDups_of_nodup (h : l.Nodup) : l.eraseDups = l := by
  induction l with
  | nil => rfl
  | cons a l ih =>
    obtain ⟨ha, hl⟩ := List.nodup_cons.1 h
    have hfilter : (l.filter fun b => !b == a) = l := by
      refine List.filter_eq_self.2 fun b hb => ?_
      have hne : b ≠ a := fun heq => ha (heq ▸ hb)
      rw [beq_eq_false_iff_ne.2 hne]
      rfl
    rw [List.eraseDups_cons, hfilter, ih hl]

end EraseDups

end MarketDataGateway.Lib
