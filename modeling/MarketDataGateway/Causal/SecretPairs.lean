import MarketDataGateway.Causal.Sanitize

/-!
# Keys with their values

The last pattern of `sanitize`: a key, a colon or an equals sign, and a value. What a match makes of
a value that follows a text does not depend on the value, but for where the match ends
(`secretPair_append`). Matches hold no comma and no semicolon.
-/

namespace MarketDataGateway.Causal

open Lib

variable {isWord : CodePoint → Bool} {prev : Option CodePoint} {s t u v w x y z b rest : PyStr}
  {c d e f : CodePoint}
  {n : ℕ}

/-! ## What follows a key -/

/-- What is dropped ends in the first list, if not all of it is dropped. -/
theorem dropWhile_append_of_ne_nil {α : Type} {q : α → Bool} {l m : List α}
    (h : l.dropWhile q ≠ []) :
    (l ++ m).dropWhile q = l.dropWhile q ++ m := by
  rw [List.dropWhile_append]
  have hempty : (l.dropWhile q).isEmpty = false := by
    rwa [Bool.eq_false_iff, ne_eq, List.isEmpty_iff]
  rw [hempty]
  rfl

/-- What is dropped goes on in the second list, if all of the first is. -/
theorem dropWhile_append_of_eq_nil {α : Type} {q : α → Bool} {l m : List α}
    (h : l.dropWhile q = []) :
    (l ++ m).dropWhile q = m.dropWhile q := by
  rw [List.dropWhile_append, h]
  rfl

/-- A character of a value is no space. -/
theorem isSpace_of_isValueChar (hc : isValueChar c = true) : c.isSpace = false := by
  unfold isValueChar at hc
  simp only [Bool.not_eq_true', Bool.or_eq_false_iff] at hc
  exact hc.1.1

/-- A separator is no space. -/
theorem isSpace_of_isSeparator (hc : isSeparator c = true) : c.isSpace = false := by
  unfold isSeparator at hc
  rw [Bool.or_eq_true, decide_eq_true_eq, decide_eq_true_eq] at hc
  rcases hc with rfl | rfl
  · decide
  · decide

/-- White space, a separator, white space and a value are read. -/
theorem exists_of_pairRest (h : pairRest s = some rest) :
    ∃ x separator y v, s = x ++ separator :: (y ++ (v ++ rest)) ∧
    IsSpaces x ∧ isSeparator separator = true ∧ IsSpaces y ∧ v ≠ [] ∧ ∀ c ∈ v,
    isValueChar c = true := by
  unfold pairRest at h
  split at h
  · exact nomatch h
  · rename_i separator after hdrop
    dsimp only at h
    split_ifs at h with hpair
    obtain rfl := Option.some.inj h
    obtain ⟨hseparator, hhead⟩ := Bool.and_eq_true_iff.1 hpair
    have hsplit := List.takeWhile_append_dropWhile (p := CodePoint.isSpace) (l := s)
    rw [hdrop] at hsplit
    refine ⟨s.takeWhile CodePoint.isSpace, separator, after.takeWhile CodePoint.isSpace,
      (after.dropWhile CodePoint.isSpace).takeWhile isValueChar, ?_,
      fun c hc => List.mem_takeWhile_imp hc, hseparator,
      fun c hc => List.mem_takeWhile_imp hc, ?_, fun c hc => List.mem_takeWhile_imp hc⟩
    · rw [List.takeWhile_append_dropWhile, List.takeWhile_append_dropWhile, hsplit]
    · cases hvalue : after.dropWhile CodePoint.isSpace with
      | nil =>
        rw [hvalue] at hhead
        exact nomatch hhead
      | cons c v =>
        rw [hvalue] at hhead
        rw [List.takeWhile_cons, show isValueChar c = true from hhead]
        exact List.cons_ne_nil _ _

/-- What is read holds no comma and no semicolon. -/
theorem exists_of_pairRest_clean (h : pairRest s = some rest) :
    ∃ x, s = x ++ rest ∧ x ≠ [] ∧ ∀ c ∈ x, c ≠ char ',' ∧ c ≠ char ';' := by
  obtain ⟨x, separator, y, v, rfl, hx, hseparator, hy, -, hv⟩ := exists_of_pairRest h
  have hspace {c : CodePoint} (hc : c.isSpace = true) : c ≠ char ',' ∧ c ≠ char ';' :=
    ⟨fun heq => absurd (heq ▸ hc) (by decide), fun heq => absurd (heq ▸ hc) (by decide)⟩
  have hvalue {c : CodePoint} (hc : isValueChar c = true) : c ≠ char ',' ∧ c ≠ char ';' := by
    unfold isValueChar at hc
    simp only [Bool.not_eq_true', Bool.or_eq_false_iff, decide_eq_false_iff_not] at hc
    exact ⟨hc.1.2, hc.2⟩
  have hbetween : separator ≠ char ',' ∧ separator ≠ char ';' :=
    ⟨fun heq => absurd (heq ▸ hseparator) (by decide),
      fun heq => absurd (heq ▸ hseparator) (by decide)⟩
  refine ⟨x ++ separator :: (y ++ v), ?_,
    List.append_ne_nil_of_right_ne_nil _ (List.cons_ne_nil _ _), fun c hc => ?_⟩
  · rw [List.append_assoc, List.cons_append, List.append_assoc]
  · simp only [List.mem_append, List.mem_cons] at hc
    rcases hc with hc | rfl | hc | hc
    · exact hspace (hx c hc)
    · exact hbetween
    · exact hspace (hy c hc)
    · exact hvalue (hv c hc)

/-- The probe that stands for a value. -/
def probe : PyStr := [char ')']

/-- A value that follows `w` is read as the probe is: neither is, or both are no part of the match,
or both end it. -/
def SameReading (w v z : PyStr) : Prop :=
  (pairRest (w ++ probe) = none ∧ pairRest (w ++ (v ++ z)) = none) ∨
    (∃ l, l.length ≤ w.length ∧ pairRest (w ++ probe) = some (l ++ probe) ∧
      pairRest (w ++ (v ++ z)) = some (l ++ (v ++ z))) ∨
    (pairRest (w ++ probe) = some [] ∧ pairRest (w ++ (v ++ z)) = some z)

/-- No character of a value follows. -/
def EndsValue (z : PyStr) : Prop := ∀ c ∈ z.head?, isValueChar c = false

/-- A value is dropped up to what ends it. -/
theorem dropWhile_value (hv : ∀ c ∈ v, isValueChar c = true) (hz : EndsValue z) :
    (v ++ z).dropWhile isValueChar = z := by
  rw [List.dropWhile_append_of_pos hv]
  cases z with
  | nil => rfl
  | cons c z => rw [List.dropWhile_cons, hz c rfl]; rfl

/-- No spaces stand before a value. -/
theorem dropWhile_isSpace_value (hv : ∀ c ∈ v, isValueChar c = true) (hne : v ≠ []) (z : PyStr) :
    (v ++ z).dropWhile CodePoint.isSpace = v ++ z := by
  obtain ⟨c, v, rfl⟩ := List.exists_cons_of_ne_nil hne
  rw [List.cons_append, List.dropWhile_cons, isSpace_of_isValueChar (hv c List.mem_cons_self)]
  rfl

/-- The probe is a value. -/
theorem isValueChar_probe : ∀ c ∈ probe, isValueChar c = true := by
  have h : probe.all isValueChar = true := by decide
  exact List.all_eq_true.1 h

/-- The probe has characters. -/
theorem probe_ne_nil : probe ≠ [] := List.cons_ne_nil _ _

/-- What comes after a pair, by its separator. -/
theorem pairRest_eq {separator : CodePoint}
    (h : s.dropWhile CodePoint.isSpace = separator :: rest) : pairRest s =
    if isSeparator separator && (rest.dropWhile CodePoint.isSpace).head?.any isValueChar then
      some ((rest.dropWhile CodePoint.isSpace).dropWhile isValueChar)
    else none := by
  unfold pairRest
  rw [h]

/-- A value is read as the probe is, where it does not begin the reading: it is there, or something
of the value stands before it; and if it is a separator, then another character stands before it. -/
theorem sameReading (hv : ∀ c ∈ v, isValueChar c = true) (hz : EndsValue z)
    (hfirst : v.head?.any isSeparator = false ∧ v ≠ [] ∨ w.dropWhile CodePoint.isSpace ≠ [])
    (hne : v ≠ [] ∨ ∃ c, w.getLast? = some c ∧ c.isSpace = false ∧ isSeparator c = false) :
    SameReading w v z := by
  have hprobe : isSeparator (char ')') = false := by decide
  -- The value stands for the separator, behind it, or behind some of the value that is there.
  cases hw : w.dropWhile CodePoint.isSpace with
  | nil =>
    obtain ⟨hhead, hvne⟩ := hfirst.resolve_right fun h => h hw
    obtain ⟨c, v, rfl⟩ := List.exists_cons_of_ne_nil hvne
    refine .inl ⟨?_, ?_⟩
    · have hdrop : (w ++ probe).dropWhile CodePoint.isSpace = char ')' :: [] := by
        rw [dropWhile_append_of_eq_nil hw]
        exact dropWhile_isSpace_value isValueChar_probe probe_ne_nil []
      rw [pairRest_eq hdrop, hprobe, Bool.false_and, if_neg Bool.false_ne_true]
    · have hdrop : (w ++ (c :: v ++ z)).dropWhile CodePoint.isSpace = c :: (v ++ z) := by
        rw [dropWhile_append_of_eq_nil hw, dropWhile_isSpace_value hv hvne, List.cons_append]
      have hc : isSeparator c = false := hhead
      rw [pairRest_eq hdrop, hc, Bool.false_and, if_neg Bool.false_ne_true]
  | cons separator after =>
    have hdrop (y : PyStr) : (w ++ y).dropWhile CodePoint.isSpace = separator :: (after ++ y) := by
      rw [dropWhile_append_of_ne_nil (hw ▸ List.cons_ne_nil _ _), hw, List.cons_append]
    by_cases hseparator : isSeparator separator = true
    · cases hafter : after.dropWhile CodePoint.isSpace with
      | nil =>
        -- Nothing of the value stands before it.
        have hvne : v ≠ [] := by
          refine hne.resolve_right fun ⟨c, hlast, hspace, hnot⟩ => ?_
          have hsplit := List.takeWhile_append_dropWhile (p := CodePoint.isSpace) (l := w)
          rw [hw] at hsplit
          rw [← hsplit, List.getLast?_append_of_ne_nil _ (List.cons_ne_nil _ _)] at hlast
          rcases List.eq_nil_or_concat' after with rfl | ⟨front, last, rfl⟩
          · obtain rfl : separator = c := Option.some.inj hlast
            rw [hseparator] at hnot
            exact nomatch hnot
          · rw [← List.cons_append, List.getLast?_concat] at hlast
            obtain rfl := Option.some.inj hlast
            have hspaces := List.dropWhile_eq_nil_iff.1 hafter last
              (List.mem_append_right _ List.mem_cons_self)
            rw [hspaces] at hspace
            exact nomatch hspace
        have hread {v z : PyStr} (hv : ∀ c ∈ v, isValueChar c = true) (hvne : v ≠ [])
          (hz : EndsValue z) :
            pairRest (w ++ (v ++ z)) = some z := by
          obtain ⟨c, v, rfl⟩ := List.exists_cons_of_ne_nil hvne
          rw [pairRest_eq (hdrop _), dropWhile_append_of_eq_nil hafter,
            dropWhile_isSpace_value hv hvne, dropWhile_value hv hz, hseparator, Bool.true_and]
          exact if_pos (hv c List.mem_cons_self)
        refine .inr (.inr ⟨?_, hread hv hvne hz⟩)
        rw [← List.append_nil probe]
        exact hread isValueChar_probe probe_ne_nil fun c hc => nomatch hc
      | cons first more =>
        have hvalue (y : PyStr) : (after ++ y).dropWhile CodePoint.isSpace =
            first :: more ++ y := by
          rw [dropWhile_append_of_ne_nil (hafter ▸ List.cons_ne_nil _ _), hafter]
        by_cases hfirst : isValueChar first = true
        · -- Some of the value is there, so that the rest of it is dropped with that.
          have hread (y : PyStr) : pairRest (w ++ y) =
              some ((first :: more ++ y).dropWhile isValueChar) := by
            rw [pairRest_eq (hdrop y), hvalue, hseparator, Bool.true_and]
            exact if_pos hfirst
          cases hmore : (first :: more).dropWhile isValueChar with
          | nil =>
            refine .inr (.inr ⟨?_, ?_⟩)
            · rw [hread, dropWhile_append_of_eq_nil hmore]
              exact congrArg some (List.dropWhile_eq_nil_iff.2 isValueChar_probe)
            · rw [hread, dropWhile_append_of_eq_nil hmore, dropWhile_value hv hz]
          | cons last left =>
            have hread' (y : PyStr) : pairRest (w ++ y) = some (last :: left ++ y) := by
              rw [hread, dropWhile_append_of_ne_nil (hmore ▸ List.cons_ne_nil _ _), hmore]
            refine .inr (.inl ⟨last :: left, ?_, hread' _, hread' _⟩)
            have hlength := (List.dropWhile_suffix (l := first :: more) isValueChar).length_le
            have hlength' := (List.dropWhile_suffix (l := after) CodePoint.isSpace).length_le
            have hlength'' := (List.dropWhile_suffix (l := w) CodePoint.isSpace).length_le
            rw [hmore] at hlength
            rw [hafter] at hlength'
            rw [hw, List.length_cons] at hlength''
            omega
        · have hread (y : PyStr) : pairRest (w ++ y) = none := by
            rw [pairRest_eq (hdrop y), hvalue, hseparator, Bool.true_and]
            exact if_neg hfirst
          exact .inl ⟨hread _, hread _⟩
    · have hread (y : PyStr) : pairRest (w ++ y) = none := by
        rw [pairRest_eq (hdrop y), Bool.eq_false_iff.2 hseparator, Bool.false_and,
          if_neg Bool.false_ne_true]
      exact .inl ⟨hread _, hread _⟩

/-! ## Matches -/

/-- A key word has characters. -/
theorem keyWords_ne_nil (hu : u ∈ keyWords) : u ≠ [] := by
  have h : keyWords.all (fun u => u ≠ []) = true := by decide
  exact of_decide_eq_true (List.all_eq_true.1 h u hu)

/-- A match is a key and what belongs to it. -/
theorem secretPair_eq_some (h : secretPair isWord prev s = some n) :
    ∃ u ∈ keyWords, ∃ rest, u <+: s.map foldCase ∧ pairRest (s.drop u.length) = some rest ∧
      n = s.length - rest.length := by
  obtain ⟨u, hfind, h⟩ := Option.bind_eq_some_iff.1 h
  obtain ⟨hmem, hprefix⟩ := mem_of_find?_prefix hfind
  split_ifs at h
  obtain ⟨rest, hrest, rfl⟩ := Option.map_eq_some_iff.1 h
  exact ⟨u, hmem, rest, hprefix, hrest, rfl⟩

/-- A pair that matches has characters. -/
theorem sound_secretPair : (secretPair isWord).Sound := by
  intro prev s n h
  obtain ⟨u, -, rest, -, hrest, rfl⟩ := secretPair_eq_some h
  obtain ⟨x, hx, hne, -⟩ := exists_of_pairRest_clean hrest
  have hlength := congrArg List.length hx
  have hpos := List.length_pos_iff.2 hne
  rw [List.length_drop, List.length_append] at hlength
  omega

/-- No match begins with a character that no key begins with. -/
theorem secretPair_eq_none (h : ∀ u ∈ keyWords, u.head? ≠ some (foldCase c))
    (prev : Option CodePoint) (s : PyStr) :
    secretPair isWord prev (c :: s) = none := by
  cases hmatch : secretPair isWord prev (c :: s) with
  | none => rfl
  | some n =>
    obtain ⟨u, hmem, -, hprefix, -⟩ := secretPair_eq_some hmatch
    obtain ⟨first, rest, rfl⟩ := List.exists_cons_of_ne_nil (keyWords_ne_nil hmem)
    rw [List.map_cons, List.cons_prefix_cons] at hprefix
    exact absurd (by rw [List.head?_cons, hprefix.1]) (h _ hmem)

/-- No pair begins with a space. -/
theorem secretPair_of_isSpace (hc : c.isSpace = true) (prev : Option CodePoint) (s : PyStr) :
    secretPair isWord prev (c :: s) = none := by
  have hheads : keyWords.all (fun u => !u.head?.any CodePoint.isSpace) = true := by decide
  refine secretPair_eq_none (fun u hu heq => ?_) prev s
  have hhead := List.all_eq_true.1 hheads u hu
  rw [heq, foldCase_of_isSpace hc, Option.any_some, hc] at hhead
  exact nomatch hhead

/-- A match holds no comma and no semicolon. -/
theorem mem_secretPair (h : secretPair isWord prev s = some n) (hc : c ∈ s.take n) :
    c ≠ char ',' ∧ c ≠ char ';' := by
  obtain ⟨u, hmem, rest, hprefix, hrest, rfl⟩ := secretPair_eq_some h
  obtain ⟨x, hx, -, hclean⟩ := exists_of_pairRest_clean hrest
  have hu : u = (s.take u.length).map foldCase := by
    rw [← List.map_take.symm]
    exact List.prefix_iff_eq_take.1 hprefix
  have hsplit : s = s.take u.length ++ (x ++ rest) := by rw [← hx, List.take_append_drop]
  -- No key word holds one of the two, in capitals or not.
  have hkey (c : CodePoint) (hc : c ∈ s.take u.length) : c ≠ char ',' ∧ c ≠ char ';' := by
    have hkeys : keyWords.all (fun u => u.all fun c => c ≠ char ',' ∧
      c ≠ char ';') = true := by decide
    have hfold : foldCase c ∈ u := hu ▸ List.mem_map_of_mem hc
    have hnot := of_decide_eq_true (List.all_eq_true.1 (List.all_eq_true.1 hkeys u hmem) _ hfold)
    refine ⟨fun heq => hnot.1 ?_, fun heq => hnot.2 ?_⟩
    · rw [heq]
      decide
    · rw [heq]
      decide
  -- What is matched is the key and what follows it.
  have htake : s.take (s.length - rest.length) = s.take u.length ++ x := by
    have hlength := congrArg List.length hsplit
    rw [List.length_append, List.length_append] at hlength
    calc s.take (s.length - rest.length)
        = ((s.take u.length ++ x) ++ rest).take (s.take u.length ++ x).length := by
          rw [List.length_append, List.append_assoc, ← hsplit]
          exact congrArg s.take (by omega)
      _ = s.take u.length ++ x := List.take_left' rfl
  rw [htake, List.mem_append] at hc
  exact hc.elim (hkey c) (hclean c)

/-- A value that follows a text is matched as the probe is: before both of them there is a character
that is no part of a key, and what follows the key reads them the same way. -/
theorem secretPair_append (hf : ∀ u ∈ keyWords, foldCase f ∉ u) (hword : isWord f = false)
    (hprobe : b ++ probe = t ++ f :: z) (hvalue : b ++ (v ++ rest) = t ++ f :: y)
    (hlength : t.length ≤ b.length)
    (hsame : ∀ k ≤ t.length, SameReading (b.drop k) v rest) (prev : Option CodePoint) :
    secretPair isWord prev (b ++ (v ++ rest)) = (secretPair isWord prev (b ++ probe)).map fun n =>
      if n ≤ b.length then n else b.length + v.length := by
  unfold secretPair
  rw [show (b ++ probe).map foldCase = t.map foldCase ++ foldCase f :: z.map foldCase by
      rw [hprobe, List.map_append, List.map_cons],
    show (b ++ (v ++ rest)).map foldCase = t.map foldCase ++ foldCase f :: y.map foldCase by
      rw [hvalue, List.map_append, List.map_cons],
    find?_prefix_append_cons hf, find?_prefix_append_cons hf, Option.map_bind]
  refine Option.bind_congr fun u hfind => ?_
  obtain ⟨hmem, hprefix⟩ := mem_of_find?_prefix hfind
  have hu : u.length ≤ t.length := by
    have hu := hprefix.length_le
    rwa [List.length_map] at hu
  have hpos := List.length_pos_iff.2 (keyWords_ne_nil hmem)
  have hhead (y : PyStr) : (t ++ f :: y).head? = t.head? :=
    List.head?_append_of_ne_nil t (List.length_pos_iff.1 (by omega))
  have htake (y : PyStr) : (t ++ f :: y).take u.length = t.take u.length :=
    List.take_append_of_le_length hu
  have hnext (y : PyStr) : ((t ++ f :: y).drop u.length).head?.any isWord =
      (t.drop u.length).head?.any isWord := by
    rw [List.drop_append_of_le_length hu]
    exact head?_any_append_cons hword
  -- The boundaries of the key lie before what differs.
  have hbounds : (boundary isWord prev (b ++ (v ++ rest)).head? &&
      boundary isWord ((b ++ (v ++ rest)).take u.length).getLast?
      ((b ++ (v ++ rest)).drop u.length).head?) =
      (boundary isWord prev (b ++ probe).head? &&
        boundary isWord ((b ++ probe).take u.length).getLast?
        ((b ++ probe).drop u.length).head?) := by
    rw [hprobe, hvalue]
    unfold boundary
    rw [hhead, hhead, htake, htake, hnext, hnext]
  dsimp only [Function.comp]
  rw [hbounds]
  by_cases hin : (boundary isWord prev (b ++ probe).head? &&
      boundary isWord ((b ++ probe).take u.length).getLast?
      ((b ++ probe).drop u.length).head?) = true
  · rw [if_pos hin, if_pos hin, List.drop_append_of_le_length (by omega),
      List.drop_append_of_le_length (by omega), List.length_append,
      List.length_append, List.length_append]
    have hprobe : probe.length = 1 := rfl
    -- Behind the key the value is read as the probe is.
    rcases hsame u.length hu with ⟨hnone, hnone'⟩ | ⟨l, hl, hsome, hsome'⟩ | ⟨hsome, hsome'⟩
    · rw [hnone, hnone']
      rfl
    · rw [hsome, hsome', Option.map_some, Option.map_some, Option.map_some, List.length_append,
        List.length_append, List.length_append, hprobe, if_pos (by omega)]
      exact congrArg some (by omega)
    · rw [hsome, hsome', Option.map_some, Option.map_some, Option.map_some, hprobe, List.length_nil,
        if_neg (by omega)]
      exact congrArg some (by omega)
  · rw [if_neg hin, if_neg hin]
    rfl

end MarketDataGateway.Causal
