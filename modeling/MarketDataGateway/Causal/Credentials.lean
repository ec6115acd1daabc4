import Mathlib.Data.List.Find
import MarketDataGateway.Causal.SecretPairs

/-!
# Credentials in reports

Whether `sanitize` hides the credential that follows a key. Left of the credential stands a divider,
a separator or the end of a substitute, with white space behind it; each pattern then works on what
is before the divider, on the credential and on what follows by themselves (`exists_withoutAll`).
The last pattern takes the credential if it `Awaits` a value.

A key that an earlier match has taken, a scheme word, a comma behind a URL and the rest of a private
key's header each keep it from that.
-/

namespace MarketDataGateway.Causal

open Lib

variable {isWord : CodePoint → Bool} {p : Pattern} {ps : List Pattern} {prev : Option CodePoint}
  {a b s u v w x y z A : PyStr} {c d e f : CodePoint}

/-! ## Single patterns -/

/-- White space follows, or nothing. -/
def StartsBlank (z : PyStr) : Prop := ∀ c ∈ z.head?, c.isSpace = true

/-- What begins with a space, or is empty, begins blank. -/
theorem startsBlank_of_all (h : z.head?.all CodePoint.isSpace = true) : StartsBlank z := by
  intro c hc
  rw [Option.mem_def.1 hc] at h
  exact h

/-- A text that begins in the header of a private key goes on in this one. -/
def completesPrivateKey (z : PyStr) : Bool :=
  privateKeyRe.prefixes.any fun u => u.drop (text "-----BEGIN").length <+: z

/-- No pattern matches nothing. -/
theorem matcher_nil (prev : Option CodePoint) : p.matcher isWord prev [] = none := by
  cases h : p.matcher isWord prev [] with
  | none => rfl
  | some n =>
    have hn := p.sound prev [] n h
    rw [List.length_nil] at hn
    omega

/-- Every pattern is local to nothing. -/
theorem local_nil {m : Matcher CodePoint} : m.Local x [] :=
  fun a b prev _ _ => by rw [List.append_nil]

/-- No match of a pattern begins where a value ends. -/
theorem matcher_of_endsValue (hp : p ∈ urlRe :: tokenPatterns) (hz : EndsValue z)
    (prev : Option CodePoint) :
    p.matcher isWord prev z = none := by
  cases z with
  | nil => exact matcher_nil prev
  | cons c z =>
    have hc : isValueChar c = false := hz c rfl
    unfold isValueChar at hc
    rw [Bool.not_eq_false', Bool.or_eq_true, Bool.or_eq_true, decide_eq_true_eq,
      decide_eq_true_eq, or_assoc] at hc
    have hheads : (urlRe :: tokenPatterns).all (fun p => (text ",;").all fun c =>
      p.prefixes.all fun u =>
        decide (u.head? ≠ some (p.fold c))) = true := by
      decide
    have hnone (hc : c ∈ text ",;") : p.matcher isWord prev (c :: z) = none :=
      Pattern.matcher_eq_none (fun u hu => of_decide_eq_true (List.all_eq_true.1
        (List.all_eq_true.1 (List.all_eq_true.1 hheads p hp) c hc) u hu)) prev z
    rcases hc with hc | rfl | rfl
    · exact matcher_of_isSpace hp hc prev z
    · exact hnone (by decide)
    · exact hnone (by decide)

/-- What begins blank ends a value. -/
theorem StartsBlank.endsValue (hz : StartsBlank z) : EndsValue z := by
  intro c hc
  unfold isValueChar
  rw [hz c hc, Bool.true_or, Bool.true_or, Bool.not_true]

/-- What follows a value is substituted by itself. -/
theorem subFrom_eq_sub {r : PyStr} (hp : p ∈ urlRe :: tokenPatterns) (hz : EndsValue z)
    (prev : Option CodePoint) :
    subFrom (p.matcher isWord) r prev 0 z = sub (p.matcher isWord) r z :=
  subFrom_prev (matcher_of_endsValue hp hz) prev none

/-- What follows a value still begins as it did. -/
theorem head?_sub {r : PyStr} (hp : p ∈ urlRe :: tokenPatterns) (hz : EndsValue z) :
    (sub (p.matcher isWord) r z).head? = z.head? := by
  have hnone : p.matcher isWord none z = none := matcher_of_endsValue hp hz none
  cases z with
  | nil => rfl
  | cons c z =>
    unfold sub
    rw [subFrom_cons_of_none hnone]
    rfl

/-- White space is kept. -/
theorem subFrom_spaces {r : PyStr} (hp : p ∈ urlRe :: tokenPatterns) (hb : IsSpaces b) (z : PyStr)
    (prev : Option CodePoint) : subFrom (p.matcher isWord) r prev 0 (b ++ z) =
      b ++ subFrom (p.matcher isWord) r (following prev b) 0 z :=
  subFrom_append_of_none (fun c hc prev s => matcher_of_isSpace hp (hb c hc) prev s) z prev

/-- A character that a pattern cannot read divides the text. -/
theorem sub_append_cons {r : PyStr} (hf : p.Foreign isWord f) (x z : PyStr) :
    sub (p.matcher isWord) r (x ++ f :: z) =
      sub (p.matcher isWord) r x ++ f :: subFrom (p.matcher isWord) r (some f) 0 z := by
  rw [sub_append p.sound (Pattern.local_of_foreign hf x z),
    subFrom_cons_of_none (hf.matcher_eq_none _ z)]

/-- Where no header goes on in what follows, this makes no difference to the headers. -/
theorem local_privateKey_of_prefix
    (h : ∀ a b u, x = a ++ b → u ∈ privateKeyRe.prefixes → u <+: b ++ z → u <+: b) :
    (privateKeyRe.matcher isWord).Local x z := by
  intro a b prev hab _
  have hfind : (privateKeyRe.prefixes.find? fun u => decide (u <+: (b ++ z).map id)) =
      privateKeyRe.prefixes.find? fun u => decide (u <+: b.map id) := by
    rw [List.map_id, List.map_id]
    exact List.find?_congr fun u hu =>
      decide_eq_decide.2 ⟨h a b u hab hu, fun hprefix => hprefix.trans (List.prefix_append _ _)⟩
  have hrun (l : PyStr) : l.takeWhile privateKeyRe.accepts = [] := by
    cases l with
    | nil => rfl
    | cons c l => rfl
  unfold Pattern.matcher
  show (privateKeyRe.prefixes.find? fun u => decide (u <+: (b ++ z).map id)).bind _ =
    (privateKeyRe.prefixes.find? fun u => decide (u <+: b.map id)).bind _
  rw [hfind]
  refine Option.bind_congr fun u _ => ?_
  rw [hrun, hrun]
  rfl

/-- The header of a private key does not begin in a value and end behind it. -/
theorem local_privateKey (hv : ∀ c ∈ v, c.isSpace = false) (hz : EndsValue z)
    (hcomplete : completesPrivateKey z = false) : (privateKeyRe.matcher isWord).Local v z := by
  refine local_privateKey_of_prefix fun a b u hab hu h => ?_
  have hb : ∀ c ∈ b, c.isSpace = false := fun c hc => hv c (hab ▸ List.mem_append_right _ hc)
  by_contra hnot
  have hlt : b.length < u.length := by
    by_contra hle
    exact hnot (List.prefix_of_prefix_length_le h (List.prefix_append _ _) (by omega))
  obtain ⟨rest, rfl⟩ := List.prefix_of_prefix_length_le (List.prefix_append b z) h hlt.le
  have hrest : rest <+: z := (List.prefix_append_right_inj b).1 h
  obtain ⟨first, rest, rfl⟩ : ∃ first more, rest = first :: more := by
    refine List.exists_cons_of_ne_nil fun hnil => ?_
    rw [hnil, List.append_nil] at hlt
    exact lt_irrefl _ hlt
  -- A header has no comma and no semicolon.
  have hfirst : first.isSpace = true := by
    have hclean : privateKeyRe.prefixes.all (fun u => u.all fun c =>
        c.isSpace || isValueChar c) = true := by
      decide
    have hfirst := List.all_eq_true.1 (List.all_eq_true.1 hclean _ hu) first
      (List.mem_append_right _ List.mem_cons_self)
    obtain ⟨left, rfl⟩ := hrest
    rwa [hz first rfl, Bool.or_false] at hfirst
  -- The first white space of a header is behind `-----BEGIN`.
  have hheaders : privateKeyRe.prefixes.all (fun u =>
      (u.takeWhile fun c => !c.isSpace).length == (text "-----BEGIN").length) = true := by
    decide
  have hlength := beq_iff_eq.1 (List.all_eq_true.1 hheaders _ hu)
  have htake : (b ++ first :: rest).takeWhile (fun c => !c.isSpace) = b := by
    rw [List.takeWhile_append_of_pos fun c hc => by rw [hb c hc,
      Bool.not_false], List.takeWhile_cons, hfirst]
    exact List.append_nil b
  rw [htake] at hlength
  have hcompletes : completesPrivateKey z = true := by
    unfold completesPrivateKey
    refine List.any_eq_true.2 ⟨b ++ first :: rest, hu, decide_eq_true ?_⟩
    rw [← hlength, List.drop_left]
    exact hrest
  rw [hcomplete] at hcompletes
  exact nomatch hcompletes

/-- No pattern reads on over white space to the end. -/
theorem local_spaces (hwords : WordChars isWord) (hp : p ∈ urlRe :: tokenPatterns)
    (hb : IsSpaces b) (x : PyStr) :
    (p.matcher isWord).Local x b := by
  have hforeign (hp : p ∈ [urlRe, accessKeyRe, hubTokenRe, secretKeyRe]) :
      (p.matcher isWord).Local x b := by
    cases b with
    | nil => exact local_nil
    | cons f b =>
      exact Pattern.local_of_foreign (foreign_of_isSpace hwords hp (hb f List.mem_cons_self)) x b
  simp only [tokenPatterns, List.mem_cons, List.not_mem_nil, or_false] at hp
  rcases hp with rfl | rfl | rfl | rfl | rfl
  · exact hforeign (.head _)
  · exact hforeign (.tail _ (.head _))
  · exact hforeign (.tail _ (.tail _ (.head _)))
  · exact hforeign (.tail _ (.tail _ (.tail _ (.head _))))
  · refine local_privateKey_of_prefix fun a w u _ hu h => ?_
    by_contra hnot
    have hlt : w.length < u.length := by
      by_contra hle
      exact hnot (List.prefix_of_prefix_length_le h (List.prefix_append _ _) (by omega))
    obtain ⟨rest, rfl⟩ := List.prefix_of_prefix_length_le (List.prefix_append w b) h hlt.le
    have hrest : rest <+: b := (List.prefix_append_right_inj w).1 h
    obtain ⟨front, last, rfl⟩ := (List.eq_nil_or_concat' rest).resolve_left fun hnil => by
      rw [hnil, List.append_nil] at hlt
      exact lt_irrefl _ hlt
    -- The last character of a header is a dash.
    have hheaders : privateKeyRe.prefixes.all (fun u => !u.getLast?.any CodePoint.isSpace) =
      true := by decide
    have hlast := List.all_eq_true.1 hheaders _ hu
    rw [← List.append_assoc, List.getLast?_concat, Option.any_some,
      hb last (hrest.subset (List.mem_append_right _ List.mem_cons_self))] at hlast
    cases hlast

/-- A token has nothing in it that ends a value, but for the header of a private key. -/
theorem foreign_of_not_isValueChar (hwords : WordChars isWord)
    (hp : p ∈ [accessKeyRe, hubTokenRe, secretKeyRe]) (hf : isValueChar f = false) :
    p.Foreign isWord f := by
  by_cases hspace : f.isSpace = true
  · exact foreign_of_isSpace hwords (List.mem_cons_of_mem _ hp) hspace
  · have hmem : f ∈ text ",;" := by
      unfold isValueChar at hf
      rw [Bool.not_eq_false', Bool.or_eq_true, Bool.or_eq_true, decide_eq_true_eq,
        decide_eq_true_eq, or_assoc] at hf
      rcases hf.resolve_left hspace with rfl | rfl
      · decide
      · decide
    have hforeign : [accessKeyRe, hubTokenRe, secretKeyRe].all (fun p => (text ",;").all fun f =>
        p.prefixes.all (fun u => decide (p.fold f ∉ u)) && !p.accepts f) = true := by
      decide
    have hword : (text ",;").all (fun f => decide (f.val < 0x80) &&
        !((0x30 ≤ f.val && f.val ≤ 0x39) || (0x41 ≤ f.val && f.val ≤ 0x5A) ||
          (0x61 ≤ f.val && f.val ≤ 0x7A) || f.val == 0x5F)) = true := by
      decide
    obtain ⟨hprefixes, haccepts⟩ :=
      Bool.and_eq_true_iff.1 (List.all_eq_true.1 (List.all_eq_true.1 hforeign p hp) f hmem)
    obtain ⟨hascii, hword⟩ := Bool.and_eq_true_iff.1 (List.all_eq_true.1 hword f hmem)
    refine ⟨fun u hu => of_decide_eq_true (List.all_eq_true.1 hprefixes u hu),
      Bool.not_eq_true' _ |>.mp haccepts, ?_⟩
    rw [hwords.ascii f (of_decide_eq_true hascii)]
    exact Bool.not_eq_true' _ |>.mp hword

/-- What follows a value in a text makes no difference to the tokens in the value. -/
theorem local_token (hwords : WordChars isWord) (hp : p ∈ tokenPatterns)
    (hv : ∀ c ∈ v, isValueChar c = true)
    (hz : EndsValue z) (hcomplete : completesPrivateKey z = false) :
    (p.matcher isWord).Local v z := by
  have hforeign (hp : p ∈ [accessKeyRe, hubTokenRe, secretKeyRe]) :
      (p.matcher isWord).Local v z := by
    cases z with
    | nil => exact local_nil
    | cons f z =>
      exact Pattern.local_of_foreign (foreign_of_not_isValueChar hwords hp (hz f rfl)) v z
  simp only [tokenPatterns, List.mem_cons, List.not_mem_nil, or_false] at hp
  rcases hp with rfl | rfl | rfl | rfl
  · exact hforeign (.head _)
  · exact hforeign (.tail _ (.head _))
  · exact hforeign (.tail _ (.tail _ (.head _)))
  · exact local_privateKey (fun c hc => isSpace_of_isValueChar (hv c hc)) hz hcomplete

/-! ## The tokens -/

/-- What is written for a secret is a value. -/
theorem isValueChar_redacted : ∀ c ∈ redactedUrl ++ redactedSecret, isValueChar c = true := by
  have h : (redactedUrl ++ redactedSecret).all isValueChar = true := by decide
  exact List.all_eq_true.1 h

/-- A pattern leaves it open whether what follows completes a header. -/
theorem completesPrivateKey_sub {m : Matcher CodePoint} {r : PyStr}
    (hr : r = redactedUrl ∨ r = redactedSecret)
    (h : completesPrivateKey z = false) : completesPrivateKey (sub m r z) = false := by
  rw [Bool.eq_false_iff] at h ⊢
  intro hcompletes
  obtain ⟨u, hu, hprefix⟩ := List.any_eq_true.1 hcompletes
  obtain ⟨out, hout⟩ := of_decide_eq_true hprefix
  have hheaders : privateKeyRe.prefixes.all (fun u => u.all fun c =>
      decide (redactedUrl.head? ≠ some c ∧ redactedSecret.head? ≠ some c)) = true := by
    decide
  have hhead (c : CodePoint) (hc : c ∈ u.drop (text "-----BEGIN").length) : r.head? ≠ some c := by
    have hc := of_decide_eq_true
      (List.all_eq_true.1 (List.all_eq_true.1 hheaders u hu) c (List.mem_of_mem_drop hc))
    rcases hr with rfl | rfl
    · exact hc.1
    · exact hc.2
  have hne : r ≠ [] := by
    rcases hr with rfl | rfl
    · decide
    · decide
  obtain ⟨s', hs'⟩ := exists_of_subFrom_eq hne hhead hout.symm
  exact h (List.any_eq_true.2 ⟨u, hu, decide_eq_true ⟨s', hs'.symm⟩⟩)

/-- Substitute the tokens of patterns. -/
def withoutAll (isWord : CodePoint → Bool) (ps : List Pattern) (s : PyStr) : PyStr :=
  ps.foldl (fun sanitized p => sub (p.matcher isWord) redactedSecret sanitized) s

/-- A text is without its tokens when the URLs are redacted, and then the tokens. -/
theorem withoutTokens_eq (s : PyStr) :
    withoutTokens isWord s =
    withoutAll isWord tokenPatterns (sub (urlRe.matcher isWord) redactedUrl s) := rfl

/-- What ends a value still does without the tokens. -/
theorem endsValue_withoutAll (hps : ∀ p ∈ ps, p ∈ tokenPatterns) (hz : EndsValue z) :
    EndsValue (withoutAll isWord ps z) := by
  induction ps generalizing z with
  | nil => exact hz
  | cons p ps ih =>
    obtain ⟨hp, hps⟩ := List.forall_mem_cons.1 hps
    refine ih hps fun c hc => hz c ?_
    rwa [head?_sub (List.mem_cons_of_mem _ hp) hz] at hc

/-- Before a divider with white space behind it, the tokens are substituted by themselves. -/
theorem withoutAll_lead (hwords : WordChars isWord)
    (hps : ∀ p ∈ ps, p ∈ tokenPatterns) (he : e ∈ dividers)
    (hb : IsSpaces b) (A : PyStr) :
    withoutAll isWord ps (A ++ e :: b) = withoutAll isWord ps A ++ e :: b := by
  induction ps generalizing A with
  | nil => rfl
  | cons p ps ih =>
    obtain ⟨hp, hps⟩ := List.forall_mem_cons.1 hps
    have hspaces : subFrom (p.matcher isWord) redactedSecret (some e) 0 b = b := by
      have h := @subFrom_spaces isWord p b redactedSecret (List.mem_cons_of_mem _ hp) hb [] (some e)
      rwa [List.append_nil, subFrom_nil, List.append_nil] at h
    show withoutAll isWord ps (sub _ _ (A ++ e :: b)) = withoutAll isWord ps (sub _ _ A) ++ e :: b
    rw [sub_append_cons (foreign_of_mem_dividers hwords hp he), hspaces, ih hps]

/-- So they are in a value behind the white space, and in what follows it. -/
theorem exists_withoutAll (hwords : WordChars isWord)
    (hps : ∀ p ∈ ps, p ∈ tokenPatterns) (he : e ∈ dividers)
    (hb : IsSpaces b) (hv : ∀ c ∈ v, isValueChar c = true) (hz : EndsValue z)
    (hcomplete : completesPrivateKey z = false) (A : PyStr) :
    ∃ v', (v ≠ [] → v' ≠ []) ∧ (∀ c ∈ v', isValueChar c = true) ∧
      withoutAll isWord ps (A ++ e :: (b ++ (v ++ z))) =
        withoutAll isWord ps A ++ e :: (b ++ (v' ++ withoutAll isWord ps z)) := by
  induction ps generalizing A v z with
  | nil => exact ⟨v, id, hv, rfl⟩
  | cons p ps ih =>
    obtain ⟨hp, hps⟩ := List.forall_mem_cons.1 hps
    have hp' : p ∈ urlRe :: tokenPatterns := List.mem_cons_of_mem _ hp
    have hne : redactedSecret ≠ [] := by decide
    obtain ⟨v', hv', hvalue, heq⟩ :=
      @ih (subFrom (p.matcher isWord) redactedSecret (following (some e) b) 0 v)
      (sub (p.matcher isWord) redactedSecret z) hps
      (fun c hc => (mem_of_mem_subFrom hc).elim (hv c) fun hc =>
        isValueChar_redacted c (List.mem_append_right _ hc))
      (fun c hc => hz c (by rwa [head?_sub hp' hz] at hc))
        (completesPrivateKey_sub (.inr rfl) hcomplete)
      (sub (p.matcher isWord) redactedSecret A)
    refine ⟨v', fun hvne => hv' (subFrom_ne_nil hne hvne), hvalue, ?_⟩
    show withoutAll isWord ps (sub _ _ (A ++ e :: (b ++ (v ++ z)))) = _
    rw [sub_append_cons (foreign_of_mem_dividers hwords hp he), subFrom_spaces hp' hb,
      subFrom_append p.sound (local_token hwords hp hv hz hcomplete) _ (Nat.zero_le _),
      subFrom_eq_sub hp' hz]
    exact heq

/-! ## URLs -/

/-- A space is foreign to a URL. -/
theorem foreign_url_of_isSpace (hwords : WordChars isWord) (hf : f.isSpace = true) :
    urlRe.Foreign isWord f :=
  foreign_of_isSpace hwords (.head _) hf

/-- A URL does not read on over white space. -/
theorem local_url (hwords : WordChars isWord) (hz : StartsBlank z) (x : PyStr) :
    (urlRe.matcher isWord).Local x z := by
  cases z with
  | nil => exact local_nil
  | cons f z => exact Pattern.local_of_foreign (foreign_url_of_isSpace hwords (hz f rfl)) x z

/-- A URL matches up to the first character that it does not have. -/
theorem matcher_url (prev : Option CodePoint) (s : PyStr) : urlRe.matcher isWord prev s =
    (urlRe.prefixes.find? fun u => decide (u <+: s.map foldCase)).bind fun u =>
      if 1 ≤ ((s.drop u.length).takeWhile urlRe.accepts).length then
        some (u.length + ((s.drop u.length).takeWhile urlRe.accepts).length)
      else none := by
  refine Option.bind_congr fun u _ => ?_
  show (if (decide (1 ≤ _) && (!false || _)) = true then _ else none) = _
  rw [Bool.not_false, Bool.true_or, Bool.and_true]
  exact if_congr decide_eq_true_iff rfl rfl

/-- A separator does not stand in the middle of `https://`, where a key stands before it. -/
theorem extends_url (hlast : ∀ d ∈ a.getLast?, foldCase d ≠ char 'p' ∧ foldCase d ≠ char 's')
    (hc : isSeparator c = true) (y : PyStr) :
    (urlRe.matcher isWord).Extends (a ++ [c]) y (y.takeWhile urlRe.accepts).length := by
  intro a' b prev hab hb
  obtain ⟨b, rfl⟩ : ∃ front, b = front ++ [c] := by
    rcases List.eq_nil_or_concat' b with rfl | ⟨front, last, rfl⟩
    · exact absurd rfl hb
    · rw [← List.append_assoc] at hab
      exact ⟨front, by rw [(List.append_inj' hab rfl).2]⟩
  have hab : a = a' ++ b := by
    rw [← List.append_assoc] at hab
    exact (List.append_inj' hab rfl).1
  have hfold : foldCase c = c := by
    unfold isSeparator at hc
    rw [Bool.or_eq_true, decide_eq_true_eq, decide_eq_true_eq] at hc
    rcases hc with rfl | rfl
    · decide
    · decide
  -- A prefix ends before the separator: a `p` or an `s` would have to stand before it.
  have hshort (u z : PyStr) (hu : u ∈ urlRe.prefixes) (h : u <+: (b ++ [c] ++ z).map foldCase) :
      u.length ≤ b.length := by
    by_contra hlt
    have hget (i : ℕ) (hi : i < u.length) : u[i]? = ((b ++ [c] ++ z).map foldCase)[i]? := by
      obtain ⟨rest, hrest⟩ := h
      rw [← hrest, List.getElem?_append_left hi]
    have hplace : u[b.length]? = some c := by
      rw [hget _ (by omega), List.append_assoc, List.map_append,
        List.getElem?_append_right (by rw [List.length_map]), List.length_map, Nat.sub_self,
        List.singleton_append, List.map_cons, List.getElem?_cons_zero, hfold]
    have hprefixes : urlRe.prefixes.all (fun u => (List.range u.length).all fun i =>
        !u[i]?.any isSeparator || decide (0 < i ∧
          (u[i - 1]? = some (char 'p') ∨ u[i - 1]? = some (char 's')))) =
          true := by
      decide
    have hbefore := List.all_eq_true.1 (List.all_eq_true.1 hprefixes u hu) b.length
      (List.mem_range.2 (by omega))
    rw [hplace, Option.any_some, hc, Bool.not_true, Bool.false_or, decide_eq_true_eq] at hbefore
    obtain ⟨hpos, hbefore⟩ := hbefore
    obtain ⟨front, d, rfl⟩ := (List.eq_nil_or_concat' b).resolve_left (List.length_pos_iff.1 hpos)
    have hd : d ∈ a.getLast? := by
      rw [hab, ← List.append_assoc, List.getLast?_concat]
      exact rfl
    have hd' : u[(front ++ [d]).length - 1]? = some (foldCase d) := by
      rw [hget _ (by omega), List.length_append, List.length_singleton, Nat.add_sub_cancel,
        List.append_assoc, List.append_assoc, List.map_append,
        List.getElem?_append_right (by rw [List.length_map]), List.length_map, Nat.sub_self,
        List.singleton_append, List.map_cons, List.getElem?_cons_zero]
    rw [hd', Option.some_inj, Option.some_inj] at hbefore
    obtain ⟨hp, hs⟩ := hlast d hd
    exact hbefore.elim hp hs
  have hmap : (b ++ [c] ++ y).map foldCase = (b ++ [c]).map foldCase ++ y.map foldCase :=
    List.map_append
  -- So the prefix that is found does not depend on what comes after the separator.
  have hfind : (urlRe.prefixes.find? fun u => decide (u <+: (b ++ [c] ++ y).map foldCase)) =
      urlRe.prefixes.find? fun u => decide (u <+: (b ++ [c]).map foldCase) := by
    refine List.find?_congr fun u hu => decide_eq_decide.2 ⟨fun h => ?_, fun h => ?_⟩
    · have hlength := hshort u y hu h
      refine List.prefix_of_prefix_length_le h (hmap ▸ List.prefix_append _ _) ?_
      rw [List.length_map, List.length_append]
      omega
    · exact h.trans (hmap ▸ List.prefix_append _ _)
  rw [matcher_url, matcher_url, hfind, Option.map_bind]
  refine Option.bind_congr fun u hu => ?_
  obtain ⟨hmem, hprefix⟩ := mem_of_find?_prefix hu
  have hlength := hshort u [] hmem (by rwa [List.append_nil])
  have hdrop (z : PyStr) : (b ++ [c] ++ z).drop u.length = b.drop u.length ++ [c] ++ z := by
    rw [List.append_assoc, List.drop_append_of_le_length hlength, List.append_assoc]
  have hdrop' := hdrop []
  rw [List.append_nil, List.append_nil] at hdrop'
  have hlength' : u.length + (b.drop u.length ++ [c]).length = (b ++ [c]).length := by
    rw [List.length_append, List.length_append, List.length_drop, List.length_singleton]
    omega
  have hpos : 1 ≤ (b.drop u.length ++ [c]).length := by
    rw [List.length_append, List.length_singleton]
    omega
  dsimp only [Function.comp]
  rw [hdrop, hdrop', List.takeWhile_append]
  -- The URL goes on after the separator, or ends before it.
  by_cases hall : ((b.drop u.length ++ [c]).takeWhile urlRe.accepts).length =
    (b.drop u.length ++ [c]).length
  · rw [if_pos hall, List.length_append, hall, if_pos (by omega), if_pos hpos,
      Option.map_some, if_pos hlength']
    exact congrArg some (by omega)
  · have hrun := (List.takeWhile_prefix (l := b.drop u.length ++ [c]) urlRe.accepts).length_le
    rw [if_neg hall]
    split_ifs with hrun
    · rw [Option.map_some, if_neg (by omega)]
    · rfl

/-- A separator may be in a URL, but begins none. -/
theorem accepts_url_of_isSeparator (hc : isSeparator c = true) :
    urlRe.accepts c = true ∧ c ∈ dividers ∧
    ∀ u ∈ urlRe.prefixes, u.head? ≠ some (urlRe.fold c) := by
  have hall : (text ":=").all (fun c => decide (urlRe.accepts c = true ∧ c ∈ dividers ∧
      ∀ u ∈ urlRe.prefixes, u.head? ≠ some (urlRe.fold c))) = true := by
    decide
  unfold isSeparator at hc
  rw [Bool.or_eq_true, decide_eq_true_eq, decide_eq_true_eq] at hc
  refine of_decide_eq_true (List.all_eq_true.1 hall c ?_)
  rcases hc with rfl | rfl
  · decide
  · decide

/-- What comes before the end is the last character. -/
theorem following_concat {α : Type} (x : List α) (c : α) (prev : Option α) :
    following prev (x ++ [c]) = some c := by
  rw [following_append, following, following]

/-- What the substitution of URLs leaves of a separator with a value behind it: the separator or the
end of a substitute, which may have taken the beginning of the value. -/
theorem exists_sub_url (hwords : WordChars isWord) (hc : isSeparator c = true) (hb : IsSpaces b)
    (hlast : ∀ d ∈ a.getLast?, foldCase d ≠ char 'p' ∧ foldCase d ≠ char 's') :
    ∃ A e, e ∈ dividers ∧ sub (urlRe.matcher isWord) redactedUrl (a ++ c :: b) = A ++ e :: b ∧
      ∀ v z, v ≠ [] → (∀ c ∈ v, isValueChar c = true) → StartsBlank z →
        ∃ v', (∀ c ∈ v', isValueChar c = true) ∧ (v' ≠ [] ∨ e = char ']' ∧ b = []) ∧
          sub (urlRe.matcher isWord) redactedUrl (a ++ c :: (b ++ (v ++ z))) =
            A ++ e :: (b ++ (v' ++ sub (urlRe.matcher isWord) redactedUrl z)) := by
  obtain ⟨-, hdivider, hheads⟩ := accepts_url_of_isSeparator hc
  have hmem : urlRe ∈ urlRe :: tokenPatterns := .head _
  have hend : redactedUrl = text "[REDACTED_URL" ++ [char ']'] := by decide
  -- The text up to the separator is substituted, and ends in it or in a substitute.
  obtain ⟨A, e, he, hA, hcovered⟩ : ∃ A e, e ∈ dividers ∧
      sub (urlRe.matcher isWord) redactedUrl (a ++ [c]) = A ++ [e] ∧
      ((∃ u, sub (urlRe.matcher isWord) redactedUrl (a ++ [c]) = u ++ redactedUrl) →
      e = char ']') := by
    obtain ⟨u, hu | hu⟩ := exists_subFrom_concat (r := redactedUrl) (@Pattern.sound isWord urlRe)
      (fun prev => Pattern.matcher_eq_none hheads prev []) a none (Nat.zero_le _)
    · refine ⟨u, c, hdivider, hu, fun ⟨u', hu'⟩ => ?_⟩
      rw [hend, ← List.append_assoc] at hu'
      exact List.singleton_inj.1 (List.append_inj' (hu.symm.trans hu') rfl).2
    · refine ⟨u ++ text "[REDACTED_URL", char ']', by decide, ?_, fun _ => rfl⟩
      rw [List.append_assoc, ← hend]
      exact hu
  have hspaces (z : PyStr) : subFrom (urlRe.matcher isWord) redactedUrl (some c) 0 (b ++ z) =
      b ++ subFrom (urlRe.matcher isWord) redactedUrl (following (some c) b) 0 z :=
    subFrom_spaces hmem hb z _
  have hbBlank : StartsBlank b := fun d hd => hb d (List.mem_of_mem_head? hd)
  refine ⟨A, e, he, ?_, fun v z hne hv hz => ?_⟩
  · have hb' := hspaces []
    rw [List.append_nil, subFrom_nil, List.append_nil] at hb'
    rw [← List.singleton_append, ← List.append_assoc,
      sub_append urlRe.sound (local_url hwords hbBlank _), following_concat, hb', hA,
      List.append_assoc, List.singleton_append]
  · have hvalue (prev : Option CodePoint) {w : PyStr} (hw : ∀ c ∈ w, isValueChar c = true) :
        ∀ c ∈ subFrom (urlRe.matcher isWord) redactedUrl prev 0 w, isValueChar c = true :=
      fun c hc => (mem_of_mem_subFrom hc).elim (hw c) fun hc =>
        isValueChar_redacted c (List.mem_append_left _ hc)
    have hsplit (prev : Option CodePoint) (w : PyStr) :
        subFrom (urlRe.matcher isWord) redactedUrl prev 0 (w ++ z) =
          subFrom (urlRe.matcher isWord) redactedUrl prev 0 w ++
          sub (urlRe.matcher isWord) redactedUrl z := by
      rw [subFrom_append urlRe.sound (local_url hwords hz w) prev (Nat.zero_le _),
        subFrom_eq_sub hmem hz.endsValue]
    -- If no URL goes on over the separator, the value is substituted by itself.
    have hwhole : ∃ v', (∀ c ∈ v', isValueChar c = true) ∧ (v' ≠ [] ∨ e = char ']' ∧ b = []) ∧
        (A ++ [e]) ++ subFrom (urlRe.matcher isWord) redactedUrl (some c) 0 (b ++ (v ++ z)) =
          A ++ e :: (b ++ (v' ++ sub (urlRe.matcher isWord) redactedUrl z)) := by
      have hne' : redactedUrl ≠ [] := by decide
      refine ⟨subFrom (urlRe.matcher isWord) redactedUrl (following (some c) b) 0 v, hvalue _ hv,
        .inl (subFrom_ne_nil hne' hne), ?_⟩
      rw [hspaces, hsplit, List.append_assoc, List.singleton_append]
    rw [← List.singleton_append, ← List.append_assoc]
    rcases subFrom_append_of_extends (r := redactedUrl) urlRe.sound
      (@extends_url isWord _ _ hlast hc (b ++ (v ++ z))) none (.inr rfl) with h | ⟨hu, h⟩
    · rw [following_concat] at h
      show ∃ v', _ ∧ _ ∧ subFrom _ _ none 0 _ = _
      rw [h, show subFrom _ _ none 0 (a ++ [c]) = A ++ [e] from hA]
      exact hwhole
    · rw [following_concat] at h
      show ∃ v', _ ∧ _ ∧ subFrom _ _ none 0 _ = _
      rw [h, show subFrom _ _ none 0 (a ++ [c]) = A ++ [e] from hA]
      cases b with
      | cons f b =>
        -- No URL goes on over white space.
        have hf : urlRe.accepts f = false :=
          (foreign_url_of_isSpace hwords (hb f List.mem_cons_self)).notAccepted
        rw [List.cons_append, List.takeWhile_cons, hf]
        exact hwhole
      | nil =>
        -- A URL that goes on takes the beginning of the value, up to what is not of a URL.
        have hz' : z.takeWhile urlRe.accepts = [] := by
          cases z with
          | nil => rfl
          | cons f z =>
            rw [List.takeWhile_cons, (foreign_url_of_isSpace hwords (hz f rfl)).notAccepted]
            rfl
        have hrun : ((v ++ z).takeWhile urlRe.accepts).length =
            (v.takeWhile urlRe.accepts).length := by
          rw [List.takeWhile_append]
          split_ifs with hall
          · rw [hz', List.append_nil, hall]
          · rfl
        have hskip := @subFrom_skip CodePoint (urlRe.matcher isWord) redactedUrl
          (v.takeWhile urlRe.accepts)
          (v.dropWhile urlRe.accepts ++ z) (some c) 0
        rw [Nat.add_zero, ← List.append_assoc, List.takeWhile_append_dropWhile, hsplit] at hskip
        refine ⟨subFrom (urlRe.matcher isWord) redactedUrl
          (following (some c) (v.takeWhile urlRe.accepts)) 0
          (v.dropWhile urlRe.accepts),
            hvalue _ fun c hc => hv c ((List.dropWhile_suffix _).subset hc),
            .inr ⟨hcovered hu, rfl⟩, ?_⟩
        rw [List.nil_append, hrun, hskip, List.append_assoc, List.singleton_append]
        rfl

end MarketDataGateway.Causal
