import MarketDataGateway.Causal.Credentials

/-!
# Where credentials are hidden

A credential behind a key and its separator, perhaps with a scheme word between them, in a text
around it. Whether the output of `sanitize` is the same for all credentials depends on the text
around them (`hidesCredentials`): the last pattern has to await a value where the credential begins,
and white space has to follow the credential, or nothing, but not the rest of the header of a
private key. A comma or a semicolon may follow where no URL goes on over it, which depends on the
credential.
-/

namespace MarketDataGateway.Causal

open Lib

/-! ## Credentials -/

/-- A credential: characters that are neither white space nor a comma or a semicolon. -/
def IsCredential (v : PyStr) : Prop := v ≠ [] ∧ ∀ c ∈ v, isValueChar c = true

/-- What stands around a credential. -/
structure Setting where
  before : PyStr
  key : PyStr
  gap : PyStr
  separator : CodePoint
  space : PyStr
  /-- A scheme word with white space behind it, or nothing. -/
  scheme : PyStr
  after : PyStr
  isKey : key.map foldCase ∈ keyWords
  gapSpaces : IsSpaces gap
  isSeparator : Causal.isSeparator separator = true
  spaceSpaces : IsSpaces space
  isScheme : scheme = [] ∨ ∃ word c spaces, scheme = word ++ c :: spaces ∧ isValueChar c = true ∧
    Causal.isSeparator c = false ∧ spaces ≠ [] ∧ IsSpaces spaces
  /-- The credential ends before it. -/
  ends : EndsValue after

/-- What stands before the credential. -/
def Setting.lead (σ : Setting) : PyStr :=
  σ.before ++ σ.key ++ σ.gap ++ σ.separator :: (σ.space ++ σ.scheme)

/-- The text with a credential in it. -/
def Setting.text (σ : Setting) (v : PyStr) : PyStr := σ.lead ++ (v ++ σ.after)

section Hiding

variable (isWord : CodePoint → Bool)

/-- The output is the same for all credentials. -/
def HidesCredentials (σ : Setting) : Prop :=
  ∀ v v', IsCredential v → IsCredential v' →
    sanitize isWord (σ.text v) = sanitize isWord (σ.text v')

/-- When URLs and tokens are substituted in a text, the last pattern takes a character that follows
it. -/
def Awaits (lead : PyStr) : Prop :=
  (scanFrom (secretPair isWord) redactedSecret probe none 0 (withoutTokens isWord lead)).2 ≠ 0

instance (lead : PyStr) : Decidable (Awaits isWord lead) := inferInstanceAs (Decidable (_ ≠ _))

/-- A URL in the text goes on over a comma that follows. -/
def UrlGoesOn (s : PyStr) : Prop :=
  (scanFrom (urlRe.matcher isWord) redactedUrl (Lib.text ",") none 0 s).2 ≠ 0

instance (s : PyStr) : Decidable (UrlGoesOn isWord s) := inferInstanceAs (Decidable (_ ≠ _))

/-- No URL goes on over the end of the credential. -/
def UrlsEnd (σ : Setting) (v : PyStr) : Prop :=
  StartsBlank σ.after ∨ ¬UrlGoesOn isWord (σ.lead ++ v)

end Hiding

variable {isWord : CodePoint → Bool} {p : Pattern} {ps : List Pattern}
  {prev : Option CodePoint} {σ : Setting}
  {a b s u v w x y z A : PyStr} {c d e f : CodePoint}

/-! ## Behind a bracket -/

/-- A URL does not read what it stops at. -/
theorem foreign_url_of_not_accepts (hwords : WordChars isWord) (hf : urlRe.accepts f = false) :
    urlRe.Foreign isWord f := by
  have hf' : (!(f.isSpace || (text ")>]\x7d").contains f)) = false := hf
  rw [Bool.not_eq_false', Bool.or_eq_true] at hf'
  rcases hf' with hspace | hbracket
  · exact foreign_url_of_isSpace hwords hspace
  · have hmem : f ∈ text ")>]\x7d" := List.contains_iff_mem.1 hbracket
    have hall : (text ")>]\x7d").all (fun f => decide (f.val < 0x80) && urlRe.prefixes.all (fun u =>
        decide (urlRe.fold f ∉ u)) &&
          !((0x30 ≤ f.val && f.val ≤ 0x39) || (0x41 ≤ f.val && f.val ≤ 0x5A) ||
          (0x61 ≤ f.val && f.val ≤ 0x7A) || f.val == 0x5F)) = true := by
      decide
    have hof := List.all_eq_true.1 hall f hmem
    rw [Bool.and_eq_true, Bool.and_eq_true] at hof
    obtain ⟨⟨hascii, hprefixes⟩, hword⟩ := hof
    refine ⟨fun u hu => of_decide_eq_true (List.all_eq_true.1 hprefixes u hu), hf, ?_⟩
    rw [hwords.ascii f (of_decide_eq_true hascii)]
    exact Bool.not_eq_true' _ |>.mp hword

/-- A closing bracket is foreign to every pattern. -/
theorem foreign_bracket (hwords : WordChars isWord) (hp : p ∈ urlRe :: tokenPatterns) :
    p.Foreign isWord (char ')') := by
  rcases List.mem_cons.1 hp with rfl | hp
  · exact foreign_url_of_not_accepts hwords (by decide)
  · exact foreign_of_mem_dividers hwords hp (by decide)

/-- A bracket and an `x` or a `y` are kept, and divide the text. -/
theorem sub_bracket {r : PyStr} (hwords : WordChars isWord) (hp : p ∈ urlRe :: tokenPatterns)
    (hd : d ∈ Lib.text "xy")
    (hz : EndsValue z) (w : PyStr) : sub (p.matcher isWord) r (w ++ char ')' :: d :: z) =
      sub (p.matcher isWord) r w ++ char ')' :: d :: sub (p.matcher isWord) r z := by
  have hall : (urlRe :: tokenPatterns).all (fun p => (Lib.text "xy").all fun d =>
    p.prefixes.all fun u =>
      decide (u.head? ≠ some (p.fold d))) = true := by
    decide
  have hnone (prev : Option CodePoint) : p.matcher isWord prev (d :: z) = none :=
    Pattern.matcher_eq_none (fun u hu => of_decide_eq_true (List.all_eq_true.1
      (List.all_eq_true.1 (List.all_eq_true.1 hall p hp) d hd) u hu)) prev z
  rw [sub_append_cons (foreign_bracket hwords hp), subFrom_cons_of_none (hnone _),
    subFrom_eq_sub hp hz]

/-- A closing bracket and a character of a probe stay where they are. -/
theorem withoutAll_bracket (hwords : WordChars isWord) (hps : ∀ p ∈ ps, p ∈ tokenPatterns)
    (hd : d ∈ Lib.text "xy")
    (hz : EndsValue z) (w : PyStr) : withoutAll isWord ps (w ++ char ')' :: d :: z) =
      withoutAll isWord ps w ++ char ')' :: d :: withoutAll isWord ps z := by
  induction ps generalizing w z with
  | nil => rfl
  | cons p ps ih =>
    obtain ⟨hp, hps⟩ := List.forall_mem_cons.1 hps
    have hp' : p ∈ urlRe :: tokenPatterns := List.mem_cons_of_mem _ hp
    show withoutAll isWord ps (sub _ _ (w ++ char ')' :: d :: z)) = _
    rw [sub_bracket hwords hp' hd hz]
    exact ih hps (fun c hc => hz c (by rwa [head?_sub hp' hz] at hc)) _

/-- A closing bracket and a character of a probe stay where they are among the tokens. -/
theorem withoutTokens_bracket (hwords : WordChars isWord) (hd : d ∈ Lib.text "xy")
    (hz : EndsValue z) (w : PyStr) :
    withoutTokens isWord (w ++ char ')' :: d :: z) =
      withoutTokens isWord w ++ char ')' :: d :: withoutTokens isWord z := by
  have hurl : urlRe ∈ urlRe :: tokenPatterns := .head _
  rw [withoutTokens_eq, sub_bracket hwords hurl hd hz,
    withoutAll_bracket hwords (fun p hp => hp) hd fun c hc =>
    hz c (by rwa [head?_sub hurl hz] at hc)]
  rfl

/-- What ends a value still does without its tokens. -/
theorem endsValue_withoutTokens (hz : EndsValue z) : EndsValue (withoutTokens isWord z) :=
  endsValue_withoutAll (fun p hp => hp) fun c hc => hz c (by rwa [head?_sub (.head _) hz] at hc)

/-- The keys do not hold a bracket or a divider. -/
theorem not_mem_keyWords (hf : f ∈ dividers) : ∀ u ∈ keyWords, foldCase f ∉ u := by
  have hall : dividers.all (fun f => keyWords.all fun u => decide (foldCase f ∉ u)) =
    true := by decide
  exact fun u hu => of_decide_eq_true (List.all_eq_true.1 (List.all_eq_true.1 hall f hf) u hu)

/-- Where the last pattern does not await a value, a bracket and what follows it stay. -/
theorem sanitize_bracket (hwords : WordChars isWord) (hd : d ∈ Lib.text "xy") (hz : EndsValue z)
    (hw : ¬Awaits isWord w) :
    ∃ out rest, sanitize isWord (w ++ ([char ')', d] ++ z)) = out ++ char ')' :: d :: rest ∧
      out = (scanFrom (secretPair isWord) redactedSecret probe none 0
      (withoutTokens isWord w)).1 := by
  have hz' : EndsValue (withoutTokens isWord z) := endsValue_withoutTokens hz
  have hvalue : ∀ c ∈ [char ')', d], isValueChar c = true := by
    have hall : (Lib.text "xy").all (fun d => [char ')', d].all isValueChar) = true := by decide
    exact List.all_eq_true.1 (List.all_eq_true.1 hall d hd)
  have hseparator : isSeparator (char ')') = false := by decide
  -- The scan of `w` reads the same with the bracket behind it as with the probe.
  have hscan := @scanFrom_eq CodePoint (secretPair isWord) redactedSecret
    (withoutTokens isWord w) probe 0 2
    sound_secretPair ([char ')', d] ++ withoutTokens isWord z)
    (fun a b prev _ _ => secretPair_append (t := b) (not_mem_keyWords (by decide))
      (hwords.not_of_mem_dividers (by decide)) rfl rfl (Nat.le_refl _)
      (fun k _ => sameReading hvalue hz' (.inl ⟨hseparator,
        List.cons_ne_nil _ _⟩) (.inl (List.cons_ne_nil _ _))) prev)
    none (Nat.zero_le _)
  have hzero : (scanFrom (secretPair isWord) redactedSecret probe none 0
      (withoutTokens isWord w)).2 = 0 :=
    not_not.1 hw
  rw [hzero, if_pos rfl] at hscan
  -- No key begins with a bracket or with the letter behind it.
  have hkeys : (Lib.text ")xy").all (fun c => keyWords.all fun u =>
      decide (u.head? ≠ some (foldCase c))) = true := by
    decide
  have hnone {c : CodePoint} (hc : c ∈ Lib.text ")xy") (prev : Option CodePoint) (s : PyStr) :
      secretPair isWord prev (c :: s) = none :=
    secretPair_eq_none (fun u hu =>
      of_decide_eq_true (List.all_eq_true.1 (List.all_eq_true.1 hkeys c hc) u hu)) prev s
  have hd' : d ∈ Lib.text ")xy" := by
    have hall : (Lib.text "xy").all (fun d => decide (d ∈ Lib.text ")xy")) = true := by decide
    exact of_decide_eq_true (List.all_eq_true.1 hall d hd)
  refine ⟨_, subFrom (secretPair isWord) redactedSecret (some d) 0 (withoutTokens isWord z), ?_,
    rfl⟩
  unfold sanitize
  rw [show w ++ ([char ')', d] ++ z) = w ++ char ')' :: d :: z from rfl,
    withoutTokens_bracket hwords hd hz]
  show subFrom _ _ none 0 (withoutTokens isWord w ++ ([char ')', d] ++ withoutTokens isWord z)) = _
  rw [subFrom_scanFrom sound_secretPair, hscan]
  dsimp only
  rw [List.cons_append, List.cons_append, List.nil_append,
    subFrom_cons_of_none (hnone (by decide) _ _), subFrom_cons_of_none (hnone hd' _ _)]

/-- A bracket and a character of a probe are a credential. -/
theorem isCredential_bracket (hd : d ∈ Lib.text "xy") : IsCredential [char ')', d] := by
  have hall : (Lib.text "xy").all (fun d => [char ')', d].all isValueChar) = true := by decide
  exact ⟨List.cons_ne_nil _ _, List.all_eq_true.1 (List.all_eq_true.1 hall d hd)⟩

/-- Where the output is the same for all credentials, the last pattern awaits a value. -/
theorem awaits_of_hidesCredentials (hwords : WordChars isWord) (h : HidesCredentials isWord σ) :
    Awaits isWord σ.lead := by
  by_contra hnot
  have hx : char 'x' ∈ Lib.text "xy" := by decide
  have hy : char 'y' ∈ Lib.text "xy" := by decide
  obtain ⟨out, rest, heq, hout⟩ := sanitize_bracket hwords hx σ.ends hnot
  obtain ⟨out', rest', heq', hout'⟩ := sanitize_bracket hwords hy σ.ends hnot
  have hsame :=
    (heq.symm.trans (h _ _ (isCredential_bracket hx) (isCredential_bracket hy))).trans heq'
  rw [hout, hout'] at hsame
  have htail := List.append_cancel_left hsame
  exact absurd (List.cons.inj (List.cons.inj htail).2).1 (by decide)

/-! ## Commas behind URLs -/

/-- A comma or a semicolon. -/
def isListChar (c : CodePoint) : Bool := c = char ',' || c = char ';'

/-- A token that is redacted leaves the characters of a list. -/
theorem filter_sub_secret (hp : p ∈ tokenPatterns) (s : PyStr) :
    (sub (p.matcher isWord) redactedSecret s).filter isListChar = s.filter isListChar := by
  have hall : tokenPatterns.all (fun p => (Lib.text ",;").all fun c =>
      p.prefixes.all (fun u => decide (p.fold c ∉ u)) && !p.accepts c) = true := by
    decide
  refine (filter_subFrom p.sound (fun prev s n h c hc => ?_) ?_ none 0 s).trans
    (by rw [List.drop_zero])
  · rw [Bool.eq_false_iff]
    intro hlist
    have hmem : c ∈ Lib.text ",;" := by
      unfold isListChar at hlist
      rw [Bool.or_eq_true, decide_eq_true_eq, decide_eq_true_eq] at hlist
      rcases hlist with rfl | rfl
      · decide
      · decide
    obtain ⟨hprefixes, haccepts⟩ :=
      Bool.and_eq_true_iff.1 (List.all_eq_true.1 (List.all_eq_true.1 hall p hp) c hmem)
    rcases p.mem_match h hc with ⟨u, hu, hin⟩ | haccepted
    · exact of_decide_eq_true (List.all_eq_true.1 hprefixes u hu) hin
    · rw [haccepted] at haccepts
      exact nomatch haccepts
  · have hnone : redactedSecret.all (fun c => !isListChar c) = true := by decide
    exact fun c hc => Bool.not_eq_true' _ |>.mp (List.all_eq_true.1 hnone c hc)

/-- Only URLs take commas and semicolons. -/
theorem filter_sanitize (s : PyStr) : (sanitize isWord s).filter isListChar =
    (sub (urlRe.matcher isWord) redactedUrl s).filter isListChar := by
  have htokens (ps : List Pattern) (hps : ∀ p ∈ ps, p ∈ tokenPatterns) (s : PyStr) :
      (withoutAll isWord ps s).filter isListChar = s.filter isListChar := by
    induction ps generalizing s with
    | nil => rfl
    | cons p ps ih =>
      obtain ⟨hp, hps⟩ := List.forall_mem_cons.1 hps
      exact (ih hps _).trans (filter_sub_secret hp s)
  have hpair : (sanitize isWord s).filter isListChar =
      (withoutTokens isWord s).filter isListChar := by
    refine (filter_subFrom sound_secretPair (fun prev s n h c hc => ?_) ?_ none 0 _).trans
      (by rw [List.drop_zero])
    · obtain ⟨hcomma, hsemicolon⟩ := mem_secretPair h hc
      unfold isListChar
      rw [decide_eq_false hcomma, decide_eq_false hsemicolon]
      rfl
    · have hnone : redactedSecret.all (fun c => !isListChar c) = true := by decide
      exact fun c hc => Bool.not_eq_true' _ |>.mp (List.all_eq_true.1 hnone c hc)
  rw [hpair, withoutTokens_eq, htokens tokenPatterns fun p hp => hp]

/-- A URL takes all that it can of what follows `https://`. -/
theorem matcher_https (hz : z.takeWhile urlRe.accepts ≠ []) (prev : Option CodePoint) :
    urlRe.matcher isWord prev (Lib.text "https://" ++ z) =
      some ((Lib.text "https://").length + (z.takeWhile urlRe.accepts).length) := by
  have hfold : (Lib.text "https://").map foldCase = Lib.text "https://" := by decide
  have hfind : (urlRe.prefixes.find? fun u =>
    decide (u <+: (Lib.text "https://" ++ z).map foldCase)) =
      some (Lib.text "https://") := by
    rw [List.map_append, hfold]
    show (Lib.text "https://" :: [Lib.text "http://"]).find? _ = _
    rw [List.find?_cons, decide_eq_true (List.prefix_append _ _)]
  rw [matcher_url, hfind, Option.bind_some, List.drop_left]
  exact if_pos (List.length_pos_iff.2 hz)

/-- Where the output is the same for all credentials, white space follows, or nothing. -/
theorem startsBlank_of_hidesCredentials (hwords : WordChars isWord)
    (h : HidesCredentials isWord σ) :
    StartsBlank σ.after := by
  intro c hc
  by_contra hspace
  obtain ⟨rest, hafter⟩ : ∃ rest, σ.after = c :: rest := List.head?_eq_some_iff.1 hc
  have hlist : isListChar c = true := by
    have hvalue := σ.ends c hc
    unfold isValueChar at hvalue
    rw [Bool.not_eq_false', Bool.or_eq_true, Bool.or_eq_true] at hvalue
    unfold isListChar
    rw [Bool.or_eq_true]
    exact (or_assoc.1 hvalue).resolve_left hspace
  have hmem : c ∈ Lib.text ",;" := by
    unfold isListChar at hlist
    rw [Bool.or_eq_true, decide_eq_true_eq, decide_eq_true_eq] at hlist
    rcases hlist with rfl | rfl
    · decide
    · decide
  have haccepts : (Lib.text ",;").all urlRe.accepts = true := by decide
  have hurl : urlRe ∈ urlRe :: tokenPatterns := .head _
  have hx : char 'x' ∈ Lib.text "xy" := by decide
  -- What a URL before `after` takes of it, and what is left.
  have hrun : σ.after.takeWhile urlRe.accepts ≠ [] := by
    rw [hafter, List.takeWhile_cons, List.all_eq_true.1 haccepts c hmem]
    exact List.cons_ne_nil _ _
  generalize htaken : σ.after.takeWhile urlRe.accepts = taken at hrun
  generalize hleft : σ.after.dropWhile urlRe.accepts = left
  have hsplit : σ.after = taken ++ left := by
    rw [← htaken, ← hleft, List.takeWhile_append_dropWhile]
  have hforeign (f : CodePoint) (hf : f ∈ left.head?) : urlRe.Foreign isWord f := by
    refine foreign_url_of_not_accepts hwords ?_
    rw [← hleft] at hf
    have hnot := List.head?_dropWhile_not urlRe.accepts σ.after
    rw [Option.mem_def.1 hf] at hnot
    exact hnot
  have hlocal (x : PyStr) : (urlRe.matcher isWord).Local x left := by
    cases left with
    | nil => exact local_nil
    | cons f left => exact Pattern.local_of_foreign (hforeign f rfl) x left
  have hprev (prev : Option CodePoint) : subFrom (urlRe.matcher isWord) redactedUrl prev 0 left =
      sub (urlRe.matcher isWord) redactedUrl left := by
    refine subFrom_prev (fun prev => ?_) prev none
    cases left with
    | nil => exact matcher_nil prev
    | cons f left => exact (hforeign f rfl).matcher_eq_none prev left
  -- A credential that is no URL leaves the comma.
  have hplain := sub_bracket (r := redactedUrl) hwords hurl hx σ.ends σ.lead
  have hkept : (sub (urlRe.matcher isWord) redactedUrl taken).filter isListChar ≠ [] := by
    obtain ⟨first, more, htaken'⟩ := List.exists_cons_of_ne_nil hrun
    obtain rfl : first = c := by
      rw [hsplit, htaken', List.cons_append] at hafter
      exact (List.cons.inj hafter).1
    have hnone : urlRe.matcher isWord none (first :: more) = none :=
      matcher_of_endsValue hurl (fun d hd => by
        obtain rfl := Option.some.inj hd
        exact σ.ends first hc) none
    rw [htaken']
    unfold sub
    rw [subFrom_cons_of_none hnone, List.filter_cons, hlist]
    exact List.cons_ne_nil _ _
  -- One that begins a URL takes it away.
  have hbegins : sub (urlRe.matcher isWord) redactedUrl (σ.lead ++
    char ')' :: (Lib.text "https://" ++ σ.after)) =
      sub (urlRe.matcher isWord) redactedUrl σ.lead ++
        char ')' :: (redactedUrl ++ sub (urlRe.matcher isWord) redactedUrl left) := by
    have hne : Lib.text "https://" ++ taken ≠ [] := List.append_ne_nil_of_right_ne_nil _ hrun
    have hmatch : urlRe.matcher isWord (some (char ')')) ((Lib.text "https://" ++ taken) ++ left) =
        some (Lib.text "https://" ++ taken).length := by
      rw [List.append_assoc, ← hsplit, matcher_https (by rw [htaken]; exact hrun),
        htaken, List.length_append]
    rw [sub_append_cons (foreign_bracket hwords hurl), hsplit, ← List.append_assoc,
      subFrom_append_of_match hne hmatch, hprev]
  have hcredential : IsCredential (char ')' :: Lib.text "https://") := by
    have hall : (char ')' :: Lib.text "https://").all isValueChar = true := by decide
    exact ⟨List.cons_ne_nil _ _, List.all_eq_true.1 hall⟩
  have hsame := congrArg (List.filter isListChar) (h _ _ (isCredential_bracket hx) hcredential)
  rw [filter_sanitize, filter_sanitize] at hsame
  have htext : σ.text [char ')', char 'x'] = σ.lead ++ char ')' :: char 'x' :: σ.after := rfl
  have htext' : σ.text (char ')' :: Lib.text "https://") =
    σ.lead ++ char ')' :: (Lib.text "https://" ++ σ.after) := rfl
  have hafter' : sub (urlRe.matcher isWord) redactedUrl σ.after =
    sub (urlRe.matcher isWord) redactedUrl taken ++
      sub (urlRe.matcher isWord) redactedUrl left := by
    rw [hsplit, sub_append urlRe.sound (hlocal taken), hprev]
  have hbracket : isListChar (char ')') = false := by decide
  have hletter : isListChar (char 'x') = false := by decide
  have hredacted : redactedUrl.filter isListChar = [] := by decide
  rw [htext, htext', hplain, hbegins, hafter', List.filter_append, List.filter_append,
    List.append_cancel_left_eq, List.filter_cons, List.filter_cons, List.filter_cons, hbracket,
    hletter, List.filter_append, List.filter_append, hredacted, List.nil_append] at hsame
  exact hkept (List.append_left_eq_self.1 hsame)

/-! ## Values that are awaited -/

/-- No pattern matches a single character. -/
theorem matcher_singleton (hp : p ∈ urlRe :: tokenPatterns) (prev : Option CodePoint) :
    p.matcher isWord prev [c] = none := by
  have hlong : (urlRe :: tokenPatterns).all (fun p => p.prefixes.all fun u =>
      decide (1 < u.length)) = true := by
    decide
  cases hmatch : p.matcher isWord prev [c] with
  | none => rfl
  | some n =>
    obtain ⟨u, hu, hprefix, -⟩ := p.matcher_eq_some hmatch
    have hlength := of_decide_eq_true (List.all_eq_true.1 (List.all_eq_true.1 hlong p hp) u hu)
    have hle := hprefix.length_le
    rw [List.length_map, List.length_singleton] at hle
    omega

/-- A character that is neither white space nor a separator, with white space behind it, ends a
text. -/
def EndsScheme (b s : PyStr) : Prop :=
  ∃ w c, s = w ++ c :: b ∧ c.isSpace = false ∧ isSeparator c = false

/-- A pattern leaves a character with white space behind it as it is, or ends a substitute there. -/
theorem EndsScheme.sub {r : PyStr} (h : EndsScheme b s) (hwords : WordChars isWord)
    (hp : p ∈ urlRe :: tokenPatterns)
    (hb : IsSpaces b) (hr : r = redactedUrl ∨ r = redactedSecret) :
    EndsScheme b (sub (p.matcher isWord) r s) := by
  obtain ⟨w, c, rfl, hspace, hseparator⟩ := h
  have hend : ∃ r', r = r' ++ [char ']'] := by
    rcases hr with rfl | rfl
    · exact ⟨Lib.text "[REDACTED_URL", by decide⟩
    · exact ⟨Lib.text "[REDACTED_SECRET", by decide⟩
  have hspaces : subFrom (p.matcher isWord) r (some c) 0 b = b := by
    have h := @subFrom_spaces isWord p b r hp hb [] (some c)
    rwa [List.append_nil, subFrom_nil, List.append_nil] at h
  have hsub : Lib.sub (p.matcher isWord) r (w ++ c :: b) =
      Lib.sub (p.matcher isWord) r (w ++ [c]) ++ b := by
    rw [← List.singleton_append, ← List.append_assoc,
      sub_append p.sound (local_spaces hwords hp hb _), following_concat, hspaces]
  obtain ⟨u, hu | hu⟩ := exists_subFrom_concat (r := r) (@Pattern.sound isWord p)
    (fun prev => matcher_singleton (c := c) hp prev) w none (Nat.zero_le _)
  · refine ⟨u, c, ?_, hspace, hseparator⟩
    rw [hsub, show Lib.sub (p.matcher isWord) r (w ++ [c]) = u ++ [c] from hu, List.append_assoc,
      List.singleton_append]
  · obtain ⟨r', rfl⟩ := hend
    refine ⟨u ++ r', char ']', ?_, by decide, by decide⟩
    rw [hsub, show Lib.sub (p.matcher isWord) (r' ++ [char ']']) (w ++ [c]) =
      u ++ (r' ++ [char ']']) from hu, ← List.append_assoc, List.append_assoc _ [char ']'],
      List.singleton_append]

/-- What ends with a scheme still does without its tokens. -/
theorem EndsScheme.withoutTokens (h : EndsScheme b s)
    (hwords : WordChars isWord) (hb : IsSpaces b) :
    EndsScheme b (withoutTokens isWord s) := by
  have hall (ps : List Pattern) (hps : ∀ p ∈ ps, p ∈ tokenPatterns) {s : PyStr}
    (h : EndsScheme b s) :
      EndsScheme b (withoutAll isWord ps s) := by
    induction ps generalizing s with
    | nil => exact h
    | cons p ps ih =>
      obtain ⟨hp, hps⟩ := List.forall_mem_cons.1 hps
      exact ih hps (h.sub hwords (List.mem_cons_of_mem _ hp) hb (.inr rfl))
  exact hall tokenPatterns (fun p hp => hp) (h.sub hwords (.head _) hb (.inl rfl))

/-- The last character of a text that is no white space. -/
theorem eq_of_append_spaces {a' b' : PyStr} {c' : CodePoint}
    (h : a ++ c :: b = a' ++ c' :: b') (hb : IsSpaces b)
    (hb' : IsSpaces b') (hc : c.isSpace = false) (hc' : c'.isSpace = false) : c = c' := by
  have hhead {a b : PyStr} {c : CodePoint} (hb : IsSpaces b) (hc : c.isSpace = false) :
      (((a ++ c :: b).reverse).dropWhile CodePoint.isSpace).head? = some c := by
    rw [List.reverse_append, List.reverse_cons, List.append_assoc, hb.reverse.dropWhile_append,
      List.singleton_append, List.dropWhile_cons, hc]
    rfl
  exact Option.some.inj ((hhead hb hc).symm.trans (h ▸ hhead hb' hc'))

/-- Behind a scheme word no value is awaited. -/
theorem not_awaits_of_endsScheme (h : EndsScheme b s) (hwords : WordChars isWord)
    (hb : IsSpaces b) (hne : b ≠ []) :
    ¬Awaits isWord s := by
  obtain ⟨w, c, hs, hspace, hseparator⟩ := h.withoutTokens hwords hb
  refine not_not.2 (scanFrom_snd_eq_zero sound_secretPair (fun a t prev n hsplit _ hmatch =>
    ?_) none (Nat.zero_le _))
  by_contra hlt
  obtain ⟨u, hu, rest, -, hrest, hn⟩ := secretPair_eq_some hmatch
  have hprobe : probe.length = 1 := rfl
  rw [List.length_append, hprobe] at hn
  obtain rfl : rest = [] := List.length_eq_zero_iff.1 (by omega)
  obtain ⟨x, separator, y, v, hread, -, hseparator', hy, hv, hvalue⟩ := exists_of_pairRest hrest
  obtain ⟨v, last, rfl⟩ := (List.eq_nil_or_concat' v).resolve_left hv
  have hshort : u.length ≤ t.length := by
    by_contra hlong
    rw [List.drop_eq_nil_of_le (by rw [List.length_append, hprobe]; omega)] at hread
    exact absurd hread.symm (List.append_ne_nil_of_right_ne_nil _ (List.cons_ne_nil _ _))
  rw [List.drop_append_of_le_length hshort, List.append_nil] at hread
  have hfront : t.drop u.length = x ++ separator :: (y ++ v) := by
    have hread' : t.drop u.length ++ [char ')'] = (x ++ separator :: (y ++ v)) ++ [last] := by
      rw [List.append_assoc, List.cons_append, List.append_assoc]
      exact hread
    exact (List.append_inj' hread' rfl).1
  have hwhole : w ++ c :: b = (a ++ t.take u.length ++ x) ++ separator :: (y ++ v) := by
    rw [← hs, hsplit, List.append_assoc, List.append_assoc, ← hfront, List.take_append_drop]
  -- The text ends in white space, so that nothing of the value stands in it.
  obtain rfl : v = [] := by
    by_contra hv
    obtain ⟨front, d, rfl⟩ := (List.eq_nil_or_concat' v).resolve_left hv
    obtain ⟨b, g, rfl⟩ := (List.eq_nil_or_concat' b).resolve_left hne
    have hlast := congrArg List.getLast? hwhole
    rw [← List.cons_append, ← List.append_assoc,
      List.getLast?_concat, ← List.append_assoc y, ← List.cons_append, ← List.append_assoc,
      List.getLast?_concat] at hlast
    have hd := isSpace_of_isValueChar
      (hvalue d (List.mem_append_left _ (List.mem_append_right _ List.mem_cons_self)))
    rw [← Option.some.inj hlast, hb g (List.mem_append_right _ List.mem_cons_self)] at hd
    exact nomatch hd
  rw [List.append_nil] at hwhole
  rw [eq_of_append_spaces hwhole hb hy hspace (isSpace_of_isSeparator hseparator'),
    hseparator'] at hseparator
  exact nomatch hseparator

/-- A divider is no space. -/
theorem isSpace_of_mem_dividers (he : e ∈ dividers) : e.isSpace = false := by
  have hall : dividers.all (fun e => !e.isSpace) = true := by decide
  exact Bool.not_eq_true' _ |>.mp (List.all_eq_true.1 hall e he)

/-- No pair begins where a value ends. -/
theorem secretPair_of_not_isValueChar (hd : isValueChar d = false) (prev : Option CodePoint)
    (s : PyStr) : secretPair isWord prev (d :: s) = none := by
  have hheads : (Lib.text ",;").all (fun d => keyWords.all fun u =>
      decide (u.head? ≠ some (foldCase d))) = true := by
    decide
  have hnone (hd : d ∈ Lib.text ",;") : secretPair isWord prev (d :: s) = none :=
    secretPair_eq_none (fun u hu => of_decide_eq_true
      (List.all_eq_true.1 (List.all_eq_true.1 hheads d hd) u hu)) prev s
  unfold isValueChar at hd
  rw [Bool.not_eq_false', Bool.or_eq_true, Bool.or_eq_true, decide_eq_true_eq, decide_eq_true_eq,
    or_assoc] at hd
  rcases hd with hspace | rfl | rfl
  · exact secretPair_of_isSpace hspace prev s
  · exact hnone (by decide)
  · exact hnone (by decide)

/-- What the last pattern makes of a text that awaits a value does not depend on the value. -/
theorem sub_secretPair_of_awaits (hwords : WordChars isWord) (he : e ∈ dividers) (hb : IsSpaces b)
    (hv : ∀ c ∈ v, isValueChar c = true) (hne : v ≠ [] ∨ e = char ']' ∧ b = []) (hz : EndsValue z)
    (hawaits : (scanFrom (secretPair isWord) redactedSecret probe none 0 (A ++ e :: b)).2 ≠ 0) :
    sub (secretPair isWord) redactedSecret (A ++ e :: b ++ (v ++ z)) =
      (scanFrom (secretPair isWord) redactedSecret probe none 0 (A ++ e :: b)).1 ++
        sub (secretPair isWord) redactedSecret z := by
  have hspace := isSpace_of_mem_dividers he
  -- What matches with the probe for a value matches with the credential.
  have hmatches (a t : PyStr) (prev : Option CodePoint)
    (hsplit : A ++ e :: b = a ++ t) (ht : t ≠ []) :
      secretPair isWord prev (t ++ (v ++ z)) = (secretPair isWord prev (t ++ probe)).map fun n =>
        if n ≤ t.length then n else t.length + v.length := by
    have hbehind (w : PyStr) (hw : t = w ++ e :: b) : secretPair isWord prev (t ++ (v ++ z)) =
        (secretPair isWord prev (t ++ probe)).map fun n => if n ≤ t.length then n
        else t.length + v.length := by
      refine secretPair_append (t := w) (f := e) (z := b ++ probe) (y := b ++
        (v ++ z)) (not_mem_keyWords he)
        (hwords.not_of_mem_dividers he) ?_ ?_ ?_ (fun k hk => ?_) prev
      · rw [hw, List.append_assoc, List.cons_append]
      · show t ++ (v ++ z) = w ++ e :: (b ++ (v ++ z))
        rw [hw, List.append_assoc, List.cons_append]
      · rw [hw, List.length_append]
        exact Nat.le_add_right _ _
      · rw [hw, List.drop_append_of_le_length hk]
        refine sameReading hv hz (.inr fun hnil =>
          ?_) (hne.imp_right fun ⟨heq, hnil⟩ => ?_)
        · have hall := List.dropWhile_eq_nil_iff.1 hnil e
            (List.mem_append_right _ List.mem_cons_self)
          rw [hspace] at hall
          exact nomatch hall
        · subst heq hnil
          exact ⟨char ']', List.getLast?_concat, by decide, by decide⟩
    rcases List.append_eq_append_iff.1 hsplit with ⟨w, -, hw⟩ | ⟨w, -, hw⟩
    · rcases w with _ | ⟨first, w⟩
      · exact hbehind [] hw.symm
      · -- All of it is white space.
        obtain ⟨-, hw⟩ := List.cons.inj hw
        obtain ⟨d, t, rfl⟩ := List.exists_cons_of_ne_nil ht
        have hd : d.isSpace = true := hb d (hw ▸ List.mem_append_right _ List.mem_cons_self)
        rw [List.cons_append, List.cons_append, secretPair_of_isSpace hd, secretPair_of_isSpace hd]
        rfl
    · exact hbehind w hw
  -- The pair that awaits its value takes the credential, and nothing more.
  have hscan := scanFrom_eq (r := redactedSecret) sound_secretPair hmatches none (Nat.zero_le _)
  rw [if_neg hawaits] at hscan
  have hnone (prev : Option CodePoint) : secretPair isWord prev z = none := by
    cases z with
    | nil =>
      cases hmatch : secretPair isWord prev [] with
      | none => rfl
      | some n =>
        have hn := sound_secretPair prev [] n hmatch
        rw [List.length_nil] at hn
        omega
    | cons d z => exact secretPair_of_not_isValueChar (hz d rfl) prev z
  have hskip := @subFrom_skip CodePoint (secretPair isWord) redactedSecret v z
    (following none (A ++ e :: b)) 0
  rw [Nat.add_zero] at hskip
  show subFrom _ _ none 0 (A ++ e :: b ++ (v ++ z)) = _
  rw [subFrom_scanFrom sound_secretPair, hscan]
  dsimp only
  rw [hskip, subFrom_prev hnone _ none]
  rfl

/-- A key does not end as `http` and `https` do. -/
theorem Setting.last (σ : Setting) : ∀ d ∈ (σ.before ++ σ.key ++ σ.gap).getLast?,
    foldCase d ≠ char 'p' ∧ foldCase d ≠ char 's' := by
  intro d hd
  rcases List.eq_nil_or_concat' σ.gap with hgap | ⟨front, last, hgap⟩
  · have hkeys : keyWords.all (fun u => decide (u.getLast? ≠ none ∧ u.getLast? ≠ some (char 'p') ∧
        u.getLast? ≠ some (char 's'))) = true := by
      decide
    obtain ⟨hsome, hp, hs⟩ := of_decide_eq_true (List.all_eq_true.1 hkeys _ σ.isKey)
    obtain ⟨front, last, hkey⟩ := (List.eq_nil_or_concat' σ.key).resolve_left fun hnil => by
      rw [hnil] at hsome
      exact hsome rfl
    rw [hgap, List.append_nil, hkey, ← List.append_assoc, List.getLast?_concat] at hd
    obtain rfl := Option.some.inj hd
    rw [hkey, List.map_append, List.map_cons, List.map_nil, List.getLast?_concat] at hp hs
    exact ⟨fun heq => hp (congrArg some heq), fun heq => hs (congrArg some heq)⟩
  · rw [hgap, ← List.append_assoc, List.getLast?_concat] at hd
    obtain rfl := Option.some.inj hd
    have hspace := σ.gapSpaces last (hgap ▸ List.mem_append_right _ List.mem_cons_self)
    rw [foldCase_of_isSpace hspace]
    exact ⟨fun heq => absurd (heq ▸ hspace) (by decide),
      fun heq => absurd (heq ▸ hspace) (by decide)⟩

/-- What ends a value is no part of `https://`. -/
theorem not_mem_url (hf : isValueChar f = false) : ∀ u ∈ urlRe.prefixes, foldCase f ∉ u := by
  have hall : urlRe.prefixes.all (fun u => u.all fun c =>
      isValueChar c && decide (c ≠ foldCase (char ',') ∧ c ≠ foldCase (char ';'))) = true := by
    decide
  intro u hu hmem
  obtain ⟨hvalue, hlist⟩ := Bool.and_eq_true_iff.1
    (List.all_eq_true.1 (List.all_eq_true.1 hall u hu) _ hmem)
  obtain ⟨hcomma, hsemicolon⟩ := of_decide_eq_true hlist
  have hf' := hf
  unfold isValueChar at hf'
  rw [Bool.not_eq_false', Bool.or_eq_true, Bool.or_eq_true, decide_eq_true_eq, decide_eq_true_eq,
    or_assoc] at hf'
  rcases hf' with hspace | rfl | rfl
  · rw [foldCase_of_isSpace hspace, hf] at hvalue
    cases hvalue
  · exact hcomma rfl
  · exact hsemicolon rfl

/-- A URL before what ends a value is one before a comma, or goes on over the comma. -/
theorem matcher_url_append (hz : EndsValue z) (b : PyStr) (prev : Option CodePoint) :
    urlRe.matcher isWord prev (b ++ z) = urlRe.matcher isWord prev (b ++ Lib.text ",") ∨
      ∃ n, urlRe.matcher isWord prev (b ++ Lib.text ",") = some n ∧ b.length < n := by
  have hfind {z : PyStr} (hz : EndsValue z) :
      (urlRe.prefixes.find? fun u => decide (u <+: (b ++ z).map foldCase)) =
        urlRe.prefixes.find? fun u => decide (u <+: b.map foldCase) := by
    cases z with
    | nil => rw [List.append_nil]
    | cons f z =>
      rw [List.map_append, List.map_cons, find?_prefix_append_cons (not_mem_url (hz f rfl))]
  have hcomma : EndsValue (Lib.text ",") := by
    intro c hc
    obtain rfl := Option.some.inj hc
    decide
  rw [matcher_url, matcher_url, hfind hz, hfind hcomma]
  cases hu : urlRe.prefixes.find? fun u => decide (u <+: b.map foldCase) with
  | none => exact .inl rfl
  | some u =>
    have hlength : u.length ≤ b.length := by
      obtain ⟨-, hprefix⟩ := mem_of_find?_prefix hu
      have hlength := hprefix.length_le
      rwa [List.length_map] at hlength
    rw [Option.bind_some, Option.bind_some, List.drop_append_of_le_length hlength,
      List.drop_append_of_le_length hlength]
    by_cases hall : ((b.drop u.length).takeWhile urlRe.accepts).length = (b.drop u.length).length
    · -- Up to the end of the text, the URL goes on.
      refine .inr ⟨b.length + 1, ?_, Nat.lt_succ_self _⟩
      have hone : ((Lib.text ",").takeWhile urlRe.accepts).length = 1 := by decide
      rw [List.takeWhile_append, if_pos hall, List.length_append, hone, List.length_drop,
        if_pos (Nat.le_add_left _ _)]
      exact congrArg some (by omega)
    · rw [List.takeWhile_append, List.takeWhile_append, if_neg hall, if_neg hall]
      exact .inl rfl

/-- Where no URL goes on over the end of a text, what follows is substituted by itself. -/
theorem sub_url_append (hwords : WordChars isWord) (hz : EndsValue z)
    (h : StartsBlank z ∨ ¬UrlGoesOn isWord s) :
    sub (urlRe.matcher isWord) redactedUrl (s ++ z) =
      sub (urlRe.matcher isWord) redactedUrl s ++ sub (urlRe.matcher isWord) redactedUrl z := by
  have hparts : sub (urlRe.matcher isWord) redactedUrl (s ++ z) =
      sub (urlRe.matcher isWord) redactedUrl s ++
        subFrom (urlRe.matcher isWord) redactedUrl (following none s) 0 z := by
    rcases h with hblank | hends
    · exact sub_append urlRe.sound (local_url hwords hblank s)
    · refine subFrom_append_of_scanFrom urlRe.sound (y := Lib.text ",")
        (fun z' hz' _ b prev _ _ => matcher_url_append ?_ b prev) none (not_not.1 hends)
      rcases hz' with rfl | rfl
      · exact hz
      · exact fun _ hc => nomatch hc
  rw [hparts, subFrom_eq_sub (.head _) hz]

/-- The output is the same for all credentials that are awaited and over whose end no URL goes
on. -/
theorem exists_sanitize_of_awaits (hwords : WordChars isWord) (hawaits : Awaits isWord σ.lead)
    (hcomplete : completesPrivateKey σ.after = false) :
    ∃ out, ∀ v, IsCredential v → UrlsEnd isWord σ v → sanitize isWord (σ.text v) = out := by
  -- There is no scheme word.
  have hscheme : σ.scheme = [] := by
    refine σ.isScheme.resolve_right fun ⟨word, c, spaces, hword, hvalue, hseparator, hne,
      hspaces⟩ => ?_
    refine not_awaits_of_endsScheme ⟨σ.before ++ σ.key ++ σ.gap ++ σ.separator :: (σ.space ++ word),
      c, ?_, isSpace_of_isValueChar hvalue, hseparator⟩ hwords hspaces hne hawaits
    unfold Setting.lead
    rw [hword, ← List.append_assoc σ.space, ← List.cons_append, ← List.append_assoc]
  have hlead : σ.lead = (σ.before ++ σ.key ++ σ.gap) ++ σ.separator :: σ.space := by
    unfold Setting.lead
    rw [hscheme, List.append_nil]
  obtain ⟨A, e, he, hsub, hparts⟩ := exists_sub_url hwords σ.isSeparator σ.spaceSpaces σ.last
  have hlead' : withoutTokens isWord σ.lead =
      withoutAll isWord tokenPatterns A ++ e :: σ.space := by
    rw [withoutTokens_eq, hlead, hsub]
    exact withoutAll_lead hwords (fun p hp => hp) he σ.spaceSpaces A
  unfold Awaits at hawaits
  rw [hlead'] at hawaits
  refine ⟨(scanFrom (secretPair isWord) redactedSecret probe none 0
    (withoutAll isWord tokenPatterns A ++ e :: σ.space)).1 ++
      sub (secretPair isWord) redactedSecret (withoutTokens isWord σ.after), fun v hv hends => ?_⟩
  -- The URLs are substituted before the credential, in it and behind it.
  obtain ⟨v₁, hv₁, hne₁, hsub₁⟩ := hparts v [] hv.1 hv.2 fun _ hc => nomatch hc
  have htext : sub (urlRe.matcher isWord) redactedUrl (σ.text v) =
      A ++ e :: (σ.space ++ (v₁ ++ sub (urlRe.matcher isWord) redactedUrl σ.after)) := by
    have hsplit : σ.text v = (σ.lead ++ v) ++ σ.after := by
      unfold Setting.text
      rw [List.append_assoc]
    have hfront : σ.lead ++ v =
        (σ.before ++ σ.key ++ σ.gap) ++ σ.separator :: (σ.space ++ (v ++ [])) := by
      rw [hlead, List.append_nil, List.append_assoc _ (σ.separator :: σ.space), List.cons_append]
    rw [hsplit, sub_url_append hwords σ.ends hends, hfront, hsub₁,
      show sub (urlRe.matcher isWord) redactedUrl [] = [] from subFrom_nil none 0, List.append_nil,
      List.append_assoc, List.cons_append, List.append_assoc]
  -- So are the tokens.
  have hafter : EndsValue (sub (urlRe.matcher isWord) redactedUrl σ.after) :=
    fun c hc => σ.ends c (by rwa [head?_sub (.head _) σ.ends] at hc)
  obtain ⟨v₂, hne₂, hv₂, hsub₂⟩ :=
    @exists_withoutAll isWord tokenPatterns _ _ _ _ hwords (fun p hp => hp) he σ.spaceSpaces hv₁
      hafter (completesPrivateKey_sub (.inl rfl) hcomplete) A
  -- The last pattern then takes what is left of the credential.
  unfold sanitize
  rw [withoutTokens_eq, htext, hsub₂, ← withoutTokens_eq, ← List.cons_append, ← List.append_assoc]
  exact sub_secretPair_of_awaits hwords he σ.spaceSpaces hv₂ (hne₁.imp_left hne₂)
    (endsValue_withoutTokens σ.ends) hawaits

/-- A credential is hidden where the last pattern awaits a value and white space follows it, or
nothing, unless a header of a private key can begin in it; and nowhere else than where a value is
awaited and white space follows. Where a comma or a semicolon follows, the credentials over whose
end no URL goes on are hidden. -/
theorem hidesCredentials (hwords : WordChars isWord) (σ : Setting) :
    (Awaits isWord σ.lead ∧ StartsBlank σ.after ∧ completesPrivateKey σ.after = false →
        HidesCredentials isWord σ) ∧
      (HidesCredentials isWord σ → Awaits isWord σ.lead ∧ StartsBlank σ.after) ∧
      (Awaits isWord σ.lead ∧ completesPrivateKey σ.after = false →
        ∀ v v', IsCredential v → IsCredential v' → UrlsEnd isWord σ v → UrlsEnd isWord σ v' →
          sanitize isWord (σ.text v) = sanitize isWord (σ.text v')) := by
  refine ⟨?_, fun h => ⟨awaits_of_hidesCredentials hwords h,
    startsBlank_of_hidesCredentials hwords h⟩, ?_⟩
  · rintro ⟨hawaits, hblank, hcomplete⟩ v v' hv hv'
    obtain ⟨out, hout⟩ := exists_sanitize_of_awaits hwords hawaits hcomplete
    rw [hout v hv (.inl hblank), hout v' hv' (.inl hblank)]
  · rintro ⟨hawaits, hcomplete⟩ v v' hv hv' hends hends'
    obtain ⟨out, hout⟩ := exists_sanitize_of_awaits hwords hawaits hcomplete
    rw [hout v hv hends, hout v' hv' hends']

/-- `\w` for the characters of ASCII. -/
def asciiWord (c : CodePoint) : Bool :=
  (0x30 ≤ c.val && c.val ≤ 0x39) || (0x41 ≤ c.val && c.val ≤ 0x5A) ||
    (0x61 ≤ c.val && c.val ≤ 0x7A) || c.val == 0x5F

/-- The word characters of ASCII are as they should be. -/
theorem wordChars_asciiWord : WordChars asciiWord := by
  refine ⟨fun c _ => rfl, fun c hc => ?_⟩
  unfold CodePoint.isSpace at hc
  simp only [Bool.or_eq_true, Bool.and_eq_true, decide_eq_true_eq, beq_iff_eq] at hc
  rw [Bool.eq_false_iff]
  intro hword
  unfold asciiWord at hword
  simp only [Bool.or_eq_true, Bool.and_eq_true, decide_eq_true_eq, beq_iff_eq] at hword
  omega

/-- `see token = <credential> here`. -/
def tokenSetting : Setting where
  before := Lib.text "see "
  key := Lib.text "token"
  gap := Lib.text " "
  separator := char '='
  space := Lib.text " "
  scheme := []
  after := Lib.text " here"
  isKey := by decide
  gapSpaces := by
    have h : (Lib.text " ").all CodePoint.isSpace = true := by decide
    exact List.all_eq_true.1 h
  isSeparator := by decide
  spaceSpaces := by
    have h : (Lib.text " ").all CodePoint.isSpace = true := by decide
    exact List.all_eq_true.1 h
  isScheme := .inl rfl
  ends := by
    have h : (Lib.text " here").head?.all (fun c => !isValueChar c) = true := by decide
    intro c hc
    rw [Option.mem_def.1 hc] at h
    exact Bool.not_eq_true' _ |>.mp h

/-- The sample hides credentials. -/
theorem hidesCredentials_sample : HidesCredentials asciiWord tokenSetting := by
  refine (hidesCredentials wordChars_asciiWord tokenSetting).1 ⟨?_, ?_, ?_⟩
  · decide
  · exact startsBlank_of_all (by decide)
  · decide

/-- `Authorization: Bearer <credential>`. -/
def bearerSetting : Setting where
  before := []
  key := Lib.text "Authorization"
  gap := []
  separator := char ':'
  space := Lib.text " "
  scheme := Lib.text "Bearer" ++ Lib.text " "
  after := []
  isKey := by decide
  gapSpaces := isSpaces_nil
  isSeparator := by decide
  spaceSpaces := by
    have h : (Lib.text " ").all CodePoint.isSpace = true := by decide
    exact List.all_eq_true.1 h
  isScheme := by
    have h : (Lib.text " ").all CodePoint.isSpace = true := by decide
    exact .inr ⟨Lib.text "Beare", char 'r', Lib.text " ", by decide, by decide, by decide,
      by decide, List.all_eq_true.1 h⟩
  ends := fun _ hc => nomatch hc

/-- Behind `Bearer` the credential is left. -/
theorem not_hidesCredentials : ¬∀ isWord, WordChars isWord → ∀ σ, HidesCredentials isWord σ := by
  intro h
  have hvalues : [Lib.text "abc",
    Lib.text "xyz"].all (fun v => v.all isValueChar) = true := by decide
  have hcredential (v : PyStr) (hne : v ≠ [])
      (hmem : v ∈ [Lib.text "abc", Lib.text "xyz"]) : IsCredential v :=
    ⟨hne, List.all_eq_true.1 (List.all_eq_true.1 hvalues v hmem)⟩
  have hsame := h asciiWord wordChars_asciiWord bearerSetting _ _
    (hcredential (Lib.text "abc") (by decide)
    (.head _)) (hcredential (Lib.text "xyz") (by decide) (.tail _ (.head _)))
  have hdiffer : sanitize asciiWord (bearerSetting.text (Lib.text "abc")) ≠
      sanitize asciiWord (bearerSetting.text (Lib.text "xyz")) := by
    decide
  exact hdiffer hsame

end MarketDataGateway.Causal
