import MarketDataGateway.Causal.Sections
import MarketDataGateway.Lib.Substitution

/-!
# Redaction in reports

`URL_RE`, `SECRET_PATTERNS` and `sanitize` of `build_causal_pr_report.py`. All of the patterns but
the last are one of a few prefixes with a run of characters behind it. A character that they cannot
read, and that is no part of a word, separates what they do on its two sides
(`Pattern.local_of_foreign`).

Which characters that are not of ASCII are part of a word is given from outside.
-/

namespace MarketDataGateway.Causal

open Lib

/-! ## The code -/

/-- What `\w` is known to be: the letters and digits of ASCII with the underscore, and no white
space. -/
structure WordChars (isWord : CodePoint → Bool) : Prop where
  ascii : ∀ c : CodePoint, c.val < 0x80 → isWord c =
    ((0x30 ≤ c.val && c.val ≤ 0x39) || (0x41 ≤ c.val && c.val ≤ 0x5A) ||
    (0x61 ≤ c.val && c.val ≤ 0x7A) ||
      c.val == 0x5F)
  space : ∀ c : CodePoint, c.isSpace = true → isWord c = false

/-- The letter that `re.IGNORECASE` compares, for the letters of ASCII. -/
def foldCase (c : CodePoint) : CodePoint :=
  if 0x41 ≤ c.val ∧ c.val ≤ 0x5A then codePoint (c.val + 0x20)
  else if c = codePoint 0x130 ∨ c = codePoint 0x131 then char 'i'
  else if c = codePoint 0x17F then char 's'
  else if c = codePoint 0x212A then char 'k'
  else c

/-- `[0-9]`. -/
def isDigit (c : CodePoint) : Bool := 0x30 ≤ c.val && c.val ≤ 0x39

/-- `[A-Z]`. -/
def isCapital (c : CodePoint) : Bool := 0x41 ≤ c.val && c.val ≤ 0x5A

/-- `[A-Za-z0-9]`. -/
def isAlphanumeric (c : CodePoint) : Bool :=
  isCapital c || (0x61 ≤ c.val && c.val ≤ 0x7A) || isDigit c

/-- One of the prefixes, and behind it all the characters that are accepted, in a number that fits.
With `bounded` there is a `\b` on both sides; the accepted characters are then part of words, so
that no shorter run ends in one. -/
structure Pattern where
  fold : CodePoint → CodePoint
  prefixes : List PyStr
  accepts : CodePoint → Bool
  fits : ℕ → Bool
  bounded : Bool
  ne_nil : ∀ u ∈ prefixes, u ≠ []

/-- `https?://[^\s)>\]}]+`, ignoring case. -/
def urlRe : Pattern where
  fold := foldCase
  prefixes := [text "https://", text "http://"]
  accepts c := !(c.isSpace || (text ")>]\x7d").contains c)
  fits n := 1 ≤ n
  bounded := false
  ne_nil := by decide

/-- `\bAKIA[0-9A-Z]{16}\b`. -/
def accessKeyRe : Pattern where
  fold := id
  prefixes := [text "AKIA"]
  accepts c := isDigit c || isCapital c
  fits n := n = 16
  bounded := true
  ne_nil := by decide

/-- `\bgh[oprsu]_[A-Za-z0-9_]{20,}\b`. -/
def hubTokenRe : Pattern where
  fold := id
  prefixes := [text "gho_", text "ghp_", text "ghr_", text "ghs_", text "ghu_"]
  accepts c := isAlphanumeric c || c = char '_'
  fits n := 20 ≤ n
  bounded := true
  ne_nil := by decide

/-- `\bsk-[A-Za-z0-9]{20,}\b`. -/
def secretKeyRe : Pattern where
  fold := id
  prefixes := [text "sk-"]
  accepts c := isAlphanumeric c
  fits n := 20 ≤ n
  bounded := true
  ne_nil := by decide

/-- `-----BEGIN (?:RSA |EC |OPENSSH )?PRIVATE KEY-----`. -/
def privateKeyRe : Pattern where
  fold := id
  prefixes := [text "-----BEGIN " ++ text "RSA " ++ text "PRIVATE KEY-----",
    text "-----BEGIN " ++ text "EC " ++ text "PRIVATE KEY-----",
    text "-----BEGIN " ++ text "OPENSSH " ++ text "PRIVATE KEY-----",
    text "-----BEGIN " ++ text "PRIVATE KEY-----"]
  accepts _ := false
  fits _ := true
  bounded := false
  ne_nil := by decide

/-- `api[_-]?key|token|secret|password|passwd|authorization`. -/
def keyWords : List PyStr :=
  [text "api_key", text "api-key", text "apikey", text "token", text "secret", text "password",
    text "passwd", text "authorization"]

/-- `[:=]`. -/
def isSeparator (c : CodePoint) : Bool := c = char ':' || c = char '='

/-- `[^\s,;]`. -/
def isValueChar (c : CodePoint) : Bool := !(c.isSpace || c = char ',' || c = char ';')

/-- What is left behind `\s*[:=]\s*[^\s,;]+`. -/
def pairRest (s : PyStr) : Option PyStr :=
  match s.dropWhile CodePoint.isSpace with
  | [] => none
  | separator :: rest =>
    let value := rest.dropWhile CodePoint.isSpace
    if isSeparator separator && value.head?.any isValueChar
      then some (value.dropWhile isValueChar) else none

section Patterns

variable (isWord : CodePoint → Bool)

/-- `\b`. -/
def boundary (prev next : Option CodePoint) : Bool := prev.any isWord != next.any isWord

/-- The matches of a pattern. -/
def Pattern.matcher (p : Pattern) : Matcher CodePoint := fun prev s =>
  (p.prefixes.find? fun u => decide (u <+: s.map p.fold)).bind fun u =>
    let run := (s.drop u.length).takeWhile p.accepts
    let n := u.length + run.length
    if p.fits run.length &&
        (!p.bounded || boundary isWord prev s.head? &&
        boundary isWord (s.take n).getLast? (s.drop n).head?) then
      some n
    else none

/-- `(?i)\b(?:api[_-]?key|token|secret|password|passwd|authorization)\b\s*[:=]\s*[^\s,;]+`. -/
def secretPair : Matcher CodePoint := fun prev s =>
  (keyWords.find? fun u => decide (u <+: s.map foldCase)).bind fun u =>
    if boundary isWord prev s.head? &&
      boundary isWord (s.take u.length).getLast? (s.drop u.length).head? then
      (pairRest (s.drop u.length)).map fun rest => s.length - rest.length
    else none

/-- `SECRET_PATTERNS`, but for the last one. -/
def tokenPatterns : List Pattern := [accessKeyRe, hubTokenRe, secretKeyRe, privateKeyRe]

/-- `[REDACTED_URL]`. -/
def redactedUrl : PyStr := text "[REDACTED_URL]"

/-- `[REDACTED_SECRET]`. -/
def redactedSecret : PyStr := text "[REDACTED_SECRET]"

/-- `sanitize`, before the last pattern. -/
def withoutTokens (s : PyStr) : PyStr :=
  tokenPatterns.foldl (fun sanitized p => sub (p.matcher isWord) redactedSecret sanitized)
    (sub (urlRe.matcher isWord) redactedUrl s)

/-- `sanitize`. -/
def sanitize (s : PyStr) : PyStr := sub (secretPair isWord) redactedSecret (withoutTokens isWord s)

end Patterns

/-! ## Patterns -/

variable {isWord : CodePoint → Bool} {p : Pattern} {prev : Option CodePoint}
  {s u x y z b : PyStr} {c d f : CodePoint}
  {n : ℕ}

/-- A pattern cannot read the character, and it is no part of a word. -/
structure Pattern.Foreign (isWord : CodePoint → Bool) (p : Pattern) (f : CodePoint) : Prop where
  notMem : ∀ u ∈ p.prefixes, p.fold f ∉ u
  notAccepted : p.accepts f = false
  notWord : isWord f = false

/-- What does not have a character is a beginning before it or not at all. -/
theorem prefix_append_cons_iff {α : Type} {u l z : List α} {d : α} (hd : d ∉ u) :
    u <+: l ++ d :: z ↔ u <+: l := by
  constructor
  · intro h
    have hlength : u.length ≤ l.length := by
      by_contra hlt
      obtain ⟨rest, hrest⟩ := h
      have hget : (u ++ rest)[l.length]? = some d := by
        rw [hrest, List.getElem?_append_right (Nat.le_refl _), Nat.sub_self,
          List.getElem?_cons_zero]
      rw [List.getElem?_append_left (by omega)] at hget
      exact hd (List.mem_of_getElem? hget)
    exact List.prefix_of_prefix_length_le h (List.prefix_append _ _) hlength
  · exact fun h => h.trans (List.prefix_append _ _)

/-- What is taken ends at a character that is not. -/
theorem takeWhile_append_cons {α : Type} {q : α → Bool} {l z : List α} {d : α} (hd : q d = false) :
    (l ++ d :: z).takeWhile q = l.takeWhile q := by
  induction l with
  | nil => rw [List.nil_append, List.takeWhile_cons, hd, List.takeWhile_nil]; rfl
  | cons a l ih => rw [List.cons_append, List.takeWhile_cons, List.takeWhile_cons, ih]

/-- The character before a place is of a word only if it was before. -/
theorem head?_any_append_cons (hf : isWord f = false) :
    ((x ++ f :: z).head?).any isWord = x.head?.any isWord := by
  cases x with
  | nil => exact hf
  | cons c x => rfl

/-- The prefix that is found. -/
theorem mem_of_find?_prefix {us : List PyStr} (h : us.find? (fun u => decide (u <+: s)) = some u) :
    u ∈ us ∧ u <+: s :=
  ⟨List.mem_of_find?_eq_some h,
    of_decide_eq_true (@List.find?_some _ (fun u => decide (u <+: s)) _ _ h)⟩

/-- The first beginning is found before a character that none has. -/
theorem find?_prefix_append_cons {us : List PyStr} (h : ∀ u ∈ us, d ∉ u) :
    us.find? (fun u => decide (u <+: s ++ d :: z)) = us.find? fun u => decide (u <+: s) := by
  induction us with
  | nil => rfl
  | cons u us ih =>
    obtain ⟨hu, hus⟩ := List.forall_mem_cons.1 h
    rw [List.find?_cons, List.find?_cons, ih hus, decide_eq_decide.2 (prefix_append_cons_iff hu)]

/-- A match of a pattern is a prefix and a run. -/
theorem Pattern.matcher_eq_some (h : p.matcher isWord prev s = some n) :
    ∃ u ∈ p.prefixes, u <+: s.map p.fold ∧
    n = u.length + ((s.drop u.length).takeWhile p.accepts).length := by
  obtain ⟨u, hfind, h⟩ := Option.bind_eq_some_iff.1 h
  obtain ⟨hmem, hprefix⟩ := mem_of_find?_prefix hfind
  dsimp only at h
  split_ifs at h
  exact ⟨u, hmem, hprefix, (Option.some.inj h).symm⟩

/-- A pattern that matches has characters. -/
theorem Pattern.sound (p : Pattern) : (p.matcher isWord).Sound := by
  intro prev s n h
  obtain ⟨u, hmem, hprefix, rfl⟩ := p.matcher_eq_some h
  have hu : 0 < u.length := List.length_pos_iff.2 (p.ne_nil u hmem)
  have hlength : u.length ≤ s.length := by
    have hlength := hprefix.length_le
    rwa [List.length_map] at hlength
  have hrun : ((s.drop u.length).takeWhile p.accepts).length ≤ (s.drop u.length).length :=
    (List.takeWhile_prefix _).length_le
  rw [List.length_drop] at hrun
  omega

/-- No match begins with a character that no prefix begins with. -/
theorem Pattern.matcher_eq_none (h : ∀ u ∈ p.prefixes, u.head? ≠ some (p.fold c))
    (prev : Option CodePoint)
    (s : PyStr) : p.matcher isWord prev (c :: s) = none := by
  cases hmatch : p.matcher isWord prev (c :: s) with
  | none => rfl
  | some n =>
    obtain ⟨u, hmem, hprefix, -⟩ := p.matcher_eq_some hmatch
    obtain ⟨first, rest, rfl⟩ := List.exists_cons_of_ne_nil (p.ne_nil u hmem)
    rw [List.map_cons, List.cons_prefix_cons] at hprefix
    exact absurd (by rw [List.head?_cons, hprefix.1]) (h _ hmem)

/-- A pattern does not match at a character that is foreign to it. -/
theorem Pattern.Foreign.matcher_eq_none (h : p.Foreign isWord c)
    (prev : Option CodePoint) (s : PyStr) :
    p.matcher isWord prev (c :: s) = none :=
  Pattern.matcher_eq_none (fun u hu heq => h.notMem u hu (List.mem_of_mem_head? heq)) prev s

/-- What follows a character that a pattern cannot read makes no difference. -/
theorem Pattern.local_of_foreign (h : p.Foreign isWord f) (x z : PyStr) :
    (p.matcher isWord).Local x (f :: z) := by
  intro a b prev _ hb
  have hhead : (b ++ f :: z).head? = b.head? := List.head?_append_of_ne_nil b hb
  unfold Pattern.matcher
  rw [List.map_append, List.map_cons, find?_prefix_append_cons h.notMem, hhead]
  refine Option.bind_congr fun u hfind => ?_
  obtain ⟨hmem, hprefix⟩ := mem_of_find?_prefix hfind
  have hlength : u.length ≤ b.length := by
    have hlength := hprefix.length_le
    rwa [List.length_map] at hlength
  have hn : ((b.drop u.length).takeWhile p.accepts).length ≤ b.length - u.length := by
    have hrun := (List.takeWhile_prefix (l := b.drop u.length) p.accepts).length_le
    rwa [List.length_drop] at hrun
  rw [List.drop_append_of_le_length hlength, takeWhile_append_cons h.notAccepted]
  dsimp only
  generalize ((b.drop u.length).takeWhile p.accepts).length = run at hn ⊢
  have hnext := @head?_any_append_cons isWord (b.drop (u.length + run)) z f h.notWord
  rw [List.take_append_of_le_length (by omega), List.drop_append_of_le_length (by omega)]
  unfold boundary
  rw [hnext]

/-- The characters of a match are those of a prefix, or accepted. -/
theorem Pattern.mem_match (h : p.matcher isWord prev s = some n) (hc : c ∈ s.take n) :
    (∃ u ∈ p.prefixes, p.fold c ∈ u) ∨ p.accepts c = true := by
  obtain ⟨u, hmem, hprefix, rfl⟩ := p.matcher_eq_some h
  rw [List.take_add, List.mem_append] at hc
  rcases hc with hc | hc
  · refine .inl ⟨u, hmem, ?_⟩
    have htake : u = (s.take u.length).map p.fold := by
      rw [← List.map_take.symm]
      exact List.prefix_iff_eq_take.1 hprefix
    rw [htake]
    exact List.mem_map_of_mem hc
  · refine .inr (List.mem_takeWhile_imp (l := s.drop u.length) ?_)
    rwa [List.prefix_iff_eq_take.1 (List.takeWhile_prefix p.accepts)]

/-! ## What the patterns cannot read -/

/-- A space is the same in any case. -/
theorem foldCase_of_isSpace (hc : c.isSpace = true) : foldCase c = c := by
  unfold CodePoint.isSpace at hc
  simp only [Bool.or_eq_true, Bool.and_eq_true, decide_eq_true_eq, beq_iff_eq] at hc
  have hne (d : CodePoint) (hd : d = codePoint 0x130 ∨ d = codePoint 0x131 ∨ d = codePoint 0x17F ∨
      d = codePoint 0x212A) : c ≠ d := by
    rintro rfl
    rcases hd with rfl | rfl | rfl | rfl <;> exact absurd hc (by decide)
  unfold foldCase
  rw [if_neg (by omega), if_neg, if_neg (hne _ (.inr (.inr (.inl rfl)))),
    if_neg (hne _ (.inr (.inr (.inr rfl))))]
  exact not_or.2 ⟨hne _ (.inl rfl), hne _ (.inr (.inl rfl))⟩

/-- The characters that separate what is left and right of them: those between a key and a value,
and the brackets that a URL and a substitute end with. -/
def dividers : PyStr := text ":=])"

/-- A divider is in no word. -/
theorem WordChars.not_of_mem_dividers (h : WordChars isWord) (hf : f ∈ dividers) :
    isWord f = false := by
  have hascii : dividers.all (fun f => f.val < 0x80) = true := by decide
  have hnot : dividers.all (fun f =>
    !((0x30 ≤ f.val && f.val ≤ 0x39) || (0x41 ≤ f.val && f.val ≤ 0x5A) ||
      (0x61 ≤ f.val && f.val ≤ 0x7A) || f.val == 0x5F)) = true := by
    decide
  rw [h.ascii f (of_decide_eq_true (List.all_eq_true.1 hascii f hf)),
    Bool.not_eq_true' _ |>.mp (List.all_eq_true.1 hnot f hf)]

/-- No pattern for a token reads a divider. -/
theorem foreign_of_mem_dividers (h : WordChars isWord) (hp : p ∈ tokenPatterns)
    (hf : f ∈ dividers) :
    p.Foreign isWord f := by
  have hforeign : tokenPatterns.all (fun p => dividers.all fun f =>
      p.prefixes.all (fun u => decide (p.fold f ∉ u)) && !p.accepts f) = true := by
    decide
  obtain ⟨hprefixes, haccepts⟩ :=
    Bool.and_eq_true_iff.1 (List.all_eq_true.1 (List.all_eq_true.1 hforeign p hp) f hf)
  exact ⟨fun u hu => of_decide_eq_true (List.all_eq_true.1 hprefixes u hu),
    Bool.not_eq_true' _ |>.mp haccepts, h.not_of_mem_dividers hf⟩

/-- A pattern takes a space as it is. -/
theorem fold_of_isSpace (hp : p ∈ urlRe :: tokenPatterns)
    (hc : c.isSpace = true) : p.fold c = c := by
  simp only [tokenPatterns, List.mem_cons, List.not_mem_nil, or_false] at hp
  rcases hp with rfl | rfl | rfl | rfl | rfl
  · exact foldCase_of_isSpace hc
  · rfl
  · rfl
  · rfl
  · rfl

/-- No match of a pattern begins with white space. -/
theorem matcher_of_isSpace (hp : p ∈ urlRe :: tokenPatterns) (hc : c.isSpace = true)
    (prev : Option CodePoint)
    (s : PyStr) : p.matcher isWord prev (c :: s) = none := by
  have hheads : (urlRe :: tokenPatterns).all (fun p => p.prefixes.all fun u =>
      !u.head?.any CodePoint.isSpace) = true := by
    decide
  refine Pattern.matcher_eq_none (fun u hu heq => ?_) prev s
  have hhead := List.all_eq_true.1 (List.all_eq_true.1 hheads p hp) u hu
  rw [heq, fold_of_isSpace hp hc, Option.any_some, hc] at hhead
  exact nomatch hhead

/-- Only the header of a private key has white space in it. -/
theorem foreign_of_isSpace (h : WordChars isWord)
    (hp : p ∈ [urlRe, accessKeyRe, hubTokenRe, secretKeyRe])
    (hf : f.isSpace = true) : p.Foreign isWord f := by
  have hblack : [urlRe, accessKeyRe, hubTokenRe, secretKeyRe].all (fun p => p.prefixes.all fun u =>
      u.all fun c => !c.isSpace) = true := by
    decide
  have hfold : p.fold f = f := by
    refine fold_of_isSpace ?_ hf
    simp only [tokenPatterns, List.mem_cons, List.not_mem_nil, or_false] at hp ⊢
    rcases hp with hp | hp | hp | hp <;> simp only [hp, true_or, or_true]
  refine ⟨fun u hu hmem => ?_, ?_, h.space f hf⟩
  · rw [hfold] at hmem
    have hspace := List.all_eq_true.1
      (List.all_eq_true.1 (List.all_eq_true.1 hblack p hp) u hu) f hmem
    rw [hf] at hspace
    exact nomatch hspace
  · -- White space is outside every range of the patterns.
    have hrange (hcode : (0x30 ≤ f.val ∧ f.val ≤ 0x39) ∨ (0x41 ≤ f.val ∧ f.val ≤ 0x5A) ∨
        (0x61 ≤ f.val ∧ f.val ≤ 0x7A) ∨ f.val = 0x5F) : False := by
      unfold CodePoint.isSpace at hf
      simp only [Bool.or_eq_true, Bool.and_eq_true, decide_eq_true_eq, beq_iff_eq] at hf
      omega
    have hdigit : isDigit f = false := by
      unfold isDigit
      rw [Bool.eq_false_iff]
      intro hdigit
      rw [Bool.and_eq_true, decide_eq_true_eq, decide_eq_true_eq] at hdigit
      exact hrange (.inl hdigit)
    have hcapital : isCapital f = false := by
      unfold isCapital
      rw [Bool.eq_false_iff]
      intro hcapital
      rw [Bool.and_eq_true, decide_eq_true_eq, decide_eq_true_eq] at hcapital
      exact hrange (.inr (.inl hcapital))
    have halphanumeric : isAlphanumeric f = false := by
      unfold isAlphanumeric
      rw [hdigit, hcapital, Bool.or_false, Bool.false_or, Bool.eq_false_iff]
      intro hlower
      rw [Bool.and_eq_true, decide_eq_true_eq, decide_eq_true_eq] at hlower
      exact hrange (.inr (.inr (.inl hlower)))
    have hunderscore : f ≠ char '_' := by
      rintro rfl
      exact hrange (.inr (.inr (.inr (by decide))))
    simp only [List.mem_cons, List.not_mem_nil, or_false] at hp
    rcases hp with rfl | rfl | rfl | rfl
    · show (!(f.isSpace || (text ")>]\x7d").contains f)) = false
      rw [hf]
      rfl
    · show (isDigit f || isCapital f) = false
      rw [hdigit, hcapital]
      rfl
    · show (isAlphanumeric f || decide (f = char '_')) = false
      rw [halphanumeric, decide_eq_false hunderscore]
      rfl
    · exact halphanumeric

end MarketDataGateway.Causal
