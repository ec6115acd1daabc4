import Mathlib.Order.Fin.Basic
import Mathlib.Data.Nat.Basic
import Mathlib.Algebra.Order.Group.Nat
import Mathlib.Data.List.TakeWhile

/-!
# Text and its encodings

Text is a list of code points, as Python's `str` is: a surrogate is a code point like any other. The
UTF-8 encoder refuses surrogates. The decoders are those of the error handler `surrogatepass`, which
lets them through, for the encodings that `json.loads` detects.

`decodeAll_encodeUtf8` is the round trip.
-/

namespace MarketDataGateway.Lib

/-- An octet. -/
abbrev Byte := Fin 256

/-- A code point of Unicode. -/
abbrev CodePoint := Fin 0x110000

instance neZeroByte : @NeZero ℕ Zero.ofOfNat0 256 := ⟨by decide⟩

instance neZeroCodePoint : @NeZero ℕ Zero.ofOfNat0 0x110000 := ⟨by decide⟩

instance lawfulBEqCodePoint : LawfulBEq CodePoint := inferInstance

/-- Text: a Python `str`. -/
abbrev PyStr := List CodePoint

/-- The code point of a character. -/
def CodePoint.ofChar (c : Char) : CodePoint := Fin.ofNat 0x110000 c.toNat

/-- The text of a string. -/
def text (s : String) : PyStr := s.toList.map CodePoint.ofChar

/-- The code point is whitespace for `str.strip`. -/
def CodePoint.isSpace (c : CodePoint) : Bool :=
  (0x09 ≤ c.val && c.val ≤ 0x0D) || (0x1C ≤ c.val && c.val ≤ 0x20) || c.val == 0x85 ||
    c.val == 0xA0 || c.val == 0x1680 || (0x2000 ≤ c.val && c.val ≤ 0x200A) || c.val == 0x2028 ||
    c.val == 0x2029 || c.val == 0x202F || c.val == 0x205F || c.val == 0x3000

/-- `str.strip`. -/
def strip (s : PyStr) : PyStr :=
  ((s.dropWhile CodePoint.isSpace).reverse.dropWhile CodePoint.isSpace).reverse

/-- `str.upper`, with `special` for what is not of ASCII. -/
def upper (special : CodePoint → PyStr) (s : PyStr) : PyStr :=
  s.flatMap fun c =>
    if c.val < 0x80 then [if 0x61 ≤ c.val ∧
      c.val ≤ 0x7A then Fin.ofNat 0x110000 (c.val - 0x20) else c]
    else special c

/-- Nothing is stripped from a text without spaces. -/
theorem strip_eq {s : PyStr} (h : ∀ c ∈ s, c.isSpace = false) : strip s = s := by
  have hdrop (t : PyStr) (ht : ∀ c ∈ t, c.isSpace = false) : t.dropWhile CodePoint.isSpace = t := by
    rw [List.dropWhile_eq_self_iff]
    exact fun hpos => Bool.eq_false_iff.1 (ht _ (List.getElem_mem hpos))
  unfold strip
  rw [hdrop s h, hdrop s.reverse fun c hc => h c (List.mem_reverse.1 hc), List.reverse_reverse]

/-- A text of ASCII without small letters is in capitals. -/
theorem upper_eq {special : CodePoint → PyStr} {s : PyStr}
    (h : ∀ c ∈ s, c.val < 0x80 ∧ ¬(0x61 ≤ c.val ∧ c.val ≤ 0x7A)) : upper special s = s := by
  induction s with
  | nil => rfl
  | cons c s ih =>
    obtain ⟨hascii, hlower⟩ := h c List.mem_cons_self
    have hrest := ih fun c' hc' => h c' (List.mem_cons_of_mem c hc')
    unfold upper at hrest ⊢
    rw [List.flatMap_cons, if_pos hascii, if_neg hlower, hrest]
    rfl

/-- The low bits of a number as an octet. -/
abbrev byte (n : ℕ) : Byte := Fin.ofNat 256 n

/-- The number as a code point. -/
abbrev codePoint (n : ℕ) : CodePoint := Fin.ofNat 0x110000 n

/-- The code point is one of UTF-16's surrogates. -/
def CodePoint.IsSurrogate (c : CodePoint) : Prop := 0xD800 ≤ c.val ∧ c.val < 0xE000

instance (c : CodePoint) : Decidable c.IsSurrogate := inferInstanceAs (Decidable (_ ∧ _))

/-! ## UTF-8 -/

/-- The octets of a code point. -/
def encodeChar (c : CodePoint) : Option (List Byte) :=
  if c.val < 0x80 then some [byte c.val]
  else if c.val < 0x800 then some [byte (0xC0 + c.val / 64), byte (0x80 + c.val % 64)]
  else if c.IsSurrogate then none
  else if c.val < 0x10000 then
    some [byte (0xE0 + c.val / 4096), byte (0x80 + c.val / 64 % 64), byte (0x80 + c.val % 64)]
  else
    some [byte (0xF0 + c.val / 262144), byte (0x80 + c.val / 4096 % 64),
      byte (0x80 + c.val / 64 % 64), byte (0x80 + c.val % 64)]

/-- `str.encode("utf-8")`. It fails on a surrogate. -/
def encodeUtf8 : PyStr → Option (List Byte)
  | [] => some []
  | c :: s =>
    match encodeChar c, encodeUtf8 s with
    | some bytes, some rest => some (bytes ++ rest)
    | _, _ => none

/-- A continuation octet. -/
def isTail (b : Byte) : Bool := 0x80 ≤ b.val && b.val < 0xC0

/-- The first code point of UTF-8, and what comes after it. -/
def nextUtf8 : List Byte → Option (CodePoint × List Byte)
  | [] => none
  | a :: rest =>
    if a.val < 0x80 then some (codePoint a.val, rest)
    else match rest with
    | [] => none
    | b :: rest =>
      if !isTail b then none
      else if 0xC2 ≤ a.val ∧ a.val < 0xE0 then
        some (codePoint ((a.val - 0xC0) * 64 + (b.val - 0x80)), rest)
      else match rest with
      | [] => none
      | c :: rest =>
        if !isTail c then none
        -- Surrogates pass: `0xED` is like the other octets of the range.
        else if a.val = 0xE0 ∧ 0xA0 ≤ b.val ∨ 0xE1 ≤ a.val ∧ a.val < 0xF0 then
          some (codePoint ((a.val - 0xE0) * 4096 + (b.val - 0x80) * 64 + (c.val - 0x80)), rest)
        else match rest with
        | [] => none
        | d :: rest =>
          if !isTail d then none
          else if a.val = 0xF0 ∧ 0x90 ≤ b.val ∨ 0xF1 ≤ a.val ∧ a.val < 0xF4 ∨
              a.val = 0xF4 ∧ b.val < 0x90 then
            some (codePoint ((a.val - 0xF0) * 262144 + (b.val - 0x80) * 4096 +
              (c.val - 0x80) * 64 + (d.val - 0x80)), rest)
          else none

/-! ## UTF-16 and UTF-32 -/

/-- The number that the octets write, in the given order. -/
def unit (littleEndian : Bool) (bytes : List Byte) : ℕ :=
  (if littleEndian then bytes.reverse else bytes).foldl (fun n b => n * 256 + b.val) 0

/-- The first code point of UTF-16, and what comes after it. -/
def nextUtf16 (littleEndian : Bool) : List Byte → Option (CodePoint × List Byte)
  | a :: b :: rest =>
    let high := unit littleEndian [a, b]
    match rest with
    | c :: d :: rest' =>
      let low := unit littleEndian [c, d]
      if 0xD800 ≤ high ∧ high < 0xDC00 ∧ 0xDC00 ≤ low ∧ low < 0xE000 then
        some (codePoint (0x10000 + (high - 0xD800) * 1024 + (low - 0xDC00)), rest')
      else some (codePoint high, rest)
    | _ => some (codePoint high, rest)
  | _ => none

/-- The first code point of UTF-32, and what comes after it. -/
def nextUtf32 (littleEndian : Bool) : List Byte → Option (CodePoint × List Byte)
  | a :: b :: c :: d :: rest =>
    let n := unit littleEndian [a, b, c, d]
    if n < 0x110000 then some (codePoint n, rest) else none
  | _ => none

/-! ## Decoding -/

/-- The text of the octets, code point by code point, within so many of these. -/
def decodeUpTo (next : List Byte → Option (CodePoint × List Byte)) : ℕ → List Byte → Option PyStr
  | _, [] => some []
  | 0, _ => none
  | n + 1, bytes =>
    match next bytes with
    | none => none
    | some (c, rest) => (decodeUpTo next n rest).map (c :: ·)

/-- The text of the octets. A code point takes at least one of them. -/
def decodeAll (next : List Byte → Option (CodePoint × List Byte)) (bytes : List Byte) :
    Option PyStr :=
  decodeUpTo next bytes.length bytes

/-- The encodings that `json.detect_encoding` names. -/
inductive Encoding
  /-- `utf-8`. -/
  | utf8
  /-- `utf-8-sig`. -/
  | utf8Sig
  /-- `utf-16`, which begins with a byte order mark. -/
  | utf16
  /-- `utf-16-le` and `utf-16-be`. -/
  | utf16Of (littleEndian : Bool)
  /-- `utf-32`, which begins with a byte order mark. -/
  | utf32
  /-- `utf-32-le` and `utf-32-be`. -/
  | utf32Of (littleEndian : Bool)
  deriving DecidableEq

/-- `json.detect_encoding`. -/
def detectEncoding (bytes : List Byte) : Encoding :=
  if [0x00, 0x00, 0xFE, 0xFF] <+: bytes ∨ [0xFF, 0xFE, 0x00, 0x00] <+: bytes then .utf32
  else if [0xFE, 0xFF] <+: bytes ∨ [0xFF, 0xFE] <+: bytes then .utf16
  else if [0xEF, 0xBB, 0xBF] <+: bytes then .utf8Sig
  else match bytes with
  | [a, b] => if a = 0 then .utf16Of false else if b = 0 then .utf16Of true else .utf8
  | a :: b :: c :: d :: _ =>
    if a = 0 then if b = 0 then .utf32Of false else .utf16Of false
    else if b = 0 then if c = 0 ∧ d = 0 then .utf32Of true else .utf16Of true
    else .utf8
  | _ => .utf8

/-- `bytes.decode(encoding, "surrogatepass")`. -/
def decode (bytes : List Byte) : Encoding → Option PyStr
  | .utf8 => decodeAll nextUtf8 bytes
  | .utf8Sig => decodeAll nextUtf8 (bytes.drop 3)
  | .utf16 => decodeAll (nextUtf16 (bytes.head? = some 0xFF)) (bytes.drop 2)
  | .utf16Of littleEndian => decodeAll (nextUtf16 littleEndian) bytes
  | .utf32 => decodeAll (nextUtf32 (bytes.head? = some 0xFF)) (bytes.drop 4)
  | .utf32Of littleEndian => decodeAll (nextUtf32 littleEndian) bytes

/-! ## The round trip -/

section RoundTrip

variable {c : CodePoint} {s : PyStr} {bytes rest : List Byte} {n : ℕ}

/-- The code point of the number of one is the code point. -/
theorem codePoint_val (c : CodePoint) : codePoint c.val = c := by
  apply Fin.ext
  exact Nat.mod_eq_of_lt c.isLt

/-- What has been written for a code point is read back. -/
theorem nextUtf8_encodeChar (h : encodeChar c = some bytes) :
    nextUtf8 (bytes ++ rest) = some (c, rest) := by
  have hc : c.val < 0x110000 := c.isLt
  have hval {n : ℕ} (hn : n = c.val) : codePoint n = c := hn ▸ codePoint_val c
  unfold encodeChar at h
  split_ifs at h with h1 h2 _ h3
  · -- The character takes one byte.
    obtain rfl := Option.some.inj h
    have ha : (byte c.val).val = c.val := Nat.mod_eq_of_lt (by omega)
    simp only [List.cons_append, List.nil_append, nextUtf8, ha]
    rw [if_pos h1, codePoint_val]
  · -- It takes two bytes.
    obtain rfl := Option.some.inj h
    have ha : (byte (0xC0 + c.val / 64)).val = 0xC0 + c.val / 64 := Nat.mod_eq_of_lt (by omega)
    have hb : (byte (0x80 + c.val % 64)).val = 0x80 + c.val % 64 := Nat.mod_eq_of_lt (by omega)
    have htail : isTail (byte (0x80 + c.val % 64)) = true := by
      simp only [isTail, hb, Bool.and_eq_true, decide_eq_true_eq]
      omega
    simp only [List.cons_append, List.nil_append, nextUtf8, ha, hb, htail]
    rw [if_neg (by omega), if_neg (by decide), if_pos (by omega), hval (by omega)]
  · -- It takes three bytes.
    obtain rfl := Option.some.inj h
    have ha : (byte (0xE0 + c.val / 4096)).val = 0xE0 + c.val / 4096 :=
      Nat.mod_eq_of_lt (by omega)
    have hb : (byte (0x80 + c.val / 64 % 64)).val = 0x80 + c.val / 64 % 64 :=
      Nat.mod_eq_of_lt (by omega)
    have hd : (byte (0x80 + c.val % 64)).val = 0x80 + c.val % 64 := Nat.mod_eq_of_lt (by omega)
    have htail {n : ℕ} (hn : (byte (0x80 + n)).val = 0x80 + n) (h64 : n < 64) :
        isTail (byte (0x80 + n)) = true := by
      simp only [isTail, hn, Bool.and_eq_true, decide_eq_true_eq]
      omega
    simp only [List.cons_append, List.nil_append, nextUtf8, ha, hb, hd, htail hb (by omega),
      htail hd (by omega)]
    rw [if_neg (by omega), if_neg (by decide), if_neg (by omega), if_neg (by decide),
      if_pos (by omega), hval (by omega)]
  · -- It takes four bytes.
    obtain rfl := Option.some.inj h
    have ha : (byte (0xF0 + c.val / 262144)).val = 0xF0 + c.val / 262144 :=
      Nat.mod_eq_of_lt (by omega)
    have hb : (byte (0x80 + c.val / 4096 % 64)).val = 0x80 + c.val / 4096 % 64 :=
      Nat.mod_eq_of_lt (by omega)
    have hd : (byte (0x80 + c.val / 64 % 64)).val = 0x80 + c.val / 64 % 64 :=
      Nat.mod_eq_of_lt (by omega)
    have he : (byte (0x80 + c.val % 64)).val = 0x80 + c.val % 64 := Nat.mod_eq_of_lt (by omega)
    have htail {n : ℕ} (hn : (byte (0x80 + n)).val = 0x80 + n) (h64 : n < 64) :
        isTail (byte (0x80 + n)) = true := by
      simp only [isTail, hn, Bool.and_eq_true, decide_eq_true_eq]
      omega
    simp only [List.cons_append, List.nil_append, nextUtf8, ha, hb, hd, he, htail hb (by omega),
      htail hd (by omega), htail he (by omega)]
    rw [if_neg (by omega), if_neg (by decide), if_neg (by omega), if_neg (by decide),
      if_neg (by omega), if_neg (by decide), if_pos (by omega), hval (by omega)]

/-- A code point is written in at least one octet. -/
theorem length_encodeChar (h : encodeChar c = some bytes) : 0 < bytes.length := by
  unfold encodeChar at h
  split_ifs at h
  all_goals
    obtain rfl := Option.some.inj h
    exact Nat.succ_pos _

/-- A text is encoded if its first character and the rest are. -/
theorem encodeUtf8_cons (h : encodeUtf8 (c :: s) = some bytes) :
    ∃ first rest, encodeChar c = some first ∧ encodeUtf8 s = some rest ∧ bytes = first ++ rest := by
  rw [encodeUtf8] at h
  split at h
  · next first rest hfirst hrest => exact ⟨first, rest, hfirst, hrest, (Option.some.inj h).symm⟩
  · cases h

/-- The encoding of a text is decoded to it. -/
theorem decodeUpTo_encodeUtf8 (h : encodeUtf8 s = some bytes) (hn : bytes.length ≤ n) :
    decodeUpTo nextUtf8 n bytes = some s := by
  induction s generalizing bytes n with
  | nil =>
    obtain rfl := Option.some.inj h
    cases n <;> rfl
  | cons c s ih =>
    obtain ⟨first, rest, hfirst, hrest, rfl⟩ := encodeUtf8_cons h
    have hpos := length_encodeChar hfirst
    rw [List.length_append] at hn
    obtain ⟨m, rfl⟩ : ∃ m, n = m + 1 := ⟨n - 1, by omega⟩
    have hnext : nextUtf8 (first ++ rest) = some (c, rest) := nextUtf8_encodeChar hfirst
    have hdecode : decodeUpTo nextUtf8 (m + 1) (first ++ rest) =
        (decodeUpTo nextUtf8 m rest).map (c :: ·) := by
      obtain ⟨b, first, rfl⟩ := List.exists_cons_of_length_pos hpos
      rw [List.cons_append] at hnext ⊢
      calc decodeUpTo nextUtf8 (m + 1) (b :: (first ++ rest))
          = match nextUtf8 (b :: (first ++ rest)) with
            | none => none
            | some (c, rest) => (decodeUpTo nextUtf8 m rest).map (c :: ·) := rfl
        _ = (decodeUpTo nextUtf8 m rest).map (c :: ·) := by rw [hnext]
    have hs : decodeUpTo nextUtf8 m rest = some s := ih hrest (by omega)
    rw [hdecode, hs]
    rfl

/-- `s.encode("utf-8").decode("utf-8", "surrogatepass")` gives the text back. -/
theorem decodeAll_encodeUtf8 (h : encodeUtf8 s = some bytes) :
    decodeAll nextUtf8 bytes = some s := decodeUpTo_encodeUtf8 h le_rfl

/-- Texts with the same encoding are the same. -/
theorem encodeUtf8_injective {s' : PyStr} (h : encodeUtf8 s = some bytes)
    (h' : encodeUtf8 s' = some bytes) : s = s' :=
  Option.some.inj ((decodeAll_encodeUtf8 h).symm.trans (decodeAll_encodeUtf8 h'))

/-- An ASCII character is written as itself, and no other character has that octet. -/
theorem mem_encodeChar {b : Byte} (h : encodeChar c = some bytes) (hb : b ∈ bytes)
    (hlt : b.val < 0x80) : c.val = b.val := by
  have hc : c.val < 0x110000 := c.isLt
  have hhigh {n : ℕ} (hn : 0x80 ≤ n) (hn' : n < 256) : b ≠ byte n := by
    rintro rfl
    have hval : (byte n).val = n := Nat.mod_eq_of_lt hn'
    omega
  unfold encodeChar at h
  split_ifs at h with h1 h2 _ h3
  · obtain rfl := Option.some.inj h
    obtain rfl := List.mem_singleton.1 hb
    have hval : (byte c.val).val = c.val := Nat.mod_eq_of_lt (by omega)
    exact hval.symm
  · obtain rfl := Option.some.inj h
    simp only [List.mem_cons, List.not_mem_nil, or_false] at hb
    rcases hb with hb | hb
    all_goals exact absurd hb (hhigh (by omega) (by omega))
  · obtain rfl := Option.some.inj h
    simp only [List.mem_cons, List.not_mem_nil, or_false] at hb
    rcases hb with hb | hb | hb
    all_goals exact absurd hb (hhigh (by omega) (by omega))
  · obtain rfl := Option.some.inj h
    simp only [List.mem_cons, List.not_mem_nil, or_false] at hb
    rcases hb with hb | hb | hb | hb
    all_goals exact absurd hb (hhigh (by omega) (by omega))

/-- An octet of ASCII is that of a character. -/
theorem mem_encodeUtf8 {b : Byte} (h : encodeUtf8 s = some bytes) (hb : b ∈ bytes)
    (hlt : b.val < 0x80) : ∃ c ∈ s, c.val = b.val := by
  induction s generalizing bytes with
  | nil =>
    obtain rfl := Option.some.inj h
    cases hb
  | cons c s ih =>
    obtain ⟨first, rest, hfirst, hrest, rfl⟩ := encodeUtf8_cons h
    rcases List.mem_append.1 hb with hb | hb
    · exact ⟨c, List.mem_cons_self, mem_encodeChar hfirst hb hlt⟩
    · obtain ⟨c', hc', hval⟩ := ih hrest hb
      exact ⟨c', List.mem_cons_of_mem c hc', hval⟩

/-- A text is encoded part by part. -/
theorem encodeUtf8_append {s' : PyStr} {bytes' : List Byte} (h : encodeUtf8 s = some bytes)
    (h' : encodeUtf8 s' = some bytes') : encodeUtf8 (s ++ s') = some (bytes ++ bytes') := by
  induction s generalizing bytes with
  | nil =>
    obtain rfl := Option.some.inj h
    exact h'
  | cons c s ih =>
    obtain ⟨first, rest, hfirst, hrest, rfl⟩ := encodeUtf8_cons h
    rw [List.cons_append, encodeUtf8, hfirst, ih hrest]
    dsimp only
    rw [List.append_assoc]

/-- Text that begins with two characters of ASCII is taken for UTF-8. -/
theorem detectEncoding_ascii {a b : Byte} (ha : 0 < a.val) (ha' : a.val < 0x80) (hb : 0 < b.val) :
    detectEncoding (a :: b :: rest) = .utf8 := by
  have hne (n : Byte) (hn : 0x80 ≤ n.val) : n ≠ a := by
    rintro rfl
    omega
  have ha0 : a ≠ 0 := fun h => by simp [h] at ha
  have hb0 : b ≠ 0 := fun h => by simp [h] at hb
  unfold detectEncoding
  simp only [List.cons_prefix_cons, ha0.symm, hne 0xFF (by decide), hne 0xFE (by decide),
    hne 0xEF (by decide), false_and, or_self, if_false]
  split
  · next heq =>
    simp only [List.cons.injEq] at heq
    obtain ⟨rfl, rfl, -⟩ := heq
    rw [if_neg ha0, if_neg hb0]
  · next heq =>
    simp only [List.cons.injEq] at heq
    obtain ⟨rfl, rfl, -⟩ := heq
    rw [if_neg ha0, if_neg hb0]
  · rfl

end RoundTrip

end MarketDataGateway.Lib
