import MarketDataGateway.Lib.Capitals
import MarketDataGateway.Session.Command

/-!
# Which values are taken for lists of symbols

`normalize_symbols` and `normalize_allowed_symbols` go through what they are given, whatever it is,
and take the text of each element. An array of strings is what is declared; but a string is gone
through by its characters, an object by its keys, and what is no string in an array by the text that
`str` gives. Whether such a value is taken or refused is what the theorems of this file say, for the
three places in which symbols are given: a command, the claims of a token, and the profile of a
client.
-/

namespace MarketDataGateway.Session

open Lib
open Access.Profiles (PyText ClientIdentity ServiceTier MergeError iter merge getOr
    parseTier parseChannels
  parseOrganization)

/-! ## Values -/

/-- The value is absent, null or an array of strings. -/
def AsList : Option Json → Prop
  | none | some .null => True
  | some (.list items) => ∀ item ∈ items, ∃ s, item = .str s
  | _ => False

/-- The strings of an array of strings. -/
def strings : Option Json → List PyStr
  | some (.list items) => items.filterMap fun
    | .str s => some s
    | _ => none
  | _ => []

/-- The texts that are normalized. -/
def texts (py : PyText) : Option Json → List PyStr
  | some (.list items) => items.map py.str
  | some (.str s) => s.map fun c => [c]
  | some (.dict entries) => entries.map Prod.fst
  | _ => []

/-- The texts trimmed, without the empty ones, in capitals. -/
def cleaned (py : PyText) (l : List PyStr) : List PyStr :=
  ((l.map strip).filter (· ≠ [])).map (upper py.special)

/-- What `allowed_symbols` comes to. -/
def allowed (py : PyText) : Option Json → Option (Finset PyStr)
  | none | some .null => none
  | v => some (cleaned py (strings v)).toFinset

/-- What has been normalized can be the symbols of a command. -/
def Fits (py : PyText) (v : Option Json) : Prop :=
  (∀ s ∈ cleaned py (texts py v), Models.Matches 1 32 Models.isSymbolChar s) ∧
    (cleaned py (texts py v)).eraseDups.length ≤ 500

instance (py : PyText) (v : Option Json) : Decidable (Fits py v) :=
  inferInstanceAs (Decidable (_ ∧ _))

section Values

variable {py : PyText} {v : Option Json} {l : List PyStr}

/-- What is taken for a list can be iterated. -/
theorem isIterable_of_asList (h : AsList v) : isIterable v = true := by
  rcases v with _ | (_ | _ | _ | _ | _ | _ | _)
  all_goals first
    | rfl
    | exact False.elim h

/-- Of an array of strings, the strings are normalized. -/
theorem texts_eq_strings (h : AsList v) : texts py v = strings v := by
  rcases v with _ | (_ | _ | _ | _ | _ | items | _)
  case some.list =>
    show items.map py.str = items.filterMap _
    induction items with
    | nil => rfl
    | cons item items ih =>
      obtain ⟨s, rfl⟩ := h item List.mem_cons_self
      have hrest : AsList (some (.list items)) := fun i hi => h i (List.mem_cons_of_mem _ hi)
      rw [List.map_cons, List.filterMap_cons, ih hrest]
      rfl
  all_goals first
    | rfl
    | exact False.elim h

/-- `iter` gives the texts. -/
theorem iter_eq {v : Json} (h : isIterable (some v) = true) (hnull : v ≠ .null) :
    ∃ items, iter v = .ok items ∧ items.map py.str = texts py (some v) := by
  cases v with
  | null => exact absurd rfl hnull
  | list items => exact ⟨items, rfl, rfl⟩
  | str s => exact ⟨_, rfl, List.map_map⟩
  | dict entries => exact ⟨_, rfl, List.map_map⟩
  | _ => exact absurd h Bool.false_ne_true

/-- What cannot be iterated raises a type error. -/
theorem iter_error {v : Json} (h : isIterable (some v) = false) : iter v = .error .typeError := by
  cases v with
  | null => exact nomatch h
  | list items => exact nomatch h
  | str s => exact nomatch h
  | dict entries => exact nomatch h
  | _ => rfl

/-- What has been normalized is trimmed and in capitals. -/
theorem fixed_of_mem_cleaned (hcapitals : Capitals py.special) {s : PyStr} (hs : s ∈ cleaned py l) :
    strip s = s ∧ upper py.special s = s ∧ s ≠ [] := by
  obtain ⟨t, ht, rfl⟩ := List.mem_map.1 hs
  obtain ⟨ht, hne⟩ := List.mem_filter.1 ht
  obtain ⟨u, -, rfl⟩ := List.mem_map.1 ht
  exact ⟨hcapitals.strip_upper_strip u, hcapitals.upper_upper _,
    hcapitals.upper_ne_nil (of_decide_eq_true hne)⟩

/-- Normalizing what has been normalized changes nothing. -/
theorem cleaned_eq_self (hcapitals : Capitals py.special) {l' : List PyStr}
    (h : ∀ s ∈ l', s ∈ cleaned py l) : cleaned py l' = l' := by
  have hfixed (s : PyStr) (hs : s ∈ l') := fixed_of_mem_cleaned hcapitals (h s hs)
  have hstrip : l'.map strip = l' :=
    (List.map_congr_left fun s hs => (hfixed s hs).1).trans (List.map_id' l')
  have hfilter : l'.filter (· ≠ []) = l' :=
    List.filter_eq_self.2 fun s hs => decide_eq_true (hfixed s hs).2.2
  have hupper : l'.map (upper py.special) = l' :=
    (List.map_congr_left fun s hs => (hfixed s hs).2.1).trans (List.map_id' l')
  unfold cleaned
  rw [hstrip, hfilter, hupper]

/-- The normalized symbols are those that are cleaned. -/
theorem normalizeSymbols_toFinset (l : List PyStr) :
    py.normalizeSymbols l = (cleaned py l).toFinset := by
  ext s
  simp only [PyText.normalizeSymbols, cleaned, Finset.mem_image, List.mem_toFinset, List.mem_map]

/-- What can be gone through is taken. -/
theorem parseSymbols_eq {v : Json} (h : isIterable (some v) = true) (hnull : v ≠ .null) :
    py.parseSymbols v = .ok (some (cleaned py (texts py (some v))).toFinset) := by
  obtain ⟨items, hiter, hitems⟩ := @iter_eq py v h hnull
  have hbind : py.parseSymbols v =
      (iter v).bind fun items => .ok (some (py.normalizeSymbols (items.map py.str))) := by
    cases v with
    | null => exact absurd rfl hnull
    | _ => rfl
  rw [hbind, hiter, ← normalizeSymbols_toFinset, ← hitems]
  rfl

/-- What cannot raises a `TypeError`. -/
theorem parseSymbols_error {v : Json} (h : isIterable (some v) = false) :
    py.parseSymbols v = .error .typeError := by
  have hiter := iter_error h
  cases v with
  | null => exact nomatch h
  | _ =>
    unfold PyText.parseSymbols
    dsimp only
    rw [hiter]
    rfl

/-- `allowed_symbols` that has been taken for a list is the list. -/
theorem parseSymbols_of_asList {v : Json} {r : Option (Finset PyStr)} (h : AsList (some v))
    (hr : py.parseSymbols v = .ok r) : r = allowed py (some v) := by
  by_cases hnull : v = .null
  · subst hnull
    exact (Except.ok.inj hr).symm
  · have hok := @parseSymbols_eq py v (isIterable_of_asList h) hnull
    rw [← Except.ok.inj (hok.symm.trans hr), texts_eq_strings h]
    cases v with
    | null => exact absurd rfl hnull
    | _ => rfl

/-- What `normalize_allowed_symbols` and the field after it take. -/
theorem parseSymbols_ok_iff {v : Json} :
    (∃ r, py.parseSymbols v = .ok r) ↔ isIterable (some v) = true := by
  by_cases hnull : v = .null
  · subst hnull
    exact iff_of_true ⟨none, rfl⟩ rfl
  · cases hiter : isIterable (some v) with
    | false =>
      refine iff_of_false ?_ nofun
      rintro ⟨r, hr⟩
      exact nomatch (parseSymbols_error hiter).symm.trans hr
    | true => exact iff_of_true ⟨_, parseSymbols_eq hiter hnull⟩ rfl

end Values

/-! ## Commands -/

/-- Whatever else a command has, its `symbols` are taken for a list or refused by a
`ValidationError`. -/
def CommandStrict (py : PyText) (v : Option Json) : Prop :=
  ∀ entries, getKey (text "symbols") entries = v →
    (∀ command, SubscriptionCommand.modelValidate py (.dict entries) = .ok command →
      AsList v ∧ command.symbols.map Subtype.val = (cleaned py (strings v)).eraseDups) ∧
    (¬AsList v → SubscriptionCommand.modelValidate py (.dict entries) = .error .validationError)

section Command

variable {py : PyText} {v : Option Json} {entries : List (PyStr × Json)} {symbols : List PyStr}
  {command : SubscriptionCommand}

/-- The symbols of a command are the cleaned ones, each once. -/
theorem normalizeSymbols_eq (h : isIterable v = true) :
    SubscriptionCommand.normalizeSymbols py v = .ok (cleaned py (texts py v)).eraseDups := by
  rcases v with _ | v
  · rfl
  · by_cases hnull : v = .null
    · subst hnull
      rfl
    · obtain ⟨items, hiter, hitems⟩ := @iter_eq py v h hnull
      have hmap : items.map (fun symbol => strip (py.str symbol)) =
          (texts py (some v)).map strip := by
        rw [← hitems, List.map_map]
        rfl
      have hbind : SubscriptionCommand.normalizeSymbols py (some v) =
          (iter v).toOption.elim (.error .typeError) fun items =>
            .ok (((items.map fun symbol => strip (py.str symbol)).filter (· ≠ [])).map
              (upper py.special)).eraseDups := by
        cases v <;> first | exact absurd rfl hnull | rfl
      refine hbind.trans ?_
      rw [hiter, Except.toOption, Option.elim_some, hmap]
      rfl

/-- Symbols are parsed if they are symbols as they stand. -/
theorem mapM_parseSymbol {parsed : List Models.Symbol} :
    symbols.mapM SubscriptionCommand.parseSymbol = some parsed ↔
    parsed.map Subtype.val = symbols := by
  have hparse (s : PyStr) (symbol : Models.Symbol) :
      SubscriptionCommand.parseSymbol s = some symbol ↔ symbol.1 = s := by
    unfold SubscriptionCommand.parseSymbol
    constructor
    · intro h
      split_ifs at h
      rw [← Option.some.inj h]
    · rintro rfl
      rw [dif_pos symbol.2]
  induction symbols generalizing parsed with
  | nil =>
    show some [] = some parsed ↔ _
    rw [Option.some_inj, List.map_eq_nil_iff, eq_comm]
  | cons s symbols ih =>
    rw [List.mapM_cons]
    simp only [Option.bind_eq_bind, Option.bind_eq_some_iff, Option.pure_def,
      Option.some_inj, hparse, ih]
    constructor
    · rintro ⟨symbol, rfl, rest, rfl, rfl⟩
      rfl
    · intro h
      obtain ⟨symbol, rest, rfl, hsymbol, hrest⟩ := List.map_eq_cons_iff.1 h
      exact ⟨symbol, hsymbol, rest, hrest, rfl⟩

/-- The symbols of a command are the texts that have been normalized. -/
theorem symbols_of_parseFields (h : SubscriptionCommand.parseFields entries symbols =
    some command) :
    command.symbols.map Subtype.val = symbols := by
  unfold SubscriptionCommand.parseFields at h
  simp only [Option.bind_eq_bind, Option.bind_eq_some_iff] at h
  obtain ⟨-, -, action, -, parsed, hparsed, channels, -, requestId, -, hcommand⟩ := h
  split_ifs at hcommand
  rw [← Option.some.inj hcommand]
  exact mapM_parseSymbol.1 hparsed

/-- What a command is made of. -/
theorem symbols_of_modelValidate (hv : getKey (text "symbols") entries = v)
    (h : SubscriptionCommand.modelValidate py (.dict entries) = .ok command) :
    isIterable v = true ∧ command.symbols.map Subtype.val =
    (cleaned py (texts py v)).eraseDups := by
  unfold SubscriptionCommand.modelValidate at h
  dsimp only at h
  rw [hv] at h
  rcases SubscriptionCommand.normalizeSymbols_cases py v with ⟨hiter, -⟩ | ⟨-, herror⟩
  · refine ⟨hiter, ?_⟩
    rw [normalizeSymbols_eq hiter] at h
    dsimp only at h
    cases hfields : SubscriptionCommand.parseFields entries (cleaned py (texts py v)).eraseDups with
    | none =>
      rw [hfields] at h
      exact nomatch h
    | some command' =>
      rw [hfields] at h
      rw [← Except.ok.inj h]
      exact symbols_of_parseFields hfields
  · rw [herror] at h
    exact nomatch h

/-- The symbols of a command fit. -/
theorem fits_of_modelValidate (hv : getKey (text "symbols") entries = v)
    (h : SubscriptionCommand.modelValidate py (.dict entries) = .ok command) : Fits py v := by
  obtain ⟨-, hsymbols⟩ := symbols_of_modelValidate hv h
  refine ⟨fun s hs => ?_, ?_⟩
  · rw [← List.mem_eraseDups, ← hsymbols] at hs
    obtain ⟨symbol, -, rfl⟩ := List.mem_map.1 hs
    exact symbol.2
  · rw [← hsymbols, List.length_map]
    exact command.symbols_le

/-- A ping with symbols. -/
def pingWith (v : Json) : List (PyStr × Json) :=
  object [("action", .str (text "ping")), ("symbols", v)]

/-- The fields of a ping with symbols. -/
theorem getKey_pingWith (v : Json) (name : String) : getKey (text name) (pingWith v) =
    [("action", .str (text "ping")), ("symbols", v)].lookup name :=
  getKey_object (by simp)

/-- A ping takes every value that fits. -/
theorem modelValidate_pingWith {v : Json} (hiter : isIterable (some v) = true)
    (h : Fits py (some v)) :
    ∃ command, SubscriptionCommand.modelValidate py (.dict (pingWith v)) = .ok command := by
  obtain ⟨hmatches, hlength⟩ := h
  have hsymbols : getKey (text "symbols") (pingWith v) = some v := by
    rw [getKey_pingWith]
    simp [List.lookup_cons]
  have haction : getKey (text "action") (pingWith v) = some (.str (text "ping")) :=
    (getKey_pingWith v "action").trans List.lookup_cons_self
  have habsent (name : String) (hname : name = "channels" ∨ name = "request_id") :
      getKey (text name) (pingWith v) = none := by
    rw [getKey_pingWith]
    rcases hname with rfl | rfl <;> simp
  have honly : onlyFields ["action", "symbols", "channels", "request_id"] (pingWith v) = true :=
    onlyFields_object _ (by simp)
  have hping : (Codec.strEnum [.subscribe, .unsubscribe, .ping] CommandAction.value).required
      (some (.str (text "ping"))) = some .ping := by decide +kernel
  have hall : ∀ s ∈ (cleaned py (texts py (some v))).eraseDups,
      Models.Matches 1 32 Models.isSymbolChar s :=
    fun s hs => hmatches s (List.mem_eraseDups.1 hs)
  -- What the normaliser leaves are symbols.
  obtain ⟨parsed, hparsed⟩ : ∃ parsed : List Models.Symbol,
      parsed.map Subtype.val = (cleaned py (texts py (some v))).eraseDups := by
    refine ⟨List.pmap Subtype.mk _ hall, ?_⟩
    rw [List.map_pmap, List.pmap_eq_map, List.map_id']
  -- A ping may name no symbols, so that the count alone decides.
  have hfields : ∃ command, SubscriptionCommand.parseFields (pingWith v)
      (cleaned py (texts py (some v))).eraseDups = some command := by
    unfold SubscriptionCommand.parseFields
    simp only [honly, haction, hping, mapM_parseSymbol.2 hparsed, habsent _ (Or.inl rfl),
      habsent _ (Or.inr rfl)]
    have hvalid : parsed.length ≤ 500 ∧ [text "quote"].length ≤ 10 ∧
        (∀ s ∈ (none : Option PyStr), s.length ≤ 128) ∧
        (CommandAction.ping = .ping ∨ parsed ≠ []) := by
      refine ⟨?_, by decide, (fun s hs => by cases hs), Or.inl rfl⟩
      rwa [← hparsed, List.length_map] at hlength
    exact ⟨_, dif_pos hvalid⟩
  obtain ⟨command, hcommand⟩ := hfields
  refine ⟨command, ?_⟩
  unfold SubscriptionCommand.modelValidate
  dsimp only
  rw [hsymbols, normalizeSymbols_eq hiter]
  dsimp only
  rw [hcommand]

/-- A command takes the value for a list or refuses it, for every such value that is a list, and for
the others that are refused for another reason. -/
theorem commandStrict_iff :
    CommandStrict py v ↔ AsList v ∨ isIterable v = true ∧ ¬Fits py v := by
  constructor
  · intro h
    by_contra hno
    obtain ⟨hlist, hrest⟩ := not_or.1 hno
    obtain ⟨v', rfl⟩ : ∃ v', v = some v' := by
      cases v with
      | none => exact absurd trivial hlist
      | some v' => exact ⟨v', rfl⟩
    have hsymbols : getKey (text "symbols") (pingWith v') = some v' := by
      rw [getKey_pingWith]
      simp [List.lookup_cons]
    rcases SubscriptionCommand.modelValidate_dict py (pingWith v') with ⟨hiter, herror⟩ | ⟨hiter, -⟩
    · -- What cannot be gone through raises a `TypeError`.
      exact nomatch ((h _ hsymbols).2 hlist).symm.trans herror
    · rw [hsymbols] at hiter
      have hfits : Fits py (some v') := by
        by_contra hfits
        exact hrest ⟨hiter, hfits⟩
      obtain ⟨command, hcommand⟩ := modelValidate_pingWith hiter hfits
      exact hlist ((h _ hsymbols).1 command hcommand).1
  · intro h entries hv
    rcases h with hlist | ⟨hiter, hfits⟩
    · refine ⟨fun command hcommand => ⟨hlist, ?_⟩, fun hno => absurd hlist hno⟩
      rw [(symbols_of_modelValidate hv hcommand).2, texts_eq_strings hlist]
    · refine ⟨fun command hcommand => absurd (fits_of_modelValidate hv hcommand) hfits, fun _ => ?_⟩
      rcases SubscriptionCommand.modelValidate_dict py entries with ⟨hno, -⟩ |
        ⟨-, herror | ⟨command, hok, -⟩⟩
      · rw [hv, hiter] at hno
        exact nomatch hno
      · exact herror
      · exact absurd (fits_of_modelValidate hv hok) hfits

end Command

/-! ## Claims -/

/-- What `authenticate` of `security.py` makes of the claims of a token. `none` is the
`AuthenticationError` that each `KeyError`, `TypeError` and `ValueError` is turned into. -/
def claimsIdentity (py : PyText) (claims : List (PyStr × Json)) : Option ClientIdentity := do
  let tier ← (getOr claims "tier" ServiceTier.basic parseTier).toOption
  let clientId ← (getKey (text "sub") claims).map py.str
  let allowedSymbols ← (getOr claims "allowed_symbols" none py.parseSymbols).toOption
  let allowedChannels ← (getOr claims "allowed_channels" {text "quote"} parseChannels).toOption
  let organizationId ← (getOr claims "organization_id" none parseOrganization).toOption
  guard (1 ≤ clientId.length ∧ clientId.length ≤ 128 ∧ clientId.all fun c => !decide c.IsSurrogate)
  return ⟨clientId, tier, allowedSymbols, allowedChannels, organizationId, claims⟩

/-- Whatever else a token claims, its `allowed_symbols` are taken for a list or refused by an
`AuthenticationError`. -/
def ClaimsStrict (py : PyText) (v : Option Json) : Prop :=
  ∀ claims, getKey (text "allowed_symbols") claims = v →
    (∀ r, claimsIdentity py claims = some r → AsList v ∧ r.allowedSymbols = allowed py v) ∧
    (¬AsList v → claimsIdentity py claims = none)

section Claims

variable {py : PyText} {v : Option Json} {claims : List (PyStr × Json)} {r : ClientIdentity}

/-- The symbols of an identity are those of its claims. -/
theorem symbols_of_claimsIdentity (h : claimsIdentity py claims = some r) :
    getOr claims "allowed_symbols" none py.parseSymbols = .ok r.allowedSymbols := by
  unfold claimsIdentity at h
  simp only [Option.bind_eq_bind, Option.bind_eq_some_iff] at h
  obtain ⟨tier, -, clientId, -, symbols, hsymbols, channels, -, organizationId, -, -, -, hr⟩ := h
  rw [← Option.some.inj hr]
  cases hparse : getOr claims "allowed_symbols" none py.parseSymbols with
  | error e =>
    rw [hparse] at hsymbols
    exact nomatch hsymbols
  | ok symbols' =>
    rw [hparse] at hsymbols
    exact congrArg Except.ok (Option.some.inj hsymbols)

/-- A token that claims nothing but its symbols. -/
def onlySymbols (v : Json) : List (PyStr × Json) :=
  object [("allowed_symbols", v), ("sub", .str (text "c"))]

/-- The claims of symbols alone. -/
theorem getKey_onlySymbols (v : Json) (name : String) : getKey (text name) (onlySymbols v) =
    [("allowed_symbols", v), ("sub", .str (text "c"))].lookup name :=
  getKey_object (by simp)

/-- Symbols that are parsed are claims of an identity. -/
theorem claimsIdentity_onlySymbols {v : Json} {symbols : Option (Finset PyStr)}
    (h : py.parseSymbols v = .ok symbols) : ∃ r, claimsIdentity py (onlySymbols v) = some r := by
  have hsymbols : getOr (onlySymbols v) "allowed_symbols" none py.parseSymbols = .ok symbols := by
    unfold getOr
    rw [getKey_onlySymbols, List.lookup_cons_self]
    exact h
  have hsub : getKey (text "sub") (onlySymbols v) = some (.str (text "c")) := by
    rw [getKey_onlySymbols]
    simp [List.lookup_cons]
  -- The claims hold no other field, so that each has its default.
  have habsent {α : Type} (name : String) (d : α) (parse : Json → Except MergeError α)
      (hname : name ≠ "allowed_symbols" ∧
      name ≠ "sub") : getOr (onlySymbols v) name d parse = .ok d := by
    have hnone : getKey (text name) (onlySymbols v) = none := by
      rw [getKey_onlySymbols]
      rw [List.lookup_cons, List.lookup_cons, beq_eq_false_iff_ne.2 hname.1,
        beq_eq_false_iff_ne.2 hname.2]
      rfl
    unfold getOr
    rw [hnone]
  unfold claimsIdentity
  rw [hsymbols, hsub, habsent "tier" _ _ (by decide), habsent "allowed_channels" _ _ (by decide),
    habsent "organization_id" _ _ (by decide)]
  have hid : guard (1 ≤ (text "c").length ∧ (text "c").length ≤ 128 ∧
      (text "c").all fun c => !decide c.IsSurrogate) = some () := by decide +kernel
  have hstr : py.str (.str (text "c")) = text "c" := rfl
  simp only [Option.map_some, hstr, hid, Except.toOption, Option.bind_eq_bind, Option.bind_some]
  exact ⟨_, rfl⟩

/-- A token's symbols are taken for a list or refused, for every value that is a list, and for those
that cannot be gone through. -/
theorem claimsStrict_iff : ClaimsStrict py v ↔ AsList v ∨ isIterable v = false := by
  constructor
  · intro h
    -- A value that is no list and can be gone through is taken in claims that hold nothing else.
    by_contra hno
    obtain ⟨hlist, hiter⟩ := not_or.1 hno
    obtain ⟨v', rfl⟩ : ∃ v', v = some v' := by
      cases v with
      | none => exact absurd trivial hlist
      | some v' => exact ⟨v', rfl⟩
    obtain ⟨symbols, hsymbols⟩ := (@parseSymbols_ok_iff py v').2 (eq_true_of_ne_false hiter)
    obtain ⟨r, hr⟩ := claimsIdentity_onlySymbols hsymbols
    have hget : getKey (text "allowed_symbols") (onlySymbols v') = some v' :=
      (getKey_onlySymbols v' _).trans List.lookup_cons_self
    exact hlist ((h _ hget).1 r hr).1
  · intro h claims hget
    -- What is taken has been gone through, so that it was a list.
    have haccepted (r : ClientIdentity) (hr : claimsIdentity py claims = some r) :
        AsList v ∧ r.allowedSymbols = allowed py v := by
      have hsymbols := symbols_of_claimsIdentity hr
      unfold getOr at hsymbols
      rw [hget] at hsymbols
      cases v with
      | none => exact ⟨trivial, (Except.ok.inj hsymbols).symm⟩
      | some v' =>
        have hiter := parseSymbols_ok_iff.1 ⟨_, hsymbols⟩
        rcases h with hlist | hno
        · exact ⟨hlist, parseSymbols_of_asList hlist hsymbols⟩
        · exact nomatch hiter.symm.trans hno
    refine ⟨haccepted, fun hlist => ?_⟩
    cases hr : claimsIdentity py claims with
    | none => rfl
    | some r => exact absurd (haccepted r hr).1 hlist

end Claims

/-! ## Profiles -/

/-- Whatever else a profile has, its `allowed_symbols` are taken for a list, or, when they alone are
at fault, refused by a `ValidationError`. -/
def ProfileStrict (py : PyText) (v : Json) : Prop :=
  ∀ token entries, getKey (text "allowed_symbols") entries = some v →
    (∀ r, merge py token (.dict entries) = .ok r →
      AsList (some v) ∧ r.allowedSymbols = allowed py (some v)) ∧
    (¬AsList (some v) →
      (∃ r, merge py token (.dict (insertKey (text "allowed_symbols") .null entries)) = .ok r) →
        merge py token (.dict entries) = .error .valueError)

section Profile

open Access.Profiles (pySet)

variable {py : PyText} {v : Json} {entries : List (PyStr × Json)} {token r : ClientIdentity}

/-- A profile is taken with its symbols. -/
theorem symbols_of_merge (hget : getKey (text "allowed_symbols") entries = some v)
    (h : merge py token (.dict entries) = .ok r) : py.parseSymbols v = .ok r.allowedSymbols := by
  unfold merge at h
  obtain ⟨tier, -, h⟩ := bind_eq_ok.1 h
  obtain ⟨_, -, h⟩ := bind_eq_ok.1 h
  obtain ⟨symbols, hsymbols, h⟩ := bind_eq_ok.1 h
  obtain ⟨channels, -, h⟩ := bind_eq_ok.1 h
  obtain ⟨organization, -, h⟩ := bind_eq_ok.1 h
  unfold getOr at hsymbols
  rw [hget] at hsymbols
  rw [← Except.ok.inj h]
  exact hsymbols

/-- A profile that is taken with `null` fails by its symbols only. -/
theorem merge_of_null (hget : getKey (text "allowed_symbols") entries = some v)
    (h : ∃ r, merge py token (.dict (insertKey (text "allowed_symbols") .null entries)) = .ok r) :
    (∃ r, merge py token (.dict entries) = .ok r) ∨
      ∃ e, py.parseSymbols v = .error e ∧ merge py token (.dict entries) = .error e := by
  obtain ⟨r, h⟩ := h
  -- The other fields are read as before.
  have hother (name : String) (hname : name ≠ "allowed_symbols") {α : Type} (d : α)
      (parse : Json → Except MergeError α) :
      getOr (insertKey (text "allowed_symbols") .null entries) name d parse =
      getOr entries name d parse := by
    unfold getOr
    rw [getKey_insertKey_ne fun heq => hname (text_injective heq)]
  unfold merge at h ⊢
  dsimp only at h ⊢
  rw [hother "tier" (by decide), hother "allowed_channels" (by decide),
    hother "allowed_channels" (by decide), hother "organization_id" (by decide)] at h
  obtain ⟨tier, htier, h⟩ := bind_eq_ok.1 h
  obtain ⟨_, hset, h⟩ := bind_eq_ok.1 h
  obtain ⟨_, -, h⟩ := bind_eq_ok.1 h
  obtain ⟨channels, hchannels, h⟩ := bind_eq_ok.1 h
  obtain ⟨organization, horganization, -⟩ := bind_eq_ok.1 h
  have hsymbols : getOr entries "allowed_symbols" (py.renormalized token) py.parseSymbols =
      py.parseSymbols v := by
    unfold getOr
    rw [hget]
  rw [htier, hset, hsymbols, hchannels, horganization]
  -- All of them were read with `null`, so that only the symbols can fail.
  cases py.parseSymbols v with
  | error e => exact Or.inr ⟨e, rfl, rfl⟩
  | ok symbols => exact Or.inl ⟨_, rfl⟩

/-- A profile of symbols only is taken with `null`. -/
theorem merge_singleton (token : ClientIdentity) : ∃ r, merge py token
    (.dict (insertKey (text "allowed_symbols") .null (object [("allowed_symbols", v)]))) =
    .ok r := by
  have hget (name : String) : getKey (text name) (object [("allowed_symbols", v)]) =
      [("allowed_symbols", v)].lookup name := getKey_object (by simp)
  have habsent (name : String) (hname : name ≠ "allowed_symbols") {α : Type} (d : α)
      (parse : Json → Except MergeError α) :
      getOr (insertKey (text "allowed_symbols") .null (object [("allowed_symbols", v)]))
      name d parse =
        .ok d := by
    unfold getOr
    rw [getKey_insertKey_ne fun heq => hname (text_injective heq), hget, List.lookup_cons,
      beq_eq_false_iff_ne.2 hname]
    rfl
  have hnull : getOr (insertKey (text "allowed_symbols") .null (object [("allowed_symbols", v)]))
      "allowed_symbols" (py.renormalized token) py.parseSymbols = .ok none := by
    unfold getOr
    rw [getKey_insertKey_self]
    rfl
  unfold merge
  dsimp only
  rw [habsent "tier" (by decide), habsent "allowed_channels" (by decide), hnull,
    habsent "allowed_channels" (by decide), habsent "organization_id" (by decide)]
  exact ⟨_, rfl⟩

/-- A profile's symbols are taken for a list or refused by a `ValidationError` only if they are a
list: the other values are taken too, or raise a `TypeError`. -/
theorem profileStrict_iff : ProfileStrict py v ↔ AsList (some v) := by
  constructor
  · intro h
    by_contra hlist
    have hget : getKey (text "allowed_symbols") (object [("allowed_symbols", v)]) = some v :=
      (getKey_object (by simp)).trans List.lookup_cons_self
    have htoken : ClientIdentity := ⟨[], .basic, none, ∅, none, []⟩
    obtain ⟨haccepts, hrefuses⟩ := h htoken _ hget
    have herror := hrefuses hlist (merge_singleton htoken)
    rcases merge_of_null hget (@merge_singleton py v htoken) with ⟨r, hr⟩ | ⟨e, hparse, he⟩
    · exact hlist (haccepts r hr).1
    · obtain rfl := Except.error.inj (he.symm.trans herror)
      cases hiter : isIterable (some v) with
      | false => exact nomatch (parseSymbols_error hiter).symm.trans hparse
      | true =>
        have hnull : v ≠ .null := fun hv => hlist (hv ▸ trivial)
        exact nomatch (parseSymbols_eq hiter hnull).symm.trans hparse
  · intro hlist token entries hget
    exact ⟨fun r hr => ⟨hlist, parseSymbols_of_asList hlist (symbols_of_merge hget hr)⟩,
      fun hno => absurd hlist hno⟩

end Profile

/-! ## The three places -/

/-- For which values the symbols of a command, of a token and of a profile are a list or refused.
For arrays of strings they are, and for the other values if these are refused for another reason: in
a command because the texts do not fit, in a token because of the `TypeError`. Normalizing what has
been normalized changes nothing. -/
theorem symbols_strict_iff (py : PyText) (hcapitals : Capitals py.special) :
    (∀ v, CommandStrict py v ↔ AsList v ∨ isIterable v = true ∧ ¬Fits py v) ∧
    (∀ v, ClaimsStrict py v ↔ AsList v ∨ isIterable v = false) ∧
    (∀ v, ProfileStrict py v ↔ AsList (some v)) ∧
    (∀ v l, SubscriptionCommand.normalizeSymbols py v = .ok l →
      SubscriptionCommand.normalizeSymbols py (some (.list (l.map .str))) = .ok l) ∧
    ∀ l l' : List PyStr, l'.toFinset = py.normalizeSymbols l →
      py.normalizeSymbols l' = py.normalizeSymbols l := by
  refine ⟨fun v => commandStrict_iff, fun v => claimsStrict_iff, fun v => profileStrict_iff,
    fun v l hl => ?_, fun l l' hl => ?_⟩
  · have htexts : texts py (some (.list (l.map .str))) = l := by
      show (l.map Json.str).map py.str = l
      rw [List.map_map]
      exact List.map_id' l
    rcases SubscriptionCommand.normalizeSymbols_cases py v with ⟨hiter, -⟩ | ⟨-, herror⟩
    · -- What comes out is stripped, in capitals and without repetition.
      have hl' : (cleaned py (texts py v)).eraseDups = l :=
        Except.ok.inj ((normalizeSymbols_eq hiter).symm.trans hl)
      have hfixed : cleaned py l = l :=
        cleaned_eq_self hcapitals fun s hs => List.mem_eraseDups.1 (hl' ▸ hs)
      have hnodup : l.eraseDups = l := by
        rw [← hl']
        exact eraseDups_of_nodup (nodup_eraseDups (cleaned py (texts py v)))
      rw [normalizeSymbols_eq rfl, htexts, hfixed, hnodup]
    · exact nomatch herror.symm.trans hl
  · have hmem : ∀ s ∈ l', s ∈ cleaned py l := fun s hs => by
      rw [← List.mem_toFinset, ← normalizeSymbols_toFinset, ← hl, List.mem_toFinset]
      exact hs
    rw [normalizeSymbols_toFinset, cleaned_eq_self hcapitals hmem, hl]

/-- Text functions that know no other letters than those of ASCII. -/
def asciiText : PyText := ⟨fun c => [c], fun _ => []⟩

/-- The capitals of ASCII are as they should be. -/
theorem capitals_asciiText : Capitals asciiText.special where
  ne_nil c _ := List.cons_ne_nil c []
  fixed c hc := upper_singleton.trans (if_neg (by omega))
  isSpace c _ d hd := by rw [List.mem_singleton.1 hd]

/-- An array of strings is taken for a list; a string is neither that nor refused. -/
theorem symbols_strict_iff_sample :
    CommandStrict asciiText (some (.list [.str (text "btc"), .str (text "BTC ")])) ∧
      ¬CommandStrict asciiText (some (.str (text "BTC"))) := by
  obtain ⟨hcommand, -⟩ := symbols_strict_iff asciiText capitals_asciiText
  refine ⟨(hcommand _).2 (Or.inl fun item hitem => ?_), fun h => ?_⟩
  · rcases List.mem_cons.1 hitem with rfl | hitem
    · exact ⟨_, rfl⟩
    · exact ⟨_, List.mem_singleton.1 hitem⟩
  · rcases (hcommand _).1 h with hlist | ⟨-, hfits⟩
    · exact hlist
    · exact hfits (by decide +kernel)

/-- The string `"BTC"` is taken for three symbols. -/
theorem not_commandStrict_string :
    ¬∀ (py : PyText) (v : Option Json), Capitals py.special → CommandStrict py v := by
  intro h
  let entries := object [("action", .str (text "subscribe")), ("symbols", .str (text "BTC"))]
  have haccepts : ((SubscriptionCommand.modelValidate asciiText (.dict entries)).toOption.map
    fun command =>
      command.symbols.map Subtype.val) = some [text "B", text "T", text "C"] := by decide +kernel
  obtain ⟨command, hcommand, -⟩ := Option.map_eq_some_iff.1 haccepts
  have hget : getKey (text "symbols") entries = some (.str (text "BTC")) :=
    (getKey_object (by simp)).trans (by simp [List.lookup_cons])
  cases hresult : SubscriptionCommand.modelValidate asciiText (.dict entries) with
  | error e =>
    rw [hresult] at hcommand
    exact nomatch hcommand
  | ok command' =>
    exact (h asciiText _ capitals_asciiText entries hget).1 command' hresult |>.1

end MarketDataGateway.Session
