import Mathlib.Data.Finset.Image
import Mathlib.Data.Rat.Defs
import Mathlib.Algebra.Order.Field.Rat
import MarketDataGateway.Lib.JsonRoundTrip
import MarketDataGateway.Lib.Loops
import MarketDataGateway.Lib.Transition

/-!
# The profiles of clients

`ClientProfileClient.resolve` of `security.py`. It asks a service for the profile of the client,
fills in what the reply leaves out from the token, and caches the result by the id of the client. A
later call finds it there, whatever token it is for: the fields that were filled in, and the claims,
are those of the token that was first (`exists_not_faithful`). A call is answered by its own token
when the two agree on these (`faithful_of_agrees`).

A call is two steps: the look into the cache, and what follows the replies. Calls may overlap.
-/

namespace MarketDataGateway.Access.Profiles

open Lib

/-! ## Identities -/

/-- `ServiceTier`. -/
inductive ServiceTier
  | basic
  | pro
  | premium
  deriving DecidableEq

/-- `tier.value`. -/
def ServiceTier.value : ServiceTier → String
  | basic => "basic"
  | pro => "pro"
  | premium => "premium"

/-- `ClientIdentity`. -/
structure ClientIdentity where
  /-- `client_id`. -/
  clientId : PyStr
  /-- `tier`. -/
  tier : ServiceTier
  /-- `allowed_symbols`. -/
  allowedSymbols : Option (Finset PyStr)
  /-- `allowed_channels`. -/
  allowedChannels : Finset PyStr
  /-- `organization_id`. -/
  organizationId : Option PyStr
  /-- `claims`. -/
  claims : List (PyStr × Json)

/-- What building an identity raises. -/
inductive MergeError
  /-- `ValueError`, of which a `ValidationError` is one. -/
  | valueError
  /-- `TypeError`. -/
  | typeError
  /-- `AttributeError`. -/
  | attributeError
  deriving DecidableEq

/-- Python's functions on text, as far as they are not defined here. -/
structure PyText where
  /-- `str.upper` of a character that is not of ASCII. -/
  special : CodePoint → PyStr
  /-- `str` of what is not a string, as far as it is not nested too deeply for the interpreter. -/
  repr : Json → PyStr

/-- `str(v)`. -/
def PyText.str (py : PyText) : Json → PyStr
  | .str s => s
  | v => py.repr v

/-- `str(symbol).strip().upper()` of those for which `str(symbol).strip()` is true. -/
def PyText.normalizeSymbols (py : PyText) (symbols : List PyStr) : Finset PyStr :=
  ((symbols.map strip).filter (· ≠ [])).toFinset.image (upper py.special)

/-- `iter(v)`. -/
def iter : Json → Except MergeError (List Json)
  | .list items => .ok items
  | .str s => .ok (s.map fun c => .str [c])
  | .dict entries => .ok (entries.map fun e => .str e.1)
  | _ => .error .typeError

/-- The value can be a member of a set. -/
def isHashable : Json → Bool
  | .list _ => false
  | .dict _ => false
  | _ => true

/-- A field of strings without a constraint: pydantic takes every string, surrogates too. -/
def parseStr : Json → Except MergeError PyStr
  | .str s => .ok s
  | _ => .error .valueError

/-- `ServiceTier(str(v))`. The text of what is not a string is the value of no tier. -/
def parseTier : Json → Except MergeError ServiceTier
  | .str s =>
    match [ServiceTier.basic, .pro, .premium].find? fun t => text t.value = s with
    | some tier => .ok tier
    | none => .error .valueError
  | _ => .error .valueError

/-- `normalize_allowed_symbols`, and the field after it. -/
def PyText.parseSymbols (py : PyText) : Json → Except MergeError (Option (Finset PyStr))
  | .null => .ok none
  | v => do
    let items ← iter v
    return some (py.normalizeSymbols (items.map py.str))

/-- `set(v)`. -/
def pySet (v : Json) : Except MergeError (List Json) := do
  let items ← iter v
  if items.all isHashable then return items else .error .typeError

/-- The field `allowed_channels`. -/
def parseChannels (v : Json) : Except MergeError (Finset PyStr) := do
  let channels ← pySet v
  return (← channels.mapM parseStr).toFinset

/-- The field `organization_id`. -/
def parseOrganization : Json → Except MergeError (Option PyStr)
  | .null => .ok none
  | v => (parseStr v).map some

/-- `name not in payload`. -/
def lacks (payload : Json) (name : String) : Bool :=
  match payload with
  | .dict entries => (getKey (text name) entries).isNone
  | _ => true

/-- `payload.get(name, default)`, parsed. -/
def getOr {α : Type} (entries : List (PyStr × Json)) (name : String) (default : α)
    (parse : Json → Except MergeError α) : Except MergeError α :=
  match getKey (text name) entries with
  | none => .ok default
  | some v => parse v

/-- The symbols of a token, which `normalize_allowed_symbols` sees again. -/
def PyText.renormalized (py : PyText) (token : ClientIdentity) : Option (Finset PyStr) :=
  token.allowedSymbols.map fun symbols =>
    ((symbols.image strip).filter (· ≠ [])).image (upper py.special)

/-- `resolved`: the identity of a token and a payload. -/
def merge (py : PyText) (token : ClientIdentity) : Json → Except MergeError ClientIdentity
  | .dict entries => do
    let tier ← getOr entries "tier" token.tier parseTier
    -- The set is built before the identity, and its members are checked after the symbols.
    getOr entries "allowed_channels" () fun v => (pySet v).map fun _ => ()
    let allowedSymbols ← getOr entries "allowed_symbols" (py.renormalized token) py.parseSymbols
    let allowedChannels ← getOr entries "allowed_channels" token.allowedChannels parseChannels
    let organizationId ← getOr entries "organization_id" token.organizationId parseOrganization
    return ⟨token.clientId, tier, allowedSymbols, allowedChannels, organizationId, token.claims⟩
  | _ => .error .attributeError

/-- The tokens agree on what the payload leaves out, and on the claims. -/
structure Agree (py : PyText) (payload : Json) (token token' : ClientIdentity) : Prop where
  claims : token.claims = token'.claims
  tier : lacks payload "tier" → token.tier = token'.tier
  symbols : lacks payload "allowed_symbols" → py.renormalized token = py.renormalized token'
  channels : lacks payload "allowed_channels" → token.allowedChannels = token'.allowedChannels
  organization : lacks payload "organization_id" → token.organizationId = token'.organizationId

section Merge

variable {α : Type} {py : PyText} {entries : List (PyStr × Json)} {name : String} {d x : α}
  {parse : Json → Except MergeError α} {token token' r : ClientIdentity} {payload : Json}

/-- Another default is taken where the first one was. -/
theorem getOr_other (h : getOr entries name d parse = .ok x) (d' : α) :
    getOr entries name d' parse =
      .ok (if (getKey (text name) entries).isNone then d' else x) := by
  unfold getOr at h ⊢
  cases hget : getKey (text name) entries with
  | none => rfl
  | some v =>
    rw [hget] at h
    exact h

/-- The identity of another token of the client: what the payload has, and what the token has. -/
def swap (py : PyText) (payload : Json) (token r : ClientIdentity) : ClientIdentity where
  clientId := token.clientId
  tier := if lacks payload "tier" then token.tier else r.tier
  allowedSymbols := if lacks payload "allowed_symbols" then py.renormalized token
    else r.allowedSymbols
  allowedChannels :=
    if lacks payload "allowed_channels" then token.allowedChannels else r.allowedChannels
  organizationId := if lacks payload "organization_id" then token.organizationId
    else r.organizationId
  claims := token.claims

/-- A payload that fills in one token fills in every other. -/
theorem merge_swap (token : ClientIdentity) (h : merge py token' payload = .ok r) :
    merge py token payload = .ok (swap py payload token r) := by
  cases payload with
  | dict entries =>
    unfold merge at h
    obtain ⟨tier, htier, h⟩ := bind_eq_ok.1 h
    obtain ⟨_, hset, h⟩ := bind_eq_ok.1 h
    obtain ⟨symbols, hsymbols, h⟩ := bind_eq_ok.1 h
    obtain ⟨channels, hchannels, h⟩ := bind_eq_ok.1 h
    obtain ⟨organization, horganization, h⟩ := bind_eq_ok.1 h
    rw [← Except.ok.inj h]
    unfold merge
    dsimp only
    rw [getOr_other htier token.tier, hset, getOr_other hsymbols (py.renormalized token),
      getOr_other hchannels token.allowedChannels, getOr_other horganization token.organizationId]
    rfl
  | _ => exact absurd h nofun

/-- A choice is the same if what is chosen is. -/
theorem ite_left_iff {β : Type} (b : Bool) (x y z : β) :
    (if b then x else z) = (if b then y else z) ↔ (b = true → x = y) := by
  cases b with
  | true => exact ⟨fun h _ => h, fun h => h rfl⟩
  | false => exact ⟨fun _ => nofun, fun _ => rfl⟩

/-- The identity of one token is that of another one of the client if and only if they agree. -/
theorem merge_iff_agree (hid : token.clientId = token'.clientId)
    (h : merge py token' payload = .ok r) :
    merge py token payload = .ok r ↔ Agree py payload token token' := by
  have hr : r = swap py payload token' r := Except.ok.inj (h.symm.trans (merge_swap token' h))
  rw [merge_swap token h, Except.ok.injEq]
  have hiff : swap py payload token r = r ↔ swap py payload token r = swap py payload token' r := by
    rw [← hr]
  rw [hiff]
  unfold swap
  simp only [ClientIdentity.mk.injEq, ite_left_iff, hid, true_and]
  exact ⟨fun ⟨htier, hsymbols, hchannels, horganization, hclaims⟩ =>
      ⟨hclaims, htier, hsymbols, hchannels, horganization⟩,
    fun hagree => ⟨hagree.tier, hagree.symbols, hagree.channels,
    hagree.organization, hagree.claims⟩⟩

/-- A field that cannot be parsed cannot be parsed with another default. -/
theorem getOr_error {e : MergeError} (h : getOr entries name d parse = .error e) (d' : α) :
    getOr entries name d' parse = .error e := by
  unfold getOr at h ⊢
  cases hget : getKey (text name) entries with
  | none =>
    rw [hget] at h
    exact absurd h nofun
  | some v =>
    rw [hget] at h
    exact h

/-- A payload fails for every token or for none, and in the same way. -/
theorem merge_eq_error (token' : ClientIdentity) {e : MergeError}
    (h : merge py token payload = .error e) : merge py token' payload = .error e := by
  cases payload with
  | dict entries =>
    unfold merge at h ⊢
    dsimp only at h ⊢
    rcases bind_eq_error.1 h with htier | ⟨tier, htier, h⟩
    · rw [getOr_error htier token'.tier]
      rfl
    rw [getOr_other htier token'.tier]
    rcases bind_eq_error.1 h with hset | ⟨_, hset, h⟩
    · rw [hset]
      rfl
    rw [hset]
    rcases bind_eq_error.1 h with hsymbols | ⟨symbols, hsymbols, h⟩
    · rw [getOr_error hsymbols (py.renormalized token')]
      rfl
    rw [getOr_other hsymbols (py.renormalized token')]
    rcases bind_eq_error.1 h with hchannels | ⟨channels, hchannels, h⟩
    · rw [getOr_error hchannels token'.allowedChannels]
      rfl
    rw [getOr_other hchannels token'.allowedChannels]
    rcases bind_eq_error.1 h with horganization | ⟨organization, horganization, h⟩
    · rw [getOr_error horganization token'.organizationId]
      rfl
    exact absurd h nofun
  | _ => exact h

end Merge

/-! ## Calls -/

/-- The settings. -/
structure Config where
  /-- `client_profile_url is not None`. -/
  hasUrl : Bool
  /-- `entitlement_cache_ttl_seconds`. -/
  entitlementCacheTtlSeconds : ℤ

/-- `_CachedIdentity`. -/
structure CachedIdentity where
  /-- `identity`. -/
  identity : ClientIdentity
  /-- `expires_at`. -/
  expiresAt : ℚ

/-- `_cache`. -/
abbrev Cache := Dict PyStr CachedIdentity

/-- The profile service, asked once. -/
inductive Reply
  /-- An `httpx.HTTPError`, or a `ValueError` of `response.json()`. -/
  | failed
  /-- Another exception. -/
  | raised
  /-- A payload, and the time at which it is cached if it is. -/
  | payload (v : Json) (cachedAt : ℚ)

/-- What the loop of `resolve` comes to. -/
inductive Fetched
  /-- It returns the identity of a payload, which has been cached. -/
  | resolved (identity : ClientIdentity) (payload : Json) (cachedAt : ℚ)
  /-- It ends. -/
  | fallback
  /-- It raises. -/
  | raised

/-- The loop of `resolve`. -/
def fetch (py : PyText) (token : ClientIdentity) : List Reply → Fetched
  | [] => .fallback
  | .failed :: rest => fetch py token rest
  | .raised :: _ => .raised
  | .payload v cachedAt :: rest =>
    match merge py token v with
    | .ok identity => .resolved identity v cachedAt
    | .error .valueError => fetch py token rest
    | .error _ => .raised

/-- The first return of `resolve`: without a service, or from the cache. -/
def lookup (cfg : Config) (cache : Cache) (token : ClientIdentity) (now : ℚ) :
    Option ClientIdentity :=
  if ¬cfg.hasUrl then some token
  else
    match cache.get token.clientId with
    | none => none
    | some cached => if now < cached.expiresAt then some cached.identity else none

/-- A payload that has been cached. -/
structure Obtained where
  /-- The token of the call. -/
  token : ClientIdentity
  /-- The payload. -/
  payload : Json
  /-- The time at which it was cached. -/
  cachedAt : ℚ

/-- The state of the client. -/
structure State where
  /-- `_cache`. -/
  cache : Cache
  /-- The tokens of the calls that ask the service. -/
  pending : List ClientIdentity
  /-- The payloads that have been cached, the last one first. -/
  obtained : List Obtained

/-- `ClientProfileClient.__init__`. -/
def State.init : State := ⟨⟨[], .nil⟩, [], []⟩

/-- A step of a call. -/
inductive Action
  /-- A call begins, at a time. -/
  | resolve (token : ClientIdentity) (now : ℚ)
  /-- The call at an index of `pending` has been answered, at most twice. -/
  | reply (i : ℕ) (first second : Reply)

/-- The token of the call. -/
def State.caller (st : State) : Action → Option ClientIdentity
  | .resolve token _ => some token
  | .reply i _ _ => st.pending[i]?

/-- One step. -/
def step (py : PyText) (cfg : Config) (st : State) : Action → Option State
  | .resolve token now =>
    match lookup cfg st.cache token now with
    | some _ => some st
    | none => some { st with pending := st.pending ++ [token] }
  | .reply i first second =>
    match st.pending[i]? with
    | none => none
    | some token =>
      let st := { st with pending := st.pending.eraseIdx i }
      match fetch py token [first, second] with
      | .resolved identity payload cachedAt => some { st with
          cache := st.cache.insert token.clientId
            ⟨identity, cachedAt + cfg.entitlementCacheTtlSeconds⟩
          obtained := ⟨token, payload, cachedAt⟩ :: st.obtained }
      | .fallback => some st
      | .raised => some st

/-- What the call returns by the step, if it does. -/
def State.answer (py : PyText) (cfg : Config) (st : State) : Action → Option ClientIdentity
  | .resolve token now => lookup cfg st.cache token now
  | .reply i first second =>
    match st.pending[i]? with
    | none => none
    | some token =>
      match fetch py token [first, second] with
      | .resolved identity _ _ => some identity
      | .fallback => some token
      | .raised => none

/-- What the call returns is the identity of its token and a payload of its client, of its own or at
most the time to live old, or of its token alone when it has none. -/
def Faithful (py : PyText) (cfg : Config) (st : State) (a : Action) : Prop :=
  ∀ token ∈ st.caller a, ∀ r ∈ st.answer py cfg a,
    match a with
    | .resolve _ now => cfg.hasUrl = false ∧ r = token ∨
        ∃ o ∈ st.obtained, o.token.clientId = token.clientId ∧
          now ≤ o.cachedAt + cfg.entitlementCacheTtlSeconds ∧ merge py token o.payload = .ok r
    | .reply _ first second =>
        (∃ v t, Reply.payload v t ∈ [first, second] ∧ merge py token v = .ok r) ∨
          r = token ∧ ∀ v t, Reply.payload v t ∈ [first, second] →
            merge py token v = .error .valueError

/-- The payload of the client that has been cached last. -/
def State.newest (st : State) (clientId : PyStr) : Option Obtained :=
  st.obtained.find? fun o => o.token.clientId = clientId

/-- If the cache answers the call, its token agrees with the one that the entry was made from. -/
def Agreeing (py : PyText) (cfg : Config) (st : State) : Action → Prop
  | .resolve token now => cfg.hasUrl = true → ∀ o ∈ st.newest token.clientId,
      now < o.cachedAt + cfg.entitlementCacheTtlSeconds → Agree py o.payload token o.token
  | .reply _ _ _ => True

/-! ## Answers from the cache -/

section Cache

variable {py : PyText} {cfg : Config} {st st' : State} {a : Action}

/-- The entry is that of a payload. -/
def Backs (py : PyText) (cfg : Config) (o : Obtained) (cached : CachedIdentity) : Prop :=
  merge py o.token o.payload = .ok cached.identity ∧
    cached.expiresAt = o.cachedAt + cfg.entitlementCacheTtlSeconds

/-- The entries of the cache are those of the payloads that have been cached last. -/
def Tracks (py : PyText) (cfg : Config) (st : State) : Prop :=
  ∀ c, Option.Rel (Backs py cfg) (st.newest c) (st.cache.get c)

/-- A profile that a fetch resolves to is merged from one of its replies. -/
theorem merge_of_fetch {token r : ClientIdentity} {v : Json} {t : ℚ} {replies : List Reply}
    (h : fetch py token replies = .resolved r v t) :
    Reply.payload v t ∈ replies ∧ merge py token v = .ok r := by
  induction replies with
  | nil => exact absurd h nofun
  | cons reply rest ih =>
    cases reply with
    | failed => exact ⟨List.mem_cons_of_mem _ (ih h).1, (ih h).2⟩
    | raised => exact absurd h nofun
    | payload v' t' =>
      unfold fetch at h
      split at h
      · next hmerge =>
        obtain ⟨rfl, rfl, rfl⟩ := Fetched.resolved.inj h
        exact ⟨List.mem_cons_self, hmerge⟩
      · exact ⟨List.mem_cons_of_mem _ (ih h).1, (ih h).2⟩
      · exact absurd h nofun

/-- The loop ends when no payload fills in the token. -/
theorem merge_of_fallback {token : ClientIdentity} {replies : List Reply}
    (h : fetch py token replies = .fallback) :
    ∀ v t, Reply.payload v t ∈ replies → merge py token v = .error .valueError := by
  induction replies with
  | nil => exact fun v t hmem => absurd hmem List.not_mem_nil
  | cons reply rest ih =>
    intro v t hmem
    cases reply with
    | failed => exact ih h v t ((List.mem_cons.1 hmem).resolve_left nofun)
    | raised => exact absurd h nofun
    | payload v' t' =>
      unfold fetch at h
      split at h
      · exact absurd h nofun
      · next hmerge =>
        rcases List.mem_cons.1 hmem with heq | hmem
        · obtain ⟨rfl, rfl⟩ := Reply.payload.inj heq
          exact hmerge
        · exact ih h v t hmem
      · exact absurd h nofun

/-- The invariant holds at the start. -/
theorem tracks_init : Tracks py cfg .init := fun _ => .none

/-- A step keeps the invariant. -/
theorem Tracks.step (h : Tracks py cfg st) (hs : step py cfg st a = some st') :
    Tracks py cfg st' := by
  cases a with
  | resolve token now =>
    unfold Profiles.step at hs
    dsimp only at hs
    split at hs
    · exact Option.some.inj hs ▸ h
    · exact Option.some.inj hs ▸ h
  | reply i first second =>
    unfold Profiles.step at hs
    dsimp only at hs
    split at hs
    · exact absurd hs nofun
    · next token hpending =>
      split at hs
      · next r payload cachedAt hfetch =>
        -- The payload is the last one of its client, and those of the others stay as they are.
        obtain ⟨-, hmerge⟩ := merge_of_fetch hfetch
        rw [← Option.some.inj hs]
        intro c
        by_cases hc : token.clientId = c
        · subst hc
          unfold State.newest
          dsimp only
          rw [List.find?_cons_of_pos (by simp), Dict.get_insert_self]
          exact .some ⟨hmerge, rfl⟩
        · unfold State.newest
          dsimp only
          rw [List.find?_cons_of_neg (by simpa using hc), Dict.get_insert_ne (Ne.symm hc)]
          exact h c
      · exact Option.some.inj hs ▸ h
      · exact Option.some.inj hs ▸ h

/-- The invariant holds in every run. -/
theorem tracks_of_path (h : Path (step py cfg) anyStep .init st) : Tracks py cfg st :=
  h.invariant (Tracks py cfg) tracks_init fun _ _ _ hinv _ hs => hinv.step hs

/-- An answer from the cache is that of the payload which has been cached last. -/
theorem Tracks.lookup (h : Tracks py cfg st) {token r : ClientIdentity} {now : ℚ}
    (hr : lookup cfg st.cache token now = some r) :
    cfg.hasUrl = false ∧ r = token ∨ cfg.hasUrl = true ∧ ∃ o ∈ st.newest token.clientId,
      now < o.cachedAt + cfg.entitlementCacheTtlSeconds ∧ merge py o.token o.payload = .ok r := by
  unfold Profiles.lookup at hr
  split at hr
  · next hurl => exact Or.inl ⟨Bool.eq_false_iff.2 hurl, (Option.some.inj hr).symm⟩
  · next hurl =>
    refine Or.inr ⟨not_not.1 hurl, ?_⟩
    have hbacks := h token.clientId
    generalize st.newest token.clientId = newest at hbacks ⊢
    generalize st.cache.get token.clientId = entry at hbacks hr
    cases hbacks with
    | none => exact absurd hr nofun
    | @some o cached hbacks =>
      dsimp only at hr
      split at hr
      · next hlive =>
        exact ⟨o, rfl, hbacks.2 ▸ hlive, Option.some.inj hr ▸ hbacks.1⟩
      · exact absurd hr nofun

/-- The newest profile of a client is one that has been obtained for it. -/
theorem newest_mem {c : PyStr} {o : Obtained} (ho : o ∈ st.newest c) :
    o ∈ st.obtained ∧ o.token.clientId = c :=
  ⟨List.mem_of_find?_eq_some ho, of_decide_eq_true (List.find?_some ho :)⟩

/-- A call whose token agrees with the entry that answers it is answered by its own token. -/
theorem Tracks.faithful (h : Tracks py cfg st) (ha : Agreeing py cfg st a) :
    Faithful py cfg st a := by
  intro token htoken r hr
  cases a with
  | resolve token' now =>
    obtain rfl := Option.some.inj htoken
    rcases h.lookup hr with hown | ⟨hurl, o, ho, hlive, hmerge⟩
    · exact Or.inl hown
    · obtain ⟨hmem, hid⟩ := newest_mem ho
      have hagree := ha hurl o ho hlive
      exact Or.inr ⟨o, hmem, hid, hlive.le, (merge_iff_agree hid.symm hmerge).2 hagree⟩
  | reply i first second =>
    unfold State.answer at hr
    dsimp only at hr
    rw [show st.pending[i]? = some token from htoken] at hr
    dsimp only at hr
    split at hr
    · next r' v t hfetch =>
      obtain ⟨hmem, hmerge⟩ := merge_of_fetch hfetch
      exact Or.inl ⟨v, t, hmem, Option.some.inj hr ▸ hmerge⟩
    · next hfetch => exact Or.inr ⟨(Option.some.inj hr).symm, merge_of_fallback hfetch⟩
    · exact absurd hr nofun

end Cache

/-! ## Two runs -/

section Twins

variable {py : PyText} {cfg : Config} {st st' u u' : State} {a a' : Action}

/-- The steps are the same, but for the token of a call of the same client. -/
inductive SameButToken : Action → Action → Prop
  | resolve {token token' : ClientIdentity} (hid : token.clientId = token'.clientId) (now : ℚ) :
      SameButToken (.resolve token now) (.resolve token' now)
  | reply (i : ℕ) (first second : Reply) :
      SameButToken (.reply i first second) (.reply i first second)

/-- Two runs whose steps are the same, but for the tokens. -/
inductive Twins (py : PyText) (cfg : Config) : State → State → Prop
  | init : Twins py cfg .init .init
  | step {st st' u u' : State} {a a' : Action} (h : Twins py cfg st st') (ha : SameButToken a a')
      (hs : step py cfg st a = some u) (hs' : step py cfg st' a' = some u') : Twins py cfg u u'

/-- The payloads are the same, and their clients. -/
def SamePayload (o o' : Obtained) : Prop :=
  o.token.clientId = o'.token.clientId ∧ o.payload = o'.payload ∧ o.cachedAt = o'.cachedAt

/-- The two states differ in the tokens only. -/
structure Alike (st st' : State) : Prop where
  pending : List.Forall₂ (fun t t' => t.clientId = t'.clientId) st.pending st'.pending
  obtained : List.Forall₂ SamePayload st.obtained st'.obtained

/-- Two tokens of one client have their profiles fetched alike. -/
theorem fetch_alike (py : PyText) (token token' : ClientIdentity) (replies : List Reply) :
    match fetch py token replies with
    | .resolved _ v t => ∃ r', fetch py token' replies = .resolved r' v t
    | .fallback => fetch py token' replies = .fallback
    | .raised => fetch py token' replies = .raised := by
  induction replies with
  | nil => rfl
  | cons reply rest ih =>
    cases reply with
    | failed => exact ih
    | raised => rfl
    | payload v t =>
      unfold fetch
      cases hmerge : merge py token v with
      | ok r =>
        rw [merge_swap token' hmerge]
        exact ⟨_, rfl⟩
      | error e =>
        rw [merge_eq_error token' hmerge]
        cases e with
        | valueError => exact ih
        | typeError => rfl
        | attributeError => rfl

/-- The payloads that have been cached last are the same. -/
theorem Alike.newest (h : Alike st st') (c : PyStr) :
    Option.Rel SamePayload (st.newest c) (st'.newest c) := by
  have hobtained := h.obtained
  unfold State.newest
  generalize st.obtained = obtained at hobtained ⊢
  generalize st'.obtained = obtained' at hobtained ⊢
  induction hobtained with
  | nil => exact .none
  | cons hsame hrest ih =>
    rw [List.find?_cons, List.find?_cons, hsame.1]
    split
    · exact .some hsame
    · exact ih

/-- The cache answers both calls or none. -/
theorem Alike.lookup (h : Alike st st') (ht : Tracks py cfg st) (ht' : Tracks py cfg st')
    {token token' : ClientIdentity} (hid : token.clientId = token'.clientId) (now : ℚ) :
    (lookup cfg st.cache token now).isSome = (lookup cfg st'.cache token' now).isSome := by
  have hnewest := h.newest token.clientId
  have hbacks := ht token.clientId
  have hbacks' := ht' token.clientId
  unfold Profiles.lookup
  rw [← hid]
  split
  · rfl
  · -- An entry counts only by when it expires, which the newest payload of the client decides.
    generalize st.newest token.clientId = newest at hnewest hbacks
    generalize st'.newest token.clientId = newest' at hnewest hbacks'
    generalize st.cache.get token.clientId = entry at hbacks ⊢
    generalize st'.cache.get token.clientId = entry' at hbacks' ⊢
    cases hnewest with
    | none =>
      cases hbacks
      cases hbacks'
      rfl
    | some hsame =>
      cases hbacks with
      | some hbacks =>
        cases hbacks' with
        | some hbacks' =>
          dsimp only
          rw [hbacks.2, hbacks'.2, hsame.2.2]
          split
          · rfl
          · rfl

/-- A fetch that ends in both runs is of one client in both. -/
theorem Alike.pending_eraseIdx (h : Alike st st') (i : ℕ) :
    List.Forall₂ (fun t t' => t.clientId = t'.clientId) (st.pending.eraseIdx i)
      (st'.pending.eraseIdx i) := by
  rw [List.eraseIdx_eq_take_drop_succ, List.eraseIdx_eq_take_drop_succ]
  exact List.rel_append (List.forall₂_take i h.pending) (List.forall₂_drop (i + 1) h.pending)

/-- Fetches in the same place are of one client. -/
theorem Alike.pending_getElem (h : Alike st st') {i : ℕ} {token token' : ClientIdentity}
    (hi : st.pending[i]? = some token) (hi' : st'.pending[i]? = some token') :
    token.clientId = token'.clientId := by
  obtain ⟨hlt, rfl⟩ := List.getElem?_eq_some_iff.1 hi
  obtain ⟨hlt', rfl⟩ := List.getElem?_eq_some_iff.1 hi'
  exact (List.forall₂_iff_get.1 h.pending).2 i hlt hlt'

/-- The two runs stay alike. -/
theorem Alike.step (h : Alike st st') (ht : Tracks py cfg st) (ht' : Tracks py cfg st')
    (ha : SameButToken a a') (hs : step py cfg st a = some u) (hs' : step py cfg st' a' = some u') :
    Alike u u' := by
  cases ha with
  | @resolve token token' hid now =>
    -- The look into the cache goes by the id only, which is the same.
    have hlookup := h.lookup ht ht' hid now
    unfold Profiles.step at hs hs'
    dsimp only at hs hs'
    cases hl : Profiles.lookup cfg st.cache token now with
    | some r =>
      obtain ⟨r', hl'⟩ := Option.isSome_iff_exists.1 (hlookup.symm.trans (by rw [hl]; rfl))
      rw [hl] at hs
      rw [hl'] at hs'
      exact Option.some.inj hs ▸ Option.some.inj hs' ▸ h
    | none =>
      rw [hl, Option.isSome_none] at hlookup
      rw [hl] at hs
      rw [Option.isSome_eq_false_iff.1 hlookup.symm |> Option.isNone_iff_eq_none.1] at hs'
      rw [← Option.some.inj hs, ← Option.some.inj hs']
      exact ⟨List.rel_append h.pending (.cons hid .nil), h.obtained⟩
  | reply i first second =>
    unfold Profiles.step at hs hs'
    dsimp only at hs hs'
    cases hi : st.pending[i]? with
    | none =>
      rw [hi] at hs
      exact absurd hs nofun
    | some token =>
      cases hi' : st'.pending[i]? with
      | none =>
        rw [hi'] at hs'
        exact absurd hs' nofun
      | some token' =>
        rw [hi] at hs
        rw [hi'] at hs'
        dsimp only at hs hs'
        have hid := h.pending_getElem hi hi'
        have hrest := h.pending_eraseIdx i
        -- The same replies are a profile for both tokens, or for neither.
        have hfetch := fetch_alike py token token' [first, second]
        split at hs
        · next hfetched =>
          rw [hfetched] at hfetch
          obtain ⟨r', hfetched'⟩ := hfetch
          rw [hfetched'] at hs'
          rw [← Option.some.inj hs, ← Option.some.inj hs']
          exact ⟨hrest, .cons ⟨hid, rfl, rfl⟩ h.obtained⟩
        · next hfetched =>
          rw [hfetched] at hfetch
          rw [hfetch] at hs'
          rw [← Option.some.inj hs, ← Option.some.inj hs']
          exact ⟨hrest, h.obtained⟩
        · next hfetched =>
          rw [hfetched] at hfetch
          rw [hfetch] at hs'
          rw [← Option.some.inj hs, ← Option.some.inj hs']
          exact ⟨hrest, h.obtained⟩

/-- The runs of twins are alike. -/
theorem Twins.alike (h : Twins py cfg st st') :
    Tracks py cfg st ∧ Tracks py cfg st' ∧ Alike st st' := by
  induction h with
  | init => exact ⟨tracks_init, tracks_init, .nil, .nil⟩
  | step _ ha hs hs' ih =>
    obtain ⟨ht, ht', halike⟩ := ih
    exact ⟨ht.step hs, ht'.step hs', halike.step ht ht' ha hs hs'⟩

/-- A call whose token agrees with the entries of both runs is answered the same in both. -/
theorem Twins.answer_eq (h : Twins py cfg st st') (hcaller : st.caller a = st'.caller a)
    (ha : Agreeing py cfg st a) (ha' : Agreeing py cfg st' a) :
    st.answer py cfg a = st'.answer py cfg a := by
  obtain ⟨ht, ht', halike⟩ := h.alike
  cases a with
  | resolve token now =>
    have hlookup := halike.lookup ht ht' (Eq.refl token.clientId) now
    show lookup cfg st.cache token now = lookup cfg st'.cache token now
    cases hl : lookup cfg st.cache token now with
    | none =>
      rw [hl, Option.isSome_none] at hlookup
      exact (Option.isNone_iff_eq_none.1 (Option.isSome_eq_false_iff.1 hlookup.symm)).symm
    | some r =>
      obtain ⟨r', hl'⟩ := Option.isSome_iff_exists.1 (hlookup.symm.trans (by rw [hl]; rfl))
      rw [hl']
      refine congrArg some ?_
      rcases ht.lookup hl with ⟨hno, rfl⟩ | ⟨hurl, o, ho, hlive, hmerge⟩
      · rcases ht'.lookup hl' with ⟨-, rfl⟩ | ⟨hurl, -⟩
        · rfl
        · exact absurd (hno.symm.trans hurl) nofun
      · rcases ht'.lookup hl' with ⟨hno, -⟩ | ⟨-, o', ho', hlive', hmerge'⟩
        · exact absurd (hno.symm.trans hurl) nofun
        · -- Both are the identity of the token and the one payload.
          have hsame := halike.newest token.clientId
          rw [Option.mem_def.1 ho, Option.mem_def.1 ho', Option.rel_some_some] at hsame
          have hr := (merge_iff_agree (newest_mem ho).2.symm hmerge).2 (ha hurl o ho hlive)
          have hr' := (merge_iff_agree (newest_mem ho').2.symm hmerge').2 (ha' hurl o' ho' hlive')
          rw [hsame.2.1] at hr
          exact Except.ok.inj (hr.symm.trans hr')
  | reply i first second =>
    unfold State.answer
    dsimp only
    rw [show st.pending[i]? = st'.pending[i]? from hcaller]

end Twins

/-! ## The law, and how it fails -/

/-- In every run, a call whose token agrees with the entry that answers it is answered by its own
token and a payload, an answer from the cache is that of its own token only if it agrees, and in two
runs that differ in the tokens of earlier calls it is answered the same. -/
theorem faithful_of_agrees (py : PyText) (cfg : Config) :
    (∀ st, Path (step py cfg) anyStep .init st → ∀ a, Agreeing py cfg st a →
      Faithful py cfg st a) ∧
      (∀ st, Path (step py cfg) anyStep .init st → cfg.hasUrl = true → ∀ token now,
        ∀ o ∈ st.newest token.clientId, ∀ r ∈ lookup cfg st.cache token now,
          (merge py token o.payload = .ok r ↔ Agree py o.payload token o.token)) ∧
      ∀ st st', Twins py cfg st st' → ∀ a, st.caller a = st'.caller a →
        Agreeing py cfg st a → Agreeing py cfg st' a →
          st.answer py cfg a = st'.answer py cfg a := by
  refine ⟨fun st h a ha => (tracks_of_path h).faithful ha, fun st h hurl token now o ho r hr => ?_,
    fun st st' h a hcaller ha ha' => h.answer_eq hcaller ha ha'⟩
  rcases (tracks_of_path h).lookup hr with ⟨hno, -⟩ | ⟨-, o', ho', -, hmerge⟩
  · exact absurd (hno.symm.trans hurl) nofun
  · obtain rfl : o = o' := Option.some.inj ((Option.mem_def.1 ho).symm.trans (Option.mem_def.1 ho'))
    exact merge_iff_agree (newest_mem ho).2.symm hmerge

/-! ### Runs -/

/-- Text without anything that is not of ASCII. -/
def plain : PyText := ⟨fun c => [c], fun _ => []⟩

/-- A token of a client, with its symbols. -/
def sampleToken (allowedSymbols : Option (Finset PyStr)) : ClientIdentity :=
  ⟨text "c", .basic, allowedSymbols, {text "quote"}, none, []⟩

/-- The state after one call that has been answered by an empty payload. -/
def sampleState (token : ClientIdentity) : State :=
  ⟨⟨[(token.clientId, ⟨{ token with allowedSymbols := plain.renormalized token }, 0 + (30 : ℤ)⟩)],
    List.pairwise_singleton _ _⟩, [], [⟨token, .dict [], 0⟩]⟩

/-- The sample state is reached. -/
theorem path_sampleState (token : ClientIdentity) :
    Path (step plain ⟨true, 30⟩) anyStep .init (sampleState token) := by
  have hbegin : Path (step plain ⟨true, 30⟩) anyStep .init ⟨⟨[], .nil⟩, [token], []⟩ :=
    Lib.Path.refl.tail (.resolve token 0) trivial rfl
  exact hbegin.tail (.reply 0 (.payload (.dict []) 0) .failed) trivial rfl

/-- The sample states are those of twins. -/
theorem twins_sampleState {token token' : ClientIdentity} (hid : token.clientId = token'.clientId) :
    Twins plain ⟨true, 30⟩ (sampleState token) (sampleState token') := by
  have hbegin : Twins plain ⟨true, 30⟩ ⟨⟨[], .nil⟩, [token], []⟩ ⟨⟨[], .nil⟩, [token'], []⟩ :=
    Twins.init.step (.resolve hid 0) rfl rfl
  exact hbegin.step (.reply 0 (.payload (.dict []) 0) .failed) rfl rfl

/-- The entry answers every call of its client. -/
theorem lookup_sampleState {token token' : ClientIdentity}
    (hid : token.clientId = token'.clientId) :
    lookup ⟨true, 30⟩ (sampleState token).cache token' 1 =
      some { token with allowedSymbols := plain.renormalized token } := by
  have hlive : (1 : ℚ) < 0 + (30 : ℤ) := by norm_num
  unfold lookup sampleState Dict.get
  rw [if_neg (by decide), getKey_cons, if_pos hid]
  exact if_pos hlive

/-- A second call of the same token is answered from the cache, and by its own token. -/
theorem faithful_of_agrees_again : ∃ st,
    Path (step plain ⟨true, 30⟩) anyStep .init st ∧
      Agreeing plain ⟨true, 30⟩ st (.resolve (sampleToken none) 1) ∧
      (lookup ⟨true, 30⟩ st.cache (sampleToken none) 1).isSome ∧
      Faithful plain ⟨true, 30⟩ st (.resolve (sampleToken none) 1) := by
  have hagreeing : Agreeing plain ⟨true, 30⟩ (sampleState (sampleToken none))
      (.resolve (sampleToken none) 1) := by
    intro _ o ho _
    obtain rfl : ⟨sampleToken none, .dict [], 0⟩ = o := Option.some.inj ho
    exact ⟨rfl, fun _ => rfl, fun _ => rfl, fun _ => rfl, fun _ => rfl⟩
  exact ⟨sampleState (sampleToken none), path_sampleState _, hagreeing,
    Option.isSome_iff_exists.2 ⟨_, lookup_sampleState rfl⟩,
    (faithful_of_agrees plain ⟨true, 30⟩).1 _ (path_sampleState _) _ hagreeing⟩

/-- A token with no symbols at all is answered by one with every symbol, and would be answered
otherwise after a call of its own. -/
theorem exists_not_faithful : ∃ st st' a,
    Path (step plain ⟨true, 30⟩) anyStep .init st ∧ ¬Faithful plain ⟨true, 30⟩ st a ∧
      Twins plain ⟨true, 30⟩ st st' ∧ st.caller a = st'.caller a ∧
      st.answer plain ⟨true, 30⟩ a ≠ st'.answer plain ⟨true, 30⟩ a := by
  have hanswer : (sampleState (sampleToken none)).answer plain ⟨true, 30⟩
      (.resolve (sampleToken (some ∅)) 1) = some (sampleToken none) :=
    @lookup_sampleState (sampleToken none) (sampleToken (some ∅)) rfl
  have hanswer' : (sampleState (sampleToken (some ∅))).answer plain ⟨true, 30⟩
      (.resolve (sampleToken (some ∅)) 1) = some (sampleToken (some ∅)) :=
    @lookup_sampleState (sampleToken (some ∅)) (sampleToken (some ∅)) rfl
  have hne : sampleToken none ≠ sampleToken (some ∅) := fun h =>
    absurd (congrArg ClientIdentity.allowedSymbols h) nofun
  refine ⟨sampleState (sampleToken none), sampleState (sampleToken (some ∅)),
    .resolve (sampleToken (some ∅)) 1, path_sampleState _, fun hfaithful => ?_,
    twins_sampleState rfl, rfl, fun heq => ?_⟩
  · rcases hfaithful _ rfl _ hanswer with ⟨-, heq⟩ | ⟨o, ho, -, -, hmerge⟩
    · exact hne heq
    · obtain rfl := List.mem_singleton.1 ho
      exact hne (Except.ok.inj hmerge).symm
  · exact hne (Option.some.inj (hanswer.symm.trans (heq.trans hanswer')))

end MarketDataGateway.Access.Profiles
