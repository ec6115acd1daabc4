import Mathlib.Data.List.Sort
import Mathlib.Data.String.Basic
import MarketDataGateway.Models.Wire
import MarketDataGateway.Session.Hub

/-!
# Commands and messages

`SubscriptionCommand` and `StreamMessage` of `domain/models.py`, `AuthorizationService` of
`security.py` and `get_latest` of `storage.py`. `SubscriptionCommand.modelValidate_dict` says what
becomes of the payloads that are objects.
-/

namespace MarketDataGateway.Session

open Lib
open Access.Profiles (ClientIdentity PyText iter parseStr)

/-! ## Commands -/

/-- The actions of commands. -/
inductive CommandAction
  | subscribe
  | unsubscribe
  | ping
  deriving DecidableEq

/-- The value of an action. -/
def CommandAction.value : CommandAction → String
  | subscribe => "subscribe"
  | unsubscribe => "unsubscribe"
  | ping => "ping"

/-- `SubscriptionCommand`. -/
structure SubscriptionCommand where
  /-- `action`. -/
  action : CommandAction
  /-- `symbols`. -/
  symbols : List Models.Symbol
  /-- `channels`. -/
  channels : List PyStr
  /-- `request_id`. -/
  requestId : Option PyStr
  symbols_le : symbols.length ≤ 500
  channels_le : channels.length ≤ 10
  requestId_le : ∀ s ∈ requestId, s.length ≤ 128
  /-- `validate_action_payload`. -/
  valid : action = .ping ∨ symbols ≠ []

/-- `str.encode("utf-8")` does not raise. -/
def encodable (s : PyStr) : Bool := (encodeUtf8 s).isSome

namespace SubscriptionCommand

/-- The field `request_id`. To measure a string, pydantic encodes it. -/
def parseRequestId : Option Json → Option (Option PyStr)
  | none => some none
  | some .null => some none
  | some (.str s) => if encodable s then some (some s) else none
  | some _ => none

/-- `normalize_symbols`, which is not called when the field is left out. -/
def normalizeSymbols (py : PyText) : Option Json → Except SessionError (List PyStr)
  | none => .ok []
  | some .null => .ok []
  | some v =>
    match iter v with
    | .error _ => .error .typeError
    | .ok items =>
      let symbols := (items.map fun symbol => strip (py.str symbol)).filter (· ≠ [])
      .ok (symbols.map (upper py.special)).eraseDups

/-- A string of the field `symbols`. -/
def parseSymbol (s : PyStr) : Option Models.Symbol :=
  if h : Models.Matches 1 32 Models.isSymbolChar s then some ⟨s, h⟩ else none

/-- The field `channels`. -/
def parseChannels : Option Json → Option (List PyStr)
  | none => some [text "quote"]
  | some (.list items) => items.mapM fun v => (parseStr v).toOption
  | some _ => none

/-- The fields, of which `symbols` has been normalized. `none` stands for a `ValidationError`. -/
def parseFields (entries : List (PyStr × Json)) (symbols : List PyStr) :
    Option SubscriptionCommand := do
  let field name := getKey (text name) entries
  guard (onlyFields ["action", "symbols", "channels", "request_id"] entries)
  let action ←
    (Codec.strEnum [.subscribe, .unsubscribe, .ping] CommandAction.value).required (field "action")
  let symbols ← symbols.mapM parseSymbol
  let channels ← parseChannels (field "channels")
  let requestId ← parseRequestId (field "request_id")
  if valid : symbols.length ≤ 500 ∧ channels.length ≤ 10 ∧ (∀ s ∈ requestId, s.length ≤ 128) ∧
      (action = .ping ∨ symbols ≠ []) then
    some ⟨action, symbols, channels, requestId, valid.1, valid.2.1, valid.2.2.1, valid.2.2.2⟩
  else none

/-- `model_validate`. What `normalize_symbols` raises is no `ValueError`, and ends the
validation. -/
def modelValidate (py : PyText) : Json → Except SessionError SubscriptionCommand
  | .dict entries =>
    match normalizeSymbols py (getKey (text "symbols") entries) with
    | .error e => .error e
    | .ok symbols =>
      match parseFields entries symbols with
      | none => .error .validationError
      | some command => .ok command
  | _ => .error .validationError

/-- A symbol, as the hub and the registry have it. -/
def spelling (symbol : Models.Symbol) : Symbol :=
  String.ofList (symbol.1.map fun c => Char.ofNat c.val)

/-- `set(command.symbols)`, sorted. -/
def symbolSet (command : SubscriptionCommand) : List Symbol :=
  (command.symbols.map spelling).eraseDups.insertionSort (· ≤ ·)

end SubscriptionCommand

/-! ## Entitlements -/

/-- `','.join(sorted(denied))`. -/
def joinSorted (denied : List PyStr) : PyStr :=
  (text ",").intercalate (denied.insertionSort (· ≤ ·))

/-- What both checks of `AuthorizationService` do. -/
def checkEntitled (what : String) (allowed : Finset PyStr) (names : List PyStr) :
    Except SessionError Unit :=
  let denied := names.eraseDups.filter (· ∉ allowed)
  if denied = [] then .ok ()
  else .error (.authorizationError (text s!"{what} not entitled: " ++ joinSorted denied))

/-- `check_channels`. -/
def checkChannels (identity : ClientIdentity) (channels : List PyStr) : Except SessionError Unit :=
  checkEntitled "channels" identity.allowedChannels channels

/-- `check_symbols`. -/
def checkSymbols (identity : ClientIdentity) (symbols : List Models.Symbol) :
    Except SessionError Unit :=
  match identity.allowedSymbols with
  | none => .ok ()
  | some allowed => checkEntitled "symbols" allowed (symbols.map Subtype.val)

/-! ## Messages -/

/-- The types of the messages with which a command is answered. -/
inductive MessageType
  | ack
  | snapshot
  | error
  deriving DecidableEq

/-- The data of these messages. -/
inductive MessageData
  /-- `{"action": "pong"}`. -/
  | pong
  /-- `{"action": "subscribe", "symbols": .., "upstream_transitions": ..}`. -/
  | subscribe (symbols upstreamTransitions : List Symbol)
  /-- `{"action": "unsubscribe", "symbols": ..}`. -/
  | unsubscribe (symbols : List Symbol)
  /-- `QuoteSnapshot`, without `stale` and `age_ms`. -/
  | snapshot (quote : Models.QuoteEvent)
  /-- `{"code": .., "message": ..}`. No message stands for a text of pydantic. -/
  | error (code : String) (message : Option PyStr)

/-- `type`. -/
def MessageData.type : MessageData → MessageType
  | pong => .ack
  | subscribe _ _ => .ack
  | unsubscribe _ => .ack
  | snapshot _ => .snapshot
  | error _ _ => .error

/-- `StreamMessage`. -/
structure StreamMessage where
  /-- `request_id`. -/
  requestId : Option PyStr
  /-- `data`. -/
  data : MessageData

/-- The field `request_id` of a message, which has no constraint. -/
def StreamMessage.parseRequestId : Option Json → Option (Option PyStr)
  | none => some none
  | some .null => some none
  | some v => (parseStr v).toOption.map some

/-- UTF-8 can encode the data. Symbols are of ASCII, and so are the texts of pydantic but for what
it has read from UTF-8, as are quotes. -/
def MessageData.encodable : MessageData → Bool
  | .error _ (some message) => Session.encodable message
  | _ => true

/-- `websocket.send_json` can send the message, whose text it encodes in UTF-8. -/
def StreamMessage.encodable (m : StreamMessage) : Bool :=
  m.requestId.all Session.encodable && m.data.encodable

/-- The message is the last one for a command. -/
def StreamMessage.Terminal (m : StreamMessage) : Prop := m.data.type = .ack ∨ m.data.type = .error

instance : DecidablePred StreamMessage.Terminal := fun _ => inferInstanceAs (Decidable (_ ∨ _))

/-! ## Cached quotes -/

/-- `get_latest`, by the payload that `GET` replies. -/
def getLatest (p : Models.Pydantic) (fresh : Models.Fresh) :
    Option PyStr → Except SessionError (Option Models.QuoteEvent)
  | none => .ok none
  | some payload =>
    match (p.read payload).bind (Models.QuoteFields.parse p fresh) with
    | none => .error .validationError
    | some fields =>
      match valid : fields.validateMarket with
      | .ok () => .ok (some ⟨fields, valid⟩)
      | .error .overflow => .error .overflow
      | .error (.valueError _) => .error .validationError

/-- A cached payload that is no quote is refused by a `ValidationError` or by `decimal.Overflow`. -/
theorem getLatest_eq_error {p : Models.Pydantic} {fresh : Models.Fresh} {payload : Option PyStr}
    {e : SessionError} (h : getLatest p fresh payload = .error e) :
    e = .validationError ∨ e = .overflow := by
  unfold getLatest at h
  split at h
  · exact absurd h nofun
  · split at h
    · exact Or.inl (Except.error.inj h).symm
    · split at h
      · exact absurd h nofun
      · exact Or.inr (Except.error.inj h).symm
      · exact Or.inl (Except.error.inj h).symm

/-! ## Which texts can be sent -/

/-- UTF-8 encodes a code point that is no surrogate. -/
theorem isSome_encodeChar (c : CodePoint) : (encodeChar c).isSome = true ↔ ¬c.IsSurrogate := by
  by_cases hsurrogate : c.IsSurrogate
  · obtain ⟨hlow, hhigh⟩ := hsurrogate
    unfold encodeChar
    rw [if_neg (by omega), if_neg (by omega), if_pos ⟨hlow, hhigh⟩]
    exact iff_of_false nofun (not_not.2 ⟨hlow, hhigh⟩)
  · refine iff_of_true ?_ hsurrogate
    unfold encodeChar
    split_ifs <;> rfl

/-- A text can be encoded if it has no surrogates. -/
theorem encodable_iff {s : PyStr} : encodable s = true ↔ ∀ c ∈ s, ¬c.IsSurrogate := by
  unfold encodable
  induction s with
  | nil => exact iff_of_true rfl fun c hc => absurd hc List.not_mem_nil
  | cons c s ih =>
    rw [List.forall_mem_cons, ← ih, ← isSome_encodeChar, encodeUtf8]
    cases encodeChar c with
    | none => simp
    | some bytes => cases encodeUtf8 s <;> simp

/-- A text that is put together can be encoded if its parts can. -/
theorem encodable_append {s t : PyStr} :
    encodable (s ++ t) = true ↔ encodable s = true ∧ encodable t = true := by
  simp only [encodable_iff, List.forall_mem_append]

/-- The text of a string can be encoded: its characters are no surrogates. -/
theorem encodable_text (s : String) : encodable (text s) = true := by
  rw [encodable_iff]
  intro c hc
  obtain ⟨ch, -, rfl⟩ := List.mem_map.1 hc
  have hvalid := ch.valid
  unfold CodePoint.IsSurrogate CodePoint.ofChar
  rw [Fin.val_ofNat]
  simp only [UInt32.isValidChar, Nat.isValidChar, Char.toNat] at hvalid ⊢
  omega

/-- So can the text of a symbol, which is of ASCII. -/
theorem encodable_symbol (symbol : Models.Symbol) : encodable symbol.1 = true := by
  rw [encodable_iff]
  intro c hc
  have hchar := Models.isSymbolChar_cases (List.all_eq_true.1 symbol.2.2.2 c hc)
  unfold CodePoint.IsSurrogate
  omega

/-- Names that are joined can be encoded if each of them can. -/
theorem encodable_joinSorted {denied : List PyStr} :
    encodable (joinSorted denied) = true ↔ ∀ name ∈ denied, encodable name = true := by
  have hjoin (names : List PyStr) : encodable ((text ",").intercalate names) = true ↔
      ∀ name ∈ names, encodable name = true := by
    induction names with
    | nil => exact iff_of_true rfl fun name hname => absurd hname List.not_mem_nil
    | cons name names ih =>
      rw [List.forall_mem_cons, ← ih]
      cases names with
      | nil => rw [List.intercalate_singleton]; exact (and_iff_left rfl).symm
      | cons name' names =>
        rw [List.intercalate_cons_cons, encodable_append, encodable_append]
        simp only [encodable_text, and_true]
  unfold joinSorted
  rw [hjoin]
  simp only [List.mem_insertionSort]

/-- What a failed check says can be sent if the names that it denies can. -/
theorem encodable_of_checkEntitled {what : String} {allowed : Finset PyStr} {names : List PyStr}
    {e : SessionError} (h : checkEntitled what allowed names = .error e) :
    ∃ message, e = .authorizationError message ∧ (encodable message = true ↔
      ∀ name ∈ names, name ∉ allowed → encodable name = true) := by
  unfold checkEntitled at h
  dsimp only at h
  split_ifs at h
  refine ⟨_, (Except.error.inj h).symm, ?_⟩
  rw [encodable_append, encodable_joinSorted]
  simp only [encodable_text, true_and, List.mem_filter, List.mem_eraseDups,
    decide_eq_true_eq, and_imp]

/-- A check that passes denies no name. -/
theorem mem_of_checkEntitled {what : String} {allowed : Finset PyStr} {names : List PyStr}
    (h : checkEntitled what allowed names = .ok ()) : ∀ name ∈ names, name ∈ allowed := by
  unfold checkEntitled at h
  dsimp only at h
  split_ifs at h with hnone
  intro name hname
  by_contra hdenied
  exact List.filter_eq_nil_iff.1 hnone name (List.mem_eraseDups.2 hname) (decide_eq_true hdenied)

/-! ## Which payloads make a command -/

/-- `normalize_symbols` can go through the field. -/
def isIterable : Option Json → Bool
  | none | some .null | some (.list _) | some (.str _) | some (.dict _) => true
  | _ => false

namespace SubscriptionCommand

variable {py : PyText} {payload : Json} {entries : List (PyStr × Json)} {symbols : List PyStr}
  {command : SubscriptionCommand} {e : SessionError}

/-- What `normalize_symbols` raises is a `TypeError`, when it is given what it cannot go through. -/
theorem normalizeSymbols_cases (py : PyText) (v : Option Json) :
    isIterable v = true ∧ (∃ symbols, normalizeSymbols py v = .ok symbols) ∨
      isIterable v = false ∧ normalizeSymbols py v = .error .typeError := by
  unfold normalizeSymbols isIterable
  rcases v with _ | (_ | _ | _ | _ | _ | _ | _)
  all_goals first
    | exact Or.inl ⟨rfl, _, rfl⟩
    | exact Or.inr ⟨rfl, rfl⟩

/-- The `request_id` of a command is one of a message that can be sent. -/
theorem parseRequestId_eq_some {v : Option Json} {requestId : Option PyStr}
    (h : parseRequestId v = some requestId) :
    StreamMessage.parseRequestId v = some requestId ∧ requestId.all encodable = true := by
  unfold parseRequestId at h
  split at h
  · obtain rfl := Option.some.inj h
    exact ⟨rfl, rfl⟩
  · obtain rfl := Option.some.inj h
    exact ⟨rfl, rfl⟩
  · split_ifs at h with hs
    obtain rfl := Option.some.inj h
    exact ⟨rfl, hs⟩
  · exact nomatch h

/-- A command has the `request_id` of its payload. -/
theorem parseRequestId_of_parseFields (h : parseFields entries symbols = some command) :
    parseRequestId (getKey (text "request_id") entries) = some command.requestId := by
  unfold parseFields at h
  simp only [Option.bind_eq_bind, Option.bind_eq_some_iff] at h
  obtain ⟨-, -, action, -, symbols, -, channels, -, requestId, hrequest, hcommand⟩ := h
  split_ifs at hcommand
  rw [hrequest, ← Option.some.inj hcommand]

/-- What `model_validate` does with an object. -/
theorem modelValidate_dict (py : PyText) (entries : List (PyStr × Json)) :
    isIterable (getKey (text "symbols") entries) = false ∧
        modelValidate py (.dict entries) = .error .typeError ∨
      isIterable (getKey (text "symbols") entries) = true ∧
        (modelValidate py (.dict entries) = .error .validationError ∨
          ∃ command, modelValidate py (.dict entries) = .ok command ∧
            parseRequestId (getKey (text "request_id") entries) = some command.requestId) := by
  unfold modelValidate
  dsimp only
  rcases normalizeSymbols_cases py (getKey (text "symbols") entries) with
    ⟨hiter, symbols, hsymbols⟩ | ⟨hiter, hsymbols⟩
  · refine Or.inr ⟨hiter, ?_⟩
    rw [hsymbols]
    dsimp only
    cases hfields : parseFields entries symbols with
    | none => exact Or.inl rfl
    | some command => exact Or.inr ⟨command, rfl, parseRequestId_of_parseFields hfields⟩
  · refine Or.inl ⟨hiter, ?_⟩
    rw [hsymbols]

/-- The `request_id` of a command can be encoded. -/
theorem encodable_requestId (h : modelValidate py payload = .ok command) :
    command.requestId.all encodable = true := by
  unfold modelValidate at h
  split at h
  · split at h
    · exact absurd h nofun
    · split at h
      · exact absurd h nofun
      · next hfields =>
        rw [← Except.ok.inj h]
        exact (parseRequestId_eq_some (parseRequestId_of_parseFields hfields)).2
  · exact absurd h nofun

/-- A command is made of an object. -/
theorem exists_dict (h : modelValidate py payload = .ok command) :
    ∃ entries, payload = .dict entries := by
  unfold modelValidate at h
  split at h
  · exact ⟨_, rfl⟩
  · exact absurd h nofun

end SubscriptionCommand

end MarketDataGateway.Session
