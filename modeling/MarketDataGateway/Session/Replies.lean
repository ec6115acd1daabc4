import MarketDataGateway.Session.Receive

/-!
# Replies

Which frames are answered by one reply, after which the session goes on (`answered_iff`): those that
`receive_json` reads, whose `symbols` can be gone through and whose `request_id` can be given back,
unless the reply cannot be encoded or a cached quote overflows.
-/

namespace MarketDataGateway.Session

open Lib
open Access.Profiles (ClientIdentity)
open Registry (ConnId Redis)

/-! ## Sessions -/

/-- The states of a session between two frames. -/
inductive Reachable (cfg : Config) : State → Prop
  /-- The session has been added to the hub. -/
  | opened {st : State} :
      st.hub.sessions cfg.connectionId = some ⟨cfg.identity, ∅⟩ → Reachable cfg st
  /-- A frame has been handled, and the session goes on. -/
  | frame {env : Surroundings} {st : State} (v : Json) :
      Reachable cfg st → (receive cfg env st v).ended = .ok () →
      Reachable cfg (receive cfg env st v).state
  /-- Other tasks have run, which leave the session in the hub as it is. -/
  | others {st st' : State} : Reachable cfg st →
      st'.hub.sessions cfg.connectionId = st.hub.sessions cfg.connectionId → Reachable cfg st'

variable {cfg : Config} {env : Surroundings} {st st' : State} {payload v : Json}
  {command command' : SubscriptionCommand} {p : Progress} {e : SessionError} {symbol : Symbol}

/-- A state is connected if the identity of its session is the same. -/
theorem Connected.of_identity (h : Connected cfg st)
    (hidentity : (st'.hub.sessions cfg.connectionId).map (·.identity) =
      (st.hub.sessions cfg.connectionId).map (·.identity)) : Connected cfg st' := by
  obtain ⟨session, hsession, hid⟩ := h
  rw [hsession, Option.map_some] at hidentity
  obtain ⟨session', hsession', hid'⟩ := Option.map_eq_some_iff.1 hidentity
  exact ⟨session', hsession', hid'.trans hid⟩

/-- A reply to an error leaves the state. -/
theorem state_answerError (payload : Json) (p : Progress) :
    (answerError payload p).state = p.state := by
  unfold answerError
  split
  · rfl
  · split
    · rfl
    · split
      · rfl
      · dsimp only
        split_ifs <;> rfl

/-- What a command makes of the state, whatever its reply. -/
theorem state_handle (h : Connected cfg st) (payload : Json) :
    (handle cfg env st payload).state = st ∨
      ∃ command, Joined cfg env st command (handle cfg env st payload).state ∨
        Left cfg env st command (handle cfg env st payload).state := by
  unfold handle
  rw [state_answerError]
  have hends : Outcome cfg env st payload (tryBody cfg env st payload) := outcome h payload
  generalize tryBody cfg env st payload = p at hends
  cases hends with
  | invalid _ => exact Or.inl rfl
  | refused _ _ _ _ _ => exact Or.inl rfl
  | answered _ _ _ _ => exact Or.inl rfl
  | broken _ hjoined _ _ => exact Or.inr ⟨_, Or.inl hjoined⟩
  | subscribed _ hjoined _ _ => exact Or.inr ⟨_, Or.inl hjoined⟩
  | unsubscribed _ _ _ hleft => exact Or.inr ⟨_, Or.inr hleft⟩

/-- A session stays in the hub. -/
theorem Connected.receive (h : Connected cfg st) (v : Json) :
    Connected cfg (receive cfg env st v).state := by
  unfold Session.receive
  split
  · exact h
  · next payload _ =>
    rcases state_handle h payload with hstate | ⟨command, hjoined | hleft⟩
    · rw [hstate]
      exact h
    · exact h.of_identity hjoined.hub.identity
    · exact h.of_identity hleft.hub.identity

/-- A state that is reached is connected. -/
theorem Reachable.connected (h : Reachable cfg st) : Connected cfg st := by
  induction h with
  | opened hsession => exact ⟨_, hsession, rfl⟩
  | frame v _ _ ih => exact ih.receive v
  | others _ hsessions ih =>
    refine ih.of_identity ?_
    rw [hsessions]

/-! ## The reply -/

/-- What has ended well needs no reply. -/
theorem answerError_ok (h : p.ended = .ok ()) : answerError payload p = p := by
  unfold answerError
  rw [h]

/-- A caught exception is answered if the payload's `request_id` can be given back. -/
theorem answerError_caught {data : MessageData} {requestId : Option PyStr} (h : p.ended = .error e)
    (hreply : e.reply = some data)
    (hrequest : StreamMessage.parseRequestId (payloadRequestId payload) = some requestId)
    (hid : requestId.all encodable = true) (hdata : data.encodable = true) :
    answerError payload p = ⟨p.state, p.sent ++ [⟨requestId, data⟩], .ok ()⟩ := by
  have hmessage : (⟨requestId, data⟩ : StreamMessage).encodable = true := by
    unfold StreamMessage.encodable
    rw [hid, hdata]
    rfl
  unfold answerError
  rw [h]
  dsimp only
  rw [hreply]
  dsimp only
  rw [hrequest]
  exact if_pos hmessage

/-- Otherwise nothing is answered. -/
theorem ended_answerError {data : MessageData} (h : p.ended = .error e)
    (hreply : e.reply = some data)
    (hended : (answerError payload p).ended = .ok ()) : data.encodable = true ∧
      ∃ requestId, StreamMessage.parseRequestId (payloadRequestId payload) = some requestId ∧
        requestId.all encodable = true := by
  unfold answerError at hended
  rw [h] at hended
  dsimp only at hended
  rw [hreply] at hended
  dsimp only at hended
  split at hended
  · exact nomatch hended
  · next requestId hrequest =>
    split_ifs at hended with hmessage
    obtain ⟨hid, hdata⟩ := Bool.and_eq_true_iff.1 hmessage
    exact ⟨hdata, requestId, hrequest, hid⟩

/-- An error without a reply ends the session. -/
theorem answerError_uncaught (h : p.ended = .error e) (hreply : e.reply = none) :
    answerError payload p = p := by
  unfold answerError
  rw [h]
  dsimp only
  rw [hreply]

/-- What answers an exception is an error. -/
theorem type_of_reply {data : MessageData} (h : e.reply = some data) : data.type = .error := by
  cases e with
  | validationError | valueError _ | authorizationError _ | unicodeEncodeError =>
    rw [← Option.some.inj h]
    rfl
  | typeError | keyError | overflow | recursionError => exact absurd h nofun

/-- The `request_id` can be given back in a message. -/
def GivesBack (v : Option Json) : Prop :=
  ∃ requestId, StreamMessage.parseRequestId v = some requestId ∧ requestId.all encodable = true

/-- The payload of a command can be gone through, and its `request_id` be given back. -/
theorem shape_of_valid (h : SubscriptionCommand.modelValidate cfg.py payload = .ok command) :
    ∃ entries, payload = .dict entries ∧ isIterable (getKey (text "symbols") entries) = true ∧
      GivesBack (payloadRequestId payload) := by
  obtain ⟨entries, rfl⟩ := SubscriptionCommand.exists_dict h
  refine ⟨entries, rfl, ?_⟩
  rcases SubscriptionCommand.modelValidate_dict cfg.py entries with
    ⟨-, herror⟩ | ⟨hiter, herror | ⟨command', hok, hrequest⟩⟩
  · exact absurd (h.symm.trans herror) nofun
  · exact absurd (h.symm.trans herror) nofun
  · have heq : command' = command := Except.ok.inj (hok.symm.trans h)
    rw [heq] at hrequest
    exact ⟨hiter, _, SubscriptionCommand.parseRequestId_eq_some hrequest⟩

/-- A payload is admitted as one command. -/
theorem Admitted.eq (h : Admitted cfg env st payload command)
    (h' : SubscriptionCommand.modelValidate cfg.py payload = .ok command') : command = command' :=
  Except.ok.inj (h.valid.symm.trans h')

/-- A cached payload that is no quote is that of a symbol which is new. -/
theorem exists_new_of_cachedError (h : cachedError cfg env (newSymbols cfg st command) = some e) :
    (∃ symbol ∈ command.symbolSet, symbol ∉ st.subscriptions cfg) ∧
      (e = .validationError ∨ e = .overflow) := by
  obtain ⟨symbol, hmem, hsymbol⟩ := List.exists_of_findSome?_eq_some h
  obtain ⟨hset, hnew⟩ := List.mem_filter.1 hmem
  refine ⟨⟨symbol, hset, of_decide_eq_true hnew⟩, ?_⟩
  cases hlatest : getLatest cfg.pydantic env.fresh (env.latest symbol) with
  | ok o =>
    rw [hlatest] at hsymbol
    exact absurd hsymbol nofun
  | error e' =>
    rw [hlatest] at hsymbol
    rw [← Option.some.inj hsymbol]
    exact getLatest_eq_error hlatest

/-! ### A session -/

/-- A session of the basic tier. -/
def sampleConfig : Config where
  connectionId := "c"
  identity := ⟨text "u", .basic, none, {text "quote"}, none, []⟩
  maxSymbols _ := 20
  settings := default
  py := ⟨fun c => [c], fun _ => []⟩
  pydantic := Models.samplePydantic
  maxNesting := 1000

/-- The session when it is opened. -/
def opened : State where
  hub := Hub.empty.add "c" ⟨sampleConfig.identity, ∅⟩
  redis := .empty

/-- The same payload is cached for every symbol. -/
def cached (payload : Option PyStr) : Surroundings :=
  ⟨0, 0, true, fun _ => payload, ⟨0, Models.sample.receivedAt⟩⟩

/-- `{"action": "subscribe", "symbols": ..}`. -/
def subscribePayload (symbols : Json) : Json :=
  .dict [(text "action", .str (text "subscribe")), (text "symbols", symbols)]

/-- The sample state is reached. -/
theorem reachable_opened : Reachable sampleConfig opened := .opened rfl

/-- `{"action": "subscribe", "symbols": ["aapl"]}`. -/
def subscribeAapl : Json := subscribePayload (.list [.str (text "aapl")])

/-- No error comes of a cache without quotes. -/
theorem cachedError_none (symbols : List Symbol) :
    cachedError sampleConfig (cached none) symbols = none :=
  List.findSome?_eq_none_iff.2 fun _ _ => rfl

/-! ### The number of replies -/

/-- Nothing has been raised, and the payload has been answered by one reply, after snapshots. -/
def Answered (p : Progress) : Prop :=
  p.ended = .ok () ∧ ∃ snapshots reply, p.sent = snapshots ++ [reply] ∧ reply.Terminal ∧
    ∀ m ∈ snapshots, m.data.type = .snapshot

/-- `receive_json` reads the frame: it is not nested too deeply, and its integers are not too
long. -/
def Readable (cfg : Config) (v : Json) : Prop := v.nesting ≤ cfg.maxNesting ∧ v.fits = true

/-- A session can go through the `symbols` of the payload, and give its `request_id` back. -/
def WellShaped (payload : Json) : Prop :=
  ∀ entries, payload = .dict entries → isIterable (getKey (text "symbols") entries) = true ∧
    GivesBack (getKey (text "request_id") entries)

/-- A payload that is valid is well shaped. -/
theorem wellShaped_of_valid (h : SubscriptionCommand.modelValidate cfg.py payload = .ok command) :
    WellShaped payload := by
  obtain ⟨entries, rfl, hiter, hrequest⟩ := shape_of_valid h
  intro entries' heq
  rw [← Json.dict.inj heq]
  exact ⟨hiter, hrequest⟩

/-- The reply to a command can be sent: a ping is not checked, and another command is denied only
channels that can be named. -/
def Speakable (cfg : Config) (payload : Json) : Prop :=
  ∀ command, SubscriptionCommand.modelValidate cfg.py payload = .ok command →
    command.action ≠ .ping →
    NamesChannels cfg command

/-- An exception that is caught is answered. -/
theorem answered_of_caught {sent : List StreamMessage} {data : MessageData}
    (hreply : e.reply = some data)
    (hdata : data.encodable = true) (hrequest : GivesBack (payloadRequestId payload))
    (hsnapshots : ∀ m ∈ sent, m.data.type = .snapshot) :
    Answered (answerError payload ⟨st, sent, .error e⟩) := by
  obtain ⟨requestId, hparse, hid⟩ := hrequest
  rw [answerError_caught rfl hreply hparse hid hdata]
  exact ⟨rfl, sent, _, rfl, Or.inr (type_of_reply hreply), hsnapshots⟩

/-- A payload of which no command can be made is answered if it is well shaped. -/
theorem answered_invalid_iff (h : SubscriptionCommand.modelValidate cfg.py payload = .error e) :
    Answered (answerError payload ⟨st, [], .error e⟩) ↔ WellShaped payload := by
  have hnone : ∀ m ∈ ([] : List StreamMessage), m.data.type = .snapshot := fun m hm =>
    absurd hm List.not_mem_nil
  by_cases hdict : ∃ entries, payload = .dict entries
  · obtain ⟨entries, rfl⟩ := hdict
    have hshape : WellShaped (.dict entries) ↔ isIterable (getKey (text "symbols") entries) = true ∧
        GivesBack (getKey (text "request_id") entries) :=
      ⟨fun h => h entries rfl, fun h entries' heq => Json.dict.inj heq ▸ h⟩
    rw [hshape]
    rcases SubscriptionCommand.modelValidate_dict cfg.py entries with
      ⟨hiter, herror⟩ | ⟨hiter, herror | ⟨command, hok, -⟩⟩
    · -- Symbols that cannot be gone through raise an error that no one catches.
      obtain rfl := Except.error.inj (h.symm.trans herror)
      rw [answerError_uncaught rfl rfl, hiter]
      exact iff_of_false (fun hanswered => absurd hanswered.1 nofun) fun hand =>
        Bool.false_ne_true hand.1
    · obtain rfl := Except.error.inj (h.symm.trans herror)
      refine ⟨fun hanswered => ⟨hiter, ?_⟩, fun hand => answered_of_caught rfl rfl hand.2 hnone⟩
      exact (ended_answerError rfl rfl hanswered.1).2
    · exact absurd (h.symm.trans hok) nofun
  · -- What is no object is refused by the model, and has no request to name.
    have herror : e = .validationError := by
      unfold SubscriptionCommand.modelValidate at h
      split at h
      · exact absurd ⟨_, rfl⟩ hdict
      · exact (Except.error.inj h).symm
    have hrequest : payloadRequestId payload = none := by
      unfold payloadRequestId
      split
      · exact absurd ⟨_, rfl⟩ hdict
      · rfl
    rw [herror]
    refine iff_of_true (answered_of_caught rfl rfl (by rw [hrequest]; exact ⟨none,
      rfl, rfl⟩) hnone) ?_
    exact fun entries heq => absurd ⟨entries, heq⟩ hdict

/-- A payload is answered by one reply and raises nothing if and only if it is well shaped, its
reply can be sent, and the command adds no symbol with a cached payload at which `decimal`
overflows. -/
theorem answered_handle_iff (h : Connected cfg st) :
    Answered (handle cfg env st payload) ↔ WellShaped payload ∧ Speakable cfg payload ∧
      ∀ command, Admitted cfg env st payload command →
        cachedError cfg env (newSymbols cfg st command) ≠ some .overflow := by
  have hends : Outcome cfg env st payload (tryBody cfg env st payload) := outcome h payload
  unfold handle
  generalize tryBody cfg env st payload = p at hends
  have hnone : ∀ m ∈ ([] : List StreamMessage), m.data.type = .snapshot := fun m hm =>
    absurd hm List.not_mem_nil
  -- The command of the payload is the only one.
  have honly {command : SubscriptionCommand}
      (hvalid : SubscriptionCommand.modelValidate cfg.py payload = .ok command)
      (hnames : command.action = .ping ∨ NamesChannels cfg command) : Speakable cfg payload := by
    intro command' hvalid' hping
    obtain rfl := Except.ok.inj (hvalid.symm.trans hvalid')
    exact hnames.resolve_left hping
  cases hends with
  | @invalid e hinvalid =>
    rw [answered_invalid_iff hinvalid]
    refine (and_iff_left ⟨fun command hvalid => ?_, fun command hadmitted => ?_⟩).symm
    · exact absurd (hinvalid.symm.trans hvalid) nofun
    · exact absurd (hinvalid.symm.trans hadmitted.valid) nofun
  | @refused command e data hvalid hping hnot hreply hdata =>
    -- The reply of a refusal holds the names of the command, which may not be encodable.
    obtain ⟨-, -, -, hrequest⟩ := shape_of_valid hvalid
    constructor
    · intro hanswered
      have hnames := hdata.1 (ended_answerError rfl hreply hanswered.1).1
      exact ⟨wellShaped_of_valid hvalid, honly hvalid (Or.inr hnames),
        fun command hadmitted => absurd hadmitted (hnot command)⟩
    · rintro ⟨-, hspeakable, -⟩
      exact answered_of_caught hreply (hdata.2 (hspeakable command hvalid hping)) hrequest hnone
  | @answered command m hvalid hnot hcase hterminal =>
    rw [answerError_ok rfl]
    refine iff_of_true ⟨rfl, [], m, rfl, hterminal, hnone⟩ ?_
    exact ⟨wellShaped_of_valid hvalid, honly hvalid (hcase.imp_right And.right),
      fun command hadmitted => absurd hadmitted (hnot command)⟩
  | @broken command st' sent e hadmitted hjoined herror hsnapshots =>
    -- A cached quote breaks the snapshots: what `decimal` raises is not caught.
    obtain ⟨-, -, -, hrequest⟩ := shape_of_valid hadmitted.valid
    have hspeakable : Speakable cfg payload :=
      honly hadmitted.valid (Or.inr (namesChannels_of_authorize hadmitted.authorized))
    obtain ⟨-, rfl | rfl⟩ := exists_new_of_cachedError herror
    · refine iff_of_true (answered_of_caught rfl rfl hrequest hsnapshots) ?_
      refine ⟨wellShaped_of_valid hadmitted.valid, hspeakable, fun command' hadmitted' => ?_⟩
      rw [hadmitted'.eq hadmitted.valid, herror]
      exact nofun
    · rw [answerError_uncaught rfl rfl]
      exact iff_of_false (fun hanswered => absurd hanswered.1 nofun) fun hand =>
        hand.2.2 command hadmitted herror
  | @subscribed command st' sent globalAdded hadmitted hjoined herror hsnapshots =>
    rw [answerError_ok rfl]
    refine iff_of_true ⟨rfl, sent, _, rfl, Or.inl rfl, hsnapshots⟩ ?_
    refine ⟨wellShaped_of_valid hadmitted.valid,
      honly hadmitted.valid (Or.inr (namesChannels_of_authorize hadmitted.authorized)),
      fun command' hadmitted' => ?_⟩
    rw [hadmitted'.eq hadmitted.valid, herror]
    exact nofun
  | @unsubscribed command st' removed hvalid haction hnames hleft =>
    rw [answerError_ok rfl]
    refine iff_of_true ⟨rfl, [], _, rfl, Or.inl rfl, hnone⟩ ?_
    refine ⟨wellShaped_of_valid hvalid, honly hvalid (Or.inr hnames), fun command' hadmitted' => ?_⟩
    have hsubscribes := hadmitted'.subscribes
    rw [hadmitted'.eq hvalid, haction] at hsubscribes
    exact absurd hsubscribes nofun

/-- A frame is answered by one reply, and raises nothing, if and only if `receive_json` reads it, it
is well shaped, its reply can be sent, and the command adds no symbol with a cached payload at which
`decimal` overflows. -/
theorem answered_iff (h : Reachable cfg st) :
    Answered (receive cfg env st v) ↔ Readable cfg v ∧ WellShaped v ∧ Speakable cfg v ∧
      ∀ command, Admitted cfg env st v command →
        cachedError cfg env (newSymbols cfg st command) ≠ some .overflow := by
  rw [← answered_handle_iff h.connected]
  unfold receive receiveJson Readable
  split_ifs with hdeep hlong
  · refine iff_of_false (fun hanswered => nomatch hanswered.1) fun hand => ?_
    exact absurd hdeep (not_lt.2 hand.1.1)
  · exact (and_iff_right ⟨not_lt.1 hdeep, hlong⟩).symm
  · exact iff_of_false (fun hanswered => nomatch hanswered.1) fun hand => hlong hand.1.2

/-- The command that subscribes to a symbol without a cached quote is answered. -/
theorem answered_subscribeAapl :
    Answered (receive sampleConfig (cached none) opened subscribeAapl) := by
  have hgives : GivesBack none := ⟨none, rfl, rfl⟩
  refine (answered_iff reachable_opened).2 ⟨⟨by decide +kernel, by decide +kernel⟩,
    fun entries heq => ?_, fun command hvalid _ => ?_, fun command _ => ?_⟩
  · rw [← Json.dict.inj heq]
    refine ⟨by decide +kernel, ?_⟩
    have habsent : getKey (text "request_id")
        [(text "action", Json.str (text "subscribe")),
          (text "symbols", Json.list [.str (text "aapl")])] = none := by decide +kernel
    rw [habsent]
    exact hgives
  · -- The only channel is the one that is allowed.
    have hchannels : (SubscriptionCommand.modelValidate sampleConfig.py subscribeAapl).toOption.map
        SubscriptionCommand.channels = some [text "quote"] := by decide +kernel
    rw [hvalid] at hchannels
    intro channel hchannel hdenied
    rw [Option.some.inj hchannels] at hchannel
    rw [List.mem_singleton.1 hchannel] at hdenied
    exact absurd (Finset.mem_singleton_self _) hdenied
  · rw [cachedError_none]
    exact nofun

/-- Nothing is answered after an exception. -/
theorem not_answered {p : Progress} (h : p.ended.toOption = none) : ¬Answered p := by
  intro hanswered
  rw [hanswered.1] at h
  exact nomatch h

/-- `{"action": "subscribe", "symbols": 5}` raises a `TypeError`, `{"request_id": 5}` and a lone
surrogate as `request_id` raise in the `except`, and a number of 4301 digits in `receive_json`. -/
theorem exists_not_answered : ∃ cfg env st, Reachable cfg st ∧
    ¬Answered (receive cfg env st (subscribePayload (.int 5))) ∧
    ¬Answered (receive cfg env st (.dict [(text "request_id", .int 5)])) ∧
    ¬Answered (receive cfg env st (.dict [(text "request_id", .str [0xD800])])) ∧
    ¬Answered (receive cfg env st (.int (10 ^ 4300))) := by
  refine ⟨sampleConfig, cached none, opened, reachable_opened, not_answered ?_, not_answered ?_,
    not_answered ?_, not_answered ?_⟩
  · decide +kernel
  · decide +kernel
  · decide +kernel
  · decide +kernel

end MarketDataGateway.Session
