import Linker.Processor.Effects
import Linker.Processor.Handlers

/-!
# Policies

A `Policy` says of each way a message can take through a processor which messages may take it: those
given to `process`, those given to `deliverMessage`, those put on the topics of the connectors, and
those stored.  `Rules` are the obligations of a policy, one for each place where a handler makes one
message out of another.

## Main results

* `Rules.keeps_deliverMessage` : the post office keeps to a policy that meets the rules.
-/

namespace Linker.Processor

open ProcessorUtils ClientAppService MessageProcessorService PostOffice Exec

/-- Which messages may go where. -/
structure Policy where
  /-- Messages given to `process`. -/
  accepts : Message → Prop
  /-- Messages given to `deliverMessage`. -/
  delivers : Message → Prop
  /-- Messages put on the topic of a connector. -/
  mails : Message → Prop
  /-- Records of the repository. -/
  keeps : Message → Prop
  /-- Authentication calls. -/
  calls : HttpCall → Prop
  /-- Addresses in the registry. -/
  registers : Address → Prop

section

variable [JavaChar] (E : Environment)

/-- A record that a policy allows on its topic, with the address it was sent to. -/
structure Routed (P : Policy) (p : Parcel) : Prop where
  mails : P.mails p.message
  address : ∃ a, p.message.targetAddress = some a ∧ a.connectorName = some p.target ∧
    if isConnectorUser p.message.to_ then
      a = { domainName := some E.domainName, connectorName := p.message.to_ }
    else P.registers a

/-- The stores keep to a policy. -/
structure Meets (P : Policy) (s : State) : Prop where
  parcels : ∀ p ∈ s.parcels, Routed E P p
  messages : ∀ m ∈ s.messages, P.keeps m
  saved : ∀ m, .saved m ∈ s.journal → P.keeps m
  httpCalls : ∀ c ∈ s.httpCalls, P.calls c
  channels : ∀ u l, s.channels u = some l → ∀ a ∈ l, P.registers a

/-- The message that the handler of its type has prepared. -/
inductive Prepared (m : Message) : Message → Prop
  | message {d : MessageRequest} : m.type = some .MESSAGE → m.data = .messageRequest d →
      Prepared m (m.setTo d.to_)
  | close {u : Option String} : m.type = some .CLOSE_CONNECTION → m.data = .closeConnection u →
      Prepared m (m.setTo u)
  | other : m.type ≠ some .MESSAGE → m.type ≠ some .CLOSE_CONNECTION →
      m.type ≠ some .INTERNAL_MESSAGE → Prepared m m

/-- The message that `CustomMessageProcessor` delivers. -/
def forwarded (m : Message) (d : MessageRequest) (confirmEnabled : Bool) : Message :=
  (m.setData (.messageForward ⟨m.from_, d.content⟩)).updateMeta fun t => { t with confirmEnabled }

omit [JavaChar] in
theorem type_setData (m : Message) (d : Data) : (m.setData d).type = m.type := by
  rw [MessageOf.type, MessageOf.type, MessageOf.setData, MessageOf.updateContent]
  cases m.content <;> rfl

omit [JavaChar] in
theorem type_forwarded (m : Message) (d : MessageRequest) (b : Bool) :
    (forwarded m d b).type = m.type := type_setData m _

omit [JavaChar] in
theorem data_forwarded {m : Message} (hc : m.content ≠ none) (d : MessageRequest) (b : Bool) :
    (forwarded m d b).data = .messageForward ⟨m.from_, d.content⟩ := by
  obtain ⟨c, hc⟩ := Option.ne_none_iff_exists'.1 hc
  simp [forwarded, MessageOf.data, MessageOf.setData, MessageOf.updateContent, hc]

omit [JavaChar] in
theorem originalAddress_forwarded (m : Message) (d : MessageRequest) (b : Bool) :
    (forwarded m d b).originalAddress = m.originalAddress := by
  simp only [forwarded, MessageOf.originalAddress, MessageOf.updateMeta_meta]
  cases hmeta : m.meta_ with
  | none => simp [MessageOf.setData, MessageOf.updateContent, hmeta]
  | some t => simp [MessageOf.setData, MessageOf.updateContent, hmeta]

/-- The message that `CloseConnectionMessageProcessor` delivers. -/
def closing (m : Message) : Message :=
  m.updateContent fun c => { c with data := .empty, feature := some .RELIABLE }

omit [JavaChar] in
theorem type_closing (m : Message) : (closing m).type = m.type := by
  cases hc : m.content with
  | none => simp [closing, MessageOf.type, MessageOf.updateContent, hc]
  | some c => simp [closing, MessageOf.type, MessageOf.updateContent, hc]

/-- The answer that `AuthClientMessageProcessor` gives at once. -/
def verdictOf (data : AuthClient) (reply : AuthClientReply) : Prop :=
  reply = ⟨data.appId, data.userId, some false⟩ ∨
    reply = ⟨data.appId, data.userId, some true⟩ ∧
      ∃ app, getClientAppByUserId E data.userId = some app ∧ app.appId = data.appId ∧
        equalsIgnoreCase (some E.domainName) (resolveDomain E data.userId) = true ∧
        app.authEnabled = false

/-- One of the users, whose home is the current domain. -/
def HereIn (users : List (Option String)) (u : Option String) : Prop :=
  u ∈ users ∧ equalsIgnoreCase (some E.domainName) (resolveDomain E u) = true

open AuthClientMessageProcessor (replyMessage)
open CustomGroupMessageProcessor (connectorMessage userMessage subMessage)
open FetchMissingMessagesMessageProcessor (fetchableStates completeMessage)
open MessageStateChangedMessageProcessor (confirmMessage)

/-- What a policy has to allow, given that it allows what the handlers start from. -/
structure Rules (P : Policy) : Prop where
  mails_congr : ∀ {m m'}, m.SameLetter m' → P.mails m → P.mails m'
  keeps_congr : ∀ {m m' : Message}, m.SameLetter m' → m'.state = m.state → P.keeps m → P.keeps m'
  /-- What is not taken for delivery is stored. -/
  undelivered : ∀ {m : Message} {st}, P.mails m → st ∈ fetchableStates →
    m.feature = some .RELIABLE → P.keeps (m.setState (some st))
  inside : ∀ {m}, P.delivers m → isLocal E m = true → P.mails m
  outside : ∀ {m a next n}, P.delivers m → isLocal E m = false → m.type = some .INTERNAL_MESSAGE →
    domainOf E m = a → E.routes = some next → next a = some n → isBlank (some n) = false →
    P.mails (m.setTo (some (resolveDomainUserId (some n))))
  touch : ∀ {m}, P.accepts m → P.accepts m.touch
  cross : ∀ {m p c k}, P.accepts m → Prepared m p → isLocal E p = false → p.content = some c →
    P.accepts (internalMessage (E.blank k) p c.feature (domainOf E p))
  message : ∀ {m d} b, P.accepts m → m.type = some .MESSAGE → m.data = .messageRequest d →
    isLocal E (m.setTo d.to_) = true → P.delivers (forwarded (m.setTo d.to_) d b)
  confirmation : ∀ {m}, P.accepts m → m.type = some .MESSAGE_CONFIRMATION → isLocal E m = true →
    P.delivers m
  close : ∀ {m u app}, P.accepts m → m.type = some .CLOSE_CONNECTION →
    m.data = .closeConnection u → isLocal E (m.setTo u) = true →
    getClientAppByUserId E u = some app → app.masterUserId = m.from_ →
    P.delivers (closing (m.setTo u))
  auth : ∀ {m d reply a k}, P.accepts m → m.type = some .AUTH_CLIENT → m.data = .authClient d →
    isLocal E m = true → verdictOf E d reply → m.originalAddress = some a →
    P.delivers (replyMessage E (E.blank k) a.connectorName m.note reply)
  call : ∀ {m d url}, P.accepts m → m.type = some .AUTH_CLIENT → m.data = .authClient d →
    isLocal E m = true → P.calls ⟨url, m, d⟩
  groupConnector : ∀ {m d all c users k} connectorName, P.accepts m → m.type = some .GROUP_MESSAGE →
    m.data = .groupMessage d → d.to_ = some all → (∀ x ∈ users, HereIn E all x.userId) →
    m.content = some c → P.delivers (connectorMessage (E.blank k) connectorName users m d c)
  groupUser : ∀ {m d users c u k}, P.accepts m → m.type = some .GROUP_MESSAGE →
    m.data = .groupMessage d → d.to_ = some users → u ∈ users → m.content = some c →
    P.accepts (userMessage (E.blank k) u m d c)
  groupOther : ∀ {m d all c users domainName k}, P.accepts m → m.type = some .GROUP_MESSAGE →
    m.data = .groupMessage d → d.to_ = some all → (∀ u ∈ users, u ∈ all) → m.content = some c →
    P.accepts (subMessage (E.blank k) domainName users m d c)
  presence : ∀ {m}, P.accepts m → m.type = some .USER_CONNECTED ∨ m.type = some .USER_DISCONNECTED →
    isLocal E m = true → isProcessorMessage m = false → P.delivers m
  register : ∀ {m a}, P.accepts m → m.type = some .USER_CONNECTED → isLocal E m = true →
    isProcessorMessage m = true → m.originalAddress = some a → P.registers a
  master : ∀ {m u app}, P.accepts m →
    m.type = some .USER_CONNECTED ∧ m.data = .userConnected u ∨
      m.type = some .USER_DISCONNECTED ∧ m.data = .userDisconnected u →
    isProcessorMessage m = true → getClientAppByUserId E u = some app → isEmpty app.masterUserId = false →
    P.accepts (m.setTo app.masterUserId)
  fetch : ∀ {m st}, P.keeps m → m.state = some st → st ∈ fetchableStates → P.delivers m
  complete : ∀ {m k} left, P.accepts m → m.type = some .FETCH_MISSING_MESSAGES_REQUEST →
    isLocal E m = true → P.delivers (completeMessage (E.blank k) m left)
  lost : ∀ {m msg}, P.accepts m → m.type = some .MESSAGE_STATE_CHANGED →
    m.data = .messageStateChanged (some msg) (some .ADDRESS_NOT_FOUND) → P.delivers msg
  changed : ∀ {m msg st}, P.accepts m → m.type = some .MESSAGE_STATE_CHANGED →
    m.data = .messageStateChanged (some msg) st → st ≠ some .ADDRESS_NOT_FOUND →
    st ≠ some .PROCESSED → msg.feature = some .RELIABLE → P.keeps (msg.setState st)
  confirm : ∀ {m msg k}, P.accepts m → m.type = some .MESSAGE_STATE_CHANGED →
    m.data = .messageStateChanged (some msg) (some .PROCESSED) → msg.type = some .MESSAGE →
    P.accepts (confirmMessage E (E.blank k) msg)
  unwrap : ∀ {m i}, P.accepts m → m.type = some .INTERNAL_MESSAGE → m.data = .message i → P.accepts i
  route : ∀ {m}, P.accepts m → m.type = some .INTERNAL_MESSAGE → isLocal E m = false → P.delivers m
  routeInner : ∀ {m i}, P.accepts m → m.type = some .INTERNAL_MESSAGE → m.data = .message i →
    isBlank m.to_ = true → isLocal E (m.setTo i.to_) = false → P.delivers (m.setTo i.to_)

end

namespace Rules

/-! ### The stores -/

variable [JavaChar] {E : Environment} {P : Policy}

theorem meets_note {s : State} (hs : Meets E P s) (m : Message) :
    Meets E P { s with journal := s.journal ++ [.processing m] } :=
  { hs with
    saved := fun r hr => hs.saved r (by simpa using hr) }

theorem keeps_builder : Keeps (Meets E P) (builder E) fun b => ∃ n, b = E.blank n := by
  refine (Keeps.read (Q := fun _ => True) fun _ _ => trivial).bind fun n _ => ?_
  refine (Keeps.modify (Q := fun _ => True) (fun s hs => { hs with }) trivial).bind fun _ _ => ?_
  exact .pure ⟨n, rfl⟩

theorem meets_upsert {s : State} (hs : Meets E P s) {m : Message} (hm : P.keeps m) :
    Meets E P { s with
      messages := MessageRepository.upsert m s.messages, journal := s.journal ++ [.saved m] } :=
  { hs with
    messages := fun r hr => (MessageRepository.mem_upsert hr).elim (fun h => h ▸ hm) (hs.messages r)
    saved := fun r hr => by
      rcases List.mem_append.1 hr with hr | hr
      · exact hs.saved r hr
      · cases List.mem_singleton.1 hr
        exact hm }

theorem keeps_save (hR : Rules E P) {m : Message} (hm : P.keeps m) :
    Keeps (Meets E P) (MessageRepository.save E m) fun m' => m.SameLetter m' := by
  have hid : Keeps (Meets E P) (MessageRepository.assignId E m) fun m' =>
      m.SameLetter m' ∧ P.keeps m' := by
    unfold MessageRepository.assignId
    split
    · exact .pure ⟨.refl m, hm⟩
    · refine keeps_builder.bind fun b _ => .pure ?_
      have hl : m.SameLetter { m with id := b.id } := ⟨rfl, rfl, rfl, rfl, rfl⟩
      exact ⟨hl, hR.keeps_congr hl rfl hm⟩
  refine hid.bind fun m' hm' => ?_
  intro s hs
  exact ⟨meets_upsert hs hm'.2, fun _ h => by cases h; exact hm'.1⟩

theorem keeps_persistMessage (hR : Rules E P) {m : Message} {st : Option MessageState}
    (hm : m.feature = some .RELIABLE → st ≠ some .PROCESSED → P.keeps (m.setState st)) :
    Keeps (Meets E P) (persistMessage E m st) fun m' => m.SameLetter m' := by
  refine (keeps_orNullPointer _ _).bind fun c hc => .ite (fun h => ?_) fun _ => ?_
  · have hf : m.feature = some .RELIABLE := by
      have hc' : m.content = some c := hc
      rw [MessageOf.feature, hc']; exact h.1
    exact (keeps_save hR (hm hf h.2)).mono fun _ h => (MessageOf.SameLetter.setState m st).trans h
  · exact .pure (.setState m st)

/-! ### The post office -/

theorem keeps_onMessageDeliveryFailed (hR : Rules E P) {m : Message} (hm : P.mails m) :
    Keeps (Meets E P) (onMessageDeliveryFailed E m) fun _ => True :=
  (keeps_persistMessage hR fun hf _ => hR.undelivered hm (by decide) hf).bind fun _ _ =>
    .pure trivial

theorem keeps_express (hR : Rules E P) {delivery : ExpressDeliveryType} {target : Option String}
    {m : Message} (hm : ∀ topic, target = some topic → Routed E P ⟨delivery, topic, m⟩)
    (hm' : P.mails m) : Keeps (Meets E P) (express E delivery target m) fun _ => True := by
  refine (Keeps.read (Q := fun _ => True) fun _ _ => trivial).bind fun refuses _ => ?_
  refine (Keeps.modify (Q := fun _ => True) (fun s hs => { hs with }) trivial).bind fun _ _ => ?_
  split
  · exact keeps_onMessageDeliveryFailed hR hm'
  · next topic =>
    refine .ite (fun _ => keeps_onMessageDeliveryFailed hR hm') fun _ => ?_
    refine .modify (fun s hs => { hs with parcels := fun p hp => ?_ }) trivial
    rcases List.mem_append.1 hp with hp | hp
    · exact hs.parcels p hp
    · cases List.mem_singleton.1 hp
      exact hm topic rfl

/-- The addresses that a message is sent to. -/
def RouteOf (P : Policy) (E : Environment) (to_ : Option String) (a : Address) : Prop :=
  if isConnectorUser to_ then a = { domainName := some E.domainName, connectorName := to_ }
  else P.registers a

theorem keeps_routeTargetAddresses (to_ : Option String) (d : Option DeliveryType) (m : Message) :
    Keeps (Meets E P) (routeTargetAddresses E to_ d m) fun l => ∀ a ∈ l, RouteOf P E to_ a := by
  have hnil : ∀ a ∈ ([] : List Address), RouteOf P E to_ a := fun _ h => by cases h
  refine .ite (fun _ => .pure hnil) fun _ => .ite (fun hc => .pure ?_) fun hc => ?_
  · intro a ha
    rw [RouteOf, if_pos hc]
    exact List.mem_singleton.1 ha
  have hget : Keeps (Meets E P) (UserChannelService.getById to_ m) fun l =>
      ∀ l', l = some l' → ∀ a ∈ l', RouteOf P E to_ a := by
    unfold UserChannelService.getById
    cases to_ with
    | none => exact .fail
    | some u =>
      refine .read fun s hs l' hl' a ha => ?_
      rw [RouteOf, if_neg hc]
      exact hs.channels u l' hl' a ha
  refine hget.bind fun l hl => ?_
  split
  · exact .pure hnil
  · next addresses =>
    refine .ite (fun _ => .pure (hl addresses rfl)) fun _ => ?_
    have hpick : Keeps (Meets E P) (getRandomItemInCollection addresses) fun a =>
        ∀ b, a = some b → b ∈ addresses := by
      refine .ite (fun _ => .pure fun _ h => by cases h) fun _ => ?_
      have hint : Keeps (Meets E P) (Proc.nextInt addresses.length) fun _ => True :=
        (Keeps.read (Q := fun _ => True) fun _ _ => trivial).bind fun _ _ =>
          (Keeps.modify (Q := fun _ => True) (fun s hs => { hs with }) trivial).bind fun _ _ =>
            .pure trivial
      exact hint.bind fun n _ => .pure fun b hb => List.mem_of_getElem? hb
    refine hpick.bind fun a ha => .pure fun b hb => hl addresses rfl b (ha b ?_)
    simpa [Option.mem_toList] using hb

theorem keeps_sendToAddresses (hR : Rules E P) {m : Message} {l : List Address} (hm : P.mails m)
    (hl : ∀ a ∈ l, RouteOf P E m.to_ a) (hmeta : m.meta_ ≠ none) :
    Keeps (Meets E P) (sendToAddresses E l m) fun _ => True := by
  refine (keeps_orNullPointer _ _).bind fun c _ => ?_
  have hexp : Keeps (Meets E P) (calcExpressDelivery m c.feature) fun _ => True := by
    unfold calcExpressDelivery
    split
    · exact .pure trivial
    · exact .pure trivial
    · exact .fail
  refine hexp.bind fun delivery _ => .forEach fun a ha => ?_
  have hletter := MessageOf.SameLetter.setTargetAddress m (some a)
  refine keeps_express hR (fun topic htopic => ⟨hR.mails_congr hletter hm, a, ?_, htopic, ?_⟩)
    (hR.mails_congr hletter hm)
  · obtain ⟨t, ht⟩ := Option.ne_none_iff_exists'.1 hmeta
    simp [MessageOf.targetAddress, MessageOf.setTargetAddress, ht]
  · exact hl a ha

theorem keeps_adjustDeliveryType (m : Message) :
    Keeps (Meets E P) (adjustDeliveryType E m) fun m' =>
      m.SameLetter m' ∧ m'.meta_ ≠ none := by
  refine (keeps_orNullPointer _ _).bind fun t ht => .ite (fun _ => ?_) fun _ => ?_
  · refine (keeps_orNullPointer _ _).bind fun c _ => .ite (fun _ => ?_) fun _ => ?_
    · exact .pure ⟨.setDeliveryType m .ANY, by simp [MessageOf.setDeliveryType, ht]⟩
    · exact .pure ⟨.refl m, by simp [ht]⟩
  · exact .pure ⟨.refl m, by simp [ht]⟩

theorem keeps_sendToConnector (hR : Rules E P) {m : Message} (hm : P.mails m) :
    Keeps (Meets E P) (sendToConnector E m) fun _ => True := by
  refine (keeps_adjustDeliveryType m).bind fun m' hm' => ?_
  have hmail := hR.mails_congr hm'.1 hm
  refine ((keeps_orNullPointer _ _).bind fun t _ =>
    keeps_routeTargetAddresses m'.to_ t.deliveryType m').bind fun l hl => ?_
  refine .ite (fun _ => ?_) fun _ => keeps_sendToAddresses hR hmail hl hm'.2
  exact (keeps_persistMessage hR fun hf _ => hR.undelivered hmail (by decide) hf).bind fun _ _ =>
    .pure trivial

theorem keeps_resolveDomainName {I : State → Prop} (m : Message) :
    Keeps I (resolveDomainName E m) fun d => d = domainOf E m := by
  refine (keeps_orNullPointer _ _).bind fun t ht => ?_
  have ht' : m.targetAddress = t.targetAddress := by rw [MessageOf.targetAddress, ht]; rfl
  rw [domainOf, ht']
  split
  · exact .pure rfl
  · exact .pure rfl

theorem keeps_isCurrentDomainMessage {I : State → Prop} (m : Message) :
    Keeps I (isCurrentDomainMessage E m) fun b => b = isLocal E m := by
  unfold isCurrentDomainMessage isLocal
  refine .ite (fun h => .pure ?_) fun h => ?_
  · simp [h]
  · refine (keeps_resolveDomainName m).bind fun d hd => .pure ?_
    simp [h, hd]

/-- Filling in the target address does not change what is local. -/
theorem populated {m : Message} (d : Option String) (hd : domainOf E m = d)
    (hmeta : m.meta_ ≠ none) :
    let m' := m.setTargetAddress (some { domainName := d })
    domainOf E m' = domainOf E m ∧ isLocal E m' = isLocal E m := by
  obtain ⟨t, ht⟩ := Option.ne_none_iff_exists'.1 hmeta
  have hdom : domainOf E (m.setTargetAddress (some { domainName := d })) = domainOf E m := by
    rw [hd, domainOf]
    simp [MessageOf.targetAddress, MessageOf.setTargetAddress, ht]
  exact ⟨hdom, by rw [isLocal, isLocal, hdom]; rfl⟩

/-- **The post office keeps to the policy.** -/
theorem keeps_deliverMessage (hR : Rules E P) {m : Message} (hm : P.delivers m) :
    Keeps (Meets E P) (deliverMessage E m) fun _ => True := by
  have hpop : Keeps (Meets E P) (populateTargetAddress E m) fun m' =>
      m.SameLetter m' ∧ domainOf E m' = domainOf E m ∧ isLocal E m' = isLocal E m := by
    refine (keeps_orNullPointer _ _).bind fun t ht => ?_
    have ht' : m.targetAddress = t.targetAddress := by rw [MessageOf.targetAddress, ht]; rfl
    split
    · next h =>
      have hdom : domainOf E m = resolveDomain E m.to_ := by rw [domainOf, ht', h]
      exact .pure ⟨.setTargetAddress m _, populated _ hdom (by simp [ht])⟩
    · exact .pure ⟨.refl m, rfl, rfl⟩
  refine hpop.bind fun m' hm' => ?_
  obtain ⟨hl, hdom, hloc⟩ := hm'
  refine (keeps_isCurrentDomainMessage m').bind fun b hb => ?_
  rw [hloc] at hb
  refine .ite (fun h => ?_) fun h => ?_
  · exact keeps_sendToConnector hR (hR.mails_congr hl (hR.inside hm (hb ▸ h)))
  -- towards another domain
  have hassert : Keeps (Meets E P) (assertInternalMessage m') fun _ =>
      m.type = some .INTERNAL_MESSAGE := by
    refine (keeps_orNullPointer _ _).bind fun c hc => .ite (fun ht => .pure ?_) fun _ => .fail
    rw [← hl.type, MessageOf.type, hc]
    exact ht
  refine hassert.bind fun _ htype => (keeps_orNullPointer _ _).bind fun t ht => ?_
  split
  · exact .fail
  · next a ha =>
    have hnext : Keeps (Meets E P) (getNextDomainName E a.domainName m') fun n =>
        ∃ next, E.routes = some next ∧ next a.domainName = n := by
      unfold getNextDomainName
      split
      · exact .fail
      · next next hnext => exact .pure ⟨next, hnext, rfl⟩
    refine hnext.bind fun n hn' => .ite (fun _ => .fail) fun hblank => ?_
    obtain ⟨next, hroutes, hn⟩ := hn'
    cases n with
    | none => exact absurd rfl hblank
    | some n =>
      have ha' : domainOf E m = a.domainName := by
        have ht' : m'.targetAddress = some a := by rw [MessageOf.targetAddress, ht]; exact ha
        rw [← hdom, domainOf, ht']
      have hmail := hR.outside hm (by simpa [hb] using h) htype ha' hroutes hn
        (by simpa using hblank)
      have hletter : (m.setTo (some (resolveDomainUserId (some n)))).SameLetter
          (m'.setTo (some (resolveDomainUserId (some n)))) :=
        ⟨hl.from_, rfl, hl.content, hl.originalAddress, hl.note⟩
      exact keeps_sendToConnector hR (hR.mails_congr hletter hmail)

end Rules

end Linker.Processor
