import Linker.Processor.Contracts
import Linker.Processor.Forwarding
import Linker.Processor.Processing

/-!
# What leaves a domain

`deliverMessage` sends a message for another domain on its way only where it is an
`INTERNAL_MESSAGE`; `assertInternalMessage` throws on any other.  A message may be given to it where it
is `Anchored`: it is for the current domain, or a wrapper.

Target addresses come from the registry, and messages are stored with them and delivered again, so the
addresses and the stores have to stay in the domain, too: `Enclosed` says that they do.

## Main definitions

* `Anchored`, `Enclosed` : what `deliverMessage` is promised, of the message and of the stores.
* `Welcome` : a message all of whose answers and later deliveries are anchored.
* `Lawful` : what is thrown is not the exception of `assertInternalMessage`.

## Main results

* `contract_deliverMessage` : the post office, given an anchored message.
* `contract_process` : `process` on a welcome message.
-/

namespace Linker.Processor

open ProcessorUtils ClientAppService MessageProcessorService PostOffice Exec
open FetchMissingMessagesMessageProcessor (fetchableStates MAX_COUNT)

/-- Not the exception of `assertInternalMessage`. -/
def Lawful (e : Thrown) : Prop := ∀ text, e.exception ≠ .illegalState text

/-- `assertInternalMessage` throws in `x`. -/
def Asserts (x : Proc Unit) (s : State) : Prop := ∃ e, (x.run s).1 = .error e ∧ ¬ Lawful e

theorem not_asserts {I : State → Prop} {x : Proc Unit} {Q : Unit → Prop} {s : State}
    (hx : Contract I x Q Lawful) (hs : I s) : ¬ Asserts x s :=
  fun ⟨e, he, hlaw⟩ => hlaw (hx.throws s hs e he)

section

variable [JavaChar] (E : Environment)

/-- A message for the current domain, or a wrapper for another. -/
def Anchored (m : Message) : Prop := isLocal E m = true ∨ m.type = some .INTERNAL_MESSAGE

/-- A user or a connector whose home is the current domain. -/
def LivesHere (u : Option String) : Prop :=
  isBlank u = true ∨ equalsIgnoreCase (some E.domainName) (resolveDomain E u) = true

/-- An address of a socket of the domain. -/
structure HomeAddress (a : Address) : Prop where
  domain : equalsIgnoreCase (some E.domainName) a.domainName = true
  connector : LivesHere E a.connectorName

/-- A message on its way to an address in the domain. -/
def Inbound (m : Message) : Prop :=
  ∃ a, m.targetAddress = some a ∧ equalsIgnoreCase (some E.domainName) a.domainName = true

/-- The addresses in the stores are of the domain, and what can be fetched may be delivered. -/
structure Enclosed (s : State) : Prop where
  messages : ∀ m ∈ s.messages, ∀ st ∈ fetchableStates, m.state = some st → Anchored E m
  channels : ∀ u l, s.channels u = some l → ∀ a ∈ l, HomeAddress E a
  parcels : ∀ p ∈ s.parcels, Inbound E p.message
  httpCalls : ∀ c ∈ s.httpCalls, ∀ a, c.message.originalAddress = some a → LivesHere E a.connectorName

/-- A message whose answers stay in the domain. -/
structure AnsweredHere (m : Message) : Prop where
  /-- The completion of a fetch goes to the sender, with the target of the request. -/
  fetch : m.type = some .FETCH_MISSING_MESSAGES_REQUEST → isLocal E m = true →
    ∀ n, m.data = .fetchMissingMessagesRequest (some n) → 1 ≤ n → isLocal E (m.setTo m.from_) = true
  /-- The reply to an `AUTH_CLIENT` goes to the connector it comes from. -/
  auth : m.type = some .AUTH_CLIENT → isLocal E m = true → ∀ d, m.data = .authClient d →
    ∀ a, m.originalAddress = some a → LivesHere E a.connectorName
  /-- The address that a `USER_CONNECTED` has registered. -/
  connected : m.type = some .USER_CONNECTED → isLocal E m = true → isProcessorMessage m = true →
    m.state = some .CREATED → ∀ u, m.data = .userConnected (some u) →
    ∀ a, m.originalAddress = some a → HomeAddress E a

/-- A report on a message that may be delivered again, where it will be. -/
structure Redeliverable (state : Option MessageState) (m : Message) : Prop where
  lost : state = some .ADDRESS_NOT_FOUND → Anchored E m
  stored : state = some .NETWORK_ERROR → m.feature = some .RELIABLE → Anchored E m

/-- A message whose processing leaves the domain only in wrappers: what is unwrapped here is welcome,
what is reported on here may be delivered again, and the other answers stay in the domain. -/
inductive Welcome : Message → Prop
  | wrapper {m : Message} : m.type = some .INTERNAL_MESSAGE →
      (∀ i, m.data = .message i → isLocal E (opened m i) = true → Welcome i) → Welcome m
  | report {m : Message} : m.type = some .MESSAGE_STATE_CHANGED →
      (∀ msg st, m.data = .messageStateChanged (some msg) st → isLocal E m = true →
        Redeliverable E st msg) → Welcome m
  | other {m : Message} : m.type ≠ some .INTERNAL_MESSAGE → m.type ≠ some .MESSAGE_STATE_CHANGED →
      AnsweredHere E m → Welcome m

end

section

variable [JavaChar] {E : Environment}

theorem Enclosed.drawing {s : State} (hs : Enclosed E s) (d : Draws) : Enclosed E (s.drawing d) :=
  { hs with }

theorem Enclosed.next {s : State} (hs : Enclosed E s) : Enclosed E s.next := { hs with }

theorem isLocal_congr {m m' : Message} (hto : m'.to_ = m.to_)
    (htarget : m'.targetAddress = m.targetAddress) : isLocal E m' = isLocal E m := by
  rw [isLocal, isLocal, domainOf, domainOf, hto, htarget]

theorem isLocal_iff_livesHere {m : Message} (h : m.targetAddress = none) :
    isLocal E m = true ↔ LivesHere E m.to_ := by
  rw [isLocal, domainOf, h, Bool.or_eq_true]
  rfl

theorem Inbound.isLocal {m : Message} (h : Inbound E m) : isLocal E m = true := by
  obtain ⟨a, ha, hdomain⟩ := h
  rw [ProcessorUtils.isLocal, domainOf, ha, Bool.or_eq_true]
  exact .inr hdomain

theorem inbound_setTargetAddress {m : Message} {a : Address} (hm : m.meta_ ≠ none)
    (ha : equalsIgnoreCase (some E.domainName) a.domainName = true) :
    Inbound E (m.setTargetAddress (some a)) := by
  obtain ⟨t, ht⟩ := Option.ne_none_iff_exists'.1 hm
  exact ⟨a, by simp [MessageOf.targetAddress, MessageOf.setTargetAddress, ht], ha⟩

theorem answeredHere_of_type {m : Message} (ty : MessageType) (ht : m.type = some ty)
    (hne : ty ∉ [.FETCH_MISSING_MESSAGES_REQUEST, .AUTH_CLIENT, .USER_CONNECTED]) :
    AnsweredHere E m := by
  simp only [List.mem_cons, List.not_mem_nil, or_false, not_or] at hne
  have hinj : ∀ ty', m.type = some ty' → ty = ty' := fun _ h => Option.some.inj (ht.symm.trans h)
  exact ⟨fun h => absurd (hinj _ h) hne.1, fun h => absurd (hinj _ h) hne.2.1,
    fun h => absurd (hinj _ h) hne.2.2⟩

theorem Welcome.answeredHere {m : Message} {ty : MessageType} (hm : Welcome E m)
    (ht : m.type = some ty) (hne : ty ≠ .INTERNAL_MESSAGE ∧ ty ≠ .MESSAGE_STATE_CHANGED) :
    AnsweredHere E m := by
  cases hm with
  | wrapper h => exact absurd (Option.some.inj (ht.symm.trans h)) hne.1
  | report h => exact absurd (Option.some.inj (ht.symm.trans h)) hne.2
  | other _ _ h => exact h

theorem Welcome.inner {m i : Message} (hm : Welcome E m) (ht : m.type = some .INTERNAL_MESSAGE)
    (hd : m.data = .message i) (hloc : isLocal E (opened m i) = true) : Welcome E i := by
  cases hm with
  | wrapper _ h => exact h i hd hloc
  | report h => exact absurd (ht.symm.trans h) (by decide)
  | other h => exact absurd ht h

theorem Welcome.reported {m msg : Message} {st : Option MessageState} (hm : Welcome E m)
    (ht : m.type = some .MESSAGE_STATE_CHANGED) (hd : m.data = .messageStateChanged (some msg) st)
    (hloc : isLocal E m = true) : Redeliverable E st msg := by
  cases hm with
  | wrapper h => exact absurd (ht.symm.trans h) (by decide)
  | report _ h => exact h msg st hd hloc
  | other _ h => exact absurd ht h

theorem AnsweredHere.welcome {m : Message} (ty : MessageType) (hm : AnsweredHere E m)
    (ht : m.type = some ty) (hne : ty ≠ .INTERNAL_MESSAGE ∧ ty ≠ .MESSAGE_STATE_CHANGED) :
    Welcome E m :=
  .other (by simpa [ht] using hne.1) (by simpa [ht] using hne.2) hm

theorem welcome_of_type {m : Message} (ty : MessageType) (ht : m.type = some ty)
    (hne : ty ∉ [.FETCH_MISSING_MESSAGES_REQUEST, .AUTH_CLIENT, .USER_CONNECTED, .INTERNAL_MESSAGE,
      .MESSAGE_STATE_CHANGED]) : Welcome E m := by
  simp only [List.mem_cons, List.not_mem_nil, or_false, not_or] at hne
  refine (answeredHere_of_type ty ht ?_).welcome ty ht ⟨hne.2.2.2.1, hne.2.2.2.2⟩
  simp [hne.1, hne.2.1, hne.2.2.1]

theorem AnsweredHere.touch {m : Message} (hm : AnsweredHere E m) : AnsweredHere E m.touch := by
  have hletter := MessageOf.SameLetter.touch m
  have hfrom : isLocal E (m.touch.setTo m.touch.from_) = isLocal E (m.setTo m.from_) :=
    isLocal_touch (m.setTo m.from_)
  refine ⟨fun ht hloc n hd hn => ?_, fun ht hloc d hd a ha => ?_, fun ht hloc hp hst u hd a ha => ?_⟩
  · rw [hfrom]
    exact hm.fetch (hletter.type ▸ ht) (isLocal_touch m ▸ hloc) n (hletter.data ▸ hd) hn
  · exact hm.auth (hletter.type ▸ ht) (isLocal_touch m ▸ hloc) d (hletter.data ▸ hd) a
      (hletter.originalAddress ▸ ha)
  · exact hm.connected (hletter.type ▸ ht) (isLocal_touch m ▸ hloc) hp hst u (hletter.data ▸ hd) a
      (hletter.originalAddress ▸ ha)

theorem Welcome.touch {m : Message} (hm : Welcome E m) : Welcome E m.touch := by
  cases hm with
  | wrapper ht h =>
    refine .wrapper ht fun i hd hloc => h i hd ?_
    rw [opened_touch, isLocal_touch] at hloc
    exact hloc
  | report ht h => exact .report ht fun msg st hd hloc => h msg st hd (isLocal_touch m ▸ hloc)
  | other h₁ h₂ h => exact .other h₁ h₂ h.touch

end

/-! ### The post office -/

instance : Tolerates Lawful where
  nullPointer _ _ h := by cases h
  illegalArgument _ _ h := by cases h
  processMessage _ _ _ h := by cases h
  exception _ h := h

theorem lawful_stackOverflow (m : Message) : Lawful ⟨.stackOverflow, m⟩ := fun _ h => by cases h

section

variable [JavaChar] {E : Environment}

theorem contract_builder :
    Contract (Enclosed E) (builder E) (fun b => ∃ n, b = E.blank n) Lawful := by
  refine (Contract.read (Q := fun _ => True) fun _ _ => trivial).bind fun n _ => ?_
  refine (Contract.modify (Q := fun _ => True) (fun s hs => { hs with }) trivial).bind fun _ _ => ?_
  exact .pure ⟨n, rfl⟩

/-- A message is stored under a state in which it is not fetched, or it may be delivered. -/
theorem contract_persistMessage {m : Message} {st : Option MessageState}
    (hm : m.feature = some .RELIABLE → ∀ st' ∈ fetchableStates, st = some st' → Anchored E m) :
    Contract (Enclosed E) (persistMessage E m st) (fun _ => True) Lawful := by
  refine (contract_orNullPointer _ _).bind fun c hc => .ite (fun h => ?_) fun _ => .pure trivial
  have hfeature : m.feature = some .RELIABLE := by
    have hc' : m.content = some c := hc
    rw [MessageOf.feature, hc']
    exact h.1
  have hid : Contract (Enclosed E) (MessageRepository.assignId E (m.setState st)) (fun m' =>
      ∀ st' ∈ fetchableStates, m'.state = some st' → Anchored E m') Lawful := by
    unfold MessageRepository.assignId
    split
    · exact .pure (hm hfeature)
    · exact contract_builder.bind fun _ _ => .pure (hm hfeature)
  -- `save` writes the record, then notes it down
  refine hid.bind fun m' hm' => ?_
  refine (Contract.modify (Q := fun _ => True) (fun s hs => ?_) trivial).bind fun _ _ =>
    (Contract.modify (Q := fun _ => True) (fun s hs => { hs with }) trivial).bind fun _ _ =>
      .pure trivial
  refine { hs with messages := fun r hr => ?_ }
  rcases MessageRepository.mem_upsert hr with rfl | hr
  · exact hm'
  · exact hs.messages r hr

theorem contract_onMessageDeliveryFailed {m : Message} (hm : Inbound E m) :
    Contract (Enclosed E) (onMessageDeliveryFailed E m) (fun _ => True) Lawful :=
  (contract_persistMessage fun _ _ _ _ => .inl hm.isLocal).bind fun _ _ => .pure trivial

theorem contract_express {delivery : ExpressDeliveryType} {target : Option String} {m : Message}
    (hm : Inbound E m) :
    Contract (Enclosed E) (express E delivery target m) (fun _ => True) Lawful := by
  refine (Contract.read (Q := fun _ => True) fun _ _ => trivial).bind fun refuses _ => ?_
  refine (Contract.modify (Q := fun _ => True) (fun s hs => { hs with }) trivial).bind fun _ _ => ?_
  split
  · exact contract_onMessageDeliveryFailed hm
  · next topic =>
    refine .ite (fun _ => contract_onMessageDeliveryFailed hm) fun _ => ?_
    refine .modify (fun s hs => { hs with parcels := fun p hp => ?_ }) trivial
    rcases List.mem_append.1 hp with hp | hp
    · exact hs.parcels p hp
    · cases List.mem_singleton.1 hp
      exact hm

/-- The addresses that a user is reached at: in the domain, on a connector of the domain. -/
theorem contract_routeTargetAddresses (to_ : Option String) (d : Option DeliveryType) (m : Message) :
    Contract (Enclosed E) (routeTargetAddresses E to_ d m) (fun l => ∀ a ∈ l,
      equalsIgnoreCase (some E.domainName) a.domainName = true ∧
        (LivesHere E to_ → LivesHere E a.connectorName)) Lawful := by
  refine .ite (fun _ => .pure fun _ h => by cases h) fun _ => .ite (fun _ => .pure ?_) fun _ => ?_
  · -- a connector has its own name for an address
    intro a ha
    cases List.mem_singleton.1 ha
    exact ⟨equalsIgnoreCase_refl _, fun h => h⟩
  -- a user has the addresses of the registry
  have hget : Contract (Enclosed E) (UserChannelService.getById to_ m) (fun l =>
      ∀ l', l = some l' → ∀ a ∈ l', HomeAddress E a) Lawful := by
    unfold UserChannelService.getById
    cases to_ with
    | none => exact .fail (Tolerates.illegalArgument m)
    | some u => exact .read fun s hs l' hl' => hs.channels u l' hl'
  refine hget.bind fun l hl => ?_
  split
  · exact .pure fun _ h => by cases h
  · next addresses =>
    have hhome : ∀ a ∈ addresses, equalsIgnoreCase (some E.domainName) a.domainName = true ∧
        (LivesHere E to_ → LivesHere E a.connectorName) := fun a ha =>
      ⟨(hl addresses rfl a ha).domain, fun _ => (hl addresses rfl a ha).connector⟩
    refine .ite (fun _ => .pure hhome) fun _ => ?_
    have hpick : Contract (Enclosed E) (getRandomItemInCollection addresses) (fun a =>
        ∀ b, a = some b → b ∈ addresses) Lawful := by
      refine .ite (fun _ => .pure fun _ h => by cases h) fun _ => ?_
      have hint : Contract (Enclosed E) (Proc.nextInt addresses.length) (fun _ => True) Lawful :=
        (Contract.read (Q := fun _ => True) fun _ _ => trivial).bind fun _ _ =>
          (Contract.modify (Q := fun _ => True) (fun s hs => { hs with }) trivial).bind fun _ _ =>
            .pure trivial
      exact hint.bind fun n _ => .pure fun b hb => List.mem_of_getElem? hb
    refine hpick.bind fun a ha => .pure fun b hb => hhome b (ha b ?_)
    simpa [Option.mem_toList] using hb

theorem contract_sendToConnector {m : Message} (hm : Anchored E m) :
    Contract (Enclosed E) (sendToConnector E m) (fun _ => True) Lawful := by
  have hadjust : Contract (Enclosed E) (adjustDeliveryType E m)
      (fun m' => Anchored E m' ∧ m'.meta_ ≠ none) Lawful := by
    refine (contract_orNullPointer _ _).bind fun t ht => .ite (fun _ => ?_) fun _ => ?_
    · refine (contract_orNullPointer _ _).bind fun c _ => .ite (fun _ => ?_) fun _ => ?_
      · refine .pure ⟨hm.imp (fun h => ?_) fun h => h, by simp [MessageOf.setDeliveryType, ht]⟩
        have htarget : (m.setDeliveryType .ANY).targetAddress = m.targetAddress := by
          simp [MessageOf.targetAddress, MessageOf.setDeliveryType, ht]
        have hloc : isLocal E (m.setDeliveryType .ANY) = isLocal E m := isLocal_congr rfl htarget
        exact hloc.trans h
      · exact .pure ⟨hm, by simp [ht]⟩
    · exact .pure ⟨hm, by simp [ht]⟩
  refine hadjust.bind fun m' hm' => ?_
  refine ((contract_orNullPointer _ _).bind fun t _ =>
    contract_routeTargetAddresses m'.to_ t.deliveryType m').bind fun l hl => ?_
  refine .ite (fun _ => ?_) fun _ => ?_
  · -- stored as `ADDRESS_NOT_FOUND`, it may be delivered again
    exact (contract_persistMessage fun _ _ _ _ => hm'.1).bind fun _ _ => .pure trivial
  refine (contract_orNullPointer _ _).bind fun c _ => ?_
  refine (contract_calcExpressDelivery m' c.feature).bind fun delivery _ =>
    .forEach fun a ha => contract_express ?_
  exact inbound_setTargetAddress hm'.2 (hl a ha).1

/-- **An anchored message leaves the domain as an internal message, or not at all.** -/
theorem contract_deliverMessage {m : Message} (hm : Anchored E m) :
    Contract (Enclosed E) (deliverMessage E m) (fun _ => True) Lawful := by
  have hpop : Contract (Enclosed E) (populateTargetAddress E m) (fun m' =>
      m'.type = m.type ∧ isLocal E m' = isLocal E m) Lawful := by
    refine (contract_orNullPointer _ _).bind fun t ht => ?_
    have ht' : m.targetAddress = t.targetAddress := by rw [MessageOf.targetAddress, ht]; rfl
    split
    · next h =>
      have hdom : domainOf E m = resolveDomain E m.to_ := by rw [domainOf, ht', h]
      exact .pure ⟨rfl, (Rules.populated _ hdom (by simp [ht])).2⟩
    · exact .pure ⟨rfl, rfl⟩
  refine hpop.bind fun m' hm' => ?_
  obtain ⟨htype, hloc⟩ := hm'
  refine (contract_isCurrentDomainMessage m').bind fun b hb => .ite (fun h => ?_) fun h => ?_
  · exact contract_sendToConnector (.inl (hb ▸ h))
  -- towards another domain
  have hinternal : m'.type = some .INTERNAL_MESSAGE := by
    refine htype.trans (hm.resolve_left fun hin => h ?_)
    rw [hb, hloc, hin]
  have hassert : Contract (Enclosed E) (assertInternalMessage m') (fun _ => True) Lawful := by
    refine (contract_orNullPointer _ _).bind fun c hc => .ite (fun _ => .pure trivial) fun hne => ?_
    exact absurd ((Rules.type_eq hc).symm.trans hinternal) hne
  refine hassert.bind fun _ _ => (contract_orNullPointer _ _).bind fun t _ => ?_
  split
  · exact .fail (Tolerates.nullPointer m')
  · next a _ =>
    refine (contract_getNextDomainName a.domainName m').bind fun n _ =>
      .ite (fun _ => .fail (Tolerates.processMessage _ m')) fun _ => ?_
    exact contract_sendToConnector (.inr hinternal)

/-- `assertInternalMessage` throws on the messages that are not anchored, and on no other. -/
theorem asserts_deliverMessage_iff {m : Message} {t : MessageMeta} {c : MessageContent}
    (ht : m.meta_ = some t) (hc : m.content = some c) {s : State} (hs : Enclosed E s) :
    Asserts (deliverMessage E m) s ↔ ¬ Anchored E m := by
  refine ⟨fun h hm => not_asserts (contract_deliverMessage hm) hs h, fun h => ?_⟩
  obtain ⟨hloc, htype⟩ := not_or.1 h
  rw [Rules.type_eq hc] at htype
  obtain ⟨e, text, he, htext⟩ := run_deliverMessage_stranded (E := E) ht hc htype (by simpa using hloc) s
  exact ⟨e, by rw [he], fun hlaw => hlaw text htext⟩

/-! ### Single messages -/

variable {process : Message → Proc Unit}

/-- What is assumed of the calls that a handler makes to `process`. -/
abbrev Welcomes (E : Environment) (process : Message → Proc Unit) : Prop :=
  ∀ m, Welcome E m → Contract (Enclosed E) (process m) (fun _ => True) Lawful

theorem contract_message {m : Message} {d : MessageRequest} (hd : m.data = .messageRequest d)
    (hloc : isLocal E (m.setTo d.to_) = true) :
    Contract (Enclosed E) ((CustomMessageProcessor.processor E).process (m.setTo d.to_))
      (fun _ => True) Lawful := by
  refine (contract_getData _ _).bind fun data hdata => (contract_orNullPointer _ _).bind fun d' hd' => ?_
  have hd'' : d' = d := by
    have := hdata d' hd'
    rw [MessageOf.setTo_data, hd] at this
    exact (Option.some.inj this).symm
  subst hd''
  have hflag : Contract (Enclosed E) (CustomMessageProcessor.updateMessageConfirmationFlag
      ((m.setTo d'.to_).setData (.messageForward ⟨m.from_, d'.content⟩)))
      (fun m' => isLocal E m' = true) Lawful := by
    refine (contract_orNullPointer _ _).bind fun c _ => (contract_orNullPointer _ _).bind fun b _ =>
      (contract_orNullPointer _ _).bind fun t ht => .pure ?_
    have hmeta : m.meta_ = some t := ht
    rw [← hloc]
    refine isLocal_congr rfl ?_
    simp [MessageOf.targetAddress, MessageOf.updateMeta, MessageOf.setData, MessageOf.updateContent,
      MessageOf.setTo, hmeta]
  exact hflag.bind fun m' hm' => contract_deliverMessage (.inl hm')

theorem contract_confirmation {m : Message} (hloc : isLocal E m = true) :
    Contract (Enclosed E) ((CustomMessageConfirmationProcessor.processor E).process m)
      (fun _ => True) Lawful :=
  (contract_getData _ _).bind fun _ _ => contract_deliverMessage (.inl hloc)

theorem contract_close {m : Message} {u : Option String} (hloc : isLocal E (m.setTo u) = true) :
    Contract (Enclosed E) ((CloseConnectionMessageProcessor.processor E).process (m.setTo u))
      (fun _ => True) Lawful := by
  refine (contract_getData _ _).bind fun data _ => (contract_orNullPointer _ _).bind fun u' _ => ?_
  split
  · exact .pure trivial
  · exact .ite (fun _ => contract_deliverMessage (.inl hloc)) fun _ => .pure trivial

/-! ### Authentication -/

/-- A reply to an `AUTH_CLIENT` of a connector of the domain. -/
theorem contract_sendReply {m : Message} {reply : AuthClientReply}
    (h : ∀ a, m.originalAddress = some a → LivesHere E a.connectorName) :
    Contract (Enclosed E) (AuthClientMessageProcessor.sendReply E m reply) (fun _ => True) Lawful := by
  refine (contract_orNullPointer _ _).bind fun t ht => (contract_orNullPointer _ _).bind fun a ha => ?_
  have haddr : m.originalAddress = some a := by rw [MessageOf.originalAddress, ht]; exact ha
  refine contract_builder.bind fun b _ => contract_during (contract_deliverMessage (.inl ?_))
  exact (isLocal_iff_livesHere rfl).2 (h a haddr)

theorem contract_auth {m : Message} (hm : AnsweredHere E m) (ht : m.type = some .AUTH_CLIENT)
    (hloc : isLocal E m = true) :
    Contract (Enclosed E) ((AuthClientMessageProcessor.processor E).process m) (fun _ => True) Lawful := by
  refine (contract_getData _ _).bind fun data hdata => (contract_orNullPointer _ _).bind fun d hd => ?_
  have hhome := hm.auth ht hloc d (Data.authClient?_eq_some.1 (hdata d hd))
  -- each branch replies, but for the one that begins a call
  have hreply : ∀ reply, Contract (Enclosed E) (AuthClientMessageProcessor.sendReply E m reply)
      (fun _ => True) Lawful := fun reply => contract_sendReply hhome
  split
  · exact hreply _
  · next app _ =>
    refine .ite (fun _ => hreply _) fun _ => .ite (fun _ => hreply _) fun _ => ?_
    refine .ite (fun _ => hreply _) fun _ => .ite (fun _ => hreply _) fun _ => ?_
    refine .ite (fun _ => ?_) fun _ => .fail (Tolerates.illegalArgument m)
    refine .modify (fun s hs => { hs with httpCalls := fun c hc => ?_ }) trivial
    rcases List.mem_append.1 hc with hc | hc
    · exact hs.httpCalls c hc
    · cases List.mem_singleton.1 hc
      exact hhome

theorem contract_accept {c : HttpCall} {reply : Option AuthClientReply}
    (h : ∀ a, c.message.originalAddress = some a → LivesHere E a.connectorName) :
    Contract (Enclosed E) (HttpCall.accept E c reply) (fun _ => True) Lawful :=
  (contract_orNullPointer _ _).bind fun _ _ =>
    .ite (fun _ => contract_sendReply h) fun _ => contract_sendReply h

theorem contract_complete {c : HttpCall} {outcome : HttpOutcome}
    (h : ∀ a, c.message.originalAddress = some a → LivesHere E a.connectorName) :
    Contract (Enclosed E) (HttpCall.complete E c outcome) (fun _ => True) Lawful := by
  have hexc : Contract (Enclosed E) ((AuthClientMessageProcessor.fail E c.message c.data).recover
      fun _ => pure ()) (fun _ => True) Lawful :=
    (contract_sendReply h).recover fun _ _ => .pure trivial
  unfold HttpCall.complete
  split
  · exact hexc
  · exact hexc
  · exact (contract_accept h).recover fun _ _ => hexc

/-- `assertInternalMessage` throws in a callback of the call; the second one is for what the first
throws. -/
def HttpCall.Asserts (E : Environment) (c : HttpCall) (outcome : HttpOutcome) (s : State) : Prop :=
  match outcome with
  | .response _ (some reply) => Processor.Asserts (accept E c reply) s ∨
      (∃ e, ((accept E c reply).run s).1 = .error e) ∧
        Processor.Asserts (AuthClientMessageProcessor.fail E c.message c.data)
          ((accept E c reply).run s).2
  | _ => Processor.Asserts (AuthClientMessageProcessor.fail E c.message c.data) s

theorem HttpCall.not_asserts {c : HttpCall} {outcome : HttpOutcome} {s : State}
    (h : ∀ a, c.message.originalAddress = some a → LivesHere E a.connectorName)
    (hs : Enclosed E s) : ¬ c.Asserts E outcome s := by
  have hfail : ∀ s, Enclosed E s →
      ¬ Processor.Asserts (AuthClientMessageProcessor.fail E c.message c.data) s :=
    fun s hs => Processor.not_asserts (contract_sendReply h) hs
  unfold HttpCall.Asserts
  split
  · next reply =>
    have haccept : Contract (Enclosed E) (accept E c reply) (fun _ => True) Lawful :=
      contract_accept h
    rintro (h' | ⟨-, h'⟩)
    · exact Processor.not_asserts haccept hs h'
    · exact hfail _ (haccept.keeps.run hs) h'
  · exact hfail s hs

/-! ### Group messages -/

section Groups

open CustomGroupMessageProcessor

variable {m : Message} {d : GroupMessage}

/-- The connectors of users of the domain are connectors of the domain. -/
theorem contract_groupByConnector (hp : Welcomes E process) (l : List (Option String))
    (hl : ∀ u ∈ l, LivesHere E u) (g : Groups ConnectorUserId)
    (hg : ∀ name ∈ g.map Prod.fst, LivesHere E name) :
    Contract (Enclosed E) (groupByConnector E process m d l g)
      (fun g => ∀ name ∈ g.map Prod.fst, LivesHere E name) Lawful := by
  induction l generalizing g with
  | nil => exact .pure hg
  | cons u l ih =>
    have hu := hl u List.mem_cons_self
    have hrest := ih fun v hv => hl v (List.mem_cons_of_mem u hv)
    have hadd : ∀ (addresses : List Address), (∀ a ∈ addresses, LivesHere E a.connectorName) →
        ∀ g : Groups ConnectorUserId, (∀ name ∈ g.map Prod.fst, LivesHere E name) →
        ∀ name ∈ (addresses.foldl (fun g (a : Address) =>
          g.add a.connectorName ⟨u, a.socketId⟩) g).map Prod.fst, LivesHere E name := by
      intro addresses ha
      induction addresses with
      | nil => exact fun g hg => hg
      | cons a addresses ih =>
        refine fun g hg => ih (fun b hb => ha b (List.mem_cons_of_mem a hb)) _ fun name hname => ?_
        rcases Groups.mem_keys_add.1 hname with rfl | hname
        · exact ha a List.mem_cons_self
        · exact hg name hname
    refine (contract_routeTargetAddresses _ _ _).bind fun addresses ha => ?_
    have hall := hadd addresses (fun a h => (ha a h).2 hu) g hg
    refine .ite (fun _ => ?_) fun _ => hrest _ hall
    -- a user without address gets a message of its own
    have hsingle : Contract (Enclosed E) (processUserAddressNotFound E process u m d)
        (fun _ => True) Lawful :=
      (contract_orNullPointer _ _).bind fun c _ => (contract_orNullPointer _ _).bind fun _ _ =>
        contract_builder.bind fun b _ =>
          contract_during (hp _ (welcome_of_type .MESSAGE rfl (by decide)))
    exact hsingle.bind fun _ _ => hrest _ hall

theorem contract_group (hp : Welcomes E process) :
    Contract (Enclosed E) ((CustomGroupMessageProcessor.processor E process).process m)
      (fun _ => True) Lawful := by
  refine (contract_getData _ _).bind fun data _ => (contract_orNullPointer _ _).bind fun d _ => ?_
  refine (contract_orNullPointer _ _).bind fun users _ => .forEach fun domain _ => ?_
  refine .ite (fun hdomain => ?_) fun _ => ?_
  · have hhome : ∀ u ∈ E.keyOrder ((groupByDomain E users).get domain), LivesHere E u := by
      intro u h
      obtain ⟨-, hres⟩ := Rules.mem_groupByDomain ((E.keyOrder_perm _).mem_iff.1 h)
      exact .inr (hres ▸ hdomain)
    refine (contract_groupByConnector hp _ hhome [] fun _ h => by cases h).bind fun g hg => ?_
    refine .forEach fun name hname => (contract_orNullPointer _ _).bind fun c _ => ?_
    refine (contract_orNullPointer _ _).bind fun _ _ => contract_builder.bind fun b _ => ?_
    -- the group goes to a connector, which is a key of the map
    refine contract_during (contract_deliverMessage (.inl ((isLocal_iff_livesHere rfl).2 ?_)))
    exact hg name ((E.keyOrder_perm _).mem_iff.1 hname)
  · exact (contract_orNullPointer _ _).bind fun c _ => (contract_orNullPointer _ _).bind fun _ _ =>
      contract_builder.bind fun b _ =>
        contract_during (hp _ (welcome_of_type .GROUP_MESSAGE rfl (by decide)))

end Groups

/-! ### Presence -/

theorem contract_addAddress {u : Option String} {a : Option Address} {m : Message}
    (ha : ∀ v, u = some v → ∀ b, a = some b → HomeAddress E b) :
    Contract (Enclosed E) (UserChannelService.addAddress u a m) (fun _ => True) Lawful := by
  refine (contract_getById u m).bind fun _ _ => ?_
  cases u with
  | none => exact .pure trivial
  | some u =>
    refine .modify (fun s hs => ?_) trivial
    exact { hs with channels := UserChannelService.forall_insert hs.channels u (ha u rfl) }

theorem contract_removeAddress (u : Option String) (a : Option Address) (m : Message) :
    Contract (Enclosed E) (UserChannelService.removeAddress u a m) (fun _ => True) Lawful := by
  refine (contract_getById u m).bind fun channel _ => ?_
  cases u with
  | none => exact .pure trivial
  | some u =>
    cases channel with
    | none => exact .pure trivial
    | some l =>
      refine .modify (fun s hs => ?_) trivial
      exact { hs with channels := UserChannelService.forall_delete hs.channels u a }

/-- A presence message, given what the operation on the registry does. -/
theorem contract_presence (hp : Welcomes E process) {m : Message} (hloc : isLocal E m = true)
    {view : Data → Option (Option String)}
    {operation : Option String → Option Address → Message → Proc Unit}
    (hmaster : isProcessorMessage m = true → ∀ u, Welcome E (m.setTo u))
    (hop : ∀ u, view m.data = some u → isProcessorMessage m = true → m.state = some .CREATED →
      Contract (Enclosed E) (operation u m.originalAddress m) (fun _ => True) Lawful) :
    Contract (Enclosed E) ((presenceProcessor E view operation process).process m)
      (fun _ => True) Lawful := by
  refine (contract_getData _ _).bind fun data hdata => .ite (fun _ => ?_) fun h => ?_
  · exact contract_deliverMessage (.inl hloc)
  have hproc : isProcessorMessage m = true := by simpa using h
  have hsend : Contract (Enclosed E) (do
      let userId ← orNullPointer m data
      sendMessageToMasterUser E process m userId) (fun _ => True) Lawful := by
    refine (contract_orNullPointer _ _).bind fun u _ => ?_
    unfold sendMessageToMasterUser
    split
    · exact .pure trivial
    · split
      · exact hp _ (hmaster hproc _)
      · exact .pure trivial
  refine .ite (fun hst => ?_) fun _ => hsend
  refine (contract_orNullPointer _ _).bind fun u hu => (contract_orNullPointer _ _).bind fun t htm => ?_
  have haddr : m.originalAddress = t.originalAddress := by
    rw [MessageOf.originalAddress, htm]; rfl
  rw [← haddr]
  exact (hop u (hdata u hu) hproc hst).bind fun _ _ => hsend

theorem contract_userConnected (hp : Welcomes E process) {m : Message} (hm : AnsweredHere E m)
    (ht : m.type = some .USER_CONNECTED) (hloc : isLocal E m = true) :
    Contract (Enclosed E) ((UserConnectedMessageProcessor.processor E process).process m)
      (fun _ => True) Lawful := by
  refine contract_presence hp hloc (fun hproc u => ?_) fun u hu hproc hst =>
    contract_addAddress fun v hv => ?_
  · -- whatever it is sent to, the address it has registered is the one of `m`
    refine AnsweredHere.welcome .USER_CONNECTED
      ⟨fun h => ?_, fun h => ?_, fun _ _ _ hst v hd a ha => ?_⟩ ht (by decide)
    · exact absurd (ht.symm.trans h) (by decide)
    · exact absurd (ht.symm.trans h) (by decide)
    · exact hm.connected ht hloc hproc hst v hd a ha
  · subst hv
    exact hm.connected ht hloc hproc hst v (Data.userConnected?_eq_some.1 hu)

theorem contract_userDisconnected (hp : Welcomes E process) {m : Message}
    (ht : m.type = some .USER_DISCONNECTED) (hloc : isLocal E m = true) :
    Contract (Enclosed E) ((UserDisconnectedMessageProcessor.processor E process).process m)
      (fun _ => True) Lawful :=
  contract_presence hp hloc (fun _ _ => welcome_of_type .USER_DISCONNECTED ht (by decide)) fun u _ _ _ =>
    contract_removeAddress u _ m

/-! ### Fetching -/

theorem contract_fetch {m : Message} (hm : AnsweredHere E m)
    (ht : m.type = some .FETCH_MISSING_MESSAGES_REQUEST) (hloc : isLocal E m = true) :
    Contract (Enclosed E) ((FetchMissingMessagesMessageProcessor.processor E).process m)
      (fun _ => True) Lawful := by
  refine (contract_getData _ _).bind fun data hdata => (contract_orNullPointer _ _).bind fun n hn => ?_
  refine (contract_orNullPointer _ _).bind fun count hcount => ?_
  subst hcount
  split
  · exact .fail (Tolerates.illegalArgument m)
  have hfind : Contract (Enclosed E) (MessageRepository.findMessages m.from_ none fetchableStates
      (min MAX_COUNT count) m)
      (fun page => 1 ≤ count ∧ ∀ r ∈ page.content, Anchored E r) Lawful := by
    refine .ite (fun _ => .fail (Tolerates.illegalArgument m)) fun hsize => .read fun s hs => ?_
    refine ⟨by omega, fun r hr => ?_⟩
    obtain ⟨hmem, hcrit⟩ := MessageRepository.mem_page hr
    simp only [MessageRepository.criteria, Bool.and_eq_true, List.any_eq_true] at hcrit
    obtain ⟨⟨-, st, hst, hstate⟩, -⟩ := hcrit
    exact hs.messages r hmem st hst (by simpa using hstate)
  refine hfind.bind fun page hpage => ?_
  refine Contract.bind (Q := fun _ => True) (.forEach fun r hr => contract_during ?_) fun _ _ => ?_
  · refine (contract_deliverMessage (hpage.2 r hr)).bind fun _ _ => ?_
    exact .modify (fun s hs => { hs with
      messages := fun r' hr' => hs.messages r' (MessageRepository.mem_erase.1 hr').1 }) trivial
  · -- the completion goes to the sender, under the target address of the request
    refine contract_builder.bind fun b _ => Contract.reraise ?_ fun _ he => he
    refine contract_deliverMessage (.inl ?_)
    have hdata' : m.data = .fetchMissingMessagesRequest (some count) :=
      Data.fetchMissingMessagesRequest?_eq_some.1 (hdata _ hn)
    exact (isLocal_congr (m := m.setTo m.from_) rfl rfl).trans (hm.fetch ht hloc count hdata' hpage.1)

/-! ### State changes -/

theorem contract_report (hp : Welcomes E process) {m : Message} (hm : Welcome E m)
    (ht : m.type = some .MESSAGE_STATE_CHANGED) (hloc : isLocal E m = true) :
    Contract (Enclosed E) ((MessageStateChangedMessageProcessor.processor E process).process m)
      (fun _ => True) Lawful := by
  refine (contract_getData _ _).bind fun data hdata => contract_during ?_
  refine (contract_orNullPointer _ _).bind fun d hd => ?_
  obtain ⟨message, st⟩ := d
  have hd' : m.data = .messageStateChanged message st :=
    Data.messageStateChanged?_eq_some.1 (hdata _ hd)
  refine (contract_orNullPointer _ _).bind fun msg hmsg => ?_
  subst hmsg
  have hreport : Redeliverable E st msg := hm.reported ht hd' hloc
  refine .ite (fun hst => ?_) fun hst => ?_
  · -- a lost message is delivered again under the target address it had
    refine (contract_orNullPointer _ _).bind fun t _ => ?_
    refine (contract_removeAddress _ _ _).bind fun _ _ => ?_
    exact contract_deliverMessage (hreport.lost hst)
  have hpersist : msg.feature = some .RELIABLE →
      ∀ st' ∈ fetchableStates, st = some st' → Anchored E msg := by
    intro hf st' hmem hst'
    subst hst'
    -- of the two fetchable states only `NETWORK_ERROR` is left here
    simp only [fetchableStates, List.mem_cons, List.not_mem_nil, or_false] at hmem
    rcases hmem with rfl | rfl
    · exact absurd rfl hst
    · exact hreport.stored rfl hf
  refine (contract_persistMessage hpersist).bind fun msg' _ => ?_
  refine (contract_deliveredHere msg' st).bind fun confirms _ =>
    .ite (fun _ => ?_) fun _ => .pure trivial
  refine (contract_orNullPointer _ _).bind fun c _ => .ite (fun _ => .pure trivial) fun _ => ?_
  refine (contract_orNullPointer _ _).bind fun enabled _ => .ite (fun _ => ?_) fun _ => .pure trivial
  exact contract_builder.bind fun b _ =>
    hp _ (welcome_of_type .MESSAGE_CONFIRMATION rfl (by decide))

/-! ### Internal messages -/

theorem contract_internal (hp : Welcomes E process) {m m' : Message} (hm : Welcome E m)
    (ht : m.type = some .INTERNAL_MESSAGE) (hdata : m'.data = m.data) (ht' : m'.type = m.type)
    (hopen : ∀ i, m.data = .message i → m' = opened m i) :
    Contract (Enclosed E) ((InternalMessageProcessor.processor E process).process m')
      (fun _ => True) Lawful := by
  refine (contract_getData _ _).bind fun _ _ =>
    (contract_isCurrentDomainMessage m').bind fun b hb => .ite (fun h => ?_) fun _ => ?_
  · refine (contract_innerMessage m').bind fun i hi => contract_during (hp i ?_)
    have hi' : m.data = .message i := hdata ▸ hi
    exact hm.inner ht hi' (hopen i hi' ▸ hb ▸ h)
  · exact contract_deliverMessage (.inr (ht'.trans ht))

/-! ### The message processor service -/

/-- A message that its handler has prepared is wrapped for the domain it is for. -/
theorem contract_processCrossDomainMessage (hp : Welcomes E process) {m p : Message}
    (hm : Welcome E m) (hprep : Prepared m p) :
    Contract (Enclosed E) (processCrossDomainMessage E process p) (fun _ => True) Lawful := by
  have hwelcome : Welcome E p := by
    cases hprep with
    | message ht => exact welcome_of_type .MESSAGE ht (by decide)
    | close ht => exact welcome_of_type .CLOSE_CONNECTION ht (by decide)
    | other => exact hm
  refine (contract_orNullPointer _ _).bind fun c _ => .ite (fun _ => hp p hwelcome) fun _ => ?_
  refine contract_builder.bind fun b _ => (contract_orNullPointer _ _).bind fun t _ => ?_
  refine (contract_resolveDomainName p).bind fun d _ => contract_during (hp _ ?_)
  refine .wrapper rfl fun i hi _ => ?_
  cases hi
  exact hwelcome

/-- A handler that prepares a message, and processes it if it is for the current domain. -/
theorem contract_handler (hp : Welcomes E process) {m : Message} (hm : Welcome E m)
    {processor : MessageProcessor} {ty : MessageType} (hty : ty ≠ .INTERNAL_MESSAGE)
    (hpre : Contract (Enclosed E) (processor.preprocess m) (Prepared m) Lawful)
    (hproc : ∀ p, Prepared m p → isLocal E p = true →
      Contract (Enclosed E) (processor.process p) (fun _ => True) Lawful) :
    Contract (Enclosed E) (do
      let m ← processor.preprocess m
      if some ty ≠ some .INTERNAL_MESSAGE then do
        let here ← isCurrentDomainMessage E m
        if here then processor.process m else processCrossDomainMessage E process m
      else processor.process m) (fun _ => True) Lawful := by
  refine hpre.bind fun p hprep => .ite (fun _ => ?_) fun h => absurd (by simpa using h) hty
  refine (contract_isCurrentDomainMessage p).bind fun b hb => .ite (fun h => ?_) fun _ => ?_
  · exact hproc p hprep (hb ▸ h)
  · exact contract_processCrossDomainMessage hp hm hprep

/-- A handler without a pass of its own over the message. -/
theorem contract_plainHandler (hp : Welcomes E process) {m : Message} (hm : Welcome E m) {T : Type}
    {view : Data → Option T} {doProcess : Message → Option T → Proc Unit} {ty : MessageType}
    (ht : m.type = some ty) (hty : ty ≠ .MESSAGE ∧ ty ≠ .CLOSE_CONNECTION ∧ ty ≠ .INTERNAL_MESSAGE)
    (hproc : isLocal E m = true → Contract (Enclosed E)
      (({ view, doProcess } : MessageProcessor).process m) (fun _ => True) Lawful) :
    Contract (Enclosed E) (do
      let m ← ({ view, doProcess } : MessageProcessor).preprocess m
      if some ty ≠ some .INTERNAL_MESSAGE then do
        let here ← isCurrentDomainMessage E m
        if here then ({ view, doProcess } : MessageProcessor).process m
        else processCrossDomainMessage E process m
      else ({ view, doProcess } : MessageProcessor).process m) (fun _ => True) Lawful := by
  refine contract_handler hp hm hty.2.2 ?_ fun p hprep hloc => ?_
  · refine (contract_getData _ _).bind fun _ _ => .pure (.other ?_ ?_ ?_)
    · simpa [ht] using hty.1
    · simpa [ht] using hty.2.1
    · simpa [ht] using hty.2.2
  · have hpm : p = m := by
      cases hprep with
      | message h => exact absurd (Option.some.inj (ht.symm.trans h)) hty.1
      | close h => exact absurd (Option.some.inj (ht.symm.trans h)) hty.2.1
      | other => rfl
    rw [hpm] at hloc ⊢
    exact hproc hloc

/-- One call of `process`, given what its inner calls do. -/
theorem contract_processWith (hp : Welcomes E process) {m : Message} (hm : Welcome E m) :
    Contract (Enclosed E) (processWith E process m) (fun _ => True) Lawful := by
  have hnote : Contract (Enclosed E) (Proc.note (.processing m)) (fun _ => True) Lawful :=
    .modify (fun _ hs => { hs with }) trivial
  refine hnote.bind fun _ _ => (contract_orNullPointer _ _).bind fun _ _ => ?_
  have hm' : Welcome E m.touch := hm.touch
  refine (contract_orNullPointer _ _).bind fun t _ => .ite (fun _ => .pure trivial) fun _ => ?_
  refine (contract_orNullPointer _ _).bind fun c hc => ?_
  have htype : m.touch.type = c.type := Rules.type_eq hc
  cases hty : c.type with
  | none => exact .pure trivial
  | some ty =>
    rw [hty] at htype
    have hanswer : ty ≠ .INTERNAL_MESSAGE ∧ ty ≠ .MESSAGE_STATE_CHANGED → AnsweredHere E m.touch :=
      hm'.answeredHere htype
    -- what a type without a handler brings is dropped
    cases ty
    case MESSAGE =>
      refine contract_handler hp hm' (by decide) ?_ fun p hprep hloc => ?_
      · refine (contract_getData _ _).bind fun _ hd => (contract_orNullPointer _ _).bind fun d hd' => ?_
        exact .pure (.message htype (Data.messageRequest?_eq_some.1 (hd d hd')))
      · cases hprep with
        | message _ hd => exact contract_message hd hloc
        | close h => exact absurd (htype.symm.trans h) (by decide)
        | other h => exact absurd htype h
    case CLOSE_CONNECTION =>
      refine contract_handler hp hm' (by decide) ?_ fun p hprep hloc => ?_
      · refine (contract_getData _ _).bind fun _ hd => (contract_orNullPointer _ _).bind fun u hu => ?_
        exact .pure (.close htype (Data.closeConnection?_eq_some.1 (hd u hu)))
      · cases hprep with
        | message h => exact absurd (htype.symm.trans h) (by decide)
        | close _ _ => exact contract_close hloc
        | other _ h => exact absurd htype h
    case INTERNAL_MESSAGE =>
      -- the recipient of a wrapper that names none is that of the message inside
      have hpre : Contract (Enclosed E)
          ((InternalMessageProcessor.processor E process).preprocess m.touch)
          (fun p => (p.data = m.touch.data ∧ p.type = m.touch.type) ∧
            ∀ i, m.touch.data = .message i → p = opened m.touch i) Lawful := by
        refine (contract_getData _ _).bind fun _ _ => .ite (fun hblank => ?_) fun hblank => ?_
        · refine (contract_innerMessage _).bind fun i hi => .pure ⟨⟨rfl, rfl⟩, fun i' hi' => ?_⟩
          cases hi.symm.trans hi'
          rw [opened, if_pos hblank]
        · exact .pure ⟨⟨rfl, rfl⟩, fun i _ => (if_neg hblank).symm⟩
      refine hpre.bind fun p hp' => .ite (fun h => absurd rfl h) fun _ => ?_
      exact contract_internal hp hm' htype hp'.1.1 hp'.1.2 hp'.2
    case MESSAGE_CONFIRMATION =>
      exact contract_plainHandler hp hm' htype (by decide) contract_confirmation
    case AUTH_CLIENT =>
      exact contract_plainHandler hp hm' htype (by decide)
        (contract_auth (hanswer (by decide)) htype)
    case GROUP_MESSAGE =>
      exact contract_plainHandler hp hm' htype (by decide) fun _ => contract_group hp
    case USER_CONNECTED =>
      exact contract_plainHandler hp hm' htype (by decide)
        (contract_userConnected hp (hanswer (by decide)) htype)
    case USER_DISCONNECTED =>
      exact contract_plainHandler hp hm' htype (by decide) (contract_userDisconnected hp htype)
    case FETCH_MISSING_MESSAGES_REQUEST =>
      exact contract_plainHandler hp hm' htype (by decide)
        (contract_fetch (hanswer (by decide)) htype)
    case MESSAGE_STATE_CHANGED =>
      exact contract_plainHandler hp hm' htype (by decide) (contract_report hp hm' htype)
    all_goals exact .pure trivial

/-- **`process` on a welcome message**: the stores stay in the domain, and `assertInternalMessage`
does not throw. -/
theorem contract_process (depth : ℕ) : Welcomes E (Processor.process E depth) := by
  induction depth with
  | zero => exact fun m _ => .fail (lawful_stackOverflow m)
  | succ depth ih => exact fun m hm => contract_processWith ih hm

theorem contract_service {m : Message} (hm : Welcome E m) :
    Contract (Enclosed E) (MessageProcessorService.process E m) (fun _ => True) Lawful := by
  rw [MessageProcessorService.process]
  exact contract_process (callDepth m) m hm

/-! ### The ways in -/

/-- A message whose processing throws is stored in a state in which it is not fetched. -/
theorem contract_onMessageArrived {m : Message} (hm : Welcome E m) :
    Contract (Enclosed E) (onMessageArrived E m) (fun _ => True) Lawful := by
  refine (contract_service hm).recoverIf fun e _ => ?_
  refine (contract_persistMessage fun _ st hmem hst => ?_).bind fun _ _ => .pure trivial
  -- `PROCESSOR_ERROR` is not fetched
  cases hst
  exact absurd hmem (by decide)

theorem contract_onRecordArrived {m : Message} (hm : Welcome E m) :
    Contract (Enclosed E) (onRecordArrived E m) (fun _ => True) Lawful :=
  (contract_onMessageArrived hm).recoverIf fun _ _ => .pure trivial

/-- A message that a tunnel brings is unwrapped where its recipient lives in the domain. -/
theorem welcome_msgWrapper {b i : Message} {data : Data} {t : MessageMeta} {c : MessageContent}
    (hd : data = .message i) (h : LivesHere E i.to_ → Welcome E i) :
    Welcome E (DomainService.msgWrapper b i (some .INTERNAL_MESSAGE) data t c) := by
  refine .wrapper rfl fun i' hi' hloc => ?_
  have hi'' : data = .message i' := hi'
  cases hd.symm.trans hi''
  refine h ?_
  have hopen : opened (DomainService.msgWrapper b i (some .INTERNAL_MESSAGE) data t c) i =
      DomainService.msgWrapper b i (some .INTERNAL_MESSAGE) data t c := ite_self _
  rw [hopen] at hloc
  have hhome : LivesHere E (DomainService.msgWrapper b i (some .INTERNAL_MESSAGE) data t c).to_ :=
    (isLocal_iff_livesHere rfl).1 hloc
  exact hhome

theorem contract_handleInternalMessage {type : Option MessageType} {data : Data}
    (h : ∀ b i t c, data = .message i → i.meta_ = some t → i.content = some c →
      Welcome E (DomainService.msgWrapper b i type data t c)) :
    Contract (Enclosed E) (DomainService.handleInternalMessage E type data) (fun _ => True) Lawful := by
  refine contract_builder.bind fun b _ => ?_
  cases hd : data.convert Data.message? with
  | error e => exact .fail (Data.eq_illegalArgument_of_convert hd ▸ Tolerates.illegalArgument b)
  | ok data' =>
    cases data' with
    | none => exact .fail (Tolerates.nullPointer b)
    | some i =>
      refine (contract_orNullPointer _ _).bind fun t ht => ?_
      refine (contract_orNullPointer _ _).bind fun c hc => contract_onMessageArrived ?_
      exact h b i t c (Data.message?_eq_some.1 (Data.convert_eq_some hd)) ht hc

end

end Linker.Processor
