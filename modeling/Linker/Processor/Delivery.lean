import Linker.Processor.Handlers

/-!
# Runs of the post office

What `deliverMessage` does with a message that is for the current domain: the message as it is sent,
the addresses it is sent to, and the stores afterwards.

## Main results

* `run_deliverMessage` : with a producer that takes every record, `deliverMessage` puts a local message
  on the topics of its `targets`, or stores it where it has none.
-/

namespace Linker

/-- The delivery type of a message, `none` where it has no metadata. -/
def MessageOf.deliveryType (m : Message) : Option DeliveryType := m.meta_.bind (·.deliveryType)

namespace Processor

open ProcessorUtils ClientAppService MessageProcessorService PostOffice Exec

/-- The state with more records on the topics of connectors. -/
def State.post (l : List Parcel) (s : State) : State := { s with parcels := s.parcels ++ l }

/-- The state with other random numbers to come. -/
def State.picking (picks : List ℕ) (s : State) : State := { s with picks }

/-- The state after a record is saved. -/
def State.store (m : Message) (s : State) : State :=
  { s with messages := MessageRepository.upsert m s.messages, journal := s.journal ++ [.saved m] }

variable [JavaChar] (E : Environment)

/-- The message with its target address filled in. -/
def populated (m : Message) : Message :=
  match m.targetAddress with
  | none => m.setTargetAddress (some { domainName := resolveDomain E m.to_ })
  | some _ => m

/-- The message with the delivery type it is sent with. -/
def adjusted (m : Message) : Message :=
  if m.deliveryType = some .ALL ∧ (m.type = some .INTERNAL_MESSAGE || isMasterUserId E m.to_ ||
      startsWithIgnoreCase m.to_ (some Keywords.PROCESSOR)) = true then
    m.setDeliveryType .ANY
  else m

/-- All addresses, or the one that is drawn. -/
def chosen (deliveryType : Option DeliveryType) (l : List Address) (s : State) : List Address :=
  if deliveryType = some .ALL then l else (l[s.picks.headD 0 % l.length]?).toList

/-- The addresses a message is sent to. -/
def targets (to_ : Option String) (deliveryType : Option DeliveryType) (s : State) : List Address :=
  if isBlank to_ then []
  else if isConnectorUser to_ then [{ domainName := some E.domainName, connectorName := to_ }]
  else ((to_.bind s.channels).map fun l => chosen deliveryType l s).getD []

variable {E}

/-! ### The message that is sent -/

theorem letter_populated (m : Message) : m.SameLetter (populated E m) := by
  unfold populated
  split
  · exact .setTargetAddress m _
  · exact .refl m

theorem letter_adjusted (m : Message) : m.SameLetter (adjusted E m) := by
  unfold adjusted
  split
  · exact .setDeliveryType m .ANY
  · exact .refl m

theorem id_populated (m : Message) : (populated E m).id = m.id := by
  unfold populated
  split <;> rfl

theorem id_adjusted (m : Message) : (adjusted E m).id = m.id := by
  unfold adjusted
  split <;> rfl

theorem meta_populated {m : Message} {t : MessageMeta} (ht : m.meta_ = some t) :
    ∃ t', (populated E m).meta_ = some t' ∧ t'.deliveryType = t.deliveryType ∧
      t'.confirmEnabled = t.confirmEnabled := by
  unfold populated
  split
  · exact ⟨{ t with targetAddress := some { domainName := resolveDomain E m.to_ } },
      by simp [MessageOf.setTargetAddress, ht], rfl, rfl⟩
  · exact ⟨t, ht, rfl, rfl⟩

theorem meta_adjusted {m : Message} {t : MessageMeta} (ht : m.meta_ = some t) :
    ∃ t', (adjusted E m).meta_ = some t' ∧ t'.confirmEnabled = t.confirmEnabled := by
  unfold adjusted
  split
  · exact ⟨{ t with deliveryType := some .ANY }, by simp [MessageOf.setDeliveryType, ht], rfl⟩
  · exact ⟨t, ht, rfl⟩

/-- The target address that is filled in has the domain the message is for. -/
theorem targetAddress_populated {m : Message} {t : MessageMeta} (ht : m.meta_ = some t) :
    ∃ a, (populated E m).targetAddress = some a ∧ a.domainName = domainOf E m := by
  unfold populated domainOf
  split
  · next h =>
    refine ⟨{ domainName := resolveDomain E m.to_ }, ?_, by rw [h]⟩
    simp [MessageOf.targetAddress, MessageOf.setTargetAddress, ht]
  · next a h => exact ⟨a, h, by rw [h]⟩

/-- Filling in the target address does not change what is local. -/
theorem isLocal_populated {m : Message} {t : MessageMeta} (ht : m.meta_ = some t) :
    isLocal E (populated E m) = isLocal E m := by
  have hdom : domainOf E (populated E m) = domainOf E m := by
    unfold populated
    split
    · next h =>
      rw [domainOf, domainOf, h]
      simp [MessageOf.targetAddress, MessageOf.setTargetAddress, ht]
    · rfl
  rw [isLocal, isLocal, hdom, (letter_populated m).to_]

/-! ### The addresses -/

theorem run_populateTargetAddress {m : Message} {t : MessageMeta} (ht : m.meta_ = some t) (s : State) :
    (populateTargetAddress E m).run s = (.ok (populated E m), s) := by
  have htarget : m.targetAddress = t.targetAddress := by rw [MessageOf.targetAddress, ht]; rfl
  rw [populateTargetAddress, run_bind_ok (run_getMeta ht s), populated, htarget]
  cases t.targetAddress <;> rfl

theorem run_adjustDeliveryType {m : Message} {t : MessageMeta} {c : MessageContent}
    (ht : m.meta_ = some t) (hc : m.content = some c) (s : State) :
    (adjustDeliveryType E m).run s = (.ok (adjusted E m), s) := by
  have hd : m.deliveryType = t.deliveryType := by rw [MessageOf.deliveryType, ht]; rfl
  have htype : m.type = c.type := by rw [MessageOf.type, hc]; rfl
  rw [adjustDeliveryType, run_bind_ok (run_getMeta ht s), adjusted, hd, htype]
  by_cases hall : t.deliveryType = some .ALL
  · rw [if_pos hall, run_bind_ok (run_getContent hc s)]
    simp only [hall, true_and]
    split <;> rfl
  · rw [if_neg hall, if_neg fun h => hall h.1]
    rfl

omit [JavaChar] in
theorem run_getRandomItemInCollection (l : List Address) (s : State) :
    ∃ picks, (getRandomItemInCollection l).run s =
      (.ok l[s.picks.headD 0 % l.length]?, s.picking picks) := by
  unfold getRandomItemInCollection
  cases l with
  | nil => exact ⟨s.picks, rfl⟩
  | cons a l => exact ⟨s.picks.tail, rfl⟩

/-- Only a random number is drawn. -/
theorem run_routeTargetAddresses (to_ : Option String) (d : Option DeliveryType) (m : Message)
    (s : State) : ∃ picks, (routeTargetAddresses E to_ d m).run s =
      (.ok (targets E to_ d s), s.picking picks) := by
  unfold routeTargetAddresses targets
  by_cases hblank : isBlank to_ = true
  · rw [if_pos hblank, if_pos hblank]
    exact ⟨s.picks, rfl⟩
  rw [if_neg hblank, if_neg hblank]
  by_cases hconn : isConnectorUser to_ = true
  · rw [if_pos hconn, if_pos hconn]
    exact ⟨s.picks, rfl⟩
  rw [if_neg hconn, if_neg hconn]
  obtain ⟨u, rfl⟩ : ∃ u, to_ = some u := by
    cases to_ with
    | none => exact absurd rfl hblank
    | some u => exact ⟨u, rfl⟩
  have hget : (UserChannelService.getById (some u) m).run s = (.ok (s.channels u), s) := rfl
  rw [run_bind_ok hget, Option.bind_some]
  cases s.channels u with
  | none => exact ⟨s.picks, rfl⟩
  | some l =>
    simp only [Option.map_some, Option.getD_some, chosen]
    by_cases hd : d = some .ALL
    · rw [if_pos hd, if_pos hd]
      exact ⟨s.picks, rfl⟩
    · rw [if_neg hd, if_neg hd]
      obtain ⟨picks, hpick⟩ := run_getRandomItemInCollection l s
      exact ⟨picks, by rw [run_bind_ok hpick]; rfl⟩

omit [JavaChar] in
theorem mem_chosen {d : Option DeliveryType} {l : List Address} {s : State} {a : Address}
    (h : a ∈ chosen d l s) : a ∈ l := by
  unfold chosen at h
  split at h
  · exact h
  · exact List.mem_of_getElem? (Option.mem_toList.1 h)

omit [JavaChar] in
theorem chosen_ne_nil {d : Option DeliveryType} {l : List Address} {s : State} (h : l ≠ []) :
    chosen d l s ≠ [] := by
  unfold chosen
  split
  · exact h
  · have hlt : s.picks.headD 0 % l.length < l.length := Nat.mod_lt _ (List.length_pos_iff.2 h)
    rw [List.getElem?_eq_getElem hlt]
    simp

/-- The targets of a user that is no connector are chosen among the registered addresses. -/
theorem targets_of_user {u : String} {d : Option DeliveryType} {s : State}
    (hblank : isBlank (some u) = false) (hconn : isConnectorUser (some u) = false) :
    targets E (some u) d s = chosen d (UserChannelService.addressesOf s.channels u) s := by
  unfold targets
  rw [hblank, hconn, if_neg Bool.false_ne_true, if_neg Bool.false_ne_true, Option.bind_some,
    UserChannelService.addressesOf]
  cases s.channels u with
  | none =>
    unfold chosen
    split <;> rfl
  | some l => rfl

/-! ### Saving and sending -/

/-- The state after a message is persisted that was not processed. -/
def State.keep (f : MessageFeature) (m : Message) (s : State) : State :=
  if f = .RELIABLE then s.store m else s

omit [JavaChar] in
theorem run_persistMessage {m : Message} {c : MessageContent} {i : String} {f : MessageFeature}
    (st : MessageState) (hid : m.id = some i) (hc : m.content = some c) (hf : c.feature = some f)
    (hst : st ≠ .PROCESSED) (s : State) :
    (persistMessage E m (some st)).run s =
      (.ok (m.setState (some st)), s.keep f (m.setState (some st))) := by
  have hsave : (MessageRepository.save E (m.setState (some st))).run s =
      (.ok (m.setState (some st)), s.store (m.setState (some st))) := by
    have hassign : (MessageRepository.assignId E (m.setState (some st))).run s =
        (.ok (m.setState (some st)), s) := by
      unfold MessageRepository.assignId
      rw [MessageOf.setState_id, hid]
      rfl
    rw [MessageRepository.save, run_bind_ok hassign]
    rfl
  rw [persistMessage, run_bind_ok (run_getContent (m := m.setState (some st)) hc s), hf, State.keep]
  by_cases hrel : f = .RELIABLE
  · rw [if_pos hrel, if_pos ⟨by rw [hrel], by simpa using hst⟩]
    exact hsave
  · rw [if_neg hrel, if_neg fun h => hrel (Option.some.inj h.1)]
    rfl

omit [JavaChar] in
/-- A record that the producer takes. -/
theorem run_express {s : State} (hr : s.refused = []) (delivery : ExpressDeliveryType) (c : String)
    (m : Message) :
    (express E delivery (some c) m).run s = (.ok (), s.post [⟨delivery, c, m⟩]) := by
  obtain ⟨messages, channels, parcels, httpCalls, journal, serial, picks, refused⟩ := s
  cases hr
  rfl

/-- The kind of delivery for a feature. -/
def deliveryOf : MessageFeature → ExpressDeliveryType
  | .FAST => .NATS
  | .RELIABLE => .KAFKA

/-- The record for a target. -/
def copyTo (f : MessageFeature) (m : Message) (a : Address) : Parcel :=
  ⟨deliveryOf f, a.connectorName.getD "", m.setTargetAddress (some a)⟩

omit [JavaChar] in
theorem run_sendToAddresses {m : Message} {c : MessageContent} {f : MessageFeature}
    (hc : m.content = some c) (hf : c.feature = some f) {l : List Address}
    (hl : ∀ a ∈ l, a.connectorName ≠ none) {s : State} (hr : s.refused = []) :
    (sendToAddresses E l m).run s = (.ok (), s.post (l.map (copyTo f m))) := by
  have hcalc : (calcExpressDelivery m c.feature).run s = (.ok (deliveryOf f), s) := by
    rw [hf]
    cases f <;> rfl
  rw [sendToAddresses, run_bind_ok (run_getContent hc s), run_bind_ok hcalc]
  clear hcalc
  induction l generalizing s with
  | nil => simp [State.post]
  | cons a l ih =>
    obtain ⟨name, hname⟩ := Option.ne_none_iff_exists'.1 (hl a List.mem_cons_self)
    have hsend := run_express (E := E) hr (deliveryOf f) name (m.setTargetAddress (some a))
    have hrest := ih (fun b hb => hl b (List.mem_cons_of_mem a hb))
      (s := s.post [⟨deliveryOf f, name, m.setTargetAddress (some a)⟩]) hr
    rw [run_forEach_cons, hname, run_bind_ok hsend, hrest]
    simp [State.post, copyTo, hname]

/-- The state after the producer is asked to take a record. -/
def State.asked (s : State) : State := { s with refused := s.refused.tail }

/-- The stores after a record is offered to the producer, which may refuse it. -/
def State.offer (f : MessageFeature) (m : Message) (a : Address) (s : State) : State :=
  if s.refused.headD false then
    s.asked.keep f ((m.setTargetAddress (some a)).setState (some .NETWORK_ERROR))
  else s.asked.post [copyTo f m a]

omit [JavaChar] in
theorem State.offer_accepted {s : State} (h : s.refused.headD false = false) (f : MessageFeature)
    (m : Message) (a : Address) : s.offer f m a = s.asked.post [copyTo f m a] := by
  rw [State.offer, h, if_neg Bool.false_ne_true]

omit [JavaChar] in
/-- A record for one address. -/
theorem run_sendToAddress {m : Message} {c : MessageContent} {i : String} {f : MessageFeature}
    (hc : m.content = some c) (hid : m.id = some i) (hf : c.feature = some f) {a : Address}
    (ha : a.connectorName ≠ none) (s : State) :
    (sendToAddresses E [a] m).run s = (.ok (), s.offer f m a) := by
  obtain ⟨name, hname⟩ := Option.ne_none_iff_exists'.1 ha
  have hcalc : (calcExpressDelivery m c.feature).run s = (.ok (deliveryOf f), s) := by
    rw [hf]
    cases f <;> rfl
  have hexpress : (express E (deliveryOf f) (some name) (m.setTargetAddress (some a))).run s =
      (.ok (), s.offer f m a) := by
    rw [express, run_read_bind, run_modify_bind, State.offer]
    by_cases hrefused : s.refused.headD false = true
    · have hpersist := run_persistMessage (E := E) (m := m.setTargetAddress (some a)) (i := i)
        .NETWORK_ERROR hid hc hf (by decide) s.asked
      simp only [hrefused, if_true, onMessageDeliveryFailed]
      exact run_bind_ok hpersist
    · simp only [hrefused, copyTo, hname, Option.getD_some]
      rfl
  rw [sendToAddresses, run_bind_ok (run_getContent hc s), run_bind_ok hcalc, run_forEach_cons, hname,
    run_bind_ok hexpress]
  rfl

/-- The stores after a message is sent to its targets, with a producer that takes every record. -/
def State.sentOut (f : MessageFeature) (m : Message) (l : List Address) (s : State) : State :=
  if l = [] then s.keep f (m.setState (some .ADDRESS_NOT_FOUND)) else s.post (l.map (copyTo f m))

/-- The addresses at which a message is to be delivered. -/
theorem run_getRouteTargetAddresses {m : Message} {t : MessageMeta} (ht : m.meta_ = some t)
    (s : State) : ∃ picks, (getRouteTargetAddresses E (adjusted E m)).run s =
      (.ok (targets E m.to_ (adjusted E m).deliveryType s), s.picking picks) := by
  obtain ⟨t', ht', -⟩ := meta_adjusted (E := E) ht
  have hd : t'.deliveryType = (adjusted E m).deliveryType := by
    rw [MessageOf.deliveryType, ht']; rfl
  obtain ⟨picks, hroute⟩ :=
    run_routeTargetAddresses (E := E) m.to_ (adjusted E m).deliveryType (adjusted E m) s
  exact ⟨picks, by
    rw [getRouteTargetAddresses, run_bind_ok (run_getMeta ht' s), (letter_adjusted m).to_, hd, hroute]⟩

/-- A message with targets is sent to them. -/
theorem run_sendToConnector_targets {m : Message} {t : MessageMeta} {c : MessageContent}
    (ht : m.meta_ = some t) (hc : m.content = some c) {s : State}
    (hne : targets E m.to_ (adjusted E m).deliveryType s ≠ []) :
    ∃ picks, (sendToConnector E m).run s =
      (sendToAddresses E (targets E m.to_ (adjusted E m).deliveryType s) (adjusted E m)).run
        (s.picking picks) := by
  obtain ⟨picks, hget⟩ := run_getRouteTargetAddresses (E := E) ht s
  exact ⟨picks, by
    rw [sendToConnector, run_bind_ok (run_adjustDeliveryType ht hc s), run_bind_ok hget,
      if_neg (by simpa using hne)]⟩

theorem run_sendToConnector {m : Message} {t : MessageMeta} {c : MessageContent} {i : String}
    {f : MessageFeature} (ht : m.meta_ = some t) (hc : m.content = some c) (hid : m.id = some i)
    (hf : c.feature = some f) {s : State} (hr : s.refused = [])
    (hl : ∀ a ∈ targets E m.to_ (adjusted E m).deliveryType s, a.connectorName ≠ none) :
    ∃ picks, (sendToConnector E m).run s =
      (.ok (), (s.picking picks).sentOut f (adjusted E m)
        (targets E m.to_ (adjusted E m).deliveryType s)) := by
  have hc' : (adjusted E m).content = some c := (letter_adjusted m).content.trans hc
  by_cases hnil : targets E m.to_ (adjusted E m).deliveryType s = []
  · obtain ⟨picks, hget⟩ := run_getRouteTargetAddresses (E := E) ht s
    have hpersist := run_persistMessage (E := E) (m := adjusted E m) .ADDRESS_NOT_FOUND
      ((id_adjusted m).trans hid) hc' hf (by decide) (s.picking picks)
    refine ⟨picks, ?_⟩
    rw [sendToConnector, run_bind_ok (run_adjustDeliveryType ht hc s), run_bind_ok hget, State.sentOut,
      hnil, List.isEmpty_nil, if_pos rfl, if_pos rfl, run_bind_ok hpersist]
    rfl
  · obtain ⟨picks, hsend⟩ := run_sendToConnector_targets ht hc hnil
    refine ⟨picks, ?_⟩
    rw [hsend, State.sentOut, if_neg hnil]
    exact run_sendToAddresses hc' hf hl hr

/-- The message as `deliverMessage` sends it, but for the target. -/
def sent (E : Environment) (m : Message) : Message := adjusted E (populated E m)

/-- **Delivery** of a message for the current domain. -/
theorem run_deliverMessage {m : Message} {t : MessageMeta} {c : MessageContent} {i : String}
    {f : MessageFeature} (ht : m.meta_ = some t) (hc : m.content = some c) (hid : m.id = some i)
    (hf : c.feature = some f) (hloc : isLocal E m = true) {s : State} (hr : s.refused = [])
    (hl : ∀ a ∈ targets E m.to_ (sent E m).deliveryType s, a.connectorName ≠ none) :
    ∃ picks, (deliverMessage E m).run s =
      (.ok (), (s.picking picks).sentOut f (sent E m)
        (targets E m.to_ (sent E m).deliveryType s)) := by
  obtain ⟨t', ht', -, -⟩ := meta_populated (E := E) ht
  have hletter := letter_populated (E := E) m
  obtain ⟨picks, hsend⟩ := run_sendToConnector (E := E) ht' (hletter.content.trans hc)
    ((id_populated m).trans hid) hf hr (by rw [hletter.to_]; exact hl)
  refine ⟨picks, ?_⟩
  rw [deliverMessage, run_bind_ok (run_populateTargetAddress ht s),
    run_bind_ok (run_isCurrentDomainMessage E ht' s), isLocal_populated ht, hloc, if_pos rfl,
    deliverMessageInsideDomain, hsend, hletter.to_]
  rfl

theorem run_sendToConnector_connector {m : Message} {t : MessageMeta} {c : MessageContent}
    {i : String} {f : MessageFeature} {u : String} (ht : m.meta_ = some t) (hc : m.content = some c)
    (hid : m.id = some i) (hf : c.feature = some f) (hu : m.to_ = some u)
    (hconn : isConnectorUser (some u) = true) (s : State) :
    ∃ picks, (sendToConnector E m).run s = (.ok (), (s.picking picks).offer f (adjusted E m)
      { domainName := some E.domainName, connectorName := some u }) := by
  have hblank : isBlank (some u) = false := by
    rw [isConnectorUser, Bool.and_eq_true] at hconn
    simpa using hconn.1
  have htargets : targets E m.to_ (adjusted E m).deliveryType s =
      [{ domainName := some E.domainName, connectorName := some u }] := by
    rw [hu, targets, hblank, if_neg Bool.false_ne_true, hconn, if_pos rfl]
  obtain ⟨picks, hsend⟩ := run_sendToConnector_targets (E := E) ht hc (s := s) (by simp [htargets])
  refine ⟨picks, ?_⟩
  rw [hsend, htargets]
  exact run_sendToAddress ((letter_adjusted _).content.trans hc) ((id_adjusted _).trans hid) hf
    (by simp) _

/-- **Delivery** to a connector of the current domain. -/
theorem run_deliverMessage_connector {m : Message} {t : MessageMeta} {c : MessageContent}
    {i : String} {f : MessageFeature} {u : String} (ht : m.meta_ = some t) (hc : m.content = some c)
    (hid : m.id = some i) (hf : c.feature = some f) (hloc : isLocal E m = true) (hu : m.to_ = some u)
    (hconn : isConnectorUser (some u) = true) (s : State) :
    ∃ picks, (deliverMessage E m).run s = (.ok (), (s.picking picks).offer f (sent E m)
      { domainName := some E.domainName, connectorName := some u }) := by
  obtain ⟨t', ht', -, -⟩ := meta_populated (E := E) ht
  have hletter := letter_populated (E := E) m
  obtain ⟨picks, hsend⟩ := run_sendToConnector_connector (E := E) ht' (hletter.content.trans hc)
    ((id_populated m).trans hid) hf (hletter.to_.trans hu) hconn s
  refine ⟨picks, ?_⟩
  rw [deliverMessage, run_bind_ok (run_populateTargetAddress ht s),
    run_bind_ok (run_isCurrentDomainMessage E ht' s), isLocal_populated ht, hloc, if_pos rfl,
    deliverMessageInsideDomain, hsend]
  rfl

/-- A message for another domain that is no wrapper is not delivered. -/
theorem run_deliverMessage_stranded {m : Message} {t : MessageMeta} {c : MessageContent}
    (ht : m.meta_ = some t) (hc : m.content = some c) (htype : c.type ≠ some .INTERNAL_MESSAGE)
    (hloc : isLocal E m = false) (s : State) :
    ∃ e text, (deliverMessage E m).run s = (.error e, s) ∧ e.exception = .illegalState text := by
  obtain ⟨t', ht', -, -⟩ := meta_populated (E := E) ht
  have hc' : (populated E m).content = some c := (letter_populated (E := E) m).content.trans hc
  have hassert : ∃ e text, (assertInternalMessage (populated E m)).run s = (.error e, s) ∧
      e.exception = .illegalState text := by
    rw [assertInternalMessage, run_bind_ok (run_getContent hc' s), if_neg htype]
    exact ⟨_, _, rfl, rfl⟩
  obtain ⟨e, text, he, htext⟩ := hassert
  refine ⟨e, text, ?_, htext⟩
  rw [deliverMessage, run_bind_ok (run_populateTargetAddress ht s),
    run_bind_ok (run_isCurrentDomainMessage E ht' s), isLocal_populated ht, hloc,
    if_neg Bool.false_ne_true, deliverMessageOutsideDomain, run_bind_error he]

/-- The message as it is sent to a neighbouring domain, but for the target. -/
def sentOn (E : Environment) (next : String) (m : Message) : Message :=
  adjusted E ((populated E m).setTo (some (resolveDomainUserId (some next))))

/-- **Delivery** of an internal message for another domain. -/
theorem run_deliverMessage_outside {m : Message} {t : MessageMeta} {c : MessageContent} {n : String}
    {next : Option String → Option String} (ht : m.meta_ = some t) (hc : m.content = some c)
    (htype : c.type = some .INTERNAL_MESSAGE) (hloc : isLocal E m = false)
    (hroutes : E.routes = some next) (hnext : next (domainOf E m) = some n)
    (hblank : isBlank (some n) = false) (s : State) :
    (deliverMessage E m).run s =
      (sendToConnector E ((populated E m).setTo (some (resolveDomainUserId (some n))))).run s := by
  obtain ⟨t', ht', -, -⟩ := meta_populated (E := E) ht
  have hletter := letter_populated (E := E) m
  have hc' : (populated E m).content = some c := hletter.content.trans hc
  have htarget : ∃ a, t'.targetAddress = some a ∧ a.domainName = domainOf E m := by
    have hpop := targetAddress_populated (E := E) ht
    rw [MessageOf.targetAddress, ht', Option.bind_some] at hpop
    exact hpop
  obtain ⟨a, ha, hdom⟩ := htarget
  have hassert : (assertInternalMessage (populated E m)).run s = (.ok (), s) := by
    rw [assertInternalMessage, run_bind_ok (run_getContent hc' s), if_pos htype]
    rfl
  have hlookup : (getNextDomainName E a.domainName (populated E m)).run s = (.ok (some n), s) := by
    rw [getNextDomainName, hroutes, hdom]
    exact congrArg (fun o => (Except.ok o, s)) hnext
  rw [deliverMessage, run_bind_ok (run_populateTargetAddress ht s),
    run_bind_ok (run_isCurrentDomainMessage E ht' s), isLocal_populated ht, hloc,
    if_neg Bool.false_ne_true, deliverMessageOutsideDomain, run_bind_ok hassert,
    run_bind_ok (run_getMeta ht' s)]
  simp only [ha]
  rw [run_bind_ok hlookup, hblank, if_neg Bool.false_ne_true]

/-! ### When a delivery throws -/

variable (E) in
/-- The user has an address. -/
def HasTarget (channels : String → Option (List Address)) (v : Option String) : Prop :=
  isBlank v = false ∧ (isConnectorUser v = true ∨ (v.bind channels).getD [] ≠ [])

theorem targets_ne_nil_iff {v : Option String} {d : Option DeliveryType} {s : State} :
    targets E v d s ≠ [] ↔ HasTarget s.channels v := by
  unfold targets HasTarget
  by_cases hblank : isBlank v = true
  · simp [hblank]
  · by_cases hconn : isConnectorUser v = true
    · simp [hblank, hconn]
    · rw [if_neg hblank, if_neg hconn]
      simp only [hblank, hconn, true_and, Bool.false_eq_true, false_or]
      rcases v.bind s.channels with _ | l
      · exact Iff.rfl
      · show chosen d l s ≠ [] ↔ l ≠ []
        refine ⟨?_, chosen_ne_nil⟩
        rintro h rfl
        refine h ?_
        unfold chosen
        split <;> rfl

/-- The user to whose addresses a message is sent, `none` where it throws on the way. -/
def routedTo (E : Environment) (m : Message) : Option (Option String) :=
  if isLocal E m then some m.to_
  else if m.type = some .INTERNAL_MESSAGE then
    E.routes.bind fun next =>
      if isBlank (next (domainOf E m)) then none
      else some (some (resolveDomainUserId (next (domainOf E m))))
  else none

/-- The delivery of the message does not throw. -/
structure CanDeliver (E : Environment) (channels : String → Option (List Address)) (m : Message) :
    Prop where
  meta_ : m.meta_ ≠ none
  content : m.content ≠ none
  route : ∃ v, routedTo E m = some v ∧ (m.feature = none → ¬ HasTarget channels v)

omit [JavaChar] in
theorem exists_run_persistMessage {m : Message} {c : MessageContent} (hc : m.content = some c)
    (st : Option MessageState) (s : State) :
    ∃ m' s', (persistMessage E m st).run s = (.ok m', s') := by
  have hassign : ∃ m' s', (MessageRepository.assignId E (m.setState st)).run s = (.ok m', s') := by
    unfold MessageRepository.assignId
    split
    · exact ⟨_, _, rfl⟩
    · exact ⟨_, _, rfl⟩
  obtain ⟨m', s', hassign⟩ := hassign
  rw [persistMessage, run_bind_ok (run_getContent (m := m.setState st) hc s)]
  split
  · exact ⟨_, _, run_bind_ok hassign⟩
  · exact ⟨_, _, rfl⟩

omit [JavaChar] in
/-- The producer may refuse a record, but it does not throw. -/
theorem exists_run_express {m : Message} {c : MessageContent} (hc : m.content = some c)
    (delivery : ExpressDeliveryType) (target : Option String) (s : State) :
    ∃ s', (express E delivery target m).run s = (.ok (), s') := by
  obtain ⟨m', s', hpersist⟩ := exists_run_persistMessage (E := E) hc (some .NETWORK_ERROR) s.asked
  have hfailed : (onMessageDeliveryFailed E m).run s.asked = (.ok (), s') := run_bind_ok hpersist
  rcases target with _ | topic
  · exact ⟨_, hfailed⟩
  · by_cases hrefused : s.refused.headD false = true
    · refine ⟨s', ?_⟩
      rw [express, run_read_bind, run_modify_bind]
      simp only [hrefused, if_true]
      exact hfailed
    · refine ⟨s.asked.post [⟨delivery, topic, m⟩], ?_⟩
      rw [express, run_read_bind, run_modify_bind]
      simp only [hrefused]
      rfl

omit [JavaChar] in
theorem exists_run_sendToAddresses {m : Message} {c : MessageContent} {f : MessageFeature}
    (hc : m.content = some c) (hf : c.feature = some f) (l : List Address) (s : State) :
    ∃ s', (sendToAddresses E l m).run s = (.ok (), s') := by
  have hcalc : (calcExpressDelivery m c.feature).run s = (.ok (deliveryOf f), s) := by
    rw [hf]
    cases f <;> rfl
  have hsend : ∀ (a : Address) s, (express E (deliveryOf f) a.connectorName
      (m.setTargetAddress (some a))).run s = (.ok (), ((express E (deliveryOf f) a.connectorName
        (m.setTargetAddress (some a))).run s).2) := by
    intro a s
    obtain ⟨s', hsend⟩ := exists_run_express (E := E) (m := m.setTargetAddress (some a)) hc
      (deliveryOf f) a.connectorName s
    rw [hsend]
  have hloop := run_forEach_ok hsend l s
  rw [sendToAddresses, run_bind_ok (run_getContent hc s), run_bind_ok hcalc]
  exact ⟨_, hloop⟩

/-- A message is sent to its addresses, or stored where there is none, unless it has no feature. -/
theorem exists_run_sendToConnector {m : Message} {t : MessageMeta} {c : MessageContent}
    (ht : m.meta_ = some t) (hc : m.content = some c) {s : State}
    (h : m.feature = none → ¬ HasTarget s.channels m.to_) :
    ∃ s', (sendToConnector E m).run s = (.ok (), s') := by
  have hc' : (adjusted E m).content = some c := (letter_adjusted m).content.trans hc
  by_cases htargets : targets E m.to_ (adjusted E m).deliveryType s = []
  · obtain ⟨picks, hget⟩ := run_getRouteTargetAddresses (E := E) ht s
    obtain ⟨m', s', hpersist⟩ := exists_run_persistMessage (E := E) hc' (some .ADDRESS_NOT_FOUND)
      (s.picking picks)
    refine ⟨s', ?_⟩
    rw [sendToConnector, run_bind_ok (run_adjustDeliveryType ht hc s), run_bind_ok hget, htargets,
      List.isEmpty_nil, if_pos rfl, run_bind_ok hpersist]
    rfl
  · obtain ⟨picks, hsend⟩ := run_sendToConnector_targets ht hc htargets
    have hfeature : m.feature = c.feature := by rw [MessageOf.feature, hc]; rfl
    obtain ⟨f, hf⟩ : ∃ f, c.feature = some f := by
      refine Option.ne_none_iff_exists'.1 fun hnone => ?_
      exact h (hfeature.trans hnone) (targets_ne_nil_iff.1 htargets)
    rw [hsend]
    exact exists_run_sendToAddresses hc' hf _ _

/-- A message without content, or without a feature where it has an address, is not sent. -/
theorem run_sendToConnector_error {m : Message} {t : MessageMeta} (ht : m.meta_ = some t) {s : State}
    (h : m.content = none ∨ m.feature = none ∧ HasTarget s.channels m.to_) :
    ∃ e picks, (sendToConnector E m).run s = (.error e, s.picking picks) := by
  rcases hc : m.content with _ | c
  · have hget : ∀ m' : Message, m'.content = none → ∀ s, (getContent m').run s =
        (.error ⟨.nullPointer, m'⟩, s) := by
      intro m' hm' s
      rw [getContent, hm']
      rfl
    have hd : m.deliveryType = t.deliveryType := by rw [MessageOf.deliveryType, ht]; rfl
    -- `adjustDeliveryType` asks for the content where the message goes to all
    by_cases hall : t.deliveryType = some .ALL
    · refine ⟨⟨.nullPointer, m⟩, s.picks, run_bind_error ?_⟩
      rw [adjustDeliveryType, run_bind_ok (run_getMeta ht s), if_pos hall, run_bind_error (hget m hc s)]
      rfl
    · have hadjust : (adjustDeliveryType E m).run s = (.ok (adjusted E m), s) := by
        rw [adjustDeliveryType, run_bind_ok (run_getMeta ht s), if_neg hall, adjusted, hd,
          if_neg fun h => hall h.1]
        rfl
      have hc' : (adjusted E m).content = none := (letter_adjusted m).content.trans hc
      obtain ⟨picks, hroute⟩ := run_getRouteTargetAddresses (E := E) ht s
      rw [sendToConnector, run_bind_ok hadjust, run_bind_ok hroute]
      have hpersist : ∀ s, (persistMessage E (adjusted E m) (some .ADDRESS_NOT_FOUND)).run s =
          (.error ⟨.nullPointer, (adjusted E m).setState (some .ADDRESS_NOT_FOUND)⟩, s) :=
        fun s => run_bind_error (hget ((adjusted E m).setState (some .ADDRESS_NOT_FOUND)) hc' s)
      have hsend : ∀ l s, (sendToAddresses E l (adjusted E m)).run s =
          (.error ⟨.nullPointer, adjusted E m⟩, s) := fun l s => run_bind_error (hget _ hc' s)
      split
      · exact ⟨_, _, run_bind_error (hpersist _)⟩
      · exact ⟨_, _, hsend _ _⟩
  · -- `sendToAddresses` asks for the feature
    obtain ⟨hf, htarget⟩ := h.resolve_left fun hnone => by cases hc.symm.trans hnone
    have hfeature : c.feature = none := by
      rw [MessageOf.feature, hc] at hf
      exact hf
    obtain ⟨picks, hsend⟩ := run_sendToConnector_targets (E := E) ht hc
      (s := s) (targets_ne_nil_iff.2 htarget)
    rw [hsend, sendToAddresses,
      run_bind_ok (run_getContent ((letter_adjusted m).content.trans hc) _), hfeature]
    exact ⟨_, _, rfl⟩

theorem setTo_populated (m : Message) : (populated E m).setTo m.to_ = populated E m := by
  rw [← (letter_populated (E := E) m).to_]
  rfl

/-- A delivery is sent to the connectors of the user whom the message is routed to. -/
theorem run_deliverMessage_routed {m : Message} {t : MessageMeta} {c : MessageContent}
    (ht : m.meta_ = some t) (hc : m.content = some c) {v : Option String} (hv : routedTo E m = some v)
    (s : State) :
    (deliverMessage E m).run s = (sendToConnector E ((populated E m).setTo v)).run s := by
  obtain ⟨t', ht', -, -⟩ := meta_populated (E := E) ht
  unfold routedTo at hv
  split_ifs at hv with hloc htype
  · cases hv
    rw [deliverMessage, run_bind_ok (run_populateTargetAddress ht s),
      run_bind_ok (run_isCurrentDomainMessage E ht' s), isLocal_populated ht, hloc, if_pos rfl,
      setTo_populated]
    rfl
  · obtain ⟨next, hroutes, hnext⟩ := Option.bind_eq_some_iff.1 hv
    split_ifs at hnext with hblank
    cases hnext
    obtain ⟨n, hn⟩ : ∃ n, next (domainOf E m) = some n := by
      cases hn : next (domainOf E m) with
      | none => rw [hn] at hblank; exact absurd rfl hblank
      | some n => exact ⟨n, rfl⟩
    rw [hn] at hblank ⊢
    have htype' : c.type = some .INTERNAL_MESSAGE := by
      rw [MessageOf.type, hc] at htype
      exact htype
    exact run_deliverMessage_outside ht hc htype' (by simpa using hloc) hroutes hn
      (by simpa using hblank) s

theorem exists_sendToConnector {m : Message} {t : MessageMeta} {c : MessageContent}
    (ht : m.meta_ = some t) (hc : m.content = some c) {v : Option String} (hv : routedTo E m = some v) :
    ∃ x t', (∀ s, (deliverMessage E m).run s = (sendToConnector E x).run s) ∧ x.meta_ = some t' ∧
      x.content = some c ∧ x.id = m.id ∧ x.to_ = v := by
  obtain ⟨t', ht', -, -⟩ := meta_populated (E := E) ht
  exact ⟨(populated E m).setTo v, t', run_deliverMessage_routed ht hc hv, ht',
    (letter_populated (E := E) m).content.trans hc, id_populated m, rfl⟩

/-- The delivery of a message that can be delivered comes to its end. -/
theorem exists_run_deliverMessage {m : Message} {s : State} (h : CanDeliver E s.channels m) :
    ∃ s', (deliverMessage E m).run s = (.ok (), s') := by
  obtain ⟨hmeta, hcontent, v, hroute, hfeature⟩ := h
  obtain ⟨t, ht⟩ := Option.ne_none_iff_exists'.1 hmeta
  obtain ⟨c, hc⟩ := Option.ne_none_iff_exists'.1 hcontent
  obtain ⟨t', ht', -, -⟩ := meta_populated (E := E) ht
  have hletter := letter_populated (E := E) m
  rw [run_deliverMessage_routed ht hc hroute]
  have hsent : ((populated E m).setTo v).feature = m.feature := hletter.feature
  exact exists_run_sendToConnector (m := (populated E m).setTo v) ht' (hletter.content.trans hc)
    fun hnone => hfeature (hsent.symm.trans hnone)

/-- **When a delivery throws**: exactly where the message cannot be delivered, and then nothing has been
sent or stored. -/
theorem run_deliverMessage_error {m : Message} {s : State} (h : ¬ CanDeliver E s.channels m) :
    ∃ e picks, (deliverMessage E m).run s = (.error e, s.picking picks) := by
  rcases ht : m.meta_ with _ | t
  · have hget : (getMeta m).run s = (.error ⟨.nullPointer, m⟩, s) := by
      rw [getMeta, ht]
      rfl
    exact ⟨_, s.picks, run_bind_error (run_bind_error hget)⟩
  obtain ⟨t', ht', -, -⟩ := meta_populated (E := E) ht
  have hletter := letter_populated (E := E) m
  have hrun : (deliverMessage E m).run s = (if isLocal E m then
      deliverMessageInsideDomain E (populated E m)
      else deliverMessageOutsideDomain E (populated E m) : Proc Unit).run s := by
    rw [deliverMessage, run_bind_ok (run_populateTargetAddress ht s),
      run_bind_ok (run_isCurrentDomainMessage E ht' s), isLocal_populated ht]
  -- what is left to fail once it is known where the message goes
  have hleft : ∀ v, routedTo E m = some v →
      m.content = none ∨ m.feature = none ∧ HasTarget s.channels v := by
    intro v hv
    by_contra hcon
    rw [not_or] at hcon
    exact h ⟨by simp [ht], hcon.1, v, hv, fun hnone htarget => hcon.2 ⟨hnone, htarget⟩⟩
  rw [hrun]
  by_cases hloc : isLocal E m = true
  · rw [if_pos hloc]
    refine run_sendToConnector_error ht' ?_
    rw [hletter.content, hletter.feature, hletter.to_]
    exact hleft m.to_ (by rw [routedTo, if_pos hloc])
  rw [if_neg hloc]
  rcases hc : m.content with _ | c
  · have hget : (getContent (populated E m)).run s = (.error ⟨.nullPointer, populated E m⟩, s) := by
      rw [getContent, hletter.content, hc]
      rfl
    exact ⟨_, s.picks, run_bind_error (run_bind_error hget)⟩
  have htype : m.type = c.type := by rw [MessageOf.type, hc]; rfl
  by_cases hinternal : c.type = some .INTERNAL_MESSAGE
  · have hassert : (assertInternalMessage (populated E m)).run s = (.ok (), s) := by
      rw [assertInternalMessage, run_bind_ok (run_getContent (hletter.content.trans hc) s),
        if_pos hinternal]
      rfl
    obtain ⟨a, ha, hdom⟩ := targetAddress_populated (E := E) ht
    rw [MessageOf.targetAddress, ht', Option.bind_some] at ha
    rw [deliverMessageOutsideDomain, run_bind_ok hassert, run_bind_ok (run_getMeta ht' s)]
    simp only [ha, getNextDomainName, hdom]
    rcases hroutes : E.routes with _ | next
    · exact ⟨_, s.picks, rfl⟩
    simp only [Exec.run_pure_bind]
    by_cases hblank : isBlank (next (domainOf E m)) = true
    · rw [if_pos hblank]
      exact ⟨_, s.picks, rfl⟩
    · rw [if_neg hblank]
      refine run_sendToConnector_error (E := E) (s := s) (m := (populated E m).setTo
        (some (resolveDomainUserId (next (domainOf E m))))) ht' ?_
      have hroute : routedTo E m = some (some (resolveDomainUserId (next (domainOf E m)))) := by
        rw [routedTo, if_neg hloc, htype, if_pos hinternal, hroutes, Option.bind_some, if_neg hblank]
      rcases hleft _ hroute with hnone | ⟨hnone, htarget⟩
      · exact .inl (hletter.content.trans hnone)
      · exact .inr ⟨hletter.feature.trans hnone, htarget⟩
  · obtain ⟨e, -, he, -⟩ := run_deliverMessage_stranded (E := E) ht hc hinternal (by simpa using hloc) s
    rw [hrun, if_neg hloc] at he
    exact ⟨e, s.picks, he⟩

theorem returns_deliverMessage_iff {m : Message} {s : State} :
    Returns (deliverMessage E m) s ↔ CanDeliver E s.channels m := by
  by_cases h : CanDeliver E s.channels m
  · obtain ⟨s', hrun⟩ := exists_run_deliverMessage h
    exact iff_of_true ⟨(), s', hrun⟩ h
  · obtain ⟨e, picks, hrun⟩ := run_deliverMessage_error h
    exact iff_of_false (not_returns hrun) h

end Processor

end Linker
