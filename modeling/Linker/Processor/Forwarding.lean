import Linker.Processor.Delivery
import Linker.Processor.Effects

/-!
# Messages between domains

How `process` takes a message for one recipient towards another domain: the sender's domain wraps it in
an internal message, each domain on the way builds a new wrapper around what its tunnel brings, and the
home of the recipient unwraps it and processes it as if it came from its own connectors.

## Main results

* `run_process_outside` : the message leaves the domain in a wrapper.
* `run_handleInternalMessage_onward` : a domain on the way sends what it gets to the next one.
* `run_handleInternalMessage_home` : the home of the recipient calls `process` once on the message.
-/

namespace Linker

open Processor

namespace Processor

open ProcessorUtils ClientAppService MessageProcessorService PostOffice DomainService Exec

/-- Whom a message is for: the recipient that the handler of its type fills in, `none` for the types
that are not for a single user. -/
def recipient (m : Message) : Option String :=
  match m.type, m.data with
  | some .MESSAGE, .messageRequest d => d.to_
  | some .MESSAGE_CONFIRMATION, .messageConfirmation _ => m.to_
  | some .CLOSE_CONNECTION, .closeConnection u => u
  | some .USER_CONNECTED, .userConnected _ => m.to_
  | some .USER_DISCONNECTED, .userDisconnected _ => m.to_
  | _, _ => none

/-- A wrapper under the recipient that `InternalMessageProcessor` gives it. -/
def opened (m i : Message) : Message := if isBlank m.to_ then m.setTo i.to_ else m

theorem opened_touch (m i : Message) : opened m.touch i = (opened m i).touch := by
  unfold opened
  rw [show m.touch.to_ = m.to_ from rfl]
  split
  · rfl
  · rfl

/-- The state after `process` starts on a message. -/
def State.noting (m : Message) (s : State) : State :=
  { s with journal := s.journal ++ [.processing m] }

variable [JavaChar] {E : Environment}

/-- The handler of a message for one user prepares it by filling in the recipient. -/
theorem exists_prepare {m : Message} {v : String} (h : recipient m = some v)
    (process : Message → Proc Unit) :
    ∃ c p, m.content = some c ∧ c.type ≠ some .INTERNAL_MESSAGE ∧
      getMessageProcessor E process c.type = some p ∧
      ∀ s, (p.preprocess m).run s = (.ok (m.setTo (some v)), s) := by
  obtain ⟨id, version, content, from_, to_, meta_, createdAt, state⟩ := m
  cases content with
  | none => cases h
  | some c =>
    obtain ⟨type, data, reference, feature, confirmation⟩ := c
    refine ⟨⟨type, data, reference, feature, confirmation⟩, ?_⟩
    unfold recipient at h
    split at h
    · next d ht hd =>
      cases ht; cases hd
      exact ⟨_, rfl, nofun, rfl, fun _ => by rw [← h]; rfl⟩
    · next r ht hd =>
      cases ht; cases hd; cases h
      exact ⟨_, rfl, nofun, rfl, fun _ => rfl⟩
    · next u ht hd =>
      cases ht; cases hd; cases h
      exact ⟨_, rfl, nofun, rfl, fun _ => rfl⟩
    · next u ht hd =>
      cases ht; cases hd; cases h
      exact ⟨_, rfl, nofun, rfl, fun _ => rfl⟩
    · next u ht hd =>
      cases ht; cases hd; cases h
      exact ⟨_, rfl, nofun, rfl, fun _ => rfl⟩
    · cases h

/-! ### One call of `process` -/

section

variable {m : Message} {t : MessageMeta} {c : MessageContent} (process : Message → Proc Unit)

/-- A message whose TTL is used up. -/
theorem run_processWith_dead (ht : m.meta_ = some t) (hdead : t.touch.isAlive = false) (s : State) :
    (processWith E process m).run s = (.ok (), s.noting m) := by
  have ht' : m.touch.meta_ = some t.touch := by rw [MessageOf.touch, MessageOf.updateMeta_meta, ht]; rfl
  have hnote : (Proc.note (.processing m)).run s = (.ok (), s.noting m) := rfl
  rw [processWith, run_bind_ok hnote, run_bind_ok (run_getMeta ht _), run_bind_ok (run_getMeta ht' _),
    hdead, Bool.not_false, if_pos rfl]
  rfl

/-- A message that is alive, once its handler has prepared it. -/
theorem run_processWith_prepared {p : MessageProcessor} {m' : Message} (ht : m.meta_ = some t)
    (halive : t.touch.isAlive = true) (hc : m.content = some c) (htype : c.type ≠ some .INTERNAL_MESSAGE)
    (hp : getMessageProcessor E process c.type = some p)
    (hprep : ∀ s, (p.preprocess m.touch).run s = (.ok m', s)) (ht' : m'.meta_ = some t.touch)
    (s : State) :
    (processWith E process m).run s =
      (if isLocal E m' then p.process m' else processCrossDomainMessage E process m' : Proc Unit).run
        (s.noting m) := by
  have htouch : m.touch.meta_ = some t.touch := by
    rw [MessageOf.touch, MessageOf.updateMeta_meta, ht]; rfl
  have hc' : m.touch.content = some c := hc
  have hnote : (Proc.note (.processing m)).run s = (.ok (), s.noting m) := rfl
  rw [processWith, run_bind_ok hnote, run_bind_ok (run_getMeta ht _),
    run_bind_ok (run_getMeta htouch _), halive, Bool.not_true, if_neg Bool.false_ne_true,
    run_bind_ok (run_getContent hc' _), hp]
  simp only
  rw [run_bind_ok (hprep _), if_pos htype, run_bind_ok (run_isCurrentDomainMessage E ht' _)]

/-- The wrapping of a message for another domain. -/
theorem run_processCrossDomainMessage (ht : m.meta_ = some t) (hc : m.content = some c)
    (htype : c.type ≠ some .INTERNAL_MESSAGE) (s : State) :
    (processCrossDomainMessage E process m).run s =
      (Proc.during m (process (internalMessage (E.blank s.serial) m c.feature (domainOf E m)))).run
        s.next := by
  rw [processCrossDomainMessage, run_bind_ok (run_getContent hc _), if_neg htype,
    run_bind_ok (run_builder E _), run_bind_ok (run_getMeta ht _),
    run_bind_ok (run_resolveDomainName E ht _)]

/-- A message for a user of another domain is wrapped. -/
theorem run_processWith_outside {v : String} (ht : m.meta_ = some t) (halive : t.touch.isAlive = true)
    (hc : m.content = some c) (hv : recipient m = some v)
    (hloc : isLocal E (m.touch.setTo (some v)) = false) (s : State) :
    (processWith E process m).run s =
      (Proc.during (m.touch.setTo (some v)) (process (internalMessage (E.blank s.serial)
        (m.touch.setTo (some v)) c.feature (domainOf E (m.touch.setTo (some v)))))).run
          (s.noting m).next := by
  obtain ⟨c', p, hc', htype, hp, hprep⟩ := exists_prepare (E := E) (m := m.touch) hv process
  cases hc.symm.trans hc'
  have ht' : (m.touch.setTo (some v)).meta_ = some t.touch := by
    rw [MessageOf.setTo_meta, MessageOf.touch, MessageOf.updateMeta_meta, ht]; rfl
  rw [run_processWith_prepared process ht halive hc htype hp hprep ht', hloc,
    if_neg Bool.false_ne_true, run_processCrossDomainMessage process ht' hc' htype]
  rfl

/-- A message for a user of the domain goes to its handler. -/
theorem run_processWith_inside {v : String} (ht : m.meta_ = some t) (halive : t.touch.isAlive = true)
    (hc : m.content = some c) (hv : recipient m = some v)
    (hloc : isLocal E (m.touch.setTo (some v)) = true) :
    ∃ p, getMessageProcessor E process c.type = some p ∧
      ∀ s, (processWith E process m).run s = (p.process (m.touch.setTo (some v))).run (s.noting m) := by
  obtain ⟨c', p, hc', htype, hp, hprep⟩ := exists_prepare (E := E) (m := m.touch) hv process
  cases hc.symm.trans hc'
  have ht' : (m.touch.setTo (some v)).meta_ = some t.touch := by
    rw [MessageOf.setTo_meta, MessageOf.touch, MessageOf.updateMeta_meta, ht]; rfl
  refine ⟨p, hp, fun s => ?_⟩
  rw [run_processWith_prepared process ht halive hc htype hp hprep ht', hloc, if_pos rfl]

/-- What `process` does with a wrapper, under the recipient that is taken from the message inside where
it has none. -/
theorem run_processWith_opened (ht : m.meta_ = some t) (halive : t.touch.isAlive = true)
    (hc : m.content = some c) (htype : c.type = some .INTERNAL_MESSAGE) {i : Message}
    (hdata : c.data = .message i) (s : State) :
    (processWith E process m).run s =
      (if isLocal E (opened m.touch i) then Proc.during (opened m.touch i) (process i)
        else deliverMessage E (opened m.touch i) : Proc Unit).run (s.noting m) := by
  have ht' : m.touch.meta_ = some t.touch := by rw [MessageOf.touch, MessageOf.updateMeta_meta, ht]; rfl
  have hnote : (Proc.note (.processing m)).run s = (.ok (), s.noting m) := rfl
  have hc' : m.touch.content = some c := hc
  have hconvert : c.data.convert Data.message? = .ok (some i) := by rw [hdata]; rfl
  have hget : ∀ (m' : Message), m'.content = m.touch.content → ∀ s,
      (getData Data.message? m').run s = (.ok (some i), s) :=
    fun m' hm' s => run_getData (hm'.trans hc') hconvert s
  have hinner : ∀ (m' : Message), m'.content = m.touch.content → ∀ s,
      (InternalMessageProcessor.innerMessage m').run s = (.ok i, s) := by
    intro m' hm' s
    rw [InternalMessageProcessor.innerMessage, run_bind_ok (hget m' hm' _)]
    rfl
  have hopened : (opened m.touch i).content = m.touch.content ∧
      (opened m.touch i).meta_ = some t.touch := by
    unfold opened
    split
    · exact ⟨rfl, ht'⟩
    · exact ⟨rfl, ht'⟩
  rw [processWith, run_bind_ok hnote, run_bind_ok (run_getMeta ht _), run_bind_ok (run_getMeta ht' _),
    halive, Bool.not_true, if_neg Bool.false_ne_true, run_bind_ok (run_getContent hc' _), htype]
  have hprep : ((InternalMessageProcessor.processor E process).preprocess m.touch).run (s.noting m) =
      (.ok (opened m.touch i), s.noting m) := by
    rw [MessageProcessor.preprocess]
    refine (run_bind_ok (hget _ rfl _)).trans ?_
    simp only [InternalMessageProcessor.processor, opened]
    by_cases hblank : isBlank m.touch.to_ = true
    · rw [if_pos hblank, if_pos hblank, run_bind_ok (hinner _ rfl _)]
      rfl
    · rw [if_neg hblank, if_neg hblank]
      rfl
  simp only [getMessageProcessor]
  rw [run_bind_ok hprep, if_neg (fun h => h rfl), MessageProcessor.process]
  refine (run_bind_ok (hget _ hopened.1 _)).trans ?_
  simp only [InternalMessageProcessor.processor]
  rw [run_bind_ok (run_isCurrentDomainMessage E hopened.2 _)]
  by_cases hloc : isLocal E (opened m.touch i) = true
  · rw [hloc, if_pos rfl, if_pos rfl, run_bind_ok (hinner _ hopened.1 _)]
  · rw [if_neg hloc, if_neg hloc]

/-- What `process` does with a wrapper that has a recipient. -/
theorem run_processWith_wrapper (ht : m.meta_ = some t) (halive : t.touch.isAlive = true)
    (hc : m.content = some c) (htype : c.type = some .INTERNAL_MESSAGE) {i : Message}
    (hdata : c.data = .message i) (hto : isBlank m.to_ = false) (s : State) :
    (processWith E process m).run s =
      (if isLocal E m.touch then Proc.during m.touch (process i)
        else deliverMessage E m.touch : Proc Unit).run (s.noting m) := by
  have hblank : ¬ isBlank m.touch.to_ = true := (Bool.not_eq_true _).mpr hto
  have hopened : opened m.touch i = m.touch := if_neg hblank
  rw [run_processWith_opened process ht halive hc htype hdata, hopened]

end

/-! ### Wrappers -/

/-- A new wrapper around the message `i`. -/
structure IsWrapper (w i : Message) (f : MessageFeature) : Prop where
  id : ∃ k, w.id = some k
  meta_ : ∃ t, w.meta_ = some t ∧ t.ttl = some 10
  content : ∃ c, w.content = some c ∧ c.type = some .INTERNAL_MESSAGE ∧ c.data = .message i ∧
    c.feature = some f
  to_ : w.to_ = i.to_

omit [JavaChar] in
theorem IsWrapper.type {w i : Message} {f : MessageFeature} (hw : IsWrapper w i f) :
    MessageOf.type w = some .INTERNAL_MESSAGE := by
  obtain ⟨c, hc, htype, -⟩ := hw.content
  rw [MessageOf.type, hc]
  exact htype

omit [JavaChar] in
theorem IsWrapper.data {w i : Message} {f : MessageFeature} (hw : IsWrapper w i f) :
    MessageOf.data w = .message i := by
  obtain ⟨c, hc, -, hdata, -⟩ := hw.content
  rw [MessageOf.data, hc]
  exact hdata

omit [JavaChar] in
theorem isWrapper_internalMessage (n : ℕ) (i : Message) (f : MessageFeature) (d : Option String) :
    IsWrapper (internalMessage (E.blank n) i (some f) d) i f :=
  ⟨⟨_, rfl⟩, ⟨_, rfl, rfl⟩, ⟨_, rfl, rfl, rfl, rfl⟩, rfl⟩

omit [JavaChar] in
theorem isWrapper_msgWrapper {i : Message} {t : MessageMeta} {c : MessageContent} {f : MessageFeature}
    (hf : c.feature = some f) (n : ℕ) :
    IsWrapper (msgWrapper (E.blank n) i (some .INTERNAL_MESSAGE) (.message i) t c) i f :=
  ⟨⟨_, rfl⟩, ⟨_, rfl, rfl⟩, ⟨_, rfl, rfl, rfl, hf⟩, rfl⟩

omit [JavaChar] in
theorem isAlive_touch {t : MessageMeta} {n : ℤ} (h : t.ttl = some n) (hn : 0 < wrap32 (n - 1)) :
    t.touch.isAlive = true := by
  show decide (0 < wrap32 (t.ttl.getD 10 - 1)) = true
  rw [h]
  exact decide_eq_true hn

/-- No app is named by the keyword. -/
theorem resolveDomain_processor : resolveDomain E (some Keywords.PROCESSOR) = some E.domainName := by
  have hsplit : split Keywords.PROCESSOR = ["Processor"] := by decide +kernel
  have hparse : NameRecord.parse (some Keywords.PROCESSOR) = {} := by
    rw [NameRecord.parse, hsplit]
    split_ifs <;> rfl
  have happ : getClientAppByUserId E (some Keywords.PROCESSOR) = none := by
    rw [getClientAppByUserId, hparse]
    simp [NameRecord.isValid]
  rw [resolveDomain, happ]

theorem isProcessorUser_processor : isProcessorUser (some Keywords.PROCESSOR) = true := by
  rw [isProcessorUser, isBlank_processor]
  simp [startsWithIgnoreCase]

theorem isBlank_resolveDomainUserId (n : Option String) :
    isBlank (some (resolveDomainUserId n)) = false := by
  simp [isBlank, resolveDomainUserId, isWhitespace]

/-- An internal message goes to one address. -/
theorem deliveryType_adjusted {m : Message} (h : m.type = some .INTERNAL_MESSAGE) :
    (adjusted E m).deliveryType ≠ some .ALL := by
  unfold adjusted
  intro hall
  split at hall
  · next hm =>
    obtain ⟨t, ht, -⟩ := Option.bind_eq_some_iff.1 hm.1
    simp [MessageOf.deliveryType, MessageOf.setDeliveryType, ht] at hall
  · next hm =>
    refine hm ⟨hall, ?_⟩
    simp [h]

theorem targets_of_channel {u : String} {d : Option DeliveryType} {s : State} {l : List Address}
    (hblank : isBlank (some u) = false) (hconn : isConnectorUser (some u) = false)
    (hd : d ≠ some .ALL) (hl : s.channels u = some l) (hne : l ≠ []) :
    ∃ a ∈ l, targets E (some u) d s = [a] := by
  have haddresses : UserChannelService.addressesOf s.channels u = l := by
    rw [UserChannelService.addressesOf, hl]
    rfl
  have hlt : s.picks.headD 0 % l.length < l.length := Nat.mod_lt _ (List.length_pos_iff.2 hne)
  refine ⟨_, List.getElem_mem hlt, ?_⟩
  rw [targets_of_user hblank hconn, haddresses, chosen, if_neg hd, List.getElem?_eq_getElem hlt]
  rfl

/-- The next domain for a message, and the addresses at which its domain user is connected. -/
structure Neighbour (E : Environment) (s : State) (target : Option String) (n : String)
    (l : List Address) : Prop where
  next : ∃ next, E.routes = some next ∧ next target = some n
  nonblank : isBlank (some n) = false
  user : isConnectorUser (some (resolveDomainUserId (some n))) = false
  channel : s.channels (resolveDomainUserId (some n)) = some l
  ne_nil : l ≠ []
  named : ∀ a ∈ l, a.connectorName ≠ none

/-- The record that takes a wrapper to the next domain. -/
def onward (E : Environment) (f : MessageFeature) (n : String) (w : Message) (a : Address) : Parcel :=
  copyTo f (sentOn E n w.touch) a

/-- The wrapper in which a message leaves the domain. -/
def wrapperOf (E : Environment) (m : Message) (c : MessageContent) (s : State) : Message :=
  internalMessage (E.blank s.serial) m c.feature (domainOf E m)

theorem isLocal_wrapperOf {c : MessageContent} (m : Message) (s : State) :
    isLocal E (wrapperOf E m c s) = isLocal E m := rfl

/-- A message for another domain is wrapped, and the wrapper is delivered. -/
theorem run_process_away {m m' : Message} {t : MessageMeta} {c : MessageContent}
    {p : MessageProcessor} {depth : ℕ} (ht : m.meta_ = some t) (halive : t.touch.isAlive = true)
    (hc : m.content = some c) (htype : c.type ≠ some .INTERNAL_MESSAGE)
    (hp : getMessageProcessor E (Processor.process E (depth + 1)) c.type = some p)
    (hprep : ∀ s, (p.preprocess m.touch).run s = (.ok m', s)) (ht' : m'.meta_ = some t.touch)
    (hc' : m'.content = some c) (hloc : isLocal E m' = false) (s : State) :
    (Processor.process E (depth + 2) m).run s =
      ((deliverMessage E (wrapperOf E m' c (s.noting m)).touch).reraise
        fun e => ⟨e.exception, m'⟩).run
          ((s.noting m).next.noting (wrapperOf E m' c (s.noting m))) := by
  have hto : isBlank (wrapperOf E m' c (s.noting m)).to_ = false := by
    rw [isLocal, Bool.or_eq_false_iff] at hloc
    exact hloc.1
  have hwrapper := run_processWith_wrapper (E := E) (m := wrapperOf E m' c (s.noting m))
    (Processor.process E depth) rfl (isAlive_touch rfl (by decide)) rfl rfl rfl hto
    (s.noting m).next
  rw [isLocal_touch, isLocal_wrapperOf, hloc, if_neg Bool.false_ne_true] at hwrapper
  have hinner : (Processor.process E (depth + 1) (wrapperOf E m' c (s.noting m))).run
      (s.noting m).next = (deliverMessage E (wrapperOf E m' c (s.noting m)).touch).run
        ((s.noting m).next.noting (wrapperOf E m' c (s.noting m))) := hwrapper
  rw [Processor.process, run_processWith_prepared _ ht halive hc htype hp hprep ht', hloc,
    if_neg Bool.false_ne_true, run_processCrossDomainMessage _ ht' hc' htype, Proc.during,
    run_reraise, run_reraise, ← hinner]
  rfl

/-- A tunnel's message in its new wrapper. -/
theorem run_handleInternalMessage {i : Message} {u : MessageMeta} {c : MessageContent}
    (hu : i.meta_ = some u) (hc : i.content = some c) (s : State) :
    (DomainService.handleInternalMessage E (some .INTERNAL_MESSAGE) (.message i)).run s =
      (PostOffice.onMessageArrived E (DomainService.msgWrapper (E.blank s.serial) i
        (some .INTERNAL_MESSAGE) (.message i) u c)).run s.next := by
  have hconvert : (Data.message i).convert Data.message? = .ok (some i) := rfl
  rw [DomainService.handleInternalMessage, run_bind_ok (run_builder E s)]
  simp only [hconvert]
  rw [run_bind_ok (run_getMeta hu _), run_bind_ok (run_getContent hc _)]

/-- A wrapper for another domain is offered to the producer, for one address of the next domain. -/
theorem run_process_onward {w i : Message} {f : MessageFeature} {s : State} {n : String}
    {l : List Address} (hw : IsWrapper w i f) (hloc : isLocal E w = false)
    (hn : Neighbour E s (domainOf E w) n l) (depth : ℕ) :
    ∃ a ∈ l, ∃ picks, (Processor.process E (depth + 1) w).run s =
      (.ok (), ((s.noting w).picking picks).offer f (sentOn E n w.touch) a) := by
  obtain ⟨k, hid⟩ := hw.id
  obtain ⟨t, ht, httl⟩ := hw.meta_
  obtain ⟨c, hc, htype, hdata, hf⟩ := hw.content
  obtain ⟨next, hroutes, hnext⟩ := hn.next
  have ht' : w.touch.meta_ = some t.touch := by rw [MessageOf.touch, MessageOf.updateMeta_meta, ht]; rfl
  have halive : t.touch.isAlive = true := isAlive_touch httl (by decide)
  have hto : isBlank w.to_ = false := by
    rw [isLocal, Bool.or_eq_false_iff] at hloc
    exact hloc.1
  -- a wrapper goes to one of the addresses, whatever the delivery type was
  have hd : (sentOn E n w.touch).deliveryType ≠ some .ALL := by
    refine deliveryType_adjusted ?_
    rw [MessageOf.setTo_type, (letter_populated w.touch).type, MessageOf.type]
    show w.content.bind (·.type) = _
    rw [hc]
    exact htype
  obtain ⟨a, ha, htargets⟩ := targets_of_channel (E := E) (s := s.noting w)
    (isBlank_resolveDomainUserId _) hn.user hd hn.channel hn.ne_nil
  have hdeliver := run_deliverMessage_outside (E := E) ht' (c := c) hc htype
    (by rw [isLocal_touch]; exact hloc) hroutes (by rw [domainOf_touch]; exact hnext) hn.nonblank
    (s.noting w)
  obtain ⟨t₁, ht₁, -⟩ := meta_populated (E := E) ht'
  have hletter := letter_populated (E := E) w.touch
  have hne : targets E (some (resolveDomainUserId (some n))) (sentOn E n w.touch).deliveryType
      (s.noting w) ≠ [] := by
    rw [htargets]
    exact List.cons_ne_nil _ _
  obtain ⟨picks, hsend⟩ := run_sendToConnector_targets (E := E)
    (m := (populated E w.touch).setTo (some (resolveDomainUserId (some n)))) ht₁
    (hletter.content.trans hc) hne
  refine ⟨a, ha, picks, ?_⟩
  show (processWith E (Processor.process E depth) w).run s = _
  rw [run_processWith_wrapper _ ht halive hc htype hdata hto, isLocal_touch, hloc,
    if_neg Bool.false_ne_true, hdeliver, hsend]
  have hc' : (sentOn E n w.touch).content = some c :=
    (letter_adjusted _).content.trans (hletter.content.trans hc)
  have hid' : (sentOn E n w.touch).id = some k :=
    (id_adjusted _).trans ((id_populated w.touch).trans hid)
  have hone := run_sendToAddress (E := E) hc' hid' hf (hn.named a ha) ((s.noting w).picking picks)
  rw [← htargets] at hone
  exact hone

end Processor

end Linker
