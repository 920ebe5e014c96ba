import Linker.Connector.Receipts
import Linker.Domain.Compliance
import Linker.Processor.Copies
import Linker.Processor.FanOut
import Linker.Processor.Fetching
import Linker.Processor.Forwarding
import Linker.Processor.Letters
import Linker.Processor.Processed

/-!
# What a confirmation means

A `MESSAGE_CONFIRMATION` is made where a processor consumes the report that a `MESSAGE` has been
processed.  Connectors make such reports, each for a message that it has written to the socket of a
user, and of the messages for users only those whose home is the domain come to its connectors.  No
report leaves its domain, alone or in a wrapper.

## Main results

* `Processor.homeRules` : the homes of recipients through every handler of a processor.
* `Domain.Vouched` : every report in a domain is on a message that one of its connectors has written.
* `Alliance.confirmed_of_written` : who gets a confirmation has had a message delivered.
-/

namespace Linker

/-- A message for a user that is not addressed to a socket yet. -/
def Untargeted (m : Message) : Prop := m.type = some .MESSAGE → m.targetAddress = none

/-- What may be in a wrapper: no report, and no message that is addressed to a socket. -/
def Wrappable : Message → Prop := MessageOf.Carries Untargeted fun _ _ => False

theorem wrappable_of_type {m : Message} (ty : MessageType) (ht : m.type = some ty)
    (hne : ty ∉ [.MESSAGE, .INTERNAL_MESSAGE, .MESSAGE_STATE_CHANGED]) : Wrappable m := by
  simp only [List.mem_cons, List.not_mem_nil, or_false, not_or] at hne
  have hinj : ∀ ty', m.type = some ty' → ty = ty' := fun _ h => Option.some.inj (ht.symm.trans h)
  refine (MessageOf.carries_plain (fun h => hne.2.1 (hinj _ h)) fun h => hne.2.2 (hinj _ h)).2 ?_
  exact fun h => absurd (hinj _ h) hne.1

theorem not_wrappable_report {m msg : Message} {st : Option MessageState}
    (ht : m.type = some .MESSAGE_STATE_CHANGED) (hd : m.data = .messageStateChanged (some msg) st) :
    ¬ Wrappable m :=
  (MessageOf.carries_report ht hd).1

/-- What `touch` and a new recipient leave as it is. -/
theorem Wrappable.congr {m m' : Message} (h : Wrappable m) (hd : m'.data = m.data)
    (ht : m'.type = m.type) (ha : m.targetAddress = none → m'.targetAddress = none) : Wrappable m' :=
  MessageOf.Carries.congr h hd ht fun hm htype => ha (hm (ht ▸ htype))

namespace Processor

open ProcessorUtils ClientAppService
open CustomGroupMessageProcessor (AtHome)

variable [JavaChar] (E : Environment)

/-- What the connectors of a domain get: messages for users whose home it is, and wrappers. -/
structure Homely (m : Message) : Prop where
  message : m.type = some .MESSAGE → AtHome E m.to_
  internal : m.type = some .INTERNAL_MESSAGE → ∀ i, m.data = .message i → Wrappable i
  connector : m.type = some .GROUP_CONNECTOR_MESSAGE → ∀ d all,
    m.data = .groupConnectorMessage d → d.connectorUserIds = some all →
    ∀ x ∈ all, AtHome E x.userId

/-- What the processors of a domain get: reports for them, and what may be in a wrapper. -/
def Receivable (m : Message) : Prop :=
  (∃ msg st, m.type = some .MESSAGE_STATE_CHANGED ∧ m.data = .messageStateChanged (some msg) st ∧
    isLocal E m = true ∧ Homely E msg) ∨ Wrappable m

variable {E}

theorem Homely.congr {m m' : Message} (h : m.SameLetter m') (hm : Homely E m) : Homely E m' where
  message ht := h.to_ ▸ hm.message (h.type ▸ ht)
  internal ht i hd := hm.internal (h.type ▸ ht) i (h.data ▸ hd)
  connector ht d all hd := hm.connector (h.type ▸ ht) d all (h.data ▸ hd)

theorem homely_of_type {m : Message} (ty : MessageType) (ht : m.type = some ty)
    (hne : ty ∉ [.MESSAGE, .INTERNAL_MESSAGE, .GROUP_CONNECTOR_MESSAGE]) : Homely E m := by
  simp only [List.mem_cons, List.not_mem_nil, or_false, not_or] at hne
  have hinj : ∀ ty', m.type = some ty' → ty = ty' := fun _ h => Option.some.inj (ht.symm.trans h)
  exact ⟨fun h => absurd (hinj _ h) hne.1, fun h => absurd (hinj _ h) hne.2.1,
    fun h => absurd (hinj _ h) hne.2.2⟩

/-- Nobody else than the current domain is the home of a blank user. -/
theorem atHome_of_isBlank {u : Option String} (h : isBlank u = true) : AtHome E u := by
  have happ : getClientAppByUserId E u = none := by
    have hparse : NameRecord.parse u = {} := by
      cases u with
      | none => rfl
      | some u => rw [NameRecord.parse, if_pos h]
    rw [getClientAppByUserId, hparse]
    simp [NameRecord.isValid]
  rw [AtHome, resolveDomain, happ]
  exact equalsIgnoreCase_refl _

theorem atHome_of_isLocal {m : Message} (hm : m.targetAddress = none) (hloc : isLocal E m = true) :
    AtHome E m.to_ := by
  rw [isLocal, domainOf, hm, Bool.or_eq_true] at hloc
  exact hloc.elim atHome_of_isBlank id

theorem Receivable.wrappable {m : Message} (hm : Receivable E m)
    (ht : m.type ≠ some .MESSAGE_STATE_CHANGED) : Wrappable m :=
  hm.resolve_left fun ⟨_, _, h, _⟩ => ht h

theorem Receivable.homely {m msg : Message} {st : Option MessageState} (hm : Receivable E m)
    (ht : m.type = some .MESSAGE_STATE_CHANGED) (hd : m.data = .messageStateChanged (some msg) st) :
    Homely E msg := by
  obtain ⟨msg', st', -, hd', -, hmsg⟩ := hm.resolve_right (not_wrappable_report ht hd)
  cases hd.symm.trans hd'
  exact hmsg

theorem receivable_of_type {m : Message} (ty : MessageType) (ht : m.type = some ty)
    (hne : ty ∉ [.MESSAGE, .INTERNAL_MESSAGE, .MESSAGE_STATE_CHANGED]) : Receivable E m :=
  .inr (wrappable_of_type ty ht hne)

variable (E) in
/-- The policy that has only messages for users of the domain come to its connectors. -/
def homePolicy : Policy where
  accepts := Receivable E
  delivers := Homely E
  mails := Homely E
  keeps m := IsFetchable m → Homely E m
  calls _ := True
  registers _ := True

theorem receivable_touch {m : Message} (hm : Receivable E m) : Receivable E m.touch := by
  rcases hm with ⟨msg, st, ht, hd, hloc, hmsg⟩ | hm
  · exact .inl ⟨msg, st, ht, hd, (isLocal_touch m).trans hloc, hmsg⟩
  · refine .inr (hm.congr rfl rfl fun ha => ?_)
    simp only [MessageOf.targetAddress, MessageOf.touch, MessageOf.updateMeta_meta] at ha ⊢
    cases hmeta : m.meta_ with
    | none => rfl
    | some t => rw [hmeta] at ha; exact ha

theorem wrappable_prepared {m p : Message} (hm : Receivable E m) (hp : Prepared m p)
    (hloc : isLocal E p = false) : Wrappable p := by
  have hset : ∀ {u}, m.type ≠ some .MESSAGE_STATE_CHANGED → Wrappable (m.setTo u) := fun hne =>
    (hm.wrappable hne).congr rfl rfl id
  cases hp with
  | message ht _ => exact hset (by simp [ht])
  | close ht _ => exact hset (by simp [ht])
  | other =>
    refine hm.resolve_left ?_
    rintro ⟨_, _, _, _, hloc', _⟩
    exact Bool.noConfusion (hloc.symm.trans hloc')

/-- **The homes of recipients** through every handler of a processor. -/
theorem homeRules : Rules E (homePolicy E) where
  mails_congr h hm := hm.congr h
  keeps_congr h hst hm hfetch := by
    obtain ⟨st, hmem, hs⟩ := hfetch
    exact (hm ⟨st, hmem, hst ▸ hs⟩).congr h
  undelivered hm _ _ _ := hm.congr (.setState _ _)
  inside hm _ := hm
  outside {m a next n} hm _ ht _ _ _ _ :=
    { message := fun h => by cases ht.symm.trans h
      internal := hm.internal
      connector := fun h => by cases ht.symm.trans h }
  touch := receivable_touch
  cross hm hp hloc _ := .inr ((MessageOf.carries_internal rfl rfl).2 (wrappable_prepared hm hp hloc))
  message {m d} b hm ht hd hloc := by
    have hnone : m.targetAddress = none :=
      (MessageOf.carries_plain (by simp [ht]) (by simp [ht])).1 (hm.wrappable (by simp [ht])) ht
    have htype : (forwarded (m.setTo d.to_) d b).type = some .MESSAGE := (type_forwarded _ d b).trans ht
    exact
      { message := fun _ => atHome_of_isLocal (m := m.setTo d.to_) hnone hloc
        internal := fun h => by cases htype.symm.trans h
        connector := fun h => by cases htype.symm.trans h }
  confirmation _ ht _ := homely_of_type _ ht (by decide)
  close _ ht _ _ _ _ := homely_of_type .CLOSE_CONNECTION ((type_closing _).trans ht) (by decide)
  auth _ _ _ _ _ _ := homely_of_type .AUTH_CLIENT_REPLY rfl (by decide)
  call _ _ _ _ := trivial
  groupConnector {m d all c listed k} name hm ht hd hall hlisted hc := by
    refine ⟨fun h => ?_, fun h => ?_, fun _ d' all' hd' hall' x hx => ?_⟩
    · cases h
    · cases h
    · cases hd'
      cases hall'
      exact (hlisted x hx).2
  groupUser _ _ _ _ _ _ := .inr ((MessageOf.carries_plain (fun h => by cases h)
    fun h => by cases h).2 fun _ => rfl)
  groupOther _ _ _ _ _ _ := receivable_of_type .GROUP_MESSAGE rfl (by decide)
  presence _ ht _ _ := by
    rcases ht with ht | ht
    · exact homely_of_type _ ht (by decide)
    · exact homely_of_type _ ht (by decide)
  register _ _ _ _ _ := trivial
  master _ ht _ _ _ := by
    rcases ht with ⟨ht, -⟩ | ⟨ht, -⟩
    · exact receivable_of_type .USER_CONNECTED ht (by decide)
    · exact receivable_of_type .USER_DISCONNECTED ht (by decide)
  fetch hm hst hmem := hm ⟨_, hmem, hst⟩
  complete _ _ _ _ := homely_of_type .FETCH_MISSING_MESSAGES_COMPLETE rfl (by decide)
  lost hm ht hd := hm.homely ht hd
  changed hm ht hd _ _ _ _ := (hm.homely ht hd).congr (.setState _ _)
  confirm _ _ _ _ := receivable_of_type .MESSAGE_CONFIRMATION rfl (by decide)
  unwrap hm ht hd := .inr ((MessageOf.carries_internal ht hd).1 (hm.wrappable (by simp [ht])))
  route {m} hm ht _ :=
    { message := fun h => by cases ht.symm.trans h
      internal := fun _ i hd => (MessageOf.carries_internal ht hd).1 (hm.wrappable (by simp [ht]))
      connector := fun h => by cases ht.symm.trans h }
  routeInner {m i} hm ht _ _ _ :=
    { message := fun h => by cases ht.symm.trans h
      internal := fun _ i hd => (MessageOf.carries_internal ht hd).1 (hm.wrappable (by simp [ht]))
      connector := fun h => by cases ht.symm.trans h }

end Processor

/-! ### Copies of group messages -/

/-- A copy of a group message for one of its users, as a processor or a connector has made it, through
everything that is done to it later. -/
inductive IsGroupCopy : Message → Prop
  | processor {b m : Message} {u : Option String} {data : GroupMessage} {c : MessageContent} :
    IsGroupCopy (Processor.CustomGroupMessageProcessor.userMessage b u m data c)
  | connector {C : Connector.Config} {b m : Message} {u : ConnectorUserId}
      {data : GroupConnectorMessage} {c : MessageContent} {t : MessageMeta} :
    IsGroupCopy (Connector.GroupConnectorMessageProcessor.userMessage C b u m data c t)
  /-- What `CustomMessageProcessor` makes of a copy. -/
  | process {m : Message} {data : MessageRequest} {c : MessageContent} {enabled : Bool} :
    IsGroupCopy m → m.data = .messageRequest data → m.content = some c →
    c.confirmationEnabled = some enabled →
    IsGroupCopy (Processor.forwarded m data (enabled && !isBlank c.reference))
  /-- What deliveries and the store make of it. -/
  | keep {m m' : Message} : IsGroupCopy m → m'.content = m.content →
    m'.confirmEnabled = m.confirmEnabled → IsGroupCopy m'

/-- A copy of a processor is not to be confirmed, and one of a connector is not to be reported. -/
theorem IsGroupCopy.flags {m : Message} (h : IsGroupCopy m) :
    m.content.bind (·.confirmationEnabled) = some false ∨
      m.confirmEnabled = false ∧ ∀ data, m.data ≠ .messageRequest data := by
  induction h with
  | processor => exact .inl rfl
  | @connector C b m u data c t =>
    refine .inr ⟨rfl, fun d hd => ?_⟩
    change (data.content.map Data.messageForward).getD .null = .messageRequest d at hd
    cases hc : data.content with
    | none => rw [hc] at hd; cases hd
    | some f => rw [hc] at hd; cases hd
  | @process m data c enabled _ hd hc _ ih =>
    refine .inl ?_
    have hflag := ih.resolve_right fun h => h.2 data hd
    simpa [Processor.forwarded, MessageOf.setData, MessageOf.updateContent, hc] using hflag
  | @keep m m' _ hcontent hconfirm ih =>
    rw [hcontent, hconfirm, MessageOf.data, hcontent]
    exact ih

/-! ### A domain -/

namespace Domain

open Processor (Homely Receivable homePolicy homeRules receivable_of_type)
open Processor.CustomGroupMessageProcessor (AtHome)
open Connector (ReportsOn Written Vouches)

variable [JavaChar] {D : Domain}

/-- Connectors write messages for users of the domain, and wrappers. -/
def receiptPolicy (D : Domain) : Policy where
  processor _ := homePolicy D.env
  connector _ _ :=
    { mails := Homely D.env
      publishes := Receivable D.env
      writes := fun o =>
        (o.type = some .INTERNAL_MESSAGE → ∀ i, o.data = .message i → Wrappable i) ∧
          (o.type = some .MESSAGE → ∀ p, o.message = some p → AtHome D.env p.to_)
      authorises := fun _ _ => True }
  queued _ := Receivable D.env

theorem receivable_report {m : Message} (hm : Homely D.env m) (C : Connector.Config) (b : Message)
    (st : MessageState) :
    Receivable D.env (Connector.PostOffice.stateChangedMessage C b m st) := by
  refine .inl ⟨m, some st, rfl, rfl, ?_, hm⟩
  have hdom : Processor.ProcessorUtils.domainOf D.env
      (Connector.PostOffice.stateChangedMessage C b m st) = some D.env.domainName :=
    Processor.resolveDomain_processor
  rw [Processor.ProcessorUtils.isLocal, hdom, equalsIgnoreCase_refl, Bool.or_true]

theorem sound_receiptPolicy : Sound D (receiptPolicy D) where
  processor_mono _ := ⟨fun _ h => h, fun _ h => h, fun _ h => h, fun _ h => h⟩
  connector_mono _ _ := ⟨fun _ h => h, fun _ h => h, fun _ _ h => h⟩
  queued_mono _ h := h
  processor _ := homeRules
  connector _ c :=
    { report := fun _ hm _ => receivable_report hm _ _ _
      write := fun {m c i b} hm hc _ _ => by
        have htype : m.type = c.type := by rw [MessageOf.type, hc]; rfl
        have hdata : m.data = c.data := by rw [MessageOf.data, hc]; rfl
        refine ⟨fun ht j hd => hm.internal (htype.trans ht) j (hdata.trans hd), fun ht p hp => ?_⟩
        cases hp
        exact hm.message (htype.trans ht)
      user := fun {m data all uid c t} k hm hc _ ht hd hall huid => by
        have htype : m.type = some .GROUP_CONNECTOR_MESSAGE := by rw [MessageOf.type, hc]; exact ht
        refine ⟨fun _ => hm.connector htype data all hd hall uid huid, fun h => ?_, fun h => ?_⟩
        · cases h
        · cases h
      authorise := fun _ _ _ _ _ _ => trivial
      connected := fun k _ _ => receivable_of_type .USER_CONNECTED rfl (by decide) }
  published h := h
  consumed h _ := h
  routed h := h.mails
  answers _ _ _ o _ ho := by
    refine ⟨fun h => ?_, fun h => ?_⟩
    · rw [h] at ho
      simp at ho
    · rw [h] at ho
      simp at ho
  disconnected _ _ _ _ _ := receivable_of_type .USER_DISCONNECTED rfl (by decide)

/-- A message of a client that is no report and wraps none, nor a message addressed to a socket. -/
structure Ordinary (content : MessageContent) : Prop where
  report : content.type ≠ some .MESSAGE_STATE_CHANGED
  wrapper : content.type = some .INTERNAL_MESSAGE → ∀ i, content.data = .message i → Wrappable i

/-- What comes from outside is no report and wraps none, nor a message addressed to a socket. -/
def Admits : Event → Prop
  | .receive _ _ content _ => Ordinary content
  | .tunnel data _ => ∀ i, data = .message i → Wrappable i
  | _ => True

omit [JavaChar] in
theorem Ordinary.wrappable {content : MessageContent} (h : Ordinary content) {m : Message}
    (hm : m.content = some content) (htarget : m.targetAddress = none) : Wrappable m := by
  have htype : m.type = content.type := by rw [MessageOf.type, hm]; rfl
  have hdata : m.data = content.data := by rw [MessageOf.data, hm]; rfl
  by_cases hinner : content.type = some .INTERNAL_MESSAGE ∧ ∃ i, m.data = .message i
  · obtain ⟨ht, i, hi⟩ := hinner
    exact (MessageOf.carries_internal (htype.trans ht) hi).2 (h.wrapper ht i (hdata ▸ hi))
  · refine (MessageOf.carries_self (fun i hi ht => ?_) fun ht => ?_).2 fun _ => htarget
    · exact hinner ⟨htype.symm.trans ht, i, hi⟩
    · exact h.report (htype.symm.trans ht)

omit [JavaChar] in
theorem not_isFetchable_error (m : Message) :
    ¬ Processor.IsFetchable (m.setState (some .PROCESSOR_ERROR)) := by
  rintro ⟨st, hmem, hst⟩
  cases hst
  exact absurd hmem (by decide)

theorem complies_of_admits {w w' : World} {e : Event} (hw : Complies D (receiptPolicy D) w)
    (hok : Admits e) (h : D.step w e = some w') : Complies D (receiptPolicy D) w' := by
  have hP : Sound D (receiptPolicy D) := sound_receiptPolicy
  cases e with
  | connect c => exact complies_connect hP hw h
  | disconnect c i futures => exact complies_disconnect hP hw h
  | refuse k => exact complies_refuse hP hw h
  | handOut k futures =>
    refine complies_handOut hP hw h fun p s hp _ _ _ _ n => ?_
    exact receivable_report (hw.processor.parcels p (List.mem_of_getElem? hp)).mails _ _ _
  | tunnel data draws =>
    refine complies_tunnel hP hw h fun i t c hd _ _ => ⟨.inr ?_, fun e _ _ hfetch => ?_⟩
    · exact (MessageOf.carries_internal rfl (by rw [hd]; rfl)).2 (hok i hd)
    · exact absurd hfetch (not_isFetchable_error _)
  | receive c i content futures =>
    refine complies_receive hP hw h fun s socket _ _ => ⟨fun n d _ ht _ => ?_, fun n _ => ?_, ?_⟩
    · refine receivable_of_type .AUTH_CLIENT ?_ (by decide)
      simpa [MessageOf.type, Connector.AuthClientMessageProcessor.request, MessageOf.updateContent,
        MessageOf.updateMeta, Connector.clientMessage] using ht
    · exact .inr (hok.wrappable rfl rfl)
    · exact fun n _ _ => .inr (hok.wrappable rfl rfl)
  | dispatch k draws =>
    exact complies_dispatch hP hw h fun m w₁ _ _ e _ _ hfetch => absurd hfetch (not_isFetchable_error _)
  | respond k outcome draws =>
    refine complies_respond hP hw h fun _ _ _ _ a n reply _ _ => ?_
    exact Processor.homely_of_type .AUTH_CLIENT_REPLY rfl (by decide)

/-! ### Reports -/

/-- Every report in the domain that a message has been processed is on one that a connector has
written, with a flag that asks for it, and no close command is reported as lost. -/
structure Vouched (w : World) : Prop where
  published : ∀ c s, w.connectors c = some s → s.published = []
  reports : ∀ r ∈ w.incoming, ∀ m, ReportsOn r m .PROCESSED →
    ∃ c s, w.connectors c = some s ∧ Written m s
  lost : ∀ r ∈ w.incoming, ∀ m, ReportsOn r m .ADDRESS_NOT_FOUND → m.type ≠ some .CLOSE_CONNECTION

variable {w w' : World}

omit [JavaChar] in
theorem vouched_initial (h : Initial w) : Vouched w where
  published c s hs := by
    rw [h.connectors c s hs]
  reports r hr := by
    rw [h.incoming] at hr
    cases hr
  lost r hr := by
    rw [h.incoming] at hr
    cases hr

omit [JavaChar] in
/-- A computation of a connector that reports on what it has written. -/
theorem Vouched.atConnector (hw : Vouched w) {c : String} {s : Connector.State}
    (hs : w.connectors c = some s) {x : Connector.Conn Unit} (hx : Exec.Moves Vouches x) :
    Vouched (w.atConnector c s x) := by
  have hself : (w.atConnector c s x).connectors c = some { (x.run s).2 with published := [] } :=
    if_pos rfl
  obtain ⟨ps, hps, hall⟩ := (hx s).published
  rw [hw.published c s hs, List.nil_append] at hps
  refine ⟨fun c' s' hs' => ?_, fun r hr m hm => ?_, fun r hr => ?_⟩
  · by_cases hc : c' = c
    · subst hc
      cases hself.symm.trans hs'
      rfl
    · exact hw.published c' s' ((if_neg hc).symm.trans hs')
  · rcases List.mem_append.1 hr with hr | hr
    · obtain ⟨c', s', hs', hwritten⟩ := hw.reports r hr m hm
      by_cases hc : c' = c
      · subst hc
        cases hs.symm.trans hs'
        exact ⟨c', _, hself, hwritten.mono (hx s).outputs⟩
      · exact ⟨c', s', (if_neg hc).trans hs', hwritten⟩
    · exact ⟨c, _, hself, ((hall r (hps ▸ hr)).processed m hm).mono fun _ ho => ho⟩
  · rcases List.mem_append.1 hr with hr | hr
    · exact hw.lost r hr
    · exact (hall r (hps ▸ hr)).lost

theorem vouched_step {e : Event} (hw : Vouched w) (hok : Admits e) (h : D.step w e = some w') :
    Vouched w' := by
  cases e with
  | connect c =>
    obtain ⟨s, hs, rfl⟩ := step_connect h
    exact hw.atConnector hs Connector.vouches_initChannel
  | disconnect c i futures =>
    obtain ⟨s, socket, hs, -, rfl⟩ := step_disconnect h
    exact hw.atConnector hs (Connector.vouches_withFutures _ (Connector.vouches_handlerRemoved _ _))
  | receive c i content futures =>
    obtain ⟨s, socket, hs, -, rfl⟩ := step_receive h
    have hw₁ : Vouched { w with inputs := w.inputs ++ [⟨c, i, socket, content⟩] } :=
      ⟨hw.published, hw.reports, hw.lost⟩
    exact hw₁.atConnector hs
      (Connector.vouches_withFutures _ (Connector.vouches_channelRead0 hok.report _ _))
  | handOut k futures =>
    obtain ⟨p, s, -, hs, rfl⟩ := step_handOut h
    have hw₁ : Vouched { w with
        processor := { w.processor with parcels := w.processor.parcels.eraseIdx k } } :=
      ⟨hw.published, hw.reports, hw.lost⟩
    exact hw₁.atConnector hs
      (Connector.vouches_withFutures _ (Connector.vouches_onMessageArrived _))
  | dispatch k draws =>
    obtain ⟨m, -, rfl⟩ := step_dispatch h
    exact ⟨hw.published, fun r hr => hw.reports r (List.mem_of_mem_eraseIdx hr),
      fun r hr => hw.lost r (List.mem_of_mem_eraseIdx hr)⟩
  | refuse k =>
    obtain ⟨p, -, rfl⟩ := step_refuse h
    exact ⟨hw.published, hw.reports, hw.lost⟩
  | respond k outcome draws =>
    obtain ⟨call, -, rfl⟩ := step_respond h
    exact ⟨hw.published, hw.reports, hw.lost⟩
  | tunnel data draws =>
    rw [step_tunnel h]
    exact ⟨hw.published, hw.reports, hw.lost⟩

/-! ### Confirmations -/

/-- A message has been delivered whose confirmation is `m`. -/
structure Delivered (D : Domain) (w : World) (m p : Message) : Prop where
  type : p.type = some .MESSAGE
  sender : m.to_ = p.from_
  reference : m.data = .messageConfirmation (p.content.bind (·.reference))
  confirmationEnabled : p.content.bind (·.confirmationEnabled) = some true
  home : AtHome D.env p.to_
  group : ¬ IsGroupCopy p
  written : ∃ c s o, w.connectors c = some s ∧ o ∈ s.outputs ∧ o.message = some p ∧
    o.type = some .MESSAGE ∧ o.isSuccess = true

/-- A confirmation in the domain is for what its connectors have delivered. -/
def Warranted (D : Domain) (w : World) : Message → Prop :=
  MessageOf.Carries (fun m => m.type = some .MESSAGE_CONFIRMATION → ∃ p, Delivered D w m p)
    fun st p => st = some .PROCESSED → ∃ c s, w.connectors c = some s ∧ Written p s

theorem spreads_warranted (hw : Complies D (receiptPolicy D) w) :
    Processor.Spreads D.env (Warranted D w) fun _ => True where
  touch hm := hm.congr rfl rfl fun hp ht => (hp ht).imp fun _ h => { h with }
  redirect hne hm := hm.congr rfl rfl fun _ h => absurd h hne
  cross hm := (MessageOf.carries_internal rfl rfl).2 hm
  groupUser _ _ _ := (MessageOf.carries_plain (fun h => by cases h) fun h => by cases h).2
    fun h => by cases h
  groupOther _ _ _ := (MessageOf.carries_plain (fun h => by cases h) fun h => by cases h).2
    fun h => by cases h
  confirm {m p st k} hm ht hd hdue := by
    obtain ⟨c, s, hs, hflag, o, ho, hmessage, htype, hok⟩ :=
      (MessageOf.carries_report ht hd).1 hm hdue.state
    obtain ⟨t, ht, htrue⟩ := hflag
    have hconfirm : p.confirmEnabled = true := by
      rw [MessageOf.confirmEnabled, ht]
      exact htrue
    have hgroup : ¬ IsGroupCopy p := by
      intro hcopy
      rcases hcopy.flags with hfalse | ⟨hfalse, -⟩
      · cases hdue.enabled.symm.trans hfalse
      · exact Bool.noConfusion (hconfirm.symm.trans hfalse)
    have hmess : o.type = some .MESSAGE := htype.trans hdue.type
    refine (MessageOf.carries_plain (fun h => by cases h) fun h => by cases h).2 fun _ => ⟨p, ?_⟩
    exact
      { type := hdue.type
        sender := rfl
        reference := rfl
        confirmationEnabled := hdue.enabled
        home := ((hw.connectors c s hs).outputs o ho).2 hmess p hmessage
        group := hgroup
        written := ⟨c, s, o, hs, ho, hmessage, hmess, hok⟩ }
  unwrap hm ht hd := (MessageOf.carries_internal ht hd).1 hm
  copy _ _ := trivial
  plain _ := trivial
  close _ _ _ := trivial
  fetched _ _ _ := trivial
  lost _ _ _ := trivial

/-- A confirmation, alone or in wrappers. -/
def HasConfirmation (m : Message) : Prop :=
  ¬ m.Carries (fun m => m.type ≠ some .MESSAGE_CONFIRMATION) fun _ _ => True

/-- The event brings a confirmation that has been made before. -/
def Brings (w : World) : Event → Prop
  | .dispatch k _ => ∃ m, w.incoming[k]? = some m ∧ HasConfirmation m
  | .tunnel data _ => ∃ i, data = .message i ∧ HasConfirmation i
  | _ => False

theorem warranted_of_wrappable {m : Message} (hm : Wrappable m)
    (hnew : ¬ HasConfirmation m) : Warranted D w m :=
  Data.Carries.both (fun _ _ hne ht => absurd ht hne) (fun _ _ h _ => h.elim) _ _ hm (not_not.1 hnew)

omit [JavaChar] in
theorem notes_atProcessor {A B : Message → Prop} {v : World} {x : Processor.Proc Unit}
    {d : Processor.Draws} (hj : v.processor.journal = w.processor.journal)
    (hp : v.processor.parcels = w.processor.parcels)
    (hx : Exec.Keeps (Processor.Notes A B w.processor) x fun _ => True) :
    Processor.Notes A B w.processor (v.atProcessor x d).processor := by
  have hstart : Processor.Notes A B w.processor (v.processor.drawing d) :=
    Processor.notes_of_rests ⟨hj, hp⟩
  exact hx.run hstart

/-- What is processed in a step has been delivered where it is a confirmation. -/
theorem warranted_of_processed {e : Event} (hw : Complies D (receiptPolicy D) w) (hv : Vouched w)
    (hok : Admits e) (hnew : ¬ Brings w e) (h : D.step w e = some w') :
    ∃ l, w'.processor.journal = w.processor.journal ++ l ∧
      ∀ m, .processing m ∈ l → Warranted D w m := by
  have hA := spreads_warranted hw
  have hsame : ∀ {s : Processor.State}, s.journal = w.processor.journal →
      ∃ l, s.journal = w.processor.journal ++ l ∧ ∀ m, .processing m ∈ l → Warranted D w m :=
    fun hs => ⟨[], hs.trans (List.append_nil _).symm, fun _ hm => absurd hm List.not_mem_nil⟩
  cases e with
  | connect c =>
    obtain ⟨s, -, rfl⟩ := step_connect h
    exact hsame rfl
  | disconnect c i futures =>
    obtain ⟨s, socket, -, -, rfl⟩ := step_disconnect h
    exact hsame rfl
  | receive c i content futures =>
    obtain ⟨s, socket, -, -, rfl⟩ := step_receive h
    exact hsame rfl
  | handOut k futures =>
    obtain ⟨p, s, -, -, rfl⟩ := step_handOut h
    exact hsame rfl
  | dispatch k draws =>
    obtain ⟨m, hm, rfl⟩ := step_dispatch h
    refine (notes_atProcessor rfl rfl (Processor.notes_onRecordArrived hA ?_)).journal
    rcases hw.incoming m (List.mem_of_getElem? hm) with ⟨msg, st, ht, hd, -, -⟩ | hwrap
    · refine (MessageOf.carries_report ht hd).2 fun hst => ?_
      exact hv.reports m (List.mem_of_getElem? hm) msg ⟨ht, hst ▸ hd⟩
    · exact warranted_of_wrappable hwrap fun hconf => hnew ⟨m, hm, hconf⟩
  | refuse k =>
    obtain ⟨p, -, rfl⟩ := step_refuse h
    obtain ⟨l, hl, -⟩ := (Processor.moves_onMessageDeliveryFailed (E := D.env) p.message
      (({ w.processor with parcels := w.processor.parcels.eraseIdx k } :
        Processor.State).drawing {})).saved
    refine ⟨_, hl, fun m hm => ?_⟩
    obtain ⟨_, -, heq⟩ := List.mem_map.1 hm
    cases heq
  | respond k outcome draws =>
    obtain ⟨call, -, rfl⟩ := step_respond h
    exact (notes_atProcessor rfl rfl (Processor.notes_complete hA call outcome)).journal
  | tunnel data draws =>
    rw [step_tunnel h]
    refine (notes_atProcessor rfl rfl
      (Processor.notes_handleInternalMessage hA fun i k t c hd => ?_)).journal
    refine (MessageOf.carries_internal rfl (by rw [hd]; rfl)).2 ?_
    exact warranted_of_wrappable (hok i hd) fun hconf => hnew ⟨i, hd, hconf⟩

end Domain

/-! ### Several domains -/

namespace Alliance

open Domain

section

variable [JavaChar] {ι : Type} [DecidableEq ι] (D : ι → Domain)

/-- Domains side by side. -/
def alliance : System (ι → World) (ι × Event) := System.family fun i => (D i).system

/-- Reports are made by connectors only, and a tunnel brings a wrapper that a connector of one of the
domains has written. -/
def Genuine (W : ι → World) : ι × Event → Prop
  | (_, .receive _ _ content _) => Ordinary content
  | (_, .tunnel data _) => ∃ i c s o, (W i).connectors c = some s ∧ o ∈ s.outputs ∧
      o.type = some .INTERNAL_MESSAGE ∧ o.data = data
  | _ => True

variable {D} {W₀ W W' : ι → World} {i : ι} {e : Event}

omit [DecidableEq ι] in
theorem admits_of_genuine (hW : ∀ i, Complies (D i) (receiptPolicy (D i)) (W i))
    (hok : Genuine W (i, e)) : Admits e := by
  cases e with
  | receive => exact hok
  | tunnel data draws =>
    obtain ⟨j, c, s, o, hs, ho, ht, rfl⟩ := hok
    exact fun i hi => (((hW j).connectors c s hs).outputs o ho).1 ht i hi
  | _ => trivial

theorem invariant (h₀ : ∀ i, Initial (W₀ i)) (h : (alliance D).Reaches Genuine W₀ W) (i : ι) :
    Complies (D i) (receiptPolicy (D i)) (W i) ∧ Vouched (W i) := by
  refine h.family_invariant (I := fun i w => Complies (D i) (receiptPolicy (D i)) w ∧ Vouched w)
    (fun i => ⟨complies_initial (h₀ i), vouched_initial (h₀ i)⟩) (fun W i e w' hI hok hst => ?_) i
  have hadmits : Admits e := admits_of_genuine (D := D) (fun j => (hI j).1) hok
  exact ⟨complies_of_admits (hI i).1 hadmits hst, vouched_step (hI i).2 hadmits hst⟩

/-- **A confirmation means delivery.**  Whatever has happened in the domains: where one of them makes
a confirmation, it is for a `MESSAGE` that one of its connectors has written to a socket before. -/
theorem delivered_of_confirmed (h₀ : ∀ i, Initial (W₀ i)) (h : (alliance D).Reaches Genuine W₀ W)
    (hok : Genuine W (i, e)) (hst : (alliance D).step W (i, e) = some W') (hnew : ¬ Brings (W i) e)
    {m : Message}
    (hm : .processing m ∈ (W' i).processor.journal.drop (W i).processor.journal.length)
    (ht : m.type = some .MESSAGE_CONFIRMATION) : ∃ p, Delivered (D i) (W i) m p := by
  have hI := fun i => invariant h₀ h i
  obtain ⟨w', hw', rfl⟩ := System.family_step_eq_some.1 hst
  obtain ⟨l, hl, hall⟩ := warranted_of_processed (hI i).1 (hI i).2
    (admits_of_genuine (D := D) (fun j => (hI j).1) hok) hnew hw'
  rw [Function.update_self, hl, List.drop_left] at hm
  exact (MessageOf.carries_plain (by simp [ht]) (by simp [ht])).1 (hall m hm) ht

end

/-! ### A text and its confirmation -/

section

attribute [local instance] JavaChar.ascii

open Sample (arrival connectorName domain start textTo)

namespace SampleReceipts

/-- `APP-5` and `APP-6` sign in, and `APP-6` is written a text with a reference. -/
def textWritten : List (Unit × Event) :=
  let text : List Event :=
    [.receive connectorName 1 { textTo "APP-6" "hello" with reference := some "1" } [],
      .dispatch 0 {}, .handOut 0 []]
  (arrival 1 "APP-5" ++ arrival 2 "APP-6" ++ text).map fun e => ((), e)

def genuine (_ : Unit → World) (e : Unit × Event) : Bool := e.2.isPlain

theorem genuine_of_isPlain (W : Unit → World) (e : Unit × Event) (h : genuine W e = true) :
    Genuine W e := by
  obtain ⟨i, e⟩ := e
  cases e with
  | receive c j content futures =>
    simp only [genuine, Event.isPlain, Bool.and_eq_true, decide_eq_true_eq] at h
    exact ⟨h.2, fun ht => absurd ht h.1⟩
  | tunnel => cases h
  | _ => trivial

/-- The next record is a report. -/
def isReport (w : World) : Bool :=
  match w.incoming[0]? with
  | some m => m.type = some .MESSAGE_STATE_CHANGED && match m.data with
    | .messageStateChanged (some _) _ => true
    | _ => false
  | none => false

theorem not_brings_of_isReport {w : World} {d : Processor.Draws} (h : isReport w = true) :
    ¬ Brings w (.dispatch 0 d) := by
  rintro ⟨m, hm, hconf⟩
  rw [isReport, hm] at h
  obtain ⟨ht, hd⟩ := Bool.and_eq_true_iff.1 h
  split at hd
  · next msg st heq =>
    exact hconf ((MessageOf.carries_report (by simpa using ht) heq).2 trivial)
  · cases hd

/-- The processors have made a confirmation. -/
def confirms (w w' : World) : Bool :=
  (w'.processor.journal.drop w.processor.journal.length).any fun e => match e with
    | .processing m => m.type = some .MESSAGE_CONFIRMATION
    | .saved _ => false

theorem exists_of_confirms {w w' : World} (h : confirms w w' = true) : ∃ m,
    .processing m ∈ w'.processor.journal.drop w.processor.journal.length ∧
      m.type = some .MESSAGE_CONFIRMATION := by
  obtain ⟨e, he, h⟩ := List.any_eq_true.1 h
  cases e with
  | processing m => exact ⟨m, he, by simpa using h⟩
  | saved m => cases h

end SampleReceipts

open SampleReceipts

/-- The text is confirmed, and it has been delivered. -/
theorem delivered_of_confirmed_text : ∃ (W W' : Unit → World) (m p : Message),
    (alliance fun _ => domain).run (fun _ => start) textWritten = some W ∧
      (alliance fun _ => domain).step W ((), .dispatch 0 {}) = some W' ∧
      .processing m ∈ (W' ()).processor.journal ∧ m.type = some .MESSAGE_CONFIRMATION ∧
      Delivered domain (W ()) m p := by
  have hrun : (((alliance fun _ => domain).runIf genuine (fun _ => start) textWritten).bind fun W =>
      ((alliance fun _ => domain).step W ((), .dispatch 0 {})).map fun W' =>
        (isReport (W ()), confirms (W ()) (W' ()))) = some (true, true) := by decide +kernel
  obtain ⟨W, hW, hstep⟩ := Option.bind_eq_some_iff.1 hrun
  obtain ⟨W', hW', hboth⟩ := Option.map_eq_some_iff.1 hstep
  obtain ⟨hreport, hconf⟩ := Prod.mk.inj hboth
  obtain ⟨m, hm, ht⟩ := exists_of_confirms hconf
  have hok : Genuine W ((), .dispatch 0 {}) := trivial
  obtain ⟨p, hp⟩ := delivered_of_confirmed (fun _ => initial_start)
    (System.reaches_of_runIf genuine_of_isPlain hW) hok hW' (not_brings_of_isReport hreport) hm ht
  exact ⟨W, W', m, p, System.run_of_runIf hW, hW', List.mem_of_mem_drop hm, ht, hp⟩

end

end Alliance

end Linker
