import Linker.Domain.Compliance
import Linker.Processor.Fetching
import Linker.Processor.Letters

/-!
# What is stored can be fetched

A reliable message that finds no address, or that the producer or a socket refuses, is stored under
its recipient: a user of the domain, or the user as whom the next domain on its way is connected.  A
`FETCH_MISSING_MESSAGES_REQUEST` of that recipient finds it again.

A message whose processing throws is stored too, in a processor as `PROCESSOR_ERROR` and after a
connector as `CONNECTOR_ERROR`, but no request asks for these states.

## Main results

* `Processor.addressRules` : the recipients of messages through every handler of a processor.
* `Domain.retrievable_of_orderly` : where nothing throws, what is stored can be fetched.
* `Domain.stranded` : a message that cannot be routed is stored and never fetched.
-/

namespace Linker

/-- A message of a user to users, or one that travels between domains. -/
def IsTraffic (m : Message) : Prop :=
  m.type = some .MESSAGE ∨ m.type = some .GROUP_MESSAGE ∨ m.type = some .INTERNAL_MESSAGE

namespace Processor

open ProcessorUtils ClientAppService
open FetchMissingMessagesMessageProcessor (fetchableStates MAX_COUNT)

variable [JavaChar] (E : Environment)

/-- A user whose home is the current domain. -/
def IsLocalUser (u : Option String) : Prop :=
  isBlank u = false ∧ equalsIgnoreCase (some E.domainName) (resolveDomain E u) = true

/-- The user as whom the next domain towards some other is connected. -/
def IsNeighbourUser (u : Option String) : Prop :=
  ∃ next target n, E.routes = some next ∧ next target = some n ∧
    u = some (resolveDomainUserId (some n))

/-- A message under its recipient. -/
structure Addressed (m : Message) : Prop where
  message : m.type = some .MESSAGE → IsLocalUser E m.to_
  internal : m.type = some .INTERNAL_MESSAGE → IsNeighbourUser E m.to_
  group : m.type ≠ some .GROUP_MESSAGE
  connector : m.type = some .GROUP_CONNECTOR_MESSAGE → ∀ d users,
    m.data = .groupConnectorMessage d → d.connectorUserIds = some users →
    ∀ x ∈ users, IsLocalUser E x.userId

/-- A message that the post office puts under its recipient. -/
def Deliverable (m : Message) : Prop :=
  Addressed E m ∨ m.type = some .INTERNAL_MESSAGE ∧ isLocal E m = false

/-- A record that a request of its recipient finds, or one that nobody will ask for. -/
def Stored (m : Message) : Prop :=
  Addressed E m ∧ IsFetchable m ∨ ¬ IsTraffic m ∧ ¬ IsFetchable m

/-- A message that names users of the domain, where it is for the domain. -/
structure Proper (m : Message) : Prop where
  message : m.type = some .MESSAGE → ∀ d, m.data = .messageRequest d →
    isLocal E (m.setTo d.to_) = true → IsLocalUser E d.to_
  group : m.type = some .GROUP_MESSAGE → ∀ d users, m.data = .groupMessage d →
    d.to_ = some users → ∀ u ∈ users, isBlank u = false

/-- A report that has the message delivered or stored under its recipient. -/
structure Reportable (state : Option MessageState) (m : Message) : Prop where
  lost : state = some .ADDRESS_NOT_FOUND → Deliverable E m
  changed : state ≠ some .ADDRESS_NOT_FOUND → state ≠ some .PROCESSED →
    m.feature = some .RELIABLE → Stored E (m.setState state)

/-- A message that carries such a message or such a report. -/
def Acceptable : Message → Prop := MessageOf.Carries (Proper E) (Reportable E)

variable {E}

theorem Addressed.congr {m m' : Message} (h : m.SameLetter m') (hm : Addressed E m) :
    Addressed E m' where
  message ht := h.to_ ▸ hm.message (h.type ▸ ht)
  internal ht := h.to_ ▸ hm.internal (h.type ▸ ht)
  group := h.type ▸ hm.group
  connector ht d users hd := hm.connector (h.type ▸ ht) d users (h.data ▸ hd)

theorem addressed_of_type {m : Message} (ty : MessageType) (ht : m.type = some ty)
    (hne : ty ∉ [.MESSAGE, .INTERNAL_MESSAGE, .GROUP_MESSAGE, .GROUP_CONNECTOR_MESSAGE]) :
    Addressed E m := by
  simp only [List.mem_cons, List.not_mem_nil, or_false, not_or] at hne
  have hinj : ∀ ty', m.type = some ty' → ty = ty' := fun _ h => Option.some.inj (ht.symm.trans h)
  exact ⟨fun h => absurd (hinj _ h) hne.1, fun h => absurd (hinj _ h) hne.2.1,
    fun h => hne.2.2.1 (hinj _ h), fun h => absurd (hinj _ h) hne.2.2.2⟩

theorem acceptable_of_type {m : Message} (ty : MessageType) (ht : m.type = some ty)
    (hne : ty ∉ [.MESSAGE, .GROUP_MESSAGE, .INTERNAL_MESSAGE, .MESSAGE_STATE_CHANGED]) :
    Acceptable E m := by
  simp only [List.mem_cons, List.not_mem_nil, or_false, not_or] at hne
  have hinj : ∀ ty', m.type = some ty' → ty = ty' := fun _ h => Option.some.inj (ht.symm.trans h)
  refine (MessageOf.carries_plain (fun h => hne.2.2.1 (hinj _ h)) fun h => hne.2.2.2 (hinj _ h)).2 ?_
  exact ⟨fun h => absurd (hinj _ h) hne.1, fun h => absurd (hinj _ h) hne.2.1⟩

theorem Stored.congr {m m' : Message} (h : m.SameLetter m') (hst : m'.state = m.state)
    (hm : Stored E m) : Stored E m' := by
  refine hm.imp (fun ⟨haddr, st, hmem, hs⟩ => ⟨haddr.congr h, st, hmem, hst.trans hs⟩) ?_
  rintro ⟨htraffic, hfetch⟩
  refine ⟨fun ht => htraffic ?_, fun ⟨st, hmem, hs⟩ => hfetch ⟨st, hmem, hst ▸ hs⟩⟩
  rw [IsTraffic, h.type] at ht
  exact ht

/-- A message without target for the domain is for a user who lives there. -/
theorem isLocalUser_of_isLocal {m : Message} (hm : m.targetAddress = none)
    (hloc : isLocal E m = true) (hblank : isBlank m.to_ = false) : IsLocalUser E m.to_ := by
  refine ⟨hblank, ?_⟩
  rw [isLocal, hblank, Bool.false_or, domainOf, hm] at hloc
  exact hloc

variable (E) in
/-- The policy that has every message under its recipient. -/
def addressPolicy : Policy where
  accepts := Acceptable E
  delivers := Deliverable E
  mails := Addressed E
  keeps := Stored E
  calls _ := True
  registers _ := True

theorem acceptable_touch {m : Message} (hm : Acceptable E m) : Acceptable E m.touch := by
  refine hm.congr rfl rfl fun hp => ⟨fun ht d hd hloc => hp.message ht d hd ?_, hp.group⟩
  have htarget : m.touch.targetAddress = m.targetAddress := by
    simp only [MessageOf.targetAddress, MessageOf.touch, MessageOf.updateMeta_meta]
    cases m.meta_ with
    | none => rfl
    | some t => rfl
  have hdom : domainOf E (m.touch.setTo d.to_) = domainOf E (m.setTo d.to_) := by
    simp only [domainOf, MessageOf.setTo_targetAddress, htarget, MessageOf.setTo_to]
  rwa [isLocal, hdom] at hloc

theorem acceptable_prepared {m p : Message} (hm : Acceptable E m) (hp : Prepared m p) :
    Acceptable E p := by
  cases hp with
  | message ht hd =>
    refine hm.congr rfl rfl fun hp => ⟨fun _ d' hd' hloc => ?_, fun ht' => ?_⟩
    · exact hp.message ht d' hd' hloc
    · cases ht.symm.trans ht'
  | close ht hd => exact acceptable_of_type .CLOSE_CONNECTION ht (by decide)
  | other => exact hm

/-- **Recipients** through every handler of a processor. -/
theorem addressRules : Rules E (addressPolicy E) where
  mails_congr h hm := hm.congr h
  keeps_congr h hst hm := hm.congr h hst
  undelivered hm hst _ := .inl ⟨hm.congr (.setState _ _), _, hst, rfl⟩
  inside hm hloc := hm.resolve_right fun h => by simp [h.2] at hloc
  outside {m a next n} hm hloc ht ha hroutes hn hblank :=
    { message := fun h => by cases ht.symm.trans h
      internal := fun _ => ⟨next, a, n, hroutes, hn, rfl⟩
      group := fun h => by cases ht.symm.trans h
      connector := fun h => by cases ht.symm.trans h }
  touch := acceptable_touch
  cross hm hp _ _ := (MessageOf.carries_internal rfl rfl).2 (acceptable_prepared hm hp)
  message {m d} b hm ht hd hloc := by
    have hp : Proper E m := (MessageOf.carries_plain (by simp [ht]) (by simp [ht])).1 hm
    have htype : (forwarded (m.setTo d.to_) d b).type = some .MESSAGE := (type_forwarded _ d b).trans ht
    exact .inl
      { message := fun _ => hp.message ht d hd hloc
        internal := fun h => by cases htype.symm.trans h
        group := fun h => by cases htype.symm.trans h
        connector := fun h => by cases htype.symm.trans h }
  confirmation _ ht _ := .inl (addressed_of_type _ ht (by decide))
  close _ ht _ _ _ _ :=
    .inl (addressed_of_type .CLOSE_CONNECTION ((type_closing _).trans ht) (by decide))
  auth _ _ _ _ _ _ := .inl (addressed_of_type .AUTH_CLIENT_REPLY rfl (by decide))
  call _ _ _ _ := trivial
  groupConnector {m d all c users k} name hm ht hd hall husers hc := by
    have hp : Proper E m := (MessageOf.carries_plain (by simp [ht]) (by simp [ht])).1 hm
    refine .inl ⟨fun h => ?_, fun h => ?_, fun h => ?_, fun _ d' users' hd' husers' x hx => ?_⟩
    · cases h
    · cases h
    · cases h
    · cases hd'
      cases husers'
      exact ⟨hp.group ht d all hd hall x.userId (husers x hx).1, (husers x hx).2⟩
  groupUser {m d users c u k} hm ht hd husers hu hc := by
    have hp : Proper E m := (MessageOf.carries_plain (by simp [ht]) (by simp [ht])).1 hm
    refine (MessageOf.carries_plain (fun h => ?_) fun h => ?_).2 ⟨fun _ d' hd' hloc => ?_, fun h => ?_⟩
    · cases h
    · cases h
    · cases hd'
      exact isLocalUser_of_isLocal rfl hloc (hp.group ht d users hd husers u hu)
    · cases h
  groupOther {m d all c users domainName k} hm ht hd hall husers hc := by
    have hp : Proper E m := (MessageOf.carries_plain (by simp [ht]) (by simp [ht])).1 hm
    refine (MessageOf.carries_plain (fun h => ?_) fun h => ?_).2
      ⟨fun h => ?_, fun _ d' users' hd' husers' u hu => ?_⟩
    · cases h
    · cases h
    · cases h
    · cases hd'
      cases husers'
      exact hp.group ht d all hd hall u (husers u hu)
  presence _ ht _ _ := by
    rcases ht with ht | ht
    · exact .inl (addressed_of_type _ ht (by decide))
    · exact .inl (addressed_of_type _ ht (by decide))
  register _ _ _ _ _ := trivial
  master _ ht _ _ _ := by
    rcases ht with ⟨ht, -⟩ | ⟨ht, -⟩
    · exact acceptable_of_type .USER_CONNECTED ht (by decide)
    · exact acceptable_of_type .USER_DISCONNECTED ht (by decide)
  fetch hm hst hmem := .inl (hm.resolve_right fun h => h.2 ⟨_, hmem, hst⟩).1
  complete _ _ _ _ := .inl (addressed_of_type .FETCH_MISSING_MESSAGES_COMPLETE rfl (by decide))
  lost hm ht hd := ((MessageOf.carries_report ht hd).1 hm).lost rfl
  changed hm ht hd hlost hproc hf := ((MessageOf.carries_report ht hd).1 hm).changed hlost hproc hf
  confirm _ _ _ _ := acceptable_of_type .MESSAGE_CONFIRMATION rfl (by decide)
  unwrap hm ht hd := (MessageOf.carries_internal ht hd).1 hm
  route _ ht hloc := .inr ⟨ht, hloc⟩
  routeInner _ ht _ _ hloc := .inr ⟨ht, hloc⟩

end Processor

/-! ### Runs -/

namespace Domain

open Processor (IsLocalUser IsNeighbourUser Acceptable Addressed Stored IsFetchable addressPolicy
  addressRules acceptable_of_type pageFor)
open Processor.FetchMissingMessagesMessageProcessor (fetchableStates MAX_COUNT)

variable [JavaChar] (D : Domain)

/-- Every reliable message among users or domains that was saved is saved for a recipient, and as
long as it is stored, a request of that recipient finds it. -/
def Retrievable (w : World) : Prop :=
  ∀ m, .saved m ∈ w.processor.journal → m.feature = some .RELIABLE → IsTraffic m →
    ∃ u, m.to_ = some u ∧
      (if m.type = some .INTERNAL_MESSAGE then IsNeighbourUser D.env (some u)
        else IsLocalUser D.env (some u)) ∧
      (m ∈ w.processor.messages → ∀ count,
        ((Processor.MessageRepository.found (some u) none fetchableStates w.processor.messages).length : ℤ) ≤
          min MAX_COUNT count → m ∈ (pageFor w.processor u count).content)

/-- What the processing of a message throws does not concern a reliable message among users or
domains. -/
def Harmless (m : Message) (s : Processor.State) : Prop :=
  ∀ e, ((Processor.MessageProcessorService.process D.env m).run s).1 = .error e →
    e.message.feature = some .RELIABLE → ¬ IsTraffic e.message

/-- An event in a run where messages name users of the domain, and where nothing is thrown on
reliable messages among users or domains. -/
def Orderly (w : World) : Event → Prop
  | .receive _ _ content _ => ∀ m : Message, m.content = some content → m.targetAddress = none →
      Acceptable D.env m
  | .tunnel data draws => ∀ i t c, data = .message i → i.meta_ = some t → i.content = some c →
      Acceptable D.env i ∧
        D.Harmless (Processor.DomainService.msgWrapper (D.env.blank (w.processor.drawing draws).serial)
          i (some .INTERNAL_MESSAGE) data t c) (w.processor.drawing draws).next
  | .dispatch k draws => ∀ m, w.incoming[k]? = some m → D.Harmless m (w.processor.drawing draws)
  | .handOut k futures => ∀ p s, w.processor.parcels[k]? = some p → w.connectors p.target = some s →
      ∀ e, ((Connector.processOutgoingMessage (D.config p.target) p.message).run
        (s.expecting futures)).1 = .error e → p.message.feature = some .RELIABLE →
        ¬ IsTraffic p.message
  | _ => True

variable {D}

/-- The policy of a domain in which everything is kept under its recipient. -/
def storePolicy (D : Domain) : Policy where
  processor _ := addressPolicy D.env
  connector _ _ :=
    { mails := Addressed D.env
      publishes := Acceptable D.env
      writes := fun _ => True
      authorises := fun _ _ => True }
  queued _ := Acceptable D.env

theorem stored_of_not_traffic {m : Message} {st : MessageState} (hm : ¬ IsTraffic m)
    (hst : st ∉ fetchableStates) : Stored D.env (m.setState (some st)) := by
  refine .inr ⟨hm, fun ⟨st', hmem, hs⟩ => hst ?_⟩
  cases hs
  exact hmem

theorem sound_storePolicy : Sound D (storePolicy D) where
  processor_mono _ := ⟨fun _ h => h, fun _ h => h, fun _ h => h, fun _ h => h⟩
  connector_mono _ _ := ⟨fun _ h => h, fun _ h => h, fun _ _ h => h⟩
  queued_mono _ h := h
  processor _ := addressRules
  connector _ c :=
    { report := fun {m st} k hm hst => (MessageOf.carries_report rfl rfl).2
        { lost := fun _ => .inl hm
          changed := fun hlost hproc _ => by
            refine .inl ⟨hm.congr (.setState m _), st, ?_, rfl⟩
            simp only [List.mem_cons, List.not_mem_nil, or_false] at hst
            rcases hst with rfl | rfl | rfl
            · exact absurd rfl hproc
            · decide
            · exact absurd rfl hlost }
      write := fun _ _ _ _ => trivial
      user := fun {m data users uid c t} k hm hc _ ht hd husers huid => by
        have htype : m.type = some .GROUP_CONNECTOR_MESSAGE := by rw [MessageOf.type, hc]; exact ht
        refine ⟨fun _ => hm.connector htype data users hd husers uid huid, fun h => ?_, fun h => ?_,
          fun h => ?_⟩
        all_goals cases h
      authorise := fun _ _ _ _ _ _ => trivial
      connected := fun k _ _ => acceptable_of_type .USER_CONNECTED rfl (by decide) }
  published h := h
  consumed h _ := h
  routed h := h.mails
  answers _ _ _ _ _ _ := trivial
  disconnected _ _ _ _ _ := acceptable_of_type .USER_DISCONNECTED rfl (by decide)

theorem complies_of_orderly {w w' : World} {e : Event} (hw : Complies D (storePolicy D) w)
    (hok : D.Orderly w e) (h : D.step w e = some w') : Complies D (storePolicy D) w' := by
  have hP : Sound D (storePolicy D) := sound_storePolicy
  cases e with
  | connect c => exact complies_connect hP hw h
  | disconnect c i futures => exact complies_disconnect hP hw h
  | refuse k => exact complies_refuse hP hw h
  | handOut k futures =>
    refine complies_handOut hP hw h fun p s hp hs e he hf n => ?_
    -- what is reported as lost may be delivered again
    have htraffic := hok p s hp hs e he hf
    refine (MessageOf.carries_report rfl rfl).2 ⟨fun h => ?_, fun _ _ _ => ?_⟩
    · cases h
    · exact stored_of_not_traffic htraffic (by decide)
  | tunnel data draws =>
    refine complies_tunnel hP hw h fun i t c hd ht hc => ?_
    obtain ⟨hacc, hharm⟩ := hok i t c hd ht hc
    subst hd
    refine ⟨(MessageOf.carries_internal rfl rfl).2 hacc, fun e he hf => ?_⟩
    exact stored_of_not_traffic (hharm e he hf) (by decide)
  | receive c i content futures =>
    refine complies_receive hP hw h fun s socket _ _ => ⟨fun n d _ ht _ => ?_, fun n _ => ?_, ?_⟩
    · refine acceptable_of_type .AUTH_CLIENT ?_ (by decide)
      simpa [MessageOf.type, Connector.AuthClientMessageProcessor.request, MessageOf.updateContent,
        MessageOf.updateMeta, Connector.clientMessage] using ht
    · exact hok _ rfl rfl
    · exact fun n _ _ => hok _ rfl rfl
  | dispatch k draws =>
    refine complies_dispatch hP hw h fun m w₁ hm hw₁ e he hf => ?_
    have hproc : w₁.processor = w.processor := by rw [hw₁]
    rw [hproc] at he
    exact stored_of_not_traffic (hok m hm e he hf) (by decide)
  | respond k outcome draws =>
    refine complies_respond hP hw h fun _ _ _ _ a n reply _ _ => .inl ?_
    exact Processor.addressed_of_type .AUTH_CLIENT_REPLY rfl (by decide)

/-- **What is stored can be fetched**, in runs where nothing is thrown on it and messages name their
recipients. -/
theorem retrievable_of_orderly {w₀ w : World} (h₀ : Initial w₀)
    (h : D.system.Reaches D.Orderly w₀ w) : D.Retrievable w := by
  have hw : Complies D (storePolicy D) w :=
    h.invariant (I := Complies D (storePolicy D)) (complies_initial h₀)
      fun _ _ _ hI hok hst => complies_of_orderly hI hok hst
  intro m hm _ htraffic
  obtain ⟨haddr, hfetch⟩ := (hw.processor.saved m hm).resolve_right fun h => h.1 htraffic
  have huser : ∃ u, m.to_ = some u ∧
      if m.type = some .INTERNAL_MESSAGE then IsNeighbourUser D.env (some u)
        else IsLocalUser D.env (some u) := by
    rcases htraffic with ht | ht | ht
    · obtain ⟨hblank, hdom⟩ := haddr.message ht
      obtain ⟨u, hu⟩ : ∃ u, m.to_ = some u := by
        cases hto : m.to_ with
        | none => rw [hto] at hblank; cases hblank
        | some u => exact ⟨u, rfl⟩
      rw [hu] at hblank hdom
      exact ⟨u, hu, by rw [if_neg (by simp [ht])]; exact ⟨hblank, hdom⟩⟩
    · exact absurd ht haddr.group
    · have hto := haddr.internal ht
      obtain ⟨next, target, n, hroutes, hn, hu⟩ := hto
      exact ⟨_, hu, by rw [if_pos ht]; exact ⟨next, target, n, hroutes, hn, rfl⟩⟩
  obtain ⟨u, hu, hhome⟩ := huser
  exact ⟨u, hu, hhome, fun hmem count => Processor.mem_pageFor hmem hu hfetch⟩

/-- The recipients that a client names. -/
def recipients (content : MessageContent) : List (Option String) :=
  match content.data with
  | .messageRequest d => [d.to_]
  | .groupMessage d => d.to_.getD []
  | _ => []

/-- A message of a client that names its recipients is acceptable. -/
theorem acceptable_of_recipients {content : MessageContent} {m : Message}
    (hm : m.content = some content) (htarget : m.targetAddress = none)
    (hinner : content.type ≠ some .INTERNAL_MESSAGE)
    (hreport : content.type ≠ some .MESSAGE_STATE_CHANGED)
    (hnames : ∀ u ∈ recipients content, isBlank u = false) : Acceptable D.env m := by
  have htype : m.type = content.type := by rw [MessageOf.type, hm]; rfl
  have hdata : m.data = content.data := by rw [MessageOf.data, hm]; rfl
  refine (MessageOf.carries_plain (htype ▸ hinner) (htype ▸ hreport)).2
    ⟨fun _ d hd hloc => ?_, fun _ d users hd husers u hu => ?_⟩
  · refine Processor.isLocalUser_of_isLocal (m := m.setTo d.to_) htarget hloc (hnames d.to_ ?_)
    rw [recipients, ← hdata, hd]
    exact List.mem_singleton_self _
  · refine hnames u ?_
    rw [recipients, ← hdata, hd]
    simpa [husers] using hu

/-- A computed test for orderly events. -/
def isOrderly (D : Domain) (w : World) : Event → Bool
  | .receive _ _ content _ => content.type ≠ some .INTERNAL_MESSAGE &&
      content.type ≠ some .MESSAGE_STATE_CHANGED && (recipients content).all fun u => !isBlank u
  | .tunnel .. => false
  | .dispatch k draws => (w.incoming[k]?).all fun m =>
      ((Processor.MessageProcessorService.process D.env m).run (w.processor.drawing draws)).1.isOk
  | .handOut k futures => (w.processor.parcels[k]?).all fun p => (w.connectors p.target).all fun s =>
      ((Connector.processOutgoingMessage (D.config p.target) p.message).run
        (s.expecting futures)).1.isOk
  | _ => true

theorem orderly_of_isOrderly (w : World) (e : Event) (h : isOrderly D w e = true) :
    D.Orderly w e := by
  cases e with
  | receive c i content futures =>
    simp only [isOrderly, Bool.and_eq_true, decide_eq_true_eq, List.all_eq_true,
      Bool.not_eq_true'] at h
    exact fun m hm htarget => acceptable_of_recipients hm htarget h.1.1 h.1.2 h.2
  | tunnel data draws => cases h
  | dispatch k draws =>
    intro m hm e he
    rw [isOrderly, hm, Option.all_some, he] at h
    cases h
  | handOut k futures =>
    intro p s hp hs e he
    rw [isOrderly, hp, Option.all_some, hs, Option.all_some, he] at h
    cases h
  | _ => trivial

end Domain

/-! ### Runs of a small domain -/

section

open Sample

attribute [local instance] JavaChar.ascii

namespace Sample

/-- A client sends a message to the given user. -/
def letter (u : String) : List Event :=
  arrival 1 "APP-5" ++ [.receive connectorName 1 (textTo u "hello") [], .dispatch 0 {}]

/-- The domain with users that live in another one, to which it knows no way. -/
def cutOff : Domain :=
  { domain with
    env := { env with
      clientApps := fun appName =>
        (env.clientApps appName).map fun app => { app with
          userDistributions := some [{ domainName := some "domain-02", from_ := some 100 }] }
      routes := some fun _ => none } }

/-- The texts that were saved, with their recipients and states. -/
def saved (w : World) : List (Option String × Option MessageState) :=
  w.processor.journal.filterMap fun e => match e with
    | .saved m =>
      if m.type = some .MESSAGE ∧ m.feature = some .RELIABLE then some (m.to_, m.state) else none
    | .processing _ => none

theorem mem_saved {w : World} {u : Option String} {st : Option MessageState}
    (h : (u, st) ∈ saved w) : ∃ m, .saved m ∈ w.processor.journal ∧ m.type = some .MESSAGE ∧
      m.feature = some .RELIABLE ∧ m.to_ = u ∧ m.state = st := by
  obtain ⟨e, he, h⟩ := List.mem_filterMap.1 h
  cases e with
  | processing m => cases h
  | saved m =>
    simp only at h
    split_ifs at h with hm
    cases h
    exact ⟨m, he, hm.1, hm.2, rfl, rfl⟩

end Sample

namespace Domain

/-- A text for a user who is away is stored, and can be fetched. -/
theorem retrievable_letter : ∃ w, domain.system.run start (letter "APP-6") = some w ∧
    saved w = [(some "APP-6", some .ADDRESS_NOT_FOUND)] ∧ domain.Retrievable w := by
  have hrun : ((domain.system.runIf (isOrderly domain) start (letter "APP-6")).map saved) =
      some [(some "APP-6", some .ADDRESS_NOT_FOUND)] := by decide +kernel
  obtain ⟨w, hw, hsaved⟩ := Option.map_eq_some_iff.1 hrun
  refine ⟨w, System.run_of_runIf hw, hsaved, retrievable_of_orderly initial_start ?_⟩
  exact System.reaches_of_runIf orderly_of_isOrderly hw

/-- **A stranded message.**  A text for a user of a domain to which there is no way is stored under
that user, in a state that no request asks for. -/
theorem stranded : Initial start ∧
    ∃ w, cutOff.system.Reaches (fun _ e => e.isPlain = true) start w ∧ ¬ cutOff.Retrievable w := by
  have hrun : ((cutOff.system.run start (letter "APP-150")).map saved) =
      some [(some "APP-150", some .PROCESSOR_ERROR)] := by decide +kernel
  obtain ⟨w, hw, hsaved⟩ := Option.map_eq_some_iff.1 hrun
  have hplain : ∀ e ∈ letter "APP-150", e.isPlain = true := by decide
  refine ⟨initial_start, w, System.reaches_of_run hw fun e he _ => hplain e he, fun hret => ?_⟩
  obtain ⟨m, hm, ht, hf, hto, hst⟩ := mem_saved (hsaved ▸ List.mem_singleton_self _)
  obtain ⟨u, hu, hhome, -⟩ := hret m hm hf (.inl ht)
  rw [if_neg (by simp [ht])] at hhome
  cases hto.symm.trans hu
  exact absurd hhome.2 (by decide +kernel)

end Domain

end

end Linker
