import Linker.Connector.Rules
import Linker.Processor.Copies
import Linker.Processor.Rules
import Linker.Processor.Unreachable

/-!
# What the recipients of a group message receive

The text of a group message comes to a recipient in one of three ways: in a message to its connector,
which makes a `MESSAGE` of it for each of its users; in a `MESSAGE` of its own where it has no address;
or through a group message to its domain, and from there in one of these ways.

## Main results

* `adds_deliverMessage` : what is put on topics and stored are copies of what is delivered.
* `receives_of_connector`, `receives_of_single`, `receives_of_other` : what a run for a recipient sends
  and stores.
* `unconfirmed` : a message that is not to be confirmed is never reported as processed.
* `receives_alike_iff` : all recipients receive the same, unless a group message with a reference goes
  to another domain.
-/

namespace Linker

open Processor (Environment Proc)

namespace Processor

open ProcessorUtils ClientAppService MessageProcessorService PostOffice Exec

/-- The records and the saved messages that were not there at `s₀` have the property `Q`. -/
structure Adds (Q : Message → Prop) (s₀ s : State) : Prop where
  parcels : ∀ p ∈ s.parcels, p ∈ s₀.parcels ∨ Q p.message
  saved : ∀ r, .saved r ∈ s.journal → .saved r ∈ s₀.journal ∨ Q r

theorem Adds.refl (Q : Message → Prop) (s : State) : Adds Q s s :=
  ⟨fun _ h => .inl h, fun _ h => .inl h⟩

section

variable [JavaChar] {E : Environment} {Q : Message → Prop} {s₀ : State} {m : Message}

/-! ### Copies -/

omit [JavaChar] in
theorem adds_of_puts {α : Type} {x : Proc α} {R : α → Prop} (h : ∀ s, Keeps (Puts Q s) x R) :
    Keeps (Adds Q s₀) x R := by
  intro s hs
  obtain ⟨hputs, hval⟩ := h s s (refl_of (Puts Q) s)
  obtain ⟨ps, hps, hq⟩ := hputs.parcels
  obtain ⟨l, hl, hr⟩ := hputs.journal
  refine ⟨⟨fun p hp => ?_, fun r hmem => ?_⟩, hval⟩
  · rcases List.mem_append.1 (hps ▸ hp) with hp | hp
    · exact hs.parcels p hp
    · exact .inr (hq p hp)
  · rcases List.mem_append.1 (hl ▸ hmem) with hmem | hmem
    · exact hs.saved r hmem
    · exact .inr (hr r hmem)

omit [JavaChar] in
theorem adds_builder : Keeps (Adds Q s₀) (builder E) fun b => ∃ k, b = E.blank k :=
  adds_of_puts fun _ => puts_builder

/-- **Delivery** of a message that is no wrapper puts copies of it on topics and in the store. -/
theorem adds_deliverMessage (hQ : ∀ y, m.Copy y → Q y) (htype : m.type ≠ some .INTERNAL_MESSAGE) :
    Keeps (Adds Q s₀) (deliverMessage E m) fun _ => True :=
  adds_of_puts fun _ => puts_deliverMessage hQ htype

end

end Processor

namespace Connector

open Exec

/-! ### Reports -/

/-- The messages published that were not there at `s₀` report on the message, and do not report that
it has been processed. -/
def Unprocessed (m : Message) (s₀ s : State) : Prop :=
  ∀ r ∈ s.published, r ∈ s₀.published ∨
    ∃ st, st ≠ .PROCESSED ∧ r.data = .messageStateChanged (some m) (some st)

variable {C : Config} {m : Message} {s₀ : State}

theorem unprocessed_report {st : MessageState} (hst : st ≠ .PROCESSED) :
    Keeps (Unprocessed m s₀) (PostOffice.deliverStateChangedMessage C m st) fun _ => True := by
  have hblank : Keeps (Unprocessed m s₀) (builder C) fun _ => True := by
    refine (Keeps.read (Q := fun _ => True) fun _ _ => trivial).bind fun n _ => ?_
    exact (Keeps.modify (Q := fun _ => True) (fun s hs => hs) trivial).bind fun _ _ => .pure trivial
  refine hblank.bind fun _ _ => (keeps_orNullPointer _).bind fun c _ => ?_
  split
  · exact .fail
  · refine .modify (fun s hs r hr => ?_) trivial
    rcases List.mem_append.1 hr with hr | hr
    · exact hs r hr
    · cases List.mem_singleton.1 hr
      exact .inr ⟨st, hst, rfl⟩

/-- A message that is not to be confirmed. -/
theorem unprocessed_default (h : m.confirmEnabled = false) :
    Keeps (Unprocessed m s₀) (DefaultOutgoingMessageProcessor.process C m) fun _ => True := by
  refine (keeps_orNullPointer _).bind fun t ht => (keeps_orNullPointer _).bind fun a _ => ?_
  have hget : Keeps (Unprocessed m s₀) (NetworkUserService.getUser m.to_ a.socketId)
      fun _ => True := (keeps_orNullPointer _).bind fun _ _ => .read fun _ _ => trivial
  refine hget.bind fun handler _ => ?_
  split
  · next handler =>
    have hsend : Keeps (Unprocessed m s₀) (SocketHandler.sendMessage handler m) fun _ => True := by
      refine (keeps_orNullPointer _).bind fun c _ => ?_
      refine (Keeps.read (Q := fun _ => True) fun _ _ => trivial).bind fun _ _ => ?_
      refine (Keeps.read (Q := fun _ => True) fun _ _ => trivial).bind fun _ _ => ?_
      exact (Keeps.modify (Q := fun _ => True) (fun s hs => hs) trivial).bind fun _ _ => .pure trivial
    refine hsend.bind fun isSuccess _ => (keeps_orNullPointer _).bind fun t' ht' => ?_
    have hflag : t'.confirmEnabled = false := by
      rw [MessageOf.confirmEnabled, ht'] at h
      exact h
    refine (keeps_orNullPointer _).bind fun c _ => .ite (fun hreport => ?_) fun _ => .pure trivial
    -- without a confirmation only a failure is reported
    have hfailed : isSuccess = false := by
      rw [hflag] at hreport
      cases isSuccess
      · rfl
      · simp at hreport
    rw [hfailed]
    exact unprocessed_report (by decide)
  · have hrel : Keeps (Unprocessed m s₀) (DefaultOutgoingMessageProcessor.isReliableMessage m)
        fun _ => True := (keeps_orNullPointer _).bind fun _ _ => .pure trivial
    refine hrel.bind fun _ _ => .ite (fun _ => ?_) fun _ => .pure trivial
    exact unprocessed_report (by decide)

end Connector

namespace GroupMessages

open Processor Processor.CustomGroupMessageProcessor Processor.ClientAppService

/-! ### The ways to a recipient -/

/-- A group message, with its content, its payload and its recipients. -/
structure IsGroup (m : Message) (c : MessageContent) (data : GroupMessage)
    (users : List (Option String)) : Prop where
  content : m.content = some c
  type : c.type = some .GROUP_MESSAGE
  payload : c.data = .groupMessage data
  recipients : data.to_ = some users

theorem IsGroup.unique {m : Message} {c c' : MessageContent} {data data' : GroupMessage}
    {users users' : List (Option String)} (h : IsGroup m c data users)
    (h' : IsGroup m c' data' users') : c = c' ∧ data = data' ∧ users = users' := by
  have hc : c = c' := Option.some.inj (h.content.symm.trans h'.content)
  subst hc
  have hdata : data = data' := Data.groupMessage.inj (h.payload.symm.trans h'.payload)
  subst hdata
  exact ⟨rfl, rfl, Option.some.inj (h.recipients.symm.trans h'.recipients)⟩

variable [JavaChar]

/-- What a recipient is sent, by its connector or from the store, when a domain handles a group
message. -/
inductive Receives (r : Option String) : Environment → Message → Message → Prop
  /-- `processConnectorUserMessages`, and the connector. -/
  | connector {E : Environment} {m x : Message} {c c' : MessageContent} {data : GroupMessage}
      {d : GroupConnectorMessage} {t : MessageMeta} {users : List (Option String)}
      {connectorUserIds : List ConnectorUserId} {connectorName : Option String}
      {socketId : Option ℤ} {C : Connector.Config} {j k : ℕ} : IsGroup m c data users → r ∈ users →
      AtHome E r → ⟨r, socketId⟩ ∈ connectorUserIds →
      (connectorMessage (E.blank k) connectorName connectorUserIds m data c).Copy x →
      x.content = some c' → c'.data = .groupConnectorMessage d → x.meta_ = some t →
      Receives r E m (Connector.GroupConnectorMessageProcessor.userMessage C (C.blank j)
        ⟨r, socketId⟩ x d c' t)
  /-- `processUserAddressNotFound`, and `CustomMessageProcessor`. -/
  | single {E : Environment} {m x y : Message} {c : MessageContent} {data : GroupMessage}
      {d : MessageRequest} {users : List (Option String)} {k : ℕ} {s s' : State} :
      IsGroup m c data users → r ∈ users → AtHome E r →
      (CustomGroupMessageProcessor.userMessage (E.blank k) r m data c).Copy x →
      x.data = .messageRequest d →
      (CustomMessageProcessor.updateMessageConfirmationFlag
        ((x.setTo d.to_).setData (.messageForward ⟨x.from_, d.content⟩))).run s = (.ok y, s') →
      Receives r E m y
  /-- What is sent and stored are copies. -/
  | copy {E : Environment} {m x y : Message} : Receives r E m x → x.Copy y → Receives r E m y
  /-- `processOtherDomain`, and the domain of the recipient. -/
  | other {E E' : Environment} {m x y : Message} {c : MessageContent} {data : GroupMessage}
      {users : List (Option String)} {domainName : String} {k : ℕ} :
      IsGroup m c data users → r ∈ users → ¬ AtHome E r → resolveDomain E r = some domainName →
      (subMessage (E.blank k) (some domainName)
        ((groupByDomain E users).get (some domainName)) m data c).Copy x →
      equalsIgnoreCase (some E'.domainName) (some domainName) = true →
      Receives r E' x y → Receives r E m y

/-! ### Runs -/

open Exec Processor.Rules in
/-- What a run for a connector sends and stores is what the connector makes the messages of. -/
theorem receives_of_connector {E : Environment} {m : Message} {c : MessageContent}
    {data : GroupMessage} {users : List (Option String)} (hm : IsGroup m c data users)
    {connectorName : Option String} {connectorUserIds : List ConnectorUserId} {s s' : State}
    (h : (processConnectorUserMessages E connectorName connectorUserIds m data).run s = (.ok (), s')) :
    Adds (fun x => ∀ r socketId, ⟨r, socketId⟩ ∈ connectorUserIds → r ∈ users → AtHome E r →
      ∀ (C : Connector.Config) j c' d t, x.content = some c' → c'.data = .groupConnectorMessage d →
      x.meta_ = some t → Receives r E m (Connector.GroupConnectorMessageProcessor.userMessage C
        (C.blank j) ⟨r, socketId⟩ x d c' t)) s s' := by
  have hkeeps : Keeps (Adds (fun x => ∀ r socketId, ⟨r, socketId⟩ ∈ connectorUserIds → r ∈ users →
      AtHome E r → ∀ (C : Connector.Config) j c' d t, x.content = some c' →
      c'.data = .groupConnectorMessage d → x.meta_ = some t →
      Receives r E m (Connector.GroupConnectorMessageProcessor.userMessage C
        (C.blank j) ⟨r, socketId⟩ x d c' t)) s)
      (processConnectorUserMessages E connectorName connectorUserIds m data) fun _ => True := by
    refine (keeps_orNullPointer _ _).bind fun c₁ hc₁ => (keeps_orNullPointer _ _).bind fun _ _ => ?_
    cases hm.content.symm.trans hc₁
    refine adds_builder.bind fun b ⟨k, hk⟩ => .reraise (adds_deliverMessage ?_ ?_)
    · subst hk
      intro y hy r socketId hmem hr hhome C j c' d t hc' hd ht
      exact .connector hm hr hhome hmem hy hc' hd ht
    · intro htype
      cases htype
  have hadds := hkeeps.run (.refl _ s)
  rw [h] at hadds
  exact hadds

open Exec Processor.Rules in
/-- What a run for a user without address sends and stores. -/
theorem receives_of_single {E : Environment} {depth : ℕ} {m : Message} {c : MessageContent}
    {data : GroupMessage} {users : List (Option String)} (hm : IsGroup m c data users)
    {r : Option String} (hr : r ∈ users) (hhome : AtHome E r) {s s' : State}
    (h : (processUserAddressNotFound E (Processor.process E (depth + 1)) r m data).run s =
      (.ok (), s')) :
    Adds (Receives r E m) s s' := by
  have hkeeps : Keeps (Adds (Receives r E m) s)
      (processUserAddressNotFound E (Processor.process E (depth + 1)) r m data) fun _ => True := by
    refine (keeps_orNullPointer _ _).bind fun c₁ hc₁ => (keeps_orNullPointer _ _).bind fun _ _ => ?_
    cases hm.content.symm.trans hc₁
    refine adds_builder.bind fun b ⟨k, hk⟩ => .reraise ?_
    subst hk
    have hnote : Keeps (Adds (Receives r E m) s)
        (Proc.note (.processing (userMessage (E.blank k) r m data c))) fun _ => True := by
      refine .modify (fun s₁ hs₁ => { hs₁ with saved := fun x hx => ?_ }) trivial
      rcases List.mem_append.1 hx with hx | hx
      · exact hs₁.saved x hx
      · cases List.mem_singleton.1 hx
    rw [Processor.process, processWith]
    refine hnote.bind fun _ _ => (keeps_orNullPointer _ _).bind fun _ _ => ?_
    have htouch : (userMessage (E.blank k) r m data c).Copy (userMessage (E.blank k) r m data c).touch :=
      .updateMeta _ (fun _ => ⟨rfl, rfl⟩) fun _ => rfl
    refine (keeps_orNullPointer _ _).bind fun t _ => .ite (fun _ => .pure trivial) fun _ => ?_
    refine (keeps_orNullPointer _ _).bind fun c₁ hc₁ => ?_
    cases hc₁
    -- `CustomMessageProcessor` turns the request into a text and delivers it
    have hdata : ∀ d, Data.messageRequest? (userMessage (E.blank k) r m data c).touch.data = some d →
        d = ⟨r, data.content⟩ := fun d hd => (Option.some.inj hd).symm
    refine Keeps.bind (Q := fun x => x = (userMessage (E.blank k) r m data c).touch.setTo r) ?_ ?_
    · refine (keeps_getData _ _).bind fun d hd => (keeps_orNullPointer _ _).bind fun d' hd' => .pure ?_
      rw [hdata d' (hd d' hd')]
    rintro x rfl
    refine .ite (fun _ => ?_) fun h => absurd (fun h' => by cases h') h
    have hlocal : ProcessorUtils.isLocal E ((userMessage (E.blank k) r m data c).touch.setTo r) =
        true := by
      have hdomain : ProcessorUtils.domainOf E ((userMessage (E.blank k) r m data c).touch.setTo r) =
          resolveDomain E r := rfl
      rw [ProcessorUtils.isLocal, hdomain]
      simpa using .inr hhome
    have hhere : Keeps (Adds (Receives r E m) s) (ProcessorUtils.isCurrentDomainMessage E
        ((userMessage (E.blank k) r m data c).touch.setTo r)) fun b => b = true := by
      intro s₁ hs₁
      rw [ProcessorUtils.run_isCurrentDomainMessage E rfl, hlocal]
      exact ⟨hs₁, fun b hb => (Except.ok.inj hb).symm⟩
    refine hhere.bind fun b hb => .ite (fun _ => ?_) fun hne => absurd hb hne
    refine (keeps_getData _ _).bind fun d hd => (keeps_orNullPointer _ _).bind fun d' hd' => ?_
    cases hdata d' (hd d' hd')
    have hflag : Keeps (Adds (Receives r E m) s)
        (CustomMessageProcessor.updateMessageConfirmationFlag
          (((userMessage (E.blank k) r m data c).touch.setTo r).setData
            (.messageForward ⟨m.from_, data.content⟩))) fun y => Receives r E m y ∧
              y.type ≠ some .INTERNAL_MESSAGE := by
      intro s₁ hs₁
      have hrun : (CustomMessageProcessor.updateMessageConfirmationFlag
          (((userMessage (E.blank k) r m data c).touch.setTo r).setData
            (.messageForward ⟨m.from_, data.content⟩))).run s₁ = (.ok _, s₁) := rfl
      rw [hrun]
      refine ⟨hs₁, fun y hy => ?_⟩
      cases hy
      refine ⟨.single hm hr hhome htouch rfl hrun, ?_⟩
      intro htype
      cases htype
    exact hflag.bind fun y hy => adds_deliverMessage (fun z hz => hy.1.copy hz) hy.2
  have hadds := hkeeps.run (.refl _ s)
  rw [h] at hadds
  exact hadds

open Exec Processor.Rules in
/-- What a run for another domain sends and stores are wrappers of what is received through there. -/
theorem receives_of_other {E : Environment} {depth : ℕ} {m : Message} {c : MessageContent}
    {data : GroupMessage} {users : List (Option String)} (hm : IsGroup m c data users)
    {domainName : String} (haway : equalsIgnoreCase (some E.domainName) (some domainName) = false)
    {s s' : State}
    (h : (processOtherDomain E (Processor.process E (depth + 2)) (some domainName)
      ((groupByDomain E users).get (some domainName)) m data).run s = (.ok (), s')) :
    Adds (fun w => ∃ x, w.data = .message x ∧ ∀ r ∈ users, resolveDomain E r = some domainName →
      ∀ (E' : Environment) y, equalsIgnoreCase (some E'.domainName) (some domainName) = true →
        Receives r E' x y → Receives r E m y) s s' := by
  obtain ⟨t, ht⟩ : ∃ t, m.meta_ = some t := by
    refine Option.ne_none_iff_exists'.1 fun hnone => ?_
    rw [processOtherDomain, run_bind_ok (run_getContent hm.content s), getMeta, hnone] at h
    cases h
  obtain ⟨w, s₁, g, htype, hdata, hbegins, hsaved, -, hrun⟩ :=
    run_processOtherDomain ht hm.content haway depth _ data s
  have htouch : (subMessage (E.blank s.serial) (some domainName)
      ((groupByDomain E users).get (some domainName)) m data c).Copy _ :=
    .updateMeta _ (f := MessageMeta.touch) (fun _ => ⟨rfl, rfl⟩) fun _ => rfl
  have hcopy : ∀ y : Message, y.data = w.data → ∃ x, y.data = .message x ∧ ∀ r ∈ users,
      resolveDomain E r = some domainName → ∀ (E' : Environment) z,
      equalsIgnoreCase (some E'.domainName) (some domainName) = true →
        Receives r E' x z → Receives r E m z := by
    refine fun y hy => ⟨_, hy.trans hdata, fun r hr hres E' z hdomain hz => ?_⟩
    refine .other hm hr (fun hhome => ?_) hres htouch hdomain hz
    rw [AtHome, hres, haway] at hhome
    cases hhome
  have hkeeps : Keeps (Adds _ s) ((PostOffice.deliverMessage E w).reraise g) fun _ => True :=
    .reraise (adds_of_puts fun _ => puts_deliver (fun y hy => hcopy y hy.letter.data)
      fun _ u y hy => hcopy y hy.letter.data)
  have hadds := hkeeps.run (s := s₁)
    ⟨fun p hp => .inl (hbegins.parcels ▸ hp), fun r hr => .inl (hsaved r hr)⟩
  rw [← hrun, h] at hadds
  exact hadds

/-- A `MESSAGE` with the sender, the text, the reference and the feature of a group message. -/
structure Alike (m : Message) (c : MessageContent) (data : GroupMessage) (x : Message) : Prop where
  type : x.type = some .MESSAGE
  from_ : x.from_ = m.from_
  data : x.data = .messageForward ⟨m.from_, data.content⟩
  reference : x.content.bind (·.reference) = c.reference
  feature : x.feature = c.feature

/-- No connector reports the message as processed, for which its sender would receive a
confirmation. -/
def Unconfirmed (x : Message) : Prop :=
  ∀ (C : Connector.Config) (s : Connector.State), Connector.Unprocessed x s
    ((Connector.DefaultOutgoingMessageProcessor.process C x).run s).2

omit [JavaChar] in
theorem unconfirmed {x : Message} (h : x.confirmEnabled = false) : Unconfirmed x := by
  intro C s
  exact (Connector.unprocessed_default h).run fun r hr => .inl hr

omit [JavaChar] in
/-- `CustomMessageProcessor` on a message whose confirmation is not enabled. -/
theorem flag_of_run {x y : Message} {c : MessageContent} {u : Option String} {f : MessageForward}
    {s s' : State} (hc : x.content = some c) (henabled : c.confirmationEnabled = some false)
    (hrun : (CustomMessageProcessor.updateMessageConfirmationFlag
      ((x.setTo u).setData (.messageForward f))).run s = (.ok y, s')) :
    y.content = some { c with data := .messageForward f } ∧ y.from_ = x.from_ ∧
      y.confirmEnabled = false := by
  have hcontent : ((x.setTo u).setData (.messageForward f)).content =
      some { c with data := .messageForward f } := by
    simp [MessageOf.setData, MessageOf.updateContent, MessageOf.setTo, hc]
  have hget : ∀ s, (orNullPointer ((x.setTo u).setData (.messageForward f))
      c.confirmationEnabled).run s = (.ok false, s) := by
    intro s
    rw [henabled]
    rfl
  rw [CustomMessageProcessor.updateMessageConfirmationFlag,
    Exec.run_bind_ok (run_getContent hcontent s), Exec.run_bind_ok (hget s)] at hrun
  cases ht : ((x.setTo u).setData (.messageForward f)).meta_ with
  | none =>
    rw [getMeta, ht] at hrun
    cases hrun
  | some t =>
    rw [Exec.run_bind_ok (run_getMeta ht s)] at hrun
    have hy := Except.ok.inj (Prod.mk.inj hrun).1
    rw [← hy]
    refine ⟨hcontent, rfl, ?_⟩
    rw [MessageOf.confirmEnabled, MessageOf.updateMeta_meta, ht]
    rfl

/-- What is received is alike but for the reference, which a group message to another domain loses. -/
theorem receives_spec {r : Option String} {E : Environment} {m x : Message}
    (h : Receives r E m x) {c : MessageContent} {data : GroupMessage}
    {users : List (Option String)} (hm : IsGroup m c data users) :
    x.type = some .MESSAGE ∧ x.from_ = m.from_ ∧
      x.data = .messageForward ⟨m.from_, data.content⟩ ∧ x.feature = c.feature ∧
      x.confirmEnabled = false ∧ (x.content.bind (·.reference) = c.reference ∨
        x.content.bind (·.reference) = none ∧ ∃ domainName,
          resolveDomain E r = some domainName ∧ r ∈ users ∧ ¬ AtHome E r) := by
  induction h generalizing c data users with
  | connector hg _ _ _ hcopy hc' hd ht =>
    obtain ⟨rfl, rfl, rfl⟩ := hg.unique hm
    have hcontent := hcopy.letter.content.symm.trans hc'
    cases hcontent
    cases hd
    have hfrom := hcopy.letter.from_
    exact ⟨rfl, hfrom, rfl, rfl, rfl, .inl rfl⟩
  | single hg _ _ hcopy hd hrun =>
    obtain ⟨rfl, rfl, rfl⟩ := hg.unique hm
    have hdata := hcopy.letter.data.symm.trans hd
    cases hdata
    obtain ⟨hcontent, hfrom, hflag⟩ := flag_of_run hcopy.letter.content rfl hrun
    refine ⟨?_, hfrom.trans hcopy.letter.from_, ?_, ?_, hflag, .inl ?_⟩
    · rw [MessageOf.type, hcontent]
      rfl
    · rw [MessageOf.data, hcontent, hcopy.letter.from_]
      rfl
    · rw [MessageOf.feature, hcontent]
      rfl
    · rw [hcontent]
      rfl
  | copy _ hcopy ih =>
    obtain ⟨htype, hfrom, hdata, hfeature, hflag, href⟩ := ih hm
    refine ⟨hcopy.letter.type.trans htype, hcopy.letter.from_.trans hfrom,
      hcopy.letter.data.trans hdata, hcopy.letter.feature.trans hfeature,
      hcopy.confirmEnabled.trans hflag, ?_⟩
    rw [hcopy.letter.content]
    exact href
  | other hg hr haway hdomain hcopy _ _ ih =>
    obtain ⟨rfl, rfl, rfl⟩ := hg.unique hm
    -- the message to the other domain is a group message without the reference
    have hsub : IsGroup _ _ _ _ := ⟨hcopy.letter.content, rfl, rfl, rfl⟩
    obtain ⟨htype, hfrom, hdata, hfeature, hflag, href⟩ := ih hsub
    refine ⟨htype, hfrom.trans hcopy.letter.from_, ?_, hfeature, hflag, .inr ⟨?_, _, hdomain, hr, haway⟩⟩
    · rw [hdata, hcopy.letter.from_]
      rfl
    · rcases href with href | ⟨href, -⟩
      · exact href
      · exact href

/-- A user that an app places in another domain lives there for every domain with the same apps. -/
theorem atHome_elsewhere {E : Environment} {r : Option String} {domainName : String}
    (haway : ¬ AtHome E r) (hres : resolveDomain E r = some domainName) :
    AtHome { E with domainName } r := by
  have happ : getClientAppByUserId { E with domainName } r = getClientAppByUserId E r := rfl
  have hhome : resolveDomain E r ≠ some E.domainName := by
    intro h
    exact haway (by rw [AtHome, h]; exact equalsIgnoreCase_refl _)
  have hsame : resolveDomain { E with domainName } r = some domainName := by
    rw [← hres]
    unfold resolveDomain at hhome ⊢
    rw [happ]
    -- the home of the user is not the default, so it is read off the distributions
    rcases hclient : getClientAppByUserId E r with _ | app
    · simp [hclient] at hhome
    rcases hdist : app.userDistributions with _ | distributions
    · simp [hclient, hdist] at hhome
    rcases hnumber : (NameRecord.parse r).number with _ | number
    · simp [hclient, hdist, hnumber] at hhome
    rcases hfind : distributions.find? (covers number) with _ | d
    · simp [hclient, hdist, hnumber, hfind] at hhome
    · simp [hdist, hfind]
  rw [AtHome, hsame]
  exact equalsIgnoreCase_refl _

/-- In another domain a recipient is sent a message without reference. -/
theorem receives_elsewhere {E : Environment} {m : Message} {c : MessageContent}
    {data : GroupMessage} {users : List (Option String)} (hm : IsGroup m c data users)
    {r : Option String} (hr : r ∈ users) (haway : ¬ AtHome E r) {domainName : String}
    (hres : resolveDomain E r = some domainName) :
    ∃ x, Receives r E m x ∧ x.content.bind (·.reference) = none := by
  have hsub : IsGroup (subMessage (E.blank 0) (some domainName)
      ((groupByDomain E users).get (some domainName)) m data c)
      (createMessageContent .GROUP_MESSAGE (.groupMessage
        ⟨some ((groupByDomain E users).get (some domainName)), data.content⟩) c.feature)
      ⟨some ((groupByDomain E users).get (some domainName)), data.content⟩
      ((groupByDomain E users).get (some domainName)) := ⟨rfl, rfl, rfl, rfl⟩
  have hmem : r ∈ (groupByDomain E users).get (some domainName) :=
    mem_groupByDomain_iff.2 ⟨hr, hres⟩
  have hget := Receives.single (k := 0) (s := {}) hsub hmem (atHome_elsewhere haway hres) (.refl _)
    rfl rfl
  exact ⟨_, .other (k := 0) hm hr haway hres (.refl _) (equalsIgnoreCase_refl _) hget, rfl⟩

/-- **Every group recipient gets the same message**, and the sender no confirmation, exactly if the
group message has no reference or no recipient in another domain. -/
theorem receives_alike_iff {E : Environment} {m : Message} {c : MessageContent}
    {data : GroupMessage} {users : List (Option String)} (hm : IsGroup m c data users) :
    (∀ r x, Receives r E m x → Alike m c data x ∧ Unconfirmed x) ↔
      c.reference = none ∨
        ∀ r ∈ users, ∀ domainName, resolveDomain E r = some domainName → AtHome E r := by
  constructor
  · intro h
    by_contra hcond
    rw [not_or] at hcond
    obtain ⟨href, haway⟩ := hcond
    simp only [not_forall] at haway
    obtain ⟨r, hr, domainName, hres, haway⟩ := haway
    obtain ⟨x, hx, hnone⟩ := receives_elsewhere hm hr haway hres
    exact href ((h r x hx).1.reference.symm.trans hnone)
  · intro hcond r x hx
    obtain ⟨htype, hfrom, hdata, hfeature, hflag, href⟩ := receives_spec hx hm
    refine ⟨⟨htype, hfrom, hdata, ?_, hfeature⟩, unconfirmed hflag⟩
    rcases href with href | ⟨href, domainName, hres, hr, haway⟩
    · exact href
    · rcases hcond with hnone | hhome
      · rw [href, hnone]
      · exact absurd (hhome r hr domainName hres) haway

end GroupMessages

/-! ### A group in two domains -/

namespace GroupMessages

section

attribute [local instance] JavaChar.ascii

open Processor Processor.CustomGroupMessageProcessor Processor.CustomGroupMessageProcessor.Sample

/-- The content of a group message for two domains, with a reference. -/
def referenced : MessageContent :=
  createMessageContent .GROUP_MESSAGE (.groupMessage groupMessage) (some .RELIABLE) (some "ref-1")

def referencedMessage : Message := { message with content := some referenced }

/-- Without its reference the group message is the same for everyone. -/
theorem receives_alike_unreferenced : message.content.bind (·.reference) = none ∧
    ∀ r x, Receives r (env "domain-01") message x →
      Alike message (createMessageContent .GROUP_MESSAGE (.groupMessage groupMessage) (some .RELIABLE))
        groupMessage x ∧ Unconfirmed x :=
  ⟨rfl, (receives_alike_iff ⟨rfl, rfl, rfl, rfl⟩).2 (.inl rfl)⟩

/-- **The reference gets lost.**  A recipient of the other domain receives the text without it. -/
theorem unreferenced : ¬ ∀ r x, Receives r (env "domain-01") referencedMessage x →
    Alike referencedMessage referenced groupMessage x ∧ Unconfirmed x := by
  intro h
  have hm : IsGroup referencedMessage referenced groupMessage recipients := ⟨rfl, rfl, rfl, rfl⟩
  have haway : ¬ AtHome (env "domain-01") (some "APP-105") := by
    unfold AtHome
    decide +kernel
  have hres : ClientAppService.resolveDomain (env "domain-01") (some "APP-105") = some "domain-02" := by
    decide +kernel
  obtain ⟨x, hx, hnone⟩ := receives_elsewhere hm (by decide) haway hres
  have href : x.content.bind (·.reference) = some "ref-1" := (h _ x hx).1.reference
  rw [hnone] at href
  cases href

end

end GroupMessages

end Linker
