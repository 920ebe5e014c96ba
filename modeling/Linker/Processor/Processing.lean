import Linker.Processor.FanOut
import Linker.Processor.Rules

/-!
# Processing under a policy

Every handler keeps to a policy that meets the rules, so `process` does, whatever the depth of its
calls, and so do the ways in: a record of the processors' topic, the answer of an authentication
endpoint, a message of a tunnel.

## Main results

* `Rules.keeps_process` : `process` on a message that the policy accepts.
* `Rules.keeps_onRecordArrived`, `Rules.keeps_complete` : the ways in.
-/

namespace Linker.Processor.Rules

open ProcessorUtils ClientAppService MessageProcessorService PostOffice Exec
open FetchMissingMessagesMessageProcessor (fetchableStates)

theorem type_eq {m : Message} {c : MessageContent} (h : m.content = some c) : m.type = c.type := by
  rw [MessageOf.type, h]; rfl

variable [JavaChar] {E : Environment} {P : Policy} {process : Message → Proc Unit}

/-- What is assumed of the calls that a handler makes to `process`. -/
abbrev Processes (E : Environment) (P : Policy) (process : Message → Proc Unit) : Prop :=
  ∀ m, P.accepts m → Keeps (Meets E P) (process m) fun _ => True

/-! ### Single messages -/

theorem keeps_message (hR : Rules E P) {m : Message} {d : MessageRequest} (hm : P.accepts m)
    (ht : m.type = some .MESSAGE) (hd : m.data = .messageRequest d)
    (hloc : isLocal E (m.setTo d.to_) = true) :
    Keeps (Meets E P) ((CustomMessageProcessor.processor E).process (m.setTo d.to_))
      fun _ => True := by
  refine (keeps_getData _ _).bind fun data hdata => (keeps_orNullPointer _ _).bind fun d' hd' => ?_
  have hd'' : d' = d := by
    have := hdata d' hd'
    rw [MessageOf.setTo_data, hd] at this
    exact (Option.some.inj this).symm
  subst hd''
  have hflag : Keeps (Meets E P) (CustomMessageProcessor.updateMessageConfirmationFlag
      ((m.setTo d'.to_).setData (.messageForward ⟨m.from_, d'.content⟩))) fun m' =>
      ∃ b, m' = forwarded (m.setTo d'.to_) d' b := by
    refine (keeps_orNullPointer _ _).bind fun c _ => (keeps_orNullPointer _ _).bind fun b _ =>
      (keeps_orNullPointer _ _).bind fun _ _ => .pure ⟨_, rfl⟩
  refine hflag.bind fun m' ⟨b, hm'⟩ => ?_
  rw [hm']
  exact keeps_deliverMessage hR (hR.message b hm ht hd hloc)

theorem keeps_confirmation (hR : Rules E P) {m : Message} (hm : P.accepts m)
    (ht : m.type = some .MESSAGE_CONFIRMATION) (hloc : isLocal E m = true) :
    Keeps (Meets E P) ((CustomMessageConfirmationProcessor.processor E).process m) fun _ => True :=
  (keeps_getData _ _).bind fun _ _ => keeps_deliverMessage hR (hR.confirmation hm ht hloc)

theorem keeps_close (hR : Rules E P) {m : Message} {u : Option String} (hm : P.accepts m)
    (ht : m.type = some .CLOSE_CONNECTION) (hd : m.data = .closeConnection u)
    (hloc : isLocal E (m.setTo u) = true) :
    Keeps (Meets E P) ((CloseConnectionMessageProcessor.processor E).process (m.setTo u))
      fun _ => True := by
  refine (keeps_getData _ _).bind fun data hdata => (keeps_orNullPointer _ _).bind fun u' hu' => ?_
  have hu'' : u' = u := by
    have := hdata u' hu'
    rw [MessageOf.setTo_data, hd] at this
    exact (Option.some.inj this).symm
  subst hu''
  split
  · exact .pure trivial
  · next app happ =>
    refine .ite (fun h => ?_) fun _ => .pure trivial
    exact keeps_deliverMessage hR (hR.close hm ht hd hloc happ h)

/-! ### Authentication -/

theorem keeps_sendReply (hR : Rules E P) {m : Message} {reply : AuthClientReply}
    (h : ∀ a k, m.originalAddress = some a → P.delivers
      (AuthClientMessageProcessor.replyMessage E (E.blank k) a.connectorName m.note reply)) :
    Keeps (Meets E P) (AuthClientMessageProcessor.sendReply E m reply) fun _ => True := by
  refine (keeps_orNullPointer _ _).bind fun t ht => (keeps_orNullPointer _ _).bind fun a ha => ?_
  have hnote : m.note = t.note := by rw [MessageOf.note, ht]; rfl
  have haddr : m.originalAddress = some a := by rw [MessageOf.originalAddress, ht]; exact ha
  refine keeps_builder.bind fun b hb => .reraise ?_
  obtain ⟨k, hk⟩ := hb
  rw [hk, ← hnote]
  exact keeps_deliverMessage hR (h a k haddr)

theorem keeps_auth (hR : Rules E P) {m : Message} (hm : P.accepts m)
    (ht : m.type = some .AUTH_CLIENT) (hloc : isLocal E m = true) :
    Keeps (Meets E P) ((AuthClientMessageProcessor.processor E).process m) fun _ => True := by
  refine (keeps_getData _ _).bind fun data hdata => (keeps_orNullPointer _ _).bind fun d hd => ?_
  have hd' : m.data = .authClient d := Data.authClient?_eq_some.1 (hdata d hd)
  have hfail : Keeps (Meets E P) (AuthClientMessageProcessor.fail E m d) fun _ => True :=
    keeps_sendReply hR fun a k ha => hR.auth hm ht hd' hloc (.inl rfl) ha
  split
  · exact hfail
  · next app happ =>
    refine .ite (fun _ => hfail) fun hid => .ite (fun _ => hfail) fun hdom => ?_
    refine .ite (fun hen => ?_) fun _ => .ite (fun _ => hfail) fun _ => ?_
    · refine keeps_sendReply hR fun a k ha => hR.auth hm ht hd' hloc (.inr ⟨rfl, app, happ, ?_⟩) ha
      exact ⟨not_not.1 hid, by simpa using hdom, by simpa using hen⟩
    · refine .ite (fun _ => .modify (fun s hs => { hs with httpCalls := fun c hc => ?_ }) trivial)
        fun _ => .fail
      rcases List.mem_append.1 hc with hc | hc
      · exact hs.httpCalls c hc
      · cases List.mem_singleton.1 hc
        exact hR.call hm ht hd' hloc

/-- The reply of an endpoint is passed on where it is about the same app and user. -/
theorem keeps_complete (hR : Rules E P) {c : HttpCall} {outcome : HttpOutcome}
    (h : ∀ a k reply, c.message.originalAddress = some a →
      reply = ⟨c.data.appId, c.data.userId, some false⟩ ∨
        (∃ status, outcome = .response status (some (some reply))) ∧
          c.data.appId = reply.appId ∧ c.data.userId = reply.userId →
      P.delivers (AuthClientMessageProcessor.replyMessage E (E.blank k) a.connectorName
        c.message.note reply)) :
    Keeps (Meets E P) (HttpCall.complete E c outcome) fun _ => True := by
  have hfail : Keeps (Meets E P) (AuthClientMessageProcessor.fail E c.message c.data)
      fun _ => True := keeps_sendReply hR fun a k ha => h a k _ ha (.inl rfl)
  have hexc : Keeps (Meets E P)
      ((AuthClientMessageProcessor.fail E c.message c.data).recover fun _ => pure ())
      fun _ => True := hfail.recover fun _ => .pure trivial
  unfold HttpCall.complete
  split
  · exact hexc
  · exact hexc
  · next status reply =>
    refine Keeps.recover ?_ fun _ => hexc
    refine (keeps_orNullPointer _ _).bind fun reply' hreply => .ite (fun heq => ?_) fun _ => hfail
    subst hreply
    exact keeps_sendReply hR fun a k ha => h a k _ ha (.inr ⟨⟨status, rfl⟩, heq⟩)

/-! ### Group messages -/

section Groups

open CustomGroupMessageProcessor

omit [JavaChar] in
theorem mem_get_add {A : Type} [BEq A] [LawfulBEq A] {g : Groups A} {k k' : Option String}
    {a b : A} (h : b ∈ (g.add k a).get k') : k' = k ∧ b = a ∨ b ∈ g.get k' := by
  rw [Groups.get_add] at h
  split_ifs at h with hk
  · rcases List.mem_insert_iff.1 h with hb | hb
    · exact .inl ⟨hk, hb⟩
    · exact .inr (hk ▸ hb)
  · exact .inr h

/-- The groups of a group message hold its recipients, each with the domain it lives in. -/
theorem mem_groupByDomain {users : List (Option String)} {k u : Option String}
    (h : u ∈ (groupByDomain E users).get k) : u ∈ users ∧ resolveDomain E u = k := by
  have hgen : ∀ (l : List (Option String)) (g : Groups (Option String)),
      u ∈ (l.foldl (fun g toUser => g.add (resolveDomain E toUser) toUser) g).get k →
      (u ∈ l ∧ resolveDomain E u = k) ∨ u ∈ g.get k := by
    intro l
    induction l with
    | nil => exact fun g hg => .inr hg
    | cons a l ih =>
      intro g hg
      rcases ih _ hg with h | h
      · exact .inl ⟨List.mem_cons_of_mem a h.1, h.2⟩
      · rcases mem_get_add h with ⟨rfl, rfl⟩ | h
        · exact .inl ⟨List.mem_cons_self, rfl⟩
        · exact .inr h
  exact (hgen users [] h).resolve_right (by simp [Groups.get])

variable {m : Message} {d : GroupMessage}

theorem keeps_processUserAddressNotFound (hR : Rules E P) (hp : Processes E P process)
    (hm : P.accepts m) (ht : m.type = some .GROUP_MESSAGE) (hd : m.data = .groupMessage d)
    {users : List (Option String)} (hu : d.to_ = some users) {u : Option String} (hmem : u ∈ users) :
    Keeps (Meets E P) (processUserAddressNotFound E process u m d) fun _ => True := by
  refine (keeps_orNullPointer _ _).bind fun c hc => (keeps_orNullPointer _ _).bind fun _ _ => ?_
  refine keeps_builder.bind fun b ⟨k, hk⟩ => .reraise ?_
  rw [hk]
  exact hp _ (hR.groupUser hm ht hd hu hmem hc)

theorem keeps_groupByConnector (hR : Rules E P) (hp : Processes E P process) (hm : P.accepts m)
    (ht : m.type = some .GROUP_MESSAGE) (hd : m.data = .groupMessage d)
    {users : List (Option String)} (hu : d.to_ = some users) (l : List (Option String))
    (hl : ∀ u ∈ l, HereIn E users u) (g : Groups ConnectorUserId)
    (hg : ∀ name, ∀ x ∈ g.get name, HereIn E users x.userId) :
    Keeps (Meets E P) (groupByConnector E process m d l g)
      fun g => ∀ name, ∀ x ∈ g.get name, HereIn E users x.userId := by
  induction l generalizing g with
  | nil => exact .pure hg
  | cons u l ih =>
    have hrest := fun g hg => ih (fun v hv => hl v (List.mem_cons_of_mem u hv)) g hg
    have hadd : ∀ (addresses : List Address) (g : Groups ConnectorUserId),
        (∀ name, ∀ x ∈ g.get name, HereIn E users x.userId) →
        ∀ name, ∀ x ∈ (addresses.foldl (fun g (a : Address) =>
          g.add a.connectorName ⟨u, a.socketId⟩) g).get name, HereIn E users x.userId := by
      intro addresses
      induction addresses with
      | nil => exact fun g hg => hg
      | cons a addresses ih =>
        refine fun g hg => ih _ fun name x hx => ?_
        rcases mem_get_add hx with ⟨-, rfl⟩ | hx
        · exact hl u List.mem_cons_self
        · exact hg name x hx
    refine (keeps_routeTargetAddresses _ _ _).bind fun addresses _ => ?_
    refine .ite (fun _ => ?_) fun _ => hrest _ (hadd addresses g hg)
    exact (keeps_processUserAddressNotFound hR hp hm ht hd hu (hl u List.mem_cons_self).1).bind
      fun _ _ => hrest _ (hadd addresses g hg)

theorem keeps_group (hR : Rules E P) (hp : Processes E P process) (hm : P.accepts m)
    (ht : m.type = some .GROUP_MESSAGE) :
    Keeps (Meets E P) ((CustomGroupMessageProcessor.processor E process).process m)
      fun _ => True := by
  refine (keeps_getData _ _).bind fun data hdata => (keeps_orNullPointer _ _).bind fun d hd => ?_
  have hd' : m.data = .groupMessage d := Data.groupMessage?_eq_some.1 (hdata d hd)
  refine (keeps_orNullPointer _ _).bind fun users hu => .forEach fun domain _ => ?_
  refine .ite (fun hdomain => ?_) fun _ => ?_
  · have hmem : ∀ u ∈ E.keyOrder ((groupByDomain E users).get domain), HereIn E users u := by
      intro u h
      obtain ⟨hmem, hres⟩ := mem_groupByDomain ((E.keyOrder_perm _).mem_iff.1 h)
      exact ⟨hmem, hres ▸ hdomain⟩
    have hnil : ∀ name, ∀ x ∈ Groups.get name ([] : Groups ConnectorUserId),
        HereIn E users x.userId := fun name x hx => by cases hx
    refine (keeps_groupByConnector hR hp hm ht hd' hu _ hmem [] hnil).bind fun g hg => ?_
    refine .forEach fun name _ => (keeps_orNullPointer _ _).bind fun c hc => ?_
    refine (keeps_orNullPointer _ _).bind fun _ _ => keeps_builder.bind fun b ⟨k, hk⟩ => .reraise ?_
    rw [hk]
    exact keeps_deliverMessage hR (hR.groupConnector name hm ht hd' hu (hg name) hc)
  · refine (keeps_orNullPointer _ _).bind fun c hc => (keeps_orNullPointer _ _).bind fun _ _ => ?_
    refine keeps_builder.bind fun b ⟨k, hk⟩ => .reraise ?_
    rw [hk]
    exact hp _ (hR.groupOther hm ht hd' hu (fun u hu => (mem_groupByDomain hu).1) hc)

end Groups

/-! ### Presence -/

theorem channels_insert {s : State} (hs : Meets E P s) {u : String} {a : Option Address}
    (ha : ∀ b, a = some b → P.registers b) :
    Meets E P { s with channels := UserChannelService.insert u a s.channels } :=
  { hs with channels := UserChannelService.forall_insert hs.channels u ha }

theorem channels_delete {s : State} (hs : Meets E P s) (u : String) (a : Option Address) :
    Meets E P { s with channels := UserChannelService.delete u a s.channels } :=
  { hs with channels := UserChannelService.forall_delete hs.channels u a }

theorem keeps_getById (u : Option String) (m : Message) :
    Keeps (Meets E P) (UserChannelService.getById u m) fun _ => True := by
  cases u with
  | none => exact .fail
  | some u => exact .read fun _ _ => trivial

theorem keeps_addAddress {u : Option String} {a : Option Address} {m : Message}
    (ha : ∀ b, a = some b → P.registers b) :
    Keeps (Meets E P) (UserChannelService.addAddress u a m) fun _ => True := by
  refine (keeps_getById u m).bind fun _ _ => ?_
  cases u with
  | none => exact .pure trivial
  | some u => exact .modify (fun _ hs => channels_insert hs ha) trivial

theorem keeps_removeAddress (u : Option String) (a : Option Address) (m : Message) :
    Keeps (Meets E P) (UserChannelService.removeAddress u a m) fun _ => True := by
  refine (keeps_getById u m).bind fun channel _ => ?_
  cases u with
  | none => exact .pure trivial
  | some u =>
    cases channel with
    | none => exact .pure trivial
    | some l => exact .modify (fun _ hs => channels_delete hs u a) trivial

theorem keeps_presence (hR : Rules E P) (hp : Processes E P process) {m : Message}
    (hm : P.accepts m) {view : Data → Option (Option String)}
    {operation : Option String → Option Address → Message → Proc Unit}
    (ht : ∀ u, view m.data = some u →
      m.type = some .USER_CONNECTED ∧ m.data = .userConnected u ∨
        m.type = some .USER_DISCONNECTED ∧ m.data = .userDisconnected u)
    (ht' : m.type = some .USER_CONNECTED ∨ m.type = some .USER_DISCONNECTED)
    (hloc : isLocal E m = true)
    (hop : ∀ u, isProcessorMessage m = true →
      Keeps (Meets E P) (operation u m.originalAddress m) fun _ => True) :
    Keeps (Meets E P) ((presenceProcessor E view operation process).process m) fun _ => True := by
  refine (keeps_getData _ _).bind fun data hdata => .ite (fun h => ?_) fun h => ?_
  · exact keeps_deliverMessage hR (hR.presence hm ht' hloc (by simpa using h))
  have hproc : isProcessorMessage m = true := by simpa using h
  have hmaster : Keeps (Meets E P) (do
      let userId ← orNullPointer m data
      sendMessageToMasterUser E process m userId) fun _ => True := by
    refine (keeps_orNullPointer _ _).bind fun u hu => ?_
    unfold sendMessageToMasterUser
    split
    · exact .pure trivial
    · next app happ =>
      split
      · next hc =>
        exact hp _ (hR.master hm (ht u (hdata u hu)) hproc happ (by simpa using hc.2))
      · exact .pure trivial
  refine .ite (fun _ => ?_) fun _ => hmaster
  refine (keeps_orNullPointer _ _).bind fun u _ => (keeps_orNullPointer _ _).bind fun t htm => ?_
  have haddr : m.originalAddress = t.originalAddress := by
    rw [MessageOf.originalAddress, htm]; rfl
  rw [← haddr]
  exact (hop u hproc).bind fun _ _ => hmaster

theorem keeps_userConnected (hR : Rules E P) (hp : Processes E P process) {m : Message}
    (hm : P.accepts m) (ht : m.type = some .USER_CONNECTED) (hloc : isLocal E m = true) :
    Keeps (Meets E P) ((UserConnectedMessageProcessor.processor E process).process m)
      fun _ => True :=
  keeps_presence hR hp hm (fun _ hu => .inl ⟨ht, Data.userConnected?_eq_some.1 hu⟩) (.inl ht) hloc
    fun _ hproc => keeps_addAddress fun _ hb => hR.register hm ht hloc hproc hb

theorem keeps_userDisconnected (hR : Rules E P) (hp : Processes E P process) {m : Message}
    (hm : P.accepts m) (ht : m.type = some .USER_DISCONNECTED) (hloc : isLocal E m = true) :
    Keeps (Meets E P) ((UserDisconnectedMessageProcessor.processor E process).process m)
      fun _ => True :=
  keeps_presence hR hp hm (fun _ hu => .inr ⟨ht, Data.userDisconnected?_eq_some.1 hu⟩) (.inr ht)
    hloc fun u _ => keeps_removeAddress u _ m

/-! ### Fetching -/

theorem keeps_remove (m : Message) :
    Keeps (Meets E P) (MessageRepository.remove m) fun _ => True :=
  .modify (fun _ hs => { hs with
    messages := fun r hr => hs.messages r (MessageRepository.mem_erase.1 hr).1 }) trivial

theorem keeps_fetch (hR : Rules E P) {m : Message} (hm : P.accepts m)
    (ht : m.type = some .FETCH_MISSING_MESSAGES_REQUEST) (hloc : isLocal E m = true) :
    Keeps (Meets E P) ((FetchMissingMessagesMessageProcessor.processor E).process m)
      fun _ => True := by
  refine (keeps_getData _ _).bind fun _ _ => (keeps_orNullPointer _ _).bind fun _ _ => ?_
  refine (keeps_orNullPointer _ _).bind fun count _ => ?_
  split
  · exact .fail
  · have hfind : Keeps (Meets E P) (MessageRepository.findMessages m.from_ none fetchableStates
        (min FetchMissingMessagesMessageProcessor.MAX_COUNT count) m)
        fun page => ∀ r ∈ page.content, P.delivers r := by
      refine .ite (fun _ => .fail) fun _ => .read fun s hs r hr => ?_
      obtain ⟨hmem, hcrit⟩ := MessageRepository.mem_page hr
      simp only [MessageRepository.criteria, Bool.and_eq_true, List.any_eq_true] at hcrit
      obtain ⟨⟨-, st, hst, hstate⟩, -⟩ := hcrit
      exact hR.fetch (hs.messages r hmem) (by simpa using hstate) hst
    refine hfind.bind fun page hpage => ?_
    refine Keeps.bind (Q := fun _ => True) (.forEach fun r hr => .reraise ?_) fun _ _ => ?_
    · exact (keeps_deliverMessage hR (hpage r hr)).bind fun _ _ => keeps_remove r
    · refine keeps_builder.bind fun b ⟨k, hk⟩ => .reraise ?_
      rw [hk]
      exact keeps_deliverMessage hR (hR.complete _ hm ht hloc)

/-! ### State changes -/

/-- Only a `MESSAGE` that was written to a socket was delivered. -/
theorem keeps_deliveredHere {I : State → Prop} (m : Message) (st : Option MessageState) :
    Keeps I (MessageStateChangedMessageProcessor.deliveredHere E m st) fun b =>
      b = true → st = some .PROCESSED ∧ m.type = some .MESSAGE := by
  refine .ite (fun _ => .pure fun h => by cases h) fun hp => ?_
  refine (keeps_orNullPointer _ _).bind fun c hc => .ite (fun _ => .pure fun h => by cases h) ?_
  intro htype
  refine (keeps_orNullPointer _ _).bind fun t _ => (keeps_orNullPointer _ _).bind fun a _ => ?_
  refine .pure fun _ => ⟨not_not.1 hp, ?_⟩
  rw [type_eq hc]
  exact not_not.1 htype

theorem keeps_report (hR : Rules E P) (hp : Processes E P process) {m : Message}
    (hm : P.accepts m) (ht : m.type = some .MESSAGE_STATE_CHANGED) :
    Keeps (Meets E P) ((MessageStateChangedMessageProcessor.processor E process).process m)
      fun _ => True := by
  refine (keeps_getData _ _).bind fun data hdata => .reraise ?_
  refine (keeps_orNullPointer _ _).bind fun d hd => ?_
  obtain ⟨message, st⟩ := d
  have hd' : m.data = .messageStateChanged message st :=
    Data.messageStateChanged?_eq_some.1 (hdata _ hd)
  refine (keeps_orNullPointer _ _).bind fun msg hmsg => ?_
  subst hmsg
  refine .ite (fun hst => ?_) fun hst => ?_
  · subst hst
    refine (keeps_orNullPointer _ _).bind fun t _ => (keeps_removeAddress _ _ _).bind fun _ _ => ?_
    exact keeps_deliverMessage hR (hR.lost hm ht hd')
  refine (keeps_persistMessage hR fun hf hst' => hR.changed hm ht hd' hst hst' hf).bind
    fun msg' hmsg' => ?_
  refine (keeps_deliveredHere msg' st).bind fun confirms hconf =>
    .ite (fun h => ?_) fun _ => .pure trivial
  obtain ⟨hproc, htype⟩ := hconf h
  rw [hmsg'.type] at htype
  subst hproc
  refine (keeps_orNullPointer _ _).bind fun c _ => .ite (fun _ => .pure trivial) fun _ => ?_
  refine (keeps_orNullPointer _ _).bind fun enabled _ => .ite (fun _ => ?_) fun _ => .pure trivial
  refine keeps_builder.bind fun b ⟨k, hk⟩ => hp _ ?_
  have hsame : MessageStateChangedMessageProcessor.confirmMessage E b msg' =
      MessageStateChangedMessageProcessor.confirmMessage E b msg := by
    simp only [MessageStateChangedMessageProcessor.confirmMessage, hmsg'.from_, hmsg'.content]
  rw [hsame, hk]
  exact hR.confirm hm ht hd' htype

/-! ### Internal messages -/

theorem keeps_innerMessage (m : Message) :
    Keeps (Meets E P) (InternalMessageProcessor.innerMessage m) fun i => m.data = .message i := by
  refine (keeps_getData _ _).bind fun data hdata => (keeps_orNullPointer _ _).mono fun i hi => ?_
  exact Data.message?_eq_some.1 (hdata i hi)

/-- The wrapper as `InternalMessageProcessor` prepares it. -/
inductive Addressed (m : Message) : Message → Prop
  | given : Addressed m m
  | inner {i : Message} : isBlank m.to_ = true → m.data = .message i → Addressed m (m.setTo i.to_)

theorem keeps_preprocessInternal (m : Message) :
    Keeps (Meets E P) ((InternalMessageProcessor.processor E process).preprocess m) (Addressed m) := by
  refine (keeps_getData _ _).bind fun _ _ => .ite (fun hb => ?_) fun _ => .pure .given
  exact (keeps_innerMessage m).bind fun i hi => .pure (.inner hb hi)

theorem keeps_processInternal (hR : Rules E P) (hp : Processes E P process) {m m' : Message}
    (hm : P.accepts m) (ht : m.type = some .INTERNAL_MESSAGE) (hm' : Addressed m m') :
    Keeps (Meets E P) ((InternalMessageProcessor.processor E process).process m')
      fun _ => True := by
  have hdata : m'.data = m.data := by cases hm' <;> rfl
  refine (keeps_getData _ _).bind fun _ _ => (keeps_isCurrentDomainMessage m').bind fun b hb => ?_
  refine .ite (fun _ => ?_) fun h => keeps_deliverMessage hR ?_
  · refine (keeps_innerMessage m').bind fun i hi => .reraise (hp i ?_)
    exact hR.unwrap hm ht (hdata ▸ hi)
  · have hloc : isLocal E m' = false := by rw [← hb]; simpa using h
    cases hm' with
    | given => exact hR.route hm ht hloc
    | inner hblank hi => exact hR.routeInner hm ht hi hblank hloc

/-! ### The message processor service -/

theorem keeps_processCrossDomainMessage (hR : Rules E P) (hp : Processes E P process)
    {m p : Message} (hm : P.accepts m) (hprep : Prepared m p) (hloc : isLocal E p = false)
    (ht : p.type ≠ some .INTERNAL_MESSAGE) :
    Keeps (Meets E P) (processCrossDomainMessage E process p) fun _ => True := by
  refine (keeps_orNullPointer _ _).bind fun c hc => .ite (fun h => ?_) fun _ => ?_
  · exact absurd ((type_eq hc).trans h) ht
  refine keeps_builder.bind fun b ⟨k, hk⟩ => (keeps_orNullPointer _ _).bind fun t htm => ?_
  refine (keeps_resolveDomainName p).bind fun d hd => .reraise ?_
  rw [hk, hd]
  exact hp _ (hR.cross hm hprep hloc hc)

/-- A handler that prepares a message, and processes it if it is for the current domain. -/
theorem keeps_handler (hR : Rules E P) (hp : Processes E P process) {m : Message}
    (hm : P.accepts m) {processor : MessageProcessor} {ty : MessageType}
    (hty : ty ≠ .INTERNAL_MESSAGE) (ht : m.type = some ty)
    (hpre : Keeps (Meets E P) (processor.preprocess m) (Prepared m))
    (hproc : ∀ p, Prepared m p → isLocal E p = true →
      Keeps (Meets E P) (processor.process p) fun _ => True) :
    Keeps (Meets E P) (do
      let m ← processor.preprocess m
      if some ty ≠ some .INTERNAL_MESSAGE then do
        let here ← isCurrentDomainMessage E m
        if here then processor.process m else processCrossDomainMessage E process m
      else processor.process m) fun _ => True := by
  refine hpre.bind fun p hprep => .ite (fun _ => ?_) fun h => absurd (by simpa using h) hty
  have hpt : p.type ≠ some .INTERNAL_MESSAGE := by
    have : p.type = m.type := by cases hprep <;> rfl
    rw [this, ht]
    simpa using hty
  refine (keeps_isCurrentDomainMessage p).bind fun b hb => .ite (fun h => ?_) fun h => ?_
  · exact hproc p hprep (hb ▸ h)
  · exact keeps_processCrossDomainMessage hR hp hm hprep (by rw [← hb]; simpa using h) hpt

/-- A handler without a pass of its own over the message. -/
theorem keeps_plainHandler (hR : Rules E P) (hp : Processes E P process) {m : Message}
    (hm : P.accepts m) {T : Type} {view : Data → Option T} {doProcess : Message → Option T → Proc Unit}
    {ty : MessageType} (ht : m.type = some ty)
    (hty : ty ≠ .MESSAGE ∧ ty ≠ .CLOSE_CONNECTION ∧ ty ≠ .INTERNAL_MESSAGE)
    (hproc : isLocal E m = true →
      Keeps (Meets E P) (({ view, doProcess } : MessageProcessor).process m) fun _ => True) :
    Keeps (Meets E P) (do
      let m ← ({ view, doProcess } : MessageProcessor).preprocess m
      if some ty ≠ some .INTERNAL_MESSAGE then do
        let here ← isCurrentDomainMessage E m
        if here then ({ view, doProcess } : MessageProcessor).process m
        else processCrossDomainMessage E process m
      else ({ view, doProcess } : MessageProcessor).process m) fun _ => True := by
  refine keeps_handler hR hp hm hty.2.2 ht ?_ fun p hprep hloc => ?_
  · refine (keeps_getData _ _).bind fun _ _ => .pure (.other ?_ ?_ ?_)
    · simpa [ht] using hty.1
    · simpa [ht] using hty.2.1
    · simpa [ht] using hty.2.2
  · have hpm : p = m := by
      cases hprep with
      | message h => exact absurd (Option.some.inj (ht.symm.trans h)) hty.1
      | close h => exact absurd (Option.some.inj (ht.symm.trans h)) hty.2.1
      | other => rfl
    rw [hpm] at hloc ⊢
    exact hproc hloc

/-- One call of `process`, given what its inner calls keep. -/
theorem keeps_processWith (hR : Rules E P) (hp : Processes E P process) {m : Message}
    (hm : P.accepts m) : Keeps (Meets E P) (processWith E process m) fun _ => True := by
  have hnote : Keeps (Meets E P) (Proc.note (.processing m)) fun _ => True :=
    .modify (fun _ hs => meets_note hs m) trivial
  refine hnote.bind fun _ _ => (keeps_orNullPointer _ _).bind fun _ _ => ?_
  have hm' : P.accepts m.touch := hR.touch hm
  refine (keeps_orNullPointer _ _).bind fun t _ => .ite (fun _ => .pure trivial) fun _ => ?_
  refine (keeps_orNullPointer _ _).bind fun c hc => ?_
  have htype : m.touch.type = c.type := type_eq hc
  cases hty : c.type with
  | none => exact .pure trivial
  | some ty =>
    rw [hty] at htype
    -- what a type without a handler brings is dropped
    cases ty
    case MESSAGE =>
      refine keeps_handler hR hp hm' (by decide) htype ?_ fun p hprep hloc => ?_
      · refine (keeps_getData _ _).bind fun _ hd => (keeps_orNullPointer _ _).bind fun d hd' => ?_
        exact .pure (.message htype (Data.messageRequest?_eq_some.1 (hd d hd')))
      · cases hprep with
        | message h hd => exact keeps_message hR hm' h hd hloc
        | close h => exact absurd (htype.symm.trans h) (by decide)
        | other h => exact absurd htype h
    case CLOSE_CONNECTION =>
      refine keeps_handler hR hp hm' (by decide) htype ?_ fun p hprep hloc => ?_
      · refine (keeps_getData _ _).bind fun _ hd => (keeps_orNullPointer _ _).bind fun u hu => ?_
        exact .pure (.close htype (Data.closeConnection?_eq_some.1 (hd u hu)))
      · cases hprep with
        | message h => exact absurd (htype.symm.trans h) (by decide)
        | close h hd => exact keeps_close hR hm' h hd hloc
        | other _ h => exact absurd htype h
    case INTERNAL_MESSAGE =>
      refine (keeps_preprocessInternal _).bind fun p hp' => .ite (fun h => absurd rfl h) fun _ => ?_
      exact keeps_processInternal hR hp hm' htype hp'
    case MESSAGE_CONFIRMATION =>
      exact keeps_plainHandler hR hp hm' htype (by decide) (keeps_confirmation hR hm' htype)
    case AUTH_CLIENT =>
      exact keeps_plainHandler hR hp hm' htype (by decide) (keeps_auth hR hm' htype)
    case GROUP_MESSAGE =>
      exact keeps_plainHandler hR hp hm' htype (by decide) fun _ => keeps_group hR hp hm' htype
    case USER_CONNECTED =>
      exact keeps_plainHandler hR hp hm' htype (by decide) (keeps_userConnected hR hp hm' htype)
    case USER_DISCONNECTED =>
      exact keeps_plainHandler hR hp hm' htype (by decide) (keeps_userDisconnected hR hp hm' htype)
    case FETCH_MISSING_MESSAGES_REQUEST =>
      exact keeps_plainHandler hR hp hm' htype (by decide) (keeps_fetch hR hm' htype)
    case MESSAGE_STATE_CHANGED =>
      exact keeps_plainHandler hR hp hm' htype (by decide) fun _ => keeps_report hR hp hm' htype
    all_goals exact .pure trivial

/-- **`process` keeps to the policy**, on every message that the policy accepts. -/
theorem keeps_process (hR : Rules E P) (depth : ℕ) : Processes E P (Processor.process E depth) := by
  induction depth with
  | zero => exact fun _ _ => .fail
  | succ depth ih => exact fun m hm => keeps_processWith hR ih hm

theorem keeps_service (hR : Rules E P) {m : Message} (hm : P.accepts m) :
    Keeps (Meets E P) (MessageProcessorService.process E m) fun _ => True := by
  rw [MessageProcessorService.process]
  exact keeps_process hR (callDepth m) m hm

/-! ### The ways in -/

/-- A message whose processing throws is stored as `PROCESSOR_ERROR`. -/
theorem meets_onMessageArrived (hR : Rules E P) {m : Message} {s : State} (hs : Meets E P s)
    (hm : P.accepts m)
    (herr : ∀ e, ((MessageProcessorService.process E m).run s).1 = .error e →
      e.message.feature = some .RELIABLE → P.keeps (e.message.setState (some .PROCESSOR_ERROR))) :
    Meets E P ((onMessageArrived E m).run s).2 := by
  unfold onMessageArrived
  refine Keeps.run_recoverIf ((keeps_service hR hm).run hs) fun e s' hrun hs' => ?_
  have herr' := herr e (congrArg Prod.fst hrun)
  exact ((keeps_persistMessage hR fun hf _ => herr' hf).bind (R := fun _ => True)
    fun _ _ => .pure trivial).run hs'

theorem meets_onRecordArrived (hR : Rules E P) {m : Message} {s : State} (hs : Meets E P s)
    (hm : P.accepts m)
    (herr : ∀ e, ((MessageProcessorService.process E m).run s).1 = .error e →
      e.message.feature = some .RELIABLE → P.keeps (e.message.setState (some .PROCESSOR_ERROR))) :
    Meets E P ((onRecordArrived E m).run s).2 := by
  unfold onRecordArrived
  exact Keeps.run_recoverIf (meets_onMessageArrived hR hs hm herr) fun _ _ _ hs' => hs'

/-- A message that a tunnel brings is wrapped and handled like a record of the topic. -/
theorem meets_handleInternalMessage (hR : Rules E P) {type : Option MessageType} {data : Data}
    {s : State} (hs : Meets E P s)
    (h : ∀ i t c, data = .message i → i.meta_ = some t → i.content = some c →
      P.accepts (DomainService.msgWrapper (E.blank s.serial) i type data t c) ∧
      ∀ e, ((MessageProcessorService.process E (DomainService.msgWrapper (E.blank s.serial) i type data
          t c)).run s.next).1 = .error e →
        e.message.feature = some .RELIABLE → P.keeps (e.message.setState (some .PROCESSOR_ERROR))) :
    Meets E P ((DomainService.handleInternalMessage E type data).run s).2 := by
  have hnext : Meets E P s.next := { hs with }
  rw [DomainService.handleInternalMessage, run_bind_ok (run_builder E s)]
  cases hd : data.convert Data.message? with
  | error e => exact hnext
  | ok data' =>
    cases data' with
    | none => exact hnext
    | some i =>
      have hdata : data = .message i := Data.message?_eq_some.1 (Data.convert_eq_some hd)
      cases ht : i.meta_ with
      | none =>
        simp only [getMeta, orNullPointer, ht]
        exact hnext
      | some t =>
        cases hc : i.content with
        | none =>
          simp only [run_bind_ok (run_getMeta ht _), getContent, orNullPointer, hc]
          exact hnext
        | some c =>
          obtain ⟨hacc, herr⟩ := h i t c hdata ht hc
          simp only [run_bind_ok (run_getMeta ht _), run_bind_ok (run_getContent hc _)]
          exact meets_onMessageArrived hR hnext hacc herr

end Linker.Processor.Rules
