import Linker.Processor.Border
import Linker.Processor.Termination

/-!
# Processing on a call stack

`process` unwraps an internal message, and sends a presence message on to a master user whose name is
that of a processor, by calling itself, so a message can make it call itself as often as its wrappers
nest or its TTL allows.  Each such call takes a frame of the thread, and when they are used up a
`StackOverflowError` is thrown, which is no `Exception`.  Nothing else that the handlers do throws an
`Error`.

## Main definitions

* `processOn` : `process` on a stack with room for so many calls.
* `GoesOn`, `Nests` : how a message makes `process` call itself, read off the message.

## Main results

* `calm_processOn` : a message that does not nest so deep has no `Error` thrown.
* `overflows_of_nests` : one that does uses up the stack, whatever is stored.
* `exists_nests` : there are such messages for every stack.
-/

namespace Linker.Processor

open ProcessorUtils ClientAppService MessageProcessorService PostOffice Exec
open Termination (roundsLeft)

/-- What is thrown is no `Error`. -/
def Harmless (e : Thrown) : Prop := e.exception.isError = false

instance : Tolerates Harmless where
  nullPointer _ := rfl
  illegalArgument _ := rfl
  processMessage _ _ := rfl
  exception _ h := h

/-- Whatever state it starts in, `x` throws no `Error`. -/
abbrev Calm {α : Type} (x : Proc α) : Prop := Contract (fun _ => True) x (fun _ => True) Harmless

instance (m : Message) : Decidable (Termination.IsPresence m) := inferInstanceAs (Decidable (_ ∨ _))

section

variable [JavaChar] (E : Environment)

/-- `process` on a stack with room for so many calls one inside another, those counted by which an
internal message is unwrapped or a presence message sent on.  The other calls of `process` are at most
two deep whatever the message, and their frames are reckoned in. -/
def processOn : ℕ → Message → Proc Unit
  | 0, m => .throw .stackOverflow m
  | room + 1, m => processWith E (fun m' =>
      if m.type = some .INTERNAL_MESSAGE ∨ Termination.IsPresence m' then processOn room m'
      else MessageProcessorService.process E m') m

/-- A message is alive, and `process` calls itself with another to get on with it. -/
inductive GoesOn (m : Message) : Message → Prop
  /-- A wrapper is unwrapped in the domain it is for. -/
  | unwrap {i : Message} : 0 < roundsLeft m → m.type = some .INTERNAL_MESSAGE → m.data = .message i →
      isLocal E (opened m i) = true → GoesOn m i
  /-- A presence message to the processors is sent on to the master user of the app. -/
  | master {u : Option String} {app : ClientApp} : 0 < roundsLeft m →
      (m.type = some .USER_CONNECTED ∧ m.data = .userConnected u ∨
        m.type = some .USER_DISCONNECTED ∧ m.data = .userDisconnected u) →
      isLocal E m = true → isProcessorMessage m = true → getClientAppByUserId E u = some app →
      u ≠ app.masterUserId → isEmpty app.masterUserId = false →
      GoesOn m (m.touch.setTo app.masterUserId)

/-- Getting on with a message takes more calls, one inside another, than there is room for. -/
def Nests : ℕ → Message → Prop
  | 0, _ => True
  | room + 1, m => ∃ m', GoesOn E m m' ∧ Nests room m'

end

/-! ### No `Error` out of the post office -/

theorem calm_modify {f : State → State} : Calm (Exec.modify f : Proc Unit) :=
  .modify (fun _ _ => trivial) trivial

section

variable [JavaChar] {E : Environment}

omit [JavaChar] in
theorem calm_builder : Calm (builder E) :=
  (Contract.read (Q := fun _ => True) fun _ _ => trivial).bind fun _ _ =>
    calm_modify.bind fun _ _ => .pure trivial

omit [JavaChar] in
theorem calm_persistMessage (m : Message) (st : Option MessageState) : Calm (persistMessage E m st) := by
  refine (contract_orNullPointer _ _).bind fun c _ => .ite (fun _ => ?_) fun _ => .pure trivial
  have hid : Calm (MessageRepository.assignId E (m.setState st)) := by
    unfold MessageRepository.assignId
    split
    · exact .pure trivial
    · exact calm_builder.bind fun _ _ => .pure trivial
  exact hid.bind fun _ _ => calm_modify.bind fun _ _ => calm_modify.bind fun _ _ => .pure trivial

omit [JavaChar] in
theorem calm_express (delivery : ExpressDeliveryType) (target : Option String) (m : Message) :
    Calm (express E delivery target m) := by
  have hfailed : Calm (onMessageDeliveryFailed E m) :=
    (calm_persistMessage _ _).bind fun _ _ => .pure trivial
  refine (Contract.read (Q := fun _ => True) fun _ _ => trivial).bind fun refuses _ =>
    calm_modify.bind fun _ _ => ?_
  split
  · exact hfailed
  · exact .ite (fun _ => hfailed) fun _ => calm_modify

theorem calm_routeTargetAddresses (to_ : Option String) (d : Option DeliveryType) (m : Message) :
    Calm (routeTargetAddresses E to_ d m) := by
  refine .ite (fun _ => .pure trivial) fun _ => .ite (fun _ => .pure trivial) fun _ => ?_
  refine (contract_getById to_ m).bind fun l _ => ?_
  split
  · exact .pure trivial
  · refine .ite (fun _ => .pure trivial) fun _ => ?_
    have hint : ∀ n, Calm (Proc.nextInt n) := fun n =>
      (Contract.read (Q := fun _ => True) fun _ _ => trivial).bind fun _ _ =>
        calm_modify.bind fun _ _ => .pure trivial
    have hrandom : ∀ addresses, Calm (getRandomItemInCollection addresses) := fun addresses =>
      .ite (fun _ => .pure trivial) fun _ => (hint _).bind fun _ _ => .pure trivial
    exact (hrandom _).bind fun _ _ => .pure trivial

theorem calm_sendToConnector (m : Message) : Calm (sendToConnector E m) := by
  have hadjust : Calm (adjustDeliveryType E m) := by
    refine (contract_orNullPointer _ _).bind fun t _ => .ite (fun _ => ?_) fun _ => .pure trivial
    exact (contract_orNullPointer _ _).bind fun c _ =>
      .ite (fun _ => .pure trivial) fun _ => .pure trivial
  refine hadjust.bind fun m' _ => ?_
  refine ((contract_orNullPointer _ _).bind fun t _ =>
    calm_routeTargetAddresses m'.to_ t.deliveryType m').bind fun l _ => ?_
  refine .ite (fun _ => (calm_persistMessage _ _).bind fun _ _ => .pure trivial) fun _ => ?_
  refine (contract_orNullPointer _ _).bind fun c _ => ?_
  exact (contract_calcExpressDelivery _ _).bind fun delivery _ => .forEach fun a _ =>
    calm_express delivery _ _

theorem calm_deliverMessage (m : Message) : Calm (deliverMessage E m) := by
  have hpopulate : Calm (populateTargetAddress E m) := by
    refine (contract_orNullPointer _ _).bind fun t _ => ?_
    split <;> exact .pure trivial
  refine hpopulate.bind fun m' _ => (contract_isCurrentDomainMessage m').bind fun b _ =>
    .ite (fun _ => calm_sendToConnector m') fun _ => ?_
  have hassert : Calm (assertInternalMessage m') :=
    (contract_orNullPointer _ _).bind fun c _ => .ite (fun _ => .pure trivial) fun _ => .fail rfl
  refine hassert.bind fun _ _ => (contract_orNullPointer _ _).bind fun t _ => ?_
  split
  · exact .fail rfl
  · next a _ =>
    exact (contract_getNextDomainName a.domainName m').bind fun n _ =>
      .ite (fun _ => .fail rfl) fun _ => calm_sendToConnector _

/-! ### No `Error` out of the handlers -/

theorem calm_message (m : Message) : Calm ((CustomMessageProcessor.processor E).process m) := by
  refine (contract_getData _ _).bind fun data _ => (contract_orNullPointer _ _).bind fun d _ => ?_
  have hflag : ∀ m', Calm (CustomMessageProcessor.updateMessageConfirmationFlag m') := fun m' =>
    (contract_orNullPointer _ _).bind fun c _ => (contract_orNullPointer _ _).bind fun b _ =>
      (contract_orNullPointer _ _).bind fun t _ => .pure trivial
  exact (hflag _).bind fun m' _ => calm_deliverMessage m'

theorem calm_confirmation (m : Message) :
    Calm ((CustomMessageConfirmationProcessor.processor E).process m) :=
  (contract_getData _ _).bind fun _ _ => calm_deliverMessage m

theorem calm_close (m : Message) : Calm ((CloseConnectionMessageProcessor.processor E).process m) := by
  refine (contract_getData _ _).bind fun data _ => (contract_orNullPointer _ _).bind fun u _ => ?_
  split
  · exact .pure trivial
  · exact .ite (fun _ => calm_deliverMessage _) fun _ => .pure trivial

theorem calm_auth (m : Message) : Calm ((AuthClientMessageProcessor.processor E).process m) := by
  refine (contract_getData _ _).bind fun data _ => (contract_orNullPointer _ _).bind fun d _ => ?_
  have hreply : ∀ reply, Calm (AuthClientMessageProcessor.sendReply E m reply) := fun reply =>
    (contract_orNullPointer _ _).bind fun t _ => (contract_orNullPointer _ _).bind fun a _ =>
      calm_builder.bind fun b _ => contract_during (calm_deliverMessage _)
  split
  · exact hreply _
  · refine .ite (fun _ => hreply _) fun _ => .ite (fun _ => hreply _) fun _ => ?_
    refine .ite (fun _ => hreply _) fun _ => .ite (fun _ => hreply _) fun _ => ?_
    exact .ite (fun _ => calm_modify) fun _ => .fail rfl

theorem calm_fetch (m : Message) :
    Calm ((FetchMissingMessagesMessageProcessor.processor E).process m) := by
  refine (contract_getData _ _).bind fun data _ => (contract_orNullPointer _ _).bind fun n _ =>
    (contract_orNullPointer _ _).bind fun count _ => ?_
  split
  · exact .fail rfl
  have hfind : ∀ size, Calm (MessageRepository.findMessages m.from_ none
      FetchMissingMessagesMessageProcessor.fetchableStates size m) := fun size =>
    .ite (fun _ => .fail rfl) fun _ => .read fun _ _ => trivial
  refine (hfind _).bind fun page _ => Contract.bind (Q := fun _ => True)
    (.forEach fun r _ => contract_during ?_) fun _ _ => ?_
  · exact (calm_deliverMessage r).bind fun _ _ => calm_modify
  · exact calm_builder.bind fun b _ => (calm_deliverMessage _).reraise fun _ he => he

variable {process : Message → Proc Unit} {m : Message}

section Groups

open CustomGroupMessageProcessor

theorem calm_group (hp : ∀ m', ¬ Termination.IsPresence m' → Calm (process m')) :
    Calm ((CustomGroupMessageProcessor.processor E process).process m) := by
  refine (contract_getData _ _).bind fun data _ => (contract_orNullPointer _ _).bind fun d _ => ?_
  refine (contract_orNullPointer _ _).bind fun users _ => .forEach fun domain _ => ?_
  have hsingle : ∀ u, Calm (processUserAddressNotFound E process u m d) := fun u =>
    (contract_orNullPointer _ _).bind fun c _ => (contract_orNullPointer _ _).bind fun _ _ =>
      calm_builder.bind fun b _ => contract_during (hp _ (by rintro (h | h) <;> cases h))
  have hgroups : ∀ (l : List (Option String)) (g : Groups ConnectorUserId),
      Calm (groupByConnector E process m d l g) := by
    intro l
    induction l with
    | nil => exact fun g => .pure trivial
    | cons u l ih =>
      refine fun g => (calm_routeTargetAddresses _ _ _).bind fun addresses _ => ?_
      exact .ite (fun _ => (hsingle u).bind fun _ _ => ih _) fun _ => ih _
  refine .ite (fun _ => (hgroups _ _).bind fun g _ => .forEach fun name _ => ?_) fun _ => ?_
  · exact (contract_orNullPointer _ _).bind fun c _ => (contract_orNullPointer _ _).bind fun _ _ =>
      calm_builder.bind fun b _ => contract_during (calm_deliverMessage _)
  · exact (contract_orNullPointer _ _).bind fun c _ => (contract_orNullPointer _ _).bind fun _ _ =>
      calm_builder.bind fun b _ => contract_during (hp _ (by rintro (h | h) <;> cases h))

end Groups

omit [JavaChar] in
theorem calm_addAddress (u : Option String) (a : Option Address) (m : Message) :
    Calm (UserChannelService.addAddress u a m) := by
  refine (contract_getById u m).bind fun _ _ => ?_
  split
  · exact calm_modify
  · exact .pure trivial

omit [JavaChar] in
theorem calm_removeAddress (u : Option String) (a : Option Address) (m : Message) :
    Calm (UserChannelService.removeAddress u a m) := by
  refine (contract_getById u m).bind fun _ _ => ?_
  split
  · exact calm_modify
  · exact .pure trivial

theorem calm_report (hp : ∀ m', ¬ Termination.IsPresence m' → Calm (process m')) :
    Calm ((MessageStateChangedMessageProcessor.processor E process).process m) := by
  refine (contract_getData _ _).bind fun data _ => contract_during ?_
  refine (contract_orNullPointer _ _).bind fun d _ => (contract_orNullPointer _ _).bind fun msg _ => ?_
  refine .ite (fun _ => (contract_orNullPointer _ _).bind fun t _ =>
    (calm_removeAddress _ _ _).bind fun _ _ => calm_deliverMessage msg) fun _ => ?_
  refine (calm_persistMessage _ _).bind fun msg' _ => (contract_deliveredHere msg' _).bind
    fun confirms _ => .ite (fun _ => ?_) fun _ => .pure trivial
  refine (contract_orNullPointer _ _).bind fun c _ => .ite (fun _ => .pure trivial) fun _ => ?_
  refine (contract_orNullPointer _ _).bind fun enabled _ => .ite (fun _ => ?_) fun _ => .pure trivial
  exact calm_builder.bind fun b _ => hp _ (by rintro (h | h) <;> cases h)

/-- A presence message is sent on to the master user, if at all. -/
theorem calm_presence {view : Data → Option (Option String)}
    {operation : Option String → Option Address → Message → Proc Unit}
    (hop : ∀ u a, Calm (operation u a m))
    (hp : isProcessorMessage m = true → ∀ u app, view m.data = some u →
      getClientAppByUserId E u = some app → u ≠ app.masterUserId →
      isEmpty app.masterUserId = false → Calm (process (m.setTo app.masterUserId))) :
    Calm ((presenceProcessor E view operation process).process m) := by
  refine (contract_getData _ _).bind fun data hdata =>
    .ite (fun _ => calm_deliverMessage m) fun h => ?_
  have hsend : Calm (do
      let userId ← orNullPointer m data
      sendMessageToMasterUser E process m userId) := by
    refine (contract_orNullPointer _ _).bind fun u hu => ?_
    unfold sendMessageToMasterUser
    split
    · exact .pure trivial
    · next app happ =>
      split
      · next hne => exact hp (by simpa using h) u app (hdata u hu) happ hne.1 (by simpa using hne.2)
      · exact .pure trivial
  refine .ite (fun _ => ?_) fun _ => hsend
  exact (contract_orNullPointer _ _).bind fun u _ => (contract_orNullPointer _ _).bind fun t _ =>
    (hop u _).bind fun _ _ => hsend

/-! ### One call of `process` -/

/-- A handler works on what it has prepared, or has it wrapped for another domain. -/
theorem calm_handler {ty : MessageType} (ht : m.type = some ty) (hne : ty ≠ .INTERNAL_MESSAGE)
    (hp : ∀ m', ¬ Termination.IsPresence m' → Calm (process m')) {processor : MessageProcessor}
    {R : Message → Prop}
    (hpre : Contract (fun _ => True) (processor.preprocess m)
      (fun m' => m'.content = m.content ∧ R m') Harmless)
    (hproc : ∀ m', R m' → isLocal E m' = true → Calm (processor.process m')) :
    Calm (Termination.handle E (some ty) process processor m) := by
  refine hpre.bind fun m' ⟨hcontent, hR⟩ => .ite (fun _ => ?_) fun h => absurd (by simpa using h) hne
  refine (contract_isCurrentDomainMessage m').bind fun b hb =>
    .ite (fun h => hproc m' hR (hb ▸ h)) fun _ => ?_
  refine (contract_orNullPointer _ _).bind fun c hc => .ite (fun hinternal => ?_) fun _ => ?_
  · have htype : m.type = c.type := Rules.type_eq (hcontent.symm.trans hc)
    exact absurd (Option.some.inj (ht.symm.trans (htype.trans hinternal))) hne
  · exact calm_builder.bind fun b _ => (contract_orNullPointer _ _).bind fun t _ =>
      (contract_resolveDomainName m').bind fun d _ =>
        contract_during (hp _ (by rintro (h | h) <;> cases h))

/-- A handler without a pass of its own over the message. -/
theorem calm_plainHandler {ty : MessageType} (ht : m.type = some ty) (hne : ty ≠ .INTERNAL_MESSAGE)
    (hp : ∀ m', ¬ Termination.IsPresence m' → Calm (process m')) {T : Type} {view : Data → Option T}
    {doProcess : Message → Option T → Proc Unit}
    (hproc : isLocal E m = true →
      Calm (MessageProcessor.process ⟨view, fun m _ => pure m, doProcess⟩ m)) :
    Calm (Termination.handle E (some ty) process ⟨view, fun m _ => pure m, doProcess⟩ m) := by
  refine calm_handler (R := (· = m)) ht hne hp ?_ fun m' hm' hlocal => ?_
  · exact (contract_getData _ _).bind fun _ _ => .pure ⟨rfl, rfl⟩
  · subst hm'
    exact hproc hlocal

/-- What is in a wrapper for this domain is processed. -/
theorem calm_internal (hp : ∀ i, m.data = .message i → isLocal E (opened m i) = true →
    Calm (process i)) : Calm (Termination.handle E (some .INTERNAL_MESSAGE) process
      (InternalMessageProcessor.processor E process) m) := by
  have hpre : Contract (fun _ => True) ((InternalMessageProcessor.processor E process).preprocess m)
      (fun m' => m'.data = m.data ∧ ∀ i, m.data = .message i → m' = opened m i) Harmless := by
    refine (contract_getData _ _).bind fun _ _ => .ite (fun hblank => ?_) fun hblank => ?_
    · refine (contract_innerMessage _).bind fun i hi => .pure ⟨rfl, fun i' hi' => ?_⟩
      cases hi.symm.trans hi'
      rw [opened, if_pos hblank]
    · exact .pure ⟨rfl, fun i _ => (if_neg hblank).symm⟩
  refine hpre.bind fun m' hm' => .ite (fun h => absurd rfl h) fun _ => ?_
  obtain ⟨hdata, hopened⟩ := hm'
  refine (contract_getData _ _).bind fun _ _ => (contract_isCurrentDomainMessage m').bind fun b hb =>
    .ite (fun h => ?_) fun _ => calm_deliverMessage m'
  refine (contract_innerMessage m').bind fun i hi => contract_during (hp i (hdata ▸ hi) ?_)
  rw [← hopened i (hdata ▸ hi), ← hb]
  exact h

/-- A call of `process` throws no `Error` but one of the calls it makes. -/
theorem calm_processWith (hgoes : ∀ m', GoesOn E m m' → Calm (process m'))
    (hother : ∀ m', m.type ≠ some .INTERNAL_MESSAGE → ¬ Termination.IsPresence m' → Calm (process m')) :
    Calm (processWith E process m) := by
  refine Contract.bind (Q := fun _ => True) calm_modify fun _ _ =>
    (contract_orNullPointer _ _).bind fun _ _ => (contract_orNullPointer _ _).bind fun t ht =>
      .ite (fun _ => .pure trivial) fun halive => (contract_orNullPointer _ _).bind fun c hc => ?_
  have htype : m.touch.type = c.type := Rules.type_eq hc
  have hrounds : 0 < roundsLeft m := by
    obtain ⟨t₀, ht₀, rfl⟩ := Option.map_eq_some_iff.1 ht
    exact Termination.roundsLeft_pos_iff.2 ⟨t₀, ht₀, by simpa using halive⟩
  cases hty : c.type with
  | none => exact .pure trivial
  | some ty =>
    have ht' : m.touch.type = some ty := htype.trans hty
    have hp : ty ≠ .INTERNAL_MESSAGE → ∀ m', ¬ Termination.IsPresence m' → Calm (process m') :=
      fun hne m' => hother m' fun h => hne (Option.some.inj (ht'.symm.trans h))
    have hmaster : ∀ u app, (m.type = some .USER_CONNECTED ∧ m.data = .userConnected u ∨
          m.type = some .USER_DISCONNECTED ∧ m.data = .userDisconnected u) →
        isLocal E m.touch = true → isProcessorMessage m.touch = true →
        getClientAppByUserId E u = some app → u ≠ app.masterUserId →
        isEmpty app.masterUserId = false → Calm (process (m.touch.setTo app.masterUserId)) :=
      fun u app hd hlocal hproc happ hne hempty =>
        hgoes _ (.master hrounds hd (isLocal_touch m ▸ hlocal) hproc happ hne hempty)
    -- what a type without a handler brings is dropped
    cases ty
    case MESSAGE =>
      refine calm_handler (R := fun _ => True) ht' (by decide) (hp (by decide)) ?_
        fun m' _ _ => calm_message m'
      exact (contract_getData _ _).bind fun _ _ => (contract_orNullPointer _ _).bind fun _ _ =>
        .pure ⟨rfl, trivial⟩
    case CLOSE_CONNECTION =>
      refine calm_handler (R := fun _ => True) ht' (by decide) (hp (by decide)) ?_
        fun m' _ _ => calm_close m'
      exact (contract_getData _ _).bind fun _ _ => (contract_orNullPointer _ _).bind fun _ _ =>
        .pure ⟨rfl, trivial⟩
    case INTERNAL_MESSAGE =>
      refine calm_internal fun i hi hlocal => hgoes i (.unwrap hrounds ht' hi ?_)
      rw [opened_touch, isLocal_touch] at hlocal
      exact hlocal
    case USER_CONNECTED =>
      refine calm_plainHandler ht' (by decide) (hp (by decide)) fun hlocal => calm_presence ?_ ?_
      · exact fun u a => calm_addAddress u a _
      · exact fun hproc u app hu =>
          hmaster u app (.inl ⟨ht', Data.userConnected?_eq_some.1 hu⟩) hlocal hproc
    case USER_DISCONNECTED =>
      refine calm_plainHandler ht' (by decide) (hp (by decide)) fun hlocal => calm_presence ?_ ?_
      · exact fun u a => calm_removeAddress u a _
      · exact fun hproc u app hu =>
          hmaster u app (.inr ⟨ht', Data.userDisconnected?_eq_some.1 hu⟩) hlocal hproc
    case MESSAGE_CONFIRMATION =>
      exact calm_plainHandler ht' (by decide) (hp (by decide)) fun _ => calm_confirmation _
    case AUTH_CLIENT =>
      exact calm_plainHandler ht' (by decide) (hp (by decide)) fun _ => calm_auth _
    case GROUP_MESSAGE =>
      exact calm_plainHandler ht' (by decide) (hp (by decide)) fun _ => calm_group (hp (by decide))
    case FETCH_MISSING_MESSAGES_REQUEST =>
      exact calm_plainHandler ht' (by decide) (hp (by decide)) fun _ => calm_fetch _
    case MESSAGE_STATE_CHANGED =>
      exact calm_plainHandler ht' (by decide) (hp (by decide)) fun _ => calm_report (hp (by decide))
    all_goals exact .pure trivial

/-- With room enough no `Error` is thrown. -/
theorem calm_process (m : Message) : Calm (MessageProcessorService.process E m) := by
  -- whatever is at the bottom of the stack, it is not reached
  have hstack : ∀ depth m, Calm (Recursion.stack (processWith E) (fun _ => pure ()) depth m) := by
    intro depth
    induction depth with
    | zero => exact fun _ => .pure trivial
    | succ depth ih => exact fun m => calm_processWith (fun m' _ => ih m') fun m' _ _ => ih m'
  rw [← Termination.stack_eq_process E m (fun _ => pure ()) 0]
  exact hstack _ m

/-- **A message that does not nest so deep** has no `Error` thrown. -/
theorem calm_processOn {room : ℕ} (h : ¬ Nests E room m) : Calm (processOn E room m) := by
  induction room generalizing m with
  | zero => exact absurd trivial h
  | succ room ih =>
    refine calm_processWith (fun m' hm' => ?_) fun m' htype hpresence => ?_
    · split
      · exact ih fun hnests => h ⟨m', hm', hnests⟩
      · exact calm_process m'
    · rw [if_neg (not_or.2 ⟨htype, hpresence⟩)]
      exact calm_process m'

/-! ### A stack that is used up -/

/-- Whatever state it starts in, `x` uses up the stack. -/
def Overflows (x : Proc Unit) : Prop :=
  ∀ s, ∃ e, (x.run s).1 = .error e ∧ e.exception = .stackOverflow

omit [JavaChar] in
theorem Overflows.during {x : Proc Unit} (h : Overflows x) (m : Message) :
    Overflows (Proc.during m x) := by
  intro s
  obtain ⟨e, he, hexception⟩ := h s
  refine ⟨⟨e.exception, m⟩, ?_, hexception⟩
  rw [Proc.during, run_reraise, he]
  rfl

omit [JavaChar] in
theorem run_preprocess_default {T : Type} {view : Data → Option T}
    {doProcess : Message → Option T → Proc Unit} {c : MessageContent} {d : Option T}
    (hc : m.content = some c) (hview : c.data.convert view = .ok d) (s : State) :
    (MessageProcessor.preprocess ⟨view, fun m _ => pure m, doProcess⟩ m).run s = (.ok m, s) := by
  rw [MessageProcessor.preprocess]
  exact (run_bind_ok (run_getData hc hview s)).trans rfl

/-- The presence message of a user is sent on, whatever state it is in. -/
theorem overflows_presence {view : Data → Option (Option String)}
    {operation : Option String → Option Address → Message → Proc Unit} {c : MessageContent}
    {t : MessageMeta} {u : Option String} {app : ClientApp} (hc : m.content = some c)
    (ht : m.meta_ = some t) (hview : c.data.convert view = .ok (some u))
    (hop : ∀ a s, ∃ s', (operation u a m).run s = (.ok (), s')) (hproc : isProcessorMessage m = true)
    (happ : getClientAppByUserId E u = some app) (hne : u ≠ app.masterUserId)
    (hempty : isEmpty app.masterUserId = false)
    (hp : Overflows (process (m.setTo app.masterUserId))) :
    Overflows ((presenceProcessor E view operation process).process m) := by
  intro s
  have hsend : ∀ s, ∃ e, ((do
      let userId ← orNullPointer m (some u)
      sendMessageToMasterUser E process m userId : Proc Unit).run s).1 = .error e ∧
        e.exception = .stackOverflow := by
    intro s
    rw [run_bind_ok (run_orNullPointer_some m u s), sendMessageToMasterUser, happ]
    simp only [hne, hempty, ne_eq, not_false_eq_true, Bool.false_eq_true, and_self, if_true]
    exact hp s
  have hget : (getData (presenceProcessor E view operation process).view m).run s =
      (.ok (some u), s) := run_getData hc hview s
  rw [MessageProcessor.process, run_bind_ok hget]
  simp only [presenceProcessor, hproc, Bool.not_true, Bool.false_eq_true, if_false]
  by_cases hst : m.state = some .CREATED
  · obtain ⟨s', hrun⟩ := hop t.originalAddress s
    rw [if_pos hst, run_bind_ok (run_orNullPointer_some m u s), run_bind_ok (run_getMeta ht s),
      run_bind_ok hrun]
    exact hsend s'
  · rw [if_neg hst]
    exact hsend s

theorem overflows_processWith {m' : Message} (h : GoesOn E m m') (hp : Overflows (process m')) :
    Overflows (processWith E process m) := by
  intro s
  cases h with
  | unwrap hrounds htype hdata hlocal =>
    obtain ⟨t, ht, halive⟩ := Termination.roundsLeft_pos_iff.1 hrounds
    obtain ⟨c, hc, hctype⟩ := Option.bind_eq_some_iff.1 htype
    have hcdata : c.data = .message m' := by rw [← hdata, MessageOf.data, hc]; rfl
    have hlocal' : isLocal E (opened m.touch m') = true := by rw [opened_touch, isLocal_touch, hlocal]
    rw [run_processWith_opened process ht halive hc hctype hcdata, if_pos hlocal']
    exact hp.during _ _
  | @master u app hrounds hdata hlocal hproc happ hne hempty =>
    obtain ⟨t, ht, halive⟩ := Termination.roundsLeft_pos_iff.1 hrounds
    obtain ⟨v, rfl⟩ : ∃ v, u = some v := Option.ne_none_iff_exists'.1 fun hu => by
      rw [hu] at happ
      cases happ
    have ht' : m.touch.meta_ = some t.touch := by
      rw [MessageOf.touch, MessageOf.updateMeta_meta, ht]; rfl
    have hlocal' : isLocal E m.touch = true := by rw [isLocal_touch, hlocal]
    rcases hdata with ⟨htype, hdata⟩ | ⟨htype, hdata⟩
    all_goals
      obtain ⟨c, hc, hctype⟩ := Option.bind_eq_some_iff.1 htype
      have hcdata : c.data = m.data := by rw [MessageOf.data, hc]; rfl
    · have hview : c.data.convert Data.userConnected? = .ok (some (some v)) := by
        rw [hcdata, hdata]; rfl
      rw [run_processWith_prepared process ht halive hc (by rw [hctype]; decide)
        (by rw [hctype]; rfl) (run_preprocess_default hc hview) ht', if_pos hlocal']
      exact overflows_presence (m := m.touch) hc ht' hview (fun a s => ⟨_, rfl⟩) hproc happ hne hempty hp _
    · have hview : c.data.convert Data.userDisconnected? = .ok (some (some v)) := by
        rw [hcdata, hdata]; rfl
      rw [run_processWith_prepared process ht halive hc (by rw [hctype]; decide)
        (by rw [hctype]; rfl) (run_preprocess_default hc hview) ht', if_pos hlocal']
      refine overflows_presence (m := m.touch) hc ht' hview (fun a s => ?_) hproc happ hne hempty hp _
      have hget : (UserChannelService.getById (some v) m.touch).run s = (.ok (s.channels v), s) := rfl
      rw [UserChannelService.removeAddress, run_bind_ok hget]
      cases s.channels v with
      | none => exact ⟨_, rfl⟩
      | some l => exact ⟨_, rfl⟩

/-- A message that nests so deep uses up the stack. -/
theorem overflows_of_nests {room : ℕ} (h : Nests E room m) : Overflows (processOn E room m) := by
  induction room generalizing m with
  | zero => exact fun s => ⟨⟨.stackOverflow, m⟩, rfl, rfl⟩
  | succ room ih =>
    obtain ⟨m', hm', hnests⟩ := h
    refine overflows_processWith hm' ?_
    have hcounted : m.type = some .INTERNAL_MESSAGE ∨ Termination.IsPresence m' := by
      cases hm' with
      | unwrap _ htype => exact .inl htype
      | master _ hdata => exact .inr (hdata.imp And.left And.left)
    rw [if_pos hcounted]
    exact ih hnests

/-- Wrapped often enough, any message nests too deep. -/
theorem exists_nests (E : Environment) (room : ℕ) : ∃ m, Nests E room m := by
  suffices h : ∃ m : Message, Nests E room m ∧ isBlank m.to_ = true from h.imp fun _ h => h.1
  induction room with
  | zero => exact ⟨newMessage "" 0, trivial, rfl⟩
  | succ room ih =>
    obtain ⟨i, hnests, hblank⟩ := ih
    let m : Message := { newMessage "" 0 with
      content := some (createMessageContent .INTERNAL_MESSAGE (.message i) (some .RELIABLE))
      meta_ := some {} }
    have hopened : isLocal E (opened m i) = true := by
      rw [opened, if_pos (show isBlank m.to_ = true from rfl), isLocal, MessageOf.setTo_to, hblank,
        Bool.true_or]
    have hrounds : 0 < roundsLeft m :=
      Termination.roundsLeft_pos_iff.2 ⟨{}, rfl, show (MessageMeta.touch {}).isAlive = true by decide⟩
    exact ⟨m, ⟨i, .unwrap hrounds rfl rfl hopened, hnests⟩, rfl⟩

end

end Linker.Processor
