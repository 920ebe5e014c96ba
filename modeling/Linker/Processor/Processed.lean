import Linker.Processor.Copies
import Linker.Processor.Fetching
import Linker.Processor.Processing
import Linker.Processor.Registry

/-!
# What processing a message leads to

A call of `process` calls itself on messages that its handlers make out of the one it is given: the
wrapper of a message for another domain and the message in a wrapper, the messages for the users of a
group, the presence message for a master user, and the confirmation of a delivered message.  What holds
of a message, and of every message that is made out of one of which it holds, holds of all of them.
So it is with what they put on the topics, where close commands are told from the rest.

## Main results

* `Spreads` : the ways in which one message leads to another.
* `notes_process` : what a call of `process` processes and puts on topics has the properties.
-/

namespace Linker.Processor

open ProcessorUtils ClientAppService MessageProcessorService PostOffice Exec
open CustomGroupMessageProcessor (userMessage subMessage)
open MessageStateChangedMessageProcessor (confirmMessage)

/-- The journal has grown, by messages with `A` where they are processed, and the topics by records of
messages with `B`. -/
structure Notes (A B : Message → Prop) (s s' : State) : Prop where
  journal : ∃ l, s'.journal = s.journal ++ l ∧ ∀ m, Entry.processing m ∈ l → A m
  parcels : ∃ ps, s'.parcels = s.parcels ++ ps ∧ ∀ p ∈ ps, B p.message

/-- Nothing is processed, and nothing is put on a topic. -/
def Rests (s s' : State) : Prop := s'.journal = s.journal ∧ s'.parcels = s.parcels

theorem notes_of_rests {A B : Message → Prop} {s s' : State} (h : Rests s s') : Notes A B s s' :=
  ⟨⟨[], by rw [h.1, List.append_nil], fun _ hm => absurd hm List.not_mem_nil⟩,
    [], by rw [h.2, List.append_nil], fun _ hp => absurd hp List.not_mem_nil⟩

instance : IsPreorder State Rests where
  refl _ := ⟨rfl, rfl⟩
  trans _ _ _ h h' := ⟨h'.1.trans h.1, h'.2.trans h.2⟩

instance (A B : Message → Prop) : IsPreorder State (Notes A B) where
  refl _ := notes_of_rests ⟨rfl, rfl⟩
  trans s₁ s₂ s₃ h h' := by
    obtain ⟨l, hl, hall⟩ := h.journal
    obtain ⟨l', hl', hall'⟩ := h'.journal
    obtain ⟨ps, hps, hsent⟩ := h.parcels
    obtain ⟨ps', hps', hsent'⟩ := h'.parcels
    refine ⟨⟨l ++ l', by rw [hl', hl, List.append_assoc], fun m hm => ?_⟩,
      ps ++ ps', by rw [hps', hps, List.append_assoc], fun p hp => ?_⟩
    · exact (List.mem_append.1 hm).elim (hall m) (hall' m)
    · exact (List.mem_append.1 hp).elim (hsent p) (hsent' p)

/-- A confirmation is due for the message that is reported on. -/
structure Due (E : Environment) (msg : Message) (st : Option MessageState) : Prop where
  state : st = some .PROCESSED
  type : msg.type = some .MESSAGE
  enabled : msg.content.bind (·.confirmationEnabled) = some true
  reference : isBlank (msg.content.bind (·.reference)) = false

/-- What may be on a topic: any message that is no close command, and whatever is the same letter as
another that may. -/
structure Allows (B : Message → Prop) : Prop where
  copy : ∀ {m m' : Message}, m.Copy m' → B m → B m'
  plain : ∀ {m : Message}, m.type ≠ some .CLOSE_CONNECTION → B m

/-- What holds of a message also holds of the messages that its handler processes, and of what it
delivers. -/
structure Spreads (E : Environment) (A B : Message → Prop) : Prop extends Allows B where
  touch : ∀ {m}, A m → A m.touch
  redirect : ∀ {m : Message} {u}, m.type ≠ some .MESSAGE_CONFIRMATION → A m → A (m.setTo u)
  cross : ∀ {m : Message} {k f d}, A m → A (internalMessage (E.blank k) m f d)
  groupUser : ∀ {m d c u k}, A m → m.type = some .GROUP_MESSAGE → m.data = .groupMessage d →
    A (userMessage (E.blank k) u m d c)
  groupOther : ∀ {m d c users name k}, A m → m.type = some .GROUP_MESSAGE →
    m.data = .groupMessage d → A (subMessage (E.blank k) name users m d c)
  confirm : ∀ {m msg st k}, A m → m.type = some .MESSAGE_STATE_CHANGED →
    m.data = .messageStateChanged (some msg) st → Due E msg st → A (confirmMessage E (E.blank k) msg)
  unwrap : ∀ {m i}, A m → m.type = some .INTERNAL_MESSAGE → m.data = .message i → A i
  close : ∀ {m u}, A m → m.type = some .CLOSE_CONNECTION → m.data = .closeConnection u →
    B (closing (m.setTo u))
  /-- A request gets what is stored. -/
  fetched : ∀ {m}, A m → m.type = some .FETCH_MISSING_MESSAGES_REQUEST → ∀ r, B r
  lost : ∀ {m msg}, A m → m.type = some .MESSAGE_STATE_CHANGED →
    m.data = .messageStateChanged (some msg) (some .ADDRESS_NOT_FOUND) → B msg

section

variable {A B : Message → Prop} {s₀ : State}

theorem notes_of_moves {α : Type} {x : Proc α} (h : Moves Rests x) :
    Keeps (Notes A B s₀) x fun _ => True :=
  fun s hs => ⟨trans_of (Notes A B) hs (notes_of_rests (h s)), fun _ _ => trivial⟩

theorem notes_builder {E : Environment} :
    Keeps (Notes A B s₀) (builder E) fun b => ∃ k, b = E.blank k := by
  intro s hs
  have hstep : Notes A B s ((builder E).run s).2 := notes_of_rests ⟨rfl, rfl⟩
  exact ⟨trans_of (Notes A B) hs hstep, fun b hb => ⟨s.serial, by cases hb; rfl⟩⟩

/-- A computation that sends and saves has processed nothing. -/
theorem notes_of_sends {s s' : State} (h : Sends s s')
    (hB : ∃ ps, s'.parcels = s.parcels ++ ps ∧ ∀ p ∈ ps, B p.message) : Notes A B s s' := by
  obtain ⟨l, hl, -⟩ := h.saved
  refine ⟨⟨_, hl, fun m hm => ?_⟩, hB⟩
  obtain ⟨_, -, heq⟩ := List.mem_map.1 hm
  cases heq

theorem notes_of_silent {E : Environment} (m : Message) (st : Option MessageState) (s : State) :
    Notes A B s ((persistMessage E m st).run s).2 :=
  notes_of_sends (moves_persistMessage m st s) ⟨[], by
    rw [(silent_persistMessage (E := E) m st s).2, List.append_nil],
    fun _ hp => absurd hp List.not_mem_nil⟩

theorem notes_persistMessage {E : Environment} {m : Message} {st : Option MessageState} :
    Keeps (Notes A B s₀) (persistMessage E m st) fun m' =>
      m'.content = m.content ∧ m'.from_ = m.from_ :=
  fun s hs => ⟨trans_of (Notes A B) hs (notes_of_silent m st s),
    (returns_persistMessage m st s trivial).2⟩

theorem rests_addAddress (u : Option String) (a : Option Address) (m : Message) :
    Moves Rests (UserChannelService.addAddress u a m) := by
  intro s
  cases u with
  | none => exact ⟨rfl, rfl⟩
  | some u => rw [UserChannelService.run_addAddress]; exact ⟨rfl, rfl⟩

theorem rests_removeAddress (u : Option String) (a : Option Address) (m : Message) :
    Moves Rests (UserChannelService.removeAddress u a m) := by
  intro s
  cases u with
  | none => exact ⟨rfl, rfl⟩
  | some u => rw [UserChannelService.run_removeAddress]; exact ⟨rfl, rfl⟩

section

variable [JavaChar] {E : Environment} {process : Message → Proc Unit}

/-- A delivery. -/
theorem notes_deliverMessage (hB : Allows B) {m : Message} (hm : B m) :
    Keeps (Notes A B s₀) (deliverMessage E m) fun _ => True := by
  have hputs : ∀ s, Keeps (Puts B s) (deliverMessage E m) fun _ => True := fun s => by
    refine puts_deliver (fun y hy => hB.copy hy hm) fun htype u y hy => hB.plain ?_
    have hinternal : y.type = some .INTERNAL_MESSAGE := hy.letter.type.trans htype
    rw [hinternal]
    decide
  refine fun s hs => ⟨trans_of (Notes A B) hs (notes_of_sends (moves_deliverMessage m s) ?_),
    fun _ _ => trivial⟩
  exact (hputs s s (refl_of (Puts B) s)).1.parcels

theorem notes_deliver_of_type (hB : Allows B) {m : Message} (ty : MessageType) (ht : m.type = some ty)
    (hne : ty ≠ .CLOSE_CONNECTION) : Keeps (Notes A B s₀) (deliverMessage E m) fun _ => True :=
  notes_deliverMessage hB (hB.plain (by simpa [ht] using hne))

variable (hA : Spreads E A B) (hp : ∀ m, A m → Keeps (Notes A B s₀) (process m) fun _ => True)

theorem rests_routeTargetAddresses (u : Option String) (d : Option DeliveryType) (m : Message) :
    Moves Rests (routeTargetAddresses E u d m) := by
  intro s
  obtain ⟨picks, hrun⟩ := run_routeTargetAddresses (E := E) u d m s
  rw [hrun]
  exact ⟨rfl, rfl⟩

include hA hp

/-! ### The handlers -/

theorem notes_group {m : Message} (hm : A m) (ht : m.type = some .GROUP_MESSAGE) :
    Keeps (Notes A B s₀) ((CustomGroupMessageProcessor.processor E process).process m)
      fun _ => True := by
  refine (keeps_getData _ _).bind fun data hdata => (keeps_orNullPointer _ _).bind fun d hd => ?_
  have hd' : m.data = .groupMessage d := Data.groupMessage?_eq_some.1 (hdata d hd)
  refine (keeps_orNullPointer _ _).bind fun users _ => .forEach fun domain _ => ?_
  refine .ite (fun _ => ?_) fun _ => ?_
  · have hgroup : ∀ (l : List (Option String)) g, Keeps (Notes A B s₀)
        (CustomGroupMessageProcessor.groupByConnector E process m d l g) fun _ => True := by
      intro l
      induction l with
      | nil => exact fun g => .pure trivial
      | cons u l ih =>
        intro g
        refine (notes_of_moves (rests_routeTargetAddresses _ _ _)).bind fun addresses _ => ?_
        refine .ite (fun _ => ?_) fun _ => ih _
        have huser : Keeps (Notes A B s₀) (CustomGroupMessageProcessor.processUserAddressNotFound E process
            u m d) fun _ => True := by
          refine (keeps_orNullPointer _ _).bind fun c _ => (keeps_orNullPointer _ _).bind fun _ _ => ?_
          refine notes_builder.bind fun b ⟨k, hk⟩ => .reraise ?_
          rw [hk]
          exact hp _ (hA.groupUser hm ht hd')
        exact huser.bind fun _ _ => ih _
    refine (hgroup _ []).bind fun g _ => .forEach fun name _ => ?_
    refine (keeps_orNullPointer _ _).bind fun c _ => (keeps_orNullPointer _ _).bind fun _ _ => ?_
    exact notes_builder.bind fun b _ =>
      .reraise (notes_deliver_of_type hA.toAllows .GROUP_CONNECTOR_MESSAGE rfl (by decide))
  · refine (keeps_orNullPointer _ _).bind fun c _ => (keeps_orNullPointer _ _).bind fun _ _ => ?_
    refine notes_builder.bind fun b ⟨k, hk⟩ => .reraise ?_
    rw [hk]
    exact hp _ (hA.groupOther hm ht hd')

theorem notes_presence {m : Message} (hm : A m) (ht : m.type ≠ some .MESSAGE_CONFIRMATION)
    (ht' : m.type ≠ some .CLOSE_CONNECTION)
    {view : Data → Option (Option String)}
    {operation : Option String → Option Address → Message → Proc Unit}
    (hop : ∀ u a, Moves Rests (operation u a m)) :
    Keeps (Notes A B s₀) ((presenceProcessor E view operation process).process m) fun _ => True := by
  refine (keeps_getData _ _).bind fun data _ => .ite (fun _ => ?_) fun _ => ?_
  · exact notes_deliverMessage hA.toAllows (hA.plain ht')
  have hmaster : Keeps (Notes A B s₀) (do
      let userId ← orNullPointer m data
      sendMessageToMasterUser E process m userId) fun _ => True := by
    refine (keeps_orNullPointer _ _).bind fun u _ => ?_
    unfold sendMessageToMasterUser
    split
    · exact .pure trivial
    · split
      · exact hp _ (hA.redirect ht hm)
      · exact .pure trivial
  refine .ite (fun _ => ?_) fun _ => hmaster
  refine (keeps_orNullPointer _ _).bind fun u _ => (keeps_orNullPointer _ _).bind fun t _ => ?_
  exact (notes_of_moves (hop _ _)).bind fun _ _ => hmaster

theorem notes_report {m : Message} (hm : A m) (ht : m.type = some .MESSAGE_STATE_CHANGED) :
    Keeps (Notes A B s₀) ((MessageStateChangedMessageProcessor.processor E process).process m)
      fun _ => True := by
  refine (keeps_getData _ _).bind fun data hdata => .reraise ?_
  refine (keeps_orNullPointer _ _).bind fun d hd => ?_
  obtain ⟨message, st⟩ := d
  have hd' : m.data = .messageStateChanged message st :=
    Data.messageStateChanged?_eq_some.1 (hdata _ hd)
  refine (keeps_orNullPointer _ _).bind fun msg hmsg => ?_
  subst hmsg
  refine .ite (fun hlost => ?_) fun _ => ?_
  · refine (keeps_orNullPointer _ _).bind fun t _ => ?_
    have hremove : Keeps (Notes A B s₀) (UserChannelService.removeAddress msg.to_ t.targetAddress msg)
        fun _ => True := notes_of_moves (rests_removeAddress _ _ _)
    exact hremove.bind fun _ _ => notes_deliverMessage hA.toAllows (hA.lost hm ht (hlost ▸ hd'))
  refine notes_persistMessage.bind fun msg' hmsg' => ?_
  refine (Rules.keeps_deliveredHere msg' st).bind fun confirms hconf =>
    .ite (fun h => ?_) fun _ => .pure trivial
  obtain ⟨hproc, htype⟩ := hconf h
  refine (keeps_orNullPointer _ _).bind fun c hc => .ite (fun _ => .pure trivial) fun href => ?_
  refine (keeps_orNullPointer _ _).bind fun enabled hen => .ite (fun htrue => ?_) fun _ => .pure trivial
  refine notes_builder.bind fun b ⟨k, hk⟩ => hp _ ?_
  have hsame : confirmMessage E b msg' = confirmMessage E b msg := by
    simp only [confirmMessage, hmsg'.1, hmsg'.2]
  have hdue : Due E msg st := by
    have hcontent : msg.content = some c := hmsg'.1.symm.trans hc
    refine ⟨hproc, ?_, ?_, ?_⟩
    · rw [MessageOf.type, ← hmsg'.1]
      exact htype
    · rw [hcontent, Option.bind_some, hen, htrue]
    · rw [hcontent]
      simpa using href
  rw [hsame, hk]
  exact hA.confirm hm ht hd' hdue

omit hA hp [JavaChar] in
theorem notes_innerMessage {m : Message} {Q : Message → Prop} (hQ : ∀ i, m.data = .message i → Q i) :
    Keeps (Notes A B s₀) (InternalMessageProcessor.innerMessage m) Q := by
  refine (keeps_getData _ _).bind fun data hdata => (keeps_orNullPointer _ _).mono fun i hi => ?_
  exact hQ i (Data.message?_eq_some.1 (hdata i hi))

omit hA hp in
theorem notes_preprocessInternal (m : Message) :
    Keeps (Notes A B s₀) ((InternalMessageProcessor.processor E process).preprocess m) fun p =>
      p.data = m.data ∧ p.type = m.type := by
  refine (keeps_getData _ _).bind fun _ _ => .ite (fun _ => ?_) fun _ => .pure ⟨rfl, rfl⟩
  exact (notes_innerMessage (Q := fun _ => True) fun _ _ => trivial).bind fun i _ => .pure ⟨rfl, rfl⟩

theorem notes_internal {m p : Message} (hm : A m) (ht : m.type = some .INTERNAL_MESSAGE)
    (hpm : p.data = m.data) (hpt : p.type = m.type) :
    Keeps (Notes A B s₀) ((InternalMessageProcessor.processor E process).process p) fun _ => True := by
  refine (keeps_getData _ _).bind fun _ _ => ?_
  refine (notes_of_moves (moves_isCurrentDomainMessage p)).bind fun b _ => .ite (fun _ => ?_) ?_
  · exact (notes_innerMessage fun i hi => hA.unwrap hm ht (hpm ▸ hi)).bind fun i hi =>
      .reraise (hp i hi)
  · exact fun _ => notes_deliver_of_type hA.toAllows .INTERNAL_MESSAGE (hpt.trans ht) (by decide)

omit hp in
theorem notes_sendReply (m : Message) (reply : AuthClientReply) :
    Keeps (Notes A B s₀) (AuthClientMessageProcessor.sendReply E m reply) fun _ => True := by
  refine (keeps_orNullPointer _ _).bind fun t _ => (keeps_orNullPointer _ _).bind fun a _ => ?_
  exact notes_builder.bind fun b _ =>
    .reraise (notes_deliver_of_type hA.toAllows .AUTH_CLIENT_REPLY rfl (by decide))

omit hp in
theorem notes_auth (m : Message) :
    Keeps (Notes A B s₀) ((AuthClientMessageProcessor.processor E).process m) fun _ => True := by
  refine (keeps_getData _ _).bind fun data _ => (keeps_orNullPointer _ _).bind fun d _ => ?_
  have hfail : Keeps (Notes A B s₀) (AuthClientMessageProcessor.fail E m d) fun _ => True :=
    notes_sendReply hA m _
  split
  · exact hfail
  · refine .ite (fun _ => hfail) fun _ => .ite (fun _ => hfail) fun _ => ?_
    refine .ite (fun _ => notes_sendReply hA m _) fun _ => .ite (fun _ => hfail) fun _ => ?_
    exact .ite (fun _ => notes_of_moves fun _ => ⟨rfl, rfl⟩) fun _ => .fail

omit hp in
/-- The answer of an endpoint processes nothing. -/
theorem notes_complete (c : HttpCall) (outcome : HttpOutcome) :
    Keeps (Notes A B s₀) (HttpCall.complete E c outcome) fun _ => True := by
  have hfail : Keeps (Notes A B s₀) (AuthClientMessageProcessor.fail E c.message c.data)
      fun _ => True := notes_sendReply hA c.message _
  have hexc : Keeps (Notes A B s₀)
      ((AuthClientMessageProcessor.fail E c.message c.data).recover fun _ => pure ()) fun _ => True :=
    hfail.recover fun _ => .pure trivial
  unfold HttpCall.complete
  split
  · exact hexc
  · exact hexc
  · refine Keeps.recover ?_ fun _ => hexc
    refine (keeps_orNullPointer _ _).bind fun reply _ => .ite (fun _ => ?_) fun _ => hfail
    exact notes_sendReply hA c.message _

omit hp in
theorem notes_fetch {m : Message} (hB : ∀ r, B r) :
    Keeps (Notes A B s₀) ((FetchMissingMessagesMessageProcessor.processor E).process m) fun _ => True := by
  refine (keeps_getData _ _).bind fun _ _ => (keeps_orNullPointer _ _).bind fun _ _ => ?_
  refine (keeps_orNullPointer _ _).bind fun count _ => ?_
  split
  · exact .fail
  · have hfind : Keeps (Notes A B s₀) (MessageRepository.findMessages m.from_ none
        FetchMissingMessagesMessageProcessor.fetchableStates
        (min FetchMissingMessagesMessageProcessor.MAX_COUNT count) m) fun _ => True :=
      .ite (fun _ => .fail) fun _ => .read fun _ _ => trivial
    refine hfind.bind fun page _ => ?_
    refine Keeps.bind (Q := fun _ => True) (.forEach fun r _ => .reraise ?_) fun _ _ => ?_
    · exact (notes_deliverMessage hA.toAllows (hB r)).bind fun _ _ => notes_of_moves fun _ => ⟨rfl, rfl⟩
    · exact notes_builder.bind fun b _ => .reraise (notes_deliverMessage hA.toAllows (hB _))

/-! ### One call of `process` -/

theorem notes_cross {p : Message} (hm : A p) :
    Keeps (Notes A B s₀) (processCrossDomainMessage E process p) fun _ => True := by
  refine (keeps_orNullPointer _ _).bind fun c _ => .ite (fun _ => hp p hm) fun _ => ?_
  refine notes_builder.bind fun b ⟨k, hk⟩ => (keeps_orNullPointer _ _).bind fun t _ => ?_
  refine (notes_of_moves (moves_resolveDomainName p)).bind fun d _ => .reraise ?_
  rw [hk]
  exact hp _ (hA.cross hm)

/-- A handler that prepares a message, and processes it if it is for the current domain. -/
theorem notes_handler {processor : MessageProcessor} {m : Message} {ty : MessageType}
    (hty : ty ≠ .INTERNAL_MESSAGE) {Q : Message → Prop} (hQ : ∀ p, Q p → A p)
    (hpre : Keeps (Notes A B s₀) (processor.preprocess m) Q)
    (hproc : ∀ p, Q p → Keeps (Notes A B s₀) (processor.process p) fun _ => True) :
    Keeps (Notes A B s₀) (do
      let m ← processor.preprocess m
      if some ty ≠ some .INTERNAL_MESSAGE then do
        let here ← isCurrentDomainMessage E m
        if here then processor.process m else processCrossDomainMessage E process m
      else processor.process m) fun _ => True := by
  refine hpre.bind fun p hprep => .ite (fun _ => ?_) fun h => absurd (by simpa using h) hty
  refine (notes_of_moves (moves_isCurrentDomainMessage p)).bind fun b _ => ?_
  exact .ite (fun _ => hproc p hprep) fun _ => notes_cross hA hp (hQ p hprep)

/-- A handler without a pass of its own over the message. -/
theorem notes_plainHandler {T : Type} {view : Data → Option T}
    {doProcess : Message → Option T → Proc Unit} {m : Message} (hm : A m) {ty : MessageType}
    (hty : ty ≠ .INTERNAL_MESSAGE)
    (hproc : Keeps (Notes A B s₀) (({ view, doProcess } : MessageProcessor).process m) fun _ => True) :
    Keeps (Notes A B s₀) (do
      let m ← ({ view, doProcess } : MessageProcessor).preprocess m
      if some ty ≠ some .INTERNAL_MESSAGE then do
        let here ← isCurrentDomainMessage E m
        if here then ({ view, doProcess } : MessageProcessor).process m
        else processCrossDomainMessage E process m
      else ({ view, doProcess } : MessageProcessor).process m) fun _ => True := by
  refine notes_handler hA hp (Q := (· = m)) hty (fun p h => h ▸ hm) ?_ fun p h => h ▸ hproc
  exact (keeps_getData _ _).bind fun _ _ => .pure rfl

theorem notes_processWith {m : Message} (hm : A m) :
    Keeps (Notes A B s₀) (processWith E process m) fun _ => True := by
  have hnote : Keeps (Notes A B s₀) (Proc.note (.processing m)) fun _ => True := by
    refine .modify (fun s hs => ?_) trivial
    have hstep : Notes A B s { s with journal := s.journal ++ [.processing m] } := by
      refine ⟨⟨_, rfl, fun p hp => ?_⟩, [], (List.append_nil _).symm,
        fun _ hp => absurd hp List.not_mem_nil⟩
      cases List.mem_singleton.1 hp
      exact hm
    exact trans_of (Notes A B) hs hstep
  refine hnote.bind fun _ _ => (keeps_orNullPointer _ _).bind fun _ _ => ?_
  have hm' : A m.touch := hA.touch hm
  refine (keeps_orNullPointer _ _).bind fun t _ => .ite (fun _ => .pure trivial) fun _ => ?_
  refine (keeps_orNullPointer _ _).bind fun c hc => ?_
  have htype : m.touch.type = c.type := Rules.type_eq hc
  cases hty : c.type with
  | none => exact .pure trivial
  | some ty =>
    rw [hty] at htype
    -- a message for one user gets it as its recipient
    have hredirect : ∀ {α : Type} (o : Option α) (f : α → Option String), Keeps (Notes A B s₀) (do
          let a ← orNullPointer m.touch o
          pure (m.touch.setTo (f a))) fun p => ∃ a, o = some a ∧ p = m.touch.setTo (f a) := fun o f =>
      (keeps_orNullPointer _ _).bind fun a ha => .pure ⟨a, ha, rfl⟩
    cases ty
    case MESSAGE =>
      refine notes_handler hA hp (Q := fun p => ∃ u, p = m.touch.setTo u) (by decide) ?_ ?_ ?_
      · rintro p ⟨u, rfl⟩
        exact hA.redirect (by simp [htype]) hm'
      · exact (keeps_getData _ _).bind fun data _ => (hredirect data (·.to_)).mono
          fun p ⟨a, _, hpa⟩ => ⟨a.to_, hpa⟩
      · rintro p ⟨u, rfl⟩
        refine (keeps_getData _ _).bind fun _ _ => (keeps_orNullPointer _ _).bind fun d _ => ?_
        refine Keeps.bind (Q := fun p => p.type = some .MESSAGE) ?_ fun p hpt =>
          notes_deliver_of_type hA.toAllows .MESSAGE hpt (by decide)
        refine (keeps_orNullPointer _ _).bind fun c _ => (keeps_orNullPointer _ _).bind fun b _ => ?_
        refine (keeps_orNullPointer _ _).bind fun _ _ => .pure ?_
        exact (type_setData _ _).trans htype
    case CLOSE_CONNECTION =>
      refine notes_handler hA hp (Q := fun p => ∃ u, m.touch.data = .closeConnection u ∧
        p = m.touch.setTo u) (by decide) ?_ ?_ ?_
      · rintro p ⟨u, -, rfl⟩
        exact hA.redirect (by simp [htype]) hm'
      · refine (keeps_getData _ _).bind fun data hdata => (hredirect data id).mono ?_
        rintro p ⟨u, hu, rfl⟩
        exact ⟨u, Data.closeConnection?_eq_some.1 (hdata u hu), rfl⟩
      · rintro p ⟨u, hu, rfl⟩
        refine (keeps_getData _ _).bind fun _ _ => (keeps_orNullPointer _ _).bind fun u _ => ?_
        split
        · exact .pure trivial
        · refine .ite (fun _ => notes_deliverMessage hA.toAllows ?_) fun _ => .pure trivial
          exact hA.close hm' htype hu
    case INTERNAL_MESSAGE =>
      refine (notes_preprocessInternal _).bind fun p hpm => .ite (fun h => absurd rfl h) fun _ => ?_
      exact notes_internal hA hp hm' htype hpm.1 hpm.2
    case MESSAGE_CONFIRMATION =>
      refine notes_plainHandler hA hp hm' (by decide) ?_
      exact (keeps_getData _ _).bind fun _ _ => notes_deliver_of_type hA.toAllows _ htype (by decide)
    case AUTH_CLIENT =>
      exact notes_plainHandler hA hp hm' (by decide) (notes_auth hA _)
    case GROUP_MESSAGE =>
      exact notes_plainHandler hA hp hm' (by decide) (notes_group hA hp hm' htype)
    case USER_CONNECTED =>
      refine notes_plainHandler hA hp hm' (by decide) (notes_presence hA hp hm' ?_ ?_ ?_)
      · simp [htype]
      · simp [htype]
      · exact fun u a => rests_addAddress u a _
    case USER_DISCONNECTED =>
      refine notes_plainHandler hA hp hm' (by decide) (notes_presence hA hp hm' ?_ ?_ ?_)
      · simp [htype]
      · simp [htype]
      · exact fun u a => rests_removeAddress u a _
    case FETCH_MISSING_MESSAGES_REQUEST =>
      exact notes_plainHandler hA hp hm' (by decide) (notes_fetch hA (hA.fetched hm' htype))
    case MESSAGE_STATE_CHANGED =>
      exact notes_plainHandler hA hp hm' (by decide) (notes_report hA hp hm' htype)
    all_goals exact .pure trivial

omit hp in
/-- **Every message that is processed** has the property. -/
theorem notes_process (depth : ℕ) {m : Message} (hm : A m) :
    Keeps (Notes A B s₀) (Processor.process E depth m) fun _ => True := by
  induction depth generalizing m with
  | zero => exact .fail
  | succ depth ih => exact notes_processWith hA (fun m hm => ih hm) hm

omit hp in
theorem notes_onMessageArrived {m : Message} (hm : A m) :
    Keeps (Notes A B s₀) (PostOffice.onMessageArrived E m) fun _ => True := by
  rw [PostOffice.onMessageArrived, onMessageArrivedWith, MessageProcessorService.process]
  refine (notes_process hA _ hm).recoverIf fun e => ?_
  exact notes_persistMessage.bind fun _ _ => .pure trivial

omit hp in
theorem notes_onRecordArrived {m : Message} (hm : A m) :
    Keeps (Notes A B s₀) (PostOffice.onRecordArrived E m) fun _ => True := by
  rw [PostOffice.onRecordArrived]
  exact (notes_onMessageArrived hA hm).recoverIf fun _ => .pure trivial

omit hp in
theorem notes_handleInternalMessage {data : Data} (h : ∀ i k t c, data = .message i →
    A (DomainService.msgWrapper (E.blank k) i (some .INTERNAL_MESSAGE) data t c)) :
    Keeps (Notes A B s₀) (DomainService.handleInternalMessage E (some .INTERNAL_MESSAGE) data)
      fun _ => True := by
  refine notes_builder.bind fun b ⟨k, hk⟩ => ?_
  rw [hk]
  rcases hd : data.convert Data.message? with e | _ | i
  · exact .fail
  · exact .fail
  · have hdata : data = .message i := Data.message?_eq_some.1 (Data.convert_eq_some hd)
    refine (keeps_orNullPointer _ _).bind fun t _ => (keeps_orNullPointer _ _).bind fun c _ => ?_
    exact notes_onMessageArrived hA (h i k t c hdata)

end

/-! ### A request -/

section

variable [JavaChar] {E : Environment} {r : Message}

/-- The page that a request gets, of what is stored when the request comes. -/
theorem triple_fetch (hB : Allows B) (hpage : ∀ u count, r.from_ = some u →
    r.data = .fetchMissingMessagesRequest (some count) → ∀ m ∈ (pageFor s₀ u count).content, B m) :
    Triple (fun s => Notes A B s₀ s ∧ s.messages = s₀.messages)
      ((FetchMissingMessagesMessageProcessor.processor E).process r) (fun _ => Notes A B s₀)
      (Notes A B s₀) := by
  have hfirst : ∀ s, Notes A B s₀ s ∧ s.messages = s₀.messages → Notes A B s₀ s := fun _ hs => hs.1
  refine .bind_keeps (keeps_getData _ _) (fun data hdata => ?_) hfirst
  refine .bind_keeps (keeps_orNullPointer _ _) (fun d hd => ?_) hfirst
  refine .bind_keeps (keeps_orNullPointer _ _) (fun count hcount => ?_) hfirst
  have hdata' : r.data = .fetchMissingMessagesRequest (some count) :=
    Data.fetchMissingMessagesRequest?_eq_some.1 (hdata _ (hcount ▸ hd))
  cases hfrom : r.from_ with
  | none => exact .of_run fun s hs => hs.1
  | some u =>
    refine .bind (Q := fun page s => Notes A B s₀ s ∧ ∀ m ∈ page.content, B m) ?_ fun page s hs => ?_
    · refine .ite (fun _ s hs => hs.1) fun _ => .read fun s hs => ⟨hs.1, ?_⟩
      rw [hs.2]
      exact hpage u count hfrom hdata'
    · have hloop : Keeps (Notes A B s₀) (FetchMissingMessagesMessageProcessor.deliverAndRemove E r
          page.content) fun _ => True := .forEach fun m hm => .reraise
        ((notes_deliverMessage hB (hs.2 m hm)).bind fun _ _ => notes_of_moves fun _ => ⟨rfl, rfl⟩)
      have hreply : Keeps (Notes A B s₀) (FetchMissingMessagesMessageProcessor.sendCompleteMessage E r
          (FetchMissingMessagesMessageProcessor.leftCount page)) fun _ => True :=
        notes_builder.bind fun b _ => .reraise
          (notes_deliver_of_type hB .FETCH_MISSING_MESSAGES_COMPLETE rfl (by decide))
      exact Triple.of_keeps (hloop.bind fun _ _ => hreply) (fun _ h => h) s hs.1

/-- **A request** has put on the topics what is on its page, and messages that are no close commands. -/
theorem notes_request (hB : Allows B) (ht : r.type = some .FETCH_MISSING_MESSAGES_REQUEST)
    (hto : r.to_ = none) {s : State} (hpage : ∀ u count, r.from_ = some u →
      r.data = .fetchMissingMessagesRequest (some count) → ∀ m ∈ (pageFor s u count).content, B m) :
    Notes (fun _ => True) B s ((PostOffice.onRecordArrived E r).run s).2 := by
  have hfirst : ∀ s', Notes (fun _ => True) B s s' ∧ s'.messages = s.messages →
      Notes (fun _ => True) B s s' := fun _ hs => hs.1
  have hwith : ∀ process, Triple (fun s' => Notes (fun _ => True) B s s' ∧ s'.messages = s.messages)
      (processWith E process r) (fun _ => Notes (fun _ => True) B s) (Notes (fun _ => True) B s) := by
    intro process
    have hnote : Keeps (fun s' => Notes (fun _ => True) B s s' ∧ s'.messages = s.messages)
        (Proc.note (.processing r)) fun _ => True := by
      refine .modify (fun s' hs => ⟨trans_of (Notes (fun _ => True) B) hs.1 ?_, hs.2⟩) trivial
      exact ⟨⟨_, rfl, fun _ _ => trivial⟩, [], (List.append_nil _).symm,
        fun _ hp => absurd hp List.not_mem_nil⟩
    refine .bind_keeps hnote (fun _ _ => ?_) hfirst
    refine .bind_keeps (keeps_orNullPointer _ _) (fun _ _ => ?_) hfirst
    refine .bind_keeps (keeps_orNullPointer _ _) (fun t _ => ?_) hfirst
    refine .ite (fun _ => .of_run hfirst) fun _ => ?_
    refine .bind_keeps (keeps_orNullPointer _ _) (fun c hc => ?_) hfirst
    have hty : c.type = some .FETCH_MISSING_MESSAGES_REQUEST := (Rules.type_eq hc).symm.trans ht
    rw [hty]
    have hpre : Keeps (fun s' => Notes (fun _ => True) B s s' ∧ s'.messages = s.messages)
        ((FetchMissingMessagesMessageProcessor.processor E).preprocess r.touch) (· = r.touch) :=
      (keeps_getData _ _).bind fun _ _ => .pure rfl
    refine .bind_keeps hpre (fun p hp => ?_) hfirst
    subst hp
    -- without a recipient the request is for this domain
    have hhere : isCurrentDomainMessage E r.touch = pure true := by
      have hblank : isBlank r.touch.to_ = true := by
        show isBlank r.to_ = true
        rw [hto]
        rfl
      rw [isCurrentDomainMessage, if_pos hblank]
    refine .ite (fun _ => ?_) fun h => absurd (by decide) h
    rw [hhere]
    refine .bind_keeps (Keeps.pure (Q := (· = true)) rfl) (fun b hb => ?_) hfirst
    rw [hb]
    exact triple_fetch hB hpage
  obtain ⟨depth, hdepth⟩ : ∃ n, callDepth r = n + 1 := ⟨callDepth r - 1, by unfold callDepth; omega⟩
  have hprocess : Triple (fun s' => Notes (fun _ => True) B s s' ∧ s'.messages = s.messages)
      (MessageProcessorService.process E r) (fun _ => Notes (fun _ => True) B s)
      (Notes (fun _ => True) B s) := by
    rw [MessageProcessorService.process, hdepth, Processor.process]
    exact hwith _
  have hstored : ∀ e : Thrown, Keeps (Notes (fun _ => True) B s) (do
      let _ ← persistMessage E e.message (some .PROCESSOR_ERROR)
      pure ()) fun _ => True := fun e => notes_persistMessage.bind fun _ _ => .pure trivial
  have harrived : Triple (fun s' => Notes (fun _ => True) B s s' ∧ s'.messages = s.messages)
      (PostOffice.onMessageArrived E r) (fun _ => Notes (fun _ => True) B s)
      (Notes (fun _ => True) B s) :=
    hprocess.recoverIf (fun e => Triple.of_keeps (hstored e) fun _ h => h) fun _ h => h
  have hlogged : ∀ _ : Thrown, Triple (Notes (fun _ => True) B s) (pure () : Proc Unit)
      (fun _ => Notes (fun _ => True) B s) (Notes (fun _ => True) B s) := fun _ => .of_run fun _ h => h
  have hrecord : Triple (fun s' => Notes (fun _ => True) B s s' ∧ s'.messages = s.messages)
      (PostOffice.onRecordArrived E r) (fun _ => Notes (fun _ => True) B s)
      (Notes (fun _ => True) B s) :=
    harrived.recoverIf hlogged fun _ h => h
  exact hrecord.run ⟨refl_of (Notes (fun _ => True) B) s, rfl⟩

end

end

end Linker.Processor
