import Linker.Processor.Effects
import Linker.Processor.Handlers

/-!
# What a processor can do to its stores

Whatever message a processor takes up, and wherever its processing throws: deliveries are made,
addresses are registered and removed, calls of authentication endpoints are begun, and pages of stored
messages are delivered and removed.  What holds of each of these changes, and of several one after the
other, holds of all that a processor does.

* `Permits R` : the relation `R` between the states before and after allows each of these changes.
* `Permits.moves_process` : it holds of the processing of a message.
* `Permits.moves_onRecordArrived`, `Permits.moves_handleInternalMessage`, `Permits.moves_complete` : it
  holds of the ways in.
-/

namespace Linker.Processor

open ProcessorUtils ClientAppService MessageProcessorService PostOffice Exec
open FetchMissingMessagesMessageProcessor (deliverAndRemove fetchableStates sendCompleteMessage)

variable [JavaChar]

/-- Each single change that a handler makes is allowed. -/
structure Permits (E : Environment) (R : State → State → Prop) : Prop where
  sends : ∀ {s s' : State}, Sends s s' → R s s'
  note : ∀ (s : State) m, R s { s with journal := s.journal ++ [.processing m] }
  channels : ∀ (s : State) channels, R s { s with channels }
  httpCalls : ∀ (s : State) httpCalls, R s { s with httpCalls }
  /-- A page is made of messages that are in the store when the request is handled. -/
  page : ∀ (s : State) m l, (∀ r ∈ l, r ∈ s.messages) → R s ((deliverAndRemove E m l).run s).2

namespace Permits

variable {E : Environment} {R : State → State → Prop} [IsPreorder State R]
  {process : Message → Proc Unit} {m : Message}

omit [JavaChar] in
theorem moves_getData {α : Type} (view : Data → Option α) (m : Message) :
    Moves R (getData view m) := by
  refine (moves_orNullPointer m m.content).bind fun c => ?_
  split
  · exact .pure _
  · exact .fail _

omit [IsPreorder State R] in
/-- What only delivers. -/
theorem moves {α : Type} {x : Proc α} (h : Permits E R) (hx : Moves Sends x) : Moves R x :=
  fun s => h.sends (hx s)

omit [IsPreorder State R] in
theorem moves_delivery (h : Permits E R) (m : Message) : Moves R (deliverMessage E m) :=
  h.moves (moves_deliverMessage m)

/-! ### Single messages -/

theorem moves_message (h : Permits E R) (m : Message) :
    Moves R ((CustomMessageProcessor.processor E).process m) := by
  refine (moves_getData _ _).bind fun data => (moves_orNullPointer _ _).bind fun d => ?_
  have hflag : ∀ m, Moves R (CustomMessageProcessor.updateMessageConfirmationFlag m) := fun m =>
    (moves_orNullPointer _ _).bind fun c => (moves_orNullPointer _ _).bind fun b =>
      (moves_orNullPointer _ _).bind fun _ => .pure _
  exact (hflag _).bind fun m' => h.moves_delivery m'

theorem moves_close (h : Permits E R) (m : Message) :
    Moves R ((CloseConnectionMessageProcessor.processor E).process m) := by
  refine (moves_getData _ _).bind fun data => (moves_orNullPointer _ _).bind fun u => ?_
  split
  · exact .pure _
  · exact .ite (h.moves_delivery _) (.pure _)

/-! ### Authentication -/

theorem moves_sendReply (h : Permits E R) (m : Message) (reply : AuthClientReply) :
    Moves R (AuthClientMessageProcessor.sendReply E m reply) :=
  (moves_orNullPointer _ _).bind fun _ => (moves_orNullPointer _ _).bind fun _ =>
    (h.moves moves_builder).bind fun _ => .reraise (h.moves_delivery _)

theorem moves_auth (h : Permits E R) (m : Message) :
    Moves R ((AuthClientMessageProcessor.processor E).process m) := by
  refine (moves_getData _ _).bind fun data => (moves_orNullPointer _ _).bind fun d => ?_
  have hfail : Moves R (AuthClientMessageProcessor.fail E m d) := h.moves_sendReply m _
  split
  · exact hfail
  · refine .ite hfail (.ite hfail (.ite (h.moves_sendReply m _) (.ite hfail ?_)))
    exact .ite (.modify fun s => h.httpCalls s _) (.fail _)

/-- The answer of an endpoint. -/
theorem moves_complete (h : Permits E R) (c : HttpCall) (outcome : HttpOutcome) :
    Moves R (HttpCall.complete E c outcome) := by
  have hfail : Moves R (AuthClientMessageProcessor.fail E c.message c.data) :=
    h.moves_sendReply c.message _
  have hexc : Moves R
      ((AuthClientMessageProcessor.fail E c.message c.data).recover fun _ => pure ()) :=
    hfail.recover fun _ => .pure _
  unfold HttpCall.complete
  split
  · exact hexc
  · exact hexc
  · refine Moves.recover ?_ fun _ => hexc
    exact (moves_orNullPointer _ _).bind fun reply => .ite (h.moves_sendReply _ _) hfail

/-! ### Group messages -/

section Groups

open CustomGroupMessageProcessor

variable {data : GroupMessage}

theorem moves_groupByConnector (h : Permits E R) (hp : ∀ m, Moves R (process m))
    (users : List (Option String)) (g : Groups ConnectorUserId) :
    Moves R (groupByConnector E process m data users g) := by
  induction users generalizing g with
  | nil => exact .pure _
  | cons u users ih =>
    refine (h.moves (moves_routeTargetAddresses _ _ _)).bind fun addresses => ?_
    have hsingle : Moves R (processUserAddressNotFound E process u m data) :=
      (moves_orNullPointer _ _).bind fun _ => (moves_orNullPointer _ _).bind fun _ =>
        (h.moves moves_builder).bind fun _ => .reraise (hp _)
    exact .ite (hsingle.bind fun _ => ih _) (ih _)

theorem moves_group (h : Permits E R) (hp : ∀ m, Moves R (process m)) (m : Message) :
    Moves R ((CustomGroupMessageProcessor.processor E process).process m) := by
  refine (moves_getData _ _).bind fun data => (moves_orNullPointer _ _).bind fun d => ?_
  refine (moves_orNullPointer _ _).bind fun users => .forEach fun domain _ => .ite ?_ ?_
  · refine (h.moves_groupByConnector hp _ _).bind fun g => .forEach fun name _ => ?_
    exact (moves_orNullPointer _ _).bind fun _ => (moves_orNullPointer _ _).bind fun _ =>
      (h.moves moves_builder).bind fun _ => .reraise (h.moves_delivery _)
  · exact (moves_orNullPointer _ _).bind fun _ => (moves_orNullPointer _ _).bind fun _ =>
      (h.moves moves_builder).bind fun _ => .reraise (hp _)

end Groups

/-! ### Presence and fetching -/

omit [JavaChar] in
theorem moves_getById (u : Option String) (m : Message) :
    Moves R (UserChannelService.getById u m) := by
  cases u with
  | none => exact .fail _
  | some u => exact .read _

theorem moves_addAddress (h : Permits E R) (u : Option String) (a : Option Address) (m : Message) :
    Moves R (UserChannelService.addAddress u a m) := by
  refine (moves_getById u m).bind fun _ => ?_
  split
  · exact .modify fun s => h.channels s _
  · exact .pure _

theorem moves_removeAddress (h : Permits E R) (u : Option String) (a : Option Address)
    (m : Message) : Moves R (UserChannelService.removeAddress u a m) := by
  refine (moves_getById u m).bind fun _ => ?_
  split
  · exact .modify fun s => h.channels s _
  · exact .pure _

theorem moves_presence (h : Permits E R) (hp : ∀ m, Moves R (process m))
    {view : Data → Option (Option String)}
    {operation : Option String → Option Address → Message → Proc Unit}
    (hop : ∀ u a m, Moves R (operation u a m)) (m : Message) :
    Moves R ((presenceProcessor E view operation process).process m) := by
  refine (moves_getData _ _).bind fun data => .ite (h.moves_delivery m) ?_
  have hmaster : Moves R (do
      let userId ← orNullPointer m data
      sendMessageToMasterUser E process m userId) := by
    refine (moves_orNullPointer _ _).bind fun u => ?_
    unfold sendMessageToMasterUser
    split
    · exact .pure _
    · split
      · exact hp _
      · exact .pure _
  refine .ite ?_ hmaster
  exact (moves_orNullPointer _ _).bind fun u => (moves_orNullPointer _ _).bind fun t =>
    (hop _ _ _).bind fun _ => hmaster

theorem moves_fetch (h : Permits E R) (m : Message) :
    Moves R ((FetchMissingMessagesMessageProcessor.processor E).process m) := by
  refine (moves_getData _ _).bind fun data => (moves_orNullPointer _ _).bind fun n => ?_
  refine (moves_orNullPointer _ _).bind fun count => ?_
  have hcomplete : ∀ left, Moves R (sendCompleteMessage E m left) := fun left =>
    (h.moves moves_builder).bind fun _ => .reraise (h.moves_delivery _)
  split
  · exact .fail _
  · intro s
    unfold MessageRepository.findMessages
    split
    · exact refl_of R s
    · -- the page is read from the store that the loop starts with
      rw [run_read_bind, run_bind]
      have hpage := h.page s m (MessageRepository.page m.from_ none fetchableStates
        (min FetchMissingMessagesMessageProcessor.MAX_COUNT count).toNat s.messages).content
        fun r hr => (MessageRepository.mem_page hr).1
      rcases hrun : (deliverAndRemove E m _).run s with ⟨e | u, s'⟩
      · rw [hrun] at hpage
        exact hpage
      · rw [hrun] at hpage
        exact trans_of R hpage (hcomplete _ s')

/-! ### State changes -/

theorem moves_report (h : Permits E R) (hp : ∀ m, Moves R (process m)) (m : Message) :
    Moves R ((MessageStateChangedMessageProcessor.processor E process).process m) := by
  refine (moves_getData _ _).bind fun data => .reraise ?_
  refine (moves_orNullPointer _ _).bind fun d => (moves_orNullPointer _ _).bind fun msg => .ite ?_ ?_
  · exact (moves_orNullPointer _ _).bind fun t => (h.moves_removeAddress _ _ _).bind fun _ =>
      h.moves_delivery msg
  have hhere : ∀ msg st, Moves R (MessageStateChangedMessageProcessor.deliveredHere E msg st) := by
    intro msg st
    refine .ite (.pure _) ((moves_orNullPointer _ _).bind fun c => .ite (.pure _) ?_)
    exact (moves_orNullPointer _ _).bind fun t => (moves_orNullPointer _ _).bind fun a => .pure _
  refine (h.moves (moves_persistMessage _ _)).bind fun msg' => (hhere _ _).bind fun b => .ite ?_ (.pure _)
  -- the sender is told
  refine (moves_orNullPointer _ _).bind fun c => .ite (.pure _) ?_
  refine (moves_orNullPointer _ _).bind fun enabled => .ite ?_ (.pure _)
  exact (h.moves moves_builder).bind fun b => hp _

/-! ### Messages in messages -/

omit [JavaChar] in
theorem moves_innerMessage (m : Message) : Moves R (InternalMessageProcessor.innerMessage m) :=
  (moves_getData _ _).bind fun _ => moves_orNullPointer _ _

theorem moves_internal (h : Permits E R) (hp : ∀ m, Moves R (process m)) (m : Message) :
    Moves R ((InternalMessageProcessor.processor E process).process m) := by
  refine (moves_getData _ _).bind fun data => (moves_isCurrentDomainMessage m).bind fun b => ?_
  refine .ite ?_ (h.moves_delivery m)
  exact (moves_innerMessage m).bind fun i => .reraise (hp i)

theorem moves_processCrossDomainMessage (h : Permits E R) (hp : ∀ m, Moves R (process m))
    (m : Message) : Moves R (processCrossDomainMessage E process m) := by
  refine (moves_orNullPointer _ _).bind fun c => .ite (hp m) ?_
  exact (h.moves moves_builder).bind fun b => (moves_orNullPointer _ _).bind fun t =>
    (moves_resolveDomainName m).bind fun d => .reraise (hp _)

/-! ### The message processor service -/

/-- Every handler, with its pass over the message before. -/
theorem moves_handler (h : Permits E R) (hp : ∀ m, Moves R (process m)) {ty : Option MessageType}
    {p : MessageProcessor} (hty : getMessageProcessor E process ty = some p) :
    (∀ m, Moves R (p.preprocess m)) ∧ ∀ m, Moves R (p.process m) := by
  have hplain : ∀ {T : Type} (view : Data → Option T) (f : Message → Option T → Proc Unit) (m : Message),
      Moves R (({ view, doProcess := f } : MessageProcessor).preprocess m) := fun view f m =>
    (moves_getData _ _).bind fun _ => .pure _
  have htyped : ∀ {T : Type} (view : Data → Option T) (u : T → Option String) (m : Message), Moves R (do
      let data ← getData view m
      let d ← orNullPointer m data
      pure (m.setTo (u d)) : Proc Message) := fun view u m =>
    (moves_getData _ _).bind fun _ => (moves_orNullPointer _ _).bind fun _ => .pure _
  unfold getMessageProcessor at hty
  split at hty <;> cases hty
  · exact ⟨htyped _ _, h.moves_message⟩
  · exact ⟨hplain _ _, fun m => (moves_getData _ _).bind fun _ => h.moves_delivery m⟩
  · exact ⟨htyped _ _, h.moves_close⟩
  · exact ⟨hplain _ _, h.moves_auth⟩
  · exact ⟨hplain _ _, h.moves_group hp⟩
  · exact ⟨hplain _ _, h.moves_presence hp h.moves_addAddress⟩
  · exact ⟨hplain _ _, h.moves_presence hp h.moves_removeAddress⟩
  · exact ⟨hplain _ _, h.moves_fetch⟩
  · exact ⟨hplain _ _, h.moves_report hp⟩
  · refine ⟨fun m => (moves_getData _ _).bind fun _ => .ite ?_ (.pure _), h.moves_internal hp⟩
    exact (moves_innerMessage m).bind fun i => .pure _

/-- One call of `process`. -/
theorem moves_processWith (h : Permits E R) (hp : ∀ m, Moves R (process m)) (m : Message) :
    Moves R (processWith E process m) := by
  refine Moves.bind (Moves.modify fun s => h.note s m) fun _ => (moves_orNullPointer _ _).bind fun _ => ?_
  refine (moves_orNullPointer _ _).bind fun t => .ite (.pure _) ?_
  refine (moves_orNullPointer _ _).bind fun c => ?_
  split
  · exact .pure _
  · next p hty =>
    obtain ⟨hpre, hproc⟩ := h.moves_handler hp hty
    refine (hpre _).bind fun m' => .ite ?_ (hproc m')
    exact (moves_isCurrentDomainMessage m').bind fun b =>
      .ite (hproc m') (h.moves_processCrossDomainMessage hp m')

/-- **Whatever a processor takes up**, its stores change as it is allowed. -/
theorem moves_process (h : Permits E R) (depth : ℕ) (m : Message) :
    Moves R (Processor.process E depth m) := by
  induction depth generalizing m with
  | zero => exact .fail _
  | succ depth ih => exact h.moves_processWith ih m

/-! ### The ways in -/

theorem moves_onMessageArrived (h : Permits E R) (m : Message) :
    Moves R (PostOffice.onMessageArrived E m) := by
  unfold PostOffice.onMessageArrived MessageProcessorService.process
  exact (h.moves_process (callDepth m) m).recoverIf fun e =>
    (h.moves (moves_persistMessage _ _)).bind fun _ => .pure _

theorem moves_onRecordArrived (h : Permits E R) (m : Message) :
    Moves R (PostOffice.onRecordArrived E m) :=
  (h.moves_onMessageArrived m).recoverIf fun _ => .pure _

/-- What a tunnel brings. -/
theorem moves_handleInternalMessage (h : Permits E R) (type : Option MessageType) (data : Data) :
    Moves R (DomainService.handleInternalMessage E type data) := by
  refine (h.moves moves_builder).bind fun blank => ?_
  split
  · exact .fail _
  · exact .fail _
  · exact (moves_orNullPointer _ _).bind fun t => (moves_orNullPointer _ _).bind fun c =>
      h.moves_onMessageArrived _

end Permits

end Linker.Processor
