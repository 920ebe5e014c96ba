import Linker.Connector.Rules

/-!
# What a connector reports

A connector reports a message as `PROCESSED` where it has written it to a socket and a confirmation is
wanted, and only there.  It reports a message as lost where it does not find the user, unless the
message is a close command.  No other record that it publishes is such a report.

## Main results

* `Written` : the connector has written the message to a socket, and a confirmation is wanted.
* `vouches_onMessageArrived`, `vouches_channelRead0`, … : every report is a true one.
-/

namespace Linker.Connector

open Exec

/-- The message has been written to a socket, and its sender is to be told. -/
structure Written (m : Message) (s : State) : Prop where
  confirmEnabled : ∃ t, m.meta_ = some t ∧ t.confirmEnabled = true
  output : ∃ o ∈ s.outputs, o.message = some m ∧ o.type = m.type ∧ o.isSuccess = true

/-- A report on the message. -/
def ReportsOn (r m : Message) (st : MessageState) : Prop :=
  r.type = some .MESSAGE_STATE_CHANGED ∧ r.data = .messageStateChanged (some m) (some st)

/-- A record that reports as processed what has been written, and as lost no close command. -/
structure Truthful (r : Message) (s : State) : Prop where
  processed : ∀ m, ReportsOn r m .PROCESSED → Written m s
  lost : ∀ m, ReportsOn r m .ADDRESS_NOT_FOUND → m.type ≠ some .CLOSE_CONNECTION

/-- What has been published since is true. -/
structure Vouches (s s' : State) : Prop where
  outputs : ∀ o ∈ s.outputs, o ∈ s'.outputs
  published : ∃ ps, s'.published = s.published ++ ps ∧ ∀ r ∈ ps, Truthful r s'

theorem Written.mono {m : Message} {s s' : State} (h : Written m s)
    (hs : ∀ o ∈ s.outputs, o ∈ s'.outputs) : Written m s' := by
  obtain ⟨o, ho, hmessage, htype, hok⟩ := h.output
  exact ⟨h.confirmEnabled, o, hs o ho, hmessage, htype, hok⟩

theorem Truthful.mono {r : Message} {s s' : State} (h : Truthful r s)
    (hs : ∀ o ∈ s.outputs, o ∈ s'.outputs) : Truthful r s' :=
  ⟨fun m hm => (h.processed m hm).mono hs, h.lost⟩

theorem vouches_of_eq {s s' : State} (ho : ∀ o ∈ s.outputs, o ∈ s'.outputs)
    (hp : s'.published = s.published) : Vouches s s' :=
  ⟨ho, [], hp.trans (List.append_nil _).symm, fun _ hr => absurd hr List.not_mem_nil⟩

instance : IsPreorder State Vouches where
  refl _ := vouches_of_eq (fun _ ho => ho) rfl
  trans s₁ s₂ s₃ h h' := by
    obtain ⟨ps, hps, hall⟩ := h.published
    obtain ⟨ps', hps', hall'⟩ := h'.published
    refine ⟨fun o ho => h'.outputs o (h.outputs o ho), ps ++ ps',
      by rw [hps', hps, List.append_assoc], fun r hr => ?_⟩
    rcases List.mem_append.1 hr with hr | hr
    · exact (hall r hr).mono h'.outputs
    · exact hall' r hr

variable {C : Config} {s₀ : State}

theorem vouches_modify {f : State → State} (h : ∀ s, (f s).outputs = s.outputs)
    (h' : ∀ s, (f s).published = s.published) : Moves Vouches (modify f : Conn Unit) :=
  fun s => vouches_of_eq (fun _ ho => by rw [run_modify, h]; exact ho) (h' s)

theorem vouches_orNullPointer {α : Type} (o : Option α) : Moves Vouches (orNullPointer o) := by
  cases o with
  | none => exact .fail _
  | some a => exact .pure a

theorem vouches_getData {α : Type} (view : Data → Option α) (m : Message) :
    Moves Vouches (getData view m) := by
  refine (vouches_orNullPointer _).bind fun c => ?_
  split
  · exact .pure _
  · exact .fail _

theorem vouches_builder : Moves Vouches (builder C) := fun _ => vouches_of_eq (fun _ ho => ho) rfl

theorem vouches_write (i : ℤ) (message : Option Message) (c : MessageContent) :
    Moves Vouches (SocketHandler.write i message c) := by
  refine (Moves.read _).bind fun isOpen => (Moves.read _).bind fun future => ?_
  refine Moves.bind (fun s => ?_) fun _ => .pure _
  exact vouches_of_eq (fun o ho => List.mem_append_left _ ho) rfl

theorem vouches_sendMessage (i : ℤ) (m : Message) : Moves Vouches (SocketHandler.sendMessage i m) :=
  (vouches_orNullPointer _).bind fun c => vouches_write i _ c

/-- What is published is true. -/
theorem vouches_deliverMessage {r : Message} :
    Triple (fun s => Vouches s₀ s ∧ Truthful r s) (PostOffice.deliverMessage r)
      (fun _ => Vouches s₀) (Vouches s₀) := by
  refine .of_run fun s hs => ?_
  have hpublish : Vouches s { s with published := s.published ++ [r] } := by
    refine ⟨fun o ho => ho, [r], rfl, fun p hp => ?_⟩
    cases List.mem_singleton.1 hp
    exact hs.2.mono fun _ ho => ho
  rcases hc : r.content with _ | c
  · rw [PostOffice.deliverMessage, getContent, hc]
    exact hs.1
  · have hget : (getContent r).run s = (.ok c, s) := by
      rw [getContent, hc]
      rfl
    rw [PostOffice.deliverMessage, run_bind_ok hget]
    rcases c.feature with _ | f
    · exact hs.1
    · exact trans_of Vouches hs.1 hpublish

theorem vouches_deliver {r : Message} (h : ∀ s, Truthful r s) :
    Moves Vouches (PostOffice.deliverMessage r) := fun s =>
  vouches_deliverMessage.run (s := s) ⟨refl_of Vouches s, h s⟩

/-- What the connector stores of its users and its sockets. -/
theorem vouches_user {α : Type} {u : Option String} {f : String → Conn α}
    (h : ∀ u s, ((f u).run s).2.outputs = s.outputs ∧ ((f u).run s).2.published = s.published) :
    Moves Vouches (do
      let u ← key u
      f u) :=
  (vouches_orNullPointer _).bind fun u s => vouches_of_eq (fun _ ho => (h u s).1 ▸ ho) (h u s).2

theorem vouches_update (i : ℤ) (f : Socket → Socket) : Moves Vouches (SocketHandler.update i f) :=
  vouches_modify (fun _ => rfl) fun _ => rfl

theorem vouches_close (i : ℤ) : Moves Vouches (SocketHandler.close i) :=
  vouches_modify (fun _ => rfl) fun _ => rfl

/-! ### Records of the topic -/

section Outgoing

theorem truthful_of_type {r : Message} (h : r.type ≠ some .MESSAGE_STATE_CHANGED) (s : State) :
    Truthful r s :=
  ⟨fun _ hr => absurd hr.1 h, fun _ hr => absurd hr.1 h⟩

/-- The report that a message has not been processed. -/
theorem vouches_report {m : Message} {st : MessageState} (h : st ≠ .PROCESSED)
    (h' : st = .ADDRESS_NOT_FOUND → m.type ≠ some .CLOSE_CONNECTION) :
    Moves Vouches (PostOffice.deliverStateChangedMessage C m st) := by
  refine vouches_builder.bind fun b => vouches_deliver fun s => ⟨fun p hp => ?_, fun p hp => ?_⟩
  · cases hp.2
    exact absurd rfl h
  · cases hp.2
    exact h' rfl

/-- **What is written and reported on.** -/
theorem vouches_default {m : Message} (ht : m.type ≠ some .CLOSE_CONNECTION) :
    Moves Vouches (DefaultOutgoingMessageProcessor.process C m) := by
  refine (vouches_orNullPointer _).bind fun t => (vouches_orNullPointer _).bind fun a => ?_
  refine (vouches_user fun _ _ => ⟨rfl, rfl⟩).bind fun handler => ?_
  cases handler with
  | none =>
    refine ((vouches_orNullPointer _).bind fun c => .pure _).bind fun reliable => ?_
    exact .ite (vouches_report (by decide) fun _ => ht) (.pure _)
  | some i =>
    intro s₀
    have hsend : Triple (· = s₀) (SocketHandler.sendMessage i m) (fun b s => Vouches s₀ s ∧
        (b = true → ∃ o ∈ s.outputs, o.message = some m ∧ o.type = m.type ∧ o.isSuccess = true))
        (Vouches s₀) := by
      rintro s rfl
      rcases hc : m.content with _ | c
      · rw [SocketHandler.sendMessage, getContent, hc]
        exact refl_of Vouches s
      · have hget : (getContent m).run s = (.ok c, s) := by
          rw [getContent, hc]
          rfl
        rw [SocketHandler.sendMessage, run_bind_ok hget]
        refine ⟨vouches_of_eq (fun o ho => List.mem_append_left _ ho) rfl, fun hb => ?_⟩
        have htype : c.type = m.type := by
          rw [MessageOf.type, hc]
          rfl
        exact ⟨_, List.mem_append_right _ (List.mem_singleton_self _), rfl, htype, hb⟩
    refine (hsend.bind fun b => ?_).run rfl
    have hfirst : ∀ s, Vouches s₀ s ∧ (b = true → ∃ o ∈ s.outputs, o.message = some m ∧
        o.type = m.type ∧ o.isSuccess = true) → Vouches s₀ s := fun _ hs => hs.1
    refine .bind_keeps (keeps_orNullPointer _) (fun t hmeta => ?_) hfirst
    refine .bind_keeps (keeps_orNullPointer _) (fun c _ => ?_) hfirst
    refine .ite (fun hreport => ?_) fun _ => .of_run hfirst
    cases b with
    | false =>
      refine .of_run fun s hs => trans_of Vouches hs.1 ?_
      exact vouches_report (C := C) (by decide) (fun h => by cases h) s
    | true =>
      -- a write that succeeds is reported only where a confirmation is wanted
      have hconfirm : t.confirmEnabled = true := by simpa using hreport
      rw [if_pos rfl]
      refine .bind (Q := fun r s => Vouches s₀ s ∧ ∃ o ∈ s.outputs, o.message = some m ∧
        o.type = m.type ∧ o.isSuccess = true) (fun s hs => ?_) fun b => ?_
      · exact ⟨trans_of Vouches hs.1 (vouches_builder (C := C) s), hs.2 rfl⟩
      refine .of_run fun s hs => vouches_deliverMessage.run ⟨hs.1, fun p hp => ?_, fun p hp => ?_⟩
      · cases hp.2
        exact ⟨⟨t, hmeta, hconfirm⟩, hs.2⟩
      · cases hp.2

theorem vouches_closeConnection (m : Message) :
    Moves Vouches (CloseConnectionMessageProcessor.process m) := by
  refine (vouches_getData _ _).bind fun _ => (vouches_orNullPointer _).bind fun t => ?_
  refine (vouches_orNullPointer _).bind fun a => ?_
  refine (vouches_user fun _ _ => ⟨rfl, rfl⟩).bind fun handler => ?_
  cases handler with
  | none => exact .pure _
  | some i => exact vouches_close i

variable [JavaChar]

theorem vouches_reply (m : Message) : Moves Vouches (AuthClientReplyMessageProcessor.process C m) := by
  refine (vouches_getData _ _).bind fun data => (vouches_orNullPointer _).bind fun d => ?_
  have hid : Moves Vouches (AuthClientReplyMessageProcessor.socketIdOf m) := by
    refine (vouches_orNullPointer _).bind fun t => ?_
    split
    · exact .pure _
    · exact .fail _
  refine hid.bind fun i => (vouches_user fun _ _ => ⟨rfl, rfl⟩).bind fun handler => ?_
  cases handler with
  | none => exact .pure _
  | some j =>
    refine (vouches_user fun _ _ => ⟨rfl, rfl⟩).bind fun _ => (vouches_orNullPointer _).bind fun b => ?_
    refine .ite ?_ ?_
    · refine (vouches_user fun _ _ => ⟨rfl, rfl⟩).bind fun _ => (vouches_update j _).bind fun _ => ?_
      refine (vouches_sendMessage j m).bind fun _ => (vouches_orNullPointer _).bind fun c => ?_
      exact vouches_builder.bind fun b =>
        vouches_deliver (truthful_of_type fun h => by cases h)
    · exact (vouches_update j _).bind fun _ => (vouches_sendMessage j m).bind fun _ => vouches_close j

theorem vouches_processOutgoingWith {process : Message → Conn Unit} (hp : ∀ m, Moves Vouches (process m))
    (m : Message) : Moves Vouches (processOutgoingWith C process m) := by
  intro s
  rcases hc : m.content with _ | c
  · rw [processOutgoingWith, getContent, hc]
    exact refl_of Vouches s
  have hget : (getContent m).run s = (.ok c, s) := by
    rw [getContent, hc]
    rfl
  have htype : m.type = c.type := by
    rw [MessageOf.type, hc]
    rfl
  rw [processOutgoingWith, run_bind_ok hget]
  split
  · exact vouches_reply m s
  · exact vouches_closeConnection m s
  · have hgroup : Moves Vouches (GroupConnectorMessageProcessor.process C process m) := by
      refine (vouches_getData _ _).bind fun data => (vouches_orNullPointer _).bind fun d => ?_
      refine (vouches_orNullPointer _).bind fun users => .forEach fun uid _ => ?_
      refine (vouches_orNullPointer _).bind fun c => vouches_builder.bind fun b => ?_
      exact (vouches_orNullPointer _).bind fun t => hp _
    exact hgroup s
  · next _ hother _ =>
    refine vouches_default (fun ht => ?_) s
    exact hother (htype.symm.trans ht)

/-- **A record of the topic.** -/
theorem vouches_onMessageArrived (m : Message) : Moves Vouches (PostOffice.onMessageArrived C m) := by
  have hnested : ∀ m, Moves Vouches (processOutgoingWith C (fun _ => .fail .stackOverflow) m) :=
    vouches_processOutgoingWith fun _ => .fail _
  refine (vouches_processOutgoingWith hnested m).recoverIf fun _ => ?_
  exact (vouches_orNullPointer _).bind fun c =>
    .ite (vouches_report (by decide) fun h => by cases h) (.pure _)

end Outgoing

/-! ### The events of a socket -/

/-- What a client brings, or a socket that closes. -/
theorem vouches_processIncomingMessage {m : Message} (ht : m.type ≠ some .MESSAGE_STATE_CHANGED) (i : ℤ)
    (socket : Socket) : Moves Vouches (processIncomingMessage C m i socket) := by
  have hplain : ∀ r : Message, r.type = m.type → Moves Vouches (PostOffice.deliverMessage r) :=
    fun r hr => vouches_deliver (truthful_of_type (hr ▸ ht))
  refine Moves.recoverIf ?_ fun _ => (vouches_orNullPointer _).bind fun c =>
    (vouches_write i none _).bind fun _ => .pure _
  split
  · refine (vouches_getData _ _).bind fun data => .ite ?_ (.pure _)
    refine (vouches_orNullPointer _).bind fun d => (vouches_update i _).bind fun _ => ?_
    refine (vouches_update i _).bind fun _ => (vouches_user fun _ _ => ⟨rfl, rfl⟩).bind fun _ => ?_
    refine hplain _ ?_
    rw [MessageOf.type, MessageOf.type]
    show ((m.content.map _).bind _) = _
    cases m.content <;> rfl
  · refine (vouches_getData _ _).bind fun data => (vouches_orNullPointer _).bind fun u => ?_
    refine .ite (.pure _) ((vouches_user fun _ _ => ⟨rfl, rfl⟩).bind fun _ => ?_)
    exact (vouches_user fun _ _ => ⟨rfl, rfl⟩).bind fun _ => hplain m rfl
  · refine .ite (hplain m rfl) (vouches_builder.bind fun b => ?_)
    exact (vouches_sendMessage i _).bind fun _ => .pure _

theorem vouches_initChannel : Moves Vouches initChannel := vouches_modify (fun _ => rfl) fun _ => rfl

theorem vouches_withFutures {x : Conn Unit} (futures : List Bool) (hx : Moves Vouches x) :
    Moves Vouches (withFutures futures x) := by
  intro s
  have hstart : Vouches s (s.expecting futures) := vouches_of_eq (fun _ ho => ho) rfl
  rw [withFutures, run_modify_bind]
  exact trans_of Vouches hstart (hx (s.expecting futures))

theorem vouches_channelRead0 {c : MessageContent} (hc : c.type ≠ some .MESSAGE_STATE_CHANGED) (i : ℤ)
    (socket : Socket) : Moves Vouches (channelRead0 C i socket c) := by
  refine vouches_builder.bind fun b => ?_
  have htype : (clientMessage C b i socket c).type ≠ some .MESSAGE_STATE_CHANGED := hc
  exact vouches_processIncomingMessage htype i socket

theorem vouches_handlerRemoved (i : ℤ) (socket : Socket) : Moves Vouches (handlerRemoved C i socket) := by
  refine (vouches_update i _).bind fun _ => .ite (.pure _) (vouches_builder.bind fun b => ?_)
  have htype : (disconnectedMessage C b i socket).type = some .USER_DISCONNECTED := rfl
  exact vouches_processIncomingMessage (by rw [htype]; decide) i socket

end Linker.Connector
