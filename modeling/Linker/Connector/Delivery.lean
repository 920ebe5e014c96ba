import Linker.Connector.Handlers

/-!
# Runs of a connector

What a connector does with a copy of a reliable message on its topic: it writes it to the socket of the
recipient that the target address names, or reports that it has not found one.

## Main results

* `run_onMessageArrived` : the outcome for a copy.
* `keeps_outputs` : what has been written to a socket stays written, whatever record comes.
-/

namespace Linker.Connector

open Exec

/-- Whether the next write to the socket succeeds. -/
def State.succeeds (i : ℤ) (s : State) : Bool :=
  ((s.sockets i).map (·.isOpen)).getD false && s.futures.headD true

/-- The state after a message is written to a socket. -/
def State.wrote (i : ℤ) (m : Message) (c : MessageContent) (s : State) : State :=
  { s with
    futures := s.futures.tail
    outputs := s.outputs ++ [⟨i, c.type, c.data, c.reference, some m, s.succeeds i⟩] }

/-- The state after a message is reported on. -/
def State.reported (C : Config) (m : Message) (st : MessageState) (s : State) : State :=
  { s with
    serial := s.serial + 1
    published := s.published ++ [PostOffice.stateChangedMessage C (C.blank s.serial) m st] }

/-- The state after the copy `m` for the user `u` with content `c` is handled. -/
def State.handled (C : Config) (m : Message) (u : String) (c : MessageContent) (t : MessageMeta)
    (a : Address) (s : State) : State :=
  match UserMap.getUser u a.socketId s.users with
  | none => if c.feature = some .RELIABLE then s.reported C m .ADDRESS_NOT_FOUND else s
  | some i =>
    if t.confirmEnabled || !s.succeeds i && c.feature == some .RELIABLE then
      (s.wrote i m c).reported C m (if s.succeeds i then .PROCESSED else .NETWORK_ERROR)
    else s.wrote i m c

/-- The types that a connector does not simply write to the socket. -/
def specialTypes : List MessageType :=
  [.AUTH_CLIENT_REPLY, .CLOSE_CONNECTION, .GROUP_CONNECTOR_MESSAGE]

variable {C : Config}

theorem run_default {m : Message} {u : String} {c : MessageContent} {t : MessageMeta} {a : Address}
    (hu : m.to_ = some u) (hc : m.content = some c) (ht : m.meta_ = some t)
    (ha : t.targetAddress = some a) (s : State) :
    (DefaultOutgoingMessageProcessor.process C m).run s = (.ok (), s.handled C m u c t a) := by
  have hmeta : ∀ s, (getMeta m).run s = (.ok t, s) := fun s => by rw [getMeta, ht]; rfl
  have hcontent : ∀ s, (getContent m).run s = (.ok c, s) := fun s => by rw [getContent, hc]; rfl
  have htarget : (orNullPointer t.targetAddress : Conn Address).run s = (.ok a, s) := by rw [ha]; rfl
  have hget : (NetworkUserService.getUser m.to_ a.socketId).run s =
      (.ok (UserMap.getUser u a.socketId s.users), s) := by rw [hu]; rfl
  rw [DefaultOutgoingMessageProcessor.process, run_bind_ok (hmeta s), run_bind_ok htarget,
    run_bind_ok hget, State.handled]
  cases UserMap.getUser u a.socketId s.users with
  | none =>
    have hrel : (DefaultOutgoingMessageProcessor.isReliableMessage m).run s =
        (.ok (c.feature == some .RELIABLE), s) := by
      rw [DefaultOutgoingMessageProcessor.isReliableMessage, run_bind_ok (hcontent s)]
      rfl
    rw [run_bind_ok hrel]
    rcases c.feature with _ | _ | _ <;> rfl
  | some i =>
    have hsend : (SocketHandler.sendMessage i m).run s = (.ok (s.succeeds i), s.wrote i m c) := by
      rw [SocketHandler.sendMessage, run_bind_ok (hcontent s)]
      rfl
    simp only
    rw [run_bind_ok hsend, DefaultOutgoingMessageProcessor.onWritten, run_bind_ok (hmeta _),
      run_bind_ok (hcontent _)]
    split <;> rfl

variable [JavaChar]

/-- **A copy on its topic.** -/
theorem run_onMessageArrived {m : Message} {u : String} {c : MessageContent} {t : MessageMeta}
    {a : Address} {ty : MessageType} (hu : m.to_ = some u) (hc : m.content = some c)
    (hty : c.type = some ty) (hplain : ty ∉ specialTypes) (ht : m.meta_ = some t)
    (ha : t.targetAddress = some a) (s : State) :
    (PostOffice.onMessageArrived C m).run s = (.ok (), s.handled C m u c t a) := by
  have hcontent : (getContent m).run s = (.ok c, s) := by rw [getContent, hc]; rfl
  have hproc : (processOutgoingMessage C m).run s = (.ok (), s.handled C m u c t a) := by
    rw [processOutgoingMessage, processOutgoingWith, run_bind_ok hcontent, hty]
    rw [← run_default hu hc ht ha s]
    cases ty <;> first | rfl | exact absurd (by decide) hplain
  exact run_recoverIf_ok hproc _ _

omit [JavaChar] in
/-- What an authenticated client sends is published as it is. -/
theorem run_channelRead0 {C : Config} {i : ℤ} {k : Socket} {c : MessageContent}
    (hauth : k.authStatus = .AUTHENTICATED) (htype : c.type = some .MESSAGE) {f : MessageFeature}
    (hf : c.feature = some f) (s : State) :
    (withFutures [] (channelRead0 C i k c)).run s = (.ok (), { s with
      futures := []
      serial := s.serial + 1
      published := s.published ++ [clientMessage C (C.blank s.serial) i k c] }) := by
  let s₁ : State := { s with futures := [], serial := s.serial + 1 }
  let m := clientMessage C (C.blank s.serial) i k c
  have hcontent : (getContent m).run s₁ = (.ok c, s₁) := rfl
  have hpublish : (DefaultIncomingMessageProcessor.process C m i k).run s₁ =
      (.ok (), { s₁ with published := s₁.published ++ [m] }) := by
    rw [DefaultIncomingMessageProcessor.process, if_pos hauth,
      PostOffice.deliverMessage,
      run_bind_ok hcontent, hf]
    rfl
  have htype' : MessageOf.type m = some .MESSAGE := htype
  have hbuilder : (builder C).run (s.expecting []) = (.ok (C.blank s.serial), s₁) := rfl
  rw [withFutures, run_modify_bind, channelRead0, run_bind_ok hbuilder, processIncomingMessage]
  simp only [show (clientMessage C (C.blank s.serial) i k c).type = some .MESSAGE from htype']
  exact run_recoverIf_ok hpublish _ _

end Linker.Connector
