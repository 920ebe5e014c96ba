import Linker.Common.Frames
import Linker.Connector.Handlers
import Linker.Kafka.Listener
import Linker.Processor.CallStack

/-!
# The consumers of a domain

Processors and connectors read messages from the bytes on their topics.  The listener of a processor
logs the exceptions of what it does; that of a connector reports on a message that could not be
processed, if it is a reliable one, and for this reads the content, which need not be there.  Neither
catches an `Error`: that of a codec that cannot read the bytes on the stack it has, or that of a message
which has `process` call itself too often.

## Main definitions

* `Processor.PostOffice.onBytesArrived`, `Connector.PostOffice.onBytesArrived` : the listeners.

## Main result

* `consumers_survive_iff` : the bytes that may be on the topics.
-/

namespace Linker

open Exec Kafka

/-- `onMessageArrived(expressDelivery, bytes)` on a stack with room for so many calls of `process`.
What the codec makes of bytes is a message or what it throws; a null counts as the
`NullPointerException` that comes of it. -/
def Processor.PostOffice.onBytesArrived [JavaChar] (E : Environment) (room : ℕ)
    (deserialize : Bytes → Except JavaException Message) (bytes : Bytes) : Proc Unit :=
  let arrived : Proc Unit := match deserialize bytes with
    | .ok m => onMessageArrivedWith E (processOn E room) m
    | .error e => .throw e (newMessage "" 0)
  Proc.catchException arrived fun _ => pure ()

/-- `onMessageArrived(expressDelivery, bytes)`, likewise: there is nothing to report on where the codec
has thrown. -/
def Connector.PostOffice.onBytesArrived [JavaChar] (C : Config)
    (deserialize : Bytes → Except JavaException Message) (bytes : Bytes) : Conn Unit :=
  match deserialize bytes with
  | .ok m => onMessageArrived C m
  | .error e => Conn.catchException (.fail e) fun _ => pure ()

section

variable [JavaChar] {deserialize : Bytes → Except JavaException Message} {bytes : Bytes} {m : Message}

namespace Processor

variable {E : Environment} {room : ℕ}

/-- Exceptions are logged. -/
theorem onBytesArrived_returns (he : ∀ e, deserialize bytes = .error e → e.isError = false)
    (hm : ∀ m, deserialize bytes = .ok m → ¬ Nests E room m) (s : State) :
    ((PostOffice.onBytesArrived E room deserialize bytes).run s).1 = .ok () := by
  have harrived : Calm (match deserialize bytes with
      | .ok m => PostOffice.onMessageArrivedWith E (processOn E room) m
      | .error e => .throw e (newMessage "" 0) : Proc Unit) := by
    split
    · next m hok =>
      refine (calm_processOn (hm m hok)).recoverIf fun e _ => ?_
      exact (calm_persistMessage _ _).bind fun _ _ => .pure trivial
    · next e herror => exact .fail (he e herror)
  rw [PostOffice.onBytesArrived]
  exact (harrived.mono fun _ _ => rfl).run_recoverIf_pure
    (fun e he => by rw [show e.exception.isError = false from he]; rfl) trivial

/-- An `Error` is not. -/
theorem onBytesArrived_throws (h : (∃ e, deserialize bytes = .error e ∧ e.isError = true) ∨
    ∃ m, deserialize bytes = .ok m ∧ Nests E room m) (s : State) :
    ((PostOffice.onBytesArrived E room deserialize bytes).run s).1 ≠ .ok () := by
  rw [PostOffice.onBytesArrived]
  obtain ⟨e, herror, he⟩ | ⟨m, hok, hnests⟩ := h
  · have hrun : (Proc.throw e (newMessage "" 0) : Proc Unit).run s =
        (.error ⟨e, newMessage "" 0⟩, s) := rfl
    simp only [herror]
    rw [run_recoverIf_of_not hrun (by rw [he]; rfl)]
    exact fun h => by cases h
  · obtain ⟨e, hthrown, hexception⟩ := overflows_of_nests hnests s
    have hrun : (processOn E room m).run s = (.error e, ((processOn E room m).run s).2) :=
      Prod.ext hthrown rfl
    have herror : (!e.exception.isError) = false := by rw [hexception]; rfl
    simp only [hok]
    rw [run_recoverIf_of_not (run_recoverIf_of_not hrun herror _) herror]
    exact fun h => by cases h

theorem onBytesArrived_returns_iff :
    (∀ s, ((PostOffice.onBytesArrived E room deserialize bytes).run s).1 = .ok ()) ↔
      (∀ e, deserialize bytes = .error e → e.isError = false) ∧
        ∀ m, deserialize bytes = .ok m → ¬ Nests E room m := by
  refine ⟨fun h => ⟨fun e he => ?_, fun m hm hnests => ?_⟩, fun h => onBytesArrived_returns h.1 h.2⟩
  · by_contra herror
    exact onBytesArrived_throws (.inl ⟨e, he, by simpa using herror⟩) {} (h {})
  · exact onBytesArrived_throws (.inr ⟨m, hm, hnests⟩) {} (h {})

end Processor

namespace Connector

variable {C : Config}

/-! ### No `Error` out of a connector -/

/-- Whatever state it starts in, `x` throws no `Error`. -/
abbrev Calm {α : Type} (x : Conn α) : Prop :=
  Contract (fun _ => True) x (fun _ => True) fun e => e.isError = false

omit [JavaChar] in
theorem calm_modify {f : State → State} : Calm (Exec.modify f : Conn Unit) :=
  .modify (fun _ _ => trivial) trivial

omit [JavaChar] in
theorem calm_read {α : Type} {f : State → α} : Calm (Exec.read f : Conn α) := .read fun _ _ => trivial

omit [JavaChar] in
theorem calm_orNullPointer {α : Type} (o : Option α) : Calm (orNullPointer o) := by
  cases o with
  | none => exact .fail rfl
  | some a => exact .pure trivial

omit [JavaChar] in
theorem calm_getData {α : Type} (view : Data → Option α) (m : Message) : Calm (getData view m) := by
  refine (calm_orNullPointer _).bind fun c _ => ?_
  split
  · exact .pure trivial
  · next e he => exact .fail (Data.eq_illegalArgument_of_convert he ▸ rfl)

omit [JavaChar] in
theorem calm_builder : Calm (builder C) :=
  calm_read.bind fun _ _ => calm_modify.bind fun _ _ => .pure trivial

omit [JavaChar] in
theorem calm_deliverMessage (m : Message) : Calm (PostOffice.deliverMessage m) := by
  refine (calm_orNullPointer _).bind fun c _ => ?_
  split
  · exact .fail rfl
  · exact calm_modify

omit [JavaChar] in
theorem calm_deliverStateChangedMessage (m : Message) (st : MessageState) :
    Calm (PostOffice.deliverStateChangedMessage C m st) :=
  calm_builder.bind fun _ _ => calm_deliverMessage _

omit [JavaChar] in
theorem calm_sendMessage (i : ℤ) (m : Message) : Calm (SocketHandler.sendMessage i m) :=
  (calm_orNullPointer _).bind fun _ _ => calm_read.bind fun _ _ => calm_read.bind fun _ _ =>
    calm_modify.bind fun _ _ => .pure trivial

omit [JavaChar] in
/-- The maps of the users. -/
theorem calm_key {α : Type} {u : Option String} {x : String → Conn α} (hx : ∀ u, Calm (x u)) :
    Calm (key u >>= x) := (calm_orNullPointer _).bind fun u _ => hx u

omit [JavaChar] in
theorem calm_close (m : Message) : Calm (CloseConnectionMessageProcessor.process m) := by
  refine (calm_getData _ _).bind fun _ _ => (calm_orNullPointer _).bind fun t _ =>
    (calm_orNullPointer _).bind fun a _ => Contract.bind (Q := fun _ => True)
      (calm_key fun _ => calm_read) fun handler _ => ?_
  split
  · exact .pure trivial
  · exact calm_modify

omit [JavaChar] in
theorem calm_default (m : Message) : Calm (DefaultOutgoingMessageProcessor.process C m) := by
  refine (calm_orNullPointer _).bind fun t _ => (calm_orNullPointer _).bind fun a _ =>
    Contract.bind (Q := fun _ => True) (calm_key fun _ => calm_read) fun handler _ => ?_
  split
  · refine (calm_sendMessage _ m).bind fun b _ => (calm_orNullPointer _).bind fun t _ =>
      (calm_orNullPointer _).bind fun c _ => .ite (fun _ => ?_) fun _ => .pure trivial
    exact calm_deliverStateChangedMessage m _
  · refine Contract.bind (Q := fun _ => True) ((calm_orNullPointer _).bind fun _ _ => .pure trivial)
      fun reliable _ => .ite (fun _ => ?_) fun _ => .pure trivial
    exact calm_deliverStateChangedMessage m _

theorem calm_reply (m : Message) : Calm (AuthClientReplyMessageProcessor.process C m) := by
  refine (calm_getData _ _).bind fun data _ => (calm_orNullPointer _).bind fun d _ => ?_
  refine Contract.bind (Q := fun _ => True) ?_ fun i _ => Contract.bind (Q := fun _ => True)
    (calm_key fun _ => calm_read) fun handler _ => ?_
  · refine (calm_orNullPointer _).bind fun t _ => ?_
    split
    · exact .pure trivial
    · exact .fail rfl
  split
  · exact .pure trivial
  · refine Contract.bind (Q := fun _ => True) (calm_key fun _ => calm_modify) fun _ _ =>
      (calm_orNullPointer _).bind fun ok _ => .ite (fun _ => ?_) fun _ => ?_
    · exact Contract.bind (Q := fun _ => True) (calm_key fun _ => calm_modify) fun _ _ =>
        calm_modify.bind fun _ _ => (calm_sendMessage _ m).bind fun _ _ =>
          (calm_orNullPointer _).bind fun c _ => calm_builder.bind fun b _ => calm_deliverMessage _
    · exact calm_modify.bind fun _ _ => (calm_sendMessage _ m).bind fun _ _ => calm_modify

theorem calm_processOutgoingWith {process : Message → Conn Unit}
    (hp : m.type = some .GROUP_CONNECTOR_MESSAGE → ∀ m', m'.type = some .MESSAGE → Calm (process m')) :
    Calm (processOutgoingWith C process m) := by
  have hget : Contract (fun _ => True) (getContent m) (fun c => m.content = some c)
      (fun e => e.isError = false) := by
    rw [getContent]
    cases m.content with
    | none => exact .fail rfl
    | some c => exact .pure rfl
  refine hget.bind fun c hc => ?_
  split
  · exact calm_reply m
  · exact calm_close m
  · next htype =>
    refine (calm_getData _ _).bind fun data _ => (calm_orNullPointer _).bind fun d _ =>
      (calm_orNullPointer _).bind fun users _ => .forEach fun u _ => (calm_orNullPointer _).bind
        fun c _ => calm_builder.bind fun b _ => (calm_orNullPointer _).bind fun t _ => hp ?_ _ rfl
    rw [MessageOf.type, hc]
    exact htype
  · exact calm_default m

/-- A group message is sent on as messages that make no further calls. -/
theorem calm_processOutgoingMessage (m : Message) : Calm (processOutgoingMessage C m) :=
  calm_processOutgoingWith fun _ _ ht' => calm_processOutgoingWith fun ht =>
    absurd (ht'.symm.trans ht) (by decide)

/-! ### Messages without a content -/

omit [JavaChar] in
/-- A report on a message is sent without looking into the message. -/
theorem deliverStateChangedMessage_returns (m : Message) (st : MessageState) (s : State) :
    ((PostOffice.deliverStateChangedMessage C m st).run s).1 = .ok () := rfl

theorem onMessageArrived_returns {c : MessageContent} (hc : m.content = some c) (s : State) :
    ((PostOffice.onMessageArrived C m).run s).1 = .ok () := by
  have hthrows := (calm_processOutgoingMessage (C := C) m).throws s trivial
  rw [PostOffice.onMessageArrived]
  rcases hrun : (processOutgoingMessage C m).run s with ⟨e | _, s'⟩
  · have he : e.isError = false := hthrows e (by rw [hrun])
    have hcontent : (getContent m).run s' = (.ok c, s') := by rw [getContent, hc]; rfl
    rw [run_recoverIf_error hrun (by rw [he]; rfl), run_bind_ok hcontent]
    split
    · exact deliverStateChangedMessage_returns m _ s'
    · rfl
  · rw [run_recoverIf_ok hrun]

/-- Without a content there is no processor for a message, and no feature to look up. -/
theorem onMessageArrived_throws (hc : m.content = none) (s : State) :
    (PostOffice.onMessageArrived C m).run s = (.error .nullPointer, s) := by
  have hcontent : (getContent m).run s = (.error .nullPointer, s) := by rw [getContent, hc]; rfl
  have hprocess : (processOutgoingMessage C m).run s = (.error .nullPointer, s) := by
    rw [processOutgoingMessage, processOutgoingWith, run_bind_error hcontent]
  rw [PostOffice.onMessageArrived, run_recoverIf_error hprocess rfl]
  exact run_bind_error hcontent

theorem onBytesArrived_returns_iff :
    (∀ s, ((PostOffice.onBytesArrived C deserialize bytes).run s).1 = .ok ()) ↔
      (∀ e, deserialize bytes = .error e → e.isError = false) ∧
        ∀ m, deserialize bytes = .ok m → m.content ≠ none := by
  rcases hread : deserialize bytes with e | m
  · have hfail : ∀ s, (Exec.fail e : Conn Unit).run s = (.error e, s) := fun _ => rfl
    have hiff : (∀ s, ((PostOffice.onBytesArrived C deserialize bytes).run s).1 = .ok ()) ↔
        e.isError = false := by
      rw [PostOffice.onBytesArrived, hread]
      by_cases he : e.isError = true
      · refine iff_of_false (fun h => ?_) (by simp [he])
        have hreturns := h {}
        rw [run_recoverIf_of_not (hfail {}) (by rw [he]; rfl)] at hreturns
        cases hreturns
      · refine iff_of_true (fun s => ?_) (by simpa using he)
        rw [run_recoverIf_error (hfail s) (by simpa using he)]
        rfl
    rw [hiff]
    simp
  · have hiff : (∀ s, ((PostOffice.onBytesArrived C deserialize bytes).run s).1 = .ok ()) ↔
        m.content ≠ none := by
      rw [PostOffice.onBytesArrived, hread]
      refine ⟨fun h hc => ?_, fun hc s => ?_⟩
      · have hreturns := h {}
        simp only [onMessageArrived_throws hc] at hreturns
        cases hreturns
      · obtain ⟨c, hc⟩ := Option.ne_none_iff_exists'.1 hc
        exact onMessageArrived_returns hc s
    rw [hiff]
    simp

end Connector

/-- **The consumers of a domain survive** what is on the topics of its processors and of its
connectors exactly if the codec can read the bytes on the stack it has, no message to the processors
nests deeper than there is room on the stack, and the connectors get no message without a content. -/
theorem consumers_survive_iff (E : Processor.Environment) (C : Connector.Config) (room : ℕ)
    (deserialize : Bytes → Except JavaException Message) (toProcessors toConnectors : Bytes → Prop) :
    (Survives (Processor.PostOffice.onBytesArrived E room deserialize) toProcessors ∧
      Survives (Connector.PostOffice.onBytesArrived C deserialize) toConnectors) ↔
      (∀ bytes, toProcessors bytes ∨ toConnectors bytes →
        ∀ e, deserialize bytes = .error e → e.isError = false) ∧
      (∀ bytes, toProcessors bytes → ∀ m, deserialize bytes = .ok m → ¬ Processor.Nests E room m) ∧
      ∀ bytes, toConnectors bytes → ∀ m, deserialize bytes = .ok m → m.content ≠ none := by
  rw [survives_iff, survives_iff]
  constructor
  · rintro ⟨hp, hc⟩
    have hp' := fun bytes h => Processor.onBytesArrived_returns_iff.1 (hp bytes h)
    have hc' := fun bytes h => Connector.onBytesArrived_returns_iff.1 (hc bytes h)
    exact ⟨fun bytes h => h.elim (fun h => (hp' bytes h).1) fun h => (hc' bytes h).1,
      fun bytes h => (hp' bytes h).2, fun bytes h => (hc' bytes h).2⟩
  · rintro ⟨herror, hnests, hcontent⟩
    exact ⟨fun bytes h =>
        Processor.onBytesArrived_returns_iff.2 ⟨herror bytes (.inl h), hnests bytes h⟩,
      fun bytes h =>
        Connector.onBytesArrived_returns_iff.2 ⟨herror bytes (.inr h), hcontent bytes h⟩⟩

end

/-! ### An empty object -/

section

attribute [local instance] JavaChar.ascii

namespace SampleTopic

def config : Connector.Config where
  domainName := "domain-01"
  connectorName := "connector-01"
  uuid n := "connector-01-message-" ++ toString n
  now n := n

/-- The bytes of an empty JSON object. -/
def emptyObject : Bytes := [123, 125]

/-- `JsonCodec.deserialize`, where the object has no properties: what the constructor of `Message`
sets stays. -/
def deserialize (bytes : Bytes) : Except JavaException Message :=
  if bytes = emptyObject then .ok (newMessage "1" 1) else .error .illegalArgument

end SampleTopic

open SampleTopic

/-- An empty object on the topic of a connector ends its consumer. -/
theorem not_survives_emptyObject :
    ¬ Survives (Connector.PostOffice.onBytesArrived config deserialize) (· = emptyObject) := by
  intro h
  have hreturns := survives_iff.1 h emptyObject rfl
  exact (Connector.onBytesArrived_returns_iff.1 hreturns).2 (newMessage "1" 1) (if_pos rfl) rfl

end

end Linker
