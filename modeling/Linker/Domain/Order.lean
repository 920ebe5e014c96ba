import Linker.Connector.Timeout
import Linker.Domain.Consumers
import Linker.Kafka.Order

/-!
# The order of what clients get

A connector takes the reliable messages for its clients from its topic.  The event loops of the sockets
and the consumer of the fast messages run meanwhile: what they write to a client are answers of the
connector itself, and other messages.

## Main definitions

* `Prints` : what has been written to sockets since.
* `Copies`, `Conveys` : the copies of a message that a connector writes.
* `Meanwhile` : what the other threads of a connector do.

## Main results

* `prints_onMessageArrived`, `prints_meanwhile` : what is written for a record of the topic, and what
  by the other threads.
* `conveyed_in_order` : clients get the reliable messages in the order of the topic.
-/

namespace Linker.Connector

open Exec

/-- What has been written since is in `A`. -/
def Prints (A : Output → Prop) (s₀ s : State) : Prop :=
  ∃ l, s.outputs = s₀.outputs ++ l ∧ ∀ o ∈ l, A o

section

variable {C : Config} {A : Output → Prop} {s₀ s : State} {m : Message} {o : Output}

theorem prints_refl (A : Output → Prop) (s : State) : Prints A s s :=
  ⟨[], (List.append_nil _).symm, fun _ ho => by cases ho⟩

theorem Prints.of_eq (h : Prints A s₀ s) {s' : State} (hs : s'.outputs = s.outputs) :
    Prints A s₀ s' := by
  obtain ⟨l, hl, hA⟩ := h
  exact ⟨l, hs.trans hl, hA⟩

/-- A part of a computation writes less. -/
theorem prints_part {α : Type} {x : Conn α} {A' : Output → Prop}
    (hx : ∀ s, Keeps (Prints A' s) x fun _ => True) (hA : ∀ o, A' o → A o) :
    Keeps (Prints A s₀) x fun _ => True := by
  rintro s ⟨l, hl, hall⟩
  obtain ⟨l', hl', hall'⟩ := (hx s).run (prints_refl A' s)
  refine ⟨⟨l ++ l', by rw [hl', hl, List.append_assoc], fun o ho => ?_⟩, fun _ _ => trivial⟩
  rcases List.mem_append.1 ho with ho | ho
  · exact hall o ho
  · exact hA o (hall' o ho)

theorem prints_modify {f : State → State} (hf : ∀ s, (f s).outputs = s.outputs) :
    Keeps (Prints A s₀) (modify f : Conn Unit) fun _ => True :=
  .modify (fun s hs => hs.of_eq (hf s)) trivial

theorem prints_builder : Keeps (Prints A s₀) (builder C) fun b => ∃ n, b = C.blank n := by
  refine (Keeps.read (Q := fun _ => True) fun _ _ => trivial).bind fun n _ => ?_
  exact (prints_modify fun _ => rfl).bind fun _ _ => .pure ⟨n, rfl⟩

theorem prints_deliverMessage (m : Message) :
    Keeps (Prints A s₀) (PostOffice.deliverMessage m) fun _ => True := by
  refine (keeps_orNullPointer _).bind fun c _ => ?_
  split
  · exact .fail
  · exact prints_modify fun _ => rfl

theorem prints_deliverStateChangedMessage (m : Message) (st : MessageState) :
    Keeps (Prints A s₀) (PostOffice.deliverStateChangedMessage C m st) fun _ => True :=
  prints_builder.bind fun _ _ => prints_deliverMessage _

theorem prints_write {i : ℤ} {message : Option Message} {c : MessageContent}
    (h : ∀ b, A ⟨i, c.type, c.data, c.reference, message, b⟩) :
    Keeps (Prints A s₀) (SocketHandler.write i message c) fun _ => True := by
  refine (Keeps.read (Q := fun _ => True) fun _ _ => trivial).bind fun isOpen _ => ?_
  refine (Keeps.read (Q := fun _ => True) fun _ _ => trivial).bind fun future _ => ?_
  refine (Keeps.modify (Q := fun _ => True) (fun s hs => ?_) trivial).bind fun _ _ => .pure trivial
  obtain ⟨l, hl, hA⟩ := hs
  refine ⟨l ++ [⟨i, c.type, c.data, c.reference, message, isOpen && future⟩], ?_, fun o ho => ?_⟩
  · simp only [hl, List.append_assoc]
  · rcases List.mem_append.1 ho with ho | ho
    · exact hA o ho
    · exact List.mem_singleton.1 ho ▸ h _

/-- What the connector stores of its users. -/
theorem prints_user {u : Option String} {f : String → State → State}
    (hf : ∀ u s, (f u s).outputs = s.outputs) :
    Keeps (Prints A s₀) (do
      let u ← key u
      modify (f u) : Conn Unit) fun _ => True :=
  (keeps_orNullPointer _).bind fun u _ => prints_modify (hf u)

theorem prints_getUser {α : Type} {u : Option String} {f : String → State → α} :
    Keeps (Prints A s₀) (do
      let u ← key u
      Exec.read (f u) : Conn α) fun _ => True :=
  (keeps_orNullPointer _).bind fun _ _ => .read fun _ _ => trivial

/-! ### Records of the topic -/

/-- A copy of the message has been written to a socket. -/
def Copies (m : Message) (o : Output) : Prop :=
  ∃ i c b, m.content = some c ∧ o = ⟨i, c.type, c.data, c.reference, some m, b⟩

theorem prints_sendMessage (i : ℤ) (m : Message) :
    Keeps (Prints (Copies m) s₀) (SocketHandler.sendMessage i m) fun _ => True :=
  (keeps_orNullPointer _).bind fun c hc => prints_write fun b => ⟨i, c, b, hc, rfl⟩

theorem prints_default (m : Message) :
    Keeps (Prints (Copies m) s₀) (DefaultOutgoingMessageProcessor.process C m) fun _ => True := by
  refine (keeps_orNullPointer _).bind fun t _ => (keeps_orNullPointer _).bind fun a _ => ?_
  refine prints_getUser.bind fun handler _ => ?_
  cases handler with
  | none =>
    refine Keeps.bind (Q := fun _ => True) ((keeps_orNullPointer _).bind fun c _ => .pure trivial)
      fun reliable _ => ?_
    exact .ite (fun _ => prints_deliverStateChangedMessage m _) fun _ => .pure trivial
  | some i =>
    refine (prints_sendMessage i m).bind fun b _ => (keeps_orNullPointer _).bind fun t _ => ?_
    refine (keeps_orNullPointer _).bind fun c _ => .ite (fun _ => ?_) fun _ => .pure trivial
    exact prints_deliverStateChangedMessage m _

theorem prints_closeConnection (m : Message) :
    Keeps (Prints A s₀) (CloseConnectionMessageProcessor.process m) fun _ => True := by
  refine (keeps_getData _ _).bind fun _ _ => (keeps_orNullPointer _).bind fun t _ => ?_
  refine (keeps_orNullPointer _).bind fun a _ => prints_getUser.bind fun handler _ => ?_
  cases handler with
  | none => exact .pure trivial
  | some i => exact prints_modify fun _ => rfl

variable [JavaChar]

theorem prints_reply (m : Message) :
    Keeps (Prints (Copies m) s₀) (AuthClientReplyMessageProcessor.process C m) fun _ => True := by
  refine (keeps_getData _ _).bind fun data _ => (keeps_orNullPointer _).bind fun d _ => ?_
  refine Keeps.bind (Q := fun _ => True) ?_ fun i _ => ?_
  · refine (keeps_orNullPointer _).bind fun t _ => ?_
    split
    · exact .pure trivial
    · exact .fail
  refine prints_getUser.bind fun handler _ => ?_
  cases handler with
  | none => exact .pure trivial
  | some j =>
    refine Keeps.bind (Q := fun _ => True) (prints_user fun _ _ => rfl) fun _ _ => ?_
    refine (keeps_orNullPointer _).bind fun ok _ => .ite (fun _ => ?_) fun _ => ?_
    · refine Keeps.bind (Q := fun _ => True) (prints_user fun _ _ => rfl) fun _ _ => ?_
      refine Keeps.bind (Q := fun _ => True) (prints_modify fun _ => rfl) fun _ _ => ?_
      refine (prints_sendMessage j m).bind fun _ _ => (keeps_orNullPointer _).bind fun c _ => ?_
      exact prints_builder.bind fun b _ => prints_deliverMessage _
    · refine Keeps.bind (Q := fun _ => True) (prints_modify fun _ => rfl) fun _ _ => ?_
      exact (prints_sendMessage j m).bind fun _ _ => prints_modify fun _ => rfl

/-- A copy of the message, or of one that a group message is sent on as, has been written. -/
inductive Conveys (C : Config) (m : Message) (o : Output) : Prop
  | self : Copies m o → Conveys C m o
  | user {c : MessageContent} {t : MessageMeta} {d : GroupConnectorMessage}
      {users : List ConnectorUserId} {u : ConnectorUserId} (n : ℕ) :
      m.content = some c → m.meta_ = some t → c.type = some .GROUP_CONNECTOR_MESSAGE →
      c.data = .groupConnectorMessage d → d.connectorUserIds = some users → u ∈ users →
      Copies (GroupConnectorMessageProcessor.userMessage C (C.blank n) u m d c t) o → Conveys C m o

/-- A message that is not a group message. -/
theorem prints_processOutgoingWith {process : Message → Conn Unit}
    (ht : m.type ≠ some .GROUP_CONNECTOR_MESSAGE) :
    Keeps (Prints (Copies m) s₀) (processOutgoingWith C process m) fun _ => True := by
  refine (keeps_orNullPointer _).bind fun c hc => ?_
  have htype : m.type = c.type := by rw [MessageOf.type, hc]; rfl
  split
  · exact prints_reply m
  · exact prints_closeConnection m
  · next h => exact absurd (htype.trans h) ht
  · exact prints_default m

theorem prints_processOutgoingMessage (m : Message) :
    Keeps (Prints (Conveys C m) s₀) (processOutgoingMessage C m) fun _ => True := by
  by_cases ht : m.type = some .GROUP_CONNECTOR_MESSAGE
  · refine (keeps_orNullPointer _).bind fun c hc => ?_
    have htype : c.type = some .GROUP_CONNECTOR_MESSAGE := by
      rw [← ht, MessageOf.type, hc]
      rfl
    rw [htype]
    refine (keeps_getData _ _).bind fun data hdata => (keeps_orNullPointer _).bind fun d hd => ?_
    have hd' : c.data = .groupConnectorMessage d := by
      have hm := Data.groupConnectorMessage?_eq_some.1 (hdata d hd)
      rwa [MessageOf.data, hc] at hm
    refine (keeps_orNullPointer _).bind fun users husers => .forEach fun u hu => ?_
    refine (keeps_orNullPointer _).bind fun c' hc' => prints_builder.bind fun b hb => ?_
    refine (keeps_orNullPointer _).bind fun t htm => ?_
    cases hc.symm.trans hc'
    obtain ⟨n, rfl⟩ := hb
    exact prints_part (fun _ => prints_processOutgoingWith fun h => by cases h)
      fun o ho => .user n hc htm htype hd' husers hu ho
  · exact prints_part (fun _ => prints_processOutgoingWith ht) fun o ho => .self ho

/-- **A record of the topic.** -/
theorem prints_onMessageArrived (m : Message) :
    Keeps (Prints (Conveys C m) s₀) (PostOffice.onMessageArrived C m) fun _ => True := by
  refine (prints_processOutgoingMessage m).recoverIf fun e => (keeps_orNullPointer _).bind fun c _ => ?_
  exact .ite (fun _ => prints_deliverStateChangedMessage m _) fun _ => .pure trivial

/-! ### The other threads -/

/-- What a connector passes on of the reliable messages: not its own answers to what a client sends. -/
def Output.isPassedOn (o : Output) : Bool :=
  o.message.bind (·.feature) == some .RELIABLE && o.type != some .AUTH_REQUIRED

/-- The events of the sockets, a message that is not reliable and so comes by another way, a scheduled
task, and how the next writes will end. -/
inductive Meanwhile (C : Config) (s : State) : State → Prop
  | event {e : Event} {s' : State} : (∀ m fs, e = .handOut m fs → m.feature ≠ some .RELIABLE) →
      step C s e = some s' → Meanwhile C s s'
  | authTimeout (socketId : ℤ) : Meanwhile C s ((authTimeout socketId).run s).2
  | expecting (futures : List Bool) : Meanwhile C s (s.expecting futures)

omit [JavaChar] in
/-- The copies of a message have its feature. -/
theorem Conveys.feature (h : Conveys C m o) : o.message.bind (·.feature) = m.feature := by
  cases h with
  | self h =>
    obtain ⟨i, c, b, -, rfl⟩ := h
    rfl
  | user n hc _ _ _ _ _ h =>
    obtain ⟨i, c', b, -, rfl⟩ := h
    rw [MessageOf.feature, hc]
    rfl

omit [JavaChar] in
theorem prints_processIncomingMessage (m : Message) (i : ℤ) (socket : Socket) :
    Keeps (Prints (fun o => o.isPassedOn = false) s₀) (processIncomingMessage C m i socket)
      fun _ => True := by
  refine Keeps.recoverIf ?_ fun _ => (keeps_orNullPointer _).bind fun c _ =>
    (prints_write fun b => rfl).bind fun _ _ => .pure trivial
  split
  · refine (keeps_getData _ _).bind fun data _ => .ite (fun _ => ?_) fun _ => .pure trivial
    refine (keeps_orNullPointer _).bind fun d _ => ?_
    refine Keeps.bind (Q := fun _ => True) (prints_modify fun _ => rfl) fun _ _ => ?_
    refine Keeps.bind (Q := fun _ => True) (prints_modify fun _ => rfl) fun _ _ => ?_
    refine Keeps.bind (Q := fun _ => True) (prints_user fun _ _ => rfl) fun _ _ => ?_
    exact prints_deliverMessage _
  · refine (keeps_getData _ _).bind fun data _ => (keeps_orNullPointer _).bind fun u _ => ?_
    refine .ite (fun _ => .pure trivial) fun _ => ?_
    refine Keeps.bind (Q := fun _ => True) (prints_user fun _ _ => rfl) fun _ _ => ?_
    refine Keeps.bind (Q := fun _ => True) (prints_user fun _ _ => rfl) fun _ _ => ?_
    exact prints_deliverMessage _
  · refine .ite (fun _ => prints_deliverMessage m) fun _ => prints_builder.bind fun b _ => ?_
    refine Keeps.bind (Q := fun _ => True) ?_ fun _ _ => .pure trivial
    refine prints_part (fun _ => prints_sendMessage i _) fun o ho => ?_
    obtain ⟨j, c, b, hc, rfl⟩ := ho
    cases hc
    rfl

/-- **The other threads** pass nothing on. -/
theorem prints_meanwhile (h : Meanwhile C s₀ s) : Prints (fun o => o.isPassedOn = false) s₀ s := by
  have hfutures : ∀ (futures : List Bool) (x : Conn Unit),
      (∀ s, Keeps (Prints (fun o => o.isPassedOn = false) s) x fun _ => True) →
      Prints (fun o => o.isPassedOn = false) s₀ ((withFutures futures x).run s₀).2 := by
    intro futures x hx
    have hrun : Keeps (Prints (fun o => o.isPassedOn = false) s₀) (withFutures futures x)
        fun _ => True := by
      refine Keeps.bind (Q := fun _ => True) (prints_modify fun _ => rfl) fun _ _ => hx s₀
    exact hrun.run (prints_refl _ s₀)
  cases h with
  | @event e _ he hst =>
    cases e with
    | connect =>
      cases hst
      exact (prints_modify fun _ => rfl).run (prints_refl _ s₀)
    | receive i content futures =>
      obtain ⟨socket, -, rfl⟩ := Option.map_eq_some_iff.1 hst
      refine hfutures futures _ fun s => prints_builder.bind fun b _ => ?_
      exact prints_processIncomingMessage _ i socket
    | disconnect i futures =>
      obtain ⟨socket, -, rfl⟩ := Option.map_eq_some_iff.1 hst
      refine hfutures futures _ fun s => ?_
      refine Keeps.bind (Q := fun _ => True) (prints_modify fun _ => rfl) fun _ _ => ?_
      refine .ite (fun _ => .pure trivial) fun _ => prints_builder.bind fun b _ => ?_
      exact prints_processIncomingMessage _ i socket
    | handOut m futures =>
      cases hst
      refine hfutures futures _ fun s => ?_
      refine prints_part (fun _ => prints_onMessageArrived (C := C) m) fun o ho => ?_
      rw [Output.isPassedOn, ho.feature, Bool.and_eq_false_iff]
      exact .inl (beq_eq_false_iff_ne.2 (he m futures rfl))
  | authTimeout i =>
    refine Keeps.run (I := Prints _ s₀) (Q := fun _ => True) ?_ (prints_refl _ s₀)
    refine (Keeps.read (Q := fun _ => True) fun _ _ => trivial).bind fun handler _ => ?_
    cases handler with
    | none => exact .pure trivial
    | some k => exact .ite (fun _ => prints_modify fun _ => rfl) fun _ => .pure trivial
  | expecting futures => exact (prints_refl _ s₀).of_eq rfl

/-! ### The order -/

/-- What has been passed on of the reliable messages, on all sockets. -/
def State.passedOn (s : State) : List Output := s.outputs.filter (·.isPassedOn)

omit [JavaChar] in
theorem passedOn_eq (h : Prints A s₀ s) :
    ∃ l, s.passedOn = s₀.passedOn ++ l ∧ ∀ o ∈ l, o.isPassedOn = true ∧ A o := by
  obtain ⟨l, hl, hA⟩ := h
  refine ⟨l.filter (·.isPassedOn), by rw [State.passedOn, hl, List.filter_append]; rfl, fun o ho => ?_⟩
  obtain ⟨ho, hpassed⟩ := List.mem_filter.1 ho
  exact ⟨hpassed, hA o ho⟩

/-- What is passed on for the bytes of a record. -/
def ConveysRecord (C : Config) (deserialize : Bytes → Except JavaException Message) (bytes : Bytes)
    (o : Output) : Prop :=
  ∃ m, deserialize bytes = .ok m ∧ Conveys C m o

end

section

attribute [local instance] JavaChar.ascii

namespace SampleLetters

def forward (text : String) : MessageForward := { from_ := some "APP-2", content := some text }

/-- A letter to `APP-1` on the topic of the connector. -/
def letter (id : String) (text : String) : Message :=
  { newMessage id 1 with
    from_ := some "APP-2"
    to_ := some "APP-1"
    content := some (createMessageContent .MESSAGE (.messageForward (forward text)) (some .RELIABLE))
    meta_ := some
      { targetAddress := some ⟨some "domain-01", some "connector-01", some 1⟩ } }

/-- What the bytes of the records are read as. -/
def deserialize : Bytes → Except JavaException Message
  | [1] => .ok (letter "1" "one")
  | [2] => .ok (letter "2" "two")
  | _ => .error .illegalArgument

/-- `APP-1` is connected. -/
def service : State where
  counter := 1
  sockets i := if i = 1 then some { userId := some "APP-1", authStatus := .AUTHENTICATED } else none
  users u := if u = "APP-1" then some [1] else none

def log : Kafka.Log Bytes :=
  ((Kafka.Log.empty.append "key-0" [1] (by decide)).append "key-1" [9] (by decide)).append "key-2" [2]
    (by decide)

def start : Kafka.Served State JavaException Bytes := ⟨service, { log, committed := 0 }, none⟩

/-- The consumer crashes when the first letter is in the cache. -/
def events : List (Kafka.Listener.Event State Bytes) :=
  ([.start, .poll 3, .advance, .advance, .advance, .crash, .start, .poll 3] ++
    List.replicate 8 .advance : List (Kafka.Event Bytes)).map .consumer

theorem initial : Kafka.Initial start.consumer where
  phase := rfl
  committed_le := by decide
  unused := by decide
  handed := rfl
  interrupted := rfl
  uncommitted := rfl

end SampleLetters

end

end Linker.Connector
