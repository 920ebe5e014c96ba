import Linker.Common.Text

/-!
# Messages

The data model that connectors, processors and tunnels share: `Message` with its content, metadata
and addresses, and the payload classes of the message types.

A reference of the source that may be null is an `Option`.  A payload (`Object data` in the source) is
a value of `Data`: a payload object, or the JSON of a client, which is represented by the object that
the handler of its message type reads from it (`Data.unreadable` where that handler rejects it).  A
message nests in a payload (`Data.message`, `Data.messageStateChanged`), so `Data` is recursive.

* `Data.convert` : `Utils.convert` to the class of a handler.
* `MessageMeta.touch`, `MessageMeta.isAlive` : the TTL of `MessageUtils`.
* `newMessage` : `new Message()`.
-/

namespace Linker

/-- The exceptions that the services throw or run into. -/
inductive JavaException where
  | nullPointer
  | illegalArgument
  | numberFormat
  | illegalState (text : String)
  | processMessage (text : String)
  | stackOverflow
  deriving DecidableEq, Repr

/-- Whether it is an `Error`, which `catch (Exception e)` does not catch. -/
def JavaException.isError : JavaException → Bool
  | .stackOverflow => true
  | _ => false

inductive MessageType where
  | ANY | GENERAL_ERROR | AUTH_REQUIRED
  | USER_CONNECTED | USER_DISCONNECTED
  | AUTH_CLIENT | AUTH_CLIENT_REPLY
  | INVALID_MESSAGE | MESSAGE | MESSAGE_CONFIRMATION | GROUP_MESSAGE | GROUP_CONNECTOR_MESSAGE
  | MESSAGE_STATE_CHANGED | DELIVER_FAILED
  | INTERNAL_MESSAGE
  | FETCH_MISSING_MESSAGES_REQUEST | FETCH_MISSING_MESSAGES_COMPLETE
  | CLOSE_CONNECTION
  deriving DecidableEq, Repr

/-- `MessageType.name`. -/
def MessageType.name : MessageType → String
  | .ANY => "ANY"
  | .GENERAL_ERROR => "GENERAL_ERROR"
  | .AUTH_REQUIRED => "AUTH_REQUIRED"
  | .USER_CONNECTED => "USER_CONNECTED"
  | .USER_DISCONNECTED => "USER_DISCONNECTED"
  | .AUTH_CLIENT => "AUTH_CLIENT"
  | .AUTH_CLIENT_REPLY => "AUTH_CLIENT_REPLY"
  | .INVALID_MESSAGE => "INVALID_MESSAGE"
  | .MESSAGE => "MESSAGE"
  | .MESSAGE_CONFIRMATION => "MESSAGE_CONFIRMATION"
  | .GROUP_MESSAGE => "GROUP_MESSAGE"
  | .GROUP_CONNECTOR_MESSAGE => "GROUP_CONNECTOR_MESSAGE"
  | .MESSAGE_STATE_CHANGED => "MESSAGE_STATE_CHANGED"
  | .DELIVER_FAILED => "DELIVER_FAILED"
  | .INTERNAL_MESSAGE => "INTERNAL_MESSAGE"
  | .FETCH_MISSING_MESSAGES_REQUEST => "FETCH_MISSING_MESSAGES_REQUEST"
  | .FETCH_MISSING_MESSAGES_COMPLETE => "FETCH_MISSING_MESSAGES_COMPLETE"
  | .CLOSE_CONNECTION => "CLOSE_CONNECTION"

inductive MessageState where
  | CREATED | ADDRESS_NOT_FOUND | NETWORK_ERROR | PROCESSED | PROCESSOR_ERROR | CONNECTOR_ERROR
  deriving DecidableEq, Repr

inductive MessageFeature where
  | FAST | RELIABLE
  deriving DecidableEq, Repr

inductive DeliveryType where
  | ANY | ALL
  deriving DecidableEq, Repr

inductive ExpressDeliveryType where
  | KAFKA | NATS
  deriving DecidableEq, Repr

namespace Keywords

def SYSTEM : String := "SYSTEM"
def CONNECTOR : String := "Connector"
def PROCESSOR : String := "Processor"

end Keywords

/-- Where a socket is: its domain, its connector and its number there. -/
structure Address where
  domainName : Option String
  connectorName : Option String := none
  socketId : Option ℤ := some (-1)
  deriving DecidableEq, Repr

structure MessageMeta where
  originalAddress : Option Address := none
  targetAddress : Option Address := none
  note : Option String := none
  ttl : Option ℤ := some 10
  confirmEnabled : Bool := false
  deliveryType : Option DeliveryType := some .ALL
  deriving DecidableEq, Repr

/-- `int` arithmetic wraps around at 32 bits. -/
def wrap32 (n : ℤ) : ℤ := n.bmod (2 ^ 32)

namespace MessageMeta

/-- `MessageUtils.isMessageAlive`. -/
def isAlive (m : MessageMeta) : Bool := 0 < m.ttl.getD 10

/-- `MessageUtils.touchMessage`. -/
def touch (m : MessageMeta) : MessageMeta := { m with ttl := some (wrap32 (m.ttl.getD 10 - 1)) }

end MessageMeta

/-- The content of a message with payloads in `D`. -/
structure MessageContentOf (D : Type) where
  type : Option MessageType
  data : D
  reference : Option String := none
  feature : Option MessageFeature := some .RELIABLE
  confirmationEnabled : Option Bool := some true

/-- A message with payloads in `D`. -/
structure MessageOf (D : Type) where
  id : Option String
  version : Option String
  content : Option (MessageContentOf D)
  from_ : Option String
  to_ : Option String
  meta_ : Option MessageMeta
  createdAt : ℤ
  state : Option MessageState

/-! ### Payloads -/

structure MessageRequest where
  to_ : Option String
  content : Option String
  deriving DecidableEq, Repr

structure MessageForward where
  from_ : Option String
  content : Option String
  deriving DecidableEq, Repr

structure GroupMessage where
  to_ : Option (List (Option String))
  content : Option String
  deriving DecidableEq, Repr

structure ConnectorUserId where
  userId : Option String
  socketId : Option ℤ
  deriving DecidableEq, Repr

structure GroupConnectorMessage where
  connectorUserIds : Option (List ConnectorUserId)
  content : Option MessageForward
  deriving DecidableEq, Repr

structure AuthClient where
  appId : Option String
  userId : Option String
  token : Option String
  deriving DecidableEq, Repr

structure AuthClientReply where
  appId : Option String
  userId : Option String
  isAuthenticated : Option Bool
  deriving DecidableEq, Repr

/-- The payloads of messages. -/
inductive Data where
  | null
  /-- A value that the handler of its message type cannot read. -/
  | unreadable
  /-- `EmptyMessage`. -/
  | empty
  | messageRequest (d : MessageRequest)
  | messageForward (d : MessageForward)
  | messageConfirmation (reference : Option String)
  | groupMessage (d : GroupMessage)
  | groupConnectorMessage (d : GroupConnectorMessage)
  | authClient (d : AuthClient)
  | authClientReply (d : AuthClientReply)
  | userConnected (userId : Option String)
  | userDisconnected (userId : Option String)
  | closeConnection (userId : Option String)
  | fetchMissingMessagesRequest (count : Option ℤ)
  | fetchMissingMessagesComplete (leftMissingCount : Option ℤ)
  | messageStateChanged (message : Option (MessageOf Data)) (state : Option MessageState)
  | message (m : MessageOf Data)

abbrev Message := MessageOf Data

abbrev MessageContent := MessageContentOf Data

/-- A content as it is written to a socket. -/
structure MessageContentOutput where
  type : Option MessageType
  data : Data
  reference : Option String := none

namespace Data

/-- `Utils.convert` to a handler class that reads what `view` accepts; null stays null. -/
def convert {α : Type} (view : Data → Option α) : Data → Except JavaException (Option α)
  | .null => .ok none
  | d => match view d with
    | some a => .ok (some a)
    | none => .error .illegalArgument

def messageRequest? : Data → Option MessageRequest
  | .messageRequest d => some d
  | _ => none

def messageForward? : Data → Option MessageForward
  | .messageForward d => some d
  | _ => none

def messageConfirmation? : Data → Option (Option String)
  | .messageConfirmation r => some r
  | _ => none

def groupMessage? : Data → Option GroupMessage
  | .groupMessage d => some d
  | _ => none

def groupConnectorMessage? : Data → Option GroupConnectorMessage
  | .groupConnectorMessage d => some d
  | _ => none

def authClient? : Data → Option AuthClient
  | .authClient d => some d
  | _ => none

def authClientReply? : Data → Option AuthClientReply
  | .authClientReply d => some d
  | _ => none

def userConnected? : Data → Option (Option String)
  | .userConnected u => some u
  | _ => none

def userDisconnected? : Data → Option (Option String)
  | .userDisconnected u => some u
  | _ => none

def closeConnection? : Data → Option (Option String)
  | .closeConnection u => some u
  | _ => none

def fetchMissingMessagesRequest? : Data → Option (Option ℤ)
  | .fetchMissingMessagesRequest n => some n
  | _ => none

def fetchMissingMessagesComplete? : Data → Option (Option ℤ)
  | .fetchMissingMessagesComplete n => some n
  | _ => none

def messageStateChanged? : Data → Option (Option Message × Option MessageState)
  | .messageStateChanged m s => some (m, s)
  | _ => none

def message? : Data → Option Message
  | .message m => some m
  | _ => none

def empty? : Data → Option Unit
  | .empty => some ()
  | _ => none

/-- A converted payload was the payload. -/
theorem convert_eq_some {α : Type} {view : Data → Option α} {d : Data} {a : α}
    (h : d.convert view = .ok (some a)) : view d = some a := by
  cases d
  case null => cases h
  all_goals
    simp only [convert] at h
    split at h
    · cases h; assumption
    · cases h

theorem eq_illegalArgument_of_convert {α : Type} {view : Data → Option α} {d : Data}
    {e : JavaException} (h : d.convert view = .error e) : e = .illegalArgument := by
  cases d
  case null => cases h
  all_goals
    simp only [convert] at h
    split at h
    · cases h
    · cases h; rfl

section

variable {x : Data}

@[simp] theorem messageRequest?_eq_some {d : MessageRequest} :
    x.messageRequest? = some d ↔ x = .messageRequest d := by
  cases x <;> simp [messageRequest?]

@[simp] theorem messageForward?_eq_some {d : MessageForward} :
    x.messageForward? = some d ↔ x = .messageForward d := by
  cases x <;> simp [messageForward?]

@[simp] theorem messageConfirmation?_eq_some {d : Option String} :
    x.messageConfirmation? = some d ↔ x = .messageConfirmation d := by
  cases x <;> simp [messageConfirmation?]

@[simp] theorem groupMessage?_eq_some {d : GroupMessage} :
    x.groupMessage? = some d ↔ x = .groupMessage d := by
  cases x <;> simp [groupMessage?]

@[simp] theorem groupConnectorMessage?_eq_some {d : GroupConnectorMessage} :
    x.groupConnectorMessage? = some d ↔ x = .groupConnectorMessage d := by
  cases x <;> simp [groupConnectorMessage?]

@[simp] theorem authClient?_eq_some {d : AuthClient} :
    x.authClient? = some d ↔ x = .authClient d := by
  cases x <;> simp [authClient?]

@[simp] theorem authClientReply?_eq_some {d : AuthClientReply} :
    x.authClientReply? = some d ↔ x = .authClientReply d := by
  cases x <;> simp [authClientReply?]

@[simp] theorem userConnected?_eq_some {u : Option String} :
    x.userConnected? = some u ↔ x = .userConnected u := by
  cases x <;> simp [userConnected?]

@[simp] theorem userDisconnected?_eq_some {u : Option String} :
    x.userDisconnected? = some u ↔ x = .userDisconnected u := by
  cases x <;> simp [userDisconnected?]

@[simp] theorem closeConnection?_eq_some {u : Option String} :
    x.closeConnection? = some u ↔ x = .closeConnection u := by
  cases x <;> simp [closeConnection?]

@[simp] theorem fetchMissingMessagesRequest?_eq_some {n : Option ℤ} :
    x.fetchMissingMessagesRequest? = some n ↔ x = .fetchMissingMessagesRequest n := by
  cases x <;> simp [fetchMissingMessagesRequest?]

@[simp] theorem message?_eq_some {m : Message} : x.message? = some m ↔ x = .message m := by
  cases x <;> simp [message?]

@[simp] theorem messageStateChanged?_eq_some {m : Option Message} {s : Option MessageState} :
    x.messageStateChanged? = some (m, s) ↔ x = .messageStateChanged m s := by
  cases x <;> simp [messageStateChanged?]

end

/-- How deep internal messages nest in a payload. -/
def nesting : Data → ℕ
  | .message ⟨_, _, some ⟨_, d, _, _, _⟩, _, _, _, _, _⟩ => d.nesting + 1
  | _ => 0

end Data

/-! ### Messages -/

/-- `new Message()`: the identifier and the time are drawn at construction. -/
def newMessage (id : String) (now : ℤ) : Message where
  id := some id
  version := some "0.1.0"
  content := none
  from_ := none
  to_ := none
  meta_ := none
  createdAt := now
  state := some .CREATED

/-- `MessageUtils.createMessageContent`. -/
def createMessageContent (type : MessageType) (data : Data) (feature : Option MessageFeature)
    (reference : Option String := none) : MessageContent :=
  { type := some type, data, reference, feature, confirmationEnabled := some true }

namespace MessageOf

/-- The type of a message, `none` where it has no content or no type. -/
def type (m : Message) : Option MessageType := m.content.bind (·.type)

/-- The payload of a message, null where it has no content. -/
def data (m : Message) : Data := (m.content.map (·.data)).getD .null

def feature (m : Message) : Option MessageFeature := m.content.bind (·.feature)

def originalAddress (m : Message) : Option Address := m.meta_.bind (·.originalAddress)

def targetAddress (m : Message) : Option Address := m.meta_.bind (·.targetAddress)

def note (m : Message) : Option String := m.meta_.bind (·.note)

def setTo (m : Message) (u : Option String) : Message := { m with to_ := u }

def setState (m : Message) (s : Option MessageState) : Message := { m with state := s }

def updateMeta (m : Message) (f : MessageMeta → MessageMeta) : Message :=
  { m with meta_ := m.meta_.map f }

def updateContent (m : Message) (f : MessageContent → MessageContent) : Message :=
  { m with content := m.content.map f }

def setTargetAddress (m : Message) (a : Option Address) : Message :=
  m.updateMeta fun t => { t with targetAddress := a }

def setDeliveryType (m : Message) (d : DeliveryType) : Message :=
  m.updateMeta fun t => { t with deliveryType := some d }

def setData (m : Message) (d : Data) : Message := m.updateContent fun c => { c with data := d }

def touch (m : Message) : Message := m.updateMeta MessageMeta.touch

/-- `Message.toString`. -/
def print (m : Message) : String :=
  let typeName := match m.content with
    | some c => orNull (c.type.map MessageType.name)
    | none => "unknown"
  "[id=" ++ orNull m.id ++ ", type=" ++ typeName ++ ", from=" ++ orNull m.from_ ++
    ", to=" ++ orNull m.to_ ++ "], createdAt=" ++ toString m.createdAt

/-- How many calls of `process` a message can nest, by its payload alone. -/
def nesting (m : Message) : ℕ := m.data.nesting

section

variable (m : Message)

@[simp] theorem setTo_to (u : Option String) : (m.setTo u).to_ = u := rfl
@[simp] theorem setTo_from (u : Option String) : (m.setTo u).from_ = m.from_ := rfl
@[simp] theorem setTo_content (u : Option String) : (m.setTo u).content = m.content := rfl
@[simp] theorem setTo_meta (u : Option String) : (m.setTo u).meta_ = m.meta_ := rfl
@[simp] theorem setTo_id (u : Option String) : (m.setTo u).id = m.id := rfl
@[simp] theorem setTo_type (u : Option String) : (m.setTo u).type = m.type := rfl
@[simp] theorem setTo_data (u : Option String) : (m.setTo u).data = m.data := rfl
@[simp] theorem setTo_feature (u : Option String) : (m.setTo u).feature = m.feature := rfl
@[simp] theorem setTo_state (u : Option String) : (m.setTo u).state = m.state := rfl
@[simp] theorem setTo_originalAddress (u : Option String) :
    (m.setTo u).originalAddress = m.originalAddress := rfl
@[simp] theorem setTo_targetAddress (u : Option String) :
    (m.setTo u).targetAddress = m.targetAddress := rfl

@[simp] theorem setState_to (s : Option MessageState) : (m.setState s).to_ = m.to_ := rfl
@[simp] theorem setState_from (s : Option MessageState) : (m.setState s).from_ = m.from_ := rfl
@[simp] theorem setState_content (s : Option MessageState) : (m.setState s).content = m.content := rfl
@[simp] theorem setState_meta (s : Option MessageState) : (m.setState s).meta_ = m.meta_ := rfl
@[simp] theorem setState_id (s : Option MessageState) : (m.setState s).id = m.id := rfl
@[simp] theorem setState_type (s : Option MessageState) : (m.setState s).type = m.type := rfl
@[simp] theorem setState_data (s : Option MessageState) : (m.setState s).data = m.data := rfl
@[simp] theorem setState_feature (s : Option MessageState) : (m.setState s).feature = m.feature := rfl
@[simp] theorem setState_state (s : Option MessageState) : (m.setState s).state = s := rfl
@[simp] theorem setState_originalAddress (s : Option MessageState) :
    (m.setState s).originalAddress = m.originalAddress := rfl
@[simp] theorem setState_targetAddress (s : Option MessageState) :
    (m.setState s).targetAddress = m.targetAddress := rfl

variable (f : MessageMeta → MessageMeta)

@[simp] theorem updateMeta_to : (m.updateMeta f).to_ = m.to_ := rfl
@[simp] theorem updateMeta_from : (m.updateMeta f).from_ = m.from_ := rfl
@[simp] theorem updateMeta_content : (m.updateMeta f).content = m.content := rfl
@[simp] theorem updateMeta_id : (m.updateMeta f).id = m.id := rfl
@[simp] theorem updateMeta_type : (m.updateMeta f).type = m.type := rfl
@[simp] theorem updateMeta_data : (m.updateMeta f).data = m.data := rfl
@[simp] theorem updateMeta_feature : (m.updateMeta f).feature = m.feature := rfl
@[simp] theorem updateMeta_state : (m.updateMeta f).state = m.state := rfl
@[simp] theorem updateMeta_meta : (m.updateMeta f).meta_ = m.meta_.map f := rfl

end

/-! ### Letters -/

/-- Two messages with the same letter: sender, recipient, content, origin and note.  What differs is
how far the message has got: its state, its target, its delivery type, its TTL. -/
structure SameLetter (m m' : Message) : Prop where
  from_ : m'.from_ = m.from_
  to_ : m'.to_ = m.to_
  content : m'.content = m.content
  originalAddress : m'.originalAddress = m.originalAddress
  note : m'.note = m.note

namespace SameLetter

theorem refl (m : Message) : SameLetter m m := ⟨rfl, rfl, rfl, rfl, rfl⟩

theorem trans {m₁ m₂ m₃ : Message} (h : SameLetter m₁ m₂) (h' : SameLetter m₂ m₃) :
    SameLetter m₁ m₃ :=
  ⟨h'.from_.trans h.from_, h'.to_.trans h.to_, h'.content.trans h.content,
    h'.originalAddress.trans h.originalAddress, h'.note.trans h.note⟩

theorem setState (m : Message) (s : Option MessageState) : SameLetter m (m.setState s) :=
  ⟨rfl, rfl, rfl, rfl, rfl⟩

theorem updateMeta (m : Message) {f : MessageMeta → MessageMeta}
    (h : ∀ t, (f t).originalAddress = t.originalAddress ∧ (f t).note = t.note) :
    SameLetter m (m.updateMeta f) where
  from_ := rfl
  to_ := rfl
  content := rfl
  originalAddress := by
    simp only [MessageOf.originalAddress, updateMeta_meta]
    cases m.meta_ with
    | none => rfl
    | some t => exact (h t).1
  note := by
    simp only [MessageOf.note, updateMeta_meta]
    cases m.meta_ with
    | none => rfl
    | some t => exact (h t).2

theorem setTargetAddress (m : Message) (a : Option Address) :
    SameLetter m (m.setTargetAddress a) := updateMeta m fun _ => ⟨rfl, rfl⟩

theorem setDeliveryType (m : Message) (d : DeliveryType) :
    SameLetter m (m.setDeliveryType d) := updateMeta m fun _ => ⟨rfl, rfl⟩

theorem touch (m : Message) : SameLetter m m.touch := updateMeta m fun _ => ⟨rfl, rfl⟩

variable {m m' : Message}

theorem type (h : SameLetter m m') : m'.type = m.type := by
  rw [MessageOf.type, h.content, MessageOf.type]

theorem data (h : SameLetter m m') : m'.data = m.data := by
  rw [MessageOf.data, h.content, MessageOf.data]

theorem feature (h : SameLetter m m') : m'.feature = m.feature := by
  rw [MessageOf.feature, h.content, MessageOf.feature]

end SameLetter

end MessageOf

end Linker
