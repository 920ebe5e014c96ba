import Linker.Connector.State

/-!
# The message processors of a connector

What a connector does with what its clients send (`incoming`) and with the records on its topic
(`outgoing`).  A message type without a processor of its own goes to the default one of its direction.

* `initChannel`, `channelRead0`, `handlerRemoved` : the events of a socket.
* `processOutgoingMessage`, `PostOffice.onMessageArrived` : a record of the connector's topic.
-/

namespace Linker.Connector

variable (C : Config)

/-! ### The post office -/

namespace PostOffice

/-- A switch over a null feature throws; the topic of the processors is the same for both kinds. -/
def deliverMessage (m : Message) : Conn Unit := do
  let c ← getContent m
  match c.feature with
  | none => .fail .nullPointer
  | some _ => .modify fun s => { s with published := s.published ++ [m] }

/-- The report on a message. -/
def stateChangedMessage (blank message : Message) (newState : MessageState) : Message :=
  { blank with
    from_ := some Keywords.SYSTEM
    to_ := some Keywords.PROCESSOR
    meta_ := some
      { originalAddress :=
          some { domainName := some C.domainName, connectorName := some C.connectorName } }
    content := some (createMessageContent .MESSAGE_STATE_CHANGED
      (.messageStateChanged (some message) (some newState)) (some .RELIABLE)) }

def deliverStateChangedMessage (message : Message) (newState : MessageState) : Conn Unit := do
  let blank ← builder C
  deliverMessage (stateChangedMessage C blank message newState)

end PostOffice

open PostOffice NetworkUserService

/-! ### Incoming messages -/

namespace AuthClientMessageProcessor

/-- The message that is published for an `AUTH_CLIENT`. -/
def request (m : Message) (userId : Option String) (socketId : ℤ) : Message :=
  ((({ m with from_ := userId } : Message).updateMeta
    fun t => { t with note := some (toString socketId) }).updateContent
    fun c => { c with feature := some .RELIABLE })

def process (m : Message) (socketId : ℤ) (socket : Socket) : Conn Unit := do
  let data ← getData Data.authClient? m
  if socket.authStatus = .NOT_AUTHENTICATED then do
    let data ← orNullPointer data
    SocketHandler.setUserId socketId data.userId
    SocketHandler.setAuthStatus socketId .AUTHENTICATING
    addPendingUser data.userId socketId
    deliverMessage (request m data.userId socketId)

end AuthClientMessageProcessor

namespace UserDisconnectedMessageProcessor

def process (m : Message) (socketId : ℤ) : Conn Unit := do
  let data ← getData Data.userDisconnected? m
  let userId ← orNullPointer data
  if isEmpty userId then pure ()
  else do
    removeUser userId socketId
    removePendingUser userId socketId
    deliverMessage m

end UserDisconnectedMessageProcessor

namespace DefaultIncomingMessageProcessor

def authRequired (blank : Message) : Message :=
  { blank with
    from_ := some Keywords.SYSTEM
    content := some (createMessageContent .AUTH_REQUIRED .empty (some .RELIABLE)) }

def process (m : Message) (socketId : ℤ) (socket : Socket) : Conn Unit :=
  if socket.authStatus = .AUTHENTICATED then deliverMessage m
  else do
    let blank ← builder C
    let _ ← SocketHandler.sendMessage socketId (authRequired blank)
    pure ()

end DefaultIncomingMessageProcessor

/-- `processIncomingMessage`: a processor that throws has the client told so. -/
def processIncomingMessage (m : Message) (socketId : ℤ) (socket : Socket) : Conn Unit :=
  let processor : Conn Unit := match m.type with
    | some .AUTH_CLIENT => AuthClientMessageProcessor.process m socketId socket
    | some .USER_DISCONNECTED => UserDisconnectedMessageProcessor.process m socketId
    | _ => DefaultIncomingMessageProcessor.process C m socketId socket
  Conn.catchException processor fun _ => do
    let c ← getContent m
    let _ ← SocketHandler.sendContent socketId { c with type := some .GENERAL_ERROR }
    pure ()

/-- The message that `AppSocketHandler.channelRead0` builds around what its client sends. -/
def clientMessage (blank : Message) (socketId : ℤ) (socket : Socket) (c : MessageContent) : Message :=
  { blank with
    content := some c
    from_ := socket.userId
    meta_ := some { originalAddress := some (C.address socketId) } }

/-- `AppSocketHandler.channelRead0`. -/
def channelRead0 (socketId : ℤ) (socket : Socket) (c : MessageContent) : Conn Unit := do
  let blank ← builder C
  processIncomingMessage C (clientMessage C blank socketId socket c) socketId socket

/-- The presence message of a socket that closes. -/
def disconnectedMessage (blank : Message) (socketId : ℤ) (socket : Socket) : Message :=
  { blank with
    content := some (createMessageContent .USER_DISCONNECTED (.userDisconnected socket.userId)
      (some .RELIABLE))
    from_ := some Keywords.SYSTEM
    to_ := some Keywords.PROCESSOR
    meta_ := some { originalAddress := some (C.address socketId) } }

/-- `AppSocketHandler.handlerRemoved`. -/
def handlerRemoved (socketId : ℤ) (socket : Socket) : Conn Unit := do
  SocketHandler.update socketId fun k => { k with isOpen := false }
  if socket.authStatus = .NOT_AUTHENTICATED then pure ()
  else do
    let blank ← builder C
    processIncomingMessage C (disconnectedMessage C blank socketId socket) socketId socket

/-- `SocketChannelInitializer.initChannel`: the next socket id is given to a new handler. -/
def initChannel : Conn Unit :=
  .modify fun s => { s with
    counter := s.counter + 1
    sockets := fun j => if j = s.counter + 1 then some {} else s.sockets j }

/-- What the handler of an open socket stores. -/
def State.openSocket (s : State) (socketId : ℤ) : Option Socket :=
  (s.sockets socketId).filter (·.isOpen)

/-- The state in which the next writes will end as given. -/
def State.expecting (futures : List Bool) (s : State) : State := { s with futures }

/-- A computation whose writes end as given. -/
def withFutures (futures : List Bool) (x : Conn Unit) : Conn Unit := do
  Exec.modify (State.expecting futures)
  x

/-! ### Outgoing messages -/

namespace AuthClientReplyMessageProcessor

variable [JavaChar]

/-- `Long.parseLong` of the note. -/
def socketIdOf (m : Message) : Conn ℤ := do
  let t ← getMeta m
  match t.note.bind parseLong with
  | some socketId => pure socketId
  | none => .fail .numberFormat

/-- The presence message of a socket that has been authenticated. -/
def userConnectedMessage (blank : Message) (userId : Option String) (socketId : ℤ)
    (feature : Option MessageFeature) : Message :=
  { blank with
    content := some (createMessageContent .USER_CONNECTED (.userConnected userId) feature)
    from_ := some Keywords.SYSTEM
    to_ := some Keywords.PROCESSOR
    meta_ := some { originalAddress := some (C.address socketId) } }

def process (m : Message) : Conn Unit := do
  let data ← getData Data.authClientReply? m
  let data ← orNullPointer data
  let userId := data.userId
  let socketId ← socketIdOf m
  let socketHandler ← getPendingUser userId (some socketId)
  match socketHandler with
  | none => pure ()
  | some handler => do
    removePendingUser userId socketId
    let isAuthenticated ← orNullPointer data.isAuthenticated
    if isAuthenticated then do
      addUser userId handler
      SocketHandler.setAuthStatus handler .AUTHENTICATED
      let _ ← SocketHandler.sendMessage handler m
      let c ← getContent m
      let blank ← builder C
      deliverMessage (userConnectedMessage C blank userId socketId c.feature)
    else do
      SocketHandler.setAuthStatus handler .NOT_AUTHENTICATED
      let _ ← SocketHandler.sendMessage handler m
      SocketHandler.close handler

end AuthClientReplyMessageProcessor

namespace CloseConnectionMessageProcessor

def process (m : Message) : Conn Unit := do
  let _ ← getData Data.empty? m
  let t ← getMeta m
  let targetAddress ← orNullPointer t.targetAddress
  let handler ← getUser m.to_ targetAddress.socketId
  match handler with
  | none => pure ()
  | some handler => SocketHandler.close handler

end CloseConnectionMessageProcessor

namespace DefaultOutgoingMessageProcessor

def isReliableMessage (m : Message) : Conn Bool := do
  let c ← getContent m
  pure (c.feature == some .RELIABLE)

/-- The listener of the write. -/
def onWritten (m : Message) (isSuccess : Bool) : Conn Unit := do
  let t ← getMeta m
  let c ← getContent m
  if t.confirmEnabled || (!isSuccess && c.feature == some .RELIABLE) then
    deliverStateChangedMessage C m (if isSuccess then .PROCESSED else .NETWORK_ERROR)

def process (m : Message) : Conn Unit := do
  let t ← getMeta m
  let targetAddress ← orNullPointer t.targetAddress
  let handler ← getUser m.to_ targetAddress.socketId
  match handler with
  | some handler => do
    let isSuccess ← SocketHandler.sendMessage handler m
    onWritten C m isSuccess
  | none => do
    let reliable ← isReliableMessage m
    if reliable then deliverStateChangedMessage C m .ADDRESS_NOT_FOUND

end DefaultOutgoingMessageProcessor

namespace GroupConnectorMessageProcessor

/-- The message for one user of a group message. -/
def userMessage (blank : Message) (connectorUserId : ConnectorUserId) (m : Message)
    (data : GroupConnectorMessage) (c : MessageContent) (t : MessageMeta) : Message :=
  { blank with
    from_ := m.from_
    to_ := connectorUserId.userId
    content := some { createMessageContent .MESSAGE
        ((data.content.map Data.messageForward).getD .null) c.feature with
      reference := c.reference }
    meta_ := some
      { originalAddress := t.originalAddress
        targetAddress :=
          some ⟨some C.domainName, some C.connectorName, connectorUserId.socketId⟩ } }

def process (processOutgoingMessage : Message → Conn Unit) (m : Message) : Conn Unit := do
  let data ← getData Data.groupConnectorMessage? m
  let data ← orNullPointer data
  let connectorUserIds ← orNullPointer data.connectorUserIds
  Exec.forEach (fun userId => do
    let c ← getContent m
    let blank ← builder C
    let t ← getMeta m
    processOutgoingMessage (userMessage C blank userId m data c t)) connectorUserIds

end GroupConnectorMessageProcessor

variable [JavaChar]

/-- `processOutgoingMessage`, whose call from a group message is `processOutgoingMessage`. -/
def processOutgoingWith (processOutgoingMessage : Message → Conn Unit) (m : Message) : Conn Unit := do
  let c ← getContent m
  match c.type with
  | some .AUTH_CLIENT_REPLY => AuthClientReplyMessageProcessor.process C m
  | some .CLOSE_CONNECTION => CloseConnectionMessageProcessor.process m
  | some .GROUP_CONNECTOR_MESSAGE =>
    GroupConnectorMessageProcessor.process C processOutgoingMessage m
  | _ => DefaultOutgoingMessageProcessor.process C m

/-- A group message is sent on as messages of type `MESSAGE`, which make no further calls. -/
def processOutgoingMessage : Message → Conn Unit :=
  processOutgoingWith C (processOutgoingWith C fun _ => .fail .stackOverflow)

namespace PostOffice

/-- `onMessageArrived` of a record that deserialises to `m`. -/
def onMessageArrived (m : Message) : Conn Unit :=
  Conn.catchException (processOutgoingMessage C m) fun _ => do
    let c ← getContent m
    if c.feature = some .RELIABLE then deliverStateChangedMessage C m .CONNECTOR_ERROR

end PostOffice

end Linker.Connector
