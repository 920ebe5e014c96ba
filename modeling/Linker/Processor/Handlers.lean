import Linker.Processor.PostOffice

/-!
# The message processors

The handlers of a processor, one for each message type it knows, and `MessageProcessorService.process`,
which touches a message, has its handler prepare it, and either hands it to the handler or sends it
to the domain it is for.

`process` calls itself through the handlers (`processCrossDomainMessage`, `InternalMessageProcessor`,
`CustomGroupMessageProcessor`, `sendMessageToMasterUser`, the confirmation of a delivery), so each
handler takes the `process` it calls as an argument, and `process` is a recursion on the depth of the
call stack.

* `processWith` : `process`, given what its inner calls do.
* `process`, `MessageProcessorService.process` : the recursion, and with the depth it needs.
* `onMessageArrived`, `handleInternalMessage` : how records of the topic and messages of a tunnel
  enter.
-/

namespace Linker.Processor

open ProcessorUtils ClientAppService MessageProcessorService PostOffice

variable [JavaChar] (E : Environment)

/-- A `MessageProcessor<T>`: what it reads from a payload, and its two passes over a message. -/
structure MessageProcessor where
  {T : Type}
  view : Data → Option T
  doPreprocess : Message → Option T → Proc Message := fun m _ => pure m
  doProcess : Message → Option T → Proc Unit

namespace MessageProcessor

def preprocess (p : MessageProcessor) (m : Message) : Proc Message := do
  let data ← getData p.view m
  p.doPreprocess m data

def process (p : MessageProcessor) (m : Message) : Proc Unit := do
  let data ← getData p.view m
  p.doProcess m data

end MessageProcessor

/-- `ProcessorUtils.sendMessageToMasterUser`. -/
def sendMessageToMasterUser (process : Message → Proc Unit) (m : Message) (refUserId : Option String) :
    Proc Unit :=
  match getClientAppByUserId E refUserId with
  | none => pure ()
  | some clientApp =>
    if refUserId ≠ clientApp.masterUserId ∧ ¬ isEmpty clientApp.masterUserId then
      process (m.setTo clientApp.masterUserId)
    else pure ()

/-! ### MESSAGE -/

namespace CustomMessageProcessor

def updateMessageConfirmationFlag (m : Message) : Proc Message := do
  let c ← getContent m
  let enabled ← orNullPointer m c.confirmationEnabled
  let _ ← getMeta m
  pure (m.updateMeta fun t => { t with confirmEnabled := enabled && !isBlank c.reference })

def processor : MessageProcessor where
  view := Data.messageRequest?
  doPreprocess m data := do
    let data ← orNullPointer m data
    pure (m.setTo data.to_)
  doProcess m data := do
    let data ← orNullPointer m data
    let m ← updateMessageConfirmationFlag (m.setData (.messageForward ⟨m.from_, data.content⟩))
    deliverMessage E m

end CustomMessageProcessor

/-! ### MESSAGE_CONFIRMATION -/

namespace CustomMessageConfirmationProcessor

def processor : MessageProcessor where
  view := Data.messageConfirmation?
  doProcess m _ := deliverMessage E m

end CustomMessageConfirmationProcessor

/-! ### CLOSE_CONNECTION -/

namespace CloseConnectionMessageProcessor

def processor : MessageProcessor where
  view := Data.closeConnection?
  doPreprocess m data := do
    let userId ← orNullPointer m data
    pure (m.setTo userId)
  doProcess m data := do
    let userId ← orNullPointer m data
    match getClientAppByUserId E userId with
    | none => pure ()
    | some targetClientApp =>
      if targetClientApp.masterUserId = m.from_ then
        deliverMessage E
          (m.updateContent fun c => { c with data := .empty, feature := some .RELIABLE })
      else pure ()

end CloseConnectionMessageProcessor

/-! ### AUTH_CLIENT -/

namespace AuthClientMessageProcessor

/-- `getOriginalAddressMeta` of `ProcessorUtils`. -/
def getOriginalAddressMeta : MessageMeta where
  originalAddress :=
    some { domainName := some E.domainName, connectorName := some E.processorName }

def replyMessage (blank : Message) (toUser note : Option String) (data : AuthClientReply) :
    Message :=
  { blank with
    content := some (createMessageContent .AUTH_CLIENT_REPLY (.authClientReply data)
      (some .RELIABLE))
    from_ := some Keywords.SYSTEM
    to_ := toUser
    meta_ := some { getOriginalAddressMeta E with note } }

def sendReply (m : Message) (data : AuthClientReply) : Proc Unit := do
  let t ← getMeta m
  let originalAddress ← orNullPointer m t.originalAddress
  let blank ← builder E
  Proc.during m (deliverMessage E (replyMessage E blank originalAddress.connectorName t.note data))

def fail (m : Message) (data : AuthClient) : Proc Unit :=
  sendReply E m ⟨data.appId, data.userId, some false⟩

def pass (m : Message) (data : AuthClient) : Proc Unit :=
  sendReply E m ⟨data.appId, data.userId, some true⟩

/-- The call is only begun here; `HttpCall.complete` goes on with its outcome. -/
def checkAuthUrl (authUrl : String) (m : Message) (data : AuthClient) : Proc Unit :=
  if E.acceptsUrl authUrl then
    .modify fun s => { s with httpCalls := s.httpCalls ++ [⟨authUrl, m, data⟩] }
  else .throw .illegalArgument m

def processor : MessageProcessor where
  view := Data.authClient?
  doProcess m data := do
    let data ← orNullPointer m data
    match getClientAppByUserId E data.userId with
    | none => fail E m data
    | some clientApp =>
      if clientApp.appId ≠ data.appId then fail E m data
      else if !equalsIgnoreCase (some E.domainName) (resolveDomain E data.userId) then fail E m data
      else if !clientApp.authEnabled then pass E m data
      else if isBlank clientApp.authUrl then fail E m data
      else checkAuthUrl E (orNull clientApp.authUrl) m data

end AuthClientMessageProcessor

/-- What becomes of an HTTP call. -/
inductive HttpOutcome where
  | failure
  /-- A response with its status code and what its body reads as, `none` where it is no
  `AuthClientReply`; the body may be the JSON null. -/
  | response (status : ℕ) (body : Option (Option AuthClientReply))

namespace HttpCall

open AuthClientMessageProcessor

/-- `thenAccept` on the reply of the endpoint. -/
def accept (c : HttpCall) (reply : Option AuthClientReply) : Proc Unit := do
  let reply ← orNullPointer c.message reply
  if c.data.appId = reply.appId ∧ c.data.userId = reply.userId then sendReply E c.message reply
  else AuthClientMessageProcessor.fail E c.message c.data

/-- The callbacks of `checkAuthUrl`: whatever `accept` throws is handled as a failure, and what is
thrown there ends in the future. -/
def complete (c : HttpCall) (outcome : HttpOutcome) : Proc Unit :=
  let exceptionally := (AuthClientMessageProcessor.fail E c.message c.data).recover fun _ => pure ()
  match outcome with
  | .failure => exceptionally
  | .response _ none => exceptionally
  | .response _ (some reply) => (accept E c reply).recover fun _ => exceptionally

end HttpCall

/-! ### GROUP_MESSAGE -/

namespace CustomGroupMessageProcessor

/-- A `HashMap<String, Set<A>>`, with its keys as they were first put. -/
abbrev Groups (A : Type) := List (Option String × List A)

/-- `map.get(k).add(a)`, after putting an empty set where there is none. -/
def Groups.add {A : Type} [BEq A] (k : Option String) (a : A) : Groups A → Groups A
  | [] => [(k, [a])]
  | (k', as) :: g => if k' = k then (k', as.insert a) :: g else (k', as) :: Groups.add k a g

def Groups.get {A : Type} (k : Option String) (g : Groups A) : List A := (g.lookup k).getD []

/-- `map.forEach`. -/
def Groups.forEach {A : Type} (g : Groups A) (f : Option String → List A → Proc Unit) : Proc Unit :=
  Exec.forEach (fun k => f k (g.get k)) (E.keyOrder (g.map Prod.fst))

def groupByDomain (users : List (Option String)) : Groups (Option String) :=
  users.foldl (fun g toUser => g.add (resolveDomain E toUser) toUser) []

/-- The message to a connector for its users in the group. -/
def connectorMessage (blank : Message) (connectorName : Option String)
    (users : List ConnectorUserId) (m : Message) (data : GroupMessage) (c : MessageContent) :
    Message :=
  { blank with
    content := some { createMessageContent .GROUP_CONNECTOR_MESSAGE
        (.groupConnectorMessage ⟨some users, some ⟨m.from_, data.content⟩⟩) c.feature with
      confirmationEnabled := some false
      reference := c.reference }
    from_ := m.from_
    to_ := connectorName
    meta_ := some { originalAddress := m.originalAddress } }

def processConnectorUserMessages (connectorName : Option String) (users : List ConnectorUserId)
    (m : Message) (data : GroupMessage) : Proc Unit := do
  let c ← getContent m
  let _ ← getMeta m
  let blank ← builder E
  Proc.during m (deliverMessage E (connectorMessage blank connectorName users m data c))

variable (process : Message → Proc Unit)

/-- The message to a user in the group that has no address. -/
def userMessage (blank : Message) (toUser : Option String) (m : Message) (data : GroupMessage)
    (c : MessageContent) : Message :=
  { blank with
    content := some { createMessageContent .MESSAGE (.messageRequest ⟨toUser, data.content⟩)
        c.feature with
      confirmationEnabled := some false
      reference := c.reference }
    from_ := m.from_
    to_ := toUser
    meta_ := some { originalAddress := m.originalAddress } }

def processUserAddressNotFound (toUser : Option String) (m : Message) (data : GroupMessage) :
    Proc Unit := do
  let c ← getContent m
  let _ ← getMeta m
  let blank ← builder E
  Proc.during m (process (userMessage blank toUser m data c))

/-- The addresses of the users of the current domain, grouped by connector.  A user without address
gets its own message on the way. -/
def groupByConnector (m : Message) (data : GroupMessage) :
    List (Option String) → Groups ConnectorUserId → Proc (Groups ConnectorUserId)
  | [], g => pure g
  | toUser :: users, g => do
    let type := if isMasterUserId E toUser then DeliveryType.ANY else .ALL
    let addresses ← routeTargetAddresses E toUser (some type) m
    if addresses.isEmpty then processUserAddressNotFound E process toUser m data
    let g := addresses.foldl (fun g (a : Address) => g.add a.connectorName ⟨toUser, a.socketId⟩) g
    groupByConnector m data users g

def processCurrentDomain (users : List (Option String)) (m : Message) (data : GroupMessage) :
    Proc Unit := do
  let connectorGroupedUsers ← groupByConnector E process m data (E.keyOrder users) []
  connectorGroupedUsers.forEach E fun connectorName connectorUserIds =>
    processConnectorUserMessages E connectorName connectorUserIds m data

/-- The group message to another domain for the users in the group that live there. -/
def subMessage (blank : Message) (domainName : Option String) (users : List (Option String))
    (m : Message) (data : GroupMessage) (c : MessageContent) : Message :=
  { blank with
    content := some (createMessageContent .GROUP_MESSAGE
      (.groupMessage ⟨some users, data.content⟩) c.feature)
    from_ := m.from_
    to_ := some Keywords.PROCESSOR
    createdAt := m.createdAt
    meta_ := some { originalAddress := m.originalAddress, targetAddress := some { domainName } } }

def processOtherDomain (domainName : Option String) (users : List (Option String)) (m : Message)
    (data : GroupMessage) : Proc Unit := do
  let c ← getContent m
  let _ ← getMeta m
  let blank ← builder E
  Proc.during m (process (subMessage blank domainName users m data c))

def processor : MessageProcessor where
  view := Data.groupMessage?
  doProcess m data := do
    let data ← orNullPointer m data
    let users ← orNullPointer m data.to_
    (groupByDomain E users).forEach E fun domain userIds =>
      if equalsIgnoreCase (some E.domainName) domain then
        processCurrentDomain E process userIds m data
      else processOtherDomain E process domain userIds m data

end CustomGroupMessageProcessor

/-! ### USER_CONNECTED and USER_DISCONNECTED -/

/-- The two presence handlers differ in the registry operation. -/
def presenceProcessor (view : Data → Option (Option String))
    (operation : Option String → Option Address → Message → Proc Unit)
    (process : Message → Proc Unit) : MessageProcessor where
  view
  doProcess m data :=
    if !isProcessorMessage m then deliverMessage E m
    else do
      if m.state = some .CREATED then do
        let userId ← orNullPointer m data
        let t ← getMeta m
        operation userId t.originalAddress m
      let userId ← orNullPointer m data
      sendMessageToMasterUser E process m userId

namespace UserConnectedMessageProcessor

def processor : (Message → Proc Unit) → MessageProcessor :=
  presenceProcessor E Data.userConnected? UserChannelService.addAddress

end UserConnectedMessageProcessor

namespace UserDisconnectedMessageProcessor

def processor : (Message → Proc Unit) → MessageProcessor :=
  presenceProcessor E Data.userDisconnected? UserChannelService.removeAddress

end UserDisconnectedMessageProcessor

/-! ### FETCH_MISSING_MESSAGES_REQUEST -/

namespace FetchMissingMessagesMessageProcessor

def MAX_COUNT : ℤ := 2000

/-- The states of the messages that are fetched. -/
def fetchableStates : List MessageState := [.ADDRESS_NOT_FOUND, .NETWORK_ERROR]

/-- `page.getTotalElements() - page.getNumberOfElements()`. -/
def leftCount (page : MessageRepository.Page) : ℤ :=
  (page.totalElements : ℤ) - page.content.length

def completeMessage (blank m : Message) (left : ℤ) : Message :=
  { blank with
    content := some (createMessageContent .FETCH_MISSING_MESSAGES_COMPLETE
      (.fetchMissingMessagesComplete (some left)) (some .RELIABLE))
    from_ := some Keywords.SYSTEM
    to_ := m.from_
    meta_ := m.meta_ }

/-- The reply takes over the metadata object of the request, so what `deliverMessage` writes to it is
seen in the request. -/
def sendCompleteMessage (m : Message) (left : ℤ) : Proc Unit := do
  let blank ← builder E
  Exec.reraise (fun e => ⟨e.exception, { m with meta_ := e.message.meta_ }⟩)
    (deliverMessage E (completeMessage blank m left))

/-- The loop over the page. -/
def deliverAndRemove (m : Message) (page : List Message) : Proc Unit :=
  Exec.forEach (fun msg => Proc.during m do
    deliverMessage E msg
    MessageRepository.remove msg) page

def processor : MessageProcessor where
  view := Data.fetchMissingMessagesRequest?
  doProcess m data := do
    let count ← orNullPointer m data
    let count ← orNullPointer m count
    -- `redisLockRegistry.obtain` rejects null
    match m.from_ with
    | none => .throw .illegalArgument m
    | some _ => do
      let page ← MessageRepository.findMessages m.from_ none fetchableStates (min MAX_COUNT count) m
      deliverAndRemove E m page.content
      sendCompleteMessage E m (leftCount page)

end FetchMissingMessagesMessageProcessor

/-! ### MESSAGE_STATE_CHANGED -/

namespace MessageStateChangedMessageProcessor

def processTargetNotFound (message : Message) : Proc Unit := do
  let t ← getMeta message
  UserChannelService.removeAddress message.to_ t.targetAddress message
  deliverMessage E message

/-- The confirmation of a delivered message. -/
def confirmMessage (blank message : Message) : Message :=
  { blank with
    from_ := some Keywords.SYSTEM
    to_ := message.from_
    content := some (createMessageContent .MESSAGE_CONFIRMATION
      (.messageConfirmation (message.content.bind (·.reference))) (some .RELIABLE))
    meta_ := some (AuthClientMessageProcessor.getOriginalAddressMeta E) }

def sendConfirmationMessageToSender (process : Message → Proc Unit) (message : Message) :
    Proc Unit := do
  let c ← getContent message
  if isBlank c.reference then pure ()
  else do
    let enabled ← orNullPointer message c.confirmationEnabled
    if enabled then do
      let blank ← builder E
      process (confirmMessage E blank message)

/-- Whether a delivered message is confirmed here: a MESSAGE that went to this domain. -/
def deliveredHere (msg : Message) (newState : Option MessageState) : Proc Bool := do
  if newState ≠ some .PROCESSED then pure false
  else do
    let c ← getContent msg
    if c.type ≠ some .MESSAGE then pure false
    else do
      let t ← getMeta msg
      let targetAddress ← orNullPointer msg t.targetAddress
      pure (equalsIgnoreCase targetAddress.domainName (some E.domainName))

/-- What happens to the message that is reported on. -/
def report (process : Message → Proc Unit) (message : Option Message)
    (newState : Option MessageState) (m : Message) : Proc Unit := do
  let msg ← orNullPointer m message
  if newState = some .ADDRESS_NOT_FOUND then processTargetNotFound E msg
  else do
    let msg ← persistMessage E msg newState
    let confirms ← deliveredHere E msg newState
    if confirms then sendConfirmationMessageToSender E process msg

def processor (process : Message → Proc Unit) : MessageProcessor where
  view := Data.messageStateChanged?
  doProcess m data := Proc.during m do
    let data ← orNullPointer m data
    report E process data.1 data.2 m

end MessageStateChangedMessageProcessor

/-! ### INTERNAL_MESSAGE -/

namespace InternalMessageProcessor

/-- `Utils.convert` of the payload to a message. -/
def innerMessage (m : Message) : Proc Message := do
  let data ← getData Data.message? m
  orNullPointer m data

def processor (process : Message → Proc Unit) : MessageProcessor where
  view := Data.message?
  doPreprocess m _ :=
    if isBlank m.to_ then do
      let inner ← innerMessage m
      pure (m.setTo inner.to_)
    else pure m
  doProcess m _ := do
    let here ← isCurrentDomainMessage E m
    if here then do
      -- `process` dereferences the inner message; converted from the payload, it is its own object
      let inner ← innerMessage m
      Proc.during m (process inner)
    else deliverMessage E m

end InternalMessageProcessor

/-! ### The message processor service -/

/-- The processors by the type they are registered for. -/
def getMessageProcessor (process : Message → Proc Unit) : Option MessageType → Option MessageProcessor
  | some .MESSAGE => some (CustomMessageProcessor.processor E)
  | some .MESSAGE_CONFIRMATION => some (CustomMessageConfirmationProcessor.processor E)
  | some .CLOSE_CONNECTION => some (CloseConnectionMessageProcessor.processor E)
  | some .AUTH_CLIENT => some (AuthClientMessageProcessor.processor E)
  | some .GROUP_MESSAGE => some (CustomGroupMessageProcessor.processor E process)
  | some .USER_CONNECTED => some (UserConnectedMessageProcessor.processor E process)
  | some .USER_DISCONNECTED => some (UserDisconnectedMessageProcessor.processor E process)
  | some .FETCH_MISSING_MESSAGES_REQUEST => some (FetchMissingMessagesMessageProcessor.processor E)
  | some .MESSAGE_STATE_CHANGED => some (MessageStateChangedMessageProcessor.processor E process)
  | some .INTERNAL_MESSAGE => some (InternalMessageProcessor.processor E process)
  | _ => none

/-- The wrapper in which a message for another domain travels. -/
def internalMessage (blank m : Message) (feature : Option MessageFeature)
    (domainName : Option String) : Message :=
  { blank with
    from_ := m.from_
    to_ := m.to_
    content := some (createMessageContent .INTERNAL_MESSAGE (.message m) feature)
    meta_ := some { originalAddress := m.originalAddress, targetAddress := some { domainName } } }

def processCrossDomainMessage (process : Message → Proc Unit) (m : Message) : Proc Unit := do
  let c ← getContent m
  if c.type = some .INTERNAL_MESSAGE then process m
  else do
    let blank ← builder E
    let _ ← getMeta m
    let domainName ← resolveDomainName E m
    Proc.during m (process (internalMessage blank m c.feature domainName))

/-- `MessageProcessorService.process`, whose inner calls are `process`. -/
def processWith (process : Message → Proc Unit) (m : Message) : Proc Unit := do
  Proc.note (.processing m)
  let _ ← getMeta m
  let m := m.touch
  let t ← getMeta m
  if !t.isAlive then pure ()
  else do
    let c ← getContent m
    match getMessageProcessor E process c.type with
    | none => pure ()
    | some processor => do
      let m ← processor.preprocess m
      if c.type ≠ some .INTERNAL_MESSAGE then do
        let here ← isCurrentDomainMessage E m
        if here then processor.process m else processCrossDomainMessage E process m
      else processor.process m

/-- `process` on a call stack that has room for so many calls of it. -/
def process : ℕ → Message → Proc Unit
  | 0, m => .throw .stackOverflow m
  | depth + 1, m => processWith E (process depth) m

/-- A bound on the depth of the calls: the messages nested in the payload, the rounds that
`sendMessageToMasterUser` can make before the TTL is used up, and the wrapping of other messages. -/
def callDepth (m : Message) : ℕ := m.nesting + (2 ^ 31 + 8)

namespace MessageProcessorService

/-- The call stack is idealised: it has room for whatever depth a message needs. -/
@[irreducible] def process (m : Message) : Proc Unit := Processor.process E (callDepth m) m

end MessageProcessorService

/-! ### Where messages enter -/

namespace PostOffice

/-- `onMessageArrived(message, from)`, given `process`: an exception has the message stored. -/
abbrev onMessageArrivedWith (process : Message → Proc Unit) (m : Message) : Proc Unit :=
  Proc.catchException (process m) fun e => do
    let _ ← persistMessage E e.message (some .PROCESSOR_ERROR)
    pure ()

def onMessageArrived (m : Message) : Proc Unit :=
  onMessageArrivedWith E (MessageProcessorService.process E) m

/-- `onMessageArrived(expressDelivery, bytes)` of a record that deserialises to `m`: an exception is
logged. -/
def onRecordArrived (m : Message) : Proc Unit :=
  Proc.catchException (onMessageArrived E m) fun _ => pure ()

end PostOffice

namespace DomainService

/-- The wrapper of a message that a tunnel brings. -/
def msgWrapper (blank internalMessage : Message) (type : Option MessageType) (data : Data)
    (t : MessageMeta) (c : MessageContent) : Message :=
  { blank with
    from_ := internalMessage.from_
    to_ := internalMessage.to_
    meta_ := some { originalAddress := t.originalAddress }
    content := some { type, data, feature := c.feature } }

/-- `handleInternalMessage` on the content of the given type and payload. -/
def handleInternalMessage (type : Option MessageType) (data : Data) : Proc Unit := do
  let blank ← builder E
  match data.convert Data.message? with
  | .error e => .throw e blank
  | .ok none => .throw .nullPointer blank
  | .ok (some internalMessage) => do
    let t ← getMeta internalMessage
    let c ← getContent internalMessage
    onMessageArrived E (msgWrapper blank internalMessage type data t c)

end DomainService

end Linker.Processor
