import Linker.Processor.Stores

/-!
# The post office

`PostOffice` puts a message on the topics of the connectors that hold its recipient, or on the topic
of the connector of the next domain on the way, and has it stored where there is no address.

`deliverMessage` first fills in the target address, then decides between the two on the domain in it.
A send that the producer refuses is reported at once to `onMessageDeliveryFailed`, which works on a
copy of the message (`codec.deserialize` of its bytes).
-/

namespace Linker.Processor

/-- `Utils.calcExpressDelivery`: a switch over null throws. -/
def calcExpressDelivery (m : Message) : Option MessageFeature → Proc ExpressDeliveryType
  | some .FAST => pure .NATS
  | some .RELIABLE => pure .KAFKA
  | none => .throw .nullPointer m

/-- `Utils.getRandomItemInCollection`. -/
def getRandomItemInCollection (addresses : List Address) : Proc (Option Address) :=
  if addresses.isEmpty then pure none
  else do
    let n ← Proc.nextInt addresses.length
    pure addresses[n]?

namespace MessageProcessorService

variable (E : Environment)

/-- The message as it stands afterwards is returned. -/
def persistMessage (m : Message) (state : Option MessageState) : Proc Message := do
  let m := m.setState state
  let c ← getContent m
  if c.feature = some .RELIABLE ∧ state ≠ some .PROCESSED then MessageRepository.save E m
  else pure m

end MessageProcessorService

namespace PostOffice

open MessageProcessorService ProcessorUtils ClientAppService

variable [JavaChar] (E : Environment)

def onMessageDeliveryFailed (m : Message) : Proc Unit := do
  let _ ← persistMessage E m (some .NETWORK_ERROR)
  pure ()

/-- `ExpressDelivery.deliverMessage`: the producer takes the record or refuses it; no topic is called
null. -/
def express (delivery : ExpressDeliveryType) (target : Option String) (m : Message) : Proc Unit := do
  let refuses ← Exec.read fun s => s.refused.headD false
  .modify fun s => { s with refused := s.refused.tail }
  match target with
  | none => onMessageDeliveryFailed E m
  | some topic =>
    if refuses then onMessageDeliveryFailed E m
    else .modify fun s => { s with parcels := s.parcels ++ [⟨delivery, topic, m⟩] }

def adjustDeliveryType (m : Message) : Proc Message := do
  let t ← getMeta m
  if t.deliveryType = some .ALL then do
    let c ← getContent m
    if c.type = some .INTERNAL_MESSAGE || isMasterUserId E m.to_ ||
        startsWithIgnoreCase m.to_ (some Keywords.PROCESSOR) then
      pure (m.setDeliveryType .ANY)
    else pure m
  else pure m

def populateTargetAddress (m : Message) : Proc Message := do
  let t ← getMeta m
  match t.targetAddress with
  | none => pure (m.setTargetAddress (some { domainName := resolveDomain E m.to_ }))
  | some _ => pure m

/-- `getRouteTargetAddresses(to, deliveryType)`, called while working on `m`. -/
def routeTargetAddresses (to_ : Option String) (deliveryType : Option DeliveryType) (m : Message) :
    Proc (List Address) :=
  if isBlank to_ then pure []
  else if isConnectorUser to_ then
    pure [{ domainName := some E.domainName, connectorName := to_ }]
  else do
    let userChannel ← UserChannelService.getById to_ m
    match userChannel with
    | none => pure []
    | some addresses =>
      if deliveryType = some .ALL then pure addresses
      else do
        let address ← getRandomItemInCollection addresses
        pure address.toList

def getRouteTargetAddresses (m : Message) : Proc (List Address) := do
  let t ← getMeta m
  routeTargetAddresses E m.to_ t.deliveryType m

def sendToAddresses (addresses : List Address) (m : Message) : Proc Unit := do
  let c ← getContent m
  let delivery ← calcExpressDelivery m c.feature
  Exec.forEach (fun a => express E delivery a.connectorName (m.setTargetAddress (some a))) addresses

def sendToConnector (m : Message) : Proc Unit := do
  let m ← adjustDeliveryType E m
  let targetAddresses ← getRouteTargetAddresses E m
  if targetAddresses.isEmpty then do
    let _ ← persistMessage E m (some .ADDRESS_NOT_FOUND)
    pure ()
  else sendToAddresses E targetAddresses m

def deliverMessageInsideDomain (m : Message) : Proc Unit := sendToConnector E m

/-- `DomainService.getNextDomainName`: without a graph its lookup throws. -/
def getNextDomainName (targetDomainName : Option String) (m : Message) : Proc (Option String) :=
  match E.routes with
  | none => .throw .nullPointer m
  | some next => pure (next targetDomainName)

def deliverMessageOutsideDomain (m : Message) : Proc Unit := do
  assertInternalMessage m
  let t ← getMeta m
  match t.targetAddress with
  | none => .throw .nullPointer m
  | some a => do
    let nextDomainName ← getNextDomainName E a.domainName m
    if isBlank nextDomainName then
      .throw (.processMessage ("can not resolve next domain name from domain [" ++ E.domainName ++
        "] to domain [" ++ orNull a.domainName ++ "]")) m
    else sendToConnector E (m.setTo (some (resolveDomainUserId nextDomainName)))

def deliverMessage (m : Message) : Proc Unit := do
  let m ← populateTargetAddress E m
  let inside ← isCurrentDomainMessage E m
  if inside then deliverMessageInsideDomain E m else deliverMessageOutsideDomain E m

end PostOffice

end Linker.Processor
