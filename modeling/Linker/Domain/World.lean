import Linker.Connector.Handlers
import Linker.LTS.Basic
import Linker.Processor.Handlers

/-!
# A domain

The processors and the connectors of a domain, the topic between them, and everything that can happen
in it, as a `System` of events.  A record of a topic can be consumed at any time and in any order; an
event carries what it leaves open: which record, what a client sends, which address is drawn, whether
a write to a socket or a send to the broker succeeds.

## Main definitions

* `Domain` : the configuration of the processors and of the connectors.
* `World` : the state of a domain, with the history of what clients have sent.
* `Event`, `Domain.step`, `Domain.system` : what can happen.
-/

namespace Linker

open Processor (Environment Draws HttpCall HttpOutcome)

/-- A domain: the environment of its processors, and what its connectors draw. -/
structure Domain where
  env : Environment
  uuid : String → ℕ → String
  now : String → ℕ → ℤ

/-- The configuration of a connector of the domain. -/
def Domain.config (D : Domain) (connectorName : String) : Connector.Config where
  domainName := D.env.domainName
  connectorName
  uuid := D.uuid connectorName
  now := D.now connectorName

/-- A message that a client has sent, with what the handler of its socket stored at that time. -/
structure Input where
  connectorName : String
  socketId : ℤ
  socket : Connector.Socket
  content : MessageContent

structure World where
  processor : Processor.State := {}
  /-- The running connectors, by name. -/
  connectors : String → Option Connector.State := fun _ => none
  /-- The records on the topic of the processors. -/
  incoming : List Message := []
  /-- What clients have sent. -/
  inputs : List Input := []
  /-- The records that processors have consumed. -/
  dispatched : List Message := []
  /-- The calls of authentication endpoints that have ended. -/
  responses : List (HttpCall × HttpOutcome) := []

/-- What can happen in a domain. -/
inductive Event where
  /-- A client opens a socket. -/
  | connect (connectorName : String)
  /-- A client sends a message. -/
  | receive (connectorName : String) (socketId : ℤ) (content : MessageContent) (futures : List Bool)
  /-- A socket closes. -/
  | disconnect (connectorName : String) (socketId : ℤ) (futures : List Bool)
  /-- A processor consumes a record. -/
  | dispatch (k : ℕ) (draws : Draws)
  /-- A connector consumes a record. -/
  | handOut (k : ℕ) (futures : List Bool)
  /-- The producer gives up on a record it had taken. -/
  | refuse (k : ℕ)
  /-- An authentication endpoint answers. -/
  | respond (k : ℕ) (outcome : HttpOutcome) (draws : Draws)
  /-- A tunnel brings an internal message. -/
  | tunnel (data : Data) (draws : Draws)

def Event.isTunnel : Event → Bool
  | .tunnel .. => true
  | _ => false

/-- No client and no tunnel brings a message with another in it. -/
def Event.isPlain : Event → Bool
  | .receive _ _ content _ =>
    content.type ≠ some .INTERNAL_MESSAGE && content.type ≠ some .MESSAGE_STATE_CHANGED
  | .tunnel .. => false
  | _ => true

namespace World

/-- Run a computation of a connector in the given state; what it publishes goes to the processors. -/
def atConnector (connectorName : String) (s : Connector.State) (x : Connector.Conn Unit)
    (w : World) : World :=
  let s' := (x.run s).2
  { w with
    connectors := fun c =>
      if c = connectorName then some { s' with published := [] } else w.connectors c
    incoming := w.incoming ++ s'.published }

/-- Run a computation of the processors. -/
def atProcessor (x : Processor.Proc Unit) (d : Draws) (w : World) : World :=
  { w with processor := w.processor.after x d }

end World

namespace Domain

variable [JavaChar] (D : Domain)

open Connector in
/-- The state after an event. -/
def step (w : World) : Event → Option World
  | .connect c => do
    let s ← w.connectors c
    pure (w.atConnector c s initChannel)
  | .receive c i content futures => do
    let s ← w.connectors c
    let socket ← s.openSocket i
    let w : World := { w with inputs := w.inputs ++ [⟨c, i, socket, content⟩] }
    pure (w.atConnector c s (withFutures futures (channelRead0 (D.config c) i socket content)))
  | .disconnect c i futures => do
    let s ← w.connectors c
    let socket ← s.openSocket i
    pure (w.atConnector c s (withFutures futures (handlerRemoved (D.config c) i socket)))
  | .dispatch k draws => do
    let m ← w.incoming[k]?
    let w : World := { w with incoming := w.incoming.eraseIdx k, dispatched := w.dispatched ++ [m] }
    pure (w.atProcessor (Processor.PostOffice.onRecordArrived D.env m) draws)
  | .handOut k futures => do
    let p ← w.processor.parcels[k]?
    let s ← w.connectors p.target
    let w : World := { w with
      processor := { w.processor with parcels := w.processor.parcels.eraseIdx k } }
    pure (w.atConnector p.target s
      (withFutures futures (PostOffice.onMessageArrived (D.config p.target) p.message)))
  | .refuse k => do
    let p ← w.processor.parcels[k]?
    let w : World := { w with
      processor := { w.processor with parcels := w.processor.parcels.eraseIdx k } }
    pure (w.atProcessor (Processor.PostOffice.onMessageDeliveryFailed D.env p.message) {})
  | .respond k outcome draws => do
    let call ← w.processor.httpCalls[k]?
    let w : World := { w with
      processor := { w.processor with httpCalls := w.processor.httpCalls.eraseIdx k }
      responses := w.responses ++ [(call, outcome)] }
    pure (w.atProcessor (Processor.HttpCall.complete D.env call outcome) draws)
  | .tunnel data draws =>
    some (w.atProcessor (Processor.DomainService.handleInternalMessage D.env
      (some .INTERNAL_MESSAGE) data) draws)

def system : System World Event where
  step := D.step

/-! ### What an event needs -/

variable {D} {w w' : World}

theorem step_connect {c : String} (h : D.step w (.connect c) = some w') :
    ∃ s, w.connectors c = some s ∧ w' = w.atConnector c s Connector.initChannel := by
  obtain ⟨s, hs, h⟩ := Option.bind_eq_some_iff.1 h
  exact ⟨s, hs, (Option.some.inj h).symm⟩

theorem step_receive {c : String} {i : ℤ} {content : MessageContent} {futures : List Bool}
    (h : D.step w (.receive c i content futures) = some w') :
    ∃ s socket, w.connectors c = some s ∧ s.openSocket i = some socket ∧
      w' = ({ w with inputs := w.inputs ++ [⟨c, i, socket, content⟩] } : World).atConnector c s
        (Connector.withFutures futures
          (Connector.channelRead0 (D.config c) i socket content)) := by
  obtain ⟨s, hs, h⟩ := Option.bind_eq_some_iff.1 h
  obtain ⟨socket, hsocket, h⟩ := Option.bind_eq_some_iff.1 h
  exact ⟨s, socket, hs, hsocket, (Option.some.inj h).symm⟩

theorem step_disconnect {c : String} {i : ℤ} {futures : List Bool}
    (h : D.step w (.disconnect c i futures) = some w') :
    ∃ s socket, w.connectors c = some s ∧ s.openSocket i = some socket ∧
      w' = w.atConnector c s (Connector.withFutures futures
        (Connector.handlerRemoved (D.config c) i socket)) := by
  obtain ⟨s, hs, h⟩ := Option.bind_eq_some_iff.1 h
  obtain ⟨socket, hsocket, h⟩ := Option.bind_eq_some_iff.1 h
  exact ⟨s, socket, hs, hsocket, (Option.some.inj h).symm⟩

theorem step_dispatch {k : ℕ} {d : Draws} (h : D.step w (.dispatch k d) = some w') :
    ∃ m, w.incoming[k]? = some m ∧
      w' = ({ w with
        incoming := w.incoming.eraseIdx k
        dispatched := w.dispatched ++ [m] } : World).atProcessor
          (Processor.PostOffice.onRecordArrived D.env m) d := by
  obtain ⟨m, hm, h⟩ := Option.bind_eq_some_iff.1 h
  exact ⟨m, hm, (Option.some.inj h).symm⟩

theorem step_handOut {k : ℕ} {futures : List Bool} (h : D.step w (.handOut k futures) = some w') :
    ∃ p s, w.processor.parcels[k]? = some p ∧ w.connectors p.target = some s ∧
      w' = ({ w with
        processor := { w.processor with parcels := w.processor.parcels.eraseIdx k } } : World).atConnector
          p.target s (Connector.withFutures futures
            (Connector.PostOffice.onMessageArrived (D.config p.target) p.message)) := by
  obtain ⟨p, hp, h⟩ := Option.bind_eq_some_iff.1 h
  obtain ⟨s, hs, h⟩ := Option.bind_eq_some_iff.1 h
  exact ⟨p, s, hp, hs, (Option.some.inj h).symm⟩

theorem step_refuse {k : ℕ} (h : D.step w (.refuse k) = some w') :
    ∃ p, w.processor.parcels[k]? = some p ∧
      w' = ({ w with
        processor := { w.processor with parcels := w.processor.parcels.eraseIdx k } } : World).atProcessor
          (Processor.PostOffice.onMessageDeliveryFailed D.env p.message) {} := by
  obtain ⟨p, hp, h⟩ := Option.bind_eq_some_iff.1 h
  exact ⟨p, hp, (Option.some.inj h).symm⟩

theorem step_respond {k : ℕ} {outcome : HttpOutcome} {d : Draws}
    (h : D.step w (.respond k outcome d) = some w') :
    ∃ call, w.processor.httpCalls[k]? = some call ∧
      w' = ({ w with
        processor := { w.processor with httpCalls := w.processor.httpCalls.eraseIdx k }
        responses := w.responses ++ [(call, outcome)] } : World).atProcessor
          (Processor.HttpCall.complete D.env call outcome) d := by
  obtain ⟨call, hcall, h⟩ := Option.bind_eq_some_iff.1 h
  exact ⟨call, hcall, (Option.some.inj h).symm⟩

theorem step_tunnel {data : Data} {d : Draws} (h : D.step w (.tunnel data d) = some w') :
    w' = w.atProcessor (Processor.DomainService.handleInternalMessage D.env
      (some .INTERNAL_MESSAGE) data) d :=
  (Option.some.inj h).symm

end Domain

/-! ### A small domain -/

namespace Sample

/-- One app, whose users all live in the domain. -/
def env : Environment where
  domainName := "domain-01"
  processorName := "processor-01"
  clientApps appName :=
    if appName = "APP" then
      some { appName := some "APP", appId := some "id", masterUserId := some "APP-1" }
    else none
  routes := none
  acceptsUrl _ := true
  keyOrder := id
  keyOrder_perm _ := .refl _
  uuid n := "processor-message-" ++ toString n
  now n := n

def domain : Domain where
  env
  uuid c n := c ++ "-message-" ++ toString n
  now _ n := n

def connectorName : String := "connector-01"

/-- The domain with one connector. -/
def start : World where
  connectors c := if c = connectorName then some {} else none

def signIn (userId : String) : MessageContent where
  type := some .AUTH_CLIENT
  data := .authClient ⟨some "id", some userId, none⟩

def textTo (userId text : String) : MessageContent where
  type := some .MESSAGE
  data := .messageRequest ⟨some userId, some text⟩

/-- A client opens the socket and signs in; the processors consume its `AUTH_CLIENT` and its
`USER_CONNECTED`. -/
def arrival (socketId : ℤ) (userId : String) : List Event :=
  [.connect connectorName, .receive connectorName socketId (signIn userId) [], .dispatch 0 {},
    .handOut 0 [], .dispatch 0 {}]

end Sample

end Linker
