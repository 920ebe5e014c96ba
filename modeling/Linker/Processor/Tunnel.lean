import Linker.Exec.Basic
import Linker.LTS.Basic
import Linker.Processor.ClientAppService
import Linker.Processor.DomainGraphService
import Mathlib.Logic.Function.Basic

/-!
# Tunnels

A domain holds a *tunnel* to each of its neighbours: a TCP connection to a connector of the neighbour,
on which it signs in as a client.  `DomainTunnel` drives the connection, `TcpSocketClient` makes the
channels and `SocketClientHandler` sits in the pipeline of each of them; they call each other back from
the event loop.  `connect` does not wait for the connection: the callbacks that `doConnect` sets after it
may come too late for the first channel, which then never signs in.  Whether the tunnel can be used is
told by the flag `isAuthenticated`, which is reset when a new channel signs in and not when the old one
goes.

## Main definitions

* `DomainTunnel.system` : the events of a tunnel.
* `DomainTunnel.Usable` : the tunnel is connected only with an open channel on which it has signed in.
* `DomainTunnel.Sends` : a message goes to such a channel, or `sendMessage` throws.
* `DomainTunnel.Meets` : no channel goes while the flag is set.
* `DomainTunnel.Wired` : there is at most one channel, and it is the handler's.

## Main results

* `DomainTunnel.keeps_step` : what each event keeps, and when it leaves a tunnel that can be used.
* `DomainTunnel.knows_iff` : the runs in which the tunnel knows whether it can be used.
-/

namespace Linker

/-- What an `AUTH_CLIENT_REPLY` says. -/
def MessageContentOutput.reply? (content : MessageContentOutput) : Option Bool :=
  if content.type = some .AUTH_CLIENT_REPLY then
    content.data.authClientReply?.bind (·.isAuthenticated)
  else none

namespace Processor

open Exec

/-- `java.net.URI`, as far as it is read. -/
structure URI where
  host : Option String
  port : ℤ

namespace RouterDomain

/-- `getTcpUrl`. -/
def getTcpUrl (d : RouterDomain) : Option String :=
  d.urls.find? fun u => "tcp".toList.isPrefixOf u.toList

/-- `toString`. -/
def print (d : RouterDomain) : String := d.name ++ " [" ++ ", ".intercalate d.urls ++ "]"

end RouterDomain

namespace DomainTunnel

/-! ### Channels and clients -/

inductive Phase where
  | absent
  /-- `connect` has been called; the pipeline is not set up. -/
  | registering
  /-- The handlers are in the pipeline; there is no TCP connection. -/
  | registered
  | connected
  /-- `close` has been called; the handlers are still there. -/
  | closing
  | removed
  deriving DecidableEq, Repr

/-- Whether the channel is there. -/
def Phase.isLive : Phase → Bool
  | .absent | .removed => false
  | _ => true

/-- Whether the handlers are in the pipeline. -/
def Phase.isPiped : Phase → Bool
  | .registered | .connected | .closing => true
  | _ => false

/-- A channel with the `SocketClientHandler` in its pipeline. -/
structure Channel where
  phase : Phase := .absent
  /-- Whether the handler has its context. -/
  context : Bool := false
  /-- What has been read since the channel was connected. -/
  received : List MessageContentOutput := []
  written : List MessageContent := []

/-- `context.writeAndFlush`: what is written to a channel that is not open is lost. -/
def Channel.writeAndFlush (m : MessageContent) (k : Channel) : Channel :=
  if k.phase = .connected then { k with written := k.written ++ [m] } else k

/-- `context.close`. -/
def Channel.close (k : Channel) : Channel := { k with phase := .closing }

structure TcpSocketClient where
  host : Option String := none
  port : ℤ := 0
  connectedCallback : Bool := false
  disconnectedCallback : Bool := false
  msgCallback : Bool := false
  /-- The number of the channel whose handler it is. -/
  socketClientHandler : Option ℕ := none
  channel : ℕ → Channel := fun _ => {}
  /-- How many channels have been made. -/
  made : ℕ := 0

def TcpSocketClient.update (c : ℕ) (f : Channel → Channel) (t : TcpSocketClient) : TcpSocketClient :=
  { t with channel := Function.update t.channel c (f (t.channel c)) }

structure State where
  domain : Option RouterDomain := none
  socketClient : Option TcpSocketClient := none
  isAuthenticated : Bool := false
  msgCallback : Bool := false
  onAuthenticatedCallback : Bool := false
  /-- How many reconnections are scheduled. -/
  scheduled : ℕ := 0
  /-- The internal messages that have been handed to the post office. -/
  handed : List MessageContentOutput := []

/-- A tunnel that has just been made. -/
def start : State := {}

namespace State

def channel (s : State) (c : ℕ) : Channel := (s.socketClient.map fun t => t.channel c).getD {}

def onClient (f : TcpSocketClient → TcpSocketClient) (s : State) : State :=
  { s with socketClient := s.socketClient.map f }

def onChannel (c : ℕ) (f : Channel → Channel) (s : State) : State :=
  s.onClient (TcpSocketClient.update c f)

end State

/-- What a call of a tunnel may throw. -/
inductive Throw where
  | notConnected (text : String)
  | java (e : JavaException)
  deriving DecidableEq, Repr

abbrev Proc (α : Type) := Exec State Throw α

/-- The configuration that a tunnel reads. -/
structure Config where
  domainName : Option String
  /-- `new URI`, `none` where the syntax is wrong. -/
  uri : String → Option URI

/-- `socketClient`, where it is called. -/
def socketClient : Proc TcpSocketClient := do
  let client ← read State.socketClient
  match client with
  | some t => pure t
  | none => fail (.java .nullPointer)

namespace SocketClientHandler

/-- The handler of channel `c` drops the message where it has no context. -/
def sendMessage (c : ℕ) (m : MessageContent) : Proc Unit := do
  let t ← socketClient
  if (t.channel c).context then modify (State.onChannel c (Channel.writeAndFlush m)) else pure ()

end SocketClientHandler

namespace TcpSocketClient

/-- `socketClientHandler`, where it is called. -/
def handler : Proc ℕ := do
  let t ← socketClient
  match t.socketClientHandler with
  | some c => pure c
  | none => fail (.java .nullPointer)

def sendMessage (m : MessageContent) : Proc Unit := do
  let c ← handler
  SocketClientHandler.sendMessage c m

def disconnect : Proc Unit := do
  let c ← handler
  let t ← socketClient
  if (t.channel c).context then modify (State.onChannel c Channel.close)
  else fail (.java .nullPointer)

/-- A new channel on the way to the host. -/
def bootstrap (t : TcpSocketClient) : TcpSocketClient :=
  { t.update t.made fun k => { k with phase := .registering } with made := t.made + 1 }

def doConnect : Proc Unit := do
  let t ← socketClient
  if t.host.isSome && 0 ≤ t.port && t.port ≤ 65535 then modify (State.onClient bootstrap)
  else fail (.java .illegalArgument)

def connect (host : Option String) (port : ℤ) : Proc Unit := do
  modify (State.onClient fun t => { t with host, port })
  doConnect

def reconnect : Proc Unit := do
  let t ← socketClient
  connect t.host t.port

end TcpSocketClient

/-! ### The tunnel -/

def isConnected (s : State) : Bool := s.socketClient.isSome && s.isAuthenticated

def sendMessage (m : MessageContent) : Proc Unit := do
  let connected ← read isConnected
  if connected then TcpSocketClient.sendMessage m
  else do
    let domain ← read State.domain
    fail (.notConnected ("domain is not connected to domain " ++
      orNull (domain.map RouterDomain.print)))

namespace DomainService

/-- `fetchMissingMessages`. -/
def fetchMissingMessages : Proc Unit :=
  (sendMessage (createMessageContent .FETCH_MISSING_MESSAGES_REQUEST
    (.fetchMissingMessagesRequest (some 2000)) (some .RELIABLE))).recover fun e =>
      match e with
      | .notConnected _ => pure ()
      | e => fail e

def handleFetchingMessagesComplete (content : MessageContentOutput) : Proc Unit :=
  match content.data.convert Data.fetchMissingMessagesComplete? with
  | .error e => fail (.java e)
  | .ok (some (some left)) => if 0 < left then fetchMissingMessages else pure ()
  | .ok _ => fail (.java .nullPointer)

/-- `handleInternalMessage`: the post office does the rest. -/
def handleInternalMessage (content : MessageContentOutput) : Proc Unit :=
  modify fun s => { s with handed := s.handed ++ [content] }

def onMessage (content : MessageContentOutput) : Proc Unit :=
  match content.type with
  | none => fail (.java .nullPointer)
  | some .INTERNAL_MESSAGE => handleInternalMessage content
  | some .FETCH_MISSING_MESSAGES_COMPLETE => handleFetchingMessagesComplete content
  | some _ => pure ()

end DomainService

def handleAuthReplay (reply : AuthClientReply) : Proc Unit :=
  match reply.isAuthenticated with
  | none => fail (.java .nullPointer)
  | some true => do
    modify fun s => { s with isAuthenticated := true }
    let callback ← read State.onAuthenticatedCallback
    if callback then DomainService.fetchMissingMessages else pure ()
  | some false => TcpSocketClient.disconnect

def onMessageArrived (content : MessageContentOutput) : Proc Unit :=
  match content.type with
  | none => fail (.java .nullPointer)
  | some .AUTH_CLIENT_REPLY =>
    match content.data.convert Data.authClientReply? with
    | .error e => fail (.java e)
    | .ok none => fail (.java .nullPointer)
    | .ok (some reply) => handleAuthReplay reply
  | some _ => do
    let callback ← read State.msgCallback
    if callback then DomainService.onMessage content else pure ()

def scheduleReconnection : Proc Unit := modify fun s => { s with scheduled := s.scheduled + 1 }

def onDisconnected : Proc Unit := scheduleReconnection

section

variable [JavaChar] (E : Config)

/-- `resolveDomainAppName`: `domain-01 => domain1`. -/
def resolveDomainAppName (domainName : Option String) : String :=
  let nameRecord := NameRecord.parse domainName
  orNull nameRecord.appName ++ orNull (nameRecord.number.map toString)

def authenticate : Proc Unit := do
  modify fun s => { s with isAuthenticated := false }
  TcpSocketClient.sendMessage (createMessageContent .AUTH_CLIENT
    (.authClient ⟨some (resolveDomainAppName E.domainName),
      some (ProcessorUtils.resolveDomainUserId E.domainName), some ""⟩) (some .RELIABLE))

def onConnected : Proc Unit := do
  modify (State.onClient fun t => { t with msgCallback := true })
  authenticate E

omit [JavaChar] in
/-- `doConnect` until `connect` has returned: whether there are callbacks to be set. -/
def startConnecting (domain : RouterDomain) : Proc Bool :=
  match domain.getTcpUrl with
  | none => pure false
  | some url =>
    match E.uri url with
    | none => pure false
    | some uri => do
      modify fun s => { s with socketClient := some {} }
      TcpSocketClient.connect uri.host uri.port
      pure true

/-- `socketClient.onConnected(this::onConnected)`. -/
def setConnectedCallback : Proc Unit :=
  modify (State.onClient fun t => { t with connectedCallback := true })

/-- `socketClient.onDisconnected(this::onDisconnected)`. -/
def setDisconnectedCallback : Proc Unit :=
  modify (State.onClient fun t => { t with disconnectedCallback := true })

omit [JavaChar] in
def doConnect (domain : RouterDomain) : Proc Unit := do
  let started ← startConnecting E domain
  if started then do
    setConnectedCallback
    setDisconnectedCallback
  else pure ()

omit [JavaChar] in
def connectDomain (domain : RouterDomain) : Proc Unit := do
  modify fun s => { s with domain := some domain }
  doConnect E domain

end

/-! ### Events -/

inductive Event where
  /-- `connectDomain`, until `connect` has returned. -/
  | connectDomain (domain : RouterDomain)
  /-- `doConnect` sets the callbacks of the client, while its first channel may be on its way. -/
  | onConnected
  | onDisconnected
  /-- `DomainService.init` sets the callbacks. -/
  | onMessage
  | onAuthenticated
  /-- The pipeline of a channel is set up. -/
  | initChannel (c : ℕ)
  /-- A channel has its TCP connection. -/
  | connected (c : ℕ)
  | message (c : ℕ) (content : MessageContentOutput)
  /-- A channel is gone, after it was closed or has failed to connect. -/
  | removed (c : ℕ)
  /-- A scheduled reconnection is due. -/
  | reconnect
  | sendMessage (m : MessageContent)

def initChannel (c : ℕ) : Proc Unit := do
  modify (State.onClient fun t => { t with socketClientHandler := some c })
  modify (State.onChannel c fun k => { k with phase := .registered })
  -- `handlerAdded`
  modify (State.onChannel c fun k => { k with context := true })

/-- The listener of `bootstrap.connect`. -/
def operationComplete [JavaChar] (E : Config) (c : ℕ) : Proc Unit := do
  modify (State.onChannel c fun k => { k with phase := .connected })
  let t ← socketClient
  if t.connectedCallback then onConnected E else pure ()

def channelRead0 (c : ℕ) (content : MessageContentOutput) : Proc Unit := do
  modify (State.onChannel c fun k => { k with received := k.received ++ [content] })
  let t ← socketClient
  if t.msgCallback then onMessageArrived content else pure ()

def handlerRemoved (c : ℕ) : Proc Unit := do
  let t ← socketClient
  if t.disconnectedCallback then onDisconnected else pure ()
  modify (State.onChannel c fun k => { k with context := false })

/-- The handler is removed where it has been in the pipeline. -/
def channelRemoved (c : ℕ) : Proc Unit := do
  let phase ← read fun s => (s.channel c).phase
  modify (State.onChannel c fun k => { k with phase := .removed })
  if phase.isPiped then handlerRemoved c else pure ()

/-- What `scheduleReconnection` has scheduled. -/
def fire : Proc Unit := do
  modify fun s => { s with scheduled := s.scheduled - 1 }
  TcpSocketClient.reconnect

/-- `connect` has returned, and the connected callback is not set. -/
def State.toConnected (s : State) : Bool :=
  s.socketClient.any fun t => 0 < t.made && !t.connectedCallback

/-- The connected callback is set, and the other one is not. -/
def State.toDisconnected (s : State) : Bool :=
  s.socketClient.any fun t => t.connectedCallback && !t.disconnectedCallback

/-- The events of a tunnel.  What a callback throws ends in the event loop. -/
def system [JavaChar] (E : Config) : System State Event where
  step s e := match e with
    -- a tunnel is made for one domain
    | .connectDomain domain =>
      if s.domain.isNone then
        some ((startConnecting E domain).run { s with domain := some domain }).2
      else none
    | .onConnected => if s.toConnected then some (setConnectedCallback.run s).2 else none
    | .onDisconnected => if s.toDisconnected then some (setDisconnectedCallback.run s).2 else none
    | .onMessage => some { s with msgCallback := true }
    | .onAuthenticated => some { s with onAuthenticatedCallback := true }
    | .initChannel c =>
      if (s.channel c).phase = .registering then some ((initChannel c).run s).2 else none
    | .connected c =>
      if (s.channel c).phase = .registered then some ((operationComplete E c).run s).2 else none
    -- the decoder may have read more than one message when the first of them closes the channel
    | .message c content =>
      if (s.channel c).phase = .connected ∨ (s.channel c).phase = .closing then
        some ((channelRead0 c content).run s).2
      else none
    | .removed c => if (s.channel c).phase.isLive then some ((channelRemoved c).run s).2 else none
    | .reconnect => if 0 < s.scheduled then some (fire.run s).2 else none
    | .sendMessage m => some ((sendMessage m).run s).2

/-! ### What a tunnel knows -/

/-- A channel that is open and on which a positive reply has come. -/
def Channel.IsAdmitted (k : Channel) : Prop :=
  k.phase = .connected ∧ ∃ content ∈ k.received, content.reply? = some true

def Usable (s : State) : Prop := isConnected s = true → ∃ c, (s.channel c).IsAdmitted

/-- The message is written to an open channel with a positive reply, or `sendMessage` throws. -/
def Sends (s : State) (m : MessageContent) : Prop :=
  (∃ text, (sendMessage m).run s = (.error (.notConnected text), s)) ∨
    ∃ c, (s.channel c).IsAdmitted ∧ (sendMessage m).run s =
      (.ok (), s.onChannel c fun k => { k with written := k.written ++ [m] })

/-- No channel goes while the tunnel is authenticated, and none that has been closed authenticates it. -/
def Meets (s : State) : Event → Prop
  | .removed _ => s.isAuthenticated = false
  | .message c content =>
    (content.reply? = some false → s.isAuthenticated = false) ∧
      (content.reply? = some true → (s.channel c).phase = .connected)
  | _ => True

/-! ### What does not matter -/

/-- A client without what has been written to its channels. -/
def TcpSocketClient.core (t : TcpSocketClient) : TcpSocketClient :=
  { t with channel := fun c => { t.channel c with written := [] } }

/-- A state without what has been written and handed on. -/
def State.core (s : State) : State :=
  { s with handed := [], socketClient := s.socketClient.map TcpSocketClient.core }

/-- Only what has been written and handed on may differ. -/
def Quiet (s s' : State) : Prop := s'.core = s.core

instance : IsPreorder State Quiet where
  refl _ := rfl
  trans _ _ _ h h' := h'.trans h

@[simp] theorem socketClient_onClient (s : State) (f : TcpSocketClient → TcpSocketClient) :
    (s.onClient f).socketClient = s.socketClient.map f := rfl

@[simp] theorem run_socketClient_some {s : State} {t : TcpSocketClient} (h : s.socketClient = some t) :
    socketClient.run s = (.ok t, s) := by
  simp [socketClient, h]

theorem quiet_writeAndFlush (c : ℕ) (m : MessageContent) (s : State) :
    Quiet s (s.onChannel c (Channel.writeAndFlush m)) := by
  have hcore : ∀ k : Channel, { k.writeAndFlush m with written := [] } = { k with written := [] } := by
    intro k
    rw [Channel.writeAndFlush]
    split <;> rfl
  have hclient : TcpSocketClient.core ∘ TcpSocketClient.update c (Channel.writeAndFlush m) =
      TcpSocketClient.core := by
    funext t
    simp only [Function.comp, TcpSocketClient.core, TcpSocketClient.update, TcpSocketClient.mk.injEq,
      true_and, and_true]
    funext c'
    rcases eq_or_ne c' c with rfl | hne
    · rw [Function.update_self, hcore]
    · rw [Function.update_of_ne hne]
  simp only [Quiet, State.core, State.onChannel, State.onClient, Option.map_map, hclient]

theorem quiet_socketClient : Moves Quiet socketClient :=
  (Moves.read _).bind fun client => by
    cases client with
    | none => exact .fail _
    | some t => exact .pure t

theorem quiet_tcpSendMessage (m : MessageContent) : Moves Quiet (TcpSocketClient.sendMessage m) := by
  refine .bind (quiet_socketClient.bind fun t => ?_) fun c => quiet_socketClient.bind fun t => ?_
  · cases t.socketClientHandler with
    | none => exact .fail _
    | some c => exact .pure c
  · exact .ite (.modify (quiet_writeAndFlush c m)) (.pure ())

theorem quiet_sendMessage (m : MessageContent) : Moves Quiet (sendMessage m) :=
  (Moves.read _).bind fun _ =>
    .ite (quiet_tcpSendMessage m) ((Moves.read _).bind fun _ => .fail _)

theorem quiet_fetchMissingMessages : Moves Quiet DomainService.fetchMissingMessages :=
  (quiet_sendMessage _).recover fun e => by
    cases e with
    | notConnected _ => exact .pure ()
    | java _ => exact .fail _

theorem quiet_onMessage (content : MessageContentOutput) :
    Moves Quiet (DomainService.onMessage content) := by
  rw [DomainService.onMessage]
  split
  · exact .fail _
  · exact .modify fun _ => rfl
  · rw [DomainService.handleFetchingMessagesComplete]
    split
    · exact .fail _
    · exact .ite quiet_fetchMissingMessages (.pure ())
    · exact .fail _
  · exact .pure ()

/-! ### What a message does -/

theorem quiet_onMessageArrived {content : MessageContentOutput} (h : content.reply? = none) :
    Moves Quiet (onMessageArrived content) := by
  rw [onMessageArrived]
  split
  · exact .fail _
  · next htype =>
    split
    · exact .fail _
    · exact .fail _
    · next reply hreply =>
      have hdata := Data.convert_eq_some hreply
      rw [MessageContentOutput.reply?, if_pos htype, hdata, Option.bind_some] at h
      rw [handleAuthReplay, h]
      exact .fail _
  · exact (Moves.read _).bind fun _ => .ite (quiet_onMessage content) (.pure ())

/-- A reply is read off its content. -/
theorem onMessageArrived_reply {content : MessageContentOutput} {b : Bool}
    (h : content.reply? = some b) : ∃ reply : AuthClientReply, reply.isAuthenticated = some b ∧
      onMessageArrived content = handleAuthReplay reply := by
  rw [MessageContentOutput.reply?] at h
  split_ifs at h with htype
  obtain ⟨reply, hdata, hreply⟩ := Option.bind_eq_some_iff.1 h
  refine ⟨reply, hreply, ?_⟩
  rw [Data.authClientReply?_eq_some] at hdata
  rw [onMessageArrived, htype, hdata]
  rfl

theorem quiet_onMessageArrived_positive {content : MessageContentOutput}
    (h : content.reply? = some true) (s : State) :
    Quiet { s with isAuthenticated := true } ((onMessageArrived content).run s).2 := by
  obtain ⟨reply, hreply, heq⟩ := onMessageArrived_reply h
  rw [heq, handleAuthReplay, hreply]
  have hcallback : Moves Quiet (do
      let callback ← read State.onAuthenticatedCallback
      if callback then DomainService.fetchMissingMessages else pure ()) :=
    (Moves.read _).bind fun _ => .ite quiet_fetchMissingMessages (.pure ())
  exact hcallback _

theorem run_onMessageArrived_negative {content : MessageContentOutput}
    (h : content.reply? = some false) {s : State} {t : TcpSocketClient} {c : ℕ}
    (ht : s.socketClient = some t) (hc : t.socketClientHandler = some c)
    (hcontext : (t.channel c).context = true) :
    (onMessageArrived content).run s = (.ok (), s.onChannel c Channel.close) := by
  obtain ⟨reply, hreply, heq⟩ := onMessageArrived_reply h
  rw [heq, handleAuthReplay, hreply]
  have hhandler : TcpSocketClient.handler.run s = (.ok c, s) := by
    rw [TcpSocketClient.handler, run_bind_ok (run_socketClient_some ht), hc, run_pure]
  show TcpSocketClient.disconnect.run s = _
  rw [TcpSocketClient.disconnect, run_bind_ok hhandler, run_bind_ok (run_socketClient_some ht),
    if_pos hcontext, run_modify]

/-! ### The channel of a tunnel -/

/-- There is at most one channel, or a reconnection is scheduled; the channel is the handler's. -/
structure Wired (t : TcpSocketClient) (n : ℕ) : Prop where
  single : ∀ c c', (t.channel c).phase.isLive = true → (t.channel c').phase.isLive = true → c = c'
  waiting : ∀ c, (t.channel c).phase.isLive = true → n = 0
  scheduled : n ≤ 1
  handler : ∀ c, (t.channel c).phase.isPiped = true →
    t.socketClientHandler = some c ∧ (t.channel c).context = true
  /-- Only the first channel is there before the connected callback is set. -/
  called : t.disconnectedCallback = true ∨ t.msgCallback = true ∨ 0 < n ∨ 1 < t.made →
    t.connectedCallback = true
  /-- Only what a channel has said closes it. -/
  closing : ∀ c, (t.channel c).phase = .closing → t.msgCallback = true

structure State.IsWired (s : State) : Prop where
  none : s.socketClient = none → s.isAuthenticated = false ∧ s.scheduled = 0
  some : ∀ t, s.socketClient = some t → s.domain.isSome = true ∧ Wired t s.scheduled
  listening : s.isAuthenticated = true → ∀ t, s.socketClient = .some t → t.msgCallback = true

theorem wired_core {t : TcpSocketClient} {n : ℕ} : Wired t.core n ↔ Wired t n :=
  ⟨fun h => ⟨h.single, h.waiting, h.scheduled, h.handler, h.called, h.closing⟩,
    fun h => ⟨h.single, h.waiting, h.scheduled, h.handler, h.called, h.closing⟩⟩

theorem isWired_core {s : State} : s.core.IsWired ↔ s.IsWired := by
  refine ⟨fun h => ⟨fun hnone => ?_, fun t ht => ?_, fun hauth t ht => ?_⟩,
    fun h => ⟨fun hnone => ?_, fun t ht => ?_, fun hauth t ht => ?_⟩⟩
  · exact h.none (by simp [State.core, hnone])
  · obtain ⟨hdomain, hwired⟩ := h.some t.core (by simp [State.core, ht])
    exact ⟨hdomain, wired_core.1 hwired⟩
  · exact h.listening hauth t.core (by simp [State.core, ht])
  · exact h.none (Option.map_eq_none_iff.1 hnone)
  · obtain ⟨t', ht', rfl⟩ := Option.map_eq_some_iff.1 ht
    obtain ⟨hdomain, hwired⟩ := h.some t' ht'
    exact ⟨hdomain, wired_core.2 hwired⟩
  · obtain ⟨t', ht', rfl⟩ := Option.map_eq_some_iff.1 ht
    exact h.listening hauth t' ht'

theorem isAdmitted_core {s : State} {c : ℕ} :
    (s.core.channel c).IsAdmitted ↔ (s.channel c).IsAdmitted := by
  rcases hclient : s.socketClient with _ | t
  · simp [State.channel, State.core, hclient]
  · simp [State.channel, State.core, hclient, TcpSocketClient.core, Channel.IsAdmitted]

theorem usable_core {s : State} : Usable s.core ↔ Usable s := by
  have hconnected : isConnected s.core = isConnected s := by
    simp [isConnected, State.core]
  rw [Usable, Usable, hconnected]
  simp only [isAdmitted_core]

theorem Quiet.isWired {s s' : State} (h : Quiet s s') (hs : s.IsWired) : s'.IsWired :=
  isWired_core.1 (h ▸ isWired_core.2 hs)

theorem Quiet.usable_iff {s s' : State} (h : Quiet s s') : Usable s' ↔ Usable s := by
  rw [← usable_core, h, usable_core]

theorem usable_of_not_authenticated {s : State} (h : s.isAuthenticated = false) : Usable s := by
  intro hconnected
  simp [isConnected, h] at hconnected

/-- A client of which at most channel `c` is there. -/
theorem wired_of_others {t : TcpSocketClient} {c n : ℕ}
    (hother : ∀ c', c' ≠ c → (t.channel c').phase.isLive = false) (hn : n ≤ 1)
    (hwaiting : (t.channel c).phase.isLive = true → n = 0)
    (hhandler : (t.channel c).phase.isPiped = true →
      t.socketClientHandler = some c ∧ (t.channel c).context = true)
    (hcalled : t.disconnectedCallback = true ∨ t.msgCallback = true ∨ 0 < n ∨ 1 < t.made →
      t.connectedCallback = true)
    (hclosing : (t.channel c).phase = .closing → t.msgCallback = true) : Wired t n := by
  have hc : ∀ c', (t.channel c').phase.isLive = true → c' = c := fun c' hlive => by
    by_contra hne
    rw [hother c' hne] at hlive
    cases hlive
  have hlive : ∀ c', (t.channel c').phase.isPiped = true → (t.channel c').phase.isLive = true := by
    intro c' h
    cases hphase : (t.channel c').phase <;> simp_all [Phase.isPiped, Phase.isLive]
  refine ⟨fun c₁ c₂ h₁ h₂ => (hc c₁ h₁).trans (hc c₂ h₂).symm, ?_, hn, ?_, hcalled, ?_⟩
  · intro c' h
    cases hc c' h
    exact hwaiting h
  · intro c' h
    cases hc c' (hlive c' h)
    exact hhandler h
  · intro c' h
    cases hc c' (by rw [h]; rfl)
    exact hclosing h

theorem Wired.others {t : TcpSocketClient} {c n : ℕ} (h : Wired t n)
    (hc : (t.channel c).phase.isLive = true) (k : Channel) {c' : ℕ} (hne : c' ≠ c) :
    (Function.update t.channel c k c').phase.isLive = false := by
  rw [Function.update_of_ne hne]
  by_contra hlive
  rw [Bool.not_eq_false] at hlive
  exact hne (h.single c' c hlive hc)

theorem Wired.not_connected {t : TcpSocketClient} {c n : ℕ} (h : Wired t n)
    (hlive : (t.channel c).phase.isLive = true) (hc : (t.channel c).phase ≠ .connected) (c' : ℕ) :
    (t.channel c').phase ≠ .connected := by
  intro hc'
  cases h.single c' c (by rw [hc']; rfl) hlive
  exact hc hc'

theorem isWired_of_client {s : State} {t : TcpSocketClient} (ht : s.socketClient = some t)
    (hdomain : s.domain.isSome = true) (h : Wired t s.scheduled)
    (hlistening : s.isAuthenticated = true → t.msgCallback = true) : s.IsWired := by
  refine ⟨fun hnone => ?_, fun t' ht' => ?_, fun hauth t' ht' => ?_⟩
  · rw [ht] at hnone
    cases hnone
  · rw [ht] at ht'
    cases ht'
    exact ⟨hdomain, h⟩
  · rw [ht] at ht'
    cases ht'
    exact hlistening hauth

theorem channel_of_client {s : State} {t : TcpSocketClient} (ht : s.socketClient = some t) (c : ℕ) :
    s.channel c = t.channel c := by
  rw [State.channel, ht]
  rfl

/-- A channel that is there has a client. -/
theorem exists_client {s : State} {c : ℕ} (h : (s.channel c).phase.isLive = true) :
    ∃ t, s.socketClient = some t := by
  rcases ht : s.socketClient with _ | t
  · rw [State.channel, ht] at h
    cases h
  · exact ⟨t, rfl⟩

/-! ### The steps -/

/-- What a step keeps, and whether the tunnel still knows that it can be used. -/
def Keeps (s s' : State) (e : Event) : Prop := s'.IsWired ∧ (Usable s → (Usable s' ↔ Meets s e))

section

variable {s : State} {t : TcpSocketClient} {c : ℕ}

theorem keeps_of_not_authenticated {s' : State} {e : Event} (h : s'.IsWired)
    (hs' : s'.isAuthenticated = false) (hmeets : Meets s e) : Keeps s s' e :=
  ⟨h, fun _ => iff_of_true (usable_of_not_authenticated hs') hmeets⟩

theorem Quiet.keeps {s₁ s' : State} {e : Event} (h : Quiet s₁ s') (hs₁ : Keeps s s₁ e) : Keeps s s' e :=
  ⟨h.isWired hs₁.1, fun hs => h.usable_iff.trans (hs₁.2 hs)⟩

theorem isLive_of_connected (h : (t.channel c).phase = .connected ∨ (t.channel c).phase = .closing) :
    (t.channel c).phase.isLive = true := by
  rcases h with h | h <;> rw [h] <;> rfl

/-- A tunnel whose only channel is not open cannot be used. -/
theorem usable_iff_of_closed (ht : s.socketClient = some t)
    (hclosed : ∀ c, (t.channel c).phase ≠ .connected) : Usable s ↔ s.isAuthenticated = false := by
  refine ⟨fun h => ?_, usable_of_not_authenticated⟩
  by_contra hauth
  rw [Bool.not_eq_false] at hauth
  obtain ⟨c, hc, -⟩ := h (by simp [isConnected, ht, hauth])
  rw [channel_of_client ht] at hc
  exact hclosed c hc

theorem keeps_initChannel (h : s.IsWired) (hc : (s.channel c).phase = .registering) :
    Keeps s ((initChannel c).run s).2 (.initChannel c) := by
  obtain ⟨t, ht⟩ := exists_client (s := s) (c := c) (by rw [hc]; rfl)
  obtain ⟨hdomain, hwired⟩ := h.some t ht
  rw [channel_of_client ht] at hc
  have hlive : (t.channel c).phase.isLive = true := by rw [hc]; rfl
  have hnext : ((initChannel c).run s).2.socketClient = some { t with
      socketClientHandler := some c
      channel := Function.update t.channel c
        { t.channel c with phase := .registered, context := true } } := by
    simp [initChannel, State.onChannel, State.onClient, ht, TcpSocketClient.update]
  have hsame : ((initChannel c).run s).2.isAuthenticated = s.isAuthenticated := rfl
  refine ⟨isWired_of_client hnext hdomain ?_ ?_, fun hs => iff_of_true ?_ trivial⟩
  · exact wired_of_others (fun c' hne => hwired.others hlive _ hne) hwired.scheduled
      (fun _ => hwired.waiting c hlive) (fun _ => by simp) hwired.called (by simp)
  · rw [hsame]
    exact fun hauth => h.listening hauth t ht
  · refine usable_of_not_authenticated (hsame.trans ?_)
    exact (usable_iff_of_closed ht (hwired.not_connected hlive (by rw [hc]; simp))).1 hs

/-- What `authenticate` sends. -/
def login [JavaChar] (E : Config) : MessageContent :=
  createMessageContent .AUTH_CLIENT
    (.authClient ⟨some (resolveDomainAppName E.domainName),
      some (ProcessorUtils.resolveDomainUserId E.domainName), some ""⟩) (some .RELIABLE)

/-- Channel `c` of the client `t` has its TCP connection, and the tunnel is to sign in. -/
def opened (s : State) (t : TcpSocketClient) (c : ℕ) : State :=
  { s with
    isAuthenticated := false
    socketClient := some { t with
      msgCallback := true
      channel := Function.update t.channel c { t.channel c with phase := .connected } } }

theorem run_operationComplete [JavaChar] {E : Config} (ht : s.socketClient = some t)
    (hcallback : t.connectedCallback = true) : ((operationComplete E c).run s).2 =
      ((TcpSocketClient.sendMessage (login E)).run (opened s t c)).2 := by
  have hopen : (s.onChannel c fun k => { k with phase := .connected }).socketClient =
      some (t.update c fun k => { k with phase := .connected }) := by
    simp [State.onChannel, ht]
  have hcalling : (t.update c fun k => { k with phase := .connected }).connectedCallback = true :=
    hcallback
  have hstate : ({ (s.onChannel c fun k => { k with phase := .connected }).onClient
      fun t => { t with msgCallback := true } with isAuthenticated := false } : State) =
      opened s t c := by
    simp [State.onChannel, State.onClient, ht, opened, TcpSocketClient.update]
  rw [operationComplete, run_modify_bind, run_bind_ok (run_socketClient_some hopen), if_pos hcalling,
    onConnected, run_modify_bind, authenticate, run_modify_bind, hstate]
  rfl

/-- Nobody is told of a connection for which there is no callback yet. -/
theorem run_operationComplete_unset [JavaChar] (E : Config) (ht : s.socketClient = some t)
    (hcallback : t.connectedCallback = false) : (operationComplete E c).run s =
      (.ok (), s.onChannel c fun k => { k with phase := .connected }) := by
  have hopen : (s.onChannel c fun k => { k with phase := .connected }).socketClient =
      some (t.update c fun k => { k with phase := .connected }) := by
    simp [State.onChannel, ht]
  have hcalling : (t.update c fun k => { k with phase := .connected }).connectedCallback = false :=
    hcallback
  rw [operationComplete, run_modify_bind, run_bind_ok (run_socketClient_some hopen), hcalling]
  rfl

theorem keeps_connected [JavaChar] (E : Config) (h : s.IsWired) (hc : (s.channel c).phase = .registered) :
    Keeps s ((operationComplete E c).run s).2 (.connected c) := by
  obtain ⟨t, ht⟩ := exists_client (s := s) (c := c) (by rw [hc]; rfl)
  obtain ⟨hdomain, hwired⟩ := h.some t ht
  rw [channel_of_client ht] at hc
  have hlive : (t.channel c).phase.isLive = true := by rw [hc]; rfl
  obtain ⟨hhandler, hcontext⟩ := hwired.handler c (by rw [hc]; rfl)
  have hopened : ∀ t' : TcpSocketClient, t'.channel =
      Function.update t.channel c { t.channel c with phase := .connected } →
      t'.socketClientHandler = t.socketClientHandler → t'.connectedCallback = t.connectedCallback →
      t'.disconnectedCallback = t.disconnectedCallback → t'.made = t.made →
      (t'.msgCallback = true → t.msgCallback = true ∨ t.connectedCallback = true) →
      Wired t' s.scheduled := by
    intro t' hchannel hhandler' hconnected hdisconnected hmade hmsg
    have hself : t'.channel c = { t.channel c with phase := .connected } := by
      rw [hchannel, Function.update_self]
    refine wired_of_others (fun c' hne => ?_) hwired.scheduled (fun _ => hwired.waiting c hlive)
      (fun _ => ⟨hhandler'.trans hhandler, ?_⟩) ?_ fun hclosing => ?_
    · rw [hchannel]
      exact hwired.others hlive _ hne
    · rw [hself]
      exact hcontext
    · rw [hconnected, hdisconnected, hmade]
      rintro (hset | hset | hlater)
      · exact hwired.called (.inl hset)
      · exact (hmsg hset).elim (fun hset => hwired.called (.inr (.inl hset))) id
      · exact hwired.called (.inr (.inr hlater))
    · rw [hself] at hclosing
      cases hclosing
  cases hcallback : t.connectedCallback with
  | true =>
    -- the login that is written at the end does not matter
    rw [run_operationComplete ht hcallback]
    refine Quiet.keeps (quiet_tcpSendMessage (login E) (opened s t c)) ?_
    refine keeps_of_not_authenticated (isWired_of_client rfl hdomain ?_ fun _ => rfl) rfl trivial
    exact hopened _ rfl rfl rfl rfl rfl fun _ => .inr hcallback
  | false =>
    rw [run_operationComplete_unset E ht hcallback]
    have hclient : (s.onChannel c fun k => { k with phase := .connected }).socketClient =
        some (t.update c fun k => { k with phase := .connected }) := by
      simp [State.onChannel, ht]
    refine ⟨isWired_of_client hclient hdomain (hopened _ rfl rfl rfl rfl rfl .inl) fun hauth => ?_,
      fun hs => iff_of_true (usable_of_not_authenticated ?_) trivial⟩
    · exact h.listening hauth t ht
    · exact (usable_iff_of_closed ht (hwired.not_connected hlive (by rw [hc]; simp))).1 hs

section

variable {content : MessageContentOutput}

/-- The client has read `content` off channel `c`. -/
def TcpSocketClient.reading (t : TcpSocketClient) (c : ℕ) (content : MessageContentOutput) :
    TcpSocketClient :=
  t.update c fun k => { k with received := k.received ++ [content] }

theorem channel_reading : (t.reading c content).channel c =
    { t.channel c with received := (t.channel c).received ++ [content] } := Function.update_self ..

theorem channel_reading_of_ne {c' : ℕ} (hne : c' ≠ c) :
    (t.reading c content).channel c' = t.channel c' := Function.update_of_ne hne ..

@[simp] theorem phase_reading (c' : ℕ) :
    ((t.reading c content).channel c').phase = (t.channel c').phase := by
  rcases eq_or_ne c' c with rfl | hne
  · rw [channel_reading]
  · rw [channel_reading_of_ne hne]

@[simp] theorem context_reading (c' : ℕ) :
    ((t.reading c content).channel c').context = (t.channel c').context := by
  rcases eq_or_ne c' c with rfl | hne
  · rw [channel_reading]
  · rw [channel_reading_of_ne hne]

theorem Wired.reading {n : ℕ} (h : Wired t n) : Wired (t.reading c content) n where
  single c₁ c₂ h₁ h₂ := h.single c₁ c₂ (by simpa using h₁) (by simpa using h₂)
  waiting c' hlive := h.waiting c' (by simpa using hlive)
  scheduled := h.scheduled
  handler c' hpiped := by
    rw [context_reading]
    exact h.handler c' (by simpa using hpiped)
  called := h.called
  closing c' hphase := h.closing c' (by simpa using hphase)

theorem onChannel_received (ht : s.socketClient = some t) :
    (s.onChannel c fun k => { k with received := k.received ++ [content] }) =
      { s with socketClient := some (t.reading c content) } := by
  simp [State.onChannel, State.onClient, ht, TcpSocketClient.reading]

theorem run_channelRead0 (ht : s.socketClient = some t) (hlistening : t.msgCallback = true) :
    ((channelRead0 c content).run s).2 =
      ((onMessageArrived content).run { s with socketClient := some (t.reading c content) }).2 := by
  have hstill : (t.reading c content).msgCallback = true := hlistening
  rw [channelRead0, run_modify_bind, onChannel_received ht, run_bind_ok (run_socketClient_some rfl),
    if_pos hstill]

/-- What is read is dropped while the client has no callback for it. -/
theorem run_channelRead0_unset (ht : s.socketClient = some t) (hunset : t.msgCallback = false) :
    (channelRead0 c content).run s = (.ok (), { s with socketClient := some (t.reading c content) }) := by
  have hstill : (t.reading c content).msgCallback = false := hunset
  rw [channelRead0, run_modify_bind, onChannel_received ht, run_bind_ok (run_socketClient_some rfl),
    hstill]
  rfl

/-- What is not a reply leaves the channel on which the tunnel has signed in. -/
theorem usable_reading (ht : s.socketClient = some t) (hs : Usable s) :
    Usable { s with socketClient := some (t.reading c content) } := by
  intro hconnected
  obtain ⟨c', hphase, o, ho, hpositive⟩ := hs (by simpa [isConnected, ht] using hconnected)
  rw [channel_of_client ht] at hphase ho
  refine ⟨c', ?_, o, ?_, hpositive⟩
  · rw [channel_of_client (t := t.reading c content) rfl, phase_reading]
    exact hphase
  · rw [channel_of_client (t := t.reading c content) rfl]
    rcases eq_or_ne c' c with rfl | hne
    · rw [channel_reading]
      exact List.mem_append_left _ ho
    · rw [channel_reading_of_ne hne]
      exact ho

/-- After a positive reply the tunnel can be used if the channel of the reply is open. -/
theorem usable_positive_iff (hwired : Wired t s.scheduled) (hlive : (t.channel c).phase.isLive = true)
    (hreply : content.reply? = some true) :
    Usable { s with socketClient := some (t.reading c content), isAuthenticated := true } ↔
      (t.channel c).phase = .connected := by
  refine ⟨fun husable => ?_, fun hphase _ => ⟨c, ?_, content, ?_, hreply⟩⟩
  · obtain ⟨c', hphase, -⟩ := husable rfl
    rw [channel_of_client (t := t.reading c content) rfl, phase_reading] at hphase
    -- the client has no other channel
    cases hwired.single c' c (by rw [hphase]; rfl) hlive
    exact hphase
  · rw [channel_of_client (t := t.reading c content) rfl, phase_reading]
    exact hphase
  · rw [channel_of_client (t := t.reading c content) rfl, channel_reading]
    exact List.mem_append_right _ List.mem_cons_self

/-- A client whose only channel is not open has no open channel. -/
theorem not_connected_of_others (hother : ∀ c', c' ≠ c → (t.channel c').phase.isLive = false)
    (hc : (t.channel c).phase ≠ .connected) (c' : ℕ) : (t.channel c').phase ≠ .connected := by
  rcases eq_or_ne c' c with rfl | hne
  · exact hc
  · intro hphase
    have hlive := hother c' hne
    rw [hphase] at hlive
    cases hlive

/-- A negative reply closes the channel. -/
theorem wired_close {n : ℕ} (hwired : Wired t n)
    (hc : (t.channel c).phase = .connected ∨ (t.channel c).phase = .closing)
    (hlistening : t.msgCallback = true) :
    Wired (t.update c Channel.close) n ∧
      ∀ c', ((t.update c Channel.close).channel c').phase ≠ .connected := by
  have hlive := isLive_of_connected hc
  have hother : ∀ c', c' ≠ c → ((t.update c Channel.close).channel c').phase.isLive = false :=
    fun c' hne => hwired.others hlive _ hne
  have hclosing : (t.update c Channel.close).channel c = (t.channel c).close :=
    Function.update_self ..
  obtain ⟨hhandler, hcontext⟩ := hwired.handler c (by rcases hc with hc | hc <;> rw [hc] <;> rfl)
  refine ⟨?_, not_connected_of_others hother (by rw [hclosing]; simp [Channel.close])⟩
  refine wired_of_others hother hwired.scheduled (fun _ => hwired.waiting c hlive)
    (fun _ => ⟨hhandler, ?_⟩) hwired.called fun _ => hlistening
  rw [hclosing]
  exact hcontext

theorem keeps_message (h : s.IsWired)
    (hc : (s.channel c).phase = .connected ∨ (s.channel c).phase = .closing) :
    Keeps s ((channelRead0 c content).run s).2 (.message c content) := by
  obtain ⟨t, ht⟩ := exists_client (s := s) (c := c) (by rcases hc with hc | hc <;> rw [hc] <;> rfl)
  obtain ⟨hdomain, hwired⟩ := h.some t ht
  rw [channel_of_client ht] at hc
  have hreading : Wired (t.reading c content) s.scheduled := hwired.reading
  cases hlistening : t.msgCallback with
  | false =>
    -- the tunnel has not signed in, and the channel has not been closed
    have hauth : s.isAuthenticated = false := by
      by_contra hauth
      rw [Bool.not_eq_false] at hauth
      rw [h.listening hauth t ht] at hlistening
      cases hlistening
    have hopen : (t.channel c).phase = .connected := by
      refine hc.resolve_right fun hclosing => ?_
      rw [hwired.closing c hclosing] at hlistening
      cases hlistening
    rw [run_channelRead0_unset ht hlistening]
    refine keeps_of_not_authenticated (isWired_of_client rfl hdomain hreading fun hauth' => ?_) hauth
      ⟨fun _ => hauth, fun _ => ?_⟩
    · rw [hauth] at hauth'
      cases hauth'
    · rw [channel_of_client ht, hopen]
  | true =>
  rw [run_channelRead0 ht hlistening]
  cases hreply : content.reply? with
  | none =>
    refine (quiet_onMessageArrived hreply _).keeps
      ⟨isWired_of_client rfl hdomain hreading fun _ => hlistening,
        fun hs => iff_of_true (usable_reading ht hs) ?_⟩
    simp [Meets, hreply]
  | some b =>
    cases b with
    | true =>
      refine (quiet_onMessageArrived_positive hreply _).keeps
        ⟨isWired_of_client rfl hdomain hreading fun _ => hlistening, fun _ => ?_⟩
      refine (usable_positive_iff hwired (isLive_of_connected hc) hreply).trans ?_
      simp [Meets, hreply, channel_of_client ht]
    | false =>
      have hc' : ((t.reading c content).channel c).phase = .connected ∨
          ((t.reading c content).channel c).phase = .closing := by simpa using hc
      obtain ⟨hhandler, hcontext⟩ := hreading.handler c
        (by rcases hc' with hc' | hc' <;> rw [hc'] <;> rfl)
      obtain ⟨hclosed, hnone⟩ := wired_close hreading hc' hlistening
      rw [run_onMessageArrived_negative hreply (t := t.reading c content) rfl hhandler hcontext]
      refine ⟨isWired_of_client rfl hdomain hclosed fun _ => hlistening, fun _ => ?_⟩
      refine (usable_iff_of_closed rfl hnone).trans ?_
      simp [Meets, hreply, State.onChannel, State.onClient]

end

/-- Channel `c` of the client `t` is gone: its handler has lost the context if it had one. -/
structure Gone (s s' : State) (t t' : TcpSocketClient) (c : ℕ) : Prop where
  client : s'.socketClient = some t'
  domain : s'.domain = s.domain
  isAuthenticated : s'.isAuthenticated = s.isAuthenticated
  scheduled : s'.scheduled ≤ s.scheduled + 1
  /-- A reconnection is scheduled by the callback. -/
  reconnects : 0 < s'.scheduled → 0 < s.scheduled ∨ t.disconnectedCallback = true
  channel : ∃ k, t'.channel = Function.update t.channel c k ∧ k.phase = .removed ∧
    k.received = (t.channel c).received ∧ ((t.channel c).phase.isPiped = true → k.context = false)
  handler : t'.socketClientHandler = t.socketClientHandler
  callbacks : t'.connectedCallback = t.connectedCallback ∧
    t'.disconnectedCallback = t.disconnectedCallback ∧ t'.msgCallback = t.msgCallback
  made : t'.made = t.made

theorem exists_gone (ht : s.socketClient = some t) :
    ∃ t', Gone s ((channelRemoved c).run s).2 t t' c := by
  have hremoved : (s.onChannel c fun k => { k with phase := .removed }).socketClient =
      some (t.update c fun k => { k with phase := .removed }) := by
    simp [State.onChannel, ht]
  let left : TcpSocketClient := (t.update c fun k => { k with phase := .removed }).update c
    fun k => { k with context := false }
  have hleft : ∃ k, left.channel = Function.update t.channel c k ∧ k.phase = .removed ∧
      k.received = (t.channel c).received ∧
      ((t.channel c).phase.isPiped = true → k.context = false) := by
    refine ⟨{ t.channel c with phase := .removed, context := false }, ?_, rfl, rfl, fun _ => rfl⟩
    simp [left, TcpSocketClient.update]
  rw [channelRemoved, run_read_bind, run_modify_bind, channel_of_client ht]
  split
  · rw [handlerRemoved, run_bind_ok (run_socketClient_some hremoved)]
    split
    · next hcallback =>
      refine ⟨left, ?_, rfl, rfl, le_rfl, fun _ => .inr hcallback, hleft, rfl, ⟨rfl, rfl, rfl⟩, rfl⟩
      simp [onDisconnected, scheduleReconnection, State.onChannel, State.onClient, ht, left]
    · refine ⟨left, ?_, rfl, rfl, Nat.le_succ _, .inl, hleft, rfl, ⟨rfl, rfl, rfl⟩, rfl⟩
      simp [State.onChannel, State.onClient, ht, left]
  · next hpiped =>
    exact ⟨_, hremoved, rfl, rfl, Nat.le_succ _, .inl, ⟨_, rfl, rfl, rfl, fun h => absurd h hpiped⟩,
      rfl, ⟨rfl, rfl, rfl⟩, rfl⟩

theorem keeps_removed (h : s.IsWired) (hlive : (s.channel c).phase.isLive = true) :
    Keeps s ((channelRemoved c).run s).2 (.removed c) := by
  obtain ⟨t, ht⟩ := exists_client hlive
  obtain ⟨hdomain, hwired⟩ := h.some t ht
  rw [channel_of_client ht] at hlive
  have hzero := hwired.waiting c hlive
  obtain ⟨t', hgone⟩ := exists_gone (c := c) ht
  obtain ⟨k, hchannel, hk, -, -⟩ := hgone.channel
  have hself : t'.channel c = k := by rw [hchannel, Function.update_self]
  have hother : ∀ c', c' ≠ c → (t'.channel c').phase.isLive = false := fun c' hne => by
    rw [hchannel]
    exact hwired.others hlive k hne
  have hclosed := not_connected_of_others hother (by rw [hself, hk]; simp)
  obtain ⟨hconnected, hdisconnected, hmsg⟩ := hgone.callbacks
  refine ⟨isWired_of_client hgone.client (hgone.domain ▸ hdomain) ?_ ?_, fun _ => ?_⟩
  · refine wired_of_others hother ?_ ?_ ?_ ?_ ?_
    · have := hgone.scheduled
      omega
    · simp [hself, hk, Phase.isLive]
    · simp [hself, hk, Phase.isPiped]
    · rw [hconnected, hdisconnected, hmsg, hgone.made]
      rintro (hset | hset | hscheduled | hmade)
      · exact hwired.called (.inl hset)
      · exact hwired.called (.inr (.inl hset))
      · rcases hgone.reconnects hscheduled with hscheduled | hset
        · exact hwired.called (.inr (.inr (.inl hscheduled)))
        · exact hwired.called (.inl hset)
      · exact hwired.called (.inr (.inr (.inr hmade)))
    · simp [hself, hk]
  · rw [hgone.isAuthenticated, hmsg]
    exact fun hauth => h.listening hauth t ht
  · rw [usable_iff_of_closed hgone.client hclosed, hgone.isAuthenticated]
    rfl

/-- A client without a channel gets one. -/
theorem wired_of_registering {t' : TcpSocketClient} {k : Channel}
    (hnone : ∀ c, (t.channel c).phase.isLive = false)
    (hchannel : t'.channel = Function.update t.channel c k) (hk : k.phase = .registering)
    (hcalled : t'.disconnectedCallback = true ∨ t'.msgCallback = true ∨ 1 < t'.made →
      t'.connectedCallback = true) : Wired t' 0 := by
  have hself : t'.channel c = k := by rw [hchannel, Function.update_self]
  refine wired_of_others (c := c) (fun c' hne => ?_) (Nat.zero_le 1) (fun _ => rfl) ?_ ?_ ?_
  · rw [hchannel, Function.update_of_ne hne]
    exact hnone c'
  · simp [hself, hk, Phase.isPiped]
  · rintro (hset | hset | hpos | hmade)
    · exact hcalled (.inl hset)
    · exact hcalled (.inr (.inl hset))
    · exact absurd hpos (Nat.lt_irrefl 0)
    · exact hcalled (.inr (.inr hmade))
  · simp [hself, hk]

/-- What `doConnect` does with the client. -/
theorem run_tcpDoConnect (ht : s.socketClient = some t) :
    TcpSocketClient.doConnect.run s = (.error (.java .illegalArgument), s) ∨
      TcpSocketClient.doConnect.run s = (.ok (), s.onClient TcpSocketClient.bootstrap) := by
  rw [TcpSocketClient.doConnect, run_bind_ok (run_socketClient_some ht)]
  split
  · exact .inr rfl
  · exact .inl rfl

theorem keeps_reconnect (h : s.IsWired) (hs : 0 < s.scheduled) :
    Keeps s (fire.run s).2 .reconnect := by
  obtain ⟨t, ht⟩ : ∃ t, s.socketClient = some t := by
    rcases ht : s.socketClient with _ | t
    · exact absurd (h.none ht).2 (Nat.pos_iff_ne_zero.1 hs)
    · exact ⟨t, rfl⟩
  obtain ⟨hdomain, hwired⟩ := h.some t ht
  have hnone : ∀ c, (t.channel c).phase.isLive = false := fun c => by
    by_contra hlive
    rw [Bool.not_eq_false] at hlive
    have := hwired.waiting c hlive
    omega
  have hzero : s.scheduled - 1 = 0 := by
    have := hwired.scheduled
    omega
  -- the reconnection is due, and the host and the port are as they were
  let s₁ : State := { s with scheduled := s.scheduled - 1 }
  have hsame : s₁.onClient (fun t' => { t' with host := t.host, port := t.port }) = s₁ := by
    simp [s₁, State.onClient, ht]
  have hrun : fire.run s = TcpSocketClient.doConnect.run s₁ := by
    rw [fire, run_modify_bind, TcpSocketClient.reconnect,
      run_bind_ok (run_socketClient_some (s := s₁) ht), TcpSocketClient.connect, run_modify_bind, hsame]
  have hcalled : t.connectedCallback = true := hwired.called (.inr (.inr (.inl hs)))
  have hwired₁ : Wired t 0 :=
    ⟨hwired.single, fun _ _ => rfl, Nat.zero_le 1, hwired.handler, fun _ => hcalled, hwired.closing⟩
  have hlistening : s.isAuthenticated = true → t.msgCallback = true := fun hauth =>
    h.listening hauth t ht
  have hend : (fire.run s).2.IsWired ∧ (fire.run s).2.isAuthenticated = s.isAuthenticated := by
    rw [hrun]
    rcases run_tcpDoConnect (s := s₁) ht with hrun | hrun
    · rw [hrun]
      refine ⟨isWired_of_client (s := s₁) ht hdomain ?_ hlistening, rfl⟩
      show Wired t (s.scheduled - 1)
      rw [hzero]
      exact hwired₁
    · rw [hrun]
      have hclient : (s₁.onClient TcpSocketClient.bootstrap).socketClient = some t.bootstrap := by
        simp [s₁, ht]
      refine ⟨isWired_of_client hclient hdomain ?_ hlistening, rfl⟩
      show Wired t.bootstrap (s.scheduled - 1)
      rw [hzero]
      exact wired_of_registering hnone rfl rfl fun _ => hcalled
  refine ⟨hend.1, fun husable => iff_of_true (usable_of_not_authenticated ?_) trivial⟩
  rw [hend.2]
  by_contra hauth
  rw [Bool.not_eq_false] at hauth
  obtain ⟨c, hphase, -⟩ := husable (by simp [isConnected, ht, hauth])
  rw [channel_of_client ht] at hphase
  have := hnone c
  rw [hphase] at this
  cases this

theorem keeps_connectDomain (E : Config) (h : s.IsWired) (hs : s.domain = none) (d : RouterDomain) :
    Keeps s ((startConnecting E d).run { s with domain := some d }).2 (.connectDomain d) := by
  have hnone : s.socketClient = none := by
    rcases ht : s.socketClient with _ | t
    · rfl
    · have := (h.some t ht).1
      rw [hs] at this
      cases this
  obtain ⟨hauth, hscheduled⟩ := h.none hnone
  -- a tunnel without a client is not authenticated, and connecting does not change that
  have hkeep : ∀ s' : State, s'.isAuthenticated = s.isAuthenticated → s'.IsWired →
      Keeps s s' (.connectDomain d) := fun s' hauth' h' =>
    keeps_of_not_authenticated h' (hauth'.trans hauth) trivial
  have hunset : ∀ s' : State, s'.socketClient = none → s'.isAuthenticated = s.isAuthenticated →
      s'.scheduled = s.scheduled → s'.IsWired := fun s' hnone' hauth' hscheduled' => by
    refine ⟨fun _ => ⟨hauth'.trans hauth, hscheduled'.trans hscheduled⟩, fun t ht => ?_,
      fun _ t ht => ?_⟩
    all_goals
      rw [hnone'] at ht
      cases ht
  have hunlike : ∀ t : TcpSocketClient, s.isAuthenticated = true → t.msgCallback = true := fun t h => by
    rw [hauth] at h
    cases h
  rw [startConnecting]
  split
  · exact hkeep _ rfl (hunset _ hnone rfl rfl)
  · split
    · exact hkeep _ rfl (hunset _ hnone rfl rfl)
    · next uri _ =>
      let t₀ : TcpSocketClient := { host := uri.host, port := uri.port }
      let s₁ : State := { s with domain := some d, socketClient := some t₀ }
      have hconnect : (TcpSocketClient.connect uri.host uri.port).run
          { s with domain := some d, socketClient := some {} } = TcpSocketClient.doConnect.run s₁ := rfl
      have hempty : ∀ c, (t₀.channel c).phase.isLive = false := fun _ => rfl
      rw [run_modify_bind]
      rcases run_tcpDoConnect (s := s₁) rfl with hrun | hrun
      · rw [run_bind_error (hconnect.trans hrun)]
        refine hkeep _ rfl (isWired_of_client (t := t₀) rfl rfl ?_ (hunlike t₀))
        refine wired_of_others (c := 0) (fun c' _ => hempty c') (hscheduled.le.trans (Nat.zero_le 1))
          (fun _ => hscheduled) ?_ ?_ ?_
        · exact fun hpiped => by cases hpiped
        · rintro (hset | hset | hpos | hmade)
          · cases hset
          · cases hset
          · exact absurd hscheduled (Nat.pos_iff_ne_zero.1 hpos)
          · exact absurd hmade (by simp [t₀])
        · exact fun hphase => by cases hphase
      · rw [run_bind_ok (hconnect.trans hrun)]
        refine hkeep _ rfl (isWired_of_client (t := t₀.bootstrap) rfl rfl ?_ (hunlike t₀.bootstrap))
        show Wired _ s.scheduled
        rw [hscheduled]
        refine wired_of_registering hempty rfl rfl ?_
        rintro (hset | hset | hmade)
        · cases hset
        · cases hset
        · exact absurd hmade (by simp [t₀, TcpSocketClient.bootstrap])

/-- What only sets the callbacks of `doConnect` leaves the channels alone. -/
theorem keeps_onClient {f : TcpSocketClient → TcpSocketClient} {e : Event} (h : s.IsWired)
    (hf : ∀ t, (f t).channel = t.channel ∧ (f t).socketClientHandler = t.socketClientHandler ∧
      (f t).msgCallback = t.msgCallback)
    (hcalled : ∀ t, s.socketClient = some t → (f t).connectedCallback = true) (hmeets : Meets s e) :
    Keeps s (s.onClient f) e := by
  have hchannel : ∀ c, (s.onClient f).channel c = s.channel c := fun c => by
    cases ht : s.socketClient <;> simp [State.channel, ht, (hf _).1]
  refine ⟨⟨fun hnone => h.none (Option.map_eq_none_iff.1 hnone), fun t ht => ?_, fun hauth t ht => ?_⟩,
    fun hs => iff_of_true (fun hconnected => ?_) hmeets⟩
  · obtain ⟨t', ht', rfl⟩ := Option.map_eq_some_iff.1 ht
    obtain ⟨hdomain, hwired⟩ := h.some t' ht'
    obtain ⟨hsame, hhandler, hmsg⟩ := hf t'
    refine ⟨hdomain, ?_, ?_, hwired.scheduled, ?_, fun _ => hcalled t' ht', ?_⟩
    · rw [hsame]
      exact hwired.single
    · rw [hsame]
      exact hwired.waiting
    · rw [hsame, hhandler]
      exact hwired.handler
    · rw [hsame, hmsg]
      exact hwired.closing
  · obtain ⟨t', ht', rfl⟩ := Option.map_eq_some_iff.1 ht
    rw [(hf t').2.2]
    exact h.listening hauth t' ht'
  · simp only [hchannel]
    refine hs ?_
    rw [isConnected, socketClient_onClient, Option.isSome_map] at hconnected
    exact hconnected

theorem keeps_setConnectedCallback (h : s.IsWired) :
    Keeps s (setConnectedCallback.run s).2 .onConnected :=
  keeps_onClient h (fun _ => ⟨rfl, rfl, rfl⟩) (fun _ _ => rfl) trivial

theorem keeps_setDisconnectedCallback (h : s.IsWired) (hto : s.toDisconnected = true) :
    Keeps s (setDisconnectedCallback.run s).2 .onDisconnected := by
  refine keeps_onClient h (fun _ => ⟨rfl, rfl, rfl⟩) (fun t ht => ?_) trivial
  rw [State.toDisconnected, ht, Option.any_some, Bool.and_eq_true] at hto
  exact hto.1

theorem keeps_sendMessage (h : s.IsWired) (m : MessageContent) :
    Keeps s ((sendMessage m).run s).2 (.sendMessage m) :=
  (quiet_sendMessage m s).keeps ⟨h, fun hs => iff_of_true hs trivial⟩

theorem sends_of_usable (h : s.IsWired) (hs : Usable s) (m : MessageContent) : Sends s m := by
  cases hconnected : isConnected s with
  | false =>
    refine .inl ⟨"domain is not connected to domain " ++ orNull (s.domain.map RouterDomain.print), ?_⟩
    rw [sendMessage, run_read_bind, hconnected]
    rfl
  | true =>
    obtain ⟨c, hadmitted⟩ := hs hconnected
    refine .inr ⟨c, hadmitted, ?_⟩
    have hphase := hadmitted.1
    obtain ⟨t, ht⟩ := exists_client (s := s) (c := c) (by rw [hphase]; rfl)
    rw [channel_of_client ht] at hphase
    obtain ⟨hhandler, hcontext⟩ := (h.some t ht).2.handler c (by rw [hphase]; rfl)
    have hrun : TcpSocketClient.handler.run s = (.ok c, s) := by
      rw [TcpSocketClient.handler, run_bind_ok (run_socketClient_some ht), hhandler, run_pure]
    have hwrite : s.onChannel c (Channel.writeAndFlush m) =
        s.onChannel c fun k => { k with written := k.written ++ [m] } := by
      simp [State.onChannel, State.onClient, ht, TcpSocketClient.update, Channel.writeAndFlush, hphase]
    rw [sendMessage, run_read_bind, hconnected, if_pos rfl, TcpSocketClient.sendMessage, run_bind_ok hrun,
      SocketClientHandler.sendMessage, run_bind_ok (run_socketClient_some ht), if_pos hcontext, run_modify,
      hwrite]

/-- Once the channel of an authenticated tunnel is gone, its messages are dropped. -/
theorem run_sendMessage_removed (h : s.IsWired) (hs : Usable s) (hconnected : isConnected s = true)
    (hlive : (s.channel c).phase.isLive = true) (m : MessageContent) :
    (sendMessage m).run ((channelRemoved c).run s).2 = (.ok (), ((channelRemoved c).run s).2) := by
  obtain ⟨t, ht⟩ := exists_client hlive
  have hwired := (h.some t ht).2
  obtain ⟨c', hphase, -⟩ := hs hconnected
  rw [channel_of_client ht] at hphase hlive
  cases hwired.single c' c (by rw [hphase]; rfl) hlive
  have hpiped : (t.channel c).phase.isPiped = true := by rw [hphase]; rfl
  obtain ⟨t', hgone⟩ := exists_gone (c := c) ht
  obtain ⟨k, hchannel, -, -, hcontext⟩ := hgone.channel
  have hlost : (t'.channel c).context = false := by
    rw [hchannel, Function.update_self]
    exact hcontext hpiped
  have hhandler : t'.socketClientHandler = some c :=
    hgone.handler.trans (hwired.handler c hpiped).1
  generalize ((channelRemoved c).run s).2 = s' at hgone ⊢
  have hstill : isConnected s' = true := by
    rw [isConnected, hgone.client, hgone.isAuthenticated]
    rw [isConnected, ht] at hconnected
    exact hconnected
  have hrun : TcpSocketClient.handler.run s' = (.ok c, s') := by
    rw [TcpSocketClient.handler, run_bind_ok (run_socketClient_some hgone.client), hhandler, run_pure]
  rw [sendMessage, run_read_bind, hstill, if_pos rfl, TcpSocketClient.sendMessage, run_bind_ok hrun,
    SocketClientHandler.sendMessage, run_bind_ok (run_socketClient_some hgone.client), hlost]
  rfl

end

section

variable [JavaChar] {E : Config}

theorem keeps_step {s s' : State} {e : Event} (h : s.IsWired) (hst : (system E).step s e = some s') :
    Keeps s s' e := by
  cases e with
  | connectDomain d =>
    obtain ⟨hdomain, hs'⟩ := Option.ite_none_right_eq_some.1 hst
    cases hs'
    exact keeps_connectDomain E h (Option.isNone_iff_eq_none.1 hdomain) d
  | onConnected =>
    obtain ⟨-, hs'⟩ := Option.ite_none_right_eq_some.1 hst
    cases hs'
    exact keeps_setConnectedCallback h
  | onDisconnected =>
    obtain ⟨hto, hs'⟩ := Option.ite_none_right_eq_some.1 hst
    cases hs'
    exact keeps_setDisconnectedCallback h hto
  | onMessage =>
    cases hst
    exact ⟨⟨h.none, h.some, h.listening⟩, fun hs => iff_of_true hs trivial⟩
  | onAuthenticated =>
    cases hst
    exact ⟨⟨h.none, h.some, h.listening⟩, fun hs => iff_of_true hs trivial⟩
  | initChannel c =>
    obtain ⟨hc, hs'⟩ := Option.ite_none_right_eq_some.1 hst
    cases hs'
    exact keeps_initChannel h hc
  | connected c =>
    obtain ⟨hc, hs'⟩ := Option.ite_none_right_eq_some.1 hst
    cases hs'
    exact keeps_connected E h hc
  | message c content =>
    obtain ⟨hc, hs'⟩ := Option.ite_none_right_eq_some.1 hst
    cases hs'
    exact keeps_message h hc
  | removed c =>
    obtain ⟨hc, hs'⟩ := Option.ite_none_right_eq_some.1 hst
    cases hs'
    exact keeps_removed h hc
  | reconnect =>
    obtain ⟨hpos, hs'⟩ := Option.ite_none_right_eq_some.1 hst
    cases hs'
    exact keeps_reconnect h hpos
  | sendMessage m =>
    cases hst
    exact keeps_sendMessage h m

omit [JavaChar] in
theorem isWired_start : start.IsWired :=
  ⟨fun _ => ⟨rfl, rfl⟩, (fun _ ht => by cases ht), fun hauth => by cases hauth⟩

/-- A run whose steps meet the condition so far leaves a tunnel that knows whether it can be used. -/
theorem usable_of_path {l : List (System.Step State Event)} {s : State}
    (h : (system E).Path (fun _ _ => True) start l s) :
    s.IsWired ∧ ((∀ st ∈ l, Meets st.before st.event) → Usable s) ∧
      ((∀ st ∈ l, Usable st.after) ↔ ∀ st ∈ l, Meets st.before st.event) := by
  induction h with
  | nil => exact ⟨isWired_start, fun _ => usable_of_not_authenticated rfl, by simp⟩
  | @snoc l s s' e _ _ hst ih =>
    obtain ⟨hwired, husable, hiff⟩ := ih
    obtain ⟨hwired', hstep⟩ := keeps_step hwired hst
    simp only [List.forall_mem_append, List.forall_mem_singleton]
    refine ⟨hwired', fun hmeets => ?_, ?_⟩
    · exact (hstep (husable hmeets.1)).2 hmeets.2
    · rw [hiff]
      exact and_congr_right fun hmeets => hstep (husable hmeets)

/-- **What a tunnel knows.**  In a run from its start, a tunnel is connected only while it has an open
channel with a positive reply, and `sendMessage` writes to it or throws, exactly as long as no channel
goes, or is closed, while the tunnel is authenticated, and none that has been closed authenticates it. -/
theorem knows_iff {l : List (System.Step State Event)} {s : State}
    (h : (system E).Path (fun _ _ => True) start l s) :
    (∀ st ∈ l, Usable st.after ∧ ∀ m, Sends st.after m) ↔ ∀ st ∈ l, Meets st.before st.event := by
  rw [← (usable_of_path h).2.2]
  refine ⟨fun hknows st hst => (hknows st hst).1, fun husable st hst => ⟨husable st hst, ?_⟩⟩
  obtain ⟨l₁, l₂, rfl⟩ := List.append_of_mem hst
  obtain ⟨hp, hok, hstep⟩ := h.split
  exact fun m => sends_of_usable (usable_of_path (hp.snoc hok hstep)).1 (husable st hst) m

end

/-! ### A connection that is lost -/

section SampleTunnel

attribute [local instance] JavaChar.ascii

/-- The second domain connects to the first. -/
def second : Config where
  domainName := some "domain-02"
  uri _ := some ⟨some "localhost", 9001⟩

def reply (isAuthenticated : Bool) : MessageContentOutput where
  type := some .AUTH_CLIENT_REPLY
  data := .authClientReply ⟨some "domain2", some "domain2-1", some isAuthenticated⟩

/-- The tunnel signs in. -/
def signIn : List Event :=
  [.connectDomain ⟨"domain-01", ["tcp://localhost:9001"]⟩, .onConnected, .onDisconnected,
    .initChannel 0, .connected 0, .message 0 (reply true)]

def meets (s : State) (e : Event) : Bool := match e with
  | .removed _ => !s.isAuthenticated
  | .message c content =>
    (content.reply? != some false || !s.isAuthenticated) &&
      (content.reply? != some true || (s.channel c).phase == .connected)
  | _ => true

theorem meets_of_meets (s : State) (e : Event) (h : meets s e = true) : Meets s e := by
  cases e with
  | removed c =>
    show s.isAuthenticated = false
    simpa [meets] using h
  | message c content =>
    simp only [meets, Bool.and_eq_true, Bool.or_eq_true, bne_iff_ne, beq_iff_eq,
      Bool.not_eq_eq_eq_not, Bool.not_true] at h
    exact ⟨fun hreply => h.1.resolve_left fun hne => hne hreply,
      fun hreply => h.2.resolve_left fun hne => hne hreply⟩
  | _ => trivial

theorem exists_signIn : ∃ l s, (system second).Path Meets start l s ∧ isConnected s = true ∧
    (s.channel 0).phase.isLive = true := by
  have hrun : ((system second).runIf meets start signIn).map
      (fun s => isConnected s && (s.channel 0).phase.isLive) = some true := by
    decide +kernel
  obtain ⟨s, hs, hopen⟩ := Option.map_eq_some_iff.1 hrun
  rw [Bool.and_eq_true] at hopen
  obtain ⟨l, hpath, -⟩ := System.exists_path_of_runIf meets_of_meets hs
  exact ⟨l, s, hpath, hopen⟩

/-- A tunnel that has signed in knows that it can be used. -/
theorem knows_signIn : ∃ l s, (system second).Path (fun _ _ => True) start l s ∧
    isConnected s = true ∧ ∀ st ∈ l, Usable st.after ∧ ∀ m, Sends st.after m := by
  obtain ⟨l, s, hpath, hconnected, -⟩ := exists_signIn
  have hrun : (system second).Path (fun _ _ => True) start l s := hpath.mono fun _ _ _ => trivial
  exact ⟨l, s, hrun, hconnected, (knows_iff hrun).2 fun st hst => (hpath.of_mem hst).2.1⟩

/-- **A lost connection** is not noticed: the tunnel still passes for connected, and drops what it is
given. -/
theorem not_knows : ∃ l s, (system second).Path (fun _ _ => True) start l s ∧ ¬ Usable s ∧
    ∀ m, (sendMessage m).run s = (.ok (), s) := by
  obtain ⟨l, s, hpath, hconnected, hlive⟩ := exists_signIn
  have hrun : (system second).Path (fun _ _ => True) start l s := hpath.mono fun _ _ _ => trivial
  obtain ⟨hwired, husable, -⟩ := usable_of_path hrun
  have hs : Usable s := husable fun st hst => (hpath.of_mem hst).2.1
  have hst : (system second).step s (.removed 0) = some ((channelRemoved 0).run s).2 := if_pos hlive
  refine ⟨_, _, hrun.snoc trivial hst, fun hlost => ?_, run_sendMessage_removed hwired hs hconnected hlive⟩
  have hunset := ((keeps_step hwired hst).2 hs).1 hlost
  rw [isConnected, Bool.and_eq_true] at hconnected
  rw [show s.isAuthenticated = false from hunset] at hconnected
  cases hconnected.2

end SampleTunnel

end DomainTunnel

end Processor

end Linker
