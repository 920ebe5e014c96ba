import Linker.Connector.Rules
import Linker.LTS.Basic

/-!
# The ledger of a connector

Of the state of a connector, the logins concern the sockets, the two maps of `NetworkUserService` and
what is published: its *ledger*.  A connector is a system of events, and `Change` says what each event
can do to the ledger, with nothing of the computations in between.

* `system` : sockets open, clients send, sockets close, records are handed out.
* `Change` : how the ledger changes.
* `change_of_step` : the system refines `Change`.
-/

namespace Linker.Connector

open Exec

/-- The part of the state of a connector that the logins concern. -/
structure Ledger where
  counter : ℤ
  sockets : ℤ → Option Socket
  users : UserMap
  pendingUsers : UserMap
  published : List Message

def State.ledger (s : State) : Ledger :=
  ⟨s.counter, s.sockets, s.users, s.pendingUsers, s.published⟩

/-! ### The system -/

inductive Event where
  /-- A client opens a socket. -/
  | connect
  | receive (socketId : ℤ) (content : MessageContent) (futures : List Bool)
  /-- A socket closes. -/
  | disconnect (socketId : ℤ) (futures : List Bool)
  /-- A record is handed out from the topic of the connector. -/
  | handOut (m : Message) (futures : List Bool)

/-- A connector without a past. -/
structure Initial (s : State) : Prop where
  sockets : ∀ i, s.sockets i = none
  users : ∀ u, s.users u = none
  pendingUsers : ∀ u, s.pendingUsers u = none
  published : s.published = []

section System

variable [JavaChar] (C : Config)

def step (s : State) : Event → Option State
  | .connect => some (initChannel.run s).2
  | .receive i content futures => (s.openSocket i).map fun socket =>
    ((withFutures futures (channelRead0 C i socket content)).run s).2
  | .disconnect i futures => (s.openSocket i).map fun socket =>
    ((withFutures futures (handlerRemoved C i socket)).run s).2
  | .handOut m futures => some ((withFutures futures (PostOffice.onMessageArrived C m)).run s).2

def system : System State Event where
  step := step C

end System

/-! ### Changes of the ledger -/

/-- What is published when `m` is to be delivered: a message without a feature is not. -/
def posted (m : Message) : List Message := if m.feature = none then [] else [m]

namespace Ledger

def openSocket (s : Ledger) (socketId : ℤ) : Option Socket :=
  (s.sockets socketId).filter (·.isOpen)

def alter (i : ℤ) (f : Socket → Socket) (s : Ledger) : Ledger :=
  { s with sockets := fun j => if j = i then (s.sockets j).map f else s.sockets j }

def post (l : List Message) (s : Ledger) : Ledger := { s with published := s.published ++ l }

def connect (s : Ledger) : Ledger :=
  { s with
    counter := s.counter + 1
    sockets := fun j => if j = s.counter + 1 then some {} else s.sockets j }

def addPending (u : String) (i : ℤ) (s : Ledger) : Ledger :=
  { s with pendingUsers := UserMap.addUser u i s.pendingUsers }

def removePending (u : String) (i : ℤ) (s : Ledger) : Ledger :=
  { s with pendingUsers := UserMap.removeUser u i s.pendingUsers }

def addUser (u : String) (i : ℤ) (s : Ledger) : Ledger :=
  { s with users := UserMap.addUser u i s.users }

def removeUser (u : String) (i : ℤ) (s : Ledger) : Ledger :=
  { s with users := UserMap.removeUser u i s.users }

/-- A handler waits for the answer to its request. -/
def asking (u : Option String) (k : Socket) : Socket :=
  { k with userId := u, authStatus := .AUTHENTICATING }

end Ledger

open Ledger (asking)

section Change

variable [JavaChar] (C : Config)

/-- A reply on the login of the socket `i` as `u`, with its verdict. -/
structure RepliesTo (m : Message) (u : String) (i : ℤ) (isAuthenticated : Option Bool) : Prop where
  type : m.type = some .AUTH_CLIENT_REPLY
  data : ∃ d, m.data = .authClientReply d ∧ d.userId = some u ∧ d.isAuthenticated = isAuthenticated
  note : m.note.bind parseLong = some i

/-- The ledger after the reply `m` on the login of the socket `i` as `u`; a reply without a verdict
throws when the login is no longer pending. -/
def Ledger.decided (n : ℕ) (m : Message) (u : String) (i : ℤ) (s : Ledger) : Option Bool → Ledger
  | none => s.removePending u i
  | some true => (((s.removePending u i).addUser u i).alter i fun k =>
      { k with authStatus := .AUTHENTICATED }).post
        (posted (AuthClientReplyMessageProcessor.userConnectedMessage C (C.blank n) (some u) i m.feature))
  | some false => (s.removePending u i).alter i fun k => { k with authStatus := .NOT_AUTHENTICATED }

/-- What an event can do to the ledger. -/
inductive Change (s : Ledger) : Event → Ledger → Prop
  | connect : Change s .connect s.connect
  /-- An `AUTH_CLIENT` of a socket that is not authenticated. -/
  | asked {i k content fs d u} (n : ℕ) : s.openSocket i = some k → content.type = some .AUTH_CLIENT →
      content.data = .authClient d → d.userId = some u → k.authStatus = .NOT_AUTHENTICATED →
      Change s (.receive i content fs) (((s.alter i (asking (some u))).addPending u i).post
        [AuthClientMessageProcessor.request (clientMessage C (C.blank n) i k content) (some u) i])
  /-- The same without a user id: the handler has changed when the map throws. -/
  | nameless {i k content fs d} : s.openSocket i = some k → content.type = some .AUTH_CLIENT →
      content.data = .authClient d → d.userId = none → k.authStatus = .NOT_AUTHENTICATED →
      Change s (.receive i content fs) (s.alter i (asking none))
  /-- A `USER_DISCONNECTED` of a client, whatever the status of its socket. -/
  | left {i k content fs u} (n : ℕ) : s.openSocket i = some k →
      content.type = some .USER_DISCONNECTED → content.data = .userDisconnected (some u) → u ≠ "" →
      Change s (.receive i content fs) (((s.removeUser u i).removePending u i).post
        (posted (clientMessage C (C.blank n) i k content)))
  /-- What the default processor passes on. -/
  | forwarded {i k content fs} (n : ℕ) : s.openSocket i = some k →
      content.type ≠ some .AUTH_CLIENT → content.type ≠ some .USER_DISCONNECTED →
      k.authStatus = .AUTHENTICATED →
      Change s (.receive i content fs) (s.post (posted (clientMessage C (C.blank n) i k content)))
  | ignored {i k content fs} : s.openSocket i = some k → Change s (.receive i content fs) s
  /-- A socket closes without a presence message. -/
  | closed {i k fs} : s.openSocket i = some k →
      k.authStatus = .NOT_AUTHENTICATED ∨ isEmpty k.userId = true →
      Change s (.disconnect i fs) (s.alter i fun k => { k with isOpen := false })
  /-- A socket closes with one. -/
  | departed {i k fs u} (n : ℕ) : s.openSocket i = some k → k.authStatus ≠ .NOT_AUTHENTICATED →
      k.userId = some u → u ≠ "" →
      Change s (.disconnect i fs) ((((s.alter i fun k => { k with isOpen := false }).removeUser u
        i).removePending u i).post [disconnectedMessage C (C.blank n) i k])
  | replied {m fs u i b l} (n : ℕ) : RepliesTo m u i b → i ∈ (s.pendingUsers u).getD [] →
      (∀ r ∈ l, r.type = some MessageType.MESSAGE_STATE_CHANGED) →
      Change s (.handOut m fs) ((s.decided C n m u i b).post l)
  /-- A record that only has the connector report on it. -/
  | reported {m fs l} : (∀ r ∈ l, r.type = some MessageType.MESSAGE_STATE_CHANGED) →
      Change s (.handOut m fs) (s.post l)

end Change

/-! ### Computations and the ledger -/

/-- The ledger has not changed. -/
def Still (s s' : State) : Prop := s'.ledger = s.ledger

instance : IsPreorder State Still where
  refl _ := rfl
  trans _ _ _ h h' := Eq.trans h' h

/-- At most reports have been published. -/
def Reporting (s s' : State) : Prop :=
  ∃ l, (∀ r ∈ l, r.type = some MessageType.MESSAGE_STATE_CHANGED) ∧ s'.ledger = s.ledger.post l

theorem Ledger.post_nil (s : Ledger) : s.post [] = s := by simp [Ledger.post]

theorem Ledger.post_post (s : Ledger) (l l' : List Message) :
    (s.post l).post l' = s.post (l ++ l') := by simp [Ledger.post]

theorem reporting_of_still {s s' : State} (h : Still s s') : Reporting s s' :=
  ⟨[], by simp, by rw [Ledger.post_nil]; exact h⟩

instance : IsPreorder State Reporting where
  refl _ := reporting_of_still rfl
  trans s₁ s₂ s₃ := by
    rintro ⟨l, hl, h⟩ ⟨l', hl', h'⟩
    refine ⟨l ++ l', fun r hr => ?_, by rw [h', h, Ledger.post_post]⟩
    rcases List.mem_append.1 hr with hr | hr
    · exact hl r hr
    · exact hl' r hr

section Frames

variable {C : Config} {R : State → State → Prop} [IsPreorder State R]
  (hR : ∀ s s', Still s s' → R s s')

theorem moves_orNullPointer {α : Type} (o : Option α) : Moves R (orNullPointer o) := by
  cases o with
  | none => exact .fail _
  | some a => exact .pure a

theorem moves_getData {α : Type} (view : Data → Option α) (m : Message) :
    Moves R (getData view m) := by
  refine (moves_orNullPointer _).bind fun c => ?_
  split
  · exact .pure _
  · exact .fail _

include hR

theorem moves_builder : Moves R (builder C) := by
  refine Moves.bind (.read _) fun n => Moves.bind ?_ fun _ => .pure _
  exact Moves.modify fun s => hR _ _ rfl

theorem moves_write (i : ℤ) (message : Option Message) (c : MessageContent) :
    Moves R (SocketHandler.write i message c) := by
  refine Moves.bind (.read _) fun _ => Moves.bind (.read _) fun _ => Moves.bind ?_ fun _ => .pure _
  exact Moves.modify fun s => hR _ _ rfl

theorem moves_sendMessage (i : ℤ) (m : Message) : Moves R (SocketHandler.sendMessage i m) :=
  (moves_orNullPointer _).bind fun c => moves_write hR i (some m) c

omit [IsPreorder State R] in
theorem moves_close (i : ℤ) : Moves R (SocketHandler.close i) := .modify fun _ => hR _ _ rfl

theorem moves_generalError (m : Message) (i : ℤ) : Moves R (do
    let c ← getContent m
    let _ ← SocketHandler.sendContent i { c with type := some .GENERAL_ERROR }
    pure () : Conn Unit) :=
  (moves_orNullPointer _).bind fun _ => (moves_write hR i none _).bind fun _ => .pure ()

end Frames

/-- A handler that leaves the ledger alone does not show in it. -/
theorem ledger_catchException {x : Conn Unit} {h : JavaException → Conn Unit}
    (hh : ∀ e, Moves Still (h e)) (s : State) :
    ((x.catchException h).run s).2.ledger = (x.run s).2.ledger :=
  Keeps.run_recoverIf (I := fun s' => s'.ledger = (x.run s).2.ledger) rfl
    fun e s' _ hs' => (hh e s').trans hs'

theorem run_getData {α : Type} {view : Data → Option α} {m : Message} {c : MessageContent}
    (hc : m.content = some c) (s : State) : (getData view m).run s = (c.data.convert view, s) := by
  have hcontent : (getContent m).run s = (.ok c, s) := by rw [getContent, hc]; rfl
  rw [getData, run_bind_ok hcontent]
  cases c.data.convert view <;> rfl

theorem ledger_deliverMessage {m : Message} {c : MessageContent} (hc : m.content = some c)
    (s : State) : ((PostOffice.deliverMessage m).run s).2.ledger = s.ledger.post (posted m) := by
  have hcontent : (getContent m).run s = (.ok c, s) := by rw [getContent, hc]; rfl
  have hfeature : m.feature = c.feature := by rw [MessageOf.feature, hc]; rfl
  rw [PostOffice.deliverMessage, run_bind_ok hcontent, posted, hfeature]
  cases c.feature with
  | none => exact (Ledger.post_nil _).symm
  | some f => rfl

/-! ### What a client sends -/

theorem isEmpty_some {u : String} : isEmpty (some u) = true ↔ u = "" := by
  simp [isEmpty]

/-- A `USER_DISCONNECTED` is published with the user taken out of both maps, unless it names none. -/
theorem ledger_userDisconnected {m : Message} {c : MessageContent} (hc : m.content = some c) (i : ℤ)
    (s : State) :
    (∃ u, u ≠ "" ∧ c.data = .userDisconnected (some u) ∧
      ((UserDisconnectedMessageProcessor.process m i).run s).2.ledger =
        ((s.ledger.removeUser u i).removePending u i).post (posted m)) ∨
    ((∀ u, c.data = .userDisconnected u → isEmpty u = true) ∧
      ((UserDisconnectedMessageProcessor.process m i).run s).2.ledger = s.ledger) := by
  rw [UserDisconnectedMessageProcessor.process, run_bind, run_getData hc]
  rcases hconv : c.data.convert Data.userDisconnected? with e | (_ | u)
  · refine .inr ⟨?_, rfl⟩
    intro u hu
    rw [hu] at hconv
    cases hconv
  · refine .inr ⟨?_, rfl⟩
    intro u hu
    rw [hu] at hconv
    cases hconv
  · have hu : c.data = .userDisconnected u :=
      Data.userDisconnected?_eq_some.1 (Data.convert_eq_some hconv)
    by_cases hempty : isEmpty u = true
    · refine .inr ⟨?_, ?_⟩
      · intro v hv
        cases hu.symm.trans hv
        exact hempty
      · show (((if isEmpty u then pure () else _ : Conn Unit)).run s).2.ledger = _
        rw [if_pos hempty]
        rfl
    · cases u with
      | none => exact absurd rfl hempty
      | some u =>
        refine .inl ⟨u, fun h => hempty (isEmpty_some.2 h), hu, ?_⟩
        show (((if isEmpty (some u) then pure () else _ : Conn Unit)).run s).2.ledger = _
        rw [if_neg hempty]
        exact ledger_deliverMessage hc _

section Incoming

variable {C : Config}

/-- An `AUTH_CLIENT` with the payload `d` of a handler that is not authenticated. -/
theorem ledger_asked {m : Message} {c : MessageContent} {i : ℤ} {k : Socket}
    (hc : m.content = some c) (hst : k.authStatus = .NOT_AUTHENTICATED) (d : AuthClient) (s : State) :
    (Exec.run (if k.authStatus = .NOT_AUTHENTICATED then do
        let data ← orNullPointer (some d)
        SocketHandler.setUserId i data.userId
        SocketHandler.setAuthStatus i .AUTHENTICATING
        NetworkUserService.addPendingUser data.userId i
        PostOffice.deliverMessage (AuthClientMessageProcessor.request m data.userId i)
      else pure () : Conn Unit) s).2.ledger =
      match d.userId with
      | none => s.ledger.alter i (asking none)
      | some u => ((s.ledger.alter i (asking (some u))).addPending u i).post
          [AuthClientMessageProcessor.request m (some u) i] := by
  -- the two assignments to the handler are one change of it
  have hask : ∀ u, (updated i (fun k => { k with authStatus := .AUTHENTICATING })
      (updated i (fun k => { k with userId := u }) s)).ledger = s.ledger.alter i (asking u) := by
    intro u
    simp only [State.ledger, Ledger.alter, Ledger.mk.injEq, true_and, and_true]
    funext j
    by_cases hj : j = i
    · simp only [hj, if_true, Option.map_map]
      rfl
    · simp [hj]
  rw [if_pos hst]
  obtain ⟨appId, userId, token⟩ := d
  cases userId with
  | none => exact hask none
  | some u =>
    have hreq : (AuthClientMessageProcessor.request m (some u) i).content =
        some { c with feature := some .RELIABLE } := by
      simp [AuthClientMessageProcessor.request, MessageOf.updateContent, MessageOf.updateMeta, hc]
    have hpost : posted (AuthClientMessageProcessor.request m (some u) i) =
        [AuthClientMessageProcessor.request m (some u) i] := by
      simp [posted, MessageOf.feature, hreq]
    simp only
    rw [← hask (some u), ← hpost]
    exact ledger_deliverMessage hreq _

variable [JavaChar]

/-- What a client sends changes the ledger as `Change` says. -/
theorem change_receive {s : State} {i : ℤ} {k : Socket} {content : MessageContent}
    {fs : List Bool} (hk : s.openSocket i = some k) :
    Change C s.ledger (.receive i content fs)
      ((withFutures fs (channelRead0 C i k content)).run s).2.ledger := by
  have hopen : s.ledger.openSocket i = some k := hk
  -- the message has been built: `s'` differs from `s` in what the ledger leaves out
  obtain ⟨n, s', hs', hrun⟩ : ∃ n s', s'.ledger = s.ledger ∧
      (withFutures fs (channelRead0 C i k content)).run s =
        (processIncomingMessage C (clientMessage C (C.blank n) i k content) i k).run s' :=
    ⟨s.serial, { s with futures := fs, serial := s.serial + 1 }, rfl, rfl⟩
  have hc : (clientMessage C (C.blank n) i k content).content = some content := rfl
  rw [hrun, processIncomingMessage,
    ledger_catchException fun _ => moves_generalError (fun _ _ h => h) _ _]
  rw [← hs'] at hopen ⊢
  split
  · next ht =>
    rw [AuthClientMessageProcessor.process, run_bind, run_getData hc]
    rcases hconv : content.data.convert Data.authClient? with e | data
    · exact .ignored hopen
    by_cases hst : k.authStatus = .NOT_AUTHENTICATED
    · cases data with
      | none =>
        simp only [if_pos hst]
        exact .ignored hopen
      | some d =>
        have hd := Data.authClient?_eq_some.1 (Data.convert_eq_some hconv)
        have hask := ledger_asked (i := i) hc hst d s'
        cases hu : d.userId with
        | none =>
          rw [hu] at hask
          rw [hask]
          exact .nameless hopen ht hd hu hst
        | some u =>
          rw [hu] at hask
          rw [hask]
          exact .asked n hopen ht hd hu hst
    · simp only [if_neg hst]
      exact .ignored hopen
  · next ht =>
    rcases ledger_userDisconnected hc i s' with ⟨u, hu, hd, h⟩ | ⟨-, h⟩
    · rw [h]
      exact .left n hopen ht hd hu
    · rw [h]
      exact .ignored hopen
  · next ht ht' =>
    by_cases hst : k.authStatus = .AUTHENTICATED
    · rw [DefaultIncomingMessageProcessor.process, if_pos hst, ledger_deliverMessage hc]
      exact .forwarded n hopen ht ht' hst
    · rw [DefaultIncomingMessageProcessor.process, if_neg hst]
      have hstill : Moves Still (do
          let blank ← builder C
          let _ ← SocketHandler.sendMessage i (DefaultIncomingMessageProcessor.authRequired blank)
          pure () : Conn Unit) :=
        (moves_builder fun _ _ h => h).bind fun _ =>
          (moves_sendMessage (fun _ _ h => h) _ _).bind fun _ => .pure ()
      rw [hstill s']
      exact .ignored hopen

/-- A socket that closes changes the ledger as `Change` says. -/
theorem change_disconnect {s : State} {i : ℤ} {k : Socket} {fs : List Bool}
    (hk : s.openSocket i = some k) :
    Change C s.ledger (.disconnect i fs)
      ((withFutures fs (handlerRemoved C i k)).run s).2.ledger := by
  have hopen : s.ledger.openSocket i = some k := hk
  by_cases hst : k.authStatus = .NOT_AUTHENTICATED
  · have hrun : ((withFutures fs (handlerRemoved C i k)).run s).2.ledger =
        s.ledger.alter i fun k => { k with isOpen := false } := by
      show ((if k.authStatus = .NOT_AUTHENTICATED then pure () else _ : Conn Unit).run _).2.ledger = _
      rw [if_pos hst]
      rfl
    rw [hrun]
    exact .closed hopen (.inl hst)
  -- the connector handles a `USER_DISCONNECTED` of its own
  obtain ⟨n, s', hs', hrun⟩ : ∃ n s',
      s'.ledger = (s.ledger.alter i fun k => { k with isOpen := false }) ∧
      (withFutures fs (handlerRemoved C i k)).run s =
        (processIncomingMessage C (disconnectedMessage C (C.blank n) i k) i k).run s' := by
    refine ⟨s.serial, { updated i (fun k => { k with isOpen := false }) s with
      futures := fs, serial := s.serial + 1 }, rfl, ?_⟩
    show (Exec.run (if k.authStatus = .NOT_AUTHENTICATED then pure () else _ : Conn Unit) _) = _
    rw [if_neg hst]
    rfl
  have hledger : ((processIncomingMessage C (disconnectedMessage C (C.blank n) i k) i k).run
      s').2.ledger = ((UserDisconnectedMessageProcessor.process
        (disconnectedMessage C (C.blank n) i k) i).run s').2.ledger :=
    ledger_catchException (fun _ => moves_generalError (fun _ _ h => h) _ _) s'
  rw [hrun, hledger]
  rcases ledger_userDisconnected (m := disconnectedMessage C (C.blank n) i k) rfl i s' with
    ⟨u, hu, hd, h⟩ | ⟨hd, h⟩
  · have huser : k.userId = some u := Data.userDisconnected.inj hd
    rw [h, hs']
    exact .departed n hopen hst huser hu
  · rw [h, hs']
    exact .closed hopen (.inr (hd k.userId rfl))

end Incoming

/-! ### Records of the topic -/

section Outgoing

variable [JavaChar] {C : Config}

omit [JavaChar] in
theorem moves_report (m : Message) (st : MessageState) :
    Moves Reporting (PostOffice.deliverStateChangedMessage C m st) := by
  refine (moves_builder fun _ _ => reporting_of_still).bind fun b s => ?_
  refine ⟨[PostOffice.stateChangedMessage C b m st], ?_, rfl⟩
  intro r hr
  rw [List.mem_singleton.1 hr]
  rfl

omit [JavaChar] in
theorem moves_getUser (u : Option String) (i : Option ℤ) :
    Moves Reporting (NetworkUserService.getUser u i) :=
  (moves_orNullPointer _).bind fun _ => .read _

omit [JavaChar] in
theorem moves_default (m : Message) :
    Moves Reporting (DefaultOutgoingMessageProcessor.process C m) := by
  refine (moves_orNullPointer _).bind fun t => (moves_orNullPointer _).bind fun a => ?_
  refine (moves_getUser _ _).bind fun handler => ?_
  cases handler with
  | some i =>
    refine (moves_sendMessage (fun _ _ => reporting_of_still) i m).bind fun b => ?_
    refine (moves_orNullPointer _).bind fun t => (moves_orNullPointer _).bind fun c => ?_
    exact .ite (moves_report _ _) (.pure ())
  | none =>
    refine Moves.bind ((moves_orNullPointer _).bind fun _ => .pure _) fun reliable => ?_
    exact .ite (moves_report _ _) (.pure ())

omit [JavaChar] in
theorem moves_closeConnection (m : Message) :
    Moves Reporting (CloseConnectionMessageProcessor.process m) := by
  refine (moves_getData _ _).bind fun _ => (moves_orNullPointer _).bind fun _ => ?_
  refine (moves_orNullPointer _).bind fun a => (moves_getUser _ _).bind fun handler => ?_
  cases handler with
  | some i => exact moves_close (fun _ _ => reporting_of_still) i
  | none => exact .pure ()

/-- Only a reply does more than to publish reports. -/
theorem moves_processOutgoingWith {process : Message → Conn Unit}
    (hp : ∀ m, m.type = some .MESSAGE → Moves Reporting (process m)) {m : Message}
    (hm : m.type ≠ some .AUTH_CLIENT_REPLY) : Moves Reporting (processOutgoingWith C process m) := by
  cases hc : m.content with
  | none =>
    rw [processOutgoingWith, getContent, hc]
    exact .fail _
  | some c =>
    have ht : m.type = c.type := by rw [MessageOf.type, hc]; rfl
    have hcontent : ∀ s, (getContent m).run s = (.ok c, s) := fun s => by rw [getContent, hc]; rfl
    intro s
    rw [processOutgoingWith, run_bind_ok (hcontent s)]
    split
    · next h => exact absurd (ht.trans h) hm
    · exact moves_closeConnection m s
    · refine Moves.bind (moves_getData _ _) (fun data => ?_) s
      refine (moves_orNullPointer _).bind fun d => (moves_orNullPointer _).bind fun users => ?_
      refine Moves.forEach fun u _ => (moves_orNullPointer _).bind fun c' => ?_
      refine (moves_builder fun _ _ => reporting_of_still).bind fun b => ?_
      exact (moves_orNullPointer _).bind fun t => hp _ rfl
    · exact moves_default m s

theorem moves_processOutgoingMessage {m : Message} (hm : m.type ≠ some .AUTH_CLIENT_REPLY) :
    Moves Reporting (processOutgoingMessage C m) := by
  refine moves_processOutgoingWith (fun m' hm' => ?_) hm
  refine moves_processOutgoingWith (fun _ _ => .fail _) ?_
  rw [hm']
  decide

/-- `Long.parseLong` of the note, or a throw. -/
theorem run_socketIdOf (m : Message) (s : State) :
    (∃ i, m.note.bind parseLong = some i ∧
      (AuthClientReplyMessageProcessor.socketIdOf m).run s = (.ok i, s)) ∨
    ∃ e, (AuthClientReplyMessageProcessor.socketIdOf m).run s = (.error e, s) := by
  cases ht : m.meta_ with
  | none =>
    rw [AuthClientReplyMessageProcessor.socketIdOf, getMeta, ht]
    exact .inr ⟨_, rfl⟩
  | some t =>
    have hmeta : (getMeta m).run s = (.ok t, s) := by rw [getMeta, ht]; rfl
    have hnote : m.note = t.note := by rw [MessageOf.note, ht]; rfl
    rw [AuthClientReplyMessageProcessor.socketIdOf, run_bind_ok hmeta, hnote]
    cases t.note.bind parseLong with
    | none => exact .inr ⟨_, rfl⟩
    | some i => exact .inl ⟨i, rfl, rfl⟩

/-- The state after the login of the socket `i` as `u` is no longer pending. -/
abbrev State.answered (u : String) (i : ℤ) (s : State) : State :=
  { s with pendingUsers := UserMap.removeUser u i s.pendingUsers }

/-- A reply does nothing but to decide on a pending login. -/
theorem ledger_reply {m : Message} (ht : m.type = some .AUTH_CLIENT_REPLY) (s : State) :
    ((AuthClientReplyMessageProcessor.process C m).run s).2.ledger = s.ledger ∨
    ∃ n u i b, RepliesTo m u i b ∧ i ∈ (s.pendingUsers u).getD [] ∧
      ((AuthClientReplyMessageProcessor.process C m).run s).2.ledger =
        s.ledger.decided C n m u i b := by
  obtain ⟨c, hc, hct⟩ := Option.bind_eq_some_iff.1 ht
  rw [AuthClientReplyMessageProcessor.process, run_bind, run_getData hc]
  rcases hconv : c.data.convert Data.authClientReply? with e | (_ | d)
  · exact .inl rfl
  · exact .inl rfl
  have hd : m.data = .authClientReply d := by
    rw [MessageOf.data, hc]
    exact Data.authClientReply?_eq_some.1 (Data.convert_eq_some hconv)
  have hdata : (orNullPointer (some d) : Conn AuthClientReply).run s = (.ok d, s) := rfl
  simp only
  rw [run_bind_ok hdata]
  rcases run_socketIdOf m s with ⟨i, hnote, hid⟩ | ⟨e, hid⟩
  swap
  · rw [run_bind_error hid]
    exact .inl rfl
  rw [run_bind_ok hid]
  obtain ⟨appId, userId, verdict⟩ := d
  cases userId with
  | none => exact .inl rfl
  | some u =>
  have hget : (NetworkUserService.getPendingUser (some u) (some i)).run s =
      (.ok (UserMap.getUser u (some i) s.pendingUsers), s) := rfl
  rw [run_bind_ok hget]
  rcases hfound : UserMap.getUser u (some i) s.pendingUsers with _ | j
  · exact .inl rfl
  obtain ⟨hi, hmem⟩ := UserMap.getUser_eq_some hfound
  cases hi
  have hrep : RepliesTo m u i verdict := ⟨ht, ⟨_, hd, rfl, rfl⟩, hnote⟩
  have hremove : (NetworkUserService.removePendingUser (some u) i).run s =
      (.ok (), s.answered u i) := rfl
  refine .inr ⟨s.serial, u, i, verdict, hrep, hmem, ?_⟩
  simp only
  rw [run_bind_ok hremove]
  cases verdict with
  | none => rfl
  | some ok =>
    -- what is written to the socket is not in the ledger
    have hsend : ∀ s, ∃ b s', (SocketHandler.sendMessage i m).run s = (.ok b, s') ∧
        s'.ledger = s.ledger ∧ s'.serial = s.serial := by
      intro s
      rw [SocketHandler.sendMessage, getContent, hc]
      exact ⟨_, _, rfl, rfl, rfl⟩
    cases ok with
    | true =>
      obtain ⟨b, s', hrun, hledger, hserial⟩ :=
        hsend (updated i (fun k => { k with authStatus := .AUTHENTICATED })
          { s.answered u i with users := UserMap.addUser u i s.users })
      have hcontent : (getContent m).run s' = (.ok c, s') := by rw [getContent, hc]; rfl
      have hbuilder : (builder C).run s' =
          (.ok (C.blank s.serial), { s' with serial := s'.serial + 1 }) := by
        rw [← show s'.serial = s.serial from hserial]
        rfl
      show (Exec.run (do
        let _ ← SocketHandler.sendMessage i m
        let c ← getContent m
        let blank ← builder C
        PostOffice.deliverMessage (AuthClientReplyMessageProcessor.userConnectedMessage C blank
          (some u) i c.feature)) _).2.ledger = _
      have hfeature : m.feature = c.feature := by rw [MessageOf.feature, hc]; rfl
      rw [run_bind_ok hrun, run_bind_ok hcontent, run_bind_ok hbuilder, ledger_deliverMessage rfl,
        Ledger.decided, hfeature]
      exact congrArg (Ledger.post _) hledger
    | false =>
      obtain ⟨b, s', hrun, hledger, -⟩ :=
        hsend (updated i (fun k => { k with authStatus := .NOT_AUTHENTICATED }) (s.answered u i))
      show (Exec.run (do
        let _ ← SocketHandler.sendMessage i m
        SocketHandler.close i) _).2.ledger = _
      rw [run_bind_ok hrun]
      exact hledger

/-- A record that is handed out changes the ledger as `Change` says. -/
theorem change_handOut (m : Message) (fs : List Bool) (s : State) :
    Change C s.ledger (.handOut m fs)
      ((withFutures fs (PostOffice.onMessageArrived C m)).run s).2.ledger := by
  have hexpect : (State.expecting fs s).ledger = s.ledger := rfl
  have herr : ∀ e : JavaException, Moves Reporting (do
      let c ← getContent m
      if c.feature = some .RELIABLE then
        PostOffice.deliverStateChangedMessage C m .CONNECTOR_ERROR : Conn Unit) := fun _ =>
    (moves_orNullPointer _).bind fun _ => .ite (moves_report _ _) (.pure ())
  show Change C _ _ (Exec.run (PostOffice.onMessageArrived C m) (State.expecting fs s)).2.ledger
  rw [← hexpect]
  generalize State.expecting fs s = s
  by_cases ht : m.type = some .AUTH_CLIENT_REPLY
  · obtain ⟨c, hc, hct⟩ := Option.bind_eq_some_iff.1 ht
    have hproc : (processOutgoingMessage C m).run s =
        (AuthClientReplyMessageProcessor.process C m).run s := by
      have hcontent : (getContent m).run s = (.ok c, s) := by rw [getContent, hc]; rfl
      rw [processOutgoingMessage, processOutgoingWith, run_bind_ok hcontent, hct]
    -- a throw has the connector report on the reply, whatever it has done before
    obtain ⟨l, hl, hledger⟩ : Reporting (Exec.run (AuthClientReplyMessageProcessor.process C m) s).2
        (Exec.run (PostOffice.onMessageArrived C m) s).2 := by
      rw [PostOffice.onMessageArrived, ← hproc]
      exact Keeps.run_recoverIf (I := Reporting _) (refl_of Reporting _)
        fun e s' _ hs' => trans_of Reporting hs' (herr e s')
    rw [hledger]
    rcases ledger_reply (C := C) ht s with h | ⟨n, u, i, b, hrep, hmem, h⟩
    · rw [h]
      exact .reported hl
    · rw [h]
      exact .replied n hrep hmem hl
  · have harrived : Moves Reporting (PostOffice.onMessageArrived C m) :=
      (moves_processOutgoingMessage ht).recoverIf herr
    obtain ⟨l, hl, hledger⟩ := harrived s
    rw [hledger]
    exact .reported hl

end Outgoing

/-- **The connector refines `Change`.** -/
theorem change_of_step [JavaChar] {C : Config} {s s' : State} {e : Event}
    (h : (system C).step s e = some s') : Change C s.ledger e s'.ledger := by
  cases e with
  | connect =>
    cases h
    exact .connect
  | receive i content fs =>
    obtain ⟨k, hk, rfl⟩ := Option.map_eq_some_iff.1 h
    exact change_receive hk
  | disconnect i fs =>
    obtain ⟨k, hk, rfl⟩ := Option.map_eq_some_iff.1 h
    exact change_disconnect hk
  | handOut m fs =>
    cases h
    exact change_handOut m fs s

end Linker.Connector
