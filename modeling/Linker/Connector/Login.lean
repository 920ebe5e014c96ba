import Linker.Connector.Ledger

/-!
# Logins that fail

`AuthClientMessageProcessor` of a connector changes the handler of the socket first and then puts it in
the map of pending users, which has no key null.  What it throws is caught by its superclass, which
answers the client with `GENERAL_ERROR`.

* `process_cases` : how the handler of an `AUTH_CLIENT` ends.
* `unharmed_iff` : a login that fails leaves the socket as it was, unless it is readable, has no user id
  and comes over a socket that is not authenticated.
* `stuck` : a socket that no login can save.
-/

namespace Linker.Connector

open Exec
open Ledger (asking)

section Main

variable [JavaChar] (C : Config)

/-! ### Logins -/

/-- An `AUTH_CLIENT` for the user `u`. -/
structure LoginOf (u : String) (content : MessageContent) : Prop where
  type : content.type = some .AUTH_CLIENT
  data : ∃ d, content.data = .authClient d ∧ d.userId = some u

/-- The connector when a handler is called: the message has been built around what the client sent. -/
def State.building (futures : List Bool) (s : State) : State :=
  { s with futures, serial := s.serial + 1 }

/-- The handler of the `AUTH_CLIENT` throws. -/
def Throws (s : State) (i : ℤ) (k : Socket) (content : MessageContent) (futures : List Bool) : Prop :=
  ∃ e, ((AuthClientMessageProcessor.process (clientMessage C (C.blank s.serial) i k content) i k).run
    (s.building futures)).1 = .error e

/-- Logins over the socket are processed as over a socket that stores `k`: where it is not
authenticated, it waits for the answer and the request is published. -/
def TakesLogins (s : State) (i : ℤ) (k : Socket) : Prop :=
  ∀ u content futures, LoginOf u content →
    ∃ n s', step C s (.receive i content futures) = some s' ∧ s'.ledger =
      if k.authStatus = .NOT_AUTHENTICATED then
        ((s.ledger.alter i (asking (some u))).addPending u i).post
          [AuthClientMessageProcessor.request (clientMessage C (C.blank n) i k content) (some u) i]
      else s.ledger

/-- The socket is as it was in `s`, where it stored `k`, and its client has been told of an error. -/
structure Unharmed (s : State) (i : ℤ) (k : Socket) (s' : State) : Prop where
  told : ∃ r, s'.outputs = s.outputs ++ [r] ∧ r.socketId = i ∧ r.type = some .GENERAL_ERROR
  socket : ∃ k', s'.sockets i = some k' ∧ k'.authStatus = k.authStatus ∧ k'.userId = k.userId
  users : s'.users = s.users
  pendingUsers : s'.pendingUsers = s.pendingUsers
  next : TakesLogins C s' i k

/-- A login without a user id over a socket that is not authenticated. -/
def Nameless (k : Socket) (content : MessageContent) : Prop :=
  k.authStatus = .NOT_AUTHENTICATED ∧ ∃ d, content.data = .authClient d ∧ d.userId = none

variable {C} {s s' : State} {i : ℤ} {k : Socket} {m : Message} {content : MessageContent}
  {futures : List Bool}

/-! ### The handler -/

omit [JavaChar] in
/-- **How the handler of a login ends.**  It throws before it changes anything, unless the login has no
user id. -/
theorem process_cases (hc : m.content = some content) (i : ℤ) (k : Socket) (s : State) :
    (∃ s', (AuthClientMessageProcessor.process m i k).run s = (.ok (), s')) ∧ ¬ Nameless k content ∨
    (∃ e, (AuthClientMessageProcessor.process m i k).run s = (.error e, s) ∧ e.isError = false) ∧
      ¬ Nameless k content ∨
    Nameless k content ∧ ∃ s', (AuthClientMessageProcessor.process m i k).run s =
      (.error .nullPointer, s') ∧ s'.ledger = s.ledger.alter i (asking none) := by
  have hnot : (∀ d, content.data = .authClient d → d.userId ≠ none) → ¬ Nameless k content := by
    rintro h ⟨-, d, hd, hu⟩
    exact h d hd hu
  rw [AuthClientMessageProcessor.process, run_bind, run_getData hc]
  rcases hconv : content.data.convert Data.authClient? with e | data
  · refine .inr (.inl ⟨⟨e, rfl, Data.eq_illegalArgument_of_convert hconv ▸ rfl⟩, hnot ?_⟩)
    intro d hd
    rw [hd] at hconv
    cases hconv
  by_cases hst : k.authStatus = .NOT_AUTHENTICATED
  · rcases data with _ | ⟨appId, userId, token⟩
    · refine .inr (.inl ⟨⟨.nullPointer, by simp only [if_pos hst]; rfl, rfl⟩, hnot ?_⟩)
      intro d hd
      rw [hd] at hconv
      cases hconv
    · have hd := Data.authClient?_eq_some.1 (Data.convert_eq_some hconv)
      have hask := ledger_asked (i := i) hc hst ⟨appId, userId, token⟩ s
      simp only [if_pos hst] at hask ⊢
      cases userId with
      -- the map of pending users throws after both assignments to the handler
      | none => exact .inr (.inr ⟨⟨hst, _, hd, rfl⟩, _, rfl, hask⟩)
      | some u =>
        refine .inl ⟨?_, ?_⟩
        · have hreq : (getContent (AuthClientMessageProcessor.request m (some u) i)) =
              pure { content with feature := some .RELIABLE } := by
            simp [getContent, orNullPointer, AuthClientMessageProcessor.request,
              MessageOf.updateContent, MessageOf.updateMeta, hc]
          have hdeliver : ∀ s, ∃ s', (PostOffice.deliverMessage
              (AuthClientMessageProcessor.request m (some u) i)).run s = (.ok (), s') := by
            intro s
            rw [PostOffice.deliverMessage, hreq]
            exact ⟨_, rfl⟩
          exact hdeliver _
        · refine hnot ?_
          rintro d' hd'
          cases hd.symm.trans hd'
          exact Option.some_ne_none u
  · refine .inl ⟨⟨s, by simp only [if_neg hst]; rfl⟩, ?_⟩
    rintro ⟨h, -⟩
    exact hst h

/-- What the client is told when a handler throws. -/
def generalError (m : Message) (i : ℤ) : Conn Unit := do
  let c ← getContent m
  let _ ← SocketHandler.sendContent i { c with type := some .GENERAL_ERROR }
  pure ()

/-- What an `AUTH_CLIENT` has the connector do, with the message built around it. -/
theorem step_receive (hk : s.openSocket i = some k) (ht : content.type = some .AUTH_CLIENT)
    (futures : List Bool) : step C s (.receive i content futures) =
      some (((AuthClientMessageProcessor.process (clientMessage C (C.blank s.serial) i k content) i
        k).catchException fun _ => generalError (clientMessage C (C.blank s.serial) i k content) i).run
          (s.building futures)).2 := by
  have htype : (clientMessage C (C.blank s.serial) i k content).type = some .AUTH_CLIENT := ht
  have hprocess : processIncomingMessage C (clientMessage C (C.blank s.serial) i k content) i k =
      (AuthClientMessageProcessor.process (clientMessage C (C.blank s.serial) i k content) i
        k).catchException fun _ => generalError (clientMessage C (C.blank s.serial) i k content) i := by
    rw [processIncomingMessage, htype]
    rfl
  show (s.openSocket i).map _ = _
  rw [hk, ← hprocess]
  rfl

/-- A handler that throws has the client told, and nothing else is changed afterwards. -/
theorem step_throws (hk : s.openSocket i = some k) (ht : content.type = some .AUTH_CLIENT)
    {e : JavaException} {s₁ : State}
    (h : (AuthClientMessageProcessor.process (clientMessage C (C.blank s.serial) i k content) i k).run
      (s.building futures) = (.error e, s₁)) (he : e.isError = false) :
    ∃ s', step C s (.receive i content futures) = some s' ∧ s'.ledger = s₁.ledger ∧
      ∃ r, s'.outputs = s₁.outputs ++ [r] ∧ r.socketId = i ∧ r.type = some .GENERAL_ERROR := by
  refine ⟨_, step_receive hk ht futures, ?_⟩
  rw [run_recoverIf_error h (by rw [he]; rfl)]
  exact ⟨rfl, _, rfl, rfl, rfl⟩

/-- A login over an open socket is processed according to what the socket stores. -/
theorem takesLogins (hk : s.openSocket i = some k) : TakesLogins C s i k := by
  rintro u content futures ⟨ht, d, hd, hu⟩
  refine ⟨s.serial, _, step_receive hk ht futures, ?_⟩
  have hc : (clientMessage C (C.blank s.serial) i k content).content = some content := rfl
  rw [ledger_catchException fun _ => show Moves Still (generalError _ i) from
    moves_generalError (fun _ _ h => h) _ _, AuthClientMessageProcessor.process, run_bind,
    run_getData hc, hd]
  by_cases hst : k.authStatus = .NOT_AUTHENTICATED
  · have hask := ledger_asked (i := i) hc hst d (s.building futures)
    rw [hu] at hask
    rw [if_pos hst]
    exact hask
  · show (Exec.run (if k.authStatus = .NOT_AUTHENTICATED then _ else pure () : Conn Unit) _).2.ledger = _
    rw [if_neg hst, if_neg hst]
    rfl

omit [JavaChar] in
/-- The sockets of a ledger are those of the state. -/
theorem openSocket_of_ledger (h : s'.ledger = s.ledger) : s'.openSocket i = s.openSocket i := by
  have hsockets : s'.sockets = s.sockets := congrArg Ledger.sockets h
  rw [State.openSocket, State.openSocket, hsockets]

/-! ### Logins that fail -/

/-- A login without a user id throws, and leaves the socket waiting for an answer. -/
theorem harmed_of_nameless (hk : s.openSocket i = some k) (ht : content.type = some .AUTH_CLIENT)
    (h : Nameless k content) (futures : List Bool) : Throws C s i k content futures ∧
      ∀ s', step C s (.receive i content futures) = some s' → ¬ Unharmed C s i k s' := by
  have hsocket : s.sockets i = some k := (Option.filter_eq_some_iff.1 hk).1
  have hc : (clientMessage C (C.blank s.serial) i k content).content = some content := rfl
  rcases process_cases hc i k (s.building futures) with ⟨-, hnot⟩ | ⟨-, hnot⟩ |
    ⟨-, s₁, herr, hledger⟩
  · exact absurd h hnot
  · exact absurd h hnot
  refine ⟨⟨.nullPointer, by rw [herr]⟩, ?_⟩
  intro s' hstep hunharmed
  obtain ⟨s'', hstep', hsame, -⟩ := step_throws hk ht herr rfl
  cases hstep.symm.trans hstep'
  obtain ⟨k', hk', hst, -⟩ := hunharmed.socket
  -- the handler now stores `AUTHENTICATING`
  have hasking : s'.sockets i = some (asking none k) := by
    have hsockets := congrFun (congrArg Ledger.sockets (hsame.trans hledger)) i
    exact hsockets.trans (by simp [Ledger.alter, State.ledger, State.building, hsocket])
  cases hk'.symm.trans hasking
  have hsame : AuthStatus.AUTHENTICATING = .NOT_AUTHENTICATED := hst.trans h.1
  cases hsame

/-- **A failed login leaves the socket as it was**, unless the login is readable, has no user id and
comes over a socket that is not authenticated. -/
theorem unharmed_iff (hk : s.openSocket i = some k) (ht : content.type = some .AUTH_CLIENT)
    (futures : List Bool) :
    (Throws C s i k content futures →
      ∃ s', step C s (.receive i content futures) = some s' ∧ Unharmed C s i k s') ↔
    ¬ Nameless k content := by
  have hsocket : s.sockets i = some k := (Option.filter_eq_some_iff.1 hk).1
  have hc : (clientMessage C (C.blank s.serial) i k content).content = some content := rfl
  rcases process_cases hc i k (s.building futures) with ⟨⟨s₁, hok⟩, hnot⟩ |
    ⟨⟨e, herr, he⟩, hnot⟩ | ⟨hnameless, -⟩
  · refine iff_of_true ?_ hnot
    rintro ⟨e, he⟩
    rw [hok] at he
    cases he
  · refine iff_of_true (fun _ => ?_) hnot
    obtain ⟨s', hstep, hsame, htold⟩ := step_throws hk ht herr he
    have hledger : s'.ledger = s.ledger := hsame
    refine ⟨s', hstep, htold, ⟨k, ?_, rfl, rfl⟩, congrArg Ledger.users hledger,
      congrArg Ledger.pendingUsers hledger, takesLogins ((openSocket_of_ledger hledger).trans hk)⟩
    exact (congrFun (congrArg Ledger.sockets hledger) i).trans hsocket
  · refine iff_of_false (fun h => ?_) (not_not.2 hnameless)
    obtain ⟨hthrows, hharmed⟩ := harmed_of_nameless (C := C) hk ht hnameless futures
    obtain ⟨s', hstep, hunharmed⟩ := h hthrows
    exact hharmed s' hstep hunharmed

end Main

/-! ### A login without a user id -/

section Sample

attribute [local instance] JavaChar.ascii

namespace SampleLogin

def config : Config := ⟨"domain-01", "connector-01", fun n => toString n, fun n => n⟩

/-- A connector with one socket, which has just been opened. -/
def state : State := (initChannel.run {}).2

/-- An `AUTH_CLIENT` that says no more than its type. -/
def content : MessageContent :=
  { createMessageContent .AUTH_CLIENT (.authClient ⟨none, none, none⟩) none with reference := some "1" }

end SampleLogin

open SampleLogin

/-- **A socket that no login can save.**  The client of the only socket sends an `AUTH_CLIENT` without
a user id, is told of an error, and waits for an answer ever after. -/
theorem stuck : ¬ (Throws config state 1 {} content [] → ∃ s',
    step config state (.receive 1 content []) = some s' ∧ Unharmed config state 1 {} s') := by
  intro h
  have hnameless : Nameless {} content := ⟨rfl, ⟨none, none, none⟩, rfl, rfl⟩
  obtain ⟨hthrows, hharmed⟩ := harmed_of_nameless (C := config) (s := state) (i := 1) rfl rfl
    hnameless []
  obtain ⟨s', hstep, hunharmed⟩ := h hthrows
  exact hharmed s' hstep hunharmed

/-- A login that cannot be read is not one of them. -/
theorem unharmed_unreadable : ∃ s', step config state
    (.receive 1 (createMessageContent .AUTH_CLIENT .null none) []) = some s' ∧
    Unharmed config state 1 {} s' := by
  refine (unharmed_iff (s := state) (i := 1) (k := {}) rfl rfl []).2 ?_ ⟨.nullPointer, rfl⟩
  rintro ⟨-, d, hd, -⟩
  cases hd

end Sample

end Linker.Connector
