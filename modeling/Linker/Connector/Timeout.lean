import Linker.Connector.Sessions

/-!
# Time to authenticate

`AppSocketHandler.handlerAdded` schedules a task 15 seconds after a socket has been opened, which closes
the socket if it has not been authenticated until then.  A connector with a clock is a connector whose
runs have time pass between events.

## Main definitions

* `Clocked`, `Clocked.system` : a connector with a clock and the tasks that are scheduled.
* `Prompt` : time does not pass a task that is due, or a socket that the connector has asked to close.

## Main results

* `openSocket_before` : what an event other than the opening of a socket finds open.
* `authenticated_of_prompt` : a socket that has been open for more than 15 seconds is authenticated, and
  time does not get stuck.
-/

namespace Linker.Connector

open Exec

/-! ### The sockets that are asked to close -/

section Closing

variable {C : Config} {R : State → State → Prop} [IsPreorder State R]
  (hR : ∀ s s', s'.closing = s.closing → R s s')

include hR

theorem spares_builder : Moves R (builder C) :=
  .bind (.read _) fun _ => .bind (.modify fun _ => hR _ _ rfl) fun _ => .pure _

theorem spares_write (i : ℤ) (message : Option Message) (c : MessageContent) :
    Moves R (SocketHandler.write i message c) :=
  .bind (.read _) fun _ => .bind (.read _) fun _ => .bind (.modify fun _ => hR _ _ rfl) fun _ =>
    .pure _

theorem spares_sendMessage (i : ℤ) (m : Message) : Moves R (SocketHandler.sendMessage i m) :=
  (moves_orNullPointer _).bind fun _ => spares_write hR i (some m) _

theorem spares_deliverMessage (m : Message) : Moves R (PostOffice.deliverMessage m) := by
  refine (moves_orNullPointer _).bind fun c => ?_
  split
  · exact .fail _
  · exact .modify fun _ => hR _ _ rfl

theorem spares_report (m : Message) (st : MessageState) :
    Moves R (PostOffice.deliverStateChangedMessage C m st) :=
  (spares_builder hR).bind fun _ => spares_deliverMessage hR _

omit [IsPreorder State R] in
theorem spares_update (i : ℤ) (f : Socket → Socket) : Moves R (SocketHandler.update i f) :=
  .modify fun _ => hR _ _ rfl

theorem spares_addUser (u : Option String) (i : ℤ) : Moves R (NetworkUserService.addUser u i) :=
  (moves_orNullPointer _).bind fun _ => .modify fun _ => hR _ _ rfl

theorem spares_removeUser (u : Option String) (i : ℤ) : Moves R (NetworkUserService.removeUser u i) :=
  (moves_orNullPointer _).bind fun _ => .modify fun _ => hR _ _ rfl

theorem spares_addPendingUser (u : Option String) (i : ℤ) :
    Moves R (NetworkUserService.addPendingUser u i) :=
  (moves_orNullPointer _).bind fun _ => .modify fun _ => hR _ _ rfl

theorem spares_removePendingUser (u : Option String) (i : ℤ) :
    Moves R (NetworkUserService.removePendingUser u i) :=
  (moves_orNullPointer _).bind fun _ => .modify fun _ => hR _ _ rfl

theorem spares_authClient (m : Message) (i : ℤ) (k : Socket) :
    Moves R (AuthClientMessageProcessor.process m i k) := by
  refine (moves_getData _ _).bind fun data => .ite ?_ (.pure ())
  refine (moves_orNullPointer _).bind fun d => (spares_update hR _ _).bind fun _ => ?_
  refine (spares_update hR _ _).bind fun _ => ?_
  exact (spares_addPendingUser hR _ _).bind fun _ => spares_deliverMessage hR _

theorem spares_userDisconnected (m : Message) (i : ℤ) :
    Moves R (UserDisconnectedMessageProcessor.process m i) := by
  refine (moves_getData _ _).bind fun data => (moves_orNullPointer _).bind fun u => ?_
  refine .ite (.pure ()) ?_
  refine (spares_removeUser hR _ _).bind fun _ => ?_
  exact (spares_removePendingUser hR _ _).bind fun _ => spares_deliverMessage hR _

theorem spares_defaultIncoming (m : Message) (i : ℤ) (k : Socket) :
    Moves R (DefaultIncomingMessageProcessor.process C m i k) := by
  refine .ite (spares_deliverMessage hR _) ((spares_builder hR).bind fun b => ?_)
  exact (spares_sendMessage hR i _).bind fun _ => .pure ()

/-- What a client sends closes no socket. -/
theorem spares_processIncomingMessage (m : Message) (i : ℤ) (k : Socket) :
    Moves R (processIncomingMessage C m i k) := by
  refine Moves.recoverIf ?_ fun _ => ?_
  · split
    · exact spares_authClient hR m i k
    · exact spares_userDisconnected hR m i
    · exact spares_defaultIncoming hR m i k
  · exact (moves_orNullPointer _).bind fun _ => (spares_write hR i none _).bind fun _ => .pure ()

theorem spares_withFutures {fs : List Bool} {x : Conn Unit} (hx : Moves R x) :
    Moves R (withFutures fs x) := by
  refine Moves.bind ?_ fun _ => hx
  exact .modify fun _ => hR _ _ rfl

theorem spares_channelRead0 (i : ℤ) (k : Socket) (c : MessageContent) :
    Moves R (channelRead0 C i k c) :=
  (spares_builder hR).bind fun _ => spares_processIncomingMessage hR _ i k

theorem spares_handlerRemoved (i : ℤ) (k : Socket) : Moves R (handlerRemoved C i k) := by
  refine (spares_update hR _ _).bind fun _ => .ite (.pure ()) ?_
  exact (spares_builder hR).bind fun _ => spares_processIncomingMessage hR _ i k

theorem spares_defaultOutgoing (m : Message) :
    Moves R (DefaultOutgoingMessageProcessor.process C m) := by
  refine (moves_orNullPointer _).bind fun t => (moves_orNullPointer _).bind fun a => ?_
  refine Moves.bind ((moves_orNullPointer _).bind fun _ => .read _) fun handler => ?_
  cases handler with
  | some i =>
    refine (spares_sendMessage hR i m).bind fun b => ?_
    refine (moves_orNullPointer _).bind fun t => (moves_orNullPointer _).bind fun c => ?_
    exact .ite (spares_report hR _ _) (.pure ())
  | none =>
    refine Moves.bind ((moves_orNullPointer _).bind fun _ => .pure _) fun reliable => ?_
    exact .ite (spares_report hR _ _) (.pure ())

variable (hclose : ∀ i, Moves R (SocketHandler.close i)) [JavaChar]

include hclose

theorem moves_replyMessage (m : Message) : Moves R (AuthClientReplyMessageProcessor.process C m) := by
  refine (moves_getData _ _).bind fun data => (moves_orNullPointer _).bind fun d => ?_
  have hid : Moves R (AuthClientReplyMessageProcessor.socketIdOf m) := by
    refine (moves_orNullPointer _).bind fun t => ?_
    split
    · exact .pure _
    · exact .fail _
  refine hid.bind fun i => Moves.bind ((moves_orNullPointer _).bind fun _ => .read _) fun handler => ?_
  cases handler with
  | none => exact .pure ()
  | some j =>
    refine (spares_removePendingUser hR _ _).bind fun _ => (moves_orNullPointer _).bind fun ok => ?_
    refine .ite ?_ ?_
    · refine (spares_addUser hR _ _).bind fun _ => ?_
      refine (spares_update hR _ _).bind fun _ => (spares_sendMessage hR j m).bind fun _ => ?_
      refine (moves_orNullPointer _).bind fun c => (spares_builder hR).bind fun b => ?_
      exact spares_deliverMessage hR _
    · refine (spares_update hR _ _).bind fun _ => ?_
      exact (spares_sendMessage hR j m).bind fun _ => hclose j

theorem moves_processOutgoing {process : Message → Conn Unit} (hp : ∀ m, Moves R (process m))
    (m : Message) : Moves R (processOutgoingWith C process m) := by
  refine (moves_orNullPointer _).bind fun c => ?_
  split
  · exact moves_replyMessage hR hclose m
  · refine (moves_getData _ _).bind fun _ => (moves_orNullPointer _).bind fun t => ?_
    refine (moves_orNullPointer _).bind fun a => ?_
    refine Moves.bind ((moves_orNullPointer _).bind fun _ => .read _) fun handler => ?_
    cases handler with
    | none => exact .pure ()
    | some i => exact hclose i
  · refine (moves_getData _ _).bind fun data => (moves_orNullPointer _).bind fun d => ?_
    refine (moves_orNullPointer _).bind fun users => .forEach fun u _ => ?_
    refine (moves_orNullPointer _).bind fun c => (spares_builder hR).bind fun b => ?_
    exact (moves_orNullPointer _).bind fun t => hp _
  · exact spares_defaultOutgoing hR m

theorem moves_onMessageArrived (m : Message) : Moves R (PostOffice.onMessageArrived C m) := by
  refine Moves.recoverIf ?_ fun _ => (moves_orNullPointer _).bind fun c => ?_
  · exact moves_processOutgoing hR hclose
      (fun m => moves_processOutgoing hR hclose (fun _ => .fail _) m) m
  · exact .ite (spares_report hR _ _) (.pure ())

end Closing

/-- A socket that is asked to close stays so. -/
def Closing (s s' : State) : Prop := s.closing ⊆ s'.closing

instance : IsPreorder State Closing where
  refl s := List.Subset.refl s.closing
  trans _ _ _ h h' := List.Subset.trans h h'

/-- The connector has asked for nothing. -/
def Unclosing (s s' : State) : Prop := s'.closing = s.closing

instance : IsPreorder State Unclosing where
  refl _ := rfl
  trans _ _ _ h h' := Eq.trans h' h

theorem closing_step [JavaChar] {C : Config} {s s' : State} {e : Event}
    (h : (system C).step s e = some s') : s.closing ⊆ s'.closing := by
  have hR : ∀ s s' : State, s'.closing = s.closing → Closing s s' := fun s s' h =>
    (show s.closing ⊆ s'.closing by rw [h]; exact List.Subset.refl _)
  cases e with
  | connect => cases h; exact List.Subset.refl _
  | receive i content fs =>
    obtain ⟨k, -, rfl⟩ := Option.map_eq_some_iff.1 h
    exact spares_withFutures hR (spares_channelRead0 hR i k content) s
  | disconnect i fs =>
    obtain ⟨k, -, rfl⟩ := Option.map_eq_some_iff.1 h
    exact spares_withFutures hR (spares_handlerRemoved hR i k) s
  | handOut m fs =>
    cases h
    refine spares_withFutures hR (moves_onMessageArrived hR (fun i => ?_) m) s
    exact .modify fun s => List.subset_append_left _ _

/-! ### The clock -/

/-- The delay of the task, in milliseconds. -/
def AUTH_TIMEOUT : ℕ := 15000

/-- The task that `handlerAdded` schedules: a handler that is still in its pipeline. -/
def authTimeout (socketId : ℤ) : Conn Unit := do
  let handler ← Exec.read fun s => s.openSocket socketId
  match handler with
  | none => pure ()
  | some k => if k.authStatus ≠ .AUTHENTICATED then SocketHandler.close socketId

/-- A connector with a clock. -/
structure Clocked where
  connector : State := {}
  now : ℕ := 0
  /-- When a socket has been opened. -/
  openedAt : ℤ → ℕ := fun _ => 0
  /-- The sockets whose tasks have not run. -/
  scheduled : List ℤ := []

namespace Clocked

/-- When the task of a socket is due. -/
def due (s : Clocked) (i : ℤ) : ℕ := s.openedAt i + AUTH_TIMEOUT

inductive Event where
  | event (e : Connector.Event)
  /-- The task of a socket runs. -/
  | timeout (socketId : ℤ)
  /-- Time passes. -/
  | elapse (ms : ℕ)

/-- `handlerAdded` of the socket that has been opened last. -/
def handlerAdded (s : Clocked) : Clocked :=
  let i := s.connector.counter
  { s with openedAt := Function.update s.openedAt i s.now, scheduled := s.scheduled ++ [i] }

section

variable [JavaChar] (C : Config)

def step (s : Clocked) : Event → Option Clocked
  | .event .connect =>
    (Connector.step C s.connector .connect).map fun c => { s with connector := c }.handlerAdded
  | .event e => (Connector.step C s.connector e).map fun c => { s with connector := c }
  | .timeout i =>
    if i ∈ s.scheduled ∧ s.due i ≤ s.now then
      some { s with
        connector := ((authTimeout i).run s.connector).2
        scheduled := s.scheduled.filter fun j => j ≠ i }
    else none
  | .elapse ms => some { s with now := s.now + ms }

def system : System Clocked Event where
  step := step C

end

/-- Time passes no task that is due, and none while a socket that is asked to close is open. -/
def Prompt (s : Clocked) : Event → Prop
  | .elapse ms => (∀ i ∈ s.scheduled, s.now + ms ≤ s.due i) ∧
    ∀ i ∈ s.connector.closing, s.connector.openSocket i = none
  | _ => True

/-- A socket that is open and not authenticated has its task before it, or is asked to close, and its
time is not over. -/
structure Timely (s : Clocked) : Prop where
  consistent : s.connector.ledger.Consistent
  young : ∀ i k, s.connector.openSocket i = some k → k.authStatus ≠ .AUTHENTICATED →
    (i ∈ s.scheduled ∨ i ∈ s.connector.closing) ∧ s.now ≤ s.due i

end Clocked

/-! ### Sockets that are open -/

section

variable [JavaChar] {C : Config}

/-- Only `connect` makes a socket. -/
theorem Ledger.exists_before {s s' : Ledger} {e : Event} (hc : Change C s e s') (he : e ≠ .connect)
    {j : ℤ} {k' : Socket} (hk' : s'.sockets j = some k') : ∃ k, s.sockets j = some k := by
  cases hk : s.sockets j with
  | some k => exact ⟨k, rfl⟩
  | none =>
    have hnone : s'.sockets j = none := by
      cases hc with
      | connect => exact absurd rfl he
      | ignored => exact hk
      | forwarded => exact hk
      | reported => exact hk
      | left => exact hk
      | closed => exact alter_none hk
      | departed => exact alter_none (f := fun k => { k with isOpen := false }) hk
      | asked => exact alter_none (f := asking _) hk
      | nameless => exact alter_none hk
      | @replied m fs u i b l n =>
        cases b with
        | none => exact hk
        | some ok =>
          cases ok with
          | true => exact alter_none (f := fun k => { k with authStatus := .AUTHENTICATED }) hk
          | false => exact alter_none (f := fun k => { k with authStatus := .NOT_AUTHENTICATED }) hk
    cases hnone.symm.trans hk'

/-- A socket that is open after an event other than `connect` was open, and no further than now. -/
theorem openSocket_before {s s' : State} {e : Event} (hs : s.ledger.Consistent)
    (hst : (system C).step s e = some s') (he : e ≠ .connect) {i : ℤ} {k' : Socket}
    (hk' : s'.openSocket i = some k') :
    ∃ k, s.openSocket i = some k ∧ (k.authStatus = .AUTHENTICATED → k'.authStatus = .AUTHENTICATED) := by
  have hc := change_of_step hst
  obtain ⟨hk'', ho'⟩ := Ledger.sockets_of_openSocket (s := s'.ledger) hk'
  obtain ⟨k, hk⟩ := Ledger.exists_before hc he hk''
  have ho := Ledger.isOpen_change hs hc hk hk'' ho'
  refine ⟨k, Option.filter_eq_some_iff.2 ⟨hk, ho⟩, fun hauth => ?_⟩
  obtain ⟨k₁, hk₁, hauth₁, -⟩ := Ledger.lasts_change hs hc i k hk hauth
  cases hk''.symm.trans hk₁
  exact hauth₁

/-- A socket that has closed is not open. -/
theorem openSocket_disconnect {s s' : State} {i : ℤ} {fs : List Bool}
    (hst : (system C).step s (.disconnect i fs) = some s') : s'.openSocket i = none := by
  have hclosed : ∀ t : Ledger, (t.alter i fun k => { k with isOpen := false }).openSocket i = none := by
    intro t
    cases ht : t.sockets i with
    | none => simp [Ledger.openSocket, Ledger.alter, ht]
    | some k => simp [Ledger.openSocket, Ledger.alter, ht]
  have hc := change_of_step hst
  generalize hs' : s'.ledger = t at hc
  have hopen : s'.openSocket i = t.openSocket i := by rw [← hs']; rfl
  rw [hopen]
  cases hc with
  | closed => exact hclosed s.ledger
  | departed => exact hclosed s.ledger

end

namespace Clocked

variable [JavaChar] {C : Config} {s s' : Clocked}

omit [JavaChar] in
theorem run_authTimeout (i : ℤ) (s : State) : ((authTimeout i).run s).2 = s ∧
    (∀ k, s.openSocket i = some k → k.authStatus = .AUTHENTICATED) ∨
    ((authTimeout i).run s).2 = { s with closing := s.closing ++ [i] } ∧
      ∃ k, s.openSocket i = some k ∧ k.authStatus ≠ .AUTHENTICATED := by
  rw [authTimeout, run_read_bind]
  cases hk : s.openSocket i with
  | none => exact .inl ⟨rfl, fun k h => by cases h⟩
  | some k =>
    by_cases hauth : k.authStatus = .AUTHENTICATED
    · refine .inl ⟨?_, fun k' h => by cases h; exact hauth⟩
      simp only [hauth, ne_eq, not_true, if_false]
      rfl
    · refine .inr ⟨?_, k, rfl, hauth⟩
      simp only [hauth, ne_eq, not_false_eq_true, if_true]
      rfl

/-- What an event does. -/
theorem step_cases {e : Event} (h : (system C).step s e = some s') :
    (∃ c, e = .event .connect ∧ Connector.step C s.connector .connect = some c ∧
      s' = { s with connector := c }.handlerAdded) ∨
    (∃ e' c, e = .event e' ∧ e' ≠ .connect ∧ Connector.step C s.connector e' = some c ∧
      s' = { s with connector := c }) ∨
    (∃ i, e = .timeout i ∧ i ∈ s.scheduled ∧ s.due i ≤ s.now ∧ s' = { s with
      connector := ((authTimeout i).run s.connector).2
      scheduled := s.scheduled.filter fun j => j ≠ i }) ∨
    ∃ ms, e = .elapse ms ∧ s' = { s with now := s.now + ms } := by
  cases e with
  | event e =>
    cases e with
    | connect => cases h; exact .inl ⟨_, rfl, rfl, rfl⟩
    | receive i content fs =>
      obtain ⟨c, hc, rfl⟩ := Option.map_eq_some_iff.1 h
      exact .inr (.inl ⟨_, c, rfl, by simp, hc, rfl⟩)
    | disconnect i fs =>
      obtain ⟨c, hc, rfl⟩ := Option.map_eq_some_iff.1 h
      exact .inr (.inl ⟨_, c, rfl, by simp, hc, rfl⟩)
    | handOut m fs => cases h; exact .inr (.inl ⟨_, _, rfl, by simp, rfl, rfl⟩)
  | timeout i =>
    have h' : (if i ∈ s.scheduled ∧ s.due i ≤ s.now then _ else none) = some s' := h
    split_ifs at h' with hdue
    exact .inr (.inr (.inl ⟨i, rfl, hdue.1, hdue.2, (Option.some.inj h').symm⟩))
  | elapse ms => exact .inr (.inr (.inr ⟨ms, rfl, (Option.some.inj h).symm⟩))

/-- **Every event of a prompt run is timely.** -/
theorem Timely.step {e : Event} (hs : s.Timely) (hok : s.Prompt e)
    (hst : (system C).step s e = some s') : s'.Timely := by
  obtain ⟨c, rfl, hc, rfl⟩ | ⟨e', c, rfl, he, hc, rfl⟩ | ⟨i, rfl, hi, hdue, rfl⟩ | ⟨ms, rfl, rfl⟩ :=
    step_cases hst
  · have hstep : (Connector.system C).step s.connector .connect = some c := hc
    have hcons := hs.consistent.change (change_of_step hstep)
    cases hc
    refine ⟨hcons, fun i k hk hauth => ?_⟩
    by_cases hi : i = s.connector.counter + 1
    · subst hi
      refine ⟨.inl (List.mem_append_right _ (List.mem_singleton.2 rfl)), ?_⟩
      show s.now ≤ Function.update s.openedAt (s.connector.counter + 1) s.now _ + AUTH_TIMEOUT
      rw [Function.update_self]
      exact Nat.le_add_right _ _
    · have hsame : s.connector.openSocket i = some k := by
        have hk₁ : (if i = s.connector.counter + 1 then some {} else
            s.connector.sockets i).filter (·.isOpen) = some k := hk
        rwa [if_neg hi] at hk₁
      obtain ⟨hwaits, hyoung⟩ := hs.young i k hsame hauth
      refine ⟨hwaits.imp (List.mem_append_left _) id, ?_⟩
      show s.now ≤ Function.update s.openedAt (s.connector.counter + 1) s.now i + AUTH_TIMEOUT
      rw [Function.update_of_ne hi]
      exact hyoung
  · have hcons := hs.consistent.change (change_of_step hc)
    refine ⟨hcons, fun i k' hk' hauth => ?_⟩
    obtain ⟨k, hk, hlasts⟩ := openSocket_before hs.consistent hc he hk'
    obtain ⟨hwaits, hyoung⟩ := hs.young i k hk fun h => hauth (hlasts h)
    exact ⟨hwaits.imp id fun h => closing_step hc h, hyoung⟩
  · have hother : ∀ j, j ≠ i → j ∈ s.scheduled → j ∈ s.scheduled.filter fun j => j ≠ i :=
      fun j hj hmem => List.mem_filter.2 ⟨hmem, by simpa using hj⟩
    rcases run_authTimeout i s.connector with ⟨hrun, hauth⟩ | ⟨hrun, -⟩
    · rw [hrun]
      refine ⟨hs.consistent, fun j k hk hnot => ?_⟩
      obtain ⟨hwaits, hyoung⟩ := hs.young j k hk hnot
      have hj : j ≠ i := by
        rintro rfl
        exact hnot (hauth k hk)
      exact ⟨hwaits.imp (hother j hj) id, hyoung⟩
    · rw [hrun]
      refine ⟨hs.consistent, fun j k hk hnot => ?_⟩
      obtain ⟨hwaits, hyoung⟩ := hs.young j k hk hnot
      refine ⟨?_, hyoung⟩
      by_cases hj : j = i
      · exact .inr (List.mem_append_right _ (List.mem_singleton.2 hj))
      · exact hwaits.imp (hother j hj) (List.mem_append_left _)
  · refine ⟨hs.consistent, fun i k hk hauth => ?_⟩
    obtain ⟨hwaits, -⟩ := hs.young i k hk hauth
    refine ⟨hwaits, ?_⟩
    rcases hwaits with hi | hi
    · exact hok.1 i hi
    · cases (hok.2 i hi).symm.trans hk

/-! ### Time can pass -/

/-- The tasks that are due run. -/
theorem exists_run_due (s : Clocked) :
    ∃ s', (system C).Reaches Prompt s s' ∧ s'.now = s.now ∧ ∀ i ∈ s'.scheduled, s'.now < s'.due i := by
  -- by induction on the number of tasks that have not run
  induction hn : s.scheduled.length using Nat.strong_induction_on generalizing s with
  | _ n ih =>
    by_cases hdue : ∃ i ∈ s.scheduled, s.due i ≤ s.now
    · obtain ⟨i, hi, hle⟩ := hdue
      let t : Clocked := { s with
        connector := ((authTimeout i).run s.connector).2
        scheduled := s.scheduled.filter fun j => j ≠ i }
      have hst : (system C).step s (.timeout i) = some t := if_pos ⟨hi, hle⟩
      have hlt : t.scheduled.length < n := by
        rw [← hn]
        exact List.length_filter_lt_length_iff_exists.2 ⟨i, hi, by simp⟩
      obtain ⟨s', hreach, hnow, hall⟩ := ih _ hlt t rfl
      exact ⟨s', .head (e := .timeout i) trivial hst hreach, hnow, hall⟩
    · refine ⟨s, .refl, rfl, fun i hi => ?_⟩
      exact not_le.1 fun hle => hdue ⟨i, hi, hle⟩

/-- The sockets that are asked to close do. -/
theorem exists_closed (hs : s.Timely) (l : List ℤ) :
    ∃ s', (system C).Reaches Prompt s s' ∧ s'.Timely ∧ s'.now = s.now ∧ s'.openedAt = s.openedAt ∧
      s'.scheduled = s.scheduled ∧ s'.connector.closing = s.connector.closing ∧
      ∀ i ∈ l, s'.connector.openSocket i = none := by
  induction l with
  | nil => exact ⟨s, .refl, hs, rfl, rfl, rfl, rfl, by simp⟩
  | cons i l ih =>
    obtain ⟨t, hreach, ht, hnow, hopened, hscheduled, hclosing, hall⟩ := ih
    cases hi : t.connector.openSocket i with
    | none => exact ⟨t, hreach, ht, hnow, hopened, hscheduled, hclosing, by simpa [hi] using hall⟩
    | some k =>
      let c := ((withFutures [] (handlerRemoved C i k)).run t.connector).2
      have hstep : (Connector.system C).step t.connector (.disconnect i []) = some c := by
        show (t.connector.openSocket i).map _ = _
        rw [hi]
        rfl
      have hst : (system C).step t (.event (.disconnect i [])) = some { t with connector := c } :=
        congrArg (Option.map fun c => ({ t with connector := c } : Clocked)) hstep
      have hspares : c.closing = t.connector.closing :=
        spares_withFutures (R := Unclosing) (fun _ _ h => h)
          (spares_handlerRemoved (fun _ _ h => h) i k) t.connector
      have hprompt : t.Prompt (.event (.disconnect i [])) := trivial
      refine ⟨{ t with connector := c }, hreach.tail hprompt hst, ht.step hprompt hst, hnow, hopened,
        hscheduled, hspares.trans hclosing, fun j hj => ?_⟩
      rcases List.mem_cons.1 hj with rfl | hj
      · exact openSocket_disconnect hstep
      · -- no socket opens again
        cases hc : c.openSocket j with
        | none => rfl
        | some k' =>
          obtain ⟨k₁, hk₁, -⟩ := openSocket_before ht.consistent hstep (by simp) hc
          cases (hall j hj).symm.trans hk₁

/-- Time can pass, once the tasks that are due have run and the sockets that are asked to close have
closed. -/
theorem exists_elapse (hs : s.Timely) :
    ∃ s', (system C).Reaches Prompt s s' ∧ s'.now = s.now ∧ s'.Prompt (.elapse 1) := by
  obtain ⟨t, hreach, hnow, hdue⟩ := exists_run_due (C := C) s
  have ht : t.Timely := hreach.invariant (I := Timely) hs fun _ _ _ h hok hst => h.step hok hst
  obtain ⟨s', hreach', -, hnow', hopened, hscheduled, hclosing, hall⟩ :=
    exists_closed (C := C) ht t.connector.closing
  refine ⟨s', hreach.trans hreach', hnow'.trans hnow, fun i hi => ?_, fun i hi => hall i (hclosing ▸ hi)⟩
  have hlt := hdue i (hscheduled ▸ hi)
  rw [due, hopened, hnow']
  exact hlt

/-- **Time to authenticate**: in every run in which tasks run when they are due, a socket that has been
open for more than 15 seconds is authenticated, and time can go on. -/
theorem authenticated_of_prompt {s₀ : Clocked} (h₀ : Initial s₀.connector)
    (h : (system C).Reaches Prompt s₀ s) :
    (∀ i k, s.connector.openSocket i = some k → s.openedAt i + AUTH_TIMEOUT < s.now →
      k.authStatus = .AUTHENTICATED) ∧
    ∃ s', (system C).Reaches Prompt s s' ∧ s'.now = s.now ∧ s'.Prompt (.elapse 1) := by
  have hs : s.Timely := by
    refine h.invariant (I := Timely) ⟨consistent_initial h₀, fun i k hk => ?_⟩
      fun _ _ _ h hok hst => h.step hok hst
    simp [State.openSocket, h₀.sockets i] at hk
  refine ⟨fun i k hk hold => ?_, exists_elapse hs⟩
  by_contra hauth
  exact absurd hold (not_lt.2 (hs.young i k hk hauth).2)

end Clocked

/-! ### Two clients, one of whom signs in -/

namespace SampleConnector

/-- A test that prompt events pass. -/
def isPrompt (s : Clocked) : Clocked.Event → Bool
  | .elapse ms => (s.scheduled.all fun i => s.now + ms ≤ s.due i) &&
    s.connector.closing.all fun i => (s.connector.openSocket i).isNone
  | _ => true

theorem prompt_of_isPrompt (s : Clocked) (e : Clocked.Event) (h : isPrompt s e = true) : s.Prompt e := by
  cases e with
  | event e => trivial
  | timeout i => trivial
  | elapse ms =>
    simp only [isPrompt, Bool.and_eq_true, List.all_eq_true, decide_eq_true_eq,
      Option.isNone_iff_eq_none] at h
    exact h

/-- The second client does not sign in, and is closed. -/
def silence : List Clocked.Event :=
  (arrival "APP-5").map .event ++ [.event .connect, .elapse 15000, .timeout 1, .timeout 2,
    .event (.disconnect 2 []), .elapse 1]

end SampleConnector

section

attribute [local instance] JavaChar.ascii

open SampleConnector

theorem authenticated_silence : ∃ s, (Clocked.system config).run {} silence = some s ∧
    s.connector.closing = [2] ∧ s.connector.openSocket 1 = some ⟨some "APP-5", .AUTHENTICATED, true⟩ ∧
    (∀ i k, s.connector.openSocket i = some k → s.openedAt i + AUTH_TIMEOUT < s.now →
      k.authStatus = .AUTHENTICATED) ∧
    ∃ s', (Clocked.system config).Reaches Clocked.Prompt s s' ∧ s'.now = s.now ∧
      s'.Prompt (.elapse 1) := by
  have hrun : (((Clocked.system config).runIf isPrompt {} silence).map fun s =>
      (s.connector.closing, s.connector.openSocket 1)) =
      some ([2], some ⟨some "APP-5", .AUTHENTICATED, true⟩) := by decide +kernel
  obtain ⟨s, hs, hend⟩ := Option.map_eq_some_iff.1 hrun
  obtain ⟨hclosing, hopen⟩ := Prod.mk.inj hend
  exact ⟨s, System.run_of_runIf hs, hclosing, hopen,
    Clocked.authenticated_of_prompt initial (System.reaches_of_runIf prompt_of_isPrompt hs)⟩

end

end Linker.Connector
