import Linker.Processor.Tunnel

/-!
# What goes through a tunnel

A tunnel signs in on each of its channels that is connected once there is a callback for it, asks for
what it has missed, and passes on what the processors have for the neighbour; what it reads is answered
or handed to the post office.  The callbacks between `DomainTunnel`, `TcpSocketClient`,
`SocketClientHandler` and `DomainService` come down to one function of the events.

## Main definitions

* `DomainTunnel.said` : what is written to a channel at an event.
* `DomainTunnel.passedOn` : what is handed to the post office at an event.

## Main results

* `DomainTunnel.conversation` : in every run, this is what each channel has been written and what has
  been handed on.
* `DomainTunnel.written_spoken` : a channel is written the login first, and nothing else before a
  positive reply has been read on it.
* `DomainTunnel.written_of_connected` : a channel is written the login where the callback is set when it
  is connected, which it is for all channels but the first.
-/

namespace Linker

namespace Processor

open Exec

namespace DomainTunnel

/-- What `fetchMissingMessages` sends. -/
def fetchRequest : MessageContent :=
  createMessageContent .FETCH_MISSING_MESSAGES_REQUEST (.fetchMissingMessagesRequest (some 2000))
    (some .RELIABLE)

/-- Whether the tunnel is told of a connection. -/
def State.callsBack (s : State) : Bool := s.socketClient.any (·.connectedCallback)

/-- Whether the tunnel is told of what is read. -/
def State.listens (s : State) : Bool := s.socketClient.any (·.msgCallback)

/-- How many messages a `FETCH_MISSING_MESSAGES_COMPLETE` says are left. -/
def leftCount? (content : MessageContentOutput) : Option ℤ :=
  if content.type = some .FETCH_MISSING_MESSAGES_COMPLETE then
    content.data.fetchMissingMessagesComplete?.join
  else none

/-- What the tunnel answers to what it reads. -/
def answer (s : State) (content : MessageContentOutput) : List MessageContent :=
  match content.reply? with
  | some isAuthenticated =>
    if isAuthenticated && s.onAuthenticatedCallback then [fetchRequest] else []
  | none =>
    if s.msgCallback && s.isAuthenticated && (leftCount? content).any (0 < ·) then [fetchRequest]
    else []

/-- What is written to channel `c` at an event. -/
def said [JavaChar] (E : Config) (s : State) (c : ℕ) : Event → List MessageContent
  | .connected c' => if c = c' ∧ s.callsBack then [login E] else []
  | .message c' content =>
    if c = c' ∧ s.listens ∧ (s.channel c).phase = .connected then answer s content else []
  | .sendMessage m => if s.isAuthenticated ∧ (s.channel c).phase = .connected then [m] else []
  | _ => []

/-- What is handed to the post office at an event. -/
def passedOn (s : State) : Event → List MessageContentOutput
  | .message _ content =>
    if s.listens ∧ s.msgCallback ∧ content.type = some .INTERNAL_MESSAGE then [content] else []
  | _ => []

/-- Between two states each channel has been written more, and more has been handed on. -/
structure Adds (s s' : State) (written : ℕ → List MessageContent)
    (handed : List MessageContentOutput) : Prop where
  written : ∀ c, (s'.channel c).written = (s.channel c).written ++ written c
  handed : s'.handed = s.handed ++ handed

/-- What is written to the open channel, if there is one. -/
def toOpen (s : State) (l : List MessageContent) (c : ℕ) : List MessageContent :=
  if (s.channel c).phase = .connected then l else []

section

variable {s s' : State} {t : TcpSocketClient} {c : ℕ}

theorem Adds.refl (s : State) : Adds s s (fun _ => []) [] := ⟨fun c => by simp, by simp⟩

theorem adds_of_same (hwritten : ∀ c, (s'.channel c).written = (s.channel c).written)
    (hhanded : s'.handed = s.handed) : Adds s s' (fun _ => []) [] :=
  ⟨fun c => by simp [hwritten], by simp [hhanded]⟩

/-- What happens before anything is written or handed on. -/
theorem Adds.of_same {s₁ : State} {w : ℕ → List MessageContent} {l : List MessageContentOutput}
    (h : Adds s₁ s' w l) (hwritten : ∀ c, (s₁.channel c).written = (s.channel c).written)
    (hhanded : s₁.handed = s.handed) : Adds s s' w l :=
  ⟨fun c => by rw [h.written, hwritten], by rw [h.handed, hhanded]⟩

theorem channel_onChannel (ht : s.socketClient = some t) (f : Channel → Channel) (c' : ℕ) :
    (s.onChannel c f).channel c' = Function.update s.channel c (f (s.channel c)) c' := by
  have hclient : (s.onChannel c f).socketClient = some (t.update c f) := by
    simp [State.onChannel, ht]
  rw [channel_of_client hclient]
  show Function.update t.channel c (f (t.channel c)) c' = _
  rcases eq_or_ne c' c with rfl | hne
  · rw [Function.update_self, Function.update_self, channel_of_client ht]
  · rw [Function.update_of_ne hne, Function.update_of_ne hne, channel_of_client ht]

theorem toOpen_of_closed (hclosed : ∀ c, (s.channel c).phase ≠ .connected) (l : List MessageContent) :
    toOpen s l = fun _ => [] := by
  funext c
  exact if_neg (hclosed c)

@[simp] theorem toOpen_nil (s : State) : toOpen s [] = fun _ => [] := by
  funext c
  simp [toOpen]

/-- The open channel is the handler's, which has its context. -/
theorem handler_of_connected (hs : s.IsWired) (ht : s.socketClient = some t)
    (hc : (s.channel c).phase = .connected) :
    t.socketClientHandler = some c ∧ (t.channel c).context = true := by
  refine (hs.some t ht).2.handler c ?_
  rw [← channel_of_client ht, hc]
  rfl

/-- A client writes to its open channel. -/
theorem adds_tcpSendMessage (hs : s.IsWired) (ht : s.socketClient = some t) (m : MessageContent) :
    Adds s ((TcpSocketClient.sendMessage m).run s).2 (toOpen s [m]) [] := by
  -- without a handler that has its context there is no open channel
  have hlost : (∀ c, t.socketClientHandler = some c → (t.channel c).context = false) →
      toOpen s [m] = fun _ => [] := by
    intro hnone
    refine toOpen_of_closed (fun c hc => ?_) _
    obtain ⟨hhandler, hcontext⟩ := handler_of_connected hs ht hc
    rw [hnone c hhandler] at hcontext
    cases hcontext
  rcases hhandler : t.socketClientHandler with _ | c₀
  · have hrun : TcpSocketClient.handler.run s = (.error (.java .nullPointer), s) := by
      rw [TcpSocketClient.handler, run_bind_ok (run_socketClient_some ht), hhandler, run_fail]
    rw [TcpSocketClient.sendMessage, run_bind_error hrun, hlost (by simp [hhandler])]
    exact .refl s
  · have hrun : TcpSocketClient.handler.run s = (.ok c₀, s) := by
      rw [TcpSocketClient.handler, run_bind_ok (run_socketClient_some ht), hhandler, run_pure]
    rw [TcpSocketClient.sendMessage, run_bind_ok hrun, SocketClientHandler.sendMessage,
      run_bind_ok (run_socketClient_some ht)]
    by_cases hcontext : (t.channel c₀).context = true
    · rw [if_pos hcontext, run_modify]
      refine ⟨fun c => ?_, by simp [State.onChannel, State.onClient]⟩
      rw [channel_onChannel ht]
      rcases eq_or_ne c c₀ with rfl | hne
      · rw [Function.update_self, Channel.writeAndFlush, toOpen]
        split_ifs <;> simp
      · have hclosed : (s.channel c).phase ≠ .connected := fun hc => by
          have hsame := (handler_of_connected hs ht hc).1
          exact hne (Option.some.inj (hsame.symm.trans hhandler))
        rw [Function.update_of_ne hne, toOpen, if_neg hclosed, List.append_nil]
    · rw [if_neg hcontext, hlost fun c hc => ?_]
      · exact .refl s
      · rw [hhandler] at hc
        cases hc
        exact Bool.eq_false_iff.2 hcontext

/-- `sendMessage` writes to the open channel of a tunnel that passes for connected. -/
theorem adds_sendMessage (hs : s.IsWired) (m : MessageContent) :
    Adds s ((sendMessage m).run s).2 (toOpen s (if s.isAuthenticated then [m] else [])) [] := by
  rw [sendMessage, run_read_bind]
  cases hauth : s.isAuthenticated with
  | false =>
    have hconnected : isConnected s = false := by simp [isConnected, hauth]
    rw [hconnected, if_neg Bool.false_ne_true, run_read_bind, if_neg Bool.false_ne_true, toOpen_nil]
    exact .refl s
  | true =>
    obtain ⟨t, ht⟩ : ∃ t, s.socketClient = some t := by
      rcases ht : s.socketClient with _ | t
      · rw [(hs.none ht).1] at hauth
        cases hauth
      · exact ⟨t, rfl⟩
    have hconnected : isConnected s = true := by simp [isConnected, hauth, ht]
    rw [hconnected, if_pos rfl, if_pos rfl]
    exact adds_tcpSendMessage hs ht m

theorem adds_fetchMissingMessages (hs : s.IsWired) :
    Adds s (DomainService.fetchMissingMessages.run s).2
      (toOpen s (if s.isAuthenticated then [fetchRequest] else [])) [] := by
  rw [DomainService.fetchMissingMessages, snd_run_recover fun e s => by cases e <;> rfl]
  exact adds_sendMessage hs fetchRequest

theorem convert_complete {d : Data} {n : Option ℤ} (h : d.fetchMissingMessagesComplete? = some n) :
    d.convert Data.fetchMissingMessagesComplete? = .ok (some n) := by
  cases d <;> cases h
  rfl

theorem adds_handleFetchingMessagesComplete {content : MessageContentOutput} (hs : s.IsWired)
    (htype : content.type = some .FETCH_MISSING_MESSAGES_COMPLETE) :
    Adds s ((DomainService.handleFetchingMessagesComplete content).run s).2
      (toOpen s (if s.isAuthenticated && (leftCount? content).any (0 < ·) then [fetchRequest]
        else [])) [] := by
  rw [leftCount?, if_pos htype, DomainService.handleFetchingMessagesComplete]
  cases hview : content.data.fetchMissingMessagesComplete? with
  | none =>
    rw [Option.join_none, Option.any_none, Bool.and_false, if_neg Bool.false_ne_true, toOpen_nil]
    split
    · exact .refl s
    · next left hconvert =>
      rw [Data.convert_eq_some hconvert] at hview
      cases hview
    · exact .refl s
  | some n =>
    rw [convert_complete hview, Option.join_some]
    cases n with
    | none =>
      rw [Option.any_none, Bool.and_false, if_neg Bool.false_ne_true, toOpen_nil]
      exact .refl s
    | some left =>
      rw [Option.any_some]
      by_cases hleft : 0 < left
      · simp only [hleft, decide_true, Bool.and_true, if_true]
        exact adds_fetchMissingMessages hs
      · simp only [hleft, decide_false, Bool.and_false, Bool.false_eq_true, if_false, toOpen_nil]
        exact .refl s

theorem answer_of_reply {content : MessageContentOutput} {b : Bool} (h : content.reply? = some b) :
    answer s content = if b && s.onAuthenticatedCallback then [fetchRequest] else [] := by
  rw [answer, h]

theorem answer_of_none {content : MessageContentOutput} (h : content.reply? = none) :
    answer s content = if s.msgCallback && s.isAuthenticated && (leftCount? content).any (0 < ·) then
      [fetchRequest] else [] := by
  rw [answer, h]

theorem adds_onMessage {content : MessageContentOutput} (hs : s.IsWired) :
    Adds s ((DomainService.onMessage content).run s).2
      (toOpen s (if s.isAuthenticated && (leftCount? content).any (0 < ·) then [fetchRequest]
        else [])) (if content.type = some .INTERNAL_MESSAGE then [content] else []) := by
  have hleft : content.type ≠ some .FETCH_MISSING_MESSAGES_COMPLETE →
      (if s.isAuthenticated && (leftCount? content).any (0 < ·) then [fetchRequest] else []) = [] := by
    intro hne
    simp [leftCount?, hne]
  rw [DomainService.onMessage]
  split
  · next htype =>
    rw [hleft (by simp [htype]), toOpen_nil, htype]
    exact .refl s
  · next htype =>
    rw [hleft (by simp [htype]), toOpen_nil, if_pos htype]
    exact ⟨fun c => (List.append_nil _).symm, rfl⟩
  · next htype =>
    have hinternal : content.type ≠ some .INTERNAL_MESSAGE := by simp [htype]
    rw [if_neg hinternal]
    exact adds_handleFetchingMessagesComplete hs htype
  · next type hinternal hcomplete htype =>
    have hne : content.type ≠ some .FETCH_MISSING_MESSAGES_COMPLETE := fun h =>
      hcomplete (Option.some.inj (htype.symm.trans h))
    rw [hleft hne, toOpen_nil, if_neg fun h => hinternal (Option.some.inj (htype.symm.trans h))]
    exact .refl s

/-- What `onMessageArrived` does with what is no reply. -/
theorem adds_onMessageArrived {content : MessageContentOutput} (hs : s.IsWired)
    (hlistens : s.listens = true) (h : content.reply? = none) :
    Adds s ((onMessageArrived content).run s).2 (toOpen s (answer s content))
      (passedOn s (.message c content)) := by
  have hnone : content.type = none ∨ content.type = some .AUTH_CLIENT_REPLY →
      answer s content = [] ∧ passedOn s (.message c content) = [] := by
    rintro (htype | htype)
    · simp [answer_of_none h, leftCount?, passedOn, htype]
    · simp [answer_of_none h, leftCount?, passedOn, htype]
  rw [onMessageArrived]
  split
  · next htype =>
    obtain ⟨hanswer, hpassed⟩ := hnone (.inl htype)
    rw [hanswer, hpassed, toOpen_nil]
    exact .refl s
  · next htype =>
    obtain ⟨hanswer, hpassed⟩ := hnone (.inr htype)
    rw [hanswer, hpassed, toOpen_nil]
    split
    · exact .refl s
    · exact .refl s
    · next reply hreply =>
      have hdata := Data.convert_eq_some hreply
      rw [MessageContentOutput.reply?, if_pos htype, hdata, Option.bind_some] at h
      rw [handleAuthReplay, h]
      exact .refl s
  · rw [run_read_bind, answer_of_none h, passedOn, hlistens]
    cases hcallback : s.msgCallback with
    | false =>
      simp only [Bool.false_and, Bool.false_eq_true, if_false, false_and, and_false, toOpen_nil]
      exact .refl s
    | true =>
      simp only [Bool.true_and, true_and, if_true]
      exact adds_onMessage hs

/-- What `onMessageArrived` does with a reply. -/
theorem adds_onMessageArrived_reply {content : MessageContentOutput} {b : Bool} (hs : s.IsWired)
    (ht : s.socketClient = some t) (hlistening : t.msgCallback = true)
    (hc : t.socketClientHandler = some c) (hcontext : (t.channel c).context = true)
    (h : content.reply? = some b) :
    Adds s ((onMessageArrived content).run s).2 (toOpen s (answer s content)) [] := by
  cases b with
  | false =>
    rw [run_onMessageArrived_negative h ht hc hcontext, answer_of_reply h, Bool.false_and,
      if_neg Bool.false_ne_true, toOpen_nil]
    refine adds_of_same (fun c' => ?_) rfl
    rw [channel_onChannel ht]
    rcases eq_or_ne c' c with rfl | hne
    · rw [Function.update_self]
      rfl
    · rw [Function.update_of_ne hne]
  | true =>
    obtain ⟨reply, hreply, heq⟩ := onMessageArrived_reply h
    rw [heq, handleAuthReplay, hreply, answer_of_reply h, Bool.true_and]
    obtain ⟨hdomain, hwired⟩ := hs.some t ht
    have hs₁ : ({ s with isAuthenticated := true } : State).IsWired := 
      isWired_of_client ht hdomain hwired fun _ => hlistening
    show Adds s (Exec.run (do
      let callback ← read State.onAuthenticatedCallback
      if callback then DomainService.fetchMissingMessages else pure ())
      { s with isAuthenticated := true }).2 _ _
    rw [run_read_bind]
    by_cases hcallback : s.onAuthenticatedCallback = true
    · have hfetch := adds_fetchMissingMessages hs₁
      rw [if_pos rfl] at hfetch
      rw [if_pos hcallback, if_pos hcallback]
      exact hfetch.of_same (fun _ => rfl) rfl
    · rw [if_neg hcallback, if_neg hcallback, toOpen_nil]
      exact adds_of_same (fun _ => rfl) rfl

/-! ### The steps -/

/-- A message that is read off channel `c`. -/
theorem adds_message {content : MessageContentOutput} (hs : s.IsWired)
    (hc : (s.channel c).phase = .connected ∨ (s.channel c).phase = .closing) :
    Adds s ((channelRead0 c content).run s).2 (toOpen s (if s.listens then answer s content else []))
      (passedOn s (.message c content)) := by
  obtain ⟨t, ht⟩ := exists_client (s := s) (c := c) (by rcases hc with hc | hc <;> rw [hc] <;> rfl)
  obtain ⟨hdomain, hwired⟩ := hs.some t ht
  rw [channel_of_client ht] at hc
  let s₁ : State := { s with socketClient := some (t.reading c content) }
  have hs₁ : s₁.IsWired := isWired_of_client rfl hdomain hwired.reading fun hauth => hs.listening hauth t ht
  have hopen : ∀ l, toOpen s₁ l = toOpen s l := by
    intro l
    funext c'
    rw [toOpen, toOpen, channel_of_client (t := t.reading c content) rfl, phase_reading,
      channel_of_client ht]
  have hwritten : ∀ c', (s₁.channel c').written = (s.channel c').written := by
    intro c'
    rw [channel_of_client (t := t.reading c content) rfl, channel_of_client ht]
    rcases eq_or_ne c' c with rfl | hne
    · rw [channel_reading]
    · rw [channel_reading_of_ne hne]
  have hlistens : s.listens = t.msgCallback := by rw [State.listens, ht, Option.any_some]
  cases hlistening : t.msgCallback with
  | false =>
    rw [run_channelRead0_unset ht hlistening, passedOn, hlistens, hlistening]
    simp only [Bool.false_eq_true, if_false, false_and, toOpen_nil]
    exact adds_of_same hwritten rfl
  | true =>
  rw [run_channelRead0 ht hlistening, if_pos (hlistens.trans hlistening)]
  have hlistens₁ : s₁.listens = true := hlistening
  have hpassed₁ : passedOn s₁ (.message c content) = passedOn s (.message c content) := by
    rw [passedOn, passedOn, hlistens₁, hlistens, hlistening]
  cases hreply : content.reply? with
  | none =>
    have hadds := adds_onMessageArrived (c := c) hs₁ hlistens₁ hreply
    rw [hopen, hpassed₁] at hadds
    exact hadds.of_same hwritten rfl
  | some b =>
    have hpassed : passedOn s (.message c content) = [] := by
      have htype : content.type = some .AUTH_CLIENT_REPLY := by
        rw [MessageContentOutput.reply?] at hreply
        split_ifs at hreply with htype
        exact htype
      simp [passedOn, htype]
    have hreading : Wired (t.reading c content) s.scheduled := hwired.reading
    obtain ⟨hhandler, hcontext⟩ := hreading.handler c
      (by rw [phase_reading]; rcases hc with hc | hc <;> rw [hc] <;> rfl)
    have hadds := adds_onMessageArrived_reply hs₁ rfl hlistening hhandler hcontext hreply
    rw [hopen] at hadds
    rw [hpassed]
    exact hadds.of_same hwritten rfl

/-- Nothing is written or handed on. -/
def Mute (s s' : State) : Prop :=
  (∀ c, (s'.channel c).written = (s.channel c).written) ∧ s'.handed = s.handed

instance : IsPreorder State Mute where
  refl _ := ⟨fun _ => rfl, rfl⟩
  trans _ _ _ h h' := ⟨fun c => (h'.1 c).trans (h.1 c), h'.2.trans h.2⟩

theorem mute_onClient (s : State) {f : TcpSocketClient → TcpSocketClient}
    (hf : ∀ t c, ((f t).channel c).written = (t.channel c).written) : Mute s (s.onClient f) := by
  refine ⟨fun c => ?_, rfl⟩
  rcases ht : s.socketClient with _ | t
  · simp [State.channel, ht]
  · rw [channel_of_client ht, channel_of_client (t := f t) (by simp [ht])]
    exact hf t c

theorem mute_onChannel (s : State) (c : ℕ) {f : Channel → Channel} (hf : ∀ k, (f k).written = k.written) :
    Mute s (s.onChannel c f) := by
  refine mute_onClient s fun t c' => ?_
  show (Function.update t.channel c (f (t.channel c)) c').written = _
  rcases eq_or_ne c' c with rfl | hne
  · rw [Function.update_self, hf]
  · rw [Function.update_of_ne hne]

theorem mute_socketClient : Moves Mute socketClient :=
  (Moves.read _).bind fun client => by
    cases client with
    | none => exact .fail _
    | some t => exact .pure t

theorem mute_initChannel (c : ℕ) : Moves Mute (initChannel c) := by
  refine .bind (.modify fun s => mute_onClient s fun _ _ => rfl) fun _ => ?_
  refine .bind (.modify fun s => mute_onChannel s c fun _ => rfl) fun _ => ?_
  exact .modify fun s => mute_onChannel s c fun _ => rfl

theorem mute_channelRemoved (c : ℕ) : Moves Mute (channelRemoved c) := by
  refine .bind (.read _) fun phase => .bind (.modify fun s => mute_onChannel s c fun _ => rfl) fun _ => ?_
  have hcontext : Moves Mute
      (Exec.modify (State.onChannel c fun k => { k with context := false }) : Proc Unit) :=
    .modify fun s => mute_onChannel s c fun _ => rfl
  refine .ite (mute_socketClient.bind fun t => .ite (.bind ?_ fun _ => hcontext) hcontext) (.pure ())
  exact .modify fun _ => ⟨fun _ => rfl, rfl⟩

theorem mute_tcpDoConnect : Moves Mute TcpSocketClient.doConnect :=
  mute_socketClient.bind fun t => .ite
    (.modify fun s => mute_onClient s fun t c => by
      show (Function.update t.channel t.made { t.channel t.made with phase := .registering } c).written = _
      rcases eq_or_ne c t.made with rfl | hne
      · rw [Function.update_self]
      · rw [Function.update_of_ne hne]) (.fail _)

theorem mute_fire : Moves Mute fire :=
  .bind (.modify fun _ => ⟨fun _ => rfl, rfl⟩) fun _ => mute_socketClient.bind fun _ =>
    .bind (.modify fun s => mute_onClient s fun _ _ => rfl) fun _ => mute_tcpDoConnect

theorem Mute.adds (h : Mute s s') : Adds s s' (fun _ => []) [] := adds_of_same h.1 h.2

/-- A client that has just been made has written nothing. -/
theorem adds_connectDomain (E : Config) (hnone : s.socketClient = none) (d : RouterDomain) :
    Adds s ((startConnecting E d).run { s with domain := some d }).2 (fun _ => []) [] := by
  have hbefore : ∀ c, (s.channel c).written = [] := fun c => by simp [State.channel, hnone]
  have hmade : ∀ s' : State, Mute { s with domain := some d, socketClient := some {} } s' →
      Adds s s' (fun _ => []) [] := fun s' hs' =>
    adds_of_same (fun c => by rw [hs'.1, hbefore]; rfl) hs'.2
  rw [startConnecting]
  split
  · exact adds_of_same (fun _ => rfl) rfl
  · split
    · exact adds_of_same (fun _ => rfl) rfl
    · next uri _ =>
      rw [run_modify_bind]
      refine hmade _ (Moves.bind ?_ (fun _ => .pure _) _)
      exact .bind (.modify fun s => mute_onClient s fun _ _ => rfl) fun _ => mute_tcpDoConnect

section

variable [JavaChar] {E : Config}

omit [JavaChar] in
theorem channel_opened (ht : s.socketClient = some t) (c' : ℕ) : (opened s t c).channel c' =
    Function.update s.channel c { s.channel c with phase := .connected } c' := by
  show Function.update t.channel c { t.channel c with phase := .connected } c' = _
  rcases eq_or_ne c' c with rfl | hne
  · rw [Function.update_self, Function.update_self, channel_of_client ht]
  · rw [Function.update_of_ne hne, Function.update_of_ne hne, channel_of_client ht]

/-- A channel that has its TCP connection, and the login after that if there is a callback. -/
theorem adds_connected (hs : s.IsWired) (hc : (s.channel c).phase = .registered) :
    Adds s ((operationComplete E c).run s).2
      (fun c' => if c' = c ∧ s.callsBack then [login E] else []) [] := by
  obtain ⟨t, ht⟩ := exists_client (s := s) (c := c) (by rw [hc]; rfl)
  have hwired := (hs.some t ht).2
  have hlive : (t.channel c).phase.isLive = true := by rw [← channel_of_client ht, hc]; rfl
  have hcalls : s.callsBack = t.connectedCallback := by rw [State.callsBack, ht, Option.any_some]
  cases hcallback : t.connectedCallback with
  | false =>
    rw [run_operationComplete_unset E ht hcallback, hcalls, hcallback]
    simp only [Bool.false_eq_true, and_false, if_false]
    exact (mute_onChannel s c (f := fun k => { k with phase := .connected }) fun _ => rfl).adds
  | true =>
  rw [hcalls, hcallback]
  simp only [and_true]
  have hrun := run_operationComplete (E := E) (c := c) ht hcallback
  -- what is written at the end does not matter for the wiring
  have hopened : (opened s t c).IsWired := by
    have hwired' := (keeps_connected E hs hc).1
    rw [hrun, ← isWired_core, quiet_tcpSendMessage (login E) (opened s t c), isWired_core] at hwired'
    exact hwired'
  have hto : toOpen (opened s t c) [login E] = fun c' => if c' = c then [login E] else [] := by
    funext c'
    rw [toOpen, channel_opened ht]
    rcases eq_or_ne c' c with rfl | hne
    · rw [Function.update_self, if_pos rfl, if_pos rfl]
    · rw [Function.update_of_ne hne, if_neg hne, if_neg]
      intro hc'
      rw [channel_of_client ht] at hc'
      exact hne (hwired.single c' c (by rw [hc']; rfl) hlive)
  rw [hrun, ← hto]
  refine (adds_tcpSendMessage hopened rfl (login E)).of_same (fun c' => ?_) rfl
  rw [channel_opened ht]
  rcases eq_or_ne c' c with rfl | hne
  · rw [Function.update_self]
  · rw [Function.update_of_ne hne]

omit [JavaChar] in
/-- A tunnel without a domain has no client. -/
theorem client_of_start (hs : s.IsWired) (hdomain : s.domain.isNone = true) : s.socketClient = none := by
  rcases ht : s.socketClient with _ | t
  · rfl
  · have hsome := (hs.some t ht).1
    rw [Option.isNone_iff_eq_none.1 hdomain] at hsome
    cases hsome

/-- What each event has the tunnel write and hand on. -/
theorem adds_step {e : Event} (hs : s.IsWired) (hst : (system E).step s e = some s') :
    Adds s s' (fun c => said E s c e) (passedOn s e) := by
  cases e with
  | connectDomain d =>
    obtain ⟨hdomain, hs'⟩ := Option.ite_none_right_eq_some.1 hst
    cases hs'
    exact adds_connectDomain E (client_of_start hs hdomain) d
  | onConnected =>
    obtain ⟨-, hs'⟩ := Option.ite_none_right_eq_some.1 hst
    cases hs'
    exact (mute_onClient s (f := fun t => { t with connectedCallback := true }) fun _ _ => rfl).adds
  | onDisconnected =>
    obtain ⟨-, hs'⟩ := Option.ite_none_right_eq_some.1 hst
    cases hs'
    exact (mute_onClient s (f := fun t => { t with disconnectedCallback := true }) fun _ _ => rfl).adds
  | onMessage =>
    cases hst
    exact adds_of_same (fun _ => rfl) rfl
  | onAuthenticated =>
    cases hst
    exact adds_of_same (fun _ => rfl) rfl
  | initChannel c =>
    obtain ⟨-, hs'⟩ := Option.ite_none_right_eq_some.1 hst
    cases hs'
    exact (mute_initChannel c s).adds
  | connected c =>
    obtain ⟨hc, hs'⟩ := Option.ite_none_right_eq_some.1 hst
    cases hs'
    exact adds_connected hs hc
  | message c content =>
    obtain ⟨hc, hs'⟩ := Option.ite_none_right_eq_some.1 hst
    cases hs'
    have hadds : Adds s ((channelRead0 c content).run s).2
        (toOpen s (if s.listens then answer s content else [])) (passedOn s (.message c content)) :=
      adds_message hs hc
    have hto : toOpen s (if s.listens then answer s content else []) =
        fun c' => said E s c' (.message c content) := by
      funext c'
      by_cases hopen : (s.channel c').phase = .connected
      · -- there is no other channel
        obtain ⟨t, ht⟩ := exists_client (s := s) (c := c') (by rw [hopen]; rfl)
        have hsame : c' = c := by
          refine (hs.some t ht).2.single c' c ?_ (isLive_of_connected ?_)
          · rw [← channel_of_client ht, hopen]
            rfl
          · rw [← channel_of_client ht]
            exact hc
        rw [toOpen, said, if_pos hopen]
        cases hlistens : s.listens with
        | false => rw [if_neg Bool.false_ne_true, if_neg fun h => Bool.false_ne_true h.2.1]
        | true => rw [if_pos rfl, if_pos ⟨hsame, rfl, hopen⟩]
      · rw [toOpen, said, if_neg hopen, if_neg fun h => hopen h.2.2]
    rw [← hto]
    exact hadds
  | removed c =>
    obtain ⟨-, hs'⟩ := Option.ite_none_right_eq_some.1 hst
    cases hs'
    exact (mute_channelRemoved c s).adds
  | reconnect =>
    obtain ⟨-, hs'⟩ := Option.ite_none_right_eq_some.1 hst
    cases hs'
    exact (mute_fire s).adds
  | sendMessage m =>
    cases hst
    have hto : toOpen s (if s.isAuthenticated then [m] else []) =
        fun c => said E s c (.sendMessage m) := by
      funext c
      rw [toOpen, said]
      by_cases hauth : s.isAuthenticated = true
      · simp [hauth]
      · simp [hauth]
    rw [← hto]
    exact adds_sendMessage hs m

end

end

section

variable [JavaChar] {E : Config}

/-- A run, event by event. -/
theorem adds_of_path {l : List (System.Step State Event)} {s : State}
    (h : (system E).Path (fun _ _ => True) start l s) :
    Adds start s (fun c => l.flatMap fun st => said E st.before c st.event)
      (l.flatMap fun st => passedOn st.before st.event) := by
  induction h with
  | nil => exact .refl start
  | @snoc l s s' e hpath _ hst ih =>
    obtain ⟨hwritten, hhanded⟩ := adds_step (usable_of_path hpath).1 hst
    refine ⟨fun c => ?_, ?_⟩
    · rw [hwritten, ih.written, List.flatMap_append, List.flatMap_singleton, List.append_assoc]
    · rw [hhanded, ih.handed, List.flatMap_append, List.flatMap_singleton, List.append_assoc]

end

/-! ### The login comes first -/

/-- Whether the channel has never been open. -/
def Phase.isFresh : Phase → Bool
  | .absent | .registering | .registered => true
  | _ => false

/-- The numbers of the channels to come are not used. -/
def Numbered (s : State) : Prop :=
  ∀ t, s.socketClient = some t → ∀ c, t.made ≤ c → (t.channel c).phase = .absent

/-- A positive reply has been read on channel `c`. -/
def Accepted (s : State) (c : ℕ) : Prop := ∃ content ∈ (s.channel c).received, content.reply? = some true

/-- What an event leaves of the channels: none becomes fresh again, only a fresh one is opened, and only
a positive reply authenticates the tunnel. -/
structure Evolves (s s' : State) (e : Event) : Prop where
  numbered : Numbered s → Numbered s'
  fresh : Numbered s → ∀ c, (s'.channel c).phase.isFresh = true → (s.channel c).phase.isFresh = true
  opened : ∀ c, (s'.channel c).phase = .connected → (s.channel c).phase = .connected ∨ e = .connected c
  received : ∀ c, (s.channel c).received ⊆ (s'.channel c).received
  read : ∀ c content, e = .message c content → content ∈ (s'.channel c).received
  authenticated : s'.isAuthenticated = true → (s.isAuthenticated = true ∧ ∀ c, e ≠ .connected c) ∨
    ∀ c, (s'.channel c).phase = .connected → Accepted s' c
  listens : s'.listens = true → s.listens = true ∨ ∃ c, e = .connected c

section

variable {s s₁ s' : State} {t : TcpSocketClient} {c : ℕ} {e : Event}

theorem phase_core (s : State) (c : ℕ) : (s.core.channel c).phase = (s.channel c).phase := by
  rcases ht : s.socketClient with _ | t <;> simp [State.channel, State.core, ht, TcpSocketClient.core]

theorem received_core (s : State) (c : ℕ) : (s.core.channel c).received = (s.channel c).received := by
  rcases ht : s.socketClient with _ | t <;> simp [State.channel, State.core, ht, TcpSocketClient.core]

theorem listens_core (s : State) : s.core.listens = s.listens := by
  rcases ht : s.socketClient with _ | t <;> simp [State.listens, State.core, ht, TcpSocketClient.core]

theorem listens_of_client (ht : s.socketClient = some t) : s.listens = t.msgCallback := by
  rw [State.listens, ht, Option.any_some]

theorem numbered_core : Numbered s.core ↔ Numbered s := by
  refine ⟨fun h t ht => h t.core (by simp [State.core, ht]), fun h t ht => ?_⟩
  obtain ⟨t', ht', rfl⟩ := Option.map_eq_some_iff.1 ht
  exact h t' ht'

/-- What is only written and handed on does not matter. -/
theorem Evolves.quiet (h : Evolves s s₁ e) (hquiet : Quiet s₁ s') : Evolves s s' e := by
  have hphase : ∀ c, (s'.channel c).phase = (s₁.channel c).phase := fun c => by
    rw [← phase_core, hquiet, phase_core]
  have hreceived : ∀ c, (s'.channel c).received = (s₁.channel c).received := fun c => by
    rw [← received_core, hquiet, received_core]
  have hauth : s'.isAuthenticated = s₁.isAuthenticated :=
    (congrArg State.isAuthenticated hquiet : s'.core.isAuthenticated = s₁.core.isAuthenticated)
  have hlistens : s'.listens = s₁.listens := by rw [← listens_core, hquiet, listens_core]
  refine ⟨fun hs => ?_, fun hs c hc => ?_, fun c hc => ?_, fun c => ?_, fun c content he => ?_,
    fun hs' => ?_, fun hs' => h.listens (hlistens ▸ hs')⟩
  · rw [← numbered_core, hquiet, numbered_core]
    exact h.numbered hs
  · exact h.fresh hs c (hphase c ▸ hc)
  · exact h.opened c (hphase c ▸ hc)
  · rw [hreceived]
    exact h.received c
  · rw [hreceived]
    exact h.read c content he
  · refine (h.authenticated (hauth ▸ hs')).imp_right fun haccepted c hc => ?_
    rw [hphase] at hc
    obtain ⟨content, hcontent, hreply⟩ := haccepted c hc
    exact ⟨content, by rwa [hreceived], hreply⟩

/-- Only channel `c`, which is there, has changed. -/
theorem evolves_of_channel (ht : s.socketClient = some t) (hlive : (s.channel c).phase.isLive = true)
    {t' : TcpSocketClient} {k : Channel} (ht' : s'.socketClient = some t')
    (hchannel : t'.channel = Function.update t.channel c k) (hmade : t'.made = t.made)
    (hfresh : k.phase.isFresh = true → (s.channel c).phase.isFresh = true)
    (hopened : k.phase = .connected → (s.channel c).phase = .connected ∨ e = .connected c)
    (hreceived : (s.channel c).received ⊆ k.received)
    (hread : ∀ c' content, e = .message c' content → c' = c ∧ content ∈ k.received)
    (hauth : s'.isAuthenticated = true → (s.isAuthenticated = true ∧ ∀ c, e ≠ .connected c) ∨
      ∀ c, (s'.channel c).phase = .connected → Accepted s' c)
    (hlistens : t'.msgCallback = true → t.msgCallback = true ∨ ∃ c, e = .connected c) :
    Evolves s s' e := by
  have hk : ∀ c', s'.channel c' = Function.update s.channel c k c' := fun c' => by
    rw [channel_of_client ht', hchannel]
    rcases eq_or_ne c' c with rfl | hne
    · rw [Function.update_self, Function.update_self]
    · rw [Function.update_of_ne hne, Function.update_of_ne hne, channel_of_client ht]
  refine ⟨fun hs t₁ ht₁ c' hc' => ?_, fun _ c' hc' => ?_, fun c' hc' => ?_, fun c' => ?_,
    fun c' content he => ?_, hauth, fun hs' => ?_⟩
  · cases Option.some.inj (ht'.symm.trans ht₁)
    have habsent := hs t ht c' (hmade ▸ hc')
    have hne : c' ≠ c := by
      rintro rfl
      rw [channel_of_client ht, habsent] at hlive
      cases hlive
    rw [hchannel, Function.update_of_ne hne]
    exact habsent
  · rw [hk] at hc'
    rcases eq_or_ne c' c with rfl | hne
    · rw [Function.update_self] at hc'
      exact hfresh hc'
    · rwa [Function.update_of_ne hne] at hc'
  · rw [hk] at hc'
    rcases eq_or_ne c' c with rfl | hne
    · rw [Function.update_self] at hc'
      exact hopened hc'
    · rw [Function.update_of_ne hne] at hc'
      exact .inl hc'
  · rw [hk]
    rcases eq_or_ne c' c with rfl | hne
    · rw [Function.update_self]
      exact hreceived
    · rw [Function.update_of_ne hne]
      exact fun _ h => h
  · obtain ⟨rfl, hcontent⟩ := hread c' content he
    rw [hk, Function.update_self]
    exact hcontent
  · rw [listens_of_client ht'] at hs'
    rw [listens_of_client ht]
    exact hlistens hs'

/-- An event that leaves the channels alone. -/
theorem evolves_of_same (hnumbered : Numbered s → Numbered s') (hsame : ∀ c, s'.channel c = s.channel c)
    (hlistens : s'.listens = s.listens) (hauth : s'.isAuthenticated = s.isAuthenticated)
    (he : ∀ c, e ≠ .connected c) (hread : ∀ c content, e ≠ .message c content) : Evolves s s' e := by
  refine ⟨hnumbered, fun _ c hc => ?_, fun c hc => .inl ?_, fun c => ?_,
    fun c content h => absurd h (hread c content), fun h => .inl ⟨hauth ▸ h, he⟩,
    fun h => .inl (hlistens ▸ h)⟩
  · rwa [hsame] at hc
  · rwa [hsame] at hc
  · rw [hsame]
    exact fun _ h => h

/-- An event that leaves the client alone. -/
theorem evolves_of_client (hclient : s'.socketClient = s.socketClient)
    (hauth : s'.isAuthenticated = s.isAuthenticated) (he : ∀ c, e ≠ .connected c)
    (hread : ∀ c content, e ≠ .message c content) : Evolves s s' e := by
  refine evolves_of_same (fun hs t ht => hs t (hclient ▸ ht)) (fun c => ?_) ?_ hauth he hread
  · rw [State.channel, State.channel, hclient]
  · rw [State.listens, State.listens, hclient]

/-- What `doConnect` sets after `connect`. -/
theorem evolves_onClient {f : TcpSocketClient → TcpSocketClient}
    (hf : ∀ t, (f t).channel = t.channel ∧ (f t).made = t.made ∧ (f t).msgCallback = t.msgCallback)
    (he : ∀ c, e ≠ .connected c) (hread : ∀ c content, e ≠ .message c content) :
    Evolves s (s.onClient f) e := by
  refine evolves_of_same (fun hs t ht => ?_) (fun c => ?_) ?_ rfl he hread
  · obtain ⟨t', ht', rfl⟩ := Option.map_eq_some_iff.1 ht
    rw [(hf t').1, (hf t').2.1]
    exact hs t' ht'
  · cases ht : s.socketClient <;> simp [State.channel, ht, (hf _).1]
  · cases ht : s.socketClient <;> simp [State.listens, ht, (hf _).2.2]

theorem evolves_initChannel (hc : (s.channel c).phase = .registering) :
    Evolves s ((initChannel c).run s).2 (.initChannel c) := by
  obtain ⟨t, ht⟩ := exists_client (s := s) (c := c) (by rw [hc]; rfl)
  have hnext : ((initChannel c).run s).2.socketClient = some { t with
      socketClientHandler := some c
      channel := Function.update t.channel c
        { t.channel c with phase := .registered, context := true } } := by
    simp [initChannel, State.onChannel, State.onClient, ht, TcpSocketClient.update]
  refine evolves_of_channel ht (by rw [hc]; rfl) hnext rfl rfl (fun _ => by rw [hc]; rfl)
    (fun h => by cases h) (by rw [channel_of_client ht]; exact fun _ h => h) (fun _ _ h => by cases h)
    (fun h => .inl ⟨h, ?_⟩) .inl
  simp

theorem evolves_connected [JavaChar] (E : Config) (hs : s.IsWired)
    (hc : (s.channel c).phase = .registered) :
    Evolves s ((operationComplete E c).run s).2 (.connected c) := by
  obtain ⟨t, ht⟩ := exists_client (s := s) (c := c) (by rw [hc]; rfl)
  have hevolves : ∀ (s' : State) (t' : TcpSocketClient), s'.socketClient = some t' →
      t'.channel = Function.update t.channel c { t.channel c with phase := .connected } →
      t'.made = t.made → s'.isAuthenticated = false → Evolves s s' (.connected c) := by
    intro s' t' ht' hchannel hmade hauth
    refine evolves_of_channel ht (by rw [hc]; rfl) ht' hchannel hmade (fun h => by cases h)
      (fun _ => .inr rfl) (by rw [channel_of_client ht]; exact fun _ h => h)
      (fun _ _ h => by cases h) (fun h => ?_) fun _ => .inr ⟨c, rfl⟩
    rw [hauth] at h
    cases h
  cases hcallback : t.connectedCallback with
  | true =>
    rw [run_operationComplete ht hcallback]
    exact (hevolves (opened s t c) _ rfl rfl rfl rfl).quiet (quiet_tcpSendMessage _ _)
  | false =>
    -- without the callback the tunnel has not signed in
    have hauth : s.isAuthenticated = false := by
      by_contra hauth
      rw [Bool.not_eq_false] at hauth
      rw [(hs.some t ht).2.called (.inr (.inl (hs.listening hauth t ht)))] at hcallback
      cases hcallback
    rw [run_operationComplete_unset E ht hcallback]
    exact hevolves _ (t.update c fun k => { k with phase := .connected })
      (by simp [State.onChannel, ht]) rfl rfl hauth

theorem evolves_message {content : MessageContentOutput} (hs : s.IsWired)
    (hc : (s.channel c).phase = .connected ∨ (s.channel c).phase = .closing) :
    Evolves s ((channelRead0 c content).run s).2 (.message c content) := by
  have hlive : (s.channel c).phase.isLive = true := by rcases hc with hc | hc <;> rw [hc] <;> rfl
  obtain ⟨t, ht⟩ := exists_client hlive
  obtain ⟨hdomain, hwired⟩ := hs.some t ht
  have hreading : Wired (t.reading c content) s.scheduled := hwired.reading
  have hne : ∀ c', Event.message c content ≠ .connected c' := fun _ h => by cases h
  have hmore : (s.channel c).received ⊆ (t.channel c).received ++ [content] := by
    rw [channel_of_client ht]
    exact List.subset_append_left _ _
  have hnotFresh : (t.channel c).phase.isFresh = true → (s.channel c).phase.isFresh = true := by
    rw [channel_of_client ht]
    exact id
  have hphase : (t.channel c).phase = .connected → (s.channel c).phase = .connected ∨
      Event.message c content = .connected c := by
    rw [channel_of_client ht]
    exact .inl
  have hread : ∀ c' content', Event.message c content = .message c' content' →
      c' = c ∧ content' ∈ (t.channel c).received ++ [content] := by
    rintro c' content' h
    cases h
    exact ⟨rfl, List.mem_append_right _ List.mem_cons_self⟩
  have hc' := hc
  rw [channel_of_client ht] at hc'
  have hreads : Evolves s { s with socketClient := some (t.reading c content) } (.message c content) :=
    evolves_of_channel ht hlive rfl rfl rfl hnotFresh hphase hmore hread (fun h => .inl ⟨h, hne⟩) .inl
  cases hlistening : t.msgCallback with
  | false =>
    rw [run_channelRead0_unset ht hlistening]
    exact hreads
  | true =>
  rw [run_channelRead0 ht hlistening]
  cases hreply : content.reply? with
  | none => exact hreads.quiet (quiet_onMessageArrived hreply _)
  | some b =>
    cases b with
    | true =>
      refine Evolves.quiet ?_ (quiet_onMessageArrived_positive hreply _)
      refine evolves_of_channel ht hlive rfl rfl rfl hnotFresh hphase hmore hread
        (fun _ => .inr fun c' hopen => ?_) .inl
      -- the open channel is the one that has been read
      have hclient : ∀ c', ({ s with
          socketClient := some (t.reading c content), isAuthenticated := true } : State).channel c' =
          (t.reading c content).channel c' := fun c' => channel_of_client rfl c'
      rw [hclient, phase_reading] at hopen
      have hsame := hwired.single c' c (by rw [hopen]; rfl) (isLive_of_connected hc')
      subst hsame
      refine ⟨content, ?_, hreply⟩
      rw [hclient, channel_reading]
      exact List.mem_append_right _ List.mem_cons_self
    | false =>
      obtain ⟨hhandler, hcontext⟩ := hreading.handler c
        (by rw [phase_reading]; rcases hc' with hc' | hc' <;> rw [hc'] <;> rfl)
      rw [run_onMessageArrived_negative hreply (t := t.reading c content) rfl hhandler hcontext]
      refine evolves_of_channel ht hlive
        (k := { t.channel c with
          phase := .closing, received := (t.channel c).received ++ [content] }) rfl ?_ rfl
        (fun h => by cases h) (fun h => by cases h) hmore hread (fun h => .inl ⟨h, hne⟩) .inl
      show Function.update (Function.update t.channel c _) c _ = _
      rw [Function.update_idem, channel_reading]
      rfl

theorem evolves_removed (hlive : (s.channel c).phase.isLive = true) :
    Evolves s ((channelRemoved c).run s).2 (.removed c) := by
  obtain ⟨t, ht⟩ := exists_client hlive
  obtain ⟨t', hgone⟩ := exists_gone (c := c) ht
  obtain ⟨k, hchannel, hphase, hreceived, -⟩ := hgone.channel
  refine evolves_of_channel ht hlive hgone.client hchannel hgone.made (fun h => ?_) (fun h => ?_) ?_
    (fun _ _ h => by cases h) (fun h => .inl ?_) fun h => .inl (hgone.callbacks.2.2 ▸ h)
  · rw [hphase] at h
    cases h
  · rw [hphase] at h
    cases h
  · rw [hreceived, channel_of_client ht]
    exact fun _ h => h
  · exact ⟨hgone.isAuthenticated ▸ h, fun _ h => by cases h⟩

/-- A client that connects has one channel more, which is not open. -/
theorem evolves_bootstrap (ht : s.socketClient = some t) (he : ∀ c, e ≠ .connected c)
    (hread : ∀ c content, e ≠ .message c content)
    (hs' : s'.socketClient = some t.bootstrap) (hauth : s'.isAuthenticated = s.isAuthenticated) :
    Evolves s s' e := by
  have hnew : t.bootstrap.channel =
      Function.update t.channel t.made { t.channel t.made with phase := .registering } := rfl
  refine ⟨fun hs t₁ ht₁ c hc => ?_, fun hs c hc => ?_, fun c hc => .inl ?_, fun c => ?_,
    fun c content h => absurd h (hread c content), fun h => .inl ⟨hauth ▸ h, he⟩, fun h => .inl ?_⟩
  · cases Option.some.inj (hs'.symm.trans ht₁)
    have hlt : t.made + 1 ≤ c := hc
    rw [hnew, Function.update_of_ne (by omega)]
    exact hs t ht c (by omega)
  · rw [channel_of_client ht]
    rcases eq_or_ne c t.made with rfl | hne
    · rw [hs t ht t.made le_rfl]
      rfl
    · rwa [channel_of_client hs', hnew, Function.update_of_ne hne] at hc
  · rw [channel_of_client hs', hnew] at hc
    rw [channel_of_client ht]
    rcases eq_or_ne c t.made with rfl | hne
    · rw [Function.update_self] at hc
      cases hc
    · rwa [Function.update_of_ne hne] at hc
  · rw [channel_of_client hs', channel_of_client ht, hnew]
    rcases eq_or_ne c t.made with rfl | hne
    · rw [Function.update_self]
      exact fun _ h => h
    · rw [Function.update_of_ne hne]
      exact fun _ h => h
  · rw [listens_of_client hs'] at h
    rw [listens_of_client ht]
    exact h

theorem evolves_reconnect (hs : s.IsWired) (hscheduled : 0 < s.scheduled) :
    Evolves s (fire.run s).2 .reconnect := by
  obtain ⟨t, ht⟩ : ∃ t, s.socketClient = some t := by
    rcases ht : s.socketClient with _ | t
    · exact absurd (hs.none ht).2 (Nat.pos_iff_ne_zero.1 hscheduled)
    · exact ⟨t, rfl⟩
  let s₁ : State := { s with scheduled := s.scheduled - 1 }
  have hsame : s₁.onClient (fun t' => { t' with host := t.host, port := t.port }) = s₁ := by
    simp [s₁, State.onClient, ht]
  have hrun : fire.run s = TcpSocketClient.doConnect.run s₁ := by
    rw [fire, run_modify_bind, TcpSocketClient.reconnect,
      run_bind_ok (run_socketClient_some (s := s₁) ht), TcpSocketClient.connect, run_modify_bind, hsame]
  rw [hrun]
  rcases run_tcpDoConnect (s := s₁) ht with hrun | hrun
  · rw [hrun]
    exact evolves_of_client rfl rfl (by simp) (by simp)
  · rw [hrun]
    exact evolves_bootstrap ht (by simp) (by simp) (by simp [s₁, ht]) rfl

/-- The first channel of a tunnel. -/
theorem evolves_connectDomain (E : Config) (hnone : s.socketClient = none) (d : RouterDomain) :
    Evolves s ((startConnecting E d).run { s with domain := some d }).2 (.connectDomain d) := by
  have hbefore : ∀ c, s.channel c = {} := fun c => by simp [State.channel, hnone]
  -- a new client has at most one channel, which is not open
  have hmade : ∀ s' : State, s'.isAuthenticated = s.isAuthenticated → Numbered s' →
      (∀ c, (s'.channel c).phase ≠ .connected) → s'.listens = false →
      Evolves s s' (.connectDomain d) := by
    intro s' hauth hnumbered hclosed hlistens
    have hne : ∀ c, Event.connectDomain d ≠ .connected c := by simp
    refine ⟨fun _ => hnumbered, fun _ c _ => ?_, fun c hc => absurd hc (hclosed c), fun c => ?_,
      (fun _ _ h => by cases h), fun h => .inl ⟨hauth ▸ h, hne⟩, fun h => ?_⟩
    · rw [hbefore]
      rfl
    · rw [hbefore]
      exact List.nil_subset _
    · rw [hlistens] at h
      cases h
  have hempty : ∀ s' : State, s'.isAuthenticated = s.isAuthenticated → s'.socketClient = none →
      Evolves s s' (.connectDomain d) := by
    intro s' hauth hs'
    refine hmade s' hauth (fun t ht => ?_) (fun c => ?_) ?_
    · rw [hs'] at ht
      cases ht
    · simp [State.channel, hs']
    · simp [State.listens, hs']
  rw [startConnecting]
  split
  · exact hempty _ rfl hnone
  · split
    · exact hempty _ rfl hnone
    · next uri _ =>
      let t₀ : TcpSocketClient := { host := uri.host, port := uri.port }
      let s₁ : State := { s with domain := some d, socketClient := some t₀ }
      have hconnect : (TcpSocketClient.connect uri.host uri.port).run
          { s with domain := some d, socketClient := some {} } = TcpSocketClient.doConnect.run s₁ := rfl
      rw [run_modify_bind]
      rcases run_tcpDoConnect (s := s₁) rfl with hrun | hrun
      · rw [run_bind_error (hconnect.trans hrun)]
        refine hmade _ rfl (fun t ht c _ => ?_) (fun c hc => ?_) rfl
        · cases ht
          rfl
        · cases hc
      · rw [run_bind_ok (hconnect.trans hrun)]
        refine hmade _ rfl (fun t ht c hc => ?_) (fun c hc => ?_) rfl
        · cases ht
          have hpos : 1 ≤ c := hc
          show (Function.update t₀.channel 0 _ c).phase = .absent
          rw [Function.update_of_ne (by omega)]
        · have hc' : (Function.update t₀.channel 0
              { t₀.channel 0 with phase := Phase.registering } c).phase = .connected := hc
          rcases eq_or_ne c 0 with rfl | hne
          · rw [Function.update_self] at hc'
            cases hc'
          · rw [Function.update_of_ne hne] at hc'
            cases hc'

end

section

variable [JavaChar] {E : Config}

theorem evolves_step {s s' : State} {e : Event} (hs : s.IsWired)
    (hst : (system E).step s e = some s') : Evolves s s' e := by
  cases e with
  | connectDomain d =>
    obtain ⟨hdomain, hs'⟩ := Option.ite_none_right_eq_some.1 hst
    cases hs'
    exact evolves_connectDomain E (client_of_start hs hdomain) d
  | onConnected =>
    obtain ⟨-, hs'⟩ := Option.ite_none_right_eq_some.1 hst
    cases hs'
    exact evolves_onClient (fun _ => ⟨rfl, rfl, rfl⟩) (by simp) (by simp)
  | onDisconnected =>
    obtain ⟨-, hs'⟩ := Option.ite_none_right_eq_some.1 hst
    cases hs'
    exact evolves_onClient (fun _ => ⟨rfl, rfl, rfl⟩) (by simp) (by simp)
  | onMessage =>
    cases hst
    exact evolves_of_client rfl rfl (by simp) (by simp)
  | onAuthenticated =>
    cases hst
    exact evolves_of_client rfl rfl (by simp) (by simp)
  | initChannel c =>
    obtain ⟨hc, hs'⟩ := Option.ite_none_right_eq_some.1 hst
    cases hs'
    exact evolves_initChannel hc
  | connected c =>
    obtain ⟨hc, hs'⟩ := Option.ite_none_right_eq_some.1 hst
    cases hs'
    exact evolves_connected E hs hc
  | message c content =>
    obtain ⟨hc, hs'⟩ := Option.ite_none_right_eq_some.1 hst
    cases hs'
    exact evolves_message hs hc
  | removed c =>
    obtain ⟨hlive, hs'⟩ := Option.ite_none_right_eq_some.1 hst
    cases hs'
    exact evolves_removed hlive
  | reconnect =>
    obtain ⟨hpos, hs'⟩ := Option.ite_none_right_eq_some.1 hst
    cases hs'
    exact evolves_reconnect hs hpos
  | sendMessage m =>
    cases hst
    exact Evolves.quiet (evolves_of_client rfl rfl (by simp) (by simp)) (quiet_sendMessage m s)

/-- A channel that is connected is open, and without a callback the client does not listen more. -/
theorem opened_operationComplete {s : State} {c : ℕ} (hc : (s.channel c).phase = .registered) :
    (((operationComplete E c).run s).2.channel c).phase = .connected ∧
      (s.callsBack = true ∨ ((operationComplete E c).run s).2.listens = s.listens) := by
  obtain ⟨t, ht⟩ := exists_client (s := s) (c := c) (by rw [hc]; rfl)
  cases hcallback : t.connectedCallback with
  | true =>
    have hquiet := quiet_tcpSendMessage (login E) (opened s t c)
    rw [run_operationComplete ht hcallback]
    refine ⟨?_, .inl ?_⟩
    · rw [← phase_core, hquiet, phase_core, channel_opened ht, Function.update_self]
    · rw [State.callsBack, ht, Option.any_some, hcallback]
  | false =>
    have hclient : (s.onChannel c fun k => { k with phase := .connected }).socketClient =
        some (t.update c fun k => { k with phase := .connected }) := by
      simp [State.onChannel, ht]
    rw [run_operationComplete_unset E ht hcallback]
    refine ⟨?_, .inr ?_⟩
    · rw [channel_onChannel ht, Function.update_self]
    · rw [listens_of_client hclient, listens_of_client ht]
      rfl

omit [JavaChar] in
/-- A client listens once the connected callback has been run. -/
theorem State.IsWired.callsBack {s : State} (hs : s.IsWired) (h : s.listens = true) :
    s.callsBack = true := by
  rcases ht : s.socketClient with _ | t
  · rw [State.listens, ht] at h
    cases h
  · rw [State.callsBack, ht, Option.any_some]
    exact (hs.some t ht).2.called (.inr (.inl (listens_of_client ht ▸ h)))

omit [JavaChar] in
theorem State.IsWired.listens {s : State} (hs : s.IsWired) (h : s.isAuthenticated = true) :
    s.listens = true := by
  rcases ht : s.socketClient with _ | t
  · rw [(hs.none ht).1] at h
    cases h
  · rw [listens_of_client ht]
    exact hs.listening h t ht

omit [JavaChar] in
theorem State.IsWired.single {s : State} {c c' : ℕ} (hs : s.IsWired)
    (hc : (s.channel c).phase.isLive = true) (hc' : (s.channel c').phase.isLive = true) : c = c' := by
  obtain ⟨t, ht⟩ := exists_client hc
  rw [channel_of_client ht] at hc hc'
  exact (hs.some t ht).2.single c c' hc hc'

/-- What the channels have been written: first the login, and more only after a positive reply. -/
structure Spoken (E : Config) (s : State) : Prop where
  numbered : Numbered s
  fresh : ∀ c, (s.channel c).phase.isFresh = true → (s.channel c).written = []
  /-- Only a channel that was connected before there was a callback has been written nothing. -/
  begun : s.listens = true → ∀ c, (s.channel c).phase = .connected → (s.channel c).written ≠ []
  accepted : s.isAuthenticated = true → ∀ c, (s.channel c).phase = .connected → Accepted s c
  spoken : ∀ c, (s.channel c).written = [] ∨
    ∃ rest, (s.channel c).written = login E :: rest ∧ (rest ≠ [] → Accepted s c)

omit [JavaChar] in
theorem Evolves.accepted {s s' : State} {e : Event} {c : ℕ} (h : Evolves s s' e) (hc : Accepted s c) :
    Accepted s' c := by
  obtain ⟨content, hcontent, hreply⟩ := hc
  exact ⟨content, h.received c hcontent, hreply⟩

/-- What is written to a channel that is not new, is written after a positive reply. -/
theorem accepted_of_said {s s' : State} {e : Event} {c : ℕ} (h : Spoken E s) (hs : s.IsWired)
    (hevolves : Evolves s s' e) (he : e ≠ .connected c) (hsaid : said E s c e ≠ []) :
    s.listens = true ∧ (s.channel c).phase = .connected ∧ Accepted s' c := by
  cases e with
  | connected c' =>
    rw [said] at hsaid
    split_ifs at hsaid with hc
    · exact absurd (hc.1 ▸ rfl) he
    · exact absurd rfl hsaid
  | message c' content =>
    rw [said] at hsaid
    split_ifs at hsaid with hc
    · obtain ⟨rfl, hlistens, hopen⟩ := hc
      refine ⟨hlistens, hopen, ?_⟩
      rw [answer] at hsaid
      cases hreply : content.reply? with
      | some b =>
        rw [hreply] at hsaid
        simp only at hsaid
        split_ifs at hsaid with hb
        · rw [Bool.and_eq_true] at hb
          rw [hb.1] at hreply
          exact ⟨content, hevolves.read c content rfl, hreply⟩
        · exact absurd rfl hsaid
      | none =>
        rw [hreply] at hsaid
        simp only at hsaid
        split_ifs at hsaid with hauth
        · simp only [Bool.and_eq_true] at hauth
          exact hevolves.accepted (h.accepted hauth.1.2 c hopen)
        · exact absurd rfl hsaid
    · exact absurd rfl hsaid
  | sendMessage m =>
    rw [said] at hsaid
    split_ifs at hsaid with hc
    · exact ⟨hs.listens hc.1, hc.2, hevolves.accepted (h.accepted hc.1 c hc.2)⟩
    · exact absurd rfl hsaid
  | _ => exact absurd rfl hsaid

theorem Spoken.step {s s' : State} {e : Event} (h : Spoken E s) (hs : s.IsWired)
    (hst : (system E).step s e = some s') : Spoken E s' := by
  have hadds := adds_step hs hst
  have hevolves := evolves_step hs hst
  have hwritten := hadds.written
  -- a channel that is opened at this step was registered, and is written the login if there is a callback
  have hnew : ∀ c, e = .connected c → (s.channel c).phase = .registered ∧
      (s'.channel c).phase = .connected ∧ (s.callsBack = true ∨ s'.listens = s.listens) ∧
      (s'.channel c).written = if s.callsBack then [login E] else [] := by
    rintro c rfl
    obtain ⟨hc, hs'⟩ := Option.ite_none_right_eq_some.1 hst
    obtain ⟨hphase, hlistens⟩ := opened_operationComplete (E := E) hc
    rw [Option.some.inj hs'] at hphase hlistens
    refine ⟨hc, hphase, hlistens, ?_⟩
    rw [hwritten, h.fresh c (by rw [hc]; rfl), said, List.nil_append]
    simp only [true_and]
  refine ⟨hevolves.numbered h.numbered, fun c hc => ?_, fun hlistens c hc => ?_, fun hauth c hc => ?_,
    fun c => ?_⟩
  · have hfresh := hevolves.fresh h.numbered c hc
    have he : e ≠ .connected c := fun he => by
      rw [(hnew c he).2.1] at hc
      cases hc
    rw [hwritten, h.fresh c hfresh, List.nil_append]
    by_contra hsaid
    have hopen := (accepted_of_said h hs hevolves he hsaid).2.1
    rw [hopen] at hfresh
    cases hfresh
  · rcases hevolves.opened c hc with hopen | he
    · have hbefore : s.listens = true := by
        refine (hevolves.listens hlistens).resolve_right ?_
        rintro ⟨c', he⟩
        -- there is no other channel
        have hregistered := (hnew c' he).1
        have hlive : (s.channel c).phase.isLive = true := by
          rw [hopen]
          rfl
        have hlive' : (s.channel c').phase.isLive = true := by
          rw [hregistered]
          rfl
        rw [hs.single hlive hlive'] at hopen
        rw [hopen] at hregistered
        cases hregistered
      rw [hwritten]
      exact List.append_ne_nil_of_left_ne_nil (h.begun hbefore c hopen) _
    · obtain ⟨-, -, hcalls, hfirst⟩ := hnew c he
      have hcalls : s.callsBack = true :=
        hcalls.elim id fun hsame => hs.callsBack (hsame ▸ hlistens)
      rw [hfirst, if_pos hcalls]
      simp
  · rcases hevolves.authenticated hauth with ⟨hauth', he⟩ | haccepted
    · exact hevolves.accepted (h.accepted hauth' c ((hevolves.opened c hc).resolve_right (he c)))
    · exact haccepted c hc
  · by_cases he : e = .connected c
    · rw [(hnew c he).2.2.2]
      split_ifs
      · exact .inr ⟨[], rfl, fun hne => absurd rfl hne⟩
      · exact .inl rfl
    · by_cases hsaid : said E s c e = []
      · rw [hwritten, hsaid, List.append_nil]
        refine (h.spoken c).imp_right fun ⟨rest, hrest, haccepted⟩ => ?_
        exact ⟨rest, hrest, fun hne => hevolves.accepted (haccepted hne)⟩
      · obtain ⟨hlistens, hopen, haccepted⟩ := accepted_of_said h hs hevolves he hsaid
        obtain ⟨rest, hrest, -⟩ := (h.spoken c).resolve_left (h.begun hlistens c hopen)
        refine .inr ⟨rest ++ said E s c e, ?_, fun _ => haccepted⟩
        rw [hwritten, hrest, List.cons_append]

theorem spoken_of_reaches {s : State} (h : (system E).Reaches (fun _ _ => True) start s) :
    Spoken E s := by
  have hspoken : s.IsWired ∧ Spoken E s := by
    refine h.invariant (I := fun s => s.IsWired ∧ Spoken E s) ⟨isWired_start, ?_⟩
      fun s e s' hs _ hst => ⟨(keeps_step hs.1 hst).1, hs.2.step hs.1 hst⟩
    refine ⟨fun t ht => ?_, fun _ _ => rfl, fun hlistens => ?_, fun hauth => ?_, fun _ => .inl rfl⟩
    · cases ht
    · cases hlistens
    · cases hauth
  exact hspoken.2

/-- Only the first channel may be connected before there is a callback. -/
theorem callsBack_of_ne {l : List (System.Step State Event)} {s : State}
    (h : (system E).Path (fun _ _ => True) start l s) {st : System.Step State Event} (hst : st ∈ l)
    {c : ℕ} (he : st.event = .connected c) (hne : c ≠ 0) : st.before.callsBack = true := by
  obtain ⟨l₁, l₂, rfl⟩ := List.append_of_mem hst
  obtain ⟨hp, -, hstep⟩ := h.split
  rw [he] at hstep
  obtain ⟨hc, -⟩ := Option.ite_none_right_eq_some.1 hstep
  obtain ⟨t, ht⟩ := exists_client (s := st.before) (c := c) (by rw [hc]; rfl)
  -- the channels are numbered from zero
  have hmade : c < t.made := by
    by_contra hle
    have habsent := (spoken_of_reaches hp.reaches).numbered t ht c (Nat.le_of_not_lt hle)
    rw [← channel_of_client ht, hc] at habsent
    cases habsent
  rw [State.callsBack, ht, Option.any_some]
  exact ((usable_of_path hp).1.some t ht).2.called (.inr (.inr (.inr (by omega))))

/-- **The conversation of a tunnel.**  In every run a channel has been written the login if the callback
was set when it was connected, a request for missed messages for each positive reply and for each
announcement that some are left, and the messages of the processors, in the order of these events; what
has been handed to the post office is each internal message that was read once the callbacks were set,
once and in this order.  Only the first channel may be connected before the callback is set. -/
theorem conversation {l : List (System.Step State Event)} {s : State}
    (h : (system E).Path (fun _ _ => True) start l s) :
    (∀ c, (s.channel c).written = l.flatMap fun st => said E st.before c st.event) ∧
      (s.handed = l.flatMap fun st => passedOn st.before st.event) ∧
      ∀ st ∈ l, ∀ c, st.event = .connected c → c ≠ 0 → st.before.callsBack = true :=
  ⟨(adds_of_path h).written, (adds_of_path h).handed, fun _ hst _ => callsBack_of_ne h hst⟩

/-- **The login comes first.**  In every run a channel is written the login before anything else, and
nothing else before a positive reply has been read on it. -/
theorem written_spoken {s : State} (h : (system E).Reaches (fun _ _ => True) start s) (c : ℕ) :
    (s.channel c).written = [] ∨ ∃ rest, (s.channel c).written = login E :: rest ∧
      (rest ≠ [] → ∃ content ∈ (s.channel c).received, content.reply? = some true) :=
  (spoken_of_reaches h).spoken c

/-- A channel has been written the login if the callback was set when it was connected. -/
theorem written_of_connected {l : List (System.Step State Event)} {s : State}
    (h : (system E).Path (fun _ _ => True) start l s) {st : System.Step State Event} (hst : st ∈ l)
    {c : ℕ} (he : st.event = .connected c) (hcalls : st.before.callsBack = true) :
    ∃ rest, (s.channel c).written = login E :: rest := by
  have hsaid : login E ∈ (s.channel c).written := by
    rw [(adds_of_path h).written]
    refine List.mem_append_right _ (List.mem_flatMap.2 ⟨st, hst, ?_⟩)
    rw [he, said, if_pos ⟨rfl, hcalls⟩]
    exact List.mem_singleton_self _
  rcases (spoken_of_reaches h.reaches).spoken c with hnone | ⟨rest, hrest, -⟩
  · rw [hnone] at hsaid
    cases hsaid
  · exact ⟨rest, hrest⟩

end

section SampleTraffic

attribute [local instance] JavaChar.ascii

/-- An internal message, as it comes from the neighbour. -/
def internal : MessageContentOutput where
  type := some .INTERNAL_MESSAGE
  data := .null

/-- The tunnel signs in, with the callbacks of `DomainService`, and is brought a message. -/
def brought : List Event :=
  [.onMessage, .onAuthenticated] ++ signIn ++ [.message 0 internal]

theorem exists_brought : ∃ l s, (system second).Path (fun _ _ => True) start l s ∧
    s.handed.length = 1 ∧ (s.channel 0).written.length = 2 := by
  have hrun : ((system second).runIf (fun _ _ => true) start brought).map
      (fun s => (s.handed.length, (s.channel 0).written.length)) = some (1, 2) := by
    decide +kernel
  obtain ⟨s, hs, hend⟩ := Option.map_eq_some_iff.1 hrun
  obtain ⟨hhanded, hwritten⟩ := Prod.mk.inj hend
  obtain ⟨l, hpath, -⟩ := System.exists_path_of_runIf (fun _ _ _ => trivial) hs
  exact ⟨l, s, hpath, hhanded, hwritten⟩

theorem conversation_brought : ∃ l : List (System.Step State Event),
    (l.flatMap fun st => passedOn st.before st.event).length = 1 ∧
    (l.flatMap fun st => said second st.before 0 st.event).length = 2 := by
  obtain ⟨l, s, hpath, hhanded, hwritten⟩ := exists_brought
  obtain ⟨hconversation, hpassed, -⟩ := conversation hpath
  exact ⟨l, hpassed ▸ hhanded, hconversation 0 ▸ hwritten⟩

/-- The TCP connection is there before `doConnect` goes on: the first channel never signs in. -/
example : ((system second).runIf (fun _ _ => true) start
    [.connectDomain ⟨"domain-01", ["tcp://localhost:9001"]⟩, .initChannel 0, .connected 0,
      .onConnected, .onDisconnected]).map
    (fun s => ((s.channel 0).phase, (s.channel 0).written.length)) = some (.connected, 0) := by
  decide +kernel

theorem written_spoken_brought : ∃ s m, (system second).Reaches (fun _ _ => True) start s ∧
    (s.channel 0).written = [login second, m] ∧
    ∃ content ∈ (s.channel 0).received, content.reply? = some true := by
  obtain ⟨l, s, hpath, -, hlength⟩ := exists_brought
  rcases written_spoken hpath.reaches 0 with hnone | ⟨rest, hrest, haccepted⟩
  · rw [hnone] at hlength
    cases hlength
  · rw [hrest, List.length_cons, Nat.add_right_cancel_iff, List.length_eq_one_iff] at hlength
    obtain ⟨m, rfl⟩ := hlength
    exact ⟨s, m, hpath.reaches, hrest, haccepted (List.cons_ne_nil _ _)⟩

end SampleTraffic

end DomainTunnel

end Processor

end Linker
