import Linker.Connector.Handlers

/-!
# Policies of a connector

What a connector may publish, what it may write to its sockets and whom it may authenticate, given
which records it finds on its topic.

## Main results

* `Meets.pending` : a socket that waits for an answer belongs to a user that is being authenticated.
* `meets_onMessageArrived` : a record of the topic keeps to a policy that meets the rules.
* `meets_channelRead0`, `meets_handlerRemoved` : so do the events of a socket.
-/

namespace Linker.Connector

open Exec

/-- Which messages may go where, and who may be authenticated on a socket. -/
structure Policy where
  /-- Records of the topic of the connector. -/
  mails : Message → Prop
  /-- Messages published to the processors. -/
  publishes : Message → Prop
  /-- What is written to sockets. -/
  writes : Output → Prop
  /-- Whom a socket may be authenticated as. -/
  authorises : ℤ → String → Prop

/-- A connector keeps to a policy. -/
structure Meets (P : Policy) (s : State) : Prop where
  published : ∀ m ∈ s.published, P.publishes m
  outputs : ∀ o ∈ s.outputs, P.writes o
  /-- A socket waiting for an answer is being authenticated as the user it waits for. -/
  pending : ∀ u i, i ∈ (s.pendingUsers u).getD [] →
    ∃ k, s.sockets i = some k ∧ k.userId = some u ∧ k.authStatus = .AUTHENTICATING
  authenticated : ∀ i k, s.sockets i = some k → k.authStatus = .AUTHENTICATED →
    ∃ u, k.userId = some u ∧ P.authorises i u
  fresh : ∀ i, s.counter < i → s.sockets i = none

/-- What a policy has to allow for the records of the topic. -/
structure Rules [JavaChar] (C : Config) (P : Policy) : Prop where
  report : ∀ {m st} k, P.mails m → st ∈ [.PROCESSED, .NETWORK_ERROR, .ADDRESS_NOT_FOUND] →
    P.publishes (PostOffice.stateChangedMessage C (C.blank k) m st)
  write : ∀ {m c i b}, P.mails m → m.content = some c → c.type ≠ some .GROUP_CONNECTOR_MESSAGE →
    c.type ≠ some .CLOSE_CONNECTION → P.writes ⟨i, c.type, c.data, c.reference, some m, b⟩
  user : ∀ {m data users uid c t} k, P.mails m → m.content = some c → m.meta_ = some t →
    c.type = some .GROUP_CONNECTOR_MESSAGE → m.data = .groupConnectorMessage data →
    data.connectorUserIds = some users → uid ∈ users →
    P.mails (GroupConnectorMessageProcessor.userMessage C (C.blank k) uid m data c t)
  authorise : ∀ {m data u i}, P.mails m → m.type = some .AUTH_CLIENT_REPLY →
    m.data = .authClientReply data → data.userId = some u → data.isAuthenticated = some true →
    m.note.bind parseLong = some i → P.authorises i u
  connected : ∀ {m u i f} k, P.mails m → m.type = some .AUTH_CLIENT_REPLY →
    P.publishes (AuthClientReplyMessageProcessor.userConnectedMessage C (C.blank k) u i f)

variable {C : Config} {P : Policy}

/-! ### The state -/

theorem keeps_orNullPointer {α : Type} {I : State → Prop} (o : Option α) :
    Keeps I (orNullPointer o) fun a => o = some a := by
  cases o with
  | none => exact .fail
  | some a => exact .pure rfl

theorem keeps_getData {α : Type} {I : State → Prop} (view : Data → Option α) (m : Message) :
    Keeps I (getData view m) fun d => ∀ a, d = some a → view m.data = some a := by
  refine (keeps_orNullPointer m.content).bind fun c hc => ?_
  have hdata : m.data = c.data := by rw [MessageOf.data, hc]; rfl
  split
  · next d hd => exact .pure fun a ha => by rw [hdata]; exact Data.convert_eq_some (ha ▸ hd)
  · exact .fail

theorem keeps_builder : Keeps (Meets P) (builder C) fun b => ∃ n, b = C.blank n := by
  refine (Keeps.read (Q := fun _ => True) fun _ _ => trivial).bind fun n _ => ?_
  refine (Keeps.modify (Q := fun _ => True) (fun s hs => { hs with }) trivial).bind fun _ _ => ?_
  exact .pure ⟨n, rfl⟩

theorem keeps_deliverMessage {m : Message} (hm : P.publishes m) :
    Keeps (Meets P) (PostOffice.deliverMessage m) fun _ => True := by
  refine (keeps_orNullPointer _).bind fun c _ => ?_
  split
  · exact .fail
  · refine .modify (fun s hs => { hs with published := fun r hr => ?_ }) trivial
    rcases List.mem_append.1 hr with hr | hr
    · exact hs.published r hr
    · exact List.mem_singleton.1 hr ▸ hm

theorem keeps_write {i : ℤ} {message : Option Message} {c : MessageContent}
    (h : ∀ b, P.writes ⟨i, c.type, c.data, c.reference, message, b⟩) :
    Keeps (Meets P) (SocketHandler.write i message c) fun _ => True := by
  refine (Keeps.read (Q := fun _ => True) fun _ _ => trivial).bind fun isOpen _ => ?_
  refine (Keeps.read (Q := fun _ => True) fun _ _ => trivial).bind fun future _ => ?_
  refine (Keeps.modify (Q := fun _ => True) (fun s hs => { hs with outputs := fun o ho => ?_ })
    trivial).bind fun _ _ => .pure trivial
  rcases List.mem_append.1 ho with ho | ho
  · exact hs.outputs o ho
  · exact List.mem_singleton.1 ho ▸ h _

theorem keeps_sendMessage {i : ℤ} {m : Message}
    (h : ∀ c b, m.content = some c → P.writes ⟨i, c.type, c.data, c.reference, some m, b⟩) :
    Keeps (Meets P) (SocketHandler.sendMessage i m) fun _ => True :=
  (keeps_orNullPointer _).bind fun c hc => keeps_write fun b => h c b hc

theorem keeps_close (i : ℤ) : Keeps (Meets P) (SocketHandler.close i) fun _ => True :=
  .modify (fun _ hs => { hs with }) trivial

theorem keeps_getUser (u : Option String) (i : Option ℤ) :
    Keeps (Meets P) (NetworkUserService.getUser u i) fun _ => True :=
  (keeps_orNullPointer _).bind fun _ _ => .read fun _ _ => trivial

/-! ### Reports and replies -/

section Outgoing

variable [JavaChar]

omit [JavaChar] in
theorem keeps_deliverStateChangedMessage {m : Message} {st : MessageState}
    (h : ∀ k, P.publishes (PostOffice.stateChangedMessage C (C.blank k) m st)) :
    Keeps (Meets P) (PostOffice.deliverStateChangedMessage C m st) fun _ => True :=
  keeps_builder.bind fun b ⟨k, hk⟩ => by
    rw [hk]
    exact keeps_deliverMessage (h k)

theorem keeps_default (hR : Rules C P) {m : Message} (hm : P.mails m)
    (ht : m.type ≠ some .GROUP_CONNECTOR_MESSAGE ∧ m.type ≠ some .CLOSE_CONNECTION) :
    Keeps (Meets P) (DefaultOutgoingMessageProcessor.process C m) fun _ => True := by
  refine (keeps_orNullPointer _).bind fun t _ => (keeps_orNullPointer _).bind fun a _ => ?_
  refine (keeps_getUser _ _).bind fun handler _ => ?_
  split
  · next handler =>
    refine (keeps_sendMessage fun c b hc => ?_).bind fun b _ => ?_
    · have htype : m.type = c.type := by rw [MessageOf.type, hc]; rfl
      exact hR.write hm hc (htype ▸ ht.1) (htype ▸ ht.2)
    · refine (keeps_orNullPointer _).bind fun t _ => (keeps_orNullPointer _).bind fun c _ => ?_
      refine .ite (fun _ => keeps_deliverStateChangedMessage fun k => hR.report k hm ?_) fun _ =>
        .pure trivial
      split <;> decide
  · refine Keeps.bind (Q := fun _ => True) ?_ fun reliable _ => ?_
    · exact (keeps_orNullPointer _).bind fun c _ => .pure trivial
    · exact .ite (fun _ => keeps_deliverStateChangedMessage fun k => hR.report k hm (by decide))
        fun _ => .pure trivial

end Outgoing

/-- A socket that waits for nothing, with its user. -/
def Idle (i : ℤ) (u : String) (s : State) : Prop :=
  (∀ v, i ∉ (s.pendingUsers v).getD []) ∧ ∀ k, s.sockets i = some k → k.userId = some u

/-- The state after a change of what a handler stores. -/
abbrev updated (i : ℤ) (f : Socket → Socket) (s : State) : State :=
  { s with sockets := fun j => if j = i then (s.sockets j).map f else s.sockets j }

theorem sockets_updated {i j : ℤ} {f : Socket → Socket} {s : State} {k : Socket}
    (h : (updated i f s).sockets j = some k) :
    (j = i ∧ ∃ k', s.sockets i = some k' ∧ f k' = k) ∨ (j ≠ i ∧ s.sockets j = some k) := by
  by_cases hj : j = i
  · subst hj
    simp only [if_true, Option.map_eq_some_iff] at h
    exact .inl ⟨rfl, h⟩
  · simp only [hj, if_false] at h
    exact .inr ⟨hj, h⟩

theorem fresh_updated {i : ℤ} {f : Socket → Socket} {s : State} (hs : Meets P s) (j : ℤ)
    (hj : s.counter < j) : (updated i f s).sockets j = none := by
  simp [hs.fresh j hj]

/-- A handler that waits for nothing may be changed, if that does not authenticate it. -/
theorem meets_updated {s : State} (hs : Meets P s) {i : ℤ} (hi : ∀ v, i ∉ (s.pendingUsers v).getD [])
    {f : Socket → Socket} (hf : ∀ k, s.sockets i = some k → (f k).authStatus = .AUTHENTICATED →
      ∃ u, (f k).userId = some u ∧ P.authorises i u) : Meets P (updated i f s) := by
  refine { hs with
    pending := fun v j hj => ?_, authenticated := fun j k hk hst => ?_, fresh := fresh_updated hs }
  · have hne : j ≠ i := fun h => hi v (h ▸ hj)
    simp only [hne, if_false]
    exact hs.pending v j hj
  · rcases sockets_updated hk with ⟨rfl, k', hk', rfl⟩ | ⟨-, hk⟩
    · exact hf k' hk' hst
    · exact hs.authenticated j k hk hst

theorem meets_setAuthStatus {s : State} (hs : Meets P s) {i : ℤ} {u : String} (hi : Idle i u s)
    {st : AuthStatus} (hauth : st = .AUTHENTICATED → P.authorises i u) :
    Meets P (updated i (fun k => { k with authStatus := st }) s) :=
  meets_updated hs hi.1 fun k hk hst => ⟨u, hi.2 k hk, hauth hst⟩

/-- What is taken out of `pendingUsers` waits for nothing any more. -/
theorem meets_removePending {s : State} (hs : Meets P s) (u : String) (i : ℤ) :
    Meets P { s with pendingUsers := UserMap.removeUser u i s.pendingUsers } :=
  { hs with pending := fun v j hj => hs.pending v j (UserMap.mem_removeUser.1 hj).1 }

theorem idle_removePending {s : State} (hs : Meets P s) {u : String} {i : ℤ}
    (hi : i ∈ (s.pendingUsers u).getD []) :
    Idle i u { s with pendingUsers := UserMap.removeUser u i s.pendingUsers } := by
  obtain ⟨k, hk, huser, -⟩ := hs.pending u i hi
  refine ⟨fun v hv => ?_, fun k' hk' => ?_⟩
  · obtain ⟨hmem, hne⟩ := UserMap.mem_removeUser.1 hv
    obtain ⟨k', hk', huser', -⟩ := hs.pending v i hmem
    cases hk.symm.trans hk'
    exact hne ⟨Option.some.inj (huser'.symm.trans huser), rfl⟩
  · cases hk.symm.trans hk'
    exact huser

section Outgoing

variable [JavaChar]

theorem keeps_reply (hR : Rules C P) {m : Message} (hm : P.mails m)
    (ht : m.type = some .AUTH_CLIENT_REPLY) :
    Keeps (Meets P) (AuthClientReplyMessageProcessor.process C m) fun _ => True := by
  refine (keeps_getData _ _).bind fun data hdata => (keeps_orNullPointer _).bind fun d hd => ?_
  have hd' : m.data = .authClientReply d := Data.authClientReply?_eq_some.1 (hdata d hd)
  have hid : Keeps (Meets P) (AuthClientReplyMessageProcessor.socketIdOf m)
      fun i => m.note.bind parseLong = some i := by
    refine (keeps_orNullPointer _).bind fun t htm => ?_
    have hnote : m.note = t.note := by rw [MessageOf.note, htm]; rfl
    rw [hnote]
    split
    · next i hi => exact .pure hi
    · exact .fail
  refine hid.bind fun i hi => ?_
  cases hu : d.userId with
  | none => exact fun s hs => ⟨hs, fun _ _ => trivial⟩
  | some u =>
    have hwrite : ∀ j, Keeps (Meets P) (SocketHandler.sendMessage j m) fun _ => True := fun j =>
      keeps_sendMessage fun c b hc => hR.write hm hc
        (by rw [← show m.type = c.type by rw [MessageOf.type, hc]; rfl, ht]; decide)
        (by rw [← show m.type = c.type by rw [MessageOf.type, hc]; rfl, ht]; decide)
    -- the handler found waits for this user; once taken out of `pendingUsers` it is idle
    refine Triple.keeps (Triple.bind (Q := fun h s => Meets P s ∧
      ∀ j, h = some j → j = i ∧ i ∈ (s.pendingUsers u).getD []) ?_ fun h => ?_)
    · refine Triple.read fun s hs => ⟨hs, fun j hj => ?_⟩
      obtain ⟨h₁, h₂⟩ := UserMap.getUser_eq_some hj
      cases h₁
      exact ⟨rfl, h₂⟩
    cases h with
    | none => exact fun s hs => hs.1
    | some j =>
      refine Triple.bind (Q := fun _ s => Meets P s ∧ j = i ∧ Idle i u s) ?_ fun _ => ?_
      · refine Triple.modify fun s hs => ?_
        obtain ⟨hj, hmem⟩ := hs.2 j rfl
        exact ⟨meets_removePending hs.1 u i, hj, idle_removePending hs.1 hmem⟩
      cases hok : d.isAuthenticated with
      | none => exact fun s hs => hs.1
      | some ok =>
        refine Triple.bind (Q := fun b s => b = ok ∧ Meets P s ∧ j = i ∧ Idle i u s)
          (fun s hs => ⟨rfl, hs⟩) fun b => Triple.ite (fun hb => ?_) fun hb => ?_
        · refine Triple.bind (Q := fun _ s => ok = true ∧ Meets P s ∧ j = i ∧ Idle i u s) ?_
            fun _ => ?_
          · exact fun s hs => ⟨hs.1 ▸ hb, { hs.2.1 with }, hs.2.2.1, hs.2.2.2⟩
          refine Triple.bind (Q := fun _ s => Meets P s) ?_ fun _ => ?_
          · refine Triple.modify fun s hall => ?_
            obtain ⟨htrue, hs, hj, hidle⟩ := hall
            subst hj
            refine meets_setAuthStatus hs hidle fun _ => ?_
            exact hR.authorise hm ht hd' hu (htrue ▸ hok) hi
          refine Triple.of_keeps (Q := fun _ => True) ((hwrite j).bind fun _ _ => ?_) fun _ hs => hs
          refine (keeps_orNullPointer _).bind fun c _ => keeps_builder.bind fun b hb => ?_
          obtain ⟨k, hk⟩ := hb
          rw [hk]
          exact keeps_deliverMessage (hR.connected k hm ht)
        · refine Triple.bind (Q := fun _ s => Meets P s) ?_ fun _ => ?_
          · refine Triple.modify fun s hall => ?_
            obtain ⟨-, hs, hj, hidle⟩ := hall
            subst hj
            exact meets_setAuthStatus hs hidle fun h => by cases h
          exact Triple.of_keeps ((hwrite j).bind fun _ _ => keeps_close j) fun _ hs => hs

omit [JavaChar] in
theorem keeps_closeConnection (m : Message) :
    Keeps (Meets P) (CloseConnectionMessageProcessor.process m) fun _ => True := by
  refine (keeps_getData _ _).bind fun _ _ => (keeps_orNullPointer _).bind fun t _ => ?_
  refine (keeps_orNullPointer _).bind fun a _ => (keeps_getUser _ _).bind fun handler _ => ?_
  split
  · exact .pure trivial
  · exact keeps_close _

theorem keeps_processOutgoingWith (hR : Rules C P) {process : Message → Conn Unit}
    (hp : ∀ m, P.mails m → Keeps (Meets P) (process m) fun _ => True) {m : Message}
    (hm : P.mails m) : Keeps (Meets P) (processOutgoingWith C process m) fun _ => True := by
  refine (keeps_orNullPointer _).bind fun c hc => ?_
  have htype : m.type = c.type := by rw [MessageOf.type, hc]; rfl
  split
  · next h => exact keeps_reply hR hm (htype.trans h)
  · exact keeps_closeConnection m
  · next h =>
    refine (keeps_getData _ _).bind fun data hdata => (keeps_orNullPointer _).bind fun d hd => ?_
    have hd' := Data.groupConnectorMessage?_eq_some.1 (hdata d hd)
    refine (keeps_orNullPointer _).bind fun users husers => .forEach fun uid huid => ?_
    refine (keeps_orNullPointer _).bind fun c' hc' => keeps_builder.bind fun b hb => ?_
    refine (keeps_orNullPointer _).bind fun t htm => hp _ ?_
    obtain ⟨k, hk⟩ := hb
    cases hc.symm.trans hc'
    rw [hk]
    exact hR.user k hm hc htm h hd' husers huid
  · next h₁ h₂ h₃ => exact keeps_default hR hm ⟨htype ▸ h₃, htype ▸ h₂⟩

theorem keeps_processOutgoingMessage (hR : Rules C P) {m : Message} (hm : P.mails m) :
    Keeps (Meets P) (processOutgoingMessage C m) fun _ => True :=
  keeps_processOutgoingWith hR (fun _ h => keeps_processOutgoingWith hR (fun _ _ => .fail) h) hm

/-- **A record of the topic keeps to the policy.** -/
theorem meets_onMessageArrived (hR : Rules C P) {m : Message} {s : State} (hs : Meets P s)
    (hm : P.mails m)
    (herr : ∀ e, ((processOutgoingMessage C m).run s).1 = .error e → m.feature = some .RELIABLE →
      ∀ k, P.publishes (PostOffice.stateChangedMessage C (C.blank k) m .CONNECTOR_ERROR)) :
    Meets P ((PostOffice.onMessageArrived C m).run s).2 := by
  unfold PostOffice.onMessageArrived
  refine Keeps.run_recoverIf ((keeps_processOutgoingMessage hR hm).run hs) fun e s' hrun hs' => ?_
  refine ((keeps_orNullPointer m.content).bind (R := fun _ => True) fun c hc =>
    .ite (fun hf => ?_) fun _ => .pure trivial).run hs'
  have hfeature : m.feature = some .RELIABLE := by rw [MessageOf.feature, hc]; exact hf
  exact keeps_deliverStateChangedMessage (herr e (congrArg Prod.fst hrun) hfeature)

end Outgoing

/-! ### The events of a socket -/

theorem meets_initChannel {s : State} (hs : Meets P s) : Meets P (initChannel.run s).2 := by
  have hnew : s.sockets (s.counter + 1) = none := hs.fresh _ (by omega)
  refine { hs with
    pending := fun u i hi => ?_, authenticated := fun i k hk hst => ?_, fresh := fun i hi => ?_ }
  · obtain ⟨k, hk, hk'⟩ := hs.pending u i hi
    refine ⟨k, ?_, hk'⟩
    have hne : i ≠ s.counter + 1 := by
      rintro rfl
      rw [hnew] at hk
      cases hk
    simpa [initChannel, hne] using hk
  · by_cases hi : i = s.counter + 1
    · simp only [initChannel, run_modify, hi, if_true, Option.some.injEq] at hk
      subst hk
      cases hst
    · simp only [initChannel, run_modify, hi, if_false] at hk
      exact hs.authenticated i k hk hst
  · have hi' : s.counter + 1 < i := hi
    have hne : i ≠ s.counter + 1 := by omega
    simp only [initChannel, run_modify, hne, if_false]
    exact hs.fresh i (by omega)

theorem keeps_removeUser (u : Option String) (i : ℤ) :
    Keeps (Meets P) (NetworkUserService.removeUser u i) fun _ => True :=
  (keeps_orNullPointer _).bind fun _ _ => .modify (fun _ hs => { hs with }) trivial

theorem keeps_removePendingUser (u : Option String) (i : ℤ) :
    Keeps (Meets P) (NetworkUserService.removePendingUser u i) fun _ => True :=
  (keeps_orNullPointer _).bind fun u _ => .modify (fun _ hs => meets_removePending hs u i) trivial

theorem keeps_userDisconnected {m : Message} {i : ℤ} (hm : P.publishes m) :
    Keeps (Meets P) (UserDisconnectedMessageProcessor.process m i) fun _ => True := by
  refine (keeps_getData _ _).bind fun _ _ => (keeps_orNullPointer _).bind fun u _ => ?_
  refine .ite (fun _ => .pure trivial) fun _ => (keeps_removeUser u i).bind fun _ _ => ?_
  exact (keeps_removePendingUser u i).bind fun _ _ => keeps_deliverMessage hm

/-- The answers that a connector gives a client itself. -/
def Answers (P : Policy) (i : ℤ) : Prop :=
  ∀ o : Output, o.socketId = i → o.type = some .GENERAL_ERROR ∨ o.type = some .AUTH_REQUIRED →
    P.writes o

/-- An `AUTH_CLIENT` of a handler that is not authenticated makes it wait for the answer. -/
theorem triple_authClient {m : Message} {i : ℤ} {socket : Socket}
    (hauth : ∀ d, socket.authStatus = .NOT_AUTHENTICATED → m.data = .authClient d →
      P.publishes (AuthClientMessageProcessor.request m d.userId i)) :
    Triple (fun s => Meets P s ∧ s.sockets i = some socket)
      (AuthClientMessageProcessor.process m i socket) (fun _ s => Meets P s) (Meets P) := by
  refine Triple.bind (Q := fun data s => (Meets P s ∧ s.sockets i = some socket) ∧
    ∀ d, data = some d → m.data = .authClient d) ?_ fun data => Triple.ite (fun hst => ?_) fun _ => ?_
  · intro s hs
    have hget := keeps_getData (I := fun s => Meets P s ∧ s.sockets i = some socket)
      Data.authClient? m s hs
    rcases hrun : (getData Data.authClient? m).run s with ⟨e | data, s'⟩
    · rw [hrun] at hget
      exact hget.1.1
    · rw [hrun] at hget
      exact ⟨hget.1, fun d hd => Data.authClient?_eq_some.1 (hget.2 data rfl d hd)⟩
  · cases data with
    | none => exact fun s hs => hs.1.1
    | some d =>
      -- not being authenticated, the handler waits for nothing
      refine Triple.bind (Q := fun d' s => d' = d ∧ Meets P s ∧
        (∀ v, i ∉ (s.pendingUsers v).getD []) ∧ s.sockets i = some socket ∧
        m.data = .authClient d) ?_ fun d' => ?_
      · intro s ⟨⟨hs, hsock⟩, hd⟩
        refine ⟨rfl, hs, fun v hv => ?_, hsock, hd d rfl⟩
        obtain ⟨k, hk, -, hk'⟩ := hs.pending v i hv
        cases hsock.symm.trans hk
        rw [hst] at hk'
        cases hk'
      refine Triple.bind (Q := fun _ s => d' = d ∧ Meets P s ∧
        (∀ v, i ∉ (s.pendingUsers v).getD []) ∧ (∃ k, s.sockets i = some k ∧ k.userId = d.userId ∧
          k.authStatus = .NOT_AUTHENTICATED) ∧ m.data = .authClient d) ?_ fun _ => ?_
      · refine Triple.modify fun s ⟨hd', hs, hi, hsock, hd⟩ => ?_
        subst hd'
        refine ⟨rfl, meets_updated hs hi fun k hk h => ?_, hi, ?_, hd⟩
        · cases hsock.symm.trans hk
          cases hst.symm.trans h
        · exact ⟨{ socket with userId := d'.userId }, by simp [hsock], rfl, hst⟩
      refine Triple.bind (Q := fun _ s => d' = d ∧ Meets P s ∧
        (∃ k, s.sockets i = some k ∧ k.userId = d.userId ∧ k.authStatus = .AUTHENTICATING) ∧
          m.data = .authClient d) ?_ fun _ => ?_
      · refine Triple.modify fun s ⟨hd', hs, hi, ⟨k, hk, hu, _⟩, hd⟩ => ?_
        refine ⟨hd', meets_updated hs hi (fun _ _ h => by cases h), ?_, hd⟩
        exact ⟨{ k with authStatus := .AUTHENTICATING }, by simp [hk], hu, rfl⟩
      refine Triple.bind (Q := fun _ s => d' = d ∧ Meets P s ∧ m.data = .authClient d) ?_
        fun _ => ?_
      · intro s ⟨hd', hs, ⟨k, hk, hu, hk'⟩, hd⟩
        subst hd'
        cases huser : d'.userId with
        | none => exact hs
        | some u =>
          refine ⟨rfl, { hs with pending := fun v j hj => ?_ }, hd⟩
          rcases UserMap.mem_addUser.1 hj with hj | ⟨rfl, rfl⟩
          · exact hs.pending v j hj
          · exact ⟨k, hk, hu.trans huser, hk'⟩
      · intro s ⟨hd', hs, hd⟩
        subst hd'
        exact Triple.of_keeps (keeps_deliverMessage (hauth d' hst hd)) (fun _ h => h) s hs
  · exact fun s hs => hs.1.1

/-- A client is told when the processor of its message throws. -/
theorem triple_generalError {I : State → Prop} {m : Message} {i : ℤ} {x : Conn Unit}
    (hans : Answers P i) (hx : Triple I x (fun _ => Meets P) (Meets P)) :
    Triple I (x.catchException fun _ => do
      let c ← getContent m
      let _ ← SocketHandler.sendContent i { c with type := some .GENERAL_ERROR }
      pure ()) (fun _ => Meets P) (Meets P) := by
  refine Triple.recoverIf hx (fun _ => Triple.of_keeps (Q := fun _ => True) ?_ fun _ h => h) fun _ h => h
  refine (keeps_orNullPointer _).bind fun c _ => ?_
  exact (keeps_write fun _ => hans _ rfl (.inl rfl)).bind fun _ _ => .pure trivial

/-- What a client sends may be published. -/
structure Receives (C : Config) (P : Policy) (i : ℤ) (socket : Socket) (content : MessageContent) :
    Prop where
  auth : ∀ n d, socket.authStatus = .NOT_AUTHENTICATED → content.type = some .AUTH_CLIENT →
    content.data = .authClient d → P.publishes (AuthClientMessageProcessor.request
      (clientMessage C (C.blank n) i socket content) d.userId i)
  disconnected : ∀ n, content.type = some .USER_DISCONNECTED →
    P.publishes (clientMessage C (C.blank n) i socket content)
  other : ∀ n, socket.authStatus = .AUTHENTICATED → content.type ≠ some .AUTH_CLIENT →
    P.publishes (clientMessage C (C.blank n) i socket content)

/-- **What a client sends keeps to the policy.** -/
theorem meets_channelRead0 {s : State} (hs : Meets P s) {i : ℤ} {socket : Socket}
    {content : MessageContent} {futures : List Bool} (hsock : s.sockets i = some socket)
    (hans : Answers P i) (hrec : Receives C P i socket content) :
    Meets P ((withFutures futures (channelRead0 C i socket content)).run s).2 := by
  refine Triple.run (I := fun s => Meets P s ∧ s.sockets i = some socket) ?_ ⟨hs, hsock⟩
  refine Triple.bind (Q := fun _ s => Meets P s ∧ s.sockets i = some socket)
    (fun s hs => ⟨{ hs.1 with }, hs.2⟩) fun _ => ?_
  refine Triple.bind (Q := fun b s => (∃ n, b = C.blank n) ∧ Meets P s ∧ s.sockets i = some socket)
    (fun s hs => ⟨⟨_, rfl⟩, { hs.1 with }, hs.2⟩) fun b => ?_
  rintro s ⟨⟨n, rfl⟩, hs⟩
  refine triple_generalError (I := fun s => Meets P s ∧ s.sockets i = some socket) hans ?_ s hs
  have hdata : (clientMessage C (C.blank n) i socket content).data = content.data := rfl
  split
  · next ht => exact triple_authClient fun d hst hd => hrec.auth n d hst ht (hdata.symm.trans hd)
  · next ht => exact Triple.of_keeps (keeps_userDisconnected (hrec.disconnected n ht)) fun _ h => h.1
  · next ht _ =>
    refine Triple.ite (fun hst => ?_) fun _ => Triple.of_keeps (Q := fun _ => True) ?_ fun _ h => h.1
    · exact Triple.of_keeps (keeps_deliverMessage (hrec.other n hst ht)) fun _ h => h.1
    · refine keeps_builder.bind fun b _ => (keeps_sendMessage fun c b' hc => ?_).bind fun _ _ =>
        .pure trivial
      cases hc
      exact hans _ rfl (.inr rfl)

/-- **A socket that closes keeps to the policy.** -/
theorem meets_handlerRemoved {s : State} (hs : Meets P s) {i : ℤ} {socket : Socket}
    {futures : List Bool} (hans : Answers P i)
    (hdis : ∀ n, socket.authStatus ≠ .NOT_AUTHENTICATED →
      P.publishes (disconnectedMessage C (C.blank n) i socket)) :
    Meets P ((withFutures futures (handlerRemoved C i socket)).run s).2 := by
  refine Triple.run (I := Meets P) ?_ hs
  refine Triple.bind (Q := fun _ => Meets P) (fun s hs => { hs with }) fun _ => ?_
  refine Triple.bind (Q := fun _ => Meets P) ?_ fun _ => Triple.ite (fun _ => ?_) ?_
  · refine Triple.modify fun s hs => ?_
    refine { hs with
      pending := fun u j hj => ?_, authenticated := fun j k hk hst => ?_,
      fresh := fresh_updated hs }
    · obtain ⟨k, hk, hk'⟩ := hs.pending u j hj
      by_cases hj : j = i
      · subst hj
        exact ⟨{ k with isOpen := false }, by simp [hk], hk'⟩
      · exact ⟨k, by simpa [hj] using hk, hk'⟩
    · rcases sockets_updated hk with ⟨rfl, k', hk', rfl⟩ | ⟨-, hk⟩
      · exact hs.authenticated j k' hk' hst
      · exact hs.authenticated j k hk hst
  · exact fun s hs => hs
  intro hst
  refine Triple.bind (Q := fun b s => (∃ n, b = C.blank n) ∧ Meets P s)
    (fun s hs => ⟨⟨_, rfl⟩, { hs with }⟩) fun b => ?_
  rintro s ⟨⟨n, rfl⟩, hs⟩
  exact triple_generalError hans
    (Triple.of_keeps (keeps_userDisconnected (hdis n hst)) fun _ h => h) s hs

end Linker.Connector
