import Linker.Domain.Compliance
import Linker.Processor.Letters

/-!
# Who is authenticated

A connector authenticates a socket when it finds an `AUTH_CLIENT_REPLY` on its topic for the user and
the socket number in the note.  It does so only for a socket whose `AUTH_CLIENT` a processor has
granted, as long as no client sends a message in which such a request or such a reply is nested: a
processor would deliver the reply of a client like one of its own.

## Main results

* `Domain.authSound_of_discreet` : with discreet clients, every authenticated socket was admitted.
* `Domain.intrusion` : a client can have any waiting socket authenticated.
-/

namespace Linker

open Processor (HttpCall HttpOutcome verdictOf)
open Processor.ProcessorUtils (isConnectorUser)

namespace Domain

variable [JavaChar] (D : Domain)

/-- The message that a connector makes of an `AUTH_CLIENT` sent on one of its sockets. -/
structure Requests (c : String) (i : ℤ) (d : AuthClient) (m : Message) : Prop where
  type : m.type = some .AUTH_CLIENT
  data : m.data = .authClient d
  originalAddress : m.originalAddress = some ((D.config c).address i)
  note : m.note = some (toString i)

/-- An `AUTH_CLIENT` was sent on the socket. -/
def Asked (w : World) (c : String) (i : ℤ) (d : AuthClient) : Prop :=
  ∃ input ∈ w.inputs, input.connectorName = c ∧ input.socketId = i ∧
    input.content.type = some .AUTH_CLIENT ∧ input.content.data = .authClient d

/-- A processor has consumed the request. -/
def Handled (w : World) (c : String) (i : ℤ) (d : AuthClient) : Prop :=
  ∃ m ∈ w.dispatched, D.Requests c i d m

/-- The authentication endpoint has answered the request with a yes. -/
def Confirmed (w : World) (c : String) (i : ℤ) (d : AuthClient) : Prop :=
  ∃ call status reply, (call, HttpOutcome.response status (some (some reply))) ∈ w.responses ∧
    D.Requests c i d call.message ∧ reply.appId = d.appId ∧ reply.userId = d.userId ∧
    reply.isAuthenticated = some true

/-- The `AuthClientMessageProcessor` has decided to let the socket in. -/
structure Admitted (w : World) (c : String) (i : ℤ) (d : AuthClient) : Prop where
  asked : Asked w c i d
  handled : D.Handled w c i d
  granted : verdictOf D.env d ⟨d.appId, d.userId, some true⟩ ∨ D.Confirmed w c i d

/-- Every authenticated socket was admitted as its user. -/
def AuthSound (w : World) : Prop :=
  ∀ c s i k, w.connectors c = some s → s.sockets i = some k → k.authStatus = .AUTHENTICATED →
    ∃ u d, k.userId = some u ∧ d.userId = some u ∧ D.Admitted w c i d

/-- What is processed, if it is a request, is one of a connector that a processor has consumed. -/
def Requested (w : World) (m : Message) : Prop :=
  m.type = some .AUTH_CLIENT → ∀ d, m.data = .authClient d →
    ∃ c i, isConnectorUser (some c) = true ∧ D.Requests c i d m ∧ Asked w c i d ∧ D.Handled w c i d

/-- What is delivered, if it is the reply that lets a socket in, is for an admitted one. -/
def Replied (w : World) (m : Message) : Prop :=
  m.type = some .AUTH_CLIENT_REPLY → ∀ r, m.data = .authClientReply r →
    r.isAuthenticated = some true → ∃ c i d, isConnectorUser (some c) = true ∧ m.to_ = some c ∧
      m.note = some (toString i) ∧ d.userId = r.userId ∧ D.Admitted w c i d

/-- Neither a request nor a reply is nested in what a client sends. -/
def NoCredentials (content : MessageContent) : Prop :=
  content.type ≠ some .AUTH_CLIENT → ∀ m : Message, m.content = some content →
    m.Carries (fun m => m.type ≠ some .AUTH_CLIENT)
      (Again fun m => m.type ≠ some .AUTH_CLIENT_REPLY)

/-- An event in a run of the connectors and the processors in which clients nest no requests or
replies; connectors are named as the configuration names them. -/
def Discreet (_ : World) : Event → Prop
  | .receive c _ content _ => isConnectorUser (some c) = true ∧ NoCredentials content
  | .tunnel .. => False
  | _ => True

variable {D} {w w' : World} {c : String} {i : ℤ} {d : AuthClient}

/-! ### The history grows -/

omit [JavaChar] in
theorem Asked.mono (h : w.Extends w') (ha : Asked w c i d) : Asked w' c i d := by
  obtain ⟨input, hin, hrest⟩ := ha
  exact ⟨input, h.inputs input hin, hrest⟩

omit [JavaChar] in
theorem Handled.mono (h : w.Extends w') (hh : D.Handled w c i d) : D.Handled w' c i d := by
  obtain ⟨m, hm, hreq⟩ := hh
  exact ⟨m, h.dispatched m hm, hreq⟩

omit [JavaChar] in
theorem Confirmed.mono (h : w.Extends w') (hc : D.Confirmed w c i d) : D.Confirmed w' c i d := by
  obtain ⟨call, status, reply, hmem, hrest⟩ := hc
  exact ⟨call, status, reply, h.responses _ hmem, hrest⟩

theorem Admitted.mono (h : w.Extends w') (ha : D.Admitted w c i d) : D.Admitted w' c i d where
  asked := ha.asked.mono h
  handled := ha.handled.mono h
  granted := ha.granted.imp_right (Confirmed.mono h)

theorem Requested.mono (h : w.Extends w') (m : Message) (hm : D.Requested w m) :
    D.Requested w' m := by
  intro ht d hd
  obtain ⟨c, i, hc, hreq, hasked, hhandled⟩ := hm ht d hd
  exact ⟨c, i, hc, hreq, hasked.mono h, hhandled.mono h⟩

theorem Replied.mono (h : w.Extends w') (m : Message) (hm : D.Replied w m) : D.Replied w' m := by
  intro ht r hr hok
  obtain ⟨c, i, d, hc, hto, hnote, hu, hadm⟩ := hm ht r hr hok
  exact ⟨c, i, d, hc, hto, hnote, hu, hadm.mono h⟩

/-! ### The policy -/

theorem requested_of_type {m : Message} (ty : MessageType) (ht : m.type = some ty)
    (hne : ty ≠ .AUTH_CLIENT) : D.Requested w m :=
  fun h => absurd (Option.some.inj (ht.symm.trans h)) hne

theorem replied_of_ne {m : Message} (h : m.type ≠ some .AUTH_CLIENT_REPLY) : D.Replied w m :=
  fun ht => absurd ht h

theorem replied_of_type {m : Message} (ty : MessageType) (ht : m.type = some ty)
    (hne : ty ≠ .AUTH_CLIENT_REPLY) : D.Replied w m :=
  replied_of_ne fun h => hne (Option.some.inj (ht.symm.trans h))

/-- The calls under way are for requests of connectors. -/
def Calling (D : Domain) (w : World) (call : HttpCall) : Prop :=
  ∃ c i, isConnectorUser (some c) = true ∧ D.Requests c i call.data call.message ∧
    Asked w c i call.data ∧ D.Handled w c i call.data

/-- Requests and replies keep their letters through every handler of a processor. -/
theorem letterRules_requested (w : World) :
    Processor.LetterRules D.env (D.Requested w) (D.Replied w) (Calling D w) where
  processed_congr {m m'} h hm ht d hd := by
    obtain ⟨c, i, hc, hreq, hrest⟩ := hm (h.type ▸ ht) d (h.data ▸ hd)
    exact ⟨c, i, hc, ⟨ht, hd, h.originalAddress.trans hreq.originalAddress,
      h.note.trans hreq.note⟩, hrest⟩
  delivered_congr {m m'} h hm ht r hr hok := by
    obtain ⟨c, i, d, hc, hto, hnote, hrest⟩ := hm (h.type ▸ ht) r (h.data ▸ hr) hok
    exact ⟨c, i, d, hc, h.to_.trans hto, h.note.trans hnote, hrest⟩
  wrapper ht := replied_of_type _ ht (by decide)
  redirect u hm ht d hd := by
    obtain ⟨c, i, hc, hreq, hrest⟩ := hm ht d hd
    exact ⟨c, i, hc, ⟨ht, hd, hreq.originalAddress, hreq.note⟩, hrest⟩
  forward _ _ _ ht _ := replied_of_type .MESSAGE ((Processor.type_forwarded _ _ _).trans ht) (by decide)
  confirmation _ ht := replied_of_type _ ht (by decide)
  close _ _ ht := replied_of_type .CLOSE_CONNECTION ((Processor.type_closing _).trans ht) (by decide)
  auth {m d reply a k} hm ht hd hv ha := by
    intro _ r hr hok
    cases hr
    obtain ⟨c, i, hc, hreq, hasked, hhandled⟩ := hm ht d hd
    have ha' : a = (D.config c).address i := Option.some.inj (ha.symm.trans hreq.originalAddress)
    rcases hv with rfl | ⟨rfl, hv⟩
    · cases hok
    · exact ⟨c, i, d, hc, by rw [ha']; rfl, hreq.note, rfl, hasked, hhandled, .inl (.inr ⟨rfl, hv⟩)⟩
  call _ hm ht hd := hm ht _ hd
  groupConnector _ _ _ _ := replied_of_type .GROUP_CONNECTOR_MESSAGE rfl (by decide)
  groupUser _ _ _ _ := requested_of_type .MESSAGE rfl (by decide)
  groupOther _ _ _ _ := requested_of_type .GROUP_MESSAGE rfl (by decide)
  presence _ ht := by
    rcases ht with ht | ht
    · exact replied_of_type _ ht (by decide)
    · exact replied_of_type _ ht (by decide)
  complete _ := replied_of_type .FETCH_MISSING_MESSAGES_COMPLETE rfl (by decide)
  confirm := requested_of_type .MESSAGE_CONFIRMATION rfl (by decide)

/-- A record of the topic of the processors. -/
def Queued (D : Domain) (w : World) (m : Message) : Prop :=
  m.Carries (fun m => m.type ≠ some .AUTH_CLIENT) (Again (D.Replied w)) ∨
    ∃ c i d, isConnectorUser (some c) = true ∧ D.Requests c i d m ∧ Asked w c i d

theorem queued_of_type {m : Message} (ty : MessageType) (ht : m.type = some ty)
    (hne : ty ∉ [.AUTH_CLIENT, .INTERNAL_MESSAGE, .MESSAGE_STATE_CHANGED]) : Queued D w m := by
  simp only [List.mem_cons, List.not_mem_nil, or_false, not_or] at hne
  refine .inl ((MessageOf.carries_plain ?_ ?_).2 ?_)
  · simpa [ht] using hne.2.1
  · simpa [ht] using hne.2.2
  · simpa [ht] using hne.1

/-- The policy of a domain whose clients are discreet. -/
def authPolicy (D : Domain) : Policy where
  processor w := Processor.letterPolicy (D.Requested w) (D.Replied w) (Calling D w)
  connector w c :=
    { mails := fun m => D.Replied w m ∧
        (m.type = some .AUTH_CLIENT_REPLY → isConnectorUser m.to_ = true → m.to_ = some c)
      publishes := Queued D w
      writes := fun _ => True
      authorises := fun i u => ∃ d, d.userId = some u ∧ D.Admitted w c i d }
  queued := Queued D

theorem sound_authPolicy : Sound D (authPolicy D) where
  processor_mono h :=
    { mails := Replied.mono h
      keeps := fun m hm st hst hs => Replied.mono h m (hm st hst hs)
      calls := fun call ⟨c, i, hc, hreq, hasked, hhandled⟩ =>
        ⟨c, i, hc, hreq, hasked.mono h, hhandled.mono h⟩
      registers := fun _ h => h }
  connector_mono c h :=
    { publishes := fun m hm => hm.imp
        (Data.Carries.mono (fun _ h => h) (Again.mono (Replied.mono h)) _ m)
        fun ⟨c, i, d, hc, hreq, hasked⟩ => ⟨c, i, d, hc, hreq, hasked.mono h⟩
      writes := fun _ h => h
      authorises := fun i u ⟨d, hu, hadm⟩ => ⟨d, hu, hadm.mono h⟩ }
  queued_mono h hm := hm.imp (Data.Carries.mono (fun _ h => h) (Again.mono (Replied.mono h)) _ _)
    fun ⟨c, i, d, hc, hreq, hasked⟩ => ⟨c, i, d, hc, hreq, hasked.mono h⟩
  processor w := (letterRules_requested w).rules
  connector w c :=
    { report := fun k hm _ => .inl ((MessageOf.carries_report rfl rfl).2 fun _ => hm.1)
      write := fun _ _ _ _ => trivial
      user := fun k _ _ _ _ _ _ _ => ⟨replied_of_type .MESSAGE rfl (by decide), fun h => (by cases h)⟩
      authorise := fun {m data u j} hm ht hd hu hok hnote => by
        obtain ⟨c', i, d, hc, hto, hnote', hu', hadm⟩ := hm.1 ht data hd hok
        have hc' : c' = c := Option.some.inj (hto.symm.trans (hm.2 ht (hto ▸ hc)))
        rw [hnote'] at hnote
        cases parseLong_toString hnote
        exact ⟨d, hu'.trans hu, hc' ▸ hadm⟩
      connected := fun k _ _ => queued_of_type .USER_CONNECTED rfl (by decide) }
  published h := h
  consumed {w m} hm hmem := by
    rcases hm with hm | ⟨c, i, d, hc, hreq, hasked⟩
    · exact Data.Carries.mono (fun m h ht => absurd ht h) (fun _ _ h => h) _ m hm
    · refine (MessageOf.carries_plain (by simp [hreq.type]) (by simp [hreq.type])).2 fun _ d' hd' => ?_
      cases hreq.data.symm.trans hd'
      exact ⟨c, i, hc, hreq, hasked, m, hmem, hreq⟩
  routed {w p} h := by
    obtain ⟨hm, a, -, htarget, hroute⟩ := h
    refine ⟨hm, fun _ hto => ?_⟩
    rw [if_pos hto] at hroute
    rw [← htarget, hroute]
  answers w c i o _ _ := trivial
  disconnected w c i n socket := queued_of_type .USER_DISCONNECTED rfl (by decide)

/-! ### Runs -/

/-- What a discreet client sends is a request or carries none. -/
theorem receives_of_discreet {w : World} {c : String} {i : ℤ} {socket : Connector.Socket}
    {content : MessageContent} (hin : (⟨c, i, socket, content⟩ : Input) ∈ w.inputs)
    (hc : isConnectorUser (some c) = true) (hcontent : NoCredentials content) :
    Connector.Receives (D.config c) ((authPolicy D).connector w c) i socket content where
  auth n d _ ht hd := by
    refine .inr ⟨c, i, d, hc, ⟨?_, ?_, ?_, ?_⟩, _, hin, rfl, rfl, ht, hd⟩
    · simpa [MessageOf.type, Connector.AuthClientMessageProcessor.request, MessageOf.updateContent,
        MessageOf.updateMeta, Connector.clientMessage] using ht
    · simpa [MessageOf.data, Connector.AuthClientMessageProcessor.request, MessageOf.updateContent,
        MessageOf.updateMeta, Connector.clientMessage] using hd
    · rfl
    · rfl
  disconnected n ht := queued_of_type .USER_DISCONNECTED ht (by decide)
  other n _ hne :=
    .inl (Data.Carries.mono (fun _ h => h) (.mono fun _ h => replied_of_ne h) _ _ (hcontent hne _ rfl))

theorem complies_of_discreet {w w' : World} {e : Event} (hw : Complies D (authPolicy D) w)
    (hok : Discreet w e) (h : D.step w e = some w') : Complies D (authPolicy D) w' := by
  have hP : Sound D (authPolicy D) := sound_authPolicy
  cases e with
  | connect c => exact complies_connect hP hw h
  | disconnect c i futures => exact complies_disconnect hP hw h
  | handOut k futures =>
    refine complies_handOut hP hw h fun p s hp _ _ _ _ n =>
      .inl ((MessageOf.carries_report rfl rfl).2 ?_)
    exact fun _ => (hw.processor.parcels p (List.mem_of_getElem? hp)).mails
  | refuse k => exact complies_refuse hP hw h
  | tunnel data draws => exact hok.elim
  | receive c i content futures =>
    refine complies_receive hP hw h fun s socket _ _ => ?_
    exact receives_of_discreet (List.mem_append_right _ (List.mem_singleton_self _)) hok.1 hok.2
  | dispatch k draws =>
    refine complies_dispatch hP hw h fun m _ _ _ e _ _ st hmem hst => ?_
    cases hst
    exact absurd hmem (by decide)
  | respond k outcome draws =>
    refine complies_respond hP hw h fun w₁ call hcall hmem a n reply ha hreply _ r hr hyes => ?_
    cases hr
    obtain ⟨c, i, hc, hreq, hasked, hhandled⟩ := hcall
    have ha' : a = (D.config c).address i := Option.some.inj (ha.symm.trans hreq.originalAddress)
    rcases hreply with rfl | ⟨⟨status, rfl⟩, happ, huser⟩
    · cases hyes
    · refine ⟨c, i, call.data, hc, by rw [ha']; rfl, hreq.note, huser, hasked, hhandled, .inr ?_⟩
      exact ⟨call, status, reply, hmem, hreq, happ.symm, huser.symm, hyes⟩

/-- **Authentication soundness.**  With discreet clients, every authenticated socket was admitted as
its user. -/
theorem authSound_of_discreet {w₀ w : World} (h₀ : Initial w₀)
    (h : D.system.Reaches Discreet w₀ w) : D.AuthSound w := by
  have hw : Complies D (authPolicy D) w :=
    h.invariant (I := Complies D (authPolicy D)) (complies_initial h₀)
      fun _ _ _ hI hok hst => complies_of_discreet hI hok hst
  intro c s i k hs hk hst
  obtain ⟨u, hu, d, hd, hadm⟩ := (hw.connectors c s hs).authenticated i k hk hst
  exact ⟨u, d, hu, hd, hadm⟩

end Domain

/-! ### Runs of a small domain -/

section

open Sample

attribute [local instance] JavaChar.ascii

namespace Sample

/-- A reply that no processor has made, for the user that waits on the second socket. -/
def madeUpReply : Message where
  id := some "made up"
  version := none
  content := some
    { type := some .AUTH_CLIENT_REPLY, data := .authClientReply ⟨none, some "APP-9", some true⟩ }
  from_ := none
  to_ := some connectorName
  meta_ := some { note := some "2" }
  createdAt := 0
  state := some .CREATED

/-- While the second socket waits, the client on the first reports that the reply has not found its
target. -/
def breakIn : List Event :=
  arrival 1 "APP-5" ++
    [.connect connectorName, .receive connectorName 2 (signIn "APP-9") [],
      .receive connectorName 1
        { type := some .MESSAGE_STATE_CHANGED
          data := .messageStateChanged (some madeUpReply) (some .ADDRESS_NOT_FOUND) } [],
      .dispatch 1 {}, .handOut 0 []]

/-- The users as whom sockets of the connector are authenticated. -/
def userOn (i : ℤ) (w : World) : Option (Option String) :=
  (((w.connectors connectorName).bind fun s => s.sockets i).filter fun k =>
    k.authStatus = .AUTHENTICATED).map (·.userId)

theorem userOn_eq_some {i : ℤ} {w : World} {u : Option String} (h : userOn i w = some u) :
    ∃ s k, w.connectors connectorName = some s ∧ s.sockets i = some k ∧
      k.authStatus = .AUTHENTICATED ∧ k.userId = u := by
  obtain ⟨k, hk, hu⟩ := Option.map_eq_some_iff.1 h
  obtain ⟨hk, hst⟩ := Option.filter_eq_some_iff.1 hk
  obtain ⟨s, hs, hk⟩ := Option.bind_eq_some_iff.1 hk
  exact ⟨s, k, hs, hk, of_decide_eq_true hst, hu⟩

end Sample

namespace Domain

/-- A run in which a client signs in. -/
theorem authSound_arrival : ∃ w, domain.system.run start (arrival 1 "APP-5") = some w ∧
    userOn 1 w = some (some "APP-5") ∧ domain.AuthSound w := by
  have hrun : ((domain.system.run start (arrival 1 "APP-5")).map (userOn 1)) =
      some (some (some "APP-5")) := by decide +kernel
  obtain ⟨w, hw, huser⟩ := Option.map_eq_some_iff.1 hrun
  refine ⟨w, hw, huser, authSound_of_discreet initial_start (System.reaches_of_run hw ?_)⟩
  intro e he w
  have hname : isConnectorUser (some connectorName) = true := by decide
  simp only [arrival, List.mem_cons, List.not_mem_nil, or_false] at he
  rcases he with rfl | rfl | rfl | rfl | rfl
  case inr.inl => exact ⟨hname, fun h => absurd rfl h⟩
  all_goals trivial

/-- **An intrusion.**  A client can have a socket authenticated whose request no processor has
handled. -/
theorem intrusion : Initial start ∧
    ∃ w, domain.system.Reaches (fun _ e => e.isTunnel = false) start w ∧ ¬ domain.AuthSound w := by
  have hrun : ((domain.system.run start breakIn).map fun w =>
      (userOn 2 w, w.dispatched.map fun m => m.data.authClient?.bind (·.userId))) =
      some (some (some "APP-9"), [some "APP-5", none, none]) := by decide +kernel
  obtain ⟨w, hw, hend⟩ := Option.map_eq_some_iff.1 hrun
  obtain ⟨huser, hdispatched⟩ := Prod.mk.inj hend
  have htunnel : ∀ e ∈ breakIn, e.isTunnel = false := by decide
  refine ⟨initial_start, w, System.reaches_of_run hw fun e he _ => htunnel e he, fun hsound => ?_⟩
  obtain ⟨s, k, hs, hk, hst, hku⟩ := userOn_eq_some huser
  obtain ⟨u, d, hu, hd, -, ⟨m, hm, hreq⟩, -⟩ := hsound _ s 2 k hs hk hst
  have hu' : some u = some "APP-9" := hu.symm.trans hku
  have hmem : (m.data.authClient?.bind (·.userId)) ∈
      w.dispatched.map fun m => m.data.authClient?.bind (·.userId) := List.mem_map_of_mem hm
  rw [hdispatched, hreq.data] at hmem
  have hnone : d.userId ∈ [some "APP-5", none, none] := hmem
  rw [hd, hu'] at hnone
  exact absurd hnone (by decide)

end Domain

end

end Linker
