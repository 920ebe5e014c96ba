import Linker.Processor.Copies

/-!
# Verdicts on authentication requests

`AuthClientMessageProcessor` answers an `AUTH_CLIENT` at once, or calls the endpoint of the app and
answers when the call ends.  It calls the endpoint for requests that pass its own checks, and takes the
reply of the endpoint over where it names the same app and user, whatever its status code is.

## Main results

* `doProcess_cases` : what the handler does with a request.
* `justified_iff` : positive replies are justified, unless the endpoint says yes in a response that is
  no success.
* `answeredOnce_iff` : a request is answered exactly once, unless its payload cannot be read, the URL of
  the endpoint is malformed, or the endpoint replies without a verdict.
-/

namespace Linker.Processor

open ProcessorUtils ClientAppService MessageProcessorService PostOffice Exec
open AuthClientMessageProcessor (replyMessage sendReply pass checkAuthUrl)

section Main

variable [JavaChar] (E : Environment)

/-! ### Requests and responses -/

/-- The request passes the checks that do not need the endpoint of the app. -/
structure Checked (d : AuthClient) (app : ClientApp) : Prop where
  found : getClientAppByUserId E d.userId = some app
  appId : app.appId = d.appId
  here : equalsIgnoreCase (some E.domainName) (resolveDomain E d.userId) = true

/-- The endpoint of the app is called for the request. -/
def CallsEndpoint (d : AuthClient) (url : String) : Prop :=
  ∃ app, Checked E d app ∧ app.authEnabled = true ∧ isBlank app.authUrl = false ∧
    orNull app.authUrl = url

/-- A response that names the app and the user of the request. -/
def HttpOutcome.Names (o : HttpOutcome) (d : AuthClient) (status : ℕ) (reply : AuthClientReply) : Prop :=
  o = .response status (some (some reply)) ∧ reply.appId = d.appId ∧ reply.userId = d.userId

/-- `Response.isSuccessful`. -/
def isSuccessful (status : ℕ) : Prop := 200 ≤ status ∧ status < 300

/-- Reasons to let the user of the request `m` in. -/
def Justified (m : Message) (o : HttpOutcome) : Prop :=
  ∃ d app, m.data = .authClient d ∧ Checked E d app ∧ (app.authEnabled = false ∨
    ∃ status reply, o.Names d status reply ∧ isSuccessful status ∧ reply.isAuthenticated = some true)

/-- A reply to the request can be delivered in the domain. -/
def Answerable (m : Message) : Prop :=
  ∃ a, m.originalAddress = some a ∧ (isBlank a.connectorName ||
    equalsIgnoreCase (some E.domainName) (resolveDomain E a.connectorName)) = true

/-- The request comes from the connector `c`, to which the domain can deliver. -/
structure ComesFrom (m : Message) (c : String) : Prop where
  address : ∃ a, m.originalAddress = some a ∧ a.connectorName = some c
  connector : isConnectorUser (some c) = true
  here : equalsIgnoreCase (some E.domainName) (resolveDomain E (some c)) = true

/-- The endpoint says yes in a response that is no success. -/
def Misled (m : Message) (o : HttpOutcome) : Prop :=
  Answerable E m ∧ ∃ d url status reply, m.data = .authClient d ∧ CallsEndpoint E d url ∧
    E.acceptsUrl url = true ∧ o.Names d status reply ∧ ¬ isSuccessful status ∧
    reply.isAuthenticated = some true

/-- The endpoint replies to the request without a verdict. -/
def Undecided (d : AuthClient) (o : HttpOutcome) : Prop :=
  ∃ status reply, o.Names d status reply ∧ reply.isAuthenticated = none

/-! ### Replies -/

/-- The message is a reply with the given data. -/
def IsReply (reply : AuthClientReply) (r : Message) : Prop :=
  r.type = some .AUTH_CLIENT_REPLY ∧ r.data = .authClientReply reply

/-- A positive reply has been sent since `s`. -/
def LetsIn (s s' : State) : Prop :=
  ∃ r ∈ s.since s', ∃ reply, IsReply reply r ∧ reply.isAuthenticated = some true

/-- One message has been sent since `s`: a reply to the connector `c` with the note and the user of the
request, and a verdict. -/
def Answers (m : Message) (c : String) (s s' : State) : Prop :=
  ∃ d r verdict, m.data = .authClient d ∧ s.since s' = [r] ∧
    IsReply ⟨d.appId, d.userId, some verdict⟩ r ∧ r.to_ = some c ∧ r.note = m.note ∧
    (s'.parcels = s.parcels ++ [⟨.KAFKA, c, r⟩] ∨ s'.parcels = s.parcels ∧ r ∈ s'.messages)

/-- The handler of `AUTH_CLIENT` at work on a request. -/
def handled (m : Message) (s : State) : State :=
  (((AuthClientMessageProcessor.processor E).process m).run s).2

/-- The end of a call of the endpoint. -/
def completed (call : HttpCall) (o : HttpOutcome) (s : State) : State := ((call.complete E o).run s).2

/-- Positive replies to the request are sent only for a reason, at once and when a call that was begun
ends so. -/
structure JustifiedReplies (m : Message) (o : HttpOutcome) : Prop where
  atOnce : ∀ s, LetsIn s (handled E m s) → Justified E m o
  later : ∀ s, ∀ call ∈ (handled E m s).httpCalls.drop s.httpCalls.length, ∀ s',
    LetsIn s' (completed E call o s') → Justified E m o

/-- The request is answered at once, or one call is begun and the request is answered when it ends so. -/
def AnsweredOnce (m : Message) (c : String) (o : HttpOutcome) : Prop :=
  ∀ s, Answers m c s (handled E m s) ∧ (handled E m s).httpCalls = s.httpCalls ∨
    s.since (handled E m s) = [] ∧ ∃ call, (handled E m s).httpCalls = s.httpCalls ++ [call] ∧
      ∀ s', Answers m c s' (completed E call o s')

variable {E} {m : Message} {d : AuthClient} {o : HttpOutcome}

/-! ### The handler -/

theorem Checked.unique {app app' : ClientApp} (h : Checked E d app) (h' : Checked E d app') :
    app = app' := Option.some.inj (h.found.symm.trans h'.found)

/-- **What the handler does** with a request. -/
theorem doProcess_cases (m : Message) (d : AuthClient) :
    (∃ app, Checked E d app ∧ app.authEnabled = false ∧
      (AuthClientMessageProcessor.processor E).doProcess m (some d) = pass E m d) ∨
    (∃ url, CallsEndpoint E d url ∧
      (AuthClientMessageProcessor.processor E).doProcess m (some d) = checkAuthUrl E url m d) ∨
    (∀ url, ¬ CallsEndpoint E d url) ∧ (AuthClientMessageProcessor.processor E).doProcess m (some d) =
      AuthClientMessageProcessor.fail E m d := by
  have hrun : (AuthClientMessageProcessor.processor E).doProcess m (some d) =
      (getClientAppByUserId E d.userId).elim (AuthClientMessageProcessor.fail E m d) fun app =>
        if app.appId ≠ d.appId then AuthClientMessageProcessor.fail E m d
        else if !equalsIgnoreCase (some E.domainName) (resolveDomain E d.userId) then
          AuthClientMessageProcessor.fail E m d
        else if !app.authEnabled then pass E m d
        else if isBlank app.authUrl then AuthClientMessageProcessor.fail E m d
        else checkAuthUrl E (orNull app.authUrl) m d := by
    have hdata : ∀ f : AuthClient → Proc Unit, (orNullPointer m (some d) >>= f) = f d := fun _ => rfl
    simp only [AuthClientMessageProcessor.processor, hdata]
    rcases getClientAppByUserId E d.userId with _ | app <;> rfl
  rw [hrun]
  rcases hfound : getClientAppByUserId E d.userId with _ | app
  · refine .inr (.inr ⟨?_, rfl⟩)
    rintro url ⟨app, hchecked, -⟩
    cases hfound.symm.trans hchecked.found
  rw [Option.elim_some]
  have hsame : ∀ app', Checked E d app' → app' = app := fun app' h =>
    Option.some.inj (h.found.symm.trans hfound)
  -- the checks, in the order of the handler
  split_ifs with happ hhere henabled hurl
  · refine .inr (.inr ⟨?_, rfl⟩)
    rintro url ⟨app', hchecked, -⟩
    exact happ (hsame app' hchecked ▸ hchecked.appId)
  · refine .inr (.inr ⟨?_, rfl⟩)
    rintro url ⟨app', hchecked, -⟩
    rw [hchecked.here] at hhere
    cases hhere
  · exact .inl ⟨app, ⟨hfound, not_not.1 happ, by simpa using hhere⟩, by simpa using henabled, rfl⟩
  · refine .inr (.inr ⟨?_, rfl⟩)
    rintro url ⟨app', hchecked, -, hblank, -⟩
    rw [hsame app' hchecked, hurl] at hblank
    cases hblank
  · exact .inr (.inl ⟨_, ⟨app, ⟨hfound, not_not.1 happ, by simpa using hhere⟩,
      by simpa using henabled, by simpa using hurl, rfl⟩, rfl⟩)

/-- The handler with a payload that it can read. -/
theorem run_process (hd : m.data = .authClient d) (s : State) :
    ((AuthClientMessageProcessor.processor E).process m).run s =
      ((AuthClientMessageProcessor.processor E).doProcess m (some d)).run s := by
  obtain ⟨c, hc, hcd⟩ : ∃ c, m.content = some c ∧ c.data = .authClient d := by
    rcases hc : m.content with _ | c
    · rw [MessageOf.data, hc] at hd
      cases hd
    · rw [MessageOf.data, hc] at hd
      exact ⟨c, rfl, hd⟩
  have hget : (getData Data.authClient? m).run s = (.ok (some d), s) :=
    run_getData hc (by rw [hcd]; rfl) s
  rw [MessageProcessor.process]
  exact run_bind_ok hget

/-- The handler with a payload that it cannot read. -/
theorem run_process_unreadable (hd : ∀ d, m.data ≠ .authClient d) (s : State) :
    ∃ e, ((AuthClientMessageProcessor.processor E).process m).run s = (.error e, s) := by
  rw [MessageProcessor.process]
  rcases hc : m.content with _ | c
  · exact ⟨⟨.nullPointer, m⟩, by rw [getData, getContent, hc]; rfl⟩
  have hdata : m.data = c.data := by rw [MessageOf.data, hc]; rfl
  rcases hconv : c.data.convert Data.authClient? with e | _ | d
  · refine ⟨⟨e, m⟩, run_bind_error ?_⟩
    show (getData Data.authClient? m).run s = _
    rw [getData, run_bind_ok (run_getContent hc s), hconv]
    rfl
  · refine ⟨⟨.nullPointer, m⟩, ?_⟩
    exact (run_bind_ok (show (getData Data.authClient? m).run s = _ from run_getData hc hconv s)).trans rfl
  · exact absurd (Data.authClient?_eq_some.1 (Data.convert_eq_some hconv)) (hdata ▸ hd d)

/-! ### What a reply sends -/

theorem puts_sendReply {Q : Message → Prop} {s₀ : State} {reply : AuthClientReply}
    (hQ : ∀ r, IsReply reply r → Q r) (m : Message) :
    Keeps (Puts Q s₀) (sendReply E m reply) fun _ => True := by
  refine (keeps_orNullPointer _ _).bind fun t _ => (keeps_orNullPointer _ _).bind fun a _ => ?_
  refine puts_builder.bind fun b _ => .reraise (puts_deliverMessage (fun y hy => hQ y ?_) nofun)
  exact ⟨hy.letter.type, hy.letter.data⟩

/-- All that `sendReply` sends is the reply. -/
theorem isReply_since {reply : AuthClientReply} {s : State} {r : Message}
    (hr : r ∈ s.since ((sendReply E m reply).run s).2) : IsReply reply r :=
  ((puts_sendReply (fun _ h => h) m).run (refl_of (Puts (IsReply reply)) s)).since r hr

/-- The reply as it is delivered. -/
theorem run_sendReply {t : MessageMeta} {a : Address} (ht : m.meta_ = some t)
    (ha : t.originalAddress = some a) (reply : AuthClientReply) (s : State) :
    (sendReply E m reply).run s = (Proc.during m (deliverMessage E
      (replyMessage E (E.blank s.serial) a.connectorName t.note reply))).run s.next := by
  have horiginal : (orNullPointer m t.originalAddress).run s = (.ok a, s) := by rw [ha]; rfl
  rw [sendReply, run_bind_ok (run_getMeta ht s), run_bind_ok horiginal]
  exact run_bind_ok (run_builder E s)

omit [JavaChar] in
theorem exists_meta {a : Address} (ha : m.originalAddress = some a) :
    ∃ t, m.meta_ = some t ∧ t.originalAddress = some a ∧ m.note = t.note := by
  obtain ⟨t, ht, ha'⟩ := Option.bind_eq_some_iff.1 ha
  exact ⟨t, ht, ha', by rw [MessageOf.note, ht]; rfl⟩

/-- Whether a reply is for the domain depends on whom it is for. -/
theorem isLocal_reply (blank : Message) (u note : Option String) (reply : AuthClientReply) :
    isLocal E (replyMessage E blank u note reply) =
      (isBlank u || equalsIgnoreCase (some E.domainName) (resolveDomain E u)) := rfl

/-- A reply that cannot be delivered is not sent. -/
theorem puts_sendReply_stranded {Q : Message → Prop} {s₀ : State} (h : ¬ Answerable E m)
    (reply : AuthClientReply) : Keeps (Puts Q s₀) (sendReply E m reply) fun _ => True := by
  refine (keeps_orNullPointer _ _).bind fun t ht => (keeps_orNullPointer _ _).bind fun a ha => ?_
  refine puts_builder.bind fun b _ s hs => ?_
  have hloc : isLocal E (replyMessage E b a.connectorName t.note reply) = false := by
    rw [isLocal_reply]
    by_contra hhere
    refine h ⟨a, ?_, by rwa [Bool.not_eq_false] at hhere⟩
    rw [MessageOf.originalAddress, ht]
    exact ha
  obtain ⟨e, -, he, -⟩ := run_deliverMessage_stranded (E := E)
    (m := replyMessage E b a.connectorName t.note reply) rfl rfl (fun h => by cases h) hloc s
  rw [Proc.during, run_reraise, he]
  exact ⟨hs, fun _ _ => trivial⟩

omit [JavaChar] in
/-- A message offered to the producer is put on the topic or saved. -/
theorem since_offer (m : Message) {a : Address} {c : String} (ha : a.connectorName = some c) (s : State) :
    ∃ r, m.Copy r ∧ s.since (s.offer .RELIABLE m a) = [r] ∧
      ((s.offer .RELIABLE m a).parcels = s.parcels ++ [⟨.KAFKA, c, r⟩] ∨
        (s.offer .RELIABLE m a).parcels = s.parcels ∧ r ∈ (s.offer .RELIABLE m a).messages) := by
  have hcopy : m.Copy (m.setTargetAddress (some a)) := .setTargetAddress m (some a)
  by_cases hrefused : s.refused.headD false = true
  · rw [State.offer, if_pos hrefused]
    refine ⟨_, hcopy.trans (.setState _ (some .NETWORK_ERROR)), ?_, .inr ⟨rfl, ?_⟩⟩
    · have hparcels : (s.asked.keep .RELIABLE ((m.setTargetAddress (some a)).setState
          (some .NETWORK_ERROR))).parcels = s.parcels ++ [] := (List.append_nil _).symm
      exact since_eq hparcels rfl
    · exact MessageRepository.self_mem_upsert _ _
  · rw [State.offer_accepted (by simpa using hrefused)]
    have hparcels : (s.asked.post [copyTo .RELIABLE m a]).parcels =
      s.parcels ++ [copyTo .RELIABLE m a] := rfl
    have hjournal : (s.asked.post [copyTo .RELIABLE m a]).journal = s.journal ++ [] :=
      (List.append_nil _).symm
    refine ⟨_, hcopy, since_eq hparcels hjournal, .inl ?_⟩
    show s.parcels ++ [copyTo .RELIABLE m a] = _
    rw [copyTo, ha]
    rfl

/-- A reply to a connector of the domain is sent to it. -/
theorem run_sendReply_connector {c : String} (h : ComesFrom E m c) (reply : AuthClientReply)
    (s : State) : ∃ r s', (sendReply E m reply).run s = (.ok (), s') ∧
      s'.httpCalls = s.httpCalls ∧ s.since s' = [r] ∧ IsReply reply r ∧ r.to_ = some c ∧
      r.note = m.note ∧ (s'.parcels = s.parcels ++ [⟨.KAFKA, c, r⟩] ∨
        s'.parcels = s.parcels ∧ r ∈ s'.messages) := by
  obtain ⟨a, ha, hc⟩ := h.address
  obtain ⟨t, ht, ha', hnote⟩ := exists_meta ha
  have hloc : isLocal E (replyMessage E (E.blank s.serial) a.connectorName t.note reply) = true := by
    rw [isLocal_reply, hc, h.here, Bool.or_true]
  obtain ⟨picks, hsend⟩ := run_deliverMessage_connector (E := E) (f := .RELIABLE) (m := replyMessage E
    (E.blank s.serial) a.connectorName t.note reply) rfl rfl rfl rfl hloc hc h.connector s.next
  obtain ⟨r, hcopy, hsince, hput⟩ := since_offer (sent E (replyMessage E (E.blank s.serial)
    a.connectorName t.note reply)) (a := { domainName := some E.domainName, connectorName := some c })
    rfl (s.next.picking picks)
  have hletter := ((letter_populated (E := E) (replyMessage E (E.blank s.serial) a.connectorName t.note
    reply)).trans (letter_adjusted _)).trans hcopy.letter
  refine ⟨r, _, by rw [run_sendReply ht ha', Proc.during, run_reraise_ok hsend], ?_, hsince,
    ⟨hletter.type, hletter.data⟩, hletter.to_.trans hc, hletter.note.trans hnote.symm, hput⟩
  rw [State.offer]
  split
  · rfl
  · rfl

/-- A reply that can be delivered is sent, to a topic or to the store. -/
theorem exists_run_sendReply (h : Answerable E m) (reply : AuthClientReply) :
    ∃ s', (sendReply E m reply).run {} = (.ok (), s') ∧ ∃ r ∈ State.since {} s', IsReply reply r := by
  obtain ⟨a, ha, hhere⟩ := h
  obtain ⟨t, ht, ha', -⟩ := exists_meta ha
  have hnamed : ∀ b ∈ targets E a.connectorName (sent E (replyMessage E (E.blank 0) a.connectorName
      t.note reply)).deliveryType (State.next {}), b.connectorName ≠ none := by
    intro b hb
    unfold targets at hb
    split_ifs at hb with hblank hconn
    · cases hb
    · rw [List.mem_singleton.1 hb]
      intro hnone
      rw [hnone] at hblank
      exact hblank rfl
    · cases hname : a.connectorName with
      | none => rw [hname] at hblank; exact absurd rfl hblank
      | some u => rw [hname] at hb; cases hb
  obtain ⟨picks, hsend⟩ := run_deliverMessage (E := E) (f := .RELIABLE) (m := replyMessage E (E.blank 0)
    a.connectorName t.note reply) rfl rfl rfl rfl hhere (s := State.next {}) rfl hnamed
  have hrun := (run_sendReply ht ha' reply {}).trans (run_reraise_ok hsend)
  have hsome : State.since {} ((sendReply E m reply).run {}).2 ≠ [] := by
    rw [hrun, State.sentOut]
    split
    · exact List.cons_ne_nil _ _
    · next hne =>
      intro hnil
      have hparcels := (List.append_eq_nil_iff.1 hnil).1
      exact hne (by simpa [State.post, State.picking, State.next] using hparcels)
  obtain ⟨r, hr⟩ := List.exists_mem_of_ne_nil _ hsome
  exact ⟨_, hrun, r, by rw [hrun] at hr; exact hr, isReply_since hr⟩

theorem moves_sendReply (m : Message) (reply : AuthClientReply) :
    Moves Sends (sendReply E m reply) := by
  refine (moves_orNullPointer _ _).bind fun t => (moves_orNullPointer _ _).bind fun a => ?_
  exact moves_builder.bind fun b => .reraise (moves_deliverMessage _)

/-! ### What becomes of a request -/

omit [JavaChar] in
theorem since_self (s : State) : s.since s = [] := by
  rw [since_eq (List.append_nil _).symm (List.append_nil _).symm]
  rfl

/-- The stores after the handler has seen a request. -/
theorem handled_cases (m : Message) (s : State) :
    (∀ d, m.data ≠ .authClient d) ∧ handled E m s = s ∨ ∃ d, m.data = .authClient d ∧
      ((∃ app, Checked E d app ∧ app.authEnabled = false ∧
          handled E m s = ((pass E m d).run s).2) ∨
        (∃ url, CallsEndpoint E d url ∧ E.acceptsUrl url = true ∧
          handled E m s = { s with httpCalls := s.httpCalls ++ [⟨url, m, d⟩] }) ∨
        (∃ url, CallsEndpoint E d url ∧ E.acceptsUrl url = false ∧ handled E m s = s) ∨
        (∀ url, ¬ CallsEndpoint E d url) ∧
          handled E m s = ((AuthClientMessageProcessor.fail E m d).run s).2) := by
  by_cases hd : ∃ d, m.data = .authClient d
  · obtain ⟨d, hd⟩ := hd
    refine .inr ⟨d, hd, ?_⟩
    rw [handled, run_process hd]
    rcases doProcess_cases (E := E) m d with ⟨app, hchecked, hoff, hrun⟩ | ⟨url, hcalls, hrun⟩ |
      ⟨hnone, hrun⟩
    · exact .inl ⟨app, hchecked, hoff, by rw [hrun]⟩
    · rw [hrun, checkAuthUrl]
      rcases hurl : E.acceptsUrl url with _ | _
      · exact .inr (.inr (.inl ⟨url, hcalls, hurl, rfl⟩))
      · exact .inr (.inl ⟨url, hcalls, hurl, rfl⟩)
    · exact .inr (.inr (.inr ⟨hnone, by rw [hrun]⟩))
  · obtain ⟨e, he⟩ := run_process_unreadable (E := E) (m := m) (fun d h => hd ⟨d, h⟩) s
    exact .inl ⟨fun d h => hd ⟨d, h⟩, by rw [handled, he]⟩

theorem CallsEndpoint.unique {url url' : String} (h : CallsEndpoint E d url)
    (h' : CallsEndpoint E d url') : url = url' := by
  obtain ⟨app, hchecked, -, -, rfl⟩ := h
  obtain ⟨app', hchecked', -, -, rfl⟩ := h'
  rw [hchecked.unique hchecked']

/-- The handler of a request for which the endpoint is called. -/
theorem handled_of_calls {url : String} (hd : m.data = .authClient d) (hcalls : CallsEndpoint E d url)
    (s : State) : handled E m s = if E.acceptsUrl url = true then
      { s with httpCalls := s.httpCalls ++ [⟨url, m, d⟩] } else s := by
  rcases handled_cases (E := E) m s with ⟨hne, -⟩ | ⟨d', hd', h⟩
  · exact absurd hd (hne d)
  cases hd.symm.trans hd'
  rcases h with ⟨app, hchecked, hoff, -⟩ | ⟨url', hcalls', hurl, heq⟩ | ⟨url', hcalls', hurl, heq⟩ |
    ⟨hnone, -⟩
  · obtain ⟨app', hchecked', hon, -⟩ := hcalls
    rw [hchecked'.unique hchecked, hoff] at hon
    cases hon
  · rw [heq, hcalls.unique hcalls', if_pos hurl]
  · rw [heq, hcalls.unique hcalls', hurl, if_neg Bool.false_ne_true]
  · exact absurd hcalls (hnone url)

/-- A call is begun for a request that passes the checks. -/
theorem mem_httpCalls {s : State} {call : HttpCall}
    (h : call ∈ (handled E m s).httpCalls.drop s.httpCalls.length) : ∃ d url, m.data = .authClient d ∧
      CallsEndpoint E d url ∧ E.acceptsUrl url = true ∧ call = ⟨url, m, d⟩ := by
  have hsame : ∀ s' : State, s'.httpCalls = s.httpCalls → call ∉ s'.httpCalls.drop s.httpCalls.length := by
    intro s' heq hmem
    rw [heq, List.drop_length] at hmem
    cases hmem
  rcases handled_cases (E := E) m s with ⟨-, heq⟩ | ⟨d, hd, ⟨app, -, -, heq⟩ | ⟨url, hcalls, hurl, heq⟩ |
    ⟨url, -, -, heq⟩ | ⟨-, heq⟩⟩
  · exact absurd h (hsame _ (congrArg State.httpCalls heq))
  · exact absurd h (heq ▸ hsame _ (moves_sendReply m _ s).httpCalls)
  · rw [heq, List.drop_left] at h
    exact ⟨d, url, hd, hcalls, hurl, List.mem_singleton.1 h⟩
  · exact absurd h (hsame _ (congrArg State.httpCalls heq))
  · exact absurd h (heq ▸ hsame _ (moves_sendReply m _ s).httpCalls)

/-- The replies that the end of a call can send. -/
theorem puts_complete {Q : Message → Prop} {s₀ : State} (call : HttpCall) (o : HttpOutcome)
    (h : ∀ reply : AuthClientReply, reply.isAuthenticated = some false ∨
      (∃ status, o.Names call.data status reply) →
      Keeps (Puts Q s₀) (sendReply E call.message reply) fun _ => True) :
    Keeps (Puts Q s₀) (call.complete E o) fun _ => True := by
  have hfail : Keeps (Puts Q s₀) ((AuthClientMessageProcessor.fail E call.message call.data).recover
      fun _ => pure ()) fun _ => True := (h _ (.inl rfl)).recover fun _ => .pure trivial
  unfold HttpCall.complete
  rcases o with _ | ⟨status, _ | reply⟩
  · exact hfail
  · exact hfail
  · refine Keeps.recover ((keeps_orNullPointer _ _).bind fun r hr => .ite (fun hsame => ?_) fun _ => ?_)
      fun _ => hfail
    · exact h r (.inr ⟨status, by rw [hr], hsame.1.symm, hsame.2.symm⟩)
    · exact h _ (.inl rfl)

/-- A positive reply at the end of a call can be delivered, and is that of the endpoint. -/
theorem names_of_letsIn {call : HttpCall} {s : State} {r : Message} {reply : AuthClientReply}
    (hr : r ∈ s.since (completed E call o s)) (hreply : IsReply reply r)
    (hyes : reply.isAuthenticated = some true) :
    Answerable E call.message ∧ ∃ status, o.Names call.data status reply := by
  have hself := refl_of (Puts fun r => ∀ reply, IsReply reply r → reply.isAuthenticated = some true →
    Answerable E call.message ∧ ∃ status, o.Names call.data status reply) s
  refine ((puts_complete call o fun reply hsource => ?_).run hself).since r hr reply hreply hyes
  by_cases hanswer : Answerable E call.message
  · refine puts_sendReply (fun r hreply reply' hreply' hyes' => ⟨hanswer, ?_⟩) call.message
    cases hreply.2.symm.trans hreply'.2
    rcases hsource with hno | hnames
    · cases hno.symm.trans hyes'
    · exact hnames
  · exact puts_sendReply_stranded hanswer reply

/-- The endpoint names the app and the user of the request. -/
theorem run_complete_names {call : HttpCall} {status : ℕ} {reply : AuthClientReply} {s s' : State}
    (h : o.Names call.data status reply)
    (hsend : (sendReply E call.message reply).run s = (.ok (), s')) :
    (call.complete E o).run s = (.ok (), s') := by
  obtain ⟨rfl, happ, huser⟩ := h
  have haccept : (HttpCall.accept E call (some reply)).run s = (.ok (), s') := by
    have hrun : HttpCall.accept E call (some reply) =
        if call.data.appId = reply.appId ∧ call.data.userId = reply.userId then
          sendReply E call.message reply
        else AuthClientMessageProcessor.fail E call.message call.data := rfl
    rw [hrun, if_pos ⟨happ.symm, huser.symm⟩, hsend]
  show ((HttpCall.accept E call (some reply)).recover _).run s = _
  rw [run_recover, haccept]

/-- Otherwise the request is answered with no. -/
theorem run_complete_fails {call : HttpCall} {s s' : State}
    (h : ∀ status reply, ¬ o.Names call.data status reply)
    (hsend : (AuthClientMessageProcessor.fail E call.message call.data).run s = (.ok (), s')) :
    (call.complete E o).run s = (.ok (), s') := by
  have hfail : ((AuthClientMessageProcessor.fail E call.message call.data).recover
      fun _ => pure ()).run s = (.ok (), s') := by rw [run_recover, hsend]
  rcases o with _ | ⟨status, _ | _ | reply⟩
  · exact hfail
  · exact hfail
  · exact hfail
  · have hne : ¬ (call.data.appId = reply.appId ∧ call.data.userId = reply.userId) := fun hsame =>
      h status reply ⟨rfl, hsame.1.symm, hsame.2.symm⟩
    have hrun : HttpCall.accept E call (some reply) =
        if call.data.appId = reply.appId ∧ call.data.userId = reply.userId then
          sendReply E call.message reply
        else AuthClientMessageProcessor.fail E call.message call.data := rfl
    show ((HttpCall.accept E call (some reply)).recover _).run s = _
    rw [run_recover, hrun, if_neg hne, hsend]

/-! ### Justified replies -/

/-- A response that is no success lets a user in. -/
theorem not_justified_of_misled (h : Misled E m o) : ¬ JustifiedReplies E m o := by
  intro hreplies
  obtain ⟨hanswer, d, url, status, reply, hd, hcalls, hurl, hnames, hstatus, hyes⟩ := h
  have hcall : (⟨url, m, d⟩ : HttpCall) ∈ (handled E m {}).httpCalls.drop 0 := by
    rw [handled_of_calls hd hcalls, if_pos hurl]
    exact List.mem_singleton_self _
  obtain ⟨s', hsend, r, hr, hreply⟩ := exists_run_sendReply hanswer reply
  have hlets : LetsIn {} (completed E ⟨url, m, d⟩ o {}) := by
    rw [completed, run_complete_names hnames hsend]
    exact ⟨r, hr, reply, hreply, hyes⟩
  -- the only reason would be that the response is a success
  obtain ⟨d', app, hd', hchecked, hreason⟩ := hreplies.later {} _ hcall {} hlets
  cases hd.symm.trans hd'
  obtain ⟨app', hchecked', hon, -⟩ := hcalls
  rcases hreason with hoff | ⟨status', reply', ⟨ho, -, -⟩, hsuccess, -⟩
  · rw [hchecked'.unique hchecked, hoff] at hon
    cases hon
  · cases hnames.1.symm.trans ho
    exact hstatus hsuccess

/-- **A positive reply has a reason**, unless the endpoint says yes in a response that is no success. -/
theorem justified_iff (m : Message) (o : HttpOutcome) :
    JustifiedReplies E m o ↔ ¬ Misled E m o := by
  refine ⟨fun h hmisled => not_justified_of_misled hmisled h, fun h => ⟨?_, ?_⟩⟩
  · rintro s ⟨r, hr, reply, ⟨-, hdata⟩, hyes⟩
    rcases handled_cases (E := E) m s with ⟨-, heq⟩ | ⟨d, hd, ⟨app, hchecked, hoff, -⟩ |
      ⟨url, -, -, heq⟩ | ⟨url, -, -, heq⟩ | ⟨-, heq⟩⟩
    · rw [heq, since_self] at hr
      cases hr
    · exact ⟨d, app, hd, hchecked, .inl hoff⟩
    · rw [heq] at hr
      have hsame : r ∈ s.since s := hr
      rw [since_self] at hsame
      cases hsame
    · rw [heq, since_self] at hr
      cases hr
    · rw [heq] at hr
      cases (isReply_since hr).2.symm.trans hdata
      cases hyes
  · rintro s call hcall s' ⟨r, hr, reply, hreply, hyes⟩
    obtain ⟨d, url, hd, hcalls, hurl, rfl⟩ := mem_httpCalls hcall
    obtain ⟨hanswer, status, hnames⟩ := names_of_letsIn hr hreply hyes
    obtain ⟨app, hchecked, -⟩ := id hcalls
    refine ⟨d, app, hd, hchecked, .inr ⟨status, reply, hnames, ?_, hyes⟩⟩
    by_contra hstatus
    exact h ⟨hanswer, d, url, status, reply, hd, hcalls, hurl, hnames, hstatus, hyes⟩

/-! ### One answer -/

/-- What keeps a request from being answered once. -/
theorem conditions_of_answeredOnce {c : String} (hfrom : ComesFrom E m c)
    (h : AnsweredOnce E m c o) : ∃ d, m.data = .authClient d ∧
      ∀ url, CallsEndpoint E d url → E.acceptsUrl url = true ∧ ¬ Undecided d o := by
  by_cases hd : ∃ d, m.data = .authClient d
  · obtain ⟨d, hd⟩ := hd
    refine ⟨d, hd, fun url hcalls => ?_⟩
    have hnone : ¬ Answers m c {} (handled E m {}) := by
      rintro ⟨d', r, verdict, -, hsince, -⟩
      rw [handled_of_calls hd hcalls] at hsince
      split at hsince
      · cases hsince
      · cases hsince
    rcases h {} with ⟨hanswer, -⟩ | ⟨-, call, hcall, hlater⟩
    · exact absurd hanswer hnone
    rw [handled_of_calls hd hcalls] at hcall
    split_ifs at hcall with hurl
    · refine ⟨hurl, ?_⟩
      rintro ⟨status, reply, hnames, hno⟩
      cases List.singleton_inj.1 (show [_] = [_] from hcall)
      obtain ⟨r, s', hrun, -, hsince, hreply, -⟩ := run_sendReply_connector hfrom reply {}
      obtain ⟨d', r', verdict, -, hsince', hreply', -⟩ := hlater {}
      rw [completed, run_complete_names hnames hrun, hsince] at hsince'
      cases List.singleton_inj.1 hsince'
      cases hreply.2.symm.trans hreply'.2
      cases hno
    · cases hcall
  · -- nothing at all is done with what cannot be read
    have hidle : handled E m {} = {} := by
      obtain ⟨e, he⟩ := run_process_unreadable (E := E) (m := m) (fun d h => hd ⟨d, h⟩) {}
      rw [handled, he]
    rcases h {} with ⟨⟨d', r, verdict, -, hsince, -⟩, -⟩ | ⟨-, call, hcall, -⟩
    · rw [hidle] at hsince
      cases hsince
    · rw [hidle] at hcall
      cases hcall

/-- A verdict that is sent to the connector is an answer. -/
theorem answers_of_run {c : String} (hfrom : ComesFrom E m c) (hd : m.data = .authClient d)
    {verdict : Bool} {s s' : State}
    (h : s' = ((sendReply E m ⟨d.appId, d.userId, some verdict⟩).run s).2) :
    Answers m c s s' ∧ s'.httpCalls = s.httpCalls := by
  obtain ⟨r, s'', hrun, hcalls, hsince, hreply, hto, hnote, hput⟩ :=
    run_sendReply_connector hfrom ⟨d.appId, d.userId, some verdict⟩ s
  rw [h, hrun]
  exact ⟨⟨d, r, verdict, hd, hsince, hreply, hto, hnote, hput⟩, hcalls⟩

/-- The end of a call is an answer, where the endpoint does not leave the verdict out. -/
theorem answers_completed {c url : String} (hfrom : ComesFrom E m c) (hd : m.data = .authClient d)
    (h : ¬ Undecided d o) (s : State) : Answers m c s (completed E ⟨url, m, d⟩ o s) := by
  by_cases hnames : ∃ status reply, o.Names d status reply
  · obtain ⟨status, ⟨appId, userId, verdict⟩, hnames⟩ := hnames
    obtain ⟨-, rfl, rfl⟩ := id hnames
    rcases verdict with _ | verdict
    · exact absurd ⟨status, _, hnames, rfl⟩ h
    obtain ⟨r, s', hrun, -⟩ := run_sendReply_connector hfrom ⟨d.appId, d.userId, some verdict⟩ s
    have hcomplete : (HttpCall.complete E ⟨url, m, d⟩ o).run s = (.ok (), s') :=
      run_complete_names hnames hrun
    exact (answers_of_run hfrom hd (by rw [completed, hcomplete, hrun])).1
  · obtain ⟨r, s', hrun, -⟩ := run_sendReply_connector hfrom ⟨d.appId, d.userId, some false⟩ s
    have hcomplete : (HttpCall.complete E ⟨url, m, d⟩ o).run s = (.ok (), s') :=
      run_complete_fails (fun status reply h => hnames ⟨status, reply, h⟩) hrun
    exact (answers_of_run hfrom hd (by rw [completed, hcomplete, hrun])).1

/-- **A request is answered once**, unless its payload cannot be read, the URL of the endpoint is
malformed, or the endpoint replies without a verdict. -/
theorem answeredOnce_iff {c : String} (hfrom : ComesFrom E m c) (o : HttpOutcome) :
    AnsweredOnce E m c o ↔ ∃ d, m.data = .authClient d ∧
      ∀ url, CallsEndpoint E d url → E.acceptsUrl url = true ∧ ¬ Undecided d o := by
  refine ⟨conditions_of_answeredOnce hfrom, ?_⟩
  rintro ⟨d, hd, hcond⟩ s
  rcases handled_cases (E := E) m s with ⟨hne, -⟩ | ⟨d', hd', h⟩
  · exact absurd hd (hne d)
  cases hd.symm.trans hd'
  rcases h with ⟨app, -, -, heq⟩ | ⟨url, hcalls, hurl, heq⟩ | ⟨url, hcalls, hurl, -⟩ | ⟨-, heq⟩
  · exact .inl (answers_of_run hfrom hd heq)
  · refine .inr ⟨by rw [heq]; exact since_self s, ⟨url, m, d⟩, by rw [heq], ?_⟩
    exact answers_completed hfrom hd (hcond url hcalls).2
  · rw [(hcond url hcalls).1] at hurl
    cases hurl
  · exact .inl (answers_of_run hfrom hd heq)

end Main

/-! ### An app with an endpoint -/

section Sample

attribute [local instance] JavaChar.ascii

namespace SampleVerdict

/-- The app `ANZ`, which has its users checked at `authUrl`. -/
def app (authUrl : String) : ClientApp where
  appName := some "ANZ"
  appId := some "app-id-343"
  masterUserId := some "ANZ-1"
  authUrl := some authUrl
  authEnabled := true

def env (authUrl : String) : Environment where
  domainName := "domain-01"
  processorName := "processor-01"
  clientApps appName := if appName = "ANZ" then some (app authUrl) else none
  routes := none
  acceptsUrl url := url == "http://localhost/auth"
  keyOrder := id
  keyOrder_perm := perm_id
  uuid n := "processor-message-" ++ toString n
  now n := n

def data : AuthClient := ⟨some "app-id-343", some "ANZ-123223", some "abc"⟩

/-- The request of the first socket of `connector-01`. -/
def request : Message :=
  { newMessage "1" 1 with
    content := some (createMessageContent .AUTH_CLIENT (.authClient data) (some .RELIABLE))
    from_ := some "ANZ-123223"
    meta_ := some
      { originalAddress := some ⟨some "domain-01", some "connector-01", some 1⟩
        note := some "1" } }

/-- The endpoint says yes. -/
def yes (status : ℕ) : HttpOutcome :=
  .response status (some (some ⟨some "app-id-343", some "ANZ-123223", some true⟩))

theorem found (authUrl : String) :
    getClientAppByUserId (env authUrl) data.userId = some (app authUrl) := by
  have hparse : NameRecord.parse data.userId = ⟨some "ANZ", some 123223⟩ := by decide +kernel
  rw [getClientAppByUserId, hparse]
  rfl

theorem checked (authUrl : String) : Checked (env authUrl) data (app authUrl) where
  found := found authUrl
  appId := rfl
  here := by
    rw [resolveDomain, found]
    exact equalsIgnoreCase_refl _

theorem calls (authUrl : String) (h : isBlank (some authUrl) = false) :
    CallsEndpoint (env authUrl) data authUrl :=
  ⟨app authUrl, checked authUrl, rfl, h, rfl⟩

theorem comesFrom (authUrl : String) : ComesFrom (env authUrl) request "connector-01" where
  address := ⟨_, rfl, rfl⟩
  connector := by decide +kernel
  here := by
    have hparse : NameRecord.parse (some "connector-01") = ⟨some "connector", some 1⟩ := by
      decide +kernel
    have hnone : getClientAppByUserId (env authUrl) (some "connector-01") = none := by
      rw [getClientAppByUserId, hparse]
      rfl
    rw [resolveDomain, hnone]
    exact equalsIgnoreCase_refl _

end SampleVerdict

open SampleVerdict

/-- **An error page that lets a user in.**  The endpoint answers with 500 and the reply in its body. -/
theorem letsIn_error : ¬ JustifiedReplies (env "http://localhost/auth") request (yes 500) := by
  obtain ⟨⟨a, ha, hc⟩, -, hhere⟩ := comesFrom "http://localhost/auth"
  refine not_justified_of_misled ⟨⟨a, ha, ?_⟩, data, "http://localhost/auth", 500, _, rfl,
    calls _ (by decide), rfl, ⟨rfl, rfl, rfl⟩, ?_, rfl⟩
  · rw [hc, hhere, Bool.or_true]
  · rintro ⟨-, hlt⟩
    exact absurd hlt (by decide)

/-- **A request that is never answered.**  The URL of the endpoint is no URL. -/
theorem unanswered : ¬ AnsweredOnce (env "localhost") request "connector-01" .failure := by
  intro h
  obtain ⟨d, hd, hcond⟩ := conditions_of_answeredOnce (comesFrom "localhost") h
  cases hd
  have haccepts := (hcond "localhost" (calls _ (by decide))).1
  exact absurd haccepts (by decide)

/-- With a proper URL the request is answered, also where the endpoint fails. -/
theorem answeredOnce_failure :
    AnsweredOnce (env "http://localhost/auth") request "connector-01" .failure := by
  refine (answeredOnce_iff (comesFrom "http://localhost/auth") .failure).2 ⟨data, rfl, ?_⟩
  intro url hcalls
  rw [hcalls.unique (calls "http://localhost/auth" (by decide))]
  refine ⟨rfl, ?_⟩
  rintro ⟨status, reply, ⟨ho, -⟩, -⟩
  cases ho

end Sample

end Linker.Processor
