import Linker.Domain.Compliance
import Linker.Processor.Letters

/-!
# Who a message claims to be from

A client that is authenticated as `u` sends a `MESSAGE` or a `GROUP_MESSAGE`; whoever receives the
text is told that it is from `u`.  This holds as long as no client sends a message that has other
messages in it (`INTERNAL_MESSAGE`, `MESSAGE_STATE_CHANGED`) with another sender: the connector passes
these on as they are, and a processor takes them for messages of connectors and of other domains.

## Main results

* `Domain.authentic_of_honest` : with honest clients, every text comes from the user it names.
* `Domain.forged` : a client can have a text delivered in the name of another user.
-/

namespace Linker

/-- The text is in what a client has sent. -/
def Conveys (c : MessageContent) (text : Option String) : Prop :=
  (∀ d, c.type = some .MESSAGE → c.data = .messageRequest d → d.content = text) ∧
    (∀ d, c.type = some .GROUP_MESSAGE → c.data = .groupMessage d → d.content = text)

/-- The text of what is processed has the property `ok` of its sender and its origin. -/
def Speaks (ok : Option String → Option Address → Option String → Prop) (m : Message) : Prop :=
  (∀ d, m.type = some .MESSAGE → m.data = .messageRequest d → ok m.from_ m.originalAddress d.content) ∧
    ∀ d, m.type = some .GROUP_MESSAGE → m.data = .groupMessage d →
      ok m.from_ m.originalAddress d.content

/-- The text of what is delivered has the property `ok` of the sender it names and its origin. -/
def Tells (ok : Option String → Option Address → Option String → Prop) (m : Message) : Prop :=
  (m.type = some .MESSAGE →
    ∃ f, m.data = .messageForward f ∧ ok f.from_ m.originalAddress f.content) ∧
    (m.type = some .GROUP_CONNECTOR_MESSAGE → ∀ g, m.data = .groupConnectorMessage g →
      ∃ f, g.content = some f ∧ ok f.from_ m.originalAddress f.content)

theorem tells_of_type {ok : Option String → Option Address → Option String → Prop} {m : Message}
    (ty : MessageType) (ht : m.type = some ty) (hne : ty ≠ .MESSAGE ∧ ty ≠ .GROUP_CONNECTOR_MESSAGE) :
    Tells ok m :=
  ⟨fun h => absurd (Option.some.inj (ht.symm.trans h)) hne.1,
    fun h => absurd (Option.some.inj (ht.symm.trans h)) hne.2⟩

theorem speaks_of_type {ok : Option String → Option Address → Option String → Prop} {m : Message}
    (ty : MessageType) (ht : m.type = some ty) (hne : ty ≠ .MESSAGE ∧ ty ≠ .GROUP_MESSAGE) :
    Speaks ok m :=
  ⟨fun _ h => absurd (Option.some.inj (ht.symm.trans h)) hne.1,
    fun _ h => absurd (Option.some.inj (ht.symm.trans h)) hne.2⟩

namespace Domain

variable [JavaChar] (D : Domain)

/-- The text was sent on the socket at `origin` when that was authenticated as `from_`. -/
def Sent (w : World) (from_ : Option String) (origin : Option Address) (text : Option String) : Prop :=
  ∃ i ∈ w.inputs, origin = some ((D.config i.connectorName).address i.socketId) ∧
    i.socket.authStatus = .AUTHENTICATED ∧ i.socket.userId ≠ none ∧ i.socket.userId = from_ ∧
    Conveys i.content text

/-- Every text that a socket has been written names the user as whom the socket that it comes from
was authenticated. -/
def Authentic (w : World) : Prop :=
  ∀ c s o, w.connectors c = some s → o ∈ s.outputs → o.type = some .MESSAGE →
    ∃ m f, o.message = some m ∧ o.data = .messageForward f ∧
      D.Sent w f.from_ m.originalAddress f.content

/-- The messages in what a client sends, if any, are its own. -/
def OwnWords (address : Address) (socket : Connector.Socket) (c : MessageContent) : Prop :=
  let own := fun from_ origin (_ : Option String) => from_ = socket.userId ∧ origin = some address
  ∀ m : Message, m.content = some c → m.from_ = socket.userId → m.originalAddress = some address →
    m.Carries (Speaks own) (Again (Tells own))

/-- An event in a run of the connectors and the processors in which clients send only their own
words. -/
def Honest (w : World) : Event → Prop
  | .receive c i content _ => ∀ s socket, w.connectors c = some s → s.openSocket i = some socket →
      OwnWords ((D.config c).address i) socket content
  | .tunnel .. => False
  | _ => True

variable {D}

omit [JavaChar] in
theorem Sent.mono {w w' : World} (h : w.Extends w') {from_ : Option String} {origin : Option Address}
    {text : Option String} (hs : D.Sent w from_ origin text) : D.Sent w' from_ origin text := by
  obtain ⟨i, hi, hrest⟩ := hs
  exact ⟨i, h.inputs i hi, hrest⟩

omit [JavaChar] in
theorem speaks_mono {ok ok' : Option String → Option Address → Option String → Prop}
    (h : ∀ f o t, ok f o t → ok' f o t) (m : Message) (hm : Speaks ok m) : Speaks ok' m :=
  ⟨fun d ht hd => h _ _ _ (hm.1 d ht hd), fun d ht hd => h _ _ _ (hm.2 d ht hd)⟩

omit [JavaChar] in
theorem tells_mono {ok ok' : Option String → Option Address → Option String → Prop}
    (h : ∀ f o t, ok f o t → ok' f o t) (m : Message) (hm : Tells ok m) : Tells ok' m := by
  refine ⟨fun ht => ?_, fun ht g hg => ?_⟩
  · obtain ⟨f, hf, hok⟩ := hm.1 ht
    exact ⟨f, hf, h _ _ _ hok⟩
  · obtain ⟨f, hf, hok⟩ := hm.2 ht g hg
    exact ⟨f, hf, h _ _ _ hok⟩

/-- Texts keep their sender and their origin through every handler of a processor. -/
theorem letterRules_speaks (E : Processor.Environment)
    (ok : Option String → Option Address → Option String → Prop) :
    Processor.LetterRules E (Speaks ok) (Tells ok) fun _ => True where
  processed_congr {m m'} h hm := by
    refine ⟨fun d ht hd => ?_, fun d ht hd => ?_⟩
    · rw [h.from_, h.originalAddress]
      exact hm.1 d (h.type ▸ ht) (h.data ▸ hd)
    · rw [h.from_, h.originalAddress]
      exact hm.2 d (h.type ▸ ht) (h.data ▸ hd)
  delivered_congr {m m'} h hm := by
    refine ⟨fun ht => ?_, fun ht g hg => ?_⟩
    · rw [h.data, h.originalAddress]
      exact hm.1 (h.type ▸ ht)
    · rw [h.originalAddress]
      exact hm.2 (h.type ▸ ht) g (h.data ▸ hg)
  wrapper ht := tells_of_type _ ht (by decide)
  redirect _ hm := hm
  forward {m d} u b hm ht hd := by
    obtain ⟨c, hc, -⟩ := Option.bind_eq_some_iff.1 ht
    have hcontent : (m.setTo u).content ≠ none := by simp [hc]
    have hdata : (Processor.forwarded (m.setTo u) d b).data = .messageForward ⟨m.from_, d.content⟩ :=
      Processor.data_forwarded hcontent d b
    refine ⟨fun _ => ⟨_, hdata, ?_⟩, fun _ g hg => ?_⟩
    · -- the text is still that of its sender
      rw [Processor.originalAddress_forwarded]
      exact hm.1 d ht hd
    · rw [hdata] at hg
      cases hg
  confirmation _ ht := tells_of_type _ ht (by decide)
  close _ _ ht := tells_of_type .CLOSE_CONNECTION ((Processor.type_closing _).trans ht) (by decide)
  auth _ _ _ _ _ := tells_of_type .AUTH_CLIENT_REPLY rfl (by decide)
  call _ _ _ _ := trivial
  groupConnector {m d c users k} name hm ht hd := by
    refine ⟨fun h => ?_, fun _ g hg => ?_⟩
    · cases h
    · cases hg
      exact ⟨_, rfl, hm.2 d ht hd⟩
  groupUser {m d c k} u hm ht hd := by
    refine ⟨fun d' _ hd' => ?_, fun _ h => ?_⟩
    · cases hd'
      exact hm.2 d ht hd
    · cases h
  groupOther {m d c users k} name hm ht hd := by
    refine ⟨fun _ h => ?_, fun d' _ hd' => ?_⟩
    · cases h
    · cases hd'
      exact hm.2 d ht hd
  presence _ ht := by
    rcases ht with ht | ht
    · exact tells_of_type _ ht (by decide)
    · exact tells_of_type _ ht (by decide)
  complete _ := tells_of_type .FETCH_MISSING_MESSAGES_COMPLETE rfl (by decide)
  confirm := speaks_of_type .MESSAGE_CONFIRMATION rfl (by decide)

/-- The policy of a domain whose clients are honest. -/
def speechPolicy (D : Domain) : Policy where
  processor w := Processor.letterPolicy (Speaks (D.Sent w)) (Tells (D.Sent w)) fun _ => True
  connector w _ :=
    { mails := Tells (D.Sent w)
      publishes := MessageOf.Carries (Speaks (D.Sent w)) (Again (Tells (D.Sent w)))
      writes := fun o => o.type = some .MESSAGE → ∃ m f, o.message = some m ∧
        o.data = .messageForward f ∧ D.Sent w f.from_ m.originalAddress f.content
      authorises := fun _ _ => True }
  queued w := MessageOf.Carries (Speaks (D.Sent w)) (Again (Tells (D.Sent w)))

theorem sound_speechPolicy : Sound D (speechPolicy D) where
  processor_mono h :=
    have hs : ∀ f o t, D.Sent _ f o t → D.Sent _ f o t := fun _ _ _ => Sent.mono h
    { mails := tells_mono hs
      keeps := fun m hm st hst h => tells_mono hs m (hm st hst h)
      calls := fun _ h => h
      registers := fun _ h => h }
  connector_mono c h :=
    have hs : ∀ f o t, D.Sent _ f o t → D.Sent _ f o t := fun _ _ _ => Sent.mono h
    { publishes := fun m hm => Data.Carries.mono (speaks_mono hs) (.mono (tells_mono hs)) _ m hm
      writes := fun o ho ht => by
        obtain ⟨m, f, hm, hf, hsent⟩ := ho ht
        exact ⟨m, f, hm, hf, hs _ _ _ hsent⟩
      authorises := fun _ _ h => h }
  queued_mono h hm :=
    have hs : ∀ f o t, D.Sent _ f o t → D.Sent _ f o t := fun _ _ _ => Sent.mono h
    Data.Carries.mono (speaks_mono hs) (.mono (tells_mono hs)) _ _ hm
  processor w := (letterRules_speaks D.env (D.Sent w)).rules
  connector w c :=
    { report := fun k hm _ => (MessageOf.carries_report rfl rfl).2 fun _ => hm
      write := fun {m c i b} hm hc _ _ ht => by
        have htype : m.type = c.type := by rw [MessageOf.type, hc]; rfl
        have hdata : m.data = c.data := by rw [MessageOf.data, hc]; rfl
        obtain ⟨f, hf, hsent⟩ := hm.1 (htype.trans ht)
        exact ⟨m, f, rfl, hdata ▸ hf, hsent⟩
      user := fun {m data users uid c t} k hm hc hmeta ht hd husers huid => by
        have htype : m.type = c.type := by rw [MessageOf.type, hc]; rfl
        obtain ⟨f, hf, hsent⟩ := hm.2 (htype.trans ht) data hd
        have horigin : m.originalAddress = t.originalAddress := by
          rw [MessageOf.originalAddress, hmeta]; rfl
        rw [horigin] at hsent
        refine ⟨fun _ => ⟨f, ?_, hsent⟩, fun h => (by cases h)⟩
        simp [Connector.GroupConnectorMessageProcessor.userMessage, MessageOf.data,
          createMessageContent, hf]
      authorise := fun _ _ _ _ _ _ => trivial
      connected := fun k _ _ => (MessageOf.carries_plain (by simp [MessageOf.type,
        Connector.AuthClientReplyMessageProcessor.userConnectedMessage, createMessageContent])
        (by simp [MessageOf.type, createMessageContent,
          Connector.AuthClientReplyMessageProcessor.userConnectedMessage])).2
        (speaks_of_type .USER_CONNECTED rfl (by decide)) }
  published h := h
  consumed h _ := h
  routed h := h.mails
  answers w c i o _ ht h := by
    rcases ht with ht | ht
    · cases ht.symm.trans h
    · cases ht.symm.trans h
  disconnected w c i n socket := (MessageOf.carries_plain (by simp [MessageOf.type,
      Connector.disconnectedMessage, createMessageContent])
    (by simp [MessageOf.type, createMessageContent, Connector.disconnectedMessage])).2
    (speaks_of_type .USER_DISCONNECTED rfl (by decide))

omit [JavaChar] in
/-- What an authenticated client sends speaks for its user, given that what nests in it does. -/
theorem carries_clientMessage {w : World} {c : String} {i : ℤ} {socket : Connector.Socket}
    {content : MessageContent} (n : ℕ)
    (hin : (⟨c, i, socket, content⟩ : Input) ∈ w.inputs) (hauth : socket.authStatus = .AUTHENTICATED)
    (huser : socket.userId ≠ none) (hown : OwnWords ((D.config c).address i) socket content) :
    (Connector.clientMessage (D.config c) ((D.config c).blank n) i socket content).Carries
      (Speaks (D.Sent w)) (Again (Tells (D.Sent w))) := by
  have hsent : ∀ t, Conveys content t →
      D.Sent w socket.userId (some ((D.config c).address i)) t := fun t ht =>
    ⟨_, hin, rfl, hauth, huser, rfl, ht⟩
  by_cases hm : content.type = some .MESSAGE ∨ content.type = some .GROUP_MESSAGE
  · refine (MessageOf.carries_plain ?_ ?_).2 ⟨fun d ht hd => ?_, fun d ht hd => ?_⟩
    · rcases hm with h | h <;> simp [MessageOf.type, Connector.clientMessage, h]
    · rcases hm with h | h <;> simp [MessageOf.type, Connector.clientMessage, h]
    · have ht' : content.type = some .MESSAGE := ht
      have hd' : content.data = .messageRequest d := hd
      refine hsent _ ⟨fun d₁ _ h => ?_, fun _ h => ?_⟩
      · cases hd'.symm.trans h
        rfl
      · cases ht'.symm.trans h
    · have ht' : content.type = some .GROUP_MESSAGE := ht
      have hd' : content.data = .groupMessage d := hd
      refine hsent _ ⟨fun _ h => ?_, fun d₁ _ h => ?_⟩
      · cases ht'.symm.trans h
      · cases hd'.symm.trans h
        rfl
  -- of the other types only what nests in the message has a text
  · have hown' : ∀ f o t, f = socket.userId ∧ o = some ((D.config c).address i) →
        D.Sent w f o t := by
      rintro f o t ⟨rfl, rfl⟩
      exact hsent t ⟨fun _ h => absurd (.inl h) hm, fun _ h => absurd (.inr h) hm⟩
    exact Data.Carries.mono (speaks_mono hown') (.mono (tells_mono hown')) _ _
      (hown _ rfl rfl rfl)

omit [JavaChar] in
/-- A client that is not heard as anyone only asks to be authenticated or takes its leave. -/
theorem carries_of_type {ok : Option String → Option Address → Option String → Prop} {m : Message}
    (ty : MessageType) (ht : m.type = some ty)
    (hne : ty ∉ [.MESSAGE, .GROUP_MESSAGE, .INTERNAL_MESSAGE, .MESSAGE_STATE_CHANGED]) :
    m.Carries (Speaks ok) (Again (Tells ok)) := by
  simp only [List.mem_cons, List.not_mem_nil, or_false, not_or] at hne
  refine (MessageOf.carries_plain ?_ ?_).2 (speaks_of_type _ ht ⟨hne.1, hne.2.1⟩)
  · simpa [ht] using hne.2.2.1
  · simpa [ht] using hne.2.2.2

theorem complies_of_honest {w w' : World} {e : Event} (hw : Complies D (speechPolicy D) w)
    (hok : D.Honest w e) (h : D.step w e = some w') : Complies D (speechPolicy D) w' := by
  have hP : Sound D (speechPolicy D) := sound_speechPolicy
  cases e with
  | connect c => exact complies_connect hP hw h
  | disconnect c i futures => exact complies_disconnect hP hw h
  | handOut k futures =>
    refine complies_handOut hP hw h fun p s hp _ _ _ _ n => (MessageOf.carries_report rfl rfl).2 ?_
    exact fun _ => (hw.processor.parcels p (List.mem_of_getElem? hp)).mails
  | refuse k => exact complies_refuse hP hw h
  | tunnel data draws => exact hok.elim
  | receive c i content futures =>
    refine complies_receive hP hw h fun s socket hs hsocket => ⟨fun n d _ ht _ => ?_, fun n ht => ?_, ?_⟩
    · refine carries_of_type .AUTH_CLIENT ?_ (by decide)
      simpa [MessageOf.type, Connector.AuthClientMessageProcessor.request, MessageOf.updateContent,
        MessageOf.updateMeta, Connector.clientMessage] using ht
    · exact carries_of_type .USER_DISCONNECTED ht (by decide)
    · intro n hauth _
      have hsock : s.sockets i = some socket := (Option.filter_eq_some_iff.1 hsocket).1
      obtain ⟨u, hu, -⟩ := (hw.connectors c s hs).authenticated i socket hsock hauth
      have huser : socket.userId ≠ none := by simp [hu]
      exact carries_clientMessage n (List.mem_append_right _ (List.mem_singleton_self _)) hauth huser
        (hok s socket hs hsocket)
  | dispatch k draws =>
    refine complies_dispatch hP hw h fun m _ _ _ e _ _ st hmem hst => ?_
    cases hst
    exact absurd hmem (by decide)
  | respond k outcome draws =>
    refine complies_respond hP hw h fun _ _ _ _ a n reply _ _ => ?_
    exact tells_of_type .AUTH_CLIENT_REPLY rfl (by decide)

/-- **Sender authenticity.**  With clients that send only their own words, every text a socket is
written comes from the user that it names. -/
theorem authentic_of_honest {w₀ w : World} (h₀ : Initial w₀)
    (h : D.system.Reaches D.Honest w₀ w) : D.Authentic w := by
  have hw : Complies D (speechPolicy D) w :=
    h.invariant (I := Complies D (speechPolicy D)) (complies_initial h₀)
      fun _ _ _ hI hok hst => complies_of_honest hI hok hst
  intro c s o hs ho ht
  exact (hw.connectors c s hs).outputs o ho ht

omit [JavaChar] in
/-- Only wrappers and reports can have the words of others in them. -/
theorem honest_of_isPlain {e : Event} (h : e.isPlain = true) (w : World) : D.Honest w e := by
  cases e with
  | receive c i content futures =>
    simp only [Event.isPlain, Bool.and_eq_true, decide_eq_true_eq] at h
    intro s socket _ _ m hm hfrom horigin
    have ht : m.type = content.type := by rw [MessageOf.type, hm]; rfl
    refine (MessageOf.carries_plain (ht ▸ h.1) (ht ▸ h.2)).2 ⟨fun _ _ _ => ?_, fun _ _ _ => ?_⟩
    · exact ⟨hfrom, horigin⟩
    · exact ⟨hfrom, horigin⟩
  | tunnel => cases h
  | _ => trivial

end Domain

/-! ### Runs of a small domain -/

section

open Sample

attribute [local instance] JavaChar.ascii

namespace Sample

/-- A message in the name of `APP-7`, who has never been connected. -/
def words : Message where
  id := some "forged"
  version := none
  content := some (textTo "APP-6" "hello")
  from_ := some "APP-7"
  to_ := none
  meta_ := some {}
  createdAt := 0
  state := some .CREATED

/-- `APP-5` sends `content`, and `APP-6` receives what comes of it. -/
def exchange (content : MessageContent) : List Event :=
  arrival 1 "APP-5" ++ arrival 2 "APP-6" ++
    [.receive connectorName 1 content [], .dispatch 0 {}, .handOut 0 []]

/-- The texts written to sockets. -/
def forwards (w : World) : List (Option MessageForward) :=
  (((w.connectors connectorName).elim [] (·.outputs)).filter fun o => o.type = some .MESSAGE).map
    (·.data.messageForward?)

theorem mem_forwards {w : World} {f : MessageForward} (h : some f ∈ forwards w) :
    ∃ s o, w.connectors connectorName = some s ∧ o ∈ s.outputs ∧ o.type = some .MESSAGE ∧
      o.data = .messageForward f := by
  obtain ⟨o, ho, hf⟩ := List.mem_map.1 h
  obtain ⟨ho, ht⟩ := List.mem_filter.1 ho
  rcases hs : w.connectors connectorName with _ | s
  · rw [hs] at ho
    cases ho
  · rw [hs] at ho
    exact ⟨s, o, rfl, ho, by simpa using ht, Data.messageForward?_eq_some.1 hf⟩

end Sample

namespace Domain

/-- A run of honest clients, in which a text arrives. -/
theorem authentic_exchange :
    ∃ w, domain.system.run start (exchange (textTo "APP-6" "hello")) = some w ∧
      some ⟨some "APP-5", some "hello"⟩ ∈ forwards w ∧ domain.Authentic w := by
  have hrun : ((domain.system.run start (exchange (textTo "APP-6" "hello"))).map forwards) =
      some [some ⟨some "APP-5", some "hello"⟩] := by decide +kernel
  obtain ⟨w, hw, hforwards⟩ := Option.map_eq_some_iff.1 hrun
  refine ⟨w, hw, by simp [hforwards], authentic_of_honest initial_start ?_⟩
  have hplain : ∀ e ∈ exchange (textTo "APP-6" "hello"), e.isPlain = true := by decide
  exact System.reaches_of_run hw fun e he t => honest_of_isPlain (hplain e he) t

/-- **A forgery.**  A client can have a text delivered in the name of a user who has never been
there. -/
theorem forged : Initial start ∧
    ∃ w, domain.system.Reaches (fun _ e => e.isTunnel = false) start w ∧ ¬ domain.Authentic w := by
  have hrun : ((domain.system.run start
      (exchange { type := some .INTERNAL_MESSAGE, data := .message words })).map fun w =>
        (forwards w, w.inputs.map (·.socket.userId))) =
      some ([some ⟨some "APP-7", some "hello"⟩], [none, none, some "APP-5"]) := by decide +kernel
  obtain ⟨w, hw, hend⟩ := Option.map_eq_some_iff.1 hrun
  obtain ⟨hforwards, hinputs⟩ := Prod.mk.inj hend
  have htunnel : ∀ e ∈ exchange { type := some .INTERNAL_MESSAGE, data := .message words },
      e.isTunnel = false := by decide
  refine ⟨initial_start, w, System.reaches_of_run hw fun e he _ => htunnel e he, fun hauth => ?_⟩
  have hmem : some ⟨some "APP-7", some "hello"⟩ ∈ forwards w := by
    rw [hforwards]
    exact List.mem_singleton_self _
  obtain ⟨s, o, hs, ho, ht, hd⟩ := mem_forwards hmem
  obtain ⟨m, f, -, hf, i, hi, -, -, -, huser, -⟩ := hauth _ s o hs ho ht
  cases hd.symm.trans hf
  have hnobody : i.socket.userId ∈ w.inputs.map (·.socket.userId) := List.mem_map_of_mem hi
  rw [hinputs, huser] at hnobody
  exact absurd hnobody (by decide)

end Domain

end

end Linker
