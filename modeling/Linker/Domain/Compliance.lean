import Linker.Connector.Rules
import Linker.Domain.World
import Linker.Processor.Processing

/-!
# Policies of a domain

A policy of a domain gives its processors and each of its connectors a policy, which may speak of the
history of the domain (what clients have sent, which records processors have consumed, how endpoints
have answered).  Where the parts keep to their policies and fit together, so does the domain.

## Main definitions

* `Domain.Policy` : the policies of the parts, growing with the history.
* `Domain.Sound` : the parts meet their rules and fit together.
* `Domain.Complies` : everything stored and in flight is as the policy says.

## Main results

* `Domain.complies_connect`, `Domain.complies_receive`, … : every event keeps the policy, given what
  it brings from outside.
-/

namespace Linker

/-- The history of a domain has grown from `w` to `w'`. -/
structure World.Extends (w w' : World) : Prop where
  inputs : ∀ i ∈ w.inputs, i ∈ w'.inputs
  dispatched : ∀ m ∈ w.dispatched, m ∈ w'.dispatched
  responses : ∀ r ∈ w.responses, r ∈ w'.responses

theorem World.Extends.refl (w : World) : w.Extends w := ⟨fun _ h => h, fun _ h => h, fun _ h => h⟩

namespace Processor

/-- A policy that allows at least as much. -/
structure Policy.Le (P P' : Policy) : Prop where
  mails : ∀ m, P.mails m → P'.mails m
  keeps : ∀ m, P.keeps m → P'.keeps m
  calls : ∀ c, P.calls c → P'.calls c
  registers : ∀ a, P.registers a → P'.registers a

theorem Meets.mono [JavaChar] {E : Environment} {P P' : Policy} {s : State} (hs : Meets E P s)
    (h : P.Le P') : Meets E P' s where
  parcels p hp := by
    obtain ⟨hm, a, ha, htarget, hroute⟩ := hs.parcels p hp
    refine ⟨h.mails _ hm, a, ha, htarget, ?_⟩
    split_ifs at hroute ⊢
    · exact hroute
    · exact h.registers _ hroute
  messages m hm := h.keeps m (hs.messages m hm)
  saved m hm := h.keeps m (hs.saved m hm)
  httpCalls c hc := h.calls c (hs.httpCalls c hc)
  channels u l hl a ha := h.registers a (hs.channels u l hl a ha)

theorem Meets.drawing [JavaChar] {E : Environment} {P : Policy} {s : State} (hs : Meets E P s)
    (d : Draws) : Meets E P (s.drawing d) := { hs with }

/-- Nothing is stored and nothing is under way. -/
theorem meets_initial [JavaChar] {E : Environment} (P : Policy) : Meets E P {} where
  parcels p hp := by cases hp
  messages m hm := by cases hm
  saved m hm := by cases hm
  httpCalls c hc := by cases hc
  channels u l hl := by cases hl

end Processor

namespace Connector

/-- A policy that allows at least as much. -/
structure Policy.Le (P P' : Policy) : Prop where
  publishes : ∀ m, P.publishes m → P'.publishes m
  writes : ∀ o, P.writes o → P'.writes o
  authorises : ∀ i u, P.authorises i u → P'.authorises i u

theorem Meets.mono {P P' : Policy} {s : State} (hs : Meets P s) (h : P.Le P') : Meets P' s :=
  { hs with
    published := fun m hm => h.publishes m (hs.published m hm)
    outputs := fun o ho => h.writes o (hs.outputs o ho)
    authenticated := fun i k hk hst =>
      (hs.authenticated i k hk hst).imp fun u hu => ⟨hu.1, h.authorises i u hu.2⟩ }

theorem Meets.expecting {P : Policy} {s : State} (hs : Meets P s) (futures : List Bool) :
    Meets P (s.expecting futures) := { hs with }

/-- Nothing has been written or published yet, and nobody is connected. -/
theorem meets_initial (P : Policy) : Meets P {} where
  published m hm := by cases hm
  outputs o ho := by cases ho
  pending u i hi := by cases hi
  authenticated i k hk := by cases hk
  fresh i _ := rfl

end Connector

namespace Domain

/-- The policies of the parts of a domain, given its history. -/
structure Policy where
  processor : World → Processor.Policy
  connector : World → String → Connector.Policy
  /-- Records of the topic of the processors. -/
  queued : World → Message → Prop

variable [JavaChar]

/-- The parts meet their rules, and what one of them sends out another accepts. -/
structure Sound (D : Domain) (P : Policy) : Prop where
  processor_mono : ∀ {w w'}, w.Extends w' → (P.processor w).Le (P.processor w')
  connector_mono : ∀ {w w'} c, w.Extends w' → (P.connector w c).Le (P.connector w' c)
  queued_mono : ∀ {w w' m}, w.Extends w' → P.queued w m → P.queued w' m
  processor : ∀ w, Processor.Rules D.env (P.processor w)
  connector : ∀ w c, Connector.Rules (D.config c) (P.connector w c)
  published : ∀ {w c m}, (P.connector w c).publishes m → P.queued w m
  consumed : ∀ {w m}, P.queued w m → m ∈ w.dispatched → (P.processor w).accepts m
  routed : ∀ {w p}, Processor.Routed D.env (P.processor w) p →
    (P.connector w p.target).mails p.message
  answers : ∀ w c i, Connector.Answers (P.connector w c) i
  disconnected : ∀ w c i n socket, (P.connector w c).publishes
    (Connector.disconnectedMessage (D.config c) ((D.config c).blank n) i socket)

/-- Everything stored and in flight is as the policy says. -/
structure Complies (D : Domain) (P : Policy) (w : World) : Prop where
  processor : Processor.Meets D.env (P.processor w) w.processor
  connectors : ∀ c s, w.connectors c = some s → Connector.Meets (P.connector w c) s
  incoming : ∀ m ∈ w.incoming, P.queued w m

/-- The start of a domain: nothing is stored and nobody is connected. -/
structure Initial (w : World) : Prop where
  processor : w.processor = {}
  connectors : ∀ c s, w.connectors c = some s → s = {}
  incoming : w.incoming = []

variable {D : Domain} {P : Policy} {w : World}

theorem complies_initial (h : Initial w) : Complies D P w where
  processor := h.processor ▸ Processor.meets_initial _
  connectors c s hs := h.connectors c s hs ▸ Connector.meets_initial _
  incoming m hm := by
    rw [h.incoming] at hm
    cases hm

/-- Records that are taken off their topic, and events that are noted down. -/
theorem Complies.extend (hP : Sound D P) (hw : Complies D P w) {v : World} (hext : w.Extends v)
    (hproc : v.processor = { w.processor with
      parcels := v.processor.parcels, httpCalls := v.processor.httpCalls })
    (hparcels : ∀ p ∈ v.processor.parcels, p ∈ w.processor.parcels)
    (hcalls : ∀ c ∈ v.processor.httpCalls, c ∈ w.processor.httpCalls)
    (hconn : v.connectors = w.connectors) (hinc : ∀ m ∈ v.incoming, m ∈ w.incoming) :
    Complies D P v where
  processor := by
    have hle := hP.processor_mono hext
    have hs := hw.processor.mono hle
    rw [hproc]
    exact { hs with
      parcels := fun p hp => hs.parcels p (hparcels p hp)
      httpCalls := fun c hc => hs.httpCalls c (hcalls c hc) }
  connectors c s h := (hw.connectors c s (hconn ▸ h)).mono (hP.connector_mono c hext)
  incoming m hm := hP.queued_mono hext (hw.incoming m (hinc m hm))

/-- A computation of a connector that keeps to its policy. -/
theorem Complies.atConnector (hP : Sound D P) (hw : Complies D P w) {c : String}
    {s : Connector.State} {x : Connector.Conn Unit}
    (hx : Connector.Meets (P.connector w c) (x.run s).2) : Complies D P (w.atConnector c s x) := by
  have hext : w.Extends (w.atConnector c s x) := ⟨fun _ h => h, fun _ h => h, fun _ h => h⟩
  refine ⟨hw.processor.mono (hP.processor_mono hext), fun c' s' h => ?_, fun m hm => ?_⟩
  · simp only [World.atConnector] at h
    split_ifs at h with hc
    · cases h
      subst hc
      exact { hx.mono (hP.connector_mono _ hext) with published := fun m hm => by cases hm }
    · exact (hw.connectors c' s' h).mono (hP.connector_mono c' hext)
  · rcases List.mem_append.1 hm with hm | hm
    · exact hP.queued_mono hext (hw.incoming m hm)
    · exact hP.queued_mono hext (hP.published (hx.published m hm))

/-- A computation of the processors that keeps to their policy. -/
theorem Complies.atProcessor (hP : Sound D P) (hw : Complies D P w) {x : Processor.Proc Unit}
    {d : Processor.Draws}
    (hx : Processor.Meets D.env (P.processor w) (x.run (w.processor.drawing d)).2) :
    Complies D P (w.atProcessor x d) := by
  have hext : w.Extends (w.atProcessor x d) := ⟨fun _ h => h, fun _ h => h, fun _ h => h⟩
  have hmono := hP.processor_mono hext
  refine ⟨hx.mono hmono, fun c s h => ?_, fun m hm => ?_⟩
  · exact (hw.connectors c s h).mono (hP.connector_mono c hext)
  · exact hP.queued_mono hext (hw.incoming m hm)

theorem Complies.after (hw : Complies D P w) {x : Processor.Proc Unit}
    (hx : Exec.Keeps (Processor.Meets D.env (P.processor w)) x fun _ => True) (d : Processor.Draws) :
    Processor.Meets D.env (P.processor w) (x.run (w.processor.drawing d)).2 :=
  hx.run (hw.processor.drawing d)

/-! ### The events -/

theorem complies_connect (hP : Sound D P) (hw : Complies D P w) {c : String} {w' : World}
    (h : D.step w (.connect c) = some w') : Complies D P w' := by
  obtain ⟨s, hs, rfl⟩ := step_connect h
  exact hw.atConnector hP (Connector.meets_initChannel (hw.connectors c s hs))

theorem complies_disconnect (hP : Sound D P) (hw : Complies D P w) {c : String} {i : ℤ}
    {futures : List Bool} {w' : World} (h : D.step w (.disconnect c i futures) = some w') :
    Complies D P w' := by
  obtain ⟨s, socket, hs, -, rfl⟩ := step_disconnect h
  exact hw.atConnector hP (Connector.meets_handlerRemoved (hw.connectors c s hs)
    (hP.answers w c i) fun n _ => hP.disconnected w c i n socket)

/-- What a connector reports when its handler throws may be published. -/
def Reports (D : Domain) (P : Policy) (w : World) (c : String) (m : Message) (s : Connector.State) :
    Prop :=
  ∀ e, ((Connector.processOutgoingMessage (D.config c) m).run s).1 = .error e →
    m.feature = some .RELIABLE → ∀ k, (P.connector w c).publishes
      (Connector.PostOffice.stateChangedMessage (D.config c) ((D.config c).blank k) m .CONNECTOR_ERROR)

theorem complies_handOut (hP : Sound D P) (hw : Complies D P w) {k : ℕ} {futures : List Bool}
    {w' : World} (h : D.step w (.handOut k futures) = some w')
    (herr : ∀ p s, w.processor.parcels[k]? = some p → w.connectors p.target = some s →
      Reports D P w p.target p.message (s.expecting futures)) : Complies D P w' := by
  obtain ⟨p, s, hp, hs, rfl⟩ := step_handOut h
  have hext : w.Extends { w with
      processor := { w.processor with parcels := w.processor.parcels.eraseIdx k } } :=
    ⟨fun _ h => h, fun _ h => h, fun _ h => h⟩
  have hw' := hw.extend hP hext rfl (fun _ h => List.mem_of_mem_eraseIdx h) (fun _ h => h) rfl
    fun _ h => h
  refine hw'.atConnector hP (Connector.meets_onMessageArrived (hP.connector _ _)
    ((hw'.connectors _ s hs).expecting futures) ?_ fun e he hf n =>
      (hP.connector_mono _ hext).publishes _ (herr p s hp hs e he hf n))
  obtain ⟨hm, a, ha, htarget, hroute⟩ := hw.processor.parcels p (List.mem_of_getElem? hp)
  refine hP.routed ⟨(hP.processor_mono hext).mails _ hm, a, ha, htarget, ?_⟩
  split_ifs at hroute ⊢
  · exact hroute
  · exact (hP.processor_mono hext).registers _ hroute

theorem complies_refuse (hP : Sound D P) (hw : Complies D P w) {k : ℕ} {w' : World}
    (h : D.step w (.refuse k) = some w') : Complies D P w' := by
  obtain ⟨p, hp, rfl⟩ := step_refuse h
  have hext : w.Extends { w with
      processor := { w.processor with parcels := w.processor.parcels.eraseIdx k } } :=
    ⟨fun _ h => h, fun _ h => h, fun _ h => h⟩
  have hw' := hw.extend hP hext rfl (fun _ h => List.mem_of_mem_eraseIdx h) (fun _ h => h) rfl
    fun _ h => h
  refine hw'.atProcessor hP (hw'.after ?_ _)
  exact Processor.Rules.keeps_onMessageDeliveryFailed (hP.processor _)
    ((hP.processor_mono hext).mails _ (hw.processor.parcels p (List.mem_of_getElem? hp)).mails)

/-- A message of a client, where the policy allows what the connector publishes for it. -/
theorem complies_receive (hP : Sound D P) (hw : Complies D P w) {c : String} {i : ℤ}
    {content : MessageContent} {futures : List Bool} {w' : World}
    (h : D.step w (.receive c i content futures) = some w')
    (hrec : ∀ s socket, w.connectors c = some s → s.openSocket i = some socket →
      Connector.Receives (D.config c)
        (P.connector { w with inputs := w.inputs ++ [⟨c, i, socket, content⟩] } c)
        i socket content) : Complies D P w' := by
  obtain ⟨s, socket, hs, hsocket, rfl⟩ := step_receive h
  have hw₁ := hw.extend hP (v := { w with inputs := w.inputs ++ [⟨c, i, socket, content⟩] })
    ⟨fun _ h => List.mem_append_left _ h, fun _ h => h, fun _ h => h⟩ rfl (fun _ h => h)
    (fun _ h => h) rfl fun _ h => h
  have hsock : s.sockets i = some socket := (Option.filter_eq_some_iff.1 hsocket).1
  exact hw₁.atConnector hP (Connector.meets_channelRead0 (hw₁.connectors c s hs) hsock
    (hP.answers _ c i) (hrec s socket hs hsocket))

/-- The answer of an endpoint, where the policy allows the replies it leads to. -/
theorem complies_respond (hP : Sound D P) (hw : Complies D P w) {k : ℕ}
    {outcome : Processor.HttpOutcome} {d : Processor.Draws} {w' : World}
    (h : D.step w (.respond k outcome d) = some w')
    (hreply : ∀ w₁ (call : Processor.HttpCall), (P.processor w₁).calls call →
      (call, outcome) ∈ w₁.responses → ∀ a n reply, call.message.originalAddress = some a →
      reply = ⟨call.data.appId, call.data.userId, some false⟩ ∨
        (∃ status, outcome = .response status (some (some reply))) ∧
          call.data.appId = reply.appId ∧ call.data.userId = reply.userId →
      (P.processor w₁).delivers (Processor.AuthClientMessageProcessor.replyMessage D.env
        (D.env.blank n) a.connectorName call.message.note reply)) : Complies D P w' := by
  obtain ⟨call, hcall, rfl⟩ := step_respond h
  have hext : w.Extends { w with
      processor := { w.processor with httpCalls := w.processor.httpCalls.eraseIdx k }
      responses := w.responses ++ [(call, outcome)] } :=
    ⟨fun _ h => h, fun _ h => h, fun _ h => List.mem_append_left _ h⟩
  have hw' := hw.extend hP hext rfl (fun _ h => h) (fun _ h => List.mem_of_mem_eraseIdx h) rfl
    fun _ h => h
  refine hw'.atProcessor hP (hw'.after (Processor.Rules.keeps_complete (hP.processor _)
    fun a n reply => ?_) _)
  refine hreply _ call ((hP.processor_mono hext).calls _ ?_) ?_ a n reply
  · exact hw.processor.httpCalls call (List.mem_of_getElem? hcall)
  · exact List.mem_append_right _ (List.mem_singleton_self _)

/-- The record that a processor consumes is accepted, and consuming it is noted down. -/
theorem complies_consumed (hP : Sound D P) (hw : Complies D P w) {k : ℕ} {m : Message}
    (hm : w.incoming[k]? = some m) {w₁ : World}
    (h₁ : w₁ = { w with
      incoming := w.incoming.eraseIdx k, dispatched := w.dispatched ++ [m] }) :
    Complies D P w₁ ∧ (P.processor w₁).accepts m := by
  subst h₁
  have hext : w.Extends { w with
      incoming := w.incoming.eraseIdx k, dispatched := w.dispatched ++ [m] } :=
    ⟨fun _ h => h, fun _ h => List.mem_append_left _ h, fun _ h => h⟩
  refine ⟨hw.extend hP hext rfl (fun _ h => h) (fun _ h => h) rfl
    fun _ h => List.mem_of_mem_eraseIdx h, ?_⟩
  refine hP.consumed (hP.queued_mono hext (hw.incoming m (List.mem_of_getElem? hm))) ?_
  exact List.mem_append_right _ (List.mem_singleton_self m)

/-- What is thrown while the processors work on a message may be stored. -/
def Survives (D : Domain) (P : Policy) (m : Message) (w : World) (d : Processor.Draws) : Prop :=
  ∀ e, ((Processor.MessageProcessorService.process D.env m).run (w.processor.drawing d)).1 = .error e →
    e.message.feature = some .RELIABLE →
    (P.processor w).keeps (e.message.setState (some .PROCESSOR_ERROR))

theorem complies_dispatch (hP : Sound D P) (hw : Complies D P w) {k : ℕ} {d : Processor.Draws}
    {w' : World} (h : D.step w (.dispatch k d) = some w')
    (herr : ∀ m w₁, w.incoming[k]? = some m → w₁ = { w with
      incoming := w.incoming.eraseIdx k, dispatched := w.dispatched ++ [m] } →
      Survives D P m w₁ d) : Complies D P w' := by
  obtain ⟨m, hm, hw'⟩ := step_dispatch h
  generalize h₁ : ({ w with incoming := w.incoming.eraseIdx k, dispatched := w.dispatched ++ [m] } :
    World) = w₁ at hw'
  obtain ⟨hw₁, hacc⟩ := complies_consumed hP hw hm h₁.symm
  subst hw'
  exact hw₁.atProcessor hP (Processor.Rules.meets_onRecordArrived (hP.processor w₁)
    (hw₁.processor.drawing d) hacc (herr m w₁ hm h₁.symm))

/-- A message that a tunnel brings, where the policy allows its wrapper. -/
theorem complies_tunnel (hP : Sound D P) (hw : Complies D P w) {data : Data} {d : Processor.Draws}
    {w' : World} (h : D.step w (.tunnel data d) = some w')
    (hdata : ∀ i t c, data = .message i → i.meta_ = some t → i.content = some c →
      let m := Processor.DomainService.msgWrapper (D.env.blank (w.processor.drawing d).serial) i
        (some .INTERNAL_MESSAGE) data t c
      (P.processor w).accepts m ∧
      ∀ e, ((Processor.MessageProcessorService.process D.env m).run
          (w.processor.drawing d).next).1 = .error e →
        e.message.feature = some .RELIABLE →
        (P.processor w).keeps (e.message.setState (some .PROCESSOR_ERROR))) :
    Complies D P w' := by
  rw [step_tunnel h]
  exact hw.atProcessor hP (Processor.Rules.meets_handleInternalMessage (hP.processor w)
    (hw.processor.drawing d) hdata)

omit [JavaChar] in
theorem initial_start : Initial Sample.start where
  processor := rfl
  connectors c s h := by
    simp only [Sample.start] at h
    split_ifs at h
    exact (Option.some.inj h).symm
  incoming := rfl

end Domain

end Linker
