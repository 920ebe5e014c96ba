import Linker.Domain.Persistence
import Linker.Processor.Border

/-!
# Only internal messages leave a domain

In a run where every tunnel brings a message that is `Welcome`, all that the processors are given to
deliver is for the domain or is a wrapper, so `assertInternalMessage` does not throw: not on what
clients send, not on what connectors report, and not on what is delivered again.

A tunnel may also bring a request of a user of another domain to fetch its missing messages.  Its
completion is given to the post office unwrapped.

## Main results

* `Domain.not_breaches` : no step of such a run has `assertInternalMessage` throw.
* `Domain.breaches_stray` : the request from another domain has it throw.
-/

namespace Linker.Domain

open Processor (Enclosed Inbound LivesHere HomeAddress Welcome AnsweredHere Redeliverable Lawful)

variable [JavaChar] (D : Domain)

/-- The connectors are not named like the users of an app. -/
def NamesApart (w : World) : Prop :=
  ∀ c s, w.connectors c = some s → Processor.ClientAppService.getClientAppByUserId D.env (some c) = none

/-- Clients send none of the messages that have another in them, and those who are authenticated live
in the domain. -/
def Fed (w : World) : Event → Prop
  | .receive c i content _ =>
    content.type ≠ some .INTERNAL_MESSAGE ∧ content.type ≠ some .MESSAGE_STATE_CHANGED ∧
      ∀ s socket, w.connectors c = some s → s.openSocket i = some socket →
        socket.authStatus = .AUTHENTICATED → LivesHere D.env socket.userId
  | _ => True

/-- A tunnel brings a message that is welcome where it is unwrapped. -/
def Courteous (w : World) (e : Event) : Prop :=
  D.Fed w e ∧ ∀ data draws i, e = .tunnel data draws → data = .message i → LivesHere D.env i.to_ →
    Welcome D.env i

open Processor in
/-- `assertInternalMessage` throws in a computation of the processors for the event. -/
def Breaches (w : World) : Event → Prop
  | .dispatch k draws => ∃ m, w.incoming[k]? = some m ∧
      Asserts (MessageProcessorService.process D.env m) (w.processor.drawing draws)
  | .tunnel data draws => ∃ i t c, data = .message i ∧ i.meta_ = some t ∧ i.content = some c ∧
      Asserts (MessageProcessorService.process D.env (DomainService.msgWrapper
          (D.env.blank (w.processor.drawing draws).serial) i (some .INTERNAL_MESSAGE) data t c))
        (w.processor.drawing draws).next
  | .respond k outcome draws => ∃ call, w.processor.httpCalls[k]? = some call ∧
      call.Asserts D.env outcome
        (({ w.processor with httpCalls := w.processor.httpCalls.eraseIdx k } : State).drawing draws)
  | _ => False

/-- What a connector finds on its topic is on its way to an address of the domain, and what it
publishes is welcome. -/
def borderPolicy : Connector.Policy where
  mails := Inbound D.env
  publishes := Welcome D.env
  writes _ := True
  authorises _ _ := True

/-- Nothing stored or in flight makes the processors send another message out than a wrapper. -/
structure Guarded (w : World) : Prop where
  processor : Enclosed D.env w.processor
  connectors : ∀ c s, w.connectors c = some s →
    LivesHere D.env (some c) ∧ Connector.Meets (borderPolicy D) s
  incoming : ∀ m ∈ w.incoming, Welcome D.env m

variable {D} {w w' : World}

/-! ### Connectors -/

theorem livesHere_of_apart {c : String}
    (h : Processor.ClientAppService.getClientAppByUserId D.env (some c) = none) :
    LivesHere D.env (some c) := by
  refine .inr ?_
  rw [Processor.ClientAppService.resolveDomain, h]
  exact equalsIgnoreCase_refl _

/-- A connector reports on messages on their way to its own sockets. -/
theorem welcome_report {C : Connector.Config} {b m : Message} {st : MessageState}
    (hm : Inbound D.env m) :
    Welcome D.env (Connector.PostOffice.stateChangedMessage C b m st) := by
  refine .report rfl fun msg st' hd _ => ?_
  cases hd
  exact ⟨fun _ => .inl hm.isLocal, fun _ _ => .inl hm.isLocal⟩

theorem borderRules {c : String} (hc : LivesHere D.env (some c)) :
    Connector.Rules (D.config c) (borderPolicy D) where
  report _ hm _ := welcome_report hm
  write _ _ _ _ := trivial
  user _ _ _ _ _ _ _ _ := ⟨_, rfl, equalsIgnoreCase_refl _⟩
  authorise _ _ _ _ _ _ := trivial
  connected {m u i f} k _ _ := by
    refine AnsweredHere.welcome .USER_CONNECTED
      ⟨fun h => ?_, fun h => ?_, fun _ _ _ _ v _ a ha => ?_⟩ rfl (by decide)
    · cases h
    · cases h
    · cases ha
      exact ⟨equalsIgnoreCase_refl _, hc⟩

/-- What a client sends is welcome. -/
theorem receives_of_fed {c : String} {i : ℤ} {socket : Connector.Socket} {content : MessageContent}
    (hc : LivesHere D.env (some c)) (hinner : content.type ≠ some .INTERNAL_MESSAGE)
    (hreport : content.type ≠ some .MESSAGE_STATE_CHANGED)
    (huser : socket.authStatus = .AUTHENTICATED → LivesHere D.env socket.userId) :
    Connector.Receives (D.config c) (borderPolicy D) i socket content where
  auth n d _ ht _ := by
    refine AnsweredHere.welcome .AUTH_CLIENT
      ⟨fun h => ?_, fun _ _ _ _ a ha => ?_, fun h => ?_⟩ ht (by decide)
    · exact absurd (ht.symm.trans h) (by decide)
    · cases ha
      exact hc
    · exact absurd (ht.symm.trans h) (by decide)
  disconnected n ht := Processor.welcome_of_type .USER_DISCONNECTED ht (by decide)
  other n hst _ := by
    refine .other hinner hreport ⟨fun _ _ _ _ _ => ?_, fun _ _ _ _ a ha => ?_, fun _ _ h => ?_⟩
    · -- the completion of a fetch goes to the user of the socket
      exact (Processor.isLocal_iff_livesHere rfl).2 (huser hst)
    · cases ha
      exact hc
    · -- what a client sends is not addressed to the processors
      cases h

/-! ### Steps -/

theorem Guarded.atConnector (hw : Guarded D w) {c : String} {s : Connector.State}
    {x : Connector.Conn Unit} (hc : LivesHere D.env (some c))
    (hx : Connector.Meets (borderPolicy D) (x.run s).2) : Guarded D (w.atConnector c s x) where
  processor := hw.processor
  connectors c' s' h := by
    simp only [World.atConnector] at h
    split_ifs at h with hcc
    · cases h
      subst hcc
      exact ⟨hc, { hx with published := fun m hm => by cases hm }⟩
    · exact hw.connectors c' s' h
  incoming m hm := by
    rcases List.mem_append.1 hm with hm | hm
    · exact hw.incoming m hm
    · exact hx.published m hm

theorem Guarded.atProcessor (hw : Guarded D w) {x : Processor.Proc Unit} {d : Processor.Draws}
    (hx : Exec.Contract (Enclosed D.env) x (fun _ => True) Lawful) : Guarded D (w.atProcessor x d) :=
  { hw with processor := hx.keeps.run (hw.processor.drawing d) }

/-- Fewer records on the topics, fewer calls under way. -/
theorem Guarded.taken (hw : Guarded D w) {v : World}
    (hproc : v.processor = { w.processor with
      parcels := v.processor.parcels, httpCalls := v.processor.httpCalls })
    (hparcels : ∀ p ∈ v.processor.parcels, p ∈ w.processor.parcels)
    (hcalls : ∀ c ∈ v.processor.httpCalls, c ∈ w.processor.httpCalls)
    (hconn : v.connectors = w.connectors) (hinc : ∀ m ∈ v.incoming, m ∈ w.incoming) :
    Guarded D v where
  processor := by
    rw [hproc]
    exact { hw.processor with
      parcels := fun p hp => hw.processor.parcels p (hparcels p hp)
      httpCalls := fun c hc => hw.processor.httpCalls c (hcalls c hc) }
  connectors := hconn ▸ hw.connectors
  incoming m hm := hw.incoming m (hinc m hm)

theorem guarded_initial (h : Initial w) (hnames : D.NamesApart w) : Guarded D w where
  processor := by
    rw [h.processor]
    exact
      { messages := fun _ hm => by cases hm
        channels := fun _ _ hl => by cases hl
        parcels := fun _ hp => by cases hp
        httpCalls := fun _ hc => by cases hc }
  connectors c s hs :=
    ⟨livesHere_of_apart (hnames c s hs), h.connectors c s hs ▸ Connector.meets_initial _⟩
  incoming m hm := by
    rw [h.incoming] at hm
    cases hm

/-- A message that a tunnel brings. -/
theorem welcome_tunnel {data : Data} {draws : Processor.Draws} (hok : D.Courteous w (.tunnel data draws))
    {b i : Message} {t : MessageMeta} {c : MessageContent} (hd : data = .message i) :
    Welcome D.env (Processor.DomainService.msgWrapper b i (some .INTERNAL_MESSAGE) data t c) :=
  Processor.welcome_msgWrapper hd (hok.2 data draws i rfl hd)

theorem guarded_of_step {e : Event} (hw : Guarded D w) (hok : D.Courteous w e)
    (h : D.step w e = some w') : Guarded D w' := by
  cases e with
  | connect c =>
    obtain ⟨s, hs, rfl⟩ := step_connect h
    obtain ⟨hc, hmeets⟩ := hw.connectors c s hs
    exact hw.atConnector hc (Connector.meets_initChannel hmeets)
  | receive c i content futures =>
    obtain ⟨s, socket, hs, hsocket, rfl⟩ := step_receive h
    obtain ⟨hc, hmeets⟩ := hw.connectors c s hs
    obtain ⟨hinner, hreport, huser⟩ := hok.1
    have hw₁ : Guarded D { w with inputs := w.inputs ++ [⟨c, i, socket, content⟩] } := { hw with }
    have hsock : s.sockets i = some socket := (Option.filter_eq_some_iff.1 hsocket).1
    refine hw₁.atConnector hc (Connector.meets_channelRead0 hmeets hsock (fun _ _ _ => trivial) ?_)
    exact receives_of_fed hc hinner hreport (huser s socket hs hsocket)
  | disconnect c i futures =>
    obtain ⟨s, socket, hs, -, rfl⟩ := step_disconnect h
    obtain ⟨hc, hmeets⟩ := hw.connectors c s hs
    refine hw.atConnector hc (Connector.meets_handlerRemoved hmeets (fun _ _ _ => trivial) ?_)
    exact fun n _ => Processor.welcome_of_type .USER_DISCONNECTED rfl (by decide)
  | dispatch k draws =>
    obtain ⟨m, hm, rfl⟩ := step_dispatch h
    have hw₁ : Guarded D { w with
        incoming := w.incoming.eraseIdx k, dispatched := w.dispatched ++ [m] } :=
      hw.taken rfl (fun _ h => h) (fun _ h => h) rfl fun _ h => List.mem_of_mem_eraseIdx h
    refine hw₁.atProcessor (Processor.contract_onRecordArrived ?_)
    exact hw.incoming m (List.mem_of_getElem? hm)
  | handOut k futures =>
    obtain ⟨p, s, hp, hs, rfl⟩ := step_handOut h
    obtain ⟨hc, hmeets⟩ := hw.connectors _ s hs
    have hw₁ : Guarded D { w with
        processor := { w.processor with parcels := w.processor.parcels.eraseIdx k } } :=
      hw.taken rfl (fun _ h => List.mem_of_mem_eraseIdx h) (fun _ h => h) rfl fun _ h => h
    have hmail : Inbound D.env p.message := hw.processor.parcels p (List.mem_of_getElem? hp)
    exact hw₁.atConnector hc (Connector.meets_onMessageArrived (borderRules hc)
      (hmeets.expecting futures) hmail fun _ _ _ _ => welcome_report hmail)
  | refuse k =>
    obtain ⟨p, hp, rfl⟩ := step_refuse h
    have hw₁ : Guarded D { w with
        processor := { w.processor with parcels := w.processor.parcels.eraseIdx k } } :=
      hw.taken rfl (fun _ h => List.mem_of_mem_eraseIdx h) (fun _ h => h) rfl fun _ h => h
    refine hw₁.atProcessor (Processor.contract_onMessageDeliveryFailed ?_)
    exact hw.processor.parcels p (List.mem_of_getElem? hp)
  | respond k outcome draws =>
    obtain ⟨call, hcall, rfl⟩ := step_respond h
    have hw₁ : Guarded D { w with
        processor := { w.processor with httpCalls := w.processor.httpCalls.eraseIdx k }
        responses := w.responses ++ [(call, outcome)] } :=
      hw.taken rfl (fun _ h => h) (fun _ h => List.mem_of_mem_eraseIdx h) rfl fun _ h => h
    refine hw₁.atProcessor (Processor.contract_complete ?_)
    exact hw.processor.httpCalls call (List.mem_of_getElem? hcall)
  | tunnel data draws =>
    rw [step_tunnel h]
    exact hw.atProcessor (Processor.contract_handleInternalMessage fun b i t c hd _ _ =>
      welcome_tunnel hok hd)

/-! ### Runs -/

/-- **Only internal messages leave the domain**: in a run whose tunnels bring welcome messages, no
step has `assertInternalMessage` throw. -/
theorem not_breaches {w₀ w : World} (h₀ : Initial w₀) (hnames : D.NamesApart w₀)
    (h : D.system.Reaches D.Courteous w₀ w) {e : Event} (he : D.Courteous w e) :
    ¬ D.Breaches w e := by
  have hw : Guarded D w := h.invariant (I := Guarded D) (guarded_initial h₀ hnames)
    fun _ _ _ hI hok hst => guarded_of_step hI hok hst
  cases e with
  | dispatch k draws =>
    rintro ⟨m, hm, hassert⟩
    have hwelcome := hw.incoming m (List.mem_of_getElem? hm)
    exact Processor.not_asserts (Processor.contract_service hwelcome) (hw.processor.drawing draws) hassert
  | tunnel data draws =>
    rintro ⟨i, t, c, hd, -, -, hassert⟩
    exact Processor.not_asserts (Processor.contract_service (welcome_tunnel he hd))
      (hw.processor.drawing draws).next hassert
  | respond k outcome draws =>
    rintro ⟨call, hcall, hassert⟩
    have hs : Enclosed D.env { w.processor with httpCalls := w.processor.httpCalls.eraseIdx k } :=
      { hw.processor with
        httpCalls := fun c hc => hw.processor.httpCalls c (List.mem_of_mem_eraseIdx hc) }
    refine Processor.HttpCall.not_asserts ?_ (hs.drawing draws) hassert
    exact hw.processor.httpCalls call (List.mem_of_getElem? hcall)
  | _ => exact fun h => h

/-- A computed test for events that are fed as they should be. -/
def isFed (D : Domain) (w : World) : Event → Bool
  | .receive c i content _ => content.type ≠ some .INTERNAL_MESSAGE &&
      content.type ≠ some .MESSAGE_STATE_CHANGED &&
      (w.connectors c).all fun s => (s.openSocket i).all fun socket =>
        socket.authStatus ≠ .AUTHENTICATED || isBlank socket.userId ||
          equalsIgnoreCase (some D.env.domainName)
            (Processor.ClientAppService.resolveDomain D.env socket.userId)
  | .tunnel .. => false
  | _ => true

theorem courteous_of_isFed (w : World) (e : Event) (h : isFed D w e = true) : D.Courteous w e := by
  cases e with
  | receive c i content futures =>
    simp only [isFed, Bool.and_eq_true, decide_eq_true_eq] at h
    refine ⟨⟨h.1.1, h.1.2, fun s socket hs hsocket hst => ?_⟩, fun _ _ _ he => by cases he⟩
    have huser := h.2
    rw [hs, Option.all_some, hsocket, Option.all_some, hst] at huser
    simpa [LivesHere] using huser
  | tunnel data draws => cases h
  | _ => exact ⟨trivial, fun _ _ _ he => by cases he⟩

end Linker.Domain

/-! ### Runs of a small domain -/

namespace Linker

open Sample

attribute [local instance] JavaChar.ascii

namespace Sample

/-- A message of a user of another domain to a user of this one. -/
def abroad (type : MessageType) (data : Data) : Message :=
  { newMessage "abroad" 0 with
    content := some (createMessageContent type data (some .RELIABLE))
    from_ := some "APP-150"
    to_ := some "APP-5"
    meta_ := some {} }

def fetchRequest : MessageContent where
  type := some .FETCH_MISSING_MESSAGES_REQUEST
  data := .fetchMissingMessagesRequest (some 10)

/-- Whether a computation throws the exception of `assertInternalMessage`. -/
def isAsserting (x : Processor.Proc Unit) (s : Processor.State) : Bool :=
  match (x.run s).1 with
  | .error ⟨.illegalState _, _⟩ => true
  | _ => false

theorem asserts_of_isAsserting {x : Processor.Proc Unit} {s : Processor.State}
    (h : isAsserting x s = true) : Processor.Asserts x s := by
  unfold isAsserting at h
  split at h
  · next text m he => exact ⟨_, he, fun hlaw => hlaw text rfl⟩
  · cases h

end Sample

namespace Domain

theorem namesApart_start : cutOff.NamesApart start := by
  intro c s hs
  simp only [start] at hs
  split_ifs at hs with hc
  subst hc
  decide +kernel

/-- A user of the domain fetches its missing messages, and a user of another domain sends it a text. -/
theorem not_breaches_text : ∃ w, cutOff.system.run start
      (arrival 1 "APP-5" ++ [.receive connectorName 1 fetchRequest [], .dispatch 0 {}]) = some w ∧
    ¬ cutOff.Breaches w
      (.tunnel (.message (abroad .MESSAGE (.messageRequest ⟨some "APP-5", some "hello"⟩))) {}) := by
  have hrun : (cutOff.system.runIf (isFed cutOff) start
      (arrival 1 "APP-5" ++ [.receive connectorName 1 fetchRequest [], .dispatch 0 {}])).isSome =
        true := by decide +kernel
  obtain ⟨w, hw⟩ := Option.isSome_iff_exists.1 hrun
  refine ⟨w, System.run_of_runIf hw, not_breaches initial_start namesApart_start
    (System.reaches_of_runIf courteous_of_isFed hw) ⟨trivial, fun data draws i he hd _ => ?_⟩⟩
  cases he
  cases hd
  exact Processor.welcome_of_type .MESSAGE rfl (by decide)

/-- **A stray request.**  A tunnel brings the request of a user of another domain to fetch its missing
messages, addressed to a user of this one. -/
theorem breaches_stray : ¬ ∀ (D : Domain) (w₀ w : World) (e : Event), Initial w₀ → D.NamesApart w₀ →
    D.system.Reaches D.Fed w₀ w → D.Fed w e → ¬ D.Breaches w e := by
  intro h
  -- the request is for APP-5 and is processed here; its completion is for APP-150
  refine h cutOff start start
    (.tunnel (.message (abroad .FETCH_MISSING_MESSAGES_REQUEST fetchRequest.data)) {})
    initial_start namesApart_start .refl trivial ⟨_, _, _, rfl, rfl, rfl, ?_⟩
  exact asserts_of_isAsserting (by decide +kernel)

end Domain

end Linker
