import Linker.Connector.Delivery
import Linker.Domain.Convergence
import Linker.Domain.World
import Linker.Processor.DomainGraphService
import Linker.Processor.FanOut

/-!
# Group messages between domains

The group message that `processOtherDomain` builds is addressed to the processors of its target domain.
A domain on the way takes it out of the wrapper, because the wrapper that the tunnel's message gets is
addressed to any processor, and calls `process` on it, which counts its TTL down and wraps it again.

## Main definitions

* `Federation` : domains that share the domain graph.
* `Federation.Reaches` : whatever the stores of the domains are, the message gets to the handler of its
  target domain.
* `Federation.Discarded` : a way on which the message ends in no store at all.

## Main result

* `groupMessage_reaches` : a target at most eight links away is reached.
-/

namespace Linker

open Processor ProcessorUtils ClientAppService MessageProcessorService Exec

/-- Domains with their names, and a graph that all of them have loaded. -/
structure Federation where
  graph : DomainGraph
  dijkstra : String → ShortestPathAlgorithm
  services : String → DomainGraphService
  domain : String → Domain
  domainName : ∀ d, (domain d).env.domainName = d
  clientApps : ∀ d d', (domain d).env.clientApps = (domain d').env.clientApps
  routes : ∀ d, (domain d).env.routes = some (services d).getNextDomainName
  loaded : ∀ d ∈ graph.names, DomainGraphService.loadGraph (dijkstra d) d graph = .ok (services d)
  shortest : ∀ d ∈ graph.names, DomainGraphService.ShortestPaths (services d).graph.simple d
    (dijkstra d (services d).graph d)

namespace Federation

section

variable [JavaChar] (F : Federation)

/-- The domain user of `n` is in the registry, as a user at sockets of connectors. -/
structure Online (s : Processor.State) (n : String) : Prop where
  nonblank : isBlank (some n) = false
  user : isConnectorUser (some (resolveDomainUserId (some n))) = false
  channel : ∃ l, s.channels (resolveDomainUserId (some n)) = some l ∧ l ≠ [] ∧
    ∀ a ∈ l, a.connectorName ≠ none

/-- The domain users of all domains to which `d` moves messages are connected. -/
structure Ready (d : String) (s : Processor.State) : Prop where
  online : ∀ t n, (F.services d).getNextDomainName (some t) = some n → n ≠ d → Online s n

/-- The tunnel of the domain `n` brings an internal message with the given payload. -/
def tunnel (n : String) (data : Data) : Proc Unit :=
  DomainService.handleInternalMessage (F.domain n).env (some .INTERNAL_MESSAGE) data

/-- `CustomGroupMessageProcessor` processes a message with the given payload, in its target domain. -/
def Handles (t : String) (payload : GroupMessage) (d : String) (x : Proc Unit)
    (s : Processor.State) : Prop :=
  equalsIgnoreCase (some d) (some t) = true ∧
    ∃ (m : Message) (depth : ℕ) (s₁ : Processor.State) (h : Thrown → Proc Unit),
      m.data = .groupMessage payload ∧
      x.run s = (((CustomGroupMessageProcessor.processor (F.domain d).env
        (Processor.process (F.domain d).env depth)).process m).recover h).run s₁

/-- What is sent is one record for the domain user of `n`.  Its connector writes the payload to the
user's socket, from whatever state in which the user is still there and the write succeeds. -/
structure Forwards (d : String) (x : Proc Unit) (s : Processor.State) (n : String) (data : Data) :
    Prop where
  ok : (x.run s).1 = .ok ()
  messages : (x.run s).2.messages = s.messages
  record : ∃ p a, (x.run s).2.parcels = s.parcels ++ [p] ∧
    a ∈ UserChannelService.addressesOf s.channels (resolveDomainUserId (some n)) ∧
    a.connectorName = some p.target ∧
    ∀ (c : Connector.State) (j : ℤ),
      Connector.UserMap.getUser (resolveDomainUserId (some n)) a.socketId c.users = some j →
      c.succeeds j = true →
      ∃ o, ((Connector.PostOffice.onMessageArrived ((F.domain d).config p.target) p.message).run
          c).2.outputs = c.outputs ++ [o] ∧
        o.socketId = j ∧ o.type = some .INTERNAL_MESSAGE ∧ o.data = data ∧ o.isSuccess = true

/-- The producer refuses the record, which is not put on a topic, and the message is saved for that, in
the wrapper in which it was to leave. -/
structure Saves (payload : GroupMessage) (x : Proc Unit) (s : Processor.State) : Prop where
  ok : (x.run s).1 = .ok ()
  refused : s.refused.headD false = true
  parcels : (x.run s).2.parcels = s.parcels
  saved : ∃ m i : Message, (x.run s).2.messages = MessageRepository.upsert m s.messages ∧
    m.state = some .NETWORK_ERROR ∧ m.data = .message i ∧ i.data = .groupMessage payload

/-- Nothing is sent, saved or registered. -/
structure Dropped (x : Proc Unit) (s : Processor.State) : Prop where
  ok : (x.run s).1 = .ok ()
  parcels : (x.run s).2.parcels = s.parcels
  messages : (x.run s).2.messages = s.messages
  channels : (x.run s).2.channels = s.channels
  httpCalls : (x.run s).2.httpCalls = s.httpCalls

/-- After at most so many moves the message is processed in its target domain or saved on the way,
whatever is in the stores of the domains by the time it gets there. -/
def Reaches (t : String) (payload : GroupMessage) : ℕ → String → Proc Unit → Prop
  | 0, d, x => ∀ s, F.Ready d s → F.Handles t payload d x s
  | k + 1, d, x => ∀ s, F.Ready d s → F.Handles t payload d x s ∨ Saves payload x s ∨
      ∃ n data, F.Forwards d x s n data ∧ Reaches t payload k n (F.tunnel n data)

/-- On some way from domain to domain the message is gone in the end: processed in no domain that it
is for, and saved nowhere. -/
inductive Discarded (t : String) : String → Proc Unit → Prop
  | dropped {d : String} {x : Proc Unit} {s : Processor.State} :
    F.Ready d s → Dropped x s → Discarded t d x
  | onward {d n : String} {x : Proc Unit} {s : Processor.State} {data : Data} :
    equalsIgnoreCase (some d) (some t) = false → F.Ready d s → F.Forwards d x s n data →
    Discarded t n (F.tunnel n data) → Discarded t d x

end

end Federation

/-! ### The message -/

/-- A `RELIABLE` group message for the domain `t`, with its TTL. -/
structure IsSubMessage (t : String) (payload : GroupMessage) (ttl : ℤ) (i : Message) : Prop where
  to_ : i.to_ = some Keywords.PROCESSOR
  meta_ : ∃ u a, i.meta_ = some u ∧ u.ttl = some ttl ∧ u.targetAddress = some a ∧ a.domainName = some t
  content : ∃ c, i.content = some c ∧ c.type = some .GROUP_MESSAGE ∧ c.data = .groupMessage payload ∧
    c.feature = some .RELIABLE

theorem isSubMessage_touch {t : String} {payload : GroupMessage} {ttl : ℤ} {i : Message}
    (hi : IsSubMessage t payload ttl i) (hwrap : wrap32 (ttl - 1) = ttl - 1) :
    IsSubMessage t payload (ttl - 1) i.touch := by
  obtain ⟨u, a, hu, httl, ha, hdom⟩ := hi.meta_
  refine ⟨hi.to_, ⟨u.touch, a, ?_, ?_, ha, hdom⟩, hi.content⟩
  · rw [MessageOf.touch, MessageOf.updateMeta_meta, hu]
    rfl
  · show some (wrap32 (u.ttl.getD 10 - 1)) = _
    rw [httl, Option.getD_some, hwrap]

/-! ### What a computation of a domain begins with -/

namespace Processor

variable [JavaChar] {E : Environment}

/-- The computation calls `process` on one of the messages, and what is thrown there is handled. -/
def Calls (E : Environment) (x : Proc Unit) (P : Message → Prop) : Prop :=
  ∀ s, ∃ (i : Message) (depth : ℕ) (s₁ : State) (h : Thrown → Proc Unit), P i ∧ Begins s s₁ ∧
    x.run s = ((process E (depth + 2) i).recover h).run s₁

omit [JavaChar] in
/-- Handlers of exceptions, one around the other. -/
theorem run_recover_recover {x y : Proc Unit} {s s₁ : State} {h : Thrown → Proc Unit}
    (hrun : x.run s = (y.recover h).run s₁) (g : Thrown → Proc Unit) :
    (x.recover g).run s = (y.recover fun e => (h e).recover g).run s₁ := by
  rw [run_recover, hrun, run_recover, run_recover]
  rcases y.run s₁ with ⟨e | a, s'⟩
  · exact (run_recover (h e) g s').symm
  · rfl

/-- What `processOtherDomain` begins with. -/
theorem calls_processOtherDomain {m : Message} {c : MessageContent} {u : MessageMeta}
    (hc : m.content = some c) (hf : c.feature = some .RELIABLE) (hu : m.meta_ = some u) (depth : ℕ)
    (t : String) (users : List (Option String)) (data : GroupMessage) :
    Calls E (CustomGroupMessageProcessor.processOtherDomain E (process E (depth + 2)) (some t) users m
      data) (IsSubMessage t ⟨some users, data.content⟩ 10) := by
  intro s
  refine ⟨CustomGroupMessageProcessor.subMessage (E.blank s.serial) (some t) users m data c, depth,
    s.next, fun e => fail ⟨e.exception, m⟩, ?_, ⟨rfl, rfl, rfl, rfl, rfl⟩, ?_⟩
  · exact ⟨rfl, ⟨_, _, rfl, rfl, rfl, rfl⟩, ⟨_, rfl, rfl, rfl, hf⟩⟩
  · rw [CustomGroupMessageProcessor.processOtherDomain, run_bind_ok (run_getContent hc s),
      run_bind_ok (run_getMeta hu s), run_bind_ok (run_builder E s)]
    rfl

/-- What a tunnel's message begins with: the new wrapper is for any processor, so it is taken off. -/
theorem calls_tunnel {t : String} {payload : GroupMessage} {ttl : ℤ} {i : Message}
    (hi : IsSubMessage t payload ttl i) :
    Calls E (DomainService.handleInternalMessage E (some .INTERNAL_MESSAGE) (.message i)) (· = i) := by
  intro s
  obtain ⟨u, a, hu, -⟩ := hi.meta_
  obtain ⟨c, hc, -, -, hf⟩ := hi.content
  have hwrapper := isWrapper_msgWrapper (E := E) (i := i) (t := u) hf s.serial
  generalize hw : DomainService.msgWrapper (E.blank s.serial) i (some .INTERNAL_MESSAGE) (.message i)
    u c = w at hwrapper
  obtain ⟨v, hv, httl⟩ := hwrapper.meta_
  obtain ⟨c', hc', htype, hdata, -⟩ := hwrapper.content
  have hto : w.to_ = some Keywords.PROCESSOR := hwrapper.to_.trans hi.to_
  have htarget : w.targetAddress = none := by rw [← hw]; rfl
  have hloc : isLocal E w.touch = true := by
    rw [isLocal_touch, isLocal, domainOf, htarget, hto, resolveDomain_processor,
      equalsIgnoreCase_refl, Bool.or_true]
  obtain ⟨n, hn⟩ : ∃ n, callDepth w = n + 3 :=
    ⟨callDepth w - 3, by unfold callDepth; omega⟩
  have hproc : (MessageProcessorService.process E w).run s.next =
      ((process E (n + 2) i).recover fun e => fail ⟨e.exception, w.touch⟩).run (s.next.noting w) := by
    rw [MessageProcessorService.process, hn]
    show (processWith E (process E (n + 2)) w).run s.next = _
    rw [run_processWith_wrapper _ hv (isAlive_touch httl (by decide)) hc' htype hdata
      (by rw [hto]; exact isBlank_processor), hloc, if_pos rfl]
    rfl
  have hrun := run_handleInternalMessage (E := E) hu hc s
  rw [hw, PostOffice.onMessageArrived, PostOffice.onMessageArrivedWith] at hrun
  have hcall := hrun.trans (run_recover_recover hproc _)
  exact ⟨i, n, s.next.noting w, _, rfl, ⟨rfl, rfl, rfl, rfl, rfl⟩, hcall⟩

/-! ### One call of `process` -/

section

variable {t : String} {payload : GroupMessage} {ttl : ℤ} {i : Message}
  (hi : IsSubMessage t payload ttl i)

include hi

theorem domainOf_subMessage : domainOf E i = some t := by
  obtain ⟨u, a, hu, -, ha, hdom⟩ := hi.meta_
  have htarget : i.targetAddress = some a := by rw [MessageOf.targetAddress, hu]; exact ha
  rw [domainOf, htarget]
  exact hdom

theorem isLocal_subMessage : isLocal E i = equalsIgnoreCase (some E.domainName) (some t) := by
  rw [isLocal, hi.to_, isBlank_processor, Bool.false_or, domainOf_subMessage hi]

/-- The TTL is used up. -/
theorem run_process_dead (hdead : wrap32 (ttl - 1) ≤ 0) (depth : ℕ) (s : State) :
    (process E (depth + 1) i).run s = (.ok (), s.noting i) := by
  obtain ⟨u, a, hu, httl, -⟩ := hi.meta_
  refine run_processWith_dead _ hu ?_ s
  show decide (0 < wrap32 (u.ttl.getD 10 - 1)) = false
  rw [httl, Option.getD_some, decide_eq_false_iff_not]
  omega

/-- A group message that is alive goes to its handler or into a wrapper. -/
theorem run_process_alive (halive : 0 < wrap32 (ttl - 1)) (depth : ℕ) (s : State) :
    (process E (depth + 1) i).run s =
      (if equalsIgnoreCase (some E.domainName) (some t) then
          (CustomGroupMessageProcessor.processor E (process E depth)).process i.touch
        else processCrossDomainMessage E (process E depth) i.touch : Proc Unit).run (s.noting i) := by
  obtain ⟨u, a, hu, httl, -⟩ := hi.meta_
  obtain ⟨c, hc, htype, hdata, -⟩ := hi.content
  have hne : c.type ≠ some .INTERNAL_MESSAGE := by rw [htype]; decide
  have hp : getMessageProcessor E (process E depth) c.type =
      some (CustomGroupMessageProcessor.processor E (process E depth)) := by rw [htype]; rfl
  have hconvert : c.data.convert Data.groupMessage? = .ok (some payload) := by rw [hdata]; rfl
  have hprep : ∀ s, ((CustomGroupMessageProcessor.processor E (process E depth)).preprocess
      i.touch).run s = (.ok i.touch, s) := by
    intro s
    rw [MessageProcessor.preprocess]
    refine (run_bind_ok (run_getData (m := i.touch) hc hconvert s)).trans ?_
    rfl
  have hu' : i.touch.meta_ = some u.touch := by
    rw [MessageOf.touch, MessageOf.updateMeta_meta, hu]; rfl
  have hrun := run_processWith_prepared (E := E) (process E depth) hu (isAlive_touch httl halive) hc
    hne hp hprep hu' s
  rw [isLocal_touch, isLocal_subMessage hi] at hrun
  exact hrun

/-- A group message for another domain is offered to the producer in a wrapper, for one address of the
next domain. -/
theorem run_process_next (halive : 0 < wrap32 (ttl - 1)) {s : State} {n : String} {l : List Address}
    (hloc : equalsIgnoreCase (some E.domainName) (some t) = false)
    (hn : Neighbour E s (some t) n l) (depth : ℕ) :
    ∃ w, IsWrapper w i.touch .RELIABLE ∧ ∃ a ∈ l, ∃ s', Begins s s' ∧
      (process E (depth + 2) i).run s = (.ok (), s'.offer .RELIABLE (sentOn E n w.touch) a) := by
  obtain ⟨u, b, hu, -⟩ := hi.meta_
  obtain ⟨c, hc, htype, -, hf⟩ := hi.content
  have hne : c.type ≠ some .INTERNAL_MESSAGE := by rw [htype]; decide
  have hu' : i.touch.meta_ = some u.touch := by
    rw [MessageOf.touch, MessageOf.updateMeta_meta, hu]; rfl
  have hdom : domainOf E i.touch = some t := (domainOf_touch i).trans (domainOf_subMessage hi)
  have hw := isWrapper_internalMessage (E := E) (s.noting i).serial i.touch .RELIABLE (some t)
  generalize hwrap : internalMessage (E.blank (s.noting i).serial) i.touch (some .RELIABLE) (some t) = w
    at hw
  have hwdom : domainOf E w = some t := by rw [← hwrap]; rfl
  have hwloc : isLocal E w = false := by
    rw [isLocal, hw.to_, show i.touch.to_ = some Keywords.PROCESSOR from hi.to_, isBlank_processor,
      Bool.false_or, hwdom, hloc]
  obtain ⟨next, hroutes, hnext⟩ := hn.next
  have hn' : Neighbour E (s.noting i).next (domainOf E w) n l :=
    ⟨⟨next, hroutes, by rw [hwdom]; exact hnext⟩, hn.nonblank, hn.user, hn.channel, hn.ne_nil, hn.named⟩
  obtain ⟨a, ha, picks, hsend⟩ := run_process_onward hw hwloc hn' depth
  refine ⟨w, hw, a, ha, ((s.noting i).next.noting w).picking picks, ⟨rfl, rfl, rfl, rfl, rfl⟩, ?_⟩
  have hcross := run_processCrossDomainMessage (E := E) (process E (depth + 1)) (m := i.touch) hu' hc
    hne (s.noting i)
  rw [hf, hdom, hwrap] at hcross
  rw [run_process_alive hi halive, hloc, if_neg Bool.false_ne_true, hcross, Proc.during,
    run_reraise_ok hsend]

end

/-- The record at its connector, while the user is at its address: the socket gets the message that
the wrapper holds. -/
theorem outputs_onward {w i : Message} {f : MessageFeature} (hw : IsWrapper w i f) (n : String)
    (a : Address) (C : Connector.Config) (s : Connector.State) {j : ℤ}
    (hj : Connector.UserMap.getUser (resolveDomainUserId (some n)) a.socketId s.users = some j)
    (hsucceeds : s.succeeds j = true) :
    ∃ o, ((Connector.PostOffice.onMessageArrived C (onward E f n w a).message).run s).2.outputs =
        s.outputs ++ [o] ∧
      o.socketId = j ∧ o.type = some .INTERNAL_MESSAGE ∧ o.data = .message i ∧ o.isSuccess = true := by
  obtain ⟨t, ht, -⟩ := hw.meta_
  obtain ⟨c, hc, htype, hdata, -⟩ := hw.content
  have ht' : w.touch.meta_ = some t.touch := by rw [MessageOf.touch, MessageOf.updateMeta_meta, ht]; rfl
  obtain ⟨t₁, ht₁, -⟩ := meta_populated (E := E) ht'
  obtain ⟨t₂, ht₂, -⟩ := meta_adjusted (E := E)
    (m := (populated E w.touch).setTo (some (resolveDomainUserId (some n)))) ht₁
  have hto : (onward E f n w a).message.to_ = some (resolveDomainUserId (some n)) :=
    (letter_adjusted _).to_
  have hcontent : (onward E f n w a).message.content = some c :=
    (letter_adjusted _).content.trans ((letter_populated w.touch).content.trans hc)
  have hmeta : (onward E f n w a).message.meta_ = some { t₂ with targetAddress := some a } := by
    show (sentOn E n w.touch).meta_.map _ = _
    rw [sentOn, ht₂]
    rfl
  rw [Connector.run_onMessageArrived hto hcontent htype (by decide) hmeta rfl, Connector.State.handled,
    hj]
  refine ⟨⟨j, c.type, c.data, c.reference, some (onward E f n w a).message, s.succeeds j⟩, ?_, rfl,
    htype, hdata, hsucceeds⟩
  simp only
  split <;> rfl

/-- The content of a wrapper as it is sent on. -/
theorem content_sentOn {w i : Message} {f : MessageFeature} (hw : IsWrapper w i f) (n : String) :
    ∃ c, (sentOn E n w.touch).content = some c ∧ c.type = some .INTERNAL_MESSAGE ∧
      c.data = .message i := by
  obtain ⟨c, hc, htype, hdata, -⟩ := hw.content
  exact ⟨c, (letter_adjusted _).content.trans ((letter_populated w.touch).content.trans hc), htype,
    hdata⟩

end Processor

/-! ### From domain to domain -/

namespace Federation

variable [JavaChar] {F : Federation} {t : String} {payload : GroupMessage} {ttl : ℤ} {d : String}
  {x : Proc Unit} {P : Message → Prop}

/-- In the target domain. -/
theorem handles (hcalls : Calls (F.domain d).env x P) (hP : ∀ i, P i → IsSubMessage t payload ttl i)
    (halive : 0 < wrap32 (ttl - 1)) (hloc : equalsIgnoreCase (some d) (some t) = true)
    (s : Processor.State) : F.Handles t payload d x s := by
  obtain ⟨i, depth, s₁, h, hi, -, hrun⟩ := hcalls s
  obtain ⟨c, hc, -, hdata, -⟩ := (hP i hi).content
  refine ⟨hloc, i.touch, depth + 1, s₁.noting i, h, ?_, ?_⟩
  · show (i.content.map _).getD _ = _
    rw [hc]
    exact hdata
  · have hprocess := run_process_alive (E := (F.domain d).env) (hP i hi) halive (depth + 1) s₁
    rw [F.domainName, hloc, if_pos rfl] at hprocess
    rw [hrun, run_recover, run_recover, hprocess]

/-- A wrapper that the producer takes. -/
theorem forwards_of_offer {s s' : Processor.State} {w i : Message} {f : MessageFeature} {n : String}
    {l : List Address} {a : Address} (hw : IsWrapper w i f)
    (hx : x.run s = (.ok (), s'.offer f (sentOn (F.domain d).env n w.touch) a))
    (hmessages : s'.messages = s.messages) (hparcels : s'.parcels = s.parcels)
    (hrefused : s'.refused.headD false = false)
    (hl : s.channels (resolveDomainUserId (some n)) = some l) (ha : a ∈ l)
    (hname : a.connectorName ≠ none) : F.Forwards d x s n (.message i) := by
  have hstate : x.run s = (.ok (), s'.asked.post [onward (F.domain d).env f n w a]) := by
    rw [hx, State.offer_accepted hrefused]
    rfl
  refine ⟨by rw [hstate], ?_, onward (F.domain d).env f n w a, a, ?_, ?_, ?_, ?_⟩
  · rw [hstate]
    exact hmessages
  · rw [hstate]
    show s'.parcels ++ _ = _
    rw [hparcels]
  · rw [UserChannelService.addressesOf, hl]
    exact ha
  · obtain ⟨name, hname'⟩ := Option.ne_none_iff_exists'.1 hname
    show a.connectorName = some (a.connectorName.getD "")
    rw [hname']
    rfl
  · exact fun c' j hj hsucceeds => outputs_onward hw n a _ c' hj hsucceeds

/-- In a domain on the way. -/
theorem saves_or_forwards (hcalls : Calls (F.domain d).env x P)
    (hP : ∀ i, P i → IsSubMessage t payload ttl i) (halive : 0 < wrap32 (ttl - 1))
    (hloc : equalsIgnoreCase (some d) (some t) = false) {n : String}
    (hnext : (F.services d).getNextDomainName (some t) = some n) (hne : n ≠ d) {s : Processor.State}
    (hs : F.Ready d s) :
    Saves payload x s ∨
      ∃ i, P i ∧ F.Forwards d x s n (.message i.touch) := by
  obtain ⟨i, depth, s₁, h, hi, hbegins, hrun⟩ := hcalls s
  obtain ⟨c, hc, -, hdata, -⟩ := (hP i hi).content
  obtain ⟨hnonblank, huser, l, hl, hnil, hnamed⟩ := hs.online t n hnext hne
  have hneighbour : Neighbour (F.domain d).env s₁ (some t) n l :=
    ⟨⟨_, F.routes d, hnext⟩, hnonblank, huser, hbegins.channels ▸ hl, hnil, hnamed⟩
  obtain ⟨w, hw, a, ha, s₂, hbegins₂, hsend⟩ := run_process_next (hP i hi) halive
    (by rw [F.domainName]; exact hloc) hneighbour depth
  have hx : x.run s = (.ok (), s₂.offer .RELIABLE (sentOn (F.domain d).env n w.touch) a) := by
    rw [hrun, run_recover, hsend]
  have hrefused : s₂.refused = s.refused := hbegins₂.refused.trans hbegins.refused
  -- the producer refuses the record, or takes it
  by_cases hoffer : s.refused.headD false = true
  · have hoffered : s₂.offer .RELIABLE (sentOn (F.domain d).env n w.touch) a =
        s₂.asked.keep .RELIABLE (((sentOn (F.domain d).env n w.touch).setTargetAddress (some a)).setState
          (some .NETWORK_ERROR)) := by
      rw [State.offer, hrefused, if_pos hoffer]
    rw [hoffered] at hx
    refine .inl ⟨by rw [hx], hoffer, ?_, ((sentOn (F.domain d).env n w.touch).setTargetAddress
      (some a)).setState (some .NETWORK_ERROR), i.touch, ?_, rfl, ?_, ?_⟩
    · rw [hx]
      exact hbegins₂.parcels.trans hbegins.parcels
    · rw [hx]
      show MessageRepository.upsert _ s₂.messages = _
      rw [hbegins₂.messages, hbegins.messages]
    · obtain ⟨c', hc', -, hdata'⟩ := content_sentOn (E := (F.domain d).env) hw n
      show ((sentOn (F.domain d).env n w.touch).content.map _).getD _ = _
      rw [hc']
      exact hdata'
    · show (i.content.map _).getD _ = _
      rw [hc]
      exact hdata
  · refine .inr ⟨i, hi, forwards_of_offer hw hx ?_ ?_ ?_ hl ha (hnamed a ha)⟩
    · exact hbegins₂.messages.trans hbegins.messages
    · exact hbegins₂.parcels.trans hbegins.parcels
    · rw [hrefused]
      simpa using hoffer

omit [JavaChar] in
theorem wrap32_pred {k : ℕ} (hk : k ≤ 10) : wrap32 ((k + 1 : ℕ) - 1) = k := by
  unfold wrap32
  rw [Int.bmod_eq_of_le (by omega) (by omega)]
  omega

omit [JavaChar] in
/-- The next domain on the way. -/
theorem exists_next (hd : d ∈ F.graph.names) (hreach : F.graph.network.Reachable d t) {k : ℕ}
    (hdist : F.graph.network.dist d t = k + 1) :
    ∃ n, (F.services d).getNextDomainName (some t) = some n ∧ n ≠ d ∧ n ∈ F.graph.names ∧
      F.graph.network.Reachable n t ∧ F.graph.network.dist n t = k := by
  obtain ⟨n, hnext, ⟨hn, hreach'⟩, hrank, -⟩ :=
    (DomainGraphService.descends_hop F.loaded F.shortest t).move d ⟨hd, hreach⟩ (by omega)
  refine ⟨n, hnext, ?_, hn, hreach', by omega⟩
  rintro rfl
  omega

/-- With a TTL for every move and one more the message reaches its target. -/
theorem reaches_of_dist {k r : ℕ} (hcalls : Calls (F.domain d).env x P)
    (hP : ∀ i, P i → IsSubMessage t payload (r + 1 : ℕ) i) (hd : d ∈ F.graph.names)
    (hreach : F.graph.network.Reachable d t) (hdist : F.graph.network.dist d t = k) (hk : k + 1 ≤ r)
    (httl : r ≤ 10) : F.Reaches t payload k d x := by
  induction k generalizing d x P r with
  | zero =>
    have hdt : d = t := hreach.dist_eq_zero_iff.1 hdist
    refine fun s _ => handles hcalls hP ?_ (hdt ▸ equalsIgnoreCase_refl _) s
    rw [wrap32_pred httl]
    omega
  | succ k ih =>
    intro s hs
    have halive : 0 < wrap32 ((r + 1 : ℕ) - 1) := by
      rw [wrap32_pred httl]
      omega
    by_cases hloc : equalsIgnoreCase (some d) (some t) = true
    · exact .inl (handles hcalls hP halive hloc s)
    · obtain ⟨n, hnext, hne, hn, hreach', hdist'⟩ := exists_next hd hreach hdist
      refine .inr ?_
      rcases saves_or_forwards hcalls hP halive (by simpa using hloc) hnext hne hs with
        hsaves | ⟨i, hi, hforwards⟩
      · exact .inl hsaves
      · -- the message has been touched once on the way
        obtain ⟨l, rfl⟩ : ∃ l, r = l + 1 := ⟨r - 1, by omega⟩
        have hi' := isSubMessage_touch (hP i hi) (by rw [wrap32_pred httl]; simp)
        refine .inr ⟨n, _, hforwards, ih (r := l) (calls_tunnel hi') ?_ hn hreach' hdist' (by omega)
          (by omega)⟩
        rintro j rfl
        simpa using hi'

/-- **Group messages between domains.**  A group message to a domain at most eight links away reaches
its handler there, unless it is saved on the way. -/
theorem groupMessage_reaches (hd : d ∈ F.graph.names) (hreach : F.graph.network.Reachable d t)
    (hdist : F.graph.network.dist d t ≤ 8) {m : Message} {c : MessageContent} {u : MessageMeta}
    (hc : m.content = some c) (hf : c.feature = some .RELIABLE) (hu : m.meta_ = some u) (depth : ℕ)
    (users : List (Option String)) (data : GroupMessage) :
    F.Reaches t ⟨some users, data.content⟩ (F.graph.network.dist d t) d
      (CustomGroupMessageProcessor.processOtherDomain (F.domain d).env
        (Processor.process (F.domain d).env (depth + 2)) (some t) users m data) :=
  reaches_of_dist (r := 9) (calls_processOtherDomain hc hf hu depth t users data) (fun _ h => h) hd
    hreach rfl (by omega) (by omega)

/-- With a TTL that does not last the message is discarded. -/
theorem discarded_of_dist {r : ℕ} (hdistinct : ∀ n ∈ F.graph.names, n ≠ t →
      equalsIgnoreCase (some n) (some t) = false)
    (hready : ∀ n ∈ F.graph.names, ∃ s, F.Ready n s ∧ s.refused = [])
    (hcalls : Calls (F.domain d).env x P) (hP : ∀ i, P i → IsSubMessage t payload (r + 1 : ℕ) i)
    (hd : d ∈ F.graph.names) (hreach : F.graph.network.Reachable d t)
    (hdist : r ≤ F.graph.network.dist d t) (httl : r ≤ 10) : F.Discarded t d x := by
  obtain ⟨s, hs, hrefused⟩ := hready d hd
  induction r generalizing d x P s with
  | zero =>
    obtain ⟨i, depth, s₁, h, hi, hbegins, hrun⟩ := hcalls s
    -- the TTL has run out here
    have hdead := run_process_dead (E := (F.domain d).env) (hP i hi) (by rw [wrap32_pred httl]; simp)
      (depth + 1) s₁
    have hx : x.run s = (.ok (), s₁.noting i) := by
      rw [hrun, run_recover, hdead]
    refine .dropped hs ?_
    constructor <;> rw [hx]
    exacts [hbegins.parcels, hbegins.messages, hbegins.channels, hbegins.httpCalls]
  | succ r ih =>
    obtain ⟨k, hk⟩ : ∃ k, F.graph.network.dist d t = k + 1 :=
      ⟨F.graph.network.dist d t - 1, by omega⟩
    have hdt : d ≠ t := by
      rintro rfl
      rw [SimpleGraph.dist_self] at hk
      omega
    have hloc := hdistinct d hd hdt
    obtain ⟨n, hnext, hne, hn, hreach', hdist'⟩ := exists_next hd hreach hk
    have halive : 0 < wrap32 ((r + 1 + 1 : ℕ) - 1) := by
      rw [wrap32_pred httl]
      omega
    rcases saves_or_forwards hcalls hP halive hloc hnext hne hs with hsaves | ⟨i, hi, hforwards⟩
    · have hoffer := hsaves.refused
      rw [hrefused] at hoffer
      exact absurd hoffer Bool.false_ne_true
    · have hi' := isSubMessage_touch (hP i hi) (by rw [wrap32_pred httl]; simp)
      obtain ⟨s', hs', hrefused'⟩ := hready n hn
      refine .onward hloc hs hforwards (ih (calls_tunnel hi') ?_ hn hreach' (by omega) (by omega) s'
        hs' hrefused')
      rintro j rfl
      simpa using hi'

omit [JavaChar] in
/-- A domain to which a message moves is in the graph. -/
theorem mem_of_next (hd : d ∈ F.graph.names) {n : String}
    (hnext : (F.services d).getNextDomainName (some t) = some n) (hne : n ≠ d) :
    n ∈ F.graph.names := by
  have hroute := DomainGraphService.route_shortest F.loaded F.shortest (t := t) hd
  by_cases hreach : F.graph.network.Reachable d t
  · cases hk : F.graph.network.dist d t with
    | succ k =>
      obtain ⟨n', hnext', -, hn', -⟩ := exists_next hd hreach hk
      rw [hnext] at hnext'
      cases hnext'
      exact hn'
    | zero =>
      -- the path to itself has no second vertex
      obtain ⟨-, -, hsimple, hpath⟩ := DomainGraphService.loadGraph_ok (F.loaded d hd)
      have hshort := F.shortest d hd
      rw [hsimple, ← hpath] at hshort
      obtain ⟨p, hlen, hp⟩ := hshort.reachable t hreach
      rw [hk] at hlen
      cases p with
      | nil =>
        have hself : (F.services t).getNextDomainName (some t) = some t := by
          unfold DomainGraphService.getNextDomainName DomainGraphService.computePath
          rw [Option.bind_some, hp]
          rfl
        rw [hself] at hnext
        cases hnext
        exact absurd rfl hne
      | cons h q => cases hlen
  · rw [hroute.2 hreach] at hnext
    cases hnext

end Federation

/-! ### Two federations -/

namespace SampleJourney

/-- The users of an app live in two domains. -/
def clientApps (home away appName : String) : Option ClientApp :=
  if appName = "APP" then
    some
      { appName := some "APP"
        appId := some "id"
        masterUserId := some "APP-1"
        userDistributions := some [⟨some home, some 1, some 100⟩, ⟨some away, some 101, none⟩] }
  else none

def domain (home away : String) (services : String → DomainGraphService) (d : String) : Domain where
  env :=
    { CustomGroupMessageProcessor.Sample.env d with
      clientApps := clientApps home away
      routes := some (services d).getNextDomainName }
  uuid c n := c ++ "-message-" ++ toString n
  now _ n := n

/-- The three domains in a line. -/
def lineOfThree : Federation where
  graph := SampleGraph.line
  dijkstra _ := SampleGraph.dijkstra
  services := SampleGraph.services
  domain := domain "1" "3" SampleGraph.services
  domainName _ := rfl
  clientApps _ _ := rfl
  routes _ := rfl
  loaded _ hd := SampleGraph.loadGraph_services hd
  shortest d hd := by
    rw [(DomainGraphService.loadGraph_ok (SampleGraph.loadGraph_services hd)).2.2.1]
    exact SampleGraph.dijkstra_shortest hd _

/-- A message to a user at home and a user away. -/
def message : Message :=
  { newMessage "1" 1 with
    content := some (createMessageContent .GROUP_MESSAGE
      (.groupMessage ⟨some [some "APP-5", some "APP-105"], some "hello"⟩) (some .RELIABLE))
    from_ := some "APP-7"
    to_ := some Keywords.PROCESSOR
    meta_ := some {} }

end SampleJourney

section

attribute [local instance] JavaChar.ascii

open SampleJourney

/-- From 1 to 3 in two moves. -/
theorem groupMessage_reaches_lineOfThree :
    lineOfThree.Reaches "3" ⟨some [some "APP-105"], some "hello"⟩ (SampleGraph.line.network.dist "1" "3")
      "1" (CustomGroupMessageProcessor.processOtherDomain (lineOfThree.domain "1").env
        (Processor.process (lineOfThree.domain "1").env 2) (some "3") [some "APP-105"] message
        ⟨some [some "APP-5", some "APP-105"], some "hello"⟩) :=
  Federation.groupMessage_reaches (F := lineOfThree) (d := "1") (t := "3") (m := message) (by decide)
    (SampleGraph.adj₁₂.reachable.trans SampleGraph.adj₂₃.reachable)
    (SampleGraph.dist₁₃.trans_le (by decide)) rfl rfl rfl 0 [some "APP-105"]
    ⟨some [some "APP-5", some "APP-105"], some "hello"⟩

end

namespace SampleJourney

/-- Ten domains in a line. -/
def lineOfTen : DomainGraph where
  domains := [{ name := "domain-1" }, { name := "domain-2" }, { name := "domain-3" },
    { name := "domain-4" }, { name := "domain-5" }, { name := "domain-6" }, { name := "domain-7" },
    { name := "domain-8" }, { name := "domain-9" }, { name := "domain-10" }]
  links := [⟨"domain-1", "domain-2"⟩, ⟨"domain-2", "domain-3"⟩, ⟨"domain-3", "domain-4"⟩,
    ⟨"domain-4", "domain-5"⟩, ⟨"domain-5", "domain-6"⟩, ⟨"domain-6", "domain-7"⟩,
    ⟨"domain-7", "domain-8"⟩, ⟨"domain-8", "domain-9"⟩, ⟨"domain-9", "domain-10"⟩]

/-- The place of a domain in the line. -/
def place (d : String) : ℕ := lineOfTen.names.idxOf d

theorem place_le_of_walk {a b : String} (p : lineOfTen.network.Walk a b) :
    place b ≤ place a + p.length := by
  have hlinks : ∀ l ∈ lineOfTen.links, place l.n2 = place l.n1 + 1 := by decide +kernel
  induction p with
  | nil => exact Nat.le_add_right _ _
  | @cons u v w hadj q ih =>
    rw [SimpleGraph.Walk.length_cons]
    rcases hadj.2 with hl | hl
    · have := hlinks _ hl
      simp only at this
      omega
    · have := hlinks _ hl
      simp only at this
      omega

theorem reachable_of_isChain {G : SimpleGraph String} {a : String} {l : List String}
    (h : (a :: l).IsChain G.Adj) : ∀ b ∈ a :: l, G.Reachable a b := by
  induction l generalizing a with
  | nil =>
    intro b hb
    rw [List.mem_singleton.1 hb]
  | cons c l ih =>
    intro b hb
    obtain ⟨hadj, hchain⟩ := List.isChain_cons_cons.1 h
    rcases List.mem_cons.1 hb with rfl | hb
    · exact .refl b
    · exact hadj.reachable.trans (ih hchain b hb)

theorem reachable_first : ∀ d ∈ lineOfTen.names, lineOfTen.network.Reachable "domain-1" d := by
  have hlinks : lineOfTen.names.IsChain fun a b => a ≠ b ∧ ⟨a, b⟩ ∈ lineOfTen.links := by
    decide +kernel
  exact reachable_of_isChain (hlinks.imp fun a b h => ⟨h.1, .inl h.2⟩)

/-- Some shortest path to whatever can be reached. -/
noncomputable def dijkstra : ShortestPathAlgorithm := by
  classical
  exact fun g source target =>
    if h : g.simple.Reachable source target then some h.exists_walk_length_eq_dist.choose.support
    else none

theorem dijkstra_shortest (g : UndirectedGraph) (source : String) :
    DomainGraphService.ShortestPaths g.simple source (dijkstra g source) where
  reachable _ h := ⟨h.exists_walk_length_eq_dist.choose, h.exists_walk_length_eq_dist.choose_spec,
    dif_pos h⟩
  unreachable _ h := dif_neg h

noncomputable def services (d : String) : DomainGraphService :=
  match DomainGraphService.loadGraph dijkstra d lineOfTen with
  | .ok s => s
  | .error _ => SampleGraph.services d

theorem loadGraph_services {d : String} (h : d ∈ lineOfTen.names) :
    DomainGraphService.loadGraph dijkstra d lineOfTen = .ok (services d) := by
  obtain ⟨s, hs⟩ : ∃ s, DomainGraphService.loadGraph dijkstra d lineOfTen = .ok s :=
    DomainGraphService.exists_loadGraph (by decide +kernel) (by decide +kernel) h
  rw [services, hs]

noncomputable def federationOfTen : Federation where
  graph := lineOfTen
  dijkstra _ := dijkstra
  services := services
  domain := domain "domain-1" "domain-10" services
  domainName _ := rfl
  clientApps _ _ := rfl
  routes _ := rfl
  loaded _ hd := loadGraph_services hd
  shortest d _ := dijkstra_shortest (services d).graph d

/-- All domain users are connected. -/
def connected (d : String) : Processor.State where
  channels _ := some [⟨some d, some "connector-01", some 1⟩]

end SampleJourney

section

attribute [local instance] JavaChar.ascii

open SampleJourney

/-- The names of the domains are names of users. -/
theorem ready_of_names {F : Federation} {d : String} (hd : d ∈ F.graph.names)
    (hnames : ∀ n ∈ F.graph.names, isBlank (some n) = false ∧
      isConnectorUser (some (resolveDomainUserId (some n))) = false) : F.Ready d (connected d) where
  online t n hnext hne := by
    have hn : n ∈ F.graph.names := Federation.mem_of_next hd hnext hne
    refine ⟨(hnames n hn).1, (hnames n hn).2, _, rfl, List.cons_ne_nil _ _, ?_⟩
    intro a ha
    rw [List.mem_singleton.1 ha]
    exact Option.some_ne_none _

theorem ready_connected {d : String} (hd : d ∈ lineOfTen.names) :
    federationOfTen.Ready d (connected d) := by
  have hnames : ∀ n ∈ lineOfTen.names, isBlank (some n) = false ∧
      isConnectorUser (some (resolveDomainUserId (some n))) = false := by decide +kernel
  exact ready_of_names hd hnames

/-- In a connected graph, with all domain users connected, a message to the domain at the other end of
a line of ten is gone when it gets there. -/
theorem groupMessage_discarded :
    (∀ d ∈ federationOfTen.graph.names, federationOfTen.graph.network.Reachable "domain-1" d ∧
      federationOfTen.Ready d (connected d)) ∧
    federationOfTen.Discarded "domain-10" "domain-1"
      (CustomGroupMessageProcessor.processOtherDomain (federationOfTen.domain "domain-1").env
        (Processor.process (federationOfTen.domain "domain-1").env 2) (some "domain-10")
        [some "APP-105"] message ⟨some [some "APP-5", some "APP-105"], some "hello"⟩) := by
  refine ⟨fun d hd => ⟨reachable_first d hd, ready_connected hd⟩, ?_⟩
  have hdistinct : ∀ n ∈ lineOfTen.names, n ≠ "domain-10" →
      equalsIgnoreCase (some n) (some "domain-10") = false := by decide +kernel
  have hlast : "domain-10" ∈ lineOfTen.names := by decide +kernel
  have hfar : 9 ≤ lineOfTen.network.dist "domain-1" "domain-10" := by
    obtain ⟨p, hp⟩ := (reachable_first _ hlast).exists_walk_length_eq_dist
    have hplace := place_le_of_walk p
    rw [hp, (by decide +kernel : place "domain-10" = 9), (by decide +kernel : place "domain-1" = 0)]
      at hplace
    omega
  exact Federation.discarded_of_dist (F := federationOfTen) (r := 9) hdistinct
    (fun d hd => ⟨connected d, ready_connected hd, rfl⟩)
    (calls_processOtherDomain (m := message) rfl rfl rfl 0 "domain-10" [some "APP-105"] _)
    (fun _ h => h) (by decide +kernel) (reachable_first _ hlast) hfar (by omega)

end

end Linker
