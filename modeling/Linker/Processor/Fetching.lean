import Linker.Processor.Effects
import Linker.Processor.Delivery
import Linker.LTS.Basic

/-!
# Fetching what was missed

A `FETCH_MISSING_MESSAGES_REQUEST` hands the stored messages of its sender over to the post office,
oldest first and two thousand at most, and says how many are left.  The tunnels of `DomainService` ask
again as long as some are.

## Main results

* `serves_iff` : a request serves what can be delivered in spite of what cannot, exactly where
  everything can.
* `fetched_of_path` : successive requests hand over successive parts of what is stored.
* `fetching_drains` : together with how often a tunnel asks until nothing is left.
-/

namespace Linker.Processor

open ProcessorUtils ClientAppService PostOffice Exec
open FetchMissingMessagesMessageProcessor (fetchableStates MAX_COUNT leftCount completeMessage
  deliverAndRemove sendCompleteMessage)

/-! ### Tunnels -/

namespace DomainService

/-- `fetchMissingMessages`: what is sent over the tunnel. -/
def fetchMissingMessages : MessageContent :=
  createMessageContent .FETCH_MISSING_MESSAGES_REQUEST (.fetchMissingMessagesRequest (some 2000))
    (some .RELIABLE)

/-- `handleFetchingMessagesComplete`, with what is sent over the tunnel. -/
def handleFetchingMessagesComplete (data : Data) : List MessageContent :=
  match data with
  | .fetchMissingMessagesComplete (some leftMissingCount) =>
    if leftMissingCount > 0 then [fetchMissingMessages] else []
  | _ => []

/-- `onMessage`, with what is sent over the tunnel. -/
def onMessage (c : MessageContent) : List MessageContent :=
  if c.type = some .FETCH_MISSING_MESSAGES_COMPLETE then handleFetchingMessagesComplete c.data
  else []

/-- `onAuthenticated`, with what is sent over the tunnel. -/
def onAuthenticated : List MessageContent := [fetchMissingMessages]

end DomainService

section Main

variable [JavaChar] (E : Environment)

/-! ### Requests -/

def IsFetchable (m : Message) : Prop := ∃ st ∈ fetchableStates, m.state = some st

/-- The fetchable messages of a user, oldest first. -/
def waiting (u : String) (s : State) : List Message :=
  MessageRepository.found (some u) none fetchableStates s.messages

/-- The page that a request of the user looks at. -/
def pageFor (s : State) (u : String) (count : ℤ) : MessageRepository.Page :=
  MessageRepository.page (some u) none fetchableStates (min MAX_COUNT count).toNat s.messages

/-- A request of the user for some messages. -/
structure Requests (m : Message) (u : String) (count : ℤ) : Prop where
  from_ : m.from_ = some u
  data : m.data = .fetchMissingMessagesRequest (some count)

/-- The handler of the request. -/
def fetch (m : Message) : Proc Unit := (FetchMissingMessagesMessageProcessor.processor E).process m

/-- The reply to the request can be delivered in the domain. -/
structure CanAnswer (m : Message) : Prop where
  meta_ : m.meta_ ≠ none
  here : isLocal E (m.setTo m.from_) = true

/-- The messages have been delivered one after the other, and each was removed then. -/
inductive HandsOver : List Message → State → State → Prop
  | nil (s : State) : HandsOver [] s s
  | cons {r : Message} {l : List Message} {s s₁ s' : State} :
      (deliverMessage E r).run s = (.ok (), s₁) →
      HandsOver l { s₁ with messages := MessageRepository.erase r s₁.messages } s' →
      HandsOver (r :: l) s s'

/-- The request hands over what can be delivered, leaves in the store what cannot, and is answered. -/
def Serves (m : Message) (u : String) (s : State) : Prop :=
  ∃ l s₁ s' left, l.Sublist (waiting u s) ∧ (∀ r ∈ waiting u s, r ∈ l ↔ CanDeliver E s.channels r) ∧
    HandsOver E l s s₁ ∧
    (∀ r ∈ waiting u s, ¬ CanDeliver E s.channels r → r ∈ s₁.messages) ∧
    (sendCompleteMessage E m left).run s₁ = (.ok (), s') ∧ (fetch E m).run s = (.ok (), s')

variable {E} {m : Message} {u : String} {count : ℤ}

omit [JavaChar] in
theorem content_pageFor (s : State) (u : String) (count : ℤ) :
    (pageFor s u count).content = (waiting u s).take (min MAX_COUNT count).toNat := rfl

omit [JavaChar] in
theorem sorted_waiting (u : String) (s : State) :
    (waiting u s).Pairwise fun a b => a.createdAt ≤ b.createdAt :=
  MessageRepository.sorted_found _ _ _ _

omit [JavaChar] in
theorem mem_waiting {s : State} {r : Message} :
    r ∈ waiting u s ↔ r ∈ s.messages ∧ r.to_ = some u ∧ IsFetchable r := by
  rw [waiting, MessageRepository.mem_found]
  refine and_congr_right fun _ => ?_
  simp only [MessageRepository.criteria, Bool.and_true, Bool.and_eq_true, beq_iff_eq,
    List.any_eq_true, IsFetchable]

open FetchMissingMessagesMessageProcessor in
/-- The handler of the request goes through this page. -/
theorem run_fetchMissing (hfrom : m.from_ = some u) (hcount : 1 ≤ count) (s : State) :
    ((FetchMissingMessagesMessageProcessor.processor E).doProcess m (some (some count))).run s =
      (do
        deliverAndRemove E m (pageFor s u count).content
        sendCompleteMessage E m (leftCount (pageFor s u count)) : Proc Unit).run s := by
  have hsize : ¬ min MAX_COUNT count < 1 := by
    have hmax : MAX_COUNT = 2000 := rfl
    omega
  have hfind : (MessageRepository.findMessages (some u) none fetchableStates (min MAX_COUNT count)
      m).run s = (.ok (pageFor s u count), s) := by
    rw [MessageRepository.findMessages, if_neg hsize]
    rfl
  simp only [FetchMissingMessagesMessageProcessor.processor, orNullPointer, Exec.run_pure_bind, hfrom]
  rw [Exec.run_bind_ok hfind]

theorem run_fetch (h : Requests m u count) (hcount : 1 ≤ count) (s : State) :
    (fetch E m).run s = (do
      deliverAndRemove E m (pageFor s u count).content
      sendCompleteMessage E m (leftCount (pageFor s u count)) : Proc Unit).run s := by
  obtain ⟨c, hc, hcd⟩ : ∃ c, m.content = some c ∧ c.data = .fetchMissingMessagesRequest (some count) := by
    have hd := h.data
    rcases hc : m.content with _ | c
    · rw [MessageOf.data, hc] at hd
      cases hd
    · rw [MessageOf.data, hc] at hd
      exact ⟨c, rfl, hd⟩
  have hget : (getData Data.fetchMissingMessagesRequest? m).run s = (.ok (some (some count)), s) :=
    run_getData hc (by rw [hcd]; rfl) s
  rw [fetch, MessageProcessor.process, ← run_fetchMissing h.from_ hcount]
  exact run_bind_ok hget

omit [JavaChar] in
/-- A stored message of the user is on the page, where the page has room for all of them. -/
theorem mem_pageFor {s : State} (hm : m ∈ s.messages) (hto : m.to_ = some u) (hst : IsFetchable m)
    (hcount : ((MessageRepository.found (some u) none fetchableStates s.messages).length : ℤ) ≤
      min MAX_COUNT count) : m ∈ (pageFor s u count).content := by
  rw [content_pageFor, List.take_of_length_le (by rw [waiting]; omega)]
  exact mem_waiting.2 ⟨hm, hto, hst⟩

/-! ### The reply -/

theorem isLocal_completeMessage (blank : Message) (left : ℤ) :
    isLocal E (completeMessage blank m left) = isLocal E (m.setTo m.from_) := rfl

theorem canDeliver_completeMessage (channels : String → Option (List Address)) (blank : Message)
    (left : ℤ) : CanDeliver E channels (completeMessage blank m left) ↔ CanAnswer E m := by
  constructor
  · rintro ⟨hmeta, -, v, hroute, -⟩
    refine ⟨hmeta, ?_⟩
    rw [← isLocal_completeMessage (E := E) blank left]
    unfold routedTo at hroute
    split_ifs at hroute with hloc htype
    · exact hloc
    · cases htype
  · rintro ⟨hmeta, hloc⟩
    refine ⟨hmeta, nofun, _, by rw [routedTo, isLocal_completeMessage, if_pos hloc], ?_⟩
    intro hnone
    cases hnone

/-- The request is answered where it can be, and throws where it cannot. -/
theorem exists_run_sendCompleteMessage (h : CanAnswer E m) (left : ℤ) (s : State) :
    ∃ s', (sendCompleteMessage E m left).run s = (.ok (), s') := by
  obtain ⟨s', hsend⟩ := exists_run_deliverMessage (E := E) (s := s.next)
    ((canDeliver_completeMessage s.next.channels (E.blank s.serial) left).2 h)
  refine ⟨s', ?_⟩
  rw [sendCompleteMessage, run_bind_ok (run_builder E s)]
  exact run_reraise_ok hsend

theorem canAnswer_of_run {left : ℤ} {s s' : State}
    (h : (sendCompleteMessage E m left).run s = (.ok (), s')) : CanAnswer E m := by
  by_contra hcon
  obtain ⟨e, picks, he⟩ := run_deliverMessage_error (E := E) (s := s.next)
    (mt (canDeliver_completeMessage s.next.channels (E.blank s.serial) left).1 hcon)
  rw [sendCompleteMessage, run_bind_ok (run_builder E s), run_reraise, he] at h
  cases h

/-! ### The loop over the page -/

theorem channels_deliverMessage {r : Message} {s s' : State} {x : Except Thrown Unit}
    (h : (deliverMessage E r).run s = (x, s')) : s'.channels = s.channels := by
  have hmoves := (moves_deliverMessage (E := E) r s).channels
  rw [h] at hmoves
  exact hmoves

/-- One round of the loop. -/
theorem run_deliverAndRemove_cons {r : Message} {l : List Message} {s s₁ : State}
    (h : (deliverMessage E r).run s = (.ok (), s₁)) :
    (deliverAndRemove E m (r :: l)).run s =
      (deliverAndRemove E m l).run { s₁ with messages := MessageRepository.erase r s₁.messages } := by
  have hround : (Proc.during m (do
      deliverMessage E r
      MessageRepository.remove r) : Proc Unit).run s =
      (.ok (), { s₁ with messages := MessageRepository.erase r s₁.messages }) :=
    run_reraise_ok (run_bind_ok h)
  rw [deliverAndRemove, run_forEach_cons, run_bind_ok hround]
  rfl

/-- The loop comes to its end where everything can be delivered. -/
theorem handsOver_of_canDeliver (m : Message) {l : List Message} {s : State}
    (h : ∀ r ∈ l, CanDeliver E s.channels r) :
    ∃ s', (deliverAndRemove E m l).run s = (.ok (), s') ∧ HandsOver E l s s' := by
  induction l generalizing s with
  | nil => exact ⟨s, rfl, .nil s⟩
  | cons r l ih =>
    obtain ⟨s₁, hsend⟩ := exists_run_deliverMessage (h r List.mem_cons_self)
    have hchannels := channels_deliverMessage hsend
    obtain ⟨s', hrun, hhands⟩ := ih
      (s := { s₁ with messages := MessageRepository.erase r s₁.messages }) fun x hx => by
        rw [show ({ s₁ with messages := MessageRepository.erase r s₁.messages } : State).channels =
          s.channels from hchannels]
        exact h x (List.mem_cons_of_mem r hx)
    exact ⟨s', by rw [run_deliverAndRemove_cons hsend, hrun], .cons hsend hhands⟩

/-- The loop ends at the first message that cannot be delivered. -/
theorem run_deliverAndRemove_error (m : Message) {l : List Message} {s : State}
    (h : ∃ r ∈ l, ¬ CanDeliver E s.channels r) :
    ∃ e s', (deliverAndRemove E m l).run s = (.error e, s') := by
  induction l generalizing s with
  | nil =>
    obtain ⟨r, hr, -⟩ := h
    cases hr
  | cons r l ih =>
    by_cases hcan : CanDeliver E s.channels r
    · obtain ⟨s₁, hsend⟩ := exists_run_deliverMessage hcan
      have hchannels := channels_deliverMessage hsend
      obtain ⟨x, hx, hnot⟩ := h
      rw [run_deliverAndRemove_cons hsend]
      refine ih ⟨x, ?_, by rw [show ({ s₁ with messages := MessageRepository.erase r s₁.messages } :
        State).channels = s.channels from hchannels]; exact hnot⟩
      rcases List.mem_cons.1 hx with rfl | hx
      · exact absurd hcan hnot
      · exact hx
    · obtain ⟨e, picks, hsend⟩ := run_deliverMessage_error hcan
      have hround : ∃ e, (Proc.during m (do
          deliverMessage E r
          MessageRepository.remove r) : Proc Unit).run s = (.error e, s.picking picks) := by
        rw [Proc.during, run_reraise, run_bind_error hsend]
        exact ⟨_, rfl⟩
      obtain ⟨e', hround⟩ := hround
      rw [deliverAndRemove, run_forEach_cons]
      exact ⟨e', s.picking picks, run_bind_error hround⟩

/-- A request with room for all that is stored goes through all of it. -/
theorem run_fetch_all (h : Requests m u count) (hcount : 1 ≤ count) {s : State}
    (hroom : ((waiting u s).length : ℤ) ≤ min MAX_COUNT count) :
    (fetch E m).run s = (do
      deliverAndRemove E m (waiting u s)
      sendCompleteMessage E m (leftCount (pageFor s u count)) : Proc Unit).run s := by
  have hpage : (pageFor s u count).content = waiting u s := by
    rw [content_pageFor, List.take_of_length_le (by omega)]
  rw [run_fetch h hcount, hpage]

/-- A message that cannot be delivered blocks the others. -/
theorem canDeliver_of_serves (h : Requests m u count) (hcount : 1 ≤ count) {s : State}
    (hroom : ((waiting u s).length : ℤ) ≤ min MAX_COUNT count) (hserves : Serves E m u s) :
    (∀ r ∈ waiting u s, CanDeliver E s.channels r) ∧ CanAnswer E m := by
  obtain ⟨l, s₁, s', left, -, -, -, -, hreply, hfetch⟩ := hserves
  refine ⟨?_, canAnswer_of_run hreply⟩
  by_contra hblocked
  push Not at hblocked
  obtain ⟨e, s₂, he⟩ := run_deliverAndRemove_error m hblocked
  rw [run_fetch_all h hcount hroom, run_bind_error he] at hfetch
  cases hfetch

/-- **A message that cannot be delivered blocks the others**: a request with room for all that is
stored serves what can be delivered if and only if everything can, and it can be answered. -/
theorem serves_iff (h : Requests m u count) (hcount : 1 ≤ count) {s : State}
    (hroom : ((waiting u s).length : ℤ) ≤ min MAX_COUNT count) :
    Serves E m u s ↔ (∀ r ∈ waiting u s, CanDeliver E s.channels r) ∧ CanAnswer E m := by
  refine ⟨canDeliver_of_serves h hcount hroom, ?_⟩
  rintro ⟨hall, hanswer⟩
  obtain ⟨s₁, hloop, hhands⟩ := handsOver_of_canDeliver m hall
  obtain ⟨s', hreply⟩ := exists_run_sendCompleteMessage hanswer (leftCount (pageFor s u count)) s₁
  refine ⟨waiting u s, s₁, s', _, .refl _, fun r hr => iff_of_true hr (hall r hr), hhands,
    fun r hr hnot => absurd (hall r hr) hnot, hreply, ?_⟩
  rw [run_fetch_all h hcount hroom, run_bind_ok hloop, hreply]

/-! ### Deliveries that succeed -/

/-- The message can be delivered, and has an address to be delivered at. -/
structure Ready (E : Environment) (channels : String → Option (List Address)) (m : Message) :
    Prop where
  id : m.id ≠ none
  meta_ : m.meta_ ≠ none
  feature : m.feature ≠ none
  route : ∃ v, routedTo E m = some v ∧ HasTarget channels v ∧
    ∀ a ∈ (v.bind channels).getD [], a.connectorName ≠ none

/-- Copies of the message on the topics of connectors. -/
structure Delivers (channels : String → Option (List Address)) (m : Message) (ps : List Parcel) :
    Prop where
  ne_nil : ps ≠ []
  same : ∀ p ∈ ps, p.message.id = m.id ∧ p.message.content = m.content ∧ p.message.from_ = m.from_
  to_ : m.type ≠ some .INTERNAL_MESSAGE → ∀ p ∈ ps, p.message.to_ = m.to_
  /-- One copy for a recipient in the domain who has one address. -/
  single : m.type ≠ some .INTERNAL_MESSAGE → ∀ a, m.to_.bind channels = some [a] → ps.length = 1

omit [JavaChar] in
theorem chosen_singleton (d : Option DeliveryType) (a : Address) (s : State) :
    chosen d [a] s = [a] := by
  unfold chosen
  split
  · rfl
  · simp [Nat.mod_one]

/-- A recipient with one address has one target. -/
theorem length_targets {v : Option String} {d : Option DeliveryType} {s : State} {a : Address}
    (hblank : isBlank v = false) (h : v.bind s.channels = some [a]) : (targets E v d s).length = 1 := by
  unfold targets
  rw [hblank, if_neg Bool.false_ne_true]
  split
  · rfl
  · rw [h, Option.map_some, Option.getD_some, chosen_singleton]
    rfl

theorem connectorName_of_mem_targets {v : Option String} {d : Option DeliveryType} {s : State}
    (hnamed : ∀ a ∈ (v.bind s.channels).getD [], a.connectorName ≠ none) {a : Address}
    (ha : a ∈ targets E v d s) : a.connectorName ≠ none := by
  unfold targets at ha
  split_ifs at ha with hblank hconn
  · cases ha
  · rw [List.mem_singleton.1 ha]
    rintro hnone
    exact hblank (by rw [show v = none from hnone]; rfl)
  · rcases hl : v.bind s.channels with _ | l
    · rw [hl] at ha
      cases ha
    · rw [hl] at ha hnamed
      exact hnamed a (mem_chosen ha)

/-- What is sent to a recipient with an address. -/
theorem exists_run_sendToConnector_targets {x : Message} {t : MessageMeta} {c : MessageContent}
    {i : String} {f : MessageFeature} (ht : x.meta_ = some t) (hc : x.content = some c)
    (hid : x.id = some i) (hf : c.feature = some f) {s : State} (hr : s.refused = [])
    (htarget : HasTarget s.channels x.to_)
    (hnamed : ∀ a ∈ (x.to_.bind s.channels).getD [], a.connectorName ≠ none) :
    ∃ picks ps, (sendToConnector E x).run s = (.ok (), (s.picking picks).post ps) ∧ ps ≠ [] ∧
      (∀ p ∈ ps, p.message.id = x.id ∧ p.message.content = x.content ∧ p.message.from_ = x.from_) ∧
      (∀ p ∈ ps, p.message.to_ = x.to_) ∧ ∀ a, x.to_.bind s.channels = some [a] → ps.length = 1 := by
  have hne : targets E x.to_ (adjusted E x).deliveryType s ≠ [] := targets_ne_nil_iff.2 htarget
  obtain ⟨picks, hsend⟩ := run_sendToConnector (E := E) ht hc hid hf hr
    fun a ha => connectorName_of_mem_targets hnamed ha
  have hletter := letter_adjusted (E := E) x
  refine ⟨picks, _, by rw [hsend, State.sentOut, if_neg hne], by simpa using hne, ?_, ?_, ?_⟩
  · intro p hp
    obtain ⟨a, -, rfl⟩ := List.mem_map.1 hp
    exact ⟨id_adjusted x, hletter.content, hletter.from_⟩
  · intro p hp
    obtain ⟨a, -, rfl⟩ := List.mem_map.1 hp
    exact hletter.to_
  · intro a ha
    rw [List.length_map]
    exact length_targets htarget.1 ha

/-- **A delivery that succeeds** puts copies of the message on topics. -/
theorem exists_run_deliverMessage_ready {x : Message} {s : State} (h : Ready E s.channels x)
    (hr : s.refused = []) : ∃ picks ps, (deliverMessage E x).run s =
      (.ok (), (s.picking picks).post ps) ∧ Delivers s.channels x ps := by
  obtain ⟨hid, hmeta, hfeature, v, hroute, htarget, hnamed⟩ := h
  obtain ⟨i, hid⟩ := Option.ne_none_iff_exists'.1 hid
  obtain ⟨t, ht⟩ := Option.ne_none_iff_exists'.1 hmeta
  obtain ⟨f, hf⟩ := Option.ne_none_iff_exists'.1 hfeature
  obtain ⟨c, hc, hcf⟩ := Option.bind_eq_some_iff.1 hf
  obtain ⟨t', ht', -, -⟩ := meta_populated (E := E) ht
  have hletter := letter_populated (E := E) x
  have hc' : (populated E x).content = some c := hletter.content.trans hc
  have hid' : (populated E x).id = some i := (id_populated x).trans hid
  -- only a wrapper is routed to somebody else
  have hself : x.type ≠ some .INTERNAL_MESSAGE → v = x.to_ := by
    intro htype
    rw [routedTo, if_neg htype] at hroute
    split_ifs at hroute
    cases hroute
    rfl
  obtain ⟨picks, ps, hsend, hne, hsame, hto, hsingle⟩ := exists_run_sendToConnector_targets (E := E)
    (x := (populated E x).setTo v) ht' hc' hid' hcf hr htarget hnamed
  refine ⟨picks, ps, ?_, hne, fun p hp => ?_, fun htype p hp => (hto p hp).trans (hself htype),
    fun htype a ha => hsingle a ?_⟩
  · rw [run_deliverMessage_routed ht hc hroute, hsend]
  · obtain ⟨h₁, h₂, h₃⟩ := hsame p hp
    exact ⟨h₁.trans (id_populated x), h₂.trans hletter.content, h₃.trans hletter.from_⟩
  · rw [MessageOf.setTo_to, hself htype]
    exact ha

/-- The stores after messages have been handed over. -/
def State.handOver (l : List Message) (ps : List Parcel) (s : State) : State :=
  { s.post ps with messages := MessageRepository.eraseAll l s.messages }

/-- The loop over messages that are ready hands all of them over, in order. -/
theorem exists_run_deliverAndRemove (m : Message) {l : List Message} {s : State}
    (h : ∀ r ∈ l, Ready E s.channels r) (hr : s.refused = []) :
    ∃ picks batches, (deliverAndRemove E m l).run s =
      (.ok (), (s.picking picks).handOver l batches.flatten) ∧
      List.Forall₂ (Delivers s.channels) l batches := by
  induction l generalizing s with
  | nil =>
    refine ⟨s.picks, [], ?_, .nil⟩
    rw [State.handOver, MessageRepository.eraseAll_nil, State.post]
    simp only [List.flatten_nil, List.append_nil]
    rfl
  | cons r l ih =>
    obtain ⟨picks, ps, hsend, hdelivers⟩ := exists_run_deliverMessage_ready (h r List.mem_cons_self) hr
    obtain ⟨picks', batches, hrun, hrest⟩ := ih (s := { (s.picking picks).post ps with
      messages := MessageRepository.erase r s.messages }) (fun x hx => h x (List.mem_cons_of_mem r hx)) hr
    refine ⟨picks', ps :: batches, ?_, .cons hdelivers hrest⟩
    have hround := run_deliverAndRemove_cons (m := m) (l := l) hsend
    rw [hround]
    refine hrun.trans ?_
    simp only [State.handOver, State.post, State.picking, MessageRepository.eraseAll_cons,
      List.flatten_cons, List.append_assoc]

/-! ### One request -/

/-- Nothing keeps the messages of the user from being delivered. -/
structure Fetchable (E : Environment) (u : String) (s : State) : Prop where
  ids : (s.messages.map (·.id)).Nodup
  ready : ∀ r ∈ waiting u s, Ready E s.channels r
  address : HasTarget s.channels (some u)
  named : ∀ a ∈ (s.channels u).getD [], a.connectorName ≠ none

/-- A request for `count` messages has handed over `page`. -/
structure Fetched (u : String) (count : ℤ) (page : List Message) (s s' : State) : Prop where
  oldest : waiting u s = page ++ waiting u s'
  sorted : (waiting u s).Pairwise fun a b => a.createdAt ≤ b.createdAt
  length : page.length = min (min MAX_COUNT count).toNat (waiting u s).length
  /-- Nothing else is removed. -/
  stored : s'.messages.Sublist s.messages ∧ ∀ r ∈ s.messages, r ∈ s'.messages ↔ r ∉ page
  /-- The copies of every message, in order, and those of the reply. -/
  sent : ∃ batches reply, s'.parcels = s.parcels ++ batches.flatten ++ reply ∧
    List.Forall₂ (Delivers s.channels) page batches ∧ ∃ blank m : Message, m.from_ = some u ∧
      Delivers s.channels (completeMessage blank m (waiting u s').length) reply

omit [JavaChar] in
theorem nodup_waiting {s : State} (h : (s.messages.map (·.id)).Nodup) (u : String) :
    ((waiting u s).map (·.id)).Nodup := by
  have hperm : (waiting u s).Perm (s.messages.filter
      (MessageRepository.criteria (some u) none fetchableStates)) := List.perm_insertionSort _ _
  refine (hperm.map _).nodup_iff.2 ?_
  exact h.sublist (List.filter_sublist.map _)

omit [JavaChar] in
/-- What waits after the first messages have been removed. -/
theorem waiting_eraseAll {s s' : State} (hids : (s.messages.map (·.id)).Nodup) (n : ℕ)
    (h : s'.messages = MessageRepository.eraseAll ((waiting u s).take n) s.messages) :
    waiting u s' = (waiting u s).drop n := by
  have hfound : waiting u s' = (waiting u s).filter fun r => r.id ∉ ((waiting u s).take n).map (·.id) := by
    rw [waiting, h]
    exact MessageRepository.found_eraseAll _ _ _ _ _
  rw [hfound]
  exact filter_take_eq_drop (nodup_waiting hids u) n

/-- The reply is ready where the user has an address. -/
theorem ready_completeMessage {s : State} (hs : Fetchable E u s) (hfrom : m.from_ = some u)
    (h : CanAnswer E m) (n : ℕ) (left : ℤ) :
    Ready E s.channels (completeMessage (E.blank n) m left) where
  id := Option.some_ne_none _
  meta_ := h.meta_
  feature := Option.some_ne_none _
  route := by
    refine ⟨some u, ?_, hs.address, hs.named⟩
    rw [routedTo, isLocal_completeMessage, if_pos h.here]
    exact congrArg some hfrom

/-- What is left can still be fetched. -/
theorem Fetched.fetchable {page : List Message} {s s' : State} (h : Fetched u count page s s')
    (hchannels : s'.channels = s.channels) (hs : Fetchable E u s) : Fetchable E u s' where
  ids := hs.ids.sublist (h.stored.1.map _)
  ready r hr := by
    rw [hchannels]
    exact hs.ready r (h.oldest ▸ List.mem_append_right _ hr)
  address := by
    rw [hchannels]
    exact hs.address
  named := by
    rw [hchannels]
    exact hs.named

/-- **One request** hands over the oldest messages, as many as it asks for and two thousand at most. -/
theorem exists_fetched (h : Requests m u count) (hcount : 1 ≤ count) {s : State}
    (hs : Fetchable E u s) (hanswer : CanAnswer E m) (hr : s.refused = []) :
    ∃ s', (fetch E m).run s = (.ok (), s') ∧ s'.channels = s.channels ∧
      Fetched u count (pageFor s u count).content s s' := by
  have hpage := content_pageFor s u count
  obtain ⟨picks, batches, hloop, hbatches⟩ := exists_run_deliverAndRemove (E := E) m
    (l := (pageFor s u count).content)
    (fun r hmem => hs.ready r (List.mem_of_mem_take (hpage ▸ hmem))) hr
  have hready := ready_completeMessage hs h.from_ hanswer s.serial (leftCount (pageFor s u count))
  obtain ⟨picks', ps, hsend, hdelivers⟩ := exists_run_deliverMessage_ready (E := E)
    (s := ((s.picking picks).handOver (pageFor s u count).content batches.flatten).next) hready hr
  have hreply : (sendCompleteMessage E m (leftCount (pageFor s u count))).run
      ((s.picking picks).handOver (pageFor s u count).content batches.flatten) =
      (.ok (), (((s.picking picks).handOver (pageFor s u count).content
        batches.flatten).next.picking picks').post ps) := by
    rw [sendCompleteMessage, run_bind_ok (run_builder E _)]
    exact run_reraise_ok hsend
  have hwaiting : waiting u ((((s.picking picks).handOver (pageFor s u count).content
      batches.flatten).next.picking picks').post ps) =
      (waiting u s).drop (min MAX_COUNT count).toNat := waiting_eraseAll hs.ids _ rfl
  have hrun := run_fetch (E := E) h hcount s
  rw [run_bind_ok hloop, hreply] at hrun
  refine ⟨_, hrun, rfl, ?_, sorted_waiting u s, ?_, ⟨?_, ?_⟩, ?_⟩
  · rw [hwaiting, hpage, List.take_append_drop]
  · rw [hpage, List.length_take]
  · exact List.filter_sublist
  · intro r hmem
    -- records are told apart by their ids
    have hinj : ∀ x ∈ (pageFor s u count).content, x.id = r.id → x = r := by
      intro x hx hid
      have hxmem : x ∈ s.messages := (mem_waiting.1 (List.mem_of_mem_take (hpage ▸ hx))).1
      exact List.inj_on_of_nodup_map hs.ids hxmem hmem hid
    show r ∈ MessageRepository.eraseAll _ s.messages ↔ _
    rw [MessageRepository.eraseAll, List.mem_filter, decide_eq_true_iff, List.mem_map]
    refine ⟨fun h hr => h.2 ⟨r, hr, rfl⟩, fun hr => ⟨hmem, ?_⟩⟩
    rintro ⟨x, hx, hid⟩
    exact hr (hinj x hx hid ▸ hx)
  · refine ⟨batches, ps, rfl, hbatches, E.blank s.serial, m, h.from_, ?_⟩
    have hleft : leftCount (pageFor s u count) =
        ((waiting u s).drop (min MAX_COUNT count).toNat).length := by
      rw [leftCount, hpage, List.length_take, List.length_drop]
      show ((waiting u s).length : ℤ) - _ = _
      omega
    rw [hwaiting, ← hleft]
    exact hdelivers

/-! ### Successive requests -/

inductive FetchEvent where
  /-- A request of the user is handled. -/
  | request (m : Message) (count : ℤ) (picks : List ℕ)
  /-- Something else happens in the domain. -/
  | others (s : State)

def fetches (E : Environment) : System State FetchEvent where
  step s
    | .request m _ picks => some ((fetch E m).run (s.drawing { picks })).2
    | .others s' => some s'

/-- Requests are for one message at least and nothing keeps them from being served; nothing else
stores messages for the user or takes them away. -/
def Undisturbed (E : Environment) (u : String) (s : State) : FetchEvent → Prop
  | .request m count _ => Requests m u count ∧ 1 ≤ count ∧ Fetchable E u s ∧ CanAnswer E m
  | .others s' => waiting u s' = waiting u s

/-- The messages that a step hands over to the user. -/
def handedOver (u : String) (st : System.Step State FetchEvent) : List Message :=
  match st.event with
  | .request _ count _ => (pageFor st.before u count).content
  | .others _ => []

/-- What a step hands over, and what is left. -/
theorem fetched_of_step {s s' : State} {e : FetchEvent} (hok : Undisturbed E u s e)
    (hst : (fetches E).step s e = some s') :
    handedOver u ⟨s, e, s'⟩ ++ waiting u s' = waiting u s ∧
      ∀ m count picks, e = .request m count picks →
        Fetched u count (handedOver u ⟨s, e, s'⟩) s s' := by
  cases e with
  | others t =>
    cases hst
    exact ⟨hok, fun _ _ _ h => by cases h⟩
  | request m count picks =>
    obtain ⟨hreq, hcount, hs, hanswer⟩ := hok
    have hs' : Fetchable E u (s.drawing { picks }) := ⟨hs.ids, hs.ready, hs.address, hs.named⟩
    obtain ⟨s'', hrun, -, hfetched⟩ := exists_fetched hreq hcount hs' hanswer rfl
    have hafter : s' = s'' := by
      have hfetch : s' = ((fetch E m).run (s.drawing { picks })).2 := (Option.some.inj hst).symm
      rw [hfetch, hrun]
    subst hafter
    refine ⟨hfetched.oldest.symm, ?_⟩
    rintro m' count' picks' h
    cases h
    exact ⟨hfetched.oldest, hfetched.sorted, hfetched.length, hfetched.stored, hfetched.sent⟩

/-- Where something has been handed over, the repository kept its records apart at the start. -/
theorem nodup_of_path {s₀ s : State} {l : List (System.Step State FetchEvent)}
    (h : (fetches E).Path (Undisturbed E u) s₀ l s)
    (hsplit : ∀ l' t, (fetches E).Path (Undisturbed E u) s₀ l' t →
      l'.flatMap (handedOver u) ++ waiting u t = waiting u s₀) :
    l.flatMap (handedOver u) = [] ∨ ((waiting u s₀).map (·.id)).Nodup := by
  induction h with
  | nil => exact .inl rfl
  | @snoc l s s' e hpath hok hst ih =>
    refine ih.elim (fun hnil => ?_) .inr
    cases e with
    | others t =>
      refine .inl ?_
      rw [List.flatMap_append, hnil]
      rfl
    | request m count picks =>
      obtain ⟨-, -, hs, -⟩ := hok
      have hsame := hsplit l s hpath
      rw [hnil, List.nil_append] at hsame
      exact .inr (hsame ▸ nodup_waiting hs.ids u)

/-- **Successive requests** hand over successive parts of what is stored, and no message twice. -/
theorem fetched_of_path {s₀ s : State} {l : List (System.Step State FetchEvent)}
    (h : (fetches E).Path (Undisturbed E u) s₀ l s) :
    (∀ st ∈ l, ∀ m count picks, st.event = .request m count picks →
      Fetched u count (handedOver u st) st.before st.after) ∧
    l.flatMap (handedOver u) ++ waiting u s = waiting u s₀ ∧
    ((l.flatMap (handedOver u)).map (·.id)).Nodup := by
  have hsplit : ∀ l' t, (fetches E).Path (Undisturbed E u) s₀ l' t →
      l'.flatMap (handedOver u) ++ waiting u t = waiting u s₀ := by
    intro l' t hpath
    induction hpath with
    | nil => rfl
    | snoc _ hok hst ih =>
      rw [List.flatMap_append, List.flatMap_singleton, List.append_assoc, (fetched_of_step hok hst).1, ih]
  refine ⟨?_, hsplit l s h, ?_⟩
  · intro st hmem
    obtain ⟨-, hok, hst⟩ := h.of_mem hmem
    exact (fetched_of_step hok hst).2
  · rcases nodup_of_path h hsplit with hnil | hnodup
    · rw [hnil]
      exact .nil
    · rw [← hsplit l s h, List.map_append] at hnodup
      exact hnodup.of_append_left

/-! ### The loop of a tunnel -/

/-- What a message has a tunnel send. -/
def reaction (m : Message) : List MessageContent := (m.content.map DomainService.onMessage).getD []

/-- How often stored messages have a tunnel ask again. -/
def again (l : List Message) : ℕ := (l.flatMap reaction).length

/-- A tunnel and the domain that it is connected to: the requests that have not been handled, and the
stores. -/
structure Exchange where
  pending : List MessageContent
  store : State

/-- A request is handled, and the tunnel sees what is put on the topics for it. -/
def exchange (E : Environment) : System Exchange (Message × List ℕ) where
  step x e :=
    match x.pending with
    | [] => none
    | _ :: rest =>
      let s' := ((fetch E e.1).run (x.store.drawing { picks := e.2 })).2
      some ⟨rest ++ (s'.parcels.drop x.store.parcels.length).flatMap fun p => reaction p.message, s'⟩

/-- The message that is built around a request of the tunnel of the user `u`. -/
def Asks (E : Environment) (u : String) (x : Exchange) (e : Message × List ℕ) : Prop :=
  e.1.from_ = some u ∧ CanAnswer E e.1 ∧ ∃ c rest, x.pending = c :: rest ∧ e.1.content = some c

/-- The tunnel of the user `u` is the only one, and nothing keeps the messages of `u` from being
delivered over it. -/
structure Connected (E : Environment) (u : String) (s : State) : Prop extends Fetchable E u s where
  alone : ∃ a, s.channels u = some [a]
  home : equalsIgnoreCase (some E.domainName) (resolveDomain E (some u)) = true

/-- How many requests are still to be handled. -/
def fetchesLeft (u : String) (x : Exchange) : ℕ :=
  if x.pending.length = 0 then 0
  else x.pending.length + (((waiting u x.store).length + 1999) / 2000 - 1) + again (waiting u x.store)

omit [JavaChar] in
theorem fetchesLeft_cons (c : MessageContent) (rest : List MessageContent) (s : State) :
    fetchesLeft u ⟨c :: rest, s⟩ = rest.length + 1 + (((waiting u s).length + 1999) / 2000 - 1) +
      again (waiting u s) := if_neg (Nat.succ_ne_zero _)

/-- What holds between two requests. -/
structure Fetching (E : Environment) (u : String) (x : Exchange) : Prop where
  connected : Connected E u x.store
  pending : ∀ c ∈ x.pending, c = DomainService.fetchMissingMessages
  done : x.pending = [] → waiting u x.store = []

omit [JavaChar] in
/-- The tunnel sees one copy of a message, unless the message is none for it. -/
theorem reaction_delivers {channels : String → Option (List Address)} {r : Message}
    {ps : List Parcel} {a : Address} (h : Delivers channels r ps) (ha : r.to_.bind channels = some [a]) :
    (ps.flatMap fun p => reaction p.message) = reaction r := by
  have hsame : ∀ p ∈ ps, reaction p.message = reaction r := by
    intro p hp
    rw [reaction, (h.same p hp).2.1, reaction]
  by_cases htype : r.type = some .INTERNAL_MESSAGE
  · have hnone : reaction r = [] := by
      obtain ⟨c, hc, hct⟩ := Option.bind_eq_some_iff.1 htype
      rw [reaction, hc, Option.map_some, Option.getD_some, DomainService.onMessage, hct,
        if_neg (by decide)]
    rw [hnone, List.flatMap_eq_nil_iff]
    exact fun p hp => (hsame p hp).trans hnone
  · obtain ⟨p, rfl⟩ := List.length_eq_one_iff.1 (h.single htype a ha)
    rw [List.flatMap_singleton]
    exact hsame p (List.mem_singleton_self p)

omit [JavaChar] in
theorem reaction_page {channels : String → Option (List Address)} {page : List Message}
    {batches : List (List Parcel)} {a : Address} (h : List.Forall₂ (Delivers channels) page batches)
    (ha : ∀ r ∈ page, r.to_.bind channels = some [a]) :
    (batches.flatten.flatMap fun p => reaction p.message) = page.flatMap reaction := by
  induction h with
  | nil => rfl
  | @cons r ps page batches hr _ ih =>
    rw [List.flatten_cons, List.flatMap_append, List.flatMap_cons,
      reaction_delivers hr (ha r List.mem_cons_self), ih fun x hx => ha x (List.mem_cons_of_mem r hx)]

omit [JavaChar] in
theorem reaction_completeMessage (blank m : Message) (left : ℕ) :
    reaction (completeMessage blank m left) =
      if 0 < left then [DomainService.fetchMissingMessages] else [] := by
  have hrun : reaction (completeMessage blank m left) =
      if (left : ℤ) > 0 then [DomainService.fetchMissingMessages] else [] := rfl
  rw [hrun]
  split_ifs with h₁ h₂ h₂
  · rfl
  · omega
  · omega
  · rfl

omit [JavaChar] in
theorem eq_of_mem_reaction {r : Message} {c : MessageContent} (h : c ∈ reaction r) :
    c = DomainService.fetchMissingMessages := by
  rcases hc : r.content with _ | c'
  · rw [reaction, hc] at h
    cases h
  · rw [reaction, hc, Option.map_some, Option.getD_some, DomainService.onMessage] at h
    split_ifs at h
    · unfold DomainService.handleFetchingMessagesComplete at h
      split at h
      · split_ifs at h
        · exact List.mem_singleton.1 h
        · cases h
      · cases h
    · cases h

/-- **One round of the loop** is one request less to be handled. -/
theorem fetching_step {x x' : Exchange} {e : Message × List ℕ} (hx : Fetching E u x)
    (hok : Asks E u x e) (hst : (exchange E).step x e = some x') :
    Fetching E u x' ∧ fetchesLeft u x = fetchesLeft u x' + 1 := by
  obtain ⟨m, picks⟩ := e
  obtain ⟨pending, s⟩ := x
  obtain ⟨hfrom, hanswer, c, rest, hpend, hcontent⟩ := hok
  have hpend : pending = c :: rest := hpend
  subst hpend
  have hc : c = DomainService.fetchMissingMessages := hx.pending c List.mem_cons_self
  have hreq : Requests m u 2000 := by
    refine ⟨hfrom, ?_⟩
    have hcontent : m.content = some c := hcontent
    rw [MessageOf.data, hcontent, hc]
    rfl
  have hs : Connected E u s := hx.connected
  obtain ⟨a, ha⟩ := hs.alone
  have hs' : Fetchable E u (s.drawing { picks }) := ⟨hs.ids, hs.ready, hs.address, hs.named⟩
  obtain ⟨s', hrun, hchannels, hfetched⟩ := exists_fetched hreq (by omega) hs' hanswer rfl
  obtain ⟨batches, reply, hparcels, hbatches, blank, m', hfrom', hreply⟩ := hfetched.sent
  have hpage : ∀ r ∈ (pageFor (s.drawing { picks }) u 2000).content,
      r.to_.bind s.channels = some [a] := by
    intro r hr
    rw [(mem_waiting.1 (List.mem_of_mem_take hr)).2.1]
    exact ha
  have hx' : x' = ⟨rest ++ ((pageFor (s.drawing { picks }) u 2000).content.flatMap reaction ++
      if 0 < (waiting u s').length then [DomainService.fetchMissingMessages] else []), s'⟩ := by
    have hdrop : s'.parcels.drop s.parcels.length = batches.flatten ++ reply := by
      rw [hparcels, List.append_assoc]
      exact List.drop_left
    have hstep : (exchange E).step ⟨c :: rest, s⟩ (m, picks) = some ⟨rest ++
        (((fetch E m).run (s.drawing { picks })).2.parcels.drop s.parcels.length).flatMap
          (fun p => reaction p.message), ((fetch E m).run (s.drawing { picks })).2⟩ := rfl
    rw [hrun] at hstep
    rw [hstep, hdrop, List.flatMap_append, reaction_page hbatches hpage,
      reaction_delivers hreply (by rw [← ha]; exact congrArg (Option.bind · s.channels) hfrom'),
      reaction_completeMessage] at hst
    exact (Option.some.inj hst).symm
  subst hx'
  have hwaiting : waiting u s = (pageFor (s.drawing { picks }) u 2000).content ++ waiting u s' :=
    hfetched.oldest
  have hmax : MAX_COUNT = 2000 := rfl
  have hlength : (pageFor (s.drawing { picks }) u 2000).content.length =
      min 2000 (waiting u s).length := by
    have hlen := hfetched.length
    rw [hmax] at hlen
    exact hlen
  have hagain : again (waiting u s) =
      ((pageFor (s.drawing { picks }) u 2000).content.flatMap reaction).length +
        again (waiting u s') := by
    rw [again, hwaiting, List.flatMap_append, List.length_append, again]
  have hsum : (waiting u s).length =
      (pageFor (s.drawing { picks }) u 2000).content.length + (waiting u s').length := by
    rw [hwaiting, List.length_append]
  refine ⟨⟨⟨hfetched.fetchable hchannels hs', ?_, hs.home⟩, ?_, ?_⟩, ?_⟩
  · exact ⟨a, by rw [hchannels]; exact ha⟩
  · intro c' hc'
    rcases List.mem_append.1 hc' with hc' | hc'
    · exact hx.pending c' (List.mem_cons_of_mem c hc')
    rcases List.mem_append.1 hc' with hc' | hc'
    · obtain ⟨r, -, hr⟩ := List.mem_flatMap.1 hc'
      exact eq_of_mem_reaction hr
    · split_ifs at hc'
      · exact List.mem_singleton.1 hc'
      · cases hc'
  · intro hdone
    have hdone := (List.append_eq_nil_iff.1 (List.append_eq_nil_iff.1 hdone).2).2
    show waiting u s' = []
    split_ifs at hdone with hleft
    exact List.length_eq_zero_iff.1 (Nat.eq_zero_of_not_pos hleft)
  · show fetchesLeft u ⟨c :: rest, s⟩ = _
    have hsent : (if 0 < (waiting u s').length then [DomainService.fetchMissingMessages]
        else []).length = min 1 (waiting u s').length := by
      split_ifs with hleft
      · exact (Nat.min_eq_left hleft).symm
      · rw [Nat.eq_zero_of_not_pos hleft]
        rfl
    -- without a message left none will have the tunnel ask again
    have hnone : (waiting u s').length = 0 → again (waiting u s') = 0 := by
      intro h
      rw [List.length_eq_zero_iff.1 h]
      rfl
    rw [fetchesLeft_cons, fetchesLeft, hagain]
    simp only [List.length_append, hsent]
    split_ifs <;> omega

/-- How often a tunnel asks until nothing is left: once for every two thousand messages, or for none,
and once for every stored message that has it ask again. -/
def rounds (u : String) (s : State) : ℕ :=
  max 1 (((waiting u s).length + 1999) / 2000) + again (waiting u s)

/-- **The loop of a tunnel** ends, with nothing left, after `rounds` requests. -/
theorem length_of_exchange {s : State} (hs : Connected E u s)
    {l : List (System.Step Exchange (Message × List ℕ))} {x : Exchange}
    (h : (exchange E).Path (Asks E u) ⟨DomainService.onAuthenticated, s⟩ l x) :
    l.length + fetchesLeft u x = rounds u s ∧ Fetching E u x := by
  have hstart : Fetching E u ⟨DomainService.onAuthenticated, s⟩ :=
    ⟨hs, fun c hc => List.mem_singleton.1 hc, nofun⟩
  have hrounds : fetchesLeft u ⟨DomainService.onAuthenticated, s⟩ = rounds u s := by
    rw [DomainService.onAuthenticated, fetchesLeft_cons, rounds, List.length_nil]
    omega
  induction h with
  | nil => exact ⟨by rw [hrounds]; exact Nat.zero_add _, hstart⟩
  | snoc _ hok hst ih =>
    obtain ⟨hfetching, hleft⟩ := fetching_step ih.2 hok hst
    refine ⟨?_, hfetching⟩
    rw [List.length_append, List.length_singleton]
    omega

/-- As long as a request has not been handled, it can be. -/
theorem exists_asks {x : Exchange} (hx : Fetching E u x) (hne : x.pending ≠ []) :
    ∃ e x', Asks E u x e ∧ (exchange E).step x e = some x' := by
  obtain ⟨c, rest, hpend⟩ := List.exists_cons_of_ne_nil hne
  have hanswer : CanAnswer E { E.blank 0 with from_ := some u, content := some c, meta_ := some {} } := by
    refine ⟨nofun, ?_⟩
    show (isBlank (some u) || equalsIgnoreCase (some E.domainName) (resolveDomain E (some u))) = true
    rw [hx.connected.home, Bool.or_true]
  obtain ⟨pending, s⟩ := x
  cases hpend
  exact ⟨(_, []), _, ⟨rfl, hanswer, c, rest, rfl, rfl⟩, rfl⟩

/-- What a tunnel does until it stops. -/
structure Drains (E : Environment) (u : String) (s : State) (n : ℕ) : Prop where
  /-- It stops. -/
  stops : ∃ l x, (exchange E).Path (Asks E u) ⟨DomainService.onAuthenticated, s⟩ l x ∧ x.pending = []
  length : ∀ l x, (exchange E).Path (Asks E u) ⟨DomainService.onAuthenticated, s⟩ l x → l.length ≤ n ∧
    (x.pending = [] → l.length = n ∧ waiting u x.store = [])

theorem drains {s : State} (hs : Connected E u s) : Drains E u s (rounds u s) := by
  have hbound : ∀ l x, (exchange E).Path (Asks E u) ⟨DomainService.onAuthenticated, s⟩ l x →
      l.length ≤ rounds u s := fun l x h => Nat.le.intro (length_of_exchange hs h).1
  refine ⟨?_, fun l x h => ⟨hbound l x h, fun hdone => ?_⟩⟩
  · obtain ⟨l, x, hpath, hstuck⟩ := System.Path.exists_stuck hbound .nil
    refine ⟨_, x, hpath, ?_⟩
    by_contra hne
    obtain ⟨e, x', hok, hst⟩ := exists_asks (length_of_exchange hs hpath).2 hne
    exact hstuck e x' hok hst
  · obtain ⟨hlength, hfetching⟩ := length_of_exchange hs h
    rw [fetchesLeft, if_pos (List.length_eq_zero_iff.2 hdone)] at hlength
    exact ⟨hlength, hfetching.done hdone⟩

/-- **Fetching drains the store**, in order and without repetition, and a tunnel stops when nothing is
left. -/
theorem fetching_drains (E : Environment) (u : String) :
    (∀ s₀ s l, (fetches E).Path (Undisturbed E u) s₀ l s →
      (∀ st ∈ l, ∀ m count picks, st.event = .request m count picks →
        Fetched u count (handedOver u st) st.before st.after) ∧
      l.flatMap (handedOver u) ++ waiting u s = waiting u s₀ ∧
      ((l.flatMap (handedOver u)).map (·.id)).Nodup) ∧
    ∀ s, Connected E u s → Drains E u s (rounds u s) := by
  constructor
  · intro s₀ s l h
    exact fetched_of_path h
  · intro s hs
    exact drains hs

end Main

/-! ### A neighbour that fetches -/

section Sample

attribute [local instance] JavaChar.ascii

namespace SampleFetch

/-- A domain without a way to any other. -/
def env : Environment where
  domainName := "domain-01"
  processorName := "processor-01"
  clientApps _ := none
  routes := some fun _ => none
  acceptsUrl _ := true
  keyOrder := id
  keyOrder_perm := perm_id
  uuid n := "processor-message-" ++ toString n
  now n := n

/-- The user as whom `domain-02` is connected. -/
def neighbour : String := "domain2-1"

/-- A stored message for the neighbour. -/
def stored (id : String) (createdAt : ℤ) (type : MessageType) (data : Data) (target : String) : Message :=
  { newMessage id createdAt with
    to_ := some neighbour
    content := some (createMessageContent type data (some .RELIABLE))
    meta_ := some { targetAddress := some { domainName := some target } }
    state := some .ADDRESS_NOT_FOUND }

/-- A message on its way to a domain that is out of reach since. -/
def forwarded : Message := stored "message-1" 1 .INTERNAL_MESSAGE .null "domain-03"

/-- The reply to a request of an earlier session. -/
def reply : Message :=
  stored "message-2" 2 .FETCH_MISSING_MESSAGES_COMPLETE (.fetchMissingMessagesComplete (some 5))
    "domain-01"

def store (messages : List Message) : State where
  messages
  channels v := if v = neighbour then some [⟨some "domain-01", some "connector-01", some 1⟩] else none

/-- Another message for the neighbour's user. -/
def letter : Message := stored "message-4" 4 .MESSAGE .null "domain-01"

def request : Message :=
  { newMessage "message-3" 3 with
    from_ := some neighbour, content := some DomainService.fetchMissingMessages, meta_ := some {} }

/-- A request for one message. -/
def requestOne : Message :=
  { request with
    content := some (createMessageContent .FETCH_MISSING_MESSAGES_REQUEST
      (.fetchMissingMessagesRequest (some 1)) (some .RELIABLE)) }

theorem requests : Requests request neighbour 2000 := ⟨rfl, rfl⟩

theorem waiting_store : waiting neighbour (store [forwarded, reply]) = [forwarded, reply] ∧
    waiting neighbour (store [reply]) = [reply] := ⟨rfl, rfl⟩

theorem routedTo_forwarded : routedTo env forwarded = none := by decide +kernel

theorem routedTo_reply : routedTo env reply = some (some neighbour) := by decide +kernel

theorem address : HasTarget (store [reply]).channels (some neighbour) :=
  ⟨by decide, .inr (List.cons_ne_nil _ _)⟩

theorem fetchable : Fetchable env neighbour (store [reply, letter]) where
  ids := by decide
  ready r hr := by
    have hlocal : ∀ r ∈ [reply, letter], r.id ≠ none ∧ r.meta_ ≠ none ∧ r.feature ≠ none ∧
        routedTo env r = some (some neighbour) := by
      decide +kernel
    obtain ⟨hid, hmeta, hfeature, hroute⟩ := hlocal r hr
    refine ⟨hid, hmeta, hfeature, _, hroute, address, fun a ha => ?_⟩
    cases List.mem_singleton.1 ha
    exact Option.some_ne_none _
  address := address
  named a ha := by
    cases List.mem_singleton.1 ha
    exact Option.some_ne_none _

theorem canAnswer : CanAnswer env request where
  meta_ := Option.some_ne_none _
  here := by decide +kernel

theorem connected : Connected env neighbour (store [reply]) where
  ids := List.nodup_singleton _
  ready r hr := by
    rw [waiting_store.2, List.mem_singleton] at hr
    subst hr
    refine ⟨Option.some_ne_none _, Option.some_ne_none _, Option.some_ne_none _, _, routedTo_reply,
      address, ?_⟩
    intro a ha
    cases List.mem_singleton.1 ha
    exact Option.some_ne_none _
  address := address
  named a ha := by
    cases List.mem_singleton.1 ha
    exact Option.some_ne_none _
  alone := ⟨_, rfl⟩
  home := by decide +kernel

end SampleFetch

open SampleFetch

/-- Two requests for one message each hand over the two messages that are stored, one after the other. -/
theorem fetching_drains_twice : ∃ l s,
    (fetches env).Path (Undisturbed env neighbour) (store [reply, letter]) l s ∧ l.length = 2 ∧
    l.flatMap (handedOver neighbour) = [reply, letter] ∧ waiting neighbour s = [] := by
  have hrequest : Requests requestOne neighbour 1 := ⟨rfl, rfl⟩
  have hanswer : CanAnswer env requestOne := ⟨Option.some_ne_none _, by decide +kernel⟩
  have hstep : ∀ s, Fetchable env neighbour s → ∃ s', Fetchable env neighbour s' ∧
      (fetches env).step s (.request requestOne 1 []) = some s' := by
    intro s hs
    have hs' : Fetchable env neighbour (s.drawing { picks := [] }) :=
      ⟨hs.ids, hs.ready, hs.address, hs.named⟩
    obtain ⟨s', hrun, hchannels, hfetched⟩ := exists_fetched hrequest le_rfl hs' hanswer rfl
    refine ⟨s', hfetched.fetchable hchannels hs', ?_⟩
    show some ((fetch env requestOne).run (s.drawing { picks := [] })).2 = _
    rw [hrun]
  obtain ⟨s₁, hs₁, hst₁⟩ := hstep _ fetchable
  obtain ⟨s₂, -, hst₂⟩ := hstep s₁ hs₁
  have hok : ∀ s, Fetchable env neighbour s →
      Undisturbed env neighbour s (.request requestOne 1 []) := fun s hs =>
    ⟨hrequest, le_rfl, hs, hanswer⟩
  have hpath : (fetches env).Path (Undisturbed env neighbour) (store [reply, letter])
      [⟨store [reply, letter], .request requestOne 1 [], s₁⟩, ⟨s₁, .request requestOne 1 [], s₂⟩] s₂ :=
    (System.Path.nil.snoc (hok _ fetchable) hst₁).snoc (hok s₁ hs₁) hst₂
  obtain ⟨hpages, hall, -⟩ := (fetching_drains env neighbour).1 _ _ _ hpath
  have hfirst := hpages _ List.mem_cons_self _ _ _ rfl
  have hsecond := hpages _ (List.mem_cons_of_mem _ List.mem_cons_self) _ _ _ rfl
  have hwaiting : waiting neighbour (store [reply, letter]) = [reply, letter] := rfl
  -- each of them hands over one message
  have hone := hfirst.length
  have hleft := congrArg List.length hfirst.oldest
  have hone' := hsecond.length
  have hlengths := congrArg List.length hall
  have hmax : (min MAX_COUNT 1).toNat = 1 := rfl
  rw [hwaiting] at hone hleft hall hlengths
  rw [hmax] at hone hone'
  simp only [List.flatMap_cons, List.flatMap_nil, List.append_nil,
    List.length_append, List.length_cons, List.length_nil] at hone hleft hone' hlengths
  have hnil : waiting neighbour s₂ = [] := List.length_eq_zero_iff.1 (by omega)
  rw [hnil, List.append_nil] at hall
  exact ⟨_, s₂, hpath, rfl, hall, hnil⟩

/-- **A blocked store.**  No message of the neighbour is handed over as long as the first of them is for
a domain out of reach. -/
theorem blocked : ¬ Serves env request neighbour (store [forwarded, reply]) := by
  intro hserves
  have hroom : ((waiting neighbour (store [forwarded, reply])).length : ℤ) ≤ min MAX_COUNT 2000 := by
    rw [waiting_store.1]
    decide
  have hall := (canDeliver_of_serves requests (by decide) hroom hserves).1
  have hcan := hall forwarded (by rw [waiting_store.1]; exact List.mem_cons_self)
  obtain ⟨v, hv, -⟩ := hcan.route
  cases routedTo_forwarded.symm.trans hv

/-- Without that message the others are. -/
theorem serves_reply : Serves env request neighbour (store [reply]) := by
  refine (serves_iff requests (by decide) ?_).2 ⟨?_, canAnswer⟩
  · rw [waiting_store.2]
    decide
  · intro r hr
    rw [waiting_store.2, List.mem_singleton] at hr
    subst hr
    exact ⟨Option.some_ne_none _, Option.some_ne_none _, _, routedTo_reply, nofun⟩

/-- **A reply that is fetched** has the tunnel ask once more: with one message stored it asks twice. -/
theorem asks_again : Connected env neighbour (store [reply]) ∧ ¬ Drains env neighbour (store [reply])
    (max 1 (((waiting neighbour (store [reply])).length + 1999) / 2000)) := by
  refine ⟨connected, fun hdrains => ?_⟩
  obtain ⟨l, x, hpath, hdone⟩ := hdrains.stops
  have honce := ((hdrains.length l x hpath).2 hdone).1
  have htwice := (((drains connected).length l x hpath).2 hdone).1
  rw [rounds, waiting_store.2] at htwice
  rw [waiting_store.2] at honce
  have hagain : again [reply] = 1 := by decide
  rw [hagain] at htwice
  omega

end Sample

end Linker.Processor
