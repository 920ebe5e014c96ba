import Linker.Domain.Recovery
import Linker.Processor.Copies
import Linker.Processor.Processing

/-!
# Confirmations

A `MESSAGE` whose delivery is to be confirmed goes to all addresses of its recipient.  Each connector
that writes a copy reports it as processed, and the processor that consumes the report sends a
confirmation to the sender; a copy that is lost is delivered again, to all addresses that are left.

What is in flight for one message is weighed by the confirmations it can still lead to.

## Main results

* `inFlight_step` : no step of the deliveries adds to the confirmations that are made or can come.
* `confirmed_once` : there is at most one, for a message that goes to one address at a time, or whose
  lost copies leave nobody to be found.
* `confirmed_twice` : two sockets make two confirmations.
-/

namespace Linker

open Processor Exec
open Processor.UserChannelService (addressesOf)

namespace Processor

open ProcessorUtils ClientAppService MessageProcessorService PostOffice

/-! ### Whatever is delivered -/

/-- A record that a delivery of the message puts on a topic. -/
structure SentFor (m : Message) (p : Parcel) : Prop where
  content : p.message.content = m.content
  confirmEnabled : p.message.confirmEnabled = m.confirmEnabled
  to_ : p.message.to_ ≠ none ∧ (m.type ≠ some .INTERNAL_MESSAGE → p.message.to_ = m.to_)
  meta_ : ∃ t a, p.message.meta_ = some t ∧ t.targetAddress = some a

/-- An entry that a confirmation is processed. -/
def Entry.confirms : Entry → Bool
  | .processing m => m.type = some .MESSAGE_CONFIRMATION
  | .saved _ => false

/-- How many confirmations have been made. -/
def confirmations (s : State) : ℕ := s.journal.countP Entry.confirms

/-- Messages have been saved. -/
structure StoresOnly (s s' : State) : Prop where
  channels : s'.channels = s.channels
  parcels : s'.parcels = s.parcels
  confirmations : confirmations s' = confirmations s

instance : IsPreorder State StoresOnly where
  refl _ := ⟨rfl, rfl, rfl⟩
  trans _ _ _ h h' := ⟨h'.channels.trans h.channels, h'.parcels.trans h.parcels,
    h'.confirmations.trans h.confirmations⟩

/-- The change that a delivery of the message makes. -/
structure SendsOn (m : Message) (s s' : State) : Prop where
  channels : s'.channels = s.channels
  confirmations : confirmations s' = confirmations s
  parcels : ∃ ps, s'.parcels = s.parcels ++ ps ∧ ∀ p ∈ ps, SentFor m p

theorem confirmations_of_sends {s s' : State} (h : Sends s s') :
    confirmations s' = confirmations s := by
  obtain ⟨l, hl, -⟩ := h.saved
  have hnone : (l.map Entry.saved).countP Entry.confirms = 0 := by
    rw [List.countP_eq_zero]
    intro e he
    obtain ⟨m, -, rfl⟩ := List.mem_map.1 he
    exact Bool.false_ne_true
  rw [confirmations, hl, List.countP_append, hnone]
  rfl

theorem confirmations_noting (m : Message) (s : State) : confirmations (s.noting m) =
    confirmations s + if m.type = some .MESSAGE_CONFIRMATION then 1 else 0 := by
  rw [confirmations, State.noting, List.countP_append, List.countP_singleton]
  simp [Entry.confirms, confirmations]

theorem storesOnly_persistMessage {E : Environment} (m : Message) (st : Option MessageState) :
    Moves StoresOnly (persistMessage E m st) := by
  intro s
  have hsilent := silent_persistMessage (E := E) m st s
  exact ⟨hsilent.1, hsilent.2, confirmations_of_sends (moves_persistMessage m st s)⟩

theorem content_persistMessage {E : Environment} {I : State → Prop} {m : Message}
    {st : Option MessageState} (h : Moves (fun s s' => I s → I s') (persistMessage E m st)) :
    Keeps I (persistMessage E m st) fun m' => m'.content = m.content :=
  fun s hs => ⟨h s hs, fun m' hm' => ((returns_persistMessage m st s trivial).2 m' hm').1⟩

section

variable [JavaChar] {E : Environment} {m : Message}

/-- What `deliverMessage` comes to: it throws, or some message is sent to its addresses. -/
theorem run_deliverMessage_cases (m : Message) (s : State) :
    (∃ e picks, (deliverMessage E m).run s = (.error e, s.picking picks)) ∨
    ∃ m' t c, (deliverMessage E m).run s = (sendToConnector E m').run s ∧ m'.meta_ = some t ∧
      m'.content = some c ∧ m.content = some c ∧ m'.confirmEnabled = m.confirmEnabled ∧
      (m.type ≠ some .INTERNAL_MESSAGE → m' = populated E m) := by
  by_cases hcan : CanDeliver E s.channels m
  swap
  · exact .inl (run_deliverMessage_error hcan)
  obtain ⟨t, ht⟩ := Option.ne_none_iff_exists'.1 hcan.meta_
  obtain ⟨c, hc⟩ := Option.ne_none_iff_exists'.1 hcan.content
  obtain ⟨t', ht', -, hflag⟩ := meta_populated (E := E) ht
  have hletter := letter_populated (E := E) m
  have hflag' : (populated E m).confirmEnabled = m.confirmEnabled := by
    rw [MessageOf.confirmEnabled, MessageOf.confirmEnabled, ht', ht]
    exact hflag
  obtain ⟨v, hroute, -⟩ := hcan.route
  refine .inr ⟨(populated E m).setTo v, t', c, run_deliverMessage_routed ht hc hroute s, ht',
    hletter.content.trans hc, hc, hflag', fun htype => ?_⟩
  rw [routedTo, if_neg htype] at hroute
  split_ifs at hroute
  cases hroute
  exact setTo_populated m

/-- **A delivery** puts records of the message on topics. -/
theorem sendsOn_deliverMessage (m : Message) : ∀ s, SendsOn m s ((deliverMessage E m).run s).2 := by
  intro s
  have hsends := moves_deliverMessage (E := E) m s
  refine ⟨hsends.channels, confirmations_of_sends hsends, ?_⟩
  rcases run_deliverMessage_cases (E := E) m s with
    ⟨e, picks, hrun⟩ | ⟨m', t, c, hrun, ht, hc', hc, hflag, hto⟩
  · rw [hrun]
    exact ⟨[], (List.append_nil _).symm, fun p hp => by cases hp⟩
  obtain ⟨ps, hps, -, hall⟩ := (posts_sendToConnector (E := E) ht hc' s).parcels
  refine ⟨ps, by rw [hrun, hps], fun p hp => ?_⟩
  obtain ⟨a, ha, -, hmsg⟩ := hall p hp
  obtain ⟨t', ht', hflag'⟩ := meta_adjusted (E := E) ht
  have hmeta : p.message.meta_ = some { t' with targetAddress := some a } := by
    rw [hmsg, MessageOf.setTargetAddress, MessageOf.updateMeta_meta, ht']
    rfl
  have hsame : p.message.to_ = m'.to_ := by
    rw [hmsg]
    exact (letter_adjusted m').to_
  refine ⟨?_, ?_, ⟨fun hnone => ?_, fun htype => ?_⟩, _, a, hmeta, rfl⟩
  · rw [hmsg]
    exact ((letter_adjusted m').content.trans hc').trans hc.symm
  · rw [MessageOf.confirmEnabled, hmeta, ← hflag, MessageOf.confirmEnabled, ht]
    exact hflag'
  · rw [← hsame, hnone] at ha
    cases ha
  · rw [hsame, hto htype]
    exact (letter_populated m).to_

end

end Processor

namespace Confirmation

open Processor.ProcessorUtils Processor.ClientAppService
open Processor.PostOffice Processor.MessageProcessorService

/-- The users of the running connectors. -/
abbrev Users := String → Option Connector.UserMap

/-! ### Weights -/

/-- A connector would find the user at the address. -/
def live (users : Users) (u : String) (a : Address) : Bool :=
  ((a.connectorName.bind users).map fun l =>
    (Connector.UserMap.getUser u a.socketId l).isSome).getD false

/-- A connector would find the recipient of the copy. -/
def finds (users : Users) (target : String) (m : Message) : Bool :=
  match m.to_, m.targetAddress with
  | some u, some a =>
    ((users target).map fun l => (Connector.UserMap.getUser u a.socketId l).isSome).getD false
  | _, _ => false

/-- How many confirmations a copy can lead to, where a lost one can lead to `k`. -/
def weight (users : Users) (k : ℕ) (target : String) (m : Message) : ℕ :=
  if m.type = some .MESSAGE ∧ m.confirmEnabled = true then
    if finds users target m then 1 else if m.feature = some .RELIABLE then k else 0
  else 0

/-- How many confirmations the report on a message can lead to. -/
def reportWeight (k : ℕ) (m : Message) (st : MessageState) : ℕ :=
  if m.type = some .MESSAGE then
    if st = .PROCESSED then 1
    else if st = .ADDRESS_NOT_FOUND ∧ m.confirmEnabled = true ∧ m.feature = some .RELIABLE then k
    else 0
  else 0

/-- How many confirmations a record for the processors can lead to. -/
def recordWeight (k : ℕ) (r : Message) : ℕ :=
  match r.data with
  | .messageStateChanged (some m) (some st) => reportWeight k m st
  | _ => 0

/-- The confirmations made, and those that the copies on topics can lead to. -/
def load (users : Users) (k : ℕ) (s : Processor.State) : ℕ :=
  (s.parcels.map fun p => weight users k p.target p.message).sum + confirmations s

/-- The confirmations made, and those that all that is in flight can lead to. -/
def total (users : Users) (k : ℕ) (w : World) : ℕ :=
  load users k w.processor + (w.incoming.map (recordWeight k)).sum

/-- The weight of the copy for an address, if there is one. -/
def cost (users : Users) (k : ℕ) (m : Message) (a : Address) : ℕ :=
  (a.connectorName.map fun n => weight users k n (m.setTargetAddress (some a))).getD 0

variable {users : Users} {k : ℕ} {m : Message} {s s' : Processor.State}

theorem load_congr (hp : s'.parcels = s.parcels) (hc : confirmations s' = confirmations s) :
    load users k s' = load users k s := by
  rw [load, load, hp, hc]

theorem weight_of_type (h : m.type ≠ some .MESSAGE) (target : String) :
    weight users k target m = 0 := if_neg fun hm => h hm.1

/-- What is no `MESSAGE` leads to no confirmation. -/
theorem load_of_sendsOn (h : SendsOn m s s') (htype : m.type ≠ some .MESSAGE) :
    load users k s' = load users k s := by
  obtain ⟨ps, hps, hall⟩ := h.parcels
  have hzero : (ps.map fun p => weight users k p.target p.message).sum = 0 := by
    rw [List.sum_eq_zero_iff_forall_eq_nat]
    intro n hn
    obtain ⟨p, hp, rfl⟩ := List.mem_map.1 hn
    refine weight_of_type ?_ p.target
    rw [MessageOf.type, (hall p hp).content]
    exact htype
  rw [load, hps, List.map_append, List.sum_append, hzero, h.confirmations]
  rfl

section

variable [JavaChar] {E : Environment}

omit [JavaChar] in
/-- One record adds its weight. -/
theorem load_express (delivery : ExpressDeliveryType) (a : Address) (s : Processor.State) :
    load users k ((express E delivery a.connectorName (m.setTargetAddress (some a))).run s).2 ≤
      load users k s + cost users k m a := by
  have hfail : load users k ((onMessageDeliveryFailed E (m.setTargetAddress (some a))).run
      { s with refused := s.refused.tail }).2 ≤ load users k s + cost users k m a := by
    have hstores : Moves StoresOnly (onMessageDeliveryFailed E (m.setTargetAddress (some a))) :=
      (storesOnly_persistMessage _ _).bind fun _ => .pure _
    have hend := hstores { s with refused := s.refused.tail }
    rw [load_congr hend.parcels hend.confirmations]
    exact Nat.le_add_right _ _
  rw [express, run_read_bind, run_modify_bind]
  rcases hname : a.connectorName with _ | topic
  · exact hfail
  · simp only
    split
    · exact hfail
    · have hcost : cost users k m a = weight users k topic (m.setTargetAddress (some a)) := by
        rw [cost, hname]
        rfl
      rw [run_modify, hcost, load, load, List.map_append, List.sum_append]
      simp only [List.map_cons, List.map_nil, List.sum_cons, List.sum_nil, confirmations]
      omega

omit [JavaChar] in
theorem load_sendToAddresses (l : List Address) (s : Processor.State) :
    load users k ((sendToAddresses E l m).run s).2 ≤
      load users k s + (l.map (cost users k m)).sum := by
  have hloop : ∀ delivery s, load users k ((forEach (fun a : Address =>
      express E delivery a.connectorName (m.setTargetAddress (some a))) l).run s).2 ≤
        load users k s + (l.map (cost users k m)).sum := by
    intro delivery
    induction l with
    | nil => exact fun s => Nat.le_refl _
    | cons a l ih =>
      intro s
      have hfirst : load users k ((express E delivery a.connectorName
          (m.setTargetAddress (some a))).run s).2 ≤ load users k s + cost users k m a :=
        load_express delivery a s
      rw [run_forEach_cons, run_bind, List.map_cons, List.sum_cons]
      rcases hrun : (express E delivery a.connectorName (m.setTargetAddress (some a))).run s
        with ⟨e | _, s₁⟩
      · rw [hrun] at hfirst
        simp only at hfirst ⊢
        omega
      · rw [hrun] at hfirst
        have hrest := ih s₁
        simp only at hfirst ⊢
        omega
  rw [sendToAddresses]
  rcases hc : m.content with _ | c
  · rw [getContent, hc]
    exact Nat.le_add_right _ _
  · rw [run_bind_ok (run_getContent hc s)]
    rcases hf : c.feature with _ | _ | _
    · exact Nat.le_add_right _ _
    · exact hloop .NATS s
    · exact hloop .KAFKA s

theorem load_sendToConnector {t : MessageMeta} {c : MessageContent} (ht : m.meta_ = some t)
    (hc : m.content = some c) (s : Processor.State) :
    load users k ((sendToConnector E m).run s).2 ≤ load users k s +
      ((targets E m.to_ (adjusted E m).deliveryType s).map (cost users k (adjusted E m))).sum := by
  by_cases hnil : targets E m.to_ (adjusted E m).deliveryType s = []
  · obtain ⟨picks, hget⟩ := run_getRouteTargetAddresses (E := E) ht s
    have hstores : Moves StoresOnly (do
        let _ ← persistMessage E (adjusted E m) (some .ADDRESS_NOT_FOUND)
        pure () : Proc Unit) := (storesOnly_persistMessage _ _).bind fun _ => .pure _
    have hend := hstores (s.picking picks)
    rw [sendToConnector, run_bind_ok (run_adjustDeliveryType ht hc s), run_bind_ok hget, hnil,
      List.isEmpty_nil, if_pos rfl, load_congr hend.parcels hend.confirmations]
    exact Nat.le_add_right _ _
  · obtain ⟨picks, hsend⟩ := run_sendToConnector_targets ht hc hnil
    rw [hsend]
    exact load_sendToAddresses _ (s.picking picks)

/-- **A `MESSAGE` that is delivered** adds the weight of its copies. -/
theorem load_deliverMessage (htype : m.type ≠ some .INTERNAL_MESSAGE) (s : Processor.State) :
    load users k ((deliverMessage E m).run s).2 ≤ load users k s +
      ((targets E m.to_ (sent E m).deliveryType s).map (cost users k (sent E m))).sum := by
  rcases run_deliverMessage_cases (E := E) m s with
    ⟨e, picks, hrun⟩ | ⟨m', t, c, hrun, ht, hc', -, -, hm'⟩
  · rw [hrun]
    exact Nat.le_add_right _ _
  · rw [hrun, ← (letter_populated (E := E) m).to_, ← hm' htype, sent, ← hm' htype]
    exact load_sendToConnector ht hc' s

/-! ### The copies of a delivery -/

/-- A message to the user goes to one address at a time. -/
def OneAtATime (E : Environment) (u : String) : Prop :=
  isMasterUserId E (some u) = true ∨
    startsWithIgnoreCase (some u) (some Keywords.PROCESSOR) = true ∨ isConnectorUser (some u) = true

/-- What a lost copy for the user can lead to, with these addresses registered: one confirmation where
there is one copy at a time, and none where nobody would be found. -/
def Fits (E : Environment) (users : Users) (u : String) (f : Option MessageFeature) (l : List Address)
    (k : ℕ) : Prop :=
  k = 1 ∧ (OneAtATime E u ∨ l.length ≤ 1) ∨
    k = 0 ∧ isConnectorUser (some u) = false ∧
      l.countP (live users u) ≤ if f = some .RELIABLE then 0 else 1

omit [JavaChar] in
theorem chosen_sublist (d : Option DeliveryType) (l : List Address) (s : Processor.State) :
    (chosen d l s).Sublist l := by
  unfold chosen
  split
  · exact .refl l
  · rcases hget : l[s.picks.headD 0 % l.length]? with _ | a
    · exact List.nil_sublist l
    · exact List.singleton_sublist.2 (List.mem_of_getElem? hget)

theorem targets_sublist {u : String} (hconn : isConnectorUser (some u) = false)
    (d : Option DeliveryType) (s : Processor.State) :
    (targets E (some u) d s).Sublist (addressesOf s.channels u) := by
  by_cases hblank : isBlank (some u) = true
  · rw [targets, if_pos hblank]
    exact List.nil_sublist _
  · rw [targets_of_user (by simpa using hblank) hconn]
    exact chosen_sublist d _ s

/-- A message for a user who is sent to one address at a time has one target. -/
theorem length_targets_le {u : String} (h : OneAtATime E u) (hto : m.to_ = some u)
    (s : Processor.State) : (targets E (some u) (sent E m).deliveryType s).length ≤ 1 := by
  by_cases hconn : isConnectorUser (some u) = true
  · rw [Recovery.targets_connector (D := ⟨E, fun _ _ => "", fun _ _ => 0⟩) hconn]
    exact Nat.le_refl 1
  have hmany : (isMasterUserId E (some u) ||
      startsWithIgnoreCase (some u) (some Keywords.PROCESSOR)) = true := by
    rcases h with h | h | h
    · rw [h, Bool.true_or]
    · rw [h, Bool.or_true]
    · exact absurd h hconn
  have hd : (sent E m).deliveryType ≠ some .ALL := by
    have hto' : (populated E m).to_ = some u := (letter_populated m).to_.trans hto
    intro hall
    rw [sent, adjusted] at hall
    split at hall
    · next hadjust =>
      obtain ⟨t, ht, -⟩ := Option.bind_eq_some_iff.1 hadjust.1
      simp [MessageOf.deliveryType, MessageOf.setDeliveryType, ht] at hall
    · next hadjust =>
      refine hadjust ⟨hall, ?_⟩
      rw [hto', Bool.or_assoc, hmany, Bool.or_true]
  by_cases hblank : isBlank (some u) = true
  · rw [targets, if_pos hblank]
    exact Nat.zero_le 1
  · rw [targets_of_user (by simpa using hblank) (by simpa using hconn), chosen, if_neg hd]
    rcases (addressesOf s.channels u)[s.picks.headD 0 % (addressesOf s.channels u).length]? with _ | a
    · exact Nat.zero_le 1
    · exact Nat.le_refl 1

omit [JavaChar] in
theorem sum_le_countP {c : Address → ℕ} {p : Address → Bool} (h : ∀ a, c a ≤ if p a then 1 else 0)
    (l : List Address) : (l.map c).sum ≤ l.countP p := by
  induction l with
  | nil => exact Nat.le_refl 0
  | cons a l ih =>
    have ha := h a
    rw [List.map_cons, List.sum_cons, List.countP_cons]
    omega

omit [JavaChar] in
theorem cost_le {u : String} {t : MessageMeta} (hto : m.to_ = some u) (ht : m.meta_ = some t)
    (a : Address) : cost users k m a ≤
      if live users u a then 1 else if m.feature = some .RELIABLE then k else 0 := by
  rcases hname : a.connectorName with _ | n
  · rw [cost, hname]
    exact Nat.zero_le _
  have hfinds : finds users n (m.setTargetAddress (some a)) = live users u a := by
    have hto' : (m.setTargetAddress (some a)).to_ = some u := hto
    have htarget : (m.setTargetAddress (some a)).targetAddress = some a := by
      rw [MessageOf.targetAddress, MessageOf.setTargetAddress, MessageOf.updateMeta_meta, ht]
      rfl
    rw [finds, hto', htarget, live, hname]
    rfl
  rw [cost, hname, Option.map_some, Option.getD_some, weight, hfinds]
  split
  · exact Nat.le_refl _
  · exact Nat.zero_le _

/-- The copies of one delivery lead to one confirmation at most, and those of a message that was lost to
no more than it. -/
theorem sum_cost_le {u : String} {t : MessageMeta} {f : Option MessageFeature} {l : List Address}
    (hfits : Fits E users u f l k) (hto : m.to_ = some u) (ht : m.meta_ = some t) (hf : m.feature = f)
    (hsub : (addressesOf s.channels u).Sublist l) :
    ((targets E (some u) (sent E m).deliveryType s).map (cost users k (sent E m))).sum ≤ 1 ∧
      (f = some .RELIABLE →
        ((targets E (some u) (sent E m).deliveryType s).map (cost users k (sent E m))).sum ≤ k) := by
  have hletter : m.SameLetter (sent E m) :=
    (letter_populated m).trans (letter_adjusted (populated E m))
  obtain ⟨t', ht'⟩ := Recovery.meta_sent (D := ⟨E, fun _ _ => "", fun _ _ => 0⟩) ht
  have hcost : ∀ a, cost users k (sent E m) a ≤
      if live users u a then 1 else if (sent E m).feature = some .RELIABLE then k else 0 :=
    cost_le (hletter.to_.trans hto) ht'
  rw [hletter.feature, hf] at hcost
  rcases hfits with ⟨rfl, hone⟩ | ⟨rfl, hconn, hcount⟩
  · -- one copy, with a weight of one at most
    have hlength : (targets E (some u) (sent E m).deliveryType s).length ≤ 1 := by
      by_cases honly : OneAtATime E u
      · exact length_targets_le honly hto s
      · have hconn : isConnectorUser (some u) = false := by
          by_contra hconn
          exact honly (.inr (.inr (by simpa using hconn)))
        exact ((targets_sublist hconn _ s).length_le.trans hsub.length_le).trans
          (hone.resolve_left honly)
    have hle : ∀ n ∈ (targets E (some u) (sent E m).deliveryType s).map (cost users 1 (sent E m)),
        n ≤ 1 := by
      intro n hn
      obtain ⟨a, -, rfl⟩ := List.mem_map.1 hn
      refine (hcost a).trans ?_
      split
      · exact Nat.le_refl 1
      · split <;> omega
    have hsum := List.sum_le_card_nsmul _ _ hle
    rw [List.length_map, Nat.nsmul_eq_mul, Nat.mul_one] at hsum
    exact ⟨hsum.trans hlength, fun _ => hsum.trans hlength⟩
  · -- only the copies that find the user count
    have hcost' : ∀ a, cost users 0 (sent E m) a ≤ if live users u a then 1 else 0 := by
      intro a
      refine (hcost a).trans ?_
      split
      · exact Nat.le_refl 1
      · split <;> exact Nat.le_refl 0
    have hsum := (sum_le_countP hcost' (targets E (some u) (sent E m).deliveryType s)).trans
      (((targets_sublist hconn _ s).trans hsub).countP_le.trans hcount)
    refine ⟨hsum.trans (by split <;> omega), fun hrel => ?_⟩
    rw [if_pos hrel] at hsum
    exact hsum

/-! ### What is in flight -/

/-- What a message is about: the one message, a confirmation, or a wrapper. -/
structure Item (u : String) (f : Option MessageFeature) (b : Bool) (m : Message) : Prop where
  content : ∃ c ty, m.content = some c ∧ c.type = some ty ∧
    (ty = .MESSAGE ∨ ty = .MESSAGE_CONFIRMATION ∨ ty = .INTERNAL_MESSAGE)
  letter : m.type = some .MESSAGE → m.to_ = some u ∧ m.feature = f ∧ m.confirmEnabled = b

/-- What goes to connectors for the one message. -/
structure Plain (u : String) (f : Option MessageFeature) (b : Bool) (m : Message) : Prop
    extends Item u f b m where
  to_ : m.to_ ≠ none
  meta_ : ∃ t a, m.meta_ = some t ∧ t.targetAddress = some a

variable {u : String} {f : Option MessageFeature} {b : Bool} {p : Message}

omit [JavaChar] in
theorem type_of_content {c : MessageContent} {ty : MessageType} (hc : m.content = some c)
    (hty : c.type = some ty) : m.type = some ty := by
  rw [MessageOf.type, hc]
  exact hty

omit [JavaChar] in
theorem plain_of_sentFor (hp : Item u f b p) {q : Parcel} (hq : SentFor p q) :
    Plain u f b q.message := by
  obtain ⟨c, ty, hc, hty, hcases⟩ := hp.content
  have htype : q.message.type = p.type := by rw [MessageOf.type, hq.content, MessageOf.type]
  refine ⟨⟨⟨c, ty, hq.content.trans hc, hty, hcases⟩, fun hm => ?_⟩, hq.to_.1, hq.meta_⟩
  rw [htype] at hm
  obtain ⟨hto, hf, hb⟩ := hp.letter hm
  refine ⟨(hq.to_.2 ?_).trans hto, ?_, hq.confirmEnabled.trans hb⟩
  · rw [hm]
    decide
  · rw [MessageOf.feature, hq.content]
    exact hf

omit [JavaChar] in
/-- A confirmation, or a wrapper. -/
theorem plain_of_side {c : MessageContent} {ty : MessageType} (hc : m.content = some c)
    (hty : c.type = some ty) (hside : ty = .MESSAGE_CONFIRMATION ∨ ty = .INTERNAL_MESSAGE) {q : Parcel}
    (hq : SentFor m q) : Plain u f b q.message := by
  refine ⟨⟨⟨c, ty, hq.content.trans hc, hty, .inr hside⟩, fun hm => ?_⟩, hq.to_.1, hq.meta_⟩
  rw [type_of_content (hq.content.trans hc) hty] at hm
  rcases hside with rfl | rfl <;> cases hm

/-- What a computation does that adds `n` to the confirmations made or to come. -/
structure Grows (users : Users) (k : ℕ) (u : String) (f : Option MessageFeature) (b : Bool) (n : ℕ)
    (s s' : Processor.State) : Prop where
  channels : (addressesOf s'.channels u).Sublist (addressesOf s.channels u)
  parcels : ∃ ps, s'.parcels = s.parcels ++ ps ∧ ∀ q ∈ ps, Plain u f b q.message
  load : load users k s' ≤ load users k s + n

omit [JavaChar] in
theorem Grows.of_storesOnly (h : StoresOnly s s') : Grows users k u f b 0 s s' :=
  ⟨by rw [h.channels], ⟨[], by rw [h.parcels, List.append_nil], fun q hq => by cases hq⟩,
    (load_congr h.parcels h.confirmations).le⟩

omit [JavaChar] in
theorem Grows.trans {s₁ : Processor.State} {n n' : ℕ} (h : Grows users k u f b n s s₁)
    (h' : Grows users k u f b n' s₁ s') : Grows users k u f b (n + n') s s' := by
  obtain ⟨ps, hps, hall⟩ := h.parcels
  obtain ⟨ps', hps', hall'⟩ := h'.parcels
  have hload := h.load
  have hload' := h'.load
  refine ⟨h'.channels.trans h.channels, ⟨ps ++ ps', ?_, ?_⟩, by omega⟩
  · rw [hps', hps, List.append_assoc]
  · exact fun q hq => (List.mem_append.1 hq).elim (hall q) (hall' q)

omit [JavaChar] in
theorem Grows.mono {n n' : ℕ} (h : Grows users k u f b n s s') (hn : n ≤ n') :
    Grows users k u f b n' s s' :=
  ⟨h.channels, h.parcels, h.load.trans (Nat.add_le_add_left hn _)⟩

/-! ### Deliveries -/

theorem confirmEnabled_sent {t : MessageMeta} (ht : m.meta_ = some t) :
    (sent E m).confirmEnabled = m.confirmEnabled := by
  obtain ⟨t', ht', -, hflag⟩ := meta_populated (E := E) ht
  obtain ⟨t'', ht'', hflag'⟩ := meta_adjusted (E := E) ht'
  rw [MessageOf.confirmEnabled, MessageOf.confirmEnabled, sent, ht'', ht]
  exact hflag'.trans hflag

omit [JavaChar] in
theorem cost_of_unconfirmed {t : MessageMeta} (ht : m.meta_ = some t) (h : m.confirmEnabled = false)
    (a : Address) : cost users k m a = 0 := by
  have hflag : (m.setTargetAddress (some a)).confirmEnabled = false := by
    rw [← h, MessageOf.confirmEnabled, MessageOf.setTargetAddress, MessageOf.updateMeta_meta, ht,
      MessageOf.confirmEnabled, ht]
    rfl
  rcases hname : a.connectorName with _ | n
  · rw [cost, hname]
    rfl
  · rw [cost, hname, Option.map_some, Option.getD_some, weight, if_neg]
    rintro ⟨-, hconfirm⟩
    rw [hflag] at hconfirm
    cases hconfirm

/-- A delivery of the message, the first one or one after a loss. -/
theorem grows_deliver {n : ℕ} {l : List Address} {t : MessageMeta} (hm : Item u f b m)
    (ht : m.meta_ = some t) (hfits : b = true → Fits E users u f l k)
    (hsub : (addressesOf s.channels u).Sublist l)
    (hn : m.type = some .MESSAGE → b = true → 1 ≤ n ∨ f = some .RELIABLE ∧ k ≤ n) :
    Grows users k u f b n s ((deliverMessage E m).run s).2 := by
  have hsent := sendsOn_deliverMessage (E := E) m s
  obtain ⟨ps, hps, hall⟩ := hsent.parcels
  refine ⟨by rw [hsent.channels], ⟨ps, hps, fun q hq => plain_of_sentFor hm (hall q hq)⟩, ?_⟩
  by_cases htype : m.type = some .MESSAGE
  swap
  · rw [load_of_sendsOn hsent htype]
    exact Nat.le_add_right _ _
  obtain ⟨hto, hf, hb⟩ := hm.letter htype
  have hload : load users k ((deliverMessage E m).run s).2 ≤ load users k s +
      ((targets E m.to_ (sent E m).deliveryType s).map (cost users k (sent E m))).sum :=
    load_deliverMessage (by rw [htype]; decide) s
  rw [hto] at hload
  obtain ⟨t', ht'⟩ := Recovery.meta_sent (D := ⟨E, fun _ _ => "", fun _ _ => 0⟩) ht
  cases b with
  | false =>
    have hzero : ((targets E (some u) (sent E m).deliveryType s).map
        (cost users k (sent E m))).sum = 0 := by
      rw [List.sum_eq_zero_iff_forall_eq_nat]
      intro x hx
      obtain ⟨a, -, rfl⟩ := List.mem_map.1 hx
      exact cost_of_unconfirmed ht' ((confirmEnabled_sent ht).trans hb) a
    omega
  | true =>
    obtain ⟨hone, hmore⟩ := sum_cost_le (s := s) (hfits rfl) hto ht hf hsub
    rcases hn htype rfl with hn | ⟨hrel, hn⟩
    · omega
    · have := hmore hrel
      omega

/-! ### Confirmations -/

/-- A confirmation, or its wrapper, is delivered. -/
theorem grows_side {c : MessageContent} {ty : MessageType} (hc : m.content = some c)
    (hty : c.type = some ty) (hside : ty = .MESSAGE_CONFIRMATION ∨ ty = .INTERNAL_MESSAGE)
    (s : Processor.State) : Grows users k u f b 0 s ((deliverMessage E m).run s).2 := by
  have hsent := sendsOn_deliverMessage (E := E) m s
  obtain ⟨ps, hps, hall⟩ := hsent.parcels
  refine ⟨by rw [hsent.channels], ⟨ps, hps, fun q hq => plain_of_side hc hty hside (hall q hq)⟩, ?_⟩
  refine (load_of_sendsOn hsent ?_).le
  rw [type_of_content hc hty]
  rcases hside with rfl | rfl <;> decide

/-- A confirmation is processed. -/
theorem grows_confirm (blank message : Message) (depth : ℕ)
    (s : Processor.State) : Grows users k u f b 1 s ((Processor.process E (depth + 2)
      (MessageStateChangedMessageProcessor.confirmMessage E blank message)).run s).2 := by
  generalize hi : MessageStateChangedMessageProcessor.confirmMessage E blank message = i
  have hit : i.meta_ = some (AuthClientMessageProcessor.getOriginalAddressMeta E) := by
    rw [← hi]
    rfl
  obtain ⟨ref, hic⟩ : ∃ ref, i.content = some (createMessageContent .MESSAGE_CONFIRMATION
      (.messageConfirmation ref) (some .RELIABLE)) := by
    rw [← hi]
    exact ⟨_, rfl⟩
  have hconfirmation : some MessageType.MESSAGE_CONFIRMATION ≠ some .INTERNAL_MESSAGE := by decide
  have hprep : ∀ s, ((CustomMessageConfirmationProcessor.processor E).preprocess i.touch).run s =
      (.ok i.touch, s) := by
    intro s
    rw [MessageProcessor.preprocess]
    exact (run_bind_ok (run_getData (m := i.touch) hic rfl s)).trans rfl
  have hmeta : i.touch.meta_ = some (AuthClientMessageProcessor.getOriginalAddressMeta E).touch := by
    rw [MessageOf.touch, MessageOf.updateMeta_meta, hit]
    rfl
  have htype : i.type = some .MESSAGE_CONFIRMATION := type_of_content hic rfl
  have hnote : Grows users k u f b 1 s (s.noting i) := by
    refine ⟨.refl _, ⟨[], (List.append_nil _).symm, fun q hq => by cases hq⟩, ?_⟩
    rw [load, load, confirmations_noting, if_pos htype]
    exact Nat.le_refl _
  by_cases hloc : isLocal E i.touch = true
  · have hrun := run_processWith_prepared (E := E) (Processor.process E (depth + 1)) hit
      (isAlive_touch rfl (by decide)) hic hconfirmation rfl hprep hmeta s
    rw [hloc, if_pos rfl] at hrun
    have hsend : (Processor.process E (depth + 2) i).run s =
        (deliverMessage E i.touch).run (s.noting i) :=
      hrun.trans (run_bind_ok (run_getData (m := i.touch) hic rfl _))
    rw [hsend]
    exact hnote.trans (grows_side (m := i.touch) hic rfl (.inl rfl) _)
  · rw [run_process_away hit (isAlive_touch rfl (by decide)) hic hconfirmation rfl hprep hmeta hic
      (by simpa using hloc), run_reraise]
    generalize hw : wrapperOf E i.touch (createMessageContent .MESSAGE_CONFIRMATION
      (.messageConfirmation ref) (some .RELIABLE)) (s.noting i) = w
    obtain ⟨c, hwc, hwty⟩ : ∃ c, w.content = some c ∧ c.type = some .INTERNAL_MESSAGE := by
      rw [← hw]
      exact ⟨_, rfl, rfl⟩
    have hwtype : w.type = some .INTERNAL_MESSAGE := type_of_content hwc hwty
    have hwrapped : Grows users k u f b 0 (s.noting i) ((s.noting i).next.noting w) := by
      refine .of_storesOnly ⟨rfl, rfl, ?_⟩
      rw [confirmations_noting, if_neg (by rw [hwtype]; decide)]
      rfl
    exact (hnote.trans hwrapped).trans (grows_side (m := w.touch) hwc hwty (.inr rfl) _)

/-! ### Reports -/

/-- A confirmation is sent, or not. -/
theorem triple_sendConfirmation (message : Message) (depth : ℕ) (s₀ : Processor.State) :
    Triple (StoresOnly s₀) (MessageStateChangedMessageProcessor.sendConfirmationMessageToSender E
      (Processor.process E (depth + 2)) message) (fun _ => Grows users k u f b 1 s₀)
        (Grows users k u f b 1 s₀) := by
  have hnone : ∀ s, StoresOnly s₀ s → Grows users k u f b 1 s₀ s := fun s hs =>
    (Grows.of_storesOnly hs).mono (Nat.zero_le 1)
  refine .bind_keeps (keeps_orNullPointer _ _) (fun c _ => ?_) hnone
  refine .ite (fun _ => .of_run hnone) fun _ => ?_
  refine .bind_keeps (keeps_orNullPointer _ _) (fun enabled _ => ?_) hnone
  refine .ite (fun _ => ?_) fun _ => .of_run hnone
  have hbuilder : Keeps (StoresOnly s₀) (builder E) fun _ => True := fun s hs =>
    ⟨⟨hs.channels, hs.parcels, hs.confirmations⟩, fun _ _ => trivial⟩
  refine .bind_keeps hbuilder (fun blank _ => .of_run fun s hs => ?_) hnone
  exact (Grows.of_storesOnly hs).trans (grows_confirm blank message depth s)

/-- A report that a copy was written, or that it was not. -/
theorem triple_report {st : MessageState} (hst : st ≠ .ADDRESS_NOT_FOUND) (r : Message) (depth : ℕ)
    (s₀ : Processor.State) : Triple (StoresOnly s₀) (MessageStateChangedMessageProcessor.report E
      (Processor.process E (depth + 2)) (some p) (some st) r)
        (fun _ => Grows users k u f b (reportWeight k p st) s₀)
          (Grows users k u f b (reportWeight k p st) s₀) := by
  have hnone : ∀ s, StoresOnly s₀ s → Grows users k u f b (reportWeight k p st) s₀ s := fun s hs =>
    (Grows.of_storesOnly hs).mono (Nat.zero_le _)
  refine .bind_keeps (keeps_orNullPointer _ _) (fun msg hmsg => ?_) hnone
  cases hmsg
  refine .ite (fun h => absurd (Option.some.inj h) hst) fun _ => ?_
  have hpersist : Keeps (StoresOnly s₀) (persistMessage E p (some st)) fun m' =>
      m'.content = p.content :=
    content_persistMessage fun s hs => trans_of StoresOnly hs (storesOnly_persistMessage _ _ s)
  refine .bind_keeps hpersist (fun p' hp' => ?_) hnone
  refine .bind_keeps (Rules.keeps_deliveredHere p' (some st)) (fun confirms hconfirms => ?_) hnone
  refine .ite (fun h => ?_) fun _ => .of_run hnone
  -- only what was written is confirmed, and only a `MESSAGE`
  obtain ⟨hprocessed, htype⟩ := hconfirms h
  have htype' : p.type = some .MESSAGE := by
    rw [MessageOf.type, ← hp']
    exact htype
  rw [reportWeight, if_pos htype', if_pos (Option.some.inj hprocessed)]
  exact triple_sendConfirmation p' depth s₀

/-- A record for the processors: it reports on what goes out for the message, and only what is reliable
is reported as lost. -/
structure Reported (u : String) (f : Option MessageFeature) (b : Bool) (r p : Message)
    (st : MessageState) : Prop where
  isReport : IsReport r p st
  plain : Plain u f b p
  lost : st = .ADDRESS_NOT_FOUND → p.feature = some .RELIABLE

omit [JavaChar] in
theorem recordWeight_report {r : Message} {st : MessageState} (h : IsReport r p st) :
    recordWeight k r = reportWeight k p st := by
  obtain ⟨c, hc, -, hdata⟩ := h.content
  rw [recordWeight, MessageOf.data, hc, Option.map_some, Option.getD_some, hdata]

omit [JavaChar] in
theorem addressesOf_delete_sublist (channels : String → Option (List Address)) (v : String)
    (a : Option Address) :
    (addressesOf (UserChannelService.delete v a channels) u).Sublist (addressesOf channels u) := by
  by_cases hv : u = v
  · subst hv
    rw [UserChannelService.addressesOf_delete]
    exact List.filter_sublist
  · simp [UserChannelService.delete, addressesOf, hv]

/-- **A report that is consumed** adds no more than its weight. -/
theorem grows_onRecordArrived {r : Message} {st : MessageState} {l : List Address}
    (h : Reported u f b r p st) (hfits : b = true → Fits E users u f l k)
    (hsub : (addressesOf s.channels u).Sublist l) :
    Grows users k u f b (reportWeight k p st) s ((onRecordArrived E r).run s).2 := by
  obtain ⟨depth, hdepth⟩ : ∃ n, callDepth r = n + 3 := ⟨callDepth r - 3, by unfold callDepth; omega⟩
  obtain ⟨c, hc, htype, -⟩ := h.isReport.content
  have hnote : StoresOnly s (s.noting r) := by
    refine ⟨rfl, rfl, ?_⟩
    rw [confirmations_noting, if_neg]
    · rfl
    · rw [MessageOf.type, hc, Option.bind_some, htype]
      decide
  have hprocess : Grows users k u f b (reportWeight k p st) s
      ((MessageProcessorService.process E r).run s).2 := by
    rw [MessageProcessorService.process, hdepth]
    by_cases hst : st = .ADDRESS_NOT_FOUND
    · -- the message is delivered without the address of the lost copy
      subst hst
      obtain ⟨v, hv⟩ := Option.ne_none_iff_exists'.1 h.plain.to_
      obtain ⟨t, a, ht, -⟩ := h.plain.meta_
      rw [run_process_lost ⟨h.isReport.to_, h.isReport.meta_, h.isReport.content⟩ hv ht, Proc.during,
        run_reraise]
      have hleft : (addressesOf (s.afterLoss r v t.targetAddress).channels u).Sublist
          (addressesOf s.channels u) := addressesOf_delete_sublist s.channels v t.targetAddress
      have hload : load users k (s.afterLoss r v t.targetAddress) = load users k s :=
        load_congr rfl hnote.confirmations
      have hloss : Grows users k u f b 0 s (s.afterLoss r v t.targetAddress) :=
        ⟨hleft, ⟨[], (List.append_nil _).symm, fun q hq => by cases hq⟩, hload.le⟩
      have hdeliver := grows_deliver (s := s.afterLoss r v t.targetAddress)
        (n := reportWeight k p .ADDRESS_NOT_FOUND) h.plain.toItem ht hfits (hleft.trans hsub)
        fun hm hb => by
          have hletter := h.plain.letter hm
          have hrel := h.lost rfl
          refine .inr ⟨hletter.2.1.symm.trans hrel, ?_⟩
          rw [reportWeight, if_pos hm, if_neg (by decide), if_pos ⟨rfl, hletter.2.2.trans hb, hrel⟩]
      have htrans := hloss.trans hdeliver
      rw [Nat.zero_add] at htrans
      exact htrans
    · rw [run_process_report h.isReport, Proc.during, run_reraise]
      exact (triple_report hst r.touch depth s).run hnote
  have hrecover := recover_of_persists (E := E) storesOnly_persistMessage
    (MessageProcessorService.process E r) s
  rw [onRecordArrived, onMessageArrived, onMessageArrivedWith]
  exact hprocess.trans (.of_storesOnly hrecover)

/-! ### The message -/

/-- A `MESSAGE` with this content for the user, as its sender has sent it, or on its way. -/
structure IsRequest (u : String) (c : MessageContent) (m : Message) : Prop where
  content : m.content = some c
  type : c.type = some .MESSAGE
  data : ∃ text, c.data = .messageRequest ⟨some u, text⟩
  meta_ : ∃ t, m.meta_ = some t

/-- The message, in wrappers or not. -/
inductive IsSent (u : String) (c : MessageContent) : Message → Prop where
  | request {m : Message} : IsRequest u c m → IsSent u c m
  | wrapper {w i : Message} {t : MessageMeta} {c' : MessageContent} : IsSent u c i →
      w.meta_ = some t → w.content = some c' → c'.type = some .INTERNAL_MESSAGE →
      c'.data = .message i → isBlank w.to_ = false → IsSent u c w

/-- A confirmation is asked for. -/
def asks (c : MessageContent) : Bool := c.confirmationEnabled = some true && !isBlank c.reference

variable {c : MessageContent} {l : List Address}

/-- The message is delivered in the domain of its recipient. -/
theorem grows_request {t : MessageMeta} (hm : IsRequest u c m) (ht : m.meta_ = some t)
    (hto : m.to_ = some u) (hfits : asks c = true → Fits E users u c.feature l k)
    (hsub : (addressesOf s.channels u).Sublist l) :
    Grows users k u c.feature (asks c) 1 s (((CustomMessageProcessor.processor E).process m).run s).2 := by
  obtain ⟨text, hdata⟩ := hm.data
  have hnone : Grows users k u c.feature (asks c) 1 s s :=
    (Grows.of_storesOnly (refl_of StoresOnly s)).mono (Nat.zero_le 1)
  have hget : (getData Data.messageRequest? m).run s = (.ok (some ⟨some u, text⟩), s) :=
    run_getData hm.content (by rw [hdata]; rfl) s
  have hrun : ((CustomMessageProcessor.processor E).process m).run s = (do
      let m' ← CustomMessageProcessor.updateMessageConfirmationFlag
        (m.setData (.messageForward ⟨m.from_, text⟩))
      deliverMessage E m' : Proc Unit).run s := run_bind_ok hget
  rw [hrun]
  have hcontent : (m.setData (.messageForward ⟨m.from_, text⟩)).content =
      some { c with data := .messageForward ⟨m.from_, text⟩ } := by
    rw [MessageOf.setData, MessageOf.updateContent, hm.content]
    rfl
  have hmeta : (m.setData (.messageForward ⟨m.from_, text⟩)).meta_ = some t := ht
  rcases henabled : c.confirmationEnabled with _ | enabled
  · -- the flag is not there
    have hthrow : (CustomMessageProcessor.updateMessageConfirmationFlag
        (m.setData (.messageForward ⟨m.from_, text⟩))).run s =
          (.error ⟨.nullPointer, m.setData (.messageForward ⟨m.from_, text⟩)⟩, s) := by
      rw [CustomMessageProcessor.updateMessageConfirmationFlag, run_bind_ok (run_getContent hcontent s),
        henabled]
      rfl
    rw [run_bind_error hthrow]
    exact hnone
  · have hflag : (CustomMessageProcessor.updateMessageConfirmationFlag
        (m.setData (.messageForward ⟨m.from_, text⟩))).run s =
          (.ok ((m.setData (.messageForward ⟨m.from_, text⟩)).updateMeta fun t =>
            { t with confirmEnabled := enabled && !isBlank c.reference }), s) := by
      rw [CustomMessageProcessor.updateMessageConfirmationFlag, run_bind_ok (run_getContent hcontent s),
        henabled]
      exact run_bind_ok (run_getMeta hmeta s)
    rw [run_bind_ok hflag]
    have hmeta' : ((m.setData (.messageForward ⟨m.from_, text⟩)).updateMeta fun t =>
        { t with confirmEnabled := enabled && !isBlank c.reference }).meta_ =
          some { t with confirmEnabled := enabled && !isBlank c.reference } := by
      rw [MessageOf.updateMeta_meta, hmeta]
      rfl
    have hitem : Item u c.feature (asks c) ((m.setData (.messageForward ⟨m.from_, text⟩)).updateMeta
        fun t => { t with confirmEnabled := enabled && !isBlank c.reference }) := by
      refine ⟨⟨_, .MESSAGE, hcontent, hm.type, .inl rfl⟩, fun _ => ⟨hto, ?_, ?_⟩⟩
      · rw [MessageOf.feature, MessageOf.updateMeta_content, hcontent]
        rfl
      · rw [MessageOf.confirmEnabled, hmeta', asks, henabled]
        cases enabled <;> rfl
    exact grows_deliver hitem hmeta' hfits hsub fun _ _ => .inl (Nat.le_refl 1)

omit [JavaChar] in
/-- What is noted of a message that is no confirmation. -/
theorem storesOnly_noting (hm : m.type ≠ some .MESSAGE_CONFIRMATION) : StoresOnly s (s.noting m) := by
  refine ⟨rfl, rfl, ?_⟩
  rw [confirmations_noting, if_neg hm]
  rfl

section

variable {process : Message → Proc Unit}

/-- The request, on a call stack of calls that grow no more. -/
theorem grows_processWith_request (hm : IsRequest u c m)
    (hfits : asks c = true → Fits E users u c.feature l k)
    (hsub : (addressesOf s.channels u).Sublist l)
    (hprocess : ∀ {m : Message} {s : State}, IsSent u c m → (addressesOf s.channels u).Sublist l →
      Grows users k u c.feature (asks c) 1 s ((process m).run s).2) :
    Grows users k u c.feature (asks c) 1 s ((processWith E process m).run s).2 := by
  obtain ⟨t, ht⟩ := hm.meta_
  obtain ⟨text, hdata⟩ := hm.data
  have hnote : StoresOnly s (s.noting m) :=
    storesOnly_noting (by rw [type_of_content hm.content hm.type]; decide)
  by_cases halive : t.touch.isAlive = true
  swap
  -- a message whose ttl has run out is dropped
  · rw [run_processWith_dead _ ht (by simpa using halive)]
    exact (Grows.of_storesOnly hnote).mono (Nat.zero_le 1)
  have hprep : ∀ s, ((CustomMessageProcessor.processor E).preprocess m.touch).run s =
      (.ok (m.touch.setTo (some u)), s) := by
    intro s
    have hget : (getData Data.messageRequest? m.touch).run s = (.ok (some ⟨some u, text⟩), s) :=
      run_getData (m := m.touch) hm.content (by rw [hdata]; rfl) s
    have hrun : ((CustomMessageProcessor.processor E).preprocess m.touch).run s = _ :=
      run_bind_ok hget
    exact hrun
  have ht' : (m.touch.setTo (some u)).meta_ = some t.touch := by
    rw [MessageOf.setTo_meta, MessageOf.touch, MessageOf.updateMeta_meta, ht]
    rfl
  have hm' : IsRequest u c (m.touch.setTo (some u)) := ⟨hm.content, hm.type, ⟨text, hdata⟩, _, ht'⟩
  rw [run_processWith_prepared _ ht halive hm.content (by rw [hm.type]; decide)
    (by rw [hm.type]; rfl) hprep ht']
  by_cases hloc : isLocal E (m.touch.setTo (some u)) = true
  · rw [hloc, if_pos rfl]
    exact (Grows.of_storesOnly hnote).trans (grows_request (s := s.noting m) hm' ht' rfl hfits hsub)
  · -- it leaves in a wrapper
    rw [if_neg hloc, run_processCrossDomainMessage _ ht' hm'.content (by rw [hm.type]; decide),
      Proc.during, run_reraise]
    have hblank : isBlank (some u) = false := by
      rw [Bool.not_eq_true, isLocal, Bool.or_eq_false_iff] at hloc
      exact hloc.1
    have hwrapper : IsSent u c (internalMessage (E.blank (s.noting m).serial)
        (m.touch.setTo (some u)) c.feature (domainOf E (m.touch.setTo (some u)))) :=
      .wrapper (.request hm') rfl rfl rfl rfl hblank
    have hnext : StoresOnly s (s.noting m).next :=
      ⟨hnote.channels, hnote.parcels, hnote.confirmations⟩
    exact (Grows.of_storesOnly hnext).trans (hprocess (s := (s.noting m).next) hwrapper hsub)

/-- A wrapper of it. -/
theorem grows_processWith_wrapper {i : Message} {t : MessageMeta} {c' : MessageContent}
    (hi : IsSent u c i) (ht : m.meta_ = some t) (hc : m.content = some c')
    (htype : c'.type = some .INTERNAL_MESSAGE) (hdata : c'.data = .message i)
    (hto : isBlank m.to_ = false) (hsub : (addressesOf s.channels u).Sublist l)
    (hprocess : ∀ {m : Message} {s : State}, IsSent u c m → (addressesOf s.channels u).Sublist l →
      Grows users k u c.feature (asks c) 1 s ((process m).run s).2) :
    Grows users k u c.feature (asks c) 1 s ((processWith E process m).run s).2 := by
  have hnote : StoresOnly s (s.noting m) :=
    storesOnly_noting (by rw [type_of_content hc htype]; decide)
  by_cases halive : t.touch.isAlive = true
  swap
  · rw [run_processWith_dead _ ht (by simpa using halive)]
    exact (Grows.of_storesOnly hnote).mono (Nat.zero_le 1)
  rw [run_processWith_wrapper _ ht halive hc htype hdata hto]
  by_cases hloc : isLocal E m.touch = true
  · -- the message inside is processed here
    rw [hloc, if_pos rfl, Proc.during, run_reraise]
    exact (Grows.of_storesOnly hnote).trans (hprocess (s := s.noting m) hi hsub)
  · -- the wrapper goes on as it is
    rw [if_neg hloc]
    exact ((Grows.of_storesOnly hnote).trans
      (grows_side (m := m.touch) hc htype (.inr rfl) _)).mono (Nat.zero_le 1)

end

/-- **The message is processed**, wherever it is. -/
theorem grows_process (depth : ℕ) (hm : IsSent u c m)
    (hfits : asks c = true → Fits E users u c.feature l k)
    (hsub : (addressesOf s.channels u).Sublist l) :
    Grows users k u c.feature (asks c) 1 s ((Processor.process E depth m).run s).2 := by
  induction depth generalizing m s with
  | zero => exact (Grows.of_storesOnly (refl_of StoresOnly s)).mono (Nat.zero_le 1)
  | succ depth ih =>
    rw [Processor.process]
    cases hm with
    | request hm => exact grows_processWith_request hm hfits hsub ih
    | wrapper hi ht hc htype hdata hto =>
      exact grows_processWith_wrapper hi ht hc htype hdata hto hsub ih

/-- What is thrown while the message is processed has it stored. -/
theorem grows_onMessageArrived (hm : IsSent u c m)
    (hfits : asks c = true → Fits E users u c.feature l k)
    (hsub : (addressesOf s.channels u).Sublist l) :
    Grows users k u c.feature (asks c) 1 s ((PostOffice.onMessageArrived E m).run s).2 := by
  have hstore : ∀ e : Thrown, Moves StoresOnly (do
      let _ ← persistMessage E e.message (some .PROCESSOR_ERROR)
      pure () : Proc Unit) := fun e => (storesOnly_persistMessage _ _).bind fun _ => .pure _
  have hprocess := grows_process (s := s) (callDepth m) hm hfits hsub
  rw [PostOffice.onMessageArrived, PostOffice.onMessageArrivedWith, MessageProcessorService.process]
  refine Keeps.run_recoverIf hprocess fun e s' _ hs' => ?_
  exact hs'.trans (.of_storesOnly (hstore e s'))

/-! ### Connectors -/

omit [JavaChar] in
/-- The report that a connector publishes. -/
theorem published_reported {C : Connector.Config} {s : Connector.State} {st : MessageState} {n : ℕ}
    (hp : Plain u f b p) (hs : s.published = [])
    (hlost : st = .ADDRESS_NOT_FOUND → p.feature = some .RELIABLE) (hle : reportWeight k p st ≤ n) :
    (∀ r ∈ (s.reported C p st).published, ∃ st, Reported u f b r p st) ∧
      ((s.reported C p st).published.map (recordWeight k)).sum ≤ n := by
  have hisReport : IsReport (Connector.PostOffice.stateChangedMessage C (C.blank s.serial) p st) p st :=
    ⟨rfl, ⟨_, rfl, rfl, rfl⟩, ⟨_, rfl, rfl, rfl⟩⟩
  rw [Connector.State.reported, hs, List.nil_append]
  refine ⟨fun r hr => ?_, ?_⟩
  · cases List.mem_singleton.1 hr
    exact ⟨st, hisReport, hp, hlost⟩
  · rw [List.map_singleton, List.sum_singleton, recordWeight_report hisReport]
    exact hle

omit [JavaChar] in
/-- A connector that has nothing to publish publishes one report on a copy at most, and it leads to no
more than the copy could. -/
theorem handled_reports {C : Connector.Config} {t : MessageMeta} {a : Address} {v target : String}
    {c : MessageContent} {g : Connector.State} (hp : Plain u f b p) (hv : p.to_ = some v)
    (hc : p.content = some c) (ht : p.meta_ = some t) (ha : t.targetAddress = some a)
    (husers : users target = some g.users) (hg : g.published = []) :
    (∀ r ∈ (g.handled C p v c t a).published, ∃ st, Reported u f b r p st) ∧
      ((g.handled C p v c t a).published.map (recordWeight k)).sum ≤ weight users k target p := by
  have hfinds : finds users target p = (Connector.UserMap.getUser v a.socketId g.users).isSome := by
    have htarget : p.targetAddress = some a := by
      rw [MessageOf.targetAddress, ht]
      exact ha
    rw [finds, hv, htarget]
    simp only [husers, Option.map_some, Option.getD_some]
  have hfeature : p.feature = c.feature := by
    rw [MessageOf.feature, hc]
    rfl
  have hconfirm : p.confirmEnabled = t.confirmEnabled := by
    rw [MessageOf.confirmEnabled, ht]
    rfl
  have hnone : ∀ s : Connector.State, s.published = [] →
      (∀ r ∈ s.published, ∃ st, Reported u f b r p st) ∧
        (s.published.map (recordWeight k)).sum ≤ weight users k target p := by
    intro s hs
    rw [hs]
    exact ⟨fun r hr => absurd hr List.not_mem_nil, Nat.zero_le _⟩
  unfold Connector.State.handled
  cases hget : Connector.UserMap.getUser v a.socketId g.users with
  | none =>
    rw [hget] at hfinds
    simp only
    split
    · next hrel =>
      refine published_reported hp hg (fun _ => hfeature.trans hrel) ?_
      rw [reportWeight, weight, hfinds, hfeature, hrel]
      by_cases htype : p.type = some .MESSAGE <;> by_cases hen : p.confirmEnabled = true <;>
        simp [htype, hen]
    · exact hnone g hg
  | some i =>
    rw [hget] at hfinds
    have hwrote : (g.wrote i p c).published = [] := hg
    simp only
    split
    · next hreport =>
      refine published_reported hp hwrote (fun h => ?_) ?_
      · split at h <;> cases h
      · rw [reportWeight, weight, hfinds]
        by_cases hsucceeds : g.succeeds i = true
        · -- it was written, and the confirmation is wanted
          have hen : p.confirmEnabled = true := by
            rw [hsucceeds] at hreport
            rw [hconfirm]
            simpa using hreport
          by_cases htype : p.type = some .MESSAGE <;> simp [htype, hen, hsucceeds]
        · rw [if_neg hsucceeds]
          simp
    · exact hnone _ hwrote

/-! ### Runs -/

/-- The steps of the deliveries: a connector consumes a copy, the producer gives up on one, or a
processor consumes a report. -/
def Delivery : World → Event → Prop
  | _, .handOut _ _ | _, .refuse _ | _, .dispatch _ _ => True
  | _, _ => False

/-- The users of the running connectors of a domain. -/
def usersOf (w : World) : Users := fun n => (w.connectors n).map (·.users)

/-- What goes on in the domain is about the one message, and can lead to `n` confirmations. -/
structure InFlight (u : String) (f : Option MessageFeature) (b : Bool) (users : Users)
    (l : List Address) (k n : ℕ) (w : World) : Prop where
  connected : usersOf w = users
  published : ∀ n s, w.connectors n = some s → s.published = []
  parcels : ∀ p ∈ w.processor.parcels, Plain u f b p.message
  reports : ∀ r ∈ w.incoming, ∃ p st, Reported u f b r p st
  addresses : (addressesOf w.processor.channels u).Sublist l
  total : total users k w ≤ n

variable {n : ℕ} {w w' : World}

omit [JavaChar] in
theorem inFlight_of_grows {j : ℕ} {x : Proc Unit} {d : Draws} {incoming dispatched : List Message}
    (hw : InFlight u f b users l k n w) (hinc : ∀ r ∈ incoming, r ∈ w.incoming)
    (hx : Grows users k u f b j (w.processor.drawing d) (x.run (w.processor.drawing d)).2)
    (hle : total users k w + j + (incoming.map (recordWeight k)).sum ≤
      n + (w.incoming.map (recordWeight k)).sum) :
    InFlight u f b users l k n
      (({ w with incoming, dispatched } : World).atProcessor x d) := by
  obtain ⟨ps, hps, hall⟩ := hx.parcels
  refine ⟨hw.connected, hw.published, fun p hp => ?_, fun r hr => hw.reports r (hinc r hr),
    hx.channels.trans hw.addresses, ?_⟩
  · have hp' : p ∈ w.processor.parcels ++ ps := hps ▸ hp
    exact (List.mem_append.1 hp').elim (hw.parcels p) (hall p)
  · have hload : load users k (w.processor.after x d) ≤ load users k w.processor + j := hx.load
    show load users k (w.processor.after x d) + (incoming.map (recordWeight k)).sum ≤ n
    rw [total] at hle
    omega

section

variable {D : Domain}

/-- A processor consumes a report. -/
theorem inFlight_dispatch (hfits : b = true → Fits D.env users u f l k)
    (hw : InFlight u f b users l k n w) {j : ℕ} {d : Draws} (h : D.step w (.dispatch j d) = some w') :
    InFlight u f b users l k n w' := by
  obtain ⟨r, hr, rfl⟩ := Domain.step_dispatch h
  obtain ⟨p, st, hreported⟩ := hw.reports r (List.mem_of_getElem? hr)
  have hgrows := grows_onRecordArrived (k := k) (s := w.processor.drawing d) hreported hfits
    hw.addresses
  refine inFlight_of_grows hw (fun r' hr' => List.mem_of_mem_eraseIdx hr') hgrows ?_
  -- what the report can lead to was counted while it was on its way
  have hsum := Recovery.sum_eraseIdx (recordWeight k) hr
  have htotal := hw.total
  rw [recordWeight_report hreported.isReport] at hsum
  omega

/-- A connector consumes a copy. -/
theorem inFlight_handOut (hw : InFlight u f b users l k n w) {j : ℕ} {futures : List Bool}
    (h : D.step w (.handOut j futures) = some w') : InFlight u f b users l k n w' := by
  obtain ⟨q, g, hq, hg, rfl⟩ := Domain.step_handOut h
  have hplain := hw.parcels q (List.mem_of_getElem? hq)
  obtain ⟨c, ty, hc, hty, hside⟩ := hplain.content
  obtain ⟨t, a, ht, ha⟩ := hplain.meta_
  obtain ⟨v, hv⟩ := Option.ne_none_iff_exists'.1 hplain.to_
  have hspecial : ty ∉ Connector.specialTypes := by
    rcases hside with rfl | rfl | rfl <;> decide
  have husers : users q.target = some (g.expecting futures).users := by
    rw [← hw.connected, usersOf, hg]
    rfl
  have hrun : ((Connector.withFutures futures (Connector.PostOffice.onMessageArrived
      (D.config q.target) q.message)).run g).2 =
      (g.expecting futures).handled (D.config q.target) q.message v c t a := by
    rw [Connector.withFutures, run_modify_bind,
      Connector.run_onMessageArrived hv hc hty hspecial ht ha]
  obtain ⟨hreports, hweight⟩ := handled_reports (k := k) (C := D.config q.target) hplain hv hc ht ha
    husers (hw.published _ g hg)
  refine ⟨?_, fun m s hs => ?_, fun p hp => hw.parcels p (List.mem_of_mem_eraseIdx hp),
    fun r hr => ?_, hw.addresses, ?_⟩
  · -- the users of the connectors stay
    rw [← hw.connected]
    funext m
    rw [usersOf, World.atConnector, hrun]
    by_cases hm : m = q.target
    · subst hm
      simp [usersOf, hg, Connector.handled_users, Connector.State.expecting]
    · simp [usersOf, hm]
  · simp only [World.atConnector] at hs
    split_ifs at hs with hm
    · cases hs
      rfl
    · exact hw.published m s hs
  · simp only [World.atConnector, hrun] at hr
    rcases List.mem_append.1 hr with hr | hr
    · exact hw.reports r hr
    · exact ⟨q.message, hreports r hr⟩
  · -- the report weighs no more than the copy did
    have hsum := Recovery.sum_eraseIdx (fun p : Parcel => weight users k p.target p.message) hq
    have htotal := hw.total
    simp only [total, load, confirmations, World.atConnector, hrun, List.map_append,
      List.sum_append] at htotal ⊢
    omega

/-- The producer gives up on a copy. -/
theorem inFlight_refuse (hw : InFlight u f b users l k n w) {j : ℕ}
    (h : D.step w (.refuse j) = some w') : InFlight u f b users l k n w' := by
  obtain ⟨q, hq, rfl⟩ := Domain.step_refuse h
  have hstores : Moves StoresOnly (PostOffice.onMessageDeliveryFailed D.env q.message) :=
    (storesOnly_persistMessage _ _).bind fun _ => .pure _
  have hrefused : InFlight u f b users l k n { w with
      processor := { w.processor with parcels := w.processor.parcels.eraseIdx j } } := by
    refine ⟨hw.connected, hw.published, fun p hp => hw.parcels p (List.mem_of_mem_eraseIdx hp),
      hw.reports, hw.addresses, ?_⟩
    have hsum := Recovery.sum_eraseIdx (fun p : Parcel => weight users k p.target p.message) hq
    have htotal := hw.total
    simp only [total, load, confirmations] at htotal ⊢
    omega
  exact inFlight_of_grows (d := {}) hrefused (fun r hr => hr) (.of_storesOnly (hstores _))
    (Nat.add_le_add_right hrefused.total _)

/-- **No step adds to what can come.** -/
theorem inFlight_step (hfits : b = true → Fits D.env users u f l k)
    (hw : InFlight u f b users l k n w) {e : Event} (hok : Delivery w e) (h : D.step w e = some w') :
    InFlight u f b users l k n w' := by
  cases e with
  | dispatch => exact inFlight_dispatch hfits hw h
  | handOut => exact inFlight_handOut hw h
  | refuse => exact inFlight_refuse hw h
  | _ => exact hok.elim

end

/-- The domain takes up the message, and nothing else goes on: a processor consumes it as its sender has
sent it, or a tunnel brings it to the domain of the recipient. -/
inductive Begins (D : Domain) (u : String) (c : MessageContent) (w : World) : World → Prop where
  | dispatch {r : Message} {d : Draws} {w₁ : World} : IsSent u c r → w.incoming = [r] →
      D.step w (.dispatch 0 d) = some w₁ → Begins D u c w w₁
  | tunnel {i : Message} {d : Draws} {w₁ : World} : IsSent u c i → isBlank i.to_ = false →
      w.incoming = [] → D.step w (.tunnel (.message i) d) = some w₁ → Begins D u c w w₁

/-- At most one copy of the message leads to a confirmation. -/
def ConfirmsOnce (D : Domain) (u : String) (c : MessageContent) (w : World) : Prop :=
  asks c = true →
    ∃ k, Fits D.env (usersOf w) u c.feature (addressesOf w.processor.channels u) k

theorem inFlight_begins {D : Domain} (hparcels : w.processor.parcels = [])
    (hpublished : ∀ n s, w.connectors n = some s → s.published = []) (h : Begins D u c w w')
    (hfits : asks c = true →
      Fits D.env (usersOf w) u c.feature (addressesOf w.processor.channels u) k) :
    InFlight u c.feature (asks c) (usersOf w) (addressesOf w.processor.channels u) k
      (confirmations w.processor + 1) w' := by
  have hidle : ∀ incoming dispatched, incoming = [] →
      InFlight u c.feature (asks c) (usersOf w) (addressesOf w.processor.channels u) k
        (confirmations w.processor + 1) { w with incoming, dispatched } ∧
      total (usersOf w) k { w with incoming, dispatched } = confirmations w.processor := by
    rintro incoming dispatched rfl
    have htotal : total (usersOf w) k { w with incoming := [], dispatched } =
        confirmations w.processor := by
      simp only [total, load, hparcels, List.map_nil, List.sum_nil, Nat.zero_add, Nat.add_zero]
    refine ⟨⟨rfl, hpublished, fun p hp => ?_, fun r hr => absurd hr List.not_mem_nil, .refl _, ?_⟩,
      htotal⟩
    · have hp' : p ∈ w.processor.parcels := hp
      rw [hparcels] at hp'
      cases hp'
    · rw [htotal]
      exact Nat.le_succ _
  cases h with
  | @dispatch r d w₁ hr hinc h =>
    obtain ⟨r', hr', rfl⟩ := Domain.step_dispatch h
    rw [hinc] at hr'
    cases hr'
    obtain ⟨hcalm, htotal⟩ := hidle (w.incoming.eraseIdx 0) (w.dispatched ++ [r]) (by rw [hinc]; rfl)
    have hgrows : Grows (usersOf w) k u c.feature (asks c) 1 (w.processor.drawing d)
        ((PostOffice.onMessageArrived D.env r).run (w.processor.drawing d)).2 :=
      grows_onMessageArrived hr hfits (.refl _)
    have hrecord : Grows (usersOf w) k u c.feature (asks c) 1 (w.processor.drawing d)
        ((onRecordArrived D.env r).run (w.processor.drawing d)).2 := by
      rw [onRecordArrived]
      exact Keeps.run_recoverIf hgrows fun _ _ _ hs => hs
    exact inFlight_of_grows (w := { w with
      incoming := w.incoming.eraseIdx 0
      dispatched := w.dispatched ++ [r] }) hcalm (fun r hr => hr) hrecord (by rw [htotal])
  | @tunnel i d w₁ hi hto hinc h =>
    rw [Domain.step_tunnel h]
    obtain ⟨hcalm, htotal⟩ := hidle w.incoming w.dispatched hinc
    have hgrows : Grows (usersOf w) k u c.feature (asks c) 1 (w.processor.drawing d)
        ((DomainService.handleInternalMessage D.env (some .INTERNAL_MESSAGE) (.message i)).run
          (w.processor.drawing d)).2 := by
      have hi' : ∃ t c', i.meta_ = some t ∧ i.content = some c' := by
        cases hi with
        | request hi => exact ⟨_, _, hi.meta_.choose_spec, hi.content⟩
        | wrapper _ ht hc => exact ⟨_, _, ht, hc⟩
      obtain ⟨t, c', ht, hc⟩ := hi'
      rw [run_handleInternalMessage ht hc]
      have hwrapper : IsSent u c (DomainService.msgWrapper (D.env.blank (w.processor.drawing d).serial) i
          (some .INTERNAL_MESSAGE) (.message i) t c') := .wrapper hi rfl rfl rfl rfl hto
      have hnext : StoresOnly (w.processor.drawing d) (w.processor.drawing d).next := ⟨rfl, rfl, rfl⟩
      exact (Grows.of_storesOnly hnext).trans
        (grows_onMessageArrived (s := (w.processor.drawing d).next) hwrapper hfits (.refl _))
    exact inFlight_of_grows hcalm (fun r hr => hr) hgrows (by rw [htotal])

/-- **At most one confirmation**, in whatever order copies are written, given up and reported on. -/
theorem confirmed_once {D : Domain} (hparcels : w.processor.parcels = [])
    (hpublished : ∀ n s, w.connectors n = some s → s.published = []) {w₁ : World}
    (hbegins : Begins D u c w w₁) (honce : ConfirmsOnce D u c w)
    (hrun : D.system.Reaches Delivery w₁ w') :
    confirmations w'.processor ≤ confirmations w.processor + 1 := by
  obtain ⟨k, hfits⟩ : ∃ k, asks c = true →
      Fits D.env (usersOf w) u c.feature (addressesOf w.processor.channels u) k := by
    by_cases hasks : asks c = true
    · obtain ⟨k, hk⟩ := honce hasks
      exact ⟨k, fun _ => hk⟩
    · exact ⟨0, fun h => absurd h hasks⟩
  have hflight := hrun.invariant (inFlight_begins hparcels hpublished hbegins hfits)
    fun _ _ _ hw hok h => inFlight_step hfits hw hok h
  have htotal := hflight.total
  rw [total, load] at htotal
  omega

end

/-! ### One socket, and two -/

section

attribute [local instance] JavaChar.ascii

open Sample (domain connectorName)

namespace SampleConfirmation

def content : MessageContent where
  type := some .MESSAGE
  data := .messageRequest ⟨some "APP-6", some "hello"⟩
  reference := some "1"
  feature := some .RELIABLE

def request : Message :=
  { newMessage "1" 1 with
    content := some content
    from_ := some "APP-5"
    meta_ := some {} }

/-- `APP-6` has the sockets, of which others may be registered, and `APP-5` has sent the message. -/
def world (sockets registered : List ℤ) : World where
  processor := {
    channels := fun v =>
      if v = "APP-6" then
        some (registered.map fun i => ⟨some "domain-01", some connectorName, some i⟩)
      else none }
  connectors n :=
    if n = connectorName then
      some {
        users := fun v => if v = "APP-6" then some sockets else none
        sockets := fun i => if i ∈ sockets then some {} else none }
    else none
  incoming := [request]

variable {sockets registered : List ℤ}

theorem published (n : String) (s : Connector.State)
    (h : (world sockets registered).connectors n = some s) : s.published = [] := by
  simp only [world] at h
  split_ifs at h
  cases h
  rfl

/-- The message is taken up, and delivered in these steps. -/
theorem exists_begins {es : List Event} {n : ℕ}
    (h : ((domain.system.run (world sockets registered) (.dispatch 0 {} :: es)).map fun w =>
      confirmations w.processor) = some n) (hes : ∀ e ∈ es, ∀ w, Delivery w e) :
    ∃ w₁ w' : World, Begins domain "APP-6" content (world sockets registered) w₁ ∧
      domain.system.Reaches Delivery w₁ w' ∧ confirmations w'.processor = n := by
  obtain ⟨w', hw', hn⟩ := Option.map_eq_some_iff.1 h
  obtain ⟨w₁, hfirst, hrest⟩ := System.run_cons_eq_some.1 hw'
  exact ⟨w₁, w', .dispatch (.request ⟨rfl, rfl, ⟨_, rfl⟩, _, rfl⟩) rfl hfirst,
    System.reaches_of_run hrest hes, hn⟩

/-- One socket, which is written to. -/
theorem run_one : ((domain.system.run (world [0] [0])
    [.dispatch 0 {}, .handOut 0 [], .dispatch 0 {}]).map fun w => confirmations w.processor) =
      some 1 := by decide +kernel

end SampleConfirmation

open SampleConfirmation

/-- A user with one socket. -/
theorem confirmed_once_socket : ∃ w₁ w' : World,
    Begins domain "APP-6" content (world [0] [0]) w₁ ∧ confirmations w'.processor = 1 ∧
      confirmations w'.processor ≤ confirmations (world [0] [0]).processor + 1 := by
  obtain ⟨w₁, w', hbegins, hreaches, hone⟩ := exists_begins run_one (by simp [Delivery])
  have honce : ConfirmsOnce domain "APP-6" content (world [0] [0]) := fun _ =>
    ⟨1, .inl ⟨rfl, .inr (by decide +kernel)⟩⟩
  exact ⟨w₁, w', hbegins, hone, confirmed_once rfl published hbegins honce hreaches⟩

/-- **Two confirmations.**  The recipient has two sockets, and both are written to. -/
theorem confirmed_twice : ∃ w₁ w' : World, isBlank content.reference = false ∧
    Begins domain "APP-6" content (world [0, 1] [0, 1]) w₁ ∧ domain.system.Reaches Delivery w₁ w' ∧
      confirmations (world [0, 1] [0, 1]).processor = 0 ∧ confirmations w'.processor = 2 := by
  have hrun : ((domain.system.run (world [0, 1] [0, 1])
      [.dispatch 0 {}, .handOut 0 [], .handOut 0 [], .dispatch 0 {}, .dispatch 0 {}]).map fun w =>
        confirmations w.processor) = some 2 := by decide +kernel
  obtain ⟨w₁, w', hbegins, hreaches, htwo⟩ := exists_begins hrun (by simp [Delivery])
  exact ⟨w₁, w', by decide +kernel, hbegins, hreaches, rfl, htwo⟩

-- the copy to a socket that has gone away is delivered again, to the socket that has had its copy
example : ((domain.system.run (world [0] [0, 1])
    [.dispatch 0 {}, .handOut 0 [], .handOut 0 [], .dispatch 0 {}, .dispatch 0 {}, .handOut 0 [],
      .dispatch 0 {}]).map fun w => confirmations w.processor) = some 2 := by decide +kernel

end

end Confirmation

end Linker
