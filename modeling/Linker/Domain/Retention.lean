import Linker.Domain.Persistence
import Linker.Processor.Changes
import Linker.Processor.Fetching

/-!
# What leaves the store

Only the loop over a page of stored messages removes records: it delivers a message and then removes what
is stored under its id.  A delivery that finds no address, or whose record the producer refuses, has the
message saved again, and the loop removes that record too.

## Main definitions

* `Takes` : the change that puts a copy of a letter on a topic, or saves it as undelivered.
* `Accounts` : the change in which nothing leaves the store otherwise.

## Main results

* `kept_or_taken` : a letter is in the store until a step of the domain that takes it.
* `posted_iff` : the loop puts the letters of a page on topics if their recipient has an address; if not,
  they are neither on a topic nor in the store.
-/

namespace Linker

open Processor ProcessorUtils ClientAppService MessageProcessorService PostOffice Exec
open FetchMissingMessagesMessageProcessor (deliverAndRemove fetchableStates)

namespace Processor

/-- A message with the id is in the store. -/
def IsStored (i : String) (s : State) : Prop := ∃ r ∈ s.messages, r.id = some i

/-- Among what is new on the topics and in the journal there is a copy of the letter, or the letter as
one that could not be delivered. -/
inductive Taken (i : String) (ps : List Parcel) (l : List Entry) : Prop where
  | posted {p : Parcel} : p ∈ ps → p.message.id = some i → Taken i ps l
  | undelivered {m : Message} : .saved m ∈ l → m.id = some i → IsFetchable m → Taken i ps l

/-- The change puts a copy of the letter on a topic, or has it saved. -/
def Takes (i : String) (s s' : State) : Prop :=
  ∃ ps l, s'.parcels = s.parcels ++ ps ∧ s'.journal = s.journal ++ l ∧ Taken i ps l

/-- What leaves the store has been taken, where only `RELIABLE` messages are stored and `P` holds. -/
def Accounts (P : Prop) (s s' : State) : Prop :=
  ∃ ps l, s'.parcels = s.parcels ++ ps ∧ s'.journal = s.journal ++ l ∧
    (∀ r ∈ s'.messages, r ∈ s.messages ∨ .saved r ∈ l) ∧
    (P → (∀ r, r ∈ s.messages ∨ .saved r ∈ l → r.feature = some .RELIABLE) →
      ∀ i, IsStored i s → IsStored i s' ∨ Taken i ps l)

section

variable {i : String} {s s₁ s' : State} {ps ps' : List Parcel} {l l' : List Entry} {P : Prop}

theorem Taken.mono (h : Taken i ps l) (hps : ∀ p ∈ ps, p ∈ ps') (hl : ∀ e ∈ l, e ∈ l') :
    Taken i ps' l' := by
  cases h with
  | posted hp hid => exact .posted (hps _ hp) hid
  | undelivered hm hid hst => exact .undelivered (hl _ hm) hid hst

instance (P : Prop) : IsPreorder State (Accounts P) where
  refl s := ⟨[], [], by simp, by simp, fun _ h => .inl h, fun _ _ _ h => .inl h⟩
  trans s₁ s₂ s₃ := by
    rintro ⟨ps, l, hps, hl, hsource, hkept⟩ ⟨ps', l', hps', hl', hsource', hkept'⟩
    have hbefore : ∀ r, r ∈ s₂.messages ∨ .saved r ∈ l' → r ∈ s₁.messages ∨ .saved r ∈ l ++ l' := by
      rintro r (hr | hr)
      · exact (hsource r hr).imp_right (List.mem_append_left _)
      · exact .inr (List.mem_append_right _ hr)
    refine ⟨ps ++ ps', l ++ l', by rw [hps', hps, List.append_assoc],
      by rw [hl', hl, List.append_assoc], fun r hr => hbefore r (hsource' r hr), ?_⟩
    intro hP hreliable i hi
    have hfirst := hkept hP (fun r hr => hreliable r (hr.imp_right (List.mem_append_left _))) i hi
    have hsecond := hkept' hP fun r hr => hreliable r (hbefore r hr)
    rcases hfirst with hi | htaken
    · refine (hsecond i hi).imp_right fun h => h.mono ?_ ?_
      · exact fun p => List.mem_append_right _
      · exact fun e => List.mem_append_right _
    · refine .inr (htaken.mono ?_ ?_)
      · exact fun p => List.mem_append_left _
      · exact fun e => List.mem_append_left _

/-- What only adds to the store. -/
theorem accounts_of_isStored (ps : List Parcel) (l : List Entry)
    (hps : s'.parcels = s.parcels ++ ps) (hl : s'.journal = s.journal ++ l)
    (hsource : ∀ r ∈ s'.messages, r ∈ s.messages ∨ .saved r ∈ l)
    (hstored : ∀ i, IsStored i s → IsStored i s') : Accounts P s s' :=
  ⟨ps, l, hps, hl, hsource, fun _ _ i hi => .inl (hstored i hi)⟩

theorem accounts_of_eq (hps : s'.parcels = s.parcels) (hl : s'.journal = s.journal)
    (hm : s'.messages = s.messages) : Accounts P s s' :=
  accounts_of_isStored [] [] (by simp [hps]) (by simp [hl])
    (fun r hr => .inl (hm ▸ hr)) fun i ⟨r, hr, hid⟩ => ⟨r, hm ▸ hr, hid⟩

theorem exists_id_upsert {m : Message} {l : List Message} (h : ∃ r ∈ l, r.id = some i) :
    ∃ r ∈ MessageRepository.upsert m l, r.id = some i := by
  obtain ⟨r, hr, hid⟩ := h
  induction l with
  | nil => cases hr
  | cons a l ih =>
    rw [MessageRepository.upsert]
    split_ifs with ha
    · rcases List.mem_cons.1 hr with rfl | hr
      · exact ⟨m, List.mem_cons_self, ha.symm.trans hid⟩
      · exact ⟨r, List.mem_cons_of_mem m hr, hid⟩
    · rcases List.mem_cons.1 hr with rfl | hr
      · exact ⟨r, List.mem_cons_self, hid⟩
      · obtain ⟨b, hb, hbid⟩ := ih hr
        exact ⟨b, List.mem_cons_of_mem a hb, hbid⟩

theorem mem_of_mem_foldl_upsert {r : Message} {l messages : List Message}
    (h : r ∈ l.foldl (fun messages m => MessageRepository.upsert m messages) messages) :
    r ∈ messages ∨ r ∈ l := by
  induction l generalizing messages with
  | nil => exact .inl h
  | cons m l ih =>
    rcases ih h with hr | hr
    · rcases MessageRepository.mem_upsert hr with rfl | hr
      · exact .inr List.mem_cons_self
      · exact .inl hr
    · exact .inr (List.mem_cons_of_mem m hr)

theorem exists_id_foldl_upsert {l messages : List Message} (h : ∃ r ∈ messages, r.id = some i) :
    ∃ r ∈ l.foldl (fun messages m => MessageRepository.upsert m messages) messages,
      r.id = some i := by
  induction l generalizing messages with
  | nil => exact h
  | cons m l ih => exact ih (exists_id_upsert h)

/-- A delivery only adds to the store. -/
theorem IsStored.sends (hi : IsStored i s) (h : Sends s s') : IsStored i s' := by
  obtain ⟨l, -, hm⟩ := h.saved
  rw [IsStored, hm]
  exact exists_id_foldl_upsert hi

theorem accounts_of_sends (h : Sends s s') : Accounts P s s' := by
  obtain ⟨ps, hps⟩ := h.parcels
  obtain ⟨l, hl, hm⟩ := h.saved
  refine accounts_of_isStored ps _ hps hl (fun r hr => ?_) fun i hi => hi.sends h
  rw [hm] at hr
  exact (mem_of_mem_foldl_upsert hr).imp_right fun h => List.mem_map_of_mem h

/-- What has been taken is taken, whatever is sent after it. -/
theorem Takes.trans_sends (h : Takes i s s₁) (h' : Sends s₁ s') : Takes i s s' := by
  obtain ⟨ps, l, hps, hl, htaken⟩ := h
  obtain ⟨ps', hps'⟩ := h'.parcels
  obtain ⟨l', hl', -⟩ := h'.saved
  refine ⟨ps ++ ps', l ++ l'.map .saved, by rw [hps', hps, List.append_assoc],
    by rw [hl', hl, List.append_assoc], htaken.mono ?_ ?_⟩
  · exact fun p => List.mem_append_left _
  · exact fun e => List.mem_append_left _

/-- The state from which a letter is taken may draw other random numbers. -/
theorem takes_congr {s₀ : State} (hps : s.parcels = s₀.parcels) (hl : s.journal = s₀.journal)
    (h : Takes i s s') : Takes i s₀ s' := by
  obtain ⟨ps, l, hps', hl', htaken⟩ := h
  exact ⟨ps, l, hps ▸ hps', hl ▸ hl', htaken⟩

end

/-! ### One delivery -/

section

variable [JavaChar] {E : Environment} {i : String} {m : Message} {t : MessageMeta} {c : MessageContent}

omit [JavaChar] in
/-- A letter that is saved as undelivered. -/
theorem exists_run_persistMessage_takes (hid : m.id = some i) (hc : m.content = some c)
    (hf : c.feature = some .RELIABLE) (st : MessageState) (hst : st ∈ fetchableStates) (s : State) :
    ∃ s', (persistMessage E m (some st)).run s = (.ok (m.setState (some st)), s') ∧ Takes i s s' := by
  have hne : st ≠ .PROCESSED := by
    rintro rfl
    exact absurd hst (by decide)
  refine ⟨_, run_persistMessage st hid hc hf hne s, [], [.saved (m.setState (some st))], ?_, ?_, ?_⟩
  · rw [State.keep, if_pos rfl, List.append_nil]
    rfl
  · rw [State.keep, if_pos rfl]
    rfl
  · exact .undelivered (List.mem_singleton_self _) hid ⟨st, hst, rfl⟩

omit [JavaChar] in
theorem exists_run_express_takes (hid : m.id = some i) (hc : m.content = some c)
    (hf : c.feature = some .RELIABLE) (delivery : ExpressDeliveryType) (target : Option String)
    (s : State) : ∃ s', (express E delivery target m).run s = (.ok (), s') ∧ Takes i s s' := by
  obtain ⟨s', hpersist, htakes⟩ :=
    exists_run_persistMessage_takes (E := E) hid hc hf .NETWORK_ERROR (by decide) s.asked
  have hfailed : (onMessageDeliveryFailed E m).run s.asked = (.ok (), s') := run_bind_ok hpersist
  have htakes' : Takes i s s' := takes_congr (s := s.asked) rfl rfl htakes
  rcases target with _ | topic
  · exact ⟨s', hfailed, htakes'⟩
  · by_cases hrefused : s.refused.headD false = true
    · refine ⟨s', ?_, htakes'⟩
      rw [express, run_read_bind, run_modify_bind]
      simp only [hrefused, if_true]
      exact hfailed
    · refine ⟨s.asked.post [⟨delivery, topic, m⟩], ?_, [⟨delivery, topic, m⟩], [], rfl, ?_, ?_⟩
      · rw [express, run_read_bind, run_modify_bind]
        simp only [hrefused]
        rfl
      · exact (List.append_nil _).symm
      · exact .posted (List.mem_singleton_self _) hid

omit [JavaChar] in
/-- A record for the first address, and whatever becomes of the others. -/
theorem exists_run_sendToAddresses_takes (hid : m.id = some i) (hc : m.content = some c)
    (hf : c.feature = some .RELIABLE) {l : List Address} (hl : l ≠ []) (s : State) :
    ∃ s', (sendToAddresses E l m).run s = (.ok (), s') ∧ Takes i s s' := by
  obtain ⟨s', hsend⟩ := exists_run_sendToAddresses (E := E) hc hf l s
  refine ⟨s', hsend, ?_⟩
  have hcalc : (calcExpressDelivery m c.feature).run s = (.ok .KAFKA, s) := by
    rw [hf]
    rfl
  obtain ⟨a, l, rfl⟩ := List.exists_cons_of_ne_nil hl
  obtain ⟨s₁, hfirst, htakes⟩ := exists_run_express_takes (E := E) (m := m.setTargetAddress (some a))
    hid hc hf .KAFKA a.connectorName s
  rw [sendToAddresses, run_bind_ok (run_getContent hc s), run_bind_ok hcalc, run_forEach_cons,
    run_bind_ok hfirst] at hsend
  have hrest : Sends s₁ s' := by
    have hmoves : Moves Sends (forEach (fun a => express E .KAFKA a.connectorName
        (m.setTargetAddress (some a))) l) := .forEach fun b _ => moves_express _ _ _
    have := hmoves s₁
    rwa [hsend] at this
  exact htakes.trans_sends hrest

theorem exists_run_sendToConnector_takes (ht : m.meta_ = some t) (hid : m.id = some i)
    (hc : m.content = some c) (hf : c.feature = some .RELIABLE) (s : State) :
    ∃ s', (sendToConnector E m).run s = (.ok (), s') ∧ Takes i s s' := by
  have hid' : (adjusted E m).id = some i := (id_adjusted m).trans hid
  have hc' : (adjusted E m).content = some c := (letter_adjusted m).content.trans hc
  by_cases htargets : targets E m.to_ (adjusted E m).deliveryType s = []
  · obtain ⟨picks, hget⟩ := run_getRouteTargetAddresses (E := E) ht s
    obtain ⟨s', hpersist, htakes⟩ := exists_run_persistMessage_takes (E := E) hid' hc' hf
      .ADDRESS_NOT_FOUND (by decide) (s.picking picks)
    refine ⟨s', ?_, takes_congr (s := s.picking picks) rfl rfl htakes⟩
    rw [sendToConnector, run_bind_ok (run_adjustDeliveryType ht hc s), run_bind_ok hget, htargets,
      List.isEmpty_nil, if_pos rfl, run_bind_ok hpersist]
    rfl
  · obtain ⟨picks, hsend⟩ := run_sendToConnector_targets ht hc htargets
    obtain ⟨s', hrun, htakes⟩ := exists_run_sendToAddresses_takes (E := E) hid' hc' hf htargets
      (s.picking picks)
    exact ⟨s', hsend.trans hrun, takes_congr (s := s.picking picks) rfl rfl htakes⟩

/-- **A delivery that comes to its end** takes the letter. -/
theorem takes_deliverMessage (hid : m.id = some i) (hf : m.feature = some .RELIABLE) {s s' : State}
    (hrun : (deliverMessage E m).run s = (.ok (), s')) : Takes i s s' := by
  have hcan : CanDeliver E s.channels m := by
    by_contra hcan
    obtain ⟨e, picks, herror⟩ := run_deliverMessage_error hcan
    rw [herror] at hrun
    cases hrun
  obtain ⟨t, ht⟩ := Option.ne_none_iff_exists'.1 hcan.meta_
  obtain ⟨c, hc, hcf⟩ := Option.bind_eq_some_iff.1 hf
  obtain ⟨v, hroute, -⟩ := hcan.route
  obtain ⟨x, t', hrouted, hx, hxc, hxid, -⟩ := exists_sendToConnector ht hc hroute
  obtain ⟨s₁, hsend, htakes⟩ := exists_run_sendToConnector_takes (E := E) hx (hxid.trans hid) hxc hcf s
  rw [hrouted, hsend] at hrun
  cases hrun
  exact htakes

end

/-! ### The loop over a page -/

section

variable [JavaChar] {E : Environment} {P : Prop}

/-- One round. -/
theorem accounts_round {r : Message} (hr : P → r.feature = some .RELIABLE) (m : Message) :
    Moves (Accounts P) (Proc.during m (do
      deliverMessage E r
      MessageRepository.remove r)) := by
  intro s
  have hsends := moves_deliverMessage (E := E) r s
  rcases hrun : (deliverMessage E r).run s with ⟨e | u, s₁⟩
  · rw [hrun] at hsends
    rw [Proc.during, run_reraise, run_bind_error hrun]
    exact accounts_of_sends hsends
  rw [hrun] at hsends
  have hround : (Proc.during m (do
      deliverMessage E r
      MessageRepository.remove r) : Proc Unit).run s =
      (.ok (), { s₁ with messages := MessageRepository.erase r s₁.messages }) :=
    run_reraise_ok (run_bind_ok hrun)
  rw [hround]
  obtain ⟨ps, l, hps, hl, hsource, hkept⟩ := accounts_of_sends (P := P) hsends
  refine ⟨ps, l, hps, hl, fun x hx => hsource x (MessageRepository.mem_erase.1 hx).1, ?_⟩
  intro hP hreliable i hi
  rcases hkept hP hreliable i hi with hi | htaken
  · by_cases hid : r.id = some i
    · -- what is removed has been delivered
      obtain ⟨ps', l', hps', hl', htaken⟩ := takes_deliverMessage hid (hr hP) hrun
      rw [List.append_cancel_left (hps'.symm.trans hps), List.append_cancel_left (hl'.symm.trans hl)]
        at htaken
      exact .inr htaken
    · obtain ⟨x, hx, hxi⟩ := hi
      exact .inl ⟨x, MessageRepository.mem_erase.2 ⟨hx, fun heq => hid (heq ▸ hxi)⟩, hxi⟩
  · exact .inr htaken

/-- The loop over messages that are in the store when it begins. -/
theorem accounts_page (s : State) (m : Message) (l : List Message) (hl : ∀ r ∈ l, r ∈ s.messages) :
    Accounts True s ((deliverAndRemove E m l).run s).2 := by
  have hloop : Moves (Accounts (∀ r ∈ l, r.feature = some .RELIABLE)) (deliverAndRemove E m l) :=
    .forEach fun r hr => accounts_round (fun h => h r hr) m
  obtain ⟨ps, l', hps, hl', hsource, hkept⟩ := hloop s
  exact ⟨ps, l', hps, hl', hsource, fun _ hreliable =>
    hkept (fun r hr => hreliable r (.inl (hl r hr))) hreliable⟩

theorem permits_accounts : Permits E (Accounts True) where
  sends := accounts_of_sends
  note _ m := accounts_of_isStored [] [.processing m] (List.append_nil _).symm rfl
    (fun _ => .inl) fun _ => id
  channels _ _ := accounts_of_eq rfl rfl rfl
  httpCalls _ _ := accounts_of_eq rfl rfl rfl
  page := accounts_page

end

/-! ### A page of letters for one user -/

theorem MessageRepository.erase_upsert {m m' : Message} (h : m'.id = m.id) (l : List Message) :
    MessageRepository.erase m (MessageRepository.upsert m' l) = MessageRepository.erase m l := by
  induction l with
  | nil => simp [MessageRepository.upsert, MessageRepository.erase, h]
  | cons r l ih =>
    rw [MessageRepository.upsert]
    split_ifs with hr
    · simp [MessageRepository.erase, h, hr]
    · simp only [MessageRepository.erase, List.filter_cons] at ih ⊢
      rw [ih]

theorem exists_mem_of_forall₂ {α β : Type} {R : α → β → Prop} {l : List α} {l' : List β}
    (h : List.Forall₂ R l l') {a : α} (ha : a ∈ l) : ∃ b ∈ l', R a b := by
  induction h with
  | nil => cases ha
  | @cons x y l l' hxy _ ih =>
    rcases List.mem_cons.1 ha with rfl | ha
    · exact ⟨y, List.mem_cons_self, hxy⟩
    · obtain ⟨b, hb, hab⟩ := ih ha
      exact ⟨b, List.mem_cons_of_mem y hb, hab⟩

/-- The letter is sent to the user. -/
structure IsFor (E : Environment) [JavaChar] (u : String) (r : Message) : Prop where
  id : r.id ≠ none
  meta_ : r.meta_ ≠ none
  feature : r.feature = some .RELIABLE
  route : routedTo E r = some (some u)

section

variable [JavaChar] {E : Environment} {u : String} {r : Message} {l : List Message} {s : State}

/-- Without an address the letter is saved again. -/
theorem exists_run_deliverMessage_undelivered (hr : IsFor E u r)
    (hnone : ¬ HasTarget s.channels (some u)) :
    ∃ picks x, (deliverMessage E r).run s = (.ok (), (s.picking picks).store x) ∧ x.id = r.id := by
  obtain ⟨i, hi⟩ := Option.ne_none_iff_exists'.1 hr.id
  obtain ⟨t, ht⟩ := Option.ne_none_iff_exists'.1 hr.meta_
  obtain ⟨c, hc, hf⟩ := Option.bind_eq_some_iff.1 hr.feature
  obtain ⟨x, t', hrouted, hx, hxc, hxid, hxto⟩ := exists_sendToConnector ht hc hr.route
  have htargets : targets E x.to_ (adjusted E x).deliveryType s = [] := by
    by_contra hne
    exact hnone (hxto ▸ targets_ne_nil_iff.1 hne)
  obtain ⟨picks, hget⟩ := run_getRouteTargetAddresses (E := E) hx s
  have hpersist := run_persistMessage (E := E) (m := adjusted E x) .ADDRESS_NOT_FOUND
    ((id_adjusted x).trans (hxid.trans hi)) ((letter_adjusted x).content.trans hxc) hf (by decide)
    (s.picking picks)
  refine ⟨picks, (adjusted E x).setState (some .ADDRESS_NOT_FOUND), ?_, (id_adjusted x).trans hxid⟩
  rw [hrouted, sendToConnector, run_bind_ok (run_adjustDeliveryType hx hxc s), run_bind_ok hget, htargets,
    List.isEmpty_nil, if_pos rfl, run_bind_ok hpersist, State.keep, if_pos rfl]
  rfl

/-- Without an address the loop takes the letters out of the store, and that is all. -/
theorem exists_run_deliverAndRemove_undelivered (m : Message) (h : ∀ r ∈ l, IsFor E u r)
    (hnone : ¬ HasTarget s.channels (some u)) :
    ∃ s', (deliverAndRemove E m l).run s = (.ok (), s') ∧ s'.parcels = s.parcels ∧
      s'.messages = MessageRepository.eraseAll l s.messages := by
  induction l generalizing s with
  | nil => exact ⟨s, rfl, rfl, (MessageRepository.eraseAll_nil _).symm⟩
  | cons r l ih =>
    obtain ⟨picks, x, hsend, hxid⟩ := exists_run_deliverMessage_undelivered (h r List.mem_cons_self) hnone
    obtain ⟨s', hrun, hparcels, hmessages⟩ := ih
      (s := { (s.picking picks).store x with
        messages := MessageRepository.erase r ((s.picking picks).store x).messages })
      (fun r hr => h r (List.mem_cons_of_mem _ hr)) hnone
    refine ⟨s', by rw [run_deliverAndRemove_cons hsend, hrun], hparcels, ?_⟩
    rw [hmessages, MessageRepository.eraseAll_cons]
    exact congrArg _ (MessageRepository.erase_upsert hxid _)

/-- **What a fetch loses.**  The loop takes all letters of a page out of the store.  It puts them on
topics if their user has an address, and otherwise they are gone. -/
theorem posted_iff (m : Message) (h : ∀ r ∈ l, IsFor E u r)
    (hnamed : ∀ a ∈ UserChannelService.addressesOf s.channels u, a.connectorName ≠ none)
    (hrefused : s.refused = []) :
    ∃ s' ps, (deliverAndRemove E m l).run s = (.ok (), s') ∧
      s'.messages = MessageRepository.eraseAll l s.messages ∧ s'.parcels = s.parcels ++ ps ∧
      ∀ r ∈ l, (∃ p ∈ ps, p.message.id = r.id) ↔ HasTarget s.channels (some u) := by
  by_cases htarget : HasTarget s.channels (some u)
  · have hready : ∀ r ∈ l, Ready E s.channels r := fun r hr =>
      ⟨(h r hr).id, (h r hr).meta_, by simp [(h r hr).feature], some u, (h r hr).route, htarget, hnamed⟩
    obtain ⟨picks, batches, hrun, hbatches⟩ := exists_run_deliverAndRemove (E := E) m hready hrefused
    refine ⟨_, batches.flatten, hrun, rfl, rfl, fun r hr => iff_of_true ?_ htarget⟩
    obtain ⟨ps, hps, hdelivers⟩ := exists_mem_of_forall₂ hbatches hr
    obtain ⟨p, hp⟩ := List.exists_mem_of_ne_nil _ hdelivers.ne_nil
    exact ⟨p, List.mem_flatten.2 ⟨ps, hps, hp⟩, (hdelivers.same p hp).1⟩
  · obtain ⟨s', hrun, hparcels, hmessages⟩ := exists_run_deliverAndRemove_undelivered m h htarget
    refine ⟨s', [], hrun, hmessages, by rw [hparcels, List.append_nil], fun r hr => ?_⟩
    refine iff_of_false ?_ htarget
    rintro ⟨p, hp, -⟩
    cases hp

end

/-! ### Only reliable messages are stored -/

/-- The policy of the store. -/
def reliablePolicy : Policy where
  accepts _ := True
  delivers _ := True
  mails _ := True
  keeps m := m.feature = some .RELIABLE
  calls _ := True
  registers _ := True

theorem reliableRules [JavaChar] {E : Environment} : Rules E reliablePolicy where
  mails_congr _ _ := trivial
  keeps_congr h _ hm := h.feature.trans hm
  undelivered _ _ hf := hf
  inside _ _ := trivial
  outside _ _ _ _ _ _ _ := trivial
  touch _ := trivial
  cross _ _ _ _ := trivial
  message _ _ _ _ _ := trivial
  confirmation _ _ _ := trivial
  close _ _ _ _ _ _ := trivial
  auth _ _ _ _ _ _ := trivial
  call _ _ _ _ := trivial
  groupConnector _ _ _ _ _ _ _ := trivial
  groupUser _ _ _ _ _ _ := trivial
  groupOther _ _ _ _ _ _ := trivial
  presence _ _ _ _ := trivial
  register _ _ _ _ _ := trivial
  master _ _ _ _ _ := trivial
  fetch _ _ _ := trivial
  complete _ _ _ _ := trivial
  lost _ _ _ := trivial
  changed _ _ _ _ _ hf := hf
  confirm _ _ _ _ := trivial
  unwrap _ _ _ := trivial
  route _ _ _ := trivial
  routeInner _ _ _ _ _ := trivial

end Processor

namespace Domain

variable [JavaChar] {D : Domain} {w w' w₀ w₁ : World} {i : String}

/-- The policy of a domain that stores what is `RELIABLE`. -/
def reliable : Policy where
  processor _ := reliablePolicy
  connector _ _ :=
    { mails := fun _ => True
      publishes := fun _ => True
      writes := fun _ => True
      authorises := fun _ _ => True }
  queued _ _ := True

theorem sound_reliable : Sound D reliable where
  processor_mono _ := ⟨fun _ h => h, fun _ h => h, fun _ h => h, fun _ h => h⟩
  connector_mono _ _ := ⟨fun _ h => h, fun _ h => h, fun _ _ h => h⟩
  queued_mono _ h := h
  processor _ := reliableRules
  connector _ _ :=
    { report := fun _ _ _ => trivial
      write := fun _ _ _ _ => trivial
      user := fun _ _ _ _ _ _ _ _ => trivial
      authorise := fun _ _ _ _ _ _ => trivial
      connected := fun _ _ _ => trivial }
  published h := h
  consumed h _ := h
  routed h := h.mails
  answers _ _ _ _ _ _ := trivial
  disconnected _ _ _ _ _ := trivial

/-- Every event keeps it. -/
theorem complies_reliable {e : Event} (hw : Complies D reliable w) (h : D.step w e = some w') :
    Complies D reliable w' := by
  have hP : Sound D reliable := sound_reliable
  cases e with
  | connect c => exact complies_connect hP hw h
  | disconnect c i futures => exact complies_disconnect hP hw h
  | refuse k => exact complies_refuse hP hw h
  | handOut k futures => exact complies_handOut hP hw h fun _ _ _ _ _ _ _ _ => trivial
  | tunnel data draws =>
    exact complies_tunnel hP hw h fun _ _ _ _ _ _ => ⟨trivial, fun _ _ hf => hf⟩
  | receive c i content futures =>
    exact complies_receive hP hw h fun _ _ _ _ =>
      ⟨fun _ _ _ _ _ => trivial, fun _ _ => trivial, fun _ _ _ => trivial⟩
  | dispatch k draws => exact complies_dispatch hP hw h fun _ _ _ _ _ _ hf => hf
  | respond k outcome draws => exact complies_respond hP hw h fun _ _ _ _ _ _ _ _ _ => trivial

/-- What the processors do, from a state with the same store, topics and journal. -/
theorem isStored_or_takes {v : World} {x : Proc Unit} {d : Draws} (hx : Moves (Accounts True) x)
    (hps : v.processor.parcels = w.processor.parcels)
    (hjournal : v.processor.journal = w.processor.journal)
    (hmessages : v.processor.messages = w.processor.messages)
    (hv : Meets D.env reliablePolicy v.processor) (hv' : Complies D reliable (v.atProcessor x d))
    (hi : IsStored i w.processor) :
    IsStored i (v.atProcessor x d).processor ∨
      Takes i w.processor (v.atProcessor x d).processor := by
  obtain ⟨ps, l, hps', hl, -, hkept⟩ := hx (v.processor.drawing d)
  have hreliable : ∀ r, r ∈ v.processor.messages ∨ .saved r ∈ l → r.feature = some .RELIABLE := by
    rintro r (hr | hr)
    · exact hv.messages r hr
    · exact hv'.processor.saved r (hl ▸ List.mem_append_right _ hr)
  have hi' : IsStored i (v.processor.drawing d) := by
    obtain ⟨r, hr, hid⟩ := hi
    exact ⟨r, hmessages ▸ hr, hid⟩
  refine (hkept trivial hreliable i hi').imp_right fun htaken => ?_
  exact takes_congr (s := v.processor.drawing d) hps hjournal ⟨ps, l, hps', hl, htaken⟩

/-- **One event.** -/
theorem isStored_or_takes_step {e : Event} (hw : Complies D reliable w) (hst : D.step w e = some w')
    (hi : IsStored i w.processor) : IsStored i w'.processor ∨ Takes i w.processor w'.processor := by
  have hw' := complies_reliable hw hst
  cases e with
  | connect c =>
    obtain ⟨s, -, rfl⟩ := step_connect hst
    exact .inl hi
  | receive c j content futures =>
    obtain ⟨s, socket, -, -, rfl⟩ := step_receive hst
    exact .inl hi
  | disconnect c j futures =>
    obtain ⟨s, socket, -, -, rfl⟩ := step_disconnect hst
    exact .inl hi
  | handOut k futures =>
    obtain ⟨p, s, -, -, rfl⟩ := step_handOut hst
    exact .inl hi
  | refuse k =>
    obtain ⟨p, -, rfl⟩ := step_refuse hst
    have hi' : IsStored i { w.processor with
        parcels := w.processor.parcels.eraseIdx k, picks := [], refused := [] } := hi
    exact .inl (hi'.sends (moves_onMessageDeliveryFailed p.message _))
  | dispatch k d =>
    obtain ⟨m, -, rfl⟩ := step_dispatch hst
    exact isStored_or_takes (permits_accounts.moves_onRecordArrived m) rfl rfl rfl hw.processor hw' hi
  | respond k outcome d =>
    obtain ⟨call, -, rfl⟩ := step_respond hst
    exact isStored_or_takes (permits_accounts.moves_complete call outcome) rfl rfl rfl
      { hw.processor with httpCalls := fun _ _ => trivial } hw' hi
  | tunnel data d =>
    have heq := step_tunnel hst
    subst heq
    exact isStored_or_takes (permits_accounts.moves_handleInternalMessage _ data) rfl rfl rfl
      hw.processor hw' hi

/-- **A letter is in the store until it is taken**, in every run: a copy of it has been put on a topic,
or it could not be delivered. -/
theorem kept_or_taken (h₀ : Initial w₀) (hreach : D.system.Reaches (fun _ _ => True) w₀ w₁)
    {l : List (System.Step World Event)} (hpath : D.system.Path (fun _ _ => True) w₁ l w)
    (hi : IsStored i w₁.processor) :
    IsStored i w.processor ∨ ∃ st ∈ l, Takes i st.before.processor st.after.processor := by
  have hcomplies : ∀ {v : World}, D.system.Reaches (fun _ _ => True) w₀ v → Complies D reliable v :=
    fun hv => hv.invariant (complies_initial h₀) fun _ _ _ hI _ hst => complies_reliable hI hst
  induction hpath with
  | nil => exact .inl hi
  | @snoc l s s' e hpath _ hst ih =>
    rcases ih with hi | ⟨st, hmem, htakes⟩
    · refine (isStored_or_takes_step (hcomplies (hreach.trans hpath.reaches)) hst hi).imp_right ?_
      exact fun htakes => ⟨_, List.mem_append_right _ (List.mem_singleton_self _), htakes⟩
    · exact .inr ⟨st, List.mem_append_left _ hmem, htakes⟩

end Domain

/-! ### A letter that is fetched, and one that is lost -/

section

open Sample

attribute [local instance] JavaChar.ascii

namespace Sample

/-- A user connects and asks for what has been stored. -/
def visit : List Event :=
  arrival 2 "APP-6" ++ [.receive connectorName 2 DomainService.fetchMissingMessages [], .dispatch 0 {}]

/-- Whether a message with the id is in the store. -/
def holds (i : String) (w : World) : Bool := w.processor.messages.any fun r => r.id == some i

theorem holds_iff {i : String} {w : World} : holds i w = true ↔ IsStored i w.processor := by
  simp [holds, IsStored]

end Sample

/-- The letter to APP-6 leaves the store when APP-6 has come and asks for it. -/
theorem Domain.kept_or_taken_visit : ∃ i w₁ l w, IsStored i w₁.processor ∧
    domain.system.Path (fun _ _ => True) w₁ l w ∧ ¬ IsStored i w.processor ∧
    ∃ st ∈ l, Takes i st.before.processor st.after.processor := by
  have hrun : ((domain.system.runIf (fun _ _ => true) start (letter "APP-6")).bind fun w₁ =>
      (domain.system.runIf (fun _ _ => true) w₁ visit).map fun w =>
        (holds "connector-01-message-2" w₁, holds "connector-01-message-2" w)) =
      some (true, false) := by decide +kernel
  obtain ⟨w₁, hw₁, hrun⟩ := Option.bind_eq_some_iff.1 hrun
  obtain ⟨w, hw, hholds⟩ := Option.map_eq_some_iff.1 hrun
  obtain ⟨hbefore, hafter⟩ := Prod.mk.inj hholds
  have hi : IsStored "connector-01-message-2" w₁.processor := holds_iff.1 hbefore
  have hnot : ¬ IsStored "connector-01-message-2" w.processor := fun h => by
    rw [holds_iff.2 h] at hafter
    cases hafter
  have hreach : domain.system.Reaches (fun _ _ => True) start w₁ :=
    System.reaches_of_runIf (fun _ _ _ => trivial) hw₁
  have hpath : ∃ l, domain.system.Path (fun _ _ => True) w₁ l w ∧ l.map System.Step.event = visit :=
    System.exists_path_of_runIf (fun _ _ _ => trivial) hw
  obtain ⟨l, hpath, -⟩ := hpath
  exact ⟨_, w₁, l, w, hi, hpath, hnot,
    (Domain.kept_or_taken Domain.initial_start hreach hpath hi).resolve_left hnot⟩

open SampleFetch in
/-- A fetch of a user without address loses what is stored. -/
theorem Processor.posted_iff_reply : ∃ s' ps,
    (deliverAndRemove SampleFetch.env request [reply]).run { messages := [reply] } = (.ok (), s') ∧
      s'.messages = [] ∧ s'.parcels = ps ∧ ¬ ∃ p ∈ ps, p.message.id = reply.id := by
  have hfor : ∀ r ∈ [reply], IsFor SampleFetch.env neighbour r := by
    intro r hr
    rw [List.mem_singleton.1 hr]
    exact ⟨Option.some_ne_none _, Option.some_ne_none _, rfl, routedTo_reply⟩
  obtain ⟨s', ps, hrun, hmessages, hparcels, hiff⟩ := Processor.posted_iff request hfor
    (s := { messages := [reply] }) (fun a ha => by cases ha) rfl
  refine ⟨s', ps, hrun, hmessages, by simpa using hparcels, fun hposted => ?_⟩
  have htarget := (hiff reply (List.mem_singleton_self _)).1 hposted
  rcases htarget.2 with hconnector | haddress
  · exact absurd hconnector (by decide +kernel)
  · exact haddress rfl

end

end Linker
