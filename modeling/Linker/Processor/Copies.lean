import Linker.Processor.Delivery
import Linker.Processor.Effects

/-!
# What a computation sends

The messages that a computation of a processor puts on topics or saves, as one list, and what they are
where a message is delivered: copies of it.

* `MessageOf.Copy` : the same letter on its way, to be confirmed or not.
* `State.since` : what has been put on topics and saved since an earlier state.
* `Puts Q` : the change in which all of that has the property `Q`.
* `puts_deliverMessage` : a delivery puts copies of the message on topics and in the store.
-/

namespace Linker

/-- Whether the delivery is to be confirmed. -/
def MessageOf.confirmEnabled (m : Message) : Bool := (m.meta_.map (·.confirmEnabled)).getD false

/-- The same letter on its way, to be confirmed or not. -/
structure MessageOf.Copy (m m' : Message) : Prop where
  letter : m.SameLetter m'
  confirmEnabled : m'.confirmEnabled = m.confirmEnabled

namespace MessageOf.Copy

theorem refl (m : Message) : m.Copy m := ⟨.refl m, rfl⟩

theorem trans {m₁ m₂ m₃ : Message} (h : m₁.Copy m₂) (h' : m₂.Copy m₃) : m₁.Copy m₃ :=
  ⟨h.letter.trans h'.letter, h'.confirmEnabled.trans h.confirmEnabled⟩

theorem setState (m : Message) (s : Option MessageState) : m.Copy (m.setState s) :=
  ⟨.setState m s, rfl⟩

theorem updateMeta (m : Message) {f : MessageMeta → MessageMeta}
    (h : ∀ t, (f t).originalAddress = t.originalAddress ∧ (f t).note = t.note)
    (hconfirm : ∀ t, (f t).confirmEnabled = t.confirmEnabled) : m.Copy (m.updateMeta f) := by
  refine ⟨.updateMeta m h, ?_⟩
  rw [MessageOf.confirmEnabled, MessageOf.confirmEnabled, MessageOf.updateMeta_meta]
  cases m.meta_ with
  | none => rfl
  | some t => exact hconfirm t

theorem setTargetAddress (m : Message) (a : Option Address) : m.Copy (m.setTargetAddress a) :=
  updateMeta m (fun _ => ⟨rfl, rfl⟩) fun _ => rfl

theorem setDeliveryType (m : Message) (d : DeliveryType) : m.Copy (m.setDeliveryType d) :=
  updateMeta m (fun _ => ⟨rfl, rfl⟩) fun _ => rfl

theorem setTo {m m' : Message} (h : m.Copy m') (u : Option String) : (m.setTo u).Copy (m'.setTo u) :=
  ⟨{ h.letter with to_ := rfl }, h.confirmEnabled⟩

end MessageOf.Copy

namespace Processor

open ProcessorUtils ClientAppService MessageProcessorService PostOffice Exec

/-- The message that an entry says was saved. -/
def Entry.saved? : Entry → Option Message
  | .saved m => some m
  | .processing _ => none

/-- The messages that have been put on topics or saved since the state `s`. -/
def State.since (s s' : State) : List Message :=
  (s'.parcels.drop s.parcels.length).map (·.message) ++
    (s'.journal.drop s.journal.length).filterMap Entry.saved?

/-- All that has been put on topics and saved has the property `Q`. -/
structure Puts (Q : Message → Prop) (s s' : State) : Prop where
  parcels : ∃ ps, s'.parcels = s.parcels ++ ps ∧ ∀ p ∈ ps, Q p.message
  journal : ∃ l, s'.journal = s.journal ++ l ∧ ∀ r, .saved r ∈ l → Q r

theorem puts_of_eq {Q : Message → Prop} {s s' : State} (hp : s'.parcels = s.parcels)
    (hj : s'.journal = s.journal) : Puts Q s s' :=
  ⟨⟨[], by simp [hp], fun _ h => by cases h⟩, ⟨[], by simp [hj], fun _ h => by cases h⟩⟩

instance (Q : Message → Prop) : IsPreorder State (Puts Q) where
  refl _ := puts_of_eq rfl rfl
  trans s₁ s₂ s₃ h h' := by
    obtain ⟨ps, hps, hq⟩ := h.parcels
    obtain ⟨ps', hps', hq'⟩ := h'.parcels
    obtain ⟨l, hl, hr⟩ := h.journal
    obtain ⟨l', hl', hr'⟩ := h'.journal
    refine ⟨⟨ps ++ ps', by rw [hps', hps, List.append_assoc], fun p hp => ?_⟩,
      ⟨l ++ l', by rw [hl', hl, List.append_assoc], fun r hmem => ?_⟩⟩
    · exact (List.mem_append.1 hp).elim (hq p) (hq' p)
    · exact (List.mem_append.1 hmem).elim (hr r) (hr' r)

theorem since_eq {s s' : State} {ps : List Parcel} {l : List Entry}
    (hp : s'.parcels = s.parcels ++ ps) (hj : s'.journal = s.journal ++ l) :
    s.since s' = ps.map (·.message) ++ l.filterMap Entry.saved? := by
  rw [State.since, hp, hj, List.drop_left, List.drop_left]

theorem Puts.since {Q : Message → Prop} {s s' : State} (h : Puts Q s s') : ∀ r ∈ s.since s', Q r := by
  obtain ⟨ps, hps, hq⟩ := h.parcels
  obtain ⟨l, hl, hr⟩ := h.journal
  rw [since_eq hps hl]
  intro r hmem
  rcases List.mem_append.1 hmem with hmem | hmem
  · obtain ⟨p, hp, rfl⟩ := List.mem_map.1 hmem
    exact hq p hp
  · obtain ⟨e, he, heq⟩ := List.mem_filterMap.1 hmem
    cases e with
    | processing m => cases heq
    | saved m => exact Option.some.inj heq ▸ hr m he

section

variable {E : Environment} {Q : Message → Prop} {s₀ : State} {m : Message}

theorem puts_modify {f : State → State} (h : ∀ s, (f s).parcels = s.parcels ∧ (f s).journal = s.journal) :
    Keeps (Puts Q s₀) (modify f : Proc Unit) fun _ => True :=
  .modify (fun s hs => trans_of (Puts Q) hs (puts_of_eq (h s).1 (h s).2)) trivial

theorem puts_builder : Keeps (Puts Q s₀) (builder E) fun b => ∃ k, b = E.blank k := by
  refine (Keeps.read (Q := fun _ => True) fun _ _ => trivial).bind fun n _ => ?_
  refine Keeps.bind (puts_modify ?_) fun _ _ => .pure ⟨n, rfl⟩
  exact fun _ => ⟨rfl, rfl⟩

theorem puts_persistMessage (hQ : ∀ y, m.Copy y → Q y) (st : Option MessageState) :
    Keeps (Puts Q s₀) (persistMessage E m st) fun _ => True := by
  have hst : m.Copy (m.setState st) := .setState m st
  refine (keeps_orNullPointer _ _).bind fun c _ => .ite (fun _ => ?_) fun _ => .pure trivial
  have hid : Keeps (Puts Q s₀) (MessageRepository.assignId E (m.setState st)) m.Copy := by
    unfold MessageRepository.assignId
    split
    · exact .pure hst
    · refine puts_builder.bind fun b _ => .pure ?_
      exact hst.trans ⟨⟨rfl, rfl, rfl, rfl, rfl⟩, rfl⟩
  refine hid.bind fun m' hm' => ?_
  refine (Keeps.modify (Q := fun _ => True) (fun s hs => ?_) trivial).bind fun _ _ => ?_
  · refine trans_of (Puts Q) hs ?_
    exact puts_of_eq rfl rfl
  refine (Keeps.modify (Q := fun _ => True) (fun s hs => ?_) trivial).bind fun _ _ => .pure trivial
  refine trans_of (Puts Q) hs ?_
  refine ⟨⟨[], (List.append_nil _).symm, fun _ h => by cases h⟩, ⟨[.saved m'], rfl, fun r hr => ?_⟩⟩
  cases List.mem_singleton.1 hr
  exact hQ m' hm'

theorem puts_express (hQ : ∀ y, m.Copy y → Q y) (delivery : ExpressDeliveryType)
    (target : Option String) : Keeps (Puts Q s₀) (express E delivery target m) fun _ => True := by
  have hfail : Keeps (Puts Q s₀) (onMessageDeliveryFailed E m) fun _ => True :=
    (puts_persistMessage hQ _).bind fun _ _ => .pure trivial
  refine (Keeps.read (Q := fun _ => True) fun _ _ => trivial).bind fun refuses _ => ?_
  refine Keeps.bind (puts_modify ?_) fun _ _ => ?_
  · exact fun _ => ⟨rfl, rfl⟩
  split
  · exact hfail
  · refine .ite (fun _ => hfail) fun _ => .modify (fun s hs => trans_of (Puts Q) hs ?_) trivial
    refine ⟨⟨_, rfl, fun p hp => ?_⟩, ⟨[], (List.append_nil _).symm, fun _ h => by cases h⟩⟩
    cases List.mem_singleton.1 hp
    exact hQ m (.refl m)

variable [JavaChar]

theorem puts_sendToConnector (hQ : ∀ y, m.Copy y → Q y) :
    Keeps (Puts Q s₀) (sendToConnector E m) fun _ => True := by
  have hadjust : Keeps (Puts Q s₀) (adjustDeliveryType E m) m.Copy := by
    refine (keeps_orNullPointer _ _).bind fun t _ => .ite (fun _ => ?_) fun _ => .pure (.refl m)
    refine (keeps_orNullPointer _ _).bind fun c _ => .ite (fun _ => .pure ?_) fun _ => .pure (.refl m)
    exact .setDeliveryType m .ANY
  have hroute : ∀ to_ d m', Keeps (Puts Q s₀) (routeTargetAddresses E to_ d m') fun _ => True := by
    intro to_ d m' s hs
    obtain ⟨picks, hrun⟩ := run_routeTargetAddresses (E := E) to_ d m' s
    have hpick : Puts Q s (s.picking picks) := puts_of_eq rfl rfl
    rw [hrun]
    exact ⟨trans_of (Puts Q) hs hpick, fun _ _ => trivial⟩
  refine hadjust.bind fun m' hm' => ?_
  have hQ' : ∀ y, m'.Copy y → Q y := fun y hy => hQ y (hm'.trans hy)
  refine Keeps.bind (Q := fun _ => True) ((keeps_orNullPointer _ _).bind fun t _ => hroute _ _ _) ?_
  intro addresses _
  refine .ite (fun _ => (puts_persistMessage hQ' _).bind fun _ _ => .pure trivial) fun _ => ?_
  refine (keeps_orNullPointer _ _).bind fun c _ => ?_
  have hcalc : Keeps (Puts Q s₀) (calcExpressDelivery m' c.feature) fun _ => True := by
    unfold calcExpressDelivery
    split
    · exact .pure trivial
    · exact .pure trivial
    · exact .fail
  refine hcalc.bind fun delivery _ => .forEach fun a _ => ?_
  exact puts_express (fun y hy => hQ' y ((MessageOf.Copy.setTargetAddress m' (some a)).trans hy))
    delivery a.connectorName

/-- **Delivery** puts copies of the message on topics and in the store; a wrapper that leaves the domain
has got a new recipient. -/
theorem puts_deliver (hQ : ∀ y, m.Copy y → Q y)
    (hout : m.type = some .INTERNAL_MESSAGE → ∀ u y, (m.setTo u).Copy y → Q y) :
    Keeps (Puts Q s₀) (deliverMessage E m) fun _ => True := by
  have hpop : Keeps (Puts Q s₀) (populateTargetAddress E m) m.Copy := by
    refine (keeps_orNullPointer _ _).bind fun t _ => ?_
    split
    · exact .pure (.setTargetAddress m _)
    · exact .pure (.refl m)
  refine hpop.bind fun m' hm' => ?_
  have hhere : Keeps (Puts Q s₀) (isCurrentDomainMessage E m') fun _ => True := by
    refine .ite (fun _ => .pure trivial) fun _ => ?_
    refine Keeps.bind (Q := fun _ => True) ((keeps_orNullPointer _ _).bind fun t _ => ?_) fun _ _ =>
      .pure trivial
    split
    · exact .pure trivial
    · exact .pure trivial
  refine hhere.bind fun _ _ => .ite (fun _ => ?_) fun _ => ?_
  · exact puts_sendToConnector fun y hy => hQ y (hm'.trans hy)
  -- only wrappers leave the domain
  have hassert : Keeps (Puts Q s₀) (assertInternalMessage m') fun _ =>
      m.type = some .INTERNAL_MESSAGE := by
    refine (keeps_orNullPointer _ _).bind fun c hc => .ite (fun ht => ?_) fun _ => .fail
    have hc' : m'.type = c.type := by rw [MessageOf.type, hc]; rfl
    exact .pure (hm'.letter.type.symm.trans (hc'.trans ht))
  refine hassert.bind fun _ htype => (keeps_orNullPointer _ _).bind fun t _ => ?_
  split
  · exact .fail
  · refine Keeps.bind (Q := fun _ => True) ?_ fun next _ => .ite (fun _ => .fail) fun _ => ?_
    · unfold getNextDomainName
      split
      · exact .fail
      · exact .pure trivial
    · exact puts_sendToConnector fun y hy => hout htype _ y ((hm'.setTo _).trans hy)

/-- A message that is no wrapper stays in the domain. -/
theorem puts_deliverMessage (hQ : ∀ y, m.Copy y → Q y) (htype : m.type ≠ some .INTERNAL_MESSAGE) :
    Keeps (Puts Q s₀) (deliverMessage E m) fun _ => True :=
  puts_deliver hQ fun h => absurd h htype

end

end Processor

end Linker
