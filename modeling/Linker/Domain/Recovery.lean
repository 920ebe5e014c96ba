import Linker.Connector.Delivery
import Linker.Domain.Redelivery
import Mathlib.Algebra.Order.BigOperators.Group.List
import Mathlib.Algebra.Order.Ring.Nat

/-!
# The cycle of lost copies

A copy of a message goes to a connector; where the connector does not find the user at the address of
the copy, it reports the copy as lost, and the processor that consumes the report takes the address out
of the registry and delivers the message again, to all addresses that are left.

Every round takes an address out of the registry or is about one that is out already, so the rounds of
a user that is looked up in the registry come to an end.  The name of a connector is not looked up: a
message to it goes to that connector again and again.

A message for another domain goes round in its wrapper, which is sent to the user as whom the next domain
has signed in; the name of that user is made of the name of the domain.

## Main results

* `IsSentTo` : the user to whom the copies of a message are sent.
* `lowers` : every step of the cycle lowers `measure`.
* `ends_iff` : the cycle ends for every registry, exactly if that user is not the name of a running
  connector that has no such user.
* `chased` : a message to a connector.
-/

namespace Linker

open Processor Exec
open Processor.UserChannelService (addressesOf)

namespace Connector

variable {C : Config} {m : Message} {u : String} {c : MessageContent} {t : MessageMeta} {a : Address}
  {s : State}

theorem handled_users : (s.handled C m u c t a).users = s.users := by
  unfold State.handled
  cases UserMap.getUser u a.socketId s.users with
  | none => simp only; split <;> rfl
  | some i => simp only; split <;> rfl

/-- What a connector that has nothing to publish publishes for a copy. -/
theorem handled_published (hs : s.published = []) (hf : c.feature = some .RELIABLE) :
    (UserMap.getUser u a.socketId s.users = none → (s.handled C m u c t a).published =
        [PostOffice.stateChangedMessage C (C.blank s.serial) m .ADDRESS_NOT_FOUND]) ∧
      (UserMap.getUser u a.socketId s.users ≠ none → (s.handled C m u c t a).published = [] ∨
        ∃ b st, st ≠ .ADDRESS_NOT_FOUND ∧
          (s.handled C m u c t a).published = [PostOffice.stateChangedMessage C b m st]) := by
  unfold State.handled
  cases hu : UserMap.getUser u a.socketId s.users with
  | none =>
    refine ⟨fun _ => ?_, fun h => absurd rfl h⟩
    simp [hf, State.reported, hs]
  | some i =>
    refine ⟨nofun, fun _ => ?_⟩
    simp only
    split
    · refine .inr ⟨C.blank (s.wrote i m c).serial,
        if s.succeeds i then .PROCESSED else .NETWORK_ERROR, ?_, ?_⟩
      · split <;> decide
      · simp [State.reported, State.wrote, hs]
    · exact .inl hs

end Connector

namespace Recovery

/-- A step of the cycle: a connector consumes a record, or a processor the report of a lost copy. -/
def Cycle (w : World) : Event → Prop
  | .handOut _ _ => True
  | .dispatch k _ => ∃ r msg, w.incoming[k]? = some r ∧ IsLost r msg
  | _ => False

/-- Nothing of the cycle is in flight: no record for a running connector, and no report. -/
structure Quiet (w : World) : Prop where
  parcels : ∀ p ∈ w.processor.parcels, w.connectors p.target = none
  reports : ∀ r ∈ w.incoming, ∀ msg, ¬ IsLost r msg

/-- Nothing is in flight at all. -/
structure Calm (w : World) : Prop where
  parcels : w.processor.parcels = []
  incoming : w.incoming = []
  published : ∀ c s, w.connectors c = some s → s.published = []

section

variable [JavaChar]

/-- A reliable message to a user of the domain. -/
structure IsLetter (E : Environment) (m : Message) (u : String) (c : MessageContent) : Prop where
  to_ : m.to_ = some u
  content : m.content = some c
  type : c.type = some .MESSAGE
  feature : c.feature = some .RELIABLE
  id : ∃ i, m.id = some i
  meta_ : ∃ t, m.meta_ = some t
  isLocal : ProcessorUtils.isLocal E m = true

/-- A reliable message that is sent to the connectors at which the user is: one to a user of the domain,
or a wrapper, which goes to the user as whom the next domain has signed in. -/
structure IsSentTo (E : Environment) (m : Message) (u : String) (c : MessageContent) : Prop where
  route : routedTo E m = some (some u)
  content : m.content = some c
  type : c.type = some .MESSAGE ∨ c.type = some .INTERNAL_MESSAGE
  feature : c.feature = some .RELIABLE
  id : ∃ i, m.id = some i
  meta_ : ∃ t, m.meta_ = some t

theorem IsLetter.isSentTo {E : Environment} {m : Message} {u : String} {c : MessageContent}
    (h : IsLetter E m u c) : IsSentTo E m u c :=
  ⟨by rw [routedTo, if_pos h.isLocal, h.to_], h.content, .inl h.type, h.feature, h.id, h.meta_⟩

/-- The address is in the domain. -/
def IsResident (E : Environment) (a : Address) : Prop :=
  equalsIgnoreCase (some E.domainName) a.domainName = true

/-- The addresses of the user are in the domain, as they are when its connectors have reported them. -/
def Resident (E : Environment) (u : String) (channels : String → Option (List Address)) : Prop :=
  ∀ a ∈ addressesOf channels u, IsResident E a

/-- The domain after the message has been given to the post office. -/
def delivered (D : Domain) (m : Message) (w : World) (d : Draws) : World :=
  w.atProcessor (PostOffice.deliverMessage D.env m) d

/-- The cycle goes round only finitely often, and in the end nothing of it is in flight. -/
def Ends (D : Domain) (w : World) : Prop :=
  ∃ n, ∀ l w', D.system.Path Cycle w l w' → l.length ≤ n ∧
    ∃ l' w'', D.system.Path Cycle w (l ++ l') w'' ∧ Quiet w''

/-- A connector of the domain has the name of the user, and no such user. -/
def Chases (u : String) (connectors : String → Option Connector.State) : Prop :=
  ProcessorUtils.isConnectorUser (some u) = true ∧ ∃ s, connectors u = some s ∧
    Connector.UserMap.getUser u (some (-1)) s.users = none

end

/-! ### The measure -/

/-- What the report of a lost copy can cost, with so many addresses left. -/
def cost : ℕ → ℕ
  | 0 => 1
  | n + 1 => (n + 1) * (cost n + 1) + 1

theorem cost_mono {n k : ℕ} (h : n ≤ k) : cost n ≤ cost k := by
  induction h with
  | refl => exact Nat.le_refl _
  | @step k _ ih =>
    have hstep : cost k ≤ cost (k + 1) := by
      rw [cost, Nat.succ_mul]
      omega
    exact ih.trans hstep

/-- A copy for each of the addresses left costs less. -/
theorem mul_cost_lt (n : ℕ) : n * (cost (n - 1) + 1) < cost n := by
  cases n with
  | zero => simp [cost]
  | succ n =>
    rw [Nat.add_sub_cancel, cost]
    omega

/-- The addresses left when the copy is lost. -/
def left (l : List Address) (p : Message) : List Address :=
  l.filter fun b => some b ≠ p.targetAddress

/-- What the report can cost; other messages cost nothing. -/
def reportCost (l : List Address) (r : Message) : ℕ :=
  match r.data with
  | .messageStateChanged (some p) (some .ADDRESS_NOT_FOUND) => cost (left l p).length
  | _ => 0

def copyCost (l : List Address) (p : Parcel) : ℕ := cost (left l p.message).length + 1

/-- What all that is in flight can cost. -/
def measure (u : String) (w : World) : ℕ :=
  (w.processor.parcels.map (copyCost (addressesOf w.processor.channels u))).sum +
    (w.incoming.map (reportCost (addressesOf w.processor.channels u))).sum

theorem sum_eraseIdx {α : Type} (f : α → ℕ) {l : List α} {k : ℕ} {a : α} (h : l[k]? = some a) :
    (l.map f).sum = f a + ((l.eraseIdx k).map f).sum := by
  induction l generalizing k with
  | nil => cases h
  | cons b l ih =>
    cases k with
    | zero =>
      cases h
      simp
    | succ k =>
      have hrest := ih (k := k) (by simpa using h)
      simp only [List.map_cons, List.sum_cons, List.eraseIdx_cons_succ]
      omega

theorem left_length_le (l : List Address) (p q : Message) :
    (left (left l p) q).length ≤ (left l q).length := by
  rw [left, left, left, List.filter_comm]
  exact List.length_filter_le _ _

theorem reportCost_left (l : List Address) (p r : Message) :
    reportCost (left l p) r ≤ reportCost l r := by
  unfold reportCost
  split
  · exact cost_mono (left_length_le l p _)
  · exact Nat.le_refl _

theorem copyCost_left (l : List Address) (p : Message) (q : Parcel) :
    copyCost (left l p) q ≤ copyCost l q :=
  Nat.succ_le_succ (cost_mono (left_length_le l p _))

/-! ### The steps -/

section

variable [JavaChar] {D : Domain} {m : Message} {u : String} {c : MessageContent} {w₀ w w' : World}

/-- A copy of the message on its way to an address, which is in the domain if it is one of a wrapper. -/
structure IsCopy (E : Environment) (u : String) (c : MessageContent) (p : Message) : Prop where
  to_ : p.to_ = some u
  content : p.content = some c
  meta_ : ∃ t a, p.meta_ = some t ∧ t.targetAddress = some a ∧
    (c.type = some .INTERNAL_MESSAGE → IsResident E a)

/-- What is in flight is about copies of the message, and nobody connects or disconnects. -/
structure InCycle (E : Environment) (u : String) (c : MessageContent) (w₀ w : World) : Prop where
  users : ∀ n, (w.connectors n).map (·.users) = (w₀.connectors n).map (·.users)
  published : ∀ n s, w.connectors n = some s → s.published = []
  parcels : ∀ p ∈ w.processor.parcels, IsCopy E u c p.message
  reports : ∀ r ∈ w.incoming, ∀ p, IsLost r p → IsCopy E u c p
  resident : c.type = some .INTERNAL_MESSAGE → Resident E u w.processor.channels

theorem IsSentTo.plain (hm : IsSentTo D.env m u c) :
    ∃ ty, c.type = some ty ∧ ty ∉ Connector.specialTypes := by
  rcases hm.type with h | h
  · exact ⟨_, h, by decide⟩
  · exact ⟨_, h, by decide⟩

omit [JavaChar] in
theorem isLost_report (C : Connector.Config) (b m : Message) :
    IsLost (Connector.PostOffice.stateChangedMessage C b m .ADDRESS_NOT_FOUND) m :=
  ⟨rfl, ⟨_, rfl, rfl, rfl⟩, ⟨_, rfl, rfl, rfl⟩⟩

omit [JavaChar] in
theorem eq_of_isLost_report {C : Connector.Config} {b m p : Message} {st : MessageState}
    (h : IsLost (Connector.PostOffice.stateChangedMessage C b m st) p) :
    st = .ADDRESS_NOT_FOUND ∧ p = m := by
  obtain ⟨c, hc, -, hd⟩ := h.content
  cases hc
  cases hd
  exact ⟨rfl, rfl⟩

/-- A connector consumes a copy: it reports it as lost exactly if it does not find the user. -/
theorem handOut_spec (hm : IsSentTo D.env m u c) (hw : InCycle D.env u c w₀ w) {k : ℕ}
    {futures : List Bool} (h : D.step w (.handOut k futures) = some w') :
    ∃ p s t a rs, w.processor.parcels[k]? = some p ∧ w.connectors p.target = some s ∧
      p.message.meta_ = some t ∧ t.targetAddress = some a ∧
      w'.processor = { w.processor with parcels := w.processor.parcels.eraseIdx k } ∧
      w'.incoming = w.incoming ++ rs ∧
      (Connector.UserMap.getUser u a.socketId s.users = none →
        ∃ C b, rs = [Connector.PostOffice.stateChangedMessage C b p.message .ADDRESS_NOT_FOUND]) ∧
      (Connector.UserMap.getUser u a.socketId s.users ≠ none → rs = [] ∨ ∃ C b st,
        st ≠ .ADDRESS_NOT_FOUND ∧ rs = [Connector.PostOffice.stateChangedMessage C b p.message st]) ∧
      InCycle D.env u c w₀ w' := by
  obtain ⟨p, s, hp, hs, rfl⟩ := Domain.step_handOut h
  have hcopy := hw.parcels p (List.mem_of_getElem? hp)
  obtain ⟨t, a, ht, ha, -⟩ := hcopy.meta_
  obtain ⟨ty, hty, hplain⟩ := hm.plain
  have hrun : ((Connector.withFutures futures (Connector.PostOffice.onMessageArrived
      (D.config p.target) p.message)).run s).2 =
      (s.expecting futures).handled (D.config p.target) p.message u c t a := by
    rw [Connector.withFutures, run_modify_bind,
      Connector.run_onMessageArrived hcopy.to_ hcopy.content hty hplain ht ha]
  obtain ⟨hlost, hfound⟩ := Connector.handled_published (C := D.config p.target) (m := p.message)
    (u := u) (t := t) (a := a) (s := s.expecting futures) (hw.published _ s hs) hm.feature
  have husers : ((s.expecting futures).handled (D.config p.target) p.message u c t a).users =
      s.users := Connector.handled_users
  refine ⟨p, s, t, a, ((s.expecting futures).handled (D.config p.target) p.message u c t a).published,
    hp, hs, ht, ha, rfl, ?_, fun hnone => ⟨_, _, hlost hnone⟩, fun hsome => ?_, ?_⟩
  · rw [World.atConnector, hrun]
  · rcases hfound hsome with hnil | ⟨b, st, hst, hrep⟩
    · exact .inl hnil
    · exact .inr ⟨_, _, st, hst, hrep⟩
  · refine ⟨fun n => ?_, fun n s' hs' => ?_, fun q hq => ?_, fun r hr q hq => ?_, hw.resident⟩
    · -- nobody connects or disconnects
      rw [← hw.users n, World.atConnector, hrun]
      by_cases hn : n = p.target
      · subst hn
        simp [hs, husers]
      · simp [hn]
    · simp only [World.atConnector] at hs'
      split_ifs at hs' with hn
      · cases hs'
        rfl
      · exact hw.published n s' hs'
    · exact hw.parcels q (List.mem_of_mem_eraseIdx hq)
    · -- what the connector reports on is the copy
      simp only [World.atConnector, hrun] at hr
      rcases List.mem_append.1 hr with hr | hr
      · exact hw.reports r hr q hq
      · by_cases hnone : Connector.UserMap.getUser u a.socketId s.users = none
        · rw [hlost hnone] at hr
          cases List.mem_singleton.1 hr
          rw [(eq_of_isLost_report hq).2]
          exact hcopy
        · rcases hfound hnone with hnil | ⟨b, st, -, hrep⟩
          · rw [hnil] at hr
            cases hr
          · rw [hrep] at hr
            cases List.mem_singleton.1 hr
            rw [(eq_of_isLost_report hq).2]
            exact hcopy

theorem meta_sent {p : Message} {t : MessageMeta} (ht : p.meta_ = some t) :
    ∃ t', (sent D.env p).meta_ = some t' := by
  obtain ⟨t', ht', -, -⟩ := meta_populated (E := D.env) ht
  obtain ⟨t'', ht'', -⟩ := meta_adjusted (E := D.env) ht'
  exact ⟨t'', ht''⟩

theorem targetAddress_sent {p : Message} {t : MessageMeta} (ht : p.meta_ = some t) (a : Address) :
    ((sent D.env p).setTargetAddress (some a)).targetAddress = some a := by
  obtain ⟨t', ht'⟩ := meta_sent (D := D) ht
  rw [MessageOf.targetAddress, MessageOf.setTargetAddress, MessageOf.updateMeta_meta, ht']
  rfl

/-- What is sent to an address is a copy. -/
theorem isCopy_setTargetAddress {p : Message} {t : MessageMeta} (hto : p.to_ = some u)
    (hcontent : p.content = some c) (ht : p.meta_ = some t) {a : Address}
    (ha : c.type = some .INTERNAL_MESSAGE → IsResident D.env a) :
    IsCopy D.env u c (p.setTargetAddress (some a)) := by
  refine ⟨hto, hcontent, { t with targetAddress := some a }, a, ?_, rfl, ha⟩
  rw [MessageOf.setTargetAddress, MessageOf.updateMeta_meta, ht]
  rfl

/-- Where the addresses of a user are in the domain, so are the targets. -/
theorem isResident_of_target {d : Option DeliveryType} {s : State} {a : Address}
    (hresident : Resident D.env u s.channels) (ha : a ∈ targets D.env (some u) d s) :
    IsResident D.env a := by
  by_cases hblank : isBlank (some u) = true
  · rw [targets, if_pos hblank] at ha
    cases ha
  by_cases hconn : ProcessorUtils.isConnectorUser (some u) = true
  · rw [targets, if_neg hblank, if_pos hconn, List.mem_singleton] at ha
    rw [ha]
    exact equalsIgnoreCase_refl _
  · rw [targets_of_user (by simpa using hblank) (by simpa using hconn)] at ha
    exact hresident a (mem_chosen ha)

/-- What a processor has done that has consumed the report `r` of the lost copy `p`: the address is
taken out of the registry, and the message is sent to addresses that are left. -/
structure Redelivered (D : Domain) (u : String) (c : MessageContent) (w₀ w w' : World) (k : ℕ) (p : Message)
    (t : MessageMeta) (s : State) (ps : List Parcel) : Prop where
  meta_ : p.meta_ = some t
  channels : s.channels = UserChannelService.delete u t.targetAddress w.processor.channels
  channels' : w'.processor.channels = s.channels
  parcels : w'.processor.parcels = w.processor.parcels ++ ps
  incoming : w'.incoming = w.incoming.eraseIdx k
  connectors : w'.connectors = w.connectors
  length : ps.length ≤ (targets D.env (some u) (sent D.env p).deliveryType s).length
  copies : ∀ q ∈ ps, ∃ a ∈ targets D.env (some u) (sent D.env p).deliveryType s,
    a.connectorName = some q.target ∧ q.message = (sent D.env p).setTargetAddress (some a)
  inCycle : InCycle D.env u c w₀ w'

theorem redelivered_of_silent (hw : InCycle D.env u c w₀ w) {k : ℕ} {d : Draws}
    {r p : Message} (hcopy : IsCopy D.env u c p) {t : MessageMeta} (ht : p.meta_ = some t) {x : Proc Unit}
    (hx : Silent ((PostOffice.deliverMessage D.env p).run
      ((w.processor.drawing d).afterLoss r u t.targetAddress)).2
        (x.run (w.processor.drawing d)).2) :
    ∃ s ps, Redelivered D u c w₀ w (({ w with
      incoming := w.incoming.eraseIdx k
      dispatched := w.dispatched ++ [r] } : World).atProcessor x d) k p t s ps := by
  -- a copy of a wrapper is for an address in the domain
  have htype : ProcessorUtils.isLocal D.env p = false → c.type ≠ some .INTERNAL_MESSAGE := by
    intro haway hinternal
    obtain ⟨t', a, ht', ha, hresident⟩ := hcopy.meta_
    have htarget : p.targetAddress = some a := by rw [MessageOf.targetAddress, ht', Option.bind_some, ha]
    rw [ProcessorUtils.isLocal, ProcessorUtils.domainOf, htarget, Bool.or_eq_false_iff] at haway
    exact Bool.false_ne_true (haway.2.symm.trans (hresident hinternal))
  have hposts := posts_deliverMessage (E := D.env) ht hcopy.content htype
    ((w.processor.drawing d).afterLoss r u t.targetAddress)
  have hposts' : Posts (sent D.env p) (targets D.env (some u) (sent D.env p).deliveryType
      ((w.processor.drawing d).afterLoss r u t.targetAddress))
      ((w.processor.drawing d).afterLoss r u t.targetAddress) (x.run (w.processor.drawing d)).2 := by
    refine (hposts.mono (fun b hb => ?_) ?_).silent hx
    · split at hb
      · rw [hcopy.to_] at hb
        exact hb
      · cases hb
    · split
      · rw [hcopy.to_]
      · exact Nat.zero_le _
  have hleft : c.type = some .INTERNAL_MESSAGE →
      Resident D.env u ((w.processor.drawing d).afterLoss r u t.targetAddress).channels := by
    intro hinternal a ha
    rw [State.afterLoss, UserChannelService.addressesOf_delete] at ha
    exact hw.resident hinternal a (List.mem_filter.1 ha).1
  obtain ⟨ps, hps, hlen, hall⟩ := hposts'.parcels
  refine ⟨(w.processor.drawing d).afterLoss r u t.targetAddress, ps, ht, rfl,
    hposts'.channels, hps, rfl, rfl, hlen, hall, hw.users, hw.published, fun q hq => ?_, ?_,
    fun hinternal => ?_⟩
  · rcases List.mem_append.1 (hps ▸ hq) with hq | hq
    · exact hw.parcels q hq
    · obtain ⟨b, hb, -, hmsg⟩ := hall q hq
      have hletter : p.SameLetter (sent D.env p) :=
        (letter_populated p).trans (letter_adjusted (populated D.env p))
      obtain ⟨t', ht'⟩ := meta_sent (D := D) ht
      rw [hmsg]
      exact isCopy_setTargetAddress (hletter.to_.trans hcopy.to_) (hletter.content.trans hcopy.content)
        ht' fun hinternal => isResident_of_target (hleft hinternal) hb
  · exact fun r' hr' => hw.reports r' (List.mem_of_mem_eraseIdx hr')
  · have hchannels := hposts'.channels
    exact hchannels.symm ▸ hleft hinternal

/-- A processor consumes the report of a lost copy. -/
theorem dispatch_spec (hw : InCycle D.env u c w₀ w) {k : ℕ} {d : Draws}
    {r p : Message} (hr : w.incoming[k]? = some r) (hlost : IsLost r p)
    (h : D.step w (.dispatch k d) = some w') :
    ∃ t s ps, Redelivered D u c w₀ w w' k p t s ps := by
  obtain ⟨r', hr', hw'⟩ := Domain.step_dispatch h
  have heq : r' = r := Option.some.inj (hr'.symm.trans hr)
  rw [heq] at hw'
  have hcopy := hw.reports r (List.mem_of_getElem? hr) p hlost
  obtain ⟨t, a, ht, -, -⟩ := hcopy.meta_
  obtain ⟨s, ps, hps⟩ := redelivered_of_silent (k := k) hw hcopy ht
    (silent_onRecordArrived (E := D.env) hlost hcopy.to_ ht (w.processor.drawing d))
  exact ⟨t, s, ps, hw' ▸ hps⟩

/-! ### The end of the cycle -/

omit [JavaChar] in
theorem length_chosen_le (d : Option DeliveryType) (l : List Address) (s : State) :
    (chosen d l s).length ≤ l.length := by
  unfold chosen
  split
  · exact Nat.le_refl _
  · cases l with
    | nil => simp
    | cons a l =>
      have hone : ∀ o : Option Address, o.toList.length ≤ 1 := by
        intro o
        cases o <;> simp
      exact (hone _).trans (by simp)

/-- The targets of a user that is looked up in the registry are addresses of the user. -/
theorem targets_of_not_connector (hconn : ProcessorUtils.isConnectorUser (some u) = false)
    (d : Option DeliveryType) (s : State) :
    (∀ a ∈ targets D.env (some u) d s, a ∈ addressesOf s.channels u) ∧
      (targets D.env (some u) d s).length ≤ (addressesOf s.channels u).length := by
  by_cases hblank : isBlank (some u) = true
  · have hnil : targets D.env (some u) d s = [] := by rw [targets, if_pos hblank]
    rw [hnil]
    exact ⟨fun _ ha => (List.not_mem_nil ha).elim, Nat.zero_le _⟩
  · rw [targets_of_user (by simpa using hblank) hconn]
    exact ⟨fun a ha => mem_chosen ha, length_chosen_le d _ s⟩

omit [JavaChar] in
/-- A copy to one of the addresses left costs less than they all. -/
theorem copyCost_le {l : List Address} {q : Parcel} {a : Address} (ha : a ∈ l)
    (hq : q.message.targetAddress = some a) : copyCost l q ≤ cost (l.length - 1) + 1 := by
  have hlt : (left l q.message).length < l.length := by
    rw [left, List.length_filter_lt_length_iff_exists]
    exact ⟨a, ha, by simp [hq]⟩
  exact Nat.succ_le_succ (cost_mono (by omega))

/-- **Every step lowers the measure**, where the user is looked up in the registry. -/
theorem lowers (hm : IsSentTo D.env m u c)
    (hconn : ProcessorUtils.isConnectorUser (some u) = false) (hw : InCycle D.env u c w₀ w) {e : Event}
    (hok : Cycle w e) (h : D.step w e = some w') :
    InCycle D.env u c w₀ w' ∧ measure u w' < measure u w := by
  cases e with
  | handOut k futures =>
    obtain ⟨p, s, t, a, rs, hp, -, -, -, hproc, hinc, hlost, hfound, hw'⟩ := handOut_spec hm hw h
    refine ⟨hw', ?_⟩
    have hrs : (rs.map (reportCost (addressesOf w.processor.channels u))).sum ≤
        cost (left (addressesOf w.processor.channels u) p.message).length := by
      by_cases hnone : Connector.UserMap.getUser u a.socketId s.users = none
      · obtain ⟨C, b, rfl⟩ := hlost hnone
        exact Nat.le_refl _
      · rcases hfound hnone with rfl | ⟨C, b, st, hst, rfl⟩
        · exact Nat.zero_le _
        · have hzero : reportCost (addressesOf w.processor.channels u)
              (Connector.PostOffice.stateChangedMessage C b p.message st) = 0 := by
            cases st <;> first | rfl | exact absurd rfl hst
          simp [hzero]
    have hsum := sum_eraseIdx (copyCost (addressesOf w.processor.channels u)) hp
    simp only [measure, hproc, hinc, List.map_append, List.sum_append]
    rw [hsum, copyCost]
    omega
  | dispatch k d =>
    obtain ⟨r, p, hr, hlost⟩ := hok
    obtain ⟨t, s, ps, hstep⟩ := dispatch_spec hw hr hlost h
    refine ⟨hstep.inCycle, ?_⟩
    have htarget : p.targetAddress = t.targetAddress := by
      rw [MessageOf.targetAddress, hstep.meta_]
      rfl
    have hleft : addressesOf s.channels u = left (addressesOf w.processor.channels u) p := by
      rw [hstep.channels, UserChannelService.addressesOf_delete, left, htarget]
    obtain ⟨hmem, hlen⟩ := targets_of_not_connector (D := D) hconn (sent D.env p).deliveryType s
    rw [hleft] at hmem hlen
    -- the new copies are for the addresses left
    have hnew : (ps.map (copyCost (left (addressesOf w.processor.channels u) p))).sum <
        cost (left (addressesOf w.processor.channels u) p).length := by
      have hall : ∀ n ∈ ps.map (copyCost (left (addressesOf w.processor.channels u) p)),
          n ≤ cost ((left (addressesOf w.processor.channels u) p).length - 1) + 1 := by
        intro n hn
        obtain ⟨q, hq, rfl⟩ := List.mem_map.1 hn
        obtain ⟨a, ha, -, hmsg⟩ := hstep.copies q hq
        refine copyCost_le (hmem a ha) ?_
        rw [hmsg]
        exact targetAddress_sent hstep.meta_ a
      have hsum := List.sum_le_card_nsmul _ _ hall
      rw [List.length_map, Nat.nsmul_eq_mul] at hsum
      have hmul := Nat.mul_le_mul_right
        (cost ((left (addressesOf w.processor.channels u) p).length - 1) + 1) (hstep.length.trans hlen)
      have hlt := mul_cost_lt (left (addressesOf w.processor.channels u) p).length
      omega
    have hold : (w.processor.parcels.map (copyCost (left (addressesOf w.processor.channels u) p))).sum ≤
        (w.processor.parcels.map (copyCost (addressesOf w.processor.channels u))).sum :=
      List.sum_le_sum fun q _ => copyCost_left _ p q
    have hreports : ((w.incoming.eraseIdx k).map
        (reportCost (left (addressesOf w.processor.channels u) p))).sum ≤
        ((w.incoming.eraseIdx k).map (reportCost (addressesOf w.processor.channels u))).sum :=
      List.sum_le_sum fun q _ => reportCost_left _ p q
    have hsum := sum_eraseIdx (reportCost (addressesOf w.processor.channels u)) hr
    have hcost : reportCost (addressesOf w.processor.channels u) r =
        cost (left (addressesOf w.processor.channels u) p).length := by
      obtain ⟨c', hc', -, hd⟩ := hlost.content
      rw [reportCost, MessageOf.data, hc', Option.map_some, Option.getD_some, hd]
    simp only [measure, hstep.channels', hstep.parcels, hstep.incoming, hleft, List.map_append,
      List.sum_append]
    omega
  | _ => exact hok.elim

/-- The first delivery. -/
theorem inCycle_delivered (hm : IsSentTo D.env m u c) (hw : Calm w)
    (hresident : c.type = some .INTERNAL_MESSAGE → Resident D.env u w.processor.channels) (d : Draws) :
    InCycle D.env u c w (delivered D m w d) ∧ (delivered D m w d).incoming = [] ∧
      ∃ k, ∀ q ∈ (delivered D m w d).processor.parcels,
        ∃ a ∈ targets D.env (some u) k (w.processor.drawing d),
          a.connectorName = some q.target ∧ q.message.targetAddress = some a := by
  obtain ⟨t, ht⟩ := hm.meta_
  obtain ⟨x, t', hrun, hx, hxc, -, hxto⟩ := exists_sendToConnector ht hm.content hm.route
  obtain ⟨t'', ht'', -⟩ := meta_adjusted (E := D.env) hx
  have hletter := letter_adjusted (E := D.env) x
  have hposts := posts_sendToConnector (E := D.env) hx hxc (w.processor.drawing d)
  rw [← hrun, hxto] at hposts
  obtain ⟨ps, hps, -, hall⟩ := hposts.parcels
  have hnew : (delivered D m w d).processor.parcels = ps := by
    have hnil : (w.processor.drawing d).parcels = [] := hw.parcels
    rw [hnil, List.nil_append] at hps
    exact hps
  have hcopies : ∀ q ∈ ps, IsCopy D.env u c q.message := by
    intro q hq
    obtain ⟨a, ha, -, hmsg⟩ := hall q hq
    rw [hmsg]
    exact isCopy_setTargetAddress (hletter.to_.trans hxto) (hletter.content.trans hxc) ht''
      fun hinternal => isResident_of_target (s := w.processor.drawing d) (hresident hinternal) ha
  refine ⟨⟨fun _ => rfl, hw.published, fun q hq => hcopies q (hnew ▸ hq), fun r hr => ?_,
    fun hinternal => ?_⟩, hw.incoming, (adjusted D.env x).deliveryType, fun q hq => ?_⟩
  · have hnone : r ∈ w.incoming := hr
    rw [hw.incoming] at hnone
    cases hnone
  · have hchannels : (delivered D m w d).processor.channels = w.processor.channels := hposts.channels
    exact hchannels.symm ▸ hresident hinternal
  · obtain ⟨a, ha, hname, hmsg⟩ := hall q (hnew ▸ hq)
    refine ⟨a, ha, hname, ?_⟩
    rw [hmsg, MessageOf.targetAddress, MessageOf.setTargetAddress, MessageOf.updateMeta_meta, ht'']
    rfl

/-- Where no step of the cycle can be made, nothing of it is in flight. -/
theorem quiet_of_stuck (h : ∀ e w', Cycle w e → D.system.step w e ≠ some w') : Quiet w := by
  constructor
  · intro p hp
    obtain ⟨k, hk⟩ := List.getElem?_of_mem hp
    by_contra hrun
    obtain ⟨s, hs⟩ := Option.ne_none_iff_exists'.1 hrun
    have hstep : D.step w (.handOut k []) ≠ none := by
      simp only [Domain.step, hk, hs, Option.bind_eq_bind, Option.bind_some, Option.pure_def, ne_eq,
        reduceCtorEq, not_false_eq_true]
    obtain ⟨w', hw'⟩ := Option.ne_none_iff_exists'.1 hstep
    exact h (.handOut k []) w' trivial hw'
  · intro r hr msg hlost
    obtain ⟨k, hk⟩ := List.getElem?_of_mem hr
    have hstep : D.step w (.dispatch k {}) ≠ none := by
      simp only [Domain.step, hk, Option.bind_eq_bind, Option.bind_some, Option.pure_def, ne_eq,
        reduceCtorEq, not_false_eq_true]
    obtain ⟨w', hw'⟩ := Option.ne_none_iff_exists'.1 hstep
    exact h (.dispatch k {}) w' ⟨r, msg, hk, hlost⟩ hw'

theorem ends_of_measure {I : World → Prop} {μ : World → ℕ} (h₀ : I w)
    (hstep : ∀ w e w', I w → Cycle w e → D.step w e = some w' → I w' ∧ μ w' < μ w) : Ends D w := by
  have hbound : ∀ l w', D.system.Path Cycle w l w' → l.length ≤ μ w := fun l w' hpath =>
    (Nat.le_add_right _ _).trans (hpath.length_add_le hstep h₀).2
  refine ⟨μ w, fun l w' hpath => ⟨hbound l w' hpath, ?_⟩⟩
  obtain ⟨l', w'', hpath', hstuck⟩ := System.Path.exists_stuck hbound hpath
  exact ⟨l', w'', hpath', quiet_of_stuck hstuck⟩

/-- The cycle of a user that is looked up in the registry. -/
theorem ends_of_not_connector (hm : IsSentTo D.env m u c)
    (hconn : ProcessorUtils.isConnectorUser (some u) = false) (hw : Calm w)
    (hresident : c.type = some .INTERNAL_MESSAGE → Resident D.env u w.processor.channels) (d : Draws) :
    Ends D (delivered D m w d) :=
  ends_of_measure (inCycle_delivered hm hw hresident d).1 fun _ _ _ hI hok h => lowers hm hconn hI hok h

/-- The address of a connector. -/
def connectorAddress (D : Domain) (u : String) : Address :=
  { domainName := some D.env.domainName, connectorName := some u }

theorem targets_connector (hconn : ProcessorUtils.isConnectorUser (some u) = true)
    (d : Option DeliveryType) (s : State) :
    targets D.env (some u) d s = [connectorAddress D u] := by
  have hblank : isBlank (some u) = false := by
    rw [ProcessorUtils.isConnectorUser, Bool.and_eq_true] at hconn
    simpa using hconn.1
  rw [targets, hblank, if_neg Bool.false_ne_true, hconn, if_pos rfl]
  rfl

/-- The copy to a connector is consumed once. -/
theorem ends_of_not_chased (hm : IsSentTo D.env m u c)
    (hconn : ProcessorUtils.isConnectorUser (some u) = true) (hw : Calm w)
    (hresident : c.type = some .INTERNAL_MESSAGE → Resident D.env u w.processor.channels)
    (hfree : ¬ Chases u w.connectors) (d : Draws) : Ends D (delivered D m w d) := by
  obtain ⟨hcycle, hinc, k, hparcels⟩ := inCycle_delivered hm hw hresident d
  refine ends_of_measure (I := fun v => InCycle D.env u c w v ∧
    (∀ q ∈ v.processor.parcels, q.target = u ∧
      q.message.targetAddress = some (connectorAddress D u)) ∧ ∀ r ∈ v.incoming, ∀ p, ¬ IsLost r p)
    (μ := fun v => v.processor.parcels.length) ⟨hcycle, fun q hq => ?_, fun r hr => ?_⟩ ?_
  · obtain ⟨a, ha, hname, htarget⟩ := hparcels q hq
    rw [targets_connector hconn, List.mem_singleton] at ha
    subst ha
    exact ⟨(Option.some.inj hname).symm, htarget⟩
  · rw [hinc] at hr
    cases hr
  rintro v e v' ⟨hv, hall, hnone⟩ hok h
  cases e with
  | handOut k futures =>
    obtain ⟨p, s, t, a, rs, hp, hs, ht, ha, hproc, hinc', -, hfound, hv'⟩ := handOut_spec hm hv h
    have hpm : p ∈ v.processor.parcels := List.mem_of_getElem? hp
    obtain ⟨htarget, haddr⟩ := hall p hpm
    have haddr' : a = connectorAddress D u := by
      rw [MessageOf.targetAddress, ht, Option.bind_some, ha] at haddr
      exact Option.some.inj haddr
    -- the connector has a user of its own name
    have huser : Connector.UserMap.getUser u a.socketId s.users ≠ none := by
      intro hlost
      have husers := hv.users u
      rw [← htarget, hs, htarget] at husers
      obtain ⟨s₀, hs₀, heq⟩ := Option.map_eq_some_iff.1 husers.symm
      refine hfree ⟨hconn, s₀, hs₀, ?_⟩
      rw [heq, ← hlost, haddr']
      rfl
    refine ⟨⟨hv', fun q hq => ?_, fun r hr q => ?_⟩, ?_⟩
    · rw [hproc] at hq
      exact hall q (List.mem_of_mem_eraseIdx hq)
    · rw [hinc'] at hr
      rcases List.mem_append.1 hr with hr | hr
      · exact hnone r hr q
      · rcases hfound huser with hnil | ⟨C, b, st, hst, hrep⟩
        · rw [hnil] at hr
          cases hr
        · rw [hrep] at hr
          cases List.mem_singleton.1 hr
          exact fun hlost => hst (eq_of_isLost_report hlost).1
    · have hlt := (List.getElem?_eq_some_iff.1 hp).1
      simp only [hproc, List.length_eraseIdx, hlt, if_true]
      omega
  | dispatch k d =>
    obtain ⟨r, p, hr, hlost⟩ := hok
    exact absurd hlost (hnone r (List.mem_of_getElem? hr) p)
  | _ => exact hok.elim

/-! ### Chasing a connector -/

/-- One copy is on its way to the connector. -/
structure Chasing (D : Domain) (u : String) (c : MessageContent) (w₀ w : World) : Prop where
  inCycle : InCycle D.env u c w₀ w
  parcel : ∃ q i, w.processor.parcels = [q] ∧ q.target = u ∧ q.message.id = some i ∧
    q.message.targetAddress = some (connectorAddress D u)
  incoming : w.incoming = []

omit [JavaChar] in
/-- The record that is put on the topic of the connector, with a producer that takes it. -/
theorem offer_post {picks : List ℕ} {f : MessageFeature} {p : Message} {a : Address} {s : State}
    (hr : s.refused = []) : (s.picking picks).offer f p a = (s.picking picks).post [copyTo f p a] := by
  have haccepted : (s.picking picks).refused.headD false = false := by
    rw [State.picking, hr]
    rfl
  have hasked : (s.picking picks).asked = s.picking picks := by
    rw [State.asked, State.picking, hr]
    rfl
  rw [State.offer_accepted haccepted, hasked]

theorem id_sent {p : Message} : (sent D.env p).id = p.id :=
  (id_adjusted (populated D.env p)).trans (id_populated p)

theorem chasing_delivered (hm : IsSentTo D.env m u c)
    (hconn : ProcessorUtils.isConnectorUser (some u) = true) (hw : Calm w)
    (hresident : c.type = some .INTERNAL_MESSAGE → Resident D.env u w.processor.channels) :
    Chasing D u c w (delivered D m w {}) := by
  obtain ⟨t, ht⟩ := hm.meta_
  obtain ⟨i, hi⟩ := hm.id
  obtain ⟨hcycle, hinc, -⟩ := inCycle_delivered hm hw hresident {}
  obtain ⟨x, t', hrouted, hx, hxc, hxid, hxto⟩ := exists_sendToConnector ht hm.content hm.route
  obtain ⟨t'', ht'', -⟩ := meta_adjusted (E := D.env) hx
  obtain ⟨picks, hrun⟩ := run_sendToConnector_connector (E := D.env) hx hxc (hxid.trans hi) hm.feature
    hxto hconn (w.processor.drawing {})
  refine ⟨hcycle, ⟨copyTo .RELIABLE (adjusted D.env x) (connectorAddress D u), i, ?_, rfl,
    (id_adjusted x).trans (hxid.trans hi), ?_⟩, hinc⟩
  · have hnil : (w.processor.drawing {}).parcels = [] := hw.parcels
    rw [delivered, World.atProcessor, State.after, hrouted, hrun, offer_post rfl]
    simp only [State.post, State.picking, hnil, List.nil_append]
    rfl
  · rw [copyTo, MessageOf.targetAddress, MessageOf.setTargetAddress, MessageOf.updateMeta_meta, ht'']
    rfl

/-- Two steps later the copy is on its way again. -/
theorem chasing_step (hm : IsSentTo D.env m u c) (hchase : Chases u w₀.connectors)
    (hw : Chasing D u c w₀ w) : ∃ e₁ w₁ e₂ w₂, Cycle w e₁ ∧ D.step w e₁ = some w₁ ∧
      Cycle w₁ e₂ ∧ D.step w₁ e₂ = some w₂ ∧ Chasing D u c w₀ w₂ := by
  obtain ⟨hconn, s₀, hs₀, hnone⟩ := hchase
  obtain ⟨q, i, hq, htarget, hid, haddr⟩ := hw.parcel
  have hrunning : ∃ s, w.connectors u = some s ∧ s.users = s₀.users := by
    have husers := hw.inCycle.users u
    rw [hs₀, Option.map_some] at husers
    exact Option.map_eq_some_iff.1 husers
  obtain ⟨s, hs, husers⟩ := hrunning
  -- the connector reports the copy as lost
  have hfirst : D.step w (.handOut 0 []) ≠ none := by
    simp only [Domain.step, hq, List.getElem?_cons_zero, htarget, hs, Option.bind_eq_bind,
      Option.bind_some, Option.pure_def, ne_eq, reduceCtorEq, not_false_eq_true]
  obtain ⟨w₁, hw₁⟩ := Option.ne_none_iff_exists'.1 hfirst
  obtain ⟨q', s', t, a, rs, hq', hs', ht, ha, hproc, hinc, hlost, -, hcycle⟩ :=
    handOut_spec hm hw.inCycle hw₁
  rw [hq, List.getElem?_cons_zero, Option.some.injEq] at hq'
  subst hq'
  rw [htarget, hs, Option.some.injEq] at hs'
  subst hs'
  have haddr' : a = connectorAddress D u := by
    rw [MessageOf.targetAddress, ht, Option.bind_some, ha] at haddr
    exact Option.some.inj haddr
  obtain ⟨C, b, hrs⟩ := hlost (by rw [husers, haddr']; exact hnone)
  rw [hw.incoming, List.nil_append, hrs] at hinc
  have hcopy := hw.inCycle.parcels q (by rw [hq]; exact List.mem_singleton_self q)
  have hloc : ProcessorUtils.isLocal D.env q.message = true := by
    rw [ProcessorUtils.isLocal, ProcessorUtils.domainOf, haddr]
    simp [connectorAddress, equalsIgnoreCase_refl]
  -- the processor has it delivered again
  have hreport : w₁.incoming[0]? = some
      (Connector.PostOffice.stateChangedMessage C b q.message .ADDRESS_NOT_FOUND) := by
    rw [hinc]
    rfl
  have hsecond : D.step w₁ (.dispatch 0 {}) ≠ none := by
    simp only [Domain.step, hreport, Option.bind_eq_bind, Option.bind_some, Option.pure_def, ne_eq,
      reduceCtorEq, not_false_eq_true]
  obtain ⟨w₂, hw₂⟩ := Option.ne_none_iff_exists'.1 hsecond
  have hisLost := isLost_report C b q.message
  obtain ⟨t', s₂, ps, hredelivered⟩ := dispatch_spec hcycle hreport hisLost hw₂
  obtain ⟨picks, hrun⟩ := run_deliverMessage_connector (E := D.env) ht hcopy.content hid hm.feature hloc
    hcopy.to_ hconn ((w₁.processor.drawing {}).afterLoss
      (Connector.PostOffice.stateChangedMessage C b q.message .ADDRESS_NOT_FOUND) u t.targetAddress)
  rw [offer_post rfl] at hrun
  have hrecord := run_onRecordArrived_lost (E := D.env) hisLost hcopy.to_ ht
    (s := w₁.processor.drawing {}) hrun
  refine ⟨.handOut 0 [], w₁, .dispatch 0 {}, w₂, trivial, hw₁, ⟨_, _, hreport, hisLost⟩, hw₂,
    hredelivered.inCycle, ?_, ?_⟩
  · refine ⟨copyTo .RELIABLE (sent D.env q.message) (connectorAddress D u), i, ?_, rfl,
      id_sent.trans hid, targetAddress_sent ht _⟩
    obtain ⟨r, hr, hstep⟩ := Domain.step_dispatch hw₂
    have heq := Option.some.inj (hr.symm.trans hreport)
    subst heq
    rw [hstep, World.atProcessor, State.after, hrecord]
    simp [State.post, State.picking, State.afterLoss, State.noting, State.drawing, hproc, hq,
      connectorAddress]
  · rw [hredelivered.incoming, hinc]
    rfl

/-- The cycle has runs of any length. -/
theorem exists_path_chasing (hm : IsSentTo D.env m u c) (hchase : Chases u w₀.connectors)
    (hw : Chasing D u c w₀ w) (n : ℕ) :
    ∃ l w', l.length = 2 * n ∧ D.system.Path Cycle w l w' ∧ Chasing D u c w₀ w' := by
  induction n with
  | zero => exact ⟨[], w, rfl, .nil, hw⟩
  | succ n ih =>
    obtain ⟨l, w', hlen, hpath, hw'⟩ := ih
    obtain ⟨e₁, w₁, e₂, w₂, hok₁, h₁, hok₂, h₂, hw₂⟩ := chasing_step hm hchase hw'
    refine ⟨_, w₂, ?_, (hpath.snoc hok₁ h₁).snoc hok₂ h₂, hw₂⟩
    simp only [List.length_append, List.length_cons, List.length_nil, hlen]
    omega

theorem not_ends_of_chases (hm : IsSentTo D.env m u c) (hw : Calm w)
    (hresident : c.type = some .INTERNAL_MESSAGE → Resident D.env u w.processor.channels)
    (hchase : Chases u w.connectors) : ¬ Ends D (delivered D m w {}) := by
  rintro ⟨n, hn⟩
  have hchasing := chasing_delivered hm hchase.1 hw hresident
  obtain ⟨l, w', hlen, hpath, -⟩ := exists_path_chasing hm hchase hchasing (n + 1)
  have hle := (hn l w' hpath).1
  omega

/-- **The retry cycle ends**, whatever is registered, exactly if the user to whom the message is sent is
not the name of a running connector that has no such user.  The addresses of a domain user are asked to be
in the domain, since a wrapper for another address is sent on to other domains. -/
theorem ends_iff (hm : IsSentTo D.env m u c) {connectors : String → Option Connector.State}
    (hpublished : ∀ n s, connectors n = some s → s.published = []) :
    (∀ w d, Calm w → w.connectors = connectors →
      (c.type = some .INTERNAL_MESSAGE → Resident D.env u w.processor.channels) →
        Ends D (delivered D m w d)) ↔
      ¬ Chases u connectors := by
  constructor
  · intro h hchase
    have hcalm : Calm { connectors } := ⟨rfl, rfl, hpublished⟩
    have hresident : c.type = some .INTERNAL_MESSAGE →
        Resident D.env u (World.processor { connectors }).channels := fun _ a ha => by cases ha
    exact not_ends_of_chases hm hcalm hresident hchase (h { connectors } {} hcalm rfl hresident)
  · rintro hfree w d hw rfl hresident
    by_cases hconn : ProcessorUtils.isConnectorUser (some u) = true
    · exact ends_of_not_chased hm hconn hw hresident hfree d
    · exact ends_of_not_connector hm (by simpa using hconn) hw hresident d

end

/-! ### Letters to a user and to a connector -/

section

attribute [local instance] JavaChar.ascii

open Sample (domain start connectorName)

namespace SampleLetter

def content : MessageContent :=
  createMessageContent .MESSAGE (.messageForward ⟨some "APP-5", some "hello"⟩) (some .RELIABLE)

def letter (u : String) : Message :=
  { newMessage "1" 1 with
    content := some content
    from_ := some "APP-5"
    to_ := some u
    meta_ := some {} }

theorem published (n : String) (s : Connector.State) (h : start.connectors n = some s) :
    s.published = [] := by
  simp only [start] at h
  split_ifs at h
  cases h
  rfl

/-- The domain with a next domain. -/
def linked (next : String) : Domain :=
  { domain with env := { domain.env with routes := some fun _ => some next } }

/-- The wrapper around a letter for another domain. -/
def wrapper : Message :=
  { newMessage "2" 2 with
    content := some (createMessageContent .INTERNAL_MESSAGE (.message (letter "APP-150")) (some .RELIABLE))
    from_ := some "APP-5"
    to_ := some "APP-150"
    meta_ := some { targetAddress := some { domainName := some "domain-02" } } }

theorem isSentTo_wrapper {next u : String} (h : routedTo (linked next).env wrapper = some (some u)) :
    IsSentTo (linked next).env wrapper u (createMessageContent .INTERNAL_MESSAGE
      (.message (letter "APP-150")) (some .RELIABLE)) :=
  ⟨h, rfl, .inr rfl, rfl, ⟨_, rfl⟩, ⟨_, rfl⟩⟩

end SampleLetter

open SampleLetter

/-- A letter to a user and a wrapper to the next domain are at rest in the end. -/
theorem ends_user : Ends domain (delivered domain (letter "APP-6") start {}) ∧
    Ends (linked "domain-02") (delivered (linked "domain-02") wrapper start {}) := by
  have hlocal : ProcessorUtils.isLocal domain.env (letter "APP-6") = true := by decide +kernel
  have hm : IsLetter domain.env (letter "APP-6") "APP-6" content :=
    ⟨rfl, rfl, rfl, rfl, ⟨_, rfl⟩, ⟨_, rfl⟩, hlocal⟩
  have hconn : ProcessorUtils.isConnectorUser (some "APP-6") = false := by decide +kernel
  have hroute : routedTo (linked "domain-02").env wrapper = some (some "domain2-1") := by decide +kernel
  have hnext : ProcessorUtils.isConnectorUser (some "domain2-1") = false := by decide +kernel
  have hcalm : Calm start := ⟨rfl, rfl, published⟩
  have hfree : ∀ u, ProcessorUtils.isConnectorUser (some u) = false → ¬ Chases u start.connectors := by
    intro u hu hchase
    rw [hchase.1] at hu
    cases hu
  constructor
  · exact (ends_iff hm.isSentTo published).2 (hfree _ hconn) start {} hcalm rfl fun h => by cases h
  · exact (ends_iff (isSentTo_wrapper hroute) published).2 (hfree _ hnext) start {} hcalm rfl
      fun _ a ha => by cases ha

/-- **A chase.**  A client sends a message to `connector-01`, and it never comes to rest. -/
theorem chased : ¬ ∀ w d, Calm w → w.connectors = start.connectors →
    Ends domain (delivered domain (letter connectorName) w d) := by
  intro h
  have hlocal : ProcessorUtils.isLocal domain.env (letter connectorName) = true := by decide +kernel
  have hm : IsLetter domain.env (letter connectorName) connectorName content :=
    ⟨rfl, rfl, rfl, rfl, ⟨_, rfl⟩, ⟨_, rfl⟩, hlocal⟩
  have hconn : ProcessorUtils.isConnectorUser (some connectorName) = true := by decide +kernel
  have hcalm : Calm start := ⟨rfl, rfl, published⟩
  exact not_ends_of_chases hm.isSentTo hcalm (fun h => by cases h) ⟨hconn, {}, rfl, rfl⟩
    (h start {} hcalm rfl)

/-- The user of a next domain may be a connector, too. -/
example : ¬ Ends (linked "connector-5") (delivered (linked "connector-5") wrapper
    { connectors := fun name => if name = "connector5-1" then some {} else none } {}) := by
  have hroute : routedTo (linked "connector-5").env wrapper = some (some "connector5-1") := by
    decide +kernel
  have hconn : ProcessorUtils.isConnectorUser (some "connector5-1") = true := by decide +kernel
  refine not_ends_of_chases (isSentTo_wrapper hroute) ⟨rfl, rfl, fun n s hs => ?_⟩
    (fun _ a ha => by cases ha) ⟨hconn, {}, rfl, rfl⟩
  simp only at hs
  split_ifs at hs
  cases hs
  rfl

end

end Recovery

end Linker
