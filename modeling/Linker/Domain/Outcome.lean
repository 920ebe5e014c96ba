import Linker.Domain.Recovery
import Linker.LTS.Retry

/-!
# What becomes of a letter

A letter goes to addresses some of which are stale.  The copies and the reports of lost copies may be
consumed in any order; addressed by the addresses they are for, they go the way of `Retry`.

## Main definitions

* `Smooth` : a step of the cycle, where the producer takes every record and writes succeed.
* `Corresponds` : a state of the domain, and the state of `Retry` it comes down to.

## Main results

* `corresponds_step`, `exists_step` : the domain and `Retry` go step by step together.
* `comesTo` : what has become of a letter when nothing of it is in flight.
* `once_iff` : each socket gets the letter at most once, in every order, exactly if it is sent to one
  address at a time, or no address is stale, or none is live.
-/

namespace Linker

open Processor Exec
open Processor.UserChannelService (addressesOf)

section Lists

variable {α β : Type*} {R : α → β → Prop}

theorem forall₂_getElem? {l : List α} {l' : List β} (h : List.Forall₂ R l l') {k : ℕ} {a : α}
    (ha : l[k]? = some a) : ∃ b, l'[k]? = some b ∧ R a b := by
  induction h generalizing k with
  | nil => cases ha
  | @cons x y l l' hxy _ ih =>
    cases k with
    | zero =>
      cases ha
      exact ⟨y, rfl, hxy⟩
    | succ k => exact ih ha

theorem forall₂_eraseIdx {l : List α} {l' : List β} (h : List.Forall₂ R l l') (k : ℕ) :
    List.Forall₂ R (l.eraseIdx k) (l'.eraseIdx k) := by
  induction h generalizing k with
  | nil => exact .nil
  | cons hxy htail ih =>
    cases k with
    | zero => exact htail
    | succ k => exact .cons hxy (ih k)

theorem forall₂_append {l₁ l₂ : List α} {l₁' l₂' : List β} (h₁ : List.Forall₂ R l₁ l₁')
    (h₂ : List.Forall₂ R l₂ l₂') : List.Forall₂ R (l₁ ++ l₂) (l₁' ++ l₂') := by
  induction h₁ with
  | nil => exact h₂
  | cons hxy _ ih => exact .cons hxy ih

/-- A place in a list, and its place in what is filtered out of it. -/
theorem exists_filterMap_eraseIdx {f : α → Option β} {l : List α} {k : ℕ} {a : α} {b : β}
    (ha : l[k]? = some a) (hf : f a = some b) : ∃ j, (l.filterMap f)[j]? = some b ∧
      (l.eraseIdx k).filterMap f = (l.filterMap f).eraseIdx j := by
  induction l generalizing k with
  | nil => cases ha
  | cons x l ih =>
    cases k with
    | zero =>
      cases ha
      exact ⟨0, by rw [List.filterMap_cons_some hf]; rfl, by rw [List.filterMap_cons_some hf]; rfl⟩
    | succ k =>
      obtain ⟨j, hj, herase⟩ := ih ha
      rw [List.eraseIdx_cons_succ]
      cases hx : f x with
      | none =>
        rw [List.filterMap_cons_none hx, List.filterMap_cons_none hx]
        exact ⟨j, hj, herase⟩
      | some y =>
        rw [List.filterMap_cons_some hx, List.filterMap_cons_some hx]
        exact ⟨j + 1, hj, by rw [herase]; rfl⟩

theorem exists_of_filterMap {f : α → Option β} {l : List α} {j : ℕ} {b : β}
    (hb : (l.filterMap f)[j]? = some b) : ∃ k a, l[k]? = some a ∧ f a = some b ∧
      (l.eraseIdx k).filterMap f = (l.filterMap f).eraseIdx j := by
  induction l generalizing j with
  | nil => cases hb
  | cons x l ih =>
    cases hx : f x with
    | none =>
      rw [List.filterMap_cons_none hx] at hb ⊢
      obtain ⟨k, a, ha, hf, herase⟩ := ih hb
      exact ⟨k + 1, a, ha, hf, by rw [List.eraseIdx_cons_succ, List.filterMap_cons_none hx, herase]⟩
    | some y =>
      rw [List.filterMap_cons_some hx] at hb ⊢
      cases j with
      | zero =>
        cases hb
        exact ⟨0, x, rfl, hx, rfl⟩
      | succ j =>
        obtain ⟨k, a, ha, hf, herase⟩ := ih hb
        refine ⟨k + 1, a, ha, hf, ?_⟩
        rw [List.eraseIdx_cons_succ, List.filterMap_cons_some hx, herase]
        rfl

end Lists

namespace Processor.MessageRepository

/-- A record that is saved again under its id. -/
theorem upsert_upsert {m m' : Message} (h : m'.id = m.id) (l : List Message) :
    upsert m' (upsert m l) = upsert m' l := by
  induction l with
  | nil => simp [upsert, h]
  | cons r l ih =>
    by_cases hr : r.id = m.id
    · simp [upsert, hr, h]
    · simp [upsert, hr, h, ih]

theorem upsert_of_fresh {m : Message} {l : List Message} (h : ∀ r ∈ l, r.id ≠ m.id) :
    upsert m l = l ++ [m] := by
  induction l with
  | nil => rfl
  | cons r l ih =>
    rw [upsert, if_neg (h r List.mem_cons_self), ih fun r' hr' => h r' (List.mem_cons_of_mem _ hr')]
    rfl

end Processor.MessageRepository

namespace Connector

variable {C : Config} {m : Message} {u : String} {c : MessageContent} {t : MessageMeta} {a : Address}
  {s : State}

theorem handled_none (hu : UserMap.getUser u a.socketId s.users = none)
    (hf : c.feature = some .RELIABLE) :
    s.handled C m u c t a = s.reported C m .ADDRESS_NOT_FOUND := by
  rw [State.handled, hu]
  exact if_pos hf

theorem handled_some {i : ℤ} (hu : UserMap.getUser u a.socketId s.users = some i)
    (hi : s.succeeds i = true) :
    s.handled C m u c t a =
      if t.confirmEnabled then (s.wrote i m c).reported C m .PROCESSED else s.wrote i m c := by
  rw [State.handled, hu]
  simp [hi]

end Connector

namespace Recovery

/-- The user has a socket at the address. -/
def isLive (connectors : String → Option Connector.State) (u : String) (a : Address) : Bool :=
  match a.connectorName.bind connectors with
  | none => false
  | some s => (Connector.UserMap.getUser u a.socketId s.users).isSome

/-- A step of the cycle, where the producer takes every record and no write fails. -/
def Smooth (w : World) : Event → Prop
  | .handOut _ futures => futures.headD true = true
  | .dispatch k d => (∃ r msg, w.incoming[k]? = some r ∧ IsLost r msg) ∧ d.refused = []
  | _ => False

theorem cycle_of_smooth {w : World} {e : Event} (h : Smooth w e) : Cycle w e := by
  cases e with
  | handOut k futures => trivial
  | dispatch k d => exact h.1
  | _ => exact h.elim

/-- The address of a lost copy that is reported. -/
def lostAt (r : Message) : Option Address :=
  match r.data with
  | .messageStateChanged (some p) (some .ADDRESS_NOT_FOUND) => p.targetAddress
  | _ => none

/-- What the connector has written to sockets. -/
def outputsAt (w : World) (n : String) : List Connector.Output :=
  ((w.connectors n).map (·.outputs)).getD []

/-- Since `w₀`, the connector has written the outputs `l`. -/
def Wrote (w₀ w : World) (n : String) (l : List Connector.Output) : Prop :=
  outputsAt w n = outputsAt w₀ n ++ l

/-- An address of the domain, at a running connector. -/
structure IsAddress (D : Domain) (w₀ : World) (a : Address) : Prop where
  domainName : a.domainName = some D.env.domainName
  running : ∃ n, a.connectorName = some n ∧ w₀.connectors n ≠ none

/-- A copy for the address has been written to the socket there. -/
structure IsReceipt (m : Message) (o : Connector.Output) (a : Address) : Prop where
  socketId : a.socketId = some o.socketId
  type : o.type = m.type
  data : o.data = m.data
  message : ∃ p, o.message = some p ∧ p.id = m.id ∧ p.targetAddress = some a
  isSuccess : o.isSuccess = true

section

variable [JavaChar]

/-- A letter to a user that is looked up in the registry, in a domain in which nothing is in flight. -/
structure Setting (D : Domain) (m : Message) (u : String) (c : MessageContent) (w₀ : World) : Prop where
  letter : IsLetter D.env m u c
  calm : Calm w₀
  nonblank : isBlank (some u) = false
  user : ProcessorUtils.isConnectorUser (some u) = false
  addresses : ∀ a ∈ addressesOf w₀.processor.channels u, IsAddress D w₀ a
  /-- No entry is without addresses. -/
  entry : w₀.processor.channels u ≠ some []
  /-- The sockets of the user are open. -/
  sockets : ∀ n s i, w₀.connectors n = some s → i ∈ (s.users u).getD [] →
    ((s.sockets i).map (·.isOpen)).getD false = true

/-- How the letter is sent, and where the user is. -/
def retry (D : Domain) (m : Message) (u : String) (w₀ : World) : Retry Address where
  toAll := (sent D.env m).deliveryType = some .ALL
  live := isLive w₀.connectors u

/-- A copy of the letter for the address. -/
structure IsCopyFor (D : Domain) (m : Message) (w₀ : World) (a : Address) (p : Message) : Prop where
  to_ : p.to_ = m.to_
  content : p.content = m.content
  id : p.id = m.id
  target : ∃ t, p.meta_ = some t ∧ t.targetAddress = some a
  deliveryType : (sent D.env p).deliveryType = (sent D.env m).deliveryType
  address : IsAddress D w₀ a

/-- The record with which the letter is stored. -/
structure IsRecord (m : Message) (r : Message) : Prop where
  id : r.id = m.id
  to_ : r.to_ = m.to_
  content : r.content = m.content
  state : r.state = some .ADDRESS_NOT_FOUND

/-- What the domain and `Retry` have in common. -/
structure Corresponds (D : Domain) (m : Message) (u : String) (w₀ w : World)
    (s : Retry.State Address) : Prop where
  running : ∀ n, (w.connectors n).map (fun c => (c.users, c.sockets)) =
    (w₀.connectors n).map fun c => (c.users, c.sockets)
  published : ∀ n c, w.connectors n = some c → c.published = []
  registry : addressesOf w.processor.channels u = s.registry
  entry : w.processor.channels u ≠ some []
  addresses : ∀ a ∈ s.registry, IsAddress D w₀ a
  parcels : List.Forall₂ (fun q a => IsCopyFor D m w₀ a q.message ∧ a.connectorName = some q.target)
    w.processor.parcels s.copies
  incoming : ∀ r ∈ w.incoming, ∃ C b p st, r = Connector.PostOffice.stateChangedMessage C b p st ∧
    ∃ a, IsCopyFor D m w₀ a p
  lost : w.incoming.filterMap lostAt = s.lost
  written : ∀ n, ∃ l, Wrote w₀ w n l ∧
    List.Forall₂ (IsReceipt m) l (s.received.filter fun a => a.connectorName = some n)
  unstored : s.stored = false → w.processor.messages = w₀.processor.messages
  stored : s.stored = true → ∃ r, IsRecord m r ∧
    w.processor.messages = MessageRepository.upsert r w₀.processor.messages

end

/-! ### Copies -/

section

variable [JavaChar] {D : Domain} {m : Message} {u : String} {c : MessageContent} {w₀ w w' : World}
  {s : Retry.State Address} {a : Address}

omit [JavaChar] in
theorem deliveryType_setTargetAddress (p : Message) (a : Option Address) :
    (p.setTargetAddress a).deliveryType = p.deliveryType := by
  rw [MessageOf.deliveryType, MessageOf.deliveryType, MessageOf.setTargetAddress,
    MessageOf.updateMeta_meta]
  cases p.meta_ <;> rfl

/-- A message that is not to be sent to all addresses is not. -/
theorem adjusted_cases {p : Message} {t : MessageMeta} (ht : p.meta_ = some t) :
    (adjusted D.env p).deliveryType = some .ANY ∨ adjusted D.env p = p ∧
      ¬ (p.deliveryType = some .ALL ∧ (p.type = some .INTERNAL_MESSAGE ||
        ClientAppService.isMasterUserId D.env p.to_ ||
        startsWithIgnoreCase p.to_ (some Keywords.PROCESSOR)) = true) := by
  rw [adjusted]
  split
  · refine .inl ?_
    rw [MessageOf.deliveryType, MessageOf.setDeliveryType, MessageOf.updateMeta_meta, ht]
    rfl
  · next h => exact .inr ⟨rfl, h⟩

/-- A copy is sent again the way it has been sent. -/
theorem deliveryType_sent_copy {p : Message} {t : MessageMeta} (ht : p.meta_ = some t) (a : Address) :
    (sent D.env ((sent D.env p).setTargetAddress (some a))).deliveryType =
      (sent D.env p).deliveryType := by
  have htarget := targetAddress_sent (D := D) ht a
  have hdelivery := deliveryType_setTargetAddress (sent D.env p) (some a)
  have hpopulated : populated D.env ((sent D.env p).setTargetAddress (some a)) =
      (sent D.env p).setTargetAddress (some a) := by
    rw [populated, htarget]
  obtain ⟨t', ht', -⟩ := meta_populated (E := D.env) ht
  have hkept : adjusted D.env ((sent D.env p).setTargetAddress (some a)) =
      (sent D.env p).setTargetAddress (some a) := by
    refine if_neg ?_
    rw [hdelivery]
    rcases adjusted_cases (D := D) ht' with hany | ⟨hsame, hnot⟩
    · rw [show (sent D.env p).deliveryType = some .ANY from hany]
      simp
    · rw [show sent D.env p = populated D.env p from hsame]
      exact hnot
  rw [sent, hpopulated, hkept, hdelivery]

/-- The records that are put on topics are copies for their addresses. -/
theorem isCopyFor_copyTo {p : Message} {t : MessageMeta} (hto : p.to_ = m.to_)
    (hcontent : p.content = m.content) (hid : p.id = m.id) (ht : p.meta_ = some t)
    (hdelivery : (sent D.env p).deliveryType = (sent D.env m).deliveryType) (ha : IsAddress D w₀ a) :
    IsCopyFor D m w₀ a (copyTo .RELIABLE (sent D.env p) a).message ∧
      a.connectorName = some (copyTo .RELIABLE (sent D.env p) a).target := by
  have hletter : p.SameLetter (sent D.env p) :=
    (letter_populated p).trans (letter_adjusted (populated D.env p))
  obtain ⟨t', ht'⟩ := meta_sent (D := D) ht
  refine ⟨⟨hletter.to_.trans hto, hletter.content.trans hcontent, id_sent.trans hid,
    ⟨{ t' with targetAddress := some a }, ?_, rfl⟩, (deliveryType_sent_copy ht a).trans hdelivery, ha⟩, ?_⟩
  · show ((sent D.env p).setTargetAddress (some a)).meta_ = _
    rw [MessageOf.setTargetAddress, MessageOf.updateMeta_meta, ht']
    rfl
  · obtain ⟨n, hn, -⟩ := ha.running
    rw [hn]
    exact congrArg some (by rw [copyTo, hn]; rfl)

theorem IsCopyFor.targetAddress {p : Message} (h : IsCopyFor D m w₀ a p) : p.targetAddress = some a := by
  obtain ⟨t, ht, ha⟩ := h.target
  rw [MessageOf.targetAddress, ht]
  exact ha

theorem IsCopyFor.isLocal {p : Message} (h : IsCopyFor D m w₀ a p) :
    ProcessorUtils.isLocal D.env p = true := by
  have hdomain : ProcessorUtils.domainOf D.env p = some D.env.domainName := by
    rw [ProcessorUtils.domainOf, h.targetAddress]
    exact h.address.domainName
  rw [ProcessorUtils.isLocal, hdomain, equalsIgnoreCase_refl, Bool.or_true]

/-- What is chosen is the same. -/
theorem chosen_eq (s : Processor.State) (l : List Address) :
    Processor.chosen (sent D.env m).deliveryType l s = (retry D m u w₀).chosen l (s.picks.headD 0) := by
  unfold Processor.chosen Retry.chosen retry
  by_cases hall : (sent D.env m).deliveryType = some .ALL
  · simp [hall]
  · simp [hall]

/-! ### A connector consumes a copy -/

/-- Whether a copy is lost depends on where the user is, which does not change. -/
theorem isLive_eq (h : Corresponds D m u w₀ w s) {n : String} {k : Connector.State}
    (hname : a.connectorName = some n) (hk : w.connectors n = some k) :
    isLive w₀.connectors u a = (Connector.UserMap.getUser u a.socketId k.users).isSome := by
  have hrunning := h.running n
  rw [hk, Option.map_some] at hrunning
  obtain ⟨k₀, hk₀, heq⟩ := Option.map_eq_some_iff.1 hrunning.symm
  rw [isLive, hname, Option.bind_some, hk₀]
  exact congrArg (fun users => (Connector.UserMap.getUser u a.socketId users).isSome)
    (Prod.mk.inj heq).1

theorem isOpen_of_user (hset : Setting D m u c w₀) (h : Corresponds D m u w₀ w s) {n : String}
    {k : Connector.State} (hk : w.connectors n = some k) {i : ℤ} (hi : i ∈ (k.users u).getD []) :
    ((k.sockets i).map (·.isOpen)).getD false = true := by
  have hrunning := h.running n
  rw [hk, Option.map_some] at hrunning
  obtain ⟨k₀, hk₀, heq⟩ := Option.map_eq_some_iff.1 hrunning.symm
  obtain ⟨husers, hsockets⟩ := Prod.mk.inj heq
  rw [← hsockets]
  exact hset.sockets n k₀ i hk₀ (husers ▸ hi)

/-- A connector consumes the copy at the place `k`, writes the outputs `os` for the addresses `added`,
and publishes reports. -/
theorem corresponds_atConnector (h : Corresponds D m u w₀ w s) {k : ℕ} {p : Parcel}
    {x y : Connector.State} {X : Connector.Conn Unit} (hx : w.connectors p.target = some x)
    (hrun : (X.run x).2 = y) (husers : y.users = x.users) (hsockets : y.sockets = x.sockets)
    {os : List Connector.Output} (houtputs : y.outputs = x.outputs ++ os)
    {added : List Address} (hadded : List.Forall₂ (IsReceipt m) os added)
    (hname : ∀ a ∈ added, a.connectorName = some p.target)
    (hpublished : ∀ r ∈ y.published, ∃ C b q st,
      r = Connector.PostOffice.stateChangedMessage C b q st ∧ ∃ a, IsCopyFor D m w₀ a q) :
    Corresponds D m u w₀ (({ w with
      processor := { w.processor with parcels := w.processor.parcels.eraseIdx k } } :
        World).atConnector p.target x X)
      { s with
        copies := s.copies.eraseIdx k
        lost := s.lost ++ y.published.filterMap lostAt
        received := s.received ++ added } where
  running n := by
    by_cases hn : n = p.target
    · subst hn
      rw [← h.running, hx]
      simp [World.atConnector, hrun, husers, hsockets]
    · rw [← h.running]
      simp [World.atConnector, hn]
  published n z hz := by
    simp only [World.atConnector] at hz
    split_ifs at hz with hn
    · cases hz
      rfl
    · exact h.published n z hz
  registry := h.registry
  entry := h.entry
  addresses := h.addresses
  parcels := forall₂_eraseIdx h.parcels k
  incoming r hr := by
    rcases List.mem_append.1 hr with hr | hr
    · exact h.incoming r hr
    · exact hpublished r (hrun ▸ hr)
  lost := by
    show (w.incoming ++ (X.run x).2.published).filterMap lostAt = _
    rw [List.filterMap_append, h.lost, hrun]
  written n := by
    obtain ⟨l, hl, hall⟩ := h.written n
    rw [Wrote] at hl
    by_cases hn : n = p.target
    · subst hn
      refine ⟨l ++ os, ?_, ?_⟩
      · rw [outputsAt, hx, Option.map_some, Option.getD_some] at hl
        simp [Wrote, outputsAt, World.atConnector, hrun, houtputs, hl]
      · have hkept : added.filter (fun a => a.connectorName = some p.target) = added :=
          List.filter_eq_self.2 fun a ha => by simp [hname a ha]
        rw [List.filter_append, hkept]
        exact forall₂_append hall hadded
    · refine ⟨l, ?_, ?_⟩
      · rw [Wrote, ← hl]
        simp [outputsAt, World.atConnector, hn]
      · have hnone : added.filter (fun a => a.connectorName = some n) = [] :=
          List.filter_eq_nil_iff.2 fun a ha => by simp [hname a ha, Ne.symm hn]
        rw [List.filter_append, hnone, List.append_nil]
        exact hall
  unstored := h.unstored
  stored := h.stored

/-- **A connector consumes a copy.** -/
theorem corresponds_arrive (hset : Setting D m u c w₀) (h : Corresponds D m u w₀ w s) {k : ℕ}
    {futures : List Bool} (hfutures : futures.headD true = true)
    (hst : D.step w (.handOut k futures) = some w') :
    ∃ s', (retry D m u w₀).system.step s (.arrive k) = some s' ∧ Corresponds D m u w₀ w' s' := by
  obtain ⟨p, x, hp, hx, rfl⟩ := Domain.step_handOut hst
  obtain ⟨a, ha, hcopy, hname⟩ := forall₂_getElem? h.parcels hp
  obtain ⟨t, ht, hta⟩ := hcopy.target
  have hrun : ((Connector.withFutures futures (Connector.PostOffice.onMessageArrived
      (D.config p.target) p.message)).run x).2 =
      (x.expecting futures).handled (D.config p.target) p.message u c t a := by
    rw [Connector.withFutures, run_modify_bind, Connector.run_onMessageArrived
      (hcopy.to_.trans hset.letter.to_) (hcopy.content.trans hset.letter.content) hset.letter.type
      (by decide) ht hta]
  have hlive := isLive_eq h hname hx
  have hpublished : (x.expecting futures).published = [] := h.published _ x hx
  have hstep : (retry D m u w₀).system.step s (.arrive k) = some
      (if isLive w₀.connectors u a then
        { s with copies := s.copies.eraseIdx k, received := s.received ++ [a] }
      else { s with copies := s.copies.eraseIdx k, lost := s.lost ++ [a] }) := by
    simp [Retry.system, Retry.step, ha, retry]
  cases huser : Connector.UserMap.getUser u a.socketId x.users with
  | none =>
    rw [hlive, huser] at hstep
    rw [Connector.handled_none (s := x.expecting futures) huser hset.letter.feature] at hrun
    have hreport : ((x.expecting futures).reported (D.config p.target) p.message
        .ADDRESS_NOT_FOUND).published = [Connector.PostOffice.stateChangedMessage (D.config p.target)
          ((D.config p.target).blank x.serial) p.message .ADDRESS_NOT_FOUND] := by
      rw [Connector.State.reported, hpublished]
      rfl
    have hcorresponds := corresponds_atConnector (k := k) h hx hrun rfl rfl
      (List.append_nil _).symm .nil (fun a ha => by cases ha) (fun r hr => by
        rw [hreport] at hr
        exact ⟨_, _, _, _, List.mem_singleton.1 hr, a, hcopy⟩)
    have hlost : lostAt (Connector.PostOffice.stateChangedMessage (D.config p.target)
        ((D.config p.target).blank x.serial) p.message .ADDRESS_NOT_FOUND) = some a :=
      hcopy.targetAddress
    rw [hreport, List.filterMap_cons_some hlost, List.filterMap_nil, List.append_nil] at hcorresponds
    exact ⟨_, hstep, hcorresponds⟩
  | some i =>
    rw [hlive, huser] at hstep
    have hsucceeds : (x.expecting futures).succeeds i = true := by
      rw [Connector.State.succeeds, Bool.and_eq_true]
      exact ⟨isOpen_of_user hset h hx (Connector.UserMap.getUser_eq_some huser).2, hfutures⟩
    rw [Connector.handled_some (s := x.expecting futures) huser hsucceeds] at hrun
    have hreceipt : IsReceipt m ⟨i, c.type, c.data, c.reference, some p.message,
        (x.expecting futures).succeeds i⟩ a := by
      refine ⟨(Connector.UserMap.getUser_eq_some huser).1, ?_, ?_,
        ⟨p.message, rfl, hcopy.id, hcopy.targetAddress⟩, hsucceeds⟩
      · rw [MessageOf.type, hset.letter.content]
        rfl
      · rw [MessageOf.data, hset.letter.content]
        rfl
    have hname' : ∀ b ∈ [a], b.connectorName = some p.target := by
      intro b hb
      rw [List.mem_singleton.1 hb, hname]
    refine ⟨_, hstep, ?_⟩
    by_cases hconfirm : t.confirmEnabled = true
    · rw [if_pos hconfirm] at hrun
      have hreport : (((x.expecting futures).wrote i p.message c).reported (D.config p.target) p.message
          .PROCESSED).published = [Connector.PostOffice.stateChangedMessage (D.config p.target)
            ((D.config p.target).blank x.serial) p.message .PROCESSED] := by
        rw [Connector.State.reported, Connector.State.wrote, hpublished]
        rfl
      have hcorresponds := corresponds_atConnector (k := k) h hx hrun rfl rfl rfl
        (.cons hreceipt .nil) hname' (fun r hr => by
          rw [hreport] at hr
          exact ⟨_, _, _, _, List.mem_singleton.1 hr, a, hcopy⟩)
      rw [hreport, List.filterMap_cons_none rfl, List.filterMap_nil, List.append_nil] at hcorresponds
      exact hcorresponds
    · rw [if_neg hconfirm] at hrun
      have hnone : ((x.expecting futures).wrote i p.message c).published = [] := hpublished
      have hcorresponds := corresponds_atConnector (k := k) h hx hrun rfl rfl rfl
        (.cons hreceipt .nil) hname' (fun r hr => by
          rw [hnone] at hr
          cases hr)
      rw [hnone, List.filterMap_nil, List.append_nil] at hcorresponds
      exact hcorresponds

/-! ### A processor takes up a report -/

/-- **A delivery.** -/
theorem corresponds_send (hset : Setting D m u c w₀) (h : Corresponds D m u w₀ w s) {p : Message}
    {t : MessageMeta} (hto : p.to_ = m.to_) (hcontent : p.content = m.content) (hid : p.id = m.id)
    (ht : p.meta_ = some t) (hdelivery : (sent D.env p).deliveryType = (sent D.env m).deliveryType)
    (hloc : ProcessorUtils.isLocal D.env p = true) (hrefused : w.processor.refused = []) :
    ∃ x, (PostOffice.deliverMessage D.env p).run w.processor = (.ok (), x) ∧
      Corresponds D m u w₀ { w with processor := x }
        ((retry D m u w₀).send (w.processor.picks.headD 0) s) := by
  obtain ⟨i, hi⟩ := hset.letter.id
  have htargets : targets D.env p.to_ (sent D.env p).deliveryType w.processor =
      (retry D m u w₀).chosen s.registry (w.processor.picks.headD 0) := by
    rw [hto, hset.letter.to_, targets_of_user hset.nonblank hset.user, h.registry, hdelivery]
    exact chosen_eq _ _
  have hmem : ∀ a ∈ (retry D m u w₀).chosen s.registry (w.processor.picks.headD 0), IsAddress D w₀ a :=
    fun a ha => h.addresses a (Retry.mem_of_mem_chosen ha)
  obtain ⟨picks, hrun⟩ := run_deliverMessage (E := D.env) ht (hcontent.trans hset.letter.content)
    (hid.trans hi) hset.letter.feature hloc hrefused (by
      rw [htargets]
      intro a ha
      obtain ⟨n, hn, -⟩ := (hmem a ha).running
      rw [hn]
      exact Option.some_ne_none n)
  refine ⟨_, hrun, ?_⟩
  rw [htargets]
  by_cases hnil : s.registry = []
  · -- no address is left: the letter is stored
    have hletter : p.SameLetter (sent D.env p) :=
      (letter_populated p).trans (letter_adjusted (populated D.env p))
    have hnone : (retry D m u w₀).chosen s.registry (w.processor.picks.headD 0) = [] :=
      List.eq_nil_iff_forall_not_mem.2 fun a ha => by
        have := Retry.mem_of_mem_chosen ha
        rw [hnil] at this
        cases this
    have hrecord : IsRecord m ((sent D.env p).setState (some .ADDRESS_NOT_FOUND)) :=
      ⟨id_sent.trans hid, hletter.to_.trans hto, hletter.content.trans hcontent, rfl⟩
    rw [State.sentOut, if_pos hnone, State.keep, if_pos rfl, Retry.send, if_pos hnil]
    refine { h with unstored := (fun h => by cases h), stored := fun _ => ⟨_, hrecord, ?_⟩ }
    cases hs : s.stored with
    | false => exact congrArg _ (h.unstored hs)
    | true =>
      obtain ⟨r, hr, hmessages⟩ := h.stored hs
      show MessageRepository.upsert _ w.processor.messages = _
      rw [hmessages]
      exact MessageRepository.upsert_upsert (hrecord.id.trans hr.id.symm) _
  · -- copies are put on topics
    have hsome : (retry D m u w₀).chosen s.registry (w.processor.picks.headD 0) ≠ [] := by
      rw [← chosen_eq]
      exact chosen_ne_nil hnil
    rw [State.sentOut, if_neg hsome, Retry.send, if_neg hnil]
    refine { h with parcels := forall₂_append h.parcels ?_ }
    rw [List.forall₂_map_left_iff, List.forall₂_same]
    exact fun a ha => isCopyFor_copyTo hto hcontent hid ht hdelivery (hmem a ha)

/-- **A processor takes up the report of a lost copy.** -/
theorem corresponds_resend (hset : Setting D m u c w₀) (h : Corresponds D m u w₀ w s) {k : ℕ}
    {d : Draws} {r p : Message} (hr : w.incoming[k]? = some r) (hlost : IsLost r p)
    (hd : d.refused = []) (hst : D.step w (.dispatch k d) = some w') {j : ℕ} {a : Address}
    (hj : s.lost[j]? = some a) (ha : lostAt r = some a)
    (herase : (w.incoming.eraseIdx k).filterMap lostAt = s.lost.eraseIdx j) :
    ∃ s', (retry D m u w₀).system.step s (.resend j (d.picks.headD 0)) = some s' ∧
      Corresponds D m u w₀ w' s' := by
  obtain ⟨r', hr', rfl⟩ := Domain.step_dispatch hst
  cases hr'.symm.trans hr
  obtain ⟨C, b, q, st, rfl, a', hcopy⟩ := h.incoming _ (List.mem_of_getElem? hr)
  obtain ⟨rfl, rfl⟩ := eq_of_isLost_report hlost
  obtain rfl : a' = a := Option.some.inj (hcopy.targetAddress.symm.trans ha)
  obtain ⟨t, ht, hta⟩ := hcopy.target
  have hto : p.to_ = some u := hcopy.to_.trans hset.letter.to_
  -- the address is taken out of the registry, and the copy is delivered
  have hbefore : Corresponds D m u w₀
      { w with
        processor := (w.processor.drawing d).afterLoss
          (Connector.PostOffice.stateChangedMessage C b p .ADDRESS_NOT_FOUND) u t.targetAddress
        incoming := w.incoming.eraseIdx k
        dispatched := w.dispatched ++
          [Connector.PostOffice.stateChangedMessage C b p .ADDRESS_NOT_FOUND] }
      { s with lost := s.lost.eraseIdx j, registry := s.registry.filter (· ≠ a') } := by
    refine { h with registry := ?_, entry := ?_, addresses := ?_, incoming := ?_, lost := herase }
    · show addressesOf (UserChannelService.delete u t.targetAddress w.processor.channels) u = _
      rw [UserChannelService.addressesOf_delete, h.registry, hta]
      exact List.filter_congr fun b _ => by simp
    · show UserChannelService.delete u t.targetAddress w.processor.channels u ≠ _
      simp only [UserChannelService.delete, if_true]
      split
      · exact fun hnone => by cases hnone
      · next hne => exact fun hsome => hne (by rw [Option.some.inj hsome]; rfl)
    · exact fun b hb => h.addresses b (List.mem_of_mem_filter hb)
    · exact fun r hr => h.incoming r (List.mem_of_mem_eraseIdx hr)
  obtain ⟨x, hrun, hafter⟩ := corresponds_send hset hbefore hcopy.to_ hcopy.content hcopy.id ht
    hcopy.deliveryType hcopy.isLocal hd
  have hrecord := run_onRecordArrived_lost (E := D.env) hlost hto ht (s := w.processor.drawing d) hrun
  refine ⟨(retry D m u w₀).send (d.picks.headD 0)
    { s with lost := s.lost.eraseIdx j, registry := s.registry.filter (· ≠ a') }, ?_, ?_⟩
  · simp [Retry.system, Retry.step, hj]
  · rw [World.atProcessor, State.after, hrecord]
    exact hafter

/-! ### Step by step -/

/-- A report of a lost copy, among those that are published. -/
theorem isLost_of_lostAt (h : Corresponds D m u w₀ w s) {k : ℕ} {r : Message}
    (hr : w.incoming[k]? = some r) (ha : lostAt r = some a) : ∃ p, IsLost r p := by
  obtain ⟨C, b, p, st, rfl, -⟩ := h.incoming r (List.mem_of_getElem? hr)
  cases st with
  | ADDRESS_NOT_FOUND => exact ⟨p, isLost_report C b p⟩
  | _ => cases ha

theorem exists_lostAt (h : Corresponds D m u w₀ w s) {k : ℕ} {r p : Message}
    (hr : w.incoming[k]? = some r) (hlost : IsLost r p) : ∃ a, lostAt r = some a := by
  obtain ⟨C, b, q, st, rfl, a, hcopy⟩ := h.incoming r (List.mem_of_getElem? hr)
  obtain ⟨rfl, rfl⟩ := eq_of_isLost_report hlost
  exact ⟨a, hcopy.targetAddress⟩

/-- **A step of the domain** is one of `Retry`. -/
theorem corresponds_step (hset : Setting D m u c w₀) (h : Corresponds D m u w₀ w s) {e : Event}
    (hok : Smooth w e) (hst : D.step w e = some w') :
    ∃ e' s', (retry D m u w₀).system.step s e' = some s' ∧ Corresponds D m u w₀ w' s' := by
  cases e with
  | handOut k futures => exact ⟨.arrive k, corresponds_arrive hset h hok hst⟩
  | dispatch k d =>
    obtain ⟨⟨r, p, hr, hlost⟩, hd⟩ := hok
    obtain ⟨a, ha⟩ := exists_lostAt h hr hlost
    obtain ⟨j, hj, herase⟩ := exists_filterMap_eraseIdx hr ha
    rw [h.lost] at hj herase
    exact ⟨.resend j (d.picks.headD 0), corresponds_resend hset h hr hlost hd hst hj ha herase⟩
  | _ => exact hok.elim

/-- **A step of `Retry`** is one of the domain. -/
theorem exists_step (hset : Setting D m u c w₀) (h : Corresponds D m u w₀ w s) {e' : Retry.Event}
    {s' : Retry.State Address} (hst : (retry D m u w₀).system.step s e' = some s') :
    ∃ e w', Smooth w e ∧ D.step w e = some w' ∧ Corresponds D m u w₀ w' s' := by
  cases e' with
  | arrive k =>
    obtain ⟨a, ha, -⟩ := Option.map_eq_some_iff.1 hst
    obtain ⟨q, hq, hcopy, hname⟩ := forall₂_getElem? h.parcels.flip ha
    obtain ⟨n, hn, hrunning⟩ := hcopy.address.running
    obtain rfl : q.target = n := Option.some.inj (hname.symm.trans hn)
    have hconnector : w.connectors q.target ≠ none := fun hnone => by
      have hsame := h.running q.target
      rw [hnone, Option.map_none] at hsame
      exact hrunning (Option.map_eq_none_iff.1 hsame.symm)
    obtain ⟨x, hx⟩ := Option.ne_none_iff_exists'.1 hconnector
    have hstep : D.step w (.handOut k []) ≠ none := by
      simp only [Domain.step, hq, hx, Option.bind_eq_bind, Option.bind_some, Option.pure_def, ne_eq,
        reduceCtorEq, not_false_eq_true]
    obtain ⟨w', hw'⟩ := Option.ne_none_iff_exists'.1 hstep
    have hsuccessful : ([] : List Bool).headD true = true := rfl
    obtain ⟨s'', hs'', hcorresponds⟩ := corresponds_arrive hset h hsuccessful hw'
    cases hs''.symm.trans hst
    exact ⟨.handOut k [], w', rfl, hw', hcorresponds⟩
  | resend j pick =>
    obtain ⟨a, hj, -⟩ := Option.map_eq_some_iff.1 hst
    rw [← h.lost] at hj
    obtain ⟨k, r, hr, ha, herase⟩ := exists_of_filterMap hj
    obtain ⟨p, hlost⟩ := isLost_of_lostAt h hr ha
    rw [h.lost] at hj herase
    have hstep : D.step w (.dispatch k { picks := [pick] }) ≠ none := by
      simp only [Domain.step, hr, Option.bind_eq_bind, Option.bind_some, Option.pure_def, ne_eq,
        reduceCtorEq, not_false_eq_true]
    obtain ⟨w', hw'⟩ := Option.ne_none_iff_exists'.1 hstep
    obtain ⟨s'', hs'', hcorresponds⟩ := corresponds_resend hset h hr hlost
      (d := { picks := [pick] }) rfl hw' hj ha herase
    cases hs''.symm.trans hst
    exact ⟨.dispatch k { picks := [pick] }, w', ⟨⟨r, p, hr, hlost⟩, rfl⟩, hw', hcorresponds⟩

/-- The first delivery. -/
theorem corresponds_start (hset : Setting D m u c w₀) {d : Draws} (hd : d.refused = []) :
    Corresponds D m u w₀ (delivered D m w₀ d)
      ((retry D m u w₀).start (addressesOf w₀.processor.channels u) (d.picks.headD 0)) := by
  obtain ⟨t, ht⟩ := hset.letter.meta_
  have hbefore : Corresponds D m u w₀ { w₀ with processor := w₀.processor.drawing d }
      { registry := addressesOf w₀.processor.channels u } :=
    { running := fun _ => rfl
      published := hset.calm.published
      registry := rfl
      entry := hset.entry
      addresses := hset.addresses
      parcels := by
        show List.Forall₂ _ w₀.processor.parcels []
        rw [hset.calm.parcels]
        exact .nil
      incoming := fun r hr => by
        have hnil : r ∈ w₀.incoming := hr
        rw [hset.calm.incoming] at hnil
        cases hnil
      lost := by
        show w₀.incoming.filterMap lostAt = []
        rw [hset.calm.incoming]
        rfl
      written := fun n => ⟨[], (List.append_nil _).symm, .nil⟩
      unstored := fun _ => rfl
      stored := fun h => by cases h }
  obtain ⟨x, hrun, hafter⟩ := corresponds_send hset hbefore rfl rfl rfl ht rfl hset.letter.isLocal hd
  rw [delivered, World.atProcessor, State.after, hrun]
  exact hafter

/-- What is reached in the domain is what is reached in `Retry`. -/
theorem exists_corresponds (hset : Setting D m u c w₀) {d : Draws} (hd : d.refused = [])
    (h : D.system.Reaches Smooth (delivered D m w₀ d) w) :
    ∃ s, (retry D m u w₀).system.Reaches (fun _ _ => True)
      ((retry D m u w₀).start (addressesOf w₀.processor.channels u) (d.picks.headD 0)) s ∧
      Corresponds D m u w₀ w s :=
  h.simulate (corresponds_start hset hd) fun _ _ _ _ hc hok hst =>
    let ⟨_, s', hs', hc'⟩ := corresponds_step hset hc hok hst
    ⟨s', .tail .refl trivial hs', hc'⟩

theorem exists_reaches (hset : Setting D m u c w₀) {pick : ℕ}
    (h : (retry D m u w₀).system.Reaches (fun _ _ => True)
      ((retry D m u w₀).start (addressesOf w₀.processor.channels u) pick) s) :
    ∃ w, D.system.Reaches Smooth (delivered D m w₀ { picks := [pick] }) w ∧ Corresponds D m u w₀ w s :=
  h.simulate (R := fun s w => Corresponds D m u w₀ w s) (corresponds_start hset rfl)
    fun _ _ _ _ hc _ hst =>
      let ⟨_, w', hok, hw', hc'⟩ := exists_step hset hc hst
      ⟨w', .tail .refl hok hw', hc'⟩

/-- Where nothing is in flight in the domain, nothing is in `Retry`. -/
theorem nothing_of_quiet (h : Corresponds D m u w₀ w s) (hquiet : Quiet w) :
    s.copies = [] ∧ s.lost = [] := by
  constructor
  · refine List.eq_nil_iff_forall_not_mem.2 fun a ha => ?_
    obtain ⟨k, hk⟩ := List.getElem?_of_mem ha
    obtain ⟨q, hq, hcopy, hname⟩ := forall₂_getElem? h.parcels.flip hk
    obtain ⟨n, hn, hrunning⟩ := hcopy.address.running
    obtain rfl : q.target = n := Option.some.inj (hname.symm.trans hn)
    have hsame := h.running q.target
    rw [hquiet.parcels q (List.mem_of_getElem? hq), Option.map_none] at hsame
    exact hrunning (Option.map_eq_none_iff.1 hsame.symm)
  · rw [← h.lost]
    refine List.filterMap_eq_nil_iff.2 fun r hr => ?_
    obtain ⟨k, hk⟩ := List.getElem?_of_mem hr
    cases ha : lostAt r with
    | none => rfl
    | some a =>
      obtain ⟨p, hlost⟩ := isLost_of_lostAt h hk ha
      exact absurd hlost (hquiet.reports r hr p)

/-! ### In the end -/

/-- The socket at the address has got the letter. -/
def Got (m : Message) (w₀ w : World) (a : Address) : Prop :=
  ∃ n l o, a.connectorName = some n ∧ Wrote w₀ w n l ∧ o ∈ l ∧ IsReceipt m o a

/-- What has become of a letter.  Where the user is at one of the addresses, the letter is not stored,
and it has got to all sockets of the user, or to one and to no other; where not, it is stored once, and
the entry of the user is gone. -/
structure Outcome (D : Domain) (m : Message) (u : String) (w₀ w : World) : Prop where
  live : (∃ a ∈ addressesOf w₀.processor.channels u, isLive w₀.connectors u a = true) →
    w.processor.messages = w₀.processor.messages ∧
    ((sent D.env m).deliveryType = some .ALL →
      ∀ a ∈ addressesOf w₀.processor.channels u, isLive w₀.connectors u a = true → Got m w₀ w a) ∧
    ((sent D.env m).deliveryType ≠ some .ALL →
      ∃ a ∈ addressesOf w₀.processor.channels u, isLive w₀.connectors u a = true ∧ ∃ o,
        IsReceipt m o a ∧ ∀ n, Wrote w₀ w n (if a.connectorName = some n then [o] else []))
  stale : (∀ a ∈ addressesOf w₀.processor.channels u, isLive w₀.connectors u a = false) →
    (∃ r, IsRecord m r ∧ w.processor.messages = w₀.processor.messages ++ [r]) ∧
    w.processor.channels u = none ∧ ∀ n, Wrote w₀ w n []

theorem outcome_of_corresponds (hset : Setting D m u c w₀)
    (hfresh : ∀ r ∈ w₀.processor.messages, r.id ≠ m.id) {pick : ℕ}
    (hreach : (retry D m u w₀).system.Reaches (fun _ _ => True)
      ((retry D m u w₀).start (addressesOf w₀.processor.channels u) pick) s)
    (h : Corresponds D m u w₀ w s) (hquiet : Quiet w) : Outcome D m u w₀ w := by
  obtain ⟨hcopies, hlost⟩ := nothing_of_quiet h hquiet
  obtain ⟨hlive, hstale⟩ := Retry.settled hreach hcopies hlost
  constructor
  · intro hsome
    obtain ⟨hstored, hall, hone⟩ := hlive hsome
    refine ⟨h.unstored hstored, fun hd a ha hliv => ?_, fun hd => ?_⟩
    · have hmem := hall (by simpa [retry] using hd) a ha hliv
      obtain ⟨n, hn, -⟩ := (hset.addresses a ha).running
      obtain ⟨l, hl, hreceipts⟩ := h.written n
      have hfilter : a ∈ s.received.filter fun a => a.connectorName = some n :=
        List.mem_filter.2 ⟨hmem, by simpa using hn⟩
      obtain ⟨k, hk⟩ := List.getElem?_of_mem hfilter
      obtain ⟨o, ho, hreceipt⟩ := forall₂_getElem? hreceipts.flip hk
      exact ⟨n, l, o, hn, hl, List.mem_of_getElem? ho, hreceipt⟩
    · obtain ⟨a, ha, hliv, hreceived⟩ := hone (by simpa [retry] using hd)
      obtain ⟨n, hn, -⟩ := (hset.addresses a ha).running
      have hwritten := h.written
      rw [hreceived] at hwritten
      obtain ⟨l, hl, hreceipts⟩ := hwritten n
      rw [List.filter_cons_of_pos (by simpa using hn), List.filter_nil] at hreceipts
      obtain ⟨o, l', hreceipt, htail, rfl⟩ := List.forall₂_cons_right_iff.1 hreceipts
      cases htail
      refine ⟨a, ha, hliv, o, hreceipt, fun n' => ?_⟩
      by_cases hn' : a.connectorName = some n'
      · obtain rfl : n = n' := Option.some.inj (hn.symm.trans hn')
        rw [if_pos hn']
        exact hl
      · obtain ⟨l'', hl'', hnone⟩ := hwritten n'
        rw [List.filter_cons_of_neg (by simpa using hn'), List.filter_nil] at hnone
        cases hnone
        rw [if_neg hn']
        exact hl''
  · intro hnone
    obtain ⟨hstored, hregistry, hreceived⟩ := hstale hnone
    obtain ⟨r, hr, hmessages⟩ := h.stored hstored
    refine ⟨⟨r, hr, ?_⟩, ?_, fun n => ?_⟩
    · rw [hmessages]
      exact MessageRepository.upsert_of_fresh fun r' hr' => hr.id.symm ▸ hfresh r' hr'
    · have hentry := h.entry
      have hempty := h.registry
      rw [hregistry, addressesOf] at hempty
      cases hchannels : w.processor.channels u with
      | none => rfl
      | some l =>
        rw [hchannels] at hempty hentry
        exact absurd (congrArg some hempty) hentry
    · obtain ⟨l, hl, hreceipts⟩ := h.written n
      rw [hreceived, List.filter_nil] at hreceipts
      cases hreceipts
      exact hl

/-- Whatever step of the cycle can be made can be made with a producer that takes every record and
sockets that are written. -/
theorem quiet_of_smooth_stuck (h : ∀ e w', Smooth w e → D.system.step w e ≠ some w') : Quiet w := by
  refine quiet_of_stuck (D := D) fun e w' hok hst => ?_
  cases e with
  | handOut k futures =>
    obtain ⟨p, x, hp, hx, -⟩ := Domain.step_handOut hst
    have hstep : D.step w (.handOut k []) ≠ none := by
      simp only [Domain.step, hp, hx, Option.bind_eq_bind, Option.bind_some, Option.pure_def, ne_eq,
        reduceCtorEq, not_false_eq_true]
    obtain ⟨w'', hw''⟩ := Option.ne_none_iff_exists'.1 hstep
    exact h (.handOut k []) w'' rfl hw''
  | dispatch k d =>
    obtain ⟨r, hr, -⟩ := Domain.step_dispatch hst
    have hstep : D.step w (.dispatch k {}) ≠ none := by
      simp only [Domain.step, hr, Option.bind_eq_bind, Option.bind_some, Option.pure_def, ne_eq,
        reduceCtorEq, not_false_eq_true]
    obtain ⟨w'', hw''⟩ := Option.ne_none_iff_exists'.1 hstep
    exact h (.dispatch k {}) w'' ⟨hok, rfl⟩ hw''
  | _ => exact hok.elim

/-- **What becomes of a letter.**  Every run is finite and goes on until nothing of the letter is in
flight, and then the letter has got to the sockets of the user or into the store. -/
theorem comesTo (hset : Setting D m u c w₀) (hfresh : ∀ r ∈ w₀.processor.messages, r.id ≠ m.id)
    {d : Draws} (hd : d.refused = []) :
    ∃ n, ∀ l w, D.system.Path Smooth (delivered D m w₀ d) l w → l.length ≤ n ∧
      (∃ l' w', D.system.Path Smooth (delivered D m w₀ d) (l ++ l') w' ∧ Quiet w') ∧
      (Quiet w → Outcome D m u w₀ w) := by
  obtain ⟨n, hn⟩ := ends_of_not_connector hset.letter.isSentTo hset.user hset.calm
    (fun h => by cases hset.letter.type.symm.trans h) d
  have hbound : ∀ l w, D.system.Path Smooth (delivered D m w₀ d) l w → l.length ≤ n :=
    fun l w hpath => (hn l w (hpath.mono fun _ _ => cycle_of_smooth)).1
  refine ⟨n, fun l w hpath => ⟨hbound l w hpath, ?_, fun hquiet => ?_⟩⟩
  · obtain ⟨l', w', hpath', hstuck⟩ := System.Path.exists_stuck hbound hpath
    exact ⟨l', w', hpath', quiet_of_smooth_stuck hstuck⟩
  · obtain ⟨s, hs, hcorresponds⟩ := exists_corresponds hset hd hpath.reaches
    exact outcome_of_corresponds hset hfresh hs hcorresponds hquiet

/-! ### How often -/

omit [JavaChar] in
theorem map_socketId {l : List Connector.Output} {l' : List Address}
    (h : List.Forall₂ (IsReceipt m) l l') :
    l'.map (·.socketId) = (l.map (·.socketId)).map some := by
  induction h with
  | nil => rfl
  | cons hreceipt _ ih => rw [List.map_cons, ih, hreceipt.socketId, List.map_cons, List.map_cons]

omit [JavaChar] in
theorem eq_of_wrote {n : String} {l l' : List Connector.Output} (h : Wrote w₀ w n l)
    (h' : Wrote w₀ w n l') : l = l' :=
  List.append_cancel_left (h.symm.trans h')

/-- Each socket has got the letter at most once if each address has. -/
theorem nodup_socketId_iff (hset : Setting D m u c w₀) {pick : ℕ}
    (hreach : (retry D m u w₀).system.Reaches (fun _ _ => True)
      ((retry D m u w₀).start (addressesOf w₀.processor.channels u) pick) s)
    (h : Corresponds D m u w₀ w s) :
    (∀ n k, Wrote w₀ w n k → (k.map (·.socketId)).Nodup) ↔ s.received.Nodup := by
  have hreceived := (Retry.sound_of_reaches hreach).received
  constructor
  · intro hk
    rw [List.nodup_iff_count_le_one]
    intro a
    by_cases ha : a ∈ s.received
    · obtain ⟨n, hn, -⟩ := (hset.addresses a (hreceived a ha).1).running
      obtain ⟨l, hl, hreceipts⟩ := h.written n
      have hnodup : (s.received.filter fun a => a.connectorName = some n).Nodup := by
        refine List.Nodup.of_map (fun a : Address => a.socketId) ?_
        rw [map_socketId hreceipts]
        exact (hk n l hl).map (Option.some_injective _)
      rw [← List.count_filter (p := fun a => a.connectorName = some n) (by simpa using hn)]
      exact List.nodup_iff_count_le_one.1 hnodup a
    · rw [List.count_eq_zero_of_not_mem ha]
      exact Nat.zero_le 1
  · intro hnodup n k hk
    obtain ⟨l, hl, hreceipts⟩ := h.written n
    rw [eq_of_wrote hk hl]
    refine List.Nodup.of_map some ?_
    rw [← map_socketId hreceipts]
    refine List.Nodup.map_on (fun a ha b hb hab => ?_) (hnodup.filter _)
    obtain ⟨ha, hna⟩ := List.mem_filter.1 ha
    obtain ⟨hb, hnb⟩ := List.mem_filter.1 hb
    have hda := (hset.addresses a (hreceived a ha).1).domainName
    have hdb := (hset.addresses b (hreceived b hb).1).domainName
    cases a
    cases b
    simp only [decide_eq_true_eq] at hna hnb
    simp_all

/-- **At most once to each socket**, in whatever order copies and reports are consumed, exactly if the
letter is sent to one address at a time, or no address is stale, or none is live. -/
theorem once_iff (hset : Setting D m u c w₀) (hnodup : (addressesOf w₀.processor.channels u).Nodup) :
    (∀ d w, d.refused = [] → D.system.Reaches Smooth (delivered D m w₀ d) w →
      ∀ n k, Wrote w₀ w n k → (k.map (·.socketId)).Nodup) ↔
    (sent D.env m).deliveryType ≠ some .ALL ∨
      (∀ a ∈ addressesOf w₀.processor.channels u, isLive w₀.connectors u a = true) ∨
      ∀ a ∈ addressesOf w₀.processor.channels u, isLive w₀.connectors u a = false := by
  have hiff := Retry.atMostOnce_iff (R := retry D m u w₀) hnodup
  have hall : (retry D m u w₀).toAll = false ↔ (sent D.env m).deliveryType ≠ some .ALL := by
    simp [retry]
  rw [hall] at hiff
  refine Iff.trans ⟨fun h pick s hs => ?_, fun h d w hd hw => ?_⟩ hiff
  · obtain ⟨w, hw, hcorresponds⟩ := exists_reaches hset hs
    exact (nodup_socketId_iff hset hs hcorresponds).1 (h _ w rfl hw)
  · obtain ⟨s, hs, hcorresponds⟩ := exists_corresponds hset hd hw
    exact (nodup_socketId_iff hset hs hcorresponds).2 (h _ s hs)

end

/-! ### A letter to a socket that is there and one that is gone -/

section

attribute [local instance] JavaChar.ascii

namespace SampleOutcome

open Sample (domain connectorName)

def here : Address := ⟨some "domain-01", some connectorName, some 1⟩

def gone : Address := ⟨some "domain-01", some connectorName, some 2⟩

/-- A connector with one socket of the user. -/
def connector : Connector.State where
  counter := 2
  sockets i := if i = 1 then some { userId := some "APP-6", authStatus := .AUTHENTICATED } else none
  users u := if u = "APP-6" then some [1] else none

/-- Both addresses are registered. -/
def world : World where
  processor := { channels := fun u => if u = "APP-6" then some [here, gone] else none }
  connectors n := if n = connectorName then some connector else none

/-- A letter to all sockets of the user. -/
def letter : Message :=
  { SampleLetter.letter "APP-6" with meta_ := some { deliveryType := some .ALL } }

theorem connectors_world {n : String} {s : Connector.State} (h : world.connectors n = some s) :
    s = connector := by
  simp only [world] at h
  split_ifs at h
  exact (Option.some.inj h).symm

theorem setting_world : Setting domain letter "APP-6" SampleLetter.content world where
  letter := ⟨rfl, rfl, rfl, rfl, ⟨_, rfl⟩, ⟨_, rfl⟩, by decide +kernel⟩
  calm := ⟨rfl, rfl, fun n s h => by rw [connectors_world h]; rfl⟩
  nonblank := by decide +kernel
  user := by decide +kernel
  addresses a ha := by
    rcases (by simpa [world, addressesOf] using ha : a = here ∨ a = gone) with rfl | rfl
    · exact ⟨rfl, connectorName, rfl, fun hnone => by cases hnone⟩
    · exact ⟨rfl, connectorName, rfl, fun hnone => by cases hnone⟩
  entry hsome := by cases hsome
  sockets n s i h hi := by
    rw [connectors_world h] at hi ⊢
    obtain rfl : i = 1 := by simpa [connector] using hi
    rfl

end SampleOutcome

open SampleOutcome Sample

/-- The letter gets to the socket. -/
theorem comesTo_world : ∃ n, ∀ l w, domain.system.Path Smooth (delivered domain letter world {}) l w →
    l.length ≤ n ∧
      (∃ l' w', domain.system.Path Smooth (delivered domain letter world {}) (l ++ l') w' ∧ Quiet w') ∧
      (Quiet w → Outcome domain letter "APP-6" world w) :=
  comesTo setting_world (fun _ hr => by cases hr) rfl

/-- In some order it gets to the socket twice. -/
theorem once_iff_world : ¬ ∀ d w, d.refused = [] →
    domain.system.Reaches Smooth (delivered domain letter world d) w →
      ∀ n k, Wrote world w n k → (k.map (·.socketId)).Nodup := by
  have hall : (sent domain.env letter).deliveryType = some .ALL := by decide +kernel
  have hnodup : (addressesOf world.processor.channels "APP-6").Nodup := by decide +kernel
  have hlive : isLive world.connectors "APP-6" here = true := by decide +kernel
  have hstale : isLive world.connectors "APP-6" gone = false := by decide +kernel
  rw [once_iff setting_world hnodup]
  rintro (h | h | h)
  · exact h hall
  · rw [h gone (List.mem_cons_of_mem _ (List.mem_singleton_self _))] at hstale
    cases hstale
  · rw [h here List.mem_cons_self] at hlive
    cases hlive

end

end Recovery

end Linker
