import Linker.Connector.Identity

/-!
# Sessions

A socket is open until it closes, and stays with the user as whom it has been authenticated.  What a
connector tells the processors of a user that has connected comes from a socket that is authenticated,
and a `CLOSE_CONNECTION` closes such a socket only.

## Main results

* `lasts_change` : no event ends a session in another way than that its socket closes.
* `announces_change` : what a connector publishes.
* `closesOne_onMessageArrived` : what a close command closes.
-/

namespace Linker.Connector

open Exec

namespace Ledger

/-- What has been authenticated stays so, and what is closed stays closed. -/
def Lasts (s s' : Ledger) : Prop :=
  ∀ i k, s.sockets i = some k → k.authStatus = .AUTHENTICATED →
    ∃ k', s'.sockets i = some k' ∧ k'.authStatus = .AUTHENTICATED ∧ k'.userId = k.userId ∧
      (k'.isOpen = true → k.isOpen = true)

instance : IsPreorder Ledger Lasts where
  refl _ _ k hk hst := ⟨k, hk, hst, rfl, id⟩
  trans s₁ s₂ s₃ h h' i k hk hst := by
    obtain ⟨k₂, hk₂, hst₂, hu₂, hopen₂⟩ := h i k hk hst
    obtain ⟨k₃, hk₃, hst₃, hu₃, hopen₃⟩ := h' i k₂ hk₂ hst₂
    exact ⟨k₃, hk₃, hst₃, hu₃.trans hu₂, fun ho => hopen₂ (hopen₃ ho)⟩

variable [JavaChar] {C : Config} {s s' : Ledger} {e : Event}

omit [JavaChar] in
theorem isOpen_alter {i j : ℤ} {f : Socket → Socket} {k k' : Socket}
    (hf : ∀ k, (f k).isOpen = true → k.isOpen = true) (hk : s.sockets j = some k)
    (hk' : (s.alter i f).sockets j = some k') : k'.isOpen = true → k.isOpen = true := by
  by_cases hj : j = i
  · subst hj
    cases (alter_self hk).symm.trans hk'
    exact hf k
  · cases ((alter_of_ne hj).trans hk).symm.trans hk'
    exact id

/-- No socket opens again. -/
theorem isOpen_change (h : s.Consistent) (hc : Change C s e s') {j : ℤ} {k k' : Socket}
    (hk : s.sockets j = some k) (hk' : s'.sockets j = some k') : k'.isOpen = true → k.isOpen = true := by
  have hsame : s.sockets j = some k' → k'.isOpen = true → k.isOpen = true := fun h => by
    cases hk.symm.trans h
    exact id
  cases hc with
  | connect =>
    have hj : j ≠ s.counter + 1 := by
      rintro rfl
      cases (h.fresh _ (by omega)).symm.trans hk
    exact hsame ((if_neg hj).symm.trans hk')
  | ignored => exact hsame hk'
  | forwarded => exact hsame hk'
  | reported => exact hsame hk'
  | left => exact hsame hk'
  | closed => exact isOpen_alter (fun _ h => by cases h) hk hk'
  | departed => exact isOpen_alter (fun _ h => by cases h) hk hk'
  | asked => exact isOpen_alter (f := asking _) (fun _ h => h) hk hk'
  | nameless => exact isOpen_alter (f := asking _) (fun _ h => h) hk hk'
  | @replied m fs u i b l n =>
    cases b with
    | none => exact hsame hk'
    | some ok =>
      cases ok with
      | true =>
        exact isOpen_alter (f := fun k => { k with authStatus := .AUTHENTICATED }) (fun _ h => h) hk hk'
      | false =>
        exact isOpen_alter (f := fun k => { k with authStatus := .NOT_AUTHENTICATED }) (fun _ h => h)
          hk hk'

/-- **Sessions last** through every event. -/
theorem lasts_change (h : s.Consistent) (hc : Change C s e s') : s.Lasts s' := by
  intro i k hk hst
  rcases login_change h hc i with hlogin | ⟨hnone, -⟩ | ⟨k₁, u, hk₁, hst₁, -⟩ | ⟨k₁, u, hdec, -⟩ |
    ⟨k₁, u, hdec, -⟩
  · rw [hk, Option.map_some] at hlogin
    obtain ⟨k', hk', heq⟩ := Option.map_eq_some_iff.1 hlogin
    obtain ⟨huser, hstatus⟩ := Prod.mk.inj heq
    exact ⟨k', hk', hstatus.trans hst, huser, isOpen_change h hc hk hk'⟩
  · cases hnone.symm.trans hk
  · cases hk.symm.trans hk₁
    cases hst.symm.trans hst₁
  · cases hk.symm.trans hdec.socket
    cases hst.symm.trans hdec.authStatus
  · cases hk.symm.trans hdec.socket
    cases hst.symm.trans hdec.authStatus

/-- The ids of sockets are positive: the address of a connector has the id of none. -/
structure Numbered (s : Ledger) : Prop where
  counter : 0 ≤ s.counter
  sockets : ∀ i ≤ 0, s.sockets i = none

theorem numbered_change (h : s.Numbered) (hc : Change C s e s') : s'.Numbered := by
  have halter : ∀ i f j, j ≤ 0 → (s.alter i f).sockets j = none := fun i f j hj =>
    alter_none (h.sockets j hj)
  cases hc with
  | connect =>
    have hcounter := h.counter
    refine ⟨show 0 ≤ s.counter + 1 by omega, fun j hj => ?_⟩
    have hne : j ≠ s.counter + 1 := by omega
    exact (if_neg hne).trans (h.sockets j hj)
  | ignored => exact h
  | forwarded => exact ⟨h.counter, h.sockets⟩
  | reported => exact ⟨h.counter, h.sockets⟩
  | left => exact ⟨h.counter, h.sockets⟩
  | closed => exact ⟨h.counter, halter _ _⟩
  | departed => exact ⟨h.counter, halter _ _⟩
  | asked => exact ⟨h.counter, halter _ _⟩
  | nameless => exact ⟨h.counter, halter _ _⟩
  | @replied m fs u i b l n =>
    cases b with
    | none => exact ⟨h.counter, h.sockets⟩
    | some ok =>
      cases ok with
      | true => exact ⟨h.counter, halter i fun k => { k with authStatus := .AUTHENTICATED }⟩
      | false => exact ⟨h.counter, halter i fun k => { k with authStatus := .NOT_AUTHENTICATED }⟩

/-- What is published in an event: who has connected is at a socket that is authenticated, and only what
a client sends can be a request or a wrapper. -/
structure Announces (C : Config) (e : Event) (s : Ledger) (r : Message) : Prop where
  connected : r.type = some .USER_CONNECTED → r.to_ ≠ none → ∃ i k,
    r.originalAddress = some (C.address i) ∧ s.sockets i = some k ∧ k.authStatus = .AUTHENTICATED
  request : r.type = some .FETCH_MISSING_MESSAGES_REQUEST → r.to_ = none
  wrapper : r.type = some .INTERNAL_MESSAGE →
    ∃ i content fs, e = .receive i content fs ∧ content.type = some .INTERNAL_MESSAGE

omit [JavaChar] in
theorem announces_of_type {r : Message} (ty : MessageType) (ht : r.type = some ty)
    (hne : ty ∉ [.USER_CONNECTED, .FETCH_MISSING_MESSAGES_REQUEST, .INTERNAL_MESSAGE]) :
    Announces C e s r := by
  simp only [List.mem_cons, List.not_mem_nil, or_false, not_or] at hne
  have hinj : ∀ ty', r.type = some ty' → ty = ty' := fun _ h => Option.some.inj (ht.symm.trans h)
  exact ⟨fun h => absurd (hinj _ h) hne.1, fun h => absurd (hinj _ h) hne.2.1,
    fun h => absurd (hinj _ h) hne.2.2⟩

omit [JavaChar] in
/-- What a client sends has no recipient. -/
theorem announces_clientMessage {i j : ℤ} {k : Socket} {content : MessageContent} {fs : List Bool}
    {b : Message} (hb : b.to_ = none) :
    Announces C (.receive i content fs) s (clientMessage C b j k content) :=
  ⟨fun _ h => absurd hb h, fun _ => hb, fun ht => ⟨i, content, fs, rfl, ht⟩⟩

omit [JavaChar] in
theorem mem_posted {m r : Message} (h : r ∈ posted m) : r = m := by
  rw [posted] at h
  split_ifs at h
  · cases h
  · exact List.mem_singleton.1 h

/-- **What is published.** -/
theorem announces_change (h : s.Consistent) (hc : Change C s e s') :
    ∃ l, s'.published = s.published ++ l ∧ ∀ r ∈ l, Announces C e s' r := by
  have hnone : s.published = s.published ++ [] := (List.append_nil _).symm
  have hnil : ∀ r ∈ ([] : List Message), Announces C e s' r := fun _ hr => absurd hr List.not_mem_nil
  cases hc with
  | connect => exact ⟨[], hnone, hnil⟩
  | ignored => exact ⟨[], hnone, hnil⟩
  | closed => exact ⟨[], hnone, hnil⟩
  | nameless => exact ⟨[], hnone, hnil⟩
  | @asked i k content fs d u n _ ht =>
    refine ⟨_, rfl, fun r hr => ?_⟩
    cases List.mem_singleton.1 hr
    refine announces_of_type .AUTH_CLIENT ?_ (by decide)
    simpa [MessageOf.type, AuthClientMessageProcessor.request, MessageOf.updateContent,
      MessageOf.updateMeta, clientMessage] using ht
  | left n =>
    refine ⟨_, rfl, fun r hr => ?_⟩
    rw [mem_posted hr]
    exact announces_clientMessage rfl
  | forwarded n =>
    refine ⟨_, rfl, fun r hr => ?_⟩
    rw [mem_posted hr]
    exact announces_clientMessage rfl
  | departed n =>
    refine ⟨_, rfl, fun r hr => ?_⟩
    cases List.mem_singleton.1 hr
    exact announces_of_type .USER_DISCONNECTED rfl (by decide)
  | reported hl =>
    exact ⟨_, rfl, fun r hr => announces_of_type .MESSAGE_STATE_CHANGED (hl r hr) (by decide)⟩
  | @replied m fs u i b l n hrep hmem hl =>
    have hreports : ∀ r ∈ l, ∀ t, Announces C (.handOut m fs) t r := fun r hr t =>
      announces_of_type .MESSAGE_STATE_CHANGED (hl r hr) (by decide)
    cases b with
    | none => exact ⟨l, rfl, fun r hr => hreports r hr _⟩
    | some ok =>
      cases ok with
      | false => exact ⟨l, rfl, fun r hr => hreports r hr _⟩
      | true =>
        -- the socket that has waited for the reply is authenticated with it
        obtain ⟨k, hk, -, -⟩ := h.pending u i hmem
        refine ⟨_, List.append_assoc _ _ _, fun r hr => ?_⟩
        rcases List.mem_append.1 hr with hr | hr
        · rw [mem_posted hr]
          refine ⟨fun _ _ => ⟨i, { k with authStatus := .AUTHENTICATED }, rfl, ?_, rfl⟩,
            fun ht => ?_, fun ht => ?_⟩
          · exact alter_self (s := (s.removePending u i).addUser u i) hk
          · cases ht
          · cases ht
        · exact hreports r hr _

end Ledger

/-! ### Close commands -/

section

variable [JavaChar] {C : Config} {m : Message}

/-- The socket that a close command closes is one of its user's. -/
structure Closes (m : Message) (s : State) (i : ℤ) : Prop where
  user : ∃ u, m.to_ = some u ∧ i ∈ (s.users u).getD []
  address : ∃ a, m.targetAddress = some a ∧ a.socketId = some i

/-- The command has closed a socket of its user, or none. -/
def ClosesOne (m : Message) (s s' : State) : Prop :=
  s'.closing = s.closing ∨ ∃ i, s'.closing = s.closing ++ [i] ∧ Closes m s i

omit [JavaChar] in
theorem keeps_closesOne {s₀ : State} {f : State → State} (h : ∀ s, (f s).closing = s.closing) :
    Keeps (ClosesOne m s₀) (modify f : Conn Unit) fun _ => True :=
  .modify (fun s hs => by rw [ClosesOne, h]; exact hs) trivial

omit [JavaChar] in
theorem triple_closeConnection (s₀ : State) :
    Triple (· = s₀) (CloseConnectionMessageProcessor.process m) (fun _ => ClosesOne m s₀)
      (ClosesOne m s₀) := by
  have hfirst : ∀ s, s = s₀ → ClosesOne m s₀ s := by
    rintro s rfl
    exact .inl rfl
  refine .bind_keeps (keeps_getData _ _) (fun _ _ => ?_) hfirst
  refine .bind_keeps (keeps_orNullPointer _) (fun t ht => ?_) hfirst
  refine .bind_keeps (keeps_orNullPointer _) (fun a ha => ?_) hfirst
  have htarget : m.targetAddress = some a := by rw [MessageOf.targetAddress, ht]; exact ha
  refine .bind (Q := fun handler s => s = s₀ ∧ ∀ i, handler = some i → Closes m s₀ i) ?_
    fun handler => ?_
  · refine .bind_keeps (keeps_orNullPointer _) (fun u hu => ?_) hfirst
    refine .read fun s hs => ⟨hs, fun i hi => ?_⟩
    rw [hs] at hi
    obtain ⟨hid, hmem⟩ := UserMap.getUser_eq_some hi
    exact ⟨⟨u, hu, hmem⟩, a, htarget, hid⟩
  · cases handler with
    | none => exact .of_run fun s hs => hfirst s hs.1
    | some i =>
      refine .modify fun s hs => .inr ⟨i, ?_, hs.2 i rfl⟩
      rw [hs.1]

/-- **What a close command closes.** -/
theorem closesOne_onMessageArrived (ht : m.type = some .CLOSE_CONNECTION) (futures : List Bool)
    (s : State) :
    ClosesOne m s ((withFutures futures (PostOffice.onMessageArrived C m)).run s).2 := by
  obtain ⟨c, hc, hct⟩ := Option.bind_eq_some_iff.1 ht
  rw [withFutures, run_modify_bind]
  have hproc : Triple (· = s.expecting futures) (processOutgoingMessage C m)
      (fun _ => ClosesOne m (s.expecting futures)) (ClosesOne m (s.expecting futures)) := by
    refine .of_run fun s₁ hs₁ => ?_
    have hget : (getContent m).run s₁ = (.ok c, s₁) := by
      rw [getContent, hc]
      rfl
    rw [processOutgoingMessage, processOutgoingWith, run_bind_ok hget, hct]
    exact (triple_closeConnection (s.expecting futures)).run hs₁
  have herr : ∀ e : JavaException, Keeps (ClosesOne m (s.expecting futures)) (do
      let c ← getContent m
      if c.feature = some .RELIABLE then
        PostOffice.deliverStateChangedMessage C m .CONNECTOR_ERROR : Conn Unit) fun _ => True := by
    intro _
    have hbuilder : Keeps (ClosesOne m (s.expecting futures)) (builder C) fun _ => True :=
      (Keeps.read (Q := fun _ => True) fun _ _ => trivial).bind fun _ _ =>
        (keeps_closesOne fun _ => rfl).bind fun _ _ => .pure trivial
    refine (keeps_orNullPointer _).bind fun _ _ => .ite (fun _ => ?_) fun _ => .pure trivial
    refine hbuilder.bind fun _ _ => (keeps_orNullPointer _).bind fun c _ => ?_
    split
    · exact .fail
    · exact keeps_closesOne fun _ => rfl
  have harrived : Triple (· = s.expecting futures) (PostOffice.onMessageArrived C m)
      (fun _ => ClosesOne m (s.expecting futures)) (ClosesOne m (s.expecting futures)) :=
    hproc.recoverIf (fun e => Triple.of_keeps (herr e) fun _ h => h) fun _ h => h
  rcases harrived.run (s := s.expecting futures) rfl with h | ⟨i, h, hi⟩
  · exact .inl h
  · exact .inr ⟨i, h, hi.user, hi.address⟩

end

end Linker.Connector
