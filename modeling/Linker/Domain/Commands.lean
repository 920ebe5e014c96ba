import Linker.Connector.Sessions
import Linker.Domain.Receipts

/-!
# Close commands

A `CLOSE_CONNECTION` of a master user goes to the addresses of its user in the registry, and closes the
sockets there.  Where there is no address, or the producer refuses the record, the command is stored,
and the next request of the user for missing messages gets it.

## Main results

* `Processor.registryRules` : the addresses in the registry through every handler of a processor.
* `Domain.closed_of_path` : where no request gets a stored command, what is closed was open when the
  command was handled.
* `Domain.closed_later` : a command that was stored closes the connection that its user opens next.
-/

namespace Linker

namespace Processor

open ProcessorUtils ClientAppService

section

variable [JavaChar] {E : Environment} {A : Address → Prop}

/-- The policy that has only such addresses in the registry. -/
def registryPolicy (A : Address → Prop) : Policy where
  accepts := MessageOf.Carries (fun m => m.type = some .USER_CONNECTED → m.to_ ≠ none →
    ∀ a, m.originalAddress = some a → A a) fun _ _ => True
  delivers _ := True
  mails _ := True
  keeps _ := True
  calls _ := True
  registers := A

omit [JavaChar] in
theorem accepts_of_ne {m : Message} (ht : m.type ≠ some .INTERNAL_MESSAGE)
    (hne : m.type ≠ some .USER_CONNECTED) : (registryPolicy A).accepts m :=
  MessageOf.carries_of_self (fun h => absurd h hne) ht fun _ _ _ _ => trivial

/-- **The addresses in the registry** through every handler of a processor. -/
theorem registryRules : Rules E (registryPolicy A) where
  mails_congr _ _ := trivial
  keeps_congr _ _ _ := trivial
  undelivered _ _ _ := trivial
  inside _ _ := trivial
  outside _ _ _ _ _ _ _ := trivial
  touch {m} hm := hm.congr rfl rfl fun hp ht hto a ha => hp ht hto a <| by
    simp only [MessageOf.originalAddress, MessageOf.touch, MessageOf.updateMeta_meta] at ha ⊢
    cases hmeta : m.meta_ with
    | none => rw [hmeta] at ha; exact ha
    | some t => rw [hmeta] at ha; exact ha
  cross {m p c k} hm hp _ _ := by
    refine (MessageOf.carries_internal rfl rfl).2 ?_
    cases hp with
    | message ht _ => exact accepts_of_ne (A := A) (by simp [ht]) (by simp [ht])
    | close ht _ => exact accepts_of_ne (A := A) (by simp [ht]) (by simp [ht])
    | other => exact hm
  message _ _ _ _ _ := trivial
  confirmation _ _ _ := trivial
  close _ _ _ _ _ _ := trivial
  auth _ _ _ _ _ _ := trivial
  call _ _ _ _ := trivial
  groupConnector _ _ _ _ _ _ _ := trivial
  groupUser _ _ _ _ _ _ := accepts_of_ne (A := A) (fun h => by cases h) fun h => by cases h
  groupOther _ _ _ _ _ _ := accepts_of_ne (A := A) (fun h => by cases h) fun h => by cases h
  presence _ _ _ _ := trivial
  register {m a} hm ht _ hproc ha := by
    refine (MessageOf.carries_plain (by simp [ht]) (by simp [ht])).1 hm ht (fun hnone => ?_) a ha
    rw [isProcessorMessage, hnone] at hproc
    cases hproc
  master {m u app} hm ht hproc _ _ := by
    rcases ht with ⟨ht, -⟩ | ⟨ht, -⟩
    · refine (MessageOf.carries_plain (by simp [ht]) (by simp [ht])).2 fun _ _ => ?_
      refine (MessageOf.carries_plain (by simp [ht]) (by simp [ht])).1 hm ht fun hnone => ?_
      rw [isProcessorMessage, hnone] at hproc
      cases hproc
    · exact accepts_of_ne (A := A) (by simp [ht]) (by simp [ht])
  fetch _ _ _ := trivial
  complete _ _ _ _ := trivial
  lost _ _ _ := trivial
  changed _ _ _ _ _ _ := trivial
  confirm _ _ _ _ := accepts_of_ne (A := A) (fun h => by cases h) fun h => by cases h
  unwrap hm ht hd := (MessageOf.carries_internal ht hd).1 hm
  route _ _ _ := trivial
  routeInner _ _ _ _ _ := trivial

end

end Processor

/-! ### Sessions of a domain -/

namespace World

/-- The address of a socket that has been authenticated. -/
def IsSession (w : World) (a : Address) : Prop :=
  ∃ c i s k, a.connectorName = some c ∧ a.socketId = some i ∧ w.connectors c = some s ∧
    s.sockets i = some k ∧ k.authStatus = .AUTHENTICATED

/-- Sessions last at every connector. -/
def Lasts (w w' : World) : Prop :=
  ∀ c s, w.connectors c = some s → ∃ s', w'.connectors c = some s' ∧ s.ledger.Lasts s'.ledger

variable {w w' : World}

instance : IsPreorder World Lasts where
  refl _ _ s hs := ⟨s, hs, refl_of Connector.Ledger.Lasts s.ledger⟩
  trans _ _ _ h h' c s hs := by
    obtain ⟨s₂, hs₂, hlast⟩ := h c s hs
    obtain ⟨s₃, hs₃, hlast'⟩ := h' c s₂ hs₂
    exact ⟨s₃, hs₃, trans_of Connector.Ledger.Lasts hlast hlast'⟩

theorem IsSession.mono (h : w.Lasts w') {a : Address} (ha : w.IsSession a) : w'.IsSession a := by
  obtain ⟨c, i, s, k, hc, hi, hs, hk, hst⟩ := ha
  obtain ⟨s', hs', hlast⟩ := h c s hs
  obtain ⟨k', hk', hst', -⟩ := hlast i k hk hst
  exact ⟨c, i, s', k', hc, hi, hs', hk', hst'⟩

end World

namespace Domain

open Processor (Parcel registryPolicy registryRules)

variable [JavaChar] {D : Domain} {w w' : World}

/-- Only who has been authenticated is in the registry, or on the way to it. -/
structure Settled (D : Domain) (w : World) : Prop where
  vouched : Vouched w
  consistent : ∀ c s, w.connectors c = some s → s.ledger.Consistent
  numbered : ∀ c s, w.connectors c = some s → s.ledger.Numbered
  connected : ∀ r ∈ w.incoming, r.type = some .USER_CONNECTED → r.to_ ≠ none →
    ∀ a, r.originalAddress = some a → w.IsSession a
  request : ∀ r ∈ w.incoming, r.type = some .FETCH_MISSING_MESSAGES_REQUEST → r.to_ = none
  wrapper : ∀ r ∈ w.incoming, r.type ≠ some .INTERNAL_MESSAGE
  processor : Processor.Meets D.env (registryPolicy w.IsSession) w.processor

theorem settled_initial (h : Initial w) : Settled D w where
  vouched := vouched_initial h
  consistent c s hs := by
    rw [h.connectors c s hs]
    exact Connector.consistent_initial ⟨fun _ => rfl, fun _ => rfl, fun _ => rfl, rfl⟩
  numbered c s hs := by
    rw [h.connectors c s hs]
    exact ⟨le_refl (0 : ℤ), fun _ _ => rfl⟩
  connected r hr := by
    rw [h.incoming] at hr
    cases hr
  request r hr := by
    rw [h.incoming] at hr
    cases hr
  wrapper r hr := by
    rw [h.incoming] at hr
    cases hr
  processor := h.processor ▸ Processor.meets_initial _

omit [JavaChar] in
theorem lasts_of_eq (h : w'.connectors = w.connectors) : w.Lasts w' :=
  fun c s hs => ⟨s, (congrFun h c).trans hs, refl_of Connector.Ledger.Lasts s.ledger⟩

/-- A computation of a connector that changes its ledger as the event `e` does. -/
theorem Settled.atConnector (hw : Settled D w) {c : String} {s : Connector.State}
    (hs : w.connectors c = some s) {x : Connector.Conn Unit} {e : Connector.Event}
    (hx : Connector.Change (D.config c) s.ledger e (x.run s).2.ledger)
    (he : ∀ i content fs, e = .receive i content fs → content.type ≠ some .INTERNAL_MESSAGE)
    (hv : Vouched (w.atConnector c s x)) :
    Settled D (w.atConnector c s x) ∧ w.Lasts (w.atConnector c s x) := by
  have hself : (w.atConnector c s x).connectors c = some { (x.run s).2 with published := [] } :=
    if_pos rfl
  have hlast : w.Lasts (w.atConnector c s x) := by
    intro c' s' hs'
    by_cases hc : c' = c
    · subst hc
      cases hs.symm.trans hs'
      have hsame := Connector.Ledger.lasts_change (hw.consistent _ s hs) hx
      exact ⟨_, hself, hsame⟩
    · exact ⟨s', (if_neg hc).trans hs', refl_of Connector.Ledger.Lasts s'.ledger⟩
  obtain ⟨l, hl, hall⟩ := Connector.Ledger.announces_change (hw.consistent c s hs) hx
  -- the connector had nothing left to publish
  have hpub : (x.run s).2.published = l := by
    have hnil : s.published = [] := hw.vouched.published c s hs
    have happ : (x.run s).2.published = s.published ++ l := hl
    rw [happ, hnil, List.nil_append]
  have hnew : ∀ r ∈ (w.atConnector c s x).incoming,
      r ∈ w.incoming ∨ Connector.Ledger.Announces (D.config c) e (x.run s).2.ledger r := fun r hr =>
    (List.mem_append.1 hr).imp id fun h => hall r (hpub ▸ h)
  refine ⟨⟨hv, fun c' s' hs' => ?_, fun c' s' hs' => ?_, fun r hr ht hto a ha => ?_,
    fun r hr ht => ?_, fun r hr ht => ?_, ?_⟩, hlast⟩
  · by_cases hc : c' = c
    · subst hc
      cases hself.symm.trans hs'
      have hcons := (hw.consistent _ s hs).change hx
      exact { hcons with }
    · exact hw.consistent c' s' ((if_neg hc).symm.trans hs')
  · by_cases hc : c' = c
    · subst hc
      cases hself.symm.trans hs'
      have hnum := Connector.Ledger.numbered_change (hw.numbered _ s hs) hx
      exact ⟨hnum.counter, hnum.sockets⟩
    · exact hw.numbered c' s' ((if_neg hc).symm.trans hs')
  · rcases hnew r hr with hold | hann
    · exact (hw.connected r hold ht hto a ha).mono hlast
    · obtain ⟨i, k, haddr, hk, hst⟩ := hann.connected ht hto
      cases haddr.symm.trans ha
      exact ⟨c, i, _, k, rfl, rfl, hself, hk, hst⟩
  · exact (hnew r hr).elim (fun h => hw.request r h ht) fun h => h.request ht
  · rcases hnew r hr with hold | hann
    · exact hw.wrapper r hold ht
    · obtain ⟨i, content, fs, rfl, hct⟩ := hann.wrapper ht
      exact he i content fs rfl hct
  · refine hw.processor.mono ⟨fun _ h => h, fun _ h => h, fun _ h => h, fun a ha => ?_⟩
    exact World.IsSession.mono hlast ha

omit [JavaChar] in
theorem admits_of_isPlain {e : Event} (h : e.isPlain = true) : Admits e := by
  cases e with
  | receive c i content futures =>
    simp only [Event.isPlain, Bool.and_eq_true, decide_eq_true_eq] at h
    exact ⟨h.2, fun ht => absurd ht h.1⟩
  | tunnel => cases h
  | _ => trivial

theorem meets_atProcessor {P : Processor.Policy} {x : Processor.Proc Unit} {d : Processor.Draws}
    (hx : Processor.Meets D.env P (x.run (w.processor.drawing d)).2) :
    Processor.Meets D.env P (w.atProcessor x d).processor := hx

/-- A computation of the processors. -/
theorem Settled.atProcessor (hw : Settled D w) {v : World} {x : Processor.Proc Unit}
    {d : Processor.Draws} (hconn : v.connectors = w.connectors)
    (hinc : ∀ r ∈ v.incoming, r ∈ w.incoming) (hv : Vouched (v.atProcessor x d))
    (hx : Processor.Meets D.env (registryPolicy w.IsSession) (v.atProcessor x d).processor) :
    Settled D (v.atProcessor x d) ∧ w.Lasts (v.atProcessor x d) := by
  have hlast : w.Lasts (v.atProcessor x d) := lasts_of_eq hconn
  refine ⟨⟨hv, fun c s hs => hw.consistent c s (hconn ▸ hs),
    fun c s hs => hw.numbered c s (hconn ▸ hs), fun r hr ht hto a ha => ?_,
    fun r hr => hw.request r (hinc r hr), fun r hr => hw.wrapper r (hinc r hr), ?_⟩, hlast⟩
  · exact (hw.connected r (hinc r hr) ht hto a ha).mono hlast
  · refine Processor.Meets.mono hx ⟨fun _ h => h, fun _ h => h, fun _ h => h, fun a ha => ?_⟩
    exact World.IsSession.mono hlast ha

/-- A record that a processor consumes. -/
theorem Settled.accepts (hw : Settled D w) {r : Message} (hr : r ∈ w.incoming) :
    (registryPolicy w.IsSession).accepts r :=
  MessageOf.carries_of_self (hw.connected r hr) (hw.wrapper r hr) fun _ _ _ _ => trivial

/-- What a processor puts on topics goes to sessions there have been before. -/
theorem Settled.dispatched (hw : Settled D w) {k : ℕ} {draws : Processor.Draws}
    (h : D.step w (.dispatch k draws) = some w') :
    Processor.Meets D.env (registryPolicy w.IsSession) w'.processor := by
  have hrules : Processor.Rules D.env (registryPolicy w.IsSession) := registryRules
  obtain ⟨m, hm, rfl⟩ := step_dispatch h
  exact meets_atProcessor (Processor.Rules.meets_onRecordArrived hrules
    (hw.processor.drawing draws) (hw.accepts (List.mem_of_getElem? hm)) fun _ _ _ => trivial)

/-- **Every event** keeps it so, and ends no session. -/
theorem settled_step {e : Event} (hw : Settled D w) (hok : e.isPlain = true)
    (h : D.step w e = some w') : Settled D w' ∧ w.Lasts w' := by
  have hv := vouched_step hw.vouched (admits_of_isPlain hok) h
  have hrules : Processor.Rules D.env (registryPolicy w.IsSession) := registryRules
  cases e with
  | connect c =>
    obtain ⟨s, hs, rfl⟩ := step_connect h
    refine hw.atConnector hs (e := .connect) ?_ (fun i content fs h => by cases h) hv
    exact .connect
  | disconnect c i futures =>
    obtain ⟨s, socket, hs, hopen, rfl⟩ := step_disconnect h
    exact hw.atConnector hs (Connector.change_disconnect hopen) (fun i content fs h => by cases h) hv
  | receive c i content futures =>
    obtain ⟨s, socket, hs, hopen, rfl⟩ := step_receive h
    have hw₁ : Settled D { w with inputs := w.inputs ++ [⟨c, i, socket, content⟩] } :=
      ⟨⟨hw.vouched.published, hw.vouched.reports, hw.vouched.lost⟩, hw.consistent, hw.numbered,
        hw.connected, hw.request, hw.wrapper, hw.processor⟩
    refine hw₁.atConnector hs (Connector.change_receive hopen) (fun j content' fs heq => ?_) hv
    cases heq
    simp only [Event.isPlain, Bool.and_eq_true] at hok
    simpa using hok.1
  | handOut k futures =>
    obtain ⟨p, s, -, hs, rfl⟩ := step_handOut h
    have hw₁ : Settled D { w with
        processor := { w.processor with parcels := w.processor.parcels.eraseIdx k } } :=
      ⟨⟨hw.vouched.published, hw.vouched.reports, hw.vouched.lost⟩, hw.consistent, hw.numbered,
        hw.connected, hw.request, hw.wrapper, { hw.processor with
          parcels := fun p hp => hw.processor.parcels p (List.mem_of_mem_eraseIdx hp) }⟩
    exact hw₁.atConnector hs (Connector.change_handOut _ _ _) (fun i content fs h => by cases h) hv
  | dispatch k draws =>
    have hmeets := hw.dispatched h
    obtain ⟨m, hm, rfl⟩ := step_dispatch h
    exact hw.atProcessor rfl (fun r hr => List.mem_of_mem_eraseIdx hr) hv hmeets
  | refuse k =>
    obtain ⟨p, -, rfl⟩ := step_refuse h
    refine hw.atProcessor rfl (fun r hr => hr) hv ?_
    have hstart : Processor.Meets D.env (registryPolicy w.IsSession)
        { w.processor with parcels := w.processor.parcels.eraseIdx k } :=
      { hw.processor with
        parcels := fun p hp => hw.processor.parcels p (List.mem_of_mem_eraseIdx hp) }
    exact meets_atProcessor
      ((Processor.Rules.keeps_onMessageDeliveryFailed hrules trivial).run (hstart.drawing {}))
  | respond k outcome draws =>
    obtain ⟨call, -, rfl⟩ := step_respond h
    refine hw.atProcessor rfl (fun r hr => hr) hv ?_
    have hstart : Processor.Meets D.env (registryPolicy w.IsSession)
        { w.processor with httpCalls := w.processor.httpCalls.eraseIdx k } :=
      { hw.processor with
        httpCalls := fun c hc => hw.processor.httpCalls c (List.mem_of_mem_eraseIdx hc) }
    exact meets_atProcessor
      ((Processor.Rules.keeps_complete hrules fun _ _ _ _ _ => trivial).run (hstart.drawing draws))
  | tunnel => cases hok

/-! ### Where a close command comes from -/

/-- The message is the command `r` for its recipient. -/
structure Repeats (r m : Message) : Prop where
  type : r.type = some .CLOSE_CONNECTION
  data : r.data = .closeConnection m.to_
  from_ : m.from_ = r.from_
  originalAddress : m.originalAddress = r.originalAddress

/-- A processed message has the payload of `r` where it is a close command. -/
structure Restates (r m : Message) : Prop where
  request : m.type ≠ some .FETCH_MISSING_MESSAGES_REQUEST
  command : m.type = some .CLOSE_CONNECTION → r.type = some .CLOSE_CONNECTION ∧ m.data = r.data ∧
    m.from_ = r.from_ ∧ m.originalAddress = r.originalAddress

omit [JavaChar] in
theorem restates_of_type {r m : Message} (ty : MessageType) (ht : m.type = some ty)
    (hne : ty ∉ [.FETCH_MISSING_MESSAGES_REQUEST, .CLOSE_CONNECTION]) : Restates r m := by
  simp only [List.mem_cons, List.not_mem_nil, or_false, not_or] at hne
  have hinj : ∀ ty', m.type = some ty' → ty = ty' := fun _ h => Option.some.inj (ht.symm.trans h)
  exact ⟨fun h => hne.1 (hinj _ h), fun h => absurd (hinj _ h) hne.2⟩

omit [JavaChar] in
theorem Restates.touch {r m : Message} (hm : Restates r m) : Restates r m.touch := by
  refine ⟨hm.request, fun ht => ?_⟩
  obtain ⟨hr, hd, hfrom, haddr⟩ := hm.command ht
  exact ⟨hr, hd, hfrom, (MessageOf.SameLetter.touch m).originalAddress.trans haddr⟩

omit [JavaChar] in
/-- What a processor makes of a record that is no request. -/
theorem spreads_restates (E : Processor.Environment) (r : Message) :
    Processor.Spreads E
      (MessageOf.Carries (Restates r) fun st msg => st = some .ADDRESS_NOT_FOUND →
        msg.type ≠ some .CLOSE_CONNECTION)
      fun m => m.type = some .CLOSE_CONNECTION → Repeats r m where
  touch hm := hm.congr rfl rfl fun h => h.touch
  redirect _ hm := hm.congr rfl rfl fun h => ⟨h.request, h.command⟩
  cross hm := (MessageOf.carries_internal rfl rfl).2 hm
  groupUser _ _ _ := (MessageOf.carries_plain (fun h => by cases h) fun h => by cases h).2
    (restates_of_type .MESSAGE rfl (by decide))
  groupOther _ _ _ := (MessageOf.carries_plain (fun h => by cases h) fun h => by cases h).2
    (restates_of_type .GROUP_MESSAGE rfl (by decide))
  confirm _ _ _ _ := (MessageOf.carries_plain (fun h => by cases h) fun h => by cases h).2
    (restates_of_type .MESSAGE_CONFIRMATION rfl (by decide))
  unwrap hm ht hd := (MessageOf.carries_internal ht hd).1 hm
  copy {m m'} hcopy hm ht := by
    have hl := hcopy.letter
    obtain ⟨hr, hd, hfrom, haddr⟩ := hm (hl.type.symm.trans ht)
    exact ⟨hr, by rw [hd, hl.to_], hl.from_.trans hfrom, hl.originalAddress.trans haddr⟩
  plain hne ht := absurd ht hne
  close {m u} hm ht hd _ := by
    have hself := (MessageOf.carries_plain (by simp [ht]) (by simp [ht])).1 hm
    obtain ⟨hr, hdata, hfrom, haddr⟩ := hself.command ht
    exact ⟨hr, hdata.symm.trans hd, hfrom, haddr⟩
  fetched {m} hm ht := by
    have hself := (MessageOf.carries_plain (by simp [ht]) (by simp [ht])).1 hm
    exact absurd ht hself.request
  lost hm ht hd hclose := absurd hclose ((MessageOf.carries_report ht hd).1 hm rfl)

/-- The processors have handled a command to close the connections of the recipient of `p`, and have put
`p` on its topic. -/
structure Issues (st : System.Step World Event) (p : Parcel) : Prop where
  command : ∃ k d m, st.event = .dispatch k d ∧ st.before.incoming[k]? = some m ∧ Repeats m p.message
  parcel : p ∈ st.after.processor.parcels.drop st.before.processor.parcels.length

/-- A close command that is stored is on the page that a request gets. -/
def Fetches (w : World) : Event → Prop
  | .dispatch k _ => ∃ r u count, w.incoming[k]? = some r ∧
      r.type = some .FETCH_MISSING_MESSAGES_REQUEST ∧ r.from_ = some u ∧
      r.data = .fetchMissingMessagesRequest (some count) ∧
      ∃ m ∈ (Processor.pageFor w.processor u count).content, m.type = some .CLOSE_CONNECTION
  | _ => False

omit [JavaChar] in
/-- What a computation of the processors has put on topics. -/
theorem mem_of_notes {A B : Message → Prop} {p : Parcel}
    (h : Processor.Notes A B w.processor w'.processor) (hp : p ∈ w'.processor.parcels) :
    p ∈ w.processor.parcels ∨
      p ∈ w'.processor.parcels.drop w.processor.parcels.length ∧ B p.message := by
  obtain ⟨ps, hps, hall⟩ := h.parcels
  rw [hps] at hp ⊢
  rw [List.drop_left]
  exact (List.mem_append.1 hp).imp id fun hp => ⟨hp, hall p hp⟩

omit [JavaChar] in
theorem notes_drawing {A B : Message → Prop} {v : World} {x : Processor.Proc Unit}
    {d : Processor.Draws} (hj : v.processor.journal = w.processor.journal)
    (hp : v.processor.parcels = w.processor.parcels)
    (hx : Processor.Notes A B (v.processor.drawing d) (x.run (v.processor.drawing d)).2) :
    Processor.Notes A B w.processor (v.atProcessor x d).processor := by
  have hstart : Processor.Notes A B w.processor (v.processor.drawing d) :=
    Processor.notes_of_rests ⟨hj, hp⟩
  exact trans_of (Processor.Notes A B) hstart hx

omit [JavaChar] in
theorem allows_noCommand : Processor.Allows fun m => m.type ≠ some .CLOSE_CONNECTION where
  copy hcopy hne ht := hne (hcopy.letter.type.symm.trans ht)
  plain hne := hne

omit [JavaChar] in
/-- A computation that processes nothing puts no close command on a topic. -/
theorem spreads_noCommand (E : Processor.Environment) :
    Processor.Spreads E (fun _ => False) fun m => m.type ≠ some .CLOSE_CONNECTION where
  toAllows := allows_noCommand
  touch h := h
  redirect _ h := h
  cross h := h
  groupUser h := h.elim
  groupOther h := h.elim
  confirm h := h.elim
  unwrap h := h.elim
  close h := h.elim
  fetched h := h.elim
  lost h := h.elim

/-- **A close command on a topic** has been there before, or is what the processors make of the command
that they handle. -/
theorem issues_of_step {e : Event} (hw : Settled D w) (hok : e.isPlain = true) (hfetch : ¬ Fetches w e)
    (h : D.step w e = some w') {p : Parcel} (hp : p ∈ w'.processor.parcels)
    (ht : p.message.type = some .CLOSE_CONNECTION) :
    p ∈ w.processor.parcels ∨ Issues ⟨w, e, w'⟩ p := by
  cases e with
  | connect c =>
    obtain ⟨s, -, rfl⟩ := step_connect h
    exact .inl hp
  | disconnect c i futures =>
    obtain ⟨s, socket, -, -, rfl⟩ := step_disconnect h
    exact .inl hp
  | receive c i content futures =>
    obtain ⟨s, socket, -, -, rfl⟩ := step_receive h
    exact .inl hp
  | handOut k futures =>
    obtain ⟨q, s, -, -, rfl⟩ := step_handOut h
    exact .inl (List.mem_of_mem_eraseIdx hp)
  | dispatch k draws =>
    obtain ⟨m, hm, rfl⟩ := step_dispatch h
    have hmem := List.mem_of_getElem? hm
    by_cases hreq : m.type = some .FETCH_MISSING_MESSAGES_REQUEST
    · have hpage : ∀ u count, m.from_ = some u → m.data = .fetchMissingMessagesRequest (some count) →
          ∀ r ∈ (Processor.pageFor (w.processor.drawing draws) u count).content,
            r.type ≠ some .CLOSE_CONNECTION := fun u count hu hd r hr htype =>
        hfetch ⟨m, u, count, hm, hreq, hu, hd, r, hr, htype⟩
      have hnotes := notes_drawing (w := w) (d := draws) rfl rfl
        (Processor.notes_request (E := D.env) allows_noCommand hreq (hw.request m hmem hreq) hpage)
      rcases mem_of_notes hnotes hp with hold | hnew
      · exact .inl hold
      · exact absurd ht hnew.2
    · have hA : MessageOf.Carries (Restates m) (fun st msg => st = some .ADDRESS_NOT_FOUND →
          msg.type ≠ some .CLOSE_CONNECTION) m := by
        refine MessageOf.carries_of_self ⟨hreq, fun hc => ⟨hc, rfl, rfl, rfl⟩⟩ (hw.wrapper m hmem) ?_
        exact fun msg st htype hd hst => hw.vouched.lost m hmem msg ⟨htype, hst ▸ hd⟩
      have hnotes := notes_atProcessor (w := w) (d := draws) rfl rfl
        (Processor.notes_onRecordArrived (spreads_restates D.env m) hA)
      refine (mem_of_notes hnotes hp).imp id fun h => ?_
      exact ⟨⟨k, draws, m, rfl, hm, h.2 ht⟩, h.1⟩
  | refuse k =>
    obtain ⟨q, -, rfl⟩ := step_refuse h
    have hsilent := (Processor.silent_onMessageDeliveryFailed (E := D.env) q.message
      (({ w.processor with parcels := w.processor.parcels.eraseIdx k } :
        Processor.State).drawing {})).2
    exact .inl (List.mem_of_mem_eraseIdx (hsilent ▸ hp))
  | respond k outcome draws =>
    obtain ⟨call, -, rfl⟩ := step_respond h
    have hnotes := notes_atProcessor (w := w) (B := fun m => m.type ≠ some .CLOSE_CONNECTION)
      (v := { w with
        processor := { w.processor with httpCalls := w.processor.httpCalls.eraseIdx k }
        responses := w.responses ++ [(call, outcome)] }) (d := draws) rfl rfl
      (Processor.notes_complete (spreads_noCommand D.env) call outcome)
    exact (mem_of_notes hnotes hp).imp id fun h => (h.2 ht).elim
  | tunnel => cases hok

/-- The steps in which no stored close command is handed to a request. -/
def Unstored (w : World) (e : Event) : Prop := e.isPlain = true ∧ ¬ Fetches w e

/-- Every close command on a topic has been issued by a step of the path, for a session there was then. -/
structure Traced (l : List (System.Step World Event)) (w : World) (p : Parcel) : Prop where
  origin : ∃ st ∈ l, Issues st p ∧ st.before.Lasts w ∧
    ∃ a, p.message.targetAddress = some a ∧ a.connectorName = some p.target ∧
      ∀ i, a.socketId = some i → 0 < i → st.before.IsSession a

omit [JavaChar] in
theorem Traced.snoc {l : List (System.Step World Event)} {p : Parcel} (h : Traced l w p)
    (hlast : w.Lasts w') (st : System.Step World Event) : Traced (l ++ [st]) w' p := by
  obtain ⟨st', hmem, hissues, hlast', ha⟩ := h.origin
  exact ⟨st', List.mem_append_left _ hmem, hissues, trans_of World.Lasts hlast' hlast, ha⟩

/-- **Along a path** every close command on a topic can be traced. -/
theorem traced_of_path {w₀ : World} {l : List (System.Step World Event)} (h₀ : Initial w₀)
    (h : D.system.Path Unstored w₀ l w) :
    Settled D w ∧ ∀ p ∈ w.processor.parcels, p.message.type = some .CLOSE_CONNECTION → Traced l w p := by
  induction h with
  | nil =>
    refine ⟨settled_initial h₀, fun p hp => ?_⟩
    rw [h₀.processor] at hp
    cases hp
  | @snoc l w w' e _ hok hst ih =>
    obtain ⟨hw, htraced⟩ := ih
    obtain ⟨hw', hlast⟩ := settled_step hw hok.1 hst
    refine ⟨hw', fun p hp ht => ?_⟩
    rcases issues_of_step hw hok.1 hok.2 hst hp ht with hold | hissues
    · exact (htraced p hold ht).snoc hlast _
    obtain ⟨k, d, m, rfl, hm, hrepeats⟩ := hissues.command
    -- a command goes to an address that has been in the registry, or to a connector
    obtain ⟨-, a, ha, htarget, hroute⟩ := (hw.dispatched hst).parcels p hp
    refine ⟨⟨w, .dispatch k d, w'⟩, List.mem_append_right _ (List.mem_singleton.2 rfl), hissues, hlast,
      a, ha, htarget, fun i hi hpos => ?_⟩
    split_ifs at hroute
    · subst hroute
      cases hi
      omega
    · exact hroute

/-- The socket is open, and authenticated as the user. -/
def Session (w : World) (c : String) (i : ℤ) (u : Option String) : Prop :=
  ∃ s k, w.connectors c = some s ∧ s.sockets i = some k ∧ k.isOpen = true ∧
    k.authStatus = .AUTHENTICATED ∧ k.userId = u

/-- The open sockets that a connector closes when it consumes the `k`th record, a close command, were
sessions of the user when the processors handled the command. -/
def ClosesSessions (l : List (System.Step World Event)) (w : World) (k : ℕ) (w' : World) : Prop :=
  ∀ p s s' i socket, w.processor.parcels[k]? = some p → p.message.type = some .CLOSE_CONNECTION →
    w.connectors p.target = some s → w'.connectors p.target = some s' →
    i ∈ s'.closing.drop s.closing.length → s.sockets i = some socket → socket.isOpen = true →
    ∃ st ∈ l, Issues st p ∧ Session st.before p.target i p.message.to_

/-- **A close command closes what was open** when it was handled, where no request gets a stored one. -/
theorem closed_of_path {w₀ : World} {l : List (System.Step World Event)} (h₀ : Initial w₀)
    (h : D.system.Path Unstored w₀ l w) {k : ℕ} {futures : List Bool}
    (hst : D.step w (.handOut k futures) = some w') : ClosesSessions l w k w' := by
  intro p s s' i socket hp ht hs hs' hi hsocket hopen
  obtain ⟨hw, htraced⟩ := traced_of_path h₀ h
  obtain ⟨q, t, hq, hqt, rfl⟩ := step_handOut hst
  cases hp.symm.trans hq
  cases hs.symm.trans hqt
  have hself : s'.closing = ((Connector.withFutures futures
      (Connector.PostOffice.onMessageArrived (D.config p.target) p.message)).run s).2.closing := by
    have hafter := (if_pos rfl).symm.trans hs'
    rw [← Option.some.inj hafter]
  rw [hself] at hi
  rcases Connector.closesOne_onMessageArrived (C := D.config p.target) ht futures s with
    hnone | ⟨j, hone, hcloses⟩
  · rw [hnone, List.drop_length] at hi
    cases hi
  rw [hone, List.drop_left] at hi
  cases List.mem_singleton.1 hi
  obtain ⟨u, hu, hmem⟩ := hcloses.user
  obtain ⟨a, ha, hid⟩ := hcloses.address
  obtain ⟨st, hstl, hissues, hlast, a', ha', htarget, hsession⟩ :=
    (htraced p (List.mem_of_getElem? hp) ht).origin
  cases ha.symm.trans ha'
  have hpos : 0 < i := by
    by_contra hle
    have hnone : s.sockets i = none := (hw.numbered _ s hs).sockets i (by omega)
    cases hnone.symm.trans hsocket
  obtain ⟨c, i', s₀, k₀, hc, hi', hs₀, hk₀, hst₀⟩ := hsession i hid hpos
  cases htarget.symm.trans hc
  cases hid.symm.trans hi'
  -- the session has lasted until now
  obtain ⟨s₁, hs₁, hlasts⟩ := hlast _ s₀ hs₀
  cases hs.symm.trans hs₁
  obtain ⟨k₁, hk₁, -, huser, hopens⟩ := hlasts i k₀ hk₀ hst₀
  cases hsocket.symm.trans hk₁
  obtain ⟨k₂, hk₂, hname, -⟩ := (hw.consistent _ s hs).users u i hmem
  cases hsocket.symm.trans hk₂
  refine ⟨st, hstl, hissues, s₀, k₀, hs₀, hk₀, hopens hopen, hst₀, ?_⟩
  rw [← huser, hname, hu]

end Domain

/-! ### A command that comes too late -/

section

attribute [local instance] JavaChar.ascii

open Domain
open Sample (arrival connectorName domain start)

namespace SampleCommands

/-- The master user of the app closes the connections of `APP-5`. -/
def close : List Event :=
  [.receive connectorName 1
    { type := some .CLOSE_CONNECTION, data := .closeConnection (some "APP-5") } [], .dispatch 0 {}]

/-- `APP-5` signs in, and the master user learns of it. -/
def signsIn : List Event := arrival 2 "APP-5" ++ [.handOut 0 []]

/-- `APP-5` asks for what it has missed. -/
def fetch : List Event :=
  [.receive connectorName 2
    { type := some .FETCH_MISSING_MESSAGES_REQUEST
      data := .fetchMissingMessagesRequest (some 10) } [], .dispatch 0 {}]

/-- The type of the record that an event has a processor consume. -/
def consumed (w : World) : Event → Option MessageType
  | .dispatch k _ => w.incoming[k]?.bind MessageOf.type
  | _ => none

/-- No request is handled. -/
def unstored (w : World) (e : Event) : Bool :=
  e.isPlain && consumed w e != some .FETCH_MISSING_MESSAGES_REQUEST

theorem unstored_of_true (w : World) (e : Event) (h : unstored w e = true) : Unstored w e := by
  simp only [unstored, Bool.and_eq_true, bne_iff_ne] at h
  refine ⟨h.1, fun hfetch => ?_⟩
  cases e with
  | dispatch k d =>
    obtain ⟨r, u, count, hr, ht, -⟩ := hfetch
    refine h.2 ?_
    rw [consumed, hr]
    exact ht
  | _ => exact hfetch

def socket (w : World) (i : ℤ) : Option Connector.Socket :=
  (w.connectors connectorName).bind fun s => s.sockets i

/-- No command is handled while there is a second socket. -/
def early (w : World) (e : Event) : Bool :=
  e.isPlain && (consumed w e != some .CLOSE_CONNECTION || (socket w 2).isNone)

/-- The next record of the connector closes the second socket, which is open. -/
def closes (w w' : World) : Bool :=
  match w.processor.parcels[0]?, w.connectors connectorName, w'.connectors connectorName with
  | some p, some s, some s' =>
    p.message.type = some .CLOSE_CONNECTION && p.target = connectorName &&
      p.message.to_ = some "APP-5" && decide ((2 : ℤ) ∈ s'.closing.drop s.closing.length) &&
        (s.openSocket 2).isSome
  | _, _, _ => false

theorem exists_of_closes {w w' : World} (h : closes w w' = true) : ∃ p s s' k,
    w.processor.parcels[0]? = some p ∧ p.message.type = some .CLOSE_CONNECTION ∧
      p.target = connectorName ∧ p.message.to_ = some "APP-5" ∧ w.connectors connectorName = some s ∧
      w'.connectors connectorName = some s' ∧ 2 ∈ s'.closing.drop s.closing.length ∧
      s.sockets 2 = some k ∧ k.isOpen = true := by
  rw [closes] at h
  split at h
  · next p s s' hp hs hs' =>
    simp only [Bool.and_eq_true, decide_eq_true_eq] at h
    obtain ⟨⟨⟨⟨ht, htarget⟩, hto⟩, hmem⟩, hsome⟩ := h
    obtain ⟨k, hk⟩ := Option.isSome_iff_exists.1 hsome
    obtain ⟨hk, hopen⟩ := Option.filter_eq_some_iff.1 hk
    exact ⟨p, s, s', k, hp, ht, htarget, hto, hs, hs', hmem, hk, hopen⟩
  · cases h

end SampleCommands

open SampleCommands

namespace Domain

/-- The command finds `APP-5` connected, and closes the session there is. -/
theorem closed_of_path_connected : ∃ l w w', domain.system.Path Unstored start l w ∧
    domain.step w (.handOut 0 []) = some w' ∧ ClosesSessions l w 0 w' ∧
    ∃ st ∈ l, Session st.before connectorName 2 (some "APP-5") := by
  have hrun : ((domain.system.runIf unstored start (arrival 1 "APP-1" ++ signsIn ++ close)).bind
      fun w => (domain.step w (.handOut 0 [])).map fun w' => closes w w') = some true := by
    decide +kernel
  obtain ⟨w, hw, hstep⟩ := Option.bind_eq_some_iff.1 hrun
  obtain ⟨w', hw', hcloses⟩ := Option.map_eq_some_iff.1 hstep
  obtain ⟨l, hpath, -⟩ := System.exists_path_of_runIf unstored_of_true hw
  obtain ⟨p, s, s', k, hp, ht, htarget, hto, hs, hs', hmem, hk, hopen⟩ := exists_of_closes hcloses
  have hclosed := closed_of_path initial_start hpath hw'
  obtain ⟨st, hst, -, hsession⟩ := hclosed p s s' 2 k hp ht (htarget ▸ hs) (htarget ▸ hs') hmem hk hopen
  exact ⟨l, w, w', hpath, hw', hclosed, st, hst, htarget ▸ hto ▸ hsession⟩

/-- **A close command can come too late.**  `APP-5` is away when the command is handled, signs in, and
asks for what it has missed: the command closes the new connection. -/
theorem closed_later : ∃ l w w', domain.system.Path (fun _ e => e.isPlain = true) start l w ∧
    domain.step w (.handOut 0 []) = some w' ∧ ¬ ClosesSessions l w 0 w' := by
  have hrun : ((domain.system.runIf early start
      (arrival 1 "APP-1" ++ close ++ signsIn ++ fetch)).bind fun w =>
        (domain.step w (.handOut 0 [])).map fun w' => closes w w') = some true := by
    decide +kernel
  obtain ⟨w, hw, hstep⟩ := Option.bind_eq_some_iff.1 hrun
  obtain ⟨w', hw', hcloses⟩ := Option.map_eq_some_iff.1 hstep
  have hpassed : ∀ w e, early w e = true → early w e = true := fun _ _ h => h
  obtain ⟨l, hpath, -⟩ := System.exists_path_of_runIf hpassed hw
  obtain ⟨p, s, s', k, hp, ht, htarget, -, hs, hs', hmem, hk, hopen⟩ := exists_of_closes hcloses
  refine ⟨l, w, w', hpath.mono fun w e h => ?_, hw', fun h => ?_⟩
  · rw [early, Bool.and_eq_true] at h
    exact h.1
  obtain ⟨st, hst, hissues, s₀, k₀, hs₀, hk₀, -⟩ :=
    h p s s' 2 k hp ht (htarget ▸ hs) (htarget ▸ hs') hmem hk hopen
  obtain ⟨n, d, m, he, hm, hrepeats⟩ := hissues.command
  -- there was no such socket when the command was handled
  have hearly := (hpath.of_mem hst).2.1
  have hconsumed : consumed st.before st.event = some .CLOSE_CONNECTION := by
    rw [he, consumed, hm]
    exact hrepeats.type
  have hsocket : socket st.before 2 = some k₀ := by
    rw [htarget] at hs₀
    rw [socket, hs₀]
    exact hk₀
  simp [early, hconsumed, hsocket] at hearly

end Domain

end

end Linker
