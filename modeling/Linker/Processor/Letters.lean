import Linker.Processor.Processing

/-!
# What a message carries

A message given to a processor may be a wrapper of another (`INTERNAL_MESSAGE`) or a report on another
(`MESSAGE_STATE_CHANGED`) that has it delivered again, at once or from the store.  `Carries P R m`
says that `P` holds of the message at the bottom of the wrappers, or `R` of the message it reports on
and the state that is reported.

* `LetterRules` : the obligations of a policy that says of a message only what its letter is, with
  `P` for the messages that are processed and `R` for those that are delivered.
* `LetterRules.rules` : such a policy meets the rules of a processor.
-/

namespace Linker

/-- `P` at the bottom of the wrappers, or `R` of what is reported, where `m` is the message whose
payload is gone through. -/
def Data.Carries (P : Message → Prop) (R : Option MessageState → Message → Prop) :
    Data → Message → Prop
  | .message ⟨id, version, some ⟨type, data, reference, feature, confirmationEnabled⟩, from_, to_,
      meta_, createdAt, state⟩, m =>
    if m.type = some .INTERNAL_MESSAGE then
      data.Carries P R ⟨id, version, some ⟨type, data, reference, feature, confirmationEnabled⟩,
        from_, to_, meta_, createdAt, state⟩
    else P m
  | .message i, m => if m.type = some .INTERNAL_MESSAGE then P i else P m
  | .messageStateChanged (some msg) state, m =>
    if m.type = some .MESSAGE_STATE_CHANGED then R state msg else P m
  | _, m => P m

/-- `R` where the report has the message delivered again, at once or from the store. -/
def Again (R : Message → Prop) (state : Option MessageState) (m : Message) : Prop :=
  state = some .ADDRESS_NOT_FOUND ∨ state = some .NETWORK_ERROR → R m

theorem Again.mono {R R' : Message → Prop} (h : ∀ m, R m → R' m) (state : Option MessageState)
    (m : Message) (hm : Again R state m) : Again R' state m := fun hst => h m (hm hst)

namespace MessageOf

variable {P : Message → Prop} {R : Option MessageState → Message → Prop}

/-- What a message carries to the processor that unwraps it. -/
def Carries (P : Message → Prop) (R : Option MessageState → Message → Prop) (m : Message) : Prop :=
  m.data.Carries P R m

/-- Unwrapping. -/
theorem carries_internal {m i : Message} (ht : m.type = some .INTERNAL_MESSAGE)
    (hd : m.data = .message i) : m.Carries P R ↔ i.Carries P R := by
  obtain ⟨id, version, c, from_, to_, meta_, createdAt, state⟩ := i
  rw [Carries, hd]
  rcases c with _ | c <;> simp [Data.Carries, Carries, ht, MessageOf.data]

/-- Reporting. -/
theorem carries_report {m msg : Message} {st : Option MessageState}
    (ht : m.type = some .MESSAGE_STATE_CHANGED)
    (hd : m.data = .messageStateChanged (some msg) st) :
    m.Carries P R ↔ R st msg := by
  rw [Carries, hd, Data.Carries, if_pos ht]

/-- A message with no other in it carries itself. -/
theorem carries_self {m : Message} (h : ∀ i, m.data = .message i → m.type ≠ some .INTERNAL_MESSAGE)
    (ht : m.type ≠ some .MESSAGE_STATE_CHANGED) : m.Carries P R ↔ P m := by
  unfold Carries
  cases hd : m.data
  case message i =>
    obtain ⟨id, version, c, from_, to_, meta_, createdAt, state⟩ := i
    rcases c with _ | c <;> simp [Data.Carries, h _ hd]
  case messageStateChanged msg st =>
    rcases msg with _ | msg <;> simp [Data.Carries, ht]
  all_goals rfl

/-- A message that is neither a wrapper nor a report carries itself. -/
theorem carries_plain {m : Message} (ht : m.type ≠ some .INTERNAL_MESSAGE)
    (ht' : m.type ≠ some .MESSAGE_STATE_CHANGED) : m.Carries P R ↔ P m :=
  carries_self (fun _ _ => ht) ht'

/-- A message that is no wrapper. -/
theorem carries_of_self {m : Message} (hP : P m) (ht : m.type ≠ some .INTERNAL_MESSAGE)
    (hR : ∀ msg st, m.type = some .MESSAGE_STATE_CHANGED → m.data = .messageStateChanged (some msg) st →
      R st msg) : m.Carries P R := by
  by_cases hreport : m.type = some .MESSAGE_STATE_CHANGED ∧
      ∃ msg st, m.data = .messageStateChanged (some msg) st
  · obtain ⟨htype, msg, st, hd⟩ := hreport
    exact (carries_report htype hd).2 (hR msg st htype hd)
  · unfold Carries
    cases hd : m.data
    case message i =>
      obtain ⟨id, version, c, from_, to_, meta_, createdAt, state⟩ := i
      rcases c with _ | c <;> simpa [Data.Carries, ht] using hP
    case messageStateChanged msg st =>
      rcases msg with _ | msg
      · exact hP
      · have hne : m.type ≠ some .MESSAGE_STATE_CHANGED := fun h => hreport ⟨h, msg, st, hd⟩
        simpa [Data.Carries, hne] using hP
    all_goals exact hP

/-- What is carried depends on the message itself only where it carries itself. -/
theorem Carries.congr {m m' : Message} (h : m.Carries P R) (hd : m'.data = m.data)
    (ht : m'.type = m.type) (hP : P m → P m') : m'.Carries P R := by
  unfold Carries at *
  rw [hd]
  cases hdata : m.data <;> rw [hdata] at h
  case message i =>
    obtain ⟨id, version, c, from_, to_, meta_, createdAt, state⟩ := i
    rcases c with _ | c
    · simp only [Data.Carries, ht] at h ⊢
      split_ifs at h ⊢
      · exact h
      · exact hP h
    · simp only [Data.Carries, ht] at h ⊢
      split_ifs at h ⊢
      · exact h
      · exact hP h
  case messageStateChanged msg st =>
    rcases msg with _ | msg
    · exact hP h
    · simp only [Data.Carries, ht] at h ⊢
      split_ifs at h ⊢
      · exact h
      · exact hP h
  all_goals exact hP h

end MessageOf

/-- Two things that are said of what a message carries, said at once. -/
theorem Data.Carries.both {P P' Q : Message → Prop} {R R' S : Option MessageState → Message → Prop}
    (hP : ∀ m, P m → P' m → Q m) (hR : ∀ st m, R st m → R' st m → S st m) :
    ∀ (d : Data) (m : Message), d.Carries P R m → d.Carries P' R' m → d.Carries Q S m
  | .message ⟨id, version, some ⟨type, data, reference, feature, confirmationEnabled⟩, from_, to_,
      meta_, createdAt, state⟩, m, h, h' => by
    simp only [Data.Carries] at h h' ⊢
    split_ifs at h h' ⊢
    · exact Data.Carries.both hP hR data _ h h'
    · exact hP m h h'
  | .message ⟨_, _, none, _, _, _, _, _⟩, m, h, h' => by
    simp only [Data.Carries] at h h' ⊢
    split_ifs at h h' ⊢
    · exact hP _ h h'
    · exact hP m h h'
  | .messageStateChanged (some msg) st, m, h, h' => by
    simp only [Data.Carries] at h h' ⊢
    split_ifs at h h' ⊢
    · exact hR st msg h h'
    · exact hP m h h'
  | .messageStateChanged none _, m, h, h' => hP m h h'
  | .null, m, h, h' => hP m h h'
  | .unreadable, m, h, h' => hP m h h'
  | .empty, m, h, h' => hP m h h'
  | .messageRequest _, m, h, h' => hP m h h'
  | .messageForward _, m, h, h' => hP m h h'
  | .messageConfirmation _, m, h, h' => hP m h h'
  | .groupMessage _, m, h, h' => hP m h h'
  | .groupConnectorMessage _, m, h, h' => hP m h h'
  | .authClient _, m, h, h' => hP m h h'
  | .authClientReply _, m, h, h' => hP m h h'
  | .userConnected _, m, h, h' => hP m h h'
  | .userDisconnected _, m, h, h' => hP m h h'
  | .closeConnection _, m, h, h' => hP m h h'
  | .fetchMissingMessagesRequest _, m, h, h' => hP m h h'
  | .fetchMissingMessagesComplete _, m, h, h' => hP m h h'

/-- What is said of everything a message can carry, said more weakly. -/
theorem Data.Carries.mono {P P' : Message → Prop} {R R' : Option MessageState → Message → Prop}
    (hP : ∀ m, P m → P' m) (hR : ∀ st m, R st m → R' st m) (d : Data) (m : Message)
    (h : d.Carries P R m) : d.Carries P' R' m :=
  Data.Carries.both (fun m h _ => hP m h) (fun st m h _ => hR st m h) d m h h

namespace Processor

open ProcessorUtils ClientAppService
open AuthClientMessageProcessor (replyMessage)
open CustomGroupMessageProcessor (connectorMessage userMessage subMessage)
open FetchMissingMessagesMessageProcessor (fetchableStates completeMessage)
open MessageStateChangedMessageProcessor (confirmMessage)

/-- The policy that says `P` of what is processed and `R` of what is delivered. -/
def letterPolicy (P R : Message → Prop) (calls : HttpCall → Prop) : Policy where
  accepts := MessageOf.Carries P (Again R)
  delivers := R
  mails := R
  keeps m := ∀ st ∈ fetchableStates, m.state = some st → R m
  calls
  registers _ := True

variable [JavaChar] (E : Environment)

/-- What `P` and `R` have to allow. -/
structure LetterRules (P R : Message → Prop) (calls : HttpCall → Prop) : Prop where
  processed_congr : ∀ {m m'}, m.SameLetter m' → P m → P m'
  delivered_congr : ∀ {m m'}, m.SameLetter m' → R m → R m'
  /-- Wrappers may go anywhere. -/
  wrapper : ∀ {m : Message}, m.type = some .INTERNAL_MESSAGE → R m
  redirect : ∀ {m : Message} u, P m → P (m.setTo u)
  forward : ∀ {m d} u b, P m → m.type = some .MESSAGE → m.data = .messageRequest d →
    R (forwarded (m.setTo u) d b)
  confirmation : ∀ {m : Message}, P m → m.type = some .MESSAGE_CONFIRMATION → R m
  close : ∀ {m : Message} u, P m → m.type = some .CLOSE_CONNECTION → R (closing (m.setTo u))
  auth : ∀ {m d reply a k}, P m → m.type = some .AUTH_CLIENT → m.data = .authClient d →
    verdictOf E d reply → m.originalAddress = some a →
    R (replyMessage E (E.blank k) a.connectorName m.note reply)
  call : ∀ {m d} url, P m → m.type = some .AUTH_CLIENT → m.data = .authClient d → calls ⟨url, m, d⟩
  groupConnector : ∀ {m d c users k} name, P m → m.type = some .GROUP_MESSAGE →
    m.data = .groupMessage d → R (connectorMessage (E.blank k) name users m d c)
  groupUser : ∀ {m d c k} u, P m → m.type = some .GROUP_MESSAGE → m.data = .groupMessage d →
    P (userMessage (E.blank k) u m d c)
  groupOther : ∀ {m d c users k} name, P m → m.type = some .GROUP_MESSAGE →
    m.data = .groupMessage d → P (subMessage (E.blank k) name users m d c)
  presence : ∀ {m : Message}, P m →
    m.type = some .USER_CONNECTED ∨ m.type = some .USER_DISCONNECTED → R m
  complete : ∀ {m k} left, R (completeMessage (E.blank k) m left)
  confirm : ∀ {msg k}, P (confirmMessage E (E.blank k) msg)

variable {E} {P R : Message → Prop} {calls : HttpCall → Prop}

/-- **A policy about letters** meets the rules of a processor. -/
theorem LetterRules.rules (h : LetterRules E P R calls) : Rules E (letterPolicy P R calls) := by
  have hplain : ∀ {m : Message} {ty : MessageType}, m.Carries P (Again R) → m.type = some ty →
      ty ≠ .INTERNAL_MESSAGE ∧ ty ≠ .MESSAGE_STATE_CHANGED → P m := fun hm ht hne =>
    (MessageOf.carries_plain (by simpa [ht] using hne.1) (by simpa [ht] using hne.2)).1 hm
  have hcarry : ∀ {m : Message} (ty : MessageType), P m → m.type = some ty →
      ty ≠ .INTERNAL_MESSAGE ∧ ty ≠ .MESSAGE_STATE_CHANGED → m.Carries P (Again R) := fun _ hm ht hne =>
    (MessageOf.carries_plain (by simpa [ht] using hne.1) (by simpa [ht] using hne.2)).2 hm
  exact
  { mails_congr := fun hl hm => h.delivered_congr hl hm
    keeps_congr := fun hl hst hm st hmem hs =>
      h.delivered_congr hl (hm st hmem (hst ▸ hs))
    undelivered := fun hm _ _ _ _ _ => h.delivered_congr (.setState _ _) hm
    inside := fun hm _ => hm
    outside := fun _ _ ht _ _ _ _ => h.wrapper ht
    touch := fun hm => hm.congr rfl rfl (h.processed_congr (.touch _))
    cross := fun {m p c k} hm hprep _ hc => by
      have hp : p.Carries P (Again R) := by
        cases hprep with
        | message => exact hm.congr rfl rfl (h.redirect _)
        | close => exact hm.congr rfl rfl (h.redirect _)
        | other => exact hm
      exact (MessageOf.carries_internal rfl rfl).2 hp
    message := fun b hm ht hd _ => h.forward _ b (hplain hm ht (by decide)) ht hd
    confirmation := fun hm ht _ => h.confirmation (hplain hm ht (by decide)) ht
    close := fun hm ht _ _ _ _ => h.close _ (hplain hm ht (by decide)) ht
    auth := fun hm ht hd _ hv ha => h.auth (hplain hm ht (by decide)) ht hd hv ha
    call := fun hm ht hd _ => h.call _ (hplain hm ht (by decide)) ht hd
    groupConnector := fun name hm ht hd _ _ _ =>
      h.groupConnector name (hplain hm ht (by decide)) ht hd
    groupUser := fun hm ht hd _ _ _ =>
      hcarry .MESSAGE (h.groupUser _ (hplain hm ht (by decide)) ht hd) rfl (by decide)
    groupOther := fun hm ht hd _ _ _ =>
      hcarry .GROUP_MESSAGE (h.groupOther _ (hplain hm ht (by decide)) ht hd) rfl (by decide)
    presence := fun hm ht _ _ => by
      refine h.presence ?_ ht
      rcases ht with ht | ht
      · exact hplain hm ht (by decide)
      · exact hplain hm ht (by decide)
    register := fun _ _ _ _ _ => trivial
    master := fun hm _ _ _ _ => hm.congr rfl rfl (h.redirect _)
    fetch := fun hm hst hmem => hm _ hmem hst
    complete := fun left _ _ _ => h.complete left
    lost := fun hm ht hd => (MessageOf.carries_report ht hd).1 hm (.inl rfl)
    changed := fun {m msg st} hm ht hd hst _ _ st' hmem hst' => by
      have heq : st = some st' := hst'
      subst heq
      refine h.delivered_congr (.setState _ _) ((MessageOf.carries_report ht hd).1 hm ?_)
      simpa [fetchableStates] using hmem
    confirm := fun _ _ _ _ => hcarry .MESSAGE_CONFIRMATION h.confirm rfl (by decide)
    unwrap := fun hm ht hd => (MessageOf.carries_internal ht hd).1 hm
    route := fun _ ht _ => h.wrapper ht
    routeInner := fun _ ht _ _ _ => h.wrapper ht }

end Processor

end Linker
