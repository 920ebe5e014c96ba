import Linker.Exec.Recursion
import Linker.Processor.Rules

/-!
# The calls of `process`

`process` calls itself to wrap a message for another domain and to unwrap one for this domain, for each
part of a group message, to confirm a delivery, and to pass a presence message to the master user.  The
arguments of these calls have smaller ranks: a wrapper that has just been made is delivered and not
unwrapped, an inner message nests less deep, what a group message or a report sends is a plain message,
and the rounds of a master user whose name is that of a processor use up the TTL.

## Main definitions

* `Termination.Calls E m m'` : working on `m`, `process` may call itself with `m'`.
* `Termination.rank` : the measure that the calls decrease.

## Main results

* `Termination.processWith_congr` : `process` makes these calls only.
* `Termination.rank_lt` : they decrease the rank.
* `Termination.process_terminates` : no stack higher than `callDepth` is ever used up.
-/

namespace Linker.Processor.Termination

open ProcessorUtils ClientAppService MessageProcessorService PostOffice Exec
open CustomGroupMessageProcessor (userMessage subMessage)
open MessageStateChangedMessageProcessor (confirmMessage)

section

variable [JavaChar] (E : Environment)

/-- How many rounds the TTL of a message has left, after it is touched. -/
def roundsLeft (m : Message) : ℕ := ((m.touch.meta_.bind (·.ttl)).getD 0).toNat

def IsPresence (m : Message) : Prop :=
  m.type = some .USER_CONNECTED ∨ m.type = some .USER_DISCONNECTED

/-- The inner calls of `process` on `m`. -/
inductive Calls (m : Message) : Message → Prop
  /-- A message for another domain is wrapped. -/
  | cross (u : Option String) (k : ℕ) (f : Option MessageFeature) :
      m.type ≠ some .INTERNAL_MESSAGE → isLocal E (m.touch.setTo u) = false →
      Calls m (internalMessage (E.blank k) (m.touch.setTo u) f (domainOf E (m.touch.setTo u)))
  /-- An internal message for this domain is unwrapped. -/
  | inner (i : Message) : m.type = some .INTERNAL_MESSAGE → m.data = .message i → isLocal E m = true →
      Calls m i
  | master (u : Option String) : IsPresence m → 0 < roundsLeft m → Calls m (m.touch.setTo u)
  | groupUser (m' : Message) (k : ℕ) (u : Option String) (d : GroupMessage) (c : MessageContent) :
      m.type = some .GROUP_MESSAGE → isLocal E m = true → Calls m (userMessage (E.blank k) u m' d c)
  | groupOther (m' : Message) (k : ℕ) (domain : Option String) (users : List (Option String))
      (d : GroupMessage) (c : MessageContent) : m.type = some .GROUP_MESSAGE → isLocal E m = true →
      equalsIgnoreCase (some E.domainName) domain = false →
      Calls m (subMessage (E.blank k) domain users m' d c)
  /-- A delivery that is reported on is confirmed. -/
  | confirm (message : Message) (k : ℕ) : m.type = some .MESSAGE_STATE_CHANGED →
      Calls m (confirmMessage E (E.blank k) message)

/-! ### The rank of a message -/

/-- The measure: a wrapper in transit makes no calls, and what is wrapped counts for an internal message
that is unwrapped. -/
def rank (m : Message) : ℕ :=
  match m.type with
  | some .INTERNAL_MESSAGE => if isLocal E m then m.nesting + (2 ^ 31 + 2) else 0
  | some .GROUP_MESSAGE => if isLocal E m then 2 else 1
  | some .MESSAGE_STATE_CHANGED => 2
  | some .USER_CONNECTED | some .USER_DISCONNECTED => roundsLeft m + 1
  | _ => 1

variable {E}

omit [JavaChar] in
theorem roundsLeft_none {m : Message} (h : m.meta_ = none) : roundsLeft m = 0 := by
  rw [roundsLeft, MessageOf.touch, MessageOf.updateMeta, h]
  rfl

omit [JavaChar] in
theorem roundsLeft_eq {m : Message} {t : MessageMeta} (h : m.meta_ = some t) :
    roundsLeft m = (wrap32 (t.ttl.getD 10 - 1)).toNat := by
  rw [roundsLeft, MessageOf.touch, MessageOf.updateMeta, h]
  rfl

omit [JavaChar] in
theorem roundsLeft_pos_iff {m : Message} :
    0 < roundsLeft m ↔ ∃ t, m.meta_ = some t ∧ t.touch.isAlive = true := by
  constructor
  · intro h
    rcases hmeta : m.meta_ with _ | t
    · rw [roundsLeft_none hmeta] at h
      cases h
    · rw [roundsLeft_eq hmeta] at h
      have hpos : 0 < wrap32 (t.ttl.getD 10 - 1) := by omega
      exact ⟨t, rfl, decide_eq_true hpos⟩
  · rintro ⟨t, ht, halive⟩
    have hpos : 0 < wrap32 (t.ttl.getD 10 - 1) := of_decide_eq_true halive
    rw [roundsLeft_eq ht]
    omega

omit [JavaChar] in
theorem roundsLeft_lt (m : Message) : roundsLeft m < 2 ^ 31 := by
  rcases h : m.meta_ with _ | t
  · rw [roundsLeft_none h]
    exact Nat.two_pow_pos 31
  · rw [roundsLeft_eq h, wrap32]
    have hlt := Int.bmod_lt (x := t.ttl.getD 10 - 1) (m := 2 ^ 32) (by decide)
    omega

omit [JavaChar] in
/-- Each round uses up a bit of the TTL. -/
theorem roundsLeft_touch {m : Message} (h : 0 < roundsLeft m) (u : Option String) :
    roundsLeft (m.touch.setTo u) + 1 = roundsLeft m := by
  have hlt := roundsLeft_lt m
  rcases hmeta : m.meta_ with _ | t
  · rw [roundsLeft_none hmeta] at h
    cases h
  · have hnext : (m.touch.setTo u).meta_ = some t.touch := by
      rw [MessageOf.setTo_meta, MessageOf.touch, MessageOf.updateMeta, hmeta]
      rfl
    have hr := roundsLeft_eq hmeta
    have httl : t.touch.ttl = some (wrap32 (t.ttl.getD 10 - 1)) := rfl
    have hr' := roundsLeft_eq hnext
    rw [httl, Option.getD_some] at hr'
    generalize wrap32 (t.ttl.getD 10 - 1) = r at hr hr'
    have hwrap : wrap32 (r - 1) = r - 1 := by
      unfold wrap32
      rw [Int.bmod_eq_of_le (by omega) (by omega)]
    rw [hr', hwrap]
    omega

theorem rank_le (m : Message) : rank E m ≤ m.nesting + (2 ^ 31 + 2) := by
  have hrounds := roundsLeft_lt m
  rw [rank]
  split <;> (try split) <;> omega

/-- What is in an internal message nests less deep. -/
theorem rank_inner {m i : Message} (hd : m.data = .message i) :
    rank E i < m.nesting + (2 ^ 31 + 2) := by
  rcases hc : i.content with _ | c
  · have htype : i.type = none := by rw [MessageOf.type, hc]; rfl
    rw [rank, htype]
    show 1 < _
    omega
  · have hnesting : m.nesting = i.nesting + 1 := by
      obtain ⟨_, _, _, _, _, _, _, _⟩ := i
      cases hc
      rw [MessageOf.nesting, hd]
      rfl
    have hle := rank_le (E := E) i
    omega

/-- A message whose type makes no calls but to wrap it. -/
theorem rank_eq_one {m : Message} (h : m.type = some .MESSAGE ∨ m.type = some .MESSAGE_CONFIRMATION) :
    rank E m = 1 := by
  rcases h with h | h <;> rw [rank, h]

theorem rank_pos {m : Message} (h : m.type ≠ some .INTERNAL_MESSAGE) : 0 < rank E m := by
  rw [rank]
  split
  · next h' => exact absurd h' h
  all_goals first | omega | (split <;> omega)

/-- A message in a wrapper that has been made for another domain. -/
theorem isLocal_internalMessage {m : Message} (k : ℕ) (f : Option MessageFeature)
    (h : isLocal E m = false) :
    isLocal E (internalMessage (E.blank k) m f (domainOf E m)) = false := h

/-- **The inner calls decrease the rank.** -/
theorem rank_lt {m m' : Message} (h : Calls E m m') : rank E m' < rank E m := by
  cases h with
  | cross u k f htype hlocal =>
    have hwrapper : rank E (internalMessage (E.blank k) (m.touch.setTo u) f
        (domainOf E (m.touch.setTo u))) = 0 := by
      rw [rank, show MessageOf.type _ = some MessageType.INTERNAL_MESSAGE from rfl]
      exact if_neg (by rw [isLocal_internalMessage k f hlocal]; decide)
    rw [hwrapper]
    exact rank_pos htype
  | inner _ htype hdata hlocal =>
    have hm : rank E m = m.nesting + (2 ^ 31 + 2) := by
      rw [rank, htype]
      exact if_pos hlocal
    rw [hm]
    exact rank_inner hdata
  | master u htype hrounds =>
    have hnext := roundsLeft_touch hrounds u
    have htype' : (m.touch.setTo u).type = m.type := rfl
    rw [rank, rank, htype']
    rcases htype with htype | htype <;> rw [htype] <;> simp only <;> omega
  | groupUser m' k u d c htype hlocal =>
    rw [rank_eq_one (.inl rfl), rank, htype]
    simp [hlocal]
  | groupOther m' k domain users d c htype hlocal hdomain =>
    -- the message for the other domain has no inner calls but its wrapper
    have hsub : rank E (subMessage (E.blank k) domain users m' d c) = 1 := by
      have haway : isLocal E (subMessage (E.blank k) domain users m' d c) = false := by
        rw [isLocal, show MessageOf.to_ _ = some Keywords.PROCESSOR from rfl, isBlank_processor]
        exact hdomain
      rw [rank, show MessageOf.type _ = some MessageType.GROUP_MESSAGE from rfl]
      exact if_neg (by rw [haway]; decide)
    rw [hsub, rank, htype]
    simp [hlocal]
  | confirm message k htype =>
    rw [rank_eq_one (.inr rfl), rank, htype]
    exact Nat.one_lt_two

/-! ### What the handlers call -/

/-- The inner calls of `process` on `m` do the same. -/
def Agree (E : Environment) (m : Message) (p q : Message → Proc Unit) : Prop :=
  ∀ m', Calls E m m' → p m' = q m'

variable {m : Message} {p q : Message → Proc Unit}

omit [JavaChar] in
theorem drawn_builder : Keeps (fun _ => True) (builder E) fun b => ∃ k, b = E.blank k :=
  fun s _ => ⟨trivial, fun b hb => by cases hb; exact ⟨s.serial, rfl⟩⟩

omit [JavaChar] in
/-- A computation after a part of a message is read. -/
theorem bind_orNullPointer_congr {α β : Type} {m : Message} {o : Option α} {f g : α → Proc β}
    (h : ∀ a, o = some a → f a = g a) : orNullPointer m o >>= f = orNullPointer m o >>= g :=
  bind_congr_keeps (keeps_orNullPointer m o) h

theorem cross_congr (h : Agree E m p q) (htype : m.type ≠ some .INTERNAL_MESSAGE) {u : Option String}
    (hlocal : isLocal E (m.touch.setTo u) = false) :
    processCrossDomainMessage E p (m.touch.setTo u) =
      processCrossDomainMessage E q (m.touch.setTo u) := by
  refine bind_orNullPointer_congr fun c hc => ite_congr rfl (fun ht => absurd ?_ htype) fun _ => ?_
  · rw [MessageOf.type, show m.content = some c from hc]
    exact ht
  · refine bind_congr_keeps drawn_builder fun b hb => bind_orNullPointer_congr fun t _ => ?_
    refine bind_congr_keeps (Rules.keeps_resolveDomainName _) fun d hd => congrArg (Proc.during _) ?_
    obtain ⟨k, hk⟩ := hb
    rw [hk, hd]
    exact h _ (.cross u k c.feature htype hlocal)

section

open CustomGroupMessageProcessor

theorem groupByConnector_congr {m' : Message} {d : GroupMessage}
    (h : ∀ u, processUserAddressNotFound E p u m' d = processUserAddressNotFound E q u m' d)
    (l : List (Option String)) (g : Groups ConnectorUserId) :
    groupByConnector E p m' d l g = groupByConnector E q m' d l g := by
  induction l generalizing g with
  | nil => rfl
  | cons u l ih => simp only [groupByConnector, h, ih]

theorem group_congr (h : Agree E m p q) (htype : m.type = some .GROUP_MESSAGE)
    (hlocal : isLocal E m = true) (m' : Message) :
    (CustomGroupMessageProcessor.processor E p).process m' =
      (CustomGroupMessageProcessor.processor E q).process m' := by
  have huser : ∀ d u, processUserAddressNotFound E p u m' d =
      processUserAddressNotFound E q u m' d := by
    intro d u
    refine bind_orNullPointer_congr fun c _ => bind_orNullPointer_congr fun _ _ => ?_
    refine bind_congr_keeps drawn_builder fun b ⟨k, hk⟩ => congrArg (Proc.during _) ?_
    rw [hk]
    exact h _ (.groupUser m' k u d c htype hlocal)
  refine bind_congr_keeps (keeps_getData _ _) fun data _ => bind_orNullPointer_congr fun d _ =>
    bind_orNullPointer_congr fun users _ => forEach_congr fun domain _ => ?_
  refine ite_congr rfl (fun _ => ?_) fun hdomain => ?_
  · rw [processCurrentDomain, processCurrentDomain, groupByConnector_congr (huser d)]
  · refine bind_orNullPointer_congr fun c _ => bind_orNullPointer_congr fun _ _ => ?_
    refine bind_congr_keeps drawn_builder fun b ⟨k, hk⟩ => congrArg (Proc.during _) ?_
    rw [hk]
    exact h _ (.groupOther m' k domain _ d c htype hlocal (Bool.not_eq_true _ ▸ hdomain))

end

theorem presence_congr (h : Agree E m p q) (htype : IsPresence m) (hrounds : 0 < roundsLeft m)
    (view : Data → Option (Option String))
    (operation : Option String → Option Address → Message → Proc Unit) (u : Option String) :
    (presenceProcessor E view operation p).process (m.touch.setTo u) =
      (presenceProcessor E view operation q).process (m.touch.setTo u) := by
  have hmaster : ∀ userId, sendMessageToMasterUser E p (m.touch.setTo u) userId =
      sendMessageToMasterUser E q (m.touch.setTo u) userId := by
    intro userId
    rw [sendMessageToMasterUser, sendMessageToMasterUser]
    split
    · rfl
    · exact ite_congr rfl (fun _ => h _ (.master _ htype hrounds)) fun _ => rfl
  refine bind_congr_keeps (keeps_getData _ _) fun data _ => ?_
  simp only [presenceProcessor, hmaster]

theorem report_congr (h : Agree E m p q) (htype : m.type = some .MESSAGE_STATE_CHANGED) (m' : Message) :
    (MessageStateChangedMessageProcessor.processor E p).process m' =
      (MessageStateChangedMessageProcessor.processor E q).process m' := by
  have hconfirm : ∀ msg, MessageStateChangedMessageProcessor.sendConfirmationMessageToSender E p msg =
      MessageStateChangedMessageProcessor.sendConfirmationMessageToSender E q msg := by
    intro msg
    refine bind_orNullPointer_congr fun c _ => ite_congr rfl (fun _ => rfl) fun _ =>
      bind_orNullPointer_congr fun enabled _ => ite_congr rfl (fun _ => ?_) fun _ => rfl
    refine bind_congr_keeps drawn_builder fun b ⟨k, hk⟩ => ?_
    rw [hk]
    exact h _ (.confirm msg k htype)
  refine bind_congr_keeps (keeps_getData _ _) fun data _ => ?_
  simp only [MessageStateChangedMessageProcessor.processor, MessageStateChangedMessageProcessor.report,
    hconfirm]

theorem internal_congr (h : Agree E m p q) (htype : m.type = some .INTERNAL_MESSAGE) {u : Option String}
    (hu : u = m.to_ ∨ isBlank m.to_ = true) :
    (InternalMessageProcessor.processor E p).process (m.touch.setTo u) =
      (InternalMessageProcessor.processor E q).process (m.touch.setTo u) := by
  refine bind_congr_keeps (keeps_getData _ _) fun _ _ =>
    bind_congr_keeps (Rules.keeps_isCurrentDomainMessage _) fun here hhere =>
      ite_congr rfl (fun h' => ?_) fun _ => rfl
  have hlocal : isLocal E m = true := by
    rcases hu with rfl | hblank
    · rw [← isLocal_touch]
      exact hhere.symm.trans h'
    · rw [isLocal, hblank, Bool.true_or]
  have hinner : Keeps (fun _ => True) (InternalMessageProcessor.innerMessage (m.touch.setTo u))
      fun i => m.data = .message i := by
    refine (keeps_getData _ _).bind fun data hdata => (keeps_orNullPointer _ _).mono fun i hi => ?_
    exact Data.message?_eq_some.1 (hdata i hi)
  exact bind_congr_keeps hinner fun i hi => congrArg (Proc.during _) (h i (.inner i htype hi hlocal))

/-! ### The calls of `process` -/

/-- A handler that does the same with either calls, on what it has prepared; `U` is what it may set `to`
to. -/
structure Alike (E : Environment) (m : Message) (U : Option String → Prop) (hp hq : MessageProcessor) :
    Prop where
  preprocess : hp.preprocess m.touch = hq.preprocess m.touch
  prepares : Keeps (fun _ => True) (hp.preprocess m.touch) fun m' => ∃ u, U u ∧ m' = m.touch.setTo u
  process : ∀ u, U u → isLocal E (m.touch.setTo u) = true →
    hp.process (m.touch.setTo u) = hq.process (m.touch.setTo u)

variable (E) in
/-- What `processWith` does once it has found the handler. -/
def handle (type : Option MessageType) (p : Message → Proc Unit) (handler : MessageProcessor)
    (m : Message) : Proc Unit := do
  let m ← handler.preprocess m
  if type ≠ some .INTERNAL_MESSAGE then do
    let here ← isCurrentDomainMessage E m
    if here then handler.process m else processCrossDomainMessage E p m
  else handler.process m

theorem handle_congr (h : Agree E m p q) {t : MessageType} (htype : m.type = some t)
    (ht : some t ≠ some MessageType.INTERNAL_MESSAGE) {U : Option String → Prop}
    {hp hq : MessageProcessor} (halike : Alike E m U hp hq) :
    handle E (some t) p hp m.touch = handle E (some t) q hq m.touch := by
  rw [handle, handle, halike.preprocess]
  refine bind_congr_keeps (halike.preprocess ▸ halike.prepares) fun m' ⟨u, hU, hu⟩ => ?_
  rw [hu, if_pos ht, if_pos ht]
  refine bind_congr_keeps (Rules.keeps_isCurrentDomainMessage _) fun here hhere =>
    ite_congr rfl (fun hhere' => ?_) fun hhere' => ?_
  · exact halike.process u hU (hhere.symm.trans hhere')
  · exact cross_congr h (htype ▸ ht) (hhere.symm.trans (Bool.not_eq_true _ ▸ hhere'))

theorem handle_internal_congr (h : Agree E m p q) (htype : m.type = some .INTERNAL_MESSAGE) :
    handle E (some .INTERNAL_MESSAGE) p (InternalMessageProcessor.processor E p) m.touch =
      handle E (some .INTERNAL_MESSAGE) q (InternalMessageProcessor.processor E q) m.touch := by
  have hprepares : Keeps (fun _ => True) ((InternalMessageProcessor.processor E p).preprocess m.touch)
      fun m' => ∃ u, (u = m.to_ ∨ isBlank m.to_ = true) ∧ m' = m.touch.setTo u := by
    refine (keeps_getData _ _).bind fun _ _ => .ite (fun hblank => ?_) fun _ => .pure ⟨_, .inl rfl, rfl⟩
    have hinner : Keeps (fun _ => True) (InternalMessageProcessor.innerMessage m.touch) fun _ => True :=
      (keeps_getData _ _).bind fun _ _ => (keeps_orNullPointer _ _).mono fun _ _ => trivial
    exact hinner.bind fun i _ => .pure ⟨_, .inr hblank, rfl⟩
  refine bind_congr_keeps hprepares fun m' ⟨u, hu, hm'⟩ => ?_
  rw [hm']
  exact internal_congr h htype hu

/-- A handler without a preprocessing of its own leaves the message alone. -/
theorem alike_of_default {view : Data → Option α} {f g : Message → Option α → Proc Unit}
    (h : isLocal E m = true → (MessageProcessor.process ⟨view, fun m _ => pure m, f⟩ m.touch) =
      MessageProcessor.process ⟨view, fun m _ => pure m, g⟩ m.touch) :
    Alike E m (· = m.to_) ⟨view, fun m _ => pure m, f⟩ ⟨view, fun m _ => pure m, g⟩ where
  preprocess := rfl
  prepares := (keeps_getData _ _).bind fun _ _ => .pure ⟨_, rfl, rfl⟩
  process u hu hlocal := by
    subst hu
    exact h ((isLocal_touch m).symm.trans hlocal)

/-- A handler that makes no calls. -/
theorem alike_refl {handler : MessageProcessor}
    (h : Keeps (fun _ => True) (handler.preprocess m.touch) fun m' => ∃ u, m' = m.touch.setTo u) :
    Alike E m (fun _ => True) handler handler where
  preprocess := rfl
  prepares := h.mono fun _ ⟨u, hu⟩ => ⟨u, trivial, hu⟩
  process _ _ _ := rfl

omit [JavaChar] in
theorem prepares_default {α : Type} {view : Data → Option α} {f : Message → Option α → Proc Unit} :
    Keeps (fun _ => True) (MessageProcessor.preprocess ⟨view, fun m _ => pure m, f⟩ m.touch)
      fun m' => ∃ u, m' = m.touch.setTo u :=
  (keeps_getData _ _).bind fun _ _ => .pure ⟨_, rfl⟩

/-- What is done with the handler of the type depends on the inner calls only. -/
theorem handled_congr (h : Agree E m p q) (hrounds : 0 < roundsLeft m) :
    (match getMessageProcessor E p m.type with
      | none => pure ()
      | some handler => handle E m.type p handler m.touch) =
    match getMessageProcessor E q m.type with
      | none => pure ()
      | some handler => handle E m.type q handler m.touch := by
  rcases htype : m.type with _ | t
  · rfl
  -- one line for each handler; the other types have none
  cases t with
  | MESSAGE =>
    refine handle_congr h htype (by decide) (alike_refl ?_)
    exact (keeps_getData _ _).bind fun _ _ => (keeps_orNullPointer _ _).bind fun _ _ => .pure ⟨_, rfl⟩
  | CLOSE_CONNECTION =>
    refine handle_congr h htype (by decide) (alike_refl ?_)
    exact (keeps_getData _ _).bind fun _ _ => (keeps_orNullPointer _ _).bind fun _ _ => .pure ⟨_, rfl⟩
  | MESSAGE_CONFIRMATION => exact handle_congr h htype (by decide) (alike_refl prepares_default)
  | AUTH_CLIENT => exact handle_congr h htype (by decide) (alike_refl prepares_default)
  | FETCH_MISSING_MESSAGES_REQUEST =>
    exact handle_congr h htype (by decide) (alike_refl prepares_default)
  | GROUP_MESSAGE =>
    exact handle_congr h htype (by decide)
      (alike_of_default fun hlocal => group_congr h htype hlocal m.touch)
  | USER_CONNECTED =>
    exact handle_congr h htype (by decide)
      (alike_of_default fun _ => presence_congr h (.inl htype) hrounds _ _ m.to_)
  | USER_DISCONNECTED =>
    exact handle_congr h htype (by decide)
      (alike_of_default fun _ => presence_congr h (.inr htype) hrounds _ _ m.to_)
  | MESSAGE_STATE_CHANGED =>
    exact handle_congr h htype (by decide) (alike_of_default fun _ => report_congr h htype m.touch)
  | INTERNAL_MESSAGE => exact handle_internal_congr h htype
  | _ => rfl

/-- **`process` makes these calls only.** -/
theorem processWith_congr : Recursion.Calls (processWith E) (Calls E) := by
  intro p q m h
  refine bind_congr_keeps (Keeps.modify (Q := fun _ => True) (fun _ _ => trivial) trivial) fun _ _ =>
    bind_orNullPointer_congr fun _ _ => bind_orNullPointer_congr fun t ht =>
      ite_congr rfl (fun _ => rfl) fun halive => bind_orNullPointer_congr fun c hc => ?_
  have htype : c.type = m.type := by
    rw [MessageOf.type, show m.content = some c from hc]
    rfl
  have hrounds : 0 < roundsLeft m := by
    obtain ⟨t₀, ht₀, rfl⟩ := Option.map_eq_some_iff.1 ht
    exact roundsLeft_pos_iff.2 ⟨t₀, ht₀, by simpa using halive⟩
  rw [htype]
  exact handled_congr h hrounds

/-- From some height of the stack on, what is at its bottom does not matter. -/
theorem stack_eq_process (E : Environment) (m : Message) (bottom : Message → Proc Unit) (n : ℕ) :
    Recursion.stack (processWith E) bottom (callDepth m + n) m =
      MessageProcessorService.process E m := by
  have hstack : ∀ depth, Processor.process E depth =
      Recursion.stack (processWith E) (fun m => .throw .stackOverflow m) depth := by
    intro depth
    induction depth with
    | zero => rfl
    | succ depth ih =>
      funext m
      rw [Processor.process, ih]
      rfl
  have hrank := rank_le (E := E) m
  rw [MessageProcessorService.process, hstack]
  refine processWith_congr.stack_eq (fun _ _ => rank_lt) _ _ m ?_ ?_
  · unfold callDepth
    omega
  · unfold callDepth
    omega

/-- **Processing ends.**  Whatever is there instead of the call that no longer fits on the stack, it is
not reached on a stack that holds `callDepth m` calls or more. -/
theorem process_terminates (E : Environment) (m : Message) (bottom : Message → Proc Unit) (n : ℕ) :
    Recursion.stack (processWith E) bottom (callDepth m + n) m =
      MessageProcessorService.process E m :=
  stack_eq_process E m bottom n

end

end Linker.Processor.Termination
