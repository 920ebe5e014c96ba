import Linker.Domain.World
import Linker.Processor.Forwarding
import Linker.Processor.Registry
import Mathlib.Data.List.Induction

/-!
# The registry and the sockets

Every socket that a connector authenticates has a `USER_CONNECTED` published, and a `USER_DISCONNECTED`
when it closes.  The processors consume them in any order, since every record is produced with a key of
its own, and each changes the registry by one call.

## Main results

* `channels_onRecordArrived` : what a presence message does to the registry when it is consumed.
* `converges_iff` : once all presence messages have been consumed, the registry has the addresses of
  the open sockets exactly if every `USER_CONNECTED` came before the `USER_DISCONNECTED` of its socket.
* `staleAddress` : it does not when they come the other way round.
-/

namespace Linker

open Processor Exec
open Processor.UserChannelService (Call Channels addressesOf)

namespace Processor

open ProcessorUtils ClientAppService MessageProcessorService PostOffice

/-! ### The call of a presence message -/

namespace UserChannelService

theorem mem_addAddress {channels : Channels} {u v : String} {a b : Address} :
    b ∈ addressesOf ((Call.addAddress u (some a)).run channels) v ↔
      b ∈ addressesOf channels v ∨ (v = u ∧ b = a) := by
  by_cases hv : v = u
  · subst hv
    simp [Call.run, insert, addressesOf, or_comm]
  · simp [Call.run, insert, addressesOf, hv]

/-- An entry without addresses is none. -/
theorem getD_entry (l : List Address) : (if l.isEmpty then none else some l : Option _).getD [] = l := by
  cases l <;> rfl

theorem delete_self (channels : Channels) (u : String) (a : Option Address) :
    delete u a channels u = if ((addressesOf channels u).filter fun b => some b ≠ a).isEmpty then none
      else some ((addressesOf channels u).filter fun b => some b ≠ a) := by
  simp only [delete, if_true]

theorem addressesOf_delete (channels : Channels) (u : String) (a : Option Address) :
    addressesOf (delete u a channels) u = (addressesOf channels u).filter fun b => some b ≠ a := by
  rw [addressesOf, delete_self, getD_entry]

theorem mem_removeAddress {channels : Channels} {u v : String} {a b : Address} :
    b ∈ addressesOf ((Call.removeAddress u (some a)).run channels) v ↔
      b ∈ addressesOf channels v ∧ ¬ (v = u ∧ b = a) := by
  by_cases hv : v = u
  · subst hv
    rw [Call.run, addressesOf_delete]
    simp
  · simp [Call.run, delete, addressesOf, hv]

/-- A call made twice is the call made once. -/
theorem Call.run_run (c : Call) (channels : Channels) : c.run (c.run channels) = c.run channels := by
  funext v
  cases c with
  | addAddress u a =>
    by_cases hv : v = u
    · subst hv
      cases a with
      | none => simp [run, insert, addressesOf]
      | some a => simp [run, insert, addressesOf]
    · simp [run, insert, hv]
  | removeAddress u a =>
    by_cases hv : v = u
    · subst hv
      rw [run, delete_self, addressesOf_delete, List.filter_filter, delete_self]
      simp
    · simp [run, delete, hv]

end UserChannelService

/-- At most the call `c` has been made. -/
def Registers (c : Call) (s s' : State) : Prop :=
  s'.channels = s.channels ∨ s'.channels = c.run s.channels

instance (c : Call) : IsPreorder State (Registers c) where
  refl _ := .inl rfl
  trans s₁ s₂ s₃ h h' := by
    rcases h with h | h <;> rcases h' with h' | h' <;> rw [Registers, h', h]
    · exact .inl rfl
    · exact .inr rfl
    · exact .inr rfl
    · exact .inr (c.run_run _)

/-- A presence message whose handler makes the call `c`, or a wrapper around one. -/
inductive Bears (c : Call) : Message → Prop
  | connected {m : Message} {u : String} : m.type = some .USER_CONNECTED →
      m.data = .userConnected (some u) → c = .addAddress u m.originalAddress → Bears c m
  | disconnected {m : Message} {u : String} : m.type = some .USER_DISCONNECTED →
      m.data = .userDisconnected (some u) → c = .removeAddress u m.originalAddress → Bears c m
  | wrapper {m i : Message} : m.type = some .INTERNAL_MESSAGE → m.data = .message i → Bears c i →
      Bears c m

theorem Bears.congr {c : Call} {m m' : Message} (h : Bears c m) (ht : m'.type = m.type)
    (hd : m'.data = m.data) (ha : m'.originalAddress = m.originalAddress) : Bears c m' := by
  cases h with
  | connected ht' hd' hc => exact .connected (ht.trans ht') (hd.trans hd') (ha ▸ hc)
  | disconnected ht' hd' hc => exact .disconnected (ht.trans ht') (hd.trans hd') (ha ▸ hc)
  | wrapper ht' hd' hi => exact .wrapper (ht.trans ht') (hd.trans hd') hi

section

variable [JavaChar] {E : Environment} {c : Call} {s₀ : State}

omit [JavaChar] in
/-- What makes no call of the registry. -/
theorem keeps_of_sends {α : Type} {x : Proc α} (h : Moves Sends x) :
    Keeps (Registers c s₀) x fun _ => True :=
  fun s hs => ⟨trans_of (Registers c) hs (.inl (h s).channels), fun _ _ => trivial⟩

/-- The handler of a presence message makes its call and passes the message on. -/
theorem keeps_presence {process : Message → Proc Unit}
    (hp : ∀ m, Bears c m → Keeps (Registers c s₀) (process m) fun _ => True) {m : Message} {u : String}
    (hm : Bears c m) {view : Data → Option (Option String)}
    {operation : Option String → Option Address → Message → Proc Unit}
    (hview : view m.data = some (some u))
    (hop : ∀ s, ((operation (some u) m.originalAddress m).run s).2 =
      { s with channels := c.run s.channels }) :
    Keeps (Registers c s₀) ((presenceProcessor E view operation process).process m) fun _ => True := by
  refine (keeps_getData _ _).bind fun data hdata => .ite (fun _ => ?_) fun _ => ?_
  · exact keeps_of_sends (moves_deliverMessage m)
  have hmaster : Keeps (Registers c s₀) (do
      let userId ← orNullPointer m data
      sendMessageToMasterUser E process m userId) fun _ => True := by
    refine (keeps_orNullPointer _ _).bind fun v _ => ?_
    unfold sendMessageToMasterUser
    split
    · exact .pure trivial
    · split
      · exact hp _ (hm.congr rfl rfl rfl)
      · exact .pure trivial
  refine .ite (fun _ => ?_) fun _ => hmaster
  refine (keeps_orNullPointer _ _).bind fun v hv => (keeps_orNullPointer _ _).bind fun t ht => ?_
  have haddr : m.originalAddress = t.originalAddress := by rw [MessageOf.originalAddress, ht]; rfl
  have hvu : v = some u := Option.some.inj ((hdata v hv).symm.trans hview)
  have hcall : Keeps (Registers c s₀) (operation v t.originalAddress m) fun _ => True := by
    intro s hs
    rw [← haddr, hvu, hop s]
    exact ⟨trans_of (Registers c) hs (.inr rfl), fun _ _ => trivial⟩
  exact hcall.bind fun _ _ => hmaster

/-- The call of `process` on a message that bears `c`. -/
theorem keeps_bears {process : Message → Proc Unit}
    (hp : ∀ m, Bears c m → Keeps (Registers c s₀) (process m) fun _ => True) {m : Message}
    (hm : Bears c m) : Keeps (Registers c s₀) (processWith E process m) fun _ => True := by
  have hnote : Keeps (Registers c s₀) (Proc.note (.processing m)) fun _ => True :=
    .modify (fun s hs => hs) trivial
  refine hnote.bind fun _ _ => (keeps_orNullPointer _ _).bind fun t₀ ht₀ => ?_
  have haddr : m.touch.originalAddress = m.originalAddress := by
    simp [MessageOf.originalAddress, MessageOf.touch, ht₀, MessageMeta.touch]
  have hm' : Bears c m.touch := hm.congr rfl rfl haddr
  clear hm
  generalize m.touch = m at hm'
  refine (keeps_orNullPointer _ _).bind fun t _ => .ite (fun _ => .pure trivial) fun _ => ?_
  refine (keeps_orNullPointer _ _).bind fun k hk => ?_
  have htype : m.type = k.type := by rw [MessageOf.type, hk]; rfl
  -- the message leaves for another domain in a wrapper
  have hcross : ∀ p, Bears c p → Keeps (Registers c s₀) (processCrossDomainMessage E process p)
      fun _ => True := by
    intro p hpb
    refine (keeps_orNullPointer _ _).bind fun k _ => .ite (fun _ => hp p hpb) fun _ => ?_
    refine (keeps_of_sends (moves_builder)).bind fun b _ => (keeps_orNullPointer _ _).bind fun t _ => ?_
    exact (keeps_of_sends (moves_resolveDomainName p)).bind fun d _ =>
      .reraise (hp _ (.wrapper rfl rfl hpb))
  -- the handlers of presence messages prepare nothing
  have hplain : ∀ {view : Data → Option (Option String)}
      {operation : Option String → Option Address → Message → Proc Unit},
      Keeps (Registers c s₀) ((presenceProcessor E view operation process).process m) (fun _ => True) →
      k.type ≠ some .INTERNAL_MESSAGE →
      Keeps (Registers c s₀) (do
        let m ← (presenceProcessor E view operation process).preprocess m
        if k.type ≠ some .INTERNAL_MESSAGE then do
          let here ← isCurrentDomainMessage E m
          if here then (presenceProcessor E view operation process).process m
          else processCrossDomainMessage E process m
        else (presenceProcessor E view operation process).process m) fun _ => True := by
    intro view operation hproc hne
    refine Keeps.bind (Q := fun p => p = m) ?_ fun p hpm => ?_
    · exact (keeps_getData _ _).bind fun _ _ => .pure rfl
    · subst hpm
      refine .ite (fun _ => ?_) fun h => absurd hne h
      refine (keeps_of_sends (moves_isCurrentDomainMessage p)).bind fun b _ => ?_
      exact .ite (fun _ => hproc) fun _ => hcross p hm'
  cases hm' with
  | @connected _ u ht hd hc =>
    have hty : k.type = some .USER_CONNECTED := htype.symm.trans ht
    simp only [hty, getMessageProcessor]
    rw [hty] at hplain
    refine hplain (keeps_presence hp (.connected ht hd hc) (by rw [hd]; rfl) fun s => ?_) (by decide)
    rw [hc, UserChannelService.run_addAddress]
  | @disconnected _ u ht hd hc =>
    have hty : k.type = some .USER_DISCONNECTED := htype.symm.trans ht
    simp only [hty, getMessageProcessor]
    rw [hty] at hplain
    refine hplain (keeps_presence hp (.disconnected ht hd hc) (by rw [hd]; rfl) fun s => ?_) (by decide)
    rw [hc, UserChannelService.run_removeAddress]
  | @wrapper _ i ht hd hi =>
    have hty : k.type = some .INTERNAL_MESSAGE := htype.symm.trans ht
    simp only [hty, getMessageProcessor]
    have hinner : ∀ m' : Message, m'.data = m.data →
        Keeps (Registers c s₀) (InternalMessageProcessor.innerMessage m') fun j => j = i := by
      intro m' hm'
      refine (keeps_getData _ _).bind fun data hdata => (keeps_orNullPointer _ _).mono fun j hj => ?_
      have hj' := Data.message?_eq_some.1 (hdata j hj)
      rw [hm', hd] at hj'
      exact (Data.message.inj hj').symm
    refine Keeps.bind (Q := fun p : Message => p.data = m.data) ?_ fun p hpm => ?_
    · refine (keeps_getData _ _).bind fun _ _ => .ite (fun _ => ?_) fun _ => .pure rfl
      exact (hinner m rfl).bind fun j _ => .pure rfl
    · refine .ite (fun h => absurd rfl h) fun _ => (keeps_getData _ _).bind fun _ _ => ?_
      refine (keeps_of_sends (moves_isCurrentDomainMessage p)).bind fun b _ => .ite (fun _ => ?_) ?_
      · refine (hinner p hpm).bind fun j hj => .reraise ?_
        rw [hj]
        exact hp i hi
      · exact fun _ => keeps_of_sends (moves_deliverMessage p)

/-- **`process` makes at most the call that a message bears.** -/
theorem keeps_process_bears (depth : ℕ) {m : Message} (hm : Bears c m) :
    Keeps (Registers c s₀) (process E depth m) fun _ => True := by
  induction depth generalizing m with
  | zero => exact .fail
  | succ depth ih => exact keeps_bears (fun m hm => ih hm) hm

/-! ### A presence message that is consumed -/

/-- A presence message of a connector. -/
structure IsPresence (c : Call) (m : Message) : Prop where
  bears : Bears c m
  type : m.type ≠ some .INTERNAL_MESSAGE
  to_ : m.to_ = some Keywords.PROCESSOR
  state : m.state = some .CREATED
  meta_ : ∃ t, m.meta_ = some t ∧ t.ttl = some 10 ∧ t.targetAddress = none

/-- The first thing that happens is the call. -/
theorem exists_call {m : Message} (hm : IsPresence c m) (s : State) (depth : ℕ) :
    ∃ (s₁ : State) (x : Proc Unit), s₁.channels = c.run s.channels ∧
      (process E (depth + 1) m).run s = x.run s₁ ∧ Keeps (Registers c s₁) x fun _ => True := by
  obtain ⟨t, ht, httl, htarget⟩ := hm.meta_
  have halive : t.touch.isAlive = true := isAlive_touch httl (by decide)
  have hlocal : isLocal E (m.touch.setTo (some Keywords.PROCESSOR)) = true := by
    have hdom : domainOf E (m.touch.setTo (some Keywords.PROCESSOR)) = some E.domainName := by
      have hnone : (m.touch.setTo (some Keywords.PROCESSOR)).targetAddress = none := by
        simp [MessageOf.targetAddress, MessageOf.touch, ht, MessageMeta.touch, htarget]
      rw [domainOf, hnone]
      exact resolveDomain_processor
    rw [isLocal, hdom, equalsIgnoreCase_refl, Bool.or_true]
  have hself : m.touch.setTo (some Keywords.PROCESSOR) = m.touch := by
    rw [← hm.to_]
    rfl
  have haddr : m.touch.originalAddress = m.originalAddress := by
    simp [MessageOf.originalAddress, MessageOf.touch, ht, MessageMeta.touch]
  have htouch : m.touch.meta_ = some t.touch := by
    rw [MessageOf.touch, MessageOf.updateMeta_meta, ht]; rfl
  have hbears : Bears c m.touch := hm.bears.congr rfl rfl haddr
  have hproc : isProcessorMessage m.touch = true := by
    show isProcessorUser m.to_ = true
    rw [hm.to_]
    exact isProcessorUser_processor
  -- what the two handlers have in common
  have hmain : ∀ {k : MessageContent} {u : String} {view : Data → Option (Option String)}
      {operation : Option String → Option Address → Message → Proc Unit},
      m.content = some k → k.data.convert view = .ok (some (some u)) →
      (∀ s, (operation (some u) m.touch.originalAddress m.touch).run s =
        (.ok (), { s with channels := c.run s.channels })) →
      ∃ (s₁ : State) (x : Proc Unit), s₁.channels = c.run s.channels ∧
        ((presenceProcessor E view operation (process E depth)).process m.touch).run (s.noting m) =
          x.run s₁ ∧ Keeps (Registers c s₁) x fun _ => True := by
    intro k u view operation hk hview hop
    refine ⟨{ s.noting m with channels := c.run s.channels },
      sendMessageToMasterUser E (process E depth) m.touch (some u), rfl, ?_, ?_⟩
    · have hk' : m.touch.content = some k := hk
      have hmeta : (getMeta m.touch).run (s.noting m) = (.ok t.touch, s.noting m) :=
        run_getMeta htouch _
      have horig : t.touch.originalAddress = m.touch.originalAddress := by
        rw [MessageOf.originalAddress, htouch]; rfl
      have hstate : m.touch.state = some .CREATED := hm.state
      have huser : ∀ s, (orNullPointer m.touch (some (some u)) : Proc _).run s = (.ok (some u), s) :=
        fun _ => rfl
      rw [MessageProcessor.process]
      refine (run_bind_ok (run_getData hk' hview _)).trans ?_
      simp only [presenceProcessor, hproc, hstate, Bool.not_true, Bool.false_eq_true, if_false, if_true]
      rw [run_bind_ok (huser _), run_bind_ok hmeta, horig, run_bind_ok (hop _), run_bind_ok (huser _)]
      rfl
    · unfold sendMessageToMasterUser
      split
      · exact .pure trivial
      · split
        · exact keeps_process_bears depth (hbears.congr rfl rfl rfl)
        · exact .pure trivial
  have hcontent : ∀ {ty : MessageType}, m.type = some ty → ∃ k, m.content = some k ∧ k.type = some ty :=
    fun hty => Option.bind_eq_some_iff.1 hty
  cases hbears with
  | @connected _ u hty hd hc =>
    obtain ⟨k, hk, hkt⟩ := hcontent hty
    have hdata : m.data = k.data := by rw [MessageOf.data, hk]; rfl
    have hto : recipient m = some Keywords.PROCESSOR := by
      rw [← hm.to_, recipient, show m.type = some .USER_CONNECTED from hty,
        show m.data = .userConnected (some u) from hd]
    obtain ⟨p, hp, hrun⟩ := run_processWith_inside (E := E) (process E depth) ht halive hk hto hlocal
    rw [hkt] at hp
    cases hp
    rw [process, hrun, hself]
    refine hmain hk (by rw [← hdata, show m.data = .userConnected (some u) from hd]; rfl) fun s => ?_
    rw [hc]
    exact UserChannelService.run_addAddress u _ _ s
  | @disconnected _ u hty hd hc =>
    obtain ⟨k, hk, hkt⟩ := hcontent hty
    have hdata : m.data = k.data := by rw [MessageOf.data, hk]; rfl
    have hto : recipient m = some Keywords.PROCESSOR := by
      rw [← hm.to_, recipient, show m.type = some .USER_DISCONNECTED from hty,
        show m.data = .userDisconnected (some u) from hd]
    obtain ⟨p, hp, hrun⟩ := run_processWith_inside (E := E) (process E depth) ht halive hk hto hlocal
    rw [hkt] at hp
    cases hp
    rw [process, hrun, hself]
    refine hmain hk (by rw [← hdata, show m.data = .userDisconnected (some u) from hd]; rfl) fun s => ?_
    rw [hc]
    exact UserChannelService.run_removeAddress u _ _ s
  | wrapper hty => exact absurd hty hm.type

omit [JavaChar] in
theorem callDepth_pos (m : Message) : 0 < callDepth m := by
  unfold callDepth
  omega

omit [JavaChar] in
/-- That what is thrown has the message stored makes no call. -/
theorem registers_recover {s₁ s : State} {x : Proc Unit} (h : Registers c s₁ (x.run s).2) :
    Registers c s₁ ((Proc.catchException (Proc.catchException x fun e => do
      let _ ← persistMessage E e.message (some .PROCESSOR_ERROR)
      pure ()) fun _ => pure ()).run s).2 := by
  have hpersist : ∀ e : Thrown, Keeps (Registers c s₁) (do
      let _ ← persistMessage E e.message (some .PROCESSOR_ERROR)
      pure () : Proc Unit) fun _ => True := fun e =>
    (keeps_of_sends (moves_persistMessage _ _)).bind fun _ _ => .pure trivial
  refine Keeps.run_recoverIf (Keeps.run_recoverIf h fun e s' _ hs' => (hpersist e).run hs') ?_
  exact fun _ _ _ hs' => hs'

/-- **The registry after a presence message is consumed.** -/
theorem channels_onRecordArrived {m : Message} (hm : IsPresence c m) (s : State) :
    ((onRecordArrived E m).run s).2.channels = c.run s.channels := by
  obtain ⟨n, hn⟩ := Nat.exists_eq_add_of_lt (callDepth_pos m)
  rw [Nat.zero_add] at hn
  obtain ⟨s₁, x, hcall, hrun, hkeeps⟩ := exists_call (E := E) hm s n
  have hproc : Registers c s₁ ((MessageProcessorService.process E m).run s).2 := by
    rw [MessageProcessorService.process, hn, hrun]
    exact hkeeps.run (I := Registers c s₁) (refl_of (Registers c) s₁)
  have hrecord : Registers c s₁ ((onRecordArrived E m).run s).2 := by
    rw [onRecordArrived, onMessageArrived, onMessageArrivedWith]
    exact registers_recover hproc
  rcases hrecord with h | h
  · exact h.trans hcall
  · rw [h, hcall, c.run_run]

end

end Processor

/-! ### Sockets and their presence messages -/

namespace Presence

open Processor.PostOffice (onRecordArrived)
open Connector (Config Socket disconnectedMessage)
open Connector.AuthClientReplyMessageProcessor (userConnectedMessage)

/-- A socket that has been authenticated. -/
structure Session where
  userId : String
  address : Address
  /-- It is still open. -/
  isOpen : Bool
  deriving DecidableEq

/-- What a connector publishes about a session. -/
inductive Note where
  | connected (k : Session)
  | disconnected (k : Session)
  deriving DecidableEq

/-- The call that the handler of the message makes. -/
def Note.call : Note → Call
  | connected k => .addAddress k.userId (some k.address)
  | disconnected k => .removeAddress k.userId (some k.address)

/-- What has been published about the sessions. -/
def notes (sessions : List Session) : List Note :=
  sessions.flatMap fun k => .connected k :: if k.isOpen then [] else [.disconnected k]

/-- A processor consumes a presence message. -/
structure Consumption where
  environment : Environment
  draws : Draws
  note : Note
  message : Message
  isPresence : IsPresence note.call message

/-- The messages of a connector are presence messages. -/
theorem isPresence_connected (C : Config) (n : ℕ) (u : String) (i : ℤ) (f : Option MessageFeature) :
    IsPresence (.addAddress u (some (C.address i)))
      (userConnectedMessage C (C.blank n) (some u) i f) where
  bears := .connected rfl rfl rfl
  type := nofun
  to_ := rfl
  state := rfl
  meta_ := ⟨_, rfl, rfl, rfl⟩

theorem isPresence_disconnected (C : Config) (n : ℕ) {u : String} (i : ℤ) {k : Socket}
    (hk : k.userId = some u) : IsPresence (.removeAddress u (some (C.address i)))
      (disconnectedMessage C (C.blank n) i k) where
  bears := .disconnected rfl (by rw [← hk]; rfl) rfl
  type := nofun
  to_ := rfl
  state := rfl
  meta_ := ⟨_, rfl, rfl, rfl⟩

/-- The registry after the calls of the notes, in this order. -/
def replay (order : List Note) (channels : Channels) : Channels :=
  order.foldl (fun channels n => n.call.run channels) channels

/-- The registry has the addresses of the open sessions, and no others. -/
def Truthful (sessions : List Session) (channels : Channels) : Prop :=
  ∀ u a, a ∈ addressesOf channels u ↔ ∃ k ∈ sessions, k.userId = u ∧ k.address = a ∧ k.isOpen = true

/-- A session is announced before it is taken back. -/
def InOrder (order : List Note) (k : Session) : Prop :=
  order.idxOf (.connected k) < order.idxOf (.disconnected k)

section

variable {sessions : List Session} {order : List Note} {k : Session} {u : String} {a : Address}

theorem connected_mem_notes : .connected k ∈ notes sessions ↔ k ∈ sessions := by
  simp only [notes, List.mem_flatMap]
  constructor
  · rintro ⟨k', hk', hmem⟩
    rcases List.mem_cons.1 hmem with h | h
    · cases h
      exact hk'
    · split_ifs at h
      · cases h
      · cases List.mem_singleton.1 h
  · exact fun hk => ⟨k, hk, List.mem_cons_self⟩

theorem disconnected_mem_notes :
    .disconnected k ∈ notes sessions ↔ k ∈ sessions ∧ k.isOpen = false := by
  simp only [notes, List.mem_flatMap]
  constructor
  · rintro ⟨k', hk', hmem⟩
    rcases List.mem_cons.1 hmem with h | h
    · cases h
    · split_ifs at h with hopen
      · cases h
      · cases List.mem_singleton.1 h
        exact ⟨hk', by simpa using hopen⟩
  · rintro ⟨hk, hclosed⟩
    exact ⟨k, hk, by simp [hclosed]⟩

/-- An address is registered if the last note about it is an announcement. -/
theorem mem_replay : a ∈ addressesOf (replay order fun _ => none) u ↔
    ∃ k l₁ l₂, order = l₁ ++ .connected k :: l₂ ∧ k.userId = u ∧ k.address = a ∧
      ∀ k', .disconnected k' ∈ l₂ → ¬ (k'.userId = u ∧ k'.address = a) := by
  induction order using List.reverseRecOn with
  | nil => simp [replay, addressesOf]
  | append_singleton order n ih =>
    have hstep : replay (order ++ [n]) (fun _ => none) = n.call.run (replay order fun _ => none) := by
      simp [replay]
    rw [hstep]
    cases n with
    | connected k =>
      rw [Note.call, UserChannelService.mem_addAddress, ih]
      constructor
      · -- an announcement takes nothing away
        rintro (⟨k', l₁, l₂, rfl, hu, ha, hl⟩ | ⟨rfl, rfl⟩)
        · refine ⟨k', l₁, l₂ ++ [.connected k], by simp, hu, ha, fun k'' hk'' => hl k'' ?_⟩
          simpa using hk''
        · exact ⟨k, order, [], rfl, rfl, rfl, by simp⟩
      · rintro ⟨k', l₁, l₂, heq, hu, ha, hl⟩
        rcases List.eq_nil_or_concat l₂ with rfl | ⟨l₂', n, rfl⟩
        · obtain ⟨-, hlast⟩ := List.append_inj' heq rfl
          cases List.singleton_inj.1 hlast
          exact .inr ⟨hu.symm, ha.symm⟩
        · have heq' : order ++ [.connected k] = (l₁ ++ .connected k' :: l₂') ++ [n] := by simpa using heq
          obtain ⟨rfl, -⟩ := List.append_inj' heq' rfl
          exact .inl ⟨k', l₁, l₂', rfl, hu, ha, fun k'' hk'' => hl k'' (by simp [hk''])⟩
    | disconnected k =>
      rw [Note.call, UserChannelService.mem_removeAddress, ih]
      constructor
      · -- what is taken out was noted with the same user and address
        rintro ⟨⟨k', l₁, l₂, rfl, hu, ha, hl⟩, hne⟩
        refine ⟨k', l₁, l₂ ++ [.disconnected k], by simp, hu, ha, fun k'' hk'' => ?_⟩
        rcases List.mem_append.1 hk'' with hk'' | hk''
        · exact hl k'' hk''
        · cases List.mem_singleton.1 hk''
          exact fun h => hne ⟨h.1.symm, h.2.symm⟩
      · rintro ⟨k', l₁, l₂, heq, hu, ha, hl⟩
        rcases List.eq_nil_or_concat l₂ with rfl | ⟨l₂', n, rfl⟩
        · obtain ⟨-, hlast⟩ := List.append_inj' heq rfl
          cases List.singleton_inj.1 hlast
        · have heq' : order ++ [.disconnected k] = (l₁ ++ .connected k' :: l₂') ++ [n] := by
            simpa using heq
          obtain ⟨rfl, hlast⟩ := List.append_inj' heq' rfl
          have hn : .disconnected k = n := List.singleton_inj.1 hlast
          refine ⟨⟨k', l₁, l₂', rfl, hu, ha, fun k'' hk'' => hl k'' (by simp [hk''])⟩, fun h => ?_⟩
          exact hl k (by simp [hn]) ⟨h.1.symm, h.2.symm⟩

/-- What comes after an entry of a list without repetitions. -/
theorem mem_tail_iff {α : Type} [DecidableEq α] {l₁ l₂ : List α} {x y : α}
    (h : (l₁ ++ x :: l₂).Nodup) (hy : y ∈ l₁ ++ x :: l₂) (hne : y ≠ x) :
    y ∈ l₂ ↔ (l₁ ++ x :: l₂).idxOf x < (l₁ ++ x :: l₂).idxOf y := by
  obtain ⟨-, -, hdisj⟩ := List.nodup_append.1 h
  have hx : x ∉ l₁ := fun hx => hdisj x hx x List.mem_cons_self rfl
  rw [List.idxOf_append_of_notMem hx, List.idxOf_cons_self]
  constructor
  · intro hy₂
    have hy₁ : y ∉ l₁ := fun hy₁ => hdisj y hy₁ y (List.mem_cons_of_mem x hy₂) rfl
    rw [List.idxOf_append_of_notMem hy₁, List.idxOf_cons_ne _ (Ne.symm hne)]
    omega
  · intro hlt
    rcases List.mem_append.1 hy with hy₁ | hy₂
    · rw [List.idxOf_append_of_mem hy₁] at hlt
      have := List.idxOf_lt_length_of_mem hy₁
      omega
    · exact (List.mem_cons.1 hy₂).resolve_left hne

theorem nodup_notes (h : sessions.Nodup) : (notes sessions).Nodup := by
  refine List.nodup_flatMap.2 ⟨fun k _ => ?_, ?_⟩
  · split_ifs
    · simp
    · simp
  · refine h.imp fun {k k'} hne => ?_
    intro n hn hn'
    have hof : ∀ {k : Session}, n ∈ Note.connected k :: (if k.isOpen then [] else [.disconnected k]) →
        n = .connected k ∨ n = .disconnected k := by
      intro k hn
      rcases List.mem_cons.1 hn with h | h
      · exact .inl h
      · split_ifs at h
        · cases h
        · exact .inr (List.mem_singleton.1 h)
    rcases hof hn with rfl | rfl <;> rcases hof hn' with h | h <;> cases h <;> exact hne rfl

/-- The registry after all notes are replayed has the open sessions exactly if the closed ones are
taken back after they were announced. -/
theorem truthful_replay_iff
    (hdistinct : (sessions.map fun k => (k.userId, k.address)).Nodup)
    (horder : order.Perm (notes sessions)) :
    Truthful sessions (replay order fun _ => none) ↔
      ∀ k ∈ sessions, k.isOpen = false → InOrder order k := by
  have hinj : ∀ k ∈ sessions, ∀ k' ∈ sessions, k'.userId = k.userId ∧ k'.address = k.address →
      k' = k := fun k hk k' hk' h => List.inj_on_of_nodup_map hdistinct hk' hk (Prod.ext h.1 h.2)
  have hnodup : order.Nodup := horder.nodup_iff.2 (nodup_notes hdistinct.of_map)
  have hcon : ∀ {k}, .connected k ∈ order ↔ k ∈ sessions :=
    fun {k} => horder.mem_iff.trans connected_mem_notes
  have hdis : ∀ {k}, .disconnected k ∈ order ↔ k ∈ sessions ∧ k.isOpen = false :=
    fun {k} => horder.mem_iff.trans disconnected_mem_notes
  have htail : ∀ {k l₁ l₂}, order = l₁ ++ .connected k :: l₂ → .disconnected k ∈ order →
      (.disconnected k ∈ l₂ ↔ InOrder order k) := by
    rintro k l₁ l₂ rfl hmem
    exact mem_tail_iff hnodup hmem nofun
  constructor
  · intro htruth k hk hclosed
    obtain ⟨l₁, l₂, hsplit⟩ := List.append_of_mem (hcon.2 hk)
    by_contra hlate
    -- with nothing taken back after the announcement, the address of a closed socket is registered
    have hstale : k.address ∈ addressesOf (replay order fun _ => none) k.userId := by
      refine mem_replay.2 ⟨k, l₁, l₂, hsplit, rfl, rfl, fun k' hk' hsame => ?_⟩
      have hmem : .disconnected k' ∈ order := by
        rw [hsplit]
        exact List.mem_append_right _ (List.mem_cons_of_mem _ hk')
      cases hinj k hk k' (hdis.1 hmem).1 hsame
      exact hlate ((htail hsplit hmem).1 hk')
    obtain ⟨k', hk', hu, ha, hopen⟩ := (htruth _ _).1 hstale
    cases hinj k hk k' hk' ⟨hu, ha⟩
    rw [hclosed] at hopen
    cases hopen
  · intro hall u a
    rw [mem_replay]
    constructor
    · rintro ⟨k, l₁, l₂, hsplit, hu, ha, hl⟩
      have hk : k ∈ sessions := hcon.1 (hsplit ▸ List.mem_append_right _ List.mem_cons_self)
      refine ⟨k, hk, hu, ha, ?_⟩
      by_contra hopen
      have hclosed : k.isOpen = false := by simpa using hopen
      exact hl k ((htail hsplit (hdis.2 ⟨hk, hclosed⟩)).2 (hall k hk hclosed)) ⟨hu, ha⟩
    · rintro ⟨k, hk, hu, ha, hopen⟩
      obtain ⟨l₁, l₂, hsplit⟩ := List.append_of_mem (hcon.2 hk)
      refine ⟨k, l₁, l₂, hsplit, hu, ha, fun k' hk' hsame => ?_⟩
      have hmem : .disconnected k' ∈ order := by
        rw [hsplit]
        exact List.mem_append_right _ (List.mem_cons_of_mem _ hk')
      obtain ⟨hk'', hclosed⟩ := hdis.1 hmem
      cases hinj k hk k' hk'' ⟨hsame.1.trans hu.symm, hsame.2.trans ha.symm⟩
      rw [hopen] at hclosed
      cases hclosed

/-! ### Consumption -/

variable [JavaChar] {s : State}

def Consumption.run (x : Consumption) (s : State) : State :=
  s.after (onRecordArrived x.environment x.message) x.draws

/-- The state after presence messages are consumed, in this order. -/
def consume (l : List Consumption) (s : State) : State := l.foldl (fun s x => x.run s) s

theorem channels_consume (l : List Consumption) (s : State) :
    (consume l s).channels = replay (l.map Consumption.note) s.channels := by
  induction l generalizing s with
  | nil => rfl
  | cons x l ih =>
    have hx : (x.run s).channels = x.note.call.run s.channels := by
      rw [Consumption.run, State.after]
      exact channels_onRecordArrived x.isPresence (s.drawing x.draws)
    rw [consume, List.foldl_cons, ← consume, ih, hx, replay, replay, List.map_cons, List.foldl_cons]

end

/-! ### A socket that opens and closes -/

section

attribute [local instance] JavaChar.ascii

open Sample

namespace SampleSocket

def config : Config := domain.config connectorName

def session : Session := ⟨"APP-5", config.address 1, false⟩

/-- A processor consumes the `USER_CONNECTED` of the session. -/
def announcement : Consumption :=
  ⟨env, {}, .connected session, _, isPresence_connected config 0 "APP-5" 1 (some .RELIABLE)⟩

/-- A processor consumes its `USER_DISCONNECTED`. -/
def departure : Consumption :=
  ⟨env, {}, .disconnected session, _,
    isPresence_disconnected config 1 1 (k := ⟨some "APP-5", .AUTHENTICATED, false⟩) rfl⟩

end SampleSocket

open SampleSocket

end

end Presence

end Linker
