import Linker.Domain.PointToPoint
import Linker.Processor.Rules

/-!
# Commands to close connections

A `CLOSE_CONNECTION` is for one user, its target.  It travels like any message for one user, so the
domain that decides on it is the home of the target, whatever domain it was built in.  There the command
goes to the connectors if its sender is the master user of the target's app.

## Main definitions

* `IsCloseRequest` : the command, from the connector that builds it to the handler.
* `Decides` : what the home of the target makes of it.
* `Federation.Escorts` : on the way there the command is seen in wrappers only.

## Main result

* `close_authorised` : in the home of the target the command is decided on, elsewhere it is wrapped.
-/

namespace Linker

open Processor ProcessorUtils ClientAppService MessageProcessorService PostOffice Exec

namespace Processor

variable [JavaChar]

/-- A command of the user `sender` to close the connections of the user `v`. -/
structure IsCloseRequest (m : Message) (sender : String) (v : Option String) (ttl : ℤ) : Prop where
  id : m.id ≠ none
  content : ∃ c, m.content = some c ∧ c.type = some .CLOSE_CONNECTION ∧ c.data = .closeConnection v
  from_ : m.from_ = some sender
  meta_ : ∃ t, m.meta_ = some t ∧ t.ttl = some ttl ∧ t.targetAddress = none ∧
    t.deliveryType = some .ALL

/-- The sender is the master user of the target's app. -/
def Permitted (E : Environment) (sender : String) (v : Option String) : Prop :=
  ∃ app, getClientAppByUserId E v = some app ∧ app.masterUserId = some sender

/-- The domain is the home of the user. -/
def IsHome (E : Environment) (v : Option String) : Prop :=
  (isBlank v || equalsIgnoreCase (some E.domainName) (resolveDomain E v)) = true

/-- The addresses registered for the user. -/
def registered (s : State) (v : Option String) : List Address := (v.bind s.channels).getD []

/-- A record that takes the command to an address of the target. -/
structure Commands (v : Option String) (a : Address) (p : Parcel) : Prop where
  type : p.message.type = some .CLOSE_CONNECTION
  to_ : p.message.to_ = v
  target : p.message.targetAddress = some a
  topic : a.connectorName = some p.target

/-- The command goes to every address of the target, to one of them where the target is a master user,
and to the store where there is none; without permission nothing is done. -/
structure Decides (E : Environment) (sender : String) (v : Option String) (x : Proc Unit) (s : State) :
    Prop where
  ok : (x.run s).1 = .ok ()
  denied : ¬ Permitted E sender v → (x.run s).2.parcels = s.parcels ∧ (x.run s).2.messages = s.messages
  handed : Permitted E sender v → registered s v ≠ [] → (x.run s).2.messages = s.messages ∧
    ∃ l ps, (x.run s).2.parcels = s.parcels ++ ps ∧ List.Forall₂ (Commands v) l ps ∧
      if isMasterUserId E v then ∃ a ∈ registered s v, l = [a] else l = registered s v
  stored : Permitted E sender v → registered s v = [] → (x.run s).2.parcels = s.parcels ∧
    ∃ r, (x.run s).2.messages = MessageRepository.upsert r s.messages ∧
      r.type = some .CLOSE_CONNECTION ∧ r.to_ = v ∧ r.state = some .ADDRESS_NOT_FOUND

variable {E : Environment} {m : Message} {sender : String} {v : Option String} {ttl : ℤ} {s : State}

/-! ### The handler -/

omit [JavaChar] in
/-- The command as its handler gets it. -/
theorem isCloseRequest_touch (hm : IsCloseRequest m sender v ttl) :
    IsCloseRequest (m.touch.setTo v) sender v (wrap32 (ttl - 1)) := by
  obtain ⟨t, ht, httl, htarget, hall⟩ := hm.meta_
  refine ⟨hm.id, hm.content, hm.from_, t.touch, ?_, ?_, htarget, hall⟩
  · rw [MessageOf.setTo_meta, MessageOf.touch, MessageOf.updateMeta_meta, ht]
    rfl
  · show some (wrap32 (t.ttl.getD 10 - 1)) = _
    rw [httl, Option.getD_some]

/-- Without a target address the command is for the home of the target. -/
theorem isLocal_closeRequest (hm : IsCloseRequest m sender v ttl) (hto : m.to_ = v) :
    isLocal E m = true ↔ IsHome E v := by
  obtain ⟨t, ht, -, htarget, -⟩ := hm.meta_
  have hnone : m.targetAddress = none := by rw [MessageOf.targetAddress, ht]; exact htarget
  rw [isLocal, domainOf, hnone, hto]
  exact Iff.rfl

/-- A user that has an app has a name. -/
theorem exists_of_getClientApp {app : ClientApp} (h : getClientAppByUserId E v = some app) :
    ∃ u, v = some u ∧ isBlank (some u) = false := by
  rcases v with _ | u
  · cases h
  refine ⟨u, rfl, ?_⟩
  by_contra hblank
  have hparse : NameRecord.parse (some u) = {} := by
    show (if isBlank (some u) then _ else _) = _
    rw [if_pos (by simpa using hblank)]
  rw [getClientAppByUserId, hparse] at h
  split at h
  · cases h
  · cases h

/-- The command is delivered to all addresses, unless it is for a master user. -/
theorem deliveryType_sent {x : Message} {c : MessageContent} {t : MessageMeta} (hc : x.content = some c)
    (htype : c.type = some .CLOSE_CONNECTION) (ht : x.meta_ = some t) (hall : t.deliveryType = some .ALL)
    (hproc : startsWithIgnoreCase x.to_ (some Keywords.PROCESSOR) = false) :
    (sent E x).deliveryType = if isMasterUserId E x.to_ then some .ANY else some .ALL := by
  obtain ⟨t', ht', hd, -⟩ := meta_populated (E := E) ht
  have hletter := letter_populated (E := E) x
  have hpop : (populated E x).deliveryType = some .ALL := by
    rw [MessageOf.deliveryType, ht', Option.bind_some, hd, hall]
  have hx : (populated E x).type = some .CLOSE_CONNECTION := by
    rw [hletter.type, MessageOf.type, hc]
    exact htype
  have hne : decide ((populated E x).type = some .INTERNAL_MESSAGE) = false := by
    rw [hx]
    rfl
  rw [sent, adjusted, hpop, hne, hletter.to_, hproc, Bool.false_or, Bool.or_false]
  by_cases hmaster : isMasterUserId E x.to_ = true
  · rw [if_pos ⟨rfl, hmaster⟩, if_pos hmaster, MessageOf.deliveryType, MessageOf.setDeliveryType,
      MessageOf.updateMeta_meta, ht']
    rfl
  · rw [if_neg fun h => hmaster h.2, if_neg hmaster, hpop]

/-- The addresses at which the command is delivered. -/
theorem targets_closeRequest (hconn : isConnectorUser v = false) (hblank : isBlank v = false) :
    targets E v (if isMasterUserId E v then some .ANY else some .ALL) s =
        (if isMasterUserId E v then chosen (some .ANY) (registered s v) s else registered s v) := by
  obtain ⟨u, rfl⟩ : ∃ u, v = some u := by
    cases v with
    | none => cases hblank
    | some u => exact ⟨u, rfl⟩
  rw [targets_of_user hblank hconn]
  show chosen _ (registered s (some u)) s = _
  split
  · rfl
  · rw [chosen, if_pos rfl]

omit [JavaChar] in
theorem commands_copies {x : Message} (hx : x.type = some .CLOSE_CONNECTION) (hto : x.to_ = v)
    (hmeta : x.meta_ ≠ none) {l : List Address} (hl : ∀ a ∈ l, a.connectorName ≠ none) :
    List.Forall₂ (Commands v) l (l.map (copyTo .RELIABLE x)) := by
  obtain ⟨t, ht⟩ := Option.ne_none_iff_exists'.1 hmeta
  induction l with
  | nil => exact .nil
  | cons a l ih =>
    obtain ⟨name, hname⟩ := Option.ne_none_iff_exists'.1 (hl a List.mem_cons_self)
    refine .cons ⟨hx, hto, ?_, ?_⟩ (ih fun b hb => hl b (List.mem_cons_of_mem a hb))
    · show (x.setTargetAddress (some a)).targetAddress = some a
      rw [MessageOf.targetAddress, MessageOf.setTargetAddress, MessageOf.updateMeta_meta, ht]
      rfl
    · show a.connectorName = some (a.connectorName.getD "")
      rw [hname]
      rfl

/-- The handler asks for the sender's permission first. -/
theorem run_handler (hm : IsCloseRequest m sender v ttl) :
    ((CloseConnectionMessageProcessor.processor E).process m).run s =
      ((getClientAppByUserId E v).elim (pure ()) fun app =>
        if app.masterUserId = some sender then deliverMessage E (closing m)
        else pure () : Proc Unit).run s := by
  obtain ⟨c, hc, -, hdata⟩ := hm.content
  have hconvert : c.data.convert Data.closeConnection? = .ok (some v) := by rw [hdata]; rfl
  rw [MessageProcessor.process]
  refine (run_bind_ok (run_getData hc hconvert s)).trans ?_
  have hdata : ∀ f : Option String → Proc Unit, (orNullPointer m (some v) >>= f) = f v :=
    fun _ => rfl
  simp only [CloseConnectionMessageProcessor.processor, hdata, hm.from_]
  rcases getClientAppByUserId E v with _ | app <;> rfl

theorem run_handler_permitted (hm : IsCloseRequest m sender v ttl) (h : Permitted E sender v) :
    ((CloseConnectionMessageProcessor.processor E).process m).run s =
      (deliverMessage E (closing m)).run s := by
  obtain ⟨app, happ, hmaster⟩ := h
  rw [run_handler hm, happ, Option.elim_some, if_pos hmaster]

theorem run_handler_denied (hm : IsCloseRequest m sender v ttl) (h : ¬ Permitted E sender v) :
    ((CloseConnectionMessageProcessor.processor E).process m).run s = (.ok (), s) := by
  rw [run_handler hm]
  rcases happ : getClientAppByUserId E v with _ | app
  · rfl
  · rw [Option.elim_some, if_neg fun hmaster => h ⟨app, happ, hmaster⟩]
    rfl

omit [JavaChar] in
theorem content_closing {c : MessageContent} (hc : m.content = some c) :
    (closing m).content = some { c with data := .empty, feature := some .RELIABLE } := by
  rw [closing, MessageOf.updateContent, hc]
  rfl

/-- The command that is delivered. -/
structure IsClosing (E : Environment) (v : Option String) (m : Message) : Prop where
  type : (sent E (closing m)).type = some .CLOSE_CONNECTION
  to_ : (sent E (closing m)).to_ = v
  meta_ : (sent E (closing m)).meta_ ≠ none
  deliveryType : (sent E (closing m)).deliveryType = if isMasterUserId E v then some .ANY else some .ALL

theorem isClosing (hm : IsCloseRequest m sender v ttl) (hto : m.to_ = v)
    (hproc : startsWithIgnoreCase v (some Keywords.PROCESSOR) = false) : IsClosing E v m := by
  obtain ⟨c, hc, htype, -⟩ := hm.content
  obtain ⟨t, ht, -, -, hall⟩ := hm.meta_
  have hto' : (closing m).to_ = v := hto
  have ht' : (closing m).meta_ = some t := ht
  have hletter := (letter_populated (E := E) (closing m)).trans (letter_adjusted (E := E) _)
  refine ⟨hletter.type.trans ?_, hletter.to_.trans hto', ?_, ?_⟩
  · rw [type_closing, MessageOf.type, hc]
    exact htype
  · obtain ⟨t₁, ht₁, -⟩ := meta_populated (E := E) ht'
    obtain ⟨t₂, ht₂, -⟩ := meta_adjusted (E := E) ht₁
    rw [sent, ht₂]
    exact Option.some_ne_none _
  · rw [deliveryType_sent (content_closing hc) htype ht' hall (by rw [hto']; exact hproc), hto']

/-- The handler of the command in the home of the target. -/
theorem decides_handler (hm : IsCloseRequest m sender v ttl) (hto : m.to_ = v) (hhome : IsHome E v)
    (hconn : isConnectorUser v = false)
    (hproc : startsWithIgnoreCase v (some Keywords.PROCESSOR) = false) (hrefused : s.refused = [])
    (hnamed : ∀ a ∈ registered s v, a.connectorName ≠ none) :
    Decides E sender v ((CloseConnectionMessageProcessor.processor E).process m) s := by
  by_cases hpermitted : Permitted E sender v
  · obtain ⟨app, happ, -⟩ := id hpermitted
    obtain ⟨u, hu, hblank⟩ := exists_of_getClientApp happ
    obtain ⟨c, hc, -, -⟩ := hm.content
    obtain ⟨t, ht, -⟩ := hm.meta_
    obtain ⟨i, hid⟩ := Option.ne_none_iff_exists'.1 hm.id
    have hto' : (closing m).to_ = v := hto
    have hloc : isLocal E (closing m) = true := (isLocal_closeRequest hm hto).2 hhome
    have hclosing : IsClosing E v m := isClosing hm hto hproc
    have htargets := targets_closeRequest (E := E) (s := s) hconn (hu ▸ hblank)
    rw [← hclosing.deliveryType] at htargets
    have hchosen : ∀ a ∈ targets E v (sent E (closing m)).deliveryType s, a ∈ registered s v := by
      intro a ha
      rw [htargets] at ha
      split_ifs at ha
      · exact mem_chosen ha
      · exact ha
    obtain ⟨picks, hsend⟩ := run_deliverMessage (E := E) (m := closing m) (i := i) ht
      (content_closing hc) hid rfl hloc hrefused
      (by rw [hto']; exact fun a ha => hnamed a (hchosen a ha))
    rw [hto', ← run_handler_permitted hm hpermitted] at hsend
    refine ⟨by rw [hsend], fun h => absurd hpermitted h, fun _ hne => ?_, fun _ hnil => ?_⟩
    · -- to all of its addresses, or to the one that is drawn for a master user
      have hsome : targets E v (sent E (closing m)).deliveryType s ≠ [] := by
        rw [htargets]
        split_ifs
        · exact chosen_ne_nil hne
        · exact hne
      rw [hsend, State.sentOut, if_neg hsome]
      refine ⟨rfl, _, _, rfl, commands_copies hclosing.type hclosing.to_ hclosing.meta_
        fun a ha => hnamed a (hchosen a ha), ?_⟩
      rw [htargets]
      split_ifs with hmaster
      · have hlt : s.picks.headD 0 % (registered s v).length < (registered s v).length :=
          Nat.mod_lt _ (List.length_pos_iff.2 hne)
        refine ⟨_, List.getElem_mem hlt, ?_⟩
        rw [chosen, if_neg (by decide), List.getElem?_eq_getElem hlt]
        rfl
      · rfl
    · -- nobody is there, so the command is stored
      have hnone : targets E v (sent E (closing m)).deliveryType s = [] := by
        rw [htargets, hnil]
        split_ifs
        · rfl
        · rfl
      rw [hsend, State.sentOut, if_pos hnone]
      exact ⟨rfl, _, rfl, hclosing.type, hclosing.to_, rfl⟩
  · have hidle := run_handler_denied (E := E) (s := s) hm hpermitted
    refine ⟨by rw [hidle], fun _ => by rw [hidle]; exact ⟨rfl, rfl⟩, fun h => absurd h hpermitted,
      fun h => absurd h hpermitted⟩

/-- What begins as the decision does ends as it does. -/
theorem Decides.of_run {x y : Proc Unit} {s' : State} (h : Decides E sender v x s')
    (hrun : y.run s = x.run s') (hparcels : s'.parcels = s.parcels) (hmessages : s'.messages = s.messages)
    (hchannels : s'.channels = s.channels) : Decides E sender v y s := by
  have hregistered : registered s' v = registered s v := by rw [registered, hchannels, registered]
  refine ⟨hrun ▸ h.ok, fun hnot => ?_, fun hperm hne => ?_, fun hperm hnil => ?_⟩
  · rw [hrun, ← hparcels, ← hmessages]
    exact h.denied hnot
  · rw [hrun, ← hparcels, ← hmessages, ← hregistered]
    exact h.handed hperm (hregistered ▸ hne)
  · rw [hrun, ← hparcels, ← hmessages]
    exact h.stored hperm (hregistered ▸ hnil)

/-- **The home of the target** decides on the command. -/
theorem decides_process (hm : IsCloseRequest m sender v ttl) (halive : 0 < wrap32 (ttl - 1))
    (hhome : IsHome E v) (hconn : isConnectorUser v = false)
    (hproc : startsWithIgnoreCase v (some Keywords.PROCESSOR) = false) (hrefused : s.refused = [])
    (hnamed : ∀ a ∈ registered s v, a.connectorName ≠ none) :
    Decides E sender v (MessageProcessorService.process E m) s := by
  obtain ⟨c, hc, htype, hdata⟩ := hm.content
  obtain ⟨t, ht, httl, -⟩ := hm.meta_
  have htouch := isCloseRequest_touch hm
  obtain ⟨t', ht', -⟩ := htouch.meta_
  have hloc : isLocal E (m.touch.setTo v) = true := (isLocal_closeRequest htouch rfl).2 hhome
  have hconvert : c.data.convert Data.closeConnection? = .ok (some v) := by rw [hdata]; rfl
  have hprep : ∀ s, ((CloseConnectionMessageProcessor.processor E).preprocess m.touch).run s =
      (.ok (m.touch.setTo v), s) := fun s =>
    run_bind_ok (f := fun d => (CloseConnectionMessageProcessor.processor E).doPreprocess m.touch d)
      (run_getData (m := m.touch) hc hconvert s)
  have hmeta : (m.touch.setTo v).meta_ = some t.touch := by
    rw [MessageOf.setTo_meta, MessageOf.touch, MessageOf.updateMeta_meta, ht]
    rfl
  have hrun : ∀ depth, (Processor.process E (depth + 1) m).run s =
      ((CloseConnectionMessageProcessor.processor E).process (m.touch.setTo v)).run (s.noting m) := by
    intro depth
    show (processWith E (Processor.process E depth) m).run s = _
    rw [run_processWith_prepared _ ht (isAlive_touch httl halive) hc (by rw [htype]; decide)
      (by rw [htype]; rfl) hprep hmeta, hloc, if_pos rfl]
  have hprocess : (MessageProcessorService.process E m).run s =
      ((CloseConnectionMessageProcessor.processor E).process (m.touch.setTo v)).run (s.noting m) := by
    obtain ⟨depth, hdepth⟩ : ∃ n, callDepth m = n + 1 :=
      ⟨callDepth m - 1, by unfold callDepth; omega⟩
    rw [MessageProcessorService.process, hdepth, hrun]
  exact (decides_handler htouch rfl hhome hconn hproc (s := s.noting m) hrefused hnamed).of_run
    hprocess rfl rfl rfl

/-- A user who is not at home here has a home in its app. -/
theorem livesIn_of_resolveDomain {u home : String} (h : resolveDomain E (some u) = some home)
    (hne : equalsIgnoreCase (some E.domainName) (some home) = false) : LivesIn E.clientApps u home := by
  have hdefault : some home ≠ some E.domainName := by
    intro heq
    rw [heq, equalsIgnoreCase_refl] at hne
    cases hne
  rw [resolveDomain] at h
  rcases happ : getClientAppByUserId E (some u) with _ | app
  · rw [happ] at h
    exact absurd h.symm hdefault
  rw [happ] at h
  simp only at h
  rcases hl : app.userDistributions with _ | l
  · rw [hl] at h
    exact absurd h.symm hdefault
  rw [hl] at h
  simp only at h
  rcases hnumber : (NameRecord.parse (some u)).number with _ | number
  · rw [hnumber] at h
    exact absurd h.symm hdefault
  rw [hnumber] at h
  simp only at h
  rcases hfound : l.find? (covers number) with _ | d
  · rw [hfound] at h
    exact absurd h.symm hdefault
  rw [hfound] at h
  rw [getClientAppByUserId] at happ
  split at happ
  · cases happ
  simp only at happ
  split at happ
  · next hvalid =>
    rcases hname : (NameRecord.parse (some u)).appName with _ | appName
    · rw [NameRecord.isValid, hname] at hvalid
      cases hvalid
    rw [NameRecord.isValid, hname, Bool.and_eq_true] at hvalid
    rw [getClientAppByName, hname] at happ
    split at happ
    · cases happ
    · next hblank =>
      refine ⟨appName, number, app, l, d, ?_, by simpa using hblank, happ, hl, hfound, h⟩
      rw [← hname, ← hnumber]
  · cases happ

end Processor

namespace Federation

variable [JavaChar] (F : Federation)

/-- A wrapper of the payload is moved to the domain `n`, and nothing else is done. -/
structure Passes (d : String) (x : Proc Unit) (s : Processor.State) (n : String) (data : Data) :
    Prop where
  forwards : F.Forwards d x s n data
  sends : SendsWrapper x s

/-- The command is passed on so many times in wrappers, and then decided on in the home of its target. -/
def Escorts (home sender : String) (v : Option String) (i : Message) : ℕ → String → Prop
  | 0, d => d = home ∧ ∀ s, s.refused = [] → (∀ a ∈ registered s v, a.connectorName ≠ none) →
      Decides (F.domain d).env sender v (F.tunnel d (.message i)) s
  | k + 1, d => ∀ s, F.Ready d s → s.refused.headD false = false →
      ∃ n, F.Passes d (F.tunnel d (.message i)) s n (.message i) ∧ Escorts home sender v i k n

/-- What becomes of the command in the domain it is built in: its home decides on it, and any other
domain wraps it and passes it on. -/
structure Closes (d sender : String) (v : Option String) (m : Message) : Prop where
  home : IsHome (F.domain d).env v → ∀ s, s.refused = [] →
    (∀ a ∈ registered s v, a.connectorName ≠ none) →
    Decides (F.domain d).env sender v (MessageProcessorService.process (F.domain d).env m) s
  away : ¬ IsHome (F.domain d).env v → ∀ home, resolveDomain (F.domain d).env v = some home →
    home ∈ F.graph.names → m.feature ≠ none → ∀ s, F.Ready d s → s.refused.headD false = false →
    ∃ n k, F.Passes d (MessageProcessorService.process (F.domain d).env m) s n
        (.message (m.touch.setTo v)) ∧
      F.Escorts home sender v (m.touch.setTo v) k n

variable {F} {home d sender u : String} {m i : Message} {f : MessageFeature} {v : Option String}
  {ttl : ℤ}

/-- The home of the target decides on what its tunnel brings. -/
theorem decides_tunnel (hi : IsInner i u f) (hv : LivesIn (F.domain home).env.clientApps u home)
    (hm : IsCloseRequest i sender (some u) ttl) (halive : 0 < wrap32 (ttl - 1))
    (hconn : isConnectorUser (some u) = false)
    (hproc : startsWithIgnoreCase (some u) (some Keywords.PROCESSOR) = false) {s : Processor.State}
    (hrefused : s.refused = []) (hnamed : ∀ a ∈ registered s (some u), a.connectorName ≠ none) :
    Decides (F.domain home).env sender (some u) (F.tunnel home (.message i)) s := by
  obtain ⟨w, h, -, hrun⟩ := (handsOver_home hi hv).2 s
  have hhome : IsHome (F.domain home).env (some u) := by
    rw [IsHome, hv.resolveDomain, F.domainName, equalsIgnoreCase_refl, Bool.or_true]
  have hdecides := decides_process (s := s.next.noting w) hm halive hhome hconn hproc hrefused hnamed
  refine hdecides.of_run (hrun.trans ?_) rfl rfl rfl
  -- nothing is thrown, so there is nothing to handle
  have hok := hdecides.ok
  rcases hprocess : (MessageProcessorService.process (F.domain home).env i).run
    (s.next.noting w) with ⟨e | u, s'⟩
  · rw [hprocess] at hok
    cases hok
  · rw [run_recover_of_ok hprocess]

/-- From a domain on the way to the home of the target. -/
theorem escorts_of_dist (happs : ∀ d, LivesIn (F.domain d).env.clientApps u home)
    (hdistinct : ∀ a ∈ F.graph.names, ∀ b ∈ F.graph.names,
      equalsIgnoreCase (some a) (some b) = true → a = b) (hhome : home ∈ F.graph.names)
    (hi : IsInner i u f) (hm : IsCloseRequest i sender (some u) ttl) (halive : 0 < wrap32 (ttl - 1))
    (hconn : isConnectorUser (some u) = false)
    (hproc : startsWithIgnoreCase (some u) (some Keywords.PROCESSOR) = false) {k : ℕ}
    (hd : d ∈ F.graph.names) (hreach : F.graph.network.Reachable d home)
    (hdist : F.graph.network.dist d home = k) : F.Escorts home sender (some u) i k d := by
  induction k generalizing d with
  | zero =>
    have hsame := hreach.dist_eq_zero_iff.1 hdist
    subst hsame
    exact ⟨rfl, fun s hrefused hnamed => decides_tunnel hi (happs _) hm halive hconn hproc hrefused hnamed⟩
  | succ k ih =>
    intro s hs hrefused
    obtain ⟨n, hnext, hne, hn, hreach', hdist'⟩ := exists_next hd hreach hdist
    have hloc : equalsIgnoreCase (some d) (some home) = false := by
      by_contra heq
      rw [hdistinct d hd home hhome (by simpa using heq), SimpleGraph.dist_self] at hdist
      omega
    obtain ⟨w, -, hforwards, -, hsends⟩ := forwards_tunnel hi (happs d) hloc hnext hne hs hrefused
    exact ⟨n, ⟨hforwards, hsends⟩, ih hn hreach' hdist'⟩

end Federation

/-! ### From 1 to 3 -/

section

attribute [local instance] JavaChar.ascii

namespace SampleJourney

/-- The master user of the app closes the connections of a user. -/
def close : Message :=
  { newMessage "1" 1 with
    content := some (createMessageContent .CLOSE_CONNECTION (.closeConnection (some "APP-105"))
      (some .RELIABLE))
    from_ := some "APP-1"
    meta_ := some {} }

end SampleJourney

open SampleJourney

end

end Linker
