import Linker.Processor.FanOut
import Linker.Processor.Forwarding

/-!
# Groups that cannot be reached

A group message for several domains is handled group by group.  The message to another domain is
processed within the loop, and what its processing throws leaves the loop: the groups after it are not
served.

* `processOtherDomain_cases` : when the message to another domain can be processed, and that nothing is
  sent or stored where it cannot.
* `independent_iff` : the recipients at home and in the domains that can be reached are served as they
  are without the others, exactly if their groups all come before.
* `unreachableLast_iff` : this condition, read off the message and the registry.
-/

namespace Linker.Processor

open ProcessorUtils ClientAppService MessageProcessorService PostOffice Exec

/-- The registry is as it was. -/
def SameChannels (s s' : State) : Prop := s'.channels = s.channels

instance : IsPreorder State SameChannels where
  refl _ := rfl
  trans _ _ _ h h' := h'.trans h

theorem moves_channels {α : Type} {x : Proc α} (h : Moves Sends x) : Moves SameChannels x :=
  fun s => (h s).channels

namespace CustomGroupMessageProcessor

variable [JavaChar]

/-! ### Another domain -/

/-- The user whom messages to the domain are sent to, `none` where there is no route to it. -/
def routeTo (E : Environment) (domain : Option String) : Option String :=
  E.routes.bind fun next =>
    if isBlank (next domain) then none else some (resolveDomainUserId (next domain))

/-- A message to the recipients in the domain can be sent. -/
structure CanForward (E : Environment) (channels : String → Option (List Address)) (m : Message)
    (domain : Option String) : Prop where
  meta_ : m.meta_ ≠ none
  content : m.content ≠ none
  route : ∃ u, routeTo E domain = some u ∧ (m.feature = none → ¬ HasTarget channels (some u))

variable {E : Environment} {m : Message} {data data' : GroupMessage} {domain : Option String}
  {users : List (Option String)}

/-- The message to the recipients in another domain is wrapped, and the wrapper is delivered; nothing is
saved before. -/
theorem run_processOtherDomain {t : MessageMeta} {c : MessageContent} (ht : m.meta_ = some t)
    (hc : m.content = some c) (haway : equalsIgnoreCase (some E.domainName) domain = false)
    (depth : ℕ) (users : List (Option String)) (data : GroupMessage) (s : State) :
    ∃ w s₁ h, w.type = some .INTERNAL_MESSAGE ∧
      w.data = .message (subMessage (E.blank s.serial) domain users m data c).touch ∧
      Begins s s₁ ∧ (∀ r, .saved r ∈ s₁.journal → .saved r ∈ s.journal) ∧
      (CanDeliver E s.channels w ↔ CanForward E s.channels m domain) ∧
      (processOtherDomain E (Processor.process E (depth + 2)) domain users m data).run s =
        ((deliverMessage E w).reraise h).run s₁ := by
  generalize hi : subMessage (E.blank s.serial) domain users m data c = i
  have hit : i.meta_ = some
      { originalAddress := m.originalAddress, targetAddress := some { domainName := domain } } := by
    rw [← hi]
    rfl
  have hic : i.content = some (createMessageContent .GROUP_MESSAGE
      (.groupMessage ⟨some users, data.content⟩) c.feature) := by rw [← hi]; rfl
  have hito : i.to_ = some Keywords.PROCESSOR := by rw [← hi]; rfl
  have hidom : domainOf E i = domain := by rw [← hi]; rfl
  have hiloc : isLocal E i.touch = false := by
    rw [isLocal_touch, isLocal, hidom, haway, hito, isBlank_processor, Bool.or_false]
  have hgroup : some MessageType.GROUP_MESSAGE ≠ some .INTERNAL_MESSAGE := by decide
  -- the message, and the wrapper it is put in
  have hprep : ∀ s, ((processor E (Processor.process E (depth + 1))).preprocess i.touch).run s =
      (.ok i.touch, s) := by
    intro s
    rw [MessageProcessor.preprocess]
    refine (run_bind_ok (run_getData (m := i.touch) hic rfl s)).trans ?_
    rfl
  have hmeta : i.touch.meta_ = some (MessageMeta.touch
      { originalAddress := m.originalAddress, targetAddress := some { domainName := domain } }) := by
    rw [MessageOf.touch, MessageOf.updateMeta_meta, hit]
    rfl
  have hinner := run_process_away hit (isAlive_touch rfl (by decide)) hic hgroup rfl hprep hmeta hic
    hiloc s.next
  generalize hw : wrapperOf E i.touch (createMessageContent .GROUP_MESSAGE
    (.groupMessage ⟨some users, data.content⟩) c.feature) (s.next.noting i) = w at hinner
  have hwt : w.meta_ = some
      { originalAddress := i.touch.originalAddress,
        targetAddress := some { domainName := domainOf E i.touch } } := by
    rw [← hw]
    rfl
  have hwc : w.content = some (createMessageContent .INTERNAL_MESSAGE (.message i.touch)
      c.feature) := by rw [← hw]; rfl
  have hwdom : domainOf E w.touch = domain := by
    rw [domainOf_touch, ← hw]
    exact (domainOf_touch i).trans hidom
  have hwloc : isLocal E w.touch = false := by
    rw [isLocal_touch, ← hw, isLocal_wrapperOf, hiloc]
  refine ⟨w.touch, (s.next.noting i).next.noting w, fun e => ⟨e.exception, m⟩, ?_, ?_,
    ⟨rfl, rfl, rfl, rfl, rfl⟩, fun r hr => ?_, ?_, ?_⟩
  · rw [MessageOf.type, show w.touch.content = w.content from rfl, hwc]
    rfl
  · rw [MessageOf.data, show w.touch.content = w.content from rfl, hwc]
    rfl
  · have hmem : Entry.saved r ∈ s.journal ++ [.processing i] ++ [.processing w] := hr
    simpa using hmem
  · have hroute : routedTo E w.touch = (routeTo E domain).map some := by
      have htype : w.touch.type = some .INTERNAL_MESSAGE := by
        rw [MessageOf.type, show w.touch.content = w.content from rfl, hwc]
        rfl
      rw [routedTo, hwloc, if_neg Bool.false_ne_true, if_pos htype, hwdom, routeTo]
      rcases E.routes with _ | next
      · rfl
      · simp only [Option.bind_some]
        split <;> rfl
    have hfeature : w.touch.feature = m.feature := by
      rw [MessageOf.feature, show w.touch.content = w.content from rfl, hwc, MessageOf.feature, hc]
      rfl
    constructor
    · rintro ⟨-, -, v, hv, hnone⟩
      rw [hroute] at hv
      obtain ⟨u, hu, rfl⟩ := Option.map_eq_some_iff.1 hv
      exact ⟨by simp [ht], by simp [hc], u, hu, hfeature ▸ hnone⟩
    · rintro ⟨-, -, u, hu, hnone⟩
      refine ⟨?_, ?_, some u, by rw [hroute, hu]; rfl, hfeature ▸ hnone⟩
      · rw [MessageOf.touch, MessageOf.updateMeta_meta, hwt]
        exact Option.some_ne_none _
      · rw [show w.touch.content = w.content from rfl, hwc]
        exact Option.some_ne_none _
  · rw [processOtherDomain, run_bind_ok (run_getContent hc s), run_bind_ok (run_getMeta ht s),
      run_bind_ok (run_builder E s), hi, Proc.during, run_reraise, hinner, run_reraise, run_reraise]
    rcases (deliverMessage E w.touch).run ((s.next.noting i).next.noting w) with ⟨_ | _, _⟩ <;> rfl

/-- **When the message to another domain can be processed**, and what is left where it cannot. -/
theorem processOtherDomain_cases (haway : equalsIgnoreCase (some E.domainName) domain = false)
    (depth : ℕ) (users : List (Option String)) (data : GroupMessage) (s : State) :
    (CanForward E s.channels m domain ∧ ∃ s',
      (processOtherDomain E (Processor.process E (depth + 2)) domain users m data).run s =
        (.ok (), s') ∧ SameChannels s s') ∨
    (¬ CanForward E s.channels m domain ∧ ∃ e s',
      (processOtherDomain E (Processor.process E (depth + 2)) domain users m data).run s =
        (.error e, s') ∧ Begins s s') := by
  have hself : Begins s s := ⟨rfl, rfl, rfl, rfl, rfl⟩
  rcases hc : m.content with _ | c
  · refine .inr ⟨fun h => h.content hc, ⟨.nullPointer, m⟩, s, ?_, hself⟩
    rw [processOtherDomain, getContent, hc]
    rfl
  rcases ht : m.meta_ with _ | t
  · refine .inr ⟨fun h => h.meta_ ht, ⟨.nullPointer, m⟩, s, ?_, hself⟩
    rw [processOtherDomain, run_bind_ok (run_getContent hc s), getMeta, ht]
    rfl
  obtain ⟨w, s₁, h, -, -, hbegins, -, hcan, hrun⟩ := run_processOtherDomain ht hc haway depth users data s
  by_cases hforward : CanForward E s.channels m domain
  · obtain ⟨s', hsend⟩ := exists_run_deliverMessage (E := E) (s := s₁) (hbegins.channels ▸ hcan.2 hforward)
    refine .inl ⟨hforward, s', by rw [hrun, run_reraise_ok hsend], ?_⟩
    have hmoves := (moves_deliverMessage (E := E) w s₁).channels
    rw [hsend] at hmoves
    exact hmoves.trans hbegins.channels
  · obtain ⟨e, picks, hsend⟩ := run_deliverMessage_error (E := E) (s := s₁)
      (hbegins.channels ▸ mt hcan.1 hforward)
    refine .inr ⟨hforward, h e, s₁.picking picks, by rw [hrun, run_reraise, hsend]; rfl, ?_⟩
    exact ⟨hbegins.messages, hbegins.channels, hbegins.parcels, hbegins.httpCalls, hbegins.refused⟩

/-! ### The current domain -/

theorem moves_processConnectorUserMessages (connectorName : Option String)
    (users : List ConnectorUserId) :
    Moves SameChannels (processConnectorUserMessages E connectorName users m data) := by
  refine moves_channels ((moves_orNullPointer _ _).bind fun c => (moves_orNullPointer _ _).bind
    fun _ => moves_builder.bind fun blank => .reraise (moves_deliverMessage _))

/-- The message for a user without address is delivered within the domain. -/
theorem run_processUserAddressNotFound {t : MessageMeta} {c : MessageContent} (ht : m.meta_ = some t)
    (hc : m.content = some c) {toUser : Option String} (hhome : AtHome E toUser) (depth : ℕ)
    (data : GroupMessage) (s : State) :
    ∃ x s₁ h, SameChannels s s₁ ∧
      (CanDeliver E s.channels x ↔ (m.feature = none → ¬ HasTarget s.channels toUser)) ∧
      (processUserAddressNotFound E (Processor.process E (depth + 1)) toUser m data).run s =
        ((deliverMessage E x).reraise h).run s₁ := by
  generalize hi : userMessage (E.blank s.serial) toUser m data c = i
  have hit : i.meta_ = some { originalAddress := m.originalAddress } := by rw [← hi]; rfl
  obtain ⟨c', hic, htype, hdata, hfeature, hflag⟩ : ∃ c', i.content = some c' ∧ c'.type = some .MESSAGE ∧
      c'.data = .messageRequest ⟨toUser, data.content⟩ ∧ c'.feature = c.feature ∧
      c'.confirmationEnabled = some false := by
    rw [← hi]
    exact ⟨_, rfl, rfl, rfl, rfl, rfl⟩
  have hne : c'.type ≠ some .INTERNAL_MESSAGE := by rw [htype]; decide
  have hconvert : c'.data.convert Data.messageRequest? = .ok (some ⟨toUser, data.content⟩) := by
    rw [hdata]
    rfl
  have hprep : ∀ s, ((CustomMessageProcessor.processor E).preprocess i.touch).run s =
      (.ok (i.touch.setTo toUser), s) := by
    intro s
    rw [MessageProcessor.preprocess]
    exact (run_bind_ok (run_getData (m := i.touch) hic hconvert s)).trans rfl
  have hmeta : (i.touch.setTo toUser).meta_ =
      some (MessageMeta.touch { originalAddress := m.originalAddress }) := by
    rw [MessageOf.setTo_meta, MessageOf.touch, MessageOf.updateMeta_meta, hit]
    rfl
  have hloc : isLocal E (i.touch.setTo toUser) = true := by
    have hdom : domainOf E (i.touch.setTo toUser) = resolveDomain E toUser := by
      rw [domainOf, MessageOf.targetAddress, hmeta]
      rfl
    rw [isLocal, hdom, hhome, Bool.or_true]
  have hrun := run_processWith_prepared (E := E) (Processor.process E depth) hit
    (isAlive_touch rfl (by decide)) hic hne (by rw [htype]; rfl) hprep hmeta s.next
  rw [hloc, if_pos rfl] at hrun
  -- what the handler of messages delivers
  generalize hf : (i.touch.setTo toUser).setData (.messageForward ⟨i.from_, data.content⟩) = f
  have hfc : f.content = some { c' with data := .messageForward ⟨i.from_, data.content⟩ } := by
    rw [← hf, MessageOf.setData, MessageOf.updateContent]
    exact congrArg (Option.map _) hic
  have hft : f.meta_ = some (MessageMeta.touch { originalAddress := m.originalAddress }) := by
    rw [← hf]
    exact hmeta
  let x := f.updateMeta fun t => { t with confirmEnabled := false && !isBlank c'.reference }
  have hflagged : (CustomMessageProcessor.updateMessageConfirmationFlag f).run (s.next.noting i) =
      (.ok x, s.next.noting i) := by
    rw [CustomMessageProcessor.updateMessageConfirmationFlag, run_bind_ok (run_getContent hfc _)]
    simp only [hflag]
    exact run_bind_ok (run_getMeta hft _)
  have hdeliver : ((CustomMessageProcessor.processor E).process (i.touch.setTo toUser)).run
      (s.next.noting i) = (deliverMessage E x).run (s.next.noting i) := by
    have hget := run_getData (m := i.touch.setTo toUser) hic hconvert (s.next.noting i)
    refine (run_bind_ok hget).trans ?_
    subst hf
    exact run_bind_ok hflagged
  have hxt : x.meta_ = some { MessageMeta.touch { originalAddress := m.originalAddress } with
      confirmEnabled := false && !isBlank c'.reference } := by
    rw [MessageOf.updateMeta_meta, hft]
    rfl
  have hxto : x.to_ = toUser := by
    show f.to_ = toUser
    rw [← hf]
    rfl
  have hxloc : isLocal E x = true := by
    have hdom : domainOf E x = resolveDomain E toUser := by
      rw [domainOf, MessageOf.targetAddress, hxt, hxto]
      rfl
    rw [isLocal, hdom, hhome, Bool.or_true]
  have hxfeature : x.feature = m.feature := by
    rw [MessageOf.feature, MessageOf.feature, hc, show x.content = f.content from rfl, hfc]
    exact hfeature
  refine ⟨x, s.next.noting i, fun e => ⟨e.exception, m⟩, rfl, ?_, ?_⟩
  · constructor
    · rintro ⟨-, -, v, hv, hnone⟩
      rw [routedTo, if_pos hxloc, hxto] at hv
      cases hv
      exact hxfeature ▸ hnone
    · intro hnone
      exact ⟨by rw [hxt]; exact Option.some_ne_none _, by
        rw [show x.content = f.content from rfl, hfc]; exact Option.some_ne_none _,
        toUser, by rw [routedTo, if_pos hxloc, hxto], hxfeature ▸ hnone⟩
  · rw [processUserAddressNotFound, run_bind_ok (run_getContent hc s), run_bind_ok (run_getMeta ht s),
      run_bind_ok (run_builder E s), hi, Proc.during, run_reraise, run_reraise, ← hdeliver, ← hrun]
    rfl

theorem moves_processUserAddressNotFound {toUser : Option String}
    (hhome : AtHome E toUser) (depth : ℕ) :
    Moves SameChannels
      (processUserAddressNotFound E (Processor.process E (depth + 1)) toUser m data) := by
  intro s
  rcases hc : m.content with _ | c
  · rw [processUserAddressNotFound, getContent, hc]
    rfl
  rcases ht : m.meta_ with _ | t
  · rw [processUserAddressNotFound, run_bind_ok (run_getContent hc s), getMeta, ht]
    rfl
  obtain ⟨x, s₁, h, hs₁, -, hrun⟩ := run_processUserAddressNotFound ht hc hhome depth data s
  rw [hrun]
  exact trans_of SameChannels hs₁ (moves_channels (moves_deliverMessage x).reraise s₁)

theorem moves_groupByConnector (depth : ℕ) {l : List (Option String)} (hhome : ∀ u ∈ l, AtHome E u)
    (g : Groups ConnectorUserId) :
    Moves SameChannels (groupByConnector E (Processor.process E (depth + 1)) m data l g) := by
  induction l generalizing g with
  | nil => exact .pure g
  | cons u l ih =>
    have hrest := fun g => ih (fun v hv => hhome v (List.mem_cons_of_mem u hv)) g
    refine (moves_channels (moves_routeTargetAddresses _ _ _)).bind fun addresses => .ite ?_ (hrest _)
    exact (moves_processUserAddressNotFound (hhome u List.mem_cons_self) depth).bind fun _ => hrest _

theorem moves_processCurrentDomain (depth : ℕ) (hhome : ∀ u ∈ users, AtHome E u) :
    Moves SameChannels (processCurrentDomain E (Processor.process E (depth + 1)) users m data) := by
  refine (moves_groupByConnector depth (fun u hu => ?_) []).bind fun g => .forEach fun name _ => ?_
  · exact hhome u ((E.keyOrder_perm users).mem_iff.1 hu)
  · exact moves_processConnectorUserMessages _ _

/-! ### The loop over the groups -/

variable (E)

/-- The domains of the recipients, as the handler iterates over them. -/
def domains (users : List (Option String)) : List (Option String) :=
  E.keyOrder ((groupByDomain E users).map Prod.fst)

/-- The groups of the recipients, in the given order of their domains. -/
def groups (order users : List (Option String)) : Groups (Option String) :=
  order.map fun domain => (domain, (groupByDomain E users).get domain)

/-- What the loop does with a group. -/
def serve (process : Message → Proc Unit) (m : Message) (data : GroupMessage)
    (g : Option String × List (Option String)) : Proc Unit :=
  if equalsIgnoreCase (some E.domainName) g.1 then processCurrentDomain E process g.2 m data
  else processOtherDomain E process g.1 g.2 m data

/-- The processing of the message to the recipients in the domain, another one, throws. -/
def Unreachable (process : Message → Proc Unit) (m : Message) (data : GroupMessage)
    (users : List (Option String)) (s : State) (domain : Option String) : Prop :=
  equalsIgnoreCase (some E.domainName) domain = false ∧
    ∃ e s', (processOtherDomain E process domain ((groupByDomain E users).get domain) m data).run s =
      (.error e, s')

open Classical in
noncomputable def reaches (process : Message → Proc Unit) (m : Message) (data : GroupMessage)
    (users : List (Option String)) (s : State) (domain : Option String) : Bool :=
  decide (¬ Unreachable E process m data users s domain)

/-- The recipients at home and in the domains that can be reached. -/
noncomputable def reached (process : Message → Proc Unit) (m : Message) (data : GroupMessage)
    (users : List (Option String)) (s : State) : List (Option String) :=
  users.filter fun u => reaches E process m data users s (resolveDomain E u)

/-- The groups of the recipients that are left, in the same order. -/
noncomputable def remaining (process : Message → Proc Unit) (m : Message) (data : GroupMessage)
    (users : List (Option String)) (s : State) : Groups (Option String) :=
  groups E ((domains E users).filter (reaches E process m data users s))
    (reached E process m data users s)

/-- Who lives at home or in a domain that can be reached is served exactly as without the others: the
handler comes to the same groups in the same order, and leaves everything as it is left for them. -/
structure Independent (process : Message → Proc Unit) (m : Message) (users : List (Option String))
    (content : Option String) (s : State) : Prop where
  visits : (visits (serve E process m ⟨some users, content⟩) (groups E (domains E users) users)
      s).filter (fun g => reaches E process m ⟨some users, content⟩ users s g.1) =
    visits (serve E process m ⟨some (reached E process m ⟨some users, content⟩ users s), content⟩)
      (remaining E process m ⟨some users, content⟩ users s) s
  effects : Begins
    ((forEach (serve E process m ⟨some (reached E process m ⟨some users, content⟩ users s), content⟩)
      (remaining E process m ⟨some users, content⟩ users s)).run s).2
    (((processor E process).doProcess m (some ⟨some users, content⟩)).run s).2

/-- Once the handler comes to a domain that cannot be reached, no other group is left to serve. -/
def UnreachableLast (process : Message → Proc Unit) (m : Message) (data : GroupMessage)
    (users : List (Option String)) (s : State) : Prop :=
  ∀ pre g post s', groups E (domains E users) users = pre ++ g :: post →
    (forEach (serve E process m data) pre).run s = (.ok (), s') →
    Unreachable E process m data users s g.1 → ∀ g' ∈ post, Unreachable E process m data users s g'.1

variable {E}

/-- The loop of the handler. -/
theorem run_doProcess (process : Message → Proc Unit) (content : Option String) (s : State) :
    ((processor E process).doProcess m (some ⟨some users, content⟩)).run s =
      (forEach (serve E process m ⟨some users, content⟩) (groups E (domains E users) users)).run s := by
  rw [groups, forEach_map]
  rfl

theorem groupByConnector_congr (process : Message → Proc Unit) (h : data'.content = data.content)
    (l : List (Option String)) (g : Groups ConnectorUserId) :
    groupByConnector E process m data' l g = groupByConnector E process m data l g := by
  have hsingle : ∀ u, processUserAddressNotFound E process u m data' =
      processUserAddressNotFound E process u m data := fun u => by
    simp only [processUserAddressNotFound, userMessage, h]
  induction l generalizing g with
  | nil => rfl
  | cons u l ih =>
    rw [groupByConnector, groupByConnector]
    simp only [ih, hsingle]

/-- What the loop does with a group does not depend on the other recipients. -/
theorem serve_congr (process : Message → Proc Unit) (h : data'.content = data.content) :
    serve E process m data' = serve E process m data := by
  funext g
  have hcurrent : processCurrentDomain E process g.2 m data' =
      processCurrentDomain E process g.2 m data := by
    simp only [processCurrentDomain, groupByConnector_congr process h, processConnectorUserMessages,
      connectorMessage, h]
  have hother : processOtherDomain E process g.1 g.2 m data' =
      processOtherDomain E process g.1 g.2 m data := by
    simp only [processOtherDomain, subMessage, h]
  rw [serve, serve, hcurrent, hother]

/-- A group, given how its members are put into it. -/
theorem get_groupByDomain (users : List (Option String)) (domain : Option String) :
    (groupByDomain E users).get domain =
      (users.filter fun u => resolveDomain E u = domain).foldl (fun g u => g.insert u) [] := by
  induction users using List.reverseRecOn with
  | nil => rfl
  | append_singleton l u ih =>
    have hadd : groupByDomain E (l ++ [u]) = (groupByDomain E l).add (resolveDomain E u) u := by
      rw [groupByDomain, List.foldl_append]
      rfl
    rw [hadd, Groups.get_add, List.filter_append, List.foldl_append]
    by_cases hu : resolveDomain E u = domain
    · rw [if_pos hu.symm, hu, ih]
      simp [hu]
    · rw [if_neg (Ne.symm hu), ih]
      simp [hu]

/-- Leaving out the recipients of some domains leaves the other groups as they are. -/
theorem groups_filter (p : Option String → Bool) (order users : List (Option String)) :
    groups E (order.filter p) (users.filter fun u => p (resolveDomain E u)) =
      (groups E order users).filter fun g => p g.1 := by
  have hget : ∀ domain, p domain = true →
      (groupByDomain E (users.filter fun u => p (resolveDomain E u))).get domain =
        (groupByDomain E users).get domain := by
    intro domain hp
    rw [get_groupByDomain, get_groupByDomain, List.filter_filter]
    congr 1
    refine List.filter_congr fun u _ => ?_
    by_cases hu : resolveDomain E u = domain
    · simp [hu, hp]
    · simp [hu]
  induction order with
  | nil => rfl
  | cons domain order ih =>
    rw [groups] at ih
    by_cases hp : p domain = true
    · rw [List.filter_cons_of_pos hp, groups, List.map_cons, ih, hget domain hp]
      exact (List.filter_cons_of_pos (p := fun g : Option String × List (Option String) => p g.1) hp).symm
    · rw [List.filter_cons_of_neg hp, groups, ih]
      exact (List.filter_cons_of_neg (p := fun g : Option String × List (Option String) => p g.1) hp).symm

theorem mem_groups {order users : List (Option String)} {g : Option String × List (Option String)}
    (h : g ∈ groups E order users) : g.2 = (groupByDomain E users).get g.1 := by
  obtain ⟨domain, -, rfl⟩ := List.mem_map.1 h
  rfl

variable {content : Option String} {s : State} {depth : ℕ}

theorem unreachable_iff : Unreachable E (Processor.process E (depth + 2)) m data users s domain ↔
    equalsIgnoreCase (some E.domainName) domain = false ∧ ¬ CanForward E s.channels m domain := by
  refine and_congr_right fun haway => ?_
  rcases processOtherDomain_cases (m := m) haway depth ((groupByDomain E users).get domain) data s with
    ⟨hcan, s', hrun, -⟩ | ⟨hcan, hrun⟩
  · refine iff_of_false ?_ fun h => h hcan
    rintro ⟨e, s'', herror⟩
    rw [hrun] at herror
    cases herror
  · obtain ⟨e, s', hrun, -⟩ := hrun
    exact iff_of_true ⟨e, s', hrun⟩ hcan

/-- A group leaves the registry as it is. -/
theorem moves_serve {g : Option String × List (Option String)}
    (hg : g ∈ groups E (domains E users) users) :
    Moves SameChannels (serve E (Processor.process E (depth + 2)) m data g) := by
  have hmembers := mem_groups hg
  by_cases hhere : equalsIgnoreCase (some E.domainName) g.1 = true
  · rw [serve, if_pos hhere]
    refine moves_processCurrentDomain (depth + 1) fun u hu => ?_
    rw [hmembers] at hu
    rw [AtHome, (mem_groupByDomain_iff.1 hu).2, hhere]
  · intro s
    rw [serve, if_neg hhere]
    rcases processOtherDomain_cases (m := m) (by simpa using hhere) depth g.2 data s with
      ⟨-, s', hrun, hmoves⟩ | ⟨-, e, s', hrun, hbegins⟩
    · rw [hrun]
      exact hmoves
    · rw [hrun]
      exact hbegins.channels

/-- An unreachable domain throws whenever the handler comes to it. -/
theorem serve_unreachable {g : Option String × List (Option String)}
    (h : Unreachable E (Processor.process E (depth + 2)) m data users s g.1) {s' : State}
    (hs : SameChannels s s') : ∃ e s'',
      (serve E (Processor.process E (depth + 2)) m data g).run s' = (.error e, s'') ∧ Begins s' s'' := by
  obtain ⟨haway, hcan⟩ := unreachable_iff.1 h
  rw [serve, if_neg (by simp [haway])]
  rcases processOtherDomain_cases (m := m) haway depth g.2 data s' with ⟨hcan', -⟩ | ⟨-, hrun⟩
  · have hchannels : s'.channels = s.channels := hs
    rw [hchannels] at hcan'
    exact absurd hcan' hcan
  · exact hrun

theorem serve_reached {process : Message → Proc Unit} :
    serve E process m ⟨some (reached E process m ⟨some users, content⟩ users s), content⟩ =
      serve E process m ⟨some users, content⟩ :=
  serve_congr process rfl

theorem reaches_eq_true {process : Message → Proc Unit} :
    reaches E process m data users s domain = true ↔
      ¬ Unreachable E process m data users s domain := by
  simp [reaches]

/-- The loops over the groups that can be served, up to the first that cannot. -/
theorem channels_forEach {pre : Groups (Option String)} {s' : State} {x : Except Thrown Unit}
    (hsub : ∀ g ∈ pre, g ∈ groups E (domains E users) users)
    (hrun : (forEach (serve E (Processor.process E (depth + 2)) m data) pre).run s = (x, s')) :
    SameChannels s s' := by
  have hmoves : Moves SameChannels (forEach (serve E (Processor.process E (depth + 2)) m data) pre) :=
    .forEach fun g hg => moves_serve (hsub g hg)
  have hend := hmoves s
  rw [hrun] at hend
  exact hend

/-- Without an unreachable domain there is nothing to leave out. -/
theorem remaining_eq (process : Message → Proc Unit) :
    remaining E process m data users s =
      (groups E (domains E users) users).filter fun g => reaches E process m data users s g.1 := by
  rw [remaining, reached, groups_filter]

section

variable {pre post : Groups (Option String)} {g : Option String × List (Option String)} {s' : State}

theorem visits_unreachable
    (hg : Unreachable E (Processor.process E (depth + 2)) m data users s g.1)
    (hs : SameChannels s s') :
    visits (serve E (Processor.process E (depth + 2)) m data) (g :: post) s' = [g] := by
  obtain ⟨e, s'', hrun, -⟩ := serve_unreachable hg hs
  rw [visits, hrun]

/-- A loop that throws nothing has come to no unreachable domain. -/
theorem reaches_of_run (hsub : ∀ g ∈ pre, g ∈ groups E (domains E users) users)
    (hpre : (forEach (serve E (Processor.process E (depth + 2)) m data) pre).run s = (.ok (), s'))
    (hg : g ∈ pre) : ¬ Unreachable E (Processor.process E (depth + 2)) m data users s g.1 := by
  intro hunreachable
  obtain ⟨l, l', rfl⟩ := List.append_of_mem hg
  rcases hl : (forEach (serve E (Processor.process E (depth + 2)) m data) l).run s with ⟨e | _, s₁⟩
  · rw [run_forEach_append_error hl] at hpre
    cases hpre
  · have hs := channels_forEach (fun g hg => hsub g (List.mem_append_left _ hg)) hl
    obtain ⟨e, s₂, hrun, -⟩ := serve_unreachable hunreachable hs
    rw [run_forEach_append hl, run_forEach_cons, run_bind_error hrun] at hpre
    cases hpre

/-- What is behind an unreachable domain is lost. -/
theorem not_independent (hgroups : groups E (domains E users) users = pre ++ g :: post)
    (hpre : (forEach (serve E (Processor.process E (depth + 2)) m ⟨some users, content⟩) pre).run s =
      (.ok (), s'))
    (hg : Unreachable E (Processor.process E (depth + 2)) m ⟨some users, content⟩ users s g.1)
    {g' : Option String × List (Option String)} (hmem : g' ∈ post)
    (hg' : ¬ Unreachable E (Processor.process E (depth + 2)) m ⟨some users, content⟩ users s g'.1) :
    ¬ Independent E (Processor.process E (depth + 2)) m users content s := by
  intro h
  have hsub : ∀ g ∈ pre, g ∈ groups E (domains E users) users := fun g hg => by
    rw [hgroups]
    exact List.mem_append_left _ hg
  have hs := channels_forEach hsub hpre
  have hvisits := h.visits
  rw [remaining_eq, serve_reached, hgroups, visits_append hpre,
    visits_unreachable hg hs, List.filter_append, List.filter_append,
    List.filter_eq_self.2 fun g hg => reaches_eq_true.2 (reaches_of_run hsub hpre hg),
    visits_append hpre, List.filter_cons_of_neg (by rw [reaches_eq_true]; exact not_not.2 hg),
    List.filter_cons_of_neg (by rw [reaches_eq_true]; exact not_not.2 hg)] at hvisits
  -- the group that is lost is still to come once the others are left out
  have hlater := List.append_cancel_left hvisits
  have hleft : g' ∈ post.filter fun g => reaches E (Processor.process E (depth + 2)) m
      ⟨some users, content⟩ users s g.1 := List.mem_filter.2 ⟨hmem, reaches_eq_true.2 hg'⟩
  obtain ⟨g₁, l, hl⟩ := List.exists_cons_of_ne_nil (List.ne_nil_of_mem hleft)
  rw [hl, visits] at hlater
  cases hlater

theorem filter_of_reaches {process : Message → Proc Unit} {l : Groups (Option String)}
    (hl : ∀ g ∈ l, reaches E process m data users s g.1 = true) :
    l.filter (fun g => reaches E process m data users s g.1) = l :=
  List.filter_eq_self.2 hl

/-- Nothing is left out where every domain can be reached. -/
theorem independent_of_reaches
    (hall : ∀ g ∈ groups E (domains E users) users,
      reaches E (Processor.process E (depth + 2)) m ⟨some users, content⟩ users s g.1 = true) :
    Independent E (Processor.process E (depth + 2)) m users content s := by
  constructor
  · rw [remaining_eq, serve_reached, filter_of_reaches hall]
    exact filter_of_reaches fun g hg => hall g (mem_of_mem_visits hg)
  · rw [remaining_eq, serve_reached, filter_of_reaches hall, run_doProcess]
    exact ⟨rfl, rfl, rfl, rfl, rfl⟩

theorem remaining_eq_append {process : Message → Proc Unit}
    (hgroups : groups E (domains E users) users = pre ++ g :: post)
    (hpre : ∀ g ∈ pre, reaches E process m data users s g.1 = true)
    (hg : Unreachable E process m data users s g.1) : remaining E process m data users s =
      pre ++ post.filter fun g => reaches E process m data users s g.1 := by
  rw [remaining_eq, hgroups, List.filter_append, filter_of_reaches hpre,
    List.filter_cons_of_neg (by rw [reaches_eq_true]; exact not_not.2 hg)]

/-- The handler does not come to the unreachable domain. -/
theorem independent_of_error {e : Thrown}
    (hgroups : groups E (domains E users) users = pre ++ g :: post)
    (hpre : ∀ g ∈ pre,
      reaches E (Processor.process E (depth + 2)) m ⟨some users, content⟩ users s g.1 = true)
    (hg : Unreachable E (Processor.process E (depth + 2)) m ⟨some users, content⟩ users s g.1)
    (hrun : (forEach (serve E (Processor.process E (depth + 2)) m ⟨some users, content⟩) pre).run s =
      (.error e, s')) : Independent E (Processor.process E (depth + 2)) m users content s := by
  constructor
  · rw [remaining_eq_append hgroups hpre hg, serve_reached, hgroups, visits_append_error hrun,
      visits_append_error hrun]
    exact filter_of_reaches fun g hg => hpre g (mem_of_mem_visits hg)
  · rw [remaining_eq_append hgroups hpre hg, serve_reached, run_doProcess, hgroups,
      run_forEach_append_error hrun, run_forEach_append_error hrun]
    exact ⟨rfl, rfl, rfl, rfl, rfl⟩

/-- The handler comes to the unreachable domain, and what is behind is unreachable, too. -/
theorem independent_of_post (hgroups : groups E (domains E users) users = pre ++ g :: post)
    (hpre : ∀ g ∈ pre,
      reaches E (Processor.process E (depth + 2)) m ⟨some users, content⟩ users s g.1 = true)
    (hg : Unreachable E (Processor.process E (depth + 2)) m ⟨some users, content⟩ users s g.1)
    (hrun : (forEach (serve E (Processor.process E (depth + 2)) m ⟨some users, content⟩) pre).run s =
      (.ok (), s'))
    (hpost : ∀ g' ∈ post,
      Unreachable E (Processor.process E (depth + 2)) m ⟨some users, content⟩ users s g'.1) :
    Independent E (Processor.process E (depth + 2)) m users content s := by
  have hs : SameChannels s s' := channels_forEach (fun g hg => by
    rw [hgroups]
    exact List.mem_append_left _ hg) hrun
  have hremaining : remaining E (Processor.process E (depth + 2)) m ⟨some users, content⟩ users s =
      pre := by
    rw [remaining_eq_append hgroups hpre hg, List.filter_eq_nil_iff.2, List.append_nil]
    intro g' hg'
    rw [reaches_eq_true]
    exact not_not.2 (hpost g' hg')
  have hself : visits (serve E (Processor.process E (depth + 2)) m ⟨some users, content⟩) pre s =
      pre := by
    have hvisits := visits_append hrun []
    rwa [List.append_nil, visits, List.append_nil] at hvisits
  constructor
  · rw [hremaining, serve_reached, hgroups, visits_append hrun, visits_unreachable hg hs,
      List.filter_append, filter_of_reaches hpre,
      List.filter_cons_of_neg (by rw [reaches_eq_true]; exact not_not.2 hg), hself]
    exact List.append_nil _
  · obtain ⟨e, s'', hthrow, hbegins⟩ := serve_unreachable hg hs
    rw [hremaining, serve_reached, run_doProcess, hgroups, run_forEach_append hrun, hrun,
      run_forEach_cons, run_bind_error hthrow]
    exact hbegins

/-- Nothing is lost where nothing is behind the unreachable domains. -/
theorem independent_of_last (h : UnreachableLast E (Processor.process E (depth + 2)) m
    ⟨some users, content⟩ users s) :
    Independent E (Processor.process E (depth + 2)) m users content s := by
  rcases hfind : (groups E (domains E users) users).find? fun g => !reaches E
    (Processor.process E (depth + 2)) m ⟨some users, content⟩ users s g.1 with _ | g
  · exact independent_of_reaches fun g hg => by simpa using List.find?_eq_none.1 hfind g hg
  obtain ⟨hg, pre, post, hgroups, hpre⟩ := List.find?_eq_some_iff_append.1 hfind
  have hunreachable : Unreachable E (Processor.process E (depth + 2)) m ⟨some users, content⟩ users s
      g.1 := by
    by_contra hcon
    rw [reaches_eq_true.2 hcon] at hg
    cases hg
  have hreaches : ∀ g ∈ pre, reaches E (Processor.process E (depth + 2)) m ⟨some users, content⟩
      users s g.1 = true := fun g hg => by simpa using hpre g hg
  rcases hrun : (forEach (serve E (Processor.process E (depth + 2)) m ⟨some users, content⟩) pre).run s
    with ⟨e | _, s'⟩
  · exact independent_of_error hgroups hreaches hunreachable hrun
  · exact independent_of_post hgroups hreaches hunreachable hrun
      (h pre g post s' hgroups hrun hunreachable)

end

/-- **Independence of unreachable domains**: exactly where their groups come last. -/
theorem independent_iff (depth : ℕ) (m : Message) (users : List (Option String))
    (content : Option String) (s : State) :
    Independent E (Processor.process E (depth + 2)) m users content s ↔
      UnreachableLast E (Processor.process E (depth + 2)) m ⟨some users, content⟩ users s := by
  refine ⟨fun h pre g post s' hgroups hpre hg g' hmem => ?_, independent_of_last⟩
  by_contra hg'
  exact not_independent hgroups hpre hg hmem hg' h

/-! ### The groups that the handler gets past -/

/-- A message for a user without target is processed. -/
theorem returns_processUserAddressNotFound_iff {toUser : Option String} (hhome : AtHome E toUser)
    (depth : ℕ) {s : State} (hnone : ¬ HasTarget s.channels toUser) :
    Returns (processUserAddressNotFound E (Processor.process E (depth + 1)) toUser m data) s ↔
      m.meta_ ≠ none ∧ m.content ≠ none := by
  rcases hc : m.content with _ | c
  · have hrun : (processUserAddressNotFound E (Processor.process E (depth + 1)) toUser m data).run s =
        (.error ⟨.nullPointer, m⟩, s) := by
      rw [processUserAddressNotFound, getContent, hc]
      rfl
    exact iff_of_false (not_returns hrun) fun h => h.2 rfl
  rcases ht : m.meta_ with _ | t
  · have hrun : (processUserAddressNotFound E (Processor.process E (depth + 1)) toUser m data).run s =
        (.error ⟨.nullPointer, m⟩, s) := by
      rw [processUserAddressNotFound, run_bind_ok (run_getContent hc s), getMeta, ht]
      rfl
    exact iff_of_false (not_returns hrun) fun h => h.1 rfl
  obtain ⟨x, s₁, h, hs₁, hcan, hrun⟩ := run_processUserAddressNotFound ht hc hhome depth data s
  have hreturns : Returns ((deliverMessage E x).reraise h) s₁ := by
    rw [returns_reraise_iff, returns_deliverMessage_iff]
    have hchannels : s₁.channels = s.channels := hs₁
    exact hchannels ▸ hcan.2 fun _ => hnone
  refine iff_of_true ?_ ⟨by simp, by simp⟩
  rw [Returns, hrun]
  exact hreturns

/-- The name of a connector of the domain. -/
structure IsConnectorName (E : Environment) (name : Option String) : Prop where
  connector : isConnectorUser name = true
  home : AtHome E name

theorem hasTarget_of_connector {channels : String → Option (List Address)} {name : Option String}
    (h : isConnectorUser name = true) : HasTarget channels name := by
  refine ⟨?_, .inl h⟩
  rw [isConnectorUser, Bool.and_eq_true] at h
  simpa using h.1

/-- A message to a connector is sent unless it has no feature. -/
theorem returns_processConnectorUserMessages_iff {name : Option String} (hname : IsConnectorName E name)
    (users : List ConnectorUserId) (s : State) :
    Returns (processConnectorUserMessages E name users m data) s ↔
      m.meta_ ≠ none ∧ m.content ≠ none ∧ m.feature ≠ none := by
  rcases hc : m.content with _ | c
  · have hrun : (processConnectorUserMessages E name users m data).run s =
        (.error ⟨.nullPointer, m⟩, s) := by
      rw [processConnectorUserMessages, getContent, hc]
      rfl
    exact iff_of_false (not_returns hrun) fun h => h.2.1 rfl
  rcases ht : m.meta_ with _ | t
  · have hrun : (processConnectorUserMessages E name users m data).run s =
        (.error ⟨.nullPointer, m⟩, s) := by
      rw [processConnectorUserMessages, run_bind_ok (run_getContent hc s), getMeta, ht]
      rfl
    exact iff_of_false (not_returns hrun) fun h => h.1 rfl
  generalize hx : connectorMessage (E.blank s.serial) name users m data c = x
  have hrun : (processConnectorUserMessages E name users m data).run s =
      ((deliverMessage E x).reraise fun e => ⟨e.exception, m⟩).run s.next := by
    rw [processConnectorUserMessages, run_bind_ok (run_getContent hc s), run_bind_ok (run_getMeta ht s),
      run_bind_ok (run_builder E s), hx]
    rfl
  have hloc : isLocal E x = true := by
    have hdom : domainOf E x = resolveDomain E name := by rw [← hx]; rfl
    rw [isLocal, hdom, hname.home, Bool.or_true]
  have hto : x.to_ = name := by rw [← hx]; rfl
  have hfeature : x.feature = m.feature := by
    rw [← hx, MessageOf.feature, MessageOf.feature, hc]
    rfl
  have hmeta : x.meta_ ≠ none := by
    rw [← hx]
    exact Option.some_ne_none _
  have hcontent : x.content ≠ none := by
    rw [← hx]
    exact Option.some_ne_none _
  rw [Returns, hrun, ← Returns, returns_reraise_iff, returns_deliverMessage_iff]
  constructor
  · rintro ⟨-, -, v, hv, hnone⟩
    rw [routedTo, if_pos hloc, hto] at hv
    cases hv
    rw [hfeature] at hnone
    exact ⟨by simp, by simp, fun h => hnone h (hasTarget_of_connector hname.connector)⟩
  · rintro ⟨-, -, hne⟩
    refine ⟨hmeta, hcontent, name, by rw [routedTo, if_pos hloc, hto], fun h => ?_⟩
    rw [hfeature] at h
    exact absurd h hne

/-- The registry has addresses at connectors of the domain only. -/
def AtConnectors (E : Environment) (channels : String → Option (List Address)) : Prop :=
  ∀ u, ∀ a ∈ UserChannelService.addressesOf channels u, IsConnectorName E a.connectorName

theorem isConnectorName_of_target {s : State} (hregistry : AtConnectors E s.channels)
    {u : Option String} (hhome : AtHome E u) {d : Option DeliveryType} {a : Address}
    (ha : a ∈ targets E u d s) : IsConnectorName E a.connectorName := by
  by_cases hblank : isBlank u = true
  · rw [targets, if_pos hblank] at ha
    cases ha
  by_cases hconn : isConnectorUser u = true
  · rw [targets, if_neg hblank, if_pos hconn, List.mem_singleton] at ha
    rw [ha]
    exact ⟨hconn, hhome⟩
  · obtain ⟨v, rfl⟩ : ∃ v, u = some v := by
      cases u with
      | none => exact absurd rfl hblank
      | some v => exact ⟨v, rfl⟩
    rw [targets_of_user (by simpa using hblank) (by simpa using hconn)] at ha
    exact hregistry v a (mem_chosen ha)

/-- The loop that looks the users up. -/
theorem groupByConnector_cases (depth : ℕ) {l : List (Option String)} (hhome : ∀ u ∈ l, AtHome E u)
    {s : State} (hregistry : AtConnectors E s.channels) (data : GroupMessage)
    (pairs : List (Option String × ConnectorUserId)) :
    ((∀ u ∈ l, HasTarget s.channels u ∨ m.meta_ ≠ none ∧ m.content ≠ none) ∧ ∃ pairs' s',
      (groupByConnector E (Processor.process E (depth + 1)) m data l (Groups.ofPairs pairs)).run s =
        (.ok (Groups.ofPairs (pairs ++ pairs')), s') ∧ SameChannels s s' ∧
      (∀ p ∈ pairs', IsConnectorName E p.1) ∧
      (pairs' = [] ↔ ∀ u ∈ l, ¬ HasTarget s.channels u)) ∨
    ((∃ u ∈ l, ¬ HasTarget s.channels u ∧ ¬ (m.meta_ ≠ none ∧ m.content ≠ none)) ∧
      ¬ Returns (groupByConnector E (Processor.process E (depth + 1)) m data l
        (Groups.ofPairs pairs)) s) := by
  induction l generalizing s pairs with
  | nil => exact .inl ⟨fun _ hu => (List.not_mem_nil hu).elim, [], s, by rw [List.append_nil]; rfl, rfl,
      fun _ hp => (List.not_mem_nil hp).elim, by simp⟩
  | cons u l ih =>
    have hrest : ∀ v ∈ l, AtHome E v := fun v hv => hhome v (List.mem_cons_of_mem u hv)
    obtain ⟨picks, hlook⟩ := run_routeTargetAddresses (E := E) u
      (some (if isMasterUserId E u then DeliveryType.ANY else .ALL)) m s
    generalize haddresses : targets E u (some (if isMasterUserId E u then DeliveryType.ANY else .ALL)) s =
      addresses at hlook
    by_cases htarget : HasTarget s.channels u
    · have hne : addresses ≠ [] := haddresses ▸ targets_ne_nil_iff.2 htarget
      have hrun : (groupByConnector E (Processor.process E (depth + 1)) m data (u :: l)
          (Groups.ofPairs pairs)).run s = (groupByConnector E (Processor.process E (depth + 1)) m data l
            (Groups.ofPairs (pairs ++ entries u addresses))).run (s.picking picks) := by
        rw [groupByConnector, run_bind_ok hlook, if_neg (by simpa using hne), foldl_entries]
      rcases ih (s := s.picking picks) hrest hregistry (pairs ++ entries u addresses) with
        ⟨hall, pairs', s', hl, hs', hnames, -⟩ | ⟨⟨v, hv, hlost⟩, hnot⟩
      · refine .inl ⟨List.forall_mem_cons.2 ⟨.inl htarget, hall⟩, entries u addresses ++ pairs', s', ?_,
          hs', fun p hp => ?_, ?_⟩
        · rw [hrun, hl, List.append_assoc]
        · rcases List.mem_append.1 hp with hp | hp
          · obtain ⟨a, ha, rfl⟩ := List.mem_map.1 hp
            rw [← haddresses] at ha
            exact isConnectorName_of_target hregistry (hhome u List.mem_cons_self) ha
          · exact hnames p hp
        · refine iff_of_false (fun hnil => hne ?_) fun h => h u List.mem_cons_self htarget
          exact List.map_eq_nil_iff.1 (List.append_eq_nil_iff.1 hnil).1
      · refine .inr ⟨⟨v, List.mem_cons_of_mem u hv, hlost⟩, ?_⟩
        rw [Returns, hrun]
        exact hnot
    · have hnil : addresses = [] := by
        by_contra hne
        exact htarget (targets_ne_nil_iff.1 (haddresses ▸ hne))
      have hrun : (groupByConnector E (Processor.process E (depth + 1)) m data (u :: l)
          (Groups.ofPairs pairs)).run s =
            (processUserAddressNotFound E (Processor.process E (depth + 1)) u m data >>= fun _ =>
              groupByConnector E (Processor.process E (depth + 1)) m data l
                (Groups.ofPairs pairs)).run (s.picking picks) := by
        rw [groupByConnector, run_bind_ok hlook, hnil]
        rfl
      have hsingle : Returns (processUserAddressNotFound E (Processor.process E (depth + 1)) u m data)
          (s.picking picks) ↔ m.meta_ ≠ none ∧ m.content ≠ none :=
        returns_processUserAddressNotFound_iff (hhome u List.mem_cons_self) depth htarget
      by_cases hwhole : m.meta_ ≠ none ∧ m.content ≠ none
      · obtain ⟨_, s₁, hsingle⟩ := hsingle.2 hwhole
        have hs₁ : SameChannels (s.picking picks) s₁ := by
          have hmoves : Moves SameChannels
              (processUserAddressNotFound E (Processor.process E (depth + 1)) u m data) :=
            moves_processUserAddressNotFound (hhome u List.mem_cons_self) depth
          have hmoved := hmoves (s.picking picks)
          rwa [hsingle] at hmoved
        have hchannels : s₁.channels = s.channels := hs₁
        rcases ih (s := s₁) hrest (hchannels ▸ hregistry) pairs with
          ⟨hall, pairs', s', hl, hs', hnames, hnil'⟩ | ⟨⟨v, hv, hlost⟩, hnot⟩
        · rw [hchannels] at hall hnil'
          refine .inl ⟨List.forall_mem_cons.2 ⟨.inr hwhole, hall⟩, pairs', s', ?_,
            trans_of SameChannels hs₁ hs', hnames, ?_⟩
          · rw [hrun, run_bind_ok hsingle, hl]
          · rw [hnil', List.forall_mem_cons]
            exact (and_iff_right htarget).symm
        · exact absurd hwhole hlost.2
      · refine .inr ⟨⟨u, List.mem_cons_self, htarget, hwhole⟩, ?_⟩
        rw [Returns, hrun, ← Returns, returns_bind_iff]
        rintro ⟨_, s₁, hs₁, -⟩
        exact hwhole (hsingle.1 ⟨_, s₁, hs₁⟩)

/-- The messages to recipients at home can be sent. -/
structure CanServe (channels : String → Option (List Address)) (m : Message)
    (users : List (Option String)) : Prop where
  meta_ : m.meta_ ≠ none
  content : m.content ≠ none
  feature : m.feature = none → ∀ u ∈ users, ¬ HasTarget channels u

theorem returns_processCurrentDomain_iff (depth : ℕ) (hhome : ∀ u ∈ users, AtHome E u)
    (hne : users ≠ []) {s : State} (hregistry : AtConnectors E s.channels) :
    Returns (processCurrentDomain E (Processor.process E (depth + 1)) users m data) s ↔
      CanServe s.channels m users := by
  have hmem : ∀ u, u ∈ E.keyOrder users ↔ u ∈ users := fun u => (E.keyOrder_perm users).mem_iff
  rw [processCurrentDomain, returns_bind_iff]
  rcases groupByConnector_cases (m := m) depth (l := E.keyOrder users)
    (fun u hu => hhome u ((hmem u).1 hu)) hregistry data [] with
    ⟨hall, pairs, s', hrun, hs', hnames, hnil⟩ | ⟨⟨u, hu, -, hlost⟩, hnot⟩
  · have hloop : Returns ((Groups.ofPairs pairs).forEach E fun name users =>
        processConnectorUserMessages E name users m data) s' ↔
        ∀ k ∈ E.keyOrder ((Groups.ofPairs pairs).map Prod.fst),
          m.meta_ ≠ none ∧ m.content ≠ none ∧ m.feature ≠ none := by
      refine Moves.returns_forEach_iff (R := SameChannels)
        (fun k _ => moves_processConnectorUserMessages k _) fun k hk s'' _ => ?_
      obtain ⟨p, hp, rfl⟩ := Groups.exists_mem_of_key ((E.keyOrder_perm _).mem_iff.1 hk)
      exact returns_processConnectorUserMessages_iff (hnames p hp) _ s''
    refine Iff.trans ⟨?_, fun h => ⟨_, s', hrun, h⟩⟩ (hloop.trans ⟨fun h => ?_, fun h k hk => ?_⟩)
    · rintro ⟨g, s'', hg, h⟩
      rw [show ([] : Groups ConnectorUserId) = Groups.ofPairs [] from rfl, hrun] at hg
      cases hg
      exact h
    · by_cases hpairs : pairs = []
      · -- nobody has an address
        have hnone := hnil.1 hpairs
        obtain ⟨u, hu⟩ := List.exists_mem_of_ne_nil users hne
        have hwhole := (hall u ((hmem u).2 hu)).resolve_left (hnone u ((hmem u).2 hu))
        exact ⟨hwhole.1, hwhole.2, fun _ v hv => hnone v ((hmem v).2 hv)⟩
      · obtain ⟨p, hp⟩ := List.exists_mem_of_ne_nil pairs hpairs
        have hkey := Groups.mem_keys_of_get (Groups.mem_get_ofPairs.2 hp)
        obtain ⟨hmeta, hcontent, hfeature⟩ := h p.1 ((E.keyOrder_perm _).mem_iff.2 hkey)
        exact ⟨hmeta, hcontent, fun hnone => absurd hnone hfeature⟩
    · refine ⟨h.meta_, h.content, fun hnone => ?_⟩
      have hpairs := hnil.2 fun u hu => h.feature hnone u ((hmem u).1 hu)
      obtain ⟨p, hp, -⟩ := Groups.exists_mem_of_key ((E.keyOrder_perm _).mem_iff.1 hk)
      rw [hpairs] at hp
      cases hp
  · refine iff_of_false ?_ fun h => hlost ⟨h.meta_, h.content⟩
    rintro ⟨g, s', hg, -⟩
    exact hnot ⟨g, s', hg⟩

/-- The handler gets past a group. -/
def CanPass (E : Environment) (channels : String → Option (List Address)) (m : Message)
    (g : Option String × List (Option String)) : Prop :=
  if equalsIgnoreCase (some E.domainName) g.1 then CanServe channels m g.2
  else CanForward E channels m g.1

theorem returns_serve_iff (depth : ℕ) {g : Option String × List (Option String)}
    (hg : g ∈ groups E (domains E users) users) {s : State} (hregistry : AtConnectors E s.channels) :
    Returns (serve E (Processor.process E (depth + 2)) m data g) s ↔ CanPass E s.channels m g := by
  have hmembers := mem_groups hg
  by_cases hhere : equalsIgnoreCase (some E.domainName) g.1 = true
  · rw [serve, if_pos hhere, CanPass, if_pos hhere]
    refine returns_processCurrentDomain_iff (depth + 1) (fun u hu => ?_) ?_ hregistry
    · rw [hmembers] at hu
      rw [AtHome, (mem_groupByDomain_iff.1 hu).2, hhere]
    · obtain ⟨k, hk, rfl⟩ := List.mem_map.1 hg
      rw [hmembers, groupByDomain_eq]
      rw [domains, (E.keyOrder_perm _).mem_iff, groupByDomain_eq] at hk
      exact (Groups.wellFormed_ofPairs _).get_ne_nil hk
  · rw [serve, if_neg hhere, CanPass, if_neg hhere]
    rcases processOtherDomain_cases (m := m) (by simpa using hhere) depth g.2 data s with
      ⟨hcan, s', hrun, -⟩ | ⟨hcan, e, s', hrun, -⟩
    · exact iff_of_true ⟨(), s', hrun⟩ hcan
    · exact iff_of_false (not_returns hrun) hcan

/-- Where the registry has connectors of the domain only, the groups that the handler gets past are those
of which the messages can be sent. -/
theorem unreachableLast_iff {content : Option String} {s : State} (depth : ℕ)
    (hregistry : AtConnectors E s.channels) :
    UnreachableLast E (Processor.process E (depth + 2)) m ⟨some users, content⟩ users s ↔
      ∀ pre g post, groups E (domains E users) users = pre ++ g :: post →
        (∀ g' ∈ pre, CanPass E s.channels m g') →
        (equalsIgnoreCase (some E.domainName) g.1 = false ∧ ¬ CanForward E s.channels m g.1) →
        ∀ g' ∈ post, equalsIgnoreCase (some E.domainName) g'.1 = false ∧
          ¬ CanForward E s.channels m g'.1 := by
  simp only [UnreachableLast, unreachable_iff]
  refine forall_congr' fun pre => forall_congr' fun g => forall_congr' fun post => ?_
  have hreturns : (∀ g' ∈ pre, g' ∈ groups E (domains E users) users) →
      (Returns (forEach (serve E (Processor.process E (depth + 2)) m ⟨some users, content⟩) pre) s ↔
        ∀ g' ∈ pre, CanPass E s.channels m g') := fun hsub =>
    Moves.returns_forEach_iff (R := SameChannels) (fun g' hg' => moves_serve (hsub g' hg'))
      fun g' hg' s' hs' => by
        have hchannels : s'.channels = s.channels := hs'
        rw [← hchannels]
        exact returns_serve_iff depth (hsub g' hg') (hchannels ▸ hregistry)
  constructor
  · intro h hgroups hpass
    obtain ⟨_, s', hrun⟩ := (hreturns fun g' hg' => by
      rw [hgroups]
      exact List.mem_append_left _ hg').2 hpass
    exact h s' hgroups hrun
  · intro h s' hgroups hrun
    exact h hgroups ((hreturns fun g' hg' => by
      rw [hgroups]
      exact List.mem_append_left _ hg').1 ⟨(), s', hrun⟩)

end CustomGroupMessageProcessor

/-! ### A domain without a route -/

namespace CustomGroupMessageProcessor

section

attribute [local instance] JavaChar.ascii

open Linker.Processor.CustomGroupMessageProcessor.Sample

/-- There is no way to the other domain. -/
def Sample.apart : Environment := { env "domain-01" with routes := some fun _ => none }

/-- The recipient at home is lost. -/
theorem lost_atHome : ¬ Independent Sample.apart (Processor.process Sample.apart 2) message
    [some "APP-105", some "APP-5"] (some "hello") start := by
  have hgroups : groups Sample.apart (domains Sample.apart [some "APP-105", some "APP-5"])
      [some "APP-105", some "APP-5"] =
        [] ++ (some "domain-02", [some "APP-105"]) :: [(some "domain-01", [some "APP-5"])] := by
    decide +kernel
  refine not_independent hgroups rfl ?_ List.mem_cons_self fun h => ?_
  · refine unreachable_iff.2 ⟨by decide +kernel, fun h => ?_⟩
    obtain ⟨u, hu, -⟩ := h.route
    cases hu
  · exact absurd h.1 (by decide +kernel)

end

end CustomGroupMessageProcessor

end Linker.Processor
