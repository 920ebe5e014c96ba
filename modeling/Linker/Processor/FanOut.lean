import Linker.Processor.Delivery
import Linker.Processor.Effects
import Mathlib.Data.List.Induction
import Mathlib.Data.List.Nodup
import Mathlib.Data.List.Perm.Basic

/-!
# The fan-out of a group message

`CustomGroupMessageProcessor` groups the recipients by their home domain, and those of the current
domain by the connectors at which they are.  A run of it is a sequence of `Act`s: it looks recipients
up, and makes messages that it processes or delivers.

## Main definitions

* `Act.Performs` : the message that is made, and what becomes of it.
* `Covers` : everyone is handled exactly once, here or in one other domain.

## Main results

* `Groups.mem_get_ofPairs` : what is in a `HashMap` of sets after a number of `add`s.
* `covers_of_run` : the acts of a run that does not throw cover every recipient exactly once.
* `fanOut` : and the group messages to other domains cause no further ones there.
-/

namespace Linker.Processor

open ProcessorUtils ClientAppService MessageProcessorService PostOffice Exec

namespace CustomGroupMessageProcessor

/-! ### Maps of sets -/

namespace Groups

variable {A : Type} [BEq A] [LawfulBEq A] {g : Groups A} {k k' : Option String} {a b : A}

/-- The keys are distinct, and under each of them is a set that is not empty. -/
structure WellFormed (g : Groups A) : Prop where
  keys : (g.map Prod.fst).Nodup
  sets : ∀ p ∈ g, p.2.Nodup ∧ p.2 ≠ []

/-- The map after `add`s of pairs to an empty one. -/
def ofPairs (l : List (Option String × A)) : Groups A := l.foldl (fun g p => g.add p.1 p.2) []

omit [BEq A] [LawfulBEq A] in
theorem get_cons (p : Option String × List A) :
    Groups.get k (p :: g) = if k = p.1 then p.2 else Groups.get k g := by
  obtain ⟨k', l⟩ := p
  by_cases h : k = k'
  · simp [Groups.get, h]
  · have hne : (k == k') = false := by simpa using h
    simp [Groups.get, List.lookup_cons, h, hne]

omit [LawfulBEq A] in
theorem mem_keys_add : k' ∈ (g.add k a).map Prod.fst ↔ k' = k ∨ k' ∈ g.map Prod.fst := by
  induction g with
  | nil => simp [Groups.add]
  | cons p g ih =>
    obtain ⟨k₁, l⟩ := p
    by_cases h : k₁ = k
    · subst h
      simp only [Groups.add, if_true, List.map_cons, List.mem_cons]
      tauto
    · simp only [Groups.add, h, if_false, List.map_cons, List.mem_cons, ih]
      tauto

omit [LawfulBEq A] in
theorem get_add : Groups.get k' (g.add k a) =
    if k' = k then (Groups.get k g).insert a else Groups.get k' g := by
  induction g with
  | nil =>
    rw [Groups.add, get_cons]
    by_cases h : k' = k
    · simp [h, Groups.get]
    · simp [h]
  | cons p g ih =>
    obtain ⟨k₁, l⟩ := p
    by_cases h : k₁ = k
    · subst h
      simp only [Groups.add, if_true, get_cons]
      by_cases hk : k' = k₁
      · simp [hk]
      · simp [hk]
    · simp only [Groups.add, h, if_false, get_cons, ih]
      by_cases hk : k' = k₁
      · subst hk
        simp [h]
      · have hk₁ : k ≠ k₁ := Ne.symm h
        simp [hk, hk₁]

theorem WellFormed.add (h : g.WellFormed) : (g.add k a).WellFormed := by
  induction g with
  | nil => exact ⟨by simp [Groups.add], by simp [Groups.add]⟩
  | cons p g ih =>
    obtain ⟨k₁, l⟩ := p
    have hkeys : k₁ ∉ g.map Prod.fst ∧ (g.map Prod.fst).Nodup := List.nodup_cons.1 h.keys
    have htail : Groups.WellFormed g := ⟨hkeys.2, fun p hp => h.sets p (List.mem_cons_of_mem _ hp)⟩
    have hhead := h.sets _ List.mem_cons_self
    by_cases hk : k₁ = k
    · simp only [Groups.add, hk, if_true]
      refine ⟨by simpa [hk] using h.keys, fun p hp => ?_⟩
      rcases List.mem_cons.1 hp with rfl | hp
      · refine ⟨hhead.1.insert, ?_⟩
        exact List.ne_nil_of_mem (List.mem_insert_self)
      · exact htail.sets p hp
    · simp only [Groups.add, hk, if_false]
      have hadd := ih htail
      refine ⟨List.nodup_cons.2 ⟨fun hmem => ?_, hadd.keys⟩, fun p hp => ?_⟩
      · rcases mem_keys_add.1 hmem with h | h
        · exact hk h
        · exact hkeys.1 h
      · rcases List.mem_cons.1 hp with rfl | hp
        · exact hhead
        · exact hadd.sets p hp

omit [LawfulBEq A] in
theorem ofPairs_append (l : List (Option String × A)) (p : Option String × A) :
    ofPairs (l ++ [p]) = (ofPairs l).add p.1 p.2 := by
  simp [ofPairs]

theorem wellFormed_ofPairs (l : List (Option String × A)) : (ofPairs l).WellFormed := by
  induction l using List.reverseRecOn with
  | nil => exact ⟨List.nodup_nil, fun p hp => by cases hp⟩
  | append_singleton l p ih =>
    rw [ofPairs_append]
    exact ih.add

theorem mem_get_ofPairs {l : List (Option String × A)} :
    a ∈ (ofPairs l).get k ↔ (k, a) ∈ l := by
  induction l using List.reverseRecOn with
  | nil => simp [ofPairs, Groups.get]
  | append_singleton l p ih =>
    rw [ofPairs_append, get_add]
    obtain ⟨k₁, b⟩ := p
    by_cases hk : k = k₁
    · subst hk
      simp only [if_true, List.mem_insert_iff, List.mem_append, List.mem_singleton, ih,
        Prod.mk.injEq, true_and]
      exact or_comm
    · simp [hk, ih]

omit [BEq A] [LawfulBEq A] in
theorem mem_of_get (h : a ∈ g.get k) : ∃ p ∈ g, p.1 = k ∧ g.get k = p.2 := by
  induction g with
  | nil => cases h
  | cons p g ih =>
    rw [get_cons] at h ⊢
    by_cases hk : k = p.1
    · exact ⟨p, List.mem_cons_self, hk.symm, if_pos hk⟩
    · rw [if_neg hk] at h ⊢
      obtain ⟨q, hq, hqk, hget⟩ := ih h
      exact ⟨q, List.mem_cons_of_mem p hq, hqk, hget⟩

omit [BEq A] [LawfulBEq A] in
theorem mem_keys_of_get (h : a ∈ g.get k) : k ∈ g.map Prod.fst := by
  obtain ⟨p, hp, hpk, -⟩ := mem_of_get h
  exact List.mem_map.2 ⟨p, hp, hpk⟩

omit [BEq A] [LawfulBEq A] in
theorem WellFormed.nodup_get (h : g.WellFormed) : (g.get k).Nodup := by
  rcases List.eq_nil_or_concat (g.get k) with hnil | ⟨l, a, hl⟩
  · rw [hnil]
    exact List.nodup_nil
  · have hmem : a ∈ g.get k := by rw [hl]; simp
    obtain ⟨p, hp, -, hget⟩ := mem_of_get hmem
    rw [hget]
    exact (h.sets p hp).1

omit [BEq A] [LawfulBEq A] in
theorem WellFormed.get_ne_nil (h : g.WellFormed) (hk : k ∈ g.map Prod.fst) : g.get k ≠ [] := by
  induction g with
  | nil => cases hk
  | cons p g ih =>
    rw [get_cons]
    split
    · exact (h.sets p List.mem_cons_self).2
    · next hne =>
      have htail : Groups.WellFormed g :=
        ⟨(List.nodup_cons.1 h.keys).2, fun p hp => h.sets p (List.mem_cons_of_mem _ hp)⟩
      exact ih htail ((List.mem_cons.1 hk).resolve_left hne)

theorem exists_mem_of_key {l : List (Option String × A)} (h : k ∈ (ofPairs l).map Prod.fst) :
    ∃ p ∈ l, p.1 = k := by
  obtain ⟨a, ha⟩ := List.exists_mem_of_ne_nil _ ((wellFormed_ofPairs l).get_ne_nil h)
  exact ⟨(k, a), mem_get_ofPairs.1 ha, rfl⟩

end Groups

/-! ### Acts -/

/-- What a run does. -/
inductive Act where
  /-- `getRouteTargetAddresses` for a recipient, and what it returns. -/
  | lookup (toUser : Option String) (addresses : List Address)
  /-- A message to a recipient. -/
  | single (toUser : Option String)
  /-- A message to a connector for users. -/
  | connector (connectorName : Option String) (users : List ConnectorUserId)
  /-- A group message to a domain. -/
  | group (domain : Option String) (users : List (Option String))
  deriving DecidableEq

/-- A `MESSAGE` to a recipient of the group, with the text of the group message. -/
structure IsSingle (toUser : Option String) (data : GroupMessage) (x : Message) : Prop where
  type : x.type = some .MESSAGE
  to_ : x.to_ = toUser
  data : x.data = .messageRequest ⟨toUser, data.content⟩

/-- A `GROUP_CONNECTOR_MESSAGE` to a connector for the given users, with the text of the group
message. -/
structure IsConnector (connectorName : Option String) (users : List ConnectorUserId) (m : Message)
    (data : GroupMessage) (x : Message) : Prop where
  type : x.type = some .GROUP_CONNECTOR_MESSAGE
  to_ : x.to_ = connectorName
  data : x.data = .groupConnectorMessage ⟨some users, some ⟨m.from_, data.content⟩⟩

/-- A `GROUP_MESSAGE` targeted at a domain for the given recipients, with the text of the group
message. -/
structure IsPart (domain : Option String) (users : List (Option String)) (data : GroupMessage)
    (x : Message) : Prop where
  type : x.type = some .GROUP_MESSAGE
  targetAddress : ∃ a, x.targetAddress = some a ∧ a.domainName = domain
  data : x.data = .groupMessage ⟨some users, data.content⟩

variable [JavaChar]

/-- The delivery type with which the addresses of a recipient are looked up. -/
def lookupType (E : Environment) (toUser : Option String) : DeliveryType :=
  if isMasterUserId E toUser then .ANY else .ALL

/-- What is done in the processing of `m` with the payload `data` leads from a state to a state: a
message is made, and `process` or the post office returns on it. -/
def Act.Performs (E : Environment) (process : Message → Proc Unit) (m : Message)
    (data : GroupMessage) : Act → State → State → Prop
  | lookup toUser addresses, s, s' =>
    (routeTargetAddresses E toUser (some (lookupType E toUser)) m).run s = (.ok addresses, s')
  | single toUser, s, s' => ∃ x, IsSingle toUser data x ∧ (process x).run s.next = (.ok (), s')
  | connector connectorName users, s, s' =>
    ∃ x, IsConnector connectorName users m data x ∧ (deliverMessage E x).run s.next = (.ok (), s')
  | group domain users, s, s' => ∃ x, IsPart domain users data x ∧ (process x).run s.next = (.ok (), s')

/-- The acts, one after the other, lead from a state to a state. -/
inductive Performed (E : Environment) (process : Message → Proc Unit) (m : Message)
    (data : GroupMessage) : List Act → State → State → Prop
  | nil (s : State) : Performed E process m data [] s s
  | cons {act : Act} {acts : List Act} {s s₁ s₂ : State} : act.Performs E process m data s s₁ →
      Performed E process m data acts s₁ s₂ → Performed E process m data (act :: acts) s s₂

variable {E : Environment} {process : Message → Proc Unit} {m : Message} {data : GroupMessage}

namespace Performed

theorem single {act : Act} {s s' : State} (h : act.Performs E process m data s s') :
    Performed E process m data [act] s s' :=
  .cons h (.nil s')

theorem append {acts acts' : List Act} {s s₁ s₂ : State} (h : Performed E process m data acts s s₁)
    (h' : Performed E process m data acts' s₁ s₂) :
    Performed E process m data (acts ++ acts') s s₂ := by
  induction h with
  | nil s => exact h'
  | cons hact _ ih => exact .cons hact (ih h')

end Performed

/-! ### The messages that are made -/

omit [JavaChar] in
/-- A run that makes a message and works on it. -/
theorem exists_of_run {f : MessageContent → Message → Proc Unit} {s s' : State}
    (hrun : (do
      let c ← getContent m
      let _ ← getMeta m
      let blank ← builder E
      Proc.during m (f c blank) : Proc Unit).run s = (.ok (), s')) :
    ∃ c, (f c (E.blank s.serial)).run s.next = (.ok (), s') := by
  rcases hc : m.content with _ | c
  · rw [getContent, hc] at hrun
    cases hrun
  rcases ht : m.meta_ with _ | t
  · rw [run_bind_ok (run_getContent hc s), getMeta, ht] at hrun
    cases hrun
  rw [run_bind_ok (run_getContent hc s), run_bind_ok (run_getMeta ht s), run_bind_ok (run_builder E s),
    Proc.during, run_reraise] at hrun
  refine ⟨c, ?_⟩
  rcases hf : (f c (E.blank s.serial)).run s.next with ⟨_ | _, _⟩
  · rw [hf] at hrun
    cases hrun
  · rw [hf] at hrun
    exact hrun

theorem performs_single {toUser : Option String} {s s' : State}
    (hrun : (processUserAddressNotFound E process toUser m data).run s = (.ok (), s')) :
    (Act.single toUser).Performs E process m data s s' := by
  obtain ⟨c, hprocess⟩ := exists_of_run hrun
  exact ⟨_, ⟨rfl, rfl, rfl⟩, hprocess⟩

theorem performs_connector {connectorName : Option String} {users : List ConnectorUserId}
    {s s' : State}
    (hrun : (processConnectorUserMessages E connectorName users m data).run s = (.ok (), s')) :
    (Act.connector connectorName users).Performs E process m data s s' := by
  obtain ⟨c, hdeliver⟩ := exists_of_run hrun
  exact ⟨_, ⟨rfl, rfl, rfl⟩, hdeliver⟩

theorem performs_group {domain : Option String} {users : List (Option String)} {s s' : State}
    (hrun : (processOtherDomain E process domain users m data).run s = (.ok (), s')) :
    (Act.group domain users).Performs E process m data s s' := by
  obtain ⟨c, hprocess⟩ := exists_of_run hrun
  exact ⟨_, ⟨rfl, ⟨_, rfl, rfl⟩, rfl⟩, hprocess⟩

/-! ### What is done for a recipient -/

/-- The results of the look-ups of a recipient. -/
def looked (r : Option String) (acts : List Act) : List (List Address) :=
  acts.flatMap fun
    | .lookup toUser addresses => if toUser = r then [addresses] else []
    | _ => []

/-- The users that the messages to a connector name. -/
def named (connectorName : Option String) (acts : List Act) : List ConnectorUserId :=
  acts.flatMap fun
    | .connector name users => if name = connectorName then users else []
    | _ => []

/-- The recipients of the group messages to a domain. -/
def sent (domain : Option String) (acts : List Act) : List (Option String) :=
  acts.flatMap fun
    | .group d users => if d = domain then users else []
    | _ => []

/-- The current domain handles the recipient: it looks the recipient up once, names each address it
finds once in a message to its connector, and processes a message of its own for a recipient without
address. -/
def Served (r : Option String) (acts : List Act) : Prop :=
  ∃ addresses, looked r acts = [addresses] ∧
    (∀ connectorName socketId, (named connectorName acts).count ⟨r, socketId⟩ =
      if ∃ a ∈ addresses, a.connectorName = connectorName ∧ a.socketId = socketId then 1 else 0) ∧
    acts.count (.single r) = (if addresses = [] then 1 else 0) ∧
    ∀ domain, r ∉ sent domain acts

/-- The recipient is in one group message, to the given domain, and nothing else is done for it. -/
def Forwarded (r home : Option String) (acts : List Act) : Prop :=
  looked r acts = [] ∧ (∀ connectorName socketId, ⟨r, socketId⟩ ∉ named connectorName acts) ∧
    .single r ∉ acts ∧ ∀ domain, (sent domain acts).count r = if domain = home then 1 else 0

def Ignored (r : Option String) (acts : List Act) : Prop :=
  looked r acts = [] ∧ (∀ connectorName socketId, ⟨r, socketId⟩ ∉ named connectorName acts) ∧
    .single r ∉ acts ∧ ∀ domain, r ∉ sent domain acts

/-- Whether a user lives in the current domain. -/
def AtHome (E : Environment) (r : Option String) : Prop :=
  equalsIgnoreCase (some E.domainName) (resolveDomain E r) = true

/-- Everyone is handled here or in one other domain, and nobody else is addressed. -/
structure Covers (E : Environment) (users : List (Option String)) (acts : List Act) : Prop where
  home : ∀ r ∈ users, AtHome E r → Served r acts
  away : ∀ r ∈ users, ¬ AtHome E r → Forwarded r (resolveDomain E r) acts
  others : ∀ r ∉ users, Ignored r acts
  groups : ∀ {domain us}, .group domain us ∈ acts → us ≠ []

/-! ### One run after another -/

omit [JavaChar] in
@[simp] theorem looked_append (r : Option String) (acts acts' : List Act) :
    looked r (acts ++ acts') = looked r acts ++ looked r acts' :=
  List.flatMap_append

omit [JavaChar] in
@[simp] theorem named_append (name : Option String) (acts acts' : List Act) :
    named name (acts ++ acts') = named name acts ++ named name acts' :=
  List.flatMap_append

omit [JavaChar] in
@[simp] theorem sent_append (domain : Option String) (acts acts' : List Act) :
    sent domain (acts ++ acts') = sent domain acts ++ sent domain acts' :=
  List.flatMap_append

variable {r home : Option String} {acts acts' : List Act} {users users' : List (Option String)}

omit [JavaChar] in
theorem Ignored.append (h : Ignored r acts) (h' : Ignored r acts') : Ignored r (acts ++ acts') := by
  obtain ⟨hl, hn, hs, hd⟩ := h
  obtain ⟨hl', hn', hs', hd'⟩ := h'
  refine ⟨by rw [looked_append, hl, hl', List.append_nil], fun name socketId => ?_, ?_, fun d => ?_⟩
  · rw [named_append, List.mem_append, not_or]
    exact ⟨hn name socketId, hn' name socketId⟩
  · rw [List.mem_append, not_or]
    exact ⟨hs, hs'⟩
  · rw [sent_append, List.mem_append, not_or]
    exact ⟨hd d, hd' d⟩

omit [JavaChar] in
theorem Served.append_ignored (h : Served r acts) (h' : Ignored r acts') :
    Served r (acts ++ acts') ∧ Served r (acts' ++ acts) := by
  obtain ⟨l, hl, hn, hs, hd⟩ := h
  obtain ⟨hl', hn', hs', hd'⟩ := h'
  have hcount : ∀ name socketId, (named name acts').count ⟨r, socketId⟩ = 0 := fun name socketId =>
    List.count_eq_zero.2 (hn' name socketId)
  have hsingle : acts'.count (.single r) = 0 := List.count_eq_zero.2 hs'
  constructor
  · refine ⟨l, by rw [looked_append, hl, hl']; rfl, fun name socketId => ?_, ?_, fun d => ?_⟩
    · rw [named_append, List.count_append, hcount, Nat.add_zero, hn]
    · rw [List.count_append, hsingle, Nat.add_zero, hs]
    · simp [hd d, hd' d]
  · refine ⟨l, by rw [looked_append, hl, hl']; rfl, fun name socketId => ?_, ?_, fun d => ?_⟩
    · rw [named_append, List.count_append, hcount, Nat.zero_add, hn]
    · rw [List.count_append, hsingle, Nat.zero_add, hs]
    · simp [hd d, hd' d]

omit [JavaChar] in
theorem Forwarded.append_ignored (h : Forwarded r home acts) (h' : Ignored r acts') :
    Forwarded r home (acts ++ acts') ∧ Forwarded r home (acts' ++ acts) := by
  obtain ⟨hl, hn, hs, hd⟩ := h
  obtain ⟨hl', hn', hs', hd'⟩ := h'
  have hcount : ∀ d, (sent d acts').count r = 0 := fun d => List.count_eq_zero.2 (hd' d)
  constructor
  · refine ⟨by rw [looked_append, hl, hl']; rfl, fun name socketId => ?_, ?_, fun d => ?_⟩
    · simp [hn name socketId, hn' name socketId]
    · simp [hs, hs']
    · rw [sent_append, List.count_append, hcount, Nat.add_zero, hd]
  · refine ⟨by rw [looked_append, hl, hl']; rfl, fun name socketId => ?_, ?_, fun d => ?_⟩
    · simp [hn name socketId, hn' name socketId]
    · simp [hs, hs']
    · rw [sent_append, List.count_append, hcount, Nat.zero_add, hd]

theorem Covers.congr (h : Covers E users acts) (heq : ∀ r, r ∈ users' ↔ r ∈ users) :
    Covers E users' acts :=
  ⟨fun r hr => h.home r ((heq r).1 hr), fun r hr => h.away r ((heq r).1 hr),
    fun r hr => h.others r fun hmem => hr ((heq r).2 hmem), h.groups⟩

/-- Two runs for different recipients. -/
theorem Covers.append (h : Covers E users acts) (h' : Covers E users' acts')
    (hdisj : ∀ r ∈ users, r ∉ users') : Covers E (users ++ users') (acts ++ acts') := by
  constructor
  · intro r hr hhome
    by_cases hmem : r ∈ users
    · exact ((h.home r hmem hhome).append_ignored (h'.others r (hdisj r hmem))).1
    · have hmem' : r ∈ users' := (List.mem_append.1 hr).resolve_left hmem
      exact ((h'.home r hmem' hhome).append_ignored (h.others r hmem)).2
  · intro r hr haway
    by_cases hmem : r ∈ users
    · exact ((h.away r hmem haway).append_ignored (h'.others r (hdisj r hmem))).1
    · have hmem' : r ∈ users' := (List.mem_append.1 hr).resolve_left hmem
      exact ((h'.away r hmem' haway).append_ignored (h.others r hmem)).2
  · intro r hr
    rw [List.mem_append, not_or] at hr
    exact (h.others r hr.1).append (h'.others r hr.2)
  · intro domain us hmem
    rcases List.mem_append.1 hmem with hmem | hmem
    · exact h.groups hmem
    · exact h'.groups hmem

theorem covers_nil : Covers E [] [] :=
  ⟨fun _ hr => (List.not_mem_nil hr).elim, fun _ hr => (List.not_mem_nil hr).elim,
    fun _ _ => ⟨rfl, fun _ _ => List.not_mem_nil, List.not_mem_nil, fun _ => List.not_mem_nil⟩,
    fun hmem => (List.not_mem_nil hmem).elim⟩

/-- A loop whose rounds are for different recipients. -/
theorem covers_forEach {f : Option String → Proc Unit} {get : Option String → List (Option String)}
    (hdisj : ∀ k k' r, r ∈ get k → r ∈ get k' → k = k') {ks : List (Option String)}
    (hnodup : ks.Nodup)
    (hf : ∀ k ∈ ks, ∀ s s', (f k).run s = (.ok (), s') →
      ∃ acts, Performed E process m data acts s s' ∧ Covers E (get k) acts)
    {s s' : State} (hrun : (forEach f ks).run s = (.ok (), s')) :
    ∃ acts, Performed E process m data acts s s' ∧ Covers E (ks.flatMap get) acts := by
  induction ks generalizing s with
  | nil =>
    have hs : s = s' := congrArg Prod.snd hrun
    exact ⟨[], hs ▸ .nil s, covers_nil⟩
  | cons k ks ih =>
    obtain ⟨hk, hks⟩ := List.nodup_cons.1 hnodup
    rw [run_forEach_cons, run_bind] at hrun
    rcases hround : (f k).run s with ⟨e | u, s₁⟩
    · rw [hround] at hrun
      cases hrun
    · rw [hround] at hrun
      obtain ⟨acts, hacts, hcov⟩ := hf k List.mem_cons_self s s₁ hround
      obtain ⟨acts', hacts', hcov'⟩ :=
        ih hks (fun k' hk' => hf k' (List.mem_cons_of_mem k hk')) hrun
      refine ⟨acts ++ acts', hacts.append hacts', ?_⟩
      refine hcov.append hcov' fun r hr hr' => ?_
      obtain ⟨k', hk', hrk'⟩ := List.mem_flatMap.1 hr'
      exact hk (hdisj k k' r hr hrk' ▸ hk')

/-! ### The users of other domains -/

theorem covers_group {domain : Option String} (hnodup : users.Nodup) (hne : users ≠ [])
    (hres : ∀ r ∈ users, resolveDomain E r = domain) (haway : ∀ r ∈ users, ¬ AtHome E r) :
    Covers E users [.group domain users] := by
  have hsent : ∀ d, sent d [.group domain users] = if domain = d then users else [] := fun d => by
    simp [sent]
  constructor
  · intro r hr hhome
    exact absurd hhome (haway r hr)
  · intro r hr _
    refine ⟨rfl, fun _ _ => List.not_mem_nil, by simp, fun d => ?_⟩
    rw [hsent, hres r hr]
    by_cases hd : domain = d
    · subst hd
      simp [List.count_eq_one_of_mem hnodup hr]
    · simp [hd, Ne.symm hd]
  · intro r hr
    refine ⟨rfl, fun _ _ => List.not_mem_nil, by simp, fun d => ?_⟩
    rw [hsent]
    split
    · exact hr
    · exact List.not_mem_nil
  · intro d us hmem
    obtain ⟨-, rfl⟩ := Act.group.inj (List.mem_singleton.1 hmem)
    exact hne

/-! ### The users of the current domain -/

/-- The entries of the map of connectors that the addresses of a user make. -/
def entries (toUser : Option String) (addresses : List Address) :
    List (Option String × ConnectorUserId) :=
  addresses.map fun a => (a.connectorName, ⟨toUser, a.socketId⟩)

/-- What is done for a user before any message to a connector. -/
def visit (toUser : Option String) (addresses : List Address) : List Act :=
  .lookup toUser addresses :: if addresses = [] then [.single toUser] else []

section

variable {u : Option String} {addresses : List Address}

omit [JavaChar] in
@[simp] theorem looked_visit : looked r (visit u addresses) = if u = r then [addresses] else [] := by
  by_cases hl : addresses = []
  · simp [looked, visit, hl]
  · simp [looked, visit, hl]

omit [JavaChar] in
theorem count_single_visit :
    (visit u addresses).count (.single r) = if u = r ∧ addresses = [] then 1 else 0 := by
  by_cases hl : addresses = []
  · by_cases hr : u = r
    · simp [visit, hl, hr]
    · simp [visit, hl, hr]
  · simp [visit, hl]

omit [JavaChar] in
@[simp] theorem named_visit (name : Option String) : named name (visit u addresses) = [] := by
  by_cases hl : addresses = []
  · simp [named, visit, hl]
  · simp [named, visit, hl]

omit [JavaChar] in
@[simp] theorem sent_visit (domain : Option String) : sent domain (visit u addresses) = [] := by
  by_cases hl : addresses = []
  · simp [sent, visit, hl]
  · simp [sent, visit, hl]

omit [JavaChar] in
@[simp] theorem group_notMem_visit (domain : Option String) (us : List (Option String)) :
    .group domain us ∉ visit u addresses := by
  by_cases hl : addresses = []
  · simp [visit, hl]
  · simp [visit, hl]

end

omit [JavaChar] in
theorem mem_entries {toUser : Option String} {addresses : List Address} {name : Option String}
    {socketId : Option ℤ} : (name, ⟨r, socketId⟩) ∈ entries toUser addresses ↔
      toUser = r ∧ ∃ a ∈ addresses, a.connectorName = name ∧ a.socketId = socketId := by
  simp only [entries, List.mem_map, Prod.mk.injEq, ConnectorUserId.mk.injEq]
  constructor
  · rintro ⟨a, ha, hname, hr, hsocket⟩
    exact ⟨hr, a, ha, hname, hsocket⟩
  · rintro ⟨hr, a, ha, hname, hsocket⟩
    exact ⟨a, ha, hname, hr, hsocket⟩

/-- The users have been looked up, and the addresses found have been entered. -/
structure Visited (users : List (Option String)) (acts : List Act)
    (pairs : List (Option String × ConnectorUserId)) : Prop where
  named : ∀ name, named name acts = []
  sent : ∀ domain, sent domain acts = []
  visits : ∀ r ∈ users, ∃ addresses, looked r acts = [addresses] ∧
    (∀ name socketId, (name, ⟨r, socketId⟩) ∈ pairs ↔
      ∃ a ∈ addresses, a.connectorName = name ∧ a.socketId = socketId) ∧
    acts.count (.single r) = if addresses = [] then 1 else 0
  others : ∀ r ∉ users, looked r acts = [] ∧ .single r ∉ acts ∧
    ∀ name socketId, (name, ⟨r, socketId⟩) ∉ pairs
  groups : ∀ domain us, .group domain us ∉ acts

omit [JavaChar] in
theorem visited_cons {u : Option String} {addresses : List Address}
    {pairs : List (Option String × ConnectorUserId)} (hu : u ∉ users)
    (h : Visited users acts pairs) :
    Visited (u :: users) (visit u addresses ++ acts) (entries u addresses ++ pairs) := by
  constructor
  · intro name
    rw [named_append, h.named, List.append_nil, named_visit]
  · intro domain
    rw [sent_append, h.sent, List.append_nil, sent_visit]
  · intro r hr
    by_cases hru : u = r
    · -- the user of this round does not come again
      subst hru
      obtain ⟨hl, hs, hp⟩ := h.others u hu
      refine ⟨addresses, by simp [hl], fun name socketId => ?_, ?_⟩
      · rw [List.mem_append, mem_entries]
        simp [hp name socketId]
      · rw [List.count_append, count_single_visit, List.count_eq_zero.2 hs]
        simp
    · obtain ⟨l, hl, hp, hs⟩ := h.visits r ((List.mem_cons.1 hr).resolve_left (Ne.symm hru))
      refine ⟨l, by simp [hl, hru], fun name socketId => ?_, ?_⟩
      · rw [List.mem_append, mem_entries, hp name socketId]
        simp [hru]
      · rw [List.count_append, count_single_visit, hs]
        simp [hru]
  · intro r hr
    rw [List.mem_cons, not_or] at hr
    obtain ⟨hl, hs, hp⟩ := h.others r hr.2
    have hru : u ≠ r := Ne.symm hr.1
    refine ⟨by simp [hl, hru], ?_, fun name socketId => ?_⟩
    · rw [List.mem_append, not_or]
      refine ⟨List.count_eq_zero.1 ?_, hs⟩
      rw [count_single_visit, if_neg fun h => hru h.1]
    · rw [List.mem_append, mem_entries]
      simp [hru, hp name socketId]
  · intro domain us hmem
    rcases List.mem_append.1 hmem with hmem | hmem
    · exact group_notMem_visit domain us hmem
    · exact h.groups domain us hmem

omit [JavaChar] in
theorem foldl_entries (u : Option String) (addresses : List Address)
    (pairs : List (Option String × ConnectorUserId)) :
    addresses.foldl (fun g (a : Address) => g.add a.connectorName ⟨u, a.socketId⟩)
      (Groups.ofPairs pairs) = Groups.ofPairs (pairs ++ entries u addresses) := by
  rw [Groups.ofPairs, Groups.ofPairs, List.foldl_append, entries, List.foldl_map]

/-- The first loop over the users of the current domain. -/
theorem visited_of_run (hnodup : users.Nodup) {pairs : List (Option String × ConnectorUserId)}
    {g : Groups ConnectorUserId} {s s' : State}
    (hrun : (groupByConnector E process m data users (Groups.ofPairs pairs)).run s = (.ok g, s')) :
    ∃ acts pairs', Performed E process m data acts s s' ∧
      g = Groups.ofPairs (pairs ++ pairs') ∧ Visited users acts pairs' := by
  induction users generalizing pairs s with
  | nil =>
    obtain ⟨hg, hs⟩ := Prod.mk.inj hrun
    cases hg
    refine ⟨[], [], hs ▸ .nil s, by rw [List.append_nil], fun _ => rfl, fun _ => rfl, ?_, ?_, ?_⟩
    · exact fun _ hr => (List.not_mem_nil hr).elim
    · exact fun _ _ => ⟨rfl, List.not_mem_nil, fun _ _ => List.not_mem_nil⟩
    · exact fun _ _ => List.not_mem_nil
  | cons u users ih =>
    obtain ⟨hu, hnodup'⟩ := List.nodup_cons.1 hnodup
    rw [groupByConnector, run_bind] at hrun
    rcases hlook : (routeTargetAddresses E u (some (lookupType E u)) m).run s with ⟨e | l, s₁⟩
    · rw [lookupType] at hlook
      rw [hlook] at hrun
      cases hrun
    · have hlook' := hlook
      rw [lookupType] at hlook'
      rw [hlook'] at hrun
      -- the call for a user without address, where there is one
      have hvisit : ∃ s₂, Performed E process m data (visit u l) s s₂ ∧
          (groupByConnector E process m data users
            (Groups.ofPairs (pairs ++ entries u l))).run s₂ = (.ok g, s') := by
        rw [← foldl_entries]
        cases l with
        | nil =>
          simp only [List.isEmpty_nil, if_true] at hrun
          rw [run_bind] at hrun
          rcases hsingle : (processUserAddressNotFound E process u m data).run s₁ with ⟨e | x, s₂⟩
          · rw [hsingle] at hrun
            cases hrun
          · rw [hsingle] at hrun
            exact ⟨s₂, .cons hlook (.single (performs_single hsingle)), hrun⟩
        | cons a l =>
          refine ⟨s₁, .cons hlook (.nil s₁), ?_⟩
          simpa using hrun
      obtain ⟨s₂, hvisit, hrest⟩ := hvisit
      obtain ⟨acts, pairs', hacts, hg, hvisited⟩ := ih hnodup' hrest
      refine ⟨visit u l ++ acts, entries u l ++ pairs', hvisit.append hacts, ?_, ?_⟩
      · rw [hg, List.append_assoc]
      · exact visited_cons hu hvisited

/-- The second loop, over the connectors. -/
theorem performed_connectors {g : Groups ConnectorUserId} {ks : List (Option String)} {s s' : State}
    (hrun : (forEach (fun name => processConnectorUserMessages E name (g.get name) m data) ks).run s =
      (.ok (), s')) :
    Performed E process m data (ks.map fun name => .connector name (g.get name)) s s' := by
  induction ks generalizing s with
  | nil =>
    have hs : s = s' := congrArg Prod.snd hrun
    exact hs ▸ .nil s
  | cons k ks ih =>
    rw [run_forEach_cons, run_bind] at hrun
    rcases hround : (processConnectorUserMessages E k (g.get k) m data).run s with ⟨e | u, s₁⟩
    · rw [hround] at hrun
      cases hrun
    · rw [hround] at hrun
      exact .cons (performs_connector hround) (ih hrun)

omit [JavaChar] in
theorem named_connectors {g : Groups ConnectorUserId} {ks : List (Option String)}
    (hnodup : ks.Nodup) (name : Option String) :
    named name (ks.map fun k => .connector k (g.get k)) = if name ∈ ks then g.get name else [] := by
  induction ks with
  | nil => rfl
  | cons k ks ih =>
    obtain ⟨hk, hks⟩ := List.nodup_cons.1 hnodup
    rw [List.map_cons, named, List.flatMap_cons, ← named, ih hks]
    by_cases hkn : k = name
    · subst hkn
      simp [hk]
    · simp [hkn, Ne.symm hkn]

omit [JavaChar] in
/-- The messages to the connectors do nothing but name users. -/
theorem connectors_others {g : Groups ConnectorUserId} (ks : List (Option String)) :
    (∀ r, looked r (ks.map fun k => Act.connector k (g.get k)) = []) ∧
      (∀ r, .single r ∉ ks.map fun k => Act.connector k (g.get k)) ∧
      ∀ domain, sent domain (ks.map fun k => Act.connector k (g.get k)) = [] := by
  refine ⟨fun r => ?_, fun r => by simp, fun domain => ?_⟩
  · simp [looked]
  · simp [sent]

/-- The entries collected, in messages to their connectors. -/
theorem covers_visited {pairs : List (Option String × ConnectorUserId)}
    {ks : List (Option String)} (hvisited : Visited users acts pairs)
    (hhome : ∀ r ∈ users, AtHome E r)
    (hks : ks.Perm ((Groups.ofPairs pairs).map Prod.fst)) :
    Covers E users (acts ++ ks.map fun k => .connector k ((Groups.ofPairs pairs).get k)) := by
  have hwf := Groups.wellFormed_ofPairs pairs
  have hnodup : ks.Nodup := hks.nodup_iff.2 hwf.keys
  obtain ⟨hlooked, hsingle, hsent⟩ := connectors_others (g := Groups.ofPairs pairs) ks
  have hnamed : ∀ name, named name
      (acts ++ ks.map fun k => .connector k ((Groups.ofPairs pairs).get k)) =
        (Groups.ofPairs pairs).get name := by
    intro name
    rw [named_append, hvisited.named, List.nil_append, named_connectors hnodup]
    split
    · rfl
    · next hname =>
      refine (List.eq_nil_iff_forall_not_mem.2 fun x hx => hname ?_).symm
      exact hks.mem_iff.2 (Groups.mem_keys_of_get hx)
  have hsent' : ∀ d, sent d
      (acts ++ ks.map fun k => .connector k ((Groups.ofPairs pairs).get k)) = [] := by
    intro d
    rw [sent_append, hvisited.sent, hsent]
    rfl
  -- what was entered twice is sent once
  have hcount : ∀ x name, ((Groups.ofPairs pairs).get name).count x =
      if (name, x) ∈ pairs then 1 else 0 := by
    intro x name
    split
    · next hmem => exact List.count_eq_one_of_mem hwf.nodup_get (Groups.mem_get_ofPairs.2 hmem)
    · next hmem => exact List.count_eq_zero.2 fun h => hmem (Groups.mem_get_ofPairs.1 h)
  constructor
  · intro r hr _
    obtain ⟨l, hl, hp, hs⟩ := hvisited.visits r hr
    refine ⟨l, by rw [looked_append, hl, hlooked]; rfl, fun name socketId => ?_, ?_, fun d => ?_⟩
    · rw [hnamed, hcount, if_congr (hp name socketId) rfl rfl]
    · rw [List.count_append, hs, List.count_eq_zero.2 (hsingle r), Nat.add_zero]
    · rw [hsent']
      exact List.not_mem_nil
  · intro r hr haway
    exact absurd (hhome r hr) haway
  · intro r hr
    obtain ⟨hl, hs, hp⟩ := hvisited.others r hr
    refine ⟨by rw [looked_append, hl, hlooked]; rfl, fun name socketId => ?_, ?_, fun d => ?_⟩
    · rw [hnamed, Groups.mem_get_ofPairs]
      exact hp name socketId
    · rw [List.mem_append, not_or]
      exact ⟨hs, hsingle r⟩
    · rw [hsent']
      exact List.not_mem_nil
  · intro d us hmem
    rcases List.mem_append.1 hmem with hmem | hmem
    · exact absurd hmem (hvisited.groups d us)
    · simp at hmem

theorem covers_currentDomain (hnodup : users.Nodup) (hhome : ∀ r ∈ users, AtHome E r)
    {s s' : State} (hrun : (processCurrentDomain E process users m data).run s = (.ok (), s')) :
    ∃ acts, Performed E process m data acts s s' ∧ Covers E users acts := by
  have hperm := E.keyOrder_perm users
  rw [processCurrentDomain, run_bind] at hrun
  rcases hgroups : (groupByConnector E process m data (E.keyOrder users)
      (Groups.ofPairs [])).run s with ⟨e | g, s₁⟩
  · have hgroups' : (groupByConnector E process m data (E.keyOrder users) []).run s =
        (.error e, s₁) := hgroups
    rw [hgroups'] at hrun
    cases hrun
  · have hgroups' : (groupByConnector E process m data (E.keyOrder users) []).run s =
        (.ok g, s₁) := hgroups
    rw [hgroups'] at hrun
    obtain ⟨acts, pairs, hacts, hg, hvisited⟩ := visited_of_run (hperm.nodup_iff.2 hnodup) hgroups
    rw [List.nil_append] at hg
    subst hg
    refine ⟨_, hacts.append (performed_connectors hrun), ?_⟩
    have hcov := covers_visited hvisited (fun r hr => hhome r (hperm.mem_iff.1 hr))
      (E.keyOrder_perm _)
    exact hcov.congr fun r => hperm.mem_iff.symm

/-! ### The whole run -/

theorem groupByDomain_eq (users : List (Option String)) : groupByDomain E users =
    Groups.ofPairs (users.map fun toUser => (resolveDomain E toUser, toUser)) := by
  rw [groupByDomain, Groups.ofPairs, List.foldl_map]

theorem mem_groupByDomain_iff {k : Option String} :
    r ∈ (groupByDomain E users).get k ↔ r ∈ users ∧ resolveDomain E r = k := by
  rw [groupByDomain_eq, Groups.mem_get_ofPairs, List.mem_map]
  constructor
  · rintro ⟨u, hu, heq⟩
    obtain ⟨hk, rfl⟩ := Prod.mk.inj heq
    exact ⟨hu, hk⟩
  · rintro ⟨hr, hk⟩
    exact ⟨r, hr, by rw [hk]⟩

/-- A run that does not throw covers its recipients. -/
theorem covers_of_run (hto : data.to_ = some users) {s s' : State}
    (hrun : ((processor E process).doProcess m (some data)).run s = (.ok (), s')) :
    ∃ acts, Performed E process m data acts s s' ∧ Covers E users acts := by
  have hwf : (groupByDomain E users).WellFormed := by
    rw [groupByDomain_eq]
    exact Groups.wellFormed_ofPairs _
  have hperm := E.keyOrder_perm ((groupByDomain E users).map Prod.fst)
  have hloop : ((groupByDomain E users).forEach E fun domain userIds =>
      if equalsIgnoreCase (some E.domainName) domain then
        processCurrentDomain E process userIds m data
      else processOtherDomain E process domain userIds m data).run s = (.ok (), s') := by
    have hget : (orNullPointer m data.to_).run s = (.ok users, s) := by rw [hto]; rfl
    exact (run_bind_ok hget).symm.trans hrun
  -- every recipient is in one group, that of its home
  have hdisj : ∀ k k' r, r ∈ (groupByDomain E users).get k → r ∈ (groupByDomain E users).get k' →
      k = k' := by
    intro k k' r hr hr'
    exact (mem_groupByDomain_iff.1 hr).2.symm.trans (mem_groupByDomain_iff.1 hr').2
  have hround : ∀ k ∈ E.keyOrder ((groupByDomain E users).map Prod.fst), ∀ s s',
      (if equalsIgnoreCase (some E.domainName) k then
        processCurrentDomain E process ((groupByDomain E users).get k) m data
      else processOtherDomain E process k ((groupByDomain E users).get k) m data).run s =
        (.ok (), s') →
      ∃ acts, Performed E process m data acts s s' ∧
        Covers E ((groupByDomain E users).get k) acts := by
    intro k hk s s' hround
    have hres : ∀ r ∈ (groupByDomain E users).get k, resolveDomain E r = k := fun r hr =>
      (mem_groupByDomain_iff.1 hr).2
    by_cases hhere : equalsIgnoreCase (some E.domainName) k = true
    · rw [if_pos hhere] at hround
      refine covers_currentDomain hwf.nodup_get (fun r hr => ?_) hround
      rw [AtHome, hres r hr]
      exact hhere
    · rw [if_neg hhere] at hround
      refine ⟨[.group k ((groupByDomain E users).get k)], .single (performs_group hround), ?_⟩
      refine covers_group hwf.nodup_get (hwf.get_ne_nil (hperm.mem_iff.1 hk)) hres fun r hr => ?_
      rw [AtHome, hres r hr]
      exact hhere
  obtain ⟨acts, hacts, hcov⟩ :=
    covers_forEach hdisj (hperm.nodup_iff.2 hwf.keys) hround hloop
  refine ⟨acts, hacts, hcov.congr fun r => ?_⟩
  rw [List.mem_flatMap]
  constructor
  · intro hr
    have hmem : r ∈ (groupByDomain E users).get (resolveDomain E r) :=
      mem_groupByDomain_iff.2 ⟨hr, rfl⟩
    exact ⟨_, hperm.mem_iff.2 (Groups.mem_keys_of_get hmem), hmem⟩
  · rintro ⟨k, -, hr⟩
    exact (mem_groupByDomain_iff.1 hr).1

/-! ### The other domains -/

/-- The recipients of a group message to a domain live there. -/
theorem Covers.mem_group (h : Covers E users acts) {domain : Option String}
    {us : List (Option String)} (hmem : .group domain us ∈ acts) (hr : r ∈ us) :
    r ∈ users ∧ ¬ AtHome E r ∧ resolveDomain E r = domain := by
  have hsent : r ∈ sent domain acts := List.mem_flatMap.2 ⟨_, hmem, by simpa using hr⟩
  have hu : r ∈ users := by
    by_contra hu
    exact (h.others r hu).2.2.2 domain hsent
  have haway : ¬ AtHome E r := by
    intro hhome
    obtain ⟨l, -, -, -, hnone⟩ := h.home r hu hhome
    exact hnone domain hsent
  refine ⟨hu, haway, ?_⟩
  have hcount := (h.away r hu haway).2.2.2 domain
  by_contra hne
  rw [if_neg (Ne.symm hne)] at hcount
  exact List.count_eq_zero.1 hcount hsent

/-- **Group fan-out covers everyone exactly once.**  A run that does not throw serves the recipients
of the current domain and puts each of the others in one group message to its own domain.  In a
domain that resolves the recipients of such a message alike, no run on a message with its payload
forwards any of them. -/
theorem fanOut (hto : data.to_ = some users) {s s' : State}
    (hrun : ((processor E process).doProcess m (some data)).run s = (.ok (), s')) :
    ∃ acts, Performed E process m data acts s s' ∧ Covers E users acts ∧
      ∀ domain us, .group domain us ∈ acts →
        ∀ (E' : Environment) (process' : Message → Proc Unit) (x : Message) (t t' : State),
        x.data = .groupMessage ⟨some us, data.content⟩ →
        equalsIgnoreCase (some E'.domainName) domain = true →
        (∀ r ∈ us, resolveDomain E' r = resolveDomain E r) →
        ((processor E' process').process x).run t = (.ok (), t') →
        ∃ acts', Performed E' process' x ⟨some us, data.content⟩ acts' t t' ∧ Covers E' us acts' ∧
          (∀ r ∈ us, AtHome E' r) ∧ ∀ domain' us', .group domain' us' ∉ acts' := by
  obtain ⟨acts, hacts, hcov⟩ := covers_of_run hto hrun
  refine ⟨acts, hacts, hcov, fun domain us hmem E' process' x t t' hx hdomain halike hrun' => ?_⟩
  have hto' : (⟨some us, data.content⟩ : GroupMessage).to_ = some us := rfl
  have hdo : ((processor E' process').doProcess x (some ⟨some us, data.content⟩)).run t =
      (.ok (), t') := by
    obtain ⟨c, hc, hcdata⟩ : ∃ c, x.content = some c ∧ c.data = x.data := by
      rcases hc : x.content with _ | c
      · rw [MessageOf.data, hc] at hx
        cases hx
      · exact ⟨c, rfl, by rw [MessageOf.data, hc]; rfl⟩
    have hconvert : c.data.convert Data.groupMessage? = .ok (some ⟨some us, data.content⟩) := by
      rw [hcdata, hx]
      rfl
    exact (run_bind_ok (run_getData hc hconvert t)).symm.trans hrun'
  obtain ⟨acts', hacts', hcov'⟩ := covers_of_run hto' hdo
  have hhome : ∀ r ∈ us, AtHome E' r := by
    intro r hr
    rw [AtHome, halike r hr, (hcov.mem_group hmem hr).2.2]
    exact hdomain
  refine ⟨acts', hacts', hcov', hhome, fun domain' us' hmem' => ?_⟩
  obtain ⟨r, hr⟩ := List.exists_mem_of_ne_nil us' (hcov'.groups hmem')
  obtain ⟨hru, haway, -⟩ := hcov'.mem_group hmem' hr
  exact haway (hhome r hru)

end CustomGroupMessageProcessor

/-! ### A group in two domains -/

namespace CustomGroupMessageProcessor

namespace Sample

/-- The users of an app live in two domains. -/
def env (domainName : String) : Environment where
  domainName
  processorName := "processor-01"
  clientApps appName :=
    if appName = "APP" then
      some
        { appName := some "APP"
          appId := some "id"
          masterUserId := some "APP-1"
          userDistributions := some
            [⟨some "domain-01", some 1, some 100⟩, ⟨some "domain-02", some 101, none⟩] }
    else none
  routes := some id
  acceptsUrl _ := true
  keyOrder := id
  keyOrder_perm := List.Perm.refl
  uuid n := "processor-message-" ++ toString n
  now n := n

/-- A user at home, one without address, and two of the other domain. -/
def recipients : List (Option String) := [some "APP-5", some "APP-6", some "APP-105", some "APP-106"]

def groupMessage : GroupMessage := ⟨some recipients, some "hello"⟩

def message : Message :=
  { newMessage "1" 1 with
    content := some
      (createMessageContent .GROUP_MESSAGE (.groupMessage groupMessage) (some .RELIABLE))
    from_ := some "APP-7"
    to_ := some "Processor"
    meta_ := some {} }

/-- The user at home is on two sockets, and the other domain is connected. -/
def start : State where
  channels u :=
    if u = "APP-5" then
      some [⟨some "domain-01", some "connector-01", some 1⟩,
        ⟨some "domain-01", some "connector-01", some 2⟩]
    else if u = "domain2-1" then some [⟨some "domain-01", some "connector-02", some 3⟩]
    else none

end Sample

section

attribute [local instance] JavaChar.ascii

open Linker.Processor.CustomGroupMessageProcessor.Sample

/-- Two records for the connectors, the second of them the wrapper of a group message. -/
theorem fanOut_twoDomains : ∃ s', ((processor (env "domain-01")
      (Processor.process (env "domain-01") 4)).doProcess message (some groupMessage)).run start =
        (.ok (), s') ∧
    s'.parcels.map (fun p => (p.target, p.message.type)) =
      [("connector-01", some .GROUP_CONNECTOR_MESSAGE), ("connector-02", some .INTERNAL_MESSAGE)] ∧
    ∃ acts, Performed (env "domain-01") (Processor.process (env "domain-01") 4) message groupMessage
      acts start s' ∧ Covers (env "domain-01") recipients acts := by
  have hend : (fun out => (out.1.isOk, out.2.parcels.map fun p => (p.target, p.message.type)))
      (((processor (env "domain-01") (Processor.process (env "domain-01") 4)).doProcess message
        (some groupMessage)).run start) = (true, [("connector-01", some .GROUP_CONNECTOR_MESSAGE),
          ("connector-02", some .INTERNAL_MESSAGE)]) := by decide +kernel
  rcases hrun : ((processor (env "domain-01") (Processor.process (env "domain-01") 4)).doProcess
      message (some groupMessage)).run start with ⟨e | u, s'⟩
  · rw [hrun] at hend
    cases hend
  · rw [hrun] at hend
    obtain ⟨acts, hacts, hcov, -⟩ := fanOut rfl hrun
    exact ⟨s', rfl, (Prod.mk.inj hend).2, acts, hacts, hcov⟩

end

end CustomGroupMessageProcessor

end Linker.Processor
