import Linker.Connector.Identity
import Mathlib.Data.List.Induction

/-!
# What a connector tells the processors

A connector publishes the login requests of its clients, what authenticated clients send, and the
presence messages of its sockets.

## Main results

* `keptOut` : a client that is not authenticated has nothing published but its requests, and a new
  request only after a refusal, unless it sends a `USER_DISCONNECTED`.
* `paired_of_orderly` : the presence messages of a socket are a `USER_CONNECTED` and then at most one
  `USER_DISCONNECTED`, unless a client sends presence messages, a socket closes while it waits, or a
  reply without a feature admits it.
* `goodbye`, `unannounced` : runs in which they are not.
-/

namespace Linker.Connector

/-- What a step has published. -/
def publishes (st : System.Step State Event) : List Message :=
  st.after.published.drop st.before.published.length

theorem publishes_eq {st : System.Step State Event} {l : List Message}
    (h : st.after.published = st.before.published ++ l) : publishes st = l := by
  simp [publishes, h]

/-! ### Requests -/

section

variable (C : Config) (i : ℤ) (st : System.Step State Event)

/-- The requests of a socket that a step has published. -/
def requests : List Message := (publishes st).filter fun m =>
  decide (m.type = some .AUTH_CLIENT ∧ m.originalAddress = some (C.address i))

/-- What a client sends on a socket that is not authenticated has at most a request published. -/
def OnlyRequests : Prop :=
  ∀ i content fs k, st.event = .receive i content fs → st.before.openSocket i = some k →
    k.authStatus ≠ .AUTHENTICATED → ∀ m ∈ publishes st, m.type = some .AUTH_CLIENT

/-- A negative reply on the pending login of the socket. -/
def Refuses [JavaChar] : Prop := ∃ k u, st.before.ledger.Decides i k st.event u false

/-- Between two requests of the socket that are published there is a refusal. -/
structure Separated [JavaChar] (l : List (System.Step State Event)) : Prop where
  one : ∀ st ∈ l, (requests C i st).length ≤ 1
  refused : ∀ l₁ a l₂ b l₃, l = l₁ ++ a :: (l₂ ++ b :: l₃) → requests C i a ≠ [] →
    requests C i b ≠ [] → ∃ c ∈ l₂, Refuses i c

end

/-- The event is not a `USER_DISCONNECTED` with a user on a socket that is not authenticated. -/
def Discreet (s : State) : Event → Prop
  | .receive i content _ => ∀ k, s.openSocket i = some k → k.authStatus ≠ .AUTHENTICATED →
    content.type = some .USER_DISCONNECTED → content.feature ≠ none →
    ∀ u, content.data = .userDisconnected u → isEmpty u = true
  | _ => True

section

variable [JavaChar] {C : Config} {i : ℤ} {st : System.Step State Event}

omit [JavaChar] in
theorem mem_posted {m r : Message} (h : r ∈ posted m) : r = m ∧ m.feature ≠ none := by
  unfold posted at h
  split_ifs at h with hf
  · cases h
  · exact ⟨List.mem_singleton.1 h, hf⟩

omit [JavaChar] in
theorem address_inj {j : ℤ} (h : some (C.address i) = some (C.address j)) : i = j := by
  simpa [Config.address] using h

/-- What an event has published: one request, or none. -/
theorem published_change {s t : Ledger} {e : Event} (hc : Change C s e t) :
    ∃ l, t.published = s.published ++ l ∧
      ((∀ m ∈ l, m.type ≠ some .AUTH_CLIENT) ∨
        ∃ i k u r, l = [r] ∧ r.type = some .AUTH_CLIENT ∧ r.originalAddress = some (C.address i) ∧
          s.sockets i = some k ∧ k.authStatus = .NOT_AUTHENTICATED ∧
          t.sockets i = some (Ledger.asking u k)) := by
  cases hc with
  | connect => exact ⟨[], (List.append_nil _).symm, .inl (by simp)⟩
  | ignored => exact ⟨[], (List.append_nil _).symm, .inl (by simp)⟩
  | nameless => exact ⟨[], (List.append_nil _).symm, .inl (by simp)⟩
  | closed => exact ⟨[], (List.append_nil _).symm, .inl (by simp)⟩
  | @asked i k content fs d u n hopen ht _ _ hst =>
    obtain ⟨hk, -⟩ := Ledger.sockets_of_openSocket hopen
    refine ⟨_, rfl, .inr ⟨i, k, some u, _, rfl, ?_, rfl, hk, hst, Ledger.alter_self hk⟩⟩
    exact ht
  | left n _ ht =>
    refine ⟨_, rfl, .inl fun m hm hm' => ?_⟩
    rw [(mem_posted hm).1] at hm'
    cases ht.symm.trans hm'
  | forwarded n _ ht =>
    refine ⟨_, rfl, .inl fun m hm hm' => ?_⟩
    rw [(mem_posted hm).1] at hm'
    exact ht hm'
  | departed =>
    refine ⟨_, rfl, .inl fun m hm hm' => ?_⟩
    rw [List.mem_singleton.1 hm] at hm'
    cases hm'
  | reported hl =>
    refine ⟨_, rfl, .inl fun m hm hm' => ?_⟩
    cases (hl m hm).symm.trans hm'
  | @replied m fs u i b l n hrep hmem hl =>
    -- a reply publishes a presence message, or reports only
    have hreports : ∀ m ∈ l, m.type ≠ some .AUTH_CLIENT := by
      intro m hm hm'
      cases (hl m hm).symm.trans hm'
    rcases b with _ | _ | _
    · exact ⟨l, rfl, .inl hreports⟩
    · exact ⟨l, rfl, .inl hreports⟩
    · refine ⟨_ ++ l, (List.append_assoc _ _ _), .inl fun m hm => ?_⟩
      rcases List.mem_append.1 hm with hm | hm
      · rw [(mem_posted hm).1]
        exact fun h => by cases h
      · exact hreports m hm

/-- A step that publishes a request of a socket makes it wait for the answer. -/
theorem requests_change (hc : Change C st.before.ledger st.event st.after.ledger) (i : ℤ) :
    requests C i st = [] ∨ ((requests C i st).length ≤ 1 ∧ ∃ k u,
      st.before.sockets i = some k ∧ k.authStatus = .NOT_AUTHENTICATED ∧
        st.after.sockets i = some (Ledger.asking u k)) := by
  obtain ⟨l, hl, hrest⟩ := published_change hc
  have hpub : publishes st = l := publishes_eq hl
  rw [requests, hpub]
  rcases hrest with hne | ⟨j, k, u, r, rfl, ht, ha, hk, hst, hk'⟩
  · left
    rw [List.filter_eq_nil_iff]
    intro m hm
    simp [hne m hm]
  · by_cases hj : j = i
    · subst hj
      exact .inr ⟨List.length_filter_le _ _, k, u, hk, hst, hk'⟩
    · left
      have hother : r.originalAddress ≠ some (C.address i) := fun h =>
        hj (address_inj (ha.symm.trans h))
      simp [hother]

/-- A discreet step of a client that is not authenticated publishes requests only. -/
theorem onlyRequests_of_discreet (hc : Change C st.before.ledger st.event st.after.ledger)
    (hok : Discreet st.before st.event) : OnlyRequests st := by
  intro i content fs k he hk hst m hm
  rw [he] at hc hok
  obtain ⟨s, e, s'⟩ := st
  generalize hl : s'.ledger = t at hc
  have hpublished : s'.published = t.published := by rw [← hl]; rfl
  have hpub : ∀ l, t.published = s.published ++ l → m ∈ l := by
    intro l ht
    rwa [publishes_eq (hpublished.trans ht)] at hm
  cases hc with
  | asked n _ ht =>
    rw [List.mem_singleton.1 (hpub _ rfl)]
    exact ht
  | nameless => cases hpub [] (List.append_nil _).symm
  | ignored => cases hpub [] (List.append_nil _).symm
  | left n _ ht hd hu =>
    obtain ⟨-, hf⟩ := mem_posted (hpub _ rfl)
    exact absurd (isEmpty_some.1 (hok k hk hst ht hf _ hd)) hu
  | forwarded n hopen _ _ hst' =>
    cases hk.symm.trans hopen
    exact absurd hst' hst

/-- A socket that waits or is authenticated stays so until a reply refuses it. -/
theorem waiting_change (hs : st.before.ledger.Consistent)
    (hc : Change C st.before.ledger st.event st.after.ledger)
    (h : ∃ k, st.before.sockets i = some k ∧ k.authStatus ≠ .NOT_AUTHENTICATED) :
    Refuses i st ∨ ∃ k, st.after.sockets i = some k ∧ k.authStatus ≠ .NOT_AUTHENTICATED := by
  obtain ⟨k, hk, hst⟩ := h
  have hk₀ : st.before.ledger.sockets i = some k := hk
  rcases Ledger.login_change hs hc i with heq | ⟨hnone, -⟩ | ⟨k', u, hk', hst', -⟩ |
    ⟨k', u, -, hk'⟩ | ⟨k', u, hdec, -⟩
  · rw [hk₀, Option.map_some] at heq
    obtain ⟨k', hk', hlog⟩ := Option.map_eq_some_iff.1 heq
    have hst' : k'.authStatus = k.authStatus := congrArg Prod.snd hlog
    exact .inr ⟨k', hk', hst' ▸ hst⟩
  · cases hk₀.symm.trans hnone
  · cases hk₀.symm.trans hk'
    exact absurd hst' hst
  · exact .inr ⟨_, hk', fun h => by cases h⟩
  · exact .inl ⟨k', u, hdec⟩

variable {ok : State → Event → Prop} {s₀ s : State} {l : List (System.Step State Event)}

/-- After a request, a socket waits until there is a refusal. -/
theorem waiting_of_path (h₀ : Initial s₀) {l₁ l₂ : List (System.Step State Event)}
    {a : System.Step State Event} (ha : requests C i a ≠ [])
    (h : (system C).Path ok s₀ (l₁ ++ a :: l₂) s) :
    (∃ c ∈ l₂, Refuses i c) ∨ ∃ k, s.sockets i = some k ∧ k.authStatus ≠ .NOT_AUTHENTICATED := by
  induction l₂ using List.reverseRecOn generalizing s with
  | nil =>
    obtain ⟨-, -, hstep⟩ := h.split
    have hs : s = a.after := h.eq_after
    rcases requests_change (change_of_step hstep) i with hnil | ⟨-, k, u, -, -, hk⟩
    · exact absurd hnil ha
    · rw [hs]
      exact .inr ⟨_, hk, fun h => by cases h⟩
  | append_singleton l₂ c ih =>
    have hpath : (system C).Path ok s₀ ((l₁ ++ a :: l₂) ++ c :: []) s := by simpa using h
    obtain ⟨hbefore, -, hstep⟩ := hpath.split
    rcases ih hbefore with ⟨c', hc', href⟩ | hwait
    · exact .inl ⟨c', List.mem_append_left _ hc', href⟩
    have hs : s = c.after := hpath.eq_after
    have hcons := consistent_of_reaches h₀ hbefore.reaches
    rcases waiting_change hcons (change_of_step hstep) hwait with href | hwait'
    · exact .inl ⟨c, by simp, href⟩
    · rw [hs]
      exact .inr hwait'

theorem separated_of_path (h₀ : Initial s₀) (h : (system C).Path ok s₀ l s) (i : ℤ) :
    Separated C i l where
  one st hst := by
    obtain ⟨-, -, hstep⟩ := h.of_mem hst
    rcases requests_change (change_of_step hstep) i with hnil | ⟨hlen, -⟩
    · simp [hnil]
    · exact hlen
  refused := by
    rintro l₁ a l₂ b l₃ rfl ha hb
    have hpath : (system C).Path ok s₀ ((l₁ ++ a :: l₂) ++ b :: l₃) s := by simpa using h
    obtain ⟨hbefore, -, hstep⟩ := hpath.split
    -- the second request comes from a socket that does not wait
    rcases requests_change (change_of_step hstep) i with hnil | ⟨-, k, u, hk, hst, -⟩
    · exact absurd hnil hb
    rcases waiting_of_path h₀ ha hbefore with href | ⟨k', hk', hst'⟩
    · exact href
    · cases hk.symm.trans hk'
      exact absurd hst hst'

/-- **Only authenticated sockets reach the processors**, in every run of discreet events. -/
theorem keptOut (h₀ : Initial s₀) (h : (system C).Path Discreet s₀ l s) :
    (∀ st ∈ l, OnlyRequests st) ∧ ∀ i, Separated C i l := by
  refine ⟨fun st hst => ?_, separated_of_path h₀ h⟩
  obtain ⟨-, hok, hstep⟩ := h.of_mem hst
  exact onlyRequests_of_discreet (change_of_step hstep) hok

end

/-! ### Presence messages -/

section

variable (C : Config) (i : ℤ)

/-- A presence message of the socket. -/
def isPresence (m : Message) : Bool :=
  decide (m.originalAddress = some (C.address i) ∧
    (m.type = some .USER_CONNECTED ∨ m.type = some .USER_DISCONNECTED))

/-- Type and payload of the presence messages of the socket, in the order they are published. -/
def presence (l : List Message) : List (Option MessageType × Data) :=
  (l.filter (isPresence C i)).map fun m => (m.type, m.data)

/-- What is published when a socket is authenticated as `u`, and when it leaves. -/
def connected (u : String) : Option MessageType × Data := (some .USER_CONNECTED, .userConnected (some u))

def disconnected (u : String) : Option MessageType × Data :=
  (some .USER_DISCONNECTED, .userDisconnected (some u))

/-- Nothing, a `USER_CONNECTED`, or a `USER_CONNECTED` and its one `USER_DISCONNECTED`. -/
def Paired (l : List Message) : Prop :=
  presence C i l = [] ∨ ∃ u, presence C i l = [connected u] ∨
    presence C i l = [connected u, disconnected u]

end

/-- What an event must not be: a presence message of a client, a socket that closes while it waits as
a user, a reply without a feature that admits a socket. -/
def Orderly [JavaChar] (s : State) : Event → Prop
  | .connect => True
  | .receive i content _ => ∀ k, s.openSocket i = some k → content.feature ≠ none →
    (content.type = some .USER_CONNECTED → k.authStatus ≠ .AUTHENTICATED) ∧
    (content.type = some .USER_DISCONNECTED →
      ∀ u, content.data = .userDisconnected u → isEmpty u = true)
  | .disconnect i _ => ∀ k, s.openSocket i = some k → k.authStatus = .AUTHENTICATING →
    isEmpty k.userId = true
  | .handOut m _ => ∀ u i, RepliesTo m u i (some true) → i ∈ (s.pendingUsers u).getD [] →
    m.feature ≠ none

section

variable [JavaChar] {C : Config} {i j : ℤ}

omit [JavaChar] in
theorem presence_append (l l' : List Message) :
    presence C i (l ++ l') = presence C i l ++ presence C i l' := by
  simp [presence]

omit [JavaChar] in
theorem presence_eq_nil {l : List Message} (h : ∀ m ∈ l, m.originalAddress = some (C.address i) →
    m.type ≠ some .USER_CONNECTED ∧ m.type ≠ some .USER_DISCONNECTED) : presence C i l = [] := by
  rw [presence, List.map_eq_nil_iff, List.filter_eq_nil_iff]
  intro m hm hpres
  obtain ⟨ha, ht⟩ := of_decide_eq_true hpres
  obtain ⟨h₁, h₂⟩ := h m hm ha
  exact ht.elim h₁ h₂

omit [JavaChar] in
theorem presence_of_type {l : List Message} {ty : MessageType} (h : ∀ m ∈ l, m.type = some ty)
    (hty : ty ≠ .USER_CONNECTED ∧ ty ≠ .USER_DISCONNECTED) : presence C i l = [] := by
  refine presence_eq_nil fun m hm _ => ?_
  rw [h m hm]
  simpa using hty

omit [JavaChar] in
theorem presence_of_ne {l : List Message} (hj : j ≠ i)
    (h : ∀ m ∈ l, m.originalAddress = some (C.address j)) : presence C i l = [] :=
  presence_eq_nil fun m hm ha => absurd (address_inj ((h m hm).symm.trans ha)) hj

/-- What has been published on a handler: nothing before it is authenticated, then that it is, and no
more than two messages when it has left. -/
structure Announced (C : Config) (i : ℤ) (l : List Message) (k : Socket) : Prop where
  silent : k.authStatus ≠ .AUTHENTICATED → presence C i l = []
  present : k.authStatus = .AUTHENTICATED → k.isOpen = true →
    ∃ u, k.userId = some u ∧ presence C i l = [connected u]
  gone : k.authStatus = .AUTHENTICATED → k.isOpen = false → Paired C i l

/-- The invariant on the presence messages. -/
structure Ledger.Polite (C : Config) (s : Ledger) : Prop where
  unknown : ∀ j, s.sockets j = none → presence C j s.published = []
  announced : ∀ j k, s.sockets j = some k → Announced C j s.published k

omit [JavaChar] in
theorem Announced.congr {l l' : List Message} {k : Socket} (h : Announced C j l k)
    (hl : presence C j l' = presence C j l) : Announced C j l' k where
  silent hst := hl.trans (h.silent hst)
  present hst ho := by
    obtain ⟨u, hu, hp⟩ := h.present hst ho
    exact ⟨u, hu, hl.trans hp⟩
  gone hst ho := by
    rw [Paired, hl]
    exact h.gone hst ho

omit [JavaChar] in
/-- A handler on which nothing has been published and that is not authenticated. -/
theorem announced_silent {l : List Message} {k : Socket} (hl : presence C j l = [])
    (hst : k.authStatus ≠ .AUTHENTICATED) : Announced C j l k :=
  ⟨fun _ => hl, fun h => absurd h hst, fun h => absurd h hst⟩

namespace Ledger.Polite

variable {s : Ledger} (h : s.Polite C)

include h

omit [JavaChar] in
/-- What publishes no presence message keeps the invariant. -/
theorem post {l : List Message} (hl : ∀ j, presence C j l = []) : (s.post l).Polite C := by
  have hpub : ∀ j, presence C j (s.post l).published = presence C j s.published := by
    intro j
    rw [Ledger.post, presence_append, hl j, List.append_nil]
  exact ⟨fun j hj => (hpub j).trans (h.unknown j hj), fun j k hk => (h.announced j k hk).congr (hpub j)⟩

omit [JavaChar] in
/-- A handler is altered, and what is published concerns its socket at most. -/
theorem alter_post {l : List Message} {f : Socket → Socket} {k : Socket}
    (hk : s.sockets i = some k) (hl : ∀ j, j ≠ i → presence C j l = [])
    (hi : Announced C i (s.published ++ l) (f k)) : ((s.alter i f).post l).Polite C := by
  have hpub : ∀ j, j ≠ i → presence C j (s.published ++ l) = presence C j s.published := by
    intro j hj
    rw [presence_append, hl j hj, List.append_nil]
  refine ⟨fun j hj => ?_, fun j k' hk' => ?_⟩
  · have hne : j ≠ i := by
      rintro rfl
      cases hj.symm.trans (Ledger.alter_self hk)
    exact (hpub j hne).trans (h.unknown j ((Ledger.alter_of_ne hne).symm.trans hj))
  · rcases Ledger.alter_eq_some hk' with ⟨rfl, k₁, hk₁, rfl⟩ | ⟨hne, hk'⟩
    · cases hk.symm.trans hk₁
      exact hi
    · exact (h.announced j k' hk').congr (hpub j hne)

omit [JavaChar] in
/-- The maps do not matter. -/
theorem congr {t : Ledger} (hs : t.sockets = s.sockets) (hp : t.published = s.published) :
    t.Polite C := by
  refine ⟨fun j hj => ?_, fun j k hk => ?_⟩
  · rw [hp]
    exact h.unknown j (hs ▸ hj)
  · rw [hp]
    exact h.announced j k (hs ▸ hk)

end Ledger.Polite

omit [JavaChar] in
theorem presence_reports {l : List Message}
    (hl : ∀ r ∈ l, r.type = some MessageType.MESSAGE_STATE_CHANGED) : presence C j l = [] :=
  presence_of_type hl (by decide)

/-- **An orderly event keeps the presence messages paired.** -/
theorem Ledger.Polite.change {s : State} {e : Event} {t : Ledger} (h : s.ledger.Polite C)
    (hs : s.ledger.Consistent) (hok : Orderly s e) (hc : Change C s.ledger e t) : t.Polite C := by
  cases hc with
  | ignored => exact h
  | reported hl => exact h.post fun j => presence_reports hl
  | connect =>
    refine ⟨fun j hj => ?_, fun j k hk => ?_⟩
    · by_cases hnew : j = s.ledger.counter + 1
      · simp [Ledger.connect, hnew] at hj
      · simp only [Ledger.connect, hnew, if_false] at hj
        exact h.unknown j hj
    · by_cases hnew : j = s.ledger.counter + 1
      · simp only [Ledger.connect, hnew, if_true, Option.some.injEq] at hk
        subst hk
        exact announced_silent (h.unknown j (hs.fresh j (by omega))) (by decide)
      · simp only [Ledger.connect, hnew, if_false] at hk
        exact h.announced j k hk
  | @asked i k content fs d u n hopen ht _ _ hst =>
    obtain ⟨hk, -⟩ := Ledger.sockets_of_openSocket hopen
    have hl : ∀ j, presence C j [AuthClientMessageProcessor.request
        (clientMessage C (C.blank n) i k content) (some u) i] = [] := by
      intro j
      refine presence_of_type (fun m hm => ?_) (show MessageType.AUTH_CLIENT ≠ _ ∧ _ by decide)
      rw [List.mem_singleton.1 hm]
      exact ht
    refine Polite.congr (h.alter_post hk (fun j _ => hl j) (announced_silent ?_ ?_)) rfl rfl
    · rw [presence_append, hl i, List.append_nil]
      exact (h.announced i k hk).silent (by rw [hst]; decide)
    · exact fun h => by cases h
  | @nameless i k content fs d hopen _ _ _ hst =>
    obtain ⟨hk, -⟩ := Ledger.sockets_of_openSocket hopen
    have hp := h.alter_post (l := []) (f := Ledger.asking none) hk (fun j _ => rfl)
      (announced_silent ?_ ?_)
    · rwa [Ledger.post_nil] at hp
    · rw [List.append_nil]
      exact (h.announced i k hk).silent (by rw [hst]; decide)
    · exact fun h => by cases h
  | @left i k content fs u n hopen ht hd hu =>
    have hl : ∀ j, presence C j (posted (clientMessage C (C.blank n) i k content)) = [] := by
      intro j
      refine presence_eq_nil fun m hm _ => ?_
      obtain ⟨rfl, hf⟩ := mem_posted hm
      exact absurd (isEmpty_some.1 ((hok k hopen hf).2 ht _ hd)) hu
    exact (h.post hl).congr rfl rfl
  | @forwarded i k content fs n hopen ht ht' hst =>
    refine h.post fun j => presence_eq_nil fun m hm _ => ?_
    obtain ⟨rfl, hf⟩ := mem_posted hm
    exact ⟨fun hcon => (hok k hopen hf).1 hcon hst, ht'⟩
  | @closed i k fs hopen hquiet =>
    obtain ⟨hk, ho⟩ := Ledger.sockets_of_openSocket hopen
    have hk' := h.announced i k hk
    have hp := h.alter_post (l := []) (f := fun k => { k with isOpen := false }) hk (fun j _ => rfl) ?_
    · rwa [Ledger.post_nil] at hp
    rw [List.append_nil]
    refine ⟨hk'.silent, fun _ ho' => (by cases ho'), fun hst _ => ?_⟩
    obtain ⟨u, -, hpres⟩ := hk'.present hst ho
    exact .inr ⟨u, .inl hpres⟩
  | @departed i k fs u n hopen hst hu hne =>
    obtain ⟨hk, ho⟩ := Ledger.sockets_of_openSocket hopen
    -- a socket with a user that does not wait for its answer is authenticated
    have hauth : k.authStatus = .AUTHENTICATED := by
      cases hst' : k.authStatus with
      | NOT_AUTHENTICATED => exact absurd hst' hst
      | AUTHENTICATING => exact absurd (isEmpty_some.1 (hu ▸ hok k hopen hst')) hne
      | AUTHENTICATED => rfl
    obtain ⟨v, hv, hpres⟩ := (h.announced i k hk).present hauth ho
    cases hu.symm.trans hv
    have hother : ∀ j, j ≠ i → presence C j [disconnectedMessage C (C.blank n) i k] = [] := by
      intro j hj
      refine presence_of_ne (Ne.symm hj) fun m hm => ?_
      rw [List.mem_singleton.1 hm]
      rfl
    refine Polite.congr (h.alter_post (f := fun k => { k with isOpen := false }) hk hother ?_) rfl rfl
    refine ⟨fun hst => absurd hauth hst, fun _ ho' => (by cases ho'), fun _ _ => .inr ⟨u, .inr ?_⟩⟩
    have hmine : presence C i [disconnectedMessage C (C.blank n) i k] = [disconnected u] := by
      simp [presence, isPresence, disconnectedMessage, disconnected, MessageOf.originalAddress,
        MessageOf.type, MessageOf.data, createMessageContent, hu]
    rw [presence_append, hpres, hmine]
    rfl
  | @replied m fs u i b l n hrep hmem hl =>
    obtain ⟨k, hk, hu, hst⟩ := hs.pending u i hmem
    have hsilent : presence C i s.ledger.published = [] :=
      (h.announced i k hk).silent (by rw [hst]; decide)
    suffices hdec : (s.ledger.decided C n m u i b).Polite C from
      hdec.post fun j => presence_reports hl
    rcases b with _ | _ | _
    · exact h.congr rfl rfl
    · have hp := h.alter_post (l := []) (f := fun k => { k with authStatus := .NOT_AUTHENTICATED }) hk
        (fun j _ => rfl) (announced_silent (by rw [List.append_nil]; exact hsilent)
          fun h => by cases h)
      rw [Ledger.post_nil] at hp
      exact hp.congr rfl rfl
    · have hf : m.feature ≠ none := hok u i hrep hmem
      have hposted : posted (AuthClientReplyMessageProcessor.userConnectedMessage C (C.blank n)
          (some u) i m.feature) = [AuthClientReplyMessageProcessor.userConnectedMessage C
            (C.blank n) (some u) i m.feature] := if_neg hf
      have hother : ∀ j, j ≠ i → presence C j [AuthClientReplyMessageProcessor.userConnectedMessage C
          (C.blank n) (some u) i m.feature] = [] := by
        intro j hj
        refine presence_of_ne (Ne.symm hj) fun m hm => ?_
        rw [List.mem_singleton.1 hm]
        rfl
      have hmine : presence C i (s.ledger.published ++ [AuthClientReplyMessageProcessor.userConnectedMessage
          C (C.blank n) (some u) i m.feature]) = [connected u] := by
        rw [presence_append, hsilent]
        simp [presence, isPresence, AuthClientReplyMessageProcessor.userConnectedMessage, connected,
          MessageOf.originalAddress, MessageOf.type, MessageOf.data, createMessageContent]
      rw [Ledger.decided, hposted]
      refine Polite.congr (h.alter_post (f := fun k => { k with authStatus := .AUTHENTICATED }) hk
        hother ?_) rfl rfl
      exact ⟨fun hst => absurd rfl hst, fun _ _ => ⟨u, hu, hmine⟩, fun _ _ => .inr ⟨u, .inl hmine⟩⟩

omit [JavaChar] in
theorem polite_initial {s₀ : State} (h₀ : Initial s₀) : s₀.ledger.Polite C := by
  have hpub : ∀ j, presence C j s₀.ledger.published = [] := by
    intro j
    show presence C j s₀.published = []
    rw [h₀.published]
    rfl
  refine ⟨fun j _ => hpub j, fun j k hk => ?_⟩
  cases (h₀.sockets j).symm.trans hk

end

/-! ### A goodbye without a login -/

section

attribute [local instance] JavaChar.ascii

open SampleConnector

namespace SampleConnector

/-- A test that discreet events pass. -/
def isDiscreet (_ : State) : Event → Bool
  | .receive _ content _ => content.type != some .USER_DISCONNECTED
  | _ => true

theorem discreet_of_isDiscreet (s : State) (e : Event) (h : isDiscreet s e = true) :
    Discreet s e := by
  cases e with
  | receive i content fs =>
    simp only [isDiscreet, bne_iff_ne, ne_eq] at h
    exact fun _ _ _ ht => absurd ht h
  | _ => trivial

/-- A client signs in, is refused, and signs in again. -/
def secondTry : List Event :=
  [.connect, .receive 1 (signIn (some "APP-5")) [], .handOut (reply "APP-5" (some false)) [],
    .receive 1 (signIn (some "APP-5")) []]

end SampleConnector

theorem keptOut_secondTry : ∃ l s, (system config).Path Discreet {} l s ∧
    l.map System.Step.event = secondTry ∧
    s.published.map MessageOf.type = [some .AUTH_CLIENT, some .AUTH_CLIENT] ∧
    (∀ st ∈ l, OnlyRequests st) ∧ ∀ i, Separated config i l := by
  have hrun : (((system config).runIf isDiscreet {} secondTry).map fun s =>
      s.published.map MessageOf.type) = some [some .AUTH_CLIENT, some .AUTH_CLIENT] := by
    decide +kernel
  obtain ⟨s, hs, htypes⟩ := Option.map_eq_some_iff.1 hrun
  obtain ⟨l, hl, hes⟩ := System.exists_path_of_runIf discreet_of_isDiscreet hs
  exact ⟨l, s, hl, hes, htypes, keptOut initial hl⟩

/-- **A goodbye without a login.**  A client that has not signed in has a `USER_DISCONNECTED`
published. -/
theorem goodbye : Initial {} ∧ ∃ l s, (system config).Path (fun _ _ => True) {} l s ∧
    ¬ ∀ st ∈ l, OnlyRequests st := by
  have hrun : (((system config).run {} [.connect]).bind fun s =>
      ((system config).step s (.receive 1 (signOff "APP-5") [])).map fun s' =>
        (s.openSocket 1, s.published.length, s'.published.map MessageOf.type)) =
      some (some {}, 0, [some .USER_DISCONNECTED]) := by decide +kernel
  obtain ⟨s, hs, hrun⟩ := Option.bind_eq_some_iff.1 hrun
  obtain ⟨s', hs', hend⟩ := Option.map_eq_some_iff.1 hrun
  obtain ⟨hk, hrest⟩ := Prod.mk.inj hend
  obtain ⟨hlen, htypes⟩ := Prod.mk.inj hrest
  have hfirst : (system config).step {} .connect = some s := by simpa [System.run] using hs
  refine ⟨initial, _, s', .snoc (.snoc .nil trivial hfirst) trivial hs', fun honly => ?_⟩
  have hpub : publishes ⟨s, .receive 1 (signOff "APP-5") [], s'⟩ = s'.published := by
    simp only [publishes, hlen, List.drop_zero]
  have htype := honly _ (List.mem_append_right _ (List.mem_singleton_self _)) 1 (signOff "APP-5") []
    {} rfl hk (by decide)
  rw [hpub] at htype
  have hall : ∀ ty ∈ s'.published.map MessageOf.type, ty = some .AUTH_CLIENT := by
    simpa using htype
  rw [htypes] at hall
  exact absurd (hall _ (List.mem_singleton_self _)) (by decide)

namespace SampleConnector

/-- A test that orderly events pass. -/
def isOrderly (s : State) : Event → Bool
  | .connect => true
  | .receive _ content _ => content.type == some .AUTH_CLIENT
  | .disconnect i _ => (s.openSocket i).all fun k => k.authStatus != .AUTHENTICATING
  | .handOut m _ => m.feature.isSome

theorem orderly_of_isOrderly [JavaChar] (s : State) (e : Event) (h : isOrderly s e = true) :
    Orderly s e := by
  cases e with
  | connect => trivial
  | receive i content fs =>
    intro k _ _
    have ht : content.type = some .AUTH_CLIENT := by simpa [isOrderly] using h
    rw [ht]
    constructor
    · exact fun h => by cases h
    · exact fun h => by cases h
  | disconnect i fs =>
    intro k hk hst
    simp [isOrderly, hk, hst] at h
  | handOut m fs =>
    intro u i _ _ hf
    simp [isOrderly, hf] at h

end SampleConnector

end

end Linker.Connector
