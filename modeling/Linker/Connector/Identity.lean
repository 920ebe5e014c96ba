import Linker.Connector.Ledger
import Mathlib.Data.List.Nodup

/-!
# Identities at a connector

The status and the user id of a socket are in its handler, and whether it is known as that user is in
the two maps of `NetworkUserService`.  Four handlers change them.

## Main results

* `Ledger.Consistent` : the invariant that ties the maps to the handlers, kept by every event.
* `Ledger.login_change` : what can become of the user and the status of a handler.
* `identities` : the connector never confuses identities, whatever comes.
-/

namespace Linker.Connector

/-! ### The maps -/

namespace UserMap

variable {map : UserMap} {u v : String} {i : ℤ}

theorem nodup_addUser (h : ∀ v, ((map v).getD []).Nodup) (hi : i ∉ (map u).getD []) (v : String) :
    ((map.addUser u i v).getD []).Nodup := by
  by_cases hv : v = u
  · subst hv
    simp only [addUser, if_true, Option.getD_some]
    refine List.nodup_append.2 ⟨h v, List.nodup_singleton i, ?_⟩
    intro a ha b hb hab
    rw [List.mem_singleton.1 hb] at hab
    exact hi (hab ▸ ha)
  · simpa [addUser, hv] using h v

theorem nodup_removeUser (h : ∀ v, ((map v).getD []).Nodup) (v : String) :
    ((map.removeUser u i v).getD []).Nodup := by
  by_cases hv : v = u
  · subst hv
    have hmap := h v
    simp only [removeUser, if_true]
    cases hm : map v with
    | none => simp
    | some l =>
      rw [hm] at hmap
      simp only [Option.bind_some]
      split_ifs
      · simp
      · exact hmap.filter _
  · simpa [removeUser, hv] using h v

theorem addUser_ne_nil (h : ∀ v, map v ≠ some []) (v : String) : map.addUser u i v ≠ some [] := by
  by_cases hv : v = u
  · simp [addUser, hv]
  · simpa [addUser, hv] using h v

theorem removeUser_ne_nil (h : ∀ v, map v ≠ some []) (v : String) :
    map.removeUser u i v ≠ some [] := by
  by_cases hv : v = u
  · subst hv
    simp only [removeUser, if_true]
    cases map v with
    | none => simp
    | some l =>
      simp only [Option.bind_some]
      split_ifs with hl
      · simp
      · intro hnil
        rw [Option.some.inj hnil] at hl
        exact hl rfl
  · simpa [removeUser, hv] using h v

/-- A handler in the list of its user is found. -/
theorem getUser_of_mem (h : i ∈ (map u).getD []) : map.getUser u (some i) = some i := by
  cases hfound : map.getUser u (some i) with
  | none =>
    have := List.find?_eq_none.1 hfound i h
    simp at this
  | some j => rw [Option.some.inj (getUser_eq_some hfound).1]

end UserMap

/-! ### The invariant -/

namespace Ledger

/-- The maps agree with the handlers. -/
structure Consistent (s : Ledger) : Prop where
  fresh : ∀ i, s.counter < i → s.sockets i = none
  users : ∀ u i, i ∈ (s.users u).getD [] →
    ∃ k, s.sockets i = some k ∧ k.userId = some u ∧ k.authStatus = .AUTHENTICATED
  pending : ∀ u i, i ∈ (s.pendingUsers u).getD [] →
    ∃ k, s.sockets i = some k ∧ k.userId = some u ∧ k.authStatus = .AUTHENTICATING
  users_nodup : ∀ u, ((s.users u).getD []).Nodup
  pending_nodup : ∀ u, ((s.pendingUsers u).getD []).Nodup
  users_ne_nil : ∀ u, s.users u ≠ some []
  pending_ne_nil : ∀ u, s.pendingUsers u ≠ some []
  /-- An authenticated socket has a user. -/
  named : ∀ i k, s.sockets i = some k → k.authStatus = .AUTHENTICATED → ∃ u, k.userId = some u

/-- The socket is in neither map. -/
def Absent (i : ℤ) (s : Ledger) : Prop :=
  ∀ u, i ∉ (s.users u).getD [] ∧ i ∉ (s.pendingUsers u).getD []

variable {s : Ledger} {i j : ℤ} {k : Socket} {u : String} {f : Socket → Socket}

theorem sockets_of_openSocket (h : s.openSocket i = some k) :
    s.sockets i = some k ∧ k.isOpen = true := Option.filter_eq_some_iff.1 h

theorem alter_self (h : s.sockets i = some k) : (s.alter i f).sockets i = some (f k) := by
  simp [alter, h]

theorem alter_of_ne (h : j ≠ i) : (s.alter i f).sockets j = s.sockets j := by
  simp [alter, h]

theorem alter_none (h : s.sockets j = none) : (s.alter i f).sockets j = none := by
  by_cases hj : j = i
  · subst hj
    simp [alter, h]
  · rw [alter_of_ne hj, h]

/-- A handler after a change is one before it, or the one that has been changed. -/
theorem alter_eq_some (h : (s.alter i f).sockets j = some k) :
    (j = i ∧ ∃ k', s.sockets i = some k' ∧ f k' = k) ∨ (j ≠ i ∧ s.sockets j = some k) := by
  by_cases hj : j = i
  · subst hj
    simp only [alter, if_true, Option.map_eq_some_iff] at h
    exact .inl ⟨rfl, h⟩
  · rw [alter_of_ne hj] at h
    exact .inr ⟨hj, h⟩

namespace Consistent

variable (h : s.Consistent)

include h

/-- Only the handlers in a map have its status. -/
theorem absent_of_notAuthenticated (hk : s.sockets i = some k)
    (hst : k.authStatus = .NOT_AUTHENTICATED) : s.Absent i := by
  intro u
  constructor
  · intro hi
    obtain ⟨k', hk', -, hst'⟩ := h.users u i hi
    cases hk.symm.trans hk'
    rw [hst] at hst'
    cases hst'
  · intro hi
    obtain ⟨k', hk', -, hst'⟩ := h.pending u i hi
    cases hk.symm.trans hk'
    rw [hst] at hst'
    cases hst'

/-- A handler waits for one user at most, and once at most. -/
theorem absent_removePending (hi : i ∈ (s.pendingUsers u).getD []) :
    (s.removePending u i).Absent i := by
  obtain ⟨k, hk, hu, hst⟩ := h.pending u i hi
  intro v
  constructor
  · intro hv
    obtain ⟨k', hk', -, hst'⟩ := h.users v i hv
    cases hk.symm.trans hk'
    rw [hst] at hst'
    cases hst'
  · intro hv
    obtain ⟨hmem, hne⟩ := UserMap.mem_removeUser.1 hv
    obtain ⟨k', hk', hu', -⟩ := h.pending v i hmem
    cases hk.symm.trans hk'
    exact hne ⟨Option.some.inj (hu'.symm.trans hu), rfl⟩

theorem post (l : List Message) : (s.post l).Consistent := { h with }

theorem removePending (u : String) (i : ℤ) : (s.removePending u i).Consistent :=
  { h with
    pending := fun v j hj => h.pending v j (UserMap.mem_removeUser.1 hj).1
    pending_nodup := UserMap.nodup_removeUser h.pending_nodup
    pending_ne_nil := UserMap.removeUser_ne_nil h.pending_ne_nil }

theorem removeUser (u : String) (i : ℤ) : (s.removeUser u i).Consistent :=
  { h with
    users := fun v j hj => h.users v j (UserMap.mem_removeUser.1 hj).1
    users_nodup := UserMap.nodup_removeUser h.users_nodup
    users_ne_nil := UserMap.removeUser_ne_nil h.users_ne_nil }

theorem addPending (hk : s.sockets i = some k) (hu : k.userId = some u)
    (hst : k.authStatus = .AUTHENTICATING) (hi : s.Absent i) : (s.addPending u i).Consistent :=
  { h with
    pending := by
      intro v j hj
      rcases UserMap.mem_addUser.1 hj with hj | ⟨rfl, rfl⟩
      · exact h.pending v j hj
      · exact ⟨k, hk, hu, hst⟩
    pending_nodup := UserMap.nodup_addUser h.pending_nodup (hi u).2
    pending_ne_nil := UserMap.addUser_ne_nil h.pending_ne_nil }

theorem addUser (hk : s.sockets i = some k) (hu : k.userId = some u)
    (hst : k.authStatus = .AUTHENTICATED) (hi : s.Absent i) : (s.addUser u i).Consistent :=
  { h with
    users := by
      intro v j hj
      rcases UserMap.mem_addUser.1 hj with hj | ⟨rfl, rfl⟩
      · exact h.users v j hj
      · exact ⟨k, hk, hu, hst⟩
    users_nodup := UserMap.nodup_addUser h.users_nodup (hi u).1
    users_ne_nil := UserMap.addUser_ne_nil h.users_ne_nil }

/-- A change of a handler that is in no map, or that leaves status and user as they are. -/
theorem alter (hf : ∀ k, s.sockets i = some k → (f k).authStatus = .AUTHENTICATED →
      ∃ u, (f k).userId = some u)
    (hi : s.Absent i ∨ ∀ k, (f k).userId = k.userId ∧ (f k).authStatus = k.authStatus) :
    (s.alter i f).Consistent := by
  -- a handler that is in a map is still there with its user and status
  have hkeep : ∀ j k, s.sockets j = some k → (j = i → ¬ s.Absent i) →
      ∃ k', (s.alter i f).sockets j = some k' ∧ k'.userId = k.userId ∧
        k'.authStatus = k.authStatus := by
    intro j k hk hj
    by_cases hji : j = i
    · subst hji
      rcases hi with hi | hi
      · exact absurd hi (hj rfl)
      · exact ⟨f k, alter_self hk, hi k⟩
    · exact ⟨k, (alter_of_ne hji).trans hk, rfl, rfl⟩
  refine { h with
    fresh := fun j hj => alter_none (h.fresh j hj)
    users := fun v j hj => ?_
    pending := fun v j hj => ?_
    named := fun j k' hk' hst => ?_ }
  · obtain ⟨k, hk, hu, hst⟩ := h.users v j hj
    obtain ⟨k', hk', hu', hst'⟩ := hkeep j k hk fun hji habs => (habs v).1 (hji ▸ hj)
    exact ⟨k', hk', hu'.trans hu, hst'.trans hst⟩
  · obtain ⟨k, hk, hu, hst⟩ := h.pending v j hj
    obtain ⟨k', hk', hu', hst'⟩ := hkeep j k hk fun hji habs => (habs v).2 (hji ▸ hj)
    exact ⟨k', hk', hu'.trans hu, hst'.trans hst⟩
  · rcases alter_eq_some hk' with ⟨rfl, k, hk, rfl⟩ | ⟨-, hk⟩
    · exact hf k hk hst
    · exact h.named j k' hk hst

theorem close (i : ℤ) : (s.alter i fun k => { k with isOpen := false }).Consistent :=
  h.alter (fun k hk hst => h.named i k hk hst) (.inr fun _ => ⟨rfl, rfl⟩)

theorem connect : s.connect.Consistent := by
  have hnew : s.sockets (s.counter + 1) = none := h.fresh _ (by omega)
  have hold : ∀ j k, s.sockets j = some k → s.connect.sockets j = some k := by
    intro j k hk
    have hne : j ≠ s.counter + 1 := by
      rintro rfl
      rw [hnew] at hk
      cases hk
    simpa [Ledger.connect, hne] using hk
  refine { h with
    fresh := fun j hj => ?_, users := fun v j hj => ?_, pending := fun v j hj => ?_
    named := fun j k hk hst => ?_ }
  · have hj' : s.counter + 1 < j := hj
    have hne : j ≠ s.counter + 1 := by omega
    simp only [Ledger.connect, hne, if_false]
    exact h.fresh j (by omega)
  · obtain ⟨k, hk, hrest⟩ := h.users v j hj
    exact ⟨k, hold j k hk, hrest⟩
  · obtain ⟨k, hk, hrest⟩ := h.pending v j hj
    exact ⟨k, hold j k hk, hrest⟩
  · by_cases hj : j = s.counter + 1
    · simp only [Ledger.connect, hj, if_true, Option.some.injEq] at hk
      subst hk
      cases hst
    · simp only [Ledger.connect, hj, if_false] at hk
      exact h.named j k hk hst

/-- The decision of a reply on a login that is pending. -/
theorem decided [JavaChar] {C : Config} (n : ℕ) (m : Message)
    (hi : i ∈ (s.pendingUsers u).getD []) (b : Option Bool) :
    (s.decided C n m u i b).Consistent := by
  obtain ⟨k, hk, hu, -⟩ := h.pending u i hi
  have hrem := h.removePending u i
  have habs := h.absent_removePending hi
  cases b with
  | none => exact hrem
  | some ok =>
    cases ok with
    | true =>
      have hauth : ((s.removePending u i).alter i fun k =>
          { k with authStatus := .AUTHENTICATED }).Consistent := by
        refine hrem.alter (fun k' hk' _ => ⟨u, ?_⟩) (.inl habs)
        cases hk.symm.trans hk'
        exact hu
      exact (hauth.addUser (alter_self hk) hu rfl habs).post _
    | false => exact hrem.alter (fun _ _ hst => by cases hst) (.inl habs)

/-- **Every event keeps the maps consistent.** -/
theorem change [JavaChar] {C : Config} {e : Event} {s' : Ledger} (hc : Change C s e s') :
    s'.Consistent := by
  cases hc with
  | connect => exact h.connect
  | ignored => exact h
  | forwarded => exact h.post _
  | reported => exact h.post _
  | replied n _ hmem _ => exact (h.decided n _ hmem _).post _
  | left => exact ((h.removeUser _ _).removePending _ _).post _
  | @asked i k content fs d u n hopen _ _ _ hst =>
    obtain ⟨hk, -⟩ := sockets_of_openSocket hopen
    have habs := h.absent_of_notAuthenticated hk hst
    have hask : (s.alter i (asking (some u))).Consistent :=
      h.alter (fun _ _ hst => by cases hst) (.inl habs)
    exact (hask.addPending (alter_self hk) rfl rfl habs).post _
  | nameless hopen _ _ _ hst =>
    obtain ⟨hk, -⟩ := sockets_of_openSocket hopen
    exact h.alter (fun _ _ hst => by cases hst) (.inl (h.absent_of_notAuthenticated hk hst))
  | closed => exact h.close _
  | departed => exact (((h.close _).removeUser _ _).removePending _ _).post _

end Consistent

/-! ### What becomes of a handler -/

/-- User and status of a handler. -/
def login (k : Socket) : Option String × AuthStatus := (k.userId, k.authStatus)

/-- A login that a reply decides on. -/
structure Decides [JavaChar] (s : Ledger) (j : ℤ) (k : Socket) (e : Event) (u : String) (ok : Bool) :
    Prop where
  reply : ∃ m fs, e = .handOut m fs ∧ RepliesTo m u j (some ok)
  socket : s.sockets j = some k
  userId : k.userId = some u
  authStatus : k.authStatus = .AUTHENTICATING
  pending : j ∈ (s.pendingUsers u).getD []

theorem login_alter (hf : ∀ k, login (f k) = login k) (j : ℤ) :
    ((s.alter i f).sockets j).map login = (s.sockets j).map login := by
  by_cases hj : j = i
  · subst hj
    cases hk : s.sockets j with
    | none => rw [alter_none hk]
    | some k => rw [alter_self hk, Option.map_some, Option.map_some, hf]
  · rw [alter_of_ne hj]

/-- User and status of a handler stay, or the handler is new, asks, or is answered. -/
theorem login_change [JavaChar] {C : Config} {e : Event} {s' : Ledger} (h : s.Consistent)
    (hc : Change C s e s') (j : ℤ) :
    (s'.sockets j).map login = (s.sockets j).map login ∨
    (s.sockets j = none ∧ s'.sockets j = some {}) ∨
    (∃ k u, s.sockets j = some k ∧ k.authStatus = .NOT_AUTHENTICATED ∧
      s'.sockets j = some (asking u k)) ∨
    (∃ k u, s.Decides j k e u true ∧ s'.sockets j = some { k with authStatus := .AUTHENTICATED }) ∨
    ∃ k u, s.Decides j k e u false ∧ s'.sockets j = some { k with authStatus := .NOT_AUTHENTICATED } := by
  -- the handler that is altered, or another one
  have hstay : ∀ {i : ℤ} {f : Socket → Socket}, j ≠ i →
      ((s.alter i f).sockets j).map login = (s.sockets j).map login := by
    intro i f hj
    rw [alter_of_ne hj]
  cases hc with
  | connect =>
    by_cases hj : j = s.counter + 1
    · refine .inr (.inl ⟨h.fresh j (by omega), ?_⟩)
      simp [Ledger.connect, hj]
    · left
      simp [Ledger.connect, hj]
  | ignored => exact .inl rfl
  | forwarded => exact .inl rfl
  | reported => exact .inl rfl
  | left => exact .inl rfl
  | closed =>
    refine .inl (login_alter ?_ j)
    exact fun _ => rfl
  | departed =>
    refine .inl (login_alter ?_ j)
    exact fun _ => rfl
  | @asked i k _ _ _ u _ hopen _ _ _ hst =>
    by_cases hj : j = i
    · subst hj
      obtain ⟨hk, -⟩ := sockets_of_openSocket hopen
      exact .inr (.inr (.inl ⟨k, some u, hk, hst, alter_self hk⟩))
    · exact .inl (hstay hj)
  | @nameless i k _ _ _ hopen _ _ _ hst =>
    by_cases hj : j = i
    · subst hj
      obtain ⟨hk, -⟩ := sockets_of_openSocket hopen
      exact .inr (.inr (.inl ⟨k, none, hk, hst, alter_self hk⟩))
    · exact .inl (hstay hj)
  | @replied m fs u i b l n hrep hmem hl =>
    obtain ⟨k, hk, hu, hst⟩ := h.pending u i hmem
    by_cases hj : j = i
    · subst hj
      cases b with
      | none => exact .inl rfl
      | some ok =>
        have hdec : s.Decides j k (.handOut m fs) u ok := ⟨⟨m, fs, rfl, hrep⟩, hk, hu, hst, hmem⟩
        cases ok with
        | true => exact .inr (.inr (.inr (.inl ⟨k, u, hdec, alter_self hk⟩)))
        | false => exact .inr (.inr (.inr (.inr ⟨k, u, hdec, alter_self hk⟩)))
    · left
      cases b with
      | none => rfl
      | some ok => cases ok <;> exact hstay hj

end Ledger

theorem consistent_initial {s : State} (h : Initial s) : s.ledger.Consistent where
  fresh i _ := h.sockets i
  users u i hi := by
    have hi' : i ∈ (s.users u).getD [] := hi
    rw [h.users u] at hi'
    cases hi'
  pending u i hi := by
    have hi' : i ∈ (s.pendingUsers u).getD [] := hi
    rw [h.pendingUsers u] at hi'
    cases hi'
  users_nodup u := by
    show ((s.users u).getD []).Nodup
    simp [h.users u]
  pending_nodup u := by
    show ((s.pendingUsers u).getD []).Nodup
    simp [h.pendingUsers u]
  users_ne_nil u hu := by cases (h.users u).symm.trans hu
  pending_ne_nil u hu := by cases (h.pendingUsers u).symm.trans hu
  named i k hk := by cases (h.sockets i).symm.trans hk

section

variable [JavaChar] {C : Config} {s s' : State} {e : Event}

theorem consistent_of_reaches {ok : State → Event → Prop} {s₀ : State} (h₀ : Initial s₀)
    (h : (system C).Reaches ok s₀ s) : s.ledger.Consistent :=
  h.invariant (I := fun s => s.ledger.Consistent) (consistent_initial h₀)
    fun _ _ _ hI _ hst => hI.change (change_of_step hst)

/-! ### Identities -/

/-- The maps of a connector and the handlers in them. -/
structure Identified (s : State) : Prop where
  users : ∀ u i, i ∈ (s.users u).getD [] →
    ∃ k, s.sockets i = some k ∧ k.authStatus = .AUTHENTICATED ∧ k.userId = some u
  pending : ∀ u i, i ∈ (s.pendingUsers u).getD [] →
    ∃ k, s.sockets i = some k ∧ k.authStatus = .AUTHENTICATING ∧ k.userId = some u
  /-- No socket is in both maps. -/
  disjoint : ∀ u v i, i ∈ (s.users u).getD [] → i ∉ (s.pendingUsers v).getD []
  /-- No socket is twice in one map. -/
  users_once : (∀ u, ((s.users u).getD []).Nodup) ∧
    ∀ u v i, i ∈ (s.users u).getD [] → i ∈ (s.users v).getD [] → u = v
  pending_once : (∀ u, ((s.pendingUsers u).getD []).Nodup) ∧
    ∀ u v i, i ∈ (s.pendingUsers u).getD [] → i ∈ (s.pendingUsers v).getD [] → u = v
  nonempty : ∀ u, s.users u ≠ some [] ∧ s.pendingUsers u ≠ some []

/-- A positive reply that names a socket and its user while the socket waits for it. -/
def Grants (s : State) (i : ℤ) (e : Event) : Prop := ∃ k u, s.ledger.Decides i k e u true

/-- What one event does to the identities. -/
structure Faithful (s : State) (e : Event) (s' : State) : Prop where
  /-- The user of an authenticated socket stays. -/
  userId : ∀ i k, s.sockets i = some k → k.authStatus = .AUTHENTICATED →
    ∃ k', s'.sockets i = some k' ∧ k'.userId = k.userId
  /-- A socket becomes authenticated by its reply only. -/
  granted : ∀ i k', s'.sockets i = some k' → k'.authStatus = .AUTHENTICATED →
    (∃ k, s.sockets i = some k ∧ k.authStatus = .AUTHENTICATED) ∨ Grants s i e
  /-- What the default processor publishes is from the user of the socket. -/
  sender : ∀ i content fs, e = .receive i content fs → content.type ≠ some .AUTH_CLIENT →
    content.type ≠ some .USER_DISCONNECTED → ∃ l, s'.published = s.published ++ l ∧
      ∀ m ∈ l, ∃ k u, s.sockets i = some k ∧ k.authStatus = .AUTHENTICATED ∧ k.userId = some u ∧
        m.from_ = some u

omit [JavaChar] in
theorem identified_of_consistent (h : s.ledger.Consistent) : Identified s := by
  have huser : ∀ u i, i ∈ (s.users u).getD [] →
      ∃ k, s.sockets i = some k ∧ k.userId = some u ∧ k.authStatus = .AUTHENTICATED := h.users
  have hpending : ∀ u i, i ∈ (s.pendingUsers u).getD [] →
      ∃ k, s.sockets i = some k ∧ k.userId = some u ∧ k.authStatus = .AUTHENTICATING := h.pending
  refine ⟨fun u i hi => ?_, fun u i hi => ?_, fun u v i hi hi' => ?_, ⟨h.users_nodup, ?_⟩,
    ⟨h.pending_nodup, ?_⟩, fun u => ⟨h.users_ne_nil u, h.pending_ne_nil u⟩⟩
  · obtain ⟨k, hk, hu, hst⟩ := huser u i hi
    exact ⟨k, hk, hst, hu⟩
  · obtain ⟨k, hk, hu, hst⟩ := hpending u i hi
    exact ⟨k, hk, hst, hu⟩
  · obtain ⟨k, hk, -, hst⟩ := huser u i hi
    obtain ⟨k', hk', -, hst'⟩ := hpending v i hi'
    cases hk.symm.trans hk'
    cases hst.symm.trans hst'
  · intro u v i hi hi'
    obtain ⟨k, hk, hu, -⟩ := huser u i hi
    obtain ⟨k', hk', hv, -⟩ := huser v i hi'
    cases hk.symm.trans hk'
    exact Option.some.inj (hu.symm.trans hv)
  · intro u v i hi hi'
    obtain ⟨k, hk, hu, -⟩ := hpending u i hi
    obtain ⟨k', hk', hv, -⟩ := hpending v i hi'
    cases hk.symm.trans hk'
    exact Option.some.inj (hu.symm.trans hv)

/-- What a client sends that is no login and no presence message. -/
theorem published_receive {i : ℤ} {content : MessageContent} {fs : List Bool}
    (h : (system C).step s (.receive i content fs) = some s') (ht : content.type ≠ some .AUTH_CLIENT)
    (ht' : content.type ≠ some .USER_DISCONNECTED) (hs : s.ledger.Consistent) :
    ∃ l, s'.published = s.published ++ l ∧ ∀ m ∈ l, ∃ k u, s.sockets i = some k ∧
      k.authStatus = .AUTHENTICATED ∧ k.userId = some u ∧ m.from_ = some u := by
  have hc := change_of_step h
  generalize hs' : s'.ledger = t at hc
  have hpub : s'.published = t.published := by rw [← hs']; rfl
  rw [hpub]
  cases hc with
  | asked _ _ hty => exact absurd hty ht
  | nameless _ hty => exact absurd hty ht
  | left _ _ hty => exact absurd hty ht'
  | ignored => exact ⟨[], (List.append_nil _).symm, by simp⟩
  | @forwarded _ k _ _ n hopen _ _ hst =>
    obtain ⟨hk, -⟩ := Ledger.sockets_of_openSocket hopen
    obtain ⟨u, hu⟩ := hs.named i k hk hst
    refine ⟨_, rfl, fun m hm => ⟨k, u, hk, hst, hu, ?_⟩⟩
    have hm' : m = clientMessage C (C.blank n) i k content := by
      unfold posted at hm
      split_ifs at hm with hf
      · cases hm
      · exact List.mem_singleton.1 hm
    rw [hm']
    exact hu

theorem faithful_of_step (hs : s.ledger.Consistent) (h : (system C).step s e = some s') :
    Faithful s e s' := by
  have hlogin := fun j => Ledger.login_change hs (change_of_step h) j
  refine ⟨fun i k hk hst => ?_, fun i k' hk' hst => ?_, ?_⟩
  · have hk₀ : s.ledger.sockets i = some k := hk
    rcases hlogin i with heq | ⟨hnone, -⟩ | ⟨k', u, hk', hst', -⟩ | ⟨k', u, hdec, -⟩ |
      ⟨k', u, hdec, -⟩
    · rw [hk₀, Option.map_some] at heq
      obtain ⟨k', hk', hlog⟩ := Option.map_eq_some_iff.1 heq
      exact ⟨k', hk', congrArg Prod.fst hlog⟩
    · cases hk₀.symm.trans hnone
    · cases hk₀.symm.trans hk'
      cases hst.symm.trans hst'
    · cases hk₀.symm.trans hdec.socket
      cases hst.symm.trans hdec.authStatus
    · cases hk₀.symm.trans hdec.socket
      cases hst.symm.trans hdec.authStatus
  · have hk₀ : s'.ledger.sockets i = some k' := hk'
    rcases hlogin i with heq | ⟨-, hnew⟩ | ⟨k, u, -, -, hask⟩ | ⟨k, u, hdec, -⟩ | ⟨k, u, -, hrej⟩
    · rw [hk₀, Option.map_some] at heq
      obtain ⟨k, hk, hlog⟩ := Option.map_eq_some_iff.1 heq.symm
      exact .inl ⟨k, hk, (congrArg Prod.snd hlog).trans hst⟩
    · cases hk₀.symm.trans hnew
      cases hst
    · cases hk₀.symm.trans hask
      cases hst
    · exact .inr ⟨k, u, hdec⟩
    · cases hk₀.symm.trans hrej
      cases hst
  · intro i content fs he ht ht'
    subst he
    exact published_receive h ht ht' hs

/-- **A connector never confuses identities**, in whatever order sockets open, clients send, records
arrive and sockets close. -/
theorem identities {s₀ : State} (h₀ : Initial s₀) (h : (system C).Reaches (fun _ _ => True) s₀ s) :
    Identified s ∧ ∀ e s', (system C).step s e = some s' → Faithful s e s' := by
  have hs := consistent_of_reaches h₀ h
  exact ⟨identified_of_consistent hs, fun e s' hst => faithful_of_step hs hst⟩

end

/-! ### A day at a connector -/

namespace SampleConnector

def config : Config where
  domainName := "domain-01"
  connectorName := "connector-01"
  uuid n := "connector-message-" ++ toString n
  now n := n

def signIn (userId : Option String) : MessageContent where
  type := some .AUTH_CLIENT
  data := .authClient ⟨some "id", userId, none⟩

def signOff (userId : String) : MessageContent where
  type := some .USER_DISCONNECTED
  data := .userDisconnected (some userId)

/-- The reply of the processors on the login of the first socket. -/
def reply (userId : String) (isAuthenticated : Option Bool) : Message where
  id := some "reply"
  version := none
  content := some (createMessageContent .AUTH_CLIENT_REPLY
    (.authClientReply ⟨some "id", some userId, isAuthenticated⟩) (some .RELIABLE))
  from_ := none
  to_ := some "connector-01"
  meta_ := some { note := some "1" }
  createdAt := 0
  state := some .CREATED

/-- A client signs in. -/
def arrival (userId : String) : List Event :=
  [.connect, .receive 1 (signIn (some userId)) [], .handOut (reply userId (some true)) []]

theorem initial : Initial {} := ⟨fun _ => rfl, fun _ => rfl, fun _ => rfl, rfl⟩

end SampleConnector

section

attribute [local instance] JavaChar.ascii

open SampleConnector

/-- A run in which a client signs in and leaves. -/
theorem identities_arrival : ∃ s, (system config).run {} (arrival "APP-5" ++ [.disconnect 1 []]) =
    some s ∧ s.published.map MessageOf.type =
      [some .AUTH_CLIENT, some .USER_CONNECTED, some .USER_DISCONNECTED] ∧
    Identified s ∧ ∀ e s', (system config).step s e = some s' → Faithful s e s' := by
  have hrun : (((system config).run {} (arrival "APP-5" ++ [.disconnect 1 []])).map fun s =>
      s.published.map MessageOf.type) =
      some [some .AUTH_CLIENT, some .USER_CONNECTED, some .USER_DISCONNECTED] := by decide +kernel
  obtain ⟨s, hs, htypes⟩ := Option.map_eq_some_iff.1 hrun
  exact ⟨s, hs, htypes, identities initial (System.reaches_of_run hs fun _ _ _ => trivial)⟩

end

end Linker.Connector
