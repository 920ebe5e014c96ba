import Linker.Connector.Identity

/-!
# Completeness of the maps of a connector

Every socket that is authenticated or waits for its answer should be found in the map of its status,
and no closed one.

## Main results

* `Ledger.Complete` : the invariant, kept by every careful event.
* `findable_of_careful` : the maps are complete unless a client signs itself off, signs in without a
  user id or with the empty one, or a reply has no verdict.
* `overlooked` : a client that signs itself off is not found any more.
-/

namespace Linker.Connector

section

variable [JavaChar] {C : Config} {s s' : State} {e : Event}

/-- What an event must not be: a client that signs off the user of its own socket, an `AUTH_CLIENT`
without a user id, a socket that closes with the empty one, a reply without a verdict on a pending
login. -/
def Careful (s : State) : Event → Prop
  | .connect => True
  | .receive i content _ => ∀ k, s.openSocket i = some k →
    (content.type = some .USER_DISCONNECTED → k.authStatus ≠ .NOT_AUTHENTICATED →
      content.data = .userDisconnected k.userId → isEmpty k.userId = true) ∧
    (content.type = some .AUTH_CLIENT → k.authStatus = .NOT_AUTHENTICATED →
      ∀ d, content.data = .authClient d → d.userId ≠ none)
  | .disconnect i _ => ∀ k, s.openSocket i = some k → k.authStatus ≠ .NOT_AUTHENTICATED →
    k.userId ≠ some ""
  | .handOut m _ => ∀ u i, RepliesTo m u i none → i ∉ (s.pendingUsers u).getD []

/-- The maps are complete: an open socket is found under its user in the map of its status, and a
closed one is forgotten. -/
structure Findable (s : State) : Prop where
  authenticated : ∀ i k, s.openSocket i = some k → k.authStatus = .AUTHENTICATED →
    ((NetworkUserService.getUser k.userId (some i)).run s).1 = .ok (some i)
  authenticating : ∀ i k, s.openSocket i = some k → k.authStatus = .AUTHENTICATING →
    ((NetworkUserService.getPendingUser k.userId (some i)).run s).1 = .ok (some i)
  closed : ∀ i k, s.sockets i = some k → k.isOpen = false →
    ∀ u, i ∉ (s.users u).getD [] ∧ i ∉ (s.pendingUsers u).getD []

end

namespace Ledger

/-- A handler is where its status says. -/
structure Placed (s : Ledger) (j : ℤ) (k : Socket) : Prop where
  authenticated : k.isOpen = true → k.authStatus = .AUTHENTICATED →
    ∃ u, k.userId = some u ∧ j ∈ (s.users u).getD []
  authenticating : k.isOpen = true → k.authStatus = .AUTHENTICATING →
    ∃ u, k.userId = some u ∧ j ∈ (s.pendingUsers u).getD []
  closed : k.isOpen = false → s.Absent j

/-- Every handler is where its status says. -/
def Complete (s : Ledger) : Prop := ∀ j k, s.sockets j = some k → s.Placed j k

variable {s s' : Ledger} {i j : ℤ} {k : Socket} {u : String}

/-- A handler that is in the same places before and after. -/
theorem Placed.frame (h : s.Placed j k)
    (hu : ∀ u, j ∈ (s'.users u).getD [] ↔ j ∈ (s.users u).getD [])
    (hp : ∀ u, j ∈ (s'.pendingUsers u).getD [] ↔ j ∈ (s.pendingUsers u).getD []) :
    s'.Placed j k where
  authenticated ho hst := by
    obtain ⟨u, huser, hmem⟩ := h.authenticated ho hst
    exact ⟨u, huser, (hu u).2 hmem⟩
  authenticating ho hst := by
    obtain ⟨u, huser, hmem⟩ := h.authenticating ho hst
    exact ⟨u, huser, (hp u).2 hmem⟩
  closed hc u := by
    obtain ⟨h₁, h₂⟩ := h.closed hc u
    exact ⟨fun hmem => h₁ ((hu u).1 hmem), fun hmem => h₂ ((hp u).1 hmem)⟩

/-- An open handler that is not authenticated is in place. -/
theorem placed_notAuthenticated (ho : k.isOpen = true) (hst : k.authStatus = .NOT_AUTHENTICATED) :
    s.Placed j k where
  authenticated _ h := by cases hst.symm.trans h
  authenticating _ h := by cases hst.symm.trans h
  closed h := by cases ho.symm.trans h

theorem mem_removeUser_of_ne {map : UserMap} (hj : j ≠ i) (v : String) :
    j ∈ (map.removeUser u i v).getD [] ↔ j ∈ (map v).getD [] := by
  rw [UserMap.mem_removeUser]
  exact ⟨fun h => h.1, fun h => ⟨h, fun hji => hj hji.2⟩⟩

theorem mem_addUser_of_ne {map : UserMap} (hj : j ≠ i) (v : String) :
    j ∈ (map.addUser u i v).getD [] ↔ j ∈ (map v).getD [] := by
  rw [UserMap.mem_addUser]
  exact ⟨fun h => h.resolve_right fun hji => hj hji.2, .inl⟩

/-- Once taken out under the user of its handler, a socket is in neither map. -/
theorem Consistent.absent_removed (h : s.Consistent) (hk : s.sockets i = some k)
    (hu : k.userId = some u) : ((s.removeUser u i).removePending u i).Absent i := by
  intro v
  constructor
  · intro hv
    obtain ⟨hmem, hne⟩ := UserMap.mem_removeUser.1 hv
    obtain ⟨k', hk', hu', -⟩ := h.users v i hmem
    cases hk.symm.trans hk'
    exact hne ⟨Option.some.inj (hu'.symm.trans hu), rfl⟩
  · intro hv
    obtain ⟨hmem, hne⟩ := UserMap.mem_removeUser.1 hv
    obtain ⟨k', hk', hu', -⟩ := h.pending v i hmem
    cases hk.symm.trans hk'
    exact hne ⟨Option.some.inj (hu'.symm.trans hu), rfl⟩

/-- The decision of a reply puts the socket where its new status says. -/
theorem Complete.decided [JavaChar] {C : Config} (hcomp : s.Complete) (h : s.Consistent) (n : ℕ)
    (m : Message) (hi : i ∈ (s.pendingUsers u).getD []) (ok : Bool) :
    (s.decided C n m u i (some ok)).Complete := by
  obtain ⟨k, hk, hu, -⟩ := h.pending u i hi
  -- a closed socket is not pending
  have hopen : k.isOpen = true := by
    by_contra hclosed
    exact ((hcomp i k hk).closed (by simpa using hclosed) u).2 hi
  intro j k' hk'
  by_cases hj : j = i
  · subst hj
    cases ok with
    | true =>
      have hk₁ : k' = { k with authStatus := .AUTHENTICATED } :=
        Option.some.inj (hk'.symm.trans (alter_self hk))
      subst hk₁
      refine ⟨fun _ _ => ⟨u, hu, UserMap.mem_addUser.2 (.inr ⟨rfl, rfl⟩)⟩, ?_, ?_⟩
      · intro _ hst
        cases hst
      · intro hclosed
        cases hopen.symm.trans hclosed
    | false =>
      have hk₁ : k' = { k with authStatus := .NOT_AUTHENTICATED } :=
        Option.some.inj (hk'.symm.trans (alter_self hk))
      subst hk₁
      exact placed_notAuthenticated hopen rfl
  · have hplaced : s.Placed j k' := by
      cases ok with
      | true => exact hcomp j k' ((alter_of_ne hj).symm.trans hk')
      | false => exact hcomp j k' ((alter_of_ne hj).symm.trans hk')
    cases ok with
    | true => exact hplaced.frame (mem_addUser_of_ne hj) (mem_removeUser_of_ne hj)
    | false => exact hplaced.frame (fun _ => .rfl) (mem_removeUser_of_ne hj)

/-- **A careful event keeps the maps complete.** -/
theorem complete_change [JavaChar] {C : Config} {s : State} {e : Event} {t : Ledger}
    (hcomp : s.ledger.Complete) (h : s.ledger.Consistent) (hok : Careful s e)
    (hc : Change C s.ledger e t) : t.Complete := by
  cases hc with
  | ignored => exact hcomp
  | forwarded => exact fun j k hk => (hcomp j k hk).frame (fun _ => .rfl) fun _ => .rfl
  | reported => exact fun j k hk => (hcomp j k hk).frame (fun _ => .rfl) fun _ => .rfl
  | connect =>
    intro j k hk
    by_cases hj : j = s.ledger.counter + 1
    · have hk' : k = {} := by
        simp only [connect, hj, if_true, Option.some.injEq] at hk
        exact hk.symm
      rw [hk']
      exact placed_notAuthenticated rfl rfl
    · simp only [connect, hj, if_false] at hk
      exact (hcomp j k hk).frame (fun _ => .rfl) fun _ => .rfl
  | @asked i k content fs d u n hopen _ _ _ hst =>
    obtain ⟨hk, ho⟩ := sockets_of_openSocket hopen
    intro j k' hk'
    by_cases hj : j = i
    · subst hj
      have hk₁ : k' = asking (some u) k := Option.some.inj (hk'.symm.trans (alter_self hk))
      subst hk₁
      refine ⟨?_, fun _ _ => ⟨u, rfl, UserMap.mem_addUser.2 (.inr ⟨rfl, rfl⟩)⟩, ?_⟩
      · intro _ hst'
        cases hst'
      · intro hclosed
        cases ho.symm.trans hclosed
    · refine (hcomp j k' ?_).frame (fun _ => .rfl) (mem_addUser_of_ne hj)
      exact (alter_of_ne hj).symm.trans hk'
  | nameless hopen hty hd hu hst => exact absurd hu ((hok _ hopen).2 hty hst _ hd)
  | @left i k content fs u n hopen hty hd hu =>
    obtain ⟨hk, ho⟩ := sockets_of_openSocket hopen
    intro j k' hk'
    by_cases hj : j = i
    · subst hj
      cases hk.symm.trans hk'
      have hplaced := hcomp j k hk
      by_cases hst : k.authStatus = .NOT_AUTHENTICATED
      · exact placed_notAuthenticated ho hst
      -- the client signs off another user than its own
      have hne : ∀ v, k.userId = some v → v ≠ u := by
        rintro v hv rfl
        exact hu (isEmpty_some.1 (hv ▸ (hok k hopen).1 hty hst (hv ▸ hd)))
      refine ⟨fun ho hst => ?_, fun ho hst => ?_, fun hclosed => by cases ho.symm.trans hclosed⟩
      · obtain ⟨v, hv, hmem⟩ := hplaced.authenticated ho hst
        exact ⟨v, hv, UserMap.mem_removeUser.2 ⟨hmem, fun hvu => hne v hv hvu.1⟩⟩
      · obtain ⟨v, hv, hmem⟩ := hplaced.authenticating ho hst
        exact ⟨v, hv, UserMap.mem_removeUser.2 ⟨hmem, fun hvu => hne v hv hvu.1⟩⟩
    · exact (hcomp j k' hk').frame (mem_removeUser_of_ne hj) (mem_removeUser_of_ne hj)
  | @closed i k fs hopen hquiet =>
    obtain ⟨hk, ho⟩ := sockets_of_openSocket hopen
    have habs : s.ledger.Absent i := by
      by_cases hst : k.authStatus = .NOT_AUTHENTICATED
      · exact h.absent_of_notAuthenticated hk hst
      -- a socket with another status has a user, whose id is not empty
      have hempty := hquiet.resolve_left hst
      have hplaced := hcomp i k hk
      have huser : ∃ u, k.userId = some u := by
        cases hst' : k.authStatus with
        | NOT_AUTHENTICATED => exact absurd hst' hst
        | AUTHENTICATING => exact (hplaced.authenticating ho hst').imp fun _ h => h.1
        | AUTHENTICATED => exact (hplaced.authenticated ho hst').imp fun _ h => h.1
      obtain ⟨u, hu⟩ := huser
      rw [hu, isEmpty_some] at hempty
      exact absurd (hempty ▸ hu) (hok k hopen hst)
    intro j k' hk'
    rcases alter_eq_some hk' with ⟨rfl, k₁, -, rfl⟩ | ⟨-, hk'⟩
    · refine ⟨fun ho => ?_, fun ho => ?_, fun _ => habs⟩
      · cases ho
      · cases ho
    · exact (hcomp j k' hk').frame (fun _ => .rfl) fun _ => .rfl
  | @departed i k fs u n hopen hst hu hne =>
    obtain ⟨hk, ho⟩ := sockets_of_openSocket hopen
    have habs := h.absent_removed hk hu
    intro j k' hk'
    rcases alter_eq_some hk' with ⟨rfl, k₁, -, rfl⟩ | ⟨hj, hk'⟩
    · refine ⟨fun ho => ?_, fun ho => ?_, fun _ => habs⟩
      · cases ho
      · cases ho
    · exact (hcomp j k' hk').frame (mem_removeUser_of_ne hj) (mem_removeUser_of_ne hj)
  | @replied m fs u i b l n hrep hmem hl =>
    cases b with
    | none => exact absurd hmem (hok u i hrep)
    | some ok =>
      have hdec := hcomp.decided (C := C) h n m hmem ok
      exact fun j k hk => (hdec j k hk).frame (fun _ => .rfl) fun _ => .rfl

end Ledger

section

variable [JavaChar] {C : Config} {s s₀ : State}

omit [JavaChar] in
theorem complete_initial (h : Initial s₀) : s₀.ledger.Complete := by
  intro j k hk
  cases (h.sockets j).symm.trans hk

omit [JavaChar] in
theorem findable_of_complete (h : s.ledger.Complete) : Findable s := by
  refine ⟨fun i k hk hst => ?_, fun i k hk hst => ?_, fun i k hk hc => (h i k hk).closed hc⟩
  · obtain ⟨hk, ho⟩ := Ledger.sockets_of_openSocket (s := s.ledger) hk
    obtain ⟨u, hu, hmem⟩ := (h i k hk).authenticated ho hst
    rw [hu]
    exact congrArg Except.ok (UserMap.getUser_of_mem hmem)
  · obtain ⟨hk, ho⟩ := Ledger.sockets_of_openSocket (s := s.ledger) hk
    obtain ⟨u, hu, hmem⟩ := (h i k hk).authenticating ho hst
    rw [hu]
    exact congrArg Except.ok (UserMap.getUser_of_mem hmem)

/-- **A connected user stays reachable and a closed one is forgotten**, in every run of careful
events. -/
theorem findable_of_careful (h₀ : Initial s₀) (h : (system C).Reaches Careful s₀ s) :
    Findable s := by
  have hinv : s.ledger.Consistent ∧ s.ledger.Complete :=
    h.invariant (I := fun s => s.ledger.Consistent ∧ s.ledger.Complete)
      ⟨consistent_initial h₀, complete_initial h₀⟩ fun _ _ _ hI hok hst =>
        ⟨hI.1.change (change_of_step hst), Ledger.complete_change hI.2 hI.1 hok (change_of_step hst)⟩
  exact findable_of_complete hinv.2

end

/-! ### A client that signs itself off -/

namespace SampleConnector

/-- A test that careful events pass. -/
def isCareful (s : State) : Event → Bool
  | .connect => true
  | .receive _ content _ => content.type != some .USER_DISCONNECTED &&
    content.data.authClient?.all fun d => d.userId.isSome
  | .disconnect i _ => (s.openSocket i).all fun k => k.userId != some ""
  | .handOut m _ => m.data.authClientReply?.all fun d => d.isAuthenticated.isSome

theorem careful_of_isCareful [JavaChar] (s : State) (e : Event) (h : isCareful s e = true) :
    Careful s e := by
  cases e with
  | connect => trivial
  | receive i content fs =>
    simp only [isCareful, Bool.and_eq_true, bne_iff_ne, ne_eq] at h
    intro k _
    refine ⟨fun ht => absurd ht h.1, fun _ _ d hd hu => ?_⟩
    have hsome := h.2
    rw [Data.authClient?_eq_some.2 hd, Option.all_some, hu] at hsome
    cases hsome
  | disconnect i fs =>
    intro k hk _ hu
    simp [isCareful, hk, hu] at h
  | handOut m fs =>
    intro u i hrep
    obtain ⟨d, hd, -, hverdict⟩ := hrep.data
    simp [isCareful, Data.authClientReply?_eq_some.2 hd, hverdict] at h

/-- Whether the first socket is open and authenticated as `u` and not found. -/
def isOverlooked (u : String) (s : State) : Bool :=
  (s.openSocket 1 == some ⟨some u, .AUTHENTICATED, true⟩) && (UserMap.getUser u (some 1) s.users).isNone

theorem not_findable_of_isOverlooked {u : String} {s : State} (h : isOverlooked u s = true) :
    ¬ Findable s := by
  intro hs
  simp only [isOverlooked, Bool.and_eq_true, beq_iff_eq, Option.isNone_iff_eq_none] at h
  have hfound : (Except.ok (UserMap.getUser u (some 1) s.users) : Except JavaException _) =
      .ok (some 1) := hs.authenticated 1 _ h.1 rfl
  rw [h.2] at hfound
  cases hfound

end SampleConnector

section

attribute [local instance] JavaChar.ascii

open SampleConnector

/-- A run in which a client signs in and leaves. -/
theorem findable_arrival : ∃ s, (system config).run {} (arrival "APP-5" ++ [.disconnect 1 []]) =
    some s ∧ s.sockets 1 = some ⟨some "APP-5", .AUTHENTICATED, false⟩ ∧ Findable s := by
  have hrun : (((system config).runIf isCareful {} (arrival "APP-5" ++ [.disconnect 1 []])).map
      fun s => s.sockets 1) = some (some ⟨some "APP-5", .AUTHENTICATED, false⟩) := by decide +kernel
  obtain ⟨s, hs, hk⟩ := Option.map_eq_some_iff.1 hrun
  exact ⟨s, System.run_of_runIf hs, hk,
    findable_of_careful initial (System.reaches_of_runIf careful_of_isCareful hs)⟩

/-- **An overlooked user.**  A client that sends a `USER_DISCONNECTED` for itself stays authenticated
and is not found. -/
theorem overlooked : Initial {} ∧ ∃ s, (system config).Reaches (fun _ _ => True) {} s ∧
    ¬ Findable s := by
  have hrun : (((system config).run {} (arrival "APP-5" ++ [.receive 1 (signOff "APP-5") []])).map
      (isOverlooked "APP-5")) = some true := by decide +kernel
  obtain ⟨s, hs, hover⟩ := Option.map_eq_some_iff.1 hrun
  exact ⟨initial, s, System.reaches_of_run hs fun _ _ _ => trivial,
    not_findable_of_isOverlooked hover⟩

end

end Linker.Connector
