import Linker.LTS.Routine
import Linker.Processor.ClientAppService
import Mathlib.Data.List.Induction

/-!
# The cache of `ClientAppService`

The threads of a processor look up client apps at the same time.  The cache is a `ConcurrentHashMap`, so
each of its methods is one access, but a lookup makes several of them, and reads the repository in
between.  A method of the repository is taken as one access, too.  After `init` nothing takes an app out
of the cache.

## Main definitions

* `init` : the repository after the start of the service.
* `next` : `getClientAppByName` and `saveClientApp`, access by access.

## Main results

* `transparent_and_sticky` : lookups return what the repository has when nothing is saved, and what the
  cache has whatever is saved.
* `known_and_found` : what lookups return when apps are saved at any time.
-/

namespace Linker.Processor.ClientAppCache

open ClientAppService

/-! ### The start -/

/-- `clientAppRepository.save`.  The app that has no name gets an id that nobody looks up. -/
def save (repository : String → Option ClientApp) (clientApp : ClientApp) :
    String → Option ClientApp :=
  match clientApp.appName with
  | some appName => Function.update repository appName (some clientApp)
  | none => repository

/-- `init`: the apps of the application config are saved, and then those of the meta server. -/
def init (clientApps metaClientApps : List ClientApp) (repository : String → Option ClientApp) :
    String → Option ClientApp :=
  metaClientApps.foldl save (clientApps.foldl save repository)

theorem foldl_save (apps : List ClientApp) (repository : String → Option ClientApp)
    (appName : String) : apps.foldl save repository appName =
      (apps.reverse.find? (·.appName = some appName)).or (repository appName) := by
  induction apps using List.reverseRecOn with
  | nil => rfl
  | append_singleton apps a ih =>
    rw [List.foldl_append, List.reverse_append]
    cases ha : a.appName with
    | none => simpa [save, ha] using ih
    | some n =>
      by_cases hn : n = appName
      · simp [save, ha, hn]
      · simpa [save, ha, hn, Function.update_of_ne (Ne.symm hn)] using ih

/-- The meta server comes before the application config, and both before what has been saved earlier. -/
theorem init_apply (clientApps metaClientApps : List ClientApp)
    (repository : String → Option ClientApp) (appName : String) :
    init clientApps metaClientApps repository appName =
      ((metaClientApps.reverse.find? (·.appName = some appName)).or
        (clientApps.reverse.find? (·.appName = some appName))).or (repository appName) := by
  rw [init, foldl_save, foldl_save, Option.or_assoc]

/-! ### The accesses -/

/-- What there is under an app name. -/
structure Entry where
  repository : Option ClientApp
  cache : Option ClientApp
  deriving DecidableEq

/-- Where a call is, with its local variables. -/
inductive At where
  | isBlank
  | containsKey
  | get
  | findById
  | put (clientApp : ClientApp)
  | save (clientApp : ClientApp)
  deriving DecidableEq

/-- The methods, access by access. -/
def next : At → Entry → (At ⊕ Option ClientApp) × Entry
  -- getClientAppByName
  | .isBlank, e => (.inr none, e)
  | .containsKey, e => (.inl (if e.cache.isSome then .get else .findById), e)
  | .get, e => (.inr e.cache, e)
  | .findById, e => (match e.repository with
    | some clientApp => .inl (.put clientApp)
    | none => .inr none, e)
  | .put clientApp, e => (.inr (some clientApp), ⟨e.repository, some clientApp⟩)
  -- saveClientApp, which returns nothing
  | .save clientApp, e => (.inr none, ⟨some clientApp, e.cache⟩)

/-- What a lookup makes of what it reads in the repository. -/
theorem next_findById {e e' : Entry} {q : At ⊕ Option ClientApp} (h : next .findById e = (q, e')) :
    e' = e ∧ ((e.repository = none ∧ q = .inr none) ∨
      ∃ a, e.repository = some a ∧ q = .inl (.put a)) := by
  rw [next] at h
  cases hsaved : e.repository <;> rw [hsaved] at h <;> cases h
  · exact ⟨rfl, .inl ⟨rfl, rfl⟩⟩
  · exact ⟨rfl, .inr ⟨_, rfl, rfl⟩⟩

inductive Call where
  | getClientAppByName (appName : Option String)
  | saveClientApp (clientApp : ClientApp)
  deriving DecidableEq

namespace Call

def appName : Call → Option String
  | getClientAppByName appName => appName
  | saveClientApp clientApp => clientApp.appName

/-- A blank name is not looked up. -/
def first : Call → At
  | getClientAppByName appName => if isBlank appName then .isBlank else .containsKey
  | saveClientApp clientApp => .save clientApp

/-- The call, access by access. -/
def routine (c : Call) : Routine (Option String) Entry At (Option ClientApp) where
  key := c.appName
  first := c.first
  next := next

end Call

abbrev Run := Routine.State (Option String) Entry At (Option ClientApp)

/-- Calls that run concurrently. -/
def system (calls : List Call) : System Run ℕ := Routine.system (calls.map Call.routine)

/-- After `init`, nothing is in the cache. -/
def start (repository : String → Option ClientApp) : Run :=
  Routine.start fun appName => ⟨appName.bind repository, none⟩

/-- No call is under way with the name. -/
def Quiet (calls : List Call) (s : Run) (appName : Option String) : Prop :=
  Routine.Quiet (calls.map Call.routine) s appName

theorem quiet_start (calls : List Call) (repository : String → Option ClientApp)
    (appName : Option String) : Quiet calls (start repository) appName := by
  intro i c p _ _ h
  cases h

theorem routine_of_getElem? {calls : List Call} {i : ℕ}
    {c : Routine (Option String) Entry At (Option ClientApp)}
    (h : (calls.map Call.routine)[i]? = some c) : ∃ d, calls[i]? = some d ∧ d.routine = c := by
  rwa [List.getElem?_map, Option.map_eq_some_iff] at h

theorem getElem?_routine {calls : List Call} {i : ℕ} {d : Call} (h : calls[i]? = some d) :
    (calls.map Call.routine)[i]? = some d.routine := by
  rw [List.getElem?_map, h, Option.map_some]

/-! ### From a quiet state -/

section

variable {calls : List Call} {appName : Option String} {b : Prop} {v : Option ClientApp}
  {s s' : Run} {i : ℕ} {r : Option ClientApp}

/-- A lookup is on its way to return `v`; where `b`, it has found that in the cache. -/
def OnItsWay (calls : List Call) (appName : Option String) (b : Prop) (v : Option ClientApp) (i : ℕ) :
    At → Entry → Prop
  | .isBlank, _ => isBlank appName = true
  | .containsKey, _ => isBlank appName = false
  | .get, e => isBlank appName = false ∧ e.cache = v
  | .findById, e => isBlank appName = false ∧ ¬b ∧ e.repository = v
  | .put clientApp, _ => isBlank appName = false ∧ some clientApp = v
  | .save clientApp, _ => calls[i]? = some (.saveClientApp clientApp)

/-- What is saved with the name does not count where `b`. -/
def Uncounted (calls : List Call) (appName : Option String) (b : Prop) (_ : Run) (i : ℕ) : Prop :=
  b ∨ ∀ a, calls[i]? = some (.saveClientApp a) → a.appName ≠ appName

/-- **Lookups agree** on what the cache has, or else the repository. -/
theorem outline_onItsWay (calls : List Call) (appName : Option String) (b : Prop)
    (v : Option ClientApp) :
    Routine.Outline (calls.map Call.routine) appName (Uncounted calls appName b)
      (fun e => e.cache.or e.repository = v ∧ (b → e.cache ≠ none))
      (OnItsWay calls appName b v)
      (fun i r => ∀ n, calls[i]? = some (.getClientAppByName n) →
        r = if isBlank appName then none else v) where
  first i c e hc hkey hI := by
    obtain ⟨d, hd, rfl⟩ := routine_of_getElem? hc
    cases d with
    | getClientAppByName n =>
      obtain rfl : n = appName := hkey
      cases hn : isBlank n <;> simp [Call.routine, Call.first, hn, OnItsWay]
    | saveClientApp a => exact hd
  next s i c p q e hok hc hkey hI hA hnext := by
    obtain ⟨d, hd, rfl⟩ := routine_of_getElem? hc
    generalize s.store appName = e₀ at hI hA hnext
    cases p with
    | isBlank =>
      cases hnext
      exact ⟨hI, fun _ _ => (if_pos hA).symm⟩
    | containsKey =>
      cases hnext
      refine ⟨hI, ?_⟩
      cases hcache : e.cache with
      | none => exact ⟨hA, fun h => hI.2 h hcache, by simpa [hcache] using hI.1⟩
      | some a => exact ⟨hA, by simpa [hcache] using hI.1⟩
    | get =>
      cases hnext
      refine ⟨hI, fun _ _ => ?_⟩
      rw [if_neg (by simp [hA.1]), hA.2]
    | findById =>
      obtain ⟨hblank, -, hrepository⟩ := hA
      obtain ⟨rfl, ⟨hsaved, rfl⟩ | ⟨a, hsaved, rfl⟩⟩ := next_findById hnext
      · refine ⟨hI, fun _ _ => ?_⟩
        rw [if_neg (by simp [hblank]), ← hrepository, hsaved]
      · exact ⟨hI, hblank, hsaved.symm.trans hrepository⟩
    | put a =>
      cases hnext
      refine ⟨⟨hA.2, fun _ => Option.some_ne_none a⟩, fun _ _ => ?_⟩
      rw [if_neg (by simp [hA.1]), hA.2]
    | save a =>
      cases hnext
      have hcall : calls[i]? = some (.saveClientApp a) := hA
      obtain ⟨a', ha'⟩ : ∃ a', e₀.cache = some a' := by
        cases hd.symm.trans hcall
        rcases hok with h | h
        · exact Option.ne_none_iff_exists'.1 (hI.2 h)
        · exact absurd hkey (h a hcall)
      refine ⟨⟨?_, hI.2⟩, fun n hn => by cases hcall.symm.trans hn⟩
      simpa [ha'] using hI.1
  free s i c p q e hok hc hkey hI hA hnext j p' hA' := by
    obtain ⟨d, hd, rfl⟩ := routine_of_getElem? hc
    generalize s.store appName = e₀ at hI hA hnext hA'
    cases p with
    | put a =>
      -- the cache gets the value that all lookups return
      cases hnext
      cases p' with
      | get => exact ⟨hA'.1, hA.2⟩
      | _ => exact hA'
    | save a =>
      cases hnext
      have hcall : calls[i]? = some (.saveClientApp a) := hA
      cases p' with
      | findById =>
        -- no lookup reads the repository where something is saved
        cases hd.symm.trans hcall
        rcases hok with h | h
        · exact absurd h hA'.2.1
        · exact absurd hkey (h a hcall)
      | _ => exact hA'
    | _ => cases hnext; exact hA'

/-- From a state in which no call is under way with a name, a lookup returns what the cache has then,
whatever is saved, and what the repository has, where nothing is saved. -/
theorem answer_of_quiet (hquiet : Quiet calls s appName)
    (h : (system calls).Reaches (Uncounted calls appName ((s.store appName).cache ≠ none)) s s')
    (hi : calls[i]? = some (.getClientAppByName appName)) (hidle : s.progress i = .idle)
    (hended : s'.progress i = .ended r) : r = if isBlank appName then none else
      (s.store appName).cache.or (s.store appName).repository := by
  have hout := (outline_onItsWay calls appName ((s.store appName).cache ≠ none) _).holds
    (Routine.outlined_of_quiet ⟨rfl, id⟩ hquiet) h
  exact hout.ended i _ r (getElem?_routine hi) rfl hidle hended appName hi

/-- **The cache.**  Where no app is saved with a name, every lookup of the name returns, in whatever
order the accesses come, what the repository has.  Once the cache has an app and no call is under way
with its name, every lookup returns that app, whatever is saved. -/
theorem transparent_and_sticky (E : Environment) (calls : List Call) :
    (∀ s i appName r, (∀ a, .saveClientApp a ∈ calls → a.appName ≠ appName) →
      (system calls).Reaches (fun _ _ => True) (start E.clientApps) s →
      calls[i]? = some (.getClientAppByName appName) → s.progress i = .ended r →
      r = getClientAppByName E appName) ∧
    ∀ s s' i appName a r, isBlank appName = false → Quiet calls s appName →
      (s.store appName).cache = some a → (system calls).Reaches (fun _ _ => True) s s' →
      calls[i]? = some (.getClientAppByName appName) → s.progress i = .idle →
      s'.progress i = .ended r → r = some a := by
  refine ⟨fun s i appName r hsaves h hi hended => ?_,
    fun s s' i appName a r hname hquiet ha h hi hidle hended => ?_⟩
  · refine answer_of_quiet (quiet_start calls _ appName) (h.mono fun t j _ => ?_) hi rfl hended
    exact .inr fun a ha => hsaves a (List.mem_of_getElem? ha)
  · rw [answer_of_quiet hquiet (h.mono fun t j _ => .inl (by simp [ha])) hi hidle hended, hname, ha]
    rfl

end

namespace SampleApps

/-- The app as it was, and as it is saved with another home. -/
def anz (domainName : String) : ClientApp where
  appName := some "ANZ"
  appId := some "app-1"
  masterUserId := some "ANZ-1"
  userDistributions := some [{ domainName := some domainName }]

def env : Environment where
  domainName := "domain-01"
  processorName := "processor-01"
  clientApps n := if n = "ANZ" then some (anz "domain-01") else none
  routes := none
  acceptsUrl _ := true
  keyOrder := id
  keyOrder_perm := perm_id
  uuid _ := "message"
  now _ := 0

/-- Two lookups of the app, one of another, and the app being saved. -/
def calls : List Call :=
  [.getClientAppByName (some "ANZ"), .saveClientApp (anz "domain-02"),
    .getClientAppByName (some "ANZ"), .getClientAppByName (some "NZ")]

/-- An app that is saved while a lookup has read the one before stays hidden behind that. -/
example : ((system calls).run (start env.clientApps) [0, 0, 1, 0, 2, 2]).map (fun s =>
      (s.store (some "ANZ"), s.progress 2)) =
    some (⟨some (anz "domain-02"), some (anz "domain-01")⟩, .ended (some (anz "domain-01"))) := by
  decide +kernel

end SampleApps

open SampleApps in
/-- A lookup before the app is saved, and one after it. -/
theorem transparent_and_sticky_anz : ∃ s s',
    (system calls).run (start env.clientApps) [0, 0, 0, 3, 3] = some s ∧
    (system calls).run s [1, 2, 2] = some s' ∧
    s.progress 3 = .ended (getClientAppByName env (some "NZ")) ∧
    s'.progress 2 = .ended (some (anz "domain-01")) ∧
    (s'.store (some "ANZ")).repository = some (anz "domain-02") := by
  obtain ⟨htransparent, hsticky⟩ := transparent_and_sticky env calls
  have hbefore : ((system calls).run (start env.clientApps) [0, 0, 0, 3, 3]).map (fun s =>
      ((s.store (some "ANZ")).cache, [0, 1, 2, 3].map s.progress)) =
      some (some (anz "domain-01"), [.ended (some (anz "domain-01")), .idle, .idle, .ended none]) := by
    decide +kernel
  have hafter : (((system calls).run (start env.clientApps) [0, 0, 0, 3, 3]).bind fun s =>
      ((system calls).run s [1, 2, 2]).map fun s' =>
        ((s'.store (some "ANZ")).repository, s'.progress 2)) =
      some (some (anz "domain-02"), .ended (some (anz "domain-01"))) := by decide +kernel
  obtain ⟨s, hs, hbefore⟩ := Option.map_eq_some_iff.1 hbefore
  rw [hs, Option.bind_some] at hafter
  obtain ⟨s', hs', hafter⟩ := Option.map_eq_some_iff.1 hafter
  simp only [Prod.mk.injEq, List.map_cons, List.cons.injEq] at hbefore hafter
  obtain ⟨hcache, h₀, h₁, h₂, h₃, -⟩ := hbefore
  obtain ⟨hrepository, hended⟩ := hafter
  refine ⟨s, s', hs, hs', ?_, ?_, hrepository⟩
  · have hsaves : ∀ a, .saveClientApp a ∈ calls → a.appName ≠ some "NZ" := by
      intro a ha
      have hanz : a = anz "domain-02" := by simpa [calls] using ha
      rw [hanz]
      decide
    rw [h₃, htransparent s 3 (some "NZ") none hsaves
      (System.reaches_of_run hs fun _ _ _ => trivial) rfl h₃]
  · have hquiet : Quiet calls s (some "ANZ") := by
      intro i c p hc hkey hp
      rcases i with _ | _ | _ | _ | i
      · cases h₀.symm.trans hp
      · cases h₁.symm.trans hp
      · cases h₂.symm.trans hp
      · cases h₃.symm.trans hp
      · cases hc
    rw [hended, hsticky s s' 2 (some "ANZ") _ _ (by decide) hquiet hcache
      (System.reaches_of_run hs' fun _ _ _ => trivial) rfl h₂ hended]

section

variable {calls : List Call} {appName : Option String} {s s' : Run} {i : ℕ} {r : Option ClientApp}

/-! ### Where apps are saved -/

/-- What is known of a call with a name. -/
def Placed (calls : List Call) (appName : Option String) (i : ℕ) : At → Entry → Prop
  | .isBlank, _ => isBlank appName = true
  | .get, e => e.cache ≠ none
  | .save clientApp, _ => calls[i]? = some (.saveClientApp clientApp)
  | _, _ => True

/-- Where the repository has an app with the name, lookups find one. -/
theorem outline_placed (calls : List Call) (appName : Option String) (b : Prop) :
    Routine.Outline (calls.map Call.routine) appName (fun _ _ => True)
      (fun e => b → e.repository ≠ none) (Placed calls appName)
      (fun i r => b → isBlank appName = false → ∀ n, calls[i]? = some (.getClientAppByName n) →
        r ≠ none) where
  first i c e hc hkey hI := by
    obtain ⟨d, hd, rfl⟩ := routine_of_getElem? hc
    cases d with
    | getClientAppByName n =>
      obtain rfl : n = appName := hkey
      cases hn : isBlank n <;> simp [Call.routine, Call.first, hn, Placed]
    | saveClientApp a => exact hd
  next s i c p q e _ hc hkey hI hA hnext := by
    obtain ⟨d, hd, rfl⟩ := routine_of_getElem? hc
    generalize s.store appName = e₀ at hI hA hnext
    cases p with
    | isBlank =>
      cases hnext
      exact ⟨hI, fun _ hblank => absurd (hA.symm.trans hblank) (by decide)⟩
    | containsKey =>
      cases hnext
      refine ⟨hI, ?_⟩
      cases hcache : e.cache with
      | none => trivial
      | some a => exact fun h => by cases hcache.symm.trans h
    | get =>
      cases hnext
      exact ⟨hI, fun _ _ _ _ => hA⟩
    | findById =>
      obtain ⟨rfl, ⟨hsaved, rfl⟩ | ⟨a, -, rfl⟩⟩ := next_findById hnext
      · exact ⟨hI, fun h => absurd hsaved (hI h)⟩
      · exact ⟨hI, trivial⟩
    | put a =>
      cases hnext
      exact ⟨hI, fun _ _ _ _ => Option.some_ne_none a⟩
    | save a =>
      cases hnext
      have hcall : calls[i]? = some (.saveClientApp a) := hA
      exact ⟨fun _ => Option.some_ne_none a, fun _ _ n hn => by cases hcall.symm.trans hn⟩
  free s i c p q e _ hc hkey hI hA hnext j p' hA' := by
    obtain ⟨d, hd, rfl⟩ := routine_of_getElem? hc
    generalize s.store appName = e₀ at hI hA hnext hA'
    cases p with
    | put a =>
      cases hnext
      cases p' with
      | get => exact Option.some_ne_none a
      | _ => exact hA'
    | save a =>
      cases hnext
      cases p' with
      | _ => exact hA'
    | _ => cases hnext; exact hA'

/-- A lookup is about to put an app into the cache that has the property. -/
def Carries (calls : List Call) (Q : ClientApp → Prop) (i : ℕ) : At → Entry → Prop
  | .put clientApp, _ => Q clientApp
  | .save clientApp, _ => calls[i]? = some (.saveClientApp clientApp)
  | _, _ => True

/-- A property of the apps that there are and of all that are saved is one of all that are found. -/
theorem outline_carries (calls : List Call) (appName : Option String) (Q : ClientApp → Prop) :
    Routine.Outline (calls.map Call.routine) appName
      (fun _ i => ∀ a, calls[i]? = some (.saveClientApp a) → a.appName = appName → Q a)
      (fun e => ∀ a, e.cache = some a ∨ e.repository = some a → Q a) (Carries calls Q)
      (fun _ r => ∀ a, r = some a → Q a) where
  first i c e hc hkey hI := by
    obtain ⟨d, hd, rfl⟩ := routine_of_getElem? hc
    cases d with
    | getClientAppByName n =>
      cases hn : isBlank n <;> simp [Call.routine, Call.first, hn, Carries]
    | saveClientApp a => exact hd
  next s i c p q e hok hc hkey hI hA hnext := by
    obtain ⟨d, hd, rfl⟩ := routine_of_getElem? hc
    generalize s.store appName = e₀ at hI hA hnext
    cases p with
    | isBlank => cases hnext; exact ⟨hI, fun a ha => by cases ha⟩
    | containsKey =>
      cases hnext
      refine ⟨hI, ?_⟩
      cases hcache : e.cache <;> trivial
    | get => cases hnext; exact ⟨hI, fun a ha => hI a (.inl ha)⟩
    | findById =>
      obtain ⟨rfl, ⟨-, rfl⟩ | ⟨a, hsaved, rfl⟩⟩ := next_findById hnext
      · exact ⟨hI, fun a ha => by cases ha⟩
      · exact ⟨hI, hI a (.inr hsaved)⟩
    | put a =>
      cases hnext
      refine ⟨fun a' ha' => ?_, fun a' ha' => by cases ha'; exact hA⟩
      rcases ha' with h | h
      · cases h; exact hA
      · exact hI a' (.inr h)
    | save a =>
      cases hnext
      have hcall : calls[i]? = some (.saveClientApp a) := hA
      cases hd.symm.trans hcall
      refine ⟨fun a' ha' => ?_, fun a' ha' => by cases ha'⟩
      rcases ha' with h | h
      · exact hI a' (.inl h)
      · cases h
        exact hok a hcall hkey
  free s i c p q e _ _ _ _ _ _ j p' hA' := by
    cases p' with
    | _ => exact hA'

/-- **What lookups find** where apps are saved at any time.  They find what there was at the start or has
been saved with the name; and one that begins when the repository has an app with the name finds one. -/
theorem known_and_found (repository : String → Option ClientApp) (calls : List Call)
    (appName : Option String) (i : ℕ) (hi : calls[i]? = some (.getClientAppByName appName)) :
    (∀ (Q : ClientApp → Prop) s a, (∀ a, appName.bind repository = some a → Q a) →
      (system calls).Reaches
        (fun _ j => ∀ a, calls[j]? = some (.saveClientApp a) → a.appName = appName → Q a)
        (start repository) s → s.progress i = .ended (some a) → Q a) ∧
    ∀ s s' r, isBlank appName = false →
      (system calls).Reaches (fun _ _ => True) (start repository) s → s.progress i = .idle →
      (s.store appName).repository ≠ none →
      (system calls).Reaches (fun _ _ => True) s s' → s'.progress i = .ended r → r ≠ none := by
  have hget := getElem?_routine hi
  refine ⟨fun Q s a hQ h hended => ?_, fun s s' r hname h hidle hrepository h' hended => ?_⟩
  · have hstart : ∀ a, ((start repository).store appName).cache = some a ∨
        ((start repository).store appName).repository = some a → Q a := by
      rintro a (ha | ha)
      · cases ha
      · exact hQ a ha
    have hout := (outline_carries calls appName Q).holds
      (Routine.outlined_of_quiet hstart (quiet_start calls repository appName)) h
    exact hout.ended i _ _ hget rfl rfl hended a rfl
  · have hplaced := (outline_placed calls appName False).holds
      (Routine.outlined_of_quiet (fun h => h.elim) (quiet_start calls repository appName)) h
    have hout := (outline_placed calls appName True).holds
      ⟨fun _ => hrepository, hplaced.running, fun j c r _ _ hj hr => by cases hj.symm.trans hr⟩ h'
    exact hout.ended i _ r hget rfl hidle hended trivial hname appName hi

end

open SampleApps in
/-- A lookup that begins after the app has been saved. -/
theorem known_and_found_anz : ∃ s s' r,
    (system calls).run (start fun _ => none) [1] = some s ∧
    (system calls).run s [2, 2, 2] = some s' ∧ s'.progress 2 = .ended r ∧ r ≠ none ∧
    ∀ a, r = some a → a.userDistributions = some [{ domainName := some "domain-02" }] := by
  obtain ⟨hknown, hfound⟩ := known_and_found (fun _ => none) calls (some "ANZ") 2 rfl
  have hbefore : ((system calls).run (start fun _ => none) [1]).map (fun s =>
      ((s.store (some "ANZ")).repository, s.progress 2)) =
      some (some (anz "domain-02"), .idle) := by decide +kernel
  have hafter : (((system calls).run (start fun _ => none) [1]).bind fun s =>
      ((system calls).run s [2, 2, 2]).map fun s' => s'.progress 2) =
      some (.ended (some (anz "domain-02"))) := by decide +kernel
  obtain ⟨s, hs, hbefore⟩ := Option.map_eq_some_iff.1 hbefore
  rw [hs, Option.bind_some] at hafter
  obtain ⟨s', hs', hended⟩ := Option.map_eq_some_iff.1 hafter
  obtain ⟨hrepository, hidle⟩ := Prod.mk.inj hbefore
  have hsaved : (s.store (some "ANZ")).repository ≠ none := by simp [hrepository]
  have hrun : (system calls).run (start fun _ => none) [1, 2, 2, 2] = some s' :=
    (System.run_append hs).trans hs'
  refine ⟨s, s', _, hs, hs', hended, ?_, fun a ha => ?_⟩
  · exact hfound s s' _ (by decide) (System.reaches_of_run hs fun _ _ _ => trivial) hidle hsaved
      (System.reaches_of_run hs' fun _ _ _ => trivial) hended
  · rw [ha] at hended
    refine hknown (fun a => a.userDistributions = some [{ domainName := some "domain-02" }]) s' a
      (fun a h => by cases h) (System.reaches_of_run hrun fun j _ _ b hb _ => ?_) hended
    rcases j with _ | _ | _ | _ | j <;> cases hb
    rfl

end Linker.Processor.ClientAppCache
