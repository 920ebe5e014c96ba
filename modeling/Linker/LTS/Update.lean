import Linker.LTS.Basic
import Mathlib.Data.List.Nodup
import Mathlib.Data.List.Range

/-!
# Updates of a shared store

An *update* reads the value under a key, computes a new one and writes it: two accesses to the store,
between which others may have theirs.  An update that has nothing to change ends with its reading.

## Main definitions

* `Update`, `Update.apply` : an update, and what it does when it runs alone.
* `Update.system` : calls of updates that run concurrently, access by access.
* `Update.Apart` : no call takes up a value to change it while another call is about to write under
  the same key.

## Main results

* `Update.exists_order` : calls that keep apart leave the store as they do one after the other, in the
  order in which they end.
* `Update.store_of_ne` : a key that no call has is left alone, whatever the order of the accesses.
-/

namespace Linker

/-- A change of the value under a key. -/
structure Update (K V : Type*) where
  key : K
  /-- The value to be written over the one that is read, `none` where nothing is to be written. -/
  after : V → Option V

namespace Update

variable {K V : Type*} [DecidableEq K]

/-- What an update does when it runs alone. -/
def apply (c : Update K V) (store : K → V) : K → V :=
  fun k => if k = c.key then (c.after (store c.key)).getD (store c.key) else store k

/-- How far a call has got. -/
inductive Phase (V : Type*) where
  | idle
  /-- It has read, and is about to write. -/
  | writing (v : V)
  | done

def Phase.isWriting : Phase V → Bool
  | .writing _ => true
  | _ => false

def Phase.isDone : Phase V → Bool
  | .done => true
  | _ => false

theorem Phase.isDone_iff {p : Phase V} : p.isDone = true ↔ p = .done := by
  cases p <;> simp [isDone]

structure State (K V : Type*) where
  store : K → V
  phase : ℕ → Phase V

def State.setPhase (i : ℕ) (p : Phase V) (s : State K V) : State K V :=
  { s with phase := fun j => if j = i then p else s.phase j }

/-- The next access of the `i`-th call. -/
def step (calls : List (Update K V)) (s : State K V) (i : ℕ) : Option (State K V) :=
  calls[i]?.bind fun c => match s.phase i with
    | .idle => match c.after (s.store c.key) with
      | none => some (s.setPhase i .done)
      | some v => some (s.setPhase i (.writing v))
    | .writing v =>
      some ({ s with store := fun k => if k = c.key then v else s.store k }.setPhase i .done)
    | .done => none

/-- Calls that run concurrently. -/
def system (calls : List (Update K V)) : System (State K V) ℕ where
  step := step calls

/-- The store, with no call begun. -/
def start (store : K → V) : State K V := ⟨store, fun _ => .idle⟩

/-- The store after the calls with the given numbers, one after the other. -/
def sequential (calls : List (Update K V)) (store : K → V) (order : List ℕ) : K → V :=
  order.foldl (fun store i => (calls[i]?.map fun c => c.apply store).getD store) store

/-- The access does not take up a value to change it while another call is about to write it. -/
def Apart (calls : List (Update K V)) (s : State K V) (i : ℕ) : Prop :=
  ∀ c, calls[i]? = some c → s.phase i = .idle → c.after (s.store c.key) ≠ none →
    ∀ j c' v, calls[j]? = some c' → c'.key = c.key → s.phase j ≠ .writing v

variable {calls : List (Update K V)} {s s' : State K V} {i : ℕ} {store : K → V}

/-- What an access does. -/
theorem step_cases (h : step calls s i = some s') : ∃ c, calls[i]? = some c ∧
    ((s.phase i = .idle ∧ c.after (s.store c.key) = none ∧ s' = s.setPhase i .done) ∨
    (∃ v, s.phase i = .idle ∧ c.after (s.store c.key) = some v ∧ s' = s.setPhase i (.writing v)) ∨
    ∃ v, s.phase i = .writing v ∧
      s' = { s with store := fun k => if k = c.key then v else s.store k }.setPhase i .done) := by
  obtain ⟨c, hc, h⟩ := Option.bind_eq_some_iff.1 h
  refine ⟨c, hc, ?_⟩
  cases hp : s.phase i with
  | idle =>
    rw [hp] at h
    cases hafter : c.after (s.store c.key) with
    | none =>
      simp only [hafter] at h
      exact .inl ⟨rfl, rfl, (Option.some.inj h).symm⟩
    | some v =>
      simp only [hafter] at h
      exact .inr (.inl ⟨v, rfl, rfl, (Option.some.inj h).symm⟩)
  | writing v =>
    rw [hp] at h
    exact .inr (.inr ⟨v, rfl, (Option.some.inj h).symm⟩)
  | done =>
    rw [hp] at h
    cases h

omit [DecidableEq K] in
theorem setPhase_self (p : Phase V) : (s.setPhase i p).phase i = p := by
  simp [State.setPhase]

omit [DecidableEq K] in
theorem setPhase_of_ne {j : ℕ} (p : Phase V) (h : j ≠ i) : (s.setPhase i p).phase j = s.phase j := by
  simp [State.setPhase, h]

theorem sequential_append (order : List ℕ) {c : Update K V} (hc : calls[i]? = some c) :
    sequential calls store (order ++ [i]) = c.apply (sequential calls store order) := by
  simp [sequential, hc]

/-! ### Keys of no call -/

theorem store_of_ne {ok : State K V → ℕ → Prop} {k : K} (hk : ∀ c ∈ calls, c.key ≠ k)
    (h : (system calls).Reaches ok (start store) s) : s.store k = store k := by
  refine h.invariant (I := fun s => s.store k = store k) rfl ?_
  intro s i s' hs _ hst
  obtain ⟨c, hc, ⟨-, -, rfl⟩ | ⟨v, -, -, rfl⟩ | ⟨v, -, rfl⟩⟩ := step_cases hst
  · exact hs
  · exact hs
  · have hne : k ≠ c.key := fun h => hk c (List.mem_of_getElem? hc) h.symm
    simpa [State.setPhase, hne] using hs

/-! ### The order in which calls end -/

/-- The store is that of the calls in `order`, which are those that have ended, and a call that is
about to write is alone with its key and has read what the key still has. -/
structure Ordered (calls : List (Update K V)) (store : K → V) (order : List ℕ) (s : State K V) :
    Prop where
  store : s.store = sequential calls store order
  nodup : order.Nodup
  done : ∀ i, i ∈ order ↔ s.phase i = .done
  bound : ∀ i ∈ order, i < calls.length
  current : ∀ i c v, calls[i]? = some c → s.phase i = .writing v → c.after (s.store c.key) = some v
  alone : ∀ i j c c' v v', calls[i]? = some c → calls[j]? = some c' → c.key = c'.key →
    s.phase i = .writing v → s.phase j = .writing v' → i = j

theorem ordered_start : Ordered calls store [] (start store) where
  store := rfl
  nodup := List.nodup_nil
  done i := by simp [start]
  bound i hi := by cases hi
  current i c v _ h := by cases h
  alone i j c c' v v' _ _ _ h := by cases h

/-- A call that ends comes last in the order. -/
theorem Ordered.finish {order : List ℕ} {c : Update K V} (h : Ordered calls store order s)
    (hc : calls[i]? = some c) (hi : s.phase i ≠ .done) {t : State K V}
    (ht : t = { s with store := c.apply s.store }.setPhase i .done)
    (hcurrent : ∀ j c' v, j ≠ i → calls[j]? = some c' → s.phase j = .writing v →
      c'.key = c.key → c.apply s.store c.key = s.store c.key) :
    Ordered calls store (order ++ [i]) t := by
  subst ht
  -- the other calls are where they were
  have hphase : ∀ j v, ({ s with store := c.apply s.store }.setPhase i .done).phase j = .writing v →
      j ≠ i ∧ s.phase j = .writing v := by
    intro j v hj
    by_cases hji : j = i
    · subst hji
      rw [setPhase_self] at hj
      cases hj
    · rw [setPhase_of_ne _ hji] at hj
      exact ⟨hji, hj⟩
  have hnotin : i ∉ order := fun hmem => hi ((h.done i).1 hmem)
  refine ⟨?_, ?_, fun j => ?_, ?_, fun j c' v hc' hj => ?_, fun j j' d d' v v' hd hd' hk hj hj' => ?_⟩
  · rw [sequential_append order hc, ← h.store]
    rfl
  · refine List.nodup_append.2 ⟨h.nodup, List.nodup_singleton i, ?_⟩
    intro a ha b hb hab
    rw [List.mem_singleton.1 hb] at hab
    exact hnotin (hab ▸ ha)
  · by_cases hj : j = i
    · simp [hj, setPhase_self]
    · rw [setPhase_of_ne _ hj]
      simpa [hj] using h.done j
  · intro j hj
    rcases List.mem_append.1 hj with hj | hj
    · exact h.bound j hj
    · rw [List.mem_singleton.1 hj]
      exact (List.getElem?_eq_some_iff.1 hc).1
  · obtain ⟨hne, hj⟩ := hphase j v hj
    have hvalue : c.apply s.store c'.key = s.store c'.key := by
      by_cases hk : c'.key = c.key
      · rw [hk]
        exact hcurrent j c' v hne hc' hj hk
      · simp [apply, hk]
    show c'.after (c.apply s.store c'.key) = some v
    rw [hvalue]
    exact h.current j c' v hc' hj
  · exact h.alone j j' d d' v v' hd hd' hk (hphase j v hj).2 (hphase j' v' hj').2

/-- **An access of calls that keep apart** keeps the order. -/
theorem Ordered.step {order : List ℕ} (h : Ordered calls store order s) (hok : Apart calls s i)
    (hst : step calls s i = some s') : ∃ order', Ordered calls store order' s' := by
  obtain ⟨c, hc, ⟨hidle, hafter, rfl⟩ | ⟨v, hidle, hafter, rfl⟩ | ⟨v, hwriting, rfl⟩⟩ :=
    step_cases hst
  · -- nothing is written: the call ends where it has read
    have happly : c.apply s.store = s.store := by
      funext k
      by_cases hk : k = c.key
      · simp [apply, hk, hafter]
      · simp [apply, hk]
    refine ⟨order ++ [i], h.finish hc (by rw [hidle]; simp) ?_ fun j c' v _ _ _ _ => ?_⟩
    · rw [happly]
    · rw [happly]
  · -- what is read here no other call is about to overwrite
    refine ⟨order, h.store, h.nodup, fun j => ?_, h.bound, fun j c' w hc' hj => ?_, ?_⟩
    · by_cases hj : j = i
      · subst hj
        simp [setPhase_self, h.done, hidle]
      · rw [setPhase_of_ne _ hj]
        exact h.done j
    · by_cases hji : j = i
      · subst hji
        rw [setPhase_self] at hj
        cases hc.symm.trans hc'
        cases hj
        exact hafter
      · rw [setPhase_of_ne _ hji] at hj
        exact h.current j c' w hc' hj
    · have hfree := hok c hc hidle (by rw [hafter]; simp)
      intro j j' d d' w w' hd hd' hk hj hj'
      by_cases hji : j = i
      · by_cases hji' : j' = i
        · rw [hji, hji']
        · subst hji
          rw [setPhase_of_ne _ hji'] at hj'
          cases hc.symm.trans hd
          exact absurd hj' (hfree j' d' w' hd' hk.symm)
      · rw [setPhase_of_ne _ hji] at hj
        by_cases hji' : j' = i
        · subst hji'
          cases hc.symm.trans hd'
          exact absurd hj (hfree j d w hd hk)
        · rw [setPhase_of_ne _ hji'] at hj'
          exact h.alone j j' d d' w w' hd hd' hk hj hj'
  · -- the value read is still there: the call has run as if alone
    have hafter := h.current i c v hc hwriting
    have happly : c.apply s.store = fun k => if k = c.key then v else s.store k := by
      funext k
      simp [apply, hafter]
    refine ⟨order ++ [i], h.finish hc (by rw [hwriting]; simp) (by rw [happly])
      fun j c' w hne hc' hj hk => ?_⟩
    exact absurd (h.alone j i c' c w v hc' hc hk hj hwriting) hne

/-- **Calls that keep apart** leave the store as they do one after the other. -/
theorem exists_order (h : (system calls).Reaches (Apart calls) (start store) s)
    (hdone : ∀ i < calls.length, s.phase i = .done) :
    ∃ order, order.Perm (List.range calls.length) ∧ s.store = sequential calls store order := by
  obtain ⟨order, hord⟩ : ∃ order, Ordered calls store order s :=
    h.invariant (I := fun s => ∃ order, Ordered calls store order s) ⟨[], ordered_start⟩
      fun s i s' ⟨order, hs⟩ hok hst => hs.step hok hst
  refine ⟨order, ?_, hord.store⟩
  refine (List.perm_ext_iff_of_nodup hord.nodup List.nodup_range).2 fun i => ?_
  rw [List.mem_range]
  exact ⟨hord.bound i, fun hi => (hord.done i).2 (hdone i hi)⟩

end Update

end Linker
