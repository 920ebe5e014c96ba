import Linker.LTS.Basic
import Mathlib.Data.List.Nodup

/-!
# Concurrent calls of routines

A *routine* is a call that works on the value under one key of a shared store, access by access; other
calls may have accesses in between.

## Main definitions

* `Routine`, `Routine.Runs` : a routine, and what it does when it runs without others in between.
* `Routine.system` : calls of routines that run concurrently.
* `Routine.Alone` : no call begins while another one is under way with the same key.
* `Routine.Serial` : calls one after the other, with what they return.
* `Routine.ends` : the calls that end in a run, in this order.
* `Routine.Outline` : assertions about the value under a key, at every position of the calls with it.

## Main results

* `Routine.exists_serial` : calls that are alone with their keys return what they return one after the
  other, in the order in which they end, and leave the store as that does.
-/

namespace Linker

/-- A call that works on the value under a key. -/
structure Routine (K V P R : Type*) where
  key : K
  /-- Where it begins. -/
  first : P
  /-- What the next access makes of the value, and where the call is then, or what it returns. -/
  next : P → V → (P ⊕ R) × V

namespace Routine

variable {K V P R : Type*}

/-- From a position and a value, the routine alone returns a result and leaves a value. -/
inductive Runs (c : Routine K V P R) : P → V → R → V → Prop
  | last {p : P} {v v' : V} {r : R} : c.next p v = (.inr r, v') → Runs c p v r v'
  | step {p p' : P} {v v₁ v' : V} {r : R} : c.next p v = (.inl p', v₁) → Runs c p' v₁ r v' →
      Runs c p v r v'

variable {c : Routine K V P R} {p p' : P} {v v₁ v' : V} {r r₁ : R}

theorem runs_of_next_inl (h : c.next p v = (.inl p', v₁)) : c.Runs p v r v' ↔ c.Runs p' v₁ r v' := by
  constructor
  · intro hruns
    cases hruns with
    | last h' => cases h.symm.trans h'
    | step h' hruns => cases h.symm.trans h'; exact hruns
  · exact fun hruns => .step h hruns

theorem runs_of_next_inr (h : c.next p v = (.inr r₁, v₁)) :
    c.Runs p v r v' ↔ r = r₁ ∧ v' = v₁ := by
  constructor
  · intro hruns
    cases hruns with
    | last h' => cases h.symm.trans h'; exact ⟨rfl, rfl⟩
    | step h' hruns => cases h.symm.trans h'
  · rintro ⟨rfl, rfl⟩
    exact .last h

/-- How far a call has got. -/
inductive Progress (P R : Type*) where
  | idle
  | running (p : P)
  | ended (r : R)
  deriving DecidableEq

structure State (K V P R : Type*) where
  store : K → V
  progress : ℕ → Progress P R

/-- The store, with no call begun. -/
def start (store : K → V) : State K V P R := ⟨store, fun _ => .idle⟩

/-- Where a call goes on, `none` where it has ended. -/
def Progress.position (c : Routine K V P R) : Progress P R → Option P
  | .idle => some c.first
  | .running p => some p
  | .ended _ => none

/-- How far a call has got after an access. -/
def Progress.ofNext : P ⊕ R → Progress P R
  | .inl p => .running p
  | .inr r => .ended r

variable [DecidableEq K]

/-- An access of the `i`-th call at a position. -/
def State.access (s : State K V P R) (i : ℕ) (c : Routine K V P R) (p : P) : State K V P R where
  store := Function.update s.store c.key (c.next p (s.store c.key)).2
  progress := Function.update s.progress i (.ofNext (c.next p (s.store c.key)).1)

/-- Calls that run concurrently: an event is the next access of one of them. -/
def system (calls : List (Routine K V P R)) : System (State K V P R) ℕ where
  step s i := calls[i]?.bind fun c => ((s.progress i).position c).map (s.access i c)

/-- The access does not begin a call while another one is under way with its key. -/
def Alone (calls : List (Routine K V P R)) (s : State K V P R) (i : ℕ) : Prop :=
  s.progress i = .idle → ∀ c j c' p, calls[i]? = some c → calls[j]? = some c' → c'.key = c.key →
    s.progress j ≠ .running p

/-- The call with what it returns, if it has ended. -/
def State.ending (s : State K V P R) (i : ℕ) : List (ℕ × R) :=
  match s.progress i with
  | .ended r => [(i, r)]
  | _ => []

/-- The calls that end in a run, in the order in which they end, with what they return. -/
def ends (l : List (System.Step (State K V P R) ℕ)) : List (ℕ × R) :=
  l.flatMap fun st => st.after.ending st.event

/-- Calls one after the other: their numbers and what they return, and the store after them. -/
inductive Serial (calls : List (Routine K V P R)) (store : K → V) : List (ℕ × R) → (K → V) → Prop
  | nil : Serial calls store [] store
  | snoc {l : List (ℕ × R)} {t : K → V} {i : ℕ} {c : Routine K V P R} {r : R} {v : V} :
      Serial calls store l t → calls[i]? = some c → c.Runs c.first (t c.key) r v →
      Serial calls store (l ++ [(i, r)]) (Function.update t c.key v)

variable {calls : List (Routine K V P R)} {s s' : State K V P R} {i : ℕ} {store : K → V}

/-- What an access does. -/
theorem step_eq_some : (system calls).step s i = some s' ↔
    ∃ c p, calls[i]? = some c ∧ (s.progress i).position c = some p ∧ s' = s.access i c p := by
  simp only [system, Option.bind_eq_some_iff, Option.map_eq_some_iff]
  constructor
  · rintro ⟨c, hc, p, hp, rfl⟩
    exact ⟨c, p, hc, hp, rfl⟩
  · rintro ⟨c, p, hc, hp, rfl⟩
    exact ⟨c, hc, p, hp, rfl⟩

omit [DecidableEq K] in
/-- A call that has not ended is at its beginning or on its way. -/
theorem position_cases {c : Routine K V P R} {q : Progress P R} {p : P} (h : q.position c = some p) :
    (q = .idle ∧ p = c.first) ∨ q = .running p := by
  cases q with
  | idle => exact .inl ⟨rfl, (Option.some.inj h).symm⟩
  | running p' => exact .inr (congrArg _ (Option.some.inj h))
  | ended r => cases h

/-! ### Calls that are alone with their keys -/

/-- The calls that have ended are those of `l`, one after the other with the store `t` after them, and
a call that is under way returns what it would return alone from there. -/
structure Serialised (calls : List (Routine K V P R)) (store : K → V) (l : List (ℕ × R)) (t : K → V)
    (s : State K V P R) : Prop where
  serial : Serial calls store l t
  ended : ∀ i r, (i, r) ∈ l ↔ s.progress i = .ended r
  nodup : (l.map Prod.fst).Nodup
  /-- A key with which no call is under way has its value. -/
  settled : ∀ k, (∀ i c p, calls[i]? = some c → c.key = k → s.progress i ≠ .running p) →
    s.store k = t k
  running : ∀ i c p, calls[i]? = some c → s.progress i = .running p → ∀ r v,
    c.Runs p (s.store c.key) r v → c.Runs c.first (t c.key) r v
  alone : ∀ i j c c' p p', calls[i]? = some c → calls[j]? = some c' → c.key = c'.key →
    s.progress i = .running p → s.progress j = .running p' → i = j

theorem serialised_start : Serialised calls store [] store (start store) where
  serial := .nil
  ended i r := by simp [start]
  nodup := List.nodup_nil
  settled _ _ := rfl
  running i c p _ h := by cases h
  alone i j c c' p p' _ _ _ h := by cases h

theorem progress_access_self (c : Routine K V P R) (p : P) :
    (s.access i c p).progress i = .ofNext (c.next p (s.store c.key)).1 :=
  Function.update_self ..

theorem progress_access_of_ne {j : ℕ} (c : Routine K V P R) (p : P) (h : j ≠ i) :
    (s.access i c p).progress j = s.progress j :=
  Function.update_of_ne h ..

theorem store_access_self (c : Routine K V P R) (p : P) :
    (s.access i c p).store c.key = (c.next p (s.store c.key)).2 :=
  Function.update_self ..

theorem store_access_of_ne {k : K} (c : Routine K V P R) (p : P) (h : k ≠ c.key) :
    (s.access i c p).store k = s.store k :=
  Function.update_of_ne h ..

/-- No other call is under way with the key. -/
def Free (calls : List (Routine K V P R)) (s : State K V P R) (i : ℕ) (k : K) : Prop :=
  ∀ j c p, j ≠ i → calls[j]? = some c → c.key = k → s.progress j ≠ .running p

/-- Where the access of a call that is alone with its key has the call go on. -/
theorem Serialised.goOn {l : List (ℕ × R)} {t : K → V} {c : Routine K V P R} {p p' : P} {v : V}
    (h : Serialised calls store l t s) (hc : calls[i]? = some c)
    (hnotEnded : ∀ r, s.progress i ≠ .ended r) (hnext : c.next p (s.store c.key) = (.inl p', v))
    (hruns : ∀ r v, c.Runs p (s.store c.key) r v → c.Runs c.first (t c.key) r v)
    (hfree : Free calls s i c.key) : Serialised calls store l t (s.access i c p) := by
  have hself : (s.access i c p).progress i = .running p' := by
    rw [progress_access_self, hnext]
    rfl
  have hvalue : (s.access i c p).store c.key = v := by rw [store_access_self, hnext]
  refine ⟨h.serial, fun j r => ?_, h.nodup, fun k hk => ?_, fun j c' p'' hc' hj r w hw => ?_,
    fun j j' d d' p₁ p₂ hd hd' hk hj hj' => ?_⟩
  · by_cases hj : j = i
    · subst hj
      rw [hself, h.ended j r]
      exact ⟨fun hr => absurd hr (hnotEnded r), fun hr => by cases hr⟩
    · rw [progress_access_of_ne c p hj, h.ended j r]
  · have hne : k ≠ c.key := fun hkey => hk i c p' hc hkey.symm hself
    rw [store_access_of_ne c p hne]
    refine h.settled k fun j c' p'' hc' hkey hj => ?_
    have hji : j ≠ i := by
      rintro rfl
      cases hc.symm.trans hc'
      exact hne hkey.symm
    exact hk j c' p'' hc' hkey ((progress_access_of_ne c p hji).trans hj)
  · by_cases hji : j = i
    · subst hji
      cases hc.symm.trans hc'
      cases hself.symm.trans hj
      rw [hvalue] at hw
      exact hruns r w (.step hnext hw)
    · rw [progress_access_of_ne c p hji] at hj
      rw [store_access_of_ne c p fun hkey => hfree j c' p'' hji hc' hkey hj] at hw
      exact h.running j c' p'' hc' hj r w hw
  · by_cases hji : j = i
    · by_cases hji' : j' = i
      · rw [hji, hji']
      · subst hji
        cases hc.symm.trans hd
        rw [progress_access_of_ne c p hji'] at hj'
        exact absurd hj' (hfree j' d' p₂ hji' hd' hk.symm)
    · rw [progress_access_of_ne c p hji] at hj
      by_cases hji' : j' = i
      · subst hji'
        cases hc.symm.trans hd'
        exact absurd hj (hfree j d p₁ hji hd hk)
      · rw [progress_access_of_ne c p hji'] at hj'
        exact h.alone j j' d d' p₁ p₂ hd hd' hk hj hj'

/-- Where the access of a call that is alone with its key ends the call, it comes last. -/
theorem Serialised.finish {l : List (ℕ × R)} {t : K → V} {c : Routine K V P R} {p : P} {r : R} {v : V}
    (h : Serialised calls store l t s) (hc : calls[i]? = some c)
    (hnotEnded : ∀ r, s.progress i ≠ .ended r) (hnext : c.next p (s.store c.key) = (.inr r, v))
    (hruns : c.Runs c.first (t c.key) r v) (hfree : Free calls s i c.key) :
    Serialised calls store (l ++ [(i, r)]) (Function.update t c.key v) (s.access i c p) := by
  have hself : (s.access i c p).progress i = .ended r := by
    rw [progress_access_self, hnext]
    rfl
  have hvalue : (s.access i c p).store c.key = v := by rw [store_access_self, hnext]
  have hrunning : ∀ j p', (s.access i c p).progress j = .running p' →
      j ≠ i ∧ s.progress j = .running p' := by
    intro j p' hj
    have hji : j ≠ i := by
      rintro rfl
      cases hself.symm.trans hj
    exact ⟨hji, (progress_access_of_ne c p hji).symm.trans hj⟩
  refine ⟨h.serial.snoc hc hruns, fun j r' => ?_, ?_, fun k hk => ?_,
    fun j c' p' hc' hj r' w hw => ?_, fun j j' d d' p₁ p₂ hd hd' hk hj hj' => ?_⟩
  · rw [List.mem_append, List.mem_singleton, Prod.mk.injEq]
    by_cases hj : j = i
    · subst hj
      rw [hself, h.ended j r']
      constructor
      · rintro (hr | ⟨-, rfl⟩)
        · exact absurd hr (hnotEnded r')
        · rfl
      · intro hr
        exact .inr ⟨rfl, by cases hr; rfl⟩
    · rw [progress_access_of_ne c p hj, ← h.ended j r']
      exact ⟨fun hr => hr.resolve_right fun hr => hj hr.1, .inl⟩
  · rw [List.map_append, List.nodup_append]
    refine ⟨h.nodup, List.nodup_singleton i, ?_⟩
    intro a ha b hb hab
    obtain ⟨⟨a', r'⟩, hmem, rfl⟩ := List.mem_map.1 ha
    have ha' : a' = i := hab.trans (List.mem_singleton.1 hb)
    subst ha'
    exact hnotEnded r' ((h.ended a' r').1 hmem)
  · by_cases hkey : k = c.key
    · subst hkey
      rw [hvalue, Function.update_self]
    · rw [store_access_of_ne c p hkey, Function.update_of_ne hkey]
      refine h.settled k fun j c' p' hc' hk' hj => ?_
      have hji : j ≠ i := by
        rintro rfl
        cases hc.symm.trans hc'
        exact hkey hk'.symm
      exact hk j c' p' hc' hk' ((progress_access_of_ne c p hji).trans hj)
  · obtain ⟨hji, hj⟩ := hrunning j p' hj
    have hne : c'.key ≠ c.key := fun hkey => hfree j c' p' hji hc' hkey hj
    rw [store_access_of_ne c p hne] at hw
    rw [Function.update_of_ne hne]
    exact h.running j c' p' hc' hj r' w hw
  · exact h.alone j j' d d' p₁ p₂ hd hd' hk (hrunning j p₁ hj).2 (hrunning j' p₂ hj').2

/-- **An access of a call that is alone with its key**: the call goes on, or it ends and comes last. -/
theorem Serialised.access {l : List (ℕ × R)} {t : K → V} {c : Routine K V P R} {p : P}
    (h : Serialised calls store l t s) (hc : calls[i]? = some c)
    (hp : (s.progress i).position c = some p)
    (hruns : ∀ r v, c.Runs p (s.store c.key) r v → c.Runs c.first (t c.key) r v)
    (hfree : Free calls s i c.key) :
    ∃ t', Serialised calls store (l ++ (s.access i c p).ending i) t' (s.access i c p) := by
  have hnotEnded : ∀ r, s.progress i ≠ .ended r := by
    intro r hr
    rw [hr] at hp
    cases hp
  cases hnext : c.next p (s.store c.key) with
  | mk q v =>
    rw [State.ending, progress_access_self, hnext]
    cases q with
    | inl p' =>
      simp only [Progress.ofNext, List.append_nil]
      exact ⟨t, h.goOn hc hnotEnded hnext hruns hfree⟩
    | inr r =>
      simp only [Progress.ofNext]
      exact ⟨_, h.finish hc hnotEnded hnext (hruns r v (.last hnext)) hfree⟩

theorem Serialised.step {l : List (ℕ × R)} {t : K → V} (h : Serialised calls store l t s)
    (hok : Alone calls s i) (hst : (system calls).step s i = some s') :
    ∃ t', Serialised calls store (l ++ s'.ending i) t' s' := by
  obtain ⟨c, p, hc, hp, rfl⟩ := step_eq_some.1 hst
  rcases position_cases hp with ⟨hidle, rfl⟩ | hrunning
  · -- where the call begins, the key has the value of the calls before
    have hfree := hok hidle c
    have hvalue : s.store c.key = t c.key :=
      h.settled c.key fun j c' p' hc' hk => hfree j c' p' hc hc' hk
    refine h.access hc hp (fun r v hr => ?_) fun j c' p' _ hc' hk => hfree j c' p' hc hc' hk
    rwa [← hvalue]
  · refine h.access hc hp (h.running i c p hc hrunning) fun j c' p' hji hc' hk hj => ?_
    exact hji (h.alone j i c' c p' p hc' hc hk hj hrunning)

/-- **Calls that are alone with their keys** return what they return one after the other, in the order in
which they end, and leave the store as that does. -/
theorem exists_serial {l : List (System.Step (State K V P R) ℕ)}
    (h : (system calls).Path (Alone calls) (start store) l s) :
    ∃ t, Serial calls store (ends l) t ∧ (∀ i r, (i, r) ∈ ends l ↔ s.progress i = .ended r) ∧
      ((ends l).map Prod.fst).Nodup ∧
      ∀ k, (∀ i c p, calls[i]? = some c → c.key = k → s.progress i ≠ .running p) →
        s.store k = t k := by
  obtain ⟨t, hser⟩ : ∃ t, Serialised calls store (ends l) t s := by
    induction h with
    | nil => exact ⟨store, serialised_start⟩
    | snoc _ hok hst ih =>
      obtain ⟨t, hs⟩ := ih
      rw [ends, List.flatMap_append, List.flatMap_singleton]
      exact hs.step hok hst
  exact ⟨t, hser.serial, hser.ended, hser.nodup, hser.settled⟩

/-! ### Assertions at the positions of the calls -/

/-- No call is under way with the key. -/
def Quiet (calls : List (Routine K V P R)) (s : State K V P R) (k : K) : Prop :=
  ∀ i c p, calls[i]? = some c → c.key = k → s.progress i ≠ .running p

/-- Assertions about the value under `k`: `I` between all accesses, `A i` at the positions of the
`i`-th call, which has the key, and `B i` about what it returns.  An access of a call takes them on, and
it does not break what holds at the position of another. -/
structure Outline (calls : List (Routine K V P R)) (k : K) (ok : State K V P R → ℕ → Prop)
    (I : V → Prop) (A : ℕ → P → V → Prop) (B : ℕ → R → Prop) : Prop where
  first : ∀ (i : ℕ) (c : Routine K V P R) v, calls[i]? = some c → c.key = k → I v → A i c.first v
  next : ∀ s i (c : Routine K V P R) p q v, ok s i → calls[i]? = some c → c.key = k →
    I (s.store k) → A i p (s.store k) → c.next p (s.store k) = (q, v) →
    I v ∧ q.elim (fun p' => A i p' v) (B i)
  free : ∀ s i (c : Routine K V P R) p q v, ok s i → calls[i]? = some c → c.key = k →
    I (s.store k) → A i p (s.store k) → c.next p (s.store k) = (q, v) →
    ∀ j p', A j p' (s.store k) → A j p' v

/-- What an outline says in the states of a run from `s₀`. -/
structure Outlined (calls : List (Routine K V P R)) (k : K) (I : V → Prop) (A : ℕ → P → V → Prop)
    (B : ℕ → R → Prop) (s₀ s : State K V P R) : Prop where
  value : I (s.store k)
  running : ∀ i c p, calls[i]? = some c → c.key = k → s.progress i = .running p →
    A i p (s.store k)
  ended : ∀ i c r, calls[i]? = some c → c.key = k → s₀.progress i = .idle →
    s.progress i = .ended r → B i r

section

variable {k : K} {ok : State K V P R → ℕ → Prop} {I : V → Prop} {A : ℕ → P → V → Prop}
  {B : ℕ → R → Prop} {s₀ : State K V P R}

theorem Outlined.step (ho : Outline calls k ok I A B) (h : Outlined calls k I A B s₀ s)
    (hok : ok s i) (hst : (system calls).step s i = some s') : Outlined calls k I A B s₀ s' := by
  obtain ⟨c, p, hc, hp, rfl⟩ := step_eq_some.1 hst
  by_cases hkey : c.key = k
  · subst hkey
    have hA : A i p (s.store c.key) := by
      rcases position_cases hp with ⟨-, rfl⟩ | hrunning
      · exact ho.first i c _ hc rfl h.value
      · exact h.running i c p hc rfl hrunning
    obtain ⟨hI, hnext⟩ := ho.next s i c p _ _ hok hc rfl h.value hA rfl
    have hfree := ho.free s i c p _ _ hok hc rfl h.value hA rfl
    refine ⟨?_, fun j c' p' hc' hk hj => ?_, fun j c' r hc' hk h₀ hj => ?_⟩
    · rwa [store_access_self]
    · rw [store_access_self]
      by_cases hji : j = i
      · subst hji
        rw [progress_access_self] at hj
        cases hq : (c.next p (s.store c.key)).1 with
        | inl p'' =>
          rw [hq] at hj hnext
          cases hj
          exact hnext
        | inr r => rw [hq] at hj; cases hj
      · rw [progress_access_of_ne c p hji] at hj
        exact hfree j p' (h.running j c' p' hc' hk hj)
    · by_cases hji : j = i
      · subst hji
        rw [progress_access_self] at hj
        cases hq : (c.next p (s.store c.key)).1 with
        | inl p' => rw [hq] at hj; cases hj
        | inr r' =>
          rw [hq] at hj hnext
          cases hj
          exact hnext
      · rw [progress_access_of_ne c p hji] at hj
        exact h.ended j c' r hc' hk h₀ hj
  · -- an access under another key
    have hother : ∀ j c', calls[j]? = some c' → c'.key = k → j ≠ i := by
      rintro j c' hc' rfl rfl
      cases hc.symm.trans hc'
      exact hkey rfl
    have hstore : (s.access i c p).store k = s.store k :=
      store_access_of_ne c p fun hk => hkey hk.symm
    refine ⟨by rw [hstore]; exact h.value, fun j c' p' hc' hk hj => ?_,
      fun j c' r hc' hk h₀ hj => ?_⟩
    · rw [progress_access_of_ne c p (hother j c' hc' hk)] at hj
      rw [hstore]
      exact h.running j c' p' hc' hk hj
    · rw [progress_access_of_ne c p (hother j c' hc' hk)] at hj
      exact h.ended j c' r hc' hk h₀ hj

omit [DecidableEq K] in
/-- Where no call is under way with the key, the value is all that an outline speaks about. -/
theorem outlined_of_quiet (h : I (s₀.store k)) (hquiet : Quiet calls s₀ k) :
    Outlined calls k I A B s₀ s₀ where
  value := h
  running i c p hc hk hp := absurd hp (hquiet i c p hc hk)
  ended i c r _ _ hidle hr := by cases hidle.symm.trans hr

/-- **Proof outlines.**  The assertions hold in every order of the accesses. -/
theorem Outline.holds (ho : Outline calls k ok I A B) (h₀ : Outlined calls k I A B s₀ s₀)
    (h : (system calls).Reaches ok s₀ s) : Outlined calls k I A B s₀ s :=
  h.invariant (I := Outlined calls k I A B s₀) h₀ fun _ _ _ hs hok hst => hs.step ho hok hst

end

end Routine

end Linker
