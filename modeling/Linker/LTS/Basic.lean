import Mathlib.Data.List.Basic
import Mathlib.Logic.Function.Basic
import Mathlib.Tactic.SplitIfs

/-!
# Event systems and their runs

A `System` is a labelled transition system whose labels are *events*: everything that a run may
choose (which record is consumed, what a client sends, which outcome a call has) is part of the event,
so a step is a function of the state and the event, and a run can be computed.

## Main definitions

* `System S E` : `step s e` is the state after `e`, `none` where `e` cannot happen in `s`.
* `System.run` : the state after a list of events.
* `System.Reaches ok s₀ s` : `s` is reached from `s₀` by steps that all meet the condition `ok`.
* `System.Path ok s₀ l s` : the same with the list `l` of the steps made, each with the states before
  and after it.
* `System.family` : systems side by side.

## Main results

* `System.Reaches.invariant` : what holds at the start and is kept by every step holds throughout.
* `System.Reaches.simulate` : what is reached is related to what a system that simulates the steps reaches.
* `System.Path.split` : what comes before a step of a path is a path to the state it is made in.
* `System.Path.length_add_le` : a measure that every step lowers bounds the length of every path.
-/

namespace Linker

/-- A system of events. -/
structure System (S E : Type*) where
  /-- The state after an event, `none` where the event cannot happen. -/
  step : S → E → Option S

namespace System

variable {S E T F : Type*} (A : System S E)

/-- The state after a list of events, `none` where one of them cannot happen. -/
def run : S → List E → Option S
  | s, [] => some s
  | s, e :: es => (A.step s e).bind fun s' => run s' es

/-- The state after a list of events that all pass a test in the state they happen in. -/
def runIf (test : S → E → Bool) : S → List E → Option S
  | s, [] => some s
  | s, e :: es => if test s e then (A.step s e).bind fun s' => runIf test s' es else none

/-- `s` is reached from `s₀` by steps that all meet `ok`. -/
inductive Reaches (ok : S → E → Prop) (s₀ : S) : S → Prop
  | refl : Reaches ok s₀ s₀
  | tail {s s' : S} {e : E} : Reaches ok s₀ s → ok s e → A.step s e = some s' → Reaches ok s₀ s'

variable {A}

@[simp] theorem run_nil (s : S) : A.run s [] = some s := rfl

theorem run_cons_eq_some {s s' : S} {e : E} {es : List E} :
    A.run s (e :: es) = some s' ↔ ∃ t, A.step s e = some t ∧ A.run t es = some s' := by
  simp [run, Option.bind_eq_some_iff]

theorem run_append {s s' : S} {es es' : List E} (h : A.run s es = some s') :
    A.run s (es ++ es') = A.run s' es' := by
  induction es generalizing s with
  | nil => cases h; rfl
  | cons e es ih =>
    obtain ⟨t, hst, ht⟩ := run_cons_eq_some.1 h
    simp only [List.cons_append, run, hst, Option.bind_some]
    exact ih ht

theorem Reaches.head {ok : S → E → Prop} {s t s' : S} {e : E} (hok : ok s e)
    (hst : A.step s e = some t) (h : A.Reaches ok t s') : A.Reaches ok s s' := by
  induction h with
  | refl => exact .tail .refl hok hst
  | tail _ hok' hst' ih => exact .tail ih hok' hst'

theorem Reaches.trans {ok : S → E → Prop} {s t s' : S} (h : A.Reaches ok s t)
    (h' : A.Reaches ok t s') : A.Reaches ok s s' := by
  induction h' with
  | refl => exact h
  | tail _ hok hst ih => exact .tail ih hok hst

theorem Reaches.mono {ok ok' : S → E → Prop} {s₀ s : S} (h : A.Reaches ok s₀ s)
    (hok : ∀ s e, ok s e → ok' s e) : A.Reaches ok' s₀ s := by
  induction h with
  | refl => exact .refl
  | tail _ h hst ih => exact .tail ih (hok _ _ h) hst

/-- **Simulation.**  Where every step is matched by steps of another system, in related states, what is
reached is related to a state that the other system reaches. -/
theorem Reaches.simulate {B : System T F} {ok : S → E → Prop} {ok' : T → F → Prop}
    {R : S → T → Prop} {s₀ s : S} {t₀ : T} (h : A.Reaches ok s₀ s) (h₀ : R s₀ t₀)
    (hstep : ∀ s t e s', R s t → ok s e → A.step s e = some s' → ∃ t', B.Reaches ok' t t' ∧ R s' t') :
    ∃ t, B.Reaches ok' t₀ t ∧ R s t := by
  induction h with
  | refl => exact ⟨t₀, .refl, h₀⟩
  | tail _ hok hst ih =>
    obtain ⟨t, ht, hR⟩ := ih
    obtain ⟨t', ht', hR'⟩ := hstep _ _ _ _ hR hok hst
    exact ⟨t', ht.trans ht', hR'⟩

/-- A run is a way to reach its last state. -/
theorem reaches_of_run {ok : S → E → Prop} {s s' : S} {es : List E} (h : A.run s es = some s')
    (hok : ∀ e ∈ es, ∀ t, ok t e) : A.Reaches ok s s' := by
  induction es generalizing s with
  | nil => cases h; exact .refl
  | cons e es ih =>
    obtain ⟨t, hst, ht⟩ := run_cons_eq_some.1 h
    refine .head (hok e List.mem_cons_self s) hst (ih ht fun e' he' => ?_)
    exact hok e' (List.mem_cons_of_mem e he')

/-- A run whose events pass a test for `ok` is a way to reach its last state. -/
theorem reaches_of_runIf {ok : S → E → Prop} {test : S → E → Bool} {s s' : S} {es : List E}
    (htest : ∀ s e, test s e = true → ok s e) (h : A.runIf test s es = some s') :
    A.Reaches ok s s' := by
  induction es generalizing s with
  | nil => cases h; exact .refl
  | cons e es ih =>
    rw [runIf] at h
    split_ifs at h with hok
    obtain ⟨t, hst, ht⟩ := Option.bind_eq_some_iff.1 h
    exact .head (htest s e hok) hst (ih ht)

theorem run_of_runIf {test : S → E → Bool} {s s' : S} {es : List E}
    (h : A.runIf test s es = some s') : A.run s es = some s' := by
  induction es generalizing s with
  | nil => exact h
  | cons e es ih =>
    rw [runIf] at h
    split_ifs at h with hok
    obtain ⟨t, hst, ht⟩ := Option.bind_eq_some_iff.1 h
    exact run_cons_eq_some.2 ⟨t, hst, ih ht⟩

/-- What is reached by steps meeting `ok` is the last state of a run. -/
theorem Reaches.exists_run {ok : S → E → Prop} {s s' : S} (h : A.Reaches ok s s') :
    ∃ es, A.run s es = some s' := by
  induction h with
  | refl => exact ⟨[], rfl⟩
  | @tail t s'' e _ _ hst ih =>
    obtain ⟨es, hes⟩ := ih
    refine ⟨es ++ [e], ?_⟩
    rw [run_append hes, run_cons_eq_some]
    exact ⟨s'', hst, rfl⟩

/-- **Invariants.**  What holds at the start and is kept by every step that meets `ok` holds in
every state reached by such steps. -/
theorem Reaches.invariant {ok : S → E → Prop} {I : S → Prop} {s₀ s : S} (h : A.Reaches ok s₀ s)
    (h₀ : I s₀) (hstep : ∀ s e s', I s → ok s e → A.step s e = some s' → I s') : I s := by
  induction h with
  | refl => exact h₀
  | tail _ hok hst ih => exact hstep _ _ _ ih hok hst

/-! ### Paths -/

/-- A step that has been made. -/
structure Step (S E : Type*) where
  before : S
  event : E
  after : S

variable (A) in
/-- `s` is reached from `s₀` by the steps `l`, in this order, all of which meet `ok`. -/
inductive Path (ok : S → E → Prop) (s₀ : S) : List (Step S E) → S → Prop
  | nil : Path ok s₀ [] s₀
  | snoc {l : List (Step S E)} {s s' : S} {e : E} : Path ok s₀ l s → ok s e →
      A.step s e = some s' → Path ok s₀ (l ++ [⟨s, e, s'⟩]) s'

namespace Path

variable {ok : S → E → Prop} {s₀ s : S} {l : List (Step S E)}

theorem reaches (h : A.Path ok s₀ l s) : A.Reaches ok s₀ s := by
  induction h with
  | nil => exact .refl
  | snoc _ hok hst ih => exact .tail ih hok hst

theorem mono {ok' : S → E → Prop} (hok : ∀ s e, ok s e → ok' s e) (h : A.Path ok s₀ l s) :
    A.Path ok' s₀ l s := by
  induction h with
  | nil => exact .nil
  | snoc _ h hst ih => exact .snoc ih (hok _ _ h) hst

/-- What comes before a step of a path is a path to the state in which the step is made. -/
theorem split {st : Step S E} {l₁ l₂ : List (Step S E)} (h : A.Path ok s₀ (l₁ ++ st :: l₂) s) :
    A.Path ok s₀ l₁ st.before ∧ ok st.before st.event ∧
      A.step st.before st.event = some st.after := by
  generalize hl : l₁ ++ st :: l₂ = l at h
  induction h generalizing l₂ with
  | nil => simp at hl
  | @snoc l s s' e hp hok hst ih =>
    rcases List.eq_nil_or_concat l₂ with rfl | ⟨l₂', st', rfl⟩
    · obtain ⟨rfl, hlast⟩ := List.append_inj' hl rfl
      cases List.singleton_inj.1 hlast
      exact ⟨hp, hok, hst⟩
    · have hl' : (l₁ ++ st :: l₂') ++ [st'] = l ++ [⟨s, e, s'⟩] := by simpa using hl
      exact ih (List.append_inj' hl' rfl).1

/-- A path ends after its last step. -/
theorem eq_after {st : Step S E} (h : A.Path ok s₀ (l ++ [st]) s) : s = st.after := by
  generalize hl : l ++ [st] = l' at h
  cases h with
  | nil => simp at hl
  | snoc _ _ _ => cases List.singleton_inj.1 (List.append_inj' hl rfl).2; rfl

theorem of_mem (h : A.Path ok s₀ l s) {st : Step S E} (hst : st ∈ l) :
    A.Reaches ok s₀ st.before ∧ ok st.before st.event ∧
      A.step st.before st.event = some st.after := by
  obtain ⟨l₁, l₂, rfl⟩ := List.append_of_mem hst
  obtain ⟨hp, hok, hstep⟩ := h.split
  exact ⟨hp.reaches, hok, hstep⟩

theorem cons (st : Step S E) (h : A.Path ok st.after l s) (hok : ok st.before st.event)
    (hst : A.step st.before st.event = some st.after) :
    A.Path ok st.before (st :: l) s := by
  induction h with
  | nil => exact Path.snoc Path.nil hok hst
  | snoc _ hok' hst' ih => exact Path.snoc ih hok' hst'

/-- **Paths are finite** where every step lowers a measure. -/
theorem length_add_le {I : S → Prop} {μ : S → ℕ}
    (hstep : ∀ s e s', I s → ok s e → A.step s e = some s' → I s' ∧ μ s' < μ s)
    (h₀ : I s₀) (h : A.Path ok s₀ l s) : I s ∧ l.length + μ s ≤ μ s₀ := by
  induction h with
  | nil => exact ⟨h₀, by simp⟩
  | snoc _ hok hst ih =>
    obtain ⟨hI, hlt⟩ := hstep _ _ _ ih.1 hok hst
    refine ⟨hI, ?_⟩
    simp only [List.length_append, List.length_cons, List.length_nil]
    omega

/-- Where no path is longer than `n`, every path goes on to a state without steps. -/
theorem exists_stuck {n : ℕ} (hbound : ∀ l s, A.Path ok s₀ l s → l.length ≤ n)
    (h : A.Path ok s₀ l s) :
    ∃ l' s', A.Path ok s₀ (l ++ l') s' ∧ ∀ e s'', ok s' e → A.step s' e ≠ some s'' := by
  -- by induction on the number of steps that can still be made
  induction hk : n - l.length generalizing l s with
  | zero =>
    refine ⟨[], s, by simpa using h, fun e s'' hok hst => ?_⟩
    have hlen := hbound _ _ (h.snoc hok hst)
    simp only [List.length_append, List.length_cons, List.length_nil] at hlen
    omega
  | succ k ih =>
    by_cases hmove : ∃ e s'', ok s e ∧ A.step s e = some s''
    · obtain ⟨e, s'', hok, hst⟩ := hmove
      have hlen : (l ++ [(⟨s, e, s''⟩ : Step S E)]).length = l.length + 1 := by simp
      obtain ⟨l', s', hpath, hstuck⟩ := ih (h.snoc hok hst) (by omega)
      exact ⟨⟨s, e, s''⟩ :: l', s', by simpa using hpath, hstuck⟩
    · refine ⟨[], s, by simpa using h, fun e s'' hok hst => ?_⟩
      exact hmove ⟨e, s'', hok, hst⟩

end Path

/-- A run whose events pass a test for `ok` is a path. -/
theorem exists_path_of_runIf {ok : S → E → Prop} {test : S → E → Bool} {s s' : S} {es : List E}
    (htest : ∀ s e, test s e = true → ok s e) (h : A.runIf test s es = some s') :
    ∃ l, A.Path ok s l s' ∧ l.map Step.event = es := by
  induction es generalizing s with
  | nil => cases h; exact ⟨[], .nil, rfl⟩
  | cons e es ih =>
    rw [runIf] at h
    split_ifs at h with hok
    obtain ⟨t, hst, ht⟩ := Option.bind_eq_some_iff.1 h
    obtain ⟨l, hl, hes⟩ := ih ht
    have hpath : A.Path ok s (⟨s, e, t⟩ :: l) s' := hl.cons ⟨s, e, t⟩ (htest s e hok) hst
    exact ⟨_, hpath, by simp [hes]⟩

/-! ### Families -/

section

variable {ι : Type*} [DecidableEq ι]

/-- Systems side by side: an event is an event of one of them. -/
def family (A : ι → System S E) : System (ι → S) (ι × E) where
  step s e := ((A e.1).step (s e.1) e.2).map (Function.update s e.1)

variable {A : ι → System S E} {s₀ s s' : ι → S} {i : ι} {e : E}

theorem family_step_eq_some : (family A).step s (i, e) = some s' ↔
    ∃ t, (A i).step (s i) e = some t ∧ Function.update s i t = s' :=
  Option.map_eq_some_iff

/-- **Invariants of the members**, where a step may depend on what holds of all of them. -/
theorem Reaches.family_invariant {ok : (ι → S) → ι × E → Prop} {I : ι → S → Prop}
    (h : (family A).Reaches ok s₀ s) (h₀ : ∀ i, I i (s₀ i))
    (hstep : ∀ s i e t, (∀ j, I j (s j)) → ok s (i, e) → (A i).step (s i) e = some t → I i t) :
    ∀ i, I i (s i) := by
  refine h.invariant (I := fun s => ∀ i, I i (s i)) h₀ fun s ⟨i, e⟩ s' hI hok hst j => ?_
  obtain ⟨t, ht, rfl⟩ := family_step_eq_some.1 hst
  by_cases hj : j = i
  · subst hj
    rw [Function.update_self]
    exact hstep s j e t hI hok ht
  · rw [Function.update_of_ne hj]
    exact hI j

end

end System

end Linker
