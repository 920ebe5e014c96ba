import Linker.LTS.Basic
import Mathlib.Data.List.Chain

/-!
# A queue that a service takes its values from

A service takes values one after the other, in the order in which they have been put into a queue, and
settles what it has taken every now and then.  It may go back to the first value that is not settled;
other parts of the service may change its state in between.

## Main definitions

* `Queue.system` : what the queue and the service can do.
* `Queue.Orderly` : runs in which the service goes back only under a condition, and the others keep to a
  relation.

## Main results

* `Queue.isChain_taken` : no value is passed over, and the service goes on with the next one or goes back.
* `Queue.taken_eq_range'` : where it does not go back, it takes the values in their order, each once.
* `Queue.service_eq_foldl` : where the others do nothing, the service has worked off what it has taken.
* `Queue.journal` : what the service notes down comes in the order in which it has taken the values.
-/

namespace Linker

/-- A service and the values that are put before it. -/
structure Queue (σ V : Type*) where
  service : σ
  values : List V
  /-- How many values are settled. -/
  settled : ℕ
  /-- The place of the value that is taken next. -/
  next : ℕ
  /-- The places of the values that have been taken. -/
  taken : List ℕ

namespace Queue

variable {σ V : Type*}

/-- A queue whose first `n` values are settled. -/
def start (service : σ) (values : List V) (n : ℕ) : Queue σ V where
  service
  values
  settled := n
  next := n
  taken := []

inductive Event (σ V : Type*) where
  | put (value : V)
  /-- The service takes the next value. -/
  | take
  /-- What has been taken is settled. -/
  | settle
  /-- The service goes back to the first value that is not settled. -/
  | rewind
  /-- Others change the service. -/
  | elsewhere (service : σ)

/-- `f` is what the service does with a value. -/
def step (f : V → σ → σ) (q : Queue σ V) : Event σ V → Option (Queue σ V)
  | .put value => some { q with values := q.values ++ [value] }
  | .take => q.values[q.next]?.map fun value =>
    { q with service := f value q.service, next := q.next + 1, taken := q.taken ++ [q.next] }
  | .settle => some { q with settled := q.next }
  | .rewind => some { q with next := q.settled }
  | .elsewhere service => some { q with service }

def system (f : V → σ → σ) : System (Queue σ V) (Event σ V) where
  step := step f

/-- The service goes back only where `P` holds, and the others keep to `T`. -/
inductive Orderly (P : Prop) (T : σ → σ → Prop) (q : Queue σ V) : Event σ V → Prop
  | put {value : V} : Orderly P T q (.put value)
  | take : Orderly P T q .take
  | settle : Orderly P T q .settle
  | rewind : P → Orderly P T q .rewind
  | elsewhere {service : σ} : T q.service service → Orderly P T q (.elsewhere service)

theorem Orderly.mono {P P' : Prop} {T : σ → σ → Prop} {q : Queue σ V} {e : Event σ V}
    (h : Orderly P T q e) (hP : P → P') : Orderly P' T q e := by
  cases h with
  | put => exact .put
  | take => exact .take
  | settle => exact .settle
  | rewind h => exact .rewind (hP h)
  | elsewhere h => exact .elsewhere h

variable {f : V → σ → σ} {q q' : Queue σ V} {P : Prop} {T : σ → σ → Prop} {service : σ}
  {values : List V} {n : ℕ}

theorem step_take {value : V} (h : q.values[q.next]? = some value) :
    (system f).step q .take = some
      { q with service := f value q.service, next := q.next + 1, taken := q.taken ++ [q.next] } := by
  simp only [system, step, h, Option.map_some]

/-- Where the service is in its queue. -/
structure Placed (q : Queue σ V) : Prop where
  settled_le : q.settled ≤ q.next
  next_le : q.next ≤ q.values.length
  taken_lt : ∀ i ∈ q.taken, i < q.values.length
  /-- What comes next is not further than one place on from what was last. -/
  next_of_getLast : ∀ i ∈ q.taken.getLast?, q.next ≤ i + 1
  chain : q.taken.IsChain fun i j => j ≤ i + 1

theorem placed_start (h : n ≤ values.length) : Placed (start service values n) where
  settled_le := Nat.le_refl _
  next_le := h
  taken_lt i hi := by cases hi
  next_of_getLast i hi := by cases hi
  chain := .nil

theorem Placed.step {e : Event σ V} (h : Placed q) (hst : (system f).step q e = some q') :
    Placed q' := by
  cases e with
  | put value =>
    cases hst
    have hlength : q.values.length ≤ (q.values ++ [value]).length := by simp
    exact ⟨h.settled_le, Nat.le_trans h.next_le hlength,
      fun i hi => Nat.lt_of_lt_of_le (h.taken_lt i hi) hlength, h.next_of_getLast, h.chain⟩
  | take =>
    obtain ⟨value, hvalue, rfl⟩ := Option.map_eq_some_iff.1 hst
    have hlt : q.next < q.values.length := (List.getElem?_eq_some_iff.1 hvalue).1
    refine ⟨Nat.le_succ_of_le h.settled_le, hlt, fun i hi => ?_, fun i hi => ?_, ?_⟩
    · rcases List.mem_append.1 hi with hi | hi
      · exact h.taken_lt i hi
      · exact List.mem_singleton.1 hi ▸ hlt
    · rw [List.getLast?_append, List.getLast?_singleton, Option.some_or, Option.mem_some] at hi
      rw [hi]
    · refine h.chain.append (.singleton _) fun i hi j hj => ?_
      rw [List.head?_cons, Option.mem_some] at hj
      exact hj ▸ h.next_of_getLast i hi
  | settle =>
    cases hst
    exact ⟨Nat.le_refl _, h.next_le, h.taken_lt, h.next_of_getLast, h.chain⟩
  | rewind =>
    cases hst
    exact ⟨Nat.le_refl _, Nat.le_trans h.settled_le h.next_le, h.taken_lt,
      fun i hi => Nat.le_trans h.settled_le (h.next_of_getLast i hi), h.chain⟩
  | elsewhere service =>
    cases hst
    exact ⟨h.settled_le, h.next_le, h.taken_lt, h.next_of_getLast, h.chain⟩

theorem placed {ok : Queue σ V → Event σ V → Prop} (h₀ : n ≤ values.length)
    (h : (system f).Reaches ok (start service values n) q) : Placed q :=
  h.invariant (placed_start h₀) fun _ _ _ hI _ hst => hI.step hst

/-- **Order.**  After a value the service takes the next one, or goes back. -/
theorem isChain_taken {ok : Queue σ V → Event σ V → Prop} (h₀ : n ≤ values.length)
    (h : (system f).Reaches ok (start service values n) q) :
    q.taken.IsChain fun i j => j ≤ i + 1 :=
  (placed h₀ h).chain

/-- Where the service does not go back, it takes each value once. -/
theorem taken_eq_range' (h : (system f).Reaches (Orderly False T) (start service values n) q) :
    n ≤ q.next ∧ q.taken = List.range' n (q.next - n) := by
  refine h.invariant (I := fun q => n ≤ q.next ∧ q.taken = List.range' n (q.next - n))
    ⟨Nat.le_refl _, by rw [start, Nat.sub_self]; rfl⟩ fun q e q' ⟨hle, htaken⟩ hok hst => ?_
  cases hok with
  | put => cases hst; exact ⟨hle, htaken⟩
  | take =>
    obtain ⟨value, -, rfl⟩ := Option.map_eq_some_iff.1 hst
    refine ⟨Nat.le_succ_of_le hle, ?_⟩
    simp only [htaken, Nat.succ_sub hle, List.range'_1_concat, Nat.add_sub_cancel' hle]
  | settle => cases hst; exact ⟨hle, htaken⟩
  | rewind h => exact h.elim
  | elsewhere => cases hst; exact ⟨hle, htaken⟩

/-- **Working off.**  Where nobody else changes the service, it has worked off the values it has taken,
one after the other. -/
theorem service_eq_foldl (h₀ : n ≤ values.length)
    (h : (system f).Reaches (Orderly P fun _ _ => False) (start service values n) q) :
    q.service = (q.taken.filterMap (q.values[·]?)).foldl (fun s value => f value s) service := by
  induction h with
  | refl => rfl
  | @tail q q' e hreach hok hst ih =>
    cases hok with
    | @put value =>
      cases hst
      have hsame : q.taken.filterMap ((q.values ++ [value])[·]?) =
          q.taken.filterMap (q.values[·]?) :=
        List.filterMap_congr fun i hi => List.getElem?_append_left ((placed h₀ hreach).taken_lt i hi)
      rw [hsame]
      exact ih
    | take =>
      obtain ⟨value, hvalue, rfl⟩ := Option.map_eq_some_iff.1 hst
      have hmore : (q.taken ++ [q.next]).filterMap (q.values[·]?) =
          q.taken.filterMap (q.values[·]?) ++ [value] := by simp [hvalue]
      rw [hmore, List.foldl_append, ← ih]
      rfl
    | settle => cases hst; exact ih
    | rewind h => cases hst; exact ih
    | elsewhere h => exact h.elim

/-- **Notes** that the service appends when it is handed a value, and that the others leave alone, come
in the order in which it takes the values. -/
theorem journal {O : Type*} {J : σ → List O} {B : V → O → Prop}
    (hf : ∀ v s, ∃ l, J (f v s) = J s ++ l ∧ ∀ o ∈ l, B v o) (hT : ∀ s s', T s s' → J s' = J s)
    (h : (system f).Reaches (Orderly P T) (start service values n) q) :
    ∃ notes : List (ℕ × List O), J q.service = J service ++ (notes.map Prod.snd).flatten ∧
      notes.map Prod.fst = q.taken ∧
      ∀ a ∈ notes, ∃ v, q.values[a.1]? = some v ∧ ∀ o ∈ a.2, B v o := by
  induction h with
  | refl => exact ⟨[], by simp [start], rfl, fun a ha => by cases ha⟩
  | @tail q q' e _ hok hst ih =>
    obtain ⟨notes, hJ, htaken, hnotes⟩ := ih
    cases hok with
    | put =>
      cases hst
      refine ⟨notes, hJ, htaken, fun a ha => ?_⟩
      obtain ⟨v, hv, hB⟩ := hnotes a ha
      refine ⟨v, ?_, hB⟩
      rw [List.getElem?_append_left (List.getElem?_eq_some_iff.1 hv).1]
      exact hv
    | take =>
      obtain ⟨v, hv, rfl⟩ := Option.map_eq_some_iff.1 hst
      obtain ⟨l, hl, hB⟩ := hf v q.service
      refine ⟨notes ++ [(q.next, l)], by simp [hl, hJ], by simp [htaken], fun a ha => ?_⟩
      rcases List.mem_append.1 ha with ha | ha
      · exact hnotes a ha
      · cases List.mem_singleton.1 ha
        exact ⟨v, hv, hB⟩
    | settle => cases hst; exact ⟨notes, hJ, htaken, hnotes⟩
    | rewind => cases hst; exact ⟨notes, hJ, htaken, hnotes⟩
    | elsewhere hother => cases hst; exact ⟨notes, (hT _ _ hother).trans hJ, htaken, hnotes⟩

end Queue

end Linker
