import Mathlib.Data.List.Basic
import Mathlib.Order.Defs.Unbundled

/-!
# Stateful computations that may throw

The services of the system run handlers that read and write shared stores and may throw.  `Exec σ ε α`
is such a computation over states `σ`: it returns a value of type `α` or throws an `ε`, and what it
has written before a throw stays written.

## Main definitions

* `Exec` with its monad structure, `Exec.fail`, `Exec.read`, `Exec.modify`, `Exec.recover`,
  `Exec.recoverIf`, `Exec.reraise`, and the loop `Exec.forEach` with the entries it comes to, `Exec.visits`.
* `Exec.Returns x s` : started in `s`, `x` does not throw.
* `Exec.Triple I x Q R` : a Hoare triple.  Started where `I` holds, `x` returns where `Q` holds of the
  value and the state, or throws where `R` holds.
* `Exec.Keeps I x Q` : the invariant rule.  Started where `I` holds, `x` ends where `I` holds, whether
  it returns or throws, and a value it returns satisfies `Q`.
* `Exec.Moves R x` : the frame rule.  However `x` ends, the state has changed as the preorder `R`
  allows.

The `run_*` lemmas evaluate a computation step by step; the `Triple.*`, `Keeps.*` and `Moves.*` lemmas
are the proof rules, one for each way of building a computation.
-/

namespace Linker

/-- A computation over states `σ` that returns an `α` or throws an `ε`. -/
structure Exec (σ ε α : Type) where
  /-- The outcome of the computation from a state, and the state it leaves. -/
  run : σ → Except ε α × σ

namespace Exec

variable {σ ε α β : Type}

instance : Monad (Exec σ ε) where
  pure a := ⟨fun s => (.ok a, s)⟩
  bind x f := ⟨fun s => match x.run s with
    | (.ok a, s') => (f a).run s'
    | (.error e, s') => (.error e, s')⟩

/-- Throw `e`. -/
def fail (e : ε) : Exec σ ε α := ⟨fun s => (.error e, s)⟩

/-- Read a part of the state. -/
def read (f : σ → α) : Exec σ ε α := ⟨fun s => (.ok (f s), s)⟩

/-- Change the state. -/
def modify (f : σ → σ) : Exec σ ε Unit := ⟨fun s => (.ok (), f s)⟩

/-- Run `x`; where it throws `e`, go on with `h e`. -/
def recover (x : Exec σ ε α) (h : ε → Exec σ ε α) : Exec σ ε α :=
  ⟨fun s => match x.run s with
    | (.ok a, s') => (.ok a, s')
    | (.error e, s') => (h e).run s'⟩

/-- Run `x`; where it throws an `e` that is caught, go on with `h e`. -/
def recoverIf (x : Exec σ ε α) (caught : ε → Bool) (h : ε → Exec σ ε α) : Exec σ ε α :=
  x.recover fun e => if caught e then h e else fail e

/-- Run `x`; where it throws `e`, throw `f e` instead. -/
def reraise (f : ε → ε) (x : Exec σ ε α) : Exec σ ε α := x.recover fun e => fail (f e)

/-- Run `f` on the entries of a list in order; the first throw ends the loop. -/
def forEach (f : α → Exec σ ε Unit) : List α → Exec σ ε Unit
  | [] => pure ()
  | a :: l => do f a; forEach f l

/-! ### Evaluation -/

@[simp] theorem run_pure (a : α) (s : σ) : (pure a : Exec σ ε α).run s = (.ok a, s) := rfl

theorem run_bind (x : Exec σ ε α) (f : α → Exec σ ε β) (s : σ) :
    (x >>= f).run s = match x.run s with
      | (.ok a, s') => (f a).run s'
      | (.error e, s') => (.error e, s') := rfl

theorem run_bind_ok {x : Exec σ ε α} {f : α → Exec σ ε β} {s s' : σ} {a : α}
    (h : x.run s = (.ok a, s')) : (x >>= f).run s = (f a).run s' := by
  rw [run_bind, h]

theorem run_bind_error {x : Exec σ ε α} {f : α → Exec σ ε β} {s s' : σ} {e : ε}
    (h : x.run s = (.error e, s')) : (x >>= f).run s = (.error e, s') := by
  rw [run_bind, h]

@[simp] theorem run_pure_bind (a : α) (f : α → Exec σ ε β) (s : σ) :
    ((pure a : Exec σ ε α) >>= f).run s = (f a).run s := rfl

@[simp] theorem run_fail (e : ε) (s : σ) : (fail e : Exec σ ε α).run s = (.error e, s) := rfl

@[simp] theorem run_fail_bind (e : ε) (f : α → Exec σ ε β) (s : σ) :
    ((fail e : Exec σ ε α) >>= f).run s = (.error e, s) := rfl

@[simp] theorem run_read (f : σ → α) (s : σ) : (read f : Exec σ ε α).run s = (.ok (f s), s) := rfl

@[simp] theorem run_read_bind (f : σ → α) (g : α → Exec σ ε β) (s : σ) :
    ((read f : Exec σ ε α) >>= g).run s = (g (f s)).run s := rfl

@[simp] theorem run_modify (f : σ → σ) (s : σ) :
    (modify f : Exec σ ε Unit).run s = (.ok (), f s) := rfl

@[simp] theorem run_modify_bind (f : σ → σ) (g : Unit → Exec σ ε β) (s : σ) :
    ((modify f : Exec σ ε Unit) >>= g).run s = (g ()).run (f s) := rfl

theorem run_recover (x : Exec σ ε α) (h : ε → Exec σ ε α) (s : σ) :
    (x.recover h).run s = match x.run s with
      | (.ok a, s') => (.ok a, s')
      | (.error e, s') => (h e).run s' := rfl

theorem run_recoverIf_ok {x : Exec σ ε α} {s s' : σ} {a : α} (hx : x.run s = (.ok a, s'))
    (caught : ε → Bool) (h : ε → Exec σ ε α) : (x.recoverIf caught h).run s = (.ok a, s') := by
  rw [recoverIf, run_recover, hx]

theorem run_recoverIf_error {x : Exec σ ε α} {s s' : σ} {e : ε} (hx : x.run s = (.error e, s'))
    {caught : ε → Bool} (he : caught e = true) (h : ε → Exec σ ε α) :
    (x.recoverIf caught h).run s = (h e).run s' := by
  rw [recoverIf, run_recover, hx]
  simp only [he, if_true]

/-- What is not caught is thrown on. -/
theorem run_recoverIf_of_not {x : Exec σ ε α} {s s' : σ} {e : ε} (hx : x.run s = (.error e, s'))
    {caught : ε → Bool} (he : caught e = false) (h : ε → Exec σ ε α) :
    (x.recoverIf caught h).run s = (.error e, s') := by
  rw [recoverIf, run_recover, hx]
  simp [he]

/-- A handler that leaves the state alone leaves the state of the computation. -/
theorem snd_run_recover {x : Exec σ ε α} {h : ε → Exec σ ε α} (hh : ∀ e s, ((h e).run s).2 = s)
    (s : σ) : ((x.recover h).run s).2 = (x.run s).2 := by
  rw [run_recover]
  rcases x.run s with ⟨e | a, s'⟩
  · exact hh e s'
  · rfl

theorem run_reraise (f : ε → ε) (x : Exec σ ε α) (s : σ) :
    (x.reraise f).run s = ((x.run s).1.mapError f, (x.run s).2) := by
  rw [reraise, run_recover]
  rcases x.run s with ⟨_ | _, _⟩ <;> rfl

theorem run_reraise_ok {f : ε → ε} {x : Exec σ ε α} {s s' : σ} {a : α}
    (h : x.run s = (.ok a, s')) : (x.reraise f).run s = (.ok a, s') := by
  rw [run_reraise, h]; rfl

@[simp] theorem run_forEach_nil (f : α → Exec σ ε Unit) (s : σ) :
    (forEach f []).run s = (.ok (), s) := rfl

theorem run_forEach_cons (f : α → Exec σ ε Unit) (a : α) (l : List α) (s : σ) :
    (forEach f (a :: l)).run s = (f a >>= fun _ => forEach f l).run s := rfl

/-- A loop whose body never throws is a fold over the state. -/
theorem run_forEach_ok {f : α → Exec σ ε Unit} {g : α → σ → σ}
    (h : ∀ a s, (f a).run s = (.ok (), g a s)) (l : List α) (s : σ) :
    (forEach f l).run s = (.ok (), l.foldl (fun s a => g a s) s) := by
  induction l generalizing s with
  | nil => rfl
  | cons a l ih => rw [run_forEach_cons, run_bind_ok (h a s), ih]; rfl

theorem forEach_map {γ : Type} (f : α → Exec σ ε Unit) (g : γ → α) (l : List γ) :
    forEach f (l.map g) = forEach (fun c => f (g c)) l := by
  induction l with
  | nil => rfl
  | cons c l ih => rw [List.map_cons, forEach, forEach, ih]

theorem run_forEach_append {f : α → Exec σ ε Unit} {l : List α} {s s' : σ}
    (h : (forEach f l).run s = (.ok (), s')) (l' : List α) :
    (forEach f (l ++ l')).run s = (forEach f l').run s' := by
  induction l generalizing s with
  | nil => cases h; rfl
  | cons a l ih =>
    rw [run_forEach_cons, run_bind] at h
    rw [List.cons_append, run_forEach_cons, run_bind]
    rcases hrun : (f a).run s with ⟨e | _, s₁⟩
    · rw [hrun] at h
      cases h
    · rw [hrun] at h
      exact ih h

/-- What comes after a throw is not run. -/
theorem run_forEach_append_error {f : α → Exec σ ε Unit} {l : List α} {s s' : σ} {e : ε}
    (h : (forEach f l).run s = (.error e, s')) (l' : List α) :
    (forEach f (l ++ l')).run s = (.error e, s') := by
  induction l generalizing s with
  | nil => cases h
  | cons a l ih =>
    rw [run_forEach_cons, run_bind] at h
    rw [List.cons_append, run_forEach_cons, run_bind]
    rcases hrun : (f a).run s with ⟨e' | _, s₁⟩
    · rw [hrun] at h
      exact h
    · rw [hrun] at h
      exact ih h

/-! ### Computations that return -/

/-- Started in `s`, `x` does not throw. -/
def Returns (x : Exec σ ε α) (s : σ) : Prop := ∃ a s', x.run s = (.ok a, s')

theorem not_returns {x : Exec σ ε α} {s s' : σ} {e : ε} (h : x.run s = (.error e, s')) :
    ¬ Returns x s := by
  rintro ⟨a, s'', ha⟩
  rw [h] at ha
  cases ha

theorem returns_bind_iff {x : Exec σ ε α} {f : α → Exec σ ε β} {s : σ} :
    Returns (x >>= f) s ↔ ∃ a s', x.run s = (.ok a, s') ∧ Returns (f a) s' := by
  rcases hx : x.run s with ⟨e | a, s'⟩
  · refine iff_of_false (not_returns (run_bind_error hx)) ?_
    rintro ⟨a, s'', ha, -⟩
    cases ha
  · rw [Returns, run_bind_ok hx]
    refine ⟨fun h => ⟨a, s', rfl, h⟩, ?_⟩
    rintro ⟨a', s'', ha, h⟩
    cases ha
    exact h

theorem returns_reraise_iff {x : Exec σ ε α} {f : ε → ε} {s : σ} :
    Returns (x.reraise f) s ↔ Returns x s := by
  rw [Returns, Returns, reraise, run_recover]
  rcases x.run s with ⟨e | a, s'⟩
  · refine iff_of_false ?_ ?_
    · rintro ⟨a, s'', h⟩
      cases h
    · rintro ⟨a, s'', h⟩
      cases h
  · exact Iff.rfl

/-! ### The entries that a loop comes to -/

/-- The entries on which `forEach f` begins, the one that throws included. -/
def visits (f : α → Exec σ ε Unit) : List α → σ → List α
  | [], _ => []
  | a :: l, s => a :: match (f a).run s with
    | (.ok _, s') => visits f l s'
    | (.error _, _) => []

theorem visits_append {f : α → Exec σ ε Unit} {l : List α} {s s' : σ}
    (h : (forEach f l).run s = (.ok (), s')) (l' : List α) :
    visits f (l ++ l') s = l ++ visits f l' s' := by
  induction l generalizing s with
  | nil => cases h; rfl
  | cons a l ih =>
    rw [run_forEach_cons, run_bind] at h
    rw [List.cons_append, visits, List.cons_append]
    rcases hrun : (f a).run s with ⟨e | _, s₁⟩
    · rw [hrun] at h
      cases h
    · rw [hrun] at h
      exact congrArg (a :: ·) (ih h)

theorem visits_append_error {f : α → Exec σ ε Unit} {l : List α} {s s' : σ} {e : ε}
    (h : (forEach f l).run s = (.error e, s')) (l' : List α) :
    visits f (l ++ l') s = visits f l s := by
  induction l generalizing s with
  | nil => cases h
  | cons a l ih =>
    rw [run_forEach_cons, run_bind] at h
    rw [List.cons_append, visits, visits]
    rcases hrun : (f a).run s with ⟨e' | _, s₁⟩
    · rfl
    · rw [hrun] at h
      exact congrArg (a :: ·) (ih h)

theorem mem_of_mem_visits {f : α → Exec σ ε Unit} {l : List α} {s : σ} {a : α}
    (h : a ∈ visits f l s) : a ∈ l := by
  induction l generalizing s with
  | nil => cases h
  | cons b l ih =>
    rw [visits] at h
    rcases List.mem_cons.1 h with rfl | h
    · exact List.mem_cons_self
    · rcases hrun : (f b).run s with ⟨e | _, s₁⟩
      · rw [hrun] at h
        cases h
      · rw [hrun] at h
        exact List.mem_cons_of_mem b (ih h)

/-! ### The invariant rule -/

/-- Started where `I` holds, `x` ends where `I` holds, and a value it returns satisfies `Q`. -/
def Keeps (I : σ → Prop) (x : Exec σ ε α) (Q : α → Prop) : Prop :=
  ∀ s, I s → I (x.run s).2 ∧ ∀ a, (x.run s).1 = .ok a → Q a

variable {I : σ → Prop} {Q : α → Prop} {R : β → Prop}

namespace Keeps

theorem pure {a : α} (h : Q a) : Keeps I (pure a : Exec σ ε α) Q :=
  fun _ hs => ⟨hs, fun _ ha => by cases ha; exact h⟩

theorem fail {e : ε} : Keeps I (fail e : Exec σ ε α) Q :=
  fun _ hs => ⟨hs, fun _ ha => by cases ha⟩

theorem read {f : σ → α} (h : ∀ s, I s → Q (f s)) : Keeps I (read f : Exec σ ε α) Q :=
  fun s hs => ⟨hs, fun _ ha => by cases ha; exact h s hs⟩

theorem modify {f : σ → σ} {Q : Unit → Prop} (h : ∀ s, I s → I (f s)) (hq : Q ()) :
    Keeps I (modify f : Exec σ ε Unit) Q :=
  fun s hs => ⟨h s hs, fun _ _ => hq⟩

theorem bind {x : Exec σ ε α} {f : α → Exec σ ε β} (hx : Keeps I x Q)
    (hf : ∀ a, Q a → Keeps I (f a) R) : Keeps I (x >>= f) R := by
  intro s hs
  obtain ⟨h₁, h₂⟩ := hx s hs
  rw [run_bind]
  rcases hrun : x.run s with ⟨e | a, s'⟩
  · rw [hrun] at h₁
    exact ⟨h₁, fun _ ha => by cases ha⟩
  · rw [hrun] at h₁ h₂
    exact hf a (h₂ a rfl) s' h₁

theorem mono {x : Exec σ ε α} {Q' : α → Prop} (hx : Keeps I x Q) (h : ∀ a, Q a → Q' a) :
    Keeps I x Q' :=
  fun s hs => ⟨(hx s hs).1, fun a ha => h a ((hx s hs).2 a ha)⟩

theorem recover {x : Exec σ ε α} {h : ε → Exec σ ε α} (hx : Keeps I x Q)
    (hh : ∀ e, Keeps I (h e) Q) : Keeps I (x.recover h) Q := by
  intro s hs
  obtain ⟨h₁, h₂⟩ := hx s hs
  rw [run_recover]
  rcases hrun : x.run s with ⟨e | a, s'⟩
  · rw [hrun] at h₁
    exact hh e s' h₁
  · rw [hrun] at h₁ h₂
    exact ⟨h₁, fun _ ha => by cases ha; exact h₂ a rfl⟩

/-- The rule for one run of a handled computation, where the handler may know how it was reached. -/
theorem run_recover {x : Exec σ ε α} {h : ε → Exec σ ε α} {s : σ} (hx : I (x.run s).2)
    (hh : ∀ e s', x.run s = (.error e, s') → I s' → I ((h e).run s').2) :
    I ((x.recover h).run s).2 := by
  rw [Exec.run_recover]
  rcases hrun : x.run s with ⟨e | a, s'⟩
  · rw [hrun] at hx
    exact hh e s' hrun hx
  · rw [hrun] at hx
    exact hx

theorem recoverIf {x : Exec σ ε α} {caught : ε → Bool} {h : ε → Exec σ ε α} (hx : Keeps I x Q)
    (hh : ∀ e, Keeps I (h e) Q) : Keeps I (x.recoverIf caught h) Q := by
  refine hx.recover fun e => ?_
  split
  · exact hh e
  · exact fail

/-- The same for a handler of some exceptions. -/
theorem run_recoverIf {x : Exec σ ε α} {caught : ε → Bool} {h : ε → Exec σ ε α} {s : σ}
    (hx : I (x.run s).2) (hh : ∀ e s', x.run s = (.error e, s') → I s' → I ((h e).run s').2) :
    I ((x.recoverIf caught h).run s).2 := by
  refine run_recover hx fun e s' hrun hs' => ?_
  split
  · exact hh e s' hrun hs'
  · exact hs'

theorem reraise {f : ε → ε} {x : Exec σ ε α} (hx : Keeps I x Q) : Keeps I (x.reraise f) Q :=
  hx.recover fun _ => fail

theorem forEach {f : α → Exec σ ε Unit} {l : List α}
    (h : ∀ a ∈ l, Keeps I (f a) fun _ => True) : Keeps I (forEach f l) fun _ => True := by
  induction l with
  | nil => exact pure trivial
  | cons a l ih =>
    exact (h a List.mem_cons_self).bind fun _ _ => ih fun b hb => h b (List.mem_cons_of_mem a hb)

theorem ite {c : Prop} [Decidable c] {x y : Exec σ ε α} (hx : c → Keeps I x Q)
    (hy : ¬ c → Keeps I y Q) : Keeps I (if c then x else y) Q := by
  split
  · exact hx ‹_›
  · exact hy ‹_›

theorem run {x : Exec σ ε α} (hx : Keeps I x Q) {s : σ} (hs : I s) : I (x.run s).2 := (hx s hs).1

end Keeps

/-! ### Triples -/

/-- Started where `I` holds, `x` returns where `Q` holds or throws where `R` holds. -/
def Triple (I : σ → Prop) (x : Exec σ ε α) (Q : α → σ → Prop) (R : σ → Prop) : Prop :=
  ∀ s, I s → match x.run s with
    | (.ok a, s') => Q a s'
    | (.error _, s') => R s'

namespace Triple

variable {J : σ → Prop} {Q : α → σ → Prop} {S : β → σ → Prop} {R : σ → Prop}

theorem bind {x : Exec σ ε α} {f : α → Exec σ ε β} (hx : Triple I x Q R)
    (hf : ∀ a, Triple (Q a) (f a) S R) : Triple I (x >>= f) S R := by
  intro s hs
  have hx' := hx s hs
  rw [run_bind]
  rcases hrun : x.run s with ⟨e | a, s'⟩
  · rw [hrun] at hx'
    exact hx'
  · rw [hrun] at hx'
    exact hf a s' hx'

/-- A first part that keeps what it is started with. -/
theorem bind_keeps {x : Exec σ ε α} {f : α → Exec σ ε β} {Q : α → Prop} (hx : Keeps J x Q)
    (hf : ∀ a, Q a → Triple J (f a) S R) (hR : ∀ s, J s → R s) : Triple J (x >>= f) S R := by
  intro s hs
  obtain ⟨hkept, hvalue⟩ := hx s hs
  rw [run_bind]
  rcases hrun : x.run s with ⟨e | a, s'⟩
  · rw [hrun] at hkept
    exact hR s' hkept
  · rw [hrun] at hkept hvalue
    exact hf a (hvalue a rfl) s' hkept

theorem mono {x : Exec σ ε α} {Q' : α → σ → Prop} (hx : Triple I x Q R)
    (h : ∀ a s, Q a s → Q' a s) : Triple I x Q' R := by
  intro s hs
  have hx' := hx s hs
  rcases hrun : x.run s with ⟨e | a, s'⟩
  · rw [hrun] at hx'
    exact hx'
  · rw [hrun] at hx'
    exact h a s' hx'

theorem recover {x : Exec σ ε α} {h : ε → Exec σ ε α} {S : σ → Prop} (hx : Triple I x Q R)
    (hh : ∀ e, Triple R (h e) Q S) : Triple I (x.recover h) Q S := by
  intro s hs
  have hx' := hx s hs
  rw [run_recover]
  rcases hrun : x.run s with ⟨e | a, s'⟩
  · rw [hrun] at hx'
    exact hh e s' hx'
  · rw [hrun] at hx'
    exact hx'

/-- What is not caught is thrown on. -/
theorem recoverIf {x : Exec σ ε α} {caught : ε → Bool} {h : ε → Exec σ ε α} {S : σ → Prop}
    (hx : Triple I x Q R) (hh : ∀ e, Triple R (h e) Q S) (hR : ∀ s, R s → S s) :
    Triple I (x.recoverIf caught h) Q S := by
  refine hx.recover fun e => ?_
  split
  · exact hh e
  · exact hR

theorem read {f : σ → α} (h : ∀ s, I s → Q (f s) s) : Triple I (Exec.read f : Exec σ ε α) Q R := h

theorem modify {f : σ → σ} {Q : Unit → σ → Prop} (h : ∀ s, I s → Q () (f s)) :
    Triple I (Exec.modify f : Exec σ ε Unit) Q R := h

theorem of_run {x : Exec σ ε α} (h : ∀ s, I s → R (x.run s).2) : Triple I x (fun _ => R) R := by
  intro s hs
  have hx := h s hs
  rcases hrun : x.run s with ⟨e | a, s'⟩
  · rw [hrun] at hx
    exact hx
  · rw [hrun] at hx
    exact hx

/-- An invariant that holds where `x` starts holds where it ends. -/
theorem of_keeps {x : Exec σ ε α} {Q : α → Prop} (hx : Keeps J x Q) (h : ∀ s, I s → J s) :
    Triple I x (fun _ => J) J :=
  of_run fun s hs => hx.run (h s hs)

/-- Where it does not matter how `x` ends. -/
theorem run {x : Exec σ ε α} (hx : Triple I x (fun _ => R) R) {s : σ} (hs : I s) :
    R (x.run s).2 := by
  have hx' := hx s hs
  rcases hrun : x.run s with ⟨e | a, s'⟩
  · rw [hrun] at hx'
    exact hx'
  · rw [hrun] at hx'
    exact hx'

theorem keeps {x : Exec σ ε α} (hx : Triple I x (fun _ => I) I) : Keeps I x fun _ => True :=
  fun _ hs => ⟨hx.run hs, fun _ _ => trivial⟩

theorem ite {c : Prop} [Decidable c] {x y : Exec σ ε α} (hx : c → Triple I x Q R)
    (hy : ¬ c → Triple I y Q R) : Triple I (if c then x else y) Q R := by
  split
  · exact hx ‹_›
  · exact hy ‹_›

end Triple

/-! ### The frame rule -/

/-- However `x` ends, the state has changed as `R` allows. -/
def Moves (R : σ → σ → Prop) (x : Exec σ ε α) : Prop := ∀ s, R s (x.run s).2

namespace Moves

variable {R : σ → σ → Prop} [IsPreorder σ R]

theorem pure (a : α) : Moves R (pure a : Exec σ ε α) := fun s => refl_of R s

theorem fail (e : ε) : Moves R (fail e : Exec σ ε α) := fun s => refl_of R s

theorem read (f : σ → α) : Moves R (read f : Exec σ ε α) := fun s => refl_of R s

omit [IsPreorder σ R] in
theorem modify {f : σ → σ} (h : ∀ s, R s (f s)) : Moves R (modify f : Exec σ ε Unit) := h

theorem bind {x : Exec σ ε α} {f : α → Exec σ ε β} (hx : Moves R x) (hf : ∀ a, Moves R (f a)) :
    Moves R (x >>= f) := by
  intro s
  have hs := hx s
  rw [run_bind]
  rcases hrun : x.run s with ⟨e | a, s'⟩
  · rw [hrun] at hs
    exact hs
  · rw [hrun] at hs
    exact trans_of R hs (hf a s')

theorem recover {x : Exec σ ε α} {h : ε → Exec σ ε α} (hx : Moves R x) (hh : ∀ e, Moves R (h e)) :
    Moves R (x.recover h) := by
  intro s
  have hs := hx s
  rw [run_recover]
  rcases hrun : x.run s with ⟨e | a, s'⟩
  · rw [hrun] at hs
    exact trans_of R hs (hh e s')
  · rw [hrun] at hs
    exact hs

theorem recoverIf {x : Exec σ ε α} {caught : ε → Bool} {h : ε → Exec σ ε α} (hx : Moves R x)
    (hh : ∀ e, Moves R (h e)) : Moves R (x.recoverIf caught h) := by
  refine hx.recover fun e => ?_
  split
  · exact hh e
  · exact fail e

theorem reraise {f : ε → ε} {x : Exec σ ε α} (hx : Moves R x) : Moves R (x.reraise f) :=
  hx.recover fun _ => fail _

theorem forEach {f : α → Exec σ ε Unit} {l : List α} (h : ∀ a ∈ l, Moves R (f a)) :
    Moves R (forEach f l) := by
  induction l with
  | nil => exact pure ()
  | cons a l ih =>
    exact (h a List.mem_cons_self).bind fun _ => ih fun b hb => h b (List.mem_cons_of_mem a hb)

/-- A loop returns exactly if it does on each entry, where that does not depend on what the entries
change. -/
theorem returns_forEach_iff {f : α → Exec σ ε Unit} {l : List α} {P : α → Prop} {s : σ}
    (hmoves : ∀ a ∈ l, Moves R (f a)) (hf : ∀ a ∈ l, ∀ s', R s s' → (Returns (f a) s' ↔ P a)) :
    Returns (Exec.forEach f l) s ↔ ∀ a ∈ l, P a := by
  induction l generalizing s with
  | nil => exact iff_of_true ⟨(), s, rfl⟩ fun a ha => (List.not_mem_nil ha).elim
  | cons a l ih =>
    have hfirst := hf a List.mem_cons_self s (refl_of R s)
    have hmoved := hmoves a List.mem_cons_self s
    rw [List.forall_mem_cons, ← hfirst]
    refine returns_bind_iff.trans ⟨?_, ?_⟩
    · rintro ⟨_, s', hrun, hrest⟩
      rw [hrun] at hmoved
      refine ⟨⟨_, s', hrun⟩, (ih (fun b hb => hmoves b (List.mem_cons_of_mem a hb)) ?_).1 hrest⟩
      exact fun b hb s'' hs => hf b (List.mem_cons_of_mem a hb) s'' (trans_of R hmoved hs)
    · rintro ⟨⟨_, s', hrun⟩, hall⟩
      rw [hrun] at hmoved
      refine ⟨_, s', hrun, (ih (fun b hb => hmoves b (List.mem_cons_of_mem a hb)) ?_).2 hall⟩
      exact fun b hb s'' hs => hf b (List.mem_cons_of_mem a hb) s'' (trans_of R hmoved hs)

omit [IsPreorder σ R] in
theorem ite {c : Prop} [Decidable c] {x y : Exec σ ε α} (hx : Moves R x) (hy : Moves R y) :
    Moves R (if c then x else y) := by
  split
  · exact hx
  · exact hy

end Moves

end Exec

end Linker
