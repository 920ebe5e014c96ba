import Linker.Exec.Basic

/-!
# Contracts of computations that may throw

`Keeps I x Q` says nothing about what `x` throws.  A `Contract I x Q T` adds that: whatever `x` throws
satisfies `T`.  An exception that a later part has to rule out then stays visible through sequences,
loops and handlers.

* `Exec.Contract` and its rules, one for each way of building a computation.
-/

namespace Linker.Exec

variable {σ ε α β : Type}

/-- Started where `I` holds, `x` ends where `I` holds; a value it returns satisfies `Q`, and what it
throws satisfies `T`. -/
structure Contract (I : σ → Prop) (x : Exec σ ε α) (Q : α → Prop) (T : ε → Prop) : Prop where
  keeps : Keeps I x Q
  throws : ∀ s, I s → ∀ e, (x.run s).1 = .error e → T e

namespace Contract

variable {I : σ → Prop} {Q : α → Prop} {R : β → Prop} {T : ε → Prop}

theorem pure {a : α} (h : Q a) : Contract I (pure a : Exec σ ε α) Q T where
  keeps := .pure h
  throws _ _ _ he := by cases he

theorem fail {e : ε} (h : T e) : Contract I (fail e : Exec σ ε α) Q T where
  keeps := .fail
  throws _ _ _ he := by cases he; exact h

theorem read {f : σ → α} (h : ∀ s, I s → Q (f s)) : Contract I (read f : Exec σ ε α) Q T where
  keeps := .read h
  throws _ _ _ he := by cases he

theorem modify {f : σ → σ} {Q : Unit → Prop} (h : ∀ s, I s → I (f s)) (hq : Q ()) :
    Contract I (modify f : Exec σ ε Unit) Q T where
  keeps := .modify h hq
  throws _ _ _ he := by cases he

theorem bind {x : Exec σ ε α} {f : α → Exec σ ε β} (hx : Contract I x Q T)
    (hf : ∀ a, Q a → Contract I (f a) R T) : Contract I (x >>= f) R T where
  keeps := hx.keeps.bind fun a ha => (hf a ha).keeps
  throws s hs e he := by
    obtain ⟨hkept, hvalue⟩ := hx.keeps s hs
    have hthrown := hx.throws s hs
    rw [run_bind] at he
    rcases hrun : x.run s with ⟨e' | a, s'⟩
    · rw [hrun] at he hthrown
      cases he
      exact hthrown e rfl
    · rw [hrun] at he hkept hvalue
      exact (hf a (hvalue a rfl)).throws s' hkept e he

theorem mono {x : Exec σ ε α} {Q' : α → Prop} (hx : Contract I x Q T) (h : ∀ a, Q a → Q' a) :
    Contract I x Q' T where
  keeps := hx.keeps.mono h
  throws := hx.throws

/-- A handler is only given what the contract lets through. -/
theorem recover {x : Exec σ ε α} {h : ε → Exec σ ε α} (hx : Contract I x Q T)
    (hh : ∀ e, T e → Contract I (h e) Q T) : Contract I (x.recover h) Q T := by
  have hcases : ∀ s, I s → I ((x.recover h).run s).2 ∧
      (∀ a, ((x.recover h).run s).1 = .ok a → Q a) ∧
      ∀ e, ((x.recover h).run s).1 = .error e → T e := by
    intro s hs
    obtain ⟨hkept, hvalue⟩ := hx.keeps s hs
    have hthrown := hx.throws s hs
    rw [run_recover]
    rcases hrun : x.run s with ⟨e | a, s'⟩
    · rw [hrun] at hkept hthrown
      have hhe := hh e (hthrown e rfl)
      exact ⟨(hhe.keeps s' hkept).1, (hhe.keeps s' hkept).2, hhe.throws s' hkept⟩
    · rw [hrun] at hkept hvalue
      exact ⟨hkept, hvalue, fun e he => by cases he⟩
  exact ⟨fun s hs => ⟨(hcases s hs).1, (hcases s hs).2.1⟩, fun s hs => (hcases s hs).2.2⟩

/-- What is not caught is thrown on. -/
theorem recoverIf {x : Exec σ ε α} {caught : ε → Bool} {h : ε → Exec σ ε α} (hx : Contract I x Q T)
    (hh : ∀ e, T e → Contract I (h e) Q T) : Contract I (x.recoverIf caught h) Q T := by
  refine hx.recover fun e he => ?_
  split
  · exact hh e he
  · exact fail he

/-- A handler that catches all that the contract lets through, and goes on with a value. -/
theorem run_recoverIf_pure {x : Exec σ ε α} {caught : ε → Bool} {a : α} {s : σ}
    (hx : Contract I x (fun b => b = a) T) (hcaught : ∀ e, T e → caught e = true) (hs : I s) :
    ((x.recoverIf caught fun _ => Pure.pure a).run s).1 = .ok a := by
  rcases hrun : x.run s with ⟨e | b, s'⟩
  · have he : caught e = true := hcaught e (hx.throws s hs e (by rw [hrun]))
    rw [run_recoverIf_error hrun he]
    rfl
  · rw [run_recoverIf_ok hrun, (hx.keeps s hs).2 b (by rw [hrun])]

theorem reraise {f : ε → ε} {x : Exec σ ε α} (hx : Contract I x Q T) (h : ∀ e, T e → T (f e)) :
    Contract I (x.reraise f) Q T :=
  hx.recover fun e he => fail (h e he)

theorem forEach {f : α → Exec σ ε Unit} {l : List α}
    (h : ∀ a ∈ l, Contract I (f a) (fun _ => True) T) :
    Contract I (forEach f l) (fun _ => True) T := by
  induction l with
  | nil => exact pure trivial
  | cons a l ih =>
    exact (h a List.mem_cons_self).bind fun _ _ => ih fun b hb => h b (List.mem_cons_of_mem a hb)

theorem ite {c : Prop} [Decidable c] {x y : Exec σ ε α} (hx : c → Contract I x Q T)
    (hy : ¬ c → Contract I y Q T) : Contract I (if c then x else y) Q T := by
  split
  · exact hx ‹_›
  · exact hy ‹_›

end Contract

end Linker.Exec
