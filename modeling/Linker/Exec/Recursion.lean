import Linker.Exec.Basic

/-!
# Recursion on a call stack

A procedure that calls itself is a functional `F`: given what the inner calls do, `F` says what a call
does.  On a stack that holds `n` calls the procedure is `F` iterated `n` times over a *bottom*, which
stands for the call that no longer fits.  Where the arguments of the inner calls decrease in rank, the
bottom does not matter from some height on: the procedure ends, whatever is there instead of it.

## Main definitions

* `Recursion.stack F bottom n` : the procedure on a stack that holds `n` calls.
* `Recursion.Calls F R` : a call with argument `a` makes calls with arguments `b` in `R a b` only.

## Main results

* `Recursion.Calls.stack_eq` : a stack higher than the rank of the argument does not reach its bottom.
* `Exec.bind_congr_keeps`, `Exec.forEach_congr` : computations that make the same inner calls agree.
-/

namespace Linker

namespace Recursion

variable {A X : Type}

/-- The procedure on a stack that holds so many calls. -/
def stack (F : (A → X) → A → X) (bottom : A → X) : ℕ → A → X
  | 0 => bottom
  | n + 1 => F (stack F bottom n)

/-- What `F` does with `a` depends on the inner calls with arguments in `R a` only. -/
def Calls (F : (A → X) → A → X) (R : A → A → Prop) : Prop :=
  ∀ p q a, (∀ b, R a b → p b = q b) → F p a = F q a

variable {F : (A → X) → A → X} {R : A → A → Prop} {rank : A → ℕ}

/-- **The bottom is not reached** by a call whose rank is less than the height of the stack. -/
theorem Calls.stack_eq (h : Calls F R) (hrank : ∀ a b, R a b → rank b < rank a) (p q : A → X) (a : A)
    {n n' : ℕ} (hn : rank a < n) (hn' : rank a < n') : stack F p n a = stack F q n' a := by
  induction hk : rank a using Nat.strongRecOn generalizing a n n' with
  | ind k ih =>
    obtain ⟨n, rfl⟩ := Nat.exists_eq_succ_of_ne_zero (Nat.ne_zero_of_lt hn)
    obtain ⟨n', rfl⟩ := Nat.exists_eq_succ_of_ne_zero (Nat.ne_zero_of_lt hn')
    refine h _ _ a fun b hb => ?_
    have hlt := hrank a b hb
    exact ih (rank b) (by omega) b (by omega) (by omega) rfl

end Recursion

namespace Exec

variable {σ ε α β : Type}

/-- What comes after `x` matters for the values that `x` returns only. -/
theorem bind_congr_keeps {x : Exec σ ε α} {f g : α → Exec σ ε β} {Q : α → Prop}
    (hx : Keeps (fun _ => True) x Q) (h : ∀ a, Q a → f a = g a) : x >>= f = x >>= g := by
  refine congrArg Exec.mk (funext fun s => ?_)
  have hs := (hx s trivial).2
  rcases hrun : x.run s with ⟨e | a, s'⟩
  · rfl
  · rw [hrun] at hs
    show (f a).run s' = (g a).run s'
    rw [h a (hs a rfl)]

theorem forEach_congr {f g : α → Exec σ ε Unit} {l : List α} (h : ∀ a ∈ l, f a = g a) :
    forEach f l = forEach g l := by
  induction l with
  | nil => rfl
  | cons a l ih =>
    rw [forEach, forEach, h a List.mem_cons_self, ih fun b hb => h b (List.mem_cons_of_mem a hb)]

end Exec

end Linker
