import Mathlib.Data.List.Chain
import Mathlib.Data.List.Nodup

/-!
# Routes made of next hops

Every node decides by itself where to move next.  When each decision leads to a node of lower rank,
the route that the decisions make together ends after as many moves as the rank says, and no node is
on it twice.

* `follow`, `trail` : where a number of moves leads, and the nodes on the way.
* `Descends` : every move lowers the rank by one.
* `Descends.follow_rank`, `Descends.nodup_trail`, `Descends.chain_trail` : the route as a whole.
-/

namespace Linker.Routing

variable {V : Type*}

/-- The node after so many moves, `none` where the moves end before. -/
def follow (next : V → Option V) : ℕ → V → Option V
  | 0, v => some v
  | n + 1, v => (next v).bind (follow next n)

/-- The nodes on the way of so many moves. -/
def trail (next : V → Option V) : ℕ → V → List V
  | 0, v => [v]
  | n + 1, v => v :: ((next v).map (trail next n)).getD []

/-- From the nodes in `I`, as long as their rank is not zero, there is a move to a node in `I` whose
rank is lower by one, and the move is of the kind `link`. -/
structure Descends (I : V → Prop) (rank : V → ℕ) (link : V → V → Prop) (next : V → Option V) :
    Prop where
  move : ∀ v, I v → rank v ≠ 0 →
    ∃ u, next v = some u ∧ I u ∧ rank u + 1 = rank v ∧ link v u

variable {I : V → Prop} {rank : V → ℕ} {link : V → V → Prop} {next : V → Option V}

theorem follow_succ {n : ℕ} {v u : V} (h : next v = some u) :
    follow next (n + 1) v = follow next n u := by
  rw [follow, h, Option.bind_some]

theorem trail_succ {n : ℕ} {v u : V} (h : next v = some u) :
    trail next (n + 1) v = v :: trail next n u := by
  rw [trail, h, Option.map_some, Option.getD_some]

theorem head?_trail (n : ℕ) (v : V) : (trail next n v).head? = some v := by
  cases n <;> rfl

namespace Descends

variable (h : Descends I rank link next)

include h

/-- The route ends where the rank is zero. -/
theorem follow_rank {v : V} (hv : I v) :
    ∃ u, follow next (rank v) v = some u ∧ I u ∧ rank u = 0 := by
  generalize hn : rank v = n
  induction n generalizing v with
  | zero => exact ⟨v, rfl, hv, hn⟩
  | succ n ih =>
    obtain ⟨u, hnext, hu, hrank, -⟩ := h.move v hv (by omega)
    rw [follow_succ hnext]
    exact ih hu (by omega)

/-- The ranks on the route, counted down. -/
theorem rank_trail {v : V} (hv : I v) {n : ℕ} (hn : n ≤ rank v) :
    (trail next n v).map rank = (List.range' (rank v - n) (n + 1)).reverse := by
  induction n generalizing v with
  | zero => simp [trail]
  | succ n ih =>
    obtain ⟨u, hnext, hu, hrank, -⟩ := h.move v hv (by omega)
    rw [trail_succ hnext, List.map_cons, ih hu (by omega)]
    have hstart : rank u - n = rank v - (n + 1) := by omega
    have hlast : rank v - (n + 1) + (n + 1) = rank v := by omega
    have hconcat : List.range' (rank v - (n + 1)) (n + 1 + 1) =
        List.range' (rank v - (n + 1)) (n + 1) ++ [rank v] := by
      rw [List.range'_concat, Nat.one_mul, hlast]
    rw [hstart, hconcat, List.reverse_append]
    rfl

theorem nodup_trail {v : V} (hv : I v) {n : ℕ} (hn : n ≤ rank v) : (trail next n v).Nodup := by
  refine .of_map rank ?_
  rw [h.rank_trail hv hn, List.nodup_reverse]
  exact List.nodup_range'

theorem chain_trail {v : V} (hv : I v) {n : ℕ} (hn : n ≤ rank v) :
    (trail next n v).IsChain link := by
  induction n generalizing v with
  | zero => exact .singleton v
  | succ n ih =>
    obtain ⟨u, hnext, hu, hrank, hlink⟩ := h.move v hv (by omega)
    rw [trail_succ hnext, List.isChain_cons]
    refine ⟨fun w hw => ?_, ih hu (by omega)⟩
    rw [head?_trail, Option.mem_some_iff] at hw
    exact hw ▸ hlink

end Descends

end Linker.Routing
