import Mathlib.Algebra.BigOperators.Group.List.Basic
import Mathlib.Algebra.Order.Monoid.Defs
import Mathlib.Order.Lattice
import ShadeTree.Lib.Run

/-!
# Counting along a run

The potential method: where every step of a relation pays for what it costs from a potential of the state, a whole run
costs no more than the potential it uses up.  Next to it the running maximum of a list of readings, of which a
potential is often a part.
-/

namespace ShadeTree.Lib

variable {σ ε G : Type*}

section Potential

variable [AddCommMonoid G] [PartialOrder G] [IsOrderedAddMonoid G] {step : σ → ε → σ → Prop} {s t : σ} {tr : List ε}

/-- **The potential method.** -/
theorem Run.cost_le {Φ : σ → G} {cost : ε → G} (hs : ∀ s e u, step s e u → cost e + Φ u ≤ Φ s)
    (h : Run step s tr t) : (tr.map cost).sum + Φ t ≤ Φ s := by
  induction h with
  | nil => simp
  | @snoc tr t u e _ hst ih =>
    rw [List.map_append, List.sum_append, List.map_singleton, List.sum_singleton]
    calc (tr.map cost).sum + cost e + Φ u = (tr.map cost).sum + (cost e + Φ u) := add_assoc ..
      _ ≤ (tr.map cost).sum + Φ t := add_le_add_right (hs _ _ _ hst) _
      _ ≤ Φ s := ih

end Potential

section RunningMax

variable [LinearOrder G] {a : G} {l l' : List G}

/-- The greatest of the readings so far. -/
def runningMax (a : G) (l : List G) : G := l.foldl max a

@[simp] lemma runningMax_nil : runningMax a [] = a := rfl

@[simp] lemma runningMax_append : runningMax a (l ++ l') = runningMax (runningMax a l) l' := List.foldl_append

@[simp] lemma runningMax_singleton {b : G} : runningMax a [b] = max a b := rfl

lemma le_runningMax : a ≤ runningMax a l := by
  induction l generalizing a with
  | nil => exact le_rfl
  | cons b l ih => exact (le_max_left a b).trans ih

end RunningMax

end ShadeTree.Lib
