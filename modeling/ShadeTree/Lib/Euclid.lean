import Mathlib.Data.Int.ModEq
import Mathlib.Tactic.Ring

/-!
# The extended Euclidean loop

Two remainders, each with a coefficient that makes it out of one number up to a modulus, are divided until the
second remainder is 0.  The first is then the greatest common divisor of the two it began with; where that is 1,
its coefficient is the inverse of the number.  The division truncates, as it does on the integers of many languages.
-/

namespace ShadeTree.Lib

/-- The remainder that truncates, brought to the range of a positive modulus by one more remainder. -/
lemma tmod_add_tmod {m : ℤ} (hm : 0 < m) (n : ℤ) : (n.tmod m + m).tmod m = n % m := by
  have hlow : -m < n.tmod m := by
    have := Int.lt_tmod_of_pos n hm
    omega
  have hnonneg : 0 ≤ n.tmod m + m := by omega
  calc (n.tmod m + m).tmod m = (n.tmod m + m) % m := Int.tmod_eq_emod_of_nonneg hnonneg
    _ = n.tmod m % m := Int.add_emod_right _ _
    _ = (n - m * n.tdiv m) % m := by rw [Int.tmod_def]
    _ = n % m := Int.sub_mul_emod_self_left n m _

/-- The variables of the loop. -/
structure Euclid where
  old_r : ℤ
  r : ℤ
  old_s : ℤ
  s : ℤ

namespace Euclid

/-- One turn of the loop. -/
def turn (e : Euclid) : Euclid where
  old_r := e.r
  r := e.old_r - e.old_r.tdiv e.r * e.r
  old_s := e.s
  s := e.old_s - e.old_r.tdiv e.r * e.s

lemma turn_r (e : Euclid) : e.turn.r = e.old_r.tmod e.r := by
  have := Int.tdiv_mul_add_tmod e.old_r e.r
  simp only [turn]
  omega

lemma turn_natAbs_lt {e : Euclid} (h : e.r ≠ 0) : e.turn.r.natAbs < e.r.natAbs := by
  rw [turn_r, Int.natAbs_tmod]
  exact Nat.mod_lt _ (by omega)

/-- The loop: the second remainder shrinks with every turn. -/
def run (e : Euclid) : Euclid := if e.r = 0 then e else e.turn.run
termination_by e.r.natAbs
decreasing_by exact turn_natAbs_lt ‹_›

lemma gcd_turn (e : Euclid) : Int.gcd e.turn.old_r e.turn.r = Int.gcd e.old_r e.r := by
  rw [turn_r, Int.gcd_comm, turn, Int.gcd_eq_natAbs_gcd_natAbs, Int.gcd_eq_natAbs_gcd_natAbs, Int.natAbs_tmod,
    Nat.gcd_comm e.old_r.natAbs, Nat.gcd_rec e.r.natAbs]

/-- The remainders are not negative, and the coefficients make them out of `a` modulo `m`. -/
structure Sound (m a : ℤ) (e : Euclid) : Prop where
  old_nonneg : 0 ≤ e.old_r
  nonneg : 0 ≤ e.r
  old : e.old_s * a ≡ e.old_r [ZMOD m]
  current : e.s * a ≡ e.r [ZMOD m]

lemma Sound.turn {m a : ℤ} {e : Euclid} (h : Sound m a e) : Sound m a e.turn where
  old_nonneg := h.nonneg
  nonneg := by
    rw [turn_r]
    exact Int.tmod_nonneg _ h.old_nonneg
  old := h.current
  current := by
    have hscaled := h.current.mul_left (e.old_r.tdiv e.r)
    have heq : e.turn.s * a = e.old_s * a - e.old_r.tdiv e.r * (e.s * a) := by
      unfold Euclid.turn
      ring
    rw [heq]
    exact h.old.sub hscaled

/-- The loop ends with the greatest common divisor, and its coefficient makes it. -/
theorem run_spec {m a : ℤ} {e : Euclid} (h : Sound m a e) :
    e.run.old_r = Int.gcd e.old_r e.r ∧ e.run.old_s * a ≡ e.run.old_r [ZMOD m] := by
  fun_induction run e with
  | case1 e hr =>
    refine ⟨?_, h.old⟩
    rw [hr, Int.gcd_zero_right, Int.natCast_natAbs, abs_of_nonneg h.old_nonneg]
  | case2 e hr ih =>
    obtain ⟨hgcd, hcoefficient⟩ := ih h.turn
    exact ⟨by rw [hgcd, gcd_turn], hcoefficient⟩

/-- Of a number prime to the modulus the coefficient is an inverse. -/
theorem run_inverse {m a : ℤ} (hm : 0 ≤ m) (ha : 0 ≤ a) (hcop : Int.gcd a m = 1) :
    (run ⟨a, m, 1, 0⟩).old_s * a ≡ 1 [ZMOD m] := by
  have hsound : Sound m a ⟨a, m, 1, 0⟩ :=
    ⟨ha, hm, by rw [one_mul], by simpa using (Int.modEq_zero_iff_dvd.mpr (dvd_refl m)).symm⟩
  obtain ⟨hgcd, hcoefficient⟩ := run_spec hsound
  rw [hgcd] at hcoefficient
  simpa [hcop] using hcoefficient

end Euclid

end ShadeTree.Lib
