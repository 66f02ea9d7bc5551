import Mathlib.Algebra.BigOperators.Ring.Finset
import Mathlib.Algebra.Order.BigOperators.Group.Finset
import Mathlib.Algebra.Order.Field.Rat
import Mathlib.Data.Nat.Periodic
import Mathlib.Tactic.Linarith
import Mathlib.Tactic.Ring

/-!
# Smooth weighted round robin

In every round the credit of each member is raised by its weight, and the one with the highest credit is chosen and
pays the sum of all weights.  The credits start anywhere between zero and the weights.

Within a cycle, as many rounds as the sum of the weights, a member that has been chosen as often as its weight says is
not chosen again: its credit is negative, or in the last round below that of a member still short of its share
(`times_le`).  So after a cycle every member has its share and the credits are where they were, and from there on
everything repeats.
-/

namespace ShadeTree.Lib.RoundRobin

open Finset

variable {κ : Type*} [DecidableEq κ]

/-- Rounds: `credit t` are the credits before round `t`, in which `pick t` is chosen; the choice depends on the credits
alone. -/
structure Rounds (members : Finset κ) (weight : κ → ℕ) (credit : ℕ → κ → ℚ) (pick : ℕ → κ) : Prop where
  start : ∀ i ∈ members, 0 ≤ credit 0 i ∧ credit 0 i < weight i
  mem : ∀ t, pick t ∈ members
  highest : ∀ t, ∀ i ∈ members, credit t i + weight i ≤ credit t (pick t) + weight (pick t)
  step : ∀ t, ∀ i ∈ members,
    credit (t + 1) i = credit t i + weight i - if pick t = i then ∑ j ∈ members, (weight j : ℚ) else 0
  determined : ∀ t u, (∀ i ∈ members, credit t i = credit u i) → pick t = pick u

section Rounds

variable {members : Finset κ} {weight : κ → ℕ} {credit : ℕ → κ → ℚ} {pick : ℕ → κ}

/-- How often a member is chosen before round `t`. -/
def times (pick : ℕ → κ) (i : κ) (t : ℕ) : ℕ := t.count fun s => pick s = i

lemma times_succ (i : κ) (t : ℕ) : times pick i (t + 1) = times pick i t + if pick t = i then 1 else 0 :=
  Nat.count_succ _ _

variable (h : Rounds members weight credit pick)

include h

lemma Rounds.sum_times (t : ℕ) : ∑ i ∈ members, times pick i t = t := by
  induction t with
  | zero => simp [times]
  | succ t ih =>
    simp only [times_succ, sum_add_distrib, ih, sum_ite_eq, if_pos (h.mem t)]

lemma Rounds.credit_eq (t : ℕ) {i : κ} (hi : i ∈ members) :
    credit t i = credit 0 i + t * weight i - (∑ j ∈ members, (weight j : ℚ)) * times pick i t := by
  induction t with
  | zero => simp [times]
  | succ t ih =>
    rw [h.step t i hi, ih, times_succ]
    split <;> push_cast <;> ring

/-- **No round changes the sum of the credits.** -/
theorem Rounds.sum_credit (t : ℕ) : ∑ i ∈ members, credit t i = ∑ i ∈ members, credit 0 i := by
  induction t with
  | zero => rfl
  | succ t ih =>
    rw [sum_congr rfl fun i hi => h.step t i hi, sum_sub_distrib, sum_add_distrib, sum_ite_eq, if_pos (h.mem t), ih]
    ring

lemma Rounds.weight_pos (t : ℕ) : 0 < weight (pick t) := by
  have hstart := h.start _ (h.mem t)
  have : (0 : ℚ) < weight (pick t) := hstart.1.trans_lt hstart.2
  exact_mod_cast this

/-- Who is chosen has been in credit. -/
lemma Rounds.raised_pos (t : ℕ) : 0 < credit t (pick t) + weight (pick t) := by
  by_contra hle
  have hall : ∑ i ∈ members, (credit t i + weight i) ≤ 0 :=
    sum_nonpos fun i hi => (h.highest t i hi).trans (not_lt.mp hle)
  have hcredit : 0 ≤ ∑ i ∈ members, credit 0 i := sum_nonneg fun i hi => (h.start i hi).1
  have hweight : (0 : ℚ) < ∑ i ∈ members, (weight i : ℚ) :=
    lt_of_lt_of_le (by exact_mod_cast h.weight_pos t)
      (single_le_sum (f := fun i => (weight i : ℚ)) (fun i _ => Nat.cast_nonneg _) (h.mem t))
  rw [sum_add_distrib, h.sum_credit t] at hall
  linarith

/-- Within a cycle no member is chosen more often than its weight says. -/
lemma Rounds.times_le {t : ℕ} (ht : t ≤ ∑ j ∈ members, weight j) {i : κ} (hi : i ∈ members) :
    times pick i t ≤ weight i := by
  induction t with
  | zero => simp [times]
  | succ t ih =>
    have ih := ih (by omega)
    rw [times_succ]
    split_ifs with hpick
    swap
    · omega
    subst hpick
    by_contra hover
    have hfull : times pick (pick t) t = weight (pick t) := by omega
    set W := ∑ j ∈ members, weight j with hW
    have hcast : ∑ j ∈ members, (weight j : ℚ) = W := by rw [hW]; push_cast; rfl
    have hraised := h.raised_pos t
    have hstart := h.start _ (h.mem t)
    rw [h.credit_eq t (h.mem t), hfull, hcast] at hraised
    rcases Nat.lt_or_ge (t + 1) W with hlt | hge
    · -- it has been served too early: its credit is negative
      have hgap : (t : ℚ) + 2 ≤ W := by exact_mod_cast hlt
      have hweight : (0 : ℚ) ≤ weight (pick t) := Nat.cast_nonneg _
      nlinarith [mul_le_mul_of_nonneg_right hgap hweight]
    · -- in the last round another member is still short of its share
      obtain ⟨k, hk, hshort⟩ : ∃ k ∈ members, times pick k t < weight k := by
        refine exists_lt_of_sum_lt ?_
        rw [h.sum_times]
        omega
      have hhighest := h.highest t k hk
      rw [h.credit_eq t hk, h.credit_eq t (h.mem t), hfull, hcast] at hhighest
      have hlast : (t : ℚ) + 1 = W := by exact_mod_cast (show t + 1 = W by omega)
      have hgap : (times pick k t : ℚ) + 1 ≤ weight k := by exact_mod_cast hshort
      have hsum : (weight (pick t) : ℚ) ≤ W := by
        exact_mod_cast single_le_sum (f := weight) (fun i _ => Nat.zero_le _) (h.mem t)
      have hk0 := (h.start k hk).1
      have hWnonneg : (0 : ℚ) ≤ W := Nat.cast_nonneg _
      nlinarith [mul_le_mul_of_nonneg_left hgap hWnonneg]

/-- **A cycle gives every member its share.** -/
lemma Rounds.times_cycle {i : κ} (hi : i ∈ members) : times pick i (∑ j ∈ members, weight j) = weight i := by
  have hle : ∀ j ∈ members, times pick j (∑ j ∈ members, weight j) ≤ weight j := fun j hj => h.times_le le_rfl hj
  exact (sum_eq_sum_iff_of_le hle).mp (h.sum_times _) i hi

lemma Rounds.credit_cycle {i : κ} (hi : i ∈ members) : credit (∑ j ∈ members, weight j) i = credit 0 i := by
  rw [h.credit_eq _ hi, h.times_cycle hi]
  push_cast
  ring

/-- **The credits repeat** after a cycle. -/
theorem Rounds.credit_add (t : ℕ) {i : κ} (hi : i ∈ members) :
    credit (t + ∑ j ∈ members, weight j) i = credit t i := by
  induction t generalizing i with
  | zero => rw [Nat.zero_add, h.credit_cycle hi]
  | succ t ih =>
    rw [Nat.succ_add, h.step _ i hi, h.step t i hi, ih hi, h.determined _ t fun j hj => ih hj]

lemma Rounds.pick_periodic : Function.Periodic pick (∑ j ∈ members, weight j) :=
  fun t => h.determined _ t fun _ hj => h.credit_add t hj

/-- **Exact shares.** In any rounds in a row, as many as the sum of the weights, every member is chosen as often as its
weight says. -/
theorem Rounds.shares (n : ℕ) {i : κ} (hi : i ∈ members) :
    ((Ico n (n + ∑ j ∈ members, weight j)).filter fun t => pick t = i).card = weight i := by
  rw [Nat.filter_Ico_card_eq_of_periodic n _ (fun t => pick t = i) fun t => congrArg (· = i) (h.pick_periodic t)]
  exact h.times_cycle hi

end Rounds

end ShadeTree.Lib.RoundRobin
