import Mathlib.Data.List.Basic
import Mathlib.Tactic.Common

/-!
# Runs of a labelled step relation

A system is a relation `step s e t` between a state, a label and the next state.  A label carries
whatever one step shows to the outside: the call that was made together with its answer, or the
action one party took.  A `Run` lists the labels of its steps, oldest first.

The rules below are the induction every development over runs repeats: an invariant of the trace and
the state, the same for the runs whose steps all meet a side condition, and the step a label of the
trace came from.
-/

namespace ShadeTree.Lib

variable {σ ε : Type*}

/-- The runs from `s`: the labels of the steps taken, oldest first, and the state reached. -/
inductive Run (step : σ → ε → σ → Prop) (s : σ) : List ε → σ → Prop where
  | nil : Run step s [] s
  | snoc {tr : List ε} {t u : σ} {e : ε} :
      Run step s tr t → step t e u → Run step s (tr ++ [e]) u

/-- The steps of a relation that meet a condition on the state before the step and the label. -/
def Restrict (step : σ → ε → σ → Prop) (C : σ → ε → Prop) : σ → ε → σ → Prop :=
  fun s e t => C s e ∧ step s e t

/-- The step relation of a total function: the label is the input together with the answer. -/
def ofFun {ι ω : Type*} (f : σ → ι → σ × ω) : σ → ι × ω → σ → Prop :=
  fun s e t => f s e.1 = (t, e.2)

section Rules

variable {step : σ → ε → σ → Prop} {C : σ → ε → Prop} {s t u : σ} {e : ε} {tr : List ε}

lemma Restrict.of_step (h : step s e t) (hC : C s e) : Restrict step C s e t := ⟨hC, h⟩

lemma Run.single (h : step s e t) : Run step s [e] t := by
  simpa using Run.snoc Run.nil h

lemma Run.append {tr' : List ε} (h : Run step s tr t) (h' : Run step t tr' u) :
    Run step s (tr ++ tr') u := by
  induction h' with
  | nil => simpa using h
  | snoc _ hs ih => rw [← List.append_assoc]; exact ih.snoc hs

lemma Run.cons (h : step s e t) (h' : Run step t tr u) : Run step s (e :: tr) u :=
  (Run.single h).append h'

/-- **Invariants.** What holds of the empty trace and is kept by one more step holds of every run. -/
theorem Run.invariant {I : List ε → σ → Prop} (h0 : I [] s)
    (hs : ∀ tr t e u, Run step s tr t → I tr t → step t e u → I (tr ++ [e]) u)
    (h : Run step s tr t) : I tr t := by
  induction h with
  | nil => exact h0
  | snoc hr hst ih => exact hs _ _ _ _ hr ih hst

/-- The invariant rule when the invariant looks at the state alone. -/
theorem Run.invariant_state {I : σ → Prop} (h0 : I s)
    (hs : ∀ t e u, I t → step t e u → I u) (h : Run step s tr t) : I t :=
  h.invariant (I := fun _ => I) h0 fun _ _ _ _ _ hi hst => hs _ _ _ hi hst

theorem Run.mono {step' : σ → ε → σ → Prop} (hsub : ∀ t e u, step t e u → step' t e u)
    (h : Run step s tr t) : Run step' s tr t := by
  induction h with
  | nil => exact .nil
  | snoc _ hst ih => exact ih.snoc (hsub _ _ _ hst)

lemma Run.forget (h : Run (Restrict step C) s tr t) : Run step s tr t :=
  h.mono fun _ _ _ hst => hst.2

/-- A run over two traces in a row passes through a state between them. -/
theorem Run.split {tr₁ tr₂ : List ε} (h : Run step s (tr₁ ++ tr₂) t) :
    ∃ v, Run step s tr₁ v ∧ Run step v tr₂ t := by
  generalize htr : tr₁ ++ tr₂ = tr at h
  induction h generalizing tr₂ with
  | nil =>
    obtain ⟨rfl, rfl⟩ := List.append_eq_nil_iff.mp htr
    exact ⟨s, .nil, .nil⟩
  | @snoc tr t u e hr hst ih =>
    rcases List.eq_nil_or_concat tr₂ with rfl | ⟨tr₂, e', rfl⟩
    · rw [List.append_nil] at htr
      exact ⟨u, htr ▸ hr.snoc hst, .nil⟩
    · rw [List.concat_eq_append, ← List.append_assoc] at htr
      obtain ⟨rfl, he⟩ := List.append_inj' htr rfl
      obtain rfl : e' = e := List.singleton_inj.mp he
      obtain ⟨v, hv, hv'⟩ := ih rfl
      exact ⟨v, hv, List.concat_eq_append ▸ hv'.snoc hst⟩

lemma Run.of_nil (h : Run step s [] t) : t = s := by
  generalize htr : ([] : List ε) = tr at h
  cases h with
  | nil => rfl
  | snoc => simp at htr

/-- The first step of a run that is not empty. -/
lemma Run.uncons (h : Run step s (e :: tr) t) : ∃ v, step s e v ∧ Run step v tr t := by
  obtain ⟨v, hv, hr⟩ := (show Run step s ([e] ++ tr) t from h).split
  refine ⟨v, ?_, hr⟩
  generalize htr : [e] = tr' at hv
  cases hv with
  | nil => cases htr
  | @snoc tr' w _ e' hw hst =>
    obtain rfl : tr' = [] := by simpa using congrArg List.length htr
    obtain rfl : e = e' := by simpa using htr
    obtain rfl := hw.of_nil
    exact hst

/-- Every label of a run comes from one of its steps. -/
theorem Run.exists_step (h : Run step s tr t) (he : e ∈ tr) :
    ∃ tr₁ tr₂ v w, tr = tr₁ ++ e :: tr₂ ∧ Run step s tr₁ v ∧ step v e w ∧ Run step w tr₂ t := by
  obtain ⟨tr₁, tr₂, rfl⟩ := List.append_of_mem he
  obtain ⟨v, hv, hr⟩ := h.split
  obtain ⟨w, hst, hw⟩ := hr.uncons
  exact ⟨tr₁, tr₂, v, w, rfl, hv, hst, hw⟩

/-- What every next step shows of its label, given the labels before it, holds all along a run. -/
theorem Run.every_label {P : List ε → ε → Prop}
    (hs : ∀ tr t e u, Run step s tr t → step t e u → P tr e) (h : Run step s tr t) :
    ∀ tr₁ e tr₂, tr = tr₁ ++ e :: tr₂ → P tr₁ e := by
  rintro tr₁ e tr₂ rfl
  obtain ⟨v, hv, hr⟩ := h.split
  obtain ⟨w, hst, -⟩ := hr.uncons
  exact hs tr₁ v e w hv hst

end Rules

end ShadeTree.Lib
