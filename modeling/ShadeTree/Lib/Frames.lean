import ShadeTree.Lib.Run

/-!
# Calls that hand control out before they return

A call whose last effect is to call a stranger has taken effect when the stranger runs, and the stranger
may call back before the first call returns.  If the stranger fails, everything since the start of the call
is undone.  `Frames.Step` is a step relation run that way: every open call remembers the state it started
from.

What holds after every run of the step relation then holds of the state at every moment, in particular
when control is handed out, and of every state a failure falls back to (`Frames.committed`): undone steps
leave nothing behind.
-/

namespace ShadeTree.Lib

variable {σ ε : Type*}

/-- The state now, and the state each open call started from, innermost first. -/
structure Frames (σ : Type*) where
  now : σ
  saved : List σ

/-- What happens at a moment: a step of the system, a call by a stranger that may be undone on its own,
the return of the innermost open call, or its failure. -/
inductive FrameLabel (ε : Type*) where
  | act (e : ε)
  | enter
  | ret
  | revert

/-- The step relation with open calls.  The steps of `hands` hand control out as they take effect. -/
inductive Frames.Step (step : σ → ε → σ → Prop) (hands : ε → Prop) :
    Frames σ → FrameLabel ε → Frames σ → Prop where
  | act {s t : σ} {e : ε} {fr : List σ} :
      step s e t → ¬ hands e → Step step hands ⟨s, fr⟩ (.act e) ⟨t, fr⟩
  | hand {s t : σ} {e : ε} {fr : List σ} :
      step s e t → hands e → Step step hands ⟨s, fr⟩ (.act e) ⟨t, s :: fr⟩
  | enter {s : σ} {fr : List σ} : Step step hands ⟨s, fr⟩ .enter ⟨s, s :: fr⟩
  | ret {s v : σ} {fr : List σ} : Step step hands ⟨s, v :: fr⟩ .ret ⟨s, fr⟩
  | revert {s v : σ} {fr : List σ} : Step step hands ⟨s, v :: fr⟩ .revert ⟨v, fr⟩

section Rules

variable {step : σ → ε → σ → Prop} {hands : ε → Prop} {s : σ}

/-- The states that some run of the step relation reaches. -/
def Reaches (step : σ → ε → σ → Prop) (s t : σ) : Prop := ∃ tr, Run step s tr t

lemma Reaches.refl : Reaches step s s := ⟨[], .nil⟩

lemma Reaches.tail {t u : σ} {e : ε} (h : Reaches step s t) (hst : step t e u) : Reaches step s u := by
  obtain ⟨tr, hr⟩ := h
  exact ⟨_, hr.snoc hst⟩

/-- The invariant rule over the states a run reaches. -/
lemma Reaches.invariant {I : σ → Prop} {t : σ} (h : Reaches step s t) (h0 : I s)
    (hs : ∀ t e u, I t → step t e u → I u) : I t := by
  obtain ⟨tr, hr⟩ := h
  exact hr.invariant_state h0 hs

lemma Frames.Step.mono {step' : σ → ε → σ → Prop} {c c' : Frames σ} {l : FrameLabel ε}
    (h : Frames.Step step hands c l c') (hsub : ∀ t e u, step t e u → step' t e u) :
    Frames.Step step' hands c l c' := by
  cases h with
  | act hst hh => exact .act (hsub _ _ _ hst) hh
  | hand hst hh => exact .hand (hsub _ _ _ hst) hh
  | enter => exact .enter
  | ret => exact .ret
  | revert => exact .revert

/-- **Simulation.** Steps that another relation can follow, along an abstraction and an invariant of the
states, are followed over whole runs. -/
theorem Reaches.simulate {τ δ : Type*} {r : τ → δ → τ → Prop} (f : σ → τ) {I : σ → Prop} {t : σ}
    (h : Reaches step s t) (h0 : I s)
    (hs : ∀ t e u, I t → step t e u → I u ∧ ∃ d, r (f t) d (f u)) :
    I t ∧ Reaches r (f s) (f t) := by
  refine h.invariant (I := fun t => I t ∧ Reaches r (f s) (f t)) ⟨h0, .refl⟩ ?_
  intro t e u hi hst
  obtain ⟨hu, d, hd⟩ := hs t e u hi.1 hst
  exact ⟨hu, hi.2.tail hd⟩

/-- **Nothing undone remains.** With calls re-entered and undone in any order, the state at every moment,
and every state an open call would fall back to, is one the step relation reaches on its own. -/
theorem Frames.committed {tr : List (FrameLabel ε)} {c : Frames σ}
    (h : Run (Frames.Step step hands) ⟨s, []⟩ tr c) :
    Reaches step s c.now ∧ ∀ v ∈ c.saved, Reaches step s v := by
  refine h.invariant_state (I := fun c => Reaches step s c.now ∧ ∀ v ∈ c.saved, Reaches step s v)
    ⟨.refl, fun v hv => by cases hv⟩ ?_
  rintro c e c' ⟨hnow, hsaved⟩ hst
  cases hst with
  | act hst _ => exact ⟨hnow.tail hst, hsaved⟩
  | hand hst _ => exact ⟨hnow.tail hst, List.forall_mem_cons.mpr ⟨hnow, hsaved⟩⟩
  | enter => exact ⟨hnow, List.forall_mem_cons.mpr ⟨hnow, hsaved⟩⟩
  | ret => exact ⟨hnow, (List.forall_mem_cons.mp hsaved).2⟩
  | revert => exact List.forall_mem_cons.mp hsaved

end Rules

end ShadeTree.Lib
