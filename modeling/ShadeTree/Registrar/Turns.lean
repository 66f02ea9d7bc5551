import ShadeTree.Registrar.Engine

/-!
# One call at a time for an authorization

The calls at work on orders hold different authorizations, the keys in flight, and `recover` runs alone.
-/

namespace ShadeTree.Registrar

open Function (update)

variable {K T : Type}

/-- The authorization whose order a call at work may change. -/
def Pc.key : Pc K → Option K
  | .locking r _ => some r.1
  | .simulating r _ => some r.1
  | .sending r _ => some r.1
  | .sent r _ _ => some r.1
  | .waiting r _ _ => some r.1
  | .probing r _ => some r.1
  | .rooting r => some r.1
  | .throwing r _ _ => some r.1
  | .closing r _ => some r.1
  | _ => none

/-- The key that a `verifyAndSettle` call has in flight. -/
def busy : Option (Call K) → Option K
  | some ⟨.post _ _, pc⟩ => pc.key
  | _ => none

lemma post_ne_recover {req : Request K} {rep : Bool} {pc : Pc K} (todo : List (Ref K)) (pc' : Pc K) :
    some (⟨.post req rep, pc⟩ : Call K) ≠ some ⟨.recover todo, pc'⟩ := nofun

lemma none_ne_recover (todo : List (Ref K)) (pc : Pc K) :
    (none : Option (Call K)) ≠ some ⟨.recover todo, pc⟩ := nofun

/-! ### The calls at work -/

/-- The keys in flight are those of the calls at work, one call each; `recover` runs alone. -/
structure Turns (s : System K T) : Prop where
  unique : ∀ t t' k, busy (s.call t) = some k → busy (s.call t') = some k → t = t'
  flight : ∀ k, k ∈ s.inflight ↔ ∃ t, busy (s.call t) = some k
  alone : ∀ t todo pc, s.call t = some ⟨.recover todo, pc⟩ → s.ready = false ∧ ∀ t', t' ≠ t → s.call t' = none

namespace Turns

variable {s s' : System K T} {t : T} {c' : Option (Call K)} {k : K}

lemma not_recover_of_ready (hT : Turns s) (hr : s.ready = true) (t' : T) (todo : List (Ref K)) (pc : Pc K) :
    s.call t' ≠ some ⟨.recover todo, pc⟩ := by
  intro h
  have h' := (hT.alone _ _ _ h).1
  simp [hr] at h'

lemma not_recover_of_post (hT : Turns s) {req : Request K} {rep : Bool} {pc : Pc K}
    (hc : s.call t = some ⟨.post req rep, pc⟩) (t' : T) (todo : List (Ref K)) (pc' : Pc K) :
    s.call t' ≠ some ⟨.recover todo, pc'⟩ := by
  intro h
  by_cases ht : t = t'
  · subst ht
    rw [hc] at h
    cases h
  · have h' := (hT.alone _ _ _ h).2 t ht
    rw [hc] at h'
    cases h'

/-- No call is at work on a key that is not in flight, as long as `recover` is not running. -/
lemma key_ne (hT : Turns s) (hno : ∀ t' todo pc, s.call t' ≠ some ⟨.recover todo, pc⟩) (hk : k ∉ s.inflight)
    {c : Call K} (hc : s.call t = some c) : c.pc.key ≠ some k := by
  intro h
  obtain ⟨task, pc⟩ := c
  cases task with
  | recover todo => exact hno _ _ _ hc
  | post req rep => exact hk ((hT.flight k).mpr ⟨t, by rw [hc]; exact h⟩)

variable [DecidableEq T]

/-- A call that is not `recover` goes on, with the key in flight that it had. -/
lemma post (hT : Turns s) (hno : ∀ t' todo pc, s.call t' ≠ some ⟨.recover todo, pc⟩)
    (hc : ∀ todo pc, c' ≠ some ⟨.recover todo, pc⟩) (hcall : s'.call = update s.call t c')
    (hb : busy c' = busy (s.call t)) (hin : s'.inflight = s.inflight) : Turns s' := by
  have hbusy : ∀ t', busy (s'.call t') = busy (s.call t') := by
    intro t'
    rw [hcall]
    by_cases ht : t' = t
    · subst ht
      rw [Function.update_self, hb]
    · rw [Function.update_of_ne ht]
  refine ⟨fun t₁ t₂ k h₁ h₂ => ?_, fun k => ?_, fun t' todo pc h => ?_⟩
  · rw [hbusy] at h₁ h₂
    exact hT.unique _ _ _ h₁ h₂
  · rw [hin, hT.flight]
    simp only [hbusy]
  · rw [hcall] at h
    by_cases ht : t' = t
    · subst ht
      rw [Function.update_self] at h
      exact absurd h (hc _ _)
    · rw [Function.update_of_ne ht] at h
      exact absurd h (hno _ _ _)

/-- `recover` goes on. -/
lemma recover (hT : Turns s) {todo todo' : List (Ref K)} {pc pc' : Pc K}
    (hc : s.call t = some ⟨.recover todo, pc⟩) (hcall : s'.call = update s.call t (some ⟨.recover todo', pc'⟩))
    (hin : s'.inflight = s.inflight) (hr : s'.ready = s.ready) : Turns s' := by
  have hal := hT.alone _ _ _ hc
  have hne : ∀ t', t' ≠ t → s'.call t' = none := by
    intro t' ht
    rw [hcall, Function.update_of_ne ht]
    exact hal.2 t' ht
  have hb : ∀ t', busy (s'.call t') = none := by
    intro t'
    by_cases ht : t' = t
    · rw [hcall, ht, Function.update_self]
      rfl
    · rw [hne t' ht]
      rfl
  have hb' : ∀ t', busy (s.call t') = none := by
    intro t'
    by_cases ht : t' = t
    · rw [ht, hc]
      rfl
    · rw [hal.2 t' ht]
      rfl
  refine ⟨fun t₁ t₂ k h₁ => ?_, fun k => ?_, fun t' todo pc h => ⟨hr.trans hal.1, fun t'' ht'' => ?_⟩⟩
  · rw [hb] at h₁
    cases h₁
  · rw [hin, hT.flight]
    simp only [hb, hb']
  · by_cases ht : t' = t
    · exact hne t'' (ht ▸ ht'')
    · rw [hne t' ht] at h
      cases h

/-- A call enters the keys in flight with a key that no call has there. -/
lemma enter [DecidableEq K] (hT : Turns s) (hno : ∀ t' todo pc, s.call t' ≠ some ⟨.recover todo, pc⟩)
    {req : Request K} {rep : Bool} {pc : Pc K} (hk : k ∉ s.inflight) (hkey : pc.key = some k)
    (ht : busy (s.call t) = none) (hcall : s'.call = update s.call t (some ⟨.post req rep, pc⟩))
    (hin : s'.inflight = insert k s.inflight) : Turns s' := by
  have hself : busy (s'.call t) = some k := by
    rw [hcall, Function.update_self]
    exact hkey
  have hother : ∀ t', t' ≠ t → s'.call t' = s.call t' := by
    intro t' h
    rw [hcall, Function.update_of_ne h]
  have hfree : ∀ t', busy (s.call t') ≠ some k := fun t' h => hk ((hT.flight k).mpr ⟨t', h⟩)
  refine ⟨fun t₁ t₂ k' h₁ h₂ => ?_, fun k' => ?_, fun t' todo pc' h => ?_⟩
  · by_cases e₁ : t₁ = t <;> by_cases e₂ : t₂ = t
    · rw [e₁, e₂]
    · rw [e₁, hself] at h₁
      rw [hother _ e₂, ← h₁] at h₂
      exact absurd h₂ (hfree _)
    · rw [e₂, hself] at h₂
      rw [hother _ e₁, ← h₂] at h₁
      exact absurd h₁ (hfree _)
    · rw [hother _ e₁] at h₁
      rw [hother _ e₂] at h₂
      exact hT.unique _ _ _ h₁ h₂
  · rw [hin, Finset.mem_insert, hT.flight]
    constructor
    · rintro (rfl | ⟨t', h'⟩)
      · exact ⟨t, hself⟩
      · have hne : t' ≠ t := by
          rintro rfl
          rw [ht] at h'
          cases h'
        exact ⟨t', by rw [hother _ hne]; exact h'⟩
    · rintro ⟨t', h'⟩
      by_cases hne : t' = t
      · rw [hne, hself] at h'
        exact .inl (Option.some.inj h').symm
      · rw [hother _ hne] at h'
        exact .inr ⟨t', h'⟩
  · by_cases hne : t' = t
    · rw [hcall, hne, Function.update_self] at h
      cases h
    · rw [hother _ hne] at h
      exact absurd h (hno _ _ _)

/-- A call leaves with its key. -/
lemma leave [DecidableEq K] (hT : Turns s) (hno : ∀ t' todo pc, s.call t' ≠ some ⟨.recover todo, pc⟩)
    (ht : busy (s.call t) = some k) (hcall : s'.call = update s.call t none)
    (hin : s'.inflight = s.inflight.erase k) : Turns s' := by
  have hself : s'.call t = none := by rw [hcall, Function.update_self]
  have hother : ∀ t', t' ≠ t → s'.call t' = s.call t' := by
    intro t' h
    rw [hcall, Function.update_of_ne h]
  have hsub : ∀ t' k', busy (s'.call t') = some k' → t' ≠ t ∧ busy (s.call t') = some k' := by
    intro t' k' h
    have hne : t' ≠ t := by
      rintro rfl
      rw [hself] at h
      cases h
    exact ⟨hne, hother _ hne ▸ h⟩
  refine ⟨fun t₁ t₂ k' h₁ h₂ => hT.unique _ _ _ (hsub _ _ h₁).2 (hsub _ _ h₂).2, fun k' => ?_,
    fun t' todo pc h => ?_⟩
  · rw [hin, Finset.mem_erase, hT.flight]
    constructor
    · rintro ⟨hk, t', h'⟩
      have hne : t' ≠ t := by
        rintro rfl
        exact hk (Option.some.inj (h'.symm.trans ht))
      exact ⟨t', by rw [hother _ hne]; exact h'⟩
    · rintro ⟨t', h'⟩
      obtain ⟨hne, h'⟩ := hsub _ _ h'
      refine ⟨fun hk => hne (hT.unique _ _ _ h' (hk ▸ ht)), t', h'⟩
  · by_cases hne : t' = t
    · rw [hne, hself] at h
      cases h
    · rw [hother _ hne] at h
      exact absurd h (hno _ _ _)

/-- `recover` returns, and the process listens. -/
lemma listen (hT : Turns s) {todo : List (Ref K)} {pc : Pc K} (hc : s.call t = some ⟨.recover todo, pc⟩)
    (hcall : s'.call = update s.call t none) (hin : s'.inflight = s.inflight) : Turns s' := by
  have hal := (hT.alone _ _ _ hc).2
  have hnone : ∀ t', s'.call t' = none := by
    intro t'
    rw [hcall]
    by_cases ht : t' = t
    · rw [ht, Function.update_self]
    · rw [Function.update_of_ne ht]
      exact hal t' ht
  have hb' : ∀ t', busy (s.call t') = none := by
    intro t'
    by_cases ht : t' = t
    · rw [ht, hc]
      rfl
    · rw [hal t' ht]
      rfl
  refine ⟨fun t₁ t₂ k h₁ => ?_, fun k => ?_, fun t' todo pc h => ?_⟩
  · rw [hnone] at h₁
    cases h₁
  · rw [hin, hT.flight]
    have hb : ∀ t', busy (s'.call t') = none := fun t' => by rw [hnone t']; rfl
    simp only [hb, hb']
  · rw [hnone] at h
    cases h

/-- No other call is at work on the order of a call. -/
lemma excl (hT : Turns s) {c d : Call K} {t' : T} (hc : s.call t = some c) (hd : s.call t' = some d)
    (hk : c.pc.key = some k) (hk' : d.pc.key = some k) : t' = t := by
  by_contra hne
  obtain ⟨task, pc⟩ := c
  obtain ⟨task', pc'⟩ := d
  cases task with
  | recover todo =>
    have := (hT.alone _ _ _ hc).2 t' hne
    rw [hd] at this
    cases this
  | post req rep =>
    cases task' with
    | recover todo => exact absurd hd (hT.not_recover_of_post hc _ _ _)
    | post req' rep' =>
      refine hne (hT.unique _ _ k ?_ ?_)
      · rw [hd]
        exact hk'
      · rw [hc]
        exact hk

end Turns

end ShadeTree.Registrar
