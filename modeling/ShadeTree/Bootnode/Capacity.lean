import Mathlib
import ShadeTree.Bootnode.Calls

/-!
# The cap on the registry

Room is looked for when a call begins, and the entry is written after its `await`s.  What was room then may be
taken when the entry is written.  The cap holds as long as every entry that is written still finds its onion
listed or room, and so if calls do not overlap.
-/

namespace ShadeTree.Bootnode

open ShadeTree.Lib

variable {T : Type} {K : Keys}

/-- **The condition.** A record that enters finds its onion listed, or room, when it enters. -/
def FindsRoom (C : RegistryConfig) (s : System T K) (e : Event T K) : Prop :=
  match e.accepts with
  | none => True
  | some (_, c) => c.onion ∈ s.registry.live ∨ Table.size s.registry.live < C.maxEntries

instance (C : RegistryConfig) (s : System T K) (e : Event T K) : Decidable (FindsRoom C s e) :=
  match h : e.accepts with
  | none => .isTrue (by simp [FindsRoom, h])
  | some (_, c) =>
    decidable_of_iff (c.onion ∈ s.registry.live ∨ Table.size s.registry.live < C.maxEntries) (by
      simp [FindsRoom, h])

/-- A call begins when no other one waits. -/
def Alone (s : System T K) (e : Event T K) : Prop :=
  ∀ t source record answer, e = .began t source record answer → ∀ t', s.calls t' = none

variable [DecidableEq T] {C : RegistryConfig} {clock : ℤ} {s u : System T K} {e : Event T K}
  {tr : List (Event T K)}

/-- The next step stays in the cap exactly if what it enters finds room. -/
lemma size_step_iff (h : Table.size s.registry.live ≤ C.maxEntries) (hst : Step C s e u) :
    Table.size u.registry.live ≤ C.maxEntries ↔ FindsRoom C s e := by
  rcases hst.live with ⟨t, source, c, operator, staked, rfl, -, -, hlive⟩ | ⟨hnone, p, hlive⟩
  · show _ ↔ c.onion ∈ s.registry.live ∨ Table.size s.registry.live < C.maxEntries
    rw [hlive]
    by_cases hmem : c.onion ∈ s.registry.live
    · rw [Table.size_insert_of_mem hmem]
      exact iff_of_true h (.inl hmem)
    · rw [Table.size_insert_of_notMem hmem, or_iff_right hmem]
      exact Nat.succ_le_iff
  · refine iff_of_true ?_ (by unfold FindsRoom; rw [hnone]; trivial)
    rw [hlive]
    exact Table.size_keep_le.trans h

/-- **Capacity.** The cap holds as long as every record that enters finds room when it does, and one that does
not breaks it. -/
theorem capacity_iff_room (C : RegistryConfig) (clock : ℤ)
    (h : Run (Restrict (Step C) (FindsRoom C)) (System.start C clock) tr s) :
    Table.size s.registry.live ≤ C.maxEntries ∧
    ∀ e u, Step C s e u → (Table.size u.registry.live ≤ C.maxEntries ↔ FindsRoom C s e) := by
  have hsize : Table.size s.registry.live ≤ C.maxEntries := by
    refine h.invariant_state (I := fun s => Table.size s.registry.live ≤ C.maxEntries) (Nat.zero_le _) ?_
    exact fun t e u hle hst => (size_step_iff hle hst.2).mpr hst.1
  exact ⟨hsize, fun e u hst => size_step_iff hsize hst⟩

/-- Two gateways one after the other at a cap of one: the second is refused. -/
theorem capacity_iff_room_full : ∃ tr, ∃ s : System ℕ signedKeys,
    Run (Restrict (Step (openConfig 1)) (FindsRoom (openConfig 1))) (System.start (openConfig 1) 0) tr s ∧
    zeroOnion ∈ s.registry.live ∧ Table.size s.registry.live ≤ 1 := by
  obtain ⟨tr, s, hrun, hlisted⟩ := System.exists_run (openConfig 1)
    (System.start (openConfig 1) 0 : System ℕ signedKeys) (FindsRoom (openConfig 1))
    [.announce 0 (some (plainRecord zeroOnion 60 "n")), .write 0,
      .announce 1 (some (plainRecord eightOnion 60 "n"))]
    (fun _ s => zeroOnion ∈ s.registry.live) (by decide +kernel)
  exact ⟨tr, s, hrun, hlisted, (capacity_iff_room (openConfig 1) 0 hrun).1⟩

/-- Two gateways that announce together at a cap of one are both listed. -/
theorem two_gateways_at_a_cap_of_one : ¬ ∀ (tr : List (Event ℕ signedKeys)) (s : System ℕ signedKeys),
    Run (Step (openConfig 1)) (System.start (openConfig 1) 0) tr s →
    Table.size s.registry.live ≤ (openConfig 1).maxEntries := by
  intro hall
  obtain ⟨tr, s, hrun, hsize⟩ := System.exists_run (openConfig 1)
    (System.start (openConfig 1) 0 : System ℕ signedKeys) (fun _ _ => True)
    [.announce 0 (some (plainRecord zeroOnion 60 "n")), .announce 1 (some (plainRecord eightOnion 60 "n")),
      .write 0, .write 1]
    (fun _ s => Table.size s.registry.live = 2) (by decide +kernel)
  exact absurd (hall tr s hrun.forget) (by rw [hsize]; decide)

/-! ### Calls that do not overlap -/

/-- The only call that waits finds its onion listed, or room. -/
def RoomKept (C : RegistryConfig) (s : System T K) : Prop :=
  Table.size s.registry.live ≤ C.maxEntries ∧ ∀ t call, s.calls t = some call →
    (∀ t', t' ≠ t → s.calls t' = none) ∧
      (call.checked.onion ∈ s.registry.live ∨ Table.size s.registry.live < C.maxEntries)

lemma RoomKept.findsRoom (h : RoomKept C s) (hst : Step C s e u) : FindsRoom C s e := by
  rcases hst.live with ⟨t, source, c, operator, staked, rfl, -, hcall, -⟩ | ⟨hnone, -⟩
  · exact (h.2 t _ hcall).2
  · unfold FindsRoom
    rw [hnone]
    trivial

/-- An entry that goes makes room. -/
lemma room_keep {p : String → Entry K → Bool} {t : Table String (Entry K)} {onion : String} {n : ℕ}
    (hroom : onion ∈ t ∨ Table.size t < n) (hsize : Table.size t ≤ n) :
    onion ∈ Table.keep p t ∨ Table.size (Table.keep p t) < n := by
  rcases hroom with hmem | hlt
  · by_cases hkept : onion ∈ Table.keep p t
    · exact .inl hkept
    · exact .inr (lt_of_lt_of_le (Table.size_keep_lt hmem hkept) hsize)
  · exact .inr (lt_of_le_of_lt Table.size_keep_le hlt)

lemma RoomKept.step (h : RoomKept C s) (halone : Alone s e) (hst : Step C s e u) : RoomKept C u := by
  refine ⟨(size_step_iff h.1 hst).mpr (h.findsRoom hst), fun t call hcall => ?_⟩
  -- a second call would have waited beside the first, or begun beside it
  have hothers : ∀ t', t' ≠ t → u.calls t' = none := by
    intro t' ht
    by_contra hsome
    obtain ⟨call', hcall'⟩ := Option.ne_none_iff_exists'.mp hsome
    have hpast : ∀ {t₁ t₂ call₁ call₂}, t₁ ≠ t₂ → s.calls t₁ = some call₁ → s.calls t₂ = some call₂ → False := by
      intro t₁ t₂ call₁ call₂ hne h₁ h₂
      rw [(h.2 t₂ call₂ h₂).1 t₁ hne] at h₁
      cases h₁
    have hbegan : ∀ {t₁ t₂ : T} {call₂ : Call K} {source record answer},
        e = .began t₁ source record answer → s.calls t₂ = some call₂ → False := by
      intro t₁ t₂ call₂ source record answer he h₂
      rw [halone t₁ source record answer he t₂] at h₂
      cases h₂
    rcases (hst.origin hcall).waited with ⟨old, hold⟩ | ⟨source, record, answer, he⟩
    · rcases (hst.origin hcall').waited with ⟨old', hold'⟩ | ⟨source, record, answer, he⟩
      · exact hpast ht hold' hold
      · exact hbegan he hold
    · rcases (hst.origin hcall').waited with ⟨old', hold'⟩ | ⟨source', record', answer', he'⟩
      · exact hbegan he hold'
      · exact ht (Option.some.inj ((congrArg Event.thread he').symm.trans (congrArg Event.thread he)))
  refine ⟨hothers, ?_⟩
  have hmine := hst.origin hcall
  cases hmine with
  | waits hold hthread =>
    obtain ⟨hnone, hroom⟩ := h.2 t call hold
    rcases hst.live with ⟨t', source, c, operator, staked, rfl, -, hwrites, -⟩ | ⟨-, p, hlive⟩
    · have hne : t' ≠ t := fun heq => hthread (congrArg some heq)
      rw [hnone t' hne] at hwrites
      cases hwrites
    · rw [hlive]
      exact room_keep hroom h.1
  | began hpruned hpasses hr =>
    have hlive := hpasses.room
    rcases hr with ⟨-, hr⟩ | ⟨-, hr⟩
    · rwa [hr]
    · rwa [hr, Registry.addNonce_live]
  | resumed hold hsource hchecked hstage hr =>
    obtain ⟨-, hroom⟩ := h.2 t _ hold
    rw [hchecked] at hroom
    rcases hr with ⟨-, hr⟩ | ⟨-, hr⟩
    · rwa [hr]
    · rwa [hr, Registry.addNonce_live]

/-- Calls that do not overlap stay in the cap. -/
theorem capacity_of_alone (h : Run (Restrict (Step C) Alone) (System.start C clock) tr s) :
    Table.size s.registry.live ≤ C.maxEntries := by
  refine (h.invariant_state (I := RoomKept C) ⟨Nat.zero_le _, ?_⟩ ?_).1
  · intro t call hcall
    cases hcall
  · exact fun t e u hkept hst => hkept.step hst.1 hst.2

end ShadeTree.Bootnode
