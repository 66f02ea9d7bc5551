import ShadeTree.Lib.Run
import ShadeTree.Contracts.PaidAccessSet
import ShadeTree.Contracts.PoseidonT3

/-!
# The contract's root and the rebuilt root

Both contracts simulate the admission set of the events they emit (`Staked.Sim`, `Paid.Sim`), and
`reconstructGroup` rebuilds that set from the logs, so the two roots agree — as long as every leaf the
contract writes is one its store can hold: it lies inside the depth-20 tree and no node on its path is
`0`, which the store reads as "never written" (`Storable`).  The contracts check neither.
-/

namespace ShadeTree.Contracts

open Function (update)
open ShadeTree.Lib ShadeTree.Lib.MerkleTree ShadeTree.Roots

section Store

variable (H : ℕ → ℕ → ℕ) (z : ℕ)

/-- The leaf an event writes in the tree over the set `A`: its index and its value. -/
def written (A : Admission) (e : MemberEvent) : Option (ℕ × ℕ) :=
  if e.topic.isRegistered then
    if (A.liveIndex e.commitment).isSome then none else some (A.leaves.length, e.commitment)
  else if e.topic.isRemoved then (A.liveIndex e.commitment).map fun i => (i, z)
  else none

/-- The store can hold what the event writes: the leaf lies inside the tree, and no node on its path
becomes `0`. -/
def Storable (A : Admission) (e : MemberEvent) : Prop :=
  ∀ i v, written z A e = some (i, v) → i < 2 ^ TREE_DEPTH ∧ PathNonzero H (A.leaf z) i v

/-- The store can hold what the events write, one after the other. -/
def StorableAll : Admission → List MemberEvent → Prop
  | _, [] => True
  | A, e :: es => Storable H z A e ∧ StorableAll (A.apply z e) es

variable {H z}

lemma StorableAll.append {A : Admission} {es es' : List MemberEvent} (h : StorableAll H z A es)
    (h' : StorableAll H z (A.applyAll z es) es') : StorableAll H z A (es ++ es') := by
  induction es generalizing A with
  | nil => exact h'
  | cons e es ih => exact ⟨h.1, ih h.2 h'⟩

/-- What the store can hold fits the tree of the package as well. -/
lemma StorableAll.fits {A : Admission} {es : List MemberEvent} (h : StorableAll H z A es) :
    A.Fits z TREE_DEPTH es := by
  induction es generalizing A with
  | nil => trivial
  | cons e es ih =>
    refine ⟨fun hreg hl => ?_, ih h.2⟩
    exact (h.1 A.leaves.length e.commitment (by simp [written, hreg, hl])).1

lemma leaf_apply {A : Admission} (hA : A.WF) (e : MemberEvent) :
    (A.apply z e).leaf z =
      match written z A e with
      | none => A.leaf z
      | some (i, v) => update (A.leaf z) i v := by
  unfold Admission.apply written Admission.leaf
  by_cases hreg : e.topic.isRegistered = true
  · cases hl : A.liveIndex e.commitment with
    | some i => simp [hreg]
    | none => simpa [hreg, Admission.append] using padded_append z A.leaves e.commitment
  · by_cases hrem : e.topic.isRemoved = true
    · cases hl : A.liveIndex e.commitment with
      | none => simp [hreg, hrem]
      | some i =>
        simpa [hreg, hrem, Admission.vacate] using padded_set z A.leaves z (hA.live_lt _ _ hl)
    · simp [hreg, hrem]

/-- The contract's write of a storable leaf mirrors the set after the event. -/
lemma Tree.Mirrors.of_some {T : Tree} {A : Admission} {e : MemberEvent} {i v : ℕ}
    (h : T.Mirrors H z (A.leaf z)) (hA : A.WF) (hw : written z A e = some (i, v))
    (hs : Storable H z A e) : (T.updateLeaf H z i v).Mirrors H z ((A.apply z e).leaf z) := by
  obtain ⟨hi, hp⟩ := hs i v hw
  rw [leaf_apply hA, hw]
  exact h.updateLeaf hi hp

end Store

/-! ### Contracts with the logs they emitted -/

/-- A contract together with the membership events it has emitted so far, oldest first. -/
structure Ledger (σ : Type*) where
  contract : σ
  logs : List MemberEvent

/-- The admission set of the events emitted so far. -/
def Ledger.admission {σ : Type*} (z : ℕ) (s : Ledger σ) : Admission := Admission.empty.applyAll z s.logs

lemma Ledger.admission_append {σ : Type*} (z : ℕ) (S : σ) (es es' : List MemberEvent) :
    Ledger.admission z ⟨S, es ++ es'⟩ = (Admission.empty.applyAll z es).applyAll z es' := by
  simp [Ledger.admission, Admission.applyAll]

/-! ### The staked set -/

namespace Staked

variable {H : ℕ → ℕ → ℕ} {z : ℕ} {X : Externals}

/-- One successful call, in a block. -/
def Step (H : ℕ → ℕ → ℕ) (z : ℕ) (X : Externals) (s : Ledger StakedReputationSet)
    (call : Block × Call) (s' : Ledger StakedReputationSet) : Prop :=
  ∃ evs, exec H z X s.contract call.1 call.2 = .ok (s'.contract, evs) ∧
    s'.logs = s.logs ++ evs.map Event.toMember

/-- The membership event of a call, if it succeeds. -/
def Call.event : Call → MemberEvent
  | .register c _ _ => ⟨.registeredV4, c⟩
  | .initiateExit c _ => ⟨.exiting, c⟩
  | .withdraw c _ _ _ => ⟨.withdrawn, c⟩
  | .slash c _ _ _ _ => ⟨.slashedV4, c⟩

/-- The store can hold what the call writes. -/
def Holdable (H : ℕ → ℕ → ℕ) (z : ℕ) (s : Ledger StakedReputationSet) (call : Block × Call) : Prop :=
  Storable H z (s.admission z) call.2.event

/-- The contract simulates the admission set: same tree, same counters, and the live commitments are the
bonded members that have not initiated an exit. -/
structure Sim (H : ℕ → ℕ → ℕ) (z : ℕ) (S : StakedReputationSet) (A : Admission) : Prop where
  wf : A.WF
  tree : S.tree.Mirrors H z (A.leaf z)
  index : S.nextIndex = A.leaves.length
  count : S.activeCount = A.active
  live : ∀ c i, A.liveIndex c = some i ↔
    (S.members c).bond ≠ 0 ∧ (S.members c).exitInitiatedAt = 0 ∧ (S.members c).index = i

lemma Sim.new {S : StakedReputationSet} {bond unbonding minUnbonding : ℕ} {limits bonds : List ℕ}
    (h : constructor H z bond unbonding minUnbonding limits bonds = .ok S) : Sim H z S Admission.empty := by
  obtain ⟨hm, hn, ha, ht⟩ := constructor_ok h
  refine ⟨.empty, ?_, hn, ha, fun c i => ?_⟩
  · rw [ht, Admission.leaf, Admission.empty, padded_nil]
    exact Tree.Mirrors.new
  · simp [Admission.empty, hm, Member.none]

lemma Sim.live_none {S : StakedReputationSet} {A : Admission} (h : Sim H z S A) {c : ℕ}
    (hc : (S.members c).bond = 0 ∨ (S.members c).exitInitiatedAt ≠ 0) : A.liveIndex c = none := by
  cases hl : A.liveIndex c with
  | none => rfl
  | some i =>
    obtain ⟨h₁, h₂, -⟩ := (h.live c i).mp hl
    rcases hc with h' | h'
    · exact absurd h' h₁
    · exact absurd h₂ h'

/-- Writing the member `c` changes what is live at `c` only. -/
lemma Sim.live_update {S : StakedReputationSet} {A A' : Admission} (h : Sim H z S A) {c : ℕ} {m : Member}
    (hother : ∀ c', c' ≠ c → A'.liveIndex c' = A.liveIndex c')
    (hc : ∀ i, A'.liveIndex c = some i ↔ m.bond ≠ 0 ∧ m.exitInitiatedAt = 0 ∧ m.index = i) (c' i : ℕ) :
    A'.liveIndex c' = some i ↔ (update S.members c m c').bond ≠ 0 ∧
      (update S.members c m c').exitInitiatedAt = 0 ∧ (update S.members c m c').index = i := by
  by_cases hcc : c' = c
  · subst hcc; simpa using hc i
  · rw [hother c' hcc, Function.update_of_ne hcc]
    exact h.live c' i

variable {S S' : StakedReputationSet} {A : Admission} {evs : List Event}

lemma Sim.register (h : Sim H z S A) {c l v : ℕ} (hok : register H z S c l v = .ok (S', evs))
    (hs : Storable H z A ⟨.registeredV4, c⟩) :
    evs.map Event.toMember = [⟨.registeredV4, c⟩] ∧ Sim H z S' (A.apply z ⟨.registeredV4, c⟩) := by
  obtain ⟨hbond, -, hfree, -, rfl, rfl⟩ := register_ok hok
  have hl : A.liveIndex c = none := h.live_none (.inl hfree)
  have happ : A.apply z ⟨.registeredV4, c⟩ = A.append c := by
    simp [Admission.apply, Topic.isRegistered, hl]
  have hw : written z A ⟨.registeredV4, c⟩ = some (S.nextIndex, c) := by
    simp [written, Topic.isRegistered, hl, h.index]
  have ht := h.tree.of_some h.wf hw hs
  rw [happ] at ht ⊢
  refine ⟨rfl, h.wf.append hl, ht, ?_, ?_, h.live_update (fun c' hc' => ?_) fun i => ?_⟩
  · simp [Admission.append, h.index]
  · simp [Admission.append, h.count]
  · simp [Admission.append, Function.update_of_ne hc']
  · simp [Admission.append, hbond, h.index]

lemma Sim.initiateExit (h : Sim H z S A) {b : Block} {c : ℕ} {π : List ℕ}
    (hok : initiateExit H z X S b c π = .ok (S', evs)) (hs : Storable H z A ⟨.exiting, c⟩) :
    evs.map Event.toMember = [⟨.exiting, c⟩] ∧ Sim H z S' (A.apply z ⟨.exiting, c⟩) := by
  obtain ⟨hbond, hexit, -, -, rfl, rfl⟩ := initiateExit_ok hok
  have hl : A.liveIndex c = some (S.members c).index := (h.live c _).mpr ⟨hbond, hexit, rfl⟩
  have happ : A.apply z ⟨.exiting, c⟩ = A.vacate z c (S.members c).index := by
    simp [Admission.apply, Topic.isRegistered, Topic.isRemoved, hl]
  have hw : written z A ⟨.exiting, c⟩ = some ((S.members c).index, z) := by
    simp [written, Topic.isRegistered, Topic.isRemoved, hl]
  have ht := h.tree.of_some h.wf hw hs
  have hstamp : b.timestamp % 2 ^ 64 ≠ 0 := by
    rw [Nat.mod_eq_of_lt b.lt]; exact b.pos.ne'
  rw [happ] at ht ⊢
  refine ⟨rfl, h.wf.vacate z hl, ht, ?_, ?_, h.live_update (fun c' hc' => ?_) fun i => ?_⟩
  · simp [Admission.vacate, h.index]
  · simp [Admission.vacate, h.count]
  · simp [Admission.vacate, Function.update_of_ne hc']
  · constructor
    · intro h₀
      simp [Admission.vacate] at h₀
    · rintro ⟨-, h₀, -⟩
      exact absurd h₀ hstamp

lemma Sim.withdraw (h : Sim H z S A) {b : Block} {c r : ℕ} {π : List ℕ} {paid : Bool}
    (hok : withdraw X S b c r π paid = .ok (S', evs)) :
    evs.map Event.toMember = [⟨.withdrawn, c⟩] ∧ Sim H z S' (A.apply z ⟨.withdrawn, c⟩) := by
  obtain ⟨-, hexit, -, -, -, rfl, rfl⟩ := withdraw_ok hok
  have hl : A.liveIndex c = none := h.live_none (.inr hexit)
  have happ : A.apply z ⟨.withdrawn, c⟩ = A := by
    simp [Admission.apply, Topic.isRegistered, Topic.isRemoved, hl]
  rw [happ]
  exact ⟨rfl, h.wf, h.tree, h.index, h.count,
    h.live_update (fun _ _ => rfl) fun i => by simp [hl, Member.none]⟩

lemma Sim.slash (h : Sim H z S A) {c s l r : ℕ} {paid : Bool}
    (hok : slash H z X S c s l r paid = .ok (S', evs)) (hs : Storable H z A ⟨.slashedV4, c⟩) :
    evs.map Event.toMember = [⟨.slashedV4, c⟩] ∧ Sim H z S' (A.apply z ⟨.slashedV4, c⟩) := by
  obtain ⟨hbond, -, -, -, -, rfl, rfl⟩ := slash_ok hok
  by_cases hexit : (S.members c).exitInitiatedAt = 0
  · have hl : A.liveIndex c = some (S.members c).index := (h.live c _).mpr ⟨hbond, hexit, rfl⟩
    have happ : A.apply z ⟨.slashedV4, c⟩ = A.vacate z c (S.members c).index := by
      simp [Admission.apply, Topic.isRegistered, Topic.isRemoved, hl]
    have hw : written z A ⟨.slashedV4, c⟩ = some ((S.members c).index, z) := by
      simp [written, Topic.isRegistered, Topic.isRemoved, hl]
    have ht := h.tree.of_some h.wf hw hs
    rw [happ] at ht ⊢
    simp only [hexit, if_true]
    refine ⟨rfl, h.wf.vacate z hl, ht, ?_, ?_, h.live_update (fun c' hc' => ?_) fun i => ?_⟩
    · simp [Admission.vacate, h.index]
    · simp [Admission.vacate, h.count]
    · simp [Admission.vacate, Function.update_of_ne hc']
    · simp [Admission.vacate, Member.none]
  · -- a slash of an exiting member writes no leaf, and its event finds nothing live
    have hl : A.liveIndex c = none := h.live_none (.inr hexit)
    have happ : A.apply z ⟨.slashedV4, c⟩ = A := by
      simp [Admission.apply, Topic.isRegistered, Topic.isRemoved, hl]
    rw [happ]
    simp only [hexit, if_false]
    exact ⟨rfl, h.wf, h.tree, h.index, h.count,
      h.live_update (fun _ _ => rfl) fun i => by simp [hl, Member.none]⟩

/-- **One call.** A successful call whose write the store can hold emits its event and simulates it. -/
theorem Sim.exec (h : Sim H z S A) {b : Block} {call : Call}
    (hok : exec H z X S b call = .ok (S', evs)) (hs : Storable H z A call.event) :
    evs.map Event.toMember = [call.event] ∧ Sim H z S' (A.apply z call.event) := by
  cases call with
  | register c l v => exact h.register hok hs
  | initiateExit c π => exact h.initiateExit hok hs
  | withdraw c r π paid => exact h.withdraw hok
  | slash c s l r paid => exact h.slash hok hs

/-- **Every run.** From the constructor on, over calls whose writes the store can hold, the contract
simulates the set of its events, and all of them are storable. -/
theorem sim_of_run {S₀ : StakedReputationSet} (h₀ : Sim H z S₀ Admission.empty)
    {calls : List (Block × Call)} {s : Ledger StakedReputationSet}
    (hrun : Run (Restrict (Step H z X) (Holdable H z)) ⟨S₀, []⟩ calls s) :
    Sim H z s.contract (s.admission z) ∧ StorableAll H z Admission.empty s.logs := by
  refine hrun.invariant_state (I := fun s => Sim H z s.contract (s.admission z) ∧
    StorableAll H z Admission.empty s.logs) ?_ ?_
  · exact ⟨h₀, trivial⟩
  rintro t ⟨b, call⟩ ⟨S', logs'⟩ ⟨hsim, hall⟩ ⟨hhold, evs, hok, hlogs⟩
  obtain ⟨hev, hsim'⟩ := hsim.exec hok hhold
  simp only at hlogs
  subst hlogs
  rw [hev]
  refine ⟨?_, hall.append ⟨hhold, trivial⟩⟩
  rw [Ledger.admission_append]
  exact hsim'

end Staked

/-! ### The paid set -/

namespace Paid

variable {H : ℕ → ℕ → ℕ} {z : ℕ} {commitmentOf : ℕ → ℕ → Option ℕ}

/-- One successful call, by a sender. -/
def Step (H : ℕ → ℕ → ℕ) (z : ℕ) (commitmentOf : ℕ → ℕ → Option ℕ) (s : Ledger PaidAccessSet)
    (call : ℕ × Call) (s' : Ledger PaidAccessSet) : Prop :=
  ∃ evs, exec H z commitmentOf s.contract call.1 call.2 = .ok (s'.contract, evs) ∧
    s'.logs = s.logs ++ evs.filterMap Event.toMember

/-- The membership events of a call, if it succeeds. -/
def Call.events : Call → List MemberEvent
  | .insert c _ => [⟨.inserted, c⟩]
  | .insertBatch cs _ => cs.map fun c => ⟨.inserted, c⟩
  | .slash c _ _ => [⟨.paidSlashed, c⟩]
  | .setOperator _ => []
  | .acceptOperator => []

/-- The store can hold what the call writes, leaf after leaf. -/
def Holdable (H : ℕ → ℕ → ℕ) (z : ℕ) (s : Ledger PaidAccessSet) (call : ℕ × Call) : Prop :=
  StorableAll H z (s.admission z) call.2.events

/-- The contract simulates the admission set: same tree, same counters, and the live commitments are the
leaves with a limit. -/
structure Sim (H : ℕ → ℕ → ℕ) (z : ℕ) (S : PaidAccessSet) (A : Admission) : Prop where
  wf : A.WF
  tree : S.tree.Mirrors H z (A.leaf z)
  index : S.nextIndex = A.leaves.length
  count : S.liveCount = A.active
  live : ∀ c i, A.liveIndex c = some i ↔ (S.leaves c).limit ≠ 0 ∧ (S.leaves c).index = i
  tiers : TierTable.Valid S.allowed

lemma Sim.new {S : PaidAccessSet} {sender operator hasher : ℕ} {limits : List ℕ}
    (h : constructor H z sender operator hasher limits = .ok S) : Sim H z S Admission.empty := by
  obtain ⟨hv, hl, hn, hc, ht⟩ := constructor_ok h
  refine ⟨.empty, ?_, hn, hc, fun c i => ?_, hv⟩
  · rw [ht, Admission.leaf, Admission.empty, padded_nil]
    exact Tree.Mirrors.new
  · simp [Admission.empty, hl, Leaf.none]

/-- Writing the leaf record of `c` changes what is live at `c` only. -/
lemma Sim.live_update {S : PaidAccessSet} {A A' : Admission} (h : Sim H z S A) {c : ℕ} {l : Leaf}
    (hother : ∀ c', c' ≠ c → A'.liveIndex c' = A.liveIndex c')
    (hc : ∀ i, A'.liveIndex c = some i ↔ l.limit ≠ 0 ∧ l.index = i) (c' i : ℕ) :
    A'.liveIndex c' = some i ↔
      (update S.leaves c l c').limit ≠ 0 ∧ (update S.leaves c l c').index = i := by
  by_cases hcc : c' = c
  · subst hcc; simpa using hc i
  · rw [hother c' hcc, Function.update_of_ne hcc]
    exact h.live c' i

variable {S S' : PaidAccessSet} {A : Admission}

lemma Sim.insertLeaf (h : Sim H z S A) {c l : ℕ} {ev : Event}
    (hok : insertLeaf H z S c l = .ok (S', ev)) (hs : Storable H z A ⟨.inserted, c⟩) :
    ev.toMember = some ⟨.inserted, c⟩ ∧ Sim H z S' (A.apply z ⟨.inserted, c⟩) := by
  obtain ⟨hallow, hfree, -, rfl, rfl⟩ := insertLeaf_ok hok
  have hl : A.liveIndex c = none := by
    cases hl : A.liveIndex c with
    | none => rfl
    | some i => exact absurd hfree ((h.live c i).mp hl).1
  have happ : A.apply z ⟨.inserted, c⟩ = A.append c := by
    simp [Admission.apply, Topic.isRegistered, hl]
  have hw : written z A ⟨.inserted, c⟩ = some (S.nextIndex, c) := by
    simp [written, Topic.isRegistered, hl, h.index]
  have ht := h.tree.of_some h.wf hw hs
  have htier : l % 2 ^ 32 ≠ 0 := by
    obtain ⟨h₁, h₂⟩ := h.tiers l hallow
    simp only [MAX_LIMIT] at h₂
    omega
  rw [happ] at ht ⊢
  refine ⟨rfl, h.wf.append hl, ht, ?_, ?_, h.live_update (fun c' hc' => ?_) fun i => ?_, h.tiers⟩
  · simp [Admission.append, h.index]
  · simp [Admission.append, h.count]
  · simp [Admission.append, Function.update_of_ne hc']
  · simp only [Admission.append, Function.update_self, Option.some.injEq, h.index]
    exact ⟨fun h₀ => ⟨htier, h₀⟩, fun h₀ => h₀.2⟩

lemma Sim.insertAll (h : Sim H z S A) {batch : List (ℕ × ℕ)} {evs : List Event}
    (hok : insertAll H z S batch = .ok (S', evs))
    (hs : StorableAll H z A (batch.map fun cl => ⟨.inserted, cl.1⟩)) :
    evs.filterMap Event.toMember = batch.map (fun cl => ⟨.inserted, cl.1⟩) ∧
      Sim H z S' (A.applyAll z (batch.map fun cl => ⟨.inserted, cl.1⟩)) := by
  induction batch generalizing S A evs with
  | nil =>
    simp only [Paid.insertAll, Except.ok.injEq, Prod.mk.injEq] at hok
    obtain ⟨rfl, rfl⟩ := hok
    exact ⟨rfl, h⟩
  | cons cl rest ih =>
    obtain ⟨c, l⟩ := cl
    unfold Paid.insertAll at hok
    cases h₁ : Paid.insertLeaf H z S c l with
    | error e => simp [h₁] at hok
    | ok r =>
      obtain ⟨S₁, ev⟩ := r
      simp only [h₁] at hok
      cases h₂ : Paid.insertAll H z S₁ rest with
      | error e => simp [h₂] at hok
      | ok r =>
        obtain ⟨S₂, evs₂⟩ := r
        simp only [h₂, Except.ok.injEq, Prod.mk.injEq] at hok
        obtain ⟨rfl, rfl⟩ := hok
        obtain ⟨hev, hsim₁⟩ := h.insertLeaf h₁ hs.1
        obtain ⟨hevs, hsim₂⟩ := ih hsim₁ h₂ hs.2
        exact ⟨by simp [hev, hevs], hsim₂⟩

lemma Sim.slash (h : Sim H z S A) {c s l : ℕ} {evs : List Event}
    (hok : slash H z commitmentOf S c s l = .ok (S', evs)) (hs : Storable H z A ⟨.paidSlashed, c⟩) :
    evs.filterMap Event.toMember = [⟨.paidSlashed, c⟩] ∧ Sim H z S' (A.apply z ⟨.paidSlashed, c⟩) := by
  obtain ⟨hlive, -, -, -, rfl, rfl⟩ := slash_ok hok
  have hl : A.liveIndex c = some (S.leaves c).index := (h.live c _).mpr ⟨hlive, rfl⟩
  have happ : A.apply z ⟨.paidSlashed, c⟩ = A.vacate z c (S.leaves c).index := by
    simp [Admission.apply, Topic.isRegistered, Topic.isRemoved, hl]
  have hw : written z A ⟨.paidSlashed, c⟩ = some ((S.leaves c).index, z) := by
    simp [written, Topic.isRegistered, Topic.isRemoved, hl]
  have ht := h.tree.of_some h.wf hw hs
  rw [happ] at ht ⊢
  refine ⟨rfl, h.wf.vacate z hl, ht, ?_, ?_, h.live_update (fun c' hc' => ?_) fun i => ?_, h.tiers⟩
  · simp [Admission.vacate, h.index]
  · simp [Admission.vacate, h.count]
  · simp [Admission.vacate, Function.update_of_ne hc']
  · simp [Admission.vacate, Leaf.none]

/-- **One call.** A successful call whose writes the store can hold emits its events and simulates them. -/
theorem Sim.exec (h : Sim H z S A) {sender : ℕ} {call : Call} {evs : List Event}
    (hok : exec H z commitmentOf S sender call = .ok (S', evs)) (hs : StorableAll H z A call.events) :
    evs.filterMap Event.toMember = call.events ∧ Sim H z S' (A.applyAll z call.events) := by
  cases call with
  | insert c l =>
    simp only [Paid.exec, insert_eq_insertAll] at hok
    split_ifs at hok
    exact h.insertAll hok hs
  | insertBatch cs ls =>
    simp only [Paid.exec, insertBatch] at hok
    split_ifs at hok with h₁ h₂
    have hlen : cs.length = ls.length := by
      by_contra hne
      exact h₂ (.inr hne)
    have hmap : (cs.zip ls).map (fun cl => (⟨.inserted, cl.1⟩ : MemberEvent)) =
        cs.map fun c => ⟨.inserted, c⟩ := by
      have hfst : (cs.zip ls).map Prod.fst = cs := List.map_fst_zip hlen.le
      calc (cs.zip ls).map (fun cl => (⟨.inserted, cl.1⟩ : MemberEvent))
          = ((cs.zip ls).map Prod.fst).map fun c => ⟨.inserted, c⟩ := by rw [List.map_map]; rfl
        _ = cs.map fun c => ⟨.inserted, c⟩ := by rw [hfst]
    have := h.insertAll hok (by rw [hmap]; exact hs)
    rwa [hmap] at this
  | slash c s l => exact h.slash hok hs.1
  | setOperator nominee =>
    simp only [Paid.exec, setOperator] at hok
    split_ifs at hok
    simp only [Except.ok.injEq, Prod.mk.injEq] at hok
    obtain ⟨rfl, rfl⟩ := hok
    exact ⟨rfl, h.wf, h.tree, h.index, h.count, h.live, h.tiers⟩
  | acceptOperator =>
    simp only [Paid.exec, acceptOperator] at hok
    split_ifs at hok
    simp only [Except.ok.injEq, Prod.mk.injEq] at hok
    obtain ⟨rfl, rfl⟩ := hok
    exact ⟨rfl, h.wf, h.tree, h.index, h.count, h.live, h.tiers⟩

/-- **Every run.** From the constructor on, over calls whose writes the store can hold, the contract
simulates the set of its events, and all of them are storable. -/
theorem sim_of_run {S₀ : PaidAccessSet} (h₀ : Sim H z S₀ Admission.empty)
    {calls : List (ℕ × Call)} {s : Ledger PaidAccessSet}
    (hrun : Run (Restrict (Step H z commitmentOf) (Holdable H z)) ⟨S₀, []⟩ calls s) :
    Sim H z s.contract (s.admission z) ∧ StorableAll H z Admission.empty s.logs := by
  refine hrun.invariant_state (I := fun s => Sim H z s.contract (s.admission z) ∧
    StorableAll H z Admission.empty s.logs) ?_ ?_
  · exact ⟨h₀, trivial⟩
  rintro t ⟨sender, call⟩ ⟨S', logs'⟩ ⟨hsim, hall⟩ ⟨hhold, evs, hok, hlogs⟩
  obtain ⟨hev, hsim'⟩ := hsim.exec hok hhold
  simp only at hlogs
  subst hlogs
  rw [hev]
  refine ⟨?_, hall.append hhold⟩
  rw [Ledger.admission_append]
  exact hsim'

end Paid

/-! ### The agreement -/

section Agreement

variable {H : ℕ → ℕ → ℕ} {z : ℕ} (L : RLNGroup H z TREE_DEPTH)

/-- The rebuilt root of the logs `logs` is the root `currentRoot`, or `null` exactly when nothing is
active. -/
def RootsAgree (logs : List Log) (currentRoot : ℕ) (noneActive : Prop) : Prop :=
  ∃ root, reconstructRoot L logs = .ok root ∧ (root = none ↔ noneActive) ∧
    ∀ r, root = some r → r = currentRoot

/-- A contract tree that mirrors the set of its storable events agrees with the rebuilt root. -/
lemma rootsAgree_of_mirrors {T : Tree} {es : List MemberEvent} {logs : List Log} {noneActive : Prop}
    (hT : T.Mirrors H z ((Admission.empty.applyAll z es).leaf z)) (hes : StorableAll H z Admission.empty es)
    (hlogs : EmittedAs logs es) (hnone : (Admission.empty.applyAll z es).active = 0 ↔ noneActive) :
    RootsAgree L logs T.currentRoot noneActive := by
  obtain ⟨r, hr, hholds⟩ := reconstructGroup_holds (L := L) hlogs hes.fits none
  refine ⟨r.root, by simp [reconstructRoot, hr, Except.map], ?_, fun x hx => ?_⟩
  · rw [hholds.root, ← hnone]
    split <;> simp_all
  · rw [hholds.root] at hx
    split at hx
    · cases hx
    · rw [hT.root]
      exact (Option.some.inj hx).symm

end Agreement

/-- Nothing is active in the staked set: no bonded member that has not initiated an exit. -/
lemma Staked.Sim.noneActive {H : ℕ → ℕ → ℕ} {z : ℕ} {S : StakedReputationSet} {A : Admission}
    (h : Staked.Sim H z S A) : A.active = 0 ↔ ∀ c, Staked.isActive S c = false := by
  rw [h.wf.active_eq_zero]
  refine forall_congr' fun c => ?_
  rw [Option.eq_none_iff_forall_ne_some]
  simp only [ne_eq, h.live, Staked.isActive]
  simp

lemma Paid.Sim.noneActive {H : ℕ → ℕ → ℕ} {z : ℕ} {S : PaidAccessSet} {A : Admission}
    (h : Paid.Sim H z S A) : A.active = 0 ↔ ∀ c, Paid.limitOf S c = 0 := by
  rw [h.wf.active_eq_zero]
  refine forall_congr' fun c => ?_
  rw [Option.eq_none_iff_forall_ne_some]
  simp only [ne_eq, h.live, Paid.limitOf]
  simp

/-- **The roots agree.** For every run of either contract from its constructor in which the store can hold
every leaf written, and for the logs of that run in any order, the rebuilt root is `currentRoot`, and
`null` exactly when no leaf is active. -/
theorem currentRoot_eq_reconstructRoot (H : ℕ → ℕ → ℕ) (z : ℕ) (L : RLNGroup H z TREE_DEPTH) :
    (∀ (X : Externals) (bond unbonding minUnbonding : ℕ) (limits bonds : List ℕ)
        (S₀ : StakedReputationSet) (calls : List (Block × Staked.Call)) (s : Ledger StakedReputationSet)
        (logs : List Log),
      Staked.constructor H z bond unbonding minUnbonding limits bonds = .ok S₀ →
      Run (Restrict (Staked.Step H z X) (Staked.Holdable H z)) ⟨S₀, []⟩ calls s →
      EmittedAs logs s.logs →
      RootsAgree L logs s.contract.tree.currentRoot (∀ c, Staked.isActive s.contract c = false)) ∧
    (∀ (commitmentOf : ℕ → ℕ → Option ℕ) (sender operator hasher : ℕ) (limits : List ℕ)
        (S₀ : PaidAccessSet) (calls : List (ℕ × Paid.Call)) (s : Ledger PaidAccessSet)
        (logs : List Log),
      Paid.constructor H z sender operator hasher limits = .ok S₀ →
      Run (Restrict (Paid.Step H z commitmentOf) (Paid.Holdable H z)) ⟨S₀, []⟩ calls s →
      EmittedAs logs s.logs →
      RootsAgree L logs s.contract.tree.currentRoot (∀ c, Paid.limitOf s.contract c = 0)) := by
  constructor
  · intro X bond unbonding minUnbonding limits bonds S₀ calls s logs hctor hrun hlogs
    obtain ⟨hsim, hall⟩ := Staked.sim_of_run (Staked.Sim.new hctor) hrun
    exact rootsAgree_of_mirrors L hsim.tree hall hlogs hsim.noneActive
  · intro commitmentOf sender operator hasher limits S₀ calls s logs hctor hrun hlogs
    obtain ⟨hsim, hall⟩ := Paid.sim_of_run (Paid.Sim.new hctor) hrun
    exact rootsAgree_of_mirrors L hsim.tree hall hlogs hsim.noneActive

/-- One registration and one insertion of the commitment `5`. -/
theorem currentRoot_eq_reconstructRoot_five :
    ∃ S₀ S₁ P₀ P₁,
      Staked.constructor PoseidonT3.hash ZERO_VALUE 1 0 0 [] [] = .ok S₀ ∧
      Staked.register PoseidonT3.hash ZERO_VALUE S₀ 5 8 1 = .ok (S₁, [.MemberRegistered 5 0 8]) ∧
      RootsAgree (RLNGroup.ofMembers PoseidonT3.hash ZERO_VALUE TREE_DEPTH) [⟨7, 0, ⟨.registeredV4, 5⟩⟩]
        S₁.tree.currentRoot (∀ c, Staked.isActive S₁ c = false) ∧
      Paid.constructor PoseidonT3.hash ZERO_VALUE 3 0 9 [8] = .ok P₀ ∧
      (Paid.insert PoseidonT3.hash ZERO_VALUE P₀ 3 5 8).map Prod.fst = .ok P₁ ∧
      RootsAgree (RLNGroup.ofMembers PoseidonT3.hash ZERO_VALUE TREE_DEPTH) [⟨7, 0, ⟨.inserted, 5⟩⟩]
        P₁.tree.currentRoot (∀ c, Paid.limitOf P₁ c = 0) := by
  have hpath : PathNonzero PoseidonT3.hash (fun _ => ZERO_VALUE) 0 5 := by
    have hclimb : ∀ l < TREE_DEPTH, climb PoseidonT3.hash
        (nodeAt PoseidonT3.hash ZERO_VALUE fun _ _ => 0) 0 5 l ≠ 0 := by decide +kernel
    intro l hl
    rw [← climb_eq_node _ _ _ _ _ fun m hm => Tree.Mirrors.new.store m (hm.trans hl)]
    exact hclimb l hl
  have hst : ∀ t : Topic, t.isRegistered = true →
      Storable PoseidonT3.hash ZERO_VALUE Admission.empty ⟨t, 5⟩ := by
    intro t ht i v hw
    obtain ⟨rfl, rfl⟩ : 0 = i ∧ 5 = v := by simpa [written, ht, Admission.empty] using hw
    exact ⟨by decide, by simpa [Admission.leaf, Admission.empty, padded_nil] using hpath⟩
  refine ⟨_, _, _, _, rfl, rfl, ?_, rfl, rfl, ?_⟩
  · exact (currentRoot_eq_reconstructRoot _ _ _).1 ⟨fun _ _ _ _ => true, fun _ _ => none⟩ 1 0 0 [] [] _
      [(⟨1, by decide, by decide⟩, .register 5 8 1)] ⟨_, [⟨.registeredV4, 5⟩]⟩ _ rfl
      (Run.single ⟨hst _ rfl, _, rfl, rfl⟩) ⟨_, List.pairwise_singleton _ _, rfl, .refl _⟩
  · exact (currentRoot_eq_reconstructRoot _ _ _).2 (fun _ _ => none) 3 0 9 [8] _
      [(3, .insert 5 8)] ⟨_, [⟨.inserted, 5⟩]⟩ _ rfl
      (Run.single ⟨⟨hst _ rfl, trivial⟩, _, rfl, rfl⟩) ⟨_, List.pairwise_singleton _ _, rfl, .refl _⟩

/-- A registration of the commitment `0`, then one of `1`: the contract reads the leaf `0` back as the
empty leaf, the rebuilt tree keeps it. -/
theorem roots_differ_after_zero_commitment :
    ∃ S₀ S₁ S₂,
      Staked.constructor PoseidonT3.hash ZERO_VALUE 1 0 0 [] [] = .ok S₀ ∧
      Staked.register PoseidonT3.hash ZERO_VALUE S₀ 0 8 1 = .ok (S₁, [.MemberRegistered 0 0 8]) ∧
      Staked.register PoseidonT3.hash ZERO_VALUE S₁ 1 8 1 = .ok (S₂, [.MemberRegistered 1 1 8]) ∧
      ∀ L : RLNGroup PoseidonT3.hash ZERO_VALUE TREE_DEPTH,
        ¬ RootsAgree L [⟨7, 0, ⟨.registeredV4, 0⟩⟩, ⟨7, 1, ⟨.registeredV4, 1⟩⟩] S₂.tree.currentRoot
          (∀ c, Staked.isActive S₂ c = false) := by
  refine ⟨_, _, _, rfl, rfl, rfl, fun L ⟨root, hroot, _, hsome⟩ => ?_⟩
  have hlogs : EmittedAs [⟨7, 0, ⟨.registeredV4, 0⟩⟩, ⟨7, 1, ⟨.registeredV4, 1⟩⟩]
      [⟨.registeredV4, 0⟩, ⟨.registeredV4, 1⟩] := ⟨_, by simp [Log.Before], rfl, .refl _⟩
  obtain ⟨r, hr, hholds⟩ := reconstructGroup_holds (L := L) hlogs
    ⟨fun _ _ => (by decide), fun _ _ => (by decide), trivial⟩ none
  have hrebuilt : root = some (levelRoot PoseidonT3.hash TREE_DEPTH ZERO_VALUE [0, 1]) := by
    rw [levelRoot_eq_node]
    have : root = r.root := by simpa [reconstructRoot, hr, Except.map] using hroot.symm
    rw [this, hholds.root]
    rfl
  exact absurd (hsome _ hrebuilt) (by decide +kernel)

end ShadeTree.Contracts
