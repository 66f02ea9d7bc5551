import Mathlib.Data.List.Sort
import Mathlib.Data.Finset.Card
import ShadeTree.Lib.MerkleTree

/-!
# The tree rebuilt from the event log (`lib/root-provider.mjs`, `reconstructGroup`)

`reconstructGroup` sorts the membership logs of a contract by block and log index and replays them on
the RLN group: a register log appends a leaf, a removal log zeroes the leaf in place at its original
index.  The group itself comes from a package (`rlnjs` over the incremental tree of `zk-kit`) and is a
parameter here, `RLNGroup`, with what that package documents as its laws.

The replay is compared with `Admission`, the abstract admission set: the list of leaves ever appended,
the live index of each commitment and the number of live commitments.
-/

namespace ShadeTree.Roots

open ShadeTree.Lib
open ShadeTree.Lib.MerkleTree (node padded)

/-! ### Logs -/

/-- The event topics the provider knows (`TOPIC`); `other` stands for any other `topic0`. -/
inductive Topic where
  | registered | registeredV4 | exiting | withdrawn | slashed | slashedV4
  | inserted | deposit | paidSlashed | other
  deriving DecidableEq, Repr

/-- `REGISTERED_TOPICS.has`. -/
def Topic.isRegistered : Topic → Bool
  | .registered | .registeredV4 | .inserted | .deposit => true
  | _ => false

/-- `REMOVED_TOPICS.has`. -/
def Topic.isRemoved : Topic → Bool
  | .exiting | .withdrawn | .slashed | .slashedV4 | .paidSlashed => true
  | _ => false

/-- What a membership event says: its topic and its indexed commitment. -/
structure MemberEvent where
  topic : Topic
  commitment : ℕ
  deriving DecidableEq, Repr

/-- A log as `eth_getLogs` returns it, its numbers decoded: `event` holds `topics[0]` and `topics[1]`. -/
structure Log where
  blockNumber : ℕ
  logIndex : ℕ
  event : MemberEvent
  deriving DecidableEq, Repr

/-- The order of `reconstructGroup`'s comparator: by block, then by log index. -/
def Log.le (a b : Log) : Prop :=
  a.blockNumber < b.blockNumber ∨ a.blockNumber = b.blockNumber ∧ a.logIndex ≤ b.logIndex

instance : DecidableRel Log.le := fun a b =>
  inferInstanceAs (Decidable (a.blockNumber < b.blockNumber ∨
    a.blockNumber = b.blockNumber ∧ a.logIndex ≤ b.logIndex))

instance : Std.Total Log.le := ⟨fun a b => by simp only [Log.le]; omega⟩

instance : IsTrans Log Log.le := ⟨fun a b c => by simp only [Log.le]; omega⟩

/-! ### The group of the RLN package -/

/-- The part of `RLNGroup` the replay uses, and what its package documents of it: a new group is empty,
`addMember` appends unless the tree is full, `removeMember` zeroes in place, and the root is that of the
binary tree of the given depth in which a missing sibling counts as the empty subtree of its level. -/
structure RLNGroup (H : ℕ → ℕ → ℕ) (z depth : ℕ) where
  Group : Type
  new : Group
  members : Group → List ℕ
  root : Group → ℕ
  addMember : Group → ℕ → Except String Group
  removeMember : Group → ℕ → Except String Group
  members_new : members new = []
  addMember_ok : ∀ g c, (members g).length < 2 ^ depth →
    ∃ g', addMember g c = .ok g' ∧ members g' = members g ++ [c]
  addMember_full : ∀ g c, 2 ^ depth ≤ (members g).length → ∃ e, addMember g c = .error e
  removeMember_ok : ∀ g i, i < (members g).length →
    ∃ g', removeMember g i = .ok g' ∧ members g' = (members g).set i z
  root_eq : ∀ g, root g = node H (padded z (members g)) depth 0

/-- The group as its list of members. -/
def RLNGroup.ofMembers (H : ℕ → ℕ → ℕ) (z depth : ℕ) : RLNGroup H z depth where
  Group := List ℕ
  new := []
  members := id
  root := MerkleTree.levelRoot H depth z
  addMember g c := if g.length < 2 ^ depth then .ok (g ++ [c]) else .error "The tree is full"
  removeMember g i :=
    if i < g.length then .ok (g.set i z) else .error "The leaf does not exist in this tree"
  members_new := rfl
  addMember_ok g c h := ⟨g ++ [c], if_pos h, rfl⟩
  addMember_full _ _ h := ⟨_, if_neg (Nat.not_lt.mpr h)⟩
  removeMember_ok g i h := ⟨g.set i z, if_pos h, rfl⟩
  root_eq g := MerkleTree.levelRoot_eq_node H depth z g

/-! ### The replay -/

section Replay

variable {H : ℕ → ℕ → ℕ} {z depth : ℕ} (L : RLNGroup H z depth)

/-- The variables of the loop of `reconstructGroup`. -/
structure Replay where
  g : L.Group
  liveIndex : ℕ → Option ℕ
  active : ℕ
  transitions : List (Option ℕ)

def Replay.new : Replay L := ⟨L.new, fun _ => none, 0, []⟩

variable {L}

/-- `active === 0 ? null : g.root`. -/
def Replay.root (r : Replay L) : Option ℕ := if r.active = 0 then none else some (L.root r.g)

/-- Records the root after an applied mutation at or after `trackFrom` (`none` is `POSITIVE_INFINITY`). -/
def Replay.changed (trackFrom : Option ℕ) (position : ℕ) (r : Replay L) : Replay L :=
  match trackFrom with
  | none => r
  | some p => if p ≤ position then { r with transitions := r.transitions ++ [r.root] } else r

/-- One iteration of the loop, for the log at `position`. -/
def Replay.step (trackFrom : Option ℕ) (position : ℕ) (r : Replay L) (e : MemberEvent) :
    Except String (Replay L) :=
  if e.topic.isRegistered then
    match r.liveIndex e.commitment with
    | some _ => .ok r
    | none =>
      match L.addMember r.g e.commitment with
      | .error msg => .error msg
      | .ok g =>
        .ok (Replay.changed trackFrom position
          { r with
            g := g
            liveIndex := Function.update r.liveIndex e.commitment (some (L.members r.g).length)
            active := r.active + 1 })
  else if e.topic.isRemoved then
    match r.liveIndex e.commitment with
    | none => .ok r
    | some idx =>
      match L.removeMember r.g idx with
      | .error msg => .error msg
      | .ok g =>
        .ok (Replay.changed trackFrom position
          { r with
            g := g
            liveIndex := Function.update r.liveIndex e.commitment none
            active := r.active - 1 })
  else .ok r

/-- The loop of `reconstructGroup` from `position` on. -/
def Replay.loop (trackFrom : Option ℕ) : ℕ → Replay L → List MemberEvent → Except String (Replay L)
  | _, r, [] => .ok r
  | position, r, e :: es =>
    match r.step trackFrom position e with
    | .error msg => .error msg
    | .ok r' => Replay.loop trackFrom (position + 1) r' es

variable (L)

/-- `reconstructGroup(logs, { trackFrom })`. -/
def reconstructGroup (trackFrom : Option ℕ) (logs : List Log) : Except String (Replay L) :=
  Replay.loop trackFrom 0 (Replay.new L) ((logs.insertionSort Log.le).map Log.event)

/-- `reconstructRoot(logs)`: the root alone, `none` for an empty admission set. -/
def reconstructRoot (logs : List Log) : Except String (Option ℕ) :=
  (reconstructGroup L none logs).map Replay.root

end Replay

/-! ### The abstract admission set -/

/-- The admission set: the leaves ever appended, the live commitments with their indices, and how many
they are. -/
structure Admission where
  leaves : List ℕ
  liveIndex : ℕ → Option ℕ
  active : ℕ

namespace Admission

def empty : Admission := ⟨[], fun _ => none, 0⟩

/-- Appends the leaf `c`. -/
def append (A : Admission) (c : ℕ) : Admission :=
  ⟨A.leaves ++ [c], Function.update A.liveIndex c (some A.leaves.length), A.active + 1⟩

/-- Zeroes the leaf of `c`, which is live at `i`. -/
def vacate (z : ℕ) (A : Admission) (c i : ℕ) : Admission :=
  ⟨A.leaves.set i z, Function.update A.liveIndex c none, A.active - 1⟩

/-- What an event does to the set. -/
def apply (z : ℕ) (A : Admission) (e : MemberEvent) : Admission :=
  if e.topic.isRegistered then
    if (A.liveIndex e.commitment).isSome then A else A.append e.commitment
  else if e.topic.isRemoved then
    match A.liveIndex e.commitment with
    | none => A
    | some i => A.vacate z e.commitment i
  else A

/-- The set after the events of a list. -/
def applyAll (z : ℕ) (A : Admission) (es : List MemberEvent) : Admission := es.foldl (Admission.apply z) A

/-- Every leaf the events append finds room in the tree. -/
def Fits (z depth : ℕ) : Admission → List MemberEvent → Prop
  | _, [] => True
  | A, e :: es =>
    (e.topic.isRegistered = true → A.liveIndex e.commitment = none → A.leaves.length < 2 ^ depth) ∧
      Fits z depth (A.apply z e) es

/-- The leaf function of the tree over the set. -/
def leaf (z : ℕ) (A : Admission) : ℕ → ℕ := padded z A.leaves

/-- A live index points into the leaves, and `active` counts the live commitments. -/
structure WF (A : Admission) : Prop where
  live_lt : ∀ c i, A.liveIndex c = some i → i < A.leaves.length
  count : ∃ S : Finset ℕ, S.card = A.active ∧ ∀ c, c ∈ S ↔ (A.liveIndex c).isSome

lemma WF.empty : WF Admission.empty :=
  ⟨fun _ _ h => by simp [Admission.empty] at h, ∅, by simp [Admission.empty]⟩

lemma WF.append {A : Admission} (h : A.WF) {c : ℕ} (hc : A.liveIndex c = none) : (A.append c).WF := by
  obtain ⟨S, hS, hm⟩ := h.count
  refine ⟨fun c' i hi => ?_, insert c S, ?_, fun c' => ?_⟩
  · simp only [Admission.append, List.length_append, List.length_singleton] at hi ⊢
    by_cases hcc : c' = c
    · subst hcc
      simp only [Function.update_self, Option.some.injEq] at hi
      omega
    · rw [Function.update_of_ne hcc] at hi
      have := h.live_lt _ _ hi
      omega
  · have hcS : c ∉ S := by rw [hm, hc]; simp
    simp [Admission.append, Finset.card_insert_of_notMem hcS, hS]
  · by_cases hcc : c' = c
    · subst hcc; simp [Admission.append]
    · simp [Admission.append, hm, hcc]

lemma WF.vacate {A : Admission} (h : A.WF) (z : ℕ) {c i : ℕ} (hc : A.liveIndex c = some i) :
    (A.vacate z c i).WF := by
  obtain ⟨S, hS, hm⟩ := h.count
  refine ⟨fun c' j hj => ?_, S.erase c, ?_, fun c' => ?_⟩
  · simp only [Admission.vacate, List.length_set] at hj ⊢
    by_cases hcc : c' = c
    · subst hcc; simp at hj
    · rw [Function.update_of_ne hcc] at hj
      exact h.live_lt _ _ hj
  · have hcS : c ∈ S := by rw [hm, hc]; simp
    simp [Admission.vacate, Finset.card_erase_of_mem hcS, hS]
  · by_cases hcc : c' = c
    · subst hcc; simp [Admission.vacate]
    · simp [Admission.vacate, hm, hcc]

lemma WF.apply {A : Admission} (h : A.WF) (z : ℕ) (e : MemberEvent) : (A.apply z e).WF := by
  unfold Admission.apply
  split
  · split
    · exact h
    · next hn => exact h.append (by simpa using hn)
  · split
    · split
      · exact h
      · next hs => exact h.vacate z hs
    · exact h

/-- The set is empty exactly when no commitment is live. -/
lemma WF.active_eq_zero {A : Admission} (h : A.WF) : A.active = 0 ↔ ∀ c, A.liveIndex c = none := by
  obtain ⟨S, hS, hm⟩ := h.count
  rw [← hS, Finset.card_eq_zero, Finset.eq_empty_iff_forall_notMem]
  simp [hm]

end Admission

/-! ### The replay computes the abstract set -/

section Refine

variable {H : ℕ → ℕ → ℕ} {z depth : ℕ} {L : RLNGroup H z depth}

/-- The replay holds the abstract set `A`. -/
structure Holds (r : Replay L) (A : Admission) : Prop where
  members : L.members r.g = A.leaves
  liveIndex : r.liveIndex = A.liveIndex
  active : r.active = A.active

lemma Holds.new : Holds (Replay.new L) Admission.empty := ⟨L.members_new, rfl, rfl⟩

lemma Holds.changed {r : Replay L} {A : Admission} (h : Holds r A) (tf : Option ℕ) (p : ℕ) :
    Holds (r.changed tf p) A := by
  unfold Replay.changed
  split
  · exact h
  · split
    · exact ⟨h.members, h.liveIndex, h.active⟩
    · exact h

lemma Holds.root {r : Replay L} {A : Admission} (h : Holds r A) :
    r.root = if A.active = 0 then none else some (node H (A.leaf z) depth 0) := by
  unfold Replay.root Admission.leaf
  rw [h.active, L.root_eq, h.members]

/-- One iteration follows the abstract set as long as the tree is not full. -/
lemma Holds.step {r : Replay L} {A : Admission} (h : Holds r A) (hA : A.WF) (tf : Option ℕ) (p : ℕ)
    (e : MemberEvent)
    (hroom : e.topic.isRegistered = true → A.liveIndex e.commitment = none →
      A.leaves.length < 2 ^ depth) :
    ∃ r', r.step tf p e = .ok r' ∧ Holds r' (A.apply z e) := by
  unfold Replay.step Admission.apply
  rw [h.liveIndex]
  by_cases hreg : e.topic.isRegistered = true
  · simp only [hreg, if_true]
    cases hl : A.liveIndex e.commitment with
    | some i => exact ⟨r, rfl, by simpa using h⟩
    | none =>
      obtain ⟨g, hg, hm⟩ := L.addMember_ok r.g e.commitment (by
        rw [h.members]; exact hroom hreg hl)
      simp only [hg]
      refine ⟨_, rfl, Holds.changed ⟨?_, ?_, ?_⟩ tf p⟩
      · simp [hm, h.members, Admission.append]
      · simp [h.members, Admission.append]
      · simp [h.active, Admission.append]
  · simp only [hreg]
    by_cases hrem : e.topic.isRemoved = true
    · simp only [hrem, if_true]
      cases hl : A.liveIndex e.commitment with
      | none => exact ⟨r, rfl, by simpa using h⟩
      | some i =>
        obtain ⟨g, hg, hm⟩ := L.removeMember_ok r.g i (by
          rw [h.members]; exact hA.live_lt _ _ hl)
        simp only [hg]
        refine ⟨_, rfl, Holds.changed ⟨?_, ?_, ?_⟩ tf p⟩
        · simp [hm, h.members, Admission.vacate]
        · simp [Admission.vacate]
        · simp [h.active, Admission.vacate]
    · exact ⟨r, by simp [hrem], by simpa [hrem] using h⟩

/-- The replay of a list of events that fits the tree. -/
lemma Holds.loop {r : Replay L} {A : Admission} (h : Holds r A) (hA : A.WF) (tf : Option ℕ) (p : ℕ)
    (es : List MemberEvent) (hfit : A.Fits z depth es) :
    ∃ r', Replay.loop tf p r es = .ok r' ∧ Holds r' (A.applyAll z es) := by
  induction es generalizing r A p with
  | nil => exact ⟨r, rfl, h⟩
  | cons e es ih =>
    obtain ⟨r₁, hr₁, h₁⟩ := h.step hA tf p e hfit.1
    unfold Replay.loop
    rw [hr₁]
    exact ih h₁ (hA.apply z e) (p + 1) hfit.2

/-! ### The order of the logs -/

/-- The position of a log in the chain comes strictly before that of another. -/
def Log.Before (a b : Log) : Prop :=
  a.blockNumber < b.blockNumber ∨ a.blockNumber = b.blockNumber ∧ a.logIndex < b.logIndex

/-- `logs` are the events `es` of a chain, each at its own position, returned in any order. -/
def EmittedAs (logs : List Log) (es : List MemberEvent) : Prop :=
  ∃ chain : List Log, chain.Pairwise Log.Before ∧ chain.map Log.event = es ∧ logs.Perm chain

/-- Sorting brings the logs back into the order of the chain. -/
lemma EmittedAs.sorted {logs : List Log} {es : List MemberEvent} (h : EmittedAs logs es) :
    (logs.insertionSort Log.le).map Log.event = es := by
  obtain ⟨chain, hchain, rfl, hperm⟩ := h
  have hle : chain.Pairwise Log.le := hchain.imp fun hab => by
    simp only [Log.Before] at hab
    simp only [Log.le]
    omega
  -- two logs of the chain at one position are the same log
  have hne : ∀ {x y}, Log.Before x y → Log.le x y → Log.le y x → x = y := by
    intro x y hxy _ hle
    simp only [Log.Before, Log.le] at hxy hle
    omega
  have hinj := (hchain.imp hne).forall_of_forall_of_flip (fun _ _ _ _ => rfl)
    (hchain.imp fun hxy hle hle' => (hne hxy hle' hle).symm)
  have hsort : (logs.insertionSort Log.le).Perm chain := (List.perm_insertionSort Log.le logs).trans hperm
  rw [hsort.eq_of_pairwise (fun a b ha hb => hinj (hsort.mem_iff.mp ha) hb)
    (List.pairwise_insertionSort Log.le logs) hle]

/-- **The replay.** On the logs of a chain whose leaves fit the tree, `reconstructGroup` succeeds and holds
the admission set of the events. -/
theorem reconstructGroup_holds {logs : List Log} {es : List MemberEvent} (h : EmittedAs logs es)
    (hfit : Admission.empty.Fits z depth es) (tf : Option ℕ) :
    ∃ r, reconstructGroup L tf logs = .ok r ∧ Holds r (Admission.empty.applyAll z es) := by
  unfold reconstructGroup
  rw [h.sorted]
  exact Holds.new.loop .empty tf 0 es hfit

end Refine

end ShadeTree.Roots
