import Mathlib
import ShadeTree.Contracts.RootAgreement
import ShadeTree.Roots.InStep

/-!
# The root in the slot and the root of the replay, block by block

The light provider reads `currentRoot` out of the storage of a contract, the node provider replays its events.  Calls
are mined in blocks here, and both providers are polled at blocks in between.  The two agree whenever a member is live.
On an empty set the contract keeps the root of the empty tree, which the replay gives as no root at all.
-/

namespace ShadeTree.Contracts

open Function (update update_self update_of_ne)
open ShadeTree.Lib ShadeTree.Lib.MerkleTree ShadeTree.Roots

/-! ### What the events say of the tree -/

section Events

variable (H : ℕ → ℕ → ℕ) (z : ℕ)

/-- No inner node that the event makes the contract hash is 0. -/
def HashesNonzero (A : Admission) (e : MemberEvent) : Prop :=
  ∀ i v, written z A e = some (i, v) → ∀ l, 0 < l → l ≤ TREE_DEPTH → node H (update (A.leaf z) i v) l (i / 2 ^ l) ≠ 0

def HashesNonzeroAll : Admission → List MemberEvent → Prop
  | _, [] => True
  | A, e :: es => HashesNonzero H z A e ∧ HashesNonzeroAll (A.apply z e) es

/-- How many registrations the events are. -/
def registrations (es : List MemberEvent) : ℕ := (es.filter fun e => e.topic.isRegistered).length

/-- The events of a history: nonzero commitments, no more registrations than the tree has leaves, and no inner node
that hashes to 0. -/
structure Admissible (es : List MemberEvent) : Prop where
  nonzero : ∀ e ∈ es, e.topic.isRegistered = true → e.commitment ≠ 0
  capacity : registrations es ≤ 2 ^ TREE_DEPTH
  hashes : HashesNonzeroAll H z Admission.empty es

variable {H z} {A : Admission} {e : MemberEvent} {es es' : List MemberEvent}

lemma registrations_cons (e : MemberEvent) (es : List MemberEvent) :
    registrations (e :: es) = (if e.topic.isRegistered then 1 else 0) + registrations es := by
  unfold registrations
  rw [List.filter_cons]
  split
  · simp only [List.length_cons]
    omega
  · simp

lemma length_apply (A : Admission) (e : MemberEvent) :
    (A.apply z e).leaves.length ≤ A.leaves.length + if e.topic.isRegistered then 1 else 0 := by
  unfold Admission.apply
  by_cases hreg : e.topic.isRegistered = true
  · cases A.liveIndex e.commitment <;> simp [hreg, Admission.append]
  · cases A.liveIndex e.commitment <;> by_cases hrem : e.topic.isRemoved = true <;>
      simp [hreg, hrem, Admission.vacate]

lemma storable_of_hashesNonzero (hz : z ≠ 0) (hA : A.WF) (hnonzero : e.topic.isRegistered = true → e.commitment ≠ 0)
    (hroom : A.leaves.length + (if e.topic.isRegistered then 1 else 0) ≤ 2 ^ TREE_DEPTH)
    (hhash : HashesNonzero H z A e) : Storable H z A e := by
  intro i v hw
  have hiv : i < 2 ^ TREE_DEPTH ∧ v ≠ 0 := by
    unfold written at hw
    by_cases hreg : e.topic.isRegistered = true
    · simp only [hreg, if_true] at hw hroom
      split at hw
      · cases hw
      · obtain ⟨rfl, rfl⟩ := Prod.mk.inj (Option.some.inj hw)
        exact ⟨by omega, hnonzero hreg⟩
    · simp only [hreg, Bool.false_eq_true, if_false] at hw hroom
      split at hw
      · cases hl : A.liveIndex e.commitment with
        | none => simp [hl] at hw
        | some j =>
          simp only [hl, Option.map_some, Option.some.injEq, Prod.mk.injEq] at hw
          obtain ⟨rfl, rfl⟩ := hw
          have := hA.live_lt _ _ hl
          exact ⟨by omega, hz⟩
      · cases hw
  refine ⟨hiv.1, fun l hl => ?_⟩
  cases l with
  | zero => simpa [node] using hiv.2
  | succ l => exact hhash i v hw (l + 1) (Nat.succ_pos l) hl.le

/-- Admissible events are storable. -/
lemma storableAll_of_hashesNonzero (hz : z ≠ 0) (hA : A.WF)
    (hnonzero : ∀ e ∈ es, e.topic.isRegistered = true → e.commitment ≠ 0)
    (hroom : A.leaves.length + registrations es ≤ 2 ^ TREE_DEPTH) (hhash : HashesNonzeroAll H z A es) :
    StorableAll H z A es := by
  induction es generalizing A with
  | nil => trivial
  | cons e es ih =>
    rw [registrations_cons] at hroom
    have hlen := length_apply (z := z) A e
    refine ⟨storable_of_hashesNonzero hz hA (hnonzero e List.mem_cons_self) (by omega) hhash.1, ?_⟩
    exact ih (hA.apply z e) (fun e' he' => hnonzero e' (List.mem_cons_of_mem _ he')) (by omega) hhash.2

lemma HashesNonzeroAll.of_append (h : HashesNonzeroAll H z A (es ++ es')) : HashesNonzeroAll H z A es := by
  induction es generalizing A with
  | nil => trivial
  | cons e es ih => exact ⟨h.1, ih h.2⟩

lemma Admissible.of_append (h : Admissible H z (es ++ es')) : Admissible H z es := by
  refine ⟨fun e he => h.nonzero e (List.mem_append_left _ he), ?_, h.hashes.of_append⟩
  have hcap := h.capacity
  unfold registrations at hcap ⊢
  rw [List.filter_append, List.length_append] at hcap
  omega

lemma Admissible.storableAll (hz : z ≠ 0) (h : Admissible H z es) : StorableAll H z Admission.empty es :=
  storableAll_of_hashesNonzero hz .empty h.nonzero (by simpa [Admission.empty] using h.capacity) h.hashes

lemma StorableAll.of_append (h : StorableAll H z A (es ++ es')) :
    StorableAll H z A es ∧ StorableAll H z (A.applyAll z es) es' := by
  induction es generalizing A with
  | nil => exact ⟨trivial, h⟩
  | cons e es ih => exact ⟨⟨h.1, (ih h.2).1⟩, (ih h.2).2⟩

/-- Every leaf is the empty one or belongs to a live commitment. -/
def Occupied (z : ℕ) (A : Admission) : Prop := ∀ i, A.leaf z i = z ∨ ∃ c, A.liveIndex c = some i

/-- The root of the tree is not 0. -/
def RootNonzero (H : ℕ → ℕ → ℕ) (z : ℕ) (A : Admission) : Prop := node H (A.leaf z) TREE_DEPTH 0 ≠ 0

lemma Occupied.apply (h : Occupied z A) (hA : A.WF) (e : MemberEvent) : Occupied z (A.apply z e) := by
  intro i
  rw [leaf_apply hA]
  unfold written Admission.apply
  by_cases hreg : e.topic.isRegistered = true
  · cases hl : A.liveIndex e.commitment with
    | some j => simpa [hreg] using h i
    | none =>
      simp only [hreg, if_true, Option.isSome_none, Bool.false_eq_true, if_false]
      by_cases hi : i = A.leaves.length
      · subst hi
        exact .inr ⟨e.commitment, by simp [Admission.append]⟩
      · rw [update_of_ne hi]
        refine (h i).imp_right ?_
        rintro ⟨c, hc⟩
        have hne : c ≠ e.commitment := by
          rintro rfl
          rw [hl] at hc
          cases hc
        exact ⟨c, by simpa [Admission.append, update_of_ne hne] using hc⟩
  · by_cases hrem : e.topic.isRemoved = true
    · cases hl : A.liveIndex e.commitment with
      | none => simpa [hreg, hrem] using h i
      | some j =>
        simp only [hreg, hrem, if_true, Bool.false_eq_true, if_false, Option.map_some]
        by_cases hi : i = j
        · subst hi
          exact .inl (update_self _ _ _)
        · rw [update_of_ne hi]
          refine (h i).imp_right ?_
          rintro ⟨c, hc⟩
          have hne : c ≠ e.commitment := by
            rintro rfl
            rw [hl] at hc
            exact hi (Option.some.inj hc).symm
          exact ⟨c, by simpa [Admission.vacate, update_of_ne hne] using hc⟩
    · simpa [hreg, hrem] using h i

lemma RootNonzero.apply (h : RootNonzero H z A) (hA : A.WF) (hst : Storable H z A e) (hhash : HashesNonzero H z A e) :
    RootNonzero H z (A.apply z e) := by
  unfold RootNonzero
  rw [leaf_apply hA]
  cases hw : written z A e with
  | none => exact h
  | some iv =>
    obtain ⟨i, v⟩ := iv
    have htop := hhash i v hw TREE_DEPTH (by decide) le_rfl
    rwa [Nat.div_eq_of_lt (hst i v hw).1] at htop

/-- What holds of the set after admissible events. -/
lemma applyAll_facts (hA : A.WF) (hocc : Occupied z A) (hroot : RootNonzero H z A) (hst : StorableAll H z A es)
    (hhash : HashesNonzeroAll H z A es) :
    (A.applyAll z es).WF ∧ Occupied z (A.applyAll z es) ∧ RootNonzero H z (A.applyAll z es) := by
  induction es generalizing A with
  | nil => exact ⟨hA, hocc, hroot⟩
  | cons e es ih => exact ih (hA.apply z e) (hocc.apply hA e) (hroot.apply hA hst.1 hhash.1) hst.2 hhash.2

/-- A set in which nothing is live has the tree without leaves. -/
lemma Occupied.root_empty (h : Occupied z A) (hA : A.WF) (hnone : A.active = 0) :
    node H (A.leaf z) TREE_DEPTH 0 = zeroes H z TREE_DEPTH := by
  refine node_eq_zeroes H _ z TREE_DEPTH 0 fun i _ _ => ?_
  rcases h i with hz | ⟨c, hc⟩
  · exact hz
  · rw [hA.active_eq_zero.mp hnone c] at hc
    cases hc

end Events

/-! ### Calls mined in blocks -/

/-- A contract with the events and the logs of its calls, and the block of the last one. -/
structure OnChain (σ : Type*) where
  ledger : Ledger σ
  logs : List Log
  block : ℕ

/-- A call mined in a block; its logs come after all others. -/
structure MinedIn {σ ε : Type*} (step : Ledger σ → ε → Ledger σ → Prop) (s : OnChain σ) (e : ℕ × ε) (s' : OnChain σ) :
    Prop where
  call : step s.ledger e.2 s'.ledger
  logs : ∃ new : List Log, s'.logs = s.logs ++ new ∧ s'.ledger.logs = s.ledger.logs ++ new.map Log.event ∧
    ∀ l ∈ new, l.blockNumber = e.1
  order : s'.logs.Pairwise Log.Before
  later : s.block ≤ e.1
  block : s'.block = e.1

/-- The contract as its constructor leaves it. -/
def deployed {σ : Type*} (S₀ : σ) (block : ℕ) : OnChain σ := ⟨⟨S₀, []⟩, [], block⟩

/-- In the history that ends in `s`, the state after the block `b` is `t`. -/
def StateAt {σ ε : Type*} (step : Ledger σ → ε → Ledger σ → Prop) (s₀ s : OnChain σ) (b : ℕ) (t : OnChain σ) : Prop :=
  ∃ tr tr', Run (MinedIn step) s₀ tr t ∧ Run (MinedIn step) t tr' s ∧ (∀ e ∈ tr, e.1 ≤ b) ∧ ∀ e ∈ tr', b < e.1

section Mined

variable {σ ε : Type*} {step : Ledger σ → ε → Ledger σ → Prop} {s₀ s t : OnChain σ} {tr : List (ℕ × ε)} {S₀ : σ}
  {b start : ℕ}

/-- A run adds logs, each in the block of one of its calls. -/
lemma mined_logs (h : Run (MinedIn step) s tr t) :
    ∃ new, t.logs = s.logs ++ new ∧ t.ledger.logs = s.ledger.logs ++ new.map Log.event ∧
      ∀ l ∈ new, ∃ e ∈ tr, l.blockNumber = e.1 := by
  induction h with
  | nil => exact ⟨[], by simp, by simp, by simp⟩
  | @snoc tr t u e _ hst ih =>
    obtain ⟨new, hlogs, hevents, hblocks⟩ := ih
    obtain ⟨new', hlogs', hevents', hblocks'⟩ := hst.logs
    refine ⟨new ++ new', by rw [hlogs', hlogs, List.append_assoc], ?_, fun l hl => ?_⟩
    · rw [hevents', hevents, List.map_append, List.append_assoc]
    · rcases List.mem_append.mp hl with hl | hl
      · obtain ⟨e', he', hb⟩ := hblocks l hl
        exact ⟨e', List.mem_append_left _ he', hb⟩
      · exact ⟨e, by simp, hblocks' l hl⟩

lemma mined_blocks (h : Run (MinedIn step) s tr t) : s.block ≤ t.block ∧ ∀ e ∈ tr, s.block ≤ e.1 := by
  induction h with
  | nil => exact ⟨le_rfl, by simp⟩
  | @snoc tr t u e _ hst ih =>
    have hle := ih.1.trans hst.later
    refine ⟨hst.block ▸ hle, fun e' he' => ?_⟩
    rcases List.mem_append.mp he' with he' | he'
    · exact ih.2 e' he'
    · rw [List.mem_singleton.mp he']
      exact hle

lemma mined_sorted (h : Run (MinedIn step) (deployed S₀ b) tr t) : t.logs.Pairwise Log.Before := by
  cases h with
  | nil => exact .nil
  | snoc _ hst => exact hst.order

lemma mined_calls (h : Run (MinedIn step) s tr t) : Run step s.ledger (tr.map Prod.snd) t.ledger := by
  induction h with
  | nil => exact .nil
  | snoc _ hst ih =>
    rw [List.map_append]
    exact ih.snoc hst.call

/-- The logs up to a block are those of the state there, and all of its events. -/
lemma StateAt.logs (h : StateAt step (deployed S₀ start) s b t) {first : ℕ} (hfirst : first ≤ start) :
    between s.logs first b = t.logs ∧ t.logs.map Log.event = t.ledger.logs ∧
      ∃ later, s.ledger.logs = t.ledger.logs ++ later := by
  obtain ⟨tr, tr', hrun, hrun', hle, hlt⟩ := h
  obtain ⟨new, hlogs, hevents, hblocks⟩ := mined_logs hrun
  obtain ⟨new', hlogs', hevents', hblocks'⟩ := mined_logs hrun'
  simp only [deployed, List.nil_append] at hlogs hevents
  refine ⟨?_, by rw [hevents, hlogs], _, hevents'⟩
  have hin : between t.logs first b = t.logs := by
    refine List.filter_eq_self.mpr fun l hl => decide_eq_true ?_
    obtain ⟨e, he, hb⟩ := hblocks l (hlogs ▸ hl)
    have hafter := (mined_blocks hrun).2 e he
    exact ⟨hfirst.trans (hb ▸ hafter), hb ▸ hle e he⟩
  have hout : between new' first b = [] := by
    refine List.filter_eq_nil_iff.mpr fun l hl => ?_
    obtain ⟨e, he, hb⟩ := hblocks' l hl
    have := hlt e he
    simp only [decide_eq_true_eq]
    omega
  calc between s.logs first b = between t.logs first b ++ between new' first b := by
        rw [hlogs', between, List.filter_append]
        rfl
    _ = t.logs := by rw [hin, hout, List.append_nil]

lemma mined_after (h : Run (MinedIn step) (deployed S₀ start) tr s) {first : ℕ} (hfirst : first ≤ start) :
    ∀ l ∈ s.logs, first ≤ l.blockNumber := by
  intro l hl
  obtain ⟨new, hlogs, -, hblocks⟩ := mined_logs h
  simp only [deployed, List.nil_append] at hlogs
  obtain ⟨e, he, hb⟩ := hblocks l (hlogs ▸ hl)
  have hafter : start ≤ e.1 := (mined_blocks h).2 e he
  omega

end Mined

/-! ### Either contract keeps the root of the replay in its slot -/

section Slot

variable {H : ℕ → ℕ → ℕ} {z : ℕ} (L : RLNGroup H z TREE_DEPTH) {σ ε : Type*} (tree : σ → Tree) (noneActive : σ → Prop)

/-- The tree of the contract is that of the set its events make up. -/
structure KeepsSet (s : Ledger σ) : Prop where
  mirrors : (tree s.contract).Mirrors H z ((s.admission z).leaf z)
  noneActive : (s.admission z).active = 0 ↔ noneActive s.contract

variable {tree noneActive} {step : Ledger σ → ε → Ledger σ → Prop} {S₀ : σ} {start : ℕ} {s : OnChain σ}

/-- What a replay of the logs up to a block gives, next to the slot. -/
lemma KeepsSet.root_at {t : OnChain σ} {b first : ℕ} (hkeeps : KeepsSet (H := H) (z := z) tree noneActive t.ledger)
    (hz : z ≠ 0) (hempty : zeroes H z TREE_DEPTH ≠ 0) (hadm : Admissible H z s.ledger.logs)
    (hat : StateAt step (deployed S₀ start) s b t) (hsorted : t.logs.Pairwise Log.Before) (hfirst : first ≤ start) :
    (tree t.ledger.contract).currentRoot ≠ 0 ∧
      ∀ root, reconstructRoot L (between s.logs first b) = .ok root →
        (¬ noneActive t.ledger.contract ∧ root = some (tree t.ledger.contract).currentRoot) ∨
          (noneActive t.ledger.contract ∧ root = none ∧
            (tree t.ledger.contract).currentRoot = zeroes H z TREE_DEPTH) := by
  obtain ⟨hlogs, hevents, later, hsplit⟩ := hat.logs hfirst
  have hpart : Admissible H z t.ledger.logs := by
    rw [hsplit] at hadm
    exact hadm.of_append
  have hstorable := hpart.storableAll hz
  obtain ⟨hwf, hocc, hroot⟩ := applyAll_facts (H := H) Admission.WF.empty
    (fun i => .inl (by simp [Admission.leaf, Admission.empty, padded_nil]))
    (by
      unfold RootNonzero
      rw [show Admission.empty.leaf z = fun _ => z from padded_nil z, node_eq_zeroes H _ z TREE_DEPTH 0 fun _ _ _ => rfl]
      exact hempty) hstorable hpart.hashes
  have hslot : (tree t.ledger.contract).currentRoot = node H ((t.ledger.admission z).leaf z) TREE_DEPTH 0 :=
    hkeeps.mirrors.root
  refine ⟨hslot ▸ hroot, fun root hreplayed => ?_⟩
  have hemitted : EmittedAs (between s.logs first b) t.ledger.logs :=
    ⟨t.logs, hsorted, hevents, hlogs ▸ List.Perm.refl _⟩
  obtain ⟨r, hr, hholds⟩ := reconstructGroup_holds (L := L) hemitted hstorable.fits none
  have hrroot : r.root = root := by simpa [reconstructRoot, hr, Except.map] using hreplayed
  rw [← hrroot, hholds.root]
  by_cases hnone : noneActive t.ledger.contract
  · have hzero := hkeeps.noneActive.mpr hnone
    exact .inr ⟨hnone, if_pos hzero, hslot.trans (hocc.root_empty hwf hzero)⟩
  · have hlive : ¬ (t.ledger.admission z).active = 0 := fun h => hnone (hkeeps.noneActive.mp h)
    exact .inl ⟨hnone, (if_neg hlive).trans (congrArg some hslot.symm)⟩

end Slot

/-! ### Both contracts simulate their events -/

namespace Staked

variable {H : ℕ → ℕ → ℕ} {z : ℕ} {X : Externals}

lemma exec_event {S S' : StakedReputationSet} {b : Block} {call : Call} {evs : List Event}
    (hok : exec H z X S b call = .ok (S', evs)) : evs.map Event.toMember = [call.event] := by
  cases call with
  | register c l v =>
    obtain ⟨-, -, -, -, -, rfl⟩ := register_ok hok
    rfl
  | initiateExit c π =>
    obtain ⟨-, -, -, -, -, rfl⟩ := initiateExit_ok hok
    rfl
  | withdraw c r π paid =>
    obtain ⟨-, -, -, -, -, -, rfl⟩ := withdraw_ok hok
    rfl
  | slash c s l r paid =>
    obtain ⟨-, -, -, -, -, -, rfl⟩ := slash_ok hok
    rfl

/-- A run whose events the store can hold keeps the set of its events. -/
lemma keepsSet {S₀ : StakedReputationSet} (h₀ : Sim H z S₀ Admission.empty) {calls : List (Block × Call)}
    {s : Ledger StakedReputationSet} (hrun : Run (Step H z X) ⟨S₀, []⟩ calls s)
    (hall : StorableAll H z Admission.empty s.logs) :
    KeepsSet (H := H) (z := z) StakedReputationSet.tree (fun S => ∀ c, isActive S c = false) s := by
  have hsim : StorableAll H z Admission.empty s.logs → Sim H z s.contract (s.admission z) := by
    refine hrun.invariant_state (I := fun s => StorableAll H z Admission.empty s.logs → Sim H z s.contract (s.admission z))
      (fun _ => h₀) ?_
    rintro t ⟨b, call⟩ ⟨S', logs'⟩ ih ⟨evs, hok, hlogs⟩ hall
    simp only at hlogs
    subst hlogs
    rw [exec_event hok] at hall ⊢
    obtain ⟨hbefore, hnext, -⟩ := hall.of_append
    rw [Ledger.admission_append]
    exact ((ih hbefore).exec hok hnext).2
  exact ⟨(hsim hall).tree, (hsim hall).noneActive⟩

end Staked

namespace Paid

variable {H : ℕ → ℕ → ℕ} {z : ℕ} {commitmentOf : ℕ → ℕ → Option ℕ}

lemma insertAll_events {S S' : PaidAccessSet} {batch : List (ℕ × ℕ)} {evs : List Event}
    (hok : insertAll H z S batch = .ok (S', evs)) :
    evs.filterMap Event.toMember = batch.map fun cl => ⟨.inserted, cl.1⟩ := by
  induction batch generalizing S S' evs with
  | nil =>
    simp only [insertAll, Except.ok.injEq, Prod.mk.injEq] at hok
    obtain ⟨-, rfl⟩ := hok
    rfl
  | cons cl rest ih =>
    obtain ⟨c, l⟩ := cl
    unfold insertAll at hok
    cases h₁ : insertLeaf H z S c l with
    | error e => simp [h₁] at hok
    | ok r =>
      obtain ⟨S₁, ev⟩ := r
      simp only [h₁] at hok
      cases h₂ : insertAll H z S₁ rest with
      | error e => simp [h₂] at hok
      | ok r =>
        obtain ⟨S₂, evs₂⟩ := r
        simp only [h₂, Except.ok.injEq, Prod.mk.injEq] at hok
        obtain ⟨-, rfl⟩ := hok
        obtain ⟨-, -, -, -, rfl⟩ := insertLeaf_ok h₁
        simp [ih h₂, Event.toMember]

lemma exec_events {S S' : PaidAccessSet} {sender : ℕ} {call : Call} {evs : List Event}
    (hok : exec H z commitmentOf S sender call = .ok (S', evs)) :
    evs.filterMap Event.toMember = call.events := by
  cases call with
  | insert c l =>
    simp only [exec, insert_eq_insertAll] at hok
    split_ifs at hok
    exact insertAll_events hok
  | insertBatch cs ls =>
    simp only [exec, insertBatch] at hok
    split_ifs at hok with h₁ h₂
    have hlen : cs.length = ls.length := by
      by_contra hne
      exact h₂ (.inr hne)
    have hfst : (cs.zip ls).map Prod.fst = cs := List.map_fst_zip hlen.le
    calc evs.filterMap Event.toMember = (cs.zip ls).map fun cl => ⟨.inserted, cl.1⟩ := insertAll_events hok
      _ = ((cs.zip ls).map Prod.fst).map fun c => ⟨.inserted, c⟩ := by
        rw [List.map_map]
        rfl
      _ = cs.map fun c => ⟨.inserted, c⟩ := by rw [hfst]
  | slash c s l =>
    obtain ⟨-, -, -, -, -, rfl⟩ := slash_ok hok
    rfl
  | setOperator nominee =>
    simp only [exec, setOperator] at hok
    split_ifs at hok
    obtain ⟨-, rfl⟩ := Prod.mk.inj (Except.ok.inj hok)
    rfl
  | acceptOperator =>
    simp only [exec, acceptOperator] at hok
    split_ifs at hok
    obtain ⟨-, rfl⟩ := Prod.mk.inj (Except.ok.inj hok)
    rfl

/-- A run whose events the store can hold keeps the set of its events. -/
lemma keepsSet {S₀ : PaidAccessSet} (h₀ : Sim H z S₀ Admission.empty) {calls : List (ℕ × Call)}
    {s : Ledger PaidAccessSet} (hrun : Run (Step H z commitmentOf) ⟨S₀, []⟩ calls s)
    (hall : StorableAll H z Admission.empty s.logs) :
    KeepsSet (H := H) (z := z) PaidAccessSet.tree (fun S => ∀ c, limitOf S c = 0) s := by
  have hsim : StorableAll H z Admission.empty s.logs → Sim H z s.contract (s.admission z) := by
    refine hrun.invariant_state (I := fun s => StorableAll H z Admission.empty s.logs → Sim H z s.contract (s.admission z))
      (fun _ => h₀) ?_
    rintro t ⟨sender, call⟩ ⟨S', logs'⟩ ih ⟨evs, hok, hlogs⟩ hall
    simp only at hlogs
    subst hlogs
    rw [exec_events hok] at hall ⊢
    obtain ⟨hbefore, hnext⟩ := hall.of_append
    rw [Ledger.admission_append]
    exact ((ih hbefore).exec hok hnext).2
  exact ⟨(hsim hall).tree, (hsim hall).noneActive⟩

end Paid

/-! ### The two providers -/

/-- The root of the tree without leaves. -/
def emptyRoot : ℕ := zeroes PoseidonT3.hash ZERO_VALUE TREE_DEPTH

/-- The slot of `currentRoot` after a block of the history. -/
def SlotAt {σ ε : Type*} (step : Ledger σ → ε → Ledger σ → Prop) (tree : σ → Tree) (s₀ s : OnChain σ)
    (b value : ℕ) : Prop :=
  ∃ t, StateAt step s₀ s b t ∧ value = (tree t.ledger.contract).currentRoot

/-- **What a poll of both providers must show** where the contract's root is `currentRoot`.  With a live member both
report that root; with none the node provider reports no root, the light provider the root of the empty tree.  Without
a cap they accept the same roots, but for the empty tree's at the one and those passed between polls at the other. -/
structure ProvidersAgree (cfg : RingConfig) (noneActive : Prop) (currentRoot : ℕ) (a : Answer NodeInfo)
    (b : Answer LightInfo) (tw : Twin) : Prop where
  live : ¬ noneActive → tw.node.provider.ring.current = some (toString currentRoot) ∧
    tw.light.provider.ring.current = some (toString currentRoot) ∧
    a.snapshot.roots.head? = some (toString currentRoot) ∧ b.snapshot.roots.head? = some (toString currentRoot)
  empty : noneActive → tw.node.provider.ring.current = none ∧
    tw.light.provider.ring.current = some (toString emptyRoot) ∧
    b.snapshot.roots.head? = some (toString emptyRoot)
  accepted : cfg.maxRoots = none → (∀ x ∈ b.snapshot.roots, x = toString emptyRoot ∨ x ∈ a.snapshot.roots) ∧
    ∀ x ∈ a.snapshot.roots, x ∈ b.snapshot.roots ∨ x ∈ tw.passed

section Agree

variable {keccak256 : Bytes → Vector UInt8 32} {decodeRlp : Bytes → Except String Rlp}
  {L : RLNGroup PoseidonT3.hash ZERO_VALUE TREE_DEPTH} {cfg : RingConfig} {S : ScanConfig} {C : LightConfig}
  {finalized : Bool} {σ ε : Type*} {step : Ledger σ → ε → Ledger σ → Prop} {tree : σ → Tree}
  {S₀ : σ} {start : ℕ} {s : OnChain σ} {tw tw' : Twin} {q : TwinPoll} {a : Answer NodeInfo} {b : Answer LightInfo}

lemma zero_value_ne_zero : ZERO_VALUE ≠ 0 := by decide

lemma emptyRoot_ne_zero : emptyRoot ≠ 0 := by
  unfold emptyRoot
  decide +kernel

/-- Polls of a contract that keeps the set of its events. -/
lemma agree_of_keepsSet (noneActive : σ → Prop)
    (hkeeps : ∀ (calls : List ε) (l : Ledger σ), Run step ⟨S₀, []⟩ calls l →
      StorableAll PoseidonT3.hash ZERO_VALUE Admission.empty l.logs →
      KeepsSet (H := PoseidonT3.hash) (z := ZERO_VALUE) tree noneActive l)
    {tr : List (ℕ × ε)} (hrun : Run (MinedIn step) (deployed S₀ start) tr s)
    (hadm : Admissible PoseidonT3.hash ZERO_VALUE s.ledger.logs) (hstart : S.startBlock ≤ start)
    (hproof : C.storageat = false) {clock : ℤ} {polls : List (TwinPoll × Answer NodeInfo × Answer LightInfo)}
    (hpolls : Run (TwinStep keccak256 decodeRlp L cfg S C finalized s.logs (SlotAt step tree (deployed S₀ start) s))
      (Twin.start clock) polls tw)
    (hst : TwinStep keccak256 decodeRlp L cfg S C finalized s.logs (SlotAt step tree (deployed S₀ start) s) tw
      (q, a, b) tw') :
    ∃ t, StateAt step (deployed S₀ start) s q.head t ∧
      ProvidersAgree cfg (noneActive t.ledger.contract) (tree t.ledger.contract).currentRoot a b tw' := by
  have hat : ∀ h t, StateAt step (deployed S₀ start) s h t → (tree t.ledger.contract).currentRoot ≠ 0 ∧
      ∀ root, reconstructRoot L (between s.logs S.startBlock h) = .ok root →
        (¬ noneActive t.ledger.contract ∧ root = some (tree t.ledger.contract).currentRoot) ∨
          (noneActive t.ledger.contract ∧ root = none ∧ (tree t.ledger.contract).currentRoot = emptyRoot) := by
    intro h t ht
    obtain ⟨tr₁, tr₂, hrun₁, -, -, -⟩ := id ht
    obtain ⟨-, -, later, hsplit⟩ := ht.logs hstart
    have hpart : Admissible PoseidonT3.hash ZERO_VALUE t.ledger.logs := by
      rw [hsplit] at hadm
      exact hadm.of_append
    have hset := hkeeps _ _ (mined_calls hrun₁) (hpart.storableAll zero_value_ne_zero)
    exact hset.root_at L zero_value_ne_zero emptyRoot_ne_zero hadm ht (mined_sorted hrun₁) hstart
  have hslot : SlotFollows L S s.logs (SlotAt step tree (deployed S₀ start) s) emptyRoot := by
    rintro h value ⟨t, ht, rfl⟩
    obtain ⟨hne, hroots⟩ := hat h t ht
    refine ⟨hne, fun root hroot => ?_⟩
    rcases hroots root hroot with ⟨-, hlive⟩ | ⟨-, hnone, hvalue⟩
    · exact .inl hlive
    · exact .inr ⟨hnone, hvalue⟩
  obtain ⟨value, ⟨t, ht, rfl⟩, hagrees⟩ :=
    InStep.run (mined_sorted hrun) (mined_after hrun hstart) hslot hproof hpolls hst
  obtain ⟨root, hroot, hcurrent, hhead, -⟩ := hagrees.node
  have hroots := (hat q.head t ht).2 root hroot
  refine ⟨t, ht, ⟨fun hlive => ?_, fun hnone => ?_, hagrees.accepted⟩⟩
  · rcases hroots with ⟨-, rfl⟩ | ⟨hnone, -, -⟩
    · exact ⟨hcurrent, hagrees.light.1, hhead _ rfl, hagrees.light.2⟩
    · exact absurd hnone hlive
  · rcases hroots with ⟨hlive, -⟩ | ⟨-, rfl, hvalue⟩
    · exact absurd hnone hlive
    · rw [← hvalue]
      exact ⟨hcurrent, hagrees.light.1, hagrees.light.2⟩

end Agree

/-- **The providers agree.** In every history of either contract, polled at blocks that do not go back, both providers
report the contract's root whenever a member is live. -/
theorem providers_agree (keccak256 : Bytes → Vector UInt8 32) (decodeRlp : Bytes → Except String Rlp)
    (L : RLNGroup PoseidonT3.hash ZERO_VALUE TREE_DEPTH) (cfg : RingConfig) (S : ScanConfig) (C : LightConfig)
    (hproof : C.storageat = false) (finalized : Bool) (start : ℕ) (hstart : S.startBlock ≤ start) (clock : ℤ) :
    (∀ (X : Externals) (bond unbonding minUnbonding : ℕ) (limits bonds : List ℕ) (S₀ : StakedReputationSet)
        (tr : List (ℕ × Block × Staked.Call)) (s : OnChain StakedReputationSet)
        (polls : List (TwinPoll × Answer NodeInfo × Answer LightInfo)) (tw tw' : Twin) (q : TwinPoll)
        (a : Answer NodeInfo) (b : Answer LightInfo),
      Staked.constructor PoseidonT3.hash ZERO_VALUE bond unbonding minUnbonding limits bonds = .ok S₀ →
      Run (MinedIn (Staked.Step PoseidonT3.hash ZERO_VALUE X)) (deployed S₀ start) tr s →
      Admissible PoseidonT3.hash ZERO_VALUE s.ledger.logs →
      Run (TwinStep keccak256 decodeRlp L cfg S C finalized s.logs
        (SlotAt (Staked.Step PoseidonT3.hash ZERO_VALUE X) StakedReputationSet.tree (deployed S₀ start) s))
        (Twin.start clock) polls tw →
      TwinStep keccak256 decodeRlp L cfg S C finalized s.logs
        (SlotAt (Staked.Step PoseidonT3.hash ZERO_VALUE X) StakedReputationSet.tree (deployed S₀ start) s)
        tw (q, a, b) tw' →
      ∃ t, StateAt (Staked.Step PoseidonT3.hash ZERO_VALUE X) (deployed S₀ start) s q.head t ∧
        ProvidersAgree cfg (∀ c, Staked.isActive t.ledger.contract c = false) t.ledger.contract.tree.currentRoot a b tw') ∧
    (∀ (commitmentOf : ℕ → ℕ → Option ℕ) (sender operator hasher : ℕ) (limits : List ℕ) (S₀ : PaidAccessSet)
        (tr : List (ℕ × ℕ × Paid.Call)) (s : OnChain PaidAccessSet)
        (polls : List (TwinPoll × Answer NodeInfo × Answer LightInfo)) (tw tw' : Twin) (q : TwinPoll)
        (a : Answer NodeInfo) (b : Answer LightInfo),
      Paid.constructor PoseidonT3.hash ZERO_VALUE sender operator hasher limits = .ok S₀ →
      Run (MinedIn (Paid.Step PoseidonT3.hash ZERO_VALUE commitmentOf)) (deployed S₀ start) tr s →
      Admissible PoseidonT3.hash ZERO_VALUE s.ledger.logs →
      Run (TwinStep keccak256 decodeRlp L cfg S C finalized s.logs
        (SlotAt (Paid.Step PoseidonT3.hash ZERO_VALUE commitmentOf) PaidAccessSet.tree (deployed S₀ start) s))
        (Twin.start clock) polls tw →
      TwinStep keccak256 decodeRlp L cfg S C finalized s.logs
        (SlotAt (Paid.Step PoseidonT3.hash ZERO_VALUE commitmentOf) PaidAccessSet.tree (deployed S₀ start) s)
        tw (q, a, b) tw' →
      ∃ t, StateAt (Paid.Step PoseidonT3.hash ZERO_VALUE commitmentOf) (deployed S₀ start) s q.head t ∧
        ProvidersAgree cfg (∀ c, Paid.limitOf t.ledger.contract c = 0) t.ledger.contract.tree.currentRoot a b tw') := by
  constructor
  · intro X bond unbonding minUnbonding limits bonds S₀ tr s polls tw tw' q a b hctor hrun hadm hpolls hst
    exact agree_of_keepsSet (fun S => ∀ c, Staked.isActive S c = false)
      (fun calls l hcalls hall => Staked.keepsSet (Staked.Sim.new hctor) hcalls hall) hrun hadm hstart hproof hpolls hst
  · intro commitmentOf sender operator hasher limits S₀ tr s polls tw tw' q a b hctor hrun hadm hpolls hst
    exact agree_of_keepsSet (fun S => ∀ c, Paid.limitOf S c = 0)
      (fun calls l hcalls hall => Paid.keepsSet (Paid.Sim.new hctor) hcalls hall) hrun hadm hstart hproof hpolls hst

/-! ### A history with one member, and one with none -/

def sampleAddr : Bytes := List.replicate 20 0x11

/-- The hash of `sampleAddr`. -/
def sampleAddrHash : Vector UInt8 32 :=
  #v[226, 192, 116, 4, 184, 193, 223, 76, 70, 34, 100, 37, 202, 198, 140, 40, 210, 122, 118, 107, 189, 220, 230, 35, 9,
    243, 103, 36, 131, 155, 34, 192]

def sampleCodeHash : Bytes :=
  [26, 87, 139, 122, 75, 11, 87, 85, 219, 109, 18, 27, 65, 24, 212, 188, 104, 254, 23, 13, 202, 132, 12, 89, 188, 146,
    47, 20, 23, 90, 118, 176]

/-- The root after the one registration of the commitment 5. -/
def sampleRoot : ℕ := 21228236656887282786713991450911344350377179334197510594626891462305976029872

/-- A storage trie with the value in slot 3 has this one node, and the state over it this one. -/
def storageNode (value : ℕ) : Rlp :=
  .list [.str (0x20 :: slotThreeHash.toList), .str (Rlp.str (bigEndian value)).encode]

def accountNode (storageHash : Bytes) : Rlp := .list [.str [1, 1], .str [], .str storageHash, .str sampleCodeHash]

def stateNode (storageHash : Bytes) : Rlp :=
  .list [.str (0x20 :: sampleAddrHash.toList), .str (accountNode storageHash).encode]

def sampleStorageHash : Vector UInt8 32 :=
  #v[247, 123, 107, 248, 2, 169, 90, 113, 101, 193, 177, 35, 223, 152, 235, 148, 119, 204, 212, 249, 99, 64, 25, 123,
    131, 194, 249, 178, 54, 3, 106, 90]

def emptyStorageHash : Vector UInt8 32 :=
  #v[101, 28, 66, 37, 201, 199, 105, 255, 152, 118, 196, 80, 21, 213, 96, 104, 48, 239, 221, 47, 78, 69, 96, 84, 65, 44,
    115, 146, 195, 194, 27, 145]

/-- `keccak256` on what the samples hash. -/
def sampleHash (bytes : Bytes) : Vector UInt8 32 :=
  if bytes = sampleAddr then sampleAddrHash
  else if bytes = slotKey 3 then slotThreeHash
  else if bytes = (storageNode sampleRoot).encode then sampleStorageHash
  else if bytes = (storageNode emptyRoot).encode then emptyStorageHash
  else if bytes = (stateNode sampleStorageHash.toList).encode then
    #v[21, 57, 148, 35, 43, 85, 59, 55, 123, 251, 161, 162, 146, 251, 118, 75, 176, 199, 38, 116, 78, 198, 250, 112, 18,
      246, 30, 68, 90, 25, 249, 23]
  else if bytes = (stateNode emptyStorageHash.toList).encode then
    #v[154, 37, 218, 149, 112, 27, 105, 10, 182, 5, 187, 175, 52, 97, 220, 221, 149, 33, 220, 83, 44, 19, 65, 96, 89, 64,
      105, 103, 153, 88, 252, 207]
  else Vector.replicate 32 0

/-- The state in which slot 3 holds the value. -/
def sampleWorld (value : ℕ) : Roots.World where
  storage := soleTrie sampleHash (slotKey 3) (Rlp.str (bigEndian value)).encode
  state := soleTrie sampleHash sampleAddr (accountNode
    ((soleTrie sampleHash (slotKey 3) (Rlp.str (bigEndian value)).encode).trie.root sampleHash)).encode
  nonce := [1, 1]
  balance := []
  codeHash := sampleCodeHash

/-- `decodeRlp` on what the samples decode. -/
def decodeSample (w : Roots.World) (value : ℕ) (bytes : Bytes) : Except String Rlp :=
  if bytes = (Rlp.str (bigEndian value)).encode then .ok (.str (bigEndian value))
  else if bytes = (w.storage.trie.item sampleHash).encode then .ok (w.storage.trie.item sampleHash)
  else if bytes = (w.account sampleHash).encode then .ok (w.account sampleHash)
  else if bytes = (w.state.trie.item sampleHash).encode then .ok (w.state.trie.item sampleHash)
  else .error "invalid rlp data"

def sampleLight : LightConfig := ⟨sampleAddr, ROOT_STORAGE_SLOT, false, "http://127.0.0.1:8545", "rpc header"⟩

/-- What the light provider is answered at block 5. -/
def sampleReads (value : ℕ) : LightReads where
  tag := .ok "finalized"
  trustedStateRoot := none
  header := .ok (some ⟨(sampleWorld value).state.trie.root sampleHash, 5⟩)
  storageAt := .ok none
  proof := .ok (some ⟨honestProof sampleHash (sampleWorld value).state sampleAddr, none, some value,
    honestProof sampleHash (sampleWorld value).storage (slotKey 3)⟩)

/-- A poll at block 5 of a chain whose slot holds the value. -/
def samplePoll (chain : List Log) (value : ℕ) : TwinPoll :=
  ⟨0, 0, 5, fun _ a b => .ok (between chain a b), sampleReads value⟩

section Sample

variable {value : ℕ} {chain : List Log} {rootAt : ℕ → ℕ → Prop}

lemma sampleWorld_holds (hne : value ≠ 0) : (sampleWorld value).Holds sampleHash sampleLight value := by
  refine ⟨sole_get, ?_⟩
  rw [if_neg hne]
  exact sole_get

/-- The four items that are decoded, with the encodings of different lengths. -/
def sampleLengths (value : ℕ) : List ℕ :=
  [(Rlp.str (bigEndian value)).encode.length, ((sampleWorld value).storage.trie.item sampleHash).encode.length,
    ((sampleWorld value).account sampleHash).encode.length, ((sampleWorld value).state.trie.item sampleHash).encode.length]

lemma sample_readable (value : ℕ) (h : (sampleLengths value).Nodup) :
    (sampleWorld value).Readable sampleHash (decodeSample (sampleWorld value) value) sampleLight value := by
  have hne : ∀ {x y : Bytes}, x.length ≠ y.length → y ≠ x := fun h hxy => h (by rw [hxy])
  simp only [sampleLengths, List.nodup_cons, List.mem_cons, List.not_mem_nil, or_false, not_or] at h
  obtain ⟨⟨h₁, h₂, h₄⟩, ⟨h₃, h₅⟩, h₆, -⟩ := h
  refine ⟨sole_decode ?_, sole_decode ?_, ?_, ?_, sole_injOn, sole_injOn⟩
  · show decodeSample (sampleWorld value) value ((sampleWorld value).state.trie.item sampleHash).encode = _
    simp only [decodeSample, hne h₄, hne h₅, hne h₆, if_false, if_true]
    rfl
  · show decodeSample (sampleWorld value) value ((sampleWorld value).storage.trie.item sampleHash).encode = _
    simp only [decodeSample, hne h₁, if_false, if_true]
    rfl
  · simp only [decodeSample, hne h₂, hne h₃, if_false, if_true]
  · simp only [decodeSample, if_true]

/-- A poll of the sample. -/
lemma sample_step (hroot : rootAt 5 value) (hne : value ≠ 0)
    (hread : (sampleWorld value).Readable sampleHash (decodeSample (sampleWorld value) value) sampleLight value)
    {a : Answer NodeInfo} {node : Session NodeProvider}
    (hnode : callNode deployedGroup ⟨none, 60000⟩ (Twin.start 0).node
      ((samplePoll chain value).nodeCall sampleScan true NodeProvider.new) = (node, .ok a)) (hfresh : a.stale = false) :
    ∃ b tw', TwinStep sampleHash (decodeSample (sampleWorld value) value) deployedGroup ⟨none, 60000⟩ sampleScan sampleLight
        true chain rootAt (Twin.start 0) (samplePoll chain value, a, b) tw' ∧ tw'.node = node ∧
      tw'.light.provider.ring.current = some (toString value) := by
  have hanswered : (sampleWorld value).Answered sampleHash sampleLight value 5 true (sampleReads value) :=
    ⟨⟨"finalized", rfl, rfl⟩, .inl rfl, rfl, _, _, rfl, .inl rfl, .inr rfl⟩
  obtain ⟨info, hlight⟩ := LightConfig.read_honest rfl (sampleWorld_holds hne) hread hanswered
  have hrpc : ((samplePoll chain value).lightCall sampleHash (decodeSample (sampleWorld value) value) sampleLight).rpc =
      .ok (toRoot value, info) := hlight
  obtain ⟨light, b, hcall⟩ : ∃ light b, callLight ⟨none, 60000⟩ (Twin.start 0).light
      ((samplePoll chain value).lightCall sampleHash (decodeSample (sampleWorld value) value) sampleLight) =
      (light, .ok b) := by
    simp only [callLight, LightProvider.currentRoots, LightProvider.fetchFresh, hrpc, withCache]
    exact ⟨_, _, rfl⟩
  refine ⟨b, ⟨node, light, 5, _⟩, ⟨⟨le_rfl, le_rfl, hnode⟩, hfresh, ⟨le_rfl, le_rfl, hcall⟩, ?_,
    ⟨sampleWorld value, value, hroot, sampleWorld_holds hne, hread, hanswered⟩, Nat.zero_le _, rfl, rfl⟩, rfl, ?_⟩
  · rintro n a b logs h
    obtain rfl := Except.ok.inj h
    exact List.Perm.refl _
  · obtain ⟨hring, -, -⟩ := callLight_ok hrpc hcall
    show light.provider.ring.current = some (toString value)
    rw [hring, Ring.current_push, toRoot, if_neg hne]
    exact normRoot_toString (some value)

end Sample

lemma sampleBlock_pos : 0 < 1 := by decide

lemma sampleBlock_lt : 1 < 2 ^ 64 := by decide

/-- The block of the one registration. -/
def sampleBlock : Block := ⟨1, sampleBlock_pos, sampleBlock_lt⟩

def sampleLog : Log := ⟨5, 0, ⟨.registeredV4, 5⟩⟩

lemma sample_admissible : Admissible PoseidonT3.hash ZERO_VALUE [sampleLog.event] := by
  have hclimb : ∀ l < TREE_DEPTH + 1, climb PoseidonT3.hash
      (nodeAt PoseidonT3.hash ZERO_VALUE fun _ _ => 0) 0 5 l ≠ 0 := by decide +kernel
  refine ⟨fun e he _ => ?_, by decide, ⟨fun i v hw l _ hl => ?_, trivial⟩⟩
  · rw [List.mem_singleton.mp he]
    decide
  · obtain ⟨rfl, rfl⟩ : 0 = i ∧ 5 = v := by
      simpa [written, sampleLog, Topic.isRegistered, Admission.empty] using hw
    rw [show Admission.empty.leaf ZERO_VALUE = fun _ => ZERO_VALUE from padded_nil _,
      ← climb_eq_node PoseidonT3.hash _ _ _ _ fun m hm => Tree.Mirrors.new.store m (hm.trans_le hl)]
    exact hclimb l (by omega)

/-- A poll after the registration of one member. -/
theorem providers_agree_once :
    ∃ S₀ S₁ a b tw', Staked.constructor PoseidonT3.hash ZERO_VALUE 1 0 0 [] [] = .ok S₀ ∧
      Staked.register PoseidonT3.hash ZERO_VALUE S₀ 5 8 1 = .ok (S₁, [.MemberRegistered 5 0 8]) ∧
      TwinStep sampleHash (decodeSample (sampleWorld sampleRoot) sampleRoot) deployedGroup ⟨none, 60000⟩ sampleScan
        sampleLight true [sampleLog]
        (SlotAt (Staked.Step PoseidonT3.hash ZERO_VALUE ⟨fun _ _ _ _ => true, fun _ _ => none⟩) StakedReputationSet.tree
          (deployed S₀ 5) ⟨⟨S₁, [sampleLog.event]⟩, [sampleLog], 5⟩)
        (Twin.start 0) (samplePoll [sampleLog] sampleRoot, a, b) tw' ∧
      ∃ t, StateAt (Staked.Step PoseidonT3.hash ZERO_VALUE ⟨fun _ _ _ _ => true, fun _ _ => none⟩) (deployed S₀ 5)
          ⟨⟨S₁, [sampleLog.event]⟩, [sampleLog], 5⟩ 5 t ∧
        ProvidersAgree ⟨none, 60000⟩ (∀ c, Staked.isActive t.ledger.contract c = false)
          t.ledger.contract.tree.currentRoot a b tw' := by
  obtain ⟨S₀, hctor⟩ : ∃ S₀, Staked.constructor PoseidonT3.hash ZERO_VALUE 1 0 0 [] [] = .ok S₀ := ⟨_, rfl⟩
  obtain ⟨S₁, hregister, hvalue⟩ : ∃ S₁, Staked.register PoseidonT3.hash ZERO_VALUE S₀ 5 8 1 =
      .ok (S₁, [.MemberRegistered 5 0 8]) ∧ sampleRoot = S₁.tree.currentRoot := by
    obtain rfl := (Except.ok.inj hctor).symm
    exact ⟨_, rfl, by decide +kernel⟩
  have hrun : Run (MinedIn (Staked.Step PoseidonT3.hash ZERO_VALUE ⟨fun _ _ _ _ => true, fun _ _ => none⟩))
      (deployed S₀ 5) [(5, sampleBlock, .register 5 8 1)] ⟨⟨S₁, [sampleLog.event]⟩, [sampleLog], 5⟩ :=
    Run.single ⟨⟨_, hregister, rfl⟩, ⟨[sampleLog], rfl, rfl, by simp [sampleLog]⟩, List.pairwise_singleton _ _, le_rfl, rfl⟩
  have hslot : SlotAt (Staked.Step PoseidonT3.hash ZERO_VALUE ⟨fun _ _ _ _ => true, fun _ _ => none⟩)
      StakedReputationSet.tree (deployed S₀ 5) ⟨⟨S₁, [sampleLog.event]⟩, [sampleLog], 5⟩ 5 sampleRoot :=
    ⟨_, ⟨_, [], hrun, .nil, by simp, by simp⟩, hvalue⟩
  obtain ⟨node, a, hnode, hfresh⟩ : ∃ node a, callNode deployedGroup ⟨none, 60000⟩ (Twin.start 0).node
      ((samplePoll [sampleLog] sampleRoot).nodeCall sampleScan true NodeProvider.new) = (node, .ok a) ∧
      a.stale = false := ⟨_, _, rfl, rfl⟩
  obtain ⟨b, tw', hst, -, -⟩ := sample_step hslot (by decide) (sample_readable sampleRoot (by decide))
    hnode hfresh
  exact ⟨S₀, S₁, a, b, tw', hctor, hregister, hst,
    (providers_agree _ _ _ _ _ _ rfl true 5 le_rfl 0).1 _ 1 0 0 [] [] S₀ _ _ [] (Twin.start 0) tw' _ a b hctor hrun
      sample_admissible .nil hst⟩

/-- A poll before any registration: the node provider reports no root, the light provider one. -/
theorem providers_differ_on_empty :
    ∃ S₀ a b tw', Staked.constructor PoseidonT3.hash ZERO_VALUE 1 0 0 [] [] = .ok S₀ ∧
      (∀ c, Staked.isActive S₀ c = false) ∧
      TwinStep sampleHash (decodeSample (sampleWorld emptyRoot) emptyRoot) deployedGroup ⟨none, 60000⟩ sampleScan
        sampleLight true []
        (SlotAt (Staked.Step PoseidonT3.hash ZERO_VALUE ⟨fun _ _ _ _ => true, fun _ _ => none⟩) StakedReputationSet.tree
          (deployed S₀ 5) (deployed S₀ 5))
        (Twin.start 0) (samplePoll [] emptyRoot, a, b) tw' ∧
      tw'.node.provider.ring.current = none ∧ tw'.light.provider.ring.current = some (toString emptyRoot) := by
  obtain ⟨S₀, hctor⟩ : ∃ S₀, Staked.constructor PoseidonT3.hash ZERO_VALUE 1 0 0 [] [] = .ok S₀ := ⟨_, rfl⟩
  obtain ⟨hmembers, -, -, htree⟩ := Staked.constructor_ok hctor
  have hvalue : emptyRoot = (deployed S₀ 5).ledger.contract.tree.currentRoot := by
    rw [show (deployed S₀ 5).ledger.contract.tree = Tree.new PoseidonT3.hash ZERO_VALUE from htree]
    rfl
  have hslot : SlotAt (Staked.Step PoseidonT3.hash ZERO_VALUE ⟨fun _ _ _ _ => true, fun _ _ => none⟩)
      StakedReputationSet.tree (deployed S₀ 5) (deployed S₀ 5) 5 emptyRoot :=
    ⟨_, ⟨[], [], .nil, .nil, by simp, by simp⟩, hvalue⟩
  obtain ⟨node, a, hnode, hnone, hfresh⟩ : ∃ node a, callNode deployedGroup ⟨none, 60000⟩ (Twin.start 0).node
      ((samplePoll [] emptyRoot).nodeCall sampleScan true NodeProvider.new) = (node, .ok a) ∧
      node.provider.ring.current = none ∧ a.stale = false := ⟨_, _, rfl, rfl, rfl⟩
  obtain ⟨b, tw', hst, htw, hlight⟩ := sample_step hslot emptyRoot_ne_zero
    (sample_readable emptyRoot (by decide +kernel)) hnode hfresh
  refine ⟨S₀, a, b, tw', hctor, fun c => ?_, hst, htw ▸ hnone, hlight⟩
  simp [Staked.isActive, hmembers, Staked.Member.none]

end ShadeTree.Contracts
