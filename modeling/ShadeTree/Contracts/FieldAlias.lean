import ShadeTree.Contracts.Lifecycle
import ShadeTree.Contracts.RateCommitment
import ShadeTree.Contracts.RootAgreement

/-!
# Leaves the circuit reads alike

The contracts know a member by a `uint256`, the tree hash and the circuit by its value in the field: the
commitments `c` and `c + F` are two members and one leaf.  A slash compares the recomputed leaf, a field
element, with the `uint256`, so it reaches the canonical one only.  Neither contract checks that a commitment
is a field element.
-/

namespace ShadeTree.Contracts

open Function (update)
open ShadeTree.Lib
open PoseidonT3 (F)

/-! ### Slashing what a secret opens -/

section Alias

variable {σ : Type*} (live : σ → ℕ → Prop) (tier : σ → ℕ → ℕ) (slash : σ → ℕ → σ → Prop)

/-- The commitment is in the tree at the tier, and the circuit reads it as the field element `leaf`. -/
def Opened (s : σ) (limit leaf c : ℕ) : Prop := live s c ∧ tier s c = limit ∧ c % F = leaf

/-- Every opened commitment can be slashed, and slashing all of them one after the other leaves nothing in
the tree that reads as `leaf`. -/
def LeafSlashable (s : σ) (limit leaf : ℕ) : Prop :=
  (∀ c, Opened live tier s limit leaf c → ∃ s', slash s c s') ∧
    ∀ cs : List ℕ, cs.Nodup → (∀ c, c ∈ cs ↔ Opened live tier s limit leaf c) →
      ∃ s', Run slash s cs s' ∧ ∀ c, live s' c → c % F ≠ leaf

variable {live tier slash}

/-- **Canonical leaves.** Where a slash reaches the commitment `leaf` and no other and takes it alone out of
the tree, a leaf that some member opens is slashable exactly when all of the tree that reads as it is a
field element. -/
theorem leafSlashable_iff {s : σ} {limit leaf : ℕ} (hleaf : leaf < F)
    (hslash : ∀ c s', slash s c s' → c = leaf ∧ ∀ j, live s' j ↔ live s j ∧ j ≠ leaf)
    (hok : live s leaf → tier s leaf = limit → ∃ s', slash s leaf s')
    (hopen : ∃ c, Opened live tier s limit leaf c) :
    LeafSlashable live tier slash s limit leaf ↔ ∀ c, live s c → c % F = leaf → c < F := by
  obtain ⟨c₀, hc₀⟩ := hopen
  constructor
  · rintro ⟨heach, hall⟩
    -- a slash went through, so every opened commitment is the leaf itself
    have hcanon : ∀ c, Opened live tier s limit leaf c → c = leaf := fun c hc => by
      obtain ⟨s', hst⟩ := heach c hc
      exact (hslash c s' hst).1
    have hself : Opened live tier s limit leaf leaf := hcanon c₀ hc₀ ▸ hc₀
    obtain ⟨s', hrun, hgone⟩ := hall [leaf] (List.nodup_singleton leaf) fun c => by
      rw [List.mem_singleton]
      constructor
      · rintro rfl; exact hself
      · exact hcanon c
    obtain ⟨t, hst, hrest⟩ := hrun.uncons
    obtain rfl := hrest.of_nil
    intro c hc hread
    have hcl : c = leaf := by
      by_contra hne
      exact hgone c (((hslash leaf _ hst).2 c).mpr ⟨hc, hne⟩) hread
    omega
  · intro hcanon
    have heq : ∀ c, live s c → c % F = leaf → c = leaf := by
      intro c hc hread
      have := Nat.mod_eq_of_lt (hcanon c hc hread)
      omega
    have hself : Opened live tier s limit leaf leaf := heq c₀ hc₀.1 hc₀.2.2 ▸ hc₀
    obtain ⟨s', hst⟩ := hok hself.1 hself.2.1
    refine ⟨fun c hc => ?_, fun cs hnd hmem => ?_⟩
    · obtain rfl := heq c hc.1 hc.2.2
      exact ⟨s', hst⟩
    · have hcs : cs = [leaf] := by
        refine List.perm_singleton.mp ((List.perm_ext_iff_of_nodup hnd (List.nodup_singleton _)).mpr ?_)
        intro c
        rw [hmem, List.mem_singleton]
        constructor
        · intro hc; exact heq c hc.1 hc.2.2
        · rintro rfl; exact hself
      rw [hcs]
      refine ⟨s', Run.single hst, fun c hc hread => ?_⟩
      obtain ⟨hc, hne⟩ := ((hslash leaf s' hst).2 c).mp hc
      exact hne (heq c hc hread)

end Alias

/-! ### The staked set -/

namespace Staked

variable {H : ℕ → ℕ → ℕ} {z : ℕ} {verify : ℕ → ℕ → AuthContext → List ℕ → Bool}

/-- The contracts the set is deployed with: some proof verifier, and the Poseidon hasher. -/
def deployed (verify : ℕ → ℕ → AuthContext → List ℕ → Bool) : Externals :=
  ⟨verify, RateCommitmentHasher.commitmentOf⟩

/-- The slash of a commitment with a secret at a tier, paid to a receiver that accepts. -/
def SlashStep (H : ℕ → ℕ → ℕ) (z : ℕ) (verify : ℕ → ℕ → AuthContext → List ℕ → Bool)
    (secret limit receiver : ℕ) (w : World StakedReputationSet Call) (c : ℕ)
    (w' : World StakedReputationSet Call) : Prop :=
  World.Step (host H z (deployed verify)) w (.call (.slash c secret limit receiver true)) w'

def InTree (w : World StakedReputationSet Call) (c : ℕ) : Prop := isActive w.contract c = true

def tierOf (w : World StakedReputationSet Call) (c : ℕ) : ℕ := limitOf w.contract c

variable {w w' : World StakedReputationSet Call} {secret limit receiver : ℕ}

lemma SlashStep.spec (hlimit : 0 < limit ∧ limit ≤ MAX_LIMIT) {c : ℕ}
    (h : SlashStep H z verify secret limit receiver w c w') :
    c = RateCommitmentHasher.rateCommitment secret limit ∧
      ∀ j, InTree w' j ↔ InTree w j ∧ j ≠ RateCommitmentHasher.rateCommitment secret limit := by
  cases h with
  | @call _ S' hok _ =>
    obtain ⟨evs, hok⟩ := host_exec hok
    obtain ⟨-, -, hX, -, -, rfl, -⟩ := slash_ok hok
    obtain rfl := Option.some.inj ((RateCommitmentHasher.commitmentOf_admitted hlimit).symm.trans hX)
    refine ⟨rfl, fun j => ?_⟩
    unfold InTree isActive
    dsimp only
    by_cases hj : j = RateCommitmentHasher.rateCommitment secret limit
    · rw [hj, Function.update_self]
      simp [Member.none]
    · simp [hj]

lemma slashStep_of_inTree (hs : (w.ledger (host H z (deployed verify))).Sound)
    (hlimit : 0 < limit ∧ limit ≤ MAX_LIMIT)
    (hc : InTree w (RateCommitmentHasher.rateCommitment secret limit))
    (ht : tierOf w (RateCommitmentHasher.rateCommitment secret limit) = limit) :
    ∃ w', SlashStep H z verify secret limit receiver w
      (RateCommitmentHasher.rateCommitment secret limit) w' := by
  have hbond : (w.contract.members (RateCommitmentHasher.rateCommitment secret limit)).bond ≠ 0 := by
    unfold InTree isActive at hc
    simp only [Bool.and_eq_true, bne_iff_ne] at hc
    exact hc.1
  have hX : (deployed verify).commitmentOf secret
      (limitOf w.contract (RateCommitmentHasher.rateCommitment secret limit)) =
      some (RateCommitmentHasher.rateCommitment secret limit) := by
    rw [show limitOf w.contract _ = limit from ht]
    exact RateCommitmentHasher.commitmentOf_admitted hlimit
  obtain ⟨w', hst, -, -⟩ := slash_step hs receiver hbond hX
  rw [show limitOf w.contract _ = limit from ht] at hst
  exact ⟨w', hst⟩

/-- The tier of a member in the tree is one the hasher accepts. -/
lemma tier_admitted (ht : Tiered w.contract) {c : ℕ} (hc : InTree w c) :
    0 < tierOf w c ∧ tierOf w c ≤ MAX_LIMIT := by
  have hact : (w.contract.members c).bond ≠ 0 ∧ (w.contract.members c).exitInitiatedAt = 0 := by
    simpa [InTree, isActive] using hc
  have hl : tierOf w c = (w.contract.members c).limit := if_neg hact.1
  rw [hl]
  exact ht.table _ (by rw [← ht.recorded c hact.1]; exact hact.1)

end Staked

/-! ### The paid set -/

namespace Paid

variable {H : ℕ → ℕ → ℕ} {z : ℕ} {commitmentOf : ℕ → ℕ → Option ℕ}

/-- The admitted tiers are those of the constructor, a live leaf is at one of them, and `liveCount` counts
the live leaves. -/
structure Counted (S : PaidAccessSet) : Prop where
  tiers : TierTable.Valid S.allowed
  recorded : ∀ c, (S.leaves c).limit ≤ MAX_LIMIT
  count : Counts (fun c => (S.leaves c).limit ≠ 0) S.liveCount

lemma Counted.new {S : PaidAccessSet} {sender operator hasher : ℕ} {limits : List ℕ}
    (h : constructor H z sender operator hasher limits = .ok S) : Counted S := by
  obtain ⟨hv, hl, -, hc, -⟩ := constructor_ok h
  refine ⟨hv, fun c => by simp [hl, Leaf.none], ?_⟩
  rw [hc]
  exact Sums.congr Sums.zero fun c => by simp [hl, Leaf.none]

variable {S S' : PaidAccessSet}

lemma recorded_update (h : Counted S) {c : ℕ} {l : Leaf} (hl : l.limit ≤ MAX_LIMIT) (j : ℕ) :
    (update S.leaves c l j).limit ≤ MAX_LIMIT := by
  by_cases hj : j = c
  · subst hj; simpa using hl
  · rw [Function.update_of_ne hj]; exact h.recorded j

lemma Counted.insertLeaf (h : Counted S) {c l : ℕ} {ev : Event}
    (hok : insertLeaf H z S c l = .ok (S', ev)) : Counted S' := by
  obtain ⟨hallowed, hfree, -, rfl, -⟩ := insertLeaf_ok hok
  obtain ⟨hpos, hmax⟩ := h.tiers l hallowed
  have hmod : l % 2 ^ 32 = l := Nat.mod_eq_of_lt (by unfold MAX_LIMIT at hmax; omega)
  refine ⟨h.tiers, recorded_update h (by rw [hmod]; exact hmax), ?_⟩
  refine h.count.insert (k := c) (not_not.mpr hfree) ?_ fun j hj => ?_
  · dsimp only
    rw [Function.update_self, hmod]
    exact hpos.ne'
  · dsimp only
    rw [Function.update_of_ne hj]

lemma Counted.insertAll (h : Counted S) {items : List (ℕ × ℕ)} {evs : List Event}
    (hok : insertAll H z S items = .ok (S', evs)) : Counted S' := by
  induction items generalizing S evs with
  | nil =>
    obtain rfl : S = S' := by
      have : (Except.ok (S, []) : Except Error (PaidAccessSet × List Event)) = .ok (S', evs) := hok
      exact (Prod.mk.inj (Except.ok.inj this)).1
    exact h
  | cons item rest ih =>
    obtain ⟨c, l⟩ := item
    unfold Paid.insertAll at hok
    cases h₁ : Paid.insertLeaf H z S c l with
    | error e => simp [h₁] at hok
    | ok r =>
      obtain ⟨S₁, ev⟩ := r
      simp only [h₁] at hok
      cases h₂ : Paid.insertAll H z S₁ rest with
      | error e => simp [h₂] at hok
      | ok r₂ =>
        obtain ⟨S₂, evs₂⟩ := r₂
        simp only [h₂, Except.ok.injEq, Prod.mk.injEq] at hok
        obtain ⟨rfl, -⟩ := hok
        exact ih (h.insertLeaf h₁) h₂

lemma Counted.slash (h : Counted S) {c s l : ℕ} {evs : List Event}
    (hok : slash H z commitmentOf S c s l = .ok (S', evs)) : Counted S' := by
  obtain ⟨hlive, -, -, -, rfl, -⟩ := slash_ok hok
  refine ⟨h.tiers, recorded_update h (by simp [Leaf.none]), ?_⟩
  refine h.count.erase (k := c) hlive (by simp [Leaf.none]) fun j hj => ?_
  dsimp only
  rw [Function.update_of_ne hj]

theorem Counted.exec (h : Counted S) {sender : ℕ} {call : Call} {evs : List Event}
    (hok : exec H z commitmentOf S sender call = .ok (S', evs)) : Counted S' := by
  cases call with
  | insert c l =>
    have hok : Paid.insert H z S sender c l = .ok (S', evs) := hok
    rw [insert_eq_insertAll] at hok
    split_ifs at hok
    exact h.insertAll hok
  | insertBatch cs ls =>
    have hok : Paid.insertBatch H z S sender cs ls = .ok (S', evs) := hok
    unfold insertBatch at hok
    split_ifs at hok
    exact h.insertAll hok
  | slash c s l => exact h.slash hok
  | setOperator n =>
    have hok : Paid.setOperator S sender n = .ok (S', evs) := hok
    unfold setOperator at hok
    split_ifs at hok
    obtain ⟨rfl, -⟩ := Prod.mk.inj (Except.ok.inj hok)
    exact ⟨h.tiers, h.recorded, h.count⟩
  | acceptOperator =>
    have hok : Paid.acceptOperator S sender = .ok (S', evs) := hok
    unfold acceptOperator at hok
    split_ifs at hok
    obtain ⟨rfl, -⟩ := Prod.mk.inj (Except.ok.inj hok)
    exact ⟨h.tiers, h.recorded, h.count⟩

lemma counted_of_reaches {S₀ : PaidAccessSet} (h₀ : Counted S₀) {s : Ledger PaidAccessSet}
    (h : Reaches (Step H z commitmentOf) ⟨S₀, []⟩ s) : Counted s.contract :=
  h.invariant (I := fun s => Counted s.contract) h₀ fun _ _ _ ht hst => by
    obtain ⟨evs, hok, -⟩ := hst
    exact ht.exec hok

/-- The slash of a commitment with a secret at a tier, by anyone. -/
def SlashStep (H : ℕ → ℕ → ℕ) (z secret limit sender : ℕ) (s : Ledger PaidAccessSet) (c : ℕ)
    (s' : Ledger PaidAccessSet) : Prop :=
  Step H z RateCommitmentHasher.commitmentOf s (sender, .slash c secret limit) s'

def InTree (s : Ledger PaidAccessSet) (c : ℕ) : Prop := limitOf s.contract c ≠ 0

def tierOf (s : Ledger PaidAccessSet) (c : ℕ) : ℕ := limitOf s.contract c

variable {s s' : Ledger PaidAccessSet} {secret limit sender : ℕ}

lemma SlashStep.spec (hlimit : 0 < limit ∧ limit ≤ MAX_LIMIT) {c : ℕ}
    (h : SlashStep H z secret limit sender s c s') :
    c = RateCommitmentHasher.rateCommitment secret limit ∧
      ∀ j, InTree s' j ↔ InTree s j ∧ j ≠ RateCommitmentHasher.rateCommitment secret limit := by
  obtain ⟨evs, hok, -⟩ := h
  obtain ⟨-, -, hX, -, hS, -⟩ := slash_ok hok
  obtain rfl := Option.some.inj ((RateCommitmentHasher.commitmentOf_admitted hlimit).symm.trans hX)
  refine ⟨rfl, fun j => ?_⟩
  unfold InTree limitOf
  rw [hS]
  dsimp only
  by_cases hj : j = RateCommitmentHasher.rateCommitment secret limit
  · rw [hj, Function.update_self]
    simp [Leaf.none]
  · simp [hj]

lemma slashStep_of_inTree (h : Counted s.contract) (hlimit : 0 < limit ∧ limit ≤ MAX_LIMIT)
    (hc : InTree s (RateCommitmentHasher.rateCommitment secret limit))
    (ht : tierOf s (RateCommitmentHasher.rateCommitment secret limit) = limit) :
    ∃ s', SlashStep H z secret limit sender s (RateCommitmentHasher.rateCommitment secret limit) s' := by
  have hcount : s.contract.liveCount ≠ 0 := (h.count.pos (k := _) hc).ne'
  have htier : (s.contract.leaves (RateCommitmentHasher.rateCommitment secret limit)).limit = limit := ht
  have hok : ∃ S' evs, Paid.slash H z RateCommitmentHasher.commitmentOf s.contract
      (RateCommitmentHasher.rateCommitment secret limit) secret limit = .ok (S', evs) := by
    unfold Paid.slash
    simp only [htier, RateCommitmentHasher.commitmentOf_admitted hlimit, hlimit.1.ne', hcount, ne_eq,
      not_true_eq_false, if_false]
    exact ⟨_, _, rfl⟩
  obtain ⟨S', evs, hok⟩ := hok
  exact ⟨⟨S', s.logs ++ evs.filterMap Event.toMember⟩, evs, hok, rfl⟩

end Paid

/-- **Every leaf is slashable** exactly as far as commitments are field elements.  In every state of either
contract, also inside a payout: for a secret and a tier whose leaf some member in the tree opens, that leaf
is slashable if and only if every commitment in the tree that reads as it is below the field's size. -/
theorem every_leaf_slashable_iff_canonical (H : ℕ → ℕ → ℕ) (z secret limit receiver : ℕ) :
    (∀ (verify : ℕ → ℕ → AuthContext → List ℕ → Bool) (bond unbonding minUnbonding : ℕ)
        (limits bonds : List ℕ) (S : StakedReputationSet) (balance : ℕ) (b : Block)
        (tr : List (FrameLabel (Move Staked.Call))) (f : Frames (World StakedReputationSet Staked.Call)),
      Staked.constructor H z bond unbonding minUnbonding limits bonds = .ok S →
      Run (World.Reentrant (Staked.host H z (Staked.deployed verify))) ⟨World.genesis S balance b, []⟩ tr f →
      ∀ w, w = f.now ∨ w ∈ f.saved →
        (∃ c, Opened Staked.InTree Staked.tierOf w limit
          (RateCommitmentHasher.rateCommitment secret limit) c) →
        (LeafSlashable Staked.InTree Staked.tierOf (Staked.SlashStep H z verify secret limit receiver) w
            limit (RateCommitmentHasher.rateCommitment secret limit) ↔
          ∀ c, Staked.InTree w c → c % F = RateCommitmentHasher.rateCommitment secret limit → c < F)) ∧
    (∀ (sender operator hasher : ℕ) (limits : List ℕ) (S : PaidAccessSet)
        (calls : List (ℕ × Paid.Call)) (s : Ledger PaidAccessSet),
      Paid.constructor H z sender operator hasher limits = .ok S →
      Run (Paid.Step H z RateCommitmentHasher.commitmentOf) ⟨S, []⟩ calls s →
      ∀ slasher,
        (∃ c, Opened Paid.InTree Paid.tierOf s limit
          (RateCommitmentHasher.rateCommitment secret limit) c) →
        (LeafSlashable Paid.InTree Paid.tierOf (Paid.SlashStep H z secret limit slasher) s limit
            (RateCommitmentHasher.rateCommitment secret limit) ↔
          ∀ c, Paid.InTree s c → c % F = RateCommitmentHasher.rateCommitment secret limit → c < F)) := by
  constructor
  · intro verify bond unbonding minUnbonding limits bonds S balance b tr f hctor hrun w hw hopen
    have hreach := World.reaches_of_reentrant hrun hw
    obtain ⟨-, hsound, -⟩ := Staked.refines.reaches (Staked.fresh hctor) hreach
    have htiers := Staked.tiered_of_reaches (Staked.Tiered.new hctor) hreach
    have hlimit : 0 < limit ∧ limit ≤ MAX_LIMIT := by
      obtain ⟨c, hc, ht, -⟩ := hopen
      rw [← ht]
      exact Staked.tier_admitted htiers hc
    exact leafSlashable_iff
      (RateCommitmentHasher.commitmentOf_lt (RateCommitmentHasher.commitmentOf_admitted hlimit))
      (fun c w' h => h.spec hlimit) (Staked.slashStep_of_inTree hsound hlimit) hopen
  · intro sender operator hasher limits S calls s hctor hrun slasher hopen
    have hcounted := Paid.counted_of_reaches (Paid.Counted.new hctor) ⟨calls, hrun⟩
    have hlimit : 0 < limit ∧ limit ≤ MAX_LIMIT := by
      obtain ⟨c, hc, ht, -⟩ := hopen
      rw [← ht]
      exact ⟨Nat.pos_of_ne_zero hc, hcounted.recorded c⟩
    exact leafSlashable_iff
      (RateCommitmentHasher.commitmentOf_lt (RateCommitmentHasher.commitmentOf_admitted hlimit))
      (fun c s' h => h.spec hlimit) (Paid.slashStep_of_inTree hcounted hlimit) hopen

/-! ### A member above the field -/

/-- The staked set with one tier, for the runs below. -/
def Staked.oneTier : StakedReputationSet :=
  ⟨5, 10, update (fun _ => 0) DEFAULT_LIMIT 5, [DEFAULT_LIMIT], fun _ => Member.none, 0, 0,
    Tree.new (fun a b => a + b) 1⟩

/-- The paid set with one tier, fed by the operator `3`. -/
def Paid.oneTier : PaidAccessSet :=
  ⟨update (fun _ => false) DEFAULT_LIMIT true, [DEFAULT_LIMIT], fun _ => Leaf.none, 0, 0,
    Tree.new (fun a b => a + b) 1, 3, 0⟩

/-- One registration of `c` from the constructor. -/
lemma Staked.registered_run (c : ℕ) : ∃ tr f,
    Run (World.Reentrant (host (fun a b => a + b) 1 (deployed fun _ _ _ _ => true)))
      ⟨World.genesis oneTier 0 ⟨1, by decide, by decide⟩, []⟩ tr f ∧
      InTree f.now c ∧ tierOf f.now c = 8 ∧ ∀ j, InTree f.now j → j = c := by
  have h₀ : Run (World.Reentrant (host (fun a b => a + b) 1 (deployed fun _ _ _ _ => true)))
      ⟨World.genesis oneTier 0 ⟨1, by decide, by decide⟩, []⟩ [] _ := .nil
  have h₁ := h₀.snoc (.act (e := Move.call (.register c 8 5)) (.call rfl (Nat.zero_le _)) id)
  refine ⟨_, _, h₁, ?_, ?_, fun j hj => ?_⟩
  · simp [InTree, isActive, oneTier, World.genesis]
    decide
  · simp [tierOf, limitOf, oneTier, World.genesis]
    decide
  · by_contra hne
    simp [InTree, isActive, oneTier, World.genesis, Function.update_of_ne hne, Member.none] at hj

/-- One insertion of `c` from the constructor. -/
lemma Paid.inserted_run (c : ℕ) : ∃ calls s,
    Run (Step (fun a b => a + b) 1 RateCommitmentHasher.commitmentOf) ⟨oneTier, []⟩ calls s ∧
      InTree s c ∧ tierOf s c = 8 ∧ ∀ j, InTree s j → j = c := by
  have h₁ : Run (Step (fun a b => a + b) 1 RateCommitmentHasher.commitmentOf) ⟨oneTier, []⟩
      [(3, .insert c 8)] ⟨_, _⟩ := Run.single ⟨_, rfl, rfl⟩
  refine ⟨_, _, h₁, ?_, ?_, fun j hj => ?_⟩
  · simp [InTree, limitOf, oneTier]
  · simp [tierOf, limitOf, oneTier]
  · by_contra hne
    simp [InTree, limitOf, oneTier, Function.update_of_ne hne, Leaf.none] at hj

/-- The member of the secret `1` at the default tier. -/
lemma rateCommitment_one : RateCommitmentHasher.rateCommitment 1 8 =
    19891105629297951594670588741444296361737921464595154400690791765679348608752 := by
  decide +kernel

/-- The secret `1` opens the member that is the field's size above its canonical commitment, in both sets,
and cannot slash it. -/
theorem alias_of_secret_one_not_slashable :
    (∃ tr f, Run (World.Reentrant (Staked.host (fun a b => a + b) 1
          (Staked.deployed fun _ _ _ _ => true)))
        ⟨World.genesis Staked.oneTier 0 ⟨1, by decide, by decide⟩, []⟩ tr f ∧
      Opened Staked.InTree Staked.tierOf f.now 8 (RateCommitmentHasher.rateCommitment 1 8)
        (19891105629297951594670588741444296361737921464595154400690791765679348608752 + F) ∧
      ¬ LeafSlashable Staked.InTree Staked.tierOf
        (Staked.SlashStep (fun a b => a + b) 1 (fun _ _ _ _ => true) 1 8 9) f.now 8
        (RateCommitmentHasher.rateCommitment 1 8)) ∧
    (∃ calls s, Run (Paid.Step (fun a b => a + b) 1 RateCommitmentHasher.commitmentOf)
        ⟨Paid.oneTier, []⟩ calls s ∧
      Opened Paid.InTree Paid.tierOf s 8 (RateCommitmentHasher.rateCommitment 1 8)
        (19891105629297951594670588741444296361737921464595154400690791765679348608752 + F) ∧
      ¬ LeafSlashable Paid.InTree Paid.tierOf (Paid.SlashStep (fun a b => a + b) 1 1 8 9) s 8
        (RateCommitmentHasher.rateCommitment 1 8)) := by
  rw [← rateCommitment_one]
  have hlt : RateCommitmentHasher.rateCommitment 1 8 < F :=
    RateCommitmentHasher.commitmentOf_lt (RateCommitmentHasher.commitmentOf_admitted (by decide))
  have hread : (RateCommitmentHasher.rateCommitment 1 8 + F) % F =
      RateCommitmentHasher.rateCommitment 1 8 := by
    rw [Nat.add_mod_right, Nat.mod_eq_of_lt hlt]
  have hne : RateCommitmentHasher.rateCommitment 1 8 + F ≠ RateCommitmentHasher.rateCommitment 1 8 := by
    have := RateCommitmentHasher.F_pos
    omega
  obtain ⟨tr, f, hrun, hin, htier, -⟩ :=
    Staked.registered_run (RateCommitmentHasher.rateCommitment 1 8 + F)
  obtain ⟨calls, s, hrun', hin', htier', -⟩ :=
    Paid.inserted_run (RateCommitmentHasher.rateCommitment 1 8 + F)
  have hopen : Opened Staked.InTree Staked.tierOf f.now 8 _ _ := ⟨hin, htier, hread⟩
  have hopen' : Opened Paid.InTree Paid.tierOf s 8 _ _ := ⟨hin', htier', hread⟩
  refine ⟨⟨tr, f, hrun, hopen, fun h => ?_⟩, ⟨calls, s, hrun', hopen', fun h => ?_⟩⟩
  · obtain ⟨w', hst⟩ := h.1 _ hopen
    exact hne (hst.spec (by decide)).1
  · obtain ⟨s', hst⟩ := h.1 _ hopen'
    exact hne (hst.spec (by decide)).1

/-- The canonical member of the secret `1` is slashable in both sets. -/
theorem every_leaf_slashable_iff_canonical_one :
    (∃ w, Staked.InTree w (RateCommitmentHasher.rateCommitment 1 8) ∧
      LeafSlashable Staked.InTree Staked.tierOf
        (Staked.SlashStep (fun a b => a + b) 1 (fun _ _ _ _ => true) 1 8 9) w 8
        (RateCommitmentHasher.rateCommitment 1 8)) ∧
    (∃ s, Paid.InTree s (RateCommitmentHasher.rateCommitment 1 8) ∧
      LeafSlashable Paid.InTree Paid.tierOf (Paid.SlashStep (fun a b => a + b) 1 1 8 9) s 8
        (RateCommitmentHasher.rateCommitment 1 8)) := by
  have hlt : RateCommitmentHasher.rateCommitment 1 8 < F :=
    RateCommitmentHasher.commitmentOf_lt (RateCommitmentHasher.commitmentOf_admitted (by decide))
  have hread := Nat.mod_eq_of_lt hlt
  obtain ⟨tr, f, hrun, hin, htier, honly⟩ := Staked.registered_run (RateCommitmentHasher.rateCommitment 1 8)
  obtain ⟨calls, s, hrun', hin', htier', honly'⟩ :=
    Paid.inserted_run (RateCommitmentHasher.rateCommitment 1 8)
  refine ⟨⟨f.now, hin, ?_⟩, ⟨s, hin', ?_⟩⟩
  · refine ((every_leaf_slashable_iff_canonical _ 1 1 8 9).1 _ 5 10 0 [] [] _ _ _ _ _ rfl hrun _ (.inl rfl)
      ⟨_, hin, htier, hread⟩).mpr fun c hc _ => ?_
    rw [honly c hc]
    exact hlt
  · refine ((every_leaf_slashable_iff_canonical _ 1 1 8 9).2 1 3 9 [8] _ _ _ rfl hrun' 9
      ⟨_, hin', htier', hread⟩).mpr fun c hc _ => ?_
    rw [honly' c hc]
    exact hlt

end ShadeTree.Contracts
