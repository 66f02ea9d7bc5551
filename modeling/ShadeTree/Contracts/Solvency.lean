import ShadeTree.Contracts.Bonds

/-!
# Solvency

In every state of a re-entrant run, also while a recipient runs and after its failure undid the call, the
balance of each staking contract covers the bonds it holds, each bond is the one its tier asks for, and the
counters count.
-/

namespace ShadeTree.Contracts

open ShadeTree.Lib

/-! ### The staked set -/

namespace Staked

/-- The members that hold a bond are `bonded`, and the accounts of the contract fit them. -/
structure Solvent (w : World StakedReputationSet Call) (bonded : Finset ℕ) : Prop where
  mem : ∀ c, c ∈ bonded ↔ (w.contract.members c).bond ≠ 0
  covered : ∑ c ∈ bonded, (w.contract.members c).bond ≤ w.balance
  priced : ∀ c ∈ bonded, (w.contract.members c).bond = w.contract.bondOf (limitOf w.contract c)
  counted : w.contract.activeCount = (bonded.filter fun c => isActive w.contract c = true).card
  index_lt : ∀ c ∈ bonded, (w.contract.members c).index < w.contract.nextIndex
  index_inj : ∀ c ∈ bonded, ∀ c' ∈ bonded,
    (w.contract.members c).index = (w.contract.members c').index → c = c'

variable {H : ℕ → ℕ → ℕ} {z : ℕ} {X : Externals} {w : World StakedReputationSet Call}

lemma isSome_bonds (c : ℕ) :
    ((w.ledger (host H z X)).bonds c).isSome ↔ (w.contract.members c).bond ≠ 0 := by
  show (asBond (w.contract.members c)).isSome ↔ _
  rw [Option.isSome_iff_ne_none, ne_eq, asBond_eq_none]

lemma ledger_amount (c : ℕ) :
    (w.ledger (host H z X)).amount c = (w.contract.members c).bond := by
  show (asBond (w.contract.members c)).elim 0 Bond.amount = _
  by_cases hc : (w.contract.members c).bond = 0
  · rw [asBond_eq_none.mpr hc, hc]
    rfl
  · rw [asBond_eq_some hc]
    rfl

lemma ledger_active (c : ℕ) :
    (w.ledger (host H z X)).active c = isActive w.contract c := by
  show (asBond (w.contract.members c)).any (fun b => b.exitAt.isNone) = isActive w.contract c
  by_cases hc : (w.contract.members c).bond = 0
  · rw [asBond_eq_none.mpr hc]
    simp [isActive, hc]
  · rw [asBond_eq_some hc]
    by_cases he : (w.contract.members c).exitInitiatedAt = 0 <;> simp [isActive, hc, he]

/-- The world read as a sound ledger, with its tiers, is solvent. -/
lemma solvent_of_sound (hs : (w.ledger (host H z X)).Sound) (ht : Tiered w.contract) :
    ∃ bonded, Solvent w bonded := by
  obtain ⟨held, hheld, hsum, hcount⟩ := hs.covered
  have hmem : ∀ c, c ∈ held ↔ (w.contract.members c).bond ≠ 0 := fun c =>
    (hheld c).trans (isSome_bonds c)
  refine ⟨held, hmem, ?_, fun c hc => ?_, ?_, fun c hc => ?_, fun c hc c' hc' hi => ?_⟩
  · rwa [Finset.sum_congr rfl fun c _ => ledger_amount c] at hsum
  · have hbond := (hmem c).mp hc
    rw [ht.recorded c hbond, limitOf, if_neg hbond]
  · rw [Finset.filter_congr fun c _ => by rw [ledger_active c]] at hcount
    exact hcount
  · exact hs.index_lt c _ (asBond_eq_some ((hmem c).mp hc))
  · exact hs.index_inj c c' _ _ (asBond_eq_some ((hmem c).mp hc)) (asBond_eq_some ((hmem c').mp hc')) hi

lemma tiered_of_reaches {S : StakedReputationSet} {balance : ℕ} {b : Block} (hS : Tiered S)
    (h : Reaches (World.Step (host H z X)) (World.genesis S balance b) w) : Tiered w.contract := by
  refine h.invariant (I := fun w => Tiered w.contract) hS fun t m u ht hst => ?_
  cases hst with
  | block _ => exact ht
  | gift => exact ht
  | call hok _ =>
    obtain ⟨evs, hok⟩ := host_exec hok
    exact ht.exec hok

/-- A run in which the payout of a withdrawal registers the member `7` again before it returns. -/
lemma reentered : ∃ (S : StakedReputationSet) (tr : List (FrameLabel (Move Call)))
    (c : Frames (World StakedReputationSet Call)),
    constructor (fun a b => a + b) 1 5 10 0 [] [] = .ok S ∧
    Run (World.Reentrant (host (fun a b => a + b) 1 ⟨fun _ _ _ _ => true, fun _ _ => some 7⟩))
      ⟨World.genesis S 0 ⟨1, by decide, by decide⟩, []⟩ tr c ∧
    c.saved.length = 1 ∧ (c.now.contract.members 7).bond ≠ 0 ∧
    deeds c.now.log = [⟨.deposit, 7, 0, 5, 1⟩, ⟨.exit, 7, 0, 5, 1⟩, ⟨.withdraw, 7, 0, 5, 11⟩,
      ⟨.deposit, 7, 1, 5, 11⟩] := by
  let S : StakedReputationSet := ⟨5, 10, Function.update (fun _ => 0) DEFAULT_LIMIT 5, [DEFAULT_LIMIT],
    fun _ => Member.none, 0, 0, Tree.new (fun a b => a + b) 1⟩
  have h₀ : Run (World.Reentrant (host (fun a b => a + b) 1 ⟨fun _ _ _ _ => true, fun _ _ => some 7⟩))
      ⟨World.genesis S 0 ⟨1, by decide, by decide⟩, []⟩ [] _ := .nil
  have h₁ := h₀.snoc (.act (e := Move.call (.register 7 8 5)) (.call rfl (Nat.zero_le _)) id)
  have h₂ := h₁.snoc (.act (e := Move.call (.initiateExit 7 [])) (.call rfl (Nat.zero_le _)) id)
  have h₃ := h₂.snoc (.act (e := Move.block ⟨11, by decide, by decide⟩) (.block (by decide)) id)
  have h₄ := h₃.snoc (.hand (e := Move.call (Call.withdraw 7 9 [] true)) (.call rfl (by decide)) trivial)
  have h₅ := h₄.snoc (.act (e := Move.call (.register 7 8 5)) (.call rfl (Nat.zero_le _)) id)
  exact ⟨S, _, _, rfl, h₅, rfl, by decide, rfl⟩

end Staked

/-! ### The gateway stake -/

namespace Registry

/-- The operators that hold a stake are `bonded`, and the accounts of the contract fit them. -/
structure Solvent (w : World GatewayRegistry Call) (bonded : Finset ℕ) : Prop where
  mem : ∀ a, a ∈ bonded ↔ (w.contract.stakes a).bond ≠ 0
  covered : ∑ a ∈ bonded, (w.contract.stakes a).bond ≤ w.balance
  priced : ∀ a ∈ bonded, (w.contract.stakes a).bond = w.contract.BOND
  counted : w.contract.activeCount = (bonded.filter fun a => isStaked w.contract a = true).card

variable {w : World GatewayRegistry Call}

lemma isSome_bonds (a : ℕ) :
    ((w.ledger host).bonds a).isSome ↔ (w.contract.stakes a).bond ≠ 0 := by
  show (asBond (w.contract.stakes a)).isSome ↔ _
  rw [Option.isSome_iff_ne_none, ne_eq, asBond_eq_none]

lemma ledger_amount (a : ℕ) : (w.ledger host).amount a = (w.contract.stakes a).bond := by
  show (asBond (w.contract.stakes a)).elim 0 Bond.amount = _
  by_cases ha : (w.contract.stakes a).bond = 0
  · rw [asBond_eq_none.mpr ha, ha]
    rfl
  · rw [asBond_eq_some ha]
    rfl

lemma ledger_active (a : ℕ) : (w.ledger host).active a = isStaked w.contract a := by
  show (asBond (w.contract.stakes a)).any (fun b => b.exitAt.isNone) = isStaked w.contract a
  by_cases ha : (w.contract.stakes a).bond = 0
  · rw [asBond_eq_none.mpr ha]
    simp [isStaked, ha]
  · rw [asBond_eq_some ha]
    by_cases he : (w.contract.stakes a).exitInitiatedAt = 0 <;> simp [isStaked, ha, he]

/-- Every stake held is the fixed denomination. -/
def Priced (S : GatewayRegistry) : Prop := ∀ a, (S.stakes a).bond ≠ 0 → (S.stakes a).bond = S.BOND

lemma Priced.update {S : GatewayRegistry} (h : Priced S) {a : ℕ} {s : Stake}
    (hs : s.bond ≠ 0 → s.bond = S.BOND) (j : ℕ) (hj : (Function.update S.stakes a s j).bond ≠ 0) :
    (Function.update S.stakes a s j).bond = S.BOND := by
  by_cases hja : j = a
  · subst hja
    rw [Function.update_self] at hj ⊢
    exact hs hj
  · rw [Function.update_of_ne hja] at hj ⊢
    exact h j hj

lemma Priced.exec {S S' : GatewayRegistry} {b : Block} {c : Call} {evs : List Event} (h : Priced S)
    (hok : exec S b c = .ok (S', evs)) : Priced S' := by
  cases c with
  | register a v =>
    obtain ⟨-, -, rfl⟩ := register_ok hok
    exact h.update fun _ => rfl
  | initiateExit a =>
    obtain ⟨-, -, -, rfl⟩ := initiateExit_ok hok
    exact h.update (s := { S.stakes a with exitInitiatedAt := _ }) fun hb => h a hb
  | withdraw a r paid =>
    obtain ⟨-, -, -, rfl⟩ := withdraw_ok hok
    exact h.update fun hb => absurd rfl hb
  | slash a o r paid =>
    obtain ⟨-, -, -, rfl⟩ := slash_ok hok
    exact h.update fun hb => absurd rfl hb
  | transferOwnership a n =>
    obtain ⟨-, rfl⟩ := transferOwnership_ok hok
    exact h

lemma priced_of_reaches {S : GatewayRegistry} {balance : ℕ} {b : Block} (hS : Priced S)
    (h : Reaches (World.Step host) (World.genesis S balance b) w) : Priced w.contract := by
  refine h.invariant (I := fun w => Priced w.contract) hS fun t m u ht hst => ?_
  cases hst with
  | block _ => exact ht
  | gift => exact ht
  | call hok _ =>
    obtain ⟨evs, hok⟩ := host_exec hok
    exact ht.exec hok

lemma solvent_of_sound (hs : (w.ledger host).Sound) (hp : Priced w.contract) :
    ∃ bonded, Solvent w bonded := by
  obtain ⟨held, hheld, hsum, hcount⟩ := hs.covered
  have hmem : ∀ a, a ∈ held ↔ (w.contract.stakes a).bond ≠ 0 := fun a =>
    (hheld a).trans (isSome_bonds a)
  refine ⟨held, hmem, ?_, fun a ha => hp a ((hmem a).mp ha), ?_⟩
  · rwa [Finset.sum_congr rfl fun a _ => ledger_amount a] at hsum
  · rw [Finset.filter_congr fun a _ => by rw [ledger_active a]] at hcount
    exact hcount

/-- The same for the operator `3`. -/
lemma reentered : ∃ (S : GatewayRegistry) (tr : List (FrameLabel (Move Call)))
    (c : Frames (World GatewayRegistry Call)),
    constructor 1 5 10 0 0 = .ok S ∧
    Run (World.Reentrant host) ⟨World.genesis S 0 ⟨1, by decide, by decide⟩, []⟩ tr c ∧
    c.saved.length = 1 ∧ (c.now.contract.stakes 3).bond ≠ 0 ∧
    deeds c.now.log = [⟨.deposit, 3, 0, 5, 1⟩, ⟨.exit, 3, 0, 5, 1⟩, ⟨.withdraw, 3, 0, 5, 11⟩,
      ⟨.deposit, 3, 1, 5, 11⟩] := by
  let S : GatewayRegistry := ⟨5, by decide, 10, 1, fun _ => Stake.none, 0, 0⟩
  have h₀ : Run (World.Reentrant host) ⟨World.genesis S 0 ⟨1, by decide, by decide⟩, []⟩ [] _ := .nil
  have h₁ := h₀.snoc (.act (e := Move.call (.register 3 5)) (.call rfl (Nat.zero_le _)) id)
  have h₂ := h₁.snoc (.act (e := Move.call (.initiateExit 3)) (.call rfl (Nat.zero_le _)) id)
  have h₃ := h₂.snoc (.act (e := Move.block ⟨11, by decide, by decide⟩) (.block (by decide)) id)
  have h₄ := h₃.snoc (.hand (e := Move.call (Call.withdraw 3 9 true)) (.call rfl (by decide)) trivial)
  have h₅ := h₄.snoc (.act (e := Move.call (.register 3 5)) (.call rfl (Nat.zero_le _)) id)
  exact ⟨S, _, _, rfl, h₅, rfl, by decide, rfl⟩

end Registry

/-- **Solvency under re-entrancy.** Whatever is called, by whom, from inside which payout, and whichever
payouts fail: in every state, while a recipient runs and after a failure alike, both contracts are solvent. -/
theorem solvent_under_reentrancy (H : ℕ → ℕ → ℕ) (z : ℕ) (X : Externals) :
    (∀ (bond unbonding minUnbonding : ℕ) (limits bonds : List ℕ) (S : StakedReputationSet)
        (balance : ℕ) (b : Block)
        (tr : List (FrameLabel (Move Staked.Call))) (c : Frames (World StakedReputationSet Staked.Call)),
      Staked.constructor H z bond unbonding minUnbonding limits bonds = .ok S →
      Run (World.Reentrant (Staked.host H z X)) ⟨World.genesis S balance b, []⟩ tr c →
      ∀ w, w = c.now ∨ w ∈ c.saved → ∃ bonded, Staked.Solvent w bonded) ∧
    (∀ (sender bond unbonding minUnbonding owner : ℕ) (S : GatewayRegistry) (balance : ℕ) (b : Block)
        (tr : List (FrameLabel (Move Registry.Call))) (c : Frames (World GatewayRegistry Registry.Call)),
      Registry.constructor sender bond unbonding minUnbonding owner = .ok S →
      Run (World.Reentrant Registry.host) ⟨World.genesis S balance b, []⟩ tr c →
      ∀ w, w = c.now ∨ w ∈ c.saved → ∃ bonded, Registry.Solvent w bonded) := by
  constructor
  · intro bond unbonding minUnbonding limits bonds S balance b tr c hctor hrun w hw
    have hreach := World.reaches_of_reentrant hrun hw
    obtain ⟨-, hsound, -⟩ := Staked.refines.reaches (Staked.fresh hctor) hreach
    exact Staked.solvent_of_sound hsound (Staked.tiered_of_reaches (Staked.Tiered.new hctor) hreach)
  · intro sender bond unbonding minUnbonding owner S balance b tr c hctor hrun w hw
    have hreach := World.reaches_of_reentrant hrun hw
    obtain ⟨-, hsound, -⟩ := Registry.refines.reaches (Registry.fresh hctor) hreach
    have hpriced : Registry.Priced S := fun a ha => by
      rw [(Registry.constructor_ok hctor).1] at ha
      exact absurd rfl ha
    exact Registry.solvent_of_sound hsound (Registry.priced_of_reaches hpriced hreach)

/-- The member `7` withdraws, and the recipient registers it again before the withdrawal returns; the
operator `3` does the same. -/
theorem solvent_under_reentrancy_reentered :
    (∃ (c : Frames (World StakedReputationSet Staked.Call)) (bonded : Finset ℕ),
      c.saved.length = 1 ∧ Staked.Solvent c.now bonded ∧ 7 ∈ bonded) ∧
    (∃ (c : Frames (World GatewayRegistry Registry.Call)) (bonded : Finset ℕ),
      c.saved.length = 1 ∧ Registry.Solvent c.now bonded ∧ 3 ∈ bonded) := by
  obtain ⟨S, tr, c, hctor, hrun, hsaved, hbond, -⟩ := Staked.reentered
  obtain ⟨R, tr', c', hctor', hrun', hsaved', hbond', -⟩ := Registry.reentered
  obtain ⟨bonded, hs⟩ := (solvent_under_reentrancy _ _ _).1 5 10 0 [] [] S _ _ _ _ hctor hrun _ (.inl rfl)
  obtain ⟨bonded', hs'⟩ := (solvent_under_reentrancy (fun a b => a + b) 1 ⟨fun _ _ _ _ => true, fun _ _ => none⟩).2
    1 5 10 0 0 R _ _ _ _ hctor' hrun' _ (.inl rfl)
  exact ⟨⟨c, bonded, hsaved, hs, (hs.mem 7).mpr hbond⟩, ⟨c', bonded', hsaved', hs', (hs'.mem 3).mpr hbond'⟩⟩

end ShadeTree.Contracts
