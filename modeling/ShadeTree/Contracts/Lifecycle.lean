import ShadeTree.Contracts.Solvency

/-!
# The life of a bond

A registration is known by the index it was given.  The log of a staking contract is lawful
(`BondLedger.Lawful`): a bond is paid once, so never withdrawn after it was slashed, and a withdrawal waits
for the unbonding time after the exit of the same registration.  A bond that was not paid yet can be slashed,
and a commitment that left the tree is back only through a later registration.
-/

namespace ShadeTree.Contracts

open ShadeTree.Lib

namespace Staked

variable {H : ℕ → ℕ → ℕ} {z : ℕ} {X : Externals}

/-- Whoever knows the secret of a registration that was not paid out, at its tier, can slash it. -/
def Slashable (H : ℕ → ℕ → ℕ) (z : ℕ) (X : Externals) (w : World StakedReputationSet Call) : Prop :=
  ∀ d ∈ deeds w.log, d.deed = .deposit → (∀ p ∈ deeds w.log, p.deed.pays → p.index ≠ d.index) →
    ∀ secret receiver, X.commitmentOf secret (limitOf w.contract d.key) = some d.key →
      ∃ w', World.Step (host H z X) w
          (.call (.slash d.key secret (limitOf w.contract d.key) receiver true)) w' ∧
        deeds w'.log = deeds w.log ++ [⟨.slash, d.key, d.index, d.amount, w.block.timestamp⟩]

/-- A commitment that is in the tree after an exit, a withdrawal or a slash of it was registered again
since, for the bond of its tier and under an index above all that were used before. -/
def ReturnsPaid (w : World StakedReputationSet Call) : Prop :=
  ∀ c, isActive w.contract c = true → ∀ l₁ e l₂, deeds w.log = l₁ ++ e :: l₂ → e.key = c →
    e.deed ≠ .deposit →
    ∃ n d m, l₂ = n ++ d :: m ∧ d.deed = .deposit ∧ d.key = c ∧
      d.index = (w.contract.members c).index ∧ d.amount = w.contract.bondOf (limitOf w.contract c) ∧
      ∀ x ∈ l₁ ++ e :: n, x.index < d.index

variable {w : World StakedReputationSet Call}

/-- The bond of a key as the member record has it. -/
lemma bond_of_ledger {c : ℕ} {b : Bond} (h : (w.ledger (host H z X)).bonds c = some b) :
    (w.contract.members c).bond ≠ 0 ∧ b.amount = (w.contract.members c).bond ∧
      b.index = (w.contract.members c).index ∧
      b.exitAt = if (w.contract.members c).exitInitiatedAt = 0 then none
        else some (w.contract.members c).exitInitiatedAt := by
  have hc : asBond (w.contract.members c) = some b := h
  have hbond : (w.contract.members c).bond ≠ 0 := by
    intro h0
    rw [asBond_eq_none.mpr h0] at hc
    cases hc
  rw [asBond_eq_some hbond] at hc
  obtain rfl := Option.some.inj hc
  exact ⟨hbond, rfl, rfl, rfl⟩

/-- The slash of a bonded member with its secret goes through, and deletes that member only. -/
lemma slash_step (hs : (w.ledger (host H z X)).Sound) {c secret : ℕ} (receiver : ℕ)
    (hbond : (w.contract.members c).bond ≠ 0)
    (hX : X.commitmentOf secret (limitOf w.contract c) = some c) :
    ∃ w', World.Step (host H z X) w
        (.call (.slash c secret (limitOf w.contract c) receiver true)) w' ∧
      w'.contract.members = Function.update w.contract.members c Member.none ∧
      deeds w'.log = deeds w.log ++ [⟨.slash, c, (w.contract.members c).index,
        (w.contract.members c).bond, w.block.timestamp⟩] := by
  have hlimit : limitOf w.contract c = (w.contract.members c).limit := if_neg hbond
  rw [hlimit] at hX ⊢
  have hcount : (w.contract.members c).exitInitiatedAt = 0 → w.contract.activeCount ≠ 0 := fun hexit =>
    (hs.activeCount_pos (asBond_eq_some hbond) (if_pos hexit)).ne'
  have hok : ∃ S' evs, slash H z X w.contract c secret (w.contract.members c).limit receiver true =
      .ok (S', evs) := by
    unfold slash
    simp only [hbond, hX, ne_eq, not_true_eq_false, if_false, beq_iff_eq]
    rw [if_neg fun h => hcount h.1 h.2]
    exact ⟨_, _, rfl⟩
  obtain ⟨S', evs, hok⟩ := hok
  have hv : (w.contract.members c).bond ≤ w.balance := hs.amount_le (asBond_eq_some hbond)
  obtain ⟨-, -, -, -, -, hS', -⟩ := slash_ok hok
  refine ⟨_, .call (S := S') ?_ hv, by rw [hS'], ?_⟩
  · show ((slash H z X w.contract c secret _ receiver true).toOption.map Prod.fst) = some S'
    rw [hok]
    rfl
  · show deeds (w.log ++ [(_, some (entry w.contract w.block (.slash c secret _ receiver true)))]) = _
    rw [deeds_snoc]
    rfl

lemma slashable_of_story {u : ℕ} (hs : (w.ledger (host H z X)).Sound)
    (hl : BondLedger.Story u (w.ledger (host H z X))) : Slashable H z X w := by
  intro d hd hdep hp secret receiver hX
  obtain ⟨b, hb, hi, ha⟩ := hl.held (d := d) hd hdep hp
  obtain ⟨hbond, hamount, hindex, -⟩ := bond_of_ledger hb
  obtain ⟨w', hst, -, hlog⟩ := slash_step hs receiver hbond hX
  refine ⟨w', hst, ?_⟩
  rw [hlog, ← hi, ← ha, hamount, hindex]

lemma returnsPaid_of_story {u : ℕ} (hl : BondLedger.Story u (w.ledger (host H z X)))
    (ht : Tiered w.contract) : ReturnsPaid w := by
  intro c hc l₁ e l₂ hlog hkey hdeed
  have hact : (w.contract.members c).bond ≠ 0 ∧ (w.contract.members c).exitInitiatedAt = 0 := by
    simpa [isActive] using hc
  obtain ⟨n, d, m, hl₂, hdep, hk, hi, ha, hlt⟩ :=
    hl.returned (asBond_eq_some hact.1) (if_pos hact.2) hlog hkey hdeed
  have hprice : d.amount = w.contract.bondOf (limitOf w.contract c) := by
    rw [limitOf, if_neg hact.1, ← ht.recorded c hact.1]
    exact ha
  exact ⟨n, d, m, hl₂, hdep, hk, hi, hprice, hlt⟩

end Staked

/-- **The life of a bond.** Over every run of either contract, also a re-entrant one, the log is lawful
under the unbonding time; in the staked set a registration that was not paid out can be slashed with its
secret, and a commitment that left the tree returns only by a later paid registration under a fresh
index. -/
theorem bonds_paid_once_after_unbonding (H : ℕ → ℕ → ℕ) (z : ℕ) (X : Externals) :
    (∀ (bond unbonding minUnbonding : ℕ) (limits bonds : List ℕ) (S : StakedReputationSet)
        (balance : ℕ) (b : Block)
        (tr : List (FrameLabel (Move Staked.Call))) (c : Frames (World StakedReputationSet Staked.Call)),
      Staked.constructor H z bond unbonding minUnbonding limits bonds = .ok S →
      Run (World.Reentrant (Staked.host H z X)) ⟨World.genesis S balance b, []⟩ tr c →
      ∀ w, w = c.now ∨ w ∈ c.saved →
        BondLedger.Chronicle (BondLedger.Lawful S.UNBONDING) (deeds w.log) ∧
          Staked.Slashable H z X w ∧ Staked.ReturnsPaid w) ∧
    (∀ (sender bond unbonding minUnbonding owner : ℕ) (S : GatewayRegistry) (balance : ℕ) (b : Block)
        (tr : List (FrameLabel (Move Registry.Call))) (c : Frames (World GatewayRegistry Registry.Call)),
      Registry.constructor sender bond unbonding minUnbonding owner = .ok S →
      Run (World.Reentrant Registry.host) ⟨World.genesis S balance b, []⟩ tr c →
      ∀ w, w = c.now ∨ w ∈ c.saved →
        BondLedger.Chronicle (BondLedger.Lawful S.UNBONDING) (deeds w.log)) := by
  constructor
  · intro bond unbonding minUnbonding limits bonds S balance b tr c hctor hrun w hw
    have hreach := World.reaches_of_reentrant hrun hw
    obtain ⟨-, hsound, hstory⟩ := Staked.refines.reaches (Staked.fresh hctor) hreach
    have htiers := Staked.tiered_of_reaches (Staked.Tiered.new hctor) hreach
    exact ⟨hstory.lawful, Staked.slashable_of_story hsound hstory,
      Staked.returnsPaid_of_story hstory htiers⟩
  · intro sender bond unbonding minUnbonding owner S balance b tr c hctor hrun w hw
    have hreach := World.reaches_of_reentrant hrun hw
    obtain ⟨-, -, hstory⟩ := Registry.refines.reaches (Registry.fresh hctor) hreach
    exact hstory.lawful

/-- The member `7` and the operator `3` after they withdrew and registered again: the withdrawal is lawful,
and the member is back under the index `1`, where it can be slashed. -/
theorem bonds_paid_once_after_unbonding_reentered :
    (∃ w : World StakedReputationSet Staked.Call,
      deeds w.log = [⟨.deposit, 7, 0, 5, 1⟩, ⟨.exit, 7, 0, 5, 1⟩, ⟨.withdraw, 7, 0, 5, 11⟩,
        ⟨.deposit, 7, 1, 5, 11⟩] ∧
      BondLedger.Chronicle (BondLedger.Lawful 10) (deeds w.log) ∧
      Staked.Slashable (fun a b => a + b) 1 ⟨fun _ _ _ _ => true, fun _ _ => some 7⟩ w ∧
      Staked.ReturnsPaid w) ∧
    (∃ w : World GatewayRegistry Registry.Call,
      deeds w.log = [⟨.deposit, 3, 0, 5, 1⟩, ⟨.exit, 3, 0, 5, 1⟩, ⟨.withdraw, 3, 0, 5, 11⟩,
        ⟨.deposit, 3, 1, 5, 11⟩] ∧
      BondLedger.Chronicle (BondLedger.Lawful 10) (deeds w.log)) := by
  obtain ⟨S, tr, c, hctor, hrun, -, -, hlog⟩ := Staked.reentered
  obtain ⟨R, tr', c', hctor', hrun', -, -, hlog'⟩ := Registry.reentered
  have h := (bonds_paid_once_after_unbonding _ _ _).1 5 10 0 [] [] S _ _ _ _ hctor hrun _ (.inl rfl)
  have h' := (bonds_paid_once_after_unbonding (fun a b => a + b) 1 ⟨fun _ _ _ _ => true, fun _ _ => none⟩).2
    1 5 10 0 0 R _ _ _ _ hctor' hrun' _ (.inl rfl)
  obtain rfl := Except.ok.inj hctor
  obtain rfl := Except.ok.inj hctor'
  exact ⟨⟨c.now, hlog, h⟩, ⟨c'.now, hlog', h'⟩⟩

end ShadeTree.Contracts
