import ShadeTree.Contracts.StakedReputationSet

/-!
# The gateway stake (`GatewayRegistry.sol`)

The gateway-side dual of the staked set: one bond for an operator address, an exit with the same time-lock,
and a slash by the owner.  The caller (`msg.sender`) is an argument of each call.
-/

namespace ShadeTree.Contracts

open Function (update)

namespace Registry

inductive Error where
  | BadBond | UnbondingTooShort | AlreadyStaked | NotStaked | NotExiting | AlreadyExiting | StillBonded
  | NotOwner | PayoutFailed | Panic
  deriving DecidableEq, Repr

/-- `struct Stake`. -/
structure Stake where
  bond : ℕ
  index : ℕ
  exitInitiatedAt : ℕ

/-- The value of an unset mapping entry. -/
def Stake.none : Stake := ⟨0, 0, 0⟩

inductive Event where
  | GatewayStaked (operator index : ℕ)
  | GatewayExiting (operator exitInitiatedAt withdrawableAt : ℕ)
  | GatewayWithdrawn (operator recipient : ℕ)
  | GatewaySlashed (operator receiver : ℕ)
  | OwnerTransferred (owner nominee : ℕ)
  deriving DecidableEq, Repr

end Registry

/-- The storage and the immutables of the contract; the constructor refuses a bond of `0`. -/
structure GatewayRegistry where
  BOND : ℕ
  BOND_ne : BOND ≠ 0
  UNBONDING : ℕ
  owner : ℕ
  stakes : ℕ → Registry.Stake
  nextIndex : ℕ
  activeCount : ℕ

namespace Registry

/-- `constructor(bond, unbonding, minUnbonding, _owner)` called by `sender`. -/
def constructor (sender bond unbonding minUnbonding owner : ℕ) : Except Error GatewayRegistry :=
  if h : bond = 0 then .error .BadBond
  else if unbonding < minUnbonding then .error .UnbondingTooShort
  else
    .ok { BOND := bond
          BOND_ne := h
          UNBONDING := unbonding
          owner := if owner = 0 then sender else owner
          stakes := fun _ => Stake.none
          nextIndex := 0
          activeCount := 0 }

/-- `isStaked(operator)`. -/
def isStaked (S : GatewayRegistry) (operator : ℕ) : Bool :=
  (S.stakes operator).bond != 0 && (S.stakes operator).exitInitiatedAt == 0

/-! ### Transitions -/

/-- `register()` with `msg.value = value`. -/
def register (S : GatewayRegistry) (sender value : ℕ) : Except Error (GatewayRegistry × List Event) :=
  if value ≠ S.BOND then .error .BadBond
  else if (S.stakes sender).bond ≠ 0 then .error .AlreadyStaked
  else if 2 ^ 64 ≤ S.nextIndex + 1 ∨ 2 ^ 256 ≤ S.activeCount + 1 then .error .Panic
  else
    let index := S.nextIndex
    .ok ({ S with
            nextIndex := S.nextIndex + 1
            stakes := update S.stakes sender ⟨S.BOND, index, 0⟩
            activeCount := S.activeCount + 1 },
         [.GatewayStaked sender index])

/-- `initiateExit()`. -/
def initiateExit (S : GatewayRegistry) (b : Block) (sender : ℕ) :
    Except Error (GatewayRegistry × List Event) :=
  let s := S.stakes sender
  if s.bond = 0 then .error .NotStaked
  else if s.exitInitiatedAt ≠ 0 then .error .AlreadyExiting
  else if S.activeCount = 0 ∨ 2 ^ 256 ≤ b.timestamp + S.UNBONDING then .error .Panic
  else
    .ok ({ S with
            stakes := update S.stakes sender { s with exitInitiatedAt := b.timestamp % 2 ^ 64 }
            activeCount := S.activeCount - 1 },
         [.GatewayExiting sender (b.timestamp % 2 ^ 64) ((b.timestamp + S.UNBONDING) % 2 ^ 64)])

/-- `withdraw(recipient)`; `paid` is whether the recipient accepts the payout. -/
def withdraw (S : GatewayRegistry) (b : Block) (sender recipient : ℕ) (paid : Bool) :
    Except Error (GatewayRegistry × List Event) :=
  let s := S.stakes sender
  if s.bond = 0 then .error .NotStaked
  else if s.exitInitiatedAt = 0 then .error .NotExiting
  else if 2 ^ 256 ≤ s.exitInitiatedAt + S.UNBONDING then .error .Panic
  else if b.timestamp < s.exitInitiatedAt + S.UNBONDING then .error .StillBonded
  else if !paid then .error .PayoutFailed
  else
    .ok ({ S with stakes := update S.stakes sender Stake.none }, [.GatewayWithdrawn sender recipient])

/-- `slash(operator, receiver)`. -/
def slash (S : GatewayRegistry) (sender operator receiver : ℕ) (paid : Bool) :
    Except Error (GatewayRegistry × List Event) :=
  if sender ≠ S.owner then .error .NotOwner
  else
    let s := S.stakes operator
    if s.bond = 0 then .error .NotStaked
    else
      let wasActive := s.exitInitiatedAt == 0
      if wasActive ∧ S.activeCount = 0 then .error .Panic
      else if !paid then .error .PayoutFailed
      else
        .ok ({ S with
                stakes := update S.stakes operator Stake.none
                activeCount := if wasActive then S.activeCount - 1 else S.activeCount },
             [.GatewaySlashed operator receiver])

/-- `transferOwnership(to)`; `to` is the `nominee`. -/
def transferOwnership (S : GatewayRegistry) (sender nominee : ℕ) :
    Except Error (GatewayRegistry × List Event) :=
  if sender ≠ S.owner then .error .NotOwner
  else .ok ({ S with owner := nominee }, [.OwnerTransferred S.owner nominee])

/-- The external calls that change the state, each by a `sender`. -/
inductive Call where
  | register (sender value : ℕ)
  | initiateExit (sender : ℕ)
  | withdraw (sender recipient : ℕ) (paid : Bool)
  | slash (sender operator receiver : ℕ) (paid : Bool)
  | transferOwnership (sender nominee : ℕ)

/-- One call in a block. -/
def exec (S : GatewayRegistry) (b : Block) : Call → Except Error (GatewayRegistry × List Event)
  | .register sender v => register S sender v
  | .initiateExit sender => initiateExit S b sender
  | .withdraw sender r paid => withdraw S b sender r paid
  | .slash sender o r paid => slash S sender o r paid
  | .transferOwnership sender n => transferOwnership S sender n

/-! ### What a successful call does -/

section Calls

variable {S S' : GatewayRegistry} {b : Block} {evs : List Event}

lemma register_ok {a v : ℕ} (h : register S a v = .ok (S', evs)) :
    v = S.BOND ∧ (S.stakes a).bond = 0 ∧
      S' = { S with
              nextIndex := S.nextIndex + 1
              stakes := update S.stakes a ⟨S.BOND, S.nextIndex, 0⟩
              activeCount := S.activeCount + 1 } := by
  unfold register at h
  dsimp only at h
  split_ifs at h with h₁ h₂ h₃
  simp only [Except.ok.injEq, Prod.mk.injEq] at h
  exact ⟨not_not.mp h₁, not_not.mp h₂, h.1.symm⟩

lemma initiateExit_ok {a : ℕ} (h : initiateExit S b a = .ok (S', evs)) :
    (S.stakes a).bond ≠ 0 ∧ (S.stakes a).exitInitiatedAt = 0 ∧ S.activeCount ≠ 0 ∧
      S' = { S with
              stakes := update S.stakes a { S.stakes a with exitInitiatedAt := b.timestamp % 2 ^ 64 }
              activeCount := S.activeCount - 1 } := by
  unfold initiateExit at h
  dsimp only at h
  split_ifs at h with h₁ h₂ h₃
  simp only [Except.ok.injEq, Prod.mk.injEq] at h
  exact ⟨h₁, not_not.mp h₂, fun h₀ => h₃ (.inl h₀), h.1.symm⟩

lemma withdraw_ok {a r : ℕ} {paid : Bool} (h : withdraw S b a r paid = .ok (S', evs)) :
    (S.stakes a).bond ≠ 0 ∧ (S.stakes a).exitInitiatedAt ≠ 0 ∧
      (S.stakes a).exitInitiatedAt + S.UNBONDING ≤ b.timestamp ∧
      S' = { S with stakes := update S.stakes a Stake.none } := by
  unfold withdraw at h
  dsimp only at h
  split_ifs at h with h₁ h₂ h₃ h₄ h₅
  simp only [Except.ok.injEq, Prod.mk.injEq] at h
  exact ⟨h₁, h₂, by omega, h.1.symm⟩

lemma slash_ok {a o r : ℕ} {paid : Bool} (h : slash S a o r paid = .ok (S', evs)) :
    a = S.owner ∧ (S.stakes o).bond ≠ 0 ∧ ((S.stakes o).exitInitiatedAt = 0 → S.activeCount ≠ 0) ∧
      S' = { S with
              stakes := update S.stakes o Stake.none
              activeCount :=
                if (S.stakes o).exitInitiatedAt = 0 then S.activeCount - 1 else S.activeCount } := by
  unfold slash at h
  simp only [beq_iff_eq] at h
  split_ifs at h with h₁ h₂ h₃ h₄ h₅
  all_goals
    simp only [Except.ok.injEq, Prod.mk.injEq] at h
    refine ⟨not_not.mp h₁, h₂, fun h₀ h₀' => h₃ ⟨h₀, h₀'⟩, ?_⟩
    simp only [h₅, if_true, if_false, h.1.symm]

lemma transferOwnership_ok {a n : ℕ} (h : transferOwnership S a n = .ok (S', evs)) :
    a = S.owner ∧ S' = { S with owner := n } := by
  unfold transferOwnership at h
  split_ifs at h with h₁
  simp only [Except.ok.injEq, Prod.mk.injEq] at h
  exact ⟨not_not.mp h₁, h.1.symm⟩

lemma constructor_ok {sender bond unbonding minUnbonding owner : ℕ}
    (h : constructor sender bond unbonding minUnbonding owner = .ok S) :
    S.stakes = (fun _ => Stake.none) ∧ S.nextIndex = 0 ∧ S.activeCount = 0 := by
  unfold constructor at h
  split_ifs at h with h₁ h₂
  all_goals
    simp only [Except.ok.injEq] at h
    subst h
    exact ⟨rfl, rfl, rfl⟩

end Calls

end Registry

end ShadeTree.Contracts
