import ShadeTree.Contracts.Tree
import ShadeTree.Roots.Reconstruct

/-!
# The staked admission set (`StakedReputationSet.sol`)

The contract as a state and one transition per external function.  A call that reverts is an error and
leaves the state as it was; a call that succeeds returns the new state and the events it emitted.  The
two contracts it calls, the proof verifier and the commitment hasher, are parameters (`Externals`), and
whether the payout to the recipient succeeds is an input of the call.  The payout is the last thing a call
does, so a call that the recipient makes from its receive hook comes after it in a trace.

The one-argument overloads of `register` and `slash` are the calls at `DEFAULT_LIMIT`.
-/

namespace ShadeTree.Contracts

open Function (update)
open ShadeTree.Roots (Topic MemberEvent)

def DEFAULT_LIMIT : ℕ := 8
def MAX_LIMIT : ℕ := 65535

/-- The block a call is in: its timestamp is positive and fits 64 bits. -/
structure Block where
  timestamp : ℕ
  pos : 0 < timestamp
  lt : timestamp < 2 ^ 64

/-- What an authorization proof is bound to: `keccak256` of the action and its arguments. -/
inductive AuthContext where
  | exit (commitment : ℕ)
  | withdraw (commitment recipient : ℕ)
  deriving DecidableEq

/-- The contracts called: `IWithdrawVerifier.verify` and `ICommitmentHasher.commitmentOf` (`none` when
the hasher reverts). -/
structure Externals where
  verify : ℕ → ℕ → AuthContext → List ℕ → Bool
  commitmentOf : ℕ → ℕ → Option ℕ

namespace Staked

inductive Error where
  | BadBond | BadLimit | BadTierTable | UnbondingTooShort | AlreadyMember | NotMember | NotExiting
  | AlreadyExiting | StillBonded | BadProof | BadSecret | PayoutFailed | HasherRevert | Panic
  deriving DecidableEq, Repr

/-- `struct Member`. -/
structure Member where
  bond : ℕ
  index : ℕ
  exitInitiatedAt : ℕ
  limit : ℕ

/-- The value of an unset mapping entry. -/
def Member.none : Member := ⟨0, 0, 0, 0⟩

inductive Event where
  | MemberRegistered (commitment index limit : ℕ)
  | MemberExiting (commitment exitInitiatedAt withdrawableAt : ℕ)
  | MemberWithdrawn (commitment recipient : ℕ)
  | MemberSlashed (commitment receiver limit : ℕ)
  deriving DecidableEq, Repr

/-- The topic and the indexed commitment of an event. -/
def Event.toMember : Event → MemberEvent
  | .MemberRegistered c _ _ => ⟨.registeredV4, c⟩
  | .MemberExiting c _ _ => ⟨.exiting, c⟩
  | .MemberWithdrawn c _ => ⟨.withdrawn, c⟩
  | .MemberSlashed c _ _ => ⟨.slashedV4, c⟩

end Staked

/-- The storage and the immutables of the contract. -/
structure StakedReputationSet where
  BOND : ℕ
  UNBONDING : ℕ
  bondOf : ℕ → ℕ
  allowedLimits : List ℕ
  members : ℕ → Staked.Member
  nextIndex : ℕ
  activeCount : ℕ
  tree : Tree

namespace Staked

section Constructor

variable (H : ℕ → ℕ → ℕ) (z : ℕ)

/-- The tier table the constructor builds: `_bondOf` and `_allowedLimits`, with its loop variables. -/
structure TierTable where
  bondOf : ℕ → ℕ
  allowedLimits : List ℕ
  prev : ℕ
  pushedDefault : Bool

/-- The loop of the constructor over `extraLimits` and `extraBonds`. -/
def addTiers : TierTable → List (ℕ × ℕ) → Except Error TierTable
  | t, [] => .ok t
  | t, (lim, extraBond) :: rest =>
    if lim = 0 ∨ MAX_LIMIT < lim ∨ lim = DEFAULT_LIMIT then .error .BadLimit
    else if lim ≤ t.prev ∨ t.bondOf lim ≠ 0 then .error .BadTierTable
    else if extraBond = 0 then .error .BadBond
    else
      let push := !t.pushedDefault && decide (DEFAULT_LIMIT < lim)
      addTiers
        { bondOf := update t.bondOf lim extraBond
          allowedLimits := (if push then t.allowedLimits ++ [DEFAULT_LIMIT] else t.allowedLimits) ++ [lim]
          prev := lim
          pushedDefault := t.pushedDefault || push } rest

/-- `constructor(bond, unbonding, minUnbonding, .., extraLimits, extraBonds)`. -/
def constructor (bond unbonding minUnbonding : ℕ) (extraLimits extraBonds : List ℕ) :
    Except Error StakedReputationSet :=
  if bond = 0 then .error .BadBond
  else if unbonding < minUnbonding then .error .UnbondingTooShort
  else if extraLimits.length ≠ extraBonds.length then .error .BadTierTable
  else
    match addTiers ⟨update (fun _ => 0) DEFAULT_LIMIT bond, [], 0, false⟩ (extraLimits.zip extraBonds) with
    | .error e => .error e
    | .ok t =>
      .ok { BOND := bond
            UNBONDING := unbonding
            bondOf := t.bondOf
            allowedLimits := if t.pushedDefault then t.allowedLimits else t.allowedLimits ++ [DEFAULT_LIMIT]
            members := fun _ => Member.none
            nextIndex := 0
            activeCount := 0
            tree := Tree.new H z }

end Constructor

/-! ### Views -/

/-- `limitOf(commitment)`. -/
def limitOf (S : StakedReputationSet) (commitment : ℕ) : ℕ :=
  if (S.members commitment).bond = 0 then 0 else (S.members commitment).limit

/-- `isActive(commitment)`. -/
def isActive (S : StakedReputationSet) (commitment : ℕ) : Bool :=
  (S.members commitment).bond != 0 && (S.members commitment).exitInitiatedAt == 0

/-! ### Transitions -/

section Calls

variable (H : ℕ → ℕ → ℕ) (z : ℕ) (X : Externals)

/-- `register(commitment, limit)` with `msg.value = value`. -/
def register (S : StakedReputationSet) (commitment limit value : ℕ) :
    Except Error (StakedReputationSet × List Event) :=
  let bond := S.bondOf limit
  if bond = 0 then .error .BadLimit
  else if value ≠ bond then .error .BadBond
  else if (S.members commitment).bond ≠ 0 then .error .AlreadyMember
  else if 2 ^ 64 ≤ S.nextIndex + 1 ∨ 2 ^ 256 ≤ S.activeCount + 1 then .error .Panic
  else
    let index := S.nextIndex
    .ok ({ S with
            nextIndex := S.nextIndex + 1
            members := update S.members commitment ⟨bond, index, 0, limit % 2 ^ 32⟩
            activeCount := S.activeCount + 1
            tree := S.tree.updateLeaf H z index commitment },
         [.MemberRegistered commitment index limit])

/-- `initiateExit(commitment, proof)`. -/
def initiateExit (S : StakedReputationSet) (b : Block) (commitment : ℕ) (proof : List ℕ) :
    Except Error (StakedReputationSet × List Event) :=
  let m := S.members commitment
  if m.bond = 0 then .error .NotMember
  else if m.exitInitiatedAt ≠ 0 then .error .AlreadyExiting
  else if !X.verify commitment m.limit (.exit commitment) proof then .error .BadProof
  else if S.activeCount = 0 ∨ 2 ^ 256 ≤ b.timestamp + S.UNBONDING then .error .Panic
  else
    .ok ({ S with
            members := update S.members commitment { m with exitInitiatedAt := b.timestamp % 2 ^ 64 }
            activeCount := S.activeCount - 1
            tree := S.tree.updateLeaf H z m.index z },
         [.MemberExiting commitment (b.timestamp % 2 ^ 64) ((b.timestamp + S.UNBONDING) % 2 ^ 64)])

/-- `withdraw(commitment, recipient, proof)`; `paid` is whether the recipient accepts the payout. -/
def withdraw (S : StakedReputationSet) (b : Block) (commitment recipient : ℕ) (proof : List ℕ)
    (paid : Bool) : Except Error (StakedReputationSet × List Event) :=
  let m := S.members commitment
  if m.bond = 0 then .error .NotMember
  else if m.exitInitiatedAt = 0 then .error .NotExiting
  else if 2 ^ 256 ≤ m.exitInitiatedAt + S.UNBONDING then .error .Panic
  else if b.timestamp < m.exitInitiatedAt + S.UNBONDING then .error .StillBonded
  else if !X.verify commitment m.limit (.withdraw commitment recipient) proof then .error .BadProof
  else if !paid then .error .PayoutFailed
  else
    .ok ({ S with members := update S.members commitment Member.none },
         [.MemberWithdrawn commitment recipient])

/-- `slash(commitment, secret, limit, receiver)`. -/
def slash (S : StakedReputationSet) (commitment secret limit receiver : ℕ) (paid : Bool) :
    Except Error (StakedReputationSet × List Event) :=
  let m := S.members commitment
  if m.bond = 0 then .error .NotMember
  else if m.limit ≠ limit then .error .BadLimit
  else
    match X.commitmentOf secret limit with
    | none => .error .HasherRevert
    | some leaf =>
      -- the leaf is zeroed only if the member was still in the admission set
      let wasActive := m.exitInitiatedAt == 0
      if leaf ≠ commitment then .error .BadSecret
      else if wasActive ∧ S.activeCount = 0 then .error .Panic
      else if !paid then .error .PayoutFailed
      else
        .ok ({ S with
                members := update S.members commitment Member.none
                activeCount := if wasActive then S.activeCount - 1 else S.activeCount
                tree := if wasActive then S.tree.updateLeaf H z m.index z else S.tree },
             [.MemberSlashed commitment receiver limit])

/-- The external calls that change the state. -/
inductive Call where
  | register (commitment limit value : ℕ)
  | initiateExit (commitment : ℕ) (proof : List ℕ)
  | withdraw (commitment recipient : ℕ) (proof : List ℕ) (paid : Bool)
  | slash (commitment secret limit receiver : ℕ) (paid : Bool)

/-- One call in a block. -/
def exec (S : StakedReputationSet) (b : Block) : Call → Except Error (StakedReputationSet × List Event)
  | .register c l v => register H z S c l v
  | .initiateExit c π => initiateExit H z X S b c π
  | .withdraw c r π paid => withdraw X S b c r π paid
  | .slash c s l r paid => slash H z X S c s l r paid

/-! ### What a successful call does -/

variable {H z X} {S S' : StakedReputationSet} {b : Block} {evs : List Event}

lemma register_ok {c l v : ℕ} (h : register H z S c l v = .ok (S', evs)) :
    S.bondOf l ≠ 0 ∧ v = S.bondOf l ∧ (S.members c).bond = 0 ∧ S.nextIndex + 1 < 2 ^ 64 ∧
      S' = { S with
              nextIndex := S.nextIndex + 1
              members := update S.members c ⟨S.bondOf l, S.nextIndex, 0, l % 2 ^ 32⟩
              activeCount := S.activeCount + 1
              tree := S.tree.updateLeaf H z S.nextIndex c } ∧
      evs = [.MemberRegistered c S.nextIndex l] := by
  unfold register at h
  dsimp only at h
  split_ifs at h with h₁ h₂ h₃ h₄
  simp only [Except.ok.injEq, Prod.mk.injEq] at h
  exact ⟨h₁, not_not.mp h₂, not_not.mp h₃, by omega, h.1.symm, h.2.symm⟩

lemma initiateExit_ok {c : ℕ} {π : List ℕ} (h : initiateExit H z X S b c π = .ok (S', evs)) :
    (S.members c).bond ≠ 0 ∧ (S.members c).exitInitiatedAt = 0 ∧
      X.verify c (S.members c).limit (.exit c) π = true ∧ S.activeCount ≠ 0 ∧
      S' = { S with
              members := update S.members c { S.members c with exitInitiatedAt := b.timestamp % 2 ^ 64 }
              activeCount := S.activeCount - 1
              tree := S.tree.updateLeaf H z (S.members c).index z } ∧
      evs = [.MemberExiting c (b.timestamp % 2 ^ 64) ((b.timestamp + S.UNBONDING) % 2 ^ 64)] := by
  unfold initiateExit at h
  dsimp only at h
  split_ifs at h with h₁ h₂ h₃ h₄
  simp only [Except.ok.injEq, Prod.mk.injEq] at h
  exact ⟨h₁, not_not.mp h₂, by simpa using h₃, fun h₀ => h₄ (.inl h₀), h.1.symm, h.2.symm⟩

lemma withdraw_ok {c r : ℕ} {π : List ℕ} {paid : Bool}
    (h : withdraw X S b c r π paid = .ok (S', evs)) :
    (S.members c).bond ≠ 0 ∧ (S.members c).exitInitiatedAt ≠ 0 ∧
      (S.members c).exitInitiatedAt + S.UNBONDING ≤ b.timestamp ∧
      X.verify c (S.members c).limit (.withdraw c r) π = true ∧ paid = true ∧
      S' = { S with members := update S.members c Member.none } ∧ evs = [.MemberWithdrawn c r] := by
  unfold withdraw at h
  dsimp only at h
  split_ifs at h with h₁ h₂ h₃ h₄ h₅ h₆
  simp only [Except.ok.injEq, Prod.mk.injEq] at h
  exact ⟨h₁, h₂, by omega, by simpa using h₅, by simpa using h₆, h.1.symm, h.2.symm⟩

lemma slash_ok {c s l r : ℕ} {paid : Bool} (h : slash H z X S c s l r paid = .ok (S', evs)) :
    (S.members c).bond ≠ 0 ∧ (S.members c).limit = l ∧ X.commitmentOf s l = some c ∧ paid = true ∧
      ((S.members c).exitInitiatedAt = 0 → S.activeCount ≠ 0) ∧
      S' = { S with
              members := update S.members c Member.none
              activeCount := if (S.members c).exitInitiatedAt = 0 then S.activeCount - 1 else S.activeCount
              tree := if (S.members c).exitInitiatedAt = 0 then
                  S.tree.updateLeaf H z (S.members c).index z else S.tree } ∧
      evs = [.MemberSlashed c r l] := by
  unfold slash at h
  dsimp only at h
  cases hleaf : X.commitmentOf s l with
  | none =>
    rw [hleaf] at h
    split_ifs at h
  | some leaf =>
    simp only [hleaf, beq_iff_eq] at h
    split_ifs at h with h₁ h₂ h₃ h₄ h₅ h₆
    all_goals
      simp only [Except.ok.injEq, Prod.mk.injEq] at h
      refine ⟨h₁, not_not.mp h₂, by rw [not_not.mp h₃], by simpa using h₅, fun h₀ h₀' => h₄ ⟨h₀, h₀'⟩, ?_,
        h.2.symm⟩
      simp only [h₆, if_true, if_false, h.1.symm]

lemma constructor_ok {bond unbonding minUnbonding : ℕ} {extraLimits extraBonds : List ℕ}
    (h : constructor H z bond unbonding minUnbonding extraLimits extraBonds = .ok S) :
    S.members = (fun _ => Member.none) ∧ S.nextIndex = 0 ∧ S.activeCount = 0 ∧ S.tree = Tree.new H z := by
  unfold constructor at h
  split_ifs at h with h₁ h₂ h₃
  split at h
  · cases h
  · simp only [Except.ok.injEq] at h
    subst h
    exact ⟨rfl, rfl, rfl, rfl⟩

/-! ### Tiers -/

/-- The tiers with a bond are the ones the constructor admits, and a bond held is that of its tier. -/
structure Tiered (S : StakedReputationSet) : Prop where
  table : ∀ l, S.bondOf l ≠ 0 → 0 < l ∧ l ≤ MAX_LIMIT
  recorded : ∀ c, (S.members c).bond ≠ 0 → (S.members c).bond = S.bondOf (S.members c).limit

lemma addTiers_table {t t' : TierTable} {tiers : List (ℕ × ℕ)}
    (ht : ∀ l, t.bondOf l ≠ 0 → 0 < l ∧ l ≤ MAX_LIMIT) (h : addTiers t tiers = .ok t') :
    ∀ l, t'.bondOf l ≠ 0 → 0 < l ∧ l ≤ MAX_LIMIT := by
  induction tiers generalizing t with
  | nil =>
    obtain rfl : t = t' := by simpa [addTiers] using h
    exact ht
  | cons tier rest ih =>
    obtain ⟨lim, extraBond⟩ := tier
    unfold addTiers at h
    split_ifs at h with h₁ h₂ h₃
    refine ih (fun l hl => ?_) h
    by_cases hll : l = lim
    · subst hll; omega
    · exact ht l (by simpa [Function.update_of_ne hll] using hl)

lemma Tiered.new {bond unbonding minUnbonding : ℕ} {extraLimits extraBonds : List ℕ}
    (h : constructor H z bond unbonding minUnbonding extraLimits extraBonds = .ok S) : Tiered S := by
  unfold constructor at h
  cases ht : addTiers ⟨update (fun _ => 0) DEFAULT_LIMIT bond, [], 0, false⟩
      (extraLimits.zip extraBonds) with
  | error e =>
    simp only [ht] at h
    split_ifs at h
  | ok t =>
    have htable := addTiers_table (fun l hl => ?_) ht
    · simp only [ht] at h
      split_ifs at h
      all_goals
        simp only [Except.ok.injEq] at h
        subst h
        exact ⟨htable, fun c hc => absurd rfl hc⟩
    · obtain rfl : l = DEFAULT_LIMIT := by
        by_contra hne
        exact hl (by simp [Function.update_of_ne hne])
      decide

/-- Writing a member record whose bond, if any, is that of its tier keeps the tiers. -/
lemma Tiered.update (h : Tiered S) {c : ℕ} {m : Member} (hm : m.bond ≠ 0 → m.bond = S.bondOf m.limit) :
    ∀ j, (update S.members c m j).bond ≠ 0 →
      (update S.members c m j).bond = S.bondOf (update S.members c m j).limit := by
  intro j hj
  by_cases hjc : j = c
  · subst hjc
    rw [Function.update_self] at hj ⊢
    exact hm hj
  · rw [Function.update_of_ne hjc] at hj ⊢
    exact h.recorded j hj

/-- A successful call keeps the tiers. -/
theorem Tiered.exec (h : Tiered S) {call : Call} (hok : exec H z X S b call = .ok (S', evs)) :
    Tiered S' := by
  cases call with
  | register c l v =>
    obtain ⟨hbond, -, -, -, rfl, -⟩ := register_ok hok
    refine ⟨h.table, h.update fun _ => ?_⟩
    have hl := (h.table l hbond).2
    show S.bondOf l = S.bondOf (l % 2 ^ 32)
    rw [Nat.mod_eq_of_lt (by unfold MAX_LIMIT at hl; omega)]
  | initiateExit c π =>
    obtain ⟨hbond, -, -, -, rfl, -⟩ := initiateExit_ok hok
    exact ⟨h.table, h.update (m := { S.members c with exitInitiatedAt := _ }) fun hb => h.recorded c hb⟩
  | withdraw c r π paid =>
    obtain ⟨-, -, -, -, -, rfl, -⟩ := withdraw_ok hok
    exact ⟨h.table, h.update fun hb => absurd rfl hb⟩
  | slash c s l r paid =>
    obtain ⟨-, -, -, -, -, rfl, -⟩ := slash_ok hok
    exact ⟨h.table, h.update fun hb => absurd rfl hb⟩

end Calls

end Staked

end ShadeTree.Contracts
