import ShadeTree.Contracts.StakedReputationSet

/-!
# The paid admission set (`PaidAccessSet.sol`)

The same tree as `StakedReputationSet`, fed by the operator after an off-chain payment: no bonds and no
exit, so a leaf is live from its insertion until it is slashed.
-/

namespace ShadeTree.Contracts

open Function (update)
open ShadeTree.Roots (Topic MemberEvent)

namespace Paid

inductive Error where
  | BadLimit | BadTierTable | BadHasher | BadBatch | AlreadyInserted | NotInserted | BadSecret
  | NotOperator | NotPendingOperator | HasherRevert | Panic
  deriving DecidableEq, Repr

/-- `struct Leaf`; a limit of `0` means not live. -/
structure Leaf where
  index : ℕ
  limit : ℕ

def Leaf.none : Leaf := ⟨0, 0⟩

inductive Event where
  | Inserted (commitment limit index root : ℕ)
  | Slashed (commitment limit index root : ℕ)
  | OperatorTransferStarted (operator nominee : ℕ)
  | OperatorTransferred (operator nominee : ℕ)
  deriving DecidableEq, Repr

/-- The topic and the indexed commitment of a membership event. -/
def Event.toMember : Event → Option MemberEvent
  | .Inserted c _ _ _ => some ⟨.inserted, c⟩
  | .Slashed c _ _ _ => some ⟨.paidSlashed, c⟩
  | _ => none

end Paid

/-- The storage of the contract. -/
structure PaidAccessSet where
  allowed : ℕ → Bool
  allowedLimits : List ℕ
  leaves : ℕ → Paid.Leaf
  nextIndex : ℕ
  liveCount : ℕ
  tree : Tree
  operator : ℕ
  pendingOperator : ℕ

namespace Paid

section Constructor

variable (H : ℕ → ℕ → ℕ) (z : ℕ)

/-- The tier table the constructor builds, with its loop variables. -/
structure TierTable where
  allowed : ℕ → Bool
  allowedLimits : List ℕ
  prev : ℕ
  hasDefault : Bool

/-- The loop of the constructor over `limits`. -/
def addTiers : TierTable → List ℕ → Except Error TierTable
  | t, [] => .ok t
  | t, lim :: rest =>
    if lim = 0 ∨ MAX_LIMIT < lim then .error .BadLimit
    else if lim ≤ t.prev then .error .BadTierTable
    else
      addTiers
        { allowed := update t.allowed lim true
          allowedLimits := t.allowedLimits ++ [lim]
          prev := lim
          hasDefault := t.hasDefault || lim == DEFAULT_LIMIT } rest

/-- `constructor(_operator, _hasher, limits)` called by `sender`. -/
def constructor (sender operator hasher : ℕ) (limits : List ℕ) : Except Error PaidAccessSet :=
  if hasher = 0 then .error .BadHasher
  else if limits.length = 0 then .error .BadTierTable
  else
    match addTiers ⟨fun _ => false, [], 0, false⟩ limits with
    | .error e => .error e
    | .ok t =>
      if !t.hasDefault then .error .BadTierTable
      else
        .ok { allowed := t.allowed
              allowedLimits := t.allowedLimits
              leaves := fun _ => Leaf.none
              nextIndex := 0
              liveCount := 0
              tree := Tree.new H z
              operator := if operator = 0 then sender else operator
              pendingOperator := 0 }

end Constructor

/-- `limitOf(commitment)`. -/
def limitOf (S : PaidAccessSet) (commitment : ℕ) : ℕ := (S.leaves commitment).limit

/-! ### Transitions -/

section Calls

variable (H : ℕ → ℕ → ℕ) (z : ℕ) (commitmentOf : ℕ → ℕ → Option ℕ)

/-- `_insert(commitment, limit)`. -/
def insertLeaf (S : PaidAccessSet) (commitment limit : ℕ) : Except Error (PaidAccessSet × Event) :=
  if !S.allowed limit then .error .BadLimit
  else if (S.leaves commitment).limit ≠ 0 then .error .AlreadyInserted
  else if 2 ^ 64 ≤ S.nextIndex + 1 ∨ 2 ^ 256 ≤ S.liveCount + 1 then .error .Panic
  else
    let index := S.nextIndex
    let tree := S.tree.updateLeaf H z index commitment
    .ok ({ S with
            nextIndex := S.nextIndex + 1
            leaves := update S.leaves commitment ⟨index, limit % 2 ^ 32⟩
            liveCount := S.liveCount + 1
            tree := tree },
         .Inserted commitment limit index tree.currentRoot)

/-- The loop of `insertBatch`. -/
def insertAll : PaidAccessSet → List (ℕ × ℕ) → Except Error (PaidAccessSet × List Event)
  | S, [] => .ok (S, [])
  | S, (c, l) :: rest =>
    match insertLeaf H z S c l with
    | .error e => .error e
    | .ok (S', ev) =>
      match insertAll S' rest with
      | .error e => .error e
      | .ok (S'', evs) => .ok (S'', ev :: evs)

/-- `insert(commitment, limit)`. -/
def insert (S : PaidAccessSet) (sender commitment limit : ℕ) :
    Except Error (PaidAccessSet × List Event) :=
  if sender ≠ S.operator then .error .NotOperator
  else
    match insertLeaf H z S commitment limit with
    | .error e => .error e
    | .ok (S', ev) => .ok (S', [ev])

/-- `insertBatch(commitments, limits)`. -/
def insertBatch (S : PaidAccessSet) (sender : ℕ) (commitments limits : List ℕ) :
    Except Error (PaidAccessSet × List Event) :=
  if sender ≠ S.operator then .error .NotOperator
  else if commitments.length = 0 ∨ commitments.length ≠ limits.length then .error .BadBatch
  else insertAll H z S (commitments.zip limits)

/-- `slash(commitment, secret, limit, receiver)`. -/
def slash (S : PaidAccessSet) (commitment secret limit : ℕ) :
    Except Error (PaidAccessSet × List Event) :=
  let l := S.leaves commitment
  if l.limit = 0 then .error .NotInserted
  else if l.limit ≠ limit then .error .BadLimit
  else
    match commitmentOf secret limit with
    | none => .error .HasherRevert
    | some leaf =>
      if leaf ≠ commitment then .error .BadSecret
      else if S.liveCount = 0 then .error .Panic
      else
        let tree := S.tree.updateLeaf H z l.index z
        .ok ({ S with
                leaves := update S.leaves commitment Leaf.none
                liveCount := S.liveCount - 1
                tree := tree },
             [.Slashed commitment limit l.index tree.currentRoot])

/-- `setOperator(to)`; `to` is the `nominee`. -/
def setOperator (S : PaidAccessSet) (sender nominee : ℕ) : Except Error (PaidAccessSet × List Event) :=
  if sender ≠ S.operator then .error .NotOperator
  else .ok ({ S with pendingOperator := nominee }, [.OperatorTransferStarted S.operator nominee])

/-- `acceptOperator()`. -/
def acceptOperator (S : PaidAccessSet) (sender : ℕ) : Except Error (PaidAccessSet × List Event) :=
  if sender = 0 ∨ sender ≠ S.pendingOperator then .error .NotPendingOperator
  else .ok ({ S with operator := sender, pendingOperator := 0 }, [.OperatorTransferred S.operator sender])

/-- The external calls that change the state. -/
inductive Call where
  | insert (commitment limit : ℕ)
  | insertBatch (commitments limits : List ℕ)
  | slash (commitment secret limit : ℕ)
  | setOperator (nominee : ℕ)
  | acceptOperator

/-- One call by `sender`. -/
def exec (S : PaidAccessSet) (sender : ℕ) : Call → Except Error (PaidAccessSet × List Event)
  | .insert c l => insert H z S sender c l
  | .insertBatch cs ls => insertBatch H z S sender cs ls
  | .slash c s l => slash H z commitmentOf S c s l
  | .setOperator nominee => setOperator S sender nominee
  | .acceptOperator => acceptOperator S sender

/-! ### What a successful call does -/

variable {H z commitmentOf} {S S' : PaidAccessSet}

lemma insertLeaf_ok {c l : ℕ} {ev : Event} (h : insertLeaf H z S c l = .ok (S', ev)) :
    S.allowed l = true ∧ (S.leaves c).limit = 0 ∧ S.nextIndex + 1 < 2 ^ 64 ∧
      S' = { S with
              nextIndex := S.nextIndex + 1
              leaves := update S.leaves c ⟨S.nextIndex, l % 2 ^ 32⟩
              liveCount := S.liveCount + 1
              tree := S.tree.updateLeaf H z S.nextIndex c } ∧
      ev = .Inserted c l S.nextIndex (S.tree.updateLeaf H z S.nextIndex c).currentRoot := by
  unfold insertLeaf at h
  dsimp only at h
  split_ifs at h with h₁ h₂ h₃
  simp only [Except.ok.injEq, Prod.mk.injEq] at h
  exact ⟨by simpa using h₁, not_not.mp h₂, by omega, h.1.symm, h.2.symm⟩

lemma slash_ok {c s l : ℕ} {evs : List Event} (h : slash H z commitmentOf S c s l = .ok (S', evs)) :
    (S.leaves c).limit ≠ 0 ∧ (S.leaves c).limit = l ∧ commitmentOf s l = some c ∧ S.liveCount ≠ 0 ∧
      S' = { S with
              leaves := update S.leaves c Leaf.none
              liveCount := S.liveCount - 1
              tree := S.tree.updateLeaf H z (S.leaves c).index z } ∧
      evs = [.Slashed c l (S.leaves c).index
        (S.tree.updateLeaf H z (S.leaves c).index z).currentRoot] := by
  unfold slash at h
  dsimp only at h
  cases hleaf : commitmentOf s l with
  | none =>
    rw [hleaf] at h
    split_ifs at h
  | some leaf =>
    simp only [hleaf] at h
    split_ifs at h with h₁ h₂ h₃ h₄
    simp only [Except.ok.injEq, Prod.mk.injEq] at h
    exact ⟨h₁, not_not.mp h₂, by rw [not_not.mp h₃], h₄, h.1.symm, h.2.symm⟩

lemma insert_eq_insertAll (sender c l : ℕ) :
    insert H z S sender c l =
      if sender ≠ S.operator then .error .NotOperator else insertAll H z S [(c, l)] := by
  unfold insert insertAll insertAll
  cases insertLeaf H z S c l <;> rfl

/-- The tiers the constructor admits are nonzero and fit 32 bits. -/
def TierTable.Valid (allowed : ℕ → Bool) : Prop := ∀ l, allowed l = true → 0 < l ∧ l ≤ MAX_LIMIT

lemma addTiers_valid {t t' : TierTable} {limits : List ℕ} (ht : TierTable.Valid t.allowed)
    (h : addTiers t limits = .ok t') : TierTable.Valid t'.allowed := by
  induction limits generalizing t with
  | nil =>
    obtain rfl : t = t' := by simpa [addTiers] using h
    exact ht
  | cons lim rest ih =>
    unfold addTiers at h
    split_ifs at h with h₁ h₂
    refine ih (fun l hl => ?_) h
    by_cases hll : l = lim
    · subst hll; omega
    · exact ht l (by simpa [Function.update_of_ne hll] using hl)

lemma constructor_ok {sender operator hasher : ℕ} {limits : List ℕ}
    (h : constructor H z sender operator hasher limits = .ok S) :
    TierTable.Valid S.allowed ∧ S.leaves = (fun _ => Leaf.none) ∧ S.nextIndex = 0 ∧ S.liveCount = 0 ∧
      S.tree = Tree.new H z := by
  unfold constructor at h
  cases ht : addTiers ⟨fun _ => false, [], 0, false⟩ limits with
  | error e =>
    rw [ht] at h
    split_ifs at h
  | ok t =>
    have hv := addTiers_valid (by intro l hl; simp at hl) ht
    simp only [ht] at h
    split_ifs at h
    all_goals
      simp only [Except.ok.injEq] at h
      subst h
      exact ⟨hv, rfl, rfl, rfl, rfl⟩

end Calls

end Paid

end ShadeTree.Contracts
