import Mathlib.Data.List.Sort
import ShadeTree.Contracts.PoseidonT3
import ShadeTree.Contracts.StakedReputationSet
import ShadeTree.Contracts.PaidAccessSet
import ShadeTree.Gateway.Envelope

/-!
# From an over-spend to the slash transaction (`gateway/gateway.mjs`, `lib/rln.mjs`)

The slashers are built once, one for each target contract: a slasher whose two probes of the tier table
succeeded is tiered and knows the tiers of the contract, any other keeps the older call for its lifetime.
After an over-spend the local member list may name the tier of the secret; a tiered slasher else asks the
contract for the leaf it holds, and with several targets the first one that holds a leaf is slashed.

The slash key and the package of the chain client are there, and every call after the start succeeds: a
call of a view function that the contract does not have still throws.  The tier table of a contract is
immutable, so one record of the contract stands for the start and the over-spend.
-/

namespace ShadeTree.Gateway

open ShadeTree.Contracts

/-- The tiers this gateway knows; the default one is always among them. -/
structure Tiers where
  K_SLOTS : ℕ
  TIERS : List ℕ
  default_mem : K_SLOTS ∈ TIERS

/-- The views of a tiered contract; `isActive` is `none` if it has no such function. -/
structure TieredSet where
  allowedLimits : List ℕ
  limitOf : ℕ → ℕ
  isActive : Option (ℕ → Bool)

def TieredSet.ofStaked (S : StakedReputationSet) : TieredSet :=
  ⟨S.allowedLimits, Staked.limitOf S, some (Staked.isActive S)⟩

def TieredSet.ofPaid (S : PaidAccessSet) : TieredSet := ⟨S.allowedLimits, Paid.limitOf S, none⟩

/-- Whether the two probes of the start succeeded. -/
structure Probe where
  defaultLimit : Bool
  allowedLimits : Bool
  deriving DecidableEq

/-- What resolution names: a leaf, its tier, and whether the local list holds the leaf. -/
structure Tier where
  commitment : ℕ
  limit : ℕ
  resolved : Bool
  deriving DecidableEq

/-- What a contract holds of a secret. -/
structure Held where
  leaf : ℕ
  limit : ℕ
  deriving DecidableEq

/-- A slash transaction; `limit` is `none` in the call without one. -/
structure SlashTx where
  contract : String
  leaf : ℕ
  secret : ℕ
  limit : Option ℕ
  deriving DecidableEq

/-- A slasher of one contract. -/
structure OnchainSlasher where
  address : String
  tiered : Bool
  tiers : List ℕ
  deriving DecidableEq

section Model

variable (poseidon1 : ℕ → ℕ) (poseidon2 : ℕ → ℕ → ℕ) (N : Tiers) (chain : String → TieredSet)

def deriveCommitment (identitySecret limit : ℕ) : ℕ := poseidon2 (poseidon1 (identitySecret % FIELD)) limit

def deriveCommitments (identitySecret : ℕ) (tiers : List ℕ) : List Held :=
  tiers.map fun limit => ⟨deriveCommitment poseidon1 poseidon2 identitySecret limit, limit⟩

/-- `resolveSlashTier(identitySecret, { leaves })`; `leaves` is `none` in on-chain root mode. -/
def resolveSlashTier (identitySecret : ℕ) (leaves : Option (List ℕ)) : Tier :=
  let cands := deriveCommitments poseidon1 poseidon2 identitySecret N.TIERS
  match leaves.bind fun leaves => cands.find? fun c => c.leaf ∈ leaves with
  | some c => ⟨c.leaf, c.limit, true⟩
  | none => ⟨deriveCommitment poseidon1 poseidon2 identitySecret N.K_SLOTS, N.K_SLOTS, false⟩

/-- `makeOnchainSlasher({ address })`. -/
def makeOnchainSlasher (address : String) (probe : Probe) : OnchainSlasher :=
  if probe.defaultLimit && probe.allowedLimits then
    ⟨address, true, (N.TIERS ++ (chain address).allowedLimits).dedup.insertionSort (· ≤ ·)⟩
  else ⟨address, false, N.TIERS⟩

/-- The loop of `holds` over the candidate leaves; the error is the call that throws. -/
def firstHeld (c : TieredSet) (tiered : Bool) : List Held → Except Unit (Option Held)
  | [] => .ok none
  | cand :: rest =>
    if tiered then
      if c.limitOf cand.leaf ≠ 0 then .ok (some ⟨cand.leaf, c.limitOf cand.leaf⟩)
      else firstHeld c tiered rest
    else
      match c.isActive with
      | none => .error ()
      | some active => if active cand.leaf then .ok (some ⟨cand.leaf, N.K_SLOTS⟩) else firstHeld c tiered rest

/-- The candidates in the order `holds` asks for them: the locally resolved leaf first. -/
def candidates (s : OnchainSlasher) (secret : ℕ) (tier : Tier) : List Held :=
  let cands := deriveCommitments poseidon1 poseidon2 secret (if s.tiered then s.tiers else [N.K_SLOTS])
  if tier.resolved then
    cands.filter (·.leaf = tier.commitment) ++ cands.filter (·.leaf ≠ tier.commitment)
  else cands

/-- `holds(secret, tier)`. -/
def holds (s : OnchainSlasher) (secret : ℕ) (tier : Tier) : Except Unit (Option Held) :=
  firstHeld N (chain s.address) s.tiered (candidates poseidon1 poseidon2 N s secret tier)

/-- `slash(commitment, secret, tier)` of one contract: the transactions it submits. -/
def slash (s : OnchainSlasher) (commitment secret : ℕ) (tier : Tier) : List SlashTx :=
  if s.tiered then
    if tier.resolved then [⟨s.address, commitment, secret, some tier.limit⟩]
    else
      match holds poseidon1 poseidon2 N chain s secret tier with
      | .error () => []
      | .ok (some h) => [⟨s.address, h.leaf, secret, some h.limit⟩]
      | .ok none => [⟨s.address, commitment, secret, some tier.limit⟩]
  else [⟨s.address, commitment, secret, none⟩]

/-- The loop of the routing slasher; `claim` is what is submitted if no contract holds a leaf. -/
def routeFrom (secret : ℕ) (tier : Tier) (claim : List SlashTx) : List OnchainSlasher → List SlashTx
  | [] => claim
  | s :: rest =>
    match holds poseidon1 poseidon2 N chain s secret tier with
    | .ok (some h) => slash poseidon1 poseidon2 N chain s h.leaf secret ⟨h.leaf, h.limit, true⟩
    | .ok none => routeFrom secret tier claim rest
    | .error () => routeFrom secret tier claim rest

/-- The slasher that `makeSlasher` builds for its targets, called with a commitment, a secret and a tier. -/
def makeSlasher (targets : List String) (probes : String → Probe) (commitment secret : ℕ) (tier : Tier) :
    List SlashTx :=
  match targets.map fun address => makeOnchainSlasher N chain address (probes address) with
  | [] => []
  | [s] => slash poseidon1 poseidon2 N chain s commitment secret tier
  | s :: rest =>
    routeFrom poseidon1 poseidon2 N chain secret tier
      (slash poseidon1 poseidon2 N chain s commitment secret tier) (s :: rest)

/-- What an over-spend of `secret` submits. -/
def overSpend (targets : List String) (probes : String → Probe) (leaves : Option (List ℕ)) (secret : ℕ) :
    List SlashTx :=
  let tier := resolveSlashTier poseidon1 poseidon2 N secret leaves
  makeSlasher poseidon1 poseidon2 N chain targets probes tier.commitment secret tier

end Model

/-! ### Reaching the leaf -/

section Reaching

variable (poseidon1 : ℕ → ℕ) (poseidon2 : ℕ → ℕ → ℕ) (N : Tiers) (chain : String → TieredSet)

/-- The contract holds `leaf`, which is the leaf of the secret at a tier of its table. -/
def HoldsLive (c : TieredSet) (secret leaf : ℕ) : Prop :=
  c.limitOf leaf ≠ 0 ∧ ∃ t ∈ c.allowedLimits, leaf = deriveCommitment poseidon1 poseidon2 secret t

/-- The transaction goes to a target that holds such a leaf and carries this leaf, the secret and the limit
the contract records for it. -/
def Reaches (targets : List String) (secret : ℕ) (tx : SlashTx) : Prop :=
  tx.contract ∈ targets ∧ HoldsLive poseidon1 poseidon2 (chain tx.contract) secret tx.leaf ∧
    tx.secret = secret ∧ tx.limit = some ((chain tx.contract).limitOf tx.leaf)

/-- A tier the slasher of a contract tries. -/
def Known (c : TieredSet) (t : ℕ) : Prop := t ∈ N.TIERS ∨ t ∈ c.allowedLimits

/-- Both probes of the start succeeded. -/
def Probe.ok (p : Probe) : Prop := p.defaultLimit = true ∧ p.allowedLimits = true

/-- The contract holds `leaf`, and it is the leaf of the secret that the local list resolved or, if the
contract does not hold that one, the one at the least known tier. -/
def Names (c : TieredSet) (secret : ℕ) (tier : Tier) (leaf : ℕ) : Prop :=
  (tier.resolved = true ∧ leaf = tier.commitment ∧ c.limitOf leaf ≠ 0) ∨
    ((tier.resolved = true → c.limitOf tier.commitment = 0) ∧
      ∃ t, Known N c t ∧ leaf = deriveCommitment poseidon1 poseidon2 secret t ∧ c.limitOf leaf ≠ 0 ∧
        ∀ u, Known N c u → c.limitOf (deriveCommitment poseidon1 poseidon2 secret u) ≠ 0 → t ≤ u)

/-- The slasher of this contract finds no leaf of the secret: at no known tier if it is tiered, and no
active leaf at the default tier if a probe failed. -/
def Silent (c : TieredSet) (p : Probe) (secret : ℕ) : Prop :=
  (p.ok → ∀ t, Known N c t → c.limitOf (deriveCommitment poseidon1 poseidon2 secret t) = 0) ∧
    (¬ p.ok → ∀ active, c.isActive = some active →
      active (deriveCommitment poseidon1 poseidon2 secret N.K_SLOTS) = false)

/-- **The condition**, with the tier that the local list gives.  One target: both probes succeeded, and the
leaf the list resolved is recorded at its tier, or the list resolved none and the least known tier with a
live leaf is one of the table.  Several: some target with both probes comes after silent ones only, and the
leaf it names is one of its table. -/
def Routable (targets : List String) (probes : String → Probe) (secret : ℕ) (tier : Tier) : Prop :=
  if targets.length = 1 then
    ∃ a ∈ targets, (probes a).ok ∧
      (tier.resolved = true → HoldsLive poseidon1 poseidon2 (chain a) secret tier.commitment ∧
        (chain a).limitOf tier.commitment = tier.limit) ∧
      (tier.resolved = false → ∃ leaf, Names poseidon1 poseidon2 N (chain a) secret tier leaf ∧
        HoldsLive poseidon1 poseidon2 (chain a) secret leaf)
  else
    ∃ pre a post, targets = pre ++ a :: post ∧
      (∀ b ∈ pre, Silent poseidon1 poseidon2 N (chain b) (probes b) secret) ∧ (probes a).ok ∧
      ∃ leaf, Names poseidon1 poseidon2 N (chain a) secret tier leaf ∧
        HoldsLive poseidon1 poseidon2 (chain a) secret leaf

end Reaching

/-! ### What a slasher finds -/

section Finding

variable {poseidon1 : ℕ → ℕ} {poseidon2 : ℕ → ℕ → ℕ} {N : Tiers} {chain : String → TieredSet}
  {address : String} {probe : Probe} {secret : ℕ} {tier : Tier} {leaf : ℕ}

/-- The first element of a sorted list with a property is the least one with it. -/
lemma find?_sorted {l : List ℕ} {p : ℕ → Bool} {t : ℕ} (hl : l.Pairwise (· ≤ ·)) (ht : t ∈ l)
    (hp : p t = true) (hmin : ∀ u ∈ l, p u = true → t ≤ u) : l.find? p = some t := by
  induction l with
  | nil => cases ht
  | cons a l ih =>
    obtain ⟨hal, hl⟩ := List.pairwise_cons.mp hl
    by_cases ha : p a = true
    · rw [List.find?_cons_of_pos ha]
      have hta : t ≤ a := hmin a List.mem_cons_self ha
      rcases List.mem_cons.mp ht with rfl | ht
      · rfl
      · rw [le_antisymm hta (hal t ht)]
    · rw [List.find?_cons_of_neg ha]
      rcases List.mem_cons.mp ht with rfl | ht
      · exact absurd hp ha
      · exact ih hl ht fun u hu => hmin u (List.mem_cons_of_mem _ hu)

lemma makeOnchainSlasher_ok (hp : probe.ok) : makeOnchainSlasher N chain address probe =
    ⟨address, true, (N.TIERS ++ (chain address).allowedLimits).dedup.insertionSort (· ≤ ·)⟩ := by
  simp [makeOnchainSlasher, hp.1, hp.2]

lemma makeOnchainSlasher_failed (hp : ¬ probe.ok) :
    makeOnchainSlasher N chain address probe = ⟨address, false, N.TIERS⟩ := by
  unfold makeOnchainSlasher
  rw [if_neg]
  intro h
  exact hp (Bool.and_eq_true_iff.mp h)

lemma mem_known {c : TieredSet} {t : ℕ} :
    t ∈ (N.TIERS ++ c.allowedLimits).dedup.insertionSort (· ≤ ·) ↔ Known N c t := by
  rw [List.mem_insertionSort, List.mem_dedup, List.mem_append]
  rfl

lemma firstHeld_tiered (c : TieredSet) (cands : List Held) :
    firstHeld N c true cands = .ok ((cands.find? fun x => c.limitOf x.leaf ≠ 0).map
      fun x => ⟨x.leaf, c.limitOf x.leaf⟩) := by
  induction cands with
  | nil => rfl
  | cons x rest ih =>
    unfold firstHeld
    by_cases hx : c.limitOf x.leaf = 0
    · simp [hx, ih]
    · simp [hx]

/-- What a tiered slasher finds, by the first candidate with a live leaf. -/
lemma holds_ok (hp : probe.ok) :
    holds poseidon1 poseidon2 N chain (makeOnchainSlasher N chain address probe) secret tier =
      .ok (((candidates poseidon1 poseidon2 N (makeOnchainSlasher N chain address probe) secret tier).find?
        fun x => (chain address).limitOf x.leaf ≠ 0).map
          fun x => ⟨x.leaf, (chain address).limitOf x.leaf⟩) := by
  rw [makeOnchainSlasher_ok hp]
  exact firstHeld_tiered _ _

/-- The candidates are the leaves of the known tiers, in some order. -/
lemma mem_candidates (hp : probe.ok) {x : Held} :
    x ∈ candidates poseidon1 poseidon2 N (makeOnchainSlasher N chain address probe) secret tier ↔
      Known N (chain address) x.limit ∧ x.leaf = deriveCommitment poseidon1 poseidon2 secret x.limit := by
  have hmem : x ∈ deriveCommitments poseidon1 poseidon2 secret
      ((N.TIERS ++ (chain address).allowedLimits).dedup.insertionSort (· ≤ ·)) ↔
      Known N (chain address) x.limit ∧ x.leaf = deriveCommitment poseidon1 poseidon2 secret x.limit := by
    unfold deriveCommitments
    simp only [List.mem_map, mem_known]
    constructor
    · rintro ⟨t, ht, rfl⟩
      exact ⟨ht, rfl⟩
    · rintro ⟨ht, hx⟩
      exact ⟨x.limit, ht, by rw [← hx]⟩
  rw [makeOnchainSlasher_ok hp, ← hmem]
  unfold candidates
  by_cases hres : tier.resolved = true
  · simp only [hres, if_true, List.mem_append, List.mem_filter, decide_eq_true_eq]
    tauto
  · simp only [hres, if_true]
    rfl

/-- The leaf the local list resolved is the leaf of the secret at one of this gateway's tiers. -/
def Tier.FromList (poseidon1 : ℕ → ℕ) (poseidon2 : ℕ → ℕ → ℕ) (N : Tiers) (secret : ℕ) (tier : Tier) :
    Prop :=
  tier.limit ∈ N.TIERS ∧ tier.commitment = deriveCommitment poseidon1 poseidon2 secret tier.limit

lemma resolveSlashTier_fromList (leaves : Option (List ℕ)) :
    (resolveSlashTier poseidon1 poseidon2 N secret leaves).FromList poseidon1 poseidon2 N secret := by
  unfold resolveSlashTier
  dsimp only
  split
  · next c hc =>
    obtain ⟨leaves, -, hfind⟩ := Option.bind_eq_some_iff.mp hc
    obtain ⟨t, ht, rfl⟩ := List.mem_map.mp (List.mem_of_find?_eq_some hfind)
    exact ⟨ht, rfl⟩
  · exact ⟨N.default_mem, rfl⟩

/-- A tiered slasher finds the leaf that the record names. -/
lemma holds_names (hp : probe.ok) (htier : tier.FromList poseidon1 poseidon2 N secret)
    (h : Names poseidon1 poseidon2 N (chain address) secret tier leaf) :
    holds poseidon1 poseidon2 N chain (makeOnchainSlasher N chain address probe) secret tier =
      .ok (some ⟨leaf, (chain address).limitOf leaf⟩) := by
  rw [holds_ok hp]
  suffices hx : ∃ x, (candidates poseidon1 poseidon2 N (makeOnchainSlasher N chain address probe) secret
      tier).find? (fun x => (chain address).limitOf x.leaf ≠ 0) = some x ∧ x.leaf = leaf by
    obtain ⟨x, hfind, rfl⟩ := hx
    rw [hfind]
    rfl
  rw [makeOnchainSlasher_ok hp]
  unfold candidates
  simp only [if_true]
  set known := (N.TIERS ++ (chain address).allowedLimits).dedup.insertionSort (· ≤ ·) with hknown
  rcases h with ⟨hres, rfl, hlive⟩ | ⟨hdead, t, ht, rfl, hlive, hmin⟩
  · -- the resolved leaf is asked for first
    simp only [hres, if_true, List.find?_append]
    have hmem : ∃ x ∈ (deriveCommitments poseidon1 poseidon2 secret known).filter
        (·.leaf = tier.commitment), decide ((chain address).limitOf x.leaf ≠ 0) = true := by
      refine ⟨⟨tier.commitment, tier.limit⟩, List.mem_filter.mpr ⟨?_, by simp⟩, by simpa using hlive⟩
      exact List.mem_map.mpr ⟨tier.limit, mem_known.mpr (.inl htier.1), by rw [htier.2]⟩
    obtain ⟨x, hx⟩ := Option.isSome_iff_exists.mp (List.find?_isSome.mpr hmem)
    have hleaf := (List.mem_filter.mp (List.mem_of_find?_eq_some hx)).2
    exact ⟨x, by rw [hx]; rfl, of_decide_eq_true hleaf⟩
  · have hfind : (deriveCommitments poseidon1 poseidon2 secret known).find?
        (fun x => (chain address).limitOf x.leaf ≠ 0) =
          some ⟨deriveCommitment poseidon1 poseidon2 secret t, t⟩ := by
      unfold deriveCommitments
      rw [List.find?_map, find?_sorted (t := t) (List.pairwise_insertionSort _ _) (mem_known.mpr ht)]
      · rfl
      · simpa using hlive
      · intro u hu hpu
        exact hmin u (mem_known.mp hu) (by simpa using hpu)
    refine ⟨⟨deriveCommitment poseidon1 poseidon2 secret t, t⟩, ?_, rfl⟩
    by_cases hres : tier.resolved = true
    · have hnone : ((deriveCommitments poseidon1 poseidon2 secret known).filter
          (·.leaf = tier.commitment)).find? (fun x => (chain address).limitOf x.leaf ≠ 0) = none := by
        refine List.find?_eq_none.mpr fun x hx => ?_
        have hleaf : x.leaf = tier.commitment := of_decide_eq_true (List.mem_filter.mp hx).2
        simp [hleaf, hdead hres]
      simp only [hres, if_true, List.find?_append, hnone, Option.none_or, List.find?_filter]
      rw [← hfind]
      refine congrArg (fun p => List.find? p _) (funext fun x => ?_)
      by_cases hx : x.leaf = tier.commitment
      · simp [hx, hdead hres]
      · simp [hx]
    · simp only [hres]
      exact hfind

/-- A slasher that is not tiered asks for the leaf of the default tier alone. -/
lemma holds_failed (hp : ¬ probe.ok) :
    holds poseidon1 poseidon2 N chain (makeOnchainSlasher N chain address probe) secret tier =
      firstHeld N (chain address) false
        [⟨deriveCommitment poseidon1 poseidon2 secret N.K_SLOTS, N.K_SLOTS⟩] := by
  rw [makeOnchainSlasher_failed hp]
  unfold holds candidates deriveCommitments
  by_cases hres : tier.resolved = true
  · by_cases hleaf : deriveCommitment poseidon1 poseidon2 secret N.K_SLOTS = tier.commitment
    · simp [hres, hleaf]
    · simp [hres, hleaf]
  · simp [hres]

/-- A slasher finds no leaf exactly if its contract is silent. -/
lemma silent_iff (tier : Tier) :
    Silent poseidon1 poseidon2 N (chain address) probe secret ↔ ∀ held,
      holds poseidon1 poseidon2 N chain (makeOnchainSlasher N chain address probe) secret tier ≠
        .ok (some held) := by
  by_cases hp : probe.ok
  · constructor
    · intro h held
      rw [holds_ok hp, List.find?_eq_none.mpr]
      · simp
      · intro x hx
        obtain ⟨ht, hleaf⟩ := (mem_candidates hp).mp hx
        simp [hleaf, h.1 hp _ ht]
    · intro h
      refine ⟨fun _ t ht => ?_, fun hp' => absurd hp hp'⟩
      by_contra hlive
      have hmem : ∃ x ∈ candidates poseidon1 poseidon2 N (makeOnchainSlasher N chain address probe) secret
          tier, decide ((chain address).limitOf x.leaf ≠ 0) = true :=
        ⟨⟨deriveCommitment poseidon1 poseidon2 secret t, t⟩, (mem_candidates hp).mpr ⟨ht, rfl⟩,
          by simpa using hlive⟩
      obtain ⟨x, hx⟩ := Option.isSome_iff_exists.mp (List.find?_isSome.mpr hmem)
      exact h _ (by rw [holds_ok hp, hx]; rfl)
  · rw [holds_failed hp]
    unfold Silent firstHeld
    simp only [hp, false_imp_iff, true_and, not_false_eq_true, true_imp_iff]
    rcases hact : (chain address).isActive with - | active
    · simp
    · cases hk : active (deriveCommitment poseidon1 poseidon2 secret N.K_SLOTS) <;> simp [hk, firstHeld]

/-- A tiered contract that is not silent names a leaf. -/
lemma names_of_not_silent (tier : Tier) (hp : probe.ok)
    (h : ¬ Silent poseidon1 poseidon2 N (chain address) probe secret) :
    ∃ leaf, Names poseidon1 poseidon2 N (chain address) secret tier leaf := by
  classical
  have hlive : ∃ t, Known N (chain address) t ∧
      (chain address).limitOf (deriveCommitment poseidon1 poseidon2 secret t) ≠ 0 := by
    by_contra hnone
    push Not at hnone
    exact h ⟨fun _ t ht => hnone t ht, fun hp' => absurd hp hp'⟩
  by_cases hres : tier.resolved = true ∧ (chain address).limitOf tier.commitment ≠ 0
  · exact ⟨tier.commitment, .inl ⟨hres.1, rfl, hres.2⟩⟩
  · obtain ⟨hknown, hpos⟩ := Nat.find_spec hlive
    refine ⟨_, .inr ⟨fun h => ?_, Nat.find hlive, hknown, rfl, hpos, fun u hu hupos => ?_⟩⟩
    · by_contra hne
      exact hres ⟨h, hne⟩
    · exact Nat.find_min' hlive ⟨hu, hupos⟩

lemma Names.unique {c : TieredSet} {leaf' : ℕ} (h : Names poseidon1 poseidon2 N c secret tier leaf)
    (h' : Names poseidon1 poseidon2 N c secret tier leaf') : leaf = leaf' := by
  rcases h with ⟨hres, rfl, hlive⟩ | ⟨hdead, t, ht, rfl, hlive, hmin⟩
  · rcases h' with ⟨-, rfl, -⟩ | ⟨hdead, -⟩
    · rfl
    · exact absurd (hdead hres) hlive
  · rcases h' with ⟨hres, rfl, hlive'⟩ | ⟨-, u, hu, rfl, hlive', hmin'⟩
    · exact absurd (hdead hres) hlive'
    · rw [le_antisymm (hmin u hu hlive') (hmin' t ht hlive)]

lemma Names.not_silent {c : TieredSet} (hp : probe.ok) (htier : tier.FromList poseidon1 poseidon2 N secret)
    (h : Names poseidon1 poseidon2 N c secret tier leaf) : ¬ Silent poseidon1 poseidon2 N c probe secret := by
  intro hs
  rcases h with ⟨hres, rfl, hlive⟩ | ⟨-, t, ht, rfl, hlive, -⟩
  · rw [htier.2] at hlive
    exact hlive (hs.1 hp _ (.inl htier.1))
  · exact hlive (hs.1 hp t ht)

end Finding

/-! ### The transaction of an over-spend -/

section Transactions

variable {poseidon1 : ℕ → ℕ} {poseidon2 : ℕ → ℕ → ℕ} {N : Tiers} {chain : String → TieredSet}
  {probes : String → Probe} {targets : List String} {secret : ℕ} {tier : Tier}

/-- Exactly one transaction is submitted and it reaches the leaf. -/
def SubmitsOne (poseidon1 : ℕ → ℕ) (poseidon2 : ℕ → ℕ → ℕ) (chain : String → TieredSet)
    (targets : List String) (secret : ℕ) (txs : List SlashTx) : Prop :=
  ∃ tx, txs = [tx] ∧ Reaches poseidon1 poseidon2 chain targets secret tx

lemma submitsOne_singleton {tx : SlashTx} : SubmitsOne poseidon1 poseidon2 chain targets secret [tx] ↔
    Reaches poseidon1 poseidon2 chain targets secret tx := by
  constructor
  · rintro ⟨tx', heq, h⟩
    obtain rfl := List.singleton_inj.mp heq
    exact h
  · intro h
    exact ⟨tx, rfl, h⟩

/-- The claim submitted when every target is silent reaches no leaf. -/
lemma claim_of_silent {a : String} (htier : tier.FromList poseidon1 poseidon2 N secret)
    (h : Silent poseidon1 poseidon2 N (chain a) (probes a) secret) :
    ¬ SubmitsOne poseidon1 poseidon2 chain targets secret (slash poseidon1 poseidon2 N chain
      (makeOnchainSlasher N chain a (probes a)) tier.commitment secret tier) := by
  by_cases hp : (probes a).ok
  · have hdead : (chain a).limitOf tier.commitment = 0 := by
      rw [htier.2]
      exact h.1 hp _ (.inl htier.1)
    have hnone := (silent_iff tier).mp h
    rw [makeOnchainSlasher_ok hp] at hnone ⊢
    unfold slash
    simp only [if_true]
    split
    · rw [submitsOne_singleton]
      exact fun hr => hr.2.1.1 hdead
    · split
      · rintro ⟨tx, heq, -⟩
        cases heq
      · next held hheld => exact absurd hheld (hnone held)
      · rw [submitsOne_singleton]
        exact fun hr => hr.2.1.1 hdead
  · rw [makeOnchainSlasher_failed hp]
    unfold slash
    simp only [Bool.false_eq_true, if_false, submitsOne_singleton]
    rintro ⟨-, -, -, hlim⟩
    cases hlim

/-- What is submitted to a target whose slasher found a leaf. -/
lemma slash_found {a : String} {held : Held} (ha : a ∈ targets)
    (htier : tier.FromList poseidon1 poseidon2 N secret)
    (hheld : holds poseidon1 poseidon2 N chain (makeOnchainSlasher N chain a (probes a)) secret tier =
      .ok (some held)) :
    SubmitsOne poseidon1 poseidon2 chain targets secret (slash poseidon1 poseidon2 N chain
      (makeOnchainSlasher N chain a (probes a)) held.leaf secret ⟨held.leaf, held.limit, true⟩) ↔
    (probes a).ok ∧ ∃ leaf, Names poseidon1 poseidon2 N (chain a) secret tier leaf ∧
      HoldsLive poseidon1 poseidon2 (chain a) secret leaf := by
  by_cases hp : (probes a).ok
  · have hloud : ¬ Silent poseidon1 poseidon2 N (chain a) (probes a) secret :=
      fun hs => (silent_iff tier).mp hs held hheld
    obtain ⟨leaf, hleaf⟩ := names_of_not_silent tier hp hloud
    obtain rfl : ⟨leaf, (chain a).limitOf leaf⟩ = held := by
      have hok := (holds_names hp htier hleaf).symm.trans hheld
      simpa using hok
    rw [makeOnchainSlasher_ok hp]
    unfold slash
    simp only [if_true, submitsOne_singleton]
    constructor
    · rintro ⟨-, hlive, -⟩
      exact ⟨hp, leaf, hleaf, hlive⟩
    · rintro ⟨-, leaf', hleaf', hlive⟩
      obtain rfl := hleaf.unique hleaf'
      exact ⟨ha, hlive, rfl, rfl⟩
  · rw [makeOnchainSlasher_failed hp]
    unfold slash
    simp only [Bool.false_eq_true, if_false, submitsOne_singleton]
    constructor
    · rintro ⟨-, -, -, hlim⟩
      cases hlim
    · rintro ⟨hp', -⟩
      exact absurd hp' hp

/-- The route over the targets: the transaction goes where the first slasher that is not silent says. -/
lemma routeFrom_iff {claim : List SlashTx} {rest : List String} (hrest : ∀ a ∈ rest, a ∈ targets)
    (htier : tier.FromList poseidon1 poseidon2 N secret)
    (hclaim : (∀ b ∈ rest, Silent poseidon1 poseidon2 N (chain b) (probes b) secret) →
      ¬ SubmitsOne poseidon1 poseidon2 chain targets secret claim) :
    SubmitsOne poseidon1 poseidon2 chain targets secret (routeFrom poseidon1 poseidon2 N chain secret tier
      claim (rest.map fun a => makeOnchainSlasher N chain a (probes a))) ↔
    ∃ pre a post, rest = pre ++ a :: post ∧
      (∀ b ∈ pre, Silent poseidon1 poseidon2 N (chain b) (probes b) secret) ∧ (probes a).ok ∧
      ∃ leaf, Names poseidon1 poseidon2 N (chain a) secret tier leaf ∧
        HoldsLive poseidon1 poseidon2 (chain a) secret leaf := by
  induction rest with
  | nil => simpa [routeFrom] using hclaim
  | cons b rest ih =>
    have hb : b ∈ targets := hrest b List.mem_cons_self
    by_cases hs : Silent poseidon1 poseidon2 N (chain b) (probes b) secret
    · -- a silent target is passed over
      have hskip : routeFrom poseidon1 poseidon2 N chain secret tier claim
          ((b :: rest).map fun a => makeOnchainSlasher N chain a (probes a)) =
          routeFrom poseidon1 poseidon2 N chain secret tier claim
            (rest.map fun a => makeOnchainSlasher N chain a (probes a)) := by
        have hnone := (silent_iff tier).mp hs
        rw [List.map_cons, routeFrom]
        split
        · next held hheld => exact absurd hheld (hnone held)
        · rfl
        · rfl
      rw [hskip, ih (fun a ha => hrest a (List.mem_cons_of_mem _ ha)) fun hall =>
        hclaim fun c hc => (List.mem_cons.mp hc).elim (fun h => h ▸ hs) (hall c)]
      constructor
      · rintro ⟨pre, a, post, rfl, hpre, ha⟩
        exact ⟨b :: pre, a, post, rfl, fun c hc => (List.mem_cons.mp hc).elim (fun h => h ▸ hs) (hpre c), ha⟩
      · rintro ⟨pre, a, post, heq, hpre, hp, leaf, hleaf, hlive⟩
        rcases pre with - | ⟨c, pre⟩
        · obtain ⟨rfl, rfl⟩ := List.cons.inj heq
          exact absurd hs (hleaf.not_silent hp htier)
        · obtain ⟨rfl, rfl⟩ := List.cons.inj heq
          exact ⟨pre, a, post, rfl, fun d hd => hpre d (List.mem_cons_of_mem _ hd), hp, leaf, hleaf, hlive⟩
    · -- the first target that is not
      obtain ⟨held, hheld⟩ : ∃ held, holds poseidon1 poseidon2 N chain
          (makeOnchainSlasher N chain b (probes b)) secret tier = .ok (some held) := by
        by_contra hnone
        push Not at hnone
        exact hs ((silent_iff tier).mpr hnone)
      have hroute : routeFrom poseidon1 poseidon2 N chain secret tier claim
          ((b :: rest).map fun a => makeOnchainSlasher N chain a (probes a)) =
          slash poseidon1 poseidon2 N chain (makeOnchainSlasher N chain b (probes b)) held.leaf secret
            ⟨held.leaf, held.limit, true⟩ := by
        rw [List.map_cons, routeFrom, hheld]
      rw [hroute, slash_found hb htier hheld]
      constructor
      · rintro ⟨hp, hleaf⟩
        exact ⟨[], b, rest, rfl, by simp, hp, hleaf⟩
      · rintro ⟨pre, a, post, heq, hpre, hrest⟩
        rcases pre with - | ⟨c, pre⟩
        · obtain ⟨rfl, rfl⟩ := List.cons.inj heq
          exact hrest
        · obtain ⟨rfl, -⟩ := List.cons.inj heq
          exact absurd (hpre b List.mem_cons_self) hs

/-- One target: the slasher takes the resolved leaf as it is, and asks the contract only without one. -/
lemma slash_single_iff {a : String} (ha : a ∈ targets) (htier : tier.FromList poseidon1 poseidon2 N secret) :
    SubmitsOne poseidon1 poseidon2 chain targets secret (slash poseidon1 poseidon2 N chain
      (makeOnchainSlasher N chain a (probes a)) tier.commitment secret tier) ↔
    (probes a).ok ∧
      (tier.resolved = true → HoldsLive poseidon1 poseidon2 (chain a) secret tier.commitment ∧
        (chain a).limitOf tier.commitment = tier.limit) ∧
      (tier.resolved = false → ∃ leaf, Names poseidon1 poseidon2 N (chain a) secret tier leaf ∧
        HoldsLive poseidon1 poseidon2 (chain a) secret leaf) := by
  by_cases hp : (probes a).ok
  · simp only [hp, true_and]
    cases hres : tier.resolved with
    | true =>
      rw [makeOnchainSlasher_ok hp]
      unfold slash
      simp only [if_true, hres, submitsOne_singleton, true_imp_iff, reduceCtorEq, false_imp_iff, and_true]
      constructor
      · rintro ⟨-, hlive, -, hlim⟩
        exact ⟨hlive, (Option.some.inj hlim).symm⟩
      · rintro ⟨hlive, hlim⟩
        exact ⟨ha, hlive, rfl, by rw [hlim]⟩
    | false =>
      simp only [reduceCtorEq, false_imp_iff, true_and, true_imp_iff]
      by_cases hs : Silent poseidon1 poseidon2 N (chain a) (probes a) secret
      · refine iff_of_false (claim_of_silent htier hs) ?_
        rintro ⟨leaf, hleaf, -⟩
        exact hleaf.not_silent hp htier hs
      · obtain ⟨leaf, hleaf⟩ := names_of_not_silent tier hp hs
        have hheld := holds_names hp htier hleaf
        have hslash : slash poseidon1 poseidon2 N chain (makeOnchainSlasher N chain a (probes a))
            tier.commitment secret tier = slash poseidon1 poseidon2 N chain
              (makeOnchainSlasher N chain a (probes a)) leaf secret
                ⟨leaf, (chain a).limitOf leaf, true⟩ := by
          rw [makeOnchainSlasher_ok hp] at hheld ⊢
          unfold slash
          simp only [if_true, hres, Bool.false_eq_true, if_false, hheld]
        rw [hslash, slash_found ha htier hheld]
        exact and_iff_right hp
  · simp only [hp, false_and, iff_false]
    rw [makeOnchainSlasher_failed hp]
    unfold slash
    simp only [Bool.false_eq_true, if_false, submitsOne_singleton]
    rintro ⟨-, -, -, hlim⟩
    cases hlim

/-- What an over-spend submits reaches the leaf exactly if the condition holds. -/
lemma overSpend_iff (leaves : Option (List ℕ)) :
    SubmitsOne poseidon1 poseidon2 chain targets secret
      (overSpend poseidon1 poseidon2 N chain targets probes leaves secret) ↔
    Routable poseidon1 poseidon2 N chain targets probes secret
      (resolveSlashTier poseidon1 poseidon2 N secret leaves) := by
  have htier : (resolveSlashTier poseidon1 poseidon2 N secret leaves).FromList poseidon1 poseidon2 N secret :=
    resolveSlashTier_fromList leaves
  unfold overSpend makeSlasher Routable
  rcases targets with - | ⟨a, - | ⟨b, rest⟩⟩
  · refine iff_of_false ?_ (by simp)
    rintro ⟨tx, heq, -⟩
    cases heq
  · simpa using slash_single_iff (List.mem_singleton_self a) htier
  · simp only [List.length_cons, Nat.add_eq_right, Nat.add_eq_zero_iff, one_ne_zero, and_false, if_false]
    have hself : ∀ c ∈ a :: b :: rest, c ∈ a :: b :: rest := fun c hc => hc
    refine routeFrom_iff hself htier fun hall => ?_
    exact claim_of_silent htier (hall a List.mem_cons_self)

/-- **A detected over-spend reaches the leaf** exactly under the condition: for every set of targets, every
outcome of the probes of the start and every local list, if some target holds a live leaf of the secret at
a tier of its table, one transaction is submitted and it slashes such a leaf. -/
theorem overSpend_reaches_leaf (poseidon1 : ℕ → ℕ) (poseidon2 : ℕ → ℕ → ℕ) (N : Tiers)
    (chain : String → TieredSet) (targets : List String) (probes : String → Probe)
    (leaves : Option (List ℕ)) (secret : ℕ) :
    ((∃ a ∈ targets, ∃ leaf, HoldsLive poseidon1 poseidon2 (chain a) secret leaf) →
      SubmitsOne poseidon1 poseidon2 chain targets secret
        (overSpend poseidon1 poseidon2 N chain targets probes leaves secret)) ↔
    ((∃ a ∈ targets, ∃ leaf, HoldsLive poseidon1 poseidon2 (chain a) secret leaf) →
      Routable poseidon1 poseidon2 N chain targets probes secret
        (resolveSlashTier poseidon1 poseidon2 N secret leaves)) := by
  rw [overSpend_iff]

/-- On a paid set, a transaction that reaches a leaf recorded at the tier it was derived at ends it. -/
theorem Reaches.lands_paid {H : ℕ → ℕ → ℕ} {z : ℕ} {commitmentOf : ℕ → ℕ → Option ℕ} {S : PaidAccessSet}
    {tx : SlashTx} (h : Reaches poseidon1 poseidon2 chain targets secret tx)
    (hS : chain tx.contract = .ofPaid S) (hcount : S.liveCount ≠ 0)
    (hleaf : commitmentOf secret (Paid.limitOf S tx.leaf) = some tx.leaf) :
    ∃ limit S' evs, tx.limit = some limit ∧
      Paid.slash H z commitmentOf S tx.leaf tx.secret limit = .ok (S', evs) ∧ Paid.limitOf S' tx.leaf = 0 := by
  obtain ⟨-, ⟨hlive, -⟩, rfl, hlim⟩ := h
  rw [hS] at hlive hlim
  have hlive' : (S.leaves tx.leaf).limit ≠ 0 := hlive
  obtain ⟨⟨S', evs⟩, hok⟩ : ∃ r, Paid.slash H z commitmentOf S tx.leaf tx.secret (Paid.limitOf S tx.leaf) =
      .ok r := by
    unfold Paid.limitOf at hleaf
    simp [Paid.slash, Paid.limitOf, hlive', hleaf, hcount]
  obtain ⟨-, -, -, -, rfl, -⟩ := Paid.slash_ok hok
  exact ⟨_, _, _, hlim, hok, by simp [Paid.limitOf, Paid.Leaf.none]⟩

/-- The same on a staked set, where the bond is paid out to the receiver. -/
theorem Reaches.lands_staked {H : ℕ → ℕ → ℕ} {z receiver : ℕ} {X : Externals} {S : StakedReputationSet}
    {tx : SlashTx} (h : Reaches poseidon1 poseidon2 chain targets secret tx)
    (hS : chain tx.contract = .ofStaked S) (hcount : S.activeCount ≠ 0)
    (hleaf : X.commitmentOf secret (Staked.limitOf S tx.leaf) = some tx.leaf) :
    ∃ limit S' evs, tx.limit = some limit ∧
      Staked.slash H z X S tx.leaf tx.secret limit receiver true = .ok (S', evs) ∧
        Staked.limitOf S' tx.leaf = 0 := by
  obtain ⟨-, ⟨hlive, -⟩, rfl, hlim⟩ := h
  rw [hS] at hlive hlim
  have hbond : (S.members tx.leaf).bond ≠ 0 := by
    intro hb
    exact hlive (by simp [TieredSet.ofStaked, Staked.limitOf, hb])
  have hrec : Staked.limitOf S tx.leaf = (S.members tx.leaf).limit := by simp [Staked.limitOf, hbond]
  obtain ⟨⟨S', evs⟩, hok⟩ : ∃ r, Staked.slash H z X S tx.leaf tx.secret (Staked.limitOf S tx.leaf) receiver
      true = .ok r := by
    rw [hrec] at hleaf ⊢
    simp [Staked.slash, hbond, hleaf, hcount]
  obtain ⟨-, -, -, -, -, rfl, -⟩ := Staked.slash_ok hok
  exact ⟨_, _, _, hlim, hok, by simp [Staked.limitOf, Staked.Member.none]⟩

end Transactions

/-! ### A probe that fails once -/

section Example

/-- The package's hash of one secret, with its hash of two inputs in `Contracts.PoseidonT3`. -/
def poseidonOfOne : ℕ → ℕ := fun _ =>
  18586133768512220936620570745912940619677854269274689475585506675881198879027

def defaultTiers : Tiers := ⟨8, [8], by decide⟩

/-- The leaf of the secret 1 at tier 32. -/
def tier32Leaf : ℕ := deriveCommitment poseidonOfOne PoseidonT3.hash 1 32

/-- A contract with the tiers 8 and 32 that holds this leaf. -/
def tier32Chain : String → TieredSet := fun _ =>
  ⟨[8, 32], fun c => if c = tier32Leaf then 32 else 0, some fun c => c == tier32Leaf⟩

lemma tier32_live : ∃ a ∈ ["0x5af0"], ∃ leaf,
    HoldsLive poseidonOfOne PoseidonT3.hash (tier32Chain a) 1 leaf := by
  refine ⟨"0x5af0", by simp, tier32Leaf, ?_, 32, ?_, rfl⟩
  · simp [tier32Chain]
  · simp [tier32Chain]

/-- The first probe of the start fails, the contract holds the leaf, and the over-spend submits the call of
the default tier without a limit. -/
theorem overSpend_misses_after_failed_probe :
    ¬ ∀ probes : String → Probe, (∃ a ∈ ["0x5af0"], ∃ leaf,
        HoldsLive poseidonOfOne PoseidonT3.hash (tier32Chain a) 1 leaf) →
      SubmitsOne poseidonOfOne PoseidonT3.hash tier32Chain ["0x5af0"] 1
        (overSpend poseidonOfOne PoseidonT3.hash defaultTiers tier32Chain ["0x5af0"] probes none 1) := by
  intro h
  have hroute := (overSpend_iff none).mp (h (fun _ => ⟨false, true⟩) tier32_live)
  unfold Routable at hroute
  rw [if_pos List.length_singleton] at hroute
  obtain ⟨a, -, hok, -⟩ := hroute
  cases hok.1

end Example

end ShadeTree.Gateway
