import ShadeTree.Contracts.StakedReputationSet
import ShadeTree.Contracts.PoseidonT2

/-!
# The leaf of a member (`RateCommitmentHasher.sol`, `WithdrawVerifier.sol`)

A leaf is `Poseidon(2)([Poseidon(1)([secret]), limit])`.  The hasher recomputes it from a secret, to slash;
the verifier from the identity commitment a Groth16 proof reveals, to authorize an exit.  The Groth16 check
and `keccak256` are parameters.
-/

namespace ShadeTree.Contracts

namespace RateCommitmentHasher

/-- `_commitmentOf(identitySecret, limit)`. -/
def rateCommitment (secret limit : ℕ) : ℕ := PoseidonT3.hash (PoseidonT2.hash secret) limit

/-- `commitmentOf(identitySecret, limit)`; `none` is the `BadLimit` revert. -/
def commitmentOf (secret limit : ℕ) : Option ℕ :=
  if limit = 0 ∨ MAX_LIMIT < limit then none else some (rateCommitment secret limit)

example : commitmentOf 1 8 =
    some 19891105629297951594670588741444296361737921464595154400690791765679348608752 := by
  decide +kernel

lemma F_pos : 0 < PoseidonT3.F := by
  unfold PoseidonT3.F
  omega

open PoseidonT3 in
/-- The recursion of `permute` over any round, by unfolding: its equations are too large to generate. -/
lemma permute_cons (r : Round) (rs : List Round) (s0 s1 s2 : ℕ) :
    ∃ t0 t1 t2, permute (r :: rs) s0 s1 s2 = permute rs t0 t1 t2 := by
  cases r with
  | full c0 c1 c2 =>
    refine ⟨c0 + mix M00 M10 M20 (pow5 s0) (pow5 s1) (pow5 s2),
      c1 + mix M01 M11 M21 (pow5 s0) (pow5 s1) (pow5 s2),
      c2 + mix M02 M12 M22 (pow5 s0) (pow5 s1) (pow5 s2), ?_⟩
    delta permute
    exact rfl
  | partly c0 c1 c2 =>
    refine ⟨c0 + mix M00 M10 M20 (pow5 s0) s1 s2, c1 + mix M01 M11 M21 (pow5 s0) s1 s2,
      c2 + mix M02 M12 M22 (pow5 s0) s1 s2, ?_⟩
    delta permute
    exact rfl

open PoseidonT3 in
lemma permute_lt (rs : List Round) (s0 s1 s2 : ℕ) : permute rs s0 s1 s2 < F := by
  induction rs generalizing s0 s1 s2 with
  | nil =>
    have hnil : permute [] s0 s1 s2 = mix M00 M10 M20 (pow5 s0) (pow5 s1) (pow5 s2) % F := by
      delta permute
      exact rfl
    rw [hnil]
    exact Nat.mod_lt _ F_pos
  | cons r rs ih =>
    obtain ⟨t0, t1, t2, ht⟩ := permute_cons r rs s0 s1 s2
    rw [ht]
    exact ih t0 t1 t2

/-- A leaf the hasher computes is a field element. -/
theorem commitmentOf_lt {secret limit leaf : ℕ} (h : commitmentOf secret limit = some leaf) :
    leaf < PoseidonT3.F := by
  unfold commitmentOf at h
  split_ifs at h
  obtain rfl := Option.some.inj h
  exact permute_lt _ _ _ _

/-- The hasher reverts for no tier that a set admits. -/
lemma commitmentOf_admitted {secret limit : ℕ} (h : 0 < limit ∧ limit ≤ MAX_LIMIT) :
    commitmentOf secret limit = some (rateCommitment secret limit) :=
  if_neg (by omega)

end RateCommitmentHasher

namespace WithdrawVerifier

/-- The number of 32-byte words of a well-formed proof: `a`, `b`, `c` and the identity commitment. -/
def PROOF_WORDS : ℕ := 9

/-- The words of ABI-encoded bytes, big-endian. -/
def words (proof : List ℕ) : List ℕ :=
  (List.range (proof.length / 32)).map fun i =>
    ((proof.drop (32 * i)).take 32).foldl (fun acc byte => 256 * acc + byte) 0

/-- `verify(commitment, limit, context, proof)`; `groth16` is `verifyProof` over the points and the public
signals, `keccak` the context word of an action. -/
def verify (groth16 : List ℕ → ℕ → ℕ → Bool) (keccak : AuthContext → ℕ) (commitment limit : ℕ)
    (context : AuthContext) (proof : List ℕ) : Bool :=
  if proof.length ≠ PROOF_WORDS * 32 then false
  else
    let identityCommitment := (words proof).getD 8 0
    let addr := keccak context % PoseidonT3.F
    if !groth16 ((words proof).take 8) identityCommitment addr then false
    else PoseidonT3.hash identityCommitment limit == commitment

/-- Bytes that verify carry a Groth16 proof for the context, and the identity commitment of the leaf. -/
lemma verify_true {groth16 : List ℕ → ℕ → ℕ → Bool} {keccak : AuthContext → ℕ} {commitment limit : ℕ}
    {context : AuthContext} {proof : List ℕ}
    (h : verify groth16 keccak commitment limit context proof = true) :
    groth16 ((words proof).take 8) ((words proof).getD 8 0) (keccak context % PoseidonT3.F) = true ∧
      PoseidonT3.hash ((words proof).getD 8 0) limit = commitment := by
  unfold verify at h
  dsimp only at h
  split_ifs at h with h₁ h₂
  exact ⟨by simpa using h₂, by simpa using h⟩

end WithdrawVerifier

end ShadeTree.Contracts
