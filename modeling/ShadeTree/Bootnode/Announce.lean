import Mathlib.Algebra.Order.Ring.Rat
import ShadeTree.Bootnode.Onion

/-!
# The announce of a gateway (`verifyAnnounce` in `bootnode/announce.mjs`)

A gateway signs its onion, its weight, a time and a nonce with the key of the onion, and its operator may
sign for the onion as well.  Up to the first `await` the checks are one function of the record, the clock and
the nonces seen; what follows them, the signature of the operator and the look at its stake, is part of the
registry.  The signature schemes are parameters.  Numbers are rationals.
-/

namespace ShadeTree.Bootnode

/-- The fields of a record that is an object; a number or an onion of another type is absent. -/
structure Record where
  v : Option ℚ
  onion : Option String
  weight : Option ℚ
  ts : Option ℚ
  /-- The nonce as a template prints it. -/
  nonce : String
  onionSig : Option String
  caps : Option String
  /-- `none` if undefined, `some none` if it is not a string. -/
  capsSig : Option (Option String)
  /-- The operator as text, if it is truthy. -/
  operator : Option String
  operatorSig : Option String

def ANNOUNCE_VERSION : ℚ := 1

/-- Seconds that the time of an announce may lead or lag the clock. -/
def DEFAULT_ANNOUNCE_SKEW : ℚ := 120

/-- `Number.MAX_SAFE_INTEGER`. -/
def MAX_SAFE_INTEGER : ℚ := 2 ^ 53 - 1

/-- The hash of an address and the signature schemes. -/
structure Keys where
  checksum : List ℕ → List ℕ
  /-- `verifyOnionControl(rec.onion, canonicalAnnounceBytes(rec), rec.onionSig)`, for the key of the onion. -/
  verifyOnionControl : List ℕ → Record → Bool
  verifyCapsSig : List ℕ → String → Option String → Bool
  /-- `canonicalCaps`, `none` when nothing valid is left. -/
  canonicalCaps : String → Option String

/-- Why an announce is not taken. -/
inductive Refusal where
  | noAnnounce | badVersion (v : Option ℚ) | noOnion | badOnion (why : BadOnion) | staleTs (ts : Option ℚ)
  | replayedNonce | badOnionSig | badCapsSig | badOperatorSig | stakeCheckFailed (message : String)
  | notStaked | rateLimited | registryFull | globalRateLimited (retryAfterSec : ℤ) | staleGossip | freshExisting
  deriving DecidableEq

/-- A record that passed the checks up to the first `await`. -/
structure Checked (K : Keys) where
  record : Record
  onion : String
  pubkey : List ℕ
  ts : ℚ
  caps : Option String
  onion_eq : record.onion = some onion
  pubkey_eq : onionToPubkey K.checksum onion = .ok pubkey
  ts_eq : record.ts = some ts
  control : K.verifyOnionControl pubkey record = true

/-- The key of the replay cache. -/
def nonceKey (onion nonce : String) : String := onion ++ ":" ++ nonce

/-- `caps` of a record, checked against `capsSig` if there is one. -/
def verifyCaps (K : Keys) (pubkey : List ℕ) (record : Record) : Except Refusal (Option String) :=
  match record.caps with
  | none => .ok none
  | some caps =>
    if record.capsSig.any fun sig => !K.verifyCapsSig pubkey caps sig then .error .badCapsSig
    else .ok (K.canonicalCaps caps)

/-- `verifyAnnounce` up to the first `await`, of a record that is an object; `seen` is what the replay cache
answers. -/
def verifyRecord (K : Keys) (now skew : ℚ) (seen : String → Bool) (record : Record) :
    Except Refusal (Checked K) :=
  if record.v ≠ some ANNOUNCE_VERSION then .error (.badVersion record.v)
  else
    match honion : record.onion with
    | none => .error .noOnion
    | some onion =>
      match hpubkey : onionToPubkey K.checksum onion with
      | .error why => .error (.badOnion why)
      | .ok pubkey =>
        match hts : record.ts with
        | none => .error (.staleTs none)
        | some ts =>
          if skew < |now - ts| then .error (.staleTs (some ts))
          else if seen (nonceKey onion record.nonce) then .error .replayedNonce
          else if hsig : record.onionSig.isSome ∧ K.verifyOnionControl pubkey record then
            (verifyCaps K pubkey record).map fun caps =>
              ⟨record, onion, pubkey, ts, caps, honion, hpubkey, hts, hsig.2⟩
          else .error .badOnionSig

/-- `verifyAnnounce` up to the first `await`. -/
def verifyHead (K : Keys) (now skew : ℚ) (seen : String → Bool) :
    Option Record → Except Refusal (Checked K)
  | none => .error .noAnnounce
  | some record => verifyRecord K now skew seen record

/-- The key of a checked record in the replay cache. -/
def Checked.nonceKey {K : Keys} (c : Checked K) : String := Bootnode.nonceKey c.onion c.record.nonce

/-- What an accepted head says of the clock and of the replay cache. -/
lemma verifyHead_ok {K : Keys} {now skew : ℚ} {seen : String → Bool} {record : Option Record} {c : Checked K}
    (h : verifyHead K now skew seen record = .ok c) :
    record = some c.record ∧ |now - c.ts| ≤ skew ∧ seen c.nonceKey = false := by
  cases record with
  | none => cases h
  | some record =>
  change verifyRecord K now skew seen record = .ok c at h
  unfold verifyRecord at h
  split at h
  · cases h
  split at h
  · cases h
  split at h
  · cases h
  split at h
  · cases h
  split at h
  · cases h
  next hfresh =>
  split at h
  · cases h
  next hseen =>
  split at h
  · cases hcaps : verifyCaps K _ record with
    | error why =>
      rw [hcaps] at h
      cases h
    | ok caps =>
      rw [hcaps] at h
      obtain rfl := Except.ok.inj h
      exact ⟨rfl, not_lt.mp hfresh, Bool.not_eq_true _ ▸ hseen⟩
  · cases h

end ShadeTree.Bootnode
