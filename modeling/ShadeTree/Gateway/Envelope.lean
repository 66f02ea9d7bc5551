import Mathlib.Algebra.Order.Ring.Int
import Mathlib.Data.Nat.Digits.Lemmas
import Mathlib.Tactic.Common
import Mathlib.Tactic.Ring

/-!
# Verification of an envelope (`lib/rln.mjs`, `lib/zk-artifacts.mjs`)

What the gateway checks of an envelope before it admits it: the epoch, the evaluation point, the binding to
the target, the root and the artifact as strings, and the proof under the key of the artifact.  The RLN
package is a parameter: its hashes, and a verifier that sees a public signal only as the integer its string
denotes, in decimal or in hexadecimal.
-/

namespace ShadeTree.Gateway

/-- The BN254 scalar field prime. -/
def FIELD : ℕ := 21888242871839275222246405745257275088548364400416034343698204186575808495617

/-! ### Spellings of a field element -/

def decimalDigit (c : Char) : Option ℕ :=
  if '0' ≤ c ∧ c ≤ '9' then some (c.toNat - '0'.toNat) else none

def hexDigit (c : Char) : Option ℕ :=
  if 'a' ≤ c ∧ c ≤ 'f' then some (c.toNat - 'a'.toNat + 10)
  else if 'A' ≤ c ∧ c ≤ 'F' then some (c.toNat - 'A'.toNat + 10)
  else decimalDigit c

/-- The digits, most significant first, after the digits of `n`. -/
def readDigits (base : ℕ) (digit : Char → Option ℕ) : ℕ → List Char → Option ℕ
  | n, [] => some n
  | n, c :: cs =>
    match digit c with
    | none => none
    | some d => readDigits base digit (base * n + d) cs

/-- The integer that the verifier reads from the string of a public signal. -/
def denotedInteger (s : String) : Option ℕ :=
  match s.toList with
  | [] => none
  | '0' :: 'x' :: c :: cs => readDigits 16 hexDigit 0 (c :: cs)
  | cs => readDigits 10 decimalDigit 0 cs

/-- The field element a string denotes. -/
def fieldElement (s : String) : Option ℕ := (denotedInteger s).map (· % FIELD)

/-- Two strings denote one field element. -/
def SameElement (s t : String) : Prop := (fieldElement s).isSome ∧ fieldElement s = fieldElement t

lemma SameElement.symm {s t : String} (h : SameElement s t) : SameElement t s := by
  obtain ⟨hs, he⟩ := h
  exact ⟨he ▸ hs, he.symm⟩

/-! ### The canonical spelling -/

/-- The pattern that `canonicalTallyField` asks of a wire value: decimal, no leading zero, 77 digits at most. -/
def isCanonicalDecimal (s : String) : Bool :=
  match s.toList with
  | ['0'] => true
  | c :: cs => decide ('1' ≤ c) && decide (c ≤ '9') && cs.all (fun c => (decimalDigit c).isSome) &&
      decide (cs.length ≤ 76)
  | [] => false

/-- `canonicalTallyField(value)`: the string itself if it is the canonical spelling of a field element. -/
def canonicalTallyField (s : String) : Option String :=
  if isCanonicalDecimal s ∧ (denotedInteger s).any (· < FIELD) then some s else none

lemma decimalDigit_some {c : Char} {d : ℕ} (h : decimalDigit c = some d) : c.toNat = d + 48 ∧ d < 10 := by
  unfold decimalDigit at h
  split at h
  · next hc =>
    obtain ⟨h0, h9⟩ := hc
    have h0' : 48 ≤ c.toNat := h0
    have h9' : c.toNat ≤ 57 := h9
    obtain rfl := Option.some.inj h
    have hzero : '0'.toNat = 48 := rfl
    omega
  · cases h

lemma decimalDigit_inj {c c' : Char} {d : ℕ} (h : decimalDigit c = some d) (h' : decimalDigit c' = some d) :
    c = c' := by
  have hn : c.toNat = c'.toNat := (decimalDigit_some h).1.trans (decimalDigit_some h').1.symm
  exact Char.toNat_inj.mp hn

/-- What reading decimal digits computes, and which digits it read. -/
lemma readDigits_decimal {cs : List Char} {n m : ℕ} (h : readDigits 10 decimalDigit n cs = some m) :
    ∃ ds : List ℕ, cs.map decimalDigit = ds.map some ∧ m = n * 10 ^ cs.length + Nat.ofDigits 10 ds.reverse := by
  induction cs generalizing n with
  | nil =>
    obtain rfl := Option.some.inj h
    exact ⟨[], rfl, by simp⟩
  | cons c cs ih =>
    unfold readDigits at h
    cases hc : decimalDigit c with
    | none => simp [hc] at h
    | some d =>
      simp only [hc] at h
      obtain ⟨ds, hds, hm⟩ := ih h
      refine ⟨d :: ds, by simp [hc, hds], ?_⟩
      have hlen : ds.length = cs.length := by simpa using (congrArg List.length hds).symm
      rw [hm, List.reverse_cons, Nat.ofDigits_append, List.length_reverse, hlen, Nat.ofDigits_singleton,
        List.length_cons, pow_succ]
      ring

/-- The digits of a canonical string: none in front is 0, unless it is the only one. -/
lemma canonical_digits {s : String} {m : ℕ} (h : isCanonicalDecimal s = true)
    (hm : denotedInteger s = some m) :
    (s.toList = ['0'] ∧ m = 0) ∨ ∃ ds : List ℕ, s.toList.map decimalDigit = ds.map some ∧ ds ≠ [] ∧
      Nat.digits 10 m = ds.reverse := by
  unfold isCanonicalDecimal at h
  unfold denotedInteger at hm
  rcases hs : s.toList with - | ⟨c, cs⟩
  · simp [hs] at h
  rw [hs] at h hm
  by_cases h0 : c = '0' ∧ cs = []
  · obtain ⟨rfl, rfl⟩ := h0
    exact .inl ⟨rfl, (Option.some.inj hm).symm⟩
  right
  have hc : '1' ≤ c ∧ c ≤ '9' := by
    split at h
    · next heq => exact absurd (List.cons.inj heq) h0
    · next heq =>
      obtain ⟨rfl, rfl⟩ := List.cons.inj heq
      simp only [Bool.and_eq_true, decide_eq_true_eq] at h
      exact h.1.1
    · next heq => cases heq
  have hread : readDigits 10 decimalDigit 0 (c :: cs) = some m := by
    split at hm
    · next heq => cases heq
    · next heq =>
      obtain ⟨rfl, -⟩ := List.cons.inj heq
      exact absurd hc.1 (by decide)
    · exact hm
  obtain ⟨ds, hds, hval⟩ := readDigits_decimal hread
  have hlt : ∀ d ∈ ds, d < 10 := by
    intro d hd
    have hmem : some d ∈ (c :: cs).map decimalDigit := hds ▸ List.mem_map_of_mem hd
    obtain ⟨c', -, hc'⟩ := List.mem_map.mp hmem
    exact (decimalDigit_some hc').2
  rcases ds with - | ⟨d, ds⟩
  · simp at hds
  have hd : decimalDigit c = some d := (List.cons.inj hds).1
  have hd0 : d ≠ 0 := by
    rintro rfl
    have h48 := (decimalDigit_some hd).1
    have h49 : 49 ≤ c.toNat := hc.1
    omega
  refine ⟨d :: ds, hds, by simp, ?_⟩
  rw [hval, zero_mul, zero_add]
  refine Nat.digits_ofDigits 10 (by decide) _ (fun x hx => hlt x (List.mem_reverse.mp hx)) fun hne => ?_
  simpa using hd0

lemma map_decimalDigit_inj {cs cs' : List Char} {ds : List ℕ} (h : cs.map decimalDigit = ds.map some)
    (h' : cs'.map decimalDigit = ds.map some) : cs = cs' := by
  induction ds generalizing cs cs' with
  | nil =>
    obtain rfl := List.map_eq_nil_iff.mp h
    exact (List.map_eq_nil_iff.mp h').symm
  | cons d ds ih =>
    obtain ⟨c, tl, rfl, hc, htl⟩ := List.map_eq_cons_iff.mp h
    obtain ⟨c', tl', rfl, hc', htl'⟩ := List.map_eq_cons_iff.mp h'
    rw [decimalDigit_inj hc hc', ih htl htl']

/-- A field element has one canonical spelling. -/
theorem canonicalTallyField_inj {s t : String} (hs : canonicalTallyField s = some s)
    (ht : canonicalTallyField t = some t) (h : SameElement s t) : s = t := by
  have hread : ∀ u, canonicalTallyField u = some u →
      isCanonicalDecimal u = true ∧ ∃ m, denotedInteger u = some m ∧ m < FIELD := by
    intro u hu
    unfold canonicalTallyField at hu
    split at hu
    · next hc =>
      cases hm : denotedInteger u with
      | none => simp [hm] at hc
      | some m => exact ⟨hc.1, m, rfl, by simpa [hm] using hc.2⟩
    · cases hu
  obtain ⟨hcs, m, hm, hlt⟩ := hread s hs
  obtain ⟨hct, m', hm', hlt'⟩ := hread t ht
  obtain rfl : m = m' := by
    have hmod := h.2
    simp only [fieldElement, hm, hm', Option.map_some, Option.some.injEq, Nat.mod_eq_of_lt hlt,
      Nat.mod_eq_of_lt hlt'] at hmod
    exact hmod
  refine String.toList_inj.mp ?_
  rcases canonical_digits hcs hm with ⟨hs0, rfl⟩ | ⟨ds, hds, hne, hdig⟩
  · rcases canonical_digits hct hm' with ⟨ht0, -⟩ | ⟨ds, -, hne, hdig⟩
    · rw [hs0, ht0]
    · exact absurd (by simpa using hdig) hne
  · rcases canonical_digits hct hm' with ⟨ht0, rfl⟩ | ⟨ds', hds', -, hdig'⟩
    · exact absurd (by simpa using hdig) hne
    · obtain rfl : ds = ds' := List.reverse_injective (hdig.symm.trans hdig')
      exact map_decimalDigit_inj hds hds'

/-! ### The envelope -/

structure PublicSignals where
  x : String
  y : String
  root : String
  nullifier : String
  externalNullifier : String
  deriving DecidableEq, Repr

structure Share where
  x : String
  y : String
  deriving DecidableEq, Repr

/-- A value of a JSON field that is read as a string. -/
inductive Field where
  | absent
  | text (s : String)
  | other
  deriving DecidableEq, Repr

/-- A wire proof: the public signals, the points of the Groth16 proof and the scope it names. -/
structure Proof (π : Type) where
  publicSignals : PublicSignals
  points : π
  epoch : String
  rlnIdentifier : Option String

/-- An envelope; `proof` is `none` if it has no public signals. -/
structure Envelope (π : Type) where
  proof : Option (Proof π)
  share : Option Share
  target : Field
  nonce : Field
  artifact : Field

/-- The public signals as the verifier sees them. -/
structure SignalIntegers where
  x : Option ℕ
  y : Option ℕ
  root : Option ℕ
  nullifier : Option ℕ
  externalNullifier : Option ℕ
  deriving DecidableEq

def PublicSignals.integers (ps : PublicSignals) : SignalIntegers :=
  ⟨denotedInteger ps.x, denotedInteger ps.y, denotedInteger ps.root, denotedInteger ps.nullifier,
    denotedInteger ps.externalNullifier⟩

/-- Why an envelope is refused. -/
inductive Reason where
  | noEnvelope | noProof | staleExternalNullifier | signalMismatch | unboundTarget | badSignalField
  | targetNotBound | wrongGroupRoot | badArtifact | artifactRetired (id : String)
  | artifactUnknown (id : String) | verifyThrew (message : String) | invalidProof
  deriving DecidableEq, Repr

/-- What an accepted envelope is handed on as, all of it read from the public signals. -/
structure Verified where
  nullifier : String
  externalNullifier : String
  share : Share
  artifact : String
  deriving DecidableEq, Repr

/-- The RLN package and the constants of the deployment, for verification keys `κ` and proof points `π`. -/
structure Rln (π κ : Type) where
  epochSeconds : ℕ
  epochSeconds_pos : 0 < epochSeconds
  rlnIdentifier : ℕ
  calculateExternalNullifier : ℕ → ℕ → ℕ
  calculateSignalHash : String → ℕ
  verifyProof : κ → SignalIntegers → π → String → String → Except String Bool

/-- `loadArtifactSet()`: the accepted keys by id, and the id of an envelope that names none. -/
structure ArtifactSet (κ : Type) where
  accepted : List (String × κ)
  legacyId : String

/-- `ARTIFACT_ID_RE`. -/
def isArtifactId (s : String) : Bool :=
  let alnum := fun c : Char => (decide ('a' ≤ c) && decide (c ≤ 'z')) || (decide ('0' ≤ c) && decide (c ≤ '9'))
  match s.toList with
  | [] => false
  | c :: cs => alnum c && cs.all (fun c => alnum c || c == '.' || c == '_' || c == '-') && decide (cs.length ≤ 63)

/-- `resolveArtifact(field, set)`. -/
def resolveArtifact {κ : Type} (field : Field) (set : ArtifactSet κ) : Except Reason (String × κ) :=
  match (match field with
    | .absent => some set.legacyId
    | .text s => if isArtifactId s then some s else none
    | .other => none) with
  | none => .error .badArtifact
  | some id =>
    match set.accepted.lookup id with
    | some vkey => .ok (id, vkey)
    | none => if id = set.legacyId then .error (.artifactRetired id) else .error (.artifactUnknown id)

/-- The length of a string in UTF-16 units. -/
def utf16Length (s : String) : ℕ := (s.toList.map fun c => if c.toNat < 65536 then 1 else 2).sum

def signalFieldSafe (s : String) (maxLen : ℕ) : Bool :=
  decide (0 < utf16Length s) && decide (utf16Length s ≤ maxLen) &&
    s.toList.all fun c => c != '\n' && c != '\r'

def requestSignal (target nonce : String) : String :=
  "shade-tree:v4\n" ++ target ++ "\n" ++ nonce

/-- The target and the nonce of an envelope, or why they cannot be bound. -/
def signalFields {π : Type} (env : Envelope π) : Except Reason (String × String) :=
  match env.nonce, env.target with
  | .absent, _ => .error .unboundTarget
  | _, .absent => .error .unboundTarget
  | .text nonce, .text target =>
    if signalFieldSafe target 256 ∧ signalFieldSafe nonce 128 then .ok (target, nonce)
    else .error .badSignalField
  | _, _ => .error .badSignalField

section Verify

variable {π κ : Type} (R : Rln π κ)

def currentEpoch (nowMs : ℤ) : ℤ := nowMs / (1000 * R.epochSeconds)

def toField (v : ℤ) : ℕ := (v % FIELD).toNat

def externalNullifierFor (epoch : ℤ) : ℕ :=
  R.calculateExternalNullifier (toField epoch) R.rlnIdentifier

/-- `verifyEnvelope(env, recentRoots, nowMs, { artifacts })`. -/
def verifyEnvelope (env : Option (Envelope π)) (recentRoots : List String) (nowMs : ℤ)
    (artifacts : ArtifactSet κ) : Except Reason Verified := do
  let some env := env | .error .noEnvelope
  let some proof := env.proof | .error .noProof
  let ps := proof.publicSignals
  let share := env.share.getD ⟨ps.x, ps.y⟩
  let now := currentEpoch R nowMs
  unless [now, now - 1].any (fun e => toString (externalNullifierFor R e) == ps.externalNullifier) do
    .error .staleExternalNullifier
  unless share.x = ps.x do
    .error .signalMismatch
  let (target, nonce) ← signalFields env
  unless toString (R.calculateSignalHash (requestSignal target nonce)) = ps.x do
    .error .targetNotBound
  unless ps.root ∈ recentRoots do
    .error .wrongGroupRoot
  let (id, vkey) ← resolveArtifact env.artifact artifacts
  match R.verifyProof vkey ps.integers proof.points proof.epoch
      (proof.rlnIdentifier.getD (toString R.rlnIdentifier)) with
  | .error message => .error (.verifyThrew message)
  | .ok false => .error .invalidProof
  | .ok true => .ok ⟨ps.nullifier, ps.externalNullifier, ⟨ps.x, ps.y⟩, id⟩

end Verify

end ShadeTree.Gateway
