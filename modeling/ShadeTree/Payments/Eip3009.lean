import ShadeTree.Lib.Script
import ShadeTree.Lib.Text

/-!
# The authorization that a payment carries (`payments/eip3009.mjs`)

Everything a client sends is checked for its shape first: addresses and hashes in hexadecimal, amounts as decimal
strings below 2^256.
-/

namespace ShadeTree.Payments

open ShadeTree.Lib ShadeTree.Lib.Text

def isHexDigit (c : Char) : Bool :=
  decide ('0' ≤ c ∧ c ≤ '9') || decide ('a' ≤ c ∧ c ≤ 'f') || decide ('A' ≤ c ∧ c ≤ 'F')

/-- `0x` and so many hexadecimal digits. -/
def isHexString (n : ℕ) (s : String) : Bool :=
  match s.toList with
  | '0' :: 'x' :: ds => decide (ds.length = n) && ds.all isHexDigit
  | _ => false

/-- A test of strings, of any value; `none` is `undefined`. -/
def isStringWith (p : String → Bool) : Option Value → Bool
  | some (.str s) => p s
  | _ => false

def isAddress : Option Value → Bool := isStringWith (isHexString 40)

def isBytes32 : Option Value → Bool := isStringWith (isHexString 64)

/-- The decimal digits of a positive number, `[1-9][0-9]*`. -/
def isPositive (ds : List Char) : Bool := ds.all Char.isDigit && decide (ds ≠ [] ∧ ds.head? ≠ some '0')

/-- The number with these digits. -/
def numberOf (ds : List Char) : ℕ := Nat.ofDigitChars 10 ds 0

/-- `/^(0|[1-9][0-9]*)$/.test(v) && BigInt(v) < (1n << 256n)`. -/
def isUint (s : String) : Bool :=
  (decide (s.toList = ['0']) || isPositive s.toList) && decide (numberOf s.toList < 2 ^ 256)

def isUintString : Option Value → Bool := isStringWith isUint

/-- `toLowerCase()` of a string of ASCII characters. -/
def lower (s : String) : String := String.ofList (s.toList.map asciiLower)

def sameAddress (a b : Option Value) : Bool :=
  match a, b with
  | some (.str a), some (.str b) => isHexString 40 a && isHexString 40 b && decide (lower a = lower b)
  | _, _ => false

/-- `v[k]`, or `undefined` if `v` is. -/
def field (v : Option Value) (k : String) : Option Value := v.bind (Json.get k)

/-- The reason why an authorization is not well formed, if it is not. -/
def checkAuthorizationShape (auth : Option Value) : Option String :=
  match auth with
  | some (.obj _) =>
    match ["from", "to"].find? fun k => !isAddress (field auth k) with
    | some k => some s!"authorization.{k} must be a 0x address"
    | none =>
      match ["value", "validAfter", "validBefore"].find? fun k => !isUintString (field auth k) with
      | some k => some s!"authorization.{k} must be a decimal uint256 string"
      | none => if isBytes32 (field auth "nonce") then none else some "authorization.nonce must be 32 bytes hex"
  | _ => some "authorization must be an object"

/-- What the check finds in order. -/
structure WellShaped (auth : Option Value) : Prop where
  from_address : isAddress (field auth "from") = true
  to_address : isAddress (field auth "to") = true
  value_uint : isUintString (field auth "value") = true
  validAfter_uint : isUintString (field auth "validAfter") = true
  validBefore_uint : isUintString (field auth "validBefore") = true
  nonce_bytes32 : isBytes32 (field auth "nonce") = true

lemma isStringWith_iff {p : String → Bool} {v : Option Value} :
    isStringWith p v = true ↔ ∃ s, v = some (.str s) ∧ p s = true := by
  constructor
  · intro h
    unfold isStringWith at h
    split at h
    · exact ⟨_, rfl, h⟩
    · cases h
  · rintro ⟨s, rfl, hs⟩
    exact hs

lemma checkAuthorizationShape_iff (fields : List (String × Value)) :
    checkAuthorizationShape (some (.obj fields)) = none ↔ WellShaped (some (.obj fields)) := by
  have hfind : ∀ {p : String → Bool} {ks : List String}, (ks.find? fun k => !p k) = none ↔ ∀ k ∈ ks, p k = true := by
    intro p ks
    simp
  constructor
  · intro h
    unfold checkAuthorizationShape at h
    dsimp only at h
    split at h
    · cases h
    · next haddress =>
      split at h
      · cases h
      · next huint =>
        split at h
        · next hnonce =>
          have ha := hfind.mp haddress
          have hu := hfind.mp huint
          exact ⟨ha _ (by simp), ha _ (by simp), hu _ (by simp), hu _ (by simp), hu _ (by simp), hnonce⟩
        · cases h
  · rintro ⟨hfrom, hto, hvalue, hafter, hbefore, hnonce⟩
    unfold checkAuthorizationShape
    dsimp only
    rw [hfind.mpr (by simp [hfrom, hto]), hfind.mpr (by simp [hvalue, hafter, hbefore])]
    exact if_pos hnonce

lemma wellShaped_of_check {auth : Option Value} (h : checkAuthorizationShape auth = none) : WellShaped auth := by
  unfold checkAuthorizationShape at h
  split at h
  · exact (checkAuthorizationShape_iff _).mp h
  · cases h

lemma sameAddress_iff {a b : Option Value} :
    sameAddress a b = true ↔ ∃ s t, a = some (.str s) ∧ b = some (.str t) ∧ isHexString 40 s = true ∧
      isHexString 40 t = true ∧ lower s = lower t := by
  constructor
  · intro h
    unfold sameAddress at h
    split at h
    · simp only [Bool.and_eq_true, decide_eq_true_eq] at h
      exact ⟨_, _, rfl, rfl, h.1.1, h.1.2, h.2⟩
    · cases h
  · rintro ⟨s, t, rfl, rfl, hs, ht, heq⟩
    simp [sameAddress, hs, ht, heq]

lemma sameAddress_self {s : String} (h : isHexString 40 s = true) : sameAddress (some (.str s)) (some (.str s)) = true :=
  sameAddress_iff.mpr ⟨s, s, rfl, rfl, h, h, rfl⟩

/-- The digits of a positive number are a decimal uint256 if the number is below 2^256. -/
lemma isUint_of_isPositive {s : String} (h : isPositive s.toList = true) :
    isUint s = true ↔ numberOf s.toList < 2 ^ 256 := by
  simp [isUint, h]

end ShadeTree.Payments
