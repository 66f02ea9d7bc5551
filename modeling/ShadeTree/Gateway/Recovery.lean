import Mathlib.Data.Nat.Prime.Basic
import Mathlib.Tactic.NormNum.Prime
import ShadeTree.Gateway.Envelope
import ShadeTree.Lib.Euclid
import ShadeTree.Lib.Lucas
import ShadeTree.Lib.Text

/-!
# Recovery of an over-spent secret (`toField`, `modInv`, `reconstructSecret` in `lib/rln.mjs`)

Two shares of one epoch are two points of a line whose value at 0 is the secret.  The remainder of a BigInt takes
the sign of the dividend, so every helper brings its result back to the range of the field; the slope is divided
out with an inverse from the extended Euclidean loop.  That the loop finds an inverse rests on `FIELD` being prime.
-/

namespace ShadeTree.Gateway.Recovery

open ShadeTree.Lib

/-! ### `FIELD` is prime -/

lemma prime_405928799 : Nat.Prime 405928799 := by
  refine Lucas.prime_of_test 22 [(2, 1), (11, 1), (3691, 1), (4999, 1)] ?_ (by decide)
  norm_num

lemma prime_12048837557 : Nat.Prime 12048837557 := by
  refine Lucas.prime_of_test 2 [(2, 2), (7, 2), (661, 1), (93001, 1)] ?_ (by decide)
  norm_num

lemma prime_5156902474397 : Nat.Prime 5156902474397 := by
  refine Lucas.prime_of_test 2 [(2, 2), (107, 1), (12048837557, 1)] ?_ (by decide)
  simp only [List.forall_mem_cons]
  exact ⟨by norm_num, by norm_num, prime_12048837557, List.forall_mem_nil _⟩

lemma prime_1670836401704629 : Nat.Prime 1670836401704629 := by
  refine Lucas.prime_of_test 2 [(2, 2), (3, 4), (5156902474397, 1)] ?_ (by decide)
  simp only [List.forall_mem_cons]
  exact ⟨by norm_num, by norm_num, prime_5156902474397, List.forall_mem_nil _⟩

lemma prime_639533339 : Nat.Prime 639533339 := by
  refine Lucas.prime_of_test 2 [(2, 1), (229, 1), (853, 1), (1637, 1)] ?_ (by decide)
  norm_num

lemma prime_65865678001877903 : Nat.Prime 65865678001877903 := by
  refine Lucas.prime_of_test 5 [(2, 1), (83, 1), (379, 1), (1637, 1), (639533339, 1)] ?_ (by decide)
  simp only [List.forall_mem_cons]
  exact ⟨by norm_num, by norm_num, by norm_num, by norm_num, prime_639533339, List.forall_mem_nil _⟩

lemma prime_13818364434197438864469338081 : Nat.Prime 13818364434197438864469338081 := by
  refine Lucas.prime_of_test 3 [(2, 5), (5, 1), (823, 1), (1593227, 1), (65865678001877903, 1)] ?_ (by decide +kernel)
  simp only [List.forall_mem_cons]
  exact ⟨by norm_num, by norm_num, by norm_num, by norm_num, prime_65865678001877903, List.forall_mem_nil _⟩

theorem prime_FIELD : Nat.Prime FIELD := by
  refine Lucas.prime_of_test 5 [(2, 28), (3, 2), (13, 1), (29, 1), (983, 1), (11003, 1), (237073, 1), (405928799, 1),
    (1670836401704629, 1), (13818364434197438864469338081, 1)] ?_ (by decide +kernel)
  simp only [List.forall_mem_cons]
  exact ⟨by norm_num, by norm_num, by norm_num, by norm_num, by norm_num, by norm_num, by norm_num, prime_405928799,
    prime_1670836401704629, prime_13818364434197438864469338081, List.forall_mem_nil _⟩

/-! ### Field elements -/

/-- What a field helper throws. -/
inductive Thrown where
  /-- `toField: unsupported` and the type. -/
  | unsupported (type : String)
  /-- `BigInt` of a number that is no integer. -/
  | rangeError
  /-- `BigInt` of a text it cannot read. -/
  | syntaxError
  | modInvZero
  | identicalPoints
  deriving DecidableEq, Repr

/-- A value as it comes to `toField`: a number by its exact value, if it is finite. -/
inductive Scalar where
  | bigint (n : ℤ)
  | number (value : Option ℚ)
  | string (s : String)
  | other (type : String)

/-- The base a letter after a leading 0 stands for. -/
def radix (c : Char) : Option ℕ :=
  if c = 'x' ∨ c = 'X' then some 16 else if c = 'o' ∨ c = 'O' then some 8
  else if c = 'b' ∨ c = 'B' then some 2 else none

def decimalText : List Char → Option ℕ
  | [] => none
  | cs => readDigits 10 decimalDigit 0 cs

/-- `BigInt(s)`: a sign stands before decimal digits only, and blank text is 0. -/
def bigIntOfString (s : String) : Option ℤ :=
  match Text.trim s.toList with
  | [] => some 0
  | '-' :: cs => (decimalText cs).map fun n => -(n : ℤ)
  | '+' :: cs => (decimalText cs).map fun n => (n : ℤ)
  | '0' :: p :: cs =>
    match radix p with
    | some base =>
      if cs = [] then none
      else (readDigits base (fun c => (hexDigit c).filter (· < base)) 0 cs).map fun n => (n : ℤ)
    | none => (decimalText ('0' :: p :: cs)).map fun n => (n : ℤ)
  | cs => (decimalText cs).map fun n => (n : ℤ)

/-- The integer that a value represents. -/
def Scalar.integer : Scalar → Except Thrown ℤ
  | .bigint n => .ok n
  | .number value =>
    match value.filter fun x => x.den = 1 with
    | some x => .ok x.num
    | none => .error .rangeError
  | .string s =>
    match bigIntOfString s with
    | some n => .ok n
    | none => .error .syntaxError
  | .other type => .error (.unsupported type)

/-- `((n % FIELD) + FIELD) % FIELD`; the remainder truncates. -/
def wrap (n : ℤ) : ℤ := (n.tmod FIELD + FIELD).tmod FIELD

/-- `toField(v)`. -/
def toField (v : Scalar) : Except Thrown ℤ := v.integer.map wrap

def modSub (a b : ℤ) : ℤ := wrap (a - b)

def modMul (a b : ℤ) : ℤ := (a * b).tmod FIELD

/-- `modInv(a)`: the loop begins with `a` in the range of the field, and `FIELD`. -/
def modInv (a : ℤ) : Except Thrown ℤ :=
  if wrap a = 0 then .error .modInvZero
  else .ok (wrap (Euclid.run ⟨wrap a, FIELD, 1, 0⟩).old_s)

structure Share where
  x : Scalar
  y : Scalar

/-- `reconstructSecret(shareA, shareB)`. -/
def reconstructSecret (shareA shareB : Share) : Except Thrown String := do
  let xA ← toField shareA.x
  let yA ← toField shareA.y
  let xB ← toField shareB.x
  let yB ← toField shareB.y
  if xA = xB then throw .identicalPoints
  let inv ← modInv (modSub xB xA)
  let a1 := modMul (modSub yB yA) inv
  let a0 := modSub yA (modMul a1 xA)
  return toString a0

/-! ### The helpers compute in the field -/

lemma FIELD_pos : (0 : ℤ) < FIELD := by decide

lemma wrap_eq (n : ℤ) : wrap n = n % FIELD := tmod_add_tmod FIELD_pos n

lemma wrap_modEq (n : ℤ) : wrap n ≡ n [ZMOD FIELD] := by
  rw [wrap_eq]
  exact Int.mod_modEq n FIELD

lemma wrap_nonneg (n : ℤ) : 0 ≤ wrap n := by
  rw [wrap_eq]
  exact Int.emod_nonneg n FIELD_pos.ne'

lemma wrap_lt (n : ℤ) : wrap n < FIELD := by
  rw [wrap_eq]
  exact Int.emod_lt_of_pos n FIELD_pos

lemma wrap_inj {m n : ℤ} : wrap m = wrap n ↔ m ≡ n [ZMOD FIELD] := by
  rw [wrap_eq, wrap_eq]
  rfl

lemma modMul_modEq (a b : ℤ) : modMul a b ≡ a * b [ZMOD FIELD] := by
  unfold modMul Int.ModEq
  rw [Int.tmod_def, Int.sub_mul_emod_self_left]

lemma wrap_eq_zero {a : ℤ} : wrap a = 0 ↔ (FIELD : ℤ) ∣ a := by
  rw [wrap_eq]
  exact Int.dvd_iff_emod_eq_zero.symm

/-- An element other than 0 is prime to the modulus. -/
lemma gcd_wrap {a : ℤ} (ha : ¬ (FIELD : ℤ) ∣ a) : Int.gcd (wrap a) FIELD = 1 := by
  have hndvd : ¬ FIELD ∣ (wrap a).natAbs := by
    rw [← Int.natCast_dvd]
    intro hdvd
    exact ha (Int.modEq_zero_iff_dvd.mp ((wrap_modEq a).symm.trans (Int.modEq_zero_iff_dvd.mpr hdvd)))
  rw [Int.gcd_comm]
  exact (Nat.Prime.coprime_iff_not_dvd prime_FIELD).mpr hndvd

/-- The inverse of an element. -/
lemma modInv_spec {a : ℤ} (ha : ¬ (FIELD : ℤ) ∣ a) :
    ∃ b, modInv a = .ok b ∧ 0 ≤ b ∧ b < FIELD ∧ a * b ≡ 1 [ZMOD FIELD] := by
  refine ⟨_, if_neg (mt wrap_eq_zero.mp ha), wrap_nonneg _, wrap_lt _, ?_⟩
  have hinverse := Euclid.run_inverse FIELD_pos.le (wrap_nonneg a) (gcd_wrap ha)
  calc a * wrap (Euclid.run ⟨wrap a, FIELD, 1, 0⟩).old_s
      ≡ wrap a * (Euclid.run ⟨wrap a, FIELD, 1, 0⟩).old_s [ZMOD FIELD] :=
        (wrap_modEq a).symm.mul (wrap_modEq _)
    _ = (Euclid.run ⟨wrap a, FIELD, 1, 0⟩).old_s * wrap a := mul_comm _ _
    _ ≡ 1 [ZMOD FIELD] := hinverse

/-- What is computed from four integers. -/
lemma reconstructSecret_eq {A B : Share} {xA yA xB yB : ℤ} (hxA : A.x.integer = .ok xA) (hyA : A.y.integer = .ok yA)
    (hxB : B.x.integer = .ok xB) (hyB : B.y.integer = .ok yB) :
    reconstructSecret A B = if wrap xA = wrap xB then .error .identicalPoints else
      (modInv (modSub (wrap xB) (wrap xA))).map fun inv =>
        toString (modSub (wrap yA) (modMul (modMul (modSub (wrap yB) (wrap yA)) inv) (wrap xA))) := by
  unfold reconstructSecret toField
  rw [hxA, hyA, hxB, hyB]
  change (if wrap xA = wrap xB then _ else _) = _
  by_cases heq : wrap xA = wrap xB
  · rw [if_pos heq, if_pos heq]
    rfl
  · rw [if_neg heq, if_neg heq]
    cases modInv (modSub (wrap xB) (wrap xA)) <;> rfl

/-- On two points of a line the value at 0. -/
lemma intercept {a0 a1 xA yA xB yB inv : ℤ} (hA : yA ≡ a0 + a1 * xA [ZMOD FIELD])
    (hB : yB ≡ a0 + a1 * xB [ZMOD FIELD]) (hinv : (xB - xA) * inv ≡ 1 [ZMOD FIELD]) :
    yA - (yB - yA) * inv * xA ≡ a0 [ZMOD FIELD] := by
  have hslope : (yB - yA) * inv ≡ a1 [ZMOD FIELD] :=
    calc (yB - yA) * inv ≡ (a0 + a1 * xB - (a0 + a1 * xA)) * inv [ZMOD FIELD] := (hB.sub hA).mul_right inv
      _ = a1 * ((xB - xA) * inv) := by ring
      _ ≡ a1 * 1 [ZMOD FIELD] := hinv.mul_left a1
      _ = a1 := mul_one a1
  calc yA - (yB - yA) * inv * xA ≡ a0 + a1 * xA - a1 * xA [ZMOD FIELD] := hA.sub (hslope.mul_right xA)
    _ = a0 := by ring

/-- **Recovery of the secret.** From two shares on a line, whatever integers stand for their coordinates, its
value at 0 is recovered in the range of the field, unless the two points have one coordinate `x`; and every
element other than 0 has the inverse that is divided by. -/
theorem reconstructSecret_recovers {A B : Share} {xA yA xB yB a0 a1 : ℤ}
    (hxA : A.x.integer = .ok xA) (hyA : A.y.integer = .ok yA)
    (hxB : B.x.integer = .ok xB) (hyB : B.y.integer = .ok yB)
    (hA : yA ≡ a0 + a1 * xA [ZMOD FIELD]) (hB : yB ≡ a0 + a1 * xB [ZMOD FIELD]) :
    (¬ xA ≡ xB [ZMOD FIELD] → reconstructSecret A B = .ok (toString (a0 % FIELD))) ∧
    (reconstructSecret A B = .error .identicalPoints ↔ xA ≡ xB [ZMOD FIELD]) ∧
    ∀ a : ℤ, ¬ (FIELD : ℤ) ∣ a → ∃ b, modInv a = .ok b ∧ 0 ≤ b ∧ b < FIELD ∧ a * b ≡ 1 [ZMOD FIELD] := by
  have heq := reconstructSecret_eq hxA hyA hxB hyB
  have hrecovers : ¬ xA ≡ xB [ZMOD FIELD] → reconstructSecret A B = .ok (toString (a0 % FIELD)) := by
    intro hx
    have hdiff : modSub (wrap xB) (wrap xA) ≡ xB - xA [ZMOD FIELD] :=
      (wrap_modEq _).trans ((wrap_modEq xB).sub (wrap_modEq xA))
    have hndvd : ¬ (FIELD : ℤ) ∣ modSub (wrap xB) (wrap xA) := by
      intro hdvd
      have hzero := hdiff.symm.trans (Int.modEq_zero_iff_dvd.mpr hdvd)
      exact hx (Int.modEq_iff_dvd.mpr (Int.modEq_zero_iff_dvd.mp hzero))
    obtain ⟨inv, hinv, -, -, hmul⟩ := modInv_spec hndvd
    rw [heq, if_neg (mt wrap_inj.mp hx), hinv]
    refine congrArg (fun n : ℤ => Except.ok (toString n)) ?_
    -- what is wrapped last is the intercept, up to the modulus
    have hvalue : wrap yA - modMul (modMul (modSub (wrap yB) (wrap yA)) inv) (wrap xA) ≡ a0 [ZMOD FIELD] :=
      calc wrap yA - modMul (modMul (modSub (wrap yB) (wrap yA)) inv) (wrap xA)
          ≡ yA - modMul (modSub (wrap yB) (wrap yA)) inv * wrap xA [ZMOD FIELD] :=
            (wrap_modEq yA).sub (modMul_modEq _ _)
        _ ≡ yA - (yB - yA) * inv * xA [ZMOD FIELD] := by
            refine (Int.ModEq.refl yA).sub (((modMul_modEq _ _).trans (Int.ModEq.mul_right inv ?_)).mul (wrap_modEq xA))
            exact (wrap_modEq _).trans ((wrap_modEq yB).sub (wrap_modEq yA))
        _ ≡ a0 [ZMOD FIELD] := intercept hA hB ((hdiff.symm.mul_right inv).trans hmul)
    unfold modSub at hvalue ⊢
    rw [wrap_eq]
    exact hvalue
  refine ⟨hrecovers, ?_, fun a ha => modInv_spec ha⟩
  by_cases hx : xA ≡ xB [ZMOD FIELD]
  · rw [heq, if_pos (wrap_inj.mpr hx)]
    exact ⟨fun _ => hx, fun _ => rfl⟩
  · rw [hrecovers hx]
    exact ⟨fun h => (by cases h), fun h => absurd h hx⟩

/-- The line `7 + 5 * x` from its points at 1 and 2; the second comes 1 above the range, and as text. -/
theorem reconstructSecret_recovers_text : reconstructSecret ⟨.bigint 1, .bigint 12⟩
    ⟨.string "21888242871839275222246405745257275088548364400416034343698204186575808495619", .bigint 17⟩ =
      .ok (toString (7 % FIELD : ℤ)) :=
  (@reconstructSecret_recovers _ _ 1 12 (FIELD + 2) 17 7 5 rfl rfl (by decide) rfl (by decide) (by decide)).1
    (by decide)

end ShadeTree.Gateway.Recovery
