import Mathlib.Data.List.Prime
import Mathlib.Data.Nat.Log
import Mathlib.NumberTheory.LucasPrimality

/-!
# Primality by Lucas's test

A number is prime if some base has the order of a prime modulo it: the base to the power `p - 1` is 1, and to
the power `(p - 1) / q` it is not, for every prime `q` that divides `p - 1`.  The powers are taken by squaring, so
that the test evaluates on large numbers.
-/

namespace ShadeTree.Lib.Lucas

/-- `base ^ e` modulo `p` for an `e` below `2 ^ bits`, by squaring. -/
def powMod (p : ℕ) : ℕ → ℕ → ℕ → ℕ
  | 0, _, _ => 1 % p
  | bits + 1, base, e =>
    let square := powMod p bits (base * base % p) (e / 2)
    if e % 2 = 0 then square else base * square % p

lemma powMod_eq {p bits base e : ℕ} (he : e < 2 ^ bits) : powMod p bits base e = base ^ e % p := by
  induction bits generalizing base e with
  | zero =>
    obtain rfl : e = 0 := by omega
    rfl
  | succ bits ih =>
    have hhalf : e / 2 < 2 ^ bits := by omega
    have hsquare : powMod p bits (base * base % p) (e / 2) = base ^ (2 * (e / 2)) % p := by
      rw [ih hhalf, ← Nat.pow_mod, ← pow_two, ← pow_mul]
    unfold powMod
    simp only [hsquare]
    split
    · next heven => rw [show 2 * (e / 2) = e by omega]
    · next hodd =>
      conv_rhs => rw [show e = 2 * (e / 2) + 1 by omega, pow_succ']
      exact Nat.mul_mod_mod _ _ _

/-- The test of `p` with a base and the primes of `p - 1`, each with its exponent. -/
def test (p base : ℕ) (factors : List (ℕ × ℕ)) : Bool :=
  (factors.map fun f => f.1 ^ f.2).prod + 1 = p && powMod p (p.log2 + 1) base (p - 1) = 1 &&
    factors.all fun f => powMod p (p.log2 + 1) base ((p - 1) / f.1) ≠ 1

lemma cast_pow_eq_one {p : ℕ} (hp : 2 ≤ p) (base e : ℕ) : (base : ZMod p) ^ e = 1 ↔ base ^ e % p = 1 := by
  have hone : 1 % p = 1 := Nat.mod_eq_of_lt hp
  rw [← Nat.cast_pow, ← Nat.cast_one, ZMod.natCast_eq_natCast_iff', hone]

theorem prime_of_test {p : ℕ} (base : ℕ) (factors : List (ℕ × ℕ)) (hprime : ∀ f ∈ factors, f.1.Prime)
    (htest : test p base factors = true) : p.Prime := by
  simp only [test, Bool.and_eq_true, decide_eq_true_eq, List.all_eq_true, ne_eq] at htest
  obtain ⟨⟨hprod, hone⟩, hnot⟩ := htest
  have hsub : p - 1 = (factors.map fun f => f.1 ^ f.2).prod := by omega
  have hlt : ∀ {e : ℕ}, e ≤ p - 1 → e < 2 ^ (p.log2 + 1) := fun he =>
    lt_of_le_of_lt (he.trans (Nat.sub_le p 1)) (Nat.lt_log2_self)
  have hpos : (factors.map fun f => f.1 ^ f.2).prod ≠ 0 := by
    refine List.prod_ne_zero fun h0 => ?_
    obtain ⟨f, hf, hzero⟩ := List.mem_map.mp h0
    exact (hprime f hf).pos.ne' (pow_eq_zero_iff'.mp hzero).1
  have hp : 2 ≤ p := by omega
  refine lucas_primality p (base : ZMod p) ?_ fun q hq hdvd => ?_
  · rw [cast_pow_eq_one hp, ← powMod_eq (hlt le_rfl)]
    exact hone
  · -- a prime that divides the product is one of the factors
    obtain ⟨x, hx, hqx⟩ := (Prime.dvd_prod_iff hq.prime).mp (hsub ▸ hdvd)
    obtain ⟨f, hf, rfl⟩ := List.mem_map.mp hx
    obtain rfl : q = f.1 := (Nat.prime_dvd_prime_iff_eq hq (hprime f hf)).mp (hq.dvd_of_dvd_pow hqx)
    rw [ne_eq, cast_pow_eq_one hp, ← powMod_eq (hlt (Nat.div_le_self _ _))]
    exact hnot f hf

end ShadeTree.Lib.Lucas
