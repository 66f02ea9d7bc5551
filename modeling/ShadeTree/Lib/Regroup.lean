import Mathlib.Data.List.Induction
import Mathlib.Data.Nat.Digits.Defs
import Mathlib.Tactic.Ring

/-!
# Regrouping the digits of a number

A decoder reads digits of `a` bits and writes digits of `b` bits: it shifts each digit into an accumulator
and writes one out as soon as the accumulator holds enough bits.  What was read is the number that was
written, followed by the bits not yet written; so where the bits come out even, reading can be undone.
-/

namespace ShadeTree.Lib

/-- The accumulator: how many of its low bits are not written yet, its value, and what was written. -/
structure Regroup where
  bits : ℕ
  value : ℕ
  out : List ℕ

namespace Regroup

/-- Reads one digit of `a` bits. -/
def push (a b : ℕ) (s : Regroup) (d : ℕ) : Regroup :=
  let value := s.value * 2 ^ a + d
  let bits := s.bits + a
  if b ≤ bits then ⟨bits - b, value, s.out ++ [value / 2 ^ (bits - b) % 2 ^ b]⟩ else ⟨bits, value, s.out⟩

/-- The digits of `b` bits written for digits of `a` bits. -/
def regroup (a b : ℕ) (digits : List ℕ) : List ℕ := (digits.foldl (push a b) ⟨0, 0, []⟩).out

/-- The number with these digits, most significant first. -/
def numeral (base : ℕ) (digits : List ℕ) : ℕ := Nat.ofDigits base digits.reverse

lemma numeral_snoc (base : ℕ) (digits : List ℕ) (d : ℕ) :
    numeral base (digits ++ [d]) = numeral base digits * base + d := by
  unfold numeral
  rw [List.reverse_append, List.reverse_singleton, List.singleton_append, Nat.ofDigits_cons]
  ring

lemma numeral_inj {base : ℕ} (hbase : 1 < base) {ds ds' : List ℕ} (hlen : ds.length = ds'.length)
    (hd : ∀ d ∈ ds, d < base) (hd' : ∀ d ∈ ds', d < base) (h : numeral base ds = numeral base ds') : ds = ds' := by
  refine List.reverse_inj.mp (Nat.ofDigits_inj_of_len_eq hbase ?_ ?_ ?_ h)
  · rw [List.length_reverse, List.length_reverse, hlen]
  · exact fun d hmem => hd d (List.mem_reverse.mp hmem)
  · exact fun d hmem => hd' d (List.mem_reverse.mp hmem)

/-- Takes in one digit of `a` bits. -/
def load (a : ℕ) (s : Regroup) (d : ℕ) : Regroup := ⟨s.bits + a, s.value * 2 ^ a + d, s.out⟩

/-- Writes out one digit of `b` bits. -/
def write (b : ℕ) (s : Regroup) : Regroup :=
  ⟨s.bits - b, s.value, s.out ++ [s.value / 2 ^ (s.bits - b) % 2 ^ b]⟩

lemma push_eq (a b : ℕ) (s : Regroup) (d : ℕ) :
    push a b s d = if b ≤ (s.load a d).bits then (s.load a d).write b else s.load a d := rfl

/-- What was read is what was written and the bits that are left. -/
structure Holds (a b : ℕ) (digits : List ℕ) (s : Regroup) : Prop where
  number : numeral (2 ^ a) digits = numeral (2 ^ b) s.out * 2 ^ s.bits + s.value % 2 ^ s.bits
  length : a * digits.length = b * s.out.length + s.bits
  lt : ∀ d ∈ s.out, d < 2 ^ b

lemma Holds.load {a b d : ℕ} {digits : List ℕ} {s : Regroup} (h : Holds a b digits s) (hd : d < 2 ^ a) :
    Holds a b (digits ++ [d]) (s.load a d) := by
  obtain ⟨hnum, hlen, hlt⟩ := h
  -- the bits that wait together with the new digit
  have hmod : (s.value * 2 ^ a + d) % 2 ^ (s.bits + a) = s.value % 2 ^ s.bits * 2 ^ a + d := by
    have hlt : s.value % 2 ^ s.bits * 2 ^ a + d < 2 ^ (s.bits + a) := by
      have hv : s.value % 2 ^ s.bits + 1 ≤ 2 ^ s.bits := Nat.mod_lt _ (by positivity)
      calc s.value % 2 ^ s.bits * 2 ^ a + d < (s.value % 2 ^ s.bits + 1) * 2 ^ a := by rw [add_mul]; omega
        _ ≤ 2 ^ s.bits * 2 ^ a := Nat.mul_le_mul_right _ hv
        _ = 2 ^ (s.bits + a) := (pow_add 2 s.bits a).symm
    conv_lhs => rw [← Nat.div_add_mod s.value (2 ^ s.bits)]
    have hsplit : (2 ^ s.bits * (s.value / 2 ^ s.bits) + s.value % 2 ^ s.bits) * 2 ^ a + d =
        (s.value % 2 ^ s.bits * 2 ^ a + d) + 2 ^ (s.bits + a) * (s.value / 2 ^ s.bits) := by
      rw [pow_add]
      ring
    rw [hsplit, Nat.add_mul_mod_self_left, Nat.mod_eq_of_lt hlt]
  refine ⟨?_, ?_, hlt⟩
  · unfold Regroup.load
    dsimp only
    rw [numeral_snoc, hnum, hmod, pow_add]
    ring
  · rw [List.length_append, List.length_singleton, mul_add, mul_one]
    show a * digits.length + a = b * s.out.length + (s.bits + a)
    omega

lemma Holds.write {a b : ℕ} {digits : List ℕ} {s : Regroup} (h : Holds a b digits s) (hb : b ≤ s.bits) :
    Holds a b digits (s.write b) := by
  obtain ⟨hnum, hlen, hlt⟩ := h
  obtain ⟨r, hr⟩ := Nat.exists_eq_add_of_le hb
  have hrb : s.bits - b = r := by omega
  -- the accumulator modulo `2 ^ (b + r)` is the digit written and the bits that still wait
  have hcut : s.value % 2 ^ (b + r) = s.value / 2 ^ r % 2 ^ b * 2 ^ r + s.value % 2 ^ r := by
    rw [add_comm b r, pow_add, Nat.mod_mul]
    ring
  refine ⟨?_, ?_, ?_⟩
  · unfold Regroup.write
    dsimp only
    rw [hrb, hnum, hr, hcut, numeral_snoc, pow_add]
    ring
  · unfold Regroup.write
    dsimp only
    rw [hrb, hlen, List.length_append, List.length_singleton, mul_add, mul_one]
    omega
  · intro d hd
    rcases List.mem_append.mp hd with hd | hd
    · exact hlt d hd
    · rw [List.mem_singleton.mp hd]
      exact Nat.mod_lt _ (by positivity)

/-- What was read is what was written and the bits that wait. -/
structure Reads (a b : ℕ) (digits : List ℕ) (s : Regroup) : Prop where
  number : numeral (2 ^ a) digits = numeral (2 ^ b) s.out * 2 ^ s.bits + s.value % 2 ^ s.bits
  waiting : s.bits < b
  length : a * digits.length = b * s.out.length + s.bits
  lt : ∀ d ∈ s.out, d < 2 ^ b

lemma Reads.push {a b d : ℕ} {digits : List ℕ} {s : Regroup} (h : Reads a b digits s) (hab : a ≤ b)
    (hd : d < 2 ^ a) : Reads a b (digits ++ [d]) (s.push a b d) := by
  have hload : Holds a b (digits ++ [d]) (s.load a d) := Holds.load ⟨h.number, h.length, h.lt⟩ hd
  have hwait := h.waiting
  rw [push_eq]
  split
  · next hfull =>
    have hwrite := hload.write hfull
    refine ⟨hwrite.number, ?_, hwrite.length, hwrite.lt⟩
    show s.bits + a - b < b
    omega
  · next hmore => exact ⟨hload.number, not_le.mp hmore, hload.length, hload.lt⟩

lemma regroup_reads {a b : ℕ} (hab : a ≤ b) (hb : 0 < b) {digits : List ℕ} (hd : ∀ d ∈ digits, d < 2 ^ a) :
    Reads a b digits (digits.foldl (push a b) ⟨0, 0, []⟩) := by
  induction digits using List.reverseRecOn with
  | nil => exact ⟨rfl, hb, rfl, fun d hd => by cases hd⟩
  | append_singleton digits d ih =>
    rw [List.foldl_append, List.foldl_cons, List.foldl_nil]
    exact (ih fun x hx => hd x (List.mem_append_left _ hx)).push hab (hd d (by simp))

/-- **Regrouping can be undone** where the bits come out even. -/
theorem regroup_inj {a b : ℕ} (ha : 0 < a) (hab : a ≤ b) {ds ds' : List ℕ} (hlen : ds.length = ds'.length)
    (heven : b ∣ a * ds.length) (hd : ∀ d ∈ ds, d < 2 ^ a) (hd' : ∀ d ∈ ds', d < 2 ^ a)
    (h : regroup a b ds = regroup a b ds') : ds = ds' := by
  have hnumber : ∀ ds : List ℕ, (∀ d ∈ ds, d < 2 ^ a) → b ∣ a * ds.length →
      numeral (2 ^ a) ds = numeral (2 ^ b) (regroup a b ds) := by
    intro ds hd heven
    obtain ⟨hnum, hwait, hlength, -⟩ := regroup_reads hab (ha.trans_le hab) hd
    have hbits : (ds.foldl (push a b) ⟨0, 0, []⟩).bits = 0 := by
      rw [hlength, Nat.dvd_add_right (Nat.dvd_mul_right b _)] at heven
      exact Nat.eq_zero_of_dvd_of_lt heven hwait
    rw [hnum, hbits, pow_zero, Nat.mod_one]
    unfold regroup
    omega
  have heq : numeral (2 ^ a) ds = numeral (2 ^ a) ds' := by
    rw [hnumber ds hd heven, hnumber ds' hd' (hlen ▸ heven), h]
  exact numeral_inj (Nat.one_lt_two_pow ha.ne') hlen hd hd' heq

end Regroup

end ShadeTree.Lib
