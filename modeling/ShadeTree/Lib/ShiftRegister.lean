import Mathlib.Tactic.Common
import ShadeTree.Lib.Regroup

/-!
# Shift registers

A register of `w` bits takes digits of `a` bits in and writes digits of `b` bits out.  It overflows, as nothing clears
the bits that are written; but they leave at the top, so as long as fewer than `b` bits wait and another `a` fit beside
them, it writes what an accumulator without a bound writes.
-/

namespace ShadeTree.Lib

namespace Regroup

/-- Writes digits out as long as there are bits for one. -/
def drain (b : ℕ) (s : Regroup) : Regroup :=
  if 0 < b ∧ b ≤ s.bits then drain b (s.write b) else s
termination_by s.bits
decreasing_by
  show s.bits - b < s.bits
  omega

lemma drain_waiting {b : ℕ} (hb : 0 < b) (s : Regroup) : (s.drain b).bits < b := by
  induction s using drain.induct b with
  | case1 s h ih =>
    rw [drain, if_pos h]
    exact ih
  | case2 s h =>
    rw [drain, if_neg h]
    omega

lemma Holds.drain {a b : ℕ} {digits : List ℕ} {s : Regroup} (h : Holds a b digits s) :
    Holds a b digits (s.drain b) := by
  induction s using drain.induct b with
  | case1 s hfull ih =>
    rw [Regroup.drain, if_pos hfull]
    exact ih (h.write hfull.2)
  | case2 s hmore =>
    rw [Regroup.drain, if_neg hmore]
    exact h

/-- Each digit of `a` bits is taken in, and whatever can be written then is written. -/
def spread (a b : ℕ) (digits : List ℕ) : Regroup := digits.foldl (fun s d => (s.load a d).drain b) ⟨0, 0, []⟩

lemma spread_snoc (a b : ℕ) (digits : List ℕ) (d : ℕ) :
    spread a b (digits ++ [d]) = ((spread a b digits).load a d).drain b := by
  rw [spread, List.foldl_append, List.foldl_cons, List.foldl_nil, spread]

lemma holds_spread {a b : ℕ} {digits : List ℕ} (hd : ∀ d ∈ digits, d < 2 ^ a) :
    Holds a b digits (spread a b digits) := by
  induction digits using List.reverseRecOn with
  | nil => exact ⟨rfl, rfl, fun d hd => by cases hd⟩
  | append_singleton digits d ih =>
    rw [spread_snoc]
    exact ((ih fun x hx => hd x (List.mem_append_left _ hx)).load (hd d (by simp))).drain

lemma spread_waiting {a b : ℕ} (hb : 0 < b) (digits : List ℕ) : (spread a b digits).bits < b := by
  induction digits using List.reverseRecOn with
  | nil => exact hb
  | append_singleton digits d ih =>
    rw [spread_snoc]
    exact drain_waiting hb _

end Regroup

/-- The register: how many of its bits wait, all its bits, and what was written. -/
structure ShiftRegister (w : ℕ) where
  bits : ℕ
  value : BitVec w
  out : List ℕ

namespace ShiftRegister

variable {w : ℕ}

def empty : ShiftRegister w := ⟨0, 0, []⟩

/-- Shifts a digit of `a` bits in. -/
def load (a : ℕ) (s : ShiftRegister w) (d : ℕ) : ShiftRegister w :=
  ⟨s.bits + a, s.value <<< a ||| BitVec.ofNat w d, s.out⟩

/-- The `b` bits above the lowest `n`; the shift keeps the sign. -/
def digit (b : ℕ) (value : BitVec w) (n : ℕ) : ℕ := (value.sshiftRight n &&& BitVec.ofNat w (2 ^ b - 1)).toNat

def write (b : ℕ) (s : ShiftRegister w) : ShiftRegister w :=
  ⟨s.bits - b, s.value, s.out ++ [digit b s.value (s.bits - b)]⟩

def drain (b : ℕ) (s : ShiftRegister w) : ShiftRegister w :=
  if 0 < b ∧ b ≤ s.bits then drain b (s.write b) else s
termination_by s.bits
decreasing_by
  show s.bits - b < s.bits
  omega

/-- The register against the accumulator without a bound. -/
structure Tracks (r : ShiftRegister w) (s : Regroup) : Prop where
  bits : r.bits = s.bits
  value : r.value = BitVec.ofNat w s.value
  out : r.out = s.out

lemma ofNat_shift {a v d : ℕ} (hd : d < 2 ^ a) :
    BitVec.ofNat w v <<< a ||| BitVec.ofNat w d = BitVec.ofNat w (v * 2 ^ a + d) := by
  have hor : v * 2 ^ a + d = v <<< a ||| d := by
    rw [← Nat.shiftLeft_add_eq_or_of_lt hd, Nat.shiftLeft_eq]
  rw [hor]
  refine BitVec.eq_of_getLsbD_eq fun i hi => ?_
  simp only [BitVec.getLsbD_or, BitVec.getLsbD_shiftLeft, BitVec.getLsbD_ofNat, Nat.testBit_or, Nat.testBit_shiftLeft]
  by_cases hia : i < a
  · simp [hi, hia]
  · have hlow : i - a < w := by omega
    simp [hi, hia, hlow, not_lt.mp hia]

lemma digit_ofNat {b n v : ℕ} (hfit : n + b ≤ w) : digit b (BitVec.ofNat w v) n = v / 2 ^ n % 2 ^ b := by
  refine Nat.eq_of_testBit_eq fun i => ?_
  rw [digit, BitVec.testBit_toNat, BitVec.getLsbD_and, BitVec.getLsbD_sshiftRight, Nat.testBit_mod_two_pow,
    ← Nat.shiftRight_eq_div_pow, Nat.testBit_shiftRight]
  simp only [BitVec.getLsbD_ofNat, Nat.testBit_two_pow_sub_one]
  by_cases hib : i < b
  · have hiw : i < w := by omega
    have hni : n + i < w := by omega
    simp [hib, hiw, hni]
  · simp [hib]

lemma Tracks.load {r : ShiftRegister w} {s : Regroup} (h : Tracks r s) {a d : ℕ} (hd : d < 2 ^ a) :
    Tracks (r.load a d) (s.load a d) := by
  refine ⟨?_, ?_, h.out⟩
  · show r.bits + a = s.bits + a
    rw [h.bits]
  · show r.value <<< a ||| BitVec.ofNat w d = BitVec.ofNat w (s.value * 2 ^ a + d)
    rw [h.value, ofNat_shift hd]

lemma Tracks.write {r : ShiftRegister w} {s : Regroup} (h : Tracks r s) {b : ℕ} (hb : b ≤ s.bits)
    (hfit : s.bits ≤ w) : Tracks (r.write b) (s.write b) := by
  refine ⟨?_, h.value, ?_⟩
  · show r.bits - b = s.bits - b
    rw [h.bits]
  · show r.out ++ [digit b r.value (r.bits - b)] = s.out ++ [s.value / 2 ^ (s.bits - b) % 2 ^ b]
    rw [h.out, h.value, h.bits, digit_ofNat (by omega)]

lemma Tracks.drain {r : ShiftRegister w} {s : Regroup} (h : Tracks r s) {b : ℕ} (hfit : s.bits ≤ w) :
    Tracks (r.drain b) (s.drain b) := by
  induction s using Regroup.drain.induct b generalizing r with
  | case1 s hfull ih =>
    rw [Regroup.drain, ShiftRegister.drain, if_pos hfull, if_pos (h.bits.symm ▸ hfull)]
    refine ih (h.write hfull.2 hfit) ?_
    show s.bits - b ≤ w
    omega
  | case2 s hmore =>
    rw [Regroup.drain, ShiftRegister.drain, if_neg hmore, if_neg (h.bits.symm ▸ hmore)]
    exact h

/-- **No bits are lost** where the bits that wait and one more digit fit. -/
theorem tracks_spread {a b : ℕ} (hb : 0 < b) (hfit : a + b ≤ w + 1) {digits : List ℕ} (hd : ∀ d ∈ digits, d < 2 ^ a) :
    Tracks (digits.foldl (fun s d => (s.load a d).drain b) (empty : ShiftRegister w)) (Regroup.spread a b digits) := by
  induction digits using List.reverseRecOn with
  | nil => exact ⟨rfl, rfl, rfl⟩
  | append_singleton digits d ih =>
    rw [List.foldl_append, List.foldl_cons, List.foldl_nil, Regroup.spread_snoc]
    have hwait := Regroup.spread_waiting (a := a) hb digits
    refine ((ih fun x hx => hd x (List.mem_append_left _ hx)).load (hd d (by simp))).drain ?_
    show (Regroup.spread a b digits).bits + a ≤ w
    omega

/-- The same for a reader that writes at most one digit at a time. -/
theorem tracks_regroup {a b : ℕ} (hb : 0 < b) (hab : a ≤ b) (hfit : a + b ≤ w + 1) {digits : List ℕ}
    (hd : ∀ d ∈ digits, d < 2 ^ a) :
    Tracks (digits.foldl (fun s d => if b ≤ (s.load a d).bits then (s.load a d).write b else s.load a d)
      (empty : ShiftRegister w)) (digits.foldl (Regroup.push a b) ⟨0, 0, []⟩) := by
  induction digits using List.reverseRecOn with
  | nil => exact ⟨rfl, rfl, rfl⟩
  | append_singleton digits d ih =>
    have hrest : ∀ x ∈ digits, x < 2 ^ a := fun x hx => hd x (List.mem_append_left _ hx)
    have hload := (ih hrest).load (hd d (by simp))
    have hwait := (Regroup.regroup_reads hab hb hrest).waiting
    rw [List.foldl_append, List.foldl_cons, List.foldl_nil, List.foldl_append, List.foldl_cons, List.foldl_nil,
      Regroup.push_eq, hload.bits]
    split
    · next hfull =>
      refine hload.write hfull ?_
      show (digits.foldl (Regroup.push a b) ⟨0, 0, []⟩).bits + a ≤ w
      omega
    · exact hload

end ShiftRegister

end ShadeTree.Lib
