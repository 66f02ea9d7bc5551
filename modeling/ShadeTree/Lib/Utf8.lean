import Mathlib.Data.List.Basic
import Mathlib.Tactic.Common

/-!
# Decoding of UTF-8 that never fails

Bytes to text as JavaScript's `toString("utf8")` and Rust's `from_utf8_lossy` have it: each longest piece of an
ill-formed sequence that could begin a character becomes one replacement character.
-/

namespace ShadeTree.Lib.Utf8

/-- A character of which bytes are still to come: how many, its value so far, and the range of the next byte. -/
structure Pending where
  needed : ℕ
  value : ℕ
  lower : ℕ
  upper : ℕ

/-- What a first byte is: a character, or the beginning of one. -/
def start (b : ℕ) : Char ⊕ Pending :=
  if b < 0x80 then .inl (Char.ofNat b)
  else if 0xc2 ≤ b ∧ b ≤ 0xdf then .inr ⟨1, b - 0xc0, 0x80, 0xbf⟩
  else if 0xe0 ≤ b ∧ b ≤ 0xef then
    .inr ⟨2, b - 0xe0, if b = 0xe0 then 0xa0 else 0x80, if b = 0xed then 0x9f else 0xbf⟩
  else if 0xf0 ≤ b ∧ b ≤ 0xf4 then
    .inr ⟨3, b - 0xf0, if b = 0xf0 then 0x90 else 0x80, if b = 0xf4 then 0x8f else 0xbf⟩
  else .inl '\ufffd'

/-- The text of the bytes behind a beginning, if there is one. -/
def decodeFrom : Option Pending → List UInt8 → List Char
  | none, [] => []
  | some _, [] => ['\ufffd']
  | none, b :: bs =>
    match start b.toNat with
    | .inl c => c :: decodeFrom none bs
    | .inr p => decodeFrom (some p) bs
  | some p, b :: bs =>
    if p.lower ≤ b.toNat ∧ b.toNat ≤ p.upper then
      let value := p.value * 64 + (b.toNat - 0x80)
      if p.needed = 1 then Char.ofNat value :: decodeFrom none bs
      else decodeFrom (some ⟨p.needed - 1, value, 0x80, 0xbf⟩) bs
    else
      -- the byte that does not continue the character is read again as a first one
      match start b.toNat with
      | .inl c => '\ufffd' :: c :: decodeFrom none bs
      | .inr p => '\ufffd' :: decodeFrom (some p) bs

def decode (bytes : List UInt8) : String := String.ofList (decodeFrom none bytes)

/-! ### What is encoded is decoded -/

def encode (s : String) : List UInt8 := s.toList.flatMap String.utf8EncodeChar

/-- The bytes of the character with a number. -/
def encodeNat (v : ℕ) : List UInt8 :=
  if v ≤ 0x7f then [UInt8.ofNat v]
  else if v ≤ 0x7ff then [UInt8.ofNat (v / 64 % 32 + 0xc0), UInt8.ofNat (v % 64 + 0x80)]
  else if v ≤ 0xffff then
    [UInt8.ofNat (v / 4096 % 16 + 0xe0), UInt8.ofNat (v / 64 % 64 + 0x80), UInt8.ofNat (v % 64 + 0x80)]
  else
    [UInt8.ofNat (v / 262144 % 8 + 0xf0), UInt8.ofNat (v / 4096 % 64 + 0x80), UInt8.ofNat (v / 64 % 64 + 0x80),
      UInt8.ofNat (v % 64 + 0x80)]

lemma utf8EncodeChar_eq (c : Char) : String.utf8EncodeChar c = encodeNat c.toNat := rfl

lemma decodeFrom_start {b : ℕ} (hb : b < 256) {p : Pending} (h : start b = .inr p) (bs : List UInt8) :
    decodeFrom none (UInt8.ofNat b :: bs) = decodeFrom (some p) bs := by
  rw [decodeFrom, UInt8.toNat_ofNat_of_lt' hb, h]

lemma decodeFrom_more {p : Pending} {b : ℕ} (hb : p.lower ≤ b ∧ b ≤ p.upper) (hbyte : b < 256) (hn : p.needed ≠ 1)
    (bs : List UInt8) :
    decodeFrom (some p) (UInt8.ofNat b :: bs) =
      decodeFrom (some ⟨p.needed - 1, p.value * 64 + (b - 0x80), 0x80, 0xbf⟩) bs := by
  rw [decodeFrom, UInt8.toNat_ofNat_of_lt' hbyte, if_pos hb]
  exact if_neg hn

lemma decodeFrom_last {p : Pending} {b : ℕ} (hb : p.lower ≤ b ∧ b ≤ p.upper) (hbyte : b < 256) (hn : p.needed = 1)
    (bs : List UInt8) :
    decodeFrom (some p) (UInt8.ofNat b :: bs) = Char.ofNat (p.value * 64 + (b - 0x80)) :: decodeFrom none bs := by
  rw [decodeFrom, UInt8.toNat_ofNat_of_lt' hbyte, if_pos hb]
  exact if_pos hn

lemma start_two {b : ℕ} (h : 0xc2 ≤ b ∧ b ≤ 0xdf) : start b = .inr ⟨1, b - 0xc0, 0x80, 0xbf⟩ := by
  rw [start, if_neg (by omega), if_pos h]

lemma start_three {b : ℕ} (h : 0xe0 ≤ b ∧ b ≤ 0xef) :
    start b = .inr ⟨2, b - 0xe0, if b = 0xe0 then 0xa0 else 0x80, if b = 0xed then 0x9f else 0xbf⟩ := by
  rw [start, if_neg (by omega), if_neg (by omega), if_pos h]

lemma start_four {b : ℕ} (h : 0xf0 ≤ b ∧ b ≤ 0xf4) :
    start b = .inr ⟨3, b - 0xf0, if b = 0xf0 then 0x90 else 0x80, if b = 0xf4 then 0x8f else 0xbf⟩ := by
  rw [start, if_neg (by omega), if_neg (by omega), if_neg (by omega), if_pos h]

lemma decodeFrom_encodeNat {v : ℕ} (hvalid : v < 0xd800 ∨ 0xdfff < v ∧ v < 0x110000) (bs : List UInt8) :
    decodeFrom none (encodeNat v ++ bs) = Char.ofNat v :: decodeFrom none bs := by
  unfold encodeNat
  by_cases h1 : v ≤ 0x7f
  · have hstart : start v = .inl (Char.ofNat v) := if_pos (by omega)
    rw [if_pos h1, List.cons_append, List.nil_append, decodeFrom,
      UInt8.toNat_ofNat_of_lt' (Nat.lt_of_le_of_lt h1 (by decide)), hstart]
  rw [if_neg h1]
  by_cases h2 : v ≤ 0x7ff
  · rw [if_pos h2, List.cons_append, List.cons_append, List.nil_append, decodeFrom_start (by omega) (start_two (by omega)),
      decodeFrom_last (by dsimp only; omega) (by omega) rfl]
    refine congrArg (fun n => Char.ofNat n :: decodeFrom none bs) ?_
    dsimp only
    omega
  rw [if_neg h2]
  by_cases h3 : v ≤ 0xffff
  · rw [if_pos h3, List.cons_append, List.cons_append, List.cons_append, List.nil_append,
      decodeFrom_start (by omega) (start_three (by omega)),
      decodeFrom_more (by dsimp only; split <;> split <;> omega) (by omega) (by simp),
      decodeFrom_last (by dsimp only; omega) (by omega) rfl]
    refine congrArg (fun n => Char.ofNat n :: decodeFrom none bs) ?_
    dsimp only
    omega
  · rw [if_neg h3, List.cons_append, List.cons_append, List.cons_append, List.cons_append, List.nil_append,
      decodeFrom_start (by omega) (start_four (by omega)),
      decodeFrom_more (by dsimp only; split <;> split <;> omega) (by omega) (by simp),
      decodeFrom_more (by dsimp only; omega) (by omega) (by simp),
      decodeFrom_last (by dsimp only; omega) (by omega) rfl]
    refine congrArg (fun n => Char.ofNat n :: decodeFrom none bs) ?_
    dsimp only
    omega

lemma decodeFrom_encode (s : List Char) : decodeFrom none (s.flatMap String.utf8EncodeChar) = s := by
  induction s with
  | nil => rfl
  | cons c s ih =>
    have hvalid : c.toNat < 0xd800 ∨ 0xdfff < c.toNat ∧ c.toNat < 0x110000 := c.valid
    rw [List.flatMap_cons, utf8EncodeChar_eq, decodeFrom_encodeNat hvalid, ih, Char.ofNat_toNat]

theorem decode_encode (s : String) : decode (encode s) = s := by
  rw [decode, encode, decodeFrom_encode, String.ofList_toList]

example : decode [0xe2, 0x82, 0xac, 0x20, 0xf0, 0x9f, 0x98, 0x80] = "€ 😀" ∧
    decode [0xe2, 0x82, 0x41, 0xff, 0xed, 0xa0, 0x80] = "\ufffdA\ufffd\ufffd\ufffd\ufffd" := by decide +kernel

end ShadeTree.Lib.Utf8
