import Mathlib.Data.List.TakeWhile
import Mathlib.Tactic.Common
import ShadeTree.Lib.Text

/-!
# Base64

Bytes in digits of six bits, three bytes in four digits, over the standard alphabet with padding or over the
alphabet for URLs without.  A decoder that ignores the bits that do not make up a byte reads every encoding back.
-/

namespace ShadeTree.Lib.Base64

/-- The digits of bytes. -/
def digits : List ℕ → List ℕ
  | [] => []
  | [x] => [x / 4, x % 4 * 16]
  | [x, y] => [x / 4, x % 4 * 16 + y / 16, y % 16 * 4]
  | x :: y :: z :: bytes => x / 4 :: (x % 4 * 16 + y / 16) :: (y % 16 * 4 + z / 64) :: z % 64 :: digits bytes

/-- The bytes that digits make up. -/
def bytes : List ℕ → List ℕ
  | [] | [_] => []
  | [a, b] => [a * 4 + b / 16]
  | [a, b, c] => [a * 4 + b / 16, b % 16 * 16 + c / 4]
  | a :: b :: c :: d :: ds => (a * 4 + b / 16) :: (b % 16 * 16 + c / 4) :: (c % 4 * 64 + d) :: bytes ds

lemma bytes_digits {l : List ℕ} (h : ∀ x ∈ l, x < 256) : bytes (digits l) = l := by
  induction l using digits.induct with
  | case1 => rfl
  | case2 x =>
    have hx := h x (by simp)
    rw [digits, bytes]
    congr 1
    omega
  | case3 x y =>
    have hx := h x (by simp)
    have hy := h y (by simp)
    rw [digits, bytes]
    congr 1
    · omega
    · congr 1
      omega
  | case4 x y z l ih =>
    have hx := h x (by simp)
    have hy := h y (by simp)
    have hz := h z (by simp)
    rw [digits, bytes, ih fun w hw => h w (by simp [hw])]
    congr 1
    · omega
    · congr 1
      · omega
      · congr 1
        omega

lemma digits_lt {l : List ℕ} (h : ∀ x ∈ l, x < 256) : ∀ d ∈ digits l, d < 64 := by
  induction l using digits.induct with
  | case1 => simp [digits]
  | case2 x =>
    have hx := h x (by simp)
    simp only [digits, List.forall_mem_cons]
    exact ⟨by omega, by omega, by simp⟩
  | case3 x y =>
    have hx := h x (by simp)
    have hy := h y (by simp)
    simp only [digits, List.forall_mem_cons]
    exact ⟨by omega, by omega, by omega, by simp⟩
  | case4 x y z l ih =>
    have hx := h x (by simp)
    have hy := h y (by simp)
    have hz := h z (by simp)
    simp only [digits, List.forall_mem_cons]
    exact ⟨by omega, by omega, by omega, by omega, ih fun w hw => h w (by simp [hw])⟩

/-- The alphabet, for URLs or not. -/
def alphabet (url : Bool) : List Char :=
  "ABCDEFGHIJKLMNOPQRSTUVWXYZabcdefghijklmnopqrstuvwxyz0123456789".toList ++ if url then ['-', '_'] else ['+', '/']

def digitChar (url : Bool) (d : ℕ) : Char := (alphabet url).getD d 'A'

/-- The digit that a character of one of the alphabets is. -/
def digitOf (c : Char) : ℕ :=
  if c = '-' then 62 else if c = '_' then 63 else (alphabet false).idxOf c

lemma digitOf_digitChar (url : Bool) {d : ℕ} (h : d < 64) : digitOf (digitChar url d) = d := by
  have hall : ∀ url, ∀ d < 64, digitOf (digitChar url d) = d := by decide +kernel
  exact hall url d h

lemma digitChar_mem (url : Bool) {d : ℕ} (h : d < 64) : digitChar url d ∈ alphabet url := by
  have hall : ∀ url, ∀ d < 64, digitChar url d ∈ alphabet url := by decide +kernel
  exact hall url d h

/-- The text of bytes; padding fills the standard alphabet's last four digits. -/
def encode (url : Bool) (l : List UInt8) : List Char :=
  (digits (l.map UInt8.toNat)).map (digitChar url) ++ if url then [] else List.replicate ((3 - l.length % 3) % 3) '='

/-- The bytes of a text, up to its padding. -/
def decode (s : List Char) : List UInt8 :=
  (bytes ((s.takeWhile (· ≠ '=')).map digitOf)).map UInt8.ofNat

lemma toNat_lt (l : List UInt8) : ∀ x ∈ l.map UInt8.toNat, x < 256 := by
  intro x hx
  obtain ⟨b, -, rfl⟩ := List.mem_map.mp hx
  exact b.toNat_lt

lemma mem_body {url : Bool} {l : List UInt8} {c : Char} (h : c ∈ (digits (l.map UInt8.toNat)).map (digitChar url)) :
    c ∈ alphabet url := by
  obtain ⟨d, hd, rfl⟩ := List.mem_map.mp h
  exact digitChar_mem url (digits_lt (toNat_lt l) d hd)

lemma ne_pad {url : Bool} {c : Char} (h : c ∈ alphabet url) : c ≠ '=' := by
  have hall : ∀ url, ((alphabet url).all fun c => decide (c ≠ '=')) = true := by decide
  exact Text.forall_of_all (hall url) c h

theorem decode_encode (url : Bool) (l : List UInt8) : decode (encode url l) = l := by
  have htake : (encode url l).takeWhile (· ≠ '=') = (digits (l.map UInt8.toNat)).map (digitChar url) := by
    rw [encode, List.takeWhile_append_of_pos fun c hc => decide_eq_true (ne_pad (mem_body hc))]
    cases url with
    | true => simp
    | false => cases (3 - l.length % 3) % 3 <;> simp [List.replicate_succ]
  have hdigits : ((digits (l.map UInt8.toNat)).map (digitChar url)).map digitOf = digits (l.map UInt8.toNat) := by
    rw [List.map_map]
    exact (List.map_congr_left fun d hd => digitOf_digitChar url (digits_lt (toNat_lt l) d hd)).trans (List.map_id _)
  rw [decode, htake, hdigits, bytes_digits (toNat_lt l), List.map_map]
  exact (List.map_congr_left fun b _ => UInt8.ofNat_toNat).trans (List.map_id _)

lemma mem_encode_url {l : List UInt8} {c : Char} (h : c ∈ encode true l) : c ∈ alphabet true := by
  rw [encode, if_pos rfl, List.append_nil] at h
  exact mem_body h

/-- The standard text is digits and at most two signs of padding. -/
lemma encode_standard (l : List UInt8) :
    ∃ body n, encode false l = body ++ List.replicate n '=' ∧ (∀ c ∈ body, c ∈ alphabet false) ∧ n ≤ 2 ∧
      (l ≠ [] → body ≠ []) := by
  refine ⟨_, (3 - l.length % 3) % 3, rfl, fun c hc => mem_body hc, by omega, fun hne hnil => hne ?_⟩
  rcases l with _ | ⟨x, _ | ⟨y, _ | ⟨z, l⟩⟩⟩
  · rfl
  all_goals simp [digits] at hnil

lemma encode_url_ne_nil {l : List UInt8} (h : l ≠ []) : encode true l ≠ [] := by
  intro hnil
  have hdec := decode_encode true l
  rw [hnil] at hdec
  exact h (hdec.symm.trans rfl)

lemma length_encode_le (url : Bool) (l : List UInt8) : (encode url l).length ≤ 4 * ((l.length + 2) / 3) := by
  have key : ∀ l : List ℕ,
      (digits l).length + (if url then 0 else (3 - l.length % 3) % 3) ≤ 4 * ((l.length + 2) / 3) := by
    intro l
    induction l using digits.induct with
    | case1 => cases url <;> simp [digits]
    | case2 x => cases url <;> simp [digits]
    | case3 x y => cases url <;> simp [digits]
    | case4 x y z l ih => cases url <;> simp [digits] at ih ⊢ <;> omega
  have hlen := key (l.map UInt8.toNat)
  unfold encode
  cases url <;> simpa using hlen

example : encode false [104, 105] = "aGk=".toList ∧ encode true [251, 239, 255, 1] = "--__AQ".toList ∧
    decode "aGk".toList = [104, 105] := by decide

end ShadeTree.Lib.Base64
