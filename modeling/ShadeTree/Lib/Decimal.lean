import Mathlib.Algebra.Order.Ring.Rat
import Mathlib.Tactic.Positivity
import Mathlib.Tactic.Ring
import ShadeTree.Lib.Json

/-!
# Decimals and their text

A decimal in lowest terms, `± digits * 10 ^ exp` with digits that do not end in 0, and the text that JavaScript
prints for the number whose shortest decimal it is: plain, with a point, or with an exponent, after its size.
Decimals with one text are equal.
-/

namespace ShadeTree.Lib

structure Decimal where
  neg : Bool
  digits : ℕ
  exp : ℤ
  lowest : digits % 10 ≠ 0 ∨ (digits = 0 ∧ exp = 0 ∧ neg = false)
  deriving DecidableEq

namespace Decimal

def value (d : Decimal) : ℚ := (if d.neg then -1 else 1) * d.digits * 10 ^ d.exp

/-- The integer a decimal is. -/
def toInt? (d : Decimal) : Option ℤ :=
  if 0 ≤ d.exp then some ((if d.neg then -1 else 1) * (d.digits * 10 ^ d.exp.toNat)) else none

/-! ### Integers -/

/-- The zeros at the end of a number, at most `fuel` of them, counted off. -/
def strip : ℕ → ℕ → ℕ × ℕ
  | 0, n => (n, 0)
  | fuel + 1, n => if n ≠ 0 ∧ n % 10 = 0 then ((strip fuel (n / 10)).1, (strip fuel (n / 10)).2 + 1) else (n, 0)

lemma strip_spec {fuel n : ℕ} (hn : n ≤ fuel) : n = (strip fuel n).1 * 10 ^ (strip fuel n).2 ∧
    ((strip fuel n).1 % 10 ≠ 0 ∨ n = 0 ∧ strip fuel n = (0, 0)) := by
  induction fuel generalizing n with
  | zero =>
    obtain rfl : n = 0 := by omega
    exact ⟨rfl, .inr ⟨rfl, rfl⟩⟩
  | succ fuel ih =>
    unfold strip
    split
    · next h =>
      obtain ⟨hval, hlow⟩ := ih (n := n / 10) (by omega)
      have hten : n = n / 10 * 10 := by omega
      refine ⟨?_, .inl (hlow.resolve_right fun hz => by omega)⟩
      calc n = n / 10 * 10 := hten
        _ = (strip fuel (n / 10)).1 * 10 ^ (strip fuel (n / 10)).2 * 10 := by rw [← hval]
        _ = (strip fuel (n / 10)).1 * 10 ^ ((strip fuel (n / 10)).2 + 1) := by rw [pow_succ, mul_assoc]
    · next h =>
      refine ⟨by simp, ?_⟩
      by_cases hz : n = 0
      · exact .inr ⟨hz, by rw [hz]⟩
      · exact .inl fun hmod => h ⟨hz, hmod⟩

def ofInt (n : ℤ) : Decimal where
  neg := n < 0
  digits := (strip n.natAbs n.natAbs).1
  exp := (strip n.natAbs n.natAbs).2
  lowest := by
    rcases (strip_spec (le_refl n.natAbs)).2 with h | ⟨hz, hs⟩
    · exact .inl h
    · refine .inr ⟨by rw [hs], by rw [hs]; rfl, ?_⟩
      have : n = 0 := Int.natAbs_eq_zero.mp hz
      simp [this]

lemma toInt?_ofInt (n : ℤ) : (ofInt n).toInt? = some n := by
  have hspec := (strip_spec (le_refl n.natAbs)).1
  unfold toInt? ofInt
  simp only [Int.natCast_nonneg, if_true, Int.toNat_natCast]
  have habs : ((strip n.natAbs n.natAbs).1 : ℤ) * 10 ^ (strip n.natAbs n.natAbs).2 = n.natAbs := by
    exact_mod_cast hspec.symm
  rw [habs]
  refine congrArg some ?_
  by_cases hn : n < 0
  · rw [if_pos (decide_eq_true hn)]
    omega
  · rw [if_neg (by simpa using hn)]
    omega

lemma value_of_toInt? {d : Decimal} {n : ℤ} (h : d.toInt? = some n) : d.value = n := by
  unfold toInt? at h
  split at h
  · next hexp =>
    obtain ⟨k, hk⟩ := Int.eq_ofNat_of_zero_le hexp
    rw [← Option.some.inj h, value, hk, Int.toNat_natCast, zpow_natCast]
    split <;> push_cast <;> ring
  · cases h

lemma value_ofInt (n : ℤ) : (ofInt n).value = n := value_of_toInt? (toInt?_ofInt n)

/-! ### Text -/

/-- The text of a natural number. -/
def digitsText (n : ℕ) : List Char := Nat.toDigits 10 n

/-- `Number::toString`, without the sign; the number is 0 point `digits` times `10 ^ point`. -/
def body (d : Decimal) : List Char :=
  let text := digitsText d.digits
  let point := text.length + d.exp
  if (text.length : ℤ) ≤ point ∧ point ≤ 21 then text ++ List.replicate d.exp.toNat '0'
  else if 0 < point ∧ point ≤ 21 then text.take point.toNat ++ '.' :: text.drop point.toNat
  else if -6 < point ∧ point ≤ 0 then '0' :: '.' :: (List.replicate (-point).toNat '0' ++ text)
  else
    let exponent := 'e' :: (if point - 1 < 0 then '-' else '+') :: digitsText (point - 1).natAbs
    match text with
    | c :: c' :: cs => c :: '.' :: c' :: (cs ++ exponent)
    | text => text ++ exponent

def text (d : Decimal) : List Char := if d.neg then '-' :: d.body else d.body

/-! ### Reading it back -/

/-- The exponent after `e`. -/
def readExponent : List Char → ℤ
  | 'e' :: '-' :: cs => -Nat.ofDigitChars 10 cs 0
  | 'e' :: '+' :: cs => Nat.ofDigitChars 10 cs 0
  | _ => 0

/-- The digits before `e` as a number, and the power of ten it is to be taken times. -/
def readBody (s : List Char) : ℕ × ℤ :=
  let mantissa := s.takeWhile (· ≠ 'e')
  let fraction := (mantissa.dropWhile (· ≠ '.')).drop 1
  (Nat.ofDigitChars 10 (mantissa.takeWhile (· ≠ '.') ++ fraction) 0,
    readExponent (s.dropWhile (· ≠ 'e')) - fraction.length)

lemma isDigit_of_mem {n : ℕ} {c : Char} (hc : c ∈ digitsText n) : c.isDigit = true :=
  Nat.isDigit_of_mem_toDigits (by decide) (by decide) hc

/-- Only `0` begins with `0`. -/
lemma digitsText_head {n : ℕ} (hn : 0 < n) : (digitsText n).head? ≠ some '0' := by
  have hone : ∀ n < 10, 0 < n → [Nat.digitChar n].head? ≠ some '0' := by decide
  unfold digitsText
  induction n using Nat.strong_induction_on with
  | _ n ih =>
    by_cases hlt : n < 10
    · rw [Nat.toDigits_of_lt_base hlt]
      exact hone n hlt hn
    · rw [Nat.toDigits_of_base_le (by decide) (by omega),
        List.head?_append_of_ne_nil _ Nat.toDigits_ne_nil]
      exact ih (n / 10) (by omega) (by omega)

/-- A text of digits. -/
def Digits (s : List Char) : Prop := ∀ c ∈ s, c.isDigit = true

lemma Digits.ne {s : List Char} (h : Digits s) {c d : Char} (hc : c ∈ s) (hd : d.isDigit = false) : c ≠ d := by
  rintro rfl
  rw [h c hc] at hd
  cases hd

lemma Digits.takeWhile {s t : List Char} (h : Digits s) {d : Char} (hd : d.isDigit = false)
    (ht : t.head? = some d ∨ t = []) : (s ++ t).takeWhile (· ≠ d) = s ∧ (s ++ t).dropWhile (· ≠ d) = t := by
  have hall : ∀ c ∈ s, decide (c ≠ d) = true := fun c hc => decide_eq_true (h.ne hc hd)
  rw [List.takeWhile_append_of_pos hall, List.dropWhile_append_of_pos hall]
  rcases ht with ht | rfl
  · cases t with
    | nil => cases ht
    | cons c t =>
      obtain rfl : c = d := Option.some.inj ht
      simp
  · simp

section Read

variable {a b t : List Char}

/-- The tail of a text is empty or an exponent. -/
def Tail (t : List Char) : Prop := t.head? = some 'e' ∨ t = []

lemma readBody_plain (ha : Digits a) (ht : Tail t) : readBody (a ++ t) = (Nat.ofDigitChars 10 a 0, readExponent t) := by
  obtain ⟨htake, hdrop⟩ := ha.takeWhile (by decide) ht
  obtain ⟨htake', hdrop'⟩ := ha.takeWhile (t := []) (d := '.') (by decide) (.inr rfl)
  rw [List.append_nil] at htake' hdrop'
  simp only [readBody]
  rw [htake, hdrop, htake', hdrop']
  simp

lemma readBody_point (ha : Digits a) (hb : Digits b) (ht : Tail t) :
    readBody (a ++ '.' :: (b ++ t)) = (Nat.ofDigitChars 10 (a ++ b) 0, readExponent t - b.length) := by
  have hall : ∀ c ∈ a ++ '.' :: b, decide (c ≠ 'e') = true := by
    intro c hc
    rw [List.mem_append, List.mem_cons] at hc
    rcases hc with hc | rfl | hc
    · exact decide_eq_true (ha.ne hc (by decide))
    · decide
    · exact decide_eq_true (hb.ne hc (by decide))
  have hsplit : a ++ '.' :: (b ++ t) = (a ++ '.' :: b) ++ t := by simp
  have hmantissa : (a ++ '.' :: (b ++ t)).takeWhile (· ≠ 'e') = a ++ '.' :: b ∧
      (a ++ '.' :: (b ++ t)).dropWhile (· ≠ 'e') = t := by
    rw [hsplit, List.takeWhile_append_of_pos hall, List.dropWhile_append_of_pos hall]
    rcases ht with ht | rfl
    · cases t with
      | nil => cases ht
      | cons c t =>
        obtain rfl : c = 'e' := Option.some.inj ht
        simp
    · simp
  obtain ⟨htake, hdrop⟩ := ha.takeWhile (t := '.' :: b) (d := '.') (by decide) (.inl rfl)
  simp only [readBody]
  rw [hmantissa.1, hmantissa.2, htake, hdrop]
  simp

end Read

/-- Of a text the digits and the power of ten are read, up to zeros at the end. -/
lemma readBody_body (d : Decimal) : ∃ z : ℕ, readBody d.body = (d.digits * 10 ^ z, d.exp - z) := by
  have hdigits : Digits (digitsText d.digits) := fun c hc => isDigit_of_mem hc
  have hread : Nat.ofDigitChars 10 (digitsText d.digits) 0 = d.digits := Nat.ofDigitChars_ten_toDigits
  have hexp : ∀ n : ℤ, readExponent ('e' :: (if n < 0 then '-' else '+') :: digitsText n.natAbs) = n := by
    intro n
    split
    · next hn =>
      simp only [readExponent, digitsText, Nat.ofDigitChars_ten_toDigits]
      omega
    · next hn =>
      simp only [readExponent, digitsText, Nat.ofDigitChars_ten_toDigits]
      omega
  simp only [body]
  generalize htext : digitsText d.digits = text at hdigits hread
  split
  · next h =>
    refine ⟨d.exp.toNat, ?_⟩
    have hall : Digits (text ++ List.replicate d.exp.toNat '0') := by
      intro c hc
      rcases List.mem_append.mp hc with hc | hc
      · exact hdigits c hc
      · rw [List.eq_of_mem_replicate hc]
        decide
    have := readBody_plain hall (t := []) (.inr rfl)
    rw [List.append_nil] at this
    rw [this, Nat.ofDigitChars_append, hread, Nat.ofDigitChars_replicate_zero]
    simp only [readExponent, Prod.mk.injEq]
    exact ⟨mul_comm _ _, by omega⟩
  split
  · next h h' =>
    refine ⟨0, ?_⟩
    have htake : Digits (text.take (text.length + d.exp).toNat) := fun c hc => hdigits c (List.mem_of_mem_take hc)
    have hdrop : Digits (text.drop (text.length + d.exp).toNat) := fun c hc => hdigits c (List.mem_of_mem_drop hc)
    have := readBody_point htake hdrop (t := []) (.inr rfl)
    rw [List.append_nil] at this
    rw [this, List.take_append_drop, hread]
    simp only [readExponent, List.length_drop, Prod.mk.injEq]
    exact ⟨by simp, by omega⟩
  split
  · next h h' h'' =>
    refine ⟨0, ?_⟩
    have hzero : Digits ['0'] := by
      intro c hc
      rw [List.mem_singleton.mp hc]
      decide
    have hall : Digits (List.replicate (-(text.length + d.exp)).toNat '0' ++ text) := by
      intro c hc
      rcases List.mem_append.mp hc with hc | hc
      · rw [List.eq_of_mem_replicate hc]
        decide
      · exact hdigits c hc
    have := readBody_point hzero hall (t := []) (.inr rfl)
    rw [List.append_nil, List.singleton_append] at this
    rw [this, List.singleton_append, Nat.ofDigitChars_cons, Nat.ofDigitChars_append, Nat.ofDigitChars_replicate_zero]
    simp only [readExponent, List.length_append, List.length_replicate, Prod.mk.injEq]
    refine ⟨?_, by omega⟩
    simpa using hread
  · next h h' h'' =>
    refine ⟨0, ?_⟩
    have htail : ∀ n : ℤ, Tail ('e' :: (if n < 0 then '-' else '+') :: digitsText n.natAbs) := fun n => .inl rfl
    cases htx : text with
    | nil =>
      have hpos : 0 < (digitsText d.digits).length := Nat.length_toDigits_pos
      rw [htext, htx] at hpos
      exact absurd hpos (lt_irrefl 0)
    | cons c cs =>
      cases cs with
      | nil =>
        simp only
        rw [readBody_plain (htx ▸ hdigits) (htail _), ← htx, hread, hexp, htx]
        simp only [List.length_singleton, Prod.mk.injEq]
        exact ⟨by simp, by omega⟩
      | cons c' cs =>
        simp only
        have hc : Digits [c] := fun x hx => hdigits x (by
          rw [htx, List.mem_singleton.mp hx]
          exact List.mem_cons_self)
        have hcs : Digits (c' :: cs) := fun x hx => hdigits x (by
          rw [htx]
          exact List.mem_cons_of_mem _ hx)
        have := readBody_point hc hcs (htail ((c :: c' :: cs).length + d.exp - 1))
        rw [List.singleton_append, List.cons_append] at this
        rw [this, List.singleton_append, ← htx, hread, hexp, htx]
        simp only [List.length_cons, Prod.mk.injEq]
        exact ⟨by simp, by push_cast; omega⟩

/-- The text of a decimal has the characters of numbers. -/
lemma numeral_text (d : Decimal) : d.text ≠ [] ∧ ∀ c ∈ d.text, Json.isNumeral c = true := by
  have hdigits : ∀ c ∈ digitsText d.digits, Json.isNumeral c = true := fun c hc => by
    simp [Json.isNumeral, isDigit_of_mem hc]
  have hpos : digitsText d.digits ≠ [] := Nat.toDigits_ne_nil
  have hzeros : ∀ n, ∀ c ∈ List.replicate n '0', Json.isNumeral c = true := fun n c hc => by
    rw [List.eq_of_mem_replicate hc]
    decide
  have hexponent : ∀ n : ℤ, ∀ c ∈ 'e' :: (if n < 0 then '-' else '+') :: digitsText n.natAbs,
      Json.isNumeral c = true := by
    intro n c hc
    rcases List.mem_cons.mp hc with rfl | hc
    · decide
    rcases List.mem_cons.mp hc with rfl | hc
    · split <;> decide
    · simp [Json.isNumeral, isDigit_of_mem hc]
  have hbody : d.body ≠ [] ∧ ∀ c ∈ d.body, Json.isNumeral c = true := by
    simp only [body]
    generalize digitsText d.digits = text at hdigits hpos
    split
    · exact ⟨by simp [hpos], fun c hc => (List.mem_append.mp hc).elim (hdigits c) (hzeros _ c)⟩
    split
    · refine ⟨by simp, fun c hc => ?_⟩
      rcases List.mem_append.mp hc with hc | hc
      · exact hdigits c (List.mem_of_mem_take hc)
      · rcases List.mem_cons.mp hc with rfl | hc
        · decide
        · exact hdigits c (List.mem_of_mem_drop hc)
    split
    · refine ⟨by simp, fun c hc => ?_⟩
      rcases List.mem_cons.mp hc with rfl | hc
      · decide
      rcases List.mem_cons.mp hc with rfl | hc
      · decide
      · exact (List.mem_append.mp hc).elim (hzeros _ c) (hdigits c)
    · rcases text with _ | ⟨c, _ | ⟨c', cs⟩⟩
      · exact absurd rfl hpos
      · exact ⟨by simp, fun x hx => (List.mem_append.mp hx).elim (hdigits x) (hexponent _ x)⟩
      · refine ⟨by simp, fun x hx => ?_⟩
        rcases List.mem_cons.mp hx with rfl | hx
        · exact hdigits x (by simp)
        rcases List.mem_cons.mp hx with rfl | hx
        · decide
        rcases List.mem_cons.mp hx with rfl | hx
        · exact hdigits x (by simp)
        · exact (List.mem_append.mp hx).elim (fun hx => hdigits x (by simp [hx])) (hexponent _ x)
  unfold text
  split
  · refine ⟨by simp, fun c hc => ?_⟩
    rcases List.mem_cons.mp hc with rfl | hc
    · decide
    · exact hbody.2 c hc
  · exact hbody

/-- Of a decimal that is not negative the text has no sign in front. -/
lemma body_head (d : Decimal) : d.body.head? ≠ some '-' := by
  have hdigits : ∀ c ∈ digitsText d.digits, c ≠ '-' := fun c hc => by
    rintro rfl
    exact absurd (isDigit_of_mem hc) (by decide)
  have hpos : digitsText d.digits ≠ [] := Nat.toDigits_ne_nil
  simp only [body]
  generalize digitsText d.digits = text at hdigits hpos
  obtain ⟨c, cs, rfl⟩ := List.exists_cons_of_ne_nil hpos
  have hc : c ≠ '-' := hdigits c List.mem_cons_self
  split
  · simpa using hc
  split
  · next h h' =>
    obtain ⟨n, hn⟩ : ∃ n, ((c :: cs).length + d.exp).toNat = n + 1 := ⟨((c :: cs).length + d.exp).toNat - 1, by omega⟩
    rw [hn]
    simpa using hc
  split
  · simp
  · cases cs with
    | nil => simpa using hc
    | cons c' cs => simpa using hc

/-- **One decimal for each text.** -/
theorem text_inj {d d' : Decimal} (h : d.text = d'.text) : d = d' := by
  have hneg : d.neg = d'.neg ∧ d.body = d'.body := by
    unfold text at h
    split at h <;> split at h
    · next hd hd' => exact ⟨hd.trans hd'.symm, (List.cons.inj h).2⟩
    · exact absurd (by rw [← h]; rfl) d'.body_head
    · exact absurd (by rw [h]; rfl) d.body_head
    · next hd hd' => exact ⟨by simp [hd, hd'], h⟩
  obtain ⟨hneg, hbody⟩ := hneg
  obtain ⟨z, hz⟩ := d.readBody_body
  obtain ⟨z', hz'⟩ := d'.readBody_body
  rw [hbody, hz', Prod.mk.injEq] at hz
  obtain ⟨hnum, hpow⟩ := hz
  have hlow := d.lowest
  have hlow' := d'.lowest
  have hsame : d.digits = d'.digits ∧ d.exp = d'.exp := by
    rcases Nat.eq_zero_or_pos d.digits with h0 | hpos
    · have h0' : d'.digits = 0 := by
        rw [h0, zero_mul] at hnum
        exact (mul_eq_zero.mp hnum).resolve_right (by positivity)
      exact ⟨h0.trans h0'.symm, by omega⟩
    · have hpos' : 0 < d'.digits := by
        refine Nat.pos_of_ne_zero fun h0' => ?_
        rw [h0', zero_mul] at hnum
        have := Nat.mul_pos hpos (by positivity : 0 < 10 ^ z)
        omega
      have hzz : z = z' := by
        -- the power with more zeros would make the other number end in 0
        rcases Nat.lt_trichotomy z z' with hlt | heq | hlt
        · obtain ⟨k, rfl⟩ := Nat.exists_eq_add_of_lt hlt
          rw [pow_succ, pow_add] at hnum
          have hten : d'.digits * (10 ^ k * 10) = d.digits := by
            refine Nat.eq_of_mul_eq_mul_right (by positivity : 0 < 10 ^ z) ?_
            rw [← hnum]
            ring
          have hmod : d.digits % 10 = 0 := by
            rw [← hten, ← mul_assoc]
            exact Nat.mul_mod_left _ _
          omega
        · exact heq
        · obtain ⟨k, rfl⟩ := Nat.exists_eq_add_of_lt hlt
          rw [pow_succ, pow_add] at hnum
          have hten : d.digits * (10 ^ k * 10) = d'.digits := by
            refine Nat.eq_of_mul_eq_mul_right (by positivity : 0 < 10 ^ z') ?_
            rw [hnum]
            ring
          have hmod : d'.digits % 10 = 0 := by
            rw [← hten, ← mul_assoc]
            exact Nat.mul_mod_left _ _
          omega
      subst hzz
      exact ⟨(Nat.eq_of_mul_eq_mul_right (by positivity : 0 < 10 ^ z) hnum).symm, by omega⟩
  cases d
  cases d'
  simp_all

lemma numberText : Json.NumberText text where
  ne_nil d := d.numeral_text.1
  numeral d := d.numeral_text.2
  inj _ _ := text_inj

lemma digitsText_mul_pow {n : ℕ} (hn : 0 < n) (z : ℕ) :
    digitsText (n * 10 ^ z) = digitsText n ++ List.replicate z '0' := by
  induction z with
  | zero => simp
  | succ z ih =>
    have happ := Nat.toDigits_append_toDigits (b := 10) (n := n * 10 ^ z) (d := 0) (by decide) (by positivity) (by decide)
    have hval : 10 * (n * 10 ^ z) + 0 = n * 10 ^ (z + 1) := by ring
    rw [hval] at happ
    unfold digitsText at ih ⊢
    rw [← happ, ih, List.replicate_succ', List.append_assoc]
    rfl

/-- An integer of up to 21 digits is printed digit by digit. -/
lemma text_ofInt {n : ℤ} (hn : n.natAbs < 10 ^ 21) :
    (ofInt n).text = if n < 0 then '-' :: digitsText n.natAbs else digitsText n.natAbs := by
  obtain ⟨hval, hlow⟩ := strip_spec (le_refl n.natAbs)
  have hbody : (ofInt n).body = digitsText n.natAbs := by
    rcases Nat.eq_zero_or_pos n.natAbs with hz | hpos
    · obtain rfl := Int.natAbs_eq_zero.mp hz
      rfl
    have hs : 0 < (strip n.natAbs n.natAbs).1 := by
      refine Nat.pos_of_ne_zero fun h0 => ?_
      rw [h0, zero_mul] at hval
      omega
    have htext := digitsText_mul_pow hs (strip n.natAbs n.natAbs).2
    rw [← hval] at htext
    have hlen : (digitsText n.natAbs).length ≤ 21 := (Nat.length_toDigits_le_iff (by decide) (by decide)).mpr hn
    rw [htext, List.length_append, List.length_replicate] at hlen
    unfold body ofInt
    simp only [Int.toNat_natCast]
    rw [if_pos ⟨by omega, by omega⟩, htext]
  unfold text
  rw [hbody]
  simp only [ofInt, decide_eq_true_eq]

end Decimal

end ShadeTree.Lib
