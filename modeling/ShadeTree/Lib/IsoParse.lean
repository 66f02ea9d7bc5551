import Mathlib.Data.List.Basic
import Mathlib.Tactic.IntervalCases
import ShadeTree.Lib.IsoDate

/-!
# Dates read from their text

The text that `toISOString` writes gives its time back.  The calendar is inverted era by era.
-/

namespace ShadeTree.Lib.IsoDate

/-! ### The calendar -/

/-- The days since 1970-01-01. -/
def daysOf (c : Civil) : ℤ :=
  let y := c.year - (if c.month ≤ 2 then 1 else 0)
  let mp := if c.month ≤ 2 then c.month + 9 else c.month - 3
  y / 400 * 146097 + (y % 400 * 365 + y % 400 / 4 - y % 400 / 100) + ((153 * mp + 2) / 5 + c.day - 1 : ℕ) - 719468

/-- The year of an era that a day falls in. -/
lemma year_of_era {doe yoe : ℕ} (h : doe < 146097)
    (hyoe : yoe = (doe - doe / 1460 + doe / 36524 - doe / 146096) / 365) :
    yoe < 400 ∧ 365 * yoe + yoe / 4 - yoe / 100 ≤ doe ∧ doe < 365 * yoe + yoe / 4 - yoe / 100 + 367 := by
  have hcentury : doe / 36524 ≤ 4 := by omega
  have hlast : doe / 146096 = if doe / 36524 = 4 then 1 else 0 := by
    split <;> omega
  have hyear : yoe / 100 = if doe / 36524 = 4 then 3 else doe / 36524 := by
    split <;> omega
  rw [hlast] at hyoe
  rw [hyear]
  clear hlast hyear
  generalize hq : doe / 36524 = q at *
  interval_cases q
  all_goals simp only [Nat.reduceEqDiff, if_false, if_true] at *
  · refine ⟨by omega, by omega, by omega⟩
  · refine ⟨by omega, by omega, by omega⟩
  · refine ⟨by omega, by omega, by omega⟩
  · refine ⟨by omega, by omega, by omega⟩
  · refine ⟨by omega, by omega, by omega⟩

/-- What `civil` computes on its way. -/
lemma civil_eq (days : ℤ) : ∃ (era : ℤ) (yoe doy mp : ℕ),
    days = era * 146097 + (365 * yoe + yoe / 4 - yoe / 100 : ℕ) + doy - 719468 ∧ yoe < 400 ∧ doy < 367 ∧ mp ≤ 11 ∧
    (153 * mp + 2) / 5 ≤ doy ∧ doy < (153 * mp + 2) / 5 + 31 ∧
    civil days = ⟨yoe + era * 400 + (if (if mp < 10 then mp + 3 else mp - 9) ≤ 2 then 1 else 0),
      if mp < 10 then mp + 3 else mp - 9, doy - (153 * mp + 2) / 5 + 1⟩ := by
  have hdoe : ((days + 719468) % 146097).toNat < 146097 := by omega
  obtain ⟨hyoe, hle, hlt⟩ := year_of_era hdoe rfl
  refine ⟨(days + 719468) / 146097, _, _, _, ?_, hyoe, ?_, ?_, ?_, ?_, rfl⟩
  all_goals
    generalize hd : ((days + 719468) % 146097).toNat = doe at *
    generalize (doe - doe / 1460 + doe / 36524 - doe / 146096) / 365 = yoe at *
    generalize hs : 365 * yoe + yoe / 4 - yoe / 100 = start at *
    omega

theorem daysOf_civil (days : ℤ) : daysOf (civil days) = days := by
  obtain ⟨era, yoe, doy, mp, hdays, hyoe, hdoy, hmp, hle, hlt, hcivil⟩ := civil_eq days
  rw [hcivil]
  unfold daysOf
  dsimp only
  have hyear : ((yoe : ℤ) + era * 400 + (if (if mp < 10 then mp + 3 else mp - 9) ≤ 2 then 1 else 0)) -
      (if (if mp < 10 then mp + 3 else mp - 9) ≤ 2 then 1 else 0) = yoe + era * 400 := by ring
  have hmonth : (if (if mp < 10 then mp + 3 else mp - 9) ≤ 2 then (if mp < 10 then mp + 3 else mp - 9) + 9
      else (if mp < 10 then mp + 3 else mp - 9) - 3) = mp := by
    split_ifs <;> omega
  have hera : ((yoe : ℤ) + era * 400) / 400 = era := by omega
  have hyoe' : ((yoe : ℤ) + era * 400) % 400 = yoe := by omega
  rw [hyear, hmonth, hera, hyoe']
  omega

/-! ### The text -/

/-- The number that some digits write. -/
def number (text : List Char) : ℕ := Nat.ofDigitChars 10 text 0

lemma number_padded (width n : ℕ) : number (padded width n) = n := by
  have hzeros : ∀ (k : ℕ) (text : List Char), number (List.replicate k '0' ++ text) = number text := by
    intro k text
    induction k with
    | zero => rfl
    | succ k ih => exact ih
  unfold padded
  rw [hzeros]
  exact Nat.ofDigitChars_ten_toDigits

/-- The year that is written. -/
def yearOf : List Char → ℤ
  | '-' :: digits => -(number digits : ℤ)
  | '+' :: digits => number digits
  | digits => number digits

lemma yearOf_yearText (year : ℤ) : yearOf (yearText year) = year := by
  unfold yearText
  split
  · next hfour =>
    have hplain : ∀ digits : List Char, (∀ c ∈ digits, c.isDigit = true) → yearOf digits = number digits := by
      intro digits hdigits
      unfold yearOf
      split
      · exact absurd (hdigits '-' List.mem_cons_self) (by decide)
      · exact absurd (hdigits '+' List.mem_cons_self) (by decide)
      · rfl
    have hdigits : ∀ c ∈ padded 4 year.toNat, c.isDigit = true := by
      intro c hc
      rcases List.mem_append.mp hc with hc | hc
      · rw [List.eq_of_mem_replicate hc]
        rfl
      · exact Nat.isDigit_of_mem_toDigits (by decide) (by decide) hc
    rw [hplain _ hdigits, number_padded]
    omega
  · split
    · next hneg =>
      show -(number (padded 6 year.natAbs) : ℤ) = year
      rw [number_padded]
      omega
    · next hpos =>
      show (number (padded 6 year.natAbs) : ℤ) = year
      rw [number_padded]
      omega

/-- The time of a text of `toISOString`; any other text is no time. -/
def parseIso (text : List Char) : Option ℤ :=
  let rest := text.drop (text.length - 20)
  let date := daysOf ⟨yearOf (text.take (text.length - 20)), number ((rest.drop 1).take 2),
    number ((rest.drop 4).take 2)⟩
  let time := number ((rest.drop 7).take 2) * 3600000 + number ((rest.drop 10).take 2) * 60000 +
    number ((rest.drop 13).take 2) * 1000 + number ((rest.drop 16).take 3)
  let ms := date * 86400000 + time
  if toISOString ms = some text then some ms else none

/-- A month and a day take two digits. -/
lemma civil_lt (days : ℤ) : (civil days).month < 100 ∧ (civil days).day < 100 := by
  obtain ⟨era, yoe, doy, mp, -, -, -, hmp, hle, hlt, hcivil⟩ := civil_eq days
  rw [hcivil]
  refine ⟨?_, ?_⟩
  · show (if mp < 10 then mp + 3 else mp - 9) < 100
    split <;> omega
  · show doy - (153 * mp + 2) / 5 + 1 < 100
    omega

/-- Fields of two, two, two, two, two, two and three digits behind the year. -/
lemma fields_of_length {a b c d e f : List Char} (ha : a.length = 2) (hb : b.length = 2) (hc : c.length = 2)
    (hd : d.length = 2) (he : e.length = 2) (hf : f.length = 3) (p q r s t u v : Char) :
    let rest := p :: a ++ q :: b ++ r :: c ++ s :: d ++ t :: e ++ u :: f ++ [v]
    rest.length = 20 ∧ (rest.drop 1).take 2 = a ∧ (rest.drop 4).take 2 = b ∧ (rest.drop 7).take 2 = c ∧
      (rest.drop 10).take 2 = d ∧ (rest.drop 13).take 2 = e ∧ (rest.drop 16).take 3 = f := by
  obtain ⟨a₁, a₂, rfl⟩ := List.length_eq_two.mp ha
  obtain ⟨b₁, b₂, rfl⟩ := List.length_eq_two.mp hb
  obtain ⟨c₁, c₂, rfl⟩ := List.length_eq_two.mp hc
  obtain ⟨d₁, d₂, rfl⟩ := List.length_eq_two.mp hd
  obtain ⟨e₁, e₂, rfl⟩ := List.length_eq_two.mp he
  obtain ⟨f₁, f₂, f₃, rfl⟩ := List.length_eq_three.mp hf
  exact ⟨rfl, rfl, rfl, rfl, rfl, rfl, rfl⟩

/-- What is written is read. -/
theorem parseIso_toISOString {ms : ℤ} {text : List Char} (h : toISOString ms = some text) :
    parseIso text = some ms := by
  have hwrite := h
  unfold toISOString dateTime at h
  split at h
  swap
  · cases h
  have htext := Option.some.inj h
  clear h
  generalize hdate : civil (ms / 86400000) = date at htext
  generalize htime : (ms % 86400000).toNat = time at htext
  have hmonth : date.month < 100 ∧ date.day < 100 := hdate ▸ civil_lt _
  have htwo : ∀ n, n < 100 → (padded 2 n).length = 2 := fun n hn => length_padded (by decide) hn
  have hthree : (padded 3 (ms % 1000).toNat).length = 3 := length_padded (by decide) (by omega)
  obtain ⟨hlen, h₁, h₂, h₃, h₄, h₅, h₆⟩ := fields_of_length (htwo _ hmonth.1) (htwo _ hmonth.2)
    (htwo (time / 3600000) (by omega)) (htwo (time / 60000 % 60) (by omega)) (htwo (time / 1000 % 60) (by omega))
    hthree '-' '-' 'T' ':' ':' '.' 'Z'
  have hsplit : text = yearText date.year ++ ('-' :: padded 2 date.month ++ '-' :: padded 2 date.day ++ 'T' ::
      padded 2 (time / 3600000) ++ ':' :: padded 2 (time / 60000 % 60) ++ ':' :: padded 2 (time / 1000 % 60) ++
      '.' :: padded 3 (ms % 1000).toNat ++ ['Z']) := by
    rw [← htext]
    simp only [List.append_assoc, List.cons_append]
  have hyear : text.length - 20 = (yearText date.year).length := by
    rw [hsplit, List.length_append, hlen]
    omega
  unfold parseIso
  rw [hyear]
  simp only [hsplit, List.take_left, List.drop_left, h₁, h₂, h₃, h₄, h₅, h₆, number_padded, yearOf_yearText]
  rw [← hsplit, ← hdate, show (⟨(civil (ms / 86400000)).year, (civil (ms / 86400000)).month,
    (civil (ms / 86400000)).day⟩ : Civil) = civil (ms / 86400000) from rfl, daysOf_civil]
  have hms : ms / 86400000 * 86400000 +
      ((time / 3600000 * 3600000 + time / 60000 % 60 * 60000 + time / 1000 % 60 * 1000 + (ms % 1000).toNat : ℕ) : ℤ) =
        ms := by
    omega
  rw [hms, if_pos hwrite]

end ShadeTree.Lib.IsoDate
