import Mathlib.Data.Nat.Digits.Defs
import Mathlib.Tactic.Common

/-!
# Dates as text

`Date.prototype.toISOString`: a time in milliseconds since 1970 as a date and a time of day in UTC, with years of four
digits, or of six and a sign outside 0 to 9999.
-/

namespace ShadeTree.Lib.IsoDate

/-- A year, a month and a day. -/
structure Civil where
  year : ℤ
  month : ℕ
  day : ℕ
  deriving DecidableEq

/-- The date so many days after 1970-01-01, in eras of 400 years that begin with March. -/
def civil (days : ℤ) : Civil :=
  let z := days + 719468
  let era := z / 146097
  let doe := (z % 146097).toNat
  let yoe := (doe - doe / 1460 + doe / 36524 - doe / 146096) / 365
  let doy := doe - (365 * yoe + yoe / 4 - yoe / 100)
  let mp := (5 * doy + 2) / 153
  let month := if mp < 10 then mp + 3 else mp - 9
  ⟨yoe + era * 400 + (if month ≤ 2 then 1 else 0), month, doy - (153 * mp + 2) / 5 + 1⟩

/-- A number in decimal with at least so many digits. -/
def padded (width n : ℕ) : List Char :=
  List.replicate (width - (Nat.toDigits 10 n).length) '0' ++ Nat.toDigits 10 n

def yearText (year : ℤ) : List Char :=
  if 0 ≤ year ∧ year ≤ 9999 then padded 4 year.toNat
  else (if year < 0 then '-' else '+') :: padded 6 year.natAbs

/-- `new Date(ms).toISOString()` up to the fraction of a second; `none` if it throws. -/
def dateTime (ms : ℤ) : Option (List Char) :=
  if ms.natAbs ≤ 8640000000000000 then
    let date := civil (ms / 86400000)
    let time := (ms % 86400000).toNat
    some (yearText date.year ++ '-' :: padded 2 date.month ++ '-' :: padded 2 date.day ++ 'T' ::
      padded 2 (time / 3600000) ++ ':' :: padded 2 (time / 60000 % 60) ++ ':' :: padded 2 (time / 1000 % 60))
  else none

/-- `new Date(ms).toISOString()`. -/
def toISOString (ms : ℤ) : Option (List Char) :=
  (dateTime ms).map fun text => text ++ '.' :: padded 3 (ms % 1000).toNat ++ ['Z']

lemma length_padded {width n : ℕ} (hwidth : 0 < width) (h : n < 10 ^ width) : (padded width n).length = width := by
  have hlen : (Nat.toDigits 10 n).length ≤ width := (Nat.length_toDigits_le_iff (by decide) hwidth).mpr h
  rw [padded, List.length_append, List.length_replicate]
  omega

/-- The fraction of a second takes the last five characters. -/
lemma take_toISOString (ms : ℤ) :
    ((toISOString ms).map fun text => text.take (text.length - 5)) = dateTime ms := by
  have hlen : (padded 3 (ms % 1000).toNat).length = 3 := length_padded (by decide) (by omega)
  unfold toISOString
  rw [Option.map_map]
  cases dateTime ms with
  | none => rfl
  | some text =>
    refine congrArg some ?_
    have htail : (text ++ '.' :: padded 3 (ms % 1000).toNat ++ ['Z']).length - 5 = text.length := by
      simp [hlen]
    rw [Function.comp_apply, htail, List.append_assoc, List.take_left]

/-- A character of the text of a date. -/
def isDateChar (c : Char) : Bool := c.isDigit || decide (c ∈ ['-', '+', ':', 'T'])

lemma isDateChar_padded {width n : ℕ} {c : Char} (h : c ∈ padded width n) : isDateChar c = true := by
  rcases List.mem_append.mp h with h | h
  · rw [List.eq_of_mem_replicate h]
    decide
  · rw [isDateChar, Nat.isDigit_of_mem_toDigits (by decide) (by decide) h, Bool.true_or]

lemma isDateChar_yearText {year : ℤ} {c : Char} (h : c ∈ yearText year) : isDateChar c = true := by
  unfold yearText at h
  split at h
  · exact isDateChar_padded h
  · rcases List.mem_cons.mp h with rfl | h
    · split <;> decide
    · exact isDateChar_padded h

lemma isDateChar_dateTime {ms : ℤ} {text : List Char} (h : dateTime ms = some text) :
    ∀ c ∈ text, isDateChar c = true := by
  unfold dateTime at h
  split at h
  · intro c hc
    rw [← Option.some.inj h] at hc
    simp only [List.mem_append, List.mem_cons] at hc
    rcases hc with ((((h | rfl | h) | rfl | h) | rfl | h) | rfl | h) | rfl | h
    · exact isDateChar_yearText h
    all_goals first | decide | exact isDateChar_padded h
  · cases h

example : toISOString 1786925400000 = some "2026-08-17T00:10:00.000Z".toList ∧
    toISOString (-1) = some "1969-12-31T23:59:59.999Z".toList ∧
    toISOString 951782400000 = some "2000-02-29T00:00:00.000Z".toList := by decide +kernel

end ShadeTree.Lib.IsoDate
