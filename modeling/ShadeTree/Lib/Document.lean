import Mathlib.Data.List.Dedup
import Mathlib.Data.List.Sort
import ShadeTree.Lib.Script

/-!
# JSON documents and typed readers

A document keeps of every number how it is written: a whole number without fraction and exponent, or any other
literal, which is kept as its double.  JavaScript reads every number as the nearest double.  A typed reader, as the
derived ones of `serde_json` are, takes whole numbers in a range, and the fields of a record from an object, where
each of them stands once at most, or from a list, where they stand in their order.
-/

namespace ShadeTree.Lib

/-! ### Numbers as they are written -/

/-- The double nearest to a whole number, of two the even one; no bound on its size. -/
def toDouble (n : ℕ) : ℕ :=
  if n < 2 ^ 53 then n
  else
    let unit := 2 ^ (n.log2 - 52)
    let q := n / unit
    let r := n % unit
    (if unit < 2 * r ∨ (2 * r = unit ∧ q % 2 = 1) then q + 1 else q) * unit

/-- A multiple of a power of ten that is read as a double, of those next to it. -/
def multipleFor (x j : ℕ) : Option ℕ :=
  let low := x / 10 ^ j * 10 ^ j
  let high := low + 10 ^ j
  let isLow := 2 * (x - low) < 10 ^ j ∨ (2 * (x - low) = 10 ^ j ∧ low / 10 ^ j % 2 = 0)
  (if isLow then [low, high] else [high, low]).find? fun n => toDouble n = x

/-- The whole number with the fewest digits that is read as a double. -/
def shortest (x : ℕ) : ℕ := ((List.range 310).reverse.findSome? (multipleFor x)).getD x

/-- The number that is printed for the double nearest to a whole number. -/
def nearest (n : ℤ) : ℤ := if n.natAbs ≤ 2 ^ 53 then n else n.sign * shortest (toDouble n.natAbs)

def maxExponent : ℕ := 1024

/-- From here on a whole number overflows. -/
def overflow : ℕ := 2 ^ maxExponent

/-- A number as it is written; `-0` is no whole number. -/
inductive Literal where
  | whole (n : ℤ)
  | other (x : Number)
  deriving DecidableEq

/-- What `JSON.parse` reads. -/
def Literal.number : Literal → Number
  | .whole n => if overflow ≤ toDouble n.natAbs then .inf (n < 0) else .fin (.ofInt (nearest n))
  | .other x => x

abbrev Document := Json Literal

/-- What `JSON.parse` makes of a document. -/
def Document.value (d : Document) : Value := d.bind fun l => .num l.number

lemma le_toDouble {n : ℕ} (h : 2 ^ 53 ≤ n) : 2 ^ 53 ≤ toDouble n := by
  have hn : n ≠ 0 := by omega
  have hlog : 53 ≤ n.log2 := (Nat.le_log2 hn).mpr h
  have hpow : 2 ^ n.log2 ≤ n := Nat.log2_self_le hn
  have hsplit : 2 ^ n.log2 = 2 ^ 52 * 2 ^ (n.log2 - 52) := by rw [← pow_add, Nat.add_sub_cancel' (by omega)]
  have hq : 2 ^ 52 ≤ n / 2 ^ (n.log2 - 52) := (Nat.le_div_iff_mul_le (by positivity)).mpr (hsplit ▸ hpow)
  have hunit : 2 ≤ 2 ^ (n.log2 - 52) := le_self_pow₀ (by norm_num) (by omega)
  unfold toDouble
  rw [if_neg (by omega)]
  calc 2 ^ 53 = 2 ^ 52 * 2 := by norm_num
    _ ≤ n / 2 ^ (n.log2 - 52) * 2 ^ (n.log2 - 52) := Nat.mul_le_mul hq hunit
    _ ≤ _ := Nat.mul_le_mul_right _ (by split <;> omega)

lemma le_shortest {x : ℕ} (h : 2 ^ 53 ≤ x) : 2 ^ 53 ≤ shortest x := by
  unfold shortest
  cases hfind : (List.range 310).reverse.findSome? (multipleFor x) with
  | none => exact h
  | some c =>
    obtain ⟨j, -, hj⟩ := List.exists_of_findSome?_eq_some hfind
    have hc : toDouble c = x := by simpa using List.find?_some (p := fun n => decide (toDouble n = x)) hj
    -- below `2 ^ 53` every whole number is its own double
    by_contra hlt
    rw [Option.getD_some] at hlt
    rw [toDouble, if_pos (by omega)] at hc
    omega

lemma toDouble_le (n : ℕ) : toDouble n ≤ 2 * n := by
  unfold toDouble
  split
  · omega
  · next hn =>
    have hn0 : n ≠ 0 := by omega
    have hle : n / 2 ^ (n.log2 - 52) * 2 ^ (n.log2 - 52) ≤ n := Nat.div_mul_le_self _ _
    have hq : 1 ≤ n / 2 ^ (n.log2 - 52) := by
      refine (Nat.one_le_div_iff (by positivity)).mpr ?_
      exact le_trans (Nat.pow_le_pow_right (by norm_num) (Nat.sub_le _ _)) (Nat.log2_self_le hn0)
    calc _ ≤ (n / 2 ^ (n.log2 - 52) + n / 2 ^ (n.log2 - 52)) * 2 ^ (n.log2 - 52) :=
          Nat.mul_le_mul_right _ (by split <;> omega)
      _ ≤ 2 * n := by rw [add_mul]; omega

lemma nearest_of_small {n : ℤ} (h : n.natAbs ≤ 2 ^ 53) : nearest n = n := if_pos h

lemma natAbs_nearest {n : ℤ} (h : 2 ^ 53 < n.natAbs) :
    2 ^ 53 ≤ (nearest n).natAbs ∧ (0 < n ↔ 0 < nearest n) := by
  have hle := le_shortest (le_toDouble h.le)
  unfold nearest
  rw [if_neg (by omega)]
  rcases lt_trichotomy n 0 with hneg | hzero | hpos
  · rw [Int.sign_eq_neg_one_of_neg hneg]
    omega
  · omega
  · rw [Int.sign_eq_one_of_pos hpos]
    omega

/-- No number of 64 bits overflows. -/
lemma number_whole {n : ℤ} (h : n.natAbs ≤ 2 ^ 64) : (Literal.whole n).number = .fin (.ofInt (nearest n)) := by
  have hbig : 2 ^ 66 ≤ overflow := by
    unfold overflow
    exact Nat.pow_le_pow_right (by norm_num) (by decide)
  have hle := toDouble_le n.natAbs
  simp only [Literal.number]
  rw [if_neg (by omega)]

/-! ### Typed readers -/

/-- A number of type `i64`. -/
abbrev I64 := {n : ℤ // -2 ^ 63 ≤ n ∧ n < 2 ^ 63}

namespace Document

/-- `i64`. -/
def int64 : Document → Option I64
  | .num (.whole n) => if h : -2 ^ 63 ≤ n ∧ n < 2 ^ 63 then some ⟨n, h⟩ else none
  | _ => none

/-- `u64`. -/
def uint64 : Document → Option ℕ
  | .num (.whole n) => if 0 ≤ n ∧ n < 2 ^ 64 then some n.toNat else none
  | _ => none

/-- `String`. -/
def string : Document → Option String
  | .str s => some s
  | _ => none

/-- `bool`. -/
def boolean : Document → Option Bool
  | .bool b => some b
  | _ => none

section Readers

variable {α : Type} (r : Document → Option α)

/-- `Vec<T>`. -/
def vec : Document → Option (List α)
  | .arr items => items.mapM r
  | _ => none

/-- `Option<T>`. -/
def nullable : Document → Option (Option α)
  | .null => some none
  | d => (r d).map some

/-- `Option<T>` of a field with a default. -/
def optional : Option Document → Option (Option α)
  | none => some none
  | some d => nullable r d

/-- `BTreeMap<String, T>`: the keys in their order, of several values under one key the last. -/
def btreeMap : Document → Option (List (String × α))
  | .obj fields => do
    let read ← fields.mapM fun field => (r field.2).map fun a => (field.1, a)
    let keys := (read.map Prod.fst).dedup.insertionSort (· ≤ ·)
    some (keys.filterMap fun key => (read.reverse.find? fun entry => entry.1 = key))
  | _ => none

end Readers

/-- The fields of a record by their names. -/
def record (names : List String) : Document → Option (String → Option Document)
  | .obj fields =>
    if names.all fun name => (fields.filter fun field => field.1 = name).length ≤ 1 then
      some fun name => (Json.obj fields).get name
    else none
  | .arr items => if items.length ≤ names.length then some fun name => items[names.idxOf name]? else none
  | _ => none

mutual

/-- Every number is a finite double. -/
def finite : Document → Bool
  | .num l => match l.number with
    | .fin _ => true
    | .inf _ => false
  | .arr items => finiteItems items
  | .obj fields => finiteFields fields
  | _ => true

def finiteItems : List Document → Bool
  | [] => true
  | item :: items => finite item && finiteItems items

def finiteFields : List (String × Document) → Bool
  | [] => true
  | (_, d) :: fields => finite d && finiteFields fields

end

mutual

/-- How deep lists and objects stand in one another. -/
def nesting : Document → ℕ
  | .arr items => nestingItems items + 1
  | .obj fields => nestingFields fields + 1
  | _ => 0

def nestingItems : List Document → ℕ
  | [] => 0
  | item :: items => max (nesting item) (nestingItems items)

def nestingFields : List (String × Document) → ℕ
  | [] => 0
  | (_, d) :: fields => max (nesting d) (nestingFields fields)

end

/-- `serde_json::Value`, with no more than `depth` lists and objects in one another. -/
def anyValue (depth : ℕ) (d : Document) : Option Document :=
  if d.finite ∧ d.nesting ≤ depth then some d else none

end Document

end ShadeTree.Lib
