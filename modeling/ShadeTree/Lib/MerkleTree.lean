import Mathlib.Data.Nat.Basic
import Mathlib.Logic.Function.Basic
import Mathlib.Tactic.Common
import Mathlib.Tactic.Ring

/-!
# Binary Merkle trees over a leaf function

The tree of a leaf function `f : ℕ → α`, level by level: `node f l i` is the hash of the subtree of
height `l` over the leaves `i * 2 ^ l, …, (i + 1) * 2 ^ l - 1`.  An absent leaf has the value `z`, and a
subtree without leaves the value `zeroes l`.

Implementations keep the tree as a sparse store, *read* as a function `level → index → α`.  The two
facts an implementation needs are that writing one leaf changes the nodes on its path only
(`node_update_of_ne`), and that climbing from the new leaf over the siblings read from the old store
gives exactly the new nodes on the path (`climb_eq_node`).
-/

namespace ShadeTree.Lib.MerkleTree

open Function (update)

variable {α : Type*} (H : α → α → α)

/-- The subtree values of a tree without leaves, by height. -/
def zeroes (z : α) : ℕ → α
  | 0 => z
  | l + 1 => H (zeroes z l) (zeroes z l)

/-- The node of height `l` and position `i` over the leaves `f`. -/
def node (f : ℕ → α) : ℕ → ℕ → α
  | 0, i => f i
  | l + 1, i => H (node f l (2 * i)) (node f l (2 * i + 1))

/-- The value that reaches level `l` on the way up from the leaf `i` with value `v`, over the siblings
`get`. -/
def climb (get : ℕ → ℕ → α) (i : ℕ) (v : α) : ℕ → α
  | 0 => v
  | l + 1 =>
    if i / 2 ^ l % 2 = 0 then H (climb get i v l) (get l (i / 2 ^ l + 1))
    else H (get l (i / 2 ^ l - 1)) (climb get i v l)

@[simp] lemma climb_zero (get : ℕ → ℕ → α) (i : ℕ) (v : α) : climb H get i v 0 = v := rfl

/-- The leaves of a list, padded with `z`. -/
def padded (z : α) (xs : List α) : ℕ → α := fun i => xs.getD i z

section Node

variable (f : ℕ → α) (z v : α) (i : ℕ)

/-- A subtree all of whose leaves are absent has the empty value. -/
lemma node_eq_zeroes (l j : ℕ) (h : ∀ k, j * 2 ^ l ≤ k → k < (j + 1) * 2 ^ l → f k = z) :
    node H f l j = zeroes H z l := by
  induction l generalizing j with
  | zero => exact h j (by simp) (by simp)
  | succ l ih =>
    have e : j * 2 ^ (l + 1) = 2 * j * 2 ^ l := by rw [pow_succ]; ring
    have e' : (j + 1) * 2 ^ (l + 1) = (2 * j + 1 + 1) * 2 ^ l := by rw [pow_succ]; ring
    rw [e, e'] at h
    have hm : (2 * j + 1) * 2 ^ l = 2 * j * 2 ^ l + 2 ^ l := by ring
    have hm' : (2 * j + 1 + 1) * 2 ^ l = 2 * j * 2 ^ l + 2 ^ l + 2 ^ l := by ring
    unfold node zeroes
    rw [ih (2 * j) fun k hk hk' => h k hk (by omega),
      ih (2 * j + 1) fun k hk hk' => h k (by omega) hk']

/-- Off the path of the leaf `i` nothing changes. -/
lemma node_update_of_ne (l j : ℕ) (h : j ≠ i / 2 ^ l) :
    node H (update f i v) l j = node H f l j := by
  induction l generalizing j with
  | zero => exact Function.update_of_ne (by simpa using h) _ _
  | succ l ih =>
    have e : i / 2 ^ (l + 1) = i / 2 ^ l / 2 := by rw [pow_succ, Nat.div_div_eq_div_mul]
    rw [e] at h
    unfold node
    rw [ih (2 * j) (by omega), ih (2 * j + 1) (by omega)]

/-- **The path update.** Climbing over the siblings of the old tree gives the nodes of the new one. -/
theorem climb_eq_node {get : ℕ → ℕ → α} (l : ℕ) (hget : ∀ m < l, ∀ j, get m j = node H f m j) :
    climb H get i v l = node H (update f i v) l (i / 2 ^ l) := by
  induction l with
  | zero => simp [climb, node]
  | succ l ih =>
    have hg := hget l (Nat.lt_succ_self l)
    have e : i / 2 ^ (l + 1) = i / 2 ^ l / 2 := by rw [pow_succ, Nat.div_div_eq_div_mul]
    unfold climb node
    rw [ih fun m hm => hget m (by omega), e]
    split
    · next heven =>
      have e₀ : 2 * (i / 2 ^ l / 2) = i / 2 ^ l := by omega
      rw [hg, e₀, node_update_of_ne H f v i l (i / 2 ^ l + 1) (by omega)]
    · next hodd =>
      have e₀ : 2 * (i / 2 ^ l / 2) + 1 = i / 2 ^ l := by omega
      have e₁ : 2 * (i / 2 ^ l / 2) = i / 2 ^ l - 1 := by omega
      rw [hg, e₀, e₁, node_update_of_ne H f v i l (i / 2 ^ l - 1) (by omega)]

/-- On a leaf of the tree the climb ends in the root. -/
lemma climb_eq_root {get : ℕ → ℕ → α} {d : ℕ} (hi : i < 2 ^ d)
    (hget : ∀ m < d, ∀ j, get m j = node H f m j) :
    climb H get i v d = node H (update f i v) d 0 := by
  rw [climb_eq_node H f v i d hget, Nat.div_eq_of_lt hi]

end Node

section Padded

variable (z : α) (xs : List α)

lemma padded_nil : padded z ([] : List α) = fun _ => z := by
  funext i; simp [padded]

lemma padded_set {i : ℕ} (v : α) (hi : i < xs.length) :
    padded z (xs.set i v) = update (padded z xs) i v := by
  funext j
  by_cases hj : j = i
  · subst hj; simp [padded, List.getD_eq_getElem?_getD, hi]
  · rw [Function.update_of_ne hj]
    simp [padded, List.getD_eq_getElem?_getD, List.getElem?_set_ne (Ne.symm hj)]

lemma padded_append (v : α) : padded z (xs ++ [v]) = update (padded z xs) xs.length v := by
  funext j
  rcases lt_trichotomy j xs.length with hj | rfl | hj
  · rw [Function.update_of_ne (by omega)]
    simp [padded, List.getD_eq_getElem?_getD, List.getElem?_append_left hj]
  · simp [padded, List.getD_eq_getElem?_getD]
  · rw [Function.update_of_ne (by omega)]
    have h₁ : (xs ++ [v]).length ≤ j := by simp; omega
    simp [padded, List.getD_eq_getElem?_getD, List.getElem?_eq_none_iff.mpr hj.le,
      List.getElem?_eq_none_iff.mpr h₁]

end Padded

section Map

variable {β : Type*} {K : β → β → β} {φ : α → β}

/-- A map that commutes with the hash commutes with every node. -/
lemma node_map (h : ∀ a b, φ (H a b) = K (φ a) (φ b)) (f : ℕ → α) (l i : ℕ) :
    φ (node H f l i) = node K (fun j => φ (f j)) l i := by
  induction l generalizing i with
  | zero => rfl
  | succ l ih => rw [node, node, h, ih, ih]

lemma padded_map (z : α) (xs : List α) : (fun j => φ (padded z xs j)) = padded (φ z) (xs.map φ) := by
  funext j
  simp only [padded, List.getD_eq_getElem?_getD, List.getElem?_map]
  cases xs[j]? <;> rfl

end Map

/-! ### The root, level by level -/

section LevelRoot

/-- The nodes one level up; a missing right sibling has the value `z`. -/
def pairUp (z : α) : List α → List α
  | [] => []
  | [a] => [H a z]
  | a :: b :: xs => H a b :: pairUp z xs

/-- The root of the tree of height `d` over the leaves `xs`, computed level by level. -/
def levelRoot : ℕ → α → List α → α
  | 0, z, xs => xs.headD z
  | d + 1, z, xs => levelRoot d (H z z) (pairUp H z xs)

lemma padded_pairUp (z : α) (xs : List α) (i : ℕ) :
    padded (H z z) (pairUp H z xs) i = H (padded z xs (2 * i)) (padded z xs (2 * i + 1)) := by
  induction xs using pairUp.induct generalizing i with
  | case1 => simp [pairUp, padded]
  | case2 a => cases i <;> simp [pairUp, padded, Nat.mul_add]
  | case3 a b xs ih =>
    cases i with
    | zero => simp [pairUp, padded]
    | succ i => simpa [pairUp, padded, Nat.mul_add] using ih i

lemma node_succ_leaf (f : ℕ → α) (l i : ℕ) :
    node H f (l + 1) i = node H (fun j => H (f (2 * j)) (f (2 * j + 1))) l i := by
  induction l generalizing i with
  | zero => rfl
  | succ l ih =>
    rw [node, ih, ih]
    rfl

/-- The level-by-level root is the root of the padded leaves. -/
theorem levelRoot_eq_node (d : ℕ) (z : α) (xs : List α) :
    levelRoot H d z xs = node H (padded z xs) d 0 := by
  induction d generalizing z xs with
  | zero => cases xs <;> simp [levelRoot, node, padded]
  | succ d ih =>
    rw [levelRoot, ih, node_succ_leaf]
    congr 1
    funext i
    exact padded_pairUp H z xs i

end LevelRoot

end ShadeTree.Lib.MerkleTree
