import Mathlib.Data.List.DropRight
import ShadeTree.Contracts.PoseidonT3
import ShadeTree.Gateway.Envelope
import ShadeTree.Lib.Decimal
import ShadeTree.Lib.MerkleTree
import ShadeTree.Lib.Patricia

/-!
# The tree of the native client (`rust/shade-tree-rln/src/tree.rs`)

The Poseidon tree with all its rows: the leaves, and above each row the row of its parents, in which a missing right
child counts as the empty subtree of its level.  Packages are parameters: `num_bigint` by the texts it reads and
writes, the Poseidon hash of `light_poseidon` and Keccak by a function each.  The root is that of the binary tree
over the leaves padded with the zero value, and zeroing a leaf in place gives the tree built from the leaves so
changed.  The path of a leaf, as `create_proof` reads it off the rows, leads from the leaf to the root.
-/

namespace ShadeTree.Native

open ShadeTree.Lib ShadeTree.Gateway
open ShadeTree.Lib.MerkleTree (pairUp levelRoot levelRoot_eq_node node padded)

/-! ### Numbers -/

/-- The part of `num_bigint` that is used, its `BigUint` a natural number, and what the package documents of it. -/
structure NumBigint where
  parse_bytes : List Char → ℕ → Option ℕ
  to_str_radix : ℕ → ℕ → String
  parse_hex : ∀ c cs n, readDigits 16 hexDigit 0 (c :: cs) = some n → parse_bytes (c :: cs) 16 = some n
  parse_decimal : ∀ n : ℕ, parse_bytes (Decimal.digitsText n) 10 = some n
  decimal : ∀ n, to_str_radix n 10 = toString n

/-- `num_bigint` on texts of digits. -/
def NumBigint.ofDigits : NumBigint where
  parse_bytes s radix :=
    if radix = 16 then
      match s with
      | [] => none
      | c :: cs => readDigits 16 hexDigit 0 (c :: cs)
    else if s.all Char.isDigit ∧ s ≠ [] then some (Nat.ofDigitChars radix s 0)
    else none
  to_str_radix n radix := String.ofList (Nat.toDigits radix n)
  parse_hex _ _ _ h := h
  parse_decimal n := by
    have hall : (Decimal.digitsText n).all Char.isDigit = true :=
      List.all_eq_true.mpr fun _ hc => Decimal.isDigit_of_mem hc
    rw [if_neg (by decide), if_pos ⟨hall, Nat.toDigits_ne_nil⟩]
    exact congrArg some Nat.ofDigitChars_ten_toDigits
  decimal _ := rfl

/-- An element of the scalar field of BN254. -/
abbrev Fr := Fin FIELD

/-- `Fr::from` of a `BigUint`. -/
def Fr.ofBig (n : ℕ) : Fr := ⟨n % FIELD, Nat.mod_lt n (by decide)⟩

lemma Fr.ofBig_val (a : Fr) : Fr.ofBig a.val = a := Fin.ext (Nat.mod_eq_of_lt a.isLt)

lemma Fr.val_ofBig {n : ℕ} (h : n < FIELD) : (Fr.ofBig n).val = n := Nat.mod_eq_of_lt h

section Text

variable (N : NumBigint)

/-- What `trim` removes. -/
def is_whitespace (c : Char) : Bool :=
  (9 ≤ c.toNat && c.toNat ≤ 13) || (0x2000 ≤ c.toNat && c.toNat ≤ 0x200a) ||
    c.toNat ∈ [0x20, 0x85, 0xa0, 0x1680, 0x2028, 0x2029, 0x202f, 0x205f, 0x3000]

def trim (s : List Char) : List Char := (s.dropWhile is_whitespace).rdropWhile is_whitespace

def fr_to_dec (f : Fr) : String := N.to_str_radix f.val 10

/-- `dec_to_fr`; what panics is an error here. -/
def dec_to_fr (s : String) : Except String Fr :=
  match trim s.toList with
  | '0' :: 'x' :: hex =>
    match N.parse_bytes hex 16 with
    | none => .error "hex field element"
    | some big => .ok (.ofBig big)
  | s =>
    match N.parse_bytes s 10 with
    | none => .error "decimal field element"
    | some big => .ok (.ofBig big)

/-- A decimal is read back. -/
lemma dec_to_fr_decimal (n : ℕ) : dec_to_fr N (toString n) = .ok (.ofBig n) := by
  have htext : (toString n).toList = Decimal.digitsText n := String.toList_ofList
  have hdigit : ∀ c ∈ Decimal.digitsText n, 48 ≤ c.toNat ∧ c.toNat ≤ 57 := by
    intro c hc
    have := Decimal.isDigit_of_mem hc
    simp only [Char.isDigit, Bool.and_eq_true, decide_eq_true_eq] at this
    exact this
  have hspace : ∀ c ∈ Decimal.digitsText n, is_whitespace c = false := by
    intro c hc
    have := hdigit c hc
    simp only [is_whitespace, Bool.or_eq_false_iff, Bool.and_eq_false_iff, decide_eq_false_iff_not, List.mem_cons,
      List.not_mem_nil, or_false]
    omega
  have htrim : trim (Decimal.digitsText n) = Decimal.digitsText n := by
    have hdrop : (Decimal.digitsText n).dropWhile is_whitespace = Decimal.digitsText n := by
      cases hs : Decimal.digitsText n with
      | nil => rfl
      | cons c s => rw [List.dropWhile_cons_of_neg (by simp [hspace c (hs ▸ List.mem_cons_self)])]
    unfold trim
    rw [hdrop, List.rdropWhile_eq_self_iff]
    intro hne
    simp [hspace _ (List.getLast_mem hne)]
  unfold dec_to_fr
  rw [htext, htrim]
  split
  · next hex hs =>
    have := hdigit 'x' (by rw [hs]; simp)
    exact absurd this (by decide)
  · rw [N.parse_decimal]

end Text

/-! ### The tree -/

/-- The tree with its rows: `nodes[0]` are the leaves, `nodes[depth]` starts with the root. -/
structure MerkleTree where
  depth : ℕ
  zeroes : List Fr
  nodes : List (List Fr)
  depth_pos : 0 < depth
  zeroes_length : zeroes.length = depth
  nodes_length : nodes.length = depth + 1
  top_ne_nil : nodes.getLast? ≠ some []

section Build

variable (poseidon2 : Fr → Fr → Fr) (keccak256 : Bytes → Vector UInt8 32)

/-- `hash(m) = keccak256(be32(m mod 2^256)) >> 8`. -/
def keccak_hash_to_field (m : ℕ) : Fr :=
  let reduced := m % 2 ^ 256
  let be := (Nat.digits 256 reduced).reverse.map UInt8.ofNat
  let buf := be.leftpad 32 0
  let digest := (keccak256 buf).toList
  .ofBig (Nat.ofDigits 256 (digest.reverse.map UInt8.toNat) / 2 ^ 8)

/-- The zero values of `depth` levels, and the one above them. -/
def zeroChain : ℕ → Fr → List Fr × Fr
  | 0, z => ([], z)
  | depth + 1, z => (z :: (zeroChain depth (poseidon2 z z)).1, (zeroChain depth (poseidon2 z z)).2)

/-- The parents of a row. -/
def parents (zero : Fr) (row : List Fr) : List Fr :=
  (List.range ((row.length + 1) / 2)).map fun index =>
    poseidon2 (row.getD (2 * index) zero) (row.getD (2 * index + 1) zero)

/-- The rows over a row, itself the first. -/
def rows : List Fr → List Fr → List (List Fr)
  | [], row => [row]
  | zero :: zeroes, row => row :: rows zeroes (parents poseidon2 zero row)

lemma zeroChain_length (depth : ℕ) (z : Fr) : (zeroChain poseidon2 depth z).1.length = depth := by
  induction depth generalizing z with
  | zero => rfl
  | succ depth ih => simp [zeroChain, ih]

lemma zeroChain_snd (depth : ℕ) (z : Fr) :
    (zeroChain poseidon2 depth z).2 = Lib.MerkleTree.zeroes poseidon2 z depth := by
  have hshift : ∀ (d : ℕ) (z : Fr), Lib.MerkleTree.zeroes poseidon2 (poseidon2 z z) d =
      Lib.MerkleTree.zeroes poseidon2 z (d + 1) := by
    intro d z
    induction d with
    | zero => rfl
    | succ d ih => rw [Lib.MerkleTree.zeroes, ih]; rfl
  induction depth generalizing z with
  | zero => rfl
  | succ depth ih => rw [zeroChain, ih, hshift]

lemma parents_eq_pairUp (zero : Fr) (row : List Fr) : parents poseidon2 zero row = pairUp poseidon2 zero row := by
  induction row using Lib.MerkleTree.pairUp.induct with
  | case1 => rfl
  | case2 a => simp [parents, pairUp]
  | case3 a b row ih =>
    rw [pairUp, ← ih]
    have hcount : ((a :: b :: row).length + 1) / 2 = (row.length + 1) / 2 + 1 := by
      simp only [List.length_cons]
      omega
    unfold parents
    rw [hcount, List.range_succ_eq_map, List.map_cons, List.map_map]
    rfl

lemma pairUp_ne_nil (zero : Fr) {row : List Fr} (h : row ≠ []) : pairUp poseidon2 zero row ≠ [] := by
  rcases row with _ | ⟨a, _ | ⟨b, row⟩⟩
  · exact absurd rfl h
  · simp [pairUp]
  · simp [pairUp]

lemma rows_length (zeroes row : List Fr) : (rows poseidon2 zeroes row).length = zeroes.length + 1 := by
  induction zeroes generalizing row with
  | nil => rfl
  | cons zero zeroes ih => simp [rows, ih]

lemma rows_ne_nil (zeroes row : List Fr) : rows poseidon2 zeroes row ≠ [] := by
  cases zeroes <;> simp [rows]

/-- The rows over the leaves end with the root. -/
lemma rows_getLast {row : List Fr} (h : row ≠ []) (depth : ℕ) (z : Fr) :
    ∃ rest, (rows poseidon2 (zeroChain poseidon2 depth z).1 row).getLast? =
      some (levelRoot poseidon2 depth z row :: rest) := by
  induction depth generalizing z row with
  | zero =>
    cases row with
    | nil => exact absurd rfl h
    | cons a row => exact ⟨row, rfl⟩
  | succ depth ih =>
    obtain ⟨rest, hrest⟩ := ih (pairUp_ne_nil poseidon2 z h) (poseidon2 z z)
    refine ⟨rest, ?_⟩
    rw [zeroChain, rows, parents_eq_pairUp, List.getLast?_cons_of_ne_nil (rows_ne_nil poseidon2 _ _), hrest]
    rfl

lemma rows_top_ne_nil {row : List Fr} (h : row ≠ []) (zeroes : List Fr) :
    (rows poseidon2 zeroes row).getLast? ≠ some [] := by
  induction zeroes generalizing row with
  | nil => simpa [rows] using h
  | cons zero zeroes ih =>
    rw [rows, parents_eq_pairUp, List.getLast?_cons_of_ne_nil (rows_ne_nil poseidon2 _ _)]
    exact ih (pairUp_ne_nil poseidon2 zero h)

/-- `nodes` of a new tree: without leaves there is only the root, the zero value above all levels. -/
def newNodes (depth : ℕ) (z : Fr) (leaves : List Fr) : List (List Fr) :=
  if leaves = [] then List.replicate depth [] ++ [[(zeroChain poseidon2 depth z).2]]
  else rows poseidon2 (zeroChain poseidon2 depth z).1 leaves

lemma newNodes_length (depth : ℕ) (z : Fr) (leaves : List Fr) :
    (newNodes poseidon2 depth z leaves).length = depth + 1 := by
  unfold newNodes
  split
  · simp
  · rw [rows_length, zeroChain_length]

/-- The last row starts with the root over the padded leaves. -/
lemma newNodes_getLast (depth : ℕ) (z : Fr) (leaves : List Fr) :
    ∃ rest, (newNodes poseidon2 depth z leaves).getLast? = some (node poseidon2 (padded z leaves) depth 0 :: rest) := by
  unfold newNodes
  split
  · next hnil =>
    refine ⟨[], ?_⟩
    rw [List.getLast?_concat, hnil, Lib.MerkleTree.padded_nil,
      Lib.MerkleTree.node_eq_zeroes poseidon2 _ _ depth 0 fun _ _ _ => rfl, zeroChain_snd]
  · next hne =>
    obtain ⟨rest, hrest⟩ := rows_getLast poseidon2 hne depth z
    exact ⟨rest, by rw [hrest, levelRoot_eq_node]⟩

/-- `MerkleTree::new`. -/
def MerkleTree.new (id depth : ℕ) (hdepth : 0 < depth) (leaves : List Fr) : MerkleTree where
  depth := depth
  zeroes := (zeroChain poseidon2 depth (keccak_hash_to_field keccak256 id)).1
  nodes := newNodes poseidon2 depth (keccak_hash_to_field keccak256 id) leaves
  depth_pos := hdepth
  zeroes_length := zeroChain_length poseidon2 depth _
  nodes_length := newNodes_length poseidon2 depth _ leaves
  top_ne_nil := by
    obtain ⟨rest, hrest⟩ := newNodes_getLast poseidon2 depth (keccak_hash_to_field keccak256 id) leaves
    simp [hrest]

end Build

namespace MerkleTree

/-- `nodes[0]`. -/
def leaves (t : MerkleTree) : List Fr := t.nodes.get ⟨0, by rw [t.nodes_length]; omega⟩

/-- `zeroes[0]`. -/
def zero_value (t : MerkleTree) : Fr := t.zeroes.get ⟨0, by rw [t.zeroes_length]; exact t.depth_pos⟩

/-- `nodes[depth][0]`. -/
def root (t : MerkleTree) : Fr :=
  (t.nodes.get ⟨t.depth, by rw [t.nodes_length]; omega⟩).head (by
    intro hnil
    refine t.top_ne_nil ?_
    rw [List.getLast?_eq_getElem?, List.getElem?_eq_getElem (by rw [t.nodes_length]; omega)]
    simpa [t.nodes_length] using hnil)

/-- `remove(index)`, for an index in range: the leaf is zeroed in place and the rows above are computed again. -/
def remove (poseidon2 : Fr → Fr → Fr) (t : MerkleTree) (index : ℕ) (hindex : index < t.leaves.length) :
    MerkleTree where
  depth := t.depth
  zeroes := t.zeroes
  nodes := rows poseidon2 t.zeroes (t.leaves.set index t.zero_value)
  depth_pos := t.depth_pos
  zeroes_length := t.zeroes_length
  nodes_length := by rw [rows_length, t.zeroes_length]
  top_ne_nil := rows_top_ne_nil poseidon2 (List.ne_nil_of_length_pos (by rw [List.length_set]; omega)) t.zeroes

section New

variable (poseidon2 : Fr → Fr → Fr) (keccak256 : Bytes → Vector UInt8 32) (id depth : ℕ) (hdepth : 0 < depth)
  (leaves : List Fr)

lemma zero_value_new :
    (new poseidon2 keccak256 id depth hdepth leaves).zero_value = keccak_hash_to_field keccak256 id := by
  obtain ⟨d, rfl⟩ := Nat.exists_eq_succ_of_ne_zero hdepth.ne'
  rfl

lemma leaves_new : (new poseidon2 keccak256 id depth hdepth leaves).leaves = leaves := by
  obtain ⟨d, rfl⟩ := Nat.exists_eq_succ_of_ne_zero hdepth.ne'
  have hfirst : (newNodes poseidon2 (d + 1) (keccak_hash_to_field keccak256 id) leaves)[0]? = some leaves := by
    unfold newNodes
    split
    · next hnil => simp [hnil, List.replicate_succ]
    · rfl
  unfold MerkleTree.leaves
  rw [List.get_eq_getElem]
  exact (List.getElem_eq_iff _).mpr hfirst

/-- The root starts the last row. -/
lemma getLast_nodes (t : MerkleTree) {row : List Fr} (h : t.nodes.getLast? = some row) : row.head? = some t.root := by
  have hlast : t.nodes.getLast? = some (t.nodes.get ⟨t.depth, by rw [t.nodes_length]; omega⟩) := by
    rw [List.getLast?_eq_getElem?, List.getElem?_eq_getElem (by rw [t.nodes_length]; omega)]
    simp [t.nodes_length]
  rw [h] at hlast
  rw [Option.some.inj hlast]
  exact List.head?_eq_some_head _

/-- **The root** is that of the binary tree over the padded leaves. -/
theorem root_new : (new poseidon2 keccak256 id depth hdepth leaves).root =
    node poseidon2 (padded (keccak_hash_to_field keccak256 id) leaves) depth 0 := by
  obtain ⟨rest, hrest⟩ := newNodes_getLast poseidon2 depth (keccak_hash_to_field keccak256 id) leaves
  have hhead := getLast_nodes (new poseidon2 keccak256 id depth hdepth leaves) hrest
  exact (Option.some.inj hhead).symm

/-- Zeroing a leaf in place gives the tree built from the leaves with the zero value there. -/
theorem remove_new (index : ℕ) (hindex : index < (new poseidon2 keccak256 id depth hdepth leaves).leaves.length) :
    (new poseidon2 keccak256 id depth hdepth leaves).remove poseidon2 index hindex =
      new poseidon2 keccak256 id depth hdepth (leaves.set index (keccak_hash_to_field keccak256 id)) := by
  have hzero := zero_value_new poseidon2 keccak256 id depth hdepth leaves
  have hleaves := leaves_new poseidon2 keccak256 id depth hdepth leaves
  have hne : leaves.set index (keccak_hash_to_field keccak256 id) ≠ [] := by
    rw [hleaves] at hindex
    exact List.ne_nil_of_length_pos (by rw [List.length_set]; omega)
  unfold remove
  simp only [hzero, hleaves]
  simp only [new, newNodes, if_neg hne]

end New

/-! ### Removals and paths -/

/-- `leaf(index)`, for an index in range. -/
def leaf (t : MerkleTree) (index : ℕ) (hindex : index < t.leaves.length) : Fr := t.leaves.get ⟨index, hindex⟩

/-- One `remove` after the other; none when one of them panics. -/
def removeAll (poseidon2 : Fr → Fr → Fr) : MerkleTree → List ℕ → Option MerkleTree
  | t, [] => some t
  | t, index :: removed =>
    if hindex : index < t.leaves.length then removeAll poseidon2 (t.remove poseidon2 index hindex) removed else none

/-- The loop of `create_proof` over the levels that are left, at the position `idx` of the first of them. -/
def proofFrom : List Fr → List (List Fr) → ℕ → List Fr × List UInt8
  | [], _, _ => ([], [])
  | zero :: zeroes, nodes, idx =>
    let position := idx % 2
    let sib_i := if position = 0 then idx + 1 else idx - 1
    let sib := (nodes.head?.bind fun row => row[sib_i]?).getD zero
    let above := proofFrom zeroes nodes.tail (idx / 2)
    (sib :: above.1, UInt8.ofNat position :: above.2)

/-- `create_proof(index)`, for an index in range: the siblings and on which side the node is. -/
def create_proof (t : MerkleTree) (index : ℕ) (_hindex : index < t.leaves.length) : List Fr × List UInt8 :=
  proofFrom t.zeroes t.nodes index

/-- Where a path leads from a leaf. -/
def foldPath (poseidon2 : Fr → Fr → Fr) (leaf : Fr) (siblings : List Fr) (path_indices : List UInt8) : Fr :=
  (siblings.zip path_indices).foldl (fun node s => if s.2 = 0 then poseidon2 node s.1 else poseidon2 s.1 node) leaf

section Paths

variable (poseidon2 : Fr → Fr → Fr) (keccak256 : Bytes → Vector UInt8 32) (id depth : ℕ) (hdepth : 0 < depth)

/-- The leaves with the removed ones zeroed. -/
def zeroed (zero : Fr) (leaves : List Fr) (removed : List ℕ) : List Fr :=
  removed.foldl (fun leaves index => leaves.set index zero) leaves

lemma zeroed_length (zero : Fr) (leaves : List Fr) (removed : List ℕ) :
    (zeroed zero leaves removed).length = leaves.length := by
  induction removed generalizing leaves with
  | nil => rfl
  | cons index removed ih => exact (ih _).trans List.length_set

lemma proofFrom_length (zeroes : List Fr) (nodes : List (List Fr)) (idx : ℕ) :
    (proofFrom zeroes nodes idx).1.length = zeroes.length ∧ (proofFrom zeroes nodes idx).2.length = zeroes.length := by
  induction zeroes generalizing nodes idx with
  | nil => exact ⟨rfl, rfl⟩
  | cons zero zeroes ih => simp [proofFrom, ih]

/-- Removals in range give the tree built from the leaves with the removed ones zeroed; any other panics. -/
lemma removeAll_new (leaves : List Fr) (removed : List ℕ) :
    removeAll poseidon2 (new poseidon2 keccak256 id depth hdepth leaves) removed =
      if ∀ i ∈ removed, i < leaves.length then
        some (new poseidon2 keccak256 id depth hdepth (zeroed (keccak_hash_to_field keccak256 id) leaves removed))
      else none := by
  induction removed generalizing leaves with
  | nil => simp [removeAll, zeroed]
  | cons index removed ih =>
    have hlen : (new poseidon2 keccak256 id depth hdepth leaves).leaves.length = leaves.length := by rw [leaves_new]
    by_cases hindex : index < leaves.length
    · rw [removeAll, dif_pos (hlen ▸ hindex), remove_new, ih]
      simp only [List.length_set, List.forall_mem_cons, hindex, true_and]
      rfl
    · rw [removeAll, dif_neg (hlen ▸ hindex), if_neg fun h => hindex (h index List.mem_cons_self)]

/-- On the way up the rows the path stays on the nodes of the tree. -/
lemma foldPath_rows (d : ℕ) (z : Fr) (row : List Fr) (idx : ℕ) :
    let path := proofFrom (zeroChain poseidon2 d z).1 (rows poseidon2 (zeroChain poseidon2 d z).1 row) idx
    foldPath poseidon2 (padded z row idx) path.1 path.2 = node poseidon2 (padded z row) d (idx / 2 ^ d) := by
  induction d generalizing z row idx with
  | zero => simp [zeroChain, proofFrom, foldPath, node]
  | succ d ih =>
    intro path
    have hup : (if UInt8.ofNat (idx % 2) = 0 then
          poseidon2 (padded z row idx) (padded z row (if idx % 2 = 0 then idx + 1 else idx - 1))
        else poseidon2 (padded z row (if idx % 2 = 0 then idx + 1 else idx - 1)) (padded z row idx)) =
        padded (poseidon2 z z) (parents poseidon2 z row) (idx / 2) := by
      rw [parents_eq_pairUp, Lib.MerkleTree.padded_pairUp]
      rcases Nat.mod_two_eq_zero_or_one idx with hbit | hbit
      · obtain ⟨k, rfl⟩ : ∃ k, idx = 2 * k := ⟨idx / 2, by omega⟩
        simp [hbit]
      · obtain ⟨k, rfl⟩ : ∃ k, idx = 2 * k + 1 := ⟨idx / 2, by omega⟩
        have hhalf : (2 * k + 1) / 2 = k := by omega
        simp [hbit, hhalf]
    have hsib : ∀ j, (row[j]?).getD z = padded z row j := fun j => by simp [padded]
    have hnodes : node poseidon2 (padded (poseidon2 z z) (parents poseidon2 z row)) d (idx / 2 / 2 ^ d) =
        node poseidon2 (padded z row) (d + 1) (idx / 2 ^ (d + 1)) := by
      rw [Lib.MerkleTree.node_succ_leaf, Nat.div_div_eq_div_mul, pow_succ', parents_eq_pairUp]
      congr 1
      funext j
      exact Lib.MerkleTree.padded_pairUp poseidon2 z row j
    calc foldPath poseidon2 (padded z row idx) path.1 path.2
        = foldPath poseidon2 (padded (poseidon2 z z) (parents poseidon2 z row) (idx / 2)) _ _ := by
          rw [← hup, ← hsib]
          rfl
      _ = _ := (ih (poseidon2 z z) (parents poseidon2 z row) (idx / 2)).trans hnodes

/-- The path of a leaf of a new tree ends in the root. -/
lemma foldPath_new {leaves : List Fr} (hfit : leaves.length ≤ 2 ^ depth) (index : ℕ)
    (hindex : index < (new poseidon2 keccak256 id depth hdepth leaves).leaves.length) :
    let t := new poseidon2 keccak256 id depth hdepth leaves
    foldPath poseidon2 (t.leaf index hindex) (t.create_proof index hindex).1 (t.create_proof index hindex).2 =
      t.root := by
  intro t
  have hin : index < leaves.length := by rwa [leaves_new] at hindex
  have hne : leaves ≠ [] := List.ne_nil_of_length_pos (by omega)
  have hleaf : t.leaf index hindex = padded (keccak_hash_to_field keccak256 id) leaves index := by
    have hget : t.leaves[index]? = some (t.leaf index hindex) := List.getElem?_eq_getElem hindex
    rw [leaves_new] at hget
    simp [padded, hget]
  have hproof : t.create_proof index hindex =
      proofFrom (zeroChain poseidon2 depth (keccak_hash_to_field keccak256 id)).1
        (rows poseidon2 (zeroChain poseidon2 depth (keccak_hash_to_field keccak256 id)).1 leaves) index := by
    simp only [t, create_proof, new, newNodes, if_neg hne]
  rw [hleaf, hproof, foldPath_rows, Nat.div_eq_of_lt (by omega)]
  exact (root_new poseidon2 keccak256 id depth hdepth leaves).symm

end Paths

/-- **Removals and paths.** After any removals that do not panic the root is that of the tree built from the leaves
with the removed ones zeroed, and the path of every leaf, of one sibling a level, ends in the root. -/
theorem removeAll_create_proof (poseidon2 : Fr → Fr → Fr) (keccak256 : Bytes → Vector UInt8 32) (id depth : ℕ)
    (hdepth : 0 < depth) (leaves : List Fr) (hfit : leaves.length ≤ 2 ^ depth) (removed : List ℕ)
    (hremoved : ∀ i ∈ removed, i < leaves.length) :
    ∃ t, removeAll poseidon2 (new poseidon2 keccak256 id depth hdepth leaves) removed = some t ∧
      t.root = (new poseidon2 keccak256 id depth hdepth
        (zeroed (keccak_hash_to_field keccak256 id) leaves removed)).root ∧
      t.leaves = zeroed (keccak_hash_to_field keccak256 id) leaves removed ∧
      ∀ index (hindex : index < t.leaves.length),
        (t.create_proof index hindex).1.length = depth ∧ (t.create_proof index hindex).2.length = depth ∧
        foldPath poseidon2 (t.leaf index hindex) (t.create_proof index hindex).1 (t.create_proof index hindex).2 =
          t.root := by
  refine ⟨_, by rw [removeAll_new, if_pos hremoved], rfl, leaves_new _ _ _ _ _ _, fun index hindex => ?_⟩
  obtain ⟨hsiblings, hbits⟩ := proofFrom_length
    (new poseidon2 keccak256 id depth hdepth (zeroed (keccak_hash_to_field keccak256 id) leaves removed)).zeroes
    (new poseidon2 keccak256 id depth hdepth (zeroed (keccak_hash_to_field keccak256 id) leaves removed)).nodes index
  have hzeroes := (new poseidon2 keccak256 id depth hdepth
    (zeroed (keccak_hash_to_field keccak256 id) leaves removed)).zeroes_length
  refine ⟨hsiblings.trans hzeroes, hbits.trans hzeroes, ?_⟩
  exact foldPath_new poseidon2 keccak256 id depth hdepth (by rwa [zeroed_length]) index hindex

/-- Five leaves under the identifier 1, the first and the last removed, the first twice. -/
theorem removeAll_create_proof_five :
    let poseidon2 := fun a b : Fr => Fr.ofBig (Contracts.PoseidonT3.hash a.val b.val)
    -- the hash of 1, the only number that is hashed
    let keccak256 := fun _ : Bytes => (#v[0xb1, 0x0e, 0x2d, 0x52, 0x76, 0x12, 0x07, 0x3b, 0x26, 0xee, 0xcd, 0xfd,
      0x71, 0x7e, 0x6a, 0x32, 0x0c, 0xf4, 0x4b, 0x4a, 0xfa, 0xc2, 0xb0, 0x73, 0x2d, 0x9f, 0xcb, 0xe2, 0xb7, 0xfa,
      0x0c, 0xf6] : Vector UInt8 32)
    let zero := keccak_hash_to_field keccak256 1
    let leaves := [11, 12, 13, 14, 15].map Fr.ofBig
    ∃ t, removeAll poseidon2 (new poseidon2 keccak256 1 20 (by decide) leaves) [0, 4, 0] = some t ∧
      t.root = (new poseidon2 keccak256 1 20 (by decide) [zero, .ofBig 12, .ofBig 13, .ofBig 14, zero]).root ∧
      ∀ hindex : 2 < t.leaves.length,
        foldPath poseidon2 (t.leaf 2 hindex) (t.create_proof 2 hindex).1 (t.create_proof 2 hindex).2 = t.root := by
  intro poseidon2 keccak256 zero leaves
  obtain ⟨t, hall, hroot, -, hpath⟩ := removeAll_create_proof poseidon2 keccak256 1 20 (by decide) leaves (by decide)
    [0, 4, 0] (by decide)
  exact ⟨t, hall, hroot, fun hindex => (hpath 2 hindex).2.2⟩

end MerkleTree

end ShadeTree.Native
