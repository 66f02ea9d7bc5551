import ShadeTree.Contracts.PoseidonT3
import ShadeTree.Lib.MerkleTree

/-!
# The on-chain Merkle tree (`_updateLeaf`, `_nodeAt`)

Both contracts carry the same tree code: a sparse store `_treeNode[level][index]` in which `0` means
"never written", the empty-subtree values `_zeroes`, and `currentRoot`.  The hash and the leaf zero value
are parameters of this module.

`Mirrors T f` says that the store reads as the tree over the leaves `f`.  `_updateLeaf` keeps it as long
as no node on the written path is `0` (`Mirrors.updateLeaf`): a written `0` reads back as the empty
subtree.  So the root and every stored node are right after every sequence of such writes.
-/

namespace ShadeTree.Contracts

open Function (update)
open ShadeTree.Lib.MerkleTree

def TREE_DEPTH : ℕ := 20

/-- `keccak256(GROUP_ID) >> 8` for the group id `1`, the leaf zero value of the deployed sets. -/
def ZERO_VALUE : ℕ := 0x00b10e2d527612073b26eecdfd717e6a320cf44b4afac2b0732d9fcbe2b7fa0c

/-- The tree part of a contract's storage. -/
structure Tree where
  currentRoot : ℕ
  treeNode : ℕ → ℕ → ℕ

section Tree

variable (H : ℕ → ℕ → ℕ) (z : ℕ)

/-- The tree of the constructor: nothing written, the root of the empty tree. -/
def Tree.new : Tree := ⟨zeroes H z TREE_DEPTH, fun _ _ => 0⟩

/-- `_nodeAt(level, index)`. -/
def nodeAt (treeNode : ℕ → ℕ → ℕ) (level index : ℕ) : ℕ :=
  if treeNode level index = 0 then zeroes H z level else treeNode level index

/-- `_treeNode[level][index] = v`. -/
def setNode (treeNode : ℕ → ℕ → ℕ) (level index v : ℕ) : ℕ → ℕ → ℕ :=
  update treeNode level (update (treeNode level) index v)

/-- The loop of `_updateLeaf`, with `n` levels to go. -/
def updatePath : ℕ → ℕ → ℕ → ℕ → (ℕ → ℕ → ℕ) → (ℕ → ℕ → ℕ) × ℕ
  | 0, _, _, node, treeNode => (treeNode, node)
  | n + 1, level, idx, node, treeNode =>
    let treeNode' := setNode treeNode level idx node
    let node' :=
      if idx % 2 = 0 then H node (nodeAt H z treeNode' level (idx + 1))
      else H (nodeAt H z treeNode' level (idx - 1)) node
    updatePath n (level + 1) (idx / 2) node' treeNode'

/-- `_updateLeaf(index, value)`. -/
def Tree.updateLeaf (T : Tree) (index value : ℕ) : Tree :=
  let r := updatePath H z TREE_DEPTH 0 index value T.treeNode
  ⟨r.2, r.1⟩

end Tree

/-! ### What the loop writes -/

section Path

variable {H : ℕ → ℕ → ℕ} {z : ℕ}

lemma setNode_level (t : ℕ → ℕ → ℕ) (level index v j : ℕ) :
    setNode t level index v level j = if j = index then v else t level j := by
  simp [setNode, Function.update_apply]

lemma setNode_of_ne {t : ℕ → ℕ → ℕ} {level l : ℕ} (index v : ℕ) (h : l ≠ level) :
    setNode t level index v l = t l := by
  simp [setNode, Function.update_of_ne h]

lemma nodeAt_setNode_of_ne (t : ℕ → ℕ → ℕ) (level index v : ℕ) {j : ℕ} (h : j ≠ index) :
    nodeAt H z (setNode t level index v) level j = nodeAt H z t level j := by
  simp [nodeAt, setNode_level, h]

lemma updatePath_succ (n level idx node : ℕ) (t : ℕ → ℕ → ℕ) :
    updatePath H z (n + 1) level idx node t =
      updatePath H z n (level + 1) (idx / 2)
        (if idx % 2 = 0 then H node (nodeAt H z (setNode t level idx node) level (idx + 1))
        else H (nodeAt H z (setNode t level idx node) level (idx - 1)) node)
        (setNode t level idx node) := rfl

/-- From `level` on, the loop writes the climb from the leaf `i` over the store as it was, at the nodes of
its path and nowhere else, and ends in the top of the climb. -/
lemma updatePath_spec (t₀ : ℕ → ℕ → ℕ) (i v n level : ℕ) (t : ℕ → ℕ → ℕ)
    (ht : ∀ l, level ≤ l → t l = t₀ l) :
    let c := climb H (nodeAt H z t₀) i v
    let r := updatePath H z n level (i / 2 ^ level) (c level) t
    r.2 = c (level + n) ∧
      ∀ l j, r.1 l j = if level ≤ l ∧ l < level + n ∧ j = i / 2 ^ l then c l else t l j := by
  induction n generalizing level t with
  | zero =>
    refine ⟨rfl, fun l j => ?_⟩
    rw [if_neg (by omega)]
    rfl
  | succ n ih =>
    intro c r
    have hnode : ∀ j, j ≠ i / 2 ^ level →
        nodeAt H z (setNode t level (i / 2 ^ level) (c level)) level j = nodeAt H z t₀ level j := by
      intro j hj
      rw [nodeAt_setNode_of_ne t level _ _ hj]
      simp [nodeAt, ht level le_rfl]
    have hup : (if i / 2 ^ level % 2 = 0 then
          H (c level) (nodeAt H z (setNode t level (i / 2 ^ level) (c level)) level (i / 2 ^ level + 1))
        else H (nodeAt H z (setNode t level (i / 2 ^ level) (c level)) level (i / 2 ^ level - 1))
          (c level)) = c (level + 1) := by
      show _ = climb H (nodeAt H z t₀) i v (level + 1)
      unfold climb
      split
      · rw [hnode _ (by omega)]
      · rw [hnode _ (by omega)]
    have hdiv : i / 2 ^ level / 2 = i / 2 ^ (level + 1) := by
      rw [Nat.div_div_eq_div_mul, pow_succ]
    have hr : r = updatePath H z n (level + 1) (i / 2 ^ (level + 1)) (c (level + 1))
        (setNode t level (i / 2 ^ level) (c level)) := by
      show updatePath H z (n + 1) level _ _ t = _
      rw [updatePath_succ, hup, hdiv]
    obtain ⟨hroot, hstore⟩ := ih (level + 1) (setNode t level (i / 2 ^ level) (c level)) fun l hl => by
      rw [setNode_of_ne _ _ (by omega), ht l (by omega)]
    rw [hr]
    refine ⟨by rw [hroot]; congr 1; omega, fun l j => ?_⟩
    rw [hstore]
    by_cases hl : l = level
    · subst hl
      rw [if_neg (by omega), setNode_level]
      by_cases hj : j = i / 2 ^ l <;> simp [hj]
    · rw [setNode_of_ne _ _ hl]
      by_cases h : level + 1 ≤ l ∧ l < level + 1 + n ∧ j = i / 2 ^ l
      · rw [if_pos h, if_pos (by omega)]
      · rw [if_neg h, if_neg (by omega)]

lemma Tree.updateLeaf_eq (T : Tree) (i v : ℕ) :
    T.updateLeaf H z i v = ⟨(updatePath H z TREE_DEPTH 0 i v T.treeNode).2,
      (updatePath H z TREE_DEPTH 0 i v T.treeNode).1⟩ := rfl

/-- What `_updateLeaf` does to the storage. -/
lemma Tree.updateLeaf_spec (T : Tree) (i v : ℕ) :
    (T.updateLeaf H z i v).currentRoot = climb H (nodeAt H z T.treeNode) i v TREE_DEPTH ∧
      ∀ l j, (T.updateLeaf H z i v).treeNode l j =
        if l < TREE_DEPTH ∧ j = i / 2 ^ l then climb H (nodeAt H z T.treeNode) i v l
        else T.treeNode l j := by
  have h := updatePath_spec (H := H) (z := z) T.treeNode i v TREE_DEPTH 0 T.treeNode fun _ _ => rfl
  simp only [pow_zero, Nat.div_one, Nat.zero_add, Nat.zero_le, true_and, climb_zero] at h
  rw [Tree.updateLeaf_eq]
  exact h

/-! ### The tree over a leaf function -/

/-- The storage reads as the tree over the leaves `f`. -/
structure Tree.Mirrors (H : ℕ → ℕ → ℕ) (z : ℕ) (T : Tree) (f : ℕ → ℕ) : Prop where
  root : T.currentRoot = node H f TREE_DEPTH 0
  store : ∀ l < TREE_DEPTH, ∀ j, nodeAt H z T.treeNode l j = node H f l j

/-- The nodes `_updateLeaf` writes when the leaf `i` of the tree over `f` becomes `v`: none is `0`. -/
def PathNonzero (H : ℕ → ℕ → ℕ) (f : ℕ → ℕ) (i v : ℕ) : Prop :=
  ∀ l < TREE_DEPTH, node H (update f i v) l (i / 2 ^ l) ≠ 0

instance (f : ℕ → ℕ) (i v : ℕ) : Decidable (PathNonzero H f i v) :=
  inferInstanceAs (Decidable (∀ l < TREE_DEPTH, node H (update f i v) l (i / 2 ^ l) ≠ 0))

lemma Tree.Mirrors.new : (Tree.new H z).Mirrors H z fun _ => z := by
  refine ⟨?_, fun l _ j => ?_⟩
  · exact (node_eq_zeroes H _ z TREE_DEPTH 0 fun _ _ _ => rfl).symm
  · rw [node_eq_zeroes H _ z l j fun _ _ _ => rfl]
    simp [nodeAt, Tree.new]

/-- The root after `_updateLeaf` is the root over the updated leaves. -/
lemma Tree.Mirrors.root_updateLeaf {T : Tree} {f : ℕ → ℕ} (h : T.Mirrors H z f) {i : ℕ} (v : ℕ)
    (hi : i < 2 ^ TREE_DEPTH) :
    (T.updateLeaf H z i v).currentRoot = node H (update f i v) TREE_DEPTH 0 := by
  rw [(T.updateLeaf_spec i v).1, climb_eq_root H f v i hi h.store]

/-- **The tree update.** A leaf inside the tree whose path holds no `0` is written faithfully. -/
theorem Tree.Mirrors.updateLeaf {T : Tree} {f : ℕ → ℕ} (h : T.Mirrors H z f) {i v : ℕ}
    (hi : i < 2 ^ TREE_DEPTH) (hp : PathNonzero H f i v) :
    (T.updateLeaf H z i v).Mirrors H z (update f i v) := by
  refine ⟨h.root_updateLeaf v hi, fun l hl j => ?_⟩
  have hread := (T.updateLeaf_spec (H := H) (z := z) i v).2 l j
  by_cases hj : j = i / 2 ^ l
  · have hc := climb_eq_node H f v i l fun m hm => h.store m (by omega)
    rw [if_pos ⟨hl, hj⟩, hc] at hread
    rw [nodeAt, hread, hj, if_neg (hp l hl)]
  · rw [if_neg (by tauto)] at hread
    rw [nodeAt, hread, node_update_of_ne H f v i l j hj, ← h.store l hl j, nodeAt]

end Path

/-! ### Sequences of writes -/

section Writes

variable (H : ℕ → ℕ → ℕ) (z : ℕ)

/-- The storage after the writes `(index, value)`, one after the other. -/
def Tree.updateLeaves (T : Tree) (writes : List (ℕ × ℕ)) : Tree :=
  writes.foldl (fun T w => T.updateLeaf H z w.1 w.2) T

/-- The leaf vector after the writes. -/
def leavesAfter (f : ℕ → ℕ) (writes : List (ℕ × ℕ)) : ℕ → ℕ := writes.foldl (fun f w => update f w.1 w.2) f

/-- Writes inside the tree of nonzero values, in which no hash on the way up is `0`. -/
def Writable : (ℕ → ℕ) → List (ℕ × ℕ) → Prop
  | _, [] => True
  | f, (i, v) :: writes => (i < 2 ^ TREE_DEPTH ∧ v ≠ 0 ∧
      ∀ l, 0 < l → l < TREE_DEPTH → node H (update f i v) l (i / 2 ^ l) ≠ 0) ∧ Writable (update f i v) writes

variable {H z}

lemma Writable.of_prefix {f : ℕ → ℕ} {done writes : List (ℕ × ℕ)} (h : Writable H f writes)
    (hdone : done <+: writes) : Writable H f done := by
  induction done generalizing f writes with
  | nil => trivial
  | cons w done ih =>
    obtain ⟨rest, rfl⟩ := hdone
    exact ⟨h.1, ih h.2 ⟨rest, rfl⟩⟩

lemma pathNonzero_of_hashes {f : ℕ → ℕ} {i v : ℕ} (hv : v ≠ 0)
    (h : ∀ l, 0 < l → l < TREE_DEPTH → node H (update f i v) l (i / 2 ^ l) ≠ 0) : PathNonzero H f i v := by
  intro l hl
  rcases Nat.eq_zero_or_pos l with rfl | hpos
  · simpa [node] using hv
  · exact h l hpos hl

/-- The writes keep the store a mirror, and leave alone what is not below the root. -/
lemma Tree.Mirrors.updateLeaves {T : Tree} {f : ℕ → ℕ} (h : T.Mirrors H z f)
    (hbelow : ∀ l j, TREE_DEPTH ≤ l → T.treeNode l j = 0) {writes : List (ℕ × ℕ)} (hwrites : Writable H f writes) :
    (T.updateLeaves H z writes).Mirrors H z (leavesAfter f writes) ∧
      ∀ l j, TREE_DEPTH ≤ l → (T.updateLeaves H z writes).treeNode l j = 0 := by
  induction writes generalizing T f with
  | nil => exact ⟨h, hbelow⟩
  | cons w writes ih =>
    obtain ⟨⟨hi, hv, hhash⟩, hrest⟩ := hwrites
    refine ih (h.updateLeaf hi (pathNonzero_of_hashes hv hhash)) (fun l j hl => ?_) hrest
    rw [(T.updateLeaf_spec w.1 w.2).2, if_neg (by omega)]
    exact hbelow l j hl

end Writes

/-- **The incremental tree.** After each of any writes to a new tree the root is that of the whole leaf vector, and
every node, stored or not, is the hash of its subtree. -/
theorem Tree.updateLeaves_correct (H : ℕ → ℕ → ℕ) (z : ℕ) (writes : List (ℕ × ℕ))
    (hwrites : Writable H (fun _ => z) writes) (done : List (ℕ × ℕ)) (hdone : done <+: writes) :
    let T := (Tree.new H z).updateLeaves H z done
    let f := leavesAfter (fun _ => z) done
    T.currentRoot = node H f TREE_DEPTH 0 ∧
      (∀ l j, T.treeNode l j ≠ 0 → l < TREE_DEPTH ∧ T.treeNode l j = node H f l j) ∧
      ∀ l < TREE_DEPTH, ∀ j, nodeAt H z T.treeNode l j = node H f l j := by
  intro T f
  obtain ⟨hmirrors, hbelow⟩ :=
    (Tree.Mirrors.new (H := H) (z := z)).updateLeaves (fun _ _ _ => rfl) (hwrites.of_prefix hdone)
  refine ⟨hmirrors.root, fun l j hstored => ?_, hmirrors.store⟩
  have hl : l < TREE_DEPTH := by
    by_contra hge
    exact hstored (hbelow l j (not_lt.mp hge))
  refine ⟨hl, ?_⟩
  rw [← hmirrors.store l hl j, nodeAt, if_neg hstored]

/-- A leaf is inserted and removed: the root is that of the empty tree again. -/
theorem Tree.updateLeaves_correct_removal :
    ((Tree.new PoseidonT3.hash ZERO_VALUE).updateLeaves PoseidonT3.hash ZERO_VALUE
      [(0, 5), (0, ZERO_VALUE)]).currentRoot = node PoseidonT3.hash (fun _ => ZERO_VALUE) TREE_DEPTH 0 := by
  have hinsert : ∀ l < TREE_DEPTH, climb PoseidonT3.hash
      (nodeAt PoseidonT3.hash ZERO_VALUE fun _ _ => 0) 0 5 l ≠ 0 := by decide +kernel
  have hempty : ∀ l < TREE_DEPTH, zeroes PoseidonT3.hash ZERO_VALUE l ≠ 0 := by decide +kernel
  have hback : update (update (fun _ => ZERO_VALUE) 0 5) 0 ZERO_VALUE = fun _ : ℕ => ZERO_VALUE := by
    rw [Function.update_idem, Function.update_eq_self]
  have hwrites : Writable PoseidonT3.hash (fun _ => ZERO_VALUE) [(0, 5), (0, ZERO_VALUE)] := by
    refine ⟨⟨by decide, by decide, fun l _ hl => ?_⟩, ⟨by decide, by decide, fun l _ hl => ?_⟩, trivial⟩
    · rw [← climb_eq_node _ _ _ _ _ fun m hm => Tree.Mirrors.new.store m (hm.trans hl)]
      exact hinsert l hl
    · rw [hback, node_eq_zeroes _ _ ZERO_VALUE l _ fun _ _ _ => rfl]
      exact hempty l hl
  have hroot := (Tree.updateLeaves_correct PoseidonT3.hash ZERO_VALUE _ hwrites _ List.prefix_rfl).1
  rw [hroot, leavesAfter, List.foldl_cons, List.foldl_cons, List.foldl_nil, hback]

end ShadeTree.Contracts
