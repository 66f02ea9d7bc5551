import Mathlib.Data.Set.Function
import ShadeTree.Lib.Patricia

/-!
# Merkle-Patricia proofs (`verifyMptProof` in `lib/root-provider.mjs`)

The nodes that come with a proof are indexed by their hashes, and the walk goes down from the trusted root along the
hashed key.  A 0x-hex string stands here as its bytes, `"0x"` as no bytes.  `keccak256` and `decodeRlp` come from a
package and are parameters.
-/

namespace ShadeTree.Roots

open Function (update update_self update_of_ne)
open ShadeTree.Lib

abbrev toNibbles (bytes : Bytes) : List Nibble := unpack bytes

/-- `decodeCompactPath`: the path, and whether the node is a leaf. -/
def decodeCompactPath : Bytes → List Nibble × Bool
  | [] => ([], false)
  | first :: rest =>
    let flag := (Nibble.high first).val
    ((if flag &&& 1 ≠ 0 then [Nibble.low first] else []) ++ unpack rest, decide (flag &&& 2 ≠ 0))

/-- `"0x"`, the empty child. -/
def isEmptyChild : Rlp → Bool
  | .str bytes => bytes.isEmpty
  | .list _ => false

section Walk

variable (byHash : Bytes → Option Rlp)

/-- The node that is expected: looked up by its hash, or embedded. -/
def expectedNode : Rlp → Option Rlp
  | .str hash => byHash hash
  | .list items => some (.list items)

/-- The loop of `verifyMptProof`, with `steps` to go; `key` is the key from `i` on. -/
def walk : ℕ → Rlp → List Nibble → Except String (Option Rlp)
  | 0, _, _ => .error "mpt: proof did not terminate"
  | steps + 1, expected, key =>
    if isEmptyChild expected then .ok none
    else
      match expectedNode byHash expected with
      | none => .error "mpt: proof node missing for referenced hash"
      | some (.str _) => .error "mpt: malformed node"
      | some (.list items) =>
        if items.length = 17 then
          match key with
          | [] => .ok items[16]?
          | nibble :: key' =>
            let child := items.getD nibble (.str [])
            if isEmptyChild child then .ok none else walk steps child key'
        else
          match items with
          | [.str encoded, next] =>
            let compact := decodeCompactPath encoded
            if compact.1.isPrefixOf key then
              let key' := key.drop compact.1.length
              if compact.2 then .ok (if key' = [] then some next else none) else walk steps next key'
            else .ok none
          | [.list _, _] => .error "invalid BytesLike value"
          | _ => .error "mpt: malformed node"

end Walk

section Verify

variable (keccak256 : Bytes → Vector UInt8 32) (decodeRlp : Bytes → Except String Rlp)

/-- The loop that fills `byHash`; an entry that is no hex string makes the package throw. -/
def indexNodes : (Bytes → Option Rlp) → List (Except String Bytes) → Except String (Bytes → Option Rlp)
  | byHash, [] => .ok byHash
  | byHash, n :: nodesHex =>
    match n with
    | .error msg => .error msg
    | .ok bytes =>
      match decodeRlp bytes with
      | .error msg => .error msg
      | .ok node => indexNodes (update byHash (keccak256 bytes).toList (some node)) nodesHex

/-- `verifyMptProof(rootHex, keyBytesHex, nodesHex)`: the value field, or `none` for a proof of absence. -/
def verifyMptProof (rootHex keyBytesHex : Bytes) (nodesHex : List (Except String Bytes)) :
    Except String (Option Rlp) :=
  match indexNodes keccak256 decodeRlp (fun _ => none) nodesHex with
  | .error msg => .error msg
  | .ok byHash =>
    let key := toNibbles (keccak256 keyBytesHex).toList
    walk byHash (key.length + 4) (.str rootHex) key

end Verify

/-! ### What the decoders read -/

lemma decodeCompactPath_hexPrefix (leaf : Bool) (path : List Nibble) :
    decodeCompactPath (hexPrefix leaf path) = (path, leaf) := by
  by_cases heven : path.length % 2 = 0
  · rw [hexPrefix_even heven]
    cases leaf <;> simp [decodeCompactPath, unpack_pack path heven]
  · cases path with
    | nil => exact absurd rfl heven
    | cons n rest =>
      have hrest : rest.length % 2 = 0 := by
        rw [List.length_cons] at heven
        omega
      rw [hexPrefix_odd hrest]
      cases leaf <;> simp [decodeCompactPath, unpack_pack rest hrest]

section Index

variable {keccak256 : Bytes → Vector UInt8 32} {decodeRlp : Bytes → Except String Rlp}
  {byHash byHash' : Bytes → Option Rlp} {nodesHex : List (Except String Bytes)}

/-- Every entry is that of a supplied node. -/
lemma indexNodes_some (h : indexNodes keccak256 decodeRlp byHash nodesHex = .ok byHash') {hash : Bytes} {node : Rlp}
    (hnode : byHash' hash = some node) : byHash hash = some node ∨
      ∃ bytes, Except.ok bytes ∈ nodesHex ∧ (keccak256 bytes).toList = hash ∧ decodeRlp bytes = .ok node := by
  induction nodesHex generalizing byHash with
  | nil =>
    obtain rfl := Except.ok.inj h
    exact .inl hnode
  | cons n rest ih =>
    cases n with
    | error msg => simp [indexNodes] at h
    | ok bytes =>
      cases hdec : decodeRlp bytes with
      | error msg => simp [indexNodes, hdec] at h
      | ok r =>
        simp only [indexNodes, hdec] at h
        rcases ih h with hupd | ⟨bytes', hmem, hrest⟩
        · by_cases heq : hash = (keccak256 bytes).toList
          · subst heq
            rw [update_self] at hupd
            obtain rfl := Option.some.inj hupd
            exact .inr ⟨bytes, List.mem_cons_self, rfl, hdec⟩
          · rw [update_of_ne heq] at hupd
            exact .inl hupd
        · exact .inr ⟨bytes', List.mem_cons_of_mem _ hmem, hrest⟩

/-- Every supplied node has an entry. -/
lemma indexNodes_known (h : indexNodes keccak256 decodeRlp byHash nodesHex = .ok byHash') {bytes : Bytes}
    (hmem : byHash (keccak256 bytes).toList ≠ none ∨ Except.ok bytes ∈ nodesHex) :
    byHash' (keccak256 bytes).toList ≠ none := by
  induction nodesHex generalizing byHash with
  | nil =>
    obtain rfl := Except.ok.inj h
    simpa using hmem
  | cons n rest ih =>
    cases n with
    | error msg => simp [indexNodes] at h
    | ok bytes' =>
      cases hdec : decodeRlp bytes' with
      | error msg => simp [indexNodes, hdec] at h
      | ok r =>
        simp only [indexNodes, hdec] at h
        refine ih h ?_
        by_cases heq : (keccak256 bytes).toList = (keccak256 bytes').toList
        · exact .inl (by simp [heq])
        · rcases hmem with hmem | hmem
          · exact .inl (by rwa [update_of_ne heq])
          · rcases List.mem_cons.mp hmem with hsame | hmem
            · obtain rfl := Except.ok.inj hsame
              exact absurd rfl heq
            · exact .inr hmem

/-- Nodes that decode can be indexed. -/
lemma indexNodes_ok (h : ∀ n ∈ nodesHex, ∃ bytes node, n = .ok bytes ∧ decodeRlp bytes = .ok node) :
    ∃ byHash', indexNodes keccak256 decodeRlp byHash nodesHex = .ok byHash' := by
  induction nodesHex generalizing byHash with
  | nil => exact ⟨_, rfl⟩
  | cons n rest ih =>
    obtain ⟨bytes, node, rfl, hdec⟩ := h n List.mem_cons_self
    simp only [indexNodes, hdec]
    exact ih fun m hm => h m (List.mem_cons_of_mem _ hm)

end Index

/-! ### The walk follows the trie -/

section Follow

variable {keccak256 : Bytes → Vector UInt8 32} {byHash : Bytes → Option Rlp} {u : Trie} {key : List Nibble}
  {steps : ℕ} {expected : Rlp}

/-- What names a node: its own item, or its hash. -/
def Names (keccak256 : Bytes → Vector UInt8 32) (expected : Rlp) (u : Trie) : Prop :=
  expected = u.item keccak256 ∨ u ≠ .empty ∧ expected = .str (u.digest keccak256)

lemma names_reference (u : Trie) : Names keccak256 (Trie.reference keccak256 (u.item keccak256)) u := by
  by_cases hu : u = .empty
  · subst hu
    exact .inl (Trie.reference_empty keccak256)
  · rcases Trie.reference_cases keccak256 u with ⟨-, h⟩ | ⟨-, h⟩
    · exact .inl h
    · exact .inr ⟨hu, h⟩

lemma item_list (hu : u ≠ .empty) : ∃ items, u.item keccak256 = .list items := by
  cases u with
  | empty => exact absurd rfl hu
  | leaf path value => exact ⟨_, rfl⟩
  | extension path child => exact ⟨_, rfl⟩
  | branch children => exact ⟨_, rfl⟩

lemma isEmptyChild_digest (u : Trie) : isEmptyChild (.str (u.digest keccak256)) = false := by
  have hlen := Trie.length_digest keccak256 u
  cases hd : u.digest keccak256 with
  | nil =>
    rw [hd] at hlen
    simp at hlen
  | cons b bs => rfl

lemma isEmptyChild_reference (u : Trie) :
    isEmptyChild (Trie.reference keccak256 (u.item keccak256)) = true ↔ u = .empty := by
  by_cases hu : u = .empty
  · subst hu
    simp [Trie.reference_empty, isEmptyChild]
  · simp only [hu, iff_false, Bool.not_eq_true]
    obtain ⟨items, hitems⟩ : ∃ items, u.item keccak256 = .list items := item_list hu
    rcases Trie.reference_cases keccak256 u with ⟨-, h⟩ | ⟨-, h⟩
    · rw [h, hitems]
      rfl
    · rw [h]
      exact isEmptyChild_digest u

/-- A named node is found, unless it is named by a hash that is missing. -/
lemma Names.expectedNode (h : Names keccak256 expected u) (hu : u ≠ .empty)
    (hhash : ∀ r, byHash (u.digest keccak256) = some r → r = u.item keccak256) :
    isEmptyChild expected = false ∧
      (expectedNode byHash expected = some (u.item keccak256) ∨
        expected = .str (u.digest keccak256) ∧ byHash (u.digest keccak256) = none) := by
  rcases h with rfl | ⟨-, rfl⟩
  · obtain ⟨items, hitems⟩ : ∃ items, u.item keccak256 = .list items := item_list hu
    rw [hitems]
    exact ⟨rfl, .inl rfl⟩
  · refine ⟨isEmptyChild_digest u, ?_⟩
    cases hfound : byHash (u.digest keccak256) with
    | none => exact .inr ⟨rfl, rfl⟩
    | some r => exact .inl (by rw [Roots.expectedNode, hfound, hhash r hfound])

lemma walk_missing (hempty : isEmptyChild expected = false) (hnode : expectedNode byHash expected = none) :
    walk byHash (steps + 1) expected key = .error "mpt: proof node missing for referenced hash" := by
  simp [walk, hempty, hnode]

lemma walk_leaf {path : List Nibble} {value : Rlp} (hempty : isEmptyChild expected = false)
    (hnode : expectedNode byHash expected = some (.list [.str (hexPrefix true path), value])) :
    walk byHash (steps + 1) expected key = .ok (if key = path then some value else none) := by
  have h17 : ¬ [Rlp.str (hexPrefix true path), value].length = 17 := by simp
  simp only [walk, hempty, hnode, h17, decodeCompactPath_hexPrefix, Bool.false_eq_true, if_false, if_true]
  by_cases hpre : path.isPrefixOf key = true
  · obtain ⟨rest, rfl⟩ := List.isPrefixOf_iff_prefix.mp hpre
    simp [hpre]
  · rw [if_neg hpre, if_neg]
    rintro rfl
    exact hpre (List.isPrefixOf_iff_prefix.mpr (List.prefix_refl _))

lemma walk_extension {path : List Nibble} {next : Rlp} (hempty : isEmptyChild expected = false)
    (hnode : expectedNode byHash expected = some (.list [.str (hexPrefix false path), next])) :
    walk byHash (steps + 1) expected key =
      if path.isPrefixOf key then walk byHash steps next (key.drop path.length) else .ok none := by
  have h17 : ¬ [Rlp.str (hexPrefix false path), next].length = 17 := by simp
  simp only [walk, hempty, hnode, h17, decodeCompactPath_hexPrefix, Bool.false_eq_true, if_false]

lemma walk_branch {children : Nibble → Rlp} {nibble : Nibble} (hempty : isEmptyChild expected = false)
    (hnode : expectedNode byHash expected = some (.list (List.ofFn children ++ [.str []]))) :
    walk byHash (steps + 1) expected (nibble :: key) =
      if isEmptyChild (children nibble) then .ok none else walk byHash steps (children nibble) key := by
  have h17 : (List.ofFn children ++ [Rlp.str []]).length = 17 := by simp
  have hget : (List.ofFn children ++ [Rlp.str []]).getD nibble (.str []) = children nibble := by
    have hlt : (nibble : ℕ) < (List.ofFn children).length := by simp
    rw [List.getD_eq_getElem?_getD, List.getElem?_append_left hlt, List.getElem?_ofFn]
    simp
  simp only [walk, hempty, hnode, h17, hget, Bool.false_eq_true, if_false, if_true]

/-- A child that is missing under its hash is one that was not embedded. -/
lemma not_embedded {c v : Trie} (hv : v ∈ c.path key)
    (h : 32 ≤ (v.item keccak256).encode.length ∨
      v = c ∧ Trie.reference keccak256 (c.item keccak256) = .str (c.digest keccak256)) :
    32 ≤ (v.item keccak256).encode.length := by
  rcases h with h | ⟨rfl, h⟩
  · exact h
  · rcases Trie.reference_cases keccak256 v with ⟨-, hitem⟩ | ⟨hlen, -⟩
    · have hne : v ≠ .empty := by
        rintro rfl
        simp [Trie.path] at hv
      obtain ⟨items, hitems⟩ : ∃ items, v.item keccak256 = .list items := item_list hne
      rw [hitem, hitems] at h
      cases h
    · exact hlen

/-- **The walk** at a node of the trie gives what the trie holds at the rest of the key; a node missing among those
supplied stops it. -/
lemma walk_follows (hname : Names keccak256 expected u) (hkeyed : u.Keyed key.length) (hsteps : key.length < steps)
    (hhash : ∀ v ∈ u.path key, ∀ r, byHash (v.digest keccak256) = some r → r = v.item keccak256) :
    walk byHash steps expected key = .ok ((u.get key).map .str) ∨
      walk byHash steps expected key = .error "mpt: proof node missing for referenced hash" ∧
        ∃ v ∈ u.path key, byHash (v.digest keccak256) = none ∧
          (32 ≤ (v.item keccak256).encode.length ∨ v = u ∧ expected = .str (u.digest keccak256)) := by
  induction u generalizing key steps expected with
  | empty =>
    obtain ⟨n, rfl⟩ := Nat.exists_eq_add_of_lt hsteps
    obtain rfl : expected = .str [] := by simpa [Names, Trie.item] using hname
    exact .inl rfl
  | leaf path value =>
    obtain ⟨n, rfl⟩ : ∃ n, steps = n + 1 := ⟨steps - 1, by omega⟩
    obtain ⟨hempty, hnode | ⟨hexp, hnone⟩⟩ := hname.expectedNode (by simp) (hhash _ List.mem_cons_self)
    · rw [walk_leaf hempty hnode]
      left
      simp only [Trie.get]
      split <;> rfl
    · subst hexp
      exact .inr ⟨walk_missing hempty hnone, _, List.mem_cons_self, hnone, .inr ⟨rfl, rfl⟩⟩
  | extension path child ih =>
    obtain ⟨n, rfl⟩ : ∃ n, steps = n + 1 := ⟨steps - 1, by omega⟩
    obtain ⟨hempty, hnode | ⟨hexp, hnone⟩⟩ := hname.expectedNode (by simp) (hhash _ List.mem_cons_self)
    · rw [walk_extension hempty hnode]
      by_cases hpre : path.isPrefixOf key = true
      · obtain ⟨hpath, hle, hchild⟩ := hkeyed
        have hpos : 0 < path.length := List.length_pos_iff.mpr hpath
        have hlen : (key.drop path.length).length = key.length - path.length := List.length_drop
        have hlt : (key.drop path.length).length < n := by omega
        have hmem : ∀ v ∈ child.path (key.drop path.length), v ∈ (Trie.extension path child).path key := by
          intro v hv
          simp only [Trie.path, hpre, if_true]
          exact List.mem_cons_of_mem _ hv
        simp only [hpre, if_true, Trie.get]
        rcases ih (names_reference child) (hlen ▸ hchild) hlt (fun v hv => hhash v (hmem v hv)) with
          hok | ⟨herr, v, hv, hnone, hbig⟩
        · exact .inl hok
        · exact .inr ⟨herr, v, hmem v hv, hnone, .inl (not_embedded hv hbig)⟩
      · left
        simp [hpre, Trie.get]
    · subst hexp
      exact .inr ⟨walk_missing hempty hnone, _, List.mem_cons_self, hnone, .inr ⟨rfl, rfl⟩⟩
  | branch children ih =>
    obtain ⟨n, rfl⟩ : ∃ n, steps = n + 1 := ⟨steps - 1, by omega⟩
    cases key with
    | nil => exact hkeyed.elim
    | cons nibble key =>
      obtain ⟨hempty, hnode | ⟨hexp, hnone⟩⟩ := hname.expectedNode (by simp) (hhash _ List.mem_cons_self)
      · rw [walk_branch hempty hnode]
        have hmem : ∀ v ∈ (children nibble).path key, v ∈ (Trie.branch children).path (nibble :: key) :=
          fun v hv => List.mem_cons_of_mem _ hv
        by_cases hchild : children nibble = .empty
        · rw [if_pos ((isEmptyChild_reference _).mpr hchild)]
          left
          simp [Trie.get, hchild]
        · rw [if_neg fun h => hchild ((isEmptyChild_reference _).mp h)]
          have hlt : key.length < n := by simpa using hsteps
          rcases ih nibble (names_reference _) (hkeyed nibble) hlt (fun v hv => hhash v (hmem v hv)) with
            hok | ⟨herr, v, hv, hnone, hbig⟩
          · exact .inl hok
          · exact .inr ⟨herr, v, hmem v hv, hnone, .inl (not_embedded hv hbig)⟩
      · subst hexp
        exact .inr ⟨walk_missing hempty hnone, _, List.mem_cons_self, hnone, .inr ⟨rfl, rfl⟩⟩

end Follow

/-! ### Proofs against a root -/

section Proofs

variable (keccak256 : Bytes → Vector UInt8 32)

/-- Where the value of a key is in the trie. -/
def keyPath (key : Bytes) : List Nibble := toNibbles (keccak256 key).toList

lemma length_keyPath (key : Bytes) : (keyPath keccak256 key).length = 64 := by
  simp [keyPath, length_unpack]

/-- The nodes of the trie on the way to a key, as bytes. -/
def nodesOf (t : SecureTrie) (key : Bytes) : Set Bytes :=
  {bytes | ∃ u ∈ t.trie.path (keyPath keccak256 key), bytes = (u.item keccak256).encode}

/-- The nodes that come with a proof. -/
def supplied (nodesHex : List (Except String Bytes)) : Set Bytes := {bytes | Except.ok bytes ∈ nodesHex}

/-- The nodes an honest node sends. -/
def honestProof (t : SecureTrie) (key : Bytes) : List (Except String Bytes) :=
  (t.trie.proof keccak256 (keyPath keccak256 key)).map .ok

variable {keccak256} {decodeRlp : Bytes → Except String Rlp} {t : SecureTrie} {key : Bytes}
  {nodesHex : List (Except String Bytes)}

/-- **One proof.** The answer is what the trie holds, or the proof is refused; it is refused only where a node does
not decode, or one that the proof has to hold is missing. -/
lemma verifyMptProof_cases (hdecode : ∀ u ∈ t.trie.path (keyPath keccak256 key),
      decodeRlp (u.item keccak256).encode = .ok (u.item keccak256))
    (hinj : Set.InjOn keccak256 (supplied nodesHex ∪ nodesOf keccak256 t key)) :
    verifyMptProof keccak256 decodeRlp (t.trie.root keccak256) key nodesHex =
        .ok ((t.trie.get (keyPath keccak256 key)).map .str) ∨
      (∃ msg, verifyMptProof keccak256 decodeRlp (t.trie.root keccak256) key nodesHex = .error msg) ∧
        ((∃ n ∈ nodesHex, ∀ bytes node, n = .ok bytes → decodeRlp bytes ≠ .ok node) ∨
          ∃ bytes ∈ t.trie.proof keccak256 (keyPath keccak256 key), Except.ok bytes ∉ nodesHex) := by
  unfold verifyMptProof
  cases hidx : indexNodes keccak256 decodeRlp (fun _ => none) nodesHex with
  | error msg =>
    refine .inr ⟨⟨msg, rfl⟩, .inl ?_⟩
    by_contra hall
    push Not at hall
    obtain ⟨byHash', hok⟩ : ∃ byHash', indexNodes keccak256 decodeRlp (fun _ => none) nodesHex = .ok byHash' :=
      indexNodes_ok hall
    rw [hidx] at hok
    cases hok
  | ok byHash =>
    have hkey : (keyPath keccak256 key).length = 64 := length_keyPath keccak256 key
    have hhash : ∀ v ∈ t.trie.path (keyPath keccak256 key), ∀ r,
        byHash (v.digest keccak256) = some r → r = v.item keccak256 := by
      intro v hv r hr
      obtain hnone | ⟨bytes, hmem, hsame, hdec⟩ := indexNodes_some hidx hr
      · cases hnone
      · have hbytes : bytes = (v.item keccak256).encode :=
          hinj (.inl hmem) (.inr ⟨v, hv, rfl⟩) (Vector.toList_inj.mp hsame)
        rw [hbytes, hdecode v hv] at hdec
        exact (Except.ok.inj hdec).symm
    rcases walk_follows (.inr ⟨t.nonempty, rfl⟩) (hkey ▸ t.keyed)
      (Nat.lt_add_of_pos_right (by decide : 0 < 4)) hhash with hok | ⟨herr, v, hv, hnone, hbig⟩
    · exact .inl hok
    · refine .inr ⟨⟨_, herr⟩, .inr ⟨(v.item keccak256).encode, ?_, fun hmem => ?_⟩⟩
      · obtain ⟨below, hpath⟩ := Trie.path_ne_nil t.nonempty (keyPath keccak256 key)
        have hproof : (t.trie.item keccak256).encode ∈ t.trie.proof keccak256 (keyPath keccak256 key) ∧
            ∀ u ∈ below, 32 ≤ (u.item keccak256).encode.length →
              (u.item keccak256).encode ∈ t.trie.proof keccak256 (keyPath keccak256 key) := Trie.mem_proof hpath
        rw [hpath] at hv
        rcases List.mem_cons.mp hv with rfl | hv
        · exact hproof.1
        · rcases hbig with hbig | ⟨rfl, -⟩
          · exact hproof.2 v hv hbig
          · exact hproof.1
      · exact indexNodes_known hidx (.inr hmem) hnone

/-- The honest proof is never refused. -/
lemma verifyMptProof_honest (hdecode : ∀ u ∈ t.trie.path (keyPath keccak256 key),
      decodeRlp (u.item keccak256).encode = .ok (u.item keccak256))
    (hinj : Set.InjOn keccak256 (nodesOf keccak256 t key)) :
    verifyMptProof keccak256 decodeRlp (t.trie.root keccak256) key (honestProof keccak256 t key) =
      .ok ((t.trie.get (keyPath keccak256 key)).map .str) := by
  have hsub : supplied (honestProof keccak256 t key) ∪ nodesOf keccak256 t key ⊆ nodesOf keccak256 t key := by
    rintro bytes (hmem | hmem)
    · obtain ⟨bytes', hproof, hsame⟩ := List.mem_map.mp hmem
      obtain rfl := Except.ok.inj hsame
      exact Trie.of_mem_proof hproof
    · exact hmem
  obtain hok | ⟨-, ⟨n, hn, hbad⟩ | ⟨bytes, hproof, hmissing⟩⟩ := verifyMptProof_cases hdecode (hinj.mono hsub)
  · exact hok
  · obtain ⟨bytes, hproof, rfl⟩ := List.mem_map.mp hn
    obtain ⟨u, hu, rfl⟩ := Trie.of_mem_proof hproof
    exact absurd (hdecode u hu) (hbad _ _ rfl)
  · exact absurd (List.mem_map_of_mem hproof) hmissing

/-- The trie of one key. -/
def soleTrie (keccak256 : Bytes → Vector UInt8 32) (key value : Bytes) : SecureTrie :=
  ⟨.leaf (keyPath keccak256 key) value, length_keyPath keccak256 key, by simp⟩

lemma sole_get {value : Bytes} : (soleTrie keccak256 key value).trie.get (keyPath keccak256 key) = some value := by
  simp [soleTrie, Trie.get]

lemma sole_decode {value : Bytes}
    (h : decodeRlp ((soleTrie keccak256 key value).trie.item keccak256).encode =
      .ok ((soleTrie keccak256 key value).trie.item keccak256)) :
    ∀ u ∈ (soleTrie keccak256 key value).trie.path (keyPath keccak256 key),
      decodeRlp (u.item keccak256).encode = .ok (u.item keccak256) := by
  intro u hu
  obtain rfl := List.mem_singleton.mp hu
  exact h

lemma sole_injOn {value : Bytes} : Set.InjOn keccak256 (nodesOf keccak256 (soleTrie keccak256 key value) key) := by
  rintro a ⟨u, hu, rfl⟩ b ⟨v, hv, rfl⟩ -
  rw [List.mem_singleton.mp hu, List.mem_singleton.mp hv]

end Proofs

/-- **Proofs of one root.** For every trie and every key the honest proof gives the stored value, or absence exactly
when nothing is stored under the key, and any other list of nodes gives the same answer or is refused. -/
theorem verifyMptProof_correct (keccak256 : Bytes → Vector UInt8 32) (decodeRlp : Bytes → Except String Rlp)
    (t : SecureTrie) (key : Bytes)
    (hdecode : ∀ u ∈ t.trie.path (keyPath keccak256 key),
      decodeRlp (u.item keccak256).encode = .ok (u.item keccak256))
    (hinj : Set.InjOn keccak256 (nodesOf keccak256 t key)) :
    ∃ stored : Option Bytes, (∀ value, stored = some value ↔ t.trie.Stores (keyPath keccak256 key) value) ∧
      verifyMptProof keccak256 decodeRlp (t.trie.root keccak256) key (honestProof keccak256 t key) =
        .ok (stored.map .str) ∧
      ∀ nodesHex, Set.InjOn keccak256 (supplied nodesHex ∪ nodesOf keccak256 t key) →
        verifyMptProof keccak256 decodeRlp (t.trie.root keccak256) key nodesHex = .ok (stored.map .str) ∨
          ∃ msg, verifyMptProof keccak256 decodeRlp (t.trie.root keccak256) key nodesHex = .error msg := by
  refine ⟨t.trie.get (keyPath keccak256 key), fun value => Trie.get_eq_some_iff, verifyMptProof_honest hdecode hinj,
    fun nodesHex hinj' => ?_⟩
  rcases verifyMptProof_cases hdecode hinj' with hok | ⟨herr, -⟩
  · exact .inl hok
  · exact .inr herr

/-- The key of a storage slot. -/
def slotKey (slot : UInt8) : Bytes := List.replicate 31 0 ++ [slot]

/-- The hash of the key of slot 3. -/
def slotThreeHash : Vector UInt8 32 :=
  #v[194, 87, 90, 14, 158, 89, 60, 0, 249, 89, 248, 201, 47, 18, 219, 40, 105, 195, 57, 90, 59, 5, 2, 208, 94, 37, 22,
    68, 111, 113, 248, 91]

/-- The one node of a storage trie that holds 5 in slot 3 and nothing else. -/
def sampleNode : Rlp := .list [.str (0x20 :: slotThreeHash.toList), .str [5]]

/-- `keccak256` on the key of slot 3 and on the node of the sample. -/
def sampleKeccak (bytes : Bytes) : Vector UInt8 32 :=
  if bytes = slotKey 3 then slotThreeHash
  else if bytes = sampleNode.encode then
    #v[53, 115, 251, 68, 230, 91, 59, 14, 4, 144, 67, 15, 170, 57, 210, 25, 150, 6, 13, 135, 86, 8, 47, 37, 44, 153,
      149, 47, 106, 16, 39, 39]
  else Vector.replicate 32 0

/-- `decodeRlp` on the node of the sample. -/
def sampleDecode (bytes : Bytes) : Except String Rlp :=
  if bytes = sampleNode.encode then .ok sampleNode else .error "invalid rlp data"

/-- Slot 3 of that trie is proved. -/
theorem verifyMptProof_correct_slot :
    verifyMptProof sampleKeccak sampleDecode ((soleTrie sampleKeccak (slotKey 3) [5]).trie.root sampleKeccak)
      (slotKey 3) (honestProof sampleKeccak (soleTrie sampleKeccak (slotKey 3) [5]) (slotKey 3)) =
        .ok (some (.str [5])) := by
  have hitem : (soleTrie sampleKeccak (slotKey 3) [5]).trie.item sampleKeccak = sampleNode := rfl
  obtain ⟨stored, hstored, hhonest, -⟩ := verifyMptProof_correct sampleKeccak sampleDecode
    (soleTrie sampleKeccak (slotKey 3) [5]) (slotKey 3) (sole_decode (by rw [hitem]; exact if_pos rfl)) sole_injOn
  have hfive : stored = some [5] := (hstored [5]).mpr .leaf
  rw [hhonest, hfive]
  rfl

end ShadeTree.Roots
