import Mathlib.Data.List.OfFn
import Mathlib.Data.Nat.Digits.Defs
import Mathlib.Logic.Function.Basic
import Mathlib.Tactic.Common

/-!
# Merkle-Patricia tries

A trie of radix 16 whose nodes are written down as RLP items.  A node names its child by the child itself when that
is shorter than 32 bytes, and by its hash otherwise.  All keys of a trie have one length here, as they do where keys
are hashes; so no key ends at a branch, and the value of a branch is always empty.
-/

namespace ShadeTree.Lib

abbrev Bytes := List UInt8

/-- A number in as few bytes as it needs. -/
def bigEndian (n : ℕ) : Bytes := (Nat.digits 256 n).reverse.map UInt8.ofNat

def fromBigEndian (bytes : Bytes) : ℕ := Nat.ofDigits 256 (bytes.reverse.map UInt8.toNat)

lemma fromBigEndian_bigEndian (n : ℕ) : fromBigEndian (bigEndian n) = n := by
  have hdigits : ((bigEndian n).reverse.map UInt8.toNat) = Nat.digits 256 n := by
    simp only [bigEndian, List.map_reverse, List.reverse_reverse, List.map_map]
    refine (List.map_congr_left fun d hd => ?_).trans (List.map_id _)
    have hlt : d < 256 := Nat.digits_lt_base (by decide) hd
    simp [Nat.mod_eq_of_lt hlt]
  rw [fromBigEndian, hdigits, Nat.ofDigits_digits]

lemma bigEndian_ne_nil {n : ℕ} (h : n ≠ 0) : bigEndian n ≠ [] := by
  simpa [bigEndian, Nat.digits_eq_nil_iff_eq_zero] using h

/-! ### RLP -/

/-- What RLP writes down: byte strings, and lists of items. -/
inductive Rlp where
  | str (bytes : Bytes)
  | list (items : List Rlp)

/-- The bytes before a payload of length `n`. -/
def Rlp.header (short n : ℕ) : Bytes :=
  if n < 56 then [UInt8.ofNat (short + n)]
  else UInt8.ofNat (short + 55 + (bigEndian n).length) :: bigEndian n

mutual

def Rlp.encode : Rlp → Bytes
  | .str bytes =>
    match bytes with
    | [b] => if b < 0x80 then [b] else Rlp.header 0x80 1 ++ [b]
    | bytes => Rlp.header 0x80 bytes.length ++ bytes
  | .list items => Rlp.header 0xc0 (Rlp.encodeAll items).length ++ Rlp.encodeAll items

def Rlp.encodeAll : List Rlp → Bytes
  | [] => []
  | r :: rs => r.encode ++ Rlp.encodeAll rs

end

/-! ### Nibbles -/

abbrev Nibble := Fin 16

/-- `b >> 4`. -/
def Nibble.high (b : UInt8) : Nibble := ⟨b.toNat / 16, by have := b.toNat_lt; omega⟩

/-- `b & 0x0f`. -/
def Nibble.low (b : UInt8) : Nibble := ⟨b.toNat % 16, by omega⟩

/-- The byte of two nibbles. -/
def Nibble.join (hi lo : Nibble) : UInt8 := UInt8.ofNat (16 * hi + lo)

@[simp] lemma Nibble.high_join (hi lo : Nibble) : Nibble.high (Nibble.join hi lo) = hi := by
  apply Fin.ext
  simp only [high, join, UInt8.toNat_ofNat']
  omega

@[simp] lemma Nibble.low_join (hi lo : Nibble) : Nibble.low (Nibble.join hi lo) = lo := by
  apply Fin.ext
  simp only [low, join, UInt8.toNat_ofNat']
  omega

/-- The nibbles of some bytes, each byte's high one first. -/
def unpack (bytes : Bytes) : List Nibble := bytes.flatMap fun b => [Nibble.high b, Nibble.low b]

/-- The bytes of an even number of nibbles. -/
def pack : List Nibble → Bytes
  | hi :: lo :: rest => Nibble.join hi lo :: pack rest
  | _ => []

@[simp] lemma unpack_nil : unpack [] = [] := rfl

@[simp] lemma unpack_cons (b : UInt8) (bs : Bytes) :
    unpack (b :: bs) = Nibble.high b :: Nibble.low b :: unpack bs := rfl

lemma length_unpack (bytes : Bytes) : (unpack bytes).length = 2 * bytes.length := by
  induction bytes with
  | nil => rfl
  | cons b bs ih =>
    simp only [unpack_cons, List.length_cons, ih]
    omega

lemma unpack_pack (path : List Nibble) (h : path.length % 2 = 0) : unpack (pack path) = path := by
  induction path using pack.induct with
  | case1 hi lo rest ih =>
    simp only [List.length_cons] at h
    simp [pack, ih (by omega)]
  | case2 path hne =>
    match path, hne, h with
    | [], _, _ => rfl
    | [a], _, h => simp at h
    | a :: b :: rest, hne, _ => exact absurd rfl (hne a b rest)

/-- The hex-prefix encoding of a path: a flag for what the node is and for the parity of the path, then the path. -/
def hexPrefix (leaf : Bool) (path : List Nibble) : Bytes :=
  let flag : Nibble := if leaf then 2 else 0
  if path.length % 2 = 0 then Nibble.join flag 0 :: pack path
  else Nibble.join (flag + 1) (path.headD 0) :: pack path.tail

lemma hexPrefix_even {leaf : Bool} {path : List Nibble} (h : path.length % 2 = 0) :
    hexPrefix leaf path = Nibble.join (if leaf then 2 else 0) 0 :: pack path := if_pos h

lemma hexPrefix_odd {leaf : Bool} {n : Nibble} {rest : List Nibble} (h : rest.length % 2 = 0) :
    hexPrefix leaf (n :: rest) = Nibble.join ((if leaf then 2 else 0) + 1) n :: pack rest := by
  refine if_neg ?_
  rw [List.length_cons]
  omega

/-! ### Tries -/

inductive Trie where
  | empty
  | leaf (path : List Nibble) (value : Bytes)
  | extension (path : List Nibble) (child : Trie)
  | branch (children : Nibble → Trie)

namespace Trie

/-- The value at a key. -/
def get : Trie → List Nibble → Option Bytes
  | .empty, _ => none
  | .leaf path value, key => if key = path then some value else none
  | .extension path child, key => if path.isPrefixOf key then child.get (key.drop path.length) else none
  | .branch _, [] => none
  | .branch children, n :: key => (children n).get key

/-- The trie stores the value under the key. -/
inductive Stores : Trie → List Nibble → Bytes → Prop
  | leaf {path : List Nibble} {value : Bytes} : Stores (.leaf path value) path value
  | extension {path key : List Nibble} {child : Trie} {value : Bytes} (h : Stores child key value) :
      Stores (.extension path child) (path ++ key) value
  | branch {n : Nibble} {key : List Nibble} {children : Nibble → Trie} {value : Bytes}
      (h : Stores (children n) key value) : Stores (.branch children) (n :: key) value

/-- All keys have length `n`, and no extension is void. -/
def Keyed : ℕ → Trie → Prop
  | _, .empty => True
  | n, .leaf path _ => path.length = n
  | n, .extension path child => path ≠ [] ∧ path.length ≤ n ∧ Keyed (n - path.length) child
  | 0, .branch _ => False
  | n + 1, .branch children => ∀ i, Keyed n (children i)

lemma get_eq_some_iff {t : Trie} {key : List Nibble} {value : Bytes} :
    t.get key = some value ↔ t.Stores key value := by
  constructor
  · induction t generalizing key with
    | empty => simp [get]
    | leaf path v =>
      simp only [get, Option.ite_none_right_eq_some, Option.some.injEq]
      rintro ⟨rfl, rfl⟩
      exact .leaf
    | extension path child ih =>
      intro h
      simp only [get, Option.ite_none_right_eq_some, List.isPrefixOf_iff_prefix] at h
      obtain ⟨⟨rest, rfl⟩, h⟩ := h
      rw [List.drop_left] at h
      exact .extension (ih h)
    | branch children ih =>
      intro h
      cases key with
      | nil => simp [get] at h
      | cons n key => exact .branch (ih n h)
  · intro h
    induction h with
    | leaf => simp [get]
    | extension h ih => simpa [get] using ih
    | branch h ih => simpa [get] using ih

/-- The nodes on the way to a key, as far as the trie goes. -/
def path : Trie → List Nibble → List Trie
  | .empty, _ => []
  | .leaf path value, _ => [.leaf path value]
  | .extension path child, key =>
    .extension path child :: if path.isPrefixOf key then child.path (key.drop path.length) else []
  | .branch children, [] => [.branch children]
  | .branch children, n :: key => .branch children :: (children n).path key

section Commit

variable (hash : Bytes → Vector UInt8 32)

/-- How a node is named in its parent. -/
def reference (node : Rlp) : Rlp :=
  if node.encode.length < 32 then node else .str (hash node.encode).toList

/-- The RLP item of a node. -/
def item : Trie → Rlp
  | .empty => .str []
  | .leaf path value => .list [.str (hexPrefix true path), .str value]
  | .extension path child => .list [.str (hexPrefix false path), reference hash child.item]
  | .branch children => .list (List.ofFn (fun n => reference hash (children n).item) ++ [.str []])

/-- What a node hashes to. -/
def digest (t : Trie) : Bytes := (hash (t.item hash).encode).toList

/-- The root commits to the trie. -/
def root (t : Trie) : Bytes := t.digest hash

/-- The proof for a key: the nodes on the way to it, from the root on, without those written inside another. -/
def proof (t : Trie) (key : List Nibble) : List Bytes :=
  match t.path key with
  | [] => []
  | top :: below =>
    (top.item hash).encode ::
      (below.map fun u => (u.item hash).encode).filter fun bytes => decide (32 ≤ bytes.length)

lemma length_digest (t : Trie) : (t.digest hash).length = 32 := by simp [digest]

lemma reference_empty : reference hash (Trie.empty.item hash) = .str [] := by
  have h : (Rlp.str []).encode.length < 32 := by decide
  simp [reference, item, h]

/-- A node is named by itself or by its hash. -/
lemma reference_cases (t : Trie) :
    (((t.item hash).encode.length < 32 ∧ reference hash (t.item hash) = t.item hash)) ∨
      (32 ≤ (t.item hash).encode.length ∧ reference hash (t.item hash) = .str (t.digest hash)) := by
  by_cases h : (t.item hash).encode.length < 32
  · exact .inl ⟨h, if_pos h⟩
  · exact .inr ⟨Nat.not_lt.mp h, if_neg h⟩

variable {hash}

lemma path_ne_nil {t : Trie} (h : t ≠ .empty) (key : List Nibble) : ∃ below, t.path key = t :: below := by
  cases t with
  | empty => exact absurd rfl h
  | leaf path value => exact ⟨_, rfl⟩
  | extension path child => exact ⟨_, rfl⟩
  | branch children => cases key <;> exact ⟨_, rfl⟩

/-- What a proof has to hold, whatever else it holds. -/
lemma mem_proof {t : Trie} {key : List Nibble} {below : List Trie} (h : t.path key = t :: below) :
    (t.item hash).encode ∈ t.proof hash key ∧
      ∀ u ∈ below, 32 ≤ (u.item hash).encode.length → (u.item hash).encode ∈ t.proof hash key := by
  unfold proof
  rw [h]
  refine ⟨List.mem_cons_self, fun u hu hlen => List.mem_cons_of_mem _ ?_⟩
  exact List.mem_filter.mpr ⟨List.mem_map_of_mem hu, by simpa using hlen⟩

/-- A proof holds nodes of the path only. -/
lemma of_mem_proof {t : Trie} {key : List Nibble} {bytes : Bytes} (h : bytes ∈ t.proof hash key) :
    ∃ u ∈ t.path key, bytes = (u.item hash).encode := by
  unfold proof at h
  split at h
  · cases h
  · next top below hpath =>
    rw [hpath]
    rcases List.mem_cons.mp h with rfl | h
    · exact ⟨top, List.mem_cons_self, rfl⟩
    · obtain ⟨u, hu, rfl⟩ := List.mem_map.mp (List.mem_filter.mp h).1
      exact ⟨u, List.mem_cons_of_mem _ hu, rfl⟩

end Commit

end Trie

/-- A trie under keys of 32 bytes that holds something. -/
structure SecureTrie where
  trie : Trie
  keyed : trie.Keyed 64
  nonempty : trie ≠ .empty

end ShadeTree.Lib
