import ShadeTree.Roots.MptProof
import ShadeTree.Roots.Provider

/-!
# What the light provider reads (`LightClientRootProvider` in `lib/root-provider.mjs`)

A refresh takes the state root from the header of the RPC, or from an anchor that it compares the header with, and
proves the account and then the slot of `currentRoot` below it.  With `storageat` the slot is read without a proof.
-/

namespace ShadeTree.Roots

open ShadeTree.Lib

def ROOT_STORAGE_SLOT : UInt8 := 3

/-- The parts of a header that are read. -/
structure Header where
  stateRoot : Bytes
  number : ℕ

/-- What the hook `trustedStateRoot` attests. -/
structure Attested where
  stateRoot : Bytes
  number : Option ℕ

/-- The answer of `eth_getProof` for one slot. -/
structure ProofAnswer where
  accountProof : List (Except String Bytes)
  storageHash : Option Bytes
  value : Option ℕ
  proof : List (Except String Bytes)

/-- The options of the provider; `rpcOrigin` and `stateRootSource` are the names its errors give. -/
structure LightConfig where
  addr : Bytes
  slot : UInt8
  storageat : Bool
  rpcOrigin : String
  stateRootSource : String

/-- What is answered during one refresh: the confirmed tag, the anchor if there is one, the header, the slot, the
proofs. -/
structure LightReads where
  tag : Except String String
  trustedStateRoot : Option (Except String (Option Attested))
  header : Except String (Option Header)
  storageAt : Except String (Option ℕ)
  proof : Except String (Option ProofAnswer)

/-- `"0x" + n.toString(16)`. -/
def hexNumber (n : ℕ) : String := "0x" ++ String.ofList (Nat.toDigits 16 n)

/-- The 0x-hex string of some bytes. -/
def hexBytes (bytes : Bytes) : String :=
  "0x" ++ String.ofList ((unpack bytes).map fun n => Nat.digitChar n)

section Read

variable (keccak256 : Bytes → Vector UInt8 32) (decodeRlp : Bytes → Except String Rlp)

/-- `BigInt(decoded)`, where an array is joined to a string first. -/
def toBigInt : Rlp → Except String ℕ
  | .str [] => .error "Cannot convert 0x to a BigInt"
  | .str bytes => .ok (fromBigEndian bytes)
  | .list [] => .ok 0
  | .list [r] => toBigInt r
  | .list _ => .error "Cannot convert to a BigInt"

/-- The state root a refresh builds on, and the block it is of. -/
def LightConfig.anchor (C : LightConfig) (reads : LightReads) (tag : String) : Except String (Bytes × Option ℕ) :=
  match reads.trustedStateRoot with
  | some (.error msg) => .error msg
  | some (.ok none) => .error "LightClientRootProvider: trustedStateRoot returned no stateRoot"
  | some (.ok (some h)) =>
    match reads.header with
    | .error msg => .error msg
    | .ok none =>
      .error ("LightClientRootProvider: RPC has no block " ++ (h.number.map hexNumber).getD tag ++ " that the anchor (" ++
        C.stateRootSource ++ ") attests")
    | .ok (some rpcBlk) =>
      if rpcBlk.stateRoot = h.stateRoot then .ok (h.stateRoot, h.number)
      else
        .error ("LightClientRootProvider: stateRoot mismatch at block " ++ (h.number.map toString).getD "null" ++
          ": RPC (" ++ C.rpcOrigin ++ ") claims " ++ hexBytes rpcBlk.stateRoot ++ " but the anchor (" ++
          C.stateRootSource ++ ") attests " ++ hexBytes h.stateRoot ++
          " -- RPC is lying about the header or serving another chain; refusing its proofs")
  | none =>
    match reads.header with
    | .error msg => .error msg
    | .ok none => .error ("LightClientRootProvider: no block at " ++ tag)
    | .ok (some blk) => .ok (blk.stateRoot, some blk.number)

/-- The `storageHash` of the account leaf. -/
def storageHashOf : Option Rlp → Except String Bytes
  | none => .error "LightClientRootProvider: account absent in state proof"
  | some (.list _) => .error "invalid BytesLike value"
  | some (.str accountField) =>
    match decodeRlp accountField with
    | .error msg => .error msg
    | .ok (.list [_, _, .str storageHash, _]) => .ok storageHash
    | .ok (.list [_, _, .list _, _]) => .error "account[2].toLowerCase is not a function"
    | .ok _ => .error "LightClientRootProvider: malformed account node"

/-- `valueField == null ? 0n : BigInt(decodeRlp(valueField))`. -/
def provenValue : Option Rlp → Except String ℕ
  | none => .ok 0
  | some (.list _) => .error "invalid BytesLike value"
  | some (.str valueField) => (decodeRlp valueField).bind toBigInt

/-- The proofs of the account and of the slot. -/
def LightConfig.proveSlot (C : LightConfig) (stateRoot : Bytes) (proof : ProofAnswer) : Except String ℕ := do
  let accountField ← verifyMptProof keccak256 decodeRlp stateRoot C.addr proof.accountProof
  let storageHash ← storageHashOf decodeRlp accountField
  if proof.storageHash.any fun reported => decide (reported ≠ storageHash) then
    .error "LightClientRootProvider: storageHash mismatch vs proof"
  else
    let valueField ← verifyMptProof keccak256 decodeRlp storageHash (slotKey C.slot) proof.proof
    let proven ← provenValue decodeRlp valueField
    if proof.value.any fun reported => decide (reported ≠ proven) then
      .error "LightClientRootProvider: proven slot value != reported value"
    else .ok proven

/-- `toRoot`: a slot that holds 0 holds no root. -/
def toRoot (value : ℕ) : Option String := if value = 0 then none else some (toString value)

/-- The reads of a light refresh. -/
def LightConfig.read (C : LightConfig) (reads : LightReads) : LightRpc := do
  let tag ← reads.tag
  let anchor ← C.anchor reads tag
  let root ←
    if C.storageat then reads.storageAt.map fun value => value.bind toRoot
    else
      match reads.proof with
      | .error msg => .error msg
      | .ok none => .error "LightClientRootProvider: eth_getProof returned no proof"
      | .ok (some proof) => (C.proveSlot keccak256 decodeRlp anchor.1 proof).map toRoot
  .ok (root, ⟨anchor.2, tag == "finalized", !C.storageat, reads.trustedStateRoot.isSome⟩)

end Read

/-! ### An honest RPC -/

/-- The state at a block, as far as one account and its storage go. -/
structure World where
  state : SecureTrie
  storage : SecureTrie
  nonce : Bytes
  balance : Bytes
  codeHash : Bytes

section Honest

variable (keccak256 : Bytes → Vector UInt8 32) (decodeRlp : Bytes → Except String Rlp) (C : LightConfig)

/-- The account in the state trie. -/
def World.account (w : World) : Rlp :=
  .list [.str w.nonce, .str w.balance, .str (w.storage.trie.root keccak256), .str w.codeHash]

/-- The account is in the state, and its slot holds the value; a slot that holds 0 is not stored. -/
structure World.Holds (w : World) (value : ℕ) : Prop where
  account : w.state.trie.get (keyPath keccak256 C.addr) = some (w.account keccak256).encode
  slot : w.storage.trie.get (keyPath keccak256 (slotKey C.slot)) =
    if value = 0 then none else some (Rlp.str (bigEndian value)).encode

/-- What is asked of the packages: `decodeRlp` reads back what is decoded on the way, and `keccak256` has no
collision among the nodes there. -/
structure World.Readable (w : World) (value : ℕ) : Prop where
  state : ∀ u ∈ w.state.trie.path (keyPath keccak256 C.addr),
    decodeRlp (u.item keccak256).encode = .ok (u.item keccak256)
  storage : ∀ u ∈ w.storage.trie.path (keyPath keccak256 (slotKey C.slot)),
    decodeRlp (u.item keccak256).encode = .ok (u.item keccak256)
  account : decodeRlp (w.account keccak256).encode = .ok (w.account keccak256)
  value : decodeRlp (Rlp.str (bigEndian value)).encode = .ok (.str (bigEndian value))
  stateNodes : Set.InjOn keccak256 (nodesOf keccak256 w.state C.addr)
  storageNodes : Set.InjOn keccak256 (nodesOf keccak256 w.storage (slotKey C.slot))

/-- The RPC answers for the block `head` of that state, and so does the anchor if there is one; it may leave out what
the proofs say as well. -/
structure World.Answered (w : World) (value head : ℕ) (finalized : Bool) (reads : LightReads) : Prop where
  tag : ∃ tag, reads.tag = .ok tag ∧ (tag == "finalized") = finalized
  anchor : reads.trustedStateRoot = none ∨
    ∃ number, reads.trustedStateRoot = some (.ok (some ⟨w.state.trie.root keccak256, number⟩)) ∧
      (number = none ∨ number = some head)
  header : reads.header = .ok (some ⟨w.state.trie.root keccak256, head⟩)
  proof : ∃ storageHash reported, reads.proof =
      .ok (some ⟨honestProof keccak256 w.state C.addr, storageHash, reported,
        honestProof keccak256 w.storage (slotKey C.slot)⟩) ∧
    (storageHash = none ∨ storageHash = some (w.storage.trie.root keccak256)) ∧
    (reported = none ∨ reported = some value)

variable {keccak256 decodeRlp C} {w : World} {value head : ℕ} {finalized : Bool} {reads : LightReads}

lemma toBigInt_str {bytes : Bytes} (h : bytes ≠ []) : toBigInt (.str bytes) = .ok (fromBigEndian bytes) := by
  cases bytes with
  | nil => exact absurd rfl h
  | cons b bs => rfl

/-- The proofs of an honest RPC prove the value of the slot. -/
lemma LightConfig.proveSlot_honest (hholds : w.Holds keccak256 C value) (hread : w.Readable keccak256 decodeRlp C value)
    {storageHash : Option Bytes} {reported : Option ℕ}
    (hhash : storageHash = none ∨ storageHash = some (w.storage.trie.root keccak256))
    (hvalue : reported = none ∨ reported = some value) :
    C.proveSlot keccak256 decodeRlp (w.state.trie.root keccak256)
      ⟨honestProof keccak256 w.state C.addr, storageHash, reported, honestProof keccak256 w.storage (slotKey C.slot)⟩ =
      .ok value := by
  have haccount : verifyMptProof keccak256 decodeRlp (w.state.trie.root keccak256) C.addr
      (honestProof keccak256 w.state C.addr) = .ok (some (.str (w.account keccak256).encode)) := by
    rw [verifyMptProof_honest hread.state hread.stateNodes, hholds.account]
    rfl
  have hstorage : storageHashOf decodeRlp (some (.str (w.account keccak256).encode)) =
      .ok (w.storage.trie.root keccak256) := by
    simp only [storageHashOf, hread.account]
    rfl
  have hslot : verifyMptProof keccak256 decodeRlp (w.storage.trie.root keccak256) (slotKey C.slot)
      (honestProof keccak256 w.storage (slotKey C.slot)) =
      .ok (if value = 0 then none else some (.str (Rlp.str (bigEndian value)).encode)) := by
    rw [verifyMptProof_honest hread.storage hread.storageNodes, hholds.slot]
    split <;> rfl
  have hproven : provenValue decodeRlp (if value = 0 then none else some (.str (Rlp.str (bigEndian value)).encode)) =
      .ok value := by
    by_cases hzero : value = 0
    · simp [hzero, provenValue]
    · simp only [hzero, if_false, provenValue, hread.value, Except.bind]
      rw [toBigInt_str (bigEndian_ne_nil hzero), fromBigEndian_bigEndian]
  have hhash' : (storageHash.any fun reported => decide (reported ≠ w.storage.trie.root keccak256)) = false := by
    rcases hhash with rfl | rfl <;> simp
  have hvalue' : (reported.any fun reported => decide (reported ≠ value)) = false := by
    rcases hvalue with rfl | rfl <;> simp
  simp only [proveSlot, haccount, hstorage, hslot, hproven, hhash', hvalue', bind, Except.bind, Bool.false_eq_true,
    if_false]

/-- **An honest read** observes the root in the slot. -/
lemma LightConfig.read_honest (hproof : C.storageat = false) (hholds : w.Holds keccak256 C value)
    (hread : w.Readable keccak256 decodeRlp C value) (hans : w.Answered keccak256 C value head finalized reads) :
    ∃ info, C.read keccak256 decodeRlp reads = .ok (toRoot value, info) := by
  obtain ⟨tag, htag, -⟩ := hans.tag
  obtain ⟨storageHash, reported, hp, hhash, hvalue⟩ := hans.proof
  have hanchor : ∃ block, C.anchor reads tag = .ok (w.state.trie.root keccak256, block) := by
    rcases hans.anchor with hno | ⟨number, hsome, -⟩
    · exact ⟨some head, by simp only [anchor, hno, hans.header]⟩
    · exact ⟨number, by simp only [anchor, hsome, hans.header, if_true]⟩
  obtain ⟨block, hanchor⟩ := hanchor
  have hprove := proveSlot_honest hholds hread hhash hvalue
  refine ⟨⟨block, tag == "finalized", true, reads.trustedStateRoot.isSome⟩, ?_⟩
  simp only [read, htag, hanchor, hp, hproof, hprove, bind, Except.bind, Except.map, Bool.false_eq_true, if_false,
    Bool.not_false]

end Honest

end ShadeTree.Roots
