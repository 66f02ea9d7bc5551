import ShadeTree.Directory.Caps

/-!
# Signed directories (`verifyDirectory` in `lib/directory.mjs`)

A directory lists gateways and is signed over fixed fields in a fixed order.  One pinned signer signs it, or at
least `threshold` of several do.  Each entry is bound to its onion: `pubkey` is the key of the address, and
capabilities carry a signature of that key.  The hash of an address and `ed25519Verify` are parameters; a text
stands for its bytes.
-/

namespace ShadeTree.Directory

open ShadeTree.Lib Bootnode

/-- What the checks use: the checksum of an address, and `ed25519Verify(msg, sigHex, pubHex)`. -/
structure Schemes where
  checksum : List ℕ → List ℕ
  ed25519Verify : List Char → Value → String → Bool

/-- What `normalizePinnedSigners` is given: nothing, a string, or a list in which a member that is no string is
absent. -/
inductive PinnedSigner where
  | absent
  | one (key : String)
  | many (keys : List (Option String))

/-- Why a directory is refused. -/
inductive Refusal where
  | noDirectory | unsigned | badSignerField | signerNotPinned | badSignature | badThreshold | badSignatures
  | thresholdExceedsSigners | thresholdNotMet (got : ℕ) (want : ℤ)
  | badOnion (onion : Option String) (why : Option BadOnion)
  | pubkeyOnionMismatch (onion : String)
  | badCapsSig (onion : String)
  deriving DecidableEq

/-- What a check returns, or that it throws. -/
inductive Verdict (α : Type) where
  | accepted (a : α)
  | refused (why : Refusal)
  | threw
  deriving DecidableEq

/-- A text in hexadecimal digits, two for a byte. -/
def hexText (bytes : List ℕ) : String :=
  String.ofList (bytes.flatMap fun b => [Json.hexDigit (b / 16), Json.hexDigit (b % 16)])

/-- `p.toLowerCase().replace(/^0x/, "")`; of the characters that are not ASCII none is part of a key. -/
def normKey (p : String) : String :=
  match (toLowerCase p).toList with
  | '0' :: 'x' :: cs => String.ofList cs
  | cs => String.ofList cs

def normalizePinnedSigners : PinnedSigner → List String
  | .absent => []
  | .one key => if key = "" then [] else [normKey key]
  | .many keys => (keys.filterMap fun key => key.filter fun k => k ≠ "").map normKey

/-! ### Canonical bytes -/

/-- A field that is there. -/
def signedField (v : Value) (key : String) : Option (String × Json Decimal) :=
  (v.get key).map fun field => (key, field.bind Value.clean)

/-- `dir.gateways || []`; `none` when it has no `map`. -/
def gatewaysOf (dir : Value) : Option (List Value) :=
  match dir.get "gateways" with
  | none => some []
  | some v => if Value.truthy v then Value.asArray v else some []

/-- An entry as it is signed; `none` when reading its fields throws. -/
def signedEntry (g : Value) : Option (Json Decimal) :=
  match g with
  | .null => none
  | g =>
    let fields := ["onion", "pubkey", "weight", "health"].filterMap (signedField g)
    let caps := if hasCaps (g.get "caps") then
        ("caps", (canonicalCaps (g.get "caps")).json) ::
          (((g.get "capsSig").bind Value.asString).map fun sig => ("capsSig", Json.str sig)).toList
      else []
    some (.obj (fields ++ caps))

/-- What is signed of a directory. -/
def signedPayload (dir : Value) : Option (Json Decimal) := do
  let gateways ← gatewaysOf dir
  let entries ← gateways.mapM signedEntry
  return .obj (["version", "issued"].filterMap (signedField dir) ++ [("gateways", .arr entries)])

def canonicalDirectoryBytes (dir : Value) : Option (List Char) := (signedPayload dir).map (Json.write Decimal.text)

section Checks

variable (S : Schemes)

/-! ### The entries -/

def verifyOnionControl (onion : String) (challenge : List Char) (sig : Value) : Bool :=
  match onionToPubkey S.checksum onion with
  | .error _ => false
  | .ok key => S.ed25519Verify challenge sig (hexText key)

/-- A signature of the capabilities that is a string and not empty, over their bytes. -/
def verifySig (onion : String) (bytes : List Char) (capsSig : Option Value) : Bool :=
  match capsSig with
  | some (.str sig) => sig ≠ "" && verifyOnionControl S onion bytes (.str sig)
  | _ => false

def verifyCapsSig (onion : String) (caps capsSig : Option Value) : Bool :=
  verifySig S onion (canonicalCapsBytes onion caps) capsSig

def verifyPreV4CapsSig (onion : String) (caps capsSig : Option Value) : Bool :=
  verifySig S onion (canonicalPreV4CapsBytes onion caps) capsSig

/-- The check of one entry. -/
def checkEntry (acceptPreV4Caps : Bool) (g : Value) : Verdict Unit :=
  match g.get "onion" with
  | none | some .null => .refused (.badOnion none none)
  | some (.str onion) =>
    match onionToPubkey S.checksum onion with
    | .error why => .refused (.badOnion (some onion) (some why))
    | .ok key =>
      match (g.get "pubkey").elim (some "undefined".toList) Value.toText with
      | none => .threw
      | some pubkey =>
        if toLowerCase (String.ofList pubkey) ≠ hexText key then .refused (.pubkeyOnionMismatch onion)
        else if hasCaps (g.get "caps") && !verifyCapsSig S onion (g.get "caps") (g.get "capsSig") &&
            !(acceptPreV4Caps && verifyPreV4CapsSig S onion (g.get "caps") (g.get "capsSig")) then
          .refused (.badCapsSig onion)
        else .accepted ()
  -- no `replace`, and of what is left only an array has the `slice` of the message
  | some (.arr items) => if (Value.toText (.arr (items.take 12))).isSome then .refused (.badOnion none none) else .threw
  | some _ => .threw

/-- The entries, one after the other. -/
def checkEntries (acceptPreV4Caps : Bool) : List Value → Verdict Unit
  | [] => .accepted ()
  | g :: gs =>
    match checkEntry S acceptPreV4Caps g with
    | .accepted _ => checkEntries acceptPreV4Caps gs
    | verdict => verdict

def checkGatewayBindings (acceptPreV4Caps : Bool) (dir : Value) : Verdict Unit :=
  match gatewaysOf dir with
  | none => .threw
  | some gateways => checkEntries S acceptPreV4Caps gateways

/-! ### The signatures -/

/-- The loop over the signatures: the keys counted so far. -/
def countSigners (pinned : List String) (bytes : List Char) (counted : List String) :
    List (Value × Value) → List String
  | [] => counted
  | (.str s, .str sig) :: rest =>
    let key := normKey s
    if key ∉ pinned ∨ key ∈ counted ∨ !S.ed25519Verify bytes (.str sig) key then countSigners pinned bytes counted rest
    else countSigners pinned bytes (counted ++ [key]) rest
  | _ :: rest => countSigners pinned bytes counted rest

/-- The directory is an object or an array. -/
def isObject : Value → Bool
  | .obj _ | .arr _ => true
  | _ => false

def verifyDirectoryThreshold (acceptPreV4Caps : Bool) (dir : Value) (pinnedSigner : PinnedSigner) :
    Verdict (List String × ℤ) :=
  if !isObject dir then .refused .noDirectory
  else
    let pinned := normalizePinnedSigners pinnedSigner
    match (dir.get "threshold").bind Value.asInteger with
    | none => .refused .badThreshold
    | some threshold =>
      if threshold < 1 then .refused .badThreshold
      else
        match (dir.get "signers").bind Value.asArray, (dir.get "signatures").bind Value.asArray with
        | some signers, some signatures =>
          if signers.length ≠ signatures.length then .refused .badSignatures
          else if (signers.length : ℤ) < threshold then .refused .thresholdExceedsSigners
          else
            match canonicalDirectoryBytes dir with
            | none => .threw
            | some bytes =>
              let counted := countSigners S pinned bytes [] (signers.zip signatures)
              if (counted.length : ℤ) < threshold then .refused (.thresholdNotMet counted.length threshold)
              else
                match checkGatewayBindings S acceptPreV4Caps dir with
                | .accepted _ => .accepted (counted, threshold)
                | .refused why => .refused why
                | .threw => .threw
        | _, _ => .refused .badSignatures

/-- Any of the three fields is there. -/
def isThresholdDirectory (dir : Value) : Bool :=
  (dir.get "threshold").isSome || (dir.get "signers").isSome || (dir.get "signatures").isSome

/-- The keys of the signers that a directory was accepted for. -/
def verifyDirectory (acceptPreV4Caps : Bool) (dir : Value) (pinnedSigner : PinnedSigner) : Verdict (List String) :=
  if !isObject dir then .refused .noDirectory
  else if isThresholdDirectory dir then
    match verifyDirectoryThreshold S acceptPreV4Caps dir pinnedSigner with
    | .accepted (signers, _) => .accepted signers
    | .refused why => .refused why
    | .threw => .threw
  else
    match (dir.get "signature").filter Value.truthy with
    | none => .refused .unsigned
    | some signature =>
      let pinned := normalizePinnedSigners pinnedSigner
      match dir.get "signer" with
      | some (.bool _) | some (.num _) | some (.arr _) | some (.obj _) => .refused .badSignerField
      | signer =>
        if pinned ≠ [] ∧ (signer.bind Value.asString).any fun s => toLowerCase s ∉ pinned then
          .refused .signerNotPinned
        else
          match canonicalDirectoryBytes dir with
          | none => .threw
          | some bytes =>
            match pinned.find? fun p => S.ed25519Verify bytes signature p with
            | none => .refused .badSignature
            | some matched =>
              -- the empty key is no match
              if matched = "" then .refused .badSignature
              else
                match checkGatewayBindings S acceptPreV4Caps dir with
                | .accepted _ => .accepted [matched]
                | .refused why => .refused why
                | .threw => .threw

end Checks

/-! ### What is signed of an entry -/

lemma get_signedFields (g : Value) (key : String) (keys : List String) :
    (Json.obj (keys.filterMap (signedField g))).get key =
      if key ∈ keys then (g.get key).map (Json.bind Value.clean) else none := by
  induction keys with
  | nil => rfl
  | cons k keys ih =>
    have hcons : (k :: keys).filterMap (signedField g) =
        ((g.get k).map fun field => (k, field.bind Value.clean)).toList ++ keys.filterMap (signedField g) := by
      rw [List.filterMap_cons]
      unfold signedField
      cases g.get k <;> rfl
    rw [hcons, Json.get_append, ih, get_optional]
    by_cases hkey : key ∈ keys
    · by_cases hk : k = key
      · subst hk
        simp [hkey]
      · simp [hkey, hk]
    · by_cases hk : k = key
      · subst hk
        simp [hkey]
      · simp [hkey, hk, Ne.symm hk]

/-- The fields of an entry that are signed, read back. -/
lemma get_signedEntry {g : Value} {e : Json Decimal} (h : signedEntry g = some e) :
    (∀ key ∈ ["onion", "pubkey", "weight", "health"], e.get key = (g.get key).map (Json.bind Value.clean)) ∧
    e.get "caps" = if hasCaps (g.get "caps") then some (canonicalCaps (g.get "caps")).json else none := by
  have he : e = .obj (["onion", "pubkey", "weight", "health"].filterMap (signedField g) ++
      if hasCaps (g.get "caps") then
        ("caps", (canonicalCaps (g.get "caps")).json) ::
          (((g.get "capsSig").bind Value.asString).map fun sig => ("capsSig", Json.str sig)).toList
      else []) := by
    cases g with
    | null => cases h
    | _ => exact (Option.some.inj h).symm
  subst he
  constructor
  · intro key hkey
    have hcaps : key ≠ "caps" ∧ key ≠ "capsSig" := by
      constructor <;> rintro rfl <;> exact absurd hkey (by decide)
    rw [Json.get_append, get_signedFields, if_pos hkey]
    split
    · rw [Json.get_cons, get_optional, if_neg (Ne.symm hcaps.2), if_neg (Ne.symm hcaps.1)]
      rfl
    · rfl
  · have hnot : "caps" ∉ ["onion", "pubkey", "weight", "health"] := by decide
    rw [Json.get_append, get_signedFields, if_neg hnot]
    by_cases hhas : hasCaps (g.get "caps") = true
    · rw [if_pos hhas, if_pos hhas, Json.get_cons, get_optional, if_neg (by decide), if_pos rfl]
      rfl
    · rw [if_neg hhas, if_neg hhas]
      rfl

/-- Entries that are signed alike have the same capabilities. -/
lemma canonicalCaps_eq_of_signed {g g' : Value} {e : Json Decimal} (h : signedEntry g = some e)
    (h' : signedEntry g' = some e) : canonicalCaps (g.get "caps") = canonicalCaps (g'.get "caps") := by
  have hcaps := (get_signedEntry h).2.symm.trans (get_signedEntry h').2
  by_cases hhas : hasCaps (g.get "caps") = true
  · by_cases hhas' : hasCaps (g'.get "caps") = true
    · rw [if_pos hhas, if_pos hhas'] at hcaps
      exact CanonicalCaps.json_inj (Option.some.inj hcaps)
    · rw [if_pos hhas, if_neg hhas'] at hcaps
      cases hcaps
  · by_cases hhas' : hasCaps (g'.get "caps") = true
    · rw [if_neg hhas, if_pos hhas'] at hcaps
      cases hcaps
    · have hnone : ∀ caps, ¬ hasCaps caps = true → canonicalCaps caps = .none := by
        intro caps hno
        by_contra hne
        exact hno (decide_eq_true hne)
      rw [hnone _ hhas, hnone _ hhas']

/-- A field that is signed the same is the same string. -/
lemma bind_clean_eq_str {v : Value} {s : String} : v.bind Value.clean = .str s ↔ v = .str s := by
  constructor
  · intro h
    cases v with
    | str t => exact congrArg Json.str (Json.str.inj h)
    | num n => cases n <;> cases h
    | _ => cases h
  · rintro rfl
    rfl

/-! ### Read again from its text -/

lemma signedField_wire (v : Value) (key : String) : signedField v.wire key = signedField v key := by
  simp only [signedField, Value.get_wire, Option.map_map, Function.comp_def, Value.bind_clean_wire]

lemma signedEntry_wire (fields : List (String × Value)) :
    signedEntry (Value.wire (.obj fields)) = signedEntry (.obj fields) := by
  have hfield : ∀ key, signedField (Value.wire (.obj fields)) key = signedField (.obj fields) key :=
    signedField_wire _
  have hcaps : canonicalCaps ((Value.wire (.obj fields)).get "caps") = canonicalCaps ((Json.obj fields).get "caps") := by
    rw [Value.get_wire, canonicalCaps_wire]
  have hhas : hasCaps ((Value.wire (.obj fields)).get "caps") = hasCaps ((Json.obj fields).get "caps") := by
    unfold hasCaps
    rw [hcaps]
  have hsig : ((Value.wire (.obj fields)).get "capsSig").bind Value.asString =
      ((Json.obj fields).get "capsSig").bind Value.asString := by
    rw [Value.get_wire, bind_map_wire Value.asString_wire]
  have hobj : signedEntry (Value.wire (.obj fields)) = some (.obj (
      ["onion", "pubkey", "weight", "health"].filterMap (signedField (Value.wire (.obj fields))) ++
      if hasCaps ((Value.wire (.obj fields)).get "caps") then
        ("caps", (canonicalCaps ((Value.wire (.obj fields)).get "caps")).json) ::
          ((((Value.wire (.obj fields)).get "capsSig").bind Value.asString).map fun sig => ("capsSig", Json.str sig)).toList
      else [])) := by
    rw [Value.wire_obj]
    rfl
  rw [hobj, hcaps, hhas, hsig, List.filterMap_congr fun key _ => hfield key]
  rfl

/-- Reading a directory again changes nothing of what is signed, if its entries are objects. -/
lemma canonicalDirectoryBytes_wire {dir : Value} {gateways : List Value}
    (hdir : dir.get "gateways" = some (.arr gateways)) (hobj : ∀ g ∈ gateways, ∃ fields, g = .obj fields) :
    canonicalDirectoryBytes dir.wire = canonicalDirectoryBytes dir := by
  have hmap : ∀ items : List Value, (∀ g ∈ items, ∃ fields, g = .obj fields) →
      (items.map Value.wire).mapM signedEntry = items.mapM signedEntry := by
    intro items hitems
    induction items with
    | nil => rfl
    | cons g items ih =>
      obtain ⟨fields, rfl⟩ := hitems g List.mem_cons_self
      rw [List.map_cons, List.mapM_cons, List.mapM_cons, signedEntry_wire,
        ih fun g hg => hitems g (List.mem_cons_of_mem _ hg)]
  have hgateways : gatewaysOf dir = some gateways := by
    unfold gatewaysOf
    rw [hdir]
    rfl
  have hwire : gatewaysOf dir.wire = some (gateways.map Value.wire) := by
    unfold gatewaysOf
    rw [Value.get_wire, hdir, Option.map_some, Value.wire_arr]
    rfl
  unfold canonicalDirectoryBytes signedPayload
  simp only [hgateways, hwire, Option.bind_eq_bind, Option.bind_some, hmap gateways hobj,
    List.filterMap_congr fun key _ => signedField_wire dir key]

lemma canonicalDirectoryBytes_some {dir : Value} {gateways : List Value}
    (hdir : dir.get "gateways" = some (.arr gateways)) (hobj : ∀ g ∈ gateways, ∃ fields, g = .obj fields) :
    ∃ bytes, canonicalDirectoryBytes dir = some bytes := by
  have hentries : ∀ items : List Value, (∀ g ∈ items, ∃ fields, g = .obj fields) →
      ∃ entries, items.mapM signedEntry = some entries := by
    intro items hitems
    induction items with
    | nil => exact ⟨[], rfl⟩
    | cons g items ih =>
      obtain ⟨fields, rfl⟩ := hitems g List.mem_cons_self
      obtain ⟨entries, hentries⟩ := ih fun g hg => hitems g (List.mem_cons_of_mem _ hg)
      exact ⟨_, by rw [List.mapM_cons, hentries]; rfl⟩
  obtain ⟨entries, hmap⟩ := hentries gateways hobj
  have hgateways : gatewaysOf dir = some gateways := by
    unfold gatewaysOf
    rw [hdir]
    rfl
  unfold canonicalDirectoryBytes signedPayload
  simp only [hgateways, Option.bind_eq_bind, Option.bind_some, hmap]
  exact ⟨_, rfl⟩

end ShadeTree.Directory
