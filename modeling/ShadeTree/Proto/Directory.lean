import ShadeTree.Directory.Verify
import ShadeTree.Proto.Caps

/-!
# Signed directories on the Rust side (`verify_directory_with_signers` in `shade-tree-proto/src/lib.rs`)

A directory is signed by one pinned key, or by at least `threshold` of several, over bytes that are built by hand, and
every entry is bound to its onion.  The hashes, the signatures and the tables behind `to_lowercase` are parameters; a
text stands for its bytes.  The labels `operator` and `staked`, which no check reads, are left out.
-/

namespace ShadeTree.Proto

open ShadeTree.Lib

structure GatewayEntry where
  onion : String
  pubkey : String
  weight : UInt64
  health : String
  caps : Option Caps
  capsSig : Option String

structure Directory where
  version : UInt64
  issued : UInt64
  gateways : List GatewayEntry
  signer : Option String
  signature : Option String
  signers : Option (List String)
  signatures : Option (List String)
  threshold : Option I64

/-- What the checks use: `to_lowercase`, `onion_checksum` of a key and `ed25519_verify(msg, sig, pubkey)`. -/
structure Schemes where
  toLowercase : String → String
  onionChecksum : List ℕ → List ℕ
  ed25519Verify : List Char → List ℕ → List ℕ → Bool

/-! ### Texts -/

def hexValue (c : Char) : Option ℕ :=
  if '0' ≤ c ∧ c ≤ '9' then some (c.toNat - '0'.toNat)
  else if 'a' ≤ c ∧ c ≤ 'f' then some (c.toNat - 'a'.toNat + 10)
  else if 'A' ≤ c ∧ c ≤ 'F' then some (c.toNat - 'A'.toNat + 10)
  else none

/-- `hex::decode`. -/
def hexDecode : List Char → Option (List ℕ)
  | [] => some []
  | [_] => none
  | c :: c' :: cs => do
    let high ← hexValue c
    let low ← hexValue c'
    let bytes ← hexDecode cs
    return (high * 16 + low) :: bytes

/-- `hex::decode(s).ok()?.try_into().ok()?` of an array of `n` bytes. -/
def hexArray (n : ℕ) (s : String) : Option (List ℕ) := (hexDecode s.toList).filter fun bytes => bytes.length = n

/-- `strip_prefix(start).unwrap_or(s)`. -/
def dropStart (start s : String) : String := ((Directory.afterStart start.toList s.toList).map String.ofList).getD s

/-- The text of a number of type `u64`. -/
def numText (n : UInt64) : List Char := Decimal.digitsText n.toNat

/-! ### Canonical bytes -/

def entryText (g : GatewayEntry) : List Char :=
  "\x7b\"onion\":".toList ++ pushJsonString g.onion ++ ",\"pubkey\":".toList ++ pushJsonString g.pubkey ++
    ",\"weight\":".toList ++ numText g.weight ++ ",\"health\":".toList ++ pushJsonString g.health ++
    (match g.caps with
      | none => []
      | some caps =>
        if hasCaps caps then
          ",\"caps\":".toList ++ canonicalCapsJson (canonicalCaps caps) ++
            (match g.capsSig with
              | none => []
              | some sig => ",\"capsSig\":".toList ++ pushJsonString sig)
        else []) ++ "\x7d".toList

/-- `canonical_directory_bytes`. -/
def canonicalDirectoryBytes (dir : Directory) : List Char :=
  "\x7b\"version\":".toList ++ numText dir.version ++ ",\"issued\":".toList ++ numText dir.issued ++
    ",\"gateways\":[".toList ++ commas (dir.gateways.map entryText) ++ "]\x7d".toList

section Checks

variable (S : Schemes)

/-! ### The entries -/

/-- `onion_to_pubkey`. -/
def onionToPubkey (onion : String) : Except String (List ℕ) :=
  let lower := (S.toLowercase onion).toList
  let addr := if ".onion".toList.isSuffixOf lower then lower.take (lower.length - 6) else lower
  if byteLen addr ≠ 56 then .error "not a v3 onion (expected 56 chars)"
  else
    match Bootnode.base32Decode addr with
    | none => .error "bad base32 char in onion"
    | some decoded =>
      if decoded.length ≠ 35 then .error "v3 onion decodes to 35 bytes"
      else if decoded.getD 34 0 ≠ 3 then .error "not onion version 3"
      else if (decoded.drop 32).take 2 ≠ S.onionChecksum (decoded.take 32) then .error "onion checksum mismatch"
      else .ok (decoded.take 32)

/-- `verify_caps_sig`. -/
def verifyCapsSig (onion : String) (caps : Caps) (capsSig : Option String) : Bool :=
  match capsSig with
  | none => false
  | some sigHex =>
    if sigHex = "" then false
    else
      match onionToPubkey S onion with
      | .error _ => false
      | .ok pubkey =>
        match hexArray 64 sigHex with
        | none => false
        | some sig => S.ed25519Verify (canonicalCapsBytes onion caps) sig pubkey

/-- The check of one entry. -/
def checkGatewayBinding (g : GatewayEntry) : Except String Unit :=
  let onion12 := String.ofList (g.onion.toList.take 12)
  match onionToPubkey S g.onion with
  | .error e => .error ("bad-onion:" ++ onion12 ++ "..:" ++ e)
  | .ok derived =>
    if Directory.hexText derived ≠ S.toLowercase g.pubkey then .error ("pubkey-onion-mismatch:" ++ onion12 ++ "..")
    else
      match g.caps with
      | none => .ok ()
      | some caps =>
        if hasCaps caps && !verifyCapsSig S g.onion caps g.capsSig then .error ("bad-caps-sig:" ++ onion12 ++ "..")
        else .ok ()

/-- `check_gateway_bindings`. -/
def checkGatewayBindings : List GatewayEntry → Except String Unit
  | [] => .ok ()
  | g :: gs =>
    match checkGatewayBinding S g with
    | .error e => .error e
    | .ok _ => checkGatewayBindings gs

/-! ### The signers -/

def isThresholdDirectory (dir : Directory) : Bool :=
  dir.threshold.isSome || dir.signers.isSome || dir.signatures.isSome

def normKey (p : String) : String := dropStart "0x" (S.toLowercase p)

def normalizePinnedSigners (pinned : List String) : List String := (pinned.filter fun p => p ≠ "").map (normKey S)

/-- The key and the signature decode, and the signature verifies. -/
def sigOk (bytes : List Char) (keyHex sigHex : String) : Bool :=
  match hexArray 32 keyHex, hexArray 64 sigHex with
  | some key, some sig => S.ed25519Verify bytes sig key
  | _, _ => false

/-- The loop over the signatures, each with its signer; `order` is what is counted already. -/
def countSigners (pinned : List String) (bytes : List Char) : List String → List (String × String) → List String
  | order, [] => order
  | order, (signer, signature) :: rest =>
    let norm := normKey S signer
    if norm ∉ pinned ∨ norm ∈ order then countSigners pinned bytes order rest
    else if sigOk S bytes norm signature then countSigners pinned bytes (order ++ [norm]) rest
    else countSigners pinned bytes order rest

/-- `verify_directory_threshold`. -/
def verifyDirectoryThreshold (dir : Directory) (pinnedSigners : List String) : Except String (List String) :=
  let pinned := normalizePinnedSigners S pinnedSigners
  match dir.threshold with
  | none => .error "bad-threshold"
  | some threshold =>
    if threshold.1 < 1 then .error "bad-threshold"
    else
      match dir.signers, dir.signatures with
      | some signers, some signatures =>
        if signers.length ≠ signatures.length then .error "bad-signatures"
        else if signers.length < threshold.1 then .error "threshold-exceeds-signers"
        else
          let order := countSigners S pinned (canonicalDirectoryBytes dir) [] (signers.zip signatures)
          if order.length < threshold.1 then
            .error ("threshold-not-met:" ++ toString order.length ++ "/" ++ toString threshold.1)
          else (checkGatewayBindings S dir.gateways).map fun _ => order
      | _, _ => .error "bad-signatures"

/-- `verify_directory`. -/
def verifyDirectory (dir : Directory) (pinnedSignerHex : String) : Except String Unit :=
  if isThresholdDirectory dir then (verifyDirectoryThreshold S dir [pinnedSignerHex]).map fun _ => ()
  else
    match dir.signature with
    | none => .error "unsigned"
    | some signatureHex =>
      if dir.signer.any fun signer =>
          pinnedSignerHex ≠ "" && S.toLowercase signer ≠ S.toLowercase pinnedSignerHex then
        .error "signer-not-pinned"
      else if !sigOk S (canonicalDirectoryBytes dir) pinnedSignerHex signatureHex then .error "bad-signature"
      else checkGatewayBindings S dir.gateways

/-- `verify_directory_with_signers`. -/
def verifyDirectoryWithSigners (dir : Directory) (pinnedSigners : List String) : Except String (List String) :=
  let pins := normalizePinnedSigners S pinnedSigners
  if pins = [] then .error "signer-not-pinned"
  else if isThresholdDirectory dir then verifyDirectoryThreshold S dir pins
  else
    match dir.signer with
    | some signer =>
      let declared := toAsciiLowercase (if (Directory.afterStart "0x".toList signer.toList).isSome
        then dropStart "0x" signer else dropStart "0X" signer)
      if declared ∉ pins then .error "signer-not-pinned"
      else (verifyDirectory S dir declared).map fun _ => [declared]
    | none =>
      match pins.find? fun pin => (verifyDirectory S dir pin).isOk with
      | some pin => .ok [pin]
      | none => .error "bad-signature"

/-- The keys a client trusts for the directory; those of a threshold are normalized once more. -/
def pinnedKeys (dir : Directory) (pinnedSigners : List String) : List String :=
  if isThresholdDirectory dir then normalizePinnedSigners S (normalizePinnedSigners S pinnedSigners)
  else normalizePinnedSigners S pinnedSigners

/-- Pinned keys signed the directory, as many as it asks for, and every entry is bound to its onion. -/
structure Attested (dir : Directory) (pinnedSigners keys : List String) : Prop where
  nonempty : keys ≠ []
  nodup : keys.Nodup
  pinned : ∀ key ∈ keys, key ∈ pinnedKeys S dir pinnedSigners
  signed : ∀ key ∈ keys, ∃ sig, sig ∈ dir.signature.toList ++ dir.signatures.getD [] ∧
    sigOk S (canonicalDirectoryBytes dir) key sig = true
  enough : ∀ threshold, dir.threshold = some threshold → threshold.1 ≤ keys.length
  bound : ∀ g ∈ dir.gateways, checkGatewayBinding S g = .ok ()

end Checks

/-! ### What acceptance means -/

variable {S : Schemes} {dir : Directory} {pinned pins keys : List String} {bytes : List Char}

lemma checkGatewayBindings_ok {gateways : List GatewayEntry} (h : checkGatewayBindings S gateways = .ok ()) :
    ∀ g ∈ gateways, checkGatewayBinding S g = .ok () := by
  induction gateways with
  | nil => exact fun g hg => absurd hg List.not_mem_nil
  | cons g gs ih =>
    rw [checkGatewayBindings] at h
    cases hg : checkGatewayBinding S g with
    | error e => rw [hg] at h; cases h
    | ok u =>
      rw [hg] at h
      exact List.forall_mem_cons.mpr ⟨hg, ih h⟩

/-- What is counted is counted once, and signed by a pinned key unless it was counted before. -/
lemma countSigners_spec {order : List String} {pairs : List (String × String)} (h : order.Nodup) :
    (countSigners S pinned bytes order pairs).Nodup ∧ ∀ key ∈ countSigners S pinned bytes order pairs,
      key ∈ order ∨ key ∈ pinned ∧ ∃ p ∈ pairs, sigOk S bytes key p.2 = true := by
  induction pairs generalizing order with
  | nil => exact ⟨h, fun key hkey => .inl hkey⟩
  | cons p pairs ih =>
    have hlater : ∀ {order : List String}, order.Nodup →
        ∀ key ∈ countSigners S pinned bytes order pairs, key ∈ order ∨
          key ∈ pinned ∧ ∃ q ∈ p :: pairs, sigOk S bytes key q.2 = true := by
      intro order hnodup key hkey
      rcases (ih hnodup).2 key hkey with hold | ⟨hpin, q, hq, hok⟩
      · exact .inl hold
      · exact .inr ⟨hpin, q, List.mem_cons_of_mem _ hq, hok⟩
    simp only [countSigners]
    split_ifs with hskip hok
    · exact ⟨(ih h).1, hlater h⟩
    · push Not at hskip
      have hnodup : (order ++ [normKey S p.1]).Nodup := by
        rw [← List.concat_eq_append, List.nodup_concat]
        exact ⟨hskip.2, h⟩
      refine ⟨(ih hnodup).1, fun key hkey => ?_⟩
      rcases hlater hnodup key hkey with hold | hnew
      · rcases List.mem_append.mp hold with hold | hself
        · exact .inl hold
        · obtain rfl := List.mem_singleton.mp hself
          exact .inr ⟨hskip.1, p, List.mem_cons_self, hok⟩
      · exact .inr hnew
    · exact ⟨(ih h).1, hlater h⟩

lemma threshold_attested (h : verifyDirectoryThreshold S dir pinned = .ok keys) :
    keys ≠ [] ∧ keys.Nodup ∧ (∀ key ∈ keys, key ∈ normalizePinnedSigners S pinned ∧
      ∃ sig ∈ dir.signatures.getD [], sigOk S (canonicalDirectoryBytes dir) key sig = true) ∧
    (∀ threshold, dir.threshold = some threshold → threshold.1 ≤ keys.length) ∧
    ∀ g ∈ dir.gateways, checkGatewayBinding S g = .ok () := by
  unfold verifyDirectoryThreshold at h
  cases hthreshold : dir.threshold with
  | none => simp [hthreshold] at h
  | some threshold =>
    cases hsigners : dir.signers with
    | none => simp only [hthreshold, hsigners] at h; split at h <;> cases h
    | some signers =>
      cases hsignatures : dir.signatures with
      | none => simp only [hthreshold, hsigners, hsignatures] at h; split at h <;> cases h
      | some signatures =>
        simp only [hthreshold, hsigners, hsignatures] at h
        split_ifs at h with hlow hlengths hmany hfew
        obtain ⟨hnodup, hcounted⟩ := @countSigners_spec S (normalizePinnedSigners S pinned)
          (canonicalDirectoryBytes dir) _ (signers.zip signatures) List.nodup_nil
        generalize countSigners S (normalizePinnedSigners S pinned) (canonicalDirectoryBytes dir) []
          (signers.zip signatures) = order at h hfew hnodup hcounted
        cases hbind : checkGatewayBindings S dir.gateways with
        | error e => rw [hbind] at h; cases h
        | ok u =>
          rw [hbind] at h
          obtain rfl : order = keys := Except.ok.inj h
          refine ⟨?_, hnodup, fun key hkey => ?_, ?_, checkGatewayBindings_ok hbind⟩
          · rintro rfl
            simp only [List.length_nil, Nat.cast_zero] at hfew
            omega
          · obtain hnone | ⟨hpin, p, hp, hok⟩ := hcounted key hkey
            · cases hnone
            · exact ⟨hpin, p.2, (List.of_mem_zip hp).2, hok⟩
          · rintro _ ⟨⟩
            omega

lemma verifyDirectory_ok {key : String} (hsingle : isThresholdDirectory dir = false)
    (h : verifyDirectory S dir key = .ok ()) :
    (∃ sig, dir.signature = some sig ∧ sigOk S (canonicalDirectoryBytes dir) key sig = true) ∧
      ∀ g ∈ dir.gateways, checkGatewayBinding S g = .ok () := by
  rw [verifyDirectory, if_neg (by simp [hsingle])] at h
  cases hsig : dir.signature with
  | none => simp [hsig] at h
  | some sig =>
    simp only [hsig] at h
    split_ifs at h with hdeclared hbad
    exact ⟨⟨sig, rfl, by simpa using hbad⟩, checkGatewayBindings_ok h⟩

/-- **Accepted directories** are attested by the keys that are returned. -/
theorem verifyDirectoryWithSigners_attested (h : verifyDirectoryWithSigners S dir pins = .ok keys) :
    Attested S dir pins keys := by
  unfold verifyDirectoryWithSigners at h
  simp only at h
  split_ifs at h with hnone hthreshold
  · obtain ⟨hne, hnodup, hkeys, henough, hbound⟩ := threshold_attested h
    refine ⟨hne, hnodup, fun key hkey => ?_, fun key hkey => ?_, henough, hbound⟩
    · rw [pinnedKeys, if_pos hthreshold]
      exact (hkeys key hkey).1
    · obtain ⟨-, sig, hsig, hok⟩ := hkeys key hkey
      exact ⟨sig, List.mem_append_right _ hsig, hok⟩
  · have hsingle : isThresholdDirectory dir = false := by simpa using hthreshold
    have hno : dir.threshold = none := by
      simp only [isThresholdDirectory, Bool.or_eq_false_iff, Option.isSome_eq_false_iff, Option.isNone_iff_eq_none]
        at hsingle
      exact hsingle.1.1
    -- a key that is pinned and verifies attests alone
    have hone : ∀ {key}, key ∈ normalizePinnedSigners S pins → verifyDirectory S dir key = .ok () →
        Attested S dir pins [key] := by
      intro key hpin hok
      obtain ⟨⟨sig, hsig, hver⟩, hbound⟩ := verifyDirectory_ok hsingle hok
      refine ⟨List.cons_ne_nil _ _, List.nodup_singleton _, ?_, ?_, ?_, hbound⟩
      · rw [pinnedKeys, if_neg hthreshold]
        simpa using hpin
      · intro key' hkey'
        obtain rfl := List.mem_singleton.mp hkey'
        exact ⟨sig, by simp [hsig], hver⟩
      · simp [hno]
    cases hsigner : dir.signer with
    | none =>
      simp only [hsigner] at h
      split at h
      · next pin hfind =>
        obtain rfl := Except.ok.inj h
        have hok := List.find?_some hfind
        refine hone (List.mem_of_find?_eq_some hfind) ?_
        cases hver : verifyDirectory S dir pin with
        | error e => simp [hver, Except.isOk, Except.toBool] at hok
        | ok u => rfl
      · cases h
    | some signer =>
      simp only [hsigner] at h
      split_ifs at h with hdeclared hdeclared
      all_goals
        cases hver : verifyDirectory S dir _ with
        | error e => rw [hver] at h; cases h
        | ok u =>
          rw [hver] at h
          obtain rfl := Except.ok.inj h
          exact hone (by assumption) hver

end ShadeTree.Proto
