import Mathlib.Data.Finset.Card
import ShadeTree.Directory.Verify

/-!
# Directories signed by M of N (`verifyDirectoryThreshold`)

The loop over the signatures counts a pinned key once it finds a signature of the key that verifies, and never
again.  So what it counts is a set: the pinned keys with a valid signature in the list, in whatever order the list
comes and whatever else is in it.
-/

namespace ShadeTree.Directory

open ShadeTree.Lib Bootnode

variable {S : Schemes} {pinned counted : List String} {bytes : List Char} {pairs : List (Value × Value)}
  {pre : Bool} {g dir : Value} {pinnedSigner : PinnedSigner}

/-- A pinned key with a valid signature in the list. -/
def Signed (S : Schemes) (pinned : List String) (bytes : List Char) (pairs : List (Value × Value)) (key : String) :
    Prop :=
  key ∈ pinned ∧ ∃ s sig, (Json.str s, Json.str sig) ∈ pairs ∧ normKey s = key ∧
    S.ed25519Verify bytes (.str sig) key = true

/-- The entry is bound to its onion. -/
def Bound (S : Schemes) (pre : Bool) (g : Value) : Prop :=
  ∃ onion key pubkey, g.get "onion" = some (.str onion) ∧ onionToPubkey S.checksum onion = .ok key ∧
    (g.get "pubkey").elim (some "undefined".toList) Value.toText = some pubkey ∧
    toLowerCase (String.ofList pubkey) = hexText key ∧
    (hasCaps (g.get "caps") = true → verifyCapsSig S onion (g.get "caps") (g.get "capsSig") = true ∨
      pre = true ∧ verifyPreV4CapsSig S onion (g.get "caps") (g.get "capsSig") = true)

/-- At least `n` pinned keys signed the directory, and every entry is bound to its onion. -/
def Quorum (S : Schemes) (pre : Bool) (pinnedSigner : PinnedSigner) (dir : Value) (n : ℤ)
    (signers signatures : List Value) : Prop :=
  ∃ bytes gateways, canonicalDirectoryBytes dir = some bytes ∧ gatewaysOf dir = some gateways ∧
    (∃ K : Finset String, n ≤ K.card ∧
      ∀ key ∈ K, Signed S (normalizePinnedSigners pinnedSigner) bytes (signers.zip signatures) key) ∧
    ∀ g ∈ gateways, Bound S pre g

/-! ### The loop -/

lemma signed_cons {p : Value × Value} {key : String} : Signed S pinned bytes (p :: pairs) key ↔
    (key ∈ pinned ∧ ∃ s sig, p = (.str s, .str sig) ∧ normKey s = key ∧ S.ed25519Verify bytes (.str sig) key = true) ∨
      Signed S pinned bytes pairs key := by
  constructor
  · rintro ⟨hpin, s, sig, hmem, hkey, hver⟩
    rcases List.mem_cons.mp hmem with hp | hmem
    · exact .inl ⟨hpin, s, sig, hp.symm, hkey, hver⟩
    · exact .inr ⟨hpin, s, sig, hmem, hkey, hver⟩
  · rintro (⟨hpin, s, sig, rfl, hkey, hver⟩ | ⟨hpin, s, sig, hmem, hkey, hver⟩)
    · exact ⟨hpin, s, sig, List.mem_cons_self, hkey, hver⟩
    · exact ⟨hpin, s, sig, List.mem_cons_of_mem _ hmem, hkey, hver⟩

/-- **What is counted.** The keys that were, and those with a signature in the list, each once. -/
lemma countSigners_spec (h : counted.Nodup) : (countSigners S pinned bytes counted pairs).Nodup ∧
    ∀ key, key ∈ countSigners S pinned bytes counted pairs ↔ key ∈ counted ∨ Signed S pinned bytes pairs key := by
  induction pairs generalizing counted with
  | nil =>
    refine ⟨h, fun key => ⟨.inl, fun hk => hk.resolve_right ?_⟩⟩
    rintro ⟨-, s, sig, hmem, -⟩
    cases hmem
  | cons p pairs ih =>
    -- a pair that is passed over adds no key that is not counted already
    have hskip : (∀ key, key ∈ pinned → (∃ s sig, p = (.str s, .str sig) ∧ normKey s = key ∧
          S.ed25519Verify bytes (.str sig) key = true) → key ∈ counted) →
        (countSigners S pinned bytes counted pairs).Nodup ∧ ∀ key, key ∈ countSigners S pinned bytes counted pairs ↔
          key ∈ counted ∨ Signed S pinned bytes (p :: pairs) key := by
      intro hold
      refine ⟨(ih h).1, fun key => ?_⟩
      rw [(ih h).2, signed_cons]
      constructor
      · rintro (hc | hs)
        · exact .inl hc
        · exact .inr (.inr hs)
      · rintro (hc | ⟨hpin, hp⟩ | hs)
        · exact .inl hc
        · exact .inl (hold key hpin hp)
        · exact .inr hs
    unfold countSigners
    split
    · next heq => cases heq
    · next s sig rest heq =>
      obtain ⟨rfl, rfl⟩ := List.cons.inj heq
      simp only
      split
      · next hpass =>
        refine hskip ?_
        rintro key hpin ⟨s', sig', hp, rfl, hver⟩
        simp only [Prod.mk.injEq, Json.str.injEq] at hp
        obtain ⟨rfl, rfl⟩ := hp
        rcases hpass with hno | hc | hbad
        · exact absurd hpin hno
        · exact hc
        · rw [hver] at hbad
          cases hbad
      · next hpass =>
        simp only [not_or, not_not, Bool.not_eq_true', Bool.not_eq_false] at hpass
        obtain ⟨hpin, hnew, hver⟩ := hpass
        have hnodup : (counted ++ [normKey s]).Nodup := by
          rw [List.nodup_append]
          refine ⟨h, List.nodup_singleton _, ?_⟩
          rintro a ha b hb rfl
          exact hnew (List.mem_singleton.mp hb ▸ ha)
        refine ⟨(ih hnodup).1, fun key => ?_⟩
        rw [(ih hnodup).2, signed_cons, List.mem_append, List.mem_singleton]
        constructor
        · rintro ((hc | rfl) | hs)
          · exact .inl hc
          · exact .inr (.inl ⟨hpin, s, sig, rfl, rfl, hver⟩)
          · exact .inr (.inr hs)
        · rintro (hc | ⟨-, s', sig', hp, rfl, -⟩ | hs)
          · exact .inl (.inl hc)
          · simp only [Prod.mk.injEq, Json.str.injEq] at hp
            exact .inl (.inr (hp.1 ▸ rfl))
          · exact .inr hs
    · next p' rest hno heq =>
      obtain ⟨rfl, rfl⟩ := List.cons.inj heq
      refine hskip ?_
      rintro key - ⟨s', sig', hp, -⟩
      exact (hno s' sig' hp).elim

lemma countSigners_length (S : Schemes) (pinned counted : List String) (bytes : List Char)
    (pairs : List (Value × Value)) :
    (countSigners S pinned bytes counted pairs).length ≤ counted.length + pairs.length := by
  induction pairs generalizing counted with
  | nil => exact le_refl _
  | cons p pairs ih =>
    have hskip : (countSigners S pinned bytes counted pairs).length ≤ counted.length + (p :: pairs).length :=
      (ih counted).trans (by simp)
    unfold countSigners
    split
    · next heq => cases heq
    · next s sig rest heq =>
      obtain ⟨rfl, rfl⟩ := List.cons.inj heq
      simp only
      split
      · exact hskip
      · refine (ih _).trans ?_
        simp only [List.length_append, List.length_cons, List.length_nil]
        omega
    · next p' rest hno heq =>
      obtain ⟨rfl, rfl⟩ := List.cons.inj heq
      exact hskip

/-! ### The entries -/

lemma checkEntry_accepted : checkEntry S pre g = .accepted () ↔ Bound S pre g := by
  constructor
  · intro h
    unfold checkEntry at h
    split at h
    · cases h
    · cases h
    · next onion honion =>
      split at h
      · cases h
      next key hkey =>
      split at h
      · cases h
      next pubkey hpub =>
      split at h
      · cases h
      next hsame =>
      split at h
      · cases h
      next hcaps =>
      refine ⟨onion, key, pubkey, honion, hkey, hpub, not_not.mp hsame, fun hhas => ?_⟩
      rw [hhas] at hcaps
      by_cases hcur : verifyCapsSig S onion (g.get "caps") (g.get "capsSig") = true
      · exact .inl hcur
      · rw [Bool.not_eq_true] at hcur
        simp only [hcur, Bool.not_false, Bool.true_and, Bool.not_eq_true', Bool.not_eq_false, Bool.and_eq_true] at hcaps
        exact .inr hcaps
    · split at h <;> cases h
    · cases h
  · rintro ⟨onion, key, pubkey, honion, hkey, hpub, hsame, hcaps⟩
    unfold checkEntry
    rw [honion]
    simp only [hkey, hpub, hsame, ne_eq, not_true, if_false]
    rw [if_neg]
    simp only [Bool.and_eq_true, Bool.not_eq_true', not_and, Bool.not_eq_false]
    rintro ⟨hhas, hcur⟩
    rcases hcaps hhas with hok | ⟨hpre, hold⟩
    · rw [hcur] at hok
      cases hok
    · exact ⟨hpre, hold⟩

lemma checkEntries_accepted {gs : List Value} : checkEntries S pre gs = .accepted () ↔ ∀ g ∈ gs, Bound S pre g := by
  induction gs with
  | nil => simp [checkEntries]
  | cons g gs ih =>
    rw [List.forall_mem_cons, ← ih, ← checkEntry_accepted]
    cases hg : checkEntry S pre g with
    | accepted a => simp [checkEntries, hg]
    | refused why => simp [checkEntries, hg]
    | threw => simp [checkEntries, hg]

/-! ### The verdict -/

/-- A number of keys is reached if the loop counts as many. -/
lemma le_countSigners {n : ℤ} : n ≤ (countSigners S pinned bytes [] pairs).length ↔
    ∃ K : Finset String, n ≤ K.card ∧ ∀ key ∈ K, Signed S pinned bytes pairs key := by
  obtain ⟨hnodup, hmem⟩ := @countSigners_spec S pinned [] bytes pairs List.nodup_nil
  have hcard : (countSigners S pinned bytes [] pairs).toFinset.card = (countSigners S pinned bytes [] pairs).length :=
    List.toFinset_card_of_nodup hnodup
  constructor
  · intro h
    refine ⟨(countSigners S pinned bytes [] pairs).toFinset, by rw [hcard]; exact h, fun key hkey => ?_⟩
    exact ((hmem key).mp (List.mem_toFinset.mp hkey)).resolve_left List.not_mem_nil
  · rintro ⟨K, hn, hK⟩
    have hsub : K ⊆ (countSigners S pinned bytes [] pairs).toFinset := fun key hkey =>
      List.mem_toFinset.mpr ((hmem key).mpr (.inr (hK key hkey)))
    have := Finset.card_le_card hsub
    omega

lemma asArray_some {v : Option Value} {l : List Value} : v.bind Value.asArray = some l ↔ v = some (.arr l) := by
  rcases v with _ | v
  · simp
  · cases v <;> simp [Value.asArray]

/-- The verdict of a directory whose fields are well formed. -/
lemma verifyDirectoryThreshold_of {n : ℤ} {signers signatures : List Value}
    (hn : (dir.get "threshold").bind Value.asInteger = some n) (hpos : 1 ≤ n)
    (hs : dir.get "signers" = some (.arr signers)) (hsig : dir.get "signatures" = some (.arr signatures))
    (hlen : signers.length = signatures.length) :
    (∃ a, verifyDirectoryThreshold S pre dir pinnedSigner = .accepted a) ↔
      Quorum S pre pinnedSigner dir n signers signatures := by
  have hobj : isObject dir = true := by
    cases dir <;> first | rfl | cases hs
  simp only [verifyDirectoryThreshold, hobj, hn, hs, hsig, Option.bind_some, Value.asArray, Bool.not_true,
    Bool.false_eq_true, if_false, if_neg (not_lt.mpr hpos), hlen, ne_eq, not_true]
  constructor
  · rintro ⟨a, h⟩
    split at h
    · cases h
    split at h
    · cases h
    next bytes hbytes =>
    split at h
    · cases h
    next hcount =>
    split at h
    · next u hbind =>
      unfold checkGatewayBindings at hbind
      split at hbind
      · cases hbind
      · next gateways hg =>
        exact ⟨bytes, gateways, hbytes, hg, le_countSigners.mp (not_lt.mp hcount), checkEntries_accepted.mp hbind⟩
    · cases h
    · cases h
  · rintro ⟨bytes, gateways, hbytes, hg, hK, hbound⟩
    have hcount := le_countSigners.mpr hK
    have hle : (countSigners S (normalizePinnedSigners pinnedSigner) bytes [] (signers.zip signatures)).length ≤
        signers.length := by
      have hcounted := countSigners_length S (normalizePinnedSigners pinnedSigner) [] bytes (signers.zip signatures)
      rw [List.length_zip] at hcounted
      simp only [List.length_nil] at hcounted
      omega
    rw [if_neg (by omega)]
    simp only [hbytes, if_neg (not_lt.mpr hcount), checkGatewayBindings, hg, checkEntries_accepted.mpr hbound]
    exact ⟨_, rfl⟩

/-- A directory whose list of signatures, each with its signer, comes in another order. -/
structure Reordered (dir dir' : Value) : Prop where
  fields : ∀ key ∈ ["version", "issued", "gateways", "threshold"], dir'.get key = dir.get key
  lists : ∃ signers signatures signers' signatures',
    dir.get "signers" = some (.arr signers) ∧ dir.get "signatures" = some (.arr signatures) ∧
    dir'.get "signers" = some (.arr signers') ∧ dir'.get "signatures" = some (.arr signatures') ∧
    signers.length = signatures.length ∧ signers'.length = signatures'.length ∧
    (signers'.zip signatures').Perm (signers.zip signatures)

lemma Reordered.payload {dir dir' : Value} (h : Reordered dir dir') :
    canonicalDirectoryBytes dir' = canonicalDirectoryBytes dir ∧ gatewaysOf dir' = gatewaysOf dir := by
  have hv := h.fields "version" (by simp)
  have hi := h.fields "issued" (by simp)
  have hg := h.fields "gateways" (by simp)
  have hgateways : gatewaysOf dir' = gatewaysOf dir := by rw [gatewaysOf, gatewaysOf, hg]
  have hfields : ["version", "issued"].filterMap (signedField dir') = ["version", "issued"].filterMap (signedField dir) := by
    simp only [List.filterMap_cons, List.filterMap_nil, signedField, hv, hi]
  exact ⟨by rw [canonicalDirectoryBytes, canonicalDirectoryBytes, signedPayload, signedPayload, hgateways, hfields],
    hgateways⟩

lemma Quorum.perm {dir dir' : Value} {n : ℤ} {signers signatures signers' signatures' : List Value}
    (hsame : canonicalDirectoryBytes dir' = canonicalDirectoryBytes dir ∧ gatewaysOf dir' = gatewaysOf dir)
    (hperm : (signers'.zip signatures').Perm (signers.zip signatures)) :
    Quorum S pre pinnedSigner dir' n signers' signatures' ↔ Quorum S pre pinnedSigner dir n signers signatures := by
  have hsigned : ∀ bytes key, Signed S (normalizePinnedSigners pinnedSigner) bytes (signers'.zip signatures') key ↔
      Signed S (normalizePinnedSigners pinnedSigner) bytes (signers.zip signatures) key := fun bytes key => by
    simp only [Signed, hperm.mem_iff]
  simp only [Quorum, hsame.1, hsame.2, hsigned]

/-- **M of N.** A directory is accepted if and only if its threshold is an integer from 1 on, its signers and its
signatures are lists of one length, at least as many distinct pinned keys as the threshold have a valid signature in
the list, and every entry is bound to its onion.  The order of the list does not matter. -/
theorem threshold_accepts_iff (S : Schemes) (pre : Bool) (pinnedSigner : PinnedSigner) (dir : Value) :
    ((∃ a, verifyDirectoryThreshold S pre dir pinnedSigner = .accepted a) ↔
      ∃ n signers signatures, (dir.get "threshold").bind Value.asInteger = some n ∧ 1 ≤ n ∧
        dir.get "signers" = some (.arr signers) ∧ dir.get "signatures" = some (.arr signatures) ∧
        signers.length = signatures.length ∧ Quorum S pre pinnedSigner dir n signers signatures) ∧
    ∀ dir', Reordered dir dir' → ((∃ a, verifyDirectoryThreshold S pre dir' pinnedSigner = .accepted a) ↔
      ∃ a, verifyDirectoryThreshold S pre dir pinnedSigner = .accepted a) := by
  constructor
  · constructor
    · rintro ⟨a, h⟩
      have hacc := h
      unfold verifyDirectoryThreshold at h
      split at h
      · cases h
      simp only at h
      split at h
      · cases h
      next n hn =>
      split at h
      · cases h
      next hpos =>
      split at h
      · next signers signatures hs hsig =>
        split at h
        · cases h
        next hlen =>
        rw [asArray_some] at hs hsig
        exact ⟨n, signers, signatures, hn, not_lt.mp hpos, hs, hsig, not_not.mp hlen,
          (verifyDirectoryThreshold_of hn (not_lt.mp hpos) hs hsig (not_not.mp hlen)).mp ⟨a, hacc⟩⟩
      · cases h
    · rintro ⟨n, signers, signatures, hn, hpos, hs, hsig, hlen, hq⟩
      exact (verifyDirectoryThreshold_of hn hpos hs hsig hlen).mpr hq
  · intro dir' hre
    have hpayload := hre.payload
    have hthreshold := hre.fields "threshold" (by simp)
    obtain ⟨signers, signatures, signers', signatures', hs, hsig, hs', hsig', hlen, hlen', hperm⟩ := hre.lists
    by_cases hok : ∃ n, (dir.get "threshold").bind Value.asInteger = some n ∧ 1 ≤ n
    · obtain ⟨n, hn, hpos⟩ := hok
      rw [verifyDirectoryThreshold_of hn hpos hs hsig hlen,
        verifyDirectoryThreshold_of (hthreshold ▸ hn) hpos hs' hsig' hlen', Quorum.perm hpayload hperm]
    · have hbad : ∀ d : Value, d.get "threshold" = dir.get "threshold" →
          ¬ ∃ a, verifyDirectoryThreshold S pre d pinnedSigner = .accepted a := by
        rintro d hd ⟨a, h⟩
        unfold verifyDirectoryThreshold at h
        split at h
        · cases h
        simp only at h
        split at h
        · cases h
        next n hn =>
        split at h
        · cases h
        next hpos => exact hok ⟨n, hd ▸ hn, not_lt.mp hpos⟩
      exact iff_of_false (hbad dir' hthreshold) (hbad dir rfl)

/-- No scheme verifies anything. -/
def noScheme : Schemes := ⟨fun _ => [], fun _ _ _ => false⟩

/-- A directory without gateways and signatures, with a threshold of 0. -/
def emptyDirectory : Value :=
  .obj [("version", .num (.fin (.ofInt 1))), ("gateways", .arr []), ("threshold", .num (.fin (.ofInt 0))),
    ("signers", .arr []), ("signatures", .arr [])]

/-- At least 0 keys signed it, and it is refused. -/
theorem threshold_zero_refused : (emptyDirectory.get "threshold").bind Value.asInteger = some 0 ∧
    emptyDirectory.get "signers" = some (.arr []) ∧ emptyDirectory.get "signatures" = some (.arr []) ∧
    ¬ ((∃ a, verifyDirectoryThreshold noScheme false emptyDirectory .absent = .accepted a) ↔
      Quorum noScheme false .absent emptyDirectory 0 [] []) := by
  have hn : (emptyDirectory.get "threshold").bind Value.asInteger = some 0 := by rfl
  refine ⟨hn, rfl, rfl, fun h => ?_⟩
  have hq : Quorum noScheme false .absent emptyDirectory 0 [] [] :=
    ⟨_, [], rfl, rfl, ⟨∅, le_refl _, by simp⟩, by simp⟩
  obtain ⟨a, ha⟩ := h.mpr hq
  have hbad : verifyDirectoryThreshold noScheme false emptyDirectory .absent = .refused .badThreshold := by
    simp only [verifyDirectoryThreshold, hn]
    rfl
  rw [hbad] at ha
  cases ha

end ShadeTree.Directory
