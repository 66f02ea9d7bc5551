import Mathlib
import ShadeTree.Directory.Threshold

/-!
# What a directory may be made of (`verifyDirectory`)

A directory comes as JSON that nobody has looked at.  The verifier has a verdict on it, unless its gateways are no list
of values, or a pinned key signed an entry whose fields are no texts.  What it accepts is well formed, whatever it was
given.  The type of a weight is not looked at: the signature covers it.
-/

namespace ShadeTree.Directory

open ShadeTree.Lib Bootnode

variable {S : Schemes} {pre : Bool} {g dir : Value} {pinnedSigner : PinnedSigner} {bytes : List Char}

/-- The fields of the entry can be read: the onion has a `slice`, and the key a text. -/
def LegibleEntry (g : Value) : Prop :=
  match g.get "onion" with
  | none | some .null => True
  | some (.str _) => ((g.get "pubkey").elim (some "undefined".toList) Value.toText).isSome = true
  | some (.arr items) => (Value.toText (.arr (items.take 12))).isSome = true
  | some _ => False

/-- The signatures are as they have to be. -/
def WellSigned (S : Schemes) (pinnedSigner : PinnedSigner) (dir : Value) (bytes : List Char) : Prop :=
  if isThresholdDirectory dir then
    ∃ n signers signatures, (dir.get "threshold").bind Value.asInteger = some n ∧ 1 ≤ n ∧
      dir.get "signers" = some (.arr signers) ∧ dir.get "signatures" = some (.arr signatures) ∧
      signers.length = signatures.length ∧
      ∃ K : Finset String, n ≤ K.card ∧
        ∀ key ∈ K, Signed S (normalizePinnedSigners pinnedSigner) bytes (signers.zip signatures) key
  else
    (∀ signer, dir.get "signer" = some signer → signer = .null ∨
      ∃ s, signer = .str s ∧ toLowerCase s ∈ normalizePinnedSigners pinnedSigner) ∧
    ∃ signature key, dir.get "signature" = some signature ∧ Value.truthy signature = true ∧
      key ∈ normalizePinnedSigners pinnedSigner ∧ S.ed25519Verify bytes signature key = true

/-- The gateways are a list, or nothing, none of them is null, and if the directory is signed each can be read. -/
def Legible (S : Schemes) (pinnedSigner : PinnedSigner) (dir : Value) : Prop :=
  ∃ gateways, gatewaysOf dir = some gateways ∧ (∀ g ∈ gateways, g ≠ .null) ∧
    ∀ bytes, canonicalDirectoryBytes dir = some bytes → WellSigned S pinnedSigner dir bytes →
      ∀ g ∈ gateways, LegibleEntry g

/-- A signed directory whose gateways are a list, or nothing, of entries that are bound to their onions. -/
def WellFormed (S : Schemes) (pre : Bool) (pinnedSigner : PinnedSigner) (dir : Value) : Prop :=
  isObject dir = true ∧ ∃ bytes gateways, canonicalDirectoryBytes dir = some bytes ∧
    WellSigned S pinnedSigner dir bytes ∧ gatewaysOf dir = some gateways ∧ ∀ g ∈ gateways, Bound S pre g

/-! ### The ways a verdict comes about -/

/-- How a directory was judged: it was refused, or there are no bytes to sign, or it is well signed and its entries
decide. -/
inductive Judged (S : Schemes) (pre : Bool) (pinnedSigner : PinnedSigner) (dir : Value) {α : Type} : Verdict α → Prop
  | refused (why : Refusal) : Judged S pre pinnedSigner dir (.refused why)
  | noBytes (hbytes : canonicalDirectoryBytes dir = none) : Judged S pre pinnedSigner dir .threw
  | accepted (bytes : List Char) (a : α) (hbytes : canonicalDirectoryBytes dir = some bytes)
      (hsigned : WellSigned S pinnedSigner dir bytes) (hbound : checkGatewayBindings S pre dir = .accepted ()) :
      Judged S pre pinnedSigner dir (.accepted a)
  | threw (bytes : List Char) (hbytes : canonicalDirectoryBytes dir = some bytes)
      (hsigned : WellSigned S pinnedSigner dir bytes) (hbound : checkGatewayBindings S pre dir = .threw) :
      Judged S pre pinnedSigner dir .threw

/-- The entries decide on a directory that is well signed. -/
lemma judged_bindings {α : Type} (a : α) (hbytes : canonicalDirectoryBytes dir = some bytes)
    (hsigned : WellSigned S pinnedSigner dir bytes) :
    Judged S pre pinnedSigner dir (match checkGatewayBindings S pre dir with
      | .accepted _ => .accepted a
      | .refused why => .refused why
      | .threw => .threw) := by
  cases hbound : checkGatewayBindings S pre dir with
  | accepted u => exact .accepted bytes a hbytes hsigned hbound
  | refused why => exact .refused why
  | threw => exact .threw bytes hbytes hsigned hbound

lemma judged_threshold (hthreshold : isThresholdDirectory dir = true) :
    Judged S pre pinnedSigner dir (verifyDirectoryThreshold S pre dir pinnedSigner) := by
  unfold verifyDirectoryThreshold
  split
  · exact .refused _
  simp only
  split
  · exact .refused _
  next n hn =>
  split
  · exact .refused _
  next hpos =>
  split
  · next signers signatures hs hsig =>
    split
    · exact .refused _
    next hlen =>
    split
    · exact .refused _
    split
    · next hbytes => exact .noBytes hbytes
    next bytes hbytes =>
    split
    · exact .refused _
    next hcount =>
    refine judged_bindings _ hbytes ?_
    rw [asArray_some] at hs hsig
    unfold WellSigned
    rw [if_pos hthreshold]
    exact ⟨n, signers, signatures, hn, not_lt.mp hpos, hs, hsig, not_not.mp hlen,
      le_countSigners.mp (not_lt.mp hcount)⟩
  · exact .refused _

lemma Judged.map {α β : Type} {v : Verdict α} (h : Judged S pre pinnedSigner dir v) (f : α → β) :
    Judged S pre pinnedSigner dir (match v with
      | .accepted a => .accepted (f a)
      | .refused why => .refused why
      | .threw => .threw) := by
  cases h with
  | refused why => exact .refused why
  | noBytes hbytes => exact .noBytes hbytes
  | accepted bytes a hbytes hsigned hbound => exact .accepted bytes (f a) hbytes hsigned hbound
  | threw bytes hbytes hsigned hbound => exact .threw bytes hbytes hsigned hbound

lemma judged (S : Schemes) (pre : Bool) (pinnedSigner : PinnedSigner) (dir : Value) :
    Judged S pre pinnedSigner dir (verifyDirectory S pre dir pinnedSigner) := by
  unfold verifyDirectory
  split
  · exact .refused _
  split
  · next hthreshold =>
    have hmap := (@judged_threshold S pre dir pinnedSigner hthreshold).map Prod.fst
    revert hmap
    cases verifyDirectoryThreshold S pre dir pinnedSigner <;> exact id
  next hsingle =>
  split
  · exact .refused _
  next signature hsig =>
  obtain ⟨hget, htruthy⟩ := Option.filter_eq_some_iff.mp hsig
  simp only
  split
  any_goals exact .refused _
  next hbool hnum harr hobj =>
  split
  · exact .refused _
  next hpinned =>
  split
  · next hbytes => exact .noBytes hbytes
  next bytes hbytes =>
  split
  · exact .refused _
  next matched hmatched =>
  split
  · exact .refused _
  refine judged_bindings _ hbytes ?_
  have hmem := List.mem_of_find?_eq_some hmatched
  unfold WellSigned
  rw [if_neg hsingle]
  refine ⟨fun signer hsigner => ?_, signature, matched, hget, htruthy, hmem, List.find?_some hmatched⟩
  cases signer with
  | null => exact .inl rfl
  | str s =>
    refine .inr ⟨s, rfl, ?_⟩
    by_contra hno
    exact hpinned ⟨List.ne_nil_of_mem hmem, by simp [hsigner, Value.asString, hno]⟩
  | bool b => exact (hbool b hsigner).elim
  | num n => exact (hnum n hsigner).elim
  | arr items => exact (harr items hsigner).elim
  | obj fields => exact (hobj fields hsigner).elim

/-! ### What can be read -/

lemma mapM_signedEntry {gateways : List Value} (h : ∀ g ∈ gateways, g ≠ .null) :
    ∃ entries, gateways.mapM signedEntry = some entries := by
  induction gateways with
  | nil => exact ⟨[], rfl⟩
  | cons g gateways ih =>
    have hg : ∃ e, signedEntry g = some e := by
      cases g with
      | null => exact absurd rfl (h .null List.mem_cons_self)
      | _ => exact ⟨_, rfl⟩
    obtain ⟨e, he⟩ := hg
    obtain ⟨entries, hentries⟩ := ih fun g' hg' => h g' (List.mem_cons_of_mem _ hg')
    exact ⟨e :: entries, by rw [List.mapM_cons, he, hentries]; rfl⟩

/-- Without null entries there are bytes to sign. -/
lemma canonicalDirectoryBytes_ne_none {gateways : List Value} (hg : gatewaysOf dir = some gateways)
    (h : ∀ g ∈ gateways, g ≠ .null) : canonicalDirectoryBytes dir ≠ none := by
  obtain ⟨entries, hentries⟩ := mapM_signedEntry h
  unfold canonicalDirectoryBytes signedPayload
  simp only [hg, hentries, Option.bind_eq_bind, Option.bind_some]
  exact nofun

lemma checkEntry_ne_threw (h : LegibleEntry g) : checkEntry S pre g ≠ .threw := by
  intro hthrew
  unfold checkEntry at hthrew
  unfold LegibleEntry at h
  split at hthrew
  · cases hthrew
  · cases hthrew
  · next onion honion =>
    rw [honion] at h
    split at hthrew
    · cases hthrew
    split at hthrew
    · next hpub =>
      rw [hpub] at h
      cases h
    split at hthrew
    · cases hthrew
    split at hthrew <;> cases hthrew
  · next items hitems =>
    rw [hitems] at h
    rw [if_pos h] at hthrew
    cases hthrew
  · next v hnull hstr harr hv =>
    rw [hv] at h
    cases v with
    | null => exact hnull rfl
    | str s => exact hstr s rfl
    | arr items => exact harr items rfl
    | _ => exact h

lemma checkEntries_ne_threw {gateways : List Value} (h : ∀ g ∈ gateways, LegibleEntry g) :
    checkEntries S pre gateways ≠ .threw := by
  induction gateways with
  | nil => simp [checkEntries]
  | cons g gateways ih =>
    unfold checkEntries
    cases hcheck : checkEntry S pre g with
    | accepted a => exact ih fun g' hg' => h g' (List.mem_cons_of_mem _ hg')
    | refused why => simp
    | threw => exact absurd hcheck (checkEntry_ne_threw (h g List.mem_cons_self))

/-- **Nothing malformed is accepted, and what can be read gets a verdict.** -/
theorem verifyDirectory_total (S : Schemes) (pre : Bool) (pinnedSigner : PinnedSigner) (dir : Value) :
    (Legible S pinnedSigner dir → verifyDirectory S pre dir pinnedSigner ≠ .threw) ∧
    (∀ signers, verifyDirectory S pre dir pinnedSigner = .accepted signers → WellFormed S pre pinnedSigner dir) := by
  have hjudged := judged S pre pinnedSigner dir
  constructor
  · rintro ⟨gateways, hg, hnull, hread⟩ hthrew
    rw [hthrew] at hjudged
    cases hjudged with
    | noBytes hbytes => exact canonicalDirectoryBytes_ne_none hg hnull hbytes
    | threw bytes hbytes hsigned hbound =>
      unfold checkGatewayBindings at hbound
      rw [hg] at hbound
      exact checkEntries_ne_threw (hread bytes hbytes hsigned) hbound
  · intro signers h
    rw [h] at hjudged
    cases hjudged with
    | accepted bytes a hbytes hsigned hbound =>
      unfold checkGatewayBindings at hbound
      split at hbound
      · cases hbound
      next gateways hg =>
      refine ⟨?_, bytes, gateways, hbytes, hsigned, hg, checkEntries_accepted.mp hbound⟩
      by_contra hno
      rw [Bool.not_eq_true] at hno
      simp [verifyDirectory, hno] at h

/-! ### A directory with a weight in words -/

/-- The checksum of the key that is all zeros, and every signature holds. -/
def openSchemes : Schemes := ⟨fun _ => [205, 14], fun _ _ _ => true⟩

/-- A directory with the gateways, and a signature. -/
def signedWith (gateways : Value) : Value :=
  .obj [("version", .num (.fin (.ofInt 1))), ("gateways", gateways), ("signature", .str "sig")]

/-- A gateway with a weight that is no number. -/
def wordyGateway : Value :=
  .obj [("onion", .str "aaaaaaaaaaaaaaaaaaaaaaaaaaaaaaaaaaaaaaaaaaaaaaaaaaam2dqd.onion"),
    ("pubkey", .str "0000000000000000000000000000000000000000000000000000000000000000"), ("weight", .str "heavy")]

set_option maxRecDepth 4000 in
lemma wordyGateway_accepted :
    verifyDirectory openSchemes false (signedWith (.arr [wordyGateway])) (.one "key") = .accepted ["key"] := by
  have hentries : checkEntries openSchemes false [wordyGateway] = .accepted () := by
    rw [checkEntries_accepted, List.forall_mem_singleton]
    exact ⟨_, List.replicate 32 0, _, rfl, by decide, rfl, by decide, nofun⟩
  have hbind : checkGatewayBindings openSchemes false (signedWith (.arr [wordyGateway])) = .accepted () := hentries
  have hbytes : canonicalDirectoryBytes (signedWith (.arr [wordyGateway])) ≠ none :=
    canonicalDirectoryBytes_ne_none rfl (by simp [wordyGateway])
  obtain ⟨bytes, hbytes⟩ := Option.ne_none_iff_exists'.mp hbytes
  have hkey : normalizePinnedSigners (.one "key") = ["key"] := by decide
  unfold verifyDirectory
  rw [hbytes, hbind, hkey]
  rfl

/-- Its entry can be read, and it is well formed. -/
theorem verifyDirectory_total_wordy :
    verifyDirectory openSchemes false (signedWith (.arr [wordyGateway])) (.one "key") ≠ .threw ∧
    WellFormed openSchemes false (.one "key") (signedWith (.arr [wordyGateway])) := by
  obtain ⟨hverdict, hformed⟩ := verifyDirectory_total openSchemes false (.one "key") (signedWith (.arr [wordyGateway]))
  refine ⟨hverdict ⟨_, rfl, by simp [wordyGateway], fun bytes _ _ g hg => ?_⟩, hformed _ wordyGateway_accepted⟩
  obtain rfl := List.mem_singleton.mp hg
  rfl

/-- A weight in words is accepted, and a number in place of the gateways throws, whoever signed it. -/
theorem directory_not_total :
    verifyDirectory openSchemes false (signedWith (.arr [wordyGateway])) (.one "key") = .accepted ["key"] ∧
    ∀ (S : Schemes) (pre : Bool) (pinnedSigner : PinnedSigner),
      verifyDirectory S pre (signedWith (.num (.fin (.ofInt 5)))) pinnedSigner = .threw := by
  refine ⟨wordyGateway_accepted, fun S pre pinnedSigner => ?_⟩
  have hbytes : canonicalDirectoryBytes (signedWith (.num (.fin (.ofInt 5)))) = none := rfl
  have hsigner : ¬ (normalizePinnedSigners pinnedSigner ≠ [] ∧ false = true) := fun h => Bool.noConfusion h.2
  unfold verifyDirectory
  rw [hbytes]
  exact if_neg hsigner

end ShadeTree.Directory
