import ShadeTree.Bootnode.OnionCodec
import ShadeTree.Bootnode.ServedCaps

/-!
# A client accepts what a bootnode serves

The bootnode builds its directories from records that any gateway, peer or file handed in, and signs them; a client
that pins the key checks the signature and binds each entry to its onion again.  Every directory that is built passes
these checks as the client reads it, and so does what the client puts together from an earlier directory and a delta.
The key, its signatures and the client's `ed25519Verify` are parameters.
-/

namespace ShadeTree.Bootnode

open ShadeTree.Lib Directory

/-! ### The client's checks -/

/-- The client verifies what the bootnode signs, and no signature under the empty key. -/
structure Signs (S : Schemes) (C : ServerConfig) : Prop where
  verifies : ∀ bytes, S.ed25519Verify bytes (.str (C.sign bytes)) C.signerPub = true
  nonempty : ∀ bytes, C.sign bytes ≠ ""
  keyed : ∀ bytes signature, S.ed25519Verify bytes signature "" = false

/-- The client pins the key of the bootnode, which is written in lower case. -/
structure Pins (C : ServerConfig) (pinnedSigner : PinnedSigner) : Prop where
  mem : C.signerPub ∈ normalizePinnedSigners pinnedSigner
  lower : Directory.toLowerCase C.signerPub = C.signerPub

/-- `verifyDirectory` accepts for one of the pinned keys. -/
def Accepts (S : Schemes) (acceptPreV4Caps : Bool) (pinnedSigner : PinnedSigner) (dir : Value) : Prop :=
  ∃ matched ∈ normalizePinnedSigners pinnedSigner,
    verifyDirectory S acceptPreV4Caps dir pinnedSigner = .accepted [matched]

/-! ### One entry -/

section Entry

lemma hexDigit_mem {d : ℕ} (h : d < 16) : Json.hexDigit d ∈ hexDigits := by
  interval_cases d <;> decide

lemma toLowerCase_hexText {bytes : List ℕ} (h : ∀ b ∈ bytes, b < 256) :
    Directory.toLowerCase (hexText bytes) = hexText bytes := by
  apply toLowerCase_hex
  rw [List.all_eq_true]
  intro c hc
  unfold hexText at hc
  rw [String.toList_ofList] at hc
  obtain ⟨b, hb, hc⟩ := List.mem_flatMap.mp hc
  have hlt := h b hb
  apply decide_eq_true
  rcases List.mem_pair.mp hc with rfl | rfl
  · exact hexDigit_mem (by omega)
  · exact hexDigit_mem (by omega)

lemma key_lt {checksum : List ℕ → List ℕ} {onion : String} {key : List ℕ} (h : onionToPubkey checksum onion = .ok key) :
    ∀ b ∈ key, b < 256 := by
  obtain ⟨-, -, hdecode⟩ := onionToPubkey_ok h
  intro b hb
  exact regroup_lt hdecode b (List.mem_append_left _ hb)

variable {T : Type} {K : Keys} {S : Schemes} {C : ServerConfig}

lemma get_pubkey_listing (down : String → Bool) (onion : String) (e : Entry K) :
    (listing C down onion e).get "pubkey" = some (.str (hexText e.checked.pubkey)) := by
  unfold listing
  cases e.operator.filter (· ≠ "") <;> cases e.checked.caps <;> cases e.capsSig.filter (· ≠ "") <;> rfl

/-- An entry under its onion is bound to it, when its capabilities hold. -/
lemma checkEntry_listing {acceptPreV4Caps : Bool} {down : String → Bool} {e : Entry K}
    (hscheme : S.checksum = K.checksum) (hcaps : CapsHold S (listing C down e.checked.onion e).wire) :
    checkEntry S acceptPreV4Caps (listing C down e.checked.onion e).wire = .accepted () := by
  have honion : (listing C down e.checked.onion e).wire.get "onion" = some (.str e.checked.onion) := by
    rw [Value.get_wire, get_listing]
    rfl
  have hpubkey : (listing C down e.checked.onion e).wire.get "pubkey" = some (.str (hexText e.checked.pubkey)) := by
    rw [Value.get_wire, get_pubkey_listing]
    rfl
  have hkey : onionToPubkey S.checksum e.checked.onion = .ok e.checked.pubkey := by
    rw [hscheme]
    exact e.checked.pubkey_eq
  have hlower : Directory.toLowerCase (String.ofList (hexText e.checked.pubkey).toList) = hexText e.checked.pubkey := by
    rw [String.ofList_toList, toLowerCase_hexText (key_lt hkey)]
  generalize (listing C down e.checked.onion e).wire = g at hcaps honion hpubkey
  have hholds : (hasCaps (g.get "caps") && !verifyCapsSig S e.checked.onion (g.get "caps") (g.get "capsSig")) = false := by
    cases hget : g.get "caps" with
    | none => rfl
    | some caps =>
      obtain ⟨onion, honion', hverify⟩ := hcaps caps hget
      obtain rfl : e.checked.onion = onion := Json.str.inj (Option.some.inj (honion.symm.trans honion'))
      rw [hverify]
      simp
  unfold checkEntry
  simp only [honion, hkey, hpubkey, Option.elim_some, Value.toText, hlower, hholds]
  simp

end Entry

/-! ### One directory -/

section OneDirectory

variable {T : Type} {K : Keys} {S : Schemes} {C : ServerConfig} {s : Server T K} {dir : ServedDirectory}

/-- The capabilities of what is listed hold as a client reads it. -/
lemma Server.Builds.bound [DecidableEq T] (h : s.Builds C dir) (hscheme : S.checksum = K.checksum)
    (hattested : AllAttested S C s.system) (acceptPreV4Caps : Bool) :
    ∀ g ∈ dir.gateways, checkEntry S acceptPreV4Caps g.wire = .accepted () := by
  obtain ⟨down, entries, hperm, rfl⟩ := h
  intro g hg
  obtain ⟨⟨onion, entry⟩, hentry, rfl⟩ := List.mem_map.mp hg
  have hlookup : s.system.registry.live.lookup onion = some entry := by
    have hmem := hperm.mem_iff.mp hentry
    exact (Table.lookup_keep_eq_some.mp (AList.mem_lookup_iff.mpr hmem)).1
  obtain ⟨rfl, hsig, hholds⟩ := hattested.listed onion entry hlookup
  refine checkEntry_listing hscheme (CapsHold.wire fun caps hcaps => ?_)
  obtain ⟨kept, capsSig, hkept, hstored, rfl, hget⟩ := get_caps_listing hcaps
  refine ⟨entry.checked.onion, get_listing C down _ entry, ?_⟩
  rw [hget]
  exact hholds kept capsSig hkept (hsig ▸ hstored)

lemma checkEntries_accepted_of {acceptPreV4Caps : Bool} {gateways : List Value}
    (h : ∀ g ∈ gateways, checkEntry S acceptPreV4Caps g = .accepted ()) :
    checkEntries S acceptPreV4Caps gateways = .accepted () := by
  induction gateways with
  | nil => rfl
  | cons g gateways ih =>
    unfold checkEntries
    rw [h g List.mem_cons_self]
    exact ih fun g' hg' => h g' (List.mem_cons_of_mem _ hg')

/-- What is signed under a pinned key and binds its entries is accepted. -/
lemma accepts_of_signed {acceptPreV4Caps : Bool} {pinnedSigner : PinnedSigner} (hsigns : Signs S C)
    (hpins : Pins C pinnedSigner) {bytes : List Char} (hbytes : canonicalDirectoryBytes dir.json.wire = some bytes)
    (hsignature : dir.signature = C.sign bytes) (hsigner : dir.signer = C.signerPub)
    (hbound : ∀ g ∈ dir.gateways, checkEntry S acceptPreV4Caps g.wire = .accepted ()) :
    Accepts S acceptPreV4Caps pinnedSigner dir.json.wire := by
  have hget : ∀ key, dir.json.wire.get key = (dir.json.get key).map Value.wire := fun key => Value.get_wire key _
  have hobject : isObject dir.json.wire = true := rfl
  have hthreshold : isThresholdDirectory dir.json.wire = false := by
    unfold isThresholdDirectory
    rw [hget, hget, hget]
    rfl
  have hsig : (dir.json.wire.get "signature").filter Value.truthy = some (.str dir.signature) := by
    have hfield : dir.json.wire.get "signature" = some (.str dir.signature) := by
      rw [hget]
      rfl
    have htruthy : Value.truthy (.str dir.signature) = true := by
      rw [hsignature]
      simp [Value.truthy, hsigns.nonempty bytes]
    rw [hfield, Option.filter_some, if_pos htruthy]
  have hname : dir.json.wire.get "signer" = some (.str C.signerPub) := by
    rw [hget, ← hsigner]
    rfl
  have hpinned : ¬ (normalizePinnedSigners pinnedSigner ≠ [] ∧
      ((some (Json.str C.signerPub : Value)).bind Value.asString).any (fun s =>
        Directory.toLowerCase s ∉ normalizePinnedSigners pinnedSigner)) := by
    rintro ⟨-, hunknown⟩
    simp only [Option.bind_some, Value.asString, Option.any_some, decide_eq_true_eq] at hunknown
    rw [hpins.lower] at hunknown
    exact hunknown hpins.mem
  have hgateways : gatewaysOf dir.json.wire = some (dir.gateways.map Value.wire) := by
    unfold gatewaysOf
    have hfield : dir.json.wire.get "gateways" = some (.arr (dir.gateways.map Value.wire)) := by
      rw [hget, ← Value.wire_arr]
      rfl
    rw [hfield]
    rfl
  have hbindings : checkGatewayBindings S acceptPreV4Caps dir.json.wire = .accepted () := by
    unfold checkGatewayBindings
    rw [hgateways]
    refine checkEntries_accepted_of fun g hg => ?_
    obtain ⟨g, hmem, rfl⟩ := List.mem_map.mp hg
    exact hbound g hmem
  -- the first pinned key under which the signature holds, which is not the empty one
  obtain ⟨matched, hmatched⟩ : ∃ matched, (normalizePinnedSigners pinnedSigner).find?
      (fun p => S.ed25519Verify bytes (.str dir.signature) p) = some matched := by
    rw [← Option.isSome_iff_exists, List.find?_isSome]
    exact ⟨_, hpins.mem, hsignature ▸ hsigns.verifies bytes⟩
  have hne : matched ≠ "" := by
    rintro rfl
    have hholds := List.find?_some hmatched
    rw [hsigns.keyed] at hholds
    cases hholds
  refine ⟨matched, List.mem_of_find?_eq_some hmatched, ?_⟩
  unfold verifyDirectory
  simp only [hobject, hthreshold, hsig, hname, hbytes, hmatched, hbindings, if_neg hpinned, if_neg hne]
  simp

end OneDirectory

/-! ### Every directory -/

section Runs

variable {T : Type} [DecidableEq T] {K : Keys} {S : Schemes} {C : ServerConfig} {clock : ℤ}
  {tr : List (ServerEvent T K)} {s : Server T K} {dir current old : ServedDirectory} {etag base : String}
  {sinceEtag : Option String} {reply : Reply} {pinnedSigner : PinnedSigner}

/-- Every record that came in was checked by `verifyCapsSig`. -/
def CapsChecked (S : Schemes) (C : ServerConfig) (tr : List (ServerEvent T K)) : Prop :=
  ∀ t source record answer, ServerEvent.registry (.began t source (some record) answer) ∈ tr → ChecksCaps S K C record

/-- What is shared by the client and the bootnode. -/
structure Paired (S : Schemes) (K : Keys) (C : ServerConfig) (pinnedSigner : PinnedSigner) : Prop where
  scheme : S.checksum = K.checksum
  keeps : KeepsCanonical K C
  signs : Signs S C
  pins : Pins C pinnedSigner

lemma Server.Builds.accepts (hp : Paired S K C pinnedSigner) (hrun : Run (ServerStep C) (Server.start C clock) tr s)
    (hchecked : CapsChecked S C tr) (h : s.Builds C dir) (acceptPreV4Caps : Bool) :
    Accepts S acceptPreV4Caps pinnedSigner dir.json.wire := by
  obtain ⟨bytes, hbytes, hsignature⟩ := h.signed
  have hsigner : dir.signer = C.signerPub := by
    obtain ⟨down, entries, -, rfl⟩ := h
    rfl
  exact accepts_of_signed hp.signs hp.pins hbytes hsignature hsigner
    (h.bound hp.scheme (allAttested_of_run hp.keeps hrun hchecked) acceptPreV4Caps)

lemma ServerStep.builds {u : Server T K} {e : ServerEvent T K} (hst : ServerStep C s e u)
    (he : e.built = some (dir, etag)) : s.Builds C dir := by
  cases hst with
  | registry _ => cases he
  | directory hbuilds =>
    obtain ⟨rfl, -⟩ := Prod.mk.inj (Option.some.inj he)
    exact hbuilds
  | delta _ hbuilds =>
    obtain ⟨rfl, -⟩ := Prod.mk.inj (Option.some.inj he)
    exact hbuilds

/-- Every directory of a run is accepted. -/
lemma accepts_of_built (hp : Paired S K C pinnedSigner) (hrun : Run (ServerStep C) (Server.start C clock) tr s)
    (hchecked : CapsChecked S C tr) (hbuilt : Built tr dir etag) (acceptPreV4Caps : Bool) :
    Accepts S acceptPreV4Caps pinnedSigner dir.json.wire := by
  obtain ⟨e, he, hdir⟩ := hbuilt
  obtain ⟨tr₁, tr₂, v, w, rfl, hrun₁, hst, -⟩ := hrun.exists_step he
  refine (hst.builds hdir).accepts hp hrun₁ (fun t source record answer hmem => ?_) acceptPreV4Caps
  exact hchecked t source record answer (List.mem_append_left _ hmem)

/-- A delta gives the current directory to a client that holds what was built under its etag. -/
lemma reconstruct_of_delta (hrun : Run (ServerStep C) (Server.start C clock) tr s)
    (hsha : Set.InjOn C.sha256 (builtBytes tr)) {tr₁ tr₂ : List (ServerEvent T K)}
    (htr : tr = tr₁ ++ .delta current base sinceEtag reply :: tr₂) (hold : Built tr₁ old etag)
    (hkey : etagKey (some etag) = etagKey sinceEtag) (hdelta : reply.isDelta = true) :
    reconstruct old.json.wire reply.json.wire = some current.json.wire := by
  subst htr
  obtain ⟨v, hrun₁, hrun₂⟩ := hrun.split
  obtain ⟨w, hst, -⟩ := hrun₂.uncons
  have hremembers := remembers (hrun₁.snoc hst)
  have hinj : Set.InjOn C.sha256 (builtBytes (tr₁ ++ [ServerEvent.delta current base sinceEtag reply])) := by
    refine hsha.mono ?_
    rintro bytes ⟨dir, etag, hbuilt, rfl⟩
    refine ⟨dir, etag, ?_, rfl⟩
    rw [List.append_cons]
    exact hbuilt.append_left
  have hbuilt : Built (tr₁ ++ [ServerEvent.delta current base sinceEtag reply]) old etag := hold.append_left
  obtain ⟨hbuilds, -, hreply⟩ := hst.of_delta
  rcases deltaOf_cases current base w.versionHistory sinceEtag with hfull | ⟨version, hget, hsome⟩
  · rw [hreply, hfull] at hdelta
    cases hdelta
  obtain ⟨first, hfirst, hfirstKey, rfl⟩ := hremembers.version _ _ hget
  have hversion := version_eq hinj hremembers hfirst hbuilt (hfirstKey.symm.trans hkey.symm)
  rw [hreply, hsome, hversion]
  exact reconstruct_eq (hremembers.built old etag hbuilt).2 hbuilds.listed _ _ _ _

/-- **A client accepts what a bootnode serves.** Whatever gateways, peers and files hand in, and however calls, the clock
and requests interleave: every directory that is built verifies under the pinned key as a client reads it, and so does
what a client puts together from a directory that was built before and a delta since its etag. -/
theorem served_directory_accepted (hp : Paired S K C pinnedSigner) (hrun : Run (ServerStep C) (Server.start C clock) tr s)
    (hchecked : CapsChecked S C tr) (hsha : Set.InjOn C.sha256 (builtBytes tr)) (acceptPreV4Caps : Bool) :
    (∀ dir etag, Built tr dir etag → Accepts S acceptPreV4Caps pinnedSigner dir.json.wire) ∧
    ∀ tr₁ current base sinceEtag reply tr₂ old etag, tr = tr₁ ++ .delta current base sinceEtag reply :: tr₂ →
      Built tr₁ old etag → etagKey (some etag) = etagKey sinceEtag → reply.isDelta = true →
        ∃ dir, reconstruct old.json.wire reply.json.wire = some dir ∧ Accepts S acceptPreV4Caps pinnedSigner dir := by
  refine ⟨fun dir etag hbuilt => accepts_of_built hp hrun hchecked hbuilt acceptPreV4Caps, ?_⟩
  intro tr₁ current base sinceEtag reply tr₂ old etag htr hold hkey hdelta
  refine ⟨_, reconstruct_of_delta hrun hsha htr hold hkey hdelta, ?_⟩
  subst htr
  exact accepts_of_built hp hrun hchecked ⟨_, List.mem_append_right _ List.mem_cons_self, rfl⟩ acceptPreV4Caps

end Runs

/-! ### A gateway without capabilities -/

section Sample

/-- Every signature holds under every key but the empty one. -/
def pinningSchemes : Schemes := ⟨signedKeys.checksum, fun _ _ key => key ≠ ""⟩

/-- A record that comes in has no capabilities. -/
def Event.plain : Event ℕ signedKeys → Bool
  | .began _ _ (some record) _ => record.caps = none
  | _ => true

lemma checksCaps_plain {record : Record} (h : record.caps = none) :
    ChecksCaps pinningSchemes signedKeys portServer record := by
  intro onion pubkey caps capsSig _ _ hcaps _
  rw [h] at hcaps
  cases hcaps

lemma portServer_sign (bytes : List Char) : portServer.sign bytes ≠ "" := by
  simp only [portServer, sampleServer]
  split_ifs <;> simp

lemma portServer_signerPub :
    portServer.signerPub = "3b6a27bcceb6a42d62a3a8d02a6f0d73653215771de243a63ac048a18b59da29" := rfl

lemma portServer_lower : Directory.toLowerCase portServer.signerPub = portServer.signerPub :=
  toLowerCase_hex (by decide)

lemma paired_sample : Paired pinningSchemes signedKeys portServer (.one portServer.signerPub) where
  scheme := rfl
  keeps _ _ _ := congrArg CanonicalCaps.value (canonicalCaps_value _).symm
  signs := by
    refine ⟨fun bytes => ?_, portServer_sign, fun bytes signature => ?_⟩
    · simp [pinningSchemes, portServer_signerPub]
    · simp [pinningSchemes]
  pins := by
    refine ⟨?_, portServer_lower⟩
    decide

/-- A gateway announces itself, and the directory that lists it is accepted. -/
theorem served_directory_accepted_plain : ∃ (tr : List (ServerEvent ℕ signedKeys)) (s : Server ℕ signedKeys)
    (dir : ServedDirectory) (etag : String), Run (ServerStep portServer) (Server.start portServer 0) tr s ∧
    Built tr dir etag ∧ dir.onions = [zeroOnion] ∧
    Accepts pinningSchemes false (.one portServer.signerPub) dir.json.wire := by
  obtain ⟨tr, u, hrun, hlisted⟩ := System.exists_run portServer.toRegistryConfig (.start portServer.toRegistryConfig 0)
    (fun _ e => e.plain = true) [.announce 0 (some (plainRecord zeroOnion 60 "n")), .write 0]
    (fun _ u => (u.registry.directory portServer.toRegistryConfig u.clock).keys = [zeroOnion])
    (by decide +kernel)
  have hplain : ∀ e ∈ tr, e.plain = true := by
    refine hrun.invariant (I := fun tr _ => ∀ e ∈ tr, e.plain = true) (fun e he => absurd he List.not_mem_nil) ?_
    intro tr s e u _ hall hst e' he'
    rcases List.mem_append.mp he' with hold | hnew
    · exact hall e' hold
    · exact List.mem_singleton.mp hnew ▸ hst.1
  set dir := directoryOf portServer u.clock (fun _ => false)
    (u.registry.directory portServer.toRegistryConfig u.clock).entries with hdir
  have hbuilds : (Server.mk u .empty).Builds portServer dir := ⟨fun _ => false, _, List.Perm.refl _, rfl⟩
  have hserver : Run (ServerStep portServer) (Server.start portServer 0) (tr.map .registry) ⟨u, .empty⟩ :=
    server_run_of_run hrun.forget
  have hall := hserver.snoc (.directory hbuilds)
  have hbuilt : Built (tr.map .registry ++ [.directory dir (etagOf portServer dir)]) dir (etagOf portServer dir) :=
    ⟨_, List.mem_append_right _ (List.mem_singleton_self _), rfl⟩
  have hchecked : CapsChecked pinningSchemes portServer
      (tr.map .registry ++ [.directory dir (etagOf portServer dir)]) := by
    intro t source record answer hmem
    rcases List.mem_append.mp hmem with hmem | hmem
    · obtain ⟨e, he, heq⟩ := List.mem_map.mp hmem
      obtain rfl := ServerEvent.registry.inj heq
      exact checksCaps_plain (of_decide_eq_true (hplain _ he))
    · cases List.mem_singleton.mp hmem
  have hone : Set.InjOn portServer.sha256
      (builtBytes (tr.map .registry ++ [ServerEvent.directory dir (etagOf portServer dir)])) := by
    have hbytes : ∀ x ∈ builtBytes (tr.map .registry ++ [ServerEvent.directory dir (etagOf portServer dir)]),
        x = dir.bytes := by
      rintro x ⟨dir', etag, ⟨e, he, hdir'⟩, rfl⟩
      rcases List.mem_append.mp he with he | he
      · obtain ⟨e', -, rfl⟩ := List.mem_map.mp he
        cases hdir'
      · obtain rfl := List.mem_singleton.mp he
        rw [(Prod.mk.inj (Option.some.inj hdir')).1]
    intro x hx y hy _
    rw [hbytes x hx, hbytes y hy]
  refine ⟨_, _, dir, _, hall, hbuilt, ?_, (served_directory_accepted paired_sample hall hchecked hone false).1 dir _ hbuilt⟩
  rw [← hlisted, hdir]
  unfold ServedDirectory.onions directoryOf
  rw [List.map_map]
  exact List.map_congr_left fun e _ => onionOf_listing portServer _ e.1 e.2

end Sample

end ShadeTree.Bootnode
