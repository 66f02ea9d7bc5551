import ShadeTree.Bootnode.Delta
import ShadeTree.Bootnode.Gossip
import ShadeTree.Directory.CapsFixed

/-!
# Capabilities from the announce to the directory

The bootnode checks `capsSig` over the capabilities as a gateway sends them, keeps what `canonicalCaps` keeps of them,
and lists that beside the same signature.  The bytes that are signed are those of the canonical capabilities, and
these are the same before and after; so what is listed verifies, whoever hands a record in and however calls
interleave.
-/

namespace ShadeTree.Bootnode

open ShadeTree.Lib Directory

section Registry

variable {T : Type} [DecidableEq T] {K : Keys}

/-- The capabilities that are kept are the canonical ones. -/
def KeepsCanonical (K : Keys) (C : ServerConfig) : Prop :=
  ∀ caps kept, K.canonicalCaps caps = some kept →
    C.capsValue kept = (Directory.canonicalCaps (some (C.capsValue caps))).value

/-- The capabilities of a record are checked by `verifyCapsSig(rec.onion, rec.caps, rec.capsSig)`. -/
def ChecksCaps (S : Schemes) (K : Keys) (C : ServerConfig) (record : Record) : Prop :=
  ∀ onion pubkey caps capsSig, record.onion = some onion → onionToPubkey K.checksum onion = .ok pubkey →
    record.caps = some caps → record.capsSig = some capsSig →
      K.verifyCapsSig pubkey caps capsSig = verifyCapsSig S onion (some (C.capsValue caps)) (capsSig.map .str)

/-- The signature holds over what is kept. -/
def Attested (S : Schemes) (C : ServerConfig) (c : Checked K) : Prop :=
  ∀ caps capsSig, c.caps = some caps → c.record.capsSig.join = some capsSig →
    verifyCapsSig S c.onion (some (C.capsValue caps)) (some (.str capsSig)) = true

lemma verifyHead_caps {at_ skew : ℚ} {seen : String → Bool} {record : Option Record} {c : Checked K}
    (h : verifyHead K at_ skew seen record = .ok c) : verifyCaps K c.pubkey c.record = .ok c.caps := by
  cases record with
  | none => cases h
  | some record =>
    change verifyRecord K at_ skew seen record = .ok c at h
    unfold verifyRecord at h
    split at h
    · cases h
    split at h
    · cases h
    split at h
    · cases h
    split at h
    · cases h
    split at h
    · cases h
    split at h
    · cases h
    split at h
    · cases hcaps : verifyCaps K _ record with
      | error why =>
        rw [hcaps] at h
        cases h
      | ok caps =>
        rw [hcaps] at h
        obtain rfl := Except.ok.inj h
        exact hcaps
    · cases h

lemma attested_of_verifyHead {S : Schemes} {C : ServerConfig} {at_ skew : ℚ} {seen : String → Bool}
    {record : Option Record} {c : Checked K} (hkeeps : KeepsCanonical K C) (hchecks : ChecksCaps S K C c.record)
    (h : verifyHead K at_ skew seen record = .ok c) : Attested S C c := by
  intro caps capsSig hcaps hsig
  have hverify := verifyHead_caps h
  have hsome : c.record.capsSig = some (some capsSig) := Option.join_eq_some_iff.mp hsig
  unfold verifyCaps at hverify
  split at hverify
  · rw [hcaps] at hverify
    cases hverify
  · next sent hsent =>
    split at hverify
    · cases hverify
    · next hholds =>
      rw [hcaps] at hverify
      have hkept := hkeeps sent caps (Except.ok.inj hverify)
      rw [hsome, Option.any_some, hchecks c.onion c.pubkey sent _ c.onion_eq c.pubkey_eq hsent hsome] at hholds
      have hbytes : canonicalCapsBytes c.onion (some (C.capsValue caps)) =
          canonicalCapsBytes c.onion (some (C.capsValue sent)) := by
        rw [hkept, canonicalCapsBytes, canonicalCaps_value]
        rfl
      unfold verifyCapsSig at hholds ⊢
      rw [hbytes]
      simpa using hholds

/-- What a head lets through is verified. -/
lemma Registry.head_verifies {C : RegistryConfig} {clock : ℤ} {source : Source} {record : Option Record}
    {r : Registry K} {c : Checked K} (h : (r.head C clock source record).2 = .ok c) :
    ∃ at_ skew seen, verifyHead K at_ skew seen record = .ok c := by
  have hannounce : ∀ source', (r.announceHead C clock source' record).2 = .ok c →
      ∃ at_ skew seen, verifyHead K at_ skew seen record = .ok c := by
    intro source' h
    unfold announceHead at h
    dsimp only at h
    split at h
    · cases h
    split at h
    · cases h
    split at h
    · cases h
    exact ⟨_, _, _, h⟩
  cases source with
  | live => exact hannounce _ h
  | store x => exact hannounce _ h
  | gossip =>
    change (r.gossipHead C clock record).2 = .ok c at h
    unfold gossipHead at h
    dsimp only at h
    split at h
    · cases h
    · cases h
    split at h
    · cases h
    split at h
    · cases h
    split at h
    · cases h
    exact ⟨_, _, _, h⟩

lemma Registry.begin_verifies {C : RegistryConfig} {clock : ℤ} {source : Source} {record : Option Record}
    {r r' : Registry K} {call : Call K} (h : r.begin C clock source record = (r', .ok call)) :
    ∃ at_ skew seen, verifyHead K at_ skew seen record = .ok call.checked := by
  unfold Registry.begin at h
  dsimp only at h
  split at h
  · cases (Prod.mk.inj h).2
  · next c hhead =>
    have hcall : call.checked = c := by
      split at h
      · obtain rfl := Except.ok.inj (Prod.mk.inj h).2
        rfl
      · rcases finish_cases h with ⟨why, hwhy, -⟩ | ⟨hok, -⟩
        · cases hwhy
        · obtain rfl := Except.ok.inj hok
          rfl
    exact hcall ▸ head_verifies hhead

/-- A call that is begun passed the head. -/
lemma Step.began_verifies {C : RegistryConfig} {s u : System T K} {t : T} {source : Source} {record : Option Record}
    {call : Call K} (h : Step C s (.began t source record (.ok call)) u) :
    ∃ at_ skew seen, verifyHead K at_ skew seen record = .ok call.checked := by
  cases h with
  | announce hidle hdone hbegun => exact Registry.begin_verifies hbegun
  | admitGossip hidle hdone hbegun => exact Registry.begin_verifies hbegun
  | restore hidle htodo hx hlive hbegun => exact Registry.begin_verifies hbegun

/-- Every call that waits and every entry is attested; an entry is listed under the onion of its record. -/
structure AllAttested (S : Schemes) (C : ServerConfig) (s : System T K) : Prop where
  calls : ∀ t call, s.calls t = some call → Attested S C call.checked
  listed : ∀ onion entry, s.registry.live.lookup onion = some entry →
    entry.checked.onion = onion ∧ entry.capsSig = entry.checked.record.capsSig.join ∧ Attested S C entry.checked

lemma AllAttested.step {S : Schemes} {C : ServerConfig} {s u : System T K} {e : Event T K} (h : AllAttested S C s)
    (hkeeps : KeepsCanonical K C) (hchecks : ∀ t source record answer, e = .began t source (some record) answer →
      ChecksCaps S K C record) (hst : Step C.toRegistryConfig s e u) : AllAttested S C u := by
  constructor
  · intro t call hcall
    cases hst.origin hcall with
    | waits hold hthread => exact h.calls t call hold
    | began hpruned hpasses hr =>
      obtain ⟨at_, skew, seen, hverify⟩ := hst.began_verifies
      have hrecord := (verifyHead_ok hverify).1
      exact attested_of_verifyHead hkeeps (hchecks t call.source _ _ (by rw [← hrecord])) hverify
    | resumed hold hsource hchecked hstage hr => exact hchecked ▸ h.calls t _ hold
  · intro onion entry hlookup
    rcases hst.lookup_cases hlookup with ⟨hold, -⟩ | ⟨t, source, c, operator, staked, -, honion, hcall, rfl⟩
    · exact h.listed onion entry hold
    · exact ⟨honion, rfl, h.calls t _ hcall⟩

end Registry

/-! ### What is served -/

section Served

variable {T : Type} [DecidableEq T] {K : Keys} {S : Schemes} {C : ServerConfig}

lemma allAttested_of_run {clock : ℤ} {tr : List (ServerEvent T K)} {s : Server T K} (hkeeps : KeepsCanonical K C)
    (hrun : Run (ServerStep C) (Server.start C clock) tr s)
    (hchecks : ∀ t source record answer, .registry (.began t source (some record) answer) ∈ tr →
      ChecksCaps S K C record) : AllAttested S C s.system := by
  induction hrun with
  | nil =>
    constructor
    · intro t call hcall
      cases hcall
    · intro onion entry hlookup
      cases hlookup
  | @snoc tr s u e hrun hst ih =>
    have hbefore := ih fun t source record answer hmem => hchecks t source record answer (List.mem_append_left _ hmem)
    have hswept : ∀ dir, AllAttested S C (s.withDirectory C dir).system := fun dir =>
      ⟨hbefore.calls, fun onion entry hlookup =>
        hbefore.listed onion entry (Table.lookup_keep_eq_some.mp hlookup).1⟩
    cases hst with
    | registry hst =>
      refine hbefore.step hkeeps (fun t source record answer he => ?_) hst
      exact hchecks t source record answer (he ▸ List.mem_append_right _ (List.mem_singleton_self _))
    | directory hbuilds => exact hswept _
    | delta sinceEtag hbuilds => exact hswept _

/-- The capabilities that an entry is listed with. -/
lemma get_caps_listing {down : String → Bool} {onion : String} {e : Entry K} {caps : Value}
    (h : (listing C down onion e).get "caps" = some caps) :
    ∃ kept capsSig, e.checked.caps = some kept ∧ e.capsSig = some capsSig ∧ caps = C.capsValue kept ∧
      (listing C down onion e).get "capsSig" = some (.str capsSig) := by
  unfold listing at h ⊢
  cases hkept : e.checked.caps with
  | none =>
    rw [hkept] at h
    cases hop : e.operator.filter (· ≠ "") <;> rw [hop] at h <;> cases h
  | some kept =>
    cases hsig : e.capsSig.filter (· ≠ "") with
    | none =>
      rw [hkept, hsig] at h
      cases hop : e.operator.filter (· ≠ "") <;> rw [hop] at h <;> cases h
    | some capsSig =>
      rw [hkept, hsig] at h
      refine ⟨kept, capsSig, rfl, (Option.filter_eq_some_iff.mp hsig).1, ?_, ?_⟩
      · cases hop : e.operator.filter (· ≠ "") <;> rw [hop] at h <;> exact (Option.some.inj h).symm
      · cases e.operator.filter (· ≠ "") <;> rfl

/-- The capabilities of an entry hold under the signature beside them. -/
def CapsHold (S : Schemes) (g : Value) : Prop :=
  ∀ caps, g.get "caps" = some caps → ∃ onion, g.get "onion" = some (.str onion) ∧
    verifyCapsSig S onion (some caps) (g.get "capsSig") = true

lemma CapsHold.wire {g : Value} (h : CapsHold S g) : CapsHold S g.wire := by
  intro caps hcaps
  rw [Value.get_wire] at hcaps
  obtain ⟨sent, hsent, rfl⟩ := Option.map_eq_some_iff.mp hcaps
  obtain ⟨onion, honion, hholds⟩ := h sent hsent
  refine ⟨onion, ?_, ?_⟩
  · rw [Value.get_wire, honion]
    rfl
  · have hcanonical : Directory.canonicalCaps (some sent.wire) = Directory.canonicalCaps (some sent) :=
      canonicalCaps_wire (some sent)
    unfold verifyCapsSig canonicalCapsBytes at hholds ⊢
    rw [hcanonical, Value.get_wire]
    cases hsig : g.get "capsSig" with
    | none =>
      rw [hsig] at hholds
      exact hholds
    | some sig =>
      rw [hsig] at hholds
      cases sig with
      | str sig => exact hholds
      | _ => cases hholds

/-- **Capabilities are normal, and stay signed.** What is kept of a value is kept of what was kept, with the same bytes to
sign; and in every run of the bootnode every gateway of a directory that it builds is listed with capabilities that hold
under the signature beside them, as they are built and as a client reads them. -/
theorem served_caps_hold :
    (∀ (caps : Option Value) (onion : String),
      Directory.canonicalCaps (some (Directory.canonicalCaps caps).value) = Directory.canonicalCaps caps ∧
        canonicalCapsBytes onion (some (Directory.canonicalCaps caps).value) = canonicalCapsBytes onion caps) ∧
    ∀ {T : Type} [DecidableEq T] {K : Keys} {S : Schemes} {C : ServerConfig} {clock : ℤ} {tr : List (ServerEvent T K)}
      {s : Server T K} {dir : ServedDirectory}, KeepsCanonical K C → Run (ServerStep C) (Server.start C clock) tr s →
      (∀ t source record answer, .registry (.began t source (some record) answer) ∈ tr → ChecksCaps S K C record) →
      s.Builds C dir → ∀ g ∈ dir.gateways, CapsHold S g ∧ CapsHold S g.wire := by
  constructor
  · intro caps onion
    refine ⟨canonicalCaps_value caps, ?_⟩
    rw [canonicalCapsBytes, canonicalCaps_value]
    rfl
  · intro T _ K S C clock tr s dir hkeeps hrun hchecks hbuilds g hg
    have hattested := allAttested_of_run hkeeps hrun hchecks
    obtain ⟨down, entries, hperm, rfl⟩ := hbuilds
    obtain ⟨⟨onion, entry⟩, hentry, rfl⟩ := List.mem_map.mp hg
    have hlookup : s.system.registry.live.lookup onion = some entry := by
      have hmem := hperm.mem_iff.mp hentry
      exact (Table.lookup_keep_eq_some.mp (AList.mem_lookup_iff.mpr hmem)).1
    obtain ⟨honion, hsig, hholds⟩ := hattested.listed onion entry hlookup
    have hcaps : CapsHold S (listing C down onion entry) := by
      intro caps hcaps
      obtain ⟨kept, capsSig, hkept, hstored, rfl, hget⟩ := get_caps_listing hcaps
      refine ⟨onion, get_listing C down onion entry, ?_⟩
      rw [hget, ← honion]
      exact hholds kept capsSig hkept (hsig ▸ hstored)
    exact ⟨hcaps, hcaps.wire⟩

end Served

/-- An announce with capabilities and their signature. -/
def capsRecord : Record := { plainRecord zeroOnion 60 "n" with caps := some "caps", capsSig := some (some "sig") }

/-- The bootnode above, where capabilities are one port. -/
def portServer : ServerConfig :=
  { sampleServer with
    capsValue := fun _ => (Directory.canonicalCaps (some (.obj [("ports", .arr [.num (.fin (.ofInt 443))])]))).value }

/-- The schemes of the announces above: every signature holds. -/
def signedSchemes : Schemes := ⟨signedKeys.checksum, fun _ _ _ => true⟩

/-- A record that comes in has a signature over its capabilities. -/
def Event.capsSigned : Event ℕ signedKeys → Bool
  | .began _ _ (some record) _ => record.capsSig = some (some "sig")
  | _ => true

lemma checksCaps_signed {record : Record} (h : record.capsSig = some (some "sig")) :
    ChecksCaps signedSchemes signedKeys portServer record := by
  intro onion pubkey caps capsSig honion hpubkey hcaps hsig
  obtain rfl := Option.some.inj (h.symm.trans hsig)
  have hcontrol : onionToPubkey signedSchemes.checksum onion = .ok pubkey := hpubkey
  have hholds (bytes : List Char) : verifyOnionControl signedSchemes onion bytes (.str "sig") = true := by
    unfold verifyOnionControl
    rw [hcontrol]
    rfl
  have hverify : verifyCapsSig signedSchemes onion (some (portServer.capsValue caps)) (some (.str "sig")) = true := by
    rw [verifyCapsSig, verifySig, hholds]
    rfl
  exact hverify.symm

/-- A gateway announces itself and is listed with its port. -/
theorem served_caps_hold_port : ∃ (tr : List (ServerEvent ℕ signedKeys)) (s : Server ℕ signedKeys) (dir : ServedDirectory)
    (g : Value), Run (ServerStep portServer) (Server.start portServer 0) tr s ∧ s.Builds portServer dir ∧
    g ∈ dir.gateways ∧ (g.get "caps").isSome = true ∧ CapsHold signedSchemes g := by
  obtain ⟨tr, u, hrun, hlisted⟩ := System.exists_run portServer.toRegistryConfig (.start portServer.toRegistryConfig 0)
    (fun _ e => e.capsSigned = true) [.announce 0 (some capsRecord), .write 0]
    (fun _ u => ((u.registry.directory portServer.toRegistryConfig u.clock).lookup zeroOnion).any
      (fun e => e.checked.caps.isSome ∧ e.capsSig = some "sig") = true)
    (by decide +kernel)
  have hsigned : ∀ e ∈ tr, e.capsSigned = true := by
    refine hrun.invariant (I := fun tr _ => ∀ e ∈ tr, e.capsSigned = true)
      (fun e he => absurd he List.not_mem_nil) ?_
    intro tr s e u _ hall hst e' he'
    rcases List.mem_append.mp he' with hold | hnew
    · exact hall e' hold
    · exact List.mem_singleton.mp hnew ▸ hst.1
  have hserver : Run (ServerStep portServer) (Server.start portServer 0) (tr.map .registry) ⟨u, .empty⟩ :=
    server_run_of_run hrun.forget
  have hchecks : ∀ t source record answer, ServerEvent.registry (.began t source (some record) answer) ∈
      tr.map ServerEvent.registry → ChecksCaps signedSchemes signedKeys portServer record := by
    intro t source record answer hmem
    obtain ⟨e, he, heq⟩ := List.mem_map.mp hmem
    obtain rfl := ServerEvent.registry.inj heq
    exact checksCaps_signed (of_decide_eq_true (hsigned _ he))
  have hkeeps : KeepsCanonical signedKeys portServer := fun _ _ _ => congrArg CanonicalCaps.value (canonicalCaps_value _).symm
  obtain ⟨entry, hentry, hcaps⟩ := (Option.any_eq_true _ _).mp hlisted
  rw [decide_eq_true_eq] at hcaps
  set entries := (u.registry.directory portServer.toRegistryConfig u.clock).entries
  have hbuilds : (Server.mk u .empty).Builds portServer (directoryOf portServer u.clock (fun _ => false) entries) :=
    ⟨fun _ => false, entries, List.Perm.refl _, rfl⟩
  have hmem : listing portServer (fun _ => false) zeroOnion entry ∈
      (directoryOf portServer u.clock (fun _ => false) entries).gateways :=
    List.mem_map.mpr ⟨⟨zeroOnion, entry⟩, AList.mem_lookup_iff.mp hentry, rfl⟩
  refine ⟨_, _, _, _, hserver, hbuilds, hmem, ?_, (served_caps_hold.2 hkeeps hserver hchecks hbuilds _ hmem).1⟩
  obtain ⟨kept, hkept⟩ := Option.isSome_iff_exists.mp hcaps.1
  have hfilter : (some "sig").filter (· ≠ "") = some "sig" := by decide
  unfold listing
  rw [hkept, hcaps.2, hfilter]
  cases entry.operator.filter (· ≠ "") <;> rfl

end ShadeTree.Bootnode
