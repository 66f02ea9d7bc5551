import ShadeTree.Gateway.TargetBinding
import ShadeTree.Slots.Uniqueness

/-!
# Honest members are not slashed

Members take their slots from the allocators and make one proof for each slot; the gateways keep their spent sets
and may start over; everything between them belongs to an adversary, who shows any envelope to any gateway at any
time.  A proof that verifies has a witness, and only a member makes proofs with the secret of the member.  The
hashes of the circuit are parameters.
-/

namespace ShadeTree.Gateway

open ShadeTree.Lib
open Slots (AllocStep Platform returnedSlots)

/-- What a proof is made from. -/
structure Witness where
  secret : ℕ
  epoch : ℤ
  messageId : ℕ
  deriving DecidableEq

/-- The hashes of the circuit: the slope of the line of a message, and its nullifier. -/
structure Circuit where
  slope : ℕ → ℕ → ℕ → ℕ
  nullifierOf : ℕ → ℕ

section Circuit

variable {π κ : Type} (C : Circuit) (R : Rln π κ) (w : Witness)

def Circuit.lineSlope : ℕ := C.slope w.secret (externalNullifierFor R w.epoch) w.messageId

def Circuit.nullifier : ℕ := C.nullifierOf (C.lineSlope R w) % FIELD

/-- The public signals belong to the witness: its epoch, its nullifier, and a point of its line. -/
structure Circuit.Shows (v : Verified) : Prop where
  externalNullifier : fieldElement v.externalNullifier = some (externalNullifierFor R w.epoch % FIELD)
  nullifier : fieldElement v.nullifier = some (C.nullifier R w)
  line : ∃ x y, fieldElement v.share.x = some x ∧ fieldElement v.share.y = some y ∧
    y ≡ w.secret + C.lineSlope R w * x [MOD FIELD]

end Circuit

/-- An envelope that a member made for a slot (`buildEnvelope`). -/
structure Built (M : Type) where
  member : M
  epoch : ℕ
  slot : ℕ
  target : String
  nonce : String
  deriving DecidableEq

/-- Where its share is taken. -/
def Built.x {M π κ : Type} (R : Rln π κ) (b : Built M) : ℕ :=
  R.calculateSignalHash (requestSignal b.target b.nonce)

/-- The honest members, each with a secret of its own. -/
structure Members (M : Type) where
  on : M → Platform
  limit : M → ℕ
  secret : M → ℕ
  secret_injective : Function.Injective secret

/-- The allocators, the slots that were handed out and not used, the envelopes, and the spent sets. -/
structure Network (M P G : Type) where
  slots : M → Slots.System P
  handed : M → List (ℕ × ℕ)
  built : List (Built M)
  spent : G → SpentSet

inductive NetEvent (M P G π κ : Type) where
  | slots (m : M) (l : Slots.Label P)
  | built (b : Built M)
  | admitted (g : G) (a : Arrival π κ) (w : Witness) (v : Verified) (answer : Admission)
  | swept (g : G) (ttlMs now : ℤ)
  | restarted (g : G)

section Steps

variable {M P G π κ : Type} [DecidableEq M] [DecidableEq P] [DecidableEq G] (R : Rln π κ) (S : SpentConfig)
  (C : Circuit) (H : Members M)

/-- The proof is one that a member made, if it has the secret of a member. -/
def HonestlyKept (built : List (Built M)) (w : Witness) (v : Verified) : Prop :=
  ∀ m, w.secret = H.secret m →
    ∃ b ∈ built, b.member = m ∧ (b.epoch : ℤ) = w.epoch ∧ b.slot = w.messageId ∧
      fieldElement v.share.x = some (b.x R % FIELD)

inductive NetStep : Network M P G → NetEvent M P G π κ → Network M P G → Prop where
  | slots {s : Network M P G} {m : M} {l : Slots.Label P} {t : Slots.System P} :
      AllocStep (H.on m) (H.limit m) (s.slots m) l t →
      NetStep s (.slots m l)
        { s with
          slots := Function.update s.slots m t
          handed := Function.update s.handed m (s.handed m ++ returnedSlots [l]) }
  | built {s : Network M P G} {b : Built M} :
      (b.epoch, b.slot) ∈ s.handed b.member →
      NetStep s (.built b)
        { s with
          handed := Function.update s.handed b.member ((s.handed b.member).erase (b.epoch, b.slot))
          built := s.built ++ [b] }
  | admitted {s : Network M P G} {g : G} {a : Arrival π κ} {w : Witness} {v : Verified} {answer : Admission}
      {t : SpentSet} :
      verifyEnvelope R a.envelope a.recentRoots a.verifiedAt a.artifacts = .ok v → C.Shows R w v →
      HonestlyKept R H s.built w v →
      admitShare S (s.spent g) v.nullifier (some v.share) a.nonce a.peerHas a.admittedAt = (t, answer) →
      NetStep s (.admitted g a w v answer) { s with spent := Function.update s.spent g t }
  | swept {s : Network M P G} {g : G} {ttlMs now : ℤ} :
      NetStep s (.swept g ttlMs now) { s with spent := Function.update s.spent g (sweep ttlMs now (s.spent g)) }
  | restarted {s : Network M P G} {g : G} :
      NetStep s (.restarted g) { s with spent := Function.update s.spent g .empty }

/-- A start: any state files and locks, and gateways that saw nothing. -/
def Network.start (files : M → Slots.Content) (locks : M → Bool) : Network M P G :=
  ⟨fun m => Slots.System.initial (files m) (locks m), fun _ => [], [], fun _ => .empty⟩

/-- No two of the proofs that were shown share a nullifier by chance. -/
def NoCollision (tr : List (NetEvent M P G π κ)) : Prop :=
  ∀ g a w v answer g' a' w' v' answer', NetEvent.admitted g a w v answer ∈ tr →
    NetEvent.admitted g' a' w' v' answer' ∈ tr → C.nullifier R w = C.nullifier R w' → w = w'

end Steps

/-! ### One envelope for a slot -/

section Slots

variable {M P G π κ : Type} [DecidableEq M] [DecidableEq P] [DecidableEq G] {R : Rln π κ} {S : SpentConfig}
  {C : Circuit} {H : Members M} {s t : Network M P G} {e : NetEvent M P G π κ}

/-- The slots that a member made envelopes for. -/
def slotsUsed (built : List (Built M)) (m : M) : List (ℕ × ℕ) :=
  (built.filter fun b => b.member = m).map fun b => (b.epoch, b.slot)

lemma slotsUsed_snoc (built : List (Built M)) (b : Built M) (m : M) :
    slotsUsed (built ++ [b]) m = slotsUsed built m ++ if b.member = m then [(b.epoch, b.slot)] else [] := by
  unfold slotsUsed
  rw [List.filter_append, List.map_append]
  by_cases hm : b.member = m
  · simp [hm]
  · simp [hm]

/-- The slots that are used or still to be used are those that the allocator handed out. -/
def Traced (H : Members M) (files : M → Slots.Content) (locks : M → Bool) (s : Network M P G) : Prop :=
  ∀ m, ∃ tr, Run (AllocStep (H.on m) (H.limit m)) (Slots.System.initial (files m) (locks m)) tr (s.slots m) ∧
    (slotsUsed s.built m ++ s.handed m).Perm (returnedSlots tr)

lemma Traced.step {files : M → Slots.Content} {locks : M → Bool} (h : Traced H files locks s)
    (hst : NetStep R S C H s e t) : Traced H files locks t := by
  intro m
  obtain ⟨tr, hrun, hperm⟩ := h m
  cases hst with
  | @slots m' l u hst =>
    by_cases hm : m = m'
    · subst hm
      refine ⟨tr ++ [l], ?_, ?_⟩
      · simpa using hrun.snoc hst
      · simp only [Function.update_self]
        rw [Slots.returnedSlots_snoc, ← List.append_assoc]
        exact hperm.append_right _
    · simp only [Function.update_of_ne hm]
      exact ⟨tr, hrun, hperm⟩
  | @built b hmem =>
    refine ⟨tr, hrun, ?_⟩
    dsimp only
    rw [slotsUsed_snoc]
    by_cases hm : b.member = m
    · subst hm
      rw [Function.update_self, if_pos rfl, List.append_assoc]
      refine List.Perm.trans (List.Perm.append_left _ ?_) hperm
      exact (List.perm_cons_erase hmem).symm
    · rw [Function.update_of_ne (Ne.symm hm), if_neg hm, List.append_nil]
      exact hperm
  | admitted _ _ _ _ => exact ⟨tr, hrun, hperm⟩
  | swept => exact ⟨tr, hrun, hperm⟩
  | restarted => exact ⟨tr, hrun, hperm⟩

omit [DecidableEq G] in
/-- A member makes one envelope at most for a slot. -/
lemma Traced.built_unique {files : M → Slots.Content} {locks : M → Bool} (h : Traced H files locks s)
    {b b' : Built M} (hb : b ∈ s.built) (hb' : b' ∈ s.built) (hm : b'.member = b.member)
    (he : b'.epoch = b.epoch) (hn : b'.slot = b.slot) : b' = b := by
  obtain ⟨tr, hrun, hperm⟩ := h b.member
  have hnodup : (slotsUsed s.built b.member).Nodup :=
    (hperm.nodup_iff.mpr (Slots.run_handedOut hrun).unique).of_append_left
  refine List.inj_on_of_nodup_map hnodup (List.mem_filter.mpr ⟨hb', decide_eq_true hm⟩)
    (List.mem_filter.mpr ⟨hb, decide_eq_true rfl⟩) ?_
  rw [he, hn]

end Slots

/-! ### What a gateway remembers -/

section Remembered

variable {S : SpentConfig} {s t : SpentSet} {shown shown' : String → Share → Admission → Prop}

/-- Each entry was made for a share that was let through as the first, and is marked only after a slash. -/
structure Remembered (shown : String → Share → Admission → Prop) (s : SpentSet) : Prop where
  first : ∀ k e, s.seen k = some e → e.xs = [e.first.x] ∧ shown k e.first ⟨true, .first⟩
  slashed : ∀ k e, s.seen k = some e → e.slashed = true → ∃ share c, shown k share ⟨false, .slash c⟩

lemma Remembered.empty : Remembered shown .empty := by
  constructor
  · intro k e he
    cases he
  · intro k e he
    cases he

lemma Remembered.mono (h : Remembered shown s) (hsub : ∀ k share answer, shown k share answer → shown' k share answer) :
    Remembered shown' s := by
  refine ⟨fun k e he => ?_, fun k e he hsl => ?_⟩
  · obtain ⟨hxs, hfirst⟩ := h.first k e he
    exact ⟨hxs, hsub _ _ _ hfirst⟩
  · obtain ⟨share, c, hslash⟩ := h.slashed k e he hsl
    exact ⟨share, c, hsub _ _ _ hslash⟩

lemma Remembered.sweep (h : Remembered shown s) (ttlMs now : ℤ) : Remembered shown (sweep ttlMs now s) := by
  have hold : ∀ k e, (Gateway.sweep ttlMs now s).seen k = some e → s.seen k = some e := by
    intro k e he
    exact (Option.filter_eq_some_iff.mp he).1
  exact ⟨fun k e he => h.first k e (hold k e he), fun k e he => h.slashed k e (hold k e he)⟩

variable {nullifier : String} {share : Share} {nonce : Option String} {peerHas : Bool} {now : ℤ} {answer : Admission}

lemma Remembered.admit (h : Remembered shown s)
    (had : admitShare S s nullifier (some share) nonce peerHas now = (t, answer)) (hshown : shown nullifier share answer) :
    Remembered shown t := by
  cases admit_outcome had with
  | fleet _ _ => exact h
  | slashed _ _ _ => exact h
  | replay _ _ _ _ _ _ => exact h
  | late _ _ _ => exact h
  | first hnone _ =>
    constructor
    · intro k e he
      by_cases hk : k = nullifier
      · subst hk
        obtain rfl : (⟨[share.x], share, false, now⟩ : SpentEntry) = e := by simpa using he
        exact ⟨rfl, hshown⟩
      · exact h.first k e (by simpa [hk] using he)
    · intro k e he hsl
      by_cases hk : k = nullifier
      · subst hk
        obtain rfl : (⟨[share.x], share, false, now⟩ : SpentEntry) = e := by simpa using he
        cases hsl
      · exact h.slashed k e (by simpa [hk] using he) hsl
  | slash e₀ he₀ _ _ =>
    constructor
    · intro k e he
      by_cases hk : k = nullifier
      · subst hk
        obtain rfl : { e₀ with slashed := true } = e := by simpa using he
        exact h.first k e₀ he₀
      · exact h.first k e (by simpa [hk] using he)
    · intro k e he hsl
      by_cases hk : k = nullifier
      · subst hk
        exact ⟨share, _, hshown⟩
      · exact h.slashed k e (by simpa [hk] using he) hsl

/-- An answer that is a slash names the first share and this one; `slashed` follows a slash. -/
lemma Remembered.answered (h : Remembered shown s)
    (had : admitShare S s nullifier (some share) nonce peerHas now = (t, answer)) :
    (∀ c, answer.action = .slash c →
      ∃ first, shown nullifier first ⟨true, .first⟩ ∧ first.x ≠ share.x ∧ c = S.leaf first share) ∧
    (answer.action = .slashed → ∃ share' c, shown nullifier share' ⟨false, .slash c⟩) ∧
    answer.action ≠ .badShare := by
  cases admit_outcome had with
  | fleet _ _ => simp
  | first _ _ => simp
  | replay _ _ _ _ _ _ => simp
  | late _ _ _ => simp
  | slashed e he hsl => simpa using h.slashed _ e he hsl
  | slash e he _ hx =>
    obtain ⟨hxs, hfirst⟩ := h.first _ e he
    rw [hxs, List.mem_singleton] at hx
    refine ⟨fun c hc => ⟨e.first, hfirst, Ne.symm hx, ?_⟩, by simp, by simp⟩
    exact (Action.slash.inj hc).symm

end Remembered

/-! ### Runs of the network -/

section Runs

variable {M P G π κ : Type} [DecidableEq M] [DecidableEq P] [DecidableEq G] {R : Rln π κ} {S : SpentConfig}
  {C : Circuit} {H : Members M} {s t : Network M P G} {e : NetEvent M P G π κ} {tr : List (NetEvent M P G π κ)}
  {files : M → Slots.Content} {locks : M → Bool}

/-- The gateway answered a share so. -/
def Shown (tr : List (NetEvent M P G π κ)) (g : G) (k : String) (share : Share) (answer : Admission) : Prop :=
  ∃ a w v, NetEvent.admitted g a w v answer ∈ tr ∧ v.nullifier = k ∧ v.share = share

omit [DecidableEq M] [DecidableEq P] [DecidableEq G] in
lemma Shown.append {tr' : List (NetEvent M P G π κ)} {g : G} {k : String} {share : Share} {answer : Admission}
    (h : Shown tr g k share answer) : Shown (tr ++ tr') g k share answer := by
  obtain ⟨a, w, v, hmem, hrest⟩ := h
  exact ⟨a, w, v, List.mem_append_left _ hmem, hrest⟩

lemma remembered_step (h : ∀ g, Remembered (Shown tr g) (s.spent g)) (hst : NetStep R S C H s e t) (g : G) :
    Remembered (Shown (tr ++ [e]) g) (t.spent g) := by
  have hkeep : Remembered (Shown (tr ++ [e]) g) (s.spent g) := (h g).mono fun _ _ _ => Shown.append
  cases hst with
  | slots _ => exact hkeep
  | built _ => exact hkeep
  | @admitted g' a w v answer u _ _ _ had =>
    dsimp only
    by_cases hg : g = g'
    · subst hg
      rw [Function.update_self]
      exact hkeep.admit had ⟨a, w, v, by simp, rfl, rfl⟩
    · rwa [Function.update_of_ne hg]
  | @swept g' ttlMs now =>
    dsimp only
    by_cases hg : g = g'
    · subst hg
      rw [Function.update_self]
      exact hkeep.sweep ttlMs now
    · rwa [Function.update_of_ne hg]
  | @restarted g' =>
    dsimp only
    by_cases hg : g = g'
    · subst hg
      rw [Function.update_self]
      exact .empty
    · rwa [Function.update_of_ne hg]

/-- What is known of a proof that was shown. -/
structure Proven (R : Rln π κ) (C : Circuit) (H : Members M) (built : List (Built M)) (w : Witness) (v : Verified) :
    Prop where
  shown : C.Shows R w v
  kept : HonestlyKept R H built w v
  signal : ∃ target nonce, v.share.x = toString (R.calculateSignalHash (requestSignal target nonce))

lemma verifyEnvelope_signal {env : Option (Envelope π)} {recentRoots : List String} {now : ℤ}
    {artifacts : ArtifactSet κ} {v : Verified} (h : verifyEnvelope R env recentRoots now artifacts = .ok v) :
    ∃ target nonce, v.share.x = toString (R.calculateSignalHash (requestSignal target nonce)) := by
  cases env with
  | none => cases h
  | some env =>
  obtain ⟨proof, target, nonce, hproof, -, -, -, -, hx⟩ := verifyEnvelope_bound h
  refine ⟨target, nonce, ?_⟩
  rw [hx]
  unfold verifyEnvelope at h
  simp only [bind, Except.bind, hproof] at h
  repeat' split at h
  all_goals first | exact congrArg (fun v : Verified => v.share.x) (Except.ok.inj h).symm | cases h

lemma NetStep.built_subset (hst : NetStep R S C H s e t) : s.built ⊆ t.built := by
  cases hst with
  | built _ => exact List.subset_append_left _ _
  | slots _ => exact List.Subset.refl _
  | admitted _ _ _ _ => exact List.Subset.refl _
  | swept => exact List.Subset.refl _
  | restarted => exact List.Subset.refl _

omit [DecidableEq M] in
lemma Proven.mono {built built' : List (Built M)} {w : Witness} {v : Verified} (h : Proven R C H built w v)
    (hsub : built ⊆ built') : Proven R C H built' w v := by
  refine ⟨h.shown, fun m hm => ?_, h.signal⟩
  obtain ⟨b, hb, hrest⟩ := h.kept m hm
  exact ⟨b, hsub hb, hrest⟩

/-- What holds after every run. -/
structure Sound (R : Rln π κ) (C : Circuit) (H : Members M) (files : M → Slots.Content) (locks : M → Bool)
    (tr : List (NetEvent M P G π κ)) (s : Network M P G) : Prop where
  traced : Traced H files locks s
  remembered : ∀ g, Remembered (Shown tr g) (s.spent g)
  proven : ∀ g a w v answer, NetEvent.admitted g a w v answer ∈ tr → Proven R C H s.built w v

omit [DecidableEq G] in
lemma Sound.start : Sound R C H files locks ([] : List (NetEvent M P G π κ)) (.start files locks) := by
  refine ⟨fun m => ⟨[], .nil, ?_⟩, fun g => .empty, ?_⟩
  · exact List.Perm.refl _
  · intro g a w v answer h
    cases h

lemma Sound.step (h : Sound R C H files locks tr s) (hst : NetStep R S C H s e t) :
    Sound R C H files locks (tr ++ [e]) t := by
  refine ⟨h.traced.step hst, remembered_step h.remembered hst, ?_⟩
  intro g a w v answer hmem
  rcases List.mem_append.mp hmem with hmem | hmem
  · exact (h.proven g a w v answer hmem).mono hst.built_subset
  · obtain rfl := List.mem_singleton.mp hmem
    cases hst with
    | admitted hverify hshows hkept _ => exact ⟨hshows, hkept, verifyEnvelope_signal hverify⟩

lemma net_run_sound (h : Run (NetStep R S C H) (.start files locks) tr s) : Sound R C H files locks tr s :=
  h.invariant (I := Sound R C H files locks) .start fun _ _ _ _ _ hs hst => hs.step hst

/-- One nullifier string, one witness. -/
lemma Circuit.Shows.witness_eq {w w' : Witness} {v v' : Verified} (h : C.Shows R w v) (h' : C.Shows R w' v')
    (hnull : v'.nullifier = v.nullifier) : C.nullifier R w = C.nullifier R w' := by
  have heq := h.nullifier
  rw [← hnull, h'.nullifier] at heq
  exact (Option.some.inj heq).symm

omit [DecidableEq G] in
/-- Two proofs from one witness of a member show one `x`. -/
lemma Sound.same_x (h : Sound R C H files locks tr s) (hhash : ∀ signal, R.calculateSignalHash signal < FIELD)
    {w : Witness} {m : M} (hm : w.secret = H.secret m) {v v' : Verified} (hv : Proven R C H s.built w v)
    (hv' : Proven R C H s.built w v') : v.share.x = v'.share.x := by
  obtain ⟨b, hb, hbm, hepoch, hslot, hx⟩ := hv.kept m hm
  obtain ⟨b', hb', hbm', hepoch', hslot', hx'⟩ := hv'.kept m hm
  have hsame : b' = b := by
    refine h.traced.built_unique hb hb' (hbm'.trans hbm.symm) ?_ (hslot'.trans hslot.symm)
    exact_mod_cast hepoch'.trans hepoch.symm
  rw [hsame] at hx'
  obtain ⟨target, nonce, hsignal⟩ := hv.signal
  obtain ⟨target', nonce', hsignal'⟩ := hv'.signal
  have helement : fieldElement v.share.x = fieldElement v'.share.x := hx.trans hx'.symm
  rw [hsignal, hsignal'] at helement ⊢
  simp only [fieldElement, denotedInteger_toString, Option.map_some, Option.some.injEq,
    Nat.mod_eq_of_lt (hhash _)] at helement
  rw [helement]

omit [DecidableEq G] in
/-- What a slash rests on: the first share under the same nullifier, from the same witness, on another `x`. -/
lemma Sound.of_slash (h : Sound R C H files locks tr s) (hcoll : NoCollision R C tr)
    {g : G} {a : Arrival π κ} {w : Witness} {v : Verified} {answer : Admission}
    (hmem : NetEvent.admitted g a w v answer ∈ tr) {first : Share}
    (hfirst : Shown tr g v.nullifier first ⟨true, .first⟩) :
    ∃ a₀ v₀, NetEvent.admitted g a₀ w v₀ ⟨true, .first⟩ ∈ tr ∧ v₀.nullifier = v.nullifier ∧ v₀.share = first := by
  obtain ⟨a₀, w₀, v₀, hmem₀, hnull, hshare⟩ := hfirst
  have hcollide := (h.proven _ _ _ _ _ hmem₀).shown.witness_eq (h.proven _ _ _ _ _ hmem).shown hnull.symm
  obtain rfl := hcoll _ _ _ _ _ _ _ _ _ _ hmem₀ hmem hcollide
  exact ⟨a₀, v₀, hmem₀, hnull, hshare⟩

/-- What an admission was answered from. -/
lemma Sound.answer (hrun : Run (NetStep R S C H) (.start files locks) tr s)
    {g : G} {a : Arrival π κ} {w : Witness} {v : Verified} {answer : Admission}
    (hmem : NetEvent.admitted g a w v answer ∈ tr) :
    (∀ c, answer.action = .slash c → ∃ first, Shown tr g v.nullifier first ⟨true, .first⟩ ∧ first.x ≠ v.share.x ∧
      c = S.leaf first v.share) ∧
    (answer.action = .slashed → ∃ share c, Shown tr g v.nullifier share ⟨false, .slash c⟩) ∧
    answer.action ≠ .badShare := by
  obtain ⟨tr₁, tr₂, u, u', rfl, hrun₁, hst, -⟩ := hrun.exists_step hmem
  cases hst with
  | admitted _ _ _ had =>
    obtain ⟨hslash, hslashed, hbad⟩ := ((net_run_sound hrun₁).remembered g).answered had
    refine ⟨fun c hc => ?_, fun hs => ?_, hbad⟩
    · obtain ⟨first, hfirst, hx, heq⟩ := hslash c hc
      exact ⟨first, hfirst.append, hx, heq⟩
    · obtain ⟨share, c, hshown⟩ := hslashed hs
      exact ⟨share, c, hshown.append⟩

/-- A slash names two points of the line of one witness. -/
lemma Sound.two_points (hrun : Run (NetStep R S C H) (.start files locks) tr s) (hcoll : NoCollision R C tr)
    {g : G} {a : Arrival π κ} {w : Witness} {v : Verified} {answer : Admission}
    (hmem : NetEvent.admitted g a w v answer ∈ tr) {c : Option String} (hc : answer.action = .slash c) :
    ∃ a₀ v₀, NetEvent.admitted g a₀ w v₀ ⟨true, .first⟩ ∈ tr ∧ v₀.nullifier = v.nullifier ∧
      v₀.share.x ≠ v.share.x ∧ c = S.leaf v₀.share v.share := by
  obtain ⟨first, hfirst, hx, heq⟩ := (Sound.answer hrun hmem).1 c hc
  obtain ⟨a₀, v₀, hmem₀, hnull, rfl⟩ := (net_run_sound hrun).of_slash hcoll hmem hfirst
  exact ⟨a₀, v₀, hmem₀, hnull, hx, heq⟩

end Runs

/-! ### One member -/

section OneMember

/-- A member whose line has the slope 1 and passes through the share of the slot's proof. -/
def oneMember : Members Unit where
  on _ := .unix
  limit _ := 8
  secret _ := FIELD + 1 - 86915455183957658210373061237190014077351079440883365454214385267811116819
  secret_injective := Function.injective_of_subsingleton _

/-- The circuit at the slot. -/
def oneSlotCircuit : Circuit where
  slope _ _ _ := 1
  nullifierOf _ := 7853200120776062878684798364095072458815029376092732009249414926327459813530

def slotWitness : Witness := ⟨oneMember.secret (), 14166667, 0⟩

def slotBuilt : Built Unit := ⟨(), 14166667, 0, "example.com:443", "n1"⟩

lemma slotBuilt_x :
    slotBuilt.x oneSlotRln = 86915455183957658210373061237190014077351079440883365454214385267811116819 := by
  simp [slotBuilt, Built.x, oneSlotRln]

lemma oneSlotRln_lt (signal : String) : oneSlotRln.calculateSignalHash signal < FIELD := by
  simp only [oneSlotRln]
  split_ifs <;> simp [FIELD]

lemma slot_shows : oneSlotCircuit.Shows oneSlotRln slotWitness (slotVerified decimalNullifier "n1") := by
  refine ⟨?_, ?_, slotBuilt.x oneSlotRln % FIELD, 1, ?_, by decide, ?_⟩
  · have hscope : (slotVerified decimalNullifier "n1").externalNullifier =
        toString (externalNullifierFor oneSlotRln slotWitness.epoch) := rfl
    rw [hscope, fieldElement, denotedInteger_toString, Option.map_some]
  · have hnullifier : (slotVerified decimalNullifier "n1").nullifier = decimalNullifier := rfl
    rw [hnullifier, fieldElement, denotedInteger_decimal, Option.map_some]
    rfl
  · have hx : (slotVerified decimalNullifier "n1").share.x = toString (slotBuilt.x oneSlotRln) := rfl
    rw [hx, fieldElement, denotedInteger_toString, Option.map_some]
  · rw [slotBuilt_x]
    simp [Nat.ModEq, slotWitness, oneMember, Circuit.lineSlope, oneSlotCircuit, FIELD]

/-- The allocator's run, in the network. -/
lemma run_slots {M P G π κ : Type} [DecidableEq M] [DecidableEq P] [DecidableEq G] {R : Rln π κ} {S : SpentConfig}
    {C : Circuit} {H : Members M} {s : Network M P G} {m : M} {tr : List (Slots.Label P)} {t : Slots.System P}
    (h : Run (AllocStep (H.on m) (H.limit m)) (s.slots m) tr t) :
    Run (NetStep R S C H) s (tr.map (NetEvent.slots m))
      { s with
        slots := Function.update s.slots m t
        handed := Function.update s.handed m (s.handed m ++ returnedSlots tr) } := by
  induction h with
  | nil =>
    have hnil : s.handed m ++ returnedSlots ([] : List (Slots.Label P)) = s.handed m := List.append_nil _
    rw [Function.update_eq_self, hnil, Function.update_eq_self]
    exact .nil
  | @snoc tr t u l _ hst ih =>
    rw [List.map_append, List.map_singleton]
    have hnext := ih.snoc (NetStep.slots (R := R) (S := S) (C := C) (m := m) (l := l) (t := u) (by
      dsimp only
      rw [Function.update_self]
      exact hst))
    simp only [Function.update_self, Function.update_idem, List.append_assoc] at hnext
    rwa [← Slots.returnedSlots_snoc] at hnext

end OneMember

end ShadeTree.Gateway
