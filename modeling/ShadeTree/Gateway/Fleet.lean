import ShadeTree.Gateway.FleetTally

/-!
# The fleet of gateways that share a tally

The fleet is a family of gateways under one clock, each with its spent set, its tally and the admitted
tunnels that still dial.  A tunnel publishes its nullifier when it connects.  A message may come from anyone
who holds the token of the fleet: what is delivered need not have been published.

A bucket is dropped two epochs after it was opened.  An announcement holds for as long as its epoch is
accepted if the bucket it lands in was opened when the epoch had begun, and only then.
-/

namespace ShadeTree.Gateway

open ShadeTree.Lib

/-- A gateway: its spent set, its tally, and the admitted tunnels that did not connect yet, each by its
nullifier and scope. -/
structure Node where
  spent : SpentSet
  tally : FleetTally
  dialing : List (String × String)

namespace Node

def start : Node := ⟨.empty, .empty, []⟩

section Calls

variable (S : SpentConfig) (ttl : ℤ) (C : TallyCaps) (now : ℤ)

/-- The tally is asked about a nullifier that was not seen here. -/
def ask (nullifier scope : String) (share : Option Share) (g : Node) : FleetTally × Bool :=
  if share.isSome ∧ g.spent.seen nullifier = none then g.tally.has ttl now nullifier scope
  else (g.tally, false)

/-- `admit` with a tally. -/
def admitEnvelope (nullifier scope : String) (share : Option Share) (nonce : Option String) (g : Node) :
    Node × Admission :=
  let asked := g.ask ttl now nullifier scope share
  let admitted := admitShare S g.spent nullifier share nonce asked.2 now
  (⟨admitted.1, asked.1, if admitted.2.ok then (nullifier, scope) :: g.dialing else g.dialing⟩,
    admitted.2)

/-- `commit(nullifier, epoch)` when a tunnel connects, with what is published. -/
def connect (nullifier scope : String) (g : Node) : Node × Option (String × String) :=
  let g := { g with dialing := g.dialing.erase (nullifier, scope) }
  if (g.spent.seen nullifier).isSome then
    let recorded := g.tally.record ttl C now nullifier scope
    ({ g with tally := recorded.1 }, recorded.2)
  else (g, none)

end Calls

end Node

/-- The gateways, the time of the last step, and what was published by whom. -/
structure Fleet (G : Type) where
  clock : ℤ
  node : G → Node
  wire : List (G × String × String)

/-- A step of one gateway, with its answer. -/
inductive FleetEvent (G : Type) where
  | admitted (g : G) (now : ℤ) (nullifier scope : String) (answer : Admission)
  | connect (g : G) (now : ℤ) (nullifier scope : String)
  | deliver (g : G) (now : ℤ) (nullifier scope : String) (stored : Bool)
  | has (g : G) (now : ℤ) (nullifier scope : String) (answer : Bool)
  | prune (g : G) (now : ℤ)
  | sweep (g : G) (now : ℤ)

section Steps

open Function (update)

variable {π κ G : Type} [DecidableEq G] (R : Rln π κ) (S : SpentConfig) (C : TallyCaps)
  (epochOf : String → ℤ)

/-- One step at one gateway: an envelope whose scope is accepted is admitted, an admitted tunnel connects, a
message arrives from anyone, the tally is asked or pruned, the spent set is swept. -/
inductive FleetStep : Fleet G → FleetEvent G → Fleet G → Prop where
  | admitted {s : Fleet G} {g : G} {now : ℤ} {n k : String} {share : Option Share} {nonce : Option String}
      {u : Node} {answer : Admission} :
      s.clock ≤ now → AcceptsEpoch R now (epochOf k) →
      (s.node g).admitEnvelope S (ttlMs R) now n k share nonce = (u, answer) →
      FleetStep s (.admitted g now n k answer) ⟨now, update s.node g u, s.wire⟩
  | connect {s : Fleet G} {g : G} {now : ℤ} {n k : String} {u : Node} {m : Option (String × String)} :
      s.clock ≤ now → (n, k) ∈ (s.node g).dialing →
      (s.node g).connect (ttlMs R) C now n k = (u, m) →
      FleetStep s (.connect g now n k)
        ⟨now, update s.node g u, s.wire ++ (m.map fun m => (g, m)).toList⟩
  | deliver {s : Fleet G} {g : G} {now : ℤ} {n k : String} {t : FleetTally} {stored : Bool} :
      s.clock ≤ now → (s.node g).tally.ingest (ttlMs R) C now n k = (t, stored) →
      FleetStep s (.deliver g now n k stored)
        ⟨now, update s.node g { s.node g with tally := t }, s.wire⟩
  | has {s : Fleet G} {g : G} {now : ℤ} {n k : String} {t : FleetTally} {answer : Bool} :
      s.clock ≤ now → (s.node g).tally.has (ttlMs R) now n k = (t, answer) →
      FleetStep s (.has g now n k answer) ⟨now, update s.node g { s.node g with tally := t }, s.wire⟩
  | prune {s : Fleet G} {g : G} {now : ℤ} : s.clock ≤ now →
      FleetStep s (.prune g now)
        ⟨now, update s.node g { s.node g with tally := (s.node g).tally.prune (ttlMs R) now }, s.wire⟩
  | sweep {s : Fleet G} {g : G} {now : ℤ} : s.clock ≤ now →
      FleetStep s (.sweep g now)
        ⟨now, update s.node g { s.node g with spent := sweep (ttlMs R) now (s.node g).spent }, s.wire⟩

end Steps

/-! ### What one step does -/

section Inversion

open Function (update)

variable {π κ G : Type} {R : Rln π κ} {S : SpentConfig} {C : TallyCaps} {epochOf : String → ℤ}
  {ttl now : ℤ} {n k : String} {share : Option Share} {nonce : Option String} {g u : Node}
  {answer : Admission}

lemma Node.admit_advances (h : g.admitEnvelope S ttl now n k share nonce = (u, answer)) :
    FleetTally.Advances ttl C now (fun _ => False) g.tally u.tally := by
  obtain ⟨rfl, -⟩ := Prod.mk.inj h
  show FleetTally.Advances ttl C now _ g.tally (g.ask ttl now n k share).1
  unfold Node.ask
  split
  · exact FleetTally.has_advances
  · exact .refl _

lemma Node.admit_dialing (h : g.admitEnvelope S ttl now n k share nonce = (u, answer)) :
    u.dialing = if answer.ok then (n, k) :: g.dialing else g.dialing := by
  obtain ⟨rfl, rfl⟩ := Prod.mk.inj h
  rfl

/-- A nullifier that was not seen here is admitted exactly if the tally does not know it. -/
lemma Node.admit_unseen (hnone : g.spent.seen n = none) (share : Share) :
    (g.admitEnvelope S ttl now n k (some share) nonce).2.ok = !(g.tally.has ttl now n k).2 := by
  simp only [Node.admitEnvelope, Node.ask, Option.isSome_some, hnone, and_self, if_true, admitShare]
  cases (g.tally.has ttl now n k).2 <;> rfl

lemma Node.connect_advances {m : Option (String × String)} (h : g.connect ttl C now n k = (u, m)) :
    FleetTally.Advances ttl C now (· = k) g.tally u.tally := by
  unfold Node.connect at h
  dsimp only at h
  split at h
  · obtain ⟨rfl, -⟩ := Prod.mk.inj h
    exact FleetTally.record_advances
  · obtain ⟨rfl, -⟩ := Prod.mk.inj h
    exact (FleetTally.Advances.refl _).mono fun _ h => h.elim

lemma Node.connect_publishes {m : String × String} (h : g.connect ttl C now n k = (u, some m)) :
    m = (n, k) := by
  unfold Node.connect at h
  dsimp only at h
  split at h
  · exact FleetTally.record_publishes (Prod.mk.inj h).2
  · cases (Prod.mk.inj h).2

lemma Node.connect_dialing {m : Option (String × String)} (h : g.connect ttl C now n k = (u, m)) :
    u.dialing = g.dialing.erase (n, k) := by
  unfold Node.connect at h
  dsimp only at h
  split at h
  · obtain ⟨rfl, -⟩ := Prod.mk.inj h
    rfl
  · obtain ⟨rfl, -⟩ := Prod.mk.inj h
    rfl

variable [DecidableEq G] {s v : Fleet G} {c : FleetEvent G}

lemma FleetStep.of_admitted {g : G} {n k : String} (share : Option Share) (nonce : Option String)
    (hclock : s.clock ≤ now) (hepoch : AcceptsEpoch R now (epochOf k)) :
    FleetStep R S C epochOf s (.admitted g now n k ((s.node g).admitEnvelope S (ttlMs R) now n k share nonce).2)
      ⟨now, update s.node g ((s.node g).admitEnvelope S (ttlMs R) now n k share nonce).1, s.wire⟩ :=
  .admitted hclock hepoch rfl

lemma FleetStep.of_connect {g : G} {n k : String} (hclock : s.clock ≤ now) (hd : (n, k) ∈ (s.node g).dialing) :
    FleetStep R S C epochOf s (.connect g now n k)
      ⟨now, update s.node g ((s.node g).connect (ttlMs R) C now n k).1,
        s.wire ++ (((s.node g).connect (ttlMs R) C now n k).2.map fun m => (g, m)).toList⟩ :=
  .connect hclock hd rfl

lemma FleetStep.of_deliver {g : G} {n k : String} {stored : Bool} (hclock : s.clock ≤ now)
    (h : ((s.node g).tally.ingest (ttlMs R) C now n k).2 = stored) :
    FleetStep R S C epochOf s (.deliver g now n k stored)
      ⟨now, update s.node g { s.node g with tally := ((s.node g).tally.ingest (ttlMs R) C now n k).1 },
        s.wire⟩ :=
  .deliver hclock (Prod.ext rfl h)

/-- The tallies go on under the clock of the step; only a connection or a message opens a bucket. -/
lemma FleetStep.advances (h : FleetStep R S C epochOf s c v) : s.clock ≤ v.clock ∧
    ∀ g, ∃ opens, FleetTally.Advances (ttlMs R) C v.clock opens (s.node g).tally (v.node g).tally ∧
      ∀ k, opens k → (∃ n, c = .connect g v.clock n k) ∨ ∃ n stored, c = .deliver g v.clock n k stored := by
  have hone : ∀ {now : ℤ} {g : G} {u : Node} {o : String → Prop},
      FleetTally.Advances (ttlMs R) C now o (s.node g).tally u.tally →
      (∀ k, o k → (∃ n, c = .connect g now n k) ∨ ∃ n stored, c = .deliver g now n k stored) →
      ∀ g', ∃ opens, FleetTally.Advances (ttlMs R) C now opens (s.node g').tally (update s.node g u g').tally ∧
        ∀ k, opens k → (∃ n, c = .connect g' now n k) ∨ ∃ n stored, c = .deliver g' now n k stored := by
    intro now g u o hadv ho g'
    by_cases hg : g' = g
    · subst hg
      exact ⟨o, by rwa [Function.update_self], ho⟩
    · exact ⟨fun _ => False, by rw [Function.update_of_ne hg]; exact .refl _, fun _ h => h.elim⟩
  cases h with
  | admitted hclock hepoch had => exact ⟨hclock, hone (Node.admit_advances had) fun _ h => h.elim⟩
  | connect hclock hdial hcon =>
    refine ⟨hclock, hone (Node.connect_advances hcon) ?_⟩
    rintro j rfl
    exact .inl ⟨_, rfl⟩
  | @deliver g now n k t stored hclock hin =>
    refine ⟨hclock, hone (o := (· = k)) ?_ ?_⟩
    · obtain ⟨rfl, -⟩ := Prod.mk.inj hin
      exact FleetTally.ingest_advances
    · rintro j rfl
      exact .inr ⟨n, stored, rfl⟩
  | has hclock hhas =>
    refine ⟨hclock, hone (o := fun _ => False) ?_ fun _ h => h.elim⟩
    obtain ⟨rfl, -⟩ := Prod.mk.inj hhas
    exact FleetTally.has_advances
  | prune hclock => exact ⟨hclock, hone FleetTally.prune_advances fun _ h => h.elim⟩
  | sweep hclock => exact ⟨hclock, hone (.refl _) fun _ h => h.elim⟩

/-- A tunnel dials after an admission, under an accepted scope. -/
lemma FleetStep.dialing (h : FleetStep R S C epochOf s c v) {g : G} {n k : String}
    (hd : (n, k) ∈ (v.node g).dialing) : (n, k) ∈ (s.node g).dialing ∨
      ∃ answer, c = .admitted g v.clock n k answer ∧ answer.ok = true ∧ AcceptsEpoch R v.clock (epochOf k) := by
  have hone : ∀ {g' : G} {u : Node}, (n, k) ∈ (update s.node g' u g).dialing →
      (n, k) ∈ (s.node g).dialing ∨ g = g' ∧ (n, k) ∈ u.dialing := by
    intro g' u hd
    by_cases hg : g = g'
    · subst hg
      exact .inr ⟨rfl, by rwa [Function.update_self] at hd⟩
    · exact .inl (by rwa [Function.update_of_ne hg] at hd)
  cases h with
  | admitted hclock hepoch had =>
    rcases hone hd with hold | ⟨rfl, hnew⟩
    · exact .inl hold
    rw [Node.admit_dialing had] at hnew
    split at hnew
    · next hok =>
      rcases List.mem_cons.mp hnew with heq | hold
      · obtain ⟨rfl, rfl⟩ := Prod.mk.inj heq
        exact .inr ⟨_, rfl, hok, hepoch⟩
      · exact .inl hold
    · exact .inl hnew
  | connect hclock hdial hcon =>
    rcases hone hd with hold | ⟨rfl, hnew⟩
    · exact .inl hold
    rw [Node.connect_dialing hcon] at hnew
    exact .inl (List.mem_of_mem_erase hnew)
  | deliver hclock hin => exact .inl ((hone hd).elim id fun ⟨hg, hd⟩ => hg ▸ hd)
  | has hclock hhas => exact .inl ((hone hd).elim id fun ⟨hg, hd⟩ => hg ▸ hd)
  | prune hclock => exact .inl ((hone hd).elim id fun ⟨hg, hd⟩ => hg ▸ hd)
  | sweep hclock => exact .inl ((hone hd).elim id fun ⟨hg, hd⟩ => hg ▸ hd)

/-- Only a tunnel that connects publishes. -/
lemma FleetStep.wire (h : FleetStep R S C epochOf s c v) {g : G} {n k : String} (hw : (g, n, k) ∈ v.wire) :
    (g, n, k) ∈ s.wire ∨ c = .connect g v.clock n k ∧ (n, k) ∈ (s.node g).dialing := by
  cases h with
  | @connect g' now n' k' u m hclock hdial hcon =>
    rcases List.mem_append.mp hw with hw | hw
    · exact .inl hw
    · obtain ⟨m, rfl, hm⟩ : ∃ m', m = some m' ∧ (g', m') = (g, n, k) := by simpa using hw
      obtain ⟨rfl, rfl⟩ := Prod.mk.inj hm
      obtain ⟨rfl, rfl⟩ := Prod.mk.inj (Node.connect_publishes hcon)
      exact .inr ⟨rfl, hdial⟩
  | _ => exact .inl hw

end Inversion

/-! ### The laws -/

section Trace

variable {G : Type}

/-- Nothing seen, nothing tallied, nothing published. -/
def Fleet.start (clock : ℤ) : Fleet G := ⟨clock, fun _ => .start, []⟩

/-- A tunnel under the nullifier and scope was admitted at the gateway. -/
def Admitted (tr : List (FleetEvent G)) (g : G) (nullifier scope : String) : Prop :=
  ∃ now answer, FleetEvent.admitted g now nullifier scope answer ∈ tr ∧ answer.ok = true

/-- A tunnel admitted at the gateway connected. -/
def Established (tr : List (FleetEvent G)) (g : G) (nullifier scope : String) : Prop :=
  ∃ tr₁ now tr₂, tr = tr₁ ++ .connect g now nullifier scope :: tr₂ ∧ Admitted tr₁ g nullifier scope

variable {tr : List (FleetEvent G)} {c : FleetEvent G} {g : G} {n k : String}

lemma Admitted.mono (h : Admitted tr g n k) : Admitted (tr ++ [c]) g n k := by
  obtain ⟨now, answer, hmem, hok⟩ := h
  exact ⟨now, answer, List.mem_append_left _ hmem, hok⟩

lemma Established.mono (h : Established tr g n k) : Established (tr ++ [c]) g n k := by
  obtain ⟨tr₁, now, tr₂, rfl, hadm⟩ := h
  exact ⟨tr₁, now, tr₂ ++ [c], by simp, hadm⟩

end Trace

section Laws

open Function (update)

variable {π κ G : Type} [DecidableEq G] (R : Rln π κ) (S : SpentConfig) (C : TallyCaps)
  (epochOf : String → ℤ)

/-- No cap is reached for the scope. -/
def BelowCaps (t : FleetTally) (scope : String) : Prop :=
  t.total < C.maxTotal ∧ Table.size t.buckets < C.maxEpochBuckets ∧
    ∀ b, t.buckets.lookup scope = some b → b.set.card < C.maxPerEpoch

/-- From this state on the gateway refuses every envelope of the nullifier and the scope that it has not
seen itself, whenever its epoch is accepted. -/
def RefusesFrom (s : Fleet G) (g : G) (nullifier scope : String) : Prop :=
  ∀ tr t now answer u, Run (FleetStep R S C epochOf) s tr t →
    FleetStep R S C epochOf t (.admitted g now nullifier scope answer) u →
    (t.node g).spent.seen nullifier = none → answer.ok = false

/-- **The condition.** The bucket that an announcement arriving at `now` lands in, one that is there or one
opened now, is not opened earlier than in the last millisecond before its epoch. -/
def LandsInEpoch (t : FleetTally) (now : ℤ) (scope : String) : Prop :=
  epochStart R (epochOf scope) - 1 ≤
    ((t.prune (ttlMs R) now).buckets.lookup scope).elim now Bucket.openedAt

variable {R S C epochOf} {s u : Fleet G} {tr : List (FleetEvent G)} {c : FleetEvent G}

/-- The counters are right and the caps hold at every gateway, and what dials was admitted, what was published
was established. -/
lemma run_sound {start : ℤ} (h : Run (FleetStep R S C epochOf) (.start start) tr s) :
    (∀ g, (s.node g).tally.Sound C) ∧
    (∀ g n k, (n, k) ∈ (s.node g).dialing → Admitted tr g n k) ∧
    ∀ g n k, (g, n, k) ∈ s.wire → Established tr g n k := by
  refine h.invariant (I := fun tr s => (∀ g, (s.node g).tally.Sound C) ∧
    (∀ g n k, (n, k) ∈ (s.node g).dialing → Admitted tr g n k) ∧
    ∀ g n k, (g, n, k) ∈ s.wire → Established tr g n k) ?_ ?_
  · refine ⟨fun _ => FleetTally.empty_sound, fun g n k hd => ?_, fun g n k hw => ?_⟩
    · cases hd
    · cases hw
  · rintro tr s c u - ⟨hsound, hdial, hwire⟩ hst
    refine ⟨fun g => ?_, fun g n k hd => ?_, fun g n k hw => ?_⟩
    · obtain ⟨opens, hadv, -⟩ := hst.advances.2 g
      exact hadv.sound (hsound g)
    · rcases hst.dialing hd with hold | ⟨answer, rfl, hok, -⟩
      · exact (hdial g n k hold).mono
      · exact ⟨u.clock, answer, by simp, hok⟩
    · rcases hst.wire hw with hold | ⟨rfl, hd⟩
      · exact (hwire g n k hold).mono
      · exact ⟨tr, u.clock, [], rfl, hdial g n k hd⟩

/-- The announcement is stored in a bucket that outlives its epoch. -/
def Marked (R : Rln π κ) (epochOf : String → ℤ) (s : Fleet G) (g : G) (n k : String) : Prop :=
  s.clock < epochStart R (epochOf k + 2) → ∃ b, (s.node g).tally.buckets.lookup k = some b ∧ n ∈ b.set ∧
    epochStart R (epochOf k) - 1 ≤ b.openedAt

lemma Marked.step {g : G} {n k : String} (h : Marked R epochOf s g n k)
    (hst : FleetStep R S C epochOf s c u) : Marked R epochOf u g n k := by
  intro hlt
  obtain ⟨hclock, hadv⟩ := hst.advances
  obtain ⟨b, hb, hn, hat⟩ := h (lt_of_le_of_lt hclock hlt)
  obtain ⟨opens, hadv, -⟩ := hadv g
  have hyoung : u.clock - ttlMs R ≤ b.openedAt := by
    rw [epochStart_add] at hlt
    omega
  obtain ⟨b', hb', hsub, hat'⟩ := hadv.kept k b hb hyoung
  exact ⟨b', hb', hsub hn, by omega⟩

/-- A marked nullifier that was not seen here is refused. -/
lemma Marked.refuses {g : G} {n k : String} {now : ℤ} {answer : Admission} (h : Marked R epochOf s g n k)
    (hn : canonicalTallyField n = some n) (hk : canonicalTallyField k = some k)
    (hst : FleetStep R S C epochOf s (.admitted g now n k answer) u) (hnone : (s.node g).spent.seen n = none) :
    answer.ok = false := by
  cases hst with
  | @admitted _ _ _ _ share nonce v _ hclock hepoch had =>
    obtain ⟨-, hend⟩ := hepoch.window
    obtain ⟨b, hb, hmem, hat⟩ := h (lt_of_le_of_lt hclock hend)
    cases share with
    | none => exact congrArg (fun a => a.2.ok) had.symm
    | some share =>
      have hyoung : now - ttlMs R ≤ b.openedAt := by
        rw [epochStart_add] at hend
        omega
      have hhas := (FleetTally.has_iff hn hk).mpr ⟨b, hb, hyoung, hmem⟩
      have hok : ((s.node g).admitEnvelope S (ttlMs R) now n k (some share) nonce).2.ok =
          !((s.node g).tally.has (ttlMs R) now n k).2 := Node.admit_unseen hnone share
      rw [had, hhas] at hok
      exact hok

/-- A stored announcement is marked if it lands in its epoch. -/
lemma marked_of_lands {g : G} {n k : String} {now : ℤ}
    (hst : FleetStep R S C epochOf s (.deliver g now n k true) u)
    (hlands : LandsInEpoch R epochOf (s.node g).tally now k) : Marked R epochOf u g n k := by
  cases hst with
  | deliver hclock hin =>
    intro _
    obtain ⟨-, -, b, hb, hn, hat⟩ := FleetTally.ingest_stored (congrArg Prod.snd hin)
    rw [hin] at hb
    refine ⟨b, ?_, hn, ?_⟩
    · simpa using hb
    · rw [hat]
      exact hlands

lemma AcceptsEpoch.of_window {now epoch : ℤ} (hstart : epochStart R epoch ≤ now)
    (hend : now < epochStart R (epoch + 2)) : AcceptsEpoch R now epoch := by
  have hpos : (0 : ℤ) < 1000 * R.epochSeconds := by have := R.epochSeconds_pos; omega
  have hle : epoch ≤ now / (1000 * R.epochSeconds) := (Int.le_ediv_iff_mul_le hpos).mpr hstart
  have hlt : now / (1000 * R.epochSeconds) < epoch + 2 := (Int.ediv_lt_iff_lt_mul hpos).mpr hend
  unfold AcceptsEpoch currentEpoch
  omega

/-- An announcement that does not land in its epoch is forgotten while the epoch is accepted: an envelope of
its nullifier is admitted. -/
lemma lands_of_refuses {g : G} {n k : String} {now : ℤ}
    (hst : FleetStep R S C epochOf s (.deliver g now n k true) u) (hnone : (u.node g).spent.seen n = none)
    (href : RefusesFrom R S C epochOf u g n k) :
    LandsInEpoch R epochOf (s.node g).tally now k := by
  by_contra hlands
  cases hst with
  | @deliver _ _ _ _ t _ hclock hin =>
    obtain ⟨hn, hk, b, hb, -, hat⟩ := FleetTally.ingest_stored (congrArg Prod.snd hin)
    rw [hin] at hb
    have hearly : b.openedAt < epochStart R (epochOf k) - 1 := by
      rw [hat]
      exact not_le.mp hlands
    have hfresh : now - ttlMs R ≤ b.openedAt := by
      rw [hat]
      cases hp : ((s.node g).tally.prune (ttlMs R) now).buckets.lookup k with
      | none =>
        show now - ttlMs R ≤ now
        unfold ttlMs
        omega
      | some b₀ =>
        rw [FleetTally.prune_lookup] at hp
        exact of_decide_eq_true (Option.filter_eq_some_iff.mp hp).2
    -- the first moment at which the bucket is gone and the epoch has begun
    obtain ⟨later, hstart, hgone, hlater⟩ : ∃ later, epochStart R (epochOf k) ≤ later ∧
        b.openedAt + ttlMs R + 1 ≤ later ∧ later < epochStart R (epochOf k + 2) := by
      refine ⟨max (epochStart R (epochOf k)) (b.openedAt + ttlMs R + 1), le_max_left _ _, le_max_right _ _, ?_⟩
      rw [epochStart_add]
      have hpos : 0 < ttlMs R := by
        have := R.epochSeconds_pos
        unfold ttlMs
        omega
      omega
    have hlookup : (update s.node g { s.node g with tally := t } g).tally.buckets.lookup k = some b := by
      rw [Function.update_self]
      exact hb
    have hok : ((update s.node g { s.node g with tally := t } g).admitEnvelope S (ttlMs R) later n k
        (some ⟨"0", "0"⟩) none).2.ok = true := by
      rw [Node.admit_unseen hnone, Bool.not_eq_true', ← Bool.not_eq_true, FleetTally.has_iff hn hk]
      rintro ⟨b', hb', hyoung, -⟩
      obtain rfl := Option.some.inj (hlookup.symm.trans hb')
      omega
    have hle : now ≤ later := by omega
    have hadm := href [] _ later _ _ .nil
      (.of_admitted (some ⟨"0", "0"⟩) none hle (.of_window hstart hlater)) hnone
    rw [hok] at hadm
    cases hadm

/-- **The shared tally.** In every state that is reached, whatever messages arrive, the counters are right, no
cap is exceeded, and what was published was established at its gateway.  An announcement that arrives below
the caps is stored; if it lands in its epoch the gateway refuses its nullifier from then on, and if it had
not seen the nullifier itself it does so only then. -/
theorem fleet_refuses_announced (R : Rln π κ) (S : SpentConfig) (C : TallyCaps) (epochOf : String → ℤ)
    {start : ℤ} {tr : List (FleetEvent G)} {s : Fleet G}
    (h : Run (FleetStep R S C epochOf) (.start start) tr s) :
    (∀ g, (s.node g).tally.Sound C) ∧
    (∀ g n k, (g, n, k) ∈ s.wire → Established tr g n k) ∧
    ∀ g now n k stored u, FleetStep R S C epochOf s (.deliver g now n k stored) u →
      (canonicalTallyField n = some n → canonicalTallyField k = some k →
        BelowCaps C (s.node g).tally k → stored = true) ∧
      (stored = true → LandsInEpoch R epochOf (s.node g).tally now k → RefusesFrom R S C epochOf u g n k) ∧
      (stored = true → (u.node g).spent.seen n = none → RefusesFrom R S C epochOf u g n k →
        LandsInEpoch R epochOf (s.node g).tally now k) := by
  obtain ⟨hsound, -, hwire⟩ := run_sound h
  refine ⟨hsound, hwire, fun g now n k stored u hst => ⟨?_, ?_, ?_⟩⟩
  · rintro hn hk ⟨htotal, hsize, hcard⟩
    cases hst with
    | deliver hclock hin =>
      exact (congrArg Prod.snd hin).symm.trans (FleetTally.ingest_below_caps hn hk htotal hsize hcard)
  · rintro rfl hlands tr' t later answer v hrun hadm hnone
    have hcanon : canonicalTallyField n = some n ∧ canonicalTallyField k = some k := by
      cases hst with
      | deliver hclock hin =>
        obtain ⟨hn, hk, -⟩ := FleetTally.ingest_stored (congrArg Prod.snd hin)
        exact ⟨hn, hk⟩
    have hmarked : Marked R epochOf t g n k :=
      hrun.invariant_state (I := fun t => Marked R epochOf t g n k) (marked_of_lands hst hlands)
        fun _ _ _ hm hstep => hm.step hstep
    exact hmarked.refuses hcanon.1 hcanon.2 hadm hnone
  · rintro rfl hnone href
    exact lands_of_refuses hst hnone href

/-! ### A fleet whose messages are its own -/

/-- What is delivered was published. -/
def FromWire (s : Fleet G) : FleetEvent G → Prop
  | .deliver _ _ n k _ => ∃ g, (g, n, k) ∈ s.wire
  | _ => True

/-- Nothing dials, was published or is stored before its epoch. -/
structure Punctual (R : Rln π κ) (epochOf : String → ℤ) (s : Fleet G) : Prop where
  dialing : ∀ g n k, (n, k) ∈ (s.node g).dialing → epochStart R (epochOf k) ≤ s.clock
  wire : ∀ g n k, (g, n, k) ∈ s.wire → epochStart R (epochOf k) ≤ s.clock
  opened : ∀ g k b, (s.node g).tally.buckets.lookup k = some b → epochStart R (epochOf k) ≤ b.openedAt

lemma FleetStep.connect_dialing {g : G} {now : ℤ} {n k : String}
    (h : FleetStep R S C epochOf s (.connect g now n k) u) : (n, k) ∈ (s.node g).dialing := by
  cases h with
  | connect _ hd _ => exact hd

lemma Punctual.step (h : Punctual R epochOf s) (hst : FleetStep R S C epochOf s c u) (hC : FromWire s c) :
    Punctual R epochOf u := by
  obtain ⟨hclock, hadv⟩ := hst.advances
  refine ⟨fun g n k hd => ?_, fun g n k hw => ?_, fun g k b hb => ?_⟩
  · rcases hst.dialing hd with hold | ⟨answer, -, -, hepoch⟩
    · exact (h.dialing g n k hold).trans hclock
    · exact hepoch.window.1
  · rcases hst.wire hw with hold | ⟨-, hd⟩
    · exact (h.wire g n k hold).trans hclock
    · exact (h.dialing g n k hd).trans hclock
  · obtain ⟨opens, hgo, hopens⟩ := hadv g
    rcases hgo.back k b hb with ⟨b₀, hb₀, hat⟩ | ⟨ho, hat⟩
    · rw [hat]
      exact h.opened g k b₀ hb₀
    · rw [hat]
      rcases hopens k ho with ⟨n, rfl⟩ | ⟨n, stored, rfl⟩
      · exact (h.dialing g n k hst.connect_dialing).trans hclock
      · obtain ⟨g', hw⟩ := hC
        exact (h.wire g' n k hw).trans hclock

/-- Where only the announcements of the fleet are delivered, every delivery meets the condition. -/
theorem own_announcements_land (R : Rln π κ) (S : SpentConfig) (C : TallyCaps) (epochOf : String → ℤ)
    {start : ℤ} {tr : List (FleetEvent G)} {s u : Fleet G} {g : G} {now : ℤ} {n k : String} {stored : Bool}
    (h : Run (Restrict (FleetStep R S C epochOf) FromWire) (.start start) tr s)
    (hst : Restrict (FleetStep R S C epochOf) FromWire s (.deliver g now n k stored) u) :
    LandsInEpoch R epochOf (s.node g).tally now k := by
  have hpunctual : Punctual R epochOf s := by
    refine h.invariant_state (I := Punctual R epochOf) ⟨?_, ?_, ?_⟩ ?_
    · intro g n k hd
      cases hd
    · intro g n k hw
      cases hw
    · intro g k b hb
      cases hb
    · intro s c u hs hstep
      exact hs.step hstep.2 hstep.1
  obtain ⟨⟨g', hw⟩, hstep⟩ := hst
  have hclock : s.clock ≤ now := hstep.advances.1.trans (by cases hstep; exact le_rfl)
  unfold LandsInEpoch
  cases hb : ((s.node g).tally.prune (ttlMs R) now).buckets.lookup k with
  | none =>
    have hbegun := hpunctual.wire g' n k hw
    show epochStart R (epochOf k) - 1 ≤ now
    omega
  | some b =>
    rw [FleetTally.prune_lookup] at hb
    have hopened := hpunctual.opened g k b (Option.filter_eq_some_iff.mp hb).1
    show epochStart R (epochOf k) - 1 ≤ b.openedAt
    omega

instance (t : FleetTally) (now : ℤ) (scope : String) : Decidable (LandsInEpoch R epochOf t now scope) :=
  inferInstanceAs (Decidable (_ ≤ _))

end Laws

/-! ### An early message -/

open Function (update)

/-- `DEFAULT_MAX_PER_EPOCH`, `DEFAULT_MAX_EPOCH_BUCKETS`, `DEFAULT_MAX_TOTAL`. -/
def defaultCaps : TallyCaps := ⟨50000, 4, 100000, by decide, by decide, by decide⟩

/-- The steps of two gateways in the epoch 5, which runs from 600000 to 719999. -/
abbrev TwoGateways : Fleet Bool → FleetEvent Bool → Fleet Bool → Prop :=
  FleetStep oneSlotRln slashingConfig defaultCaps fun _ => 5

/-- Two gateways, the second one with the tally. -/
def twoGateways (t : FleetTally) : Fleet Bool :=
  ⟨480000, fun g => if g then { Node.start with tally := t } else .start, []⟩

/-- The first gateway admits a tunnel when the epoch begins, and the tunnel connects at once: the announcement
is under way, and the other gateway is as it was. -/
lemma announce_first (t : FleetTally) : ∃ tr u, Run TwoGateways (twoGateways t) tr u ∧ u.clock = 600000 ∧
    (false, "7", "105") ∈ u.wire ∧ u.node true = { Node.start with tally := t } := by
  have hadm : TwoGateways (twoGateways t) _ _ := .of_admitted (g := false) (n := "7") (k := "105")
    (some ⟨"1", "a"⟩) none (show (480000 : ℤ) ≤ 600000 by decide) (.inl (by decide))
  have hconnect := (Run.single hadm).snoc (.of_connect (g := false) (n := "7") (k := "105")
    (show (600000 : ℤ) ≤ 600000 from le_rfl) List.mem_cons_self)
  refine ⟨_, _, hconnect, rfl, List.mem_cons_self, rfl⟩

/-- What the second gateway tallies after one message for the scope, sent in the epoch before it. -/
def earlyTally : FleetTally := (FleetTally.empty.ingest (ttlMs oneSlotRln) defaultCaps 480000 "9" "105").1

lemma early_message : TwoGateways (.start 480000) (.deliver true 480000 "9" "105" true)
    (twoGateways earlyTally) := by
  have hstep : TwoGateways (.start 480000) (.deliver true 480000 "9" "105" true) _ :=
    .of_deliver (show (480000 : ℤ) ≤ 480000 from le_rfl) rfl
  have hnode : update (fun _ : Bool => Node.start) true { Node.start with tally := earlyTally } =
      (twoGateways earlyTally).node := by
    funext g
    cases g <;> rfl
  have hfleet : _ = twoGateways earlyTally := congrArg (fun node => (⟨480000, node, []⟩ : Fleet Bool)) hnode
  rw [← hfleet]
  exact hstep

/-- A peer names the scope of the next epoch one epoch early; the bucket it opens is dropped in the middle of
the time in which the announcement of the first gateway should hold. -/
theorem announcement_forgotten_in_its_epoch :
    ¬ ∀ tr s g g' n k now u, Run TwoGateways (.start 480000) tr s → g' ≠ g → (g', n, k) ∈ s.wire →
      BelowCaps defaultCaps (s.node g).tally k → TwoGateways s (.deliver g now n k true) u →
      RefusesFrom oneSlotRln slashingConfig defaultCaps (fun _ => 5) u g n k := by
  intro hclaim
  obtain ⟨tr, s, hrun, hclock, hwire, hnode⟩ := announce_first earlyTally
  have hdeliver : TwoGateways s (.deliver true 600000 "7" "105" true) _ :=
    .of_deliver hclock.le (by rw [hnode]; rfl)
  have hcaps : BelowCaps defaultCaps (s.node true).tally "105" := by
    rw [hnode]
    refine ⟨by decide, by decide, fun b hb => ?_⟩
    have hcard : (earlyTally.buckets.lookup "105").all
        fun b => decide (b.set.card < defaultCaps.maxPerEpoch) := by
      decide
    rw [show earlyTally.buckets.lookup "105" = some b from hb] at hcard
    exact of_decide_eq_true hcard
  have href := hclaim _ s true false "7" "105" 600000 _ (.cons early_message hrun) (by decide) hwire hcaps
    hdeliver
  have hlands := lands_of_refuses hdeliver (by simp [hnode, Node.start, SpentSet.empty]) href
  rw [hnode] at hlands
  exact absurd hlands (by decide)

/-- Without the early message the announcement holds. -/
theorem fleet_refuses_announced_punctual :
    ∃ tr s u, Run TwoGateways (.start 480000) tr s ∧ (false, "7", "105") ∈ s.wire ∧
      TwoGateways s (.deliver true 600000 "7" "105" true) u ∧
      RefusesFrom oneSlotRln slashingConfig defaultCaps (fun _ => 5) u true "7" "105" := by
  obtain ⟨tr, s, hrun, hclock, hwire, hnode⟩ := announce_first .empty
  have hstart : twoGateways .empty = .start 480000 := by
    have hsame : (twoGateways .empty).node = fun _ => Node.start := by
      funext g
      cases g <;> rfl
    exact congrArg (fun node => (⟨480000, node, []⟩ : Fleet Bool)) hsame
  rw [hstart] at hrun
  have hdeliver : TwoGateways s (.deliver true 600000 "7" "105" true) _ :=
    .of_deliver hclock.le (by rw [hnode]; rfl)
  obtain ⟨-, hlands, -⟩ := (fleet_refuses_announced oneSlotRln slashingConfig defaultCaps (fun _ => 5)
    hrun).2.2 true 600000 "7" "105" true _ hdeliver
  refine ⟨tr, s, _, hrun, hwire, hdeliver, hlands rfl ?_⟩
  rw [hnode]
  decide

end ShadeTree.Gateway
