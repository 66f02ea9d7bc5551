import ShadeTree.Roots.Provider

/-!
# The provider of the gateway (`makeRootProvider`, `CompositeRootProvider` in `lib/root-provider.mjs`)

The gateway trusts the sets of one or more contracts, each read by a provider of its own.  A single provider is used
as it is; several are read one after the other, and what they serve is united.  Of several, one that throws is left out
of the read, and the read throws when every one does.

The providers of one gateway are all of one kind, the node or the light one.  `SingleProvider` says what the gateway
relies on: what a call does, and that its answers keep to the freshness window.
-/

namespace ShadeTree.Roots

open ShadeTree.Lib

/-- A kind of provider, and what its calls keep true of a session. -/
structure SingleProvider (π ρ ι : Type) (freshnessMs : ℤ) where
  new : π
  currentRoots : Session π → Call ρ → Session π × Except String (Answer ι)
  leafCount : ι → Option ℕ
  Keeps : Session π → Prop
  /-- The cache does not bridge an outage with a root that was retired before. -/
  BridgeOK : Session π → Call ρ → Prop
  keeps_new : ∀ clock, Keeps ⟨new, clock, []⟩
  keeps : ∀ s call, Keeps s → s.clock ≤ call.startedAt → call.startedAt ≤ call.endedAt →
    Keeps (currentRoots s call).1
  clock : ∀ s call, (currentRoots s call).1.clock = call.endedAt
  fresh : ∀ s call a, Keeps s → s.clock ≤ call.startedAt → call.startedAt ≤ call.endedAt → BridgeOK s call →
    (currentRoots s call).2 = .ok a → AnswerOK freshnessMs call.endedAt (currentRoots s call).1.history a

/-- The node provider. -/
def nodeProvider {H : ℕ → ℕ → ℕ} {z depth : ℕ} (L : RLNGroup H z depth) (cfg : RingConfig) :
    SingleProvider NodeProvider NodeRpc NodeInfo cfg.freshnessMs where
  new := NodeProvider.new
  currentRoots := callNode L cfg
  leafCount := fun info => some info.leafCount
  Keeps := fun s => Serving s.provider.ring s.provider.lkg s.clock s.history
  BridgeOK := fun s call => NodeBridgeOK L cfg s (call, (callNode L cfg s call).2)
  keeps_new := fun _ => .inl ⟨rfl, rfl⟩
  keeps := fun s call hs h₁ h₂ => (NodeStep.spec (e := (call, (callNode L cfg s call).2)) hs ⟨h₁, h₂, rfl⟩).1
  clock := fun _ _ => rfl
  fresh := fun _ _ a hs h₁ h₂ hbridged ha => ((NodeStep.spec hs ⟨h₁, h₂, rfl⟩).2 a ha).mpr hbridged

/-- The light provider. -/
def lightProvider (cfg : RingConfig) : SingleProvider LightProvider LightRpc LightInfo cfg.freshnessMs where
  new := LightProvider.new
  currentRoots := callLight cfg
  leafCount := fun _ => none
  Keeps := fun s => Serving s.provider.ring s.provider.lkg s.clock s.history
  BridgeOK := fun s call => LightBridgeOK cfg s (call, (callLight cfg s call).2)
  keeps_new := fun _ => .inl ⟨rfl, rfl⟩
  keeps := fun s call hs h₁ h₂ => (LightStep.spec (e := (call, (callLight cfg s call).2)) hs ⟨h₁, h₂, rfl⟩).1
  clock := fun _ _ => rfl
  fresh := fun _ _ a hs h₁ h₂ hbridged ha => ((LightStep.spec hs ⟨h₁, h₂, rfl⟩).2 a ha).mpr hbridged

/-- A row of `perSource`. -/
structure SourceRow where
  contract : String
  roots : List String
  leafCount : Option ℕ
  stale : Bool
  error : Option String
  deriving DecidableEq

/-- What `currentRoots()` returns, as far as the gateway reads it: `leafCount`, `stale` and `error` of a single
provider, `perSource` and `errors` of several. -/
structure RootsResult where
  roots : List String
  leafCount : Option ℕ
  stale : Bool
  error : Option String
  perSource : Option (List SourceRow)
  errors : List (String × String)

/-- The provider of one contract. -/
structure Child (π : Type) where
  contract : String
  session : Session π

inductive RootProvider (π : Type) where
  | single (child : Child π)
  | composite (children : List (Child π))

def RootProvider.children {π : Type} : RootProvider π → List (Child π)
  | .single child => [child]
  | .composite children => children

section Model

variable {π ρ ι : Type} {freshnessMs : ℤ} (P : SingleProvider π ρ ι freshnessMs)

/-- `makeRootProvider(mode, { contracts })`. -/
def makeRootProvider (clock : ℤ) (contract : String) (others : List String) : RootProvider π :=
  let child := fun contract => ⟨contract, P.new, clock, []⟩
  match others with
  | [] => .single (child contract)
  | _ => .composite ((contract :: others).map child)

/-- One call of a child. -/
def Child.read (call : Call ρ) (child : Child π) : Child π × Except String (Answer ι) :=
  let answered := P.currentRoots child.session call
  (⟨child.contract, answered.1⟩, answered.2)

/-- `r.error ? { error: r.error } : {}`. -/
def truthy (error : Option String) : Option String := error.filter (· ≠ "")

def sourceRow (contract : String) : Except String (Answer ι) → SourceRow
  | .ok a => ⟨contract, a.snapshot.roots, P.leafCount a.snapshot.info, a.stale, truthy a.error⟩
  | .error msg => ⟨contract, [], none, false, some msg⟩

/-- `errors`. -/
def failedReads (reads : List (Child π × Except String (Answer ι))) : List (String × String) :=
  reads.filterMap fun r =>
    match r.2 with
    | .ok _ => none
    | .error msg => some (r.1.contract, msg)

/-- The roots of the answers, each once. -/
def unionRoots (reads : List (Child π × Except String (Answer ι))) : List String :=
  (reads.flatMap fun r =>
    match r.2 with
    | .ok a => a.snapshot.roots
    | .error _ => []).eraseDups

/-- `currentRoots()`, where every contract's provider makes the given call. -/
def RootProvider.currentRoots (calls : String → Call ρ) :
    RootProvider π → RootProvider π × Except String RootsResult
  | .single child =>
    let answered := child.read P (calls child.contract)
    (.single answered.1,
      answered.2.map fun a => ⟨a.snapshot.roots, P.leafCount a.snapshot.info, a.stale, truthy a.error, none, []⟩)
  | .composite children =>
    let reads := children.map fun child => child.read P (calls child.contract)
    let errors := failedReads reads
    (.composite (reads.map Prod.fst),
      if errors.length = children.length then
        .error ("all root providers failed: " ++ "; ".intercalate (errors.map fun e => e.1 ++ ": " ++ e.2))
      else
        .ok ⟨unionRoots reads, none, false, none, some (reads.map fun r => sourceRow P r.1.contract r.2), errors⟩)

end Model

/-! ### What a read serves -/

section Serves

variable {π ρ ι : Type} {freshnessMs : ℤ} {P : SingleProvider π ρ ι freshnessMs} {p : RootProvider π}
  {calls : String → Call ρ}

/-- The calls start when the calls before them are over. -/
def RootProvider.Timed (p : RootProvider π) (calls : String → Call ρ) : Prop :=
  ∀ child ∈ p.children, child.session.clock ≤ (calls child.contract).startedAt ∧
    (calls child.contract).startedAt ≤ (calls child.contract).endedAt

def RootProvider.Keeps (P : SingleProvider π ρ ι freshnessMs) (p : RootProvider π) : Prop :=
  ∀ child ∈ p.children, P.Keeps child.session

def RootProvider.BridgeOK (P : SingleProvider π ρ ι freshnessMs) (p : RootProvider π) (calls : String → Call ρ) : Prop :=
  ∀ child ∈ p.children, P.BridgeOK child.session (calls child.contract)

/-- When the provider of some contract was last called, the root was current or superseded at most `freshnessMs` ago. -/
def RootProvider.Serves (freshnessMs : ℤ) (p : RootProvider π) (r : String) : Prop :=
  ∃ child ∈ p.children, Servable freshnessMs child.session.clock child.session.history r

lemma makeRootProvider_keeps (clock : ℤ) (contract : String) (others : List String) :
    (makeRootProvider P clock contract others).Keeps P := by
  have hnew : ∀ child ∈ (makeRootProvider P clock contract others).children, child.session = ⟨P.new, clock, []⟩ := by
    unfold makeRootProvider
    cases others with
    | nil =>
      intro child hchild
      rw [List.mem_singleton.mp hchild]
    | cons other others =>
      intro child hchild
      obtain ⟨c, -, rfl⟩ := List.mem_map.mp hchild
      rfl
  intro child hchild
  rw [hnew child hchild]
  exact P.keeps_new clock

/-- Every child made its call. -/
lemma currentRoots_children : (p.currentRoots P calls).1.children =
    p.children.map fun child => (child.read P (calls child.contract)).1 := by
  cases p with
  | single child => rfl
  | composite children => exact List.map_map

/-- A root of the result is in the answer of a child. -/
lemma mem_currentRoots {result : RootsResult} (h : (p.currentRoots P calls).2 = .ok result) {r : String}
    (hr : r ∈ result.roots) : ∃ child ∈ p.children, ∃ a,
      (child.read P (calls child.contract)).2 = .ok a ∧ r ∈ a.snapshot.roots := by
  cases p with
  | single child =>
    refine ⟨child, List.mem_singleton_self _, ?_⟩
    simp only [RootProvider.currentRoots] at h
    cases hread : (child.read P (calls child.contract)).2 with
    | error msg => simp [hread, Except.map] at h
    | ok a =>
      rw [hread] at h
      obtain rfl := Except.ok.inj h
      exact ⟨a, rfl, hr⟩
  | composite children =>
    simp only [RootProvider.currentRoots] at h
    split_ifs at h
    obtain rfl := Except.ok.inj h
    rw [unionRoots, List.mem_eraseDups, List.mem_flatMap] at hr
    obtain ⟨read, hread, hr⟩ := hr
    obtain ⟨child, hchild, rfl⟩ := List.mem_map.mp hread
    refine ⟨child, hchild, ?_⟩
    cases hanswer : (child.read P (calls child.contract)).2 with
    | error msg => simp [hanswer] at hr
    | ok a => exact ⟨a, rfl, by simpa [hanswer] using hr⟩

lemma currentRoots_keeps (hkeeps : p.Keeps P) (htimed : p.Timed calls) : (p.currentRoots P calls).1.Keeps P := by
  intro child hchild
  rw [currentRoots_children] at hchild
  obtain ⟨before, hbefore, rfl⟩ := List.mem_map.mp hchild
  obtain ⟨h₁, h₂⟩ := htimed before hbefore
  exact P.keeps _ _ (hkeeps before hbefore) h₁ h₂

/-- **A read serves what is fresh**, unless a cache bridges an outage with a retired root. -/
lemma currentRoots_serves (hkeeps : p.Keeps P) (htimed : p.Timed calls) (hbridged : p.BridgeOK P calls)
    {result : RootsResult} (h : (p.currentRoots P calls).2 = .ok result) :
    ∀ r ∈ result.roots, (p.currentRoots P calls).1.Serves freshnessMs r := by
  intro r hr
  obtain ⟨child, hchild, a, hread, ha⟩ := mem_currentRoots h hr
  obtain ⟨h₁, h₂⟩ := htimed child hchild
  refine ⟨(child.read P (calls child.contract)).1, ?_, ?_⟩
  · rw [currentRoots_children]
    exact List.mem_map_of_mem hchild
  · have hfresh := P.fresh _ _ a (hkeeps child hchild) h₁ h₂ (hbridged child hchild) hread
    rw [Child.read, P.clock]
    exact hfresh.servable r ha

end Serves

end ShadeTree.Roots
