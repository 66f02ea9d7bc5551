import ShadeTree.Lib.Run
import ShadeTree.Roots.FreshRing
import ShadeTree.Roots.Reconstruct
import ShadeTree.Contracts.PoseidonT3
import ShadeTree.Contracts.Tree

/-!
# The root providers (`NodeRootProvider`, `LightClientRootProvider`)

Both providers read the chain, push what they observed into the freshness ring and answer through the
last-known-good cache.  The calls of `currentRoots()` come one after the other: the gateway awaits its
first call before it starts polling, and `pollOnChange` starts the next poll when the last one is done.
A call reads the clock when it starts, and again when its reads are over; what it does after its last
`await` happens at one instant of the clock.
-/

namespace ShadeTree.Roots

open ShadeTree.Lib
open ShadeTree.Contracts (PoseidonT3.hash ZERO_VALUE TREE_DEPTH)

/-! ### The node provider -/

/-- What a node snapshot reports besides its roots. -/
structure NodeInfo where
  observedAtBlock : Option ℕ
  finalized : Bool
  leafCount : ℕ

/-- The variables of `NodeRootProvider` and of its cache; `scanned` is `{ to, logs }`. -/
structure NodeProvider where
  ring : Ring
  scanned : Option (ℕ × List Log)
  lastSuccessfulAt : Option ℤ
  lkg : Option (Cached NodeInfo)

def NodeProvider.new : NodeProvider := ⟨Ring.new, none, none, none⟩

/-- What the RPC answers during one refresh: whether the tag of the head is `"finalized"` and the number of
the head block, and the logs of the range it is asked for. -/
structure NodeRpc where
  head : Except String (Bool × Option ℕ)
  logs : Except String (List Log)

/-- One call of `currentRoots()`: when it starts, when its reads are over, and what the RPC answers. -/
structure Call (ρ : Type) where
  startedAt : ℤ
  endedAt : ℤ
  rpc : ρ

section Node

variable {H : ℕ → ℕ → ℕ} {z depth : ℕ} (L : RLNGroup H z depth) (cfg : RingConfig)

/-- What a refresh has read when it gets to the ring. -/
structure NodeReading where
  finalized : Bool
  observedAtBlock : Option ℕ
  incremental : Bool
  replay : Replay L

/-- The scan the refresh continues, if it is incremental: a finalized head that did not move backwards. -/
def NodeProvider.incremental (p : NodeProvider) (finalized : Bool) (observedAtBlock : Option ℕ) :
    Option (ℕ × List Log) :=
  match finalized, observedAtBlock, p.scanned with
  | true, some block, some (upTo, logs) => if upTo ≤ block then some (upTo, logs) else none
  | _, _, _ => none

/-- The logs of the refresh: the ones already replayed and the fresh suffix, or all of them. -/
def NodeProvider.fetchLogs (p : NodeProvider) (finalized : Bool) (observedAtBlock : Option ℕ)
    (logs : Except String (List Log)) : Except String (List Log) :=
  match p.incremental finalized observedAtBlock with
  | none => logs
  | some (upTo, seen) =>
    if observedAtBlock.any fun block => decide (upTo < block) then logs.map (seen ++ ·) else .ok seen

/-- The reads of a refresh: the scan they leave, and what was read or the error thrown. -/
def NodeProvider.read (p : NodeProvider) (rpc : NodeRpc) :
    Option (ℕ × List Log) × Except String (NodeReading L) :=
  match rpc.head with
  | .error msg => (p.scanned, .error msg)
  | .ok (finalized, observedAtBlock) =>
    let inc := p.incremental finalized observedAtBlock
    match p.fetchLogs finalized observedAtBlock rpc.logs with
    | .error msg => (none, .error msg)
    | .ok logs =>
      let scanned := if finalized then observedAtBlock.map fun block => (block, logs) else none
      match reconstructGroup L (inc.map fun sc => sc.2.length) logs with
      | .error msg => (scanned, .error msg)
      | .ok replay => (scanned, .ok ⟨finalized, observedAtBlock, inc.isSome, replay⟩)

/-- `resetToCurrent`: the last observation is too old, or a finalized scan was invalidated. -/
def NodeProvider.resetToCurrent (p : NodeProvider) (refreshStartedAt : ℤ) (r : NodeReading L) : Bool :=
  p.lastSuccessfulAt.any fun last =>
    decide (cfg.freshnessMs < refreshStartedAt - last) ||
      (r.finalized && r.observedAtBlock.isSome && !r.incremental)

/-- The roots a refresh pushes: the transitions of the fresh suffix, or the current root alone. -/
def NodeProvider.pushes (p : NodeProvider) (refreshStartedAt : ℤ) (r : NodeReading L) :
    List (Option String) :=
  if p.resetToCurrent L cfg refreshStartedAt r || r.replay.transitions.isEmpty then
    [r.replay.root.map toString]
  else r.replay.transitions.map fun t => t.map toString

/-- The function `NodeRootProvider` gives to `withCache`. -/
def NodeProvider.fetchFresh (p : NodeProvider) (call : Call NodeRpc) :
    NodeProvider × Except String (Snapshot NodeInfo) :=
  match p.read L call.rpc with
  | (scanned, .error msg) => ({ p with scanned := scanned }, .error msg)
  | (scanned, .ok r) =>
    let ring := p.ring.resetIf (p.resetToCurrent L cfg call.startedAt r)
    let pushed := ring.pushEach cfg call.endedAt (p.pushes L cfg call.startedAt r)
    ({ p with ring := pushed.1, scanned := scanned, lastSuccessfulAt := some call.endedAt },
     .ok ⟨pushed.2.getD [], ⟨r.observedAtBlock, r.finalized, r.replay.active⟩⟩)

/-- `currentRoots()` of the node provider. -/
def NodeProvider.currentRoots (p : NodeProvider) (call : Call NodeRpc) :
    NodeProvider × Except String (Answer NodeInfo) :=
  let fetched := p.fetchFresh L cfg call
  let cached := withCache cfg.freshnessMs call.endedAt p.lkg fetched.2
  ({ fetched.1 with lkg := cached.1 }, cached.2)

/-- The roots the provider observes in a call. -/
def NodeProvider.observes (p : NodeProvider) (call : Call NodeRpc) : List (Option String) :=
  match (p.read L call.rpc).2 with
  | .error _ => []
  | .ok r => p.pushes L cfg call.startedAt r

end Node

/-! ### The light provider -/

/-- What a light snapshot reports besides its roots. -/
structure LightInfo where
  observedAtBlock : Option ℕ
  finalized : Bool
  verified : Bool
  stateRootVerified : Bool

/-- The variables of `LightClientRootProvider` and of its cache. -/
structure LightProvider where
  ring : Ring
  lastSuccessfulAt : Option ℤ
  lkg : Option (Cached LightInfo)

def LightProvider.new : LightProvider := ⟨Ring.new, none, none⟩

/-- What the reads of a light refresh come to: the error of the RPC, the anchor or a proof that does not
verify, or the root in the slot with what is reported about it. -/
abbrev LightRpc := Except String (Option String × LightInfo)

section Light

variable (cfg : RingConfig)

/-- The function `LightClientRootProvider` gives to `withCache`. -/
def LightProvider.fetchFresh (p : LightProvider) (call : Call LightRpc) :
    LightProvider × Except String (Snapshot LightInfo) :=
  match call.rpc with
  | .error msg => (p, .error msg)
  | .ok (root, info) =>
    let reset := p.lastSuccessfulAt.any fun last => decide (cfg.freshnessMs < call.startedAt - last)
    let pushed := (p.ring.resetIf reset).push cfg call.endedAt root
    ({ p with ring := pushed.1, lastSuccessfulAt := some call.endedAt }, .ok ⟨pushed.2, info⟩)

/-- `currentRoots()` of the light provider. -/
def LightProvider.currentRoots (p : LightProvider) (call : Call LightRpc) :
    LightProvider × Except String (Answer LightInfo) :=
  let fetched := p.fetchFresh cfg call
  let cached := withCache cfg.freshnessMs call.endedAt p.lkg fetched.2
  ({ fetched.1 with lkg := cached.1 }, cached.2)

/-- The roots the provider observes in a call. -/
def LightProvider.observes (call : Call LightRpc) : List (Option String) :=
  match call.rpc with
  | .error _ => []
  | .ok (root, _) => [root]

end Light

/-! ### Ring and cache together -/

/-- Before the first observation both are empty; afterwards the ring is on the history, and the snapshot
in the cache starts with the current root. -/
def Serving {ι : Type} (ring : Ring) (lkg : Option (Cached ι)) (now : ℤ) (h : History) : Prop :=
  (lkg = none ∧ ring = Ring.new) ∨
    ∃ l, lkg = some l ∧ ring.Tracks now h ∧ ∀ c, h.current = some c → l.snapshot.roots.take 1 = [c]

/-- The cache would bridge an outage at `now` although the set was empty at the last snapshot: it still
holds a root that was retired before. -/
def ServesRetired {ι : Type} (maxStaleMs now : ℤ) (ring : Ring) (lkg : Option (Cached ι)) : Prop :=
  ring.current = none ∧ ∃ l, lkg = some l ∧ now - l.fetchedAt ≤ maxStaleMs ∧ l.snapshot.roots ≠ []

section Serve

variable {ι : Type} {cfg : RingConfig} {ring ring' : Ring} {lkg : Option (Cached ι)} {now t : ℤ}
  {h : History} {pushes : List (Option String)}

lemma Serving.later (hs : Serving ring lkg now h) (hle : now ≤ t) : Serving ring lkg t h := by
  rcases hs with hs | ⟨l, hl, ht, hc⟩
  · exact .inl hs
  · exact .inr ⟨l, hl, ht.later hle, hc⟩

/-- **A successful read.** The ring follows the history, and the fresh answer may be served. -/
lemma Serving.fresh (hs : Serving ring lkg t h) {ring₀ : Ring} (h₀ : ring₀ = Ring.new ∨ ring₀ = ring)
    (hne : pushes ≠ []) {roots : Option (List String)}
    (hp : ring₀.pushEach cfg t pushes = (ring', roots)) (info : ι) :
    Serving ring' (some ⟨⟨roots.getD [], info⟩, t⟩) t (h.observe t pushes) ∧
      AnswerOK cfg.freshnessMs t (h.observe t pushes) (⟨⟨roots.getD [], info⟩, false, none⟩ : Answer ι) := by
  have hr : ring₀ = Ring.new ∨ ring₀.Tracks t h := by
    rcases h₀ with rfl | rfl
    · exact .inl rfl
    · rcases hs with ⟨-, hnew⟩ | ⟨l, -, ht, -⟩
      · exact .inl hnew
      · exact .inr ht
  obtain ⟨ht, rs, rfl, hserv, hhead⟩ := Ring.pushEach_spec hr hp hne
  refine ⟨.inr ⟨_, rfl, ht, hhead⟩, hserv, fun hstale => ?_⟩
  cases hstale

/-- **A failed read.** The answer from the cache is right unless it serves a retired root. -/
lemma Serving.bridge (hs : Serving ring lkg t h) {msg : String} {a : Answer ι} {lkg' : Option (Cached ι)}
    (hc : withCache cfg.freshnessMs t lkg (.error msg) = (lkg', .ok a)) :
    AnswerOK cfg.freshnessMs t h a ↔ ¬ ServesRetired cfg.freshnessMs t ring lkg := by
  rcases hs with ⟨rfl, -⟩ | ⟨l, rfl, ht, hhead⟩
  · simp [withCache] at hc
  · simp only [withCache] at hc
    split at hc
    · next hwin =>
      obtain ⟨-, ha⟩ := Prod.mk.inj hc
      obtain rfl := (Except.ok.inj ha).symm
      have hcur := ht.head
      constructor
      · rintro ⟨-, hstale⟩ ⟨hnone, l', hl', -, hroots⟩
        obtain rfl := Option.some.inj hl'
        -- the set was empty, so no root of the answer is current
        obtain ⟨x, rest, hx⟩ := List.exists_cons_of_ne_nil hroots
        have := hstale rfl x (by simp [hx])
        rw [hcur, hnone] at this
        cases this
      · intro hno
        have hstale : ∀ r ∈ l.snapshot.roots.take 1, h.current = some r := by
          intro r hr
          cases hc' : h.current with
          | some c =>
            rw [hhead c hc'] at hr
            rw [List.mem_singleton.mp hr]
          | none =>
            exfalso
            refine hno ⟨by rw [← hcur, hc'], l, rfl, hwin, ?_⟩
            intro hnil
            simp [hnil] at hr
        exact ⟨fun r hr => .inl (hstale r hr), fun _ => hstale⟩
    · cases (Prod.mk.inj hc).2

/-- A failed read leaves the cache as it is. -/
lemma withCache_error (maxStaleMs now : ℤ) (lkg : Option (Cached ι)) (msg : String) :
    (withCache maxStaleMs now lkg (.error msg)).1 = lkg := by
  cases lkg with
  | none => rfl
  | some l => simp only [withCache]; split <;> rfl

end Serve

/-! ### Runs of a provider -/

/-- A provider in its session: the clock when its last call ended, and the history of what it observed. -/
structure Session (π : Type) where
  provider : π
  clock : ℤ
  history : History

section Runs

variable {H : ℕ → ℕ → ℕ} {z depth : ℕ} (L : RLNGroup H z depth) (cfg : RingConfig)

/-- One call of the node provider in its session. -/
def callNode (s : Session NodeProvider) (call : Call NodeRpc) :
    Session NodeProvider × Except String (Answer NodeInfo) :=
  let answered := s.provider.currentRoots L cfg call
  (⟨answered.1, call.endedAt, s.history.observe call.endedAt (s.provider.observes L cfg call)⟩, answered.2)

/-- One call of the node provider; the clock does not go back. -/
def NodeStep (s : Session NodeProvider) (e : Call NodeRpc × Except String (Answer NodeInfo))
    (s' : Session NodeProvider) : Prop :=
  s.clock ≤ e.1.startedAt ∧ e.1.startedAt ≤ e.1.endedAt ∧ callNode L cfg s e.1 = (s', e.2)

/-- The read of the call succeeds, or the cache does not serve a retired root. -/
def NodeBridgeOK (s : Session NodeProvider) (e : Call NodeRpc × Except String (Answer NodeInfo)) : Prop :=
  (s.provider.read L e.1.rpc).2.toOption = none →
    ¬ ServesRetired cfg.freshnessMs e.1.endedAt s.provider.ring s.provider.lkg

/-- One call of the light provider in its session. -/
def callLight (s : Session LightProvider) (call : Call LightRpc) :
    Session LightProvider × Except String (Answer LightInfo) :=
  let answered := s.provider.currentRoots cfg call
  (⟨answered.1, call.endedAt, s.history.observe call.endedAt (LightProvider.observes call)⟩, answered.2)

/-- One call of the light provider; the clock does not go back. -/
def LightStep (s : Session LightProvider) (e : Call LightRpc × Except String (Answer LightInfo))
    (s' : Session LightProvider) : Prop :=
  s.clock ≤ e.1.startedAt ∧ e.1.startedAt ≤ e.1.endedAt ∧ callLight cfg s e.1 = (s', e.2)

/-- The read of the call succeeds, or the cache does not serve a retired root. -/
def LightBridgeOK (s : Session LightProvider) (e : Call LightRpc × Except String (Answer LightInfo)) :
    Prop :=
  e.1.rpc.toOption = none →
    ¬ ServesRetired cfg.freshnessMs e.1.endedAt s.provider.ring s.provider.lkg

variable {L cfg}

lemma NodeProvider.pushes_ne_nil (p : NodeProvider) (t : ℤ) (r : NodeReading L) :
    p.pushes L cfg t r ≠ [] := by
  unfold NodeProvider.pushes
  split
  · simp
  · next hn =>
    intro h₀
    rw [List.map_eq_nil_iff] at h₀
    simp [h₀] at hn

/-- **One call of the node provider** keeps ring and cache on the history, and its answer is right exactly
when the cache does not serve a retired root. -/
lemma NodeStep.spec {s s' : Session NodeProvider} {e : Call NodeRpc × Except String (Answer NodeInfo)}
    (hs : Serving s.provider.ring s.provider.lkg s.clock s.history) (hst : NodeStep L cfg s e s') :
    Serving s'.provider.ring s'.provider.lkg s'.clock s'.history ∧
      ∀ a, e.2 = .ok a → (AnswerOK cfg.freshnessMs e.1.endedAt s'.history a ↔ NodeBridgeOK L cfg s e) := by
  obtain ⟨call, ans⟩ := e
  obtain ⟨h₁, h₂, hcall⟩ := hst
  have hs := hs.later (h₁.trans h₂)
  simp only [callNode, NodeProvider.currentRoots, NodeProvider.fetchFresh, NodeProvider.observes] at hcall
  simp only [NodeBridgeOK]
  cases hread : s.provider.read L call.rpc with
  | mk scanned res =>
    cases res with
    | error msg =>
      simp only [hread, withCache_error] at hcall
      obtain ⟨rfl, hans⟩ := Prod.mk.inj hcall
      refine ⟨hs, fun a ha => ?_⟩
      have hc : withCache cfg.freshnessMs call.endedAt s.provider.lkg (.error msg) =
          (s.provider.lkg, .ok a) := Prod.ext (withCache_error _ _ _ _) (hans.trans ha)
      simpa [Except.toOption, History.observe] using hs.bridge hc
    | ok r =>
      simp only [hread, withCache] at hcall
      obtain ⟨rfl, hans⟩ := Prod.mk.inj hcall
      have hp := Prod.mk.eta (p := (s.provider.ring.resetIf (s.provider.resetToCurrent L cfg
        call.startedAt r)).pushEach cfg call.endedAt (s.provider.pushes L cfg call.startedAt r))
      obtain ⟨hserv, hok⟩ := hs.fresh (Ring.resetIf_cases _ _)
        (s.provider.pushes_ne_nil call.startedAt r) hp.symm
        (⟨r.observedAtBlock, r.finalized, r.replay.active⟩ : NodeInfo)
      refine ⟨hserv, fun a ha => ?_⟩
      obtain rfl := Except.ok.inj (hans.trans ha)
      simpa [Except.toOption] using hok

/-- **One call of the light provider**, likewise. -/
lemma LightStep.spec {s s' : Session LightProvider} {e : Call LightRpc × Except String (Answer LightInfo)}
    (hs : Serving s.provider.ring s.provider.lkg s.clock s.history) (hst : LightStep cfg s e s') :
    Serving s'.provider.ring s'.provider.lkg s'.clock s'.history ∧
      ∀ a, e.2 = .ok a → (AnswerOK cfg.freshnessMs e.1.endedAt s'.history a ↔ LightBridgeOK cfg s e) := by
  obtain ⟨call, ans⟩ := e
  obtain ⟨h₁, h₂, hcall⟩ := hst
  have hs := hs.later (h₁.trans h₂)
  simp only [callLight, LightProvider.currentRoots, LightProvider.fetchFresh, LightProvider.observes] at hcall
  simp only [LightBridgeOK]
  cases hrpc : call.rpc with
  | error msg =>
    simp only [hrpc, withCache_error] at hcall
    obtain ⟨rfl, hans⟩ := Prod.mk.inj hcall
    refine ⟨hs, fun a ha => ?_⟩
    have hc : withCache cfg.freshnessMs call.endedAt s.provider.lkg (.error msg) =
        (s.provider.lkg, .ok a) := Prod.ext (withCache_error _ _ _ _) (hans.trans ha)
    simpa [Except.toOption, History.observe] using hs.bridge hc
  | ok r =>
    obtain ⟨root, info⟩ := r
    simp only [hrpc, withCache] at hcall
    generalize (s.provider.lastSuccessfulAt.any
      fun last => decide (cfg.freshnessMs < call.startedAt - last)) = reset at hcall
    obtain ⟨rfl, hans⟩ := Prod.mk.inj hcall
    have hp : (s.provider.ring.resetIf reset).pushEach cfg call.endedAt [root] =
        (((s.provider.ring.resetIf reset).push cfg call.endedAt root).1,
          some ((s.provider.ring.resetIf reset).push cfg call.endedAt root).2) := rfl
    obtain ⟨hserv, hok⟩ := hs.fresh (Ring.resetIf_cases _ _) (by simp) hp info
    refine ⟨hserv, fun a ha => ?_⟩
    obtain rfl := Except.ok.inj (hans.trans ha)
    simpa [Except.toOption] using hok

end Runs

/-- **Root freshness.** After every run of either provider, the next answer serves only roots that are
current or were superseded at most `freshnessMs` ago, and from the cache only the current root, exactly
when the cache does not bridge an outage over an empty set with a root retired before. -/
theorem currentRoots_fresh (cfg : RingConfig) (clock₀ : ℤ) :
    (∀ (H : ℕ → ℕ → ℕ) (z depth : ℕ) (L : RLNGroup H z depth)
        (calls : List (Call NodeRpc × Except String (Answer NodeInfo))) (s s' : Session NodeProvider)
        (call : Call NodeRpc) (a : Answer NodeInfo),
      Run (NodeStep L cfg) ⟨NodeProvider.new, clock₀, []⟩ calls s → NodeStep L cfg s (call, .ok a) s' →
      (AnswerOK cfg.freshnessMs call.endedAt s'.history a ↔ NodeBridgeOK L cfg s (call, .ok a))) ∧
    (∀ (calls : List (Call LightRpc × Except String (Answer LightInfo))) (s s' : Session LightProvider)
        (call : Call LightRpc) (a : Answer LightInfo),
      Run (LightStep cfg) ⟨LightProvider.new, clock₀, []⟩ calls s → LightStep cfg s (call, .ok a) s' →
      (AnswerOK cfg.freshnessMs call.endedAt s'.history a ↔ LightBridgeOK cfg s (call, .ok a))) := by
  constructor
  · intro H z depth L calls s s' call a hrun hst
    have hserv : Serving s.provider.ring s.provider.lkg s.clock s.history :=
      hrun.invariant_state (I := fun s => Serving s.provider.ring s.provider.lkg s.clock s.history)
        (.inl ⟨rfl, rfl⟩) fun _ _ _ hi hst => (NodeStep.spec hi hst).1
    exact (NodeStep.spec hserv hst).2 a rfl
  · intro calls s s' call a hrun hst
    have hserv : Serving s.provider.ring s.provider.lkg s.clock s.history :=
      hrun.invariant_state (I := fun s => Serving s.provider.ring s.provider.lkg s.clock s.history)
        (.inl ⟨rfl, rfl⟩) fun _ _ _ hi hst => (LightStep.spec hi hst).1
    exact (LightStep.spec hserv hst).2 a rfl

/-! ### Sessions from a list of calls -/

/-- The calls come one after the other from `t` on. -/
def Timed {ρ : Type} : ℤ → List (Call ρ) → Prop
  | _, [] => True
  | t, call :: calls => t ≤ call.startedAt ∧ call.startedAt ≤ call.endedAt ∧ Timed call.endedAt calls

/-- The group of the deployed sets. -/
abbrev deployedGroup : RLNGroup PoseidonT3.hash ZERO_VALUE TREE_DEPTH := RLNGroup.ofMembers _ _ _

/-- A node session after the given calls. -/
def nodeSession (cfg : RingConfig) (s : Session NodeProvider) (calls : List (Call NodeRpc)) :
    Session NodeProvider :=
  calls.foldl (fun s call => (callNode deployedGroup cfg s call).1) s

/-- A light session after the given calls. -/
def lightSession (cfg : RingConfig) (s : Session LightProvider) (calls : List (Call LightRpc)) :
    Session LightProvider :=
  calls.foldl (fun s call => (callLight cfg s call).1) s

lemma nodeSession_run (cfg : RingConfig) (calls : List (Call NodeRpc)) (s : Session NodeProvider)
    (ht : Timed s.clock calls) : ∃ tr, Run (NodeStep deployedGroup cfg) s tr (nodeSession cfg s calls) := by
  induction calls generalizing s with
  | nil => exact ⟨[], .nil⟩
  | cons call calls ih =>
    obtain ⟨h₁, h₂, h₃⟩ := ht
    obtain ⟨tr, hrun⟩ := ih (callNode deployedGroup cfg s call).1 h₃
    exact ⟨_, Run.cons (e := (call, (callNode deployedGroup cfg s call).2)) ⟨h₁, h₂, rfl⟩ hrun⟩

lemma lightSession_run (cfg : RingConfig) (calls : List (Call LightRpc)) (s : Session LightProvider)
    (ht : Timed s.clock calls) : ∃ tr, Run (LightStep cfg) s tr (lightSession cfg s calls) := by
  induction calls generalizing s with
  | nil => exact ⟨[], .nil⟩
  | cons call calls ih =>
    obtain ⟨h₁, h₂, h₃⟩ := ht
    obtain ⟨tr, hrun⟩ := ih (callLight cfg s call).1 h₃
    exact ⟨_, Run.cons (e := (call, (callLight cfg s call).2)) ⟨h₁, h₂, rfl⟩ hrun⟩

/-- One member, then an outage of either provider: the cache serves the current root. -/
theorem currentRoots_fresh_outage :
    (∃ s s' a, s = nodeSession ⟨none, 60000⟩ ⟨NodeProvider.new, 0, []⟩
        [⟨0, 0, .ok (true, some 10), .ok [⟨5, 0, ⟨.registeredV4, 5⟩⟩]⟩] ∧
      NodeStep deployedGroup ⟨none, 60000⟩ s (⟨50000, 50000, .error "down", .error "down"⟩, .ok a) s' ∧
      a.stale = true ∧ AnswerOK 60000 50000 s'.history a) ∧
    (∃ s s' a, s = lightSession ⟨none, 60000⟩ ⟨LightProvider.new, 0, []⟩
        [⟨0, 0, .ok (some "7", ⟨some 10, true, true, true⟩)⟩] ∧
      LightStep ⟨none, 60000⟩ s (⟨50000, 50000, .error "down"⟩, .ok a) s' ∧
      a.stale = true ∧ AnswerOK 60000 50000 s'.history a) := by
  constructor
  · have hlive : (nodeSession ⟨none, 60000⟩ ⟨NodeProvider.new, 0, []⟩
        [⟨0, 0, .ok (true, some 10), .ok [⟨5, 0, ⟨.registeredV4, 5⟩⟩]⟩]).provider.ring.current ≠ none := by
      decide +kernel
    obtain ⟨tr, hrun⟩ := nodeSession_run ⟨none, 60000⟩
      [⟨0, 0, .ok (true, some 10), .ok [⟨5, 0, ⟨.registeredV4, 5⟩⟩]⟩] ⟨NodeProvider.new, 0, []⟩
      ⟨le_rfl, le_rfl, trivial⟩
    have hstep : NodeStep deployedGroup ⟨none, 60000⟩ (nodeSession ⟨none, 60000⟩ ⟨NodeProvider.new, 0, []⟩
        [⟨0, 0, .ok (true, some 10), .ok [⟨5, 0, ⟨.registeredV4, 5⟩⟩]⟩])
        (⟨50000, 50000, .error "down", .error "down"⟩, .ok _) _ := ⟨by decide, le_rfl, rfl⟩
    exact ⟨_, _, _, rfl, hstep, rfl, ((currentRoots_fresh ⟨none, 60000⟩ 0).1 _ _ _ _ _ _ _ _ _
      hrun hstep).mpr fun _ hret => hlive hret.1⟩
  · obtain ⟨tr, hrun⟩ := lightSession_run ⟨none, 60000⟩
      [⟨0, 0, .ok (some "7", ⟨some 10, true, true, true⟩)⟩] ⟨LightProvider.new, 0, []⟩
      ⟨le_rfl, le_rfl, trivial⟩
    have hstep : LightStep ⟨none, 60000⟩ (lightSession ⟨none, 60000⟩ ⟨LightProvider.new, 0, []⟩
        [⟨0, 0, .ok (some "7", ⟨some 10, true, true, true⟩)⟩])
        (⟨50000, 50000, .error "down"⟩, .ok _) _ := ⟨by decide, le_rfl, rfl⟩
    exact ⟨_, _, _, rfl, hstep, rfl, ((currentRoots_fresh ⟨none, 60000⟩ 0).2 _ _ _ _ _
      hrun hstep).mpr fun _ hret => absurd hret.1 (by decide)⟩

/-- A member that is slashed at `50000`, a refresh over the empty set at `100000`, an outage at `150000`:
the cache serves the root that was superseded `100000` ms before. -/
theorem currentRoots_serves_retired_root :
    ∃ tr s s' a, s = nodeSession ⟨none, 60000⟩ ⟨NodeProvider.new, 0, []⟩
        [⟨0, 0, .ok (true, some 10), .ok [⟨5, 0, ⟨.registeredV4, 5⟩⟩]⟩,
         ⟨50000, 50000, .ok (true, some 11), .ok [⟨11, 0, ⟨.slashedV4, 5⟩⟩]⟩,
         ⟨100000, 100000, .ok (true, some 12), .ok []⟩] ∧
      Run (NodeStep deployedGroup ⟨none, 60000⟩) ⟨NodeProvider.new, 0, []⟩ tr s ∧
      NodeStep deployedGroup ⟨none, 60000⟩ s (⟨150000, 150000, .error "down", .error "down"⟩, .ok a) s' ∧
      a.stale = true ∧ ∃ r ∈ a.snapshot.roots, ¬ Servable 60000 150000 s'.history r := by
  obtain ⟨tr, hrun⟩ := nodeSession_run ⟨none, 60000⟩
    [⟨0, 0, .ok (true, some 10), .ok [⟨5, 0, ⟨.registeredV4, 5⟩⟩]⟩,
      ⟨50000, 50000, .ok (true, some 11), .ok [⟨11, 0, ⟨.slashedV4, 5⟩⟩]⟩,
      ⟨100000, 100000, .ok (true, some 12), .ok []⟩] ⟨NodeProvider.new, 0, []⟩
    ⟨by decide, by decide, by decide, by decide, by decide, by decide, trivial⟩
  exact ⟨tr, _, _, _, rfl, hrun, ⟨by decide, le_rfl, rfl⟩, rfl, by decide +kernel⟩

end ShadeTree.Roots
