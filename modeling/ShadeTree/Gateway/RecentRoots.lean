import Mathlib.Data.Finset.Basic
import ShadeTree.Roots.Composite

/-!
# The accepted roots of a gateway (`initRoots` in `gateway/gateway.mjs`, `pollOnChange` in `lib/root-provider.mjs`)

A gateway that admits members of on-chain sets reads its provider at the start, and from then on in a loop.  An
iteration reads the provider and calls back if the key of the result is not the one it recorded last; the callback
reads the provider again and takes over what this second read returns.  A read that throws is called back once, and
removes what the chain gave.  The root of `members.json` is loaded at the start and whenever the file changes.

Metrics, log lines and the floor of the paid set are left out; they change no root.
-/

namespace ShadeTree.Gateway

open ShadeTree.Lib ShadeTree.Roots

/-! ### What is accepted -/

/-- `want.static` and the addresses of `contracts`. -/
structure RootSources where
  static : Bool
  contract : String
  others : List String

def RootSources.contracts (want : RootSources) : List String := want.contract :: want.others

/-- The variables of `initRoots`, and the set `recentRoots`. -/
structure AcceptedRoots where
  staticRoot : Option String
  chainRoots : List String
  perSource : List SourceRow
  degraded : Finset String
  recentRoots : Finset String

/-- The root of `members.json`, if it is wanted and there is one. -/
def AcceptedRoots.static (want : RootSources) (s : AcceptedRoots) : Finset String :=
  if want.static then s.staticRoot.toList.toFinset else ∅

def recompute (want : RootSources) (s : AcceptedRoots) : AcceptedRoots :=
  { s with recentRoots := s.static want ∪ s.chainRoots.toFinset }

/-- What `load()` of the members does with the root it read. -/
def loadStatic (want : RootSources) (root : Option String) (s : AcceptedRoots) : AcceptedRoots :=
  recompute want { s with staticRoot := root }

/-- `refresh()` once the provider has answered. -/
def refresh (want : RootSources) (r : RootsResult) (s : AcceptedRoots) : AcceptedRoots :=
  let perSource := r.perSource.getD [⟨want.contract, r.roots, r.leafCount, r.stale, r.error⟩]
  let failed := perSource.filter fun row => row.stale || row.error.any (· ≠ "")
  recompute want
    { s with
      chainRoots := r.roots
      perSource := perSource
      degraded := ((r.errors.map fun e => e.1.toLower) ++ failed.map fun row => row.contract.toLower).toFinset }

/-- The chain has no roots to give: what the callback does with an error, and the start with a failed read. -/
def withdraw (want : RootSources) (msg : String) (s : AcceptedRoots) : AcceptedRoots :=
  recompute want
    { s with
      chainRoots := []
      perSource := want.contracts.map fun contract => ⟨contract, [], none, false, some msg⟩
      degraded := (want.contracts.map String.toLower).toFinset }

/-! ### The loop -/

/-- What `pollSnapshotKey` writes as text. -/
structure PollKey where
  roots : List String
  perSource : List (String × List String × Bool × Bool)
  errors : List String
  deriving DecidableEq

def pollSnapshotKey (snapshot : RootsResult) : PollKey where
  roots := snapshot.roots
  perSource := (snapshot.perSource.getD []).map fun source =>
    (source.contract.toLower, source.roots, source.stale, source.error.any (· ≠ ""))
  errors := (snapshot.errors.map fun entry => entry.1.toLower).insertionSort (· ≤ ·)

/-- The provider, the variables of `pollOnChange` and what is accepted. -/
structure Polling (π : Type) where
  provider : RootProvider π
  last : Option PollKey
  failed : Bool
  accepted : AcceptedRoots

section Model

variable {π ρ ι : Type} {freshnessMs : ℤ} (P : SingleProvider π ρ ι freshnessMs) (want : RootSources)

/-- `initRoots`, with the root of `members.json` and the calls of the first read. -/
def initRoots (clock : ℤ) (staticRoot : Option String) (calls : String → Call ρ) : Except String (Polling π) :=
  let start := recompute want ⟨staticRoot, [], [], ∅, ∅⟩
  match (makeRootProvider P clock want.contract want.others).currentRoots P calls with
  | (provider, .ok r) => .ok ⟨provider, none, false, refresh want r start⟩
  | (provider, .error msg) =>
    if want.static && staticRoot.isSome then .ok ⟨provider, none, false, withdraw want msg start⟩
    else .error msg

/-- The callback without an error: `refresh()`, whose failure is logged. -/
def rootsChanged (calls : String → Call ρ) (s : Polling π) : Polling π :=
  match s.provider.currentRoots P calls with
  | (provider, .ok r) => { s with provider := provider, accepted := refresh want r s.accepted }
  | (provider, .error _) => { s with provider := provider }

/-- One iteration of the loop: the calls of the poll, and those of the callback if it reads the provider again. -/
def iterate (first second : String → Call ρ) (s : Polling π) : Polling π :=
  match s.provider.currentRoots P first with
  | (provider, .error msg) =>
    { provider := provider
      last := none
      failed := true
      accepted := if s.failed then s.accepted else withdraw want msg s.accepted }
  | (provider, .ok snapshot) =>
    let next := pollSnapshotKey snapshot
    if some next = s.last then { s with provider := provider, failed := false }
    else rootsChanged P want second { s with provider := provider, last := some next, failed := false }

inductive RootEvent (ρ : Type) where
  | poll (first second : String → Call ρ)
  | loadStatic (root : Option String)

def Polling.next (s : Polling π) : RootEvent ρ → Polling π
  | .poll first second => iterate P want first second s
  | .loadStatic root => { s with accepted := loadStatic want root s.accepted }

/-- The calls of an event start when those before them are over. -/
def Polling.Timed (s : Polling π) : RootEvent ρ → Prop
  | .poll first second => s.provider.Timed first ∧ (s.provider.currentRoots P first).1.Timed second
  | .loadStatic _ => True

/-- The iterations of the loop, and the loads of `members.json` between them. -/
def RootStep (s : Polling π) (e : RootEvent ρ) (s' : Polling π) : Prop := s.Timed P e ∧ s' = s.next P want e

/-- The callback of an event, if there is one, reads the roots that the poll has read. -/
def ReadsAlike (s : Polling π) : RootEvent ρ → Prop
  | .poll first second => ∀ snapshot, (s.provider.currentRoots P first).2 = .ok snapshot →
      some (pollSnapshotKey snapshot) ≠ s.last →
        ∃ r, ((s.provider.currentRoots P first).1.currentRoots P second).2 = .ok r ∧
          r.roots.toFinset = snapshot.roots.toFinset
  | .loadStatic _ => True

/-- **What a read settles.** The static root and the roots of the read are accepted, and no others; and each of these
is current or was superseded at most `freshnessMs` ago, unless a cache has bridged an outage with a retired root. -/
structure Settles (before : RootProvider π) (calls : String → Call ρ) (roots : List String) (s : Polling π) : Prop where
  recent : s.accepted.recentRoots = s.accepted.static want ∪ roots.toFinset
  fresh : before.BridgeOK P calls → ∀ r ∈ roots, s.provider.Serves freshnessMs r

end Model

/-! ### One iteration -/

section Iteration

variable {π ρ ι : Type} {freshnessMs : ℤ} {P : SingleProvider π ρ ι freshnessMs} {want : RootSources} {s : Polling π}
  {first second : String → Call ρ}

/-- What an iteration can do. -/
lemma iterate_cases (P : SingleProvider π ρ ι freshnessMs) (want : RootSources) (first second : String → Call ρ)
    (s : Polling π) :
    let poll := s.provider.currentRoots P first
    let again := poll.1.currentRoots P second
    let s' := iterate P want first second s
    (∃ msg, poll.2 = .error msg ∧ s' = ⟨poll.1, none, true,
      if s.failed then s.accepted else withdraw want msg s.accepted⟩) ∨
    (∃ snapshot, poll.2 = .ok snapshot ∧ some (pollSnapshotKey snapshot) = s.last ∧
      s' = ⟨poll.1, s.last, false, s.accepted⟩) ∨
    (∃ snapshot, poll.2 = .ok snapshot ∧ some (pollSnapshotKey snapshot) ≠ s.last ∧
      ((∃ r, again.2 = .ok r ∧ s' = ⟨again.1, some (pollSnapshotKey snapshot), false, refresh want r s.accepted⟩) ∨
        ∃ msg, again.2 = .error msg ∧ s' = ⟨again.1, some (pollSnapshotKey snapshot), false, s.accepted⟩)) := by
  dsimp only
  unfold iterate
  cases hpoll : s.provider.currentRoots P first with
  | mk provider answer =>
    cases answer with
    | error msg => exact .inl ⟨msg, rfl, rfl⟩
    | ok snapshot =>
      right
      by_cases hkey : some (pollSnapshotKey snapshot) = s.last
      · left
        refine ⟨snapshot, rfl, hkey, ?_⟩
        simp only [hkey, if_true]
      · right
        refine ⟨snapshot, rfl, hkey, ?_⟩
        simp only [if_neg hkey, rootsChanged]
        cases hagain : provider.currentRoots P second with
        | mk provider' answer' =>
          cases answer' with
          | ok r => exact .inl ⟨r, rfl, rfl⟩
          | error msg => exact .inr ⟨msg, rfl, rfl⟩

/-- What the gateway keeps true. -/
structure Polling.Sound (P : SingleProvider π ρ ι freshnessMs) (want : RootSources) (s : Polling π) : Prop where
  keeps : s.provider.Keeps P
  recent : s.accepted.recentRoots = s.accepted.static want ∪ s.accepted.chainRoots.toFinset
  gone : s.failed = true → s.accepted.chainRoots = []

/-- The roots in force are those of the key that was recorded. -/
def Polling.InForce (s : Polling π) : Prop := ∀ key, s.last = some key →
  s.accepted.chainRoots.toFinset = key.roots.toFinset

lemma initRoots_sound {clock : ℤ} {staticRoot : Option String} {calls : String → Call ρ}
    (htimed : (makeRootProvider P clock want.contract want.others).Timed calls)
    (h : initRoots P want clock staticRoot calls = .ok s) : s.Sound P want ∧ s.InForce := by
  have hkeeps := currentRoots_keeps (makeRootProvider_keeps clock want.contract want.others) htimed
  unfold initRoots at h
  cases hread : (makeRootProvider P clock want.contract want.others).currentRoots P calls with
  | mk provider answer =>
    rw [hread] at h hkeeps
    cases answer with
    | ok r =>
      obtain rfl := Except.ok.inj h
      exact ⟨⟨hkeeps, rfl, nofun⟩, nofun⟩
    | error msg =>
      dsimp only at h
      split_ifs at h
      obtain rfl := Except.ok.inj h
      exact ⟨⟨hkeeps, rfl, nofun⟩, nofun⟩

/-- **One event** keeps what the gateway keeps true. -/
lemma RootStep.sound {s' : Polling π} {e : RootEvent ρ} (hs : s.Sound P want) (h : RootStep P want s e s') :
    s'.Sound P want := by
  obtain ⟨htimed, rfl⟩ := h
  cases e with
  | loadStatic root => exact ⟨hs.keeps, rfl, hs.gone⟩
  | poll first second =>
    have hpolled := currentRoots_keeps hs.keeps htimed.1
    have hagain := currentRoots_keeps hpolled htimed.2
    simp only [Polling.next]
    rcases iterate_cases P want first second s with ⟨msg, -, heq⟩ | ⟨snapshot, -, -, heq⟩ |
      ⟨snapshot, -, -, ⟨r, -, heq⟩ | ⟨msg, -, heq⟩⟩
    · rw [heq]
      -- the error was called back now or before
      split_ifs with hfailed
      · exact ⟨hpolled, hs.recent, fun _ => hs.gone hfailed⟩
      · exact ⟨hpolled, rfl, fun _ => rfl⟩
    · rw [heq]
      exact ⟨hpolled, hs.recent, nofun⟩
    · rw [heq]
      exact ⟨hagain, rfl, nofun⟩
    · rw [heq]
      exact ⟨hagain, hs.recent, nofun⟩

/-- As long as the reads of a callback are alike, the roots in force are those of the recorded key. -/
lemma RootStep.inForce {s' : Polling π} {e : RootEvent ρ} (hs : s.InForce)
    (h : Restrict (RootStep P want) (ReadsAlike P) s e s') : s'.InForce := by
  obtain ⟨halike, -, rfl⟩ := h
  cases e with
  | loadStatic root => exact hs
  | poll first second =>
    simp only [Polling.next]
    rcases iterate_cases P want first second s with ⟨msg, -, heq⟩ | ⟨snapshot, -, -, heq⟩ |
      ⟨snapshot, hpoll, hkey, ⟨r, hagain, heq⟩ | ⟨msg, hagain, heq⟩⟩
    · rw [heq]
      nofun
    · rw [heq]
      exact hs
    · obtain ⟨r', hr', hsame⟩ := halike snapshot hpoll hkey
      obtain rfl : r' = r := Except.ok.inj (hr'.symm.trans hagain)
      rw [heq]
      intro key hlast
      obtain rfl := Option.some.inj hlast
      exact hsame
    · obtain ⟨r', hr', -⟩ := halike snapshot hpoll hkey
      rw [hagain] at hr'
      cases hr'

/-- **A poll that throws** leaves the static root alone. -/
lemma RootStep.expired {s' : Polling π} (hs : s.Sound P want) (h : RootStep P want s (.poll first second) s')
    {msg : String} (hpoll : (s.provider.currentRoots P first).2 = .error msg) :
    s'.accepted.recentRoots = s'.accepted.static want := by
  have hsound := h.sound hs
  obtain ⟨-, rfl⟩ := h
  rcases iterate_cases P want first second s with ⟨msg', -, heq⟩ | ⟨snapshot, hok, -⟩ | ⟨snapshot, hok, -⟩
  · have hfailed : ((s.next P want (.poll first second)).failed) = true := by
      rw [Polling.next, heq]
    rw [hsound.recent, hsound.gone hfailed, List.toFinset_nil, Finset.union_empty]
  · rw [hpoll] at hok
    cases hok
  · rw [hpoll] at hok
    cases hok

/-- **A callback whose read is answered** takes over the roots of this read. -/
lemma RootStep.refreshed {s' : Polling π} (hs : s.Sound P want) (h : RootStep P want s (.poll first second) s')
    {snapshot r : RootsResult} (hpoll : (s.provider.currentRoots P first).2 = .ok snapshot)
    (hkey : some (pollSnapshotKey snapshot) ≠ s.last)
    (hagain : ((s.provider.currentRoots P first).1.currentRoots P second).2 = .ok r) :
    Settles P want (s.provider.currentRoots P first).1 second r.roots s' := by
  obtain ⟨⟨hfirst, hsecond⟩, rfl⟩ := h
  have hpolled := currentRoots_keeps hs.keeps hfirst
  rcases iterate_cases P want first second s with ⟨msg, herror, -⟩ | ⟨snapshot', hok, hsame, -⟩ |
    ⟨snapshot', hok, -, ⟨r', hr', heq⟩ | ⟨msg, herror, -⟩⟩
  · rw [hpoll] at herror
    cases herror
  · obtain rfl : snapshot = snapshot' := Except.ok.inj (hpoll.symm.trans hok)
    exact absurd hsame hkey
  · obtain rfl : r = r' := Except.ok.inj (hagain.symm.trans hr')
    rw [Polling.next, heq]
    exact ⟨rfl, fun hbridge => currentRoots_serves hpolled hsecond hbridge hagain⟩
  · rw [hagain] at herror
    cases herror

/-- **A poll that finds its key again** leaves the roots in force, which are its own. -/
lemma RootStep.unchanged {s' : Polling π} (hs : s.Sound P want) (hforce : s.InForce)
    (h : RootStep P want s (.poll first second) s') {snapshot : RootsResult}
    (hpoll : (s.provider.currentRoots P first).2 = .ok snapshot)
    (hkey : some (pollSnapshotKey snapshot) = s.last) : Settles P want s.provider first snapshot.roots s' := by
  obtain ⟨⟨hfirst, -⟩, rfl⟩ := h
  rcases iterate_cases P want first second s with ⟨msg, herror, -⟩ | ⟨snapshot', hok, -, heq⟩ |
    ⟨snapshot', hok, hne, -⟩
  · rw [hpoll] at herror
    cases herror
  · rw [Polling.next, heq]
    refine ⟨?_, fun hbridge => currentRoots_serves hs.keeps hfirst hbridge hpoll⟩
    have hroots : s.accepted.chainRoots.toFinset = snapshot.roots.toFinset := hforce _ hkey.symm
    rw [← hroots]
    exact hs.recent
  · obtain rfl : snapshot = snapshot' := Except.ok.inj (hpoll.symm.trans hok)
    exact absurd hkey hne

/-- **The accepted roots follow the chain.** Whatever the provider answers, once an iteration settles: a poll that
threw has left the static root alone; a callback whose read was answered has left the roots of this read; and a poll
that found its key again accepts its own roots, as long as the callbacks read what their polls had read. -/
theorem roots_follow_chain (P : SingleProvider π ρ ι freshnessMs) (want : RootSources) (clock : ℤ)
    (staticRoot : Option String) (calls : String → Call ρ) {s₀ : Polling π}
    (htimed : (makeRootProvider P clock want.contract want.others).Timed calls)
    (hstart : initRoots P want clock staticRoot calls = .ok s₀) :
    ∀ tr s first second s', Run (RootStep P want) s₀ tr s → RootStep P want s (.poll first second) s' →
      (∀ msg, (s.provider.currentRoots P first).2 = .error msg →
        s'.accepted.recentRoots = s'.accepted.static want) ∧
      (∀ snapshot, (s.provider.currentRoots P first).2 = .ok snapshot → some (pollSnapshotKey snapshot) ≠ s.last →
        ∀ r, ((s.provider.currentRoots P first).1.currentRoots P second).2 = .ok r →
          Settles P want (s.provider.currentRoots P first).1 second r.roots s') ∧
      (Run (Restrict (RootStep P want) (ReadsAlike P)) s₀ tr s →
        ∀ snapshot, (s.provider.currentRoots P first).2 = .ok snapshot → some (pollSnapshotKey snapshot) = s.last →
          Settles P want s.provider first snapshot.roots s') := by
  intro tr s first second s' hrun hstep
  obtain ⟨hsound₀, hforce₀⟩ := initRoots_sound htimed hstart
  have hsound : s.Sound P want := hrun.invariant_state hsound₀ fun _ _ _ hs hst => hst.sound hs
  refine ⟨fun msg hpoll => hstep.expired hsound hpoll, fun snapshot hpoll hkey r hagain => ?_,
    fun halike snapshot hpoll hkey => ?_⟩
  · exact hstep.refreshed hsound hpoll hkey hagain
  · have hforce : s.InForce := halike.invariant_state hforce₀ fun _ _ _ hs hst => RootStep.inForce hs hst
    exact hstep.unchanged hsound hforce hpoll hkey

end Iteration

/-! ### Roots that are left behind -/

/-- One contract, beside a `members.json`. -/
def oneContract : RootSources := ⟨true, "0xA", []⟩

abbrev lightAt (freshnessMs : ℤ) : SingleProvider LightProvider LightRpc LightInfo freshnessMs :=
  lightProvider ⟨none, freshnessMs⟩

/-- A call at `t` that observes the root. -/
def observed (t : ℤ) (root : String) : String → Call LightRpc :=
  fun _ => ⟨t, t, .ok (some root, ⟨some 1, true, true, true⟩)⟩

/-- A gateway that has started at `0` with the root `"1"` on the chain. -/
def startedAtOne (freshnessMs : ℤ) : Polling LightProvider :=
  ((initRoots (lightAt freshnessMs) oneContract 0 (some "9") (observed 0 "1")).toOption).get rfl

/-- The roots of the last read of an iteration that was answered, and none if the poll was not. -/
def answeredRoots {π ρ ι : Type} {freshnessMs : ℤ} (P : SingleProvider π ρ ι freshnessMs)
    (first second : String → Call ρ) (s : Polling π) : List String :=
  match s.provider.currentRoots P first with
  | (_, .error _) => []
  | (provider, .ok snapshot) =>
    if some (pollSnapshotKey snapshot) = s.last then snapshot.roots
    else
      match (provider.currentRoots P second).2 with
      | .ok r => r.roots
      | .error _ => snapshot.roots

lemma startedAtOne_eq (freshnessMs : ℤ) :
    initRoots (lightAt freshnessMs) oneContract 0 (some "9") (observed 0 "1") =
      .ok (startedAtOne freshnessMs) := rfl

/-- Two reads of the contract in a row, from the end of the last one on. -/
lemma observed_step (freshnessMs : ℤ) {s : Polling LightProvider} {child : Child LightProvider} (t t' : ℤ)
    (root root' : String) (hchild : s.provider = .single child) (ht : child.session.clock ≤ t) (ht' : t ≤ t') :
    RootStep (lightAt freshnessMs) oneContract s (.poll (observed t root) (observed t' root'))
      (s.next (lightAt freshnessMs) oneContract (.poll (observed t root) (observed t' root'))) := by
  refine ⟨⟨?_, ?_⟩, rfl⟩
  · intro c hc
    rw [hchild] at hc
    obtain rfl := List.mem_singleton.mp hc
    exact ⟨ht, le_rfl⟩
  · intro c hc
    rw [currentRoots_children, hchild] at hc
    obtain rfl := List.mem_singleton.mp hc
    exact ⟨ht', le_rfl⟩

/-- An RPC that answers the callback with a newer root than the poll leaves this root accepted once the polls are back
at the older one; and a root that was superseded `50000` ms ago is accepted, though it was last observed `100000` ms
ago. -/
theorem accepted_left_behind :
    (∃ tr s s', Run (RootStep (lightAt 10000) oneContract) (startedAtOne 10000) tr s ∧
      RootStep (lightAt 10000) oneContract s (.poll (observed 24600 "1") (observed 24600 "1")) s' ∧
      s'.accepted.recentRoots ≠ s'.accepted.static oneContract ∪
        (answeredRoots (lightAt 10000) (observed 24600 "1") (observed 24600 "1") s).toFinset) ∧
    (∃ tr s s', Run (RootStep (lightAt 60000) oneContract) (startedAtOne 60000) tr s ∧
      RootStep (lightAt 60000) oneContract s (.poll (observed 100000 "2") (observed 100000 "2")) s' ∧
      "1" ∈ s'.accepted.recentRoots ∧ "1" ∉ s'.accepted.static oneContract ∧
      ∀ child ∈ s'.provider.children, ∀ o ∈ child.session.history,
        o.2 = some "1" → 60000 < child.session.clock - o.1) := by
  constructor
  · refine ⟨_, _, _, .single (observed_step 10000 12000 12500 "1" "2" rfl ?_ ?_),
      observed_step 10000 24600 24600 "1" "1" rfl ?_ le_rfl, ?_⟩
    · decide
    · decide
    · decide
    · decide
  · refine ⟨_, _, _, .single (observed_step 60000 50000 50000 "2" "2" rfl ?_ ?_),
      observed_step 60000 100000 100000 "2" "2" rfl ?_ le_rfl, ?_, ?_, ?_⟩
    · decide
    · decide
    · decide
    · decide
    · decide
    · decide

/-- A new root at `50000`, which the poll at `100000` finds again: both roots are accepted. -/
theorem roots_follow_chain_polled :
    ∃ tr s s', Run (Restrict (RootStep (lightAt 60000) oneContract) (ReadsAlike (lightAt 60000))) (startedAtOne 60000)
        tr s ∧
      RootStep (lightAt 60000) oneContract s (.poll (observed 100000 "2") (observed 100000 "2")) s' ∧
      Settles (lightAt 60000) oneContract s.provider (observed 100000 "2") ["2", "1"] s' := by
  have htimed : (makeRootProvider (lightAt 60000) 0 "0xA" []).Timed (observed 0 "1") := by
    intro child hchild
    obtain rfl := List.mem_singleton.mp hchild
    exact ⟨le_rfl, le_rfl⟩
  have hfirst : RootStep (lightAt 60000) oneContract (startedAtOne 60000) _ _ :=
    observed_step 60000 50000 50000 "2" "2" rfl (by decide) le_rfl
  have hrun := Run.single (Restrict.of_step (C := ReadsAlike (lightAt 60000)) hfirst ?_)
  · have hagain := observed_step 60000 100000 100000 "2" "2" (s := (startedAtOne 60000).next (lightAt 60000) oneContract
      (.poll (observed 50000 "2") (observed 50000 "2"))) rfl (by decide) le_rfl
    exact ⟨_, _, _, hrun, hagain, (roots_follow_chain (lightAt 60000) oneContract 0 (some "9") (observed 0 "1") htimed
      (startedAtOne_eq 60000) _ _ _ _ _ hrun.forget hagain).2.2 hrun _ rfl rfl⟩
  · intro snapshot hpoll _
    obtain rfl := Except.ok.inj hpoll
    exact ⟨_, rfl, rfl⟩

end ShadeTree.Gateway
