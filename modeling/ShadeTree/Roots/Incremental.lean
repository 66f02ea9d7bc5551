import ShadeTree.Roots.LogPages
import ShadeTree.Roots.Provider

/-!
# Incremental reads of a finalized log (`NodeRootProvider`)

Finalized blocks do not reorganise, so the provider keeps the logs it has replayed and asks for those after them.
The chain here is any list of logs at positions of their own, and the heads polled do not go back; every request
may fail, and what is answered is the logs of the range.  The reference is the replay of all logs from the start
block to the head.
-/

namespace ShadeTree.Roots

open ShadeTree.Lib
open ShadeTree.Contracts (PoseidonT3.hash ZERO_VALUE TREE_DEPTH)

/-! ### Replays of one log after another -/

section Replay

variable {H : ℕ → ℕ → ℕ} {z depth : ℕ} {L : RLNGroup H z depth} {r r' : Replay L} {k p : ℕ} {e : MemberEvent}
  {es es' : List MemberEvent}

/-- The tree of a replay, without what was recorded on the way. -/
def Replay.forget (r : Replay L) : Replay L := { r with transitions := [] }

lemma Replay.root_forget : r.forget.root = r.root := rfl

lemma Replay.forget_changed (tf : Option ℕ) (q : ℕ) : (r.changed tf q).forget = r.forget := by
  unfold changed
  split
  · rfl
  · split <;> rfl

/-- What is recorded has no influence on the tree. -/
lemma Replay.step_forget (tf : Option ℕ) (q : ℕ) :
    (r.step tf p e).map Replay.forget = r.forget.step none q e := by
  unfold step
  split
  · cases hlive : r.liveIndex e.commitment with
    | some i => simp [forget, hlive, Except.map]
    | none =>
      cases hadd : L.addMember r.g e.commitment with
      | error msg => simp [forget, hlive, hadd, Except.map]
      | ok g =>
        have hlive' : r.forget.liveIndex e.commitment = none := hlive
        have hadd' : L.addMember r.forget.g e.commitment = .ok g := hadd
        simp only [Except.map, forget_changed, hlive', hadd']
        rfl
  · split
    · cases hlive : r.liveIndex e.commitment with
      | none => simp [forget, hlive, Except.map]
      | some i =>
        cases hremove : L.removeMember r.g i with
        | error msg => simp [forget, hlive, hremove, Except.map]
        | ok g =>
          have hlive' : r.forget.liveIndex e.commitment = some i := hlive
          have hremove' : L.removeMember r.forget.g i = .ok g := hremove
          simp only [Except.map, hremove, forget_changed, hlive', hremove']
          rfl
    · simp [Except.map]

lemma Replay.loop_cons (tf : Option ℕ) :
    Replay.loop tf p r (e :: es) = (r.step tf p e).bind fun r' => Replay.loop tf (p + 1) r' es := by
  rw [Replay.loop]
  cases r.step tf p e <;> rfl

lemma Replay.loop_append (tf : Option ℕ) :
    Replay.loop tf p r (es ++ es') = (Replay.loop tf p r es).bind fun r' => Replay.loop tf (p + es.length) r' es' := by
  induction es generalizing r p with
  | nil => rfl
  | cons e es ih =>
    rw [List.cons_append, loop_cons, loop_cons]
    cases r.step tf p e with
    | error msg => rfl
    | ok r₁ =>
      simp only [Except.bind]
      rw [ih, List.length_cons, Nat.add_comm es.length 1, ← Nat.add_assoc]
      rfl

lemma Replay.loop_forget (tf : Option ℕ) (q : ℕ) :
    (Replay.loop tf p r es).map Replay.forget = Replay.loop none q r.forget es := by
  induction es generalizing r p q with
  | nil => rfl
  | cons e es ih =>
    have hstep := Replay.step_forget (r := r) (p := p) (e := e) tf q
    rw [loop_cons, loop_cons, ← hstep]
    cases r.step tf p e with
    | error msg => rfl
    | ok r₁ => exact ih (q + 1)

/-- A step applies a mutation, or nothing. -/
lemma Replay.step_cases {tf : Option ℕ} (h : r.step tf p e = .ok r') :
    r' = r ∨ ∃ r₀ : Replay L, r₀.transitions = r.transitions ∧ r' = r₀.changed tf p := by
  unfold step at h
  split at h
  · split at h
    · exact .inl (Except.ok.inj h).symm
    · split at h
      · cases h
      · refine .inr ⟨_, ?_, (Except.ok.inj h).symm⟩
        rfl
  · split at h
    · split at h
      · exact .inl (Except.ok.inj h).symm
      · split at h
        · cases h
        · refine .inr ⟨_, ?_, (Except.ok.inj h).symm⟩
          rfl
    · exact .inl (Except.ok.inj h).symm

/-- Before the position from which on roots are recorded, none is. -/
lemma Replay.loop_untracked (h : Replay.loop (some k) p r es = .ok r') (hk : p + es.length ≤ k) :
    r'.transitions = r.transitions := by
  induction es generalizing r p with
  | nil =>
    obtain rfl := Except.ok.inj h
    rfl
  | cons e es ih =>
    rw [loop_cons] at h
    rw [List.length_cons] at hk
    cases hstep : r.step (some k) p e with
    | error msg =>
      rw [hstep] at h
      cases h
    | ok r₁ =>
      rw [hstep] at h
      have hlt : ¬ k ≤ p := by omega
      refine (ih h (by omega)).trans ?_
      rcases step_cases hstep with rfl | ⟨r₀, hr₀, rfl⟩
      · rfl
      · simpa [changed, hlt] using hr₀

/-- From that position on, every root that the replay passes through is the first one or recorded, and the last
one is the last of these. -/
lemma Replay.loop_tracked (h : Replay.loop (some k) p r es = .ok r') (hk : k ≤ p) :
    ∃ roots, r'.transitions = r.transitions ++ roots ∧ (r.root :: roots).getLast (List.cons_ne_nil _ _) = r'.root ∧
      ∀ n rn, Replay.loop none 0 r.forget (es.take n) = .ok rn → rn.root ∈ r.root :: roots := by
  induction es generalizing r p with
  | nil =>
    obtain rfl := Except.ok.inj h
    refine ⟨[], (List.append_nil _).symm, rfl, fun n rn hn => ?_⟩
    rw [List.take_nil] at hn
    obtain rfl := Except.ok.inj hn
    exact List.mem_cons_self
  | cons e es ih =>
    rw [loop_cons] at h
    cases hstep : r.step (some k) p e with
    | error msg =>
      rw [hstep] at h
      cases h
    | ok r₁ =>
      rw [hstep] at h
      obtain ⟨roots, htransitions, hlast, hmem⟩ := ih h (by omega)
      have hforget := step_forget (r := r) (p := p) (e := e) (some k) 0
      rw [hstep] at hforget
      have hbegins : ∀ n rn, Replay.loop none 0 r.forget ((e :: es).take n) = .ok rn →
          rn.root = r.root ∨ rn.root ∈ r₁.root :: roots := by
        intro n rn hn
        cases n with
        | zero =>
          obtain rfl := Except.ok.inj hn
          exact .inl rfl
        | succ n =>
          rw [List.take_succ_cons, loop_cons, ← hforget] at hn
          -- the position is of no account when nothing is recorded
          have hzero : Replay.loop none (0 + 1) r₁.forget (es.take n) = Replay.loop none 0 r₁.forget (es.take n) := by
            rw [← loop_forget (r := r₁) (p := 0) none, ← loop_forget (r := r₁) (p := 0) none]
          exact .inr (hmem n rn (hzero ▸ hn))
      rcases step_cases hstep with rfl | ⟨r₀, hr₀, rfl⟩
      · exact ⟨roots, htransitions, hlast, fun n rn hn => (hbegins n rn hn).elim (fun heq => by rw [heq]; simp) id⟩
      · refine ⟨(r₀.changed (some k) p).root :: roots, ?_, ?_, ?_⟩
        · have hroot : (r₀.changed (some k) p).root = r₀.root := by
            rw [← root_forget, forget_changed, root_forget]
          rw [htransitions, hroot]
          simp [changed, hk, hr₀]
        · rw [List.getLast_cons (List.cons_ne_nil _ _)]
          exact hlast
        · intro n rn hn
          rcases hbegins n rn hn with heq | hin
          · rw [heq]
            exact List.mem_cons_self
          · exact List.mem_cons_of_mem _ hin

end Replay

/-! ### The order of the chain -/

section Chain

variable {H : ℕ → ℕ → ℕ} {z depth : ℕ} {L : RLNGroup H z depth} {chain logs : List Log} {a b c k : ℕ}

lemma between_sorted (hchain : chain.Pairwise Log.Before) : (between chain a b).Pairwise Log.Before :=
  hchain.filter _

/-- Any order of the logs of a range gives the replay of the range. -/
lemma reconstructGroup_perm (hchain : chain.Pairwise Log.Before) (h : logs.Perm (between chain a b)) (tf : Option ℕ) :
    reconstructGroup L tf logs = Replay.loop tf 0 (Replay.new L) ((between chain a b).map Log.event) := by
  have hemitted : EmittedAs logs ((between chain a b).map Log.event) := ⟨_, between_sorted hchain, rfl, h⟩
  rw [reconstructGroup, hemitted.sorted]

/-- In the order of the chain a range is that of its first blocks and then the rest. -/
lemma between_eq_append (hchain : chain.Pairwise Log.Before) (hbc : b ≤ c) :
    between chain a c = between chain a b ++ (between chain a c).filter fun l => decide (b < l.blockNumber) := by
  induction chain with
  | nil => rfl
  | cons l chain ih =>
    obtain ⟨hfirst, hchain⟩ := List.pairwise_cons.mp hchain
    have hle : ∀ l' ∈ chain, l.blockNumber ≤ l'.blockNumber := by
      intro l' hl'
      have := hfirst l' hl'
      simp only [Log.Before] at this
      omega
    by_cases hb : l.blockNumber ≤ b
    · by_cases ha : a ≤ l.blockNumber
      · have hin : between (l :: chain) a b = l :: between chain a b := by
          simp [between, ha, hb]
        have hin' : between (l :: chain) a c = l :: between chain a c := by
          simp [between, ha, hb.trans hbc]
        rw [hin, hin', List.filter_cons_of_neg (by simpa using hb), List.cons_append, ← ih hchain]
      · have hout : ∀ d, between (l :: chain) a d = between chain a d := by
          intro d
          simp [between, ha]
        rw [hout, hout]
        exact ih hchain
    · -- all the logs from here on lie above
      have hnil : between (l :: chain) a b = [] := by
        refine List.filter_eq_nil_iff.mpr fun l' hl' hin => ?_
        have hin := of_decide_eq_true hin
        rcases List.mem_cons.mp hl' with rfl | hl'
        · exact hb hin.2
        · have := hle l' hl'
          omega
      rw [hnil, List.nil_append]
      refine (List.filter_eq_self.mpr fun l' hl' => decide_eq_true ?_).symm
      rcases List.mem_cons.mp (mem_between.mp hl').1 with rfl | hmem
      · omega
      · have := hle l' hmem
        omega

end Chain

/-! ### The ring after several pushes -/

/-- The ring knows the root. -/
def Ring.Knows (r : Ring) (root : String) : Prop := r.current = some root ∨ ∃ e ∈ r.retired, e.root = root

section Ring

variable {cfg : RingConfig} {now : ℤ} {r r' : Ring} {root : Option String} {x : String} {pushes : List (Option String)}
  {roots : Option (List String)}

lemma Ring.current_push (r : Ring) (root : Option String) : (r.push cfg now root).1.current = normRoot root := by
  unfold push
  cases r.initialized with
  | false => simp
  | true => by_cases hsame : normRoot root = r.current <;> simp [hsame]

/-- A root that is current, or was superseded at this instant, stays known. -/
lemma Ring.push_known (hinit : r.initialized = true) (hfresh : 0 ≤ cfg.freshnessMs)
    (h : r.current = some x ∨ ∃ e ∈ r.retired, e.root = x ∧ e.retiredAt = now) :
    (r.push cfg now root).1.current = some x ∨
      ∃ e ∈ (r.push cfg now root).1.retired, e.root = x ∧ e.retiredAt = now := by
  have hkept : ∀ e : Retired, e.retiredAt = now → decide (now - e.retiredAt ≤ cfg.freshnessMs) = true := by
    intro e he
    rw [he]
    exact decide_eq_true (by omega)
  by_cases hsame : normRoot root = r.current
  · rcases h with hcurrent | ⟨e, he, hroot, hat⟩
    · left
      rw [current_push, hsame, hcurrent]
    · right
      refine ⟨e, ?_, hroot, hat⟩
      simp only [push, hinit, hsame, bne_self_eq_false, Bool.and_false, Bool.false_eq_true, if_false]
      exact List.mem_filter.mpr ⟨he, hkept e hat⟩
  · have hretired : (r.push cfg now root).1.retired =
        (r.retire now).filter fun entry => decide (now - entry.retiredAt ≤ cfg.freshnessMs) := by
      simp [push, hinit, hsame]
    right
    rw [hretired]
    rcases h with hcurrent | ⟨e, he, hroot, hat⟩
    · refine ⟨⟨x, now⟩, List.mem_filter.mpr ⟨?_, hkept _ rfl⟩, rfl, rfl⟩
      simp [retire, hcurrent]
    · refine ⟨e, List.mem_filter.mpr ⟨?_, hkept e hat⟩, hroot, hat⟩
      unfold retire
      split
      · exact List.mem_cons_of_mem _ he
      · exact he

/-- **Several pushes** leave the last one current, and know every root pushed and the one before. -/
lemma Ring.pushEach_known (hinit : r.initialized = true) (hfresh : 0 ≤ cfg.freshnessMs)
    (h : r.pushEach cfg now pushes = (r', roots)) :
    r'.initialized = true ∧
      ∀ x, (r.current = some x ∨ (∃ e ∈ r.retired, e.root = x ∧ e.retiredAt = now) ∨
        ∃ root ∈ pushes, normRoot root = some x) →
        r'.current = some x ∨ ∃ e ∈ r'.retired, e.root = x ∧ e.retiredAt = now := by
  induction pushes generalizing r r' roots with
  | nil =>
    obtain ⟨rfl, rfl⟩ := Prod.mk.inj h
    refine ⟨hinit, fun x hx => ?_⟩
    rcases hx with hx | hx | ⟨root, hroot, -⟩
    · exact .inl hx
    · exact .inr hx
    · exact absurd hroot List.not_mem_nil
  | cons root rest ih =>
    obtain ⟨roots₂, hq⟩ := pushEach_rest h
    obtain ⟨hinit₂, hknown⟩ := ih rfl hq
    refine ⟨hinit₂, fun x hx => hknown x ?_⟩
    rcases hx with hx | hx | ⟨root', hroot', hnorm⟩
    · exact (push_known hinit hfresh (.inl hx)).imp_right .inl
    · exact (push_known hinit hfresh (.inr hx)).imp_right .inl
    · rcases List.mem_cons.mp hroot' with rfl | hroot'
      · exact .inl ((current_push r _).trans hnorm)
      · exact .inr (.inr ⟨root', hroot', hnorm⟩)

/-- The last push is current, and its answer is what the ring publishes. -/
lemma Ring.pushEach_last (hne : pushes ≠ []) (h : r.pushEach cfg now pushes = (r', roots)) :
    r'.initialized = true ∧ r'.current = normRoot (pushes.getLast hne) ∧
      roots = some (collect cfg.maxRoots r'.current.toList r'.retired) := by
  induction pushes generalizing r r' roots with
  | nil => exact absurd rfl hne
  | cons root rest ih =>
    cases rest with
    | nil =>
      obtain ⟨rfl, rfl⟩ := Prod.mk.inj h
      exact ⟨rfl, current_push r root, rfl⟩
    | cons root' rest' =>
      cases hq : Ring.pushEach cfg now (r.push cfg now root).1 (root' :: rest') with
      | mk r₂ roots₂ =>
        obtain ⟨hinit, hcurrent, rfl⟩ := ih (by simp) hq
        rw [pushEach, hq] at h
        obtain ⟨rfl, rfl⟩ := Prod.mk.inj h
        exact ⟨hinit, hcurrent, rfl⟩

/-- Without a cap every root that the ring knows is published. -/
lemma mem_collect_of_known {roots : List String} {es : List Retired} (h : x ∈ roots ∨ ∃ e ∈ es, e.root = x) :
    x ∈ collect none roots es := by
  induction es generalizing roots with
  | nil =>
    rcases h with h | ⟨e, he, -⟩
    · exact h
    · exact absurd he List.not_mem_nil
  | cons e es ih =>
    simp only [collect, Option.any_none, Bool.false_eq_true, if_false]
    refine ih ?_
    rcases h with h | ⟨e', he', rfl⟩
    · left
      split
      · exact h
      · exact List.mem_append_left _ h
    · rcases List.mem_cons.mp he' with rfl | he'
      · left
        split
        · assumption
        · exact List.mem_append_right _ List.mem_cons_self
      · exact .inr ⟨e', he', rfl⟩

end Ring

/-! ### Polls -/

/-- One poll: when it starts, when its reads are over, the number of the finalized head, and the answers of
`eth_getLogs`. -/
structure Poll where
  startedAt : ℤ
  endedAt : ℤ
  head : Except String ℕ
  getLogs : GetLogs

/-- What is set when the provider is made: the contract's start block, the window of a page, and which messages
say that a range is too wide. -/
structure ScanConfig where
  startBlock : ℕ
  chunk : ℕ
  isLogRangeError : String → Bool

/-- The first block that a refresh asks for. -/
def NodeProvider.nextBlock (S : ScanConfig) (p : NodeProvider) (head : ℕ) : ℕ :=
  match p.incremental true (some head) with
  | none => S.startBlock
  | some (upTo, _) => upTo + 1

/-- The reads of a poll. -/
def NodeProvider.pollCall (S : ScanConfig) (p : NodeProvider) (q : Poll) : Call NodeRpc where
  startedAt := q.startedAt
  endedAt := q.endedAt
  rpc :=
    { head := q.head.map fun head => (true, some head)
      logs := q.head.bind fun head => fetchMemberLogs S.isLogRangeError q.getLogs S.chunk (p.nextBlock S head) head }

/-- A provider that is polled, with the highest head so far and that of the last poll that succeeded. -/
structure Polling where
  session : Session NodeProvider
  head : ℕ
  good : Option ℕ

def Polling.start (clock : ℤ) : Polling := ⟨⟨NodeProvider.new, clock, []⟩, 0, none⟩

/-- The poll was answered, and not from the cache. -/
def Succeeded : Except String (Answer NodeInfo) → Bool
  | .ok a => !a.stale
  | .error _ => false

section Polls

variable {H : ℕ → ℕ → ℕ} {z depth : ℕ} (L : RLNGroup H z depth) (cfg : RingConfig) (S : ScanConfig)

/-- A poll of the chain: its answers are right, heads do not go back, and no head is polled while the chain has
logs before a start block that it has not reached. -/
structure PollStep (chain : List Log) (s : Polling) (e : Poll × Except String (Answer NodeInfo)) (s' : Polling) :
    Prop where
  call : NodeStep L cfg s.session (s.session.provider.pollCall S e.1, e.2) s'.session
  answers : Answers chain e.1.getLogs
  ahead : ∀ head, e.1.head = .ok head → s.head ≤ head
  started : ∀ head, e.1.head = .ok head → S.startBlock ≤ head ∨ ∀ l ∈ chain, S.startBlock ≤ l.blockNumber
  head : s'.head = e.1.head.toOption.getD s.head
  good : s'.good = if Succeeded e.2 then some s'.head else s.good

/-- The ring is replaced by a new one. -/
def Resets (p : NodeProvider) (q : Poll) : Prop :=
  ∃ r, (p.read L (p.pollCall S q).rpc).2 = .ok r ∧ p.resetToCurrent L cfg q.startedAt r = true

/-- **What a poll that succeeds must show**: the root of the full replay is current; without a reset every root
that the log passed through since the last success is known, and published unless there is a cap; after a reset
the current root alone is known and published. -/
structure Follows (chain : List Log) (s : Polling) (q : Poll) (a : Answer NodeInfo) (s' : Polling) : Prop where
  current : ∃ head replay, q.head = .ok head ∧
    reconstructGroup L none (between chain S.startBlock head) = .ok replay ∧
    s'.session.provider.ring.current = replay.root.map toString
  passed : ¬ Resets L cfg S s.session.provider q → ∀ good, s.good = some good →
    ∀ head, q.head = .ok head → ∀ n, (between chain S.startBlock good).length ≤ n →
    ∀ root, reconstructRoot L ((between chain S.startBlock head).take n) = .ok (some root) →
      s'.session.provider.ring.Knows (toString root) ∧
        (cfg.maxRoots = none → toString root ∈ a.snapshot.roots)
  reset : Resets L cfg S s.session.provider q →
    s'.session.provider.ring.retired = [] ∧ a.snapshot.roots = s'.session.provider.ring.current.toList

/-- What is kept between polls. -/
structure CaughtUp (chain : List Log) (s : Polling) : Prop where
  scanned : ∀ upTo logs, s.session.provider.scanned = some (upTo, logs) →
    logs.Perm (between chain S.startBlock upTo) ∧ upTo ≤ s.head ∧
    (S.startBlock ≤ upTo ∨ ∀ l ∈ chain, S.startBlock ≤ l.blockNumber) ∧
    (s.good = some upTo ∨ ∃ msg, reconstructGroup L none (between chain S.startBlock upTo) = .error msg)
  good : ∀ head, s.good = some head → head ≤ s.head ∧ s.session.provider.ring.initialized = true ∧
    (∃ t, s.session.provider.lastSuccessfulAt = some t ∧ t ≤ s.session.clock) ∧
    ∃ replay, reconstructGroup L none (between chain S.startBlock head) = .ok replay ∧
      s.session.provider.ring.current = replay.root.map toString
  fresh : s.good = none → s.session.provider.lastSuccessfulAt = none ∧ s.session.provider.ring = Ring.new

end Polls

section Read

variable {H : ℕ → ℕ → ℕ} {z depth : ℕ} {L : RLNGroup H z depth} {cfg : RingConfig} {S : ScanConfig}
  {chain : List Log} {p : NodeProvider} {q : Poll} {head : ℕ}

lemma incremental_some {upTo : ℕ} {seen : List Log} :
    p.incremental true (some head) = some (upTo, seen) ↔ p.scanned = some (upTo, seen) ∧ upTo ≤ head := by
  unfold NodeProvider.incremental
  cases hsc : p.scanned with
  | none => simp
  | some sc =>
    by_cases hle : sc.1 ≤ head
    · simp only [hle, if_true, Option.some.injEq, Prod.mk.eta]
      constructor
      · rintro rfl
        exact ⟨rfl, hle⟩
      · exact fun h => h.1
    · simp only [hle, if_false, Option.some.injEq, reduceCtorEq, false_iff]
      rintro ⟨rfl, hle'⟩
      exact hle hle'

/-- The logs of a refresh are those from the start block to the head, scanned before or not. -/
lemma fetchLogs_perm (hscanned : ∀ upTo logs, p.scanned = some (upTo, logs) →
      logs.Perm (between chain S.startBlock upTo) ∧
        (S.startBlock ≤ upTo ∨ ∀ l ∈ chain, S.startBlock ≤ l.blockNumber))
    (hanswers : Answers chain q.getLogs) {logs : List Log}
    (h : p.fetchLogs true (some head)
      (fetchMemberLogs S.isLogRangeError q.getLogs S.chunk (p.nextBlock S head) head) = .ok logs) :
    logs.Perm (between chain S.startBlock head) := by
  unfold NodeProvider.fetchLogs NodeProvider.nextBlock at h
  cases hinc : p.incremental true (some head) with
  | none =>
    rw [hinc] at h
    exact fetchMemberLogs_perm hanswers h
  | some sc =>
    obtain ⟨upTo, seen⟩ := sc
    rw [hinc] at h
    have hsc := incremental_some.mp hinc
    obtain ⟨hseen, hstart⟩ := hscanned upTo seen hsc.1
    by_cases hlt : upTo < head
    · simp only [Option.any_some, hlt, decide_true, if_true] at h
      cases hfetch : fetchMemberLogs S.isLogRangeError q.getLogs S.chunk (upTo + 1) head with
      | error msg =>
        rw [hfetch] at h
        cases h
      | ok suffix =>
        rw [hfetch] at h
        obtain rfl := Except.ok.inj h
        refine (hseen.append (fetchMemberLogs_perm hanswers hfetch)).trans (between_append ?_ hlt.le)
        exact hstart.imp_left fun hle => by omega
    · obtain rfl : upTo = head := by omega
      simp only [Option.any_some, lt_irrefl, decide_false, Bool.false_eq_true, if_false] at h
      obtain rfl := Except.ok.inj h
      exact hseen

/-- The reads of a poll: they fail before the replay, or what was fetched is kept and replayed. -/
lemma read_poll {scanned : Option (ℕ × List Log)} {res : Except String (NodeReading L)}
    (hread : p.read L (p.pollCall S q).rpc = (scanned, res)) :
    (∃ msg, res = .error msg ∧ (scanned = p.scanned ∨ scanned = none)) ∨
      ∃ head logs, q.head = .ok head ∧ scanned = some (head, logs) ∧
        p.fetchLogs true (some head)
          (fetchMemberLogs S.isLogRangeError q.getLogs S.chunk (p.nextBlock S head) head) = .ok logs ∧
        res = (reconstructGroup L ((p.incremental true (some head)).map fun sc => sc.2.length) logs).map
          fun replay => ⟨true, some head, (p.incremental true (some head)).isSome, replay⟩ := by
  unfold NodeProvider.read NodeProvider.pollCall at hread
  cases hhead : q.head with
  | error msg =>
    simp only [hhead, Except.map] at hread
    obtain ⟨rfl, rfl⟩ := Prod.mk.inj hread
    exact .inl ⟨msg, rfl, .inl rfl⟩
  | ok head =>
    simp only [hhead, Except.map, Except.bind] at hread
    cases hfetch : p.fetchLogs true (some head)
        (fetchMemberLogs S.isLogRangeError q.getLogs S.chunk (p.nextBlock S head) head) with
    | error msg =>
      rw [hfetch] at hread
      obtain ⟨rfl, rfl⟩ := Prod.mk.inj hread
      exact .inl ⟨msg, rfl, .inr rfl⟩
    | ok logs =>
      rw [hfetch] at hread
      right
      refine ⟨head, logs, rfl, ?_, hfetch, ?_⟩
      · simp only [if_true, Option.map_some] at hread
        split at hread <;> exact (Prod.mk.inj hread).1.symm
      · simp only [if_true, Option.map_some] at hread
        split at hread <;> next hreplay =>
          rw [← (Prod.mk.inj hread).2, hreplay]
          rfl

end Read

section Replays

variable {H : ℕ → ℕ → ℕ} {z depth : ℕ} {L : RLNGroup H z depth} {chain logs : List Log} {a b c k : ℕ}
  {tf : Option ℕ} {r : Replay L} {msg : String}

lemma reconstructGroup_between (hchain : chain.Pairwise Log.Before) (tf : Option ℕ) :
    reconstructGroup L tf (between chain a b) = Replay.loop tf 0 (Replay.new L) ((between chain a b).map Log.event) :=
  reconstructGroup_perm hchain (List.Perm.refl _) tf

/-- The full replay has the tree of any replay of the same logs. -/
lemma reconstructGroup_forget (tf : Option ℕ) (hchain : chain.Pairwise Log.Before) (hperm : logs.Perm (between chain a b)) :
    (reconstructGroup L tf logs).map Replay.forget = reconstructGroup L none (between chain a b) := by
  rw [reconstructGroup_perm hchain hperm, reconstructGroup_between hchain]
  exact Replay.loop_forget tf 0

lemma reconstructGroup_untracked (h : reconstructGroup L none logs = .ok r) : r.transitions = [] := by
  have hforget : (Replay.loop none 0 (Replay.new L) ((logs.insertionSort Log.le).map Log.event)).map Replay.forget =
      reconstructGroup L none logs := Replay.loop_forget none 0
  rw [show Replay.loop none 0 (Replay.new L) ((logs.insertionSort Log.le).map Log.event) = .ok r from h, h] at hforget
  rw [← Except.ok.inj hforget]
  rfl

/-- A log that cannot be replayed cannot be when more follows. -/
lemma reconstructGroup_stuck (hchain : chain.Pairwise Log.Before) (hbc : b ≤ c)
    (h : reconstructGroup L none (between chain a b) = .error msg) (hperm : logs.Perm (between chain a c)) :
    reconstructGroup L tf logs = .error msg := by
  rw [reconstructGroup_perm hchain hperm, between_eq_append hchain hbc, List.map_append, Replay.loop_append]
  rw [← reconstructGroup_forget tf hchain (List.Perm.refl _), reconstructGroup_between hchain] at h
  cases hloop : Replay.loop tf 0 (Replay.new L) ((between chain a b).map Log.event) with
  | error msg' =>
    rw [hloop] at h
    obtain rfl := Except.error.inj h
    rfl
  | ok r =>
    rw [hloop] at h
    cases h

/-- **The roots of a suffix.** A replay that records from the end of a range on passes only through the root there
and those it has recorded. -/
lemma reconstructGroup_tracked (hchain : chain.Pairwise Log.Before) (hbc : b ≤ c)
    (hperm : logs.Perm (between chain a c))
    (h : reconstructGroup L (some (between chain a b).length) logs = .ok r) :
    ∃ r₀, reconstructGroup L none (between chain a b) = .ok r₀ ∧
      (r₀.root :: r.transitions).getLast (List.cons_ne_nil _ _) = r.root ∧
      ∀ n root, (between chain a b).length ≤ n → reconstructRoot L ((between chain a c).take n) = .ok root →
        root ∈ r₀.root :: r.transitions := by
  rw [reconstructGroup_perm hchain hperm, between_eq_append hchain hbc, List.map_append, Replay.loop_append] at h
  cases hfirst : Replay.loop (some (between chain a b).length) 0 (Replay.new L) ((between chain a b).map Log.event) with
  | error msg =>
    rw [hfirst] at h
    cases h
  | ok r₁ =>
    rw [hfirst] at h
    have hnone : r₁.transitions = [] := Replay.loop_untracked hfirst (by simp)
    have hforget : reconstructGroup L none (between chain a b) = .ok r₁.forget := by
      rw [← reconstructGroup_forget (some (between chain a b).length) hchain (List.Perm.refl _),
        reconstructGroup_between hchain, hfirst]
      rfl
    obtain ⟨roots, htransitions, hlast, hmem⟩ := Replay.loop_tracked h (by simp)
    rw [hnone, List.nil_append] at htransitions
    rw [htransitions]
    refine ⟨r₁.forget, hforget, hlast, fun n root hn hroot => ?_⟩
    have hsorted : EmittedAs ((between chain a c).take n) (((between chain a c).take n).map Log.event) :=
      ⟨_, (between_sorted hchain).sublist (List.take_sublist _ _), rfl, List.Perm.refl _⟩
    rw [reconstructRoot, reconstructGroup, hsorted.sorted, between_eq_append hchain hbc, List.take_append,
      List.take_of_length_le hn, List.map_append, Replay.loop_append,
      ← reconstructGroup_between hchain, hforget, List.map_take] at hroot
    simp only [Except.bind] at hroot
    rw [← Replay.loop_forget (r := r₁) (p := 0) none, Replay.loop_forget (r := r₁) (p := 0) none 0] at hroot
    cases hsuffix : Replay.loop none 0 r₁.forget
        ((((between chain a c).filter fun l => decide (b < l.blockNumber)).map Log.event).take
          (n - (between chain a b).length)) with
    | error msg =>
      rw [hsuffix] at hroot
      cases hroot
    | ok rn =>
      rw [hsuffix] at hroot
      obtain rfl := Except.ok.inj hroot
      exact hmem _ rn hsuffix

end Replays

/-! ### Polls one after the other -/

/-- The text of a root is not empty. -/
lemma normRoot_toString (root : Option ℕ) : normRoot (root.map toString) = root.map toString := by
  cases root <;> simp [normRoot]

section Runs

variable {H : ℕ → ℕ → ℕ} {z depth : ℕ} {L : RLNGroup H z depth} {cfg : RingConfig} {S : ScanConfig}
  {chain : List Log} {s s' : Polling} {q : Poll} {ans : Except String (Answer NodeInfo)}

lemma CaughtUp.start (clock : ℤ) : CaughtUp L S chain (.start clock) where
  scanned _ _ h := by simp [Polling.start, NodeProvider.new] at h
  good _ h := by cases h
  fresh _ := ⟨rfl, rfl⟩

/-- A poll whose reads fail. -/
lemma CaughtUp.failed (h : CaughtUp L S chain s) (hst : PollStep L cfg S chain s (q, ans) s')
    {scanned : Option (ℕ × List Log)} {msg : String}
    (hread : s.session.provider.read L (s.session.provider.pollCall S q).rpc = (scanned, .error msg))
    (hscanned : ∀ upTo logs, scanned = some (upTo, logs) →
      logs.Perm (between chain S.startBlock upTo) ∧ upTo ≤ s'.head ∧
      (S.startBlock ≤ upTo ∨ ∀ l ∈ chain, S.startBlock ≤ l.blockNumber) ∧
      (s.good = some upTo ∨ ∃ msg, reconstructGroup L none (between chain S.startBlock upTo) = .error msg)) :
    CaughtUp L S chain s' ∧ Succeeded ans = false := by
  obtain ⟨hstarted, hended, hcall⟩ := hst.call
  have hhead : s.head ≤ s'.head := by
    rw [hst.head]
    cases hq : q.head with
    | error _ => exact le_refl _
    | ok head => exact hst.ahead head hq
  simp only [callNode, NodeProvider.currentRoots, NodeProvider.fetchFresh, hread] at hcall
  obtain ⟨hsession, hans⟩ := Prod.mk.inj hcall
  have hfailed : Succeeded ans = false := by
    rw [← hans]
    unfold withCache
    cases s.session.provider.lkg with
    | none => rfl
    | some l =>
      simp only
      split <;> rfl
  have hgood : s'.good = s.good := by
    rw [hst.good, hfailed]
    rfl
  refine ⟨⟨?_, ?_, ?_⟩, hfailed⟩
  · rw [← hsession, hgood]
    exact hscanned
  · rw [← hsession, hgood]
    intro head hg
    obtain ⟨hle, hinit, ⟨t, ht, htc⟩, hreplay⟩ := h.good head hg
    exact ⟨hle.trans hhead, hinit, ⟨t, ht, htc.trans (hstarted.trans hended)⟩, hreplay⟩
  · rw [← hsession, hgood]
    exact h.fresh

/-- The pushes of a refresh end with the root of the replay. -/
lemma pushes_last (p : NodeProvider) (t : ℤ) (r : NodeReading L) {first : Option ℕ}
    (hlast : (first :: r.replay.transitions).getLast (List.cons_ne_nil _ _) = r.replay.root) :
    (p.pushes L cfg t r).getLast (p.pushes_ne_nil t r) = r.replay.root.map toString := by
  unfold NodeProvider.pushes
  split
  · rfl
  · next hno =>
    have hne : r.replay.transitions ≠ [] := by
      intro hnil
      simp [hnil] at hno
    rw [List.getLast_map, ← List.getLast_cons hne, hlast]

/-- What a refresh replays, with the root the ring should start from. -/
lemma CaughtUp.replayed (h : CaughtUp L S chain s) (hchain : chain.Pairwise Log.Before) {head : ℕ}
    {logs : List Log} (hperm : logs.Perm (between chain S.startBlock head)) {replay : Replay L}
    (hreplay : reconstructGroup L ((s.session.provider.incremental true (some head)).map fun sc => sc.2.length) logs =
      .ok replay) :
    (s.session.provider.incremental true (some head) = none ∧ replay.transitions = []) ∨
      ∃ good seen, ∃ r₀ : Replay L, s.session.provider.incremental true (some head) = some (good, seen) ∧ s.good = some good ∧
        s.session.provider.ring.current = r₀.root.map toString ∧
        (r₀.root :: replay.transitions).getLast (List.cons_ne_nil _ _) = replay.root ∧
        ∀ n root, (between chain S.startBlock good).length ≤ n →
          reconstructRoot L ((between chain S.startBlock head).take n) = .ok root →
          root ∈ r₀.root :: replay.transitions := by
  cases hinc : s.session.provider.incremental true (some head) with
  | none =>
    rw [hinc] at hreplay
    exact .inl ⟨rfl, reconstructGroup_untracked hreplay⟩
  | some sc =>
    obtain ⟨upTo, seen⟩ := sc
    obtain ⟨hsc, hle⟩ := incremental_some.mp hinc
    obtain ⟨hseen, -, -, hgood⟩ := h.scanned upTo seen hsc
    rw [hinc] at hreplay
    right
    rcases hgood with hgood | ⟨msg, hmsg⟩
    · simp only [Option.map_some, hseen.length_eq] at hreplay
      obtain ⟨r₀, hr₀, hlast, hmem⟩ := reconstructGroup_tracked hchain hle hperm hreplay
      obtain ⟨-, -, -, r₁, hr₁, hcurrent⟩ := h.good upTo hgood
      obtain rfl := Except.ok.inj (hr₀.symm.trans hr₁)
      exact ⟨upTo, seen, r₀, rfl, hgood, hcurrent, hlast, hmem⟩
    · rw [reconstructGroup_stuck hchain hle hmsg hperm] at hreplay
      cases hreplay

/-- What a call leaves whose reads succeed. -/
lemma callNode_ok {t t' : Session NodeProvider} {call : Call NodeRpc} {scanned : Option (ℕ × List Log)}
    {r : NodeReading L} {ring : Ring} {roots : List String}
    (hread : t.provider.read L call.rpc = (scanned, .ok r))
    (hpush : (t.provider.ring.resetIf (t.provider.resetToCurrent L cfg call.startedAt r)).pushEach cfg call.endedAt
      (t.provider.pushes L cfg call.startedAt r) = (ring, some roots))
    (hcall : callNode L cfg t call = (t', ans)) :
    t'.provider.ring = ring ∧ t'.provider.scanned = scanned ∧ t'.provider.lastSuccessfulAt = some call.endedAt ∧
      t'.clock = call.endedAt ∧ ∃ info, ans = .ok ⟨⟨roots, info⟩, false, none⟩ := by
  simp only [callNode, NodeProvider.currentRoots, NodeProvider.fetchFresh, hread, hpush, withCache,
    Option.getD_some] at hcall
  obtain ⟨rfl, rfl⟩ := Prod.mk.inj hcall
  exact ⟨rfl, rfl, rfl, rfl, _, rfl⟩

/-- Without a reset after a success, the refresh goes on from the scan, and the window is not over. -/
lemma CaughtUp.not_reset (h : CaughtUp L S chain s) {r : NodeReading L} {head good : ℕ} {t : ℤ}
    (hfinal : r.finalized = true) (hblock : r.observedAtBlock = some head) (hgood : s.good = some good)
    (hlate : s.session.clock ≤ t) (hno : s.session.provider.resetToCurrent L cfg t r = false) :
    r.incremental = true ∧ 0 ≤ cfg.freshnessMs ∧ s.session.provider.ring.initialized = true := by
  obtain ⟨-, hinit, ⟨last, hlast, hle⟩, -⟩ := h.good good hgood
  simp only [NodeProvider.resetToCurrent, hlast, Option.any_some, Bool.or_eq_false_iff, decide_eq_false_iff_not, not_lt,
    hfinal, hblock, Option.isSome_some, Bool.true_and, Bool.not_eq_false'] at hno
  exact ⟨hno.2, by omega, hinit⟩

/-- A poll whose reads succeed. -/
lemma CaughtUp.succeeded (h : CaughtUp L S chain s) (hchain : chain.Pairwise Log.Before)
    (hst : PollStep L cfg S chain s (q, ans) s') {scanned : Option (ℕ × List Log)} {r : NodeReading L}
    (hread : s.session.provider.read L (s.session.provider.pollCall S q).rpc = (scanned, .ok r)) :
    CaughtUp L S chain s' ∧ ∃ a, ans = .ok a ∧ Follows L cfg S chain s q a s' := by
  obtain ⟨hstarted, hended, hcall⟩ := hst.call
  have hstarted : s.session.clock ≤ q.startedAt := hstarted
  obtain ⟨msg, hmsg, -⟩ | ⟨head, logs, hhead, rfl, hfetch, hres⟩ := read_poll hread
  · cases hmsg
  have hperm := fetchLogs_perm (fun upTo logs hsc => ⟨(h.scanned upTo logs hsc).1, (h.scanned upTo logs hsc).2.2.1⟩)
    hst.answers hfetch
  have hle := hst.ahead head hhead
  -- the replay of the refresh, and the full one
  obtain ⟨replay, hreplay⟩ : ∃ replay, reconstructGroup L
      ((s.session.provider.incremental true (some head)).map fun sc => sc.2.length) logs = .ok replay := by
    cases hreplay : reconstructGroup L ((s.session.provider.incremental true (some head)).map fun sc => sc.2.length)
        logs with
    | error msg =>
      rw [hreplay] at hres
      cases hres
    | ok replay => exact ⟨replay, rfl⟩
  rw [hreplay] at hres
  have hr : r = ⟨true, some head, (s.session.provider.incremental true (some head)).isSome, replay⟩ :=
    Except.ok.inj hres
  have hreplayr : r.replay = replay := by rw [hr]
  have hfull : reconstructGroup L none (between chain S.startBlock head) = .ok replay.forget := by
    rw [← reconstructGroup_forget _ hchain hperm, hreplay]
    rfl
  have hreplayed := h.replayed hchain hperm hreplay
  have hlast : ∃ first, (first :: r.replay.transitions).getLast (List.cons_ne_nil _ _) = r.replay.root := by
    rw [hreplayr]
    rcases hreplayed with ⟨-, hnone⟩ | ⟨good, seen, r₀, -, -, -, hlast, -⟩
    · exact ⟨replay.root, by simp [hnone]⟩
    · exact ⟨r₀.root, hlast⟩
  obtain ⟨first, hlast⟩ := hlast
  have hend : (s.session.provider.pushes L cfg q.startedAt r).getLast (s.session.provider.pushes_ne_nil q.startedAt r) =
      r.replay.root.map toString := pushes_last s.session.provider q.startedAt r hlast
  -- what the refresh leaves
  obtain ⟨ring, roots, hpush⟩ : ∃ ring roots, (s.session.provider.ring.resetIf
      (s.session.provider.resetToCurrent L cfg q.startedAt r)).pushEach cfg q.endedAt
        (s.session.provider.pushes L cfg q.startedAt r) = (ring, roots) := ⟨_, _, rfl⟩
  obtain ⟨hinit, hcurrent, rfl⟩ := Ring.pushEach_last (s.session.provider.pushes_ne_nil q.startedAt r) hpush
  rw [hend, normRoot_toString, hreplayr] at hcurrent
  obtain ⟨hring, hscanned, hat, hclock, info, rfl⟩ := callNode_ok hread hpush hcall
  have hs'head : s'.head = head := by
    rw [hst.head, hhead]
    rfl
  have hs'good : s'.good = some head := by
    rw [hst.good, ← hs'head]
    rfl
  refine ⟨⟨?_, ?_, ?_⟩, _, rfl, ⟨head, replay.forget, hhead, hfull, ?_⟩, ?_, ?_⟩
  · rw [hscanned]
    intro upTo logs' hsc
    obtain ⟨rfl, rfl⟩ := Prod.mk.inj (Option.some.inj hsc)
    exact ⟨hperm, hs'head.ge, hst.started _ hhead, .inl hs'good⟩
  · intro head' hg
    obtain rfl := Option.some.inj (hs'good.symm.trans hg)
    rw [hring, hat, hclock]
    exact ⟨hs'head.ge, hinit, ⟨_, rfl, le_refl _⟩, replay.forget, hfull, hcurrent⟩
  · intro hg
    rw [hs'good] at hg
    cases hg
  · rw [hring]
    exact hcurrent
  · -- no reset: the transitions of the suffix were pushed after the root of the last success
    rw [hring]
    intro hnoreset good hgood head' hhead' n hn root hroot
    obtain rfl := Except.ok.inj (hhead.symm.trans hhead')
    have hno : s.session.provider.resetToCurrent L cfg q.startedAt r = false := by
      by_contra hyes
      exact hnoreset ⟨r, by rw [hread], by simpa using hyes⟩
    obtain ⟨hinc, hfresh, hinit₀⟩ := h.not_reset (by rw [hr]) (by rw [hr]) hgood hstarted hno
    rw [hno] at hpush
    obtain ⟨-, hknown⟩ := Ring.pushEach_known hinit₀ hfresh hpush
    obtain ⟨hnone, -⟩ | ⟨good', seen, r₀, -, hgood', hfrom, -, hmem⟩ := hreplayed
    · rw [hr, hnone] at hinc
      cases hinc
    obtain rfl := Option.some.inj (hgood.symm.trans hgood')
    have hin := hmem n (some root) hn hroot
    have hknows : ring.current = some (toString root) ∨
        ∃ e ∈ ring.retired, e.root = toString root ∧ e.retiredAt = q.endedAt := by
      refine hknown _ ?_
      rcases List.mem_cons.mp hin with heq | hin
      · left
        show s.session.provider.ring.current = _
        rw [hfrom, ← heq]
        rfl
      · right
        right
        have hpushes : s.session.provider.pushes L cfg q.startedAt r = r.replay.transitions.map fun t => t.map toString := by
          have hnonempty : r.replay.transitions.isEmpty = false := by
            rw [hreplayr]
            exact List.isEmpty_eq_false_iff.mpr (List.ne_nil_of_mem hin)
          simp [NodeProvider.pushes, hno, hnonempty]
        rw [hpushes, hreplayr]
        exact ⟨_, List.mem_map_of_mem hin, normRoot_toString (some root)⟩
    have hknows' : ring.current = some (toString root) ∨ ∃ e ∈ ring.retired, e.root = toString root :=
      hknows.imp_right fun ⟨e, he, hroot, _⟩ => ⟨e, he, hroot⟩
    refine ⟨hknows', fun hcap => ?_⟩
    show _ ∈ collect cfg.maxRoots _ _
    rw [hcap]
    refine mem_collect_of_known (hknows'.imp_left fun hc => ?_)
    rw [hc]
    exact List.mem_singleton_self _
  · rw [hring]
    rintro ⟨r', hr', hreset⟩
    rw [hread] at hr'
    obtain rfl := Except.ok.inj hr'
    have hpushes : s.session.provider.pushes L cfg q.startedAt r = [r.replay.root.map toString] := by
      simp [NodeProvider.pushes, hreset]
    rw [hreset, hpushes] at hpush
    have hnew : ring = (Ring.new.push cfg q.endedAt (r.replay.root.map toString)).1 := (Prod.mk.inj hpush).1.symm
    have hretired : ring.retired = [] := by
      rw [hnew]
      simp [Ring.push, Ring.new]
    refine ⟨hretired, ?_⟩
    show collect cfg.maxRoots ring.current.toList ring.retired = ring.current.toList
    rw [hretired]
    rfl

/-- A poll that succeeds follows the chain, and any other keeps what is needed for that. -/
lemma CaughtUp.step (h : CaughtUp L S chain s) (hchain : chain.Pairwise Log.Before)
    (hst : PollStep L cfg S chain s (q, ans) s') :
    CaughtUp L S chain s' ∧ (Succeeded ans = true → ∃ a, ans = .ok a ∧ Follows L cfg S chain s q a s') := by
  cases hread : s.session.provider.read L (s.session.provider.pollCall S q).rpc with
  | mk scanned res =>
    cases res with
    | ok r =>
      obtain ⟨hnext, a, ha, hfollows⟩ := h.succeeded hchain hst hread
      exact ⟨hnext, fun _ => ⟨a, ha, hfollows⟩⟩
    | error msg =>
      have hhead : s.head ≤ s'.head := by
        rw [hst.head]
        cases hq : q.head with
        | error _ => exact le_refl _
        | ok head => exact hst.ahead head hq
      have hscanned : ∀ upTo logs, scanned = some (upTo, logs) →
          logs.Perm (between chain S.startBlock upTo) ∧ upTo ≤ s'.head ∧
          (S.startBlock ≤ upTo ∨ ∀ l ∈ chain, S.startBlock ≤ l.blockNumber) ∧
          (s.good = some upTo ∨ ∃ msg, reconstructGroup L none (between chain S.startBlock upTo) = .error msg) := by
        intro upTo logs hsc
        obtain ⟨msg, -, hsame | hnone⟩ | ⟨head, logs', hq, hkept, hfetch, hres⟩ := read_poll hread
        · obtain ⟨hperm, hle, hstart, hgood⟩ := h.scanned upTo logs (hsame ▸ hsc)
          exact ⟨hperm, hle.trans hhead, hstart, hgood⟩
        · rw [hnone] at hsc
          cases hsc
        · -- the logs were fetched and kept, and their replay failed
          rw [hkept] at hsc
          obtain ⟨rfl, rfl⟩ := Prod.mk.inj (Option.some.inj hsc)
          have hperm := fetchLogs_perm
            (fun upTo logs hsc => ⟨(h.scanned upTo logs hsc).1, (h.scanned upTo logs hsc).2.2.1⟩) hst.answers hfetch
          refine ⟨hperm, ?_, hst.started _ hq, .inr ?_⟩
          · rw [hst.head, hq]
            exact le_refl _
          · cases hreplay : reconstructGroup L
                ((s.session.provider.incremental true (some head)).map fun sc => sc.2.length) logs' with
            | error msg' =>
              refine ⟨msg', ?_⟩
              rw [← reconstructGroup_forget _ hchain hperm, hreplay]
              rfl
            | ok replay =>
              rw [hreplay] at hres
              cases hres
      obtain ⟨hnext, hfailed⟩ := h.failed hst hread hscanned
      refine ⟨hnext, fun hs => ?_⟩
      rw [hfailed] at hs
      cases hs

end Runs

/-- **Incremental reads follow the full replay.** After any polls of a finalized log, failed ones among them, a poll
that succeeds leaves the root of the full replay current, knows every root passed through since the last success,
and after a reset publishes the current root alone. -/
theorem polls_follow_replay {H : ℕ → ℕ → ℕ} {z depth : ℕ} (L : RLNGroup H z depth) (cfg : RingConfig) (S : ScanConfig)
    {chain : List Log} (hchain : chain.Pairwise Log.Before) {clock : ℤ}
    {tr : List (Poll × Except String (Answer NodeInfo))} {s s' : Polling} {q : Poll} {a : Answer NodeInfo}
    (hrun : Run (PollStep L cfg S chain) (Polling.start clock) tr s)
    (hst : PollStep L cfg S chain s (q, .ok a) s') (hfresh : a.stale = false) : Follows L cfg S chain s q a s' := by
  have hcaught : CaughtUp L S chain s := hrun.invariant_state (I := fun s => CaughtUp L S chain s)
    (CaughtUp.start clock) fun t e u ht hst => (ht.step hchain hst).1
  obtain ⟨a', ha', hfollows⟩ := (hcaught.step hchain hst).2 (by simp [Succeeded, hfresh])
  obtain rfl := Except.ok.inj ha'
  exact hfollows

/-- The next state of a provider that is polled. -/
def pollNode (cfg : RingConfig) (S : ScanConfig) (s : Polling) (q : Poll) : Polling × Except String (Answer NodeInfo) :=
  let answered := callNode deployedGroup cfg s.session (s.session.provider.pollCall S q)
  let head := q.head.toOption.getD s.head
  (⟨answered.1, head, if Succeeded answered.2 then some head else s.good⟩, answered.2)

/-- Two members register, one of them is slashed. -/
def sampleChain : List Log :=
  [⟨5, 0, ⟨.registeredV4, 5⟩⟩, ⟨11, 0, ⟨.registeredV4, 7⟩⟩, ⟨12, 0, ⟨.slashedV4, 5⟩⟩]

def sampleScan : ScanConfig := ⟨5, 10000, fun _ => false⟩

/-- A poll of the sample that is answered at once. -/
def samplePoll (now : ℤ) (head : ℕ) : Poll := ⟨now, now, .ok head, fun _ a b => .ok (between sampleChain a b)⟩

/-- The sample after a poll at block 10. -/
def sampleAfter : Polling × Except String (Answer NodeInfo) :=
  pollNode ⟨none, 60000⟩ sampleScan (Polling.start 0) (samplePoll 0 10)

/-- The roots between two polls are known after the second. -/
theorem polls_follow_replay_twice : ∃ tr s s' a,
    Run (PollStep deployedGroup ⟨none, 60000⟩ sampleScan sampleChain) (Polling.start 0) tr s ∧
    s.good = some 10 ∧ Follows deployedGroup ⟨none, 60000⟩ sampleScan sampleChain s (samplePoll 12000 12) a s' := by
  have hanswers : ∀ now head, Answers sampleChain (samplePoll now head).getLogs := by
    rintro now head n a b logs h
    obtain rfl := Except.ok.inj h
    exact List.Perm.refl _
  have hone : PollStep deployedGroup ⟨none, 60000⟩ sampleScan sampleChain (Polling.start 0)
      (samplePoll 0 10, sampleAfter.2) sampleAfter.1 :=
    ⟨⟨le_refl _, le_refl _, rfl⟩, hanswers 0 10, fun _ _ => Nat.zero_le _, fun _ _ => .inr (by decide), rfl, rfl⟩
  have hgood : sampleAfter.1.good = some 10 := by decide +kernel
  obtain ⟨a, ha, hfresh⟩ : ∃ a, (pollNode ⟨none, 60000⟩ sampleScan sampleAfter.1 (samplePoll 12000 12)).2 = .ok a ∧
      a.stale = false := ⟨_, rfl, rfl⟩
  have htwo : PollStep deployedGroup ⟨none, 60000⟩ sampleScan sampleChain sampleAfter.1
      (samplePoll 12000 12, .ok a) (pollNode ⟨none, 60000⟩ sampleScan sampleAfter.1 (samplePoll 12000 12)).1 := by
    have hlater : (0 : ℤ) ≤ 12000 := by decide
    refine ⟨⟨hlater, le_refl _, Prod.ext rfl ha⟩, hanswers 12000 12, fun head hhead => ?_,
      fun _ _ => .inr (by decide), rfl, ?_⟩
    · obtain rfl := Except.ok.inj hhead
      show 10 ≤ 12
      decide
    · rw [← ha]
      rfl
  exact ⟨_, _, _, a, Run.single hone, hgood,
    polls_follow_replay deployedGroup ⟨none, 60000⟩ sampleScan (by simp [sampleChain, Log.Before]) (Run.single hone) htwo
      hfresh⟩

end ShadeTree.Roots
