import ShadeTree.Roots.Incremental
import ShadeTree.Roots.LightRead

/-!
# The two providers polled together

One provider replays the logs up to a block, the other proves a storage slot at the block.  Both are polled at the same
heads and the same times, of an honest RPC.  `SlotFollows` says what the contract keeps in the slot: the root of the
replay, or a root of its own while nothing is live.  The rings then hold the same current root, that one apart, and
what the light provider still accepts of older roots the node provider accepts too.
-/

namespace ShadeTree.Roots

open ShadeTree.Lib

/-! ### Two rings -/

section Rings

variable {cfg : RingConfig} {now : ℤ} {r r' rn rl : Ring} {root : Option String} {pushes : List (Option String)}
  {roots : Option (List String)} {e : Retired} {empty : String}

/-- A retired root stays until its time is over. -/
lemma Ring.push_keeps (he : e ∈ r.retired) (hfresh : now - e.retiredAt ≤ cfg.freshnessMs) :
    e ∈ (r.push cfg now root).1.retired := by
  unfold push
  refine List.mem_filter.mpr ⟨?_, decide_eq_true hfresh⟩
  split
  · unfold retire
    split
    · exact List.mem_cons_of_mem _ he
    · exact he
  · exact he

lemma Ring.pushEach_keeps (h : r.pushEach cfg now pushes = (r', roots)) (he : e ∈ r.retired)
    (hfresh : now - e.retiredAt ≤ cfg.freshnessMs) : e ∈ r'.retired := by
  induction pushes generalizing r r' roots with
  | nil =>
    obtain ⟨rfl, -⟩ := Prod.mk.inj h
    exact he
  | cons root rest ih =>
    obtain ⟨roots₂, hq⟩ := pushEach_rest h
    exact ih hq (push_keeps he hfresh)

/-- What the pushes supersede is retired at that moment. -/
lemma Ring.pushEach_retires (hinit : r.initialized = true) (hfresh : 0 ≤ cfg.freshnessMs)
    (h : r.pushEach cfg now pushes = (r', roots)) {c : String} (hc : r.current = some c) (hne : r'.current ≠ some c) :
    ⟨c, now⟩ ∈ r'.retired := by
  rcases (pushEach_known hinit hfresh h).2 c (.inl hc) with hsame | ⟨e, he, rfl, rfl⟩
  · exact absurd hsame hne
  · exact he

/-- Where a retired root comes from. -/
lemma Ring.mem_push_retired (he : e ∈ (r.push cfg now root).1.retired) :
    now - e.retiredAt ≤ cfg.freshnessMs ∧
      (e ∈ r.retired ∨ r.initialized = true ∧ normRoot root ≠ r.current ∧ e.retiredAt = now ∧ r.current = some e.root) := by
  refine ⟨push_retired_fresh root he, ?_⟩
  have hmem := List.mem_of_mem_filter he
  split at hmem
  · next hsup =>
    obtain ⟨hinit, hne⟩ : r.initialized = true ∧ normRoot root ≠ r.current := by simpa using hsup
    unfold retire at hmem
    split at hmem
    · next c hc =>
      rcases List.mem_cons.mp hmem with rfl | hold
      · exact .inr ⟨hinit, hne, rfl, hc⟩
      · exact .inl hold
    · exact .inl hmem
  · exact .inl hmem

/-- After pushes, what is retired is fresh. -/
lemma Ring.pushEach_fresh (hne : pushes ≠ []) (h : r.pushEach cfg now pushes = (r', roots)) (he : e ∈ r'.retired) :
    now - e.retiredAt ≤ cfg.freshnessMs := by
  induction pushes generalizing r r' roots with
  | nil => exact absurd rfl hne
  | cons root rest ih =>
    obtain ⟨roots₂, hq⟩ := pushEach_rest h
    cases rest with
    | nil =>
      obtain ⟨rfl, -⟩ := Prod.mk.inj hq
      exact push_retired_fresh root he
    | cons root' rest' => exact ih (by simp) hq he

/-- The same for several pushes: what they retire was current before, or is one of them that another follows. -/
lemma Ring.mem_pushEach_retired (h : r.pushEach cfg now pushes = (r', roots)) (he : e ∈ r'.retired) :
    e ∈ r.retired ∨ e.retiredAt = now ∧
      (r.current = some e.root ∨ ∃ root ∈ pushes.dropLast, normRoot root = some e.root) := by
  induction pushes generalizing r r' roots with
  | nil =>
    obtain ⟨rfl, -⟩ := Prod.mk.inj h
    exact .inl he
  | cons root rest ih =>
    obtain ⟨roots₂, hq⟩ := pushEach_rest h
    rcases ih hq he with hold | ⟨hat, hcur | ⟨root', hroot', hnorm⟩⟩
    · obtain ⟨-, hold | ⟨-, -, hat, hcur⟩⟩ := mem_push_retired hold
      · exact .inl hold
      · exact .inr ⟨hat, .inl hcur⟩
    · rw [current_push] at hcur
      cases rest with
      | nil =>
        -- the one push is the last: nothing was retired after it
        obtain ⟨rfl, -⟩ := Prod.mk.inj hq
        obtain ⟨-, hold | ⟨-, -, -, hcur'⟩⟩ := mem_push_retired he
        · exact .inl hold
        · exact .inr ⟨hat, .inl hcur'⟩
      | cons root'' rest' => exact .inr ⟨hat, .inr ⟨root, by simp, hcur⟩⟩
    · cases rest with
      | nil => simp at hroot'
      | cons root'' rest' => exact .inr ⟨hat, .inr ⟨root', by simp [hroot'], hnorm⟩⟩

/-- A root that was current stays, or is retired now. -/
lemma Ring.push_current_or (hinit : r.initialized = true) (hfresh : 0 ≤ cfg.freshnessMs) {c : String}
    (hc : r.current = some c) :
    (r.push cfg now root).1.current = some c ∨ ⟨c, now⟩ ∈ (r.push cfg now root).1.retired := by
  have hknown : (r.push cfg now root).1.current = some c ∨
      ∃ e ∈ (r.push cfg now root).1.retired, e.root = c ∧ e.retiredAt = now := push_known hinit hfresh (.inl hc)
  rcases hknown with hsame | ⟨e, he, rfl, rfl⟩
  · exact .inl hsame
  · exact .inr he

/-- The light ring `rl` is the node ring `rn`, but for the roots `passed` between two polls of the one, and the root
`empty` of the other. -/
structure SameRoots (empty : String) (passed : List String) (now : ℤ) (rn rl : Ring) : Prop where
  node : rn.initialized = true
  light : rl.initialized = true
  past : ∀ e ∈ rn.retired, e.retiredAt ≤ now
  current : rl.current = rn.current ∨ rn.current = none ∧ rl.current = some empty
  retired : ∀ e ∈ rl.retired, e.root = empty ∨ e ∈ rn.retired
  back : ∀ e ∈ rn.retired, rl.current = some e.root ∨
    (∃ e' ∈ rl.retired, e'.root = e.root ∧ e.retiredAt ≤ e'.retiredAt) ∨ e.root ∈ passed

/-- **One poll of both rings.** -/
lemma SameRoots.push {passed passed' : List String} {before : ℤ}
    (h : (rn = Ring.new ∧ rl = Ring.new) ∨ SameRoots empty passed before rn rl) (hlater : before ≤ now)
    (hne : pushes ≠ []) (hpush : rn.pushEach cfg now pushes = (r', roots))
    (hroot : normRoot root = normRoot (pushes.getLast hne) ∨
      normRoot (pushes.getLast hne) = none ∧ normRoot root = some empty)
    (hkept : ∀ x ∈ passed, x ∈ passed') (hpassed : ∀ p ∈ pushes.dropLast, ∀ x, normRoot p = some x → x ∈ passed') :
    SameRoots empty passed' now r' (rl.push cfg now root).1 := by
  obtain ⟨hinit, hcurrent, -⟩ := Ring.pushEach_last hne hpush
  refine ⟨hinit, rfl, fun e he => ?_, ?_, fun e he => ?_, fun e he => ?_⟩
  · rcases Ring.mem_pushEach_retired hpush he with hold | ⟨hat, -⟩
    · rcases h with ⟨rfl, -⟩ | h
      · simp [Ring.new] at hold
      · exact (h.past e hold).trans hlater
    · exact hat.le
  · rw [Ring.current_push, hcurrent]
    exact hroot
  · obtain ⟨hfresh, hold | ⟨hlight, hchanged, hat, hlast⟩⟩ := Ring.mem_push_retired he
    · rcases h with ⟨-, rfl⟩ | h
      · simp [Ring.new] at hold
      · exact (h.retired e hold).imp_right fun hin => Ring.pushEach_keeps hpush hin hfresh
    · rcases h with ⟨-, rfl⟩ | h
      · simp [Ring.new] at hlight
      · rcases h.current with hsame | ⟨-, hempty⟩
        · right
          have hnode : rn.current = some e.root := hsame.symm.trans hlast
          have hgone : r'.current ≠ some e.root := by
            rw [hcurrent]
            intro hstill
            rcases hroot with heq | ⟨hnone, -⟩
            · exact hchanged (heq.trans (hstill.trans hlast.symm))
            · rw [hnone] at hstill
              cases hstill
          have hin := Ring.pushEach_retires h.node (by omega) hpush hnode hgone
          rwa [← hat] at hin
        · left
          exact Option.some.inj (hlast.symm.trans hempty)
  · have hfresh : now - e.retiredAt ≤ cfg.freshnessMs := Ring.pushEach_fresh hne hpush he
    rcases h with ⟨rfl, -⟩ | h
    · rcases Ring.mem_pushEach_retired hpush he with hold | ⟨-, hcur | ⟨p, hp, hnorm⟩⟩
      · simp [Ring.new] at hold
      · simp [Ring.new] at hcur
      · exact .inr (.inr (hpassed p hp _ hnorm))
    · -- a root the light ring had current is current there still, or retired now
      have hwas : rl.current = some e.root → e.retiredAt ≤ now → (rl.push cfg now root).1.current = some e.root ∨
          (∃ e' ∈ (rl.push cfg now root).1.retired, e'.root = e.root ∧ e.retiredAt ≤ e'.retiredAt) := by
        intro hcur hle
        have hnow : 0 ≤ cfg.freshnessMs := by omega
        have hor : (rl.push cfg now root).1.current = some e.root ∨
            (⟨e.root, now⟩ : Retired) ∈ (rl.push cfg now root).1.retired := Ring.push_current_or h.light hnow hcur
        exact hor.imp_right fun hin => ⟨⟨e.root, now⟩, hin, rfl, hle⟩
      rcases Ring.mem_pushEach_retired hpush he with hold | ⟨hat, hcur | ⟨p, hp, hnorm⟩⟩
      · have hle := (h.past e hold).trans hlater
        rcases h.back e hold with hcur | ⟨e', he', hsame, hle'⟩ | hin
        · exact (hwas hcur hle).imp_right .inl
        · exact .inr (.inl ⟨e', Ring.push_keeps he' (by omega), hsame, hle'⟩)
        · exact .inr (.inr (hkept _ hin))
      · have hlcur : rl.current = some e.root := by
          rcases h.current with hsame | ⟨hnone, -⟩
          · exact hsame.trans hcur
          · rw [hnone] at hcur
            cases hcur
        exact (hwas hlcur hat.le).imp_right .inl
      · exact .inr (.inr (hpassed p hp _ hnorm))

end Rings

/-! ### Polls of both -/

/-- The two providers, the head polled last, and the roots that the node provider saw pass between two polls. -/
structure Twin where
  node : Session NodeProvider
  light : Session LightProvider
  head : ℕ
  passed : List String

def Twin.start (clock : ℤ) : Twin := ⟨⟨NodeProvider.new, clock, []⟩, ⟨LightProvider.new, clock, []⟩, 0, []⟩

/-- One poll of both: the times, the head, and what the RPC answers each. -/
structure TwinPoll where
  startedAt : ℤ
  endedAt : ℤ
  head : ℕ
  getLogs : GetLogs
  reads : LightReads

/-- The node provider's part; `finalized` says whether the tag is that of the finalized block. -/
def TwinPoll.nodeCall (q : TwinPoll) (S : ScanConfig) (finalized : Bool) (p : NodeProvider) : Call NodeRpc where
  startedAt := q.startedAt
  endedAt := q.endedAt
  rpc :=
    { head := .ok (finalized, some q.head)
      logs := fetchMemberLogs S.isLogRangeError q.getLogs S.chunk
        (match p.incremental finalized (some q.head) with
          | none => S.startBlock
          | some (upTo, _) => upTo + 1) q.head }

section Twins

variable (keccak256 : Bytes → Vector UInt8 32) (decodeRlp : Bytes → Except String Rlp)
  {H : ℕ → ℕ → ℕ} {z depth : ℕ} (L : RLNGroup H z depth) (cfg : RingConfig) (S : ScanConfig) (C : LightConfig)
  (finalized : Bool)

/-- The light provider's part. -/
def TwinPoll.lightCall (q : TwinPoll) : Call LightRpc :=
  ⟨q.startedAt, q.endedAt, C.read keccak256 decodeRlp q.reads⟩

/-- One poll of both, which succeeds: heads do not go back, the logs are those of the chain, and the light provider is
answered from a state whose slot holds `value`. -/
structure TwinStep (chain : List Log) (rootAt : ℕ → ℕ → Prop) (s : Twin)
    (e : TwinPoll × Answer NodeInfo × Answer LightInfo) (s' : Twin) : Prop where
  node : NodeStep L cfg s.node (e.1.nodeCall S finalized s.node.provider, .ok e.2.1) s'.node
  fresh : e.2.1.stale = false
  light : LightStep cfg s.light (e.1.lightCall keccak256 decodeRlp C, .ok e.2.2) s'.light
  answers : Answers chain e.1.getLogs
  honest : ∃ w value, rootAt e.1.head value ∧ World.Holds keccak256 C w value ∧
    World.Readable keccak256 decodeRlp C w value ∧ World.Answered keccak256 C w value e.1.head finalized e.1.reads
  ahead : s.head ≤ e.1.head
  head : s'.head = e.1.head
  passed : s'.passed = s.passed ++
    (s.node.provider.observes L cfg (e.1.nodeCall S finalized s.node.provider)).dropLast.filterMap normRoot

/-- The slot holds the root of the replay, and `empty` while nothing is live. -/
def SlotFollows (chain : List Log) (rootAt : ℕ → ℕ → Prop) (empty : ℕ) : Prop :=
  ∀ head value, rootAt head value → value ≠ 0 ∧ ∀ root,
    reconstructRoot L (between chain S.startBlock head) = .ok root → root = some value ∨ root = none ∧ value = empty

/-- **What a poll of both must show**: the slot's value is current at the light provider and the root of the replay at
the node provider, and each publishes it first; without a cap both accept the same, but for the root `empty` of the one
and the roots passed between polls of the other. -/
structure TwinAgrees (chain : List Log) (empty value : ℕ) (q : TwinPoll) (a : Answer NodeInfo) (b : Answer LightInfo)
    (s' : Twin) : Prop where
  light : s'.light.provider.ring.current = some (toString value) ∧ b.snapshot.roots.head? = some (toString value)
  node : ∃ root, reconstructRoot L (between chain S.startBlock q.head) = .ok root ∧
    s'.node.provider.ring.current = root.map toString ∧ (∀ r, root = some r → a.snapshot.roots.head? = some (toString r)) ∧
    (root = some value ∨ root = none ∧ value = empty)
  accepted : cfg.maxRoots = none → (∀ x ∈ b.snapshot.roots, x = toString empty ∨ x ∈ a.snapshot.roots) ∧
    ∀ x ∈ a.snapshot.roots, x ∈ b.snapshot.roots ∨ x ∈ s'.passed

/-- What the two have in common between polls. -/
structure InStep (chain : List Log) (empty : ℕ) (s : Twin) : Prop where
  scanned : ∀ upTo logs, s.node.provider.scanned = some (upTo, logs) →
    finalized = true ∧ logs.Perm (between chain S.startBlock upTo) ∧ upTo ≤ s.head
  rescan : finalized = true → s.node.provider.lastSuccessfulAt ≠ none → s.node.provider.scanned ≠ none
  last : s.node.provider.lastSuccessfulAt = s.light.provider.lastSuccessfulAt
  rings : (s.node.provider.ring = Ring.new ∧ s.light.provider.ring = Ring.new) ∨
    SameRoots (toString empty) s.passed s.node.clock s.node.provider.ring s.light.provider.ring

end Twins

section Reads

variable {H : ℕ → ℕ → ℕ} {z depth : ℕ} {L : RLNGroup H z depth} {S : ScanConfig} {finalized : Bool}
  {chain : List Log} {p : NodeProvider} {q : TwinPoll} {scanned : Option (ℕ × List Log)} {r : NodeReading L}

/-- The scan that a read at the head goes on from. -/
lemma incremental_mode {head upTo : ℕ} {seen : List Log} :
    p.incremental finalized (some head) = some (upTo, seen) ↔
      finalized = true ∧ p.scanned = some (upTo, seen) ∧ upTo ≤ head := by
  cases finalized with
  | true => simpa using incremental_some
  | false => simp [NodeProvider.incremental]

/-- What a read of the node provider replays. -/
lemma nodeCall_read (hstart : ∀ l ∈ chain, S.startBlock ≤ l.blockNumber)
    (hscanned : ∀ upTo logs, p.scanned = some (upTo, logs) → logs.Perm (between chain S.startBlock upTo))
    (hanswers : Answers chain q.getLogs) (hread : p.read L (q.nodeCall S finalized p).rpc = (scanned, .ok r)) :
    ∃ logs, scanned = (if finalized then some (q.head, logs) else none) ∧
      logs.Perm (between chain S.startBlock q.head) ∧
      r.finalized = finalized ∧ r.observedAtBlock = some q.head ∧
      r.incremental = (p.incremental finalized (some q.head)).isSome ∧
      reconstructGroup L ((p.incremental finalized (some q.head)).map fun sc => sc.2.length) logs = .ok r.replay := by
  unfold NodeProvider.read TwinPoll.nodeCall at hread
  simp only at hread
  have hperm : ∀ logs, p.fetchLogs finalized (some q.head) (fetchMemberLogs S.isLogRangeError q.getLogs S.chunk
      (match p.incremental finalized (some q.head) with
        | none => S.startBlock
        | some (upTo, _) => upTo + 1) q.head) = .ok logs → logs.Perm (between chain S.startBlock q.head) := by
    intro logs h
    unfold NodeProvider.fetchLogs at h
    cases hinc : p.incremental finalized (some q.head) with
    | none =>
      rw [hinc] at h
      exact fetchMemberLogs_perm hanswers h
    | some sc =>
      obtain ⟨upTo, seen⟩ := sc
      obtain ⟨rfl, hsc, hle⟩ := incremental_mode.mp hinc
      refine fetchLogs_perm (q := ⟨q.startedAt, q.endedAt, .ok q.head, q.getLogs⟩) (p := p)
        (fun upTo logs h => ⟨hscanned upTo logs h, .inr hstart⟩) hanswers ?_
      unfold NodeProvider.fetchLogs NodeProvider.nextBlock
      exact h
  cases hfetch : p.fetchLogs finalized (some q.head) (fetchMemberLogs S.isLogRangeError q.getLogs S.chunk
      (match p.incremental finalized (some q.head) with
        | none => S.startBlock
        | some (upTo, _) => upTo + 1) q.head) with
  | error msg =>
    rw [hfetch] at hread
    cases (Prod.mk.inj hread).2
  | ok logs =>
    rw [hfetch] at hread
    simp only at hread
    split at hread
    · cases (Prod.mk.inj hread).2
    · next replay hreplay =>
      obtain ⟨hsc, hr⟩ := Prod.mk.inj hread
      obtain rfl := Except.ok.inj hr
      exact ⟨logs, hsc.symm, hperm logs hfetch, rfl, rfl, rfl, hreplay⟩

/-- The replay of a read has the root of the full replay, and records no root after it. -/
lemma nodeCall_root (hchain : chain.Pairwise Log.Before)
    (hscanned : ∀ upTo logs, p.scanned = some (upTo, logs) → logs.Perm (between chain S.startBlock upTo))
    {logs : List Log} (hperm : logs.Perm (between chain S.startBlock q.head))
    (hreplay : reconstructGroup L ((p.incremental finalized (some q.head)).map fun sc => sc.2.length) logs =
      .ok r.replay) :
    reconstructRoot L (between chain S.startBlock q.head) = .ok r.replay.root ∧
      ∃ first, (first :: r.replay.transitions).getLast (List.cons_ne_nil _ _) = r.replay.root := by
  constructor
  · have hforget := reconstructGroup_forget (L := L)
      ((p.incremental finalized (some q.head)).map fun sc => sc.2.length) hchain hperm
    rw [hreplay] at hforget
    rw [reconstructRoot, ← hforget]
    rfl
  · cases hinc : p.incremental finalized (some q.head) with
    | none =>
      rw [hinc] at hreplay
      rw [reconstructGroup_untracked hreplay]
      exact ⟨_, rfl⟩
    | some sc =>
      obtain ⟨upTo, seen⟩ := sc
      obtain ⟨-, hsc, hle⟩ := incremental_mode.mp hinc
      rw [hinc, Option.map_some, (hscanned upTo seen hsc).length_eq] at hreplay
      obtain ⟨r₀, -, hlast, -⟩ := reconstructGroup_tracked hchain hle hperm hreplay
      exact ⟨_, hlast⟩

end Reads

section Step

variable {keccak256 : Bytes → Vector UInt8 32} {decodeRlp : Bytes → Except String Rlp}
  {H : ℕ → ℕ → ℕ} {z depth : ℕ} {L : RLNGroup H z depth} {cfg : RingConfig} {S : ScanConfig} {C : LightConfig}
  {finalized : Bool} {chain : List Log} {rootAt : ℕ → ℕ → Prop} {empty : ℕ} {s s' : Twin} {q : TwinPoll}
  {a : Answer NodeInfo} {b : Answer LightInfo}

lemma InStep.start (clock : ℤ) : InStep S finalized chain empty (.start clock) where
  scanned _ _ h := by simp [Twin.start, NodeProvider.new] at h
  rescan _ h := absurd rfl h
  last := rfl
  rings := .inl ⟨rfl, rfl⟩

/-- What a call of the light provider leaves whose read succeeds. -/
lemma callLight_ok {t t' : Session LightProvider} {call : Call LightRpc} {root : Option String} {info : LightInfo}
    (hrpc : call.rpc = .ok (root, info)) (hcall : callLight cfg t call = (t', .ok b)) :
    let pushed := (t.provider.ring.resetIf (t.provider.lastSuccessfulAt.any
      fun last => decide (cfg.freshnessMs < call.startedAt - last))).push cfg call.endedAt root
    t'.provider.ring = pushed.1 ∧ t'.provider.lastSuccessfulAt = some call.endedAt ∧ b.snapshot.roots = pushed.2 := by
  simp only [callLight, LightProvider.currentRoots, LightProvider.fetchFresh, hrpc, withCache] at hcall
  obtain ⟨rfl, hb⟩ := Prod.mk.inj hcall
  obtain rfl := Except.ok.inj hb
  exact ⟨rfl, rfl, rfl⟩

/-- What is published starts with the current root. -/
lemma collect_head {maxRoots : Option ℕ} (c : String) (es : List Retired) :
    (collect maxRoots (some c).toList es).head? = some c := by
  obtain ⟨rest, hrest⟩ := collect_prefix maxRoots es (some c).toList
  rw [← hrest]
  rfl

/-- A call of the node provider that is answered afresh has read something. -/
lemma callNode_read {t t' : Session NodeProvider} {call : Call NodeRpc}
    (hcall : callNode L cfg t call = (t', .ok a)) (hfresh : a.stale = false) :
    ∃ scanned r, t.provider.read L call.rpc = (scanned, .ok r) := by
  cases hread : t.provider.read L call.rpc with
  | mk scanned res =>
    cases res with
    | ok r => exact ⟨_, _, rfl⟩
    | error msg =>
      simp only [callNode, NodeProvider.currentRoots, NodeProvider.fetchFresh, hread, withCache] at hcall
      have hans := (Prod.mk.inj hcall).2
      split at hans
      · cases hans
      · split at hans
        · obtain rfl := Except.ok.inj hans
          cases hfresh
        · cases hans

/-- The two are reset together. -/
lemma InStep.resets (h : InStep S finalized chain empty s) (hahead : s.head ≤ q.head) {r : NodeReading L}
    (hfinal : r.finalized = finalized)
    (hinc : r.incremental = (s.node.provider.incremental finalized (some q.head)).isSome) :
    s.node.provider.resetToCurrent L cfg q.startedAt r =
      s.light.provider.lastSuccessfulAt.any fun last => decide (cfg.freshnessMs < q.startedAt - last) := by
  unfold NodeProvider.resetToCurrent
  rw [← h.last]
  cases hlast : s.node.provider.lastSuccessfulAt with
  | none => rfl
  | some last =>
    have hvalid : (r.finalized && r.observedAtBlock.isSome && !r.incremental) = false := by
      rw [hfinal]
      cases finalized with
      | false => simp
      | true =>
        cases hsc : s.node.provider.scanned with
        | none => exact absurd hsc (h.rescan rfl (by simp [hlast]))
        | some sc =>
          obtain ⟨upTo, seen⟩ := sc
          have hle := (h.scanned upTo seen hsc).2.2
          have hsome := incremental_mode.mpr ⟨rfl, hsc, hle.trans hahead⟩
          rw [hinc, hsome]
          simp
    simp [hvalid]

/-- **One poll of both** keeps them in step. -/
lemma InStep.step (h : InStep S finalized chain empty s) (hchain : chain.Pairwise Log.Before)
    (hstart : ∀ l ∈ chain, S.startBlock ≤ l.blockNumber) (hslot : SlotFollows L S chain rootAt empty)
    (hproof : C.storageat = false)
    (hst : TwinStep keccak256 decodeRlp L cfg S C finalized chain rootAt s (q, a, b) s') :
    InStep S finalized chain empty s' ∧ ∃ value, rootAt q.head value ∧
      TwinAgrees L cfg S chain empty value q a b s' := by
  obtain ⟨hstarted, hended, hnode⟩ := hst.node
  obtain ⟨-, -, hlight⟩ := hst.light
  have hperms : ∀ upTo logs, s.node.provider.scanned = some (upTo, logs) →
      logs.Perm (between chain S.startBlock upTo) := fun upTo logs hsc => (h.scanned upTo logs hsc).2.1
  -- the node provider's read
  obtain ⟨scanned, r, hread⟩ := callNode_read hnode hst.fresh
  obtain ⟨logs, hscanned, hperm, hfinal, hblock, hinc, hreplay⟩ := nodeCall_read hstart hperms hst.answers hread
  obtain ⟨hroot, first, hlast⟩ := nodeCall_root hchain hperms hperm hreplay
  have hend : (s.node.provider.pushes L cfg q.startedAt r).getLast (s.node.provider.pushes_ne_nil q.startedAt r) =
      r.replay.root.map toString := pushes_last s.node.provider q.startedAt r hlast
  have hresets : s.node.provider.resetToCurrent L cfg q.startedAt r =
      s.light.provider.lastSuccessfulAt.any fun last => decide (cfg.freshnessMs < q.startedAt - last) :=
    h.resets hst.ahead hfinal hinc
  obtain ⟨ring, roots, hpush⟩ : ∃ ring roots, (s.node.provider.ring.resetIf
      (s.node.provider.resetToCurrent L cfg q.startedAt r)).pushEach cfg q.endedAt
        (s.node.provider.pushes L cfg q.startedAt r) = (ring, roots) := ⟨_, _, rfl⟩
  obtain ⟨hinit, hcurrent, rfl⟩ := Ring.pushEach_last (s.node.provider.pushes_ne_nil q.startedAt r) hpush
  rw [hend, normRoot_toString] at hcurrent
  obtain ⟨hring, hscan, hat, hclock, info, ha⟩ := callNode_ok hread hpush hnode
  have hobserved : s.node.provider.observes L cfg (q.nodeCall S finalized s.node.provider) =
      s.node.provider.pushes L cfg q.startedAt r := by
    simp only [NodeProvider.observes, hread]
    rfl
  -- the light provider's read
  obtain ⟨w, value, hvalue, hholds, hreadable, hans⟩ := hst.honest
  obtain ⟨linfo, hlread⟩ := LightConfig.read_honest hproof hholds hreadable hans
  obtain ⟨pushed, hpushed⟩ : ∃ pushed, (s.light.provider.ring.resetIf (s.light.provider.lastSuccessfulAt.any
      fun last => decide (cfg.freshnessMs < q.startedAt - last))).push cfg q.endedAt (toRoot value) = pushed := ⟨_, rfl⟩
  obtain ⟨hlring, hlat, hb⟩ : s'.light.provider.ring = pushed.1 ∧ s'.light.provider.lastSuccessfulAt = some q.endedAt ∧
      b.snapshot.roots = pushed.2 := by
    have hrpc : (q.lightCall keccak256 decodeRlp C).rpc = .ok (toRoot value, linfo) := hlread
    have hok := callLight_ok hrpc hlight
    rw [← hpushed]
    exact hok
  obtain ⟨hne, hfollows⟩ := hslot q.head value hvalue
  have hvalueRoot := hfollows r.replay.root hroot
  have htext : toRoot value = some (toString value) := if_neg hne
  have hsame : normRoot (toRoot value) = normRoot ((s.node.provider.pushes L cfg q.startedAt r).getLast
        (s.node.provider.pushes_ne_nil q.startedAt r)) ∨
      normRoot ((s.node.provider.pushes L cfg q.startedAt r).getLast
        (s.node.provider.pushes_ne_nil q.startedAt r)) = none ∧ normRoot (toRoot value) = some (toString empty) := by
    rw [hend, htext]
    rcases hvalueRoot with hlive | ⟨hnone, rfl⟩
    · left
      rw [hlive]
      rfl
    · right
      rw [hnone]
      exact ⟨rfl, normRoot_toString (some value)⟩
  have hrings : SameRoots (toString empty) s'.passed s'.node.clock s'.node.provider.ring s'.light.provider.ring := by
    rw [hring, hlring, ← hpushed, hclock, hst.passed, hobserved]
    refine SameRoots.push ?_ (hstarted.trans hended) (s.node.provider.pushes_ne_nil q.startedAt r) hpush hsame
      (fun x hx => List.mem_append_left _ hx)
      (fun p hp x hx => List.mem_append_right _ (List.mem_filterMap.mpr ⟨p, hp, hx⟩))
    rw [hresets]
    cases s.light.provider.lastSuccessfulAt.any fun last => decide (cfg.freshnessMs < q.startedAt - last) with
    | true => exact .inl ⟨rfl, rfl⟩
    | false => exact h.rings
  refine ⟨⟨?_, ?_, ?_, .inr hrings⟩, ?_⟩
  · intro upTo logs' hsc
    rw [hscan, hscanned] at hsc
    split at hsc
    · next hfin =>
      obtain ⟨rfl, rfl⟩ := Prod.mk.inj (Option.some.inj hsc)
      exact ⟨hfin, hperm, hst.head.ge⟩
    · cases hsc
  · intro hfin _
    rw [hscan, hscanned, hfin]
    simp
  · rw [hat, hlat]
    rfl
  · have hlroots : pushed.2 = collect cfg.maxRoots pushed.1.current.toList pushed.1.retired := by
      rw [← hpushed]
      rfl
    have hlcurrent : pushed.1.current = some (toString value) := by
      rw [← hpushed, Ring.current_push, htext]
      exact normRoot_toString (some value)
    obtain rfl : a = ⟨⟨collect cfg.maxRoots ring.current.toList ring.retired, info⟩, false, none⟩ := Except.ok.inj ha
    rw [hring, hlring] at hrings
    refine ⟨value, hvalue, ⟨hlring ▸ hlcurrent, ?_⟩, ⟨r.replay.root, hroot, hring ▸ hcurrent, fun x hx => ?_, hvalueRoot⟩,
      fun hcap => ⟨fun x hx => ?_, fun x hx => ?_⟩⟩
    · rw [hb, hlroots, hlcurrent]
      exact collect_head _ _
    · rw [hx] at hcurrent
      simp only [hcurrent]
      exact collect_head _ _
    · rw [hb, hlroots] at hx
      rw [hcap]
      rcases mem_collect hx with hcur | ⟨e, he, rfl⟩
      · rcases hrings.current with hsame | ⟨-, hempty⟩
        · exact .inr (mem_collect_of_known (.inl (hsame ▸ hcur)))
        · rw [hempty] at hcur
          exact .inl (by simpa using hcur)
      · exact (hrings.retired e he).imp_right fun hin => mem_collect_of_known (.inr ⟨e, hin, rfl⟩)
    · rw [hb, hlroots, hcap]
      rcases mem_collect hx with hcur | ⟨e, he, rfl⟩
      · rcases hrings.current with hsame | ⟨hnone, -⟩
        · exact .inl (mem_collect_of_known (.inl (hsame ▸ hcur)))
        · simp [hnone] at hcur
      · rcases hrings.back e he with hcur | ⟨e', he', hsame, -⟩ | hin
        · exact .inl (mem_collect_of_known (.inl (by simp [hcur])))
        · exact .inl (mem_collect_of_known (.inr ⟨e', he', hsame⟩))
        · exact .inr hin

/-- **Polls of both.** After any polls, the next one shows the two in step. -/
lemma InStep.run (hchain : chain.Pairwise Log.Before) (hstart : ∀ l ∈ chain, S.startBlock ≤ l.blockNumber)
    (hslot : SlotFollows L S chain rootAt empty) (hproof : C.storageat = false) {clock : ℤ}
    {polls : List (TwinPoll × Answer NodeInfo × Answer LightInfo)}
    (hrun : Run (TwinStep keccak256 decodeRlp L cfg S C finalized chain rootAt) (Twin.start clock) polls s)
    (hst : TwinStep keccak256 decodeRlp L cfg S C finalized chain rootAt s (q, a, b) s') :
    ∃ value, rootAt q.head value ∧ TwinAgrees L cfg S chain empty value q a b s' := by
  have hin : InStep S finalized chain empty s := hrun.invariant_state (I := fun s => InStep S finalized chain empty s)
    (InStep.start clock) fun t e u ht hst => (ht.step hchain hstart hslot hproof hst).1
  exact (hin.step hchain hstart hslot hproof hst).2

end Step

end ShadeTree.Roots
