import Mathlib.Tactic.Linarith
import ShadeTree.Bootnode.Calls

/-!
# Announces that are replayed

An announce asks the replay cache before it waits for the operator and its stake, and enters its nonce after.
The cache forgets a nonce a TTL after it was entered.  A record is accepted once if, when its checks end, no
other call entered its nonce in between, and a nonce entered while the record was in time would not have been
forgotten.
-/

namespace ShadeTree.Bootnode

open ShadeTree.Lib

variable {T : Type} {K : Keys}

/-- The record of an announce that a step enters. -/
def Event.liveAccept (e : Event T K) : Option (Checked K) :=
  match e.accepts with
  | some (.live, c) => some c
  | _ => none

/-- The records of the announces that were accepted, in order. -/
def liveAccepts (tr : List (Event T K)) : List (Checked K) := tr.filterMap Event.liveAccept

/-- One record: the onion, the nonce and the time it was signed for. -/
def SameRecord (c c' : Checked K) : Prop :=
  c.onion = c'.onion ∧ c.record.nonce = c'.record.nonce ∧ c.ts = c'.ts

instance (c c' : Checked K) : Decidable (SameRecord c c') := inferInstanceAs (Decidable (_ ∧ _ ∧ _))

/-- No record was accepted twice. -/
def AcceptedOnce (tr : List (Event T K)) : Prop := (liveAccepts tr).Pairwise fun c c' => ¬ SameRecord c c'

instance (tr : List (Event T K)) : Decidable (AcceptedOnce tr) := List.instDecidablePairwise _

/-- The announce whose checks end with the step. -/
def Event.verifies : Event T K → Option (Checked K)
  | .began _ _ _ (.ok ⟨.live, c, .verified _ _⟩) => some c
  | .resumed _ (.ok ⟨.live, c, .verified _ _⟩) => some c
  | _ => none

/-- The step ends an `await`. -/
def Event.resumes : Event T K → Bool
  | .resumed _ _ => true
  | _ => false

/-- **The condition.** When the checks of an announce end, its nonce was not entered while they were waited
for, and the cache still has every nonce that was entered when the record was in time. -/
def Unreplayed (C : RegistryConfig) (s : System T K) (e : Event T K) : Prop :=
  match e.verifies with
  | none => True
  | some c =>
    (e.resumes = true → s.registry.nonces.lookup c.nonceKey = none) ∧
      (s.clock : ℚ) ≤ (c.ts - DEFAULT_ANNOUNCE_SKEW + C.ttlSec) * 1000

instance (C : RegistryConfig) (s : System T K) (e : Event T K) : Decidable (Unreplayed C s e) := by
  unfold Unreplayed
  split <;> infer_instance

lemma SameRecord.nonceKey {c c' : Checked K} (h : SameRecord c c') : c.nonceKey = c'.nonceKey := by
  unfold Checked.nonceKey
  rw [h.1, h.2.1]

lemma now_bounds (clock : ℤ) : now clock * 1000 ≤ clock ∧ (clock : ℚ) ≤ now clock * 1000 + 999 := by
  have hle : clock / 1000 * 1000 ≤ clock := by omega
  have hge : clock ≤ clock / 1000 * 1000 + 999 := by omega
  unfold now
  exact ⟨by exact_mod_cast hle, by exact_mod_cast hge⟩

/-! ### What was claimed stays in the cache -/

/-- An announce of the record was accepted, or waits for its turn to write. -/
def Claims (tr : List (Event T K)) (s : System T K) (c : Checked K) : Prop :=
  c ∈ liveAccepts tr ∨ ∃ t operator staked, s.calls t = some ⟨.live, c, .verified operator staked⟩

/-- The nonce of the record is cached, entered when the record was in time, or could be forgotten. -/
def Cached (C : RegistryConfig) (s : System T K) (c : Checked K) : Prop :=
  (∃ seenAt : ℤ, s.registry.nonces.lookup c.nonceKey = some seenAt ∧
    (c.ts - DEFAULT_ANNOUNCE_SKEW) * 1000 ≤ seenAt) ∨
    (c.ts - DEFAULT_ANNOUNCE_SKEW + C.ttlSec) * 1000 < s.clock

/-- What holds along a run. -/
structure ReplaySound (C : RegistryConfig) (tr : List (Event T K)) (s : System T K) : Prop where
  cached : ∀ c, Claims tr s c → Cached C s c
  late : ∀ t call, s.calls t = some call → call.source = .live →
    (call.checked.ts - DEFAULT_ANNOUNCE_SKEW) * 1000 ≤ s.clock
  past : ∀ key seenAt, s.registry.nonces.lookup key = some seenAt → seenAt ≤ s.clock
  once : ∀ t operator staked c, s.calls t = some ⟨.live, c, .verified operator staked⟩ →
    ∀ c', SameRecord c' c → c' ∉ liveAccepts tr ∧
      ∀ t' operator' staked', s.calls t' = some ⟨.live, c', .verified operator' staked'⟩ → t' = t
  accepts : AcceptedOnce tr

section Steps

variable {C : RegistryConfig} {s u : System T K} {e : Event T K} {tr : List (Event T K)} {c : Checked K}

lemma liveAccepts_concat : liveAccepts (tr ++ [e]) = liveAccepts tr ++ e.liveAccept.toList := by
  unfold liveAccepts
  rw [List.filterMap_append]
  cases h : e.liveAccept <;> simp [h]

lemma accepts_of_liveAccept (h : e.liveAccept = some c) : e.accepts = some (.live, c) := by
  unfold Event.liveAccept at h
  split at h
  · next haccepts =>
    obtain rfl := Option.some.inj h
    exact haccepts
  · cases h

lemma mem_liveAccepts_concat (h : c ∈ liveAccepts (tr ++ [e])) :
    c ∈ liveAccepts tr ∨ e.accepts = some (.live, c) := by
  rw [liveAccepts_concat, List.mem_append, Option.mem_toList] at h
  exact h.imp_right accepts_of_liveAccept

/-- A call whose checks end under the condition is the first of its record. -/
lemma unclaimed {t : T} {operator : Option String} {staked : Bool} {r : Registry K} {c' : Checked K}
    (horigin : Origin C s t ⟨.live, c, .verified operator staked⟩ r e) (hthread : e.thread = some t)
    (hcond : Unreplayed C s e) (hcached : ∀ c', Claims tr s c' → Cached C s c') (hsame : SameRecord c' c) :
    ¬ Claims tr s c' := by
  intro hclaims
  have hc' := hcached c' hclaims
  unfold Cached at hc'
  rw [hsame.nonceKey, hsame.2.2] at hc'
  cases horigin with
  | waits hold hne => exact hne hthread
  | @began record r₁ hpruned hpasses hr =>
    have hkept : (s.clock : ℚ) ≤ (c.ts - DEFAULT_ANNOUNCE_SKEW + C.ttlSec) * 1000 := hcond.2
    rcases hc' with ⟨seenAt, hseen, hat⟩ | hexpired
    · rcases hpruned.nonce hseen with hstill | hold
      · rw [hpasses.unseen nofun] at hstill
        cases hstill
      · linarith
    · linarith
  | resumed hold hsource hchecked hstage hr =>
    obtain ⟨hunseen, hkept⟩ : ((Event.resumed t (.ok ⟨.live, c, .verified operator staked⟩) :
        Event T K).resumes = true → s.registry.nonces.lookup c.nonceKey = none) ∧
        (s.clock : ℚ) ≤ (c.ts - DEFAULT_ANNOUNCE_SKEW + C.ttlSec) * 1000 := hcond
    rcases hc' with ⟨seenAt, hseen, hat⟩ | hexpired
    · rw [hunseen rfl] at hseen
      cases hseen
    · linarith

variable [DecidableEq T]

/-- Who enters waited for it. -/
lemma Step.writer (hst : Step C s e u) {source : Source} (haccepts : e.accepts = some (source, c)) :
    ∃ t operator staked, e.thread = some t ∧ s.calls t = some ⟨source, c, .verified operator staked⟩ := by
  rcases hst.live with ⟨t, source', c', operator, staked, rfl, -, hcall, -⟩ | ⟨hnone, -⟩
  · obtain ⟨rfl, rfl⟩ := Prod.mk.inj (Option.some.inj haccepts)
    exact ⟨t, operator, staked, rfl, hcall⟩
  · rw [hnone] at haccepts
    cases haccepts

lemma Cached.step (h : Cached C s c) (hpast : ∀ key seenAt, s.registry.nonces.lookup key = some seenAt →
    seenAt ≤ s.clock) (hst : Step C s e u) : Cached C u c := by
  have hclock : (s.clock : ℚ) ≤ u.clock := by exact_mod_cast hst.clock_le
  rcases h with ⟨seenAt, hseen, hat⟩ | hexpired
  · rcases hst.ages.kept _ _ hseen with hkept | hagain | hold
    · exact .inl ⟨seenAt, hkept, hat⟩
    · have hle : (seenAt : ℚ) ≤ s.clock := by exact_mod_cast hpast _ _ hseen
      exact .inl ⟨s.clock, hagain, by linarith⟩
    · exact .inr (by linarith)
  · exact .inr (by linarith)

/-- A call whose checks end has its nonce in the cache. -/
lemma cached_of_origin {t : T} {operator : Option String} {staked : Bool}
    (hst : Step C s e u) (horigin : Origin C s t ⟨.live, c, .verified operator staked⟩ u.registry e)
    (hthread : e.thread = some t) (hlate : (c.ts - DEFAULT_ANNOUNCE_SKEW) * 1000 ≤ s.clock) : Cached C u c := by
  have hadded : ∀ {r : Registry K}, u.registry = r.addNonce s.clock .live c → Cached C u c := by
    intro r hr
    refine .inl ⟨s.clock, ?_, hlate⟩
    rw [hr]
    exact AList.lookup_insert _
  cases horigin with
  | waits hold hne => exact absurd hthread hne
  | began hpruned hpasses hr =>
    rcases hr with ⟨hstage, -⟩ | ⟨-, hr⟩
    · cases hstage
    · exact hadded hr
  | resumed hold hsource hchecked hstage hr =>
    rcases hr with ⟨⟨_, hstage⟩, -⟩ | ⟨-, hr⟩
    · cases hstage
    · exact hadded hr

lemma ReplaySound.late_step (h : ReplaySound C tr s) (hst : Step C s e u) {t : T} {call : Call K}
    (hcall : u.calls t = some call) (hlive : call.source = .live) :
    (call.checked.ts - DEFAULT_ANNOUNCE_SKEW) * 1000 ≤ s.clock := by
  have horigin := hst.origin hcall
  cases horigin with
  | waits hold hthread => exact h.late t call hold hlive
  | began hpruned hpasses hr =>
    have hfresh := hpasses.fresh
    rw [hlive] at hfresh
    have hlead := (abs_le.mp hfresh).1
    have hnow := (now_bounds s.clock).1
    unfold Source.skew at hlead
    linarith
  | resumed hold hsource hchecked hstage hr =>
    rw [← hchecked]
    exact h.late t _ hold (hsource.trans hlive)

/-- **One step.** -/
lemma ReplaySound.step (h : ReplaySound C tr s) (hcond : Unreplayed C s e) (hst : Step C s e u) :
    ReplaySound C (tr ++ [e]) u := by
  have hclock : (s.clock : ℚ) ≤ u.clock := by exact_mod_cast hst.clock_le
  have hwrites : ∀ {c}, e.accepts = some (.live, c) → Claims tr s c := fun haccepts =>
    let ⟨t, operator, staked, _, hcall⟩ := hst.writer haccepts
    .inr ⟨t, operator, staked, hcall⟩
  refine ⟨fun c hclaims => ?_, fun t call hcall hlive => ?_, fun key seenAt hseen => ?_,
    fun t operator staked c hcall c' hsame => ?_, ?_⟩
  · rcases hclaims with hmem | ⟨t, operator, staked, hcall⟩
    · rcases mem_liveAccepts_concat hmem with hold | haccepts
      · exact (h.cached c (.inl hold)).step h.past hst
      · exact (h.cached c (hwrites haccepts)).step h.past hst
    · by_cases hthread : e.thread = some t
      · exact cached_of_origin hst (hst.origin hcall) hthread (h.late_step hst hcall rfl)
      · have hold := (hst.origin hcall).of_thread_ne hthread
        exact (h.cached c (.inr ⟨t, operator, staked, hold⟩)).step h.past hst
  · exact (h.late_step hst hcall hlive).trans hclock
  · rcases hst.ages.added key seenAt hseen with hold | rfl
    · exact (h.past key seenAt hold).trans hst.clock_le
    · exact hst.clock_le
  · by_cases hthread : e.thread = some t
    · -- the checks of this call end now: nobody claimed its record
      have hnone : ∀ c'', SameRecord c'' c → ¬ Claims tr s c'' :=
        fun c'' hsame'' => unclaimed (hst.origin hcall) hthread hcond h.cached hsame''
      refine ⟨fun hmem => ?_, fun t' operator' staked' hcall' => ?_⟩
      · rcases mem_liveAccepts_concat hmem with hold | haccepts
        · exact hnone c' hsame (.inl hold)
        · exact hnone c' hsame (hwrites haccepts)
      · by_cases hthread' : e.thread = some t'
        · exact Option.some.inj (hthread'.symm.trans hthread)
        · have hold := (hst.origin hcall').of_thread_ne hthread'
          exact absurd (.inr ⟨t', operator', staked', hold⟩) (hnone c' hsame)
    · have hold := (hst.origin hcall).of_thread_ne hthread
      obtain ⟨hnotin, hunique⟩ := h.once t operator staked c hold c' hsame
      refine ⟨fun hmem => ?_, fun t' operator' staked' hcall' => ?_⟩
      · rcases mem_liveAccepts_concat hmem with hin | haccepts
        · exact hnotin hin
        · obtain ⟨t', operator', staked', hthread', hcall'⟩ := hst.writer haccepts
          obtain rfl := hunique t' operator' staked' hcall'
          exact hthread hthread'
      · by_cases hthread' : e.thread = some t'
        · have hsame' : SameRecord c c' := ⟨hsame.1.symm, hsame.2.1.symm, hsame.2.2.symm⟩
          exact absurd (.inr ⟨t, operator, staked, hold⟩)
            (unclaimed (hst.origin hcall') hthread' hcond h.cached hsame')
        · exact hunique t' operator' staked' ((hst.origin hcall').of_thread_ne hthread')
  · unfold AcceptedOnce
    rw [liveAccepts_concat, List.pairwise_append]
    refine ⟨h.accepts, ?_, fun c' hmem c hlast hsame => ?_⟩
    · cases e.liveAccept with
      | none => exact .nil
      | some c => exact List.pairwise_singleton _ c
    · obtain ⟨t, operator, staked, -, hcall⟩ := hst.writer (accepts_of_liveAccept (Option.mem_toList.mp hlast))
      exact (h.once t operator staked c hcall c' hsame).1 hmem

lemma Step.calls_of_began {t : T} {source : Source} {record : Option Record} {answer : Except Refusal (Call K)}
    (hst : Step C s (.began t source record answer) u) : u.calls t = answer.toOption := by
  cases hst with
  | announce | admitGossip | restore => exact Function.update_self ..

/-- A record that is checked without waiting was in the skew. -/
lemma Step.fresh (hst : Step C s e u) (hwait : e.resumes = false) (h : e.verifies = some c) :
    |now s.clock - c.ts| ≤ DEFAULT_ANNOUNCE_SKEW := by
  unfold Event.verifies at h
  split at h
  · next t source record c' operator staked =>
    obtain rfl := Option.some.inj h
    have horigin := hst.origin hst.calls_of_began
    cases horigin with
    | waits hold hthread => exact absurd rfl hthread
    | began hpruned hpasses hr => exact hpasses.fresh
  · cases hwait
  · cases h

end Steps

variable [DecidableEq T] {C : RegistryConfig} {s : System T K} {tr : List (Event T K)}

lemma run_replaySound {clock : ℤ} (h : Run (Restrict (Step C) (Unreplayed C)) (System.start C clock) tr s) :
    ReplaySound C tr s := by
  refine h.invariant ?_ ?_
  · refine ⟨fun c hclaims => ?_, fun t call hcall => ?_, fun key seenAt hseen => ?_,
      fun t operator staked c hcall => ?_, List.Pairwise.nil⟩
    · rcases hclaims with hmem | ⟨t, operator, staked, hcall⟩
      · cases hmem
      · cases hcall
    · cases hcall
    · cases hseen
    · cases hcall
  · exact fun tr s e u _ hsound hst => hsound.step hst.1 hst.2

/-- **Replay.** As long as the condition is met, no announce of a record is accepted a second time. -/
theorem announce_accepted_once (C : RegistryConfig) (clock : ℤ)
    (h : Run (Restrict (Step C) (Unreplayed C)) (System.start C clock) tr s) : AcceptedOnce tr :=
  (run_replaySound h).accepts

/-- The defaults where gateways are staked. -/
def stakedConfig : RegistryConfig := { openConfig 10 with requireStake := true, readsStake := true }

/-- An announce that an operator signed for. -/
def operatorRecord (onion : String) (ts : ℚ) (nonce : String) : Record :=
  { plainRecord onion ts nonce with operator := some "0xa1", operatorSig := some "sig" }

/-- A staked gateway announces itself, and its record is handed in again: it is refused. -/
theorem announce_accepted_once_staked : ∃ tr, ∃ s : System ℕ signedKeys,
    Run (Restrict (Step stakedConfig) (Unreplayed stakedConfig)) (System.start stakedConfig 0) tr s ∧
    (liveAccepts tr).length = 1 ∧ AcceptedOnce tr := by
  obtain ⟨tr, s, hrun, hlen⟩ := System.exists_run stakedConfig
    (System.start stakedConfig 0 : System ℕ signedKeys) (Unreplayed stakedConfig)
    [.announce 0 (some (operatorRecord zeroOnion 60 "n")), .tell 0 (.operatorSig true),
      .tell 0 (.stakeRead (.ok true)), .write 0, .tick 10000,
      .announce 1 (some (operatorRecord zeroOnion 60 "n"))]
    (fun tr _ => (liveAccepts tr).length = 1) (by decide +kernel)
  exact ⟨tr, s, hrun, hlen, announce_accepted_once stakedConfig 0 hrun⟩

/-- A record handed in twice is accepted twice if both calls ask for the stake before one is answered.  With a
TTL of twice the skew it is also accepted twice without waiting: the clock is read in whole seconds for the
skew and in milliseconds for the cache. -/
theorem announce_accepted_twice :
    (∃ tr, ∃ s : System ℕ signedKeys,
      Run (Step stakedConfig) (System.start stakedConfig 0) tr s ∧ ¬ AcceptedOnce tr) ∧
    ∃ tr, ∃ s : System ℕ signedKeys,
      Run (Step { openConfig 10 with ttlSec := 2 * DEFAULT_ANNOUNCE_SKEW })
        (System.start { openConfig 10 with ttlSec := 2 * DEFAULT_ANNOUNCE_SKEW } 0) tr s ∧ ¬ AcceptedOnce tr := by
  refine ⟨?_, ?_⟩
  · obtain ⟨tr, s, hrun, htwice⟩ := System.exists_run stakedConfig
      (System.start stakedConfig 0 : System ℕ signedKeys) (fun _ _ => True)
      [.announce 0 (some (operatorRecord zeroOnion 60 "n")), .announce 1 (some (operatorRecord zeroOnion 60 "n")),
        .tell 0 (.operatorSig true), .tell 1 (.operatorSig true), .tell 0 (.stakeRead (.ok true)),
        .tell 1 (.stakeRead (.ok true)), .write 0, .write 1]
      (fun tr _ => ¬ AcceptedOnce tr) (by decide +kernel)
    exact ⟨tr, s, hrun.forget, htwice⟩
  · obtain ⟨tr, s, hrun, htwice⟩ := System.exists_run { openConfig 10 with ttlSec := 2 * DEFAULT_ANNOUNCE_SKEW }
      (System.start { openConfig 10 with ttlSec := 2 * DEFAULT_ANNOUNCE_SKEW } 0 : System ℕ signedKeys)
      (fun _ _ => True)
      [.announce 0 (some (plainRecord zeroOnion 120 "n")), .write 0, .tick 240500, .sweep,
        .announce 0 (some (plainRecord zeroOnion 120 "n")), .write 0]
      (fun tr _ => ¬ AcceptedOnce tr) (by decide +kernel)
    exact ⟨tr, s, hrun.forget, htwice⟩

/-- Announces that do not wait for an operator are accepted once if the TTL is a second longer than the time a
record is in the skew. -/
theorem announce_accepted_once_without_waiting {clock : ℤ}
    (httl : 2 * DEFAULT_ANNOUNCE_SKEW * 1000 + 999 ≤ C.ttlSec * 1000)
    (h : Run (Restrict (Step C) fun _ e => e.resumes = false) (System.start C clock) tr s) :
    AcceptedOnce tr := by
  refine (run_replaySound (h.mono fun s e u hst => ⟨?_, hst.2⟩)).accepts
  obtain ⟨hwait, hst⟩ := hst
  unfold Unreplayed
  split
  · trivial
  next c hverifies =>
  refine ⟨fun hresumes => absurd (hwait.symm.trans hresumes) Bool.false_ne_true, ?_⟩
  have hlag := (abs_le.mp (hst.fresh hwait hverifies)).2
  have hclock := (now_bounds s.clock).2
  linarith

end ShadeTree.Bootnode
