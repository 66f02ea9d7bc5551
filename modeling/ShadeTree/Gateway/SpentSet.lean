import ShadeTree.Gateway.Envelope
import ShadeTree.Contracts.PoseidonT3
import ShadeTree.Lib.Run

/-!
# The share-collecting spent set (`makeSpentSet` in `gateway/gateway.mjs`)

The gateway keeps one entry for each nullifier string: the first share it saw, and whether a second
distinct share already made it slash.  The events of a run are the arrivals of envelopes that verify
within one epoch, each admitted some time later, and the sweeps of old entries.  An admission is one
atomic step: the code marks the entry before it awaits the slash.  The shared tally is present through its
answers only, and what reconstruction and derivation name as the leaf to slash is a parameter.
-/

namespace ShadeTree.Gateway

open ShadeTree.Lib

/-- What the spent set holds for one nullifier. -/
structure SpentEntry where
  xs : List String
  first : Share
  slashed : Bool
  recordedAt : ℤ
  deriving DecidableEq

/-- `seen` by nullifier, and `seenEnv` by the fingerprint of the envelope. -/
structure SpentSet where
  seen : String → Option SpentEntry
  seenEnv : String → Option ℤ

inductive Action where
  | badShare
  | first
  | replay
  | replayedEnvelope
  | slashed
  | slash (commitment : Option String)
  deriving DecidableEq, Repr

/-- The answer of an admission. -/
structure Admission where
  ok : Bool
  action : Action
  deriving DecidableEq, Repr

structure SpentConfig where
  replayWindowMs : ℤ
  /-- The leaf that reconstruction from two shares names, `none` when it throws. -/
  leaf : Share → Share → Option String

section Model

variable (S : SpentConfig)

def SpentSet.empty : SpentSet := ⟨fun _ => none, fun _ => none⟩

/-- `envKeyOf(nullifier, share, nonce)`. -/
def envKeyOf (nullifier : String) (share : Share) (nonce : Option String) : String :=
  nullifier ++ "|" ++ share.x ++ "|" ++ nonce.getD ""

/-- `admit(nullifier, share, { nonce, epoch })` at `now`; `peerHas` is what `sharedTally.has` answers. -/
def admitShare (s : SpentSet) (nullifier : String) (share : Option Share) (nonce : Option String)
    (peerHas : Bool) (now : ℤ) : SpentSet × Admission :=
  match share with
  | none => (s, ⟨false, .badShare⟩)
  | some share =>
    let ek := envKeyOf nullifier share nonce
    match s.seen nullifier with
    | none =>
      if peerHas then (s, ⟨false, .replayedEnvelope⟩)
      else
        ({ seen := Function.update s.seen nullifier (some ⟨[share.x], share, false, now⟩)
           seenEnv := Function.update s.seenEnv ek (some now) }, ⟨true, .first⟩)
    | some e =>
      if e.slashed then (s, ⟨false, .slashed⟩)
      else if share.x ∈ e.xs then
        if (s.seenEnv ek).any fun firstAt => decide (now - firstAt ≤ S.replayWindowMs) then
          (s, ⟨true, .replay⟩)
        else (s, ⟨false, .replayedEnvelope⟩)
      else
        ({ s with seen := Function.update s.seen nullifier (some { e with slashed := true }) },
          ⟨false, .slash (S.leaf e.first share)⟩)

/-- `sweep()` at `now`. -/
def sweep (ttlMs now : ℤ) (s : SpentSet) : SpentSet where
  seen k := (s.seen k).filter fun e => decide (now - ttlMs ≤ e.recordedAt)
  seenEnv k := (s.seenEnv k).filter fun t => decide (now - ttlMs ≤ t)

end Model

/-- An arrival at the gateway: the envelope, what it is verified against, and when. -/
structure Arrival (π κ : Type) where
  envelope : Option (Envelope π)
  recentRoots : List String
  artifacts : ArtifactSet κ
  verifiedAt : ℤ
  admittedAt : ℤ
  peerHas : Bool

/-- The nonce that the handler passes on. -/
def Arrival.nonce {π κ : Type} (a : Arrival π κ) : Option String :=
  match a.envelope.map Envelope.nonce with
  | some (.text nonce) => some nonce
  | _ => none

inductive Event (π κ : Type) where
  | admitted (a : Arrival π κ) (v : Verified) (answer : Admission)
  | swept (now : ℤ)

section Runs

variable {π κ : Type} (R : Rln π κ) (S : SpentConfig) (epoch : ℤ)

/-- `ttlMs`: two epochs. -/
def ttlMs : ℤ := 2 * (1000 * R.epochSeconds)

/-- The steps of a gateway over the envelopes of one epoch: an envelope that verifies in it is admitted
then or later, and entries are swept as long as the proofs of the epoch can still verify. -/
inductive AdmitStep : SpentSet → Event π κ → SpentSet → Prop where
  | admitted {s t : SpentSet} {a : Arrival π κ} {v : Verified} {answer : Admission} :
      verifyEnvelope R a.envelope a.recentRoots a.verifiedAt a.artifacts = .ok v →
      currentEpoch R a.verifiedAt = epoch → a.verifiedAt ≤ a.admittedAt →
      admitShare S s v.nullifier (some v.share) a.nonce a.peerHas a.admittedAt = (t, answer) →
      AdmitStep s (.admitted a v answer) t
  | swept {s : SpentSet} {now : ℤ} :
      currentEpoch R now ≤ epoch + 1 → AdmitStep s (.swept now) (sweep (ttlMs R) now s)

end Runs

/-! ### The limit -/

section Limit

variable {π κ : Type}

/-- An envelope of the trace was let through under this nullifier string and `x`. -/
def LetThrough (tr : List (Event π κ)) (nullifier x : String) : Prop :=
  ∃ a v answer, Event.admitted a v answer ∈ tr ∧ v.nullifier = nullifier ∧ v.share.x = x ∧ answer.ok = true

/-- An envelope of the trace made the gateway slash under this nullifier string. -/
def SlashedFor (tr : List (Event π κ)) (nullifier : String) : Prop :=
  ∃ a v answer c, Event.admitted a v answer ∈ tr ∧ v.nullifier = nullifier ∧ answer.action = .slash c

/-- After `tr`, the envelope `v` is answered as the limit asks: if another `x` was let through for the
field element of its nullifier, it is refused with a slash, its own or an earlier one of the element. -/
def Limited (tr : List (Event π κ)) (v : Verified) (answer : Admission) : Prop :=
  ∀ nullifier x, LetThrough tr nullifier x → SameElement nullifier v.nullifier → x ≠ v.share.x →
    answer.ok = false ∧ ((∃ c, answer.action = .slash c) ∨
      answer.action = .slashed ∧ ∃ n, SameElement n v.nullifier ∧ SlashedFor tr n)

/-- One `x` at most is let through for each field element. -/
def OneXPerElement (tr : List (Event π κ)) : Prop :=
  ∀ n n' x x', LetThrough tr n x → LetThrough tr n' x' → SameElement n n' → x = x'

/-- **The condition.** If the spent set holds the field element of the nullifier with another `x`, then it
holds it under the very string of the envelope. -/
def SpelledAsStored (s : SpentSet) (v : Verified) : Prop :=
  ∀ k e, s.seen k = some e → SameElement k v.nullifier → e.first.x ≠ v.share.x →
    (s.seen v.nullifier).isSome

end Limit

/-! ### What one admission does -/

/-- The ways an admission of a share ends, with what the spent set held before. -/
inductive Outcome (S : SpentConfig) (s : SpentSet) (nullifier : String) (share : Share)
    (nonce : Option String) (peerHas : Bool) (now : ℤ) : SpentSet → Admission → Prop where
  | fleet : s.seen nullifier = none → peerHas = true →
      Outcome S s nullifier share nonce peerHas now s ⟨false, .replayedEnvelope⟩
  | first : s.seen nullifier = none → peerHas = false →
      Outcome S s nullifier share nonce peerHas now
        ⟨Function.update s.seen nullifier (some ⟨[share.x], share, false, now⟩),
          Function.update s.seenEnv (envKeyOf nullifier share nonce) (some now)⟩ ⟨true, .first⟩
  | slashed (e : SpentEntry) : s.seen nullifier = some e → e.slashed = true →
      Outcome S s nullifier share nonce peerHas now s ⟨false, .slashed⟩
  | replay (e : SpentEntry) (firstAt : ℤ) : s.seen nullifier = some e → share.x ∈ e.xs →
      s.seenEnv (envKeyOf nullifier share nonce) = some firstAt → now - firstAt ≤ S.replayWindowMs →
      Outcome S s nullifier share nonce peerHas now s ⟨true, .replay⟩
  | late (e : SpentEntry) : s.seen nullifier = some e → share.x ∈ e.xs →
      Outcome S s nullifier share nonce peerHas now s ⟨false, .replayedEnvelope⟩
  | slash (e : SpentEntry) : s.seen nullifier = some e → e.slashed = false → share.x ∉ e.xs →
      Outcome S s nullifier share nonce peerHas now
        ⟨Function.update s.seen nullifier (some { e with slashed := true }), s.seenEnv⟩
        ⟨false, .slash (S.leaf e.first share)⟩

/-- What the limit needs of an outcome: the entry of the string before and after. -/
inductive Admits (s : SpentSet) (nullifier : String) (share : Share) (now : ℤ) :
    SpentSet → Admission → Prop where
  | fleet : s.seen nullifier = none → Admits s nullifier share now s ⟨false, .replayedEnvelope⟩
  | first (seenEnv : String → Option ℤ) : s.seen nullifier = none →
      Admits s nullifier share now
        ⟨Function.update s.seen nullifier (some ⟨[share.x], share, false, now⟩), seenEnv⟩ ⟨true, .first⟩
  | slashed (e : SpentEntry) : s.seen nullifier = some e → e.slashed = true →
      Admits s nullifier share now s ⟨false, .slashed⟩
  | again (e : SpentEntry) (answer : Admission) : s.seen nullifier = some e → share.x ∈ e.xs →
      (∀ c, answer.action ≠ .slash c) → Admits s nullifier share now s answer
  | slash (e : SpentEntry) (c : Option String) : s.seen nullifier = some e → share.x ∉ e.xs →
      Admits s nullifier share now
        ⟨Function.update s.seen nullifier (some { e with slashed := true }), s.seenEnv⟩ ⟨false, .slash c⟩

section Spec

variable {S : SpentConfig} {s t : SpentSet} {nullifier : String} {share : Share} {nonce : Option String}
  {peerHas : Bool} {now : ℤ} {answer : Admission}

lemma admit_outcome (h : admitShare S s nullifier (some share) nonce peerHas now = (t, answer)) :
    Outcome S s nullifier share nonce peerHas now t answer := by
  unfold admitShare at h
  dsimp only at h
  cases he : s.seen nullifier with
  | none =>
    simp only [he] at h
    split at h
    · next hpeer =>
      obtain ⟨rfl, rfl⟩ := Prod.mk.inj h
      exact .fleet he hpeer
    · next hpeer =>
      obtain ⟨rfl, rfl⟩ := Prod.mk.inj h
      exact .first he (by simpa using hpeer)
  | some e =>
    simp only [he] at h
    split at h
    · next hsl =>
      obtain ⟨rfl, rfl⟩ := Prod.mk.inj h
      exact .slashed e he hsl
    next hsl =>
    split at h
    · next hx =>
      split at h
      · next hin =>
        obtain ⟨rfl, rfl⟩ := Prod.mk.inj h
        cases hat : s.seenEnv (envKeyOf nullifier share nonce) with
        | none => simp [hat] at hin
        | some firstAt => exact .replay e firstAt he hx hat (by simpa [hat] using hin)
      · obtain ⟨rfl, rfl⟩ := Prod.mk.inj h
        exact .late e he hx
    · next hx =>
      obtain ⟨rfl, rfl⟩ := Prod.mk.inj h
      exact .slash e he (by simpa using hsl) hx

lemma admit_spec (h : admitShare S s nullifier (some share) nonce peerHas now = (t, answer)) :
    Admits s nullifier share now t answer := by
  cases admit_outcome h with
  | fleet he _ => exact .fleet he
  | first he _ => exact .first _ he
  | slashed e he hsl => exact .slashed e he hsl
  | replay e _ he hx _ _ => exact .again e _ he hx (by simp)
  | late e he hx => exact .again e _ he hx (by simp)
  | slash e he _ hx => exact .slash e _ he hx

end Spec

/-! ### The entries and the trace -/

section Tracking

variable {π κ : Type} {R : Rln π κ} {S : SpentConfig} {epoch : ℤ} {s t : SpentSet} {tr : List (Event π κ)}

/-- The start of an epoch, in milliseconds. -/
def epochStart (R : Rln π κ) (epoch : ℤ) : ℤ := epoch * (1000 * R.epochSeconds)

/-- The entries of the spent set are the envelopes let through, each under its own string. -/
structure Tracks (R : Rln π κ) (epoch : ℤ) (tr : List (Event π κ)) (s : SpentSet) : Prop where
  stored : ∀ k e, s.seen k = some e → LetThrough tr k e.first.x ∧ e.xs = [e.first.x] ∧
    epochStart R epoch ≤ e.recordedAt ∧ (e.slashed = true → SlashedFor tr k)
  found : ∀ k x, LetThrough tr k x → ∃ e, s.seen k = some e ∧ e.first.x = x

lemma LetThrough.mono {tr' : List (Event π κ)} {k x : String} (h : LetThrough tr k x) :
    LetThrough (tr ++ tr') k x := by
  obtain ⟨a, v, answer, hmem, hrest⟩ := h
  exact ⟨a, v, answer, List.mem_append_left _ hmem, hrest⟩

lemma SlashedFor.mono {tr' : List (Event π κ)} {k : String} (h : SlashedFor tr k) :
    SlashedFor (tr ++ tr') k := by
  obtain ⟨a, v, answer, c, hmem, hrest⟩ := h
  exact ⟨a, v, answer, c, List.mem_append_left _ hmem, hrest⟩

lemma letThrough_snoc {a : Arrival π κ} {v : Verified} {answer : Admission} {k x : String} :
    LetThrough (tr ++ [.admitted a v answer]) k x ↔
      LetThrough tr k x ∨ (v.nullifier = k ∧ v.share.x = x ∧ answer.ok = true) := by
  constructor
  · rintro ⟨a', v', answer', hmem, hrest⟩
    rcases List.mem_append.mp hmem with hmem | hmem
    · exact .inl ⟨a', v', answer', hmem, hrest⟩
    · obtain ⟨rfl, rfl, rfl⟩ : a' = a ∧ v' = v ∧ answer' = answer := by simpa using hmem
      exact .inr hrest
  · rintro (h | h)
    · exact h.mono
    · exact ⟨a, v, answer, by simp, h⟩

lemma letThrough_swept {now : ℤ} {k x : String} :
    LetThrough (tr ++ [.swept now]) k x ↔ LetThrough tr k x := by
  refine ⟨?_, LetThrough.mono⟩
  rintro ⟨a, v, answer, hmem, hrest⟩
  rcases List.mem_append.mp hmem with hmem | hmem
  · exact ⟨a, v, answer, hmem, hrest⟩
  · simp at hmem

lemma epochStart_le {now : ℤ} (h : currentEpoch R now = epoch) : epochStart R epoch ≤ now := by
  have hpos : (0 : ℤ) < 1000 * R.epochSeconds := by have := R.epochSeconds_pos; omega
  rw [← h]
  exact Int.ediv_mul_le now hpos.ne'

/-- A sweep that runs before the proofs of the epoch expire finds none of its entries too old. -/
lemma sweep_seen (htr : Tracks R epoch tr s) {now : ℤ} (hnow : currentEpoch R now ≤ epoch + 1) :
    (sweep (ttlMs R) now s).seen = s.seen := by
  have hpos : (0 : ℤ) < 1000 * R.epochSeconds := by have := R.epochSeconds_pos; omega
  have hlt : now < (epoch + 2) * (1000 * R.epochSeconds) := by
    have hdiv : now / (1000 * R.epochSeconds) < epoch + 2 := by unfold currentEpoch at hnow; omega
    exact (Int.ediv_lt_iff_lt_mul hpos).mp hdiv
  funext k
  unfold sweep
  cases hk : s.seen k with
  | none => simp [hk]
  | some e =>
    obtain ⟨-, -, hat, -⟩ := htr.stored k e hk
    have hold : now - ttlMs R ≤ e.recordedAt := by
      unfold ttlMs
      unfold epochStart at hat
      rw [add_mul] at hlt
      omega
    simp only [hk, Option.filter_some, hold, decide_true, if_true]

/-- One step keeps the entries in line with the trace. -/
lemma Tracks.step {ev : Event π κ} (htr : Tracks R epoch tr s) (hst : AdmitStep R S epoch s ev t) :
    Tracks R epoch (tr ++ [ev]) t := by
  cases hst with
  | swept hnow =>
    have hseen := sweep_seen htr hnow
    refine ⟨fun k e he => ?_, fun k x hk => ?_⟩
    · rw [hseen] at he
      obtain ⟨hlet, hxs, hat, hsl⟩ := htr.stored k e he
      exact ⟨hlet.mono, hxs, hat, fun h => (hsl h).mono⟩
    · rw [hseen]
      exact htr.found k x (letThrough_swept.mp hk)
  | @admitted _ a v answer hv hep hle had =>
    have hstart : epochStart R epoch ≤ a.admittedAt := (epochStart_le hep).trans hle
    have hkeep : ∀ k e, s.seen k = some e → LetThrough (tr ++ [.admitted a v answer]) k e.first.x ∧
        e.xs = [e.first.x] ∧ epochStart R epoch ≤ e.recordedAt ∧
        (e.slashed = true → SlashedFor (tr ++ [.admitted a v answer]) k) := by
      intro k e he
      obtain ⟨hlet, hxs, hat, hsl⟩ := htr.stored k e he
      exact ⟨hlet.mono, hxs, hat, fun h => (hsl h).mono⟩
    rcases admit_spec had with hnone | ⟨seenEnv, hnone⟩ | ⟨e, he, hsl⟩ | ⟨e, _, he, hx, _⟩ | ⟨e, c, he, hx⟩
    · refine ⟨hkeep, fun k x hk => ?_⟩
      rcases letThrough_snoc.mp hk with hk | ⟨-, -, hok⟩
      · exact htr.found k x hk
      · cases hok
    · refine ⟨fun k e he => ?_, fun k x hk => ?_⟩
      · by_cases hkn : k = v.nullifier
        · subst hkn
          obtain rfl : (⟨[v.share.x], v.share, false, a.admittedAt⟩ : SpentEntry) = e := by
            simpa using he
          exact ⟨letThrough_snoc.mpr (.inr ⟨rfl, rfl, rfl⟩), rfl, hstart, by simp⟩
        · have hold : s.seen k = some e := by simpa [hkn] using he
          exact hkeep k e hold
      · rcases letThrough_snoc.mp hk with hk | ⟨rfl, rfl, -⟩
        · obtain ⟨e, he, hex⟩ := htr.found k x hk
          have hkn : k ≠ v.nullifier := by
            rintro rfl
            rw [hnone] at he
            cases he
          exact ⟨e, by simp [hkn, he], hex⟩
        · exact ⟨_, Function.update_self .., rfl⟩
    · refine ⟨hkeep, fun k x hk => ?_⟩
      rcases letThrough_snoc.mp hk with hk | ⟨-, -, hok⟩
      · exact htr.found k x hk
      · cases hok
    · refine ⟨hkeep, fun k x hk => ?_⟩
      rcases letThrough_snoc.mp hk with hk | ⟨rfl, rfl, -⟩
      · exact htr.found k x hk
      · rw [(htr.stored _ e he).2.1, List.mem_singleton] at hx
        exact ⟨e, he, hx.symm⟩
    · refine ⟨fun k e' he' => ?_, fun k x hk => ?_⟩
      · by_cases hkn : k = v.nullifier
        · subst hkn
          obtain rfl : { e with slashed := true } = e' := by simpa using he'
          obtain ⟨hlet, hxs, hat, -⟩ := hkeep _ e he
          exact ⟨hlet, hxs, hat, fun _ => ⟨a, v, ⟨false, .slash c⟩, c, by simp, rfl, rfl⟩⟩
        · have hold : s.seen k = some e' := by simpa [hkn] using he'
          exact hkeep k e' hold
      · rcases letThrough_snoc.mp hk with hk | ⟨-, -, hok⟩
        · obtain ⟨e', he', hex⟩ := htr.found k x hk
          by_cases hkn : k = v.nullifier
          · subst hkn
            obtain rfl := Option.some.inj (he.symm.trans he')
            exact ⟨_, Function.update_self .., hex⟩
          · exact ⟨e', by simp [hkn, he'], hex⟩
        · cases hok

lemma run_tracks (h : Run (AdmitStep R S epoch) .empty tr s) : Tracks R epoch tr s := by
  refine h.invariant (I := Tracks R epoch) ⟨?_, ?_⟩ ?_
  · intro k e he
    cases he
  · rintro k x ⟨a, v, answer, hmem, -⟩
    cases hmem
  · intro tr t ev u _ htr hst
    exact htr.step hst

/-! ### The limit over runs -/

/-- Where the limit held so far, the answer to the next envelope keeps it exactly under the condition. -/
lemma limited_iff (htr : Tracks R epoch tr s) (hone : OneXPerElement tr) {v : Verified} {now : ℤ}
    {answer : Admission} (had : Admits s v.nullifier v.share now t answer) :
    Limited tr v answer ↔ SpelledAsStored s v := by
  constructor
  · intro hlim k e he hsame hne
    obtain ⟨hlet, -⟩ := htr.stored k e he
    obtain ⟨hok, hact⟩ := hlim k _ hlet hsame hne
    cases had with
    | fleet hnone => rcases hact with ⟨c, hc⟩ | ⟨hc, -⟩ <;> cases hc
    | first _ hnone => cases hok
    | slashed e' he' hsl => simp [he']
    | again e' _ he' hx hns => simp [he']
    | slash e' c he' hx => simp [he']
  · intro hsp k x hlet hsame hne
    obtain ⟨e, he, rfl⟩ := htr.found k x hlet
    obtain ⟨e', he'⟩ := Option.isSome_iff_exists.mp (hsp k e he hsame hne)
    -- the entry of the string has the `x` of every other entry of the element
    have hx : e.first.x = e'.first.x := hone _ _ _ _ hlet (htr.stored _ e' he').1 hsame
    cases had with
    | fleet hnone => simp [hnone] at he'
    | first _ hnone => simp [hnone] at he'
    | slashed e₁ he₁ hsl =>
      have hself : SameElement v.nullifier v.nullifier := ⟨hsame.symm.1, rfl⟩
      exact ⟨rfl, .inr ⟨rfl, _, hself, (htr.stored _ e₁ he₁).2.2.2 hsl⟩⟩
    | again e₁ _ he₁ hmem hns =>
      obtain rfl := Option.some.inj (he'.symm.trans he₁)
      rw [(htr.stored _ e' he').2.1, List.mem_singleton] at hmem
      exact absurd (hx.trans hmem.symm) hne
    | slash e₁ c he₁ hmem => exact ⟨rfl, .inl ⟨c, rfl⟩⟩

lemma OneXPerElement.snoc (hone : OneXPerElement tr) {a : Arrival π κ} {v : Verified} {answer : Admission}
    (hlim : Limited tr v answer) : OneXPerElement (tr ++ [.admitted a v answer]) := by
  intro n n' x x' h h' hsame
  rcases letThrough_snoc.mp h with h | ⟨rfl, rfl, hok⟩
  · rcases letThrough_snoc.mp h' with h' | ⟨rfl, rfl, hok⟩
    · exact hone n n' x x' h h' hsame
    · by_contra hne
      have href := (hlim n x h hsame hne).1
      simp [hok] at href
  · rcases letThrough_snoc.mp h' with h' | ⟨rfl, rfl, -⟩
    · by_contra hne
      have href := (hlim n' x' h' hsame.symm (Ne.symm hne)).1
      simp [hok] at href
    · rfl

/-- The condition, on the state before a step and the event. -/
def MeetsSpelling (s : SpentSet) : Event π κ → Prop
  | .admitted _ v _ => SpelledAsStored s v
  | .swept _ => True

lemma run_oneX (h : Run (Restrict (AdmitStep R S epoch) MeetsSpelling) .empty tr s) :
    OneXPerElement tr := by
  refine h.invariant (I := fun tr _ => OneXPerElement tr) ?_ ?_
  · rintro n n' x x' ⟨a, v, answer, hmem, -⟩
    cases hmem
  · rintro tr t ev u hrun hone ⟨hC, hst⟩
    have htr := run_tracks hrun.forget
    cases hst with
    | swept hnow =>
      intro n n' x x' h h' hsame
      exact hone n n' x x' (letThrough_swept.mp h) (letThrough_swept.mp h') hsame
    | admitted hv hep hle had => exact hone.snoc ((limited_iff htr hone (admit_spec had)).mpr hC)

/-- **The rate limit for each field element.** Over every run whose envelopes meet the condition one `x` at
most is let through for a nullifier taken as a field element, and every other `x` is refused with a slash;
and the next envelope after such a run is answered so exactly if it meets the condition. -/
theorem admit_rate_limited (R : Rln π κ) (S : SpentConfig) (epoch : ℤ) {tr : List (Event π κ)}
    {s : SpentSet} (hrun : Run (Restrict (AdmitStep R S epoch) MeetsSpelling) .empty tr s) :
    OneXPerElement tr ∧
    (∀ tr₁ a v answer tr₂, tr = tr₁ ++ .admitted a v answer :: tr₂ → Limited tr₁ v answer) ∧
    (∀ a v answer t, AdmitStep R S epoch s (.admitted a v answer) t →
      (Limited tr v answer ↔ SpelledAsStored s v)) := by
  have hnext : ∀ {tr s}, Run (Restrict (AdmitStep R S epoch) MeetsSpelling) .empty tr s →
      ∀ a v answer t, AdmitStep R S epoch s (.admitted a v answer) t →
        (Limited tr v answer ↔ SpelledAsStored s v) := by
    rintro tr s hrun a v answer t ⟨hv, hep, hle, had⟩
    exact limited_iff (run_tracks hrun.forget) (run_oneX hrun) (admit_spec had)
  refine ⟨run_oneX hrun, ?_, hnext hrun⟩
  rintro tr₁ a v answer tr₂ rfl
  obtain ⟨t, hrun₁, hrun₂⟩ := hrun.split
  obtain ⟨u, ⟨hC, hst⟩, -⟩ := hrun₂.uncons
  exact (hnext hrun₁ a v answer u hst).mpr hC

/-- What the tally asks of a nullifier is enough: where every envelope of the run spells its nullifier
canonically, every step meets the condition. -/
theorem canonical_oneX (h : Run (Restrict (AdmitStep R S epoch) fun _ ev =>
      ∀ a v answer, ev = .admitted a v answer → canonicalTallyField v.nullifier = some v.nullifier)
    .empty tr s) : OneXPerElement tr := by
  have hcanon : (∀ k x, LetThrough tr k x → canonicalTallyField k = some k) ∧ OneXPerElement tr := by
    refine h.invariant (I := fun tr _ => (∀ k x, LetThrough tr k x → canonicalTallyField k = some k) ∧
      OneXPerElement tr) ?_ ?_
    · constructor
      · rintro k x ⟨a, v, answer, hmem, -⟩
        cases hmem
      · rintro n n' x x' ⟨a, v, answer, hmem, -⟩
        cases hmem
    rintro tr t ev u hrun ⟨hlet, hone⟩ ⟨hC, hst⟩
    have htr := run_tracks hrun.forget
    cases hst with
    | swept hnow =>
      refine ⟨fun k x hk => hlet k x (letThrough_swept.mp hk), fun n n' x x' hn hn' hsame => ?_⟩
      exact hone n n' x x' (letThrough_swept.mp hn) (letThrough_swept.mp hn') hsame
    | @admitted _ a v answer hv hep hle had =>
      have hv := hC a v answer rfl
      have hsp : SpelledAsStored t v := by
        intro k e he hsame hne
        obtain rfl := canonicalTallyField_inj (hlet k _ (htr.stored k e he).1) hv hsame
        simp [he]
      refine ⟨fun k x hk => ?_, hone.snoc ((limited_iff htr hone (admit_spec had)).mpr hsp)⟩
      rcases letThrough_snoc.mp hk with hk | ⟨rfl, -, -⟩
      · exact hlet k x hk
      · exact hv
  exact hcanon.2

end Tracking

/-! ### One slot, two spellings -/

/-- A deployment with the external nullifier as the package computes it, the hashes of two signals, and a
verifier that accepts the proofs of one slot of a member. -/
def oneSlotRln : Rln Unit Unit where
  epochSeconds := 120
  epochSeconds_pos := by decide
  rlnIdentifier := 1
  calculateExternalNullifier := Contracts.PoseidonT3.hash
  calculateSignalHash signal :=
    if signal = requestSignal "example.com:443" "n1" then
      86915455183957658210373061237190014077351079440883365454214385267811116819
    else if signal = requestSignal "example.com:443" "n2" then
      254278212717891595107181950364396382442257083276735425693686970222137880107
    else 0
  verifyProof _ ps _ _ _ :=
    .ok (ps.nullifier == some 7853200120776062878684798364095072458815029376092732009249414926327459813530)

def unsubmitted : SpentConfig := ⟨5000, fun _ _ => none⟩

def builtinArtifact : ArtifactSet Unit := ⟨[("rln-0123456789abcdef", ())], "rln-0123456789abcdef"⟩

def decimalNullifier : String :=
  "7853200120776062878684798364095072458815029376092732009249414926327459813530"

def hexNullifier : String := "0x115cc0f5e7d690413df64c6b9662e9cf2a3617f2743245519e19607a4417189a"

/-- The `x` of the slot's signal under a nonce. -/
def slotX (nonce : String) : String :=
  toString (oneSlotRln.calculateSignalHash (requestSignal "example.com:443" nonce))

/-- The slot's envelope for a nonce, its nullifier spelled as given, arriving in the epoch 14166667. -/
def slotArrival (nullifier nonce : String) : Arrival Unit Unit where
  envelope := some
    ⟨some ⟨⟨slotX nonce, "1", "2", nullifier, toString (externalNullifierFor oneSlotRln 14166667)⟩, (),
      "14166667", none⟩, none, .text "example.com:443", .text nonce, .absent⟩
  recentRoots := ["2"]
  artifacts := builtinArtifact
  verifiedAt := 1700000040000
  admittedAt := 1700000040000
  peerHas := false

def slotVerified (nullifier nonce : String) : Verified :=
  ⟨nullifier, toString (externalNullifierFor oneSlotRln 14166667), ⟨slotX nonce, "1"⟩,
    "rln-0123456789abcdef"⟩

def slotShown (nullifier nonce : String) (answer : Admission) : Event Unit Unit :=
  .admitted (slotArrival nullifier nonce) (slotVerified nullifier nonce) answer

lemma slot_verifies {nullifier nonce : String} (hnonce : nonce = "n1" ∨ nonce = "n2")
    (hn : denotedInteger nullifier =
      some 7853200120776062878684798364095072458815029376092732009249414926327459813530) :
    verifyEnvelope oneSlotRln (slotArrival nullifier nonce).envelope (slotArrival nullifier nonce).recentRoots
      (slotArrival nullifier nonce).verifiedAt (slotArrival nullifier nonce).artifacts =
        .ok (slotVerified nullifier nonce) := by
  have hepoch : currentEpoch oneSlotRln 1700000040000 = 14166667 := by decide
  have hfields : ∀ env : Envelope Unit, env.nonce = .text nonce → env.target = .text "example.com:443" →
      signalFields env = .ok ("example.com:443", nonce) := by
    rintro ⟨proof, share, target, field, artifact⟩ rfl rfl
    rcases hnonce with rfl | rfl <;> rfl
  have hart : resolveArtifact .absent builtinArtifact = .ok ("rln-0123456789abcdef", ()) := by rfl
  have hproof : ∀ ps : PublicSignals, ps.nullifier = nullifier →
      oneSlotRln.verifyProof () ps.integers () "14166667" "1" = .ok true := by
    rintro ps rfl
    simp [oneSlotRln, PublicSignals.integers, hn]
  have hid : toString oneSlotRln.rlnIdentifier = "1" := by decide
  have hx : toString (oneSlotRln.calculateSignalHash (requestSignal "example.com:443" nonce)) =
      slotX nonce := rfl
  simp only [verifyEnvelope, slotArrival, hepoch, Option.getD_none, List.any_cons, beq_self_eq_true,
    Bool.true_or, if_true, List.mem_singleton, hfields, hart, bind, Except.bind, hx, hid, hproof]
  rfl

lemma slot_step {nullifier nonce : String} {s t : SpentSet} {answer : Admission}
    (hnonce : nonce = "n1" ∨ nonce = "n2")
    (hn : denotedInteger nullifier =
      some 7853200120776062878684798364095072458815029376092732009249414926327459813530)
    (had : admitShare unsubmitted s nullifier (some ⟨slotX nonce, "1"⟩) (some nonce) false 1700000040000 =
      (t, answer)) :
    AdmitStep oneSlotRln unsubmitted 14166667 s (slotShown nullifier nonce answer) t := by
  refine .admitted (slot_verifies hnonce hn) ?_ le_rfl had
  show currentEpoch oneSlotRln 1700000040000 = 14166667
  decide

lemma admit_first (nullifier : String) (share : Share) (nonce : Option String) {s : SpentSet}
    (h : s.seen nullifier = none) :
    ∃ t, admitShare unsubmitted s nullifier (some share) nonce false 1700000040000 = (t, ⟨true, .first⟩) ∧
      t.seen = Function.update s.seen nullifier (some ⟨[share.x], share, false, 1700000040000⟩) := by
  simp [admitShare, h]

lemma denotedInteger_decimal : denotedInteger decimalNullifier =
    some 7853200120776062878684798364095072458815029376092732009249414926327459813530 := by
  decide

lemma denotedInteger_hex : denotedInteger hexNullifier =
    some 7853200120776062878684798364095072458815029376092732009249414926327459813530 := by
  decide

lemma slotX_ne : slotX "n1" ≠ slotX "n2" := by decide

/-- The same slot shown under the decimal and the hexadecimal spelling of its nullifier, with two signals,
is let through twice. -/
theorem admit_lets_two_spellings_through :
    ¬ ∀ tr s, Run (AdmitStep oneSlotRln unsubmitted 14166667) .empty tr s → OneXPerElement tr := by
  intro h
  obtain ⟨s₁, had₁, hs₁⟩ := admit_first decimalNullifier ⟨slotX "n1", "1"⟩ (some "n1") (s := .empty) rfl
  have hfree : s₁.seen hexNullifier = none := by
    rw [hs₁, Function.update_of_ne (by decide)]
    rfl
  obtain ⟨s₂, had₂, -⟩ := admit_first hexNullifier ⟨slotX "n2", "1"⟩ (some "n2") hfree
  have hrun := (Run.single (slot_step (.inl rfl) denotedInteger_decimal had₁)).snoc
    (slot_step (.inr rfl) denotedInteger_hex had₂)
  have hsame : SameElement decimalNullifier hexNullifier := by
    simp [SameElement, fieldElement, denotedInteger_decimal, denotedInteger_hex]
  have hone := h _ _ hrun _ _ (slotX "n1") (slotX "n2") ⟨_, _, _, List.mem_cons_self, rfl, rfl, rfl⟩
    ⟨_, _, _, List.mem_cons_of_mem _ List.mem_cons_self, rfl, rfl, rfl⟩ hsame
  exact slotX_ne hone

/-- The slot shown twice under one spelling: one `x` is let through and the other slashed. -/
theorem admit_rate_limited_one_spelling :
    ∃ tr s, Run (AdmitStep oneSlotRln unsubmitted 14166667) .empty tr s ∧ OneXPerElement tr ∧
      slotShown decimalNullifier "n2" ⟨false, .slash none⟩ ∈ tr := by
  obtain ⟨s₁, had₁, hs₁⟩ := admit_first decimalNullifier ⟨slotX "n1", "1"⟩ (some "n1") (s := .empty) rfl
  have hheld : s₁.seen decimalNullifier =
      some ⟨[slotX "n1"], ⟨slotX "n1", "1"⟩, false, 1700000040000⟩ := by
    rw [hs₁, Function.update_self]
  obtain ⟨s₂, had₂⟩ : ∃ t, admitShare unsubmitted s₁ decimalNullifier (some ⟨slotX "n2", "1"⟩) (some "n2")
      false 1700000040000 = (t, ⟨false, .slash none⟩) := by
    simp [admitShare, hheld, slotX_ne.symm, unsubmitted]
  have hrun : Run (Restrict (AdmitStep oneSlotRln unsubmitted 14166667) MeetsSpelling) .empty
      ([] ++ [slotShown decimalNullifier "n1" ⟨true, .first⟩] ++
        [slotShown decimalNullifier "n2" ⟨false, .slash none⟩]) s₂ := by
    refine (Run.nil.snoc ⟨?_, slot_step (.inl rfl) denotedInteger_decimal had₁⟩).snoc
      ⟨?_, slot_step (.inr rfl) denotedInteger_decimal had₂⟩
    · intro k e he hsame hne
      exact Option.isSome_iff_exists.mpr ⟨_, hheld⟩
    · intro k e he
      cases he
  exact ⟨_, s₂, hrun.forget, (admit_rate_limited oneSlotRln unsubmitted 14166667 hrun).1, by simp⟩

end ShadeTree.Gateway
