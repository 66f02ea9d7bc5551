import ShadeTree.Gateway.SpentSet

/-!
# The spent set across epochs

The spent set over every sequence of admissions and sweeps, of any epochs, under a clock that does not go
back.  Three time rules meet here: an entry is swept two epochs after it was recorded, a proof is accepted
in its epoch and in the next one, and an identical share is let through again inside the replay window.

A nullifier is a hash of the external nullifier of its epoch, so it belongs to one epoch; which one is a
parameter of the runs.  What the tally of the fleet answers and what the call is given are arbitrary.
-/

namespace ShadeTree.Gateway

open ShadeTree.Lib

variable {π κ : Type}

/-- A proof of `epoch` is accepted at `now`: the epoch is the current one or the one before. -/
def AcceptsEpoch (R : Rln π κ) (now epoch : ℤ) : Prop :=
  epoch = currentEpoch R now ∨ epoch = currentEpoch R now - 1

/-- The scope of an envelope that verifies is the one of an accepted epoch. -/
lemma verifyEnvelope_epoch {R : Rln π κ} {env : Option (Envelope π)} {recentRoots : List String} {now : ℤ}
    {artifacts : ArtifactSet κ} {v : Verified} (h : verifyEnvelope R env recentRoots now artifacts = .ok v) :
    ∃ epoch, AcceptsEpoch R now epoch ∧
      v.externalNullifier = toString (externalNullifierFor R epoch) := by
  unfold verifyEnvelope at h
  simp only [bind, Except.bind] at h
  cases env with
  | none => cases h
  | some env =>
  cases hproof : env.proof with
  | none => simp [hproof] at h
  | some proof =>
  simp only [hproof] at h
  split at h
  · next hwindow =>
    -- the checks after the window leave the scope as the proof shows it
    have hscope : v.externalNullifier = proof.publicSignals.externalNullifier := by
      repeat' split at h
      all_goals first | exact congrArg Verified.externalNullifier (Except.ok.inj h).symm | cases h
    obtain ⟨epoch, hmem, heq⟩ := List.any_eq_true.mp hwindow
    refine ⟨epoch, ?_, ?_⟩
    · simpa [AcceptsEpoch] using hmem
    · rw [hscope]
      exact (beq_iff_eq.mp heq).symm
  · cases h

/-- A call on the spent set; an admission is shown with its answer. -/
inductive SpentCall where
  | admitted (now : ℤ) (nullifier : String) (share : Option Share) (nonce : Option String)
      (answer : Admission)
  | sweep (now : ℤ)

/-- The spent set and the time of its last call. -/
structure TimedSpentSet where
  clock : ℤ
  spent : SpentSet

section Steps

variable (R : Rln π κ) (S : SpentConfig) (epochOf : String → ℤ)

/-- The steps of the spent set: an admission under a canonical nullifier whose epoch is accepted, or a sweep
at any time. -/
inductive SpentStep : TimedSpentSet → SpentCall → TimedSpentSet → Prop where
  | admitted {s : TimedSpentSet} {now : ℤ} {nullifier : String} {share : Option Share} {nonce : Option String}
      {peerHas : Bool} {t : SpentSet} {answer : Admission} :
      s.clock ≤ now → canonicalTallyField nullifier = some nullifier →
      AcceptsEpoch R now (epochOf nullifier) →
      admitShare S s.spent nullifier share nonce peerHas now = (t, answer) →
      SpentStep s (.admitted now nullifier share nonce answer) ⟨now, t⟩
  | sweep {s : TimedSpentSet} {now : ℤ} :
      s.clock ≤ now → SpentStep s (.sweep now) ⟨now, sweep (ttlMs R) now s.spent⟩

end Steps

/-! ### What a run shows -/

/-- `x` was let through under the nullifier. -/
def LetPass (tr : List SpentCall) (nullifier x : String) : Prop :=
  ∃ now share nonce answer, SpentCall.admitted now nullifier (some share) nonce answer ∈ tr ∧
    share.x = x ∧ answer.ok = true

/-- The share was recorded for the nullifier at this time. -/
def FirstSeen (tr : List SpentCall) (nullifier : String) (share : Share) (nonce : Option String)
    (recordedAt : ℤ) : Prop :=
  SpentCall.admitted recordedAt nullifier (some share) nonce ⟨true, .first⟩ ∈ tr

/-- The gateway slashed for the nullifier. -/
def Slashed (tr : List SpentCall) (nullifier : String) : Prop :=
  ∃ now share nonce answer c, SpentCall.admitted now nullifier share nonce answer ∈ tr ∧
    answer.action = .slash c

/-- What the answer to a call owes to the calls before it: the gateway slashes once for a nullifier, for
two shares of distinct `x`, and lets an `x` through again only inside the replay window. -/
def Answers (S : SpentConfig) (tr : List SpentCall) : SpentCall → Prop
  | .sweep _ => True
  | .admitted now nullifier share _ answer =>
    (∀ c, answer.action = .slash c → ¬ Slashed tr nullifier ∧
      ∃ first nonce recordedAt second, FirstSeen tr nullifier first nonce recordedAt ∧ share = some second ∧
        first.x ≠ second.x ∧ c = S.leaf first second) ∧
    ∀ again, share = some again → answer.ok = true → LetPass tr nullifier again.x →
      ∃ first nonce recordedAt, FirstSeen tr nullifier first nonce recordedAt ∧ first.x = again.x ∧
        now - recordedAt ≤ S.replayWindowMs

/-! ### The epochs and the clock -/

section Window

variable {R : Rln π κ} {now epoch : ℤ}

lemma epochStart_add (R : Rln π κ) (epoch : ℤ) : epochStart R (epoch + 2) = epochStart R epoch + ttlMs R := by
  unfold epochStart ttlMs
  ring

/-- A proof is accepted from the start of its epoch until two epochs later. -/
lemma AcceptsEpoch.window (h : AcceptsEpoch R now epoch) :
    epochStart R epoch ≤ now ∧ now < epochStart R (epoch + 2) := by
  have hpos : (0 : ℤ) < 1000 * R.epochSeconds := by have := R.epochSeconds_pos; omega
  have hcur : epoch ≤ now / (1000 * R.epochSeconds) ∧ now / (1000 * R.epochSeconds) < epoch + 2 := by
    unfold AcceptsEpoch currentEpoch at h
    omega
  constructor
  · exact (Int.le_ediv_iff_mul_le hpos).mp hcur.1
  · exact (Int.ediv_lt_iff_lt_mul hpos).mp hcur.2

end Window

/-! ### The fingerprints -/

/-- Two lists cut at the first occurrence of a separator. -/
lemma append_sep_inj {α : Type*} {sep : α} {l l' r r' : List α} (hl : sep ∉ l) (hl' : sep ∉ l')
    (h : l ++ sep :: r = l' ++ sep :: r') : l = l' ∧ r = r' := by
  induction l generalizing l' with
  | nil =>
    cases l' with
    | nil => exact ⟨rfl, (List.cons.inj h).2⟩
    | cons a l' =>
      obtain ⟨rfl, -⟩ := List.cons.inj h
      exact absurd List.mem_cons_self hl'
  | cons a l ih =>
    cases l' with
    | nil =>
      obtain ⟨rfl, -⟩ := List.cons.inj h
      exact absurd List.mem_cons_self hl
    | cons a' l' =>
      obtain ⟨rfl, htl⟩ := List.cons.inj h
      obtain ⟨rfl, hr⟩ := ih (fun hm => hl (List.mem_cons_of_mem _ hm))
        (fun hm => hl' (List.mem_cons_of_mem _ hm)) htl
      exact ⟨rfl, hr⟩

lemma canonical_no_bar {s : String} (h : canonicalTallyField s = some s) : '|' ∉ s.toList := by
  have hread : isCanonicalDecimal s = true ∧ ∃ m, denotedInteger s = some m := by
    unfold canonicalTallyField at h
    split at h
    · next hc =>
      cases hm : denotedInteger s with
      | none => simp [hm] at hc
      | some m => exact ⟨hc.1, m, rfl⟩
    · cases h
  obtain ⟨hc, m, hm⟩ := hread
  intro hbar
  rcases canonical_digits hc hm with ⟨hs, -⟩ | ⟨ds, hds, -, -⟩
  · simp [hs] at hbar
  · have hmem : decimalDigit '|' ∈ ds.map some := hds ▸ List.mem_map_of_mem hbar
    obtain ⟨d, -, hd⟩ := List.mem_map.mp hmem
    have hnone : decimalDigit '|' = none := by decide
    rw [hnone] at hd
    cases hd

/-- The fingerprint of an envelope names its nullifier. -/
lemma envKeyOf_nullifier {n n' : String} {share share' : Share} {nonce nonce' : Option String}
    (hn : canonicalTallyField n = some n) (hn' : canonicalTallyField n' = some n')
    (h : envKeyOf n share nonce = envKeyOf n' share' nonce') : n = n' := by
  have hlist : n.toList ++ '|' :: (share.x ++ "|" ++ nonce.getD "").toList =
      n'.toList ++ '|' :: (share'.x ++ "|" ++ nonce'.getD "").toList := by
    have := congrArg String.toList h
    simpa [envKeyOf] using this
  exact String.toList_inj.mp (append_sep_inj (canonical_no_bar hn) (canonical_no_bar hn') hlist).1

/-! ### What the spent set remembers -/

section Memory

variable {R : Rln π κ} {S : SpentConfig} {epochOf : String → ℤ} {s u : TimedSpentSet}
  {tr : List SpentCall} {c : SpentCall}

lemma letPass_snoc {n x : String} : LetPass (tr ++ [c]) n x ↔ LetPass tr n x ∨ LetPass [c] n x := by
  constructor
  · rintro ⟨now, share, nonce, answer, hmem, hrest⟩
    rcases List.mem_append.mp hmem with hmem | hmem
    · exact .inl ⟨now, share, nonce, answer, hmem, hrest⟩
    · exact .inr ⟨now, share, nonce, answer, hmem, hrest⟩
  · rintro (⟨now, share, nonce, answer, hmem, hrest⟩ | ⟨now, share, nonce, answer, hmem, hrest⟩)
    · exact ⟨now, share, nonce, answer, List.mem_append_left _ hmem, hrest⟩
    · exact ⟨now, share, nonce, answer, List.mem_append_right _ hmem, hrest⟩

lemma slashed_snoc {n : String} : Slashed (tr ++ [c]) n ↔ Slashed tr n ∨ Slashed [c] n := by
  constructor
  · rintro ⟨now, share, nonce, answer, l, hmem, hrest⟩
    rcases List.mem_append.mp hmem with hmem | hmem
    · exact .inl ⟨now, share, nonce, answer, l, hmem, hrest⟩
    · exact .inr ⟨now, share, nonce, answer, l, hmem, hrest⟩
  · rintro (⟨now, share, nonce, answer, l, hmem, hrest⟩ | ⟨now, share, nonce, answer, l, hmem, hrest⟩)
    · exact ⟨now, share, nonce, answer, l, List.mem_append_left _ hmem, hrest⟩
    · exact ⟨now, share, nonce, answer, l, List.mem_append_right _ hmem, hrest⟩

lemma firstSeen_snoc {n : String} {share : Share} {nonce : Option String} {t : ℤ} :
    FirstSeen (tr ++ [c]) n share nonce t ↔ FirstSeen tr n share nonce t ∨ FirstSeen [c] n share nonce t :=
  List.mem_append

/-- The entries are the shares recorded, and they last as long as the proofs of their epoch. -/
structure Remembers (R : Rln π κ) (epochOf : String → ℤ) (tr : List SpentCall) (s : TimedSpentSet) :
    Prop where
  held : ∀ n e, s.spent.seen n = some e →
    (∃ nonce, FirstSeen tr n e.first nonce e.recordedAt) ∧ e.xs = [e.first.x] ∧
      (Slashed tr n → e.slashed = true)
  kept : ∀ n share nonce t, FirstSeen tr n share nonce t → s.clock < epochStart R (epochOf n + 2) →
    ∃ e, s.spent.seen n = some e ∧ e.first = share ∧ e.recordedAt = t
  once : ∀ n share share' nonce nonce' t t', FirstSeen tr n share nonce t →
    FirstSeen tr n share' nonce' t' → share = share' ∧ t = t'
  started : ∀ n share nonce t, FirstSeen tr n share nonce t →
    canonicalTallyField n = some n ∧ epochStart R (epochOf n) ≤ t
  fingerprint : ∀ ek t, s.spent.seenEnv ek = some t →
    ∃ n share nonce, FirstSeen tr n share nonce t ∧ ek = envKeyOf n share nonce
  through : ∀ n x, LetPass tr n x → ∃ share nonce t, FirstSeen tr n share nonce t ∧ share.x = x
  slashed : ∀ n, Slashed tr n → ∃ share nonce t, FirstSeen tr n share nonce t

lemma Remembers.init (start : ℤ) : Remembers R epochOf [] ⟨start, .empty⟩ where
  held := fun n e h => by cases h
  kept := fun n share nonce t h => by cases h
  once := fun n share share' nonce nonce' t t' h => by cases h
  started := fun n share nonce t h => by cases h
  fingerprint := fun ek t h => by cases h
  through := fun n x ⟨_, _, _, _, h, _⟩ => by cases h
  slashed := fun n ⟨_, _, _, _, _, h, _⟩ => by cases h

/-- A call that records no share keeps the memory if it drops no live entry and makes none. -/
lemma Remembers.keep (h : Remembers R epochOf tr s) (hclock : s.clock ≤ u.clock)
    (hfirst : ∀ n share nonce t, ¬ FirstSeen [c] n share nonce t)
    (hseen : ∀ n e', u.spent.seen n = some e' → ∃ e, s.spent.seen n = some e ∧ e'.first = e.first ∧
      e'.recordedAt = e.recordedAt ∧ e'.xs = e.xs ∧ (e.slashed = true ∨ Slashed [c] n → e'.slashed = true))
    (hkeep : ∀ n e, s.spent.seen n = some e → epochStart R (epochOf n) ≤ e.recordedAt →
      u.clock < epochStart R (epochOf n + 2) →
      ∃ e', u.spent.seen n = some e' ∧ e'.first = e.first ∧ e'.recordedAt = e.recordedAt)
    (henv : ∀ ek t, u.spent.seenEnv ek = some t → s.spent.seenEnv ek = some t)
    (hpass : ∀ n x, LetPass [c] n x → ∃ e, s.spent.seen n = some e ∧ x ∈ e.xs)
    (hslash : ∀ n, Slashed [c] n → ∃ e, s.spent.seen n = some e) :
    Remembers R epochOf (tr ++ [c]) u := by
  have hold : ∀ {n share nonce t}, FirstSeen (tr ++ [c]) n share nonce t → FirstSeen tr n share nonce t := by
    intro n share nonce t hf
    rcases firstSeen_snoc.mp hf with hf | hf
    · exact hf
    · exact absurd hf (hfirst n share nonce t)
  have hnew : ∀ {n share nonce t}, FirstSeen tr n share nonce t → FirstSeen (tr ++ [c]) n share nonce t :=
    fun hf => firstSeen_snoc.mpr (.inl hf)
  refine ⟨?_, ?_, ?_, ?_, ?_, ?_, ?_⟩
  · intro n e' he'
    obtain ⟨e, he, hf, ht, hxs, hsl⟩ := hseen n e' he'
    obtain ⟨⟨nonce, hfs⟩, hx, hslashed⟩ := h.held n e he
    rw [hf, ht, hxs]
    refine ⟨⟨nonce, hnew hfs⟩, hx, fun hs => ?_⟩
    rcases slashed_snoc.mp hs with hs | hs
    · exact hsl (.inl (hslashed hs))
    · exact hsl (.inr hs)
  · intro n share nonce t hf hlt
    obtain ⟨e, he, rfl, rfl⟩ := h.kept n share nonce t (hold hf) (by omega)
    exact hkeep n e he (h.started n _ _ _ (hold hf)).2 hlt
  · intro n share share' nonce nonce' t t' hf hf'
    exact h.once n share share' nonce nonce' t t' (hold hf) (hold hf')
  · intro n share nonce t hf
    exact h.started n share nonce t (hold hf)
  · intro ek t hek
    obtain ⟨n, share, nonce, hf, rfl⟩ := h.fingerprint ek t (henv ek t hek)
    exact ⟨n, share, nonce, hnew hf, rfl⟩
  · intro n x hp
    rcases letPass_snoc.mp hp with hp | hp
    · obtain ⟨share, nonce, t, hf, hx⟩ := h.through n x hp
      exact ⟨share, nonce, t, hnew hf, hx⟩
    · obtain ⟨e, he, hx⟩ := hpass n x hp
      obtain ⟨⟨nonce, hf⟩, hxs, -⟩ := h.held n e he
      rw [hxs, List.mem_singleton] at hx
      exact ⟨e.first, nonce, e.recordedAt, hnew hf, hx.symm⟩
  · intro n hs
    rcases slashed_snoc.mp hs with hs | hs
    · obtain ⟨share, nonce, t, hf⟩ := h.slashed n hs
      exact ⟨share, nonce, t, hnew hf⟩
    · obtain ⟨e, he⟩ := hslash n hs
      obtain ⟨⟨nonce, hf⟩, -⟩ := h.held n e he
      exact ⟨e.first, nonce, e.recordedAt, hnew hf⟩

/-- A call that changes no entry and shows no `ok` and no slash keeps the memory. -/
lemma Remembers.quiet (h : Remembers R epochOf tr s) {now : ℤ} (hclock : s.clock ≤ now) {n : String}
    {share : Option Share} {nonce : Option String} {answer : Admission} (hok : answer.ok = false)
    (hact : ∀ l, answer.action ≠ .slash l) :
    Remembers R epochOf (tr ++ [.admitted now n share nonce answer]) ⟨now, s.spent⟩ := by
  have hpass : ∀ n' x, ¬ LetPass [.admitted now n share nonce answer] n' x := by
    rintro n' x ⟨now', share', nonce', answer', hmem, -, hok'⟩
    obtain ⟨-, -, -, -, rfl⟩ := by simpa using hmem
    rw [hok] at hok'
    cases hok'
  have hslash : ∀ n', ¬ Slashed [.admitted now n share nonce answer] n' := by
    rintro n' ⟨now', share', nonce', answer', l, hmem, hl⟩
    obtain ⟨-, -, -, -, rfl⟩ := by simpa using hmem
    exact hact l hl
  refine h.keep hclock ?_ ?_ ?_ (fun ek t ht => ht) ?_ ?_
  · intro n' share' nonce' t hf
    exact hpass n' share'.x ⟨t, share', nonce', _, hf, rfl, rfl⟩
  · intro n' e he
    refine ⟨e, he, rfl, rfl, rfl, ?_⟩
    rintro (hs | hs)
    · exact hs
    · exact absurd hs (hslash n')
  · intro n' e he _ _
    exact ⟨e, he, rfl, rfl⟩
  · intro n' x hp
    exact absurd hp (hpass n' x)
  · intro n' hs
    exact absurd hs (hslash n')

/-- A share recorded for a nullifier of an accepted epoch is remembered from then on. -/
lemma Remembers.first (h : Remembers R epochOf tr s) {now : ℤ} (hclock : s.clock ≤ now) {n : String}
    {share : Share} {nonce : Option String} (hcanon : canonicalTallyField n = some n)
    (hepoch : AcceptsEpoch R now (epochOf n)) (hnone : s.spent.seen n = none) :
    Remembers R epochOf (tr ++ [.admitted now n (some share) nonce ⟨true, .first⟩])
      ⟨now, ⟨Function.update s.spent.seen n (some ⟨[share.x], share, false, now⟩),
        Function.update s.spent.seenEnv (envKeyOf n share nonce) (some now)⟩⟩ := by
  obtain ⟨hstart, hend⟩ := hepoch.window
  have hfresh : ∀ share' nonce' t, ¬ FirstSeen tr n share' nonce' t := by
    intro share' nonce' t hf
    obtain ⟨e, he, -⟩ := h.kept n share' nonce' t hf (by omega)
    rw [hnone] at he
    cases he
  have hsnoc : ∀ {n' share' nonce' t},
      FirstSeen (tr ++ [.admitted now n (some share) nonce ⟨true, .first⟩]) n' share' nonce' t ↔
        FirstSeen tr n' share' nonce' t ∨ (t = now ∧ n' = n ∧ share' = share ∧ nonce' = nonce) := by
    intro n' share' nonce' t
    rw [firstSeen_snoc]
    simp [FirstSeen]
  have hself : FirstSeen (tr ++ [.admitted now n (some share) nonce ⟨true, .first⟩]) n share nonce now :=
    hsnoc.mpr (.inr ⟨rfl, rfl, rfl, rfl⟩)
  have hslashed : ∀ {n'}, Slashed (tr ++ [.admitted now n (some share) nonce ⟨true, .first⟩]) n' →
      Slashed tr n' := by
    intro n' hs
    rcases slashed_snoc.mp hs with hs | ⟨now', share', nonce', answer', l, hmem, hl⟩
    · exact hs
    · obtain ⟨-, -, -, -, rfl⟩ := by simpa using hmem
      cases hl
  refine ⟨?_, ?_, ?_, ?_, ?_, ?_, ?_⟩
  · intro n' e he
    by_cases hn : n' = n
    · subst hn
      obtain rfl : (⟨[share.x], share, false, now⟩ : SpentEntry) = e := by simpa using he
      refine ⟨⟨nonce, hself⟩, rfl, fun hs => ?_⟩
      obtain ⟨share', nonce', t, hf⟩ := h.slashed n' (hslashed hs)
      exact absurd hf (hfresh share' nonce' t)
    · have hold : s.spent.seen n' = some e := by simpa [hn] using he
      obtain ⟨⟨nonce', hf⟩, hxs, hsl⟩ := h.held n' e hold
      exact ⟨⟨nonce', hsnoc.mpr (.inl hf)⟩, hxs, fun hs => hsl (hslashed hs)⟩
  · intro n' share' nonce' t hf hlt
    rcases hsnoc.mp hf with hold | ⟨rfl, rfl, rfl, rfl⟩
    · have hn : n' ≠ n := by
        rintro rfl
        exact hfresh share' nonce' t hold
      obtain ⟨e, he, hfirst, hat⟩ := h.kept n' share' nonce' t hold (lt_of_le_of_lt hclock hlt)
      exact ⟨e, by simp [hn, he], hfirst, hat⟩
    · exact ⟨_, Function.update_self .., rfl, rfl⟩
  · intro n' share₁ share₂ nonce₁ nonce₂ t₁ t₂ hf₁ hf₂
    rcases hsnoc.mp hf₁ with hold₁ | ⟨rfl, rfl, rfl, rfl⟩
    · rcases hsnoc.mp hf₂ with hold₂ | ⟨rfl, rfl, rfl, rfl⟩
      · exact h.once n' share₁ share₂ nonce₁ nonce₂ t₁ t₂ hold₁ hold₂
      · exact absurd hold₁ (hfresh share₁ nonce₁ t₁)
    · rcases hsnoc.mp hf₂ with hold₂ | ⟨rfl, -, rfl, -⟩
      · exact absurd hold₂ (hfresh share₂ nonce₂ t₂)
      · exact ⟨rfl, rfl⟩
  · intro n' share' nonce' t hf
    rcases hsnoc.mp hf with hf | ⟨rfl, rfl, rfl, rfl⟩
    · exact h.started n' share' nonce' t hf
    · exact ⟨hcanon, hstart⟩
  · intro ek t hek
    by_cases hk : ek = envKeyOf n share nonce
    · obtain rfl : now = t := by simpa [hk] using hek
      exact ⟨n, share, nonce, hself, hk⟩
    · have hold : s.spent.seenEnv ek = some t := by simpa [hk] using hek
      obtain ⟨n', share', nonce', hf, rfl⟩ := h.fingerprint ek t hold
      exact ⟨n', share', nonce', hsnoc.mpr (.inl hf), rfl⟩
  · intro n' x hp
    rcases letPass_snoc.mp hp with hp | ⟨now', share', nonce', answer', hmem, rfl, -⟩
    · obtain ⟨share', nonce', t, hf, hx⟩ := h.through n' x hp
      exact ⟨share', nonce', t, hsnoc.mpr (.inl hf), hx⟩
    · obtain ⟨rfl, rfl, rfl, rfl, rfl⟩ := by simpa using hmem
      exact ⟨share', nonce', now', hself, rfl⟩
  · intro n' hs
    obtain ⟨share', nonce', t, hf⟩ := h.slashed n' (hslashed hs)
    exact ⟨share', nonce', t, hsnoc.mpr (.inl hf)⟩

/-- One call keeps the memory. -/
lemma Remembers.step (h : Remembers R epochOf tr s) (hst : SpentStep R S epochOf s c u) :
    Remembers R epochOf (tr ++ [c]) u := by
  cases hst with
  | @sweep now hclock =>
    have hmem : ∀ {call : SpentCall}, call ∈ [SpentCall.sweep now] → call = .sweep now := List.mem_singleton.mp
    refine h.keep hclock ?_ ?_ ?_ ?_ ?_ ?_
    · intro n share nonce t hf
      cases hmem hf
    · intro n e' he'
      obtain ⟨he, -⟩ := Option.filter_eq_some_iff.mp he'
      refine ⟨e', he, rfl, rfl, rfl, ?_⟩
      rintro (hs | ⟨_, _, _, _, _, hs, _⟩)
      · exact hs
      · cases hmem hs
    · -- a sweep before the proofs of the epoch expire finds the entry too young
      intro n e he hstart hlt
      have hyoung : now - ttlMs R ≤ e.recordedAt := by
        have hlt' : now < epochStart R (epochOf n) + ttlMs R := by rw [← epochStart_add]; exact hlt
        omega
      exact ⟨e, Option.filter_eq_some_iff.mpr ⟨he, decide_eq_true hyoung⟩, rfl, rfl⟩
    · intro ek t ht
      exact (Option.filter_eq_some_iff.mp ht).1
    · rintro n x ⟨_, _, _, _, hp, _⟩
      cases hmem hp
    · rintro n ⟨_, _, _, _, _, hs, _⟩
      cases hmem hs
  | @admitted now n share nonce peerHas t answer hclock hcanon hepoch had =>
    cases share with
    | none =>
      obtain ⟨rfl, rfl⟩ := Prod.mk.inj had
      exact h.quiet hclock rfl (by simp)
    | some share =>
    cases admit_outcome had with
    | fleet hnone hpeer => exact h.quiet hclock rfl (by simp)
    | first hnone hpeer => exact h.first hclock hcanon hepoch hnone
    | slashed e he hsl => exact h.quiet hclock rfl (by simp)
    | late e he hx => exact h.quiet hclock rfl (by simp)
    | replay e firstAt he hx hat hwindow =>
      refine h.keep hclock ?_ ?_ ?_ (fun ek t ht => ht) ?_ ?_
      · intro n' share' nonce' t hf
        simp [FirstSeen] at hf
      · intro n' e' he'
        refine ⟨e', he', rfl, rfl, rfl, ?_⟩
        rintro (hs | ⟨_, _, _, _, l, hs, hl⟩)
        · exact hs
        · obtain ⟨-, -, -, -, rfl⟩ := by simpa using hs
          cases hl
      · intro n' e' he' _ _
        exact ⟨e', he', rfl, rfl⟩
      · rintro n' x ⟨now', share', nonce', answer', hmem, rfl, -⟩
        obtain ⟨rfl, rfl, rfl, rfl, rfl⟩ := by simpa using hmem
        exact ⟨e, he, hx⟩
      · rintro n' ⟨_, _, _, _, l, hs, hl⟩
        obtain ⟨-, -, -, -, rfl⟩ := by simpa using hs
        cases hl
    | slash e he hsl hx =>
      have hslashed : ∀ n', Slashed [.admitted now n (some share) nonce ⟨false, .slash (S.leaf e.first share)⟩] n' →
          n' = n := by
        rintro n' ⟨_, _, _, _, l, hs, -⟩
        obtain ⟨-, hn, -⟩ := by simpa using hs
        exact hn
      refine h.keep hclock ?_ ?_ ?_ (fun ek t ht => ht) ?_ ?_
      · intro n' share' nonce' t hf
        simp [FirstSeen] at hf
      · intro n' e' he'
        by_cases hn : n' = n
        · subst hn
          obtain rfl : { e with slashed := true } = e' := by simpa using he'
          exact ⟨e, he, rfl, rfl, rfl, fun _ => rfl⟩
        · refine ⟨e', by simpa [hn] using he', rfl, rfl, rfl, ?_⟩
          rintro (hs | hs)
          · exact hs
          · exact absurd (hslashed n' hs) hn
      · intro n' e' he' _ _
        by_cases hn : n' = n
        · subst hn
          obtain rfl := Option.some.inj (he.symm.trans he')
          exact ⟨_, Function.update_self .., rfl, rfl⟩
        · exact ⟨e', by simp [hn, he'], rfl, rfl⟩
      · rintro n' x ⟨_, _, _, _, hmem, -, hok⟩
        obtain ⟨-, -, -, -, rfl⟩ := by simpa using hmem
        cases hok
      · intro n' hs
        obtain rfl := hslashed n' hs
        exact ⟨e, he⟩

lemma run_remembers {start : ℤ} (h : Run (SpentStep R S epochOf) ⟨start, .empty⟩ tr s) :
    Remembers R epochOf tr s :=
  h.invariant (I := Remembers R epochOf) (.init start) fun _ _ _ _ _ hr hst => hr.step hst

/-! ### The laws -/

/-- The next call is answered as the calls before it ask. -/
lemma Remembers.answers (h : Remembers R epochOf tr s) (hst : SpentStep R S epochOf s c u) :
    Answers S tr c := by
  cases hst with
  | sweep => trivial
  | @admitted now n share nonce peerHas t answer hclock hcanon hepoch had =>
    have hlive : s.clock < epochStart R (epochOf n + 2) := lt_of_le_of_lt hclock hepoch.window.2
    cases share with
    | none =>
      obtain ⟨rfl, rfl⟩ := Prod.mk.inj had
      refine ⟨fun l hl => ?_, fun again hs => ?_⟩
      · cases hl
      · cases hs
    | some share =>
    constructor
    · intro l hl
      cases admit_outcome had with
      | slash e he hsl hx =>
        obtain ⟨⟨nonce', hf⟩, hxs, hslashed⟩ := h.held n e he
        rw [hxs, List.mem_singleton] at hx
        refine ⟨fun hs => ?_, e.first, nonce', e.recordedAt, share, hf, rfl, Ne.symm hx, ?_⟩
        · rw [hslashed hs] at hsl
          cases hsl
        · exact (Action.slash.inj hl).symm
      | _ => cases hl
    · intro again hshare hok hp
      obtain rfl := Option.some.inj hshare
      obtain ⟨first, nonce', t₀, hf, hx⟩ := h.through n share.x hp
      cases admit_outcome had with
      | first hnone hpeer =>
        obtain ⟨e, he, -⟩ := h.kept n first nonce' t₀ hf hlive
        rw [hnone] at he
        cases he
      | replay e firstAt he hmem hat hwindow =>
        -- the fingerprint was recorded for this nullifier, so at its first admission
        obtain ⟨n', share', nonce₁, hf', hek⟩ := h.fingerprint _ _ hat
        obtain rfl := envKeyOf_nullifier hcanon (h.started n' _ _ _ hf').1 hek
        obtain ⟨rfl, rfl⟩ := h.once n first share' nonce' nonce₁ t₀ firstAt hf hf'
        exact ⟨first, nonce', t₀, hf, hx, hwindow⟩
      | _ => cases hok

end Memory

/-- **The spent set across epochs.** Over every sequence of admissions and sweeps, a nullifier let through is
held as long as a proof of its epoch can be accepted, one `x` at most is let through for it, and every call
is answered as the calls before it ask. -/
theorem spent_while_acceptable (R : Rln π κ) (S : SpentConfig) (epochOf : String → ℤ) {start : ℤ}
    {tr : List SpentCall} {s : TimedSpentSet} (h : Run (SpentStep R S epochOf) ⟨start, .empty⟩ tr s) :
    (∀ n x now, LetPass tr n x → s.clock ≤ now → AcceptsEpoch R now (epochOf n) →
      (s.spent.seen n).isSome) ∧
    (∀ n n' x x', LetPass tr n x → LetPass tr n' x' → SameElement n n' → x = x') ∧
    ∀ tr₁ c tr₂, tr = tr₁ ++ c :: tr₂ → Answers S tr₁ c := by
  have hr := run_remembers h
  refine ⟨?_, ?_, ?_⟩
  · intro n x now hp hclock hepoch
    obtain ⟨share, nonce, t, hf, -⟩ := hr.through n x hp
    obtain ⟨e, he, -⟩ := hr.kept n share nonce t hf (lt_of_le_of_lt hclock hepoch.window.2)
    simp [he]
  · intro n n' x x' hp hp' hsame
    obtain ⟨share, nonce, t, hf, rfl⟩ := hr.through n x hp
    obtain ⟨share', nonce', t', hf', rfl⟩ := hr.through n' x' hp'
    obtain rfl := canonicalTallyField_inj (hr.started n _ _ _ hf).1 (hr.started n' _ _ _ hf').1 hsame
    exact congrArg Share.x (hr.once n share share' nonce nonce' t t' hf hf').1
  · exact h.every_label fun tr₁ t e u hrun hst => (run_remembers hrun).answers hst

/-- A deployment whose slashes name a leaf. -/
def slashingConfig : SpentConfig := ⟨5000, fun first second => some (first.y ++ second.y)⟩

/-- A nullifier of the epoch 0 recorded at its first millisecond, let through again at the end of the replay
window, kept by a sweep in the last millisecond in which its proofs are accepted, and slashed then. -/
theorem spent_while_acceptable_boundary :
    ∃ tr s, Run (SpentStep oneSlotRln slashingConfig fun _ => 0) ⟨0, .empty⟩ tr s ∧
      (s.spent.seen "7").isSome ∧
      SpentCall.admitted 5000 "7" (some ⟨"1", "a"⟩) (some "k") ⟨true, .replay⟩ ∈ tr ∧
      SpentCall.admitted 239999 "7" (some ⟨"2", "b"⟩) (some "l") ⟨false, .slash (some "ab")⟩ ∈ tr ∧
      ∀ tr₁ c tr₂, tr = tr₁ ++ c :: tr₂ → Answers slashingConfig tr₁ c := by
  have hcanon : canonicalTallyField "7" = some "7" := by decide
  have hadm : ∀ (now : ℤ) (share : Share) (nonce : String) (answer : Admission) {s : TimedSpentSet},
      s.clock ≤ now → AcceptsEpoch oneSlotRln now 0 →
      (admitShare slashingConfig s.spent "7" (some share) (some nonce) false now).2 = answer →
      SpentStep oneSlotRln slashingConfig (fun _ => 0) s (.admitted now "7" (some share) (some nonce) answer)
        ⟨now, (admitShare slashingConfig s.spent "7" (some share) (some nonce) false now).1⟩ :=
    fun now share nonce answer s hclock hepoch hanswer =>
      .admitted hclock hcanon hepoch (Prod.ext rfl hanswer)
  have hsweep : ∀ (now : ℤ) {s : TimedSpentSet}, s.clock ≤ now →
      SpentStep oneSlotRln slashingConfig (fun _ => 0) s (.sweep now)
        ⟨now, sweep (ttlMs oneSlotRln) now s.spent⟩ := fun now s hclock => .sweep hclock
  have hrun := (((Run.single (hadm 0 ⟨"1", "a"⟩ "k" ⟨true, .first⟩ (s := ⟨0, .empty⟩) le_rfl
    (.inl (by decide)) rfl)).snoc
    (hadm 5000 ⟨"1", "a"⟩ "k" ⟨true, .replay⟩ (by decide) (.inl (by decide)) rfl)).snoc
    (hsweep 239999 (by decide))).snoc
    (hadm 239999 ⟨"2", "b"⟩ "l" ⟨false, .slash (some "ab")⟩ le_rfl (.inr (by decide)) rfl)
  obtain ⟨hkept, -, hanswers⟩ := spent_while_acceptable oneSlotRln slashingConfig (fun _ => 0) hrun
  refine ⟨_, _, hrun, ?_, ?_, ?_, hanswers⟩
  · exact hkept "7" "1" 239999 ⟨0, ⟨"1", "a"⟩, some "k", _, List.mem_cons_self, rfl, rfl⟩ le_rfl
      (.inr (by decide))
  · exact List.mem_cons_of_mem _ List.mem_cons_self
  · exact List.mem_append_right _ List.mem_cons_self

end ShadeTree.Gateway
