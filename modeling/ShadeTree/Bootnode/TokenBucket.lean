import ShadeTree.Bootnode.Calls
import ShadeTree.Lib.Potential

/-!
# The bucket before the signature checks (`makeAnnounceBucket` and `announce` in `bootnode/server.mjs`)

A live announce that passes the cheap checks takes a token, and only with a token does it reach `verifyAnnounce`.  The
bucket fills with the time of its clock, which may also go back; it fills only when the clock passes the latest time
that the bucket has seen.
-/

namespace ShadeTree.Bootnode

open ShadeTree.Lib

/-! ### What a take does -/

namespace Bucket

variable {C : RegistryConfig} {t : ℚ} {b : Bucket}

/-- The tokens of the bucket, less what the time up to its last refill brings. -/
def potential (C : RegistryConfig) (b : Bucket) : ℚ := max 0 b.tokens - max 0 C.announceRate * b.last

lemma refill_last : (b.refill C t).last = max b.last t := by
  unfold refill
  split
  · next hlt => exact (max_eq_right hlt.le).symm
  · next hle => exact (max_eq_left (not_lt.mp hle)).symm

lemma refill_tokens_le (h : b.tokens ≤ C.announceBurst) : (b.refill C t).tokens ≤ C.announceBurst := by
  unfold refill
  split
  · exact min_le_left _ _
  · exact h

lemma refill_potential : (b.refill C t).potential C ≤ b.potential C := by
  unfold refill
  split
  swap
  · exact le_rfl
  next hlt =>
  unfold potential
  dsimp only
  have hgain : (t - b.last) * C.announceRate ≤ (t - b.last) * max 0 C.announceRate :=
    mul_le_mul_of_nonneg_left (le_max_right _ _) (sub_nonneg.mpr hlt.le)
  have hrate : 0 ≤ (t - b.last) * max 0 C.announceRate := mul_nonneg (sub_nonneg.mpr hlt.le) (le_max_left _ _)
  have htokens : max 0 (min C.announceBurst (b.tokens + (t - b.last) * C.announceRate)) ≤
      max 0 b.tokens + (t - b.last) * max 0 C.announceRate := by
    refine max_le (add_nonneg (le_max_left _ _) hrate) ((min_le_right _ _).trans ?_)
    exact add_le_add (le_max_right _ _) hgain
  linarith

/-- A take that is let through has paid a token; one that is not leaves less than one. -/
lemma take_cases (hlimited : 0 < C.announceRate ∨ 0 < C.announceBurst) :
    (b.take C t = ({ b.refill C t with tokens := (b.refill C t).tokens - 1 }, true) ∧ 1 ≤ (b.refill C t).tokens) ∨
      b.take C t = (b.refill C t, false) ∧ (b.refill C t).tokens < 1 := by
  have henabled : ¬ (¬ 0 < C.announceRate ∧ ¬ 0 < C.announceBurst) := by tauto
  unfold take
  rw [if_neg henabled]
  dsimp only
  by_cases htokens : (b.refill C t).tokens < 1
  · rw [if_pos htokens]
    exact .inr ⟨rfl, htokens⟩
  · rw [if_neg htokens]
    exact .inl ⟨rfl, not_lt.mp htokens⟩

lemma take_last (hlimited : 0 < C.announceRate ∨ 0 < C.announceBurst) : (b.take C t).1.last = max b.last t := by
  rcases take_cases hlimited with ⟨h, -⟩ | ⟨h, -⟩ <;> rw [h]
  · exact refill_last
  · exact refill_last

/-- What is let through is paid for. -/
lemma take_potential (hlimited : 0 < C.announceRate ∨ 0 < C.announceBurst) :
    ((b.take C t).2.toNat : ℚ) + (b.take C t).1.potential C ≤ b.potential C := by
  refine le_trans ?_ (refill_potential (t := t))
  rcases take_cases (t := t) (b := b) hlimited with ⟨h, htokens⟩ | ⟨h, -⟩
  · rw [h]
    have hpos : (0 : ℚ) ≤ (b.refill C t).tokens - 1 := sub_nonneg.mpr htokens
    unfold potential
    dsimp only
    rw [max_eq_right hpos, max_eq_right (zero_le_one.trans htokens), Bool.toNat_true, Nat.cast_one]
    linarith
  · rw [h, Bool.toNat_false, Nat.cast_zero, zero_add]

lemma take_tokens_le (hlimited : 0 < C.announceRate ∨ 0 < C.announceBurst) (h : b.tokens ≤ C.announceBurst) :
    (b.take C t).1.tokens ≤ C.announceBurst := by
  have hrefill : (b.refill C t).tokens ≤ C.announceBurst := refill_tokens_le h
  rcases take_cases (t := t) (b := b) hlimited with ⟨htake, -⟩ | ⟨htake, -⟩
  · rw [htake]
    exact (sub_le_self _ zero_le_one).trans hrefill
  · rwa [htake]

/-- The tokens after a take, with the one that was paid. -/
lemma take_paid_le (hlimited : 0 < C.announceRate ∨ 0 < C.announceBurst) (h : b.tokens ≤ C.announceBurst) :
    ((b.take C t).2.toNat : ℚ) + max 0 (b.take C t).1.tokens ≤ max 0 C.announceBurst := by
  have hrefill : (b.refill C t).tokens ≤ C.announceBurst := refill_tokens_le h
  rcases take_cases (t := t) (b := b) hlimited with ⟨htake, htokens⟩ | ⟨htake, -⟩
  · rw [htake, Bool.toNat_true, Nat.cast_one]
    dsimp only
    rw [max_eq_right (sub_nonneg.mpr htokens), add_sub_cancel]
    exact hrefill.trans (le_max_right _ _)
  · rw [htake, Bool.toNat_false, Nat.cast_zero, zero_add]
    exact max_le_max le_rfl hrefill

/-- After the time that a refused take is told there is a token. -/
lemma take_after_wait {t' : ℚ} (hrate : 0 < C.announceRate) (hburst : 1 ≤ C.announceBurst) (hlast : b.last ≤ t)
    (hrefused : (b.take C t).2 = false) (hwait : t + ((b.take C t).1.retryAfterSec C : ℤ) ≤ t') :
    ((b.take C t).1.take C t').2 = true := by
  rcases take_cases (t := t) (b := b) (.inl hrate) with ⟨h, -⟩ | ⟨h, htokens⟩
  · rw [h] at hrefused
    cases hrefused
  rw [h] at hwait ⊢
  dsimp only at hwait ⊢
  have hseen : (b.refill C t).last = t := by rw [refill_last, max_eq_right hlast]
  have hsec : (b.refill C t).retryAfterSec C = max 1 ⌈(1 - (b.refill C t).tokens) / C.announceRate⌉ := if_pos hrate
  generalize b.refill C t = r at *
  -- the advertised delay brings what is missing to one token
  have hdelay : (1 - r.tokens) / C.announceRate ≤ t' - r.last := by
    have hceil : ((⌈(1 - r.tokens) / C.announceRate⌉ : ℤ) : ℚ) ≤ (r.retryAfterSec C : ℤ) := by
      rw [hsec]
      exact_mod_cast le_max_right _ _
    have hle := Int.le_ceil ((1 - r.tokens) / C.announceRate)
    linarith
  have hgain : 1 ≤ r.tokens + (t' - r.last) * C.announceRate := by
    have hmul := (div_le_iff₀ hrate).mp hdelay
    linarith
  have hlater : r.last < t' := by
    have hone : ((1 : ℤ) : ℚ) ≤ (r.retryAfterSec C : ℤ) := by
      rw [hsec]
      exact_mod_cast le_max_left _ _
    have : (1 : ℚ) ≤ (r.retryAfterSec C : ℤ) := by exact_mod_cast hone
    linarith
  have hrefill : r.refill C t' = ⟨min C.announceBurst (r.tokens + (t' - r.last) * C.announceRate), t'⟩ := if_pos hlater
  have hfull : 1 ≤ (r.refill C t').tokens := by
    rw [hrefill]
    exact le_min hburst hgain
  rcases take_cases (t := t') (b := r) (.inl hrate) with ⟨h', -⟩ | ⟨h', hless⟩
  · rw [h']
  · exact absurd hless (not_lt.mpr hfull)

end Bucket

/-! ### What a call does to the bucket -/

/-- The refusals of `announce` itself, before the record is verified. -/
def Refusal.ofGate : Refusal → Bool
  | .rateLimited | .registryFull | .globalRateLimited _ => true
  | _ => false

/-- A cheap check refused, and the bucket was not asked. -/
def Refusal.cheap : Refusal → Bool
  | .rateLimited | .registryFull => true
  | _ => false

/-- What a live announce was answered. -/
def Event.announced {T : Type} {K : Keys} : Event T K → Option (Except Refusal (Call K))
  | .began _ .live _ answer => some answer
  | _ => none

/-- A live announce that the bucket was asked for. -/
def Event.charged {T : Type} {K : Keys} (e : Event T K) : Bool :=
  e.announced.any fun answer => match answer with
    | .error why => !why.cheap
    | .ok _ => true

/-- A live announce that reached `verifyAnnounce`. -/
def Event.reached {T : Type} {K : Keys} (e : Event T K) : Bool :=
  e.announced.any fun answer => match answer with
    | .error why => !why.ofGate
    | .ok _ => true

lemma Refusal.ofGate_of_cheap {why : Refusal} (h : why.cheap = true) : why.ofGate = true := by
  cases why <;> first | rfl | cases h

/-- An answer that the gate did not give. -/
lemma Event.reached_of_error {T : Type} {K : Keys} {t : T} {record : Option Record} {answer : Except Refusal (Call K)}
    (h : ∀ why, answer = .error why → why.ofGate = false) :
    (Event.began t .live record answer).charged = true ∧ (Event.began t .live record answer).reached = true := by
  cases answer with
  | ok call => exact ⟨rfl, rfl⟩
  | error why =>
    have hgate := h why rfl
    have hcheap : why.cheap = false := by
      by_contra hc
      rw [Refusal.ofGate_of_cheap (Bool.not_eq_false _ ▸ hc)] at hgate
      cases hgate
    constructor
    · simp [Event.charged, Event.announced, hcheap]
    · simp [Event.reached, Event.announced, hgate]

lemma verifyHead_notGate {K : Keys} {now skew : ℚ} {seen : String → Bool} {record : Option Record} {why : Refusal}
    (h : verifyHead K now skew seen record = .error why) : why.ofGate = false := by
  cases record with
  | none =>
    obtain rfl := Except.error.inj h
    rfl
  | some record =>
  change verifyRecord K now skew seen record = .error why at h
  unfold verifyRecord at h
  split at h
  · obtain rfl := Except.error.inj h
    rfl
  split at h
  · obtain rfl := Except.error.inj h
    rfl
  split at h
  · obtain rfl := Except.error.inj h
    rfl
  split at h
  · obtain rfl := Except.error.inj h
    rfl
  split at h
  · obtain rfl := Except.error.inj h
    rfl
  split at h
  · obtain rfl := Except.error.inj h
    rfl
  split at h
  swap
  · obtain rfl := Except.error.inj h
    rfl
  cases hcaps : verifyCaps K _ record with
  | ok caps =>
    rw [hcaps] at h
    cases h
  | error refused =>
    rw [hcaps] at h
    obtain rfl := Except.error.inj h
    unfold verifyCaps at hcaps
    split at hcaps
    · cases hcaps
    split at hcaps
    · obtain rfl := Except.error.inj hcaps
      rfl
    · cases hcaps

namespace Registry

variable {K : Keys} {C : RegistryConfig} {clock : ℤ} {source : Source} {record : Option Record} {r r' : Registry K}
  {c : Checked K} {call : Call K} {answer : Except Refusal (Call K)}

lemma makeRoom_bucket {listed : Bool} : (r.makeRoom C clock listed).1.bucket = r.bucket := by
  unfold makeRoom
  split <;> rfl

lemma addNonce_bucket : (r.addNonce clock source c).bucket = r.bucket := by
  cases source <;> rfl

lemma finish_bucket {operator : Option String} {staked : Bool}
    (h : r.finish C clock source c operator staked = (r', answer)) :
    r'.bucket = r.bucket ∧ ∀ why, answer = .error why → why.ofGate = false := by
  unfold finish at h
  split at h
  · obtain ⟨rfl, rfl⟩ := Prod.mk.inj h
    refine ⟨rfl, fun why hwhy => ?_⟩
    obtain rfl := Except.error.inj hwhy
    rfl
  · obtain ⟨rfl, rfl⟩ := Prod.mk.inj h
    exact ⟨addNonce_bucket, nofun⟩

/-- A live announce is refused cheaply, or the bucket is asked and its answer is heeded. -/
lemma announceHead_bucket {head : Except Refusal (Checked K)}
    (h : r.announceHead C clock .live record = (r', head)) :
    (∃ why, head = .error why ∧ why.cheap = true ∧ r'.bucket = r.bucket) ∨
      r'.bucket = (r.bucket.take C (now clock)).1 ∧
        ((r.bucket.take C (now clock)).2 = true ∧ (∀ why, head = .error why → why.ofGate = false) ∨
          (r.bucket.take C (now clock)).2 = false ∧
            head = .error (.globalRateLimited (r'.bucket.retryAfterSec C))) := by
  unfold announceHead at h
  dsimp only at h
  split at h
  · obtain ⟨rfl, rfl⟩ := Prod.mk.inj h
    exact .inl ⟨_, rfl, rfl, rfl⟩
  split at h
  · obtain ⟨rfl, rfl⟩ := Prod.mk.inj h
    exact .inl ⟨_, rfl, rfl, makeRoom_bucket⟩
  right
  simp only [charge, makeRoom_bucket] at h
  split at h
  · next htaken =>
    obtain ⟨rfl, rfl⟩ := Prod.mk.inj h
    exact ⟨rfl, .inr ⟨by simpa using htaken, rfl⟩⟩
  · next htaken =>
    obtain ⟨rfl, rfl⟩ := Prod.mk.inj h
    exact ⟨rfl, .inl ⟨by simpa using htaken, fun why hwhy => verifyHead_notGate hwhy⟩⟩

lemma begin_live_bucket (h : r.begin C clock .live record = (r', answer)) :
    (∃ why, answer = .error why ∧ why.cheap = true ∧ r'.bucket = r.bucket) ∨
      r'.bucket = (r.bucket.take C (now clock)).1 ∧
        ((r.bucket.take C (now clock)).2 = true ∧ (∀ why, answer = .error why → why.ofGate = false) ∨
          (r.bucket.take C (now clock)).2 = false ∧
            answer = .error (.globalRateLimited (r'.bucket.retryAfterSec C))) := by
  rcases hheaded : r.announceHead C clock .live record with ⟨r₁, head⟩
  have hhead := announceHead_bucket hheaded
  have hsame : r.head C clock .live record = (r₁, head) := hheaded
  unfold begin at h
  rw [hsame] at h
  dsimp only at h
  cases head with
  | error why =>
    obtain ⟨rfl, rfl⟩ := Prod.mk.inj h
    rcases hhead with ⟨why', hwhy, hcheap, hbucket⟩ | ⟨hbucket, ⟨htaken, herror⟩ | ⟨htaken, hglobal⟩⟩
    · obtain rfl := Except.error.inj hwhy
      exact .inl ⟨why, rfl, hcheap, hbucket⟩
    · refine .inr ⟨hbucket, .inl ⟨htaken, fun why' hwhy => ?_⟩⟩
      obtain rfl := Except.error.inj hwhy
      exact herror why rfl
    · obtain rfl := Except.error.inj hglobal
      exact .inr ⟨hbucket, .inr ⟨htaken, rfl⟩⟩
  | ok c =>
    rcases hhead with ⟨why, hwhy, -⟩ | ⟨hbucket, ⟨htaken, -⟩ | ⟨-, hglobal⟩⟩
    · cases hwhy
    swap
    · cases hglobal
    dsimp only at h
    split at h
    · obtain ⟨rfl, rfl⟩ := Prod.mk.inj h
      exact .inr ⟨hbucket, .inl ⟨htaken, nofun⟩⟩
    · obtain ⟨hfinish, herror⟩ := finish_bucket h
      exact .inr ⟨hfinish.trans hbucket, .inl ⟨htaken, herror⟩⟩

/-- What was handed in by a peer or read from the file is not charged. -/
lemma begin_bucket (hsource : source ≠ .live) (h : r.begin C clock source record = (r', answer)) :
    r'.bucket = r.bucket := by
  have hhead : (r.head C clock source record).1.bucket = r.bucket := by
    cases source with
    | live => exact absurd rfl hsource
    | gossip =>
      show (r.gossipHead C clock record).1.bucket = r.bucket
      unfold gossipHead
      dsimp only
      split
      · rfl
      · rfl
      split
      · rfl
      split
      · rfl
      split
      · exact makeRoom_bucket
      · exact makeRoom_bucket
    | store x =>
      show (r.announceHead C clock (.store x) record).1.bucket = r.bucket
      unfold announceHead
      dsimp only
      split
      · rfl
      split
      · exact makeRoom_bucket
      split
      · exact makeRoom_bucket
      · exact makeRoom_bucket
  unfold begin at h
  dsimp only at h
  split at h
  · obtain ⟨rfl, rfl⟩ := Prod.mk.inj h
    exact hhead
  split at h
  · obtain ⟨rfl, rfl⟩ := Prod.mk.inj h
    exact hhead
  · exact (finish_bucket h).1.trans hhead

lemma resume_bucket {told : Answer} (h : r.resume C clock call told = some (r', answer)) : r'.bucket = r.bucket := by
  obtain ⟨-, ⟨-, -, rfl⟩ | ⟨-, -, rfl⟩ | ⟨-, -, -, rfl⟩⟩ := resume_cases h
  · rfl
  · rfl
  · exact addNonce_bucket

end Registry

section Runs

variable {T : Type} [DecidableEq T] {K : Keys} {C : RegistryConfig} {s u : System T K} {e : Event T K}

/-- **What a step does to the bucket.** A live announce that passes the cheap checks takes, and goes on when it may;
every other step leaves the bucket. -/
theorem Step.bucket (h : Step C s e u) :
    (e.charged = false ∧ e.reached = false ∧ u.registry.bucket = s.registry.bucket) ∨
      (e.charged = true ∧ e.reached = (s.registry.bucket.take C (now s.clock)).2 ∧
        u.registry.bucket = (s.registry.bucket.take C (now s.clock)).1) ∧
        ∀ t record k, e = .began t .live record (.error (.globalRateLimited k)) →
          k = u.registry.bucket.retryAfterSec C := by
  cases h with
  | tick hclock => exact .inl ⟨rfl, rfl, rfl⟩
  | sweep => exact .inl ⟨rfl, rfl, rfl⟩
  | announce hidle hdone hbegun =>
    rcases Registry.begin_live_bucket hbegun with ⟨why, rfl, hcheap, hbucket⟩ | ⟨hbucket, ⟨htaken, herror⟩ | ⟨htaken, rfl⟩⟩
    · refine .inl ⟨?_, ?_, hbucket⟩
      · simp [Event.charged, Event.announced, hcheap]
      · simp [Event.reached, Event.announced, Refusal.ofGate_of_cheap hcheap]
    · obtain ⟨hcharged, hreached⟩ := Event.reached_of_error herror
      refine .inr ⟨⟨hcharged, hreached.trans htaken.symm, hbucket⟩, fun t record k hk => ?_⟩
      cases hk
      exact absurd (herror _ rfl) (by simp [Refusal.ofGate])
    · refine .inr ⟨⟨rfl, htaken.symm, hbucket⟩, fun t record k hk => ?_⟩
      cases hk
      rfl
  | admitGossip hidle hdone hbegun =>
    exact .inl ⟨rfl, rfl, Registry.begin_bucket (by simp) hbegun⟩
  | load hidle hdone => exact .inl ⟨rfl, rfl, rfl⟩
  | dropped hidle htodo hexpired => exact .inl ⟨rfl, rfl, rfl⟩
  | restore hidle htodo hx hlive hbegun =>
    exact .inl ⟨rfl, rfl, Registry.begin_bucket (by simp) hbegun⟩
  | resumed hcall hresumed => exact .inl ⟨rfl, rfl, Registry.resume_bucket hresumed⟩
  | accepted hcall => exact .inl ⟨rfl, rfl, rfl⟩

/-! ### Runs -/

variable (C) in
/-- A step of a bootnode whose clock may be set, forward or back, labelled with the clock. -/
inductive UnsteadyStep : System T K → ℤ × Event T K → System T K → Prop where
  | step {s u : System T K} {e : Event T K} : Step C s e u → UnsteadyStep s (s.clock, e) u
  | set {s : System T K} {clock : ℤ} : UnsteadyStep s (s.clock, .tick) { s with clock := clock }

/-- The times that the bucket read. -/
def bucketReadings (tr : List (ℤ × Event T K)) : List ℚ := (tr.filter fun l => l.2.charged).map fun l => now l.1

/-- The calls that reached `verifyAnnounce`. -/
def verifications (tr : List (ℤ × Event T K)) : ℕ := tr.countP fun l => l.2.reached

lemma UnsteadyStep.bucket {l : ℤ × Event T K} (h : UnsteadyStep C s l u) :
    (l.2.charged = false ∧ l.2.reached = false ∧ u.registry.bucket = s.registry.bucket) ∨
      l.2.charged = true ∧ l.2.reached = (s.registry.bucket.take C (now l.1)).2 ∧
        u.registry.bucket = (s.registry.bucket.take C (now l.1)).1 := by
  cases h with
  | step hstep => exact hstep.bucket.imp_right And.left
  | set => exact .inl ⟨rfl, rfl, rfl⟩

/-- Where the bucket is after a run from the start. -/
lemma unsteady_bucket (hlimited : 0 < C.announceRate ∨ 0 < C.announceBurst) {clock₀ : ℤ} {tr : List (ℤ × Event T K)}
    (h : Run (UnsteadyStep C) (System.start C clock₀) tr s) :
    s.registry.bucket.tokens ≤ C.announceBurst ∧
      s.registry.bucket.last = runningMax (now clock₀) (bucketReadings tr) := by
  induction h with
  | nil => exact ⟨le_rfl, rfl⟩
  | @snoc tr t u l _ hstep ih =>
  obtain ⟨htokens, hlast⟩ := ih
  rcases hstep.bucket with ⟨hcharged, -, hbucket⟩ | ⟨hcharged, -, hbucket⟩
  · have hread : bucketReadings (tr ++ [l]) = bucketReadings tr := by simp [bucketReadings, hcharged]
    rw [hbucket, hread]
    exact ⟨htokens, hlast⟩
  · have hread : bucketReadings (tr ++ [l]) = bucketReadings tr ++ [now l.1] := by simp [bucketReadings, hcharged]
    rw [hbucket, hread, runningMax_append, runningMax_singleton, ← hlast]
    exact ⟨Bucket.take_tokens_le hlimited htokens, Bucket.take_last hlimited⟩

/-- A run pays for its verifications. -/
lemma verifications_le (hlimited : 0 < C.announceRate ∨ 0 < C.announceBurst) {tr : List (ℤ × Event T K)}
    (h : Run (UnsteadyStep C) s tr u) :
    (verifications tr : ℚ) + u.registry.bucket.potential C ≤ s.registry.bucket.potential C := by
  have hpaid : ∀ (s : System T K) l u, UnsteadyStep C s l u →
      (l.2.reached.toNat : ℚ) + u.registry.bucket.potential C ≤ s.registry.bucket.potential C := by
    intro s l u hstep
    rcases hstep.bucket with ⟨-, hreached, hbucket⟩ | ⟨-, hreached, hbucket⟩
    · rw [hbucket, hreached, Bool.toNat_false, Nat.cast_zero, zero_add]
    · rw [hbucket, hreached]
      exact Bucket.take_potential hlimited
  have hcount : (tr.map fun l => (l.2.reached.toNat : ℚ)).sum = (verifications tr : ℚ) := by
    clear h
    unfold verifications
    induction tr with
    | nil => simp
    | cons l tr ih =>
      rw [List.map_cons, List.sum_cons, ih, List.countP_cons]
      cases l.2.reached <;> simp [add_comm]
  rw [← hcount]
  exact h.cost_le (Φ := fun s : System T K => s.registry.bucket.potential C) hpaid

lemma now_mono {clock clock' : ℤ} (h : clock ≤ clock') : now clock ≤ now clock' := by
  unfold now
  exact_mod_cast Int.ediv_le_ediv (by decide) h

/-- The bucket has not seen a time later than the clock that only goes on. -/
lemma steady_last (hlimited : 0 < C.announceRate ∨ 0 < C.announceBurst) {clock₀ : ℤ} {tr : List (Event T K)}
    (h : Run (Step C) (System.start C clock₀) tr s) : s.registry.bucket.last ≤ now s.clock := by
  induction h with
  | nil => exact le_rfl
  | @snoc tr t u e _ hstep ih =>
    have hclock : now t.clock ≤ now u.clock := now_mono hstep.clock_le
    rcases hstep.bucket with ⟨-, -, hbucket⟩ | ⟨⟨-, -, hbucket⟩, -⟩
    · rw [hbucket]
      exact ih.trans hclock
    · rw [hbucket, Bucket.take_last hlimited]
      exact max_le (ih.trans hclock) hclock

/-- Calls that the bucket is not asked for leave it as it is. -/
lemma quiet_bucket {quiet : List (Event T K)} (h : Run (Step C) s quiet u)
    (hquiet : ∀ e ∈ quiet, e.charged = false) : u.registry.bucket = s.registry.bucket := by
  induction h with
  | nil => rfl
  | @snoc tr t u e _ hstep ih =>
    have hkept : t.registry.bucket = s.registry.bucket := ih fun e he => hquiet e (List.mem_append_left _ he)
    have hcharged : e.charged = false := hquiet e (List.mem_append_right _ List.mem_cons_self)
    rcases hstep.bucket with ⟨-, -, hbucket⟩ | ⟨⟨hyes, -⟩, -⟩
    · exact hbucket.trans hkept
    · rw [hcharged] at hyes
      cases hyes

/-- The times at which live announces were made, also those that a cheap check refused. -/
def callReadings (tr : List (ℤ × Event T K)) : List ℚ := (tr.filter fun l => l.2.announced.isSome).map fun l => now l.1

/-- Commands, each at its time. -/
def System.unsteadyAll (C : RegistryConfig) (s : System T K) :
    List (ℤ × Command T) → Option (List (ℤ × Event T K) × System T K)
  | [] => some ([], s)
  | (clock, command) :: commands =>
    (({ s with clock := clock } : System T K).exec C command).bind fun stepped =>
      (stepped.2.unsteadyAll C commands).map fun rest => ((s.clock, .tick) :: (clock, stepped.1) :: rest.1, rest.2)

lemma System.unsteadyAll_run {commands : List (ℤ × Command T)} {tr : List (ℤ × Event T K)}
    (h : s.unsteadyAll C commands = some (tr, u)) : Run (UnsteadyStep C) s tr u := by
  induction commands generalizing s tr with
  | nil =>
    obtain ⟨rfl, rfl⟩ := Prod.mk.inj (Option.some.inj h)
    exact .nil
  | cons command commands ih =>
    obtain ⟨clock, command⟩ := command
    obtain ⟨⟨e, v⟩, hexec, h⟩ := Option.bind_eq_some_iff.mp h
    obtain ⟨⟨tr, w⟩, hrest, h⟩ := Option.map_eq_some_iff.mp h
    obtain ⟨rfl, rfl⟩ := Prod.mk.inj h
    exact Run.cons .set (Run.cons (.step (System.exec_step hexec)) (ih hrest))

end Runs

/-- One token a second, one at a time. -/
def oneTokenConfig : RegistryConfig := { openConfig 10 with announceRate := 1, announceBurst := 1 }

/-- A gateway is listed, and refused when it is back too early; then the clock goes back. -/
def refusedEarly : List (ℤ × Command ℕ) :=
  [(0, .announce 0 (some (plainRecord zeroOnion 0 "n"))), (0, .write 0),
    (4000, .announce 0 (some (plainRecord zeroOnion 4 "m")))]

/-- Two announces of another gateway, before the time of the refusal and at it. -/
def twoMore : List (ℤ × Command ℕ) :=
  [(2000, .announce 1 (some (plainRecord eightOnion 2 "n"))), (4000, .announce 2 (some (plainRecord eightOnion 4 "m")))]

/-- The two schedules in a row, each with its trace. -/
lemma refusedEarly_twoMore : ∃ before l during, ∃ s : System ℕ signedKeys,
    Run (UnsteadyStep oneTokenConfig) (System.start oneTokenConfig 0) (before ++ l :: during) s ∧
      verifications (l :: during) = 2 ∧ runningMax (now 0) (callReadings before) = 4 ∧
        runningMax (now 0) (callReadings (before ++ l :: during)) = 4 := by
  have hrun : (((System.start oneTokenConfig 0 : System ℕ signedKeys).unsteadyAll oneTokenConfig refusedEarly).any
      fun p => (p.2.unsteadyAll oneTokenConfig twoMore).any fun q => !q.1.isEmpty &&
        decide (verifications q.1 = 2 ∧ runningMax (now 0) (callReadings p.1) = 4 ∧
          runningMax (now 0) (callReadings (p.1 ++ q.1)) = 4)) = true := by decide +kernel
  obtain ⟨⟨before, v⟩, hbefore, h⟩ := (Option.any_eq_true _ _).mp hrun
  obtain ⟨⟨during, s⟩, hduring, h⟩ := (Option.any_eq_true _ _).mp h
  rw [Bool.and_eq_true] at h
  cases during with
  | nil => cases h.1
  | cons l during =>
    exact ⟨before, l, during, s, (System.unsteadyAll_run hbefore).append (System.unsteadyAll_run hduring),
      of_decide_eq_true h.2⟩

end ShadeTree.Bootnode
