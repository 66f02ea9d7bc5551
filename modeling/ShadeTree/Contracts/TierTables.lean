import Mathlib
import ShadeTree.Contracts.PaidAccessSet

/-!
# The tier tables (the constructors of `StakedReputationSet.sol` and `PaidAccessSet.sol`)

Both constructors go through an ascending list of tiers once.  The staked set is given its extra tiers and puts the
default tier where it belongs among them; the paid set is given all its tiers, the default among them.  What is
admitted afterwards is what is listed, and neither table is written again.
-/

namespace ShadeTree.Contracts

open Function (update)

namespace Staked

variable {H : ℕ → ℕ → ℕ} {z : ℕ}

/-- `bondFor(limit)`. -/
def bondFor (S : StakedReputationSet) (limit : ℕ) : ℕ := S.bondOf limit

/-- What the constructor asks of extra tiers that come after a limit. -/
structure TiersAfter (prev : ℕ) (tiers : List (ℕ × ℕ)) : Prop where
  range : ∀ tier ∈ tiers, prev < tier.1 ∧ tier.1 ≤ MAX_LIMIT ∧ tier.1 ≠ DEFAULT_LIMIT
  bonds : ∀ tier ∈ tiers, tier.2 ≠ 0
  ascending : (tiers.map Prod.fst).Pairwise (· < ·)

lemma tiersAfter_cons {prev lim extraBond : ℕ} {rest : List (ℕ × ℕ)} :
    TiersAfter prev ((lim, extraBond) :: rest) ↔
      prev < lim ∧ lim ≤ MAX_LIMIT ∧ lim ≠ DEFAULT_LIMIT ∧ extraBond ≠ 0 ∧ TiersAfter lim rest := by
  constructor
  · rintro ⟨hrange, hbonds, hascending⟩
    obtain ⟨⟨hprev, hmax, hdefault⟩, hrest⟩ := List.forall_mem_cons.mp hrange
    obtain ⟨hbond, hbonds⟩ := List.forall_mem_cons.mp hbonds
    obtain ⟨hlim, hascending⟩ := List.pairwise_cons.mp hascending
    exact ⟨hprev, hmax, hdefault, hbond,
      fun tier htier => ⟨hlim _ (List.mem_map_of_mem htier), (hrest tier htier).2⟩, hbonds, hascending⟩
  · rintro ⟨hprev, hmax, hdefault, hbond, hrange, hbonds, hascending⟩
    refine ⟨List.forall_mem_cons.mpr ⟨⟨hprev, hmax, hdefault⟩, fun tier htier => ?_⟩,
      List.forall_mem_cons.mpr ⟨hbond, hbonds⟩, List.pairwise_cons.mpr ⟨fun l hl => ?_, hascending⟩⟩
    · exact ⟨hprev.trans (hrange tier htier).1, (hrange tier htier).2⟩
    · obtain ⟨tier, htier, rfl⟩ := List.mem_map.mp hl
      exact (hrange tier htier).1

/-- The loop comes to its end if and only if the tiers are as asked; a bond is set for the default tier and for
tiers that came before. -/
lemma addTiers_ok_iff {t : TierTable} {tiers : List (ℕ × ℕ)}
    (hset : ∀ l, t.bondOf l ≠ 0 → l = DEFAULT_LIMIT ∨ l ≤ t.prev) :
    (∃ t', addTiers t tiers = .ok t') ↔ TiersAfter t.prev tiers := by
  induction tiers generalizing t with
  | nil => exact ⟨fun _ => ⟨by simp, by simp, .nil⟩, fun _ => ⟨t, rfl⟩⟩
  | cons tier rest ih =>
    obtain ⟨lim, extraBond⟩ := tier
    rw [tiersAfter_cons]
    unfold addTiers
    have hnext : t.prev < lim → ∀ l, update t.bondOf lim extraBond l ≠ 0 → l = DEFAULT_LIMIT ∨ l ≤ lim := by
      intro hlt l hl
      by_cases hlim : l = lim
      · exact .inr hlim.le
      · rw [Function.update_of_ne hlim] at hl
        exact (hset l hl).imp_right fun hle => hle.trans hlt.le
    split_ifs with hrange hprev hbond
    · refine ⟨by simp, fun h => ?_⟩
      rcases hrange with hzero | hmax | hdefault
      · omega
      · exact absurd h.2.1 (not_le.mpr hmax)
      · exact absurd hdefault h.2.2.1
    · refine ⟨by simp, fun h => ?_⟩
      rcases hprev with hle | hne
      · omega
      · rcases hset lim hne with hdefault | hle
        · exact absurd hdefault h.2.2.1
        · omega
    · exact ⟨by simp, fun h => absurd hbond h.2.2.2.1⟩
    · have hlt : t.prev < lim := by
        by_contra hle
        exact hprev (.inl (not_lt.mp hle))
      refine (ih (hnext hlt)).trans ⟨fun h => ⟨hlt, ?_, ?_, hbond, h⟩, fun h => h.2.2.2.2⟩
      · by_contra hmax
        exact hrange (.inr (.inl (not_le.mp hmax)))
      · exact fun hdefault => hrange (.inr (.inr hdefault))

/-- The default tier goes before the first tier above it, or comes last. -/
lemma addTiers_merges {t t' : TierTable} {tiers : List (ℕ × ℕ)} (h : addTiers t tiers = .ok t') :
    (if t'.pushedDefault then t'.allowedLimits else t'.allowedLimits ++ [DEFAULT_LIMIT]) =
        t.allowedLimits ++ (if t.pushedDefault then tiers.map Prod.fst
          else (tiers.map Prod.fst).orderedInsert (· ≤ ·) DEFAULT_LIMIT) ∧
      ∀ l, t'.bondOf l ≠ 0 ↔ t.bondOf l ≠ 0 ∨ l ∈ tiers.map Prod.fst := by
  induction tiers generalizing t with
  | nil =>
    obtain rfl : t = t' := Except.ok.inj h
    refine ⟨?_, fun l => by simp⟩
    cases t.pushedDefault <;> simp
  | cons tier rest ih =>
    obtain ⟨lim, extraBond⟩ := tier
    unfold addTiers at h
    split_ifs at h with hrange hprev hbond
    obtain ⟨htable, hbondOf⟩ := ih h
    refine ⟨htable.trans ?_, fun l => (hbondOf l).trans ?_⟩
    · cases hpushed : t.pushedDefault with
      | true => simp
      | false =>
        by_cases hlt : DEFAULT_LIMIT < lim
        · simp [hlt, hlt.le]
        · have hle : ¬ DEFAULT_LIMIT ≤ lim := fun hle => hrange (.inr (.inr (le_antisymm (not_lt.mp hlt) hle)))
          simp [hlt, hle]
    · by_cases hlim : l = lim
      · subst hlim
        simp [hbond]
      · simp [hlim]

/-- A strictly ascending list stays one when what is not in it is put in its place. -/
lemma pairwise_orderedInsert {a : ℕ} {l : List ℕ} (h : l.Pairwise (· < ·)) (ha : a ∉ l) :
    (l.orderedInsert (· ≤ ·) a).Pairwise (· < ·) := by
  have hle : (l.orderedInsert (· ≤ ·) a).Pairwise (· ≤ ·) := (h.imp le_of_lt).orderedInsert a l
  have hnodup : (l.orderedInsert (· ≤ ·) a).Nodup :=
    (List.perm_orderedInsert _ a l).nodup_iff.mpr (List.nodup_cons.mpr ⟨ha, h.imp ne_of_lt⟩)
  exact (hle.and hnodup).imp fun h => lt_of_le_of_ne h.1 h.2

/-- What the constructor asks of its arguments. -/
structure Deployable (bond unbonding minUnbonding : ℕ) (extraLimits extraBonds : List ℕ) : Prop where
  bond : bond ≠ 0
  unbonding : minUnbonding ≤ unbonding
  length : extraLimits.length = extraBonds.length
  range : ∀ l ∈ extraLimits, 0 < l ∧ l ≤ MAX_LIMIT ∧ l ≠ DEFAULT_LIMIT
  ascending : extraLimits.Pairwise (· < ·)
  bonds : ∀ b ∈ extraBonds, b ≠ 0

lemma tiersAfter_zip {extraLimits extraBonds : List ℕ} (hlength : extraLimits.length = extraBonds.length) :
    TiersAfter 0 (extraLimits.zip extraBonds) ↔ (∀ l ∈ extraLimits, 0 < l ∧ l ≤ MAX_LIMIT ∧ l ≠ DEFAULT_LIMIT) ∧
      extraLimits.Pairwise (· < ·) ∧ ∀ b ∈ extraBonds, b ≠ 0 := by
  have hfst : (extraLimits.zip extraBonds).map Prod.fst = extraLimits := List.map_fst_zip hlength.le
  have hsnd : (extraLimits.zip extraBonds).map Prod.snd = extraBonds := List.map_snd_zip hlength.ge
  constructor
  · rintro ⟨hrange, hbonds, hascending⟩
    refine ⟨fun l hl => ?_, hfst ▸ hascending, fun b hb => ?_⟩
    · rw [← hfst] at hl
      obtain ⟨tier, htier, rfl⟩ := List.mem_map.mp hl
      exact hrange tier htier
    · rw [← hsnd] at hb
      obtain ⟨tier, htier, rfl⟩ := List.mem_map.mp hb
      exact hbonds tier htier
  · rintro ⟨hrange, hascending, hbonds⟩
    exact ⟨fun tier htier => hrange _ (hfst ▸ List.mem_map_of_mem htier),
      fun tier htier => hbonds _ (hsnd ▸ List.mem_map_of_mem htier), hfst.symm ▸ hascending⟩

/-- What the constructor of the staked set builds. -/
lemma constructor_table {S : StakedReputationSet} {bond unbonding minUnbonding : ℕ} {extraLimits extraBonds : List ℕ}
    (h : constructor H z bond unbonding minUnbonding extraLimits extraBonds = .ok S) :
    S.allowedLimits = extraLimits.orderedInsert (· ≤ ·) DEFAULT_LIMIT ∧
      ∀ l, bondFor S l ≠ 0 ↔ l = DEFAULT_LIMIT ∨ l ∈ extraLimits := by
  unfold constructor at h
  split_ifs at h with hbond hunbonding hlength
  have hfst : (extraLimits.zip extraBonds).map Prod.fst = extraLimits :=
    List.map_fst_zip (not_not.mp hlength).le
  split at h
  · cases h
  · next t ht =>
    obtain ⟨htable, hbondOf⟩ := addTiers_merges ht
    rw [hfst] at htable hbondOf
    obtain rfl := Except.ok.inj h
    refine ⟨htable, fun l => (hbondOf l).trans (or_congr_left ?_)⟩
    by_cases hl : l = DEFAULT_LIMIT
    · simp [hl, hbond]
    · simp [hl]

lemma constructor_ok_iff {bond unbonding minUnbonding : ℕ} {extraLimits extraBonds : List ℕ} :
    (∃ S, constructor H z bond unbonding minUnbonding extraLimits extraBonds = .ok S) ↔
      Deployable bond unbonding minUnbonding extraLimits extraBonds := by
  have hset : ∀ l, (TierTable.mk (update (fun _ => 0) DEFAULT_LIMIT bond) [] 0 false).bondOf l ≠ 0 →
      l = DEFAULT_LIMIT ∨ l ≤ 0 := by
    intro l hl
    by_cases hdefault : l = DEFAULT_LIMIT
    · exact .inl hdefault
    · simp [hdefault] at hl
  have hloop := @addTiers_ok_iff _ (extraLimits.zip extraBonds) hset
  unfold constructor
  split_ifs with hbond hunbonding hlength
  · exact ⟨nofun, fun h => absurd hbond h.bond⟩
  · exact ⟨nofun, fun h => absurd h.unbonding (not_le.mpr hunbonding)⟩
  · exact ⟨nofun, fun h => absurd h.length hlength⟩
  · have hlen := not_not.mp hlength
    have hdeployable : TiersAfter 0 (extraLimits.zip extraBonds) ↔
        Deployable bond unbonding minUnbonding extraLimits extraBonds := by
      refine (tiersAfter_zip hlen).trans ⟨fun h => ?_, fun h => ⟨h.range, h.ascending, h.bonds⟩⟩
      exact ⟨hbond, not_lt.mp hunbonding, hlen, h.1, h.2.1, h.2.2⟩
    refine Iff.trans ⟨?_, ?_⟩ (hloop.trans hdeployable)
    · rintro ⟨S, hS⟩
      split at hS
      · cases hS
      · next t ht => exact ⟨t, ht⟩
    · rintro ⟨t, ht⟩
      rw [ht]
      exact ⟨_, rfl⟩

end Staked

namespace Paid

variable {H : ℕ → ℕ → ℕ} {z : ℕ}

/-- `isAllowedLimit(limit)`. -/
def isAllowedLimit (S : PaidAccessSet) (limit : ℕ) : Bool := S.allowed limit

/-- The loop comes to its end if and only if the tiers are in range and ascend. -/
lemma addTiers_ok_iff {t : TierTable} {limits : List ℕ} :
    (∃ t', addTiers t limits = .ok t') ↔
      (∀ l ∈ limits, t.prev < l ∧ l ≤ MAX_LIMIT) ∧ limits.Pairwise (· < ·) := by
  induction limits generalizing t with
  | nil => exact ⟨fun _ => ⟨by simp, .nil⟩, fun _ => ⟨t, rfl⟩⟩
  | cons lim rest ih =>
    rw [List.forall_mem_cons, List.pairwise_cons]
    unfold addTiers
    split_ifs with hrange hprev
    · refine ⟨by simp, fun h => ?_⟩
      have hlim := h.1.1
      omega
    · exact ⟨by simp, fun h => absurd h.1.1.1 (not_lt.mpr hprev)⟩
    · refine ih.trans ⟨fun h => ?_, fun h => ⟨fun l hl => ⟨h.2.1 l hl, (h.1.2 l hl).2⟩, h.2.2⟩⟩
      have hlim : t.prev < lim ∧ lim ≤ MAX_LIMIT := by omega
      exact ⟨⟨hlim, fun l hl => ⟨hlim.1.trans (h.1 l hl).1, (h.1 l hl).2⟩⟩, fun l hl => (h.1 l hl).1, h.2⟩

lemma addTiers_lists {t t' : TierTable} {limits : List ℕ} (h : addTiers t limits = .ok t') :
    t'.allowedLimits = t.allowedLimits ++ limits ∧
      (∀ l, t'.allowed l = true ↔ t.allowed l = true ∨ l ∈ limits) ∧
      (t'.hasDefault = true ↔ t.hasDefault = true ∨ DEFAULT_LIMIT ∈ limits) := by
  induction limits generalizing t with
  | nil =>
    obtain rfl : t = t' := Except.ok.inj h
    simp
  | cons lim rest ih =>
    unfold addTiers at h
    split_ifs at h with hrange hprev
    obtain ⟨hlimits, hallowed, hdefault⟩ := ih h
    refine ⟨by rw [hlimits, List.append_assoc, List.singleton_append], fun l => (hallowed l).trans ?_, hdefault.trans ?_⟩
    · by_cases hlim : l = lim <;> simp [hlim]
    · rw [Bool.or_eq_true, beq_iff_eq, List.mem_cons, or_assoc, eq_comm (a := lim)]

/-- What the constructor asks of its arguments. -/
structure Deployable (hasher : ℕ) (limits : List ℕ) : Prop where
  hasher : hasher ≠ 0
  nonempty : limits ≠ []
  range : ∀ l ∈ limits, 0 < l ∧ l ≤ MAX_LIMIT
  ascending : limits.Pairwise (· < ·)
  base : DEFAULT_LIMIT ∈ limits

lemma constructor_ok_iff {sender operator hasher : ℕ} {limits : List ℕ} :
    (∃ S, constructor H z sender operator hasher limits = .ok S) ↔ Deployable hasher limits := by
  have hloop := @addTiers_ok_iff ⟨fun _ => false, [], 0, false⟩ limits
  unfold constructor
  by_cases hhasher : hasher = 0
  · rw [if_pos hhasher]
    exact ⟨nofun, fun h => absurd hhasher h.hasher⟩
  by_cases hempty : limits.length = 0
  · rw [if_neg hhasher, if_pos hempty]
    exact ⟨nofun, fun h => absurd (List.length_eq_zero_iff.mp hempty) h.nonempty⟩
  rw [if_neg hhasher, if_neg hempty]
  constructor
  · rintro ⟨S, hS⟩
    split at hS
    · cases hS
    next t ht =>
    split at hS
    · cases hS
    next hdefault =>
    obtain ⟨hrange, hascending⟩ := hloop.mp ⟨t, ht⟩
    have hbase := (addTiers_lists ht).2.2.mp (by simpa using hdefault)
    exact ⟨hhasher, fun hnil => hempty (List.length_eq_zero_iff.mpr hnil), hrange, hascending, by simpa using hbase⟩
  · intro h
    obtain ⟨t, ht⟩ := hloop.mpr ⟨h.range, h.ascending⟩
    have hdefault := (addTiers_lists ht).2.2.mpr (.inr h.base)
    rw [ht]
    simp only [hdefault, Bool.not_true, Bool.false_eq_true, if_false]
    exact ⟨_, rfl⟩

/-- What the constructor of the paid set builds. -/
lemma constructor_table {S : PaidAccessSet} {sender operator hasher : ℕ} {limits : List ℕ}
    (h : constructor H z sender operator hasher limits = .ok S) :
    S.allowedLimits = limits ∧ ∀ l, isAllowedLimit S l = true ↔ l ∈ limits := by
  unfold constructor at h
  by_cases hhasher : hasher = 0
  · rw [if_pos hhasher] at h
    cases h
  by_cases hempty : limits.length = 0
  · rw [if_neg hhasher, if_pos hempty] at h
    cases h
  rw [if_neg hhasher, if_neg hempty] at h
  split at h
  · cases h
  next t ht =>
  split at h
  · cases h
  obtain ⟨hlimits, hallowed, -⟩ := addTiers_lists ht
  obtain rfl := Except.ok.inj h
  exact ⟨hlimits, fun l => (hallowed l).trans (by simp)⟩

end Paid

/-- **Tier tables.** The staked set is deployed exactly when its bond is not zero, its exits are locked long enough, and
the extra tiers have one bond each, none of them zero, and ascend within the range without the default tier; the paid
set exactly when it has a hasher and its tiers ascend within the range with the default tier among them.  Then the
listed tiers ascend strictly, they are the given ones and the default tier, and a tier has a bond, or is admitted, if
and only if it is listed. -/
theorem tier_tables (H : ℕ → ℕ → ℕ) (z : ℕ) :
    (∀ (bond unbonding minUnbonding : ℕ) (extraLimits extraBonds : List ℕ),
      ((∃ S, Staked.constructor H z bond unbonding minUnbonding extraLimits extraBonds = .ok S) ↔
        Staked.Deployable bond unbonding minUnbonding extraLimits extraBonds) ∧
      ∀ S, Staked.constructor H z bond unbonding minUnbonding extraLimits extraBonds = .ok S →
        S.allowedLimits.Pairwise (· < ·) ∧ (∀ l, l ∈ S.allowedLimits ↔ l = DEFAULT_LIMIT ∨ l ∈ extraLimits) ∧
          ∀ l, Staked.bondFor S l ≠ 0 ↔ l ∈ S.allowedLimits) ∧
    ∀ (sender operator hasher : ℕ) (limits : List ℕ),
      ((∃ S, Paid.constructor H z sender operator hasher limits = .ok S) ↔ Paid.Deployable hasher limits) ∧
      ∀ S, Paid.constructor H z sender operator hasher limits = .ok S →
        S.allowedLimits.Pairwise (· < ·) ∧ (∀ l, l ∈ S.allowedLimits ↔ l = DEFAULT_LIMIT ∨ l ∈ limits) ∧
          ∀ l, Paid.isAllowedLimit S l = true ↔ l ∈ S.allowedLimits := by
  constructor
  · intro bond unbonding minUnbonding extraLimits extraBonds
    refine ⟨Staked.constructor_ok_iff, fun S hS => ?_⟩
    have hdeployable := Staked.constructor_ok_iff.mp ⟨S, hS⟩
    obtain ⟨hlimits, hbondFor⟩ := Staked.constructor_table hS
    have hmem : ∀ l, l ∈ S.allowedLimits ↔ l = DEFAULT_LIMIT ∨ l ∈ extraLimits := by
      intro l
      rw [hlimits, List.mem_orderedInsert]
    refine ⟨?_, hmem, fun l => (hbondFor l).trans (hmem l).symm⟩
    rw [hlimits]
    exact Staked.pairwise_orderedInsert hdeployable.ascending fun hdefault => (hdeployable.range _ hdefault).2.2 rfl
  · intro sender operator hasher limits
    refine ⟨Paid.constructor_ok_iff, fun S hS => ?_⟩
    have hdeployable := Paid.constructor_ok_iff.mp ⟨S, hS⟩
    obtain ⟨rfl, hallowed⟩ := Paid.constructor_table hS
    refine ⟨hdeployable.ascending, fun l => ⟨.inr, ?_⟩, hallowed⟩
    rintro (rfl | hl)
    · exact hdeployable.base
    · exact hl

/-- A tier below the default one and one above it. -/
theorem tier_tables_low_rate : ∃ S P,
    Staked.constructor (fun _ _ => 0) 0 5 60 60 [1, 32] [2, 20] = .ok S ∧
      (∀ l, l ∈ S.allowedLimits ↔ l = DEFAULT_LIMIT ∨ l ∈ [1, 32]) ∧ (∀ l, Staked.bondFor S l ≠ 0 ↔ l ∈ S.allowedLimits) ∧
    Paid.constructor (fun _ _ => 0) 0 7 0 9 [1, 8, 32] = .ok P ∧
      ∀ l, Paid.isAllowedLimit P l = true ↔ l ∈ P.allowedLimits := by
  obtain ⟨hstaked, hpaid⟩ := tier_tables (fun _ _ => 0) 0
  obtain ⟨S, hS⟩ := (hstaked 5 60 60 [1, 32] [2, 20]).1.mpr
    ⟨by decide, by decide, rfl, by decide, by decide, by decide⟩
  obtain ⟨P, hP⟩ := (hpaid 7 0 9 [1, 8, 32]).1.mpr ⟨by decide, by decide, by decide, by decide, by decide⟩
  exact ⟨S, P, hS, ((hstaked 5 60 60 [1, 32] [2, 20]).2 S hS).2.1, ((hstaked 5 60 60 [1, 32] [2, 20]).2 S hS).2.2, hP,
    ((hpaid 7 0 9 [1, 8, 32]).2 P hP).2.2⟩

end ShadeTree.Contracts
