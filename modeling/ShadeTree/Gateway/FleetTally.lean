import ShadeTree.Gateway.SpentEpochs
import ShadeTree.Lib.Table

/-!
# The shared tally of spent nullifiers (`makeFleetTally` in `gateway/fleet-tally.mjs`)

A gateway keeps the nullifiers that are spent in the fleet in one bucket for each epoch, named by its
external nullifier.  Buckets are dropped two epochs after they were opened, and three caps bound what a peer
can make a gateway store.  What a peer announces and what a gateway recorded itself enter the tally by the
same function, `ingest`.
-/

namespace ShadeTree.Gateway

open ShadeTree.Lib

/-- The nullifiers of one epoch, and when the first of them arrived. -/
structure Bucket where
  set : Finset String
  openedAt : ℤ

/-- The three caps, each a positive integer. -/
structure TallyCaps where
  maxPerEpoch : ℕ
  maxEpochBuckets : ℕ
  maxTotal : ℕ
  maxPerEpoch_pos : 0 < maxPerEpoch
  maxEpochBuckets_pos : 0 < maxEpochBuckets
  maxTotal_pos : 0 < maxTotal

/-- `buckets` and `total`. -/
structure FleetTally where
  buckets : Table String Bucket
  total : ℤ

namespace FleetTally

def empty : FleetTally := ⟨∅, 0⟩

section Operations

variable (ttl : ℤ) (C : TallyCaps) (now : ℤ)

/-- `prune()`: the buckets that are too old go, and their sizes leave the total. -/
def prune (t : FleetTally) : FleetTally where
  buckets := Table.keep (fun _ b => decide (now - ttl ≤ b.openedAt)) t.buckets
  total := t.total -
    Table.total (fun b => b.set.card) (Table.keep (fun _ b => !decide (now - ttl ≤ b.openedAt)) t.buckets)

/-- The part of `ingest` after the bucket `b` of the scope `k` is found or made. -/
def addTo (n k : String) (b : Bucket) (t : FleetTally) : FleetTally × Bool :=
  if n ∈ b.set then (t, true)
  else if C.maxPerEpoch ≤ b.set.card ∨ C.maxTotal ≤ t.total then (t, false)
  else (⟨t.buckets.insert k { b with set := insert n b.set }, t.total + 1⟩, true)

/-- `ingest(nullifier, epoch)`. -/
def ingest (nullifier epoch : String) (t : FleetTally) : FleetTally × Bool :=
  match canonicalTallyField nullifier, canonicalTallyField epoch with
  | some n, some k =>
    let t := t.prune ttl now
    match t.buckets.lookup k with
    | some b => t.addTo C n k b
    | none =>
      if C.maxEpochBuckets ≤ Table.size t.buckets ∨ C.maxTotal ≤ t.total then (t, false)
      else addTo C n k ⟨∅, now⟩ { t with buckets := t.buckets.insert k ⟨∅, now⟩ }
  | _, _ => (t, false)

/-- `has(nullifier, epoch)`. -/
def has (nullifier epoch : String) (t : FleetTally) : FleetTally × Bool :=
  let t := t.prune ttl now
  match canonicalTallyField nullifier, canonicalTallyField epoch with
  | some n, some k => (t, (t.buckets.lookup k).any fun b => decide (n ∈ b.set))
  | _, _ => (t, false)

/-- `record(nullifier, epoch)`, with what it publishes. -/
def record (nullifier epoch : String) (t : FleetTally) : FleetTally × Option (String × String) :=
  match canonicalTallyField nullifier, canonicalTallyField epoch with
  | some n, some k => ((t.ingest ttl C now n k).1, some (n, k))
  | _, _ => (t, none)

end Operations

/-! ### The counters -/

/-- The total counts the nullifiers stored, and no cap is exceeded. -/
structure Sound (C : TallyCaps) (t : FleetTally) : Prop where
  total_eq : t.total = Table.total (fun b => b.set.card) t.buckets
  total_le : t.total ≤ C.maxTotal
  size_le : Table.size t.buckets ≤ C.maxEpochBuckets
  card_le : ∀ k b, t.buckets.lookup k = some b → b.set.card ≤ C.maxPerEpoch

/-- What an operation at `now` does to the buckets: those that are young enough stay and grow, the others are
those of before or, under a scope the operation may open, a new one. -/
structure Advances (ttl : ℤ) (C : TallyCaps) (now : ℤ) (opens : String → Prop) (t t' : FleetTally) :
    Prop where
  kept : ∀ k b, t.buckets.lookup k = some b → now - ttl ≤ b.openedAt →
    ∃ b', t'.buckets.lookup k = some b' ∧ b.set ⊆ b'.set ∧ b'.openedAt = b.openedAt
  back : ∀ k b', t'.buckets.lookup k = some b' →
    (∃ b, t.buckets.lookup k = some b ∧ b'.openedAt = b.openedAt) ∨ (opens k ∧ b'.openedAt = now)
  sound : t.Sound C → t'.Sound C

section Specs

variable {ttl : ℤ} {C : TallyCaps} {now : ℤ} {t : FleetTally} {n k : String}

lemma empty_sound : empty.Sound C where
  total_eq := rfl
  total_le := Int.natCast_nonneg _
  size_le := Nat.zero_le _
  card_le := fun k b h => by cases h

lemma Advances.refl (t : FleetTally) : Advances ttl C now (fun _ => False) t t where
  kept := fun _ b h _ => ⟨b, h, Finset.Subset.refl _, rfl⟩
  back := fun _ b h => .inl ⟨b, h, rfl⟩
  sound := id

lemma Advances.mono {opens opens' : String → Prop} {t' : FleetTally} (h : Advances ttl C now opens t t')
    (hsub : ∀ k, opens k → opens' k) : Advances ttl C now opens' t t' where
  kept := h.kept
  back := fun k b' hb => (h.back k b' hb).imp_right fun ⟨ho, hat⟩ => ⟨hsub k ho, hat⟩
  sound := h.sound

lemma prune_lookup :
    (t.prune ttl now).buckets.lookup k =
      (t.buckets.lookup k).filter fun b => decide (now - ttl ≤ b.openedAt) :=
  Table.lookup_keep

lemma prune_advances : Advances ttl C now (fun _ => False) t (t.prune ttl now) where
  kept := by
    intro k b hb hyoung
    refine ⟨b, ?_, Finset.Subset.refl _, rfl⟩
    rw [prune_lookup, hb]
    exact Option.filter_eq_some_iff.mpr ⟨rfl, decide_eq_true hyoung⟩
  back := by
    intro k b' hb'
    rw [prune_lookup] at hb'
    exact .inl ⟨b', (Option.filter_eq_some_iff.mp hb').1, rfl⟩
  sound := by
    rintro ⟨htotal, hmax, hsize, hcard⟩
    have hsplit := Table.total_keep (p := fun (_ : String) (b : Bucket) => decide (now - ttl ≤ b.openedAt))
      (f := fun b => b.set.card) (t := t.buckets)
    refine ⟨?_, ?_, ?_, ?_⟩
    · simp only [prune]
      omega
    · simp only [prune]
      omega
    · exact Table.size_keep_le.trans hsize
    · intro k b hb
      rw [prune_lookup] at hb
      exact hcard k b (Option.filter_eq_some_iff.mp hb).1

lemma addTo_advances {b : Bucket} (hb : t.buckets.lookup k = some b) :
    Advances ttl C now (fun _ => False) t (t.addTo C n k b).1 := by
  unfold addTo
  split
  · exact .refl t
  split
  · exact .refl t
  next hn hcap =>
  obtain ⟨hroom, hless⟩ : b.set.card < C.maxPerEpoch ∧ t.total < C.maxTotal := by
    rw [not_or, not_le, not_le] at hcap
    exact hcap
  have hgrow : ∀ j b', t.buckets.lookup j = some b' →
      ∃ b'', (t.buckets.insert k { b with set := insert n b.set }).lookup j = some b'' ∧
        b'.set ⊆ b''.set ∧ b''.openedAt = b'.openedAt := by
    intro j b' hj
    by_cases hjk : j = k
    · subst hjk
      obtain rfl := Option.some.inj (hb.symm.trans hj)
      exact ⟨_, AList.lookup_insert _, Finset.subset_insert n b.set, rfl⟩
    · exact ⟨b', by rw [AList.lookup_insert_ne hjk, hj], Finset.Subset.refl _, rfl⟩
  have hback : ∀ j b'', (t.buckets.insert k { b with set := insert n b.set }).lookup j = some b'' →
      ∃ b', t.buckets.lookup j = some b' ∧ b''.openedAt = b'.openedAt ∧
        (b'' = b' ∨ b''.set = insert n b.set) := by
    intro j b'' hj
    by_cases hjk : j = k
    · subst hjk
      rw [AList.lookup_insert] at hj
      obtain rfl := Option.some.inj hj
      exact ⟨b, hb, rfl, .inr rfl⟩
    · rw [AList.lookup_insert_ne hjk] at hj
      exact ⟨b'', hj, rfl, .inl rfl⟩
  refine ⟨fun j b' hj _ => hgrow j b' hj, fun j b'' hj => ?_, ?_⟩
  · obtain ⟨b', hb', hat, -⟩ := hback j b'' hj
    exact .inl ⟨b', hb', hat⟩
  · rintro ⟨htotal, hmax, hsize, hcard⟩
    have hcard' : (insert n b.set).card = b.set.card + 1 := Finset.card_insert_of_notMem hn
    refine ⟨?_, ?_, ?_, ?_⟩
    · have hsum := Table.total_insert_of_lookup (f := fun b : Bucket => b.set.card)
        (v := { b with set := insert n b.set }) hb
      rw [hcard'] at hsum
      show t.total + 1 = (Table.total _ (t.buckets.insert k { b with set := insert n b.set }) : ℕ)
      omega
    · show t.total + 1 ≤ _
      omega
    · rw [Table.size_insert_of_mem (Table.mem_of_lookup hb)]
      exact hsize
    · intro j b'' hj
      obtain ⟨b', hb', -, rfl | hset⟩ := hback j b'' hj
      · exact hcard j b'' hb'
      · rw [hset, hcard']
        omega

lemma Advances.trans {opens : String → Prop} {t' t'' : FleetTally} (h : Advances ttl C now opens t t')
    (h' : Advances ttl C now opens t' t'') : Advances ttl C now opens t t'' where
  kept := by
    intro j b hb hyoung
    obtain ⟨b', hb', hsub, hat⟩ := h.kept j b hb hyoung
    obtain ⟨b'', hb'', hsub', hat'⟩ := h'.kept j b' hb' (hat ▸ hyoung)
    exact ⟨b'', hb'', hsub.trans hsub', hat'.trans hat⟩
  back := by
    intro j b'' hb''
    rcases h'.back j b'' hb'' with ⟨b', hb', hat'⟩ | hnew
    · rcases h.back j b' hb' with ⟨b, hb, hat⟩ | ⟨ho, hat⟩
      · exact .inl ⟨b, hb, hat'.trans hat⟩
      · exact .inr ⟨ho, hat'.trans hat⟩
    · exact .inr hnew
  sound := h'.sound ∘ h.sound

/-- A bucket is opened only if the caps leave room for one more. -/
lemma open_advances (hk : t.buckets.lookup k = none) (hsize : Table.size t.buckets < C.maxEpochBuckets) :
    Advances ttl C now (· = k) t { t with buckets := t.buckets.insert k ⟨∅, now⟩ } where
  kept := by
    intro j b hb _
    have hjk : j ≠ k := by
      rintro rfl
      rw [hk] at hb
      cases hb
    exact ⟨b, by rw [AList.lookup_insert_ne hjk, hb], Finset.Subset.refl _, rfl⟩
  back := by
    intro j b' hb'
    by_cases hjk : j = k
    · subst hjk
      rw [AList.lookup_insert] at hb'
      obtain rfl := Option.some.inj hb'
      exact .inr ⟨rfl, rfl⟩
    · rw [AList.lookup_insert_ne hjk] at hb'
      exact .inl ⟨b', hb', rfl⟩
  sound := by
    rintro ⟨htotal, hmax, -, hcard⟩
    have hnew := AList.lookup_eq_none.mp hk
    refine ⟨?_, hmax, ?_, ?_⟩
    · show t.total = _
      rw [Table.total_insert_of_notMem hnew, Finset.card_empty, zero_add]
      exact htotal
    · rw [Table.size_insert_of_notMem hnew]
      exact hsize
    · intro j b hb
      by_cases hjk : j = k
      · subst hjk
        rw [AList.lookup_insert] at hb
        obtain rfl := Option.some.inj hb
        exact Nat.zero_le _
      · rw [AList.lookup_insert_ne hjk] at hb
        exact hcard j b hb

lemma canonicalTallyField_some {s s' : String} (h : canonicalTallyField s = some s') : s' = s := by
  unfold canonicalTallyField at h
  split at h
  · exact (Option.some.inj h).symm
  · cases h

lemma ingest_advances : Advances ttl C now (· = k) t (t.ingest ttl C now n k).1 := by
  have hprune : Advances ttl C now (· = k) t (t.prune ttl now) := prune_advances.mono fun _ h => h.elim
  unfold ingest
  split
  · next n' k' hn hk =>
    obtain rfl := canonicalTallyField_some hn
    obtain rfl := canonicalTallyField_some hk
    dsimp only
    split
    · next b hb => exact hprune.trans ((addTo_advances hb).mono fun _ h => h.elim)
    · next hb =>
      split
      · exact hprune
      · next hcap =>
        rw [not_or, not_le, not_le] at hcap
        exact hprune.trans ((open_advances hb hcap.1).trans
          ((addTo_advances (AList.lookup_insert _)).mono fun _ h => h.elim))
  · exact (Advances.refl t).mono fun _ h => h.elim

lemma addTo_stored {b : Bucket} (hb : t.buckets.lookup k = some b) (h : (t.addTo C n k b).2 = true) :
    ∃ b', (t.addTo C n k b).1.buckets.lookup k = some b' ∧ n ∈ b'.set ∧ b'.openedAt = b.openedAt := by
  unfold addTo at h ⊢
  split
  · next hn => exact ⟨b, hb, hn, rfl⟩
  next hn =>
  rw [if_neg hn] at h
  split
  · next hcap =>
    rw [if_pos hcap] at h
    cases h
  · exact ⟨_, AList.lookup_insert _, Finset.mem_insert_self n b.set, rfl⟩

/-- What is stored is found under its scope, in the bucket that was there or in one opened now. -/
lemma ingest_stored (h : (t.ingest ttl C now n k).2 = true) :
    canonicalTallyField n = some n ∧ canonicalTallyField k = some k ∧
      ∃ b, (t.ingest ttl C now n k).1.buckets.lookup k = some b ∧ n ∈ b.set ∧
        b.openedAt = ((t.prune ttl now).buckets.lookup k).elim now Bucket.openedAt := by
  unfold ingest at h ⊢
  split at h
  · next n' k' hn hk =>
    obtain rfl := canonicalTallyField_some hn
    obtain rfl := canonicalTallyField_some hk
    refine ⟨hn, hk, ?_⟩
    dsimp only at h ⊢
    cases hb : (t.prune ttl now).buckets.lookup k' with
    | some b =>
      simp only [hb] at h ⊢
      exact addTo_stored hb h
    | none =>
      simp only [hb] at h ⊢
      split at h
      · cases h
      next hcap =>
      rw [if_neg hcap]
      exact addTo_stored (AList.lookup_insert _) h
  · cases h

/-- Below the caps every canonical pair is stored. -/
lemma ingest_below_caps (hn : canonicalTallyField n = some n) (hk : canonicalTallyField k = some k)
    (htotal : t.total < C.maxTotal) (hsize : Table.size t.buckets < C.maxEpochBuckets)
    (hcard : ∀ b, t.buckets.lookup k = some b → b.set.card < C.maxPerEpoch) :
    (t.ingest ttl C now n k).2 = true := by
  have htotal' : (t.prune ttl now).total < C.maxTotal := by
    simp only [prune]
    omega
  have hsize' : Table.size (t.prune ttl now).buckets < C.maxEpochBuckets :=
    lt_of_le_of_lt Table.size_keep_le hsize
  have hadd : ∀ (t : FleetTally) (b : Bucket), b.set.card < C.maxPerEpoch → t.total < C.maxTotal →
      (t.addTo C n k b).2 = true := by
    intro t b hroom hless
    unfold addTo
    split
    · rfl
    · rw [if_neg]
      omega
  unfold ingest
  simp only [hn, hk]
  cases hb : (t.prune ttl now).buckets.lookup k with
  | some b =>
    rw [prune_lookup] at hb
    exact hadd _ b (hcard b (Option.filter_eq_some_iff.mp hb).1) htotal'
  | none =>
    dsimp only
    rw [if_neg (by omega)]
    exact hadd _ _ C.maxPerEpoch_pos htotal'

/-- The tally knows a nullifier exactly if a bucket that is young enough holds it. -/
lemma has_iff (hn : canonicalTallyField n = some n) (hk : canonicalTallyField k = some k) :
    (t.has ttl now n k).2 = true ↔
      ∃ b, t.buckets.lookup k = some b ∧ now - ttl ≤ b.openedAt ∧ n ∈ b.set := by
  unfold has
  simp only [hn, hk, prune_lookup]
  cases t.buckets.lookup k with
  | none => simp
  | some b =>
    by_cases hyoung : now - ttl ≤ b.openedAt
    · simp only [Option.filter_some, hyoung, decide_true, if_true, Option.any_some, decide_eq_true_eq,
        Option.some.injEq, exists_eq_left', true_and]
    · simp only [Option.filter_some, hyoung, decide_false, Bool.false_eq_true, if_false, Option.any_none,
        Option.some.injEq, exists_eq_left', false_and]

lemma has_advances : Advances ttl C now (fun _ => False) t (t.has ttl now n k).1 := by
  unfold has
  dsimp only
  split
  · exact prune_advances
  · exact prune_advances

lemma record_advances : Advances ttl C now (· = k) t (t.record ttl C now n k).1 := by
  unfold record
  split
  · next n' k' hn hk =>
    obtain rfl := canonicalTallyField_some hn
    obtain rfl := canonicalTallyField_some hk
    exact ingest_advances
  · exact (Advances.refl t).mono fun _ h => h.elim

lemma record_publishes {m : String × String} (h : (t.record ttl C now n k).2 = some m) : m = (n, k) := by
  unfold record at h
  split at h
  · next n' k' hn hk =>
    obtain rfl := canonicalTallyField_some hn
    obtain rfl := canonicalTallyField_some hk
    exact (Option.some.inj h).symm
  · cases h

end Specs

end FleetTally

end ShadeTree.Gateway
