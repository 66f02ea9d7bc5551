import Mathlib

/-!
# Counters that track a table

A program keeps a total beside a table and adjusts it at every write.  `Sums f n` says that the total is
right: the table has finitely many nonzero entries and they add up to `n`.  A counter of the keys with a
property is the case of the table of zeros and ones (`Counts`).
-/

namespace ShadeTree.Lib

open Function (update)

variable {K : Type*} {f g : K → ℕ} {n m : ℕ}

/-- The entries of `f` are zero but for finitely many, and add up to `n`. -/
def Sums (f : K → ℕ) (n : ℕ) : Prop := ∃ s : Finset K, (∀ k ∉ s, f k = 0) ∧ ∑ k ∈ s, f k = n

/-- There are exactly `n` keys with the property. -/
def Counts (p : K → Prop) [DecidablePred p] (n : ℕ) : Prop := Sums (fun k => if p k then 1 else 0) n

lemma Sums.zero : Sums (fun _ : K => 0) 0 := ⟨∅, fun _ _ => rfl, rfl⟩

lemma Sums.congr (h : Sums f n) (hfg : ∀ k, g k = f k) : Sums g n := by
  obtain rfl : g = f := funext hfg
  exact h

/-- No finite part of the table exceeds the total. -/
lemma Sums.sum_le [DecidableEq K] (h : Sums f n) (t : Finset K) : ∑ k ∈ t, f k ≤ n := by
  obtain ⟨s, hs, rfl⟩ := h
  have hts : ∑ k ∈ t ∩ s, f k = ∑ k ∈ t, f k := by
    refine Finset.sum_subset Finset.inter_subset_left fun k hk hks => hs k fun h => hks ?_
    exact Finset.mem_inter.mpr ⟨hk, h⟩
  rw [← hts]
  exact Finset.sum_le_sum_of_subset Finset.inter_subset_right

lemma Sums.le [DecidableEq K] (h : Sums f n) (k : K) : f k ≤ n := by
  simpa using h.sum_le {k}

/-- **One write.** The old entry leaves the total and the new one joins it. -/
lemma Sums.update [DecidableEq K] (h : Sums f n) (k : K) (v : ℕ) : Sums (update f k v) (n - f k + v) := by
  obtain ⟨s, hs, hn⟩ := h
  refine ⟨insert k s, fun j hj => ?_, ?_⟩
  · rw [Finset.mem_insert, not_or] at hj
    rw [Function.update_of_ne hj.1, hs j hj.2]
  · have hk : k ∈ insert k s := Finset.mem_insert_self k s
    have hins : ∑ j ∈ insert k s, f j = n := by
      rw [← hn]
      refine Finset.sum_subset (Finset.subset_insert k s) (fun j _ hj => hs j hj) |>.symm
    rw [Finset.sum_update_of_mem hk]
    have hsplit := Finset.sum_sdiff (f := f) (Finset.singleton_subset_iff.mpr hk)
    rw [Finset.sum_singleton, hins] at hsplit
    omega

/-- The total over any finite set that holds the nonzero entries. -/
lemma Sums.eq_sum [DecidableEq K] (h : Sums f n) {t : Finset K} (ht : ∀ k ∉ t, f k = 0) :
    ∑ k ∈ t, f k = n := by
  refine le_antisymm (h.sum_le t) ?_
  obtain ⟨s, -, rfl⟩ := h
  exact Sums.sum_le ⟨t, ht, rfl⟩ s

section Counts

variable {p q : K → Prop} [DecidablePred p] [DecidablePred q]

lemma Counts.congr (h : Counts p n) (hpq : ∀ k, q k ↔ p k) : Counts q n :=
  Sums.congr h fun k => by simp only [hpq k]

/-- A key that has the property is counted. -/
lemma Counts.pos [DecidableEq K] (h : Counts p n) {k : K} (hk : p k) : 0 < n := by
  have hle := Sums.le h k
  simp only [hk, if_true] at hle
  omega

/-- The property changes at one key only. -/
lemma Counts.step [DecidableEq K] (h : Counts p n) (k : K) (hpq : ∀ j, j ≠ k → (q j ↔ p j)) :
    Counts q (n - (if p k then 1 else 0) + if q k then 1 else 0) := by
  refine Sums.congr (Sums.update h k (if q k then 1 else 0)) fun j => ?_
  by_cases hj : j = k
  · subst hj; rw [Function.update_self]
  · rw [Function.update_of_ne hj]; simp only [hpq j hj]

lemma Counts.insert [DecidableEq K] (h : Counts p n) {k : K} (hk : ¬ p k) (hq : q k)
    (hpq : ∀ j, j ≠ k → (q j ↔ p j)) : Counts q (n + 1) := by
  simpa [hk, hq] using h.step k hpq

lemma Counts.erase [DecidableEq K] (h : Counts p n) {k : K} (hk : p k) (hq : ¬ q k)
    (hpq : ∀ j, j ≠ k → (q j ↔ p j)) : Counts q (n - 1) := by
  simpa [hk, hq] using h.step k hpq

lemma Counts.same [DecidableEq K] (h : Counts p n) {k : K} (hk : q k ↔ p k)
    (hpq : ∀ j, j ≠ k → (q j ↔ p j)) : Counts q n :=
  h.congr fun j => by
    by_cases hj : j = k
    · subst hj; exact hk
    · exact hpq j hj

/-- The count is the size of the set of keys with the property. -/
lemma Counts.card_filter [DecidableEq K] (h : Counts p n) {t : Finset K} (ht : ∀ k, p k → k ∈ t) :
    (t.filter p).card = n := by
  rw [Finset.card_filter]
  refine Sums.eq_sum h fun k hk => if_neg fun hp => hk (ht k hp)

end Counts

/-! ### A list and the set of its members -/

/-- A list is no longer than the set of its members only if it repeats none. -/
lemma length_le_card_toFinset_iff [DecidableEq K] {l : List K} : l.length ≤ l.toFinset.card ↔ l.Nodup := by
  constructor
  · intro h
    exact Multiset.toFinset_card_eq_card_iff_nodup.mp (le_antisymm l.toFinset_card_le h)
  · intro h
    exact (List.toFinset_card_of_nodup h).ge

/-- Positive entries add up along a list to what they do over the set of its members only if it repeats none. -/
lemma sum_map_eq_sum_toFinset_iff [DecidableEq K] {l : List K} (hf : ∀ k ∈ l, 0 < f k) :
    (l.map f).sum = ∑ k ∈ l.toFinset, f k ↔ l.Nodup := by
  have hcount : (l.map f).sum = ∑ k ∈ l.toFinset, l.count k * f k := Finset.sum_list_map_count l f
  have hle : ∀ k ∈ l.toFinset, f k ≤ l.count k * f k := fun k hk =>
    Nat.le_mul_of_pos_left _ (List.count_pos_iff.mpr (List.mem_toFinset.mp hk))
  rw [hcount, eq_comm, Finset.sum_eq_sum_iff_of_le hle, List.nodup_iff_count_le_one]
  constructor
  · intro h k
    by_cases hk : k ∈ l
    · have hone : l.count k * f k = 1 * f k := by rw [one_mul, ← h k (List.mem_toFinset.mpr hk)]
      exact (Nat.eq_of_mul_eq_mul_right (hf k hk) hone).le
    · rw [List.count_eq_zero_of_not_mem hk]
      exact Nat.zero_le 1
  · intro h k hk
    have hone : l.count k = 1 := le_antisymm (h k) (List.count_pos_iff.mpr (List.mem_toFinset.mp hk))
    rw [hone, one_mul]

end ShadeTree.Lib
