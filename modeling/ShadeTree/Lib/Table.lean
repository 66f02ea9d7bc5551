import Mathlib

/-!
# Tables that are pruned and counted

A table of a program (a map from keys to values, without the order of its entries) is an association list
with distinct keys, `AList`.  Added here is what a program does that bounds its memory: it drops the entries
that fail a test, asks for the number of entries, and keeps a total of some measure of the values.
-/

namespace ShadeTree.Lib

abbrev Table (K V : Type*) := AList fun _ : K => V

namespace Table

variable {K V : Type*}

/-- The number of entries. -/
def size (t : Table K V) : ℕ := t.entries.length

/-- The measures of the values added up. -/
def total (f : V → ℕ) (t : Table K V) : ℕ := (t.entries.map fun e => f e.2).sum

/-- The entries that pass the test. -/
def keep (p : K → V → Bool) (t : Table K V) : Table K V where
  entries := t.entries.filter fun e => p e.1 e.2
  nodupKeys := t.nodupKeys.sublist List.filter_sublist

variable {p : K → V → Bool} {f : V → ℕ} {t : Table K V}

lemma size_keep_le : size (keep p t) ≤ size t := List.length_filter_le _ _

lemma keep_true : keep (fun _ _ => true) t = t := AList.ext (List.filter_eq_self.mpr fun _ _ => rfl)

/-- The entries that pass and those that fail make up the total. -/
lemma total_keep : total f (keep p t) + total f (keep (fun k v => !p k v) t) = total f t := by
  have hlist : ∀ l : List (Sigma fun _ : K => V),
      ((l.filter fun e => p e.1 e.2).map fun e => f e.2).sum +
        ((l.filter fun e => !p e.1 e.2).map fun e => f e.2).sum = (l.map fun e => f e.2).sum := by
    intro l
    induction l with
    | nil => rfl
    | cons e l ih =>
      cases hp : p e.1 e.2 with
      | true =>
        simp only [List.filter_cons, hp, if_true, Bool.not_true, Bool.false_eq_true, if_false, List.map_cons,
          List.sum_cons]
        omega
      | false =>
        simp only [List.filter_cons, hp, if_true, Bool.not_false, Bool.false_eq_true, if_false,
          List.map_cons, List.sum_cons]
        omega
  exact hlist t.entries

/-- A table all of whose keys are one has no more than one entry. -/
lemma size_le_one (h : ∀ k ∈ t, ∀ k' ∈ t, k = k') : size t ≤ 1 := by
  by_contra hsize
  have hlen : 1 < t.keys.length := by simpa [AList.keys, List.keys, size] using hsize
  have heq : t.keys[0] = t.keys[1] :=
    h _ (AList.mem_keys.mpr (List.getElem_mem _)) _ (AList.mem_keys.mpr (List.getElem_mem hlen))
  exact absurd (t.keys_nodup.getElem_inj_iff.mp heq) (by decide)

variable [DecidableEq K] {k : K} {v v' : V}

lemma mem_of_lookup (h : t.lookup k = some v) : k ∈ t :=
  AList.lookup_isSome.mp (by simp [h])

lemma lookup_keep : (keep p t).lookup k = (t.lookup k).filter (p k) := by
  ext v
  rw [← Option.mem_def, AList.mem_lookup_iff]
  simp only [keep, List.mem_filter, Option.filter_eq_some_iff, ← AList.mem_lookup_iff, Option.mem_def]

lemma lookup_keep_eq_some : (keep p t).lookup k = some v ↔ t.lookup k = some v ∧ p k v = true := by
  rw [lookup_keep, Option.filter_eq_some_iff]

lemma size_keep_lt (h : k ∈ t) (hgone : k ∉ keep p t) : size (keep p t) < size t := by
  obtain ⟨v, hv⟩ := Option.isSome_iff_exists.mp (AList.lookup_isSome.mpr h)
  refine List.length_filter_lt_length_iff_exists.mpr ⟨⟨k, v⟩, AList.mem_lookup_iff.mp hv, fun hp => ?_⟩
  exact hgone (mem_of_lookup (lookup_keep_eq_some.mpr ⟨hv, hp⟩))

lemma size_insert_of_mem (h : k ∈ t) : size (t.insert k v) = size t := by
  have hkeys := congrArg List.length (AList.keys_insert t (a := k) (b := v))
  rw [List.length_cons, List.length_erase_of_mem (AList.mem_keys.mp h)] at hkeys
  have hpos := List.length_pos_of_mem (AList.mem_keys.mp h)
  simp only [AList.keys, List.keys, List.length_map] at hkeys hpos
  unfold size
  omega

lemma size_insert_of_notMem (h : k ∉ t) : size (t.insert k v) = size t + 1 := by
  unfold size
  rw [AList.entries_insert_of_notMem h, List.length_cons]

lemma size_erase_of_mem (h : k ∈ t) : size (t.erase k) = size t - 1 := by
  have hkeys := congrArg List.length (AList.keys_erase k t)
  rw [List.length_erase_of_mem (AList.mem_keys.mp h)] at hkeys
  simp only [AList.keys, List.keys, List.length_map] at hkeys
  exact hkeys

lemma total_insert_of_notMem (h : k ∉ t) : total f (t.insert k v) = f v + total f t := by
  unfold total
  rw [AList.entries_insert_of_notMem h, List.map_cons, List.sum_cons]

/-- Writing over an entry: the old value leaves the total. -/
lemma total_insert_of_lookup (h : t.lookup k = some v') :
    total f (t.insert k v) + f v' = f v + total f t := by
  obtain ⟨b, l₁, l₂, -, hl, he⟩ := List.exists_of_kerase (AList.mem_keys.mp (mem_of_lookup h))
  have hb : b = v' := by
    have hmem : (⟨k, b⟩ : Sigma fun _ : K => V) ∈ t.entries := by simp [hl]
    have hsome := AList.mem_lookup_iff.mpr hmem
    rw [h] at hsome
    exact (Option.some.inj hsome).symm
  subst hb
  unfold total
  rw [AList.entries_insert, he, hl]
  simp only [List.map_cons, List.map_append, List.sum_cons, List.sum_append]
  omega

end Table

end ShadeTree.Lib
