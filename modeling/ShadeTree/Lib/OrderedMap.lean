import Mathlib.Data.List.Induction
import Mathlib.Data.List.Nodup
import Mathlib.Tactic.Common

/-!
# Maps that are gone through in the order of their keys

A map of a program that keeps the order in which its keys were first set.  Setting a key again keeps its place;
deleting it and setting it again moves it to the end, where the newest keys are.
-/

namespace ShadeTree.Lib

structure OrderedMap (K V : Type) where
  entries : List (K × V)
  nodup : (entries.map Prod.fst).Nodup

namespace OrderedMap

variable {K V : Type}

def empty : OrderedMap K V := ⟨[], List.nodup_nil⟩

def keys (m : OrderedMap K V) : List K := m.entries.map Prod.fst

/-- The newest `n` entries: the oldest is dropped as long as there are more. -/
def keepNewest (n : ℕ) (m : OrderedMap K V) : OrderedMap K V where
  entries := m.entries.drop (m.entries.length - n)
  nodup := m.nodup.sublist ((List.drop_sublist _ _).map Prod.fst)

variable [DecidableEq K]

def get (k : K) (m : OrderedMap K V) : Option V := (m.entries.find? fun e => e.1 = k).map Prod.snd

def delete (k : K) (m : OrderedMap K V) : OrderedMap K V where
  entries := m.entries.filter fun e => e.1 ≠ k
  nodup := m.nodup.sublist (List.filter_sublist.map Prod.fst)

/-- The entry of a key with another value. -/
def put (k : K) (v : V) (e : K × V) : K × V := if e.1 = k then (k, v) else e

lemma put_fst (k : K) (v : V) (e : K × V) : (put k v e).1 = e.1 := by
  unfold put
  split
  · next h => exact h.symm
  · rfl

def set (k : K) (v : V) (m : OrderedMap K V) : OrderedMap K V :=
  if h : k ∈ m.keys then
    { entries := m.entries.map (put k v)
      nodup := by
        have hkeys : (m.entries.map (put k v)).map Prod.fst = m.entries.map Prod.fst := by
          rw [List.map_map]
          exact List.map_congr_left fun e _ => put_fst k v e
        rw [hkeys]
        exact m.nodup }
  else
    { entries := m.entries ++ [(k, v)]
      nodup := by
        rw [List.map_append]
        refine m.nodup.append (List.nodup_singleton k) fun x hx hk => h ?_
        rwa [List.mem_singleton.mp hk] at hx }

/-- The entries set one after the other. -/
def ofList (l : List (K × V)) : OrderedMap K V := l.foldl (fun m e => m.set e.1 e.2) empty

section Lemmas

variable {k k' : K} {v v' : V} {m : OrderedMap K V} {l : List (K × V)}

lemma get_eq_some : m.get k = some v ↔ (k, v) ∈ m.entries := by
  unfold get
  rw [Option.map_eq_some_iff]
  refine ⟨?_, fun hmem => ?_⟩
  · rintro ⟨e, hfind, rfl⟩
    have hkey : e.1 = k := by simpa using List.find?_some hfind
    subst hkey
    exact List.mem_of_find?_eq_some hfind
  · cases hfind : m.entries.find? fun e => e.1 = k with
    | none => simpa using List.find?_eq_none.mp hfind _ hmem
    | some e =>
      have hkey : e.1 = k := by simpa using List.find?_some hfind
      exact ⟨e, rfl, congrArg Prod.snd
        (List.inj_on_of_nodup_map m.nodup (List.mem_of_find?_eq_some hfind) hmem hkey)⟩

lemma mem_set {e : K × V} : e ∈ (m.set k v).entries ↔ e = (k, v) ∨ e.1 ≠ k ∧ e ∈ m.entries := by
  unfold set
  split
  · next hmem =>
    simp only [List.mem_map, put]
    constructor
    · rintro ⟨e', he', rfl⟩
      split
      · exact .inl rfl
      · next hne => exact .inr ⟨hne, he'⟩
    · rintro (rfl | ⟨hne, he⟩)
      · obtain ⟨e', he', hkey⟩ := List.mem_map.mp hmem
        exact ⟨e', he', if_pos hkey⟩
      · exact ⟨e, he, if_neg hne⟩
  · next hnone =>
    simp only [List.mem_append, List.mem_singleton]
    constructor
    · rintro (he | rfl)
      · refine .inr ⟨?_, he⟩
        rintro rfl
        exact hnone (List.mem_map_of_mem he)
      · exact .inl rfl
    · rintro (rfl | ⟨-, he⟩)
      · exact .inr rfl
      · exact .inl he

lemma entries_set_of_notMem (h : k ∉ m.keys) : (m.set k v).entries = m.entries ++ [(k, v)] := by
  unfold set
  rw [dif_neg h]

lemma get_set_self : (m.set k v).get k = some v := get_eq_some.mpr (mem_set.mpr (.inl rfl))

lemma get_set_of_ne (h : k' ≠ k) : (m.set k v).get k' = m.get k' := by
  refine Option.ext fun w => ?_
  rw [get_eq_some, get_eq_some, mem_set]
  constructor
  · rintro (heq | ⟨-, hmem⟩)
    · exact absurd (congrArg Prod.fst heq) h
    · exact hmem
  · exact fun hmem => .inr ⟨h, hmem⟩

lemma get_of_delete (h : (m.delete k).get k' = some v) : m.get k' = some v :=
  get_eq_some.mpr (List.mem_of_mem_filter (get_eq_some.mp h))

lemma get_of_keepNewest {n : ℕ} (h : (m.keepNewest n).get k = some v) : m.get k = some v :=
  get_eq_some.mpr (List.mem_of_mem_drop (get_eq_some.mp h))

/-- Of the entries for one key the last one counts. -/
lemma get_ofList : (ofList l).get k = (l.reverse.find? fun e => e.1 = k).map Prod.snd := by
  unfold ofList
  induction l using List.reverseRecOn with
  | nil => rfl
  | append_singleton l e ih =>
    rw [List.foldl_append, List.reverse_append, List.reverse_singleton, List.singleton_append, List.find?_cons]
    simp only [List.foldl_cons, List.foldl_nil]
    by_cases hk : e.1 = k
    · subst hk
      simp [get_set_self]
    · rw [get_set_of_ne (Ne.symm hk), ih]
      simp [hk]

lemma get_ofList_append {l' : List (K × V)} : (ofList (l ++ l')).get k = ((ofList l').get k).or ((ofList l).get k) := by
  rw [get_ofList, get_ofList, get_ofList, List.reverse_append, List.find?_append]
  cases l'.reverse.find? fun e => e.1 = k <;> rfl

/-- Entries whose keys differ are kept as they are. -/
lemma entries_ofList (h : (l.map Prod.fst).Nodup) : (ofList l).entries = l := by
  unfold ofList
  induction l using List.reverseRecOn with
  | nil => rfl
  | append_singleton l e ih =>
    rw [List.map_append, List.map_singleton] at h
    have hl := ih (List.Nodup.of_append_left h)
    have hnew : e.1 ∉ (l.foldl (fun m e => m.set e.1 e.2) (empty : OrderedMap K V)).keys := by
      intro hmem
      unfold keys at hmem
      rw [hl] at hmem
      exact (List.disjoint_of_nodup_append h) hmem (List.mem_singleton_self _)
    rw [List.foldl_append, List.foldl_cons, List.foldl_nil, entries_set_of_notMem hnew, hl]

end Lemmas

end OrderedMap

end ShadeTree.Lib
