import Mathlib.Data.List.Sort

/-!
# Sorting with a comparator that may fail

The insertion sort of Mathlib, with a comparator that may throw: it is stable, and it compares only where a sort
has to.  Lists that are related item by item stay so when both are sorted, if the comparators agree on related
items.
-/

namespace ShadeTree.Lib

section

variable {α ε : Type*} (le : α → α → Except ε Bool)

def insertBy (a : α) : List α → Except ε (List α)
  | [] => .ok [a]
  | b :: l =>
    match le a b with
    | .error e => .error e
    | .ok true => .ok (a :: b :: l)
    | .ok false =>
      match insertBy a l with
      | .error e => .error e
      | .ok l' => .ok (b :: l')

def sortBy : List α → Except ε (List α)
  | [] => .ok []
  | a :: l =>
    match sortBy l with
    | .error e => .error e
    | .ok l' => insertBy le a l'

/-- A comparator that does not fail sorts as the relation it decides. -/
lemma sortBy_ok (r : α → α → Prop) [DecidableRel r] (l : List α) :
    sortBy (fun a b => (.ok (decide (r a b)) : Except ε Bool)) l = .ok (l.insertionSort r) := by
  have hinsert : ∀ (a : α) (l : List α),
      insertBy (fun a b => (.ok (decide (r a b)) : Except ε Bool)) a l = .ok (l.orderedInsert r a) := by
    intro a l
    induction l with
    | nil => rfl
    | cons b l ih =>
      unfold insertBy
      by_cases hab : r a b
      · rw [List.orderedInsert_cons, if_pos hab, decide_eq_true hab]
      · rw [List.orderedInsert_cons, if_neg hab, decide_eq_false hab, ih]
  induction l with
  | nil => rfl
  | cons a l ih =>
    unfold sortBy
    rw [ih, List.insertionSort_cons]
    exact hinsert a _

end

section Related

variable {α β ε : Type*} {le : α → α → Except ε Bool} {r : β → β → Prop} [DecidableRel r] {R : α → β → Prop}

/-- **Sorting along a relation.** -/
theorem sortBy_related
    (hle : ∀ a a' b b', R a b → R a' b' → le a a' = .ok (decide (r b b'))) {l : List α}
    {l' : List β} (hl : List.Forall₂ R l l') :
    ∃ s, sortBy le l = .ok s ∧ List.Forall₂ R s (l'.insertionSort r) := by
  have hinsert : ∀ {a b}, R a b → ∀ {l : List α} {l' : List β}, List.Forall₂ R l l' →
      ∃ s, insertBy le a l = .ok s ∧ List.Forall₂ R s (l'.orderedInsert r b) := by
    intro a b hab l l' hl
    induction hl with
    | nil => exact ⟨[a], rfl, .cons hab .nil⟩
    | @cons c d l l' hcd hl ih =>
      unfold insertBy
      rw [hle _ _ _ _ hab hcd, List.orderedInsert_cons]
      by_cases hr : r b d
      · rw [if_pos hr, decide_eq_true hr]
        exact ⟨_, rfl, .cons hab (.cons hcd hl)⟩
      · obtain ⟨s, hs, hrel⟩ := ih
        rw [if_neg hr, decide_eq_false hr, hs]
        exact ⟨_, rfl, .cons hcd hrel⟩
  induction hl with
  | nil => exact ⟨[], rfl, .nil⟩
  | cons hab _ ih =>
    obtain ⟨s, hs, hrel⟩ := ih
    unfold sortBy
    rw [hs, List.insertionSort_cons]
    exact hinsert hab hrel

/-- The same of a comparator that does not fail. -/
lemma insertionSort_related {q : α → α → Prop} [DecidableRel q]
    (hq : ∀ a a' b b', R a b → R a' b' → (q a a' ↔ r b b')) {l : List α} {l' : List β}
    (hl : List.Forall₂ R l l') : List.Forall₂ R (l.insertionSort q) (l'.insertionSort r) := by
  have hle : ∀ a a' b b', R a b → R a' b' →
      (.ok (decide (q a a')) : Except Unit Bool) = .ok (decide (r b b')) := by
    intro a a' b b' ha hb
    rw [decide_eq_decide.mpr (hq a a' b b' ha hb)]
  obtain ⟨s, hs, hrel⟩ := sortBy_related hle hl
  rw [sortBy_ok] at hs
  exact Except.ok.inj hs ▸ hrel

end Related

end ShadeTree.Lib
