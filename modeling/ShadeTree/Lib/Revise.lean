import Mathlib.Data.List.Induction
import Mathlib.Order.Lattice
import Mathlib.Tactic.Common

/-!
# Ascending lists that are revised from a key on

A list of items, ascending in a key, takes in one item: where the item with its key agrees with it (has its `tag`)
nothing changes, and otherwise the new item replaces everything from its key on.  Items that come in the order of
their keys can be taken in a second time without a change.
-/

namespace ShadeTree.Lib.Revise

variable {α β κ : Type*} [LinearOrder κ] [DecidableEq β] (key : α → κ) (tag : α → β)

def Ascending (l : List α) : Prop := l.Pairwise fun x y => key x < key y

/-- An item with the key and the tag of `b` is there. -/
def Holds (l : List α) (b : α) : Prop := ∃ x ∈ l, key x = key b ∧ tag x = tag b

instance (l : List α) (b : α) : Decidable (Holds key tag l b) :=
  inferInstanceAs (Decidable (∃ x ∈ l, key x = key b ∧ tag x = tag b))

/-- The items with a key below `m`. -/
def below (m : κ) (l : List α) : List α := l.filter fun x => key x < m

def revise (l : List α) (b : α) : List α :=
  if Holds key tag l b then l else below key (key b) l ++ [b]

def reviseAll (l bs : List α) : List α := bs.foldl (revise key tag) l

/-- `b` meets its own key in `l`, or comes after everything. -/
def Fits (l : List α) (b : α) : Prop := (∃ x ∈ l, key x = key b) ∨ ∀ x ∈ l, key x < key b

/-- Every item fits, or comes after an item of `bs` that replaces what stands at its key. -/
def Timely (l bs : List α) : Prop :=
  ∀ b ∈ bs, Fits key l b ∨ ∃ c ∈ bs, key c < key b ∧ ∃ x ∈ l, key x = key c ∧ tag x ≠ tag c

variable {key tag} {l bs p q : List α} {b c x y : α} {m : κ}

/-! ### One item -/

lemma mem_below : x ∈ below key m l ↔ x ∈ l ∧ key x < m := by simp [below]

lemma Ascending.eq (h : Ascending key l) (hx : x ∈ l) (hy : y ∈ l) (hxy : key x = key y) : x = y := by
  induction l with
  | nil => cases hx
  | cons a l ih =>
    obtain ⟨ha, hl⟩ := List.pairwise_cons.mp h
    rcases List.mem_cons.mp hx with rfl | hxl <;> rcases List.mem_cons.mp hy with rfl | hyl
    · rfl
    · exact absurd hxy (ha y hyl).ne
    · exact absurd hxy (ha x hxl).ne'
    · exact ih hl hxl hyl

omit [DecidableEq β] in
lemma Ascending.tag_eq (h : Ascending key l) (hb : Holds key tag l b) (hc : Holds key tag l c) (hbc : key b = key c) :
    tag b = tag c := by
  obtain ⟨x, hx, hxk, hxt⟩ := hb
  obtain ⟨y, hy, hyk, hyt⟩ := hc
  obtain rfl := h.eq hx hy (hxk.trans (hbc.trans hyk.symm))
  exact hxt.symm.trans hyt

lemma revise_of_holds (h : Holds key tag l b) : revise key tag l b = l := if_pos h

lemma revise_of_not_holds (h : ¬ Holds key tag l b) : revise key tag l b = below key (key b) l ++ [b] := if_neg h

lemma mem_revise (hx : x ∈ revise key tag l b) : x ∈ l ∨ x = b := by
  by_cases h : Holds key tag l b
  · exact .inl (revise_of_holds h ▸ hx)
  · rw [revise_of_not_holds h, List.mem_append, mem_below, List.mem_singleton] at hx
    exact hx.imp And.left id

lemma Ascending.revise (h : Ascending key l) : Ascending key (revise key tag l b) := by
  by_cases hb : Holds key tag l b
  · rwa [revise_of_holds hb]
  · rw [revise_of_not_holds hb]
    refine List.pairwise_append.mpr ⟨h.filter _, List.pairwise_singleton _ _, fun x hx y hy => ?_⟩
    rw [List.mem_singleton.mp hy]
    exact (mem_below.mp hx).2

lemma holds_revise : Holds key tag (revise key tag l b) b := by
  by_cases h : Holds key tag l b
  · rwa [revise_of_holds h]
  · rw [revise_of_not_holds h]
    exact ⟨b, by simp, rfl, rfl⟩

/-- Either nothing changes, or the item is the last one now. -/
lemma revise_eq_or : revise key tag l b = l ∨ ∀ x ∈ revise key tag l b, key x ≤ key b := by
  by_cases h : Holds key tag l b
  · exact .inl (revise_of_holds h)
  · refine .inr fun x hx => ?_
    rw [revise_of_not_holds h, List.mem_append, mem_below, List.mem_singleton] at hx
    rcases hx with hx | rfl
    · exact hx.2.le
    · exact le_rfl

/-- What stands below the key stays. -/
lemma below_revise (h : m ≤ key b) : below key m (revise key tag l b) = below key m l := by
  by_cases hb : Holds key tag l b
  · rw [revise_of_holds hb]
  · have hlast : below key m [b] = [] := by simp [below, h]
    rw [revise_of_not_holds hb]
    unfold below at hlast ⊢
    rw [List.filter_append, hlast, List.append_nil, List.filter_filter]
    refine List.filter_congr fun x _ => ?_
    simp only [Bool.and_eq_left_iff_imp, decide_eq_true_eq]
    exact fun hx => lt_of_lt_of_le hx h

lemma below_revise_of_lt (h : key b < m) :
    below key m (revise key tag l b) = revise key tag (below key m l) b := by
  have hiff : Holds key tag (below key m l) b ↔ Holds key tag l b := by
    constructor
    · rintro ⟨x, hx, hxb⟩
      exact ⟨x, (mem_below.mp hx).1, hxb⟩
    · rintro ⟨x, hx, hxb⟩
      exact ⟨x, mem_below.mpr ⟨hx, hxb.1 ▸ h⟩, hxb⟩
  by_cases hb : Holds key tag l b
  · rw [revise_of_holds hb, revise_of_holds (hiff.mpr hb)]
  · rw [revise_of_not_holds hb, revise_of_not_holds (hiff.not.mpr hb)]
    unfold below
    have hlast : [b].filter (fun x => key x < m) = [b] := by simp [h]
    rw [List.filter_append, List.filter_filter, List.filter_filter, hlast]
    congr 1
    refine List.filter_congr fun x _ => ?_
    rw [Bool.and_comm]

/-! ### Many items -/

lemma reviseAll_append : reviseAll key tag l (p ++ q) = reviseAll key tag (reviseAll key tag l p) q :=
  List.foldl_append

lemma reviseAll_snoc : reviseAll key tag l (p ++ [b]) = revise key tag (reviseAll key tag l p) b :=
  List.foldl_append

lemma Ascending.reviseAll (h : Ascending key l) : Ascending key (reviseAll key tag l bs) := by
  induction bs generalizing l with
  | nil => exact h
  | cons b bs ih => exact ih h.revise

lemma mem_reviseAll (hx : x ∈ reviseAll key tag l bs) : x ∈ l ∨ x ∈ bs := by
  induction bs generalizing l with
  | nil => exact .inl hx
  | cons b bs ih =>
    rcases ih hx with h | h
    · rcases mem_revise h with h | rfl
      · exact .inl h
      · exact .inr List.mem_cons_self
    · exact .inr (List.mem_cons_of_mem b h)

/-- The items below a key are revised by the items below it. -/
lemma below_reviseAll : below key m (reviseAll key tag l bs) = reviseAll key tag (below key m l) (below key m bs) := by
  induction bs generalizing l with
  | nil => rfl
  | cons b bs ih =>
    have hcons : reviseAll key tag l (b :: bs) = reviseAll key tag (revise key tag l b) bs := rfl
    rw [hcons, ih]
    by_cases hb : key b < m
    · have hbelow : below key m (b :: bs) = b :: below key m bs := List.filter_cons_of_pos (by simpa using hb)
      rw [hbelow, below_revise_of_lt hb]
      rfl
    · have hbelow : below key m (b :: bs) = below key m bs := List.filter_cons_of_neg (by simpa using hb)
      rw [hbelow, below_revise (not_lt.mp hb)]

lemma reviseAll_le (hl : ∀ x ∈ l, key x ≤ m) (hbs : ∀ b ∈ bs, key b ≤ m) :
    ∀ x ∈ reviseAll key tag l bs, key x ≤ m := by
  intro x hx
  rcases mem_reviseAll hx with h | h
  · exact hl x h
  · exact hbs x h

/-- Items with keys that satisfy a test closed downwards: nothing changes, or no other key is left. -/
lemma reviseAll_eq_or (tag : α → β) (l : List α) (P : κ → Prop) (hP : ∀ k k', k ≤ k' → P k' → P k)
    (hbs : ∀ b ∈ bs, P (key b)) :
    reviseAll key tag l bs = l ∨ ∀ x ∈ reviseAll key tag l bs, P (key x) := by
  induction bs using List.reverseRecOn with
  | nil => exact .inl rfl
  | append_singleton bs b ih =>
    have hb : P (key b) := hbs b (by simp)
    rw [reviseAll_snoc]
    rcases ih fun c hc => hbs c (by simp [hc]) with heq | hall
    · rw [heq]
      exact revise_eq_or.imp id fun h x hx => hP _ _ (h x hx) hb
    · right
      intro x hx
      rcases mem_revise hx with h | rfl
      · exact hall x h
      · exact hb

variable (hbs : bs.Pairwise fun x y => key x ≤ key y)

include hbs

/-- Every item leaves an item with its key. -/
lemma exists_key_reviseAll (hb : b ∈ bs) : ∃ x ∈ reviseAll key tag l bs, key x = key b := by
  induction bs using List.reverseRecOn with
  | nil => cases hb
  | append_singleton bs c ih =>
    obtain ⟨hsorted, -, hlast⟩ := List.pairwise_append.mp hbs
    rw [reviseAll_snoc]
    rcases List.mem_append.mp hb with hmem | hmem
    · obtain ⟨x, hx, hxb⟩ := ih hsorted hmem
      by_cases hc : Holds key tag (reviseAll key tag l bs) c
      · exact ⟨x, (revise_of_holds hc).symm ▸ hx, hxb⟩
      · rw [revise_of_not_holds hc]
        rcases (hlast b hmem c (by simp)).lt_or_eq with hlt | heq
        · exact ⟨x, by simp [mem_below, hx, hxb, hlt], hxb⟩
        · exact ⟨c, by simp, heq.symm⟩
    · obtain rfl := List.mem_singleton.mp hmem
      obtain ⟨x, hx, hxb, -⟩ : Holds key tag (revise key tag (reviseAll key tag l bs) b) b := holds_revise
      exact ⟨x, hx, hxb⟩

/-- **Taking the same items in again changes nothing.** -/
theorem reviseAll_reviseAll (hl : Ascending key l) :
    reviseAll key tag (reviseAll key tag l bs) bs = reviseAll key tag l bs := by
  induction bs using List.reverseRecOn with
  | nil => rfl
  | append_singleton bs c ih =>
    obtain ⟨hsorted, -, hlast⟩ := List.pairwise_append.mp hbs
    have hle : ∀ b ∈ bs, key b ≤ key c := fun b hb => hlast b hb c (by simp)
    specialize ih hsorted
    set s := reviseAll key tag l bs with hs
    have hsasc : Ascending key s := hl.reviseAll
    rw [reviseAll_snoc, reviseAll_snoc, ← hs]
    by_cases hc : Holds key tag s c
    · rw [revise_of_holds hc, ih, revise_of_holds hc]
    set s' := revise key tag s c with hs'
    have hs'asc : Ascending key s' := hsasc.revise
    set t := reviseAll key tag s' bs with ht
    -- below the key of `c` the second pass sees what the first one left
    have hbelow : below key (key c) t = below key (key c) s := by
      rw [ht, below_reviseAll, hs', below_revise le_rfl, ← below_reviseAll, ih]
    by_cases htc : Holds key tag t c
    · -- then no item of `bs` has the key of `c`: it would have left its own tag there
      have hlt : ∀ b ∈ bs, key b < key c := by
        rcases List.eq_nil_or_concat bs with rfl | ⟨bs, d, rfl⟩
        · simp
        rw [List.concat_eq_append] at *
        have hd : key d < key c := by
          refine lt_of_le_of_ne (hle d (by simp)) fun hdc => hc ?_
          have htd : Holds key tag t d := by
            rw [ht, reviseAll_snoc]
            exact holds_revise
          have hsd : Holds key tag s d := by
            rw [hs, reviseAll_snoc]
            exact holds_revise
          have htag := (hs'asc.reviseAll).tag_eq htd htc hdc
          obtain ⟨x, hx, hxk, hxt⟩ := hsd
          exact ⟨x, hx, hxk.trans hdc, hxt.trans htag⟩
        intro b hb
        rcases List.mem_append.mp hb with hb | hb
        · exact lt_of_le_of_lt ((List.pairwise_append.mp hsorted).2.2 b hb d (by simp)) hd
        · rwa [List.mem_singleton.mp hb]
      rw [revise_of_holds htc]
      rcases reviseAll_eq_or tag s' (fun k => k < key c)
        (fun k k' h h' => lt_of_le_of_lt h h') hlt with heq | hall
      · exact heq
      · obtain ⟨x, hx, hxk, -⟩ := htc
        exact absurd (hxk ▸ hall x hx) (lt_irrefl _)
    · rw [revise_of_not_holds htc, hbelow, hs', revise_of_not_holds hc]

omit hbs

/-- At its turn every item of a timely list fits. -/
theorem Timely.fits (h : Timely key tag l (p ++ b :: q)) (hl : Ascending key l)
    (hsorted : (p ++ b :: q).Pairwise fun x y => key x ≤ key y) : Fits key (reviseAll key tag l p) b := by
  obtain ⟨-, hq, hlast⟩ := List.pairwise_append.mp hsorted
  have hp : ∀ x ∈ p, key x ≤ key b := fun x hx => hlast x hx b (by simp)
  -- a list whose keys go no further than the key of `b` has it or ends before it
  have hend : ∀ t : List α, (∀ x ∈ t, key x ≤ key b) → Fits key t b := by
    intro t ht
    by_cases hex : ∃ x ∈ t, key x = key b
    · exact .inl hex
    · exact .inr fun x hx => lt_of_le_of_ne (ht x hx) fun heq => hex ⟨x, hx, heq⟩
  rcases h b (by simp) with (hmem | hall) | ⟨c, hc, hcb, x, hx, hxk, hxt⟩
  · rcases reviseAll_eq_or tag l (fun k => k ≤ key b) (fun _ _ => le_trans) hp with heq | hle
    · rw [heq]
      exact .inl hmem
    · exact hend _ hle
  · exact hend _ (reviseAll_le (fun x hx => (hall x hx).le) hp)
  · have hcp : c ∈ p := by
      rcases List.mem_append.mp hc with hc | hc
      · exact hc
      · rcases List.mem_cons.mp hc with rfl | hc
        · exact absurd hcb (lt_irrefl _)
        · exact absurd hcb (not_lt.mpr ((List.pairwise_cons.mp hq).1 c hc))
    obtain ⟨p₁, p₂, rfl⟩ := List.append_of_mem hcp
    have hp₁ : ∀ x ∈ p₁, key x ≤ key c := fun x hx =>
      (List.pairwise_append.mp (List.pairwise_append.mp hsorted).1).2.2 x hx c (by simp)
    have hcut : ∀ y ∈ revise key tag (reviseAll key tag l p₁) c, key y ≤ key c := by
      rcases reviseAll_eq_or tag l (fun k => k ≤ key c) (fun _ _ => le_trans) hp₁ with heq | hle
      · have hnot : ¬ Holds key tag l c := by
          rintro ⟨y, hy, hyk, hyt⟩
          obtain rfl := hl.eq hx hy (hxk.trans hyk.symm)
          exact hxt hyt
        rw [heq, revise_of_not_holds hnot]
        intro y hy
        rcases List.mem_append.mp hy with hy | hy
        · exact (mem_below.mp hy).2.le
        · rw [List.mem_singleton.mp hy]
      · intro y hy
        rcases mem_revise hy with hy | rfl
        · exact hle y hy
        · exact le_rfl
    have hcons : reviseAll key tag l (p₁ ++ c :: p₂) =
        reviseAll key tag (revise key tag (reviseAll key tag l p₁) c) p₂ := reviseAll_append
    rw [hcons]
    exact hend _ (reviseAll_le (fun y hy => (hcut y hy).trans hcb.le) fun y hy => hp y (by simp [hy]))

/-- Items that have all been taken in are timely again. -/
lemma timely_reviseAll (hsorted : bs.Pairwise fun x y => key x ≤ key y) :
    Timely key tag (reviseAll key tag l bs) bs :=
  fun _ hb => .inl (.inl (exists_key_reviseAll hsorted hb))

end ShadeTree.Lib.Revise
