import Mathlib.Algebra.Order.Floor.Semiring
import Mathlib.Algebra.Order.BigOperators.Group.List
import Mathlib.Data.Rat.Floor
import Mathlib.Data.List.Nodup
import ShadeTree.Lib.RoundRobin

/-!
# Weighted orders

Candidates are put into an order by drawing one after the other by weight, without those of a key already drawn.  As
long as there are candidates that are not down, only they are drawn from.  Such an order has every key once, the
candidates that are down last, and of each kind those without weight last.

A spread order takes its first candidate in smooth weighted round robin instead: a credit is kept for every key from
one order to the next.  For a fixed pool these are the rounds of `RoundRobin`.
-/

namespace ShadeTree.Lib.WeightedOrder

open Function (update update_self update_of_ne)

/-- What is read of a candidate. -/
structure Reading (α κ : Type*) where
  key : α → κ
  down : α → Bool
  weight : α → ℚ

section Order

variable {α κ : Type*} (R : Reading α κ)

/-! ### Drawing -/

def total (pool : List α) : ℚ := (pool.map R.weight).sum

/-- The weights are taken off `r` until nothing is left of it. -/
def walk (r : ℚ) : List α → Option α
  | [] => none
  | g :: pool => if r - R.weight g < 0 then some g else walk (r - R.weight g) pool

/-- The candidate at the share `x` of the pool, by number when nothing has a weight. -/
def draw (x : ℚ) (pool : List α) : Option α :=
  if total R pool ≤ 0 then pool[⌊x * pool.length⌋₊]? else (walk R (x * total R pool) pool).or pool.getLast?

/-- What is drawn from: what is not down, or all if everything is. -/
def poolOf (all : List α) : List α :=
  let healthy := all.filter fun g => !R.down g
  if healthy.isEmpty then all else healthy

/-- What a spread order chooses from: what has a weight, or all of the pool if nothing has. -/
def spreadPool (all : List α) : List α :=
  let positive := (poolOf R all).filter fun g => decide (0 < R.weight g)
  if positive.isEmpty then poolOf R all else positive

/-- `g` may stand before `g'`. -/
def Ranked (g g' : α) : Prop :=
  (R.down g = true → R.down g' = true) ∧ (R.down g = R.down g' → 0 < R.weight g' → 0 < R.weight g)

/-- A complete order of the candidates by rank. -/
structure Complete (all o : List α) : Prop where
  sub : ∀ g ∈ o, g ∈ all
  keys_nodup : (o.map R.key).Nodup
  keys_all : ∀ g ∈ all, R.key g ∈ o.map R.key
  ranked : o.Pairwise (Ranked R)

variable {R}

lemma total_cons (g : α) (pool : List α) : total R (g :: pool) = R.weight g + total R pool := by
  simp [total]

lemma walk_spec {pool : List α} (hw : ∀ g ∈ pool, 0 ≤ R.weight g) {r : ℚ} (hr : 0 ≤ r) (hlt : r < total R pool) :
    ∃ g ∈ pool, walk R r pool = some g ∧ 0 < R.weight g := by
  induction pool generalizing r with
  | nil => exact absurd hlt (by simp [total, hr])
  | cons g pool ih =>
    rw [walk]
    split_ifs with hg
    · exact ⟨g, List.mem_cons_self, rfl, by linarith⟩
    · rw [total_cons] at hlt
      obtain ⟨g', hg', hwalk, hpos⟩ := ih (fun g' hg' => hw g' (List.mem_cons_of_mem _ hg')) (not_lt.mp hg)
        (by linarith)
      exact ⟨g', List.mem_cons_of_mem _ hg', hwalk, hpos⟩

lemma weight_eq_zero {pool : List α} (hw : ∀ g ∈ pool, 0 ≤ R.weight g) (htotal : total R pool ≤ 0) :
    ∀ g ∈ pool, R.weight g = 0 := by
  intro g hg
  have hle : R.weight g ≤ total R pool :=
    List.single_le_sum (by simpa using hw) _ (List.mem_map_of_mem hg)
  exact le_antisymm (hle.trans htotal) (hw g hg)

/-- Something is drawn from what is not empty, and without a weight only if nothing has one. -/
lemma draw_spec {pool : List α} (hw : ∀ g ∈ pool, 0 ≤ R.weight g) {x : ℚ} (hx : 0 ≤ x ∧ x < 1) (hne : pool ≠ []) :
    ∃ g ∈ pool, draw R x pool = some g ∧ ((∃ g' ∈ pool, 0 < R.weight g') → 0 < R.weight g) := by
  unfold draw
  split_ifs with htotal
  · have hlen : (0 : ℚ) < pool.length := by exact_mod_cast List.length_pos_of_ne_nil hne
    have hindex : ⌊x * pool.length⌋₊ < pool.length :=
      (Nat.floor_lt (mul_nonneg hx.1 hlen.le)).mpr (by nlinarith [hx.2])
    refine ⟨pool[⌊x * pool.length⌋₊], List.getElem_mem _, List.getElem?_eq_getElem hindex, ?_⟩
    rintro ⟨g', hg', hpos⟩
    exact absurd (weight_eq_zero hw htotal g' hg') hpos.ne'
  · have hpos := not_le.mp htotal
    obtain ⟨g, hg, hwalk, hweight⟩ := walk_spec hw (mul_nonneg hx.1 hpos.le)
      (show x * total R pool < total R pool by nlinarith [hx.2])
    exact ⟨g, hg, by rw [hwalk]; rfl, fun _ => hweight⟩

lemma draw_nil (x : ℚ) : draw R x [] = none := by simp [draw, total]

lemma poolOf_nil : poolOf R [] = [] := rfl

lemma poolOf_sub {all : List α} {g : α} (hg : g ∈ poolOf R all) : g ∈ all := by
  simp only [poolOf] at hg
  split at hg
  · exact hg
  · exact List.mem_of_mem_filter hg

lemma poolOf_ne_nil {all : List α} (h : all ≠ []) : poolOf R all ≠ [] := by
  simp only [poolOf]
  split
  · exact h
  · next hhealthy =>
    intro hnil
    simp [hnil] at hhealthy

/-- Of a pool everything is down, or nothing. -/
lemma mem_poolOf_of_down {all : List α} {g : α} (hg : g ∈ poolOf R all) {g' : α} (hg' : g' ∈ all) :
    (R.down g = true → R.down g' = true) ∧ (R.down g = R.down g' → g' ∈ poolOf R all) := by
  simp only [poolOf] at hg ⊢
  by_cases hhealthy : (all.filter fun g => !R.down g).isEmpty = true
  · rw [if_pos hhealthy] at hg ⊢
    refine ⟨fun _ => ?_, fun _ => hg'⟩
    have := List.filter_eq_nil_iff.mp (List.isEmpty_iff.mp hhealthy) g' hg'
    simpa using this
  · rw [if_neg hhealthy] at hg ⊢
    have hup := (List.mem_filter.mp hg).2
    refine ⟨fun hdown => by simp [hdown] at hup, fun heq => List.mem_filter.mpr ⟨hg', ?_⟩⟩
    rw [← heq]
    exact hup

lemma mem_spreadPool {all : List α} {g : α} (hg : g ∈ spreadPool R all) :
    g ∈ poolOf R all ∧ ((∃ g' ∈ poolOf R all, 0 < R.weight g') → 0 < R.weight g) := by
  simp only [spreadPool] at hg
  split at hg
  · next hnone =>
    refine ⟨hg, fun ⟨g', hg', hpos⟩ => ?_⟩
    have := List.filter_eq_nil_iff.mp (List.isEmpty_iff.mp hnone) g' hg'
    exact absurd hpos (by simpa using this)
  · have := List.mem_filter.mp hg
    exact ⟨this.1, fun _ => by simpa using this.2⟩

lemma mem_spreadPool_of_pos {all : List α} {g : α} (hg : g ∈ poolOf R all) (hpos : 0 < R.weight g) :
    g ∈ spreadPool R all := by
  have hmem : g ∈ (poolOf R all).filter fun g => decide (0 < R.weight g) :=
    List.mem_filter.mpr ⟨hg, by simpa using hpos⟩
  simp only [spreadPool]
  rw [if_neg]
  · exact hmem
  · intro hempty
    rw [List.isEmpty_iff.mp hempty] at hmem
    cases hmem

/-- Who is drawn from a pool may stand before all. -/
lemma ranked_of_draw {all : List α} {g : α} (hg : g ∈ poolOf R all)
    (hpos : (∃ g' ∈ poolOf R all, 0 < R.weight g') → 0 < R.weight g) : ∀ g' ∈ all, Ranked R g g' := by
  intro g' hg'
  obtain ⟨hdown, hmem⟩ := mem_poolOf_of_down hg hg'
  exact ⟨hdown, fun heq hweight => hpos ⟨g', hmem heq, hweight⟩⟩

lemma complete_nil : Complete R [] [] := ⟨by simp, by simp, by simp, by simp⟩

/-! ### The highest credit -/

/-- The higher of the best so far and a candidate, the earlier one when they are equal. -/
def better (best : Option (α × ℚ)) (g : α) (credit : ℚ) : Option (α × ℚ) :=
  match best with
  | some b => if b.2 < credit then some (g, credit) else some b
  | none => some (g, credit)

/-- The best of a pool whose candidates are raised from the credits `x`. -/
def leader (R : Reading α κ) (x : κ → ℚ) (best : Option (α × ℚ)) (pool : List α) : Option (α × ℚ) :=
  pool.foldl (fun best g => better best g (x (R.key g) + R.weight g)) best

lemma leader_congr {x y : κ → ℚ} {pool : List α} (h : ∀ g ∈ pool, x (R.key g) = y (R.key g))
    (best : Option (α × ℚ)) : leader R x best pool = leader R y best pool := by
  induction pool generalizing best with
  | nil => rfl
  | cons g pool ih =>
    show leader R x (better best g _) pool = leader R y (better best g _) pool
    rw [h g List.mem_cons_self, ih fun g' hg' => h g' (List.mem_cons_of_mem _ hg')]

/-- The leader is as high as all others and the best before. -/
lemma leader_spec {x : κ → ℚ} {pool : List α} (best : Option (α × ℚ)) (h : pool ≠ [] ∨ best.isSome) :
    ∃ b, leader R x best pool = some b ∧ (best = some b ∨ b.1 ∈ pool ∧ b.2 = x (R.key b.1) + R.weight b.1) ∧
      (∀ g ∈ pool, x (R.key g) + R.weight g ≤ b.2) ∧ ∀ b', best = some b' → b'.2 ≤ b.2 := by
  induction pool generalizing best with
  | nil =>
    obtain ⟨b, rfl⟩ := Option.isSome_iff_exists.mp (h.resolve_left (· rfl))
    exact ⟨b, rfl, .inl rfl, by simp, fun b' hb' => by rw [Option.some.inj hb']⟩
  | cons g pool ih =>
    obtain ⟨c, hc, hhigh, hbest⟩ : ∃ c, better best g (x (R.key g) + R.weight g) = some c ∧
        (x (R.key g) + R.weight g ≤ c.2 ∧ ∀ b', best = some b' → b'.2 ≤ c.2) ∧
        (best = some c ∨ c = (g, x (R.key g) + R.weight g)) := by
      cases best with
      | none => exact ⟨_, rfl, ⟨le_rfl, by simp⟩, .inr rfl⟩
      | some b =>
        by_cases hlt : b.2 < x (R.key g) + R.weight g
        · refine ⟨_, if_pos hlt, ⟨le_rfl, fun b' hb' => ?_⟩, .inr rfl⟩
          rw [← Option.some.inj hb']
          exact hlt.le
        · exact ⟨_, if_neg hlt, ⟨not_lt.mp hlt, fun b' hb' => by rw [Option.some.inj hb']⟩, .inl rfl⟩
    obtain ⟨b, hleader, hfrom, hall, hbefore⟩ := ih (some c) (.inr rfl)
    refine ⟨b, ?_, ?_, ?_, fun b' hb' => (hhigh.2 b' hb').trans (hbefore c rfl)⟩
    · show leader R x (better best g _) pool = some b
      rw [hc, hleader]
    · rcases hfrom with hsame | ⟨hmem, hvalue⟩
      · rw [← Option.some.inj hsame]
        rcases hbest with hbest | rfl
        · exact .inl hbest
        · exact .inr ⟨List.mem_cons_self, rfl⟩
      · exact .inr ⟨List.mem_cons_of_mem _ hmem, hvalue⟩
    · intro g' hg'
      rcases List.mem_cons.mp hg' with rfl | hg'
      · exact hhigh.1.trans (hbefore c rfl)
      · exact hall g' hg'

lemma better_cases (best : Option (α × ℚ)) (g : α) (credit : ℚ) :
    better best g credit = some (g, credit) ∨ ∃ b, best = some b ∧ better best g credit = some b := by
  unfold better
  split
  · next b =>
    split
    · exact .inl rfl
    · exact .inr ⟨b, rfl, rfl⟩
  · exact .inl rfl

/-- The credit a candidate is raised from: its own, or a share of its weight. -/
def StartsAt (R : Reading α κ) (credit : κ → Option ℚ) (x : κ → ℚ) (g : α) : Prop :=
  credit (R.key g) = some (x (R.key g)) ∨
    credit (R.key g) = none ∧ 0 ≤ x (R.key g) ∧ x (R.key g) < R.weight g

variable (R) (rng : ℕ → ℚ)

/-- A pool of distinct keys with weights that are positive whole numbers. -/
structure Fair (weight : κ → ℕ) (pool : List α) : Prop where
  keys_nodup : (pool.map R.key).Nodup
  weight_eq : ∀ g ∈ pool, R.weight g = weight (R.key g)
  weight_pos : ∀ g ∈ pool, 0 < weight (R.key g)

/-- What drawing needs: no negative weight, and draws of `[0, 1)`. -/
structure Drawable (all : List α) : Prop where
  nonneg : ∀ g ∈ all, 0 ≤ R.weight g
  draws : ∀ k, 0 ≤ rng k ∧ rng k < 1

variable {R rng}

lemma Fair.pos {weight : κ → ℕ} {pool : List α} (h : Fair R weight pool) : ∀ g ∈ pool, 0 < R.weight g := by
  intro g hg
  rw [h.weight_eq g hg]
  exact_mod_cast h.weight_pos g hg

/-- What is drawn next. -/
lemma Drawable.next {all : List α} (h : Drawable R rng all) (k : ℕ) (hne : all ≠ []) :
    ∃ g ∈ all, draw R (rng k) (poolOf R all) = some g ∧ ∀ g' ∈ all, Ranked R g g' := by
  obtain ⟨g, hg, hdraw, hpos⟩ := draw_spec (fun g hg => h.nonneg g (poolOf_sub hg)) (h.draws k) (poolOf_ne_nil hne)
  exact ⟨g, poolOf_sub hg, hdraw, ranked_of_draw hg hpos⟩

/-! ### Orders -/

variable [DecidableEq κ] (R rng)

/-- The candidates of other keys. -/
def without (g : α) (all : List α) : List α := all.filter fun g' => decide (R.key g' ≠ R.key g)

/-- An order from draw `k` on, of as many candidates at most. -/
def orderFrom : ℕ → ℕ → List α → List α
  | 0, _, _ => []
  | fuel + 1, k, all =>
    match draw R (rng k) (poolOf R all) with
    | none => []
    | some g => g :: orderFrom fuel (k + 1) (without R g all)

/-- Every draw takes a key away, so that there are no more than candidates. -/
def order (k : ℕ) (all : List α) : List α := orderFrom R rng all.length k all

variable {R rng}

lemma mem_without {g g' : α} {all : List α} : g' ∈ without R g all ↔ g' ∈ all ∧ R.key g' ≠ R.key g := by
  simp [without]

lemma length_without_lt {g : α} {all : List α} (hg : g ∈ all) : (without R g all).length < all.length :=
  List.length_filter_lt_length_iff_exists.mpr ⟨g, hg, by simp⟩

/-- A candidate that may stand before all, before a complete order of the others. -/
lemma Complete.cons {all o : List α} {g : α} (h : Complete R (without R g all) o) (hg : g ∈ all)
    (hrank : ∀ g' ∈ all, Ranked R g g') : Complete R all (g :: o) where
  sub g' hg' := by
    rcases List.mem_cons.mp hg' with rfl | hg'
    · exact hg
    · exact (mem_without.mp (h.sub g' hg')).1
  keys_nodup := by
    refine List.nodup_cons.mpr ⟨fun hmem => ?_, h.keys_nodup⟩
    obtain ⟨g', hg', hkey⟩ := List.mem_map.mp hmem
    exact (mem_without.mp (h.sub g' hg')).2 hkey
  keys_all g' hg' := by
    by_cases hkey : R.key g' = R.key g
    · simp [hkey]
    · exact List.mem_cons_of_mem _ (h.keys_all g' (mem_without.mpr ⟨hg', hkey⟩))
  ranked := List.pairwise_cons.mpr ⟨fun g' hg' => hrank g' (mem_without.mp (h.sub g' hg')).1, h.ranked⟩

lemma Drawable.others {all : List α} (h : Drawable R rng all) (g : α) : Drawable R rng (without R g all) :=
  ⟨fun g' hg' => h.nonneg g' (mem_without.mp hg').1, h.draws⟩

lemma orderFrom_nil (fuel k : ℕ) : orderFrom R rng fuel k [] = [] := by
  cases fuel with
  | zero => rfl
  | succ fuel => rw [orderFrom, poolOf_nil, draw_nil]

lemma orderFrom_complete {fuel k : ℕ} {all : List α} (h : Drawable R rng all) (hfuel : all.length ≤ fuel) :
    Complete R all (orderFrom R rng fuel k all) := by
  induction fuel generalizing k all with
  | zero =>
    obtain rfl := List.length_eq_zero_iff.mp (Nat.le_zero.mp hfuel)
    exact complete_nil
  | succ fuel ih =>
    rcases eq_or_ne all [] with rfl | hne
    · rw [orderFrom_nil]
      exact complete_nil
    · obtain ⟨g, hg, hdraw, hrank⟩ := h.next k hne
      rw [orderFrom, hdraw]
      have := length_without_lt (R := R) hg
      exact (ih (h.others g) (by omega)).cons hg hrank

/-- **Orders are complete.** -/
theorem order_complete {k : ℕ} {all : List α} (h : Drawable R rng all) : Complete R all (order R rng k all) :=
  orderFrom_complete h le_rfl

/-- Enough draws are enough. -/
lemma orderFrom_eq {fuel fuel' k : ℕ} {all : List α} (h : Drawable R rng all) (hfuel : all.length ≤ fuel)
    (hfuel' : all.length ≤ fuel') : orderFrom R rng fuel k all = orderFrom R rng fuel' k all := by
  induction fuel generalizing fuel' k all with
  | zero =>
    obtain rfl := List.length_eq_zero_iff.mp (Nat.le_zero.mp hfuel)
    rw [orderFrom_nil, orderFrom_nil]
  | succ fuel ih =>
    rcases eq_or_ne all [] with rfl | hne
    · rw [orderFrom_nil, orderFrom_nil]
    · obtain ⟨g, hg, hdraw, -⟩ := h.next k hne
      have hlt := length_without_lt (R := R) hg
      obtain ⟨fuel', rfl⟩ : ∃ n, fuel' = n + 1 := ⟨fuel' - 1, by omega⟩
      rw [orderFrom, orderFrom, hdraw]
      exact congrArg (g :: ·) (ih (h.others g) (by omega) (by omega))

/-- The first of an order, and the rest. -/
lemma order_cons {k : ℕ} {all : List α} {g : α} (h : Drawable R rng all) (hg : g ∈ all)
    (hdraw : draw R (rng k) (poolOf R all) = some g) :
    order R rng k all = g :: order R rng (k + 1) (without R g all) := by
  obtain ⟨n, hn⟩ : ∃ n, all.length = n + 1 := Nat.exists_eq_succ_of_ne_zero (List.length_pos_of_mem hg).ne'
  have hlt := length_without_lt (R := R) hg
  rw [order, hn, orderFrom, hdraw]
  exact congrArg (g :: ·) (orderFrom_eq (h.others g) (by omega) le_rfl)

/-! ### Spread orders -/

/-- The variables of a round: the credits, the draws made so far, and the highest credit with its candidate. -/
structure Round (α κ : Type*) where
  credit : κ → Option ℚ
  used : ℕ
  best : Option (α × ℚ)

variable (R rng)

/-- A candidate is raised by its weight; one without a credit starts with a share of its weight. -/
def raise (s : Round α κ) (g : α) : Round α κ :=
  let start := match s.credit (R.key g) with
    | some x => (x, s.used)
    | none => (rng s.used * R.weight g, s.used + 1)
  ⟨update s.credit (R.key g) (some (start.1 + R.weight g)), start.2, better s.best g (start.1 + R.weight g)⟩

def raiseAll (s : Round α κ) (pool : List α) : Round α κ := pool.foldl (raise R rng) s

/-- A choice, with the credits and the draws after it. -/
def choose (credit : κ → Option ℚ) (k : ℕ) (pool : List α) : Option (α × (κ → Option ℚ) × ℕ) :=
  if total R pool ≤ 0 then pool[⌊rng k * pool.length⌋₊]?.map fun g => (g, credit, k + 1)
  else
    let s := raiseAll R rng ⟨credit, k, none⟩ pool
    s.best.map fun b =>
      (b.1, update s.credit (R.key b.1) ((s.credit (R.key b.1)).map (· - total R pool)), s.used)

/-- An order with the credits and the draws after it. -/
structure Spread (α κ : Type*) where
  credit : κ → Option ℚ
  used : ℕ
  order : List α

/-- Credits are kept for the keys of the candidates. -/
def kept (credit : κ → Option ℚ) (all : List α) : κ → Option ℚ := fun a => if a ∈ all.map R.key then credit a else none

/-- With fewer than two to choose from there is only the order. -/
def spread (credit : κ → Option ℚ) (k : ℕ) (all : List α) : Spread α κ :=
  if (spreadPool R all).length < 2 then ⟨credit, k + (order R rng k all).length, order R rng k all⟩
  else
    match choose R rng (kept R credit all) k (spreadPool R all) with
    | none => ⟨kept R credit all, k, []⟩
    | some (g, credit, k) =>
      ⟨credit, k + (order R rng k (without R g all)).length, g :: order R rng k (without R g all)⟩

variable {R rng}

/-- The best is one of the pool, or the best before. -/
lemma raiseAll_best (s : Round α κ) (pool : List α) (h : pool ≠ [] ∨ s.best.isSome) :
    ∃ b, (raiseAll R rng s pool).best = some b ∧ (b.1 ∈ pool ∨ s.best = some b) := by
  induction pool generalizing s with
  | nil =>
    obtain ⟨b, hb⟩ := Option.isSome_iff_exists.mp (h.resolve_left (· rfl))
    exact ⟨b, hb, .inr hb⟩
  | cons g pool ih =>
    have hnext : ∃ credit, (raise R rng s g).best = better s.best g credit := ⟨_, rfl⟩
    obtain ⟨credit, hnext⟩ := hnext
    rcases better_cases s.best g credit with hg | ⟨b, hb, hkeep⟩
    · obtain ⟨b', hbest, hfrom⟩ := ih (raise R rng s g) (.inr (by rw [hnext, hg]; rfl))
      refine ⟨b', hbest, .inl ?_⟩
      rcases hfrom with hmem | hsame
      · exact List.mem_cons_of_mem _ hmem
      · rw [hnext, hg] at hsame
        rw [← Option.some.inj hsame]
        exact List.mem_cons_self
    · obtain ⟨b', hbest, hfrom⟩ := ih (raise R rng s g) (.inr (by rw [hnext, hkeep]; rfl))
      refine ⟨b', hbest, ?_⟩
      rcases hfrom with hmem | hsame
      · exact .inl (List.mem_cons_of_mem _ hmem)
      · exact .inr (by rw [hb, ← hsame, hnext, hkeep])

/-- After a round all of the pool have a credit. -/
lemma raiseAll_isSome (s : Round α κ) {pool : List α} {g : α} (hg : g ∈ pool) :
    ((raiseAll R rng s pool).credit (R.key g)).isSome := by
  have hraise : ∀ (s : Round α κ) (g g' : α), (s.credit (R.key g)).isSome ∨ g' = g →
      ((raise R rng s g').credit (R.key g)).isSome := by
    intro s g g' h
    by_cases heq : R.key g = R.key g'
    · simp [raise, heq]
    · have hg : (s.credit (R.key g)).isSome := h.resolve_right fun h => heq (h ▸ rfl)
      simpa [raise, update_of_ne heq] using hg
  have hkeep : ∀ (pool : List α) (s : Round α κ), (s.credit (R.key g)).isSome →
      ((raiseAll R rng s pool).credit (R.key g)).isSome := by
    intro pool
    induction pool with
    | nil => exact fun _ h => h
    | cons g' pool ih => exact fun s h => ih _ (hraise s g g' (.inl h))
  induction pool generalizing s with
  | nil => cases hg
  | cons g' pool ih =>
    rcases List.mem_cons.mp hg with rfl | hg
    · exact hkeep pool _ (hraise s g g (.inr rfl))
    · exact ih _ hg

/-- Something of the pool is chosen. -/
lemma choose_spec {pool : List α} (credit : κ → Option ℚ) {k : ℕ} (hx : 0 ≤ rng k ∧ rng k < 1) (hne : pool ≠ []) :
    ∃ g ∈ pool, ∃ credit' k', choose R rng credit k pool = some (g, credit', k') := by
  unfold choose
  split_ifs with htotal
  · have hlen : (0 : ℚ) < pool.length := by exact_mod_cast List.length_pos_of_ne_nil hne
    have hindex : ⌊rng k * pool.length⌋₊ < pool.length :=
      (Nat.floor_lt (mul_nonneg hx.1 hlen.le)).mpr (by nlinarith [hx.2])
    exact ⟨pool[⌊rng k * pool.length⌋₊], List.getElem_mem _, credit, k + 1, by
      rw [List.getElem?_eq_getElem hindex]; rfl⟩
  · obtain ⟨b, hbest, hmem⟩ : ∃ b, (raiseAll R rng ⟨credit, k, none⟩ pool).best = some b ∧
        (b.1 ∈ pool ∨ (none : Option (α × ℚ)) = some b) := raiseAll_best _ _ (.inl hne)
    exact ⟨b.1, hmem.resolve_right (by simp), _, _, Option.map_eq_some_iff.mpr ⟨b, hbest, rfl⟩⟩

/-- When nothing has a weight, the choice of a spread order is the first of the order. -/
lemma order_of_weightless {credit : κ → Option ℚ} {k : ℕ} {all : List α} {r : α × (κ → Option ℚ) × ℕ}
    (h : Drawable R rng all) (htotal : total R (spreadPool R all) ≤ 0)
    (hchoose : choose R rng credit k (spreadPool R all) = some r) :
    r.2 = (credit, k + 1) ∧ order R rng k all = r.1 :: order R rng (k + 1) (without R r.1 all) := by
  rw [choose, if_pos htotal] at hchoose
  obtain ⟨g, hg, rfl⟩ := Option.map_eq_some_iff.mp hchoose
  have hmem : g ∈ spreadPool R all := List.mem_of_getElem? hg
  have hnone : ∀ g' ∈ poolOf R all, ¬0 < R.weight g' := by
    intro g' hg' hpos
    have hzero := weight_eq_zero (fun g hg => h.nonneg g (poolOf_sub (mem_spreadPool hg).1)) htotal g'
      (mem_spreadPool_of_pos hg' hpos)
    exact hpos.ne' hzero
  have hpool : spreadPool R all = poolOf R all := by
    have hempty : (poolOf R all).filter (fun g => decide (0 < R.weight g)) = [] :=
      List.filter_eq_nil_iff.mpr fun g' hg' => by simpa using hnone g' hg'
    simp [spreadPool, hempty]
  refine ⟨rfl, order_cons h (poolOf_sub (mem_spreadPool hmem).1) ?_⟩
  rw [hpool] at hg htotal
  rw [draw, if_pos htotal, hg]

/-- **Spread orders are complete.** -/
theorem spread_complete {credit : κ → Option ℚ} {k : ℕ} {all : List α} (h : Drawable R rng all) :
    Complete R all (spread R rng credit k all).order := by
  unfold spread
  split_ifs with hfew
  · exact order_complete h
  · have hne : spreadPool R all ≠ [] := by
      rintro hnil
      simp [hnil] at hfew
    obtain ⟨g, hg, credit', k', hchoose⟩ := choose_spec (R := R) (kept R credit all) (h.draws k) hne
    simp only [hchoose]
    obtain ⟨hpool, hpos⟩ := mem_spreadPool hg
    exact (order_complete (h.others g)).cons (poolOf_sub hpool) (ranked_of_draw hpool hpos)

/-! ### The rounds of a pool -/

/-- What a round does to a pool of distinct keys. -/
lemma raiseAll_spec {pool : List α} (hkeys : (pool.map R.key).Nodup) (hpos : ∀ g ∈ pool, 0 < R.weight g)
    (hdraws : ∀ k, 0 ≤ rng k ∧ rng k < 1) (s : Round α κ) :
    ∃ x : κ → ℚ, (∀ g ∈ pool, StartsAt R s.credit x g) ∧
      (∀ g ∈ pool, (raiseAll R rng s pool).credit (R.key g) = some (x (R.key g) + R.weight g)) ∧
      (∀ a ∉ pool.map R.key, (raiseAll R rng s pool).credit a = s.credit a) ∧
      (raiseAll R rng s pool).best = leader R x s.best pool := by
  induction pool generalizing s with
  | nil => exact ⟨fun _ => 0, by simp, by simp, fun _ _ => rfl, rfl⟩
  | cons g pool ih =>
    obtain ⟨hnot, hkeys⟩ := List.nodup_cons.mp hkeys
    obtain ⟨v, hv, hcredit, hbetter⟩ : ∃ v,
        (s.credit (R.key g) = some v ∨ s.credit (R.key g) = none ∧ 0 ≤ v ∧ v < R.weight g) ∧
        (raise R rng s g).credit = update s.credit (R.key g) (some (v + R.weight g)) ∧
        (raise R rng s g).best = better s.best g (v + R.weight g) := by
      have hg := hpos g List.mem_cons_self
      unfold raise
      cases hcredit : s.credit (R.key g) with
      | some v => exact ⟨v, .inl rfl, rfl, rfl⟩
      | none =>
        have hdraw := hdraws s.used
        exact ⟨_, .inr ⟨rfl, mul_nonneg hdraw.1 hg.le, by nlinarith [hdraw.2]⟩, rfl, rfl⟩
    obtain ⟨x, hstart, hraised, hsame, hbest⟩ := ih hkeys (fun g' hg' => hpos g' (List.mem_cons_of_mem _ hg'))
      (raise R rng s g)
    have hne : ∀ g' ∈ pool, R.key g' ≠ R.key g := fun g' hg' heq => hnot (heq ▸ List.mem_map_of_mem hg')
    have hx : ∀ g' ∈ pool, update x (R.key g) v (R.key g') = x (R.key g') :=
      fun g' hg' => update_of_ne (hne g' hg') _ _
    refine ⟨update x (R.key g) v, ?_, ?_, ?_, ?_⟩
    · intro g' hg'
      rcases List.mem_cons.mp hg' with rfl | hg'
      · simpa [StartsAt] using hv
      · have := hstart g' hg'
        rwa [StartsAt, hcredit, update_of_ne (hne g' hg'), ← hx g' hg'] at this
    · intro g' hg'
      rcases List.mem_cons.mp hg' with rfl | hg'
      · show (raiseAll R rng (raise R rng s g') pool).credit (R.key g') = _
        rw [hsame _ hnot, hcredit, update_self, update_self]
      · rw [hx g' hg']
        exact hraised g' hg'
    · intro a ha
      obtain ⟨hag, hapool⟩ : a ≠ R.key g ∧ a ∉ pool.map R.key := by
        simpa [not_or] using ha
      show (raiseAll R rng (raise R rng s g) pool).credit a = _
      rw [hsame a hapool, hcredit, update_of_ne hag]
    · show (raiseAll R rng (raise R rng s g) pool).best = leader R _ (better s.best g _) pool
      rw [hbest, hbetter, leader_congr hx, update_self]

/-- A spread order of a pool of distinct keys, from the credits `x`. -/
lemma spread_round {all : List α} (hdraws : ∀ k, 0 ≤ rng k ∧ rng k < 1) (hmany : 2 ≤ (spreadPool R all).length)
    (hkeys : ((spreadPool R all).map R.key).Nodup) (hpos : ∀ g ∈ spreadPool R all, 0 < R.weight g)
    (credit : κ → Option ℚ) (k : ℕ) :
    ∃ (x : κ → ℚ) (g : α), g ∈ spreadPool R all ∧ (∀ g' ∈ spreadPool R all, StartsAt R credit x g') ∧
      leader R x none (spreadPool R all) = some (g, x (R.key g) + R.weight g) ∧
      (∀ g' ∈ spreadPool R all, x (R.key g') + R.weight g' ≤ x (R.key g) + R.weight g) ∧
      (spread R rng credit k all).order.head? = some g ∧
      (∀ g' ∈ spreadPool R all, (spread R rng credit k all).credit (R.key g') =
        some (x (R.key g') + R.weight g' - if R.key g = R.key g' then total R (spreadPool R all) else 0)) ∧
      ∀ a ∉ (spreadPool R all).map R.key, credit a = none → (spread R rng credit k all).credit a = none := by
  have hne : spreadPool R all ≠ [] := List.ne_nil_of_length_pos (by omega)
  have htotal : 0 < total R (spreadPool R all) := by
    by_contra hle
    obtain ⟨g, hg⟩ := List.exists_mem_of_ne_nil _ hne
    exact absurd (weight_eq_zero (fun g hg => (hpos g hg).le) (not_lt.mp hle) g hg) (hpos g hg).ne'
  have hlive : ∀ g ∈ spreadPool R all, kept R credit all (R.key g) = credit (R.key g) := fun g hg =>
    if_pos (List.mem_map_of_mem (poolOf_sub (mem_spreadPool hg).1))
  obtain ⟨x, hstart, hraised, hothers, hbest⟩ := raiseAll_spec hkeys hpos hdraws ⟨kept R credit all, k, none⟩
  obtain ⟨b, hleader, hfrom, hhighest, -⟩ := leader_spec (x := x) none (.inl hne)
  obtain ⟨hmem, hvalue⟩ := hfrom.resolve_left (by simp)
  obtain ⟨g, v⟩ := b
  simp only at hmem hvalue hhighest
  subst hvalue
  have hchoose : choose R rng (kept R credit all) k (spreadPool R all) = some (g,
      update (raiseAll R rng ⟨kept R credit all, k, none⟩ (spreadPool R all)).credit (R.key g)
        (((raiseAll R rng ⟨kept R credit all, k, none⟩ (spreadPool R all)).credit (R.key g)).map (· - total R (spreadPool R all))),
      (raiseAll R rng ⟨kept R credit all, k, none⟩ (spreadPool R all)).used) := by
    rw [choose, if_neg (not_le.mpr htotal)]
    exact Option.map_eq_some_iff.mpr ⟨_, hbest.trans hleader, rfl⟩
  have hspread : (spread R rng credit k all).order.head? = some g ∧ (spread R rng credit k all).credit =
      update (raiseAll R rng ⟨kept R credit all, k, none⟩ (spreadPool R all)).credit (R.key g)
        (((raiseAll R rng ⟨kept R credit all, k, none⟩ (spreadPool R all)).credit (R.key g)).map
          (· - total R (spreadPool R all))) := by
    rw [spread, if_neg (by omega)]
    simp only [hchoose, List.head?_cons, and_self]
  refine ⟨x, g, hmem, fun g' hg' => ?_, hleader, hhighest, hspread.1, fun g' hg' => ?_, fun a ha hnone => ?_⟩
  · have := hstart g' hg'
    rwa [StartsAt, show (Round.mk (kept R credit all) k none : Round α κ).credit = kept R credit all from rfl, hlive g' hg'] at this
  · rw [hspread.2]
    by_cases heq : R.key g = R.key g'
    · obtain rfl := List.inj_on_of_nodup_map hkeys hg' hmem heq.symm
      rw [update_self, hraised g' hmem, Option.map_some, if_pos rfl]
    · rw [update_of_ne (Ne.symm heq), hraised g' hg', if_neg heq, sub_zero]
  · have hag : a ≠ R.key g := fun heq => ha (heq ▸ List.mem_map_of_mem hmem)
    rw [hspread.2, update_of_ne hag, hothers a ha]
    simp only [kept, hnone, ite_self]

variable (R rng)

/-- The credits and the draws before the spread order number `t` of the same candidates; at first there are no credits. -/
def states (all : List α) : ℕ → (κ → Option ℚ) × ℕ
  | 0 => (fun _ => none, 0)
  | t + 1 =>
    let s := spread R rng (states all t).1 (states all t).2 all
    (s.credit, s.used)

def spreadAt (all : List α) (t : ℕ) : Spread α κ := spread R rng (states R rng all t).1 (states R rng all t).2 all

variable {R rng} {weight : κ → ℕ} {all : List α}

lemma Fair.total_eq {pool : List α} (h : Fair R weight pool) :
    total R pool = ∑ i ∈ (pool.map R.key).toFinset, (weight i : ℚ) := by
  rw [List.sum_toFinset _ h.keys_nodup, List.map_map, total]
  exact congrArg List.sum (List.map_congr_left h.weight_eq)

/-- **The spread orders of a fixed pool** choose their first candidates in the rounds of a round robin. -/
theorem spread_rounds (hdraws : ∀ k, 0 ≤ rng k ∧ rng k < 1) (hfair : Fair R weight (spreadPool R all))
    (hmany : 2 ≤ (spreadPool R all).length) :
    ∃ (credit : ℕ → κ → ℚ) (pick : ℕ → κ),
      RoundRobin.Rounds ((spreadPool R all).map R.key).toFinset weight credit pick ∧
      (∀ t, (spreadAt R rng all t).order.head?.map R.key = some (pick t)) ∧
      (∀ t, ∀ g ∈ spreadPool R all, (states R rng all (t + 1)).1 (R.key g) = some (credit (t + 1) (R.key g))) ∧
      ∀ t, ∀ a ∉ (spreadPool R all).map R.key, (states R rng all t).1 a = none := by
  choose x g hmem hstart hleader hhighest hhead hcredit hothers using fun t =>
    spread_round hdraws hmany hfair.keys_nodup hfair.pos (states R rng all t).1 (states R rng all t).2
  have hkeys : ∀ {i}, i ∈ ((spreadPool R all).map R.key).toFinset ↔ ∃ g ∈ spreadPool R all, R.key g = i := by
    simp
  -- from the first round on a credit is what the round before left
  have hnext : ∀ t, ∀ g' ∈ spreadPool R all, x (t + 1) (R.key g') = x t (R.key g') + R.weight g' -
      if R.key (g t) = R.key g' then total R (spreadPool R all) else 0 := by
    intro t g' hg'
    have hstate : (states R rng all (t + 1)).1 (R.key g') = _ := hcredit t g' hg'
    rcases hstart (t + 1) g' hg' with hsome | ⟨hnone, -⟩
    · rw [hstate] at hsome
      exact (Option.some.inj hsome).symm
    · rw [hstate] at hnone
      cases hnone
  refine ⟨x, fun t => R.key (g t), ⟨?_, ?_, ?_, ?_, ?_⟩, ?_, ?_, ?_⟩
  · intro i hi
    obtain ⟨g', hg', rfl⟩ := hkeys.mp hi
    rcases hstart 0 g' hg' with hsome | ⟨-, hlow, hhigh⟩
    · cases hsome
    · exact ⟨hlow, by rwa [← hfair.weight_eq g' hg']⟩
  · exact fun t => hkeys.mpr ⟨g t, hmem t, rfl⟩
  · intro t i hi
    obtain ⟨g', hg', rfl⟩ := hkeys.mp hi
    rw [← hfair.weight_eq g' hg', ← hfair.weight_eq _ (hmem t)]
    exact hhighest t g' hg'
  · intro t i hi
    obtain ⟨g', hg', rfl⟩ := hkeys.mp hi
    rw [hnext t g' hg', hfair.weight_eq g' hg', hfair.total_eq]
  · intro t u hsame
    have hcongr := leader_congr (R := R) (x := x t) (y := x u)
      (fun g' hg' => hsame _ (hkeys.mpr ⟨g', hg', rfl⟩)) none
    rw [hleader t, hleader u] at hcongr
    exact congrArg R.key (Prod.mk.inj (Option.some.inj hcongr)).1
  · intro t
    exact congrArg (Option.map R.key) (hhead t)
  · intro t g' hg'
    rw [hnext t g' hg']
    exact hcredit t g' hg'
  · intro t a ha
    induction t with
    | zero => rfl
    | succ t ih => exact hothers t a ha ih

/-- Of one candidate with a weight that one is always the first. -/
lemma order_head {g : α} (h : Drawable R rng all) (hone : spreadPool R all = [g]) (hpos : 0 < R.weight g) (k : ℕ) :
    (order R rng k all).head? = some g := by
  have hg : g ∈ spreadPool R all := by rw [hone]; exact List.mem_singleton_self g
  have hpool := (mem_spreadPool hg).1
  obtain ⟨g', hg', hdraw, hweight⟩ := draw_spec (fun g hg => h.nonneg g (poolOf_sub hg)) (h.draws k)
    (List.ne_nil_of_mem hpool)
  have hsame := mem_spreadPool_of_pos hg' (hweight ⟨g, hpool, hpos⟩)
  rw [hone, List.mem_singleton] at hsame
  rw [order_cons h (poolOf_sub hg') hdraw, hsame]
  rfl

/-- **Exact shares.** Of any choices in a row, as many as the weights of the pool add up to, everyone has as many as its
weight says.  From two on all of them get a credit, and then the credits repeat and their sum stays. -/
structure Shares (pool : List κ) (weight : κ → ℕ) (first : ℕ → Option κ) (credit : ℕ → κ → Option ℚ) : Prop where
  share : ∀ n, ∀ i ∈ pool,
    ((Finset.Ico n (n + (pool.map weight).sum)).filter fun t => first t = some i).card = weight i
  credited : 2 ≤ pool.length → ∀ t, 0 < t → ∀ i ∈ pool, (credit t i).isSome
  period : ∀ t, (∀ i ∈ pool, (credit t i).isSome) → credit (t + (pool.map weight).sum) = credit t
  sum : ∀ t, (∀ i ∈ pool, (credit t i).isSome) →
    (pool.map fun i => (credit (t + 1) i).getD 0).sum = (pool.map fun i => (credit t i).getD 0).sum

/-- The only candidate with a weight is chosen every time, without credits. -/
lemma shares_one {g : α} (h : Drawable R rng all) (hone : spreadPool R all = [g]) (hfair : Fair R weight [g]) :
    Shares [R.key g] weight (fun t => (spreadAt R rng all t).order.head?.map R.key)
      (fun t => (states R rng all t).1) := by
  have hfew : (spreadPool R all).length < 2 := by simp [hone]
  have hstate : ∀ t, (states R rng all t).1 = fun _ => none := by
    intro t
    induction t with
    | zero => rfl
    | succ t ih =>
      show (spread R rng _ _ all).credit = _
      rw [spread, if_pos hfew, ih]
  have hfirst : ∀ t, (spreadAt R rng all t).order.head? = some g := by
    intro t
    rw [spreadAt, spread, if_pos hfew]
    exact order_head h hone (hfair.pos g (List.mem_singleton_self g)) _
  refine ⟨fun n i hi => ?_, fun hmany => absurd hmany (by simp), fun t hall => ?_, fun t hall => ?_⟩
  · obtain rfl := List.mem_singleton.mp hi
    simp [hfirst]
  all_goals
    have := hall _ (List.mem_singleton_self _)
    simp [hstate] at this

/-- **The first candidates of the spread orders** of a fixed pool have exact shares. -/
theorem spread_shares (h : Drawable R rng all) (hfair : Fair R weight (spreadPool R all))
    (hne : spreadPool R all ≠ []) :
    Shares ((spreadPool R all).map R.key) weight (fun t => (spreadAt R rng all t).order.head?.map R.key)
      (fun t => (states R rng all t).1) := by
  rcases Nat.lt_or_ge (spreadPool R all).length 2 with hfew | hmany
  · obtain ⟨g, hone⟩ := List.length_eq_one_iff.mp (show (spreadPool R all).length = 1 by
      have := List.length_pos_of_ne_nil hne
      omega)
    rw [hone] at hfair ⊢
    exact shares_one h hone hfair
  obtain ⟨credit, pick, hrounds, hpick, hcredit, hothers⟩ := spread_rounds h.draws hfair hmany
  have hmem : ∀ {i}, i ∈ (spreadPool R all).map R.key → i ∈ ((spreadPool R all).map R.key).toFinset :=
    List.mem_toFinset.mpr
  have hcycle : ∑ i ∈ ((spreadPool R all).map R.key).toFinset, weight i =
      (((spreadPool R all).map R.key).map weight).sum := List.sum_toFinset _ hfair.keys_nodup
  have hsome : ∀ t, 0 < t → ∀ i ∈ (spreadPool R all).map R.key, (states R rng all t).1 i = some (credit t i) := by
    intro t ht i hi
    obtain ⟨t, rfl⟩ := Nat.exists_eq_succ_of_ne_zero ht.ne'
    obtain ⟨g, hg, rfl⟩ := List.mem_map.mp hi
    exact hcredit t g hg
  -- before the first order nobody has a credit
  have hpos : ∀ t, (∀ i ∈ (spreadPool R all).map R.key, ((states R rng all t).1 i).isSome) → 0 < t := by
    rintro (_ | t) hall
    · obtain ⟨g, hg⟩ := List.exists_mem_of_ne_nil _ hne
      exact absurd (hall _ (List.mem_map_of_mem hg)) (by simp [states])
    · exact Nat.succ_pos t
  refine ⟨fun n i hi => ?_, fun _ t ht i hi => by rw [hsome t ht i hi]; rfl, fun t hall => ?_, fun t hall => ?_⟩
  · rw [← hrounds.shares n (hmem hi), hcycle]
    simp only [hpick, Option.some.injEq]
  · funext a
    by_cases ha : a ∈ (spreadPool R all).map R.key
    · have ht := hpos t hall
      rw [hsome _ (by omega) a ha, hsome t ht a ha, ← hcycle, hrounds.credit_add t (hmem ha)]
    · rw [hothers _ a ha, hothers _ a ha]
  · have hsum : ∀ t, 0 < t → (((spreadPool R all).map R.key).map fun i => ((states R rng all t).1 i).getD 0).sum =
        ∑ i ∈ ((spreadPool R all).map R.key).toFinset, credit 0 i := by
      intro t ht
      rw [← hrounds.sum_credit t, List.sum_toFinset _ hfair.keys_nodup]
      refine congrArg List.sum (List.map_congr_left fun i hi => ?_)
      rw [hsome t ht i hi]
      rfl
    rw [hsum _ (Nat.succ_pos t), hsum t (hpos t hall)]

end Order

/-! ### Candidates read through a function -/

section Comap

variable {α β κ : Type*} (R : Reading β κ) (φ : α → β)

def Reading.comap : Reading α κ := ⟨fun a => R.key (φ a), fun a => R.down (φ a), fun a => R.weight (φ a)⟩

variable {R φ} {rng : ℕ → ℚ}

lemma total_map (l : List α) : total R (l.map φ) = total (R.comap φ) l := by
  rw [total, List.map_map]
  rfl

lemma walk_map (r : ℚ) (l : List α) : walk R r (l.map φ) = (walk (R.comap φ) r l).map φ := by
  induction l generalizing r with
  | nil => rfl
  | cons g l ih =>
    rw [List.map_cons, walk, walk, apply_ite (Option.map φ), ← ih]
    rfl

lemma poolOf_map (l : List α) : poolOf R (l.map φ) = (poolOf (R.comap φ) l).map φ := by
  simp only [poolOf, List.filter_map, List.isEmpty_map, apply_ite (List.map φ)]
  rfl

lemma spreadPool_map (l : List α) : spreadPool R (l.map φ) = (spreadPool (R.comap φ) l).map φ := by
  simp only [spreadPool, poolOf_map, List.filter_map, List.isEmpty_map, apply_ite (List.map φ)]
  rfl

lemma draw_map (x : ℚ) (l : List α) : draw R x (l.map φ) = (draw (R.comap φ) x l).map φ := by
  unfold draw
  rw [total_map, walk_map, apply_ite (Option.map φ), List.length_map, List.getElem?_map, List.getLast?_map]
  cases walk (R.comap φ) (x * total (R.comap φ) l) l <;> rfl

variable [DecidableEq κ]

lemma without_map (g : α) (l : List α) : without R (φ g) (l.map φ) = (without (R.comap φ) g l).map φ := by
  simp only [without, List.filter_map]
  rfl

lemma orderFrom_map (fuel k : ℕ) (l : List α) :
    orderFrom R rng fuel k (l.map φ) = (orderFrom (R.comap φ) rng fuel k l).map φ := by
  induction fuel generalizing k l with
  | zero => rfl
  | succ fuel ih =>
    rw [orderFrom, orderFrom, poolOf_map, draw_map]
    cases draw (R.comap φ) (rng k) (poolOf (R.comap φ) l) with
    | none => rfl
    | some g =>
      simp only [Option.map_some, List.map_cons]
      rw [without_map, ih]

lemma order_map (k : ℕ) (l : List α) : order R rng k (l.map φ) = (order (R.comap φ) rng k l).map φ := by
  rw [order, List.length_map, orderFrom_map]
  rfl

/-- The same variables, the best read through the function. -/
def Round.map (φ : α → β) (s : Round α κ) : Round β κ := ⟨s.credit, s.used, s.best.map fun b => (φ b.1, b.2)⟩

lemma raiseAll_map (s : Round α κ) (l : List α) :
    raiseAll R rng (s.map φ) (l.map φ) = (raiseAll (R.comap φ) rng s l).map φ := by
  induction l generalizing s with
  | nil => rfl
  | cons g l ih =>
    have hraise : raise R rng (s.map φ) (φ g) = (raise (R.comap φ) rng s g).map φ := by
      have hbetter : ∀ credit, better (s.best.map fun b => (φ b.1, b.2)) (φ g) credit =
          (better s.best g credit).map fun b => (φ b.1, b.2) := by
        intro credit
        cases s.best with
        | none => rfl
        | some b =>
          simp only [better, Option.map_some, apply_ite (Option.map fun b : α × ℚ => (φ b.1, b.2))]
      simp only [raise, Round.map, hbetter]
      rfl
    show raiseAll R rng (raise R rng (s.map φ) (φ g)) (l.map φ) = _
    rw [hraise, ih]
    rfl

lemma choose_map (credit : κ → Option ℚ) (k : ℕ) (l : List α) :
    choose R rng credit k (l.map φ) = (choose (R.comap φ) rng credit k l).map fun r => (φ r.1, r.2) := by
  have hround : raiseAll R rng ⟨credit, k, none⟩ (l.map φ) = (raiseAll (R.comap φ) rng ⟨credit, k, none⟩ l).map φ :=
    raiseAll_map ⟨credit, k, none⟩ l
  unfold choose
  rw [total_map, List.length_map, List.getElem?_map, hround]
  split_ifs
  · simp only [Option.map_map]
    rfl
  · simp only [Round.map, Option.map_map]
    rfl

/-- Spread orders of candidates and of what is read of them leave the same. -/
theorem spread_map (credit : κ → Option ℚ) (k : ℕ) (l : List α) :
    spread R rng credit k (l.map φ) =
      ⟨(spread (R.comap φ) rng credit k l).credit, (spread (R.comap φ) rng credit k l).used,
        (spread (R.comap φ) rng credit k l).order.map φ⟩ := by
  have hkept : kept R credit (l.map φ) = kept (R.comap φ) credit l := by
    unfold kept
    rw [List.map_map]
    rfl
  unfold spread
  rw [spreadPool_map, List.length_map, order_map, List.length_map, hkept]
  split_ifs
  · rfl
  · simp only [choose_map]
    cases choose (R.comap φ) rng (kept (R.comap φ) credit l) k (spreadPool (R.comap φ) l) with
    | none => rfl
    | some r => simp only [Option.map_some, without_map, order_map, List.length_map, List.map_cons]

end Comap

/-! ### Candidates of the same rows -/

section Rows

variable {α β κ : Type*} [DecidableEq κ] {rng : ℕ → ℚ}

/-- All that is read of a candidate. -/
def Reading.row (R : Reading α κ) (a : α) : κ × Bool × ℚ := (R.key a, R.down a, R.weight a)

def rowReading : Reading (κ × Bool × ℚ) κ := ⟨Prod.fst, fun r => r.2.1, fun r => r.2.2⟩

variable {R : Reading α κ} {Q : Reading β κ} {l : List α} {m : List β}

/-- Orders of candidates that are read the same are read the same. -/
theorem order_of_rows (h : l.map R.row = m.map Q.row) (k : ℕ) :
    (order R rng k l).map R.row = (order Q rng k m).map Q.row := by
  have hl : order rowReading rng k (l.map R.row) = (order R rng k l).map R.row := order_map k l
  have hm : order rowReading rng k (m.map Q.row) = (order Q rng k m).map Q.row := order_map k m
  rw [← hl, h, hm]

/-- So are spread orders, which leave the same. -/
theorem spread_of_rows (h : l.map R.row = m.map Q.row) (credit : κ → Option ℚ) (k : ℕ) :
    (spread R rng credit k l).credit = (spread Q rng credit k m).credit ∧
      (spread R rng credit k l).used = (spread Q rng credit k m).used ∧
      (spread R rng credit k l).order.map R.row = (spread Q rng credit k m).order.map Q.row := by
  have hl : spread rowReading rng credit k (l.map R.row) = ⟨(spread R rng credit k l).credit,
      (spread R rng credit k l).used, (spread R rng credit k l).order.map R.row⟩ := spread_map credit k l
  have hm : spread rowReading rng credit k (m.map Q.row) = ⟨(spread Q rng credit k m).credit,
      (spread Q rng credit k m).used, (spread Q rng credit k m).order.map Q.row⟩ := spread_map credit k m
  rw [h, hm] at hl
  injection hl with hcredit hused horder
  exact ⟨hcredit.symm, hused.symm, horder.symm⟩

end Rows

end ShadeTree.Lib.WeightedOrder
