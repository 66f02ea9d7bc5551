import Mathlib
import ShadeTree.Directory.Selection
import ShadeTree.Lib.Table
import ShadeTree.Lib.WeightedOrder

/-!
# Smooth rotation (`swrrPick`, `spreadSelectionOrder` in `client/selection.mjs`)

The client takes the first gateway of an order in smooth weighted round robin, with a credit for every onion in the map
`_swrr`, and the others by `selectionOrder`.  Arithmetic is exact here; how a string is read as a number stays a
parameter.  As long as no weight that is read throws, both are the orders of `WeightedOrder`.
-/

namespace ShadeTree.Directory

open ShadeTree.Lib ShadeTree.Lib.WeightedOrder

local instance lawfulOnion : LawfulBEq (Option String) := inferInstance

section Spread

variable (text : List Char → Option ℚ)

/-- Doubles without their rounding; `text` reads a string, none when the number is not finite. -/
def exactWith : Doubles (Option ℚ) := { exactDoubles with ofText := text }

/-- `effWeight(g)`; `none` when it throws. -/
def effWeight (g : Value) : Option ℚ :=
  (toNumber (exactWith text) (g.get "weight")).map fun w =>
    match w with
    | some w => max 0 (min (MAX_WEIGHT : ℚ) w)
    | none => 1

/-- `_swrr`. -/
abbrev Swrr := Table (Option String) ℚ

/-- `reduce`. -/
def sumWeights (s : ℚ) : List Value → Option ℚ
  | [] => some s
  | g :: pool => (effWeight text g).bind fun w => sumWeights (s + w) pool

/-- The variables of the loop of `swrrPick`, and the draws made so far; `best` is none while `bestCur` is `-Infinity`. -/
structure SwrrRound where
  swrr : Swrr
  used : ℕ
  best : Option (Value × ℚ)

variable (rng : ℕ → ℚ)

def swrrLoop (s : SwrrRound) : List Value → Option SwrrRound
  | [] => some s
  | g :: pool => (effWeight text g).bind fun w =>
    let start := match s.swrr.lookup (entryOnion g) with
      | some cur => (cur, s.used)
      | none => (rng s.used * w, s.used + 1)
    let cur := start.1 + w
    swrrLoop ⟨s.swrr.insert (entryOnion g) cur, start.2,
      match s.best with
      | some (best, bestCur) => if bestCur < cur then some (g, cur) else some (best, bestCur)
      | none => some (g, cur)⟩ pool

/-- `swrrPick(pool)`, with the map and the draws after it. -/
def swrrPick (swrr : Swrr) (k : ℕ) (pool : List Value) : Option (Value × Swrr × ℕ) :=
  (sumWeights text 0 pool).bind fun total =>
    if total ≤ 0 then pool[⌊rng k * pool.length⌋₊]?.map fun g => (g, swrr, k + 1)
    else
      (swrrLoop text rng ⟨swrr, k, none⟩ pool).bind fun s =>
        s.best.bind fun best =>
          (s.swrr.lookup (entryOnion best.1)).map fun cur =>
            (best.1, s.swrr.insert (entryOnion best.1) (cur - total), s.used)

/-- `pool.filter((g) => effWeight(g) > 0)`. -/
def positiveOf : List Value → Option (List Value)
  | [] => some []
  | g :: pool => (effWeight text g).bind fun w => (positiveOf pool).map fun kept => if 0 < w then g :: kept else kept

/-- `selectionOrder` from draw `k` on, with the draws after it: one for each of the order. -/
def selectionOrderFrom (k : ℕ) (gateways : List Value) : Option (List Value × ℕ) :=
  (selectionOrder (exactWith text) (fun i => some (rng (k + i))) gateways).map fun order => (order, k + order.length)

/-- `spreadSelectionOrder(view)`, with the map and the draws after it; `none` when it throws. -/
def spreadSelectionOrder (swrr : Swrr) (k : ℕ) (gateways : List Value) : Option (Swrr × ℕ × List Value) :=
  let pool := Directory.poolOf gateways
  (positiveOf text pool).bind fun positive =>
    let spreadPool := if positive = [] then pool else positive
    if spreadPool.length < 2 then
      (selectionOrderFrom text rng k gateways).map fun (order, k) => (swrr, k, order)
    else
      let live := gateways.map entryOnion
      let swrr := Table.keep (fun onion _ => decide (onion ∈ live)) swrr
      (swrrPick text rng swrr k spreadPool).bind fun (first, swrr, k) =>
        let rest := gateways.filter fun g => decide (entryOnion g ≠ entryOnion first)
        (selectionOrderFrom text rng k rest).map fun (order, k) => (swrr, k, first :: order)

/-- What selection reads of an entry. -/
def entryReading : Reading Value (Option String) := ⟨entryOnion, isDown, fun g => (effWeight text g).getD 0⟩

/-- No weight that is read throws: one that is not down, or that is down with no other entry of its onion up. -/
def Readable (gateways : List Value) : Prop :=
  ∀ g ∈ gateways, (isDown g = true → ∀ g' ∈ gateways, isDown g' = false → entryOnion g' ≠ entryOnion g) →
    (effWeight text g).isSome

end Spread

/-! ### The orders of `WeightedOrder` -/

section Exact

variable {text : List Char → Option ℚ} {rng : ℕ → ℚ} {gateways pool : List Value}

lemma effWeight_nonneg {g : Value} {w : ℚ} (h : effWeight text g = some w) : 0 ≤ w := by
  obtain ⟨x, -, rfl⟩ := Option.map_eq_some_iff.mp h
  cases x with
  | none => exact zero_le_one
  | some x => exact le_max_left _ _

lemma weight_nonneg (g : Value) : 0 ≤ (entryReading text).weight g := by
  show 0 ≤ (effWeight text g).getD 0
  cases h : effWeight text g with
  | none => exact le_rfl
  | some w => exact effWeight_nonneg h

lemma clampWeight_exact (g : Value) : clampWeight (exactWith text) g = (effWeight text g).map some := by
  unfold clampWeight effWeight
  rw [Option.map_map]
  congr 1
  funext w
  cases w with
  | none => rfl
  | some w => rfl

/-- All weights of the pool are read. -/
def AllRead (text : List Char → Option ℚ) (pool : List Value) : Prop := ∀ g ∈ pool, (effWeight text g).isSome

lemma effWeight_of_read (h : AllRead text pool) {g : Value} (hg : g ∈ pool) :
    effWeight text g = some ((entryReading text).weight g) := by
  obtain ⟨w, hw⟩ := Option.isSome_iff_exists.mp (h g hg)
  show _ = some ((effWeight text g).getD 0)
  rw [hw]
  rfl

lemma AllRead.tail {g : Value} (h : AllRead text (g :: pool)) : AllRead text pool :=
  fun g' hg' => h g' (List.mem_cons_of_mem _ hg')

lemma totalWeight_exact (h : AllRead text pool) (s : ℚ) :
    totalWeight (exactWith text) (some s) pool = some (some (s + total (entryReading text) pool)) := by
  induction pool generalizing s with
  | nil => simp [totalWeight, total]
  | cons g pool ih =>
    rw [totalWeight, clampWeight_exact, effWeight_of_read h List.mem_cons_self]
    show totalWeight (exactWith text) (some (s + (entryReading text).weight g)) pool = _
    rw [ih h.tail, total_cons, add_assoc]

lemma walk_exact (h : AllRead text pool) (r : ℚ) :
    Directory.walk (exactWith text) (some r) pool = some (WeightedOrder.walk (entryReading text) r pool) := by
  induction pool generalizing r with
  | nil => rfl
  | cons g pool ih =>
    rw [Directory.walk, clampWeight_exact, effWeight_of_read h List.mem_cons_self, WeightedOrder.walk]
    show (if decide (r - (entryReading text).weight g < 0) = true then _ else
      Directory.walk (exactWith text) (some (r - (entryReading text).weight g)) pool) = _
    rw [ih h.tail]
    by_cases hlt : r - (entryReading text).weight g < 0 <;> simp [hlt]

lemma poolOf_exact (text : List Char → Option ℚ) (gateways : List Value) :
    Directory.poolOf gateways = WeightedOrder.poolOf (entryReading text) gateways := by
  simp only [Directory.poolOf, WeightedOrder.poolOf, List.isEmpty_iff]
  rfl

/-- The entries whose onions are not excluded. -/
def others (exclude : List (Option String)) (gateways : List Value) : List Value :=
  gateways.filter fun g => decide (entryOnion g ∉ exclude)

lemma pickGateway_eq {F : Type} (D : Doubles F) (exclude : List (Option String)) (x : F) :
    pickGateway D exclude x gateways =
      if others exclude gateways = [] then some none
      else (totalWeight D (D.ofNat 0) (Directory.poolOf (others exclude gateways))).bind fun total =>
        if D.le total (D.ofNat 0) then
          some (Directory.poolOf (others exclude gateways))[D.index (D.mul x
            (D.ofNat (Directory.poolOf (others exclude gateways)).length))]?
        else (Directory.walk D (D.mul x total) (Directory.poolOf (others exclude gateways))).map fun picked =>
          picked.or (Directory.poolOf (others exclude gateways)).getLast? := rfl

lemma pickGateway_exact {exclude : List (Option String)}
    (h : AllRead text (Directory.poolOf (others exclude gateways))) (x : ℚ) :
    pickGateway (exactWith text) exclude (some x) gateways =
      some (draw (entryReading text) x (WeightedOrder.poolOf (entryReading text) (others exclude gateways))) := by
  rw [pickGateway_eq]
  split_ifs with hnil
  · rw [hnil, poolOf_nil, draw_nil]
  · rw [← poolOf_exact]
    generalize Directory.poolOf (others exclude gateways) = pool at h
    have htotal : totalWeight (exactWith text) ((exactWith text).ofNat 0) pool =
        some (some (total (entryReading text) pool)) := by
      have := totalWeight_exact h 0
      rwa [zero_add] at this
    simp only [htotal, Option.bind_some]
    show (if decide (total (entryReading text) pool ≤ (0 : ℕ)) = true then _ else _) = _
    unfold draw
    by_cases hle : total (entryReading text) pool ≤ 0
    · rw [if_pos (by simpa using hle), if_pos hle]
      rfl
    · rw [if_neg (by simpa using hle), if_neg hle]
      show (Directory.walk (exactWith text) (some (x * total (entryReading text) pool)) pool).map _ = _
      rw [walk_exact h]
      rfl

/-- The weights of what is drawn from are read. -/
lemma Readable.allRead (h : Readable text gateways) (exclude : List (Option String)) :
    AllRead text (Directory.poolOf (others exclude gateways)) := by
  intro g hg
  rw [poolOf_exact] at hg
  have hmem := poolOf_sub hg
  obtain ⟨hg', hout⟩ := List.mem_filter.mp hmem
  refine h g hg' fun hdown g' hg'' hup heq => ?_
  -- an entry that is up and not excluded would be drawn from instead
  have hin : g' ∈ others exclude gateways := List.mem_filter.mpr ⟨hg'', by rw [heq]; exact hout⟩
  have := (mem_poolOf_of_down hg hin).1 hdown
  rw [show (entryReading text).down g' = isDown g' from rfl, hup] at this
  cases this

lemma selectFrom_exact (h : Readable text gateways) (k fuel j : ℕ) (exclude : List (Option String)) :
    selectFrom (exactWith text) (fun i => some (rng (k + i))) gateways fuel j exclude =
      some (orderFrom (entryReading text) rng fuel (k + j) (others exclude gateways)) := by
  induction fuel generalizing j exclude with
  | zero => rfl
  | succ fuel ih =>
    rw [selectFrom, pickGateway_exact (h.allRead exclude), orderFrom]
    cases draw (entryReading text) (rng (k + j)) (WeightedOrder.poolOf (entryReading text) (others exclude gateways)) with
    | none => rfl
    | some g =>
      have hothers : others (exclude ++ [entryOnion g]) gateways = without (entryReading text) g (others exclude gateways) := by
        simp only [others, without, List.filter_filter]
        refine List.filter_congr fun g' _ => ?_
        simp only [List.mem_append, List.mem_singleton, not_or, Bool.decide_and]
        exact Bool.and_comm _ _
      simp only [Option.bind_some]
      rw [ih, hothers, Nat.add_assoc]
      rfl

/-- **`selectionOrder`** is the weighted order. -/
theorem selectionOrder_exact (h : Readable text gateways) (k : ℕ) :
    selectionOrder (exactWith text) (fun i => some (rng (k + i))) gateways =
      some (order (entryReading text) rng k gateways) := by
  have hall : others [] gateways = gateways := by simp [others]
  rw [selectionOrder, selectFrom_exact h, hall]
  rfl

lemma selectionOrderFrom_exact (h : Readable text gateways) (k : ℕ) : selectionOrderFrom text rng k gateways =
    some (order (entryReading text) rng k gateways, k + (order (entryReading text) rng k gateways).length) := by
  rw [selectionOrderFrom, selectionOrder_exact h]
  rfl

lemma sumWeights_exact (h : AllRead text pool) (s : ℚ) :
    sumWeights text s pool = some (s + total (entryReading text) pool) := by
  induction pool generalizing s with
  | nil => simp [sumWeights, total]
  | cons g pool ih =>
    rw [sumWeights, effWeight_of_read h List.mem_cons_self, Option.bind_some, ih h.tail, total_cons, add_assoc]

lemma positiveOf_exact (h : AllRead text pool) :
    positiveOf text pool = some (pool.filter fun g => decide (0 < (entryReading text).weight g)) := by
  induction pool with
  | nil => rfl
  | cons g pool ih =>
    rw [positiveOf, effWeight_of_read h List.mem_cons_self, Option.bind_some, ih h.tail]
    by_cases hpos : 0 < (entryReading text).weight g <;> simp [hpos]

/-- The credits in the map. -/
def credits (swrr : Swrr) : Option String → Option ℚ := fun onion => swrr.lookup onion

lemma credits_insert (swrr : Swrr) (onion : Option String) (cur : ℚ) :
    credits (swrr.insert onion cur) = Function.update (credits swrr) onion (some cur) := by
  funext a
  by_cases heq : a = onion
  · subst heq
    simp [credits]
  · rw [Function.update_of_ne heq]
    exact AList.lookup_insert_ne heq

def SwrrRound.round (s : SwrrRound) : Round Value (Option String) := ⟨credits s.swrr, s.used, s.best⟩

lemma swrrLoop_exact (h : AllRead text pool) (s : SwrrRound) :
    ∃ s', swrrLoop text rng s pool = some s' ∧ s'.round = raiseAll (entryReading text) rng s.round pool := by
  induction pool generalizing s with
  | nil => exact ⟨s, rfl, rfl⟩
  | cons g pool ih =>
    rw [swrrLoop, effWeight_of_read h List.mem_cons_self, Option.bind_some]
    obtain ⟨s', hloop, hround⟩ := ih h.tail _
    refine ⟨s', hloop, hround.trans ?_⟩
    show raiseAll _ _ _ pool = raiseAll _ _ (raise (entryReading text) rng s.round g) pool
    congr 1
    have hcredit : credits s.swrr ((entryReading text).key g) = s.swrr.lookup (entryOnion g) := rfl
    simp only [SwrrRound.round, raise, credits_insert, hcredit]
    cases s.swrr.lookup (entryOnion g) <;> rcases s.best with _ | ⟨best, bestCur⟩ <;> rfl

/-- `swrrPick` is the choice of a spread order. -/
lemma swrrPick_exact (h : AllRead text pool) {swrr : Swrr} {k : ℕ} {r : Value × (Option String → Option ℚ) × ℕ}
    (hchoose : choose (entryReading text) rng (credits swrr) k pool = some r) :
    ∃ swrr', swrrPick text rng swrr k pool = some (r.1, swrr', r.2.2) ∧ credits swrr' = r.2.1 := by
  have htotal : sumWeights text 0 pool = some (total (entryReading text) pool) := by
    rw [sumWeights_exact h, zero_add]
  unfold choose at hchoose
  unfold swrrPick
  rw [htotal, Option.bind_some]
  split_ifs at hchoose ⊢ with hle
  · obtain ⟨g, hg, rfl⟩ := Option.map_eq_some_iff.mp hchoose
    exact ⟨swrr, by rw [hg]; rfl, rfl⟩
  · obtain ⟨s, hloop, hround⟩ : ∃ s, swrrLoop text rng ⟨swrr, k, none⟩ pool = some s ∧
        s.round = raiseAll (entryReading text) rng ⟨credits swrr, k, none⟩ pool := swrrLoop_exact h _
    rw [← hround] at hchoose
    obtain ⟨b, hbest, rfl⟩ := Option.map_eq_some_iff.mp hchoose
    -- the best is one of the pool, so that it has a credit
    obtain ⟨cur, hcur⟩ : ∃ cur, s.swrr.lookup (entryOnion b.1) = some cur := by
      refine Option.isSome_iff_exists.mp ?_
      have hmem : b.1 ∈ pool := by
        obtain ⟨b', hb', hfrom⟩ : ∃ b', s.round.best = some b' ∧ (b'.1 ∈ pool ∨ (none : Option (Value × ℚ)) = some b') :=
          hround ▸ raiseAll_best _ pool (.inl fun hnil => by simp [hnil, total] at hle)
        rw [← Option.some.inj (hb'.symm.trans hbest)]
        exact hfrom.resolve_right (by simp)
      have hsome : (s.round.credit ((entryReading text).key b.1)).isSome := hround ▸ raiseAll_isSome _ hmem
      exact hsome
    refine ⟨s.swrr.insert (entryOnion b.1) (cur - total (entryReading text) pool), ?_, ?_⟩
    · rw [hloop, Option.bind_some, show s.best = some b from hbest, Option.bind_some, hcur]
      rfl
    · rw [credits_insert]
      show _ = Function.update (credits s.swrr) (entryOnion b.1) ((s.swrr.lookup (entryOnion b.1)).map _)
      rw [hcur]
      rfl

lemma Readable.rest (h : Readable text gateways) (g : Value) :
    Readable text (without (entryReading text) g gateways) := by
  intro g' hg' hdown
  obtain ⟨hmem, hkey⟩ := mem_without.mp hg'
  refine h g' hmem fun hisdown g'' hg'' hup heq => hdown hisdown g'' ?_ hup heq
  exact mem_without.mpr ⟨hg'', fun hsame => hkey (heq.symm.trans hsame)⟩

lemma credits_keep (swrr : Swrr) (gateways : List Value) :
    credits (Table.keep (fun onion _ => decide (onion ∈ gateways.map entryOnion)) swrr) =
      kept (entryReading text) (credits swrr) gateways := by
  funext onion
  simp only [credits, Table.lookup_keep, kept, show (entryReading text).key = entryOnion from rfl]
  cases swrr.lookup onion <;> by_cases hlive : onion ∈ gateways.map entryOnion <;> simp [hlive]

/-- **`spreadSelectionOrder`** is the spread order. -/
theorem spreadSelectionOrder_exact (h : Readable text gateways) (hdraws : ∀ k, 0 ≤ rng k ∧ rng k < 1) (swrr : Swrr)
    (k : ℕ) : ∃ swrr', spreadSelectionOrder text rng swrr k gateways =
        some (swrr', (spread (entryReading text) rng (credits swrr) k gateways).used,
          (spread (entryReading text) rng (credits swrr) k gateways).order) ∧
      credits swrr' = (spread (entryReading text) rng (credits swrr) k gateways).credit := by
  have hread : AllRead text (Directory.poolOf gateways) := by
    have := h.allRead []
    rwa [show others [] gateways = gateways by simp [others]] at this
  have hpool : (if (Directory.poolOf gateways).filter (fun g => decide (0 < (entryReading text).weight g)) = []
      then Directory.poolOf gateways
      else (Directory.poolOf gateways).filter fun g => decide (0 < (entryReading text).weight g)) =
      spreadPool (entryReading text) gateways := by
    simp only [spreadPool, List.isEmpty_iff, poolOf_exact text]
  unfold spreadSelectionOrder spread
  simp only [positiveOf_exact hread, Option.bind_some, hpool]
  split_ifs with hfew
  · exact ⟨swrr, by rw [selectionOrderFrom_exact h]; rfl, rfl⟩
  · have hne : spreadPool (entryReading text) gateways ≠ [] := by
      intro hnil
      simp [hnil] at hfew
    have hreadPool : AllRead text (spreadPool (entryReading text) gateways) := fun g hg =>
      hread g (by rw [poolOf_exact text]; exact (mem_spreadPool hg).1)
    obtain ⟨g, hg, credit', k', hchoose⟩ :=
      choose_spec (R := entryReading text) (kept (entryReading text) (credits swrr) gateways) (hdraws k) hne
    simp only [hchoose]
    rw [← credits_keep swrr gateways] at hchoose
    obtain ⟨swrr', hpick, hcredits⟩ := swrrPick_exact hreadPool hchoose
    refine ⟨swrr', ?_, hcredits⟩
    rw [hpick, Option.bind_some]
    simp only
    rw [show gateways.filter (fun g' => decide (entryOnion g' ≠ entryOnion g)) = without (entryReading text) g gateways
      from rfl, selectionOrderFrom_exact (h.rest g)]
    rfl

end Exact

end ShadeTree.Directory
