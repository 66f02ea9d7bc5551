import ShadeTree.Lib.Table
import ShadeTree.Lib.WeightedOrder

/-!
# Selection, natively (`rust/shade-tree-proto/src/lib.rs`)

`pick_gateway`, `selection_order` and `spread_selection_order` of the native client, with exact arithmetic.  Of a
directory only the gateways are read, and of a gateway the onion, the weight and the health.  For draws of `[0, 1)`
they are the orders of `WeightedOrder`.
-/

namespace ShadeTree.Native

open ShadeTree.Lib ShadeTree.Lib.WeightedOrder

/-- A gateway of a directory, as far as selection reads it. -/
structure GatewayEntry where
  onion : String
  weight : UInt64
  health : String
  deriving DecidableEq

def MAX_WEIGHT : ℚ := 1000

/-- `clamp_weight`, of an exact number. -/
def clamp_weight (weight : Option ℚ) : ℚ :=
  match weight with
  | some w => max 0 (min w MAX_WEIGHT)
  | none => 1

def GatewayEntry.clamped (g : GatewayEntry) : ℚ := clamp_weight (some g.weight.toNat)

/-- `health == "down"`. -/
def GatewayEntry.isDown (g : GatewayEntry) : Bool := g.health = "down"

def selection_pool (dir : List GatewayEntry) (exclude : List String) : List GatewayEntry :=
  let all := dir.filter fun g => decide (g.onion ∉ exclude)
  if all = [] then all
  else
    let healthy := all.filter fun g => !g.isDown
    if healthy = [] then all else healthy

/-- The loop that takes weights off `r`. -/
def pick_walk (r : ℚ) : List GatewayEntry → Option GatewayEntry
  | [] => none
  | g :: pool =>
    let r := r - g.clamped
    if r < 0 then some g else pick_walk r pool

/-- `pick_gateway` with the number that `rng` gives. -/
def pick_gateway (dir : List GatewayEntry) (exclude : List String) (draw : ℚ) : Option GatewayEntry :=
  let pool := selection_pool dir exclude
  if pool = [] then none
  else
    let total := (pool.map GatewayEntry.clamped).sum
    if total ≤ 0 then pool[min ⌊draw * pool.length⌋₊ (pool.length - 1)]?
    else
      match pick_walk (draw * total) pool with
      | some g => some g
      | none => pool[pool.length - 1]?

section Orders

variable (rng : ℕ → ℚ)

/-- The loop that pushes what is picked, from draw `k` on; every pick excludes an onion. -/
def pick_all (dir : List GatewayEntry) : ℕ → ℕ → List String → List GatewayEntry
  | 0, _, _ => []
  | fuel + 1, k, exclude =>
    match pick_gateway dir exclude (rng k) with
    | none => []
    | some g => g :: pick_all dir fuel (k + 1) (exclude ++ [g.onion])

/-- `selection_order` from draw `k` on, with the draws after it: one for each of the order. -/
def selection_order (dir : List GatewayEntry) (k : ℕ) : List GatewayEntry × ℕ :=
  let order := pick_all rng dir dir.length k []
  (order, k + order.length)

/-- `SmoothWeightedState`. -/
abbrev SmoothWeightedState := Table String ℚ

/-- The variables of the loop of `spread_selection_order`, and the draws made so far; `winner` is none while
`winner_current` is negative infinity. -/
structure SpreadRound where
  current : SmoothWeightedState
  used : ℕ
  winner : Option (GatewayEntry × ℚ)

def spread_step (s : SpreadRound) (gateway : GatewayEntry) : SpreadRound :=
  let weight := gateway.clamped
  let entry := match s.current.lookup gateway.onion with
    | some current => (current, s.used)
    | none => (rng s.used * weight, s.used + 1)
  let current := entry.1 + weight
  ⟨s.current.insert gateway.onion current, entry.2,
    match s.winner with
    | some (winner, winner_current) =>
      if winner_current < current then some (gateway, current) else some (winner, winner_current)
    | none => some (gateway, current)⟩

/-- `spread_selection_order`, with the state and the draws after it. -/
def spread_selection_order (dir : List GatewayEntry) (state : SmoothWeightedState) (k : ℕ) :
    SmoothWeightedState × ℕ × List GatewayEntry :=
  let healthy := dir.filter fun g => !g.isDown
  let pool := if healthy = [] then dir else healthy
  let positive := pool.filter fun g => decide (0 < g.clamped)
  let spread_pool := if positive = [] then pool else positive
  if spread_pool.length < 2 then (state, (selection_order rng dir k).2, (selection_order rng dir k).1)
  else
    let live := dir.map GatewayEntry.onion
    let state := Table.keep (fun onion _ => decide (onion ∈ live)) state
    let total := (spread_pool.map GatewayEntry.clamped).sum
    if total ≤ 0 then (state, (selection_order rng dir k).2, (selection_order rng dir k).1)
    else
      let s := spread_pool.foldl (spread_step rng) ⟨state, k, none⟩
      match s.winner with
      | none => (s.current, (selection_order rng dir s.used).2, (selection_order rng dir s.used).1)
      | some (winner, _) =>
        let state := match s.current.lookup winner.onion with
          | some current => s.current.insert winner.onion (current - total)
          | none => s.current
        let order := pick_all rng dir dir.length s.used [winner.onion]
        (state, s.used + order.length, winner :: order)

end Orders

/-- What selection reads of a gateway. -/
def gatewayReading : Reading GatewayEntry (Option String) :=
  ⟨fun g => some g.onion, GatewayEntry.isDown, GatewayEntry.clamped⟩

/-! ### The orders of `WeightedOrder` -/

section Exact

variable {rng : ℕ → ℚ} {dir pool : List GatewayEntry}

lemma clamped_nonneg (g : GatewayEntry) : 0 ≤ g.clamped := le_max_left _ _

lemma drawable (hdraws : ∀ k, 0 ≤ rng k ∧ rng k < 1) : Drawable gatewayReading rng dir :=
  ⟨fun g _ => clamped_nonneg g, hdraws⟩

/-- The gateways whose onions are not excluded. -/
def left (exclude : List String) (dir : List GatewayEntry) : List GatewayEntry :=
  dir.filter fun g => decide (g.onion ∉ exclude)

lemma selection_pool_eq (exclude : List String) :
    selection_pool dir exclude = poolOf gatewayReading (left exclude dir) := by
  have hpool : ∀ all : List GatewayEntry, (if all = [] then all
      else if (all.filter fun g => !g.isDown) = [] then all else all.filter fun g => !g.isDown) =
      poolOf gatewayReading all := by
    intro all
    simp only [poolOf, List.isEmpty_iff]
    by_cases hnil : all = []
    · simp [hnil]
    · rw [if_neg hnil]
      rfl
  exact hpool _

lemma pick_walk_eq (r : ℚ) : pick_walk r pool = WeightedOrder.walk gatewayReading r pool := by
  induction pool generalizing r with
  | nil => rfl
  | cons g pool ih =>
    rw [pick_walk, WeightedOrder.walk]
    simp only [ih]
    rfl

lemma pick_gateway_eq {x : ℚ} (hx : 0 ≤ x ∧ x < 1) (exclude : List String) :
    pick_gateway dir exclude x = draw gatewayReading x (poolOf gatewayReading (left exclude dir)) := by
  unfold pick_gateway
  rw [selection_pool_eq]
  generalize poolOf gatewayReading (left exclude dir) = pool
  by_cases hnil : pool = []
  · rw [if_pos hnil, hnil, draw_nil]
  · rw [if_neg hnil]
    have hpos := List.length_pos_of_ne_nil hnil
    have hlen : (0 : ℚ) < pool.length := by exact_mod_cast hpos
    have hindex : ⌊x * pool.length⌋₊ < pool.length :=
      (Nat.floor_lt (mul_nonneg hx.1 hlen.le)).mpr (by nlinarith [hx.2])
    have hlast : pool[pool.length - 1]? = pool.getLast? := List.getLast?_eq_getElem?.symm
    show (if total gatewayReading pool ≤ 0 then _ else _) = _
    unfold draw
    rw [min_eq_left (by omega), pick_walk_eq, hlast]
    split_ifs
    · rfl
    · have hor : ∀ picked : Option GatewayEntry,
          (match picked with | some g => some g | none => pool.getLast?) = picked.or pool.getLast? := by
        intro picked
        cases picked <;> rfl
      exact hor _

lemma pick_all_eq (hdraws : ∀ k, 0 ≤ rng k ∧ rng k < 1) (fuel k : ℕ) (exclude : List String) :
    pick_all rng dir fuel k exclude = orderFrom gatewayReading rng fuel k (left exclude dir) := by
  induction fuel generalizing k exclude with
  | zero => rfl
  | succ fuel ih =>
    rw [pick_all, pick_gateway_eq (hdraws k), orderFrom]
    cases draw gatewayReading (rng k) (poolOf gatewayReading (left exclude dir)) with
    | none => rfl
    | some g =>
      have hleft : left (exclude ++ [g.onion]) dir = without gatewayReading g (left exclude dir) := by
        simp only [left, without, List.filter_filter]
        refine List.filter_congr fun g' _ => ?_
        simp [gatewayReading, Bool.and_comm]
      simp only [ih, hleft]

lemma left_nil : left [] dir = dir := by simp [left]

/-- **`selection_order`** is the weighted order. -/
theorem selection_order_eq (hdraws : ∀ k, 0 ≤ rng k ∧ rng k < 1) (k : ℕ) :
    selection_order rng dir k =
      (order gatewayReading rng k dir, k + (order gatewayReading rng k dir).length) := by
  simp only [selection_order, pick_all_eq hdraws, left_nil]
  rfl

/-- The credits of the state. -/
def SmoothWeightedState.credits (state : SmoothWeightedState) : Option String → Option ℚ :=
  fun onion => onion.bind fun onion => state.lookup onion

lemma credits_insert (state : SmoothWeightedState) (onion : String) (current : ℚ) :
    SmoothWeightedState.credits (state.insert onion current) =
      Function.update state.credits (some onion) (some current) := by
  funext a
  cases a with
  | none => rfl
  | some a =>
    by_cases heq : a = onion
    · subst heq
      simp [SmoothWeightedState.credits]
    · rw [Function.update_of_ne (by simpa using heq)]
      exact AList.lookup_insert_ne heq

lemma credits_keep (state : SmoothWeightedState) :
    SmoothWeightedState.credits (Table.keep (fun onion _ => decide (onion ∈ dir.map GatewayEntry.onion)) state) =
      kept gatewayReading state.credits dir := by
  funext a
  cases a with
  | none => simp [SmoothWeightedState.credits, kept]
  | some onion =>
    have hmem : some onion ∈ dir.map gatewayReading.key ↔ onion ∈ dir.map GatewayEntry.onion := by
      simp [gatewayReading]
    simp only [SmoothWeightedState.credits, Option.bind_some, Table.lookup_keep, kept, hmem]
    cases state.lookup onion <;> by_cases hlive : onion ∈ dir.map GatewayEntry.onion <;> simp [hlive]

def SpreadRound.round (s : SpreadRound) : Round GatewayEntry (Option String) := ⟨s.current.credits, s.used, s.winner⟩

lemma spread_steps_eq (s : SpreadRound) :
    (pool.foldl (spread_step rng) s).round = raiseAll gatewayReading rng s.round pool := by
  induction pool generalizing s with
  | nil => rfl
  | cons g pool ih =>
    refine (ih _).trans ?_
    show raiseAll _ _ _ pool = raiseAll _ _ (raise gatewayReading rng s.round g) pool
    congr 1
    have hcredit : s.current.credits (gatewayReading.key g) = s.current.lookup g.onion := rfl
    simp only [SpreadRound.round, spread_step, raise, credits_insert, hcredit]
    cases s.current.lookup g.onion <;> rcases s.winner with _ | ⟨winner, winner_current⟩ <;> rfl

/-- **`spread_selection_order`** is the spread order. -/
theorem spread_selection_order_eq (hdraws : ∀ k, 0 ≤ rng k ∧ rng k < 1) (state : SmoothWeightedState) (k : ℕ) :
    ∃ state', spread_selection_order rng dir state k =
        (state', (spread gatewayReading rng state.credits k dir).used,
          (spread gatewayReading rng state.credits k dir).order) ∧
      SmoothWeightedState.credits state' = (spread gatewayReading rng state.credits k dir).credit := by
  have hpool : (if dir.filter (fun g => !g.isDown) = [] then dir else dir.filter fun g => !g.isDown) =
      poolOf gatewayReading dir := by
    simp only [poolOf, List.isEmpty_iff]
    rfl
  have hspread : (if (poolOf gatewayReading dir).filter (fun g => decide (0 < g.clamped)) = []
      then poolOf gatewayReading dir else (poolOf gatewayReading dir).filter fun g => decide (0 < g.clamped)) =
      spreadPool gatewayReading dir := by
    simp only [spreadPool, List.isEmpty_iff]
    rfl
  unfold spread_selection_order spread
  simp only [hpool, hspread, selection_order_eq hdraws]
  by_cases hfew : (spreadPool gatewayReading dir).length < 2
  · simp only [if_pos hfew]
    exact ⟨state, rfl, rfl⟩
  simp only [if_neg hfew]
  have hne : spreadPool gatewayReading dir ≠ [] := by
    intro hnil
    simp [hnil] at hfew
  obtain ⟨g, hg, credit', k', hchoose⟩ := choose_spec (R := gatewayReading) (kept gatewayReading state.credits dir)
    (hdraws k) hne
  simp only [hchoose]
  by_cases htotal : total gatewayReading (spreadPool gatewayReading dir) ≤ 0
  · -- the first of the order is what the spread order chooses
    obtain ⟨hsame, horder⟩ := order_of_weightless (drawable hdraws) htotal hchoose
    obtain ⟨rfl, rfl⟩ := Prod.mk.inj hsame
    simp only at horder
    refine ⟨Table.keep (fun onion _ => decide (onion ∈ dir.map GatewayEntry.onion)) state, ?_, credits_keep state⟩
    show (if total gatewayReading (spreadPool gatewayReading dir) ≤ 0 then _ else _) = _
    rw [if_pos htotal, horder, List.length_cons]
    congr 2
    omega
  · show ∃ state', (if total gatewayReading (spreadPool gatewayReading dir) ≤ 0 then _ else _) = _ ∧ _
    rw [if_neg htotal]
    obtain ⟨s, hs, hround⟩ : ∃ s, (spreadPool gatewayReading dir).foldl (spread_step rng)
          ⟨Table.keep (fun onion _ => decide (onion ∈ dir.map GatewayEntry.onion)) state, k, none⟩ = s ∧
        s.round = raiseAll gatewayReading rng ⟨kept gatewayReading state.credits dir, k, none⟩
          (spreadPool gatewayReading dir) := by
      refine ⟨_, rfl, (spread_steps_eq _).trans ?_⟩
      rw [← credits_keep state]
      rfl
    rw [choose, if_neg htotal, ← hround] at hchoose
    obtain ⟨⟨winner, value⟩, hwinner, heq⟩ := Option.map_eq_some_iff.mp hchoose
    obtain ⟨rfl, hcredit, rfl⟩ : winner = g ∧ Function.update s.current.credits (some winner.onion)
        ((s.current.lookup winner.onion).map (· - total gatewayReading (spreadPool gatewayReading dir))) = credit' ∧
        s.used = k' := ⟨congrArg Prod.fst heq, congrArg (fun r => r.2.1) heq, congrArg (fun r => r.2.2) heq⟩
    obtain ⟨current, hcurrent⟩ : ∃ current, s.current.lookup winner.onion = some current := by
      have hsome : (s.round.credit (gatewayReading.key winner)).isSome := hround ▸ raiseAll_isSome _ hg
      exact Option.isSome_iff_exists.mp hsome
    have htail : pick_all rng dir dir.length s.used [winner.onion] =
        order gatewayReading rng s.used (without gatewayReading winner dir) := by
      have hleft : left [winner.onion] dir = without gatewayReading winner dir := by
        simp [left, without, gatewayReading]
      rw [pick_all_eq hdraws, hleft]
      have := length_without_lt (R := gatewayReading) (poolOf_sub (mem_spreadPool hg).1)
      exact orderFrom_eq (drawable hdraws) (by omega) le_rfl
    refine ⟨s.current.insert winner.onion (current - total gatewayReading (spreadPool gatewayReading dir)), ?_, ?_⟩
    · simp only [hs, show s.winner = some (winner, value) from hwinner, hcurrent, htail]
      rfl
    · rw [credits_insert, ← hcredit, hcurrent]
      rfl

end Exact

end ShadeTree.Native
