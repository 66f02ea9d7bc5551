import ShadeTree.Directory.Spread
import ShadeTree.Native.Selection
import ShadeTree.Lib.Document

/-!
# Orders and rotation of the two clients

Both clients order the gateways of a directory by the orders of `WeightedOrder`.  So every order is complete, the first
gateways of the spread orders of a fixed pool have exact shares, and the two clients make the same orders out of the
same draws, whatever directories come one after the other.
-/

namespace ShadeTree.Native

open ShadeTree.Lib ShadeTree.Lib.WeightedOrder
open ShadeTree.Directory (entryOnion entryReading effWeight exactWith Readable Swrr spreadSelectionOrder
  selectionOrderFrom selectFrom selectionOrder credits)

/-! ### Complete orders -/

section Complete

variable {text : List Char → Option ℚ} {rng : ℕ → ℚ}

lemma entries_drawable (hdraws : ∀ k, 0 ≤ rng k ∧ rng k < 1) {gateways : List Value} : Drawable (entryReading text) rng gateways :=
  ⟨fun g _ => Directory.weight_nonneg g, hdraws⟩

/-- The loop of `selectionOrder` ends by itself: more turns than there are gateways change nothing. -/
lemma selectFrom_stable (hdraws : ∀ k, 0 ≤ rng k ∧ rng k < 1) {gateways : List Value} (h : Readable text gateways)
    (k : ℕ) {fuel : ℕ} (hfuel : gateways.length ≤ fuel) (exclude : List (Option String)) :
    selectFrom (exactWith text) (fun i => some (rng (k + i))) gateways fuel 0 exclude =
      selectFrom (exactWith text) (fun i => some (rng (k + i))) gateways gateways.length 0 exclude := by
  have hle : (Directory.others exclude gateways).length ≤ gateways.length := List.length_filter_le _ _
  rw [Directory.selectFrom_exact h, Directory.selectFrom_exact h,
    orderFrom_eq (entries_drawable hdraws) (hle.trans hfuel) hle]

/-- So does the loop of `selection_order`. -/
lemma pick_all_stable (hdraws : ∀ k, 0 ≤ rng k ∧ rng k < 1) (dir : List GatewayEntry) (k : ℕ) {fuel : ℕ}
    (hfuel : dir.length ≤ fuel) (exclude : List String) :
    pick_all rng dir fuel k exclude = pick_all rng dir dir.length k exclude := by
  have hle : (left exclude dir).length ≤ dir.length := List.length_filter_le _ _
  rw [pick_all_eq hdraws, pick_all_eq hdraws, orderFrom_eq (drawable hdraws) (hle.trans hfuel) hle]

/-- **Complete orders.** Whatever was rotated before, both orders of both clients end, with every onion once, and what
is down or has no weight behind what is not and has. -/
theorem orders_complete (hdraws : ∀ k, 0 ≤ rng k ∧ rng k < 1) :
    (∀ gateways, Readable text gateways → ∀ (k : ℕ) (swrr : Swrr),
      (∃ order used, selectionOrderFrom text rng k gateways = some (order, used) ∧
        Complete (entryReading text) gateways order) ∧
      (∃ swrr' used order, spreadSelectionOrder text rng swrr k gateways = some (swrr', used, order) ∧
        Complete (entryReading text) gateways order) ∧
      ∀ fuel, gateways.length ≤ fuel → ∀ exclude,
        selectFrom (exactWith text) (fun i => some (rng (k + i))) gateways fuel 0 exclude =
          selectFrom (exactWith text) (fun i => some (rng (k + i))) gateways gateways.length 0 exclude) ∧
    ∀ (dir : List GatewayEntry) (k : ℕ) (state : SmoothWeightedState),
      Complete gatewayReading dir (selection_order rng dir k).1 ∧
      Complete gatewayReading dir (spread_selection_order rng dir state k).2.2 ∧
      ∀ fuel, dir.length ≤ fuel → ∀ exclude,
        pick_all rng dir fuel k exclude = pick_all rng dir dir.length k exclude := by
  refine ⟨fun gateways h k swrr => ⟨?_, ?_, fun fuel => selectFrom_stable hdraws h k⟩,
    fun dir k state => ⟨?_, ?_, fun fuel => pick_all_stable hdraws dir k⟩⟩
  · exact ⟨_, _, Directory.selectionOrderFrom_exact h k, order_complete (entries_drawable hdraws)⟩
  · obtain ⟨swrr', hspread, -⟩ := Directory.spreadSelectionOrder_exact h hdraws swrr k
    exact ⟨swrr', _, _, hspread, spread_complete (entries_drawable hdraws)⟩
  · rw [selection_order_eq hdraws]
    exact order_complete (drawable hdraws)
  · obtain ⟨state', hspread, -⟩ := @spread_selection_order_eq rng dir hdraws state k
    rw [hspread]
    exact spread_complete (drawable hdraws)

/-- An entry of one of two onions. -/
def entryOf (onion : String) (weight : ℤ) (health : String) : Value :=
  .obj [("onion", .str onion), ("weight", .num (.fin (.ofInt weight))), ("health", .str health)]

@[simp] lemma entryOf_onion (onion : String) (weight : ℤ) (health : String) :
    entryOnion (entryOf onion weight health) = some onion := rfl

@[simp] lemma entryOf_down (onion : String) (weight : ℤ) (health : String) :
    Directory.isDown (entryOf onion weight health) = decide (health = "down") := rfl

@[simp] lemma entryOf_weight (onion : String) (weight : ℤ) (health : String) :
    (entryReading text).weight (entryOf onion weight health) = max 0 (min 1000 (weight : ℚ)) := by
  show max 0 (min (Directory.MAX_WEIGHT : ℚ) (Decimal.ofInt weight).value) = _
  rw [Decimal.value_ofInt]
  rfl

lemma readable_of_numbers {gateways : List Value} (h : ∀ g ∈ gateways, ∃ n, g.get "weight" = some (.num n)) :
    Readable text gateways := by
  intro g hg _
  obtain ⟨n, hn⟩ := h g hg
  rw [effWeight, hn]
  rfl

/-- A gateway that is listed twice, one without a weight, and one that is down. -/
theorem orders_complete_four : ∃ order used, selectionOrderFrom (fun _ => none) (fun _ => 0) 0
      [entryOf "b" 5 "down", entryOf "a" 0 "up", entryOf "c" 3 "up", entryOf "b" 1 "up"] = some (order, used) ∧
    Complete (entryReading fun _ => none)
      [entryOf "b" 5 "down", entryOf "a" 0 "up", entryOf "c" 3 "up", entryOf "b" 1 "up"] order :=
  ((orders_complete fun _ => ⟨le_rfl, zero_lt_one⟩).1 _
    (readable_of_numbers (by simp [entryOf, Json.get_cons, Json.get_nil])) 0 ∅).1

def unreadableSignature : String :=
  "8ceaddd758efcd30ab4cdd6519af0572469efe15f857680552029c76570d5fb7" ++
    "1e7755d0335c6e434cabb281d864ff9bba9ef880eca3da4829eccc7fd0d17603"

/-- A directory with a gateway whose weight cannot be turned into a number. -/
def unreadableDirectory : Value :=
  .obj [("version", .num (.fin (.ofInt 1))), ("issued", .num (.fin (.ofInt 0))), ("gateways", .arr [.obj [
    ("onion", .str "aaaaaaaaaaaaaaaaaaaaaaaaaaaaaaaaaaaaaaaaaaaaaaaaaaam2dqd.onion"),
    ("pubkey", .str "0000000000000000000000000000000000000000000000000000000000000000"),
    ("weight", .obj [("toString", .num (.fin (.ofInt 1)))]), ("health", .str "up")]]),
    ("signer", .str Directory.zeroSigner),
    ("signature", .str unreadableSignature)]

/-- Its checksum, and its signature. -/
def unreadableSchemes : Directory.Schemes where
  checksum _ := [205, 14]
  ed25519Verify bytes signature key := key = Directory.zeroSigner &&
    match signature with
    | .str sig =>
      sig = unreadableSignature && bytes = (Directory.canonicalDirectoryBytes unreadableDirectory).getD []
    | _ => false

/-- An accepted directory of which there is no order: `Number` throws. -/
theorem unreadable_no_order : ¬ ∀ (text : List Char → Option ℚ) (rng : ℕ → ℚ) (S : Directory.Schemes) (pre : Bool)
    (pinnedSigner : Directory.PinnedSigner) (dir : Value) (signers : List String) (gateways : List Value),
    (∀ k, 0 ≤ rng k ∧ rng k < 1) →
    Directory.verifyDirectory S pre dir pinnedSigner = .accepted signers →
    dir.get "gateways" = some (.arr gateways) →
    ∃ order used, selectionOrderFrom text rng 0 gateways = some (order, used) ∧
      Complete (entryReading text) gateways order := by
  intro hall
  have haccepted : Directory.verifyDirectory unreadableSchemes false unreadableDirectory (.one Directory.zeroSigner) =
    .accepted [Directory.zeroSigner] := by decide +kernel
  obtain ⟨order, used, hnone, -⟩ := hall (fun _ => none) (fun _ => 0) unreadableSchemes false
    (.one Directory.zeroSigner) unreadableDirectory _ _ (fun _ => ⟨le_rfl, zero_lt_one⟩) haccepted rfl
  cases hnone

end Complete

/-! ### Exact shares -/

section Shares

variable (text : List Char → Option ℚ) (rng : ℕ → ℚ)

/-- The map and the draws before the spread order number `t` of the same gateways. -/
def rotationStates (gateways : List Value) : ℕ → Option (Swrr × ℕ)
  | 0 => some (∅, 0)
  | t + 1 => (rotationStates gateways t).bind fun (swrr, k) =>
      (spreadSelectionOrder text rng swrr k gateways).map fun (swrr, k, _) => (swrr, k)

def rotationOrder (gateways : List Value) (t : ℕ) : Option (List Value) :=
  (rotationStates text rng gateways t).bind fun (swrr, k) =>
    (spreadSelectionOrder text rng swrr k gateways).map fun (_, _, order) => order

/-- The native state, and the draws. -/
def rotation_states (dir : List GatewayEntry) : ℕ → SmoothWeightedState × ℕ
  | 0 => (∅, 0)
  | t + 1 =>
    let s := rotation_states dir t
    let r := spread_selection_order rng dir s.1 s.2
    (r.1, r.2.1)

def rotation_order (dir : List GatewayEntry) (t : ℕ) : List GatewayEntry :=
  (spread_selection_order rng dir (rotation_states rng dir t).1 (rotation_states rng dir t).2).2.2

variable {text rng}

lemma rotationStates_eq (hdraws : ∀ k, 0 ≤ rng k ∧ rng k < 1) {gateways : List Value} (h : Readable text gateways)
    (t : ℕ) : ∃ swrr, rotationStates text rng gateways t = some (swrr, (states (entryReading text) rng gateways t).2) ∧
      credits swrr = (states (entryReading text) rng gateways t).1 := by
  induction t with
  | zero => exact ⟨∅, rfl, rfl⟩
  | succ t ih =>
    obtain ⟨swrr, hstate, hcredits⟩ := ih
    obtain ⟨swrr', hspread, hcredits'⟩ := Directory.spreadSelectionOrder_exact h hdraws swrr
      (states (entryReading text) rng gateways t).2
    rw [hcredits] at hspread hcredits'
    refine ⟨swrr', ?_, hcredits'⟩
    simp only [rotationStates, hstate, Option.bind_some, hspread]
    rfl

lemma rotationOrder_eq (hdraws : ∀ k, 0 ≤ rng k ∧ rng k < 1) {gateways : List Value} (h : Readable text gateways)
    (t : ℕ) : rotationOrder text rng gateways t = some (spreadAt (entryReading text) rng gateways t).order := by
  obtain ⟨swrr, hstate, hcredits⟩ := rotationStates_eq hdraws h t
  obtain ⟨swrr', hspread, -⟩ := Directory.spreadSelectionOrder_exact h hdraws swrr
    (states (entryReading text) rng gateways t).2
  simp only [rotationOrder, hstate, Option.bind_some, hspread, hcredits]
  rfl

lemma rotation_states_eq (hdraws : ∀ k, 0 ≤ rng k ∧ rng k < 1) (dir : List GatewayEntry) (t : ℕ) :
    (rotation_states rng dir t).1.credits = (states gatewayReading rng dir t).1 ∧
      (rotation_states rng dir t).2 = (states gatewayReading rng dir t).2 := by
  induction t with
  | zero =>
    refine ⟨funext fun onion => ?_, rfl⟩
    cases onion <;> rfl
  | succ t ih =>
    obtain ⟨state', hspread, hcredits⟩ := @spread_selection_order_eq rng dir hdraws (rotation_states rng dir t).1
      (rotation_states rng dir t).2
    rw [rotation_states, hspread, hcredits, ih.1, ih.2]
    exact ⟨rfl, rfl⟩

lemma rotation_order_eq (hdraws : ∀ k, 0 ≤ rng k ∧ rng k < 1) (dir : List GatewayEntry) (t : ℕ) :
    rotation_order rng dir t = (spreadAt gatewayReading rng dir t).order := by
  obtain ⟨state', hspread, -⟩ := @spread_selection_order_eq rng dir hdraws (rotation_states rng dir t).1
    (rotation_states rng dir t).2
  obtain ⟨hcredits, hused⟩ := rotation_states_eq hdraws dir t
  rw [rotation_order, hspread, hcredits, hused]
  rfl

/-- **The first gateways of the spread orders** of the same directory have exact shares with both clients. -/
theorem rotation_shares (hdraws : ∀ k, 0 ≤ rng k ∧ rng k < 1) :
    (∀ (gateways : List Value) (weight : Option String → ℕ), Readable text gateways →
      Fair (entryReading text) weight (spreadPool (entryReading text) gateways) →
      spreadPool (entryReading text) gateways ≠ [] →
      Shares ((spreadPool (entryReading text) gateways).map entryOnion) weight
        (fun t => (rotationOrder text rng gateways t).bind fun order => order.head?.map entryOnion)
        (fun t onion => (rotationStates text rng gateways t).bind fun s => s.1.lookup onion)) ∧
    ∀ (dir : List GatewayEntry) (weight : Option String → ℕ),
      Fair gatewayReading weight (spreadPool gatewayReading dir) → spreadPool gatewayReading dir ≠ [] →
      Shares ((spreadPool gatewayReading dir).map fun g => some g.onion) weight
        (fun t => (rotation_order rng dir t).head?.map fun g => some g.onion)
        (fun t => (rotation_states rng dir t).1.credits) := by
  refine ⟨fun gateways weight h hfair hne => ?_, fun dir weight hfair hne => ?_⟩
  · have hfirst : (fun t => (rotationOrder text rng gateways t).bind fun order => order.head?.map entryOnion) =
        fun t => (spreadAt (entryReading text) rng gateways t).order.head?.map (entryReading text).key := by
      funext t
      rw [rotationOrder_eq hdraws h]
      rfl
    have hcredit : (fun t onion => (rotationStates text rng gateways t).bind fun s => s.1.lookup onion) =
        fun t => (states (entryReading text) rng gateways t).1 := by
      funext t
      obtain ⟨swrr, hstate, hcredits⟩ := rotationStates_eq hdraws h t
      rw [hstate, ← hcredits]
      rfl
    rw [hfirst, hcredit]
    exact spread_shares (entries_drawable hdraws) hfair hne
  · have hfirst : (fun t => (rotation_order rng dir t).head?.map fun g => some g.onion) =
        fun t => (spreadAt gatewayReading rng dir t).order.head?.map gatewayReading.key := by
      funext t
      rw [rotation_order_eq hdraws]
      rfl
    have hcredit : (fun t => (rotation_states rng dir t).1.credits) = fun t => (states gatewayReading rng dir t).1 :=
      funext fun t => (rotation_states_eq hdraws dir t).1
    rw [hfirst, hcredit]
    exact spread_shares (drawable hdraws) hfair hne

/-- Weights of 1 and 2, behind a gateway that is down: of three orders one starts with the one and two with the other. -/
theorem rotation_shares_three :
    Shares ((spreadPool (entryReading fun _ => none) [entryOf "c" 7 "down", entryOf "a" 1 "up",
        entryOf "b" 2 "up"]).map entryOnion) (fun onion => if onion = some "a" then 1 else 2)
      (fun t => (rotationOrder (fun _ => none) (fun _ => 1 / 2) [entryOf "c" 7 "down", entryOf "a" 1 "up",
        entryOf "b" 2 "up"] t).bind fun order => order.head?.map entryOnion)
      (fun t onion => (rotationStates (fun _ => none) (fun _ => 1 / 2) [entryOf "c" 7 "down", entryOf "a" 1 "up",
        entryOf "b" 2 "up"] t).bind fun s => s.1.lookup onion) ∧
    Shares ((spreadPool gatewayReading [⟨"a", 1, "up"⟩, ⟨"b", 2, "up"⟩]).map fun g => some g.onion)
      (fun onion => if onion = some "a" then 1 else 2)
      (fun t => (rotation_order (fun _ => 1 / 2) [⟨"a", 1, "up"⟩, ⟨"b", 2, "up"⟩] t).head?.map fun g => some g.onion)
      (fun t => (rotation_states (fun _ => 1 / 2) [⟨"a", 1, "up"⟩, ⟨"b", 2, "up"⟩] t).1.credits) := by
  have hdraws : ∀ k : ℕ, 0 ≤ (fun _ => 1 / 2 : ℕ → ℚ) k ∧ (fun _ => 1 / 2 : ℕ → ℚ) k < 1 := fun _ => by norm_num
  have hpool : spreadPool (entryReading fun _ => none) [entryOf "c" 7 "down", entryOf "a" 1 "up",
      entryOf "b" 2 "up"] = [entryOf "a" 1 "up", entryOf "b" 2 "up"] := by
    simp [spreadPool, poolOf, show (entryReading fun _ => none).down = Directory.isDown from rfl]
  have hdir : spreadPool gatewayReading [⟨"a", 1, "up"⟩, ⟨"b", 2, "up"⟩] = [⟨"a", 1, "up"⟩, ⟨"b", 2, "up"⟩] := by
    decide
  obtain ⟨hclient, hnative⟩ := @rotation_shares (fun _ => none) _ hdraws
  refine ⟨hclient _ _ (readable_of_numbers (by simp [entryOf, Json.get_cons, Json.get_nil])) ?_ ?_,
    hnative _ _ ?_ ?_⟩
  · rw [hpool]
    have hkey : (entryReading fun _ => none).key = entryOnion := rfl
    exact ⟨by simp [hkey], by simp [hkey]; norm_num, by simp [hkey]⟩
  · rw [hpool]
    exact List.cons_ne_nil _ _
  · rw [hdir]
    exact ⟨by decide, by decide, by decide⟩
  · rw [hdir]
    exact List.cons_ne_nil _ _

end Shares

/-! ### The same orders -/

section Agree

variable (text : List Char → Option ℚ) (rng : ℕ → ℚ)

/-- The onions of the spread orders of directories that come one after the other, each with the draws after it. -/
def spreadOrders (swrr : Swrr) (k : ℕ) : List (List Value) → Option (List (List (Option String) × ℕ))
  | [] => some []
  | view :: views => (spreadSelectionOrder text rng swrr k view).bind fun (swrr, k, order) =>
      (spreadOrders swrr k views).map ((order.map entryOnion, k) :: ·)

def selectionOrders (k : ℕ) : List (List Value) → Option (List (List (Option String) × ℕ))
  | [] => some []
  | view :: views => (selectionOrderFrom text rng k view).bind fun (order, k) =>
      (selectionOrders k views).map ((order.map entryOnion, k) :: ·)

def onionsOf (order : List GatewayEntry) : List (Option String) := order.map fun g => some g.onion

def spread_orders (state : SmoothWeightedState) (k : ℕ) : List (List GatewayEntry) → List (List (Option String) × ℕ)
  | [] => []
  | dir :: dirs =>
    let r := spread_selection_order rng dir state k
    (onionsOf r.2.2, r.2.1) :: spread_orders r.1 r.2.1 dirs

def selection_orders (k : ℕ) : List (List GatewayEntry) → List (List (Option String) × ℕ)
  | [] => []
  | dir :: dirs =>
    let r := selection_order rng dir k
    (onionsOf r.1, r.2) :: selection_orders r.2 dirs

/-- Both clients read the same of an entry. -/
structure Reads (g : Value) (e : GatewayEntry) : Prop where
  onion : entryOnion g = some e.onion
  health : g.get "health" = some (.str e.health)
  weight : g.get "weight" = some (.num (Literal.whole e.weight.toNat).number)

variable {text rng}

lemma clamped_toNat (e : GatewayEntry) : e.clamped = min (e.weight.toNat : ℚ) 1000 :=
  max_eq_right (le_min (Nat.cast_nonneg _) (by norm_num [MAX_WEIGHT]))

/-- What a double rounds of a whole number is beyond the bound of a weight. -/
lemma effWeight_of_reads {g : Value} {e : GatewayEntry} (h : Reads g e) : effWeight text g = some e.clamped := by
  have hsize : ((e.weight.toNat : ℤ)).natAbs ≤ 2 ^ 64 := by
    have := e.weight.toNat_lt
    omega
  rw [effWeight, h.weight, number_whole hsize]
  show some (max 0 (min (Directory.MAX_WEIGHT : ℚ) (Decimal.ofInt (nearest e.weight.toNat)).value)) = _
  rw [Decimal.value_ofInt, clamped_toNat, min_comm]
  refine congrArg some ?_
  rcases le_or_gt ((e.weight.toNat : ℤ)).natAbs (2 ^ 53) with hsmall | hbig
  · rw [nearest_of_small hsmall]
    refine max_eq_right (le_min ?_ ?_)
    · exact_mod_cast Nat.zero_le _
    · exact_mod_cast Nat.zero_le _
  · obtain ⟨hle, hpos⟩ := natAbs_nearest hbig
    have hnearest : (1000 : ℤ) ≤ nearest e.weight.toNat := by omega
    have hweight : (1000 : ℤ) ≤ e.weight.toNat := by omega
    rw [show (Directory.MAX_WEIGHT : ℚ) = 1000 from rfl, min_eq_right (by exact_mod_cast hnearest),
      min_eq_right (by exact_mod_cast hweight)]
    exact max_eq_right (by norm_num)

lemma row_of_reads {g : Value} {e : GatewayEntry} (h : Reads g e) :
    (entryReading text).row g = gatewayReading.row e := by
  have hdown : Directory.isDown g = e.isDown := by
    rw [Directory.isDown, h.health]
    rfl
  have hweight : (entryReading text).weight g = e.clamped := by
    show (effWeight text g).getD 0 = _
    rw [effWeight_of_reads h]
    rfl
  exact Prod.ext h.onion (Prod.ext hdown hweight)

lemma rows_of_reads {gateways : List Value} {dir : List GatewayEntry} (h : List.Forall₂ Reads gateways dir) :
    gateways.map (entryReading text).row = dir.map gatewayReading.row := by
  induction h with
  | nil => rfl
  | cons hread _ ih => rw [List.map_cons, List.map_cons, row_of_reads hread, ih]

lemma readable_of_reads {gateways : List Value} {dir : List GatewayEntry} (h : List.Forall₂ Reads gateways dir) :
    Readable text gateways := by
  rintro g hg -
  induction h with
  | nil => cases hg
  | cons hread _ ih =>
    rcases List.mem_cons.mp hg with rfl | hg
    · rw [effWeight_of_reads hread]
      rfl
    · exact ih hg

lemma onions_of_rows {order : List Value} {order' : List GatewayEntry}
    (h : order.map (entryReading text).row = order'.map gatewayReading.row) :
    order.map entryOnion = onionsOf order' := by
  have := congrArg (List.map Prod.fst) h
  rwa [List.map_map, List.map_map] at this

lemma onionsOf_length (order : List GatewayEntry) : (onionsOf order).length = order.length := List.length_map ..

lemma spreadOrders_eq (hdraws : ∀ k, 0 ≤ rng k ∧ rng k < 1) {views : List (List Value)}
    {dirs : List (List GatewayEntry)} (h : List.Forall₂ (List.Forall₂ Reads) views dirs) {swrr : Swrr}
    {state : SmoothWeightedState} (hsame : credits swrr = state.credits) (k : ℕ) :
    spreadOrders text rng swrr k views = some (spread_orders rng state k dirs) := by
  induction h generalizing swrr state k with
  | nil => rfl
  | @cons view dir views dirs hread _ ih =>
    have hreadable : Readable text view := readable_of_reads hread
    have hrows : view.map (entryReading text).row = dir.map gatewayReading.row := rows_of_reads hread
    obtain ⟨swrr', hclient, hcredits⟩ := Directory.spreadSelectionOrder_exact hreadable hdraws swrr k
    obtain ⟨state', hnative, hcredits'⟩ := @spread_selection_order_eq rng dir hdraws state k
    obtain ⟨hcredit, hused, horder⟩ := @spread_of_rows _ _ _ _ rng _ _ _ _ hrows state.credits k
    rw [hsame] at hclient hcredits
    simp only [spreadOrders, spread_orders, hclient, hnative, Option.bind_some]
    rw [ih (hcredits.trans (hcredit.trans hcredits'.symm)), onions_of_rows horder, hused]
    rfl

lemma selectionOrders_eq (hdraws : ∀ k, 0 ≤ rng k ∧ rng k < 1) {views : List (List Value)}
    {dirs : List (List GatewayEntry)} (h : List.Forall₂ (List.Forall₂ Reads) views dirs) (k : ℕ) :
    selectionOrders text rng k views = some (selection_orders rng k dirs) := by
  induction h generalizing k with
  | nil => rfl
  | @cons view dir views dirs hread _ ih =>
    have hreadable : Readable text view := readable_of_reads hread
    have hrows : view.map (entryReading text).row = dir.map gatewayReading.row := rows_of_reads hread
    have horder := onions_of_rows (@order_of_rows _ _ _ _ rng _ _ _ _ hrows k)
    have hlength := congrArg List.length horder
    rw [List.length_map, onionsOf_length] at hlength
    simp only [selectionOrders, selection_orders, Directory.selectionOrderFrom_exact hreadable,
      selection_order_eq hdraws, Option.bind_some]
    rw [ih, horder, hlength]
    rfl

/-- **The two clients agree.** Over any directories, one after the other, whose entries both read the same, they make
the same orders, and as many draws. -/
theorem orders_agree (hdraws : ∀ k, 0 ≤ rng k ∧ rng k < 1) {views : List (List Value)}
    {dirs : List (List GatewayEntry)} (h : List.Forall₂ (List.Forall₂ Reads) views dirs) :
    spreadOrders text rng ∅ 0 views = some (spread_orders rng ∅ 0 dirs) ∧
      selectionOrders text rng 0 views = some (selection_orders rng 0 dirs) := by
  refine ⟨spreadOrders_eq hdraws h (funext fun onion => ?_) 0, selectionOrders_eq hdraws h 0⟩
  cases onion <;> rfl

lemma reads_entryOf (onion health : String) {n : ℤ} {weight : UInt64} (hn : n = weight.toNat)
    (h : weight.toNat ≤ 2 ^ 53) : Reads (entryOf onion n health) ⟨onion, weight, health⟩ := by
  subst hn
  refine ⟨rfl, rfl, ?_⟩
  simp only
  rw [number_whole (by omega), nearest_of_small (by omega)]
  rfl

/-- Two directories: of the one a gateway is down, of the other one is listed twice. -/
theorem orders_agree_two :
    spreadOrders (fun _ => none) (fun _ => 1 / 3) ∅ 0
        [[entryOf "a" 2 "up", entryOf "b" 5000 "odd", entryOf "c" 1 "down"],
          [entryOf "b" 1 "up", entryOf "b" 3 "up", entryOf "a" 0 "up"]] =
      some (spread_orders (fun _ => 1 / 3) ∅ 0
        [[⟨"a", 2, "up"⟩, ⟨"b", 5000, "odd"⟩, ⟨"c", 1, "down"⟩], [⟨"b", 1, "up"⟩, ⟨"b", 3, "up"⟩, ⟨"a", 0, "up"⟩]]) ∧
    selectionOrders (fun _ => none) (fun _ => 1 / 3) 0
        [[entryOf "a" 2 "up", entryOf "b" 5000 "odd", entryOf "c" 1 "down"],
          [entryOf "b" 1 "up", entryOf "b" 3 "up", entryOf "a" 0 "up"]] =
      some (selection_orders (fun _ => 1 / 3) 0
        [[⟨"a", 2, "up"⟩, ⟨"b", 5000, "odd"⟩, ⟨"c", 1, "down"⟩], [⟨"b", 1, "up"⟩, ⟨"b", 3, "up"⟩, ⟨"a", 0, "up"⟩]]) := by
  refine orders_agree (fun _ => by norm_num) (.cons (.cons ?_ (.cons ?_ (.cons ?_ .nil)))
    (.cons (.cons ?_ (.cons ?_ (.cons ?_ .nil))) .nil))
  all_goals exact reads_entryOf _ _ rfl (by decide)

end Agree

end ShadeTree.Native
