import ShadeTree.Lib.Frames
import ShadeTree.Lib.Sums

/-!
# Bonds held for keys, and the history of what happened to them

A ledger holds at most one bond for a key.  A bond is deposited under a fresh index, may announce its exit,
and leaves once: withdrawn when the unbonding time `u` after its exit has passed, or slashed.  Money may also
arrive without a deposit.

Two invariants carry the results.  `Sound` is about the moment: the balance covers the bonds, the counter
counts the active ones, the indices tell the bonds apart.  `Story` is about the past: the history is
`Lawful` entry by entry, and the bonds held are what it leaves over.
-/

namespace ShadeTree.Lib

open Function (update)

/-- A bond that is held; `exitAt` is when its exit was announced. -/
structure Bond where
  amount : ℕ
  index : ℕ
  exitAt : Option ℕ
  amount_pos : 0 < amount

inductive Deed where
  | deposit | exit | withdraw | slash
  deriving DecidableEq, Repr

/-- The deeds that pay the bond out. -/
def Deed.pays : Deed → Prop
  | .withdraw | .slash => True
  | .deposit | .exit => False

instance (d : Deed) : Decidable d.pays :=
  match d with
  | .withdraw | .slash => .isTrue trivial
  | .deposit | .exit => .isFalse id

/-- What happened to the bond with an index, and when. -/
structure Entry (K : Type*) where
  deed : Deed
  key : K
  index : ℕ
  amount : ℕ
  time : ℕ

structure BondLedger (K : Type*) where
  clock : ℕ
  balance : ℕ
  nextIndex : ℕ
  activeCount : ℕ
  bonds : K → Option Bond
  history : List (Entry K)

namespace BondLedger

variable {K : Type*}

/-- The amount held for a key, `0` when there is no bond. -/
def amount (L : BondLedger K) (k : K) : ℕ := (L.bonds k).elim 0 Bond.amount

/-- The key holds a bond whose exit was not announced. -/
def active (L : BondLedger K) (k : K) : Bool := (L.bonds k).any fun b => b.exitAt.isNone

/-- The bond may leave by this deed. -/
def Payable (u clock : ℕ) (b : Bond) : Deed → Prop
  | .slash => True
  | .withdraw => ∃ t, b.exitAt = some t ∧ t + u ≤ clock
  | .deposit | .exit => False

section Step

variable [DecidableEq K]

/-- One deed: time passes, money arrives, or something happens to the bond of a key. -/
inductive Step (u : ℕ) : BondLedger K → Option (Deed × K) → BondLedger K → Prop where
  | tick {L : BondLedger K} {t : ℕ} :
      L.clock ≤ t → Step u L none { L with clock := t }
  | gift {L : BondLedger K} {v : ℕ} : Step u L none { L with balance := L.balance + v }
  | deposit {L : BondLedger K} {k : K} {v : ℕ} (hv : 0 < v) : L.bonds k = none →
      Step u L (some (.deposit, k))
        { L with
          balance := L.balance + v
          nextIndex := L.nextIndex + 1
          activeCount := L.activeCount + 1
          bonds := update L.bonds k (some ⟨v, L.nextIndex, none, hv⟩)
          history := L.history ++ [⟨.deposit, k, L.nextIndex, v, L.clock⟩] }
  | exit {L : BondLedger K} {k : K} {b : Bond} : L.bonds k = some b → b.exitAt = none →
      Step u L (some (.exit, k))
        { L with
          activeCount := L.activeCount - 1
          bonds := update L.bonds k (some { b with exitAt := some L.clock })
          history := L.history ++ [⟨.exit, k, b.index, b.amount, L.clock⟩] }
  | pay {L : BondLedger K} {k : K} {b : Bond} {d : Deed} : L.bonds k = some b →
      Payable u L.clock b d → b.amount ≤ L.balance →
      Step u L (some (d, k))
        { L with
          balance := L.balance - b.amount
          activeCount := if b.exitAt = none then L.activeCount - 1 else L.activeCount
          bonds := update L.bonds k none
          history := L.history ++ [⟨d, k, b.index, b.amount, L.clock⟩] }

end Step

/-- Nothing held and nothing done. -/
def empty (clock balance : ℕ) : BondLedger K := ⟨clock, balance, 0, 0, fun _ => none, []⟩

lemma active_of_bond {L : BondLedger K} {k : K} {b : Bond} (hk : L.bonds k = some b) : L.active k = b.exitAt.isNone := by
  simp [active, hk]

lemma amount_of_bond {L : BondLedger K} {k : K} {b : Bond} (hk : L.bonds k = some b) : L.amount k = b.amount := by
  simp [amount, hk]

/-! ### The moment -/

/-- The balance covers the bonds, the counter counts the active ones, and the indices tell them apart. -/
structure Sound (L : BondLedger K) : Prop where
  solvent : ∃ total, Sums L.amount total ∧ total ≤ L.balance
  count : Counts (fun k => L.active k = true) L.activeCount
  index_lt : ∀ k b, L.bonds k = some b → b.index < L.nextIndex
  index_inj : ∀ k k' b b', L.bonds k = some b → L.bonds k' = some b' → b.index = b'.index → k = k'

lemma Sound.empty (clock balance : ℕ) : (empty clock balance : BondLedger K).Sound where
  solvent := ⟨0, Sums.zero, Nat.zero_le _⟩
  count := Sums.congr Sums.zero fun k => by simp [active, BondLedger.empty]
  index_lt := fun k b h => by cases h
  index_inj := fun k k' b b' h => by cases h

section Moment

variable [DecidableEq K] {L L' : BondLedger K}

/-- Writing a bond that keeps its index, or none, keeps the indices apart. -/
lemma Sound.index_update (h : L.Sound) {k : K} {o : Option Bond}
    (ho : ∀ b', o = some b' → ∃ b, L.bonds k = some b ∧ b'.index = b.index) :
    (∀ j b, update L.bonds k o j = some b → b.index < L.nextIndex) ∧
      ∀ j j' b b', update L.bonds k o j = some b → update L.bonds k o j' = some b' →
        b.index = b'.index → j = j' := by
  -- the bond found after the write has the index of the one found before it
  have hback : ∀ j b', update L.bonds k o j = some b' → ∃ b, L.bonds j = some b ∧ b'.index = b.index := by
    intro j b' hj
    by_cases hjk : j = k
    · subst hjk
      exact ho b' (by simpa using hj)
    · rw [Function.update_of_ne hjk] at hj
      exact ⟨b', hj, rfl⟩
  constructor
  · intro j b' hj
    obtain ⟨b, hb, hi⟩ := hback j b' hj
    rw [hi]
    exact h.index_lt j b hb
  · intro j j' b b' hj hj' hbb
    obtain ⟨c, hc, hi⟩ := hback j b hj
    obtain ⟨c', hc', hi'⟩ := hback j' b' hj'
    exact h.index_inj j j' c c' hc hc' (by rw [← hi, ← hi', hbb])

/-- The total after the bond of one key changed. -/
lemma sums_update {total : ℕ} (h : Sums L.amount total) (k : K) (o : Option Bond) :
    Sums (fun j => (update L.bonds k o j).elim 0 Bond.amount)
      (total - L.amount k + o.elim 0 Bond.amount) := by
  refine Sums.congr (h.update k (o.elim 0 Bond.amount)) fun j => ?_
  by_cases hj : j = k
  · subst hj; simp
  · simp [Function.update_of_ne hj, amount]

/-- What is active changes at the written key only. -/
lemma active_update_of_ne {k j : K} (o : Option Bond) (hj : j ≠ k) :
    ((update L.bonds k o j).any fun b => b.exitAt.isNone) = true ↔ L.active j = true := by
  rw [Function.update_of_ne hj]
  rfl

/-- **The step lemma of the moment.** -/
theorem Sound.step {u : ℕ} {e : Option (Deed × K)} (h : L.Sound)
    (hst : Step u L e L') : L'.Sound := by
  obtain ⟨total, htotal, hle⟩ := h.solvent
  cases hst with
  | tick _ => exact ⟨h.solvent, h.count, h.index_lt, h.index_inj⟩
  | gift => exact ⟨⟨total, htotal, by dsimp only; omega⟩, h.count, h.index_lt, h.index_inj⟩
  | @deposit k v hv hk =>
    have hamount : L.amount k = 0 := by simp [amount, hk]
    have hactive : ¬ L.active k = true := by simp [active, hk]
    refine ⟨⟨_, sums_update htotal k _, ?_⟩, ?_, ?_, ?_⟩
    · dsimp only [Option.elim]; omega
    · exact h.count.insert hactive (by simp [active]) fun j hj => active_update_of_ne _ hj
    · intro j b hj
      dsimp only at hj ⊢
      by_cases hjk : j = k
      · subst hjk
        obtain rfl : _ = b := by simpa using hj
        exact Nat.lt_succ_self _
      · rw [Function.update_of_ne hjk] at hj
        exact Nat.lt_succ_of_lt (h.index_lt j b hj)
    · -- the fresh index is larger than every index held
      intro j j' b b' hj hj' hbb
      dsimp only at hj hj'
      by_cases hjk : j = k <;> by_cases hjk' : j' = k
      · rw [hjk, hjk']
      · subst hjk
        obtain rfl : _ = b := by simpa using hj
        rw [Function.update_of_ne hjk'] at hj'
        have := h.index_lt j' b' hj'
        dsimp only at hbb
        omega
      · subst hjk'
        obtain rfl : _ = b' := by simpa using hj'
        rw [Function.update_of_ne hjk] at hj
        have := h.index_lt j b hj
        dsimp only at hbb
        omega
      · rw [Function.update_of_ne hjk] at hj
        rw [Function.update_of_ne hjk'] at hj'
        exact h.index_inj j j' b b' hj hj' hbb
  | @exit k b hk hb =>
    have hactive : L.active k = true := by simp [active_of_bond hk, hb]
    obtain ⟨hlt, hinj⟩ := h.index_update (k := k) (o := some { b with exitAt := some L.clock })
      fun b' hb' => ⟨b, hk, by simpa using (congrArg Bond.index (Option.some.inj hb')).symm⟩
    refine ⟨⟨_, sums_update htotal k _, ?_⟩, ?_, hlt, hinj⟩
    · have hkt := htotal.le k
      rw [amount_of_bond hk] at hkt ⊢
      dsimp only [Option.elim]
      omega
    · exact h.count.erase hactive (by simp [active]) fun j hj => active_update_of_ne _ hj
  | @pay k b d hk hd hv =>
    obtain ⟨hlt, hinj⟩ := h.index_update (k := k) (o := none) fun b' hb' => by cases hb'
    refine ⟨⟨_, sums_update htotal k _, ?_⟩, ?_, hlt, hinj⟩
    · rw [amount_of_bond hk]
      dsimp only [Option.elim]
      omega
    · dsimp only
      split_ifs with hb
      · have hactive : L.active k = true := by simp [active_of_bond hk, hb]
        exact h.count.erase hactive (by simp [active]) fun j hj => active_update_of_ne _ hj
      · refine h.count.same (k := k) ?_ fun j hj => active_update_of_ne _ hj
        simp [active, hk, hb]

/-- **Solvency.** The keys that hold a bond are finitely many, their bonds are covered by the balance, and
the counter is the number of those that did not announce their exit. -/
theorem Sound.covered (h : L.Sound) : ∃ held : Finset K,
    (∀ k, k ∈ held ↔ (L.bonds k).isSome) ∧ ∑ k ∈ held, L.amount k ≤ L.balance ∧
      L.activeCount = (held.filter fun k => L.active k = true).card := by
  obtain ⟨total, ⟨s, hs, hsum⟩, hle⟩ := h.solvent
  have hheld : ∀ k, k ∈ s.filter (fun k => (L.bonds k).isSome) ↔ (L.bonds k).isSome := by
    intro k
    rw [Finset.mem_filter, and_iff_right_iff_imp]
    intro hk
    by_contra hks
    obtain ⟨b, hb⟩ := Option.isSome_iff_exists.mp hk
    have h0 := hs k hks
    rw [amount_of_bond hb] at h0
    have := b.amount_pos
    omega
  refine ⟨s.filter fun k => (L.bonds k).isSome, hheld, ?_, ?_⟩
  · exact (Sums.sum_le ⟨s, hs, hsum⟩ _).trans hle
  · refine (h.count.card_filter fun k hk => (hheld k).mpr ?_).symm
    cases hb : L.bonds k with
    | none => simp [active, hb] at hk
    | some b => rfl

/-- A bond that is held can be paid. -/
lemma Sound.amount_le (h : L.Sound) {k : K} {b : Bond} (hk : L.bonds k = some b) :
    b.amount ≤ L.balance := by
  obtain ⟨total, htotal, hle⟩ := h.solvent
  have := htotal.le k
  rw [amount_of_bond hk] at this
  omega

lemma Sound.activeCount_pos (h : L.Sound) {k : K} {b : Bond} (hk : L.bonds k = some b)
    (hb : b.exitAt = none) : 0 < L.activeCount :=
  h.count.pos (k := k) (by simp [active_of_bond hk, hb])

end Moment

/-! ### The past -/

/-- Every entry of the list stands in the relation to what came before it. -/
def Chronicle {α : Type*} (P : List α → α → Prop) (l : List α) : Prop :=
  ∀ l₁ e l₂, l = l₁ ++ e :: l₂ → P l₁ e

lemma Chronicle.nil {α : Type*} {P : List α → α → Prop} : Chronicle P [] := by
  intro l₁ e l₂ h
  simp at h

lemma Chronicle.snoc {α : Type*} {P : List α → α → Prop} {l : List α} {x : α} (h : Chronicle P l)
    (hx : P l x) : Chronicle P (l ++ [x]) := by
  intro l₁ e l₂ hl
  rcases List.eq_nil_or_concat l₂ with rfl | ⟨l₂, y, rfl⟩
  · obtain ⟨rfl, he⟩ := List.append_inj' hl rfl
    obtain rfl : x = e := List.singleton_inj.mp he
    exact hx
  · rw [List.concat_eq_append, ← List.cons_append, ← List.append_assoc] at hl
    exact h l₁ e l₂ (List.append_inj' hl rfl).1

/-- What an entry of the history owes to the entries before it. -/
structure Lawful (u : ℕ) (before : List (Entry K)) (e : Entry K) : Prop where
  /-- a deposit gets an index that was never used -/
  fresh : e.deed = .deposit → ∀ x ∈ before, x.index < e.index
  /-- anything else is about an earlier deposit for the key, and about its whole amount -/
  deposited : e.deed ≠ .deposit → ∃ d ∈ before, d.deed = .deposit ∧ d.key = e.key ∧
    d.index = e.index ∧ d.amount = e.amount
  /-- a bond is paid once -/
  once : e.deed.pays → ∀ x ∈ before, x.deed.pays → x.index ≠ e.index
  /-- a withdrawal waits for the unbonding time after the exit of the same bond -/
  unbonded : e.deed = .withdraw → ∃ x ∈ before, x.deed = .exit ∧ x.key = e.key ∧ x.index = e.index ∧
    x.time + u ≤ e.time

/-- The history is lawful, and the bonds held are what it leaves over. -/
structure Story (u : ℕ) (L : BondLedger K) : Prop where
  lawful : Chronicle (Lawful u) L.history
  index_lt : ∀ e ∈ L.history, e.index < L.nextIndex
  gone : ∀ e ∈ L.history, e.deed.pays → ∀ k b, L.bonds k = some b → b.index ≠ e.index
  kept : ∀ e ∈ L.history, e.deed = .deposit →
    (∃ b, L.bonds e.key = some b ∧ b.index = e.index ∧ b.amount = e.amount) ∨
      ∃ p ∈ L.history, p.deed.pays ∧ p.index = e.index
  exited : ∀ k b t, L.bonds k = some b → b.exitAt = some t →
    ∃ e ∈ L.history, e.deed = .exit ∧ e.key = k ∧ e.index = b.index ∧ e.time = t
  since : ∀ k b, L.bonds k = some b → ∃ l₁ d l₂, L.history = l₁ ++ d :: l₂ ∧
    d.deed = .deposit ∧ d.key = k ∧ d.index = b.index ∧ d.amount = b.amount ∧
    ∀ e ∈ l₂, e.key = k → b.exitAt ≠ none

lemma Story.empty (u clock balance : ℕ) :
    Story u (empty clock balance : BondLedger K) where
  lawful := Chronicle.nil
  index_lt := fun e he => by cases he
  gone := fun e he => by cases he
  kept := fun e he => by cases he
  exited := fun k b t h => by cases h
  since := fun k b h => by cases h

section Past

variable {L L' : BondLedger K} {u : ℕ}

/-- An entry about one key leaves what the history says of the bond of another. -/
lemma Story.since_snoc (h : Story u L) {x : Entry K} {k : K} {b : Bond}
    (hk : L.bonds k = some b) (hx : x.key = k → b.exitAt ≠ none) :
    ∃ l₁ d l₂, L.history ++ [x] = l₁ ++ d :: l₂ ∧ d.deed = .deposit ∧ d.key = k ∧
      d.index = b.index ∧ d.amount = b.amount ∧ ∀ e ∈ l₂, e.key = k → b.exitAt ≠ none := by
  obtain ⟨l₁, d, l₂, hl, hd, hkey, hi, ha, hall⟩ := h.since k b hk
  refine ⟨l₁, d, l₂ ++ [x], by rw [hl]; simp, hd, hkey, hi, ha, fun e he => ?_⟩
  rcases List.mem_append.mp he with he | he
  · exact hall e he
  · obtain rfl := List.mem_singleton.mp he
    exact hx

/-- The deposit a bond goes back to. -/
lemma Story.deposit_mem (h : Story u L) {k : K} {b : Bond} (hk : L.bonds k = some b) :
    ∃ d ∈ L.history, d.deed = .deposit ∧ d.key = k ∧ d.index = b.index ∧ d.amount = b.amount := by
  obtain ⟨l₁, d, l₂, hl, hd, hkey, hi, ha, -⟩ := h.since k b hk
  exact ⟨d, by rw [hl]; simp, hd, hkey, hi, ha⟩

lemma Story.tick (h : Story u L) (t : ℕ) : Story u { L with clock := t } :=
  ⟨h.lawful, h.index_lt, h.gone, h.kept, h.exited, h.since⟩

lemma Story.gift (h : Story u L) (v : ℕ) :
    Story u { L with balance := L.balance + v } :=
  ⟨h.lawful, h.index_lt, h.gone, h.kept, h.exited, h.since⟩

/-- A deposit that was not paid out is still held. -/
lemma Story.held (h : Story u L) {d : Entry K} (hd : d ∈ L.history) (hdep : d.deed = .deposit)
    (hp : ∀ p ∈ L.history, p.deed.pays → p.index ≠ d.index) :
    ∃ b, L.bonds d.key = some b ∧ b.index = d.index ∧ b.amount = d.amount := by
  rcases h.kept d hd hdep with hb | ⟨p, hp', hpp, hi⟩
  · exact hb
  · exact absurd hi (hp p hp' hpp)

/-- **Return.** A key that is active although something ended its time before was deposited for again
later, under an index above all that were used until then. -/
theorem Story.returned (h : Story u L) {k : K} {b : Bond} (hk : L.bonds k = some b)
    (hb : b.exitAt = none) {l₁ l₂ : List (Entry K)} {e : Entry K} (hl : L.history = l₁ ++ e :: l₂)
    (hek : e.key = k) (he : e.deed ≠ .deposit) :
    ∃ n d m, l₂ = n ++ d :: m ∧ d.deed = .deposit ∧ d.key = k ∧ d.index = b.index ∧
      d.amount = b.amount ∧ ∀ x ∈ l₁ ++ e :: n, x.index < d.index := by
  obtain ⟨m₁, d, m₂, hm, hdep, hkey, hi, ha, hall⟩ := h.since k b hk
  -- the last deposit comes after the entry, for nothing about the key comes after it
  have hmem : ∃ n, m₁ = l₁ ++ e :: n ∧ l₂ = n ++ d :: m₂ := by
    have heq : l₁ ++ e :: l₂ = m₁ ++ d :: m₂ := hl.symm.trans hm
    rcases List.append_eq_append_iff.mp heq with ⟨as, hm₁, hl₂⟩ | ⟨bs, hl₁, hm₂⟩
    · cases as with
      | nil =>
        obtain ⟨rfl, -⟩ := List.cons.inj hl₂
        exact absurd hdep he
      | cons a as =>
        obtain ⟨rfl, rfl⟩ := List.cons.inj hl₂
        exact ⟨as, hm₁, rfl⟩
    · cases bs with
      | nil =>
        obtain ⟨rfl, -⟩ := List.cons.inj hm₂
        exact absurd hdep he
      | cons c bs =>
        obtain ⟨rfl, rfl⟩ := List.cons.inj hm₂
        exact absurd hb (hall e (by simp) hek)
  obtain ⟨n, rfl, rfl⟩ := hmem
  exact ⟨n, d, m₂, rfl, hdep, hkey, hi, ha, (h.lawful _ _ _ hm).fresh hdep⟩

variable [DecidableEq K]

lemma Story.deposit (h : Story u L) {k : K} {v : ℕ} (hv : 0 < v)
    (hk : L.bonds k = none) :
    Story u
      { L with
        balance := L.balance + v
        nextIndex := L.nextIndex + 1
        activeCount := L.activeCount + 1
        bonds := update L.bonds k (some ⟨v, L.nextIndex, none, hv⟩)
        history := L.history ++ [⟨.deposit, k, L.nextIndex, v, L.clock⟩] } where
  lawful := h.lawful.snoc
    { fresh := fun _ => h.index_lt
      deposited := fun hne => absurd rfl hne
      once := fun hp => hp.elim
      unbonded := fun hw => by cases hw }
  index_lt := by
    intro e he
    rcases List.mem_append.mp he with he | he
    · exact Nat.lt_succ_of_lt (h.index_lt e he)
    · obtain rfl := List.mem_singleton.mp he
      exact Nat.lt_succ_self _
  gone := by
    intro e he hp j b hj
    dsimp only at he hj
    rcases List.mem_append.mp he with hold | hnew
    · by_cases hjk : j = k
      · subst hjk
        obtain rfl : _ = b := by simpa using hj
        exact (h.index_lt e hold).ne'
      · rw [Function.update_of_ne hjk] at hj
        exact h.gone e hold hp j b hj
    · obtain rfl := List.mem_singleton.mp hnew
      exact hp.elim
  kept := by
    intro e he hd
    rcases List.mem_append.mp he with he | he
    · rcases h.kept e he hd with ⟨b, hb, hi⟩ | ⟨p, hp, hpp⟩
      · have hek : e.key ≠ k := by rintro rfl; cases hk.symm.trans hb
        exact .inl ⟨b, by simpa [Function.update_of_ne hek] using hb, hi⟩
      · exact .inr ⟨p, List.mem_append_left _ hp, hpp⟩
    · obtain rfl := List.mem_singleton.mp he
      exact .inl ⟨_, Function.update_self .., rfl, rfl⟩
  exited := by
    intro j b t hj ht
    dsimp only at hj
    by_cases hjk : j = k
    · subst hjk
      obtain rfl : _ = b := by simpa using hj
      cases ht
    · rw [Function.update_of_ne hjk] at hj
      obtain ⟨e, he, hee⟩ := h.exited j b t hj ht
      exact ⟨e, List.mem_append_left _ he, hee⟩
  since := by
    intro j b hj
    dsimp only at hj
    by_cases hjk : j = k
    · subst hjk
      obtain rfl : _ = b := by simpa using hj
      exact ⟨L.history, _, [], rfl, rfl, rfl, rfl, rfl, fun e he => by cases he⟩
    · rw [Function.update_of_ne hjk] at hj
      exact h.since_snoc hj fun hkj => absurd hkj.symm hjk

lemma Story.exit (h : Story u L) {k : K} {b : Bond} (hs : L.Sound) (hk : L.bonds k = some b) :
    Story u
      { L with
        activeCount := L.activeCount - 1
        bonds := update L.bonds k (some { b with exitAt := some L.clock })
        history := L.history ++ [⟨.exit, k, b.index, b.amount, L.clock⟩] } where
  lawful := h.lawful.snoc
    { fresh := fun hd => by cases hd
      deposited := fun _ => h.deposit_mem hk
      once := fun hp => hp.elim
      unbonded := fun hw => by cases hw }
  index_lt := by
    intro e he
    rcases List.mem_append.mp he with he | he
    · exact h.index_lt e he
    · obtain rfl := List.mem_singleton.mp he
      exact hs.index_lt k b hk
  gone := by
    intro e he hp j b' hj
    dsimp only at he hj
    rcases List.mem_append.mp he with hold | hnew
    · by_cases hjk : j = k
      · subst hjk
        obtain rfl : _ = b' := by simpa using hj
        exact h.gone e hold hp j b hk
      · rw [Function.update_of_ne hjk] at hj
        exact h.gone e hold hp j b' hj
    · obtain rfl := List.mem_singleton.mp hnew
      exact hp.elim
  kept := by
    intro e he hd
    rcases List.mem_append.mp he with he | he
    · rcases h.kept e he hd with ⟨b', hb', hi⟩ | ⟨p, hp, hpp⟩
      · by_cases hek : e.key = k
        · obtain rfl : b = b' := Option.some.inj (hk.symm.trans (hek ▸ hb'))
          exact .inl ⟨{ b with exitAt := some L.clock }, by simp [hek], hi⟩
        · exact .inl ⟨b', by simpa [Function.update_of_ne hek] using hb', hi⟩
      · exact .inr ⟨p, List.mem_append_left _ hp, hpp⟩
    · obtain rfl := List.mem_singleton.mp he
      cases hd
  exited := by
    intro j b' t hj ht
    dsimp only at hj
    by_cases hjk : j = k
    · subst hjk
      obtain rfl : _ = b' := by simpa using hj
      obtain rfl : L.clock = t := by simpa using ht
      exact ⟨_, List.mem_append_right _ (List.mem_singleton.mpr rfl), rfl, rfl, rfl, rfl⟩
    · rw [Function.update_of_ne hjk] at hj
      obtain ⟨e, he, hee⟩ := h.exited j b' t hj ht
      exact ⟨e, List.mem_append_left _ he, hee⟩
  since := by
    intro j b' hj
    dsimp only at hj
    by_cases hjk : j = k
    · subst hjk
      obtain rfl : _ = b' := by simpa using hj
      obtain ⟨l₁, d, l₂, hl, hd, hkey, hi, ha, -⟩ := h.since j b hk
      refine ⟨l₁, d, l₂ ++ [⟨.exit, j, b.index, b.amount, L.clock⟩], by rw [hl]; simp, hd, hkey, hi, ha,
        fun e _ _ => ?_⟩
      exact Option.some_ne_none _
    · rw [Function.update_of_ne hjk] at hj
      exact h.since_snoc hj fun hkj => absurd hkj.symm hjk

lemma Story.pay (h : Story u L) (hs : L.Sound) {k : K} {b : Bond} {d : Deed}
    (hk : L.bonds k = some b) (hd : Payable u L.clock b d) (count : ℕ) :
    Story u
      { L with
        balance := L.balance - b.amount
        activeCount := count
        bonds := update L.bonds k none
        history := L.history ++ [⟨d, k, b.index, b.amount, L.clock⟩] } where
  lawful := h.lawful.snoc
    { fresh := by rintro rfl; exact hd.elim
      deposited := fun _ => h.deposit_mem hk
      once := fun _ x hx hp => (h.gone x hx hp k b hk).symm
      unbonded := by
        rintro rfl
        obtain ⟨t, ht, hle⟩ := hd
        obtain ⟨e, he, hee, hkey, hi, htime⟩ := h.exited k b t hk ht
        exact ⟨e, he, hee, hkey, hi, by rw [htime]; exact hle⟩ }
  index_lt := by
    intro e he
    rcases List.mem_append.mp he with he | he
    · exact h.index_lt e he
    · obtain rfl := List.mem_singleton.mp he
      exact hs.index_lt k b hk
  gone := by
    intro e he hp j b' hj
    dsimp only at hj
    by_cases hjk : j = k
    · subst hjk
      simp at hj
    rw [Function.update_of_ne hjk] at hj
    rcases List.mem_append.mp he with he | he
    · exact h.gone e he hp j b' hj
    · obtain rfl := List.mem_singleton.mp he
      exact fun hbb => hjk (hs.index_inj j k b' b hj hk hbb)
  kept := by
    intro e he hdep
    rcases List.mem_append.mp he with he | he
    · rcases h.kept e he hdep with ⟨b', hb', hi⟩ | ⟨p, hp, hpp⟩
      · by_cases hek : e.key = k
        · -- the bond of this deposit is the one that is paid now
          obtain rfl : b = b' := Option.some.inj (hk.symm.trans (hek ▸ hb'))
          refine .inr ⟨_, List.mem_append_right _ (List.mem_singleton.mpr rfl), ?_, hi.1⟩
          cases d <;> trivial
        · exact .inl ⟨b', by simpa [Function.update_of_ne hek] using hb', hi⟩
      · exact .inr ⟨p, List.mem_append_left _ hp, hpp⟩
    · obtain rfl := List.mem_singleton.mp he
      dsimp only at hdep
      subst hdep
      exact hd.elim
  exited := by
    intro j b' t hj ht
    dsimp only at hj
    by_cases hjk : j = k
    · subst hjk
      simp at hj
    · rw [Function.update_of_ne hjk] at hj
      obtain ⟨e, he, hee⟩ := h.exited j b' t hj ht
      exact ⟨e, List.mem_append_left _ he, hee⟩
  since := by
    intro j b' hj
    dsimp only at hj
    by_cases hjk : j = k
    · subst hjk
      simp at hj
    · rw [Function.update_of_ne hjk] at hj
      exact h.since_snoc hj fun hkj => absurd hkj.symm hjk

/-- **The step lemma of the past.** -/
theorem Story.step {e : Option (Deed × K)} (h : Story u L) (hs : L.Sound)
    (hst : Step u L e L') : Story u L' := by
  cases hst with
  | tick _ => exact h.tick _
  | gift => exact h.gift _
  | deposit hv hk => exact h.deposit hv hk
  | exit hk _ => exact h.exit hs hk
  | pay hk hd _ => exact h.pay hs hk hd _

/-- **Every run.** What the empty ledger reaches is sound, and its history is lawful. -/
theorem sound_of_reaches {t v : ℕ} (h : Reaches (Step u) (empty t v : BondLedger K) L) :
    L.Sound ∧ Story u L :=
  h.invariant (I := fun L => L.Sound ∧ Story u L) ⟨.empty .., .empty ..⟩
    fun _ _ _ hi hst => ⟨hi.1.step hst, hi.2.step hi.1 hst⟩

end Past

end BondLedger

end ShadeTree.Lib
