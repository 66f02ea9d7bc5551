import ShadeTree.Lib.BondLedger
import ShadeTree.Contracts.GatewayRegistry

/-!
# Bonds on the chain, with payouts that hand control out

Both staking contracts are a bond ledger.  A `Host` is a contract as the chain runs it: its calls, what
they pay in and out, and its storage read as bonds.  Every step of a host in a `World` (the contract, its
balance, the block, the log of its successful calls) is a step of the ledger it reads as (`Refines`), so
what `Lib.BondLedger` proves of ledgers holds of both contracts.

The world runs under `Frames.Step`: `withdraw` and `slash` end by calling the recipient, which may call back,
and a failing recipient undoes the whole call.  The balance has already been reduced when the recipient runs.
-/

namespace ShadeTree.Contracts

open Function (update)
open ShadeTree.Lib

/-- A contract as the chain runs it.  `exec` is the state after a call that succeeds, `entry` what the call
does to a bond, and the last four fields read the storage as a ledger of bonds. -/
structure Host (σ ι : Type*) where
  exec : σ → Block → ι → Option σ
  value : ι → ℕ
  payout : σ → ι → ℕ
  hands : ι → Prop
  entry : σ → Block → ι → Option (Entry ℕ)
  unbonding : σ → ℕ
  bonds : σ → ℕ → Option Bond
  nextIndex : σ → ℕ
  activeCount : σ → ℕ

/-- A contract with its balance, in a block, and its successful calls so far with what each did. -/
structure World (σ ι : Type*) where
  contract : σ
  balance : ℕ
  block : Block
  log : List (ι × Option (Entry ℕ))

/-- What moves the world: a later block, money sent without a call, a call. -/
inductive Move (ι : Type*) where
  | block (b : Block)
  | gift (v : ℕ)
  | call (c : ι)

/-- The moves that end by calling a stranger. -/
def Move.hands {ι : Type*} (p : ι → Prop) : Move ι → Prop
  | .call c => p c
  | .block _ | .gift _ => False

section World

variable {σ ι : Type*} (host : Host σ ι)

inductive World.Step : World σ ι → Move ι → World σ ι → Prop where
  | block {w : World σ ι} {b : Block} :
      w.block.timestamp ≤ b.timestamp → Step w (.block b) { w with block := b }
  | gift {w : World σ ι} {v : ℕ} : Step w (.gift v) { w with balance := w.balance + v }
  | call {w : World σ ι} {c : ι} {S : σ} :
      host.exec w.contract w.block c = some S → host.payout w.contract c ≤ w.balance →
      Step w (.call c)
        { w with
          contract := S
          balance := w.balance + host.value c - host.payout w.contract c
          log := w.log ++ [(c, host.entry w.contract w.block c)] }

/-- The history of bonds in a log. -/
def deeds (log : List (ι × Option (Entry ℕ))) : List (Entry ℕ) := log.filterMap Prod.snd

lemma deeds_snoc (log : List (ι × Option (Entry ℕ))) (c : ι) (e : Entry ℕ) :
    deeds (log ++ [(c, some e)]) = deeds log ++ [e] := by
  simp [deeds]

lemma deeds_snoc_none (log : List (ι × Option (Entry ℕ))) (c : ι) :
    deeds (log ++ [(c, none)]) = deeds log := by
  simp [deeds]

/-- The world read as a ledger of bonds. -/
def World.ledger (w : World σ ι) : BondLedger ℕ where
  clock := w.block.timestamp
  balance := w.balance
  nextIndex := host.nextIndex w.contract
  activeCount := host.activeCount w.contract
  bonds := host.bonds w.contract
  history := deeds w.log

/-- The world before the first call. -/
def World.genesis (S : σ) (balance : ℕ) (b : Block) : World σ ι := ⟨S, balance, b, []⟩

/-- A step of the world, with open calls. -/
abbrev World.Reentrant : Frames (World σ ι) → FrameLabel (Move ι) → Frames (World σ ι) → Prop :=
  Frames.Step (World.Step host) (Move.hands host.hands)

/-- Every successful call keeps the unbonding time and is a step of the ledger. -/
def Host.Refines : Prop :=
  ∀ (w : World σ ι) (m : Move ι) (w' : World σ ι), World.Step host w m w' →
    host.unbonding w'.contract = host.unbonding w.contract ∧
      ∃ d, BondLedger.Step (host.unbonding w.contract) (w.ledger host) d (w'.ledger host)

/-- The storage of a fresh contract holds no bonds. -/
def Host.Fresh (S : σ) : Prop :=
  host.bonds S = (fun _ => none) ∧ host.nextIndex S = 0 ∧ host.activeCount S = 0

variable {host}

/-- **Refinement.** Over every run the world reads as a ledger of bonds, under the unbonding time of the
contract. -/
theorem Host.Refines.reaches (h : host.Refines) {S : σ} {balance : ℕ} {b : Block} {w : World σ ι}
    (hS : host.Fresh S) (hw : Reaches (World.Step host) (World.genesis S balance b) w) :
    host.unbonding w.contract = host.unbonding S ∧
      (w.ledger host).Sound ∧ BondLedger.Story (host.unbonding S) (w.ledger host) := by
  obtain ⟨hu, hl⟩ := hw.simulate (r := BondLedger.Step (host.unbonding S)) (World.ledger host)
    (I := fun w => host.unbonding w.contract = host.unbonding S) rfl fun t m u ht hst => by
      obtain ⟨hu, d, hd⟩ := h t m u hst
      rw [ht] at hd
      exact ⟨hu.trans ht, d, hd⟩
  refine ⟨hu, BondLedger.sound_of_reaches (t := b.timestamp) (v := balance) ?_⟩
  obtain ⟨hb, hn, ha⟩ := hS
  have hgen : (World.genesis S balance b : World σ ι).ledger host =
      BondLedger.empty b.timestamp balance := by
    simp [World.ledger, World.genesis, BondLedger.empty, deeds, hb, hn, ha]
  rwa [hgen] at hl

/-- Every state of a re-entrant run, and every state a failure falls back to, is reached by calls that all
returned. -/
lemma World.reaches_of_reentrant {w₀ : World σ ι} {tr : List (FrameLabel (Move ι))}
    {c : Frames (World σ ι)} (h : Run (World.Reentrant host) ⟨w₀, []⟩ tr c) {w : World σ ι}
    (hw : w = c.now ∨ w ∈ c.saved) : Reaches (World.Step host) w₀ w := by
  obtain ⟨hnow, hsaved⟩ := Frames.committed h
  rcases hw with rfl | hw
  · exact hnow
  · exact hsaved w hw

end World

/-! ### The staked set as a host -/

namespace Staked

/-- A member record as a bond. -/
def asBond (m : Member) : Option Bond :=
  if h : m.bond = 0 then none
  else some ⟨m.bond, m.index, if m.exitInitiatedAt = 0 then none else some m.exitInitiatedAt,
    Nat.pos_of_ne_zero h⟩

/-- The commitment a call is about. -/
def Call.commitment : Call → ℕ
  | .register c _ _ | .initiateExit c _ | .withdraw c _ _ _ | .slash c _ _ _ _ => c

def Call.deed : Call → Deed
  | .register .. => .deposit
  | .initiateExit .. => .exit
  | .withdraw .. => .withdraw
  | .slash .. => .slash

/-- What a successful call does to a bond: which registration it is about, and for how much. -/
def entry (S : StakedReputationSet) (b : Block) : Call → Entry ℕ
  | .register c _ v => ⟨.deposit, c, S.nextIndex, v, b.timestamp⟩
  | call =>
    ⟨call.deed, call.commitment, (S.members call.commitment).index, (S.members call.commitment).bond,
      b.timestamp⟩

/-- The set on the chain. -/
def host (H : ℕ → ℕ → ℕ) (z : ℕ) (X : Externals) : Host StakedReputationSet Call where
  exec := fun S b c => (exec H z X S b c).toOption.map Prod.fst
  value := fun
    | .register _ _ v => v
    | _ => 0
  payout := fun S c => if c.deed.pays then (S.members c.commitment).bond else 0
  hands := fun c => c.deed.pays
  entry := fun S b c => some (entry S b c)
  unbonding := StakedReputationSet.UNBONDING
  bonds := fun S c => asBond (S.members c)
  nextIndex := StakedReputationSet.nextIndex
  activeCount := StakedReputationSet.activeCount

section Refinement

variable {H : ℕ → ℕ → ℕ} {z : ℕ} {X : Externals}

lemma asBond_eq_none {m : Member} : asBond m = none ↔ m.bond = 0 := by
  unfold asBond
  split_ifs with h <;> simp [h]

/-- A bonded member record is a bond. -/
lemma asBond_eq_some {m : Member} (h : m.bond ≠ 0) :
    asBond m = some ⟨m.bond, m.index, if m.exitInitiatedAt = 0 then none else some m.exitInitiatedAt,
      Nat.pos_of_ne_zero h⟩ := dif_neg h

lemma asBond_update (S : StakedReputationSet) (c : ℕ) (m : Member) :
    (fun j => asBond (update S.members c m j)) = update (fun j => asBond (S.members j)) c (asBond m) := by
  funext j
  by_cases hj : j = c
  · subst hj; simp
  · simp [Function.update_of_ne hj]

lemma host_exec {S S' : StakedReputationSet} {b : Block} {c : Call}
    (h : (host H z X).exec S b c = some S') : ∃ evs, exec H z X S b c = .ok (S', evs) := by
  simp only [host] at h
  cases he : exec H z X S b c with
  | error e => simp [he, Except.toOption] at h
  | ok r =>
    obtain ⟨S₁, evs⟩ := r
    simp only [he, Except.toOption, Option.map_some, Option.some.injEq] at h
    exact ⟨evs, by rw [h]⟩

variable {w : World StakedReputationSet Call} {S' : StakedReputationSet} {evs : List Event}

lemma register_refines {c l v : ℕ} (h : register H z w.contract c l v = .ok (S', evs)) :
    S'.UNBONDING = w.contract.UNBONDING ∧
      BondLedger.Step w.contract.UNBONDING (w.ledger (host H z X)) (some (.deposit, c))
        (World.ledger (host H z X)
          ⟨S', w.balance + v - 0, w.block,
            w.log ++ [(.register c l v, some (entry w.contract w.block (.register c l v)))]⟩) := by
  obtain ⟨hbond, rfl, hfree, -, rfl, -⟩ := register_ok h
  have hnone : (w.ledger (host H z X)).bonds c = none := asBond_eq_none.mpr hfree
  refine ⟨rfl, ?_⟩
  have hstep := BondLedger.Step.deposit (u := w.contract.UNBONDING)
    (Nat.pos_of_ne_zero hbond) hnone
  convert hstep using 1
  simp only [World.ledger, host, asBond_update, deeds_snoc, Nat.sub_zero, entry]
  rw [asBond_eq_some (show (⟨w.contract.bondOf l, _, 0, _⟩ : Member).bond ≠ 0 from hbond)]
  rfl

lemma initiateExit_refines {c : ℕ} {π : List ℕ}
    (h : initiateExit H z X w.contract w.block c π = .ok (S', evs)) :
    S'.UNBONDING = w.contract.UNBONDING ∧
      BondLedger.Step w.contract.UNBONDING (w.ledger (host H z X)) (some (.exit, c))
        (World.ledger (host H z X)
          ⟨S', w.balance + 0 - 0, w.block,
            w.log ++ [(.initiateExit c π, some (entry w.contract w.block (.initiateExit c π)))]⟩) := by
  obtain ⟨hbond, hexit, -, -, rfl, -⟩ := initiateExit_ok h
  have hsome := asBond_eq_some hbond
  refine ⟨rfl, ?_⟩
  have hstep := BondLedger.Step.exit (L := w.ledger (host H z X))
    (u := w.contract.UNBONDING) hsome (if_pos hexit)
  have hstamp : w.block.timestamp % 2 ^ 64 = w.block.timestamp := Nat.mod_eq_of_lt w.block.lt
  convert hstep using 1
  simp only [World.ledger, host, asBond_update, deeds_snoc, Nat.sub_zero, Nat.add_zero, entry, hstamp]
  rw [asBond_eq_some (by exact hbond)]
  simp only [w.block.pos.ne', if_false, Call.deed, Call.commitment]

lemma withdraw_refines {c r : ℕ} {π : List ℕ} {paid : Bool}
    (h : withdraw X w.contract w.block c r π paid = .ok (S', evs))
    (hv : (w.contract.members c).bond ≤ w.balance) :
    S'.UNBONDING = w.contract.UNBONDING ∧
      BondLedger.Step w.contract.UNBONDING (w.ledger (host H z X)) (some (.withdraw, c))
        (World.ledger (host H z X)
          ⟨S', w.balance + 0 - (w.contract.members c).bond, w.block,
            w.log ++ [(.withdraw c r π paid,
              some (entry w.contract w.block (.withdraw c r π paid)))]⟩) := by
  obtain ⟨hbond, hexit, hdue, -, -, rfl, -⟩ := withdraw_ok h
  have hsome := asBond_eq_some hbond
  refine ⟨rfl, ?_⟩
  have hstep := BondLedger.Step.pay (L := w.ledger (host H z X)) (d := .withdraw) hsome
    (u := w.contract.UNBONDING) ⟨_, if_neg hexit, hdue⟩ hv
  convert hstep using 1
  simp only [World.ledger, host, asBond_update, deeds_snoc, Nat.add_zero, entry, hexit, if_false]
  rfl

lemma slash_refines {c s l r : ℕ} {paid : Bool}
    (h : slash H z X w.contract c s l r paid = .ok (S', evs))
    (hv : (w.contract.members c).bond ≤ w.balance) :
    S'.UNBONDING = w.contract.UNBONDING ∧
      BondLedger.Step w.contract.UNBONDING (w.ledger (host H z X)) (some (.slash, c))
        (World.ledger (host H z X)
          ⟨S', w.balance + 0 - (w.contract.members c).bond, w.block,
            w.log ++ [(.slash c s l r paid, some (entry w.contract w.block (.slash c s l r paid)))]⟩) := by
  obtain ⟨hbond, -, -, -, -, rfl, -⟩ := slash_ok h
  have hsome := asBond_eq_some hbond
  refine ⟨rfl, ?_⟩
  have hstep := BondLedger.Step.pay (L := w.ledger (host H z X)) (d := .slash) hsome
    (u := w.contract.UNBONDING) trivial hv
  convert hstep using 1
  simp only [World.ledger, host, asBond_update, deeds_snoc, Nat.add_zero, entry]
  by_cases hexit : (w.contract.members c).exitInitiatedAt = 0
  · simp only [hexit, if_true]
    rfl
  · simp only [hexit, if_false]
    rfl

/-- **The staked set is a bond ledger.** -/
theorem refines : (host H z X).Refines := by
  intro w m w' hst
  cases hst with
  | block hb => exact ⟨rfl, _, .tick hb⟩
  | gift => exact ⟨rfl, _, .gift⟩
  | @call c S' hok hv =>
    obtain ⟨evs, hok⟩ := host_exec hok
    cases c with
    | register c l v =>
      obtain ⟨hu, hst⟩ := register_refines hok
      exact ⟨hu, _, hst⟩
    | initiateExit c π =>
      obtain ⟨hu, hst⟩ := initiateExit_refines hok
      exact ⟨hu, _, hst⟩
    | withdraw c r π paid =>
      obtain ⟨hu, hst⟩ := withdraw_refines hok hv
      exact ⟨hu, _, hst⟩
    | slash c s l r paid =>
      obtain ⟨hu, hst⟩ := slash_refines hok hv
      exact ⟨hu, _, hst⟩

lemma fresh {S : StakedReputationSet} {bond unbonding minUnbonding : ℕ} {limits bonds : List ℕ}
    (h : constructor H z bond unbonding minUnbonding limits bonds = .ok S) : (host H z X).Fresh S := by
  obtain ⟨hm, hn, ha, -⟩ := constructor_ok h
  refine ⟨?_, hn, ha⟩
  simp only [host, hm]
  rfl

end Refinement

end Staked

/-! ### The gateway stake as a host -/

namespace Registry

/-- A stake record as a bond. -/
def asBond (s : Stake) : Option Bond :=
  if h : s.bond = 0 then none
  else some ⟨s.bond, s.index, if s.exitInitiatedAt = 0 then none else some s.exitInitiatedAt,
    Nat.pos_of_ne_zero h⟩

/-- The operator whose stake a call is about, and what it does to it; nothing for the owner's hand-over. -/
def Call.deed : Call → Option (Deed × ℕ)
  | .register sender _ => some (.deposit, sender)
  | .initiateExit sender => some (.exit, sender)
  | .withdraw sender _ _ => some (.withdraw, sender)
  | .slash _ operator _ _ => some (.slash, operator)
  | .transferOwnership _ _ => none

def Call.pays : Call → Prop
  | .withdraw .. | .slash .. => True
  | .register .. | .initiateExit .. | .transferOwnership .. => False

/-- What a successful call does to a bond: which stake it is about, and for how much. -/
def entry (S : GatewayRegistry) (b : Block) : Call → Option (Entry ℕ)
  | .register sender v => some ⟨.deposit, sender, S.nextIndex, v, b.timestamp⟩
  | call => call.deed.map fun d => ⟨d.1, d.2, (S.stakes d.2).index, (S.stakes d.2).bond, b.timestamp⟩

/-- The registry on the chain. -/
def host : Host GatewayRegistry Call where
  exec := fun S b c => (exec S b c).toOption.map Prod.fst
  value := fun
    | .register _ v => v
    | _ => 0
  payout := fun
    | S, .withdraw sender _ _ => (S.stakes sender).bond
    | S, .slash _ operator _ _ => (S.stakes operator).bond
    | _, _ => 0
  hands := Call.pays
  entry := entry
  unbonding := GatewayRegistry.UNBONDING
  bonds := fun S a => asBond (S.stakes a)
  nextIndex := GatewayRegistry.nextIndex
  activeCount := GatewayRegistry.activeCount

section Refinement

lemma asBond_eq_none {s : Stake} : asBond s = none ↔ s.bond = 0 := by
  unfold asBond
  split_ifs with h <;> simp [h]

/-- A stake record with a bond is a bond. -/
lemma asBond_eq_some {s : Stake} (h : s.bond ≠ 0) :
    asBond s = some ⟨s.bond, s.index, if s.exitInitiatedAt = 0 then none else some s.exitInitiatedAt,
      Nat.pos_of_ne_zero h⟩ := dif_neg h

lemma asBond_update (S : GatewayRegistry) (a : ℕ) (s : Stake) :
    (fun j => asBond (update S.stakes a s j)) = update (fun j => asBond (S.stakes j)) a (asBond s) := by
  funext j
  by_cases hj : j = a
  · subst hj; simp
  · simp [Function.update_of_ne hj]

lemma host_exec {S S' : GatewayRegistry} {b : Block} {c : Call} (h : host.exec S b c = some S') :
    ∃ evs, exec S b c = .ok (S', evs) := by
  simp only [host] at h
  cases he : exec S b c with
  | error e => simp [he, Except.toOption] at h
  | ok r =>
    obtain ⟨S₁, evs⟩ := r
    simp only [he, Except.toOption, Option.map_some, Option.some.injEq] at h
    exact ⟨evs, by rw [h]⟩

variable {w : World GatewayRegistry Call} {S' : GatewayRegistry} {evs : List Event}

/-- A withdrawal or a slash takes the stake of the operator out of the ledger. -/
lemma pay_refines {a : ℕ} {c : Call} {d : Deed} (hc : c.deed = some (d, a)) (hdep : d ≠ .deposit)
    (hbond : (w.contract.stakes a).bond ≠ 0) (hv : (w.contract.stakes a).bond ≤ w.balance)
    (hd : BondLedger.Payable w.contract.UNBONDING w.block.timestamp
      ⟨_, (w.contract.stakes a).index, if (w.contract.stakes a).exitInitiatedAt = 0 then none
        else some (w.contract.stakes a).exitInitiatedAt, Nat.pos_of_ne_zero hbond⟩ d)
    {n : ℕ} (hn : n = if (w.contract.stakes a).exitInitiatedAt = 0 then w.contract.activeCount - 1
      else w.contract.activeCount) :
    BondLedger.Step w.contract.UNBONDING (w.ledger host) (some (d, a))
      (World.ledger host
        ⟨{ w.contract with stakes := update w.contract.stakes a Stake.none, activeCount := n },
          w.balance + 0 - (w.contract.stakes a).bond, w.block,
          w.log ++ [(c, entry w.contract w.block c)]⟩) := by
  have hentry : entry w.contract w.block c = some ⟨d, a, (w.contract.stakes a).index,
      (w.contract.stakes a).bond, w.block.timestamp⟩ := by
    cases c with
    | register sender v => exact absurd (by simpa [Call.deed] using (congrArg (Option.map Prod.fst) hc).symm) hdep
    | initiateExit sender => simp [entry, hc]
    | withdraw sender r paid => simp [entry, hc]
    | slash sender o r paid => simp [entry, hc]
    | transferOwnership sender n => cases hc
  have hstep := BondLedger.Step.pay (L := w.ledger host) (u := w.contract.UNBONDING)
    (asBond_eq_some hbond) hd hv
  convert hstep using 1
  simp only [World.ledger, host, asBond_update, hentry, deeds_snoc, Nat.add_zero, hn]
  by_cases hexit : (w.contract.stakes a).exitInitiatedAt = 0
  · simp only [hexit, if_true]
    rfl
  · simp only [hexit, if_false]
    rfl

lemma register_refines {a v : ℕ} (h : register w.contract a v = .ok (S', evs)) :
    S'.UNBONDING = w.contract.UNBONDING ∧
      BondLedger.Step w.contract.UNBONDING (w.ledger host) (some (.deposit, a))
        (World.ledger host
          ⟨S', w.balance + v - 0, w.block,
            w.log ++ [(.register a v, entry w.contract w.block (.register a v))]⟩) := by
  obtain ⟨rfl, hfree, rfl⟩ := register_ok h
  have hnone : (w.ledger host).bonds a = none := asBond_eq_none.mpr hfree
  refine ⟨rfl, ?_⟩
  have hstep := BondLedger.Step.deposit (u := w.contract.UNBONDING)
    (Nat.pos_of_ne_zero w.contract.BOND_ne) hnone
  convert hstep using 1
  simp only [World.ledger, host, asBond_update, entry, deeds_snoc, Nat.sub_zero]
  rw [asBond_eq_some (show (⟨w.contract.BOND, _, 0⟩ : Stake).bond ≠ 0 from w.contract.BOND_ne)]
  rfl

lemma initiateExit_refines {a : ℕ} (h : initiateExit w.contract w.block a = .ok (S', evs)) :
    S'.UNBONDING = w.contract.UNBONDING ∧
      BondLedger.Step w.contract.UNBONDING (w.ledger host) (some (.exit, a))
        (World.ledger host
          ⟨S', w.balance + 0 - 0, w.block,
            w.log ++ [(.initiateExit a, entry w.contract w.block (.initiateExit a))]⟩) := by
  obtain ⟨hbond, hexit, -, rfl⟩ := initiateExit_ok h
  refine ⟨rfl, ?_⟩
  have hstep := BondLedger.Step.exit (L := w.ledger host) (u := w.contract.UNBONDING)
    (asBond_eq_some hbond) (if_pos hexit)
  have hstamp : w.block.timestamp % 2 ^ 64 = w.block.timestamp := Nat.mod_eq_of_lt w.block.lt
  convert hstep using 1
  simp only [World.ledger, host, asBond_update, entry, Call.deed, Option.map_some, deeds_snoc,
    Nat.sub_zero, Nat.add_zero, hstamp]
  rw [asBond_eq_some (by exact hbond)]
  simp only [w.block.pos.ne', if_false]

/-- **The gateway stake is a bond ledger.** -/
theorem refines : host.Refines := by
  intro w m w' hst
  cases hst with
  | block hb => exact ⟨rfl, _, .tick hb⟩
  | gift => exact ⟨rfl, _, .gift⟩
  | @call c S' hok hv =>
    obtain ⟨evs, hok⟩ := host_exec hok
    cases c with
    | register a v =>
      obtain ⟨hu, hst⟩ := register_refines hok
      exact ⟨hu, _, hst⟩
    | initiateExit a =>
      obtain ⟨hu, hst⟩ := initiateExit_refines hok
      exact ⟨hu, _, hst⟩
    | withdraw a r paid =>
      obtain ⟨hbond, hexit, hdue, rfl⟩ := withdraw_ok hok
      refine ⟨rfl, _, pay_refines (d := .withdraw) rfl (by decide) hbond hv ⟨_, if_neg hexit, hdue⟩ ?_⟩
      rw [if_neg hexit]
    | slash a o r paid =>
      obtain ⟨-, hbond, -, rfl⟩ := slash_ok hok
      exact ⟨rfl, _, pay_refines (d := .slash) rfl (by decide) hbond hv trivial rfl⟩
    | transferOwnership a n =>
      obtain ⟨-, rfl⟩ := transferOwnership_ok hok
      have hsame : World.ledger host ⟨{ w.contract with owner := n }, w.balance + 0 - 0, w.block,
          w.log ++ [(.transferOwnership a n, none)]⟩ = w.ledger host := by
        simp only [World.ledger, host, deeds_snoc_none, Nat.sub_zero, Nat.add_zero]
      refine ⟨rfl, none, ?_⟩
      show BondLedger.Step _ _ _ (World.ledger host ⟨{ w.contract with owner := n }, w.balance + 0 - 0,
        w.block, w.log ++ [(.transferOwnership a n, none)]⟩)
      rw [hsame]
      -- nothing happens to a bond, as when no time passes
      exact .tick le_rfl

lemma fresh {S : GatewayRegistry} {sender bond unbonding minUnbonding owner : ℕ}
    (h : constructor sender bond unbonding minUnbonding owner = .ok S) : host.Fresh S := by
  obtain ⟨hs, hn, ha⟩ := constructor_ok h
  refine ⟨?_, hn, ha⟩
  simp only [host, hs]
  rfl

end Refinement

end Registry

end ShadeTree.Contracts
