import ShadeTree.Contracts.PaidAccessSet
import ShadeTree.Grove.Activity
import ShadeTree.Lib.Decimal
import ShadeTree.Lib.Run

/-!
# Published counters and the contracts

The events of the two contracts, in the order of the chain and each perhaps delivered again, are reduced to the counts
that are published.  Up to the bound that the reducer puts on its counters the counts are those of the contracts
(`activityCounts_eq`); a contract with more slashes is refused (`slashes_refused`).
-/

namespace ShadeTree.Grove

open ShadeTree.Lib ShadeTree.Contracts
open Function (update)

/-! ### The chain -/

/-- What the reducer reads of a log. -/
structure Emitted where
  kind : Kind
  commitment : ℕ
  deriving DecidableEq, Repr

/-- The `KIND` of an event of the staked set. -/
def ofStaked : Staked.Event → Emitted
  | .MemberRegistered c _ _ => ⟨.stakedRegistered, c⟩
  | .MemberExiting c _ _ => ⟨.stakedExiting, c⟩
  | .MemberWithdrawn c _ => ⟨.stakedWithdrawn, c⟩
  | .MemberSlashed c _ _ => ⟨.stakedSlashed, c⟩

/-- The `KIND` of an event of the paid set; the others are not asked for. -/
def ofPaid : Paid.Event → Option Emitted
  | .Inserted c _ _ _ => some ⟨.paidInserted, c⟩
  | .Slashed c _ _ _ => some ⟨.paidSlashed, c⟩
  | _ => none

/-- Both contracts with the events they emitted, in the order of the chain. -/
structure Chain where
  staked : StakedReputationSet
  paid : PaidAccessSet
  log : List Emitted

inductive Call where
  | staked (block : Contracts.Block) (call : Staked.Call)
  | paid (sender : ℕ) (call : Paid.Call)

/-- A slash on the staked set. -/
def Call.slashesStaked : Call → Bool
  | .staked _ (.slash ..) => true
  | _ => false

/-- A slash on the paid set. -/
def Call.slashesPaid : Call → Bool
  | .paid _ (.slash ..) => true
  | _ => false

section Steps

variable (H : ℕ → ℕ → ℕ) (z : ℕ) (X : Externals) (commitmentOf : ℕ → ℕ → Option ℕ)

/-- One successful call on one of the contracts. -/
def Chain.Step (s : Chain) : Call → Chain → Prop
  | .staked block call, s' => ∃ S' evs, Staked.exec H z X s.staked block call = .ok (S', evs) ∧
      s' = ⟨S', s.paid, s.log ++ evs.map ofStaked⟩
  | .paid sender call, s' => ∃ P' evs, Paid.exec H z commitmentOf s.paid sender call = .ok (P', evs) ∧
      s' = ⟨s.staked, P', s.log ++ evs.filterMap ofPaid⟩

end Steps

/-! ### Delivery -/

/-- Where a log stands on the chain. -/
structure Place where
  transactionHash : String
  logIndex : ℕ

/-- The places of the logs, by their number: hashes, and no two logs at one place. -/
structure Places (place : ℕ → Place) : Prop where
  hash : ∀ n, (lowerHash (place n).transactionHash).isSome
  distinct : ∀ n m, lowerHash (place n).transactionHash = lowerHash (place m).transactionHash →
    (place n).logIndex = (place m).logIndex → n = m

/-- `fed` is `log` in its order, with any earlier entry delivered again at any time. -/
inductive Feed {α : Type} : List α → List α → Prop where
  | nil : Feed [] []
  | next {log fed : List α} {e : α} : Feed log fed → Feed (log ++ [e]) (fed ++ [e])
  | again {log fed : List α} {e : α} : Feed log fed → e ∈ log → Feed log (fed ++ [e])

/-- Whether the staked set emits the kind. -/
def Kind.isStaked : Kind → Bool
  | .stakedRegistered | .stakedExiting | .stakedWithdrawn | .stakedSlashed => true
  | _ => false

/-- The event that `indexedEvents` of the observer makes of a numbered log. -/
def deliver (stakedAddress paidAddress : String) (place : ℕ → Place) (entry : Emitted × ℕ) : ActivityEvent where
  kind := entry.1.kind
  commitment := toString entry.1.commitment
  address := if entry.1.kind.isStaked then stakedAddress else paidAddress
  transactionHash := (place entry.2).transactionHash
  logIndex := some (place entry.2).logIndex
  removed := false

/-- Batch after batch through `reduceActivityEvents`. -/
def reduceBatches (isAddress : String → Bool) (chainId : ℤ) :
    Option Activity → List (List ActivityEvent) → Except Fail (Option Activity)
  | previous, [] => .ok previous
  | previous, events :: rest =>
    match reduceActivityEvents isAddress chainId previous events with
    | .ok next => reduceBatches isAddress chainId (some next) rest
    | .error why => .error why

/-! ### Counting -/

section Count

variable {Status : Type} [DecidableEq Status] {t : Table ℕ Status} {c : ℕ} {s status : Status}

lemma countOf_eq_total : countOf s t = Table.total (fun v => if v = s then 1 else 0) t := by
  have hlist : ∀ l : List (Sigma fun _ : ℕ => Status),
      (l.filter fun e => e.2 = s).length = (l.map fun e => if e.2 = s then 1 else 0).sum := by
    intro l
    induction l with
    | nil => rfl
    | cons e l ih =>
      by_cases he : e.2 = s
      · simp [he, ih, Nat.add_comm]
      · simp [he, ih]
  exact hlist t.entries

/-- A status written over another one. -/
lemma countOf_insert (t : Table ℕ Status) (c : ℕ) (s status : Status) : countOf s (t.insert c status) + (if t.lookup c = some s then 1 else 0) =
    countOf s t + (if status = s then 1 else 0) := by
  rw [countOf_eq_total, countOf_eq_total]
  cases hc : t.lookup c with
  | none =>
    have hnot : c ∉ t := by
      intro hmem
      simp [← AList.lookup_isSome, hc] at hmem
    rw [Table.total_insert_of_notMem hnot]
    simp [Nat.add_comm]
  | some old =>
    have hover := Table.total_insert_of_lookup (f := fun v => if v = s then 1 else 0) (v := status) hc
    simp only [Option.some.injEq]
    omega

end Count

/-! ### The statuses of the staked set -/

namespace Activity

/-- An event of a known kind. -/
def apply (a : Activity) (e : Emitted) : Activity := (a.transition e.commitment e.kind).getD a

def applyAll (a : Activity) (es : List Emitted) : Activity := es.foldl apply a

end Activity

section Staked

variable {H : ℕ → ℕ → ℕ} {z : ℕ} {X : Externals} {S S' : StakedReputationSet} {b : Contracts.Block}
  {t : Table ℕ StakedStatus} {a : Activity} {c : ℕ}

/-- The statuses tell who is active and who is exiting, and the active ones are as many as the contract counts. -/
structure StakedAgrees (S : StakedReputationSet) (t : Table ℕ StakedStatus) : Prop where
  active : ∀ c, t.lookup c = some .active ↔ (S.members c).bond ≠ 0 ∧ (S.members c).exitInitiatedAt = 0
  exiting : ∀ c, t.lookup c = some .exiting ↔ (S.members c).bond ≠ 0 ∧ (S.members c).exitInitiatedAt ≠ 0
  count : countOf .active t = S.activeCount

/-- One member gets a record and the status that goes with it. -/
lemma StakedAgrees.insert (h : StakedAgrees S t) {m : Staked.Member} {status : StakedStatus}
    (hmembers : S'.members = update S.members c m) (hactive : status = .active ↔ m.bond ≠ 0 ∧ m.exitInitiatedAt = 0)
    (hexiting : status = .exiting ↔ m.bond ≠ 0 ∧ m.exitInitiatedAt ≠ 0)
    (hcount : S'.activeCount + (if t.lookup c = some .active then 1 else 0) =
      S.activeCount + (if status = .active then 1 else 0)) : StakedAgrees S' (t.insert c status) := by
  refine ⟨fun j => ?_, fun j => ?_, ?_⟩
  · by_cases hj : j = c
    · subst hj
      rw [AList.lookup_insert, hmembers, Function.update_self, Option.some.injEq, hactive]
    · rw [AList.lookup_insert_ne hj, hmembers, Function.update_of_ne hj, h.active]
  · by_cases hj : j = c
    · subst hj
      rw [AList.lookup_insert, hmembers, Function.update_self, Option.some.injEq, hexiting]
    · rw [AList.lookup_insert_ne hj, hmembers, Function.update_of_ne hj, h.exiting]
  · have hinsert := countOf_insert t c .active status
    rw [h.count] at hinsert
    omega

/-- What a successful call on the staked set does to the statuses, and to nothing else but its slashes. -/
lemma StakedAgrees.exec (h : StakedAgrees S a.staked) {call : Staked.Call} {evs : List Staked.Event}
    (hok : Staked.exec H z X S b call = .ok (S', evs)) :
    StakedAgrees S' (a.applyAll (evs.map ofStaked)).staked ∧
      a.applyAll (evs.map ofStaked) = { a with
        staked := (a.applyAll (evs.map ofStaked)).staked
        stakedSlashes := a.stakedSlashes + if (Call.staked b call).slashesStaked then 1 else 0 } := by
  cases call with
  | register c l v =>
    obtain ⟨hbond, -, hfree, -, rfl, rfl⟩ := Staked.register_ok hok
    have hwas : a.staked.lookup c ≠ some .active := fun hact => ((h.active c).mp hact).1 hfree
    exact ⟨h.insert (m := ⟨S.bondOf l, S.nextIndex, 0, l % 2 ^ 32⟩) rfl (by simp [hbond]) (by simp)
      (by simp [ofStaked, hwas]), rfl⟩
  | initiateExit c π =>
    obtain ⟨hbond, hexit, -, hpos, rfl, rfl⟩ := Staked.initiateExit_ok hok
    have hwas : a.staked.lookup c = some .active := (h.active c).mpr ⟨hbond, hexit⟩
    have htime : b.timestamp % 2 ^ 64 ≠ 0 := by
      rw [Nat.mod_eq_of_lt b.lt]
      exact b.pos.ne'
    generalize b.timestamp % 2 ^ 64 = time at htime ⊢
    have happly : a.applyAll ([Staked.Event.MemberExiting c time
        ((b.timestamp + S.UNBONDING) % 2 ^ 64)].map ofStaked) =
          { a with staked := a.staked.insert c .exiting } := by
      simp [Activity.applyAll, Activity.apply, Activity.transition, ofStaked, hwas]
    rw [happly]
    refine ⟨h.insert (m := { S.members c with exitInitiatedAt := time }) rfl (by simp [htime])
      (by simp [hbond, htime]) ?_, rfl⟩
    simp only [hwas, if_true, reduceCtorEq, if_false]
    omega
  | withdraw c r π paid =>
    obtain ⟨hbond, hexit, -, -, -, rfl, rfl⟩ := Staked.withdraw_ok hok
    have hwas : a.staked.lookup c = some .exiting := (h.exiting c).mpr ⟨hbond, hexit⟩
    have happly : a.applyAll ([Staked.Event.MemberWithdrawn c r].map ofStaked) =
        { a with staked := a.staked.insert c .withdrawn } := by
      simp [Activity.applyAll, Activity.apply, Activity.transition, ofStaked, hwas]
    rw [happly]
    exact ⟨h.insert (m := Staked.Member.none) rfl (by simp [Staked.Member.none]) (by simp [Staked.Member.none])
      (by simp [hwas]), rfl⟩
  | slash c s l r paid =>
    obtain ⟨hbond, -, -, -, hpos, rfl, rfl⟩ := Staked.slash_ok hok
    refine ⟨h.insert (m := Staked.Member.none) rfl (by simp [Staked.Member.none]) (by simp [Staked.Member.none]) ?_,
      rfl⟩
    by_cases hexit : (S.members c).exitInitiatedAt = 0
    · have hwas : a.staked.lookup c = some .active := (h.active c).mpr ⟨hbond, hexit⟩
      have hcount := hpos hexit
      simp only [ofStaked, hwas, hexit, if_true, reduceCtorEq, if_false]
      omega
    · have hwas : a.staked.lookup c ≠ some .active := fun hact => hexit ((h.active c).mp hact).2
      simp [ofStaked, hwas, hexit]

end Staked

/-! ### The statuses of the paid set -/

section Paid

variable {H : ℕ → ℕ → ℕ} {z : ℕ} {commitmentOf : ℕ → ℕ → Option ℕ} {P P' : PaidAccessSet}
  {t : Table ℕ PaidStatus} {a : Activity} {c : ℕ} {evs : List Paid.Event}

/-- The statuses tell who is live, and the live ones are as many as the contract counts. -/
structure PaidAgrees (P : PaidAccessSet) (t : Table ℕ PaidStatus) : Prop where
  live : ∀ c, t.lookup c = some .live ↔ (P.leaves c).limit ≠ 0
  count : countOf .live t = P.liveCount
  tiers : Paid.TierTable.Valid P.allowed

lemma PaidAgrees.insert (h : PaidAgrees P t) {m : Paid.Leaf} {status : PaidStatus}
    (hleaves : P'.leaves = update P.leaves c m) (hlive : status = .live ↔ m.limit ≠ 0)
    (hallowed : P'.allowed = P.allowed)
    (hcount : P'.liveCount + (if t.lookup c = some .live then 1 else 0) =
      P.liveCount + (if status = .live then 1 else 0)) : PaidAgrees P' (t.insert c status) := by
  refine ⟨fun j => ?_, ?_, hallowed ▸ h.tiers⟩
  · by_cases hj : j = c
    · subst hj
      rw [AList.lookup_insert, hleaves, Function.update_self, Option.some.injEq, hlive]
    · rw [AList.lookup_insert_ne hj, hleaves, Function.update_of_ne hj, h.live]
  · have hinsert := countOf_insert t c .live status
    rw [h.count] at hinsert
    omega

lemma PaidAgrees.insertLeaf (h : PaidAgrees P t) {l : ℕ} {ev : Paid.Event}
    (hok : Paid.insertLeaf H z P c l = .ok (P', ev)) :
    PaidAgrees P' (t.insert c .live) ∧ ofPaid ev = some ⟨.paidInserted, c⟩ := by
  obtain ⟨hallowed, hfree, -, rfl, rfl⟩ := Paid.insertLeaf_ok hok
  obtain ⟨hpos, hmax⟩ := h.tiers l hallowed
  have hwas : t.lookup c ≠ some .live := fun hlive => (h.live c).mp hlive hfree
  have hlimit : l % 2 ^ 32 ≠ 0 := by
    unfold MAX_LIMIT at hmax
    omega
  exact ⟨h.insert (m := ⟨P.nextIndex, l % 2 ^ 32⟩) rfl (iff_of_true rfl hlimit) rfl (by simp [hwas]), rfl⟩

lemma PaidAgrees.insertAll {batch : List (ℕ × ℕ)} (h : PaidAgrees P a.paid)
    (hok : Paid.insertAll H z P batch = .ok (P', evs)) :
    PaidAgrees P' (a.applyAll (evs.filterMap ofPaid)).paid ∧
      a.applyAll (evs.filterMap ofPaid) = { a with paid := (a.applyAll (evs.filterMap ofPaid)).paid } := by
  induction batch generalizing P a evs with
  | nil =>
    obtain ⟨rfl, rfl⟩ : P = P' ∧ [] = evs := by simpa [Paid.insertAll] using hok
    exact ⟨h, rfl⟩
  | cons cl rest ih =>
    obtain ⟨c, l⟩ := cl
    unfold Paid.insertAll at hok
    cases hleaf : Paid.insertLeaf H z P c l with
    | error e => simp [hleaf] at hok
    | ok r =>
      obtain ⟨P₁, ev⟩ := r
      simp only [hleaf] at hok
      cases hrest : Paid.insertAll H z P₁ rest with
      | error e => simp [hrest] at hok
      | ok r =>
        obtain ⟨P₂, evs₂⟩ := r
        simp only [hrest, Except.ok.injEq, Prod.mk.injEq] at hok
        obtain ⟨rfl, rfl⟩ := hok
        obtain ⟨hone, hev⟩ := h.insertLeaf hleaf
        obtain ⟨hall, heq⟩ := ih (a := { a with paid := a.paid.insert c .live }) hone hrest
        rw [List.filterMap_cons_some hev]
        exact ⟨hall, heq⟩

/-- What a successful call on the paid set does to the statuses, and to nothing else but its slashes. -/
lemma PaidAgrees.exec (h : PaidAgrees P a.paid) {sender : ℕ} {call : Paid.Call}
    (hok : Paid.exec H z commitmentOf P sender call = .ok (P', evs)) :
    PaidAgrees P' (a.applyAll (evs.filterMap ofPaid)).paid ∧
      a.applyAll (evs.filterMap ofPaid) = { a with
        paid := (a.applyAll (evs.filterMap ofPaid)).paid
        paidSlashes := a.paidSlashes + if (Call.paid sender call).slashesPaid then 1 else 0 } := by
  cases call with
  | insert c l =>
    simp only [Paid.exec, Paid.insert_eq_insertAll] at hok
    split_ifs at hok
    exact h.insertAll hok
  | insertBatch cs ls =>
    simp only [Paid.exec, Paid.insertBatch] at hok
    split_ifs at hok
    exact h.insertAll hok
  | slash c s l =>
    obtain ⟨hlimit, -, -, hpos, rfl, rfl⟩ := Paid.slash_ok hok
    have hwas : a.paid.lookup c = some .live := (h.live c).mpr hlimit
    refine ⟨h.insert (m := Paid.Leaf.none) rfl (by simp [Paid.Leaf.none]) rfl ?_, rfl⟩
    simp only [hwas, if_true, reduceCtorEq, if_false]
    omega
  | setOperator nominee =>
    simp only [Paid.exec, Paid.setOperator] at hok
    split_ifs at hok
    obtain ⟨rfl, rfl⟩ := Prod.mk.inj (Except.ok.inj hok)
    exact ⟨⟨h.live, h.count, h.tiers⟩, rfl⟩
  | acceptOperator =>
    simp only [Paid.exec, Paid.acceptOperator] at hok
    split_ifs at hok
    obtain ⟨rfl, rfl⟩ := Prod.mk.inj (Except.ok.inj hok)
    exact ⟨⟨h.live, h.count, h.tiers⟩, rfl⟩

end Paid

/-! ### Runs of both contracts -/

section Runs

variable {H : ℕ → ℕ → ℕ} {z : ℕ} {X : Externals} {commitmentOf : ℕ → ℕ → Option ℕ} {s s' : Chain} {tr : List Call}

/-- The activity of the log, without numbers and checks. -/
def Chain.activity (s : Chain) : Activity := Activity.start.applyAll s.log

/-- The statuses and the slashes of the log are those of the contracts and of the calls. -/
structure Agrees (tr : List Call) (s : Chain) : Prop where
  staked : StakedAgrees s.staked s.activity.staked
  paid : PaidAgrees s.paid s.activity.paid
  stakedSlashes : s.activity.stakedSlashes = tr.countP Call.slashesStaked
  paidSlashes : s.activity.paidSlashes = tr.countP Call.slashesPaid
  kinds : ∀ e ∈ s.log, e.kind ≠ .unknown

lemma Activity.applyAll_append (a : Activity) (es es' : List Emitted) :
    a.applyAll (es ++ es') = (a.applyAll es).applyAll es' := List.foldl_append

lemma ofStaked_known (ev : Staked.Event) : (ofStaked ev).kind ≠ .unknown := by
  cases ev <;> simp [ofStaked]

lemma ofPaid_known {ev : Paid.Event} {e : Emitted} (h : ofPaid ev = some e) : e.kind ≠ .unknown := by
  cases ev <;> simp only [ofPaid, reduceCtorEq, Option.some.injEq] at h
  all_goals
    subst h
    simp

/-- One more call. -/
lemma Agrees.step (h : Agrees tr s) {call : Call} (hstep : s.Step H z X commitmentOf call s') :
    Agrees (tr ++ [call]) s' := by
  cases call with
  | staked block call =>
    obtain ⟨S', evs, hok, rfl⟩ := hstep
    obtain ⟨hagrees, heq⟩ := h.staked.exec hok
    have hact : Chain.activity ⟨S', s.paid, s.log ++ evs.map ofStaked⟩ =
        s.activity.applyAll (evs.map ofStaked) := Activity.applyAll_append _ _ _
    refine ⟨?_, ?_, ?_, ?_, ?_⟩
    · rwa [hact]
    · rw [hact, heq]
      exact h.paid
    · rw [hact, heq, List.countP_append, ← h.stakedSlashes]
      simp [List.countP_cons]
    · rw [hact, heq, List.countP_append, ← h.paidSlashes]
      simp [Call.slashesPaid]
    · intro e he
      rcases List.mem_append.mp he with he | he
      · exact h.kinds e he
      · obtain ⟨ev, -, rfl⟩ := List.mem_map.mp he
        exact ofStaked_known ev
  | paid sender call =>
    obtain ⟨P', evs, hok, rfl⟩ := hstep
    obtain ⟨hagrees, heq⟩ := h.paid.exec hok
    have hact : Chain.activity ⟨s.staked, P', s.log ++ evs.filterMap ofPaid⟩ =
        s.activity.applyAll (evs.filterMap ofPaid) := Activity.applyAll_append _ _ _
    refine ⟨?_, ?_, ?_, ?_, ?_⟩
    · rw [hact, heq]
      exact h.staked
    · rwa [hact]
    · rw [hact, heq, List.countP_append, ← h.stakedSlashes]
      simp [Call.slashesStaked]
    · rw [hact, heq, List.countP_append, ← h.paidSlashes]
      simp [List.countP_cons]
    · intro e he
      rcases List.mem_append.mp he with he | he
      · exact h.kinds e he
      · obtain ⟨ev, -, hev⟩ := List.mem_filterMap.mp he
        exact ofPaid_known hev

variable {S₀ : StakedReputationSet} {P₀ : PaidAccessSet} {bond unbonding minUnbonding sender operator hasher : ℕ}
  {extraLimits extraBonds limits : List ℕ}

lemma Agrees.start (hS : Staked.constructor H z bond unbonding minUnbonding extraLimits extraBonds = .ok S₀)
    (hP : Paid.constructor H z sender operator hasher limits = .ok P₀) : Agrees [] ⟨S₀, P₀, []⟩ := by
  obtain ⟨hmembers, -, hactive, -⟩ := Staked.constructor_ok hS
  obtain ⟨htiers, hleaves, -, hlive, -⟩ := Paid.constructor_ok hP
  refine ⟨⟨fun c => ?_, fun c => ?_, ?_⟩, ⟨fun c => ?_, ?_, htiers⟩, rfl, rfl, by simp⟩
  · simp [Chain.activity, Activity.applyAll, Activity.start, hmembers, Staked.Member.none]
  · simp [Chain.activity, Activity.applyAll, Activity.start, hmembers, Staked.Member.none]
  · simp only [hactive]
    rfl
  · simp [Chain.activity, Activity.applyAll, Activity.start, hleaves, Paid.Leaf.none]
  · simp only [hlive]
    rfl

/-- Every run of calls on both contracts. -/
lemma agrees_of_run (hS : Staked.constructor H z bond unbonding minUnbonding extraLimits extraBonds = .ok S₀)
    (hP : Paid.constructor H z sender operator hasher limits = .ok P₀)
    (hrun : Run (Chain.Step H z X commitmentOf) ⟨S₀, P₀, []⟩ tr s) : Agrees tr s :=
  hrun.invariant (I := Agrees) (Agrees.start hS hP) fun _ _ _ _ _ hagrees hstep => hagrees.step hstep

end Runs

/-! ### Delivery in any batches -/

section Delivery

variable {isAddress : String → Bool} {chainId : ℤ} {stakedAddress paidAddress : String} {place : ℕ → Place}
  {log fed : List (Emitted × ℕ)} {entry : Emitted × ℕ} {a : Activity} {e : Emitted}

/-- The key of a delivered event. -/
def keyOf (chainId : ℤ) (stakedAddress paidAddress : String) (place : ℕ → Place) (entry : Emitted × ℕ) : EventKey :=
  ⟨chainId, (if entry.1.kind.isStaked then stakedAddress else paidAddress).toLower,
    (place entry.2).transactionHash.toLower, (place entry.2).logIndex⟩

lemma lowerHash_of_isSome {value : String} (h : (lowerHash value).isSome) : lowerHash value = some value.toLower := by
  obtain ⟨t, ht⟩ := Option.isSome_iff_exists.mp h
  unfold lowerHash at ht ⊢
  split at ht
  · split at ht
    · next hex => rw [if_pos hex]
    · cases ht
  · cases ht

lemma eventKey_deliver (hplaces : Places place) (hstaked : isAddress stakedAddress) (hpaid : isAddress paidAddress) :
    eventKey isAddress chainId (deliver stakedAddress paidAddress place entry) =
      .ok (keyOf chainId stakedAddress paidAddress place entry) := by
  have haddress : isAddress (if entry.1.kind.isStaked then stakedAddress else paidAddress) = true := by
    split
    · exact hstaked
    · exact hpaid
  simp [eventKey, deliver, keyOf, lowerHash_of_isSome (hplaces.hash entry.2), haddress]

lemma keyOf_injective (hplaces : Places place) {other : Emitted × ℕ}
    (h : keyOf chainId stakedAddress paidAddress place entry = keyOf chainId stakedAddress paidAddress place other) :
    entry.2 = other.2 := by
  obtain ⟨-, -, hhash, hindex⟩ := EventKey.mk.inj h
  refine hplaces.distinct _ _ ?_ (by exact_mod_cast hindex)
  rw [lowerHash_of_isSome (hplaces.hash _), lowerHash_of_isSome (hplaces.hash _), hhash]

/-- The transitions do not look at the keys. -/
lemma Activity.transition_seen (a : Activity) (keys : List EventKey) (c : ℕ) (kind : Kind) :
    ({ a with seen := keys } : Activity).transition c kind =
      (a.transition c kind).map fun b => { b with seen := keys } := by
  cases kind <;> simp only [Activity.transition, Option.map_some, Option.map_none]
  all_goals split <;> rfl

lemma Activity.transition_apply (h : e.kind ≠ .unknown) : a.transition e.commitment e.kind = some (a.apply e) := by
  unfold Activity.apply
  cases hkind : e.kind
  case unknown => exact absurd hkind h
  all_goals rfl

/-- Slashes only become more. -/
lemma Activity.slashes_apply : a.stakedSlashes ≤ (a.apply e).stakedSlashes ∧ a.paidSlashes ≤ (a.apply e).paidSlashes := by
  unfold Activity.apply Activity.transition
  cases e.kind <;> simp only [Option.getD_some, Option.getD_none]
  case stakedExiting => split <;> exact ⟨le_rfl, le_rfl⟩
  case stakedWithdrawn => split <;> exact ⟨le_rfl, le_rfl⟩
  all_goals exact ⟨by omega, by omega⟩

/-- One more event, with the counts it leads to. -/
lemma reduceEvent_next (hplaces : Places place) (hstaked : isAddress stakedAddress) (hpaid : isAddress paidAddress)
    (hnew : entry.2 ∉ log.map Prod.snd) (hknown : entry.1.kind ≠ .unknown) (hword : entry.1.commitment < 2 ^ 256) :
    reduceEvent isAddress chainId { a with seen := log.map (keyOf chainId stakedAddress paidAddress place) }
        (deliver stakedAddress paidAddress place entry) =
      if safeCount (a.apply entry.1).stakedSlashes ∧ safeCount (a.apply entry.1).paidSlashes then
        .ok { a.apply entry.1 with seen := (log ++ [entry]).map (keyOf chainId stakedAddress paidAddress place) }
      else .error .eventCount := by
  have hfresh : keyOf chainId stakedAddress paidAddress place entry ∉
      log.map (keyOf chainId stakedAddress paidAddress place) := by
    intro hmem
    obtain ⟨other, hother, hkey⟩ := List.mem_map.mp hmem
    exact hnew (List.mem_map.mpr ⟨other, hother, keyOf_injective hplaces hkey⟩)
  unfold reduceEvent
  rw [if_neg (by simp [deliver]), eventKey_deliver hplaces hstaked hpaid]
  simp only [if_neg hfresh]
  have hdecimal : decimalUint256 (deliver stakedAddress paidAddress place entry).commitment =
      some entry.1.commitment := decimalUint256_toString hword
  have hkind : (deliver stakedAddress paidAddress place entry).kind = entry.1.kind := rfl
  have hnext := Activity.transition_seen a (log.map (keyOf chainId stakedAddress paidAddress place))
    entry.1.commitment entry.1.kind
  rw [Activity.transition_apply (a := a) hknown] at hnext
  simp only [hdecimal, hkind, hnext, Option.map_some, List.map_append, List.map_cons, List.map_nil]

/-- An event again. -/
lemma reduceEvent_again (hplaces : Places place) (hstaked : isAddress stakedAddress) (hpaid : isAddress paidAddress)
    (hold : entry ∈ log) :
    reduceEvent isAddress chainId { a with seen := log.map (keyOf chainId stakedAddress paidAddress place) }
        (deliver stakedAddress paidAddress place entry) =
      .ok { a with seen := log.map (keyOf chainId stakedAddress paidAddress place) } := by
  unfold reduceEvent
  rw [if_neg (by simp [deliver]), eventKey_deliver hplaces hstaked hpaid]
  simp only [if_pos (List.mem_map_of_mem hold)]

/-- The checked fold is the plain one, whatever is delivered again. -/
lemma Feed.reduce (chainId : ℤ) (h : Feed log fed) (hplaces : Places place) (hstaked : isAddress stakedAddress)
    (hpaid : isAddress paidAddress) (hnodup : (log.map Prod.snd).Nodup)
    (hknown : ∀ entry ∈ log, entry.1.kind ≠ .unknown ∧ entry.1.commitment < 2 ^ 256)
    (hstakedMax : (Activity.start.applyAll (log.map Prod.fst)).stakedSlashes ≤ GROVE_ONCHAIN_MAX_COUNT)
    (hpaidMax : (Activity.start.applyAll (log.map Prod.fst)).paidSlashes ≤ GROVE_ONCHAIN_MAX_COUNT) :
    (fed.map (deliver stakedAddress paidAddress place)).foldlM (reduceEvent isAddress chainId) Activity.start =
      .ok { Activity.start.applyAll (log.map Prod.fst) with
        seen := log.map (keyOf chainId stakedAddress paidAddress place) } := by
  induction h with
  | nil => rfl
  | @next log fed entry _ ih =>
    have hsnoc : Activity.start.applyAll ((log ++ [entry]).map Prod.fst) =
        (Activity.start.applyAll (log.map Prod.fst)).apply entry.1 := by
      rw [List.map_append]
      exact Activity.applyAll_append _ _ _
    rw [hsnoc] at hstakedMax hpaidMax ⊢
    obtain ⟨hlogNodup, -, hapart⟩ := List.nodup_append.mp (List.map_append ▸ hnodup)
    obtain ⟨hkind, hword⟩ := hknown entry (by simp)
    have hslashes := Activity.slashes_apply (a := Activity.start.applyAll (log.map Prod.fst)) (e := entry.1)
    have hpre := ih hlogNodup (fun other hother => hknown other (by simp [hother]))
      (hslashes.1.trans hstakedMax) (hslashes.2.trans hpaidMax)
    have hnew : entry.2 ∉ log.map Prod.snd := fun hmem => hapart _ hmem _ (by simp) rfl
    rw [List.map_append]
    refine foldlM_append_ok.mpr ⟨_, hpre, foldlM_cons_ok.mpr ⟨_, ?_, rfl⟩⟩
    rw [reduceEvent_next hplaces hstaked hpaid hnew hkind hword]
    exact if_pos ⟨decide_eq_true hstakedMax, decide_eq_true hpaidMax⟩
  | @again log fed entry _ hold ih =>
    rw [List.map_append]
    refine foldlM_append_ok.mpr ⟨_, ih hnodup hknown hstakedMax hpaidMax, foldlM_cons_ok.mpr ⟨_, ?_, rfl⟩⟩
    exact reduceEvent_again hplaces hstaked hpaid hold

/-- Batch after batch is everything at once. -/
lemma reduceBatches_of_flatten {batches : List (List ActivityEvent)} {previous : Option Activity} (hne : batches ≠ [])
    (h : reduceActivityEvents isAddress chainId previous batches.flatten = .ok a) :
    reduceBatches isAddress chainId previous batches = .ok (some a) := by
  induction batches generalizing previous with
  | nil => exact absurd rfl hne
  | cons events rest ih =>
    unfold reduceBatches
    have hboth : reduceActivityEvents isAddress chainId previous (events ++ rest.flatten) = .ok a := h
    cases hone : reduceActivityEvents isAddress chainId previous events with
    | error why =>
      unfold reduceActivityEvents at hone hboth
      split at hboth
      · cases hboth
      · next hchain =>
        obtain ⟨mid, hmid, -⟩ := foldlM_append_ok.mp hboth
        rw [if_neg hchain, hmid] at hone
        cases hone
    | ok mid =>
      rw [reduceActivityEvents_append hone] at hboth
      rcases rest with _ | ⟨events', rest⟩
      · unfold reduceActivityEvents at hboth
        split at hboth
        · cases hboth
        · obtain rfl := Except.ok.inj hboth
          rfl
      · exact ih (by simp) hboth

end Delivery

/-- **Published counters are the contracts'.** After any successful calls on both contracts, at most
`GROVE_ONCHAIN_MAX_COUNT` of them slashes of one contract, the events delivered in their order, in any batches and any
of them again, are reduced to the counts that the contracts hold and the numbers of the slashes. -/
theorem activityCounts_eq {H : ℕ → ℕ → ℕ} {z : ℕ} {X : Externals} {commitmentOf : ℕ → ℕ → Option ℕ}
    {bond unbonding minUnbonding sender operator hasher : ℕ} {extraLimits extraBonds limits : List ℕ}
    {S₀ : StakedReputationSet} {P₀ : PaidAccessSet} {tr : List Call} {s : Chain}
    (hS : Staked.constructor H z bond unbonding minUnbonding extraLimits extraBonds = .ok S₀)
    (hP : Paid.constructor H z sender operator hasher limits = .ok P₀)
    (hrun : Run (Chain.Step H z X commitmentOf) ⟨S₀, P₀, []⟩ tr s)
    (hwords : ∀ e ∈ s.log, e.commitment < 2 ^ 256)
    (hstakedSlashes : tr.countP Call.slashesStaked ≤ GROVE_ONCHAIN_MAX_COUNT)
    (hpaidSlashes : tr.countP Call.slashesPaid ≤ GROVE_ONCHAIN_MAX_COUNT)
    {isAddress : String → Bool} {chainId : ℤ} {stakedAddress paidAddress : String} {place : ℕ → Place}
    (hplaces : Places place) (hstaked : isAddress stakedAddress) (hpaid : isAddress paidAddress)
    (hchain : 0 < chainId ∧ chainId ≤ MAX_SAFE_INTEGER)
    {batches : List (List (Emitted × ℕ))} (hne : batches ≠ []) (hfeed : Feed s.log.zipIdx batches.flatten) :
    ∃ a, reduceBatches isAddress chainId none (batches.map (List.map (deliver stakedAddress paidAddress place))) =
        .ok (some a) ∧
      activityCounts a = ⟨s.staked.activeCount, s.paid.liveCount, tr.countP Call.slashesStaked,
        tr.countP Call.slashesPaid⟩ := by
  have hagrees := agrees_of_run hS hP hrun
  have hact : Activity.start.applyAll (s.log.zipIdx.map Prod.fst) = s.activity := by
    rw [List.zipIdx_map_fst]
    rfl
  have hknown : ∀ entry ∈ s.log.zipIdx, entry.1.kind ≠ .unknown ∧ entry.1.commitment < 2 ^ 256 := by
    intro entry hmem
    have hlog : entry.1 ∈ s.log := List.zipIdx_map_fst 0 s.log ▸ List.mem_map_of_mem hmem
    exact ⟨hagrees.kinds _ hlog, hwords _ hlog⟩
  have hfold := hfeed.reduce chainId hplaces hstaked hpaid
    (by rw [List.zipIdx_map_snd]; exact List.nodup_range') hknown (by rwa [hact, hagrees.stakedSlashes])
    (by rwa [hact, hagrees.paidSlashes])
  have hall : reduceActivityEvents isAddress chainId none
      (batches.map (List.map (deliver stakedAddress paidAddress place))).flatten =
        (batches.flatten.map (deliver stakedAddress paidAddress place)).foldlM (reduceEvent isAddress chainId)
          Activity.start := by
    unfold reduceActivityEvents
    rw [if_neg (not_not.mpr hchain), ← List.map_flatten]
    rfl
  rw [hfold] at hall
  refine ⟨_, reduceBatches_of_flatten (by simpa using hne) hall, ?_⟩
  simp only [activityCounts, hact, hagrees.staked.count, hagrees.paid.count, hagrees.stakedSlashes,
    hagrees.paidSlashes]

/-! ### Slashes without end -/

section Rounds

/-- A hasher for which every secret is that of commitment 5. -/
def fiveHasher : ℕ → ℕ → Option ℕ := fun _ _ => some 5

def fiveExternals : Externals := ⟨fun _ _ _ _ => true, fiveHasher⟩

def fiveStep : Chain → Call → Chain → Prop := Chain.Step (fun a b => a + b) 1 fiveExternals fiveHasher

/-- Commitment 5 registers and is slashed. -/
def round : List Call :=
  [.staked ⟨1, by decide, by decide⟩ (.register 5 8 1), .staked ⟨1, by decide, by decide⟩ (.slash 5 7 8 9 true)]

/-- What a round emits. -/
def roundLog : List Emitted := [⟨.stakedRegistered, 5⟩, ⟨.stakedSlashed, 5⟩]

/-- Commitment 5 is free to register for a bond of 1, after `n` registrations. -/
structure Idle (S : StakedReputationSet) (n : ℕ) : Prop where
  bond : S.bondOf 8 = 1
  member : (S.members 5).bond = 0
  index : S.nextIndex = n
  active : S.activeCount = 0

variable {S : StakedReputationSet} {P : PaidAccessSet} {n : ℕ}

lemma Idle.round (log : List Emitted) (h : Idle S n) (hn : n + 1 < 2 ^ 64) :
    ∃ S', Run fiveStep ⟨S, P, log⟩ Grove.round ⟨S', P, log ++ roundLog⟩ ∧ Idle S' (n + 1) := by
  set S₁ : StakedReputationSet := { S with
    nextIndex := n + 1
    members := update S.members 5 ⟨1, n, 0, 8⟩
    activeCount := 1
    tree := S.tree.updateLeaf (fun a b => a + b) 1 n 5 } with hS₁
  have hregister : Staked.register (fun a b => a + b) 1 S 5 8 1 = .ok (S₁, [.MemberRegistered 5 n 8]) := by
    simp [Staked.register, h.bond, h.member, h.index, h.active, hS₁]
    omega
  set S₂ : StakedReputationSet := { S₁ with
    members := update S₁.members 5 Staked.Member.none
    activeCount := 0
    tree := S₁.tree.updateLeaf (fun a b => a + b) 1 n 1 } with hS₂
  have hslash : Staked.slash (fun a b => a + b) 1 fiveExternals S₁ 5 7 8 9 true =
      .ok (S₂, [.MemberSlashed 5 9 8]) := by
    simp [Staked.slash, hS₁, hS₂, fiveExternals, fiveHasher]
  have hone : fiveStep ⟨S, P, log⟩ (.staked ⟨1, by decide, by decide⟩ (.register 5 8 1))
      ⟨S₁, P, log ++ [⟨.stakedRegistered, 5⟩]⟩ := ⟨_, _, hregister, rfl⟩
  have htwo : fiveStep ⟨S₁, P, log ++ [⟨.stakedRegistered, 5⟩]⟩
      (.staked ⟨1, by decide, by decide⟩ (.slash 5 7 8 9 true)) ⟨S₂, P, log ++ roundLog⟩ :=
    ⟨_, _, hslash, by simp [ofStaked, roundLog]⟩
  exact ⟨S₂, (Run.single hone).snoc htwo, h.bond, by simp [hS₂, Staked.Member.none], rfl, rfl⟩

/-- Any number of rounds. -/
lemma Idle.rounds (h : Idle S 0) (hn : n < 2 ^ 63) :
    ∃ S', Run fiveStep ⟨S, P, []⟩ (List.replicate n Grove.round).flatten
      ⟨S', P, (List.replicate n roundLog).flatten⟩ ∧ Idle S' n := by
  induction n with
  | zero => exact ⟨S, .nil, h⟩
  | succ n ih =>
    obtain ⟨S₁, hrun, hidle⟩ := ih (by omega)
    obtain ⟨S₂, hround, hidle'⟩ := hidle.round (P := P) (List.replicate n roundLog).flatten (by omega)
    refine ⟨S₂, ?_, hidle'⟩
    rw [List.replicate_succ', List.flatten_append, List.replicate_succ', List.flatten_append]
    simpa using hrun.append hround

lemma slashes_rounds : (Activity.start.applyAll (List.replicate n roundLog).flatten).stakedSlashes = n ∧
    (Activity.start.applyAll (List.replicate n roundLog).flatten).paidSlashes = 0 := by
  induction n with
  | zero => exact ⟨rfl, rfl⟩
  | succ n ih =>
    rw [List.replicate_succ', List.flatten_append, Activity.applyAll_append]
    obtain ⟨hstaked, hpaid⟩ := ih
    exact ⟨congrArg (· + 1) hstaked, hpaid⟩

lemma exists_constructed : ∃ S₀ P₀, Staked.constructor (fun a b => a + b) 1 1 0 0 [] [] = .ok S₀ ∧
    Paid.constructor (fun a b => a + b) 1 3 0 9 [8] = .ok P₀ ∧ Idle S₀ 0 ∧ P₀.liveCount = 0 :=
  ⟨_, _, rfl, rfl, ⟨rfl, rfl, rfl, rfl⟩, rfl⟩

lemma five_of_mem_rounds {e : Emitted} (he : e ∈ (List.replicate n roundLog).flatten) :
    e = ⟨.stakedRegistered, 5⟩ ∨ e = ⟨.stakedSlashed, 5⟩ := by
  obtain ⟨l, hl, hel⟩ := List.mem_flatten.mp he
  obtain rfl := List.eq_of_mem_replicate hl
  simpa [roundLog] using hel

lemma Feed.refl {α : Type} (l : List α) : Feed l l := by
  induction l using List.reverseRecOn with
  | nil => exact .nil
  | append_singleton l e ih => exact ih.next

def onesAddress : String := "0x1111111111111111111111111111111111111111"

def twosAddress : String := "0x2222222222222222222222222222222222222222"

/-- Places in one transaction, one after the other. -/
def rowPlace (n : ℕ) : Place := ⟨String.ofList ('0' :: 'x' :: List.replicate 64 '0'), n⟩

lemma rowPlaces : Places rowPlace where
  hash _ := by
    show (lowerHash (String.ofList ('0' :: 'x' :: List.replicate 64 '0'))).isSome = true
    decide
  distinct _ _ _ h := h

def registered : Emitted × ℕ := (⟨.stakedRegistered, 5⟩, 0)

def slashed : Emitted × ℕ := (⟨.stakedSlashed, 5⟩, 1)

/-- A registration that is delivered twice and a slash, in two batches. -/
theorem activityCounts_eq_slashed : ∃ a,
    reduceBatches (fun _ => true) 1 none
        ([[registered], [registered, slashed]].map (List.map (deliver onesAddress twosAddress rowPlace))) = .ok (some a) ∧
      activityCounts a = ⟨0, 0, 1, 0⟩ := by
  obtain ⟨S₀, P₀, hS, hP, hidle, hlive⟩ := exists_constructed
  obtain ⟨S, hrun, hidle'⟩ := hidle.rounds (P := P₀) (n := 1) (by decide)
  have hfeed : Feed [registered, slashed] [registered, registered, slashed] :=
    ((Feed.nil.next (e := registered)).again (e := registered) (by simp)).next (e := slashed)
  have hwords : ∀ e ∈ (List.replicate 1 roundLog).flatten, e.commitment < 2 ^ 256 := by
    intro e he
    rcases five_of_mem_rounds he with rfl | rfl <;> decide
  have hcounts : ∃ a, reduceBatches (fun _ => true) 1 none
      ([[registered], [registered, slashed]].map (List.map (deliver onesAddress twosAddress rowPlace))) = .ok (some a) ∧
        activityCounts a = ⟨S.activeCount, P₀.liveCount, 1, 0⟩ :=
    activityCounts_eq hS hP hrun hwords (by decide) (by decide) rowPlaces rfl rfl (by decide) (by simp) hfeed
  rwa [hidle'.active, hlive] at hcounts

/-- The last slash of one more round than the bound is refused. -/
lemma reduce_refused (hn : n = GROVE_ONCHAIN_MAX_COUNT) :
    reduceBatches (fun _ => true) 1 none
        [(List.replicate (n + 1) roundLog).flatten.zipIdx.map (deliver onesAddress twosAddress rowPlace)] =
      .error .eventCount := by
  set init := (List.replicate n roundLog).flatten ++ [⟨.stakedRegistered, 5⟩] with hinit
  have hlog : (List.replicate (n + 1) roundLog).flatten = init ++ [⟨.stakedSlashed, 5⟩] := by
    rw [List.replicate_succ', List.flatten_append]
    simp [hinit, roundLog]
  have hknown : ∀ entry ∈ init.zipIdx, entry.1.kind ≠ .unknown ∧ entry.1.commitment < 2 ^ 256 := by
    intro entry hmem
    have hlogged : entry.1 ∈ (List.replicate (n + 1) roundLog).flatten := by
      rw [hlog]
      exact List.mem_append_left _ (List.zipIdx_map_fst 0 init ▸ List.mem_map_of_mem hmem)
    rcases five_of_mem_rounds hlogged with h | h <;> rw [h] <;> decide
  have hslashes : (Activity.start.applyAll init).stakedSlashes = n ∧ (Activity.start.applyAll init).paidSlashes = 0 := by
    rw [hinit, Activity.applyAll_append]
    exact slashes_rounds
  have hfst : init.zipIdx.map Prod.fst = init := List.zipIdx_map_fst 0 init
  have hpre : (init.zipIdx.map (deliver onesAddress twosAddress rowPlace)).foldlM (reduceEvent (fun _ => true) 1)
      Activity.start = .ok { Activity.start.applyAll (init.zipIdx.map Prod.fst) with
        seen := init.zipIdx.map (keyOf 1 onesAddress twosAddress rowPlace) } := by
    refine (Feed.refl init.zipIdx).reduce 1 rowPlaces rfl rfl
      (by rw [List.zipIdx_map_snd]; exact List.nodup_range') hknown ?_ ?_
    · rw [hfst, hslashes.1, hn]
    · rw [hfst, hslashes.2]
      exact Nat.zero_le _
  have hlast : reduceEvent (fun _ => true) 1 { Activity.start.applyAll (init.zipIdx.map Prod.fst) with
      seen := init.zipIdx.map (keyOf 1 onesAddress twosAddress rowPlace) }
        (deliver onesAddress twosAddress rowPlace (⟨.stakedSlashed, 5⟩, init.length)) = .error .eventCount := by
    rw [reduceEvent_next rowPlaces rfl rfl (by simp [List.zipIdx_map_snd]) (fun h => by cases h)
      (show 5 < 2 ^ 256 by decide), hfst]
    refine if_neg fun hsafe => ?_
    have hmore : ((Activity.start.applyAll init).apply ⟨.stakedSlashed, 5⟩).stakedSlashes = n + 1 :=
      congrArg (· + 1) hslashes.1
    have hle := of_decide_eq_true hsafe.1
    rw [hmore] at hle
    omega
  have hall : reduceActivityEvents (fun _ => true) 1 none
      ((init ++ [Emitted.mk .stakedSlashed 5]).zipIdx.map (deliver onesAddress twosAddress rowPlace)) =
        .error .eventCount := by
    unfold reduceActivityEvents
    rw [if_neg (by decide), List.zipIdx_append, List.map_append, List.foldlM_append]
    show (List.foldlM (reduceEvent (fun _ => true) 1) Activity.start _ >>= _) = _
    rw [hpre]
    show (reduceEvent (fun _ => true) 1 _ _ >>= _) = _
    rw [Nat.zero_add, hlast]
    rfl
  rw [hlog]
  unfold reduceBatches
  rw [hall]

/-- After `GROVE_ONCHAIN_MAX_COUNT + 1` slashes of the staked set the events are refused. -/
theorem slashes_refused : ∃ S₀ P₀ tr s, Staked.constructor (fun a b => a + b) 1 1 0 0 [] [] = .ok S₀ ∧
    Paid.constructor (fun a b => a + b) 1 3 0 9 [8] = .ok P₀ ∧
    Run (Chain.Step (fun a b => a + b) 1 fiveExternals fiveHasher) ⟨S₀, P₀, []⟩ tr s ∧
    (∀ e ∈ s.log, e.commitment < 2 ^ 256) ∧ Feed s.log.zipIdx s.log.zipIdx ∧ Places rowPlace ∧
    reduceBatches (fun _ => true) 1 none [s.log.zipIdx.map (deliver onesAddress twosAddress rowPlace)] =
      .error .eventCount := by
  obtain ⟨S₀, P₀, hS, hP, hidle, -⟩ := exists_constructed
  obtain ⟨n, hn⟩ : ∃ n, n = GROVE_ONCHAIN_MAX_COUNT := ⟨_, rfl⟩
  have hsmall : n + 1 < 2 ^ 63 := by
    rw [hn]
    decide
  obtain ⟨S, hrun, -⟩ := hidle.rounds (P := P₀) hsmall
  refine ⟨S₀, P₀, _, _, hS, hP, hrun, ?_, Feed.refl _, rowPlaces, reduce_refused hn⟩
  intro e he
  rcases five_of_mem_rounds he with rfl | rfl <;> decide

end Rounds

end ShadeTree.Grove
