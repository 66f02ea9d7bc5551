import ShadeTree.Contracts.PaidAccessSet

/-!
# The chain under the registrar

The two transactions of an order, `transferWithAuthorization` and `insert`, and the state they change: the
used authorizations of the token and the paid set.  A transaction carries the order it was sent for.  A
mined transaction is final (no reorganization); one that is not may wait forever.
-/

namespace ShadeTree.Registrar

open Function (update)
open ShadeTree.Contracts

inductive Kind where
  | settle | insert
  deriving DecidableEq, Repr

/-- What the operator sends, and the order it is for. -/
structure Job (K : Type) where
  kind : Kind
  key : K
  commitment : ℕ
  limit : ℕ
  deriving DecidableEq, Repr

/-- A receipt: `status === 1` and the logs, or another status. -/
inductive Receipt where
  | ok (logs : List Paid.Event)
  | reverted
  deriving DecidableEq, Repr

/-- A transaction that was broadcast; it has no receipt while it is pending. -/
structure Tx (K : Type) where
  job : Job K
  receipt : Option Receipt
  deriving DecidableEq, Repr

/-- The authorizations used up (`authorizationState`), the paid set, and the transactions by hash. -/
structure Chain (K : Type) where
  used : K → Bool
  set : PaidAccessSet
  tx : ℕ → Option (Tx K)

/-- The contracts' hash and leaf value, the commitment of a secret, and the operator's address. -/
structure Network where
  H : ℕ → ℕ → ℕ
  z : ℕ
  commitmentOf : ℕ → ℕ → Option ℕ
  wallet : ℕ

/-- What the chain shows. -/
inductive ChainEvent (K : Type) where
  | mined (h : ℕ)
  | failed (h : ℕ)
  | slashed (commitment : ℕ)
  | spent (k : K)

section Chain

variable {K : Type} [DecidableEq K] (N : Network)

def Chain.receipt (c : Chain K) (h : ℕ) : Option Receipt := (c.tx h).bind Tx.receipt

def Chain.limitOf (c : Chain K) (commitment : ℕ) : ℕ := Paid.limitOf c.set commitment

/-- What a transaction does when it is mined now, `none` when it reverts; `staticCall` asks the same. -/
def Chain.exec (c : Chain K) (j : Job K) : Option (Chain K × List Paid.Event) :=
  match j.kind with
  | .settle => if c.used j.key then none else some ({ c with used := update c.used j.key true }, [])
  | .insert =>
    match Paid.insert N.H N.z c.set N.wallet j.commitment j.limit with
    | .ok (S, evs) => some ({ c with set := S }, evs)
    | .error _ => none

def Chain.put (c : Chain K) (h : ℕ) (j : Job K) (rc : Option Receipt) : Chain K :=
  { c with tx := update c.tx h (some ⟨j, rc⟩) }

/-- A pending transaction is mined, or reverts for a reason outside this model (balance, time window, gas);
someone slashes a leaf; the payer uses or cancels an authorization. -/
inductive Chain.Step : Chain K → ChainEvent K → Chain K → Prop where
  | mined {c c' : Chain K} {h : ℕ} {j : Job K} {logs : List Paid.Event} :
      c.tx h = some ⟨j, none⟩ → c.exec N j = some (c', logs) →
      Step c (.mined h) (c'.put h j (some (.ok logs)))
  | refused {c : Chain K} {h : ℕ} {j : Job K} :
      c.tx h = some ⟨j, none⟩ → c.exec N j = none → Step c (.mined h) (c.put h j (some .reverted))
  | failed {c : Chain K} {h : ℕ} {j : Job K} :
      c.tx h = some ⟨j, none⟩ → Step c (.failed h) (c.put h j (some .reverted))
  | slashed {c : Chain K} {commitment secret limit : ℕ} {S : PaidAccessSet} {evs : List Paid.Event} :
      Paid.slash N.H N.z N.commitmentOf c.set commitment secret limit = .ok (S, evs) →
      Step c (.slashed commitment) { c with set := S }
  | spent {c : Chain K} {k : K} : Step c (.spent k) { c with used := update c.used k true }

/-- The chain before the registrar sent anything. -/
structure Chain.Start (c : Chain K) : Prop where
  noTx : ∀ h, c.tx h = none
  tiers : Paid.TierTable.Valid c.set.allowed

/-- The transaction `h` of an authorization was broadcast and did not revert. -/
def Chain.Standing (c : Chain K) (j : Kind) (k : K) (h : ℕ) : Prop :=
  ∃ x, c.tx h = some x ∧ x.job.kind = j ∧ x.job.key = k ∧ x.receipt ≠ some .reverted

/-- The transaction `h` was mined, for the job `j`. -/
def Chain.Mined (c : Chain K) (h : ℕ) (j : Job K) (logs : List Paid.Event) : Prop :=
  c.tx h = some ⟨j, some (.ok logs)⟩

end Chain

section Facts

variable {K : Type} {N : Network} {c c' : Chain K} {h : ℕ} {j : Job K}

/-! ### Transactions over a step -/

lemma Chain.put_tx {rc : Option Receipt} : (c.put h j rc).tx h = some ⟨j, rc⟩ := Function.update_self ..

lemma Chain.put_tx_of_ne {rc : Option Receipt} {h' : ℕ} (hne : h' ≠ h) : (c.put h j rc).tx h' = c.tx h' :=
  Function.update_of_ne hne _ _

lemma Chain.standing_put {jk : Kind} {k : K} {h' : ℕ} (hs : (c.put h j none).Standing jk k h') :
    (h' = h ∧ j.kind = jk ∧ j.key = k) ∨ c.Standing jk k h' := by
  obtain ⟨x, hx, hj, hk, hr⟩ := hs
  by_cases hh : h' = h
  · subst hh
    obtain rfl : (⟨j, none⟩ : Tx K) = x := by simpa [Chain.put_tx] using hx
    exact .inl ⟨rfl, hj, hk⟩
  · exact .inr ⟨x, by rwa [Chain.put_tx_of_ne hh] at hx, hj, hk, hr⟩

lemma Chain.Mined.standing {logs : List Paid.Event} (hm : c.Mined h j logs) : c.Standing j.kind j.key h :=
  ⟨_, hm, rfl, rfl, by simp⟩

/-- The chain went on: transactions stay, and so do receipts. -/
def Chain.Le (c c' : Chain K) : Prop :=
  ∀ h j rc, c.tx h = some ⟨j, rc⟩ → ∃ rc', c'.tx h = some ⟨j, rc'⟩ ∧ (rc ≠ none → rc' = rc)

/-- The transaction `h` was broadcast for the job `j`. -/
def Chain.Sent (c : Chain K) (h : ℕ) (j : Job K) : Prop := ∃ rc, c.tx h = some ⟨j, rc⟩

lemma Chain.Le.sent (hle : c.Le c') (hs : c.Sent h j) : c'.Sent h j := by
  obtain ⟨rc, hx⟩ := hs
  obtain ⟨rc', hx', -⟩ := hle h j rc hx
  exact ⟨rc', hx'⟩

lemma Chain.Le.mined {logs : List Paid.Event} (hle : c.Le c') (hm : c.Mined h j logs) : c'.Mined h j logs := by
  obtain ⟨rc', hx', heq⟩ := hle h j _ hm
  rw [heq (by simp)] at hx'
  exact hx'

lemma Chain.Le.refl : c.Le c := fun _ _ rc hx => ⟨rc, hx, fun _ => rfl⟩

lemma Chain.le_put (hf : c.tx h = none) : c.Le (c.put h j none) := by
  intro h' j' rc hx
  have hne : h' ≠ h := by
    rintro rfl
    cases hf.symm.trans hx
  exact ⟨rc, (Chain.put_tx_of_ne hne).trans hx, fun _ => rfl⟩

variable [DecidableEq K]

lemma Chain.exec_tx {logs : List Paid.Event} (hx : c.exec N j = some (c', logs)) : c'.tx = c.tx := by
  unfold exec at hx
  cases hk : j.kind with
  | settle =>
    simp only [hk] at hx
    split_ifs at hx
    obtain ⟨rfl, -⟩ := by simpa using hx
    rfl
  | insert =>
    simp only [hk] at hx
    cases hi : Paid.insert N.H N.z c.set N.wallet j.commitment j.limit with
    | error e => simp [hi] at hx
    | ok Se =>
      obtain ⟨rfl, -⟩ := by simpa [hi] using hx
      rfl

/-- What a step does to one transaction: nothing once it has a receipt, and it keeps its job. -/
lemma Chain.Step.tx {e : ChainEvent K} (hst : c.Step N e c') (h : ℕ) :
    c'.tx h = c.tx h ∨ ∃ j rc, c.tx h = some ⟨j, none⟩ ∧ c'.tx h = some ⟨j, some rc⟩ := by
  have hput : ∀ (d : Chain K) (h' : ℕ) (j : Job K) (rc : Receipt), d.tx = c.tx → c.tx h' = some ⟨j, none⟩ →
      (d.put h' j (some rc)).tx h = c.tx h ∨
        ∃ i rc', c.tx h = some ⟨i, none⟩ ∧ (d.put h' j (some rc)).tx h = some ⟨i, some rc'⟩ := by
    intro d h' j rc hd hp
    by_cases hh : h = h'
    · subst hh
      exact .inr ⟨j, rc, hp, Chain.put_tx⟩
    · exact .inl (by rw [Chain.put_tx_of_ne hh, hd])
  cases hst with
  | mined hp hx => exact hput _ _ _ _ (Chain.exec_tx hx) hp
  | refused hp _ => exact hput _ _ _ _ rfl hp
  | failed hp => exact hput _ _ _ _ rfl hp
  | slashed _ => exact .inl rfl
  | spent => exact .inl rfl

/-- A step broadcasts nothing, so what stands stood before. -/
lemma Chain.Step.standing {e : ChainEvent K} (hst : c.Step N e c') {jk : Kind} {k : K}
    (hs : c'.Standing jk k h) : c.Standing jk k h := by
  obtain ⟨x, hx, hj, hk, hr⟩ := hs
  rcases hst.tx h with heq | ⟨j, rc, hp, hp'⟩
  · exact ⟨x, heq ▸ hx, hj, hk, hr⟩
  · obtain rfl : (⟨j, some rc⟩ : Tx K) = x := by simpa [hp'] using hx
    exact ⟨_, hp, hj, hk, by simp⟩

lemma Chain.Mined.step {e : ChainEvent K} {logs : List Paid.Event} (hm : c.Mined h j logs)
    (hst : c.Step N e c') : c'.Mined h j logs := by
  rcases hst.tx h with heq | ⟨j', rc, hp, -⟩
  · exact heq.trans hm
  · simp [Mined, hp] at hm

/-! ### What a mined transaction did -/

lemma Chain.exec_settle {logs : List Paid.Event} (hk : j.kind = .settle) (hx : c.exec N j = some (c', logs)) :
    c.used j.key = false ∧ c' = { c with used := update c.used j.key true } ∧ logs = [] := by
  simp only [exec, hk] at hx
  split_ifs at hx with hu
  simp only [Option.some.injEq, Prod.mk.injEq] at hx
  exact ⟨by simpa using hu, hx.1.symm, hx.2.symm⟩

lemma Chain.exec_insert {logs : List Paid.Event} (hk : j.kind = .insert) (hx : c.exec N j = some (c', logs)) :
    ∃ tree, c.set.allowed j.limit = true ∧ c.limitOf j.commitment = 0 ∧
      c' = { c with
              set := { c.set with
                        nextIndex := c.set.nextIndex + 1
                        leaves := update c.set.leaves j.commitment ⟨c.set.nextIndex, j.limit % 2 ^ 32⟩
                        liveCount := c.set.liveCount + 1
                        tree := tree } } ∧
      logs = [.Inserted j.commitment j.limit c.set.nextIndex tree.currentRoot] := by
  simp only [exec, hk] at hx
  cases hi : Paid.insert N.H N.z c.set N.wallet j.commitment j.limit with
  | error e => simp [hi] at hx
  | ok Se =>
    obtain ⟨S, evs⟩ := Se
    simp only [hi, Option.some.injEq, Prod.mk.injEq] at hx
    unfold Paid.insert at hi
    split_ifs at hi
    cases hl : Paid.insertLeaf N.H N.z c.set j.commitment j.limit with
    | error e => simp [hl] at hi
    | ok Sv =>
      obtain ⟨S', ev⟩ := Sv
      simp only [hl, Except.ok.injEq, Prod.mk.injEq] at hi
      obtain ⟨hal, hlim, -, rfl, rfl⟩ := Paid.insertLeaf_ok hl
      exact ⟨_, hal, hlim, by rw [← hx.1, ← hi.1], by rw [← hx.2, ← hi.2]⟩

lemma Chain.Step.le {e : ChainEvent K} (hst : c.Step N e c') : c.Le c' := by
  intro h j rc hx
  rcases hst.tx h with heq | ⟨j', rc', hp, hp'⟩
  · exact ⟨rc, heq.trans hx, fun _ => rfl⟩
  · cases hx.symm.trans hp
    exact ⟨some rc', hp', fun h => absurd rfl h⟩

/-- What the transactions of the chain mean for its state. -/
structure Chain.Facts (c : Chain K) : Prop where
  spent : ∀ h j logs, c.Mined h j logs → j.kind = .settle → c.used j.key = true
  settleOnce : ∀ h h' j j' logs logs', c.Mined h j logs → c.Mined h' j' logs' → j.kind = .settle →
    j'.kind = .settle → j.key = j'.key → h = h'
  inserted : ∀ h j logs, c.Mined h j logs → j.kind = .insert →
    ∃ i root, logs = [.Inserted j.commitment j.limit i root] ∧ i < c.set.nextIndex
  distinct : ∀ h h' j j' i cm l root cm' l' root', c.Mined h j [.Inserted cm l i root] →
    c.Mined h' j' [.Inserted cm' l' i root'] → j.kind = .insert → j'.kind = .insert → h = h'
  tiers : Paid.TierTable.Valid c.set.allowed

omit [DecidableEq K] in
lemma Chain.Start.facts (h : c.Start) : c.Facts := by
  have hnone : ∀ h' j logs, ¬ c.Mined h' j logs := fun h' j logs hm => by cases (h.noTx h').symm.trans hm
  exact ⟨fun _ _ _ hm => absurd hm (hnone _ _ _), fun _ _ _ _ _ _ hm => absurd hm (hnone _ _ _),
    fun _ _ _ hm => absurd hm (hnone _ _ _), fun _ _ _ _ _ _ _ _ _ _ _ hm => absurd hm (hnone _ _ _), h.tiers⟩

omit [DecidableEq K] in
/-- What was mined after a receipt was there before, or is the receipt. -/
lemma Chain.mined_put {h' : ℕ} {j' : Job K} {rc : Option Receipt} {logs : List Paid.Event}
    (hm : (c.put h j rc).Mined h' j' logs) :
    (h' = h ∧ j' = j ∧ rc = some (.ok logs)) ∨ h' ≠ h ∧ c.Mined h' j' logs := by
  by_cases hh : h' = h
  · subst hh
    have hx := Chain.put_tx.symm.trans hm
    cases hx
    exact .inl ⟨rfl, rfl, rfl⟩
  · exact .inr ⟨hh, (Chain.put_tx_of_ne hh).symm.trans hm⟩

omit [DecidableEq K] in
/-- A transaction that did not succeed leaves what the others mean. -/
lemma Chain.Facts.put (h : c.Facts) {h₀ : ℕ} {rc : Option Receipt} (hrc : ∀ logs, rc ≠ some (.ok logs)) :
    (c.put h₀ j rc).Facts := by
  have hold : ∀ {h' j' logs}, (c.put h₀ j rc).Mined h' j' logs → c.Mined h' j' logs := by
    intro h' j' logs hm
    rcases Chain.mined_put hm with ⟨-, -, hlogs⟩ | ⟨-, hm⟩
    · exact absurd hlogs (hrc logs)
    · exact hm
  exact ⟨fun _ _ _ hm => h.spent _ _ _ (hold hm),
    fun _ _ _ _ _ _ hm hm' => h.settleOnce _ _ _ _ _ _ (hold hm) (hold hm'),
    fun _ _ _ hm => h.inserted _ _ _ (hold hm),
    fun _ _ _ _ _ _ _ _ _ _ _ hm hm' => h.distinct _ _ _ _ _ _ _ _ _ _ _ (hold hm) (hold hm'), h.tiers⟩

/-- A settlement that is mined now. -/
lemma Chain.Facts.settled (h : c.Facts) {h₀ : ℕ} (hk : j.kind = .settle) (hunused : c.used j.key = false) :
    ({ c with used := update c.used j.key true }.put h₀ j (some (.ok []))).Facts := by
  have hold : ∀ {h' j' logs}, ({ c with used := update c.used j.key true }.put h₀ j (some (.ok []))).Mined h' j' logs →
      (h' = h₀ ∧ j' = j) ∨ c.Mined h' j' logs := by
    intro h' j' logs hm
    rcases Chain.mined_put hm with ⟨hh, hj, -⟩ | ⟨-, hm⟩
    · exact .inl ⟨hh, hj⟩
    · exact .inr hm
  have hspent : ∀ {h' j' logs}, c.Mined h' j' logs → j'.kind = .settle → j'.key ≠ j.key := by
    intro h' j' logs hm hk' heq
    have hused := h.spent _ _ _ hm hk'
    rw [heq, hunused] at hused
    cases hused
  refine ⟨fun h' j' logs hm hk' => ?_, fun h' h'' j' j'' logs logs' hm hm' hk' hk'' hkey => ?_,
    fun h' j' logs hm hk' => ?_, fun h' h'' j' j'' i cm l root cm' l' root' hm hm' hk' hk'' => ?_, h.tiers⟩
  · show update c.used j.key true j'.key = true
    by_cases hkey : j'.key = j.key
    · rw [hkey, Function.update_self]
    · rw [Function.update_of_ne hkey]
      rcases hold hm with ⟨-, rfl⟩ | hm₀
      · exact absurd rfl hkey
      · exact h.spent _ _ _ hm₀ hk'
  · rcases hold hm with ⟨hh, rfl⟩ | hm₀
    · rcases hold hm' with ⟨hh', -⟩ | hm₁
      · rw [hh, hh']
      · exact absurd hkey.symm (hspent hm₁ hk'')
    · rcases hold hm' with ⟨-, rfl⟩ | hm₁
      · exact absurd hkey (hspent hm₀ hk')
      · exact h.settleOnce _ _ _ _ _ _ hm₀ hm₁ hk' hk'' hkey
  · rcases hold hm with ⟨-, rfl⟩ | hm₀
    · cases hk.symm.trans hk'
    · exact h.inserted _ _ _ hm₀ hk'
  · rcases hold hm with ⟨-, rfl⟩ | hm₀
    · cases hk.symm.trans hk'
    rcases hold hm' with ⟨-, rfl⟩ | hm₁
    · cases hk.symm.trans hk''
    exact h.distinct _ _ _ _ _ _ _ _ _ _ _ hm₀ hm₁ hk' hk''

omit [DecidableEq K] in
/-- An insert that is mined now. -/
lemma Chain.Facts.grown (h : c.Facts) {h₀ : ℕ} {S : PaidAccessSet} {root : ℕ} (hk : j.kind = .insert)
    (hindex : S.nextIndex = c.set.nextIndex + 1) (hallowed : S.allowed = c.set.allowed) :
    ({ c with set := S }.put h₀ j (some (.ok [.Inserted j.commitment j.limit c.set.nextIndex root]))).Facts := by
  have hold : ∀ {h' j' logs}, ({ c with set := S }.put h₀ j
      (some (.ok [.Inserted j.commitment j.limit c.set.nextIndex root]))).Mined h' j' logs →
      (h' = h₀ ∧ j' = j ∧ logs = [.Inserted j.commitment j.limit c.set.nextIndex root]) ∨ c.Mined h' j' logs := by
    intro h' j' logs hm
    rcases Chain.mined_put hm with ⟨hh, hj, hlogs⟩ | ⟨-, hm⟩
    · exact .inl ⟨hh, hj, by cases hlogs; rfl⟩
    · exact .inr hm
  have hbelow : ∀ {h' j' cm l i root}, c.Mined h' j' [.Inserted cm l i root] → j'.kind = .insert →
      i < c.set.nextIndex := by
    intro h' j' cm l i root hm hk'
    obtain ⟨i', root', hlogs, hlt⟩ := h.inserted _ _ _ hm hk'
    cases hlogs
    exact hlt
  refine ⟨fun h' j' logs hm hk' => ?_, fun h' h'' j' j'' logs logs' hm hm' hk' hk'' hkey => ?_,
    fun h' j' logs hm hk' => ?_, fun h' h'' j' j'' i cm l root cm' l' root' hm hm' hk' hk'' => ?_, ?_⟩
  · rcases hold hm with ⟨-, rfl, -⟩ | hm₀
    · cases hk.symm.trans hk'
    · exact h.spent _ _ _ hm₀ hk'
  · rcases hold hm with ⟨-, rfl, -⟩ | hm₀
    · cases hk.symm.trans hk'
    rcases hold hm' with ⟨-, rfl, -⟩ | hm₁
    · cases hk.symm.trans hk''
    exact h.settleOnce _ _ _ _ _ _ hm₀ hm₁ hk' hk'' hkey
  · show ∃ i root, _ ∧ i < S.nextIndex
    rcases hold hm with ⟨-, rfl, rfl⟩ | hm₀
    · exact ⟨_, _, rfl, by omega⟩
    · obtain ⟨i, root, hlogs, hlt⟩ := h.inserted _ _ _ hm₀ hk'
      exact ⟨i, root, hlogs, by omega⟩
  · rcases hold hm with ⟨hh, -, hlogs⟩ | hm₀
    · rcases hold hm' with ⟨hh', -, -⟩ | hm₁
      · rw [hh, hh']
      · cases hlogs
        exact absurd (hbelow hm₁ hk'') (lt_irrefl _)
    · rcases hold hm' with ⟨-, -, hlogs⟩ | hm₁
      · cases hlogs
        exact absurd (hbelow hm₀ hk') (lt_irrefl _)
      · exact h.distinct _ _ _ _ _ _ _ _ _ _ _ hm₀ hm₁ hk' hk''
  · show Paid.TierTable.Valid S.allowed
    rw [hallowed]
    exact h.tiers

/-- **One step keeps what transactions mean.** -/
theorem Chain.Facts.step {e : ChainEvent K} (h : c.Facts) (hst : c.Step N e c') : c'.Facts := by
  cases hst with
  | @mined c₁ h₀ j logs hp hx =>
    cases hk : j.kind with
    | settle =>
      obtain ⟨hunused, rfl, rfl⟩ := Chain.exec_settle hk hx
      exact h.settled hk hunused
    | insert =>
      obtain ⟨tree, -, -, rfl, rfl⟩ := Chain.exec_insert hk hx
      exact h.grown hk rfl rfl
  | refused hp _ => exact h.put nofun
  | failed hp => exact h.put nofun
  | slashed hs =>
    obtain ⟨-, -, -, -, rfl, -⟩ := Paid.slash_ok hs
    exact ⟨h.spent, h.settleOnce, h.inserted, h.distinct, h.tiers⟩
  | @spent k =>
    refine ⟨fun h' j logs hm hk => ?_, h.settleOnce, h.inserted, h.distinct, h.tiers⟩
    show update c.used k true j.key = true
    by_cases hkey : j.key = k
    · rw [hkey, Function.update_self]
    · rw [Function.update_of_ne hkey]
      exact h.spent _ _ _ hm hk

end Facts

end ShadeTree.Registrar
