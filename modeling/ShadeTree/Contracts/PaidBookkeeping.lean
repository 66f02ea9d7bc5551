import Mathlib.Data.Finset.Card
import ShadeTree.Lib.Run
import ShadeTree.Contracts.PaidAccessSet

/-!
# The books of the paid set

A batch is its single inserts, one after the other, or nothing.  The counter of live leaves, the index of each
insertion, and the root in each event follow from the log, and only the operator inserts.
-/

namespace ShadeTree.Contracts.Paid

open Function (update)
open ShadeTree.Lib

/-- A contract with the events it emitted so far, oldest first. -/
structure Book where
  contract : PaidAccessSet
  log : List Event

section Book

variable (H : ℕ → ℕ → ℕ) (z : ℕ) (commitmentOf : ℕ → ℕ → Option ℕ)

/-- One call by a sender; a call that reverts leaves everything as it was. -/
def Book.Step (s : Book) (call : ℕ × Call) (s' : Book) : Prop :=
  match exec H z commitmentOf s.contract call.1 call.2 with
  | .ok (S', evs) => s' = ⟨S', s.log ++ evs⟩
  | .error _ => s' = s

/-- Single inserts by one sender that all succeed, one after the other. -/
inductive Singles (sender : ℕ) : PaidAccessSet → List (ℕ × ℕ) → PaidAccessSet → List Event → Prop where
  | nil {S : PaidAccessSet} : Singles sender S [] S []
  | cons {S S₁ S₂ : PaidAccessSet} {c l : ℕ} {rest : List (ℕ × ℕ)} {evs evs' : List Event} :
      insert H z S sender c l = .ok (S₁, evs) → Singles sender S₁ rest S₂ evs' →
      Singles sender S ((c, l) :: rest) S₂ (evs ++ evs')

/-- The leaf change that an event reports. -/
def Event.change (T : Tree) : Event → Tree
  | .Inserted c _ index _ => T.updateLeaf H z index c
  | .Slashed _ _ index _ => T.updateLeaf H z index z
  | _ => T

/-- The root that an event carries. -/
def Event.root : Event → Option ℕ
  | .Inserted _ _ _ root => some root
  | .Slashed _ _ _ root => some root
  | _ => none

/-- The index that an insertion was given. -/
def Event.inserted : Event → Option ℕ
  | .Inserted _ _ index _ => some index
  | _ => none

/-- The tree after the leaf changes of a log. -/
def treeOf (log : List Event) : Tree := log.foldl (Event.change H z) (Tree.new H z)

/-- The books are in order. -/
structure Bookkept (s : Book) : Prop where
  count : ∃ live : Finset ℕ, (∀ c, c ∈ live ↔ limitOf s.contract c ≠ 0) ∧ live.card = s.contract.liveCount
  indices : s.log.filterMap Event.inserted = List.range s.contract.nextIndex
  placed : ∀ c, limitOf s.contract c ≠ 0 → ∃ l root, .Inserted c l (s.contract.leaves c).index root ∈ s.log
  tree : s.contract.tree = treeOf H z s.log
  roots : ∀ l₁ e l₂, s.log = l₁ ++ e :: l₂ → ∀ root ∈ e.root, root = (treeOf H z (l₁ ++ [e])).currentRoot

/-- What a successful call has to do with the operator: an insertion is the operator's, the role goes to the
nominee who accepts it, and the operator nominates. -/
structure OperatorOnly (S : PaidAccessSet) (sender : ℕ) (call : Call) (S' : PaidAccessSet) (evs : List Event) :
    Prop where
  inserts : ∀ c l index root, .Inserted c l index root ∈ evs → sender = S.operator
  operator : S'.operator ≠ S.operator →
    call = .acceptOperator ∧ sender ≠ 0 ∧ sender = S.pendingOperator ∧ S'.operator = sender
  pending : S'.pendingOperator ≠ S.pendingOperator →
    (∃ nominee, call = .setOperator nominee ∧ sender = S.operator ∧ S'.pendingOperator = nominee) ∨
      call = .acceptOperator ∧ S'.pendingOperator = 0

variable {H z commitmentOf} {S S' : PaidAccessSet} {s : Book} {log evs : List Event} {ev : Event} {sender : ℕ}

lemma Book.Step.of_ok (sender : ℕ) (call : Call)
    (h : exec H z commitmentOf s.contract sender call = .ok (S', evs)) :
    Book.Step H z commitmentOf s (sender, call) ⟨S', s.log ++ evs⟩ := by
  unfold Book.Step
  rw [h]

/-! ### A batch and its inserts -/

lemma insertLeaf_operator {c l : ℕ} (h : insertLeaf H z S c l = .ok (S', ev)) :
    S'.operator = S.operator ∧ S'.pendingOperator = S.pendingOperator := by
  obtain ⟨-, -, -, rfl, -⟩ := insertLeaf_ok h
  exact ⟨rfl, rfl⟩

lemma insert_iff {c l : ℕ} : insert H z S sender c l = .ok (S', evs) ↔
    sender = S.operator ∧ ∃ ev, insertLeaf H z S c l = .ok (S', ev) ∧ evs = [ev] := by
  unfold insert
  by_cases hop : sender = S.operator
  · cases hleaf : insertLeaf H z S c l with
    | error e => simp [hop]
    | ok r => simp [hop, Prod.ext_iff, eq_comm]
  · simp [hop]

/-- The loop of a batch goes through when the single inserts do, with the same events. -/
lemma insertAll_iff {batch : List (ℕ × ℕ)} (hop : sender = S.operator) :
    insertAll H z S batch = .ok (S', evs) ↔ Singles H z sender S batch S' evs := by
  induction batch generalizing S evs with
  | nil =>
    constructor
    · intro h
      obtain ⟨rfl, rfl⟩ : S = S' ∧ [] = evs := by simpa [insertAll] using h
      exact .nil
    · intro h
      cases h
      rfl
  | cons cl rest ih =>
    obtain ⟨c, l⟩ := cl
    constructor
    · intro h
      unfold insertAll at h
      cases hleaf : insertLeaf H z S c l with
      | error e => simp [hleaf] at h
      | ok r =>
        obtain ⟨S₁, ev⟩ := r
        simp only [hleaf] at h
        cases hrest : insertAll H z S₁ rest with
        | error e => simp [hrest] at h
        | ok r =>
          obtain ⟨S₂, evs₂⟩ := r
          simp only [hrest, Except.ok.injEq, Prod.mk.injEq] at h
          obtain ⟨rfl, rfl⟩ := h
          have hop₁ : sender = S₁.operator := hop.trans (insertLeaf_operator hleaf).1.symm
          exact .cons (insert_iff.mpr ⟨hop, ev, hleaf, rfl⟩) ((ih hop₁).mp hrest)
    · intro h
      cases h with
      | cons hone hrest =>
        obtain ⟨-, ev, hleaf, rfl⟩ := insert_iff.mp hone
        have hop₁ := hop.trans (insertLeaf_operator hleaf).1.symm
        simp [insertAll, hleaf, (ih hop₁).mpr hrest]

/-- **A batch is its inserts.** -/
theorem insertBatch_iff {cs ls : List ℕ} : insertBatch H z S sender cs ls = .ok (S', evs) ↔
    cs ≠ [] ∧ cs.length = ls.length ∧ Singles H z sender S (cs.zip ls) S' evs := by
  by_cases hop : sender = S.operator
  · rw [← insertAll_iff hop]
    unfold insertBatch
    rw [if_neg (not_not.mpr hop)]
    by_cases hbad : cs.length = 0 ∨ cs.length ≠ ls.length
    · rw [if_pos hbad]
      rcases hbad with hnil | hlen
      · simp [List.eq_nil_of_length_eq_zero hnil]
      · simp [hlen]
    · rw [if_neg hbad]
      rw [not_or, not_not, List.length_eq_zero_iff] at hbad
      simp [hbad]
  · constructor
    · intro h
      simp [insertBatch, hop] at h
    · rintro ⟨hne, hlen, h⟩
      -- the first insert is refused
      cases hzip : cs.zip ls with
      | nil =>
        rcases List.zip_eq_nil_iff.mp hzip with hnil | hnil
        · exact absurd hnil hne
        · exact absurd (List.eq_nil_of_length_eq_zero (by simp [hlen, hnil])) hne
      | cons cl rest =>
        rw [hzip] at h
        cases h with
        | cons hone _ => exact absurd (insert_iff.mp hone).1 hop

/-! ### What the books keep -/

lemma treeOf_snoc (log : List Event) (ev : Event) : treeOf H z (log ++ [ev]) = ev.change H z (treeOf H z log) := by
  simp [treeOf]

/-- An event whose root is that of the tree after its change. -/
lemma roots_snoc (h : ∀ l₁ e l₂, log = l₁ ++ e :: l₂ → ∀ root ∈ e.root, root = (treeOf H z (l₁ ++ [e])).currentRoot)
    (hev : ∀ root ∈ ev.root, root = (treeOf H z (log ++ [ev])).currentRoot) :
    ∀ l₁ e l₂, log ++ [ev] = l₁ ++ e :: l₂ → ∀ root ∈ e.root, root = (treeOf H z (l₁ ++ [e])).currentRoot := by
  intro l₁ e l₂ hlog
  rcases List.eq_nil_or_concat l₂ with rfl | ⟨l₂, last, rfl⟩
  · obtain ⟨rfl, he⟩ := List.append_inj' hlog rfl
    obtain rfl : ev = e := by simpa using he
    exact hev
  · rw [List.concat_eq_append, ← List.cons_append, ← List.append_assoc] at hlog
    obtain ⟨hl, -⟩ := List.append_inj' hlog rfl
    exact h l₁ e l₂ hl

lemma Bookkept.new {operator hasher : ℕ} {limits : List ℕ}
    (h : constructor H z sender operator hasher limits = .ok S) : Bookkept H z ⟨S, []⟩ := by
  obtain ⟨-, hl, hn, hc, ht⟩ := constructor_ok h
  refine ⟨⟨∅, fun c => ?_, ?_⟩, ?_, fun c hlive => ?_, ht, fun l₁ e l₂ hlog => ?_⟩
  · simp [limitOf, hl, Leaf.none]
  · simp [hc]
  · simp [hn]
  · simp [limitOf, hl, Leaf.none] at hlive
  · simp at hlog

lemma Bookkept.insertLeaf {c l : ℕ} (h : Bookkept H z ⟨S, log⟩) (htiers : TierTable.Valid S.allowed)
    (hok : insertLeaf H z S c l = .ok (S', ev)) : Bookkept H z ⟨S', log ++ [ev]⟩ := by
  obtain ⟨hallow, hfree, -, rfl, rfl⟩ := insertLeaf_ok hok
  obtain ⟨live, hlive, hcard⟩ := h.count
  have htier : l % 2 ^ 32 ≠ 0 := by
    obtain ⟨hpos, hmax⟩ := htiers l hallow
    unfold MAX_LIMIT at hmax
    omega
  have hc : c ∉ live := fun hmem => (hlive c).mp hmem hfree
  have htree : (S.tree.updateLeaf H z S.nextIndex c) =
      treeOf H z (log ++ [.Inserted c l S.nextIndex (S.tree.updateLeaf H z S.nextIndex c).currentRoot]) := by
    rw [treeOf_snoc, ← h.tree]
    rfl
  refine ⟨⟨Finset.cons c live hc, fun c' => ?_, ?_⟩, ?_, fun c' hlive' => ?_, htree, roots_snoc h.roots ?_⟩
  · by_cases hcc : c' = c
    · subst hcc
      simpa [limitOf] using htier
    · simp [limitOf, hcc, hlive c']
  · rw [Finset.card_cons, hcard]
  · simp [h.indices, Event.inserted, List.range_succ]
  · by_cases hcc : c' = c
    · subst hcc
      exact ⟨l, (S.tree.updateLeaf H z S.nextIndex c').currentRoot, by simp⟩
    · simp only [limitOf, Function.update_of_ne hcc] at hlive' ⊢
      obtain ⟨l', root, hmem⟩ := h.placed c' hlive'
      exact ⟨l', root, List.mem_append_left _ hmem⟩
  · intro root hroot
    rw [← htree]
    exact (Option.some.inj hroot).symm

lemma Bookkept.slash {c secret l : ℕ} (h : Bookkept H z ⟨S, log⟩)
    (hok : slash H z commitmentOf S c secret l = .ok (S', evs)) : Bookkept H z ⟨S', log ++ evs⟩ := by
  obtain ⟨hlimit, -, -, -, rfl, rfl⟩ := slash_ok hok
  obtain ⟨live, hlive, hcard⟩ := h.count
  have hc : c ∈ live := (hlive c).mpr hlimit
  have htree : S.tree.updateLeaf H z (S.leaves c).index z = treeOf H z (log ++
      [.Slashed c l (S.leaves c).index (S.tree.updateLeaf H z (S.leaves c).index z).currentRoot]) := by
    rw [treeOf_snoc, ← h.tree]
    rfl
  refine ⟨⟨live.erase c, fun c' => ?_, ?_⟩, ?_, fun c' hlive' => ?_, htree, roots_snoc h.roots ?_⟩
  · by_cases hcc : c' = c
    · subst hcc
      simp [limitOf, Leaf.none]
    · simp [limitOf, hcc, hlive c']
  · rw [Finset.card_erase_of_mem hc, hcard]
  · simp [h.indices, Event.inserted]
  · have hcc : c' ≠ c := by
      rintro rfl
      simp [limitOf, Leaf.none] at hlive'
    simp only [limitOf, Function.update_of_ne hcc] at hlive' ⊢
    obtain ⟨l', root, hmem⟩ := h.placed c' hlive'
    exact ⟨l', root, List.mem_append_left _ hmem⟩
  · intro root hroot
    rw [← htree]
    exact (Option.some.inj hroot).symm

lemma Bookkept.singles {batch : List (ℕ × ℕ)} (h : Bookkept H z ⟨S, log⟩) (htiers : TierTable.Valid S.allowed)
    (hok : Singles H z sender S batch S' evs) :
    Bookkept H z ⟨S', log ++ evs⟩ ∧ TierTable.Valid S'.allowed := by
  induction hok generalizing log with
  | nil => exact ⟨by rwa [List.append_nil], htiers⟩
  | cons hone _ ih =>
    obtain ⟨-, ev, hleaf, rfl⟩ := insert_iff.mp hone
    have hbook := h.insertLeaf htiers hleaf
    obtain ⟨-, -, -, rfl, -⟩ := insertLeaf_ok hleaf
    rw [← List.append_assoc]
    exact ih hbook htiers

/-- A call that changes no leaf and reports none leaves the books as they are. -/
lemma Bookkept.unchanged (h : Bookkept H z ⟨S, log⟩) (hleaves : S'.leaves = S.leaves)
    (hnext : S'.nextIndex = S.nextIndex) (hcount : S'.liveCount = S.liveCount) (htree : S'.tree = S.tree)
    (hroot : ev.root = none) (hindex : ev.inserted = none) (hchange : ∀ T, ev.change H z T = T) :
    Bookkept H z ⟨S', log ++ [ev]⟩ := by
  refine ⟨?_, ?_, fun c hc => ?_, ?_, roots_snoc h.roots ?_⟩
  · simpa only [limitOf, hleaves, hcount] using h.count
  · simpa [hindex, hnext] using h.indices
  · simp only [limitOf, hleaves] at hc ⊢
    obtain ⟨l, root, hmem⟩ := h.placed c hc
    exact ⟨l, root, List.mem_append_left _ hmem⟩
  · rw [treeOf_snoc, hchange, htree]
    exact h.tree
  · simp [hroot]

/-- A successful call keeps the books and the tiers. -/
lemma Bookkept.exec {call : Call} (h : Bookkept H z ⟨S, log⟩) (htiers : TierTable.Valid S.allowed)
    (hok : exec H z commitmentOf S sender call = .ok (S', evs)) :
    Bookkept H z ⟨S', log ++ evs⟩ ∧ TierTable.Valid S'.allowed := by
  cases call with
  | insert c l =>
    have hone : Singles H z sender S [(c, l)] S' (evs ++ []) := .cons hok .nil
    rw [List.append_nil] at hone
    exact h.singles htiers hone
  | insertBatch cs ls => exact h.singles htiers (insertBatch_iff.mp hok).2.2
  | slash c secret l =>
    have hbook := h.slash hok
    obtain ⟨-, -, -, -, rfl, -⟩ := slash_ok hok
    exact ⟨hbook, htiers⟩
  | setOperator nominee =>
    simp only [Paid.exec, setOperator] at hok
    split_ifs at hok
    simp only [Except.ok.injEq, Prod.mk.injEq] at hok
    obtain ⟨rfl, rfl⟩ := hok
    exact ⟨h.unchanged rfl rfl rfl rfl rfl rfl fun _ => rfl, htiers⟩
  | acceptOperator =>
    simp only [Paid.exec, acceptOperator] at hok
    split_ifs at hok
    simp only [Except.ok.injEq, Prod.mk.injEq] at hok
    obtain ⟨rfl, rfl⟩ := hok
    exact ⟨h.unchanged rfl rfl rfl rfl rfl rfl fun _ => rfl, htiers⟩

/-! ### The operator -/

lemma Singles.operator {batch : List (ℕ × ℕ)} (h : Singles H z sender S batch S' evs) :
    S'.operator = S.operator ∧ S'.pendingOperator = S.pendingOperator ∧ (batch ≠ [] → sender = S.operator) := by
  induction h with
  | nil => exact ⟨rfl, rfl, fun hne => absurd rfl hne⟩
  | cons hone _ ih =>
    obtain ⟨hop, ev, hleaf, -⟩ := insert_iff.mp hone
    obtain ⟨hoperator, hpending⟩ := insertLeaf_operator hleaf
    exact ⟨ih.1.trans hoperator, ih.2.1.trans hpending, fun _ => hop⟩

lemma OperatorOnly.of_sender {call : Call} (hsender : sender = S.operator) (hop : S'.operator = S.operator)
    (hpending : S'.pendingOperator = S.pendingOperator) : OperatorOnly S sender call S' evs :=
  ⟨fun _ _ _ _ _ => hsender, fun hne => absurd hop hne, fun hne => absurd hpending hne⟩

lemma operatorOnly {call : Call} (hok : exec H z commitmentOf S sender call = .ok (S', evs)) :
    OperatorOnly S sender call S' evs := by
  cases call with
  | insert c l =>
    obtain ⟨hsender, ev, hleaf, -⟩ := insert_iff.mp hok
    obtain ⟨hop, hpending⟩ := insertLeaf_operator hleaf
    exact .of_sender hsender hop hpending
  | insertBatch cs ls =>
    obtain ⟨hne, hlen, hsingles⟩ := insertBatch_iff.mp hok
    obtain ⟨hop, hpending, hsender⟩ := hsingles.operator
    refine .of_sender (hsender fun hnil => ?_) hop hpending
    rcases List.zip_eq_nil_iff.mp hnil with hcs | hls
    · exact hne hcs
    · exact hne (List.eq_nil_of_length_eq_zero (by simp [hlen, hls]))
  | slash c secret l =>
    obtain ⟨-, -, -, -, rfl, rfl⟩ := slash_ok hok
    exact ⟨fun _ _ _ _ hmem => by simp at hmem, fun hne => absurd rfl hne, fun hne => absurd rfl hne⟩
  | setOperator nominee =>
    simp only [Paid.exec, setOperator] at hok
    split_ifs at hok with hsender
    simp only [Except.ok.injEq, Prod.mk.injEq] at hok
    obtain ⟨rfl, rfl⟩ := hok
    exact ⟨fun _ _ _ _ hmem => by simp at hmem, fun hne => absurd rfl hne,
      fun _ => .inl ⟨nominee, rfl, not_not.mp hsender, rfl⟩⟩
  | acceptOperator =>
    simp only [Paid.exec, acceptOperator] at hok
    split_ifs at hok with hsender
    rw [not_or, not_not] at hsender
    simp only [Except.ok.injEq, Prod.mk.injEq] at hok
    obtain ⟨rfl, rfl⟩ := hok
    exact ⟨fun _ _ _ _ hmem => by simp at hmem, fun _ => ⟨rfl, hsender.1, hsender.2, rfl⟩, fun _ => .inr ⟨rfl, rfl⟩⟩

/-! ### Every run -/

/-- **The books are in order.** In every state that calls of any senders lead to, reverted ones among them, the
counter counts the live leaves, the insertions so far have the indices 0, 1, 2 and so on, the tree is that of the
leaf changes in the log and each event carries the root after its own; a batch goes through when its single inserts
by the same sender do, with their effect and events; and only the operator inserts, who changes in two steps. -/
theorem paid_set_bookkeeping {creator operator hasher : ℕ} {limits : List ℕ} {S₀ : PaidAccessSet}
    (hctor : constructor H z creator operator hasher limits = .ok S₀) {tr : List (ℕ × Call)} {s : Book}
    (hrun : Run (Book.Step H z commitmentOf) ⟨S₀, []⟩ tr s) :
    Bookkept H z s ∧
      (∀ sender cs ls S' evs, insertBatch H z s.contract sender cs ls = .ok (S', evs) ↔
        cs ≠ [] ∧ cs.length = ls.length ∧ Singles H z sender s.contract (cs.zip ls) S' evs) ∧
      ∀ sender call S' evs, exec H z commitmentOf s.contract sender call = .ok (S', evs) →
        OperatorOnly s.contract sender call S' evs := by
  refine ⟨?_, fun _ _ _ _ _ => insertBatch_iff, fun _ _ _ _ hok => operatorOnly hok⟩
  refine (hrun.invariant_state (I := fun s => Bookkept H z s ∧ TierTable.Valid s.contract.allowed)
    ⟨Bookkept.new hctor, (constructor_ok hctor).1⟩ ?_).1
  rintro t ⟨sender, call⟩ u ⟨hbook, htiers⟩ hst
  unfold Book.Step at hst
  cases hok : exec H z commitmentOf t.contract sender call with
  | error e =>
    simp only [hok] at hst
    exact hst ▸ ⟨hbook, htiers⟩
  | ok r =>
    simp only [hok] at hst
    exact hst ▸ hbook.exec htiers hok

end Book

/-- The commitment `5` inserted, slashed and inserted again in a batch with `6`: its new index is `1`. -/
theorem paid_set_bookkeeping_reinserted : ∃ s : Book,
    s.log.filterMap Event.inserted = [0, 1, 2] ∧ (s.contract.leaves 5).index = 1 ∧
      Bookkept (fun a b => a + b) 1 s := by
  let H : ℕ → ℕ → ℕ := fun a b => a + b
  let commitmentOf : ℕ → ℕ → Option ℕ := fun _ _ => some 5
  obtain ⟨S₀, hctor⟩ : ∃ S₀, constructor H 1 3 0 9 [8] = .ok S₀ := ⟨_, rfl⟩
  have hstart : Run (Book.Step H 1 commitmentOf) ⟨S₀, []⟩ [] ⟨S₀, []⟩ := .nil
  obtain rfl := Except.ok.inj hctor
  have hone := hstart.snoc (Book.Step.of_ok 3 (.insert 5 8) rfl)
  have htwo := hone.snoc (Book.Step.of_ok 4 (.slash 5 7 8) rfl)
  have hthree := htwo.snoc (Book.Step.of_ok 3 (.insertBatch [5, 6] [8, 8]) rfl)
  exact ⟨_, rfl, rfl, (paid_set_bookkeeping hctor hthree).1⟩

end ShadeTree.Contracts.Paid
